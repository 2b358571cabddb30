import NeonHearth.Data.History
import NeonHearth.Policy.Sequential

/-!
# Reports of blocks

The published decision of a device may report a verified block.

* `blocked_of_reported` : the router then blocks the device, or it has just verified a release whose
  outcome is not published yet.

A decision is published after the router has answered, so between the verified release and the
acknowledgement of its outcome the block is still reported.  The result of a release is published
with the decision of the time, in the field of the result of a block.  The theorem is therefore about
runs in which an operation that may release a device does not ask for a block, and no operation
returns to the decision from before a release whose outcome was lost; the approval of a dangerous
device breaks the first condition (`released_reported`).
-/

namespace NeonHearth.Policy

variable {presence events : Bool} {ctx : Context} {d d' : Device} {s : CoordinatorState}

/-- A verified release. -/
def Entry.releases : Entry → Bool
  | .undone _ .verified => true
  | _ => false

/-- What is published after a release, or blocked again. -/
def Entry.overrides : Entry → Bool
  | .enforced _ _ .verified | .acknowledged _ => true
  | _ => false

/-- The blocks are lifted, and the outcome is not published yet. -/
abbrev Lifted (log : List Entry) : Prop := OpenSince (·.releases) (·.overrides) log

/-- The router confirms only blocks that are in place. -/
def Device.confirms (d : Device) : Call → Answer → Bool
  | .inr (.reconcile action), .reconciled .verifiedApplied => action ∈ d.blocks
  | _, _ => true

/-- An operation that asks for a block releases none, and does not return to the decision from before
a release whose outcome was lost. -/
abbrev separatesReleases : Guard where
  begins ctx := ctx.evaluation.requestedAction.isBlock →
    ¬ctx.Releases ∧ (Lifted ctx.start.log → ¬ctx.PriorVerified ctx.start.published)
  calls _ d c answer := d.confirms c answer

/-- What is known about the router. -/
structure Reporting (d : Device) : Prop where
  report : ∀ e, d.published = some e → e.VerifiedBlock → d.blocks.Nonempty ∨ Lifted d.log
  enforced : ∀ a att, d.lastCall = some (.enforced a att .verified) → d.blocks.Nonempty
  confirmed : ∀ a, d.lastCall = some (.reconciled a .verifiedApplied) → d.blocks.Nonempty

/-- What an operation knows about the router.  One that releases nothing finds the blocks lifted only
if they were when it began, and then it has published nothing. -/
structure ReportingTo (ctx : Context) (d : Device) : Prop extends Reporting d where
  separates : separatesReleases.begins ctx
  lifted : ¬ctx.Releases → Lifted d.log →
    Lifted ctx.start.log ∧ d.published = ctx.start.published

section

variable (h : ReportingTo ctx d)
include h

theorem ReportingTo.mono (hlast : d'.lastCall = d.lastCall)
    (hlifted : Lifted d'.log ↔ Lifted d.log) (hpub : d'.published = d.published)
    (hblocks : d'.blocks = d.blocks) : ReportingTo ctx d' := by
  refine ⟨⟨fun e he hblock => ?_, fun a att ha => ?_, fun a ha => ?_⟩, h.separates, fun hr hl => ?_⟩
  · rw [hblocks, hlifted]
    exact h.report e (hpub ▸ he) hblock
  · exact hblocks ▸ h.enforced a att (hlast ▸ ha)
  · exact hblocks ▸ h.confirmed a (hlast ▸ ha)
  · rw [hpub]
    exact h.lifted hr (hlifted.1 hl)

open Entry

/-- An entry that is neither an answer of the router nor an acknowledgement. -/
theorem ReportingTo.entry {entry : Entry} (hcall : entry.isCall = false)
    (hack : ∀ e, entry ≠ .acknowledged e) (hlog : d'.log = entry :: d.log)
    (hpub : d'.published = d.published) (hblocks : d'.blocks = d.blocks) : ReportingTo ctx d' := by
  refine h.mono ?_ ?_ hpub hblocks
  · rw [lastCall_of_log hlog, hcall]
    rfl
  · rw [hlog]
    refine openSince_cons_of_not ?_ ?_
    · cases entry <;> simp_all [releases, isCall]
    · cases entry <;> simp_all [overrides, isCall]

/-- Whatever is published about a block, the router blocks the device. -/
theorem ReportingTo.nonempty (hst : Stored d) {e}
    (hreported : Reported ctx d e) (hblock : e.VerifiedBlock) : d.blocks.Nonempty := by
  cases hreported with
  | enforced hlast => exact h.enforced _ _ hlast
  | reconciled hlast => exact h.confirmed _ hlast
  | released hreleases haction =>
    exact absurd hreleases (h.separates (haction ▸ hblock.2)).1
  | repeated hprior hrequested =>
    obtain ⟨last, hlast, heval, hresult⟩ := hprior
    have hlastBlock : last.VerifiedBlock := by
      refine ⟨hresult, ?_⟩
      rw [hst.coherent last hlast, heval]
      exact hrequested
    refine (h.report last hlast hlastBlock).resolve_right fun hlifted => ?_
    -- the blocks were lifted before the operation began
    obtain ⟨hreleases, hfresh⟩ := h.separates hrequested
    obtain ⟨hstart, hpub⟩ := h.lifted hreleases hlifted
    exact hfresh hstart ⟨last, hpub ▸ hlast, heval, hresult⟩

theorem ReportingTo.acknowledge (hst : Stored d) {e}
    (hmay : MayPublish ctx d e) (hlog : d'.log = .acknowledged e :: d.log)
    (hpub : d'.published = some e) (hblocks : d'.blocks = d.blocks) : ReportingTo ctx d' := by
  have hlast : d'.lastCall = d.lastCall := lastCall_of_log hlog
  refine ⟨⟨fun e' he' hblock => ?_, fun a att ha => ?_, fun a ha => ?_⟩, h.separates, fun _ hl => ?_⟩
  · obtain rfl := Option.some.inj (hpub.symm.trans he')
    rw [hblocks]
    exact .inl (h.nonempty hst (hmay.reported hblock) hblock)
  · exact hblocks ▸ h.enforced a att (hlast ▸ ha)
  · exact hblocks ▸ h.confirmed a (hlast ▸ ha)
  · rw [hlog] at hl
    exact absurd rfl hl.1

theorem ReportingTo.enforce (action result) (applied : Bool) :
    ReportingTo ctx (d.enforce action result applied) := by
  have hlog : (d.enforce action result applied).log = .enforced action d.journal result :: d.log := rfl
  have hlast := lastCall_of_log hlog
  by_cases hv : result = .verified
  · subst hv
    have hblocks : (d.enforce action .verified applied).blocks.Nonempty := ⟨action, by simp⟩
    refine ⟨⟨fun _ _ _ => .inl hblocks, fun _ _ _ => hblocks, fun _ _ => hblocks⟩, h.separates,
      fun _ hl => ?_⟩
    exact absurd rfl hl.1
  · have hsub : d.blocks ⊆ (d.enforce action result applied).blocks := by
      rw [Device.enforce_blocks]
      split
      · exact Finset.subset_insert ..
      · exact Finset.Subset.refl _
    have hlifted : Lifted (d.enforce action result applied).log ↔ Lifted d.log :=
      openSince_cons_of_not (by simp [releases]) (by cases result <;> simp_all [overrides])
    refine ⟨⟨fun e he hblock => ?_, fun a att ha => ?_, fun a ha => ?_⟩, h.separates,
      fun hr hl => h.lifted hr (hlifted.1 hl)⟩
    · exact (h.report e he hblock).imp (fun hne => hne.mono hsub) hlifted.2
    · obtain ⟨-, -, rfl⟩ : action = a ∧ d.journal = att ∧ result = .verified := by
        simpa [hlast, isCall] using ha
      exact absurd rfl hv
    · simp [hlast, isCall] at ha

theorem ReportingTo.undo (hreleases : ctx.Releases) (action result) :
    ReportingTo ctx (d.undo action result) := by
  have hlast : (d.undo action result).lastCall = some (.undone action result) := rfl
  refine ⟨⟨fun e he hblock => ?_, fun a att ha => ?_, fun a ha => ?_⟩, h.separates,
    fun hr => absurd hreleases hr⟩
  · by_cases hv : result = .verified
    · subst hv
      exact .inr ⟨by simp [overrides], .inl rfl⟩
    · refine (h.report e he hblock).imp (fun hne => ?_) fun hl => ?_
      · simpa [hv] using hne
      · exact ⟨by simp [overrides], .inr hl⟩
  · simp [hlast] at ha
  · simp [hlast] at ha

theorem ReportingTo.reconcile {action answer}
    (hconfirmed : answer = .verifiedApplied → action ∈ d.blocks) :
    ReportingTo ctx (d.note (.reconciled action answer)) := by
  have hlast : (d.note (.reconciled action answer)).lastCall = some (.reconciled action answer) := rfl
  have hlifted : Lifted (d.note (.reconciled action answer)).log ↔ Lifted d.log :=
    openSince_cons_of_not (by simp [releases]) (by simp [overrides])
  refine ⟨⟨fun e he hblock => ?_, fun a att ha => ?_, fun a ha => ?_⟩, h.separates,
    fun hr hl => h.lifted hr (hlifted.1 hl)⟩
  · exact (h.report e he hblock).imp_right hlifted.2
  · simp [hlast] at ha
  · obtain ⟨rfl, rfl⟩ : action = a ∧ answer = .verifiedApplied := by simpa [hlast] using ha
    exact ⟨action, hconfirmed rfl⟩

end

theorem reporting_keeps : Keeps separatesReleases Reporting ReportingTo where
  enrolled _ _ _ := by
    refine ⟨?_, ?_, ?_⟩ <;> simp [Device.enrolled, Device.lastCall]
  edited h _ := ⟨h.report, h.enforced, h.confirmed⟩
  begins h _ hg := ⟨h, hg, fun _ hl => ⟨hl, rfl⟩⟩
  ends h := h.toReporting
  calls := by
    intro ctx d d' c answer h hst hc hg hchange
    cases hchange with
    | reserve | prepare | publish | undoAvailable => exact h.entry rfl (by simp) rfl rfl rfl
    | acknowledge event | acknowledgeAndRetire event attempt =>
      have hc : MayAcknowledge ctx d event _ := hc
      exact h.acknowledge hst hc.toMayPublish rfl rfl rfl
    | enforce action result applied => exact h.enforce action result applied
    | undo action result => exact h.undo hc action result
    | reconcile action answer =>
      refine h.reconcile fun hv => ?_
      subst hv
      simpa [separatesReleases, Device.confirms] using hg
    | _ => exact h.mono rfl .rfl rfl rfl

/-- **A reported block is on the router**, but for a release whose outcome is not published yet, in
every run that keeps releases and blocks apart. -/
theorem blocked_of_reported (h : (coordinatorMachine presence events).Via separatesReleases.Holds s)
    {id : DeviceId} (hd : s.devices.get id = some d) {e : PolicyChanged} (he : d.published = some e)
    (hblock : e.VerifiedBlock) : d.blocks.Nonempty ∨ Lifted d.log :=
  (reporting_keeps.idle_of_via h hd).report e he hblock

/-- The owner approves the quarantined camera, and the release is verified. -/
def pendingOutcome : List CoordinatorEvent :=
  quarantineCamera true ++ begin' (.approve camera (halfSecond 20)) 4 ++ answer (.available true) 0 ++
    answer (.undone .verified) 0

/-- The camera looks dangerous, a sweep quarantines it, and the owner approves it. -/
def approvedDanger : List CoordinatorEvent :=
  [enrollCamera, .edit camera (.risk (.highConfidenceDanger 9500 "port scan"))] ++
    begin' (.sweep (halfSecond 10)) 4 ++ answer (.enforced .verified true) 1 ++
    answer (.available true) 3 ++ [.finish] ++
    begin' (.approve camera (halfSecond 20)) 4 ++ answer (.available true) 0 ++
    answer (.undone .verified) 4 ++ [.finish]

/-- A block is reported that the router does not carry: between a release and the publication of its
outcome, and, with nothing under way, after the approval of a dangerous device. -/
theorem released_reported :
    (∃ s d e, (coordinatorMachine false false).Reachable s ∧ s.task.isSome ∧
      s.devices.get camera = some d ∧ d.published = some e ∧ e.VerifiedBlock ∧ d.blocks = ∅) ∧
    ∃ s d e, (coordinatorMachine false false).Reachable s ∧ s.task.isSome = false ∧
      s.devices.get camera = some d ∧ d.published = some e ∧ e.VerifiedBlock ∧ d.blocks = ∅ := by
  simp only [exists_and_left]
  exact ⟨Machine.exists_reachable newCoordinator_init pendingOutcome (by decide +kernel),
    Machine.exists_reachable newCoordinator_init approvedDanger (by decide +kernel)⟩

/-- The outcome of the release is lost, and the owner rejects the camera. -/
def lostOutcome : List CoordinatorEvent :=
  pendingOutcome ++ [.crash] ++ begin' (.reject camera (halfSecond 30)) 9 ++
    answer (.reconciled .provenNotApplied) 2 ++ answer (.enforced .verified true) 1 ++
    answer (.available false) 3 ++ [.finish]

theorem lostOutcome_blocked : ∃ s d e,
    (coordinatorMachine false false).exec newCoordinator lostOutcome = some s ∧
      s.devices.get camera = some d ∧ d.published = some e ∧ e.VerifiedBlock ∧
      (d.blocks.Nonempty ∨ Lifted d.log) := by
  obtain ⟨s, hs, d, hd, e, he, hblock⟩ :
      ∃ s, (coordinatorMachine false false).exec newCoordinator lostOutcome = some s ∧
        ∃ d, s.devices.get camera = some d ∧ ∃ e, d.published = some e ∧ e.VerifiedBlock := by
    decide +kernel
  exact ⟨s, d, e, hs, hd, he, hblock, blocked_of_reported
    (.exec (.start newCoordinator_init) (by decide +kernel) hs) hd he hblock⟩

end NeonHearth.Policy
