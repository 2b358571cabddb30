import NeonHearth.Policy.Sequential

/-!
# Approvals and blocks

An approval looks for blocks in the published decision and in the journal only.

* `approval_of_shown` : an approval that leaves a block on the router which it found there has
  scheduled a release, and says that something is left to do.

It holds in runs that keep blocks in sight (`keepsShown`): as long as the router carries a block, the
published decision reports one, or a journal row asks for one that is there, or a release is scheduled
and the published decision is about it.  A decision that asks for nothing, published over a block by a
sweep, hides the block from the approval (`clearedDanger_hides`).
-/

namespace NeonHearth.Policy

open Option List

variable {presence events : Bool} {ctx : Context} {d d' : Device} {s : CoordinatorState}

/-- The published decision reports a block, or a journal row asks for one that is in place. -/
def Device.Reports (d : Device) : Prop :=
  (∃ e ∈ d.published, e.VerifiedBlock) ∨ ∃ row ∈ d.journal, row.action ∈ d.blocks
  deriving Decidable

/-- The tables show that the router carries a block. -/
def Device.Shows (d : Device) : Prop :=
  d.Reports ∨ d.releaseRetry ≠ none ∧ ∃ e ∈ d.published, e.enforcementResult ≠ .notRequested
  deriving Decidable

/-- The blocks that an approval found and left are waiting for their release. -/
def HidesNoBlock (ctx : Context) (d : Device) (decision : AuditedDecision) : Prop :=
  (∃ a ∈ ctx.start.blocks, a ∈ d.blocks) →
    decision.enforcement ≠ .notRequested ∧ d.releaseRetry ≠ none

/-- The device after the acknowledgement of the decision. -/
def Device.acknowledged (d : Device) (e : PolicyChanged) : Option ActuationAttempt → Device
  | none => d.acknowledge e
  | some _ => (d.acknowledge e).retire

/-- The router denies only blocks that are not there, and does not ignore a release; a release is
called off only while the block is reported, and an operation other than an approval publishes only
what shows it. -/
def Context.keepsSight (ctx : Context) (d : Device) : Call → Answer → Bool
  | .inr (.reconcile action), .reconciled .provenNotApplied => action ∉ d.blocks
  | .inr (.undo _), .undone result => result ≠ .notRequested
  | .inl .clearReleaseRetry, _ => d.blocks = ∅ ∨ d.Reports
  | .inl (.markDecisionPublishedAndClearAttempt e attempt), _ =>
    ctx.approves ∨ d.blocks = ∅ ∨ (d.acknowledged e attempt).Shows
  | _, _ => true

abbrev keepsShown : Guard where
  begins _ := True
  calls ctx d c answer := ctx.keepsSight d c answer

/-- What is known about the router. -/
structure Sighted (d : Device) : Prop where
  shown : d.blocks = ∅ ∨ d.Shows
  undone : ∀ a, d.lastCall = some (.undone a .verified) → d.blocks = ∅
  ignored : ∀ a, d.lastCall ≠ some (.undone a .notRequested)
  denied : ∀ a, d.log.head? = some (.reconciled a .provenNotApplied) → a ∉ d.blocks

/-- What an operation knows about the router. -/
structure SightedBy (ctx : Context) (d : Device) : Prop extends Sighted d where
  start : ctx.start.blocks = ∅ ∨ ctx.start.Shows
  /-- An approval calls a release off only when the router carries nothing. -/
  calledOff : ctx.approves → ctx.start.releaseRetry ≠ none → d.releaseRetry = none → d.blocks = ∅
  disproved : ctx.approves → ∀ a, ctx.Noted d (.reconciled a .provenNotApplied) → a ∉ ctx.start.blocks

theorem Context.Noted.of_cons {entry entry' : Entry} (h : ctx.Noted d' entry')
    (hlog : d'.log = entry :: d.log) : entry' = entry ∨ ctx.Noted d entry' := by
  obtain ⟨recent, hrecent, hmem⟩ := h
  cases recent with
  | nil => simp at hmem
  | cons first recent =>
    rw [Context.Since, hlog, cons_append, cons_eq_cons] at hrecent
    obtain ⟨rfl, hrecent⟩ := hrecent
    obtain rfl | hmem := mem_cons.1 hmem
    · exact .inl rfl
    · exact .inr ⟨recent, hrecent, hmem⟩

section

variable (h : SightedBy ctx d)
include h

theorem SightedBy.same (hlog : d'.log = d.log) (hblocks : d'.blocks = d.blocks)
    (hshows : d'.blocks = ∅ ∨ d'.Shows)
    (hcalledOff : ctx.approves → ctx.start.releaseRetry ≠ none → d'.releaseRetry = none →
      d'.blocks = ∅) : SightedBy ctx d' := by
  have hlast : d'.lastCall = d.lastCall := by rw [Device.lastCall, hlog, Device.lastCall]
  refine ⟨⟨hshows, ?_, ?_, ?_⟩, h.start, hcalledOff, ?_⟩
  · rw [hlast, hblocks]
    exact h.undone
  · rw [hlast]
    exact h.ignored
  · rw [hlog, hblocks]
    exact h.denied
  · rintro ha a ⟨recent, hrecent, hmem⟩
    exact h.disproved ha a ⟨recent, hlog.symm.trans hrecent, hmem⟩

/-- An entry that is not an answer of the router. -/
theorem SightedBy.entry {entry : Entry} (hcall : entry.isCall = false)
    (hlog : d'.log = entry :: d.log) (hblocks : d'.blocks = d.blocks)
    (hretry : d'.releaseRetry = d.releaseRetry) (hshows : d'.blocks = ∅ ∨ d'.Shows) :
    SightedBy ctx d' := by
  have hlast : d'.lastCall = d.lastCall := by
    rw [lastCall_of_log hlog, hcall]
    rfl
  have hne : ∀ a answer, Entry.reconciled a answer ≠ entry := by
    rintro a answer rfl
    cases hcall
  refine ⟨⟨hshows, ?_, ?_, fun a hhead => ?_⟩, h.start, ?_, fun ha a hnoted => ?_⟩
  · rw [hlast, hblocks]
    exact h.undone
  · rw [hlast]
    exact h.ignored
  · rw [hlog] at hhead
    exact absurd (some.inj hhead).symm (hne a _)
  · rw [hretry, hblocks]
    exact h.calledOff
  · exact h.disproved ha a ((hnoted.of_cons hlog).resolve_left (hne a _))

/-- What an approval publishes shows the blocks that are left. -/
theorem SightedBy.shows_of_approval {e} (ha : ctx.approves)
    (happroval : Approval ctx d d.published e.enforcementResult) :
    (d.acknowledge e).blocks = ∅ ∨ (d.acknowledge e).Shows := by
  cases happroval with
  | pending hretry hresult =>
    refine .inr (.inr ⟨hretry, e, rfl, hresult.elim id ?_⟩)
    rintro ⟨a, hlast⟩
    exact absurd hlast (h.ignored a)
  | undone hlast => exact .inl (h.undone _ hlast)
  | fenced hretry hstart => exact .inl (h.calledOff ha hstart hretry)
  | waiting hpub hlast hresult hblock hretry =>
    obtain hempty | (⟨e', he', hblock'⟩ | hrow) | ⟨-, e', he', hresult'⟩ := h.shown
    · exact .inl hempty
    · obtain rfl := some.inj ((hpub.trans hlast).symm.trans he')
      exact absurd hblock' hblock
    · exact .inr (.inl (.inr hrow))
    · obtain rfl := some.inj ((hpub.trans hlast).symm.trans he')
      exact .inr (.inr ⟨hretry, e, rfl, hresult ▸ hresult'⟩)
  | unreleased hpub hstart hretry hblock =>
    obtain hempty | (⟨e', he', hblock'⟩ | hrow) | ⟨hretry', e', he', -⟩ := h.shown
    · exact .inl hempty
    · exact absurd hblock' (hblock e' (hpub ▸ he'))
    · exact .inr (.inl (.inr hrow))
    · -- with a release scheduled something had been published
      obtain hnone | hnone := hstart
      · exact absurd (hretry.trans hnone) hretry'
      · exact absurd (he'.symm.trans (hpub.trans hnone)) (by simp)

theorem SightedBy.acknowledge (hst : Stored d) {e attempt} (hmay : MayAcknowledge ctx d e attempt)
    (hg : ctx.approves ∨ d.blocks = ∅ ∨ (d.acknowledged e attempt).Shows) :
    SightedBy ctx (d.acknowledged e attempt) := by
  have hblocks : (d.acknowledged e attempt).blocks = d.blocks := by cases attempt <;> rfl
  have hpub : (d.acknowledged e attempt).published = some e := by cases attempt <;> rfl
  have hlog : (d.acknowledged e attempt).log = .acknowledged e :: d.log := by cases attempt <;> rfl
  have hretry : (d.acknowledged e attempt).releaseRetry = d.releaseRetry := by cases attempt <;> rfl
  refine h.entry rfl hlog hblocks hretry ?_
  obtain ha | hshows := hg
  · obtain hblock | happroval := hmay.approved ha
    · exact .inr (.inl (.inl ⟨e, hpub, hblock⟩))
    cases attempt with
    | none => exact h.shows_of_approval ha happroval
    | some row =>
      -- a row is retired by the verified block it stands for
      obtain ⟨hrow, hdecision⟩ := hmay.retired row rfl
      obtain ⟨e', hreserves, -⟩ := hst.row row hrow
      obtain rfl := some.inj (hdecision.symm.trans hreserves.decision)
      refine .inr (.inl (.inl ⟨e, hpub, hreserves.result, ?_⟩))
      rw [show e.requestedAction = row.action from hreserves.action]
      exact hreserves.block
  · rw [hblocks]
    exact hshows

variable {action : RequestedAction}

theorem SightedBy.enforce (hmay : MayEnforce ctx d action) (result) (applied : Bool) :
    SightedBy ctx (d.enforce action result applied) := by
  have hlast : (d.enforce action result applied).lastCall =
    some (.enforced action d.journal result) := rfl
  obtain ⟨row, hrow, haction, -⟩ := hmay.reserved
  refine ⟨⟨?_, by simp [hlast], by simp [hlast], by simp⟩, h.start, fun ha hstart hnone => ?_,
    fun ha a hnoted => ?_⟩
  · by_cases hin : result = .verified ∨ applied = true
    · -- the block is in place, and so is its row
      refine .inr (.inl (.inr ⟨row, hrow, ?_⟩))
      simp [hin, haction]
    obtain hempty | hshows := h.shown
    · exact .inl (by simp [hin, hempty])
    · refine .inr ?_
      unfold Device.Shows Device.Reports
      rw [Device.enforce_blocks, if_neg hin]
      exact hshows
  · exact absurd ((hmay.approved ha).2.symm.trans hnone) hstart
  · exact h.disproved ha a ((hnoted.of_cons rfl).resolve_left (by simp))

theorem SightedBy.undo {result} (hresult : result ≠ .notRequested) (action) :
    SightedBy ctx (d.undo action result) := by
  have hlast : (d.undo action result).lastCall = some (.undone action result) := rfl
  have hblocks : (d.undo action result).blocks = ∅ ∨ (d.undo action result).blocks = d.blocks := by
    rw [Device.undo_blocks]
    split
    · exact .inl rfl
    · exact .inr rfl
  refine ⟨⟨?_, fun a ha => ?_, ?_, by simp⟩, h.start, fun ha hstart hnone => ?_,
    fun ha a hnoted => ?_⟩
  · obtain hempty | heq := hblocks
    · exact .inl hempty
    · unfold Device.Shows Device.Reports
      rw [heq]
      exact h.shown
  · obtain ⟨-, rfl⟩ : action = a ∧ result = .verified := by simpa [hlast] using ha
    simp
  · simp [hlast, hresult]
  · exact hblocks.elim id fun heq => heq.trans (h.calledOff ha hstart hnone)
  · exact h.disproved ha a ((hnoted.of_cons rfl).resolve_left (by simp))

theorem SightedBy.reconcile {answer} (hstart : ctx.approves → d.blocks = ctx.start.blocks)
    (hdenied : answer = .provenNotApplied → action ∉ d.blocks) :
    SightedBy ctx (d.note (.reconciled action answer)) := by
  have hlast : (d.note (.reconciled action answer)).lastCall = some (.reconciled action answer) := rfl
  refine ⟨⟨h.shown, by simp [hlast], by simp [hlast], fun a hhead => ?_⟩, h.start, h.calledOff,
    fun ha a hnoted => ?_⟩
  · obtain ⟨rfl, rfl⟩ : action = a ∧ answer = .provenNotApplied := by simpa using hhead
    exact hdenied rfl
  · obtain heq | hnoted := hnoted.of_cons rfl
    · obtain ⟨rfl, rfl⟩ : a = action ∧ ActuationReconciliation.provenNotApplied = answer := by
        simpa using heq
      exact hstart ha ▸ hdenied rfl
    · exact h.disproved ha a hnoted

end

theorem sighted_keeps : Keeps keepsShown Sighted SightedBy where
  enrolled _ _ _ := by
    refine ⟨.inl rfl, ?_, ?_, ?_⟩ <;> simp [Device.enrolled, Device.lastCall]
  edited h _ := { h with }
  begins h _ _ := by
    refine ⟨h, h.shown, fun _ hstart hnone => absurd hnone hstart, ?_⟩
    rintro - a ⟨recent, hrecent, hmem⟩
    rw [self_eq_append_left.1 hrecent] at hmem
    simp at hmem
  ends h := h.toSighted
  calls := by
    intro ctx d d' c answer h hst hc hg hchange
    cases hchange with
    | keep => exact h.same rfl rfl h.shown h.calledOff
    | reserve policyVersion action decision hnone =>
      refine h.entry rfl rfl rfl rfl (h.shown.imp_right fun hshows => ?_)
      refine hshows.imp_left fun hreports => .inl (hreports.resolve_right ?_)
      rintro ⟨row, hrow, -⟩
      simp [hnone] at hrow
    | retire policyVersion action =>
      obtain ⟨hhead, row, hrow, -, haction⟩ := hc
      refine h.same rfl rfl (h.shown.imp_right fun hshows => ?_) h.calledOff
      refine hshows.imp_left fun hreports => .inl (hreports.resolve_right ?_)
      -- the row that is retired asks for a block that is not there
      rintro ⟨row', hrow', hin⟩
      obtain rfl := some.inj (hrow.symm.trans hrow')
      exact h.denied action hhead (haction ▸ hin)
    | scheduleRelease c policy retry =>
      refine h.same rfl rfl (h.shown.imp_right fun hshows => ?_) (by simp)
      exact hshows.imp_right fun hshows => ⟨by simp, hshows.2⟩
    | clearRelease =>
      have hg : d.blocks = ∅ ∨ d.Reports := of_decide_eq_true hg
      refine h.same rfl rfl (hg.imp_right .inl) fun ha _ _ => ?_
      obtain ⟨a, hlast⟩ | ⟨hnone, hno⟩ := hc ha
      · exact h.undone a hlast
      · refine hg.resolve_right ?_
        rintro (⟨e, he, hblock⟩ | ⟨row, hrow, -⟩)
        · exact hno e he hblock
        · simp [hnone] at hrow
    | acknowledge event | acknowledgeAndRetire event attempt =>
      have hc : MayAcknowledge ctx d event _ := hc
      exact h.acknowledge hst hc (of_decide_eq_true hg)
    | enforce action result applied => exact h.enforce hc result applied
    | undo action result =>
      exact h.undo (of_decide_eq_true hg) action
    | reconcile action answer =>
      refine h.reconcile hc ?_
      rintro rfl
      exact of_decide_eq_true hg
    | _ => exact h.entry rfl rfl rfl rfl h.shown

/-- **No approval hides a block** in every run that keeps blocks in sight. -/
theorem approval_of_shown (h : (coordinatorMachine presence events).Via keepsShown.Holds s)
    {decision : AuditedDecision} (hr : s.returned = some (ctx, .ok decision)) (ha : ctx.approves) :
    ∃ d, s.devices.get ctx.job.device = some d ∧ HidesNoBlock ctx d decision := by
  obtain ⟨d, hd, hsighted, -, -, -, happroval⟩ := sighted_keeps.busy_of_via h hr
  refine ⟨d, hd, ?_⟩
  rintro ⟨a, hstart, hleft⟩
  -- the block that the approval found was not in the journal alone
  have hshown : ctx.Disproved d → (∃ e ∈ ctx.start.published, e.VerifiedBlock) ∨
      ctx.start.releaseRetry ≠ none ∧
        ∃ e ∈ ctx.start.published, e.enforcementResult ≠ .notRequested := by
    intro hdisproved
    obtain hempty | (hblock | ⟨row, hrow, hin⟩) | hretry := hsighted.start
    · simp [hempty] at hstart
    · exact .inl hblock
    · exact absurd hin (hsighted.disproved ha row.action (hdisproved row hrow))
    · exact .inr hretry
  cases happroval ha with
  | pending hretry hresult =>
    refine ⟨hresult.elim id ?_, hretry⟩
    rintro ⟨a, hlast⟩
    exact absurd hlast (hsighted.ignored a)
  | undone hlast => simp [hsighted.undone _ hlast] at hleft
  | fenced hretry hstart' => simp [hsighted.calledOff ha hstart' hretry] at hleft
  | waiting hpub hlast hresult hblock hretry hblocks hdisproved =>
    refine ⟨?_, hretry⟩
    obtain ⟨e, he, hblock'⟩ | ⟨-, e, he, hresult'⟩ := hshown hdisproved
    · obtain rfl := some.inj (hlast.symm.trans he)
      exact absurd hblock' hblock
    · obtain rfl := some.inj (hlast.symm.trans he)
      exact hresult ▸ hresult'
  | unreleased hpub hstart' hretry hblock hdisproved =>
    obtain ⟨e, he, hblock'⟩ | ⟨hretry', e, he, -⟩ := hshown hdisproved
    · exact absurd hblock' (hblock e he)
    · obtain hnone | hnone := hstart'
      · exact absurd hnone hretry'
      · exact absurd (he.symm.trans hnone) (by simp)

/-- A sweep quarantines the camera because it looks dangerous.  The danger is over before the next
sweep, and then the owner approves the camera. -/
def clearedDanger : List CoordinatorEvent :=
  [enrollCamera, .edit camera (.risk (.highConfidenceDanger 9500 "port scan"))] ++
    begin' (.sweep (halfSecond 10)) 4 ++ answer (.enforced .verified true) 1 ++
    answer (.available false) 3 ++ [.finish, .edit camera (.risk .none)] ++
    begin' (.sweep (halfSecond 20)) 7 ++ [.finish] ++ begin' (.approve camera (halfSecond 30)) 10

theorem clearedDanger_hides : ∃ s ctx decision d,
    (coordinatorMachine false false).Via Guard.truthful.Holds s ∧
      s.returned = some (ctx, .ok decision) ∧ ctx.approves ∧
      s.devices.get ctx.job.device = some d ∧ decision.enforcement = .notRequested ∧
      d.releaseRetry = none ∧ ¬HidesNoBlock ctx d decision := by
  obtain ⟨s, hs, ⟨ctx, r⟩, hr, d, hd, decision, rfl, happroves, hresult, hretry, hstart, hblocks⟩ :
      ∃ s, (coordinatorMachine false false).exec newCoordinator clearedDanger = some s ∧
        ∃ x, s.returned = some x ∧ ∃ d, s.devices.get x.1.job.device = some d ∧
          ∃ decision, x.2 = .ok decision ∧ x.1.approves ∧ decision.enforcement = .notRequested ∧
            d.releaseRetry = none ∧ x.1.start.blocks = {.quarantine} ∧ d.blocks = {.quarantine} := by
    decide +kernel
  refine ⟨s, ctx, decision, d, .exec (.start newCoordinator_init) (by decide +kernel) hs,
    hr, happroves, hd, hresult, hretry, fun h => ?_⟩
  exact (h ⟨.quarantine, hstart.ge (by simp), by simp [hblocks]⟩).2 hretry

/-- The owner approves the quarantined camera, which the router cannot release. -/
def pendingApproval : List CoordinatorEvent :=
  quarantineCamera false ++ begin' (.approve camera (halfSecond 20)) 4 ++ answer (.available false) 3

theorem pendingApproval_hidesNoBlock : ∃ s ctx decision d,
    (coordinatorMachine false false).exec newCoordinator pendingApproval = some s ∧
      s.returned = some (ctx, .ok decision) ∧ ctx.approves ∧
      s.devices.get ctx.job.device = some d ∧ HidesNoBlock ctx d decision := by
  obtain ⟨s, hs, ⟨ctx, r⟩, hr, decision, rfl, happroves⟩ :
      ∃ s, (coordinatorMachine false false).exec newCoordinator pendingApproval = some s ∧
        ∃ x, s.returned = some x ∧ ∃ decision, x.2 = .ok decision ∧ x.1.approves := by
    decide +kernel
  obtain ⟨d, hd, hhides⟩ := approval_of_shown
    (.exec (.start newCoordinator_init) (by decide +kernel) hs) hr happroves
  exact ⟨s, ctx, decision, d, hs, hr, happroves, hd, hhides⟩

end NeonHearth.Policy
