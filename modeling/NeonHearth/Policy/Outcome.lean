import NeonHearth.Data.History
import NeonHearth.Policy.Sequential

/-!
# What operations end with

* `errors_of_retired` : an operation fails only if the database does, or because a release is
  pending, in runs whose operations find no row whose decision is published already while they ask
  for another block.  Such a row is left when the published decision offers a release, and then no
  operation gets past it (`wedgedRejection_not_retired`);
* `converges_of_fresh` : after an evaluation the decision that it returned is the published one, the
  outbox is empty, and every decision that was ever prepared is published or superseded, in runs
  whose evaluations do not return to the published decision while another one is in the outbox
  (`revertedSweep_not_converged`).
-/

namespace NeonHearth.Policy

open Option List

variable {presence events : Bool} {ctx : Context} {d d' : Device} {s : CoordinatorState}

/-! ### Errors -/

/-- An operation that asks for a block finds no row of the other one whose decision has been
published, and an extension moves the deadline. -/
abbrev retiresPublished : Guard where
  begins ctx := (∀ row ∈ ctx.start.journal, ∀ last ∈ ctx.start.published, ¬ctx.Superseded row last) ∧
    match ctx.job.request with
    | .extendOnce until' => ∀ due ∈ ctx.start.policy.firstSeenAt.checkedAddSigned
        ctx.start.policy.identification.deadline.2.1, due < until'
    | .evaluate _ | .approve | .reject | .quarantine => True
  calls _ _ _ _ := True

theorem retiresPublished_keeps :
    Keeps retiresPublished (fun _ => True) fun ctx _ => retiresPublished.begins ctx where
  enrolled _ _ _ := trivial
  edited _ _ := trivial
  begins _ _ hg := hg
  calls h _ _ _ _ := h
  ends _ := trivial

/-- **No wedged device**: an operation fails only with the database or because a release is pending,
in every run whose operations find no published row. -/
theorem errors_of_retired (h : (coordinatorMachine presence events).Via retiresPublished.Holds s)
    {e : PolicyError} (hr : s.returned = some (ctx, .error e)) :
    e = .storage ∨ e = .pendingRelease ∧ ctx.decides := by
  obtain ⟨d, -, ⟨hpublished, hlater⟩, hfails⟩ := retiresPublished_keeps.busy_of_via h hr
  have hfails : Fails ctx e := hfails
  cases hfails with
  | storage => exact .inl rfl
  | pendingRelease hdecides => exact .inr ⟨rfl, hdecides⟩
  | supersededAttempt hsuperseded =>
    exact absurd hsuperseded (hpublished _ hsuperseded.journal _ hsuperseded.published)
  | extensionNotLater hrequest hdue hle =>
    rw [hrequest] at hlater
    exact absurd (hlater _ hdue) (not_lt.2 hle)

instance : DecidablePred retiresPublished.begins := fun ctx => by
  dsimp only
  cases ctx.job.request <;> infer_instance

/-- The quarantine offers a release; the owner rejects the camera, and a sweep follows. -/
def wedgedRejection : List CoordinatorEvent :=
  quarantineCamera true ++
    begin' (.reject camera (halfSecond 20)) 8 ++ answer (.reconciled .verifiedApplied) 0 ++
    answer (.available true) 2 ++ [.finish] ++
    begin' (.sweep (halfSecond 30)) 4 ++ answer (.reconciled .verifiedApplied) 0 ++
    answer (.available true) 2

theorem wedgedRejection_not_retired : ∃ s ctx,
    (coordinatorMachine false false).Via Guard.truthful.Holds s ∧ ctx.job.device = camera ∧
      ctx.evaluates ∧ s.returned = some (ctx, .error .supersededAttempt) := by
  obtain ⟨s, hs, ⟨ctx, r⟩, hr, hdevice, hevaluates, rfl⟩ :
      ∃ s, (coordinatorMachine false false).exec newCoordinator wedgedRejection = some s ∧
        ∃ x, s.returned = some x ∧ x.1.job.device = camera ∧ x.1.evaluates ∧
          x.2 = .error .supersededAttempt := by decide +kernel
  exact ⟨s, ctx, .exec (.start newCoordinator_init) (by decide +kernel) hs, hdevice,
    hevaluates, hr⟩

/-- The camera cannot be released when its owner approves it, and is quarantined again before the
router knows about its state. -/
def refusedQuarantine : List CoordinatorEvent :=
  quarantineCamera false ++
    begin' (.approve camera (halfSecond 20)) 4 ++ answer (.available false) 3 ++ [.finish] ++
    begin' (.quarantine camera (halfSecond 30)) 2 ++ answer (.reconciled .indeterminate) 0

theorem refusedQuarantine_errors : ∃ s ctx e,
    (coordinatorMachine false false).exec newCoordinator refusedQuarantine = some s ∧
      s.returned = some (ctx, .error e) ∧ (e = .storage ∨ e = .pendingRelease ∧ ctx.decides) := by
  obtain ⟨s, hs, ⟨ctx, r⟩, hr, rfl⟩ :
      ∃ s, (coordinatorMachine false false).exec newCoordinator refusedQuarantine = some s ∧
        ∃ x, s.returned = some x ∧ x.2 = .error .pendingRelease := by decide +kernel
  exact ⟨s, ctx, _, hs, hr,
    errors_of_retired (.exec (.start newCoordinator_init) (by decide +kernel) hs) hr⟩

/-! ### The outbox -/

/-- Every decision that was prepared has been published, or a later one has. -/
def Delivered (d : Device) : Prop :=
  ∀ later e earlier, d.log = later ++ .prepared e :: earlier →
    ∃ e', .acknowledged e' ∈ later ∧ (e' = e ∨ .prepared e' ∈ later)

/-- A decision that was prepared is published, or the outbox holds it or a later one. -/
def Outboxed (d : Device) : Prop :=
  ∀ later e earlier, d.log = later ++ .prepared e :: earlier →
    ∃ e', (.acknowledged e' ∈ later ∨ d.outbox = some e') ∧ (e' = e ∨ .prepared e' ∈ later)

theorem Outboxed.delivered (h : Outboxed d) (hnone : d.outbox = none) : Delivered d := by
  intro later e earlier hlog
  obtain ⟨e', hack | hout, he'⟩ := h later e earlier hlog
  · exact ⟨e', hack, he'⟩
  · simp [hnone] at hout

theorem Outboxed.entry (h : Outboxed d) {entry : Entry} (hlog : d'.log = entry :: d.log)
    (hprepared : ∀ e, entry = .prepared e → d'.outbox = some e)
    (houtbox : ∀ e, d.outbox = some e → d'.outbox = some e ∨ entry = .acknowledged e ∨
      ∃ e', entry = .prepared e') : Outboxed d' := by
  intro later e earlier hlog'
  rw [hlog] at hlog'
  obtain ⟨rfl, heq⟩ | ⟨later', rfl, hd⟩ := cons_eq_append_iff.1 hlog'
  · obtain ⟨rfl, -⟩ := cons_eq_cons.1 heq
    exact ⟨e, .inr (hprepared e rfl), .inl rfl⟩
  obtain ⟨e', hfound, he'⟩ := h later' e earlier hd
  have he' := he'.imp_right (mem_cons_of_mem entry)
  obtain hack | hout := hfound
  · exact ⟨e', .inl (mem_cons_of_mem _ hack), he'⟩
  · obtain hout' | rfl | ⟨e₁, rfl⟩ := houtbox e' hout
    · exact ⟨e', .inr hout', he'⟩
    · exact ⟨e', .inl mem_cons_self, he'⟩
    · exact ⟨e₁, .inr (hprepared e₁ rfl), .inr mem_cons_self⟩

/-- An evaluation that finds a decision in the outbox does not return to the published one. -/
abbrev evaluatesFresh : Guard where
  begins ctx := ctx.evaluates → ctx.start.outbox ≠ none →
    ∀ last ∈ ctx.start.published, last.evaluation ≠ ctx.evaluation
  calls _ _ _ _ := True

theorem outboxed_keeps : Keeps evaluatesFresh Outboxed
    (fun ctx d => evaluatesFresh.begins ctx ∧ Outboxed d) where
  enrolled _ _ _ := by simp [Outboxed, Device.enrolled]
  edited h _ := h
  begins h _ hg := ⟨hg, h⟩
  ends h := h.2
  calls := by
    rintro ctx d d' c answer ⟨hg, h⟩ hst hc - hchange
    refine ⟨hg, ?_⟩
    cases hchange with
    | keep | retire | scheduleRelease | clearRelease => exact h
    | prepare event =>
      refine h.entry rfl (fun e he => ?_) fun _ _ => .inr (.inr ⟨event, rfl⟩)
      cases he
      rfl
    | acknowledge event | acknowledgeAndRetire event attempt =>
      have hc : MayAcknowledge ctx d event _ := hc
      refine h.entry rfl (by simp) fun e he => .inr (.inl ?_)
      rw [some.inj (hc.outbox.symm.trans he)]
    | _ =>
      exact h.entry rfl (by simp) fun _ => .inl

/-- The state after an evaluation that returned a decision. -/
structure Converged (d : Device) (decision : AuditedDecision) : Prop where
  published : ∃ e, d.published = some e ∧ e.decision = decision
  outbox : d.outbox = none
  delivered : Delivered d

/-- **The outbox converges**: an evaluation leaves its decision published and nothing else to deliver,
in every run whose evaluations do not return to the published decision while another one waits. -/
theorem converges_of_fresh (h : (coordinatorMachine presence events).Via evaluatesFresh.Holds s)
    {decision : AuditedDecision} (hr : s.returned = some (ctx, .ok decision))
    (hevaluates : ctx.evaluates) :
    ∃ d, s.devices.get ctx.job.device = some d ∧ Converged d decision := by
  obtain ⟨d, hd, ⟨hg, hout⟩, hpub, hdecision, houtbox, -⟩ := outboxed_keeps.busy_of_via h hr
  have hnone : d.outbox = none := by
    obtain hnone | ⟨hsame, hstart⟩ := houtbox
    · exact hnone
    · by_contra hne
      rw [hsame] at hne
      exact hg hevaluates hne _ (hstart.trans hpub) rfl
  exact ⟨d, hd, ⟨_, hpub, hdecision.symm⟩, hnone, hout.delivered hnone⟩

/-- A sweep finds the camera unconfirmed.  Then the camera is protected and looks dangerous, and the
next sweep is cut off when its decision is in the outbox. -/
def interruptedSweep : List CoordinatorEvent :=
  enrollCamera :: begin' (.sweep (halfSecond 10)) 6 ++ [.finish, .edit camera (.protection .router),
    .edit camera (.risk (.highConfidenceDanger 9500 "port scan"))] ++
    begin' (.sweep (halfSecond 20)) 5 ++ [.crash]

/-- The danger is over before the next sweep. -/
def revertedSweep : List CoordinatorEvent :=
  interruptedSweep ++ [.edit camera (.risk .none)] ++ begin' (.sweep (halfSecond 30)) 5

theorem revertedSweep_not_converged : ∃ s ctx decision d,
    (coordinatorMachine false false).Reachable s ∧ s.returned = some (ctx, .ok decision) ∧
      ctx.evaluates ∧ s.devices.get ctx.job.device = some d ∧ ¬Converged d decision := by
  obtain ⟨s, hs, ⟨ctx, r⟩, hr, d, hd, decision, rfl, hevaluates, hout⟩ :
      ∃ s, (coordinatorMachine false false).exec newCoordinator revertedSweep = some s ∧
        ∃ x, s.returned = some x ∧ ∃ d, s.devices.get x.1.job.device = some d ∧
          ∃ decision, x.2 = .ok decision ∧ x.1.evaluates ∧ d.outbox ≠ none := by decide +kernel
  exact ⟨s, ctx, decision, d, Machine.reachable_of_exec newCoordinator_init hs, hr, hevaluates, hd,
    fun h => hout h.outbox⟩

/-- The danger lasts until the next sweep. -/
def repeatedSweep : List CoordinatorEvent := interruptedSweep ++ begin' (.sweep (halfSecond 30)) 6

theorem repeatedSweep_converged : ∃ s ctx decision d,
    (coordinatorMachine false false).exec newCoordinator repeatedSweep = some s ∧
      s.returned = some (ctx, .ok decision) ∧ ctx.evaluates ∧
      s.devices.get ctx.job.device = some d ∧ Converged d decision := by
  obtain ⟨s, hs, ⟨ctx, r⟩, hr, decision, rfl, hevaluates⟩ :
      ∃ s, (coordinatorMachine false false).exec newCoordinator repeatedSweep = some s ∧
        ∃ x, s.returned = some x ∧ ∃ decision, x.2 = .ok decision ∧ x.1.evaluates := by
    decide +kernel
  obtain ⟨d, hd, hconverged⟩ := converges_of_fresh
    (.exec (.start newCoordinator_init) (by decide +kernel) hs) hr hevaluates
  exact ⟨s, ctx, decision, d, hs, hr, hevaluates, hd, hconverged⟩

end NeonHearth.Policy
