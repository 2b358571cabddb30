import NeonHearth.Policy.Coordinator

/-!
# The coordinator and a router

The router as the coordinator sees it: it is asked to block a device, to lift its blocks, whether a
block is in place, and whether it could be lifted.  What it answers is up to the outside world.  A
block that it reports as verified is in place afterwards, and one that it does not may be; only a
verified release lifts blocks, and it lifts all of them.
-/

namespace NeonHearth.Policy

open StoreCommand Option

/-- What the router is asked. -/
inductive RouterCommand where
  | enforce (action : RequestedAction)
  | reconcile (action : RequestedAction)
  | undo (action : RequestedAction)
  | undoAvailable (action : RequestedAction)

/-- What it replies. -/
@[reducible]
def RouterCommand.Reply : RouterCommand → Type
  | enforce _ | undo _ => EnforcementStatus
  | reconcile _ => ActuationReconciliation
  | undoAvailable _ => Bool

/-- The calls on the router. -/
@[reducible]
def routerCalls : PFunctor.{0, 0} := ⟨RouterCommand, RouterCommand.Reply⟩

/-- A call of a coordinator that works with the router. -/
abbrev Call : Type := (Calls routerCalls).A

/-- A program of such a coordinator. -/
abbrev Program (α : Type) : Type := Prog (Calls routerCalls) PolicyError α

/-- A call on the router. -/
def routerCall (c : RouterCommand) : Program c.Reply := Prog.await (F := Calls routerCalls) (.inr c)

/-- Every operation is one call. -/
def router : Actuator routerCalls where
  enforce action := routerCall (.enforce action)
  reconcile action := routerCall (.reconcile action)
  undo action := routerCall (.undo action)
  undoAvailable action := routerCall (.undoAvailable action)

/-- The coordinator of this router. -/
def coordinator (presence events : Bool) : PolicyCoordinator routerCalls := ⟨router, presence, events⟩

/-- What the outside world answers to a call. -/
inductive Answer where
  /-- The database and the bus do as they are asked. -/
  | stored
  /-- The result, and whether the block is in place when it is not verified. -/
  | enforced (result : EnforcementStatus) (applied : Bool)
  | reconciled (answer : ActuationReconciliation)
  | undone (result : EnforcementStatus)
  | available (answer : Bool)

namespace Device

variable (d : Device)

/-- The router is asked for a block. -/
@[simps]
def enforce (action : RequestedAction) (result : EnforcementStatus) (applied : Bool) : Device :=
  { d with
    blocks := if result = EnforcementStatus.verified ∨ applied then insert action d.blocks else d.blocks
    log := .enforced action d.journal result :: d.log }

/-- The router is asked for a release. -/
@[simps]
def undo (action : RequestedAction) (result : EnforcementStatus) : Device :=
  { d with
    blocks := if result = EnforcementStatus.verified then ∅ else d.blocks
    log := .undone action result :: d.log }

end Device

/-- What a call does to the site of the operation. -/
def call : Prog.Handler (Calls routerCalls) PolicyError Answer Site
  | .inl c, .stored, s => c.run s
  | .inr (.enforce action), .enforced result applied, s =>
    some (.ok result, { s with device := s.device.enforce action result applied })
  | .inr (.reconcile action), .reconciled answer, s =>
    some (.ok answer, { s with device := s.device.note (.reconciled action answer) })
  | .inr (.undo action), .undone result, s =>
    some (.ok result, { s with device := s.device.undo action result })
  | .inr (.undoAvailable action), .available answer, s =>
    some (.ok answer, { s with device := s.device.note (.availability action answer) })
  | _, _, _ => none

/-! ### What calls change -/

/-- How a call changes the device. -/
inductive Change (d : Device) : Call → Answer → Device → Prop
  /-- Calls that read, fail, or write what decides nothing about the router. -/
  | keep (c : StoreCommand) (policy : DevicePolicy) (extensionUsed : Bool)
      (enforcementRetryAt : Option DateTime) : Change d (.inl c) .stored { d with
        policy := policy
        extensionUsed := extensionUsed
        enforcementRetryAt := enforcementRetryAt }
  | reserve (policyVersion : ℕ) (action : RequestedAction) (decision : Option PolicyChanged)
      (h : d.journal = none) :
      Change d (.inl (.reserveActuationWithDecision policyVersion action decision)) .stored
        (d.reserve ⟨policyVersion, action, decision⟩)
  | retire (policyVersion : ℕ) (action : RequestedAction) :
      Change d (.inl (.clearActuationAttempt policyVersion action)) .stored d.retire
  | scheduleRelease (c : StoreCommand) (policy : DevicePolicy)
      (retry : RequestedAction × DateTime) :
      Change d (.inl c) .stored ((d.setPolicy policy).setRelease (some retry))
  | clearRelease : Change d (.inl .clearReleaseRetry) .stored (d.setRelease none)
  | prepare (event : PolicyChanged) (h : d.published ≠ some event) :
      Change d (.inl (.prepareExactDecisionPublication event)) .stored (d.prepare event)
  | publish (event : PolicyChanged) :
      Change d (.inl (.publish event)) .stored (d.note (.delivered event))
  | acknowledge (event : PolicyChanged) :
      Change d (.inl (.markDecisionPublishedAndClearAttempt event none)) .stored
        (d.acknowledge event)
  | acknowledgeAndRetire (event : PolicyChanged) (attempt : ActuationAttempt) :
      Change d (.inl (.markDecisionPublishedAndClearAttempt event (some attempt))) .stored
        (d.acknowledge event).retire
  | enforce (action : RequestedAction) (result : EnforcementStatus) (applied : Bool) :
      Change d (.inr (.enforce action)) (.enforced result applied) (d.enforce action result applied)
  | reconcile (action : RequestedAction) (answer : ActuationReconciliation) :
      Change d (.inr (.reconcile action)) (.reconciled answer) (d.note (.reconciled action answer))
  | undo (action : RequestedAction) (result : EnforcementStatus) :
      Change d (.inr (.undo action)) (.undone result) (d.undo action result)
  | undoAvailable (action : RequestedAction) (answer : Bool) :
      Change d (.inr (.undoAvailable action)) (.available answer)
        (d.note (.availability action answer))

theorem Change.same (d : Device) (c) : Change d (.inl c) .stored d :=
  .keep c d.policy d.extensionUsed d.enforcementRetryAt

theorem change_of_run {c} {s s' : Site} {r}
    (h : c.run s = some (r, s')) : Change s.device (.inl c) .stored s'.device := by
  cases c with
  | reserveActuationWithDecision policyVersion action decision =>
    rw [run] at h
    split at h
    · split at h <;> cases h <;> exact .same ..
    · next hnone => cases h; exact .reserve _ _ _ hnone
  | clearActuationAttempt policyVersion action =>
    rw [run] at h
    split at h
    · cases h; exact .retire ..
    · cases h; exact .same ..
  | scheduleReleaseRetry action now =>
    obtain ⟨at', -, hs⟩ := map_eq_some_iff.1 h
    cases hs
    exact .scheduleRelease _ s.device.policy (action, at')
  | clearReleaseRetry => cases h; exact .clearRelease
  | scheduleEnforcementRetry now =>
    obtain ⟨at', -, hs⟩ := map_eq_some_iff.1 h
    cases hs
    exact .keep _ s.device.policy s.device.extensionUsed (some at')
  | clearEnforcementRetry => cases h; exact .keep _ s.device.policy s.device.extensionUsed none
  | setOwnerDecision value =>
    cases h
    exact .keep _ _ s.device.extensionUsed s.device.enforcementRetryAt
  | setOwnerDecisionAndScheduleReleaseRetry value action now =>
    obtain ⟨at', -, hs⟩ := map_eq_some_iff.1 h
    cases hs
    exact .scheduleRelease _ _ (action, at')
  | extendOnce until' =>
    obtain ⟨due, -, hs⟩ := map_eq_some_iff.1 h
    split at hs
    · split at hs
      · cases hs; exact .same ..
      · cases hs; exact .keep _ _ true s.device.enforcementRetryAt
    · cases hs; exact .same ..
  | prepareExactDecisionPublication decision =>
    rw [run] at h
    split at h
    · cases h; exact .same ..
    · next hne => cases h; exact .prepare _ hne
  | publish decision => cases h; exact .publish _
  | markDecisionPublishedAndClearAttempt decision attempt =>
    cases attempt with
    | none => cases h; exact .acknowledge decision
    | some attempt =>
      rw [run] at h
      split at h
      · cases h; exact .acknowledgeAndRetire decision attempt
      · cases h; exact .same ..
  | _ => cases h; exact .same ..

/-- **What a call can change.** -/
theorem change_of_call {c : Call} {answer} {s s' : Site} {r} (h : call c answer s = some (r, s')) :
    Change s.device c answer s'.device := by
  unfold call at h
  split at h
  · exact change_of_run h
  · cases h; exact .enforce ..
  · cases h; exact .reconcile ..
  · cases h; exact .undo ..
  · cases h; exact .undoAvailable ..
  · cases h

end NeonHearth.Policy
