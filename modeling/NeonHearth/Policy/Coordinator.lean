import NeonHearth.Policy.Store

/-!
# The policy coordinator

`PolicyCoordinator` evaluates the policy of a device, drives the router to what the evaluation asks
for, and publishes what came of it.  Its operations are programs of awaited calls: on the database,
on the event bus and on the router, which is reached through an `Actuator` whose own calls are left
open.

* `PolicyCoordinator.publishExact` : the outbox protocol, by which every decision is published;
* `PolicyCoordinator.evaluate` : an evaluation, in the order of the source: a release that waits to
  be retried, a journal row of another action, the action itself.
-/

namespace NeonHearth.Policy

/-- What the coordinator calls: the store, the bus, and the calls `A` of its actuator. -/
@[reducible]
def Calls (A : PFunctor.{0, 0}) : PFunctor.{0, 0} where
  A := StoreCommand ⊕ A.A
  B
    | .inl c => c.Reply
    | .inr c => A.B c

variable {A : PFunctor.{0, 0}}

abbrev PolicyProg (A : PFunctor.{0, 0}) := Prog (Calls A) PolicyError

def store (c : StoreCommand) : PolicyProg A c.Reply := Prog.await (F := Calls A) (.inl c)

/-- The access to the router. -/
structure Actuator (A : PFunctor.{0, 0}) where
  enforce : RequestedAction → PolicyProg A EnforcementStatus
  reconcile : RequestedAction → PolicyProg A ActuationReconciliation
  undo : RequestedAction → PolicyProg A EnforcementStatus
  undoAvailable : RequestedAction → PolicyProg A Bool

structure AuditedDecision where
  evaluation : Evaluation
  reason : PolicyReason
  policyVersion : ℕ
  evidenceSummary : String
  requestedAction : RequestedAction
  enforcement : EnforcementStatus
  undoAvailable : Bool
  deriving DecidableEq

def evidenceSummary (p : DevicePolicy) : String :=
  match p.risk with
  | .highConfidenceDanger .. => "high-confidence danger"
  | .none => "policy facts evaluated"

def policyEvent (p : DevicePolicy) (evaluation : Evaluation) (enforcement : EnforcementStatus)
    (undoAvailable : Bool) : PolicyChanged where
  deviceId := p.deviceId
  policyVersion := evaluation.policyVersion
  evaluation := evaluation
  requestedAction := evaluation.requestedAction
  evidenceSummary := evidenceSummary p
  enforcementResult := enforcement
  undoAvailable := undoAvailable

structure PolicyCoordinator (A : PFunctor.{0, 0}) where
  actuator : Actuator A
  /-- Control transitions are recorded. -/
  presence : Bool
  /-- Decisions go to the event bus. -/
  events : Bool

namespace PolicyCoordinator

variable (co : PolicyCoordinator A)

/-! ### Publication -/

/-- The journal row that the acknowledgement of an event retires. -/
def matchingAttempt (event : PolicyChanged) :
    Option ActuationAttempt → PolicyProg A (Option ActuationAttempt)
  | some attempt => pure (some attempt)
  | none => do
    if event.enforcementResult = .verified ∧ event.requestedAction.isBlock then
      let attempt ← store .actuationAttempt
      return attempt.filter fun attempt => attempt.policyVersion = event.policyVersion &&
        attempt.action = event.requestedAction && attempt.decision = some event
    else return none

def publishExact (event : PolicyChanged) (attempt : Option ActuationAttempt) :
    PolicyProg A Unit := do
  if ← store (.prepareExactDecisionPublication event) then
    if co.events then store (.publish event)
    let retired ← matchingAttempt event attempt
    store (.markDecisionPublishedAndClearAttempt event retired)

def finish (p : DevicePolicy) (evaluation : Evaluation) (enforcement : EnforcementStatus)
    (undoAvailable : Bool) : PolicyProg A AuditedDecision := do
  co.publishExact (policyEvent p evaluation enforcement undoAvailable) none
  return {
    evaluation := evaluation
    reason := evaluation.reason
    policyVersion := evaluation.policyVersion
    evidenceSummary := evidenceSummary p
    requestedAction := evaluation.requestedAction
    enforcement := enforcement
    undoAvailable := undoAvailable }

/-! ### Evaluation -/

section Evaluate

variable (p : DevicePolicy) (evaluation : Evaluation) (previouslyPublished : Option PolicyChanged)
  (now : DateTime)

/-- A journal row whose exact decision has been acknowledged is retired. -/
def retireAcknowledged : PolicyProg A Unit := do
  match previouslyPublished with
  | none => return
  | some last =>
    if last.enforcementResult = .verified then
      match ← store .actuationAttempt with
      | none => return
      | some attempt =>
        if attempt.policyVersion = last.policyVersion ∧ attempt.action = last.requestedAction ∧
            attempt.decision = some last then
          store (.clearActuationAttempt attempt.policyVersion attempt.action)

/-- A release has been recorded already. -/
def releaseRecorded : PolicyProg A Bool :=
  if co.presence then do
    let blocked ← store .verifiedControlBlocked
    return !blocked
  else pure false

/-- What became of a release is recorded; unless it was verified it is tried again later. -/
def settleRelease (action : RequestedAction) (undo : EnforcementStatus) : PolicyProg A Unit :=
  if undo = .verified then do
    if co.presence then store (.recordVerifiedUnblock now)
    -- only after the durable release
    store .clearReleaseRetry
  else store (.scheduleReleaseRetry action now)

/-- A release whose retry is due. -/
def release (action : RequestedAction) : PolicyProg A AuditedDecision := do
  if ← co.releaseRecorded then
    store .clearReleaseRetry
    co.finish p evaluation .verified false
  else
    let undo ← co.actuator.undo action
    let available ← co.actuator.undoAvailable action
    co.settleRelease now action undo
    co.finish p evaluation undo available

/-- Whether the block of a journal row could be undone. -/
def undoRecovered (old : ActuationAttempt) : PolicyProg A Bool :=
  if old.action.isBlock then co.actuator.undoAvailable old.action else pure false

/-- A journal row of another action is settled first; a decision ends the evaluation. -/
def reconcileOlder : PolicyProg A (Option AuditedDecision) := do
  match ← store .actuationAttempt with
  | none => return none
  | some old =>
    if old.policyVersion ≠ evaluation.policyVersion ∨ old.action ≠ evaluation.requestedAction then
      match ← co.actuator.reconcile old.action with
      | .provenNotApplied =>
        store (.clearActuationAttempt old.policyVersion old.action)
        return none
      | .verifiedApplied =>
        match old.decision with
        | some event =>
          let undoAvailable ← co.undoRecovered old
          co.publishExact { event with undoAvailable := undoAvailable } (some old)
          if old.action = .permanentBan ∧ evaluation.requestedAction = .quarantine then
            -- the ban has to be lifted before the weaker control
            store (.scheduleReleaseRetry old.action now)
            let decision ← co.finish p evaluation .manualRequired false
            return some decision
          else return none
        | none =>
          -- a row of an older version, without its decision
          if previouslyPublished.any fun last => last.enforcementResult = .verified &&
              last.policyVersion = old.policyVersion && last.requestedAction = old.action then
            store (.clearActuationAttempt old.policyVersion old.action)
            return none
          else
            let decision ← co.finish p evaluation .manualRequired false
            return some decision
      | .indeterminate | .manualRequired | .failed =>
        let decision ← co.finish p evaluation .manualRequired false
        return some decision
    else return none

/-- The published decision has the same evaluation and the given result. -/
def priorMatches (result : EnforcementStatus) : Bool :=
  previouslyPublished.any fun last => last.evaluation = evaluation &&
    last.requestedAction = evaluation.requestedAction && last.enforcementResult = result

/-- The published result stands until its retry is due. -/
def waits (result : EnforcementStatus) : PolicyProg A Bool := do
  if priorMatches evaluation previouslyPublished result then
    let due ← store (.enforcementRetryDue now)
    return !due
  else return false

/-- The reservation is the boundary of the action on the router. -/
def reserve : PolicyProg A ActuationReservation :=
  store (.reserveActuationWithDecision evaluation.policyVersion evaluation.requestedAction
    (some (policyEvent p evaluation .verified false)))

/-- The requested block, journalled. -/
def enforceReserved : PolicyProg A EnforcementStatus := do
  match ← reserve p evaluation with
  | .reserved => co.actuator.enforce evaluation.requestedAction
  | .existing =>
    match ← co.actuator.reconcile evaluation.requestedAction with
    | .verifiedApplied => return .verified
    | .provenNotApplied =>
      store (.clearActuationAttempt evaluation.policyVersion evaluation.requestedAction)
      let _ ← reserve p evaluation
      co.actuator.enforce evaluation.requestedAction
    | .indeterminate | .manualRequired => return .manualRequired
    | .failed => return .failed

def enforcement : PolicyProg A EnforcementStatus := do
  if !evaluation.requestedAction.isBlock ∨ p.protection ≠ .none then return .notRequested
  else if priorMatches evaluation previouslyPublished .verified then return .verified
  else if ← waits evaluation previouslyPublished now .manualRequired then return .manualRequired
  else if ← waits evaluation previouslyPublished now .failed then return .failed
  else co.enforceReserved p evaluation

/-- An action that did not succeed is tried again later. -/
def scheduleRetry (result : EnforcementStatus) : PolicyProg A Unit :=
  match result with
  | .manualRequired | .failed => store (.scheduleEnforcementRetry now)
  | .verified | .notRequested => store .clearEnforcementRetry

/-- A verified block is recorded. -/
def recordBlock (result : EnforcementStatus) : PolicyProg A Unit :=
  if result = .verified ∧ evaluation.requestedAction.isBlock ∧ co.presence then
    store (.recordVerifiedBlock now)
  else pure ()

/-- Whether a verified block could be undone. -/
def undoOffered (result : EnforcementStatus) : PolicyProg A Bool :=
  if result = .verified ∧ evaluation.requestedAction.isBlock then
    co.actuator.undoAvailable evaluation.requestedAction
  else pure false

/-- What came of the action is recorded and published. -/
def announce (result : EnforcementStatus) : PolicyProg A AuditedDecision := do
  co.recordBlock evaluation now result
  let undoAvailable ← co.undoOffered evaluation result
  co.finish p evaluation result undoAvailable

/-- The requested action and the decision about it. -/
def actuate : PolicyProg A AuditedDecision := do
  let result ← co.enforcement p evaluation previouslyPublished now
  scheduleRetry now result
  co.announce p evaluation now result

/-- The evaluation after the releases. -/
def settleJournal : PolicyProg A AuditedDecision := do
  match ← co.reconcileOlder p evaluation previouslyPublished now with
  | some decision => return decision
  | none => co.actuate p evaluation previouslyPublished now

end Evaluate

def evaluate (p : DevicePolicy) (now : DateTime) : PolicyProg A AuditedDecision := do
  let evaluation := evaluatePolicy p now
  let previouslyPublished ← store .publishedDecision
  retireAcknowledged previouslyPublished
  match ← store .releaseRetryAction with
  | none => co.settleJournal p evaluation previouslyPublished now
  | some action =>
    if ← store (.releaseRetryDue now) then co.release p evaluation now action
    else
      match previouslyPublished with
      | some last => co.finish p evaluation last.enforcementResult last.undoAvailable
      | none => co.settleJournal p evaluation previouslyPublished now

/-! ### Actions of the owner -/

/-- The block is undone if that is possible. -/
def undoIf (canUndo : Bool) (action : RequestedAction) : PolicyProg A EnforcementStatus :=
  if canUndo then co.actuator.undo action else pure .manualRequired

/-- A verified block is approved: the release is scheduled, then tried. -/
def approveVerifiedAction (action : RequestedAction) (now : DateTime) :
    PolicyProg A AuditedDecision := do
  store (.setOwnerDecisionAndScheduleReleaseRetry .approved action now)
  let p ← store .load
  let canUndo ← co.actuator.undoAvailable action
  let undo ← co.undoIf canUndo action
  co.settleRelease now action undo
  co.finish p (evaluatePolicy p now) undo (canUndo && undo ≠ .verified)

/-- A block that may be on the router is approved: the release is scheduled. -/
def approvePendingRelease (action : RequestedAction) (outcome : EnforcementStatus) (now : DateTime) :
    PolicyProg A AuditedDecision := do
  store (.setOwnerDecisionAndScheduleReleaseRetry .approved action now)
  let p ← store .load
  let available ← co.actuator.undoAvailable action
  co.finish p (evaluatePolicy p now) outcome available

/-- A block found on the router is recorded. -/
def recordRecovered (now : DateTime) : PolicyProg A Unit :=
  if co.presence then store (.recordVerifiedBlock now) else pure ()

/-- What is left to approve once the journal is settled. -/
def approvePublished (prior : Option PolicyChanged) (now : DateTime) :
    PolicyProg A AuditedDecision := do
  match prior.filter fun prior => decide prior.VerifiedBlock with
  | some prior => co.approveVerifiedAction prior.requestedAction now
  | none =>
    store (.setOwnerDecision .approved)
    let p ← store .load
    co.evaluate p now

def approve (now : DateTime) : PolicyProg A AuditedDecision := do
  let prior ← store .publishedDecision
  match (← store .actuationAttempt).filter fun attempt =>
      !prior.any fun published => published.enforcementResult = .verified &&
        published.policyVersion = attempt.policyVersion &&
          published.requestedAction = attempt.action with
  | none => co.approvePublished prior now
  | some attempt =>
    match ← co.actuator.reconcile attempt.action with
    | .verifiedApplied =>
      match attempt.decision with
      | none => co.approvePendingRelease attempt.action .manualRequired now
      | some recovered =>
        co.publishExact recovered (some attempt)
        co.recordRecovered now
        co.approveVerifiedAction attempt.action now
    | .provenNotApplied =>
      store (.clearActuationAttempt attempt.policyVersion attempt.action)
      co.approvePublished prior now
    | .indeterminate | .manualRequired =>
      co.approvePendingRelease attempt.action .manualRequired now
    | .failed => co.approvePendingRelease attempt.action .failed now

/-- A rejection or a quarantine, once no release is in its way. -/
def decideAndEvaluate (owner : OwnerDecision) (now : DateTime) : PolicyProg A AuditedDecision := do
  store (.setOwnerDecision owner)
  let p ← store .load
  co.evaluate p now

/-- `set_owner_decision_after_release_guard`. -/
def setOwnerDecisionAfterReleaseGuard (owner : OwnerDecision) (now : DateTime) :
    PolicyProg A AuditedDecision := do
  let current ← store .load
  let evaluation := evaluatePolicy { current with ownerDecision := owner } now
  match ← store .releaseRetryAction with
  | none => co.decideAndEvaluate owner now
  | some releaseAction =>
    if evaluation.requestedAction = releaseAction then
      match ← co.actuator.reconcile releaseAction with
      | .verifiedApplied =>
        store .clearReleaseRetry
        store (.setOwnerDecision owner)
        let p ← store .load
        let undoAvailable ← co.actuator.undoAvailable releaseAction
        co.finish p evaluation .verified undoAvailable
      | .provenNotApplied =>
        store .clearReleaseRetry
        co.decideAndEvaluate owner now
      | .indeterminate | .manualRequired | .failed => .throw .pendingRelease
    else
      store .clearReleaseRetry
      co.decideAndEvaluate owner now

def reject (now : DateTime) : PolicyProg A AuditedDecision :=
  co.setOwnerDecisionAfterReleaseGuard .rejected now

def quarantine (now : DateTime) : PolicyProg A AuditedDecision :=
  co.setOwnerDecisionAfterReleaseGuard .quarantined now

def extendOnce (until' now : DateTime) : PolicyProg A AuditedDecision := do
  let _ ← store (.extendOnce until')
  let p ← store .load
  co.evaluate p now

end PolicyCoordinator

end NeonHearth.Policy
