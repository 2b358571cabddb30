import NeonHearth.Policy.Engine
import NeonHearth.Presence.Transitions
import NeonHearth.System.Program

/-!
# The policy tables

What the service stores about one enrolled device for its policy, as the calls of
`PolicyRepository` and the control calls of `M2StateRepository` read and write it.

* `Device` : the row of `device_policy`, the outbox row and the journal row, with what the router
  carries and a log of what has been done, both of which only the analysis reads;
* `StoreCommand.run` : what each call does.  Each of them is one transaction.

A row of `device_policy` is never deleted, so a call on an enrolled device always finds it.
-/

namespace NeonHearth.Policy

open Presence

/-- A row of `policy_actuation_journal`. -/
structure ActuationAttempt where
  policyVersion : ℕ
  action : RequestedAction
  decision : Option PolicyChanged
  deriving DecidableEq

inductive ActuationReservation where
  | reserved
  | existing

/-- What a read-only look at the router tells about an action. -/
inductive ActuationReconciliation where
  | verifiedApplied
  | provenNotApplied
  | indeterminate
  | manualRequired
  | failed

inductive PolicyError where
  /-- `device is not enrolled in policy` -/
  | notEnrolled
  /-- `cannot replace a pending release until its control state is reconciled` -/
  | pendingRelease
  /-- `superseded actuation attempt requires explicit reconciliation` -/
  | supersededAttempt
  /-- `actuation journal entry changed before acknowledgement` -/
  | attemptChanged
  /-- `extension must move the applicable deadline later` -/
  | extensionNotLater
  /-- The database could not be read or written. -/
  | storage
  deriving DecidableEq

/-- What is noted about a device, for the analysis only. -/
inductive Entry where
  | reserved (attempt : ActuationAttempt)
  /-- The router was asked to block, with the journal row at that time. -/
  | enforced (action : RequestedAction) (attempt : Option ActuationAttempt)
      (result : EnforcementStatus)
  | undone (action : RequestedAction) (result : EnforcementStatus)
  | reconciled (action : RequestedAction) (answer : ActuationReconciliation)
  | availability (action : RequestedAction) (answer : Bool)
  | prepared (event : PolicyChanged)
  | delivered (event : PolicyChanged)
  | acknowledged (event : PolicyChanged)

structure Device where
  policy : DevicePolicy
  extensionUsed : Bool
  /-- `decision_fingerprint` and `published_decision_json`. -/
  published : Option PolicyChanged
  enforcementRetryAt : Option DateTime
  /-- `release_retry_action_json` and `release_retry_at`, which are written together. -/
  releaseRetry : Option (RequestedAction × DateTime)
  /-- The row of `policy_outbox`; preparing a decision deletes all others. -/
  outbox : Option PolicyChanged
  journal : Option ActuationAttempt
  /-- The blocks that the router carries. -/
  blocks : Finset RequestedAction
  /-- What has been done, the latest first. -/
  log : List Entry

/-- The row that `enroll` inserts. -/
def Device.enrolled (d : DeviceId) (firstSeenAt : DateTime) (baselineExempt : Bool) : Device where
  policy := ⟨d, firstSeenAt, baselineExempt, .unknown, .pending, .none, .none, none⟩
  extensionUsed := false
  published := none
  enforcementRetryAt := none
  releaseRetry := none
  outbox := none
  journal := none
  blocks := ∅
  log := []

namespace Device

variable (d : Device)

@[simps]
def note (entry : Entry) : Device := { d with log := entry :: d.log }

@[simps]
def reserve (attempt : ActuationAttempt) : Device :=
  { d with journal := some attempt, log := .reserved attempt :: d.log }

@[simps]
def retire : Device := { d with journal := none }

@[simps]
def setRelease (retry : Option (RequestedAction × DateTime)) : Device :=
  { d with releaseRetry := retry }

@[simps]
def setPolicy (policy : DevicePolicy) : Device := { d with policy := policy }

@[simps]
def setEnforcementRetry (at' : Option DateTime) : Device := { d with enforcementRetryAt := at' }

@[simps]
def prepare (event : PolicyChanged) : Device :=
  { d with outbox := some event, log := .prepared event :: d.log }

@[simps]
def acknowledge (event : PolicyChanged) : Device :=
  { d with
    published := some event
    outbox := d.outbox.filter (· ≠ event)
    log := .acknowledged event :: d.log }

end Device

/-- What an operation on one device can touch. -/
structure Site where
  device : Device
  transitions : List TransitionRow

/-- The calls on the database and on the event bus. -/
inductive StoreCommand where
  | publishedDecision
  | actuationAttempt
  | reserveActuationWithDecision (policyVersion : ℕ) (action : RequestedAction)
      (decision : Option PolicyChanged)
  | clearActuationAttempt (policyVersion : ℕ) (action : RequestedAction)
  | releaseRetryAction
  | releaseRetryDue (now : DateTime)
  | scheduleReleaseRetry (action : RequestedAction) (now : DateTime)
  | clearReleaseRetry
  | enforcementRetryDue (now : DateTime)
  | scheduleEnforcementRetry (now : DateTime)
  | clearEnforcementRetry
  | load
  | setOwnerDecision (value : OwnerDecision)
  | setOwnerDecisionAndScheduleReleaseRetry (value : OwnerDecision) (action : RequestedAction)
      (now : DateTime)
  | extendOnce (until' : DateTime)
  | prepareExactDecisionPublication (decision : PolicyChanged)
  | publish (decision : PolicyChanged)
  | markDecisionPublishedAndClearAttempt (decision : PolicyChanged)
      (attempt : Option ActuationAttempt)
  | verifiedControlBlocked
  | recordVerifiedBlock (at' : DateTime)
  | recordVerifiedUnblock (at' : DateTime)

namespace StoreCommand

@[reducible]
def Reply : StoreCommand → Type
  | publishedDecision => Option PolicyChanged
  | actuationAttempt => Option ActuationAttempt
  | reserveActuationWithDecision .. => ActuationReservation
  | releaseRetryAction => Option RequestedAction
  | releaseRetryDue _ | enforcementRetryDue _ | extendOnce _ | prepareExactDecisionPublication _
  | verifiedControlBlocked => Bool
  | load => DevicePolicy
  | clearActuationAttempt .. | scheduleReleaseRetry .. | clearReleaseRetry
  | scheduleEnforcementRetry _ | clearEnforcementRetry | setOwnerDecision _
  | setOwnerDecisionAndScheduleReleaseRetry .. | publish _
  | markDecisionPublishedAndClearAttempt .. | recordVerifiedBlock _ | recordVerifiedUnblock _ => Unit

/-- The journal row that `DELETE … WHERE policy_version=? AND action_json=?` deletes. -/
def Matches (policyVersion : ℕ) (action : RequestedAction) (attempt : ActuationAttempt) : Prop :=
  attempt.policyVersion = policyVersion ∧ attempt.action = action
  deriving Decidable

/-- What a call does; `none` when a time leaves chrono's range, where the addition panics. -/
def run (s : Site) : (c : StoreCommand) → Option (Except PolicyError c.Reply × Site)
  | publishedDecision => some (.ok s.device.published, s)
  | actuationAttempt => some (.ok s.device.journal, s)
  | reserveActuationWithDecision policyVersion action decision =>
    match s.device.journal with
    | some existing =>
      if Matches policyVersion action existing then some (.ok .existing, s)
      else some (.error .supersededAttempt, s)
    | none =>
      some (.ok .reserved, { s with device := s.device.reserve ⟨policyVersion, action, decision⟩ })
  | clearActuationAttempt policyVersion action =>
    if s.device.journal.any (Matches policyVersion action) then
      some (.ok (), { s with device := s.device.retire })
    else some (.error .attemptChanged, s)
  | releaseRetryAction => some (.ok (s.device.releaseRetry.map (·.1)), s)
  | releaseRetryDue now => some (.ok (s.device.releaseRetry.any (·.2 ≤ now)), s)
  | scheduleReleaseRetry action now =>
    (now.checkedAddSigned (minutes 1)).map fun at' =>
      (.ok (), { s with device := s.device.setRelease (some (action, at')) })
  | clearReleaseRetry => some (.ok (), { s with device := s.device.setRelease none })
  | enforcementRetryDue now => some (.ok (s.device.enforcementRetryAt.all (· ≤ now)), s)
  | scheduleEnforcementRetry now =>
    (now.checkedAddSigned (minutes 1)).map fun at' =>
      (.ok (), { s with device := s.device.setEnforcementRetry (some at') })
  | clearEnforcementRetry => some (.ok (), { s with device := s.device.setEnforcementRetry none })
  | load => some (.ok s.device.policy, s)
  | setOwnerDecision value =>
    some (.ok (), { s with
      device := s.device.setPolicy { s.device.policy with ownerDecision := value } })
  | setOwnerDecisionAndScheduleReleaseRetry value action now =>
    (now.checkedAddSigned (minutes 1)).map fun at' =>
      (.ok (), { s with
        device := (s.device.setPolicy { s.device.policy with ownerDecision := value }).setRelease
          (some (action, at')) })
  | extendOnce until' =>
    (s.device.policy.firstSeenAt.checkedAddSigned s.device.policy.identification.deadline.2.1).map
      fun originalDueAt =>
        if originalDueAt < until' then
          if s.device.extensionUsed then (.ok false, s)
          else (.ok true, { s with
            device := { s.device with
              policy := { s.device.policy with extensionUntil := some until' }
              extensionUsed := true } })
        else (.error .extensionNotLater, s)
  | prepareExactDecisionPublication decision =>
    if s.device.published = some decision then some (.ok false, s)
    else some (.ok true, { s with device := s.device.prepare decision })
  | publish decision => some (.ok (), { s with device := s.device.note (.delivered decision) })
  | markDecisionPublishedAndClearAttempt decision none =>
    some (.ok (), { s with device := s.device.acknowledge decision })
  | markDecisionPublishedAndClearAttempt decision (some attempt) =>
    if s.device.journal.any (Matches attempt.policyVersion attempt.action) then
      some (.ok (), { s with device := (s.device.acknowledge decision).retire })
    else some (.error .attemptChanged, s)
  | verifiedControlBlocked =>
    some (.ok (Presence.verifiedControlBlocked s.transitions s.device.policy.deviceId), s)
  | recordVerifiedBlock at' =>
    some (.ok (), { s with transitions :=
      Presence.recordVerifiedBlock s.transitions s.device.policy.deviceId at' })
  | recordVerifiedUnblock at' =>
    some (.ok (), { s with transitions :=
      Presence.recordVerifiedUnblock s.transitions s.device.policy.deviceId at' })

end StoreCommand

end NeonHearth.Policy
