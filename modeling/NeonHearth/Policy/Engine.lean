import NeonHearth.Data.Chars
import NeonHearth.Policy.Types

/-!
# The policy engine

`PolicyEngine.evaluate` decides from the stored policy of a device and the time what the service
asks the router to do.  The owner's rejection or quarantine comes first, then a danger signal, then
the owner's approval and the baseline, and last the deadline by which an unconfirmed device has to
be confirmed.
-/

namespace NeonHearth.Policy

open Chars Evaluation

def policyVersion : ℕ := 1

def dangerThresholdBps : ℕ := 9000

def automaticIdentityThresholdBps : ℕ := 8500

def unknownDeadline : ℤ := hours 48

def automaticDeadline : ℤ := hours (7 * 24)

/-- A danger signal that counts: confident enough and with evidence that is not blank. -/
def RiskSignal.dangerous : RiskSignal → Bool
  | .none => false
  | .highConfidenceDanger confidence evidence =>
    dangerThresholdBps ≤ confidence && !evidence.toList.all isWhitespace

/-- Confident enough and supported by two different families of evidence. -/
def Identification.automaticallyIdentified : Identification → Bool
  | .unknown => false
  | .automatic confidence families =>
    automaticIdentityThresholdBps ≤ confidence && 2 ≤ families.dedup.length

/-- The kind of deadline, its length and the reason once it is over. -/
def Identification.deadline (identification : Identification) : DeadlineKind × ℤ × PolicyReason :=
  if identification.automaticallyIdentified then
    (.automatic7Days, automaticDeadline, .automaticDeadlineExpired)
  else (.unknown48Hours, unknownDeadline, .unknownDeadlineExpired)

/-- A device that asks for a quarantine, unless it is protected. -/
def DevicePolicy.quarantineOrAttention (p : DevicePolicy) (reason : PolicyReason) : Evaluation :=
  if p.protection ≠ .none then .ownerAttention else .quarantine reason

def warningFor (remaining : ℤ) : Option DeadlineWarning :=
  if remaining ≤ hours 1 then some .hour1
  else if remaining ≤ hours 6 then some .hours6
  else if remaining ≤ hours 24 then some .hours24
  else none

/-- The part of `PolicyEngine::evaluate` after the owner, the danger signal and the baseline. -/
def evaluateDeadline (p : DevicePolicy) (now : DateTime) : Evaluation :=
  let (kind, length, expired) := p.identification.deadline
  match p.firstSeenAt.checkedAddSigned length with
  | none => .ownerAttention
  | some originalDue =>
    let dueAt := (p.extensionUntil.filter (originalDue < ·)).getD originalDue
    if dueAt ≤ now then p.quarantineOrAttention expired
    else
      { policyVersion := policyVersion
        reason := if originalDue < dueAt then .ownerExtension else .pendingConfirmation
        requestedAction := .none
        deadline := some ⟨kind, dueAt⟩
        warning := warningFor (dueAt.nanos - now.nanos) }

/-- `PolicyEngine::evaluate`, which `evaluate_policy` calls. -/
def evaluatePolicy (p : DevicePolicy) (now : DateTime) : Evaluation :=
  match p.ownerDecision with
  | .rejected => .ban .ownerRejected
  | .quarantined => .quarantine .ownerQuarantined
  | .pending =>
    if p.risk.dangerous then p.quarantineOrAttention .highConfidenceDanger
    else if p.baselineExempt then .visible .baselineExempt
    else evaluateDeadline p now
  | .approved =>
    if p.risk.dangerous then p.quarantineOrAttention .highConfidenceDanger
    else .visible .ownerApproved

theorem evaluateDeadline_policyVersion (p now) :
    (evaluateDeadline p now).policyVersion = policyVersion := by
  unfold evaluateDeadline DevicePolicy.quarantineOrAttention
  dsimp only
  split
  · rfl
  · split_ifs <;> rfl

@[simp]
theorem evaluatePolicy_policyVersion (p now) :
    (evaluatePolicy p now).policyVersion = policyVersion := by
  unfold evaluatePolicy DevicePolicy.quarantineOrAttention
  split
  · rfl
  · rfl
  · split_ifs
    all_goals first | rfl | exact evaluateDeadline_policyVersion p now
  · split_ifs <;> rfl

end NeonHearth.Policy
