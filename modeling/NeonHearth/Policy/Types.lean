import NeonHearth.Domain.Types

/-!
# Policy types

What the service stores about a device for its policy, what an evaluation of it yields, and the
event that announces a decision.
-/

namespace NeonHearth.Policy

/-- How a device is identified. -/
inductive Identification where
  | unknown
  | automatic (confidenceBasisPoints : ℕ) (evidenceFamilies : List EvidenceFamily)
  deriving DecidableEq

/-- What the owner has decided. -/
inductive OwnerDecision where
  | pending
  | approved
  | rejected
  | quarantined
  deriving DecidableEq

/-- A sign of danger. -/
inductive RiskSignal where
  | none
  | highConfidenceDanger (confidenceBasisPoints : ℕ) (evidence : String)
  deriving DecidableEq

/-- Why a device must not be blocked. -/
inductive Protection where
  | none
  | router
  | collector
  | administratorPhone
  | safetyDevice
  deriving DecidableEq

/-- What is stored about a device. -/
structure DevicePolicy where
  deviceId : DeviceId
  firstSeenAt : DateTime
  baselineExempt : Bool
  identification : Identification
  ownerDecision : OwnerDecision
  risk : RiskSignal
  protection : Protection
  extensionUntil : Option DateTime
  deriving DecidableEq

/-- How long the owner has to confirm a device. -/
inductive DeadlineKind where
  | unknown48Hours
  | automatic7Days
  deriving DecidableEq

/-- When a device is blocked without confirmation. -/
structure Deadline where
  kind : DeadlineKind
  dueAt : DateTime
  deriving DecidableEq

/-- How close a deadline is. -/
inductive DeadlineWarning where
  | hours24
  | hours6
  | hour1
  deriving DecidableEq

/-- What the policy asks for. -/
inductive RequestedAction where
  | none
  | quarantine
  | permanentBan
  | ownerAttention
  deriving DecidableEq

/-- The actions that ask the router to block the device. -/
def RequestedAction.isBlock : RequestedAction → Bool
  | .quarantine | .permanentBan => true
  | .none | .ownerAttention => false

/-- The result of attempting the requested action. -/
inductive EnforcementStatus where
  | notRequested
  | verified
  | manualRequired
  | failed
  deriving DecidableEq

/-- Why the policy asks for it. -/
inductive PolicyReason where
  | pendingConfirmation
  | baselineExempt
  | highConfidenceDanger
  | unknownDeadlineExpired
  | automaticDeadlineExpired
  | ownerExtension
  | ownerApproved
  | ownerRejected
  | ownerQuarantined
  | protectedDevice
  deriving DecidableEq

/-- What the policy makes of a device. -/
structure Evaluation where
  policyVersion : ℕ
  reason : PolicyReason
  requestedAction : RequestedAction
  deadline : Option Deadline
  warning : Option DeadlineWarning
  deriving DecidableEq

namespace Evaluation

/-- An evaluation without a deadline. -/
def terminal (reason : PolicyReason) (requestedAction : RequestedAction) : Evaluation :=
  ⟨1, reason, requestedAction, none, none⟩

/-- The device is left alone. -/
def visible (reason : PolicyReason) : Evaluation := terminal reason .none

/-- The device is quarantined. -/
def quarantine (reason : PolicyReason) : Evaluation := terminal reason .quarantine

/-- The device is banned. -/
def ban (reason : PolicyReason) : Evaluation := terminal reason .permanentBan

/-- A protected device is left to the owner. -/
def ownerAttention : Evaluation := terminal .protectedDevice .ownerAttention

end Evaluation

/-- The event that announces a decision about a device. -/
structure PolicyChanged where
  deviceId : DeviceId
  policyVersion : ℕ
  evaluation : Evaluation
  requestedAction : RequestedAction
  evidenceSummary : String
  enforcementResult : EnforcementStatus
  undoAvailable : Bool
  deriving DecidableEq

/-- The decision reports that the router blocks the device. -/
def PolicyChanged.VerifiedBlock (e : PolicyChanged) : Prop :=
  e.enforcementResult = .verified ∧ e.requestedAction.isBlock
  deriving Decidable

end NeonHearth.Policy
