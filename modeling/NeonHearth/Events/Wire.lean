import NeonHearth.Data.Json
import NeonHearth.Events.Payload
import NeonHearth.Events.Socket
import NeonHearth.Time.IsoText

/-!
# Events on the wire

The JSON of an event as a client has it: what `serde_json` writes for the types of `event.rs`, and
`JSON.parse` reads.  Instants are written as chrono does (`rfc3339`), identifiers as the `uuid` crate
does (`uuidText`), enumerations by their names.
-/

namespace NeonHearth.Events

/-- A year: four digits, or a sign and at least four. -/
def yearText (year : ℤ) : List Char :=
  if 0 ≤ year ∧ year ≤ 9999 then digitsOf 10 4 year.toNat
  else (if year < 0 then '-' else '+') :: List.leftpad 4 '0' (Nat.toDigits 10 year.natAbs)

theorem writesFour_yearText : WritesFour yearText := fun _ h h' => if_pos ⟨h, h'⟩

/-- Nanoseconds, in as few groups of three digits as they need. -/
def fractionText (nanos : ℕ) : List Char :=
  if nanos = 0 then []
  else if nanos % 1000000 = 0 then '.' :: digitsOf 10 3 (nanos / 1000000)
  else if nanos % 1000 = 0 then '.' :: digitsOf 10 6 (nanos / 1000)
  else '.' :: digitsOf 10 9 nanos

/-- An instant, in UTC. -/
def rfc3339 (t : DateTime) : List Char :=
  isoText yearText (t.nanos / 1000000000) ++
    (fractionText (t.nanos % 1000000000).toNat ++ ['Z'])

/-- A UUID in lower case, in five groups. -/
def uuidText (id : Fin (2 ^ 128)) : List Char :=
  digitsOf 16 8 (id / 2 ^ 96) ++ '-' :: (digitsOf 16 4 (id / 2 ^ 80) ++
    '-' :: (digitsOf 16 4 (id / 2 ^ 64) ++ '-' :: (digitsOf 16 4 (id / 2 ^ 48) ++
      '-' :: digitsOf 16 12 id)))

/-- The version of a UUID. -/
def uuidVersion (id : Fin (2 ^ 128)) : ℕ := id / 2 ^ 76 % 16

/-- The digit of a UUID whose upper bits are the variant. -/
def uuidVariant (id : Fin (2 ^ 128)) : ℕ := id / 2 ^ 60 % 16

/-! ### Names -/

/-- The name of a presence state. -/
def presenceStateName : PresenceState → String
  | .online => "online"
  | .quiet => "quiet"
  | .offline => "offline"
  | .blocked => "blocked"
  | .unknown => "unknown"

/-- The name of a coverage. -/
def coverageName : Flow.Coverage → String
  | .complete => "complete"
  | .routerReported => "router-reported"
  | .localOnly => "local-only"
  | .estimated => "estimated"

/-- The name of a reason. -/
def reasonName : Policy.PolicyReason → String
  | .pendingConfirmation => "pending_confirmation"
  | .baselineExempt => "baseline_exempt"
  | .highConfidenceDanger => "high_confidence_danger"
  | .unknownDeadlineExpired => "unknown_deadline_expired"
  | .automaticDeadlineExpired => "automatic_deadline_expired"
  | .ownerExtension => "owner_extension"
  | .ownerApproved => "owner_approved"
  | .ownerRejected => "owner_rejected"
  | .ownerQuarantined => "owner_quarantined"
  | .protectedDevice => "protected_device"

/-- The name of an action. -/
def actionName : Policy.RequestedAction → String
  | .none => "none"
  | .quarantine => "quarantine"
  | .permanentBan => "permanent_ban"
  | .ownerAttention => "owner_attention"

/-- The name of a result. -/
def enforcementName : Policy.EnforcementStatus → String
  | .notRequested => "not_requested"
  | .verified => "verified"
  | .manualRequired => "manual_required"
  | .failed => "failed"

/-- The name of a kind of deadline. -/
def deadlineKindName : Policy.DeadlineKind → String
  | .unknown48Hours => "unknown48_hours"
  | .automatic7Days => "automatic7_days"

/-- The name of a warning. -/
def warningName : Policy.DeadlineWarning → String
  | .hours24 => "hours24"
  | .hours6 => "hours6"
  | .hour1 => "hour1"

/-! ### Values -/

/-- An unsigned integer, as the client has it. -/
def numberJson (n : ℕ) : Json := .number (toDouble n)

@[simp]
theorem number?_numberJson (n : ℕ) : (numberJson n).number? = some (toDouble n) := rfl

/-- A value that may be missing. -/
def optionJson {α : Type} (f : α → Json) : Option α → Json
  | none => .null
  | some a => f a

/-- An instant, as its text. -/
def dateJson (t : DateTime) : Json := .string (String.ofList (rfc3339 t))

/-- A UUID, as its text. -/
def idJson (id : Fin (2 ^ 128)) : Json := .string (String.ofList (uuidText id))

/-- The JSON of a presence transition. -/
def presenceChangedJson (change : Presence.PresenceChanged) : Json := .object [
  ("transition_id", numberJson change.transitionId),
  ("device_id", idJson change.deviceId),
  ("from", .string (presenceStateName change.fromState)),
  ("to", .string (presenceStateName change.toState)),
  ("occurred_at", dateJson change.occurredAt),
  ("reason", .string change.reason),
  ("trigger_source", .string change.triggerSource),
  ("trigger_kind", .string change.triggerKind),
  ("evidence_observed_at", dateJson change.evidenceObservedAt),
  ("evidence_valid_until", optionJson dateJson change.evidenceValidUntil),
  ("trigger_arrival_at", dateJson change.triggerArrivalAt),
  ("correction_of", optionJson numberJson change.correctionOf)]

/-- The JSON of a status of the service. -/
def serviceStatusJson (status : ServiceStatus) : Json :=
  .object [("state", .string status.state), ("detail", .string status.detail)]

/-- The JSON of the bytes in both directions. -/
def byteCountJson (count : Flow.ByteCount) : Json :=
  .object [("upload", numberJson count.upload), ("download", numberJson count.download)]

/-- The JSON of the bandwidth of one device. -/
def sampleJson (sample : Flow.BandwidthSample) : Json := .object [
  ("device_id", idJson sample.deviceId),
  ("delta", byteCountJson sample.delta),
  ("upload_bytes_per_second", numberJson sample.uploadBytesPerSecond),
  ("download_bytes_per_second", numberJson sample.downloadBytesPerSecond),
  ("coverage", .string (coverageName sample.coverage))]

/-- The JSON of a bandwidth frame. -/
def bandwidthFrameJson (frame : BandwidthFrame) : Json := .object [
  ("interval_ms", numberJson frame.intervalMs),
  ("observed_at", dateJson frame.observedAt),
  ("emitted_at", dateJson frame.emittedAt),
  ("samples", .array (frame.samples.map sampleJson))]

/-- The JSON of a deadline. -/
def deadlineJson (deadline : Policy.Deadline) : Json := .object [
  ("kind", .string (deadlineKindName deadline.kind)),
  ("due_at", dateJson deadline.dueAt)]

/-- The JSON of an evaluation. -/
def evaluationJson (evaluation : Policy.Evaluation) : Json := .object [
  ("policy_version", numberJson evaluation.policyVersion),
  ("reason", .string (reasonName evaluation.reason)),
  ("requested_action", .string (actionName evaluation.requestedAction)),
  ("deadline", optionJson deadlineJson evaluation.deadline),
  ("warning", optionJson (fun warning => .string (warningName warning)) evaluation.warning)]

/-- The JSON of a policy decision. -/
def policyChangedJson (policy : Policy.PolicyChanged) : Json := .object [
  ("device_id", idJson policy.deviceId),
  ("policy_version", numberJson policy.policyVersion),
  ("evaluation", evaluationJson policy.evaluation),
  ("requested_action", .string (actionName policy.requestedAction)),
  ("evidence_summary", .string policy.evidenceSummary),
  ("enforcement_result", .string (enforcementName policy.enforcementResult)),
  ("undo_available", .bool policy.undoAvailable)]

/-- The JSON of a saved plan. -/
def homeChangedJson (home : HomeChanged) : Json := .object [
  ("home_id", idJson home.homeId),
  ("version", numberJson home.version),
  ("summary", .string home.summary)]

/-- A value with the name of its kind. -/
def taggedJson (tag : String) (data : Json) : Json :=
  .object [("type", .string tag), ("data", data)]

/-- A payload, tagged with its kind. -/
def payloadJson : EventPayload → Json
  | .presenceChanged change => taggedJson "presence_changed" (presenceChangedJson change)
  | .serviceStatus status => taggedJson "service_status" (serviceStatusJson status)
  | .bandwidthFrame frame => taggedJson "bandwidth_frame" (bandwidthFrameJson frame)
  | .policyChanged policy => taggedJson "policy_changed" (policyChangedJson policy)
  | .homeChanged home => taggedJson "home_changed" (homeChangedJson home)

/-- A numbered event. -/
def envelopeJson (e : EventEnvelope EventPayload) : Json := .object [
  ("sequence", numberJson e.sequence),
  ("occurred_at", dateJson e.occurredAt),
  ("payload", payloadJson e.payload)]

/-- What the socket writes. -/
def messageJson : ServerMessage EventPayload → Json
  | .event e => taggedJson "event" (envelopeJson e)
  | .resyncRequired => .object [("type", .string "resync_required")]

end NeonHearth.Events
