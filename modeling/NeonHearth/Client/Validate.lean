import NeonHearth.Events.Wire

/-!
# What the client accepts

The checks that the desktop client makes of every message before it uses it (`api/client.ts`), and for
each of them which values of the service's types pass it once they are on the wire.

* `isServerMessage` : the check of a message;
* `Acceptable` : the events that pass it (`isServerMessage_event`).

An event about a home is not among them: the check has no branch for its kind.
-/

namespace NeonHearth.Client

open Events Policy List Json Option

/-! ### Numbers, texts and names -/

/-- A natural number up to `Number.MAX_SAFE_INTEGER`. -/
def isSafeNatural (value : Json) : Bool := value.number?.any (· ≤ 9007199254740991)

/-- A number of an event or a transition. -/
def isSequence (value : Json) : Bool := isSafeNatural value

/-- A number of bytes. -/
def isBytes (value : Json) : Bool := isSafeNatural value

/-- A number of 32 bits. -/
def isPolicyVersion (value : Json) : Bool :=
  isSequence value && value.number?.any (· ≤ 0xffffffff)

/-- The length of a text in the client, in units of sixteen bits. -/
def utf16Length (s : String) : ℕ := (s.toList.map fun c => if c.toNat < 0x10000 then 1 else 2).sum

/-- A text whose length is in the bounds. -/
def isText (low : ℕ) (value : Json) : Bool := value.string?.any (low ≤ utf16Length ·)

/-- A text that is one of the names. -/
def isNamed (names : List String) (value : Json) : Bool := value.string?.any (names.contains ·)

/-- A value that may be null. -/
def isNullOr (p : Json → Bool) (value : Json) : Bool := value.isNull || p value

/-- The presence states. -/
def presenceStates : List String := ["online", "quiet", "offline", "blocked", "unknown"]

/-- The coverages. -/
def coverages : List String := ["complete", "router-reported", "local-only", "estimated"]

/-- The reasons of a decision. -/
def policyReasons : List String :=
  ["pending_confirmation", "baseline_exempt", "high_confidence_danger", "unknown_deadline_expired",
    "automatic_deadline_expired", "owner_extension", "owner_approved", "owner_rejected",
    "owner_quarantined", "protected_device"]

/-- The actions. -/
def requestedActions : List String := ["none", "quarantine", "permanent_ban", "owner_attention"]

/-- The results of an action. -/
def enforcementStatuses : List String := ["not_requested", "verified", "manual_required", "failed"]

/-- The kinds of deadlines. -/
def deadlineKinds : List String := ["unknown48_hours", "automatic7_days"]

/-- The warnings before a deadline. -/
def deadlineWarnings : List String := ["hours24", "hours6", "hour1"]

/-- The action that goes with each reason. -/
def actionForReason : List (String × String) := [
  ("pending_confirmation", "none"), ("baseline_exempt", "none"),
  ("high_confidence_danger", "quarantine"), ("unknown_deadline_expired", "quarantine"),
  ("automatic_deadline_expired", "quarantine"), ("owner_extension", "none"),
  ("owner_approved", "none"), ("owner_rejected", "permanent_ban"),
  ("owner_quarantined", "quarantine"), ("protected_device", "owner_attention")]

/-! ### Dates and identifiers -/

/-- What `utcRfc3339` allows after the seconds: a fraction of one to nine digits, and the zone. -/
def isFractionAndZone : List Char → Bool
  | '.' :: cs =>
    let digits := cs.takeWhile Char.isDigit
    1 ≤ digits.length && digits.length ≤ 9 && cs.drop digits.length == ['Z']
  | cs => cs == ['Z']

/-- `utcRfc3339`. -/
def utcRfc3339 (cs : List Char) : Bool := (eat isoPattern cs).any isFractionAndZone

/-- A year as `toISOString` writes it. -/
def isoYear (year : ℤ) : List Char :=
  if 0 ≤ year ∧ year ≤ 9999 then digitsOf 10 4 year.toNat
  else (if year < 0 then '-' else '+') :: digitsOf 10 6 year.natAbs

/-- A date that `toISOString` writes alike up to the seconds. -/
def isDateText (cs : List Char) : Bool :=
  utcRfc3339 cs && (parseIso cs).any fun seconds =>
    (isoText isoYear seconds).take 19 == cs.take 19

/-- A date. -/
def isDate (value : Json) : Bool := value.string?.any (isDateText ·.toList)

/-- A hexadecimal digit in lower case. -/
def isHex (c : Char) : Bool := c.isDigit || 'a' ≤ c && c ≤ 'f'

/-- The digit of a known version. -/
def isVersion (c : Char) : Bool := '1' ≤ c && c ≤ '7'

/-- The digit of the RFC variant. -/
def isVariant (c : Char) : Bool := c == '8' || c == '9' || c == 'a' || c == 'b'

/-- The pattern of `isDeviceId`. -/
def deviceIdPattern : List (Char → Bool) :=
  List.replicate 8 isHex ++ (· == '-') :: (List.replicate 4 isHex ++
    (· == '-') :: isVersion :: (List.replicate 3 isHex ++ (· == '-') :: isVariant ::
      (List.replicate 3 isHex ++ (· == '-') :: List.replicate 12 isHex)))

/-- A UUID. -/
def isDeviceId (value : Json) : Bool :=
  value.string?.any fun s => eat deviceIdPattern s.toList == some []

/-! ### Messages -/

/-- The bandwidth of one device. -/
def isSample (sample : Json) : Bool :=
  sample.isRecord && isDeviceId (sample.field "device_id") && (sample.field "delta").isRecord &&
    isBytes ((sample.field "delta").field "upload") &&
    isBytes ((sample.field "delta").field "download") &&
    isBytes (sample.field "upload_bytes_per_second") &&
    isBytes (sample.field "download_bytes_per_second") &&
    isNamed coverages (sample.field "coverage")

/-- A frame of at most 4096 samples. -/
def isBandwidthFrame (value : Json) : Bool :=
  value.isRecord && isSequence (value.field "interval_ms") &&
    (value.field "interval_ms").number?.any (1 ≤ ·) &&
    isDate (value.field "observed_at") && isDate (value.field "emitted_at") &&
    (value.field "samples").items?.any fun samples => samples.length ≤ 4096 && samples.all isSample

/-- A deadline. -/
def isDeadline (value : Json) : Bool :=
  value.isRecord && isNamed deadlineKinds (value.field "kind") && isDate (value.field "due_at")

/-- An evaluation whose action goes with its reason. -/
def isPolicyEvaluation (value : Json) : Bool :=
  value.isRecord && isPolicyVersion (value.field "policy_version") &&
    isNamed policyReasons (value.field "reason") &&
    isNamed requestedActions (value.field "requested_action") &&
    isNullOr (isNamed deadlineWarnings) (value.field "warning") &&
    (value.field "reason").string?.bind (actionForReason.lookup ·) ==
      (value.field "requested_action").string? &&
    isNullOr isDeadline (value.field "deadline")

/-- A decision that agrees with its evaluation. -/
def isPolicyChanged (value : Json) : Bool :=
  value.isRecord && isDeviceId (value.field "device_id") &&
    isPolicyVersion (value.field "policy_version") && isPolicyEvaluation (value.field "evaluation") &&
    (value.field "policy_version").number? ==
      ((value.field "evaluation").field "policy_version").number? &&
    isNamed requestedActions (value.field "requested_action") &&
    (value.field "requested_action").string? ==
      ((value.field "evaluation").field "requested_action").string? &&
    isText 1 (value.field "evidence_summary") &&
    (value.field "evidence_summary").string?.any (utf16Length · ≤ 4096) &&
    isNamed enforcementStatuses (value.field "enforcement_result") &&
    (value.field "undo_available").bool?.isSome

/-- A status of the service. -/
def isServiceStatus (value : Json) : Bool :=
  value.isRecord && (value.field "state").string?.isSome && (value.field "detail").string?.isSome

/-- A presence transition. -/
def isPresenceChanged (value : Json) : Bool :=
  value.isRecord && isSequence (value.field "transition_id") &&
    isDeviceId (value.field "device_id") &&
    presenceStates.contains (value.field "from").toText &&
    presenceStates.contains (value.field "to").toText &&
    isText 1 (value.field "reason") && isDate (value.field "occurred_at") &&
    isText 1 (value.field "trigger_source") && isText 1 (value.field "trigger_kind") &&
    isDate (value.field "evidence_observed_at") &&
    isNullOr isDate (value.field "evidence_valid_until") &&
    isDate (value.field "trigger_arrival_at") && value.has "correction_of" &&
    isNullOr isSequence (value.field "correction_of")

/-- The kinds of payload, one after another; the last one is what is left. -/
def isPayload (payload : Json) : Bool :=
  if (payload.field "type").string? = some "service_status" then
    isServiceStatus (payload.field "data")
  else if (payload.field "type").string? = some "bandwidth_frame" then
    isBandwidthFrame (payload.field "data")
  else if (payload.field "type").string? = some "policy_changed" then
    isPolicyChanged (payload.field "data")
  else
    (payload.field "type").string? == some "presence_changed" &&
      isPresenceChanged (payload.field "data")

/-- `isServerMessage`: an event, or the request to resynchronise. -/
def isServerMessage (value : Json) : Bool :=
  if (!value.isRecord || (value.field "type").string?.isNone) = true then false
  else if (value.field "type").string? = some "resync_required" then !value.has "data"
  else if (value.field "type").string? ≠ some "event" then false
  else
    let event := value.field "data"
    event.isRecord && isSequence (event.field "sequence") && isDate (event.field "occurred_at") &&
      (event.field "payload").isRecord && isPayload (event.field "payload")

/-! ### What passes -/

section

variable {n : ℕ}

@[simp]
theorem isSafeNatural_numberJson : isSafeNatural (numberJson n) = decide (n < 2 ^ 53) := by
  have hiff : toDouble n ≤ 9007199254740991 ↔ n < 2 ^ 53 := by
    rw [← toDouble_lt_iff, Nat.lt_iff_add_one_le]
    omega
  simp [isSafeNatural, numberJson, number?, hiff]

@[simp]
theorem isSequence_numberJson : isSequence (numberJson n) = decide (n < 2 ^ 53) :=
  isSafeNatural_numberJson

@[simp]
theorem isBytes_numberJson : isBytes (numberJson n) = decide (n < 2 ^ 53) :=
  isSafeNatural_numberJson

/-- Below the bound there is no rounding. -/
theorem toDouble_le_iff {bound : ℕ} (hbound : bound < 2 ^ 53) : toDouble n ≤ bound ↔ n ≤ bound := by
  by_cases hn : n < 2 ^ 53
  · rw [toDouble_eq_self hn]
  · have hdouble := fun h => hn (toDouble_lt_iff.1 (lt_of_le_of_lt h hbound))
    exact iff_of_false hdouble (by omega)

@[simp]
theorem isPolicyVersion_numberJson : isPolicyVersion (numberJson n) = decide (n < 2 ^ 32) := by
  have hiff := toDouble_le_iff (n := n) (by decide : 0xffffffff < 2 ^ 53)
  rw [isPolicyVersion, isSequence_numberJson]
  simp only [numberJson, number?, any_some, hiff, ← Bool.decide_and, decide_eq_decide]
  omega

end

theorem isFractionAndZone_digitsOf {width n : ℕ} (hpos : 1 ≤ width) (hle : width ≤ 9) :
    isFractionAndZone ('.' :: (digitsOf 10 width n ++ ['Z'])) = true := by
  have hdigits : ∀ c ∈ digitsOf 10 width n, c.isDigit = true := by
    intro c hc
    obtain ⟨d, hd, rfl⟩ := exists_of_mem_digitsOf (by decide) hc
    exact isDigit_digitChar d hd
  have hspan : (digitsOf 10 width n ++ ['Z']).takeWhile Char.isDigit = digitsOf 10 width n := by
    rw [takeWhile_append_of_pos hdigits]
    exact append_nil _
  simp [isFractionAndZone, hspan, hpos, hle]

theorem isFractionAndZone_fractionText (nanos : ℕ) :
    isFractionAndZone (fractionText nanos ++ ['Z']) = true := by
  unfold fractionText
  split_ifs
  · rfl
  all_goals exact isFractionAndZone_digitsOf (by decide) (by decide)

theorem writesFour_isoYear : WritesFour isoYear := fun _ h h' => if_pos ⟨h, h'⟩

/-- Where both write four digits, the writers agree. -/
theorem isoText_isoYear {seconds : ℤ} (h : FourDigits seconds) :
    isoText isoYear seconds = isoText yearText seconds := by
  rw [isoText, isoText, writesFour_isoYear _ h.1 h.2, writesFour_yearText _ h.1 h.2]

/-- The instant is written with a year of four digits. -/
def Dated (t : DateTime) : Prop := FourDigits (t.nanos / 1000000000)
  deriving Decidable

theorem isDateText_rfc3339 {t} (h : Dated t) : isDateText (rfc3339 t) = true := by
  have hlength := length_isoText writesFour_yearText h
  rw [isDateText, utcRfc3339, rfc3339, eat_isoText writesFour_yearText h,
    parseIso_isoText writesFour_yearText h]
  simp only [any_some, isFractionAndZone_fractionText, isoText_isoYear h, Bool.true_and, beq_iff_eq]
  rw [take_left' hlength, take_of_length_le (Nat.le_of_eq hlength)]

theorem not_isDateText_rfc3339 {t} (h : ¬Dated t) : isDateText (rfc3339 t) = false := by
  have hsign : ∃ c cs, rfc3339 t = c :: cs ∧ c.isDigit = false := by
    rw [rfc3339, isoText, yearText, if_neg (show ¬(_ ∧ _) from h)]
    refine ⟨_, _, rfl, ?_⟩
    split_ifs <;> rfl
  obtain ⟨c, cs, heq, hc⟩ := hsign
  rw [isDateText, utcRfc3339, heq, eat_isoPattern_cons hc]
  rfl

@[simp]
theorem isDate_dateJson (t) : isDate (dateJson t) = decide (Dated t) := by
  simp only [isDate, dateJson, string?, any_some, String.toList_ofList]
  by_cases h : Dated t
  · rw [isDateText_rfc3339 h, decide_eq_true h]
  · rw [not_isDateText_rfc3339 h, decide_eq_false h]

/-- The identifiers of the versions one to seven. -/
def Recognised (id : Fin (2 ^ 128)) : Prop :=
  (1 ≤ uuidVersion id ∧ uuidVersion id ≤ 7) ∧ 8 ≤ uuidVariant id ∧ uuidVariant id ≤ 11
  deriving Decidable

theorem isHex_digitChar : ∀ d < 16, isHex (Nat.digitChar d) = true := by decide

theorem isVersion_digitChar : ∀ d < 16, isVersion (Nat.digitChar d) = decide (1 ≤ d ∧ d ≤ 7) := by
  decide

theorem isVariant_digitChar : ∀ d < 16, isVariant (Nat.digitChar d) = decide (8 ≤ d ∧ d ≤ 11) := by
  decide

@[simp]
theorem isDeviceId_idJson (id) : isDeviceId (idJson id) = decide (Recognised id) := by
  have hhex := fun width n ps rest =>
    eat_digitsOf (by decide : 0 < 16) isHex_digitChar width n ps rest
  have hlast := hhex 12 id [] []
  rw [append_nil, append_nil] at hlast
  have hversion : (id : ℕ) / 2 ^ 64 / 16 ^ 3 % 16 = uuidVersion id := by
    rw [Nat.div_div_eq_div_mul]
    rfl
  have hvariant : (id : ℕ) / 2 ^ 48 / 16 ^ 3 % 16 = uuidVariant id := by
    rw [Nat.div_div_eq_div_mul]
    rfl
  have hgroup : ∀ n : ℕ, digitsOf 16 4 n = Nat.digitChar (n / 16 ^ 3 % 16) :: digitsOf 16 3 n :=
    fun _ => rfl
  simp only [isDeviceId, idJson, string?, any_some, String.toList_ofList, uuidText,
    deviceIdPattern, hhex, eat_cons_cons]
  rw [hgroup (id / 2 ^ 64), hgroup (id / 2 ^ 48), hversion, hvariant]
  simp only [cons_append, eat_cons_cons, hhex, hlast,
    isVersion_digitChar (uuidVersion id) (Nat.mod_lt _ (by decide)),
    isVariant_digitChar (uuidVariant id) (Nat.mod_lt _ (by decide)), decide_eq_true_eq,
    beq_self_eq_true, if_true]
  by_cases hv : 1 ≤ uuidVersion id ∧ uuidVersion id ≤ 7
  · by_cases hr : 8 ≤ uuidVariant id ∧ uuidVariant id ≤ 11
    · rw [if_pos hv, if_pos hr, decide_eq_true (show Recognised id from ⟨hv, hr⟩)]
      rfl
    · rw [if_pos hv, if_neg hr, decide_eq_false fun h : Recognised id => hr h.2]
      rfl
  · rw [if_neg hv, decide_eq_false fun h : Recognised id => hv h.1]
    rfl

/-! ### Names and texts that pass -/

@[simp]
theorem presenceStateName_mem (state) : presenceStateName state ∈ presenceStates := by
  cases state <;> decide

@[simp]
theorem isNamed_coverageName (coverage) :
    isNamed coverages (.string (coverageName coverage)) = true := by
  cases coverage <;> decide

@[simp]
theorem isNamed_reasonName (reason) :
    isNamed policyReasons (.string (reasonName reason)) = true := by
  cases reason <;> decide

@[simp]
theorem isNamed_actionName (action) :
    isNamed requestedActions (.string (actionName action)) = true := by
  cases action <;> decide

@[simp]
theorem isNamed_enforcementName (status) :
    isNamed enforcementStatuses (.string (enforcementName status)) = true := by
  cases status <;> decide

@[simp]
theorem isNamed_deadlineKindName (kind) :
    isNamed deadlineKinds (.string (deadlineKindName kind)) = true := by
  cases kind <;> decide

@[simp]
theorem isNamed_warningName (warning) :
    isNamed deadlineWarnings (.string (warningName warning)) = true := by
  cases warning <;> decide

/-- The action that each reason stands for in the service. -/
def settledAction : PolicyReason → RequestedAction
  | .pendingConfirmation | .baselineExempt | .ownerExtension | .ownerApproved => .none
  | .highConfidenceDanger | .unknownDeadlineExpired | .automaticDeadlineExpired
  | .ownerQuarantined => .quarantine
  | .ownerRejected => .permanentBan
  | .protectedDevice => .ownerAttention

theorem lookup_actionForReason (reason) :
    actionForReason.lookup (reasonName reason) = some (actionName (settledAction reason)) := by
  cases reason <;> decide

theorem actionName_injective : Function.Injective actionName := by
  intro a b h
  cases a <;> cases b <;> first | rfl | exact absurd h (by decide)

theorem utf16Length_pos {s} : 1 ≤ utf16Length s ↔ s ≠ "" := by
  rw [utf16Length, ← String.toList_inj.ne]
  cases s.toList with
  | nil => simp
  | cons c cs =>
    have hunits : 1 ≤ if c.toNat < 0x10000 then 1 else 2 := by split_ifs <;> decide
    simp only [map_cons, sum_cons, String.toList_empty]
    exact iff_of_true (by omega) (cons_ne_nil _ _)

@[simp]
theorem isText_one (s : String) : isText 1 (.string s) = decide (s ≠ "") := by
  simp [isText, string?_string, utf16Length_pos]

theorem isNullOr_optionJson {α : Type} {f} (hf : ∀ a, (f a).isNull = false) {p} {o : Option α} :
    isNullOr p (optionJson f o) = true ↔ ∀ a ∈ o, p (f a) = true := by
  cases o with
  | none => simp [isNullOr, optionJson, isNull]
  | some a => simp [isNullOr, optionJson, hf]

/-! ### Events that pass -/

/-- The presence transitions that pass. -/
def AcceptablePresence (change : Presence.PresenceChanged) : Prop :=
  change.transitionId < 2 ^ 53 ∧ Recognised change.deviceId ∧ change.reason ≠ "" ∧
    Dated change.occurredAt ∧ change.triggerSource ≠ "" ∧ change.triggerKind ≠ "" ∧
    Dated change.evidenceObservedAt ∧ (∀ t ∈ change.evidenceValidUntil, Dated t) ∧
    Dated change.triggerArrivalAt ∧ ∀ id ∈ change.correctionOf, id < 2 ^ 53

/-- The samples that pass. -/
def AcceptableSample (sample : Flow.BandwidthSample) : Prop :=
  Recognised sample.deviceId ∧ sample.delta.upload < 2 ^ 53 ∧ sample.delta.download < 2 ^ 53 ∧
    sample.uploadBytesPerSecond < 2 ^ 53 ∧ sample.downloadBytesPerSecond < 2 ^ 53

/-- The frames that pass. -/
def AcceptableFrame (frame : BandwidthFrame) : Prop :=
  frame.intervalMs < 2 ^ 53 ∧ 1 ≤ frame.intervalMs ∧ Dated frame.observedAt ∧
    Dated frame.emittedAt ∧ frame.samples.length ≤ 4096 ∧
    ∀ sample ∈ frame.samples, AcceptableSample sample

/-- The evaluations that pass. -/
def AcceptableEvaluation (evaluation : Evaluation) : Prop :=
  evaluation.policyVersion < 2 ^ 32 ∧ settledAction evaluation.reason = evaluation.requestedAction ∧
    ∀ deadline ∈ evaluation.deadline, Dated deadline.dueAt

/-- The decisions that pass. -/
def AcceptablePolicy (policy : PolicyChanged) : Prop :=
  Recognised policy.deviceId ∧ AcceptableEvaluation policy.evaluation ∧
    policy.policyVersion = policy.evaluation.policyVersion ∧
    policy.requestedAction = policy.evaluation.requestedAction ∧
    policy.evidenceSummary ≠ "" ∧ utf16Length policy.evidenceSummary ≤ 4096

/-- The payloads that pass. -/
def AcceptablePayload : EventPayload → Prop
  | .presenceChanged change => AcceptablePresence change
  | .serviceStatus _ => True
  | .bandwidthFrame frame => AcceptableFrame frame
  | .policyChanged policy => AcceptablePolicy policy
  | .homeChanged _ => False

/-- The events that pass. -/
def Acceptable (e : EventEnvelope EventPayload) : Prop :=
  e.sequence < 2 ^ 53 ∧ Dated e.occurredAt ∧ AcceptablePayload e.payload

theorem isPresenceChanged_iff (change) :
    isPresenceChanged (presenceChangedJson change) = true ↔ AcceptablePresence change := by
  simp [isPresenceChanged, presenceChangedJson, AcceptablePresence, and_assoc,
    isNullOr_optionJson (f := dateJson) fun _ => rfl,
    isNullOr_optionJson (f := numberJson) fun _ => rfl]

theorem isSample_iff (sample) : isSample (sampleJson sample) = true ↔ AcceptableSample sample := by
  simp [isSample, sampleJson, byteCountJson, AcceptableSample, and_assoc]

theorem isBandwidthFrame_iff (frame) :
    isBandwidthFrame (bandwidthFrameJson frame) = true ↔ AcceptableFrame frame := by
  have hinterval : frame.intervalMs < 2 ^ 53 ∧ 1 ≤ toDouble frame.intervalMs ↔
      frame.intervalMs < 2 ^ 53 ∧ 1 ≤ frame.intervalMs :=
    and_congr_right fun h => by rw [toDouble_eq_self h]
  have hcheck : isBandwidthFrame (bandwidthFrameJson frame) = true ↔
      (frame.intervalMs < 2 ^ 53 ∧ 1 ≤ toDouble frame.intervalMs) ∧ Dated frame.observedAt ∧
        Dated frame.emittedAt ∧ frame.samples.length ≤ 4096 ∧
        ∀ sample ∈ frame.samples, AcceptableSample sample := by
    simp [isBandwidthFrame, bandwidthFrameJson, and_assoc, isSample_iff]
  rw [hcheck, hinterval, AcceptableFrame, and_assoc]

theorem isPolicyEvaluation_iff (evaluation) :
    isPolicyEvaluation (evaluationJson evaluation) = true ↔ AcceptableEvaluation evaluation := by
  simp [isPolicyEvaluation, evaluationJson, AcceptableEvaluation, and_assoc,
    isNullOr_optionJson (f := deadlineJson) fun _ => rfl, isDeadline, deadlineJson,
    isNullOr_optionJson (f := fun warning => .string (warningName warning)) fun _ => rfl,
    lookup_actionForReason, actionName_injective.eq_iff]

theorem isPolicyChanged_iff (policy) :
    isPolicyChanged (policyChangedJson policy) = true ↔ AcceptablePolicy policy := by
  have hversion : (evaluationJson policy.evaluation).field "policy_version" =
      numberJson policy.evaluation.policyVersion := by
    simp [evaluationJson]
  have haction : (evaluationJson policy.evaluation).field "requested_action" =
      .string (actionName policy.evaluation.requestedAction) := by
    simp [evaluationJson]
  -- the versions are compared as doubles, but both are small
  have hrounded : policy.policyVersion < 2 ^ 32 ∧ AcceptableEvaluation policy.evaluation ∧
      toDouble policy.policyVersion = toDouble policy.evaluation.policyVersion ↔
      AcceptableEvaluation policy.evaluation ∧
        policy.policyVersion = policy.evaluation.policyVersion := by
    constructor
    · rintro ⟨hsmall, hevaluation, heq⟩
      have hsmall' := hevaluation.1
      rw [toDouble_eq_self (by omega), toDouble_eq_self (by omega)] at heq
      exact ⟨hevaluation, heq⟩
    · rintro ⟨hevaluation, heq⟩
      exact ⟨heq ▸ hevaluation.1, hevaluation, by rw [heq]⟩
  have hcheck : isPolicyChanged (policyChangedJson policy) = true ↔ Recognised policy.deviceId ∧
      (policy.policyVersion < 2 ^ 32 ∧ AcceptableEvaluation policy.evaluation ∧
        toDouble policy.policyVersion = toDouble policy.evaluation.policyVersion) ∧
      policy.requestedAction = policy.evaluation.requestedAction ∧ policy.evidenceSummary ≠ "" ∧
      utf16Length policy.evidenceSummary ≤ 4096 := by
    simp [isPolicyChanged, policyChangedJson, and_assoc, isPolicyEvaluation_iff, hversion, haction,
      actionName_injective.eq_iff]
  rw [hcheck, hrounded, AcceptablePolicy, and_assoc]

@[simp]
theorem isPayload_payloadJson (payload) :
    isPayload (payloadJson payload) = true ↔ AcceptablePayload payload := by
  cases payload with
  | presenceChanged change =>
    simp [isPayload, payloadJson, taggedJson, AcceptablePayload, isPresenceChanged_iff]
  | serviceStatus status =>
    simp [isPayload, payloadJson, taggedJson, AcceptablePayload, isServiceStatus, serviceStatusJson]
  | bandwidthFrame frame =>
    simp [isPayload, payloadJson, taggedJson, AcceptablePayload, isBandwidthFrame_iff]
  | policyChanged policy =>
    simp [isPayload, payloadJson, taggedJson, AcceptablePayload, isPolicyChanged_iff]
  | homeChanged home => simp [isPayload, payloadJson, taggedJson, AcceptablePayload]

theorem isRecord_payloadJson (payload) : (payloadJson payload).isRecord = true := by
  cases payload <;> rfl

/-- **The client accepts exactly these events.** -/
theorem isServerMessage_event (e) :
    isServerMessage (messageJson (.event e)) = true ↔ Acceptable e := by
  simp [isServerMessage, messageJson, taggedJson, envelopeJson, Acceptable, isRecord_payloadJson,
    and_assoc]

end NeonHearth.Client
