import NeonHearth.Data.SortedMap
import NeonHearth.Domain.Types

/-!
# The presence engine

The presence engine turns evidence about devices into presence states.  It keeps for every device
the evidence that still matters, the newest transitions and, for each of the three control families
(enforcement, sensor impairment, contradiction), a flag with the time it was set at.

* `PresenceEngine.ingestAuthorized` : one piece of evidence; it may correct a past departure and
  may change the state;
* `PresenceEngine.evaluate` : a timer; only the state may change.

The functions return the events together with the engine after the call; a failed call leaves the
engine as it was.  Ids of transitions are 64 bit numbers.
-/

namespace NeonHearth.Presence

structure PresenceConfig where
  onlineWindow : ℤ
  correctionWindow : ℤ
  retention : ℤ
  futureSkew : ℤ
  confirmationWindow : ℤ
  trustedSources : List String
  joinConfirmations : ℕ
  departureConfirmations : ℕ
  maxDevices : ℕ
  maxEvidencePerDevice : ℕ
  maxHistoryPerDevice : ℕ
  maxSourceLen : ℕ

/-- `PresenceConfig::default`. -/
def PresenceConfig.default : PresenceConfig where
  onlineWindow := seconds 30
  correctionWindow := minutes 5
  retention := hours 24
  futureSkew := seconds 5
  confirmationWindow := minutes 2
  trustedSources := ["sensor-a"]
  joinConfirmations := 2
  departureConfirmations := 2
  maxDevices := 4096
  maxEvidencePerDevice := 256
  maxHistoryPerDevice := 128
  maxSourceLen := 128

/-- What `PresenceConfig::validate` accepts. -/
@[mk_iff]
structure PresenceConfig.Valid (cfg : PresenceConfig) : Prop where
  onlineWindow : 0 < cfg.onlineWindow
  correctionWindow : 0 < cfg.correctionWindow
  correction_le : cfg.correctionWindow ≤ cfg.retention
  online_le : cfg.onlineWindow ≤ cfg.retention
  confirmation_le : cfg.confirmationWindow ≤ cfg.retention
  confirmationWindow : 0 < cfg.confirmationWindow
  futureSkew : 0 ≤ cfg.futureSkew
  trustedSources : cfg.trustedSources ≠ [] ∧ cfg.trustedSources.length ≤ 256 ∧
    ∀ s ∈ cfg.trustedSources, s ≠ "" ∧ s.utf8ByteSize ≤ cfg.maxSourceLen
  joinConfirmations : cfg.joinConfirmations ≠ 0
  departureConfirmations : cfg.departureConfirmations ≠ 0
  maxDevices : cfg.maxDevices ≠ 0
  maxEvidencePerDevice : cfg.maxEvidencePerDevice ≠ 0
  maxHistoryPerDevice : cfg.maxHistoryPerDevice ≠ 0
  maxSourceLen : cfg.maxSourceLen ≠ 0

instance (cfg : PresenceConfig) : Decidable cfg.Valid :=
  decidable_of_iff' _ (PresenceConfig.valid_iff _)

theorem PresenceConfig.default_valid : PresenceConfig.default.Valid := by decide +kernel

inductive PresenceEvidenceKind where
  | traffic
  | lease
  | routerAssociation
  | neighborCache
  | probeSuccess
  | confirmationFailure
  | enforcementBlocked
  | enforcementUnblocked
  | sensorImpaired
  | sensorRecovered
  | contradiction
  | contradictionCleared
  | evaluation
  deriving DecidableEq

/-- The place in the declaration, by which the derived order compares. -/
def PresenceEvidenceKind.rank (kind : PresenceEvidenceKind) : ℕ := kind.ctorIdx

structure PresenceEvidence where
  deviceId : DeviceId
  source : String
  kind : PresenceEvidenceKind
  observedAt : DateTime
  validUntil : Option DateTime
  deriving DecidableEq

structure PresenceTrigger where
  source : String
  kind : PresenceEvidenceKind
  observedAt : DateTime
  validUntil : Option DateTime
  arrivalAt : DateTime
  deriving DecidableEq

structure PresenceTransition where
  transitionId : ℕ
  deviceId : DeviceId
  fromState : PresenceState
  toState : PresenceState
  occurredAt : DateTime
  trigger : PresenceTrigger
  correctionOf : Option ℕ
  deriving DecidableEq

inductive PresenceError where
  | invalidConfig
  | untrusted
  | invalidEvidence (reason : String)
  | capacity (what : String)
  | deviceNotFound
  | clockRollback
  | sequenceExhausted
  | cursorExpired
  | invalidCheckpoint (reason : String)
  deriving DecidableEq

structure DevicePresence where
  state : PresenceState
  evidence : List PresenceEvidence
  /-- The newest transitions, oldest first. -/
  history : List PresenceTransition
  lastEvaluation : DateTime
  everSupported : Bool
  blocked : Bool
  impaired : Bool
  contradictory : Bool
  enforcementClock : Option DateTime
  impairmentClock : Option DateTime
  contradictionClock : Option DateTime
  /-- The newest transition that the history has dropped. -/
  evictedThrough : Option ℕ
  deriving DecidableEq

structure PresenceEngine where
  cfg : PresenceConfig
  cfg_valid : cfg.Valid
  devices : SortedMap DeviceId DevicePresence
  nextTransition : ℕ

/-- `PresenceEngine::new`. -/
def PresenceEngine.new (cfg : PresenceConfig) : Except PresenceError PresenceEngine :=
  if h : cfg.Valid then .ok ⟨cfg, h, ∅, 1⟩ else .error .invalidConfig

theorem PresenceEngine.new_devices {cfg engine}
    (h : PresenceEngine.new cfg = .ok engine) : engine.devices = ∅ := by
  unfold PresenceEngine.new at h
  split at h <;> cases h
  rfl

/-- The device before its first evidence. -/
def DevicePresence.initial (arrival : DateTime) : DevicePresence where
  state := .unknown
  evidence := []
  history := []
  lastEvaluation := arrival
  everSupported := false
  blocked := false
  impaired := false
  contradictory := false
  enforcementClock := none
  impairmentClock := none
  contradictionClock := none
  evictedThrough := none

/-! ### Evidence -/

def isRealPositive : PresenceEvidenceKind → Bool
  | .traffic | .lease | .routerAssociation | .neighborCache => true
  | _ => false

def isPositive (kind : PresenceEvidenceKind) : Bool :=
  isRealPositive kind || kind = .probeSuccess

/-- The control family of a kind: 0 enforcement, 1 impairment, 2 contradiction. -/
def controlFamily : PresenceEvidenceKind → Option (Fin 3)
  | .enforcementBlocked | .enforcementUnblocked => some 0
  | .sensorImpaired | .sensorRecovered => some 1
  | .contradiction | .contradictionCleared => some 2
  | _ => none

/-- The time from `t` to `at'`. -/
def signedDurationSince (at' t : DateTime) : ℤ := at'.nanos - t.nanos

/-- The evidence can still support a state or a correction. -/
def semanticallyRetained (e : PresenceEvidence) (arrival : DateTime) (cfg : PresenceConfig) : Bool :=
  match e.kind with
  | .enforcementBlocked | .enforcementUnblocked | .sensorImpaired | .sensorRecovered
  | .contradiction | .contradictionCleared => true
  | .lease | .routerAssociation | .neighborCache | .probeSuccess =>
    match e.validUntil with
    | none => signedDurationSince arrival e.observedAt ≤ cfg.retention
    | some until' => signedDurationSince arrival until' ≤ cfg.correctionWindow
  | .confirmationFailure => signedDurationSince arrival e.observedAt ≤ cfg.confirmationWindow
  | .traffic =>
    signedDurationSince arrival e.observedAt ≤ max cfg.onlineWindow cfg.correctionWindow
  | .evaluation => signedDurationSince arrival e.observedAt ≤ cfg.retention

def staleControlAt (clock : Option DateTime) (observedAt : DateTime) (active incomingActive : Bool) :
    Bool :=
  clock.any fun clock => observedAt < clock || (observedAt = clock && (active || !incomingActive))

/-- The control evidence is older than what its flag was set by, or does not change it. -/
def staleControl (d : DevicePresence) (e : PresenceEvidence) : Bool :=
  match e.kind with
  | .enforcementBlocked | .enforcementUnblocked =>
    staleControlAt d.enforcementClock e.observedAt d.blocked (e.kind = .enforcementBlocked)
  | .sensorImpaired | .sensorRecovered =>
    staleControlAt d.impairmentClock e.observedAt d.impaired (e.kind = .sensorImpaired)
  | .contradiction | .contradictionCleared =>
    staleControlAt d.contradictionClock e.observedAt d.contradictory (e.kind = .contradiction)
  | _ => false

def applyFlags (d : DevicePresence) (e : PresenceEvidence) : DevicePresence :=
  match e.kind with
  | .enforcementBlocked => if d.enforcementClock.all (· ≤ e.observedAt) then
      { d with blocked := true, enforcementClock := some e.observedAt } else d
  | .enforcementUnblocked => if d.enforcementClock.all (· ≤ e.observedAt) then
      { d with blocked := false, enforcementClock := some e.observedAt } else d
  | .sensorImpaired => if d.impairmentClock.all (· ≤ e.observedAt) then
      { d with impaired := true, impairmentClock := some e.observedAt } else d
  | .sensorRecovered => if d.impairmentClock.all (· ≤ e.observedAt) then
      { d with impaired := false, impairmentClock := some e.observedAt } else d
  | .contradiction => if d.contradictionClock.all (· ≤ e.observedAt) then
      { d with contradictory := true, contradictionClock := some e.observedAt } else d
  | .contradictionCleared => if d.contradictionClock.all (· ≤ e.observedAt) then
      { d with contradictory := false, contradictionClock := some e.observedAt } else d
  | _ => d

/-- The fields that evidence is sorted by. -/
def PresenceEvidence.sortKey (e : PresenceEvidence) : DateTime ×ₗ String ×ₗ ℕ ×ₗ WithBot DateTime :=
  toLex (e.observedAt, toLex (e.source, toLex (e.kind.rank, e.validUntil)))

/-- `sort_evidence`; the sort is stable, like the source's. -/
def sortEvidence (evidence : List PresenceEvidence) : List PresenceEvidence :=
  evidence.insertionSort fun a b => a.sortKey ≤ b.sortKey

/-- The pass of `prune_control_evidence` over one family: only its newest evidence stays. -/
def pruneFamily (evidence : List PresenceEvidence) (family : Fin 3) : List PresenceEvidence :=
  let latest := ((evidence.filter fun e => controlFamily e.kind = some family).map
    (·.observedAt)).max?
  evidence.filter fun e => controlFamily e.kind ≠ some family || latest.all (e.observedAt = ·)

def pruneControlEvidence (evidence : List PresenceEvidence) : List PresenceEvidence :=
  [0, 1, 2].foldl pruneFamily evidence

/-- The state that the evidence supports at an instant. -/
def supportAt (e : PresenceEvidence) (at' : DateTime) (ever : Bool) (online : ℤ) :
    Option PresenceState :=
  if at' < e.observedAt then none
  else
    match e.kind with
    | .traffic => if signedDurationSince at' e.observedAt < online then some .online else none
    | .lease | .routerAssociation | .neighborCache =>
      if e.validUntil.any (at' ≤ ·) then some .quiet else none
    | .probeSuccess => if ever && e.validUntil.any (at' ≤ ·) then some .quiet else none
    | _ => none

/-- The number of observations by different sources, kinds and times. -/
def distinctCount (evidence : List PresenceEvidence) : ℕ :=
  (evidence.map fun e => (e.source, e.kind, e.observedAt)).dedup.length

def confirmations (d : DevicePresence) (at' : DateTime) (window : ℤ)
    (pred : PresenceEvidenceKind → Bool) : ℕ :=
  distinctCount (d.evidence.filter fun e =>
    pred e.kind && e.observedAt ≤ at' && signedDurationSince at' e.observedAt ≤ window)

/-- The end of the support that a piece of evidence gives. -/
def supportEnd (cfg : PresenceConfig) (e : PresenceEvidence) : Option DateTime :=
  match e.kind with
  | .traffic => e.observedAt.checkedAddSigned cfg.onlineWindow
  | .lease | .routerAssociation | .neighborCache | .probeSuccess => e.validUntil
  | _ => none

/-- The state that flags and evidence call for. -/
def candidate (d : DevicePresence) (at' : DateTime) (cfg : PresenceConfig) : PresenceState :=
  if d.blocked then .blocked
  else if d.impaired || d.contradictory then .unknown
  else if d.evidence.any fun e => e.kind = .traffic && e.observedAt ≤ at' &&
      signedDurationSince at' e.observedAt < cfg.onlineWindow then .online
  else if (d.evidence.any fun e =>
      (e.kind = .lease || e.kind = .routerAssociation || e.kind = .neighborCache ||
        e.kind = .probeSuccess) && e.observedAt ≤ at' && e.validUntil.any (at' ≤ ·)) &&
      d.everSupported then .quiet
  else
    let ended := (d.evidence.filterMap (supportEnd cfg)).max?
    let failures := distinctCount (d.evidence.filter fun e =>
      e.kind = .confirmationFailure && e.observedAt ≤ at' && ended.all (· < e.observedAt) &&
        signedDurationSince at' e.observedAt ≤ cfg.confirmationWindow)
    if d.everSupported && cfg.departureConfirmations ≤ failures then .offline
    else if d.state = .online ∨ d.state = .quiet then d.state else .unknown

/-! ### History -/

/-- The eviction loops of `push_history`: the oldest transitions go while there are too many, and
with a transition go the corrections of it that follow it.  `parent` is the transition whose
corrections are being dropped. -/
def evictHistory (limit : ℕ) : Option ℕ → Option ℕ → List PresenceTransition →
    Option ℕ × List PresenceTransition
  | _, evicted, [] => (evicted, [])
  | parent, evicted, t :: rest =>
    if parent ≠ none ∧ t.correctionOf = parent then
      evictHistory limit parent (some t.transitionId) rest
    else if limit ≤ rest.length + 1 then
      evictHistory limit (some t.transitionId) (some t.transitionId) rest
    else (evicted, t :: rest)

def pushHistory (d : DevicePresence) (t : PresenceTransition) (limit : ℕ) : DevicePresence :=
  let (evicted, kept) := evictHistory limit none d.evictedThrough d.history
  { d with history := kept ++ [t], evictedThrough := evicted }

/-! ### Calls -/

namespace PresenceEngine

variable (engine : PresenceEngine)

/-- `validate`. -/
def validate (e : PresenceEvidence) (arrival : DateTime) (enforcementAuthorized : Bool) :
    Except PresenceError Unit := do
  reject (e.source ∉ engine.cfg.trustedSources) .untrusted
  reject (e.source = "" ∨ engine.cfg.maxSourceLen < e.source.utf8ByteSize)
    (.invalidEvidence "source")
  let futureLimit ← okOr (arrival.checkedAddSigned engine.cfg.futureSkew)
    (.invalidEvidence "time overflow")
  reject (futureLimit < e.observedAt) (.invalidEvidence "future skew")
  reject (e.validUntil.any (· < e.observedAt)) (.invalidEvidence "validity")
  reject (e.kind = .neighborCache ∧ e.validUntil = none) (.invalidEvidence "validity")
  reject (e.kind = .traffic ∧ e.observedAt.checkedAddSigned engine.cfg.onlineWindow = none)
    (.invalidEvidence "time overflow")
  reject ((e.kind = .enforcementBlocked ∨ e.kind = .enforcementUnblocked) ∧
    enforcementAuthorized = false) (.invalidEvidence "reserved enforcement")
  reject (e.kind = .evaluation) (.invalidEvidence "reserved kind")

/-- The engine with a device replaced. -/
def setDevice (id : DeviceId) (d : DevicePresence) : PresenceEngine :=
  { engine with devices := engine.devices.insert id d }

/-- `make_transition`: takes the next id. -/
def makeTransition (id : DeviceId) (fromState toState : PresenceState) (e : PresenceEvidence)
    (at' : DateTime) (correction : Option ℕ) :
    Except PresenceError (PresenceTransition × PresenceEngine) := do
  reject (2 ^ 64 ≤ engine.nextTransition + 1) .sequenceExhausted
  return ({ transitionId := engine.nextTransition
            deviceId := id
            fromState := fromState
            toState := toState
            occurredAt := at'
            trigger := ⟨e.source, e.kind, e.observedAt, e.validUntil, at'⟩
            correctionOf := correction },
    { engine with nextTransition := engine.nextTransition + 1 })

end PresenceEngine

/-- The state after the join gate: a device joins only with enough confirmations. -/
def gated (cfg : PresenceConfig) (d : DevicePresence) (at' : DateTime) : PresenceState :=
  let next := candidate d at' cfg
  if (next = .online ∨ next = .quiet) ∧ (d.state = .unknown ∨ d.state = .offline) ∧
      confirmations d at' cfg.confirmationWindow isRealPositive < cfg.joinConfirmations then d.state
  else next

/-- The evidence that a timer stands for. -/
def timerEvidence (id : DeviceId) (at' : DateTime) : PresenceEvidence :=
  ⟨id, "presence.timer", .evaluation, at', none⟩

/-- The departure that late evidence corrects, and the state it should have been. -/
def correction (cfg : PresenceConfig) (d : DevicePresence) (e : PresenceEvidence)
    (arrival : DateTime) : Option (ℕ × PresenceState) :=
  (d.history.reverse.find? fun x => x.toState = .offline ∧
      signedDurationSince arrival x.occurredAt ≤ cfg.correctionWindow).bind fun departure =>
    (supportAt e departure.occurredAt d.everSupported cfg.onlineWindow).map fun target =>
      (departure.transitionId, target)

/-- Positive evidence from before the newest departure. -/
def isLate (d : DevicePresence) (e : PresenceEvidence) : Bool :=
  (d.history.reverse.find? fun x => x.toState = .offline).any fun departure =>
    isPositive e.kind && e.observedAt ≤ departure.occurredAt

def currentValid (cfg : PresenceConfig) (d : DevicePresence) (e : PresenceEvidence)
    (arrival : DateTime) : Bool :=
  (supportAt e arrival d.everSupported cfg.onlineWindow).isSome

/-- The device with the evidence taken in: flags, support and the evidence that stays. -/
def absorb (cfg : PresenceConfig) (d : DevicePresence) (e : PresenceEvidence) (arrival : DateTime) :
    DevicePresence :=
  let late := isLate d e
  let valid := currentValid cfg d e arrival
  let d₁ := { d with
    evidence := d.evidence.filter fun x => semanticallyRetained x arrival cfg
    lastEvaluation := arrival }
  let d₂ := applyFlags d₁ e
  let d₃ := if isRealPositive e.kind && (!late || valid) then { d₂ with everSupported := true }
    else d₂
  if semanticallyRetained e arrival cfg && (!late || valid || !isPositive e.kind) then
    { d₃ with evidence := pruneControlEvidence (sortEvidence (d₃.evidence ++ [e])) }
  else d₃

namespace PresenceEngine

variable (engine : PresenceEngine)

/-- `recompute`: moves the device to its gated state. -/
def recompute (id : DeviceId) (at' : DateTime) (trigger : Option PresenceEvidence) :
    Except PresenceError (Option PresenceTransition × PresenceEngine) := do
  let d ← okOr (engine.devices.get id) .deviceNotFound
  let next := gated engine.cfg d at'
  if next = d.state then return (none, engine)
  else
    let source := trigger.getD (timerEvidence id at')
    let (t, engine') ← engine.makeTransition id d.state next source at' none
    return (some t,
      engine'.setDevice id (pushHistory { d with state := next } t engine.cfg.maxHistoryPerDevice))

/-- The part of `ingest_authorized` after the checks: the device takes the evidence in, a past
departure is corrected, and the state is recomputed. -/
def ingestInto (d : DevicePresence) (e : PresenceEvidence) (arrival : DateTime) :
    Except PresenceError (List PresenceTransition × PresenceEngine) := do
  reject (2 ^ 64 ≤ engine.nextTransition + 2) .sequenceExhausted
  let id := e.deviceId
  let d' := absorb engine.cfg d e arrival
  let engine := engine.setDevice id d'
  let (events, engine) ←
    match correction engine.cfg d e arrival with
    | some (departure, target) => do
      let (t, engine) ← engine.makeTransition id .offline target e arrival (some departure)
      pure ([t], engine.setDevice id (pushHistory d' t engine.cfg.maxHistoryPerDevice))
    | none => pure ([], engine)
  if isLate d e && !currentValid engine.cfg d e arrival && events.isEmpty then
    return (events, engine)
  else
    let (current, engine) ← engine.recompute id arrival (some e)
    return (events ++ current.toList, engine)

/-- `ingest_authorized`: the events and the engine after the evidence. -/
def ingestAuthorized (e : PresenceEvidence) (arrival : DateTime) (enforcementAuthorized : Bool) :
    Except PresenceError (List PresenceTransition × PresenceEngine) := do
  engine.validate e arrival enforcementAuthorized
  match engine.devices.get e.deviceId with
  | none =>
    reject (engine.cfg.maxDevices ≤ engine.devices.size) (.capacity "devices")
    engine.ingestInto (.initial arrival) e arrival
  | some d =>
    reject (arrival < d.lastEvaluation) .clockRollback
    if e ∈ d.evidence ∨ staleControl d e = true then return ([], engine)
    else
      reject (semanticallyRetained e arrival engine.cfg = true ∧ engine.cfg.maxEvidencePerDevice ≤
          (d.evidence.filter fun x => semanticallyRetained x arrival engine.cfg).length)
        (.capacity "evidence")
      engine.ingestInto d e arrival

/-- `ingest_events`. -/
def ingestEvents (e : PresenceEvidence) (arrival : DateTime) :
    Except PresenceError (List PresenceTransition × PresenceEngine) :=
  engine.ingestAuthorized e arrival false

/-- `record_verified_enforcement`, before the newest event is taken. -/
def recordVerifiedEnforcement (deviceId : DeviceId) (blocked : Bool) (source : String)
    (observedAt arrival : DateTime) :
    Except PresenceError (List PresenceTransition × PresenceEngine) :=
  engine.ingestAuthorized ⟨deviceId, source,
    if blocked then .enforcementBlocked else .enforcementUnblocked, observedAt, none⟩ arrival true

/-- `evaluate`. -/
def evaluate (id : DeviceId) (at' : DateTime) :
    Except PresenceError (Option PresenceTransition × PresenceEngine) := do
  let d ← okOr (engine.devices.get id) .deviceNotFound
  reject (at' < d.lastEvaluation) .clockRollback
  reject (engine.nextTransition = 2 ^ 64 - 1) .sequenceExhausted
  (engine.setDevice id { d with lastEvaluation := at' }).recompute id at' none

end PresenceEngine

end NeonHearth.Presence
