import NeonHearth.Data.SortedMap
import NeonHearth.Flow.Types

/-!
# The flow engine

The event-time rollup engine of the sensor.  Observations are summed per second, dimensions and
source; when the watermark passes the end of a second, the best source of the second is selected,
its row is revised and its minute and hour parents are adjusted by the difference.  Rows whose
correction window is over leave the cache.

A cached row is stored under its key as a `Value`; the `key` and `metadata` fields of the source's
rows repeat the key.  Epochs are integers: they come from instants inside chrono's range, so the
64-bit additions and multiplications on them cannot overflow.
-/

namespace NeonHearth.Flow

/-- What kind of vantage point a source has. -/
inductive VisibilityKind where
  | gateway
  | bridge
  | mirror
  | routerCounter
  | local
  | inference
  deriving Repr

/-- A trust registration. -/
structure SourceRegistration where
  id : FlowSourceId
  kind : VisibilityKind

abbrev ReplayId := ℕ

structure FlowObservation where
  replayId : ReplayId
  eventTime : DateTime
  arrivalTime : DateTime
  deviceId : DeviceId
  upload : ℕ
  download : ℕ
  protocol : Protocol
  destination : DestinationCategory
  interface : ℕ
  source : FlowSourceId
  metadata : Option DestinationMetadata

structure FlowEngineConfig where
  lateness : ℤ
  futureSkew : ℤ
  replayTtl : ℤ
  correctionRetention : ℤ
  retainDestinationMetadata : Bool
  maxDomainBytes : ℕ
  maxDevices : ℕ
  maxSources : ℕ
  maxOpenRows : ℕ
  maxReplayIds : ℕ
  maxFinalizedRows : ℕ
  maxOutputsPerCall : ℕ
  maxWorkPerCall : ℕ

/-- `FlowEngineConfig::default`. -/
def FlowEngineConfig.default : FlowEngineConfig where
  lateness := seconds 5
  futureSkew := seconds 5
  replayTtl := minutes 10
  correctionRetention := hours 24
  retainDestinationMetadata := false
  maxDomainBytes := 253
  maxDevices := 1024
  maxSources := 64
  maxOpenRows := 4096
  maxReplayIds := 8192
  maxFinalizedRows := 65536
  maxOutputsPerCall := 16384
  maxWorkPerCall := 262144

inductive FlowError where
  | config
  | capacity
  | unknownSource
  | replay
  | tooLate
  | time
  | futureSkew
  | interface
  | metadata
  | overflow
  | outputLimit
  | workLimit
  deriving DecidableEq

/-- The configurations that `FlowEngine::new` accepts. -/
@[mk_iff]
structure FlowEngineConfig.Valid (cfg : FlowEngineConfig) : Prop where
  lateness : 0 ≤ cfg.lateness
  futureSkew : 0 ≤ cfg.futureSkew
  replayTtl : 0 < cfg.replayTtl
  correctionRetention : cfg.lateness ≤ cfg.correctionRetention
  lateness_le_replayTtl : cfg.lateness ≤ cfg.replayTtl
  maxDomainBytes : cfg.maxDomainBytes ≠ 0
  maxDevices : cfg.maxDevices ≠ 0
  maxSources : cfg.maxSources ≠ 0
  maxOpenRows : cfg.maxOpenRows ≠ 0
  maxReplayIds : cfg.maxReplayIds ≠ 0
  maxFinalizedRows : cfg.maxFinalizedRows ≠ 0
  maxOutputsPerCall : cfg.maxOutputsPerCall ≠ 0
  maxWorkPerCall : cfg.maxWorkPerCall ≠ 0

instance (cfg : FlowEngineConfig) : Decidable cfg.Valid :=
  decidable_of_iff' _ (FlowEngineConfig.valid_iff _)

theorem FlowEngineConfig.default_valid : FlowEngineConfig.default.Valid := by decide

/-- A change of a rollup row. -/
inductive RollupChange where
  | upsert (key : RollupKey) (value : Value)
  | correction (key : RollupKey) (value : Value)
  | retire (key : RollupKey) (cacheOnly : Bool)
  deriving DecidableEq

/-- An accepted replay id. -/
structure ReplayEntry where
  arrival : DateTime
  device : DeviceId

/-- The engine.  Its configuration has passed the checks of `FlowEngine.new`. -/
structure FlowEngine where
  cfg : FlowEngineConfig
  cfg_valid : cfg.Valid
  /-- The closed source registry. -/
  sources : SortedMap FlowSourceId VisibilityKind
  /-- What each source saw in the seconds that can still be revised. -/
  seconds : SortedMap SourceSecondKey ByteCount
  replay : SortedMap ReplayId ReplayEntry
  lastArrival : Option DateTime
  watermark : Option DateTime
  /-- The cached rollup rows. -/
  emitted : SortedMap RollupKey Value

/-- A result of unsigned 64-bit arithmetic. -/
def checkedU64 (n : ℕ) : Except FlowError ℕ := if n < 2 ^ 64 then .ok n else .error .overflow

/-- `checked_sub` on unsigned 64-bit integers. -/
def checkedSub (m n : ℕ) : Except FlowError ℕ := if n ≤ m then .ok (m - n) else .error .overflow

/-- Registers the sources; a repeated id is refused. -/
def registerSources (registrations : List SourceRegistration) :
    Except FlowError (SortedMap FlowSourceId VisibilityKind) :=
  registrations.foldlM (fun sources r => do
    reject (sources.get r.id ≠ none) FlowError.config
    return sources.insert r.id r.kind) ∅

/-- `FlowEngine::new`. -/
def FlowEngine.new (cfg : FlowEngineConfig) (registrations : List SourceRegistration) :
    Except FlowError FlowEngine :=
  if h : cfg.Valid then do
    let sources ← registerSources registrations
    reject (cfg.maxSources < sources.size) FlowError.capacity
    reject (sources.size = 0) FlowError.config
    return {
      cfg := cfg, cfg_valid := h, sources := sources, seconds := ∅, replay := ∅
      lastArrival := none, watermark := none, emitted := ∅ }
  else .error .config

/-! ### Observations -/

/-- A label of a domain name. -/
def validLabel (label : List Char) : Bool :=
  !label.isEmpty && label.length ≤ 63 && label.head? != some '-' && label.getLast? != some '-' &&
    label.all fun c => c.isAlphanum || c == '-'

/-- The domain names that are kept. -/
def validDomain (domain : String) : Bool :=
  let chars := domain.toList
  !chars.isEmpty && chars.all (·.val < 128) && chars.head? != some '.' &&
    chars.getLast? != some '.' && (chars.splitOn '.').all validLabel

/-- `normalize_metadata`. -/
def normalizeMetadata (metadata : Option DestinationMetadata) (cfg : FlowEngineConfig) :
    Except FlowError (Option DestinationMetadata) :=
  if cfg.retainDestinationMetadata then
    match metadata with
    | some ⟨ip, some domain⟩ => do
      reject (cfg.maxDomainBytes < domain.utf8ByteSize) FlowError.capacity
      reject (validDomain domain = false) FlowError.metadata
      return some ⟨ip, some domain.toLower⟩
    | other => .ok other
  else .ok none

/-- The second that an observation is counted in. -/
def FlowObservation.key (o : FlowObservation) (cfg : FlowEngineConfig) :
    Except FlowError SourceSecondKey := do
  let metadata ← normalizeMetadata o.metadata cfg
  return ⟨⟨o.eventTime.timestamp, o.deviceId, o.protocol, o.destination, o.interface, metadata⟩,
    o.source⟩

/-- The bytes of an observation. -/
def FlowObservation.bytes (o : FlowObservation) : ByteCount := ⟨o.upload, o.download⟩

namespace ByteCount

instance : Zero ByteCount := ⟨⟨0, 0⟩⟩

instance : Add ByteCount := ⟨fun a b => ⟨a.upload + b.upload, a.download + b.download⟩⟩

/-- Addition whose parts and total stay inside 64 bits. -/
def checkedAdd (a b : ByteCount) : Except FlowError ByteCount := do
  let upload ← checkedU64 (a.upload + b.upload)
  let download ← checkedU64 (a.download + b.download)
  let _ ← checkedU64 (upload + download)
  return ⟨upload, download⟩

end ByteCount

variable (engine : FlowEngine)

/-- The devices with an open second or a live replay id, each of them once. -/
def activeDevices (seconds : SortedMap SourceSecondKey ByteCount)
    (replay : SortedMap ReplayId ReplayEntry) : List DeviceId :=
  (seconds.toList.map (·.1.base.dims.device) ++ replay.toList.map (·.2.device)).dedup

/-- The end of the second of an event plus the allowed lateness. -/
def lateEdge (lateness : ℤ) (epoch : ℤ) : Option DateTime :=
  (DateTime.fromTimestamp (epoch + 1)).bind (·.checkedAddSigned lateness)

/-- `FlowEngine::observe`. -/
def FlowEngine.observe (o : FlowObservation) : Except FlowError FlowEngine := do
  let _kind ← okOr (engine.sources.get o.source) .unknownSource
  reject (o.interface = 0) .interface
  let _ ← checkedU64 (o.upload + o.download)
  reject (engine.lastArrival.any (o.arrivalTime < ·)) .time
  let future ← okOr (o.arrivalTime.checkedAddSigned engine.cfg.futureSkew) .overflow
  reject (future < o.eventTime) .futureSkew
  let edge ← okOr (lateEdge engine.cfg.lateness o.eventTime.timestamp) .overflow
  reject (edge < o.arrivalTime) .tooLate
  reject (engine.watermark.any (edge < ·)) .tooLate
  let cutoff ← okOr (o.arrivalTime.checkedSubSigned engine.cfg.replayTtl) .overflow
  let work ← checkedU64 (engine.replay.size * 3 + engine.seconds.size + 1)
  reject (engine.cfg.maxWorkPerCall < work) .workLimit
  let live := engine.replay.filter fun _ entry => cutoff ≤ entry.arrival
  reject ((live.get o.replayId).isSome) .replay
  reject (engine.cfg.maxReplayIds ≤ live.size) .capacity
  let key ← o.key engine.cfg
  let devices := activeDevices engine.seconds live
  reject (o.deviceId ∉ devices ∧ engine.cfg.maxDevices ≤ devices.length) .capacity
  reject (engine.seconds.get key = none ∧ engine.cfg.maxOpenRows ≤ engine.seconds.size) .capacity
  let value ← ((engine.seconds.get key).getD 0).checkedAdd o.bytes
  return { engine with
    replay := live.insert o.replayId ⟨o.arrivalTime, o.deviceId⟩
    seconds := engine.seconds.insert key value
    lastArrival := some o.arrivalTime }

/-! ### Closing seconds -/

def coverage : VisibilityKind → Coverage
  | .gateway | .bridge | .mirror => .complete
  | .routerCounter => .routerReported
  | .local => .localOnly
  | .inference => .estimated

/-- Mixed visibility never claims completeness. -/
def mergeCoverage (a b : Coverage) : Coverage := if a = b then a else .estimated

def coverageRank : Coverage → ℕ
  | .complete => 4
  | .routerReported => 3
  | .localOnly => 2
  | .estimated => 1

/-- The winning source of each second so far, and what it saw. -/
abbrev Selection := SortedMap SecondKey (ℕ × FlowSourceId) × SortedMap SecondKey Value

/-- One pass of the selection loop. -/
def selectSecond (sources : SortedMap FlowSourceId VisibilityKind) (w : DateTime)
    (out : Selection) (entry : SourceSecondKey × ByteCount) : Except FlowError Selection :=
  let (k, bytes) := entry
  if w.timestamp < k.base.epoch + 1 then .ok out
  else do
    let kind ← okOr (sources.get k.source) .unknownSource
    let cov := coverage kind
    let rank := coverageRank cov
    let replace := (out.1.get k.base).all fun (r, id) =>
      decide (r < rank ∨ rank = r ∧ k.source < id)
    return if replace then (out.1.insert k.base (rank, k.source), out.2.insert k.base ⟨bytes, cov⟩)
      else out

/-- `select_seconds`: the best source of every second that is closed at `w`. -/
def selectSeconds (secs : SortedMap SourceSecondKey ByteCount)
    (sources : SortedMap FlowSourceId VisibilityKind) (w : DateTime) :
    Except FlowError (SortedMap SecondKey Value) := do
  let out ← secs.toList.foldlM (selectSecond sources w) (∅, ∅)
  return out.2

/-- The key that `make_rollup` gives a row; the bucket has to be an instant. -/
def makeRollupKey (res : Resolution) (epoch : ℤ) (dims : Dimensions) :
    Except FlowError RollupKey := do
  let _bucket ← okOr (DateTime.fromTimestamp epoch) .overflow
  return ⟨res, epoch, dims⟩

/-- The start of the bucket that contains a second. -/
def bucketOf (res : Resolution) (epoch : ℤ) : ℤ := epoch / res.width * res.width

/-- `adjust_parent`: replaces the old count of a second in a parent row by the new one. -/
def adjustParent (out : SortedMap RollupKey Value) (res : Resolution) (base : SecondKey)
    (old : Option Value) (new : Value) : Except FlowError (SortedMap RollupKey Value) := do
  let key ← makeRollupKey res (bucketOf res base.epoch) base.dims
  let p := (out.get key).getD ⟨0, new.coverage⟩
  let oldBytes := (old.map Value.bytes).getD 0
  let upload ← checkedSub p.bytes.upload oldBytes.upload
  let upload ← checkedU64 (upload + new.bytes.upload)
  let download ← checkedSub p.bytes.download oldBytes.download
  let download ← checkedU64 (download + new.bytes.download)
  let _ ← checkedU64 (upload + download)
  return out.insert key ⟨⟨upload, download⟩, mergeCoverage p.coverage new.coverage⟩

/-- One pass of the closing loop: a revised second replaces its row and adjusts its parents. -/
def closeSecond (proposed : SortedMap RollupKey Value) (entry : SecondKey × Value) :
    Except FlowError (SortedMap RollupKey Value) := do
  let (base, value) := entry
  let key ← makeRollupKey .second base.epoch base.dims
  let old := proposed.get key
  if old = some value then return proposed
  else do
    let proposed ← adjustParent (proposed.insert key value) .minute base old value
    adjustParent proposed .hour base old value

/-- The correction window of a row is over at the watermark `w`. -/
def retired (k : RollupKey) (w : DateTime) (lateness : ℤ) : Bool :=
  (((DateTime.fromTimestamp k.bucket).bind (·.checkedAddSigned (seconds k.resolution.width))).bind
    (·.checkedAddSigned lateness)).any (· < w)

/-- The change of one row between the cached and the proposed rows. -/
def rollupChange (emitted proposed : SortedMap RollupKey Value) (k : RollupKey) :
    Option RollupChange :=
  match emitted.get k, proposed.get k with
  | none, some v => some (.upsert k v)
  | some old, some v => if old = v then none else some (.correction k v)
  | some _, none => some (.retire k true)
  | none, none => none

/-- The keys of two maps, ascending. -/
def unionKeys (m n : SortedMap RollupKey Value) : List RollupKey :=
  (n.toList.foldl (fun m entry => m.insert entry.1 entry.2) m).toList.map Prod.fst

/-- `FlowEngine::advance_watermark_at`.  The loop over the keys charges one unit of work a key. -/
def FlowEngine.advanceWatermarkAt (next now : DateTime) :
    Except FlowError (List RollupChange × FlowEngine) := do
  reject (now < next) .futureSkew
  reject (engine.lastArrival.any (now < ·)) .time
  reject (engine.watermark.any (next < ·)) .time
  let horizon := min engine.cfg.correctionRetention engine.cfg.lateness
  let cutoff ← okOr (next.checkedSubSigned horizon) .overflow
  let requiredWork ← checkedU64 (engine.seconds.size * 8 + engine.emitted.size * 4)
  reject (engine.cfg.maxWorkPerCall < requiredWork) .workLimit
  let selected ← selectSeconds engine.seconds engine.sources next
  let proposed ← selected.toList.foldlM closeSecond engine.emitted
  let proposed := proposed.filter fun k _ => !retired k next engine.cfg.lateness
  reject (engine.cfg.maxFinalizedRows < proposed.size) .capacity
  let keys := unionKeys engine.emitted proposed
  reject (engine.cfg.maxWorkPerCall < requiredWork + keys.length) .workLimit
  let changes := keys.filterMap (rollupChange engine.emitted proposed)
  reject (engine.cfg.maxOutputsPerCall < changes.length) .outputLimit
  let replayCutoff ← okOr (now.checkedSubSigned engine.cfg.replayTtl) .overflow
  return (changes, { engine with
    watermark := some next
    emitted := proposed
    seconds := engine.seconds.filter fun k _ => cutoff.timestamp ≤ k.base.epoch + 1
    replay := engine.replay.filter fun _ entry => replayCutoff ≤ entry.arrival
    lastArrival := some now })

end NeonHearth.Flow
