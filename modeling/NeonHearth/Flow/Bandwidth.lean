import NeonHearth.Flow.Engine

/-!
# Live bandwidth

The adapter between the rollups and the live stream.  It keeps the rows of the latest second of every
device (`FlowLiveAdapter.apply`), and what they have gained since the last frame waits in the
`LiveCoalescer` until the next frame may be sent (`flush`).  Nothing of this is durable: a service
starts with an empty adapter.

An adapter that has never seen a rollup is `Idle`.  It sends nothing, and all that is left of a flush is
its tick (`stagedPayload_of_idle`).

Ticks are milliseconds of a clock that does not go back.  Counters are 64 bit numbers.
-/

namespace NeonHearth.Flow

structure LiveConfig where
  minIntervalMs : ℕ
  maxDevices : ℕ
  maxPending : ℕ
  maxWork : ℕ

/-- `LiveConfig::default`. -/
def LiveConfig.default : LiveConfig where
  minIntervalMs := 250
  maxDevices := 1024
  maxPending := 1024
  maxWork := 8192

structure LiveSample where
  deviceId : DeviceId
  delta : ByteCount
  coverage : Coverage
  /-- Start of the second. -/
  observedAt : ℤ

inductive LiveError where
  | config
  | clock
  | capacity
  | work
  | overflow
  deriving DecidableEq

structure BandwidthSample where
  deviceId : DeviceId
  delta : ByteCount
  uploadBytesPerSecond : ℕ
  downloadBytesPerSecond : ℕ
  coverage : Coverage

structure BandwidthFrame where
  intervalMs : ℕ
  observedAt : ℤ
  emittedAt : DateTime
  samples : List BandwidthSample

def rate (bytes ms : ℕ) : Except LiveError ℕ := do
  reject (2 ^ 64 ≤ bytes * 1000) .overflow
  pure (bytes * 1000 / ms)

/-! ### The coalescer -/

structure LiveCoalescer where
  cfg : LiveConfig
  pending : SortedMap DeviceId LiveSample
  lastTick : Option ℕ
  lastEmit : Option ℕ
  lastEmittedAt : Option DateTime

namespace LiveCoalescer

/-- `LiveCoalescer::new`. -/
def new (cfg : LiveConfig) : Except LiveError LiveCoalescer := do
  reject (cfg.minIntervalMs < 250 ∨ cfg.maxDevices = 0 ∨ cfg.maxPending = 0 ∨ cfg.maxWork = 0) .config
  pure ⟨cfg, ∅, none, none, none⟩

variable (c : LiveCoalescer)

def replace (tickMs : ℕ) (samples : List LiveSample) : Except LiveError LiveCoalescer := do
  reject (c.lastTick.any (tickMs < ·)) .clock
  reject (c.cfg.maxWork < samples.length) .work
  let next ← samples.foldlM (fun next s => do
    reject (next.get s.deviceId = none ∧ c.cfg.maxPending ≤ next.size) .capacity
    pure (next.insert s.deviceId s)) c.pending
  reject (c.cfg.maxDevices < next.size) .capacity
  pure { c with pending := next, lastTick := some tickMs }

def syncDevices (devices : List DeviceId) (samples : SortedMap DeviceId LiveSample) : LiveCoalescer :=
  { c with
    pending := devices.foldl (fun pending d =>
      match samples.get d with
      | some s => pending.insert d s
      | none => pending.erase d) c.pending }

/-- The samples of a frame, with the rates over an interval. -/
def frameSamples (interval : ℕ) : Except LiveError (List BandwidthSample) :=
  c.pending.toList.mapM fun (_, s) => do
    let up ← rate s.delta.upload interval
    let down ← rate s.delta.download interval
    pure ⟨s.deviceId, s.delta, up, down, s.coverage⟩

/-- The time since the last frame. -/
def interval (tickMs : ℕ) : Except LiveError ℕ :=
  match c.lastEmit with
  | some last => if tickMs < last then .error .clock else .ok (tickMs - last)
  | none => .ok c.cfg.minIntervalMs

/-- A frame with everything that is pending, if the last one is old enough. -/
def emit (tickMs : ℕ) (emittedAt : DateTime) :
    Except LiveError (LiveCoalescer × Option BandwidthFrame) := do
  let interval ← c.interval tickMs
  if interval < c.cfg.minIntervalMs then pure (c, none)
  else do
    reject (c.cfg.maxWork < c.pending.size) .work
    let observedAt ← okOr (c.pending.toList.map fun x => x.2.observedAt).max? .capacity
    let samples ← c.frameSamples interval
    pure ({ c with
      pending := ∅
      lastTick := some tickMs
      lastEmit := some tickMs
      lastEmittedAt := some emittedAt }, some ⟨interval, observedAt, emittedAt, samples⟩)

def flush (tickMs : ℕ) (emittedAt : DateTime) :
    Except LiveError (LiveCoalescer × Option BandwidthFrame) := do
  reject (c.lastTick.any (tickMs < ·) ∨ c.lastEmit.any (tickMs < ·) ∨
    c.lastEmittedAt.any (emittedAt < ·)) .clock
  if c.pending.size = 0 then pure ({ c with lastTick := some tickMs }, none)
  else c.emit tickMs emittedAt

end LiveCoalescer

/-! ### The adapter -/

structure FlowLiveAdapter where
  current : SortedMap RollupKey Value
  emitted : SortedMap RollupKey ByteCount
  pendingBaselines : SortedMap RollupKey ByteCount
  coalescer : LiveCoalescer
  maxRows : ℕ

structure CurrentSamples where
  byDevice : SortedMap DeviceId LiveSample
  baselines : SortedMap RollupKey ByteCount
  resets : SortedMap RollupKey ByteCount

/-- One row of `samples_for_current`: what it has gained over its baseline counts for its device, and
a baseline above the row is lowered to it. -/
def CurrentSamples.addRow (emitted : SortedMap RollupKey ByteCount) (out : CurrentSamples) :
    RollupKey × Value → Except LiveError CurrentSamples
  | (key, row) => do
    let baseline := (emitted.get key).getD ⟨0, 0⟩
    let resets :=
      if row.bytes.upload < baseline.upload ∨ row.bytes.download < baseline.download then
        out.resets.insert key
          ⟨min row.bytes.upload baseline.upload, min row.bytes.download baseline.download⟩
      else out.resets
    let delta : ByteCount :=
      ⟨row.bytes.upload - baseline.upload, row.bytes.download - baseline.download⟩
    if delta = ⟨0, 0⟩ then pure { out with resets }
    else do
      let device := key.dims.device
      let x := (out.byDevice.get device).getD ⟨device, ⟨0, 0⟩, row.coverage, key.bucket⟩
      reject (2 ^ 64 ≤ x.delta.upload + delta.upload) .overflow
      reject (2 ^ 64 ≤ x.delta.download + delta.download) .overflow
      let sum : ByteCount := ⟨x.delta.upload + delta.upload, x.delta.download + delta.download⟩
      let coverage := if x.coverage = row.coverage then x.coverage else .estimated
      pure
        { byDevice := out.byDevice.insert device { x with delta := sum, coverage }
          baselines := out.baselines.insert key row.bytes
          resets }

def samplesForCurrent (next : SortedMap RollupKey Value) (emitted : SortedMap RollupKey ByteCount) :
    Except LiveError CurrentSamples :=
  next.toList.foldlM (CurrentSamples.addRow emitted) ⟨∅, ∅, ∅⟩

/-- The rows while changes are applied to them. -/
structure AppliedRows where
  next : SortedMap RollupKey Value
  emitted : SortedMap RollupKey ByteCount
  pendingBaselines : SortedMap RollupKey ByteCount
  trafficChanged : Bool
  retiredDevices : List DeviceId

namespace AppliedRows

variable (rows : AppliedRows)

/-- The latest second of a device. -/
def latest (device : DeviceId) : Option ℤ :=
  ((rows.next.toList.filter fun x => x.1.dims.device = device).map fun x => x.1.bucket).max?

/-- A later second of a device replaces the earlier one. -/
def dropDevice (device : DeviceId) : AppliedRows :=
  { rows with
    next := rows.next.filter fun key _ => key.dims.device ≠ device
    emitted := rows.emitted.filter fun key _ => key.dims.device ≠ device
    pendingBaselines := rows.pendingBaselines.filter fun key _ => key.dims.device ≠ device }

def write (key : RollupKey) (value : Value) : AppliedRows :=
  let latest := rows.latest key.dims.device
  if key.resolution ≠ .second ∨ latest.any (key.bucket < ·) then rows
  else
    let kept := if latest.any (· < key.bucket) then rows.dropDevice key.dims.device else rows
    { kept with next := kept.next.insert key value, trafficChanged := true }

def change : RollupChange → AppliedRows
  | .upsert key value | .correction key value => rows.write key value
  | .retire key cacheOnly =>
    if cacheOnly ∧ key.resolution = .second ∧ rows.next.get key ≠ none then
      { rows with
        next := rows.next.erase key
        emitted := rows.emitted.erase key
        pendingBaselines := rows.pendingBaselines.erase key
        retiredDevices := rows.retiredDevices ++ [key.dims.device] }
    else rows

end AppliedRows

/-- The devices that have rows. -/
def devicesOf (rows : SortedMap RollupKey Value) : List DeviceId :=
  rows.toList.map fun x => x.1.dims.device

/-- The entries of the second map replace those of the first. -/
def overwrite {K V : Type} [LinearOrder K] (m n : SortedMap K V) : SortedMap K V :=
  n.toList.foldl (fun m x => m.insert x.1 x.2) m

namespace FlowLiveAdapter

/-- `FlowLiveAdapter::new`. -/
def new (cfg : LiveConfig) (maxRows : ℕ) : Except LiveError FlowLiveAdapter := do
  reject (maxRows = 0) .config
  let coalescer ← LiveCoalescer.new cfg
  pure ⟨∅, ∅, ∅, coalescer, maxRows⟩

variable (adapter : FlowLiveAdapter)

/-- `apply`; a failed call leaves the adapter as it was. -/
def apply (tickMs : ℕ) (changes : List RollupChange) : Except LiveError FlowLiveAdapter := do
  reject (adapter.coalescer.cfg.maxWork < changes.length) .work
  let rows := changes.foldl AppliedRows.change
    ⟨adapter.current, adapter.emitted, adapter.pendingBaselines, false, []⟩
  reject (adapter.maxRows < rows.next.size) .capacity
  let samples ← samplesForCurrent rows.next rows.emitted
  let emitted := overwrite rows.emitted samples.resets
  if rows.trafficChanged then do
    let coalescer ← adapter.coalescer.replace tickMs (samples.byDevice.toList.map Prod.snd)
    let affected := devicesOf rows.next ++ devicesOf adapter.current
    pure { adapter with
      current := rows.next
      emitted
      pendingBaselines := samples.baselines
      coalescer := coalescer.syncDevices affected samples.byDevice }
  else
    pure { adapter with
      current := rows.next
      emitted
      pendingBaselines := rows.pendingBaselines
      coalescer := adapter.coalescer.syncDevices rows.retiredDevices samples.byDevice }

def flushPayload (tickMs : ℕ) (now : DateTime) :
    Except LiveError (FlowLiveAdapter × Option BandwidthFrame) := do
  let (coalescer, frame) ← adapter.coalescer.flush tickMs now
  if frame.isSome then
    -- what was sent is the new baseline
    pure ({ adapter with
      coalescer
      emitted := overwrite adapter.emitted adapter.pendingBaselines
      pendingBaselines := ∅ }, frame)
  else pure ({ adapter with coalescer }, frame)

/-- `staged_payload`: the adapter after the changes and a flush. -/
def stagedPayload (tickMs : ℕ) (changes : List RollupChange) (now : DateTime) :
    Except LiveError (FlowLiveAdapter × Option BandwidthFrame) := do
  let staged ← adapter.apply tickMs changes
  staged.flushPayload tickMs now

/-! ### Without rollups -/

/-- The adapter has never seen a rollup. -/
structure Idle : Prop where
  current : adapter.current = ∅
  pending : adapter.coalescer.pending = ∅
  lastEmit : adapter.coalescer.lastEmit = none
  lastEmittedAt : adapter.coalescer.lastEmittedAt = none

/-- The adapter after a flush that sends nothing. -/
def ticked (tickMs : ℕ) : FlowLiveAdapter :=
  { adapter with coalescer := { adapter.coalescer with lastTick := some tickMs } }

/-- The tick is not before the last one. -/
def Follows (tickMs : ℕ) : Prop := ∀ last ∈ adapter.coalescer.lastTick, last ≤ tickMs
  deriving Decidable

variable {adapter}

theorem idle_of_new {cfg} {maxRows : ℕ} (h : new cfg maxRows = .ok adapter) :
    adapter.Idle ∧ adapter.coalescer.lastTick = none := by
  simp only [new, LiveCoalescer.new, Except.bind_eq_ok, Except.pure_eq_ok] at h
  obtain ⟨-, -, coalescer, ⟨-, -, rfl⟩, rfl⟩ := h
  exact ⟨⟨rfl, rfl, rfl, rfl⟩, rfl⟩

theorem Idle.ticked (h : adapter.Idle) (tickMs : ℕ) : (adapter.ticked tickMs).Idle :=
  { h with }

theorem follows_ticked {tickMs next : ℕ} : (adapter.ticked tickMs).Follows next ↔ tickMs ≤ next := by
  simp [Follows, FlowLiveAdapter.ticked]

/-- **Without rollups** a flush sends nothing, and refuses only a tick from before the last one. -/
theorem stagedPayload_of_idle (h : adapter.Idle) (tickMs : ℕ) (now) :
    adapter.stagedPayload tickMs [] now =
      if adapter.Follows tickMs then .ok (adapter.ticked tickMs, none) else .error .clock := by
  have hsize : adapter.coalescer.pending.size = 0 := by
    rw [h.pending]
    rfl
  have hclock : adapter.coalescer.lastTick.any (tickMs < ·) = true ↔ ¬adapter.Follows tickMs := by
    simp [Follows, Option.any_eq_true]
  have hflush : adapter.coalescer.flush tickMs now = if adapter.Follows tickMs then
      .ok ({ adapter.coalescer with lastTick := some tickMs }, none) else .error .clock := by
    simp only [LiveCoalescer.flush, h.lastEmit, h.lastEmittedAt, hsize, Option.any_none,
      Bool.false_eq_true, or_false, if_true, hclock, reject, ite_not]
    split_ifs <;> rfl
  have happly : adapter.apply tickMs [] = .ok adapter := by
    obtain ⟨current, emitted, baselines, coalescer, maxRows⟩ := adapter
    obtain rfl := h.current
    rfl
  rw [stagedPayload, happly]
  simp only [bind, Except.bind, flushPayload, hflush]
  split_ifs <;> rfl

theorem eq_ticked_of_idle {adapter'} {tickMs : ℕ} {now payload} (h : adapter.Idle)
    (hstaged : adapter.stagedPayload tickMs [] now = .ok (adapter', payload)) :
    adapter' = adapter.ticked tickMs := by
  rw [stagedPayload_of_idle h] at hstaged
  split at hstaged
  · exact (Prod.mk.inj (Except.ok.inj hstaged)).1.symm
  · cases hstaged

end FlowLiveAdapter

end NeonHearth.Flow
