import NeonHearth.Data.InPlace
import NeonHearth.Flow.DoubleCounting

/-!
# Failed flow operations

`FlowEngine::observe` and `FlowEngine::advance_watermark_at` change an engine in place, one field after
the other.  Here they are translated statement by statement, with the devices that the engine counts.

* `observe_follows`, `advanceWatermarkAt_follows` : the code does what the pure model says;
* `failed_call_unchanged` : a call that fails changes nothing.
-/

namespace NeonHearth.Flow

open InPlace

/-- The engine in memory. -/
structure FlowMemory extends FlowEngine where
  /-- The devices with an open second or a replay id. -/
  devices : Finset DeviceId

namespace FlowMemory

/-- `FlowEngine::observe`. -/
def observe (o : FlowObservation) : InPlace FlowMemory FlowError Unit := do
  let m ← get
  let _kind ← check (okOr (m.sources.get o.source) .unknownSource)
  check (reject (o.interface = 0) .interface)
  let _ ← check (checkedU64 (o.upload + o.download))
  check (reject (m.lastArrival.any (o.arrivalTime < ·)) .time)
  let future ← check (okOr (o.arrivalTime.checkedAddSigned m.cfg.futureSkew) .overflow)
  check (reject (future < o.eventTime) .futureSkew)
  let edge ← check (okOr (lateEdge m.cfg.lateness o.eventTime.timestamp) .overflow)
  check (reject (edge < o.arrivalTime) .tooLate)
  check (reject (m.watermark.any (edge < ·)) .tooLate)
  let cutoff ← check (okOr (o.arrivalTime.checkedSubSigned m.cfg.replayTtl) .overflow)
  let work ← check (checkedU64 (m.replay.size * 3 + m.seconds.size + 1))
  check (reject (m.cfg.maxWorkPerCall < work) .workLimit)
  let live := m.replay.filter fun _ entry => cutoff ≤ entry.arrival
  check (reject ((live.get o.replayId).isSome) .replay)
  check (reject (m.cfg.maxReplayIds ≤ live.size) .capacity)
  let key ← check (o.key m.cfg)
  let active := activeDevices m.seconds live
  check (reject (o.deviceId ∉ active ∧ m.cfg.maxDevices ≤ active.length) .capacity)
  check (reject (m.seconds.get key = none ∧ m.cfg.maxOpenRows ≤ m.seconds.size) .capacity)
  let value ← check (((m.seconds.get key).getD 0).checkedAdd o.bytes)
  modify fun m => { m with replay := m.replay.filter fun _ entry => cutoff ≤ entry.arrival }
  modify fun m => { m with replay := m.replay.insert o.replayId ⟨o.arrivalTime, o.deviceId⟩ }
  modify fun m => { m with devices := insert o.deviceId active.toFinset }
  modify fun m => { m with seconds := m.seconds.insert key value }
  modify fun m => { m with lastArrival := some o.arrivalTime }

/-- `FlowEngine::advance_watermark_at`.  The proposed rows are a copy. -/
def advanceWatermarkAt (next now : DateTime) : InPlace FlowMemory FlowError (List RollupChange) := do
  let m ← get
  check (reject (now < next) .futureSkew)
  check (reject (m.lastArrival.any (now < ·)) .time)
  check (reject (m.watermark.any (next < ·)) .time)
  let horizon := min m.cfg.correctionRetention m.cfg.lateness
  let cutoff ← check (okOr (next.checkedSubSigned horizon) .overflow)
  let requiredWork ← check (checkedU64 (m.seconds.size * 8 + m.emitted.size * 4))
  check (reject (m.cfg.maxWorkPerCall < requiredWork) .workLimit)
  let selected ← check (selectSeconds m.seconds m.sources next)
  let proposed ← check (selected.toList.foldlM closeSecond m.emitted)
  let proposed := proposed.filter fun k _ => !retired k next m.cfg.lateness
  check (reject (m.cfg.maxFinalizedRows < proposed.size) .capacity)
  let keys := unionKeys m.emitted proposed
  check (reject (m.cfg.maxWorkPerCall < requiredWork + keys.length) .workLimit)
  let changes := keys.filterMap (rollupChange m.emitted proposed)
  check (reject (m.cfg.maxOutputsPerCall < changes.length) .outputLimit)
  let replayCutoff ← check (okOr (now.checkedSubSigned m.cfg.replayTtl) .overflow)
  modify fun m => { m with watermark := some next }
  modify fun m => { m with emitted := proposed }
  modify fun m => { m with seconds := m.seconds.filter fun k _ => cutoff.timestamp ≤ k.base.epoch + 1 }
  modify fun m => { m with replay := m.replay.filter fun _ entry => replayCutoff ≤ entry.arrival }
  modify fun m => { m with devices := (activeDevices m.seconds m.replay).toFinset }
  modify fun m => { m with lastArrival := some now }
  return changes

end FlowMemory

/-- The code does what the pure model says, and counts the devices besides. -/
theorem observe_follows (o m) : Follows (FlowMemory.observe o) m (m.toFlowEngine.observe o)
      fun engine _ m' => m'.toFlowEngine = engine := by
  unfold FlowMemory.observe FlowEngine.observe
  refine .get_bind ?_
  iterate 18 refine .check_bind fun _ => ?_
  exact ⟨_, _, rfl, rfl⟩

theorem advanceWatermarkAt_follows (next now m) :
    Follows (FlowMemory.advanceWatermarkAt next now) m (m.toFlowEngine.advanceWatermarkAt next now)
      fun r changes m' => r = (changes, m'.toFlowEngine) := by
  unfold FlowMemory.advanceWatermarkAt FlowEngine.advanceWatermarkAt
  refine .get_bind ?_
  iterate 12 refine .check_bind fun _ => ?_
  exact ⟨_, _, rfl, rfl⟩

/-- **A call that fails changes nothing**, so that a later call finds the engine that it would have
found without it. -/
theorem failed_call_unchanged (m : FlowMemory) {e : FlowError} :
    (∀ o, (exec (FlowMemory.observe o) m).1 = .error e → (exec (FlowMemory.observe o) m).2 = m) ∧
    ∀ next now, (exec (FlowMemory.advanceWatermarkAt next now) m).1 = .error e →
      (exec (FlowMemory.advanceWatermarkAt next now) m).2 = m :=
  ⟨fun o => (observe_follows o m).unchanged,
    fun next now => (advanceWatermarkAt_follows next now m).unchanged⟩

/-- An upload of the sample device. -/
def uploads : InPlace FlowMemory FlowError Unit :=
  FlowMemory.observe (sampleUpload 1 (halfSecond 20) 1 100)

theorem repeatedUpload_unchanged : ∃ m, m.seconds.size = 1 ∧ (exec uploads m).1 = .error .replay ∧
    (exec uploads m).2 = m := by
  obtain ⟨engine, -, hsize, herror⟩ : ∃ engine, FlowEngine.new .default [⟨1, .gateway⟩] = .ok engine ∧
      (exec uploads ⟨engine, ∅⟩).2.seconds.size = 1 ∧
      (exec uploads (exec uploads ⟨engine, ∅⟩).2).1 = .error .replay := by decide +kernel
  exact ⟨_, hsize, herror, (failed_call_unchanged _).1 _ herror⟩

end NeonHearth.Flow
