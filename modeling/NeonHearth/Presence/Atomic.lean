import NeonHearth.Data.InPlace
import NeonHearth.Presence.Journal

/-!
# Failed calls

The calls of the engine change it in place, step by step: they count a transition id, insert a device,
prune its evidence, push to its history.  The model of the other modules returns a new engine or an
error, and so takes for granted that a failed call leaves the engine as it was.  Here the calls are
written as the source runs them, statement by statement on one engine (`Call`), and shown to do what
that model says:

* `Call.ingestAuthorized_atomic`, `Call.evaluate_atomic` : each call is atomic;
* `run_error_unchanged` : in every run, failed calls included, a failed call changes nothing.

The capacity and the ids are checked before the first change, and the check asks for two free ids,
as many as an ingestion can use.
-/

namespace NeonHearth.Presence

open SortedMap NeonHearth.Except Option PresenceEngine

/-- A call that changes the engine in place. -/
abbrev Call (α : Type) : Type := InPlace PresenceEngine PresenceError α

open InPlace

namespace Call

/-- `make_transition`. -/
def makeTransition (id : DeviceId) (fromState toState : PresenceState) (e : PresenceEvidence)
    (at' : DateTime) (correction : Option ℕ) : Call PresenceTransition := do
  let engine ← get
  check (reject (2 ^ 64 ≤ engine.nextTransition + 1) .sequenceExhausted)
  set { engine with nextTransition := engine.nextTransition + 1 }
  return { transitionId := engine.nextTransition
           deviceId := id
           fromState := fromState
           toState := toState
           occurredAt := at'
           trigger := ⟨e.source, e.kind, e.observedAt, e.validUntil, at'⟩
           correctionOf := correction }

/-- The device of `get_mut`, replaced. -/
def modifyDevice (id : DeviceId) (f : DevicePresence → DevicePresence) : Call PUnit := do
  let engine ← get
  let d ← check (okOr (engine.devices.get id) .deviceNotFound)
  set (engine.setDevice id (f d))

/-- `recompute`. -/
def recompute (id : DeviceId) (at' : DateTime) (trigger : Option PresenceEvidence) :
    Call (Option PresenceTransition) := do
  let engine ← get
  let d ← check (okOr (engine.devices.get id) .deviceNotFound)
  let next := gated engine.cfg d at'
  if next = d.state then return none
  else
    let t ← makeTransition id d.state next (trigger.getD (timerEvidence id at')) at' none
    modifyDevice id fun d => { d with state := next }
    modifyDevice id fun d => pushHistory d t engine.cfg.maxHistoryPerDevice
    return some t

/-- The block of `ingest_authorized` that takes the evidence in: what it corrects, and whether it was
late and supports nothing now. -/
def takeIn (e : PresenceEvidence) (arrival : DateTime) : Call (Option (ℕ × PresenceState) × Bool) := do
  let engine ← get
  let d := (engine.devices.get e.deviceId).getD (.initial arrival)
  set (engine.setDevice e.deviceId (absorb engine.cfg d e arrival))
  return (correction engine.cfg d e arrival, isLate d e && !currentValid engine.cfg d e arrival)

/-- The correction of a departure. -/
def correct (e : PresenceEvidence) (arrival : DateTime) :
    Option (ℕ × PresenceState) → Call (List PresenceTransition)
  | some (departure, target) => do
    let t ← makeTransition e.deviceId .offline target e arrival (some departure)
    let engine ← get
    modifyDevice e.deviceId fun d => pushHistory d t engine.cfg.maxHistoryPerDevice
    return [t]
  | none => return []

/-- `ingest_authorized` from the check of the ids on. -/
def ingestInto (e : PresenceEvidence) (arrival : DateTime) : Call (List PresenceTransition) := do
  let engine ← get
  check (reject (2 ^ 64 ≤ engine.nextTransition + 2) .sequenceExhausted)
  let (departure, ended) ← takeIn e arrival
  let events ← correct e arrival departure
  if ended && events.isEmpty then return events
  else
    let current ← recompute e.deviceId arrival (some e)
    return events ++ current.toList

/-- `ingest_authorized`. -/
def ingestAuthorized (e : PresenceEvidence) (arrival : DateTime) (enforcementAuthorized : Bool) :
    Call (List PresenceTransition) := do
  let engine ← get
  check (engine.validate e arrival enforcementAuthorized)
  match engine.devices.get e.deviceId with
  | none =>
    check (reject (engine.cfg.maxDevices ≤ engine.devices.size) (.capacity "devices"))
    ingestInto e arrival
  | some d =>
    check (reject (arrival < d.lastEvaluation) .clockRollback)
    if e ∈ d.evidence ∨ staleControl d e = true then return []
    else
      check (reject (semanticallyRetained e arrival engine.cfg = true ∧
        engine.cfg.maxEvidencePerDevice ≤
          (d.evidence.filter fun x => semanticallyRetained x arrival engine.cfg).length)
        (.capacity "evidence"))
      ingestInto e arrival

/-- `evaluate`. -/
def evaluate (id : DeviceId) (at' : DateTime) : Call (Option PresenceTransition) := do
  let engine ← get
  let d ← check (okOr (engine.devices.get id) .deviceNotFound)
  check (reject (at' < d.lastEvaluation) .clockRollback)
  check (reject (engine.nextTransition = 2 ^ 64 - 1) .sequenceExhausted)
  modifyDevice id fun d => { d with lastEvaluation := at' }
  recompute id at' none

end Call

/-- A call of the engine. -/
def PresenceEvent.run : PresenceEvent → Call (List PresenceTransition)
  | .ingestEvents e arrival => Call.ingestAuthorized e arrival false
  | .recordVerifiedEnforcement deviceId blocked source observedAt arrival =>
    Call.ingestAuthorized ⟨deviceId, source,
      if blocked then .enforcementBlocked else .enforcementUnblocked, observedAt, none⟩ arrival true
  | .evaluate id at' => return (← Call.evaluate id at').toList

/-! ### Calls are atomic -/

namespace Call

variable {engine : PresenceEngine} {id : DeviceId} {at' arrival : DateTime} {e : PresenceEvidence}
  {d : DevicePresence}

theorem exec_modifyDevice (hd : engine.devices.get id = some d) (f) :
    exec (modifyDevice id f) engine = (.ok ⟨⟩, engine.setDevice id (f d)) := by
  simp [modifyDevice, exec_bind, hd, okOr]

theorem makeTransition_atomic (engine id fromState toState e at' correction) :
    Atomic (makeTransition id fromState toState e at' correction) engine
      (engine.makeTransition id fromState toState e at' correction) :=
  .get_bind (.check_bind fun _ _ => rfl)

/-- A transition takes an id and changes nothing else. -/
theorem makeTransition_frame {engine' fromState toState correction t}
    (h : engine.makeTransition id fromState toState e at' correction = .ok (t, engine')) :
    engine'.cfg = engine.cfg ∧ engine'.devices = engine.devices ∧
      engine'.nextTransition = engine.nextTransition + 1 := by
  simp only [PresenceEngine.makeTransition, bind_eq_ok, pure_eq_ok] at h
  obtain ⟨_, -, heq⟩ := h
  cases heq
  exact ⟨rfl, rfl, rfl⟩

theorem makeTransition_ok (id fromState toState e at' correction)
    (hroom : engine.nextTransition + 1 < 2 ^ 64) :
    ∃ t engine', engine.makeTransition id fromState toState e at' correction = .ok (t, engine') := by
  rw [PresenceEngine.makeTransition, reject, if_neg (not_le.2 hroom)]
  exact ⟨_, _, rfl⟩

theorem recompute_atomic (engine id at' trigger) :
    Atomic (recompute id at' trigger) engine (engine.recompute id at' trigger) := by
  refine .get_bind (.check_bind fun d hd => ?_)
  rw [okOr_eq_ok] at hd
  dsimp only
  split
  · rfl
  refine (makeTransition_atomic ..).bind fun t engine' ht => ?_
  -- the device is still there
  have hd' : engine'.devices.get id = some d := (makeTransition_frame ht).2.1 ▸ hd
  rw [exec_bind_ok (exec_modifyDevice hd' _),
    exec_bind_ok (exec_modifyDevice (get_insert_self ..) _)]
  simp only [exec_pure, setDevice, insert_insert]
  rfl

/-- A recomputation of a device succeeds while an id is left. -/
theorem recompute_ok (hd : engine.devices.get id = some d) (trigger)
    (hroom : engine.nextTransition + 1 < 2 ^ 64) :
    ∃ event engine', engine.recompute id at' trigger = .ok (event, engine') := by
  simp only [PresenceEngine.recompute, bind_eq_ok, okOr_eq_ok]
  by_cases hsame : gated engine.cfg d at' = d.state
  · exact ⟨none, engine, d, hd, by rw [if_pos hsame]; rfl⟩
  obtain ⟨t, engine', ht⟩ := makeTransition_ok id d.state (gated engine.cfg d at')
    (trigger.getD (timerEvidence id at')) at' none hroom
  refine ⟨some t, engine'.setDevice id (pushHistory { d with state := gated engine.cfg d at' } t
    engine.cfg.maxHistoryPerDevice), d, hd, ?_⟩
  rw [if_neg hsame, ht]
  rfl

/-- What is done once an id is left is done as a whole. -/
theorem exec_recompute (hd : engine.devices.get id = some d) (at' trigger)
    (hroom : engine.nextTransition + 1 < 2 ^ 64) :
    ∃ event engine', engine.recompute id at' trigger = .ok (event, engine') ∧
      exec (recompute id at' trigger) engine = (.ok event, engine') := by
  obtain ⟨event, engine', h⟩ := recompute_ok hd trigger hroom
  have hatomic := recompute_atomic engine id at' trigger
  rw [Atomic, h] at hatomic
  exact ⟨event, engine', h, hatomic⟩

/-- The end of an ingestion, after which the engine before the call no longer matters. -/
theorem exec_finish (hd : engine.devices.get e.deviceId = some d)
    (hroom : engine.nextTransition + 1 < 2 ^ 64) (before) (ended : Bool) (events) :
    exec (if ended && events.isEmpty then (pure events : Call (List PresenceTransition)) else do
        let current ← recompute e.deviceId arrival (some e)
        return events ++ current.toList) engine =
    outcome before (if ended && events.isEmpty then pure (events, engine)
      else do
        let (current, engine) ← engine.recompute e.deviceId arrival (some e)
        return (events ++ current.toList, engine)) := by
  split
  · rfl
  · obtain ⟨event, engine', hpure, hexec⟩ := exec_recompute hd arrival (some e) hroom
    rw [exec_bind_ok hexec, hpure]
    rfl

theorem ingestInto_atomic (hd : (engine.devices.get e.deviceId).getD (.initial arrival) = d) :
    Atomic (ingestInto e arrival) engine (engine.ingestInto d e arrival) := by
  refine .get_bind (.check_bind fun _ hroom => ?_)
  have hroom : engine.nextTransition + 2 < 2 ^ 64 := not_le.1 (reject_eq_ok.1 hroom)
  set engine₁ := engine.setDevice e.deviceId (absorb engine.cfg d e arrival) with hengine₁
  have hd₁ : engine₁.devices.get e.deviceId = some (absorb engine.cfg d e arrival) :=
    get_insert_self ..
  have hroom₁ : engine₁.nextTransition + 1 < 2 ^ 64 := (Nat.lt_succ_self _).trans hroom
  -- the first change; from here on nothing fails
  have htake : exec (takeIn e arrival) engine = (.ok (correction engine.cfg d e arrival,
      isLate d e && !currentValid engine.cfg d e arrival), engine₁) := by
    rw [takeIn, exec_bind_ok (exec_get _), hd]
    rfl
  rw [Atomic, exec_bind_ok htake]
  dsimp only
  cases hc : correction engine.cfg d e arrival with
  | none =>
    rw [show correction engine₁.cfg d e arrival = none from hc]
    exact exec_finish hd₁ hroom₁ engine (isLate d e && !currentValid engine.cfg d e arrival) []
  | some found =>
    obtain ⟨departure, target⟩ := found
    rw [show correction engine₁.cfg d e arrival = some (departure, target) from hc]
    obtain ⟨t, engine₂, ht⟩ := makeTransition_ok e.deviceId .offline target e arrival (some departure)
      hroom₁
    obtain ⟨hcfg, hdevices, hnext⟩ := makeTransition_frame ht
    have hmake := makeTransition_atomic engine₁ e.deviceId .offline target e arrival (some departure)
    rw [Atomic, ht] at hmake
    set engine₃ := engine₂.setDevice e.deviceId (pushHistory (absorb engine.cfg d e arrival) t
      engine₂.cfg.maxHistoryPerDevice) with hengine₃
    have hcorrect : exec (correct e arrival (some (departure, target))) engine₁ =
        (.ok [t], engine₃) := by
      rw [correct, exec_bind_ok hmake, exec_bind_ok (exec_get _),
        exec_bind_ok (exec_modifyDevice (hdevices ▸ hd₁) _), exec_pure]
    have hd₃ : engine₃.devices.get e.deviceId = some (pushHistory (absorb engine.cfg d e arrival) t
        engine₂.cfg.maxHistoryPerDevice) := get_insert_self ..
    have hroom₃ : engine₃.nextTransition + 1 < 2 ^ 64 := hnext.symm ▸ hroom
    have hvalid : currentValid engine.cfg d e arrival = currentValid engine₃.cfg d e arrival :=
      congrArg (currentValid · d e arrival) hcfg.symm
    dsimp only
    rw [exec_bind_ok hcorrect, ht, hvalid]
    exact exec_finish hd₃ hroom₃ engine _ [t]

/-- **An ingestion is atomic.** -/
theorem ingestAuthorized_atomic (engine e arrival) (enforcementAuthorized : Bool) :
    Atomic (ingestAuthorized e arrival enforcementAuthorized) engine
      (engine.ingestAuthorized e arrival enforcementAuthorized) := by
  rw [ingestAuthorized]
  refine .get_bind (.check_bind fun _ _ => ?_)
  cases hd : engine.devices.get e.deviceId with
  | none =>
    have hnew : (engine.devices.get e.deviceId).getD (.initial arrival) = .initial arrival := by
      rw [hd, getD_none]
    exact .check_bind fun _ _ => ingestInto_atomic hnew
  | some d =>
    have hold : (engine.devices.get e.deviceId).getD (.initial arrival) = d := by
      rw [hd, getD_some]
    refine .check_bind fun _ _ => ?_
    split
    · rfl
    · exact .check_bind fun _ _ => ingestInto_atomic hold

/-- **A timer is atomic.** -/
theorem evaluate_atomic (hbound : engine.nextTransition < 2 ^ 64) :
    Atomic (evaluate id at') engine (engine.evaluate id at') := by
  refine .get_bind (.check_bind fun d hd => ?_)
  rw [okOr_eq_ok] at hd
  refine .check_bind fun _ _ => .check_bind fun _ hlast => ?_
  have hroom : engine.nextTransition + 1 < 2 ^ 64 := by
    have hne := reject_eq_ok.1 hlast
    omega
  set engine₁ := engine.setDevice id { d with lastEvaluation := at' } with hengine₁
  have hd₁ : engine₁.devices.get id = some { d with lastEvaluation := at' } :=
    get_insert_self ..
  obtain ⟨event, engine', hpure, hexec⟩ := exec_recompute hd₁ at' none hroom
  rw [Atomic, exec_bind_ok (exec_modifyDevice hd _), ← hengine₁, hexec, hpure]
  rfl

end Call

/-! ### Runs -/

section Runs

variable {engine engine' : PresenceEngine} {event : PresenceEvent}

/-- **Every call is atomic** and does what the model without a state says. -/
theorem run_atomic (hbound : engine.nextTransition < 2 ^ 64) (event) :
    Atomic event.run engine (engine.perform event) := by
  cases event with
  | ingestEvents e arrival => exact Call.ingestAuthorized_atomic engine e arrival false
  | recordVerifiedEnforcement deviceId blocked source observedAt arrival =>
    exact Call.ingestAuthorized_atomic engine _ arrival true
  | evaluate id at' =>
    have hbind : engine.perform (.evaluate id at') =
        engine.evaluate id at' >>= fun x => pure (x.1.toList, x.2) := by
      rw [perform]
      cases engine.evaluate id at' <;> rfl
    rw [hbind]
    exact (Call.evaluate_atomic hbound).bind fun _ _ _ => rfl

variable {events : List PresenceTransition}

theorem ingestInto_room {d e arrival} (h : engine.ingestInto d e arrival = .ok (events, engine')) :
    engine'.nextTransition < 2 ^ 64 := by
  have hroom : engine.nextTransition + 2 < 2 ^ 64 := by
    simp only [ingestInto, bind_eq_ok, reject_eq_ok] at h
    obtain ⟨_, hroom, -⟩ := h
    exact not_le.1 hroom
  have hlength : events.length ≤ 2 := by
    obtain ⟨corrections, engine₁, hstart, hcases⟩ := ingestInto_cases h
    have hone : corrections.length ≤ 1 := by cases hstart <;> simp
    obtain ⟨-, -, -, rfl, -⟩ | ⟨current, -, rfl⟩ := hcases
    · exact Nat.zero_le 2
    · rw [List.length_append]
      exact Nat.add_le_add hone (length_toList_le ..)
  obtain ⟨d', -, rfl, -⟩ := ingestInto_recorded h
  change engine.nextTransition + events.length < 2 ^ 64
  omega

theorem nextTransition_lt_of_perform (hbound : engine.nextTransition < 2 ^ 64)
    (h : engine.perform event = .ok (events, engine')) : engine'.nextTransition < 2 ^ 64 := by
  have hingest : ∀ {e arrival authorized},
      engine.ingestAuthorized e arrival authorized = .ok (events, engine') →
        engine'.nextTransition < 2 ^ 64 := by
    intro e arrival authorized hi
    obtain ⟨-, ⟨-, -, -, -, rfl⟩ | ⟨d, -, -, -, hi⟩⟩ := ingestAuthorized_spec hi
    · exact hbound
    · exact ingestInto_room hi
  cases event with
  | evaluate id at' =>
    obtain ⟨⟨event, engine₁⟩, he, heq⟩ := map_eq_ok.1 h
    cases heq
    simp only [evaluate, bind_eq_ok, okOr_eq_ok, reject_eq_ok] at he
    obtain ⟨d, -, _, -, _, hlast, hrec⟩ := he
    obtain ⟨d', -, -, rfl⟩ := recompute_recorded (get_insert_self ..) hrec
    have hone : event.toList.length ≤ 1 := length_toList_le ..
    change engine.nextTransition + event.toList.length < 2 ^ 64
    omega
  | _ => exact hingest h

/-- All runs of calls, successful or failed, from a new engine or one that was read back. -/
def callMachine : Machine PresenceEngine PresenceEvent where
  init engine :=
    (∃ cfg next, next < 2 ^ 64 ∧ newWithTransitionSequence cfg next = .ok engine) ∨
    ∃ cfg c, c.nextTransition < 2 ^ 64 ∧ fromCheckpoint cfg c = .ok engine
  step engine event := some (exec event.run engine).2

theorem nextTransition_lt_of_reachable (h : callMachine.Reachable engine) :
    engine.nextTransition < 2 ^ 64 := by
  refine h.invariant (I := fun engine => engine.nextTransition < 2 ^ 64) ?_ ?_
  · rintro engine (⟨cfg, next, hnext, hnew⟩ | ⟨cfg, c, hnext, hread⟩)
    · rw [(newWithTransitionSequence_eq_ok hnew).2.1]
      exact hnext
    unfold fromCheckpoint at hread
    split at hread
    · simp only [bind_eq_ok, pure_eq_ok] at hread
      obtain ⟨_, -, _, -, _, -, rfl⟩ := hread
      exact hnext
    · cases hread
  · intro engine event engine' hbound _ hstep
    have hatomic := run_atomic hbound event
    rw [Atomic] at hatomic
    rw [← some.inj hstep, hatomic]
    cases hp : engine.perform event with
    | error => exact hbound
    | ok x => exact nextTransition_lt_of_perform hbound hp

/-- **A failed call changes nothing.** -/
theorem run_error_unchanged (h : callMachine.Reachable engine) (event : PresenceEvent)
    {err : PresenceError} (herr : (exec event.run engine).1 = .error err) :
    (exec event.run engine).2 = engine :=
  (run_atomic (nextTransition_lt_of_reachable h) event).unchanged herr

/-- A device leaves; of the ids that were left, two have been used. -/
def lastIds : Option PresenceEngine :=
  (newWithTransitionSequence .default (2 ^ 64 - 4)).toOption.bind fun engine =>
    callMachine.exec engine [observed .lease 0 (some 40), observed .routerAssociation 2 (some 40),
      observed .confirmationFailure 42 none, observed .confirmationFailure 44 none]

/-- Traffic from before the departure, which would take two ids. -/
def lateTraffic : PresenceEvent :=
  .ingestEvents ⟨1, "sensor-a", .traffic, halfSecond 42, none⟩ (halfSecond 46)

theorem lastIds_unchanged : ∃ engine, lastIds = some engine ∧
    engine.nextTransition = 2 ^ 64 - 2 ∧
    (exec lateTraffic.run engine).1 = .error .sequenceExhausted ∧
    (exec lateTraffic.run engine).2 = engine := by
  obtain ⟨engine, hengine, hnext, herr⟩ : ∃ engine, lastIds = some engine ∧
      engine.nextTransition = 2 ^ 64 - 2 ∧
      (exec lateTraffic.run engine).1 = .error .sequenceExhausted := by decide +kernel
  obtain ⟨start, hstart, hexec⟩ := bind_eq_some_iff.1 hengine
  have hreach : callMachine.Reachable engine := Machine.reachable_of_exec
    (.inl ⟨_, _, by decide, toOption_eq_some.1 hstart⟩) hexec
  exact ⟨engine, hengine, hnext, herr, run_error_unchanged hreach lateTraffic herr⟩

end Runs

end NeonHearth.Presence
