import NeonHearth.Presence.Restore

/-!
# The engine and its journal

Laws about the flags and the history of a device speak of all evidence that was ever submitted and of
all transitions that were ever emitted, of which the engine keeps only a part.  `journalMachine` runs
the engine with a journal of both.  Evidence that the engine ignores, because it has it already or
because a newer control message stands, was submitted like any other.  A service may restart at any
time: it writes a checkpoint and reads it back, under the same configuration or another one.

* `ok_of_reachable` : every device is what its own journal makes of it.
-/

namespace NeonHearth.Presence

open SortedMap NeonHearth.Except List Option PresenceEngine

/-! ### Runs -/

/-- `PresenceEngine::new_with_transition_sequence`. -/
def PresenceEngine.newWithTransitionSequence (cfg : PresenceConfig) (nextTransition : ℕ) :
    Except PresenceError PresenceEngine :=
  if h : cfg.Valid then do
    reject (nextTransition = 0) .invalidConfig
    return ⟨cfg, h, ∅, nextTransition⟩
  else .error .invalidConfig

variable {cfg : PresenceConfig} {events : List PresenceTransition} {engine : PresenceEngine}

theorem newWithTransitionSequence_eq_ok {next : ℕ}
    (h : newWithTransitionSequence cfg next = .ok engine) :
    engine.devices = ∅ ∧ engine.nextTransition = next ∧ 0 < next := by
  unfold newWithTransitionSequence at h
  split at h
  · simp only [bind_eq_ok, reject_eq_ok, pure_eq_ok] at h
    obtain ⟨_, hpos, rfl⟩ := h
    exact ⟨rfl, rfl, Nat.pos_of_ne_zero hpos⟩
  · cases h

/-- The evidence that a call submits. -/
def PresenceEvent.evidence : PresenceEvent → Option PresenceEvidence
  | .ingestEvents e _ => some e
  | .recordVerifiedEnforcement deviceId blocked source observedAt _ => some ⟨deviceId, source,
      if blocked then .enforcementBlocked else .enforcementUnblocked, observedAt, none⟩
  | .evaluate _ _ => none

/-- A call with the transitions that it makes. -/
def PresenceEngine.perform (engine : PresenceEngine) :
    PresenceEvent → Except PresenceError (List PresenceTransition × PresenceEngine)
  | .ingestEvents e arrival => engine.ingestEvents e arrival
  | .recordVerifiedEnforcement deviceId blocked source observedAt arrival =>
    engine.recordVerifiedEnforcement deviceId blocked source observedAt arrival
  | .evaluate id at' => (engine.evaluate id at').map fun (event, engine) => (event.toList, engine)

structure Journal where
  engine : PresenceEngine
  /-- The evidence of all successful calls, the latest first. -/
  submitted : List PresenceEvidence
  /-- All transitions, in the order they were emitted. -/
  emitted : List PresenceTransition

inductive JournalEvent where
  | call (event : PresenceEvent)
  /-- The engine is read back from its own checkpoint. -/
  | restart (cfg : PresenceConfig)

def Journal.step (s : Journal) : JournalEvent → Option Journal
  | .call event => (s.engine.perform event).toOption.map fun (events, engine) =>
    ⟨engine, event.evidence.toList ++ s.submitted, s.emitted ++ events⟩
  | .restart cfg => (fromCheckpoint cfg s.engine.checkpoint).toOption.map fun engine =>
    { s with engine := engine }

/-- All runs of successful calls and restarts from an empty engine. -/
def journalMachine : Machine Journal JournalEvent where
  init s := (∃ cfg next, newWithTransitionSequence cfg next = .ok s.engine) ∧
    s.submitted = [] ∧ s.emitted = []
  step := Journal.step

/-! ### Recording transitions -/

/-- Transitions with consecutive ids are made and put into the history of a device: corrections of
departures that the history still has, and moves to another state. -/
inductive Recorded (limit : ℕ) (id : DeviceId) :
    ℕ → DevicePresence → List PresenceTransition → DevicePresence → Prop
  | done {next : ℕ} {d} : Recorded limit id next d [] d
  | corrected {next : ℕ} {d d' t departure events} (hid : t.transitionId = next)
    (hdevice : t.deviceId = id)
      (hfrom : t.fromState = .offline) (hmem : departure ∈ d.history)
      (hoffline : departure.toState = .offline)
      (hcorrection : t.correctionOf = some departure.transitionId)
      (h : Recorded limit id (next + 1) (pushHistory d t limit) events d') :
      Recorded limit id next d (t :: events) d'
  | moved {next : ℕ} {d d' t events} (hid : t.transitionId = next) (hdevice : t.deviceId = id)
      (hfrom : t.fromState = d.state) (hcorrection : t.correctionOf = none)
      (h : Recorded limit id (next + 1) (pushHistory { d with state := t.toState } t limit)
        events d') : Recorded limit id next d (t :: events) d'

namespace Recorded

variable {limit next : ℕ} {id : DeviceId} {d d' : DevicePresence}

section

variable (h : Recorded limit id next d events d')
include h

theorem frame : d'.evidence = d.evidence ∧ ∀ family, d'.control family = d.control family := by
  induction h with
  | done => exact ⟨rfl, fun _ => rfl⟩
  | corrected _ _ _ _ _ _ _ ih | moved _ _ _ _ _ ih =>
    exact ⟨ih.1, fun family => (ih.2 family).trans (control_eq rfl rfl rfl rfl rfl rfl family)⟩

theorem device : ∀ t ∈ events, t.deviceId = id := by
  induction h with
  | done => simp
  | corrected _ hdevice _ _ _ _ _ ih | moved _ hdevice _ _ _ ih =>
    exact forall_mem_cons.2 ⟨hdevice, ih⟩

theorem ids : events.map (·.transitionId) = List.range' next events.length := by
  induction h with
  | done => rfl
  | corrected hid _ _ _ _ _ _ ih | moved hid _ _ _ _ ih => rw [map_cons, ih, hid]; rfl

end

end Recorded

/-! ### What a step can do -/

/-- The engine after a call on a device. -/
def PresenceEngine.record (engine : PresenceEngine) (id : DeviceId) (d : DevicePresence)
    (events : List PresenceTransition) : PresenceEngine :=
  { engine with
    nextTransition := engine.nextTransition + events.length
    devices := engine.devices.insert id d }

theorem PresenceEngine.setDevice_record (engine : PresenceEngine) (id d d' events) :
    (engine.setDevice id d).record id d' events = engine.record id d' events := by
  simp [record, setDevice, insert_insert]

theorem PresenceEngine.record_of_get {id d}
    (h : engine.devices.get id = some d) : engine.record id d [] = engine := by
  rw [record, insert_of_get h]
  rfl

section Calls

variable {engine' : PresenceEngine} {d : DevicePresence} {e : PresenceEvidence}
  {arrival : DateTime}

theorem recompute_recorded {id at' trigger event} (hd : engine.devices.get id = some d)
    (h : engine.recompute id at' trigger = .ok (event, engine')) :
    ∃ d', Recorded engine.cfg.maxHistoryPerDevice id engine.nextTransition d event.toList d' ∧
      d'.state = gated engine.cfg d at' ∧ engine' = engine.record id d' event.toList := by
  obtain ⟨d₁, hd₁, hcases⟩ := recompute_spec h
  obtain rfl := some.inj (hd.symm.trans hd₁)
  obtain ⟨hsame, rfl, rfl⟩ | ⟨hne, rfl, rfl⟩ := hcases
  · exact ⟨d, .done, hsame.symm, (record_of_get hd).symm⟩
  · exact ⟨_, .moved rfl rfl rfl rfl .done, rfl, rfl⟩

/-- A correction is about a departure in the history. -/
theorem correction_departure {departure : ℕ} {target}
    (h : correction cfg d e arrival = some (departure, target)) :
    ∃ u ∈ d.history, u.toState = .offline ∧ u.transitionId = departure := by
  obtain ⟨found, hfound, h⟩ := bind_eq_some_iff.1 h
  obtain ⟨_, -, heq⟩ := map_eq_some_iff.1 h
  cases heq
  refine ⟨found, mem_reverse.1 (mem_of_find?_eq_some hfound), ?_, rfl⟩
  have hp := List.find?_some hfound
  simp only [decide_eq_true_eq] at hp
  exact hp.1

/-- The state is what the flags and the evidence call for, unless the evidence was positive and late. -/
theorem ingestInto_recorded (h : engine.ingestInto d e arrival = .ok (events, engine')) :
    ∃ d', Recorded engine.cfg.maxHistoryPerDevice e.deviceId engine.nextTransition
        (absorb engine.cfg d e arrival) events d' ∧
      engine' = engine.record e.deviceId d' events ∧
      (isPositive e.kind = true ∧ d'.state = d.state ∨
        d'.state = gated engine.cfg (absorb engine.cfg d e arrival) arrival) := by
  obtain ⟨corrections, engine₁, hstart, hcases⟩ := ingestInto_cases h
  have habsorbed := absorb_spec engine.cfg d e arrival
  cases hstart with
  | plain =>
    obtain ⟨hlate, -, -, rfl, rfl⟩ | ⟨current, hrec, rfl⟩ := hcases
    · exact ⟨_, .done, rfl, .inl ⟨positive_of_late hlate, habsorbed.state⟩⟩
    · obtain ⟨d', hrecorded, hstate, rfl⟩ :=
        recompute_recorded (get_insert_self ..) hrec
      exact ⟨d', hrecorded, setDevice_record .., .inr hstate⟩
  | @corrected departure target t hc ht =>
    obtain ⟨-, -, hnil, -⟩ | ⟨current, hrec, rfl⟩ := hcases
    · cases hnil
    obtain ⟨d', hrecorded, hstate, rfl⟩ :=
      recompute_recorded (get_insert_self ..) hrec
    obtain ⟨u, hu, hoffline, hid⟩ := correction_departure hc
    refine ⟨d', .corrected ?_ ?_ ?_ ?_ hoffline ?_ hrecorded, ?_, .inr hstate⟩
    · rw [ht]; rfl
    · rw [ht]; rfl
    · rw [ht]; rfl
    · rw [habsorbed.history]; exact hu
    · rw [ht, hid]; rfl
    · simp [record, insert_insert, length_cons, Nat.add_assoc, Nat.add_comm 1]

/-- The loop over the devices keeps them as they are. -/
theorem foldlM_restoreDevice_eq {out}
    (h : engine.checkpoint.devices.foldlM (restoreDevice cfg engine.nextTransition) ⟨∅, 0, []⟩ =
      .ok out) :
    out.devices = engine.devices ∧ ∀ id d, engine.devices.get id = some d →
      d.history.length ≤ cfg.maxHistoryPerDevice := by
  have hloop := foldlM_invariant (I := fun done (out : Restored) =>
      (∀ id d, out.devices.get id = some d ↔ (⟨d, id⟩ : PresenceCheckpointDevice) ∈ done) ∧
        ∀ x ∈ done, x.history.length ≤ cfg.maxHistoryPerDevice) h ⟨by simp, by simp⟩ ?_
  · obtain ⟨hget, hcap⟩ := hloop
    refine ⟨SortedMap.ext fun id => Option.ext fun d => (hget id d).trans mem_checkpoint, ?_⟩
    exact fun id d hd => hcap _ (mem_checkpoint.2 hd)
  rintro done ⟨dx, idx⟩ rest out out' - ⟨hget, hcap⟩ hstep
  simp only [restoreDevice, bind_eq_ok, pure_eq_ok, reject_eq_ok] at hstep
  obtain ⟨_, hroom, _, -, _, -, _, -, _, -, _, -, rfl⟩ := hstep
  push Not at hroom
  obtain ⟨hnew, -, hlength⟩ := hroom
  refine ⟨fun id d => ?_, forall_mem_concat.2 ⟨hcap, hlength⟩⟩
  · rw [get_insert, mem_append, mem_singleton, ← hget]
    split
    · next heq =>
      subst heq
      simp [hnew, eq_comm]
    · next hne => simp [hne]

/-- **A restart**: what is read back differs in the configuration at most. -/
theorem fromCheckpoint_own (h : fromCheckpoint cfg engine.checkpoint = .ok engine') :
    engine'.devices = engine.devices ∧ engine'.nextTransition = engine.nextTransition ∧
      ∀ id d, engine.devices.get id = some d →
        d.history.length ≤ engine'.cfg.maxHistoryPerDevice := by
  unfold fromCheckpoint at h
  split at h
  · simp only [bind_eq_ok, pure_eq_ok, reject_eq_ok] at h
    obtain ⟨_, -, out, hout, _, -, rfl⟩ := h
    obtain ⟨hdevices, hcap⟩ := foldlM_restoreDevice_eq hout
    exact ⟨hdevices, rfl, hcap⟩
  · cases h

end Calls

/-- Everything a step can do. -/
inductive JournalStep (s : Journal) : Journal → Prop
  /-- The device has the evidence already, or a newer control message. -/
  | ignored {e d} (hd : s.engine.devices.get e.deviceId = some d)
      (hskip : e ∈ d.evidence ∨ staleControl d e = true) :
      JournalStep s { s with submitted := e :: s.submitted }
  | ingested {e arrival d d' events} (hd : s.engine.devices.get e.deviceId = some d ∨
        s.engine.devices.get e.deviceId = none ∧ d = .initial arrival)
      (hfresh : staleControl d e = false)
      (hrecorded : Recorded s.engine.cfg.maxHistoryPerDevice e.deviceId s.engine.nextTransition
        (absorb s.engine.cfg d e arrival) events d')
      (hstate : isPositive e.kind = true ∧ d'.state = d.state ∨
        d'.state = gated s.engine.cfg (absorb s.engine.cfg d e arrival) arrival) :
      JournalStep s ⟨s.engine.record e.deviceId d' events, e :: s.submitted, s.emitted ++ events⟩
  | evaluated {id at' d d' events} (hd : s.engine.devices.get id = some d)
      (hrecorded : Recorded s.engine.cfg.maxHistoryPerDevice id s.engine.nextTransition
        { d with lastEvaluation := at' } events d')
      (hstate : d'.state = gated s.engine.cfg { d with lastEvaluation := at' } at') :
      JournalStep s ⟨s.engine.record id d' events, s.submitted, s.emitted ++ events⟩
  | restarted {engine : PresenceEngine} (hdevices : engine.devices = s.engine.devices)
      (hnext : engine.nextTransition = s.engine.nextTransition)
      (hcap : ∀ id d, s.engine.devices.get id = some d →
        d.history.length ≤ engine.cfg.maxHistoryPerDevice) :
      JournalStep s { s with engine := engine }

section Steps

variable {s s' : Journal}

theorem journalStep_of_ingest {e arrival} {authorized : Bool} {engine'}
    (h : s.engine.ingestAuthorized e arrival authorized = .ok (events, engine')) :
    JournalStep s ⟨engine', e :: s.submitted, s.emitted ++ events⟩ := by
  obtain ⟨-, ⟨d, hd, hskip, rfl, rfl⟩ | ⟨d, hstart, hnot, -, hi⟩⟩ := ingestAuthorized_spec h
  · rw [append_nil]
    exact .ignored hd hskip
  · obtain ⟨d', hrecorded, rfl, hstate⟩ := ingestInto_recorded hi
    refine .ingested ?_ (Bool.eq_false_iff.2 fun hstale => hnot (.inr hstale)) hrecorded hstate
    cases hstart with
    | known hd => exact .inl hd
    | added hnone => exact .inr ⟨hnone, rfl⟩

/-- **Everything a step can do.** -/
theorem journalStep_of_step {event} (h : s.step event = some s') : JournalStep s s' := by
  cases event with
  | call event =>
    obtain ⟨⟨events, engine'⟩, hperform, rfl⟩ := map_eq_some_iff.1 h
    rw [toOption_eq_some] at hperform
    cases event with
    | evaluate id at' =>
      obtain ⟨⟨event, engine₁⟩, he, heq⟩ := map_eq_ok.1 hperform
      cases heq
      simp only [evaluate, bind_eq_ok, okOr_eq_ok, reject_eq_ok] at he
      obtain ⟨d, hd, _, -, _, -, hrec⟩ := he
      obtain ⟨d', hrecorded, hstate, rfl⟩ := recompute_recorded (get_insert_self ..) hrec
      rw [setDevice_record]
      exact .evaluated hd hrecorded hstate
    | _ => exact journalStep_of_ingest hperform
  | restart cfg =>
    obtain ⟨engine, hengine, rfl⟩ := map_eq_some_iff.1 h
    rw [toOption_eq_some] at hengine
    obtain ⟨hdevices, hnext, hcap⟩ := fromCheckpoint_own hengine
    exact .restarted hdevices hnext hcap

end Steps

/-! ### One device -/

/-- A device with the evidence that was submitted for it and the transitions it has made, after any
number of calls and under any configurations. -/
inductive DeviceRun (id : DeviceId) :
    DevicePresence → List PresenceEvidence → List PresenceTransition → Prop
  | initial (arrival : DateTime) : DeviceRun id (.initial arrival) [] []
  | ignored {d submitted emitted e} (h : DeviceRun id d submitted emitted)
      (hskip : e ∈ d.evidence ∨ staleControl d e = true) : DeviceRun id d (e :: submitted) emitted
  | ingested {d d' submitted emitted events e cfg arrival} {next : ℕ}
    (h : DeviceRun id d submitted emitted)
      (hcfg : cfg.Valid) (hnext : ∀ t ∈ emitted, t.transitionId < next)
      (hfresh : staleControl d e = false)
      (hrecorded : Recorded cfg.maxHistoryPerDevice id next (absorb cfg d e arrival) events d')
      (hstate : isPositive e.kind = true ∧ d'.state = d.state ∨
        d'.state = gated cfg (absorb cfg d e arrival) arrival) :
      DeviceRun id d' (e :: submitted) (emitted ++ events)
  | evaluated {d d' submitted emitted events cfg at'} {next : ℕ}
      (h : DeviceRun id d submitted emitted) (hcfg : cfg.Valid)
      (hnext : ∀ t ∈ emitted, t.transitionId < next)
      (hrecorded : Recorded cfg.maxHistoryPerDevice id next { d with lastEvaluation := at' } events d')
      (hstate : d'.state = gated cfg { d with lastEvaluation := at' } at') :
      DeviceRun id d' submitted (emitted ++ events)

namespace Journal

variable (s : Journal) (id : DeviceId)

/-- The evidence that was submitted for a device. -/
def submittedTo : List PresenceEvidence := s.submitted.filter (·.deviceId = id)

/-- The transitions of a device. -/
def emittedBy : List PresenceTransition := s.emitted.filter (·.deviceId = id)

/-- What the journal says about the engine. -/
structure Ok : Prop where
  known : ∀ {id d}, s.engine.devices.get id = some d →
    DeviceRun id d (s.submittedTo id) (s.emittedBy id)
  unknown : ∀ {id}, s.engine.devices.get id = none → s.submittedTo id = [] ∧ s.emittedBy id = []
  increasing : (s.emitted.map (·.transitionId)).Pairwise (· < ·)
  lt_next : ∀ t ∈ s.emitted, t.transitionId < s.engine.nextTransition

variable {s} {s' : Journal} {id}

/-- A call on one device leaves the journals of the others alone. -/
theorem Ok.call (h : s.Ok) {d' new}
    (hnew : ∀ e ∈ new, e.deviceId = id) (hdevice : ∀ t ∈ events, t.deviceId = id)
    (hids : events.map (·.transitionId) = List.range' s.engine.nextTransition events.length)
    (hrun : DeviceRun id d' (new ++ s.submittedTo id) (s.emittedBy id ++ events)) :
    Ok ⟨s.engine.record id d' events, new ++ s.submitted, s.emitted ++ events⟩ := by
  have hrange : ∀ t ∈ events, s.engine.nextTransition ≤ t.transitionId ∧
      t.transitionId < s.engine.nextTransition + events.length := by
    intro t ht
    have hmem := mem_map_of_mem (f := (·.transitionId)) ht
    rwa [hids, mem_range'_1] at hmem
  -- what is new in the journal is about this device only
  have hother : ∀ other, other ≠ id → new.filter (·.deviceId = other) = [] ∧
      events.filter (·.deviceId = other) = [] := by
    intro other hne
    constructor
    · refine filter_eq_nil_iff.2 fun e he heq => hne ?_
      rw [← of_decide_eq_true heq, hnew e he]
    · refine filter_eq_nil_iff.2 fun t ht heq => hne ?_
      rw [← of_decide_eq_true heq, hdevice t ht]
  have hown : new.filter (·.deviceId = id) = new ∧ events.filter (·.deviceId = id) = events :=
    ⟨filter_eq_self.2 fun e he => decide_eq_true (hnew e he),
      filter_eq_self.2 fun t ht => decide_eq_true (hdevice t ht)⟩
  constructor
  · intro other d hd
    rw [submittedTo, emittedBy, filter_append, filter_append]
    obtain ⟨rfl, rfl⟩ | ⟨heq, hd⟩ := get_insert_eq_some.1 hd
    · rw [hown.1, hown.2]
      exact hrun
    · rw [(hother other heq).1, (hother other heq).2, append_nil]
      exact h.known hd
  · intro other hnone
    have heq : other ≠ id := by
      rintro rfl
      exact absurd ((get_insert_self ..).symm.trans hnone) (by simp)
    rw [submittedTo, emittedBy, filter_append, filter_append, (hother other heq).1,
      (hother other heq).2, append_nil]
    exact h.unknown ((get_insert_of_ne _ _ heq).symm.trans hnone)
  · rw [map_append, pairwise_append, hids]
    refine ⟨h.increasing, pairwise_lt_range', fun i hi j hj => ?_⟩
    obtain ⟨t, ht, rfl⟩ := mem_map.1 hi
    exact (h.lt_next t ht).trans_le (mem_range'_1.1 hj).1
  · exact forall_mem_append.2 ⟨fun t ht => (h.lt_next t ht).trans_le (Nat.le_add_right _ _),
      fun t ht => (hrange t ht).2⟩

theorem Ok.step (h : s.Ok) (hs : JournalStep s s') : s'.Ok := by
  have hnext : ∀ {id}, ∀ t ∈ s.emittedBy id, t.transitionId < s.engine.nextTransition :=
    fun t ht => h.lt_next t (mem_of_mem_filter ht)
  cases hs with
  | @ignored e d hd hskip =>
    have hcall : Ok ⟨s.engine.record e.deviceId d [], [e] ++ s.submitted, s.emitted ++ []⟩ := by
      refine h.call (by simp) (by simp) rfl ?_
      rw [append_nil]
      exact (h.known hd).ignored hskip
    rwa [record_of_get hd, append_nil] at hcall
  | @ingested e arrival d d' events hd hfresh hrecorded hstate =>
    show Ok ⟨_, [e] ++ s.submitted, _⟩
    refine h.call (by simp) hrecorded.device hrecorded.ids ?_
    have hbefore : DeviceRun e.deviceId d (s.submittedTo e.deviceId) (s.emittedBy e.deviceId) := by
      obtain hd | ⟨hnone, rfl⟩ := hd
      · exact h.known hd
      · rw [(h.unknown hnone).1, (h.unknown hnone).2]
        exact .initial arrival
    exact hbefore.ingested s.engine.cfg_valid hnext hfresh hrecorded hstate
  | @evaluated id at' d d' events hd hrecorded hstate =>
    show Ok ⟨_, [] ++ s.submitted, _⟩
    refine h.call (by simp) hrecorded.device hrecorded.ids ?_
    exact (h.known hd).evaluated s.engine.cfg_valid hnext hrecorded hstate
  | restarted hdevices hnext' =>
    exact ⟨fun hd => h.known (hdevices ▸ hd), fun hd => h.unknown (hdevices ▸ hd), h.increasing,
      fun t ht => hnext' ▸ h.lt_next t ht⟩

end Journal

/-- **Every device of every run** is what its own journal makes of it. -/
theorem ok_of_reachable {s : Journal} (h : journalMachine.Reachable s) : s.Ok := by
  refine h.invariant (fun s hinit => ?_) fun s event s' hs _ hstep => hs.step (journalStep_of_step hstep)
  obtain ⟨⟨cfg, next, hnew⟩, hsubmitted, hemitted⟩ := hinit
  obtain ⟨hempty, -⟩ := newWithTransitionSequence_eq_ok hnew
  refine ⟨fun hd => ?_, fun _ => ?_, ?_, ?_⟩
  · rw [hempty, get_empty] at hd
    cases hd
  · simp [Journal.submittedTo, Journal.emittedBy, hsubmitted, hemitted]
  · simp [hemitted]
  · simp [hemitted]

/-! ### Sample runs -/

/-- A run from an empty engine. -/
def journalRun (cfg : PresenceConfig) (events : List JournalEvent) : Option Journal :=
  (new cfg).toOption.bind fun engine => journalMachine.exec ⟨engine, [], []⟩ events

theorem reachable_journalRun {events s}
    (h : journalRun cfg events = some s) : journalMachine.Reachable s := by
  obtain ⟨engine, hengine, hrun⟩ := bind_eq_some_iff.1 h
  have hnew : newWithTransitionSequence cfg 1 = .ok engine := toOption_eq_some.1 hengine
  exact Machine.reachable_of_exec ⟨⟨cfg, 1, hnew⟩, rfl, rfl⟩ hrun

end NeonHearth.Presence
