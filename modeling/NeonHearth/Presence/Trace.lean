import NeonHearth.Data.History
import NeonHearth.Presence.Restore

/-!
# What a device has been through

Laws about presence speak of all evidence that was ever accepted, while the engine only keeps what it
still needs.  So runs are recorded: `loggedMachine` is the engine with a log of the evidence it took
in and of the transitions it made.  Evidence that it ignores, because it has it already or because a
newer control message stands, is not taken in and leaves no entry.

Devices do not touch each other, and the laws are about one device at a time.

* `Traced G cfg id d l` : the device `d` with its own log `l`, built up call by call, each of which
  meets the condition `G` on the device before the call;
* `traced_of_via` : every device of every run of the engine is one of these.
-/

namespace NeonHearth.Presence

open SortedMap NeonHearth.Except List Option PresenceEngine

/-! ### Logged runs -/

inductive PresenceEntry where
  | accepted (e : PresenceEvidence)
  | moved (t : PresenceTransition)

def PresenceEntry.device : PresenceEntry → DeviceId
  | .accepted e => e.deviceId
  | .moved t => t.deviceId

/-- The evidence that was taken in. -/
def accepted (l : List PresenceEntry) : List PresenceEvidence :=
  l.filterMap fun
    | .accepted e => some e
    | .moved _ => none

theorem distinctCount_le {l l'} (h : ∀ x ∈ l, x ∈ l') : distinctCount l ≤ distinctCount l' := by
  refine (subperm_of_subset (nodup_dedup _) fun k hk => ?_).length_le
  exact mem_dedup.2 (map_subset _ h (mem_dedup.1 hk))

/-- What is logged about a device. -/
def deviceLog (id : DeviceId) (l : List PresenceEntry) : List PresenceEntry :=
  l.filter (·.device = id)

/-- The engine and all it has done, the latest entry first. -/
structure LoggedEngine where
  engine : PresenceEngine
  log : List PresenceEntry

/-- The engine ignores the evidence. -/
def PresenceEngine.Ignores (engine : PresenceEngine) (e : PresenceEvidence) : Prop :=
  ∃ d, engine.devices.get e.deviceId = some d ∧ (e ∈ d.evidence ∨ staleControl d e = true)
  deriving Decidable

namespace LoggedEngine

/-- What an ingestion leaves. -/
def ingest (s : LoggedEngine) (e : PresenceEvidence) (arrival : DateTime) (authorized : Bool) :
    Option LoggedEngine :=
  (s.engine.ingestAuthorized e arrival authorized).toOption.map fun (events, engine) =>
    if s.engine.Ignores e then ⟨engine, s.log⟩
    else ⟨engine, (events.map .moved).reverse ++ .accepted e :: s.log⟩

def step (s : LoggedEngine) : PresenceEvent → Option LoggedEngine
  | .ingestEvents e arrival => s.ingest e arrival false
  | .recordVerifiedEnforcement deviceId blocked source observedAt arrival =>
    s.ingest ⟨deviceId, source, if blocked then .enforcementBlocked else .enforcementUnblocked,
      observedAt, none⟩ arrival true
  | .evaluate id at' =>
    (s.engine.evaluate id at').toOption.map fun (event, engine) =>
      ⟨engine, event.toList.map .moved ++ s.log⟩

end LoggedEngine

/-- All runs of successful calls from a new engine, recorded. -/
def loggedMachine : Machine LoggedEngine PresenceEvent where
  init s := (∃ cfg, new cfg = .ok s.engine) ∧ s.log = []
  step := LoggedEngine.step

/-! ### One device -/

/-- A call as the device sees it. -/
inductive DeviceCall where
  | ingest (e : PresenceEvidence) (arrival : DateTime)
  | evaluate (at' : DateTime)

/-- A condition on calls, given the configuration and the device before the call. -/
abbrev DeviceGuard : Type := PresenceConfig → DevicePresence → DeviceCall → Prop

/-- What a recomputation makes of the state, and the transition it emits. -/
inductive Settles (cfg : PresenceConfig) (id : DeviceId) (d : DevicePresence) (at' : DateTime) :
    PresenceState → List PresenceTransition → Prop
  | stay (h : gated cfg d at' = d.state) : Settles cfg id d at' d.state []
  | move {t} (h : gated cfg d at' ≠ d.state) (hdevice : t.deviceId = id)
      (hfrom : t.fromState = d.state) (hto : t.toState = gated cfg d at')
      (hoccurred : t.occurredAt = at') (hcorrection : t.correctionOf = none) :
      Settles cfg id d at' (gated cfg d at') [t]

/-- The device with another state and history. -/
def DevicePresence.revise (d : DevicePresence) (state : PresenceState)
    (history : List PresenceTransition) (evictedThrough : Option ℕ) : DevicePresence :=
  { d with state := state, history := history, evictedThrough := evictedThrough }

variable {cfg : PresenceConfig} {id : DeviceId} {events : List PresenceTransition} {at' : DateTime}

theorem Settles.revise {d state history evictedThrough}
    (h : Settles cfg id (d.revise d.state history evictedThrough) at' state events) :
    Settles cfg id d at' state events := by
  cases h with
  | stay h => exact .stay h
  | move h hdevice hfrom hto hoccurred hcorrection =>
    exact .move h hdevice hfrom hto hoccurred hcorrection

/-- The correction of a departure. -/
structure Corrects (id : DeviceId) (t : PresenceTransition) : Prop where
  device : t.deviceId = id
  correctionOf : t.correctionOf ≠ none
  toState : t.toState = .online ∨ t.toState = .quiet

/-- What an ingestion makes of a device, and the transitions it emits. -/
inductive Ingested (cfg : PresenceConfig) (id : DeviceId) (d : DevicePresence) (e : PresenceEvidence)
    (arrival : DateTime) : DevicePresence → List PresenceTransition → Prop
  /-- Late evidence that supports nothing now is not looked at again. -/
  | late (h : isLate d e = true) (hvalid : currentValid cfg d e arrival = false) :
      Ingested cfg id d e arrival (absorb cfg d e arrival) []
  | settled {corrections current state history evictedThrough}
      (hcorrections : ∀ t ∈ corrections, Corrects id t)
      (h : Settles cfg id (absorb cfg d e arrival) arrival state current) :
      Ingested cfg id d e arrival ((absorb cfg d e arrival).revise state history evictedThrough)
        (corrections ++ current)

/-- A device with its log, after any number of calls that meet the condition. -/
inductive Traced (G : DeviceGuard) (cfg : PresenceConfig) (id : DeviceId) :
    DevicePresence → List PresenceEntry → Prop
  | initial (arrival : DateTime) : Traced G cfg id (.initial arrival) []
  | ingest {d d' l e arrival} {authorized : Bool} {events}
      (h : Traced G cfg id d l) (hg : G cfg d (.ingest e arrival)) (hdevice : e.deviceId = id)
      (hmono : d.lastEvaluation ≤ arrival) (haccepted : Accepted cfg e arrival authorized)
      (htraffic : e.kind = .traffic → supportEnd cfg e ≠ none)
      (hi : Ingested cfg id d e arrival d' events) :
      Traced G cfg id d' ((events.map .moved).reverse ++ .accepted e :: l)
  | evaluate {d l at' state history events evictedThrough}
      (h : Traced G cfg id d l) (hg : G cfg d (.evaluate at')) (hmono : d.lastEvaluation ≤ at')
      (hs : Settles cfg id { d with lastEvaluation := at' } at' state events) :
      Traced G cfg id ({ d with lastEvaluation := at' }.revise state history evictedThrough)
        (events.map .moved ++ l)

namespace DeviceGuard

variable (G : DeviceGuard) (s : LoggedEngine)

/-- Evidence is ignored, or the device takes it in under the condition. -/
def Ingests (e : PresenceEvidence) (arrival : DateTime) : Prop :=
  s.engine.Ignores e ∨
    G s.engine.cfg ((s.engine.devices.get e.deviceId).getD (.initial arrival)) (.ingest e arrival)

/-- The condition as one on the calls of the engine. -/
def lift : PresenceEvent → Prop
  | .ingestEvents e arrival => G.Ingests s e arrival
  | .recordVerifiedEnforcement deviceId blocked source observedAt arrival =>
    G.Ingests s ⟨deviceId, source, if blocked then .enforcementBlocked else .enforcementUnblocked,
      observedAt, none⟩ arrival
  | .evaluate id at' => ∀ d, s.engine.devices.get id = some d → G s.engine.cfg d (.evaluate at')

variable [∀ cfg d call, Decidable (G cfg d call)]

instance (e : PresenceEvidence) (arrival : DateTime) : Decidable (G.Ingests s e arrival) :=
  inferInstanceAs (Decidable (_ ∨ _))

instance (event : PresenceEvent) : Decidable (G.lift s event) := by
  induction event using PresenceEvent.casesOn <;> unfold lift <;> infer_instance

end DeviceGuard

/-! ### Calls of the engine, device by device -/

section Calls

variable {engine engine' : PresenceEngine} {d : DevicePresence} {e : PresenceEvidence}
  {arrival : DateTime}

/-- A recomputation of a device that is as given. -/
theorem recompute_settles {trigger event} (hd : engine.devices.get id = some d)
    (h : engine.recompute id at' trigger = .ok (event, engine')) :
    ∃ state history evictedThrough, Settles engine.cfg id d at' state event.toList ∧
      engine'.cfg = engine.cfg ∧
      engine'.devices = engine.devices.insert id (d.revise state history evictedThrough) := by
  obtain ⟨d₁, hd₁, hcases⟩ := recompute_spec h
  obtain rfl := some.inj (hd.symm.trans hd₁)
  obtain ⟨hsame, rfl, rfl⟩ | ⟨hne, rfl, rfl⟩ := hcases
  · exact ⟨_, d.history, d.evictedThrough, .stay hsame, rfl, (insert_of_get hd).symm⟩
  · exact ⟨_, _, _, .move hne rfl rfl rfl rfl rfl, rfl, rfl⟩

/-- The part of an ingestion after the checks. -/
theorem ingestInto_ingested (h : engine.ingestInto d e arrival = .ok (events, engine')) :
    ∃ d', Ingested engine.cfg e.deviceId d e arrival d' events ∧ engine'.cfg = engine.cfg ∧
      engine'.devices = engine.devices.insert e.deviceId d' := by
  obtain ⟨corrections, engine₁, hstart, hcases⟩ := ingestInto_cases h
  set d₁ := absorb engine.cfg d e arrival with hd₁
  -- a correction is recorded in the history and leaves the rest of the device alone
  have hfirst : (∀ t ∈ corrections, Corrects e.deviceId t) ∧ engine₁.cfg = engine.cfg ∧
      ∃ history evictedThrough, engine₁.devices =
        engine.devices.insert e.deviceId (d₁.revise d₁.state history evictedThrough) ∧
      (corrections = [] → d₁.revise d₁.state history evictedThrough = d₁) := by
    cases hstart with
    | plain => exact ⟨by simp, rfl, d₁.history, d₁.evictedThrough, rfl, fun _ => rfl⟩
    | corrected hc ht =>
      refine ⟨fun t' ht' => ?_, rfl, _, _, rfl, by simp⟩
      rw [mem_singleton.1 ht', ht]
      exact ⟨rfl, by simp [correctingTransition], correction_present hc⟩
  obtain ⟨hcorrections, hcfg, history, evictedThrough, hdevices, hsame⟩ := hfirst
  obtain ⟨hlate, hvalid, rfl, rfl, rfl⟩ | ⟨current, hrec, rfl⟩ := hcases
  · rw [hsame rfl] at hdevices
    exact ⟨d₁, .late hlate hvalid, hcfg, hdevices⟩
  have hget : engine₁.devices.get e.deviceId =
      some (d₁.revise d₁.state history evictedThrough) := by
    rw [hdevices, get_insert_self]
  obtain ⟨state, history', evictedThrough', hsettles, hcfg', hdevices'⟩ :=
    recompute_settles hget hrec
  rw [hcfg] at hsettles
  refine ⟨d₁.revise state history' evictedThrough', .settled hcorrections hsettles.revise,
    hcfg'.trans hcfg, ?_⟩
  rw [hdevices', hdevices, insert_insert]
  rfl

variable {authorized : Bool}

/-- Traffic is only accepted if its support ends inside the calendar. -/
theorem supportEnd_of_ingest
    (h : engine.ingestAuthorized e arrival authorized = .ok (events, engine'))
    (hk : e.kind = .traffic) : supportEnd engine.cfg e ≠ none := by
  obtain ⟨_, hvalid, -⟩ := bind_eq_ok.1 h
  simp only [validate, bind_eq_ok, reject_eq_ok, okOr_eq_ok] at hvalid
  obtain ⟨_, -, _, -, _, -, _, -, _, -, _, -, _, htraffic, -⟩ := hvalid
  rw [supportEnd, hk]
  exact fun hnone => htraffic ⟨hk, hnone⟩

theorem Ingested.lastEvaluation {d'} (h : Ingested cfg id d e arrival d' events) :
    d'.lastEvaluation = arrival := by
  cases h with
  | late | settled => exact (absorb_spec cfg d e arrival).lastEvaluation

/-- An ingestion leaves the settings alone and evaluates one device at its arrival. -/
theorem ingestAuthorized_evaluates
    (h : engine.ingestAuthorized e arrival authorized = .ok (events, engine')) :
    engine'.cfg = engine.cfg ∧ ∀ {id d}, engine'.devices.get id = some d →
      engine.devices.get id = some d ∨ id = e.deviceId ∧ d.lastEvaluation = arrival := by
  obtain ⟨-, ⟨-, -, -, -, rfl⟩ | ⟨d₀, -, -, -, h⟩⟩ := ingestAuthorized_spec h
  · exact ⟨rfl, .inl⟩
  obtain ⟨d', hingested, hcfg, hdevices⟩ := ingestInto_ingested h
  refine ⟨hcfg, fun {id d} hd => ?_⟩
  rw [hdevices] at hd
  obtain ⟨hid, rfl⟩ | ⟨-, hd⟩ := get_insert_eq_some.1 hd
  · exact .inr ⟨hid, hingested.lastEvaluation⟩
  · exact .inl hd

end Calls

/-! ### The projection -/

theorem deviceLog_append (id l l') :
    deviceLog id (l ++ l') = deviceLog id l ++ deviceLog id l' := filter_append ..

variable {l : List PresenceEntry}

theorem deviceLog_eq_nil {other} (h : ∀ x ∈ l, x.device = id) (hne : other ≠ id) :
    deviceLog other l = [] := by
  refine filter_eq_nil_iff.2 fun x hx hother => hne ?_
  rw [← h x hx, of_decide_eq_true hother]

/-- Every device is what its own log makes of it. -/
structure LoggedEngine.Traces (G : DeviceGuard) (s : LoggedEngine) : Prop where
  known : ∀ {id d}, s.engine.devices.get id = some d → Traced G s.engine.cfg id d (deviceLog id s.log)
  unknown : ∀ {id}, s.engine.devices.get id = none → deviceLog id s.log = []

section Projection

variable {G : DeviceGuard} {s : LoggedEngine} {e : PresenceEvidence} {arrival : DateTime}

theorem Settles.device {d state}
    (h : Settles cfg id d at' state events) : ∀ t ∈ events, t.deviceId = id := by
  cases h with
  | stay => simp
  | move _ hdevice => simpa using hdevice

theorem Ingested.device {d d'} (h : Ingested cfg id d e arrival d' events) :
    ∀ t ∈ events, t.deviceId = id := by
  cases h with
  | late => simp
  | settled hcorrections hs =>
    intro t ht
    obtain ht | ht := mem_append.1 ht
    · exact (hcorrections t ht).device
    · exact hs.device t ht

/-- A call on one device leaves the others and their logs alone. -/
theorem LoggedEngine.Traces.replace (h : s.Traces G) {engine' d' new}
    (hcfg : engine'.cfg = s.engine.cfg)
    (hdevices : engine'.devices = s.engine.devices.insert id d') (hnew : ∀ x ∈ new, x.device = id)
    (ht : Traced G s.engine.cfg id d' (new ++ deviceLog id s.log)) :
    LoggedEngine.Traces G ⟨engine', new ++ s.log⟩ := by
  constructor
  · intro other d hd
    rw [hdevices] at hd
    rw [deviceLog_append, hcfg]
    obtain ⟨rfl, rfl⟩ | ⟨hne, hd⟩ := get_insert_eq_some.1 hd
    · rwa [deviceLog, filter_eq_self.2 fun x hx => decide_eq_true (hnew x hx)]
    · rw [deviceLog_eq_nil hnew hne]
      exact h.known hd
  · intro other hnone
    rw [hdevices, get_insert] at hnone
    split at hnone
    · cases hnone
    · next hne =>
      rw [deviceLog_append, deviceLog_eq_nil hnew hne]
      exact h.unknown hnone

theorem LoggedEngine.Traces.ingest (h : s.Traces G) {s'} {authorized : Bool}
    (hg : G.Ingests s e arrival) (hs : s.ingest e arrival authorized = some s') : s'.Traces G := by
  obtain ⟨⟨events, engine'⟩, hi, rfl⟩ := map_eq_some_iff.1 hs
  rw [toOption_eq_some] at hi
  obtain ⟨haccepted, hcases⟩ := ingestAuthorized_spec hi
  have htraffic := supportEnd_of_ingest hi
  dsimp only
  obtain ⟨d, hd, hskip, -, rfl⟩ | ⟨d, hstart, hskip, -, hi⟩ := hcases
  · rw [if_pos ⟨d, hd, hskip⟩]
    exact h
  -- the device that takes the evidence in, and its log
  have hdevice : (s.engine.devices.get e.deviceId).getD (.initial arrival) = d ∧
      Traced G s.engine.cfg e.deviceId d (deviceLog e.deviceId s.log) ∧
      d.lastEvaluation ≤ arrival ∧ ¬s.engine.Ignores e := by
    cases hstart with
    | known hd hmono => exact ⟨by rw [hd]; rfl, h.known hd, hmono, by simpa [Ignores, hd] using hskip⟩
    | added hnone =>
      refine ⟨by rw [hnone]; rfl, ?_, le_rfl, by simp [Ignores, hnone]⟩
      rw [h.unknown hnone]
      exact .initial arrival
  obtain ⟨hd, htraced, hmono, hnot⟩ := hdevice
  rw [if_neg hnot]
  have hg := hg.resolve_left hnot
  rw [hd] at hg
  obtain ⟨d', hingested, hcfg, hdevices⟩ := ingestInto_ingested hi
  rw [← singleton_append (l := s.log), ← append_assoc]
  refine h.replace hcfg hdevices (fun x hx => ?_) ?_
  · obtain hx | hx := mem_append.1 hx
    · obtain ⟨t, ht, rfl⟩ := mem_map.1 (mem_reverse.1 hx)
      exact hingested.device t ht
    · rw [mem_singleton.1 hx]
      rfl
  · rw [append_assoc, singleton_append]
    exact htraced.ingest hg rfl hmono haccepted htraffic hingested

theorem LoggedEngine.Traces.step (h : s.Traces G) {event s'}
    (hg : G.lift s event) (hs : s.step event = some s') : s'.Traces G := by
  cases event with
  | evaluate id at' =>
    obtain ⟨⟨event, engine'⟩, he, rfl⟩ := map_eq_some_iff.1 hs
    rw [toOption_eq_some] at he
    simp only [evaluate, bind_eq_ok, okOr_eq_ok, reject_eq_ok] at he
    obtain ⟨d, hd, _, hmono, _, -, hrec⟩ := he
    obtain ⟨state, history, evictedThrough, hsettles, hcfg, hdevices⟩ :=
      recompute_settles (get_insert_self ..) hrec
    refine h.replace hcfg (hdevices.trans (insert_insert ..)) (fun x hx => ?_) ?_
    · obtain ⟨t, ht, rfl⟩ := mem_map.1 hx
      exact hsettles.device t ht
    · exact (h.known hd).evaluate (hg d hd) (not_lt.1 hmono) hsettles
  | _ => exact h.ingest hg hs

/-- **Every device of every run** whose calls meet the condition is what its own log makes of it. -/
theorem traced_of_via (h : loggedMachine.Via G.lift s) : s.Traces G := by
  refine h.invariant (fun s hinit => ?_) fun s event s' hs hg hstep => hs.step hg hstep
  obtain ⟨⟨cfg, hnew⟩, hlog⟩ := hinit
  have hempty := new_devices hnew
  refine ⟨fun hd => ?_, fun _ => ?_⟩
  · rw [hempty, get_empty] at hd
    cases hd
  · rw [hlog]
    rfl

theorem accepted_moved_append (events : List PresenceTransition) (l) :
    accepted (events.map .moved ++ l) = accepted l := by
  induction events with
  | nil => rfl
  | cons t events ih => exact ih

variable {P : PresenceEntry → List PresenceEntry → Prop}

theorem throughout_moved (hl : Throughout P l)
    (h : ∀ t ∈ events, ∀ earlier : List PresenceTransition, P (.moved t) (earlier.map .moved ++ l)) :
    Throughout P (events.map .moved ++ l) := by
  induction events with
  | nil => exact hl
  | cons t events ih =>
    exact ⟨h t mem_cons_self events, ih fun u hu => h u (mem_cons_of_mem _ hu)⟩

/-- A law about the log of each device, as one about the log of the engine. -/
theorem throughout_of_deviceLog {log} (h : ∀ id, Throughout P (deviceLog id log)) :
    Throughout (fun x l => P x (deviceLog x.device l)) log := by
  induction log with
  | nil => trivial
  | cons x l ih =>
    refine ⟨?_, ih fun id => ?_⟩
    · have hx := h x.device
      rw [deviceLog, filter_cons, if_pos (decide_eq_true rfl)] at hx
      exact hx.1
    · have hid := h id
      rw [deviceLog, filter_cons] at hid
      split at hid
      · exact hid.2
      · exact hid

theorem LoggedEngine.Traces.throughout (h : s.Traces G)
    (hP : ∀ id d l, Traced G s.engine.cfg id d l → Throughout P l) :
    Throughout (fun x l => P x (deviceLog x.device l)) s.log := by
  refine throughout_of_deviceLog fun id => ?_
  obtain hnone | ⟨d, hd⟩ := eq_none_or_eq_some (s.engine.devices.get id)
  · rw [h.unknown hnone]
    trivial
  · exact hP id d _ (h.known hd)

end Projection

/-! ### Sample runs -/

/-- A run from a new engine. -/
def loggedRun (cfg : PresenceConfig) (events : List PresenceEvent) : Option LoggedEngine :=
  (new cfg).toOption.bind fun engine => loggedMachine.exec ⟨engine, []⟩ events

theorem via_loggedRun {G} [∀ s event, Decidable (G s event)] (cfg events) {p : LoggedEngine → Prop}
    (h : ∃ s, loggedRun cfg events = some s ∧ p s) (hg : (new cfg).toOption.all fun engine =>
      loggedMachine.Guarded G ⟨engine, []⟩ events) : ∃ s, loggedMachine.Via G s ∧ p s := by
  obtain ⟨s, hs, hp⟩ := h
  exact ⟨s, .of_bind (fun engine hengine => ⟨⟨cfg, toOption_eq_some.1 hengine⟩, rfl⟩) hs hg, hp⟩

theorem exists_loggedRun (cfg events)
    {p : LoggedEngine → Prop} (h : ∃ s, loggedRun cfg events = some s ∧ p s) :
    ∃ s, loggedRun cfg events = some s ∧ loggedMachine.Reachable s ∧ p s := by
  obtain ⟨s, hs, hp⟩ := h
  obtain ⟨engine, hengine, hrun⟩ := bind_eq_some_iff.1 hs
  exact ⟨s, hs, Machine.reachable_of_exec ⟨⟨cfg, toOption_eq_some.1 hengine⟩, rfl⟩ hrun, hp⟩

end NeonHearth.Presence
