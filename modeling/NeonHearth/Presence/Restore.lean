import NeonHearth.Presence.Absorb
import NeonHearth.System.Machine

/-!
# Which runs of the presence engine can be restored

A service writes the checkpoint of its engine and reads it back after a restart.  The engine can
reach states whose checkpoint is refused: a verified block that is released again is enough
(`releaseRun_not_restored`).  The checkpoint of every run whose steps meet `KeepsRestorable` reads
back as the engine itself (`fromCheckpoint_of_keepsRestorable`).

The condition rules out, one by one, what the checks of `fromCheckpoint` do not expect: a timer
that changes a state or leaves the calendar, evidence from the future, the correction of a
departure, control evidence that contradicts the newest one at the same time, and a verified
enforcement that repeats the last one or follows a retained one.
-/

namespace NeonHearth.Presence

open List PresenceEngine DevicePresence SortedMap Option

/-- The calls of the engine. -/
inductive PresenceEvent where
  | ingestEvents (e : PresenceEvidence) (arrival : DateTime)
  | recordVerifiedEnforcement (deviceId : DeviceId) (blocked : Bool) (source : String)
      (observedAt arrival : DateTime)
  | evaluate (id : DeviceId) (at' : DateTime)

/-- A successful call. -/
def PresenceEngine.step (engine : PresenceEngine) : PresenceEvent → Option PresenceEngine
  | .ingestEvents e arrival => (engine.ingestEvents e arrival).toOption.map Prod.snd
  | .recordVerifiedEnforcement deviceId blocked source observedAt arrival =>
    (engine.recordVerifiedEnforcement deviceId blocked source observedAt arrival).toOption.map
      Prod.snd
  | .evaluate id at' => (engine.evaluate id at').toOption.map Prod.snd

/-- All runs of successful calls from a new engine. -/
def presenceMachine : Machine PresenceEngine PresenceEvent where
  init engine := ∃ cfg, new cfg = .ok engine
  step := step

/-! ### The condition -/

/-- The device can take the evidence in and stay restorable. -/
@[mk_iff]
structure TakesIn (cfg : PresenceConfig) (d : DevicePresence) (e : PresenceEvidence)
    (arrival : DateTime) : Prop where
  /-- The evidence is not from the future. -/
  observed : e.observedAt ≤ arrival
  /-- No departure is corrected. -/
  uncorrected : correction cfg d e arrival = none
  /-- Control evidence does not meet the newest one of its family at the same time. -/
  clock : ∀ family, controlFamily e.kind = some family → (d.control family).2 ≠ some e.observedAt
  /-- An enforcement changes the flag, or some transition has been evicted. -/
  toggles : isEnforcement e.kind = true →
    d.blocked ≠ decide (e.kind = .enforcementBlocked) ∨ d.evictedThrough ≠ none
  /-- No transition of an earlier enforcement is retained. -/
  unenforced : isEnforcement e.kind = true → ∀ t ∈ d.history, isEnforcement t.trigger.kind = false

instance (cfg : PresenceConfig) (d : DevicePresence) (e : PresenceEvidence) (arrival : DateTime) :
    Decidable (TakesIn cfg d e arrival) :=
  decidable_of_iff' _ (takesIn_iff ..)

namespace PresenceEngine

variable (engine : PresenceEngine)

/-- Evidence for a new device or for a known one, which may also ignore it. -/
def Admits (e : PresenceEvidence) (arrival : DateTime) : Prop :=
  match engine.devices.get e.deviceId with
  | none => TakesIn engine.cfg (.initial arrival) e arrival
  | some d => e ∈ d.evidence ∨ staleControl d e = true ∨ TakesIn engine.cfg d e arrival

/-- The step leaves every device restorable. -/
def KeepsRestorable : PresenceEvent → Prop
  | .ingestEvents e arrival => engine.Admits e arrival
  | .recordVerifiedEnforcement deviceId blocked source observedAt arrival =>
    engine.Admits ⟨deviceId, source,
      if blocked then .enforcementBlocked else .enforcementUnblocked, observedAt, none⟩ arrival
  | .evaluate id at' => ∀ d, engine.devices.get id = some d →
      gated engine.cfg d at' = d.state ∧
        (d.history = [] ∨ at'.checkedAddSigned engine.cfg.futureSkew ≠ none)

end PresenceEngine

/-! ### The blocked state -/

/-- The state is blocked exactly while the flag is set, and unknown before the first transition. -/
structure StateOk (d : DevicePresence) : Prop where
  blocked_iff : d.blocked = true ↔ d.state = .blocked
  fresh : d.history = [] → d.state = .unknown

/-! ### Chains -/

variable {start : Option PresenceState} {id : DeviceId} {d : DevicePresence}
  {l : List PresenceTransition}

theorem Chained.none (h : Chained start l) : Chained none l := by
  cases l with
  | nil => trivial
  | cons t rest => exact ⟨rfl, h.2⟩

theorem Chained.of_append {dropped kept}
    (h : Chained start (dropped ++ kept)) : Chained Option.none kept := by
  induction dropped generalizing start with
  | nil => exact h.none
  | cons t dropped ih => exact ih h.2

variable {t : PresenceTransition} {engine engine' : PresenceEngine}

theorem Chained.append (h : Chained start l)
    (hlast : ∀ u, l.getLast? = some u → u.toState = t.fromState)
    (hstart : l = [] → start.all (t.fromState = ·) = true) : Chained start (l ++ [t]) := by
  induction l generalizing start with
  | nil => exact ⟨hstart rfl, trivial⟩
  | cons u rest ih =>
    refine ⟨h.1, ih h.2 (fun w hw => hlast w ?_) fun hnil => ?_⟩
    · rw [getLast?_cons, hw]
      rfl
    · simpa using (hlast u (by simp [hnil])).symm

/-- A transition stays acceptable with the same evidence and clock. -/
theorem TransitionOk.mono {cfg} {next next' : ℕ} {d'}
    (h : TransitionOk cfg next id d t) (hnext : next ≤ next')
    (hlast : d'.lastEvaluation = d.lastEvaluation) (hevidence : d'.evidence = d.evidence) :
    TransitionOk cfg next' id d' t :=
  { h with
    lt_next := h.lt_next.trans_le hnext
    occurred := hlast ▸ h.occurred
    enforcement := hevidence ▸ h.enforcement }

/-! ### One ingestion -/

/-- An ingestion into a restorable device: the device before it and after taking the evidence in. -/
structure Ingestion (cfg : PresenceConfig) (next : ℕ) (d : DevicePresence) (e : PresenceEvidence)
    (arrival : DateTime) (d' : DevicePresence) : Prop where
  cfg_valid : cfg.Valid
  restorable : Restorable cfg next e.deviceId d
  stateOk : StateOk d
  accepted : ∃ authorized, Accepted cfg e arrival authorized
  permanent : isEnforcement e.kind = true → e.validUntil = none
  takesIn : TakesIn cfg d e arrival
  fresh : staleControl d e = false
  monotone : d.lastEvaluation ≤ arrival
  room : semanticallyRetained e arrival cfg = true →
    (d.evidence.filter fun x => semanticallyRetained x arrival cfg).length < cfg.maxEvidencePerDevice
  absorbed : Absorbed cfg d e arrival d'

namespace Ingestion

variable {cfg : PresenceConfig} {next : ℕ} {d d' : DevicePresence} {e : PresenceEvidence}
  {arrival : DateTime}

section

variable (h : Ingestion cfg next d e arrival d')
include h

theorem controlOk (family : Fin 3) : ControlOk d' family :=
  h.absorbed.controlOk h.restorable.control h.fresh h.takesIn.clock family

theorem evidenceOk {x}
    (hx : x ∈ d'.evidence) : EvidenceOk cfg e.deviceId x ∧ x.observedAt ≤ d'.lastEvaluation := by
  rw [h.absorbed.lastEvaluation]
  obtain hold | rfl := h.absorbed.mem_evidence hx
  · obtain ⟨hok, hle⟩ := h.restorable.evidence x hold
    exact ⟨hok, hle.trans h.monotone⟩
  · obtain ⟨_, hacc⟩ := h.accepted
    exact ⟨⟨rfl, hacc.trusted, hacc.kind, hacc.neighbor, hacc.validity⟩, h.takesIn.observed⟩

/-- An enforcement is the only enforcement evidence after it. -/
theorem enforcement_eq (he : isEnforcement e.kind = true) : familyEvidence d'.evidence 0 = [e] := by
  have hfam := isEnforcement_iff.1 he
  refine h.absorbed.familyEvidence_eq hfam (h.restorable.control 0) fun clock hclock => ?_
  refine lt_of_le_of_ne (clock_le_of_not_stale h.fresh hfam hclock) ?_
  rintro rfl
  exact h.takesIn.clock 0 hfam hclock

/-- Other evidence leaves the enforcement evidence alone. -/
theorem enforcement_same (he : isEnforcement e.kind = false) :
    familyEvidence d'.evidence 0 = familyEvidence d.evidence 0 := by
  refine h.absorbed.familyEvidence_of_ne (fun hfam => ?_) (h.restorable.control 0)
  rw [isEnforcement_iff.2 hfam] at he
  cases he

theorem blocked_eq : d'.blocked =
    if isEnforcement e.kind then decide (e.kind = .enforcementBlocked) else d.blocked := by
  have hcontrol : (d'.control 0).1 = ((applyFlags d e).control 0).1 :=
    congrArg Prod.fst (h.absorbed.control 0)
  cases he : isEnforcement e.kind with
  | true =>
    have hfam := isEnforcement_iff.1 he
    rw [control_applyFlags hfam fun clock => clock_le_of_not_stale h.fresh hfam] at hcontrol
    exact hcontrol
  | false =>
    rw [control_applyFlags_of_ne] at hcontrol
    · exact hcontrol
    · intro hfam
      rw [isEnforcement_iff.2 hfam] at he
      cases he

/-- The retained transitions stay as they were. -/
theorem transitionOk (ht : t ∈ d.history) : TransitionOk cfg next e.deviceId d' t := by
  have hold := h.restorable.transitions t ht
  refine { hold with occurred := ?_, enforcement := fun hkind => ?_ }
  · rw [h.absorbed.lastEvaluation]
    exact hold.occurred.trans h.monotone
  have he : isEnforcement e.kind = false := by
    by_contra he
    rw [h.takesIn.unenforced (Bool.eq_true_of_not_eq_false he) t ht] at hkind
    cases hkind
  obtain ⟨x, hx, hcaused⟩ := hold.enforcement hkind
  have hmem : x ∈ familyEvidence d.evidence 0 := by
    refine mem_familyEvidence.2 ⟨hx, ?_⟩
    rw [causedBy_kind hcaused]
    exact isEnforcement_iff.1 hkind
  rw [← h.enforcement_same he] at hmem
  exact ⟨x, (mem_familyEvidence.1 hmem).1, hcaused⟩

theorem length_evidence : d'.evidence.length ≤ cfg.maxEvidencePerDevice :=
  h.absorbed.length_evidence h.restorable.evidence_length h.room

theorem limit : d'.lastEvaluation.checkedAddSigned cfg.futureSkew ≠ none := by
  obtain ⟨_, hacc⟩ := h.accepted
  rw [h.absorbed.lastEvaluation]
  exact hacc.limit

/-- Enforcement evidence is the new one, or it has been there before. -/
theorem enforcement_cases {x} (hx : x ∈ d'.evidence) (hkind : isEnforcement x.kind = true) :
    x = e ∧ isEnforcement e.kind = true ∨ x ∈ d.evidence ∧ isEnforcement e.kind = false := by
  have hmem := mem_familyEvidence.2 ⟨hx, isEnforcement_iff.1 hkind⟩
  cases he : isEnforcement e.kind with
  | true =>
    rw [h.enforcement_eq he, mem_singleton] at hmem
    exact .inl ⟨hmem, rfl⟩
  | false =>
    rw [h.enforcement_same he] at hmem
    exact .inr ⟨(mem_familyEvidence.1 hmem).1, rfl⟩

/-- A device that keeps its state had its flag changed by nothing. -/
theorem blocked_same
    (hstay : isLate d e = true ∨ gated cfg d' arrival = d'.state) : d'.blocked = d.blocked := by
  cases he : isEnforcement e.kind with
  | false => rw [h.blocked_eq, he]; rfl
  | true =>
    obtain hlate | hsame := hstay
    · -- late evidence is positive
      have hnone := controlFamily_of_positive (positive_of_late hlate)
      rw [isEnforcement_iff.1 he] at hnone
      cases hnone
    · rw [Bool.eq_iff_iff, ← gated_eq_blocked, hsame, h.absorbed.state, h.stateOk.blocked_iff]

/-- **Evidence that changes no state** leaves the device restorable. -/
theorem stay (hstay : isLate d e = true ∨ gated cfg d' arrival = d'.state) :
    Restorable cfg next e.deviceId d' ∧ StateOk d' := by
  have hblocked := h.blocked_same hstay
  constructor
  · exact {
      evidence_length := h.length_evidence
      history_length := by rw [h.absorbed.history]; exact h.restorable.history_length
      transitions := fun t ht => h.transitionOk (h.absorbed.history ▸ ht)
      increasing := by rw [h.absorbed.history]; exact h.restorable.increasing
      chained := by
        rw [h.absorbed.history, h.absorbed.evictedThrough]
        exact h.restorable.chained
      final := by rw [h.absorbed.history, h.absorbed.state]; exact h.restorable.final
      limit := fun _ => h.limit
      evidence := fun x hx => h.evidenceOk hx
      control := h.controlOk
      cursor := by
        rw [h.absorbed.history, h.absorbed.evictedThrough]
        exact h.restorable.cursor
      enforcement := fun x hx hkind => by
        rw [h.absorbed.history, h.absorbed.evictedThrough]
        obtain ⟨rfl, he⟩ | ⟨hold, -⟩ := h.enforcement_cases hx hkind
        · refine ⟨h.permanent he, .inr ((h.takesIn.toggles he).resolve_left fun hne => hne ?_)⟩
          rw [← hblocked, h.blocked_eq, if_pos he]
        · exact h.restorable.enforcement x hold hkind }
  · refine ⟨?_, ?_⟩
    · rw [hblocked, h.absorbed.state]
      exact h.stateOk.blocked_iff
    · rw [h.absorbed.history, h.absorbed.state]
      exact h.stateOk.fresh

theorem triggerOk : TriggerOk cfg ⟨e.source, e.kind, e.observedAt, e.validUntil, arrival⟩ := by
  obtain ⟨_, hacc⟩ := h.accepted
  exact ⟨hacc.trusted, hacc.kind, hacc.neighbor, h.takesIn.observed, hacc.validity, hacc.limit⟩

/-- **Evidence that changes the state** leaves the device restorable: the transition it triggers
continues the chain, and what the history drops is covered by the cursor. -/
theorem move (hpos : 0 < next) (ht : t = ⟨next, e.deviceId, d'.state, gated cfg d' arrival, arrival,
      ⟨e.source, e.kind, e.observedAt, e.validUntil, arrival⟩, none⟩) {d''}
    (hd'' : d'' = pushHistory { d' with state := gated cfg d' arrival } t cfg.maxHistoryPerDevice) :
    Restorable cfg (next + 1) e.deviceId d'' ∧ StateOk d'' ∧
      ∀ u ∈ d''.history, u ∈ d.history ∨ u.transitionId = next := by
  obtain ⟨dropped, hsplit, hevicted, hlen⟩ := evictHistory_spec h.cfg_valid.maxHistoryPerDevice none
    d'.evictedThrough d'.history
  subst hd''
  dsimp only [pushHistory]
  generalize evictHistory cfg.maxHistoryPerDevice none d'.evictedThrough d'.history = evicted at *
  obtain ⟨cursor, kept⟩ := evicted
  dsimp only at hsplit hevicted hlen ⊢
  rw [h.absorbed.history] at hsplit
  rw [h.absorbed.evictedThrough] at hevicted
  have hkept : ∀ u ∈ kept, u ∈ d.history := fun u hu => hsplit ▸ mem_append_right _ hu
  have hincreasing := h.restorable.increasing
  rw [hsplit, map_append, pairwise_append] at hincreasing
  -- the cursor is the last dropped transition, or the older one if none is dropped
  have hcursor : ∀ v, cursor = some v → v < next ∧ ∀ u ∈ kept, v < u.transitionId := by
    intro v hv
    rw [hevicted] at hv
    cases hdropped : dropped.getLast? with
    | none =>
      rw [hdropped, map_none, none_or] at hv
      obtain ⟨hnext, hafter⟩ := h.restorable.cursor v hv
      exact ⟨hnext, fun u hu => hafter u (hkept u hu)⟩
    | some w =>
      rw [hdropped, map_some, some_or, some.injEq] at hv
      have hw : w ∈ dropped := mem_of_getLast? hdropped
      subst hv
      refine ⟨(h.restorable.transitions w (hsplit ▸ mem_append_left _ hw)).lt_next, fun u hu => ?_⟩
      exact hincreasing.2.2 _ (mem_map_of_mem hw) _ (mem_map_of_mem hu)
  refine ⟨?_, ⟨?_, by simp⟩, fun u hu => ?_⟩
  · exact {
      evidence_length := h.length_evidence
      history_length := by
        rw [length_append]
        exact hlen
      transitions := fun u hu => by
        obtain hu | hu := mem_append.1 hu
        · exact (h.transitionOk (hkept u hu)).mono (Nat.le_succ next) rfl rfl
        rw [mem_singleton.1 hu, ht]
        refine ⟨hpos, Nat.lt_succ_self next, rfl, h.absorbed.lastEvaluation.ge, h.triggerOk, rfl,
          fun hkind => ?_⟩
        have hmem : e ∈ familyEvidence d'.evidence 0 := by simp [h.enforcement_eq hkind]
        refine ⟨e, (mem_familyEvidence.1 hmem).1, ?_⟩
        simp [PresenceTrigger.causedBy]
      increasing := by
        rw [map_append, pairwise_append]
        refine ⟨hincreasing.2.1, by simp, fun i hi j hj => ?_⟩
        obtain ⟨u, hu, rfl⟩ := mem_map.1 hi
        rw [map_singleton, mem_singleton, ht] at hj
        rw [hj]
        exact (h.restorable.transitions u (hkept u hu)).lt_next
      chained := by
        have hchained := h.restorable.chained
        have hfrom : t.fromState = d.state := by rw [ht]; exact h.absorbed.state
        rcases eq_nil_or_concat dropped with rfl | ⟨front, u, rfl⟩
        · -- nothing is dropped
          rw [nil_append] at hsplit
          rw [hevicted, getLast?_nil, map_none, none_or, ← hsplit]
          refine hchained.append (fun u hu => (h.restorable.final u hu).trans hfrom.symm) fun hnil => ?_
          split
          · rfl
          · simp [hfrom, h.stateOk.fresh hnil]
        · rw [if_pos (by simp [hevicted])]
          rw [hsplit] at hchained
          refine hchained.of_append.append (fun w hw => ?_) fun _ => rfl
          refine (h.restorable.final w ?_).trans hfrom.symm
          rw [hsplit, getLast?_append, hw]
          rfl
      final := fun u hu => by
        rw [getLast?_append, getLast?_singleton, some_or, some.injEq] at hu
        rw [← hu, ht]
      limit := fun _ => h.limit
      evidence := fun x => h.evidenceOk
      control := fun family =>
        (h.controlOk family).congr rfl (control_eq rfl rfl rfl rfl rfl rfl family)
      cursor := fun v hv => by
        obtain ⟨hnext, hafter⟩ := hcursor v hv
        exact ⟨hnext.trans (Nat.lt_succ_self next), forall_mem_concat.2 ⟨hafter, ht ▸ hnext⟩⟩
      enforcement := fun x hx hkind => by
        obtain ⟨rfl, he⟩ | ⟨hold, -⟩ := h.enforcement_cases hx hkind
        · refine ⟨h.permanent he, .inl ⟨t, by simp, ?_⟩⟩
          simp [ht, PresenceTrigger.causedBy]
        obtain ⟨hvalid, ⟨u, hu, hcaused⟩ | hsome⟩ := h.restorable.enforcement x hold hkind
        · refine ⟨hvalid, ?_⟩
          rw [hsplit] at hu
          obtain hu | hu := mem_append.1 hu
          · refine .inr fun hnone => ?_
            rw [hevicted, or_eq_none_iff, map_eq_none_iff, getLast?_eq_none_iff] at hnone
            simp [hnone.1] at hu
          · exact .inl ⟨u, mem_append_left _ hu, hcaused⟩
        · refine ⟨hvalid, .inr fun hnone => hsome ?_⟩
          rw [hevicted, or_eq_none_iff] at hnone
          exact hnone.2 }
  · rw [gated_eq_blocked]
  · obtain hu | hu := mem_append.1 hu
    · exact .inl (hkept u hu)
    · rw [mem_singleton.1 hu, ht]
      exact .inr rfl

end

end Ingestion

/-! ### Runs -/

/-- Every device is restorable, and its flag agrees with its state. -/
structure PresenceInv (engine : PresenceEngine) : Prop where
  restorable : engine.Restorable
  states : ∀ {id d}, engine.devices.get id = some d → StateOk d

theorem Restorable.mono {cfg} {next next' : ℕ} (h : Restorable cfg next id d)
    (hnext : next ≤ next') : Restorable cfg next' id d :=
  { h with
    transitions := fun t ht => (h.transitions t ht).mono hnext rfl rfl
    cursor := fun v hv => ⟨(h.cursor v hv).1.trans_le hnext, (h.cursor v hv).2⟩ }

/-- Replacing one device by a restorable one, with ids that are new or were its own. -/
theorem PresenceInv.replace (h : PresenceInv engine) {next : ℕ}
    (hnext : engine.nextTransition ≤ next) (hd : Restorable engine.cfg next id d)
    (hstate : StateOk d)
    (hids : ∀ t ∈ d.history, engine.nextTransition ≤ t.transitionId ∨
      ∃ old, engine.devices.get id = some old ∧ t ∈ old.history)
    (hroom : engine.devices.get id = none → engine.devices.size < engine.cfg.maxDevices) :
    PresenceInv { engine with devices := engine.devices.insert id d, nextTransition := next } := by
  have hother : ∀ {id' d'}, id' ≠ id → engine.devices.get id' = some d' →
      ∀ t ∈ d.history, ∀ t' ∈ d'.history, t.transitionId ≠ t'.transitionId := by
    intro id' d' hne hd' t ht t' ht'
    obtain hnew | ⟨old, hold, hmem⟩ := hids t ht
    · have hlt := ((h.restorable.devices hd').transitions t' ht').lt_next
      omega
    · exact h.restorable.distinct hold hd' hne.symm t hmem t' ht'
  refine ⟨⟨fun hd' => ?_, fun h₁ h₂ hne => ?_, ?_, ?_⟩, fun hd' => ?_⟩
  · obtain ⟨rfl, rfl⟩ | ⟨-, hd'⟩ := get_insert_eq_some.1 hd'
    · exact hd
    · exact (h.restorable.devices hd').mono hnext
  · obtain ⟨rfl, rfl⟩ | ⟨hne₁, hd₁⟩ := get_insert_eq_some.1 h₁
    · exact hother hne.symm ((get_insert_eq_some.1 h₂).resolve_left fun heq => hne heq.1.symm).2
    · obtain ⟨rfl, rfl⟩ | ⟨-, hd₂⟩ := get_insert_eq_some.1 h₂
      · exact fun t ht t' ht' heq => hother hne₁ hd₁ t' ht' t ht heq.symm
      · exact h.restorable.distinct hd₁ hd₂ hne
  · dsimp only
    rw [size_insert]
    split
    · next hnone => exact hroom hnone
    · exact h.restorable.size_le
  · exact h.restorable.next_pos.trans_le hnext
  · obtain ⟨-, rfl⟩ | ⟨-, hd'⟩ := get_insert_eq_some.1 hd'
    · exact hstate
    · exact h.states hd'

theorem restorable_initial (cfg) (next : ℕ) (id arrival) :
    Restorable cfg next id (.initial arrival) where
  evidence_length := Nat.zero_le _
  history_length := Nat.zero_le _
  transitions := by simp [initial]
  increasing := List.Pairwise.nil
  chained := trivial
  final := by simp [initial]
  limit := fun h => (h rfl).elim
  evidence := by simp [initial]
  control := fun family => .unset rfl (by fin_cases family <;> rfl)
  cursor := by simp [initial]
  enforcement := by simp [initial]

variable {events : List PresenceTransition}

theorem PresenceInv.ingestInto (h : PresenceInv engine) {e arrival}
    {authorized : Bool} (hstart : StartsFrom engine e.deviceId arrival d)
    (haccepted : Accepted engine.cfg e arrival authorized)
    (hpermanent : isEnforcement e.kind = true → e.validUntil = none)
    (htakes : TakesIn engine.cfg d e arrival) (hfresh : staleControl d e = false)
    (hroom : semanticallyRetained e arrival engine.cfg = true →
      (d.evidence.filter fun x => semanticallyRetained x arrival engine.cfg).length <
        engine.cfg.maxEvidencePerDevice)
    (hi : engine.ingestInto d e arrival = .ok (events, engine')) : PresenceInv engine' := by
  obtain ⟨hrestorable, hstateOk, hmono, hold, hsize⟩ :
      Restorable engine.cfg engine.nextTransition e.deviceId d ∧ StateOk d ∧
      d.lastEvaluation ≤ arrival ∧
      (∀ t ∈ d.history, ∃ old, engine.devices.get e.deviceId = some old ∧ t ∈ old.history) ∧
      (engine.devices.get e.deviceId = none → engine.devices.size < engine.cfg.maxDevices) := by
    cases hstart with
    | known hd hmono =>
      exact ⟨h.restorable.devices hd, h.states hd, hmono, fun t ht => ⟨d, hd, ht⟩, by simp [hd]⟩
    | added _ hspace =>
      exact ⟨restorable_initial .., ⟨by simp [initial], fun _ => rfl⟩, le_rfl, by simp [initial],
        fun _ => hspace⟩
  have hing : Ingestion engine.cfg engine.nextTransition d e arrival
      (absorb engine.cfg d e arrival) :=
    ⟨engine.cfg_valid, hrestorable, hstateOk, ⟨authorized, haccepted⟩, hpermanent, htakes, hfresh,
      hmono, hroom, absorb_spec ..⟩
  obtain ⟨hstay, rfl⟩ | ⟨hmove, rfl⟩ := ingestInto_spec hi htakes.uncorrected
  · obtain ⟨hrest, hstate⟩ := hing.stay hstay
    exact h.replace le_rfl hrest hstate
      (fun t ht => .inr (hold t (hing.absorbed.history ▸ ht))) hsize
  · obtain ⟨hrest, hstate, hids⟩ := hing.move h.restorable.next_pos rfl rfl
    refine h.replace (Nat.le_succ _) hrest hstate (fun t ht => ?_) hsize
    obtain ht | ht := hids t ht
    · exact .inr (hold t ht)
    · exact .inl ht.ge

/-- **An ingestion** keeps every device restorable. -/
theorem PresenceInv.ingest (h : PresenceInv engine) {e arrival} {authorized : Bool}
    (hpermanent : authorized = true → isEnforcement e.kind = true → e.validUntil = none)
    (hg : engine.Admits e arrival)
    (hi : engine.ingestAuthorized e arrival authorized = .ok (events, engine')) :
    PresenceInv engine' := by
  obtain ⟨haccepted, ⟨-, -, -, -, rfl⟩ | ⟨d, hstart, hskip, hroom, hi⟩⟩ := ingestAuthorized_spec hi
  · exact h
  refine h.ingestInto hstart haccepted (fun hkind => hpermanent (haccepted.authorized hkind) hkind)
    ?_ (Bool.eq_false_iff.2 fun hs => hskip (.inr hs)) hroom hi
  cases hstart with
  | known hd =>
    simp only [PresenceEngine.Admits, hd] at hg
    exact (or_assoc.2 hg).resolve_left hskip
  | added hnone => simpa only [PresenceEngine.Admits, hnone] using hg

theorem PresenceInv.evaluate (h : PresenceInv engine) {at' event}
    (hg : engine.KeepsRestorable (.evaluate id at'))
    (he : engine.evaluate id at' = .ok (event, engine')) : PresenceInv engine' := by
  simp only [PresenceEngine.evaluate, Except.bind_eq_ok, okOr_eq_ok, reject_eq_ok] at he
  obtain ⟨d, hd, _, hmono, _, -, hrec⟩ := he
  obtain ⟨hsame, hlimit⟩ := hg d hd
  obtain ⟨d₂, hd₂, hcases⟩ := recompute_spec hrec
  obtain rfl := some.inj ((get_insert_self ..).symm.trans hd₂)
  obtain ⟨-, -, rfl⟩ | ⟨hne, -⟩ := hcases
  · have hold := h.restorable.devices hd
    have hle : d.lastEvaluation ≤ at' := not_lt.1 hmono
    refine h.replace le_rfl ?_ ⟨(h.states hd).blocked_iff, (h.states hd).fresh⟩
      (fun t ht => .inr ⟨d, hd, ht⟩) fun hnone => by simp [hd] at hnone
    exact { hold with
      transitions := fun t ht => { hold.transitions t ht with
        occurred := (hold.transitions t ht).occurred.trans hle }
      limit := fun hne => hlimit.resolve_left hne
      evidence := fun x hx => ⟨(hold.evidence x hx).1, (hold.evidence x hx).2.trans hle⟩
      control := fun family =>
        (hold.control family).congr rfl (control_eq rfl rfl rfl rfl rfl rfl family) }
  · exact (hne hsame).elim

theorem PresenceInv.step (h : PresenceInv engine) {event}
    (hg : engine.KeepsRestorable event) (hs : engine.step event = some engine') :
    PresenceInv engine' := by
  cases event with
  | ingestEvents e arrival =>
    obtain ⟨⟨events, engine₁⟩, hi, rfl⟩ := map_eq_some_iff.1 hs
    have hi' : engine.ingestAuthorized e arrival false = .ok (events, engine₁) :=
      Except.toOption_eq_some.1 hi
    exact h.ingest (by simp) hg hi'
  | recordVerifiedEnforcement deviceId blocked source observedAt arrival =>
    obtain ⟨⟨events, engine₁⟩, hi, rfl⟩ := map_eq_some_iff.1 hs
    exact h.ingest (fun _ _ => rfl) hg (Except.toOption_eq_some.1 hi)
  | evaluate id at' =>
    obtain ⟨⟨event, engine₁⟩, hi, rfl⟩ := map_eq_some_iff.1 hs
    exact h.evaluate hg (Except.toOption_eq_some.1 hi)

theorem presenceInv_start (h : presenceMachine.init engine) : PresenceInv engine := by
  obtain ⟨cfg, hnew⟩ := h
  unfold new at hnew
  split at hnew
  · cases hnew
    exact ⟨⟨by simp, by simp, Nat.zero_le _, Nat.one_pos⟩, by simp⟩
  · cases hnew

/-- **The checkpoint round trip** in every run that keeps the devices restorable. -/
theorem fromCheckpoint_of_keepsRestorable {engine : PresenceEngine}
    (h : presenceMachine.Via PresenceEngine.KeepsRestorable engine) :
    fromCheckpoint engine.cfg engine.checkpoint = .ok engine := by
  have hinv : PresenceInv engine := h.invariant (fun _ => presenceInv_start)
    fun _ _ _ hi hg hs => hi.step hg hs
  exact fromCheckpoint_checkpoint hinv.restorable

/-! ### Sample runs -/

instance (engine : PresenceEngine) (e : PresenceEvidence) (arrival : DateTime) :
    Decidable (engine.Admits e arrival) := by
  unfold PresenceEngine.Admits
  split <;> infer_instance

instance (engine : PresenceEngine) (event : PresenceEvent) :
    Decidable (engine.KeepsRestorable event) := by
  cases event <;> unfold PresenceEngine.KeepsRestorable <;> infer_instance

/-- A run of an engine with the default configuration. -/
def presenceRun (events : List PresenceEvent) : Option PresenceEngine :=
  (new .default).toOption.bind fun engine => presenceMachine.exec engine events

/-- Evidence that arrives at once. -/
def observed (kind : PresenceEvidenceKind) (n : Fin 20000) (validUntil : Option (Fin 20000)) :
    PresenceEvent :=
  .ingestEvents ⟨1, "sensor-a", kind, halfSecond n, validUntil.map halfSecond⟩ (halfSecond n)

/-- A device joins with traffic and a lease, a timer finds it online, and it is blocked. -/
def joinRun : List PresenceEvent :=
  [.ingestEvents ⟨1, "sensor-a", .traffic, halfSecond 20, none⟩ (halfSecond 20),
    .ingestEvents ⟨1, "sensor-a", .lease, halfSecond 22, some (halfSecond 100)⟩ (halfSecond 23),
    .evaluate 1 (halfSecond 30),
    .recordVerifiedEnforcement 1 true "sensor-a" (halfSecond 40) (halfSecond 41)]

theorem joinRun_restored :
    ∃ engine d, presenceRun joinRun = some engine ∧ engine.devices.get 1 = some d ∧
      (d.state, d.history.length) = (.blocked, 2) ∧
      fromCheckpoint engine.cfg engine.checkpoint = .ok engine := by
  refine exists₂_and_imp (by decide +kernel) fun engine d hengine _ _ => ?_
  exact fromCheckpoint_of_keepsRestorable (.of_bind (fun _ hstart =>
    ⟨_, Except.toOption_eq_some.1 hstart⟩) hengine (by decide +kernel))

/-- A device is blocked and released. -/
def releaseRun : List PresenceEvent :=
  [.recordVerifiedEnforcement 1 true "sensor-a" (halfSecond 20) (halfSecond 20),
    .recordVerifiedEnforcement 1 false "sensor-a" (halfSecond 40) (halfSecond 40)]

/-- The release prunes the evidence of the block, whose transition is still in the history. -/
theorem releaseRun_not_restored :
    ∃ engine, presenceRun releaseRun = some engine ∧
      fromCheckpoint engine.cfg engine.checkpoint =
        .error (.invalidCheckpoint "enforcement trigger") := by
  decide +kernel

end NeonHearth.Presence
