import NeonHearth.Presence.Engine

/-!
# Checkpoints of the presence engine

`checkpoint` writes an engine out and `fromCheckpoint` reads it back, after checking the devices one
by one: capacities, the chain of the history, the origin of every trigger, the evidence, and the
control flags, which are derived from the evidence again.  The history loop runs over all devices,
since the ids of transitions are unique across them.

`Restorable` lists what the checks ask of a device, and `fromCheckpoint_checkpoint` says that an
engine of restorable devices with distinct ids reads back as itself.
-/

namespace NeonHearth.Presence

open NeonHearth.Except List Option PresenceEngine Prod

/-- A device of a checkpoint, with the fields of `DevicePresence`. -/
structure PresenceCheckpointDevice extends DevicePresence where
  deviceId : DeviceId

structure PresenceCheckpoint where
  version : ℕ
  devices : List PresenceCheckpointDevice
  nextTransition : ℕ

/-- `PresenceEngine::checkpoint`: the devices by their ids. -/
def PresenceEngine.checkpoint (engine : PresenceEngine) : PresenceCheckpoint where
  version := 1
  devices := engine.devices.toList.map fun entry => ⟨entry.2, entry.1⟩
  nextTransition := engine.nextTransition

/-! ### The checks -/

/-- The flag and the clock of a control family as its evidence gives them. -/
def controlState (evidence : List PresenceEvidence) (active inactive : PresenceEvidenceKind) :
    Bool × Option DateTime :=
  match ((evidence.filter fun e => e.kind = active || e.kind = inactive).map (·.observedAt)).max? with
  | none => (false, none)
  | some clock => (evidence.any fun e => e.kind = active && e.observedAt = clock, some clock)

/-- Evidence of both kinds at one time. -/
def conflictingControls (evidence : List PresenceEvidence)
    (active inactive : PresenceEvidenceKind) : Bool :=
  evidence.any fun left => left.kind = active &&
    evidence.any fun right => right.kind = inactive && right.observedAt = left.observedAt

/-- What the history loop carries: the last id and state of the device, and the ids of all
devices. -/
structure HistoryScan where
  last : ℕ
  previousState : Option PresenceState
  maxId : ℕ
  globalIds : List ℕ

/-- One transition of the history loop. -/
def checkTransition (cfg : PresenceConfig) (x : PresenceCheckpointDevice) (scan : HistoryScan)
    (t : PresenceTransition) : Except PresenceError HistoryScan := do
  reject (t.transitionId = 0 ∨ t.transitionId ∈ scan.globalIds ∨ t.transitionId ≤ scan.last ∨
    t.deviceId ≠ x.deviceId ∨ scan.previousState.any (t.fromState ≠ ·))
    (.invalidCheckpoint "history")
  let limit ← okOr (x.lastEvaluation.checkedAddSigned cfg.futureSkew) (.invalidCheckpoint "time")
  reject (limit < t.occurredAt) (.invalidCheckpoint "history")
  reject (t.trigger.source = "" ∨ cfg.maxSourceLen < t.trigger.source.utf8ByteSize ∨
    t.trigger.source ∉ cfg.trustedSources ∨ t.trigger.kind = .evaluation ∨
    (t.trigger.kind = .neighborCache ∧ t.trigger.validUntil = none) ∨
    t.trigger.arrivalAt < t.trigger.observedAt ∨
    t.trigger.validUntil.any (· < t.trigger.observedAt)) (.invalidCheckpoint "trigger")
  let triggerLimit ← okOr (t.trigger.arrivalAt.checkedAddSigned cfg.futureSkew)
    (.invalidCheckpoint "time")
  reject (triggerLimit < t.trigger.observedAt) (.invalidCheckpoint "trigger")
  return ⟨t.transitionId, some t.toState, max scan.maxId t.transitionId,
    t.transitionId :: scan.globalIds⟩

/-- A correction whose target is missing, not older or not a departure. -/
def badCorrection (history : List PresenceTransition) (t : PresenceTransition) : Bool :=
  t.correctionOf.any fun target =>
    match history.find? (·.transitionId = target) with
    | none => true
    | some departure => t.transitionId ≤ departure.transitionId || departure.toState ≠ .offline

/-- One piece of evidence. -/
def checkEvidence (cfg : PresenceConfig) (x : PresenceCheckpointDevice) (e : PresenceEvidence) :
    Except PresenceError PUnit := do
  reject (e.deviceId ≠ x.deviceId ∨ e.source = "" ∨ cfg.maxSourceLen < e.source.utf8ByteSize ∨
    e.kind = .evaluation ∨ (e.kind = .neighborCache ∧ e.validUntil = none) ∨
    e.validUntil.any (· < e.observedAt)) (.invalidCheckpoint "evidence")
  reject (e.source ∉ cfg.trustedSources) (.invalidCheckpoint "source")
  reject (x.lastEvaluation < e.observedAt ∨ e.validUntil.any (· < e.observedAt))
    (.invalidCheckpoint "evidence time")

def isEnforcement (kind : PresenceEvidenceKind) : Bool :=
  kind = .enforcementBlocked || kind = .enforcementUnblocked

/-- The trigger was caused by the evidence. -/
def PresenceTrigger.causedBy (t : PresenceTrigger) (e : PresenceEvidence) : Bool :=
  e.source = t.source && e.kind = t.kind && e.observedAt = t.observedAt &&
    e.validUntil = t.validUntil

/-- The checks of the control families. -/
def checkControls (nextTransition : ℕ) (x : PresenceCheckpointDevice) :
    Except PresenceError PUnit := do
  reject (conflictingControls x.evidence .enforcementBlocked .enforcementUnblocked ∨
    conflictingControls x.evidence .sensorImpaired .sensorRecovered ∨
    conflictingControls x.evidence .contradiction .contradictionCleared)
    (.invalidCheckpoint "conflicting controls")
  let enforcement := controlState x.evidence .enforcementBlocked .enforcementUnblocked
  let impairment := controlState x.evidence .sensorImpaired .sensorRecovered
  let contradiction := controlState x.evidence .contradiction .contradictionCleared
  reject (x.evictedThrough.any (nextTransition ≤ ·) ∨ x.evictedThrough.any fun evicted =>
    x.history.head?.any fun first => first.transitionId ≤ evicted) (.invalidCheckpoint "cursor")
  reject ((x.blocked, x.enforcementClock) ≠ enforcement ∨
    (x.impaired, x.impairmentClock) ≠ impairment ∨
    (x.contradictory, x.contradictionClock) ≠ contradiction) (.invalidCheckpoint "control state")
  reject (x.history.any fun t => isEnforcement t.trigger.kind && !x.evidence.any fun e =>
    t.trigger.causedBy e && e.observedAt ≤ enforcement.2.getD e.observedAt)
    (.invalidCheckpoint "enforcement trigger")
  reject (x.evidence.any fun e => isEnforcement e.kind &&
    !(x.history.any fun t => t.trigger.causedBy e) &&
    !(x.evictedThrough.isSome && x.enforcementClock = some e.observedAt && e.validUntil = none))
    (.invalidCheckpoint "enforcement evidence")

/-- What the loop over the devices carries. -/
structure Restored where
  devices : SortedMap DeviceId DevicePresence
  maxId : ℕ
  globalIds : List ℕ

/-- One device of the loop. -/
def restoreDevice (cfg : PresenceConfig) (nextTransition : ℕ) (out : Restored)
    (x : PresenceCheckpointDevice) : Except PresenceError Restored := do
  reject (out.devices.get x.deviceId ≠ none ∨ cfg.maxEvidencePerDevice < x.evidence.length ∨
    cfg.maxHistoryPerDevice < x.history.length) (.invalidCheckpoint "duplicate or capacity")
  let scan ← x.history.foldlM (checkTransition cfg x)
    ⟨0, if x.evictedThrough.isSome then none else some .unknown, out.maxId, out.globalIds⟩
  reject (x.history.any (badCorrection x.history)) (.invalidCheckpoint "correction target")
  reject (x.history.getLast?.any fun t => t.toState ≠ x.state) (.invalidCheckpoint "final state")
  x.evidence.forM (checkEvidence cfg x)
  checkControls nextTransition x
  return ⟨out.devices.insert x.deviceId x.toDevicePresence, scan.maxId, scan.globalIds⟩

/-- `PresenceEngine::from_checkpoint`. -/
def PresenceEngine.fromCheckpoint (cfg : PresenceConfig) (c : PresenceCheckpoint) :
    Except PresenceError PresenceEngine :=
  if h : cfg.Valid then do
    reject (c.version ≠ 1 ∨ c.nextTransition = 0 ∨ cfg.maxDevices < c.devices.length)
      (.invalidCheckpoint "version, sequence, or capacity")
    let out ← c.devices.foldlM (restoreDevice cfg c.nextTransition) ⟨∅, 0, []⟩
    reject (c.nextTransition ≤ out.maxId) (.invalidCheckpoint "sequence")
    return ⟨cfg, h, out.devices, c.nextTransition⟩
  else .error .invalidConfig

/-! ### Restorable devices -/

/-- The flag and the clock of a control family. -/
def DevicePresence.control (d : DevicePresence) : Fin 3 → Bool × Option DateTime
  | 0 => (d.blocked, d.enforcementClock)
  | 1 => (d.impaired, d.impairmentClock)
  | 2 => (d.contradictory, d.contradictionClock)

/-- The kind that sets the flag of a family. -/
def activeKind : Fin 3 → PresenceEvidenceKind
  | 0 => .enforcementBlocked
  | 1 => .sensorImpaired
  | 2 => .contradiction

/-- The kind that clears the flag of a family. -/
def inactiveKind : Fin 3 → PresenceEvidenceKind
  | 0 => .enforcementUnblocked
  | 1 => .sensorRecovered
  | 2 => .contradictionCleared

/-- The evidence of one control family. -/
def familyEvidence (evidence : List PresenceEvidence) (family : Fin 3) : List PresenceEvidence :=
  evidence.filter fun e => controlFamily e.kind = some family

/-- The family has one piece of evidence, which the flag and the clock come from, or none. -/
inductive ControlOk (d : DevicePresence) (family : Fin 3) : Prop
  | unset (hevidence : familyEvidence d.evidence family = []) (hcontrol : d.control family = (false, none))
  | set {e} (hevidence : familyEvidence d.evidence family = [e])
      (hcontrol : d.control family = (decide (e.kind = activeKind family), some e.observedAt))

/-- The states of a history form a chain from `start`. -/
def Chained : Option PresenceState → List PresenceTransition → Prop
  | _, [] => True
  | start, t :: rest => start.all (t.fromState = ·) = true ∧ Chained (some t.toState) rest

/-- The trigger could have been ingested. -/
structure TriggerOk (cfg : PresenceConfig) (t : PresenceTrigger) : Prop where
  trusted : t.source ∈ cfg.trustedSources
  kind : t.kind ≠ .evaluation
  neighbor : t.kind = .neighborCache → t.validUntil ≠ none
  arrived : t.observedAt ≤ t.arrivalAt
  validity : t.validUntil.any (· < t.observedAt) = false
  limit : t.arrivalAt.checkedAddSigned cfg.futureSkew ≠ none

/-- The evidence could have been ingested for the device. -/
structure EvidenceOk (cfg : PresenceConfig) (id : DeviceId) (e : PresenceEvidence) : Prop where
  device : e.deviceId = id
  trusted : e.source ∈ cfg.trustedSources
  kind : e.kind ≠ .evaluation
  neighbor : e.kind = .neighborCache → e.validUntil ≠ none
  validity : e.validUntil.any (· < e.observedAt) = false

/-- What the checks ask of a transition in the history of a device. -/
structure TransitionOk (cfg : PresenceConfig) (next : ℕ) (id : DeviceId) (d : DevicePresence)
    (t : PresenceTransition) : Prop where
  pos : 0 < t.transitionId
  lt_next : t.transitionId < next
  device : t.deviceId = id
  occurred : t.occurredAt ≤ d.lastEvaluation
  trigger : TriggerOk cfg t.trigger
  uncorrected : t.correctionOf = none
  enforcement : isEnforcement t.trigger.kind = true → ∃ e ∈ d.evidence, t.trigger.causedBy e = true

/-- What the checks ask of a device. -/
structure Restorable (cfg : PresenceConfig) (next : ℕ) (id : DeviceId) (d : DevicePresence) :
    Prop where
  evidence_length : d.evidence.length ≤ cfg.maxEvidencePerDevice
  history_length : d.history.length ≤ cfg.maxHistoryPerDevice
  transitions : ∀ t ∈ d.history, TransitionOk cfg next id d t
  increasing : (d.history.map (·.transitionId)).Pairwise (· < ·)
  chained : Chained (if d.evictedThrough.isSome then none else some .unknown) d.history
  final : ∀ t, d.history.getLast? = some t → t.toState = d.state
  limit : d.history ≠ [] → d.lastEvaluation.checkedAddSigned cfg.futureSkew ≠ none
  evidence : ∀ e ∈ d.evidence, EvidenceOk cfg id e ∧ e.observedAt ≤ d.lastEvaluation
  control : ∀ family, ControlOk d family
  cursor : ∀ v, d.evictedThrough = some v → v < next ∧ ∀ t ∈ d.history, v < t.transitionId
  enforcement : ∀ e ∈ d.evidence, isEnforcement e.kind = true → e.validUntil = none ∧
    ((∃ t ∈ d.history, t.trigger.causedBy e = true) ∨ d.evictedThrough ≠ none)

/-! ### Restorable devices pass the checks -/

variable {cfg : PresenceConfig} {id : DeviceId} {d : DevicePresence} {family : Fin 3}

theorem source_ok (hcfg : cfg.Valid) {s} (hs : s ∈ cfg.trustedSources) :
    s ≠ "" ∧ s.utf8ByteSize ≤ cfg.maxSourceLen :=
  hcfg.trustedSources.2.2 s hs

theorem le_limit {t limit : DateTime} {skew : ℤ} (hskew : 0 ≤ skew)
    (h : t.checkedAddSigned skew = some limit) : t ≤ limit := by
  rw [DateTime.checkedAddSigned_eq_some] at h
  rw [DateTime.le_iff]
  omega

variable {next : ℕ}

theorem checkTransition_ok (hcfg : cfg.Valid) {t} (ht : TransitionOk cfg next id d t) {limit}
    (hlimit : d.lastEvaluation.checkedAddSigned cfg.futureSkew = some limit) {scan}
    (hlast : scan.last < t.transitionId) (hglobal : t.transitionId ∉ scan.globalIds)
    (hchain : scan.previousState.all (t.fromState = ·) = true) :
    checkTransition cfg ⟨d, id⟩ scan t = .ok ⟨t.transitionId, some t.toState,
      max scan.maxId t.transitionId, t.transitionId :: scan.globalIds⟩ := by
  obtain ⟨triggerLimit, htrigger⟩ := ne_none_iff_exists'.1 ht.trigger.limit
  obtain ⟨hempty, hlen⟩ := source_ok hcfg ht.trigger.trusted
  simp only [checkTransition, bind_eq_ok, pure_eq_ok, reject_eq_ok, okOr_eq_ok]
  refine ⟨⟨⟩, ?_, limit, hlimit, ⟨⟩, ?_, ⟨⟩, ?_, triggerLimit, htrigger, ⟨⟩, ?_, trivial⟩
  · have hpos := ht.pos
    rintro (h | h | h | h | h)
    · omega
    · exact hglobal h
    · omega
    · exact h ht.device
    · cases hp : scan.previousState with
      | none => simp [hp] at h
      | some s =>
        simp only [hp, any_some, all_some, decide_eq_true_eq] at h hchain
        exact h hchain
  · exact not_lt.2 (ht.occurred.trans (le_limit hcfg.futureSkew hlimit))
  · rintro (h | h | h | h | h | h | h)
    · exact hempty h
    · omega
    · exact h ht.trigger.trusted
    · exact ht.trigger.kind h
    · exact ht.trigger.neighbor h.1 h.2
    · exact absurd h (not_lt.2 ht.trigger.arrived)
    · simp [ht.trigger.validity] at h
  · exact not_lt.2 (ht.trigger.arrived.trans (le_limit hcfg.futureSkew htrigger))

variable {e : PresenceEvidence} {engine : PresenceEngine}

theorem checkEvidence_ok (hcfg : cfg.Valid) (he : EvidenceOk cfg id e)
    (hle : e.observedAt ≤ d.lastEvaluation) : checkEvidence cfg ⟨d, id⟩ e = .ok ⟨⟩ := by
  obtain ⟨hempty, hlen⟩ := source_ok hcfg he.trusted
  simp only [checkEvidence, bind_eq_ok, reject_eq_ok]
  refine ⟨⟨⟩, ?_, ⟨⟩, not_not.2 he.trusted, ?_⟩
  · rintro (h | h | h | h | h | h)
    · exact h he.device
    · exact hempty h
    · omega
    · exact he.kind h
    · exact he.neighbor h.1 h.2
    · simp [he.validity] at h
  · rintro (h | h)
    · exact absurd h (not_lt.2 hle)
    · simp [he.validity] at h

variable {kind : PresenceEvidenceKind}

theorem controlFamily_eq_some :
    controlFamily kind = some family ↔ kind = activeKind family ∨ kind = inactiveKind family := by
  revert family
  cases kind <;> decide

theorem isEnforcement_iff : isEnforcement kind = true ↔ controlFamily kind = some 0 := by
  cases kind <;> decide

theorem mem_familyEvidence {evidence} :
    e ∈ familyEvidence evidence family ↔ e ∈ evidence ∧ controlFamily e.kind = some family := by
  simp [familyEvidence]

/-- The evidence of a family is the one that its flag and its clock come from. -/
theorem ControlOk.of_mem (h : ControlOk d family) (he : e ∈ d.evidence)
    (hkind : controlFamily e.kind = some family) : familyEvidence d.evidence family = [e] ∧
      d.control family = (decide (e.kind = activeKind family), some e.observedAt) := by
  have hmem := mem_familyEvidence.2 ⟨he, hkind⟩
  cases h with
  | unset hevidence _ => simp [hevidence] at hmem
  | set hevidence hcontrol =>
    rw [hevidence, mem_singleton] at hmem
    subst hmem
    exact ⟨hevidence, hcontrol⟩

theorem ControlOk.congr {d'} (h : ControlOk d family)
    (he : familyEvidence d'.evidence family = familyEvidence d.evidence family)
    (hc : d'.control family = d.control family) : ControlOk d' family := by
  cases h with
  | unset hevidence hcontrol => exact .unset (he.trans hevidence) (hc.trans hcontrol)
  | set hevidence hcontrol => exact .set (he.trans hevidence) (hc.trans hcontrol)

/-- The flag and the clock can be derived from the evidence again. -/
theorem ControlOk.controlState_eq (h : ControlOk d family) :
    controlState d.evidence (activeKind family) (inactiveKind family) = d.control family := by
  have hfilter : (d.evidence.filter fun e => e.kind = activeKind family ||
      e.kind = inactiveKind family) = familyEvidence d.evidence family := by
    refine filter_congr fun e _ => ?_
    simp [controlFamily_eq_some]
  rw [controlState, hfilter]
  cases h with
  | unset hevidence hcontrol => rw [hevidence, hcontrol]; rfl
  | @set e hevidence hcontrol =>
    rw [hevidence, hcontrol]
    simp only [map_cons, map_nil, max?_singleton, Prod.mk.injEq, and_true]
    refine Bool.eq_iff_iff.2 ?_
    simp only [List.any_eq_true, Bool.and_eq_true, decide_eq_true_eq]
    constructor
    · rintro ⟨x, hx, hkind, -⟩
      have hmem : x ∈ familyEvidence d.evidence family :=
        mem_familyEvidence.2 ⟨hx, controlFamily_eq_some.2 (.inl hkind)⟩
      rw [hevidence, mem_singleton] at hmem
      exact hmem ▸ hkind
    · intro hkind
      have hmem : e ∈ familyEvidence d.evidence family := by simp [hevidence]
      exact ⟨e, (mem_familyEvidence.1 hmem).1, hkind, rfl⟩

theorem ControlOk.not_conflicting (h : ControlOk d family) :
    conflictingControls d.evidence (activeKind family) (inactiveKind family) = false := by
  refine Bool.eq_false_iff.2 fun hconflict => ?_
  simp only [conflictingControls, List.any_eq_true, Bool.and_eq_true, decide_eq_true_eq] at hconflict
  obtain ⟨x, hx, hxk, y, hy, hyk, -⟩ := hconflict
  obtain ⟨hxs, -⟩ := h.of_mem hx (controlFamily_eq_some.2 (.inl hxk))
  obtain ⟨hys, -⟩ := h.of_mem hy (controlFamily_eq_some.2 (.inr hyk))
  obtain ⟨rfl, -⟩ := cons.inj (hxs.symm.trans hys)
  rw [hyk] at hxk
  fin_cases family <;> cases hxk

theorem causedBy_kind {t : PresenceTrigger} (h : t.causedBy e = true) : e.kind = t.kind := by
  simp only [PresenceTrigger.causedBy, Bool.and_eq_true, decide_eq_true_eq] at h
  exact h.1.1.2

theorem checkControls_ok (h : Restorable cfg next id d) : checkControls next ⟨d, id⟩ = .ok ⟨⟩ := by
  have hstate₀ := (h.control 0).controlState_eq
  simp only [checkControls, bind_eq_ok, reject_eq_ok]
  refine ⟨⟨⟩, ?_, ⟨⟩, ?_, ⟨⟩, ?_, ⟨⟩, ?_, ?_⟩
  · rintro (hc | hc | hc)
    · exact absurd hc (Bool.eq_false_iff.1 (h.control 0).not_conflicting)
    · exact absurd hc (Bool.eq_false_iff.1 (h.control 1).not_conflicting)
    · exact absurd hc (Bool.eq_false_iff.1 (h.control 2).not_conflicting)
  · rintro (hc | hc)
    · obtain ⟨v, hv, hle⟩ := any_eq_true _ _ |>.1 hc
      exact absurd (of_decide_eq_true hle) (not_le.2 (h.cursor v hv).1)
    · obtain ⟨v, hv, hfirst⟩ := any_eq_true _ _ |>.1 hc
      obtain ⟨t, ht, hle⟩ := any_eq_true _ _ |>.1 hfirst
      exact absurd (of_decide_eq_true hle) (not_le.2 ((h.cursor v hv).2 t (mem_of_head? ht)))
  · rintro (hc | hc | hc)
    · exact hc hstate₀.symm
    · exact hc (h.control 1).controlState_eq.symm
    · exact hc (h.control 2).controlState_eq.symm
  · intro hc
    obtain ⟨t, ht, hbad⟩ := any_eq_true.1 hc
    rw [Bool.and_eq_true] at hbad
    obtain ⟨e, he, hcaused⟩ := (h.transitions t ht).enforcement hbad.1
    have hkind : controlFamily e.kind = some 0 := by
      rw [causedBy_kind hcaused]
      exact isEnforcement_iff.1 hbad.1
    have hclock := congrArg snd ((h.control 0).of_mem he hkind).2
    rw [Bool.not_eq_true', Bool.eq_false_iff] at hbad
    refine hbad.2 (any_eq_true.2 ⟨e, he, ?_⟩)
    have hclock' : (controlState d.evidence .enforcementBlocked .enforcementUnblocked).2 =
        some e.observedAt := (congrArg snd hstate₀).trans hclock
    simp [hclock', hcaused]
  · intro hc
    obtain ⟨e, he, hbad⟩ := any_eq_true.1 hc
    simp only [Bool.and_eq_true, Bool.not_eq_true', Bool.eq_false_iff] at hbad
    obtain ⟨⟨hkind, hnone⟩, hcursor⟩ := hbad
    have hclock := congrArg snd ((h.control 0).of_mem he (isEnforcement_iff.1 hkind)).2
    obtain ⟨hvalid, ⟨t, ht, hcaused⟩ | hevicted⟩ := h.enforcement e he hkind
    · exact hnone (any_eq_true.2 ⟨t, ht, hcaused⟩)
    · refine hcursor ?_
      have hclock' : d.enforcementClock = some e.observedAt := hclock
      simp [isSome_iff_ne_none.2 hevicted, hclock', hvalid]

theorem foldlM_checkTransition (hcfg : cfg.Valid) {limit}
    (hlimit : d.lastEvaluation.checkedAddSigned cfg.futureSkew = some limit)
    {l} (hl : ∀ t ∈ l, TransitionOk cfg next id d t)
    (hincreasing : (l.map (·.transitionId)).Pairwise (· < ·)) {scan}
    (hlast : ∀ t ∈ l, scan.last < t.transitionId)
    (hglobal : ∀ t ∈ l, t.transitionId ∉ scan.globalIds) (hchained : Chained scan.previousState l)
    (hmax : scan.maxId < next) :
    ∃ scan', l.foldlM (checkTransition cfg ⟨d, id⟩) scan = .ok scan' ∧ scan'.maxId < next ∧
      ∀ i ∈ scan'.globalIds, i ∈ scan.globalIds ∨ ∃ t ∈ l, t.transitionId = i := by
  induction l generalizing scan with
  | nil => exact ⟨scan, rfl, hmax, fun i hi => .inl hi⟩
  | cons t rest ih =>
    have ht := hl t mem_cons_self
    rw [map_cons, pairwise_cons] at hincreasing
    have hlater : ∀ u ∈ rest, t.transitionId < u.transitionId := fun u hu =>
      hincreasing.1 _ (mem_map_of_mem hu)
    have hstep := checkTransition_ok hcfg ht hlimit (hlast t mem_cons_self)
      (hglobal t mem_cons_self) hchained.1
    set scan₁ : HistoryScan := ⟨t.transitionId, some t.toState, max scan.maxId t.transitionId,
      t.transitionId :: scan.globalIds⟩
    have hlast₁ : ∀ u ∈ rest, scan₁.last < u.transitionId := hlater
    have hglobal₁ : ∀ u ∈ rest, u.transitionId ∉ scan₁.globalIds := fun u hu =>
      not_mem_cons_of_ne_of_not_mem (hlater u hu).ne' (hglobal u (mem_cons_of_mem _ hu))
    obtain ⟨scan', hscan', hmax', hids⟩ := ih (fun u hu => hl u (mem_cons_of_mem _ hu))
      hincreasing.2 hlast₁ hglobal₁ hchained.2 (max_lt hmax ht.lt_next)
    refine ⟨scan', ?_, hmax', fun i hi => ?_⟩
    · rw [foldlM_cons, hstep]
      exact hscan'
    · obtain hold | ⟨u, hu, rfl⟩ := hids i hi
      · obtain rfl | hold := mem_cons.1 hold
        · exact .inr ⟨t, mem_cons_self, rfl⟩
        · exact .inl hold
      · exact .inr ⟨u, mem_cons_of_mem _ hu, rfl⟩

/-- **A restorable device passes all checks.** -/
theorem restoreDevice_ok (hcfg : cfg.Valid) (h : Restorable cfg next id d)
    {out} (hnew : out.devices.get id = none) (hmax : out.maxId < next)
    (hglobal : ∀ t ∈ d.history, t.transitionId ∉ out.globalIds) :
    ∃ out', restoreDevice cfg next out ⟨d, id⟩ = .ok out' ∧
      out'.devices = out.devices.insert id d ∧ out'.maxId < next ∧
      ∀ i ∈ out'.globalIds, i ∈ out.globalIds ∨ ∃ t ∈ d.history, t.transitionId = i := by
  obtain ⟨scan, hscan, hmax', hids⟩ : ∃ scan, d.history.foldlM (checkTransition cfg ⟨d, id⟩)
      ⟨0, if d.evictedThrough.isSome then none else some .unknown, out.maxId, out.globalIds⟩ =
        .ok scan ∧ scan.maxId < next ∧
      ∀ i ∈ scan.globalIds, i ∈ out.globalIds ∨ ∃ t ∈ d.history, t.transitionId = i := by
    by_cases hempty : d.history = []
    · rw [hempty]
      exact ⟨_, rfl, hmax, fun i hi => .inl hi⟩
    · obtain ⟨limit, hlimit⟩ := ne_none_iff_exists'.1 (h.limit hempty)
      exact foldlM_checkTransition hcfg hlimit h.transitions h.increasing
        (fun t ht => (h.transitions t ht).pos) hglobal h.chained hmax
  refine ⟨⟨out.devices.insert id d, scan.maxId, scan.globalIds⟩, ?_, rfl, hmax', hids⟩
  simp only [restoreDevice, bind_eq_ok, pure_eq_ok, reject_eq_ok]
  refine ⟨⟨⟩, ?_, scan, hscan, ⟨⟩, ?_, ⟨⟩, ?_, ⟨⟩,
    forM_ok fun e he => checkEvidence_ok hcfg (h.evidence e he).1 (h.evidence e he).2, ⟨⟩,
    checkControls_ok h, rfl⟩
  · rintro (hdup | hevidence | hhistory)
    · exact hdup hnew
    · exact absurd h.evidence_length (not_le.2 hevidence)
    · exact absurd h.history_length (not_le.2 hhistory)
  · intro hbad
    obtain ⟨t, ht, hbad⟩ := any_eq_true.1 hbad
    simp [badCorrection, (h.transitions t ht).uncorrected] at hbad
  · intro hbad
    obtain ⟨t, ht, hne⟩ := any_eq_true _ _ |>.1 hbad
    exact of_decide_eq_true hne (h.final t ht)

/-- The engine can be written out and read back. -/
structure PresenceEngine.Restorable (engine : PresenceEngine) : Prop where
  devices : ∀ {id d}, engine.devices.get id = some d →
    Presence.Restorable engine.cfg engine.nextTransition id d
  distinct : ∀ {id d id' d'}, engine.devices.get id = some d → engine.devices.get id' = some d' →
    id ≠ id' → ∀ t ∈ d.history, ∀ t' ∈ d'.history, t.transitionId ≠ t'.transitionId
  size_le : engine.devices.size ≤ engine.cfg.maxDevices
  next_pos : 0 < engine.nextTransition

theorem mem_checkpoint :
    (⟨d, id⟩ : PresenceCheckpointDevice) ∈ engine.checkpoint.devices ↔
      engine.devices.get id = some d := by
  simp [checkpoint, SortedMap.mem_toList]

/-- What the loop over the devices has restored. -/
structure RestoredSoFar (engine : PresenceEngine) (done : List PresenceCheckpointDevice)
    (out : Restored) : Prop where
  get_eq : ∀ id, out.devices.get id =
    if id ∈ done.map (·.deviceId) then engine.devices.get id else none
  max_lt : out.maxId < engine.nextTransition
  ids : ∀ i ∈ out.globalIds, ∃ x ∈ done, ∃ t ∈ x.history, t.transitionId = i

theorem foldlM_restoreDevice (h : engine.Restorable) :
    ∃ out, engine.checkpoint.devices.foldlM (restoreDevice engine.cfg engine.nextTransition)
      ⟨∅, 0, []⟩ = .ok out ∧ RestoredSoFar engine engine.checkpoint.devices out := by
  refine foldlM_ok (I := RestoredSoFar engine) ⟨fun id => by simp, h.next_pos, by simp⟩ ?_
  intro done x rest out hl hI
  obtain ⟨d, id⟩ := x
  have hmem : ∀ y ∈ done ++ ⟨d, id⟩ :: rest, engine.devices.get y.deviceId = some y.toDevicePresence :=
    fun y hy => mem_checkpoint.1 (hl ▸ hy)
  have hd : engine.devices.get id = some d := hmem ⟨d, id⟩ (by simp)
  -- the devices are listed once each, so a device is new when its turn comes
  have hnodup : (engine.checkpoint.devices.map (·.deviceId)).Nodup := by
    rw [checkpoint, List.map_map]
    exact engine.devices.nodup_keys
  have hnew : id ∉ done.map (·.deviceId) := by
    rw [hl, map_append, map_cons, nodup_append] at hnodup
    exact fun hin => hnodup.2.2 _ hin _ mem_cons_self rfl
  have hglobal : ∀ t ∈ d.history, t.transitionId ∉ out.globalIds := by
    intro t ht hin
    obtain ⟨y, hy, t', ht', heq⟩ := hI.ids _ hin
    have hne : id ≠ y.deviceId := by
      rintro rfl
      exact hnew (mem_map_of_mem hy)
    exact h.distinct hd (hmem y (by simp [hy])) hne t ht t' ht' heq.symm
  obtain ⟨out', hout', hdevices, hmax, hids⟩ := restoreDevice_ok engine.cfg_valid (h.devices hd)
    ((hI.get_eq id).trans (if_neg hnew)) hI.max_lt hglobal
  refine ⟨out', hout', fun id' => ?_, hmax, fun i hi => ?_⟩
  · rw [hdevices, SortedMap.get_insert, hI.get_eq]
    by_cases heq : id' = id
    · subst heq
      simp [hd]
    · simp [heq]
  · obtain hold | ⟨t, ht, rfl⟩ := hids i hi
    · obtain ⟨y, hy, hrest⟩ := hI.ids i hold
      exact ⟨y, mem_append_left _ hy, hrest⟩
    · exact ⟨⟨d, id⟩, by simp, t, ht, rfl⟩

/-- **The round trip**: a restorable engine reads back as itself. -/
theorem fromCheckpoint_checkpoint (h : engine.Restorable) :
    fromCheckpoint engine.cfg engine.checkpoint = .ok engine := by
  obtain ⟨out, hout, hget, hmax, -⟩ := foldlM_restoreDevice h
  have hdevices : out.devices = engine.devices := by
    refine SortedMap.ext fun id => ?_
    rw [hget]
    split
    · rfl
    · next hnot =>
      refine (eq_none_iff_forall_ne_some.2 fun d hd => hnot ?_).symm
      exact mem_map.2 ⟨⟨d, id⟩, mem_checkpoint.2 hd, rfl⟩
  rw [fromCheckpoint, dif_pos engine.cfg_valid]
  simp only [bind_eq_ok, pure_eq_ok, reject_eq_ok]
  refine ⟨⟨⟩, ?_, out, hout, ⟨⟩, not_le.2 hmax, by rw [hdevices]; rfl⟩
  rintro (hversion | hnext | hsize)
  · exact hversion rfl
  · exact h.next_pos.ne' hnext
  · rw [checkpoint, length_map, SortedMap.length_toList] at hsize
    exact absurd h.size_le (not_le.2 hsize)

end NeonHearth.Presence
