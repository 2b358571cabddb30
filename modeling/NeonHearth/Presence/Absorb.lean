import NeonHearth.Presence.Checkpoint

/-!
# What a piece of evidence changes

One specification lemma per part of an ingestion, stated with what a checkpoint needs to know:
`absorb_spec` for the evidence and the control flags, `evictHistory_spec` for the bounded history,
`validate_spec` for accepted evidence, and `ingestInto_spec` for the call.
-/

namespace NeonHearth.Presence

open NeonHearth.Except List PresenceEngine Bool Prod SortedMap

/-! ### Control families -/

/-- Pruning a family keeps its newest evidence and leaves the other families alone. -/
theorem familyEvidence_pruneFamily (l) (family other : Fin 3) :
    familyEvidence (pruneFamily l other) family =
      if family = other then (familyEvidence l family).filter fun e =>
        ((familyEvidence l family).map (·.observedAt)).max?.all (e.observedAt = ·)
      else familyEvidence l family := by
  split
  · next heq =>
    subst heq
    rw [familyEvidence, pruneFamily, filter_filter, familyEvidence, filter_filter]
    refine filter_congr fun e _ => ?_
    by_cases hfam : controlFamily e.kind = some family
    · simp [hfam]
    · simp [hfam]
  · next hne =>
    rw [familyEvidence, pruneFamily, filter_filter, familyEvidence]
    refine filter_congr fun e _ => ?_
    by_cases hfam : controlFamily e.kind = some family
    · simp [hfam, hne]
    · simp [hfam]

theorem familyEvidence_prune (l) (family : Fin 3) :
    familyEvidence (pruneControlEvidence l) family = (familyEvidence l family).filter fun e =>
      ((familyEvidence l family).map (·.observedAt)).max?.all (e.observedAt = ·) := by
  simp only [pruneControlEvidence, foldl_cons, foldl_nil, familyEvidence_pruneFamily]
  fin_cases family <;> simp

theorem retained_of_control {cfg e arrival} {family : Fin 3}
    (hfam : controlFamily e.kind = some family) : semanticallyRetained e arrival cfg = true := by
  unfold controlFamily at hfam
  unfold semanticallyRetained
  cases hk : e.kind <;> simp [hk] at hfam ⊢

theorem familyEvidence_retained (cfg l arrival) (family : Fin 3) :
    familyEvidence (l.filter fun x => semanticallyRetained x arrival cfg) family =
      familyEvidence l family := by
  rw [familyEvidence, filter_filter, familyEvidence]
  refine filter_congr fun e _ => ?_
  by_cases hfam : controlFamily e.kind = some family
  · simp [hfam, retained_of_control hfam]
  · simp [hfam]

theorem sortEvidence_perm (l) : (sortEvidence l).Perm l :=
  perm_insertionSort _ _

variable {d : DevicePresence} {e : PresenceEvidence} {family : Fin 3} {cfg : PresenceConfig}
  {at' : DateTime} {engine engine' : PresenceEngine}

theorem control_eq {d' : DevicePresence} (hb : d'.blocked = d.blocked)
    (hi : d'.impaired = d.impaired) (hc : d'.contradictory = d.contradictory)
    (hec : d'.enforcementClock = d.enforcementClock) (hic : d'.impairmentClock = d.impairmentClock)
    (hcc : d'.contradictionClock = d.contradictionClock) (family : Fin 3) :
    d'.control family = d.control family := by
  fin_cases family <;> simp [DevicePresence.control, hb, hi, hc, hec, hic, hcc]

/-- Staleness, as a comparison with the flag and the clock of the family. -/
theorem staleControl_eq (hfam : controlFamily e.kind = some family) : staleControl d e =
      staleControlAt (d.control family).2 e.observedAt (d.control family).1
        (decide (e.kind = activeKind family)) := by
  unfold controlFamily at hfam
  unfold staleControl
  cases hk : e.kind <;> simp only [hk, Option.some.injEq, reduceCtorEq] at hfam
  all_goals
    subst hfam
    rfl

/-- Control evidence that is not stale is not older than its clock. -/
theorem clock_le_of_not_stale (h : staleControl d e = false)
    (hfam : controlFamily e.kind = some family) {clock}
    (hclock : (d.control family).2 = some clock) : clock ≤ e.observedAt := by
  rw [staleControl_eq hfam, staleControlAt, hclock] at h
  exact not_lt.1 fun hlt => by simp [hlt] at h

/-- Evidence sets the flag and the clock of its family. -/
theorem control_applyFlags (hfam : controlFamily e.kind = some family)
    (hclock : ∀ clock, (d.control family).2 = some clock → clock ≤ e.observedAt) :
    (applyFlags d e).control family = (decide (e.kind = activeKind family), some e.observedAt) := by
  have hall : (d.control family).2.all (· ≤ e.observedAt) = true := by
    cases hc : (d.control family).2 with
    | none => rfl
    | some clock => simpa using hclock clock hc
  unfold applyFlags
  unfold controlFamily at hfam
  cases hk : e.kind <;> simp only [hk, Option.some.injEq, reduceCtorEq] at hfam
  all_goals
    subst hfam
    exact congrArg (DevicePresence.control · _) (if_pos hall)

theorem control_applyFlags_of_ne (hfam : controlFamily e.kind ≠ some family) :
    (applyFlags d e).control family = d.control family := by
  unfold applyFlags
  split
  case h_7 => rfl
  all_goals
    next hk =>
      split
      · fin_cases family <;> first | rfl | exact (hfam (by rw [hk]; rfl)).elim
      · rfl

theorem applyFlags_frame (d e) :
    (applyFlags d e).state = d.state ∧ (applyFlags d e).evidence = d.evidence ∧
      (applyFlags d e).history = d.history ∧ (applyFlags d e).lastEvaluation = d.lastEvaluation ∧
      (applyFlags d e).evictedThrough = d.evictedThrough := by
  unfold applyFlags
  split
  case h_7 => exact ⟨rfl, rfl, rfl, rfl, rfl⟩
  all_goals
    split <;> exact ⟨rfl, rfl, rfl, rfl, rfl⟩

/-! ### Taking evidence in -/

/-- The evidence is kept. -/
def keepsInput (cfg : PresenceConfig) (d : DevicePresence) (e : PresenceEvidence)
    (arrival : DateTime) : Bool :=
  semanticallyRetained e arrival cfg &&
    (!isLate d e || currentValid cfg d e arrival || !isPositive e.kind)

/-- The device is the same but for its flags, its support and its evidence. -/
structure Absorbed (cfg : PresenceConfig) (d : DevicePresence) (e : PresenceEvidence)
    (arrival : DateTime) (d' : DevicePresence) : Prop where
  state : d'.state = d.state
  history : d'.history = d.history
  evictedThrough : d'.evictedThrough = d.evictedThrough
  lastEvaluation : d'.lastEvaluation = arrival
  control : ∀ family, d'.control family = (applyFlags d e).control family
  evidence : d'.evidence =
    let retained := d.evidence.filter fun x => semanticallyRetained x arrival cfg
    if keepsInput cfg d e arrival then pruneControlEvidence (sortEvidence (retained ++ [e]))
    else retained

theorem absorb_spec (cfg d e arrival) : Absorbed cfg d e arrival (absorb cfg d e arrival) := by
  set d₁ := { d with
    evidence := d.evidence.filter fun x => semanticallyRetained x arrival cfg
    lastEvaluation := arrival } with hd₁
  obtain ⟨hstate, hevidence, hhistory, hlast, hevicted⟩ := applyFlags_frame d₁ e
  have hcontrol : ∀ family, (applyFlags d₁ e).control family = (applyFlags d e).control family := by
    intro family
    have hbefore : d₁.control family = d.control family := control_eq rfl rfl rfl rfl rfl rfl family
    unfold applyFlags
    split
    case h_7 => exact hbefore
    all_goals
      simp only [hd₁]
      split
      · exact control_eq rfl rfl rfl rfl rfl rfl family
      · exact control_eq rfl rfl rfl rfl rfl rfl family
  have hkeeps : keepsInput cfg d e arrival = (semanticallyRetained e arrival cfg &&
      (!isLate d e || currentValid cfg d e arrival || !isPositive e.kind)) := rfl
  rw [absorb, ← hd₁]
  simp only [← hkeeps]
  split <;> split
  all_goals
    refine ⟨hstate, hhistory, hevicted, hlast, fun family => ?_, ?_⟩
    · exact (control_eq rfl rfl rfl rfl rfl rfl family).trans (hcontrol family)
    · simp_all

variable {d' : DevicePresence} {arrival : DateTime}

theorem keepsInput_of_control (hfam : controlFamily e.kind = some family) :
    keepsInput cfg d e arrival = true := by
  have hnot : isPositive e.kind = false := by
    unfold controlFamily at hfam
    cases hk : e.kind <;> simp [hk] at hfam ⊢ <;> rfl
  simp [keepsInput, retained_of_control hfam, hnot]

/-- The evidence of a family, before the older one is dropped. -/
theorem perm_familyEvidence (cfg l e arrival) (family : Fin 3) :
    (familyEvidence (sortEvidence ((l.filter fun x =>
      semanticallyRetained x arrival cfg) ++ [e])) family).Perm
        (familyEvidence l family ++ familyEvidence [e] family) := by
  refine ((sortEvidence_perm _).filter _).trans ?_
  rw [filter_append]
  exact familyEvidence_retained cfg l arrival family ▸ List.Perm.refl _

/-- Evidence of other families is left alone. -/
theorem Absorbed.familyEvidence_of_ne (h : Absorbed cfg d e arrival d')
    (hfam : controlFamily e.kind ≠ some family) (hctrl : ControlOk d family) :
    familyEvidence d'.evidence family = familyEvidence d.evidence family := by
  have hperm := perm_familyEvidence cfg d.evidence e arrival family
  have hnone : familyEvidence [e] family = [] := by simp [familyEvidence, hfam]
  rw [hnone, append_nil] at hperm
  rw [h.evidence]
  dsimp only
  split
  · rw [familyEvidence_prune]
    cases hctrl with
    | unset hevidence _ =>
      rw [hevidence] at hperm ⊢
      rw [hperm.eq_nil]
      rfl
    | set hevidence _ =>
      rw [hevidence] at hperm ⊢
      rw [perm_singleton.1 hperm]
      simp
  · exact familyEvidence_retained cfg d.evidence arrival family

/-- New evidence of a family replaces the older one. -/
theorem Absorbed.familyEvidence_eq (h : Absorbed cfg d e arrival d')
    (hfam : controlFamily e.kind = some family) (hctrl : ControlOk d family)
    (hclock : ∀ clock, (d.control family).2 = some clock → clock < e.observedAt) :
    familyEvidence d'.evidence family = [e] := by
  have hperm := perm_familyEvidence cfg d.evidence e arrival family
  have hone : familyEvidence [e] family = [e] := by simp [familyEvidence, hfam]
  rw [hone] at hperm
  rw [h.evidence]
  dsimp only
  rw [if_pos (keepsInput_of_control hfam), familyEvidence_prune]
  cases hctrl with
  | unset hevidence _ =>
    rw [hevidence, nil_append] at hperm
    rw [perm_singleton.1 hperm]
    simp
  | @set c hevidence hcontrol =>
    have hlt : c.observedAt < e.observedAt := hclock _ (by rw [hcontrol])
    rw [hevidence] at hperm
    generalize familyEvidence (sortEvidence _) family = l at hperm ⊢
    have hmax : (l.map (·.observedAt)).max? = some e.observedAt := by
      refine max?_eq_some_iff.2 ⟨mem_map_of_mem (hperm.mem_iff.2 (by simp)), fun t ht => ?_⟩
      obtain ⟨x, hx, rfl⟩ := mem_map.1 ht
      obtain rfl | hx := mem_cons.1 (hperm.mem_iff.1 hx)
      · exact hlt.le
      · rw [mem_singleton.1 hx]
    -- the newest of the two stays
    rw [hmax, ← perm_singleton]
    refine (hperm.filter _).trans ?_
    simp [hlt.ne]

/-- Every family has the newest evidence with its flag and clock. -/
theorem Absorbed.controlOk (h : Absorbed cfg d e arrival d') (hctrl : ∀ family, ControlOk d family)
    (hstale : staleControl d e = false)
    (hclock : ∀ family, controlFamily e.kind = some family →
      (d.control family).2 ≠ some e.observedAt) (family : Fin 3) : ControlOk d' family := by
  by_cases hfam : controlFamily e.kind = some family
  · have hle : ∀ clock, (d.control family).2 = some clock → clock ≤ e.observedAt :=
      fun clock => clock_le_of_not_stale hstale hfam
    refine .set (h.familyEvidence_eq hfam (hctrl family) fun clock hc => ?_)
      ((h.control family).trans (control_applyFlags hfam hle))
    refine lt_of_le_of_ne (hle clock hc) ?_
    rintro rfl
    exact hclock family hfam hc
  · have hevidence := h.familyEvidence_of_ne hfam (hctrl family)
    have hcontrol : d'.control family = d.control family :=
      (h.control family).trans (control_applyFlags_of_ne hfam)
    exact (hctrl family).congr hevidence hcontrol

theorem pruneControlEvidence_sublist (l) : (pruneControlEvidence l).Sublist l := by
  simp only [pruneControlEvidence, foldl_cons, foldl_nil]
  exact (filter_sublist.trans filter_sublist).trans filter_sublist

variable {x : PresenceEvidence}

theorem Absorbed.mem_evidence (h : Absorbed cfg d e arrival d')
    (hx : x ∈ d'.evidence) : x ∈ d.evidence ∨ x = e := by
  rw [h.evidence] at hx
  dsimp only at hx
  split at hx
  · have hmem := (sortEvidence_perm _).mem_iff.1 ((pruneControlEvidence_sublist _).subset hx)
    obtain hold | hnew := mem_append.1 hmem
    · exact .inl (mem_of_mem_filter hold)
    · exact .inr (mem_singleton.1 hnew)
  · exact .inl (mem_of_mem_filter hx)

theorem Absorbed.kept (h : Absorbed cfg d e arrival d') {evidence}
    (hkept : ∀ x ∈ d.evidence, x ∈ evidence) : ∀ x ∈ d'.evidence, x ∈ e :: evidence := by
  intro x hx
  obtain hx | rfl := h.mem_evidence hx
  · exact mem_cons_of_mem _ (hkept x hx)
  · exact mem_cons_self

theorem mem_pruneControlEvidence {l} (hx : x ∈ l)
    (hc : controlFamily x.kind = none) : x ∈ pruneControlEvidence l := by
  simp only [pruneControlEvidence, foldl_cons, foldl_nil, pruneFamily, mem_filter, hc]
  simp [hx]

/-- What is retained and no control evidence stays. -/
theorem Absorbed.mem_of_retained (h : Absorbed cfg d e arrival d')
    (hx : x ∈ d.evidence) (hretained : semanticallyRetained x arrival cfg = true)
    (hc : controlFamily x.kind = none) : x ∈ d'.evidence := by
  have hmem : x ∈ d.evidence.filter fun x => semanticallyRetained x arrival cfg :=
    mem_filter.2 ⟨hx, hretained⟩
  rw [h.evidence]
  dsimp only
  split
  · exact mem_pruneControlEvidence
      ((sortEvidence_perm _).mem_iff.2 (mem_append_left _ hmem)) hc
  · exact hmem

theorem Absorbed.mem_input (h : Absorbed cfg d e arrival d') (hkeeps : keepsInput cfg d e arrival = true)
    (hc : controlFamily e.kind = none) : e ∈ d'.evidence := by
  rw [h.evidence]
  dsimp only
  rw [if_pos hkeeps]
  exact mem_pruneControlEvidence ((sortEvidence_perm _).mem_iff.2 (by simp)) hc

theorem absorb_everSupported (cfg d e arrival) : (absorb cfg d e arrival).everSupported =
      (d.everSupported || isRealPositive e.kind && (!isLate d e || currentValid cfg d e arrival)) := by
  have hflags : ∀ d : DevicePresence, (applyFlags d e).everSupported = d.everSupported := by
    intro d
    unfold applyFlags
    split
    case h_7 => rfl
    all_goals
      split <;> rfl
  rw [absorb]
  cases isRealPositive e.kind && (!isLate d e || currentValid cfg d e arrival) with
  | true =>
    simp only [if_true, Bool.or_true]
    split <;> rfl
  | false =>
    simp only [Bool.false_eq_true, if_false, Bool.or_false]
    split <;> exact hflags _

theorem absorb_blocked {arrival} (hk : isEnforcement e.kind = false) :
    (absorb cfg d e arrival).blocked = d.blocked := by
  have hcontrol := (absorb_spec cfg d e arrival).control 0
  rw [control_applyFlags_of_ne fun hfam => by simp [isEnforcement_iff.2 hfam] at hk] at hcontrol
  exact congrArg fst hcontrol

theorem positive_of_late (h : isLate d e = true) : isPositive e.kind = true := by
  obtain ⟨departure, -, hlate⟩ := (Option.any_eq_true ..).1 h
  exact (and_eq_true _ _ ▸ hlate).1

theorem controlFamily_of_positive {kind} (h : isPositive kind = true) :
    controlFamily kind = none := by
  cases kind <;> first | rfl | cases h

/-- Positive evidence leaves the flags alone. -/
theorem control_absorb_positive (he : isPositive e.kind = true) (family : Fin 3) :
    (absorb cfg d e arrival).control family = d.control family :=
  ((absorb_spec cfg d e arrival).control family).trans
    (control_applyFlags_of_ne (by simp [controlFamily_of_positive he]))

theorem flags_absorb_positive (he : isPositive e.kind = true) :
    (absorb cfg d e arrival).blocked = d.blocked ∧ (absorb cfg d e arrival).impaired = d.impaired ∧
      (absorb cfg d e arrival).contradictory = d.contradictory :=
  ⟨congrArg fst (control_absorb_positive he 0), congrArg fst (control_absorb_positive he 1),
    congrArg fst (control_absorb_positive he 2)⟩

/-- A correction says that the device was there. -/
theorem correction_present {departure : ℕ} {target}
    (h : correction cfg d e arrival = some (departure, target)) :
    target = .online ∨ target = .quiet := by
  obtain ⟨found, -, h⟩ := Option.bind_eq_some_iff.1 h
  obtain ⟨state, hstate, heq⟩ := Option.map_eq_some_iff.1 h
  cases heq
  unfold supportAt at hstate
  split at hstate
  · cases hstate
  split at hstate
  case h_6 => cases hstate
  all_goals
    split at hstate
    · cases hstate
      first | exact .inl rfl | exact .inr rfl
    · cases hstate

theorem Absorbed.length_evidence (h : Absorbed cfg d e arrival d') {limit : ℕ}
    (hold : d.evidence.length ≤ limit)
    (hroom : semanticallyRetained e arrival cfg = true →
      (d.evidence.filter fun x => semanticallyRetained x arrival cfg).length < limit) :
    d'.evidence.length ≤ limit := by
  rw [h.evidence]
  dsimp only
  split
  · next hkeeps =>
    refine (pruneControlEvidence_sublist _).length_le.trans ?_
    rw [(sortEvidence_perm _).length_eq, length_append]
    exact hroom (and_eq_true _ _ ▸ hkeeps).1
  · exact (length_filter_le _ _).trans hold

/-! ### History -/

theorem evicted_cons (t) (dropped : List PresenceTransition) (evicted) :
    ((t :: dropped).getLast?.map (·.transitionId)).or evicted =
      (dropped.getLast?.map (·.transitionId)).or (some t.transitionId) := by
  cases hd : dropped.getLast? with
  | none => simp [getLast?_eq_none_iff.1 hd]
  | some u => simp [getLast?_cons, hd]

/-- Eviction drops the front of the history and remembers the last transition it dropped. -/
theorem evictHistory_spec {limit : ℕ} (hlimit : limit ≠ 0) (parent evicted l) :
    ∃ dropped, l = dropped ++ (evictHistory limit parent evicted l).2 ∧
      (evictHistory limit parent evicted l).1 =
        (dropped.getLast?.map (·.transitionId)).or evicted ∧
      (evictHistory limit parent evicted l).2.length < limit := by
  induction l generalizing parent evicted with
  | nil => exact ⟨[], rfl, rfl, Nat.pos_of_ne_zero hlimit⟩
  | cons t rest ih =>
    have hdrop : ∀ parent, ∃ dropped,
        t :: rest = dropped ++ (evictHistory limit parent (some t.transitionId) rest).2 ∧
        (evictHistory limit parent (some t.transitionId) rest).1 =
          (dropped.getLast?.map (·.transitionId)).or evicted ∧
        (evictHistory limit parent (some t.transitionId) rest).2.length < limit := by
      intro parent
      obtain ⟨dropped, heq, hev, hlen⟩ := ih parent (some t.transitionId)
      refine ⟨t :: dropped, ?_, hev.trans (evicted_cons t dropped evicted).symm, hlen⟩
      rw [cons_append, ← heq]
    rw [evictHistory]
    split
    · exact hdrop parent
    · split
      · exact hdrop (some t.transitionId)
      · next hroom => exact ⟨[], rfl, rfl, not_le.1 hroom⟩

/-! ### The blocked state -/

theorem candidate_of_blocked (h : d.blocked = true) : candidate d at' cfg = .blocked := by
  simp [candidate, h]

theorem candidate_ne_blocked (h : d.blocked = false) : candidate d at' cfg ≠ .blocked := by
  unfold candidate
  simp only [h, false_eq_true, if_false]
  split
  · simp
  split
  · simp
  split
  · simp
  · split
    · simp
    · split
      · next hstate => obtain hs | hs := hstate <;> simp [hs]
      · simp

/-- The blocked state is called for exactly when the flag is set: the join gate neither keeps a device
out of it nor in it. -/
theorem gated_eq_blocked : gated cfg d at' = .blocked ↔ d.blocked = true := by
  unfold gated
  dsimp only
  split
  · next hgate =>
    obtain ⟨hnext, hstate, -⟩ := hgate
    refine iff_of_false ?_ fun hb => ?_
    · obtain hs | hs := hstate <;> simp [hs]
    · simp [candidate_of_blocked hb] at hnext
  · cases hb : d.blocked with
    | true => simp [candidate_of_blocked hb]
    | false => simp [candidate_ne_blocked hb]

/-- An impaired or contradictory device that is not blocked is unknown. -/
theorem gated_eq_unknown (hb : d.blocked = false) (h : d.impaired = true ∨ d.contradictory = true) :
    gated cfg d at' = .unknown := by
  have hcandidate : candidate d at' cfg = .unknown := by
    unfold candidate
    rw [if_neg (by simp [hb]), if_pos (by simpa using h)]
  simp [gated, hcandidate]

/-! ### Calls -/

/-- What accepted evidence satisfies. -/
structure Accepted (cfg : PresenceConfig) (e : PresenceEvidence) (arrival : DateTime)
    (enforcementAuthorized : Bool) : Prop where
  trusted : e.source ∈ cfg.trustedSources
  limit : arrival.checkedAddSigned cfg.futureSkew ≠ none
  validity : e.validUntil.any (· < e.observedAt) = false
  neighbor : e.kind = .neighborCache → e.validUntil ≠ none
  authorized : isEnforcement e.kind = true → enforcementAuthorized = true
  kind : e.kind ≠ .evaluation

theorem validate_spec {enforcementAuthorized : Bool} {u : Unit}
    (h : engine.validate e arrival enforcementAuthorized = .ok u) :
    Accepted engine.cfg e arrival enforcementAuthorized := by
  simp only [validate, bind_eq_ok, reject_eq_ok, okOr_eq_ok] at h
  obtain ⟨_, htrusted, _, -, limit, hlimit, _, -, _, hvalid, _, hneighbor, _, -, _, hauth, hkind⟩ := h
  refine ⟨not_not.1 htrusted, by simp [hlimit], eq_false_iff.2 hvalid,
    fun hk hnone => hneighbor ⟨hk, hnone⟩, fun hk => ?_, hkind⟩
  by_contra hauth'
  refine hauth ⟨?_, eq_false_iff.2 hauth'⟩
  simpa [isEnforcement] using hk

/-- The transition that a recomputation makes. -/
def currentTransition (engine : PresenceEngine) (id : DeviceId) (fromState toState : PresenceState)
    (e : PresenceEvidence) (at' : DateTime) : PresenceTransition :=
  ⟨engine.nextTransition, id, fromState, toState, at',
    ⟨e.source, e.kind, e.observedAt, e.validUntil, at'⟩, none⟩

theorem recompute_spec {id trigger event}
    (h : engine.recompute id at' trigger = .ok (event, engine')) :
    ∃ d, engine.devices.get id = some d ∧
      (gated engine.cfg d at' = d.state ∧ event = none ∧ engine' = engine ∨
        gated engine.cfg d at' ≠ d.state ∧
          let t := currentTransition engine id d.state (gated engine.cfg d at')
            (trigger.getD (timerEvidence id at')) at'
          event = some t ∧ engine' =
            { engine with
              nextTransition := engine.nextTransition + 1
              devices := engine.devices.insert id (pushHistory
                { d with state := gated engine.cfg d at' } t engine.cfg.maxHistoryPerDevice) }) := by
  simp only [recompute, bind_eq_ok, okOr_eq_ok] at h
  obtain ⟨d, hd, h⟩ := h
  refine ⟨d, hd, ?_⟩
  split at h
  · next hsame =>
    cases pure_eq_ok.1 h
    exact .inl ⟨hsame, rfl, rfl⟩
  · next hne =>
    simp only [makeTransition, bind_eq_ok, pure_eq_ok, reject_eq_ok] at h
    obtain ⟨_, ⟨_, -, rfl⟩, h⟩ := h
    cases h
    exact .inr ⟨hne, rfl, rfl⟩

/-- The transition that corrects a departure. -/
def correctingTransition (engine : PresenceEngine) (e : PresenceEvidence) (arrival : DateTime)
    (departure : ℕ) (target : PresenceState) : PresenceTransition :=
  ⟨engine.nextTransition, e.deviceId, .offline, target, arrival,
    ⟨e.source, e.kind, e.observedAt, e.validUntil, arrival⟩, some departure⟩

/-- The first part of an ingestion: the evidence is taken in, and the departure, if there is one, is
corrected. -/
inductive IngestStart (engine : PresenceEngine) (d : DevicePresence) (e : PresenceEvidence)
    (arrival : DateTime) : List PresenceTransition → PresenceEngine → Prop
  | plain (hc : correction engine.cfg d e arrival = none) :
      IngestStart engine d e arrival []
        (engine.setDevice e.deviceId (absorb engine.cfg d e arrival))
  | corrected {departure : ℕ} {target t}
      (hc : correction engine.cfg d e arrival = some (departure, target))
      (ht : t = correctingTransition engine e arrival departure target) :
      IngestStart engine d e arrival [t]
        { engine with
          nextTransition := engine.nextTransition + 1
          devices := engine.devices.insert e.deviceId (pushHistory (absorb engine.cfg d e arrival) t
            engine.cfg.maxHistoryPerDevice) }

variable {events : List PresenceTransition}

/-- The part of an ingestion after the checks.  Late evidence that supports nothing now and corrects
nothing is not looked at again. -/
theorem ingestInto_cases (h : engine.ingestInto d e arrival = .ok (events, engine')) :
    ∃ corrections engine₁, IngestStart engine d e arrival corrections engine₁ ∧
      (isLate d e = true ∧ currentValid engine.cfg d e arrival = false ∧ corrections = [] ∧
          events = [] ∧ engine' = engine₁ ∨
        ∃ current, engine₁.recompute e.deviceId arrival (some e) = .ok (current, engine') ∧
          events = corrections ++ current.toList) := by
  simp only [ingestInto, bind_eq_ok, reject_eq_ok] at h
  obtain ⟨_, -, h⟩ := h
  have hfirst : ∃ corrections engine₁,
      (if isLate d e && !currentValid engine₁.cfg d e arrival && corrections.isEmpty then
          pure (corrections, engine₁)
        else engine₁.recompute e.deviceId arrival (some e) >>= fun x =>
          pure (corrections ++ x.1.toList, x.2)) = Except.ok (events, engine') ∧
      engine₁.cfg = engine.cfg ∧ IngestStart engine d e arrival corrections engine₁ := by
    cases hc : correction (engine.setDevice e.deviceId (absorb engine.cfg d e arrival)).cfg d e
        arrival with
    | none =>
      rw [hc] at h
      obtain ⟨_, hpure, h⟩ := bind_eq_ok.1 h
      cases hpure
      exact ⟨_, _, h, rfl, .plain hc⟩
    | some found =>
      obtain ⟨departure, target⟩ := found
      rw [hc] at h
      obtain ⟨_, hmake, h⟩ := bind_eq_ok.1 h
      simp only [makeTransition, bind_eq_ok, pure_eq_ok, reject_eq_ok] at hmake
      obtain ⟨_, -, rfl⟩ := hmake
      obtain ⟨_, hpure, h⟩ := bind_eq_ok.1 h
      cases hpure
      refine ⟨_, _, h, rfl, ?_⟩
      simp only [setDevice, insert_insert]
      exact .corrected hc rfl
  obtain ⟨corrections, engine₁, h, hcfg, hstart⟩ := hfirst
  refine ⟨corrections, engine₁, hstart, ?_⟩
  split at h
  · next hlate =>
    cases pure_eq_ok.1 h
    simp only [and_eq_true, not_eq_true', List.isEmpty_iff] at hlate
    obtain ⟨⟨hlate, hvalid⟩, rfl⟩ := hlate
    exact .inl ⟨hlate, hcfg ▸ hvalid, rfl, rfl, rfl⟩
  · obtain ⟨⟨current, engine₂⟩, hrec, h⟩ := bind_eq_ok.1 h
    cases pure_eq_ok.1 h
    exact .inr ⟨current, hrec, rfl⟩

/-- The part of an ingestion after the checks, when no departure is corrected. -/
theorem ingestInto_spec (h : engine.ingestInto d e arrival = .ok (events, engine'))
    (hcorrect : correction engine.cfg d e arrival = none) :
    let d' := absorb engine.cfg d e arrival
    (isLate d e = true ∨ gated engine.cfg d' arrival = d'.state) ∧
        engine' = engine.setDevice e.deviceId d' ∨
      gated engine.cfg d' arrival ≠ d'.state ∧ engine' =
        { engine with
          nextTransition := engine.nextTransition + 1
          devices := engine.devices.insert e.deviceId (pushHistory
            { d' with state := gated engine.cfg d' arrival }
            (currentTransition engine e.deviceId d'.state (gated engine.cfg d' arrival) e arrival)
            engine.cfg.maxHistoryPerDevice) } := by
  intro d'
  obtain ⟨corrections, engine₁, hstart, hcases⟩ := ingestInto_cases h
  cases hstart with
  | corrected hc => simp [hc] at hcorrect
  | plain =>
    obtain ⟨hlate, -, -, -, rfl⟩ | ⟨current, hrec, -⟩ := hcases
    · exact .inl ⟨.inl hlate, rfl⟩
    obtain ⟨d₂, hd₂, hcases⟩ := recompute_spec hrec
    obtain rfl : d' = d₂ := Option.some.inj ((get_insert_self ..).symm.trans hd₂)
    obtain ⟨hsame, -, heq⟩ | ⟨hne, -, heq⟩ := hcases
    · exact .inl ⟨.inr hsame, heq⟩
    refine .inr ⟨hne, ?_⟩
    rw [heq]
    simp only [setDevice, insert_insert]
    rfl

/-- The device that an ingestion starts from: a known one, or a new one for which there is room. -/
inductive StartsFrom (engine : PresenceEngine) (id : DeviceId) (arrival : DateTime) :
    DevicePresence → Prop
  | known {d : DevicePresence} (h : engine.devices.get id = some d)
      (hmono : d.lastEvaluation ≤ arrival) : StartsFrom engine id arrival d
  | added (h : engine.devices.get id = none)
      (hroom : engine.devices.size < engine.cfg.maxDevices) :
      StartsFrom engine id arrival (.initial arrival)

/-- An ingestion, as far as it gets: the evidence is ignored, or a device takes it in. -/
theorem ingestAuthorized_spec {authorized : Bool}
    (h : engine.ingestAuthorized e arrival authorized = .ok (events, engine')) :
    Accepted engine.cfg e arrival authorized ∧
      ((∃ d, engine.devices.get e.deviceId = some d ∧ (e ∈ d.evidence ∨ staleControl d e = true) ∧
          events = [] ∧ engine' = engine) ∨
        ∃ d, StartsFrom engine e.deviceId arrival d ∧ ¬(e ∈ d.evidence ∨ staleControl d e = true) ∧
          (semanticallyRetained e arrival engine.cfg = true →
            (d.evidence.filter fun x => semanticallyRetained x arrival engine.cfg).length <
              engine.cfg.maxEvidencePerDevice) ∧
          engine.ingestInto d e arrival = .ok (events, engine')) := by
  simp only [ingestAuthorized, bind_eq_ok] at h
  obtain ⟨_, hvalid, h⟩ := h
  refine ⟨validate_spec hvalid, ?_⟩
  split at h
  · next hnone =>
    obtain ⟨_, hroom, h⟩ := bind_eq_ok.1 h
    refine .inr ⟨_, .added hnone (not_le.1 (reject_eq_ok.1 hroom)), ?_,
      fun _ => Nat.pos_of_ne_zero engine.cfg_valid.maxEvidencePerDevice, h⟩
    rintro (hmem | hstale)
    · cases hmem
    · unfold staleControl at hstale
      split at hstale <;> cases hstale
  · next d hd =>
    obtain ⟨_, hclock, h⟩ := bind_eq_ok.1 h
    split at h
    · next hskip =>
      cases pure_eq_ok.1 h
      exact .inl ⟨d, hd, hskip, rfl, rfl⟩
    · next hskip =>
      obtain ⟨_, hroom, h⟩ := bind_eq_ok.1 h
      exact .inr ⟨d, .known hd (not_lt.1 (reject_eq_ok.1 hclock)), hskip,
        fun hretained => not_le.1 fun hle => reject_eq_ok.1 hroom ⟨hretained, hle⟩, h⟩

end NeonHearth.Presence
