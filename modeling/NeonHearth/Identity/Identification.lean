import NeonHearth.Identity.Restore

/-!
# What an identification rests on

* `identified_supported` : a device is identified only as what the owner says that it is, or as what
  confident facts of two families say and no confident fact denies; and the confidence is that of the
  facts the identification rests on just when the facts about a field that the owner has set are not
  weaker than those about one that they have not.

Facts that the owner has overruled still lower the confidence (`overruled_confidence`).
-/

namespace NeonHearth.Identity

open List Option IdentityEngine

/-- The fields that identify a device. -/
def fields : List String := ["vendor", "class"]

section Identify

variable (threshold : F32) (active : List EvidenceFact) (own : String → Option String)

/-- The value of a field is the owner's, or a confident fact gives it and none another one. -/
def Supported (key value : String) : Prop :=
  own key = some value ∨ own key = none ∧
    (∃ f ∈ active, f.key = key ∧ f.value = value ∧ threshold ≤ f.confidence) ∧
    ∀ f ∈ active, f.key = key → threshold ≤ f.confidence → f.value = value

/-- The highest confidence of the facts about a field. -/
def IsBest (key : String) (c : F32) : Prop :=
  (∃ f ∈ active, f.key = key ∧ f.confidence = c) ∧ ∀ f ∈ active, f.key = key → f.confidence ≤ c

/-- The confidence is the least one of the fields that the owner has not set. -/
structure Weighed (c : F32) : Prop where
  owned : (∀ key ∈ fields, own key ≠ none) → c = .one
  least : (∃ key ∈ fields, own key = none) → ∃ key ∈ fields, own key = none ∧ IsBest active key c
  le : ∀ key ∈ fields, own key = none → ∀ c', IsBest active key c' → c ≤ c'
  threshold_le : threshold ≤ c

/-- If there are facts about a field that the owner has set, one of them has as much confidence as the
facts about the field that they have not set. -/
def OverrulesNoWeaker : Prop :=
  ∀ key ∈ fields, ∀ key' ∈ fields, own key ≠ none → own key' = none → ∀ f ∈ active, f.key = key →
    ∃ g ∈ active, g.key = key ∧ ∀ f' ∈ active, f'.key = key' → f'.confidence ≤ g.confidence
  deriving Decidable

/-- What an identification rests on. -/
structure Identified (r : Identification) : Prop where
  vendor : Supported threshold active own "vendor" r.vendor
  deviceClass : Supported threshold active own "class" r.deviceClass
  nodup : r.families.Nodup
  mem_families : ∀ family, family ∈ r.families ↔ ∃ f ∈ active, f.family = family ∧
    threshold ≤ f.confidence ∧
      (f.key = "vendor" ∧ f.value = r.vendor ∨ f.key = "class" ∧ f.value = r.deviceClass)
  two_le : (∃ key ∈ fields, own key = none) → 2 ≤ r.families.length
  weighed : Weighed threshold active own r.confidence ↔ OverrulesNoWeaker active own

variable {threshold active own} {key : String} {f : EvidenceFact}

/-- The loop of `pick` ends with a fact of the highest confidence. -/
theorem pick_eq_some (h : pick active key = some f) : f ∈ active ∧ f.key = key ∧
    ∀ g ∈ active, g.key = key → g.confidence.place ≤ f.confidence.place := by
  unfold pick at h
  set step := fun (best : Option EvidenceFact) (f : EvidenceFact) => _ with hstep
  have hloop : ∀ l best, foldl step best l = some f → (f ∈ l ∨ best = some f) ∧
      ∀ g, g ∈ l ∨ best = some g → g.confidence.totalPlace ≤ f.confidence.totalPlace := by
    intro l
    induction l with
    | nil => simp
    | cons x l ih =>
      intro best hl
      obtain ⟨hmem, hle⟩ := ih _ hl
      cases best <;> grind
  obtain ⟨hmem, hle⟩ := hloop _ none h
  simp only [mem_filter, decide_eq_true_eq, reduceCtorEq, or_false] at hmem hle
  exact ⟨hmem.1, hmem.2, fun g hg hkey => F32.place_le_of_totalPlace (hle g ⟨hg, hkey⟩)⟩

theorem exists_pick (hf : f ∈ active) (hkey : f.key = key) : ∃ g, pick active key = some g := by
  unfold pick
  set step := fun (best : Option EvidenceFact) (f : EvidenceFact) => _ with hstep
  have hloop : ∀ l b, ∃ g, foldl step (some b) l = some g := by
    intro l
    induction l with
    | nil => exact fun b => ⟨b, rfl⟩
    | cons x l ih =>
      intro b
      rw [foldl_cons, hstep]
      dsimp only
      split_ifs
      · exact ih b
      · exact ih x
  have hmem : f ∈ active.filter (·.key = key) := mem_filter.2 ⟨hf, decide_eq_true hkey⟩
  obtain ⟨x, l, hcons⟩ := exists_cons_of_ne_nil (ne_nil_of_mem hmem)
  rw [hcons]
  exact hloop l x

variable (hconfidence : ∀ f ∈ active, f.confidence.isConfidence = true)
include hconfidence

/-- A confidence that is right, and not above the facts about the overruled field. -/
theorem overrules_of_weighed {c} (h : Weighed threshold active own c)
    (hle : (∃ key ∈ fields, own key = none) → ∀ key ∈ fields, ∀ g, pick active key = some g →
      c.place ≤ g.confidence.place) : OverrulesNoWeaker active own := by
  intro key hkey key' hkey' hown hown' f hf hfkey
  obtain ⟨g, hg⟩ := exists_pick hf hfkey
  obtain ⟨hgmem, hgkey, -⟩ := pick_eq_some hg
  refine ⟨g, hgmem, hgkey, fun f' hf' hfkey' => ?_⟩
  obtain ⟨key₁, hkey₁, hown₁, hbest⟩ := h.least ⟨key', hkey', hown'⟩
  -- there are two fields, and the owner has set the other one
  obtain rfl : key₁ = key' := by
    simp only [fields, mem_cons, not_mem_nil, or_false] at hkey hkey' hkey₁
    grind
  exact (F32.le_iff_place (hconfidence f' hf') (hconfidence g hgmem)).2
    ((hbest.2 f' hf' hfkey').2.2.trans (hle ⟨key₁, hkey', hown'⟩ key hkey g hg))

/-- The facts about an overruled field do not lower the confidence. -/
theorem le_elim_of_overrules (h : OverrulesNoWeaker active own) {key'} (hkey : key ∈ fields)
    (hkey' : key' ∈ fields) (hown : own key ≠ none) (hown' : own key' = none)
    (hf : pick active key' = some f) :
    f.confidence ≤ (pick active key).elim F32.one (·.confidence) := by
  obtain ⟨hf, hfkey, -⟩ := pick_eq_some hf
  cases hpick : pick active key with
  | none => exact F32.le_one (hconfidence f hf)
  | some g =>
    obtain ⟨hg, hgkey, hmax⟩ := pick_eq_some hpick
    obtain ⟨g', hg', hgkey', hle⟩ := h key hkey key' hkey' hown hown' g hg hgkey
    refine (F32.le_iff_place (hconfidence f hf) (hconfidence g hg)).2 ?_
    exact (hle f hf hfkey).2.2.trans (hmax g' hg' hgkey')

/-- The fact of the field with the least confidence among those that the owner has not set. -/
theorem weighed_of_pick (hkey : key ∈ fields) (hown : own key = none) (hf : pick active key = some f)
    (hle : threshold ≤ f.confidence) (hleast : ∀ key' ∈ fields, own key' = none →
      ∃ f', pick active key' = some f' ∧ f.confidence ≤ f'.confidence) :
    Weighed threshold active own f.confidence where
  owned h := absurd hown (h key hkey)
  least _ := by
    obtain ⟨hmem, hfkey, hmax⟩ := pick_eq_some hf
    refine ⟨key, hkey, hown, ⟨f, hmem, hfkey, rfl⟩, fun g hg hgkey => ?_⟩
    exact (F32.le_iff_place (hconfidence g hg) (hconfidence f hmem)).2 (hmax g hg hgkey)
  le key' hkey' hown' c hc := by
    obtain ⟨f', hf', hle'⟩ := hleast key' hkey' hown'
    obtain ⟨hmem, hfkey, -⟩ := pick_eq_some hf'
    have hbest := hc.2 f' hmem hfkey
    exact ⟨hle'.1, hbest.2.1, hle'.2.2.trans hbest.2.2⟩
  threshold_le := hle

variable (hthreshold : threshold.isConfidence = true)
include hthreshold

theorem supported_of_checks {value}
    (hvalue : (own key <|> (pick active key).map (·.value)) = some value)
    (hpicked : ¬((own key).isNone ∧ (pick active key).all (·.confidence < threshold)))
    (hagreed : ¬((own key).isNone ∧ active.any fun f =>
      f.key = key ∧ f.value ≠ value ∧ threshold ≤ f.confidence)) :
    Supported threshold active own key value ∧
      (own key = none → ∃ f, pick active key = some f ∧ threshold ≤ f.confidence) := by
  cases hown : own key with
  | some v =>
    rw [hown] at hvalue
    exact ⟨.inl (hown.trans hvalue), nofun⟩
  | none =>
    rw [hown] at hvalue hpicked hagreed
    obtain ⟨f, hf, rfl⟩ := map_eq_some_iff.1 (show (pick active key).map (·.value) = _ from hvalue)
    obtain ⟨hmem, hkey, -⟩ := pick_eq_some hf
    have hle : threshold ≤ f.confidence :=
      F32.le_of_not_lt (hconfidence f hmem) hthreshold (by simpa [hf] using hpicked)
    refine ⟨.inr ⟨hown, ⟨f, hmem, hkey, rfl, hle⟩, fun g hg hgkey hgle => ?_⟩, fun _ => ⟨f, hf, hle⟩⟩
    by_contra hne
    exact hagreed ⟨rfl, any_eq_true.2 ⟨g, hg, decide_eq_true ⟨hgkey, hne, hgle⟩⟩⟩

theorem identified_of_identify {r} (hpos : 0 < threshold.place)
    (h : identify threshold active own = some r) : Identified threshold active own r := by
  simp only [identify, bind_eq_bind, bind_eq_some_iff, guard_eq_some', exists_const, some.injEq] at h
  obtain ⟨vendor, hvendor, deviceClass, hclass, hpicked, hvendor', hclass', hfamilies, rfl⟩ := h
  rw [not_or] at hpicked
  obtain ⟨hv, hv'⟩ := supported_of_checks hconfidence hthreshold hvendor hpicked.1 hvendor'
  obtain ⟨hc, hc'⟩ := supported_of_checks hconfidence hthreshold hclass hpicked.2 hclass'
  have hmem : "class" ∈ fields := mem_cons_of_mem _ mem_cons_self
  refine ⟨hv, hc, nodup_sortDedup, fun family => ?_, fun hnone => ?_,
    fun hweighed => overrules_of_weighed hconfidence hweighed fun hnone key hkey g hg => ?_,
    fun hover => ?_⟩
  · simp only [sortfam, mem_sortDedup, List.mem_map, mem_filter, decide_eq_true_eq]
    grind
  · rw [not_and, not_lt] at hfamilies
    exact hfamilies (by simpa [fields] using hnone)
  · have hnan : ∀ key, ((pick active key).elim F32.one (·.confidence)).isNan = false := by
      intro key
      cases hpick : pick active key with
      | none => rfl
      | some g => exact (F32.le_one (hconfidence g (pick_eq_some hpick).1)).1
    have hmin := F32.place_min_le (hnan "vendor") (hnan "class")
    rw [if_neg (by simp only [fields] at hnone; grind)]
    obtain rfl | rfl : key = "vendor" ∨ key = "class" := by simpa [fields] using hkey
    · exact hmin.1.trans_eq (by rw [hg]; rfl)
    · exact hmin.2.trans_eq (by rw [hg]; rfl)
  dsimp only
  -- the owner has set both fields, one of them, or none
  cases hov : own "vendor" with
  | some v =>
    cases hoc : own "class" with
    | some c =>
      exact ⟨fun _ => rfl, by simp [fields, hov, hoc], by simp [fields, hov, hoc], F32.le_one hthreshold⟩
    | none =>
      obtain ⟨f, hf, hle⟩ := hc' hoc
      have hover := le_elim_of_overrules hconfidence hover mem_cons_self hmem
        (show own "vendor" ≠ none by simp [hov]) hoc hf
      rw [hf, if_neg (by simp), elim_some, (F32.min_eq_of_le hover).2 (hpos.trans_le hle.2.2)]
      exact weighed_of_pick hconfidence hmem hoc hf hle
        (by simpa [fields, hov, hoc, hf] using ⟨hle.2.1, hle.2.1, le_rfl⟩)
  | none =>
    obtain ⟨f, hf, hle⟩ := hv' hov
    cases hoc : own "class" with
    | some c =>
      have hover := le_elim_of_overrules hconfidence hover hmem mem_cons_self
        (show own "class" ≠ none by simp [hoc]) hov hf
      rw [hf, if_neg (by simp), elim_some, (F32.min_eq_of_le hover).1]
      exact weighed_of_pick hconfidence mem_cons_self hov hf hle
        (by simpa [fields, hov, hoc, hf] using ⟨hle.2.1, hle.2.1, le_rfl⟩)
    | none =>
      obtain ⟨g, hg, hgle⟩ := hc' hoc
      rw [hf, hg, if_neg (by simp), elim_some, elim_some]
      obtain hplace | hplace := le_total f.confidence.place g.confidence.place
      · have hfg : f.confidence ≤ g.confidence := ⟨hle.2.1, hgle.2.1, hplace⟩
        rw [(F32.min_eq_of_le hfg).1]
        exact weighed_of_pick hconfidence mem_cons_self hov hf hle
          (by simpa [fields, hov, hoc, hf, hg] using ⟨⟨hle.2.1, hle.2.1, le_rfl⟩, hfg⟩)
      · have hgf : g.confidence ≤ f.confidence := ⟨hgle.2.1, hle.2.1, hplace⟩
        rw [(F32.min_eq_of_le hgf).2 (hpos.trans_le hgle.2.2)]
        exact weighed_of_pick hconfidence hmem hoc hg hgle
          (by simpa [fields, hov, hoc, hf, hg] using ⟨hgf, hgle.2.1, hgle.2.1, le_rfl⟩)

end Identify

theorem confidence_of_reachable {engine} (h : identityMachine.Reachable engine)
    {d fs} (hget : engine.facts.get d = some fs) : ∀ f ∈ fs, f.confidence.isConfidence = true := by
  have hinvariant : engine.StoreOk ∧ ∀ {d fs}, engine.facts.get d = some fs →
      ∀ f ∈ fs, f.confidence.isConfidence = true := by
    refine Machine.Via.invariant h (I := fun engine => engine.StoreOk ∧ ∀ {d fs},
      engine.facts.get d = some fs → ∀ f ∈ fs, f.confidence.isConfidence = true) ?_ ?_
    · rintro engine ⟨cfg, ids, hnew⟩
      refine ⟨storeOk_of_new hnew, ?_⟩
      unfold new at hnew
      split at hnew <;> cases hnew
      simp
    · rintro engine call engine' ⟨hstore, hfacts⟩ - hstep
      cases hstep
      have hchange := hstore.change call
      refine ⟨hstore.of_change hchange, hchange.facts_all hfacts fun _ f _ g hg => ?_⟩
      simp only [prepareFact, Except.bind_eq_ok, Except.pure_eq_ok, reject_eq_ok, Bool.not_eq_false] at hg
      obtain ⟨-, hconfidence, -, -, -, -, -, -, _, -, rfl⟩ := hg
      dsimp only
      split_ifs
      · exact F32.isConfidence_min hconfidence
          (IdentityConfig.isConfidence_routerHintCap engine.cfg_valid)
      · exact hconfidence
  exact hinvariant.2 hget

/-- **Identification is supported**: what a device is identified as is what the owner says, or what
confident facts of its component say without contradiction, in two families unless the owner has set
both fields; and the confidence is the least one of the fields that the owner has not set just when no
facts that they have overruled are weaker. -/
theorem identified_supported {engine : IdentityEngine} (h : identityMachine.Reachable engine)
    {id : DeviceId} {now : DateTime} {r : Identification}
    (hr : engine.identificationAt id now = .ok (some r)) : ∃ c, engine.component id = .ok c ∧
      Identified engine.cfg.autoIdentificationThreshold
        ((c.flatMap engine.factsOf).filter (comparable now)) (engine.own c) r := by
  simp only [identificationAt, Except.bind_eq_ok, Except.pure_eq_ok] at hr
  obtain ⟨c, hc, refs, hrefs, hr⟩ := hr
  rw [refs_eq_ok hrefs] at hr
  have hcfg := engine.cfg_valid
  simp only [IdentityConfig.valid, Except.bind_eq_ok, reject_eq_ok, not_or] at hcfg
  obtain ⟨_, hall, _, hsafe, -⟩ := hcfg
  obtain ⟨_, hthreshold, -⟩ := Except.bind_eq_ok.1 hall
  rw [reject_eq_ok, Bool.not_eq_false] at hthreshold
  refine ⟨c, hc, identified_of_identify (fun f hf => ?_) hthreshold ?_ hr⟩
  · obtain ⟨d, -, hf⟩ := mem_flatMap.1 (mem_filter.1 hf).1
    obtain ⟨fs, hget, hf⟩ := mem_factsOf.1 hf
    exact confidence_of_reachable h hget f hf
  · exact lt_of_lt_of_le (by decide) (F32.le_of_not_lt hthreshold rfl hsafe.1).2.2

/-- Two families know the class of a device.  A fact names its vendor, and then the owner does. -/
def namedVendor (confidence : F32) : List IdentityCall :=
  [.observeAt none [sureFact .service "class" "camera", sureFact .naming "class" "camera",
      { sureFact .service "vendor" "acme" with confidence }] (halfSecond 0),
    .setOwnerFact 1 "vendor" "axis" (halfSecond 2)]

theorem namedVendor_identified : ∃ engine r c, identityMachine.Reachable engine ∧
    engine.identificationAt 1 (halfSecond 4) = .ok (some r) ∧ engine.component 1 = .ok c ∧
    Weighed engine.cfg.autoIdentificationThreshold
      ((c.flatMap engine.factsOf).filter (comparable (halfSecond 4))) (engine.own c) r.confidence := by
  obtain ⟨engine, h, hr, hc, hover⟩ := reachable_of_run .default [1] (namedVendor .one)
    (p := fun engine => engine.identificationAt 1 (halfSecond 4) =
        .ok (some ⟨"axis", "camera", none, none, .one, [.naming, .service]⟩) ∧
      engine.component 1 = .ok [1] ∧ OverrulesNoWeaker
        (([1].flatMap engine.factsOf).filter (comparable (halfSecond 4))) (engine.own [1]))
    (by decide +kernel)
  obtain ⟨c, hc', hidentified⟩ := identified_supported h hr
  obtain rfl := Except.ok.inj (hc.symm.trans hc')
  exact ⟨engine, _, _, h, hr, hc, hidentified.weighed.2 hover⟩

/-- The owner's word for the vendor leaves the low confidence of the fact that they overrule. -/
theorem overruled_confidence : ∃ engine r, identityMachine.Reachable engine ∧
    engine.identificationAt 1 (halfSecond 4) = .ok (some r) ∧ r.vendor = "axis" ∧
    r.confidence < engine.cfg.autoIdentificationThreshold := by
  obtain ⟨engine, h, hr, hthreshold⟩ := reachable_of_run .default [1] (namedVendor F32.one.quarter)
    (p := fun engine => engine.identificationAt 1 (halfSecond 4) =
        .ok (some ⟨"axis", "camera", none, none, F32.one.quarter, [.naming, .service]⟩) ∧
      F32.one.quarter < engine.cfg.autoIdentificationThreshold) (by decide +kernel)
  exact ⟨engine, _, h, hr, rfl, hthreshold⟩

end NeonHearth.Identity
