import NeonHearth.Identity.Restore

/-!
# The bounds of what is stored

Every engine keeps its store in order (`StoreOk`), whatever it is asked to do.  The lengths of the
texts in it are another matter.  A hardware address is measured before it is written out in full, and
the owner's keys are not measured at all, so the bounds on texts hold only in runs whose calls meet
`KeepsBounds`.

* `storeOk_of_keepsBounds` : the store is in order and all its bounds hold;
* `overlong_texts` : texts that are longer than the configuration allows.
-/

namespace NeonHearth.Identity

open Option IdentityEngine List

namespace IdentityEngine

/-- The texts in the store keep to the configured lengths. -/
structure TextsOk (engine : IdentityEngine) : Prop where
  facts : ∀ {id fs}, engine.facts.get id = some fs → ∀ f ∈ fs,
    f.key.utf8ByteSize ≤ engine.cfg.maxKeyLen ∧ f.value.utf8ByteSize ≤ engine.cfg.maxValueLen ∧
      f.source.utf8ByteSize ≤ engine.cfg.maxSourceLen
  keys : ∀ o ∈ engine.owners, o.key.utf8ByteSize ≤ engine.cfg.maxKeyLen
  values : ∀ o ∈ engine.owners, ∀ v ∈ o.value, v.utf8ByteSize ≤ engine.cfg.maxValueLen

/-- There is room for the texts of the call: for a hardware address in full, and for the owner's key. -/
def KeepsBounds (engine : IdentityEngine) : IdentityCall → Prop
  | .observeAt _ facts _ | .addFactsAt _ facts _ =>
    ∀ f ∈ facts, f.key = "mac" → 17 ≤ engine.cfg.maxValueLen
  | .setOwnerFact _ key _ _ | .clearOwnerFactAt _ key _ => key.utf8ByteSize ≤ engine.cfg.maxKeyLen
  | .proposeMerge _ _ _ _ _ | .decide _ _ | .undo _ | .evictStaleAt _ _ => True

instance (engine : IdentityEngine) (call : IdentityCall) : Decidable (engine.KeepsBounds call) := by
  induction call using IdentityCall.casesOn <;> dsimp only [KeepsBounds] <;> infer_instance

variable {engine engine' : IdentityEngine} {call : IdentityCall}

theorem KeepsBounds.room (h : engine.KeepsBounds call) {facts now}
    (hcall : call.brings = some (facts, now)) :
    ∀ f ∈ facts, f.key = "mac" → 17 ≤ engine.cfg.maxValueLen := by
  cases call with
  | observeAt | addFactsAt =>
    cases hcall
    exact h
  | _ => cases hcall

theorem KeepsBounds.key_le (h : engine.KeepsBounds call) {id key value at'}
    (hcall : call.states = some (id, key, value, at')) :
    key.utf8ByteSize ≤ engine.cfg.maxKeyLen := by
  cases call with
  | setOwnerFact | clearOwnerFactAt =>
    cases hcall
    exact h
  | _ => cases hcall

theorem bounds_of_prepared {cfg f} (h : Prepared cfg f) :
    f.key.utf8ByteSize ≤ cfg.maxKeyLen ∧ f.value.utf8ByteSize ≤ cfg.maxValueLen ∧
      f.source.utf8ByteSize ≤ cfg.maxSourceLen := by
  have hbounds := h.bounds
  simp only [not_or, not_lt] at hbounds
  exact ⟨hbounds.2.1, hbounds.2.2.2.1, hbounds.2.2.2.2.2⟩

/-- What the owner says is measured when it is recorded. -/
theorem StoreOk.values_le (h : engine.StoreOk) :
    ∀ o ∈ engine.owners, ∀ v ∈ o.value, v.utf8ByteSize ≤ engine.cfg.maxValueLen := by
  intro o ho v hv
  have hvalue := (h.owners.owners_ok o ho).value
  rw [mem_def] at hv
  rw [hv, any_some, Bool.or_eq_true, decide_eq_true_eq, decide_eq_true_eq, not_or, not_lt] at hvalue
  exact hvalue.2

theorem TextsOk.of_change (h : engine.TextsOk) (hstore : engine.StoreOk)
    (hkeeps : engine.KeepsBounds call) (hchange : Change engine call engine') : engine'.TextsOk where
  facts := by
    rw [hchange.cfg]
    refine hchange.facts_all h.facts fun hcall f hf g hg => ?_
    exact bounds_of_prepared (prepared_of_prepareFact engine.cfg_valid hg (hkeeps.room hcall f hf))
  keys := by
    rw [hchange.cfg]
    exact hchange.owners_all h.keys fun hcall _ _ => hkeeps.key_le hcall
  values := (hstore.of_change hchange).values_le

end IdentityEngine

/-- **The store in order**: in a run whose calls leave room for their texts, proposals, edges, audit and
owner records fit together, they mention only devices with facts, and no bound is exceeded. -/
theorem storeOk_of_keepsBounds {engine : IdentityEngine}
    (h : identityMachine.Via IdentityEngine.KeepsBounds engine) :
    engine.StoreOk ∧ engine.TextsOk ∧ ∀ id e, engine.edges.get id = some e →
      engine.facts.get e.a ≠ none ∧ engine.facts.get e.b ≠ none := by
  have hstore := storeOk_of_reachable h.reachable
  refine ⟨hstore, ?_, fun id e he => hstore.merges.ends_known he⟩
  have hinvariant : engine.StoreOk ∧ engine.TextsOk := by
    refine h.invariant (I := fun engine => engine.StoreOk ∧ engine.TextsOk) ?_ ?_
    · rintro engine ⟨cfg, ids, hnew⟩
      refine ⟨storeOk_of_new hnew, ?_⟩
      unfold new at hnew
      split at hnew
      · cases hnew
      · cases hnew
        exact ⟨by simp, by simp, by simp⟩
    · rintro engine call engine' ⟨hstore, htexts⟩ hkeeps hstep
      cases hstep
      have hchange := hstore.change call
      exact ⟨hstore.of_change hchange, htexts.of_change hstore hkeeps hchange⟩
  exact hinvariant.2

/-- Two merged devices, the merge undone, and a third device that is forgotten. -/
def evictedDevice : List IdentityCall :=
  mergedDevices ++ [.undo 1,
    .observeAt none [{ sureFact .naming "hostname" "guest" with expiresAt := some (halfSecond 8) }]
      (halfSecond 6), .evictStaleAt (halfSecond 100) (seconds 10)]

theorem evictedDevice_storeOk : ∃ engine : IdentityEngine,
    identityMachine.Via IdentityEngine.KeepsBounds engine ∧
    engine.facts.toList.map Prod.fst = [1, 2] ∧ engine.audit.map (·.action) = [.accepted, .undone] ∧
    engine.StoreOk ∧ engine.TextsOk ∧ ∀ id e, engine.edges.get id = some e →
      engine.facts.get e.a ≠ none ∧ engine.facts.get e.b ≠ none := by
  obtain ⟨engine₀, hnew, engine, hexec, hfacts, haudit, hkeeps⟩ :
      ∃ engine₀, new .default [1, 2, 3] = .ok engine₀ ∧
        ∃ engine, identityMachine.exec engine₀ evictedDevice = some engine ∧
          engine.facts.toList.map Prod.fst = [1, 2] ∧
          engine.audit.map (·.action) = [.accepted, .undone] ∧
          identityMachine.Guarded IdentityEngine.KeepsBounds engine₀ evictedDevice := by
    decide +kernel
  have hvia : identityMachine.Via IdentityEngine.KeepsBounds engine :=
    Machine.Via.exec (.start ⟨_, _, hnew⟩) hkeeps hexec
  exact ⟨engine, hvia, hfacts, haudit, storeOk_of_keepsBounds hvia⟩

/-- A hardware address of 14 characters is stored with 17 where 16 are allowed, and a key of the owner
with 8 where 4 are. -/
theorem overlong_texts : (∃ engine, identityMachine.Reachable engine ∧ engine.cfg.maxValueLen = 16 ∧
      (engine.factsOf 1).map (·.value.utf8ByteSize) = [17] ∧ ¬engine.TextsOk) ∧
    ∃ engine, identityMachine.Reachable engine ∧ engine.cfg.maxKeyLen = 4 ∧
      engine.owners.map (·.key.utf8ByteSize) = [8] ∧ ¬engine.TextsOk := by
  constructor
  · obtain ⟨engine, h, hmax, hvalues⟩ := reachable_of_run
      { IdentityConfig.default with maxValueLen := 16 } [1] dottedMac
      (p := fun engine => engine.cfg.maxValueLen = 16 ∧
        (engine.factsOf 1).map (·.value.utf8ByteSize) = [17]) (by decide +kernel)
    refine ⟨engine, h, hmax, hvalues, fun htexts => ?_⟩
    obtain ⟨f, hf, hlength⟩ : ∃ f ∈ engine.factsOf 1, f.value.utf8ByteSize = 17 :=
      mem_map.1 (hvalues ▸ mem_singleton_self 17)
    obtain ⟨fs, hget, hf⟩ := mem_factsOf.1 hf
    have hle := (htexts.facts hget f hf).2.1
    omega
  · obtain ⟨engine, h, hmax, hkeys⟩ := reachable_of_run
      { IdentityConfig.default with maxKeyLen := 4 } [1] longKey
      (p := fun engine => engine.cfg.maxKeyLen = 4 ∧
        engine.owners.map (·.key.utf8ByteSize) = [8]) (by decide +kernel)
    refine ⟨engine, h, hmax, hkeys, fun htexts => ?_⟩
    obtain ⟨o, ho, hlength⟩ : ∃ o ∈ engine.owners, o.key.utf8ByteSize = 8 :=
      mem_map.1 (hkeys ▸ mem_singleton_self 8)
    have hle := htexts.keys o ho
    omega

end NeonHearth.Identity
