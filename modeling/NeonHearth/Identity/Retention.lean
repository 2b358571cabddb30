import NeonHearth.Identity.Restore

/-!
# Eviction and retention

A device is forgotten when all facts that it still has are old.  But facts that expire are dropped when
new ones are stored, for the device itself or for another one in its component, so what it still has may
be older than what it was seen with.  In runs that drop a fact only in favour of one that was observed
at least as late (`KeepsNewest`), no device is forgotten that was seen within the retention.

* `retained_of_keepsNewest` : what was seen within the retention stays;
* `lateFact_evicts` : a device that is forgotten although it was seen within the retention.
-/

namespace NeonHearth.Identity

open IdentityEngine SortedMap List Option

namespace IdentityEngine

/-- The facts that a call files, with the device they are filed for. -/
def filed (engine : IdentityEngine) : IdentityCall → List (DeviceId × EvidenceFact)
  | .observeAt id facts now =>
    match (engine.observeAt id facts now).2 with
    | .ok device => facts.map fun f => (id.getD device, f)
    | .error _ => []
  | .addFactsAt id facts now =>
    match (engine.addFactsAt id facts now).2 with
    | .ok _ => facts.map fun f => (id, f)
    | .error _ => []
  | _ => []

end IdentityEngine

/-- An engine and the facts that it accepted, the latest first. -/
structure FilingEngine where
  engine : IdentityEngine
  log : List (DeviceId × EvidenceFact)

def filingMachine : Machine FilingEngine IdentityCall where
  init s := (∃ cfg ids, new cfg ids = .ok s.engine) ∧ s.log = []
  step s call := some ⟨s.engine.after call, s.engine.filed call ++ s.log⟩

/-! ### The condition -/

namespace IdentityEngine

/-- What storing facts drops, it drops in favour of a fact that was observed at least as late: one that
the device still has, or one that is stored for it. -/
def DropsOlder (engine : IdentityEngine) (id : DeviceId) (incoming : List EvidenceFact)
    (now : DateTime) : Prop :=
  match engine.component id with
  | .error _ => True
  | .ok c => ∀ d ∈ c, ∀ f ∈ engine.factsOf d, live f now = false →
    (∃ g ∈ engine.factsOf d, live g now = true ∧ f.observedAt ≤ g.observedAt) ∨
      d = id ∧ engine.liveCount c now + incoming.length ≤ engine.cfg.maxFactsPerDevice ∧
        ∃ g ∈ incoming, f.observedAt ≤ g.observedAt

instance (engine : IdentityEngine) (id : DeviceId) (incoming : List EvidenceFact) (now : DateTime) :
    Decidable (engine.DropsOlder id incoming now) := by
  unfold DropsOlder
  generalize engine.component id = c
  induction c using Except.casesOn <;> infer_instance

/-- A call that stores facts for a known device drops only older ones. -/
def KeepsNewest (engine : IdentityEngine) (call : IdentityCall) : Prop :=
  ∀ x ∈ engine.target call, engine.DropsOlder x.1 x.2.1 x.2.2
  deriving Decidable

/-! ### What the calls keep -/

variable {engine engine' : IdentityEngine} {call : IdentityCall} {d id : DeviceId}
  {fs fs' incoming : List EvidenceFact} {f : EvidenceFact} {now : DateTime}

/-- A fact that has not expired is not dropped. -/
theorem mem_pruned_of_live {c} (hget : engine.facts.get d = some fs) (hf : f ∈ fs)
    (hlive : live f now = true) (hget' : (engine.pruned c now).get d = some fs') : f ∈ fs' := by
  rw [get_pruned, hget] at hget'
  split_ifs at hget'
  · cases hget'
    exact mem_filter.2 ⟨hf, hlive⟩
  · cases hget'
    exact hf

/-- Dropping expired facts, a device keeps one that was observed as late as any, or gets one. -/
theorem DropsOlder.pruned (h : engine.DropsOlder id incoming now) {c}
    (hc : engine.component id = .ok c) (hget : engine.facts.get d = some fs) (hf : f ∈ fs)
    (hget' : (engine.pruned c now).get d = some fs') :
    (∃ g ∈ fs', f.observedAt ≤ g.observedAt) ∨
      d = id ∧ engine.liveCount c now + incoming.length ≤ engine.cfg.maxFactsPerDevice ∧
        ∃ g ∈ incoming, f.observedAt ≤ g.observedAt := by
  by_cases hlive : live f now = true
  · exact .inl ⟨f, mem_pruned_of_live hget hf hlive hget', le_rfl⟩
  by_cases hd : d ∈ c
  · rw [DropsOlder, hc] at h
    have hstored : engine.factsOf d = fs := by rw [factsOf, hget, getD_some]
    refine (h d hd f (hstored ▸ hf) (Bool.eq_false_iff.2 hlive)).imp_left ?_
    rintro ⟨g, hg, hglive, hle⟩
    exact ⟨g, mem_pruned_of_live hget (hstored ▸ hg) hglive hget', hle⟩
  · rw [get_pruned, if_neg hd, hget] at hget'
    cases hget'
    exact .inl ⟨f, hf, le_rfl⟩

variable {outcome : IdentityEngine × Except IdentityError Unit}

theorem Storing.newest
    (h : Storing engine id incoming now outcome) (hdrops : engine.DropsOlder id incoming now)
    (hget : engine.facts.get d = some fs) (hf : f ∈ fs) (hget' : outcome.1.facts.get d = some fs') :
    ∃ g ∈ fs', f.observedAt ≤ g.observedAt := by
  cases h with
  | unknown =>
    cases hget.symm.trans hget'
    exact ⟨f, hf, le_rfl⟩
  | full hc hfull =>
    obtain hkept | ⟨-, hroom, -⟩ := hdrops.pruned hc hget hf hget'
    · exact hkept
    · exact absurd hroom (not_le.2 hfull)
  | @stored c gs hc hgs hroom =>
    obtain ⟨fs₁, hfs₁⟩ : ∃ fs₁, (engine.pruned c now).get d = some fs₁ :=
      ne_none_iff_exists'.1 (get_pruned_eq_none.not.2 (hget ▸ some_ne_none _))
    have hkept := hdrops.pruned hc hget hf hfs₁
    rw [get_insert] at hget'
    split_ifs at hget' with hd
    · subst hd
      cases hget'
      cases hget.symm.trans hgs
      rw [get_pruned, if_pos (self_mem_component hc), hgs] at hfs₁
      cases hfs₁
      obtain ⟨g, hg, hle⟩ | ⟨-, -, g, hg, hle⟩ := hkept
      · exact ⟨g, mem_append_left _ hg, hle⟩
      · exact ⟨g, mem_append_right _ hg, hle⟩
    · cases hfs₁.symm.trans hget'
      exact hkept.resolve_right fun h => hd h.1

theorem Change.newest (h : Change engine call engine') (hkeeps : engine.KeepsNewest call)
    (hget : engine.facts.get d = some fs) (hf : f ∈ fs) (hget' : engine'.facts.get d = some fs') :
    ∃ g ∈ fs', f.observedAt ≤ g.observedAt := by
  -- All but storing leave the facts of a device that stays as they are.
  have hsame : engine.facts.get d = some fs' → ∃ g ∈ fs', f.observedAt ≤ g.observedAt := by
    intro hget'
    cases hget.symm.trans hget'
    exact ⟨f, hf, le_rfl⟩
  have hrefiling := h.refiling
  generalize engine'.facts = facts', engine'.ids = ids' at hrefiling hget'
  cases hrefiling with
  | same => exact hsame hget'
  | stored _ _ htarget hstoring => exact hstoring.newest (hkeeps _ htarget) hget hf hget'
  | enrolled _ _ _ hnew =>
    have hne : d ≠ _ := fun heq => some_ne_none fs (hget.symm.trans (heq ▸ hnew))
    rw [get_insert, if_neg hne] at hget'
    exact hsame hget'
  | evicted =>
    exact hsame (Option.filter_eq_some_iff.1 ((SortedMap.get_filter ..).symm.trans hget')).1

/-- A device gets its first facts under an id that was left. -/
theorem Change.known (h : Change engine call engine') (hget : engine'.facts.get d ≠ none) :
    engine.facts.get d ≠ none ∨ d ∈ engine.ids := by
  have hrefiling := h.refiling
  generalize engine'.facts = facts', engine'.ids = ids' at hrefiling hget
  cases hrefiling with
  | same => exact .inl hget
  | stored _ _ _ hstoring =>
    obtain ⟨facts, heq, hnone, -⟩ := hstoring.refacts
    rw [heq] at hget
    exact .inl ((hnone d).not.1 hget)
  | enrolled _ _ hhead =>
    rw [get_insert] at hget
    split_ifs at hget with hd
    · exact .inr (hd ▸ mem_of_mem_head? hhead)
    · exact .inl hget
  | evicted => exact .inl (get_filter_ne_none.1 hget).1

theorem Change.ids_subset (h : Change engine call engine') : engine'.ids ⊆ engine.ids := by
  have hrefiling := h.refiling
  generalize engine'.facts = facts', engine'.ids = ids' at hrefiling ⊢
  cases hrefiling with
  | same | stored | evicted => exact List.Subset.refl _
  | enrolled => exact tail_subset _

/-! ### What is filed -/

/-- A fact that is stored for a device is there. -/
def Files (engine : IdentityEngine) (d : DeviceId) (f : EvidenceFact) : Prop :=
  ∃ fs, engine.facts.get d = some fs ∧ ∃ g ∈ fs, f.observedAt ≤ g.observedAt

variable {facts prepared : List EvidenceFact}

theorem files_of_prepare {cfg} (hprepare : prepare cfg facts = .ok prepared) (hf : f ∈ facts)
    (hget : engine.facts.get d = some fs) (hsub : prepared ⊆ fs) : engine.Files d f := by
  obtain ⟨g, hg, hfact⟩ := forall₂_exists_right (mapM_eq_ok.1 hprepare) hf
  exact ⟨fs, hget, g, hsub hg, (prepareFact_times hfact).1.ge⟩

theorem Storing.files {cfg} (h : Storing engine id prepared now outcome) (hok : outcome.2 = .ok ())
    (hprepare : prepare cfg facts = .ok prepared) (hf : f ∈ facts) : outcome.1.Files id f := by
  cases h with
  | unknown | full => cases hok
  | stored hc hget hroom =>
    exact files_of_prepare hprepare hf (get_insert_self ..) (subset_append_right _ _)

theorem files_of_filed {x} (h : x ∈ engine.filed call) : (engine.after call).Files x.1 x.2 := by
  cases call with
  | observeAt id facts now =>
    change (engine.observeAt id facts now).1.Files _ _
    have hobserving := observeAt_observing engine id facts now
    unfold filed at h
    dsimp only at h
    generalize engine.observeAt id facts now = outcome at hobserving h ⊢
    cases hobserving with
    | refused => cases h
    | @named device root prepared outcome hprepare hroot hstore
    | @matched root prepared found outcome hprepare hfound hauto hstore =>
      cases hresult : outcome.2 with
      | error e =>
        rw [hresult] at h
        cases h
      | ok =>
        rw [hresult] at h
        obtain ⟨f, hf, rfl⟩ := mem_map.1 h
        exact hstore.files hresult hprepare hf
    | enrolled hprepare hfound hauto henroll =>
      obtain ⟨f, hf, rfl⟩ := mem_map.1 h
      obtain ⟨-, -, -, rfl⟩ := enroll_eq_ok.1 henroll
      rw [proposeAll_eq]
      exact files_of_prepare hprepare hf (get_insert_self ..) (List.Subset.refl _)
  | addFactsAt id facts now =>
    change (engine.addFactsAt id facts now).1.Files _ _
    unfold filed at h
    dsimp only at h
    unfold addFactsAt at h ⊢
    cases hprepare : prepare engine.cfg facts with
    | error e =>
      rw [hprepare] at h
      cases h
    | ok prepared =>
      rw [hprepare] at h
      dsimp only at h ⊢
      cases hresult : (engine.store id prepared now).2 with
      | error e =>
        rw [hresult] at h
        cases h
      | ok =>
        rw [hresult] at h
        obtain ⟨f, hf, rfl⟩ := mem_map.1 h
        exact (store_storing engine id prepared now).files hresult hprepare hf
  | _ => cases h

end IdentityEngine

/-! ### Runs -/

/-- A device that was seen still has a fact that was observed as late, unless it was forgotten; then its
id is not used again. -/
structure Retained (s : FilingEngine) : Prop where
  store : s.engine.StoreOk
  ids : IdsOk s.engine.cfg s.engine.facts s.engine.ids
  used : ∀ x ∈ s.log, x.1 ∉ s.engine.ids
  newest : ∀ x ∈ s.log, ∀ fs, s.engine.facts.get x.1 = some fs → ∃ g ∈ fs, x.2.observedAt ≤ g.observedAt

theorem Retained.step {s s' call} (h : Retained s)
    (hkeeps : s.engine.KeepsNewest call) (hstep : filingMachine.step s call = some s') :
    Retained s' := by
  cases hstep
  have hchange := h.store.change call
  have hids := IdentityEngine.IdsOk.of_change h.ids hchange
  refine ⟨h.store.of_change hchange, hids, fun x hx hmem => ?_, fun x hx fs' hget' => ?_⟩
  · obtain hx | hx := mem_append.1 hx
    · obtain ⟨fs, hget, -⟩ := files_of_filed hx
      exact some_ne_none fs (hget.symm.trans (hids.fresh _ hmem))
    · exact h.used x hx (hchange.ids_subset hmem)
  · obtain hx | hx := mem_append.1 hx
    · obtain ⟨fs, hget, hnewest⟩ := files_of_filed hx
      cases hget.symm.trans hget'
      exact hnewest
    obtain hknown | hmem := hchange.known (hget' ▸ some_ne_none _)
    · obtain ⟨fs, hget⟩ := ne_none_iff_exists'.1 hknown
      obtain ⟨g, hg, hle⟩ := h.newest x hx fs hget
      obtain ⟨g', hg', hle'⟩ := hchange.newest hkeeps hget hg hget'
      exact ⟨g', hg', hle.trans hle'⟩
    · exact absurd hmem (h.used x hx)

theorem old_of_evicted {engine : IdentityEngine} {comps : List (List DeviceId)} {now cutoff d}
    (h : d ∈ (comps.filter (engine.evicts now cutoff)).flatten) :
    ∀ f ∈ engine.factsOf d, f.observedAt < cutoff := by
  intro f hf
  obtain ⟨c, hc, hd⟩ := mem_flatten.1 h
  have hevicts := (mem_filter.1 hc).2
  simp only [evicts, Bool.and_eq_true, List.all_eq_true, decide_eq_true_eq] at hevicts
  exact (hevicts.1.1 d hd f hf).2

/-- **Retention**: in a run that drops facts only in favour of newer ones, a device for which a fact was
accepted that was observed within the retention is not forgotten. -/
theorem retained_of_keepsNewest {cfg : IdentityConfig} {ids : List DeviceId}
    {engine₀ : IdentityEngine} {s : FilingEngine} {calls : List IdentityCall}
    (hids : (ids.take cfg.maxDevices).Nodup) (hnew : new cfg ids = .ok engine₀)
    (hkeeps : filingMachine.Guarded (fun s => s.engine.KeepsNewest) ⟨engine₀, []⟩ calls)
    (hexec : filingMachine.exec ⟨engine₀, []⟩ calls = some s) {now cutoff : DateTime} {retention : ℤ}
    (hcutoff : now.checkedSubSigned retention = some cutoff)
    {result : IdentityEngine × List DeviceId}
    (hevict : s.engine.evictStaleAt now retention = .ok result) :
    ∀ x ∈ s.log, cutoff ≤ x.2.observedAt →
      x.1 ∉ result.2 ∧ result.1.facts.get x.1 = s.engine.facts.get x.1 := by
  have hretained : Retained s := by
    refine Machine.exec_invariant (I := Retained) (fun _ _ _ h hg => h.step hg) ?_ hkeeps hexec
    have hok := restorable_of_new hids hnew
    exact ⟨hok.toStoreOk, hok.ids, by simp, by simp⟩
  intro x hx hle
  obtain ⟨cutoff', comps, hcutoff', hcomps, rfl⟩ := evictStaleAt_eq_ok.1 hevict
  cases hcutoff.symm.trans hcutoff'
  have hkept : x.1 ∉ (comps.filter (s.engine.evicts now cutoff)).flatten := by
    intro hmem
    obtain ⟨c, hc, hd⟩ := mem_flatten.1 hmem
    obtain ⟨id, hc⟩ := mem_components hcomps c (mem_of_mem_filter hc)
    obtain ⟨fs, hget⟩ := ne_none_iff_exists'.1 (hretained.store.component_known hc _ hd)
    obtain ⟨g, hg, hge⟩ := hretained.newest x hx fs hget
    have hold := old_of_evicted hmem g (by rwa [factsOf, hget])
    exact absurd (hle.trans hge) (not_le.2 hold)
  split_ifs
  · exact ⟨hkept, rfl⟩
  · refine ⟨fun hmem => hkept ((mem_insertionSort _).1 hmem), ?_⟩
    refine (SortedMap.get_filter ..).trans ?_
    cases s.engine.facts.get x.1 <;> simp [hkept]

/-- A serial number that was seen at one time and holds until another. -/
def seenUntil (value : String) (observed until' : Fin 20000) : EvidenceFact :=
  { sureFact .service "serial" value with
    observedAt := halfSecond observed
    expiresAt := some (halfSecond until') }

/-- One device is seen twice, the other one only at the beginning. -/
def seenAgain : List IdentityCall :=
  [.observeAt none [seenUntil "s-1" 0 4] (halfSecond 0),
    .observeAt none [seenUntil "s-2" 0 4] (halfSecond 0),
    .observeAt (some 1) [seenUntil "s-1" 20 24] (halfSecond 20)]

/-- A fact about the device arrives late, after a newer one has expired. -/
def lateFact : List IdentityCall :=
  [.observeAt none [seenUntil "s-1" 20 22] (halfSecond 20),
    .addFactsAt 1 [seenUntil "s-1" 2 42] (halfSecond 40)]

/-- The ids that are forgotten at a time after a run, with the ids of the log. -/
def forgottenAfter (ids : List DeviceId) (calls : List IdentityCall) (now : DateTime) (retention : ℤ) :
    Option (List (DeviceId × DateTime) × List DeviceId) := do
  let engine₀ ← (new .default ids).toOption
  let s ← filingMachine.exec ⟨engine₀, []⟩ calls
  let result ← (s.engine.evictStaleAt now retention).toOption
  some (s.log.map fun x => (x.1, x.2.observedAt), result.2)

theorem seenAgain_retained : ∃ engine₀ s result, new .default [1, 2] = .ok engine₀ ∧
    filingMachine.exec ⟨engine₀, []⟩ seenAgain = some s ∧
    s.engine.evictStaleAt (halfSecond 40) (seconds 15) = .ok result ∧ result.2 = [2] ∧
    ∀ x ∈ s.log, halfSecond 10 ≤ x.2.observedAt →
      x.1 ∉ result.2 ∧ result.1.facts.get x.1 = s.engine.facts.get x.1 := by
  obtain ⟨engine₀, hnew, s, hexec, result, hevict, hgone, hkeeps⟩ :
      ∃ engine₀, new .default [1, 2] = .ok engine₀ ∧
        ∃ s, filingMachine.exec ⟨engine₀, []⟩ seenAgain = some s ∧
          ∃ result, s.engine.evictStaleAt (halfSecond 40) (seconds 15) = .ok result ∧
            result.2 = [2] ∧ filingMachine.Guarded (fun s => s.engine.KeepsNewest) ⟨engine₀, []⟩
              seenAgain := by decide +kernel
  exact ⟨engine₀, s, result, hnew, hexec, hevict, hgone,
    retained_of_keepsNewest (by decide) hnew hkeeps hexec (by decide +kernel) hevict⟩

/-- The device was seen at 10 s and is forgotten at 30 s, although the retention is 25 s. -/
theorem lateFact_evicts :
    (halfSecond 60).checkedSubSigned (seconds 25) = some (halfSecond 10) ∧
      forgottenAfter [1] lateFact (halfSecond 60) (seconds 25) =
        some ([(1, halfSecond 2), (1, halfSecond 20)], [1]) := by
  decide +kernel

end NeonHearth.Identity
