import Mathlib
import NeonHearth.Data.Except

/-!
# Sorted maps

A finite map with keys in a linear order, listed by ascending keys.  It is the extensional tree
map of the standard library at the order of the key type, so two maps with the same entries are
equal and a map on concrete keys can be evaluated.

* `SortedMap.ext` and the `get_…` lemmas reduce every question about a map to its lookups;
* `SortedMap.mem_toList` and `SortedMap.nodup_keys` connect the listing to the lookups,
  `SortedMap.foldlM_toList` says that a loop that inserts the listed entries gives the map, and
  `SortedMap.sum_toList_filter` turns a sum over listed entries into one over a set of keys.
-/

namespace NeonHearth

open Std.ExtTreeMap Prod List Option

/-- A finite map listed by ascending keys. -/
def SortedMap (K V : Type*) [LinearOrder K] := Std.ExtTreeMap K V compare

namespace SortedMap

variable {K V : Type*} [LinearOrder K]

/-- The map without entries. -/
def empty : SortedMap K V := (∅ : Std.ExtTreeMap K V compare)

instance : EmptyCollection (SortedMap K V) := ⟨empty⟩

/-- The value of a key. -/
def get (m : SortedMap K V) (k : K) : Option V := Std.ExtTreeMap.get? m k

/-- Sets the value of a key. -/
def insert (m : SortedMap K V) (k : K) (v : V) : SortedMap K V := Std.ExtTreeMap.insert m k v

/-- Removes a key. -/
def erase (m : SortedMap K V) (k : K) : SortedMap K V := Std.ExtTreeMap.erase m k

/-- Keeps the entries that satisfy `p`. -/
def filter (m : SortedMap K V) (p : K → V → Bool) : SortedMap K V := Std.ExtTreeMap.filter p m

/-- The entries by ascending keys. -/
def toList (m : SortedMap K V) : List (K × V) := Std.ExtTreeMap.toList m

/-- The number of entries. -/
def size (m : SortedMap K V) : ℕ := Std.ExtTreeMap.size m

@[ext]
theorem ext {m n : SortedMap K V} (h : ∀ k, m.get k = n.get k) : m = n :=
  ext_getElem? h

@[simp]
theorem get_empty (k : K) : (∅ : SortedMap K V).get k = none := getElem?_empty

theorem compare_iff {k l : K} : compare k l = .eq ↔ l = k :=
  Std.LawfulEqCmp.compare_eq_iff_eq.trans eq_comm

section

variable (m : SortedMap K V)
include m

theorem get_insert (k : K) (v : V) (l : K) :
    (m.insert k v).get l = if l = k then some v else m.get l :=
  getElem?_insert.trans (if_congr compare_iff rfl rfl)

@[simp]
theorem get_insert_self (k : K) (v : V) : (m.insert k v).get k = some v := by
  simp [get_insert]

theorem get_insert_of_ne {k l : K} (v : V) (h : l ≠ k) : (m.insert k v).get l = m.get l := by
  simp [get_insert, h]

theorem get_erase (k l : K) : (m.erase k).get l = if l = k then none else m.get l :=
  getElem?_erase.trans (if_congr compare_iff rfl rfl)

@[simp]
theorem get_erase_self (k : K) : (m.erase k).get k = none := by
  simp [get_erase]

theorem get_erase_of_ne {k l : K} (h : l ≠ k) : (m.erase k).get l = m.get l := by
  simp [get_erase, h]

theorem get_filter (p) (k : K) : (m.filter p).get k = (m.get k).filter (p k) :=
  getElem?_filter' (t := m)

end

variable {k : K}

theorem get_insert_ne_none {m : SortedMap K V} {l : K} {v : V} (h : m.get l ≠ none) :
    (m.insert k v).get l ≠ none := by
  rw [get_insert]
  split_ifs
  · nofun
  · exact h

theorem get_insert_eq_some {m : SortedMap K V} {l : K} {v w : V} :
    (m.insert k v).get l = some w ↔ l = k ∧ w = v ∨ l ≠ k ∧ m.get l = some w := by
  rw [get_insert]
  split_ifs with h <;> simp [h, eq_comm]

theorem mem_toList {m : SortedMap K V} {v : V} : (k, v) ∈ m.toList ↔ m.get k = some v :=
  mem_toList_iff_getElem?_eq_some (t := m)

theorem mem_keys {m : SortedMap K V} : k ∈ m.toList.map Prod.fst ↔ m.get k ≠ none := by
  constructor
  · intro h
    obtain ⟨⟨l, v⟩, hmem, rfl⟩ := mem_map.1 h
    simp [mem_toList.1 hmem]
  · intro h
    obtain ⟨v, hv⟩ := ne_none_iff_exists'.1 h
    exact mem_map.2 ⟨(k, v), mem_toList.2 hv, rfl⟩

section

variable (m : SortedMap K V)
include m

theorem nodup_keys : (m.toList.map Prod.fst).Nodup := by
  refine pairwise_map.2 ((distinct_keys_toList (t := m)).imp fun h heq => ?_)
  exact h (Std.LawfulEqCmp.compare_eq_iff_eq.2 heq)

theorem length_toList : m.toList.length = m.size :=
  Std.ExtTreeMap.length_toList (t := m)

theorem size_insert (k : K) (v : V) :
    (m.insert k v).size = if m.get k = none then m.size + 1 else m.size := by
  have hcontains : contains m k = (m.get k).isSome :=
    contains_eq_isSome_getElem? (t := m)
  have hsize := Std.ExtTreeMap.size_insert (t := m) (k := k) (v := v)
  by_cases h : m.get k = none
  · refine (hsize.trans (if_neg fun hk => ?_)).trans (if_pos h).symm
    simp [hcontains, h] at hk
  · exact (hsize.trans (if_pos (hcontains.trans (isSome_iff_ne_none.2 h)))).trans
      (if_neg h).symm

theorem pairwise_keys : (m.toList.map Prod.fst).Pairwise (· ≤ ·) := by
  refine pairwise_map.2 ((ordered_keys_toList (t := m)).imp fun h => ?_)
  exact (compare_lt_iff_lt.1 h).le

theorem pairwise_toList : m.toList.Pairwise fun x y => x.1 < y.1 :=
  (ordered_keys_toList (t := m)).imp fun h => compare_lt_iff_lt.1 h

end

/-- The listing is the only one in order. -/
theorem toList_eq {m : SortedMap K V} {l} (hl : l.Pairwise fun x y => x.1 < y.1)
    (hmem : ∀ k v, (k, v) ∈ l ↔ m.get k = some v) : m.toList = l := by
  have hnodup : ∀ {l : List (K × V)}, (l.Pairwise fun x y => x.1 < y.1) → l.Nodup := fun h =>
    h.imp fun hlt heq => hlt.ne (congrArg fst heq)
  have hperm : m.toList.Perm l := by
    refine (perm_ext_iff_of_nodup (hnodup m.pairwise_toList) (hnodup hl)).2 fun x => ?_
    rw [hmem, ← mem_toList]
  refine hperm.eq_of_pairwise (fun x y _ _ hxy hyx => ?_) m.pairwise_toList hl
  exact absurd hxy hyx.asymm

theorem toList_injective : Function.Injective (toList : SortedMap K V → List (K × V)) := by
  intro m n h
  refine ext fun k => Option.ext fun v => ?_
  rw [← mem_toList, ← mem_toList, h]

@[simp]
theorem toList_empty : (∅ : SortedMap K V).toList = [] := toList_eq .nil (by simp)

theorem toList_insert_of_lt {m : SortedMap K V} (v : V)
    (h : ∀ x ∈ m.toList, x.1 < k) : (m.insert k v).toList = m.toList ++ [(k, v)] := by
  refine toList_eq ?_ fun l w => ?_
  · refine pairwise_append.2 ⟨m.pairwise_toList, pairwise_singleton .., fun x hx y hy => ?_⟩
    rw [mem_singleton.1 hy]
    exact h x hx
  rw [mem_append, mem_toList, mem_singleton, get_insert]
  by_cases hl : l = k
  · subst hl
    have hnone : ¬m.get l = some w := fun hw => lt_irrefl l (h _ (mem_toList.2 hw))
    simp [hnone, eq_comm]
  · simp [hl]

theorem keys_congr {W : Type*} {m : SortedMap K V} {n : SortedMap K W}
    (h : ∀ k, m.get k = none ↔ n.get k = none) : m.toList.map Prod.fst = n.toList.map Prod.fst := by
  have hperm : (m.toList.map fst).Perm (n.toList.map fst) := by
    refine (perm_ext_iff_of_nodup m.nodup_keys n.nodup_keys).2 fun k => ?_
    rw [mem_keys, mem_keys, ne_eq, ne_eq, h]
  exact hperm.eq_of_pairwise' m.pairwise_keys n.pairwise_keys

theorem size_congr {W : Type*} {m : SortedMap K V} {n : SortedMap K W}
    (h : ∀ k, m.get k = none ↔ n.get k = none) : m.size = n.size := by
  have hlength := congrArg length (keys_congr h)
  rwa [length_map, length_map, length_toList, length_toList] at hlength

theorem insert_insert (m : SortedMap K V) (k : K) (v w : V) :
    (m.insert k v).insert k w = m.insert k w := by
  refine ext fun l => ?_
  rw [get_insert, get_insert, get_insert]
  split <;> rfl

theorem insert_of_get {m : SortedMap K V} {v : V} (h : m.get k = some v) : m.insert k v = m := by
  refine ext fun l => ?_
  rw [get_insert]
  split
  · next heq => rw [heq, h]
  · rfl

theorem toList_filter (m : SortedMap K V) (p) :
    (m.filter p).toList = m.toList.filter fun entry => p entry.1 entry.2 :=
  Std.ExtTreeMap.toList_filter (t := m)

theorem size_filter_le (m : SortedMap K V) (p) : (m.filter p).size ≤ m.size :=
  size_filter_le_size (t := m)

theorem size_filter_lt {m : SortedMap K V} {p} {v : V}
    (hk : m.get k = some v) (hp : p k v = false) : (m.filter p).size < m.size := by
  rw [← length_toList, ← length_toList, toList_filter]
  exact length_filter_lt_length_iff_exists.2 ⟨(k, v), mem_toList.2 hk, by simp [hp]⟩

/-- A loop over the listed entries that puts every one of them into a map builds the same map. -/
theorem foldlM_toList {K V ε : Type} [LinearOrder K] {m : SortedMap K V}
    {f : SortedMap K V → K × V → Except ε (SortedMap K V)}
    (hstep : ∀ {out k v}, m.get k = some v → out.get k = none →
      f out (k, v) = .ok (out.insert k v)) : m.toList.foldlM f ∅ = .ok m := by
  have hloop : ∃ out : SortedMap K V, m.toList.foldlM f ∅ = .ok out ∧
      ∀ k, out.get k = if k ∈ m.toList.map fst then m.get k else none := by
    refine foldlM_ok (I := fun done (out : SortedMap K V) =>
      ∀ k, out.get k = if k ∈ done.map fst then m.get k else none) (by simp) ?_
    rintro done ⟨k, v⟩ rest out hl hout
    have hk : m.get k = some v := mem_toList.1 (hl ▸ by simp)
    -- The keys are distinct, so the entry is not there yet.
    have hnodup := m.nodup_keys
    rw [hl, map_append, map_cons, nodup_append] at hnodup
    have hnew : k ∉ done.map fst := fun hin => hnodup.2.2 _ hin _ mem_cons_self rfl
    refine ⟨_, hstep hk ((hout k).trans (if_neg hnew)), fun l => ?_⟩
    rw [get_insert, hout]
    by_cases hlk : l = k
    · subst hlk
      simp [hk]
    · have hmem : l ∈ (done ++ [(k, v)]).map fst ↔ l ∈ done.map fst := by
        rw [map_append, mem_append, map_singleton, mem_singleton]
        exact or_iff_left hlk
      simp only [if_neg hlk, hmem]
  obtain ⟨out, hout, hget⟩ := hloop
  refine hout.trans (congrArg Except.ok (ext fun k => ?_))
  rw [hget]
  split_ifs with hk
  · rfl
  · exact (not_not.1 fun hne => hk (mem_keys.2 hne)).symm

/-- The sum over the listed entries with a property of their keys is the sum over any set of keys
that has exactly this property. -/
theorem sum_toList_filter {M : Type*} [AddCommMonoid M] (m : SortedMap K V) (p : K → Bool)
    (f : V → M) {s} (hs : ∀ k ∈ s, p k = true) (hmem : ∀ k, m.get k ≠ none → p k = true → k ∈ s) :
    ((m.toList.filter fun entry => p entry.1).map fun entry => f entry.2).sum =
      ∑ k ∈ s, ((m.get k).map f).getD 0 := by
  set l := m.toList.filter fun entry => p entry.1 with hl
  have hnodup : (l.map fst).Nodup := m.nodup_keys.sublist (filter_sublist.map _)
  have hget : ∀ entry ∈ l, f entry.2 = ((m.get entry.1).map f).getD 0 := by
    intro entry hentry
    rw [mem_toList.1 (mem_of_mem_filter hentry)]
    rfl
  have hsub : (l.map fst).toFinset ⊆ s := by
    intro k hk
    obtain ⟨entry, hentry, rfl⟩ := mem_map.1 (mem_toFinset.1 hk)
    obtain ⟨hin, hp⟩ := mem_filter.1 hentry
    exact hmem _ (by simp [mem_toList.1 hin]) hp
  rw [map_congr_left hget, ← Finset.sum_subset hsub fun k hk hnot => ?_]
  · rw [List.sum_toFinset _ hnodup, List.map_map]
    rfl
  -- a key of the set that is not listed has no value
  have hnone : m.get k = none := by
    refine eq_none_iff_forall_ne_some.2 fun v hv => ?_
    refine hnot (mem_toFinset.2 (mem_map.2 ⟨(k, v), ?_, rfl⟩))
    exact mem_filter.2 ⟨mem_toList.2 hv, hs k hk⟩
  simp [hnone]

end SortedMap

end NeonHearth
