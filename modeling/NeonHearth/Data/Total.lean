import NeonHearth.Data.SortedMap

/-!
# Totals over maps

The sum of a function of the entries of a map, in any commutative monoid: a number of things, or the
multiset of what the entries hold.

* `SortedMap.total_insert_of_none`, `total_insert_of_some`, `total_erase`, `total_filter` : how each
  operation changes a total;
* `SortedMap.mem_total`, `SortedMap.eq_of_nodup_total` : what a total of multisets has comes from an
  entry, and from one only if the total has it once.
-/

namespace NeonHearth.SortedMap

open List Multiset

variable {K V M : Type*} [LinearOrder K] [AddCommMonoid M] {f : K → V → M} {m : SortedMap K V} {k : K}
  {v w : V}

/-- The sum over the entries. -/
def total (f : K → V → M) (m : SortedMap K V) : M := (m.toList.map fun entry => f entry.1 entry.2).sum

@[simp]
theorem total_empty : total f (∅ : SortedMap K V) = 0 := by
  rw [total, toList_empty]
  rfl

theorem nodup_toList (m : SortedMap K V) : m.toList.Nodup := m.nodup_keys.of_map _

theorem total_congr {l} (h : m.toList.Perm l) :
    total f m = (l.map fun entry => f entry.1 entry.2).sum :=
  (h.map _).sum_eq

theorem total_insert_of_none (h : m.get k = none) : total f (m.insert k v) = f k v + total f m := by
  have hperm : (m.insert k v).toList.Perm ((k, v) :: m.toList) := by
    have hnot : (k, v) ∉ m.toList := fun hmem => by simp [mem_toList.1 hmem] at h
    refine (perm_ext_iff_of_nodup (nodup_toList _) (nodup_cons.2 ⟨hnot, nodup_toList m⟩)).2 ?_
    rintro ⟨l, u⟩
    rw [mem_toList, get_insert, List.mem_cons, mem_toList, Prod.mk.injEq]
    by_cases hl : l = k
    · subst hl
      simp [h, eq_comm]
    · simp [hl]
  rw [total_congr hperm, List.map_cons, List.sum_cons]
  rfl

theorem insert_erase (h : m.get k = some v) : (m.erase k).insert k v = m := by
  refine ext fun l => ?_
  rw [get_insert, get_erase]
  split_ifs with hl
  · rw [hl, h]
  · rfl

theorem total_erase (h : m.get k = some v) : total f m = f k v + total f (m.erase k) := by
  rw [← total_insert_of_none (get_erase_self m k), insert_erase h]

theorem erase_insert : (m.insert k v).erase k = m.erase k := by
  refine ext fun l => ?_
  rw [get_erase, get_erase, get_insert]
  split_ifs <;> rfl

theorem total_insert : total f (m.insert k v) = f k v + total f (m.erase k) := by
  rw [total_erase (get_insert_self m k v), erase_insert]

theorem total_insert_of_some (h : m.get k = some w) :
    f k w + total f (m.insert k v) = f k v + total f m := by
  rw [total_insert, total_erase h]
  exact add_left_comm _ _ _

theorem total_filter (f : K → V → M) (m p) :
    total f (m.filter p) + total f (m.filter fun k v => !p k v) = total f m := by
  have hsplit := (filter_append_perm (fun entry : K × V => p entry.1 entry.2) m.toList).symm
  rw [total_congr hsplit, map_append, sum_append, total, total, toList_filter, toList_filter]

theorem total_one (m : SortedMap K V) : total (fun _ _ => 1) m = m.size := by
  rw [total, ← length_toList]
  simp

theorem map_total {N : Type*} [AddCommMonoid N] (φ : M →+ N) (f) (m : SortedMap K V) :
    φ (total f m) = total (fun k v => φ (f k v)) m := by
  rw [total, map_list_sum, List.map_map]
  rfl

section Multiset

variable {α : Type*} {g : K → V → Multiset α} {a : α}

theorem mem_total : a ∈ total g m ↔ ∃ k v, m.get k = some v ∧ a ∈ g k v := by
  have hsum : ∀ l : List (K × V),
      a ∈ (l.map fun entry => g entry.1 entry.2).sum ↔ ∃ entry ∈ l, a ∈ g entry.1 entry.2 := by
    intro l
    induction l with
    | nil => simp
    | cons entry l ih =>
      rw [List.map_cons, List.sum_cons, Multiset.mem_add, ih]
      simp
  rw [total, hsum]
  constructor
  · rintro ⟨⟨k, v⟩, hmem, ha⟩
    exact ⟨k, v, mem_toList.1 hmem, ha⟩
  · rintro ⟨k, v, hget, ha⟩
    exact ⟨(k, v), mem_toList.2 hget, ha⟩

theorem card_total_keys (m : SortedMap K V) :
    (total (fun k _ => ({k} : Multiset K)) m).card = m.size :=
  (map_total cardHom _ m).trans (total_one m)

/-- What is there once is in one entry. -/
theorem eq_of_nodup_total (hnodup : (total g m).Nodup) {l : K} (hk : m.get k = some v)
    (ha : a ∈ g k v) (hl : m.get l = some w) (ha' : a ∈ g l w) : k = l := by
  by_contra hne
  rw [total_erase hk, nodup_add] at hnodup
  have hrest : (m.erase k).get l = some w := (get_erase_of_ne m (Ne.symm hne)).trans hl
  exact disjoint_left.1 hnodup.2.2 ha (mem_total.2 ⟨l, w, hrest, ha'⟩)

end Multiset

end NeonHearth.SortedMap
