import NeonHearth.Data.SortedMap

/-!
# Passes over a map

A pass goes through a list of items with distinct keys, changes the value of each key in a map and
reports something about it.  What becomes of a key, and what is reported about it, are then decided by
its own item and its value before the pass (`sweep_mem`, `sweep_not_mem`), so a pass is one automaton
for each key.
-/

namespace NeonHearth.SortedMap

open List

variable {K V A E : Type*} [LinearOrder K]

/-- Sets or removes the value of a key. -/
def put (m : SortedMap K V) (k : K) (v : Option V) : SortedMap K V := v.elim (m.erase k) (m.insert k)

theorem get_put (m : SortedMap K V) (k l : K) (v) :
    (m.put k v).get l = if l = k then v else m.get l := by
  cases v with
  | none => exact get_erase ..
  | some v => exact get_insert ..

/-- The pass over a list of items. -/
def sweep (f : K → A → Option V → Option V × List E) (l : List (K × A)) (m : SortedMap K V) :
    SortedMap K V × List E :=
  l.foldl (fun s x => (s.1.put x.1 (f x.1 x.2 (s.1.get x.1)).1, s.2 ++ (f x.1 x.2 (s.1.get x.1)).2))
    (m, [])

section Keys

variable {f : K → A → Option V → Option V × List E} {key : E → K}
  (hkey : ∀ k a v, ∀ e ∈ (f k a v).2, key e = k)
include hkey

variable {l : List (K × A)}

theorem foldl_sweep (hl : (l.map Prod.fst).Nodup) (s : SortedMap K V × List E) (k : K) :
    let s' := l.foldl (fun s x =>
      (s.1.put x.1 (f x.1 x.2 (s.1.get x.1)).1, s.2 ++ (f x.1 x.2 (s.1.get x.1)).2)) s
    (k ∉ l.map Prod.fst → s'.1.get k = s.1.get k ∧
      s'.2.filter (key · = k) = s.2.filter (key · = k)) ∧
    ∀ a, (k, a) ∈ l → s'.1.get k = (f k a (s.1.get k)).1 ∧
      s'.2.filter (key · = k) = s.2.filter (key · = k) ++ (f k a (s.1.get k)).2 := by
  induction l generalizing s with
  | nil => simp
  | cons x l ih =>
    obtain ⟨hx, hl⟩ := nodup_cons.1 hl
    obtain ⟨hother, hself⟩ := ih hl
      (s.1.put x.1 (f x.1 x.2 (s.1.get x.1)).1, s.2 ++ (f x.1 x.2 (s.1.get x.1)).2)
    simp only [get_put, filter_append] at hother hself
    have hreports : (f x.1 x.2 (s.1.get x.1)).2.filter (key · = k) =
        if k = x.1 then (f x.1 x.2 (s.1.get x.1)).2 else [] := by
      split_ifs with hk
      · exact filter_eq_self.2 fun e he => decide_eq_true ((hkey _ _ _ e he).trans hk.symm)
      · exact filter_eq_nil_iff.2 fun e he h =>
          hk ((of_decide_eq_true h).symm.trans (hkey _ _ _ e he))
    rw [hreports] at hother hself
    constructor
    · intro hk
      rw [map_cons, mem_cons, not_or] at hk
      simpa [hk.1] using hother hk.2
    · intro a ha
      obtain rfl | ha := mem_cons.1 ha
      · simpa using hother hx
      · have hne : k ≠ x.1 := fun h => hx (h ▸ mem_map_of_mem (f := Prod.fst) ha)
        simpa [hne] using hself a ha

/-- The value and the reports of a key with an item. -/
theorem sweep_mem (hl : (l.map Prod.fst).Nodup) (m) {k : K} {a : A}
    (ha : (k, a) ∈ l) : (sweep f l m).1.get k = (f k a (m.get k)).1 ∧
      (sweep f l m).2.filter (key · = k) = (f k a (m.get k)).2 :=
  (foldl_sweep hkey hl (m, []) k).2 a ha

/-- A key without an item is left alone. -/
theorem sweep_not_mem (hl : (l.map Prod.fst).Nodup) (m) {k : K}
    (hk : k ∉ l.map Prod.fst) : (sweep f l m).1.get k = m.get k ∧
      (sweep f l m).2.filter (key · = k) = [] :=
  (foldl_sweep hkey hl (m, []) k).1 hk

end Keys

theorem size_eq_card (m : SortedMap K V) : m.size = (m.toList.map Prod.fst).toFinset.card := by
  rw [toFinset_card_of_nodup m.nodup_keys, length_map, length_toList]

end NeonHearth.SortedMap
