import Mathlib.Data.List.Infix

/-!
# Numbered logs

A log whose entries are numbered one after another, from one on.  A position in it is the number of
entries before it, so what comes after the number `n` is the log without its first `n` entries.

* `mem_drop`, `mem_take`, `filter_lt` : numbers and positions say the same.
-/

namespace NeonHearth

open List

variable {α : Type*}

/-- The entries have the numbers 1, 2 and so on. -/
def Numbered (number : α → ℕ) (l : List α) : Prop := l.map number = List.range' 1 l.length

namespace Numbered

variable {number : α → ℕ} {l : List α}

theorem nil : Numbered number [] := rfl

section

variable (h : Numbered number l)
include h

variable {a : α}

theorem concat (ha : number a = l.length + 1) : Numbered number (l ++ [a]) := by
  rw [Numbered, map_append, h, length_append, length_singleton, range'_concat]
  simp [ha, Nat.add_comm]

theorem take (n : ℕ) : Numbered number (l.take n) := by
  rw [Numbered, map_take, h, length_take, range'_eq_map_range,
    range'_eq_map_range, ← map_take, take_range]

theorem getElem {i : ℕ} (hi : i < l.length) : number l[i] = i + 1 := by
  have hmap : (l.map number)[i]? = (range' 1 l.length)[i]? := by rw [h]
  rw [getElem?_map, getElem?_eq_getElem hi, getElem?_range' hi] at hmap
  simpa [Nat.add_comm] using hmap

theorem eq_getElem (ha : a ∈ l) {i : ℕ} (hi : i < l.length)
    (hnumber : number a = i + 1) : a = l[i] := by
  obtain ⟨j, hj, rfl⟩ := mem_iff_getElem.1 ha
  rw [h.getElem hj] at hnumber
  simp [Nat.succ.inj hnumber]

theorem map_drop (n : ℕ) : (l.drop n).map number = List.range' (n + 1) (l.length - n) := by
  rw [List.map_drop, h, List.drop_range']
  simp [Nat.add_comm]

theorem mem_drop (ha : a ∈ l) {n : ℕ} : a ∈ l.drop n ↔ n < number a := by
  obtain ⟨i, hi, rfl⟩ := mem_iff_getElem.1 ha
  rw [h.getElem hi]
  refine ⟨fun hmem => ?_, fun hn => ?_⟩
  · have hnumber : number l[i] ∈ (l.drop n).map number := mem_map_of_mem hmem
    rw [h.map_drop, mem_range'_1, h.getElem hi] at hnumber
    omega
  · exact mem_drop_iff_getElem.2 ⟨i - n, by omega, by congr 1; omega⟩

theorem mem_take (ha : a ∈ l) {n : ℕ} : a ∈ l.take n ↔ number a ≤ n := by
  obtain ⟨i, hi, rfl⟩ := mem_iff_getElem.1 ha
  rw [h.getElem hi]
  refine ⟨fun hmem => ?_, fun hn => ?_⟩
  · obtain ⟨j, hj, heq⟩ := mem_iff_getElem.1 hmem
    rw [length_take] at hj
    rw [getElem_take] at heq
    have hnumber := congrArg number heq
    rw [h.getElem (by omega), h.getElem hi] at hnumber
    omega
  · exact mem_take_iff_getElem.2 ⟨i, by omega, rfl⟩

theorem number_le (ha : a ∈ l) : number a ≤ l.length :=
  (h.mem_take ha).1 (by rwa [take_length])

theorem pairwise : l.Pairwise fun a b => number a < number b := by
  rw [← pairwise_map (f := number), h]
  exact pairwise_lt_range'

theorem filter_lt (n : ℕ) : l.filter (n < number ·) = l.drop n := by
  have hlow : ∀ a ∈ l.take n, ¬(n < number a) := fun a ha =>
    not_lt.2 ((h.mem_take (mem_of_mem_take ha)).1 ha)
  have hhigh : ∀ a ∈ l.drop n, n < number a := fun a ha =>
    (h.mem_drop (mem_of_mem_drop ha)).1 ha
  conv_lhs => rw [← take_append_drop n l]
  rw [filter_append, filter_eq_nil_iff.2 (by simpa using hlow),
    filter_eq_self.2 (by simpa using hhigh), nil_append]

theorem filter_eq {i : ℕ} (hi : i < l.length) : l.filter (number · = i + 1) = [l[i]] := by
  have hsplit : l = l.take i ++ l[i] :: l.drop (i + 1) := by
    rw [← drop_eq_getElem_cons hi, take_append_drop]
  have hbefore : (l.take i).filter (number · = i + 1) = [] := by
    refine filter_eq_nil_iff.2 fun a ha => ?_
    have hle := (h.mem_take (mem_of_mem_take ha)).1 ha
    simp only [decide_eq_true_eq]
    omega
  have hafter : (l.drop (i + 1)).filter (number · = i + 1) = [] := by
    refine filter_eq_nil_iff.2 fun a ha => ?_
    have hlt := (h.mem_drop (mem_of_mem_drop ha)).1 ha
    simp only [decide_eq_true_eq]
    omega
  refine (congrArg (filter (number · = i + 1)) hsplit).trans ?_
  rw [filter_append, hbefore, filter_cons_of_pos (by simp [h.getElem hi]), hafter,
    nil_append]

end

end Numbered

end NeonHearth
