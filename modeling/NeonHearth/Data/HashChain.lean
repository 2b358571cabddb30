import Mathlib

/-!
# Hash chains

The entries of a hash chain are numbered, and each names the hash of the one before it.  A chain
continues from a root, the number and the hash of what came before (`Chained`), and has come to a tip.

* `chained_append`, `tip_append` : a chain is cut anywhere;
* `ids_of_chained` : the numbers are consecutive;
* `suffix_of_tip_eq` : a tip commits to the chain.  Of two chains with the same tip one is the end of
  the other, if no two different entries have the same hash.
-/

namespace NeonHearth

open List

variable {α H : Type*}

/-- What links an entry: its number, the hash that it continues, and its own hash. -/
structure Links (α H : Type*) where
  id : α → ℤ
  prev : α → H
  hash : α → H

namespace Links

variable (L : Links α H)

/-- The entries continue from a root, one after another. -/
def Chained : ℤ × H → List α → Prop
  | _, [] => True
  | root, a :: l => L.id a = root.1 + 1 ∧ L.prev a = root.2 ∧ Chained (L.id a, L.hash a) l

/-- Where a chain has come to. -/
def tip (root : ℤ × H) (l : List α) : ℤ × H := l.foldl (fun _ a => (L.id a, L.hash a)) root

variable {L} {root root' : ℤ × H} {l l' : List α}

@[simp]
theorem tip_nil : L.tip root [] = root := rfl

theorem tip_append : L.tip root (l ++ l') = L.tip (L.tip root l) l' := foldl_append

@[simp]
theorem tip_concat {a : α} : L.tip root (l ++ [a]) = (L.id a, L.hash a) := by
  rw [tip_append]
  rfl

theorem chained_append : L.Chained root (l ++ l') ↔ L.Chained root l ∧ L.Chained (L.tip root l) l' := by
  induction l generalizing root with
  | nil => simp [Chained]
  | cons a l ih =>
    rw [cons_append, Chained, Chained, ih, and_assoc, and_assoc]
    rfl

theorem chained_concat {a : α} : L.Chained root (l ++ [a]) ↔
    L.Chained root l ∧ L.id a = (L.tip root l).1 + 1 ∧ L.prev a = (L.tip root l).2 := by
  rw [chained_append, Chained, Chained, and_true]

section

variable (h : L.Chained root l)
include h

theorem ids_of_chained :
    l.map L.id = (List.range l.length).map fun i : ℕ => root.1 + 1 + (i : ℤ) := by
  induction l generalizing root with
  | nil => rfl
  | cons a l ih =>
    obtain ⟨hid, -, hl⟩ := h
    rw [map_cons, ih hl, length_cons, range_succ_eq_map, map_cons, map_map]
    congr 1
    · rw [hid]
      simp
    · refine map_congr_left fun i _ => ?_
      simp only [hid, Function.comp_apply]
      omega

theorem tip_id_of_chained : (L.tip root l).1 = root.1 + (l.length : ℤ) := by
  induction l using reverseRecOn with
  | nil => simp
  | append_singleton l a ih =>
    obtain ⟨hl, hid, -⟩ := chained_concat.1 h
    rw [tip_concat, hid, ih hl, length_append, length_singleton]
    omega

theorem id_of_mem {a : α} (ha : a ∈ l) : root.1 < L.id a ∧ L.id a ≤ (L.tip root l).1 := by
  have hmem : L.id a ∈ l.map L.id := mem_map_of_mem ha
  rw [ids_of_chained h] at hmem
  obtain ⟨i, hi, hid⟩ := mem_map.1 hmem
  have hlt := mem_range.1 hi
  rw [tip_id_of_chained h, ← hid]
  omega

theorem eq_of_id_eq {a b : α} (ha : a ∈ l) (hb : b ∈ l) (hid : L.id a = L.id b) : a = b := by
  have hnodup : (l.map L.id).Nodup := by
    rw [ids_of_chained h]
    refine List.Nodup.map (fun i j hij => ?_) nodup_range
    exact Int.ofNat.inj (Int.add_left_cancel hij)
  exact inj_on_of_nodup_map hnodup ha hb hid

/-- A number up to the tip is that of an entry. -/
theorem exists_mem_of_le {i : ℤ} (hlow : root.1 < i)
    (hhigh : i ≤ (L.tip root l).1) : ∃ a ∈ l, L.id a = i := by
  rw [tip_id_of_chained h] at hhigh
  have hmem : i ∈ l.map L.id := by
    rw [ids_of_chained h]
    refine mem_map.2 ⟨(i - root.1 - 1).toNat, mem_range.2 (by omega), by omega⟩
  exact mem_map.1 hmem

/-- **A tip commits to its chain**: of two chains with the same tip, the shorter one is the end of the
longer one, and starts where the rest of that has come to. -/
theorem suffix_of_tip_eq (h' : L.Chained root' l') (htip : L.tip root l = L.tip root' l')
    (hinj : ∀ a ∈ l, ∀ b ∈ l', L.id a = L.id b → L.hash a = L.hash b → a = b)
    (hlength : l.length ≤ l'.length) : ∃ before, l' = before ++ l ∧ L.tip root' before = root := by
  induction l using reverseRecOn generalizing l' with
  | nil => exact ⟨l', by simp, htip.symm⟩
  | append_singleton l a ih =>
    -- the last entries have the tip's hash in common, so they are one, and so are the hashes before
    obtain rfl | ⟨m, b, rfl⟩ := eq_nil_or_concat l'
    · simp at hlength
    rw [concat_eq_append] at h' htip hinj hlength ⊢
    rw [tip_concat, tip_concat, Prod.mk.injEq] at htip
    obtain rfl : a = b := hinj a (by simp) b (by simp) htip.1 htip.2
    obtain ⟨hl, hid, hprev⟩ := chained_concat.1 h
    obtain ⟨hm, hid', hprev'⟩ := chained_concat.1 h'
    have htip : L.tip root l = L.tip root' m :=
      Prod.ext (by omega) (hprev.symm.trans hprev')
    obtain ⟨before, rfl, hbefore⟩ := ih hl hm htip
      (fun x hx y hy => hinj x (mem_append_left _ hx) y (mem_append_left _ hy))
      (by simpa using hlength)
    exact ⟨before, append_assoc .., hbefore⟩

end

end Links

end NeonHearth
