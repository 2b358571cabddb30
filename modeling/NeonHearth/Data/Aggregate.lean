import Mathlib.Algebra.BigOperators.Group.Finset.Piecewise

/-!
# Totals kept by differences

Values are attached to children, each child belongs to one parent, and for every parent with a
valued child a total is kept.  When a child is revised the total is not recomputed: the old value
is taken out and the new one is put in.  `Aggregate.Tracks` says that the kept totals are the sums
over the children; `Tracks.revise` is the step of the incremental update and `Tracks.retain` the
step that drops totals nobody revises any more.  `Aggregate.Covers` says that the totals are at least
the sums, so that an update never takes out more than there is; it has the same two steps, and
children may be dropped at any time.
-/

namespace NeonHearth

open Finset Function Option

/-- Children with their parents; `kids p` are the children of `p`. -/
structure Aggregate (ι π : Type*) where
  /-- The parent of a child. -/
  parentOf : ι → π
  /-- The children of a parent. -/
  kids : π → Finset ι
  mem_kids : ∀ {i p}, i ∈ kids p ↔ parentOf i = p

namespace Aggregate

variable {ι π M : Type*} [AddCancelCommMonoid M]

/-- The sum of the values of the children of a parent. -/
def sum (A : Aggregate ι π) (val : ι → Option M) (p : π) : M := ∑ i ∈ A.kids p, (val i).getD 0

/-- The totals `tot` are the sums of the values `val`, and every parent in `live` with a valued
child has one. -/
structure Tracks (A : Aggregate ι π) (live : π → Prop) (tot : π → Option M) (val : ι → Option M) :
    Prop where
  sum_eq : ∀ {p x}, tot p = some x → x = A.sum val p
  exists_kid : ∀ {p}, tot p ≠ none → ∃ i ∈ A.kids p, val i ≠ none
  isSome : ∀ {i}, val i ≠ none → live (A.parentOf i) → tot (A.parentOf i) ≠ none

variable {A : Aggregate ι π} {live live' : π → Prop} {tot : π → Option M} {val : ι → Option M}

theorem sum_congr {val'} {p : π} (h : ∀ i ∈ A.kids p, val i = val' i) :
    A.sum val p = A.sum val' p :=
  Finset.sum_congr rfl fun i hi => by rw [h i hi]

theorem sum_update [DecidableEq ι] (i : ι) (v : M) :
    A.sum (Function.update val i (some v)) (A.parentOf i) + (val i).getD 0 =
      A.sum val (A.parentOf i) + v := by
  have hi : i ∈ A.kids (A.parentOf i) := A.mem_kids.2 rfl
  have hrest : ∑ j ∈ (A.kids (A.parentOf i)).erase i, (update val i (some v) j).getD 0 =
      ∑ j ∈ (A.kids (A.parentOf i)).erase i, (val j).getD 0 :=
    Finset.sum_congr rfl fun j hj => by rw [Function.update_of_ne (Finset.ne_of_mem_erase hj)]
  rw [sum, sum, ← add_sum_erase _ _ hi, ← add_sum_erase _ _ hi, hrest, update_self, getD_some]
  ac_rfl

theorem sum_update_of_ne [DecidableEq ι] {i : ι} {v : M} {p : π} (hp : p ≠ A.parentOf i) :
    A.sum (Function.update val i (some v)) p = A.sum val p := by
  refine sum_congr fun j hj => ?_
  rw [update_of_ne]
  rintro rfl
  exact hp (A.mem_kids.1 hj).symm

omit [AddCancelCommMonoid M] in
theorem isSome_update [DecidableEq ι] [DecidableEq π] {i j : ι} {v x : M}
    (h : val j ≠ none → tot (A.parentOf j) ≠ none) (hj : Function.update val i (some v) j ≠ none) :
    Function.update tot (A.parentOf i) (some x) (A.parentOf j) ≠ none := by
  by_cases heq : A.parentOf j = A.parentOf i
  · simp [heq]
  · rw [update_of_ne heq]
    refine h ?_
    rwa [update_of_ne] at hj
    rintro rfl
    exact heq rfl

/-- The total of a live parent, present or not, is the sum over its children. -/
theorem Tracks.getD_eq (h : A.Tracks live tot val) {p : π} (hp : live p) :
    (tot p).getD 0 = A.sum val p := by
  cases ht : tot p with
  | some x => exact h.sum_eq ht
  | none =>
    refine (sum_eq_zero fun i hi => ?_).symm
    have hnone : val i = none := by
      by_contra hsome
      exact h.isSome hsome ((A.mem_kids.1 hi).symm ▸ hp) (A.mem_kids.1 hi ▸ ht)
    rw [hnone, getD_none]

/-- **The incremental update**: a new total from which the old value of the child has been taken
out and into which the new one has been put is the sum again. -/
theorem Tracks.revise [DecidableEq ι] [DecidableEq π] (h : A.Tracks live tot val) {i : ι} {v x : M}
    (hlive : live (A.parentOf i)) (hx : x + (val i).getD 0 = (tot (A.parentOf i)).getD 0 + v) :
    A.Tracks live (Function.update tot (A.parentOf i) (some x)) (Function.update val i (some v)) where
  sum_eq {p y} hy := by
    by_cases hp : p = A.parentOf i
    · subst hp
      rw [update_self, some.injEq] at hy
      subst hy
      rw [h.getD_eq hlive, ← sum_update] at hx
      exact add_right_cancel hx
    · rw [update_of_ne hp] at hy
      rw [h.sum_eq hy, sum_update_of_ne hp]
  exists_kid {p} hp := by
    by_cases heq : p = A.parentOf i
    · exact ⟨i, A.mem_kids.2 heq.symm, by simp⟩
    rw [update_of_ne heq] at hp
    obtain ⟨j, hj, hval⟩ := h.exists_kid hp
    refine ⟨j, hj, ?_⟩
    rwa [update_of_ne]
    rintro rfl
    exact heq (A.mem_kids.1 hj).symm
  isSome hj hl := isSome_update (fun hj => h.isSome hj hl) hj

/-- Totals of parents that are no longer live may be dropped. -/
theorem Tracks.retain (h : A.Tracks live tot val) (hsub : ∀ p, live' p → live p)
    {tot'} (hkeep : ∀ p, live' p → tot' p = tot p)
    (hdrop : ∀ p, ¬live' p → tot' p = none) : A.Tracks live' tot' val where
  sum_eq {p x} hx := by
    by_cases hp : live' p
    · exact h.sum_eq (hkeep p hp ▸ hx)
    · simp [hdrop p hp] at hx
  exists_kid {p} hp := by
    by_cases hl : live' p
    · exact h.exists_kid (hkeep p hl ▸ hp)
    · exact (hp (hdrop p hl)).elim
  isSome {i} hi hl := by
    rw [hkeep _ hl]
    exact h.isSome hi (hsub _ hl)

/-- Every total is the sum of the values of its children and some rest, and every parent of a valued
child has one. -/
structure Covers (A : Aggregate ι π) (tot : π → Option M) (val : ι → Option M) : Prop where
  exists_add : ∀ p, ∃ x, (tot p).getD 0 = A.sum val p + x
  isSome : ∀ {i}, val i ≠ none → tot (A.parentOf i) ≠ none

theorem Covers.revise [DecidableEq ι] [DecidableEq π] (h : A.Covers tot val) {i : ι} {v x : M}
    (hx : x + (val i).getD 0 = (tot (A.parentOf i)).getD 0 + v) :
    A.Covers (Function.update tot (A.parentOf i) (some x)) (Function.update val i (some v)) where
  exists_add p := by
    obtain ⟨y, hy⟩ := h.exists_add p
    refine ⟨y, ?_⟩
    by_cases hp : p = A.parentOf i
    · subst hp
      rw [update_self, getD_some]
      refine add_right_cancel (b := (val i).getD 0) ?_
      rw [hx, hy, add_right_comm, add_right_comm _ y, sum_update]
    · rw [update_of_ne hp, hy, sum_update_of_ne hp]
  isSome := isSome_update h.isSome

/-- Values may be dropped, and so may the totals of parents without valued children. -/
theorem Covers.retain (h : A.Covers tot val) {tot' val'}
    (hval : ∀ i, val' i ≠ none → val' i = val i)
    (htot : ∀ p, tot' p = tot p ∨ ∀ i ∈ A.kids p, val' i = none) : A.Covers tot' val' where
  exists_add p := by
    obtain htot | hnone := htot p
    · obtain ⟨x, hx⟩ := h.exists_add p
      refine ⟨∑ i ∈ A.kids p, (if val' i = none then (val i).getD 0 else 0) + x, ?_⟩
      rw [htot, hx, ← add_assoc, sum, sum, ← sum_add_distrib]
      congr 1
      refine Finset.sum_congr rfl fun i _ => ?_
      by_cases hi : val' i = none
      · simp [hi]
      · rw [if_neg hi, add_zero, hval i hi]
    · refine ⟨(tot' p).getD 0, ?_⟩
      rw [sum, sum_eq_zero fun i hi => by rw [hnone i hi, getD_none], zero_add]
  isSome {i} hi := by
    obtain htot | hnone := htot (A.parentOf i)
    · rw [htot]
      exact h.isSome (hval i hi ▸ hi)
    · exact (hi (hnone i (A.mem_kids.2 rfl))).elim

end Aggregate

end NeonHearth
