import Mathlib.Data.Set.Insert

/-!
# Merging labels

Labels are merged to the label they share, or to a fixed label `top` when they differ.  `Merged`
is the relation between a set of labels and its merged label; a label added later is merged with
`mergeLabel` (`Merged.insert`), and two different labels force `top` (`Merged.eq_top`).
-/

namespace NeonHearth

variable {α : Type*} {top : α}

/-- Merges two labels. -/
def mergeLabel [DecidableEq α] (top a b : α) : α := if a = b then a else top

/-- `c` is the merged label of the labels in `s`. -/
inductive Merged (top : α) (s : Set α) (c : α) : Prop
  | same (hmem : c ∈ s) (hall : ∀ x ∈ s, x = c)
  | mixed {x y : α} (hx : x ∈ s) (hy : y ∈ s) (hne : x ≠ y) (htop : c = top)

variable {s t : Set α} {c d : α}

theorem merged_singleton (c : α) : Merged top {c} c := .same rfl fun _ h => h

/-- Two different labels merge to `top`. -/
theorem Merged.eq_top (h : Merged top s c) {x y : α} (hx : x ∈ s) (hy : y ∈ s) (hne : x ≠ y) :
    c = top := by
  cases h with
  | same _ hall => exact absurd ((hall x hx).trans (hall y hy).symm) hne
  | mixed _ _ _ htop => exact htop

theorem Merged.unique (hc : Merged top s c) (hd : Merged top s d) : c = d := by
  cases hc with
  | same hmem hall =>
    cases hd with
    | same hmem' _ => exact (hall d hmem').symm
    | mixed hx hy hne _ => exact absurd ((hall _ hx).trans (hall _ hy).symm) hne
  | mixed hx hy hne htop => exact htop.trans (hd.eq_top hx hy hne).symm

theorem Merged.insert [DecidableEq α] (h : Merged top s c) (x : α) :
    Merged top (insert x s) (mergeLabel top c x) := by
  unfold mergeLabel
  split
  · next hcx =>
    subst hcx
    cases h with
    | same hmem hall =>
      exact .same (Set.mem_insert _ _) fun y hy => hy.elim id (hall y)
    | mixed hx hy hne htop => exact .mixed (.inr hx) (.inr hy) hne htop
  · next hcx =>
    cases h with
    | same hmem _ => exact .mixed (.inr hmem) (Set.mem_insert _ _) hcx rfl
    | mixed hx hy hne _ => exact .mixed (.inr hx) (.inr hy) hne rfl

/-- The labels `g` of merged groups `f` merge like the labels in the groups. -/
theorem Merged.iUnion {ι : Type*} {p : ι → Prop} {f : ι → Set α} {g : ι → Option α}
    (h : ∀ i, p i → ∀ a, g i = some a → Merged top (f i) a)
    (hc : Merged top {x | ∃ i, p i ∧ g i = some x} c) :
    Merged top {x | ∃ i, p i ∧ g i ≠ none ∧ x ∈ f i} c := by
  by_cases hmix : ∃ i a, p i ∧ g i = some a ∧ ∃ x ∈ f i, ∃ y ∈ f i, x ≠ y
  · obtain ⟨i, a, hi, ha, x, hx, y, hy, hne⟩ := hmix
    have hsome : g i ≠ none := by simp [ha]
    refine .mixed ⟨i, hi, hsome, hx⟩ ⟨i, hi, hsome, hy⟩ hne ?_
    have htop : a = top := (h i hi a ha).eq_top hx hy hne
    cases hc with
    | same _ hall => rw [← hall a ⟨i, hi, ha⟩, htop]
    | mixed _ _ _ hc => exact hc
  · -- every group has one label only, its merged one
    have hsame : ∀ i a, p i → g i = some a → a ∈ f i ∧ ∀ x ∈ f i, x = a := fun i a hi ha => by
      cases h i hi a ha with
      | same hmem hall => exact ⟨hmem, hall⟩
      | mixed hx hy hne _ => exact absurd ⟨i, a, hi, ha, _, hx, _, hy, hne⟩ hmix
    have hmem : ∀ x, (∃ i, p i ∧ g i = some x) → ∃ i, p i ∧ g i ≠ none ∧ x ∈ f i := by
      rintro x ⟨i, hi, hx⟩
      exact ⟨i, hi, by simp [hx], (hsame i x hi hx).1⟩
    cases hc with
    | same hc hall =>
      refine .same (hmem c hc) ?_
      rintro x ⟨j, hj, hsome, hx⟩
      obtain ⟨a, ha⟩ := Option.ne_none_iff_exists'.1 hsome
      rw [(hsame j a hj ha).2 x hx, hall a ⟨j, hj, ha⟩]
    | mixed hx hy hne htop => exact .mixed (hmem _ hx) (hmem _ hy) hne htop

end NeonHearth
