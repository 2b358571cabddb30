import Mathlib.Data.List.MinMax

/-!
# Queries for the top row

A query that sorts rows by a key and takes the first one returns a row with the greatest key,
`List.argmax`.  How such a query answers after rows are appended, and how a key that ranks one kind
of rows above all others splits it into two queries.
-/

namespace NeonHearth

open List

variable {α β γ : Type*} [LinearOrder β] [LinearOrder γ] {f : α → β} {g : α → γ} {l : List α}

/-- Keys that compare alike give the same answer. -/
theorem argmax_congr (h : ∀ a ∈ l, ∀ b ∈ l, f a < f b ↔ g a < g b) : l.argmax f = l.argmax g := by
  induction l using reverseRecOn with
  | nil => rfl
  | append_singleton l b ih =>
    have hl := ih fun a ha c hc => h a (mem_append_left _ ha) c (mem_append_left _ hc)
    rw [argmax_concat, argmax_concat, ← hl]
    cases hm : l.argmax f with
    | none => rfl
    | some m =>
      have hmem := mem_append_left [b] (argmax_mem hm)
      simp [h m hmem b (mem_append_right _ (mem_singleton_self b))]

/-- A row with a greater key than all others becomes the answer. -/
theorem argmax_concat_of_lt {b : α} (h : ∀ a ∈ l, f a < f b) : (l ++ [b]).argmax f = some b := by
  rw [argmax_concat]
  cases hm : l.argmax f with
  | none => rfl
  | some m => exact if_pos (h m (argmax_mem hm))

/-- Rows appended with increasing keys: the last one is the answer. -/
theorem argmax_append_of_lt {new} (h : ∀ a ∈ l, ∀ b ∈ new, f a < f b)
    (hnew : new.Pairwise fun a b => f a < f b) :
    (l ++ new).argmax f = new.getLast?.or (l.argmax f) := by
  induction new generalizing l with
  | nil => simp
  | cons b new ih =>
    obtain ⟨hb, hnew⟩ := pairwise_cons.1 hnew
    rw [append_cons, ih (fun a ha c hc => ?_) hnew,
      argmax_concat_of_lt fun a ha => h a ha b (mem_cons_self ..), getLast?_cons]
    · cases new.getLast? <;> rfl
    · obtain ha | ha := mem_append.1 ha
      · exact h a ha c (mem_cons_of_mem _ hc)
      · rw [mem_singleton.1 ha]
        exact hb c hc

/-- A key that ranks the rows with `p` above the others: they are asked first. -/
theorem argmax_eq_or (p) (h : ∀ a ∈ l, ∀ b ∈ l, p a = true → p b = false → f b < f a) :
    l.argmax f = ((l.filter p).argmax f).or ((l.filter fun a => !p a).argmax f) := by
  induction l using reverseRecOn with
  | nil => rfl
  | append_singleton l b ih =>
    have hl := ih fun a ha c hc => h a (mem_append_left _ ha) c (mem_append_left _ hc)
    have hb : b ∈ l ++ [b] := mem_append_right _ (mem_singleton_self b)
    rw [argmax_concat, hl, filter_append, filter_append]
    cases hpb : p b with
    | true =>
      -- the new row competes with the rows of its kind and outranks the others
      rw [show [b].filter p = [b] by simp [hpb], show ([b].filter fun a => !p a) = [] by simp [hpb],
        append_nil, argmax_concat]
      cases (l.filter p).argmax f with
      | some m => simp only [Option.some_or]; split <;> rfl
      | none =>
        cases hm : (l.filter fun a => !p a).argmax f with
        | none => rfl
        | some m =>
          have hmem := mem_filter.1 (argmax_mem hm)
          have hlt := h b hb m (mem_append_left _ hmem.1) hpb (by simpa using hmem.2)
          simp [hlt]
    | false =>
      rw [show [b].filter p = [] by simp [hpb], show ([b].filter fun a => !p a) = [b] by simp [hpb],
        append_nil, argmax_concat]
      cases hm : (l.filter p).argmax f with
      | none => rfl
      | some m =>
        have hmem := mem_filter.1 (argmax_mem hm)
        have hlt := h m (mem_append_left _ hmem.1) b hb hmem.2 hpb
        simp [hlt.le]

end NeonHearth
