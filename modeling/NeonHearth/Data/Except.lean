import Mathlib.Data.List.Forall2

/-!
# Fallible code

Small steps of functions that return early with an error, and lemmas that take a successful run
apart: `Except.bind_eq_ok` splits a sequence, `reject_eq_ok` and `okOr_eq_ok` say what a passed
check means, `foldlM_invariant` and `foldlM_ok` are the rules for a fallible loop, and `mapM_eq_ok` is
that for a fallible map.  What holds of the result of a run can be decided by running it.
-/

namespace NeonHearth

open List

universe u v

variable {ε : Type u} {α β : Type v}

/-- Fails with `e` when `c` holds. -/
def reject (c : Prop) [Decidable c] (e : ε) : Except ε Unit := if c then .error e else .ok ()

/-- `Option::ok_or`. -/
def okOr (o : Option α) (e : ε) : Except ε α :=
  match o with
  | some a => .ok a
  | none => .error e

variable {e : ε} {a : α} {x : Except ε α} {f : α → Except ε β} {b : β} {l : List α}

@[simp]
theorem reject_eq_ok {c : Prop} [Decidable c] {u : Unit} : reject c e = .ok u ↔ ¬c := by
  unfold reject
  split <;> simp_all

@[simp]
theorem reject_eq_error {c : Prop} [Decidable c] {e' : ε} :
    reject c e = .error e' ↔ c ∧ e = e' := by
  unfold reject
  split <;> simp_all

@[simp]
theorem okOr_eq_ok {o} : okOr o e = .ok a ↔ o = some a := by
  cases o <;> simp [okOr]

instance decidableExists (o : Option α) {p : α → Prop} [DecidablePred p] :
    Decidable (∃ a, o = some a ∧ p a) :=
  inferInstanceAs (Decidable (∃ a ∈ o, p a))

instance decidableForall (o : Option α) {p : α → Prop} [DecidablePred p] :
    Decidable (∀ a, o = some a → p a) :=
  inferInstanceAs (Decidable (∀ a ∈ o, p a))

instance decidableExistsOk {p : α → Prop} [DecidablePred p] : Decidable (∃ a, x = .ok a ∧ p a) :=
  match x with
  | .ok a => decidable_of_iff (p a) (by simp)
  | .error _ => .isFalse (by simp)

instance (priority := low) decidableError [DecidableEq ε] : Decidable (x = .error e) :=
  match x with
  | .ok _ => .isFalse (by simp)
  | .error e' => decidable_of_iff (e' = e) (by simp)

/-- What a run is decided to give, and what follows from it. -/
theorem exists_and_of_imp {p q : α → Prop} (h : ∃ a, p a) (hq : ∀ a, p a → q a) :
    ∃ a, p a ∧ q a := by
  obtain ⟨a, hp⟩ := h
  exact ⟨a, hp, hq a hp⟩

theorem exists_and_imp {p q r : α → Prop} (h : ∃ a, p a ∧ q a) (hr : ∀ a, p a → q a → r a) :
    ∃ a, p a ∧ q a ∧ r a := by
  obtain ⟨a, hp, hq⟩ := h
  exact ⟨a, hp, hq, hr a hp hq⟩

theorem exists₂_and_imp {p : α → Prop} {q r s : α → β → Prop} (h : ∃ a, p a ∧ ∃ b, q a b ∧ r a b)
    (hs : ∀ a b, p a → q a b → r a b → s a b) : ∃ a b, p a ∧ q a b ∧ r a b ∧ s a b := by
  obtain ⟨a, hp, b, hq, hr⟩ := h
  exact ⟨a, b, hp, hq, hr, hs a b hp hq hr⟩

theorem Except.bind_eq_ok : (x >>= f) = .ok b ↔ ∃ a, x = .ok a ∧ f a = .ok b := by
  cases x <;> simp [bind, Except.bind]

theorem Except.bind_eq_error :
    (x >>= f) = .error e ↔ x = .error e ∨ ∃ a, x = .ok a ∧ f a = .error e := by
  cases x <;> simp [bind, Except.bind]

theorem Except.pure_ne_error : (pure a : Except ε α) ≠ .error e := by
  simp [pure, Except.pure]

theorem Except.pure_eq_ok {b : α} : (pure a : Except ε α) = .ok b ↔ a = b := by
  simp [pure, Except.pure]

theorem Except.mapError_eq_ok {ε'} {f : ε → ε'} : x.mapError f = .ok a ↔ x = .ok a := by
  cases x <;> simp [Except.mapError]

theorem Except.map_eq_ok {f : α → β} : x.map f = .ok b ↔ ∃ a, x = .ok a ∧ f a = b := by
  cases x <;> simp [Except.map]

theorem Except.map_eq_error {f : α → β} : x.map f = .error e ↔ x = .error e := by
  cases x <;> simp [Except.map]

theorem Except.map_bind {γ} (x) (f : α → Except ε β) (g : β → γ) :
    (x >>= f).map g = x >>= fun a => (f a).map g := by
  cases x <;> rfl

/-- Sequences are equal if they go on alike from a success. -/
theorem Except.bind_congr_ok {g} (h : ∀ a, x = .ok a → f a = g a) : (x >>= f) = x >>= g := by
  cases x with
  | error e => rfl
  | ok a => exact h a rfl

theorem Except.toOption_eq_some : x.toOption = some a ↔ x = .ok a := by
  cases x <;> simp [Except.toOption]

variable {I : List α → β → Prop}

/-- What holds of the items that a loop has gone over, after the next one. -/
theorem forall_mem_concat {p : α → Prop} :
    (∀ x ∈ l ++ [a], p x) ↔ (∀ x ∈ l, p x) ∧ p a := by
  simp [or_imp, forall_and]

/-- What holds of the start value and is kept by every successful pass holds of the result, in
terms of the items passed so far. -/
theorem foldlM_invariant {f : β → α → Except ε β} {r : β} (hr : l.foldlM f b = .ok r) (h₀ : I [] b)
    (hstep : ∀ done a rest b b', l = done ++ a :: rest → I done b → f b a = .ok b' →
      I (done ++ [a]) b') : I l r := by
  suffices h : ∀ done rest b, l = done ++ rest → I done b → rest.foldlM f b = .ok r → I l r from
    h [] l b rfl h₀ hr
  intro done rest
  induction rest generalizing done with
  | nil =>
    intro b hl hI hb
    cases hb
    rwa [hl, append_nil]
  | cons a rest ih =>
    intro b hl hI hb
    rw [foldlM_cons] at hb
    obtain ⟨b', hb', hb⟩ := Except.bind_eq_ok.1 hb
    exact ih (done ++ [a]) b' (by simp [hl]) (hstep done a rest b b' hl hI hb') hb

/-- A loop succeeds if every pass does, from what the passes before it have established. -/
theorem foldlM_ok {f : β → α → Except ε β} (h₀ : I [] b)
    (hstep : ∀ done a rest b, l = done ++ a :: rest → I done b →
      ∃ b', f b a = .ok b' ∧ I (done ++ [a]) b') : ∃ r, l.foldlM f b = .ok r ∧ I l r := by
  suffices h : ∀ done rest b, l = done ++ rest → I done b → ∃ r, rest.foldlM f b = .ok r ∧ I l r from
    h [] l b rfl h₀
  intro done rest
  induction rest generalizing done with
  | nil =>
    intro b hl hI
    exact ⟨b, rfl, by rwa [hl, append_nil]⟩
  | cons a rest ih =>
    intro b hl hI
    obtain ⟨b', hb', hI'⟩ := hstep done a rest b hl hI
    obtain ⟨r, hr, hI⟩ := ih (done ++ [a]) b' (by simp [hl]) hI'
    exact ⟨r, by rw [foldlM_cons, hb']; exact hr, hI⟩

/-- A loop fails in one of its passes. -/
theorem foldlM_error {f : β → α → Except ε β} (h : l.foldlM f b = .error e) :
    ∃ a ∈ l, ∃ b', f b' a = .error e := by
  induction l generalizing b with
  | nil => cases h
  | cons a l ih =>
    rw [foldlM_cons] at h
    obtain h | ⟨b', -, h⟩ := Except.bind_eq_error.1 h
    · exact ⟨a, mem_cons_self, b, h⟩
    · obtain ⟨a', ha', hfails⟩ := ih h
      exact ⟨a', mem_cons_of_mem _ ha', hfails⟩

variable {r : List β}

/-- A map that can fail succeeds when it succeeds on every item. -/
theorem mapM_eq_ok : l.mapM f = .ok r ↔ List.Forall₂ (fun a b => f a = .ok b) l r := by
  induction l generalizing r with
  | nil => rw [mapM_nil, Except.pure_eq_ok, forall₂_nil_left_iff, eq_comm]
  | cons a l ih =>
    simp only [mapM_cons, Except.bind_eq_ok, Except.pure_eq_ok, ih]
    constructor
    · rintro ⟨b, hb, rest, hrest, rfl⟩
      exact .cons hb hrest
    · intro h
      cases h with
      | cons hb hrest => exact ⟨_, hb, _, hrest, rfl⟩

variable {R : α → β → Prop}

theorem forall₂_exists_right (h : List.Forall₂ R l r) {a : α} (ha : a ∈ l) : ∃ b ∈ r, R a b := by
  induction h with
  | nil => cases ha
  | cons hR _ ih =>
    obtain rfl | ha := mem_cons.1 ha
    · exact ⟨_, mem_cons_self, hR⟩
    · obtain ⟨b, hb, hR⟩ := ih ha
      exact ⟨b, mem_cons_of_mem _ hb, hR⟩

theorem forall₂_exists_left (h : List.Forall₂ R l r) {b : β} (hb : b ∈ r) : ∃ a ∈ l, R a b :=
  forall₂_exists_right (R := fun b a => R a b) (List.Forall₂.flip h) hb

theorem forM_ok {f : α → Except ε PUnit} (h : ∀ a ∈ l, f a = .ok ⟨⟩) : l.forM f = .ok ⟨⟩ := by
  induction l with
  | nil => rfl
  | cons a l ih =>
    rw [List.forM, h a List.mem_cons_self]
    exact ih fun b hb => h b (mem_cons_of_mem _ hb)

end NeonHearth
