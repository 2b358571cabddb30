import NeonHearth.Data.Except

/-!
# Code that changes a state in place

A method that takes its receiver by mutable reference may fail after it has changed something, and
what it has changed by then stays.  `InPlace σ ε α` is such code.  A pure function from the state to
`Except ε (α × σ)` cannot express that: on failure there is no state.  `InPlace.Atomic` says that
code is such a function nevertheless, since it leaves the state alone when it fails.

* `InPlace.Atomic` and `InPlace.Atomic.unchanged` : a failure leaves the state as it was;
* `InPlace.Follows` : the same of code that does more than the pure function when it succeeds.
-/

namespace NeonHearth

/-- Code on a state `σ` that may fail with `ε`. -/
abbrev InPlace (σ ε α : Type) : Type := ExceptT ε (StateM σ) α

namespace InPlace

variable {σ ε α β : Type}

/-- The result and the state afterwards. -/
def exec (m : InPlace σ ε α) (s : σ) : Except ε α × σ := (ExceptT.run m).run s

/-- A check, which does not change the state. -/
def check (x : Except ε α) : InPlace σ ε α := ExceptT.mk (pure x)

@[simp]
theorem exec_pure (a : α) (s : σ) : exec (pure a : InPlace σ ε α) s = (.ok a, s) := rfl

@[simp]
theorem exec_check (x : Except ε α) (s : σ) : exec (check x) s = (x, s) := rfl

@[simp]
theorem exec_get (s : σ) : exec (get : InPlace σ ε σ) s = (.ok s, s) := rfl

@[simp]
theorem exec_set (s s' : σ) : exec (set s' : InPlace σ ε PUnit) s = (.ok ⟨⟩, s') := rfl

@[simp]
theorem exec_modify (f : σ → σ) (s : σ) :
    exec (modify f : InPlace σ ε PUnit) s = (.ok ⟨⟩, f s) := rfl

theorem exec_bind (m) (k : α → InPlace σ ε β) (s : σ) : exec (m >>= k) s = match exec m s with
      | (.ok a, s') => exec (k a) s'
      | (.error e, s') => (.error e, s') := by
  change (match (ExceptT.run m).run s with
    | (x, s') => (ExceptT.bindCont k x).run s') = _
  rcases h : exec m s with ⟨x, s'⟩
  have hrun : (ExceptT.run m).run s = (x, s') := h
  rw [hrun]
  cases x <;> rfl

variable {m : InPlace σ ε α}

theorem exec_bind_ok {a : α} {s s' : σ} (h : exec m s = (.ok a, s'))
    (k : α → InPlace σ ε β) : exec (m >>= k) s = exec (k a) s' := by
  rw [exec_bind, h]

theorem exec_forM {k : α → InPlace σ ε PUnit} {f}
    (h : ∀ a s, exec (k a) s = (.ok ⟨⟩, f s a)) (l : List α) (s : σ) :
    exec (l.forM k) s = (.ok ⟨⟩, l.foldl f s) := by
  induction l generalizing s with
  | nil => rfl
  | cons a l ih =>
    rw [List.forM, exec_bind_ok (h a s), ih]
    rfl

/-- The outcome of a pure function that returns the state afterwards. -/
def outcome (s : σ) : Except ε (α × σ) → Except ε α × σ
  | .ok (a, s') => (.ok a, s')
  | .error e => (.error e, s)

/-- From the state `s` the code does what the pure result says. -/
def Atomic (m : InPlace σ ε α) (s : σ) (x : Except ε (α × σ)) : Prop := exec m s = outcome s x

variable {x : Except ε (α × σ)}

variable {s : σ}

/-- **A failure leaves the state as it was.** -/
theorem Atomic.unchanged (h : Atomic m s x) {e : ε}
    (he : (exec m s).1 = .error e) : (exec m s).2 = s := by
  rw [Atomic] at h
  rw [h] at he ⊢
  cases x with
  | error => rfl
  | ok => cases he

theorem Atomic.get_bind {k} {x : Except ε (β × σ)} (h : Atomic (k s) s x) :
    Atomic (get >>= k) s x := h

variable {k : α → InPlace σ ε β}

theorem Atomic.check_bind {x f}
    (h : ∀ a, x = .ok a → Atomic (k a) s (f a)) : Atomic (check x >>= k) s (x >>= f) := by
  rw [Atomic, exec_bind, exec_check]
  cases x with
  | error => rfl
  | ok a => exact h a rfl

/-- Code that cannot fail any more comes after atomic code. -/
theorem Atomic.bind (h : Atomic m s x) {f}
    (hk : ∀ a s', x = .ok (a, s') → exec (k a) s' = outcome s (f (a, s'))) :
    Atomic (m >>= k) s (x >>= f) := by
  rw [Atomic, exec_bind, h]
  cases x with
  | error => rfl
  | ok y => exact hk y.1 y.2 rfl

/-- From the state `s` the code fails like the pure function and changes nothing, or it succeeds with a
result and a state that fit. -/
def Follows (m : InPlace σ ε α) (s : σ) (x : Except ε β) (R : β → α → σ → Prop) : Prop :=
  match x with
  | .ok b => ∃ a s', exec m s = (.ok a, s') ∧ R b a s'
  | .error e => exec m s = (.error e, s)

section Follows

variable {γ : Type} {k : γ → InPlace σ ε α} {R : β → α → σ → Prop}

theorem Follows.get_bind {k} {x : Except ε β} (h : Follows (k s) s x R) :
    Follows (get >>= k) s x R := h

theorem Follows.check_bind {x f}
    (h : ∀ c, Follows (k c) s (f c) R) : Follows (check x >>= k) s (x >>= f) R := by
  cases x with
  | error => rfl
  | ok c => exact h c

theorem Follows.unchanged {x} (h : Follows m s x R) {e : ε}
    (he : (exec m s).1 = .error e) : (exec m s).2 = s := by
  cases x with
  | error =>
    have h : exec m s = (.error _, s) := h
    rw [h]
  | ok =>
    obtain ⟨a, s', h, -⟩ := h
    rw [h] at he
    cases he

end Follows

end InPlace

end NeonHearth
