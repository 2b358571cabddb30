import Mathlib.Data.PFunctor.Univariate.Basic

/-!
# Programs of awaited calls

An asynchronous function that only touches the outside world through awaited calls is a tree of
such calls: what it does next depends on the reply to the last one.  Between two calls it may be
stopped for good, so what is stored has to be in order after each of them.

* `Prog F ε α` : programs over the calls of the interface `F` that return an `α` or fail;
* `Prog.next` : one call, with the answer that the outside world chooses;
* `Prog.Obeys` : every call is made in a state in which it is `allowed`, and what is returned meets
  the postcondition;
* `Prog.tracker` : rules about the order of calls alone, for programs that share their state.
-/

namespace NeonHearth

/-- Programs over the calls `F.A` with replies `F.B`. -/
inductive Prog (F : PFunctor.{0, 0}) (ε α : Type) where
  | pure (a : α)
  | throw (e : ε)
  | call (c : F.A) (k : F.B c → Prog F ε α)

namespace Prog

variable {F : PFunctor.{0, 0}} {ε α β : Type}

def bind : Prog F ε α → (α → Prog F ε β) → Prog F ε β
  | .pure a, f => f a
  | .throw e, _ => .throw e
  | .call c k, f => .call c fun reply => (k reply).bind f

instance : Monad (Prog F ε) where
  pure := .pure
  bind := .bind

/-- A single call. -/
def await (c : F.A) : Prog F ε (F.B c) := .call c .pure

variable {W S : Type}

/-- How calls act on a state, given an answer of the outside world: a call may be impossible (its
caller is stuck), fail, or reply. -/
abbrev Handler (F : PFunctor.{0, 0}) (ε W S : Type) : Type :=
  (c : F.A) → W → S → Option (Except ε (F.B c) × S)

variable (run : Handler F ε W S)

/-- The program and the state after the next call. -/
def next : Prog F ε α → W → S → Option (Prog F ε α × S)
  | .pure _, _, _ | .throw _, _, _ => none
  | .call c k, w, s =>
    match run c w s with
    | none => none
    | some (.ok reply, s') => some (k reply, s')
    | some (.error e, s') => some (.throw e, s')

/-- Every call is made in a state in which it is allowed, and `Q` holds on return. -/
def Obeys (allowed : F.A → S → Prop) (Q : Except ε α → S → Prop) : Prog F ε α → S → Prop
  | .pure a, s => Q (.ok a) s
  | .throw e, s => Q (.error e) s
  | .call c k, s => allowed c s ∧ ∀ w s',
      (∀ reply, run c w s = some (.ok reply, s') → Obeys allowed Q (k reply) s') ∧
        ∀ e, run c w s = some (.error e, s') → Q (.error e) s'

variable {run} {allowed : F.A → S → Prop} {Q : Except ε α → S → Prop} {p : Prog F ε α}

theorem Obeys.mono {Q'} (hQ : ∀ r s, Q r s → Q' r s) {s : S}
    (h : p.Obeys run allowed Q s) : p.Obeys run allowed Q' s := by
  induction p generalizing s with
  | pure | throw => exact hQ _ _ h
  | call c k ih =>
    refine ⟨h.1, fun w s' => ⟨fun reply hr => ?_, fun e hr => hQ _ _ ((h.2 w s').2 e hr)⟩⟩
    exact ih reply ((h.2 w s').1 reply hr)

theorem Obeys.bind {Q} {f : α → Prog F ε β} {s : S}
    (h : p.Obeys run allowed (fun r s' => match r with
      | .ok a => (f a).Obeys run allowed Q s'
      | .error e => Q (.error e) s') s) : (p >>= f).Obeys run allowed Q s := by
  induction p generalizing s with
  | pure | throw => exact h
  | call c k ih =>
    refine ⟨h.1, fun w s' => ⟨fun reply hr => ?_, fun e hr => (h.2 w s').2 e hr⟩⟩
    exact ih reply ((h.2 w s').1 reply hr)

theorem Obeys.await {c : F.A} {f} {s : S} (hc : allowed c s)
    (hok : ∀ w s' reply, run c w s = some (.ok reply, s') → (f reply).Obeys run allowed Q s')
    (herror : ∀ w s' e, run c w s = some (.error e, s') → Q (.error e) s') :
    (Prog.await c >>= f).Obeys run allowed Q s :=
  ⟨hc, fun w s' => ⟨fun reply => hok w s' reply, fun e => herror w s' e⟩⟩

/-- **One call of a program that obeys the rules**: it was allowed, and the rest obeys them too. -/
theorem Obeys.next {p'} {w : W} {s s' : S} (h : p.Obeys run allowed Q s)
    (hn : p.next run w s = some (p', s')) :
    p'.Obeys run allowed Q s' ∧
      ∃ c k r, p = .call c k ∧ allowed c s ∧ run c w s = some (r, s') := by
  cases p with
  | pure | throw => cases hn
  | call c k =>
    rw [Prog.next] at hn
    split at hn
    · cases hn
    · next reply s₁ hr =>
      cases hn
      exact ⟨(h.2 w _).1 reply hr, c, k, _, rfl, h.1, hr⟩
    · next e s₁ hr =>
      cases hn
      exact ⟨(h.2 w _).2 e hr, c, k, _, rfl, h.1, hr⟩

/-- What a program that makes no further call ends with. -/
def result : Prog F ε α → Option (Except ε α)
  | .pure a => some (.ok a)
  | .throw e => some (.error e)
  | .call _ _ => none

theorem Obeys.result {s : S} {r} (h : p.Obeys run allowed Q s) (hr : p.result = some r) :
    Q r s := by
  cases p with
  | pure | throw => cases hr; exact h
  | call c k => cases hr

/-! ### Calls of one kind -/

/-- The program makes only calls of the given kind. -/
def Only (P : F.A → Prop) : Prog F ε α → Prop
  | .pure _ | .throw _ => True
  | .call c k => P c ∧ ∀ reply, Only P (k reply)

theorem Only.bind {P} {f : α → Prog F ε β} (h : p.Only P) (hf : ∀ a, (f a).Only P) :
    (p >>= f).Only P := by
  induction p with
  | pure a => exact hf a
  | throw e => trivial
  | call c k ih => exact ⟨h.1, fun reply => ih reply (h.2 reply)⟩

theorem Only.mono {P P'} (hP : ∀ c, P c → P' c) (h : p.Only P) : p.Only P' := by
  induction p with
  | pure | throw => trivial
  | call c k ih => exact ⟨hP c h.1, fun reply => ih reply (h.2 reply)⟩

/-- Calls of a kind that is always allowed and keeps an invariant. -/
theorem Only.preserves {P I}
    (hP : ∀ c s, P c → I s → allowed c s ∧ ∀ w r s', run c w s = some (r, s') → I s')
    (h : p.Only P) {s : S} (hs : I s) : p.Obeys run allowed (fun _ => I) s := by
  induction p generalizing s with
  | pure | throw => exact hs
  | call c k ih =>
    obtain ⟨hallowed, hkeep⟩ := hP c s h.1 hs
    exact ⟨hallowed, fun w s' => ⟨fun reply hr => ih reply (h.2 reply) (hkeep w _ s' hr),
      fun e hr => hkeep w _ s' hr⟩⟩

/-! ### Calls alone

When others act on the state between two calls, what a program can rely on is what it has called and
been told itself. -/

section Tracker

variable (δ : S → (c : F.A) → F.B c → S)

/-- Keeps track of the calls and their replies, which may be any. -/
def tracker : Handler F ε ((c : F.A) → Option (F.B c)) S :=
  fun c w s => (w c).map fun reply => (.ok reply, δ s c reply)

variable {δ} {Q : Except ε α → S → Prop} {s : S}

/-- The rules are kept after each call, whatever the reply. -/
theorem Obeys.reply {c : F.A} {k}
    (h : (Prog.call c k).Obeys (tracker δ) allowed Q s) (reply : F.B c) :
    allowed c s ∧ (k reply).Obeys (tracker δ) allowed Q (δ s c reply) := by
  classical
  refine ⟨h.1, (h.2 (Function.update (fun _ => none) c (some reply)) _).1 reply ?_⟩
  simp [tracker]

theorem Obeys.track {c : F.A} {f} (hc : allowed c s)
    (hf : ∀ reply, (f reply).Obeys (tracker δ) allowed Q (δ s c reply)) :
    (Prog.await c >>= f).Obeys (tracker δ) allowed Q s := by
  refine Obeys.await hc (fun w s' reply hr => ?_) (fun w s' e hr => ?_)
  · obtain ⟨reply', -, heq⟩ := Option.map_eq_some_iff.1 hr
    cases heq
    exact hf reply
  · obtain ⟨reply', -, heq⟩ := Option.map_eq_some_iff.1 hr
    cases heq

theorem Only.obeys {P I} (hP : ∀ c s, P c → I s → allowed c s ∧ ∀ reply, I (δ s c reply))
    (h : p.Only P) (hs : I s) : p.Obeys (tracker δ) allowed (fun _ => I) s := by
  refine h.preserves (fun c s hc hI => ⟨(hP c s hc hI).1, fun w r s' hr => ?_⟩) hs
  obtain ⟨reply, -, heq⟩ := Option.map_eq_some_iff.1 hr
  cases heq
  exact (hP c s hc hI).2 reply

end Tracker

end Prog

end NeonHearth
