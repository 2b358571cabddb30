import Mathlib.Logic.Relation

/-!
# Machines and the states a guarded run reaches

A `Machine` is a partial step function on states, one step per event.  All nondeterminism (an
interleaving, an answer of the outside world, a crash) is in the choice of the events, so a
machine can be executed on a list of events (`Machine.exec`) and reasoned about over every run.

* `Machine.Via M G s` : `s` is reached by a run each of whose steps meets the guard `G`, a
  condition on the state before the step and the event;
* `Machine.Via.invariant`, `Machine.exec_invariant` : the induction rules, for the states that runs
  reach and for a given list of events;
* `Machine.Via.exec` : an executed run whose events meet the guard (`Machine.Guarded`) gives a
  reached state, so a concrete run is a closed term.
-/

namespace NeonHearth

/-- A machine with states `S` and events `E`. -/
structure Machine (S E : Type*) where
  /-- The states a run may start in. -/
  init : S → Prop
  /-- The state after an event, or `none` when the event cannot happen. -/
  step : S → E → Option S

namespace Machine

variable {S E : Type*} (M : Machine S E)

/-- Executing a list of events, the first event first. -/
def exec : S → List E → Option S
  | s, [] => some s
  | s, e :: es => (M.step s e).bind fun s' => exec s' es

/-- The states reached by runs whose steps all meet the guard `G`. -/
inductive Via (G : S → E → Prop) : S → Prop
  | start {s : S} (h : M.init s) : Via G s
  | next {s s' : S} {e : E} (h : Via G s) (hg : G s e) (hs : M.step s e = some s') : Via G s'

/-- The states reached by any run. -/
def Reachable (s : S) : Prop := M.Via (fun _ _ => True) s

variable {M} {G : S → E → Prop} {s : S} {es : List E}

/-- **Invariants along guarded runs**: what holds initially and is kept by every step that meets
the guard holds in every state such a run reaches. -/
theorem Via.invariant {I : S → Prop} (h : M.Via G s) (h₀ : ∀ s, M.init s → I s)
    (hstep : ∀ s e s', I s → G s e → M.step s e = some s' → I s') : I s := by
  induction h with
  | start hi => exact h₀ _ hi
  | next _ hg hs ih => exact hstep _ _ _ ih hg hs

theorem Via.mono {G'} (hG : ∀ s e, G s e → G' s e) (h : M.Via G s) : M.Via G' s := by
  induction h with
  | start hi => exact .start hi
  | next _ hg hs ih => exact .next ih (hG _ _ hg) hs

theorem Via.reachable (h : M.Via G s) : M.Reachable s := h.mono fun _ _ _ => trivial

variable {s' : S}

theorem Reachable.next {e : E} (h : M.Reachable s) (hs : M.step s e = some s') : M.Reachable s' :=
  Via.next h trivial hs

variable (M) (G) in
/-- Every step of the list of events, executed from `s`, meets the guard. -/
def Guarded : S → List E → Prop
  | _, [] => True
  | s, e :: es => G s e ∧
    match M.step s e with
    | some s' => Guarded s' es
    | none => True

instance Guarded.decidable [∀ s e, Decidable (G s e)] :
    ∀ (s : S) (es : List E), Decidable (M.Guarded G s es)
  | _, [] => .isTrue trivial
  | s, e :: es =>
    have : Decidable (match M.step s e with | some s' => M.Guarded G s' es | none => True) :=
      match M.step s e with
      | some s' => Guarded.decidable s' es
      | none => .isTrue trivial
    inferInstanceAs (Decidable (_ ∧ _))

/-- What every step that meets the guard keeps, a run of such steps keeps. -/
theorem exec_invariant {I : S → Prop} (hstep : ∀ s e s', I s → G s e → M.step s e = some s' → I s')
    (h : I s) (hg : M.Guarded G s es) (hs : M.exec s es = some s') : I s' := by
  induction es generalizing s with
  | nil => cases hs; exact h
  | cons e es ih =>
    obtain ⟨t, ht, hs⟩ := Option.bind_eq_some_iff.1 hs
    obtain ⟨hge, hg⟩ := hg
    rw [ht] at hg
    exact ih (hstep _ _ _ h hge ht) hg hs

theorem Guarded.and {G'} (h : M.Guarded G s es) (h' : M.Guarded G' s es) :
    M.Guarded (fun s e => G s e ∧ G' s e) s es := by
  induction es generalizing s with
  | nil => trivial
  | cons e es ih =>
    refine ⟨⟨h.1, h'.1⟩, ?_⟩
    obtain ⟨-, h⟩ := h
    obtain ⟨-, h'⟩ := h'
    cases hs : M.step s e with
    | none => trivial
    | some s' =>
      rw [hs] at h h'
      exact ih h h'

theorem Via.exec (h : M.Via G s) (hg : M.Guarded G s es) (hs : M.exec s es = some s') :
    M.Via G s' :=
  exec_invariant (fun _ _ _ h hg hs => h.next hg hs) h hg hs

theorem guarded_true : ∀ (s : S) (es : List E), M.Guarded (fun _ _ => True) s es
  | _, [] => trivial
  | s, e :: es => by
    refine ⟨trivial, ?_⟩
    split
    · exact guarded_true _ es
    · trivial

theorem Reachable.exec (h : M.Reachable s) (hs : M.exec s es = some s') : M.Reachable s' :=
  Via.exec h (guarded_true s es) hs

theorem reachable_of_exec (hi : M.init s) (hs : M.exec s es = some s') : M.Reachable s' :=
  Reachable.exec (.start hi) hs

theorem exists_reachable {p : S → Prop} (hi : M.init s) (es : List E)
    (h : ∃ s', M.exec s es = some s' ∧ p s') : ∃ s', M.Reachable s' ∧ p s' := by
  obtain ⟨s', hs, hp⟩ := h
  exact ⟨s', reachable_of_exec hi hs, hp⟩

/-- A run from a state that is itself computed. -/
theorem Via.of_bind {α : Type*} {o} {f : α → S} [∀ s e, Decidable (G s e)]
    (hi : ∀ a, o = some a → M.init (f a)) (h : (o.bind fun a => M.exec (f a) es) = some s)
    (hg : o.all fun a => M.Guarded G (f a) es) : M.Via G s := by
  obtain ⟨a, ha, hs⟩ := Option.bind_eq_some_iff.1 h
  rw [ha, Option.all_some, decide_eq_true_eq] at hg
  exact (Via.start (hi a ha)).exec hg hs

end Machine

end NeonHearth
