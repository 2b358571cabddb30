import NeonHearth.System.Machine

/-!
# Machines that answer

A `Transducer` answers every event.  Two states that a relation keeps together answer alike, however
many events follow (`Transducer.answers_eq`).
-/

namespace NeonHearth

/-- A machine with states `S` and events `E` that answers every event with an `O`. -/
structure Transducer (S E O : Type*) where
  /-- The state after an event, and the answer. -/
  step : S → E → S × O

namespace Transducer

variable {S E O : Type*} (T : Transducer S E O)

/-- The answers to a list of events, the first event first. -/
def answers : S → List E → List O
  | _, [] => []
  | s, e :: es => (T.step s e).2 :: answers (T.step s e).1 es

/-- The runs from some states, without the answers. -/
def toMachine (init : S → Prop) : Machine S E where
  init := init
  step s e := some (T.step s e).1

variable {T}

/-- **Simulation**: if a relation between states makes their answers equal and is kept by every event
that meets a condition on the first of them, then related states give the same answers to events that
meet it. -/
theorem answers_eq {R : S → S → Prop} {G} (hstep : ∀ s t e, R s t → G s e →
      (T.step s e).2 = (T.step t e).2 ∧ R (T.step s e).1 (T.step t e).1)
    {init} {s t : S} (h : R s t) {es}
    (hg : (T.toMachine init).Guarded G s es) : T.answers s es = T.answers t es := by
  induction es generalizing s t with
  | nil => rfl
  | cons e es ih =>
    obtain ⟨hge, hg⟩ := hg
    obtain ⟨hanswer, hrest⟩ := hstep s t e h hge
    rw [answers, answers, hanswer, ih hrest hg]

end Transducer

end NeonHearth
