import Mathlib.Data.List.Basic

/-!
# Histories

A history is a list of entries, the latest first.

* `OpenSince opens closes l` : some entry of `l` opened something that no later one has closed;
* `Throughout P l` : `P` held of every entry of `l` and what came before it;
* `NeverWhile acts P l` : no entry of `l` that acts was made while `P` held of what came before it.

They are defined by recursion on the history, so a new entry is one case; `openSince_iff` and
`neverWhile_iff` are what two of them say about a history as a whole.
-/

namespace NeonHearth

open List

variable {α : Type*}

section OpenSince

variable (opens closes : α → Prop)

/-- Something was opened and has not been closed since. -/
def OpenSince : List α → Prop
  | [] => False
  | a :: l => ¬closes a ∧ (opens a ∨ OpenSince l)

instance OpenSince.decidable [DecidablePred opens] [DecidablePred closes] :
    DecidablePred (OpenSince opens closes)
  | [] => .isFalse id
  | a :: l =>
    have := OpenSince.decidable l
    inferInstanceAs (Decidable (¬closes a ∧ (opens a ∨ OpenSince opens closes l)))

variable {opens closes} {l : List α} {a : α}

theorem openSince_cons :
    OpenSince opens closes (a :: l) ↔ ¬closes a ∧ (opens a ∨ OpenSince opens closes l) := Iff.rfl

/-- An entry that neither opens nor closes makes no difference. -/
theorem openSince_cons_of_not (ho : ¬opens a) (hc : ¬closes a) :
    OpenSince opens closes (a :: l) ↔ OpenSince opens closes l := by
  simp [openSince_cons, ho, hc]

theorem openSince_append {l'} : OpenSince opens closes (l ++ l') ↔
    OpenSince opens closes l ∨ (∀ a ∈ l, ¬closes a) ∧ OpenSince opens closes l' := by
  induction l with
  | nil => simp [OpenSince]
  | cons a l ih =>
    rw [cons_append, openSince_cons, openSince_cons, ih, forall_mem_cons]
    tauto

/-- What is open was opened by an entry that no later one, nor itself, has closed. -/
theorem openSince_iff : OpenSince opens closes l ↔
    ∃ later a earlier, l = later ++ a :: earlier ∧ opens a ∧ ¬closes a ∧ ∀ b ∈ later, ¬closes b := by
  induction l with
  | nil => simp [OpenSince]
  | cons b l ih =>
    rw [openSince_cons, ih]
    constructor
    · rintro ⟨hb, ho | ⟨later, a, earlier, rfl, ho, hc, hlater⟩⟩
      · exact ⟨[], b, l, rfl, ho, hb, by simp⟩
      · exact ⟨b :: later, a, earlier, rfl, ho, hc, forall_mem_cons.2 ⟨hb, hlater⟩⟩
    rintro ⟨later, a, earlier, heq, ho, hc, hlater⟩
    obtain ⟨rfl, heq⟩ | ⟨later', rfl, rfl⟩ := cons_eq_append_iff.1 heq
    · obtain ⟨rfl, rfl⟩ := cons_eq_cons.1 heq
      exact ⟨hc, .inl ho⟩
    · obtain ⟨hb, hlater⟩ := forall_mem_cons.1 hlater
      exact ⟨hb, .inr ⟨later', a, earlier, rfl, ho, hc, hlater⟩⟩

/-- What an entry opened is open until an entry closes it. -/
theorem closed_or_openSince (l : List α) (l' : List α) (ho : opens a) (hc : ¬closes a) :
    (∃ b ∈ l, closes b) ∨ OpenSince opens closes (l ++ a :: l') := by
  by_cases h : ∃ b ∈ l, closes b
  · exact .inl h
  · push Not at h
    exact .inr (openSince_iff.2 ⟨l, a, l', rfl, ho, hc, h⟩)

end OpenSince

section Throughout

variable (P : α → List α → Prop)

/-- Every entry was made when it might be. -/
def Throughout : List α → Prop
  | [] => True
  | a :: l => P a l ∧ Throughout l

instance Throughout.decidable [∀ a l, Decidable (P a l)] : DecidablePred (Throughout P)
  | [] => .isTrue trivial
  | a :: l =>
    have := Throughout.decidable l
    inferInstanceAs (Decidable (P a l ∧ Throughout P l))

end Throughout

section NeverWhile

variable (acts : α → Prop) (P : List α → Prop)

/-- No entry that acts was made while `P` held. -/
def NeverWhile : List α → Prop := Throughout fun a l => acts a → ¬P l

instance NeverWhile.decidable [DecidablePred acts] [DecidablePred P] :
    DecidablePred (NeverWhile acts P) := Throughout.decidable _

variable {acts P}

theorem NeverWhile.cons {a : α} {l} (h : NeverWhile acts P l) (ha : acts a → ¬P l) :
    NeverWhile acts P (a :: l) := ⟨ha, h⟩

theorem neverWhile_iff {l} : NeverWhile acts P l ↔
    ∀ later a earlier, l = later ++ a :: earlier → acts a → ¬P earlier := by
  induction l with
  | nil => simp [NeverWhile, Throughout]
  | cons b l ih =>
    show (acts b → ¬P l) ∧ NeverWhile acts P l ↔ _
    rw [ih]
    constructor
    · rintro ⟨hb, hl⟩ later a earlier heq
      obtain ⟨rfl, heq⟩ | ⟨later', rfl, rfl⟩ := cons_eq_append_iff.1 heq
      · obtain ⟨rfl, rfl⟩ := cons_eq_cons.1 heq
        exact hb
      · exact hl later' a earlier rfl
    · intro h
      exact ⟨h [] b l rfl, fun later a earlier heq => h (b :: later) a earlier (by rw [heq]; rfl)⟩

end NeverWhile

end NeonHearth
