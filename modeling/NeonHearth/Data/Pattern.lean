import Mathlib.Data.List.Forall2
import Mathlib.Tactic.Ring

/-!
# Patterns of characters

A pattern is a list of classes of characters, one for each character of the text that it matches, as in
a regular expression without repetition.

* `digitsOf` : numbers of a fixed width, which match that many digits (`eat_digitsOf`);
* `valueOf` : the number that decimal digits stand for.
-/

namespace NeonHearth

open List

/-- Matches a pattern, one class after another, and gives what is left. -/
def eat : List (Char → Bool) → List Char → Option (List Char)
  | [], cs => some cs
  | _ :: _, [] => none
  | p :: ps, c :: cs => if p c then eat ps cs else none

@[simp]
theorem eat_cons_cons (p ps) (c : Char) (cs) :
    eat (p :: ps) (c :: cs) = if p c then eat ps cs else none := rfl

theorem eat_replicate_append {p cs} (h : ∀ c ∈ cs, p c = true) (ps rest) :
    eat (List.replicate cs.length p ++ ps) (cs ++ rest) = eat ps rest := by
  induction cs with
  | nil => rfl
  | cons c cs ih =>
    rw [length_cons, replicate_succ, cons_append, cons_append, eat_cons_cons,
      if_pos (h c mem_cons_self), ih fun d hd => h d (mem_cons_of_mem _ hd)]

/-! ### Digits -/

/-- The last digits of a number, the highest one first. -/
def digitsOf (base : ℕ) : ℕ → ℕ → List Char
  | 0, _ => []
  | width + 1, n => Nat.digitChar (n / base ^ width % base) :: digitsOf base width n

/-- The number that decimal digits stand for. -/
def valueOf (cs : List Char) : ℕ := cs.foldl (fun n c => 10 * n + (c.toNat - 48)) 0

@[simp]
theorem length_digitsOf (base width n : ℕ) : (digitsOf base width n).length = width := by
  induction width with
  | zero => rfl
  | succ width ih => rw [digitsOf, length_cons, ih]

theorem exists_of_mem_digitsOf {base width n : ℕ} (hbase : 0 < base) {c : Char}
    (h : c ∈ digitsOf base width n) : ∃ d < base, c = Nat.digitChar d := by
  induction width with
  | zero => cases h
  | succ width ih =>
    obtain rfl | h := mem_cons.1 h
    · exact ⟨_, Nat.mod_lt _ hbase, rfl⟩
    · exact ih h

theorem eat_digitsOf {base : ℕ} (hbase : 0 < base) {p}
    (hp : ∀ d < base, p (Nat.digitChar d) = true) (width n : ℕ) (ps rest) :
    eat (List.replicate width p ++ ps) (digitsOf base width n ++ rest) = eat ps rest := by
  have hdigits : ∀ c ∈ digitsOf base width n, p c = true := by
    intro c hc
    obtain ⟨d, hd, rfl⟩ := exists_of_mem_digitsOf hbase hc
    exact hp d hd
  have heat := eat_replicate_append hdigits ps rest
  rwa [length_digitsOf] at heat

theorem toNat_digitChar : ∀ d < 10, (Nat.digitChar d).toNat - 48 = d := by decide

theorem foldl_digitsOf (width n m : ℕ) :
    (digitsOf 10 width n).foldl (fun n c => 10 * n + (c.toNat - 48)) m =
      m * 10 ^ width + n % 10 ^ width := by
  induction width generalizing m with
  | zero => simp [digitsOf, Nat.mod_one]
  | succ width ih =>
    rw [digitsOf, foldl_cons, ih, toNat_digitChar _ (Nat.mod_lt _ (by decide)),
      pow_succ, Nat.mod_mul]
    ring

theorem valueOf_digitsOf {width n : ℕ} (h : n < 10 ^ width) :
    valueOf (digitsOf 10 width n) = n := by
  rw [valueOf, foldl_digitsOf, Nat.zero_mul, Nat.zero_add, Nat.mod_eq_of_lt h]

end NeonHearth
