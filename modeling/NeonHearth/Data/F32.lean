import Mathlib

/-!
# Single precision numbers

An `F32` is given by its bits: the sign, and the other 31 bits as a number.  Read as numbers, these
are ordered like the absolute values they stand for, so comparing, `min` and `max` need no decoding;
the only arithmetic here is `quarter`, which divides by four and rounds to nearest even.

* `F32.isConfidence` : the finite numbers from 0 to 1;
* `F32.isConfidence_min`, `F32.isConfidence_max`, `F32.isConfidence_quarter` : they are closed under
  the operations.
-/

namespace NeonHearth

/-- An `f32`. -/
structure F32 where
  negative : Bool
  /-- Exponent and significand. -/
  magnitude : Fin (2 ^ 31)
  deriving DecidableEq

namespace F32

instance neZero : NeZero (2 ^ 31) := ⟨by decide⟩

def zero : F32 := ⟨false, 0⟩

def one : F32 := ⟨false, 0x3F800000⟩

def isNan (x : F32) : Bool := 0x7F800000 < x.magnitude.val

def isFinite (x : F32) : Bool := x.magnitude.val < 0x7F800000

/-- The place in the order of the numbers; both zeros have the same. -/
def place (x : F32) : ℤ := if x.negative then -x.magnitude.val else x.magnitude.val

instance : LE F32 := ⟨fun x y => x.isNan = false ∧ y.isNan = false ∧ x.place ≤ y.place⟩

instance : LT F32 := ⟨fun x y => x.isNan = false ∧ y.isNan = false ∧ x.place < y.place⟩

instance (x y : F32) : Decidable (x ≤ y) :=
  inferInstanceAs (Decidable (x.isNan = false ∧ y.isNan = false ∧ x.place ≤ y.place))

instance (x y : F32) : Decidable (x < y) :=
  inferInstanceAs (Decidable (x.isNan = false ∧ y.isNan = false ∧ x.place < y.place))

/-- `f32::min`. -/
protected def min (x y : F32) : F32 :=
  if x.isNan then y else if y.isNan then x else if x.place ≤ y.place then x else y

/-- `f32::max`. -/
protected def max (x y : F32) : F32 :=
  if x.isNan then y else if y.isNan then x else if y.place ≤ x.place then x else y

/-- The order of `total_cmp`, which tells the zeros apart. -/
def totalPlace (x : F32) : ℤ := if x.negative then -x.magnitude.val - 1 else x.magnitude.val

/-- A quarter, rounded to the nearest integer and at a tie to the even one. -/
def roundQuarter (n : ℕ) : ℕ :=
  n / 4 + if n % 4 < 2 then 0 else if n % 4 = 2 then n / 4 % 2 else 1

theorem two_mul_roundQuarter_le (n : ℕ) : 2 * roundQuarter n ≤ n := by
  unfold roundQuarter
  split_ifs <;> omega

/-- A number divided by four.  The exponent goes down by two, unless that leaves the normal range;
there the magnitude is a multiple of the least positive number, and is rounded to one. -/
def quarter (x : F32) : F32 where
  negative := x.negative
  magnitude :=
    if 0x7F800000 ≤ x.magnitude.val then x.magnitude
    else if 3 * 2 ^ 23 ≤ x.magnitude.val then
      ⟨x.magnitude.val - 2 * 2 ^ 23, by omega⟩
    else if 2 * 2 ^ 23 ≤ x.magnitude.val then
      ⟨roundQuarter (2 * (x.magnitude.val - 2 ^ 23)), by
        have := two_mul_roundQuarter_le (2 * (x.magnitude.val - 2 ^ 23))
        omega⟩
    else ⟨roundQuarter x.magnitude.val, by
      have := two_mul_roundQuarter_le x.magnitude.val
      omega⟩

/-- Finite, and between 0 and 1. -/
def isConfidence (x : F32) : Bool := x.isFinite && (zero ≤ x ∧ x ≤ one)

theorem isConfidence_iff {x : F32} :
    x.isConfidence = true ↔ 0 ≤ x.place ∧ x.magnitude.val ≤ 0x3F800000 := by
  have hzero : zero.place = 0 := rfl
  have hone : one.place = 0x3F800000 := rfl
  have hnan : x.isNan = false ↔ x.magnitude.val ≤ 0x7F800000 := by
    rw [isNan, decide_eq_false_iff_not, not_lt]
  rw [isConfidence, Bool.and_eq_true, decide_eq_true_eq, isFinite, decide_eq_true_eq]
  constructor
  · rintro ⟨-, ⟨-, -, hle⟩, -, -, hge⟩
    rw [hzero] at hle
    rw [hone] at hge
    refine ⟨hle, ?_⟩
    unfold place at hle hge
    split_ifs at hle hge <;> omega
  · rintro ⟨hplace, hle⟩
    have hx := hnan.2 (hle.trans (by decide))
    refine ⟨by omega, ⟨rfl, hx, hzero ▸ hplace⟩, hx, rfl, ?_⟩
    rw [hone]
    unfold place
    split_ifs <;> omega

variable {x y : F32}

/-- Numbers from 0 to 1 are compared by their places. -/
theorem le_iff_place (hx : x.isConfidence = true) (hy : y.isConfidence = true) :
    x ≤ y ↔ x.place ≤ y.place := by
  have hnan : ∀ z : F32, z.isConfidence = true → z.isNan = false := fun z hz => by
    have hle := (isConfidence_iff.1 hz).2
    simp only [isNan, decide_eq_false_iff_not]
    omega
  exact ⟨fun h => h.2.2, fun h => ⟨hnan x hx, hnan y hy, h⟩⟩

theorem le_of_not_lt (hx : x.isConfidence = true) (hy : y.isConfidence = true)
    (h : ¬x < y) : y ≤ x := by
  rw [le_iff_place hy hx]
  by_contra hlt
  have hle := (le_iff_place hx hy).2 (not_le.1 hlt).le
  exact h ⟨hle.1, hle.2.1, not_le.1 hlt⟩

theorem le_one {x : F32} (hx : x.isConfidence = true) : x ≤ one := by
  have hle := (isConfidence_iff.1 hx).2
  refine (le_iff_place hx rfl).2 ?_
  change x.place ≤ 0x3F800000
  unfold place
  split_ifs <;> omega

theorem place_le_of_totalPlace (h : x.totalPlace ≤ y.totalPlace) : x.place ≤ y.place := by
  unfold totalPlace at h
  unfold place
  split_ifs at h ⊢ <;> omega

/-- The smaller number, if only one of the two can be a zero. -/
theorem min_eq_of_le (h : x ≤ y) : x.min y = x ∧ (0 < x.place → y.min x = x) := by
  obtain ⟨hxn, hyn, hle⟩ := h
  refine ⟨by simp [F32.min, hxn, hyn, hle], fun hpos => ?_⟩
  simp only [F32.min, hxn, hyn, Bool.false_eq_true, if_false]
  split_ifs with hge
  · -- the same place, which is not that of a zero
    obtain ⟨xs, xm⟩ := x
    obtain ⟨ys, ym⟩ := y
    cases xs <;> cases ys <;> simp only [place, if_true, Bool.false_eq_true, if_false] at * <;>
      first | omega | exact congrArg _ (Fin.ext (by omega))
  · rfl

theorem place_min_le (hx : x.isNan = false) (hy : y.isNan = false) :
    (x.min y).place ≤ x.place ∧ (x.min y).place ≤ y.place := by
  simp only [F32.min, hx, hy, Bool.false_eq_true, if_false]
  split_ifs <;> omega

theorem isConfidence_min (hx : x.isConfidence = true) (hy : y.isConfidence = true) :
    (x.min y).isConfidence = true := by
  unfold F32.min
  split_ifs <;> assumption

theorem isConfidence_max (hx : x.isConfidence = true) (hy : y.isConfidence = true) :
    (x.max y).isConfidence = true := by
  unfold F32.max
  split_ifs <;> assumption

theorem min_min (x y : F32) : (x.min y).min y = x.min y := by
  unfold F32.min
  split_ifs <;> simp_all

theorem isConfidence_quarter {x : F32} (h : x.isConfidence = true) :
    x.quarter.isConfidence = true := by
  obtain ⟨hplace, hle⟩ := isConfidence_iff.1 h
  have hquarter : x.quarter.magnitude.val ≤ x.magnitude.val := by
    unfold quarter
    dsimp only
    split_ifs
    · exact le_rfl
    · exact Nat.sub_le _ _
    · have := two_mul_roundQuarter_le (2 * (x.magnitude.val - 2 ^ 23))
      dsimp only
      omega
    · have := two_mul_roundQuarter_le x.magnitude.val
      dsimp only
      omega
  refine isConfidence_iff.2 ⟨?_, hquarter.trans hle⟩
  have hsign : x.quarter.negative = x.negative := rfl
  unfold place at hplace ⊢
  rw [hsign]
  split_ifs at hplace ⊢ <;> omega

end F32

end NeonHearth
