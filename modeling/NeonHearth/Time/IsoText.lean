import NeonHearth.Data.Pattern
import NeonHearth.Time.Calendar

/-!
# Instants as texts

Seconds since the epoch written as a date and a time of day, `2026-02-28T12:34:56`, and read back.  How
a year is written when it has not four digits is left to the writer.

* `isoText`, `parseIso` : writing and reading, the latter as `new Date` does: months, days and times of
  day that cannot be are refused, a day that the month does not have runs over into the next;
* `parseIso_isoText` : what is written is read back;
* `isoPattern`, `eat_isoText` : the shape of such a text.
-/

namespace NeonHearth

def isoText (year : ℤ → List Char) (seconds : ℤ) : List Char :=
  let date := civilFromDays (seconds / 86400)
  let time := (seconds % 86400).toNat
  year date.year ++ '-' :: (digitsOf 10 2 date.month.toNat ++ '-' :: (digitsOf 10 2 date.day.toNat ++
    'T' :: (digitsOf 10 2 (time / 3600) ++ ':' :: (digitsOf 10 2 (time / 60 % 60) ++
      ':' :: digitsOf 10 2 (time % 60)))))

/-- The time of day exists; midnight is also the end of the day. -/
def isTimeOfDay (hour minute second : ℕ) : Bool :=
  hour < 24 && minute < 60 && second < 60 || hour = 24 && minute = 0 && second = 0

def parseIso (cs : List Char) : Option ℤ :=
  let month := valueOf ((cs.drop 5).take 2)
  let day := valueOf ((cs.drop 8).take 2)
  let hour := valueOf ((cs.drop 11).take 2)
  let minute := valueOf ((cs.drop 14).take 2)
  let second := valueOf ((cs.drop 17).take 2)
  if 1 ≤ month ∧ month ≤ 12 ∧ 1 ≤ day ∧ day ≤ 31 ∧ isTimeOfDay hour minute second then
    some (daysFromCivil ⟨valueOf (cs.take 4), month, day⟩ * 86400 +
      (hour * 3600 + minute * 60 + second : ℕ))
  else none

def isoPattern : List (Char → Bool) :=
  List.replicate 4 Char.isDigit ++ (· == '-') :: (List.replicate 2 Char.isDigit ++
    (· == '-') :: (List.replicate 2 Char.isDigit ++ (· == 'T') :: (List.replicate 2 Char.isDigit ++
      (· == ':') :: (List.replicate 2 Char.isDigit ++
        (· == ':') :: List.replicate 2 Char.isDigit))))

theorem isDigit_digitChar : ∀ d < 10, (Nat.digitChar d).isDigit = true := by decide

section

variable {year : ℤ → List Char} {seconds : ℤ}

/-- The year of the text has four digits. -/
def FourDigits (seconds : ℤ) : Prop :=
  0 ≤ (civilFromDays (seconds / 86400)).year ∧ (civilFromDays (seconds / 86400)).year ≤ 9999
  deriving Decidable

/-- The writer writes four digits where they are enough. -/
def WritesFour (year : ℤ → List Char) : Prop :=
  ∀ y, 0 ≤ y → y ≤ 9999 → year y = digitsOf 10 4 y.toNat

section

variable (hyear : WritesFour year) (h : FourDigits seconds)
include hyear h

theorem length_isoText : (isoText year seconds).length = 19 := by
  rw [isoText, hyear _ h.1 h.2]
  rfl

theorem eat_isoText (rest) : eat isoPattern (isoText year seconds ++ rest) = some rest := by
  have hdigits := fun width n ps rest =>
    eat_digitsOf (by decide : 0 < 10) isDigit_digitChar width n ps rest
  have hlast := hdigits 2 ((seconds % 86400).toNat % 60) [] rest
  rw [List.append_nil] at hlast
  simp only [isoText, isoPattern, hyear _ h.1 h.2, List.append_assoc, List.cons_append, hdigits,
    eat_cons_cons, hlast]
  rfl

theorem parseIso_isoText (rest) : parseIso (isoText year seconds ++ rest) = some seconds := by
  have hmonth := month_civilFromDays (seconds / 86400)
  have hday := day_civilFromDays (seconds / 86400)
  have hdays := daysFromCivil_civilFromDays (seconds / 86400)
  have hseconds : 0 ≤ seconds % 86400 ∧ seconds % 86400 < 86400 := by omega
  rw [isoText, hyear _ h.1 h.2]
  unfold FourDigits at h
  generalize civilFromDays (seconds / 86400) = date at *
  generalize htime : (seconds % 86400).toNat = time at *
  -- the parts of the text are where they are read
  change (if 1 ≤ valueOf (digitsOf 10 2 date.month.toNat) ∧
      valueOf (digitsOf 10 2 date.month.toNat) ≤ 12 ∧ 1 ≤ valueOf (digitsOf 10 2 date.day.toNat) ∧
      valueOf (digitsOf 10 2 date.day.toNat) ≤ 31 ∧
      isTimeOfDay (valueOf (digitsOf 10 2 (time / 3600))) (valueOf (digitsOf 10 2 (time / 60 % 60)))
        (valueOf (digitsOf 10 2 (time % 60))) then
    some (daysFromCivil ⟨valueOf (digitsOf 10 4 date.year.toNat),
      valueOf (digitsOf 10 2 date.month.toNat), valueOf (digitsOf 10 2 date.day.toNat)⟩ * 86400 +
      (valueOf (digitsOf 10 2 (time / 3600)) * 3600 + valueOf (digitsOf 10 2 (time / 60 % 60)) * 60 +
        valueOf (digitsOf 10 2 (time % 60)) : ℕ)) else none) = some seconds
  rw [valueOf_digitsOf (by omega : date.year.toNat < 10 ^ 4),
    valueOf_digitsOf (by omega : date.month.toNat < 10 ^ 2),
    valueOf_digitsOf (by omega : date.day.toNat < 10 ^ 2),
    valueOf_digitsOf (by omega : time / 3600 < 10 ^ 2),
    valueOf_digitsOf (by omega : time / 60 % 60 < 10 ^ 2),
    valueOf_digitsOf (by omega : time % 60 < 10 ^ 2)]
  have hclock : isTimeOfDay (time / 3600) (time / 60 % 60) (time % 60) = true := by
    simp only [isTimeOfDay, Bool.or_eq_true, Bool.and_eq_true, decide_eq_true_eq]
    omega
  rw [if_pos ⟨by omega, by omega, by omega, by omega, hclock⟩, Int.toNat_of_nonneg h.1,
    Int.toNat_of_nonneg (by omega), Int.toNat_of_nonneg (by omega), hdays, Option.some.injEq]
  omega

end

/-- A text that starts with another character does not have the shape. -/
theorem eat_isoPattern_cons {c : Char} (hc : c.isDigit = false) (cs) :
    eat isoPattern (c :: cs) = none := by
  change (if c.isDigit then _ else none) = none
  rw [hc]
  rfl

end

end NeonHearth
