import Mathlib.Data.Int.Order.Basic

/-!
# Civil dates

The proleptic Gregorian calendar, by days since 1970-01-01.  Years are counted from March, so that the
leap day is the last one, and in eras of 400 years, which all have the same number of days.

* `daysFromCivil_civilFromDays` : a date stands for the day that it was made from.
-/

namespace NeonHearth

structure Civil where
  year : ℤ
  month : ℤ
  day : ℤ

/-- The year within its era, from the day within the era: the last century and the last year of four
may have a day more. -/
def yearOfEra (doe : ℤ) : ℤ :=
  let century := min 3 (doe / 36524)
  let doc := doe - century * 36524
  100 * century + 4 * (doc / 1461) + min 3 (doc % 1461 / 365)

/-- The day within the era that a year starts with. -/
def startOfYear (yoe : ℤ) : ℤ := 365 * yoe + yoe / 4 - yoe / 100

/-- The month, from the months since March. -/
def toMonth (mp : ℤ) : ℤ := if mp < 10 then mp + 3 else mp - 9

/-- The months since March. -/
def sinceMarch (month : ℤ) : ℤ := if 2 < month then month - 3 else month + 9

/-- January and February belong to the year that has begun in the last March. -/
def carry (month : ℤ) : ℤ := if month ≤ 2 then 1 else 0

def civilFromDays (days : ℤ) : Civil :=
  let era := (days + 719468) / 146097
  let doe := (days + 719468) % 146097
  let yoe := yearOfEra doe
  let doy := doe - startOfYear yoe
  let mp := (5 * doy + 2) / 153
  ⟨yoe + era * 400 + carry (toMonth mp), toMonth mp, doy - (153 * mp + 2) / 5 + 1⟩

def daysFromCivil (date : Civil) : ℤ :=
  let y := date.year - carry date.month
  let doy := (153 * sinceMarch date.month + 2) / 5 + date.day - 1
  y / 400 * 146097 + (startOfYear (y % 400) + doy) - 719468

theorem yearOfEra_bounds {doe : ℤ} (h : 0 ≤ doe) (h' : doe < 146097) :
    0 ≤ yearOfEra doe ∧ yearOfEra doe < 400 := by
  unfold yearOfEra
  dsimp only
  omega

theorem startOfYear_bounds {doe : ℤ} (h : 0 ≤ doe) (h' : doe < 146097) :
    startOfYear (yearOfEra doe) ≤ doe ∧ doe < startOfYear (yearOfEra doe) + 366 := by
  unfold startOfYear yearOfEra
  dsimp only
  generalize hc : min 3 (doe / 36524) = c
  generalize hq : (doe - c * 36524) / 1461 = q
  generalize hr : (doe - c * 36524) % 1461 = r
  generalize hy : min 3 (r / 365) = y
  have hcentury : (100 * c + 4 * q + y) / 100 = c := by omega
  have hleap : (100 * c + 4 * q + y) / 4 = 25 * c + q := by omega
  rw [hcentury, hleap]
  omega

theorem monthOfYear_bounds {doy : ℤ} (h : 0 ≤ doy) (h' : doy < 366) :
    0 ≤ (5 * doy + 2) / 153 ∧ (5 * doy + 2) / 153 < 12 := by
  omega

theorem sinceMarch_toMonth {mp : ℤ} (h : 0 ≤ mp ∧ mp < 12) : sinceMarch (toMonth mp) = mp := by
  unfold sinceMarch toMonth
  split_ifs <;> omega

section

variable (days : ℤ)

/-- The days of the year are counted from its start. -/
theorem dayOfYear_bounds : 0 ≤ (days + 719468) % 146097 -
      startOfYear (yearOfEra ((days + 719468) % 146097)) ∧
    (days + 719468) % 146097 - startOfYear (yearOfEra ((days + 719468) % 146097)) < 366 := by
  have hbounds := startOfYear_bounds (Int.emod_nonneg (days + 719468) (by decide : (146097 : ℤ) ≠ 0))
    (Int.emod_lt_of_pos _ (by decide))
  omega

theorem month_civilFromDays : 1 ≤ (civilFromDays days).month ∧ (civilFromDays days).month ≤ 12 := by
  obtain ⟨hlow, hhigh⟩ := dayOfYear_bounds days
  have hmonth := monthOfYear_bounds hlow hhigh
  simp only [civilFromDays, toMonth]
  split_ifs <;> omega

theorem day_civilFromDays : 1 ≤ (civilFromDays days).day ∧ (civilFromDays days).day ≤ 31 := by
  obtain ⟨hlow, -⟩ := dayOfYear_bounds days
  simp only [civilFromDays]
  omega

/-- **A date stands for the day that it was made from.** -/
theorem daysFromCivil_civilFromDays : daysFromCivil (civilFromDays days) = days := by
  obtain ⟨hlow, hhigh⟩ := dayOfYear_bounds days
  have hmonth := monthOfYear_bounds hlow hhigh
  have hyear := yearOfEra_bounds
    (Int.emod_nonneg (days + 719468) (by decide : (146097 : ℤ) ≠ 0))
    (Int.emod_lt_of_pos _ (by decide))
  have hdays := Int.mul_ediv_add_emod (days + 719468) 146097
  simp only [daysFromCivil, civilFromDays, Int.add_sub_cancel, sinceMarch_toMonth hmonth]
  rw [Int.add_mul_ediv_right _ _ (by decide), Int.ediv_eq_zero_of_lt hyear.1 hyear.2,
    Int.add_mul_emod_self_right, Int.emod_eq_of_lt hyear.1 hyear.2]
  omega

end

end NeonHearth
