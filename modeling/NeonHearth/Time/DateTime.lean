import Mathlib

/-!
# Instants

`DateTime` is chrono's `DateTime<Utc>`: an instant with nanoseconds inside chrono's range, the
years -262143 to 262142.  Arithmetic is checked: leaving the range gives `none`.  Durations are
integers of nanoseconds.
-/

namespace NeonHearth

/-- `Duration::seconds`. -/
def seconds (n : ℤ) : ℤ := n * 1000000000

/-- `Duration::minutes`. -/
def minutes (n : ℤ) : ℤ := seconds (n * 60)

/-- `Duration::hours`. -/
def hours (n : ℤ) : ℤ := seconds (n * 3600)

/-- `Duration::days`. -/
def days (n : ℤ) : ℤ := seconds (n * 86400)

/-- An instant inside chrono's range. -/
@[ext]
structure DateTime where
  /-- Nanoseconds since the Unix epoch. -/
  nanos : ℤ
  min_le : seconds (-8334601228800) ≤ nanos
  lt_max : nanos < seconds 8210266876800

namespace DateTime

instance : DecidableEq DateTime := fun t u => decidable_of_iff (t.nanos = u.nanos) DateTime.ext_iff.symm

theorem nanos_injective : Function.Injective nanos := fun _ _ => DateTime.ext

instance : LinearOrder DateTime := LinearOrder.lift' nanos nanos_injective

variable {t u : DateTime}

theorem le_iff : t ≤ u ↔ t.nanos ≤ u.nanos := Iff.rfl

theorem lt_iff : t < u ↔ t.nanos < u.nanos := Iff.rfl

/-- The instant with the given nanoseconds, if it is inside the range. -/
def ofNanos (n : ℤ) : Option DateTime :=
  if h : seconds (-8334601228800) ≤ n ∧ n < seconds 8210266876800 then some ⟨n, h.1, h.2⟩ else none

theorem ofNanos_eq_some {n : ℤ} : ofNanos n = some t ↔ t.nanos = n := by
  unfold ofNanos
  split_ifs with h
  · rw [Option.some.injEq, DateTime.ext_iff, eq_comm]
  · refine iff_of_false (by simp) ?_
    rintro rfl
    exact h ⟨t.min_le, t.lt_max⟩

/-- Whole seconds since the Unix epoch, rounded down. -/
def timestamp (t : DateTime) : ℤ := t.nanos / 1000000000

/-- `DateTime::from_timestamp(secs, 0)`. -/
def fromTimestamp (secs : ℤ) : Option DateTime := ofNanos (seconds secs)

/-- `checked_add_signed`. -/
def checkedAddSigned (t : DateTime) (d : ℤ) : Option DateTime := ofNanos (t.nanos + d)

/-- `checked_sub_signed`. -/
def checkedSubSigned (t : DateTime) (d : ℤ) : Option DateTime := ofNanos (t.nanos - d)

theorem fromTimestamp_eq_some {secs : ℤ} :
    fromTimestamp secs = some t ↔ t.nanos = seconds secs := ofNanos_eq_some

theorem checkedAddSigned_eq_some {d : ℤ} :
    t.checkedAddSigned d = some u ↔ u.nanos = t.nanos + d := ofNanos_eq_some

theorem checkedSubSigned_eq_some {d : ℤ} :
    t.checkedSubSigned d = some u ↔ u.nanos = t.nanos - d := ofNanos_eq_some

theorem timestamp_mono (h : t ≤ u) : t.timestamp ≤ u.timestamp :=
  Int.ediv_le_ediv (by decide) h

end DateTime

instance neZeroHalfSeconds : NeZero 20000 := ⟨by decide⟩

/-- The instant `n` half seconds after the epoch. -/
def halfSecond (n : Fin 20000) : DateTime where
  nanos := n * 500000000
  min_le := by
    have := n.isLt
    simp only [seconds]
    omega
  lt_max := by
    have := n.isLt
    simp only [seconds]
    omega

end NeonHearth
