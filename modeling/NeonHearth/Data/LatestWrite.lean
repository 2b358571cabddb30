import Mathlib.Order.Bounds.Basic

/-!
# Flags written out of order

A flag is set and cleared by writes that carry the time they speak of and may come in any order.
The newest write counts, and of several at the newest time one that sets the flag.

* `LatestWrite W r` : the register `r`, a flag with the time it speaks of, is what the set `W` of
  writes makes of it;
* `LatestWrite.unique` : the register is a function of the set;
* `LatestWrite.insert_stale`, `LatestWrite.insert_fresh` : a write changes nothing when the register
  is newer, and is what the register holds afterwards when it is not.
-/

namespace NeonHearth

open Set

variable {T : Type*} [LinearOrder T]

/-- The register that a set of writes leaves. -/
inductive LatestWrite (W : Set (T × Bool)) : Bool × Option T → Prop
  | unset (h : W = ∅) : LatestWrite W (false, none)
  | set {flag : Bool} {t : T} (htime : IsGreatest (Prod.fst '' W) t)
      (hflag : flag = true ↔ (t, true) ∈ W) : LatestWrite W (flag, some t)

namespace LatestWrite

variable {W : Set (T × Bool)} {r r' : Bool × Option T} {t : T} {b : Bool}

/-- **The register is a function of the set of writes.** -/
theorem unique (h : LatestWrite W r) (h' : LatestWrite W r') : r = r' := by
  cases h with
  | unset hempty =>
    cases h' with
    | unset => rfl
    | set htime => simp [hempty, IsGreatest] at htime
  | set htime hflag =>
    cases h' with
    | unset hempty => simp [hempty, IsGreatest] at htime
    | set htime' hflag' =>
      obtain rfl := htime.unique htime'
      rw [Bool.eq_iff_iff.2 (hflag.trans hflag'.symm)]

/-- The flag is set exactly when a write at the newest time sets it. -/
theorem flag_iff (h : LatestWrite W r) : r.1 = true ↔ ∃ t, (t, true) ∈ W ∧ ∀ w ∈ W, w.1 ≤ t := by
  cases h with
  | unset hempty => simp [hempty]
  | @set flag t htime hflag =>
    refine hflag.trans ⟨fun hmem => ⟨t, hmem, fun w hw => htime.2 ⟨w, hw, rfl⟩⟩, ?_⟩
    rintro ⟨t', hmem, hle⟩
    obtain ⟨⟨w, hw, hwt⟩, hupper⟩ := htime
    obtain rfl : t' = t := le_antisymm (hupper ⟨_, hmem, rfl⟩) (hwt ▸ hle w hw)
    exact hmem

/-- A write that is older than the register, or speaks of the same time and does not set a cleared
flag, changes nothing. -/
theorem insert_stale {flag : Bool} {clock : T} (h : LatestWrite W (flag, some clock))
    (hstale : t < clock ∨ t = clock ∧ (flag = true ∨ b = false)) :
    LatestWrite (insert (t, b) W) (flag, some clock) := by
  cases h with
  | set htime hflag =>
    have hle : t ≤ clock := hstale.elim le_of_lt fun h => h.1.le
    refine .set ?_ (hflag.trans ?_)
    · rw [image_insert_eq]
      have hmax := htime.insert t
      rwa [max_eq_right hle] at hmax
    refine ⟨fun hmem => mem_insert_of_mem _ hmem, fun hmem => ?_⟩
    obtain heq | hmem := mem_insert_iff.1 hmem
    · obtain ⟨rfl, rfl⟩ := Prod.mk.inj heq
      obtain hlt | ⟨-, hset | hclear⟩ := hstale
      · exact absurd hlt (lt_irrefl _)
      · exact hflag.1 hset
      · cases hclear
    · exact hmem

/-- Any other write is what the register holds afterwards. -/
theorem insert_fresh (h : LatestWrite W r)
    (hfresh : ∀ clock, r.2 = some clock → clock < t ∨ clock = t ∧ b = true) :
    LatestWrite (insert (t, b) W) (b, some t) := by
  cases h with
  | unset hempty =>
    subst hempty
    exact .set (by simp) (by cases b <;> simp)
  | @set flag clock htime hflag =>
    have hle : clock ≤ t := (hfresh clock rfl).elim le_of_lt fun h => h.1.le
    refine .set ?_ ⟨fun hset => hset ▸ mem_insert _ _, fun hmem => ?_⟩
    · rw [image_insert_eq]
      have hmax := htime.insert t
      rwa [max_eq_left hle] at hmax
    · obtain heq | hmem := mem_insert_iff.1 hmem
      · exact (Prod.mk.inj heq).2.symm
      · -- an older write at the new time is one at the time of the register
        have heq : t = clock := le_antisymm (htime.2 ⟨_, hmem, rfl⟩) hle
        exact ((hfresh clock rfl).resolve_left (heq ▸ lt_irrefl _)).2

end LatestWrite

end NeonHearth
