import Mathlib.Algebra.BigOperators.Group.List.Basic
import Mathlib.Tactic.Ring

/-!
# Metered spending

Tokens come at most one a period, a store of them is never larger than its capacity, and costs are
paid from it.  Whoever keeps such a store cannot spend more in an interval than the capacity, the
periods in the interval and one token more.

The store is kept lazily: `last` is the time up to which periods have been credited.  `Metered` is
what such a store keeps while it is credited (`Metered.credit`), paid from (`Metered.spend`), and
replaced by a full one, which is sound once it would have been full by itself (`Metered.renew`).
-/

namespace NeonHearth

open List

/-- What was spent from a time on, in a history of times and costs. -/
def spentSince (h : List (ℕ × ℕ)) (a : ℕ) : ℕ := ((h.filter (a ≤ ·.1)).map Prod.snd).sum

/-- What was spent in an interval, its two ends included. -/
def spentWithin (h : List (ℕ × ℕ)) (a length : ℕ) : ℕ :=
  ((h.filter fun x => a ≤ x.1 ∧ x.1 ≤ a + length).map Prod.snd).sum

variable {h : List (ℕ × ℕ)}

theorem spentSince_cons (t cost a : ℕ) :
    spentSince ((t, cost) :: h) a = (if a ≤ t then cost else 0) + spentSince h a := by
  unfold spentSince
  by_cases ht : a ≤ t <;> simp [ht]

theorem spentWithin_cons (t cost a length : ℕ) : spentWithin ((t, cost) :: h) a length =
    (if a ≤ t ∧ t ≤ a + length then cost else 0) + spentWithin h a length := by
  unfold spentWithin
  by_cases ht : a ≤ t ∧ t ≤ a + length <;> simp [ht]

theorem spentWithin_le_spentSince (a length : ℕ) : spentWithin h a length ≤ spentSince h a := by
  induction h with
  | nil => exact le_rfl
  | cons x h ih =>
    rw [spentWithin_cons, spentSince_cons]
    split_ifs <;> omega

theorem spentSince_eq_zero {now a : ℕ} (hpast : ∀ x ∈ h, x.1 ≤ now) (ha : now < a) :
    spentSince h a = 0 := by
  rw [spentSince, filter_eq_nil_iff.2 fun x hx => by simpa using (hpast x hx).trans_lt ha]
  rfl

/-- A store with its history, as it was left at the time `now`. -/
structure Metered (period capacity : ℕ) (h : List (ℕ × ℕ)) (tokens last now : ℕ) : Prop where
  tokens_le : tokens ≤ capacity
  last_le : last ≤ now
  past : ∀ x ∈ h, x.1 ≤ now
  /-- The tokens spent from a time on and those left are the capacity and the periods since. -/
  backed : ∀ a ≤ now, (spentSince h a + tokens) * period + a < last + period + capacity * period
  within : ∀ a length, spentWithin h a length ≤ capacity + length / period + 1

namespace Metered

variable {period capacity tokens last now : ℕ}

theorem nil (hp : 0 < period) (now : ℕ) : Metered period capacity [] capacity now now where
  tokens_le := le_rfl
  last_le := le_rfl
  past := by simp
  backed a ha := by
    simp only [spentSince, filter_nil, map_nil, sum_nil, zero_add]
    omega
  within _ _ := Nat.zero_le _

section

variable (m : Metered period capacity h tokens last now)
include m

theorem credit {tokens' t : ℕ} (n : ℕ)
    (hnow : now ≤ t) (htokens : tokens' ≤ tokens + n) (hle : tokens' ≤ capacity)
    (hlast : last + n * period ≤ t) (hnext : t < last + n * period + period) :
    Metered period capacity h tokens' (last + n * period) t where
  tokens_le := hle
  last_le := hlast
  past x hx := (m.past x hx).trans hnow
  backed a ha := by
    rcases le_or_gt a now with hold | hnew
    · have hmul : (spentSince h a + tokens') * period ≤
          (spentSince h a + tokens) * period + n * period := by
        rw [← Nat.add_mul]
        exact Nat.mul_le_mul_right _ (by omega)
      have := m.backed a hold
      omega
    · -- Nothing has been spent since, and the store holds no more than its capacity.
      have hmul : tokens' * period ≤ capacity * period := Nat.mul_le_mul_right _ hle
      rw [spentSince_eq_zero m.past hnew, Nat.zero_add]
      omega
  within := m.within

theorem spend {cost : ℕ} (hp : 0 < period) (hcost : cost ≤ tokens) :
    Metered period capacity ((now, cost) :: h) (tokens - cost) last now where
  tokens_le := (Nat.sub_le ..).trans m.tokens_le
  last_le := m.last_le
  past x hx := by
    rcases mem_cons.1 hx with rfl | hx
    · exact le_rfl
    · exact m.past x hx
  backed a ha := by
    have hsum : cost + spentSince h a + (tokens - cost) = spentSince h a + tokens := by omega
    rw [spentSince_cons, if_pos ha, hsum]
    exact m.backed a ha
  within a length := by
    rw [spentWithin_cons]
    split_ifs with hin
    · have hle : (cost + spentWithin h a length) * period ≤ (spentSince h a + tokens) * period :=
        Nat.mul_le_mul_right _ (by have := spentWithin_le_spentSince (h := h) a length; omega)
      have hbacked := m.backed a hin.1
      have hlast := m.last_le
      have hdiv := Nat.lt_mul_div_succ length hp
      have hlt : (cost + spentWithin h a length) * period <
          (capacity + length / period + 2) * period := by
        calc (cost + spentWithin h a length) * period < length + period + capacity * period := by omega
          _ < period * (length / period + 1) + period + capacity * period := by omega
          _ = (capacity + length / period + 2) * period := by ring
      exact Nat.lt_succ_iff.1 (Nat.lt_of_mul_lt_mul_right hlt)
    · rw [Nat.zero_add]
      exact m.within a length

/-- A full store may take the place of one that has been left alone for as long as it takes to fill
it. -/
theorem renew {t : ℕ} (hp : 0 < period)
    (ht : now + (capacity - tokens) * period ≤ t) : Metered period capacity h capacity t t where
  tokens_le := le_rfl
  last_le := le_rfl
  past x hx := (m.past x hx).trans (le_of_add_le_left ht)
  backed a ha := by
    rw [Nat.add_mul]
    rcases le_or_gt a now with hold | hnew
    · have hbacked := m.backed a hold
      have hlast := m.last_le
      have hfill : (capacity - tokens) * period + tokens * period = capacity * period := by
        rw [← Nat.add_mul, Nat.sub_add_cancel m.tokens_le]
      rw [Nat.add_mul] at hbacked
      omega
    · rw [spentSince_eq_zero m.past hnew, Nat.zero_mul]
      omega
  within := m.within

end

end Metered

end NeonHearth
