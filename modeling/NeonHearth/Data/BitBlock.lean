import Mathlib.Data.BitVec

/-!
# Blocks of bit vectors

The vectors that share their first `p` bits with a vector are an interval, its block of length `p`.
Code compares them under a mask (`mem_block`), and a longer block lies in each shorter one that its
base is in (`block_subset`).
-/

namespace NeonHearth.BitBlock

open BitVec

variable {w p q : ℕ} {a b x : BitVec w}

/-- The first `p` bits are set. -/
def mask (w p : ℕ) : BitVec w := BitVec.allOnes w <<< (w - p)

/-- The vectors from the first one to the last one with the first `p` bits of a vector. -/
def block (a : BitVec w) (p : ℕ) : Set (BitVec w) :=
  {x | a.toNat / 2 ^ (w - p) * 2 ^ (w - p) ≤ x.toNat ∧
    x.toNat < (a.toNat / 2 ^ (w - p) + 1) * 2 ^ (w - p)}

instance (a : BitVec w) (p : ℕ) : DecidablePred (· ∈ block a p) := fun _ =>
  inferInstanceAs (Decidable (_ ∧ _))

theorem and_mask (a : BitVec w) (p : ℕ) : a &&& mask w p = (a >>> (w - p)) <<< (w - p) := by
  ext i hi
  by_cases h : i < w - p
  · simp [mask, h]
  · simp [mask, h, show w - p + (i - (w - p)) = i by omega, hi]

theorem toNat_and_mask (a) (p : ℕ) :
    (a &&& mask w p).toNat = a.toNat / 2 ^ (w - p) * 2 ^ (w - p) := by
  rw [and_mask, toNat_shiftLeft, toNat_ushiftRight, Nat.shiftLeft_eq, Nat.shiftRight_eq_div_pow]
  exact Nat.mod_eq_of_lt ((Nat.div_mul_le_self ..).trans_lt a.isLt)

theorem mem_block_iff_div : x ∈ block a p ↔ x.toNat / 2 ^ (w - p) = a.toNat / 2 ^ (w - p) := by
  have hpos : 0 < 2 ^ (w - p) := Nat.two_pow_pos _
  rw [Nat.div_eq_iff hpos]
  constructor
  · rintro ⟨hfirst, hlast⟩
    exact ⟨hfirst, by rw [Nat.succ_mul] at hlast; omega⟩
  · rintro ⟨hfirst, hlast⟩
    exact ⟨hfirst, by rw [Nat.succ_mul]; omega⟩

/-- A vector is in a block if it has the same bits under the mask. -/
theorem mem_block : x ∈ block a p ↔ a &&& mask w p = x &&& mask w p := by
  rw [mem_block_iff_div, ← toNat_inj, toNat_and_mask, toNat_and_mask,
    Nat.mul_left_inj (Nat.two_pow_pos _).ne', eq_comm]

/-- A block lies in every block of at most its length that its base is in. -/
theorem block_subset (hpq : p ≤ q) (hb : b ∈ block a p) : block b q ⊆ block a p := by
  intro x hx
  rw [mem_block_iff_div] at hb hx ⊢
  -- fewer bits are the quotient of more bits
  have hsplit : ∀ n, n / 2 ^ (w - p) = n / 2 ^ (w - q) / 2 ^ (w - p - (w - q)) := by
    intro n
    rw [Nat.div_div_eq_div_mul, ← pow_add, show w - q + (w - p - (w - q)) = w - p by omega]
  rw [hsplit, hx, ← hsplit, hb]

theorem lastOf_mem_block (a : BitVec w) (p : ℕ) : (a &&& mask w p ||| ~~~mask w p) ∈ block a p := by
  rw [mem_block]
  ext i hi
  simp only [getElem_or, getElem_and, getElem_not]
  cases a[i] <;> cases (mask w p)[i] <;> rfl

theorem toNat_le_lastOf (hx : x ∈ block a p) :
    x.toNat ≤ (a &&& mask w p ||| ~~~mask w p).toNat := by
  have hbits : x &&& mask w p = a &&& mask w p := (mem_block.1 hx).symm
  have hor : x ||| (a &&& mask w p ||| ~~~mask w p) = a &&& mask w p ||| ~~~mask w p := by
    rw [← hbits]
    ext i hi
    simp only [getElem_or, getElem_and, getElem_not]
    cases x[i] <;> cases (mask w p)[i] <;> rfl
  rw [← hor, toNat_or]
  exact Nat.left_le_or

/-- The last vector of a block has all bits set that the mask leaves out. -/
theorem eq_lastOf_iff : x = a &&& mask w p ||| ~~~mask w p ↔
    x ∈ block a p ∧ ∀ y ∈ block a p, y.toNat ≤ x.toNat := by
  constructor
  · rintro rfl
    exact ⟨lastOf_mem_block a p, fun y => toNat_le_lastOf⟩
  · rintro ⟨hx, hlast⟩
    exact toNat_inj.1 ((toNat_le_lastOf hx).antisymm (hlast _ (lastOf_mem_block a p)))

end NeonHearth.BitBlock
