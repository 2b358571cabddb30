import Mathlib.Data.List.Basic
import Mathlib.Data.Nat.ModEq

/-!
# Encodings that can be read

Code that signs or stores a record writes its fields one after another.  `Readable` says that a field
can be read back from the front of any text, so that a sequence of readable fields determines each of
them: the fields are taken off one by one.

* `Readable.of_length` : fields of a fixed length;
* `Readable.counted` : a list after its length;
* `readable_beBytes` : numbers as big-endian bytes.
-/

namespace NeonHearth.PrefixCode

open List

variable {α β σ : Type*} {p : α → Prop} {encode : α → List σ}

/-- The values with `p` can be told from the front of a text, whatever follows. -/
def Readable (p : α → Prop) (encode : α → List σ) : Prop :=
  ∀ x y, p x → p y → ∀ r s, encode x ++ r = encode y ++ s → x = y ∧ r = s

theorem Readable.of_length (n : ℕ) (hlength : ∀ x, p x → (encode x).length = n)
    (hinj : ∀ x y, p x → p y → encode x = encode y → x = y) : Readable p encode := by
  intro x y hx hy r s h
  obtain ⟨hxy, hrs⟩ := append_inj h ((hlength x hx).trans (hlength y hy).symm)
  exact ⟨hinj x y hx hy hxy, hrs⟩

/-- Values are readable through an injective view of them. -/
theorem Readable.comap (h : Readable p encode) {q} (f : β → α)
    (hq : ∀ x, q x → p (f x)) (hf : ∀ x y, q x → q y → f x = f y → x = y) :
    Readable q fun x => encode (f x) := by
  intro x y hx hy r s heq
  obtain ⟨hxy, hrs⟩ := h _ _ (hq x hx) (hq y hy) r s heq
  exact ⟨hf x y hx hy hxy, hrs⟩

theorem Readable.append (h : Readable p encode) {q encode'} (h' : Readable q encode') :
    Readable (fun x : α × β => p x.1 ∧ q x.2) fun x => encode x.1 ++ encode' x.2 := by
  rintro ⟨x, x'⟩ ⟨y, y'⟩ ⟨hx, hx'⟩ ⟨hy, hy'⟩ r s heq
  simp only [append_assoc] at heq
  obtain ⟨rfl, hrest⟩ := h x y hx hy _ _ heq
  obtain ⟨rfl, hrs⟩ := h' x' y' hx' hy' _ _ hrest
  exact ⟨rfl, hrs⟩

theorem Readable.flatMap (h : Readable p encode) {l m : List α} (hl : ∀ x ∈ l, p x)
    (hm : ∀ x ∈ m, p x) (hlength : l.length = m.length) {r s}
    (heq : l.flatMap encode ++ r = m.flatMap encode ++ s) : l = m ∧ r = s := by
  induction l generalizing m with
  | nil =>
    obtain rfl := length_eq_zero_iff.1 hlength.symm
    exact ⟨rfl, heq⟩
  | cons x l ih =>
    cases m with
    | nil => cases hlength
    | cons y m =>
      simp only [flatMap_cons, append_assoc] at heq
      obtain ⟨rfl, hrest⟩ := h x y (hl x mem_cons_self) (hm y mem_cons_self) _ _ heq
      obtain ⟨rfl, hrs⟩ := ih (fun z hz => hl z (mem_cons_of_mem _ hz))
        (fun z hz => hm z (mem_cons_of_mem _ hz)) (Nat.succ_inj.1 hlength) hrest
      exact ⟨rfl, hrs⟩

/-- A list of readable values is readable after its length. -/
theorem Readable.counted (h : Readable p encode) {bound : ℕ} {count : ℕ → List σ}
    (hcount : Readable (· < bound) count) :
    Readable (fun l : List α => l.length < bound ∧ ∀ x ∈ l, p x)
      fun l => count l.length ++ l.flatMap encode := by
  intro l m ⟨hl, hl'⟩ ⟨hm, hm'⟩ r s heq
  simp only [append_assoc] at heq
  obtain ⟨hlength, hrest⟩ := hcount _ _ hl hm _ _ heq
  exact h.flatMap hl' hm' hlength hrest

/-- `to_be_bytes`: the bytes of a number, the highest one first. -/
def beBytes : ℕ → ℕ → List UInt8
  | 0, _ => []
  | width + 1, n => UInt8.ofNat (n / 256 ^ width) :: beBytes width n

@[simp]
theorem length_beBytes (width n : ℕ) : (beBytes width n).length = width := by
  induction width with
  | zero => rfl
  | succ width ih => rw [beBytes, length_cons, ih]

theorem mod_eq_of_beBytes {width n m : ℕ} (h : beBytes width n = beBytes width m) :
    n % 256 ^ width = m % 256 ^ width := by
  induction width with
  | zero => rw [pow_zero, Nat.mod_one, Nat.mod_one]
  | succ width ih =>
    obtain ⟨hhead, htail⟩ := cons.inj h
    have hdigit : n / 256 ^ width % 256 = m / 256 ^ width % 256 := by
      simpa using congrArg UInt8.toNat hhead
    rw [pow_succ, Nat.mod_mul, Nat.mod_mul, ih htail, hdigit]

theorem readable_beBytes (width : ℕ) : Readable (· < 256 ^ width) (beBytes width) := by
  refine .of_length width (fun n _ => length_beBytes width n) fun n m hn hm h => ?_
  rw [← Nat.mod_eq_of_lt hn, ← Nat.mod_eq_of_lt hm]
  exact mod_eq_of_beBytes h

end NeonHearth.PrefixCode
