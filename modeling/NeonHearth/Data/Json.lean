import Mathlib.Data.List.Basic
import Mathlib.Algebra.Order.Ring.Nat

/-!
# JSON values

What `JSON.parse` makes of a text, for texts whose numbers are natural, and `undefined`, which a field
that is not there has for a client.  Numbers are doubles, so a large one is rounded to the nearest
that there is (`toDouble`); up to 2 ^ 53 all are there (`toDouble_eq_self`, `toDouble_lt_iff`).
-/

namespace NeonHearth

/-- The nearest double, at a tie the even one. -/
def toDouble (n : ℕ) : ℕ :=
  if n < 2 ^ 53 then n
  else
    let shift := Nat.log2 n - 52
    let q := n / 2 ^ shift
    let r := n % 2 ^ shift
    let half := 2 ^ (shift - 1)
    (if half < r ∨ r = half ∧ q % 2 = 1 then q + 1 else q) * 2 ^ shift

theorem toDouble_eq_self {n : ℕ} (h : n < 2 ^ 53) : toDouble n = n := if_pos h

theorem toDouble_lt_iff {n : ℕ} : toDouble n < 2 ^ 53 ↔ n < 2 ^ 53 := by
  by_cases h : n < 2 ^ 53
  · rw [toDouble_eq_self h]
  refine iff_of_false (not_lt.2 ?_) h
  rw [toDouble, if_neg h]
  dsimp only
  generalize hshift : Nat.log2 n - 52 = shift
  have hlog : 53 ≤ Nat.log2 n := (Nat.le_log2 (by omega)).2 (not_lt.1 h)
  have hq : 2 ^ 52 ≤ n / 2 ^ shift := by
    rw [Nat.le_div_iff_mul_le (Nat.two_pow_pos _), ← pow_add, show 52 + shift = Nat.log2 n by omega]
    exact Nat.log2_self_le (by omega)
  have hpow : 2 ≤ 2 ^ shift := by
    calc 2 = 2 ^ 1 := rfl
      _ ≤ 2 ^ shift := Nat.pow_le_pow_right (by decide) (by omega)
  split_ifs
  · calc 2 ^ 53 = 2 ^ 52 * 2 := rfl
      _ ≤ (n / 2 ^ shift + 1) * 2 ^ shift := Nat.mul_le_mul (by omega) hpow
  · calc 2 ^ 53 = 2 ^ 52 * 2 := rfl
      _ ≤ n / 2 ^ shift * 2 ^ shift := Nat.mul_le_mul hq hpow

inductive Json where
  | undefined
  | null
  | bool (value : Bool)
  | number (value : ℕ)
  | string (value : String)
  | array (items : List Json)
  | object (fields : List (String × Json))

namespace Json

/-- A field of an object, if it is there. -/
def get? : Json → String → Option Json
  | .object fields, key => (fields.find? fun field => field.1 = key).map Prod.snd
  | _, _ => none

def field (j : Json) (key : String) : Json := (j.get? key).getD .undefined

/-- The field is there. -/
def has (j : Json) (key : String) : Bool := (j.get? key).isSome

def isNull : Json → Bool
  | .null => true
  | _ => false

def bool? : Json → Option Bool
  | .bool b => some b
  | _ => none

def number? : Json → Option ℕ
  | .number n => some n
  | _ => none

def string? : Json → Option String
  | .string s => some s
  | _ => none

def items? : Json → Option (List Json)
  | .array items => some items
  | _ => none

/-- An object, or an array, which is one. -/
def isRecord : Json → Bool
  | .object _ | .array _ => true
  | _ => false

mutual

/-- `String(value)`. -/
def toText : Json → String
  | .undefined => "undefined"
  | .null => "null"
  | .bool b => toString b
  | .number n => toString n
  | .string s => s
  | .array items => String.intercalate "," (toTexts items)
  | .object _ => "[object Object]"

/-- The items of an array as they are joined. -/
def toTexts : List Json → List String
  | [] => []
  | .undefined :: items | .null :: items => "" :: toTexts items
  | item :: items => toText item :: toTexts items

end

section

variable (name key : String) (value : Json) (fields : List (String × Json))

@[simp]
theorem get?_cons : (object ((name, value) :: fields)).get? key =
    if name = key then some value else (object fields).get? key := by
  rw [get?, List.find?_cons]
  by_cases h : name = key
  · simp [h]
  · simp [h, get?]

@[simp]
theorem field_cons : (object ((name, value) :: fields)).field key =
    if name = key then value else (object fields).field key := by
  rw [field, get?_cons, apply_ite (Option.getD · undefined)]
  rfl

@[simp]
theorem has_cons : (object ((name, value) :: fields)).has key =
    (decide (name = key) || (object fields).has key) := by
  rw [has, get?_cons]
  by_cases h : name = key <;> simp [h, has]

@[simp]
theorem isRecord_object : (object fields).isRecord = true := rfl

end

@[simp]
theorem bool?_bool (b : Bool) : (bool b).bool? = some b := rfl

@[simp]
theorem number?_number (n : ℕ) : (number n).number? = some n := rfl

@[simp]
theorem string?_string (s : String) : (string s).string? = some s := rfl

@[simp]
theorem items?_array (items) : (array items).items? = some items := rfl

@[simp]
theorem toText_string (s : String) : (string s).toText = s := by
  rw [toText]

end Json

end NeonHearth
