import NeonHearth.Data.F32
import NeonHearth.Time.DateTime

/-!
# Domain types

The types that the sensor, the services and the store share.
-/

namespace NeonHearth

instance neZeroIds : NeZero (2 ^ 128) := ⟨by decide⟩

/-- Device ids are UUIDs; the order of their text form is the numeric order. -/
abbrev DeviceId := Fin (2 ^ 128)

instance : LawfulBEq DeviceId := inferInstance

inductive PresenceState where
  | online
  | quiet
  | offline
  | blocked
  | unknown
  deriving DecidableEq

inductive EvidenceFamily where
  | linkLayer
  | addressing
  | naming
  | service
  | cryptographic
  | routerHint
  | owner
  deriving DecidableEq

inductive IpAddr where
  | v4 (a : BitVec 32)
  | v6 (a : BitVec 128)
  deriving DecidableEq

namespace IpAddr

/-- The addresses in the order of the source, those of the fourth version first. -/
def toKey : IpAddr → ℕ
  | .v4 a => a.toNat
  | .v6 a => 2 ^ 32 + a.toNat

theorem toKey_injective : Function.Injective toKey := by
  intro a b h
  rcases a with a | a <;> rcases b with b | b <;> simp only [toKey] at h
  · exact congrArg _ (BitVec.eq_of_toNat_eq h)
  · exact absurd a.isLt (by omega)
  · exact absurd b.isLt (by omega)
  · exact congrArg _ (BitVec.eq_of_toNat_eq (Nat.add_left_cancel h))

instance : LinearOrder IpAddr := LinearOrder.lift' toKey toKey_injective

/-- The longest length for an address. -/
def width : IpAddr → ℕ
  | .v4 _ => 32
  | .v6 _ => 128

/-- The private and the link-local unicast addresses. -/
def IsPrivateUnicast : IpAddr → Prop
  | .v4 a =>
    a.toNat ∈ Set.Ico 0x0a000000 0x0b000000 ∨ a.toNat ∈ Set.Ico 0xac100000 0xac200000 ∨
      a.toNat ∈ Set.Ico 0xc0a80000 0xc0a90000 ∨ a.toNat ∈ Set.Ico 0xa9fe0000 0xa9ff0000
  | .v6 a =>
    a.toNat ∈ Set.Ico (0xfc00 * 2 ^ 112) (0xfe00 * 2 ^ 112) ∨
      a.toNat ∈ Set.Ico (0xfe80 * 2 ^ 112) (0xfec0 * 2 ^ 112)

end IpAddr

structure EvidenceFact where
  family : EvidenceFamily
  source : String
  key : String
  value : String
  confidence : F32
  observedAt : DateTime
  expiresAt : Option DateTime
  ownerConfirmed : Bool
  deriving DecidableEq

end NeonHearth
