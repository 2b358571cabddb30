import NeonHearth.Domain.Types

/-!
# Flow observations and rollups

The data types of the flow engine and of the flow repository: traffic counts, visibility
coverage, the dimensions that traffic is grouped by, and the keys of observed seconds and of
rollup rows.  Keys are ordered as the engine's ordered maps order them.
-/

namespace NeonHearth.Flow

/-- How much of the traffic a source sees. -/
inductive Coverage where
  | complete
  | routerReported
  | localOnly
  | estimated
  deriving DecidableEq

/-- Uploaded and downloaded bytes. -/
@[ext]
structure ByteCount where
  /-- Bytes sent by the device. -/
  upload : ℕ
  /-- Bytes received by the device. -/
  download : ℕ
  deriving DecidableEq

inductive Protocol where
  | tcp
  | udp
  | icmp
  | other
  deriving DecidableEq, Repr

inductive DestinationCategory where
  | local
  | lan
  | internet
  | unknown
  deriving DecidableEq, Repr

/-- The place in the declaration, by which the derived order compares. -/
def Protocol.rank : Protocol → ℕ
  | .tcp => 0
  | .udp => 1
  | .icmp => 2
  | .other => 3

/-- The place in the declaration, by which the derived order compares. -/
def DestinationCategory.rank : DestinationCategory → ℕ
  | .local => 0
  | .lan => 1
  | .internet => 2
  | .unknown => 3

theorem Protocol.rank_injective : Function.Injective Protocol.rank := by
  intro p q h
  cases p <;> cases q <;> first | rfl | cases h

theorem DestinationCategory.rank_injective : Function.Injective DestinationCategory.rank := by
  intro p q h
  cases p <;> cases q <;> first | rfl | cases h

/-- Where the traffic went, kept only when the owner allows it. -/
@[ext]
structure DestinationMetadata where
  ip : Option IpAddr
  domain : Option String
  deriving DecidableEq

/-- The dimensions that traffic is grouped by. -/
@[ext]
structure Dimensions where
  device : DeviceId
  protocol : Protocol
  destination : DestinationCategory
  interface : ℕ
  metadata : Option DestinationMetadata
  deriving DecidableEq

/-- The fields of metadata in the order they are compared in. -/
def DestinationMetadata.toKey (m : DestinationMetadata) : WithBot IpAddr ×ₗ WithBot String :=
  toLex (m.ip, m.domain)

theorem DestinationMetadata.toKey_injective : Function.Injective DestinationMetadata.toKey := by
  intro m n h
  have h := congrArg ofLex h
  exact DestinationMetadata.ext (congrArg Prod.fst h) (congrArg Prod.snd h)

instance : LinearOrder DestinationMetadata :=
  LinearOrder.lift' DestinationMetadata.toKey DestinationMetadata.toKey_injective

/-- The fields of the dimensions in the order they are compared in. -/
def Dimensions.toKey (d : Dimensions) : DeviceId ×ₗ ℕ ×ₗ ℕ ×ₗ ℕ ×ₗ WithBot DestinationMetadata :=
  toLex (d.device, toLex (d.protocol.rank, toLex (d.destination.rank,
    toLex (d.interface, d.metadata))))

theorem Dimensions.toKey_injective : Function.Injective Dimensions.toKey := by
  intro d e h
  obtain ⟨h₁, h⟩ := Prod.ext_iff.1 (congrArg ofLex h)
  obtain ⟨h₂, h⟩ := Prod.ext_iff.1 (congrArg ofLex h)
  obtain ⟨h₃, h⟩ := Prod.ext_iff.1 (congrArg ofLex h)
  obtain ⟨h₄, h₅⟩ := Prod.ext_iff.1 (congrArg ofLex h)
  exact Dimensions.ext h₁ (Protocol.rank_injective h₂) (DestinationCategory.rank_injective h₃) h₄ h₅

instance : LinearOrder Dimensions := LinearOrder.lift' Dimensions.toKey Dimensions.toKey_injective

/-- A second of traffic with its dimensions. -/
@[ext]
structure SecondKey where
  /-- Start of the second. -/
  epoch : ℤ
  dims : Dimensions
  deriving DecidableEq

/-- The fields of a second in the order they are compared in. -/
def SecondKey.toKey (k : SecondKey) : ℤ ×ₗ Dimensions := toLex (k.epoch, k.dims)

theorem SecondKey.toKey_injective : Function.Injective SecondKey.toKey := by
  intro k l h
  obtain ⟨h₁, h₂⟩ := Prod.ext_iff.1 (congrArg ofLex h)
  exact SecondKey.ext h₁ h₂

instance : LinearOrder SecondKey := LinearOrder.lift' SecondKey.toKey SecondKey.toKey_injective

/-- Source ids. -/
abbrev FlowSourceId := ℕ

/-- What one source saw in a second. -/
@[ext]
structure SourceSecondKey where
  base : SecondKey
  source : FlowSourceId
  deriving DecidableEq

/-- The fields of a source's second in the order they are compared in. -/
def SourceSecondKey.toKey (k : SourceSecondKey) : SecondKey ×ₗ FlowSourceId :=
  toLex (k.base, k.source)

theorem SourceSecondKey.toKey_injective : Function.Injective SourceSecondKey.toKey := by
  intro k l h
  obtain ⟨h₁, h₂⟩ := Prod.ext_iff.1 (congrArg ofLex h)
  exact SourceSecondKey.ext h₁ h₂

instance : LinearOrder SourceSecondKey :=
  LinearOrder.lift' SourceSecondKey.toKey SourceSecondKey.toKey_injective

inductive Resolution where
  | second
  | minute
  | hour
  deriving DecidableEq, Repr

/-- Seconds in a bucket. -/
def Resolution.width : Resolution → ℤ
  | .second => 1
  | .minute => 60
  | .hour => 3600

theorem Resolution.width_injective : Function.Injective Resolution.width := by
  intro p q h
  cases p <;> cases q <;> first | rfl | cases h

/-- The key of a rollup row. -/
@[ext]
structure RollupKey where
  resolution : Resolution
  /-- Start of the bucket. -/
  bucket : ℤ
  dims : Dimensions
  deriving DecidableEq

/-- The fields of a rollup key in the order they are compared in. -/
def RollupKey.toKey (k : RollupKey) : ℤ ×ₗ ℤ ×ₗ Dimensions :=
  toLex (k.resolution.width, toLex (k.bucket, k.dims))

theorem RollupKey.toKey_injective : Function.Injective RollupKey.toKey := by
  intro k l h
  obtain ⟨h₁, h⟩ := Prod.ext_iff.1 (congrArg ofLex h)
  obtain ⟨h₂, h₃⟩ := Prod.ext_iff.1 (congrArg ofLex h)
  exact RollupKey.ext (Resolution.width_injective h₁) h₂ h₃

instance : LinearOrder RollupKey := LinearOrder.lift' RollupKey.toKey RollupKey.toKey_injective

/-- Bytes with the coverage of the source or sources they come from. -/
@[ext]
structure Value where
  bytes : ByteCount
  coverage : Coverage
  deriving DecidableEq

end NeonHearth.Flow
