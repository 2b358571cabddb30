import NeonHearth.Data.Chars
import NeonHearth.Data.PrefixCode
import NeonHearth.Data.SortedMap

/-!
# Manifests of audit modules

An audit module is a WebAssembly program that comes with a manifest (`manifest.rs` of the audit
crate): what the module is, what it may do and within which limits.  The manifest is signed over its
canonical bytes, and `verifyManifest` lets a module run only under a manifest that is well formed and
has a valid signature.

The canonical bytes are the fields one after another, texts and lists after their lengths.  Within
the bounds that `fromParts` asks for each field can be read off the front (`Readable`), so two
manifests with the same bytes differ in their signatures only.
-/

namespace NeonHearth.Wasm

open Chars PrefixCode NeonHearth.Except SortedMap

/-- `std::time::Duration`. -/
structure Duration where
  secs : UInt64
  subsecNanos : UInt32
  deriving DecidableEq

structure Limits where
  maxBytes : UInt64
  maxRequests : UInt32
  maxTime : Duration
  maxFuel : UInt64
  maxMemoryPages : UInt32

inductive Capability where
  | tcpExchange (port : UInt16)
  | httpExchange (port : UInt16)
  | tlsMetadata (port : UInt16)
  deriving DecidableEq

inductive TargetKind where
  | numericPrivateDevice

inductive SideEffectProfile where
  | readOnly
  | destructive
  | persistent
  | credentialExfiltration
  | denialOfService
  | firmwareWrite
  deriving DecidableEq

structure RollbackPlan where
  required : Bool
  description : String

inductive EvidenceType where
  | text
  | integer
  | boolean
  | bytes

inductive AuditError where
  | invalidManifest (reason : String)
  | digestMismatch
  | invalidSignature
  | unsafeSideEffects (profile : SideEffectProfile)
  | wasmTooLarge
  | forbiddenImport (name : String)
  | fuelExhausted
  | timedOut
  | memoryLimitExceeded
  | tableLimitExceeded
  | outputLimitExceeded
  | trap
  | invalidModule
  | invalidAbi
  | inputLimitExceeded
  | requestLimitExceeded
  | budgetExhausted
  | hostRejected
  | cancelled
  deriving DecidableEq

def maxWasmBytes : ℕ := 16 * 1024 * 1024

def maxText : ℕ := 4096

def maxFields : ℕ := 64

def maxCapabilities : ℕ := 16

def validLimits (limits : Limits) : Bool :=
  0 < limits.maxBytes.toNat && limits.maxBytes.toNat ≤ maxWasmBytes &&
  0 < limits.maxRequests && limits.maxRequests ≤ 1024 &&
  limits.maxTime ≠ ⟨0, 0⟩ && limits.maxTime.subsecNanos = 0 && limits.maxTime.secs ≤ 300 &&
  0 < limits.maxFuel && limits.maxFuel ≤ 10000000000 &&
  0 < limits.maxMemoryPages && limits.maxMemoryPages ≤ 1024

namespace Capability

def port : Capability → UInt16
  | tcpExchange port | httpExchange port | tlsMetadata port => port

/-- The byte that stands for the variant. -/
def tag : Capability → UInt8
  | tcpExchange _ => 1
  | httpExchange _ => 2
  | tlsMetadata _ => 3

/-- The derived order: by variant, then by port. -/
def rank (c : Capability) : ℕ ×ₗ ℕ := toLex (c.tag.toNat, c.port.toNat)

theorem ext {c d : Capability} (htag : c.tag = d.tag) (hport : c.port = d.port) : c = d := by
  cases c <;> cases d <;> cases hport <;> first | rfl | cases htag

theorem rank_injective : Function.Injective rank := by
  intro c d h
  obtain ⟨htag, hport⟩ := Prod.mk.inj (toLex.injective h)
  exact ext (UInt8.toNat_inj.1 htag) (UInt16.toNat_inj.1 hport)

instance : LinearOrder Capability := LinearOrder.lift' rank rank_injective

end Capability

/-- The manifest of a module.  `capabilities` and `evidenceSchema` are listed in ascending order. -/
structure AuditManifest where
  moduleId : String
  version : UInt16
  sha256 : Vector UInt8 32
  targetKind : TargetKind
  capabilities : Finset Capability
  expectedBehavior : String
  sideEffects : SideEffectProfile
  rollback : RollbackPlan
  evidenceSchema : SortedMap String EvidenceType
  limits : Limits
  signature : Vector UInt8 64

/-! ### Validation -/

/-- The bytes of a text. -/
def utf8 (s : String) : List UInt8 := s.toByteArray.data.toList

/-- A byte of a module's name: a letter, a digit, `.`, `-` or `_`. -/
def isNameByte (b : UInt8) : Bool :=
  (48 ≤ b && b ≤ 57) || (65 ≤ b && b ≤ 90) || (97 ≤ b && b ≤ 122) || b = 46 || b = 45 || b = 95

/-- A text that is not blank, is not padded and has no control characters. -/
def isCleanText (s : String) (max : ℕ) : Bool :=
  trim s ≠ "" && s.utf8ByteSize ≤ max && trim s = s && !s.toList.any isControl

/-- A key of the evidence schema. -/
def isFieldKey (k : String) : Bool :=
  k ≠ "" && k.utf8ByteSize ≤ 128 && trim k = k && !k.toList.any isControl

namespace AuditManifest

/-- Checks the fields of a manifest, which are given as the manifest that they make up. -/
def fromParts (m : AuditManifest) : Except AuditError AuditManifest := do
  reject (m.version = 0 ∨ m.moduleId = "" ∨ 128 < m.moduleId.utf8ByteSize ∨
    (utf8 m.moduleId).all isNameByte = false) (.invalidManifest "noncanonical module identity")
  reject (isCleanText m.expectedBehavior maxText = false ∨
    isCleanText m.rollback.description maxText = false) (.invalidManifest "invalid text")
  reject (m.rollback.required = true) (.invalidManifest "executable rollback is unsupported")
  reject (m.capabilities = ∅ ∨ maxCapabilities < m.capabilities.card ∨
    ∃ c ∈ m.capabilities, c.port = 0) (.invalidManifest "invalid capabilities")
  reject (m.evidenceSchema.size = 0 ∨ maxFields < m.evidenceSchema.size ∨
    (m.evidenceSchema.toList.all fun x => isFieldKey x.1) = false)
    (.invalidManifest "invalid evidence schema")
  reject (validLimits m.limits = false) (.invalidManifest "invalid limits")
  pure m

/-! ### The signed bytes -/

/-- A text after its length, which is cut to 32 bits. -/
def putStr (s : String) : List UInt8 := beBytes 4 s.utf8ByteSize ++ utf8 s

def putCapability (c : Capability) : List UInt8 := c.tag :: beBytes 2 c.port.toNat

def targetTag : TargetKind → UInt8
  | .numericPrivateDevice => 1

def sideEffectsTag : SideEffectProfile → UInt8
  | .readOnly => 0
  | .destructive => 1
  | .persistent => 2
  | .credentialExfiltration => 3
  | .denialOfService => 4
  | .firmwareWrite => 5

def boolTag (b : Bool) : UInt8 := if b then 1 else 0

def evidenceTag : EvidenceType → UInt8
  | .text => 1
  | .integer => 2
  | .boolean => 3
  | .bytes => 4

def putField (x : String × EvidenceType) : List UInt8 := putStr x.1 ++ [evidenceTag x.2]

def domain : List UInt8 := utf8 "NeonHearth/lattice-audit-wasm/manifest/v1\x00"

def putLimits (limits : Limits) : List UInt8 :=
  beBytes 8 limits.maxBytes.toNat ++ beBytes 4 limits.maxRequests.toNat ++
    beBytes 8 limits.maxTime.secs.toNat ++ beBytes 8 limits.maxFuel.toNat ++
    beBytes 4 limits.maxMemoryPages.toNat

/-- What is signed: all fields but the signature. -/
def canonicalUnsigned (m : AuditManifest) : List UInt8 :=
  domain ++ putStr m.moduleId ++ beBytes 2 m.version.toNat ++ m.sha256.toList ++
    [targetTag m.targetKind] ++
    (beBytes 4 m.capabilities.card ++ m.capabilities.sort.flatMap putCapability) ++
    putStr m.expectedBehavior ++ [sideEffectsTag m.sideEffects] ++
    [boolTag m.rollback.required] ++ putStr m.rollback.description ++
    (beBytes 4 m.evidenceSchema.size ++ m.evidenceSchema.toList.flatMap putField) ++
    putLimits m.limits

end AuditManifest

/-- A manifest that was verified, with its module. -/
structure VerifiedManifest where
  inner : AuditManifest
  wasm : List UInt8

/-- The hash function and the signature scheme are parameters. -/
def verifyManifest {Key : Type} (digest : List UInt8 → Vector UInt8 32)
    (verifyStrict : Key → List UInt8 → Vector UInt8 64 → Bool) (manifest : AuditManifest)
    (wasm : List UInt8) (key : Key) : Except AuditError VerifiedManifest := do
  let _ ← manifest.fromParts
  reject (maxWasmBytes < wasm.length) .wasmTooLarge
  reject (digest wasm ≠ manifest.sha256) .digestMismatch
  reject (manifest.sideEffects ≠ .readOnly) (.unsafeSideEffects manifest.sideEffects)
  reject (verifyStrict key manifest.canonicalUnsigned manifest.signature = false) .invalidSignature
  pure ⟨manifest, wasm⟩

/-! ### Reading the signed bytes -/

namespace AuditManifest

theorem utf8_injective : Function.Injective utf8 := fun _ _ h =>
  String.toByteArray_inj.1 (ByteArray.ext (Array.toList_inj.1 h))

theorem readable_putStr : Readable (fun s : String => s.utf8ByteSize < 256 ^ 4) putStr := by
  have hbytes : Readable (fun _ : UInt8 => True) fun b => [b] :=
    .of_length 1 (fun _ _ => rfl) fun _ _ _ _ => List.singleton_inj.1
  have h := (hbytes.counted (readable_beBytes 4)).comap utf8
    (fun s (hs : s.utf8ByteSize < 256 ^ 4) => ⟨hs, fun _ _ => trivial⟩)
    (fun _ _ _ _ => @utf8_injective _ _)
  simp only [List.flatMap_singleton'] at h
  exact h

/-- A byte that tells the values of a type apart. -/
theorem readable_tag {α : Type} {tag : α → UInt8} (htag : Function.Injective tag) :
    Readable (fun _ : α => True) fun x => [tag x] :=
  .of_length 1 (fun _ _ => rfl) fun _ _ _ _ h => htag (List.singleton_inj.1 h)

theorem readable_u16 : Readable (fun _ : UInt16 => True) fun n => beBytes 2 n.toNat :=
  (readable_beBytes 2).comap _ (fun n _ => n.toNat_lt) fun _ _ _ _ => UInt16.toNat_inj.1

theorem readable_u32 : Readable (fun _ : UInt32 => True) fun n => beBytes 4 n.toNat :=
  (readable_beBytes 4).comap _ (fun n _ => n.toNat_lt) fun _ _ _ _ => UInt32.toNat_inj.1

theorem readable_u64 : Readable (fun _ : UInt64 => True) fun n => beBytes 8 n.toNat :=
  (readable_beBytes 8).comap _ (fun n _ => n.toNat_lt) fun _ _ _ _ => UInt64.toNat_inj.1

theorem readable_putCapability : Readable (fun _ : Capability => True) putCapability :=
  ((readable_tag (fun _ _ h => h)).append readable_u16).comap (fun c => (c.tag, c.port))
    (fun _ _ => ⟨trivial, trivial⟩) fun _ _ _ _ h => Capability.ext (Prod.mk.inj h).1 (Prod.mk.inj h).2

theorem sideEffectsTag_injective : Function.Injective sideEffectsTag := by
  intro x y h
  cases x <;> cases y <;> first | rfl | cases h

theorem evidenceTag_injective : Function.Injective evidenceTag := by
  intro x y h
  cases x <;> cases y <;> first | rfl | cases h

theorem readable_putField :
    Readable (fun x : String × EvidenceType => x.1.utf8ByteSize < 256 ^ 4) putField :=
  (readable_putStr.append (readable_tag evidenceTag_injective)).comap id (fun _ h => ⟨h, trivial⟩)
    fun _ _ _ _ h => h

/-- The lengths and numbers that the encoding relies on. -/
structure Bounded (m : AuditManifest) : Prop where
  moduleId : m.moduleId.utf8ByteSize < 256 ^ 4
  expectedBehavior : m.expectedBehavior.utf8ByteSize < 256 ^ 4
  description : m.rollback.description.utf8ByteSize < 256 ^ 4
  capabilities : m.capabilities.card < 256 ^ 4
  fields : m.evidenceSchema.size < 256 ^ 4
  keys : ∀ x ∈ m.evidenceSchema.toList, x.1.utf8ByteSize < 256 ^ 4
  nanos : m.limits.maxTime.subsecNanos = 0

theorem utf8ByteSize_le_of_isCleanText {s} {max : ℕ} (h : ¬isCleanText s max = false) :
    s.utf8ByteSize ≤ max := by
  rw [Bool.not_eq_false, isCleanText] at h
  simp only [Bool.and_eq_true, decide_eq_true_eq] at h
  exact h.1.1.2

theorem utf8ByteSize_le_of_isFieldKey {k} (h : isFieldKey k = true) : k.utf8ByteSize ≤ 128 := by
  simp only [isFieldKey, Bool.and_eq_true, decide_eq_true_eq] at h
  exact h.1.1.2

theorem bounded_of_fromParts {m m' : AuditManifest} (h : m.fromParts = .ok m') : m.Bounded := by
  obtain ⟨_, hid, h⟩ := bind_eq_ok.1 h
  obtain ⟨_, htext, h⟩ := bind_eq_ok.1 h
  obtain ⟨_, -, h⟩ := bind_eq_ok.1 h
  obtain ⟨_, hcapabilities, h⟩ := bind_eq_ok.1 h
  obtain ⟨_, hfields, h⟩ := bind_eq_ok.1 h
  obtain ⟨_, hlimits, -⟩ := bind_eq_ok.1 h
  rw [reject_eq_ok] at hid htext hcapabilities hfields hlimits
  rw [not_or] at htext
  simp only [not_or, not_lt, Bool.not_eq_false, List.all_eq_true] at hid hcapabilities hfields
  have hbehavior := utf8ByteSize_le_of_isCleanText htext.1
  have hdescription := utf8ByteSize_le_of_isCleanText htext.2
  rw [maxText] at hbehavior hdescription
  rw [maxCapabilities] at hcapabilities
  rw [maxFields] at hfields
  refine ⟨by omega, by omega, by omega, by omega, by omega, fun x hx => ?_, ?_⟩
  · have := utf8ByteSize_le_of_isFieldKey (hfields.2.2 x hx)
    omega
  · simp only [validLimits, Bool.and_eq_true, decide_eq_true_eq, Bool.not_eq_false] at hlimits
    exact hlimits.1.1.1.1.1.2

theorem putLimits_inj {a b} (ha : a.maxTime.subsecNanos = 0)
    (hb : b.maxTime.subsecNanos = 0) (h : putLimits a = putLimits b) : a = b := by
  simp only [putLimits, List.append_assoc] at h
  obtain ⟨hbytes, h⟩ := readable_u64 _ _ trivial trivial _ _ h
  obtain ⟨hrequests, h⟩ := readable_u32 _ _ trivial trivial _ _ h
  obtain ⟨hsecs, h⟩ := readable_u64 _ _ trivial trivial _ _ h
  obtain ⟨hfuel, h⟩ := readable_u64 _ _ trivial trivial _ _ h
  obtain ⟨hpages, -⟩ := readable_u32 _ _ trivial trivial [] [] (by simpa using h)
  obtain ⟨_, _, ⟨_, _⟩, _, _⟩ := a
  obtain ⟨_, _, ⟨_, _⟩, _, _⟩ := b
  obtain rfl := ha.trans hb.symm
  subst hbytes hrequests hsecs hfuel hpages
  rfl

/-- The fields are taken off the bytes one after another. -/
theorem canonicalUnsigned_inj {a b : AuditManifest} (ha : a.Bounded) (hb : b.Bounded)
    (h : a.canonicalUnsigned = b.canonicalUnsigned) : { a with signature := b.signature } = b := by
  simp only [canonicalUnsigned, List.append_assoc, List.append_cancel_left_eq] at h
  simp only [← List.append_assoc (beBytes 4 _), ← length_toList,
    ← Finset.length_sort (· ≤ · : Capability → Capability → Prop)] at h
  obtain ⟨hid, h⟩ := readable_putStr _ _ ha.moduleId hb.moduleId _ _ h
  obtain ⟨hversion, h⟩ := readable_u16 _ _ trivial trivial _ _ h
  obtain ⟨hsha, h⟩ := List.append_inj h (by simp)
  obtain ⟨-, h⟩ := List.append_inj h rfl
  obtain ⟨hcapabilities, h⟩ := readable_putCapability.counted (readable_beBytes 4) _ _
    ⟨by simpa using ha.capabilities, fun _ _ => trivial⟩
    ⟨by simpa using hb.capabilities, fun _ _ => trivial⟩ _ _ h
  obtain ⟨hbehavior, h⟩ := readable_putStr _ _ ha.expectedBehavior hb.expectedBehavior _ _ h
  obtain ⟨heffects, h⟩ := readable_tag sideEffectsTag_injective _ _ trivial trivial _ _ h
  obtain ⟨hrequired, h⟩ := readable_tag (show Function.Injective boolTag by decide) _ _ trivial trivial _ _ h
  obtain ⟨hdescription, h⟩ := readable_putStr _ _ ha.description hb.description _ _ h
  obtain ⟨hfields, h⟩ := readable_putField.counted (readable_beBytes 4) _ _
    ⟨by simpa [length_toList] using ha.fields, ha.keys⟩
    ⟨by simpa [length_toList] using hb.fields, hb.keys⟩ _ _ h
  have hlimits := putLimits_inj ha.nanos hb.nanos h
  replace hsha := Vector.toList_inj.1 hsha
  replace hcapabilities : a.capabilities = b.capabilities := by
    simpa using congrArg List.toFinset hcapabilities
  replace hfields := toList_injective hfields
  obtain ⟨_, _, _, ⟨⟩, _, _, _, ⟨_, _⟩, _, _, _⟩ := a
  obtain ⟨_, _, _, ⟨⟩, _, _, _, ⟨_, _⟩, _, _, _⟩ := b
  subst hid hversion hsha hcapabilities hbehavior heffects hrequired hdescription hfields hlimits
  rfl

end AuditManifest

section Signatures

variable {Key : Type} {digest : List UInt8 → Vector UInt8 32}
  {verifyStrict : Key → List UInt8 → Vector UInt8 64 → Bool}

open AuditManifest

theorem verifyManifest_eq_ok {m wasm} {key : Key}
    {v} (h : verifyManifest digest verifyStrict m wasm key = .ok v) :
    m.Bounded ∧ digest wasm = m.sha256 ∧
      verifyStrict key m.canonicalUnsigned m.signature = true := by
  obtain ⟨_, hparts, h⟩ := bind_eq_ok.1 h
  obtain ⟨_, -, h⟩ := bind_eq_ok.1 h
  obtain ⟨_, hdigest, h⟩ := bind_eq_ok.1 h
  obtain ⟨_, -, h⟩ := bind_eq_ok.1 h
  obtain ⟨_, hsignature, -⟩ := bind_eq_ok.1 h
  rw [reject_eq_ok, not_ne_iff] at hdigest
  rw [reject_eq_ok, Bool.not_eq_false] at hsignature
  exact ⟨bounded_of_fromParts hparts, hdigest, hsignature⟩

/-- **The canonical bytes determine all fields** of an accepted manifest but the signature. -/
theorem canonicalUnsigned_determines (a b : AuditManifest) (ha : a.fromParts = .ok a)
    (hb : b.fromParts = .ok b) (h : a.canonicalUnsigned = b.canonicalUnsigned) :
    { a with signature := b.signature } = b :=
  canonicalUnsigned_inj (bounded_of_fromParts ha) (bounded_of_fromParts hb) h

/-- **Signatures cannot be moved to another manifest**: if the scheme lets a signature stand for one text
under each key, a signature is verified for one manifest only, and so for modules with one digest. -/
theorem verifyManifest_unique
    (hscheme : ∀ key x y s, verifyStrict key x s = true → verifyStrict key y s = true → x = y) :
    (∀ a b : AuditManifest, a.fromParts = .ok a → b.fromParts = .ok b →
      a.canonicalUnsigned = b.canonicalUnsigned → { a with signature := b.signature } = b) ∧
    ∀ (a b : AuditManifest) (wasm wasm' : List UInt8) (key : Key) (v v' : VerifiedManifest),
      verifyManifest digest verifyStrict a wasm key = .ok v →
      verifyManifest digest verifyStrict b wasm' key = .ok v' →
      a.signature = b.signature → a = b ∧ digest wasm = digest wasm' := by
  refine ⟨canonicalUnsigned_determines, fun a b wasm wasm' key v v' ha hb hsignature => ?_⟩
  obtain ⟨ha, hdigest, hverified⟩ := verifyManifest_eq_ok ha
  obtain ⟨hb, hdigest', hverified'⟩ := verifyManifest_eq_ok hb
  rw [hsignature] at hverified
  have heq := canonicalUnsigned_inj ha hb (hscheme _ _ _ _ hverified hverified')
  rw [← hsignature] at heq
  obtain rfl : a = b := heq
  exact ⟨rfl, hdigest.trans hdigest'.symm⟩

end Signatures

def sampleManifest : AuditManifest where
  moduleId := "tls-probe"
  version := 1
  sha256 := .replicate 32 7
  targetKind := .numericPrivateDevice
  capabilities := {.tlsMetadata 443, .tcpExchange 80}
  expectedBehavior := "reads the certificate"
  sideEffects := .readOnly
  rollback := ⟨false, "none"⟩
  evidenceSchema := (∅ : SortedMap String EvidenceType).insert "issuer" .text
  limits := ⟨64, 1, ⟨1, 0⟩, 100000, 1⟩
  signature := .replicate 64 0

/-- A scheme with one signed text: the sample's signature is not one of its second version. -/
theorem sampleManifest_unique :
    (∃ v, verifyManifest (fun _ => sampleManifest.sha256)
      (fun _ x _ => decide (x = sampleManifest.canonicalUnsigned)) sampleManifest [] () = .ok v) ∧
    ¬∃ v, verifyManifest (fun _ => sampleManifest.sha256)
      (fun _ x _ => decide (x = sampleManifest.canonicalUnsigned))
      { sampleManifest with version := 2 } [] () = .ok v := by
  have hparts : (sampleManifest.fromParts.map fun _ => ()) = .ok () := by decide +kernel
  obtain ⟨_, hparts, -⟩ := map_eq_ok.1 hparts
  have hsample : verifyManifest (fun _ => sampleManifest.sha256)
      (fun _ x _ => decide (x = sampleManifest.canonicalUnsigned)) sampleManifest [] () =
        .ok ⟨sampleManifest, []⟩ := by
    refine bind_eq_ok.2 ⟨_, hparts, ?_⟩
    simp [reject, sampleManifest]
    rfl
  refine ⟨⟨_, hsample⟩, ?_⟩
  rintro ⟨v, hv⟩
  obtain ⟨heq, -⟩ := (verifyManifest_unique (fun _ x y _ hx hy =>
    (of_decide_eq_true hx).trans (of_decide_eq_true hy).symm)).2 _ _ _ _ _ _ _ hsample hv rfl
  exact absurd (congrArg AuditManifest.version heq) (by decide)

end NeonHearth.Wasm
