import NeonHearth.Data.Except
import NeonHearth.Domain.Types

/-!
# Facts about devices

The identity engine keeps facts about devices.  A fact is checked and normalized before it is kept
(`prepare`), and the facts of a device are compared with new ones to tell whether they are about the
same device (`matching`): only keys that identify a device count, router hints and expired facts do
not, and two families must agree.

* `prepared_of_prepareFact`, `prepareFact_of_prepared` : preparing a fact once is enough, if there is
  room for a hardware address in full;
* `validprop_matching` : a match in some family is a valid merge proposal.
-/

namespace NeonHearth.Identity

open NeonHearth.Except List

inductive IdentityError where
  | invalidConfidence
  | invalidConfig (reason : String)
  | invalidInput (reason : String)
  | capacity (what : String)
  | deviceNotFound
  | proposalNotFound
  | idSourceExhausted
  | cannotUndo
  | invalidCheckpoint (reason : String)
  deriving DecidableEq

structure IdentityConfig where
  autoIdentificationThreshold : F32
  routerHintCap : F32
  matchThreshold : F32
  contradictionThreshold : F32
  maxFactsPerDevice : ℕ
  maxProposals : ℕ
  maxDevices : ℕ
  maxMergeEdges : ℕ
  maxCandidateWork : ℕ
  maxOutputFacts : ℕ
  maxAuditRecords : ℕ
  maxKeyLen : ℕ
  maxValueLen : ℕ
  maxSourceLen : ℕ

/-- The number 0.85. -/
def safeThreshold : F32 := ⟨false, 0x3F59999A⟩

/-- `IdentityConfig::default`; the hint cap is 0.49. -/
def IdentityConfig.default : IdentityConfig where
  autoIdentificationThreshold := safeThreshold
  routerHintCap := ⟨false, 0x3EFAE148⟩
  matchThreshold := safeThreshold
  contradictionThreshold := safeThreshold
  maxFactsPerDevice := 256
  maxProposals := 1024
  maxDevices := 4096
  maxMergeEdges := 4096
  maxCandidateWork := 1000000
  maxOutputFacts := 512
  maxAuditRecords := 4096
  maxKeyLen := 96
  maxValueLen := 1024
  maxSourceLen := 128

def IdentityConfig.valid (cfg : IdentityConfig) : Except IdentityError Unit := do
  [cfg.autoIdentificationThreshold, cfg.routerHintCap, cfg.matchThreshold,
    cfg.contradictionThreshold].forM fun n =>
      reject (n.isConfidence = false) (.invalidConfig "confidence")
  reject (cfg.autoIdentificationThreshold < safeThreshold ∨ safeThreshold ≤ cfg.routerHintCap ∨
    cfg.matchThreshold < safeThreshold ∨ cfg.contradictionThreshold < safeThreshold)
    (.invalidConfig "unsafe thresholds")
  reject (0 ∈ [cfg.maxFactsPerDevice, cfg.maxProposals, cfg.maxDevices, cfg.maxMergeEdges,
    cfg.maxCandidateWork, cfg.maxOutputFacts, cfg.maxAuditRecords, cfg.maxKeyLen, cfg.maxValueLen,
    cfg.maxSourceLen]) (.invalidConfig "zero capacity")

theorem IdentityConfig.isConfidence_routerHintCap {cfg : IdentityConfig} (h : cfg.valid = .ok ()) :
    cfg.routerHintCap.isConfidence = true := by
  obtain ⟨_, hall, _⟩ := bind_eq_ok.1 h
  obtain ⟨_, _, hall⟩ := bind_eq_ok.1 hall
  obtain ⟨_, hcap, _⟩ := bind_eq_ok.1 hall
  simpa using hcap

/-! ### Hardware addresses -/

/-- The groups of a hardware address: six of two characters, or three of four. -/
def macShape (v : List Char) : Bool :=
  if v.contains ':' then
    (v.splitOn ':').length = 6 && (v.splitOn ':').all (String.utf8Len · = 2)
  else if v.contains '-' then
    (v.splitOn '-').length = 6 && (v.splitOn '-').all (String.utf8Len · = 2)
  else if v.contains '.' then
    (v.splitOn '.').length = 3 && (v.splitOn '.').all (String.utf8Len · = 4)
  else false

/-- `char::to_digit(16)`. -/
def hexDigit (c : Char) : Option ℕ :=
  if '0' ≤ c ∧ c ≤ '9' then some (c.toNat - 48)
  else if 'a' ≤ c ∧ c ≤ 'f' then some (c.toNat - 87)
  else if 'A' ≤ c ∧ c ≤ 'F' then some (c.toNat - 55)
  else none

/-- The bytes that pairs of digits stand for. -/
def hexBytes : List Char → Option (List ℕ)
  | [] => some []
  | [_] => none
  | c :: d :: rest => do
    let high ← hexDigit c
    let low ← hexDigit d
    let bytes ← hexBytes rest
    some ((16 * high + low) :: bytes)

/-- `format!("{x:02x}")`. -/
def hexByte (x : ℕ) : List Char := [Nat.digitChar (x / 16), Nat.digitChar (x % 16)]

def formatMac (bytes : List ℕ) : String := String.ofList ([':'].intercalate (bytes.map hexByte))

def isSeparator (c : Char) : Bool := c = ':' || c = '-' || c = '.'

/-- The normal form of a hardware address. -/
def mac (v : String) : Except IdentityError String := do
  reject (macShape v.toList = false) (.invalidInput "mac")
  let digits := v.toList.filter fun c => !isSeparator c
  reject (String.utf8Len digits ≠ 12 ∨ digits.any fun c => (hexDigit c).isNone)
    (.invalidInput "mac")
  let bytes ← okOr (hexBytes digits) (.invalidInput "mac")
  reject (bytes.head?.any (· % 2 ≠ 0) ∨ bytes.all (· = 0)) (.invalidInput "multicast mac")
  pure (formatMac bytes)

/-- The address is locally administered.  Only the first two characters are read, and a plus sign
before a single digit is a number too. -/
def localMac (v : String) : Bool :=
  match v.toList with
  | '+' :: d :: _ => (hexDigit d).any fun x => x / 2 % 2 = 1
  | c :: d :: _ => (hexBytes [c, d]).any fun bytes => bytes.all fun x => x / 2 % 2 = 1
  | _ => false

section Mac

variable {c : Char}

theorem hexDigit_digitChar : ∀ x < 16, hexDigit (Nat.digitChar x) = some x := by decide

theorem hexDigit_eq_some {n : ℕ} (h : hexDigit c = some n) : c.toNat ≤ 127 ∧ n < 16 := by
  unfold hexDigit at h
  split_ifs at h with h₁ h₂ h₃ <;> cases h
  · have : c.toNat ≤ 57 := h₁.2
    omega
  · have : c.toNat ≤ 102 := h₂.2
    omega
  · have : c.toNat ≤ 70 := h₃.2
    omega

theorem isSeparator_eq_true (h : isSeparator c = true) : c.utf8Size = 1 ∧ hexDigit c = none := by
  simp only [isSeparator, Bool.or_eq_true, decide_eq_true_eq] at h
  obtain (rfl | rfl) | rfl := h <;> decide

variable {bytes : List ℕ}

theorem hexBytes_spec {l} (h : hexBytes l = some bytes) :
    2 * bytes.length = l.length ∧ ∀ x ∈ bytes, x < 256 := by
  induction l using hexBytes.induct generalizing bytes with
  | case1 => cases h; simp
  | case2 => cases h
  | case3 c d rest ih =>
    simp only [hexBytes, Option.bind_eq_bind, Option.bind_eq_some_iff, Option.some.injEq] at h
    obtain ⟨high, hhigh, low, hlow, bytes, hbytes, rfl⟩ := h
    obtain ⟨hlength, hlt⟩ := ih hbytes
    have hh := hexDigit_eq_some hhigh
    have hl := hexDigit_eq_some hlow
    refine ⟨by simp only [length_cons]; omega, fun x hx => ?_⟩
    obtain rfl | hx := mem_cons.1 hx
    · omega
    · exact hlt x hx

/-- Writing bytes and reading them gives the bytes. -/
theorem hexBytes_hexByte (h : ∀ x ∈ bytes, x < 256) :
    hexBytes (bytes.flatMap hexByte) = some bytes := by
  induction bytes with
  | nil => rfl
  | cons x bytes ih =>
    have hx : x < 256 := h x mem_cons_self
    rw [flatMap_cons, hexByte, cons_append, cons_append, nil_append, hexBytes,
      hexDigit_digitChar _ (by omega), hexDigit_digitChar _ (by omega),
      ih fun y hy => h y (mem_cons_of_mem _ hy)]
    simp [Nat.div_add_mod]

theorem mem_hexByte {x : ℕ} (hx : x < 256) (h : c ∈ hexByte x) : hexDigit c ≠ none := by
  simp only [hexByte, mem_cons, not_mem_nil, or_false] at h
  obtain rfl | rfl := h <;> rw [hexDigit_digitChar _ (by omega)] <;> nofun

/-- Digits and separators are one byte each. -/
theorem utf8Len_eq_length {l}
    (h : ∀ c ∈ l, isSeparator c = false → hexDigit c ≠ none) : String.utf8Len l = l.length := by
  induction l with
  | nil => rfl
  | cons c l ih =>
    have hc : c.utf8Size = 1 := by
      cases hsep : isSeparator c with
      | true => exact (isSeparator_eq_true hsep).1
      | false =>
        obtain ⟨n, hn⟩ := Option.ne_none_iff_exists'.1 (h c mem_cons_self hsep)
        rw [Char.utf8Size, if_pos]
        exact (hexDigit_eq_some hn).1
    rw [String.utf8Len_cons, hc, ih fun d hd => h d (mem_cons_of_mem _ hd), length_cons]

theorem filter_intercalate {p groups}
    (hsep : p ':' = false) (h : ∀ g ∈ groups, ∀ c ∈ g, p c = true) :
    ([':'].intercalate groups).filter p = groups.flatten := by
  induction groups with
  | nil => rfl
  | cons g groups ih =>
    have hg : g.filter p = g := filter_eq_self.2 (h g mem_cons_self)
    have ih := ih fun g' hg' => h g' (mem_cons_of_mem _ hg')
    cases groups with
    | nil => simpa using hg
    | cons g' groups =>
      rw [intercalate_cons_of_ne_nil (cons_ne_nil _ _), filter_append, filter_append, hg, ih]
      simp [hsep]

/-- The normal form of six bytes: its length, and that it is its own normal form. -/
theorem mac_formatMac (hlength : bytes.length = 6) (hlt : ∀ x ∈ bytes, x < 256)
    (hunicast : ¬(bytes.head?.any (· % 2 ≠ 0) ∨ bytes.all (· = 0))) :
    (formatMac bytes).utf8ByteSize = 17 ∧ mac (formatMac bytes) = .ok (formatMac bytes) := by
  have hdigits : ∀ g ∈ bytes.map hexByte, ∀ c ∈ g, hexDigit c ≠ none := by
    intro g hg c hc
    obtain ⟨x, hx, rfl⟩ := mem_map.1 hg
    exact mem_hexByte (hlt x hx) hc
  have hgroup : ∀ g ∈ bytes.map hexByte, String.utf8Len g = 2 := by
    intro g hg
    rw [utf8Len_eq_length fun c hc _ => hdigits g hg c hc]
    obtain ⟨x, -, rfl⟩ := mem_map.1 hg
    rfl
  have hsplit : ([':'].intercalate (bytes.map hexByte)).splitOn ':' = bytes.map hexByte := by
    refine splitOn_intercalate ':' (fun g hg hmem => ?_) ?_
    · exact hdigits g hg ':' hmem (by decide)
    · rw [ne_eq, map_eq_nil_iff]
      rintro rfl
      cases hlength
  have hfilter : ([':'].intercalate (bytes.map hexByte)).filter (fun c => !isSeparator c) =
      bytes.flatMap hexByte := by
    rw [filter_intercalate (by decide), flatMap_def]
    intro g hg c hc
    rw [Bool.not_eq_true', ← Bool.not_eq_true]
    exact fun hsep => hdigits g hg c hc (isSeparator_eq_true hsep).2
  have hflat : ∀ c ∈ bytes.flatMap hexByte, hexDigit c ≠ none := by
    intro c hc
    obtain ⟨x, hx, hc⟩ := mem_flatMap.1 hc
    exact mem_hexByte (hlt x hx) hc
  have htoList : (formatMac bytes).toList = [':'].intercalate (bytes.map hexByte) :=
    String.toList_ofList
  -- Six groups of two digits and five colons.
  have hshape : ':' ∈ [':'].intercalate (bytes.map hexByte) ∧
      ([':'].intercalate (bytes.map hexByte)).length = 17 ∧ (bytes.flatMap hexByte).length = 12 := by
    match bytes, hlength with
    | [a, b, c, d, e, f], _ => simp [List.intercalate, hexByte]
  obtain ⟨hcolon, hlong, htwelve⟩ := hshape
  constructor
  · rw [formatMac, String.utf8ByteSize_ofList, utf8Len_eq_length, hlong]
    intro c hc hsep
    refine hflat c ?_
    rw [← hfilter, mem_filter]
    exact ⟨hc, by simpa using hsep⟩
  · simp only [mac, bind_eq_ok, pure_eq_ok, reject_eq_ok, okOr_eq_ok, htoList, hfilter]
    refine ⟨⟨⟩, ?_, ⟨⟩, ?_, bytes, hexBytes_hexByte hlt, ⟨⟩, hunicast, rfl⟩
    · rw [macShape, if_pos (by simpa using hcolon), hsplit, length_map, hlength]
      simpa using hgroup
    · rw [not_or, not_ne_iff, utf8Len_eq_length fun c hc _ => hflat c hc]
      refine ⟨htwelve, fun hnone => ?_⟩
      obtain ⟨c, hc, hnone⟩ := any_eq_true.1 hnone
      exact hflat c hc (Option.isNone_iff_eq_none.1 hnone)

theorem mac_spec {v w} (h : mac v = .ok w) : w.utf8ByteSize = 17 ∧ mac w = .ok w := by
  simp only [mac, bind_eq_ok, pure_eq_ok, reject_eq_ok, okOr_eq_ok] at h
  obtain ⟨-, -, -, hdigits, bytes, hbytes, -, hunicast, rfl⟩ := h
  rw [not_or] at hdigits
  obtain ⟨hlength, hlt⟩ := hexBytes_spec hbytes
  refine mac_formatMac ?_ hlt hunicast
  rw [utf8Len_eq_length, not_ne_iff] at hdigits
  · omega
  · exact fun c hc _ hnone => hdigits.2 (any_eq_true.2 ⟨c, hc, Option.isNone_iff_eq_none.2 hnone⟩)

end Mac

/-! ### Preparing facts -/

/-- The families in which a fact with a key may be reported. -/
def allowed (key : String) (family : EvidenceFamily) : Bool :=
  if family = .routerHint then
    key ∈ ["vendor", "class", "model", "firmware", "label", "hostname", "room"]
  else if key = "mac" then family = .linkLayer
  else if key ∈ ["ip", "client_id", "dhcp_client_id", "duid"] then family = .addressing
  else if key ∈ ["hostname", "name"] then family = .naming
  else if key ∈ ["tls_spki", "ssh_host_key"] then family = .cryptographic
  else if key ∈ ["serial", "uuid", "onvif_uuid", "upnp_udn"] then family = .service
  else if key ∈ ["vendor", "class", "model", "firmware"] then
    family ∈ [EvidenceFamily.naming, .service, .cryptographic]
  else false

/-- The value that is kept. -/
def normalValue (f : EvidenceFact) : Except IdentityError String :=
  if f.key = "mac" then mac f.value else .ok f.value

def prepareFact (cfg : IdentityConfig) (f : EvidenceFact) : Except IdentityError EvidenceFact := do
  reject (f.confidence.isConfidence = false) .invalidConfidence
  reject (f.ownerConfirmed ∨ f.family = .owner) (.invalidInput "owner provenance")
  reject (f.key = "" ∨ cfg.maxKeyLen < f.key.utf8ByteSize ∨
    f.value = "" ∨ cfg.maxValueLen < f.value.utf8ByteSize ∨
    f.source = "" ∨ cfg.maxSourceLen < f.source.utf8ByteSize) (.invalidInput "field bounds")
  reject (allowed f.key f.family = false) (.invalidInput "taxonomy")
  let value ← normalValue f
  let confidence :=
    if f.family = .routerHint then f.confidence.min cfg.routerHintCap else f.confidence
  pure { f with value, confidence }

def prepare (cfg : IdentityConfig) (facts : List EvidenceFact) :
    Except IdentityError (List EvidenceFact) :=
  facts.mapM (prepareFact cfg)

/-- A prepared fact: it keeps to the bounds, and preparing it again changes nothing. -/
structure Prepared (cfg : IdentityConfig) (f : EvidenceFact) : Prop where
  confidence : f.confidence.isConfidence = true
  provenance : ¬(f.ownerConfirmed ∨ f.family = .owner)
  bounds : ¬(f.key = "" ∨ cfg.maxKeyLen < f.key.utf8ByteSize ∨
    f.value = "" ∨ cfg.maxValueLen < f.value.utf8ByteSize ∨
    f.source = "" ∨ cfg.maxSourceLen < f.source.utf8ByteSize)
  allowed : allowed f.key f.family = true
  mac : f.key = "mac" → mac f.value = .ok f.value
  hint : f.family = .routerHint → f.confidence.min cfg.routerHintCap = f.confidence

/-- A fact that can be kept and restored: it is prepared, and does not expire before it was
observed. -/
structure FactOk (cfg : IdentityConfig) (f : EvidenceFact) : Prop extends Prepared cfg f where
  time : f.expiresAt.all (f.observedAt ≤ ·) = true

/-- A fact that will be `FactOk` once it is prepared: a hardware address in full has 17 characters,
which may be more than it was reported with. -/
structure Keepable (cfg : IdentityConfig) (f : EvidenceFact) : Prop where
  time : f.expiresAt.all (f.observedAt ≤ ·) = true
  room : f.key = "mac" → 17 ≤ cfg.maxValueLen

instance (cfg : IdentityConfig) (f : EvidenceFact) : Decidable (Keepable cfg f) :=
  decidable_of_iff (_ ∧ _) ⟨fun h => ⟨h.1, h.2⟩, fun h => ⟨h.time, h.room⟩⟩

section Prepare

variable {cfg : IdentityConfig} {f g : EvidenceFact}

theorem prepared_of_prepareFact (hcfg : cfg.valid = .ok ()) (h : prepareFact cfg f = .ok g)
    (hroom : f.key = "mac" → 17 ≤ cfg.maxValueLen) : Prepared cfg g := by
  simp only [prepareFact, bind_eq_ok, pure_eq_ok, reject_eq_ok] at h
  obtain ⟨-, hconfidence, -, hprovenance, -, hbounds, -, hallowed, value, hvalue, rfl⟩ := h
  rw [Bool.not_eq_false] at hconfidence hallowed
  refine ⟨?_, hprovenance, ?_, hallowed, fun hkey => ?_, fun hfamily => ?_⟩
  · dsimp only
    split_ifs
    · exact F32.isConfidence_min hconfidence (IdentityConfig.isConfidence_routerHintCap hcfg)
    · exact hconfidence
  · by_cases hkey : f.key = "mac"
    · -- The normal form may be longer than what was checked.
      rw [normalValue, if_pos hkey] at hvalue
      have hroom := hroom hkey
      have hlength := (mac_spec hvalue).1
      have hne : value ≠ "" := by
        rintro rfl
        cases hlength
      simp only [not_or] at hbounds ⊢
      exact ⟨hbounds.1, hbounds.2.1, hne, by omega, hbounds.2.2.2.2⟩
    · rw [normalValue, if_neg hkey] at hvalue
      cases hvalue
      exact hbounds
  · rw [normalValue, if_pos hkey] at hvalue
    exact (mac_spec hvalue).2
  · dsimp only at hfamily ⊢
    rw [if_pos hfamily, F32.min_min]

/-- Preparing a fact leaves its times as they are. -/
theorem prepareFact_times (h : prepareFact cfg f = .ok g) :
    g.observedAt = f.observedAt ∧ g.expiresAt = f.expiresAt := by
  simp only [prepareFact, bind_eq_ok, pure_eq_ok] at h
  obtain ⟨-, -, -, -, -, -, -, -, value, -, rfl⟩ := h
  exact ⟨rfl, rfl⟩

theorem factOk_of_prepareFact (hcfg : cfg.valid = .ok ()) (h : prepareFact cfg f = .ok g)
    (hkeep : Keepable cfg f) : FactOk cfg g := by
  obtain ⟨hobserved, hexpires⟩ := prepareFact_times h
  refine ⟨prepared_of_prepareFact hcfg h hkeep.room, ?_⟩
  rw [hobserved, hexpires]
  exact hkeep.time

theorem prepareFact_of_prepared (h : Prepared cfg f) : prepareFact cfg f = .ok f := by
  simp only [prepareFact, bind_eq_ok, pure_eq_ok, reject_eq_ok, Bool.not_eq_false]
  refine ⟨⟨⟩, h.confidence, ⟨⟩, h.provenance, ⟨⟩, h.bounds, ⟨⟩, h.allowed, f.value, ?_, ?_⟩
  · unfold normalValue
    split_ifs with hkey
    · exact h.mac hkey
    · rfl
  · split_ifs with hfamily
    · rw [h.hint hfamily]
    · rfl

variable {facts : List EvidenceFact}

theorem prepare_of_prepared (h : ∀ f ∈ facts, Prepared cfg f) : prepare cfg facts = .ok facts :=
  mapM_eq_ok.2 (forall₂_same.2 fun f hf => prepareFact_of_prepared (h f hf))

variable {prepared : List EvidenceFact}

theorem mem_prepare (h : prepare cfg facts = .ok prepared)
    (hg : g ∈ prepared) : ∃ f ∈ facts, prepareFact cfg f = .ok g :=
  forall₂_exists_left (mapM_eq_ok.1 h) hg

end Prepare

/-! ### Matching -/

/-- Facts expire when their time has passed; facts without a time do not. -/
def live (f : EvidenceFact) (now : DateTime) : Bool := f.expiresAt.all (now < ·)

/-- The family in which a key identifies a device. -/
def anchor (key : String) : Option EvidenceFamily :=
  if key = "mac" then some .linkLayer
  else if key ∈ ["client_id", "dhcp_client_id", "duid"] then some .addressing
  else if key ∈ ["tls_spki", "ssh_host_key"] then some .cryptographic
  else if key ∈ ["serial", "uuid", "onvif_uuid", "upnp_udn"] then some .service
  else none

def rank : EvidenceFamily → ℕ
  | .linkLayer => 0
  | .addressing => 1
  | .naming => 2
  | .service => 3
  | .cryptographic => 4
  | .routerHint => 5
  | .owner => 6

/-- Sorting and removing what is there twice.  In a sorted list that is what follows its like. -/
def sortDedup {α : Type} (r : α → α → Prop) [DecidableRel r] [DecidableEq α] (l : List α) : List α :=
  (l.insertionSort r).dedup

def sortfam (families : List EvidenceFamily) : List EvidenceFamily :=
  sortDedup (fun f g => rank f ≤ rank g) families

def sortReasons (reasons : List String) : List String := sortDedup (· ≤ ·) reasons

section SortDedup

variable {α : Type} {r : α → α → Prop} [DecidableRel r] [DecidableEq α] {l : List α} {a : α}

@[simp]
theorem mem_sortDedup : a ∈ sortDedup r l ↔ a ∈ l := by
  rw [sortDedup, mem_dedup, mem_insertionSort]

theorem nodup_sortDedup : (sortDedup r l).Nodup := nodup_dedup _

theorem length_sortDedup_le : (sortDedup r l).length ≤ l.length :=
  (dedup_sublist _).length_le.trans_eq (length_insertionSort r l)

theorem sortDedup_eq_nil : sortDedup r l = [] ↔ l = [] := by
  simp only [eq_nil_iff_forall_not_mem, mem_sortDedup]

end SortDedup

structure Match where
  any : Bool
  auto : Bool
  score : F32
  families : List EvidenceFamily
  reasons : List String

/-- What the loops of `matching` gather. -/
structure Matching where
  families : List EvidenceFamily
  reasons : List String
  score : F32
  conflict : Bool

/-- The facts that take part in matching. -/
def comparable (now : DateTime) (f : EvidenceFact) : Bool := live f now && f.family ≠ .routerHint

/-- The pairs of facts that are compared. -/
def comparisons (old new : List EvidenceFact) (now : DateTime) :
    List (EvidenceFact × EvidenceFact) :=
  old.filter (comparable now) ×ˢ new.filter (comparable now)

def matchPair (cfg : IdentityConfig) (acc : Matching) : EvidenceFact × EvidenceFact → Matching
  | (a, b) =>
    if anchor a.key = some a.family ∧ a.key = b.key ∧ a.family = b.family then
      if a.value = b.value then
        let s := a.confidence.min b.confidence
        { acc with
          score := acc.score.max s
          families := if cfg.matchThreshold ≤ s then acc.families ++ [a.family] else acc.families
          reasons := acc.reasons ++ [a.key ++ " matched"] }
      else if ¬(a.key = "mac" ∧ localMac a.value ∧ localMac b.value) ∧
          cfg.contradictionThreshold ≤ a.confidence ∧ cfg.contradictionThreshold ≤ b.confidence then
        { acc with conflict := true }
      else acc
    else acc

def matching (old new : List EvidenceFact) (now : DateTime) (cfg : IdentityConfig) : Match :=
  let acc := (comparisons old new now).foldl (matchPair cfg) ⟨[], [], .zero, false⟩
  let families := sortfam acc.families
  let reasons := sortReasons acc.reasons
  { any := reasons ≠ []
    auto := !acc.conflict && 2 ≤ families.length
    score := if acc.conflict then acc.score.quarter else acc.score
    families
    reasons }

/-- What a merge proposal needs. -/
def validprop (score : F32) (families : List EvidenceFamily) (reasons : List String) :
    Except IdentityError Unit := do
  reject (score.isConfidence = false) .invalidConfidence
  reject (families = [] ∨ 7 < families.length ∨ .routerHint ∈ families ∨ .owner ∈ families)
    (.invalidInput "proposal families")
  reject (reasons = [] ∨ 16 < reasons.length ∨ ∃ x ∈ reasons, x = "" ∨ 256 < x.utf8ByteSize)
    (.invalidInput "reasons")

/-- Both facts name the same device. -/
def agrees : EvidenceFact × EvidenceFact → Bool
  | (a, b) => anchor a.key = some a.family && a.key = b.key && a.family = b.family &&
      a.value = b.value

/-- Both facts name the same device with confidence. -/
def agreesStrongly (cfg : IdentityConfig) : EvidenceFact × EvidenceFact → Bool
  | (a, b) => agrees (a, b) && cfg.matchThreshold ≤ a.confidence.min b.confidence

section Matching

variable {cfg : IdentityConfig} {old new : List EvidenceFact} {now : DateTime}
  {p : EvidenceFact × EvidenceFact}

theorem mem_comparisons (h : p ∈ comparisons old new now) : p.1 ∈ old ∧ p.2 ∈ new := by
  obtain ⟨hold, hnew⟩ := mem_product.1 h
  exact ⟨(mem_filter.1 hold).1, (mem_filter.1 hnew).1⟩

/-- Every agreement gives a reason, and a strong one its family. -/
theorem foldl_matchPair (l : List (EvidenceFact × EvidenceFact)) (acc) :
    (l.foldl (matchPair cfg) acc).families =
      acc.families ++ (l.filter (agreesStrongly cfg)).map (·.1.family) ∧
    (l.foldl (matchPair cfg) acc).reasons =
      acc.reasons ++ (l.filter agrees).map (·.1.key ++ " matched") := by
  induction l generalizing acc with
  | nil => simp
  | cons p l ih =>
    rw [foldl_cons, (ih _).1, (ih _).2, filter_cons, filter_cons]
    obtain ⟨a, b⟩ := p
    simp only [matchPair, agreesStrongly, agrees]
    grind

theorem isConfidence_score {l : List (EvidenceFact × EvidenceFact)} {acc}
    (hacc : acc.score.isConfidence = true)
    (hl : ∀ p ∈ l, p.1.confidence.isConfidence = true ∧ p.2.confidence.isConfidence = true) :
    (l.foldl (matchPair cfg) acc).score.isConfidence = true := by
  induction l generalizing acc with
  | nil => exact hacc
  | cons p l ih =>
    refine ih ?_ fun q hq => hl q (mem_cons_of_mem _ hq)
    obtain ⟨ha, hb⟩ := hl p mem_cons_self
    obtain ⟨a, b⟩ := p
    simp only [matchPair]
    have hmax := F32.isConfidence_max hacc (F32.isConfidence_min ha hb)
    split_ifs <;> assumption

variable {family : EvidenceFamily}

theorem mem_families_matching : family ∈ (matching old new now cfg).families ↔
      ∃ p ∈ comparisons old new now, agreesStrongly cfg p = true ∧ p.1.family = family := by
  simp only [matching, sortfam, mem_sortDedup, (foldl_matchPair _ _).1, nil_append, mem_map,
    mem_filter, and_assoc]

theorem mem_reasons_matching {reason} : reason ∈ (matching old new now cfg).reasons ↔
      ∃ p ∈ comparisons old new now, agrees p = true ∧ p.1.key ++ " matched" = reason := by
  simp only [matching, sortReasons, mem_sortDedup, (foldl_matchPair _ _).2, nil_append,
    mem_map, mem_filter, and_assoc]

theorem any_matching : (matching old new now cfg).any = true ↔
    ∃ p ∈ comparisons old new now, agrees p = true := by
  have hany : (matching old new now cfg).any = true ↔ (matching old new now cfg).reasons ≠ [] :=
    decide_eq_true_iff
  rw [hany]
  constructor
  · intro h
    obtain ⟨reason, hreason⟩ := exists_mem_of_ne_nil _ h
    obtain ⟨p, hp, hagrees, -⟩ := mem_reasons_matching.1 hreason
    exact ⟨p, hp, hagrees⟩
  · rintro ⟨p, hp, hagrees⟩
    exact ne_nil_of_mem (mem_reasons_matching.2 ⟨p, hp, hagrees, rfl⟩)

/-- The keys that identify devices. -/
def anchorKeys : List String :=
  ["mac", "client_id", "dhcp_client_id", "duid", "tls_spki", "ssh_host_key", "serial", "uuid",
    "onvif_uuid", "upnp_udn"]

theorem anchor_eq_some {key} (h : anchor key = some family) :
    key ∈ anchorKeys ∧ family ∈ [EvidenceFamily.linkLayer, .addressing, .cryptographic, .service] := by
  unfold anchor at h
  split_ifs at h <;> cases h <;> exact ⟨by grind [anchorKeys], by decide⟩

variable {families : List EvidenceFamily}

theorem validprop_eq_ok {score : F32} {reasons} :
    validprop score families reasons = .ok () ↔ score.isConfidence = true ∧
      (families ≠ [] ∧ families.length ≤ 7 ∧ .routerHint ∉ families ∧ .owner ∉ families) ∧
      reasons ≠ [] ∧ reasons.length ≤ 16 ∧ ∀ x ∈ reasons, x ≠ "" ∧ x.utf8ByteSize ≤ 256 := by
  simp only [validprop, bind_eq_ok, reject_eq_ok, Bool.not_eq_false, not_or, not_lt,
    not_exists, not_and, exists_const, ne_eq, and_assoc]

theorem validprop_sorted {score : F32} {reasons} (h : validprop score families reasons = .ok ()) :
    validprop score (sortfam families) (sortReasons reasons) = .ok () := by
  obtain ⟨hscore, ⟨hne, hlength, hhint, howner⟩, hreasons, hcount, htext⟩ := validprop_eq_ok.1 h
  refine validprop_eq_ok.2 ⟨hscore, ⟨?_, ?_, ?_, ?_⟩, ?_, ?_, ?_⟩
  · rwa [ne_eq, sortfam, sortDedup_eq_nil]
  · exact length_sortDedup_le.trans hlength
  · rwa [sortfam, mem_sortDedup]
  · rwa [sortfam, mem_sortDedup]
  · rwa [ne_eq, sortReasons, sortDedup_eq_nil]
  · exact length_sortDedup_le.trans hcount
  · exact fun x hx => htext x (mem_sortDedup.1 hx)

theorem anchor_of_agrees (h : agrees p = true) : anchor p.1.key = some p.1.family := by
  obtain ⟨a, b⟩ := p
  simp only [agrees, Bool.and_eq_true, decide_eq_true_eq] at h
  exact h.1.1.1

theorem agrees_of_agreesStrongly (h : agreesStrongly cfg p = true) : agrees p = true := by
  obtain ⟨a, b⟩ := p
  exact (Bool.and_eq_true _ _ ▸ h).1

/-- A match in some family is a valid proposal. -/
theorem validprop_matching (hold : ∀ f ∈ old, f.confidence.isConfidence = true)
    (hnew : ∀ f ∈ new, f.confidence.isConfidence = true)
    (hstrong : ∃ p ∈ comparisons old new now, agreesStrongly cfg p = true) :
    validprop (matching old new now cfg).score (matching old new now cfg).families
      (matching old new now cfg).reasons = .ok () := by
  have hscore : (matching old new now cfg).score.isConfidence = true := by
    have hconfidence : ((comparisons old new now).foldl (matchPair cfg)
        ⟨[], [], .zero, false⟩).score.isConfidence = true := by
      refine isConfidence_score (by decide) fun p hp => ?_
      obtain ⟨ha, hb⟩ := mem_comparisons hp
      exact ⟨hold _ ha, hnew _ hb⟩
    simp only [matching]
    split_ifs
    · exact F32.isConfidence_quarter hconfidence
    · exact hconfidence
  -- Only identifying keys give families and reasons, and there are ten of them.
  have hfamily : ∀ family ∈ (matching old new now cfg).families,
      family ∈ [EvidenceFamily.linkLayer, .addressing, .cryptographic, .service] := by
    intro family hmem
    obtain ⟨p, -, hp, rfl⟩ := mem_families_matching.1 hmem
    exact (anchor_eq_some (anchor_of_agrees (agrees_of_agreesStrongly hp))).2
  have hreason : ∀ reason ∈ (matching old new now cfg).reasons,
      reason ∈ anchorKeys.map (· ++ " matched") := by
    intro reason hmem
    obtain ⟨p, -, hp, rfl⟩ := mem_reasons_matching.1 hmem
    exact mem_map_of_mem (anchor_eq_some (anchor_of_agrees hp)).1
  have htext : ∀ x ∈ anchorKeys.map (· ++ " matched"), x ≠ "" ∧ x.utf8ByteSize ≤ 256 := by
    decide +kernel
  obtain ⟨p, hp, hagrees⟩ := hstrong
  refine validprop_eq_ok.2 ⟨hscore, ⟨?_, ?_, ?_, ?_⟩, ?_, ?_, fun x hx => htext x (hreason x hx)⟩
  · exact ne_nil_of_mem (mem_families_matching.2 ⟨p, hp, hagrees, rfl⟩)
  · exact ((subperm_of_subset nodup_sortDedup hfamily).length_le).trans (by decide)
  · exact fun hmem => absurd (hfamily _ hmem) (by decide)
  · exact fun hmem => absurd (hfamily _ hmem) (by decide)
  · exact ne_nil_of_mem (mem_reasons_matching.2 ⟨p, hp, agrees_of_agreesStrongly hagrees, rfl⟩)
  · exact ((subperm_of_subset nodup_sortDedup hreason).length_le).trans (by decide)

end Matching

end NeonHearth.Identity
