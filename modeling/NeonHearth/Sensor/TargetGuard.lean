import NeonHearth.Data.BitBlock
import NeonHearth.Data.SortedMap
import NeonHearth.Domain.Types

/-!
# The target guard

Discovery sends to a target only after `TargetGuard::authorize` has let it through (`lib.rs` of the
sensor).  The guard is made from the interfaces of the host, the settings of the owner and the ranges
that the owner has approved, each for one interface.

An address with a length stands for the whole network it lies in (`Address.network`), whether its
other bits are set or not.  `authorize_sound` says that what the guard lets through lies in an
approved network, and that this network is inside a private one and inside one of the interface.  The
last address of a network attached to the interface is let through by an approval that it is not the
last address of, such as one of a single host (`authorize_not_broadcast_iff`).

The lengths of the attached networks are as the system reports them, and used for masks without a check
(`authorizedBinding_onLink_iff`).
-/

namespace NeonHearth.Sensor

open BitBlock NeonHearth.Except List BitVec SortedMap

abbrev InterfaceId := ℕ

structure Address where
  ip : IpAddr
  prefixLen : UInt8
  deriving DecidableEq

inductive InterfaceClass where
  | physicalWired
  | physicalWifi
  | loopback
  | tailscale
  | vpnTunnel
  | container
  | virtualMachine
  | unknown
  deriving DecidableEq

inductive InterfaceRole where
  | corporate
  deriving DecidableEq

structure Interface where
  id : InterfaceId
  name : String
  description : Option String
  up : Bool
  kind : InterfaceClass
  addresses : List Address
  ownerRole : Option InterfaceRole
  deriving DecidableEq

inductive InterfaceOverride where
  | default
  | enable
  deriving DecidableEq

def Interface.discoveryEligible (i : Interface) (setting : InterfaceOverride) : Bool :=
  if i.kind = .loopback then false
  else if setting = .enable then true
  else i.up && (i.kind = .physicalWired || i.kind = .physicalWifi) && i.ownerRole ≠ some .corporate

/-- The interfaces of a host, each under its id. -/
structure InterfaceInventory where
  interfaces : SortedMap InterfaceId Interface
  id_eq : ∀ id i, interfaces.get id = some i → i.id = id

/-- Of several interfaces with one id the last counts. -/
def InterfaceInventory.new (interfaces : List Interface) : InterfaceInventory where
  interfaces := interfaces.foldl (fun m i => m.insert i.id i) ∅
  id_eq := by
    suffices h : ∀ m : SortedMap InterfaceId Interface, (∀ id i, m.get id = some i → i.id = id) →
        ∀ id i, (interfaces.foldl (fun m i => m.insert i.id i) m).get id = some i → i.id = id from
      h ∅ (by simp)
    induction interfaces with
    | nil => exact fun m hm => hm
    | cons j interfaces ih =>
      refine fun m hm => ih (m.insert j.id j) fun id i hi => ?_
      obtain ⟨rfl, rfl⟩ | ⟨-, hi⟩ := SortedMap.get_insert_eq_some.1 hi
      · rfl
      · exact hm id i hi

inductive TargetGuardError where
  | unknownInterface
  | interfaceNotEligible
  | invalidApprovalPrefix (ip : IpAddr) (prefixLen : UInt8)
  | disallowedApproval (ip : IpAddr) (prefixLen : UInt8)
  | approvalOutsideInterfaceNetwork
  | targetNotPrivate
  | outsideApprovedPrefix
  deriving DecidableEq

/-- A range that the owner has approved for an interface. -/
structure TargetApproval where
  interface : InterfaceId
  range : Address

/-! ### Addresses -/

def validatePrefix (a : Address) : Except TargetGuardError Unit :=
  reject (a.ip.width < a.prefixLen.toNat) (.invalidApprovalPrefix a.ip a.prefixLen)

/-- The mask of a length.  The subtraction and the shift wrap when the length is too long, as they do
in a release build. -/
def netMask (w : ℕ) (bits : UInt8) : BitVec w :=
  if bits = 0 then 0 else BitVec.allOnes w <<< ((UInt8.ofNat w - bits).toNat % w)

def prefixContains (a : Address) (target : IpAddr) : Bool :=
  match a.ip, target with
  | .v4 network, .v4 target =>
    network &&& netMask 32 a.prefixLen = target &&& netMask 32 a.prefixLen
  | .v6 network, .v6 target =>
    network &&& netMask 128 a.prefixLen = target &&& netMask 128 a.prefixLen
  | _, _ => false

/-- An octet of an IPv4 address, the first one being number 0. -/
def octet (a : BitVec 32) (i : ℕ) : BitVec 8 := a.extractLsb' (24 - 8 * i) 8

/-- `Ipv4Addr::is_private`. -/
def isPrivate (a : BitVec 32) : Bool :=
  octet a 0 = 10 || (octet a 0 = 172 && 16 ≤ octet a 1 && octet a 1 ≤ 31) ||
    (octet a 0 = 192 && octet a 1 = 168)

/-- `Ipv4Addr::is_link_local`. -/
def isLinkLocal (a : BitVec 32) : Bool := octet a 0 = 169 && octet a 1 = 254

def isUla (a : BitVec 128) : Bool := a.extractLsb' 120 8 &&& 0xfe = 0xfc

/-- `Ipv6Addr::is_unicast_link_local`. -/
def isUnicastLinkLocal (a : BitVec 128) : Bool := a.extractLsb' 112 16 &&& 0xffc0 = 0xfe80

/-- `Ipv6Addr::is_multicast`. -/
def isMulticast (a : BitVec 128) : Bool := a.extractLsb' 120 8 = 0xff

/-- `Ipv6Addr::to_ipv4_mapped` finds an address. -/
def isIpv4Mapped (a : BitVec 128) : Bool := a.extractLsb' 32 96 = 0xffff

def isPermittedTarget : IpAddr → Bool
  | .v4 a => isPrivate a || isLinkLocal a
  | .v6 a => a ≠ 0 && a ≠ 1 && !isMulticast a && !isIpv4Mapped a && (isUla a || isUnicastLinkLocal a)

def isIpv4Broadcast (a : Address) (target : IpAddr) : Bool :=
  match a.ip, target with
  | .v4 network, .v4 target =>
    if target = BitVec.allOnes 32 then true
    else if 30 < a.prefixLen then false
    else
      let mask := netMask 32 a.prefixLen
      target = network &&& mask ||| ~~~mask
  | _, _ => false

/-- The private ranges: `10/8`, `172.16/12`, `192.168/16`, `169.254/16`, `fc00::/7`, `fe80::/10`. -/
def allowedRanges : List Address :=
  [⟨.v4 0x0a000000, 8⟩, ⟨.v4 0xac100000, 12⟩, ⟨.v4 0xc0a80000, 16⟩, ⟨.v4 0xa9fe0000, 16⟩,
    ⟨.v6 0xfc000000000000000000000000000000, 7⟩, ⟨.v6 0xfe800000000000000000000000000000, 10⟩]

def isPermittedApprovalRange (approval : Address) : Bool :=
  allowedRanges.any fun allowed =>
    allowed.prefixLen ≤ approval.prefixLen && prefixContains allowed approval.ip

/-! ### The guard -/

structure TargetGuard where
  eligible : Finset InterfaceId
  prefixes : List TargetApproval
  inventory : InterfaceInventory

structure AuthorizedBinding where
  source : IpAddr
  interfaceIndex : InterfaceId
  target : IpAddr
  deriving DecidableEq

/-- The setting of an interface: the last one, or the default. -/
def settingOf (overrides : List (InterfaceId × InterfaceOverride)) (id : InterfaceId) :
    InterfaceOverride :=
  ((overrides.foldl (fun m x => m.insert x.1 x.2) (∅ : SortedMap InterfaceId InterfaceOverride)).get
    id).getD .default

/-- The interfaces that discovery may use. -/
def eligibleInterfaces (inventory : InterfaceInventory)
    (overrides : List (InterfaceId × InterfaceOverride)) : Finset InterfaceId :=
  ((inventory.interfaces.toList.map Prod.snd).filter fun i =>
    i.discoveryEligible (settingOf overrides i.id)).map (·.id) |>.toFinset

/-- The interface has a private network that holds the range. -/
def attachedTo (i : Interface) (range : Address) : Bool :=
  i.addresses.any fun attached =>
    (validatePrefix attached).isOk && isPermittedTarget attached.ip &&
      prefixContains attached range.ip && attached.prefixLen ≤ range.prefixLen

/-- What is asked of one approval. -/
def checkApproval (inventory : InterfaceInventory) (eligible : Finset InterfaceId)
    (approval : TargetApproval) : Except TargetGuardError Unit := do
  let i ← okOr (inventory.interfaces.get approval.interface) .unknownInterface
  reject (approval.interface ∉ eligible) .interfaceNotEligible
  validatePrefix approval.range
  reject (isPermittedApprovalRange approval.range = false)
    (.disallowedApproval approval.range.ip approval.range.prefixLen)
  reject (attachedTo i approval.range = false) .approvalOutsideInterfaceNetwork

namespace TargetGuard

def new (inventory : InterfaceInventory) (overrides : List (InterfaceId × InterfaceOverride))
    (approvals : List TargetApproval) : Except TargetGuardError TargetGuard := do
  let eligible := eligibleInterfaces inventory overrides
  let prefixes ← approvals.foldlM (fun prefixes approval => do
    checkApproval inventory eligible approval
    pure (prefixes ++ [approval])) []
  pure ⟨eligible, prefixes, inventory⟩

def authorize (guard : TargetGuard) (interface : InterfaceId) (target : IpAddr) :
    Except TargetGuardError Unit := do
  reject (interface ∉ guard.eligible) .interfaceNotEligible
  reject (isPermittedTarget target = false) .targetNotPrivate
  reject ((guard.prefixes.any fun approval =>
    approval.interface = interface && prefixContains approval.range target &&
      !isIpv4Broadcast approval.range target) = false) .outsideApprovedPrefix

/-- Of two addresses the one with the longer length, and the second if they are equal. -/
def longer (best : Option Address) (a : Address) : Option Address :=
  match best with
  | some b => if a.prefixLen < b.prefixLen then some b else some a
  | none => some a

/-- A build with overflow checks panics at the mask of a length that is too long. -/
def maskPanics (overflowChecks : Bool) (a : Address) : Bool :=
  overflowChecks && a.ip.width < a.prefixLen.toNat

/-- The source address for a target, or `none` if the call panics.  The approvals have valid lengths
(`new`), so `authorize` does not. -/
def authorizedBinding (guard : TargetGuard) (overflowChecks : Bool) (interface : InterfaceId)
    (target : IpAddr) : Option (Except TargetGuardError AuthorizedBinding) :=
  match guard.authorize interface target, guard.inventory.interfaces.get interface with
  | .error e, _ => some (.error e)
  | .ok (), none => some (.error .unknownInterface)
  | .ok (), some selected =>
    let addresses := selected.addresses.filter fun a => a.ip.width = target.width
    if addresses.any (maskPanics overflowChecks) then none
    else
      match (addresses.filter (prefixContains · target)).foldl longer none with
      | none => some (.error .approvalOutsideInterfaceNetwork)
      | some source => some (.ok ⟨source.ip, interface, target⟩)

end TargetGuard

/-! ### Networks -/

/-- The network that an address lies in: all addresses with the same first bits. -/
def Address.network (a : Address) : Set IpAddr :=
  match a.ip with
  | .v4 network => IpAddr.v4 '' block network a.prefixLen.toNat
  | .v6 network => IpAddr.v6 '' block network a.prefixLen.toNat

/-- The length fits the address. -/
def Address.Valid (a : Address) : Prop := a.prefixLen.toNat ≤ a.ip.width
  deriving Decidable

theorem netMask_eq {w : ℕ} {bits : UInt8} (hw : w < 256) (hbits : bits.toNat ≤ w) :
    netMask w bits = mask w bits.toNat := by
  rw [netMask]
  split
  · -- nothing is left of a mask that is shifted by the whole width
    subst bits
    simp [mask]
  · have hpos : bits.toNat ≠ 0 := fun h => ‹¬bits = 0› (UInt8.toNat_inj.1 h)
    have hle : bits ≤ UInt8.ofNat w := by
      rw [UInt8.le_iff_toNat_le, UInt8.toNat_ofNat_of_lt' hw]
      exact hbits
    rw [UInt8.toNat_sub_of_le _ _ hle, UInt8.toNat_ofNat_of_lt' hw, Nat.mod_eq_of_lt (by omega), mask]

variable {a : Address}

variable {target : IpAddr}

/-- A valid address contains what is in its network. -/
theorem prefixContains_iff (ha : a.Valid) :
    prefixContains a target = true ↔ target ∈ a.network := by
  obtain ⟨ip, bits⟩ := a
  cases ip with
  | v4 network =>
    cases target with
    | v4 target =>
      have hmask : netMask 32 bits = mask 32 bits.toNat := netMask_eq (by decide) ha
      simp [prefixContains, Address.network, hmask, mem_block]
    | v6 => simp [prefixContains, Address.network]
  | v6 network =>
    cases target with
    | v4 => simp [prefixContains, Address.network]
    | v6 target =>
      have hmask : netMask 128 bits = mask 128 bits.toNat := netMask_eq (by decide) ha
      simp [prefixContains, Address.network, hmask, mem_block]

/-- A network with more bits lies in every one with less that its address is in. -/
theorem network_subset {b : Address} (hb : b.ip ∈ a.network) (hbits : a.prefixLen ≤ b.prefixLen) :
    b.network ⊆ a.network := by
  obtain ⟨ip, bits⟩ := a
  obtain ⟨ip', bits'⟩ := b
  rw [UInt8.le_iff_toNat_le] at hbits
  cases ip <;> obtain ⟨network', hnetwork', rfl⟩ := hb <;>
    exact Set.image_mono (block_subset hbits hnetwork')

theorem width_of_mem_network (h : target ∈ a.network) : a.ip.width = target.width := by
  obtain ⟨ip, bits⟩ := a
  cases ip <;> obtain ⟨_, -, rfl⟩ := h <;> rfl

theorem isPrivate_or_isLinkLocal {a} :
    isPrivate a = true ∨ isLinkLocal a = true ↔ (IpAddr.v4 a).IsPrivateUnicast := by
  have hlt := a.isLt
  simp only [isPrivate, isLinkLocal, octet, IpAddr.IsPrivateUnicast, Set.mem_Ico, Bool.or_eq_true,
    Bool.and_eq_true, decide_eq_true_eq, ← toNat_inj, le_def, extractLsb'_toNat,
    Nat.shiftRight_eq_div_pow, ofNat_eq_ofNat, toNat_ofNat]
  omega

theorem isUla_iff {a} :
    isUla a = true ↔ a.toNat ∈ Set.Ico (0xfc00 * 2 ^ 112) (0xfe00 * 2 ^ 112) := by
  have hlt := a.isLt
  have hmask : (0xfe : BitVec 8) = mask 8 7 := rfl
  have hbase : (0xfc : BitVec 8) = 0xfc &&& mask 8 7 := rfl
  rw [isUla, decide_eq_true_eq, hmask, hbase, eq_comm, ← mem_block]
  simp only [block, Set.mem_ofPred_eq, extractLsb'_toNat, Nat.shiftRight_eq_div_pow,
    ofNat_eq_ofNat, toNat_ofNat, Set.mem_Ico]
  omega

theorem isUnicastLinkLocal_iff {a} :
    isUnicastLinkLocal a = true ↔ a.toNat ∈ Set.Ico (0xfe80 * 2 ^ 112) (0xfec0 * 2 ^ 112) := by
  have hlt := a.isLt
  have hmask : (0xffc0 : BitVec 16) = mask 16 10 := rfl
  have hbase : (0xfe80 : BitVec 16) = 0xfe80 &&& mask 16 10 := rfl
  rw [isUnicastLinkLocal, decide_eq_true_eq, hmask, hbase, eq_comm, ← mem_block]
  simp only [block, Set.mem_ofPred_eq, extractLsb'_toNat, Nat.shiftRight_eq_div_pow,
    ofNat_eq_ofNat, toNat_ofNat, Set.mem_Ico]
  omega

/-- The test of a target says what it is for. -/
theorem isPermittedTarget_iff : isPermittedTarget target = true ↔ target.IsPrivateUnicast := by
  cases target with
  | v4 a => rw [isPermittedTarget, Bool.or_eq_true, isPrivate_or_isLinkLocal]
  | v6 a =>
    rw [isPermittedTarget, Bool.and_eq_true, Bool.or_eq_true, isUla_iff, isUnicastLinkLocal_iff]
    refine ⟨fun h => h.2, fun h => ⟨?_, h⟩⟩
    -- the other four tests only exclude addresses outside of the two ranges
    have hlt := a.isLt
    simp only [isMulticast, isIpv4Mapped, Bool.and_eq_true, Bool.not_eq_true', decide_eq_true_eq,
      decide_eq_false_iff_not, ne_eq, ← toNat_inj, extractLsb'_toNat,
      Nat.shiftRight_eq_div_pow, ofNat_eq_ofNat, toNat_ofNat]
    rw [IpAddr.IsPrivateUnicast, Set.mem_Ico, Set.mem_Ico] at h
    omega

/-- The last address of an IPv4 network that has others than its two ends. -/
def Address.IsBroadcast (a : Address) (target : IpAddr) : Prop :=
  a.prefixLen.toNat ≤ 30 ∧ ∃ t, target = .v4 t ∧ target ∈ a.network ∧
    ∀ x, IpAddr.v4 x ∈ a.network → x.toNat ≤ t.toNat

theorem isIpv4Broadcast_iff (ha : a.Valid) (htarget : target.IsPrivateUnicast) :
    isIpv4Broadcast a target = true ↔ a.IsBroadcast target := by
  obtain ⟨ip, bits⟩ := a
  cases target with
  | v6 => cases ip <;> simp [isIpv4Broadcast, Address.IsBroadcast]
  | v4 t =>
  cases ip with
  | v6 => simp [isIpv4Broadcast, Address.IsBroadcast, Address.network]
  | v4 network =>
    have hmask : netMask 32 bits = mask 32 bits.toNat := netMask_eq (by decide) ha
    have ht : t ≠ BitVec.allOnes 32 := by
      rintro rfl
      simp [IpAddr.IsPrivateUnicast] at htarget
    simp only [isIpv4Broadcast, hmask, if_neg ht, Address.IsBroadcast, Address.network]
    split_ifs with hbits
    · exact iff_of_false (by simp) fun h => absurd h.1 (not_le.2 (UInt8.lt_iff_toNat_lt.1 hbits))
    · have hbits : bits.toNat ≤ 30 := not_lt.1 fun h => hbits (UInt8.lt_iff_toNat_lt.2 h)
      rw [decide_eq_true_eq, eq_lastOf_iff]
      simp [hbits]

/-! ### What the guard lets through -/

/-- What lies in an allowed range is private. -/
theorem isPrivateUnicast_of_allowed {allowed} (h : allowed ∈ allowedRanges)
    (htarget : target ∈ allowed.network) : target.IsPrivateUnicast := by
  simp only [allowedRanges, mem_cons, not_mem_nil, or_false] at h
  obtain rfl | rfl | rfl | rfl | rfl | rfl := h <;> obtain ⟨x, hx, rfl⟩ := htarget <;>
    simp [block] at hx <;> simp only [IpAddr.IsPrivateUnicast, Set.mem_Ico] <;> omega

variable {inventory : InterfaceInventory}

theorem mem_eligibleInterfaces {overrides id} :
    id ∈ eligibleInterfaces inventory overrides ↔ ∃ i, inventory.interfaces.get id = some i ∧
      i.discoveryEligible (settingOf overrides id) = true := by
  simp only [eligibleInterfaces, mem_toFinset, mem_map, mem_filter, Prod.exists]
  constructor
  · rintro ⟨i, ⟨⟨id', _, hmem, rfl⟩, heligible⟩, rfl⟩
    have hget := mem_toList.1 hmem
    rw [inventory.id_eq _ _ hget] at heligible ⊢
    exact ⟨_, hget, heligible⟩
  · rintro ⟨i, hget, heligible⟩
    have hid := inventory.id_eq _ _ hget
    exact ⟨i, ⟨⟨id, i, mem_toList.2 hget, rfl⟩, by rwa [hid]⟩, hid⟩

/-- An approval of a range inside a private one and inside a network of its eligible interface. -/
structure Admitted (inventory : InterfaceInventory) (eligible : Finset InterfaceId)
    (approval : TargetApproval) : Prop where
  eligible : approval.interface ∈ eligible
  valid : approval.range.Valid
  permitted : ∃ allowed ∈ allowedRanges, approval.range.network ⊆ allowed.network
  attached : ∃ i, inventory.interfaces.get approval.interface = some i ∧
    ∃ a ∈ i.addresses, a.Valid ∧ approval.range.network ⊆ a.network

theorem permitted_of_isPermittedApprovalRange {range} (h : isPermittedApprovalRange range = true) :
    ∃ allowed ∈ allowedRanges, range.network ⊆ allowed.network := by
  obtain ⟨allowed, hmem, h⟩ := any_eq_true.1 h
  obtain ⟨hbits, hcontains⟩ := Bool.and_eq_true_iff.1 h
  have hvalid : ∀ a ∈ allowedRanges, a.Valid := by decide
  exact ⟨allowed, hmem, network_subset ((prefixContains_iff (hvalid _ hmem)).1 hcontains)
    (of_decide_eq_true hbits)⟩

theorem attached_of_attachedTo {i range} (h : attachedTo i range = true) :
    ∃ a ∈ i.addresses, a.Valid ∧ range.network ⊆ a.network := by
  obtain ⟨a, hmem, h⟩ := any_eq_true.1 h
  simp only [Bool.and_eq_true, decide_eq_true_eq] at h
  obtain ⟨⟨⟨hok, -⟩, hcontains⟩, hbits⟩ := h
  have hvalid : a.Valid := by
    by_contra hinvalid
    rw [validatePrefix, reject, if_pos (not_le.1 hinvalid)] at hok
    cases hok
  exact ⟨a, hmem, hvalid, network_subset ((prefixContains_iff hvalid).1 hcontains) hbits⟩

theorem admitted_of_checkApproval {eligible approval}
    (h : checkApproval inventory eligible approval = .ok ()) :
    Admitted inventory eligible approval := by
  obtain ⟨i, hget, h⟩ := bind_eq_ok.1 h
  obtain ⟨_, heligible, h⟩ := bind_eq_ok.1 h
  obtain ⟨_, hvalid, h⟩ := bind_eq_ok.1 h
  obtain ⟨_, hpermitted, hattached⟩ := bind_eq_ok.1 h
  rw [reject_eq_ok, Bool.not_eq_false] at hpermitted hattached
  exact ⟨Classical.not_not.1 (reject_eq_ok.1 heligible), not_lt.1 (reject_eq_ok.1 hvalid),
    permitted_of_isPermittedApprovalRange hpermitted, i, okOr_eq_ok.1 hget, attached_of_attachedTo hattached⟩

namespace TargetGuard

variable {overrides : List (InterfaceId × InterfaceOverride)} {approvals : List TargetApproval}
  {guard : TargetGuard} {interface : InterfaceId}

/-- The guard holds all approvals, and each was admitted. -/
theorem new_eq_ok (h : new inventory overrides approvals = .ok guard) :
    guard = ⟨eligibleInterfaces inventory overrides, approvals, inventory⟩ ∧
      ∀ approval ∈ approvals,
        Admitted inventory (eligibleInterfaces inventory overrides) approval := by
  obtain ⟨prefixes, hloop, hguard⟩ := bind_eq_ok.1 h
  obtain ⟨rfl, hadmitted⟩ : prefixes = approvals ∧ ∀ approval ∈ approvals,
      Admitted inventory (eligibleInterfaces inventory overrides) approval := by
    refine foldlM_invariant (I := fun done prefixes =>
      prefixes = done ∧ ∀ approval ∈ done, Admitted inventory _ approval) hloop ⟨rfl, by simp⟩ ?_
    rintro done approval rest _ prefixes' - ⟨rfl, hdone⟩ hpass
    obtain ⟨_, hcheck, hpass⟩ := bind_eq_ok.1 hpass
    exact ⟨(pure_eq_ok.1 hpass).symm,
      forall_mem_concat.2 ⟨hdone, admitted_of_checkApproval hcheck⟩⟩
  exact ⟨(pure_eq_ok.1 hguard).symm, hadmitted⟩

theorem authorize_eq_ok : guard.authorize interface target = .ok () ↔
    interface ∈ guard.eligible ∧ target.IsPrivateUnicast ∧ ∃ approval ∈ guard.prefixes,
      (approval.interface = interface ∧ prefixContains approval.range target = true) ∧
        isIpv4Broadcast approval.range target = false := by
  simp only [authorize, bind_eq_ok, reject_eq_ok, exists_const, Classical.not_not, Bool.not_eq_false,
    isPermittedTarget_iff, any_eq_true, Bool.and_eq_true, decide_eq_true_eq, Bool.not_eq_true']

/-- **What a guard lets through**: a target in an approved network of the interface, and not its
broadcast address. -/
theorem authorize_iff (hnew : new inventory overrides approvals = .ok guard) :
    guard.authorize interface target = .ok () ↔ ∃ approval ∈ approvals, approval.interface = interface ∧
      target ∈ approval.range.network ∧ ¬approval.range.IsBroadcast target := by
  obtain ⟨rfl, hadmitted⟩ := new_eq_ok hnew
  rw [authorize_eq_ok]
  constructor
  · rintro ⟨-, hprivate, approval, hmem, ⟨rfl, hcontains⟩, hbroadcast⟩
    have hvalid := (hadmitted approval hmem).valid
    refine ⟨approval, hmem, rfl, (prefixContains_iff hvalid).1 hcontains, fun hlast => ?_⟩
    rw [(isIpv4Broadcast_iff hvalid hprivate).2 hlast] at hbroadcast
    cases hbroadcast
  · rintro ⟨approval, hmem, rfl, htarget, hlast⟩
    obtain ⟨heligible, hvalid, ⟨allowed, hallowed, hsubset⟩, -⟩ := hadmitted approval hmem
    have hprivate := isPrivateUnicast_of_allowed hallowed (hsubset htarget)
    refine ⟨heligible, hprivate, approval, hmem, ⟨rfl, (prefixContains_iff hvalid).2 htarget⟩, ?_⟩
    rw [← Bool.not_eq_true, isIpv4Broadcast_iff hvalid hprivate]
    exact hlast

/-- **Only approved targets are let through**: the interface is eligible, the target is private or
link-local, and it is in an approved network of the interface, and not its broadcast address.  All of
that network is in one of the private ranges, and in a network attached to the interface. -/
theorem authorize_sound (hnew : new inventory overrides approvals = .ok guard)
    (h : guard.authorize interface target = .ok ()) :
    ∃ i, inventory.interfaces.get interface = some i ∧
      i.discoveryEligible (settingOf overrides interface) = true ∧ target.IsPrivateUnicast ∧
      ∃ approval ∈ approvals, approval.interface = interface ∧ target ∈ approval.range.network ∧
        ¬approval.range.IsBroadcast target ∧
        (∃ allowed ∈ allowedRanges, approval.range.network ⊆ allowed.network) ∧
        ∃ attached ∈ i.addresses, approval.range.network ⊆ attached.network := by
  obtain ⟨approval, hmem, rfl, htarget, hlast⟩ := (authorize_iff hnew).1 h
  obtain ⟨-, hadmitted⟩ := new_eq_ok hnew
  obtain ⟨heligible, -, hpermitted, i, hget, attached, hattached, -, hsubset⟩ := hadmitted approval hmem
  obtain ⟨j, hgetj, heligible⟩ := mem_eligibleInterfaces.1 heligible
  obtain rfl : i = j := Option.some.inj (hget.symm.trans hgetj)
  obtain ⟨allowed, hallowed, hsubset'⟩ := hpermitted
  exact ⟨i, hget, heligible, isPrivateUnicast_of_allowed hallowed (hsubset' htarget), approval, hmem, rfl,
    htarget, hlast, ⟨allowed, hallowed, hsubset'⟩, attached, hattached, hsubset⟩

/-- One wired interface on `192.168.1.7/24`, and approvals for the first half of its network. -/
def homeInventory : InterfaceInventory :=
  .new [⟨1, "Ethernet", none, true, .physicalWired, [⟨.v4 0xc0a80107, 24⟩], none⟩]

theorem halfNetwork_authorized :
    ∃ guard, new homeInventory [] [⟨1, ⟨.v4 0xc0a80155, 25⟩⟩] = .ok guard ∧
      guard.authorize 1 (.v4 0xc0a80109) = .ok () := by
  decide +kernel

theorem halfNetwork_sound :
    ∃ i, homeInventory.interfaces.get 1 = some i ∧
      i.discoveryEligible (settingOf [] 1) = true ∧ (IpAddr.v4 0xc0a80109).IsPrivateUnicast ∧
      ∃ approval ∈ [(⟨1, ⟨.v4 0xc0a80155, 25⟩⟩ : TargetApproval)], approval.interface = 1 ∧
        .v4 0xc0a80109 ∈ approval.range.network ∧ ¬approval.range.IsBroadcast (.v4 0xc0a80109) ∧
        (∃ allowed ∈ allowedRanges, approval.range.network ⊆ allowed.network) ∧
        ∃ attached ∈ i.addresses, approval.range.network ⊆ attached.network := by
  obtain ⟨guard, hnew, hauthorize⟩ := halfNetwork_authorized
  exact authorize_sound hnew hauthorize

/-- The last address of an attached network is in no approved network of the interface, unless it is the
last one there too. -/
def KeepsOutBroadcasts (i : Interface) (approvals : List TargetApproval) : Prop :=
  ∀ approval ∈ approvals, approval.interface = i.id → ∀ attached ∈ i.addresses, ∀ last,
    attached.IsBroadcast last → last ∈ approval.range.network → approval.range.IsBroadcast last

/-- **No broadcast targets**: the guard never lets the last address of a network attached to the
interface through, just when the approvals keep all of them out. -/
theorem authorize_not_broadcast_iff {i : Interface}
    (hnew : new inventory overrides approvals = .ok guard)
    (hget : inventory.interfaces.get interface = some i) :
    (∀ target, guard.authorize interface target = .ok () →
      ∀ attached ∈ i.addresses, ¬attached.IsBroadcast target) ↔ KeepsOutBroadcasts i approvals := by
  obtain rfl := inventory.id_eq _ _ hget
  constructor
  · intro h approval hmem hid attached hattached last hlast htarget
    by_contra hnot
    exact h last ((authorize_iff hnew).2 ⟨approval, hmem, hid, htarget, hnot⟩) attached hattached hlast
  · intro h target hauthorize attached hattached hlast
    obtain ⟨approval, hmem, hid, htarget, hnot⟩ := (authorize_iff hnew).1 hauthorize
    exact hnot (h approval hmem hid attached hattached target hlast htarget)

theorem homeInventory_get : homeInventory.interfaces.get 1 = some
    ⟨1, "Ethernet", none, true, .physicalWired, [⟨.v4 0xc0a80107, 24⟩], none⟩ := by
  decide +kernel

theorem halfNetwork_not_broadcast :
    ∃ guard, new homeInventory [] [⟨1, ⟨.v4 0xc0a80155, 25⟩⟩] = .ok guard ∧
      ∀ target, guard.authorize 1 target = .ok () →
        ¬(⟨.v4 0xc0a80107, 24⟩ : Address).IsBroadcast target := by
  obtain ⟨guard, hnew, -⟩ := halfNetwork_authorized
  refine ⟨guard, hnew, fun target h => ?_⟩
  refine (authorize_not_broadcast_iff hnew homeInventory_get).2 ?_ target h _ (mem_singleton_self _)
  -- `192.168.1.255` is not in the first half
  rintro approval happroval - attached hattached _ ⟨-, t, rfl, -, hlast⟩ ht
  obtain rfl := mem_singleton.1 happroval
  obtain rfl := mem_singleton.1 hattached
  obtain ⟨_, ht, heq⟩ := ht
  cases heq
  exact absurd (hlast 0xc0a801ff ⟨_, by decide, rfl⟩) (not_le.2 (ht.2.trans_le (by decide)))

/-- The approval of one host is not asked whether this host is the last address of the attached
network `192.168.1.0/24`. -/
theorem hostApproval_broadcast :
    ∃ guard i, new homeInventory [] [⟨1, ⟨.v4 0xc0a801ff, 32⟩⟩] = .ok guard ∧
      guard.authorize 1 (.v4 0xc0a801ff) = .ok () ∧ homeInventory.interfaces.get 1 = some i ∧
      ∃ attached ∈ i.addresses, attached.IsBroadcast (.v4 0xc0a801ff) := by
  obtain ⟨guard, hnew, hauthorize⟩ : ∃ guard, new homeInventory [] [⟨1, ⟨.v4 0xc0a801ff, 32⟩⟩] =
      .ok guard ∧ guard.authorize 1 (.v4 0xc0a801ff) = .ok () := by decide +kernel
  refine ⟨guard, _, hnew, hauthorize, homeInventory_get, _, mem_singleton_self _, by decide, _,
    rfl, ⟨_, by decide, rfl⟩, ?_⟩
  rintro x ⟨_, hx, heq⟩
  cases heq
  exact Nat.le_of_lt_succ hx.2

theorem foldl_longer (b : Address) (l) : ∃ a ∈ b :: l, l.foldl longer (some b) = some a := by
  induction l generalizing b with
  | nil => exact ⟨b, mem_singleton_self b, rfl⟩
  | cons c l ih =>
    rw [foldl_cons, longer]
    split
    · obtain ⟨a, ha, h⟩ := ih b
      exact ⟨a, by grind, h⟩
    · obtain ⟨a, ha, h⟩ := ih c
      exact ⟨a, mem_cons_of_mem b ha, h⟩

/-- The call fails as the authorization does, or returns an address of the interface whose network holds
the target. -/
def BindsOnLink (guard : TargetGuard) (overflowChecks : Bool) (interface : InterfaceId)
    (target : IpAddr) : Prop :=
  match guard.authorize interface target with
  | .error e => guard.authorizedBinding overflowChecks interface target = some (.error e)
  | .ok () => ∃ source i,
    guard.authorizedBinding overflowChecks interface target =
        some (.ok ⟨source, interface, target⟩) ∧
      guard.inventory.interfaces.get interface = some i ∧
      ∃ a ∈ i.addresses, a.ip = source ∧ a.Valid ∧ target ∈ a.network

/-- **A target that is let through is sent to from an address on its network**, in every build, just
when the interface has no IPv4 length above 32, or no IPv6 length above 128. -/
theorem authorizedBinding_onLink_iff (hnew : new inventory overrides approvals = .ok guard) :
    (∀ overflowChecks, guard.BindsOnLink overflowChecks interface target) ↔
      (guard.authorize interface target = .ok () →
        ∀ i, inventory.interfaces.get interface = some i →
          ∀ a ∈ i.addresses, a.ip.width = target.width → a.Valid) := by
  cases hauthorize : guard.authorize interface target with
  | error e => simp [BindsOnLink, authorizedBinding, hauthorize]
  | ok =>
  simp only [BindsOnLink, hauthorize, true_implies]
  constructor
  · intro h i hget a ha hwidth
    by_contra hinvalid
    obtain ⟨source, i', hbinding, hget', -⟩ := h true
    obtain ⟨rfl, -⟩ := new_eq_ok hnew
    cases hget'.symm.trans hget
    have hpanics : ((i.addresses.filter fun a => a.ip.width = target.width).any (maskPanics true)) = true :=
      any_eq_true.2 ⟨a, mem_filter.2 ⟨ha, decide_eq_true hwidth⟩, decide_eq_true (not_le.1 hinvalid)⟩
    rw [authorizedBinding, hauthorize, hget] at hbinding
    simp only [hpanics, if_true, reduceCtorEq] at hbinding
  · intro hvalid overflowChecks
    obtain ⟨approval, hmem, rfl, htarget, -⟩ := (authorize_iff hnew).1 hauthorize
    obtain ⟨rfl, hadmitted⟩ := new_eq_ok hnew
    obtain ⟨-, -, -, i, hget, attached, hattached, hvalid', hsubset⟩ := hadmitted approval hmem
    have htarget := hsubset htarget
    have hattached : attached ∈ (i.addresses.filter fun a => a.ip.width = target.width).filter
        (prefixContains · target) := mem_filter.2 ⟨mem_filter.2 ⟨hattached,
      decide_eq_true (width_of_mem_network htarget)⟩, (prefixContains_iff hvalid').2 htarget⟩
    obtain ⟨b, l, hcons⟩ := exists_cons_of_ne_nil (ne_nil_of_mem hattached)
    obtain ⟨a, ha, hsource⟩ := foldl_longer b l
    have hpanics : ((i.addresses.filter fun a => a.ip.width = target.width).any
        (maskPanics overflowChecks)) = false := by
      refine any_eq_false.2 fun a ha => ?_
      obtain ⟨ha, hwidth⟩ := mem_filter.1 ha
      have hvalid : a.prefixLen.toNat ≤ a.ip.width := hvalid i hget a ha (of_decide_eq_true hwidth)
      simp [maskPanics, hvalid]
    refine ⟨a.ip, i, ?_, hget, a, ?_⟩
    · rw [authorizedBinding, hauthorize, hget]
      simp only [hpanics, hcons, foldl_cons, longer, hsource]
      rfl
    · rw [← hcons, mem_filter, mem_filter, decide_eq_true_eq] at ha
      have hvalid := hvalid i hget a ha.1.1 ha.1.2
      exact ⟨ha.1.1, rfl, hvalid, (prefixContains_iff hvalid).1 ha.2⟩

theorem halfNetwork_onLink :
    ∃ guard, new homeInventory [] [⟨1, ⟨.v4 0xc0a80155, 25⟩⟩] = .ok guard ∧
      ∀ overflowChecks, guard.BindsOnLink overflowChecks 1 (.v4 0xc0a80109) := by
  obtain ⟨guard, hnew, -⟩ := halfNetwork_authorized
  refine ⟨guard, hnew, (authorizedBinding_onLink_iff hnew).2 fun _ i hget a ha _ => ?_⟩
  cases homeInventory_get.symm.trans hget
  obtain rfl := mem_singleton.1 ha
  decide

/-- With `203.0.113.5/33` on the interface too, this is the address that `192.168.1.9` is sent to
from, or the call panics. -/
theorem longPrefix_offLink :
    ∃ guard, new (.new [⟨1, "Ethernet", none, true, .physicalWired,
          [⟨.v4 0xc0a80107, 24⟩, ⟨.v4 0xcb007105, 33⟩], none⟩]) [] [⟨1, ⟨.v4 0xc0a80100, 24⟩⟩] =
        .ok guard ∧
      guard.authorize 1 (.v4 0xc0a80109) = .ok () ∧
      guard.authorizedBinding true 1 (.v4 0xc0a80109) = none ∧
      guard.authorizedBinding false 1 (.v4 0xc0a80109) =
        some (.ok ⟨.v4 0xcb007105, 1, .v4 0xc0a80109⟩) := by
  decide +kernel

end TargetGuard

end NeonHearth.Sensor
