import NeonHearth.Data.Sweep
import NeonHearth.Sensor.TargetGuard

/-!
# Neighbor tracking

The kernel's neighbor table is read again and again, and `NeighborTracker::observe` (`neighbor.rs` of
the sensor) turns the rows of each reading into events about devices, a device being an interface and
a link address.

A reading concerns each key by itself: `track` is the automaton of one key, and `observe_track` says
that an observation lets it make one move for every key.  What is said about whole sequences of
observations (`Tracking.spec`) follows from the moves of one automaton.
-/

namespace NeonHearth.Sensor

open SortedMap NeonHearth.Except List Option

/-- The six bytes of a link address as a number, the first byte being the highest. -/
abbrev LinkAddress := ℕ

def LinkAddress.valid (a : LinkAddress) : Bool := a ≠ 0 && a ≠ 2 ^ 48 - 1 && a / 2 ^ 40 % 2 = 0

inductive NeighborReachability where
  | reachable
  | stale
  | delay
  | probe
  | permanent
  | incomplete
  | failed
  | noArp
  | unknown

def NeighborReachability.present : NeighborReachability → Bool
  | reachable | stale | delay | probe | permanent | noArp => true
  | incomplete | failed | unknown => false

structure NeighborRow where
  interface : InterfaceId
  ip : IpAddr
  linkAddress : LinkAddress
  reachability : NeighborReachability

inductive NeighborError where
  | invalidLinkAddress
  | invalidIp
  | invalidConfig
  | capacity
  | conflictingDuplicate
  | clockRollback

structure NeighborTrackerConfig where
  maxRows : ℕ
  maxDevices : ℕ
  missedSnapshotsBeforeDeparture : ℕ

/-- What a device is known by: an interface and a link address on it. -/
abbrev NeighborKey := InterfaceId ×ₗ LinkAddress

/-- `addresses` is a sorted list without repetitions in the source, and the set of them here. -/
structure NeighborDevice where
  key : NeighborKey
  addresses : Finset IpAddr

inductive NeighborEvent where
  | appeared (device : NeighborDevice) (observedAt : DateTime)
  | confirmed (device : NeighborDevice) (observedAt : DateTime)
  | missed (device : NeighborDevice) (observedAt : DateTime) (consecutiveMisses : ℕ)
  | departed (device : NeighborDevice) (observedAt : DateTime)

def NeighborEvent.key : NeighborEvent → NeighborKey
  | appeared device _ | confirmed device _ | missed device _ _ | departed device _ => device.key

/-- `valid_ip`. -/
def validIp : IpAddr → Bool
  | .v4 a => (isPrivate a || isLinkLocal a) && a ≠ 0 && octet a 0 ≠ 127 &&
      !(224 ≤ octet a 0 && octet a 0 ≤ 239) && a ≠ BitVec.allOnes 32
  | .v6 a => (isUla a || isUnicastLinkLocal a) && a ≠ 0 && a ≠ 1 && !isMulticast a

/-- What is known of a tracked device, beside its key. -/
structure NeighborState where
  addresses : Finset IpAddr
  missed : ℕ

structure NeighborTracker where
  cfg : NeighborTrackerConfig
  states : SortedMap NeighborKey NeighborState
  lastObservedAt : Option DateTime

/-- The addresses of the present devices, and the link address that each IP address was seen with. -/
abbrev Grouped :=
  SortedMap NeighborKey (Finset IpAddr) × (InterfaceId × IpAddr → Option LinkAddress)

def NeighborRow.key (r : NeighborRow) : NeighborKey := toLex (r.interface, r.linkAddress)

/-- Notes a row.  Only a present device is tracked. -/
def addRow (s : Grouped) (r : NeighborRow) : Grouped :=
  (if r.reachability.present then s.1.insert r.key (insert r.ip ((s.1.get r.key).getD ∅)) else s.1,
    Function.update s.2 (r.interface, r.ip) (some r.linkAddress))

def groupRow (s : Grouped) (r : NeighborRow) : Except NeighborError Grouped := do
  reject (validIp r.ip = false) .invalidIp
  reject (r.linkAddress.valid = false) .invalidLinkAddress
  reject ((s.2 (r.interface, r.ip)).any (· ≠ r.linkAddress) = true) .conflictingDuplicate
  pure (addRow s r)

/-- What a device that is present does to its state, and the event. -/
def seen (observedAt : DateTime) (key : NeighborKey) (addresses : Finset IpAddr)
    (old : Option NeighborState) : Option NeighborState × List NeighborEvent :=
  (some ⟨addresses, 0⟩,
    [if old.isSome then .confirmed ⟨key, addresses⟩ observedAt
      else .appeared ⟨key, addresses⟩ observedAt])

/-- What a device that is absent does to its state, and the events. -/
def unseen (cfg : NeighborTrackerConfig) (observedAt : DateTime) (key : NeighborKey)
    (s : NeighborState) : Option NeighborState × List NeighborEvent :=
  let missed := s.missed + 1
  if cfg.missedSnapshotsBeforeDeparture ≤ missed then
    (none, [.missed ⟨key, s.addresses⟩ observedAt missed, .departed ⟨key, s.addresses⟩ observedAt])
  else (some { s with missed := missed }, [.missed ⟨key, s.addresses⟩ observedAt missed])

/-- The pass over the present devices and the one over the absent ones. -/
def advance (cfg : NeighborTrackerConfig) (observedAt : DateTime)
    (grouped : SortedMap NeighborKey (Finset IpAddr)) (states : SortedMap NeighborKey NeighborState) :
    SortedMap NeighborKey NeighborState × List NeighborEvent :=
  let present := SortedMap.sweep (seen observedAt) grouped.toList states
  let absent := SortedMap.sweep (fun key s _ => unseen cfg observedAt key s)
    (present.1.toList.filter fun x => (grouped.get x.1).isNone) present.1
  (absent.1, present.2 ++ absent.2)

namespace NeighborTracker

def new (cfg : NeighborTrackerConfig) : Except NeighborError NeighborTracker := do
  reject (cfg.maxRows = 0 ∨ cfg.maxDevices = 0 ∨ cfg.missedSnapshotsBeforeDeparture = 0)
    .invalidConfig
  pure ⟨cfg, ∅, none⟩

/-- `observe` up to its assignments, which are its last statements. -/
def stage (t : NeighborTracker) (rows : List NeighborRow) (observedAt : DateTime) :
    Except NeighborError (SortedMap NeighborKey NeighborState × List NeighborEvent) := do
  reject (t.lastObservedAt.any (observedAt < ·)) .clockRollback
  reject (t.cfg.maxRows < rows.length) .capacity
  let (grouped, _) ← rows.foldlM groupRow (∅, fun _ => none)
  reject (t.cfg.maxDevices < grouped.size) .capacity
  let newCount := (grouped.toList.filter fun x => (t.states.get x.1).isNone).length
  reject (t.cfg.maxDevices < t.states.size + newCount) .capacity
  -- the count of misses is incremented with a check
  reject (∃ x ∈ t.states.toList, grouped.get x.1 = none ∧ 2 ^ 64 ≤ x.2.missed + 1) .capacity
  pure (advance t.cfg observedAt grouped t.states)

def observe (t : NeighborTracker) (rows : List NeighborRow) (observedAt : DateTime) :
    NeighborTracker × Except NeighborError (List NeighborEvent) :=
  match t.stage rows observedAt with
  | .error e => (t, .error e)
  | .ok (next, events) =>
    ({ t with states := next, lastObservedAt := some observedAt }, .ok events)

end NeighborTracker

/-! ### The automaton of a key -/

/-- The addresses that the rows report a key present with. -/
def reported (rows : List NeighborRow) (key : NeighborKey) : Finset IpAddr :=
  ((rows.filter fun r => r.key = key && r.reachability.present).map (·.ip)).toFinset

/-- The keys that the rows report present. -/
def presentKeys (rows : List NeighborRow) : Finset NeighborKey :=
  ((rows.filter (·.reachability.present)).map (·.key)).toFinset

theorem mem_presentKeys {rows key} : key ∈ presentKeys rows ↔ reported rows key ≠ ∅ := by
  simp only [presentKeys, reported, ne_eq, toFinset_eq_empty_iff, map_eq_nil_iff, filter_eq_nil_iff,
    List.mem_toFinset, List.mem_map, List.mem_filter, Bool.and_eq_true, decide_eq_true_eq]
  grind

/-- The move of one key in an observation: its state and its events. -/
def track (cfg : NeighborTrackerConfig) (observedAt : DateTime) (key : NeighborKey)
    (addresses : Finset IpAddr) (old : Option NeighborState) :
    Option NeighborState × List NeighborEvent :=
  if addresses = ∅ then old.elim (none, []) (unseen cfg observedAt key)
  else seen observedAt key addresses old

/-- Rows that an observation accepts: valid, and with one link address for each IP address. -/
structure Acceptable (rows : List NeighborRow) : Prop where
  valid : ∀ r ∈ rows, validIp r.ip = true ∧ r.linkAddress.valid = true
  consistent : ∀ r ∈ rows, ∀ r' ∈ rows, (r.interface, r.ip) = (r'.interface, r'.ip) →
    r.linkAddress = r'.linkAddress

/-- What the loop over the rows has collected. -/
structure Collected (rows : List NeighborRow) (s : Grouped) : Prop where
  grouped : ∀ key, s.1.get key = if reported rows key = ∅ then none else some (reported rows key)
  links : ∀ r ∈ rows, s.2 (r.interface, r.ip) = some r.linkAddress
  rows : ∀ x link, s.2 x = some link → ∃ r ∈ rows, (r.interface, r.ip) = x ∧ r.linkAddress = link

theorem reported_append (rows r key) :
    reported (rows ++ [r]) key = if r.key = key ∧ r.reachability.present = true then
      insert r.ip (reported rows key) else reported rows key := by
  rw [reported, filter_append, map_append, toFinset_append, ← reported, Finset.union_comm]
  split_ifs with h
  · rw [filter_cons_of_pos (by simpa using h)]
    rfl
  · rw [filter_cons_of_neg (by simpa using h)]
    exact Finset.empty_union _

theorem groupRow_eq_ok {s s' r} : groupRow s r = .ok s' ↔
    (validIp r.ip = true ∧ r.linkAddress.valid = true) ∧
      (∀ link, s.2 (r.interface, r.ip) = some link → link = r.linkAddress) ∧ addRow s r = s' := by
  simp only [groupRow, bind_eq_ok, reject_eq_ok, pure_eq_ok, Bool.not_eq_false,
    exists_const, and_assoc]
  cases s.2 (r.interface, r.ip) <;> simp

variable {rows : List NeighborRow}

theorem Collected.addRow {s r} (h : Collected rows s)
    (hlink : ∀ link, s.2 (r.interface, r.ip) = some link → link = r.linkAddress) :
    Collected (rows ++ [r]) (addRow s r) := by
  refine ⟨fun key => ?_, fun r' hr' => ?_, fun x link hx => ?_⟩
  · rw [reported_append, Sensor.addRow]
    by_cases hpresent : r.reachability.present = true
    · rw [if_pos hpresent, get_insert]
      by_cases hk : key = r.key
      · subst hk
        simp only [hpresent, and_self, if_true, Finset.insert_ne_empty, if_false, h.grouped r.key]
        split_ifs with hempty <;> simp [hempty]
      · simp [hk, Ne.symm hk, h.grouped key]
    · simp [hpresent, h.grouped key]
  · simp only [Sensor.addRow, Function.update_apply]
    split_ifs with heq
    · obtain hr' | hr' := mem_append.1 hr'
      · exact congrArg some (hlink _ (heq ▸ h.links r' hr')).symm
      · rw [mem_singleton.1 hr']
    · obtain hr' | hr' := mem_append.1 hr'
      · exact h.links r' hr'
      · rw [mem_singleton.1 hr'] at heq
        exact absurd rfl heq
  · simp only [Sensor.addRow, Function.update_apply] at hx
    split_ifs at hx with heq
    · exact ⟨r, by simp, heq.symm, some.inj hx⟩
    · obtain ⟨r', hr', hrow⟩ := h.rows x link hx
      exact ⟨r', mem_append_left _ hr', hrow⟩

/-- The loop over the rows accepts what is acceptable, and collects what is reported. -/
theorem groupRows_eq_ok {s} (h : rows.foldlM groupRow (∅, fun _ => none) = .ok s) :
    Acceptable rows ∧ Collected rows s := by
  refine foldlM_invariant (I := fun done s => Acceptable done ∧ Collected done s) h
    ⟨⟨by simp, by simp⟩, by simp [reported], by simp, by simp⟩ ?_
  rintro done r rest s s' - ⟨hdone, hs⟩ hpass
  obtain ⟨hvalid, hlink, rfl⟩ := groupRow_eq_ok.1 hpass
  refine ⟨⟨forall_mem_concat.2 ⟨hdone.valid, hvalid⟩, ?_⟩, hs.addRow hlink⟩
  · have hsame : ∀ r' ∈ done, (r.interface, r.ip) = (r'.interface, r'.ip) →
        r'.linkAddress = r.linkAddress := fun r' hr' heq => hlink _ (heq ▸ hs.links r' hr')
    intro a ha b hb heq
    obtain ha | ha := mem_append.1 ha <;> obtain hb | hb := mem_append.1 hb
    · exact hdone.consistent a ha b hb heq
    · rw [mem_singleton.1 hb] at heq ⊢
      exact hsame a ha heq.symm
    · rw [mem_singleton.1 ha] at heq ⊢
      exact (hsame b hb heq).symm
    · rw [mem_singleton.1 ha, mem_singleton.1 hb]

theorem groupRows_of_acceptable (h : Acceptable rows) :
    ∃ s, rows.foldlM groupRow (∅, fun _ => none) = .ok s := by
  obtain ⟨s, hs, -⟩ := foldlM_ok (f := groupRow) (I := Collected) (l := rows)
    (b := (∅, fun _ => none)) ⟨by simp [reported], by simp, by simp⟩ (by
      rintro done r rest s rfl hs
      have hlink : ∀ link, s.2 (r.interface, r.ip) = some link → link = r.linkAddress := by
        intro link hlookup
        obtain ⟨r', hr', heq, rfl⟩ := hs.rows _ _ hlookup
        exact h.consistent r' (by simp [hr']) r (by simp) heq
      exact ⟨_, groupRow_eq_ok.2 ⟨h.valid r (by simp), hlink, rfl⟩, hs.addRow hlink⟩)
  exact ⟨s, hs⟩

theorem seen_key (observedAt key addresses old) :
    ∀ e ∈ (seen observedAt key addresses old).2, e.key = key := by
  cases old <;> simp [seen, NeighborEvent.key]

theorem unseen_key (cfg observedAt key s) : ∀ e ∈ (unseen cfg observedAt key s).2, e.key = key := by
  unfold unseen
  dsimp only
  split_ifs <;> simp [NeighborEvent.key]

/-- The two passes are one move of every key's automaton. -/
theorem advance_track (cfg observedAt grouped states) {key}
    (hget : grouped.get key = if reported rows key = ∅ then none else some (reported rows key)) :
    (advance cfg observedAt grouped states).1.get key =
        (track cfg observedAt key (reported rows key) (states.get key)).1 ∧
      (advance cfg observedAt grouped states).2.filter (·.key = key) =
        (track cfg observedAt key (reported rows key) (states.get key)).2 := by
  unfold advance
  dsimp only
  generalize hpresent : sweep (seen observedAt) grouped.toList states = present
  generalize habsent : (present.1.toList.filter fun x => (grouped.get x.1).isNone) = absent
  have hnodup : (absent.map Prod.fst).Nodup :=
    habsent ▸ present.1.nodup_keys.sublist (filter_sublist.map _)
  have hmem : ∀ key s, (key, s) ∈ absent ↔ present.1.get key = some s ∧ grouped.get key = none := by
    intro key s
    rw [← habsent, mem_filter, SortedMap.mem_toList, Option.isNone_iff_eq_none]
  -- a key that is not among the absent ones is left alone by the second pass
  have hsecond : (∀ s, (key, s) ∉ absent) → _ := fun hkey =>
    sweep_not_mem (fun key s _ => unseen_key cfg observedAt key s) hnodup present.1
      (k := key) fun hmap => by
        obtain ⟨⟨_, s⟩, hs, rfl⟩ := mem_map.1 hmap
        exact hkey s hs
  rw [filter_append, track]
  by_cases hreported : reported rows key = ∅
  · rw [if_pos hreported] at hget ⊢
    have hfirst := sweep_not_mem (seen_key observedAt) grouped.nodup_keys states
      (k := key) (by rw [SortedMap.mem_keys, hget]; exact not_not.2 rfl)
    rw [hpresent] at hfirst
    cases hold : states.get key with
    | none =>
      rw [hold] at hfirst
      have hsecond := hsecond fun s hs => by
        rw [hmem, hfirst.1] at hs
        cases hs.1
      rw [hfirst.2, hsecond.1, hsecond.2, hfirst.1]
      exact ⟨rfl, rfl⟩
    | some s =>
      rw [hold] at hfirst
      have hsecond := sweep_mem (fun key s _ => unseen_key cfg observedAt key s)
        hnodup present.1 ((hmem key s).2 ⟨hfirst.1, hget⟩)
      rw [hfirst.2, hsecond.1, hsecond.2]
      exact ⟨rfl, rfl⟩
  · rw [if_neg hreported] at hget ⊢
    have hfirst := sweep_mem (seen_key observedAt) grouped.nodup_keys states
      (mem_toList.2 hget)
    rw [hpresent] at hfirst
    have hsecond := hsecond fun s hs => by
      rw [hmem, hget] at hs
      cases hs.2
    rw [hsecond.1, hsecond.2, hfirst.1, hfirst.2, append_nil]
    exact ⟨rfl, rfl⟩

namespace NeighborTracker

variable {t t' : NeighborTracker} {observedAt : DateTime} {events : List NeighborEvent}

theorem observe_eq_ok (h : t.observe rows observedAt = (t', .ok events)) :
    ∃ grouped ips, rows.foldlM groupRow (∅, fun _ => none) = .ok (grouped, ips) ∧
      t.states.size + (grouped.toList.filter fun x => (t.states.get x.1).isNone).length ≤
        t.cfg.maxDevices ∧
      t' = ⟨t.cfg, (advance t.cfg observedAt grouped t.states).1, some observedAt⟩ ∧
      events = (advance t.cfg observedAt grouped t.states).2 := by
  unfold observe at h
  cases hstage : t.stage rows observedAt with
  | error e =>
    rw [hstage] at h
    cases h
  | ok staged =>
    rw [hstage] at h
    cases h
    obtain ⟨_, -, hstage⟩ := bind_eq_ok.1 hstage
    obtain ⟨_, -, hstage⟩ := bind_eq_ok.1 hstage
    obtain ⟨⟨grouped, ips⟩, hgroup, hstage⟩ := bind_eq_ok.1 hstage
    obtain ⟨_, -, hstage⟩ := bind_eq_ok.1 hstage
    obtain ⟨_, hroom, hstage⟩ := bind_eq_ok.1 hstage
    obtain ⟨_, -, hstage⟩ := bind_eq_ok.1 hstage
    have hstage := pure_eq_ok.1 hstage
    rw [reject_eq_ok, not_lt] at hroom
    exact ⟨grouped, ips, hgroup, hroom, by rw [← hstage], by rw [← hstage]⟩

/-- The tracked keys. -/
def keys (t : NeighborTracker) : Finset NeighborKey := (t.states.toList.map Prod.fst).toFinset

theorem mem_keys {key} : key ∈ t.keys ↔ t.states.get key ≠ none := by
  rw [keys, List.mem_toFinset, SortedMap.mem_keys]

/-- The keys that are tracked or present, counted as the check does. -/
theorem room_eq {s} (h : Collected rows s) :
    t.states.size + (s.1.toList.filter fun x => (t.states.get x.1).isNone).length =
      (t.keys ∪ presentKeys rows).card := by
  have hnew : ((s.1.toList.filter fun x => (t.states.get x.1).isNone).map Prod.fst).toFinset =
      presentKeys rows \ t.keys := by
    ext key
    simp only [List.mem_toFinset, List.mem_map, List.mem_filter, Prod.exists, SortedMap.mem_toList,
      h.grouped, Finset.mem_sdiff, mem_presentKeys, mem_keys]
    by_cases hreported : reported rows key = ∅ <;> simp [hreported]
  rw [Finset.union_comm, ← Finset.card_sdiff_add_card, ← hnew, add_comm, size_eq_card, keys,
    toFinset_card_of_nodup (s.1.nodup_keys.sublist (filter_sublist.map _)), length_map]

/-- **An observation is one move of every key's automaton**, and there is room for all keys. -/
theorem observe_track (h : t.observe rows observedAt = (t', .ok events)) : t'.cfg = t.cfg ∧
    (∀ key, t'.states.get key =
        (track t.cfg observedAt key (reported rows key) (t.states.get key)).1 ∧
      events.filter (·.key = key) =
        (track t.cfg observedAt key (reported rows key) (t.states.get key)).2) ∧
    t'.keys ⊆ t.keys ∪ presentKeys rows ∧ (t.keys ∪ presentKeys rows).card ≤ t.cfg.maxDevices := by
  obtain ⟨grouped, ips, hgroup, hroom, rfl, rfl⟩ := observe_eq_ok h
  have hcollected := (groupRows_eq_ok hgroup).2
  have htrack := fun key => advance_track t.cfg observedAt grouped t.states (hcollected.grouped key)
  refine ⟨rfl, htrack, fun key hkey => ?_, room_eq hcollected ▸ hroom⟩
  rw [mem_keys, (htrack key).1, track] at hkey
  rw [Finset.mem_union, mem_keys, mem_presentKeys]
  by_contra hnot
  obtain ⟨hold, hreported⟩ := not_or.1 hnot
  rw [if_pos (not_not.1 hreported), not_not.1 hold] at hkey
  exact hkey rfl

/-- An observation succeeds if there is room for the tracked keys and the present ones together. -/
theorem observe_of_room (hclock : ∀ last ∈ t.lastObservedAt, last ≤ observedAt)
    (hlength : rows.length ≤ t.cfg.maxRows) (hrows : Acceptable rows)
    (hroom : (t.keys ∪ presentKeys rows).card ≤ t.cfg.maxDevices)
    (hmissed : ∀ key s, t.states.get key = some s → s.missed + 1 < 2 ^ 64) :
    ∃ t' events, t.observe rows observedAt = (t', .ok events) := by
  obtain ⟨⟨grouped, ips⟩, hgroup⟩ := groupRows_of_acceptable hrows
  have hcollected := (groupRows_eq_ok hgroup).2
  have hsize : grouped.size ≤ t.cfg.maxDevices := by
    rw [size_eq_card]
    refine (Finset.card_le_card fun key hkey => Finset.mem_union_right _ ?_).trans hroom
    rw [List.mem_toFinset, SortedMap.mem_keys, hcollected.grouped] at hkey
    exact mem_presentKeys.2 fun hempty => hkey (if_pos hempty)
  have hstage : t.stage rows observedAt = .ok (advance t.cfg observedAt grouped t.states) := by
    simp only [stage, bind_eq_ok, reject_eq_ok, pure_eq_ok]
    refine ⟨⟨⟩, fun hlast => ?_, ⟨⟩, not_lt.2 hlength, (grouped, ips), hgroup, ⟨⟩, not_lt.2 hsize, ⟨⟩,
      not_lt.2 ((room_eq hcollected).trans_le hroom), ⟨⟩, ?_, rfl⟩
    · obtain ⟨last, hlast, hlt⟩ := (Option.any_eq_true ..).1 hlast
      exact absurd (hclock last hlast) (not_le.2 (of_decide_eq_true hlt))
    · rintro ⟨x, hx, -, hfull⟩
      exact absurd (hmissed _ _ (mem_toList.1 hx)) (not_lt.2 hfull)
  rw [observe, hstage]
  exact ⟨_, _, rfl⟩

variable {rows' : List NeighborRow}

theorem reported_congr (h : ∀ r, r ∈ rows' ↔ r ∈ rows)
    (key) : reported rows' key = reported rows key := by
  ext ip
  simp [reported, h]

/-- The rows count as a set. -/
theorem observe_congr (hrows : ∀ r, r ∈ rows' ↔ r ∈ rows)
    (hlength : rows'.length ≤ t.cfg.maxRows) (h : t.observe rows observedAt = (t', .ok events)) :
    t.observe rows' observedAt = (t', .ok events) := by
  unfold observe at h ⊢
  suffices hstage : ∀ s, t.stage rows observedAt = .ok s → t.stage rows' observedAt = .ok s by
    cases hs : t.stage rows observedAt with
    | error e =>
      rw [hs] at h
      cases h
    | ok s =>
      rw [hs] at h
      rw [hstage s hs]
      exact h
  intro s hs
  obtain ⟨_, hclock, hs⟩ := bind_eq_ok.1 hs
  obtain ⟨_, -, hs⟩ := bind_eq_ok.1 hs
  obtain ⟨⟨grouped, ips⟩, hgroup, hs⟩ := bind_eq_ok.1 hs
  obtain ⟨hacceptable, hcollected⟩ := groupRows_eq_ok hgroup
  obtain ⟨⟨grouped', ips'⟩, hgroup'⟩ := groupRows_of_acceptable
    ⟨fun r hr => hacceptable.valid r ((hrows r).1 hr), fun r hr r' hr' =>
      hacceptable.consistent r ((hrows r).1 hr) r' ((hrows r').1 hr')⟩
  obtain rfl : grouped' = grouped := ext fun key => by
    rw [(groupRows_eq_ok hgroup').2.grouped, hcollected.grouped, reported_congr hrows]
  exact bind_eq_ok.2 ⟨_, hclock, bind_eq_ok.2 ⟨(), reject_eq_ok.2 (not_lt.2 hlength),
    bind_eq_ok.2 ⟨_, hgroup', hs⟩⟩⟩

end NeighborTracker

/-! ### Runs -/

/-- A successful observation. -/
structure Observation where
  rows : List NeighborRow
  events : List NeighborEvent

/-- Readings one after another, if all of them succeed. -/
def NeighborTracker.observeAll (t : NeighborTracker) (done : List Observation) :
    List (List NeighborRow × DateTime) → Option (NeighborTracker × List Observation)
  | [] => some (t, done)
  | (rows, observedAt) :: rest =>
    match t.observe rows observedAt with
    | (t', .ok events) => t'.observeAll (done ++ [⟨rows, events⟩]) rest
    | (_, .error _) => none

/-- The trackers that a sequence of observations leads to, with the successful ones. -/
inductive Tracking (cfg : NeighborTrackerConfig) : NeighborTracker → List Observation → Prop
  | new {t} (h : NeighborTracker.new cfg = .ok t) : Tracking cfg t []
  | observed {t t' done rows observedAt events} (h : Tracking cfg t done)
      (hok : t.observe rows observedAt = (t', .ok events)) : Tracking cfg t' (done ++ [⟨rows, events⟩])
  | refused {t t' done rows observedAt e} (h : Tracking cfg t done)
      (herror : t.observe rows observedAt = (t', .error e)) : Tracking cfg t' done

/-- Whether a key appears or departs in an event. -/
def NeighborEvent.turn : NeighborEvent → Option Bool
  | appeared .. => some true
  | departed .. => some false
  | _ => none

/-- The appearances and departures of a key. -/
def lifecycle (key : NeighborKey) (done : List Observation) : List Bool :=
  done.flatMap fun o => (o.events.filter (·.key = key)).filterMap NeighborEvent.turn

/-- How many of the last observations have not reported a key. -/
def misses (key : NeighborKey) (done : List Observation) : ℕ :=
  (done.reverse.takeWhile fun o => reported o.rows key = ∅).length

theorem misses_concat (key done o) :
    misses key (done ++ [o]) = if reported o.rows key = ∅ then misses key done + 1 else 0 := by
  rw [misses, reverse_concat', takeWhile_cons]
  split_ifs <;> simp_all [misses]

/-- What holds of a key and its state after every sequence of observations. -/
structure Tracked (cfg : NeighborTrackerConfig) (key : NeighborKey) (done : List Observation)
    (old : Option NeighborState) : Prop where
  missed : ∀ s, old = some s →
    s.missed = misses key done ∧ s.missed < cfg.missedSnapshotsBeforeDeparture
  alternate : (false :: lifecycle key done).IsChain (· ≠ ·)
  last : (false :: lifecycle key done).getLast (cons_ne_nil _ _) = old.isSome

variable {cfg : NeighborTrackerConfig} {done : List Observation}

/-- A move keeps the count, and it turns a key that is tracked into one that is not, or back. -/
theorem Tracked.track {key old} (h : Tracked cfg key done old)
    (hpos : cfg.missedSnapshotsBeforeDeparture ≠ 0) {observedAt o}
    (ho : o.events.filter (·.key = key) = (track cfg observedAt key (reported o.rows key) old).2) :
    Tracked cfg key (done ++ [o]) (track cfg observedAt key (reported o.rows key) old).1 := by
  have hlife : lifecycle key (done ++ [o]) = lifecycle key done ++
      (Sensor.track cfg observedAt key (reported o.rows key) old).2.filterMap NeighborEvent.turn := by
    simp [lifecycle, ho]
  have hmisses := misses_concat key done o
  have hturn : ∀ b, b ≠ old.isSome →
      (false :: (lifecycle key done ++ [b])).IsChain (· ≠ ·) := fun b hb => by
    rw [← cons_append, isChain_append]
    refine ⟨h.alternate, isChain_singleton _, fun x hx y hy => ?_⟩
    rw [getLast?_eq_some_getLast (cons_ne_nil _ _), mem_some_iff, h.last] at hx
    obtain rfl := some.inj hy
    exact hx ▸ hb.symm
  unfold Sensor.track at hlife ⊢
  by_cases hreported : reported o.rows key = ∅
  · rw [if_pos hreported] at hlife hmisses ⊢
    cases old with
    | none =>
      rw [elim_none, filterMap_nil, append_nil] at hlife
      exact ⟨nofun, hlife ▸ h.alternate, by simpa only [hlife, elim_none] using h.last⟩
    | some s =>
      obtain ⟨hs, hlt⟩ := h.missed s rfl
      simp only [elim_some, unseen] at hlife ⊢
      split_ifs at hlife ⊢ with hthreshold
      · -- the key departs
        have hlife : lifecycle key (done ++ [o]) = lifecycle key done ++ [false] := hlife
        exact ⟨nofun, hlife ▸ hturn false (by simp), by simp [hlife]⟩
      · have hlife : lifecycle key (done ++ [o]) = lifecycle key done :=
          hlife.trans (append_nil _)
        refine ⟨?_, hlife ▸ h.alternate, by simpa only [hlife, isSome_some] using h.last⟩
        rintro _ ⟨⟩
        exact ⟨by rw [hmisses, hs], not_le.1 hthreshold⟩
  · rw [if_neg hreported] at hlife hmisses ⊢
    have hmissed : ∀ s, some (⟨reported o.rows key, 0⟩ : NeighborState) = some s →
        s.missed = misses key (done ++ [o]) ∧ s.missed < cfg.missedSnapshotsBeforeDeparture := by
      rintro _ ⟨⟩
      exact ⟨hmisses.symm, Nat.pos_of_ne_zero hpos⟩
    cases old with
    | none =>
      -- the key appears
      have hlife : lifecycle key (done ++ [o]) = lifecycle key done ++ [true] := hlife
      exact ⟨hmissed, hlife ▸ hturn true (by simp), by simp [hlife, seen]⟩
    | some s =>
      have hlife : lifecycle key (done ++ [o]) = lifecycle key done :=
        hlife.trans (append_nil _)
      exact ⟨hmissed, hlife ▸ h.alternate, by simpa only [hlife, seen, isSome_some] using h.last⟩

open NeighborTracker

theorem observe_error {t t' : NeighborTracker} {observedAt e}
    (h : t.observe rows observedAt = (t', .error e)) : t' = t := by
  unfold observe at h
  split at h <;> cases h
  rfl

theorem Tracking.tracked {t} (h : Tracking cfg t done) : t.cfg = cfg ∧
      cfg.missedSnapshotsBeforeDeparture ≠ 0 ∧ t.states.size ≤ cfg.maxDevices ∧
      ∀ key, Tracked cfg key done (t.states.get key) := by
  induction h with
  | new h =>
    obtain ⟨_, hcfg, h⟩ := bind_eq_ok.1 h
    obtain rfl := pure_eq_ok.1 h
    rw [reject_eq_ok, not_or, not_or] at hcfg
    exact ⟨rfl, hcfg.2.2, Nat.zero_le _, fun key => ⟨by simp, by simp [lifecycle], by simp [lifecycle]⟩⟩
  | refused h herror ih => exact observe_error herror ▸ ih
  | @observed t t' done rows observedAt events h hok ih =>
    obtain ⟨rfl, hpos, -, htracked⟩ := ih
    obtain ⟨hcfg, htrack, hkeys, hroom⟩ := observe_track hok
    refine ⟨hcfg, hpos, ?_, fun key => ?_⟩
    · rw [size_eq_card]
      exact (Finset.card_le_card hkeys).trans hroom
    rw [(htrack key).1]
    exact (htracked key).track hpos (htrack key).2

theorem Tracking.observeAll {t t' done' readings} (h : Tracking cfg t done)
    (hall : t.observeAll done readings = some (t', done')) : Tracking cfg t' done' := by
  induction readings generalizing t done with
  | nil =>
    cases hall
    exact h
  | cons r readings ih =>
    rw [NeighborTracker.observeAll] at hall
    split at hall
    next hok => exact ih (h.observed hok) hall
    next => cases hall

/-- **Neighbor tracking**, after every sequence of observations: the appearances and departures of
each key alternate, and no more keys are tracked than allowed.  An observation that fails changes
nothing.  One that succeeds confirms a tracked key if a row reports it present, and otherwise misses it
once more, and then lets it depart if the misses have reached the threshold; and it depends on the set
of its rows only. -/
theorem Tracking.spec {cfg : NeighborTrackerConfig} {t : NeighborTracker} {done : List Observation}
    (h : Tracking cfg t done) :
    (∀ key, (false :: lifecycle key done).IsChain (· ≠ ·)) ∧ t.states.size ≤ cfg.maxDevices ∧
    ∀ rows observedAt t',
      (∀ e, t.observe rows observedAt = (t', .error e) → t' = t) ∧
      ∀ events, t.observe rows observedAt = (t', .ok events) →
        (∀ key s, t.states.get key = some s → events.filter (·.key = key) =
          if reported rows key = ∅ then
            .missed ⟨key, s.addresses⟩ observedAt (misses key (done ++ [⟨rows, events⟩])) ::
              if misses key (done ++ [⟨rows, events⟩]) = cfg.missedSnapshotsBeforeDeparture then
                [.departed ⟨key, s.addresses⟩ observedAt] else []
          else [.confirmed ⟨key, reported rows key⟩ observedAt]) ∧
        ∀ rows', (∀ r, r ∈ rows' ↔ r ∈ rows) → rows'.length ≤ cfg.maxRows →
          t.observe rows' observedAt = (t', .ok events) := by
  obtain ⟨rfl, -, hsize, htracked⟩ := h.tracked
  refine ⟨fun key => (htracked key).alternate, hsize, fun rows observedAt t' =>
    ⟨fun e he => observe_error he, fun events hok => ⟨fun key s hs => ?_, fun rows' hrows hlength =>
      observe_congr hrows hlength hok⟩⟩⟩
  obtain ⟨hmissed, hlt⟩ := (htracked key).missed s hs
  rw [((observe_track hok).2.1 key).2, hs, track, misses_concat]
  split_ifs with hreported hthreshold
  · rw [elim_some, unseen, if_pos (by omega), hmissed]
  · rw [elim_some, unseen, if_neg (by omega), hmissed]
  · rfl

/-- **Recovery**: while the keys that are tracked and all that are present fit into the tracker, every
reading succeeds, whatever has failed before, and no key stays that as many readings as let it depart
have missed. -/
theorem Tracking.recovers {cfg : NeighborTrackerConfig} {t : NeighborTracker}
    {done : List Observation} (h : Tracking cfg t done)
    (hfits : cfg.missedSnapshotsBeforeDeparture < 2 ^ 64) {K : Finset NeighborKey}
    (hroom : K.card ≤ cfg.maxDevices) (hkeys : t.keys ⊆ K)
    (readings : List (List NeighborRow × DateTime))
    (hreadings : ∀ r ∈ readings, Acceptable r.1 ∧ r.1.length ≤ cfg.maxRows ∧ presentKeys r.1 ⊆ K)
    (htimes : (t.lastObservedAt.toList ++ readings.map Prod.snd).Pairwise (· ≤ ·)) :
    ∃ t' done', t.observeAll done readings = some (t', done') ∧ t'.keys ⊆ K ∧
      ∀ key ∈ t'.keys, misses key done' < cfg.missedSnapshotsBeforeDeparture := by
  induction readings generalizing t done with
  | nil =>
    refine ⟨t, done, rfl, hkeys, fun key hkey => ?_⟩
    obtain ⟨s, hs⟩ := ne_none_iff_exists'.1 (mem_keys.1 hkey)
    obtain ⟨hmissed, hlt⟩ := (h.tracked.2.2.2 key).missed s hs
    exact hmissed ▸ hlt
  | cons r readings ih =>
    obtain ⟨rfl, -, -, htracked⟩ := h.tracked
    obtain ⟨⟨hrows, hlength, hpresent⟩, hreadings⟩ := forall_mem_cons.1 hreadings
    obtain ⟨-, hlater, hclock⟩ := pairwise_append.1 htimes
    have hall : t.keys ∪ presentKeys r.1 ⊆ K := Finset.union_subset hkeys hpresent
    obtain ⟨t', events, hok⟩ := observe_of_room
      (fun last hlast => hclock last (by simpa using hlast) r.2 mem_cons_self) hlength hrows
      ((Finset.card_le_card hall).trans hroom)
      fun key s hs => Nat.lt_of_le_of_lt ((htracked key).missed s hs).2 hfits
    have hlast : t'.lastObservedAt = some r.2 := by
      obtain ⟨-, -, -, -, rfl, -⟩ := observe_eq_ok hok
      rfl
    rw [NeighborTracker.observeAll, hok]
    exact ih (h.observed hok) ((observe_track hok).2.2.1.trans hall) hreadings (hlast ▸ hlater)

def sampleNeighbor : NeighborRow := ⟨3, .v4 0xc0a80109, 0x02aabbccdd01, .reachable⟩

/-- A device of the home appears, is confirmed by the same rows, and is missed. -/
def sampleReadings : List (List NeighborRow × DateTime) :=
  [([sampleNeighbor], halfSecond 0), ([sampleNeighbor], halfSecond 2), ([], halfSecond 4)]

/-- Missed once more, it departs. -/
theorem sampleNeighbor_spec : ∃ t t' t'' done events s, NeighborTracker.new ⟨4, 1, 2⟩ = .ok t ∧
    t.observeAll [] sampleReadings = some (t', done) ∧
    done.map (·.events.map NeighborEvent.turn) = [[some true], [none], [none]] ∧
    (∀ key, (false :: lifecycle key done).IsChain (· ≠ ·)) ∧ t'.states.size ≤ 1 ∧
    t'.states.get sampleNeighbor.key = some s ∧ t'.observe [] (halfSecond 6) = (t'', .ok events) ∧
    events.filter (·.key = sampleNeighbor.key) =
      [.missed ⟨sampleNeighbor.key, s.addresses⟩ (halfSecond 6) 2,
        .departed ⟨sampleNeighbor.key, s.addresses⟩ (halfSecond 6)] := by
  obtain ⟨t, hnew, ⟨t', done⟩, hall, hturns, s, hs, events, hevents, hmisses⟩ :
      ∃ t, new ⟨4, 1, 2⟩ = .ok t ∧ ∃ r, t.observeAll [] sampleReadings = some r ∧
        r.2.map (·.events.map NeighborEvent.turn) = [[some true], [none], [none]] ∧
        ∃ s, r.1.states.get sampleNeighbor.key = some s ∧
          ∃ events, (r.1.observe [] (halfSecond 6)).2 = .ok events ∧
            misses sampleNeighbor.key (r.2 ++ [⟨[], events⟩]) = 2 := by decide +kernel
  obtain ⟨hchain, hsize, hspec⟩ := ((Tracking.new hnew).observeAll hall).spec
  have hlast := ((hspec [] (halfSecond 6) _).2 events (Prod.ext rfl hevents)).1 _ s hs
  rw [if_pos (show reported [] sampleNeighbor.key = ∅ from rfl), hmisses, if_pos rfl] at hlast
  exact ⟨t, t', _, done, events, s, hnew, hall, hturns, hchain, hsize, hs, Prod.ext rfl hevents, hlast⟩

/-- Another device. -/
def otherNeighbor : NeighborRow := ⟨3, .v4 0xc0a8010a, 0x02aabbccdd02, .reachable⟩

/-- A tracker with room for two observes one device after another. -/
theorem otherNeighbor_recovers : ∃ t t' done, NeighborTracker.new ⟨4, 2, 2⟩ = .ok t ∧
    t.observeAll [] [([sampleNeighbor], halfSecond 0), ([otherNeighbor], halfSecond 2)] =
      some (t', done) ∧ t'.keys ⊆ {sampleNeighbor.key, otherNeighbor.key} := by
  obtain ⟨t, hnew, hkeys, hlast⟩ : ∃ t, new ⟨4, 2, 2⟩ = .ok t ∧
      t.keys ⊆ {sampleNeighbor.key, otherNeighbor.key} ∧ t.lastObservedAt = none := by decide +kernel
  obtain ⟨t', done, hall, hkeys', -⟩ := (Tracking.new hnew).recovers (by decide) (by decide) hkeys
    [([sampleNeighbor], halfSecond 0), ([otherNeighbor], halfSecond 2)]
    (forall_mem_cons.2 ⟨⟨⟨by decide, by simp⟩, by decide, by decide⟩,
      forall_mem_singleton.2 ⟨⟨by decide, by simp⟩, by decide, by decide⟩⟩) (by rw [hlast]; decide)
  exact ⟨t, t', done, hnew, hall, hkeys'⟩

/-- A tracker that is full of one device never observes another, however often it is there alone. -/
theorem otherNeighbor_refused : ∃ t t' events, NeighborTracker.new ⟨4, 1, 2⟩ = .ok t ∧
    t.observe [sampleNeighbor] (halfSecond 0) = (t', .ok events) ∧
    (presentKeys [otherNeighbor]).card = 1 ∧
    ∀ observedAt, ∃ e, t'.observe [otherNeighbor] observedAt = (t', .error e) := by
  obtain ⟨t, hnew, events, hevents, hfull⟩ : ∃ t, new ⟨4, 1, 2⟩ = .ok t ∧
      ∃ events, (t.observe [sampleNeighbor] (halfSecond 0)).2 = .ok events ∧
        (t.observe [sampleNeighbor] (halfSecond 0)).1.cfg.maxDevices <
          ((t.observe [sampleNeighbor] (halfSecond 0)).1.keys ∪ presentKeys [otherNeighbor]).card := by
    decide +kernel
  refine ⟨t, _, events, hnew, Prod.ext rfl hevents, by decide, fun observedAt => ?_⟩
  rcases hobserve : observe _ [otherNeighbor] observedAt with ⟨t'', answer⟩
  cases answer with
  | error e => exact ⟨e, by rw [observe_error hobserve]⟩
  | ok events' => exact absurd (observe_track hobserve).2.2.2 (not_le.2 hfull)

end NeonHearth.Sensor
