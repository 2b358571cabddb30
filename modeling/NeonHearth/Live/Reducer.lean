import NeonHearth.Events.Socket
import NeonHearth.Policy.Types
import NeonHearth.Presence.Transitions

/-!
# Snapshots and the live view

A client loads a snapshot of the stored state and then folds the events of the service into it.

* `Snapshot.ofTables` : the presence and the policy of every device, as `list_device_snapshots` and
  the state handler read them from the store;
* `shown_applySnapshot` and the `shown_reduce…` lemmas : how each message changes it.
-/

namespace NeonHearth.Live

open Presence Policy SortedMap List Option

/-! ### The service -/

/-- The presence of a device as the client gets it. -/
structure PresenceView where
  state : PresenceState
  observedAt : Option DateTime
  source : Option String
  kind : Option PresenceEvidenceKind

structure PolicyProjection where
  evaluation : Evaluation
  enforcementResult : EnforcementStatus

structure DeviceSnapshot where
  deviceId : DeviceId
  presence : PresenceView
  policy : Option PolicyProjection

/-- A snapshot with the number of the last event that it may already reflect. -/
structure Snapshot where
  sequence : ℕ
  devices : List DeviceSnapshot

/-- The decisions stored for a device: the acknowledged one, and one in the outbox that is not
acknowledged yet. -/
structure Decisions where
  published : Option PolicyChanged
  pending : Option PolicyChanged

/-- The decision that a snapshot projects. -/
def Decisions.projected (row : Decisions) : Option PolicyChanged := row.pending.or row.published

/-- `map_device`. -/
def mapDevice (d : DeviceId) (top : Option TransitionRow) (decision : Option PolicyChanged) :
    DeviceSnapshot where
  deviceId := d
  presence :=
    match top with
    | none => ⟨.unknown, none, none, none⟩
    | some r => ⟨r.toState, some r.occurredAt, some r.triggerSource, some r.triggerKind⟩
  policy := decision.map fun e => ⟨e.evaluation, e.enforcementResult⟩

/-- The snapshot of the stored tables. -/
def Snapshot.ofTables (sequence : ℕ) (devices : SortedMap DeviceId Decisions)
    (rows : List TransitionRow) : Snapshot where
  sequence := sequence
  devices := devices.toList.map fun (d, row) => mapDevice d (topTransition rows d) row.projected

/-! ### Events -/

inductive EventPayload where
  | serviceStatus
  | presenceChanged (change : PresenceTransition)
  | bandwidthFrame (samples : List DeviceId)
  | policyChanged (policy : PolicyChanged)
  | homeChanged

/-! ### The client -/

structure LiveState where
  sequence : ℕ
  connected : Bool
  needsResync : Bool
  devices : SortedMap DeviceId DeviceSnapshot

def initialLiveState : LiveState := ⟨0, false, false, ∅⟩

def hasVerifiedBlock (policy : Option PolicyProjection) : Bool :=
  policy.any fun p => p.enforcementResult = .verified && p.evaluation.requestedAction.isBlock

/-- A device of a snapshot; a verified block overrides its presence. -/
def showDevice (device : DeviceSnapshot) : DeviceSnapshot :=
  if hasVerifiedBlock device.policy then
    { device with presence :=
      ⟨.blocked, device.presence.observedAt, some "policy", some .enforcementBlocked⟩ }
  else device

def applySnapshot (_ : LiveState) (snapshot : Snapshot) : LiveState where
  sequence := snapshot.sequence
  connected := false
  needsResync := false
  devices := snapshot.devices.foldl
    (fun devices device => devices.insert device.deviceId (showDevice device)) ∅

def placeholder (id : DeviceId) : DeviceSnapshot := ⟨id, ⟨.unknown, none, none, none⟩, none⟩

/-- The device as the client knows it. -/
def LiveState.current (state : LiveState) (id : DeviceId) : DeviceSnapshot :=
  (state.devices.get id).getD (placeholder id)

/-- A decision that the client takes for a verified block. -/
def verifiedBlock (policy : PolicyChanged) : Bool :=
  policy.enforcementResult = .verified && policy.requestedAction.isBlock

/-- A decision that the client takes for a verified release. -/
def verifiedRelease (policy : PolicyChanged) : Bool :=
  policy.enforcementResult = .verified && policy.requestedAction = .none &&
    policy.evaluation.reason = .ownerApproved

/-- What an event does to the devices. -/
def reduceDevices (state : LiveState) (occurredAt : DateTime) : EventPayload →
    SortedMap DeviceId DeviceSnapshot
  | .serviceStatus | .homeChanged => state.devices
  | .presenceChanged change =>
    let current := state.current change.deviceId
    -- discovery cannot lift a verified block
    if current.presence.state ≠ .blocked then
      state.devices.insert change.deviceId { current with presence :=
        ⟨change.toState, some change.occurredAt, some change.trigger.source,
          some change.trigger.kind⟩ }
    else state.devices
  | .bandwidthFrame samples =>
    samples.foldl (fun devices id =>
      devices.insert id ((devices.get id).getD (placeholder id))) state.devices
  | .policyChanged policy =>
    if verifiedBlock policy || verifiedRelease policy then
      state.devices.insert policy.deviceId { state.current policy.deviceId with presence :=
        ⟨if verifiedBlock policy then .blocked else .unknown, some occurredAt, some "policy",
          some (if verifiedBlock policy then .enforcementBlocked else .enforcementUnblocked)⟩ }
    else state.devices

def reduceLiveMessage (state : LiveState) (message : Events.ServerMessage EventPayload) : LiveState :=
  if state.needsResync then state
  else
    match message with
    | .resyncRequired => { state with connected := false, needsResync := true }
    | .event event =>
      if event.sequence ≤ state.sequence then state
      else if state.sequence + 1 < event.sequence then
        { state with connected := false, needsResync := true }
      else
        { state with
          sequence := event.sequence
          connected := true
          devices := reduceDevices state event.occurredAt event.payload }

/-- The presence state shown for a device; one that is not listed has no known state. -/
def LiveState.shown (state : LiveState) (id : DeviceId) : PresenceState :=
  (state.current id).presence.state

/-! ### What is shown -/

/-- The state that a decision sets, if it sets one. -/
def effect (policy : PolicyChanged) : Option PresenceState :=
  if verifiedBlock policy then some .blocked
  else if verifiedRelease policy then some .unknown
  else none

theorem foldl_insert_get (l : List DeviceSnapshot) (m : SortedMap DeviceId DeviceSnapshot)
    (hnodup : (l.map (·.deviceId)).Nodup) (id) :
    (l.foldl (fun devices device => devices.insert device.deviceId (showDevice device)) m).get id =
      ((l.find? (·.deviceId = id)).map showDevice).or (m.get id) := by
  induction l generalizing m with
  | nil => rfl
  | cons device l ih =>
    obtain ⟨hnot, hnodup⟩ := nodup_cons.1 hnodup
    rw [foldl_cons, ih _ hnodup]
    by_cases hid : device.deviceId = id
    · have hnone : l.find? (·.deviceId = id) = none := by
        refine find?_eq_none.2 fun x hx => ?_
        simp only [decide_eq_true_eq]
        intro hxid
        exact hnot (mem_map.2 ⟨x, hx, hxid.trans hid.symm⟩)
      simp [hnone, hid]
    · rw [get_insert_of_ne _ _ (Ne.symm hid)]
      simp [hid]

open LiveState

/-- What a fresh client shows: blocked for a verified block, else the stored transition. -/
theorem shown_applySnapshot (state) (sequence : ℕ) (devices rows id) :
    (applySnapshot state (.ofTables sequence devices rows)).shown id =
      match devices.get id with
      | none => .unknown
      | some row =>
        if hasVerifiedBlock (row.projected.map fun e => ⟨e.evaluation, e.enforcementResult⟩) then
          .blocked
        else ((topTransition rows id).map (·.toState)).getD .unknown := by
  have hkeys : ((Snapshot.ofTables sequence devices rows).devices.map (·.deviceId)).Nodup := by
    simpa [Snapshot.ofTables, mapDevice, Function.comp_def] using devices.nodup_keys
  have hfind : (Snapshot.ofTables sequence devices rows).devices.find? (·.deviceId = id) =
      (devices.get id).map fun row => mapDevice id (topTransition rows id) row.projected := by
    cases hrow : devices.get id with
    | none =>
      refine find?_eq_none.2 fun x hx => ?_
      obtain ⟨⟨d, row⟩, hmem, rfl⟩ := mem_map.1 hx
      intro hid
      obtain rfl : d = id := of_decide_eq_true hid
      simp [mem_toList.1 hmem] at hrow
    | some row =>
      have hmem : mapDevice id (topTransition rows id) row.projected ∈
          (Snapshot.ofTables sequence devices rows).devices :=
        mem_map.2 ⟨(id, row), mem_toList.2 hrow, rfl⟩
      cases hx : (Snapshot.ofTables sequence devices rows).devices.find? (·.deviceId = id) with
      | none => exact absurd (find?_eq_none.1 hx _ hmem) (by simp [mapDevice])
      | some x =>
        obtain ⟨⟨d, row'⟩, hmem', rfl⟩ := mem_map.1 (mem_of_find?_eq_some hx)
        have hid := find?_some hx
        obtain rfl : d = id := of_decide_eq_true hid
        rw [mem_toList.1 hmem'] at hrow
        cases hrow
        rfl
  rw [shown, current, applySnapshot, foldl_insert_get _ _ hkeys, hfind]
  cases devices.get id with
  | none => rfl
  | some row =>
    simp only [map_some, some_or, getD_some, showDevice]
    split
    · next hblock => rw [if_pos (by simpa [mapDevice] using hblock)]
    · next hblock =>
      rw [if_neg (by simpa [mapDevice] using hblock)]
      cases topTransition rows id <;> rfl

section Shown

variable {state state' : LiveState} {occurredAt : DateTime} (id : DeviceId)

theorem shown_insert {device other} (h : state'.devices = state.devices.insert other device) :
    state'.shown id = if id = other then device.presence.state else state.shown id := by
  rw [shown, current, h, get_insert]
  split <;> rfl

theorem shown_presenceChanged {change}
    (h : state'.devices = reduceDevices state occurredAt (.presenceChanged change)) :
    state'.shown id = if id = change.deviceId ∧ state.shown id ≠ .blocked then change.toState
      else state.shown id := by
  rw [reduceDevices] at h
  split at h
  · next hstate =>
    rw [shown_insert id h]
    by_cases hid : id = change.deviceId
    · subst hid
      rw [if_pos rfl, if_pos ⟨rfl, hstate⟩]
    · rw [if_neg hid, if_neg fun hc => hid hc.1]
  · next hstate =>
    have hsame : state'.shown id = state.shown id := by
      rw [shown, current, h]
      rfl
    rw [hsame, if_neg]
    rintro ⟨rfl, hne⟩
    exact hstate hne

theorem shown_policyChanged {policy}
    (h : state'.devices = reduceDevices state occurredAt (.policyChanged policy)) :
    state'.shown id = if id = policy.deviceId then (effect policy).getD (state.shown id)
      else state.shown id := by
  rw [reduceDevices] at h
  have hsame : state'.devices = state.devices → state'.shown id = state.shown id := by
    intro h
    rw [shown, current, h]
    rfl
  unfold effect
  cases hb : verifiedBlock policy with
  | true =>
    simp only [hb, Bool.true_or, if_true] at h
    simpa using shown_insert id h
  | false =>
    cases hr : verifiedRelease policy with
    | true =>
      simp only [hb, hr, Bool.false_or, if_true, Bool.false_eq_true, if_false] at h
      simpa using shown_insert id h
    | false =>
      simp only [hb, hr, Bool.or_self, Bool.false_eq_true, if_false] at h
      simp [hsame h]

/-- Other events do not change what is shown. -/
theorem shown_reduceDevices {payload} (h : state'.devices = reduceDevices state occurredAt payload)
    (hpresence : ∀ change, payload ≠ .presenceChanged change)
    (hpolicy : ∀ policy, payload ≠ .policyChanged policy) : state'.shown id = state.shown id := by
  have hshown : ∀ devices, state'.devices = devices →
      ((devices.get id).getD (placeholder id)) = ((state.devices.get id).getD (placeholder id)) →
      state'.shown id = state.shown id := by
    rintro _ rfl heq
    rw [shown, current, heq]
    rfl
  cases payload with
  | presenceChanged change => exact absurd rfl (hpresence change)
  | policyChanged policy => exact absurd rfl (hpolicy policy)
  | bandwidthFrame samples =>
    refine hshown _ h ?_
    -- a sample lists its device with the presence it had
    have hfold : ∀ (samples : List DeviceId) (devices : SortedMap DeviceId DeviceSnapshot),
        ((samples.foldl (fun devices id => devices.insert id
          ((devices.get id).getD (placeholder id))) devices).get id).getD (placeholder id) =
          (devices.get id).getD (placeholder id) := by
      intro samples
      induction samples with
      | nil => exact fun _ => rfl
      | cons sample samples ih =>
        intro devices
        rw [foldl_cons, ih, get_insert]
        split
        · next hid => rw [hid]; rfl
        · rfl
    exact hfold samples state.devices
  | _ => exact hshown _ h rfl

end Shown

end NeonHearth.Live
