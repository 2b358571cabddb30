import NeonHearth.Client.Validate
import NeonHearth.Policy.Engine

/-!
# The live store of the client

The store that the desktop client keeps of the devices (`stores/live.ts`): it starts with a snapshot and
follows the events one by one.  An event whose number is not the next one means that something was lost,
and the store then waits for a new snapshot (`needsResync`).

Since a message that does not pass the checks is dropped before it gets here, the store takes it for lost
as soon as the next event arrives.

* `deliver_follows` : the store follows acceptable events without a gap;
* `receive_again` : a message that comes again changes nothing.
-/

namespace NeonHearth.Client

open Events Policy List

/-! ### Records -/

/-- An object with arbitrary keys, in the order in which they were added. -/
abbrev Record (α : Type) := List (String × α)

def Record.put {α : Type} (r : Record α) (key : String) (a : α) : Record α :=
  if (r.lookup key).isSome then r.map fun entry => if entry.1 = key then (key, a) else entry
  else r ++ [(key, a)]

/-- `slice(-n)`. -/
def lastOnes {α : Type} (n : ℕ) (l : List α) : List α := l.drop (l.length - n)

/-- Addition of doubles. -/
def plus (a b : ℕ) : ℕ := toDouble (a + b)

/-! ### Devices -/

structure PresenceView where
  state : Json
  observedAt : Json
  source : Json
  kind : Json

structure BandwidthView where
  available : Bool
  upload : Json
  download : Json
  coverage : Json
  observedAt : Json

structure PolicyProjection where
  evaluation : Json
  enforcementResult : Json
  undoAvailable : Json
  deliveryPending : Json

structure DeviceSnapshot where
  deviceId : String
  firstSeenAt : Json
  lastSeenAt : Json
  ownerName : Json
  ownerType : Json
  ownerConfirmed : Json
  presence : PresenceView
  evidence : Json
  identity : Json
  bandwidth : BandwidthView
  policy : Option PolicyProjection

structure GuardPolicy where
  deviceId : String
  evaluation : Json
  requestedAction : Json
  enforcementResult : Json
  undoAvailable : Json
  deliveryPending : Json

structure ThroughputPoint where
  occurredAt : Json
  upload : ℕ
  download : ℕ

structure Snapshot where
  sequence : ℕ
  devices : List DeviceSnapshot
  serviceStatus : Json

structure LiveState where
  sequence : ℕ
  connected : Bool
  needsResync : Bool
  serviceStatus : Json
  devices : Record DeviceSnapshot
  deviceOrder : List String
  throughput : List ThroughputPoint
  timeline : List Json
  coverage : String
  aggregate : ℕ × ℕ
  policies : Record GuardPolicy

def initialLiveState : LiveState where
  sequence := 0
  connected := false
  needsResync := false
  serviceStatus := .string "unknown"
  devices := []
  deviceOrder := []
  throughput := []
  timeline := []
  coverage := "unavailable"
  aggregate := (0, 0)
  policies := []

/-- The field has this text. -/
def isExactly (value : Json) (text : String) : Bool := value.string? == some text

/-- An action that blocks a device, verified. -/
def isVerifiedBlock (result action : Json) : Bool :=
  isExactly result "verified" && (isExactly action "quarantine" || isExactly action "permanent_ban")

def hasVerifiedBlock (policy : Option PolicyProjection) : Bool :=
  policy.any fun policy =>
    isVerifiedBlock policy.enforcementResult (policy.evaluation.field "requested_action")

def summarize (state : LiveState) : LiveState :=
  let bandwidth := (state.devices.map (·.2.bandwidth)).filter (·.available)
  let coverages := (bandwidth.filterMap (·.coverage.string?)).dedup
  { state with
    aggregate :=
      (bandwidth.foldl (fun sum value => plus sum (value.upload.number?.getD 0)) 0,
        bandwidth.foldl (fun sum value => plus sum (value.download.number?.getD 0)) 0)
    coverage := match coverages with
      | [] => "unavailable"
      | [coverage] => coverage
      | _ => "mixed" }

/-- A device of a snapshot; a verified block outranks the presence. -/
def DeviceSnapshot.effective (device : DeviceSnapshot) : DeviceSnapshot :=
  if hasVerifiedBlock device.policy then
    { device with presence := { device.presence with
        state := .string "blocked", source := .string "policy", kind := .string "enforcement_blocked" } }
  else device

def GuardPolicy.ofProjection (id : String) (policy : PolicyProjection) : GuardPolicy where
  deviceId := id
  evaluation := policy.evaluation
  requestedAction := policy.evaluation.field "requested_action"
  enforcementResult := policy.enforcementResult
  undoAvailable := policy.undoAvailable
  deliveryPending := policy.deliveryPending

/-- One device of a snapshot is added. -/
def addDevice (state : LiveState) (device : DeviceSnapshot) : LiveState :=
  { state with
    deviceOrder :=
      if (state.devices.lookup device.deviceId).isSome then state.deviceOrder
      else state.deviceOrder ++ [device.deviceId]
    devices := state.devices.put device.deviceId device.effective
    policies := match device.policy with
      | none => state.policies
      | some policy => state.policies.put device.deviceId (.ofProjection device.deviceId policy) }

def applySnapshot (_ : LiveState) (snapshot : Snapshot) : LiveState :=
  summarize (snapshot.devices.foldl addDevice
    { initialLiveState with sequence := snapshot.sequence, serviceStatus := snapshot.serviceStatus })

def placeholder (id : String) (occurredAt : Json) : DeviceSnapshot where
  deviceId := id
  firstSeenAt := occurredAt
  lastSeenAt := occurredAt
  ownerName := .null
  ownerType := .null
  ownerConfirmed := .bool false
  presence := ⟨.string "unknown", .null, .null, .null⟩
  evidence := .null
  identity := .object [("available", .bool false), ("classification", .null), ("confidence", .null)]
  bandwidth := ⟨false, .null, .null, .null, .null⟩
  policy := none

/-- The device, or a new one. -/
def LiveState.current (state : LiveState) (id : String) (occurredAt : Json) : DeviceSnapshot :=
  (state.devices.lookup id).getD (placeholder id occurredAt)

/-- A device that is new is listed last. -/
def LiveState.listed (state : LiveState) (id : String) : LiveState :=
  { state with
    deviceOrder := if (state.devices.lookup id).isSome then state.deviceOrder
      else state.deviceOrder ++ [id] }

/-! ### Events -/

section

variable (event : Json)

/-- The payload is of this kind. -/
def hasKind (kind : String) : Bool := isExactly ((event.field "payload").field "type") kind

def payloadData : Json := (event.field "payload").field "data"

def textOf (value : Json) : String := value.string?.getD ""

def reduceStatus (next : LiveState) : LiveState :=
  if hasKind event "service_status" then
    { next with serviceStatus := (payloadData event).field "state" }
  else next

/-- Discovery cannot lift a verified block. -/
def reducePresence (next : LiveState) : LiveState :=
  if hasKind event "presence_changed" then
    let data := payloadData event
    let id := textOf (data.field "device_id")
    let current := next.current id (event.field "occurred_at")
    let next := next.listed id
    if isExactly current.presence.state "blocked" then next
    else { next with devices := next.devices.put id { current with
      lastSeenAt := event.field "occurred_at"
      presence := ⟨data.field "to", data.field "occurred_at", data.field "trigger_source",
        data.field "trigger_kind"⟩ } }
  else next

/-- One sample of a frame, with the totals so far. -/
def reduceSample (next : LiveState × ℕ × ℕ) (sample : Json) : LiveState × ℕ × ℕ :=
  let (next, upload, download) := next
  let id := textOf (sample.field "device_id")
  let current := next.current id (event.field "occurred_at")
  let next := next.listed id
  ({ next with devices := next.devices.put id { current with
      lastSeenAt := event.field "occurred_at"
      bandwidth := ⟨true, sample.field "upload_bytes_per_second",
        sample.field "download_bytes_per_second", sample.field "coverage",
        (payloadData event).field "observed_at"⟩ } },
    plus upload ((sample.field "upload_bytes_per_second").number?.getD 0),
    plus download ((sample.field "download_bytes_per_second").number?.getD 0))

def reduceBandwidth (next : LiveState) : LiveState :=
  if hasKind event "bandwidth_frame" then
    let samples := ((payloadData event).field "samples").items?.getD []
    let (next, upload, download) := samples.foldl (reduceSample event) (next, 0, 0)
    { next with
      aggregate := (upload, download)
      throughput := lastOnes 240
        (next.throughput ++ [⟨event.field "occurred_at", upload, download⟩]) }
  else next

def reducePolicy (next : LiveState) : LiveState :=
  if hasKind event "policy_changed" then
    let policy := payloadData event
    let id := textOf (policy.field "device_id")
    let action := policy.field "requested_action"
    let result := policy.field "enforcement_result"
    let guard : GuardPolicy :=
      ⟨id, policy.field "evaluation", action, result, policy.field "undo_available", .bool false⟩
    let next := { next with policies := next.policies.put id guard }
    let verifiedBlock := isVerifiedBlock result action
    let verifiedRelease := isExactly result "verified" && isExactly action "none" &&
      isExactly ((policy.field "evaluation").field "reason") "owner_approved"
    if verifiedBlock || verifiedRelease then
      let current := next.current id (event.field "occurred_at")
      let next := next.listed id
      { next with devices := next.devices.put id { current with
        presence := ⟨.string (if verifiedBlock then "blocked" else "unknown"),
          event.field "occurred_at", .string "policy",
          .string (if verifiedBlock then "enforcement_blocked" else "enforcement_unblocked")⟩ } }
    else next
  else next

end

def LiveState.lost (state : LiveState) : LiveState :=
  { state with connected := false, needsResync := true }

def reduceLiveMessage (state : LiveState) (message : Json) : LiveState :=
  if state.needsResync then state
  else if isExactly (message.field "type") "resync_required" then state.lost
  else
    let event := message.field "data"
    let sequence := (event.field "sequence").number?.getD 0
    if sequence ≤ state.sequence then state
    else if plus state.sequence 1 < sequence then state.lost
    else
      let next := { state with
        sequence := sequence
        connected := true
        timeline := lastOnes 120 (state.timeline ++ [message]) }
      summarize (reducePolicy event (reduceBandwidth event (reducePresence event
        (reduceStatus event next))))

/-- A message from the socket, as `openEvents` takes it: one that is not valid is ignored. -/
def receive (state : LiveState) (message : Json) : LiveState :=
  if isServerMessage message then reduceLiveMessage state message else state

/-! ### What reducing leaves alone -/

/-- The states have the same place in the stream. -/
def SamePlace (s t : LiveState) : Prop := t.sequence = s.sequence ∧ t.needsResync = s.needsResync

section

variable (event : Json) (state : LiveState)

theorem samePlace_summarize : SamePlace state (summarize state) := ⟨rfl, rfl⟩

theorem samePlace_reduceStatus : SamePlace state (reduceStatus event state) := by
  unfold reduceStatus
  split_ifs <;> exact ⟨rfl, rfl⟩

theorem samePlace_reducePresence : SamePlace state (reducePresence event state) := by
  unfold reducePresence
  dsimp only
  split_ifs <;> exact ⟨rfl, rfl⟩

theorem samePlace_reduceSamples (samples : List Json) (totals : ℕ × ℕ) :
    SamePlace state (samples.foldl (reduceSample event) (state, totals)).1 := by
  induction samples generalizing state totals with
  | nil => exact ⟨rfl, rfl⟩
  | cons sample samples ih => exact ih _ _

theorem samePlace_reduceBandwidth : SamePlace state (reduceBandwidth event state) := by
  unfold reduceBandwidth
  have hsamples := samePlace_reduceSamples event state
    (((payloadData event).field "samples").items?.getD []) (0, 0)
  split_ifs
  · rcases hreduced : foldl (reduceSample event) (state, 0, 0)
      (((payloadData event).field "samples").items?.getD []) with ⟨next, upload, download⟩
    rw [hreduced] at hsamples
    dsimp only
    rw [hreduced]
    exact ⟨hsamples.1, hsamples.2⟩
  · exact ⟨rfl, rfl⟩

theorem samePlace_reducePolicy : SamePlace state (reducePolicy event state) := by
  unfold reducePolicy
  dsimp only
  split_ifs <;> exact ⟨rfl, rfl⟩

theorem samePlace_addDevices (devices : List DeviceSnapshot) :
    SamePlace state (devices.foldl addDevice state) := by
  induction devices generalizing state with
  | nil => exact ⟨rfl, rfl⟩
  | cons device devices ih => exact ih _

end

theorem SamePlace.trans {s t u} (h : SamePlace s t) (h' : SamePlace t u) : SamePlace s u :=
  ⟨h'.1.trans h.1, h'.2.trans h.2⟩

theorem applySnapshot_place (state snapshot) :
    (applySnapshot state snapshot).sequence = snapshot.sequence ∧
      (applySnapshot state snapshot).needsResync = false :=
  (samePlace_addDevices _ snapshot.devices).trans (samePlace_summarize _)

/-! ### Following the stream -/

/-- **The next event moves the store by one**, if the client accepts it. -/
theorem receive_next {state e}
    (hlive : state.needsResync = false) (hnext : e.sequence = state.sequence + 1)
    (h : Acceptable e) :
    (receive state (messageJson (.event e))).sequence = state.sequence + 1 ∧
      (receive state (messageJson (.event e))).needsResync = false := by
  have hsafe : state.sequence + 1 < 2 ^ 53 := hnext ▸ h.1
  have htype : isExactly ((messageJson (.event e)).field "type") "resync_required" = false := by
    simp [messageJson, taggedJson, isExactly]
  have hsequence : (((messageJson (.event e)).field "data").field "sequence").number?.getD 0 =
      state.sequence + 1 := by
    simp [messageJson, taggedJson, envelopeJson, hnext, toDouble_eq_self hsafe]
  rw [receive, if_pos ((isServerMessage_event e).2 h), reduceLiveMessage, hlive, htype]
  dsimp only
  rw [hsequence, plus, toDouble_eq_self hsafe, if_neg (by decide), if_neg (by decide),
    if_neg (by omega), if_neg (by omega)]
  exact ((((samePlace_reduceStatus _ _).trans (samePlace_reducePresence _ _)).trans
    (samePlace_reduceBandwidth _ _)).trans (samePlace_reducePolicy _ _)).trans
      (samePlace_summarize _)

/-- The store after the events have been delivered. -/
def deliver (state : LiveState) (events : List (EventEnvelope EventPayload)) : LiveState :=
  events.foldl (fun state e => receive state (messageJson (.event e))) state

/-- The events are numbered one after another, from the number after the given one. -/
def ContiguousFrom (s : ℕ) (events : List (EventEnvelope EventPayload)) : Prop :=
  events.map (·.sequence) = List.range' (s + 1) events.length

theorem deliver_place {state events}
    (hlive : state.needsResync = false) (hcontiguous : ContiguousFrom state.sequence events)
    (h : ∀ e ∈ events, Acceptable e) :
    (deliver state events).needsResync = false ∧
      (deliver state events).sequence = state.sequence + events.length := by
  induction events generalizing state with
  | nil => exact ⟨hlive, rfl⟩
  | cons e events ih =>
    rw [ContiguousFrom, map_cons, length_cons, range'_succ, cons.injEq]
      at hcontiguous
    obtain ⟨hsequence, hresync⟩ :=
      receive_next hlive hcontiguous.1 (h e mem_cons_self)
    have hrest := ih hresync (hsequence ▸ hcontiguous.2) fun e' he' => h e' (mem_cons_of_mem _ he')
    refine ⟨hrest.1, hrest.2.trans ?_⟩
    rw [hsequence, length_cons]
    omega

theorem ContiguousFrom.of_prefix {s : ℕ} {events received}
    (h : ContiguousFrom s events) (hreceived : received <+: events) : ContiguousFrom s received := by
  obtain ⟨rest, rfl⟩ := hreceived
  rw [ContiguousFrom, map_append, length_append, range'_append_1.symm] at h
  exact (append_inj h (by simp)).1

/-- **The store follows the events of the service**: whatever the snapshot, after each of the events that
follow it in the stream the store does not want a new snapshot and has the number of the event, just
when the client accepts all of them. -/
theorem deliver_follows (state : LiveState) (snapshot : Snapshot)
    (events : List (EventEnvelope EventPayload))
    (hcontiguous : ContiguousFrom snapshot.sequence events) :
    (∀ e ∈ events, Acceptable e) ↔ ∀ received, received <+: events →
      (deliver (applySnapshot state snapshot) received).needsResync = false ∧
        (deliver (applySnapshot state snapshot) received).sequence =
          snapshot.sequence + received.length := by
  constructor
  · intro h received hreceived
    obtain ⟨hsequence, hresync⟩ := applySnapshot_place state snapshot
    have hplace := deliver_place hresync (hsequence.symm ▸ hcontiguous.of_prefix hreceived)
      fun e he => h e (hreceived.subset he)
    rwa [hsequence] at hplace
  · -- an event that is dropped leaves the number as it was
    intro h e he
    obtain ⟨before, after, rfl⟩ := append_of_mem he
    have hbefore := (h before (prefix_append ..)).2
    have hafter := (h (before ++ [e]) ⟨after, by simp⟩).2
    by_contra hdropped
    rw [deliver, foldl_concat, ← deliver, receive,
      if_neg (mt (isServerMessage_event e).1 hdropped), hbefore] at hafter
    simp at hafter

/-- **The engine asks for the action that the client expects for the reason.** -/
theorem actionForReason_evaluatePolicy (p now) :
    actionForReason.lookup (reasonName (evaluatePolicy p now).reason) =
      some (actionName (evaluatePolicy p now).requestedAction) := by
  rw [lookup_actionForReason]
  refine congrArg (fun action => some (actionName action)) ?_
  have hattention : ∀ reason, settledAction reason = .quarantine →
      settledAction (p.quarantineOrAttention reason).reason =
        (p.quarantineOrAttention reason).requestedAction := by
    intro reason hreason
    unfold DevicePolicy.quarantineOrAttention
    split_ifs
    · rfl
    · exact hreason
  have hdeadline : settledAction (evaluateDeadline p now).reason =
      (evaluateDeadline p now).requestedAction := by
    unfold evaluateDeadline
    dsimp only
    split
    · rfl
    · split_ifs
      · refine hattention _ ?_
        unfold Identification.deadline
        split_ifs <;> rfl
      all_goals rfl
  unfold evaluatePolicy
  split
  · rfl
  · rfl
  · split_ifs
    · exact hattention _ rfl
    · rfl
    · exact hdeadline
  · split_ifs
    · exact hattention _ rfl
    · rfl

def sampleInstant : DateTime := ⟨seconds 1772282096, by decide, by decide⟩

def sampleSnapshot : Snapshot := ⟨0, [], .string "ready"⟩

/-- A device that came online, then its bandwidth, then a decision about it. -/
def sampleEvents : List (EventEnvelope EventPayload) :=
  let id : DeviceId := ⟨0x0195_4b2c_7d3e_7a1b_8c4d_5e6f_7a8b_9c0d, by decide⟩
  [⟨1, sampleInstant, .presenceChanged
      ⟨1, id, .unknown, .online, sampleInstant, "presence_evidence", "arp", "reply", sampleInstant, none,
        sampleInstant, none⟩⟩,
    ⟨2, sampleInstant, .bandwidthFrame
      ⟨250, sampleInstant, sampleInstant, [⟨id, ⟨100, 200⟩, 400, 800, .routerReported⟩]⟩⟩,
    ⟨3, sampleInstant, .policyChanged
      ⟨id, 1, .quarantine .ownerQuarantined, .quarantine, "owner request", .verified, true⟩⟩]

theorem sampleEvents_follows :
    (deliver (applySnapshot initialLiveState sampleSnapshot) sampleEvents).needsResync = false ∧
      (deliver (applySnapshot initialLiveState sampleSnapshot) sampleEvents).sequence = 3 := by
  have hchecked : ∀ e ∈ sampleEvents, isServerMessage (messageJson (.event e)) = true := by
    decide +kernel
  exact (deliver_follows initialLiveState sampleSnapshot sampleEvents rfl).1
    (fun e he => (isServerMessage_event e).1 (hchecked e he)) sampleEvents prefix_rfl

/-- A plan of the home was saved, and then the service reported its status. -/
def homeEvents : List (EventEnvelope EventPayload) :=
  [⟨1, sampleInstant, .homeChanged ⟨7, 1, "plan saved"⟩⟩,
    ⟨2, sampleInstant, .serviceStatus ⟨"ready", ""⟩⟩]

/-- The event about the home is dropped, and the store takes it for lost. -/
theorem homeEvents_lost : ContiguousFrom sampleSnapshot.sequence homeEvents ∧
    (deliver (applySnapshot initialLiveState sampleSnapshot) homeEvents).needsResync = true ∧
      (deliver (applySnapshot initialLiveState sampleSnapshot) homeEvents).sequence = 0 :=
  ⟨rfl, by decide +kernel, by decide +kernel⟩

/-- The message is not valid, the store waits for a snapshot, or it is past the number of the message. -/
def Past (m : Json) (s : LiveState) : Prop :=
  isServerMessage m = false ∨ s.needsResync = true ∨
    isExactly (m.field "type") "resync_required" = false ∧
      ((m.field "data").field "sequence").number?.getD 0 ≤ s.sequence

theorem receive_place (s m) : Past m (receive s m) ∧ s.sequence ≤ (receive s m).sequence ∧
    (s.needsResync = true → receive s m = s) ∧ (Past m s → receive s m = s) := by
  unfold receive reduceLiveMessage Past
  dsimp only
  split_ifs with hvalid hresync htype hold hgap
  · simp [hresync]
  · simp [LiveState.lost, hvalid, hresync, htype]
  · simp [hold, htype]
  · simp [LiveState.lost, hvalid, hresync, hold]
  · set next := summarize _
    have hplace : SamePlace _ next := ((((samePlace_reduceStatus _ _).trans
      (samePlace_reducePresence _ _)).trans (samePlace_reduceBandwidth _ _)).trans
        (samePlace_reducePolicy _ _)).trans (samePlace_summarize _)
    simp only [hplace.1, hplace.2]
    simp [hvalid, hresync, htype, hold]
    omega
  · simp [hvalid]

/-- **A message that comes again changes nothing**, whatever came in between. -/
theorem receive_again (state : LiveState) (before between after : List Json) (m : Json) :
    (before ++ m :: between ++ m :: after).foldl receive state =
      (before ++ m :: between ++ after).foldl receive state := by
  have hpast : Past m ((before ++ m :: between).foldl receive state) := by
    induction between using reverseRecOn with
    | nil => simpa using (receive_place _ m).1
    | append_singleton between m' ih =>
      rw [← cons_append, ← append_assoc, foldl_concat]
      obtain ⟨-, hle, hwaits, -⟩ := receive_place ((before ++ m :: between).foldl receive state) m'
      obtain h | h | h := ih
      · exact .inl h
      · exact .inr (.inl (by rw [hwaits h, h]))
      · exact .inr (.inr ⟨h.1, h.2.trans hle⟩)
  rw [foldl_append, foldl_cons, (receive_place _ m).2.2.2 hpast, ← foldl_append]

end NeonHearth.Client
