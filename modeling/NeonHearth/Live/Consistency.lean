import NeonHearth.Live.View
import NeonHearth.System.Machine

/-!
# Snapshots and the live view agree

The service commits what discovery observes and then publishes it, unless the device is blocked; it
records a verified block or release of the policy and then publishes the decision.  Both go on at
the same time, and a client may load a snapshot at any point and then folds in every event.

The order of stored transitions ranks control transitions above those of discovery for ever, so
after a block and a release a snapshot does not show what discovery sees next, while the client does
(`releasedRun_not_consistent`).  In every run whose steps meet `KeepsConsistent`, a device for which
nothing is under way is shown alike by both (`consistent_of_keepsConsistent`).
-/

namespace NeonHearth.Live

open Presence Policy SortedMap List Option PresenceTransition

structure ServiceState where
  engine : PresenceEngine
  transitions : List TransitionRow
  /-- The known devices with their stored decisions. -/
  devices : SortedMap DeviceId Decisions
  /-- Committed transitions that are still to be published. -/
  unpublished : List PresenceTransition
  /-- The first of them has been found not to be suppressed. -/
  cleared : Bool
  /-- The decisions under way. -/
  tasks : SortedMap DeviceId PolicyTask
  /-- The number of the last event of the bus. -/
  sequence : ℕ
  /-- A client that folds in every event. -/
  live : LiveState

inductive ServiceEvent where
  /-- Discovery takes evidence in and commits its transitions. -/
  | observe (e : PresenceEvidence) (arrival : DateTime)
  /-- Discovery asks whether the next transition is suppressed. -/
  | controlBlocks
  /-- Discovery publishes the next transition. -/
  | publishPresence
  /-- A verified block is recorded; its decision follows. -/
  | recordVerifiedBlock (policy : PolicyChanged) (at' : DateTime)
  /-- A verified release is recorded; its decision follows. -/
  | recordVerifiedUnblock (policy : PolicyChanged) (at' : DateTime)
  /-- A decision without a verified result. -/
  | decide (policy : PolicyChanged)
  | prepareDecisionPublication (d : DeviceId)
  | publishPolicy (d : DeviceId) (now : DateTime)
  | markDecisionPublished (d : DeviceId)
  /-- An event about something else. -/
  | publishOther (payload : EventPayload) (at' : DateTime)
  /-- The client loads a snapshot. -/
  | applySnapshot

namespace ServiceState

variable (s : ServiceState)

def snapshot : Snapshot := .ofTables s.sequence s.devices s.transitions

/-- `EventBus::publish`, with the client that reads the bus. -/
def publish (occurredAt : DateTime) (payload : EventPayload) : ServiceState :=
  { s with
    sequence := s.sequence + 1
    live := reduceLiveMessage s.live (.event ⟨s.sequence + 1, occurredAt, payload⟩) }

/-- A decision of a known device for which none is under way. -/
def Free (policy : PolicyChanged) : Prop :=
  s.devices.get policy.deviceId ≠ none ∧ s.tasks.get policy.deviceId = none ∧ Coherent policy
  deriving Decidable

def addDevice (d : DeviceId) : SortedMap DeviceId Decisions :=
  if s.devices.get d = none then s.devices.insert d ⟨none, none⟩ else s.devices

def setTask (d : DeviceId) (stage : Stage) (policy : PolicyChanged) : ServiceState :=
  { s with tasks := s.tasks.insert d ⟨stage, policy⟩ }

def step : ServiceEvent → Option ServiceState
  | .observe e arrival =>
    if s.unpublished ≠ [] then none
    else do
      let (events, engine) ← (s.engine.ingestEvents e arrival).toOption
      let rows ← (commitTransitions s.transitions events).toOption
      return { s with
        engine := engine
        transitions := rows
        devices := s.addDevice e.deviceId
        unpublished := events
        cleared := false }
  | .controlBlocks =>
    match s.unpublished with
    | [] => none
    | t :: rest =>
      if s.cleared then none
      else if verifiedControlBlocked s.transitions t.deviceId then some { s with unpublished := rest }
      else some { s with cleared := true }
  | .publishPresence =>
    match s.unpublished with
    | [] => none
    | t :: rest =>
      if s.cleared then
        some ({ s with unpublished := rest, cleared := false }.publish t.occurredAt
          (.presenceChanged t))
      else none
  | .recordVerifiedBlock policy at' =>
    if s.Free policy ∧ verifiedBlock policy then
      some ({ s with transitions := recordVerifiedBlock s.transitions policy.deviceId at' }.setTask
        policy.deviceId .recorded policy)
    else none
  | .recordVerifiedUnblock policy at' =>
    if s.Free policy ∧ policy.enforcementResult = .verified then
      some ({ s with transitions := recordVerifiedUnblock s.transitions policy.deviceId at' }.setTask
        policy.deviceId .recorded policy)
    else none
  | .decide policy =>
    if s.Free policy ∧ policy.enforcementResult ≠ .verified then
      some (s.setTask policy.deviceId .recorded policy)
    else none
  | .prepareDecisionPublication d =>
    match s.tasks.get d, s.devices.get d with
    | some ⟨.recorded, policy⟩, some row =>
      if row.published = some policy then some { s with tasks := s.tasks.erase d }
      else some ({ s with
        devices := s.devices.insert d { row with pending := some policy } }.setTask d .prepared policy)
    | _, _ => none
  | .publishPolicy d now =>
    match s.tasks.get d with
    | some ⟨.prepared, policy⟩ => some ((s.publish now (.policyChanged policy)).setTask d .delivered policy)
    | _ => none
  | .markDecisionPublished d =>
    match s.tasks.get d with
    | some ⟨.delivered, policy⟩ =>
      some { s with
        devices := s.devices.insert d ⟨some policy, none⟩
        tasks := s.tasks.erase d }
    | _ => none
  | .publishOther payload at' =>
    match payload with
    | .presenceChanged _ | .policyChanged _ => none
    | .serviceStatus | .bandwidthFrame _ | .homeChanged => some (s.publish at' payload)
  | .applySnapshot => some { s with live := applySnapshot s.live s.snapshot }

/-- Nothing about the device is under way. -/
def Settled (d : DeviceId) : Prop := s.tasks.get d = none ∧ ∀ t ∈ s.unpublished, t.deviceId ≠ d

/-- A client that loads a snapshot now shows what the one that folded in the events shows. -/
def Consistent : Prop :=
  ∀ d, s.Settled d → (applySnapshot s.live s.snapshot).shown d = s.live.shown d

/-- The step keeps snapshots and the live view together. -/
def KeepsConsistent : ServiceEvent → Prop
  | .observe _ arrival => inEra arrival
  | .publishPresence => ∀ t ∈ s.unpublished.head?,
      (latestControl s.transitions t.deviceId).all (·.toState = .blocked) ∨ t.toState = .unknown
  | .recordVerifiedBlock policy at' =>
    inEra at' ∧ ∀ r ∈ controlRows s.transitions policy.deviceId, r.occurredAt ≤ at'
  | .recordVerifiedUnblock policy at' => verifiedRelease policy ∧ inEra at' ∧
    ∀ r ∈ controlRows s.transitions policy.deviceId, r.occurredAt ≤ at'
  | _ => True

instance (event : ServiceEvent) : Decidable (s.KeepsConsistent event) := by
  cases event <;> dsimp only [KeepsConsistent] <;> infer_instance

end ServiceState

/-- All interleavings, from a service that knows no device. -/
def serviceMachine : Machine ServiceState ServiceEvent where
  init s := (∃ cfg, PresenceEngine.new cfg = .ok s.engine) ∧ s.transitions = [] ∧ s.devices = ∅ ∧
    s.unpublished = [] ∧ s.cleared = false ∧ s.tasks = ∅ ∧ s.sequence = 0 ∧
    s.live = initialLiveState
  step := ServiceState.step

/-! ### The service as each device sees it -/

namespace ServiceState

/-- What matters for one device. -/
def view (s : ServiceState) (d : DeviceId) : View where
  decisions := (s.devices.get d).getD ⟨none, none⟩
  task := s.tasks.get d
  control := (latestControl s.transitions d).map (·.toState)
  discovery := ((latestDiscovery s.transitions d).map (·.toState)).getD .unknown
  queue := (s.unpublished.filter (·.deviceId = d)).map (·.toState)
  shown := s.live.shown d

end ServiceState

variable {d : DeviceId} {events : List PresenceTransition}

structure ServiceInv (s : ServiceState) : Prop where
  unblocked : s.engine.Unblocked
  /-- Every stored transition is of a known device and older than what the engine emits next. -/
  rows : ∀ r ∈ s.transitions,
    s.devices.get r.deviceId ≠ none ∧ r.transitionId < s.engine.nextTransition
  discovery : ∀ r ∈ s.transitions, r.isControl = false →
    ∃ d, s.engine.devices.get r.deviceId = some d ∧ r.occurredAt ≤ d.lastEvaluation
  tasks : ∀ d, s.tasks.get d ≠ none → s.devices.get d ≠ none
  sync : s.live.needsResync = false ∧ s.live.sequence = s.sequence
  views : ∀ d, (s.view d).Ok d

variable {s s' : ServiceState}

open ServiceState

/-- A snapshot of the service shows for each device what its view says. -/
theorem ServiceInv.shown_snapshot (h : ServiceInv s) (d) :
    (applySnapshot s.live s.snapshot).shown d = (s.view d).snapshot := by
  rw [snapshot, shown_applySnapshot, topTransition_eq, View.snapshot]
  cases hrow : s.devices.get d with
  | none =>
    have hrows : ∀ r ∈ s.transitions, r.deviceId ≠ d := by
      rintro r hr rfl
      exact (h.rows r hr).1 hrow
    have hcontrol : latestControl s.transitions d = none := by
      refine argmax_eq_none.2 (filter_eq_nil_iff.2 fun r hr => ?_)
      simp [hrows r hr]
    have hdiscovery : latestDiscovery s.transitions d = none := by
      refine argmax_eq_none.2 (filter_eq_nil_iff.2 fun r hr => ?_)
      simp [hrows r hr]
    simp [view, hrow, hcontrol, hdiscovery, Decisions.projected]
  | some row =>
    have hview : (s.view d).decisions = row := by simp [view, hrow]
    have hblock : hasVerifiedBlock
        (row.projected.map fun e => ⟨e.evaluation, e.enforcementResult⟩) =
          row.projected.any verifiedBlock := by
      cases hp : row.projected with
      | none => rfl
      | some e => exact hasVerifiedBlock_of_coherent ((h.views d).coherent_projected (by rw [hview, hp]))
    rw [hview]
    dsimp only
    rw [hblock]
    simp only [view]
    cases latestControl s.transitions d <;> rfl

theorem ServiceInv.publish_live (h : ServiceInv s) (at') (payload) :
    (s.publish at' payload).live.devices = reduceDevices s.live at' payload ∧
      (s.publish at' payload).live.needsResync = false ∧
      (s.publish at' payload).live.sequence = (s.publish at' payload).sequence := by
  -- the event comes next and is folded in
  rw [publish, reduceLiveMessage, if_neg (by simp [h.sync.1]), if_neg (by simp [h.sync.2]),
    if_neg (by simp [h.sync.2])]
  exact ⟨rfl, h.sync.1, rfl⟩

theorem view_publish (s : ServiceState) (at') (payload) (d) :
    (s.publish at' payload).view d =
      { s.view d with shown := (s.publish at' payload).live.shown d } := rfl

/-- A step that keeps the engine and the transitions. -/
theorem ServiceInv.of_tables (h : ServiceInv s) (hengine : s'.engine = s.engine)
    (hrows : s'.transitions = s.transitions)
    (hdevices : ∀ d, s.devices.get d ≠ none → s'.devices.get d ≠ none)
    (htasks : ∀ d, s'.tasks.get d ≠ none → s'.devices.get d ≠ none)
    (hsync : s'.live.needsResync = false ∧ s'.live.sequence = s'.sequence)
    (hviews : ∀ d, (s'.view d).Ok d) : ServiceInv s' where
  unblocked := hengine ▸ h.unblocked
  rows r hr := by
    rw [hengine]
    exact (h.rows r (hrows ▸ hr)).imp_left (hdevices r.deviceId)
  discovery r hr hc := hengine ▸ h.discovery r (hrows ▸ hr) hc
  tasks := htasks
  sync := hsync
  views := hviews

/-! ### Discovery -/

theorem get_addDevice (s : ServiceState) (d d') :
    ((s.addDevice d).get d').getD ⟨none, none⟩ = (s.devices.get d').getD ⟨none, none⟩ ∧
      (s.devices.get d' ≠ none → (s.addDevice d).get d' ≠ none) ∧ (s.addDevice d).get d ≠ none := by
  unfold addDevice
  split
  · next hnone =>
    refine ⟨?_, get_insert_ne_none, by simp⟩
    rw [get_insert]
    split
    · next heq => rw [heq, hnone]; rfl
    · rfl
  · next hsome => exact ⟨rfl, id, hsome⟩

/-- What discovery committed, as the table stores it. -/
structure Commit (s s' : ServiceState) (id : DeviceId) (arrival : DateTime)
    (events : List PresenceTransition) : Prop where
  rows : s'.transitions = s.transitions ++ events.map row
  emitted : ∀ t ∈ events, EmittedAt id arrival t
  ids : events.Pairwise fun a b => a.transitionId < b.transitionId
  range : ∀ t ∈ events, s.engine.nextTransition ≤ t.transitionId ∧
    t.transitionId < s'.engine.nextTransition
  next : s.engine.nextTransition ≤ s'.engine.nextTransition

variable {arrival : DateTime} {policy : PolicyChanged}

theorem Commit.mem_row {id} (h : Commit s s' id arrival events) {r}
    (hr : r ∈ events.map row) : r.deviceId = id ∧ r.isControl = false ∧ r.occurredAt = arrival := by
  obtain ⟨t, ht, rfl⟩ := mem_map.1 hr
  exact ⟨(h.emitted t ht).deviceId, (h.emitted t ht).kind, (h.emitted t ht).occurredAt⟩

/-- A commit of discovery, as each device sees it. -/
theorem Commit.view_eq {id} (h : Commit s s' id arrival events) (hinv : ServiceInv s)
    (hold : ∀ r ∈ discoveryRows s.transitions id, r.occurredAt ≤ arrival)
    (hempty : s.unpublished = []) (hqueue : s'.unpublished = events)
    (hdevices : s'.devices = s.addDevice id) (htasks : s'.tasks = s.tasks) (hlive : s'.live = s.live)
    (d) :
    s'.view d = if d = id then
      { s.view d with
        queue := events.map (·.toState)
        discovery := (events.map (·.toState)).getLast?.getD (s.view d).discovery }
      else s.view d := by
  have hcontrol : latestControl s'.transitions d = latestControl s.transitions d := by
    rw [h.rows]
    exact latestControl_append fun r hr _ => (h.mem_row hr).2.1
  have hdecisions : (s'.devices.get d).getD ⟨none, none⟩ = (s.devices.get d).getD ⟨none, none⟩ := by
    rw [hdevices]
    exact (get_addDevice s id d).1
  split
  · next hd =>
    subst hd
    have hdiscovery := latestDiscovery_append_of_lt (fun r hr => h.mem_row hr)
      (fun r hr => ⟨hold r hr, ?_⟩) (?_ : (events.map row).Pairwise
        fun a b => a.transitionId < b.transitionId)
    · have hfilter : events.filter (·.deviceId = d) = events :=
        filter_eq_self.2 fun t ht => by simp [(h.emitted t ht).deviceId]
      rw [← h.rows] at hdiscovery
      simp only [view, hcontrol, hdecisions, htasks, hlive, hqueue, hfilter,
        hdiscovery, getLast?_map]
      congr 1
      cases events.getLast? <;> rfl
    · intro x hx
      obtain ⟨t, ht, rfl⟩ := mem_map.1 hx
      have hlt := (hinv.rows r (mem_discoveryRows.1 hr).1).2
      have hle := (h.range t ht).1
      simp only [row]
      omega
    · refine pairwise_map.2 (h.ids.imp fun hlt => ?_)
      simp only [row]
      omega
  · next hd =>
    have hdiscovery : latestDiscovery s'.transitions d = latestDiscovery s.transitions d := by
      rw [h.rows]
      refine latestDiscovery_append fun r hr hrd => absurd ?_ hd
      exact hrd.symm.trans (h.mem_row hr).1
    have hfilter : events.filter (·.deviceId = d) = [] :=
      filter_eq_nil_iff.2 fun t ht hrd =>
        hd ((of_decide_eq_true hrd).symm.trans (h.emitted t ht).deviceId)
    simp [view, hcontrol, hdiscovery, hdecisions, htasks, hlive, hqueue, hfilter, hempty]

theorem commit_of_emitted {id} (hinv : ServiceInv s)
    (he : Emitted s.engine id arrival events s'.engine)
    (hc : commitTransitions s.transitions events = .ok s'.transitions) :
    Commit s s' id arrival events := by
  have hids : events.Pairwise fun a b => a.transitionId < b.transitionId := by
    have := pairwise_lt_range' (s := s.engine.nextTransition) (n := events.length)
    rw [← he.ids] at this
    exact pairwise_map.1 this
  have hrange : ∀ t ∈ events, s.engine.nextTransition ≤ t.transitionId ∧
      t.transitionId < s'.engine.nextTransition := by
    intro t ht
    have hmem : t.transitionId ∈ range' s.engine.nextTransition events.length :=
      he.ids ▸ mem_map_of_mem ht
    rw [he.next]
    exact mem_range'_1.1 hmem
  refine ⟨commitTransitions_eq hc (fun r hr t ht heq => ?_) hids, he.transitions, hids, hrange, ?_⟩
  · have hlt := (hinv.rows r hr).2
    have hle := (hrange t ht).1
    omega
  · rw [he.next]
    omega

/-- What an observation does to the service. -/
structure Observation (s s' : ServiceState) (e : PresenceEvidence) (arrival : DateTime)
    (events : List PresenceTransition) : Prop where
  empty : s.unpublished = []
  ingest : s.engine.ingestEvents e arrival = .ok (events, s'.engine)
  commit : commitTransitions s.transitions events = .ok s'.transitions
  devices : s'.devices = s.addDevice e.deviceId
  queue : s'.unpublished = events
  tasks : s'.tasks = s.tasks
  sequence : s'.sequence = s.sequence
  live : s'.live = s.live

theorem observe_spec {e} (hs : s.step (.observe e arrival) = some s') :
    ∃ events, Observation s s' e arrival events := by
  rw [step] at hs
  split at hs
  · cases hs
  next hempty =>
  obtain ⟨⟨events, engine⟩, hingest, hs⟩ := bind_eq_some_iff.1 hs
  obtain ⟨rows, hcommit, hs⟩ := bind_eq_some_iff.1 hs
  cases hs
  exact ⟨events, not_not.1 hempty, Except.toOption_eq_some.1 hingest,
    Except.toOption_eq_some.1 hcommit, rfl, rfl, rfl, rfl, rfl⟩

section

variable (h : ServiceInv s)
include h

theorem ServiceInv.observe {e} (hs : s.step (.observe e arrival) = some s') : ServiceInv s' := by
  obtain ⟨events, hobs⟩ := observe_spec hs
  have hknown : ∀ d, s.devices.get d ≠ none → s'.devices.get d ≠ none := by
    rw [hobs.devices]
    exact fun d => (get_addDevice s e.deviceId d).2.1
  have htasks : ∀ d, s'.tasks.get d ≠ none → s'.devices.get d ≠ none := by
    rw [hobs.tasks]
    exact fun d hd => hknown d (h.tasks d hd)
  have hsync : s'.live.needsResync = false ∧ s'.live.sequence = s'.sequence := by
    rw [hobs.live, hobs.sequence]
    exact h.sync
  obtain ⟨rfl, hengine, -⟩ | ⟨hemitted, hmono⟩ := ingestEvents_observed hobs.ingest h.unblocked
  · -- the evidence is ignored
    have hrows : s'.transitions = s.transitions := by
      simpa using commitTransitions_eq hobs.commit (by simp) List.Pairwise.nil
    have hview : ∀ d, s'.view d = s.view d := by
      intro d
      simp only [view, hrows, hobs.empty, hobs.queue, hobs.devices, hobs.tasks,
        hobs.live, (get_addDevice s e.deviceId d).1]
    exact h.of_tables hengine hrows hknown htasks hsync fun d => hview d ▸ h.views d
  · have hc : Commit s s' e.deviceId arrival events := commit_of_emitted h hemitted hobs.commit
    obtain ⟨d₁, hd₁, hblocked, hlast⟩ := hemitted.device
    have hold : ∀ r ∈ s.transitions, r.isControl = false → r.deviceId = e.deviceId →
        r.occurredAt ≤ arrival := by
      intro r hr hcontrol hid
      obtain ⟨d, hd, hle⟩ := h.discovery r hr hcontrol
      exact hle.trans (hmono d (hid ▸ hd))
    refine ⟨?_, ?_, ?_, htasks, hsync, fun d => ?_⟩
    · intro id d hd
      by_cases hid : id = e.deviceId
      · subst hid
        obtain rfl := some.inj (hd₁.symm.trans hd)
        exact hblocked
      · exact h.unblocked id d (hemitted.others id hid ▸ hd)
    · intro r hr
      rw [hc.rows] at hr
      obtain hr | hr := mem_append.1 hr
      · have hlt := (h.rows r hr).2
        have hle := hc.next
        exact ⟨hknown _ (h.rows r hr).1, by omega⟩
      · obtain ⟨x, hx, rfl⟩ := mem_map.1 hr
        refine ⟨?_, Int.ofNat_lt.2 (hc.range x hx).2⟩
        rw [hobs.devices, (hc.mem_row hr).1]
        exact (get_addDevice s e.deviceId e.deviceId).2.2
    · intro r hr hcontrol
      rw [hc.rows] at hr
      obtain hr | hr := mem_append.1 hr
      · by_cases hid : r.deviceId = e.deviceId
        · exact ⟨d₁, hid ▸ hd₁, hlast ▸ hold r hr hcontrol hid⟩
        · rw [hemitted.others _ hid]
          exact h.discovery r hr hcontrol
      · obtain ⟨hid, -, hat⟩ := hc.mem_row hr
        exact ⟨d₁, hid ▸ hd₁, by rw [hat, hlast]⟩
    · have hrows : ∀ r ∈ discoveryRows s.transitions e.deviceId, r.occurredAt ≤ arrival := by
        intro r hr
        obtain ⟨hr, hid, hcontrol⟩ := mem_discoveryRows.1 hr
        exact hold r hr hcontrol hid
      rw [hc.view_eq h hrows hobs.empty hobs.queue hobs.devices hobs.tasks hobs.live d]
      split
      · have hqueue : (s.view d).queue = [] := by simp [view, hobs.empty]
        refine (h.views d).commit hqueue fun state hstate => ?_
        obtain ⟨x, hx, rfl⟩ := mem_map.1 hstate
        exact (hemitted.transitions x hx).toState
      · exact h.views d

theorem ServiceInv.controlBlocks (hs : s.step .controlBlocks = some s') : ServiceInv s' := by
  rw [step] at hs
  split at hs
  · cases hs
  next t rest hqueue =>
  split at hs
  · cases hs
  split at hs
  · next hblocked =>
    cases hs
    refine h.of_tables rfl rfl (fun _ => id) h.tasks h.sync fun d => ?_
    by_cases hd : t.deviceId = d
    · -- the suppressed transition leaves the queue of its device
      have hview : view { s with unpublished := rest } d =
          { s.view d with queue := (s.view d).queue.tail } := by
        simp [view, hqueue, hd]
      have hcontrol : (s.view d).control ≠ none := by
        obtain ⟨r, hr, -⟩ := any_eq_true _ _ |>.1 hblocked
        simp [view, ← hd, hr]
      rw [hview]
      exact (h.views d).suppress hcontrol
    · have hview : view { s with unpublished := rest } d = s.view d := by
        simp [view, hqueue, hd]
      rw [hview]
      exact h.views d
  · cases hs
    exact h.of_tables rfl rfl (fun _ => id) h.tasks h.sync h.views

theorem ServiceInv.publishPresence (hg : s.KeepsConsistent .publishPresence)
    (hs : s.step .publishPresence = some s') : ServiceInv s' := by
  rw [step] at hs
  split at hs
  · cases hs
  next t rest hqueue =>
  split at hs
  swap
  · cases hs
  cases hs
  set s₀ : ServiceState := { s with unpublished := rest, cleared := false } with hs₀
  have hlive : (s₀.publish t.occurredAt (.presenceChanged t)).live.devices =
      reduceDevices s.live t.occurredAt (.presenceChanged t) ∧ _ := h.publish_live ..
  refine h.of_tables rfl rfl (fun _ => id) h.tasks hlive.2 fun d => ?_
  rw [view_publish, shown_presenceChanged d hlive.1]
  by_cases hd : t.deviceId = d
  · have hfirst : (s.view d).queue = t.toState :: (s₀.view d).queue := by
      simp [view, hs₀, hqueue, hd]
    have hmask : (if d = t.deviceId ∧ s.live.shown d ≠ .blocked then t.toState
        else s.live.shown d) = View.masked (s.live.shown d) t.toState := by
      by_cases hb : s.live.shown d = .blocked
      · rw [if_neg fun hc => hc.2 hb, View.masked, if_neg (not_not.2 hb)]
      · rw [if_pos ⟨hd.symm, hb⟩, View.masked, if_pos hb]
    have hguard : ∀ c, (s.view d).control = some c → c = .blocked ∨ t.toState = .unknown := by
      intro c hc
      obtain ⟨r, hr, rfl⟩ := map_eq_some_iff.1 hc
      refine (hg t (by simp [hqueue])).imp_left fun hall => ?_
      rw [hd, hr] at hall
      simpa using hall
    rw [hmask]
    exact (h.views d).publishPresence hfirst hguard
  · have hview : s₀.view d = s.view d := by
      simp [view, hs₀, hqueue, hd]
    rw [if_neg fun hc => hd hc.1.symm, hview]
    exact h.views d

/-! ### Decisions -/

/-- Recording a control transition of a device with its decision. -/
theorem ServiceInv.record {state} (hfree : s.Free policy)
    (heffect : effect policy = some state) (new)
    (hnew : ∀ r ∈ new, r.deviceId = policy.deviceId ∧ r.isControl = true ∧ r.transitionId < 0)
    (hcontrol : (latestControl (s.transitions ++ new) policy.deviceId).map (·.toState) = some state) :
    ServiceInv ({ s with transitions := s.transitions ++ new }.setTask policy.deviceId .recorded
      policy) := by
  obtain ⟨hdevice, htask, hcoherent⟩ := hfree
  refine ⟨h.unblocked, fun r hr => ?_, fun r hr hc => ?_, fun d hd => ?_, h.sync, fun d => ?_⟩
  · obtain hr | hr := mem_append.1 hr
    · exact h.rows r hr
    · obtain ⟨hid, -, hneg⟩ := hnew r hr
      exact ⟨hid ▸ hdevice, hneg.trans_le (Int.natCast_nonneg _)⟩
  · obtain hr | hr := mem_append.1 hr
    · exact h.discovery r hr hc
    · rw [(hnew r hr).2.1] at hc
      cases hc
  · by_cases hid : d = policy.deviceId
    · exact hid ▸ hdevice
    · exact h.tasks d (by rwa [setTask, get_insert_of_ne _ _ hid] at hd)
  · have hdiscovery : latestDiscovery (s.transitions ++ new) d = latestDiscovery s.transitions d :=
      latestDiscovery_append fun r hr _ => (hnew r hr).2.1
    by_cases hid : d = policy.deviceId
    · subst hid
      have hview : view ({ s with transitions := s.transitions ++ new }.setTask
          policy.deviceId .recorded policy) policy.deviceId =
          { s.view policy.deviceId with
            control := some state
            task := some ⟨.recorded, policy⟩ } := by
        simp [view, setTask, hcontrol, hdiscovery]
      rw [hview]
      exact (h.views _).record htask heffect ⟨hcoherent, rfl⟩
    · have hview : view ({ s with transitions := s.transitions ++ new }.setTask
          policy.deviceId .recorded policy) d = s.view d := by
        have hsame : latestControl (s.transitions ++ new) d = latestControl s.transitions d :=
          latestControl_append fun r hr hrd => absurd (hrd.symm.trans (hnew r hr).1) hid
        simp [view, setTask, hsame, hdiscovery, get_insert_of_ne _ _ hid]
      rw [hview]
      exact h.views d

variable {at' : DateTime}

theorem ServiceInv.recordVerifiedBlock (hg : s.KeepsConsistent (.recordVerifiedBlock policy at'))
    (hs : s.step (.recordVerifiedBlock policy at') = some s') : ServiceInv s' := by
  obtain ⟨⟨hfree, hblock⟩, ⟨⟩⟩ := ite_none_right_eq_some.1 hs
  have heffect := View.verifiedBlock_iff.1 hblock
  rw [Presence.recordVerifiedBlock]
  split
  · next hcurrent =>
    -- the device is blocked already, and by a control transition
    have hcontrol : (latestControl s.transitions policy.deviceId).map (·.toState) =
        some .blocked := by
      rw [topTransition_eq] at hcurrent
      cases hc : latestControl s.transitions policy.deviceId with
      | some r => rwa [hc] at hcurrent
      | none =>
        rw [hc, none_or] at hcurrent
        refine absurd ?_ (h.views policy.deviceId).discovery
        simp [view, hcurrent]
    simpa using h.record hfree heffect [] (by simp) (by simpa using hcontrol)
  · refine h.record hfree heffect _ (fun r hr => ?_) ?_
    · rw [mem_singleton.1 hr]
      exact ⟨rfl, rfl, nextControlId_neg _⟩
    · refine (congrArg _ (latestControl_concat ?_ ?_ ?_ hg.2)).trans ?_ <;> rfl

theorem ServiceInv.recordVerifiedUnblock
    (hg : s.KeepsConsistent (.recordVerifiedUnblock policy at'))
    (hs : s.step (.recordVerifiedUnblock policy at') = some s') : ServiceInv s' := by
  obtain ⟨hcond, ⟨⟩⟩ := ite_none_right_eq_some.1 hs
  obtain ⟨hrelease, -, hnew⟩ := hg
  have heffect : effect policy = some .unknown := by
    have hblock : verifiedBlock policy = false := by
      simp only [verifiedRelease, Bool.and_eq_true, decide_eq_true_eq] at hrelease
      simp [verifiedBlock, hrelease.1.2, RequestedAction.isBlock]
    simp [effect, hblock, hrelease]
  refine h.record hcond.1 heffect _ (fun r hr => ?_) ?_
  · rw [mem_singleton.1 hr]
    exact ⟨rfl, rfl, nextControlId_neg _⟩
  · refine (congrArg _ (latestControl_concat ?_ ?_ ?_ hnew)).trans ?_ <;> rfl

/-- A step that changes the decisions and the task of one device, and what the client shows. -/
theorem ServiceInv.of_view (hengine : s'.engine = s.engine)
    (hrows : s'.transitions = s.transitions) (hqueue : s'.unpublished = s.unpublished)
    (hdevice : s'.devices.get d ≠ none)
    (hdevices : ∀ d', d' ≠ d → s'.devices.get d' = s.devices.get d')
    (htasks : ∀ d', d' ≠ d → s'.tasks.get d' = s.tasks.get d')
    (hshown : ∀ d', d' ≠ d → s'.live.shown d' = s.live.shown d')
    (hsync : s'.live.needsResync = false ∧ s'.live.sequence = s'.sequence)
    (hview : (s'.view d).Ok d) : ServiceInv s' := by
  refine h.of_tables hengine hrows (fun d' hd' => ?_) (fun d' hd' => ?_) hsync fun d' => ?_
  all_goals by_cases heq : d' = d
  · exact heq ▸ hdevice
  · rwa [hdevices d' heq]
  · exact heq ▸ hdevice
  · rw [hdevices d' heq]
    exact h.tasks d' (htasks d' heq ▸ hd')
  · exact heq ▸ hview
  · have hsame : s'.view d' = s.view d' := by
      simp [view, hrows, hqueue, hdevices d' heq, htasks d' heq, hshown d' heq]
    rw [hsame]
    exact h.views d'

theorem ServiceInv.decide (hs : s.step (.decide policy) = some s') : ServiceInv s' := by
  obtain ⟨⟨⟨hdevice, htask, hcoherent⟩, hresult⟩, ⟨⟩⟩ := ite_none_right_eq_some.1 hs
  have heffect : effect policy = none := by
    simp [effect, verifiedBlock, verifiedRelease, hresult]
  refine h.of_view rfl rfl rfl hdevice (fun _ _ => rfl)
    (fun d hd => get_insert_of_ne _ _ hd) (fun _ _ => rfl) h.sync ?_
  have hview : (s.setTask policy.deviceId .recorded policy).view policy.deviceId =
      { s.view policy.deviceId with task := some ⟨.recorded, policy⟩ } := by
    simp [view, setTask]
  rw [hview]
  exact (h.views _).decide htask heffect ⟨hcoherent, rfl⟩

theorem ServiceInv.prepareDecisionPublication
    (hs : s.step (.prepareDecisionPublication d) = some s') : ServiceInv s' := by
  rw [step] at hs
  split at hs
  swap
  · cases hs
  next policy row htask hrow =>
  have hdecisions : (s.view d).decisions = row := by simp [view, hrow]
  split at hs
  · next hsame =>
    cases hs
    refine h.of_view (d := d) rfl rfl rfl (by simp [hrow]) (fun _ _ => rfl)
      (fun d' hd' => get_erase_of_ne _ hd') (fun _ _ => rfl) h.sync ?_
    have hview : view { s with tasks := s.tasks.erase d } d =
        { s.view d with task := none } := by
      simp [view]
    rw [hview]
    exact (h.views d).skip htask (by rw [hdecisions, hsame])
  · cases hs
    refine h.of_view rfl rfl rfl (by simp [setTask])
      (fun d' hd' => get_insert_of_ne _ _ hd')
      (fun d' hd' => get_insert_of_ne _ _ hd') (fun _ _ => rfl) h.sync ?_
    have hview : view ({ s with
        devices := s.devices.insert d { row with pending := some policy } }.setTask d .prepared
          policy) d =
        { s.view d with
          decisions := { (s.view d).decisions with pending := some policy }
          task := some ⟨.prepared, policy⟩ } := by
      simp [view, setTask, hrow]
    rw [hview]
    exact (h.views d).prepare htask

theorem ServiceInv.publishPolicy {now}
    (hs : s.step (.publishPolicy d now) = some s') : ServiceInv s' := by
  rw [step] at hs
  split at hs
  swap
  · cases hs
  next policy htask =>
  cases hs
  obtain ⟨-, hid⟩ := (h.views d).own _ htask
  dsimp only at hid
  subst hid
  have hlive := h.publish_live now (.policyChanged policy)
  have hshown := fun id => shown_policyChanged id hlive.1
  refine h.of_view rfl rfl rfl (h.tasks _ (by simp [htask])) (fun _ _ => rfl)
    (fun d' hd' => get_insert_of_ne _ _ hd')
    (fun d' hd' => (hshown d').trans (if_neg hd')) hlive.2 ?_
  have hview : view ((s.publish now (.policyChanged policy)).setTask policy.deviceId
      .delivered policy) policy.deviceId =
      { s.view policy.deviceId with
        shown := (effect policy).getD (s.view policy.deviceId).shown
        task := some ⟨.delivered, policy⟩ } := by
    have hself := (hshown policy.deviceId).trans (if_pos rfl)
    simp only [view, setTask, hself, get_insert_self]
    rfl
  rw [hview]
  exact (h.views _).deliver htask

theorem ServiceInv.markDecisionPublished
    (hs : s.step (.markDecisionPublished d) = some s') : ServiceInv s' := by
  rw [step] at hs
  split at hs
  swap
  · cases hs
  next policy htask =>
  cases hs
  refine h.of_view rfl rfl rfl (by simp) (fun d' hd' => get_insert_of_ne _ _ hd')
    (fun d' hd' => get_erase_of_ne _ hd') (fun _ _ => rfl) h.sync ?_
  have hview : view { s with
      devices := s.devices.insert d ⟨some policy, none⟩
      tasks := s.tasks.erase d } d =
      { s.view d with decisions := ⟨some policy, none⟩, task := none } := by
    simp [view]
  rw [hview]
  exact (h.views d).acknowledge htask

/-! ### The client -/

theorem ServiceInv.publishOther {payload}
    (hs : s.step (.publishOther payload at') = some s') : ServiceInv s' := by
  have hother : (∀ change, payload ≠ .presenceChanged change) ∧
      (∀ policy, payload ≠ .policyChanged policy) ∧ s' = s.publish at' payload := by
    cases payload <;> simp_all [step]
  obtain ⟨hpresence, hpolicy, rfl⟩ := hother
  have hlive := h.publish_live at' payload
  refine h.of_tables rfl rfl (fun _ => id) h.tasks hlive.2 fun d => ?_
  rw [view_publish, shown_reduceDevices d hlive.1 hpresence hpolicy]
  exact h.views d

theorem ServiceInv.applySnapshot :
    ServiceInv { s with live := Live.applySnapshot s.live s.snapshot } := by
  refine h.of_tables rfl rfl (fun _ => id) h.tasks ⟨rfl, rfl⟩ fun d => ?_
  have hview : view { s with live := Live.applySnapshot s.live s.snapshot } d =
      { s.view d with shown := (s.view d).snapshot } := by
    rw [← h.shown_snapshot d]
    rfl
  rw [hview]
  exact (h.views d).resync

end

/-! ### Runs -/

theorem ServiceInv.init (h : serviceMachine.init s) : ServiceInv s := by
  obtain ⟨⟨cfg, hcfg⟩, hrows, hdevices, hqueue, -, htasks, hseq, hlive⟩ := h
  have hempty : s.engine.devices = ∅ := PresenceEngine.new_devices hcfg
  have hview : ∀ d, s.view d = ⟨⟨none, none⟩, none, none, .unknown, [], .unknown⟩ := by
    intro d
    simp only [view, hrows, hdevices, htasks, hqueue, hlive, get_empty]
    rfl
  refine ⟨fun id d hd => ?_, fun r hr => ?_, fun r hr => ?_, fun d hd => ?_, ?_, fun d => ?_⟩
  · simp [hempty] at hd
  · simp [hrows] at hr
  · simp [hrows] at hr
  · simp [htasks] at hd
  · rw [hlive, hseq]
    exact ⟨rfl, rfl⟩
  · rw [hview d]
    refine ⟨?_, ?_, ?_, ⟨?_, ?_, ?_⟩, ?_, ?_⟩ <;> simp [View.Reports, View.Agrees]

theorem ServiceInv.step (h : ServiceInv s) {event} (hg : s.KeepsConsistent event)
    (hs : s.step event = some s') : ServiceInv s' := by
  cases event with
  | observe e arrival => exact h.observe hs
  | controlBlocks => exact h.controlBlocks hs
  | publishPresence => exact h.publishPresence hg hs
  | recordVerifiedBlock policy at' => exact h.recordVerifiedBlock hg hs
  | recordVerifiedUnblock policy at' => exact h.recordVerifiedUnblock hg hs
  | decide policy => exact h.decide hs
  | prepareDecisionPublication d => exact h.prepareDecisionPublication hs
  | publishPolicy d now => exact h.publishPolicy hs
  | markDecisionPublished d => exact h.markDecisionPublished hs
  | publishOther payload at' => exact h.publishOther hs
  | applySnapshot =>
    cases hs
    exact h.applySnapshot

/-- **Snapshots and the live view agree** on every settled device in every run whose steps keep
them together. -/
theorem consistent_of_keepsConsistent
    (h : serviceMachine.Via ServiceState.KeepsConsistent s) : s.Consistent := by
  have hinv : ServiceInv s := h.invariant (fun _ => ServiceInv.init) fun _ _ _ hi hg hs => hi.step hg hs
  rintro d ⟨htask, hqueue⟩
  have hempty : (s.view d).queue = [] := by
    simpa [view, filter_eq_nil_iff] using hqueue
  rw [hinv.shown_snapshot d]
  exact (hinv.views d).shown_eq htask hempty

/-! ### Sample runs -/

/-- A service that starts with the default configuration and knows no device. -/
def newService : ServiceState where
  engine := ⟨.default, PresenceConfig.default_valid, ∅, 1⟩
  transitions := []
  devices := ∅
  unpublished := []
  cleared := false
  tasks := ∅
  sequence := 0
  live := initialLiveState

theorem newService_init : serviceMachine.init newService :=
  ⟨⟨.default, dif_pos PresenceConfig.default_valid⟩, rfl, rfl, rfl, rfl, rfl, rfl, rfl⟩

def laptop : DeviceId := 7

def traffic (n : Fin 20000) : ServiceEvent :=
  .observe ⟨laptop, "sensor-a", .traffic, halfSecond n, none⟩ (halfSecond n)

/-- A verified decision about the laptop. -/
def decision (evaluation : Evaluation) : PolicyChanged :=
  ⟨laptop, 1, evaluation, evaluation.requestedAction, "policy facts evaluated", .verified, false⟩

def publication (n : Fin 20000) : List ServiceEvent :=
  [.prepareDecisionPublication laptop, .publishPolicy laptop (halfSecond n),
    .markDecisionPublished laptop]

/-- The laptop is blocked and released. -/
def blockAndRelease : List ServiceEvent :=
  [.recordVerifiedBlock (decision (.quarantine .ownerQuarantined)) (halfSecond 23)] ++
    publication 23 ++
    [.recordVerifiedUnblock (decision (.visible .ownerApproved)) (halfSecond 24)] ++ publication 24

/-- The laptop joins after its release. -/
def releasedRun : List ServiceEvent :=
  [traffic 20] ++ blockAndRelease ++ [traffic 26, .controlBlocks, .publishPresence]

/-- The laptop has joined before it is blocked. -/
def joinedRun : List ServiceEvent :=
  [traffic 20, traffic 22, .controlBlocks, .publishPresence] ++ blockAndRelease

theorem releasedRun_not_consistent :
    ∃ s, serviceMachine.Reachable s ∧ s.Settled laptop ∧ s.live.shown laptop = .online ∧
      (applySnapshot s.live s.snapshot).shown laptop = .unknown ∧ ¬s.Consistent := by
  -- nothing is under way at the end of the run
  obtain ⟨s, hs, htask, hqueue, hlive, hsnapshot⟩ :
      ∃ s, serviceMachine.exec newService releasedRun = some s ∧ s.tasks.get laptop = none ∧
        s.unpublished.length = 0 ∧ s.live.shown laptop = .online ∧
        (applySnapshot s.live s.snapshot).shown laptop = .unknown := by decide +kernel
  have hsettled : s.Settled laptop := ⟨htask, by simp [length_eq_zero_iff.1 hqueue]⟩
  refine ⟨s, Machine.reachable_of_exec newService_init hs, hsettled, hlive, hsnapshot, fun h => ?_⟩
  have := h laptop hsettled
  simp [hlive, hsnapshot] at this

theorem joinedRun_consistent :
    ∃ s, serviceMachine.exec newService joinedRun = some s ∧ s.transitions.length = 3 ∧
      s.live.shown laptop = .unknown ∧ s.Consistent := by
  simp only [← and_assoc]
  refine exists_and_of_imp (by simp only [and_assoc]; decide +kernel) fun s ⟨⟨hs, _⟩, _⟩ => ?_
  exact consistent_of_keepsConsistent (.exec (.start newService_init) (by decide +kernel) hs)

end NeonHearth.Live
