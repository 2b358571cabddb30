import NeonHearth.Live.Reducer

/-!
# One device as its snapshot and its live view see it

What the agreement of a snapshot with the live view depends on, for one device: the stored
decisions, the decision on its way to the event bus, the latest control state, the state that
discovery stored last, the committed states that are still to be published, and the state that the
client shows.  The moves below are all that the service does to it; `View.Ok` is kept by each of
them, and a view that is `Ok` and has nothing under way shows what a snapshot would
(`View.Ok.shown_eq`).
-/

namespace NeonHearth.Live

open Policy Option Decisions List

/-- How far a decision has come: recorded, in the outbox, or on the bus. -/
inductive Stage where
  | recorded
  | prepared
  | delivered

/-- A decision on its way to its acknowledgement. -/
structure PolicyTask where
  stage : Stage
  event : PolicyChanged

/-- The two places of an event that name the requested action agree, as in every event that the
service builds. -/
def Coherent (e : PolicyChanged) : Prop := e.evaluation.requestedAction = e.requestedAction
  deriving Decidable

variable {e : PolicyChanged} {state : PresenceState}

theorem hasVerifiedBlock_of_coherent (h : Coherent e) :
    hasVerifiedBlock (some ⟨e.evaluation, e.enforcementResult⟩) = verifiedBlock e := by
  rw [hasVerifiedBlock, any_some, show e.evaluation.requestedAction = e.requestedAction from h]
  rfl

structure View where
  decisions : Decisions
  task : Option PolicyTask
  control : Option PresenceState
  discovery : PresenceState
  queue : List PresenceState
  shown : PresenceState

namespace View

/-- What a snapshot shows. -/
def snapshot (v : View) : PresenceState :=
  if v.decisions.projected.any verifiedBlock then .blocked else v.control.getD v.discovery

/-- The client shows the control state, or what discovery has stored once all is published. -/
def Agrees (v : View) : Prop :=
  match v.control with
  | some state => v.shown = state
  | none => v.shown ≠ .blocked ∧ v.queue.getLast?.getD v.shown = v.discovery

/-- An acknowledged block or release is the latest control state. -/
def Reports (v : View) : Prop :=
  ∀ e state, v.decisions.published = some e → effect e = some state → v.control = some state

/-- What holds while a decision is under way, and while none is. -/
def Underway (v : View) : Option PolicyTask → Prop
  | none => v.decisions.pending = none ∧ v.Reports ∧ v.Agrees
  | some ⟨.recorded, e⟩ => v.decisions.pending = none ∧ (effect e = none → v.Reports ∧ v.Agrees) ∧
    ∀ state, effect e = some state → v.control = some state ∧
      (v.decisions.published = some e → v.shown = state)
  | some ⟨.prepared, e⟩ => v.decisions.pending = some e ∧ (effect e = none → v.Agrees) ∧
    ∀ state, effect e = some state → v.control = some state
  | some ⟨.delivered, e⟩ => v.decisions.pending = some e ∧ v.Agrees ∧
    ∀ state, effect e = some state → v.control = some state

/-- What the service keeps of every device. -/
structure Ok (d : DeviceId) (v : View) : Prop where
  control : ∀ state, v.control = some state → state = .blocked ∨ state = .unknown
  discovery : v.discovery ≠ .blocked
  queue : ∀ state ∈ v.queue, state ≠ .blocked
  task : v.Underway v.task
  published : ∀ e, v.decisions.published = some e → Coherent e
  own : ∀ t, v.task = some t → Coherent t.event ∧ t.event.deviceId = d

theorem verifiedBlock_iff : verifiedBlock e = true ↔ effect e = some .blocked := by
  unfold effect
  split
  · simp [*]
  · split <;> simp [*]

variable {v : View} {d : DeviceId}

theorem snapshot_of_projected (h : v.decisions.projected = some e)
    (hc : ∀ state, effect e = some state → v.control = some state) :
    v.snapshot = v.control.getD v.discovery := by
  rw [snapshot, h, any_some]
  split
  · next hb => rw [hc _ (verifiedBlock_iff.1 hb)]; rfl
  · rfl

theorem projected_of_pending (hp : v.decisions.pending = some e) : v.decisions.projected = some e := by
  rw [projected, hp]
  rfl

theorem snapshot_of_reports (hp : v.decisions.pending = none) (hr : v.Reports) :
    v.snapshot = v.control.getD v.discovery := by
  cases hpub : v.decisions.published with
  | none => simp [snapshot, projected, hp, hpub]
  | some e =>
    refine snapshot_of_projected (e := e) ?_ fun state => hr e state hpub
    rw [projected, hp, hpub]
    rfl

theorem Ok.underway (h : v.Ok d) {task} (ht : v.task = task) : v.Underway task := ht ▸ h.task

/-- **Nothing under way**: the client shows what a snapshot would. -/
theorem Ok.shown_eq (h : v.Ok d) (ht : v.task = none) (hq : v.queue = []) : v.snapshot = v.shown := by
  obtain ⟨hp, hr, ha⟩ := h.underway ht
  rw [snapshot_of_reports hp hr]
  unfold Agrees at ha
  cases hc : v.control with
  | some state =>
    rw [hc] at ha
    exact ha.symm
  | none =>
    rw [hc, hq] at ha
    exact ha.2.symm

theorem agrees_of_control (hc : v.control = some state) (hs : v.shown = state) : v.Agrees := by
  rw [Agrees, hc]
  exact hs

theorem Agrees.shown_of_control (h : v.Agrees) (hc : v.control = some state) : v.shown = state := by
  rw [Agrees, hc] at h
  exact h

/-! ### Discovery -/

section

variable (h : v.Ok d)
include h

/-- A snapshot projects a decision as the service builds them. -/
theorem Ok.coherent_projected (he : v.decisions.projected = some e) : Coherent e := by
  obtain he | ⟨-, he⟩ := or_eq_some_iff.1 he
  · rcases ht : v.task with _ | ⟨_ | _ | _, e'⟩ <;> obtain ⟨hp, -⟩ := h.underway ht <;>
      rw [hp] at he <;> cases he <;> exact (h.own _ ht).1
  · exact h.published e he

/-- A step of discovery and of what the client shows, under which the two agree as before. -/
theorem Ok.discover {queue discovery shown}
    (hq : ∀ state ∈ queue, state ≠ .blocked) (hd : discovery ≠ .blocked)
    (hkeep : ∀ c, v.control = some c → v.shown = c → shown = c)
    (ha : v.Agrees → Agrees { v with queue, discovery, shown }) :
    Ok d { v with queue, discovery, shown } := by
  suffices htask : ∀ task, v.Underway task → Underway { v with queue, discovery, shown } task from
    { h with queue := hq, discovery := hd, task := htask _ h.task }
  rintro (_ | ⟨_ | _ | _, e⟩) ⟨hp, hn, hs⟩
  · exact ⟨hp, hn, ha hs⟩
  · exact ⟨hp, fun he => (hn he).imp_right ha,
      fun c he => ⟨(hs c he).1, fun hpub => hkeep c (hs c he).1 ((hs c he).2 hpub)⟩⟩
  · exact ⟨hp, fun he => ha (hn he), hs⟩
  · exact ⟨hp, ha hn, hs⟩

theorem Ok.commit (hq : v.queue = []) {new} (hnew : ∀ state ∈ new, state ≠ .blocked) :
    Ok d { v with queue := new, discovery := new.getLast?.getD v.discovery } := by
  refine h.discover hnew ?_ (fun _ _ hs => hs) ?_
  · cases hlast : new.getLast? with
    | none => exact h.discovery
    | some state => exact hnew state (mem_of_getLast? hlast)
  unfold Agrees
  cases v.control with
  | some state => exact id
  | none =>
    rintro ⟨hne, hlast⟩
    rw [hq] at hlast
    exact ⟨hne, by rw [show v.shown = v.discovery from hlast]⟩

/-- The first committed state is suppressed while the control state is a block. -/
theorem Ok.suppress (hc : v.control ≠ none) : Ok d { v with queue := v.queue.tail } := by
  obtain ⟨state, hstate⟩ := ne_none_iff_exists'.1 hc
  exact h.discover (fun state hs => h.queue state (mem_of_mem_tail hs)) h.discovery
    (fun _ _ hs => hs) fun ha => agrees_of_control hstate (ha.shown_of_control hstate)

/-- What the client shows after a state of discovery. -/
def masked (shown state : PresenceState) : PresenceState := if shown ≠ .blocked then state else shown

/-- The first committed state is published; after a release it has to be the unknown one. -/
theorem Ok.publishPresence {rest} (hq : v.queue = state :: rest)
    (hg : ∀ c, v.control = some c → c = .blocked ∨ state = .unknown) :
    Ok d { v with queue := rest, shown := masked v.shown state } := by
  -- under a control state nothing changes
  have hkeep : ∀ c, v.control = some c → v.shown = c → masked v.shown state = c := by
    rintro c hc rfl
    unfold masked
    split
    · next hne =>
      obtain hb | hu := h.control _ hc
      · exact absurd hb hne
      · rw [hu]
        exact (hg _ hc).resolve_left fun hb => hne hb
    · rfl
  refine h.discover (fun x hx => h.queue x (by simp [hq, hx])) h.discovery hkeep fun ha => ?_
  obtain hc | ⟨c, hc⟩ := eq_none_or_eq_some v.control
  · rw [Agrees, hc] at ha
    obtain ⟨hne, hlast⟩ := ha
    have hshown : masked v.shown state = state := if_pos hne
    have hfirst : state ≠ .blocked := h.queue state (by simp [hq])
    rw [Agrees]
    simp only [hc, hshown]
    refine ⟨hfirst, ?_⟩
    rw [← hlast, hq, getLast?_cons]
    rfl
  · exact agrees_of_control hc (hkeep c hc (ha.shown_of_control hc))

/-! ### Decisions -/

theorem Ok.record (ht : v.task = none) (he : effect e = some state) (hown : Coherent e ∧ e.deviceId = d) :
    Ok d { v with control := some state, task := some ⟨.recorded, e⟩ } := by
  obtain ⟨hp, hr, ha⟩ := h.underway ht
  refine { h with control := ?_, task := ?_, own := fun t ht => some.inj ht ▸ hown }
  · rintro _ ⟨⟩
    unfold effect at he
    split at he
    · exact .inl (some.inj he).symm
    · split at he
      · exact .inr (some.inj he).symm
      · cases he
  · refine ⟨hp, fun hn => by simp [hn] at he, fun state' he' => ?_⟩
    obtain rfl := some.inj (he.symm.trans he')
    exact ⟨rfl, fun hpub => ha.shown_of_control (hr e state hpub he)⟩

/-- A decision without a verified result: nothing is recorded. -/
theorem Ok.decide (ht : v.task = none) (he : effect e = none) (hown : Coherent e ∧ e.deviceId = d) :
    Ok d { v with task := some ⟨.recorded, e⟩ } := by
  obtain ⟨hp, hr, ha⟩ := h.underway ht
  exact { h with
    task := ⟨hp, fun _ => ⟨hr, ha⟩, fun state hs => by simp [he] at hs⟩
    own := fun t ht => some.inj ht ▸ hown }

/-- The decision is the acknowledged one already: it is not published again. -/
theorem Ok.skip (ht : v.task = some ⟨.recorded, e⟩)
    (hpub : v.decisions.published = some e) : Ok d { v with task := none } := by
  obtain ⟨hp, hn, hs⟩ := h.underway ht
  refine { h with task := ⟨hp, ?_⟩, own := by simp }
  cases he : effect e with
  | none => exact hn he
  | some state =>
    obtain ⟨hc, hshown⟩ := hs state he
    refine ⟨fun e' state' hpub' he' => ?_, agrees_of_control hc (hshown hpub)⟩
    obtain rfl := some.inj (hpub.symm.trans hpub')
    obtain rfl := some.inj (he.symm.trans he')
    exact hc

theorem Ok.prepare (ht : v.task = some ⟨.recorded, e⟩) : Ok d { v with
      decisions := { v.decisions with pending := some e }
      task := some ⟨.prepared, e⟩ } := by
  obtain ⟨-, hn, hs⟩ := h.underway ht
  exact { h with
    task := ⟨rfl, fun he => (hn he).2, fun state he => (hs state he).1⟩
    own := fun t ht' => by cases ht'; exact h.own ⟨.recorded, e⟩ ht }

/-- The decision goes to the bus and the client folds it in. -/
theorem Ok.deliver (ht : v.task = some ⟨.prepared, e⟩) :
    Ok d { v with shown := (effect e).getD v.shown, task := some ⟨.delivered, e⟩ } := by
  obtain ⟨hp, hn, hs⟩ := h.underway ht
  refine { h with task := ⟨hp, ?_, hs⟩, own := fun t ht' => by cases ht'; exact h.own ⟨.prepared, e⟩ ht }
  cases he : effect e with
  | none => exact hn he
  | some state => exact agrees_of_control (hs state he) rfl

theorem Ok.acknowledge (ht : v.task = some ⟨.delivered, e⟩) :
    Ok d { v with decisions := ⟨some e, none⟩, task := none } := by
  obtain ⟨-, ha, hs⟩ := h.underway ht
  refine { h with
    task := ⟨rfl, ?_, ha⟩
    published := fun e' he' => some.inj he' ▸ (h.own _ ht).1
    own := by simp }
  rintro _ state ⟨⟩ he
  exact hs state he

/-! ### The client -/

/-- A client loads a snapshot, at any point. -/
theorem Ok.resync : Ok d { v with shown := v.snapshot } := by
  have hagrees : v.Agrees → v.snapshot = v.control.getD v.discovery →
      Agrees { v with shown := v.snapshot } := by
    intro ha hsnap
    obtain hc | ⟨state, hc⟩ := eq_none_or_eq_some v.control
    · rw [Agrees, hc] at ha
      rw [Agrees]
      simp only [hc, hsnap, getD_none]
      refine ⟨h.discovery, ?_⟩
      -- the last committed state, if it is not yet published, is the stored one
      cases hlast : v.queue.getLast? with
      | none => rfl
      | some state => simpa [hlast] using ha.2
    · exact agrees_of_control hc (by simp [hsnap, hc])
  suffices htask : ∀ task, v.Underway task → Underway { v with shown := v.snapshot } task from
    { h with task := htask _ h.task }
  rintro (_ | ⟨_ | _ | _, e⟩) ⟨hp, hn, hs⟩
  · exact ⟨hp, hn, hagrees hs (snapshot_of_reports hp hn)⟩
  · refine ⟨hp, fun he => ?_, fun state he => ⟨(hs state he).1, fun hpub => ?_⟩⟩
    · exact ⟨(hn he).1, hagrees (hn he).2 (snapshot_of_reports hp (hn he).1)⟩
    have hproj : v.decisions.projected = some e := by
      rw [projected, hp]
      exact hpub
    have hsnap := snapshot_of_projected hproj fun state' he' => (hs state' he').1
    rw [hsnap, (hs state he).1]
    rfl
  · have hsnap := snapshot_of_projected (projected_of_pending hp) hs
    exact ⟨hp, fun he => hagrees (hn he) hsnap, hs⟩
  · exact ⟨hp, hagrees hn (snapshot_of_projected (projected_of_pending hp) hs), hs⟩

end

end View

end NeonHearth.Live
