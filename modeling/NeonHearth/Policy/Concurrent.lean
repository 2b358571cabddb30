import NeonHearth.Data.History
import NeonHearth.Policy.W6
import NeonHearth.System.Machine

/-!
# Two coordinators at once

The discovery sweep and the owner's API work on one device with a coordinator each, over the same
database and the same W6 actuator.  Their operations are interleaved call by call.

The journal is to keep a block from being applied twice: who finds it reserved asks the actuator
first, and a missing attempt record counts as proof that nothing was applied.  But the record is only
written after the reservation, so until then the proof is none: a coordinator that looks in between
clears the reservation of the other, makes its own, and both apply the block.

* `singleMutation_of_serial` : as long as nobody clears the reservation that it has found, or makes a
  new one, while the other works on its own, each reservation leads to one application at most;
* `racedBan_not_singleMutation` : two bans of one device, applied twice.
-/

namespace NeonHearth.Policy

open Option PolicyCoordinator StoreCommand W6PolicyActuator

/-! ### The protocol of the journal -/

/-- Where an operation is. -/
inductive Phase where
  /-- It has not asked for a reservation. -/
  | idle
  /-- It has found a reservation. -/
  | existing
  /-- It has cleared the reservation that it found. -/
  | cleared
  | reserved
  | applied
  /-- It has published its decision. -/
  | recorded

/-- The operation works on a reservation of its own, until the outcome is recorded. -/
def Phase.active : Phase → Bool
  | .cleared | .reserved | .applied => true
  | .idle | .existing | .recorded => false

/-- The phase after a call. -/
def Phase.next : Phase → (c : W6Call) → (Calls w6Calls).B c → Phase
  | .idle, .inl (.reserveActuationWithDecision ..), .reserved => .reserved
  | .idle, .inl (.reserveActuationWithDecision ..), .existing => .existing
  | .existing, .inl (.clearActuationAttempt ..), _ => .cleared
  -- the reply is not looked at
  | .cleared, .inl (.reserveActuationWithDecision ..), _ => .reserved
  | .reserved, .inr (.applyPrepared _), _ => .applied
  | .idle, .inl (.markDecisionPublishedAndClearAttempt ..), _ => .idle
  | _, .inl (.markDecisionPublishedAndClearAttempt ..), _ => .recorded
  | phase, _, _ => phase

/-- What the protocol allows in a phase. -/
def Phase.Allows : W6Call → Phase → Prop
  | .inl (.reserveActuationWithDecision ..), phase => phase = .idle ∨ phase = .cleared
  | .inr (.applyPrepared _), phase => phase = .reserved
  | _, _ => True

/-- The programs that follow the protocol from a phase on. -/
abbrev Follows {α : Type} (Q : Phase → Prop) (p : W6Program α) (phase : Phase) : Prop :=
  p.Obeys (Prog.tracker Phase.next) Phase.Allows (fun _ => Q) phase

/-- The programs that follow the protocol to their end, wherever that is. -/
abbrev Lawful {α : Type} : W6Program α → Phase → Prop := Follows fun _ => True

/-- The calls that neither reserve nor apply. -/
def Plain : W6Call → Prop
  | .inl (.reserveActuationWithDecision ..) | .inr (.applyPrepared _) => False
  | _ => True

/-- The calls of the actuator other than the application. -/
def Looks : W6Call → Prop
  | .inl _ | .inr (.applyPrepared _) => False
  | _ => True

section Kinds

variable {α : Type} {p : W6Program α}

theorem Looks.plain {c} (h : Looks c) : Plain c := by
  obtain c | c := c
  · exact h.elim
  · cases c <;> exact h

theorem Plain.allows {c} (h : Plain c) (phase : Phase) : phase.Allows c := by
  obtain c | c := c <;> cases c <;> first | exact h.elim | trivial

theorem follows_plain (h : p.Only Plain) (phase : Phase) : Lawful p phase :=
  h.obeys (fun _ s hc _ => ⟨hc.allows s, fun _ => trivial⟩) trivial

theorem follows_idle (h : p.Only Plain) : Follows (· = .idle) p .idle := by
  refine h.obeys (fun c s hc hs => ⟨hc.allows s, fun reply => ?_⟩) rfl
  subst hs
  obtain c | c := c <;> cases c <;> first | exact hc.elim | rfl

/-- A look at the appliance is no step of the protocol. -/
theorem follows_looks (h : p.Only Looks) (phase : Phase) : Follows (· = phase) p phase := by
  refine h.obeys (fun c s hc hs => ⟨hc.plain.allows s, fun reply => ?_⟩) rfl
  subst hs
  obtain c | c := c
  · exact hc.elim
  · cases c <;> first | exact hc.elim | (cases s <;> rfl)

end Kinds

/-! ### The actuator -/

section Actuator

variable {α : Type} {action : RequestedAction}

theorem looks_w6 {c} (hc : Looks (.inr c)) : (w6 c).Only Looks :=
  ⟨hc, fun _ => trivial⟩

theorem looks_locked {body : W6Program α} (h : body.Only Looks) : (locked body).Only Looks :=
  .bind (looks_w6 trivial) fun _ => h.bind fun _ => .bind (looks_w6 trivial) fun _ => trivial

theorem looks_reconcileLocked (attempt) : (reconcileLocked attempt).Only Looks := by
  refine .bind (looks_w6 trivial) fun status => ?_
  split
  · refine .bind (looks_w6 trivial) fun state => ?_
    cases state <;> trivial
  · trivial

theorem looks_reconcile : (reconcile action).Only Looks := by
  unfold reconcile
  split
  · trivial
  refine .bind (looks_w6 trivial) fun attempt => ?_
  split
  · trivial
  · trivial
  · split
    · exact looks_locked (looks_reconcileLocked _)
    · trivial

theorem looks_undoLocked (previous) : (undoLocked previous).Only Looks := by
  refine .bind (looks_w6 trivial) fun result => ?_
  split
  · exact .bind (looks_w6 trivial) fun _ => trivial
  · trivial
  · trivial

theorem looks_undo : (undo action).Only Looks := by
  unfold undo
  split
  · trivial
  · refine .bind (looks_w6 trivial) fun previous => ?_
    split
    · exact looks_locked (looks_undoLocked _)
    · trivial
    · trivial

theorem looks_undoAvailable : (undoAvailable action).Only Looks := by
  unfold undoAvailable
  split
  · trivial
  · exact .bind (looks_w6 trivial) fun _ => trivial

theorem looks_recordVerified : (recordVerified action).Only Looks := by
  refine .bind (looks_w6 trivial) fun after => ?_
  split
  · trivial
  · exact .bind (looks_w6 trivial) fun _ => trivial

theorem follows_applyAttempt (prepared) :
    Lawful (applyAttempt action prepared) .reserved := by
  refine Prog.Obeys.track rfl fun reply => ?_
  split
  · exact follows_plain (looks_recordVerified.mono fun _ => Looks.plain) _
  · trivial
  · trivial

theorem follows_enforceLocked (request) :
    Lawful (enforceLocked action request) .reserved := by
  refine Prog.Obeys.track trivial fun status => ?_
  split
  · refine Prog.Obeys.track trivial fun prepared => ?_
    split
    · trivial
    · refine Prog.Obeys.track trivial fun begun => ?_
      split
      · exact follows_applyAttempt _
      · trivial
  · trivial

theorem follows_enforce : Lawful (enforce action) .reserved := by
  unfold enforce
  split
  · trivial
  · refine Prog.Obeys.track trivial fun _ => Prog.Obeys.bind ?_
    refine (follows_enforceLocked _).mono fun r phase _ => ?_
    cases r with
    | error e => trivial
    | ok result => exact Prog.Obeys.track trivial fun _ => trivial

end Actuator

/-! ### The coordinator -/

section Coordinator

variable {presence events : Bool} {p : DevicePolicy} {evaluation : Evaluation}
  {published : Option PolicyChanged} {now : DateTime} {action : RequestedAction} {c : StoreCommand}

theorem plain_store (hc : Plain (.inl c)) :
    (store c : W6Program c.Reply).Only Plain := ⟨hc, fun _ => trivial⟩

theorem plain_reconcile : (w6PolicyActuator.reconcile action).Only Plain :=
  looks_reconcile.mono fun _ => Looks.plain

theorem plain_undo : (w6PolicyActuator.undo action).Only Plain :=
  looks_undo.mono fun _ => Looks.plain

theorem plain_undoAvailable : (w6PolicyActuator.undoAvailable action).Only Plain :=
  looks_undoAvailable.mono fun _ => Looks.plain


theorem plain_matchingAttempt (event attempt) :
    (matchingAttempt event attempt : W6Program _).Only Plain := by
  unfold matchingAttempt
  split
  · trivial
  · split
    · exact .bind (plain_store trivial) fun _ => trivial
    · trivial

theorem plain_publishExact (event attempt) :
    ((w6Coordinator presence events).publishExact event attempt).Only Plain := by
  refine .bind (plain_store trivial) fun prepared => ?_
  split
  · cases events
    · exact .bind (plain_matchingAttempt ..) fun _ => plain_store trivial
    · exact .bind (plain_store trivial) fun _ =>
        .bind (plain_matchingAttempt ..) fun _ => plain_store trivial
  · trivial

theorem plain_finish (result) (undoAvailable : Bool) :
    ((w6Coordinator presence events).finish p evaluation result undoAvailable).Only Plain :=
  .bind (plain_publishExact ..) fun _ => trivial

theorem plain_retireAcknowledged : (retireAcknowledged published : W6Program _).Only Plain := by
  unfold retireAcknowledged
  split
  · trivial
  split
  · refine .bind (plain_store trivial) fun attempt => ?_
    split
    · trivial
    · split
      · exact plain_store trivial
      · trivial
  · trivial

theorem plain_settleRelease (undo) :
    ((w6Coordinator presence events).settleRelease now action undo).Only Plain := by
  unfold settleRelease
  split
  · cases presence
    · exact plain_store trivial
    · exact .bind (plain_store trivial) fun _ => plain_store trivial
  · exact plain_store trivial

theorem plain_releaseRecorded : (w6Coordinator presence events).releaseRecorded.Only Plain := by
  cases presence
  · trivial
  · exact .bind (plain_store trivial) fun _ => trivial

theorem plain_release :
    ((w6Coordinator presence events).release p evaluation now action).Only Plain := by
  refine .bind plain_releaseRecorded fun recorded => ?_
  split
  · exact .bind (plain_store trivial) fun _ => plain_finish ..
  · exact .bind plain_undo fun _ => .bind plain_undoAvailable fun _ =>
      .bind (plain_settleRelease _) fun _ => plain_finish ..

theorem plain_undoRecovered (old) :
    ((w6Coordinator presence events).undoRecovered old).Only Plain := by
  unfold undoRecovered
  split
  · exact plain_undoAvailable
  · trivial

/-- Another action's row may be cleared, but nothing is reserved. -/
theorem plain_reconcileOlder :
    ((w6Coordinator presence events).reconcileOlder p evaluation published now).Only Plain := by
  refine .bind (plain_store trivial) fun attempt => ?_
  split
  · trivial
  split
  · refine .bind plain_reconcile fun answer => ?_
    split
    · exact .bind (plain_store trivial) fun _ => trivial
    · split
      · refine .bind (plain_undoRecovered _) fun _ => .bind (plain_publishExact ..) fun _ => ?_
        split
        · exact .bind (plain_store trivial) fun _ => .bind (plain_finish ..) fun _ => trivial
        · trivial
      · split
        · exact .bind (plain_store trivial) fun _ => trivial
        · exact .bind (plain_finish ..) fun _ => trivial
    all_goals exact .bind (plain_finish ..) fun _ => trivial
  · trivial

theorem plain_waits (result) :
    (waits evaluation published now result : W6Program _).Only Plain := by
  unfold waits
  split
  · exact .bind (plain_store trivial) fun _ => trivial
  · trivial

theorem plain_scheduleRetry (result) : (scheduleRetry now result : W6Program _).Only Plain := by
  cases result <;> exact plain_store trivial

theorem plain_announce (result) :
    ((w6Coordinator presence events).announce p evaluation now result).Only Plain := by
  refine .bind ?_ fun _ => .bind ?_ fun _ => plain_finish ..
  · unfold recordBlock
    split
    · exact plain_store trivial
    · trivial
  · unfold undoOffered
    split
    · exact plain_undoAvailable
    · trivial

/-- **The journal protocol**: a reservation, of one's own or in place of one that was cleared. -/
theorem follows_enforceReserved : Lawful
    ((w6Coordinator presence events).enforceReserved p evaluation) .idle := by
  refine Prog.Obeys.track (.inl rfl) fun reservation => ?_
  cases reservation with
  | reserved => exact follows_enforce
  | existing =>
    refine Prog.Obeys.bind ((follows_looks looks_reconcile .existing).mono fun r phase hphase => ?_)
    subst hphase
    cases r with
    | error e => trivial
    | ok answer =>
      cases answer with
      | provenNotApplied =>
        exact Prog.Obeys.track trivial fun _ => Prog.Obeys.track (.inr rfl) fun _ => follows_enforce
      | _ => trivial

/-- A program that starts nothing, and then one that follows the protocol. -/
theorem follows_bind {α β : Type} {q} {f : α → W6Program β} (hq : q.Only Plain)
    (hf : ∀ a, Lawful (f a) .idle) : Lawful (q >>= f) .idle := by
  refine Prog.Obeys.bind ((follows_idle hq).mono fun r phase hphase => ?_)
  subst hphase
  cases r with
  | error e => trivial
  | ok a => exact hf a

theorem follows_enforcement : Lawful
    ((w6Coordinator presence events).enforcement p evaluation published now) .idle := by
  unfold enforcement
  split
  · trivial
  split
  · trivial
  refine follows_bind (plain_waits _) fun waiting => ?_
  split
  · trivial
  refine follows_bind (plain_waits _) fun waiting => ?_
  split
  · trivial
  · exact follows_enforceReserved

theorem follows_actuate : Lawful
    ((w6Coordinator presence events).actuate p evaluation published now) .idle := by
  refine Prog.Obeys.bind (follows_enforcement.mono fun r phase _ => ?_)
  cases r with
  | error e => trivial
  | ok result =>
    exact follows_plain (Prog.Only.bind (plain_scheduleRetry _) fun _ => plain_announce _) phase

theorem follows_settleJournal : Lawful
    ((w6Coordinator presence events).settleJournal p evaluation published now) .idle := by
  refine follows_bind plain_reconcileOlder fun decision => ?_
  split
  · trivial
  · exact follows_actuate

theorem follows_evaluate :
    Lawful ((w6Coordinator presence events).evaluate p now) .idle := by
  refine follows_bind (plain_store trivial) fun published =>
    follows_bind plain_retireAcknowledged fun _ => follows_bind (plain_store trivial) fun retry => ?_
  split
  · exact follows_settleJournal
  refine follows_bind (plain_store trivial) fun due => ?_
  split
  · exact follows_plain plain_release _
  split
  · exact follows_plain (plain_finish ..) _
  · exact follows_settleJournal

theorem plain_approveVerifiedAction :
    ((w6Coordinator presence events).approveVerifiedAction action now).Only Plain := by
  refine .bind (plain_store trivial) fun _ => .bind (plain_store trivial) fun _ =>
    .bind plain_undoAvailable fun canUndo => .bind ?_ fun _ =>
      .bind (plain_settleRelease _) fun _ => plain_finish ..
  unfold undoIf
  split
  · exact plain_undo
  · trivial

theorem plain_approvePendingRelease (outcome) :
    ((w6Coordinator presence events).approvePendingRelease action outcome now).Only Plain :=
  .bind (plain_store trivial) fun _ => .bind (plain_store trivial) fun _ =>
    .bind plain_undoAvailable fun _ => plain_finish ..

theorem follows_approvePublished :
    Lawful ((w6Coordinator presence events).approvePublished published now) .idle := by
  unfold approvePublished
  split
  · exact follows_plain plain_approveVerifiedAction _
  · exact follows_bind (plain_store trivial) fun _ => follows_bind (plain_store trivial) fun _ =>
      follows_evaluate

theorem follows_approve :
    Lawful ((w6Coordinator presence events).approve now) .idle := by
  refine follows_bind (plain_store trivial) fun prior => follows_bind (plain_store trivial)
    fun attempt => ?_
  split
  · exact follows_approvePublished
  refine follows_bind plain_reconcile fun answer => ?_
  split
  · split
    · exact follows_plain (plain_approvePendingRelease _) _
    · refine follows_plain (Prog.Only.bind (plain_publishExact ..) fun _ => .bind ?_ fun _ =>
        plain_approveVerifiedAction) _
      cases presence
      · trivial
      · exact plain_store trivial
  · exact follows_bind (plain_store trivial) fun _ => follows_approvePublished
  all_goals exact follows_plain (plain_approvePendingRelease _) _

theorem follows_decideAndEvaluate (owner) : Lawful
    ((w6Coordinator presence events).decideAndEvaluate owner now) .idle :=
  follows_bind (plain_store trivial) fun _ => follows_bind (plain_store trivial) fun _ =>
    follows_evaluate

theorem follows_setOwnerDecisionAfterReleaseGuard (owner) : Lawful
    ((w6Coordinator presence events).setOwnerDecisionAfterReleaseGuard owner now) .idle := by
  refine follows_bind (plain_store trivial) fun current => follows_bind (plain_store trivial)
    fun retry => ?_
  split
  · exact follows_decideAndEvaluate owner
  split
  · refine follows_bind plain_reconcile fun answer => ?_
    split
    · refine follows_plain ?_ _
      exact .bind (plain_store trivial) fun _ => .bind (plain_store trivial) fun _ =>
        .bind (plain_store trivial) fun _ => .bind plain_undoAvailable fun _ => plain_finish ..
    · exact follows_bind (plain_store trivial) fun _ => follows_decideAndEvaluate owner
    all_goals trivial
  · exact follows_bind (plain_store trivial) fun _ => follows_decideAndEvaluate owner

/-- **Every operation follows the protocol**, whatever the replies. -/
theorem program_follows (job : Job) :
    Lawful (job.program (w6Coordinator presence events)) .idle := by
  unfold Job.program
  split
  · exact follows_evaluate
  · exact follows_approve
  · exact follows_setOwnerDecisionAfterReleaseGuard .rejected
  · exact follows_setOwnerDecisionAfterReleaseGuard .quarantined
  · exact follows_bind (plain_store trivial) fun _ => follows_bind (plain_store trivial) fun _ =>
      follows_evaluate

end Coordinator

/-! ### The race -/

/-- What is noted about the two, for the analysis only. -/
inductive RaceEntry where
  /-- A row was inserted into the journal. -/
  | reserved (side : Side) (action : RequestedAction)
  /-- `apply_prepared` was called. -/
  | applied (side : Side) (action : RequestedAction)
  /-- A decision was published. -/
  | recorded (side : Side)
  | finished (side : Side)
  deriving DecidableEq

/-- The coordinator that an entry is about. -/
def RaceEntry.side : RaceEntry → Side
  | .reserved side _ | .applied side _ | .recorded side | .finished side => side

/-- The call asks for a reservation. -/
def reserves : W6Call → Bool
  | .inl (.reserveActuationWithDecision ..) => true
  | _ => false

/-- The reservation that was found is cleared. -/
def Phase.clears : Phase → W6Call → Bool
  | .existing, .inl (.clearActuationAttempt ..) => true
  | _, _ => false

/-- What is noted about a call. -/
def noted (side : Side) : (c : W6Call) → (Calls w6Calls).B c → List RaceEntry
  | .inl (.reserveActuationWithDecision _ action _), .reserved => [.reserved side action]
  | .inr (.applyPrepared prepared), _ => [.applied side prepared.request.action]
  | .inl (.markDecisionPublishedAndClearAttempt ..), _ => [.recorded side]
  | _, _ => []

/-- An operation at work. -/
structure Worker where
  program : W6Program AuditedDecision
  phase : Phase

/-- The two at work. -/
structure Race where
  site : Site
  appliance : Appliance
  worker : Side → Option Worker
  /-- The latest entry first. -/
  log : List RaceEntry

/-- What one of them does next. -/
inductive RaceEvent where
  | start (side : Side) (job : Job)
  /-- The next call of an operation. -/
  | call (side : Side) (answer : W6Answer)
  | finish (side : Side)

namespace Race

/-- The race with another operation of a coordinator, or none. -/
def assign (r : Race) (side : Side) (next : Option Worker) : Race :=
  { r with worker := Function.update r.worker side next }

def noteFinished (r : Race) (side : Side) : Race := { r with log := .finished side :: r.log }

/-- The race after a call of a worker. -/
def after (r : Race) (side : Side) (w : Worker) (site : Site) (appliance : Appliance)
    (entries : List RaceEntry) : Race where
  site := site
  appliance := appliance
  worker := Function.update r.worker side (some w)
  log := entries ++ r.log

/-- The next call of a worker. -/
def callNext (r : Race) (side : Side) (w : Worker) (answer : W6Answer) : Option Race :=
  match w.program with
  | .pure _ | .throw _ => none
  | .call c k =>
    match sharedCall side c answer (r.site, r.appliance) with
    | none => none
    | some (.ok reply, site, appliance) =>
      some (r.after side ⟨k reply, w.phase.next c reply⟩ site appliance (noted side c reply))
    | some (.error e, site, appliance) => some (r.after side ⟨.throw e, w.phase⟩ site appliance [])

/-- A step of one of the two. -/
def step (presence events : Side → Bool) (r : Race) : RaceEvent → Option Race
  | .start side job =>
    match r.worker side with
    | some _ => none
    | none =>
      some (r.assign side (some ⟨job.program (w6Coordinator (presence side) (events side)), .idle⟩))
  | .call side answer => (r.worker side).bind fun w => r.callNext side w answer
  | .finish side => (r.worker side).bind fun w => w.program.result.map fun _ =>
      (r.noteFinished side).assign side none

/-- The coordinator works on a reservation. -/
def active (r : Race) (side : Side) : Bool := (r.worker side).any (·.phase.active)

/-- The next call of the coordinator makes a reservation, or clears the one that it has found. -/
def taking (r : Race) (side : Side) : Bool :=
  (r.worker side).any fun w => match w.program with
    | .call c _ => reserves c ∧ r.site.device.journal = none ∨ w.phase.clears c
    | .pure _ | .throw _ => false

/-- Nobody clears a reservation or makes one while the other works on its own. -/
def Serial (r : Race) : RaceEvent → Prop
  | .call side _ => r.taking side → r.active side.other = false
  | .start .. | .finish _ => True

instance (r : Race) (e : RaceEvent) : Decidable (r.Serial e) := by
  cases e <;> dsimp only [Race.Serial] <;> infer_instance

end Race

/-- The two coordinators on a device in any state, with a connector that nobody holds. -/
def raceMachine (presence events : Side → Bool) : Machine Race RaceEvent where
  init r := (∀ side, r.worker side = none) ∧ r.appliance.holder = none ∧ r.log = []
  step := Race.step presence events

def RaceEntry.isReserved : RaceEntry → Bool
  | .reserved .. => true
  | .applied .. | .recorded _ | .finished _ => false

def RaceEntry.isApplied : RaceEntry → Bool
  | .applied .. => true
  | .reserved .. | .recorded _ | .finished _ => false

/-- The outcome of the coordinator is recorded, or its operation has ended. -/
def RaceEntry.settles (side : Side) : RaceEntry → Bool
  | .recorded side' | .finished side' => side' = side
  | .reserved .. | .applied .. => false

/-- The coordinator has reserved the action and not recorded its outcome. -/
def OpenReservation (side : Side) (action : RequestedAction) : List RaceEntry → Prop :=
  OpenSince (· = .reserved side action) (·.settles side)
  deriving DecidablePred

/-- At most one application for each reservation, and none by a coordinator while the other is
between the reservation of the same action and the record of its outcome. -/
structure SingleMutation (log : List RaceEntry) : Prop where
  once : NeverWhile (·.isApplied) (OpenSince (·.isApplied) (·.isReserved)) log
  alone : ∀ side action,
    NeverWhile (· = .applied side action) (OpenReservation side.other action) log

/-! ### What a call can do -/

/-- The steps of the protocol, with what they do to the journal and what is noted. -/
inductive Move (side : Side) (c : W6Call) (journal journal' : Option ActuationAttempt) :
    Phase → Phase → List RaceEntry → Prop
  | keep {phase : Phase} (h : journal' = journal ∨ journal' = none) :
      Move side c journal journal' phase phase []
  | find (hc : reserves c) : Move side c journal journal' .idle .existing []
  | reserve {phase : Phase} {action} (hc : reserves c) (h : journal = none) :
      Move side c journal journal' phase .reserved [.reserved side action]
  /-- Somebody has reserved since the row was cleared. -/
  | overlook (hc : reserves c) (h : journal ≠ none) : Move side c journal journal' .cleared .reserved []
  | clear (hc : Phase.existing.clears c) (h : journal' = none) :
      Move side c journal journal' .existing .cleared []
  | apply {action} (h : journal' = journal) :
      Move side c journal journal' .reserved .applied [.applied side action]
  | record {phase phase' : Phase} (h : journal' = journal ∨ journal' = none)
      (hphase : phase'.active = false) : Move side c journal journal' phase phase' [.recorded side]

section Move

variable {side : Side} {s s' : Site} {c : StoreCommand}

theorem run_error {e} (h : c.run s = some (.error e, s')) : s' = s := by
  cases c with
  | reserveActuationWithDecision policyVersion action decision =>
    rw [run] at h
    split at h
    · split at h <;> cases h
      rfl
    · cases h
  | clearActuationAttempt policyVersion action =>
    rw [run] at h
    split at h <;> cases h
    rfl
  | scheduleReleaseRetry action now | scheduleEnforcementRetry now
  | setOwnerDecisionAndScheduleReleaseRetry value action now =>
    obtain ⟨at', -, hs⟩ := map_eq_some_iff.1 h
    cases hs
  | extendOnce until' =>
    obtain ⟨due, -, hs⟩ := map_eq_some_iff.1 h
    split at hs
    · split at hs <;> cases hs
    · cases hs
      rfl
  | prepareExactDecisionPublication decision =>
    rw [run] at h
    split at h <;> cases h
  | markDecisionPublishedAndClearAttempt decision attempt =>
    cases attempt with
    | none => cases h
    | some attempt =>
      rw [run] at h
      split at h <;> cases h
      rfl
  | _ => cases h

/-- Only a reservation inserts a row into the journal. -/
theorem journal_of_run {r} (h : c.run s = some (r, s')) (hc : reserves (.inl c) = false) :
    s'.device.journal = s.device.journal ∨ s'.device.journal = none := by
  obtain hchange := change_of_run h
  generalize s'.device = d' at hchange
  cases hchange with
  | reserve => cases hc
  | retire | acknowledgeAndRetire => exact .inr rfl
  | _ => exact .inl rfl

variable {a a' : Appliance} {phase : Phase} {answer : W6Answer}

/-- A call on the tables runs when the database works. -/
theorem run_of_sharedCall {reply}
    (h : sharedCall side (.inl c) answer (s, a) = some (.ok reply, s', a')) :
    c.run s = some (.ok reply, s') := by
  cases answer with
  | works =>
    obtain ⟨⟨r, s₁⟩, hrun, heq⟩ := map_eq_some_iff.1 h
    cases heq
    exact hrun
  | fails | lost => cases h

theorem move_of_store {reply} (hallows : phase.Allows (.inl c))
    (h : c.run s = some (.ok reply, s')) :
    Move side (.inl c) s.device.journal s'.device.journal phase (phase.next (.inl c) reply)
      (noted side (.inl c) reply) := by
  cases c with
  | reserveActuationWithDecision policyVersion action decision =>
    cases reply with
    | reserved =>
      have hnone : s.device.journal = none := by
        rw [run] at h
        split at h
        · split at h <;> cases h
        · assumption
      obtain rfl | rfl := hallows <;> exact .reserve rfl hnone
    | existing =>
      obtain rfl | rfl := hallows
      · exact .find rfl
      · refine .overlook rfl fun hnone => ?_
        rw [run, hnone] at h
        cases h
  | clearActuationAttempt policyVersion action =>
    have hjournal := journal_of_run h rfl
    cases phase with
    | existing =>
      refine .clear rfl ?_
      rw [run] at h
      split at h <;> cases h
      rfl
    | _ => exact .keep hjournal
  | markDecisionPublishedAndClearAttempt decision attempt =>
    have hjournal := journal_of_run h rfl
    cases phase <;> exact .record hjournal rfl
  | _ =>
    have hjournal := journal_of_run h rfl
    cases phase <;> exact .keep hjournal

/-- **Every call is a step of the protocol.** -/
theorem move_of_call {c reply} (hallows : phase.Allows c)
    (h : sharedCall side c answer (s, a) = some (.ok reply, s', a')) :
    Move side c s.device.journal s'.device.journal phase (phase.next c reply)
      (noted side c reply) := by
  obtain c | c := c
  · exact move_of_store hallows (run_of_sharedCall h)
  obtain ⟨⟨reply', a₁⟩, -, heq⟩ := map_eq_some_iff.1 h
  cases heq
  cases c with
  | applyPrepared prepared =>
    obtain rfl := hallows
    exact .apply rfl
  | _ => cases phase <;> exact .keep (.inl rfl)

variable {c : W6Call}

/-- A call that fails leaves the tables as they are. -/
theorem site_of_error {e} (h : sharedCall side c answer (s, a) = some (.error e, s', a')) :
    s' = s := by
  obtain c | c := c
  · cases answer with
    | works =>
      obtain ⟨⟨r, s₁⟩, hrun, heq⟩ := map_eq_some_iff.1 h
      cases heq
      exact run_error hrun
    | fails e' => cases h; rfl
    | lost e' => cases h
  · obtain ⟨⟨reply, a₁⟩, -, heq⟩ := map_eq_some_iff.1 h
    cases heq

variable {journal journal' : Option ActuationAttempt} {phase' : Phase} {entries : List RaceEntry}

theorem Move.active (h : Move side c journal journal' phase phase' entries)
    (hactive : phase'.active) : phase.active ∨ reserves c ∧ journal = none ∨ phase.clears c := by
  cases h with
  | keep => exact .inl hactive
  | find => cases hactive
  | reserve hc hjournal => exact .inr (.inl ⟨hc, hjournal⟩)
  | clear hc => exact .inr (.inr hc)
  | overlook | apply => exact .inl rfl
  | record hjournal hphase => rw [hphase] at hactive; cases hactive

theorem Move.journal_eq (h : Move side c journal journal' phase phase' entries)
    (hc : reserves c = false) : journal' = journal ∨ journal' = none := by
  cases h with
  | keep h | record h => exact h
  | clear _ h => exact .inr h
  | apply h => exact .inl h
  | find hc' | reserve hc' | overlook hc' => rw [hc] at hc'; cases hc'

end Move

/-! ### Serial runs -/

theorem Side.other_other (side : Side) : side.other.other = side := by cases side <;> rfl

theorem Side.other_ne (side : Side) : side.other ≠ side := by cases side <;> decide

theorem Side.eq_or_other (side side' : Side) : side' = side ∨ side' = side.other := by
  cases side <;> cases side' <;> decide

/-- What holds along serial runs. -/
structure Race.Orderly (r : Race) : Prop where
  follows : ∀ side w, r.worker side = some w → Follows (fun _ => True) w.program w.phase
  exclusive : ∀ side, r.active side → r.active side.other = false
  /-- Nobody reserves while a coordinator has cleared what it found. -/
  cleared : ∀ side w, r.worker side = some w → w.phase = .cleared → r.site.device.journal = none
  /-- A reservation has not been applied yet. -/
  fresh : ∀ side w, r.worker side = some w → w.phase = .reserved →
    ¬OpenSince (·.isApplied) (·.isReserved) r.log
  unsettled : ∀ side action, OpenReservation side action r.log → r.active side
  single : SingleMutation r.log

section Orderly

variable {r : Race} {side : Side} {w : Worker} {log : List RaceEntry}

theorem active_of_worker (hw : r.worker side = some w) : r.active side = w.phase.active := by
  rw [Race.active, hw]
  rfl

variable {action : RequestedAction} {entry : RaceEntry}

/-- What one coordinator does says nothing about the reservations of the other. -/
theorem openReservation_cons_of_ne (h : entry.side ≠ side) :
    OpenReservation side action (entry :: log) ↔ OpenReservation side action log := by
  refine openSince_cons_of_not (fun heq => h (by rw [heq]; rfl)) fun hsettles => h ?_
  cases entry with
  | recorded | finished => exact of_decide_eq_true hsettles
  | reserved | applied => cases hsettles

theorem openApplication_cons (happlied : entry.isApplied = false)
    (hreserved : entry.isReserved = false) : OpenSince (·.isApplied) (·.isReserved) (entry :: log) ↔
      OpenSince (·.isApplied) (·.isReserved) log :=
  openSince_cons_of_not (by simp [happlied]) (by simp [hreserved])

theorem SingleMutation.cons (h : SingleMutation log)
    (hentry : entry.isApplied = false) : SingleMutation (entry :: log) := by
  refine ⟨h.once.cons fun happlied => ?_, fun side action => (h.alone side action).cons ?_⟩
  · rw [hentry] at happlied
    cases happlied
  · rintro rfl
    cases hentry

variable {site : Site} {appliance : Appliance} {entries : List RaceEntry} {w' : Worker} {c : W6Call}

theorem Move.openReservation_other {journal journal'}
    {phase phase' : Phase} (h : Move side c journal journal' phase phase' entries) :
    OpenReservation side.other action (entries ++ log) ↔ OpenReservation side.other action log := by
  cases h with
  | reserve | apply | record => exact openReservation_cons_of_ne side.other_ne.symm
  | _ => exact Iff.rfl

/-- The order is kept when a coordinator goes on with another worker, or none. -/
theorem Race.Orderly.replace {next} {r' : Race} (h : r.Orderly)
    (hworker : r'.worker = Function.update r.worker side next)
    (hnext : ∀ w, next = some w → Lawful w.program w.phase ∧
      (w.phase.active → r.active side.other = false) ∧
      (w.phase = .cleared → r'.site.device.journal = none) ∧
      (w.phase = .reserved → ¬OpenSince (·.isApplied) (·.isReserved) r'.log))
    (hcleared : ∀ w, r.worker side.other = some w → w.phase = .cleared →
      r'.site.device.journal = none)
    (hfresh : r.active side.other → ¬OpenSince (·.isApplied) (·.isReserved) r.log →
      ¬OpenSince (·.isApplied) (·.isReserved) r'.log)
    (hopen : ∀ action, OpenReservation side action r'.log → next.any (·.phase.active))
    (hother : ∀ action, OpenReservation side.other action r'.log →
      OpenReservation side.other action r.log)
    (hsingle : SingleMutation r'.log) : r'.Orderly := by
  have hside : r'.worker side = next := by rw [hworker, Function.update_self]
  have hrest : r'.worker side.other = r.worker side.other := by
    rw [hworker, Function.update_of_ne side.other_ne]
  have hactive : r'.active side = next.any (·.phase.active) := by rw [Race.active, hside]
  have hactive' : r'.active side.other = r.active side.other := by rw [Race.active, hrest, Race.active]
  have hone : next.any (·.phase.active) → r.active side.other = false := by
    cases next with
    | none => nofun
    | some w => exact (hnext w rfl).2.1
  constructor
  case follows =>
    intro side' w hw
    obtain rfl | rfl := side.eq_or_other side'
    · exact (hnext w (hside.symm.trans hw)).1
    · exact h.follows _ _ (hrest ▸ hw)
  case exclusive =>
    intro side' hside'
    obtain rfl | rfl := side.eq_or_other side'
    · exact hactive'.trans (hone (hactive.symm.trans hside'))
    · rw [side.other_other, hactive]
      refine Bool.eq_false_iff.2 fun hnew => ?_
      rw [hactive', hone hnew] at hside'
      cases hside'
  case cleared =>
    intro side' w hw hphase
    obtain rfl | rfl := side.eq_or_other side'
    · exact (hnext w (hside.symm.trans hw)).2.2.1 hphase
    · exact hcleared w (hrest.symm.trans hw) hphase
  case fresh =>
    intro side' w hw hphase
    obtain rfl | rfl := side.eq_or_other side'
    · exact (hnext w (hside.symm.trans hw)).2.2.2 hphase
    · have hw := hrest.symm.trans hw
      refine hfresh ?_ (h.fresh _ _ hw hphase)
      rw [active_of_worker hw, hphase]
      rfl
  case unsettled =>
    intro side' action hopen'
    obtain rfl | rfl := side.eq_or_other side'
    · exact hactive.trans (hopen action hopen')
    · exact hactive'.trans (h.unsettled _ _ (hother action hopen'))
  case single => exact hsingle

variable (h : r.Orderly) (hw : r.worker side = some w)
  (hmove : Move side c r.site.device.journal site.device.journal w.phase w'.phase entries)
include h hw hmove

theorem cleared_of_move (hphase : w'.phase = .cleared) : site.device.journal = none := by
  have hkeep := h.cleared side w hw
  rw [hphase] at hmove
  generalize w.phase = phase at hmove hkeep
  cases hmove with
  | keep hjournal => exact hjournal.elim (·.trans (hkeep rfl)) id
  | clear hc hjournal => exact hjournal
  | record hjournal hactive => cases hactive

theorem fresh_of_move (hphase : w'.phase = .reserved) :
    ¬OpenSince (·.isApplied) (·.isReserved) (entries ++ r.log) := by
  have hcleared := h.cleared side w hw
  have hfresh := h.fresh side w hw
  rw [hphase] at hmove
  generalize w.phase = phase at hmove hcleared hfresh
  cases hmove with
  | keep => exact hfresh rfl
  | reserve => exact fun hopen => hopen.1 rfl
  | overlook hc hjournal => exact absurd (hcleared rfl) hjournal
  | record hjournal hactive => cases hactive

theorem unsettled_of_move (hopen : OpenReservation side action (entries ++ r.log)) :
    w'.phase.active := by
  have hactive := h.unsettled side action
  rw [active_of_worker hw] at hactive
  generalize w.phase = phase at hmove hactive
  generalize w'.phase = phase' at hmove
  cases hmove with
  | keep | find => exact hactive hopen
  | record => exact absurd (decide_eq_true rfl) hopen.1
  | _ => rfl

theorem single_of_move : SingleMutation (entries ++ r.log) := by
  have hfresh := h.fresh side w hw
  have hactive := active_of_worker hw
  generalize w.phase = phase at hmove hfresh hactive
  generalize w'.phase = phase' at hmove
  cases hmove with
  | reserve | record => exact h.single.cons rfl
  | apply =>
    -- the other is not active, so it has no open reservation
    have hother := h.exclusive side hactive
    refine ⟨h.single.once.cons fun _ => hfresh rfl, fun side' action' =>
      (h.single.alone side' action').cons fun heq hopen => ?_⟩
    cases heq
    rw [h.unsettled _ _ hopen] at hother
    cases hother
  | _ => exact h.single

/-- While the other has a reservation that is not applied, a call does not apply one. -/
theorem fresh_other_of_move (hother : r.active side.other)
    (hfresh : ¬OpenSince (·.isApplied) (·.isReserved) r.log) :
    ¬OpenSince (·.isApplied) (·.isReserved) (entries ++ r.log) := by
  have hidle : w.phase.active = false := by
    rw [← active_of_worker hw, ← side.other_other]
    exact h.exclusive _ hother
  generalize w.phase = phase at hmove hidle
  generalize w'.phase = phase' at hmove
  cases hmove with
  | reserve => exact fun hopen => hopen.1 rfl
  | apply => cases hidle
  | record => exact fun hopen => hfresh ((openApplication_cons rfl rfl).1 hopen)
  | _ => exact hfresh

variable (hserial : reserves c ∧ r.site.device.journal = none ∨ w.phase.clears c →
  r.active side.other = false)
include hserial

/-- Only one of the two is active after the call. -/
theorem active_other_of_move (hactive : w'.phase.active) : r.active side.other = false := by
  obtain hactive | hc := hmove.active hactive
  · exact h.exclusive side ((active_of_worker hw).trans hactive)
  · exact hserial hc

/-- **A call of one coordinator keeps the order.** -/
theorem Race.Orderly.after (hfollows : Lawful w'.program w'.phase) :
    (r.after side w' site appliance entries).Orderly := by
  refine h.replace rfl (fun w₁ hw₁ => ?_) (fun w₁ hw₁ hphase => ?_)
    (fresh_other_of_move h hw hmove) (fun _ => unsettled_of_move h hw hmove)
    (fun _ => hmove.openReservation_other.1) (single_of_move h hw hmove)
  · cases hw₁
    exact ⟨hfollows, active_other_of_move h hw hmove hserial, cleared_of_move h hw hmove,
      fresh_of_move h hw hmove⟩
  have hc : reserves c = false := by
    refine Bool.eq_false_iff.2 fun hc => ?_
    have hidle := (active_of_worker hw₁).symm.trans
      (hserial (.inl ⟨hc, h.cleared _ _ hw₁ hphase⟩))
    rw [hphase] at hidle
    cases hidle
  exact (hmove.journal_eq hc).elim (·.trans (h.cleared _ _ hw₁ hphase)) id

omit h hw hmove hserial

/-- A coordinator without an open reservation may start an operation, or end its last one. -/
theorem Race.Orderly.assign (h : r.Orderly) {next}
    (hnext : ∀ w, next = some w → w.phase = .idle ∧ Lawful w.program .idle)
    (hclosed : ∀ action, ¬OpenReservation side action r.log) : (r.assign side next).Orderly := by
  refine h.replace rfl (fun w hw => ?_) (h.cleared _) (fun _ => id)
    (fun action hopen => absurd hopen (hclosed action)) (fun _ => id) h.single
  obtain ⟨hphase, hfollows⟩ := hnext w hw
  rw [hphase]
  exact ⟨hfollows, nofun, nofun, nofun⟩

theorem not_openReservation_finished (action) :
    ¬OpenReservation side action (.finished side :: log) :=
  fun hopen => hopen.1 (decide_eq_true rfl)

theorem Race.Orderly.noteFinished (h : r.Orderly) (side : Side) : (r.noteFinished side).Orderly := by
  refine ⟨h.follows, h.exclusive, h.cleared, fun side' w hw hphase => ?_, fun side' action hopen => ?_,
    h.single.cons rfl⟩
  · have hfresh := h.fresh side' w hw hphase
    exact fun hopen => hfresh ((openApplication_cons rfl rfl).1 hopen)
  · obtain rfl | rfl := side.eq_or_other side'
    · exact absurd hopen (not_openReservation_finished action)
    · have hne : (RaceEntry.finished side).side ≠ side.other := side.other_ne.symm
      exact h.unsettled _ _ ((openReservation_cons_of_ne hne).1 hopen)

/-- **Every serial step keeps the order.** -/
theorem Race.Orderly.step {presence events e} {r' : Race}
    (h : r.Orderly) (hserial : r.Serial e) (hs : r.step presence events e = some r') : r'.Orderly := by
  cases e with
  | start side job =>
    rw [Race.step] at hs
    split at hs
    · cases hs
    next hnone =>
    cases hs
    refine h.assign (fun w hw => ?_) fun action hopen => ?_
    · cases hw
      exact ⟨rfl, program_follows job⟩
    · have hactive := h.unsettled _ _ hopen
      rw [Race.active, hnone] at hactive
      cases hactive
  | call side answer =>
    obtain ⟨⟨program, phase⟩, hw, hs⟩ := bind_eq_some_iff.1 hs
    cases program with
    | pure | throw => cases hs
    | call c k =>
      have hfollows : Lawful (.call c k) phase := h.follows side _ hw
      have hserial : reserves c ∧ r.site.device.journal = none ∨ phase.clears c →
          r.active side.other = false := by
        refine fun hc => hserial ?_
        rw [Race.taking, hw]
        exact decide_eq_true hc
      rw [Race.callNext] at hs
      dsimp only at hs
      split at hs
      · cases hs
      · next reply site appliance hcall =>
        cases hs
        exact h.after hw (move_of_call hfollows.1 hcall) hserial (hfollows.reply reply).2
      · next e site appliance hcall =>
        cases hs
        have hkeep : Move side c r.site.device.journal site.device.journal phase phase [] :=
          .keep (.inl (by rw [site_of_error hcall]))
        exact h.after hw hkeep hserial trivial
  | finish side =>
    obtain ⟨w, hw, hs⟩ := bind_eq_some_iff.1 hs
    obtain ⟨decision, hdecision, rfl⟩ := map_eq_some_iff.1 hs
    exact (h.noteFinished side).assign nofun not_openReservation_finished

end Orderly

/-- **Serial runs apply each reservation once**: if nobody clears the reservation that it has found,
or makes one, while the other works on its own, at most one application follows each reservation, and
no coordinator applies a block that the other has reserved and not settled. -/
theorem singleMutation_of_serial {presence events : Side → Bool} {r : Race}
    (h : (raceMachine presence events).Via Race.Serial r) : SingleMutation r.log := by
  have horderly : r.Orderly := by
    refine h.invariant (fun r hinit => ?_) fun r e r' hr hserial hs => hr.step hserial hs
    obtain ⟨hworker, -, hlog⟩ := hinit
    refine ⟨fun side w hw => ?_, fun side hactive => ?_, fun side w hw => ?_, fun side w hw => ?_,
      fun side action hopen => ?_, ?_⟩
    · rw [hworker side] at hw; cases hw
    · rw [Race.active, hworker side] at hactive; cases hactive
    · rw [hworker side] at hw; cases hw
    · rw [hworker side] at hw; cases hw
    · rw [hlog] at hopen; exact hopen.elim
    · rw [hlog]; exact ⟨trivial, fun _ _ => trivial⟩
  exact horderly.single

/-! ### A ban, raced -/

/-- A device seen for the first time, on an appliance without blocks. -/
def newRace : Race where
  site := ⟨.enrolled 7 (halfSecond 0) false, []⟩
  appliance := {
    attempt := none
    state := ⟨false, false, false, false, false, 0⟩
    status := .trusted
    profile := some ⟨[.denyInternet, .persistentFilter], some w6PersistentFilterLimit⟩
    holder := none }
  worker _ := none
  log := []

/-- The owner rejects the device; the calls up to the reservation. -/
def rejectDevice : List RaceEvent :=
  .start .owner ⟨7, halfSecond 2, .reject⟩ :: List.replicate 8 (.call .owner .works)

/-- The sweep evaluates the rejected device; the calls before the reservation. -/
def sweepRejected : List RaceEvent :=
  .start .sweep ⟨7, halfSecond 2, .evaluate
    { newRace.site.device.policy with ownerDecision := .rejected }⟩ ::
      List.replicate 3 (.call .sweep .works)

/-- The sweep finds the owner's reservation, looks at the appliance only after the owner's operation
has ended, and finds the ban in place. -/
def orderedBan : List RaceEvent :=
  rejectDevice ++ sweepRejected ++ .call .sweep .works :: List.replicate 13 (.call .owner .works) ++
    [.finish .owner] ++ List.replicate 8 (.call .sweep .works) ++ [.finish .sweep]

/-- The sweep finds the owner's reservation before the owner has applied it. -/
def racedBan : List RaceEvent :=
  rejectDevice ++ sweepRejected ++ List.replicate 12 (.call .sweep .works) ++
    List.replicate 5 (.call .owner .works)

theorem newRace_init {presence events} : (raceMachine presence events).init newRace :=
  ⟨fun _ => rfl, rfl, rfl⟩

/-- Two bans at once, of which one is applied. -/
theorem orderedBan_singleMutation :
    ∃ r, (raceMachine (fun _ => false) fun _ => false).Via Race.Serial r ∧
      r.log = [.finished .sweep, .finished .owner, .recorded .owner, .applied .owner .permanentBan,
        .reserved .owner .permanentBan] ∧
      SingleMutation r.log := by
  obtain ⟨r, hr, hlog⟩ :
      ∃ r, (raceMachine (fun _ => false) fun _ => false).exec newRace orderedBan = some r ∧
        r.log = [.finished .sweep, .finished .owner, .recorded .owner, .applied .owner .permanentBan,
          .reserved .owner .permanentBan] := by decide +kernel
  have hvia : (raceMachine (fun _ => false) fun _ => false).Via Race.Serial r :=
    .exec (.start newRace_init) (by decide +kernel) hr
  exact ⟨r, hvia, hlog, singleMutation_of_serial hvia⟩

/-- Two bans at once: the sweep takes the missing record for proof that nothing was applied, clears
the owner's reservation and applies the ban, which the owner then applies again. -/
theorem racedBan_not_singleMutation :
    ∃ r, (raceMachine (fun _ => false) fun _ => false).Reachable r ∧
      r.log = [.applied .owner .permanentBan, .applied .sweep .permanentBan,
        .reserved .sweep .permanentBan, .reserved .owner .permanentBan] ∧
      r.appliance.state.filterEntries = 2 ∧
      ¬NeverWhile (·.isApplied) (OpenSince (·.isApplied) (·.isReserved)) r.log ∧
      ¬NeverWhile (· = .applied .sweep .permanentBan) (OpenReservation .owner .permanentBan) r.log :=
  Machine.exists_reachable newRace_init racedBan (by decide +kernel)

end NeonHearth.Policy
