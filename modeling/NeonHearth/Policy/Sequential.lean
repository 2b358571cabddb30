import NeonHearth.Policy.Operations
import NeonHearth.System.Machine

/-!
# Runs of the coordinator

One coordinator works on the enrolled devices, one operation after the other.  Between two awaited
calls it may crash, and a call on the database may fail; both end the operation.  An interrupted
call on the router is one whose answer nobody reads: the call, with any effect, and then the crash.

* `Guard` : conditions on a run, on the device an operation finds when it begins and on the device
  and the answer of each call;
* `Keeps`, `Keeps.kept` : the rule by which everything about runs is proved.  It asks what an
  operation makes of a device when it begins, what each call that the rules allow does to it, and
  that nothing more is needed when the operation ends or is cut off.
-/

namespace NeonHearth.Policy

open Presence SortedMap Option

/-! ### The machine -/

/-- An operation on a device, and what is left of it. -/
structure Running where
  context : Context
  program : Program AuditedDecision

/-- What the coordinator was asked for: the operation under way and those still to come. -/
structure Task where
  jobs : List Job
  running : Option Running

inductive Operation where
  | evaluate (p : DevicePolicy) (now : DateTime)
  | sweep (now : DateTime)
  | approve (device : DeviceId) (now : DateTime)
  | reject (device : DeviceId) (now : DateTime)
  | quarantine (device : DeviceId) (now : DateTime)
  | extendOnce (device : DeviceId) (until' now : DateTime)

/-- The operations on single devices.  A sweep lists the stored policies once. -/
def Operation.jobs (devices : SortedMap DeviceId Device) : Operation → List Job
  | .evaluate p now => [⟨p.deviceId, now, .evaluate p⟩]
  | .sweep now => devices.toList.map fun entry => ⟨entry.1, now, .evaluate entry.2.policy⟩
  | .approve device now => [⟨device, now, .approve⟩]
  | .reject device now => [⟨device, now, .reject⟩]
  | .quarantine device now => [⟨device, now, .quarantine⟩]
  | .extendOnce device until' now => [⟨device, now, .extendOnce until'⟩]

/-- A change of a stored policy that is not an operation. -/
inductive Edit where
  | risk (value : RiskSignal)
  | identification (value : Identification)
  | protection (value : Protection)

def Edit.apply (p : DevicePolicy) : Edit → DevicePolicy
  | .risk value => { p with risk := value }
  | .identification value => { p with identification := value }
  | .protection value => { p with protection := value }

structure CoordinatorState where
  devices : SortedMap DeviceId Device
  transitions : List TransitionRow
  task : Option Task

inductive CoordinatorEvent where
  | enroll (device : DeviceId) (firstSeenAt : DateTime) (baselineExempt : Bool)
  | edit (device : DeviceId) (value : Edit)
  | start (operation : Operation)
  /-- The next operation of the task begins. -/
  | next
  /-- The operation makes its next call. -/
  | call (answer : Answer)
  /-- The call on the database fails. -/
  | fail
  /-- The operation returns. -/
  | finish
  | crash

namespace CoordinatorState

variable (s : CoordinatorState)

/-- The operation that begins next. -/
def upcoming : Option Context :=
  match s.task with
  | some ⟨job :: _, none⟩ => (s.devices.get job.device).map fun d => ⟨job, d⟩
  | _ => none

/-- The call that is made next, with its operation and the device. -/
def pending : Option (Context × Device × Call) :=
  match s.task with
  | some ⟨_, some ⟨ctx, .call c _⟩⟩ => (s.devices.get ctx.job.device).map fun d => (ctx, d, c)
  | _ => none

/-- The operation that returns, and what. -/
def returned : Option (Context × Except PolicyError AuditedDecision) :=
  match s.task with
  | some ⟨_, some ⟨ctx, program⟩⟩ => program.result.map fun r => (ctx, r)
  | _ => none

/-- The task with the jobs that are left. -/
def withJobs : List Job → CoordinatorState
  | [] => { s with task := none }
  | job :: jobs => { s with task := some ⟨job :: jobs, none⟩ }

end CoordinatorState

section Machine

variable (presence events : Bool)

/-- The first job begins.  On a device that is not enrolled an action of the owner is refused with
`NotEnrolled`, and nothing else is asked for. -/
def beginJob (s : CoordinatorState) (job : Job) (jobs : List Job) : CoordinatorState :=
  match s.devices.get job.device with
  | none => { s with task := none }
  | some d =>
    { s with task := some ⟨jobs, some ⟨⟨job, d⟩, job.program (coordinator presence events)⟩⟩ }

/-- The next call of an operation. -/
def callNext (s : CoordinatorState) (jobs : List Job) (r : Running) (answer : Answer) :
    Option CoordinatorState := do
  let d ← s.devices.get r.context.job.device
  let (program, site) ← r.program.next call answer ⟨d, s.transitions⟩
  return {
    devices := s.devices.insert r.context.job.device site.device
    transitions := site.transitions
    task := some ⟨jobs, some { r with program := program }⟩ }

def coordinatorStep (s : CoordinatorState) : CoordinatorEvent → Option CoordinatorState
  | .enroll device firstSeenAt baselineExempt =>
    match s.task, s.devices.get device with
    | none, none => some { s with
        devices := s.devices.insert device (.enrolled device firstSeenAt baselineExempt) }
    | none, some _ => some s
    | some _, _ => none
  | .edit device value =>
    match s.task, s.devices.get device with
    | none, some d => some { s with
        devices := s.devices.insert device (d.setPolicy (value.apply d.policy)) }
    | _, _ => none
  | .start operation =>
    match s.task with
    | none => some (s.withJobs (operation.jobs s.devices))
    | some _ => none
  | .next =>
    match s.task with
    | some ⟨job :: jobs, none⟩ => some (beginJob presence events s job jobs)
    | _ => none
  | .call answer =>
    match s.task with
    | some ⟨jobs, some r⟩ => callNext s jobs r answer
    | _ => none
  | .fail =>
    match s.task with
    | some ⟨jobs, some ⟨ctx, .call (.inl _) _⟩⟩ =>
      some { s with task := some ⟨jobs, some ⟨ctx, .throw .storage⟩⟩ }
    | _ => none
  | .finish =>
    match s.task with
    | some ⟨jobs, some ⟨_, .pure _⟩⟩ => some (s.withJobs jobs)
    -- an error ends a sweep
    | some ⟨_, some ⟨_, .throw _⟩⟩ => some { s with task := none }
    | _ => none
  | .crash => some { s with task := none }

/-- The runs of one coordinator, from an empty policy database. -/
def coordinatorMachine : Machine CoordinatorState CoordinatorEvent where
  init s := s.devices = ∅ ∧ s.task = none
  step := coordinatorStep presence events

end Machine

/-! ### Conditions on runs -/

structure Guard where
  /-- The operations that may begin. -/
  begins : Context → Prop
  /-- The answers that a call may get. -/
  calls : Context → Device → Call → Answer → Prop

def Guard.Holds (g : Guard) (s : CoordinatorState) : CoordinatorEvent → Prop
  | .next => ∀ ctx ∈ s.upcoming, g.begins ctx
  | .call answer => ∀ p ∈ s.pending, g.calls p.1 p.2.1 p.2.2 answer
  | _ => True

instance (g : Guard) [DecidablePred g.begins] [∀ ctx d c answer, Decidable (g.calls ctx d c answer)]
    (s : CoordinatorState) : ∀ e, Decidable (g.Holds s e)
  | .next => inferInstanceAs (Decidable (∀ ctx ∈ s.upcoming, g.begins ctx))
  | .call answer => inferInstanceAs (Decidable (∀ p ∈ s.pending, g.calls p.1 p.2.1 p.2.2 answer))
  | .enroll .. | .edit .. | .start _ | .fail | .finish | .crash => .isTrue trivial

/-- No condition. -/
def Guard.free : Guard := ⟨fun _ => True, fun _ _ _ _ => True⟩

/-- The router tells what it carries: a look finds a block exactly if it is there, and a release is
offered only for a block that is there. -/
def Device.tells (d : Device) : Call → Answer → Bool
  | .inr (.reconcile action), .reconciled .verifiedApplied => action ∈ d.blocks
  | .inr (.reconcile action), .reconciled .provenNotApplied => action ∉ d.blocks
  | .inr (.undoAvailable action), .available true => action ∈ d.blocks
  | _, _ => true

abbrev Guard.truthful : Guard where
  begins _ := True
  calls _ d c answer := d.tells c answer

/-! ### Invariants of runs -/

variable {presence events : Bool} {g : Guard} {idle : Device → Prop}
  {busy : Context → Device → Prop} {ctx : Context} {d d' : Device} {s s' : CoordinatorState}

/-- What is asked of an invariant: `idle` of a device at all times, `busy` of the device that an
operation works on. -/
structure Keeps (g : Guard) (idle : Device → Prop) (busy : Context → Device → Prop) : Prop where
  enrolled : ∀ device firstSeenAt baselineExempt,
    idle (.enrolled device firstSeenAt baselineExempt)
  edited : ∀ {d : Device}, idle d → ∀ p, idle (d.setPolicy p)
  begins : ∀ {ctx : Context}, idle ctx.start → Stored ctx.start → g.begins ctx → busy ctx ctx.start
  calls : ∀ {ctx : Context} {d d' : Device} {c : Call} {answer : Answer}, busy ctx d → Stored d →
    Allowed ctx d c → g.calls ctx d c answer → Change d c answer d' → busy ctx d'
  /-- An operation may end at any time. -/
  ends : ∀ {ctx : Context} {d : Device}, busy ctx d → idle d

/-- What holds in every state of a run. -/
structure Kept (idle : Device → Prop) (busy : Context → Device → Prop) (s : CoordinatorState) :
    Prop where
  idle : ∀ id d, s.devices.get id = some d → Stored d ∧ idle d
  busy : ∀ jobs r, s.task = some ⟨jobs, some r⟩ → ∃ d,
    s.devices.get r.context.job.device = some d ∧ busy r.context d ∧
      Obeys r.context (Ends r.context) r.program ⟨d, s.transitions⟩

theorem Stored.change {c : Call} {answer} (h : Stored d) (hc : Allowed ctx d c)
    (hchange : Change d c answer d') : Stored d' := by
  cases hchange with
  | reserve policyVersion action decision hnone =>
    have hc : MayReserve ctx d policyVersion action decision := hc
    have hattempt : (⟨policyVersion, action, decision⟩ : ActuationAttempt) = ctx.attempt := by
      rw [hc.version, hc.requested, hc.event, Context.attempt, Context.action,
        Context.evaluation, evaluatePolicy_policyVersion]
    rw [hattempt]
    exact h.reserve hc.block hc.prior
  | retire => exact h.mono rfl (by simp)
  | acknowledge event =>
    have hc : MayAcknowledge ctx d event none := hc
    exact h.acknowledge hc.coherent (hc.kept rfl)
  | acknowledgeAndRetire event attempt =>
    have hc : MayAcknowledge ctx d event (some attempt) := hc
    refine ⟨by simp, ?_⟩
    rintro _ ⟨⟩
    exact hc.coherent
  | _ => exact h.mono rfl fun _ => id

namespace Kept

/-- A device is written while no operation is under way. -/
theorem write (h : Kept idle busy s) {id} (hst : Stored d) (hidle : idle d)
    (htask : s.task = none) : Kept idle busy { s with devices := s.devices.insert id d } := by
  refine ⟨fun id' d' hd' => ?_, fun jobs r hr => ?_⟩
  · obtain ⟨-, rfl⟩ | ⟨-, hd'⟩ := get_insert_eq_some.1 hd'
    · exact ⟨hst, hidle⟩
    · exact h.idle id' d' hd'
  · simp [htask] at hr

theorem withJobs (h : Kept idle busy s) (jobs) : Kept idle busy (s.withJobs jobs) := by
  cases jobs with
  | nil | cons => exact ⟨h.idle, fun _ _ hr => by cases hr⟩

theorem drop (h : Kept idle busy s) : Kept idle busy { s with task := none } := h.withJobs []

end Kept

namespace Keeps

section

variable (hk : Keeps g idle busy)
include hk

theorem beginJob (h : Kept idle busy s) {job : Job} {jobs}
    (hg : ∀ ctx ∈ (s.devices.get job.device).map (Context.mk job), g.begins ctx) :
    Kept idle busy (beginJob presence events s job jobs) := by
  unfold Policy.beginJob
  split
  · exact h.drop
  next d hd =>
  refine ⟨h.idle, fun jobs' r hr => ?_⟩
  cases hr
  obtain ⟨hst, hidle⟩ := h.idle _ d hd
  refine ⟨d, hd, hk.begins hidle hst (hg _ ?_), program_obeys presence events hst _⟩
  rw [hd]
  rfl

theorem callNext (h : Kept idle busy s) {jobs r answer} (htask : s.task = some ⟨jobs, some r⟩)
    (hg : ∀ p ∈ s.pending, g.calls p.1 p.2.1 p.2.2 answer)
    (hs : callNext s jobs r answer = some s') : Kept idle busy s' := by
  obtain ⟨d, hd, hbusy, hobeys⟩ := h.busy jobs r htask
  obtain ⟨d₁, hd₁, hs⟩ := bind_eq_some_iff.1 hs
  obtain rfl := some.inj (hd.symm.trans hd₁)
  obtain ⟨⟨program, site⟩, hnext, hs⟩ := bind_eq_some_iff.1 hs
  cases hs
  obtain ⟨hrest, c, k, reply, hprogram, hallowed, hcall⟩ := hobeys.next hnext
  obtain ⟨hst, -⟩ := h.idle _ d hd
  have hpending : (r.context, d, c) ∈ s.pending := by
    obtain ⟨ctx, p⟩ := r
    subst hprogram
    simp only [CoordinatorState.pending, htask, hd]
    rfl
  have hchange := change_of_call hcall
  have hbusy' := hk.calls hbusy hst hallowed (hg _ hpending) hchange
  refine ⟨fun id d' hd' => ?_, fun jobs' r' hr' => ?_⟩
  · obtain ⟨-, rfl⟩ | ⟨-, hd'⟩ := get_insert_eq_some.1 hd'
    · exact ⟨hst.change hallowed hchange, hk.ends hbusy'⟩
    · exact h.idle id d' hd'
  · cases hr'
    exact ⟨site.device, by simp, hbusy', hrest⟩

theorem step {e} (h : Kept idle busy s)
    (hg : g.Holds s e) (hs : coordinatorStep presence events s e = some s') : Kept idle busy s' := by
  cases e with
  | enroll device firstSeenAt baselineExempt =>
    rw [coordinatorStep] at hs
    split at hs
    · next htask _ =>
      cases hs
      refine h.write ⟨?_, ?_⟩ (hk.enrolled ..) htask
      all_goals exact fun _ hnone => absurd hnone (by simp [Device.enrolled])
    · cases hs
      exact h
    · cases hs
  | edit device value =>
    rw [coordinatorStep] at hs
    split at hs
    · next d htask hd =>
      cases hs
      obtain ⟨hst, hidle⟩ := h.idle _ d hd
      exact h.write (hst.mono rfl fun _ => id) (hk.edited hidle _) htask
    · cases hs
  | start operation =>
    rw [coordinatorStep] at hs
    split at hs
    · cases hs
      exact h.withJobs _
    · cases hs
  | next =>
    rw [coordinatorStep] at hs
    split at hs
    · next job jobs htask =>
      cases hs
      refine hk.beginJob h fun ctx hctx => hg ctx ?_
      simp only [CoordinatorState.upcoming, htask]
      exact hctx
    · cases hs
  | call answer =>
    rw [coordinatorStep] at hs
    split at hs
    · next jobs r htask => exact hk.callNext h htask hg hs
    · cases hs
  | fail =>
    rw [coordinatorStep] at hs
    split at hs
    · next jobs ctx c k htask =>
      cases hs
      refine ⟨h.idle, fun jobs' r' hr' => ?_⟩
      cases hr'
      obtain ⟨d, hd, hbusy, -⟩ := h.busy jobs _ htask
      exact ⟨d, hd, hbusy, .storage⟩
    · cases hs
  | finish =>
    rw [coordinatorStep] at hs
    split at hs
    · cases hs
      exact h.withJobs _
    · cases hs
      exact h.drop
    · cases hs
  | crash =>
    cases hs
    exact h.drop

section

variable (h : (coordinatorMachine presence events).Via g.Holds s)
include h

/-- **The rule for runs**: an invariant that every operation keeps holds in every state that a run
meeting the guard reaches. -/
theorem kept : Kept idle busy s := by
  refine h.invariant (fun s hs => ⟨fun id d hd => ?_, fun jobs r hr => ?_⟩)
    fun s e s' ih hg hs => hk.step ih hg hs
  · simp [hs.1] at hd
  · simp [hs.2] at hr

/-- A device at any time of a run. -/
theorem idle_of_via {id} (hd : s.devices.get id = some d) : idle d :=
  ((hk.kept h).idle id d hd).2

/-- The device of an operation that returns. -/
theorem busy_of_via {r} (hr : s.returned = some (ctx, r)) :
    ∃ d, s.devices.get ctx.job.device = some d ∧ busy ctx d ∧ Returns ctx d r := by
  unfold CoordinatorState.returned at hr
  split at hr
  · next jobs ctx' program htask =>
    obtain ⟨r', hresult, heq⟩ := map_eq_some_iff.1 hr
    cases heq
    obtain ⟨d, hd, hbusy, hobeys⟩ := (hk.kept h).busy jobs _ htask
    exact ⟨d, hd, hbusy, hobeys.result hresult⟩
  · cases hr

end

end

end Keeps

/-! ### Sample runs -/

/-- A coordinator with an empty database. -/
def newCoordinator : CoordinatorState := ⟨∅, [], none⟩

theorem newCoordinator_init : (coordinatorMachine presence events).init newCoordinator := ⟨rfl, rfl⟩

/-- The device of the sample runs. -/
def camera : DeviceId := 7

/-- The camera is found. -/
def enrollCamera : CoordinatorEvent := .enroll camera (halfSecond 0) false

/-- The operation begins and makes its first calls, all of them on the database. -/
def begin' (operation : Operation) (n : ℕ) : List CoordinatorEvent :=
  .start operation :: .next :: List.replicate n (.call .stored)

/-- An answer of the router, and the calls on the database that follow. -/
def answer (a : Answer) (n : ℕ) : List CoordinatorEvent :=
  .call a :: List.replicate n (.call .stored)

/-- The owner quarantines the camera; the router offers a release or not. -/
def quarantineCamera (undoAvailable : Bool) : List CoordinatorEvent :=
  enrollCamera :: begin' (.quarantine camera (halfSecond 10)) 8 ++ answer (.enforced .verified true) 1 ++
    answer (.available undoAvailable) 3 ++ [.finish]

end NeonHearth.Policy
