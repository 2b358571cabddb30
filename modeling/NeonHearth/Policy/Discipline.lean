import NeonHearth.Policy.Router

/-!
# When the coordinator calls what

The operations of the coordinator, read once: in which states each of their calls is made, and what
holds when they return.  All that is proved about runs of operations rests on these rules.

* `Stored` : what holds of the tables at all times;
* `Allowed` : the rules for the calls that matter: a reservation, a call of the router, a change of
  the scheduled release, an acknowledgement.
-/

namespace NeonHearth.Policy

/-! ### Operations on one device -/

/-- What is asked of the coordinator about a device. -/
inductive Request where
  | evaluate (p : DevicePolicy)
  | approve
  | reject
  | quarantine
  | extendOnce (until' : DateTime)
  deriving DecidableEq

structure Job where
  device : DeviceId
  now : DateTime
  request : Request

def Job.program {A : PFunctor.{0, 0}} (co : PolicyCoordinator A) (job : Job) :
    PolicyProg A AuditedDecision :=
  match job.request with
  | .evaluate p => co.evaluate p job.now
  | .approve => co.approve job.now
  | .reject => co.reject job.now
  | .quarantine => co.quarantine job.now
  | .extendOnce until' => co.extendOnce until' job.now

/-- An operation with the device as it found it. -/
structure Context where
  job : Job
  start : Device

namespace Context

variable (ctx : Context)

def approves : Bool := ctx.job.request = .approve

def evaluates : Bool :=
  match ctx.job.request with
  | .evaluate _ => true
  | .approve | .reject | .quarantine | .extendOnce _ => false

def decides : Bool :=
  match ctx.job.request with
  | .reject | .quarantine => true
  | .evaluate _ | .approve | .extendOnce _ => false

/-- The policy that the operation evaluates. -/
def policy : DevicePolicy :=
  match ctx.job.request with
  | .evaluate p => p
  | .approve => { ctx.start.policy with ownerDecision := .approved }
  | .reject => { ctx.start.policy with ownerDecision := .rejected }
  | .quarantine => { ctx.start.policy with ownerDecision := .quarantined }
  | .extendOnce until' =>
    if ctx.start.extensionUsed then ctx.start.policy
    else { ctx.start.policy with extensionUntil := some until' }

def evaluation : Evaluation := evaluatePolicy ctx.policy ctx.job.now

def event (enforcement : EnforcementStatus) (undoAvailable : Bool) : PolicyChanged :=
  policyEvent ctx.policy ctx.evaluation enforcement undoAvailable

/-- The operation may lift a block. -/
def Releases : Prop := ctx.approves ∨ (ctx.decides = false ∧ ctx.start.releaseRetry ≠ none)
  deriving Decidable

/-- The operation is not one that retries a release. -/
def NoRetry : Prop :=
  ctx.decides = false → ctx.start.releaseRetry = none ∨ ctx.start.published = none

/-- What the operation has noted so far. -/
def Since (d : Device) (recent : List Entry) : Prop := d.log = recent ++ ctx.start.log

def Noted (d : Device) (entry : Entry) : Prop := ∃ recent, ctx.Since d recent ∧ entry ∈ recent

/-- The operation has not asked the router to block the device yet. -/
def First (d : Device) : Prop := ∃ recent, ctx.Since d recent ∧ ∀ a att r, .enforced a att r ∉ recent

end Context

/-- The decision without what it says about a release. -/
def PolicyChanged.base (e : PolicyChanged) : PolicyChanged := { e with undoAvailable := false }

/-- The decision that the event announces. -/
def PolicyChanged.decision (e : PolicyChanged) : AuditedDecision where
  evaluation := e.evaluation
  reason := e.evaluation.reason
  policyVersion := e.policyVersion
  evidenceSummary := e.evidenceSummary
  requestedAction := e.requestedAction
  enforcement := e.enforcementResult
  undoAvailable := e.undoAvailable

/-! ### The tables -/

/-- The journal row stands for the decision. -/
structure ActuationAttempt.Reserves (row : ActuationAttempt) (e : PolicyChanged) : Prop where
  decision : row.decision = some e
  version : row.policyVersion = Policy.policyVersion
  block : row.action.isBlock
  action : e.requestedAction = row.action
  evaluation : e.evaluation.requestedAction = row.action
  policyVersion : e.policyVersion = Policy.policyVersion
  result : e.enforcementResult = .verified
  undoAvailable : e.undoAvailable = false

/-- What holds of the rows of a device at all times. -/
structure Stored (d : Device) : Prop where
  row : ∀ row, d.journal = some row → ∃ e, row.Reserves e ∧ d.published ≠ some e
  coherent : ∀ e, d.published = some e → e.requestedAction = e.evaluation.requestedAction

/-! ### The rules -/

/-- The answers of the router, as they count for a decision. -/
def Entry.isCall : Entry → Bool
  | .enforced .. | .undone .. | .reconciled .. => true
  | .reserved _ | .availability .. | .prepared _ | .delivered _ | .acknowledged _ => false

def Device.lastCall (d : Device) : Option Entry := d.log.find? Entry.isCall

/-- The published decision has the evaluation of the operation and a verified result. -/
def Context.PriorVerified (ctx : Context) (published : Option PolicyChanged) : Prop :=
  ∃ last, published = some last ∧ last.evaluation = ctx.evaluation ∧ last.enforcementResult = .verified
  deriving Decidable

/-- Every journal row that the operation found has been shown to have had no effect. -/
def Context.Disproved (ctx : Context) (d : Device) : Prop :=
  ∀ row, ctx.start.journal = some row → ctx.Noted d (.reconciled row.action .provenNotApplied)

/-- No verified block is published. -/
def NoVerifiedBlock (published : Option PolicyChanged) : Prop :=
  ∀ last, published = some last → ¬last.VerifiedBlock

structure MayReserve (ctx : Context) (d : Device) (policyVersion : ℕ) (action : RequestedAction)
    (decision : Option PolicyChanged) : Prop where
  block : ctx.evaluation.requestedAction.isBlock
  version : policyVersion = Policy.policyVersion
  requested : action = ctx.evaluation.requestedAction
  event : decision = some (ctx.event .verified false)
  prior : ¬ctx.PriorVerified d.published

structure MayEnforce (ctx : Context) (d : Device) (action : RequestedAction) : Prop where
  requested : action = ctx.evaluation.requestedAction
  block : action.isBlock
  unprotected : ctx.policy.protection = .none
  /-- The row has just been reserved. -/
  reserved : ∃ row, d.journal = some row ∧ row.action = action ∧
    row.decision = some (ctx.event .verified false) ∧ d.log.head? = some (.reserved row)
  prior : ¬ctx.PriorVerified d.published
  first : ctx.First d
  start : ¬ctx.PriorVerified ctx.start.published
  ban : ∀ row, ctx.start.journal = some row → row.action = .permanentBan →
    ctx.Noted d (.reconciled .permanentBan .provenNotApplied)
  release : ctx.NoRetry
  decided : ctx.decides → ∀ retry, ctx.start.releaseRetry = some retry → retry.1 = action →
    ctx.Noted d (.reconciled action .provenNotApplied)
  approved : ctx.approves → NoVerifiedBlock ctx.start.published ∧
    d.releaseRetry = ctx.start.releaseRetry

/-- Why a verified block may be published. -/
inductive Reported (ctx : Context) (d : Device) (e : PolicyChanged) : Prop
  | enforced {a att} (h : d.lastCall = some (.enforced a att .verified))
  | reconciled {a} (h : d.lastCall = some (.reconciled a .verifiedApplied))
  | repeated (h : ctx.PriorVerified d.published)
      (hblock : ctx.evaluation.requestedAction.isBlock)
  | released (h : ctx.Releases) (haction : e.requestedAction = ctx.evaluation.requestedAction)

/-- Why an approval may end with a result, given the decision published before it ends. -/
inductive Approval (ctx : Context) (d : Device) (published : Option PolicyChanged)
    (result : EnforcementStatus) : Prop
  /-- The release has been scheduled. -/
  | pending (hretry : d.releaseRetry ≠ none)
      (hresult : result ≠ .notRequested ∨ ∃ a, d.lastCall = some (.undone a .notRequested))
  | undone {a} (h : d.lastCall = some (.undone a .verified))
  /-- A release waits for its retry. -/
  | waiting {last} (hpub : published = ctx.start.published)
      (hlast : ctx.start.published = some last) (hresult : result = last.enforcementResult)
      (hblock : ¬last.VerifiedBlock) (hretry : d.releaseRetry ≠ none)
      (hblocks : d.blocks = ctx.start.blocks) (hdisproved : ctx.Disproved d)
  /-- A release had been recorded, its retry is cleared. -/
  | fenced (hretry : d.releaseRetry = none) (hstart : ctx.start.releaseRetry ≠ none)
  /-- No release was scheduled. -/
  | unreleased (hpub : published = ctx.start.published)
      (hstart : ctx.start.releaseRetry = none ∨ ctx.start.published = none)
      (hretry : d.releaseRetry = ctx.start.releaseRetry)
      (hblock : NoVerifiedBlock ctx.start.published) (hdisproved : ctx.Disproved d)

/-- What has to be known about a decision that is published. -/
structure MayPublish (ctx : Context) (d : Device) (e : PolicyChanged) : Prop where
  coherent : e.requestedAction = e.evaluation.requestedAction
  version : e.policyVersion = Policy.policyVersion
  reported : e.VerifiedBlock → Reported ctx d e
  approved : ctx.approves → e.VerifiedBlock ∨ Approval ctx d d.published e.enforcementResult

structure MayAcknowledge (ctx : Context) (d : Device) (e : PolicyChanged)
    (attempt : Option ActuationAttempt) : Prop extends MayPublish ctx d e where
  outbox : d.outbox = some e
  retired : ∀ row, attempt = some row → d.journal = some row ∧ row.decision = some e.base
  kept : attempt = none → ∀ row, d.journal = some row → row.decision ≠ some e

/-- **The rules**: the states in which an operation makes a call. -/
def Allowed (ctx : Context) (d : Device) : Call → Prop
  | .inl (.reserveActuationWithDecision policyVersion action decision) =>
    MayReserve ctx d policyVersion action decision
  | .inl (.clearActuationAttempt policyVersion action) =>
    d.log.head? = some (.reconciled action .provenNotApplied) ∧
      ∃ row, d.journal = some row ∧ StoreCommand.Matches policyVersion action row
  | .inl .clearReleaseRetry => ctx.approves → (∃ a, d.lastCall = some (.undone a .verified)) ∨
      (d.journal = none ∧ NoVerifiedBlock d.published)
  | .inl (.markDecisionPublishedAndClearAttempt e attempt) => MayAcknowledge ctx d e attempt
  | .inr (.enforce action) => MayEnforce ctx d action
  | .inr (.undo _) => ctx.Releases
  | .inr (.reconcile _) => ctx.approves → d.blocks = ctx.start.blocks
  | _ => True

/-- The operation found a journal row whose decision is the published one but for what it says about
a release, and it asks for another block. -/
@[mk_iff]
structure Context.Superseded (ctx : Context) (row : ActuationAttempt) (last : PolicyChanged) :
    Prop where
  journal : ctx.start.journal = some row
  published : ctx.start.published = some last
  decision : row.decision = some last.base
  other : row.action ≠ ctx.evaluation.requestedAction
  block : ctx.evaluation.requestedAction.isBlock

instance (ctx : Context) (row : ActuationAttempt) (last : PolicyChanged) :
    Decidable (ctx.Superseded row last) := decidable_of_iff' _ (Context.superseded_iff ..)

/-- The errors that an operation can end with, and why. -/
inductive Fails (ctx : Context) : PolicyError → Prop
  | storage : Fails ctx .storage
  | pendingRelease (h : ctx.decides) : Fails ctx .pendingRelease
  | supersededAttempt {row last} (h : ctx.Superseded row last) : Fails ctx .supersededAttempt
  | extensionNotLater {until' due} (hrequest : ctx.job.request = .extendOnce until')
      (hdue : ctx.start.policy.firstSeenAt.checkedAddSigned
        ctx.start.policy.identification.deadline.2.1 = some due) (hle : until' ≤ due) :
      Fails ctx .extensionNotLater

/-- What holds when an operation returns. -/
def Returns (ctx : Context) (d : Device) : Except PolicyError AuditedDecision → Prop
  | .ok decision =>
    d.published = some (ctx.event decision.enforcement decision.undoAvailable) ∧
      decision = (ctx.event decision.enforcement decision.undoAvailable).decision ∧
      (d.outbox = none ∨ d.outbox = ctx.start.outbox ∧ ctx.start.published = d.published) ∧
      (ctx.approves → Approval ctx d ctx.start.published decision.enforcement)
  | .error e => Fails ctx e

/-! ### Calls -/

section Calls

variable {ctx : Context} {s s₁ : Site} {α : Type} {Q : Except PolicyError α → Site → Prop}

/-- The programs that obey the rules of an operation. -/
abbrev Obeys (ctx : Context) (Q : Except PolicyError α → Site → Prop) (p : Program α) (s : Site) :
    Prop :=
  p.Obeys call (fun c s => Allowed ctx s.device c) Q s

variable {c : StoreCommand} {action : RequestedAction} {f : c.Reply → Program α}

/-- A call on the store, whatever it answers. -/
theorem obeys_store_run {r} (h : c.run s = some (r, s₁))
    (hc : Allowed ctx s.device (.inl c)) (hf : ∀ reply, r = .ok reply → Obeys ctx Q (f reply) s₁)
    (hQ : ∀ e, r = .error e → Q (.error e) s₁) : Obeys ctx Q (store c >>= f) s := by
  refine Prog.Obeys.await hc (fun w s' reply hr => ?_) (fun w s' e hr => ?_)
  all_goals
    cases w with
    | stored =>
      obtain ⟨hreply, rfl⟩ := Prod.mk.inj (Option.some.inj (h.symm.trans hr))
      first | exact hf _ hreply | exact hQ _ hreply
    | _ => cases hr

theorem obeys_store {reply} (h : c.run s = some (.ok reply, s₁))
    (hc : Allowed ctx s.device (.inl c)) (hf : Obeys ctx Q (f reply) s₁) :
    Obeys ctx Q (store c >>= f) s :=
  obeys_store_run h hc (fun _ heq => Except.ok.inj heq ▸ hf) nofun

theorem obeys_store_error {e} (h : c.run s = some (.error e, s₁))
    (hc : Allowed ctx s.device (.inl c)) (hQ : Q (.error e) s₁) : Obeys ctx Q (store c >>= f) s :=
  obeys_store_run h hc nofun fun _ heq => Except.error.inj heq ▸ hQ

theorem obeys_store_none (h : c.run s = none) (hc : Allowed ctx s.device (.inl c)) :
    Obeys ctx Q (store c >>= f) s := by
  refine Prog.Obeys.await hc (fun w s' reply hr => ?_) (fun w s' e hr => ?_)
  all_goals
    cases w with
    | stored => cases h.symm.trans hr
    | _ => cases hr

theorem obeys_store_map {o} {g : DateTime → Site} {reply}
    (h : c.run s = o.map fun t => (.ok reply, g t))
    (hc : Allowed ctx s.device (.inl c))
    (hf : ∀ t, o = some t → Obeys ctx Q (f reply) (g t)) : Obeys ctx Q (store c >>= f) s := by
  cases o with
  | some t => exact obeys_store h hc (hf t rfl)
  | none => exact obeys_store_none h hc

theorem obeys_clear {row} {version : ℕ} {f}
    (hlog : s.device.log.head? = some (.reconciled action .provenNotApplied))
    (hrow : s.device.journal = some row) (hmatch : StoreCommand.Matches version action row)
    (hf : Obeys ctx Q (f ()) { s with device := s.device.retire }) :
    Obeys ctx Q (store (.clearActuationAttempt version action) >>= f) s := by
  refine obeys_store ?_ ⟨hlog, row, hrow, hmatch⟩ hf
  rw [StoreCommand.run, if_pos (by simp [hrow, hmatch])]

theorem obeys_enforce {f} (hc : MayEnforce ctx s.device action)
    (hf : ∀ result applied, Obeys ctx Q (f result)
      { s with device := s.device.enforce action result applied }) :
    Obeys ctx Q (router.enforce action >>= f) s := by
  refine Prog.Obeys.await hc (fun w s' reply hr => ?_) (fun w s' e hr => ?_) <;> cases w <;> cases hr
  exact hf _ _

theorem obeys_reconcile {f} (hc : ctx.approves → s.device.blocks = ctx.start.blocks)
    (hf : ∀ answer, Obeys ctx Q (f answer)
      { s with device := s.device.note (.reconciled action answer) }) :
    Obeys ctx Q (router.reconcile action >>= f) s := by
  refine Prog.Obeys.await hc (fun w s' reply hr => ?_) (fun w s' e hr => ?_) <;> cases w <;> cases hr
  exact hf _

theorem obeys_undo {f} (hc : ctx.Releases)
    (hf : ∀ result, Obeys ctx Q (f result) { s with device := s.device.undo action result }) :
    Obeys ctx Q (router.undo action >>= f) s := by
  refine Prog.Obeys.await hc (fun w s' reply hr => ?_) (fun w s' e hr => ?_) <;> cases w <;> cases hr
  exact hf _

theorem obeys_undoAvailable {f} (hf : ∀ answer, Obeys ctx Q (f answer)
      { s with device := s.device.note (.availability action answer) }) :
    Obeys ctx Q (router.undoAvailable action >>= f) s := by
  refine Prog.Obeys.await trivial (fun w s' reply hr => ?_) (fun w s' e hr => ?_) <;> cases w <;> cases hr
  exact hf _

end Calls

end NeonHearth.Policy
