import NeonHearth.Wasm.Manifest

/-!
# The budgets of an audit module

The broker runs a verified module in a sandbox (`broker.rs`, `runtime.rs`).  The guest can exchange
bytes with one approved target, and two ledgers count what it spends: the sandbox's own (`StoreState`)
and the broker's (`Budget`).  Both reserve the request and the largest response before an exchange and
give back what the response does not use.  When an exchange fails, the broker's reservation is dropped
and the guest is stopped.

The guest and what surrounds it (the clock, cancellation, the authorizer and the transport) are not
modelled: a run is given by the list of the guest's steps, each with the answers that the host gets
meanwhile.  `execute_within_budget` holds for every such list.
-/

namespace NeonHearth.Wasm

open NeonHearth.Except List Option

inductive TargetError where
  | invalidTarget
  | invalidInterface
  | invalidPort
  | rejected

inductive BrokerError where
  | target (error : TargetError)
  | missingApproval
  | capabilityDenied
  | budgetExhausted
  | deadlineExceeded
  | cancelled
  | sandbox (error : AuditError)
  | exchangeFailed

inductive AuditHostError where
  | denied
  | budgetExhausted
  | deadlineExceeded
  | cancelled
  | exchangeFailed

inductive ExecutionFailure where
  | memory
  | table
  | request
  | bytes
  | invalidAbi
  | host (error : AuditHostError)

/-- `map_error` for a failure that was noted. -/
def mapError : ExecutionFailure → AuditError
  | .memory => .memoryLimitExceeded
  | .table => .tableLimitExceeded
  | .request => .requestLimitExceeded
  | .bytes => .budgetExhausted
  | .invalidAbi => .invalidAbi
  | .host .budgetExhausted => .requestLimitExceeded
  | .host .deadlineExceeded => .timedOut
  | .host .cancelled => .cancelled
  | .host _ => .hostRejected

/-- `checked_add` of numbers with so many bits. -/
def checkedAdd (bits a b : ℕ) : Option ℕ := if a + b < 2 ^ bits then some (a + b) else none

/-! ### The broker's ledger -/

structure Budget where
  requests : ℕ
  bytes : ℕ
  maxRequests : ℕ
  maxBytes : ℕ

namespace Budget

def new (limits : Limits) : Budget := ⟨0, 0, limits.maxRequests.toNat, limits.maxBytes.toNat⟩

/-- `late` says that the deadline has passed. -/
def reserve (b : Budget) (late : Bool) (requestBytes responseCap : ℕ) : Option Budget := do
  let total ← checkedAdd 64 requestBytes responseCap
  if late || b.maxRequests ≤ b.requests || b.maxBytes - b.bytes < total then none
  else
    let requests ← checkedAdd 32 b.requests 1
    let bytes ← checkedAdd 64 b.bytes total
    some { b with requests := requests, bytes := bytes }

def refund (b : Budget) (responseCap actual : ℕ) : Budget :=
  { b with bytes := b.bytes - (responseCap - actual) }

/-- A reservation is dropped. -/
def release (b : Budget) (requestBytes responseCap : ℕ) : Budget :=
  { b with
    requests := b.requests - 1
    bytes := b.bytes - min (2 ^ 64 - 1) (requestBytes + responseCap) }

def chargeBytes (b : Budget) (late : Bool) (bytes : ℕ) : Except BrokerError Budget := do
  reject (late = true) .deadlineExceeded
  reject (b.maxBytes - b.bytes < bytes) .budgetExhausted
  let bytes ← okOr (checkedAdd 64 b.bytes bytes) .budgetExhausted
  pure { b with bytes := bytes }

end Budget

/-! ### The host -/

inductive TransportEnd where
  | done
  | failed
  | timedOut
  | cancelled

/-- What the transport receives in an exchange, and how the exchange ends. -/
structure Transport where
  received : List UInt8
  ending : TransportEnd

/-- What the host meets in an exchange.  The target is authorized again: the answer is an error, or
says whether it is still the same target. -/
structure HostEnv where
  cancelled : Bool
  late : Bool
  lateReserve : Bool
  authorized : Except TargetError Bool
  transport : Transport

/-- An exchange with the target, and whether the guest got the response. -/
structure ExchangeCall where
  request : List UInt8
  received : List UInt8
  succeeded : Bool

/-- What comes of a call of the host: the answer, the ledger, the exchange if there was one, and the
error of the authorizer if there was one. -/
structure HostResult where
  answer : Except AuditHostError (List UInt8)
  budget : Budget
  calls : List ExchangeCall
  targetError : Option TargetError

/-- `BrokerHost::exchange`.  On every return without a commit the reservation is dropped. -/
def hostExchange (env : HostEnv) (b : Budget) (request : List UInt8) (responseCap : ℕ) : HostResult :=
  if env.cancelled then ⟨.error .cancelled, b, [], none⟩
  else if env.late then ⟨.error .deadlineExceeded, b, [], none⟩
  else
    match b.reserve env.lateReserve request.length responseCap with
    | none => ⟨.error .budgetExhausted, b, [], none⟩
    | some reserved =>
      let dropped := reserved.release request.length responseCap
      let received := env.transport.received
      let failed (e : AuditHostError) : HostResult :=
        ⟨.error e, dropped, [⟨request, received, false⟩], none⟩
      match env.authorized with
      | .error e => ⟨.error .denied, dropped, [], some e⟩
      | .ok false => ⟨.error .denied, dropped, [], some .rejected⟩
      | .ok true =>
        match env.transport.ending with
        | .cancelled => failed .cancelled
        | .failed => failed .exchangeFailed
        | .timedOut => failed .deadlineExceeded
        | .done =>
          if responseCap < received.length then failed .exchangeFailed
          else ⟨.ok received, reserved.refund responseCap received.length,
            [⟨request, received, true⟩], none⟩

/-! ### The sandbox -/

structure StoreState where
  requests : ℕ
  maxRequests : ℕ
  maxBytes : ℕ
  bytes : ℕ

/-- A step of the guest, with its memory where the host looks at it. -/
inductive GuestStep where
  | deterministic
  | exchange (memory : List UInt8) (reqPtr reqLen outPtr outCap : Int32) (env : HostEnv)
  | finish (memory : List UInt8) (packed : BitVec 64)
  -- a trap, or the end of the fuel, the time, the memory or the tables
  | stop (error : AuditError)

/-- A run of a guest: both ledgers and the exchanges so far. -/
structure Run where
  store : StoreState
  budget : Budget
  calls : List ExchangeCall
  targetError : Option TargetError

/-- `usize::try_from`. -/
def toUsize (i : Int32) : Option ℕ := if i.toInt < 0 then none else some i.toInt.toNat

namespace Run

/-- The import `audit.exchange`.  A failure stops the guest. -/
def exchange (r : Run) (memory : List UInt8) (reqPtr reqLen outPtr outCap : Int32) (env : HostEnv) :
    Run × Option ExecutionFailure :=
  match toUsize reqPtr, toUsize reqLen, toUsize outPtr, toUsize outCap with
  | some reqPtr, some reqLen, some outPtr, some outCap =>
    if memory.length < reqPtr + reqLen ∨ memory.length < outPtr + outCap then (r, some .invalidAbi)
    else if r.store.maxBytes - r.store.bytes < reqLen + outCap then (r, some .bytes)
    else if r.store.maxRequests ≤ r.store.requests then (r, some .request)
    else
      let store := { r.store with
        requests := r.store.requests + 1, bytes := r.store.bytes + (reqLen + outCap) }
      let result := hostExchange env r.budget ((memory.drop reqPtr).take reqLen) outCap
      let r' : Run := ⟨store, result.budget, r.calls ++ result.calls, result.targetError⟩
      match result.answer with
      | .error e => (r', some (.host e))
      | .ok response =>
        if outCap < response.length then (r', some (.host .exchangeFailed))
        else ({ r' with store := { store with
          bytes := store.bytes - (outCap - response.length) } }, none)
  | _, _, _, _ => (r, some .invalidAbi)

/-- The import `audit.deterministic`. -/
def deterministic (r : Run) : Run × Option ExecutionFailure :=
  if r.store.maxRequests ≤ r.store.requests then (r, some .request)
  else ({ r with store := { r.store with requests := r.store.requests + 1 } }, none)

/-- The guest has returned a pointer and a length. -/
def output (r : Run) (memory : List UInt8) (packed : BitVec 64) : Except AuditError (List UInt8) := do
  let ptr := (packed.sshiftRight 32).toNat
  let len := packed.toNat % 2 ^ 32
  reject (r.store.maxBytes < len) .outputLimitExceeded
  reject (r.store.maxBytes - r.store.bytes < len) .budgetExhausted
  let stop ← okOr (checkedAdd 64 ptr len) .invalidAbi
  reject (memory.length < stop) .invalidAbi
  pure ((memory.drop ptr).take len)

/-- One step, and the result if it ends the run. -/
def step (r : Run) : GuestStep → Run × Option (Except AuditError (List UInt8))
  | .deterministic => (r.deterministic.1, r.deterministic.2.map fun e => .error (mapError e))
  | .exchange memory reqPtr reqLen outPtr outCap env =>
    let (r', failure) := r.exchange memory reqPtr reqLen outPtr outCap env
    (r', failure.map fun e => .error (mapError e))
  | .finish memory packed => (r, some (r.output memory packed))
  | .stop e => (r, some (.error e))

/-- The steps up to one that ends the run.  A run without such a step was dropped. -/
def run : Run → List GuestStep → Run × Except AuditError (List UInt8)
  | r, [] => (r, .error .timedOut)
  | r, s :: steps =>
    match r.step s with
    | (r', none) => r'.run steps
    | (r', some result) => (r', result)

/-- The run after steps that all let the guest go on. -/
def after : Run → List GuestStep → Option Run
  | r, [] => some r
  | r, s :: steps =>
    match r.step s with
    | (r', none) => r'.after steps
    | (_, some _) => none

end Run

/-! ### The broker -/

structure BrokerRequest where
  module : VerifiedManifest
  input : List UInt8
  port : UInt16
  capability : Capability
  approvalIsNil : Bool
  limits : Limits

/-- What the broker meets on its way.  `sandbox` is an error of the compiler or of the checks of the
module, `instance` one of its instantiation, and `interrupted` the end of the waiting for the run. -/
structure BrokerEnv where
  cancelled : Bool
  authorized : Except TargetError Bool
  late : Bool
  sandbox : Option AuditError
  lateSandbox : Bool
  lateInput : Bool
  instantiation : Option AuditError
  memorySize : ℕ
  steps : List GuestStep
  interrupted : Option BrokerError
  cancelledRun : Bool
  lateOutput : Bool
  unpublished : Option BrokerError

/-- What the module was given, what came back, and the exchanges in between. -/
structure Execution where
  input : List UInt8
  result : Except BrokerError (List UInt8)
  calls : List ExchangeCall

def Duration.le (a b : Duration) : Bool :=
  a.secs < b.secs || (a.secs = b.secs && a.subsecNanos ≤ b.subsecNanos)

def intersectLimits (a b : Limits) : Limits where
  maxBytes := min a.maxBytes b.maxBytes
  maxRequests := min a.maxRequests b.maxRequests
  maxTime := if a.maxTime.le b.maxTime then a.maxTime else b.maxTime
  maxFuel := min a.maxFuel b.maxFuel
  maxMemoryPages := min a.maxMemoryPages b.maxMemoryPages

/-- `Sandbox::check_limits`. -/
def checkLimits (signed limits : Limits) : Except AuditError Unit :=
  reject (validLimits limits = false ∨ signed.maxBytes < limits.maxBytes ∨
    signed.maxRequests < limits.maxRequests ∨ limits.maxTime.le signed.maxTime = false ∨
    signed.maxFuel < limits.maxFuel ∨ signed.maxMemoryPages < limits.maxMemoryPages)
    (.invalidManifest "invalid effective limits")

/-- The answers of the authorizer, of which only the same target counts. -/
def checkTarget : Except TargetError Bool → Except BrokerError Unit
  | .error e => .error (.target e)
  | .ok same => reject (same = false) (.target .rejected)

/-- An error that came from outside. -/
def failWith (e : Option BrokerError) : Except BrokerError Unit := e.elim (.ok ()) .error

/-- `Broker::execute` up to the sandbox. -/
def admitRequest (q : BrokerRequest) (env : BrokerEnv) : Except BrokerError Limits := do
  reject (q.approvalIsNil = true) .missingApproval
  reject (q.capability.port ≠ q.port ∨ q.capability ∉ q.module.inner.capabilities) .capabilityDenied
  reject (validLimits q.limits = false) .budgetExhausted
  let limits := intersectLimits q.module.inner.limits q.limits
  reject (limits.maxBytes = 0 ∨ limits.maxRequests = 0 ∨ limits.maxTime = ⟨0, 0⟩ ∨
    limits.maxFuel = 0 ∨ limits.maxMemoryPages = 0) .budgetExhausted
  reject (env.cancelled = true) .cancelled
  checkTarget env.authorized
  reject (env.late = true) .deadlineExceeded
  (checkLimits q.module.inner.limits limits).mapError .sandbox
  failWith (env.sandbox.map .sandbox)
  reject (env.lateSandbox = true) .deadlineExceeded
  pure limits

def Run.new (limits : Limits) (budget : Budget) (input : List UInt8) : Run where
  store := ⟨0, limits.maxRequests.toNat, limits.maxBytes.toNat, input.length⟩
  budget := budget
  calls := []
  targetError := none

/-- `Sandbox::execute`. -/
def sandboxExecute (limits : Limits) (budget : Budget) (input : List UInt8) (env : BrokerEnv) :
    Run × Except AuditError (List UInt8) :=
  let r := Run.new limits budget input
  if limits.maxBytes.toNat < input.length ∨ 2 ^ 31 ≤ input.length then
    (r, .error .inputLimitExceeded)
  else
    match env.instantiation with
    | some e => (r, .error e)
    | none =>
      if env.memorySize < input.length then (r, .error .memoryLimitExceeded) else r.run env.steps

/-- How the broker answers for a run that ended with an error. -/
def brokerError (targetError : Option TargetError) : AuditError → BrokerError
  | .timedOut => .deadlineExceeded
  | .cancelled => .cancelled
  | .budgetExhausted | .requestLimitExceeded => .budgetExhausted
  | .hostRejected => (targetError.map .target).getD .exchangeFailed
  | e => .sandbox e

/-- The output is charged and published. -/
def publish (env : BrokerEnv) (r : Run) (output : Except AuditError (List UInt8)) :
    Except BrokerError (List UInt8) := do
  failWith env.interrupted
  let output ← output.mapError (brokerError r.targetError)
  reject (env.cancelledRun = true) .cancelled
  let _ ← r.budget.chargeBytes env.lateOutput output.length
  failWith env.unpublished
  pure output

/-- `Broker::execute`. -/
def execute (q : BrokerRequest) (env : BrokerEnv) : Execution :=
  match admitRequest q env with
  | .error e => ⟨[], .error e, []⟩
  | .ok limits =>
    match (Budget.new limits).chargeBytes env.lateInput q.input.length with
    | .error e => ⟨[], .error e, []⟩
    | .ok budget =>
      let (r, output) := sandboxExecute limits budget q.input env
      ⟨q.input, publish env r output, r.calls⟩

/-! ### Both ledgers -/

/-- The bytes of some exchanges. -/
def traffic (calls : List ExchangeCall) : ℕ :=
  (calls.map fun c => c.request.length + c.received.length).sum

@[simp]
theorem traffic_append (calls calls') :
    traffic (calls ++ calls') = traffic calls + traffic calls' := by
  simp [traffic]

theorem checkedAdd_eq_some {bits a b n : ℕ} :
    checkedAdd bits a b = some n ↔ a + b < 2 ^ bits ∧ n = a + b := by
  unfold checkedAdd
  split <;> simp_all [eq_comm]

/-- What a reservation found and what it took. -/
theorem Budget.reserve_eq_some {b b' : Budget} {late : Bool} {requestBytes responseCap : ℕ}
    (h : b.reserve late requestBytes responseCap = some b') :
    b.requests < b.maxRequests ∧ requestBytes + responseCap ≤ b.maxBytes - b.bytes ∧
      b' = { b with requests := b.requests + 1, bytes := b.bytes + (requestBytes + responseCap) } := by
  obtain ⟨total, htotal, h⟩ := bind_eq_some_iff.1 h
  obtain ⟨-, rfl⟩ := checkedAdd_eq_some.1 htotal
  split at h
  · cases h
  rename_i hroom
  obtain ⟨requests, hrequests, h⟩ := bind_eq_some_iff.1 h
  obtain ⟨bytes, hbytes, h⟩ := bind_eq_some_iff.1 h
  obtain ⟨-, rfl⟩ := checkedAdd_eq_some.1 hrequests
  obtain ⟨-, rfl⟩ := checkedAdd_eq_some.1 hbytes
  simp only [Bool.or_eq_true, decide_eq_true_eq, not_or, not_le, not_lt] at hroom
  exact ⟨hroom.1.2, hroom.2, (some.inj h).symm⟩

/-- What an exchange of the host can do: nothing, a failed exchange within the reservation, or a
successful one that is charged exactly. -/
inductive HostOutcome (env : HostEnv) (b : Budget) (request : List UInt8) (cap : ℕ) :
    HostResult → Prop
  | refused (e : AuditHostError) (b' : Budget) (t : Option TargetError) :
    HostOutcome env b request cap ⟨.error e, b', [], t⟩
  | failed (e : AuditHostError) (b' : Budget) (hrequests : b.requests < b.maxRequests)
      (hbytes : request.length + cap ≤ b.maxBytes - b.bytes) :
    HostOutcome env b request cap
      ⟨.error e, b', [⟨request, env.transport.received, false⟩], none⟩
  | answered (response : List UInt8) (hrequests : b.requests < b.maxRequests)
      (hbytes : request.length + cap ≤ b.maxBytes - b.bytes) (hcap : response.length ≤ cap) :
    HostOutcome env b request cap
      ⟨.ok response, { b with
        requests := b.requests + 1, bytes := b.bytes + (request.length + response.length) },
        [⟨request, response, true⟩], none⟩

theorem hostExchange_outcome (env : HostEnv) (b : Budget) (request) (cap : ℕ) :
    HostOutcome env b request cap (hostExchange env b request cap) := by
  unfold hostExchange
  split_ifs with hcancelled hlate
  · exact .refused ..
  · exact .refused ..
  cases hreserve : b.reserve env.lateReserve request.length cap with
  | none => exact .refused ..
  | some reserved =>
    obtain ⟨hrequests, hbytes, rfl⟩ := Budget.reserve_eq_some hreserve
    dsimp only
    cases env.authorized with
    | error e => exact .refused ..
    | ok same =>
      cases same with
      | false => exact .refused ..
      | true =>
        cases env.transport.ending with
        | done =>
          dsimp only
          split_ifs with hcap
          · exact .failed _ _ hrequests hbytes
          · -- the refund leaves what was sent and what came back
            have hrefund : b.bytes + (request.length + cap) - (cap - env.transport.received.length) =
                b.bytes + (request.length + env.transport.received.length) := by omega
            rw [Budget.refund, hrefund]
            exact .answered _ hrequests hbytes (not_lt.1 hcap)
        | _ => exact .failed _ _ hrequests hbytes

/-- The ledgers of a run that goes on: they agree, and they have counted every exchange. -/
structure Even (limits : Limits) (input : List UInt8) (r : Run) : Prop where
  storeRequests : r.store.maxRequests = limits.maxRequests.toNat
  storeBytes : r.store.maxBytes = limits.maxBytes.toNat
  budgetRequests : r.budget.maxRequests = limits.maxRequests.toNat
  budgetBytes : r.budget.maxBytes = limits.maxBytes.toNat
  agree : r.store.bytes = r.budget.bytes
  counted : r.budget.bytes = input.length + traffic r.calls
  requests : r.budget.requests = r.calls.length
  bytes_le : r.budget.bytes ≤ limits.maxBytes.toNat
  requests_le : r.budget.requests ≤ limits.maxRequests.toNat
  succeeded : ∀ c ∈ r.calls, c.succeeded = true

/-- The exchanges of a run, whether it goes on or not. -/
structure Within (limits : Limits) (input : List UInt8) (r : Run) : Prop where
  requests_le : r.calls.length ≤ limits.maxRequests.toNat
  bytes_le : input.length + traffic r.calls ≤ limits.maxBytes.toNat
  failed_last : ∀ before c after, r.calls = before ++ c :: after → c.succeeded = false → after = []

/-- The transport keeps to the response limit of the exchange. -/
def GuestStep.Respects : GuestStep → Prop
  | .exchange _ _ _ _ outCap env => env.transport.received.length ≤ outCap.toInt.toNat
  | _ => True

variable {limits : Limits} {input : List UInt8} {r : Run}

theorem Even.within (h : Even limits input r) : Within limits input r where
  requests_le := h.requests ▸ h.requests_le
  bytes_le := h.counted ▸ h.bytes_le
  failed_last before c after heq hfailed := by
    have := h.succeeded c (by simp [heq])
    rw [hfailed] at this
    cases this

theorem toUsize_eq_some {i : Int32} {n : ℕ} (h : toUsize i = some n) : n = i.toInt.toNat := by
  unfold toUsize at h
  split at h
  · cases h
  · exact (some.inj h).symm

variable {r' : Run}

/-- An exchange that succeeds keeps the ledgers even; one that fails is the last. -/
theorem Even.exchange (h : Even limits input r) {memory}
    {reqPtr reqLen outPtr outCap : Int32} {env failure}
    (hstep : r.exchange memory reqPtr reqLen outPtr outCap env = (r', failure)) :
    (failure = none → Even limits input r') ∧
      (env.transport.received.length ≤ outCap.toInt.toNat → Within limits input r') := by
  -- a refusal before the host is asked changes nothing
  have hrefused : ∀ e, (r, some e) = (r', failure) → (failure = none → Even limits input r') ∧
      (env.transport.received.length ≤ outCap.toInt.toNat → Within limits input r') := by
    rintro e ⟨⟩
    exact ⟨nofun, fun _ => h.within⟩
  unfold Run.exchange at hstep
  split at hstep
  case h_2 => exact hrefused _ hstep
  case h_1 reqPtr reqLen outPtr cap _ _ _ hcap =>
    split_ifs at hstep with hmemory hbytes hrequests
    · exact hrefused _ hstep
    · exact hrefused _ hstep
    · exact hrefused _ hstep
    have hlength : ((memory.drop reqPtr).take reqLen).length = reqLen := by
      rw [length_take, length_drop]
      omega
    have houtcome := hostExchange_outcome env r.budget ((memory.drop reqPtr).take reqLen) cap
    generalize hostExchange env r.budget ((memory.drop reqPtr).take reqLen) cap = result
      at hstep houtcome
    have hcap' := toUsize_eq_some hcap
    have hagree := h.agree
    have hcounted := h.counted
    have hcalls := h.requests
    have hmaxBytes := h.budgetBytes
    have hmaxRequests := h.budgetRequests
    have hle := h.bytes_le
    cases houtcome with
    | refused e b t =>
      obtain ⟨rfl, rfl⟩ := Prod.mk.inj hstep
      exact ⟨nofun, fun _ => by simpa using! ⟨h.within.requests_le, h.within.bytes_le,
        h.within.failed_last⟩⟩
    | failed e b hrequest hroom =>
      obtain ⟨rfl, rfl⟩ := Prod.mk.inj hstep
      refine ⟨nofun, fun hrespects => ⟨?_, ?_, fun before c after heq hfailed => ?_⟩⟩
      · rw [length_append, length_singleton]
        omega
      · rw [traffic_append]
        simp only [traffic, map_cons, map_nil, sum_cons, sum_nil]
        rw [traffic] at hcounted
        omega
      · obtain rfl | ⟨after, x, rfl⟩ := after.eq_nil_or_concat
        · rfl
        · rw [concat_eq_append, ← cons_append, ← append_assoc] at heq
          have := h.succeeded c (by simp [(append_inj' heq rfl).1])
          rw [hfailed] at this
          cases this
    | answered response hrequest hroom hfits =>
      dsimp only at hstep
      rw [if_neg (not_lt.2 hfits)] at hstep
      obtain ⟨hr, rfl⟩ := Prod.mk.inj hstep
      have heven : Even limits input r' := by
        subst hr
        refine { h with
          agree := ?_, counted := ?_, requests := ?_, bytes_le := ?_, requests_le := ?_,
          succeeded := ?_ }
        · dsimp only
          omega
        · rw [traffic_append, hcounted]
          simp [traffic, add_assoc]
        · rw [length_append, length_singleton, hcalls]
        · dsimp only
          omega
        · dsimp only
          omega
        · intro c hc
          obtain hc | hc := mem_append.1 hc
          · exact h.succeeded c hc
          · rw [mem_singleton.1 hc]
      exact ⟨fun _ => heven, fun _ => heven.within⟩

/-- Every step keeps the ledgers even or ends the run, and what the guest returns was within both. -/
theorem Even.step (h : Even limits input r) {s result} (hstep : r.step s = (r', result)) :
    (result = none → Even limits input r') ∧ (s.Respects → Within limits input r') ∧
      ∀ output, result = some (.ok output) → Even limits input r' := by
  cases s with
  | deterministic =>
    unfold Run.step Run.deterministic at hstep
    split_ifs at hstep <;> cases hstep
    · exact ⟨nofun, fun _ => h.within, nofun⟩
    · have heven : Even limits input { r with
          store := { r.store with requests := r.store.requests + 1 } } := { h with }
      exact ⟨fun _ => heven, fun _ => heven.within, nofun⟩
  | exchange memory reqPtr reqLen outPtr outCap env =>
    rcases hcall : r.exchange memory reqPtr reqLen outPtr outCap env with ⟨r'', failure⟩
    obtain ⟨heven, hwithin⟩ := h.exchange hcall
    rw [Run.step, hcall] at hstep
    cases hstep
    cases failure with
    | none => exact ⟨fun _ => heven rfl, hwithin, nofun⟩
    | some e => exact ⟨nofun, hwithin, nofun⟩
  | finish memory packed =>
    cases hstep
    exact ⟨nofun, fun _ => h.within, fun _ _ => h⟩
  | stop e =>
    cases hstep
    exact ⟨nofun, fun _ => h.within, nofun⟩

variable {steps : List GuestStep}

/-- The ledgers are even as long as the guest goes on. -/
theorem Even.after (h : Even limits input r)
    (hafter : r.after steps = some r') : Even limits input r' := by
  induction steps generalizing r with
  | nil =>
    cases hafter
    exact h
  | cons s steps ih =>
    rcases hstep : r.step s with ⟨r'', ended⟩
    rw [Run.after, hstep] at hafter
    cases ended with
    | none => exact ih ((h.step hstep).1 rfl) hafter
    | some ended => cases hafter

variable {result : Except AuditError (List UInt8)}

/-- A whole run: by the steps up to the one that ends it. -/
theorem Even.run (h : Even limits input r)
    (hrespects : ∀ s ∈ steps, s.Respects) (hrun : r.run steps = (r', result)) :
    Within limits input r' ∧ ∀ output, result = .ok output → Even limits input r' := by
  induction steps generalizing r with
  | nil =>
    cases hrun
    exact ⟨h.within, nofun⟩
  | cons s steps ih =>
    rcases hstep : r.step s with ⟨r'', ended⟩
    obtain ⟨heven, hwithin, houtput⟩ := h.step hstep
    rw [Run.run, hstep] at hrun
    cases ended with
    | none => exact ih (heven rfl) (fun x hx => hrespects x (mem_cons_of_mem _ hx)) hrun
    | some ended =>
      cases hrun
      exact ⟨hwithin (hrespects s mem_cons_self), fun output ho => houtput output (ho ▸ rfl)⟩

theorem even_new {late : Bool} {budget}
    (h : (Budget.new limits).chargeBytes late input.length = .ok budget) :
    Even limits input (.new limits budget input) := by
  obtain ⟨_, -, h⟩ := bind_eq_ok.1 h
  obtain ⟨_, hroom, h⟩ := bind_eq_ok.1 h
  obtain ⟨bytes, hbytes, h⟩ := bind_eq_ok.1 h
  obtain ⟨-, rfl⟩ := checkedAdd_eq_some.1 (okOr_eq_ok.1 hbytes)
  obtain rfl := pure_eq_ok.1 h
  rw [reject_eq_ok, not_lt] at hroom
  exact {
    storeRequests := rfl, storeBytes := rfl, budgetRequests := rfl, budgetBytes := rfl
    agree := (Nat.zero_add _).symm, counted := Nat.add_comm .., requests := rfl
    bytes_le := (Nat.zero_add _).trans_le hroom, requests_le := Nat.zero_le _, succeeded := nofun }

variable {env : BrokerEnv}

theorem sandboxExecute_spec {budget}
    (h : Even limits input (.new limits budget input)) (hrespects : ∀ s ∈ env.steps, s.Respects)
    (hrun : sandboxExecute limits budget input env = (r, result)) :
    Within limits input r ∧ ∀ output, result = .ok output → Even limits input r := by
  unfold sandboxExecute at hrun
  dsimp only at hrun
  split at hrun
  · cases hrun
    exact ⟨h.within, nofun⟩
  split at hrun
  · cases hrun
    exact ⟨h.within, nofun⟩
  · split at hrun
    · cases hrun
      exact ⟨h.within, nofun⟩
    · exact h.run hrespects hrun

theorem publish_eq_ok {output bytes} (h : publish env r output = .ok bytes) :
    output = .ok bytes ∧ bytes.length ≤ r.budget.maxBytes - r.budget.bytes := by
  obtain ⟨_, -, h⟩ := bind_eq_ok.1 h
  obtain ⟨output', houtput, h⟩ := bind_eq_ok.1 h
  obtain ⟨_, -, h⟩ := bind_eq_ok.1 h
  obtain ⟨_, hcharge, h⟩ := bind_eq_ok.1 h
  obtain ⟨_, -, h⟩ := bind_eq_ok.1 h
  obtain rfl := pure_eq_ok.1 h
  obtain ⟨_, -, hcharge⟩ := bind_eq_ok.1 hcharge
  obtain ⟨_, hroom, -⟩ := bind_eq_ok.1 hcharge
  rw [reject_eq_ok, not_lt] at hroom
  exact ⟨mapError_eq_ok.1 houtput, hroom⟩

theorem admitRequest_eq_ok {q} (h : admitRequest q env = .ok limits) :
    limits = intersectLimits q.module.inner.limits q.limits := by
  unfold admitRequest at h
  simp only [bind_eq_ok, pure_eq_ok] at h
  obtain ⟨_, -, _, -, _, -, _, -, _, -, _, -, _, -, _, -, _, -, _, -, h⟩ := h
  exact h.symm

/-- The bytes that an execution has moved: the input, the exchanges and the output. -/
def Execution.moved (x : Execution) : ℕ :=
  x.input.length + traffic x.calls + (x.result.toOption.map List.length).getD 0

/-- **The budgets hold from end to end**: whatever the guest does and whatever a transport answers
that keeps to its limit, one execution makes at most as many exchanges and moves at most as many bytes
as both the signed and the requested limits allow, and no exchange follows a failed one.  As long as
the guest goes on, the two ledgers agree. -/
theorem execute_within_budget (q : BrokerRequest) (env : BrokerEnv)
    (hrespects : ∀ s ∈ env.steps, s.Respects) :
    let limits := intersectLimits q.module.inner.limits q.limits
    let x := execute q env
    x.calls.length ≤ limits.maxRequests.toNat ∧ x.moved ≤ limits.maxBytes.toNat ∧
      (∀ before c after, x.calls = before ++ c :: after → c.succeeded = false → after = []) ∧
      ∀ late budget steps r, (Budget.new limits).chargeBytes late q.input.length = .ok budget →
        Run.after (.new limits budget q.input) steps = some r →
        r.store.bytes = r.budget.bytes ∧ r.budget.bytes = q.input.length + traffic r.calls := by
  intro limits x
  suffices h : x.calls.length ≤ limits.maxRequests.toNat ∧ x.moved ≤ limits.maxBytes.toNat ∧
      ∀ before c after, x.calls = before ++ c :: after → c.succeeded = false → after = [] by
    refine ⟨h.1, h.2.1, h.2.2, fun late budget steps r hcharge hafter => ?_⟩
    have heven := (even_new hcharge).after hafter
    exact ⟨heven.agree, heven.counted⟩
  cases hadmit : admitRequest q env with
  | error e =>
    have hx : x = ⟨[], .error e, []⟩ := by simp only [x, execute, hadmit]
    rw [hx]
    exact ⟨Nat.zero_le _, Nat.zero_le _, by simp⟩
  | ok limits' =>
    obtain rfl : limits' = limits := admitRequest_eq_ok hadmit
    cases hcharge : (Budget.new limits).chargeBytes env.lateInput q.input.length with
    | error e =>
      have hx : x = ⟨[], .error e, []⟩ := by simp only [x, execute, hadmit, hcharge]
      rw [hx]
      exact ⟨Nat.zero_le _, Nat.zero_le _, by simp⟩
    | ok budget =>
      rcases hrun : sandboxExecute limits budget q.input env with ⟨r, output⟩
      have hx : x = ⟨q.input, publish env r output, r.calls⟩ := by
        simp [x, execute, hadmit, hcharge, hrun]
      obtain ⟨hwithin, heven⟩ := sandboxExecute_spec (even_new hcharge) hrespects hrun
      rw [hx]
      refine ⟨hwithin.requests_le, ?_, hwithin.failed_last⟩
      cases hpublish : publish env r output with
      | error e => simpa [Execution.moved, hpublish, Except.toOption] using hwithin.bytes_le
      | ok bytes =>
        obtain ⟨houtput, hroom⟩ := publish_eq_ok hpublish
        have heven := heven bytes houtput
        have hle := heven.bytes_le
        rw [heven.budgetBytes, heven.counted] at hroom
        rw [heven.counted] at hle
        simp only [Execution.moved, Except.toOption, map_some, getD_some]
        omega

/-- One exchange of four bytes for three, then two bytes of output. -/
def sampleEnv : BrokerEnv where
  cancelled := false
  authorized := .ok true
  late := false
  sandbox := none
  lateSandbox := false
  lateInput := false
  instantiation := none
  memorySize := 16
  steps := [.deterministic, .exchange (.replicate 16 5) 0 4 8 8
    ⟨false, false, false, .ok true, ⟨[1, 2, 3], .done⟩⟩, .finish (.replicate 16 5) 2]
  interrupted := none
  cancelledRun := false
  lateOutput := false
  unpublished := none

def sampleRequest : BrokerRequest where
  module := ⟨{ sampleManifest with limits := ⟨64, 2, ⟨1, 0⟩, 100000, 1⟩ }, []⟩
  input := [8, 9]
  port := 80
  capability := .tcpExchange 80
  approvalIsNil := false
  limits := ⟨32, 4, ⟨1, 0⟩, 100000, 1⟩

theorem sampleRequest_within_budget :
    (execute sampleRequest sampleEnv).result.toOption = some [5, 5] ∧
      (execute sampleRequest sampleEnv).calls.length ≤ 2 ∧
      (execute sampleRequest sampleEnv).moved ≤ 32 := by
  have h := execute_within_budget sampleRequest sampleEnv (by
    intro s hs
    obtain rfl | rfl | rfl : s = _ ∨ s = _ ∨ s = _ := by simpa [sampleEnv] using hs
    · trivial
    · exact (by decide : 3 ≤ (8 : Int32).toInt.toNat)
    · trivial)
  exact ⟨by decide +kernel, h.1, h.2.1⟩

end NeonHearth.Wasm
