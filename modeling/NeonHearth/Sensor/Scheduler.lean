import NeonHearth.Data.Meter
import NeonHearth.Sensor.TargetGuard
import NeonHearth.System.Machine

/-!
# The rate of active probes

The scheduler of active probes (`active.rs` of the sensor) admits a probe when its cost can be paid
from three token buckets, one for all probes, one for the host and one for the subnet.  The buckets of
hosts and subnets are made full when they are first needed and dropped when they have not been used
for a while.

A run records what was admitted and when.  `RateInv` says that every bucket is metered over what it
has paid for, a missing bucket standing for a full one, and each call keeps it as long as the run is
`Paced`.
-/

namespace NeonHearth.Sensor

open SortedMap

/-- The longest duration.  Times and durations are in nanoseconds. -/
def durationMax : ℕ := (2 ^ 64 - 1) * 10 ^ 9 + 999999999

def usizeMax : ℕ := 2 ^ 64 - 1

def u32Max : ℕ := 2 ^ 32 - 1

def seconds (n : ℕ) : ℕ := n * 10 ^ 9

def saturatingAdd (a b : ℕ) : ℕ := min (a + b) durationMax

def saturatingMul (a n : ℕ) : ℕ := min (a * n) durationMax

inductive ProbeMode where
  | default
  | ownerInventory
  | ownerFullPort
  deriving DecidableEq

structure ProbeRequest where
  interface : InterfaceId
  target : IpAddr
  probeId : String
  mode : ProbeMode
  ownerApproved : Bool

inductive ActiveError where
  | invalidConfig
  | cancelled
  | queueFull

structure BudgetConfig where
  globalConcurrency : ℕ
  perHostConcurrency : ℕ
  globalRateBurst : ℕ
  perSubnetBurst : ℕ
  refill : ℕ

def BudgetConfig.new (global host globalRateBurst subnet refill : ℕ) :
    Except ActiveError BudgetConfig := do
  reject (global = 0 ∨ 256 < global ∨ host = 0 ∨ 16 < host ∨ global < host ∨ globalRateBurst = 0 ∨
    4096 < globalRateBurst ∨ subnet = 0 ∨ 1024 < subnet ∨ refill = 0 ∨ seconds 3600 < refill)
    .invalidConfig
  return ⟨global, host, globalRateBurst, subnet, refill⟩

structure SchedulerConfig where
  budgets : BudgetConfig := ⟨32, 2, 128, 64, seconds 1⟩
  queueCapacity : ℕ := 2048
  baseBackoff : ℕ := seconds 1
  maxBackoff : ℕ := seconds 60
  jitterPercent : UInt8 := 10
  stateCapacity : ℕ := 2048
  stateTtl : ℕ := seconds 1800
  maxRetryAttempts : UInt8 := 5
  credentialTimeout : ℕ := seconds 2

def maxQueue : ℕ := 4096

structure TokenBucket where
  tokens : ℕ
  last : ℕ
  lastUsed : ℕ

/-- The bucket at a later time.  The source also answers whether tokens are left, which nobody
reads. -/
def TokenBucket.available (b : TokenBucket) (now capacity refill : ℕ) : TokenBucket :=
  if b.last < now ∧ refill ≤ now - b.last then
    let periods := (now - b.last) / refill
    { tokens := min (min (b.tokens + min periods usizeMax) usizeMax) capacity
      -- Here the number of periods is cut to 32 bits, above it is not.
      last := saturatingAdd b.last (saturatingMul refill (min periods u32Max))
      lastUsed := now }
  else { b with lastUsed := now }

def TokenBucket.spend (b : TokenBucket) (cost : ℕ) : TokenBucket :=
  { b with tokens := b.tokens - cost }

/-- The subnet of an address, as its first address. -/
def subnet : IpAddr → IpAddr
  | .v4 a => .v4 (a &&& 0xffffff00#32)
  | .v6 a => .v6 (a &&& BitVec.allOnes 128 <<< 64)

/-- The buckets of hosts or of subnets. -/
abbrev Rates := SortedMap IpAddr TokenBucket

structure Scheduler where
  config : SchedulerConfig
  high : SortedMap IpAddr (List ProbeRequest) := ∅
  low : List ProbeRequest := []
  hosts : List IpAddr := []
  queued : Finset (InterfaceId × IpAddr × String × ProbeMode) := ∅
  stopped : Bool := false
  active : ℕ := 0
  activeHosts : SortedMap IpAddr ℕ := ∅
  globalRate : TokenBucket
  hostRates : Rates := ∅
  subnetRates : Rates := ∅

inductive AdmissionDecision where
  | admitted
  | concurrencyLimited
  | eligibleAt (deadline : ℕ)
  deriving DecidableEq

def SchedulerConfig.hostCapacity (c : SchedulerConfig) : ℕ :=
  min (c.budgets.perHostConcurrency * 4) usizeMax

namespace Scheduler

def new (config : SchedulerConfig) (now : ℕ) : Except ActiveError Scheduler := do
  let _ ← BudgetConfig.new config.budgets.globalConcurrency config.budgets.perHostConcurrency
    config.budgets.globalRateBurst config.budgets.perSubnetBurst config.budgets.refill
  reject (config.queueCapacity = 0 ∨ maxQueue < config.queueCapacity ∨ config.baseBackoff = 0 ∨
    config.maxBackoff < config.baseBackoff ∨ 25 < config.jitterPercent ∨ config.stateCapacity = 0 ∨
    maxQueue < config.stateCapacity ∨ config.stateTtl = 0 ∨ config.maxRetryAttempts = 0 ∨
    16 < config.maxRetryAttempts ∨ config.credentialTimeout = 0 ∨
    seconds 30 < config.credentialTimeout) .invalidConfig
  return { config, globalRate := ⟨config.budgets.globalRateBurst, now, now⟩ }

variable (s : Scheduler)

def enqueue (request : ProbeRequest) : Except ActiveError (Bool × Scheduler) := do
  reject (s.stopped = true) .cancelled
  reject (s.config.queueCapacity ≤ s.queued.card) .queueFull
  let key := (request.interface, request.target, request.probeId, request.mode)
  if key ∈ s.queued then return (false, s)
  let s := { s with queued := insert key s.queued }
  if request.mode = .ownerFullPort then return (true, { s with low := s.low ++ [request] })
  let hosts := if (s.high.get request.target).isSome then s.hosts else s.hosts ++ [request.target]
  let queue := (s.high.get request.target).getD [] ++ [request]
  return (true, { s with hosts, high := s.high.insert request.target queue })

def finish (request : ProbeRequest) : Scheduler :=
  { s with
    active := s.active - 1
    activeHosts := match s.activeHosts.get request.target with
      | none => s.activeHosts
      | some n =>
        if n - 1 = 0 then s.activeHosts.erase request.target
        else s.activeHosts.insert request.target (n - 1) }

/-- The buckets used within the time to live. -/
def retained (ttl now : ℕ) (rates : Rates) : Rates :=
  rates.filter fun _ b => now - b.lastUsed ≤ ttl

def evictState (now : ℕ) : Scheduler :=
  { s with
    hostRates := retained s.config.stateTtl now s.hostRates
    subnetRates := retained s.config.stateTtl now s.subnetRates }

/-- Whether there is no room for the bucket of a new key. -/
def crowded (rates : Rates) (key : IpAddr) : Prop :=
  s.config.stateCapacity ≤ rates.size ∧ rates.get key = none
  deriving Decidable

/-- When the first of the buckets is dropped. -/
def deadline (rates : Rates) (now : ℕ) : ℕ :=
  (rates.toList.map fun x => saturatingAdd x.2.lastUsed s.config.stateTtl).min?.getD
    (saturatingAdd now s.config.stateTtl)

/-- The bucket of a key, made full when there is none, at the time of a request. -/
def drawn (rates : Rates) (key : IpAddr) (now capacity refill : ℕ) : TokenBucket :=
  ((rates.get key).getD ⟨capacity, now, now⟩).available now capacity refill

def setRates (target : IpAddr) (globalRate host network : TokenBucket) : Scheduler :=
  { s with
    globalRate
    hostRates := s.hostRates.insert target host
    subnetRates := s.subnetRates.insert (subnet target) network }

/-- The part of a decision that concerns the buckets. -/
def charge (now : ℕ) (target : IpAddr) (cost : ℕ) : AdmissionDecision × Scheduler :=
  let refill := s.config.budgets.refill
  let globalRate := s.globalRate.available now s.config.budgets.globalRateBurst refill
  let host := drawn s.hostRates target now s.config.hostCapacity refill
  let network := drawn s.subnetRates (subnet target) now s.config.budgets.perSubnetBurst refill
  let missing := max (max (cost - globalRate.tokens) (cost - host.tokens)) (cost - network.tokens)
  if 0 < missing then
    (.eligibleAt (saturatingAdd now (saturatingMul refill (min missing u32Max))),
      s.setRates target globalRate host network)
  else
    (.admitted,
      { s.setRates target (globalRate.spend cost) (host.spend cost) (network.spend cost) with
        active := s.active + 1
        activeHosts := s.activeHosts.insert target ((s.activeHosts.get target).getD 0 + 1) })

def admissionDecision (now : ℕ) (request : ProbeRequest) (cost : UInt8) :
    AdmissionDecision × Scheduler :=
  if s.stopped = true ∨ cost = 0 ∨ s.config.budgets.globalConcurrency ≤ s.active ∨
      s.config.budgets.perHostConcurrency ≤ (s.activeHosts.get request.target).getD 0 then
    (.concurrencyLimited, s)
  else
    let s := s.evictState now
    if s.crowded s.hostRates request.target then (.eligibleAt (s.deadline s.hostRates now), s)
    else if s.crowded s.subnetRates (subnet request.target) then
      (.eligibleAt (s.deadline s.subnetRates now), s)
    else s.charge now request.target cost.toNat

end Scheduler

/-! ### Runs -/

/-- A cost that was admitted. -/
structure Grant where
  time : ℕ
  target : IpAddr
  cost : ℕ

/-- A scheduler with what it has admitted, the last reading of the clock and the first. -/
structure ProbeRun where
  start : ℕ
  clock : ℕ
  scheduler : Scheduler
  grants : List Grant

/-- A call of the scheduler.  A decision reads the clock. -/
inductive SchedulerCall where
  | admissionDecision (request : ProbeRequest) (cost : UInt8) (now : ℕ)
  | finish (request : ProbeRequest)
  | enqueue (request : ProbeRequest)

/-- The scheduler under a clock that never goes back. -/
def probeMachine : Machine ProbeRun SchedulerCall where
  init r := (∃ config, Scheduler.new config r.start = .ok r.scheduler) ∧ r.clock = r.start ∧
    r.grants = []
  step r
    | .admissionDecision request cost now =>
      if r.clock ≤ now ∧ now ≤ durationMax then
        let decision := r.scheduler.admissionDecision now request cost
        some { r with
          clock := now
          scheduler := decision.2
          grants := if decision.1 = .admitted then ⟨now, request.target, cost.toNat⟩ :: r.grants
            else r.grants }
      else none
    | .finish request => some { r with scheduler := r.scheduler.finish request }
    | .enqueue request =>
      -- A refused request changes nothing.
      some { r with
        scheduler := ((r.scheduler.enqueue request).map Prod.snd).toOption.getD r.scheduler }

/-- The times and costs that were admitted for some of the targets. -/
def admitted (p : IpAddr → Prop) [DecidablePred p] (grants : List Grant) : List (ℕ × ℕ) :=
  (grants.filter (p ·.target)).map fun g => (g.time, g.cost)

theorem admitted_cons (p) [DecidablePred p] (g : Grant) (grants) :
    admitted p (g :: grants) =
      if p g.target then (g.time, g.cost) :: admitted p grants else admitted p grants := by
  unfold admitted
  by_cases hp : p g.target <;> simp [hp]

/-- Buckets live long enough to be full when they are dropped. -/
def SchedulerConfig.Sustained (c : SchedulerConfig) : Prop :=
  c.hostCapacity * c.budgets.refill ≤ c.stateTtl ∧
    c.budgets.perSubnetBurst * c.budgets.refill ≤ c.stateTtl

/-- Buckets live long enough, and the clock stays within the periods that a bucket can count. -/
def Paced (r : ProbeRun) (call : SchedulerCall) : Prop :=
  r.scheduler.config.Sustained ∧
    match call with
    | .admissionDecision _ _ now => now ≤ r.start + u32Max * r.scheduler.config.budgets.refill
    | _ => True

instance (r : ProbeRun) (call : SchedulerCall) : Decidable (Paced r call) := by
  unfold Paced SchedulerConfig.Sustained
  cases call <;> exact inferInstance

/-! ### One bucket -/

/-- A bucket is metered over what it has paid for.  A missing bucket stands for a full one. -/
def Covered (start clock refill capacity : ℕ) (h : List (ℕ × ℕ)) : Option TokenBucket → Prop
  | some b =>
    Metered refill capacity h b.tokens b.last b.lastUsed ∧ start ≤ b.last ∧ b.lastUsed ≤ clock
  | none => Metered refill capacity h capacity clock clock

namespace Covered

variable {start clock now refill capacity cost : ℕ} {h : List (ℕ × ℕ)} {o : Option TokenBucket}

theorem within (c : Covered start clock refill capacity h o) (a length : ℕ) :
    spentWithin h a length ≤ capacity + length / refill + 1 := by
  rcases o with _ | b
  · exact Metered.within c a length
  · exact c.1.within a length

theorem later (c : Covered start clock refill capacity h o) (hp : 0 < refill) (hnow : clock ≤ now) :
    Covered start now refill capacity h o := by
  rcases o with _ | b
  · exact Metered.renew c hp (by simpa using hnow)
  · exact ⟨c.1, c.2.1, c.2.2.trans hnow⟩

/-- Dropping a bucket makes it full, which it would be by then. -/
theorem retained {ttl : ℕ} (c : Covered start now refill capacity h o) (hp : 0 < refill)
    (httl : capacity * refill ≤ ttl) :
    Covered start now refill capacity h (o.filter fun b => now - b.lastUsed ≤ ttl) := by
  rcases o with _ | b
  · exact c
  by_cases hkept : now - b.lastUsed ≤ ttl
  · rw [Option.filter_some, if_pos (by simpa using hkept)]
    exact c
  · rw [Option.filter_some, if_neg (by simpa using hkept)]
    refine c.1.renew hp ?_
    have hfill : (capacity - b.tokens) * refill ≤ capacity * refill :=
      Nat.mul_le_mul_right _ (Nat.sub_le ..)
    omega

variable {b : TokenBucket}

/-- Bringing a bucket up to date credits it with the periods that have passed. -/
theorem available (c : Covered start now refill capacity h (some b))
    (hp : 0 < refill) (hnow : now ≤ start + u32Max * refill) (hmax : now ≤ durationMax) :
    Covered start now refill capacity h (some (b.available now capacity refill)) := by
  obtain ⟨m, hstart, hused⟩ := c
  have hlast : b.last ≤ now := m.last_le.trans hused
  have hle := Nat.div_mul_le_self (now - b.last) refill
  have hlt := Nat.lt_div_mul_add (a := now - b.last) hp
  unfold TokenBucket.available
  split_ifs with hdue
  · -- Neither the 32 bits nor the longest duration are reached.
    have hperiods : (now - b.last) / refill ≤ u32Max :=
      (Nat.div_le_iff_le_mul_add_pred hp).2 (by rw [Nat.mul_comm]; omega)
    have hcredit : saturatingAdd b.last
        (saturatingMul refill (min ((now - b.last) / refill) u32Max)) =
        b.last + (now - b.last) / refill * refill := by
      unfold saturatingAdd saturatingMul
      rw [min_eq_left hperiods, Nat.mul_comm refill]
      omega
    refine ⟨?_, ?_, le_rfl⟩
    · simp only [hcredit]
      exact m.credit _ hused (by omega) (min_le_right ..) (by omega) (by omega)
    · simp only [hcredit]
      omega
  · refine ⟨?_, hstart, le_rfl⟩
    have hcredit := m.credit 0 hused le_rfl m.tokens_le (by omega) (by omega)
    rwa [Nat.zero_mul, Nat.add_zero] at hcredit

theorem lastUsed_available (b : TokenBucket) : (b.available now capacity refill).lastUsed = now := by
  unfold TokenBucket.available
  split_ifs <;> rfl

theorem spend (c : Covered start now refill capacity h (some b)) (hp : 0 < refill)
    (hused : b.lastUsed = now) (hcost : cost ≤ b.tokens) :
    Covered start now refill capacity ((now, cost) :: h) (some (b.spend cost)) := by
  subst hused
  exact ⟨c.1.spend hp hcost, c.2⟩

end Covered

/-! ### All buckets -/

section Pool

variable {start now refill capacity : ℕ} {key : IpAddr → IpAddr} {grants : List Grant} {rates : Rates}

/-- Every bucket of a family pays for the targets with its key. -/
def Pool (key : IpAddr → IpAddr) (start clock refill capacity : ℕ) (grants : List Grant)
    (rates : Rates) : Prop :=
  ∀ k, Covered start clock refill capacity (admitted (key · = k) grants) (rates.get k)

theorem Pool.retained {ttl : ℕ} (p : Pool key start now refill capacity grants rates)
    (hp : 0 < refill) (httl : capacity * refill ≤ ttl) :
    Pool key start now refill capacity grants (Scheduler.retained ttl now rates) := by
  intro k
  rw [Scheduler.retained, get_filter]
  exact (p k).retained hp httl

/-- A family after a request, whether it is paid for or not. -/
theorem Pool.drawn (p : Pool key start now refill capacity grants rates) (hp : 0 < refill)
    (hstart : start ≤ now) (hnow : now ≤ start + u32Max * refill) (hmax : now ≤ durationMax)
    (target : IpAddr) (cost : ℕ) {b}
    (hb : b = Scheduler.drawn rates (key target) now capacity refill) :
    Pool key start now refill capacity grants (rates.insert (key target) b) ∧
    (cost ≤ b.tokens → Pool key start now refill capacity (⟨now, target, cost⟩ :: grants)
      (rates.insert (key target) (b.spend cost))) := by
  have hdrawn : Covered start now refill capacity (admitted (key · = key target) grants) (some b) := by
    subst hb
    refine Covered.available ?_ hp hnow hmax
    have hk := p (key target)
    cases hget : rates.get (key target) with
    | none => exact ⟨by rwa [hget] at hk, hstart, le_rfl⟩
    | some b => rwa [hget] at hk
  refine ⟨fun k => ?_, fun hcost k => ?_⟩ <;> rw [get_insert] <;> split_ifs with hk
  · exact hk ▸ hdrawn
  · exact p k
  · subst hk
    rw [admitted_cons, if_pos rfl]
    exact hdrawn.spend hp (hb ▸ Covered.lastUsed_available _) hcost
  · rw [admitted_cons, if_neg (Ne.symm hk)]
    exact p k

end Pool

/-- Every bucket is metered over what it has paid for. -/
structure RateInv (start clock : ℕ) (grants : List Grant) (s : Scheduler) : Prop where
  refill_pos : 0 < s.config.budgets.refill
  start_le : start ≤ clock
  global : Covered start clock s.config.budgets.refill s.config.budgets.globalRateBurst
    (admitted (fun _ => True) grants) (some s.globalRate)
  hosts : Pool id start clock s.config.budgets.refill s.config.hostCapacity grants s.hostRates
  subnets : Pool subnet start clock s.config.budgets.refill s.config.budgets.perSubnetBurst grants
    s.subnetRates

namespace RateInv

variable {start clock now cost : ℕ} {grants : List Grant} {s s' : Scheduler}

theorem of_new {config} (h : Scheduler.new config start = .ok s) : RateInv start start [] s := by
  obtain ⟨_, hbudget, h⟩ := Except.bind_eq_ok.1 h
  obtain ⟨_, -, h⟩ := Except.bind_eq_ok.1 h
  obtain ⟨_, hvalid, -⟩ := Except.bind_eq_ok.1 hbudget
  have hp : 0 < config.budgets.refill := by
    have := reject_eq_ok.1 hvalid
    omega
  cases h
  exact ⟨hp, le_rfl, ⟨.nil hp start, le_rfl, le_rfl⟩, fun k => by
    rw [get_empty]; exact .nil hp start, fun k => by
    rw [get_empty]; exact .nil hp start⟩

theorem later (i : RateInv start clock grants s) (hnow : clock ≤ now) :
    RateInv start now grants s :=
  ⟨i.refill_pos, i.start_le.trans hnow, i.global.later i.refill_pos hnow,
    fun k => (i.hosts k).later i.refill_pos hnow, fun k => (i.subnets k).later i.refill_pos hnow⟩

theorem evictState (i : RateInv start now grants s) (hlong : s.config.Sustained) :
    RateInv start now grants (s.evictState now) :=
  { i with
    hosts := i.hosts.retained i.refill_pos hlong.1
    subnets := i.subnets.retained i.refill_pos hlong.2 }

/-- The invariant after a decision. -/
def Decided (start now : ℕ) (grants : List Grant) (target : IpAddr) (cost : ℕ)
    (x : AdmissionDecision × Scheduler) : Prop :=
  RateInv start now (if x.1 = .admitted then ⟨now, target, cost⟩ :: grants else grants) x.2

theorem charge (i : RateInv start now grants s)
    (hnow : now ≤ start + u32Max * s.config.budgets.refill) (hmax : now ≤ durationMax)
    (target : IpAddr) (cost : ℕ) :
    Decided start now grants target cost (s.charge now target cost) := by
  have hp := i.refill_pos
  have hglobal := i.global.available hp hnow hmax
  have hhost := i.hosts.drawn hp i.start_le hnow hmax target cost rfl
  have hnetwork := i.subnets.drawn hp i.start_le hnow hmax target cost rfl
  unfold Scheduler.charge
  dsimp only
  split_ifs with hmissing
  · exact ⟨hp, i.start_le, hglobal, hhost.1, hnetwork.1⟩
  · -- Nothing is missing, so each of the three buckets pays.
    simp only [not_lt, nonpos_iff_eq_zero, Nat.max_eq_zero_iff, Nat.sub_eq_zero_iff_le] at hmissing
    refine ⟨hp, i.start_le, ?_, hhost.2 hmissing.1.2, hnetwork.2 hmissing.2⟩
    rw [if_pos rfl, admitted_cons, if_pos trivial]
    exact hglobal.spend hp (Covered.lastUsed_available _) hmissing.1.1

theorem admissionDecision (i : RateInv start now grants s) (hlong : s.config.Sustained)
    (hnow : now ≤ start + u32Max * s.config.budgets.refill) (hmax : now ≤ durationMax)
    (request) (cost : UInt8) :
    Decided start now grants request.target cost.toNat (s.admissionDecision now request cost) := by
  have hevicted := i.evictState hlong
  unfold Scheduler.admissionDecision
  dsimp only
  split_ifs
  · exact i
  · exact hevicted
  · exact hevicted
  · exact hevicted.charge hnow hmax request.target cost.toNat

/-- What the invariant reads of a scheduler. -/
theorem congr (i : RateInv start clock grants s) (hconfig : s'.config = s.config)
    (hglobal : s'.globalRate = s.globalRate) (hhosts : s'.hostRates = s.hostRates)
    (hsubnets : s'.subnetRates = s.subnetRates) : RateInv start clock grants s' := by
  obtain ⟨hp, hstart, hg, hh, hn⟩ := i
  exact ⟨hconfig ▸ hp, hstart, by rwa [hconfig, hglobal], by rwa [hconfig, hhosts],
    by rwa [hconfig, hsubnets]⟩

theorem enqueue (i : RateInv start clock grants s) {request} {added : Bool}
    (h : s.enqueue request = .ok (added, s')) : RateInv start clock grants s' := by
  obtain ⟨_, -, h⟩ := Except.bind_eq_ok.1 h
  obtain ⟨_, -, h⟩ := Except.bind_eq_ok.1 h
  dsimp only at h
  split_ifs at h <;> cases h
  · exact i
  all_goals exact i.congr rfl rfl rfl rfl

theorem of_run {r} (h : probeMachine.Via Paced r) :
    RateInv r.start r.clock r.grants r.scheduler := by
  refine h.invariant (I := fun r => RateInv r.start r.clock r.grants r.scheduler) ?_ ?_
  · rintro r ⟨⟨config, hnew⟩, hclock, hgrants⟩
    rw [hclock, hgrants]
    exact of_new hnew
  rintro r call r' i ⟨hlong, hpaced⟩ hstep
  cases call with
  | admissionDecision request cost now =>
    simp only [probeMachine] at hstep
    obtain ⟨hclock, hstep⟩ := Option.ite_none_right_eq_some.1 hstep
    cases hstep
    exact (i.later hclock.1).admissionDecision hlong hpaced hclock.2 request cost
  | finish request =>
    cases hstep
    exact i.congr rfl rfl rfl rfl
  | enqueue request =>
    cases hstep
    cases h : r.scheduler.enqueue request with
    | error e => exact i
    | ok x => exact i.enqueue h

end RateInv

/-- **The rate of probes**: in every interval the cost admitted for a host, for a subnet and in all is
at most the burst, the refills of the interval and one. -/
theorem admitted_within_rate {r : ProbeRun} (h : probeMachine.Via Paced r) (a length : ℕ) :
    let budgets := r.scheduler.config.budgets
    (∀ host, spentWithin (admitted (· = host) r.grants) a length ≤
      r.scheduler.config.hostCapacity + length / budgets.refill + 1) ∧
    (∀ net, spentWithin (admitted (subnet · = net) r.grants) a length ≤
      budgets.perSubnetBurst + length / budgets.refill + 1) ∧
    spentWithin (admitted (fun _ => True) r.grants) a length ≤
      budgets.globalRateBurst + length / budgets.refill + 1 := by
  have i := RateInv.of_run h
  exact ⟨fun host => (i.hosts host).within a length, fun net => (i.subnets net).within a length,
    i.global.within a length⟩

/-! ### Samples -/

/-- A scheduler that is made at the time zero. -/
def sampleStart (config : SchedulerConfig) : ProbeRun :=
  ⟨0, 0, { config, globalRate := ⟨config.budgets.globalRateBurst, 0, 0⟩ }, []⟩

def sampleHost : IpAddr := .v4 0xC0A83209

/-- Decisions about one host, at given times and with given costs. -/
def sampleCalls (calls : List (ℕ × UInt8)) : List SchedulerCall :=
  calls.map fun x => .admissionDecision ⟨1, sampleHost, "tcp.http.80", .default, false⟩ x.2 x.1

theorem via_of_sampleCalls (config) (calls)
    {G} {p : ProbeRun → Prop} (hnew : Scheduler.new config 0 = .ok (sampleStart config).scheduler)
    (hguarded : probeMachine.Guarded G (sampleStart config) (sampleCalls calls))
    (h : ∃ r, probeMachine.exec (sampleStart config) (sampleCalls calls) = some r ∧ p r) :
    ∃ r, probeMachine.Via G r ∧ p r := by
  obtain ⟨r, hr, hp⟩ := h
  exact ⟨r, .exec (.start ⟨⟨config, hnew⟩, rfl, rfl⟩) hguarded hr, hp⟩

theorem sampleCalls_within_rate : ∃ r, probeMachine.Via Paced r ∧
    spentWithin (admitted (· = sampleHost) r.grants) 0 (seconds 1) = 9 ∧
    spentWithin (admitted (· = sampleHost) r.grants) 0 (seconds 1) ≤
      r.scheduler.config.hostCapacity + seconds 1 / r.scheduler.config.budgets.refill + 1 := by
  obtain ⟨r, hvia, hspent⟩ := via_of_sampleCalls {} [(0, 8), (seconds 1, 1)] (G := Paced)
    (p := fun r => spentWithin (admitted (· = sampleHost) r.grants) 0 (seconds 1) = 9) rfl
    (by decide +kernel) (by decide +kernel)
  exact ⟨r, hvia, hspent, (admitted_within_rate hvia 0 (seconds 1)).1 sampleHost⟩

/-- **Buckets that are renewed too early**: one that lives shorter than it takes to fill it is dropped
when it is empty and made full again; and after a long sleep each call credits another 32 bits of
periods, so that the bucket is filled again and again at one moment. -/
theorem buckets_renewed :
    (∃ r, probeMachine.Reachable r ∧
      r.scheduler.config.hostCapacity + seconds 6 / r.scheduler.config.budgets.refill + 1 <
        spentWithin (admitted (· = sampleHost) r.grants) 0 (seconds 6)) ∧
    ∃ r, probeMachine.Reachable r ∧
      r.scheduler.config.budgets.globalRateBurst + 0 / r.scheduler.config.budgets.refill + 1 <
        spentWithin (admitted (fun _ => True) r.grants) (seconds 30) 0 := by
  constructor
  · exact via_of_sampleCalls { budgets := ⟨8, 2, 16, 16, seconds 1⟩, stateTtl := seconds 5 }
      [(0, 8), (seconds 6, 8)] rfl (Machine.guarded_true ..) (by decide +kernel)
  · exact via_of_sampleCalls { budgets := ⟨8, 4, 1, 16, 1⟩ }
      [(seconds 30, 1), (seconds 30, 1), (seconds 30, 1)] rfl (Machine.guarded_true ..)
      (by decide +kernel)

end NeonHearth.Sensor
