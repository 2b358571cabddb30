import NeonHearth.Data.SortedMap
import NeonHearth.System.Machine

/-!
# Camera sessions

The session manager of the cameras (`cameras.rs`).  A session needs an output directory, a proxy for the
stream and a media process, and one of a fixed number of permits.  Everything that was made has to be
closed or removed again, and each of these steps can fail; what is left then waits in `pending` for the
next attempt.

Calls run concurrently, so a call is a `Task` with the things that are in its local variables, and
`Manager.advance` is what it does between two points at which it waits.  What the outside world decides (how
an awaited call ends, what time it is, which processes have exited) is in the `Answer`.
-/

namespace NeonHearth.Camera

inductive SessionError where
  | invalid
  | notFound
  | capacity
  | payloadTooLarge
  | unavailable

/-- Things that are made and have to be closed or removed. -/
inductive Resource where
  | process (n : ℕ)
  | proxy (n : ℕ)
  | outputDir (n : ℕ)
  deriving DecidableEq

def Resource.number : Resource → ℕ
  | .process n | .proxy n | .outputDir n => n

/-- Times are in milliseconds. -/
structure SessionConfig where
  maxSessions : ℕ
  idleTimeout : ℕ
  totalTimeout : ℕ

/-- A live session; it has a permit. -/
structure ManagedSession where
  created : ℕ
  lastAccess : ℕ
  outputDir : ℕ
  process : ℕ
  proxy : ℕ

/-- What is left to close; it has a permit. -/
structure CleanupResources where
  process : Option ℕ
  proxy : Option ℕ
  outputDir : Option ℕ

def CleanupResources.fromSession (value : ManagedSession) : CleanupResources :=
  ⟨some value.process, some value.proxy, some value.outputDir⟩

def CleanupResources.transient (process proxy : Option ℕ) (outputDir : ℕ) : CleanupResources :=
  ⟨process, proxy, some outputDir⟩

structure PendingCleanup where
  resources : CleanupResources
  attempts : ℕ
  nextRetry : ℕ

def cleanupRetryBase : ℕ := 25

def cleanupRetryMax : ℕ := 1000

def cleanupRetryDelay (attempts : ℕ) : ℕ :=
  min (cleanupRetryBase * 2 ^ min (attempts - 1) 5) cleanupRetryMax

/-- `saturating_add(1)` of a `u32`. -/
def nextAttempt (attempts : ℕ) : ℕ := min (attempts + 1) (2 ^ 32 - 1)

/-! ### Calls -/

inductive Call where
  | startSession
  | snapshot
  | closeSession (session : ℕ)
  | readSessionFile (session : ℕ)
  | reap (includeCrashed : Bool)
  | shutdown

/-- What is being set up. -/
inductive Job where
  | session
  | snapshot

/-- What a call does after it has reaped. -/
inductive AfterReap where
  | resolve (job : Job)
  | readFile (session : ℕ)
  | finish

/-- The points of a call at which it has no permit. -/
inductive Point where
  /-- `accepting` is read for the first time. -/
  | accept (job : Job)
  /-- `retry_pending(false)`, at the start of `reap`. -/
  | retry (includeCrashed : Bool) (after : AfterReap)
  /-- The rest of `reap`. -/
  | expire (includeCrashed : Bool) (after : AfterReap)
  /-- `exact_profile` and `resolve_source`. -/
  | resolve (job : Job)
  /-- `lifecycle.read()`. -/
  | enter (job : Job)
  /-- `accepting` is read again. -/
  | admission (job : Job)
  | acquire (job : Job)
  | readFile (session : ℕ)
  /-- The session whose process has exited is removed. -/
  | evict (session : ℕ)
  | closeActive (session : ℕ)
  | closePending (session : ℕ)
  /-- `accepting` is cleared. -/
  | stop
  /-- `lifecycle.write()`. -/
  | lock
  | drain
  /-- `retry_pending(true)`. -/
  | retryAll
  /-- The last check of `shutdown`. -/
  | verdict
  /-- `shutdown` returns `Ok`. -/
  | stopped
  | done (result : Except SessionError Unit)

/-- The points of a call that has a permit and is setting something up. -/
inductive Build where
  | contract
  | makeDir
  | startProxy (outputDir : ℕ)
  | makeSpec (outputDir proxy : ℕ)
  | spawn (outputDir proxy : ℕ)
  | authorize (outputDir proxy process : ℕ)
  /-- A snapshot waits for its process and reads the picture. -/
  | capture (outputDir proxy process : ℕ)
  /-- A session is entered. -/
  | install (outputDir proxy process : ℕ)

/-- What `cleanup_attempt` closes next. -/
inductive Phase where
  | process
  | proxy
  | outputDir
  | settle

/-- A call of `cleanup_or_retain`. -/
structure Cleanup where
  owner : ℕ
  resources : CleanupResources
  attempts : ℕ

inductive Stage where
  | waiting (point : Point)
  | building (job : Job) (owner : ℕ) (build : Build)
  /-- A cleanup, those that follow it, and where the call goes on: after a cleanup that succeeded, and
  after one that was retained. -/
  | cleaning (cleanup : Cleanup) (phase : Phase) (failed : Bool) (queue : List Cleanup)
      (onOk onError : Point)

/-- A call in progress, with the guards of `lifecycle` that it has. -/
structure Task where
  stage : Stage
  reading : Bool
  writing : Bool

def Task.to (t : Task) (stage : Stage) : Task := { t with stage := stage }

@[simp]
theorem Task.stage_to (t : Task) (stage : Stage) : (t.to stage).stage = stage := rfl

def Task.goto (t : Task) (point : Point) : Task := t.to (.waiting point)

@[simp]
theorem Task.stage_goto (t : Task) (point : Point) : (t.goto point).stage = .waiting point := rfl

/-- What the outside world decides at a step. -/
structure Answer where
  /-- What was awaited succeeded. -/
  ok : Bool
  /-- A directory was made, although `create_output_dir` failed. -/
  madeDir : Bool
  now : ℕ
  /-- The sessions whose process has exited, or cannot be asked. -/
  exited : ℕ → Bool
  error : SessionError

/-- The manager and the calls in progress; what was made and what was closed is kept as a record, the
last one first. -/
structure Manager where
  config : SessionConfig
  available : ℕ
  sessions : SortedMap ℕ ManagedSession
  pending : SortedMap ℕ PendingCleanup
  accepting : Bool
  readers : ℕ
  writer : Bool
  nextOwner : ℕ
  nextResource : ℕ
  created : List Resource
  released : List Resource
  tasks : SortedMap ℕ Task
  /-- A shutdown has returned `Ok`. -/
  shutDown : Bool

def Call.start : Call → Point
  | .startSession => .accept .session
  | .snapshot => .accept .snapshot
  | .closeSession session => .closeActive session
  | .readSessionFile session => .retry false (.readFile session)
  | .reap includeCrashed => .retry includeCrashed .finish
  | .shutdown => .stop

def AfterReap.point : AfterReap → Point
  | .resolve job => .resolve job
  | .readFile session => .readFile session
  | .finish => .done (.ok ())

def Job.build : Job → Build
  | .session => .contract
  | .snapshot => .makeDir

/-- The next cleanup, or the point after them. -/
def Stage.next (queue : List Cleanup) (point onOk onError : Point) : Stage :=
  match queue with
  | [] => .waiting point
  | cleanup :: queue => .cleaning cleanup .process false queue onOk onError

/-- Cleanups whose results are ignored. -/
def Stage.cleanAll (queue : List Cleanup) (point : Point) : Stage := .next queue point point point

/-- One cleanup whose result is used. -/
def Stage.cleanOne (cleanup : Cleanup) (onOk onError : Point) : Stage :=
  .next [cleanup] onOk onOk onError

namespace Manager

variable (m : Manager)

/-- `ManagedSession::timed_out` of `reap`. -/
def timedOut (now : ℕ) (value : ManagedSession) : Bool :=
  m.config.idleTimeout ≤ now - value.lastAccess || m.config.totalTimeout ≤ now - value.created

/-- The sessions that `reap` removes. -/
def isExpired (includeCrashed : Bool) (a : Answer) (id : ℕ) (value : ManagedSession) : Bool :=
  m.timedOut a.now value || includeCrashed && a.exited id

def ofSession (entry : ℕ × ManagedSession) : Cleanup := ⟨entry.1, .fromSession entry.2, 0⟩

def ofPending (entry : ℕ × PendingCleanup) : Cleanup :=
  ⟨entry.1, entry.2.resources, entry.2.attempts⟩

/-- Records that a thing was made. -/
def make (r : Resource) : Manager :=
  { m with created := r :: m.created, nextResource := m.nextResource + 1 }

/-- Records that a thing was closed or removed. -/
def release (r : Resource) : Manager := { m with released := r :: m.released }

/-- A step at a point at which the call has no permit. -/
def atPoint (t : Task) (a : Answer) : Point → Option (Task × Manager)
  | .accept job =>
    let point := if m.accepting then .retry true (.resolve job) else .done (.error .unavailable)
    some (t.goto point, m)
  | .retry includeCrashed after =>
    let due := m.pending.filter fun _ value => value.nextRetry ≤ a.now
    some (t.to (.cleanAll (due.toList.map ofPending) (.expire includeCrashed after)),
      { m with pending := m.pending.filter fun _ value => !decide (value.nextRetry ≤ a.now) })
  | .expire includeCrashed after =>
    let expired := m.sessions.filter (m.isExpired includeCrashed a)
    some (t.to (.cleanAll (expired.toList.map ofSession) after.point),
      { m with sessions := m.sessions.filter fun id value => !m.isExpired includeCrashed a id value })
  | .resolve job =>
    some (t.goto (if a.ok then .enter job else .done (.error a.error)), m)
  | .enter job =>
    if m.writer then none
    else some ({ t.goto (.admission job) with reading := true },
      { m with readers := m.readers + 1 })
  | .admission job =>
    let point := if m.accepting then .acquire job else .done (.error .unavailable)
    some (t.goto point, m)
  | .acquire job =>
    match m.available with
    | 0 => some (t.goto (.done (.error .capacity)), m)
    | n + 1 => some (t.to (.building job m.nextOwner job.build),
        { m with available := n, nextOwner := m.nextOwner + 1 })
  | .readFile session =>
    match m.sessions.get session with
    | none => some (t.goto (.done (.error .notFound)), m)
    | some value =>
      if a.exited session then some (t.goto (.evict session), m)
      else
        let result := if a.ok then .ok () else .error a.error
        some (t.goto (.done result),
          { m with sessions := m.sessions.insert session { value with lastAccess := a.now } })
  | .evict session =>
    match m.sessions.get session with
    | none => some (t.goto (.done (.error .unavailable)), m)
    | some value =>
      some (t.to (.cleanAll [⟨session, .fromSession value, 0⟩] (.done (.error .unavailable))),
        { m with sessions := m.sessions.erase session })
  | .closeActive session =>
    match m.sessions.get session with
    | none => some (t.goto (.closePending session), m)
    | some value =>
      some (t.to (.cleanOne ⟨session, .fromSession value, 0⟩ (.done (.ok ()))
          (.done (.error .unavailable))),
        { m with sessions := m.sessions.erase session })
  | .closePending session =>
    match m.pending.get session with
    | none => some (t.goto (.done (.ok ())), m)
    | some value =>
      some (t.to (.cleanOne ⟨session, value.resources, value.attempts⟩ (.done (.ok ()))
          (.done (.error .unavailable))),
        { m with pending := m.pending.erase session })
  | .stop => some (t.goto .lock, { m with accepting := false })
  | .lock =>
    if m.writer || m.readers ≠ 0 then none
    else some ({ t.goto .drain with writing := true }, { m with writer := true })
  | .drain =>
    some (t.to (.cleanAll (m.sessions.toList.map ofSession) .retryAll),
      { m with sessions := ∅ })
  | .retryAll =>
    some (t.to (.cleanAll (m.pending.toList.map ofPending) .verdict),
      { m with pending := ∅ })
  | .verdict =>
    let point := if m.pending.size ≠ 0 || m.available ≠ m.config.maxSessions then
      .done (.error .unavailable) else .stopped
    some (t.goto point, m)
  | .stopped | .done _ => none

/-- What was set up is cleaned up, and the call fails. -/
def abort (t : Task) (owner : ℕ) (resources : CleanupResources) : Task :=
  t.to (.cleanAll [⟨owner, resources, 0⟩] (.done (.error .unavailable)))

/-- A step of a call that is setting something up. -/
def build (t : Task) (a : Answer) (job : Job) (owner : ℕ) : Build → Task × Manager
  | .contract =>
    if a.ok then (t.to (.building job owner .makeDir), m)
    else
      -- the permit is dropped
      (t.goto (.done (.error .invalid)), { m with available := m.available + 1 })
  | .makeDir =>
    if a.ok then
      (t.to (.building job owner (.startProxy m.nextResource)),
        m.make (.outputDir m.nextResource))
    else if a.madeDir then
      (abort t owner (.transient none none m.nextResource), m.make (.outputDir m.nextResource))
    else
      (t.goto (.done (.error .unavailable)),
        { m with available := m.available + 1 })
  | .startProxy outputDir =>
    if a.ok then
      (t.to (.building job owner (.makeSpec outputDir m.nextResource)),
        m.make (.proxy m.nextResource))
    else (abort t owner (.transient none none outputDir), m)
  | .makeSpec outputDir proxy =>
    if a.ok then (t.to (.building job owner (.spawn outputDir proxy)), m)
    else (abort t owner (.transient none (some proxy) outputDir), m)
  | .spawn outputDir proxy =>
    if a.ok then
      (t.to (.building job owner (.authorize outputDir proxy m.nextResource)),
        m.make (.process m.nextResource))
    else (abort t owner (.transient none (some proxy) outputDir), m)
  | .authorize outputDir proxy process =>
    if a.ok then
      match job with
      | .session => (t.to (.building job owner (.install outputDir proxy process)), m)
      | .snapshot => (t.to (.building job owner (.capture outputDir proxy process)), m)
    else (abort t owner (.transient (some process) (some proxy) outputDir), m)
  | .capture outputDir proxy process =>
    let result := if a.ok then .ok () else .error a.error
    (t.to (.cleanOne ⟨owner, .transient (some process) (some proxy) outputDir, 0⟩ (.done result)
      (.done (.error .unavailable))), m)
  | .install outputDir proxy process =>
    let value : ManagedSession := ⟨a.now, a.now, outputDir, process, proxy⟩
    if m.accepting then
      (t.goto (.done (.ok ())),
        { m with sessions := m.sessions.insert owner value })
    else (abort t owner (.fromSession value), m)

/-- A step of `cleanup_or_retain`. -/
def clean (t : Task) (a : Answer) (cleanup : Cleanup) (failed : Bool) (queue : List Cleanup)
    (onOk onError : Point) : Phase → Task × Manager
  | .process =>
    match cleanup.resources.process with
    | none => (t.to (.cleaning cleanup .proxy failed queue onOk onError), m)
    | some n =>
      if a.ok then
        let resources := { cleanup.resources with process := none }
        (t.to (.cleaning { cleanup with resources } .proxy failed queue onOk onError),
          m.release (.process n))
      else (t.to (.cleaning cleanup .proxy true queue onOk onError), m)
  | .proxy =>
    match cleanup.resources.proxy with
    | none => (t.to (.cleaning cleanup .outputDir failed queue onOk onError), m)
    | some n =>
      if a.ok then
        let resources := { cleanup.resources with proxy := none }
        (t.to (.cleaning { cleanup with resources } .outputDir failed queue onOk onError),
          m.release (.proxy n))
      else (t.to (.cleaning cleanup .outputDir true queue onOk onError), m)
  | .outputDir =>
    match cleanup.resources.outputDir with
    | none => (t.to (.cleaning cleanup .settle failed queue onOk onError), m)
    | some n =>
      if a.ok then
        let resources := { cleanup.resources with outputDir := none }
        (t.to (.cleaning { cleanup with resources } .settle failed queue onOk onError),
          m.release (.outputDir n))
      else (t.to (.cleaning cleanup .settle true queue onOk onError), m)
  | .settle =>
    if failed then
      let attempts := nextAttempt cleanup.attempts
      let value : PendingCleanup :=
        ⟨cleanup.resources, attempts, a.now + cleanupRetryDelay attempts⟩
      (t.to (.next queue onError onOk onError),
        { m with pending := m.pending.insert cleanup.owner value })
    else
      -- the permit is dropped with what is left of the resources
      (t.to (.next queue onOk onOk onError), { m with available := m.available + 1 })

/-- What a call does between two points at which it waits. -/
def advance (t : Task) (a : Answer) : Option (Task × Manager) :=
  match t.stage with
  | .waiting point => m.atPoint t a point
  | .building job owner b => some (m.build t a job owner b)
  | .cleaning cleanup phase failed queue onOk onError =>
    some (m.clean t a cleanup failed queue onOk onError phase)

end Manager

/-- The call returns, without error if it is a shutdown. -/
def Task.returns (t : Task) : Option Bool :=
  match t.stage with
  | .waiting .stopped => some true
  | .waiting (.done _) => some false
  | _ => none

inductive SessionEvent where
  /-- A call is made. -/
  | call (task : ℕ) (call : Call)
  /-- A call goes on. -/
  | run (task : ℕ) (answer : Answer)
  /-- A call returns and drops its guards. -/
  | finish (task : ℕ)

namespace Manager

variable (m : Manager)

def step : SessionEvent → Option Manager
  | .call task call =>
    if (m.tasks.get task).isSome then none
    else some { m with tasks := m.tasks.insert task ⟨.waiting call.start, false, false⟩ }
  | .run task answer => do
    let t ← m.tasks.get task
    let (t', m') ← m.advance t answer
    return { m' with tasks := m'.tasks.insert task t' }
  | .finish task => do
    let t ← m.tasks.get task
    let stopped ← t.returns
    return { m with
      tasks := m.tasks.erase task
      readers := if t.reading then m.readers - 1 else m.readers
      writer := if t.writing then false else m.writer
      shutDown := m.shutDown || stopped }

/-- `CameraSessionManager::new`. -/
def new (config : SessionConfig) : Manager where
  config := config
  available := config.maxSessions
  sessions := ∅
  pending := ∅
  accepting := true
  readers := 0
  writer := false
  nextOwner := 0
  nextResource := 0
  created := []
  released := []
  tasks := ∅
  shutDown := false

end Manager

def sessionMachine : Machine Manager SessionEvent where
  init m := ∃ config, m = .new config
  step := Manager.step

end NeonHearth.Camera
