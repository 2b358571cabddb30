import NeonHearth.Remote.Session
import NeonHearth.System.Machine

/-!
# Replay windows of phone commands

The remote-access layer of the service gives every phone session a replay window
(`SessionDedup`): a mutating request carries a command id, the first request with an id claims
it and runs its handler, and a duplicate either replays the settled response or parks until the
slot of the id changes.  The claim, the settle, the release and the removal of a window each
happen under one lock; handlers, parked duplicates and revocations interleave between them.
-/

namespace NeonHearth

namespace Remote

/-- Per-session replay window: the newest ids whose results are retained. -/
def commandDedupWindow : ℕ := 128

/-- Largest response body the dedup cache will buffer. -/
def maxCachedCommandBody : ℕ := 2 * 1024 * 1024

/-- A settled response. -/
structure CachedCommand where
  /-- HTTP status. -/
  status : ℕ
  /-- The `content-type` header, if the handler set one. -/
  contentType : Option String
  /-- The whole body. -/
  body : List UInt8
  deriving DecidableEq

/-- One command id's place in a session's replay window. -/
inductive CommandSlot where
  /-- A request with this id is executing; duplicates wait on the notify. -/
  | pending (notify : ℕ)
  /-- The settled response, replayed verbatim to duplicates. -/
  | done (cached : CachedCommand)
  deriving DecidableEq

/-- The replay window of one session. -/
structure SessionDedup where
  /-- Settled ids, oldest first, for bounded eviction. -/
  order : List Uuid
  /-- The slot of each id. -/
  slots : Uuid → Option CommandSlot

namespace SessionDedup

/-- The window a session starts with. -/
def empty : SessionDedup := ⟨[], fun _ => none⟩

/-- Claims `c`: the in-flight marker carries the notify `n`. -/
def begin (w : SessionDedup) (c : Uuid) (n : ℕ) : SessionDedup :=
  { w with slots := Function.update w.slots c (some (.pending n)) }

/-- Evicts the oldest settled entries beyond the window. -/
def evict : List Uuid → (Uuid → Option CommandSlot) → SessionDedup
  | [], slots => ⟨[], slots⟩
  | c :: order, slots =>
    if (c :: order).length > commandDedupWindow then evict order (Function.update slots c none)
    else ⟨c :: order, slots⟩

/-- Stores the settled response for `c`; the notify of the claim it replaces, if any. -/
def settle (w : SessionDedup) (c : Uuid) (response : CachedCommand) : SessionDedup × Option ℕ :=
  let slots := Function.update w.slots c (some (.done response))
  match w.slots c with
  | some (.done _) => (evict w.order slots, none)
  | some (.pending n) => (evict (w.order ++ [c]) slots, some n)
  | none => (evict (w.order ++ [c]) slots, none)

/-- Forgets an in-flight `c` whose request produced nothing worth replaying. -/
def release (w : SessionDedup) (c : Uuid) : SessionDedup × Option ℕ :=
  match w.slots c with
  | some (.pending n) => ({ w with slots := Function.update w.slots c none }, some n)
  | _ => (w, none)

end SessionDedup

/-- What a handler returned; `body` is `none` when reading the body failed. -/
structure Response where
  /-- HTTP status. -/
  status : ℕ
  /-- The `content-type` header. -/
  contentType : Option String
  /-- The body, when it could be read. -/
  body : Option (List UInt8)

/-- `StatusCode::is_server_error`. -/
def isServerError (status : ℕ) : Bool := 500 ≤ status && status < 600

/-- The response a finished handler leaves in the window: nothing for an unreadable or oversized
body and for a server error, which the client's retry must be able to run again. -/
def cachedCommand (r : Response) : Option CachedCommand :=
  match r.body with
  | none => none
  | some body =>
    if maxCachedCommandBody < body.length then none
    else if isServerError r.status then none
    else some ⟨r.status, r.contentType, body⟩

/-- How a request was answered. -/
inductive Reply where
  /-- No such session, or a dead one. -/
  | unauthorized
  /-- Refused by one of the checks after the session check. -/
  | refused
  /-- The settled response of an earlier request with the same id. -/
  | replayed (cached : CachedCommand)
  /-- The handler ran; `none` stands for a response that is not cached. -/
  | executed (cached : Option CachedCommand)
  deriving DecidableEq

/-- How far a request has come.  Between two stages the request awaits. -/
inductive Stage where
  /-- The session row has been read. -/
  | fetched (row : PhoneSessionRow)
  /-- Authenticated when the clock read `now`; the row as it was read. -/
  | authenticated (now : ℤ) (row : PhoneSessionRow)
  /-- About to take the lock and look its command id up. -/
  | claiming
  /-- Waiting on a notify. -/
  | parked (notify : ℕ)
  /-- Holding the claim and running its handler. -/
  | running
  /-- Answered. -/
  | answered (reply : Reply)
  /-- Dropped by the client. -/
  | dropped
  deriving DecidableEq

/-- The request has passed or may still pass the session check, and has not claimed yet. -/
def Stage.beforeClaim : Stage → Bool
  | .fetched _ | .authenticated _ _ | .claiming => true
  | _ => false

/-- The request has ended. -/
def Stage.ended : Stage → Bool
  | .answered _ | .dropped => true
  | _ => false

/-- A mutating phone request with its session and command id. -/
structure Request where
  /-- The session whose credentials it carries. -/
  session : Uuid
  /-- Its command id. -/
  command : Uuid
  /-- How far it has come. -/
  stage : Stage
  deriving DecidableEq

end Remote

open Remote

/-- The state shared by all requests. -/
structure Remote where
  /-- The clock. -/
  now : ℤ
  /-- The session table. -/
  session : Uuid → Option PhoneSessionRow
  /-- The replay windows, behind one lock. -/
  dedup : Uuid → Option SessionDedup
  /-- The requests so far. -/
  request : ℕ → Option Request
  /-- The next unused notify. -/
  freshNotify : ℕ
  /-- Per session, the ids settled with a cached response, oldest first. -/
  settled : Uuid → List Uuid

namespace Remote

/-- The service right after its start. -/
def start (now : ℤ) : Remote where
  now := now
  session _ := none
  dedup _ := none
  request _ := none
  freshNotify := 0
  settled _ := []

variable (st : Remote)

/-- The slot of a command id in the window of a session. -/
def slot (s c : Uuid) : Option CommandSlot := (st.dedup s).bind fun w => w.slots c

/-- The window of a session, a fresh one when there is none (`entry(..).or_default()`). -/
def window (s : Uuid) : SessionDedup := (st.dedup s).getD SessionDedup.empty

/-- The session row carries the revocation mark. -/
def revoked (s : Uuid) : Bool :=
  match st.session s with
  | none => false
  | some row => row.revoked

/-- Moves request `r` to a stage. -/
def setStage (r : ℕ) (q : Request) (stage : Stage) : Remote :=
  { st with request := Function.update st.request r (some { q with stage := stage }) }

/-- Stores the window of a session. -/
def setWindow (s : Uuid) (w : SessionDedup) : Remote :=
  { st with dedup := Function.update st.dedup s (some w) }

/-- Updates the row of a session, if there is one. -/
def updateSession (s : Uuid) (f : PhoneSessionRow → PhoneSessionRow) : Remote :=
  { st with session := Function.update st.session s ((st.session s).map f) }

/-- `notify_waiters`: every request parked on `n` goes back to the claim loop. -/
def notifyWaiters (n : ℕ) : Remote :=
  { st with
    request := fun r => (st.request r).map fun q =>
      if q.stage = .parked n then { q with stage := .claiming } else q }

/-- Drops a session's replay window (revocation, expiry). -/
def forgetSession (s : Uuid) : Remote :=
  { st with dedup := Function.update st.dedup s none }

/-- Completes an in-flight command: stores the settled response or releases the id, and wakes
the duplicates parked on it.  Nothing happens when the window is gone. -/
def finishCommand (s c : Uuid) (cached : Option CachedCommand) : Remote :=
  match st.dedup s with
  | none => st
  | some w =>
    match cached with
    | some response =>
      let st' := { st.setWindow s (w.settle c response).1 with
        settled := Function.update st.settled s (st.settled s ++ [c]) }
      match (w.settle c response).2 with
      | some n => st'.notifyWaiters n
      | none => st'
    | none =>
      match (w.release c).2 with
      | some n => (st.setWindow s (w.release c).1).notifyWaiters n
      | none => st.setWindow s (w.release c).1

/-- The session check of a request that has read `row`: a dead session's window is dropped, and
`authorized` is the outcome of the secret and route checks after it. -/
def authenticate (r : ℕ) (q : Request) (row : PhoneSessionRow) (authorized : Bool) : Remote :=
  if row.dead st.now then (st.forgetSession q.session).setStage r q (.answered .unauthorized)
  else if authorized then st.setStage r q (.authenticated st.now row)
  else st.setStage r q (.answered .refused)

/-- Writes the sliding expiry back when it is due; `admitted` is the outcome of the step-up and
header checks that follow. -/
def letThrough (r : ℕ) (q : Request) (now : ℤ) (row : PhoneSessionRow) (admitted : Bool) : Remote :=
  let st' := if row.touchDue now
    then st.updateSession q.session fun row' => row'.touch now (now + days phoneSessionTtlDays)
    else st
  st'.setStage r q (if admitted then .claiming else .answered .refused)

/-- One pass of the claim loop: replay, park or claim. -/
def claim (r : ℕ) (q : Request) : Remote :=
  let w := st.window q.session
  match w.slots q.command with
  | some (.done cached) => (st.setWindow q.session w).setStage r q (.answered (.replayed cached))
  | some (.pending n) => (st.setWindow q.session w).setStage r q (.parked n)
  | none =>
    let st' := (st.setWindow q.session (w.begin q.command st.freshNotify)).setStage r q .running
    { st' with freshNotify := st.freshNotify + 1 }

/-- The events of the remote-access layer. -/
inductive Event where
  /-- Time passes. -/
  | tick (elapsed : ℕ)
  /-- A phone is paired. -/
  | pair (s : Uuid)
  /-- A request arrives and its session row is read. -/
  | arrive (r : ℕ) (s c : Uuid)
  /-- A request checks the session row it has read. -/
  | authenticate (r : ℕ) (authorized : Bool)
  /-- An authenticated request enters the claim loop or is refused. -/
  | letThrough (r : ℕ) (admitted : Bool)
  /-- A request takes the lock and looks its id up. -/
  | claim (r : ℕ)
  /-- A handler finishes. -/
  | complete (r : ℕ) (response : Response)
  /-- The client disconnects and the request is dropped. -/
  | cancel (r : ℕ)
  /-- The owner revokes a session: the row is marked. -/
  | revoke (s : Uuid)
  /-- The revocation route drops the window of the revoked session. -/
  | forget (s : Uuid)

/-- One event. -/
def step : Event → Option Remote
  | .tick elapsed => some { st with now := st.now + elapsed }
  | .pair s =>
    match st.session s with
    | some _ => none
    | none => some { st with session := Function.update st.session s (some (.paired st.now)) }
  | .arrive r s c =>
    match st.request r, st.session s with
    | some _, _ => none
    | none, none => some (st.setStage r ⟨s, c, .dropped⟩ (.answered .unauthorized))
    | none, some row => some (st.setStage r ⟨s, c, .dropped⟩ (.fetched row))
  | .authenticate r authorized =>
    match st.request r with
    | some ⟨s, c, .fetched row⟩ =>
      some (st.authenticate r ⟨s, c, .fetched row⟩ row authorized)
    | _ => none
  | .letThrough r admitted =>
    match st.request r with
    | some ⟨s, c, .authenticated now row⟩ =>
      some (st.letThrough r ⟨s, c, .authenticated now row⟩ now row admitted)
    | _ => none
  | .claim r =>
    match st.request r with
    | some ⟨s, c, .claiming⟩ => some (st.claim r ⟨s, c, .claiming⟩)
    | _ => none
  | .complete r response =>
    match st.request r with
    | some ⟨s, c, .running⟩ =>
      let cached := cachedCommand response
      some ((st.finishCommand s c cached).setStage r ⟨s, c, .running⟩
        (.answered (.executed cached)))
    | _ => none
  | .cancel r =>
    match st.request r with
    | none => none
    | some ⟨s, c, .running⟩ =>
      some ((st.finishCommand s c none).setStage r ⟨s, c, .running⟩ .dropped)
    | some q => if q.stage.ended then none else some (st.setStage r q .dropped)
  | .revoke s =>
    match st.session s with
    | none => none
    | some _ => some (st.updateSession s PhoneSessionRow.revoke)
  | .forget s => if st.revoked s then some (st.forgetSession s) else none

end Remote

/-- All interleavings of the remote-access layer. -/
def remoteMachine : Machine Remote Remote.Event where
  init st := ∃ now, st = Remote.start now
  step := Remote.step

end NeonHearth
