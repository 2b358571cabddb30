import NeonHearth.Events.Bus
import NeonHearth.Events.Payload

/-!
# The event feed of integrations

An integration polls for the events after a cursor (`events_route`).  The answer has those that its token
may see, and the next cursor; or it says that the integration must fetch a snapshot again.  A poll may
wait for an event.  The bus starts again with the service, and the integration keeps its cursor.

* `feed_complete` : what the answers have, if a cursor of an earlier process is outside of what the bus
  has numbered, or nothing has been missed (`Fresh`);
* `restarted_not_complete` : a cursor of an earlier process is taken for one of the present process.
-/

namespace NeonHearth.Events

open List Option

inductive IntegrationScope where
  | devicesRead
  | presenceRead
  | bandwidthRead
  | policyRead
  deriving DecidableEq

/-- `scope_allows`. -/
def scopeAllows (scopes : List IntegrationScope) : EventPayload → Bool
  | .presenceChanged _ => scopes.contains .presenceRead
  | .bandwidthFrame _ => scopes.contains .bandwidthRead
  | .policyChanged _ => scopes.contains .policyRead
  | .serviceStatus _ | .homeChanged _ => false

structure IntegrationEvents where
  resync : Bool
  events : List (EventEnvelope EventPayload)
  nextAfter : ℕ

/-- The place of a publication: the process that made it, and its number there. -/
abbrev Position := ℕ ×ₗ ℕ

/-- A publication with the process that made it. -/
abbrev Publication := ℕ × EventEnvelope EventPayload

def Publication.position (x : Publication) : Position := toLex (x.1, x.2.sequence)

/-- An answer, with what it was given for. -/
structure Response where
  process : ℕ
  /-- The place of the cursor of the poll. -/
  since : Position
  /-- How many events the process had published when the poll read the bus. -/
  read : ℕ
  body : IntegrationEvents

/-- The place of the cursor that the answer gives. -/
def Response.position (r : Response) : Position := toLex (r.process, r.body.nextAfter)

def Response.publications (r : Response) : List Publication := r.body.events.map fun e => (r.process, e)

/-- Where `events_route` is. -/
inductive Poll where
  | idle
  | subscribed (wait : ℕ)
  | waiting (read nextAfter : ℕ)
  /-- The answer will be to fetch a snapshot. -/
  | resyncing

structure Feed where
  process : ℕ
  hub : Hub EventPayload
  /-- What earlier processes have published. -/
  earlier : List Publication
  afterSequence : ℕ
  /-- The process that gave the cursor; the first one is the integration's own. -/
  issuer : Option ℕ
  poll : Poll
  responses : List Response

namespace Feed

/-- `MAX_EVENT_WAIT_MS`. -/
def maxEventWaitMs : ℕ := 25000

variable (scopes : List IntegrationScope) (f : Feed)

/-- All publications. -/
def log : List Publication := f.earlier ++ f.hub.published.map fun e => (f.process, e)

/-- The place of the cursor. -/
def since : Position := toLex (f.issuer.getD f.process, f.afterSequence)

def respond (read : ℕ) (body : IntegrationEvents) : Feed :=
  { f with
    afterSequence := body.nextAfter
    issuer := some f.process
    poll := .idle
    responses := f.responses ++ [⟨f.process, f.since, read, body⟩] }

/-- The start of a poll.  Only so many of them may wait at a time. -/
def start (waitMs : Option ℕ) (permitted : Bool) : Option Feed :=
  match f.poll with
  | .idle =>
    let wait := min (waitMs.getD 0) maxEventWaitMs
    if wait ≠ 0 ∧ permitted = false then some f
    else some { f with hub := f.hub.subscribe, poll := .subscribed wait }
  | _ => none

/-- The loop over the events of the replay. -/
def replayed (events : List (EventEnvelope EventPayload)) : List (EventEnvelope EventPayload) × ℕ :=
  events.foldl (fun (visible, _) e =>
    (if scopeAllows scopes e.payload then visible ++ [e] else visible, e.sequence))
    ([], f.afterSequence)

/-- The events after the cursor have been read. -/
def resumed (wait : ℕ) : Resume EventPayload → Feed
  | .snapshotRequired => { f with poll := .resyncing }
  | .events events =>
    let (visible, nextAfter) := f.replayed scopes events
    if visible.isEmpty && wait ≠ 0 then
      { f with poll := .waiting f.hub.published.length nextAfter }
    else f.respond f.hub.published.length ⟨false, visible, nextAfter⟩

def resume : Option Feed :=
  match f.poll with
  | .subscribed wait => (f.hub.resumeAfter f.afterSequence).map (f.resumed scopes wait)
  | _ => none

/-- The answer to fetch a snapshot, with the current number. -/
def resync : Option Feed :=
  match f.poll with
  | .resyncing =>
    if f.hub.publishing.isSome then none
    else some (f.respond f.hub.published.length ⟨true, [], f.hub.bus.currentSequence⟩)
  | _ => none

/-- What a waiting poll makes of what it receives. -/
def handle (read nextAfter : ℕ) : Received EventPayload → Feed
  | .lagged => { f with poll := .resyncing }
  | .event e =>
    if e.sequence ≤ nextAfter then f
    else if scopeAllows scopes e.payload then f.respond read ⟨false, [e], e.sequence⟩
    else { f with poll := .waiting read e.sequence }

def receive (capacities : Capacities) : Option Feed :=
  match f.poll with
  | .waiting read nextAfter => (f.hub.receive capacities).map fun (received, hub) =>
    { f with hub }.handle scopes read nextAfter received
  | _ => none

/-- The wait is over. -/
def timeout : Option Feed :=
  match f.poll with
  | .waiting read nextAfter => some (f.respond read ⟨false, [], nextAfter⟩)
  | _ => none

/-- Another process takes over.  A poll that is under way is lost. -/
def restart : Feed :=
  { f with process := f.process + 1, hub := .new, earlier := f.log, poll := .idle }

end Feed

inductive FeedEvent where
  | publish (occurredAt : DateTime) (payload : EventPayload)
  | send
  | start (waitMs : Option ℕ) (permitted : Bool)
  | resume
  | resync
  | receive
  | timeout
  | restart

def Feed.step (capacities : Capacities) (scopes : List IntegrationScope) (f : Feed) :
    FeedEvent → Option Feed
  | .publish occurredAt payload =>
    (f.hub.publish capacities occurredAt payload).map fun hub => { f with hub }
  | .send => f.hub.send.map fun hub => { f with hub }
  | .start waitMs permitted => f.start waitMs permitted
  | .resume => f.resume scopes
  | .resync => f.resync
  | .receive => f.receive scopes capacities
  | .timeout => f.timeout
  | .restart => some f.restart

/-- The service and one integration, which starts with some cursor. -/
def feedMachine (capacities : Capacities) (scopes : List IntegrationScope) (first : ℕ) :
    Machine Feed FeedEvent where
  init f := f = ⟨0, .new, [], first, none, .idle, []⟩
  step f e := f.step capacities scopes e

/-! ### What is due -/

/-- The publications that a token may see between two places. -/
def due (scopes : List IntegrationScope) (since upto : Position) (x : Publication) : Bool :=
  scopeAllows scopes x.2.payload && since < x.position && x.position ≤ upto

variable {log : List Publication}

/-- In a log that is ordered by places, what is due up to a place comes before what is due after it. -/
theorem filter_due_append {scopes a b c}
    (hlog : log.Pairwise fun x y => x.position < y.position) (hab : a ≤ b) (hbc : b ≤ c) :
    log.filter (due scopes a b) ++ log.filter (due scopes b c) = log.filter (due scopes a c) := by
  induction log with
  | nil => rfl
  | cons x log ih =>
    obtain ⟨hx, hlog⟩ := pairwise_cons.1 hlog
    have ih := ih hlog
    obtain hle | hlt := le_or_gt x.position b
    · -- the publication is due before the place, or never
      have hlater : due scopes b c x = false := by simp [due, hle]
      have hsame : due scopes a b x = due scopes a c x := by simp [due, hle, hle.trans hbc]
      simp only [filter_cons, hlater, hsame, Bool.false_eq_true, if_false]
      split_ifs
      · rw [cons_append, ih]
      · exact ih
    · have hlate : ∀ y ∈ x :: log, b < y.position :=
        forall_mem_cons.2 ⟨hlt, fun y hy => hlt.trans (hx y hy)⟩
      have hnone : (x :: log).filter (due scopes a b) = [] :=
        filter_eq_nil_iff.2 fun y hy => by simp [due, hlate y hy]
      rw [hnone, nil_append]
      refine filter_congr fun y hy => ?_
      simp [due, hlate y hy, hab.trans_lt (hlate y hy)]

namespace Feed

variable {capacities : Capacities} {scopes : List IntegrationScope} {first : ℕ} {f f' : Feed}

/-- Whatever the token may see after the place of the cursor has been published by this process, with a
number above the cursor. -/
def NothingMissed (scopes : List IntegrationScope) (f : Feed) : Prop :=
  ∀ x ∈ f.log, scopeAllows scopes x.2.payload → f.since < x.position →
    x.1 = f.process ∧ f.afterSequence < x.2.sequence
  deriving Decidable

/-- The cursor is above all numbers, or below those in the replay buffer, or nothing has been missed. -/
def Fresh (scopes : List IntegrationScope) (f : Feed) : Prop :=
  f.hub.bus.currentSequence < f.afterSequence ∨
    (f.hub.bus.replay.head?.any fun oldest => f.afterSequence + 1 < oldest.sequence) ∨
    f.NothingMissed scopes
  deriving Decidable

/-- The condition on a run: the cursor is fresh when the bus is read. -/
def FreshPolls (scopes : List IntegrationScope) (f : Feed) : FeedEvent → Prop
  | .resume => f.Fresh scopes
  | _ => True

instance (scopes : List IntegrationScope) (f : Feed) (e : FeedEvent) :
    Decidable (FreshPolls scopes f e) := by
  cases e <;> unfold FreshPolls <;> infer_instance

/-- The last place. -/
def now (f : Feed) : Position := toLex (f.process, f.hub.published.length)

/-- An answer is right: it has what is due from the cursor of the poll to that of the answer, with all
that had been published when the poll read the bus. -/
structure Response.Right (scopes : List IntegrationScope) (log : List Publication) (r : Response) :
    Prop where
  read_le : r.read ≤ r.body.nextAfter
  since_le : r.since ≤ r.position
  publications : r.publications = log.filter (due scopes r.since r.position)

/-- What holds while a poll waits. -/
structure Waiting (scopes : List IntegrationScope) (f : Feed) (read nextAfter : ℕ) : Prop where
  missed : f.NothingMissed scopes
  after_le : f.afterSequence ≤ nextAfter
  read_le : read ≤ nextAfter
  next_le : nextAfter ≤ f.hub.published.length
  position : f.hub.position ≤ nextAfter
  invisible : ∀ e ∈ f.hub.published, scopeAllows scopes e.payload → f.afterSequence < e.sequence →
    nextAfter < e.sequence

structure Ok (scopes : List IntegrationScope) (first : ℕ) (f : Feed) : Prop where
  hub : f.hub.Sound
  earlier : ∀ x ∈ f.earlier, x.1 < f.process
  sorted : f.earlier.Pairwise fun x y => x.position < y.position
  responses : ∀ r ∈ f.responses, r.position ≤ f.now ∧
    (r.body.resync = false → Response.Right scopes f.log r)
  linked : f.responses.IsChain fun r r' => r'.since = r.position
  head : ∀ r, f.responses.head? = some r → r.since = toLex (r.process, first)
  cursor : f.responses = [] ∧ f.issuer = none ∧ f.afterSequence = first ∨
    ∃ last, f.responses.getLast? = some last ∧ f.issuer = some last.process ∧
      f.afterSequence = last.body.nextAfter
  waiting : ∀ read nextAfter, f.poll = .waiting read nextAfter → f.Waiting scopes read nextAfter

/-! ### What changes the log -/

theorem log_mem_process (h : ∀ x ∈ f.earlier, x.1 < f.process) : ∀ x ∈ f.log, x.1 ≤ f.process := by
  intro x hx
  obtain hx | hx := mem_append.1 hx
  · exact (h x hx).le
  · obtain ⟨e, -, rfl⟩ := mem_map.1 hx
    exact le_refl _

/-- A place of an earlier process is before all of a later one. -/
theorem lt_of_process_lt {p q m n : ℕ} (h : p < q) : (toLex (p, m) : Position) < toLex (q, n) :=
  Prod.Lex.toLex_lt_toLex.2 (.inl h)

theorem toLex_le_toLex {p m n : ℕ} : (toLex (p, m) : Position) ≤ toLex (p, n) ↔ m ≤ n := by
  simp [Prod.Lex.toLex_le_toLex]

theorem toLex_lt_toLex {p m n : ℕ} : (toLex (p, m) : Position) < toLex (p, n) ↔ m < n := by
  simp [Prod.Lex.toLex_lt_toLex]

theorem Ok.log_sorted (h : f.Ok scopes first) : f.log.Pairwise fun x y => x.position < y.position := by
  refine pairwise_append.2 ⟨h.sorted, ?_, fun x hx y hy => ?_⟩
  · rw [pairwise_map]
    exact h.hub.numbered.pairwise.imp fun hlt => toLex_lt_toLex.2 hlt
  · obtain ⟨e, -, rfl⟩ := mem_map.1 hy
    exact lt_of_process_lt (h.earlier x hx)

variable {more : List Publication}

/-- Later publications do not change what was due. -/
theorem filter_due_append_later {since upto} (hmore : ∀ x ∈ more, upto < x.position) :
    (log ++ more).filter (due scopes since upto) = log.filter (due scopes since upto) := by
  have hnone : more.filter (due scopes since upto) = [] := by
    refine filter_eq_nil_iff.2 fun x hx => ?_
    simp [due, hmore x hx]
  rw [filter_append, hnone, append_nil]

theorem Response.Right.append {r}
    (h : Response.Right scopes log r) (hmore : ∀ x ∈ more, r.position < x.position) :
    Response.Right scopes (log ++ more) r :=
  ⟨h.read_le, h.since_le, h.publications.trans (filter_due_append_later hmore).symm⟩

section

variable (h : f.Ok scopes first)
include h

theorem Ok.publishes {hub} (hs : hub.Sound)
    (hp : Hub.Publishes capacities f.hub hub) : { f with hub }.Ok scopes first := by
  obtain ⟨more, hmore⟩ := hp.published
  -- new publications come after all places so far
  have hlater : ∀ e ∈ more, f.hub.published.length < e.sequence := by
    intro e he
    have hmem : e ∈ hub.published := hmore ▸ mem_append_right _ he
    rw [← hs.numbered.mem_drop hmem, ← hmore, drop_left]
    exact he
  have hlog : { f with hub }.log = f.log ++ more.map fun e => (f.process, e) := by
    simp [log, ← hmore]
  have hnew : ∀ x : Publication, x ∈ more.map (fun e => (f.process, e)) → f.now < x.position := by
    intro x hx
    obtain ⟨e, he, rfl⟩ := mem_map.1 hx
    exact toLex_lt_toLex.2 (hlater e he)
  have hnow : f.now ≤ { f with hub }.now := toLex_le_toLex.2 hp.published.length_le
  refine ⟨hs, h.earlier, h.sorted, fun r hr => ?_, h.linked, h.head, h.cursor,
    fun read next hpoll => ?_⟩
  · obtain ⟨hpos, hright⟩ := h.responses r hr
    refine ⟨hpos.trans hnow, fun hresync => ?_⟩
    rw [hlog]
    exact (hright hresync).append fun x hx => hpos.trans_lt (hnew x hx)
  · have hw := h.waiting read next hpoll
    refine ⟨fun x hx hallowed hsince => ?_, hw.after_le, hw.read_le,
      hw.next_le.trans hp.published.length_le, hp.position.symm ▸ hw.position, ?_⟩
    · rw [hlog] at hx
      obtain hx | hx := mem_append.1 hx
      · exact hw.missed x hx hallowed hsince
      · obtain ⟨e, he, rfl⟩ := mem_map.1 hx
        exact ⟨rfl, (hw.after_le.trans hw.next_le).trans_lt (hlater e he)⟩
    · intro e he hallowed hafter
      rw [← hmore] at he
      obtain he | he := mem_append.1 he
      · exact hw.invisible e he hallowed hafter
      · exact hw.next_le.trans_lt (hlater e he)

theorem Ok.restart : f.restart.Ok scopes first := by
  have hlog : f.restart.log = f.log := append_nil _
  refine ⟨Hub.sound_new, fun x hx => ?_, h.log_sorted, fun r hr => ?_, h.linked, h.head, h.cursor,
    nofun⟩
  · exact Nat.lt_succ_of_le (log_mem_process h.earlier x hx)
  · obtain ⟨hpos, hright⟩ := h.responses r hr
    refine ⟨hpos.trans (lt_of_process_lt (Nat.lt_succ_self f.process)).le, fun hresync => ?_⟩
    rw [hlog]
    exact hright hresync

theorem Ok.continue {hub} (hs : hub.Sound)
    (hpublished : hub.published = f.hub.published) (poll : Poll)
    (hwaiting : ∀ read next, poll = .waiting read next →
      { f with hub, poll }.Waiting scopes read next) : { f with hub, poll }.Ok scopes first := by
  have hlog : { f with hub, poll }.log = f.log := by
    simp [log, hpublished]
  have hnow : { f with hub, poll }.now = f.now := by
    simp [now, hpublished]
  refine ⟨hs, h.earlier, h.sorted, fun r hr => ?_, h.linked, h.head, h.cursor, hwaiting⟩
  rw [hnow, hlog]
  exact h.responses r hr

theorem Ok.start {waitMs} {permitted : Bool}
    (hstart : f.start waitMs permitted = some f') : f'.Ok scopes first := by
  unfold Feed.start at hstart
  split at hstart
  · dsimp only at hstart
    split_ifs at hstart
    · cases hstart
      exact h
    · cases hstart
      exact h.continue h.hub.subscribe rfl _ nofun
  · cases hstart

/-- The place of the cursor is that of the last answer. -/
theorem Ok.since_eq {last} (hlast : f.responses.getLast? = some last) :
    f.since = last.position := by
  obtain ⟨hnil, -⟩ | ⟨last', hlast', hissuer, hafter⟩ := h.cursor
  · rw [hnil] at hlast
    cases hlast
  · rw [hlast', some.injEq] at hlast
    rw [← hlast, since, hissuer, hafter]
    rfl

/-- The cursor comes from this process or an earlier one. -/
theorem Ok.issuer_le : f.issuer.getD f.process ≤ f.process := by
  obtain ⟨-, hissuer, -⟩ | ⟨last, hlast, hissuer, -⟩ := h.cursor
  · rw [hissuer]
    exact le_refl _
  · rw [hissuer]
    obtain ⟨hpos, -⟩ := h.responses last (mem_of_getLast? hlast)
    exact (Prod.Lex.toLex_le_toLex.1 hpos).elim Nat.le_of_lt fun heq => heq.1.le

theorem Ok.respond {read : ℕ} {body}
    (hnext : body.nextAfter ≤ f.hub.published.length) (hbody : body.resync = false →
      Response.Right scopes f.log ⟨f.process, f.since, read, body⟩) :
    (f.respond read body).Ok scopes first := by
  refine ⟨h.hub, h.earlier, h.sorted,
    forall_mem_concat.2 ⟨h.responses, toLex_le_toLex.2 hnext, hbody⟩, ?_, fun r hr => ?_, ?_,
    nofun⟩
  · refine isChain_append.2 ⟨h.linked, isChain_singleton _, fun last hlast r hr => ?_⟩
    cases hr
    exact h.since_eq hlast
  · -- the first answer is to the integration's own cursor
    obtain ⟨hnil, hissuer, hafter⟩ | ⟨last, hlast, -⟩ := h.cursor
    · have hfirst : (f.respond read body).responses = [⟨f.process, f.since, read, body⟩] := by
        simp [Feed.respond, hnil]
      rw [hfirst] at hr
      cases hr
      rw [since, hissuer, hafter]
      rfl
    · obtain ⟨r', rs, hresponses⟩ := exists_cons_of_ne_nil (l := f.responses) (by
        rintro hnil
        rw [hnil] at hlast
        cases hlast)
      refine h.head r ?_
      rw [hresponses]
      rwa [Feed.respond, hresponses] at hr
  · exact .inr ⟨_, getLast?_concat, rfl, rfl⟩

/-- What the process has published for the token, after the cursor and up to a number. -/
def visible (scopes : List IntegrationScope) (f : Feed) (n : ℕ) : List (EventEnvelope EventPayload) :=
  f.hub.published.filter fun e =>
    scopeAllows scopes e.payload && f.afterSequence < e.sequence && e.sequence ≤ n

/-- If nothing has been missed, this is what is due. -/
theorem Ok.filter_due (hmissed : f.NothingMissed scopes) (n : ℕ) :
    f.log.filter (due scopes f.since (toLex (f.process, n))) =
      (f.visible scopes n).map fun e => (f.process, e) := by
  have hearlier : f.earlier.filter (due scopes f.since (toLex (f.process, n))) = [] := by
    refine filter_eq_nil_iff.2 fun x hx hdue => ?_
    rw [due, Bool.and_eq_true, Bool.and_eq_true, decide_eq_true_eq] at hdue
    have hprocess := (hmissed x (mem_append_left _ hx) hdue.1.1 hdue.1.2).1
    exact absurd hprocess (h.earlier x hx).ne
  rw [log, filter_append, hearlier, nil_append, List.filter_map]
  refine congrArg (map _) (filter_congr fun e he => ?_)
  -- for an event of this process the place says what the number says
  have hsince : scopeAllows scopes e.payload →
      (f.since < Publication.position (f.process, e) ↔ f.afterSequence < e.sequence) := by
    intro hallowed
    refine ⟨fun hlt => ?_, fun hlt => ?_⟩
    · exact (hmissed (f.process, e) (mem_append_right _ (mem_map_of_mem he)) hallowed hlt).2
    · obtain hp | hp := h.issuer_le.lt_or_eq
      · exact lt_of_process_lt hp
      · rw [since, hp]
        exact toLex_lt_toLex.2 hlt
  have hupto : Publication.position (f.process, e) ≤ toLex (f.process, n) ↔ e.sequence ≤ n :=
    toLex_le_toLex
  rw [Function.comp_apply, due, Bool.eq_iff_iff]
  simp only [Bool.and_eq_true, decide_eq_true_eq, hupto]
  exact and_congr_left' (and_congr_right hsince)

/-- A right answer, if nothing has been missed. -/
theorem Ok.right (hmissed : f.NothingMissed scopes) {read n : ℕ}
    (hread : read ≤ n) (hafter : f.afterSequence ≤ n) :
    Response.Right scopes f.log ⟨f.process, f.since, read, ⟨false, f.visible scopes n, n⟩⟩ := by
  refine ⟨hread, ?_, (h.filter_due hmissed n).symm⟩
  obtain hp | hp := h.issuer_le.lt_or_eq
  · exact (lt_of_process_lt hp).le
  · rw [since, hp]
    exact toLex_le_toLex.2 hafter

end

/-! ### The polls -/

theorem replayed_eq (events) : f.replayed scopes events =
    (events.filter fun e => scopeAllows scopes e.payload,
      (events.getLast?.map EventEnvelope.sequence).getD f.afterSequence) := by
  unfold replayed
  induction events using reverseRecOn with
  | nil => rfl
  | append_singleton events e ih =>
    rw [foldl_append, ih]
    by_cases hallowed : scopeAllows scopes e.payload <;> simp [filter_append, hallowed]

/-- A cursor that the bus takes for one of its own is fresh only if nothing has been missed. -/
theorem Fresh.nothingMissed (h : f.Fresh scopes) (hs : f.hub.Sound)
    (hle : f.afterSequence ≤ f.hub.published.length) {events}
    (hevents : f.hub.bus.resumeAfter f.afterSequence = .events events) : f.NothingMissed scopes := by
  obtain habove | hbelow | hmissed := h
  · rw [BusState.currentSequence, hs.next] at habove
    omega
  · rw [Option.any_eq_true] at hbelow
    obtain ⟨oldest, holdest, hlt⟩ := hbelow
    rw [hs.resumeAfter_of_lt holdest (of_decide_eq_true hlt)] at hevents
    cases hevents
  · exact hmissed

section

variable (h : f.Ok scopes first)
include h

/-- All that is after the cursor is replayed. -/
theorem Ok.replayed_drop (hle : f.afterSequence ≤ f.hub.published.length) :
    f.replayed scopes (f.hub.published.drop f.afterSequence) =
      (f.visible scopes f.hub.published.length, f.hub.published.length) := by
  rw [replayed_eq]
  refine Prod.ext ?_ ?_
  · change (f.hub.published.drop f.afterSequence).filter _ = f.visible scopes _
    rw [← h.hub.numbered.filter_lt, List.filter_filter, visible]
    refine filter_congr fun e he => ?_
    simp [h.hub.numbered.number_le he]
  · dsimp only
    obtain hlt | heq := hle.lt_or_eq
    · have hlast : (f.hub.published.drop f.afterSequence).getLast? =
          some f.hub.published[f.hub.published.length - 1] := by
        rw [getLast?_drop, if_neg (by omega), getLast?_eq_getElem?, getElem?_eq_getElem]
      rw [hlast, map_some, getD_some, h.hub.numbered.getElem]
      omega
    · rw [heq, drop_length]
      rfl

theorem Ok.resume (hfresh : f.Fresh scopes)
    (hstep : f.resume scopes = some f') : f'.Ok scopes first := by
  unfold Feed.resume at hstep
  split at hstep
  next wait hpoll =>
    obtain ⟨resume, hresume, rfl⟩ := map_eq_some_iff.1 hstep
    rw [Hub.resumeAfter_eq_some hresume]
    obtain ⟨hle, hevents, -⟩ | ⟨hsnapshot, -⟩ := h.hub.resumeAfter f.afterSequence
    · have hmissed := hfresh.nothingMissed h.hub hle hevents
      rw [hevents, resumed, h.replayed_drop hle]
      dsimp only
      split_ifs with hwait
      · -- nothing that the token may see is there yet
        rw [Bool.and_eq_true, List.isEmpty_iff, visible, filter_eq_nil_iff] at hwait
        refine h.continue h.hub rfl _ fun read next hpoll => ?_
        cases hpoll
        refine ⟨hmissed, hle, le_refl _, le_refl _, Nat.sub_le _ _, fun e he hallowed hafter => ?_⟩
        have hnot := hwait.1 e he
        simp only [hallowed, hafter, h.hub.numbered.number_le he, decide_true, Bool.and_self,
          not_true_eq_false] at hnot
      · exact h.respond (le_refl _) fun _ => h.right hmissed (le_refl _) hle
    · rw [hsnapshot]
      exact h.continue h.hub rfl .resyncing nofun
  next => cases hstep

theorem Ok.resync (hstep : f.resync = some f') : f'.Ok scopes first := by
  unfold Feed.resync at hstep
  split at hstep
  · split_ifs at hstep
    cases hstep
    refine h.respond ?_ nofun
    rw [BusState.currentSequence, h.hub.next]
    exact le_refl _
  · cases hstep

theorem Ok.timeout (hstep : f.timeout = some f') : f'.Ok scopes first := by
  unfold Feed.timeout at hstep
  split at hstep
  next read next hpoll =>
    cases hstep
    have hw := h.waiting read next hpoll
    have hnone : f.visible scopes next = [] := by
      refine filter_eq_nil_iff.2 fun e he => ?_
      simp only [Bool.and_eq_true, decide_eq_true_eq, not_and, not_le]
      exact fun hdue => hw.invisible e he hdue.1 hdue.2
    refine h.respond hw.next_le fun _ => ?_
    rw [← hnone]
    exact h.right hw.missed hw.read_le hw.after_le
  next => cases hstep

end

/-- The next event is the only one that the token may see. -/
theorem Waiting.visible_next {read next : ℕ} (hw : f.Waiting scopes read next) (hs : f.hub.Sound)
    (hlt : next < f.hub.published.length)
    (hallowed : scopeAllows scopes f.hub.published[next].payload) :
    f.visible scopes (next + 1) = [f.hub.published[next]] := by
  rw [visible, ← hs.numbered.filter_eq hlt]
  refine filter_congr fun e he => ?_
  rw [Bool.eq_iff_iff]
  simp only [Bool.and_eq_true, decide_eq_true_eq]
  refine ⟨fun ⟨⟨hvisible, hafter⟩, hle⟩ => ?_, fun hnumber => ?_⟩
  · have hlater := hw.invisible e he hvisible hafter
    omega
  · have hafter := hw.after_le
    rw [hs.numbered.eq_getElem he hlt hnumber, hs.numbered.getElem hlt]
    exact ⟨⟨hallowed, by omega⟩, le_refl _⟩

theorem Ok.receive (h : f.Ok scopes first) (hstep : f.receive scopes capacities = some f') :
    f'.Ok scopes first := by
  unfold Feed.receive at hstep
  split at hstep
  next read next hpoll =>
    obtain ⟨⟨received, hub⟩, hreceived, rfl⟩ := map_eq_some_iff.1 hstep
    have hw := h.waiting read next hpoll
    have hsound := h.hub.receive hreceived
    obtain ⟨hpublished, rfl | ⟨hlt, rfl, hposition⟩⟩ := h.hub.receive_cases hreceived
    · exact h.continue hsound hpublished .resyncing nofun
    have hnumber := h.hub.numbered.getElem hlt
    have hle := hw.position
    have hmissed : ∀ poll, { f with hub, poll }.NothingMissed scopes := fun poll => by
      have hlog : { f with hub, poll }.log = f.log := by
        simp [log, hpublished]
      intro x hx
      rw [hlog] at hx
      exact hw.missed x hx
    have hvisible : ∀ poll n, { f with hub, poll }.visible scopes n = f.visible scopes n :=
      fun poll n => by simp [visible, hpublished]
    dsimp only [handle]
    split_ifs with hold hallowed
    · -- the event was read before
      have hposition' : hub.position ≤ next := by omega
      refine h.continue hsound hpublished f.poll fun read' next' hpoll' => ?_
      rw [hpoll] at hpoll'
      cases hpoll'
      exact ⟨hmissed _, hw.after_le, hw.read_le, hpublished.symm ▸ hw.next_le, hposition',
        hpublished.symm ▸ hw.invisible⟩
    · obtain rfl : next = f.hub.position := by omega
      have hok := h.continue hsound hpublished .idle nofun
      refine hok.respond ?_ fun _ => ?_
      · rw [hnumber]
        exact hpublished.symm ▸ hlt
      · have hright := hok.right (hmissed .idle) (hw.read_le.trans (Nat.le_succ _))
          (hw.after_le.trans (Nat.le_succ _))
        rw [hvisible, hw.visible_next h.hub hlt hallowed] at hright
        rw [hnumber]
        exact hright
    · obtain rfl : next = f.hub.position := by omega
      refine h.continue hsound hpublished _ fun read' next' hpoll' => ?_
      cases hpoll'
      rw [hnumber]
      refine ⟨hmissed _, hw.after_le.trans (Nat.le_succ _), hw.read_le.trans (Nat.le_succ _),
        hpublished.symm ▸ hlt, hposition.le, fun e he hvisible hafter => ?_⟩
      have he : e ∈ f.hub.published := hpublished ▸ he
      have hlater := hw.invisible e he hvisible hafter
      refine lt_of_le_of_ne hlater fun hsame => hallowed ?_
      rwa [← h.hub.numbered.eq_getElem he hlt hsame.symm]
  next => cases hstep

theorem Ok.step {e} (h : f.Ok scopes first) (hfresh : f.FreshPolls scopes e)
    (hstep : f.step capacities scopes e = some f') : f'.Ok scopes first := by
  cases e with
  | publish occurredAt payload =>
    obtain ⟨hub, hpublish, rfl⟩ := map_eq_some_iff.1 hstep
    exact h.publishes (h.hub.publish hpublish) (h.hub.publishes_publish hpublish)
  | send =>
    obtain ⟨hub, hsend, rfl⟩ := map_eq_some_iff.1 hstep
    exact h.publishes (h.hub.send hsend) (Hub.Sound.publishes_send capacities hsend)
  | start waitMs permitted => exact h.start hstep
  | resume => exact h.resume hfresh hstep
  | resync => exact h.resync hstep
  | receive => exact h.receive hstep
  | timeout => exact h.timeout hstep
  | restart =>
    cases hstep
    exact h.restart

theorem ok_of_via (h : (feedMachine capacities scopes first).Via (FreshPolls scopes) f) :
    f.Ok scopes first := by
  refine h.invariant (fun f hinit => ?_) fun f e f' hf hfresh hstep => hf.step hfresh hstep
  rw [hinit]
  exact ⟨Hub.sound_new, by simp, .nil, by simp, .nil, by simp, .inl ⟨rfl, rfl, rfl⟩, by simp⟩

/-- Answers that follow each other have what is due between the cursor of the first poll and that of
the last answer. -/
theorem flatMap_publications {segment : List Response} {r r'}
    (hlog : log.Pairwise fun x y => x.position < y.position)
    (hlinked : segment.IsChain fun r r' => r'.since = r.position)
    (hright : ∀ r ∈ segment, Response.Right scopes log r) (hhead : segment.head? = some r)
    (hlast : segment.getLast? = some r') :
    r.since ≤ r'.position ∧
      segment.flatMap Response.publications = log.filter (due scopes r.since r'.position) := by
  induction segment generalizing r with
  | nil => cases hhead
  | cons a segment ih =>
    obtain rfl : a = r := some.inj hhead
    have ha := hright a mem_cons_self
    rw [flatMap_cons]
    cases segment with
    | nil =>
      cases hlast
      rw [flatMap_nil, append_nil]
      exact ⟨ha.since_le, ha.publications⟩
    | cons b segment =>
      obtain ⟨hab, hlinked⟩ := isChain_cons_cons.1 hlinked
      obtain ⟨hle, hrest⟩ := ih hlinked (fun x hx => hright x (mem_cons_of_mem _ hx)) rfl hlast
      rw [hab] at hle hrest
      rw [hrest, ha.publications]
      exact ⟨ha.since_le.trans hle, filter_due_append hlog ha.since_le hle⟩

end Feed

/-- **The feed is complete.**  If the cursor is fresh whenever the bus is read, answers that follow each
other, none of which asks for a snapshot, have exactly the publications that the token may see from the
cursor of the first to that of the last, each once and in order.  The cursors follow each other from
the integration's own, and what had been published when a poll read the bus is before the cursor of
its answer. -/
theorem feed_complete {capacities : Capacities} {scopes : List IntegrationScope} {first : ℕ} {f : Feed}
    (h : (feedMachine capacities scopes first).Via (Feed.FreshPolls scopes) f) :
    (f.log.Pairwise fun x y => x.position < y.position) ∧
    (∀ r, f.responses.head? = some r → r.since = toLex (r.process, first)) ∧
    (f.responses.IsChain fun r r' => r'.since = r.position) ∧
    (∀ r ∈ f.responses, r.body.resync = false → r.read ≤ r.body.nextAfter) ∧
    ∀ before segment after r r', f.responses = before ++ segment ++ after →
      (∀ r ∈ segment, r.body.resync = false) → segment.head? = some r → segment.getLast? = some r' →
      segment.flatMap Response.publications = f.log.filter (due scopes r.since r'.position) := by
  have hok := Feed.ok_of_via h
  refine ⟨hok.log_sorted, hok.head, hok.linked, fun r hr hresync =>
    ((hok.responses r hr).2 hresync).read_le, ?_⟩
  intro before segment after r r' hresponses hresync hhead hlast
  have hlinked := hok.linked
  rw [hresponses, append_assoc] at hlinked
  have hsegment := (isChain_append.1 (isChain_append.1 hlinked).2.1).1
  refine (Feed.flatMap_publications hok.log_sorted hsegment (fun x hx => ?_) hhead hlast).2
  have hmem : x ∈ f.responses := by
    rw [hresponses]
    exact mem_append_left _ (mem_append_right _ hx)
  exact (hok.responses x hmem).2 (hresync x hx)

/-! ### Sample runs -/

/-- The service and an integration before any event. -/
def newFeed : Feed := ⟨0, .new, [], 0, none, .idle, []⟩

def samplePresence : EventPayload := .presenceChanged ⟨1, 0, .unknown, .online, halfSecond 0,
  "presence_evidence", "arp", "traffic", halfSecond 0, none, halfSecond 0, none⟩

/-- A publication. -/
def samplePublish : List FeedEvent := [.publish (halfSecond 0) samplePresence, .send]

/-- A poll that does not wait. -/
def samplePoll : List FeedEvent := [.start none true, .resume]

def feedCapacities : Capacities := ⟨4096, 1024, by decide, by decide⟩

/-- Two publications are read, the service restarts, and the cursor is ahead of the new numbers. -/
def aheadRun : List FeedEvent :=
  samplePublish ++ samplePublish ++ samplePoll ++ [.restart] ++ samplePublish ++ samplePoll ++
    [.resync] ++ samplePublish ++ samplePoll

theorem aheadRun_complete : ∃ f, (feedMachine feedCapacities [.presenceRead] 0).exec newFeed aheadRun =
    some f ∧ f.responses.map (fun r => (r.body.resync, r.publications.length)) =
      [(false, 2), (true, 0), (false, 1)] ∧
    ∀ r ∈ f.responses.getLast?, r.publications =
      f.log.filter (due [.presenceRead] r.since r.position) := by
  refine exists_and_imp (by decide +kernel) fun f hexec hsummary r hr => ?_
  have hfresh : (feedMachine feedCapacities [.presenceRead] 0).Guarded
      (Feed.FreshPolls [.presenceRead]) newFeed aheadRun := by
    decide +kernel
  obtain ⟨-, -, -, -, hsegment⟩ := feed_complete (.exec (.start rfl) hfresh hexec)
  obtain ⟨before, hbefore⟩ := getLast?_eq_some_iff.1 hr
  have hresync : r.body.resync = false := by
    have hlast := congrArg getLast? hsummary
    rw [getLast?_map, hr, map_some] at hlast
    exact (Prod.mk.inj (some.inj hlast)).1
  have hright := hsegment before [r] [] r r (by rw [hbefore, append_nil])
    (by simpa using hresync) rfl rfl
  rwa [flatMap_singleton] at hright

/-- One publication is read, the service restarts and publishes one. -/
def restartedRun : List FeedEvent :=
  samplePublish ++ samplePoll ++ [.restart] ++ samplePublish ++ samplePoll

/-- **A cursor of an earlier process** is taken for one of the present process.  No answer asks for a
snapshot, and yet a publication is missing. -/
theorem restarted_not_complete : ∃ f, (feedMachine feedCapacities [.presenceRead] 0).Reachable f ∧
    (∀ r ∈ f.responses, r.body.resync = false) ∧ ∃ x ∈ f.log,
      scopeAllows [.presenceRead] x.2.payload ∧ toLex (0, 0) < x.position ∧
      (∃ r ∈ f.responses.getLast?, x.position ≤ r.position) ∧
      x.position ∉ (f.responses.flatMap Response.publications).map Publication.position :=
  Machine.exists_reachable rfl restartedRun (by decide +kernel)

end NeonHearth.Events
