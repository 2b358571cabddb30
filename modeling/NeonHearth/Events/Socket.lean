import NeonHearth.Events.Bus
import NeonHearth.System.Machine

/-!
# Events over a WebSocket

`serve_socket` writes the events after a number that the client names, first those of the replay buffer
and then those that it receives.  Publishers and the client act between any two of its steps.

* `Following` : what has been written and is about to be written is what has been published after the
  number, without a gap, and the receiver has not passed it;
* `delivery_gapless` : what the client gets.
-/

namespace NeonHearth.Events

open List Option Hub

variable {P : Type}

inductive ServerMessage (P : Type) where
  | event (event : EventEnvelope P)
  | resyncRequired

def ServerMessage.event? : ServerMessage P → Option (EventEnvelope P)
  | .event e => some e
  | .resyncRequired => none

/-- `resume_messages`. -/
def resumeMessages : Resume P → List (ServerMessage P)
  | .events events => events.map .event
  | .snapshotRequired => [.resyncRequired]

/-- What is written to the socket. -/
inductive Frame (P : Type) where
  | text (message : ServerMessage P)
  | pong (payload : List UInt8)
  | close (frame : Option (ℕ × String))

def Frame.message? : Frame P → Option (ServerMessage P)
  | .text m => some m
  | .pong _ | .close _ => none

/-- What comes from the client. -/
inductive Incoming where
  | ping (payload : List UInt8)
  | pong
  | close
  | text
  | binary
  /-- The end of the stream, or an error. -/
  | gone

/-- The outcome of `send_message`. -/
inductive Sending where
  | ok
  | serialization
  | transport

/-- Where `serve_socket` is. -/
inductive Stage (P : Type) where
  | opening
  | subscribed
  | replaying (messages : List (ServerMessage P))
  | live
  | ended

structure Session (P : Type) where
  hub : Hub P
  stage : Stage P
  lastSentSequence : ℕ
  frames : List (Frame P)

namespace Session

variable (s : Session P)

/-- The messages that the client has got. -/
def messages : List (ServerMessage P) := s.frames.filterMap Frame.message?

/-- The events among them. -/
def events : List (EventEnvelope P) := s.messages.filterMap ServerMessage.event?

/-- The end, after some last frames.  Whether a close frame arrives is ignored. -/
def finish (frames : List (Frame P)) : Session P :=
  { s with stage := .ended, frames := s.frames ++ frames }

/-- `send_message` and `handle_send_error`. -/
def sendMessage (message : ServerMessage P) (next : Stage P) : Sending → Session P
  | .ok => { s with stage := next, frames := s.frames ++ [.text message] }
  | .serialization => s.finish [.close (some (1011, "internal server error"))]
  | .transport => s.finish []

/-- `send_resync_and_close`. -/
def sendResyncAndClose : Sending → Session P
  | .ok => s.finish [.text .resyncRequired, .close none]
  | .serialization => s.finish [.close (some (1011, "internal server error"))]
  | .transport => s.finish []

/-- One pass of the loop over the messages of the replay. -/
def replay (sending : Sending) : Option (Session P) :=
  match s.stage with
  | .replaying [] => some { s with stage := .live }
  | .replaying (.resyncRequired :: _) => some (s.sendResyncAndClose sending)
  | .replaying (.event e :: rest) =>
    some ({ s with lastSentSequence := e.sequence }.sendMessage (.event e) (.replaying rest) sending)
  | _ => none

/-- An event has been received. -/
def forward (e : EventEnvelope P) (sending : Sending) : Session P :=
  if e.sequence ≤ s.lastSentSequence then s
  else if e.sequence ≠ min (s.lastSentSequence + 1) (2 ^ 64 - 1) then s.sendResyncAndClose sending
  else { s with lastSentSequence := e.sequence }.sendMessage (.event e) .live sending

def handle (sending : Sending) : Received P → Session P
  | .lagged => s.sendResyncAndClose sending
  | .event e => s.forward e sending

/-- The branch of the loop that receives.  The bus is in scope, so the channel is not closed. -/
def receive (capacities : Capacities) (sending : Sending) : Option (Session P) :=
  match s.stage with
  | .live => (s.hub.receive capacities).map fun (received, hub) => { s with hub }.handle sending received
  | _ => none

/-- The branch of the loop that reads from the client. -/
def incoming (message : Incoming) (ponged : Bool) : Option (Session P) :=
  match s.stage with
  | .live =>
    match message with
    | .ping payload =>
      some (if ponged then { s with frames := s.frames ++ [.pong payload] } else s.finish [])
    | .pong => some s
    | .close => some (s.finish [.close none])
    | .text | .binary => some (s.finish [.close (some (1003, "unsolicited client data"))])
    | .gone => some (s.finish [])
  | _ => none

end Session

/-- What can happen next. -/
inductive SocketEvent (P : Type) where
  | publish (occurredAt : DateTime) (payload : P)
  | send
  | subscribe
  | resume
  | replay (sending : Sending)
  | receive (sending : Sending)
  | incoming (message : Incoming) (ponged : Bool)

/-- A step of a publisher, of `serve_socket` or of the client. -/
def Session.step (capacities : Capacities) (afterSequence : ℕ) (s : Session P) :
    SocketEvent P → Option (Session P)
  | .publish occurredAt payload =>
    (s.hub.publish capacities occurredAt payload).map fun hub => { s with hub }
  | .send => s.hub.send.map fun hub => { s with hub }
  | .subscribe =>
    match s.stage with
    | .opening => some { s with hub := s.hub.subscribe, stage := .subscribed }
    | _ => none
  | .resume =>
    match s.stage with
    | .subscribed => (s.hub.resumeAfter afterSequence).map fun resume =>
      { s with stage := .replaying (resumeMessages resume), lastSentSequence := afterSequence }
    | _ => none
  | .replay sending => s.replay sending
  | .receive sending => s.receive capacities sending
  | .incoming message ponged => s.incoming message ponged

/-- The bus from its start, and a connection that is opened some time. -/
def socketMachine (P : Type) (capacities : Capacities) (afterSequence : ℕ) :
    Machine (Session P) (SocketEvent P) where
  init s := s = ⟨.new, .opening, afterSequence, []⟩
  step s e := s.step capacities afterSequence e

/-! ### What has been written -/

namespace Session

variable {capacities : Capacities} {afterSequence : ℕ} {s s' : Session P}

/-- The session goes on after a number: what it has written and what lies ahead of it is what has been
published after the number, as far as it goes, and the receiver is not past it. -/
structure Following (afterSequence : ℕ) (s : Session P) (ahead : List (EventEnvelope P)) : Prop where
  messages : s.messages = s.events.map .event
  events : s.events ++ ahead <+: s.hub.published.drop afterSequence
  after_le : afterSequence ≤ s.hub.published.length
  lastSent : s.lastSentSequence = afterSequence + s.events.length
  position : s.hub.position ≤ afterSequence + (s.events ++ ahead).length

/-- What holds at each stage. -/
def StageOk (afterSequence : ℕ) (s : Session P) : Prop :=
  match s.stage with
  | .opening | .subscribed => s.messages = []
  | .replaying messages => messages = [.resyncRequired] ∧ s.messages = [] ∨
    ∃ ahead, messages = ahead.map .event ∧ s.Following afterSequence ahead
  | .live => s.Following afterSequence []
  | .ended => s.events <+: s.hub.published.drop afterSequence ∧
    (s.messages = s.events.map .event ∨ s.messages = s.events.map .event ++ [.resyncRequired])

/-- What holds in every state. -/
structure Ok (afterSequence : ℕ) (s : Session P) : Prop where
  hub : s.hub.Sound
  stage : s.StageOk afterSequence

@[simp]
theorem messages_finish (frames) :
    (s.finish frames).messages = s.messages ++ frames.filterMap Frame.message? :=
  filterMap_append

variable {sending : Sending} {e : EventEnvelope P} {ahead : List (EventEnvelope P)}

theorem events_of_messages (h : s.messages = []) : s.events = [] := by
  rw [events, h, filterMap_nil]

theorem events_sendMessage {n next} :
    ({ s with lastSentSequence := n }.sendMessage (.event e) next .ok).events = s.events ++ [e] := by
  rw [events, messages, sendMessage, filterMap_append, filterMap_append]
  rfl

@[simp]
theorem hub_sendMessage {m next} : (s.sendMessage m next sending).hub = s.hub := by
  cases sending <;> rfl

@[simp]
theorem hub_sendResyncAndClose : (s.sendResyncAndClose sending).hub = s.hub := by
  cases sending <;> rfl

theorem hub_forward : (s.forward e sending).hub = s.hub := by
  unfold forward
  split_ifs <;> simp

section

variable (hmessages : s.messages = s.events.map .event)
  (hevents : s.events <+: s.hub.published.drop afterSequence)
include hmessages hevents

/-- The stream may end at any time, with or without the request to resynchronise. -/
theorem stageOk_finish {frames} (hframes : frames.filterMap Frame.message? = [] ∨
      frames.filterMap Frame.message? = [.resyncRequired]) :
    (s.finish frames).StageOk afterSequence := by
  have hnone : (frames.filterMap Frame.message?).filterMap ServerMessage.event? = [] := by
    obtain hframes | hframes := hframes <;> simp [hframes, ServerMessage.event?]
  have hsame : (s.finish frames).events = s.events := by
    rw [events, messages_finish, filterMap_append, hnone, append_nil, events]
  refine ⟨hsame ▸ hevents, ?_⟩
  rw [messages_finish, hsame, hmessages]
  exact hframes.imp (fun h => by rw [h, append_nil]) (fun h => by rw [h])

theorem stageOk_sendResyncAndClose (sending : Sending) :
    (s.sendResyncAndClose sending).StageOk afterSequence := by
  cases sending with
  | ok => exact stageOk_finish hmessages hevents (.inr rfl)
  | _ => exact stageOk_finish hmessages hevents (.inl rfl)

end

theorem Following.congr {t : Session P} (h : s.Following afterSequence ahead) (hhub : t.hub = s.hub)
    (hmessages : t.messages = s.messages) (hlast : t.lastSentSequence = s.lastSentSequence) :
    t.Following afterSequence ahead := by
  have hevents : t.events = s.events := congrArg (filterMap ServerMessage.event?) hmessages
  constructor <;> simp only [hmessages, hevents, hhub, hlast]
  exacts [h.messages, h.events, h.after_le, h.lastSent, h.position]

theorem Following.events_prefix (h : s.Following afterSequence ahead) :
    s.events <+: s.hub.published.drop afterSequence :=
  (prefix_append _ _).trans h.events

/-- The next event is written, or the stream ends. -/
theorem Following.sendMessage {next} (h : s.Following afterSequence (e :: ahead))
    (hsequence : e.sequence = afterSequence + s.events.length + 1) (sending : Sending)
    (hnext : ∀ s' : Session P, s'.Following afterSequence ahead → s'.stage = next →
      s'.StageOk afterSequence) :
    ({ s with lastSentSequence := e.sequence }.sendMessage (.event e) next sending).StageOk
      afterSequence := by
  cases sending with
  | ok =>
    refine hnext _ ?_ rfl
    have hposition := h.position
    refine ⟨?_, ?_, h.after_le, ?_, ?_⟩ <;> rw [events_sendMessage]
    · rw [map_append, ← h.messages]
      exact filterMap_append
    · rw [append_assoc]
      exact h.events
    · rw [length_append]
      exact hsequence
    · rw [append_assoc]
      exact hposition
  | _ => exact stageOk_finish h.messages h.events_prefix (.inl rfl)

/-- The event ahead has the next number. -/
theorem Following.sequence_eq (h : s.Following afterSequence (e :: ahead)) (hs : s.hub.Sound) :
    e.sequence = afterSequence + s.events.length + 1 := by
  obtain ⟨rest, hrest⟩ := h.events
  have hnumbers := hs.numbered.map_drop afterSequence
  rw [← hrest] at hnumbers
  have hget := congrArg (·[s.events.length]?) hnumbers
  simp only [append_assoc, cons_append, map_append, map_cons,
    getElem?_append_right (show (s.events.map EventEnvelope.sequence).length ≤ s.events.length by
      simp), length_map, Nat.sub_self, getElem?_cons_zero] at hget
  have hlt : s.events.length < s.hub.published.length - afterSequence := by
    have hlength := congrArg length hrest
    simp only [length_append, length_cons, length_drop] at hlength
    omega
  rw [getElem?_range' hlt] at hget
  have hget := some.inj hget
  omega

variable {hub : Hub P}

theorem Ok.publishes (h : s.Ok afterSequence) (hs : hub.Sound)
    (hp : Hub.Publishes capacities s.hub hub) : { s with hub }.Ok afterSequence := by
  have hdrop : s.hub.published.drop afterSequence <+: hub.published.drop afterSequence := by
    obtain ⟨more, hmore⟩ := hp.published
    rw [← hmore, drop_append]
    exact prefix_append _ _
  have hfollowing : ∀ ahead, s.Following afterSequence ahead →
      { s with hub }.Following afterSequence ahead := fun ahead h =>
    ⟨h.messages, h.events.trans hdrop, h.after_le.trans hp.published.length_le, h.lastSent,
      hp.position.symm ▸ h.position⟩
  refine ⟨hs, ?_⟩
  have hstage := h.stage
  obtain ⟨_, stage, _, _⟩ := s
  cases stage with
  | opening | subscribed => exact hstage
  | replaying messages =>
    exact hstage.imp id fun ⟨ahead, hahead, h⟩ => ⟨ahead, hahead, hfollowing ahead h⟩
  | live => exact hfollowing [] hstage
  | ended => exact ⟨hstage.1.trans hdrop, hstage.2⟩

theorem Ok.live (h : s.Ok afterSequence) (hstage : s.stage = .live) :
    s.Following afterSequence [] := by
  have hok := h.stage
  rwa [StageOk, hstage] at hok

theorem Ok.subscribe (h : s.Ok afterSequence) (hstage : s.stage = .opening) :
    { s with hub := s.hub.subscribe, stage := .subscribed }.Ok afterSequence := by
  refine ⟨h.hub.subscribe, ?_⟩
  have hok := h.stage
  rwa [StageOk, hstage] at hok

/-- All publications after the number lie ahead, unless one of them is gone or the number is. -/
theorem Ok.resume (h : s.Ok afterSequence) (hstage : s.stage = .subscribed) :
    { s with stage := .replaying (resumeMessages (s.hub.bus.resumeAfter afterSequence)),
             lastSentSequence := afterSequence }.Ok afterSequence := by
  refine ⟨h.hub, ?_⟩
  have hmessages := h.stage
  rw [StageOk, hstage] at hmessages
  have hevents := events_of_messages hmessages
  obtain ⟨hle, hresume, -⟩ | ⟨hresume, -⟩ := h.hub.resumeAfter afterSequence
  · rw [hresume]
    refine .inr ⟨_, rfl, ?_, ?_, hle, ?_, ?_⟩
    · exact hmessages.trans (congrArg (map ServerMessage.event) hevents).symm
    · change s.events ++ _ <+: _
      rw [hevents, nil_append]
    · change afterSequence = afterSequence + s.events.length
      rw [hevents, length_nil, Nat.add_zero]
    · change s.hub.position ≤ afterSequence + (s.events ++ _).length
      rw [hevents, nil_append, length_drop]
      have hposition := h.hub.position_add
      omega
  · rw [hresume]
    exact .inl ⟨rfl, hmessages⟩

section

variable (h : s.Ok afterSequence) {rest : List (ServerMessage P)}
include h

theorem Ok.messages_resync (hstage : s.stage = .replaying (.resyncRequired :: rest)) :
    s.messages = [] := by
  have hok := h.stage
  rw [StageOk, hstage] at hok
  obtain ⟨-, hmessages⟩ | ⟨_ | ⟨e, ahead⟩, hahead, -⟩ := hok
  · exact hmessages
  · cases hahead
  · cases hahead

theorem Ok.following (hstage : s.stage = .replaying (.event e :: rest)) :
    ∃ ahead, rest = ahead.map .event ∧ s.Following afterSequence (e :: ahead) := by
  have hok := h.stage
  rw [StageOk, hstage] at hok
  obtain ⟨hresync, -⟩ | ⟨_ | ⟨e', ahead⟩, hahead, hfollowing⟩ := hok
  · cases hresync
  · cases hahead
  · cases hahead
    exact ⟨ahead, rfl, hfollowing⟩

end

theorem Ok.replay (h : s.Ok afterSequence) (hreplay : s.replay sending = some s') :
    s'.Ok afterSequence := by
  have hstage := h.stage
  unfold Session.replay at hreplay
  split at hreplay <;> cases hreplay
  next heq =>
    rw [StageOk, heq] at hstage
    obtain ⟨hresync, -⟩ | ⟨ahead, hahead, hfollowing⟩ := hstage
    · cases hresync
    · rw [eq_comm, map_eq_nil_iff] at hahead
      cases hahead
      exact ⟨h.hub, hfollowing.congr rfl rfl rfl⟩
  next rest heq =>
    have hmessages := h.messages_resync heq
    have hevents := events_of_messages hmessages
    refine ⟨hub_sendResyncAndClose.symm ▸ h.hub, ?_⟩
    refine stageOk_sendResyncAndClose (by rw [hmessages, hevents, map_nil]) ?_ sending
    rw [hevents]
    exact nil_prefix
  next e rest heq =>
    obtain ⟨ahead, rfl, hfollowing⟩ := h.following heq
    refine ⟨hub_sendMessage.symm ▸ h.hub, ?_⟩
    refine hfollowing.sendMessage (hfollowing.sequence_eq h.hub) sending fun s' hs' hstage' => ?_
    rw [StageOk, hstage']
    exact .inr ⟨ahead, rfl, hs'⟩

/-- A receiver gives an event that was written before, or the next one. -/
theorem Following.forward (h : s.Following afterSequence []) (hs : s.hub.Sound)
    (hstage : s.stage = .live) (hpublished : hub.published = s.hub.published)
    (hlt : s.hub.position < s.hub.published.length) (hposition : hub.position = s.hub.position + 1)
    (sending : Sending) :
    ({ s with hub }.forward s.hub.published[s.hub.position] sending).StageOk afterSequence := by
  set t : Session P := { s with hub } with ht
  have hnumber := hs.numbered.getElem hlt
  have hbound := hs.bound
  have hnext := hs.next
  have hlast : t.lastSentSequence = afterSequence + t.events.length := h.lastSent
  have hle : s.hub.position ≤ afterSequence + t.events.length := by
    have hle := h.position
    rwa [append_nil] at hle
  have hevents : t.events <+: hub.published.drop afterSequence := hpublished.symm ▸ h.events_prefix
  have hafter : afterSequence ≤ hub.published.length := hpublished.symm ▸ h.after_le
  unfold Session.forward
  by_cases hold : s.hub.published[s.hub.position].sequence ≤ t.lastSentSequence
  · rw [if_pos hold, StageOk, ht, hstage]
    refine ⟨h.messages, ?_, hafter, hlast, ?_⟩
    · rw [append_nil]
      exact hevents
    · rw [append_nil]
      change hub.position ≤ afterSequence + t.events.length
      omega
  · rw [if_neg hold, if_neg (by omega)]
    have hindex : s.hub.position = afterSequence + t.events.length := by omega
    have hahead : t.Following afterSequence [s.hub.published[s.hub.position]] := by
      refine ⟨h.messages, ?_, hafter, hlast, ?_⟩
      · change _ <+: hub.published.drop afterSequence
        have hroom : t.events.length < (hub.published.drop afterSequence).length := by
          rw [length_drop, hpublished]
          omega
        have hnext := concat_get_prefix hevents hroom
        rw [get_eq_getElem, getElem_drop] at hnext
        simpa only [hpublished, hindex] using hnext
      · change hub.position ≤ _
        rw [length_append, length_singleton]
        omega
    refine hahead.sendMessage (by omega) sending fun s' hs' hstage' => ?_
    rw [StageOk, hstage']
    exact hs'

theorem Ok.receive (h : s.Ok afterSequence) (hreceive : s.receive capacities sending = some s') :
    s'.Ok afterSequence := by
  unfold Session.receive at hreceive
  split at hreceive
  next hstage =>
    have hok := h.live hstage
    obtain ⟨⟨received, hub⟩, hreceived, rfl⟩ := map_eq_some_iff.1 hreceive
    have hsound := h.hub.receive hreceived
    obtain ⟨hpublished, rfl | ⟨hlt, rfl, hposition⟩⟩ := h.hub.receive_cases hreceived
    · refine ⟨hub_sendResyncAndClose.symm ▸ hsound, ?_⟩
      exact stageOk_sendResyncAndClose (s := { s with hub }) hok.messages
        (hpublished.symm ▸ hok.events_prefix) sending
    · exact ⟨hub_forward.symm ▸ hsound, hok.forward h.hub hstage hpublished hlt hposition sending⟩
  next => cases hreceive

theorem Ok.incoming {message : Incoming} {ponged : Bool} (h : s.Ok afterSequence)
    (hincoming : s.incoming message ponged = some s') : s'.Ok afterSequence := by
  unfold Session.incoming at hincoming
  split at hincoming
  next hstage =>
    have hok := h.live hstage
    have hend : ∀ frames : List (Frame P), frames.filterMap Frame.message? = [] →
        (s.finish frames).Ok afterSequence := fun frames hframes =>
      ⟨h.hub, stageOk_finish hok.messages hok.events_prefix (.inl hframes)⟩
    cases message with
    | ping payload =>
      cases hincoming
      cases ponged with
      | true =>
        refine ⟨h.hub, ?_⟩
        change StageOk _ { s with frames := s.frames ++ [Frame.pong payload] }
        rw [StageOk, hstage]
        refine hok.congr rfl ?_ rfl
        -- a pong is no message
        rw [messages, messages, filterMap_append]
        exact append_nil _
      | false => exact hend [] rfl
    | pong =>
      cases hincoming
      exact h
    | _ =>
      cases hincoming
      exact hend _ rfl
  next => cases hincoming

theorem Ok.step {e} (h : s.Ok afterSequence)
    (hstep : s.step capacities afterSequence e = some s') : s'.Ok afterSequence := by
  cases e with
  | publish occurredAt payload =>
    obtain ⟨hub, hpublish, rfl⟩ := map_eq_some_iff.1 hstep
    exact h.publishes (h.hub.publish hpublish) (h.hub.publishes_publish hpublish)
  | send =>
    obtain ⟨hub, hsend, rfl⟩ := map_eq_some_iff.1 hstep
    exact h.publishes (h.hub.send hsend) (Hub.Sound.publishes_send capacities hsend)
  | subscribe =>
    rw [Session.step] at hstep
    split at hstep <;> cases hstep
    next hstage => exact h.subscribe hstage
  | resume =>
    rw [Session.step] at hstep
    split at hstep
    next hstage =>
      obtain ⟨resume, hresume, rfl⟩ := map_eq_some_iff.1 hstep
      rw [resumeAfter_eq_some hresume]
      exact h.resume hstage
    next => cases hstep
  | replay sending => exact h.replay hstep
  | receive sending => exact h.receive hstep
  | incoming message ponged => exact h.incoming hstep

theorem ok_of_reachable (h : (socketMachine P capacities afterSequence).Reachable s) :
    s.Ok afterSequence := by
  refine h.invariant (fun s hinit => ?_) fun s e s' hs _ hstep => hs.step hstep
  rw [hinit]
  exact ⟨sound_new, rfl⟩

/-- The events are a first part of the publications, and the request to resynchronise is the last
message. -/
theorem Ok.written (h : s.Ok afterSequence) : s.events <+: s.hub.published.drop afterSequence ∧
    (s.messages = s.events.map .event ∨
      s.messages = s.events.map .event ++ [.resyncRequired] ∧ s.stage = .ended) := by
  have hok := h.stage
  have hnil : s.messages = [] → s.events <+: s.hub.published.drop afterSequence ∧
      s.messages = s.events.map .event := by
    intro hmessages
    rw [events, hmessages]
    exact ⟨ nil_prefix, rfl⟩
  unfold StageOk at hok
  split at hok
  · exact (hnil hok).imp_right .inl
  · exact (hnil hok).imp_right .inl
  · obtain ⟨-, hmessages⟩ | ⟨ahead, -, hfollowing⟩ := hok
    · exact (hnil hmessages).imp_right .inl
    · exact ⟨hfollowing.events_prefix, .inl hfollowing.messages⟩
  · exact ⟨hok.events_prefix, .inl hok.messages⟩
  · exact ⟨hok.1, hok.2.imp id fun h => ⟨h, ‹_›⟩⟩

/-! ### Events that are lost -/

/-- The events that the session can still write. -/
def inReach (capacities : Capacities) (s : Session P) : List (EventEnvelope P) :=
  match s.stage with
  | .opening | .subscribed => s.hub.bus.replay
  | .replaying messages =>
    if (messages.map ServerMessage.event?).any Option.isNone then []
    else messages.filterMap ServerMessage.event? ++ s.hub.held capacities
  | .live => s.hub.held capacities
  | .ended => []

/-- An event after the number that has not been written and cannot be any more. -/
structure Lost (capacities : Capacities) (afterSequence : ℕ) (s : Session P)
    (e : EventEnvelope P) : Prop where
  published : e ∈ s.hub.published
  after : afterSequence < e.sequence
  unwritten : e ∉ s.events
  gone : e ∉ s.inReach capacities

theorem inReach_replaying (ahead) (h : s.stage = .replaying (ahead.map .event)) :
    s.inReach capacities = ahead ++ s.hub.held capacities := by
  have hnone : ((ahead.map ServerMessage.event).map ServerMessage.event?).any Option.isNone = false := by
    simp [ServerMessage.event?]
  have hahead : (ahead.map ServerMessage.event).filterMap ServerMessage.event? = ahead := by
    rw [filterMap_map]
    exact filterMap_some
  rw [inReach, h]
  simp only [hnone, hahead, Bool.false_eq_true, if_false]

/-- What is behind the session and not in reach has been overwritten in the channel. -/
theorem Following.overflow (h : s.Following afterSequence ahead) (hs : s.hub.Sound)
    (he : e ∈ s.hub.published) (hafter : afterSequence < e.sequence) (hnew : e ∉ s.events ++ ahead)
    (hgone : e ∉ s.hub.held capacities) : capacities.channel < s.hub.queue.length := by
  by_contra hfit
  refine hgone ?_
  have hunread : s.hub.held capacities = s.hub.unread := by
    rw [held, Nat.sub_eq_zero_of_le (not_lt.1 hfit), drop_zero, unread]
  rw [hunread, hs.unread_eq, hs.numbered.mem_drop he]
  -- the event comes after those that are written or lie ahead
  have htake := prefix_iff_eq_take.1 h.events
  have hmem := (hs.numbered.mem_drop he).2 hafter
  rw [← take_append_drop (s.events ++ ahead).length (s.hub.published.drop afterSequence),
    ← htake, mem_append, drop_drop] at hmem
  have hlater := (hs.numbered.mem_drop he).1 (hmem.resolve_left hnew)
  exact lt_of_le_of_lt h.position hlater

/-- What comes after a lost event is not written. -/
theorem Lost.events_before (h : s.Lost capacities afterSequence e) (hok : s.Ok afterSequence) :
    ∀ e' ∈ s.events, e'.sequence < e.sequence := by
  intro e' he'
  by_contra hle
  refine h.unwritten ?_
  have hs := hok.hub
  have htake := prefix_iff_eq_take.1 hok.written.1
  have hdrop : e' ∈ s.hub.published.drop afterSequence := hok.written.1.subset he'
  -- the events are those with the numbers up to some number
  have hbound : e'.sequence ≤ afterSequence + s.events.length := by
    have hmem := he'
    rw [htake, take_drop] at hmem
    exact (hs.numbered.mem_take (mem_of_mem_drop hdrop)).1 (mem_of_mem_drop hmem)
  rw [htake, take_drop]
  have hmem := (hs.numbered.mem_take h.published).2 ((not_lt.1 hle).trans hbound)
  exact ((hs.numbered.take _).mem_drop hmem).2 h.after

/-- A publisher does not bring an event back. -/
theorem Lost.publishes (h : s.Lost capacities afterSequence e)
    (hp : Hub.Publishes capacities s.hub hub) : { s with hub }.Lost capacities afterSequence e := by
  refine ⟨hp.published.subset h.published, h.after, h.unwritten, fun hmem => h.gone ?_⟩
  unfold inReach at hmem ⊢
  dsimp only at hmem
  split at hmem
  · exact hp.replay e h.published hmem
  · exact hp.replay e h.published hmem
  · split_ifs at hmem ⊢
    · exact hmem
    · exact (mem_append.1 hmem).elim (mem_append_left _)
        fun hmem => mem_append_right _ (hp.held e h.published hmem)
  · exact hp.held e h.published hmem
  · cases hmem

section

variable (hpublished : e ∈ s.hub.published) (hafter : afterSequence < e.sequence)
  (hunwritten : e ∉ s.events)
include hpublished hafter hunwritten

/-- A session that has ended without the event does not write it. -/
theorem lost_finish {frames}
    (hframes : (frames.filterMap Frame.message?).filterMap ServerMessage.event? = []) :
    (s.finish frames).Lost capacities afterSequence e := by
  refine ⟨hpublished, hafter, ?_, not_mem_nil⟩
  rw [events, messages_finish, filterMap_append, hframes, append_nil]
  exact hunwritten

theorem lost_sendResyncAndClose (sending : Sending) :
    (s.sendResyncAndClose sending).Lost capacities afterSequence e := by
  cases sending <;> exact lost_finish hpublished hafter hunwritten rfl

end

section

variable (h : s.Lost capacities afterSequence e)
include h

/-- Nothing is read from a channel that has overwritten an event. -/
theorem Lost.receive (hok : s.Ok afterSequence) (hstage : s.stage = .live) (sending : Sending) :
    ∃ hub : Hub P, hub.published = s.hub.published ∧ s.receive capacities sending =
      some ({ s with hub }.sendResyncAndClose sending) := by
  have hgone := h.gone
  rw [inReach, hstage] at hgone
  have hlong := (hok.live hstage).overflow hok.hub h.published h.after
    (by rw [append_nil]; exact h.unwritten) hgone
  refine ⟨{ s.hub with queue := s.hub.queue.drop (s.hub.queue.length - capacities.channel) }, rfl, ?_⟩
  rw [Session.receive, hstage, Hub.receive, if_pos hlong]
  rfl

/-- A resumption asks for a new snapshot if an event is no longer in the buffer. -/
theorem Lost.resume (hok : s.Ok afterSequence) (hstage : s.stage = .subscribed) :
    resumeMessages (s.hub.bus.resumeAfter afterSequence) = [.resyncRequired] := by
  have hgone := h.gone
  rw [inReach, hstage] at hgone
  obtain ⟨-, -, hall⟩ | ⟨hresume, -⟩ := hok.hub.resumeAfter afterSequence
  · exact absurd (hall ((hok.hub.numbered.mem_drop h.published).2 h.after)) hgone
  · rw [hresume]
    rfl

theorem Lost.replay (hok : s.Ok afterSequence)
    (hreplay : s.replay sending = some s') : s'.Lost capacities afterSequence e := by
  have hgone := h.gone
  unfold Session.replay at hreplay
  split at hreplay <;> cases hreplay
  next hstage =>
    rw [inReach_replaying [] hstage, nil_append] at hgone
    exact { h with gone := hgone }
  next rest hstage => exact lost_sendResyncAndClose h.published h.after h.unwritten sending
  next e' rest hstage =>
    obtain ⟨ahead, rfl, -⟩ := hok.following hstage
    rw [inReach_replaying (e' :: ahead) hstage, cons_append, mem_cons, not_or] at hgone
    cases sending with
    | ok =>
      refine ⟨h.published, h.after, fun hmem => ?_, ?_⟩
      · rw [events_sendMessage, mem_append, mem_singleton] at hmem
        exact hmem.elim h.unwritten hgone.1
      · rw [inReach_replaying ahead rfl]
        exact hgone.2
    | _ =>
      exact lost_finish (s := { s with lastSentSequence := e'.sequence }) h.published h.after
        h.unwritten rfl

theorem Lost.incoming {message} {ponged : Bool}
    (hincoming : s.incoming message ponged = some s') : s'.Lost capacities afterSequence e := by
  unfold Session.incoming at hincoming
  split at hincoming
  next hstage =>
    cases message with
    | ping payload =>
      cases hincoming
      cases ponged with
      | true =>
        have hevents : { s with frames := s.frames ++ [Frame.pong payload] }.events = s.events := by
          rw [events, messages, filterMap_append, filterMap_append]
          exact append_nil _
        exact ⟨h.published, h.after, hevents ▸ h.unwritten, h.gone⟩
      | false => exact lost_finish h.published h.after h.unwritten rfl
    | pong =>
      cases hincoming
      exact h
    | _ =>
      cases hincoming
      exact lost_finish h.published h.after h.unwritten rfl
  next => cases hincoming

/-- An event that is lost stays lost. -/
theorem Lost.step {event}
    (hok : s.Ok afterSequence) (hstep : s.step capacities afterSequence event = some s') :
    s'.Lost capacities afterSequence e := by
  cases event with
  | publish occurredAt payload =>
    obtain ⟨hub, hpublish, rfl⟩ := map_eq_some_iff.1 hstep
    exact h.publishes (hok.hub.publishes_publish hpublish)
  | send =>
    obtain ⟨hub, hsend, rfl⟩ := map_eq_some_iff.1 hstep
    exact h.publishes (Hub.Sound.publishes_send capacities hsend)
  | subscribe =>
    rw [Session.step] at hstep
    split at hstep <;> cases hstep
    next hstage =>
      have hgone := h.gone
      rw [inReach, hstage] at hgone
      exact { h with gone := hgone }
  | resume =>
    rw [Session.step] at hstep
    split at hstep
    next hstage =>
      obtain ⟨resume, hresume, rfl⟩ := map_eq_some_iff.1 hstep
      rw [resumeAfter_eq_some hresume, h.resume hok hstage]
      exact ⟨h.published, h.after, h.unwritten, not_mem_nil⟩
    next => cases hstep
  | replay sending => exact h.replay hok hstep
  | receive sending =>
    rw [Session.step] at hstep
    have hlive : s.stage = .live := by
      unfold Session.receive at hstep
      split at hstep
      · assumption
      · cases hstep
    obtain ⟨hub, hpublished, hreceive⟩ := h.receive hok hlive sending
    rw [hreceive] at hstep
    cases hstep
    exact lost_sendResyncAndClose (s := { s with hub }) (hpublished.symm ▸ h.published) h.after
      h.unwritten sending
  | incoming message ponged => exact h.incoming hstep

end

open Session

/-- Nothing is written after the end. -/
theorem step_of_ended {event} (hended : s.stage = .ended)
    (hstep : s.step capacities afterSequence event = some s') :
    s'.stage = .ended ∧ s'.frames = s.frames := by
  cases event with
  | publish | send =>
    obtain ⟨hub, -, rfl⟩ := map_eq_some_iff.1 hstep
    exact ⟨hended, rfl⟩
  | subscribe | resume => simp [step, hended] at hstep
  | replay sending => simp [step, replay, hended] at hstep
  | receive sending => simp [step, receive, hended] at hstep
  | incoming message ponged => simp [step, incoming, hended] at hstep

/-- A session that waits for an event has written all there is. -/
theorem Ok.events_eq (h : s.Ok afterSequence) (hstage : s.stage = .live) (hqueue : s.hub.queue = [])
    (hlock : s.hub.publishing = none) : s.events = s.hub.published.drop afterSequence := by
  have hfollowing := h.live hstage
  have hposition := h.hub.position_add
  rw [unread, hqueue, hlock, toList_none, append_nil, length_nil, Nat.add_zero] at hposition
  have hle := hfollowing.position
  rw [append_nil, hposition] at hle
  refine hfollowing.events_prefix.eq_of_length_le ?_
  rw [length_drop]
  omega

end Session

/-- **Delivery is gapless.**  In every state, the events written to the client are the publications
after its number, one after another.  A request to resynchronise is the last message, and nothing is
written after the end.  A session that waits has written everything.  And once an event after the
number is out of reach, neither it nor a later one is ever written: when the session asks or receives
again, it requests a resynchronisation and ends. -/
theorem delivery_gapless {capacities : Capacities} {afterSequence : ℕ} {s : Session P}
    (h : (socketMachine P capacities afterSequence).Reachable s) :
    s.events <+: s.hub.published.filter (afterSequence < ·.sequence) ∧
    s.events.map EventEnvelope.sequence = List.range' (afterSequence + 1) s.events.length ∧
    (s.messages = s.events.map .event ∨
      s.messages = s.events.map .event ++ [.resyncRequired] ∧ s.stage = .ended) ∧
    (s.stage = .ended → ∀ event s', s.step capacities afterSequence event = some s' →
      s'.stage = .ended ∧ s'.frames = s.frames) ∧
    (s.stage = .live → s.hub.queue = [] → s.hub.publishing = none →
      s.events = s.hub.published.filter (afterSequence < ·.sequence)) ∧
    (s.stage = .replaying [.resyncRequired] → ∀ sending, ∃ s', s.replay sending = some s' ∧
      s'.stage = .ended ∧ (sending = .ok → s'.messages = [.resyncRequired])) ∧
    ∀ e, s.Lost capacities afterSequence e → ∀ events s',
      (socketMachine P capacities afterSequence).exec s events = some s' →
      (∀ e' ∈ s'.events, e'.sequence < e.sequence) ∧
      (s'.stage = .subscribed → ∀ s'', s'.step capacities afterSequence .resume = some s'' →
        s''.stage = .replaying [.resyncRequired]) ∧
      (s'.stage = .live → ∀ sending, ∃ s'', s'.receive capacities sending = some s'' ∧
        s''.stage = .ended ∧ (sending = .ok → s''.messages = s'.messages ++ [.resyncRequired])) := by
  have hok := Session.ok_of_reachable h
  have hnumbered := hok.hub.numbered
  have hend : ∀ (s : Session P) (sending : Sending), (s.sendResyncAndClose sending).stage = .ended ∧
      (sending = .ok → (s.sendResyncAndClose sending).messages = s.messages ++ [.resyncRequired]) := by
    intro s sending
    cases sending with
    | ok => exact ⟨rfl, fun _ => Session.messages_finish _⟩
    | _ => exact ⟨rfl, nofun⟩
  rw [hnumbered.filter_lt]
  refine ⟨hok.written.1, ?_, hok.written.2, fun hended event s' => Session.step_of_ended hended,
    hok.events_eq, fun hstage sending => ?_, fun e hlost events s' hexec => ?_⟩
  · have hnumbers := congrArg (map EventEnvelope.sequence)
      (prefix_iff_eq_take.1 hok.written.1)
    rw [map_take, hnumbered.map_drop] at hnumbers
    have hlength := hok.written.1.length_le
    rw [length_drop] at hlength
    rw [hnumbers, range'_eq_map_range, ← map_take, take_range,
      Nat.min_eq_left hlength, range'_eq_map_range]
  · have hmessages := hok.messages_resync hstage
    refine ⟨s.sendResyncAndClose sending, by rw [Session.replay, hstage], (hend s sending).1, ?_⟩
    intro hsent
    rw [(hend s sending).2 hsent, hmessages, nil_append]
  · -- the event stays lost
    obtain ⟨hok', hlost'⟩ : s'.Ok afterSequence ∧ s'.Lost capacities afterSequence e :=
      Machine.exec_invariant (G := fun _ _ => True)
        (I := fun s : Session P => s.Ok afterSequence ∧ s.Lost capacities afterSequence e)
        (fun _ _ _ hs _ hstep => ⟨hs.1.step hstep, hs.2.step hs.1 hstep⟩) ⟨hok, hlost⟩
        (Machine.guarded_true s events) hexec
    refine ⟨hlost'.events_before hok', fun hstage s'' hstep => ?_, fun hstage sending => ?_⟩
    · rw [Session.step, hstage] at hstep
      obtain ⟨resume, hresume, rfl⟩ := map_eq_some_iff.1 hstep
      rw [resumeAfter_eq_some hresume]
      exact congrArg Stage.replaying (hlost'.resume hok' hstage)
    · obtain ⟨hub, -, hreceive⟩ := hlost'.receive hok' hstage sending
      exact ⟨_, hreceive, hend _ sending⟩

/-- Room for one event each. -/
def sampleCapacities : Capacities := ⟨1, 1, by decide, by decide⟩

/-- An event is published before the connection and one after it.  Two more are published before the
session receives again, so that one of them is overwritten. -/
def sampleSession : List (SocketEvent Unit) :=
  let publish : List (SocketEvent Unit) := [.publish (halfSecond 0) (), .send]
  publish ++ [.subscribe, .resume, .replay .ok, .replay .ok] ++ publish ++ [.receive .ok] ++
    publish ++ publish

theorem sampleSession_gapless : ∃ s, (socketMachine Unit sampleCapacities 0).exec
    ⟨.new, .opening, 0, []⟩ sampleSession = some s ∧ s.events.map EventEnvelope.sequence = [1, 2] ∧
    ∃ s', s.receive sampleCapacities .ok = some s' ∧ s'.stage = .ended ∧
      s'.messages = s.messages ++ [.resyncRequired] := by
  obtain ⟨s, hexec, hevents, hstage, e, hpublished, hafter, hunwritten, hgone⟩ :
      ∃ s, (socketMachine Unit sampleCapacities 0).exec ⟨.new, .opening, 0, []⟩ sampleSession =
          some s ∧ s.events.map EventEnvelope.sequence = [1, 2] ∧ (s.stage matches .live) = true ∧
        ∃ e ∈ s.hub.published, 0 < e.sequence ∧ e ∉ s.events ∧ e ∉ s.inReach sampleCapacities := by
    decide +kernel
  have hlive : s.stage = .live := by
    split at hstage
    · assumption
    · cases hstage
  obtain ⟨-, -, -, -, -, -, hlost⟩ := delivery_gapless (Machine.reachable_of_exec rfl hexec)
  obtain ⟨-, -, hreceive⟩ := hlost e ⟨hpublished, hafter, hunwritten, hgone⟩ [] s rfl
  obtain ⟨s', hs', hended, hmessages⟩ := hreceive hlive .ok
  exact ⟨s, hexec, hevents, s', hs', hended, hmessages rfl⟩

end NeonHearth.Events
