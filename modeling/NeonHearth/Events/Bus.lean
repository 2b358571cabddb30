import NeonHearth.Data.Numbered
import NeonHearth.Time.DateTime

/-!
# The event bus

A publication gets the next number, goes into a bounded replay buffer and is sent to the subscribers
over a broadcast channel (`lattice-event-bus`).  A reader subscribes, asks for what it has missed and
then receives.

* `Hub` : the bus with the receiver of one reader, as it is seen between any two steps.  A publisher
  first changes the state and then sends, both under the lock, but the receiver is not locked out.

The channel keeps the last so many events (`Capacities.channel`, the capacity that is asked for, rounded
up).  A receiver that has missed one is told so, once, and continues with the oldest that is left.
-/

namespace NeonHearth.Events

open List Option

structure EventEnvelope (P : Type) where
  sequence : ℕ
  occurredAt : DateTime
  payload : P
  deriving DecidableEq

inductive Resume (P : Type) where
  | events (events : List (EventEnvelope P))
  | snapshotRequired

/-- The state behind the lock. -/
structure BusState (P : Type) where
  nextSequence : ℕ
  replay : List (EventEnvelope P)

/-- What `EventBus::new` is given; it refuses zeros. -/
structure Capacities where
  replay : ℕ
  channel : ℕ
  replay_pos : 0 < replay
  channel_pos : 0 < channel

variable {P : Type} {α : Type}

/-- The loop that drops the oldest entries of the replay buffer. -/
def trim (capacity : ℕ) : List α → List α
  | [] => []
  | a :: l => if capacity < (a :: l).length then trim capacity l else a :: l

namespace BusState

/-- The state in `EventBus::new`. -/
def new : BusState P := ⟨1, []⟩

/-- `publish` up to the sending.  It panics when the numbers are used up. -/
def publish (capacity : ℕ) (st : BusState P) (occurredAt : DateTime) (payload : P) :
    Option (EventEnvelope P × BusState P) :=
  if st.nextSequence + 1 < 2 ^ 64 then
    let envelope : EventEnvelope P := ⟨st.nextSequence, occurredAt, payload⟩
    some (envelope, ⟨st.nextSequence + 1, trim capacity (st.replay ++ [envelope])⟩)
  else none

def currentSequence (st : BusState P) : ℕ := st.nextSequence - 1

def resumeAfter (st : BusState P) (sequence : ℕ) : Resume P :=
  let lastSequence := st.nextSequence - 1
  if sequence = lastSequence then .events []
  else if lastSequence < sequence then .snapshotRequired
  else
    match st.replay with
    | [] => .snapshotRequired
    | oldest :: _ =>
      if min (sequence + 1) (2 ^ 64 - 1) < oldest.sequence then .snapshotRequired
      else .events (st.replay.filter (sequence < ·.sequence))

end BusState

/-! ### The channel -/

/-- What a receiver gets, if there is something. -/
inductive Received (P : Type) where
  | event (event : EventEnvelope P)
  | lagged

/-- The bus, with the receiver of one reader. -/
structure Hub (P : Type) where
  bus : BusState P
  /-- The event of the publisher that holds the lock and has not sent yet. -/
  publishing : Option (EventEnvelope P)
  /-- What has been sent since the receiver's position. -/
  queue : List (EventEnvelope P)
  /-- All publications. -/
  published : List (EventEnvelope P)

namespace Hub

def new : Hub P := ⟨.new, none, [], []⟩

/-- A publisher takes the lock and changes the state.  When it panics, the lock is released. -/
def publish (capacities : Capacities) (h : Hub P) (occurredAt : DateTime) (payload : P) :
    Option (Hub P) :=
  if h.publishing.isSome then none
  else
    match h.bus.publish capacities.replay occurredAt payload with
    | none => some h
    | some (envelope, bus) =>
      some { h with bus, publishing := some envelope, published := h.published ++ [envelope] }

/-- The publisher sends and releases the lock. -/
def send (h : Hub P) : Option (Hub P) :=
  h.publishing.map fun envelope =>
    { h with publishing := none, queue := h.queue ++ [envelope] }

/-- A new receiver starts at the end of the channel. -/
def subscribe (h : Hub P) : Hub P := { h with queue := [] }

/-- `resume_after`, which waits for the lock. -/
def resumeAfter (h : Hub P) (sequence : ℕ) : Option (Resume P) :=
  if h.publishing.isSome then none else some (h.bus.resumeAfter sequence)

/-- `recv`, which waits for something to be sent. -/
def receive (capacities : Capacities) (h : Hub P) : Option (Received P × Hub P) :=
  if capacities.channel < h.queue.length then
    some (.lagged, { h with queue := h.queue.drop (h.queue.length - capacities.channel) })
  else
    match h.queue with
    | [] => none
    | e :: queue => some (.event e, { h with queue })

/-! ### What the bus holds -/

/-- The publications that the receiver has not read. -/
def unread (h : Hub P) : List (EventEnvelope P) := h.queue ++ h.publishing.toList

/-- Those of them that it still can read. -/
def held (capacities : Capacities) (h : Hub P) : List (EventEnvelope P) :=
  h.queue.drop (h.queue.length - capacities.channel) ++ h.publishing.toList

/-- How many publications the receiver has read, or did not get because they were made before. -/
def position (h : Hub P) : ℕ := h.published.length - h.unread.length

/-- Publications are numbered, and the replay buffer and the receiver hold the latest of them. -/
structure Sound (h : Hub P) : Prop where
  numbered : Numbered EventEnvelope.sequence h.published
  next : h.bus.nextSequence = h.published.length + 1
  bound : h.bus.nextSequence < 2 ^ 64
  replay : h.bus.replay <:+ h.published
  replay_ne_nil : h.published ≠ [] → h.bus.replay ≠ []
  unread : h.unread <:+ h.published

end Hub

/-! ### Replay -/

theorem trim_suffix (capacity : ℕ) (l : List α) : trim capacity l <:+ l := by
  induction l with
  | nil => exact suffix_refl _
  | cons a l ih =>
    rw [trim]
    split_ifs
    · exact ih.trans (suffix_cons a l)
    · exact suffix_refl _

theorem trim_ne_nil {capacity : ℕ} (hpos : 0 < capacity) {l : List α} (hl : l ≠ []) :
    trim capacity l ≠ [] := by
  induction l with
  | nil => exact absurd rfl hl
  | cons a l ih =>
    rw [trim]
    split_ifs with hlong
    · refine ih fun hnil => ?_
      rw [hnil, length_singleton] at hlong
      omega
    · exact cons_ne_nil _ _

namespace Hub

variable {capacities : Capacities} {h h' : Hub P}

/-- What a step of a publisher does to a reader: publications may be added, and those that there were
are no closer than before. -/
structure Publishes (capacities : Capacities) (h h' : Hub P) : Prop where
  published : h.published <+: h'.published
  position : h'.position = h.position
  replay : ∀ e ∈ h.published, e ∈ h'.bus.replay → e ∈ h.bus.replay
  held : ∀ e ∈ h.published, e ∈ h'.held capacities → e ∈ h.held capacities

theorem Publishes.refl (capacities) (h : Hub P) : Publishes capacities h h :=
  ⟨prefix_refl _, rfl, fun _ _ he => he, fun _ _ he => he⟩

theorem sound_new : (new : Hub P).Sound :=
  ⟨.nil, rfl, (by decide : 1 < 2 ^ 64), suffix_refl _, fun hne => absurd rfl hne, suffix_refl _⟩

namespace Sound

/-- The unread publications are those after the receiver's position. -/
theorem unread_eq (hs : h.Sound) : h.unread = h.published.drop h.position :=
  suffix_iff_eq_drop.1 hs.unread

theorem position_add (hs : h.Sound) : h.position + h.unread.length = h.published.length :=
  Nat.sub_add_cancel hs.unread.length_le

end Sound

theorem resumeAfter_eq_some {n : ℕ} {resume} (hresume : h.resumeAfter n = some resume) :
    resume = h.bus.resumeAfter n := by
  unfold resumeAfter at hresume
  split_ifs at hresume
  exact (some.inj hresume).symm

variable {occurredAt : DateTime} {payload : P}

/-- What a publisher does under the lock: nothing, or a new publication. -/
theorem publish_eq_some (hpublish : h.publish capacities occurredAt payload = some h') :
    h' = h ∨ h.publishing = none ∧ h.bus.nextSequence + 1 < 2 ^ 64 ∧
      ∃ e : EventEnvelope P, e.sequence = h.bus.nextSequence ∧ h' =
        ⟨⟨h.bus.nextSequence + 1, trim capacities.replay (h.bus.replay ++ [e])⟩, some e, h.queue,
          h.published ++ [e]⟩ := by
  unfold publish BusState.publish at hpublish
  split_ifs at hpublish with hlock hfit
  · cases hpublish
    exact .inr ⟨by simpa using hlock, hfit, _, rfl, rfl⟩
  · cases hpublish
    exact .inl rfl

namespace Sound

theorem publish (hs : h.Sound)
    (hpublish : h.publish capacities occurredAt payload = some h') : h'.Sound := by
  obtain rfl | ⟨hlock, hfit, e, he, rfl⟩ := publish_eq_some hpublish
  · exact hs
  have hunread : h.queue <:+ h.published := by
    have hunread := hs.unread
    rwa [Hub.unread, hlock, toList_none, append_nil] at hunread
  obtain ⟨before, hbefore⟩ := hs.replay
  obtain ⟨first, hfirst⟩ := hunread
  refine ⟨hs.numbered.concat (he.trans hs.next), by simp [hs.next], hfit, ?_, ?_, ?_⟩
  · refine (trim_suffix _ _).trans ⟨before, ?_⟩
    rw [← append_assoc, hbefore]
  · exact fun _ => trim_ne_nil capacities.replay_pos (by simp)
  · refine ⟨first, ?_⟩
    rw [Hub.unread, toList_some, ← append_assoc, hfirst]

theorem send (hs : h.Sound) (hsend : h.send = some h') : h'.Sound := by
  obtain ⟨e, he, rfl⟩ := map_eq_some_iff.1 hsend
  refine { hs with unread := ?_ }
  have hunread := hs.unread
  rw [Hub.unread, he, toList_some] at hunread
  rwa [Hub.unread, toList_none, append_nil]

theorem publishes_publish (hs : h.Sound)
    (hpublish : h.publish capacities occurredAt payload = some h') : Publishes capacities h h' := by
  obtain rfl | ⟨hlock, hfit, e', he', rfl⟩ := publish_eq_some hpublish
  · exact .refl capacities h'
  have hunread := hs.unread.length_le
  have hnew : ∀ e ∈ h.published, e ≠ e' := by
    rintro e he rfl
    have hle := hs.numbered.number_le he
    rw [he', hs.next] at hle
    omega
  refine ⟨prefix_append _ _, ?_, fun e he hmem => ?_, fun e he hmem => ?_⟩
  · simp only [Hub.position, Hub.unread, hlock, toList_none, toList_some,
      length_append, length_nil, length_singleton] at hunread ⊢
    omega
  · have hmem := (trim_suffix _ _).subset hmem
    rw [mem_append, mem_singleton] at hmem
    exact hmem.resolve_right (hnew e he)
  · rw [Hub.held, toList_some, mem_append, mem_singleton] at hmem
    exact mem_append_left _ (hmem.resolve_right (hnew e he))

theorem publishes_send (capacities) (hsend : h.send = some h') : Publishes capacities h h' := by
  obtain ⟨e', he', rfl⟩ := map_eq_some_iff.1 hsend
  refine ⟨prefix_refl _, ?_, fun _ _ he => he, fun e _ hmem => ?_⟩
  · simp [Hub.position, Hub.unread, he']
  -- one more event may have been dropped from the channel
  simp only [Hub.held, toList_none, append_nil, length_append, length_singleton] at hmem
  rw [Hub.held, he', toList_some]
  have hmem := drop_subset_drop_left (h.queue ++ [e'])
    (show h.queue.length - capacities.channel ≤ h.queue.length + 1 - capacities.channel by omega)
    hmem
  rwa [drop_append_of_le_length (Nat.sub_le _ _)] at hmem

/-- A publisher that holds the lock has published last. -/
theorem subscribe (hs : h.Sound) : h.subscribe.Sound := by
  refine { hs with unread := ?_ }
  exact (suffix_append h.queue _).trans hs.unread

theorem receive {received} (hs : h.Sound)
    (hreceive : h.receive capacities = some (received, h')) : h'.Sound := by
  unfold Hub.receive at hreceive
  split_ifs at hreceive
  · cases hreceive
    refine { hs with unread := ?_ }
    refine List.IsSuffix.trans ?_ hs.unread
    obtain ⟨first, hfirst⟩ := drop_suffix (h.queue.length - capacities.channel) h.queue
    exact ⟨first, by rw [Hub.unread, Hub.unread, ← append_assoc, hfirst]⟩
  · split at hreceive
    · cases hreceive
    next e queue hqueue =>
      cases hreceive
      refine { hs with unread := ?_ }
      refine List.IsSuffix.trans ?_ hs.unread
      exact ⟨[e], by simp [Hub.unread, hqueue]⟩

/-- A receiver that is not too slow gets the next publication. -/
theorem receive_cases {received} (hs : h.Sound)
    (hreceive : h.receive capacities = some (received, h')) : h'.published = h.published ∧
      (received = .lagged ∨ ∃ (hlt : h.position < h.published.length),
        received = .event h.published[h.position] ∧ h'.position = h.position + 1) := by
  unfold Hub.receive at hreceive
  split_ifs at hreceive
  · cases hreceive
    exact ⟨rfl, .inl rfl⟩
  split at hreceive
  · cases hreceive
  next e queue hqueue =>
    cases hreceive
    have hrest : h.published.drop h.position = e :: (queue ++ h.publishing.toList) := by
      rw [← hs.unread_eq, Hub.unread, hqueue, cons_append]
    have hlt : h.position < h.published.length := by
      rw [← not_le, ← drop_eq_nil_iff, hrest]
      exact cons_ne_nil _ _
    rw [drop_eq_getElem_cons hlt, cons.injEq] at hrest
    refine ⟨rfl, .inr ⟨hlt, by rw [hrest.1], ?_⟩⟩
    have hle := hs.unread.length_le
    simp only [Hub.position, Hub.unread, hqueue, cons_append, length_cons] at hle ⊢
    omega

/-- A number below those in the replay buffer. -/
theorem resumeAfter_of_lt {n : ℕ} {oldest} (hs : h.Sound)
    (holdest : h.bus.replay.head? = some oldest) (hlt : n + 1 < oldest.sequence) :
    h.bus.resumeAfter n = .snapshotRequired := by
  obtain ⟨rest, hreplay⟩ := head?_eq_some_iff.1 holdest
  have hmem : oldest ∈ h.published := hs.replay.subset (hreplay ▸ mem_cons_self)
  have hle := hs.numbered.number_le hmem
  have hlast : h.bus.nextSequence - 1 = h.published.length := by
    have hnext := hs.next
    omega
  unfold BusState.resumeAfter
  simp only [hlast]
  rw [if_neg (by omega), if_neg (by omega), hreplay]
  exact if_pos (by omega)

/-- **What a resumption gives**: all publications after the number; otherwise the number is ahead, or
a publication after it has been dropped. -/
theorem resumeAfter (hs : h.Sound) (n : ℕ) :
    (n ≤ h.published.length ∧ h.bus.resumeAfter n = .events (h.published.drop n) ∧
        h.published.drop n ⊆ h.bus.replay) ∨
      h.bus.resumeAfter n = .snapshotRequired ∧
        (h.published.length < n ∨ ∃ e ∈ h.published, n < e.sequence ∧ e ∉ h.bus.replay) := by
  have hlast : h.bus.nextSequence - 1 = h.published.length := by
    have hnext := hs.next
    omega
  unfold BusState.resumeAfter
  simp only [hlast]
  obtain hlt | rfl | hgt := lt_trichotomy n h.published.length
  · rw [if_neg hlt.ne, if_neg (not_lt.2 hlt.le)]
    have hreplay := hs.replay_ne_nil (ne_nil_of_length_pos (by omega))
    -- the buffer holds what comes after its start
    obtain ⟨k, hk, hstart⟩ : ∃ k, k < h.published.length ∧ h.bus.replay = h.published.drop k := by
      refine ⟨_, ?_, suffix_iff_eq_drop.1 hs.replay⟩
      have hlength := length_pos_iff.2 hreplay
      omega
    rw [hstart, drop_eq_getElem_cons hk]
    have holdest := hs.numbered.getElem hk
    have hbound := hs.bound
    simp only [holdest, Nat.min_eq_left (show n + 1 ≤ 2 ^ 64 - 1 by omega)]
    by_cases hgone : n + 1 < k + 1
    · rw [if_pos hgone]
      have hmem : h.published[n] ∈ h.published := getElem_mem hlt
      refine .inr ⟨rfl, .inr ⟨_, hmem, ?_, ?_⟩⟩
      · rw [hs.numbered.getElem hlt]
        exact Nat.lt_succ_self n
      · rw [← drop_eq_getElem_cons hk, hs.numbered.mem_drop hmem, hs.numbered.getElem hlt]
        omega
    · rw [if_neg hgone, ← drop_eq_getElem_cons hk]
      refine .inl ⟨hlt.le, congrArg Resume.events ?_, drop_subset_drop_left _ (by omega)⟩
      rw [← hs.numbered.filter_lt n]
      conv_rhs => rw [← take_append_drop k h.published, filter_append]
      have hold : (h.published.take k).filter (n < ·.sequence) = [] := by
        refine filter_eq_nil_iff.2 fun e he => ?_
        have hle := (hs.numbered.mem_take (mem_of_mem_take he)).1 he
        simp only [decide_eq_true_eq, not_lt]
        omega
      rw [hold, nil_append]
  · rw [if_pos rfl, drop_length]
    exact .inl ⟨le_refl _, rfl, nil_subset _⟩
  · rw [if_neg hgt.ne', if_pos hgt]
    exact .inr ⟨rfl, .inl hgt⟩

end Sound

end Hub

end NeonHearth.Events
