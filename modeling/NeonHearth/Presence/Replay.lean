import NeonHearth.Presence.Journal

/-!
# The history and its replay

Every transition of a device is emitted once, by the call that made it, and a bounded number of them
is kept for replay.  `domainEventsSince` gives a consumer the transitions after a cursor, or says that
some of them are gone.

* `history_faithful` : the transitions of a device, corrections aside, lead from the unknown state to
  the present one without a gap; a correction names a departure that was emitted before; ids increase
  over all devices; and the history is the end of what was emitted;
* `domainEventsSince_replays` : a replay never skips a transition.

`Faithful` relates a device to everything it has emitted, and one lemma per kind of transition
(`Faithful.correct`, `Faithful.move`) says that recording keeps it.
-/

namespace NeonHearth.Presence

open List Option SortedMap

/-! ### Replay -/

/-- `PresenceEvidenceKind::as_str`. -/
def PresenceEvidenceKind.asStr : PresenceEvidenceKind → String
  | .traffic => "traffic"
  | .lease => "lease"
  | .routerAssociation => "router_association"
  | .neighborCache => "neighbor_cache"
  | .probeSuccess => "probe_success"
  | .confirmationFailure => "confirmation_failure"
  | .enforcementBlocked => "enforcement_blocked"
  | .enforcementUnblocked => "enforcement_unblocked"
  | .sensorImpaired => "sensor_impaired"
  | .sensorRecovered => "sensor_recovered"
  | .contradiction => "contradiction"
  | .contradictionCleared => "contradiction_cleared"
  | .evaluation => "evaluation"

/-- The public event about a transition. -/
structure PresenceChanged where
  transitionId : ℕ
  deviceId : DeviceId
  fromState : PresenceState
  toState : PresenceState
  occurredAt : DateTime
  reason : String
  triggerSource : String
  triggerKind : String
  evidenceObservedAt : DateTime
  evidenceValidUntil : Option DateTime
  triggerArrivalAt : DateTime
  correctionOf : Option ℕ
  deriving DecidableEq

/-- `PresenceChanged::from`. -/
def PresenceChanged.ofTransition (t : PresenceTransition) : PresenceChanged where
  transitionId := t.transitionId
  deviceId := t.deviceId
  fromState := t.fromState
  toState := t.toState
  occurredAt := t.occurredAt
  reason := if t.correctionOf.isSome then "late_evidence_correction" else "presence_evidence"
  triggerSource := t.trigger.source
  triggerKind := t.trigger.kind.asStr
  evidenceObservedAt := t.trigger.observedAt
  evidenceValidUntil := t.trigger.validUntil
  triggerArrivalAt := t.trigger.arrivalAt
  correctionOf := t.correctionOf

/-- `domain_events_since`. -/
def PresenceEngine.domainEventsSince (engine : PresenceEngine) (id : DeviceId) (transitionId : ℕ) :
    Except PresenceError (List PresenceChanged) := do
  let d ← okOr (engine.devices.get id) .deviceNotFound
  reject (d.evictedThrough.any (transitionId < ·)) .cursorExpired
  return (d.history.filter (transitionId < ·.transitionId)).map .ofTransition

/-! ### What a device has emitted -/

/-- The transitions that are no corrections. -/
def uncorrected (emitted : List PresenceTransition) : List PresenceTransition :=
  emitted.filter (·.correctionOf = none)

/-- The state in which a chain from the unknown state ends. -/
def finalState (emitted : List PresenceTransition) : PresenceState :=
  (emitted.getLast?.map (·.toState)).getD .unknown

/-- The correction of a departure that was emitted before. -/
def CorrectsDeparture (emitted : List PresenceTransition) (t : PresenceTransition) : Prop :=
  ∀ target, t.correctionOf = some target → t.fromState = .offline ∧
    ∃ u ∈ emitted, u.transitionId = target ∧ u.transitionId < t.transitionId ∧
      u.deviceId = t.deviceId ∧ u.toState = .offline

/-- The device and everything it has emitted. -/
structure Faithful (id : DeviceId) (d : DevicePresence) (emitted : List PresenceTransition) : Prop where
  /-- The history is what is left after some transitions were dropped, up to the cursor. -/
  split : ∃ dropped, emitted = dropped ++ d.history ∧
    d.evictedThrough = dropped.getLast?.map (·.transitionId)
  device : ∀ t ∈ emitted, t.deviceId = id
  chained : Chained (some .unknown) (uncorrected emitted)
  final : finalState (uncorrected emitted) = d.state
  corrections : ∀ t ∈ emitted, CorrectsDeparture emitted t

variable {emitted events : List PresenceTransition} {d' : DevicePresence} {t : PresenceTransition}

theorem CorrectsDeparture.append (h : CorrectsDeparture emitted t)
    (events) : CorrectsDeparture (emitted ++ events) t := by
  intro target htarget
  obtain ⟨hfrom, u, hu, hrest⟩ := h target htarget
  exact ⟨hfrom, u, mem_append_left _ hu, hrest⟩

namespace Faithful

variable {id : DeviceId} {d : DevicePresence} {limit : ℕ}

section

variable (h : Faithful id d emitted)
include h

/-- A transition is put into the history, which drops its front. -/
theorem split_push (hlimit : limit ≠ 0) (state) :
    ∃ dropped, emitted ++ [t] = dropped ++ (pushHistory { d with state := state } t limit).history ∧
      (pushHistory { d with state := state } t limit).evictedThrough =
        dropped.getLast?.map (·.transitionId) := by
  obtain ⟨dropped, hsplit, hevicted⟩ := h.split
  obtain ⟨more, hkept, hcursor, -⟩ := evictHistory_spec hlimit none d.evictedThrough d.history
  refine ⟨dropped ++ more, ?_, ?_⟩
  · have hpushed : d.history ++ [t] =
        more ++ (pushHistory { d with state := state } t limit).history :=
      (congrArg (· ++ [t]) hkept).trans (append_assoc ..)
    rw [hsplit, append_assoc, hpushed, append_assoc]
  · refine hcursor.trans ?_
    rw [hevicted, getLast?_append, map_or]

theorem corrections_push (ht : CorrectsDeparture emitted t) :
    ∀ u ∈ emitted ++ [t], CorrectsDeparture (emitted ++ [t]) u :=
  forall_mem_concat.2 ⟨fun u hu => (h.corrections u hu).append _, ht.append _⟩

/-- A correction is recorded: the chain goes on without it. -/
theorem correct (hlimit : limit ≠ 0) (hdevice : t.deviceId = id)
    (hnew : ∀ u ∈ emitted, u.transitionId < t.transitionId) (hfrom : t.fromState = .offline)
    {departure} (hmem : departure ∈ d.history) (hoffline : departure.toState = .offline)
    (hcorrection : t.correctionOf = some departure.transitionId) :
    Faithful id (pushHistory d t limit) (emitted ++ [t]) := by
  have hsame : uncorrected (emitted ++ [t]) = uncorrected emitted := by
    simp [uncorrected, hcorrection]
  have hemitted : departure ∈ emitted := by
    obtain ⟨dropped, hsplit, -⟩ := h.split
    rw [hsplit]
    exact mem_append_right _ hmem
  refine ⟨h.split_push hlimit d.state, forall_mem_concat.2 ⟨h.device, hdevice⟩, hsame ▸ h.chained, ?_, ?_⟩
  · rw [hsame]
    exact h.final
  · refine h.corrections_push fun target htarget => ?_
    obtain rfl := some.inj (hcorrection.symm.trans htarget)
    exact ⟨hfrom, departure, hemitted, rfl, hnew departure hemitted,
      (h.device departure hemitted).trans hdevice.symm, hoffline⟩

/-- A move is recorded: it starts where the chain ended. -/
theorem move (hlimit : limit ≠ 0) (hdevice : t.deviceId = id)
    (hfrom : t.fromState = d.state) (hcorrection : t.correctionOf = none) :
    Faithful id (pushHistory { d with state := t.toState } t limit) (emitted ++ [t]) := by
  have hcons : uncorrected (emitted ++ [t]) = uncorrected emitted ++ [t] := by
    simp [uncorrected, hcorrection]
  have hfinal := h.final
  refine ⟨h.split_push hlimit t.toState, forall_mem_concat.2 ⟨h.device, hdevice⟩, ?_, ?_, ?_⟩
  · rw [hcons]
    refine h.chained.append (fun u hu => ?_) fun hnil => ?_
    · rw [finalState, hu] at hfinal
      exact hfinal.trans hfrom.symm
    · rw [finalState, hnil] at hfinal
      simpa using hfrom.trans hfinal.symm
  · rw [hcons, finalState, getLast?_append]
    rfl
  · exact h.corrections_push fun target htarget => by simp [hcorrection] at htarget

end

theorem recorded {next : ℕ} (hrecorded : Recorded limit id next d events d') (hlimit : limit ≠ 0)
    (hnew : ∀ u ∈ emitted, u.transitionId < next) (h : Faithful id d emitted) :
    Faithful id d' (emitted ++ events) := by
  induction hrecorded generalizing emitted with
  | done => rwa [append_nil]
  | @corrected next d d' t departure events hid hdevice hfrom hmem hoffline hcorrection _ ih =>
    rw [append_cons]
    refine ih (forall_mem_concat.2 ⟨fun u hu => (hnew u hu).trans (Nat.lt_succ_self next), ?_⟩)
      (h.correct hlimit hdevice (fun u hu => hid ▸ hnew u hu) hfrom hmem hoffline hcorrection)
    exact hid ▸ Nat.lt_succ_self next
  | @moved next d d' t events hid hdevice hfrom hcorrection _ ih =>
    rw [append_cons]
    refine ih (forall_mem_concat.2 ⟨fun u hu => (hnew u hu).trans (Nat.lt_succ_self next), ?_⟩)
      (h.move hlimit hdevice hfrom hcorrection)
    exact hid ▸ Nat.lt_succ_self next

/-- Only the state, the history and the cursor matter. -/
theorem congr (h : Faithful id d emitted) (hstate : d'.state = d.state)
    (hhistory : d'.history = d.history) (hevicted : d'.evictedThrough = d.evictedThrough) :
    Faithful id d' emitted :=
  ⟨by rw [hhistory, hevicted]; exact h.split, h.device, h.chained, h.final.trans hstate.symm,
    h.corrections⟩

end Faithful

variable {id : DeviceId} {d : DevicePresence} {submitted : List PresenceEvidence}

/-- **One device** is faithful to everything it has emitted. -/
theorem DeviceRun.faithful (h : DeviceRun id d submitted emitted) : Faithful id d emitted := by
  induction h with
  | initial arrival => exact ⟨⟨[], rfl, rfl⟩, by simp, trivial, rfl, by simp⟩
  | ignored _ _ ih => exact ih
  | @ingested d d' submitted emitted events e cfg arrival next _ hcfg hnext _ hrecorded _ ih =>
    have habsorbed := absorb_spec cfg d e arrival
    exact .recorded hrecorded hcfg.maxHistoryPerDevice hnext
      (ih.congr habsorbed.state habsorbed.history habsorbed.evictedThrough)
  | evaluated _ hcfg hnext hrecorded _ ih =>
    exact .recorded hrecorded hcfg.maxHistoryPerDevice hnext (ih.congr rfl rfl rfl)

/-! ### Runs -/

theorem length_pushHistory {limit : ℕ} (hlimit : limit ≠ 0) (d t) :
    (pushHistory d t limit).history.length ≤ limit := by
  obtain ⟨-, -, -, hlength⟩ := evictHistory_spec hlimit none d.evictedThrough d.history
  exact (length_append ..).trans_le hlength

theorem Recorded.length_le {limit next : ℕ} (h : Recorded limit id next d events d')
    (hlimit : limit ≠ 0) (hd : d.history.length ≤ limit) : d'.history.length ≤ limit := by
  induction h with
  | done => exact hd
  | corrected _ _ _ _ _ _ _ ih | moved _ _ _ _ _ ih => exact ih (length_pushHistory hlimit ..)

section Runs

variable {s s' : Journal}

/-- No history is longer than the configuration allows. -/
def Journal.Capped (s : Journal) : Prop :=
  ∀ id d, s.engine.devices.get id = some d → d.history.length ≤ s.engine.cfg.maxHistoryPerDevice

theorem Journal.Capped.record (h : s.Capped) {next : ℕ}
    (hd : d.history.length ≤ s.engine.cfg.maxHistoryPerDevice)
    (hrecorded : Recorded s.engine.cfg.maxHistoryPerDevice id next d events d') :
    Journal.Capped ⟨s.engine.record id d' events, submitted, emitted⟩ := by
  intro other d'' hd''
  obtain ⟨-, rfl⟩ | ⟨-, hother⟩ := get_insert_eq_some.1 hd''
  · exact hrecorded.length_le s.engine.cfg_valid.maxHistoryPerDevice hd
  · exact h other d'' hother

theorem Journal.Capped.step (h : s.Capped) (hs : JournalStep s s') : s'.Capped := by
  cases hs with
  | ignored => exact h
  | @ingested e arrival d d' events hd _ hrecorded =>
    refine h.record ?_ hrecorded
    rw [(absorb_spec s.engine.cfg d e arrival).history]
    obtain hd | ⟨-, rfl⟩ := hd
    · exact h _ d hd
    · exact Nat.zero_le _
  | @evaluated id at' d d' events hd hrecorded =>
    refine h.record ?_ hrecorded
    exact h id d hd
  | restarted hdevices _ hcap => exact fun id d hd => hcap id d (hdevices ▸ hd)

theorem capped_of_reachable (h : journalMachine.Reachable s) : s.Capped := by
  refine h.invariant (fun s hinit id d hd => ?_) fun s event s' hs _ hstep =>
    hs.step (journalStep_of_step hstep)
  obtain ⟨⟨cfg, next, hnew⟩, -⟩ := hinit
  rw [(newWithTransitionSequence_eq_ok hnew).1, get_empty] at hd
  cases hd

theorem mem_emittedBy : t ∈ s.emittedBy id ↔ t ∈ s.emitted ∧ t.deviceId = id := by
  simp [Journal.emittedBy]

/-- What was emitted was emitted by a known device. -/
theorem Journal.Ok.known_of_emitted (h : s.Ok) (ht : t ∈ s.emitted) :
    ∃ d, s.engine.devices.get t.deviceId = some d := by
  refine ne_none_iff_exists'.1 fun hnone => ?_
  have hmem : t ∈ s.emittedBy t.deviceId := mem_emittedBy.2 ⟨ht, rfl⟩
  rw [(h.unknown hnone).2] at hmem
  cases hmem

/-- **The history is a faithful chain.** -/
theorem history_faithful (h : journalMachine.Reachable s) :
    (s.emitted.map (·.transitionId)).Pairwise (· < ·) ∧
    (∀ t ∈ s.emitted, CorrectsDeparture s.emitted t) ∧
    ∀ id d, s.engine.devices.get id = some d →
      Chained (some .unknown) (uncorrected (s.emittedBy id)) ∧
      finalState (uncorrected (s.emittedBy id)) = d.state ∧
      d.history <:+ s.emittedBy id ∧ d.history.length ≤ s.engine.cfg.maxHistoryPerDevice := by
  have hok := ok_of_reachable h
  refine ⟨hok.increasing, fun t ht target htarget => ?_, fun id d hd => ?_⟩
  · obtain ⟨d, hd⟩ := hok.known_of_emitted ht
    obtain ⟨hfrom, u, hu, hrest⟩ :=
      (hok.known hd).faithful.corrections t (mem_emittedBy.2 ⟨ht, rfl⟩) target htarget
    exact ⟨hfrom, u, (mem_emittedBy.1 hu).1, hrest⟩
  · have hfaithful := (hok.known hd).faithful
    obtain ⟨dropped, hsplit, -⟩ := hfaithful.split
    exact ⟨hfaithful.chained, hfaithful.final, ⟨dropped, hsplit.symm⟩, capped_of_reachable h id d hd⟩

/-- One confirmation is enough, and one transition is kept. -/
def oneTransition : PresenceConfig :=
  { PresenceConfig.default with joinConfirmations := 1, maxHistoryPerDevice := 1 }

/-- A device leaves, and traffic from before its departure turns up that still counts. -/
def correctedDeparture : List JournalEvent :=
  [.call (observed .lease 0 (some 10)), .call (observed .confirmationFailure 12 none),
    .call (observed .confirmationFailure 14 none),
    .call (.ingestEvents ⟨1, "sensor-a", .traffic, halfSecond 12, none⟩ (halfSecond 16))]

/-- The states of a run, with what was corrected. -/
def Journal.path (s : Journal) : List (PresenceState × Option ℕ) :=
  s.emitted.map fun t => (t.toState, t.correctionOf)

theorem correctedDeparture_faithful : ∃ s d, journalRun oneTransition correctedDeparture = some s ∧
    s.path = [(.quiet, none), (.offline, none), (.online, some 2), (.online, none)] ∧
    s.engine.devices.get 1 = some d ∧ d.state = .online ∧
    Chained (some .unknown) (uncorrected (s.emittedBy 1)) ∧
    finalState (uncorrected (s.emittedBy 1)) = d.state ∧ d.history <:+ s.emittedBy 1 := by
  obtain ⟨s, hs, hpath, d, hd, hstate⟩ :
      ∃ s, journalRun oneTransition correctedDeparture = some s ∧
        s.path = [(.quiet, none), (.offline, none), (.online, some 2), (.online, none)] ∧
        ∃ d, s.engine.devices.get 1 = some d ∧ d.state = .online := by decide +kernel
  obtain ⟨-, -, hdevices⟩ := history_faithful (reachable_journalRun hs)
  obtain ⟨hchained, hfinal, hsuffix, -⟩ := hdevices 1 d hd
  exact ⟨s, d, hs, hpath, hd, hstate, hchained, hfinal, hsuffix⟩

/-- The last of some dropped transitions has the greatest id. -/
theorem getLast?_any_lt {l : List PresenceTransition} (h : (l.map (·.transitionId)).Pairwise (· < ·))
    (cursor : ℕ) : (l.getLast?.map (·.transitionId)).any (cursor < ·) = true ↔
      ∃ t ∈ l, cursor < t.transitionId := by
  rcases eq_nil_or_concat' l with rfl | ⟨front, last, rfl⟩
  · simp
  rw [map_append, pairwise_append] at h
  simp only [getLast?_concat, map_some, any_some, decide_eq_true_eq]
  refine ⟨fun hlt => ⟨last, by simp, hlt⟩, ?_⟩
  rintro ⟨t, ht, hlt⟩
  obtain ht | ht := mem_append.1 ht
  · exact hlt.trans (h.2.2 _ (mem_map_of_mem ht) _ (by simp))
  · rwa [mem_singleton.1 ht] at hlt

theorem Journal.Ok.increasing_emittedBy (h : s.Ok) (id) :
    ((s.emittedBy id).map (·.transitionId)).Pairwise (· < ·) :=
  h.increasing.sublist (filter_sublist.map _)

/-- The cursor of a device is before the last transition that its history has lost. -/
theorem Journal.Ok.evicted_iff (h : s.Ok) (hd : s.engine.devices.get id = some d) (cursor : ℕ) :
    d.evictedThrough.any (cursor < ·) = true ↔
      ∃ t ∈ s.emittedBy id, cursor < t.transitionId ∧ t ∉ d.history := by
  obtain ⟨dropped, hsplit, hcursor⟩ := (h.known hd).faithful.split
  have hparts := h.increasing_emittedBy id
  rw [hsplit, map_append, pairwise_append] at hparts
  obtain ⟨hdropped, -, hbefore⟩ := hparts
  rw [hcursor, getLast?_any_lt hdropped]
  constructor
  · rintro ⟨t, ht, hlt⟩
    refine ⟨t, hsplit ▸ mem_append_left _ ht, hlt, fun hkept => ?_⟩
    exact absurd (hbefore _ (mem_map_of_mem ht) _ (mem_map_of_mem hkept)) (lt_irrefl _)
  · rintro ⟨t, ht, hlt, hnot⟩
    rw [hsplit] at ht
    exact ⟨t, (mem_append.1 ht).resolve_right hnot, hlt⟩

/-- What the history has lost is before the cursor, so it has everything after it. -/
theorem Journal.Ok.filter_history (h : s.Ok) (hd : s.engine.devices.get id = some d) {cursor : ℕ}
    (hkept : ¬∃ t ∈ s.emittedBy id, cursor < t.transitionId ∧ t ∉ d.history) :
    d.history.filter (cursor < ·.transitionId) =
      (s.emittedBy id).filter (cursor < ·.transitionId) := by
  obtain ⟨dropped, hsplit, hcursor⟩ := (h.known hd).faithful.split
  have hdropped := h.increasing_emittedBy id
  rw [hsplit, map_append, pairwise_append] at hdropped
  have hold : dropped.filter (cursor < ·.transitionId) = [] := by
    refine filter_eq_nil_iff.2 fun t ht hlt => hkept ((h.evicted_iff hd cursor).1 ?_)
    rw [hcursor, getLast?_any_lt hdropped.1]
    exact ⟨t, ht, of_decide_eq_true hlt⟩
  rw [hsplit, filter_append, hold, nil_append]

/-- **A replay never skips**: it is refused exactly when a transition after the cursor was emitted and
is no longer in the history, and gives all transitions after the cursor otherwise, by their ids. -/
theorem domainEventsSince_replays (h : journalMachine.Reachable s) (id : DeviceId) (cursor : ℕ) :
    (s.engine.devices.get id = none →
      s.engine.domainEventsSince id cursor = .error .deviceNotFound ∧ s.emittedBy id = []) ∧
    ∀ d, s.engine.devices.get id = some d →
      (s.engine.domainEventsSince id cursor = .error .cursorExpired ↔
        ∃ t ∈ s.emittedBy id, cursor < t.transitionId ∧ t ∉ d.history) ∧
      ((¬∃ t ∈ s.emittedBy id, cursor < t.transitionId ∧ t ∉ d.history) →
        s.engine.domainEventsSince id cursor =
          .ok (((s.emittedBy id).filter (cursor < ·.transitionId)).map .ofTransition)) ∧
      ((s.emittedBy id).map (·.transitionId)).Pairwise (· < ·) := by
  have hok := ok_of_reachable h
  constructor
  · intro hnone
    refine ⟨?_, (hok.unknown hnone).2⟩
    rw [PresenceEngine.domainEventsSince, hnone]
    rfl
  · intro d hd
    have heq : s.engine.domainEventsSince id cursor =
        (reject (d.evictedThrough.any (cursor < ·)) .cursorExpired >>= fun _ =>
          pure ((d.history.filter (cursor < ·.transitionId)).map .ofTransition)) := by
      rw [PresenceEngine.domainEventsSince, hd]
      rfl
    refine ⟨?_, fun hkept => ?_, hok.increasing_emittedBy id⟩
    · rw [heq, ← hok.evicted_iff hd cursor, Except.bind_eq_error]
      simp [reject_eq_error, Except.pure_ne_error]
    · rw [heq, ← hok.filter_history hd hkept]
      simp only [Except.bind_eq_ok, reject_eq_ok, Except.pure_eq_ok]
      exact ⟨⟨⟩, fun hany => hkept ((hok.evicted_iff hd cursor).1 hany), trivial⟩

theorem correctedDeparture_replayed : ∃ s, journalRun oneTransition correctedDeparture = some s ∧
    s.engine.domainEventsSince 1 2 = .error .cursorExpired ∧
    s.engine.domainEventsSince 1 3 =
      .ok (((s.emittedBy 1).filter (3 < ·.transitionId)).map .ofTransition) := by
  obtain ⟨s, hs, d, hd, hval⟩ : ∃ s, journalRun oneTransition correctedDeparture = some s ∧
      ∃ d, s.engine.devices.get 1 = some d ∧
        (∃ t ∈ s.emittedBy 1, 2 < t.transitionId ∧ t ∉ d.history) ∧
        ¬∃ t ∈ s.emittedBy 1, 3 < t.transitionId ∧ t ∉ d.history := by decide +kernel
  obtain ⟨hexpired, -⟩ := (domainEventsSince_replays (reachable_journalRun hs) 1 2).2 d hd
  obtain ⟨-, hreplayed, -⟩ := (domainEventsSince_replays (reachable_journalRun hs) 1 3).2 d hd
  exact ⟨s, hs, hexpired.2 hval.1, hreplayed hval.2⟩

end Runs

end NeonHearth.Presence
