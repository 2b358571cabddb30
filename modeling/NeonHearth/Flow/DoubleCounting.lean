import NeonHearth.Flow.Rollups

/-!
# The rollups count no second twice

`NotDoubleCounted` : no emitted minute or hour exceeds the sum of its seconds.  A watermark between
two seconds retires the row of a second that stays open, and the next advance adds the second to
its parents again (`leftoverRun_doubleCounted`); every run that retires cleanly counts each second
once (`notDoubleCounted_of_retiresCleanly`).

`observe_once` : an accepted observation is not accepted again, when the replay ids live as long as
the correction windows.  A window opens with the event, which may lie in the future of its arrival,
and ends a second and the lateness after it; `FlowEngine.new` asks the replay ids to outlive the
lateness alone, and then the engine may forget an id inside the window (`forgottenReplay_counted`).
-/

namespace NeonHearth.Flow

open Option FlowEngine SortedMap DateTime

instance (a b : ByteCount) : Decidable (a ≤ b) := inferInstanceAs (Decidable (_ ∧ _))

/-- The change writes the row `k` with value `v`. -/
def RollupChange.Writes (k : RollupKey) (v : Value) (change : RollupChange) : Prop :=
  change = .upsert k v ∨ change = .correction k v

/-- No minute or hour that the changes write exceeds what the winning sources saw in its
seconds. -/
def NotDoubleCounted (st : FlowState) (changes : List RollupChange) : Prop :=
  ∀ k v, (∃ change ∈ changes, change.Writes k v) → k.resolution ≠ .second →
    v.bytes ≤ ∑ base ∈ k.seconds, bytesOf (st.accepted.winning st.engine.sources base)

/-- An advance evicts every open second whose row it retires. -/
def RetiresCleanly (st : FlowState) : FlowEvent → Prop
  | .observe _ => True
  | .advance next _ => ∀ entry ∈ st.engine.seconds.toList,
      retired entry.1.base.row next st.engine.cfg.lateness = true →
      (next.checkedSubSigned st.engine.cfg.lateness).all
        fun cutoff => entry.1.base.epoch + 1 < cutoff.timestamp

variable {st : FlowState}

theorem step_observe {st' o} (h : st.step (.observe o) = some st') :
    ∃ k engine, o.key st.engine.cfg = .ok k ∧ st.engine.observe o = .ok engine ∧
      st' = { st with engine := engine, accepted := st.accepted ++ [(k, o.bytes)] } := by
  simp only [FlowState.step] at h
  split at h
  · next k engine hk ho =>
    exact ⟨k, engine, hk, ho, (some.inj h).symm⟩
  · cases h

variable {next now : DateTime}

theorem step_advance {st'} (h : st.step (.advance next now) = some st') : ∃ changes engine,
      st.engine.advanceWatermarkAt next now = .ok (changes, engine) ∧
      st' = ⟨engine, st.accepted, st.accepted, changes.foldl applyChange st.durable⟩ := by
  simp only [FlowState.step] at h
  split at h
  · next changes engine ha => exact ⟨changes, engine, ha, (some.inj h).symm⟩
  · cases h

variable {engine engine' : FlowEngine}

theorem noLeftover_observe {o}
    (hno : engine.NoLeftover) (ho : engine.observe o = .ok engine') : engine'.NoLeftover := by
  obtain ⟨k, edge, -, -, hedge, hlate, hcfg, -, hw, -, hsec⟩ := observe_spec ho
  intro l hl
  have hret : engine'.isRetired l.base.row = engine.isRetired l.base.row := by
    simp [isRetired, hw, hcfg]
  rw [hret]
  rw [hsec, get_insert] at hl
  split at hl
  · next heq =>
    subst heq
    cases hwm : engine.watermark with
    | none => simp [isRetired, hwm]
    | some w => simpa [isRetired, hwm] using not_retired_of_lateEdge hedge (hlate w hwm)
  · exact hno l hl

variable {changes : List RollupChange}

theorem noLeftover_advance {engine'} (hg : RetiresCleanly st (.advance next now))
    (ha : Advanced st.engine next engine' changes) : engine'.NoLeftover := by
  obtain ⟨cutoff, hcut, hsec⟩ := ha.seconds
  intro k hk
  obtain ⟨bytes, hbytes⟩ := ne_none_iff_exists'.1 hk
  rw [hsec, SortedMap.get_filter, filter_eq_some_iff] at hbytes
  rw [isRetired_next ha]
  refine Bool.eq_false_iff.2 fun hret => ?_
  have hlt := hg (k, bytes) (mem_toList.2 hbytes.1) hret
  simp only [hcut, all_some, decide_eq_true_eq] at hlt
  exact absurd (of_decide_eq_true hbytes.2) (not_le.2 hlt)

/-- The caches agree with the ledger and no open second has lost its row. -/
theorem rollupInv_of_retiresCleanly (h : flowMachine.Via RetiresCleanly st) :
    RollupInv st ∧ st.engine.NoLeftover := by
  refine h.invariant (I := fun st => RollupInv st ∧ st.engine.NoLeftover) (fun st hst => ?_)
    fun st e st' ⟨hinv, hno⟩ hg hs => ?_
  · refine ⟨rollupInv_start hst, fun k hk => ?_⟩
    obtain ⟨cfg, registrations, engine, hnew, rfl⟩ := hst
    simp [(new_spec hnew).1] at hk
  cases e with
  | observe o =>
    obtain ⟨k, engine, hk, ho, rfl⟩ := step_observe hs
    exact ⟨hinv.observe hk ho, noLeftover_observe hno ho⟩
  | advance next now =>
    obtain ⟨changes, engine, ha, rfl⟩ := step_advance hs
    exact ⟨hinv.advance hno (advance_spec ha) _, noLeftover_advance hg (advance_spec ha)⟩

theorem get_of_writes {next} (ha : Advanced engine next engine' changes) {k} {v : Value}
    (h : ∃ change ∈ changes, change.Writes k v) : engine'.emitted.get k = some v := by
  obtain ⟨change, hmem, hwrites⟩ := h
  rw [ha.changes, List.mem_filterMap] at hmem
  obtain ⟨l, -, hl⟩ := hmem
  unfold rollupChange at hl
  split at hl
  · next hnew =>
    rw [some.injEq] at hl
    subst hl
    obtain heq | heq := hwrites <;> cases heq
    exact hnew
  · next hnew =>
    split_ifs at hl with hsame
    rw [some.injEq] at hl
    subst hl
    obtain heq | heq := hwrites <;> cases heq
    exact hnew
  · rw [some.injEq] at hl
    subst hl
    obtain heq | heq := hwrites <;> cases heq
  · cases hl

/-- **No double counting** in every run whose advances evict what they retire. -/
theorem notDoubleCounted_of_retiresCleanly {st : FlowState}
    (h : flowMachine.Via RetiresCleanly st) {next now : DateTime} {changes : List RollupChange}
    {engine' : FlowEngine} (ha : st.engine.advanceWatermarkAt next now = .ok (changes, engine')) :
    NotDoubleCounted st changes := by
  obtain ⟨hinv, hno⟩ := rollupInv_of_retiresCleanly h
  have hadv := advance_spec ha
  intro k v hwrites hres
  have hinv' := hinv.advance hno hadv st.durable
  -- a cached minute or hour is the sum over its seconds
  rw [(hinv'.parent_rows k.resolution hres).sum_eq (p := (k.bucket, k.dims)) (x := v.bytes)
    (by simp [rowBytes, get_of_writes hadv hwrites])]
  refine ByteCount.sum_le_sum fun base _ => ?_
  simp only [FlowState.reportedValue]
  split
  · rw [hadv.sources]
    exact ⟨le_rfl, le_rfl⟩
  · exact ⟨Nat.zero_le _, Nat.zero_le _⟩

/-! ### Replayed observations -/

variable {o o' : FlowObservation}

/-- What an accepted observation says about the clock and the replay ids. -/
theorem observe_replay (h : engine.observe o = .ok engine') : ∃ edge cutoff : DateTime,
    lateEdge engine.cfg.lateness o.eventTime.timestamp = some edge ∧ o.arrivalTime ≤ edge ∧
      o.eventTime.nanos ≤ o.arrivalTime.nanos + engine.cfg.futureSkew ∧
      (∀ last, engine.lastArrival = some last → last ≤ o.arrivalTime) ∧
      cutoff.nanos = o.arrivalTime.nanos - engine.cfg.replayTtl ∧
      (∀ entry, engine.replay.get o.replayId = some entry → entry.arrival < cutoff) ∧
      engine'.cfg = engine.cfg ∧ engine'.lastArrival = some o.arrivalTime ∧
      engine'.replay = (engine.replay.filter fun _ entry => cutoff ≤ entry.arrival).insert o.replayId
        ⟨o.arrivalTime, o.deviceId⟩ := by
  simp only [observe, Except.bind_eq_ok, Except.pure_eq_ok, reject_eq_ok, okOr_eq_ok] at h
  obtain ⟨_, -, _, -, _, -, _, hclock, future, hfuture, _, hskew, edge, hedge, _, hlate, _, -, cutoff,
    hcutoff, _, -, _, -, _, hreplay, _, -, _, -, _, -, _, -, _, -, rfl⟩ := h
  rw [checkedAddSigned_eq_some] at hfuture
  rw [not_lt, le_iff, hfuture] at hskew
  refine ⟨edge, cutoff, hedge, not_lt.1 hlate, hskew, fun last hlast => ?_,
    checkedSubSigned_eq_some.1 hcutoff, fun entry hentry => ?_, rfl, rfl, rfl⟩
  · simpa [hlast] using hclock
  · simpa [SortedMap.get_filter, hentry] using hreplay

/-- The clock is past the correction window of the observation, or its replay id is kept, with an
arrival that is not older.  The id lives to the end of the window. -/
def Counted (o : FlowObservation) (engine : FlowEngine) : Prop :=
  ∃ edge last, lateEdge engine.cfg.lateness o.eventTime.timestamp = some edge ∧
    edge.nanos ≤ o.arrivalTime.nanos + engine.cfg.replayTtl ∧ engine.lastArrival = some last ∧
    (edge < last ∨
      ∃ entry, engine.replay.get o.replayId = some entry ∧ o.arrivalTime ≤ entry.arrival)

/-- A later clock that keeps what is not older than the time to live. -/
theorem Counted.later (h : Counted o engine) (hcfg : engine'.cfg = engine.cfg) {now}
    (hnow : ∀ last, engine.lastArrival = some last → last ≤ now)
    (hlast : engine'.lastArrival = some now)
    (hkeep : ∀ entry, engine.replay.get o.replayId = some entry →
      now.nanos ≤ entry.arrival.nanos + engine.cfg.replayTtl →
      ∃ entry', engine'.replay.get o.replayId = some entry' ∧ entry.arrival ≤ entry'.arrival) :
    Counted o engine' := by
  obtain ⟨edge, last, hedge, hlive, hclock, hor⟩ := h
  rw [← hcfg] at hedge hlive hkeep
  refine ⟨edge, now, hedge, hlive, hlast, ?_⟩
  obtain hlt | ⟨entry, hentry, hle⟩ := hor
  · exact .inl (hlt.trans_le (hnow last hclock))
  by_cases hold : now.nanos ≤ entry.arrival.nanos + engine'.cfg.replayTtl
  · obtain ⟨entry', hentry', hle'⟩ := hkeep entry hentry hold
    exact .inr ⟨entry', hentry', hle.trans hle'⟩
  · -- the id is forgotten: the window is over
    rw [le_iff] at hle
    rw [lt_iff]
    exact .inl (by omega)

theorem counted_of_observe (h : engine.observe o = .ok engine')
    (httl : engine.cfg.lateness + engine.cfg.futureSkew + seconds 1 ≤ engine.cfg.replayTtl) :
    Counted o engine' := by
  obtain ⟨edge, cutoff, hedge, -, hskew, -, -, -, hcfg, hlast, hreplay⟩ := observe_replay h
  refine ⟨edge, _, hcfg ▸ hedge, ?_, hlast, .inr ⟨_, by rw [hreplay, get_insert_self], le_rfl⟩⟩
  have hedge := lateEdge_eq_some hedge
  rw [hcfg]
  simp only [timestamp, seconds] at *
  omega

theorem Counted.observe (h : Counted o engine) (ho : engine.observe o' = .ok engine') :
    Counted o engine' := by
  obtain ⟨edge, cutoff, -, -, -, hclock, hcutoff, hfresh, hcfg, hlast, hreplay⟩ := observe_replay ho
  refine h.later hcfg hclock hlast fun entry hentry hlive => ?_
  have hkept : cutoff ≤ entry.arrival := by
    rw [le_iff]
    omega
  by_cases hid : o.replayId = o'.replayId
  · exact absurd (hfresh entry (hid ▸ hentry)) (not_lt.2 hkept)
  · exact ⟨entry, by simp [hreplay, SortedMap.get_insert_of_ne _ _ hid, SortedMap.get_filter, hentry,
      hkept], le_rfl⟩

theorem Counted.advance (h : Counted o engine)
    (ha : engine.advanceWatermarkAt next now = .ok (changes, engine')) : Counted o engine' := by
  simp only [advanceWatermarkAt, Except.bind_eq_ok, Except.pure_eq_ok, reject_eq_ok, okOr_eq_ok] at ha
  obtain ⟨_, -, _, hclock, _, -, _, -, _, -, _, -, _, -, _, -, _, -, _, -, _, -, cutoff, hcutoff, hend⟩ :=
    ha
  cases hend
  rw [checkedSubSigned_eq_some] at hcutoff
  refine h.later rfl (fun last hlast => by simpa [hlast] using hclock) rfl fun entry hentry hlive => ?_
  have hkept : cutoff ≤ entry.arrival := by
    rw [le_iff]
    omega
  exact ⟨entry, by simp [SortedMap.get_filter, hentry, hkept], le_rfl⟩

theorem Counted.rejects (h : Counted o engine) (hid : o'.replayId = o.replayId)
    (htime : o'.eventTime = o.eventTime) : ∃ e, engine.observe o' = .error e := by
  cases ho : engine.observe o' with
  | error e => exact ⟨e, rfl⟩
  | ok engine' =>
    obtain ⟨edge', cutoff, hedge', hle, -, hclock, hcutoff, hfresh, -⟩ := observe_replay ho
    obtain ⟨edge, last, hedge, hlive, hlast, hor⟩ := h
    obtain rfl := some.inj (hedge'.symm.trans (htime ▸ hedge))
    obtain hlt | ⟨entry, hentry, harrival⟩ := hor
    · exact absurd ((hclock last hlast).trans hle) (not_le.2 hlt)
    · have hold := hfresh entry (hid ▸ hentry)
      rw [lt_iff] at hold
      rw [le_iff] at hle harrival
      omega

/-- **A replayed observation is rejected** after every run, when the replay ids live as long as the
correction windows. -/
theorem observe_once {st st' st'' : FlowState} {events : List FlowEvent}
    (httl : st.engine.cfg.lateness + st.engine.cfg.futureSkew + seconds 1 ≤ st.engine.cfg.replayTtl)
    (h : flowMachine.step st (.observe o) = some st') (hrun : flowMachine.exec st' events = some st'')
    (hid : o'.replayId = o.replayId) (htime : o'.eventTime = o.eventTime) :
    ∃ e, st''.engine.observe o' = .error e := by
  obtain ⟨k, engine, -, ho, rfl⟩ := step_observe h
  refine Counted.rejects ?_ hid htime
  refine Machine.exec_invariant (I := fun st => Counted o st.engine) (fun st e st' hc _ hs => ?_)
    (counted_of_observe ho httl) (Machine.guarded_true _ events) hrun
  cases e with
  | observe o₁ =>
    obtain ⟨_, _, -, ho₁, rfl⟩ := step_observe hs
    exact hc.observe ho₁
  | advance next now =>
    obtain ⟨_, _, ha, rfl⟩ := step_advance hs
    exact hc.advance ha

/-! ### Sample runs -/

/-- An upload seen by a source of a device when it happens. -/
def sampleUpload (id : ReplayId) (time : DateTime) (source : FlowSourceId) (upload : ℕ) :
    FlowObservation :=
  ⟨id, time, time, 1, upload, 0, .tcp, .internet, 1, source, none⟩

/-- An advance to an instant at that instant. -/
def advanceTo (n : Fin 20000) : FlowEvent := .advance (halfSecond n) (halfSecond n)

/-- A run of an engine with the default configuration. -/
def sampleRun (registrations : List SourceRegistration) (events : List FlowEvent) :
    Option FlowState :=
  (new .default registrations).toOption.bind fun engine =>
    flowMachine.exec ⟨engine, [], [], ∅⟩ events

theorem via_sampleRun {G} [∀ st e, Decidable (G st e)] {registrations events}
    (h : sampleRun registrations events = some st)
    (hg : (new .default registrations).toOption.all fun engine =>
      flowMachine.Guarded G ⟨engine, [], [], ∅⟩ events) : flowMachine.Via G st :=
  .of_bind (fun engine hengine => ⟨_, _, engine, Except.toOption_eq_some.1 hengine, rfl⟩) h hg

instance (st : FlowState) (e : FlowEvent) : Decidable (RetiresCleanly st e) := by
  cases e <;> unfold RetiresCleanly <;> infer_instance

/-- The row of the first minute of the sample device. -/
def sampleMinute : RollupKey := ⟨.minute, 0, 1, .tcp, .internet, 1, none⟩

/-- A second is closed and corrected until its correction window ends with the watermark. -/
def cleanRun : List FlowEvent :=
  [.observe (sampleUpload 1 (halfSecond 20) 1 100), advanceTo 22,
    .observe ⟨2, halfSecond 21, halfSecond 24, 1, 11, 0, .tcp, .internet, 1, 1, none⟩,
    advanceTo 32, .observe (sampleUpload 3 (halfSecond 38) 1 7)]

theorem cleanRun_notDoubleCounted :
    ∃ st changes engine, sampleRun [⟨1, .gateway⟩] cleanRun = some st ∧
      st.engine.advanceWatermarkAt (halfSecond 40) (halfSecond 40) = .ok (changes, engine) ∧
      .correction sampleMinute ⟨⟨118, 0⟩, .complete⟩ ∈ changes ∧ NotDoubleCounted st changes := by
  obtain ⟨st, hst, ⟨changes, engine⟩, hadv, hmem⟩ :
      ∃ st, sampleRun [⟨1, .gateway⟩] cleanRun = some st ∧
        ∃ r, st.engine.advanceWatermarkAt (halfSecond 40) (halfSecond 40) = .ok r ∧
          .correction sampleMinute ⟨⟨118, 0⟩, .complete⟩ ∈ r.1 := by decide +kernel
  exact ⟨st, changes, engine, hst, hadv, hmem,
    notDoubleCounted_of_retiresCleanly (via_sampleRun hst (by decide +kernel)) hadv⟩

/-- A watermark half a second after the end of a correction window retires the row of the second
and leaves the second open. -/
def leftoverRun : List FlowEvent :=
  [.observe (sampleUpload 1 (halfSecond 20) 1 100), advanceTo 22, advanceTo 33]

/-- The next advance adds the second to its minute and its hour a second time. -/
theorem leftoverRun_doubleCounted :
    ∃ st changes engine, sampleRun [⟨1, .gateway⟩] leftoverRun = some st ∧
      st.engine.advanceWatermarkAt (halfSecond 34) (halfSecond 34) = .ok (changes, engine) ∧
      .correction sampleMinute ⟨⟨200, 0⟩, .complete⟩ ∈ changes ∧ ¬NotDoubleCounted st changes := by
  obtain ⟨st, hst, ⟨changes, engine⟩, hadv, hmem, hsum⟩ :
      ∃ st, sampleRun [⟨1, .gateway⟩] leftoverRun = some st ∧
        ∃ r, st.engine.advanceWatermarkAt (halfSecond 34) (halfSecond 34) = .ok r ∧
          .correction sampleMinute ⟨⟨200, 0⟩, .complete⟩ ∈ r.1 ∧
          ∑ base ∈ sampleMinute.seconds, bytesOf (st.accepted.winning st.engine.sources base) =
            ⟨100, 0⟩ := by decide +kernel
  refine ⟨st, changes, engine, hst, hadv, hmem, fun h => ?_⟩
  have hle := h sampleMinute _ ⟨_, hmem, .inr rfl⟩ (by decide)
  rw [hsum] at hle
  exact absurd hle (by decide)

/-- The upload of the sample device at the tenth second, with a later arrival. -/
def replayedUpload (arrival : Fin 20000) : FlowObservation :=
  { sampleUpload 1 (halfSecond 20) 1 100 with arrivalTime := halfSecond arrival }

/-- Two seconds after the upload was accepted, and after an advance, it is rejected. -/
theorem replayedUpload_rejected : ∃ st st' st'' e, sampleRun [⟨1, .gateway⟩] [] = some st ∧
    flowMachine.step st (.observe (replayedUpload 20)) = some st' ∧
      flowMachine.exec st' [advanceTo 22] = some st'' ∧
      st''.engine.observe (replayedUpload 24) = .error e := by
  obtain ⟨st, hst, st', hst', st'', hst'', httl⟩ : ∃ st, sampleRun [⟨1, .gateway⟩] [] = some st ∧
      ∃ st', flowMachine.step st (.observe (replayedUpload 20)) = some st' ∧
        ∃ st'', flowMachine.exec st' [advanceTo 22] = some st'' ∧ st.engine.cfg.lateness +
          st.engine.cfg.futureSkew + seconds 1 ≤ st.engine.cfg.replayTtl := by decide +kernel
  obtain ⟨e, he⟩ : ∃ e, st''.engine.observe (replayedUpload 24) = .error e :=
    observe_once httl hst' hst'' rfl rfl
  exact ⟨st, st', st'', e, hst, hst', hst'', he⟩

/-- With replay ids that live as long as the lateness, the upload is counted again when it arrives six
seconds after its event. -/
theorem forgottenReplay_counted : ∃ engine engine' engine'',
    new { FlowEngineConfig.default with replayTtl := seconds 5 } [⟨1, .gateway⟩] = .ok engine ∧
      engine.observe (replayedUpload 20) = .ok engine' ∧
      engine'.observe (replayedUpload 32) = .ok engine'' ∧
      engine''.seconds.get ⟨⟨10, 1, .tcp, .internet, 1, none⟩, 1⟩ = some ⟨200, 0⟩ := by
  simp only [exists_and_left]
  decide +kernel

end NeonHearth.Flow
