import NeonHearth.Flow.Advance
import NeonHearth.System.Machine

/-!
# The rows the engine caches

A run of the flow engine with the ledger of its accepted observations and the durable rows that
its changes are applied to.  `RollupInv` says that the caches agree with the ledger: an open second
has the sums of its sources, a cached second row is the winner's count, and a cached minute or hour
is the sum over its seconds.

* `RollupInv.observe` and `RollupInv.advance` are its step lemmas; an advance keeps the invariant
  when no open second has lost its cached row (`NoLeftover`).
-/

namespace NeonHearth.Flow

open SortedMap Option RollupKey FlowEngine DateTime Function Ledger

/-! ### Seconds and rows at the watermark -/

namespace FlowEngine

variable (engine : FlowEngine)

/-- The second is over at the engine's watermark. -/
def closed (base : SecondKey) : Bool := engine.watermark.any fun w => base.epoch + 1 ≤ w.timestamp

/-- The correction window of the row is over at the engine's watermark. -/
def isRetired (k : RollupKey) : Bool :=
  engine.watermark.any fun w => retired k w engine.cfg.lateness

/-- The second has left the open seconds at the engine's watermark. -/
def evicted (base : SecondKey) : Bool :=
  engine.watermark.any fun w =>
    (w.checkedSubSigned engine.cfg.lateness).any fun cutoff => base.epoch + 1 < cutoff.timestamp

/-- No open second has lost its cached row. -/
def NoLeftover : Prop :=
  ∀ k, engine.seconds.get k ≠ none → engine.isRetired k.base.row = false

end FlowEngine

variable {w next : DateTime} {lateness : ℤ} {base : SecondKey} {res : Resolution}
  {engine engine' : FlowEngine} {rows rows' : SortedMap RollupKey Value} {v : Value}
  {val : SecondKey → Option Value} {selected : SortedMap SecondKey Value}
  {changes : List RollupChange} {k : RollupKey}

theorem retired_iff :
    retired k w lateness = true ↔ ∃ b e f : DateTime, b.nanos = seconds k.bucket ∧
      e.nanos = b.nanos + seconds k.resolution.width ∧ f.nanos = e.nanos + lateness ∧
      f.nanos < w.nanos := by
  simp only [retired, any_eq_true, bind_eq_some_iff, decide_eq_true_eq,
    checkedAddSigned_eq_some, fromTimestamp_eq_some, lt_iff]
  constructor
  · rintro ⟨f, ⟨e, ⟨b, hb, he⟩, hf⟩, hlt⟩
    exact ⟨b, e, f, hb, he, hf, hlt⟩
  · rintro ⟨b, e, f, hb, he, hf, hlt⟩
    exact ⟨f, ⟨e, ⟨b, hb, he⟩, hf⟩, hlt⟩

/-- A retired minute or hour has only retired seconds. -/
theorem retired_row_of_parent (hl : 0 ≤ lateness)
    (h : retired (base.parent res) w lateness = true) : retired base.row w lateness = true := by
  obtain ⟨b, e, f, hb, he, hf, hlt⟩ := retired_iff.1 h
  have hle := bucketOf_le res base.epoch
  have hub := lt_bucketOf_add res base.epoch
  simp only [SecondKey.parent, seconds] at hb he
  have hbmin := b.min_le
  have hemax := e.lt_max
  have hfmax := f.lt_max
  simp only [seconds] at hbmin hemax hfmax
  refine retired_iff.2 ⟨⟨seconds base.epoch, ?_, ?_⟩, ⟨seconds (base.epoch + 1), ?_, ?_⟩,
    ⟨seconds (base.epoch + 1) + lateness, ?_, ?_⟩, rfl, ?_, rfl, ?_⟩
  all_goals simp only [seconds, SecondKey.row, Resolution.width]
  all_goals omega

theorem closed_of_retired (hl : 0 ≤ lateness) (h : retired base.row w lateness = true) :
    base.Closed w := by
  obtain ⟨b, e, f, hb, he, hf, hlt⟩ := retired_iff.1 h
  simp only [SecondKey.row, seconds, Resolution.width] at hb he
  simp only [SecondKey.Closed, timestamp]
  omega

theorem retired_mono {w'} (hle : w ≤ w') (h : retired k w lateness = true) :
    retired k w' lateness = true := by
  obtain ⟨b, e, f, hb, he, hf, hlt⟩ := retired_iff.1 h
  exact retired_iff.2 ⟨b, e, f, hb, he, hf, hlt.trans_le (le_iff.1 hle)⟩

theorem lateEdge_eq_some {epoch : ℤ} {edge} (h : lateEdge lateness epoch = some edge) :
    edge.nanos = seconds (epoch + 1) + lateness := by
  obtain ⟨t, ht, hedge⟩ := bind_eq_some_iff.1 h
  rw [checkedAddSigned_eq_some.1 hedge, fromTimestamp_eq_some.1 ht]

/-- An observation inside its correction window does not fall into an evicted second. -/
theorem not_evicted_of_lateEdge {epoch : ℤ} {edge cutoff}
    (hedge : lateEdge lateness epoch = some edge) (hw : w ≤ edge)
    (hc : w.checkedSubSigned lateness = some cutoff) : ¬epoch + 1 < cutoff.timestamp := by
  have hedge := lateEdge_eq_some hedge
  rw [checkedSubSigned_eq_some] at hc
  rw [le_iff] at hw
  simp only [timestamp, seconds] at *
  omega

/-- An observation inside its correction window does not fall into a retired second. -/
theorem not_retired_of_lateEdge {edge} (hedge : lateEdge lateness base.epoch = some edge)
    (hw : w ≤ edge) : retired base.row w lateness = false := by
  refine Bool.eq_false_iff.2 fun h => ?_
  obtain ⟨b, e, f, hb, he, hf, hlt⟩ := retired_iff.1 h
  have hedge := lateEdge_eq_some hedge
  rw [le_iff] at hw
  simp only [SecondKey.row, seconds, Resolution.width] at *
  omega

/-! ### Runs -/

/-- Applies a change to the durable rows: a retirement concerns the cache only. -/
def applyChange (durable : SortedMap RollupKey Value) : RollupChange → SortedMap RollupKey Value
  | .upsert k v | .correction k v => durable.insert k v
  | .retire _ _ => durable

/-- An engine with its ledger and the durable rows. -/
structure FlowState where
  engine : FlowEngine
  /-- The observations accepted so far. -/
  accepted : Ledger
  /-- The observations accepted before the last advance. -/
  reported : Ledger
  /-- The rows after all changes returned so far. -/
  durable : SortedMap RollupKey Value

/-- The calls of the engine. -/
inductive FlowEvent where
  | observe (o : FlowObservation)
  | advance (next now : DateTime)

namespace FlowState

variable (st : FlowState)

/-- A successful call. -/
def step : FlowEvent → Option FlowState
  | .observe o =>
    match o.key st.engine.cfg, st.engine.observe o with
    | .ok k, .ok engine =>
      some { st with engine := engine, accepted := st.accepted ++ [(k, o.bytes)] }
    | _, _ => none
  | .advance next now =>
    match st.engine.advanceWatermarkAt next now with
    | .ok (changes, engine) =>
      some ⟨engine, st.accepted, st.accepted, changes.foldl applyChange st.durable⟩
    | .error _ => none

/-- The value of a second as of the last advance. -/
def reportedValue (base : SecondKey) : Option Value :=
  if st.engine.closed base then st.reported.winning st.engine.sources base else none

end FlowState

/-- All runs of successful calls from a new engine. -/
def flowMachine : Machine FlowState FlowEvent where
  init st := ∃ cfg registrations engine, new cfg registrations = .ok engine ∧
    st = ⟨engine, [], [], ∅⟩
  step := FlowState.step

/-- The bytes of the rows of one resolution. -/
def rowBytes (rows : SortedMap RollupKey Value) (res : Resolution) (p : ℤ × Dimensions) :
    Option ByteCount := (rows.get ⟨res, p.1, p.2⟩).map Value.bytes

/-- The minutes and the hours have the sums of the seconds in `val`. -/
def ParentRows (live : RollupKey → Prop) (rows : SortedMap RollupKey Value)
    (val : SecondKey → Option Value) : Prop :=
  ∀ res, res ≠ .second → (rollups res).Tracks (fun p => live ⟨res, p.1, p.2⟩) (rowBytes rows res)
    fun base => (val base).map Value.bytes

/-- The caches of the engine agree with the ledger. -/
structure RollupInv (st : FlowState) : Prop where
  seconds_get : ∀ k, st.engine.seconds.get k =
    if st.engine.evicted k.base then none else st.accepted.opened k
  late : ∀ base, st.engine.evicted base ∨ st.engine.isRetired base.row →
    ∀ s, st.accepted.opened ⟨base, s⟩ = st.reported.opened ⟨base, s⟩
  grown : ∀ k, st.reported.opened k ≠ none → st.accepted.opened k ≠ none
  second_row : ∀ base, st.engine.emitted.get base.row =
    if st.engine.isRetired base.row then none else st.reportedValue base
  parent_rows : ParentRows (fun k => st.engine.isRetired k = false) st.engine.emitted
    st.reportedValue

theorem new_spec {cfg registrations} (h : new cfg registrations = .ok engine) :
    engine.seconds = ∅ ∧ engine.emitted = ∅ ∧ engine.watermark = none ∧ engine.cfg = cfg := by
  unfold new at h
  split at h
  · simp only [Except.bind_eq_ok, Except.pure_eq_ok] at h
    obtain ⟨_, -, _, -, _, -, rfl⟩ := h
    exact ⟨rfl, rfl, rfl, rfl⟩
  · cases h

variable {st : FlowState}

open FlowState

theorem rollupInv_start (h : flowMachine.init st) : RollupInv st := by
  obtain ⟨cfg, registrations, engine, hnew, rfl⟩ := h
  obtain ⟨hsec, hem, hw, -⟩ := new_spec hnew
  have hval : ∀ base, reportedValue ⟨engine, [], [], ∅⟩ base = none := fun base => by
    simp [reportedValue, closed, hw]
  refine ⟨fun k => ?_, fun _ _ _ => rfl, fun k hk => (hk rfl).elim, fun base => ?_, fun res _ => ?_⟩
  · simp [hsec, opened]
  · simp [hem, hval]
  · refine ⟨fun hx => ?_, fun hx => ?_, fun hx => ?_⟩
    · simp [rowBytes, hem] at hx
    · simp [rowBytes, hem] at hx
    · simp [hval] at hx

theorem reportedValue_congr {st' : FlowState} (hw : st'.engine.watermark = st.engine.watermark)
    (hs : st'.engine.sources = st.engine.sources) (hr : st'.reported = st.reported) :
    st'.reportedValue = st.reportedValue := by
  funext base
  rw [reportedValue, reportedValue, closed, closed, hw, hs, hr]

/-- **An accepted observation** keeps the caches in agreement with the ledger. -/
theorem RollupInv.observe (h : RollupInv st) {o k}
    (hk : o.key st.engine.cfg = .ok k) (ho : st.engine.observe o = .ok engine) :
    RollupInv { st with engine := engine, accepted := st.accepted ++ [(k, o.bytes)] } := by
  obtain ⟨k', edge, hk', -, hedge, hlate, hcfg, hsources, hw, hem, hsec⟩ := observe_spec ho
  obtain rfl : k = k' := by rw [hk] at hk'; exact Except.ok.inj hk'
  have hevict : ∀ base, engine.evicted base = st.engine.evicted base := fun base => by
    simp only [evicted, hw, hcfg]
  have hretire : ∀ l, engine.isRetired l = st.engine.isRetired l := fun l => by
    simp only [isRetired, hw, hcfg]
  -- the second of the observation is neither evicted nor retired
  have hopen : ¬st.engine.evicted k.base ∧ ¬st.engine.isRetired k.base.row := by
    cases hwm : st.engine.watermark with
    | none => simp [evicted, isRetired, hwm]
    | some w =>
      have hle := hlate w hwm
      simp only [evicted, isRetired, hwm, any_some,
        any_eq_true, not_exists, not_and, decide_eq_true_eq]
      exact ⟨fun cutoff hc => not_evicted_of_lateEdge hedge hle hc,
        by simpa using not_retired_of_lateEdge hedge hle⟩
  have hval : reportedValue
      { st with engine := engine, accepted := st.accepted ++ [(k, o.bytes)] } = st.reportedValue :=
    reportedValue_congr hw hsources rfl
  refine ⟨fun l => ?_, fun base hbase s => ?_, fun l hl => ?_, fun base => ?_, ?_⟩
  · rw [hsec, get_insert, hevict, opened_append]
    by_cases hl : l = k
    · subst hl
      simp only [if_true, h.seconds_get l]
      rw [if_neg hopen.1, if_neg hopen.1]
    · simp only [hl, if_false]
      exact h.seconds_get l
  · rw [hevict, hretire] at hbase
    rw [opened_append, if_neg]
    · exact h.late base hbase s
    · rintro rfl
      exact hbase.elim hopen.1 hopen.2
  · rw [opened_append]
    split
    · simp
    · exact h.grown l hl
  · rw [hval, hretire, hem]
    exact h.second_row base
  · rw [hval]
    simp only [hretire, hem]
    exact h.parent_rows

/-! ### The closing loop keeps the sums -/

theorem map_bytes_update :
    (fun b => (Function.update val base (some v) b).map Value.bytes) =
      Function.update (fun b => (val b).map Value.bytes) base (some v.bytes) := by
  funext b
  by_cases hb : b = base
  · subst hb; simp
  · simp [hb]

/-- The rows in the middle of the closing loop: `val` holds the revised values of the seconds the
loop has passed and the reported values of the others. -/
structure LoopInv (retired : RollupKey → Bool) (rows : SortedMap RollupKey Value)
    (val : SecondKey → Option Value) : Prop where
  second_row : ∀ base, rows.get base.row = if retired base.row then none else val base
  parent_rows : ParentRows (fun k => retired k = false) rows val

theorem get_insert_other {l} (h : k.resolution ≠ l.resolution) :
    (rows.insert l v).get k = rows.get k :=
  get_insert_of_ne _ _ fun heq => h (congrArg resolution heq)

/-- A pass of the closing loop sets the row of its second. -/
theorem get_row_closeSecond (hc : closeSecond rows (base, v) = .ok rows') (b) :
    rows'.get b.row = if b = base then some v else rows.get b.row := by
  have hrow : b.row = base.row ↔ b = base :=
    ⟨fun h => SecondKey.ext (congrArg bucket h) (congrArg dims h), congrArg _⟩
  obtain ⟨hsame, rfl⟩ | ⟨-, minutes, hmin, hhour⟩ := closeSecond_spec hc
  · split
    · next hb => rw [hb, hsame]
    · rfl
  · obtain ⟨p, rfl, -⟩ := adjustParent_spec hmin
    obtain ⟨q, rfl, -⟩ := adjustParent_spec hhour
    rw [get_insert_other (by nofun), get_insert_other (by nofun), get_insert]
    simp only [hrow]

/-- A pass that revises its second adjusts the minute and the hour, and no other row. -/
theorem get_parent_closeSecond (hres : res ≠ .second) (hne : rows.get base.row ≠ some v)
    (hc : closeSecond rows (base, v) = .ok rows') : ∃ p,
      rows'.get (base.parent res) = some p ∧
      (∀ k : RollupKey, k.resolution = res → k ≠ base.parent res → rows'.get k = rows.get k) ∧
      p.bytes + bytesOf (rows.get base.row) = bytesOf (rows.get (base.parent res)) + v.bytes ∧
      p.coverage = mergeCoverage
        (((rows.get (base.parent res)).map Value.coverage).getD v.coverage) v.coverage := by
  obtain ⟨hsame, -⟩ | ⟨-, minutes, hmin, hhour⟩ := closeSecond_spec hc
  · exact (hne hsame).elim
  obtain ⟨p, rfl, hp⟩ := adjustParent_spec hmin
  obtain ⟨q, rfl, hq⟩ := adjustParent_spec hhour
  have hinsert : ∀ k : RollupKey, k.resolution = res → (rows.insert base.row v).get k = rows.get k :=
    fun k hk => get_insert_other fun h => hres (hk.symm.trans h)
  cases res with
  | second => exact (hres rfl).elim
  | minute =>
    rw [hinsert _ rfl] at hp
    refine ⟨p, ?_, fun k hk hne => ?_, hp⟩
    · rw [get_insert_other (by nofun), get_insert_self]
    · rw [get_insert_other (by rw [hk]; nofun), get_insert_of_ne _ _ hne, hinsert k hk]
  | hour =>
    rw [get_insert_other (by nofun), hinsert _ rfl] at hq
    refine ⟨q, get_insert_self .., fun k hk hne => ?_, hq⟩
    rw [get_insert_of_ne _ _ hne, get_insert_other (by rw [hk]; nofun), hinsert k hk]

theorem rowBytes_closeSecond (hres : res ≠ .second) (hne : rows.get base.row ≠ some v)
    (hc : closeSecond rows (base, v) = .ok rows') : ∃ x, rowBytes rows' res =
        Function.update (rowBytes rows res) ((rollups res).parentOf base) (some x) ∧
      x + bytesOf (rows.get base.row) =
        (rowBytes rows res ((rollups res).parentOf base)).getD 0 + v.bytes := by
  obtain ⟨p, hself, hother, hbytes, -⟩ := get_parent_closeSecond hres hne hc
  refine ⟨p.bytes, funext fun x => ?_, hbytes⟩
  by_cases hx : x = (rollups res).parentOf base
  · subst hx
    rw [update_self]
    exact congrArg (Option.map Value.bytes) hself
  · rw [update_of_ne hx, rowBytes, rowBytes, hother _ rfl]
    intro h
    exact hx (Prod.ext (congrArg bucket h) (congrArg dims h))

theorem LoopInv.closeSecond {retired} (h : LoopInv retired rows val)
    (hlive : ∀ res, retired (base.parent res) = false) (hrow : retired base.row = false)
    (hc : closeSecond rows (base, v) = .ok rows') :
    LoopInv retired rows' (Function.update val base (some v)) := by
  have hold : rows.get base.row = val base := by rw [h.second_row, hrow]; rfl
  refine ⟨fun b => ?_, fun res hres => ?_⟩
  · rw [get_row_closeSecond hc, update_apply]
    split
    · next hb => simp [hb, hrow]
    · exact h.second_row b
  · obtain ⟨hsame, rfl⟩ | ⟨hne, -⟩ := closeSecond_spec hc
    · -- nothing changes when the row has the value already
      rw [← hsame, hold, update_eq_self]
      exact h.parent_rows res hres
    · obtain ⟨x, hx, hbytes⟩ := rowBytes_closeSecond hres hne hc
      rw [hx, map_bytes_update]
      exact (h.parent_rows res hres).revise (hlive res) (hold ▸ hbytes)

/-- The values after the loop has passed the seconds in `done`. -/
def revised (selected : SortedMap SecondKey Value) (val : SecondKey → Option Value)
    (done : List (SecondKey × Value)) (base : SecondKey) : Option Value :=
  if base ∈ done.map Prod.fst then selected.get base else val base

theorem revised_append {done} (h : selected.get base = some v) :
    revised selected val (done ++ [(base, v)]) =
      Function.update (revised selected val done) base (some v) := by
  funext b
  by_cases hb : b = base
  · subst hb
    simp [revised, h]
  · have hmem : b ∈ (done ++ [(base, v)]).map Prod.fst ↔ b ∈ done.map Prod.fst := by
      rw [List.map_append, List.mem_append]
      simp [hb]
    simp only [revised, hmem, update_of_ne hb]

theorem revised_toList :
    revised selected val selected.toList = fun base => (selected.get base).or (val base) := by
  funext base
  rw [revised]
  split
  · next hmem =>
    obtain ⟨v, hv⟩ := ne_none_iff_exists'.1 (mem_keys.1 hmem)
    rw [hv, some_or]
  · next hmem =>
    rw [mem_keys, not_not] at hmem
    rw [hmem, none_or]

theorem LoopInv.loop {retired closed} (h : LoopInv retired rows val)
    (hlive : ∀ base, selected.get base ≠ none →
      retired base.row = false ∧ ∀ res, retired (base.parent res) = false)
    (hloop : selected.toList.foldlM Flow.closeSecond rows = .ok closed) :
    LoopInv retired closed fun base => (selected.get base).or (val base) := by
  rw [← revised_toList]
  refine foldlM_invariant (I := fun done rows => LoopInv retired rows (revised selected val done))
    hloop h fun done entry rest b b' hl hI hb => ?_
  obtain ⟨base, v⟩ := entry
  have hget : selected.get base = some v := SortedMap.mem_toList.1 (by simp [hl])
  obtain ⟨hrow, hparents⟩ := hlive base (by simp [hget])
  rw [revised_append hget]
  exact hI.closeSecond hparents hrow hb

/-! ### An advance of the watermark -/

section

variable (ha : Advanced engine next engine' changes)
include ha

theorem retired_of_isRetired
    (h : engine.isRetired k = true) : retired k next engine.cfg.lateness = true := by
  obtain ⟨w, hw, hr⟩ := any_eq_true _ _ |>.1 h
  exact retired_mono (ha.monotone w hw) hr

theorem isRetired_next (k) : engine'.isRetired k = retired k next engine.cfg.lateness := by
  simp [isRetired, ha.watermark, ha.cfg]

theorem closed_next (base) : engine'.closed base = true ↔ base.Closed next := by
  simp [closed, ha.watermark, SecondKey.Closed]

theorem closed_mono (h : engine.closed base = true) : base.Closed next := by
  obtain ⟨w, hw, hc⟩ := any_eq_true _ _ |>.1 h
  exact (of_decide_eq_true hc).trans (timestamp_mono (ha.monotone w hw))

end

theorem closed_of_engine_evicted (h : engine.evicted base = true) : engine.closed base = true := by
  obtain ⟨w, hw, hc⟩ := any_eq_true _ _ |>.1 h
  obtain ⟨cutoff, hcut, hlt⟩ := any_eq_true _ _ |>.1 hc
  have hlateness := engine.cfg_valid.lateness
  rw [checkedSubSigned_eq_some] at hcut
  have hlt := of_decide_eq_true hlt
  simp only [closed, hw, any_some]
  refine decide_eq_true ?_
  simp only [timestamp] at *
  omega

/-- The winner of a second that is closed and not evicted is selected. -/
theorem RollupInv.selected_iff (h : RollupInv st)
    (hsel : selectSeconds st.engine.seconds st.engine.sources next = .ok selected) {base}
    (hev : ¬st.engine.evicted base = true) (v) : selected.get base = some v ↔
      base.Closed next ∧ st.accepted.winning st.engine.sources base = some v := by
  have hsaw : (fun s => st.engine.seconds.get ⟨base, s⟩) =
      fun s => st.accepted.opened ⟨base, s⟩ := by
    funext s
    rw [h.seconds_get, if_neg hev]
  rw [selectSeconds_spec hsel, hsaw, winning_eq_some]

/-- The values as of an advance: the selected ones, and the reported ones for the rest. -/
theorem RollupInv.selected_or (h : RollupInv st) (ha : Advanced st.engine next engine' changes)
    (hsel : selectSeconds st.engine.seconds st.engine.sources next = .ok selected) (base) :
    (selected.get base).or (st.reportedValue base) =
      if engine'.closed base then st.accepted.winning st.engine.sources base else none := by
  by_cases hev : st.engine.evicted base = true
  · -- an evicted second is not selected any more, and nothing was accepted for it since
    have hnone : selected.get base = none := by
      refine eq_none_iff_forall_ne_some.2 fun v hv => ?_
      obtain ⟨-, s, bytes, hs, -, -⟩ := (selectSeconds_spec hsel base v).1 hv
      simp [h.seconds_get, hev] at hs
    have hclosed := closed_of_engine_evicted hev
    rw [hnone, none_or, reportedValue, if_pos hclosed,
      if_pos ((closed_next ha base).2 (closed_mono ha hclosed))]
    exact (winning_congr (h.late base (.inl hev))).symm
  · have hspec := h.selected_iff hsel hev
    by_cases hcl : base.Closed next
    · rw [if_pos ((closed_next ha base).2 hcl)]
      have heq : selected.get base = st.accepted.winning st.engine.sources base :=
        Option.ext fun v => by simp [hspec v, hcl]
      rw [heq]
      cases hw : st.accepted.winning st.engine.sources base with
      | some v => rw [some_or]
      | none =>
        -- an unseen second has not been reported either
        rw [none_or, reportedValue]
        split
        · rw [winning_eq_none] at hw ⊢
          exact fun s => by_contra fun hne => h.grown _ hne (hw s)
        · rfl
    · rw [if_neg (fun h => hcl ((closed_next ha base).1 h))]
      have hnone : selected.get base = none :=
        eq_none_iff_forall_ne_some.2 fun v hv => hcl ((hspec v).1 hv).1
      rw [hnone, none_or, reportedValue, if_neg]
      exact fun hc => hcl (closed_mono ha hc)

theorem evicted_next (ha : Advanced engine next engine' changes) {cutoff}
    (hc : next.checkedSubSigned engine.cfg.lateness = some cutoff) (base) :
    engine'.evicted base = true ↔ base.epoch + 1 < cutoff.timestamp := by
  simp [evicted, ha.watermark, ha.cfg, hc]

theorem evicted_mono (ha : Advanced engine next engine' changes) (h : engine.evicted base = true) :
    engine'.evicted base = true := by
  obtain ⟨cutoff, hcut, -⟩ := ha.seconds
  obtain ⟨w, hw, hc⟩ := any_eq_true _ _ |>.1 h
  obtain ⟨cutoff', hcut', hlt⟩ := any_eq_true _ _ |>.1 hc
  refine (evicted_next ha hcut base).2 ((of_decide_eq_true hlt).trans_le ?_)
  refine timestamp_mono (le_iff.2 ?_)
  have hmono := le_iff.1 (ha.monotone w hw)
  rw [checkedSubSigned_eq_some] at hcut hcut'
  omega

/-- A selected second has not lost its row, so none of its rows is retired. -/
theorem live_of_selected (hno : engine.NoLeftover)
    (hsel : selectSeconds engine.seconds engine.sources next = .ok selected)
    (hbase : selected.get base ≠ none) :
    engine.isRetired base.row = false ∧ ∀ res, engine.isRetired (base.parent res) = false := by
  obtain ⟨v, hv⟩ := ne_none_iff_exists'.1 hbase
  obtain ⟨-, s, bytes, hs, -, -⟩ := (selectSeconds_spec hsel base v).1 hv
  have hrow := hno ⟨base, s⟩ (by simp [hs])
  refine ⟨hrow, fun res => Bool.eq_false_iff.2 fun hret => ?_⟩
  obtain ⟨w, hw, hr⟩ := any_eq_true _ _ |>.1 hret
  have := retired_row_of_parent engine.cfg_valid.lateness hr
  simp [isRetired, hw, this] at hrow

/-- **An advance of the watermark** keeps the caches in agreement with the ledger, unless an open
second has lost its row. -/
theorem RollupInv.advance (h : RollupInv st) (hno : st.engine.NoLeftover)
    (ha : Advanced st.engine next engine' changes) (durable') :
    RollupInv ⟨engine', st.accepted, st.accepted, durable'⟩ := by
  obtain ⟨selected, closed, hsel, hloop, hem⟩ := ha.loop
  obtain ⟨cutoff, hcut, hsec⟩ := ha.seconds
  have hstart : LoopInv st.engine.isRetired st.engine.emitted st.reportedValue :=
    ⟨h.second_row, h.parent_rows⟩
  have hend := hstart.loop (fun base => live_of_selected hno hsel) hloop
  have hval : (fun base => (selected.get base).or (st.reportedValue base)) =
      reportedValue ⟨engine', st.accepted, st.accepted, durable'⟩ := by
    funext base
    rw [h.selected_or ha hsel, reportedValue, ha.sources]
  rw [hval] at hend
  have hretire : ∀ k, engine'.isRetired k = false → st.engine.isRetired k = false := by
    intro k hk
    refine Bool.eq_false_iff.2 fun hr => ?_
    rw [isRetired_next ha, retired_of_isRetired ha hr] at hk
    cases hk
  have hget : ∀ k, engine'.emitted.get k =
      if engine'.isRetired k then none else closed.get k := by
    intro k
    rw [hem, SortedMap.get_filter, isRetired_next ha]
    cases retired k next st.engine.cfg.lateness <;> cases closed.get k <;> rfl
  refine ⟨fun k => ?_, fun _ _ _ => rfl, fun _ hk => hk, fun base => ?_, fun res hres => ?_⟩
  · rw [hsec, SortedMap.get_filter, h.seconds_get]
    by_cases hev : engine'.evicted k.base = true
    · rw [if_pos hev]
      have hlt := (evicted_next ha hcut k.base).1 hev
      refine filter_eq_none_iff.2 fun v _ => ?_
      simpa using hlt
    · rw [if_neg hev, if_neg fun hold => hev (evicted_mono ha hold)]
      have hle := not_lt.1 fun hlt => hev ((evicted_next ha hcut k.base).2 hlt)
      cases st.accepted.opened k <;> simp [hle]
  · rw [hget]
    cases hr : engine'.isRetired base.row with
    | true => rfl
    | false =>
      rw [hend.second_row, hretire _ hr]
      rfl
  · refine (hend.parent_rows res hres).retain (fun p hp => hretire _ hp) (fun p hp => ?_)
      fun p hp => ?_
    · simp [rowBytes, hget, hp]
    · simp [rowBytes, hget, Bool.eq_true_of_not_eq_false hp]

end NeonHearth.Flow
