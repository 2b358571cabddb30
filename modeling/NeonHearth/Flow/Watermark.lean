import NeonHearth.Flow.DoubleCounting

/-!
# What an advance of the watermark depends on

* `advance_quiet` : an advance returns no change when nothing closes, is corrected or retires, in
  every run that retires cleanly.  A second that has lost its row is added to its minute and its
  hour again by the same advance (`leftoverRun_repeated`).
* `adjustParent_covered` : in every run a minute or an hour has at least the bytes of its cached
  seconds, so that an adjustment never subtracts more than there is.  It may still add more than
  there is room for, and then the watermark is stuck (`fullMinute_stuck`).
* `rounds_congr` : the changes do not depend on the order and the times of the arrivals.
-/

namespace NeonHearth.Flow

open SortedMap RollupKey FlowEngine NeonHearth.Except ByteCount List

variable {st : FlowState} {engine engine' : FlowEngine} {next : DateTime} {base : SecondKey} {v : Value}
  {rows rows' : SortedMap RollupKey Value} {selected : SortedMap SecondKey Value}
  {changes : List RollupChange}

/-! ### Quiet watermarks -/

/-- What was accepted since the last advance changes the winner of no closed second, and at `next` no
second closes and no cached row retires. -/
structure FlowState.Quiet (st : FlowState) (next : DateTime) : Prop where
  corrects : ∀ base, st.engine.closed base → st.accepted.winning st.engine.sources base =
    st.reported.winning st.engine.sources base
  closes : ∀ k, st.engine.seconds.get k ≠ none → k.base.Closed next → st.engine.closed k.base
  retires : ∀ k, st.engine.emitted.get k ≠ none → retired k next st.engine.cfg.lateness = false

/-- The closing loop does not touch the seconds that have their values already. -/
theorem loop_eq_self (h : selected.toList.foldlM closeSecond rows = .ok rows')
    (hrows : ∀ base v, selected.get base = some v → rows.get base.row = some v) : rows' = rows := by
  refine foldlM_invariant (I := fun _ rows' => rows' = rows) h rfl
    fun done entry rest b b' hl hI hc => ?_
  subst hI
  obtain ⟨-, heq⟩ | ⟨hne, -⟩ := closeSecond_spec hc
  · exact heq
  · exact (hne (hrows _ _ (mem_toList.1 (hl ▸ mem_append_right _ (.head _))))).elim

theorem RollupInv.changes_eq_nil (h : RollupInv st) (hno : st.engine.NoLeftover) (hq : st.Quiet next)
    (ha : Advanced st.engine next engine' changes) : changes = [] := by
  obtain ⟨selected, rows, hsel, hloop, hem⟩ := ha.loop
  have hself : rows = st.engine.emitted := by
    refine loop_eq_self hloop fun base v hv => ?_
    obtain ⟨hclosed, s, bytes, hs, -⟩ := (selectSeconds_spec hsel base v).1 hv
    have hold := hq.closes ⟨base, s⟩ (by simp [hs]) hclosed
    have hwins := h.selected_or ha hsel base
    rw [hv, Option.some_or, if_pos ((closed_next ha base).2 hclosed)] at hwins
    rw [h.second_row, hno ⟨base, s⟩ (by simp [hs]), FlowState.reportedValue, if_pos hold, hwins]
    exact (hq.corrects base hold).symm
  have hsame : engine'.emitted = st.engine.emitted := by
    ext k : 1
    rw [hem, hself, get_filter]
    cases hk : st.engine.emitted.get k with
    | none => rfl
    | some _ => simp [hq.retires k (by simp [hk])]
  rw [ha.changes, hsame, filterMap_eq_nil_iff]
  intro k _
  unfold rollupChange
  cases st.engine.emitted.get k <;> simp

/-- **A quiet watermark** returns no change: the same one again, and any other. -/
theorem advance_quiet {st : FlowState} (h : flowMachine.Via RetiresCleanly st) :
    (∀ next now st' changes engine, RetiresCleanly st (.advance next now) →
      st.step (.advance next now) = some st' →
      st'.engine.advanceWatermarkAt next now = .ok (changes, engine) → changes = []) ∧
    ∀ next now changes engine, st.Quiet next →
      st.engine.advanceWatermarkAt next now = .ok (changes, engine) → changes = [] := by
  constructor
  · intro next now st' changes engine hg hs hadv
    obtain ⟨hinv, hno⟩ := rollupInv_of_retiresCleanly (h.next hg hs)
    obtain ⟨_, engine₁, hadv₁, rfl⟩ := step_advance hs
    have ha := advance_spec hadv₁
    obtain ⟨selected, rows, -, -, hem⟩ := ha.loop
    refine hinv.changes_eq_nil hno ⟨fun _ _ => rfl, fun k _ hc => (closed_next ha _).2 hc,
      fun k hk => ?_⟩ (advance_spec hadv)
    obtain ⟨v, hv⟩ := Option.ne_none_iff_exists'.1 hk
    rw [hem, get_filter, Option.filter_eq_some_iff] at hv
    simpa [ha.cfg] using hv.2
  · intro next now changes engine hq hadv
    obtain ⟨hinv, hno⟩ := rollupInv_of_retiresCleanly h
    exact hinv.changes_eq_nil hno hq (advance_spec hadv)

theorem cleanRun_quiet : ∃ st st' r, sampleRun [⟨1, .gateway⟩] cleanRun = some st ∧
    st.step (advanceTo 40) = some st' ∧
    st'.engine.advanceWatermarkAt (halfSecond 40) (halfSecond 40) = .ok r ∧ r.1 = [] := by
  obtain ⟨st, hst, hg, st', hst', r, hr, -⟩ : ∃ st, sampleRun [⟨1, .gateway⟩] cleanRun = some st ∧
      RetiresCleanly st (advanceTo 40) ∧ ∃ st', st.step (advanceTo 40) = some st' ∧
        ∃ r, st'.engine.advanceWatermarkAt (halfSecond 40) (halfSecond 40) = .ok r ∧ True := by
    decide +kernel
  exact ⟨st, st', r, hst, hst', hr, (advance_quiet (via_sampleRun hst (by decide +kernel))).1
    _ _ st' r.1 r.2 hg hst' hr⟩

/-- The same watermark at the same time: a second without its row is added to its minute again. -/
theorem leftoverRun_repeated : ∃ st, sampleRun [⟨1, .gateway⟩] leftoverRun = some st ∧
    st.engine.watermark = some (halfSecond 33) ∧ st.engine.lastArrival = some (halfSecond 33) ∧
    ∃ r, st.engine.advanceWatermarkAt (halfSecond 33) (halfSecond 33) = .ok r ∧
      .correction sampleMinute ⟨⟨200, 0⟩, .complete⟩ ∈ r.1 := by decide +kernel

/-! ### The parents contain their seconds -/

/-- The minutes and the hours have at least the bytes of their cached seconds. -/
def ParentsCover (rows : SortedMap RollupKey Value) : Prop :=
  ∀ res, res ≠ .second →
    (rollups res).Covers (rowBytes rows res) fun b => (rows.get b.row).map Value.bytes

theorem ParentsCover.closeSecond (h : ParentsCover rows)
    (hc : closeSecond rows (base, v) = .ok rows') : ParentsCover rows' := by
  obtain ⟨-, rfl⟩ | ⟨hne, -⟩ := closeSecond_spec hc
  · exact h
  intro res hres
  obtain ⟨x, hx, hbytes⟩ := rowBytes_closeSecond hres hne hc
  have hval : (fun b => (rows'.get b.row).map Value.bytes) =
      Function.update (fun b => (rows.get b.row).map Value.bytes) base (some v.bytes) := by
    funext b
    rw [get_row_closeSecond hc, Function.update_apply]
    split <;> rfl
  rw [hx, hval]
  exact (h res hres).revise hbytes

/-- A row is retired after its seconds are, so the parents of the cached seconds stay. -/
theorem ParentsCover.advance (h : ParentsCover engine.emitted)
    (ha : Advanced engine next engine' changes) : ParentsCover engine'.emitted := by
  obtain ⟨selected, rows, -, hloop, hem⟩ := ha.loop
  have hrows : ParentsCover rows := foldlM_invariant (I := fun _ rows => ParentsCover rows) hloop h
    fun _ _ _ _ _ _ hI hc => hI.closeSecond hc
  intro res hres
  refine (hrows res hres).retain (fun b hb => ?_) fun p => ?_
  · rw [hem, get_filter] at hb ⊢
    cases hr : retired b.row next engine.cfg.lateness <;> cases rows.get b.row <;> simp_all
  cases hr : retired ⟨res, p.1, p.2⟩ next engine.cfg.lateness with
  | false =>
    left
    rw [rowBytes, rowBytes, hem, get_filter]
    cases rows.get ⟨res, p.1, p.2⟩ <;> simp [hr]
  | true =>
    right
    intro b hb
    have hparent : retired (b.parent res) next engine.cfg.lateness = true := by
      rw [← hr, (mem_seconds.1 hb)]
    have hrow := retired_row_of_parent engine.cfg_valid.lateness hparent
    rw [hem, get_filter]
    cases rows.get b.row <;> simp [hrow]

/-- An observation apart from when and under which id it arrived. -/
def FlowObservation.content (o : FlowObservation) : FlowObservation :=
  { o with replayId := 0, arrivalTime := o.eventTime }

/-- Observations and the advance after them. -/
structure Round where
  observations : List FlowObservation
  next : DateTime
  now : DateTime

/-- The same observations in any order, and the same advance. -/
def Round.Same (r r' : Round) : Prop :=
  (r.observations.map (·.content)).Perm (r'.observations.map (·.content)) ∧ r.next = r'.next ∧
    r.now = r'.now

/-- A run of accepted observations and successful advances, with what each advance returns. -/
def FlowEngine.rounds (engine : FlowEngine) :
    List Round → Except FlowError (List (List RollupChange))
  | [] => .ok []
  | r :: rs => do
    let engine ← r.observations.foldlM FlowEngine.observe engine
    let (changes, engine) ← engine.advanceWatermarkAt r.next r.now
    return changes :: (← engine.rounds rs)

/-- Adds an observation to the count of its source and second. -/
def count (cfg : FlowEngineConfig) (secs : SortedMap SourceSecondKey ByteCount)
    (o : FlowObservation) : SortedMap SourceSecondKey ByteCount :=
  match o.key cfg with
  | .ok k => secs.insert k ((secs.get k).getD 0 + o.bytes)
  | .error _ => secs

instance (cfg : FlowEngineConfig) : RightCommutative (count cfg) := by
  refine ⟨fun secs o o' => ?_⟩
  unfold count
  cases o.key cfg with
  | error _ => rfl
  | ok k =>
    cases o'.key cfg with
    | error _ => rfl
    | ok k' =>
      ext l : 1
      simp only [get_insert]
      by_cases hk : k' = k
      · subst hk
        by_cases hl : l = k' <;> simp [hl, add_right_comm]
      · by_cases hl : l = k' <;> simp [hl, hk, Ne.symm hk]

/-- The parts of the engine that an advance reads and that know nothing of arrivals. -/
def FlowEngine.parts (engine : FlowEngine) : FlowEngineConfig × SortedMap FlowSourceId VisibilityKind ×
    SortedMap RollupKey Value × SortedMap SourceSecondKey ByteCount :=
  (engine.cfg, engine.sources, engine.emitted, engine.seconds)

theorem parts_observe_all {os : List FlowObservation}
    (h : os.foldlM FlowEngine.observe engine = .ok engine') : engine'.parts = (engine.cfg,
      engine.sources, engine.emitted, (os.map (·.content)).foldl (count engine.cfg) engine.seconds) := by
  induction os generalizing engine with
  | nil =>
    cases h
    rfl
  | cons o os ih =>
    obtain ⟨engine₁, ho, h⟩ := bind_eq_ok.1 h
    obtain ⟨k, -, hk, -, -, -, hcfg, hsources, -, hem, hsec⟩ := observe_spec ho
    have hcount : count engine.cfg engine.seconds o.content = engine₁.seconds := by
      rw [hsec, count, show o.content.key engine.cfg = .ok k from hk]
      rfl
    rw [ih h, hcfg, hsources, hem, map_cons, foldl_cons, hcount]

theorem Advanced.congr {engine₁ engine₁' changes'}
    (h : engine'.parts = engine.parts) (ha : Advanced engine next engine₁ changes)
    (ha' : Advanced engine' next engine₁' changes') :
    changes' = changes ∧ engine₁'.parts = engine₁.parts := by
  simp only [parts, Prod.mk.injEq] at h ⊢
  obtain ⟨hcfg, hsources, hem, hsec⟩ := h
  obtain ⟨selected, rows, hsel, hloop, hrows⟩ := ha.loop
  obtain ⟨selected', rows', hsel', hloop', hrows'⟩ := ha'.loop
  rw [hsec, hsources, hsel] at hsel'
  cases hsel'
  rw [hem, hloop] at hloop'
  cases hloop'
  rw [hcfg, ← hrows] at hrows'
  obtain ⟨cutoff, hcut, hkept⟩ := ha.seconds
  obtain ⟨cutoff', hcut', hkept'⟩ := ha'.seconds
  rw [hcfg, hcut] at hcut'
  cases hcut'
  exact ⟨by rw [ha.changes, ha'.changes, hem, hrows'], by rw [ha.cfg, ha'.cfg, hcfg],
    by rw [ha.sources, ha'.sources, hsources], hrows', by rw [hkept, hkept', hsec]⟩

theorem rounds_of_parts {rs rs'} (hrs : List.Forall₂ Round.Same rs rs')
    {out out'} (hparts : engine'.parts = engine.parts)
    (h : engine.rounds rs = .ok out) (h' : engine'.rounds rs' = .ok out') : out' = out := by
  induction hrs generalizing engine engine' out out' with
  | nil =>
    cases h
    cases h'
    rfl
  | cons hr _ ih =>
    obtain ⟨hperm, hnext, hnow⟩ := hr
    simp only [rounds, bind_eq_ok, pure_eq_ok] at h h'
    obtain ⟨engine₁, hos, ⟨changes, engine₂⟩, ha, outs, houts, rfl⟩ := h
    obtain ⟨engine₁', hos', ⟨changes', engine₂'⟩, ha', outs', houts', rfl⟩ := h'
    simp only [parts, Prod.mk.injEq] at hparts
    obtain ⟨hcfg, hsources, hem, hsec⟩ := hparts
    have hparts : engine₁'.parts = engine₁.parts := by
      rw [parts_observe_all hos, parts_observe_all hos', hperm.foldl_eq, hcfg, hsources, hem, hsec]
    rw [← hnext, ← hnow] at ha'
    obtain ⟨rfl, hparts⟩ := Advanced.congr hparts (advance_spec ha) (advance_spec ha')
    rw [ih hparts houts houts']

/-- **The order and the times of the arrivals do not matter**: two runs from new engines with the same
configuration and sources return the same changes. -/
theorem rounds_congr {cfg : FlowEngineConfig} {registrations registrations' : List SourceRegistration}
    {engine engine' : FlowEngine} (hnew : new cfg registrations = .ok engine)
    (hnew' : new cfg registrations' = .ok engine') (hsources : engine'.sources = engine.sources)
    {rs rs' : List Round} (hrs : List.Forall₂ Round.Same rs rs') {out out' : List (List RollupChange)}
    (h : engine.rounds rs = .ok out) (h' : engine'.rounds rs' = .ok out') : out' = out := by
  obtain ⟨hsec, hem, -, hcfg⟩ := new_spec hnew
  obtain ⟨hsec', hem', -, hcfg'⟩ := new_spec hnew'
  refine rounds_of_parts hrs ?_ h h'
  rw [parts, parts, hcfg, hcfg', hsources, hem, hem', hsec, hsec']

/-- Two uploads arrive when they happen. -/
def promptArrivals : List Round :=
  [⟨[replayedUpload 20, sampleUpload 2 (halfSecond 21) 1 11], halfSecond 26, halfSecond 26⟩]

/-- The first of them arrives last. -/
def swappedArrivals : List Round :=
  [⟨[sampleUpload 3 (halfSecond 21) 1 11, replayedUpload 24], halfSecond 26, halfSecond 26⟩]

theorem swappedArrivals_congr : ∃ engine out out', new .default [⟨1, .gateway⟩] = .ok engine ∧
    engine.rounds promptArrivals = .ok out ∧ engine.rounds swappedArrivals = .ok out' ∧
    out.flatten.length = 3 ∧ out' = out := by
  obtain ⟨engine, hnew, out, hout, hlength, out', hout', -⟩ : ∃ engine,
      new .default [⟨1, .gateway⟩] = .ok engine ∧
      ∃ out, engine.rounds promptArrivals = .ok out ∧ out.flatten.length = 3 ∧
      ∃ out', engine.rounds swappedArrivals = .ok out' ∧ True := by decide +kernel
  have hsame : List.Forall₂ Round.Same promptArrivals swappedArrivals :=
    .cons ⟨.swap .., rfl, rfl⟩ .nil
  exact ⟨engine, out, out', hnew, hout, hout', hlength, rounds_congr hnew hnew rfl hsame hout hout'⟩

end NeonHearth.Flow
