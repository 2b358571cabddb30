import NeonHearth.Flow.DoubleCounting

/-!
# The rollups are complete

`Complete` : after an advance the durable rows hold every closed second with an accepted
observation, and its minute and its hour with the sums of their seconds.  An advance that closes a
second and ends its correction window at once drops the row before it is emitted
(`jumpRun_not_complete`); every run whose advances emit what they revise is complete
(`complete_of_emitsRevisions`).  `DurableInv` is the invariant of those runs: the durable rows agree
with what has been reported.
-/

namespace NeonHearth.Flow

open Option FlowState SortedMap List Ledger

/-- Every second that is over at `w` and has an accepted observation has a durable row with the
winning source's bytes, and its minute and its hour have the sums of their seconds' rows. -/
def Complete (st : FlowState) (w : DateTime) : Prop :=
  ∀ base s, st.accepted.opened ⟨base, s⟩ ≠ none → base.Closed w →
    (∃ v, st.accepted.winning st.engine.sources base = some v ∧
      (st.durable.get base.row).map Value.bytes = some v.bytes) ∧
    ∀ res, res ≠ .second → (st.durable.get (base.parent res)).map Value.bytes =
      some (∑ b ∈ (base.parent res).seconds, bytesOf (st.durable.get b.row))

/-- An advance does not end the correction window of a second whose row it revises. -/
def EmitsRevisions (st : FlowState) : FlowEvent → Prop
  | .observe _ => True
  | .advance next _ => (selectSeconds st.engine.seconds st.engine.sources next).toOption.all
      fun selected => selected.toList.all fun entry =>
        st.engine.emitted.get entry.1.row = some entry.2 ||
          !retired entry.1.row next st.engine.cfg.lateness

/-- The durable rows agree with what has been reported. -/
structure DurableInv (st : FlowState) : Prop where
  second_row : ∀ base, st.durable.get base.row = st.reportedValue base
  parent_rows : ParentRows (fun _ => True) st.durable st.reportedValue
  cached : ∀ k v, st.engine.emitted.get k = some v → st.durable.get k = some v

theorem rollupChange_eq_none {emitted emitted' l} :
    rollupChange emitted emitted' l = none ↔ emitted.get l = emitted'.get l := by
  unfold rollupChange
  cases emitted.get l <;> cases emitted'.get l <;> simp

theorem get_applyChange {emitted emitted' durable l change}
    (h : rollupChange emitted emitted' l = some change) (k) : (applyChange durable change).get k =
      if k = l then (emitted'.get l).or (durable.get k) else durable.get k := by
  unfold rollupChange at h
  cases hold : emitted.get l <;> cases hnew : emitted'.get l <;> simp only [hold, hnew] at h
  · cases h
  · cases h
    simp [applyChange, get_insert]
  · cases h
    simp [applyChange]
  · split_ifs at h
    cases h
    simp [applyChange, get_insert]

theorem get_applyChanges (emitted emitted') (keys : List RollupKey) (durable k) :
    ((keys.filterMap (rollupChange emitted emitted')).foldl applyChange durable).get k =
      if k ∈ keys ∧ emitted.get k ≠ emitted'.get k then (emitted'.get k).or (durable.get k)
      else durable.get k := by
  induction keys generalizing durable with
  | nil => simp
  | cons l keys ih =>
    cases hl : rollupChange emitted emitted' l with
    | none =>
      rw [filterMap_cons_none hl, ih]
      have hsame := rollupChange_eq_none.1 hl
      by_cases hk : k = l
      · subst hk; simp [hsame]
      · simp [hk]
    | some change =>
      rw [filterMap_cons_some hl, foldl_cons, ih, get_applyChange hl]
      have hdiff : emitted.get l ≠ emitted'.get l := fun heq => by
        simp [rollupChange_eq_none.2 heq] at hl
      by_cases hk : k = l
      · subst hk
        rw [if_pos rfl, if_pos (show k ∈ k :: keys ∧ _ from ⟨mem_cons_self, hdiff⟩)]
        split
        · cases emitted'.get k <;> rfl
        · rfl
      · simp [hk]

variable {st : FlowState} {next now : DateTime} {engine' : FlowEngine} {changes : List RollupChange}

/-- The durable rows after an advance: the cached ones, and the older ones for the rest. -/
theorem DurableInv.get_next (h : DurableInv st) (ha : Advanced st.engine next engine' changes) (k) :
    (changes.foldl applyChange st.durable).get k =
      (engine'.emitted.get k).or (st.durable.get k) := by
  rw [ha.changes, get_applyChanges]
  cases hk : engine'.emitted.get k with
  | none => simp
  | some v =>
    rw [some_or]
    split_ifs with hc
    · rfl
    · refine h.cached k v ?_
      by_contra hne
      exact hc ⟨mem_unionKeys.2 (.inr (by simp [hk])), hne⟩

theorem emitsRevisions_iff {selected}
    (hsel : selectSeconds st.engine.seconds st.engine.sources next = .ok selected) :
    EmitsRevisions st (.advance next now) ↔ ∀ base v, selected.get base = some v →
      st.engine.emitted.get base.row = some v ∨
        retired base.row next st.engine.cfg.lateness = false := by
  simp [EmitsRevisions, Except.toOption_eq_some.2 hsel, SortedMap.mem_toList]

/-- A second that has lost its row would be revised after the end of its correction window. -/
theorem RollupInv.noLeftover (h : RollupInv st) (ha : Advanced st.engine next engine' changes)
    (hg : EmitsRevisions st (.advance next now)) : st.engine.NoLeftover := by
  obtain ⟨selected, -, hsel, -, -⟩ := ha.loop
  intro k hk
  refine Bool.eq_false_iff.2 fun hret => ?_
  have hret' := retired_of_isRetired ha hret
  have hclosed := closed_of_retired st.engine.cfg_valid.lateness hret'
  -- the second has a winner and is selected
  have hevict : ¬st.engine.evicted k.base := fun hev => hk (by rw [h.seconds_get, if_pos hev])
  have hwin : st.accepted.winning st.engine.sources k.base ≠ none :=
    winning_ne_none (s := k.source) fun hnone => hk (by
      rw [h.seconds_get, if_neg hevict]
      exact hnone)
  obtain ⟨v, hv⟩ := ne_none_iff_exists'.1 hwin
  have hget : selected.get k.base = some v := (h.selected_iff hsel hevict v).2 ⟨hclosed, hv⟩
  obtain hsame | hlive := (emitsRevisions_iff hsel).1 hg k.base v hget
  · rw [h.second_row, if_pos hret] at hsame
    cases hsame
  · simp [hret'] at hlive

variable {base : SecondKey}

/-- A second whose correction window ends with the advance has been reported with its final
value. -/
theorem RollupInv.reported_final (h : RollupInv st) (ha : Advanced st.engine next engine' changes)
    (hg : EmitsRevisions st (.advance next now))
    (hret : engine'.isRetired base.row = true) (durable') :
    reportedValue ⟨engine', st.accepted, st.accepted, durable'⟩ base = st.reportedValue base := by
  obtain ⟨selected, -, hsel, -, -⟩ := ha.loop
  have hval := h.selected_or ha hsel base
  rw [reportedValue, ha.sources, ← hval]
  cases hs : selected.get base with
  | none => rw [none_or]
  | some v =>
    rw [some_or]
    obtain hsame | hlive := (emitsRevisions_iff hsel).1 hg base v hs
    · rw [h.second_row] at hsame
      split at hsame
      · cases hsame
      · exact hsame.symm
    · rw [isRetired_next ha, hlive] at hret
      cases hret

theorem RollupInv.reported_grows (h : RollupInv st) (ha : Advanced st.engine next engine' changes)
    (durable') (hnone : reportedValue ⟨engine', st.accepted, st.accepted, durable'⟩ base = none) :
    st.reportedValue base = none := by
  obtain ⟨selected, -, hsel, -, -⟩ := ha.loop
  have hval := h.selected_or ha hsel base
  rw [reportedValue, ha.sources, ← hval, or_eq_none_iff] at hnone
  exact hnone.2

theorem isRetired_kid {engine : FlowEngine} {k} (hk : engine.isRetired k = true)
    (hbase : base ∈ k.seconds) : engine.isRetired base.row = true := by
  rw [← RollupKey.mem_seconds.1 hbase] at hk
  obtain ⟨w, hw, hr⟩ := any_eq_true _ _ |>.1 hk
  simpa [FlowEngine.isRetired, hw] using retired_row_of_parent engine.cfg_valid.lateness hr

/-- The seconds of a minute or an hour that is not cached after an advance keep their values: they
are final, or there is none. -/
theorem RollupInv.reported_uncached (h : RollupInv st)
    (ha : Advanced st.engine next engine' changes) (hg : EmitsRevisions st (.advance next now))
    (durable') {k} (hres : k.resolution ≠ .second)
    (hk : engine'.emitted.get k = none) (hbase : base ∈ k.seconds) :
    reportedValue ⟨engine', st.accepted, st.accepted, durable'⟩ base = st.reportedValue base := by
  have h' := h.advance (h.noLeftover ha hg) ha durable'
  cases hr : engine'.isRetired k with
  | true => exact h.reported_final ha hg (isRetired_kid hr hbase) _
  | false =>
    have hparent := RollupKey.mem_seconds.1 hbase
    have hnone : reportedValue ⟨engine', st.accepted, st.accepted, durable'⟩ base =
        none := by
      by_contra hsome
      refine (h'.parent_rows k.resolution hres).isSome (i := base) (by simpa using hsome) ?_ ?_
      · exact (congrArg engine'.isRetired hparent).trans hr
      · exact congrArg (Option.map Value.bytes) ((congrArg engine'.emitted.get hparent).trans hk)
    rw [hnone, h.reported_grows ha _ hnone]

/-- **The durable rows after an advance** agree with what it reports. -/
theorem DurableInv.advance (hd : DurableInv st) (h : RollupInv st)
    (ha : Advanced st.engine next engine' changes) (hg : EmitsRevisions st (.advance next now)) :
    DurableInv ⟨engine', st.accepted, st.accepted, changes.foldl applyChange st.durable⟩ := by
  set st' : FlowState :=
    ⟨engine', st.accepted, st.accepted, changes.foldl applyChange st.durable⟩ with hst'
  have h' : RollupInv st' := h.advance (h.noLeftover ha hg) ha _
  have hget : ∀ k, st'.durable.get k = (engine'.emitted.get k).or (st.durable.get k) :=
    hd.get_next ha
  have hgrows : ∀ base, st'.reportedValue base = none → st.reportedValue base = none :=
    fun base => h.reported_grows ha _
  have hfinal : ∀ base, engine'.isRetired base.row = true →
      st'.reportedValue base = st.reportedValue base :=
    fun base hr => h.reported_final ha hg hr _
  refine ⟨fun base => ?_, fun res hres => ?_, fun k v hk => ?_⟩
  · rw [hget, h'.second_row, hd.second_row]
    cases hr : engine'.isRetired base.row with
    | true =>
      rw [if_pos rfl, none_or]
      exact (hfinal base hr).symm
    | false =>
      rw [if_neg (by simp)]
      cases hv : st'.reportedValue base with
      | some v => rw [some_or]
      | none => rw [none_or, hgrows base hv]
  · have hcache := h'.parent_rows res hres
    have hold := hd.parent_rows res hres
    have hkids : ∀ p, rowBytes engine'.emitted res p = none → ∀ base ∈ (rollups res).kids p,
        st'.reportedValue base = st.reportedValue base := fun p hp base hbase =>
      h.reported_uncached ha hg _ (k := ⟨res, p.1, p.2⟩) hres (map_eq_none_iff.1 hp) hbase
    have hrow : ∀ p, rowBytes st'.durable res p =
        (rowBytes engine'.emitted res p).or (rowBytes st.durable res p) := by
      intro p
      simp only [rowBytes, hget]
      cases engine'.emitted.get ⟨res, p.1, p.2⟩ <;> rfl
    refine ⟨fun {p x} hx => ?_, fun {p} hp => ?_, fun {base} hbase _ => ?_⟩
    · rw [hrow] at hx
      cases hc : rowBytes engine'.emitted res p with
      | some y =>
        rw [hc, some_or, some.injEq] at hx
        exact hx ▸ hcache.sum_eq hc
      | none =>
        rw [hc, none_or] at hx
        rw [hold.sum_eq hx]
        refine Aggregate.sum_congr fun base hbase => ?_
        rw [hkids p hc base hbase]
    · rw [hrow] at hp
      cases hc : rowBytes engine'.emitted res p with
      | some y => exact hcache.exists_kid (ne_none_iff_exists'.2 ⟨y, hc⟩)
      | none =>
        rw [hc, none_or] at hp
        obtain ⟨base, hbase, hval⟩ := hold.exists_kid hp
        refine ⟨base, hbase, ?_⟩
        rw [hkids p hc base hbase]
        exact hval
    · rw [hrow]
      intro hnone
      obtain ⟨hc, ho⟩ := or_eq_none_iff.1 hnone
      have hval : (st.reportedValue base).map Value.bytes ≠ none := by
        rw [← hkids _ hc base ((rollups res).mem_kids.2 rfl)]
        exact hbase
      exact hold.isSome hval trivial ho
  · rw [hget, show engine'.emitted.get k = some v from hk, some_or]

theorem durableInv_start (h : flowMachine.init st) : DurableInv st := by
  have hinv := rollupInv_start h
  obtain ⟨cfg, registrations, engine, hnew, rfl⟩ := h
  obtain ⟨-, hem, hw, -⟩ := new_spec hnew
  have hval : ∀ base, reportedValue ⟨engine, [], [], ∅⟩ base = none := fun base => by
    simp [reportedValue, FlowEngine.closed, hw]
  refine ⟨fun base => by simp [hval], fun res hres => ?_, fun k v hk => by simp [hem] at hk⟩
  have hrows := hinv.parent_rows res hres
  simp only [hem] at hrows
  exact ⟨hrows.sum_eq, hrows.exists_kid, fun hi _ => by simp [hval] at hi⟩

/-- Every step that emits what it revises keeps the durable rows in agreement with the ledger. -/
theorem DurableInv.step {st' e} (hdur : DurableInv st)
    (hinv : RollupInv st) (hg : EmitsRevisions st e) (hs : st.step e = some st') :
    RollupInv st' ∧ DurableInv st' := by
  cases e with
  | observe o =>
    obtain ⟨k, engine, hk, ho, rfl⟩ := step_observe hs
    obtain ⟨_, _, -, -, -, -, -, hsources, hw, hem, -⟩ := observe_spec ho
    have hval : reportedValue
        { st with engine := engine, accepted := st.accepted ++ [(k, o.bytes)] } =
          st.reportedValue := reportedValue_congr hw hsources rfl
    refine ⟨hinv.observe hk ho, fun base => ?_, ?_, fun l v hl => hdur.cached l v (hem ▸ hl)⟩
    · rw [hval]
      exact hdur.second_row base
    · rw [hval]
      exact hdur.parent_rows
  | advance next now =>
    obtain ⟨changes, engine, ha, rfl⟩ := step_advance hs
    have hadv := advance_spec ha
    exact ⟨hinv.advance (hinv.noLeftover hadv hg) hadv _, hdur.advance hinv hadv hg⟩

/-- The caches agree with the ledger, and the durable rows with what has been reported. -/
theorem durableInv_of_emitsRevisions (h : flowMachine.Via EmitsRevisions st) :
    RollupInv st ∧ DurableInv st :=
  h.invariant (I := fun st => RollupInv st ∧ DurableInv st)
    (fun _ hst => ⟨rollupInv_start hst, durableInv_start hst⟩)
    fun _ _ _ ⟨hinv, hdur⟩ hg hs => hdur.step hinv hg hs

/-- **Flow completeness** in every run whose advances emit what they revise. -/
theorem complete_of_emitsRevisions {st st' : FlowState} (h : flowMachine.Via EmitsRevisions st)
    {next now : DateTime} (hg : EmitsRevisions st (.advance next now))
    (hs : st.step (.advance next now) = some st') : Complete st' next := by
  obtain ⟨-, hdur⟩ := durableInv_of_emitsRevisions (h.next hg hs)
  obtain ⟨changes, engine, ha, rfl⟩ := step_advance hs
  have hadv := advance_spec ha
  intro base s hs hclosed
  have hval : reportedValue
      ⟨engine, st.accepted, st.accepted, changes.foldl applyChange st.durable⟩ base =
      st.accepted.winning engine.sources base := if_pos ((closed_next hadv base).2 hclosed)
  have hwin : st.accepted.winning engine.sources base ≠ none := winning_ne_none hs
  obtain ⟨v, hv⟩ := ne_none_iff_exists'.1 hwin
  refine ⟨⟨v, hv, ?_⟩, fun res hres => ?_⟩
  · rw [hdur.second_row, hval, hv]
    rfl
  have hrows := hdur.parent_rows res hres
  have hsome := hrows.isSome (i := base) (by simp [hval, hv]) trivial
  obtain ⟨x, hx⟩ := ne_none_iff_exists'.1 hsome
  refine hx.trans (congrArg some ((hrows.sum_eq hx).trans ?_))
  refine Finset.sum_congr rfl fun b _ => ?_
  rw [bytesOf, hdur.second_row]

instance (st : FlowState) (e : FlowEvent) : Decidable (EmitsRevisions st e) := by
  induction e using FlowEvent.casesOn <;> unfold EmitsRevisions <;> infer_instance

theorem cleanRun_complete :
    ∃ st st', sampleRun [⟨1, .gateway⟩] cleanRun = some st ∧ st.step (advanceTo 40) = some st' ∧
      st'.durable.get sampleMinute = some ⟨⟨118, 0⟩, .complete⟩ ∧ Complete st' (halfSecond 40) := by
  refine exists₂_and_imp (by decide +kernel) fun st st' hst hst' _ => ?_
  have hg : ∀ st ∈ sampleRun [⟨1, .gateway⟩] cleanRun, EmitsRevisions st (advanceTo 40) := by
    decide +kernel
  exact complete_of_emitsRevisions (via_sampleRun hst (by decide +kernel)) (hg st hst) hst'

/-- One upload, and a watermark far beyond its correction window. -/
def jumpRun : List FlowEvent := [.observe (sampleUpload 1 (halfSecond 20) 1 100)]

/-- The accepted upload is in no durable second row, although the minute and the hour count it. -/
theorem jumpRun_not_complete :
    ∃ st st', sampleRun [⟨1, .gateway⟩] jumpRun = some st ∧ st.step (advanceTo 100) = some st' ∧
      st'.durable.get ⟨.second, 10, sampleMinute.dims⟩ = none ∧
      ¬Complete st' (halfSecond 100) := by
  refine exists₂_and_imp (by decide +kernel) fun st st' hst hst' hrow h => ?_
  have hopened : ∀ st ∈ sampleRun [⟨1, .gateway⟩] jumpRun, ∀ st' ∈ st.step (advanceTo 100),
      st'.accepted.opened ⟨⟨10, sampleMinute.dims⟩, 1⟩ ≠ none := by decide +kernel
  obtain ⟨⟨v, -, hv⟩, -⟩ := h ⟨10, sampleMinute.dims⟩ 1 (hopened st hst st' hst')
    (show (10 : ℤ) + 1 ≤ (halfSecond 100).timestamp by decide)
  rw [SecondKey.row, hrow] at hv
  cases hv

end NeonHearth.Flow
