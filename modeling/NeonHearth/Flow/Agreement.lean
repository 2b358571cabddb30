import NeonHearth.Flow.Compaction

/-!
# Engine and compaction agree

Runs of the flow engine with the repository that its changes are applied to.  Two computations of
the same rows meet here: the engine adjusts minutes and hours incrementally, and compaction groups
the rows below them.  `CompactionAgrees` says that a compaction finds no conflict and that every
parent with child rows left has their group value.

A late observation of a better source changes the coverage of a second; the engine merges it into
the minute, which stays estimated although all its seconds share one coverage again
(`switchRun_not_compactionAgrees`).  The two agree in every run that emits and mixes what it
revises, observes metadata that the columns tell apart and compacts at dates SQLite can read
(`compactionAgrees_of_keepsAgreement`).
-/

namespace NeonHearth.Flow

open List Option FlowStore SortedMap

/-- An engine with the repository its changes are applied to. -/
structure RepositoryState where
  flow : FlowState
  store : FlowStore
  /-- `max_batch` of the repository. -/
  maxBatch : ℕ

inductive RepositoryEvent where
  | observe (o : FlowObservation)
  | advance (next now : DateTime)
  | compact (now : DateTime) (policy : CompactionPolicy)

namespace RepositoryState

variable (st : RepositoryState)

/-- A successful observation or advance, or a compaction with any result. -/
def step : RepositoryEvent → Option RepositoryState
  | .observe o => (st.flow.step (.observe o)).map fun flow => { st with flow := flow }
  | .advance next now =>
    match st.flow.engine.advanceWatermarkAt next now with
    | .ok (changes, engine) =>
      match st.store.apply st.maxBatch changes with
      | .ok store => some { st with
          flow := ⟨engine, st.flow.accepted, st.flow.accepted,
            changes.foldl applyChange st.flow.durable⟩
          store := store }
      | .error _ => none
    | .error _ => none
  | .compact now policy => some { st with store := (st.store.compact now policy).1 }

/-- The step emits and mixes what it revises, observes metadata that the columns tell apart or
compacts at dates that SQLite can read. -/
def KeepsAgreement : RepositoryEvent → Prop
  | .observe o => (o.key st.flow.engine.cfg).toOption.all fun k =>
      k.base.dims.metadata ≠ some ⟨none, none⟩
  | .advance next now => EmitsRevisions st.flow (.advance next now) ∧
      MixesRevisions st.flow (.advance next now)
  | .compact now policy => CutsInEra now policy

end RepositoryState

/-- All runs from a new engine and an empty repository. -/
def repositoryMachine : Machine RepositoryState RepositoryEvent where
  init st := flowMachine.init st.flow ∧ st.store = ⟨∅, ∅⟩
  step := RepositoryState.step

/-- No compaction finds a conflict, and every parent with child rows left has their group value. -/
def CompactionAgrees (store : FlowStore) : Prop :=
  (∀ now policy, (store.compact now policy).2 ≠ .error .compactionConflict) ∧
    ∀ child parent, child ≠ .hour → store.childRows child parent ≠ [] →
      store.table.get parent = some (groupValue (store.childRows child parent))

/-! ### Applying changes -/

variable {store store' : FlowStore} {durable : SortedMap RollupKey Value} {k : RollupKey}

theorem upsert_spec {v : Value} (h : store.upsert k v = .ok store') :
    store.sealed k = false ∧
      store' = { store with table := store.table.insert k.stored v } := by
  simp only [upsert, Except.bind_eq_ok, Except.pure_eq_ok, reject_eq_ok] at h
  obtain ⟨_, -, _, -, _, -, _, -, _, hopen, rfl⟩ := h
  refine ⟨decide_eq_false fun hsealed => hopen ⟨hsealed.1, .inr hsealed.2⟩, rfl⟩

variable {change : RollupChange}

theorem applyChange_spec (h : store.applyChange change = .ok store') :
    (∃ k v, change.Writes k v ∧ store.upsert k v = .ok store') ∨
      (∀ k v, ¬change.Writes k v) ∧ store' = store := by
  cases change with
  | upsert k v => exact .inl ⟨k, v, .inl rfl, h⟩
  | correction k v => exact .inl ⟨k, v, .inr rfl, h⟩
  | retire k cacheOnly =>
    refine .inr ⟨fun l w hw => by simp [RollupChange.Writes] at hw, ?_⟩
    cases cacheOnly with
    | true => exact (Except.ok.inj h).symm
    | false => cases h

theorem applyChange_of_not_writes (h : ∀ k v, ¬change.Writes k v) :
    applyChange durable change = durable := by
  cases change with
  | upsert k v => exact (h k v (.inl rfl)).elim
  | correction k v => exact (h k v (.inr rfl)).elim
  | retire k cacheOnly => rfl

theorem StoreRel.insert {rows} (h : StoreRel rows store)
    (hk : k.dims.Plain) (hopen : store.sealed k = false) (v : Value) :
    StoreRel (rows.insert k v) { store with table := store.table.insert k.stored v } where
  table_get {l} hl := by
    have hsealed : sealed { store with table := store.table.insert k.stored v } l =
        store.sealed l := rfl
    rw [hsealed, get_insert, get_insert]
    by_cases hkl : l = k
    · subst hkl
      simp [hopen]
    · rw [if_neg fun heq => hkl (RollupKey.eq_of_stored hl hk heq), if_neg hkl]
      exact h.table_get hl
  plain {t} ht := by
    by_cases htk : t = k.stored
    · exact ⟨k, hk, htk⟩
    · rw [show (store.table.insert k.stored v).get t = store.table.get t from
        get_insert_of_ne _ _ htk] at ht
      exact h.plain ht

variable {changes : List RollupChange}

/-- **Applying the changes of an advance** keeps the tables in relation with the durable rows, and
every row written belongs to an unsealed parent. -/
theorem StoreRel.applyChanges (h : StoreRel durable store)
    (hplain : ∀ change ∈ changes, ∀ k v, change.Writes k v → k.dims.Plain)
    (ha : changes.foldlM FlowStore.applyChange store = .ok store') :
    StoreRel (changes.foldl applyChange durable) store' ∧ store'.seals = store.seals ∧
      ∀ change ∈ changes, ∀ k v, change.Writes k v → store.sealed k = false := by
  induction changes generalizing durable store with
  | nil =>
    cases ha
    exact ⟨h, rfl, by simp⟩
  | cons change changes ih =>
    rw [foldlM_cons] at ha
    obtain ⟨store₁, hchange, hrun⟩ := Except.bind_eq_ok.1 ha
    have hrest : ∀ c ∈ changes, ∀ k v, c.Writes k v → k.dims.Plain :=
      fun c hc => hplain c (mem_cons_of_mem _ hc)
    obtain ⟨k, v, hwrites, hupsert⟩ | ⟨hnot, rfl⟩ := applyChange_spec hchange
    · obtain ⟨hopen, rfl⟩ := upsert_spec hupsert
      have hk := hplain change mem_cons_self k v hwrites
      obtain ⟨hrel, hseals, hall⟩ := ih (h.insert hk hopen v) hrest hrun
      refine ⟨?_, hseals, fun c hc l w hw => ?_⟩
      · obtain rfl | rfl := hwrites <;> exact hrel
      · obtain rfl | hc := mem_cons.1 hc
        · have hlk : l = k := by
            obtain rfl | rfl := hwrites <;> obtain heq | heq := hw <;> cases heq <;> rfl
          rw [hlk, hopen]
        · exact hall c hc l w hw
    · obtain ⟨hrel, hseals, hall⟩ := ih h hrest hrun
      refine ⟨?_, hseals, fun c hc l w hw => ?_⟩
      · rw [foldl_cons, applyChange_of_not_writes hnot]
        exact hrel
      · obtain rfl | hc := mem_cons.1 hc
        · exact (hnot l w hw).elim
        · exact hall c hc l w hw

/-- A row that is new after the changes has been written by one of them. -/
theorem exists_writes (hold : durable.get k = none)
    (hnew : (changes.foldl applyChange durable).get k ≠ none) :
    ∃ change ∈ changes, ∃ v, change.Writes k v := by
  induction changes generalizing durable with
  | nil => exact (hnew hold).elim
  | cons change changes ih =>
    rw [foldl_cons] at hnew
    by_cases hw : ∃ v, change.Writes k v
    · exact ⟨change, mem_cons_self, hw⟩
    have hsame : (applyChange durable change).get k = none := by
      cases change with
      | upsert l v | correction l v =>
        refine (get_insert_of_ne _ _ ?_).trans hold
        rintro rfl
        exact hw ⟨v, by simp [RollupChange.Writes]⟩
      | retire l cacheOnly => exact hold
    obtain ⟨c, hc, hcw⟩ := ih hsame hnew
    exact ⟨c, mem_cons_of_mem _ hc, hcw⟩

/-- A new second in a sealed hour would have been written into a sealed minute, or its minute into
the sealed hour. -/
theorem HourSealed.applyChanges {rows rows'} (h : HourSealed rows store)
    (hr : RolledUp rows) (hr' : RolledUp rows') (hseals : store'.seals = store.seals)
    (hopen : ∀ k, rows.get k = none → rows'.get k ≠ none → store.sealed k = false) :
    HourSealed rows' store' := by
  intro base hbase hhour
  rw [hseals] at hhour ⊢
  by_cases hold : rows.get base.row = none
  · exfalso
    have hrow := hopen base.row hold hbase
    have hminute : store.seals.get (base.parent .minute).stored = none := by
      by_contra hne
      rw [sealed, decide_eq_false_iff_not] at hrow
      exact hrow ⟨by simp [SecondKey.row], hne⟩
    obtain ⟨v, hv, -⟩ := hr'.parent hbase (by simp [SecondKey.row])
    replace hv : rows'.get (base.parent .minute) = some v := hv
    have hparent : (base.parent .minute).parent = base.parent .hour := base.parent_parent (by decide)
    by_cases hold' : rows.get (base.parent .minute) = none
    · have hm := hopen _ hold' (by simp [hv])
      rw [sealed, decide_eq_false_iff_not, hparent] at hm
      exact hm ⟨by simp [SecondKey.parent], hhour⟩
    obtain ⟨b, hb, hbrow⟩ := hr.exists_second hold'
    replace hb : b.parent .minute = base.parent .minute := hb
    have hbhour : b.parent .hour = base.parent .hour := parent_eq_of_minute hb (by decide)
    have := h b hbrow (hbhour ▸ hhour)
    rw [hb] at this
    exact this hminute
  · exact h base hold hhour

/-! ### Runs -/

/-- Observed dimensions are told apart by the columns. -/
def PlainLedger (ledger : Ledger) : Prop := ∀ entry ∈ ledger, entry.1.base.dims.Plain

/-- The invariant of the runs in which engine and compaction agree. -/
structure AgreementInv (st : RepositoryState) : Prop where
  caches : RollupInv st.flow
  durable : DurableInv st.flow
  coverage : CoverageInv st.flow
  plain : PlainLedger st.flow.accepted
  store : StoreRel st.flow.durable st.store
  hours : HourSealed st.flow.durable st.store

theorem plain_of_durable {st} (h : RollupInv st) (hd : DurableInv st)
    (hplain : PlainLedger st.accepted) (base : SecondKey) (hbase : st.durable.get base.row ≠ none) :
    base.dims.Plain := by
  rw [hd.second_row, FlowState.reportedValue] at hbase
  split at hbase
  · by_contra hnot
    refine hbase (Ledger.winning_eq_none.2 fun s => by_contra fun hs => ?_)
    have hopened := h.grown _ hs
    rw [Ledger.opened] at hopened
    split at hopened
    · next hmem =>
      obtain ⟨entry, hentry, hkey⟩ := mem_map.1 hmem
      exact hnot (by simpa [hkey] using hplain entry hentry)
    · exact hopened rfl
  · exact (hbase rfl).elim

namespace AgreementInv

variable {st st' : RepositoryState}

theorem rolledUp (h : AgreementInv st) : RolledUp st.flow.durable :=
  h.durable.rolledUp h.coverage (plain_of_durable h.caches h.durable h.plain)

theorem observe (h : AgreementInv st) {o} (hg : st.KeepsAgreement (.observe o))
    (hs : st.step (.observe o) = some st') : AgreementInv st' := by
  obtain ⟨flow, hflow, rfl⟩ := map_eq_some_iff.1 hs
  obtain ⟨hcaches, hdurable⟩ := h.durable.step h.caches (e := .observe o) trivial hflow
  obtain ⟨k, engine, hk, ho, rfl⟩ := step_observe hflow
  obtain ⟨_, _, -, -, -, -, -, hsources, hw, -, -⟩ := observe_spec ho
  refine ⟨hcaches, hdurable, ?_, forall_mem_concat.2 ⟨h.plain, ?_⟩, h.store, h.hours⟩
  · have hval : FlowState.reportedValue { st.flow with
        engine := engine, accepted := st.flow.accepted ++ [(k, o.bytes)] } =
          st.flow.reportedValue := reportedValue_congr hw hsources rfl
    rw [CoverageInv, hval]
    exact h.coverage
  · simp only [RepositoryState.KeepsAgreement, Except.toOption_eq_some.2 hk, all_some,
      decide_eq_true_eq] at hg
    exact hg

theorem advance (h : AgreementInv st) {next now}
    (hg : st.KeepsAgreement (.advance next now)) (hs : st.step (.advance next now) = some st') :
    AgreementInv st' := by
  simp only [RepositoryState.step] at hs
  split at hs
  · next changes engine ha =>
    split at hs
    · next store happly =>
      cases hs
      have hadv := advance_spec ha
      have hcaches := h.caches.advance (h.caches.noLeftover hadv hg.1) hadv
        (changes.foldl applyChange st.flow.durable)
      have hdurable := h.durable.advance h.caches hadv hg.1
      have hcoverage := h.coverage.advance h.durable h.caches hadv hg.1 hg.2
      have hrolled := hdurable.rolledUp hcoverage (plain_of_durable hcaches hdurable h.plain)
      -- what is written is durable afterwards, hence plain
      have hplain : ∀ change ∈ changes, ∀ k v, change.Writes k v → k.dims.Plain := by
        intro change hchange k v hwrites
        refine hrolled.plain ?_
        rw [hdurable.cached k v (get_of_writes hadv ⟨change, hchange, hwrites⟩)]
        simp
      obtain ⟨_, -, hchanges⟩ := Except.bind_eq_ok.1 happly
      obtain ⟨hrel, hseals, hopen⟩ := h.store.applyChanges hplain hchanges
      refine ⟨hcaches, hdurable, hcoverage, h.plain, hrel,
        h.hours.applyChanges h.rolledUp hrolled hseals fun k hold hnew => ?_⟩
      obtain ⟨change, hchange, v, hwrites⟩ := exists_writes hold hnew
      exact hopen change hchange k v hwrites
    · cases hs
  · cases hs

theorem step (h : AgreementInv st) {e} (hg : st.KeepsAgreement e)
    (hs : st.step e = some st') : AgreementInv st' := by
  cases e with
  | observe o => exact h.observe hg hs
  | advance next now => exact h.advance hg hs
  | compact now policy =>
    cases hs
    obtain ⟨hstore, hhours⟩ := (h.store.compact h.rolledUp h.hours now policy).2 hg
    exact { h with store := hstore, hours := hhours }

end AgreementInv

theorem agreementInv_start {st} (h : repositoryMachine.init st) : AgreementInv st := by
  obtain ⟨hflow, hstore⟩ := h
  have hdurable := durableInv_start hflow
  have hcaches := rollupInv_start hflow
  obtain ⟨cfg, registrations, engine, hnew, hst⟩ := hflow
  refine ⟨hcaches, hdurable, ?_, ?_, ?_, ?_⟩
  · rw [hst]
    intro k v _ hk
    cases hk
  · rw [hst]
    exact fun _ hentry => nomatch hentry
  · rw [hst, hstore]
    exact ⟨fun _ => by simp, fun ht => (ht rfl).elim⟩
  · rw [hst]
    exact fun _ hbase => (hbase rfl).elim

/-- **Engine and compaction agree** in every run that keeps their agreement. -/
theorem compactionAgrees_of_keepsAgreement {st : RepositoryState}
    (h : repositoryMachine.Via RepositoryState.KeepsAgreement st) : CompactionAgrees st.store := by
  have hinv : AgreementInv st := h.invariant (fun _ => agreementInv_start)
    fun _ _ _ hi hg hs => hi.step hg hs
  refine ⟨fun now policy => (hinv.store.compact hinv.rolledUp hinv.hours now policy).1,
    fun child parent hchild hne => ?_⟩
  refine hinv.store.childRows_agree hinv.rolledUp hchild ?_ hne
  cases child with
  | hour => exact (hchild rfl).elim
  | minute => exact parentOpen_minute _ _
  | second => exact hinv.hours.parentOpen

/-! ### Sample runs -/

instance (st : FlowState) (e : FlowEvent) : Decidable (MixesRevisions st e) := by
  induction e using FlowEvent.casesOn <;> unfold MixesRevisions <;> infer_instance

instance (st : RepositoryState) (e : RepositoryEvent) : Decidable (st.KeepsAgreement e) := by
  cases e <;> dsimp only [RepositoryState.KeepsAgreement, CutsInEra] <;> infer_instance

/-- A run of an engine with the default configuration and an empty repository. -/
def repositoryRun (registrations : List SourceRegistration) (events : List RepositoryEvent) :
    Option RepositoryState :=
  (FlowEngine.new .default registrations).toOption.bind fun engine =>
    repositoryMachine.exec ⟨⟨engine, [], [], ∅⟩, ⟨∅, ∅⟩, 100⟩ events

/-- A gateway and a device's own counter. -/
def sampleSources : List SourceRegistration := [⟨1, .gateway⟩, ⟨2, .local⟩]

/-- Two days after the epoch. -/
def secondDay : DateTime where
  nanos := days 2
  min_le := by decide
  lt_max := by decide

/-- The device reports two seconds of a minute, and the gateway reports the first one late. -/
def mixedRun : List RepositoryEvent :=
  [.observe (sampleUpload 1 (halfSecond 20) 2 100), .observe (sampleUpload 2 (halfSecond 22) 2 7),
    .advance (halfSecond 24) (halfSecond 24),
    .observe ⟨3, halfSecond 21, halfSecond 24, 1, 111, 0, .tcp, .internet, 1, 1, none⟩,
    .advance (halfSecond 26) (halfSecond 26), .compact (halfSecond 26) .default]

theorem mixedRun_compactionAgrees :
    ∃ st, repositoryRun sampleSources mixedRun = some st ∧
      st.store.table.get sampleMinute.stored = some ⟨⟨118, 0⟩, .estimated⟩ ∧
      CompactionAgrees st.store := by
  refine exists_and_imp (by decide +kernel) fun st hst _ => ?_
  exact compactionAgrees_of_keepsAgreement (.of_bind (fun engine hengine =>
    ⟨⟨_, _, engine, Except.toOption_eq_some.1 hengine, rfl⟩, rfl⟩) hst (by decide +kernel))

/-- The device reports a second, and the gateway reports the same second late. -/
def switchRun : List RepositoryEvent :=
  [.observe (sampleUpload 1 (halfSecond 20) 2 100), .advance (halfSecond 22) (halfSecond 22),
    .observe ⟨2, halfSecond 21, halfSecond 24, 1, 111, 0, .tcp, .internet, 1, 1, none⟩,
    .advance (halfSecond 26) (halfSecond 26)]

/-- The only second of the minute is complete and the minute is estimated; every later compaction
stops at it. -/
theorem switchRun_not_compactionAgrees :
    ∃ st, repositoryRun sampleSources switchRun = some st ∧
      st.store.table.get sampleMinute.stored = some ⟨⟨111, 0⟩, .estimated⟩ ∧
      groupValue (st.store.childRows .second sampleMinute.stored) = ⟨⟨111, 0⟩, .complete⟩ ∧
      (st.store.compact secondDay .default).2 = .error .compactionConflict ∧
      ¬CompactionAgrees st.store := by
  simp only [← and_assoc]
  refine exists_and_of_imp ?_ fun st ⟨_, hconflict⟩ h => h.1 _ _ hconflict
  simp only [and_assoc]
  decide +kernel

end NeonHearth.Flow
