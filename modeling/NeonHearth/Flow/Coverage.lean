import NeonHearth.Data.FlatMerge
import NeonHearth.Flow.Completeness

/-!
# The coverage of the rollups

A minute or an hour should carry the merged coverage of its seconds.  The closing loop merges the
new coverage of a revised second into its parents and cannot take the old one out again, so what
the loop keeps is the merged coverage of the old and the new values (`LoopInv.loop_coverage`).  The
two agree when a second that changes its coverage shares its minute with a second of another
coverage (`MixesRevisions`): the minute and the hour are estimated then either way.

* `CoverageInv` : the durable minutes and hours have the merged coverage of their seconds;
* `CoverageInv.step` : every step that emits and mixes what it revises keeps it.
-/

namespace NeonHearth.Flow

open SortedMap RollupKey Function Option Set

/-- The coverages of the seconds of a row. -/
def coverages (val : SecondKey → Option Value) (k : RollupKey) : Set Coverage :=
  {c | ∃ base ∈ k.seconds, ∃ v, val base = some v ∧ v.coverage = c}

/-- The minutes and the hours have the merged coverage of the labels in `labels`. -/
def ParentCoverage (rows : SortedMap RollupKey Value) (labels : RollupKey → Set Coverage) : Prop :=
  ∀ k v, k.resolution ≠ .second → rows.get k = some v →
    Merged .estimated (labels k) v.coverage

variable {val : SecondKey → Option Value} {k : RollupKey} {base : SecondKey}
  {rows : SortedMap RollupKey Value} {val' : SecondKey → Option Value}

theorem coverages_congr
    (h : ∀ base ∈ k.seconds, val base = val' base) : coverages val k = coverages val' k := by
  ext c
  refine exists_congr fun base => and_congr_right fun hbase => ?_
  rw [h base hbase]

theorem coverages_eq_empty (h : ∀ base ∈ k.seconds, val base = none) : coverages val k = ∅ := by
  refine eq_empty_iff_forall_notMem.2 ?_
  rintro c ⟨base, hbase, v, hv, -⟩
  simp [h base hbase] at hv

/-! ### The closing loop -/

/-- The labels that the loop has merged: those of the old and of the revised values. -/
def mergedSoFar (val revised : SecondKey → Option Value) (k : RollupKey) : Set Coverage :=
  coverages val k ∪ coverages revised k

variable {rev : SecondKey → Option Value} {rows' : SortedMap RollupKey Value}
  {selected : SortedMap SecondKey Value} {v : Value}

theorem mergedSoFar_update_of_ne (h : base ∉ k.seconds) :
    mergedSoFar val (Function.update rev base (some v)) k = mergedSoFar val rev k := by
  refine congrArg (coverages val k ∪ ·) (coverages_congr fun b hb => ?_)
  rw [update_of_ne]
  rintro rfl
  exact h hb

/-- Revising a second adds its new label; its old one has been merged already. -/
theorem mergedSoFar_update (hbase : base ∈ k.seconds)
    (hrev : rev base = val base ∨ rev base = some v) :
    mergedSoFar val (Function.update rev base (some v)) k =
      insert v.coverage (mergedSoFar val rev k) := by
  ext c
  constructor
  · rintro (hc | ⟨b, hb, x, hx, rfl⟩)
    · exact .inr (.inl hc)
    by_cases heq : b = base
    · subst heq
      rw [update_self, some.injEq] at hx
      exact .inl (congrArg Value.coverage hx.symm)
    · rw [update_of_ne heq] at hx
      exact .inr (.inr ⟨b, hb, x, hx, rfl⟩)
  · rintro (rfl | hc | ⟨b, hb, x, hx, rfl⟩)
    · exact .inr ⟨base, hbase, v, update_self .., rfl⟩
    · exact .inl hc
    by_cases heq : b = base
    · subst heq
      obtain hval | hnew := hrev
      · exact .inl ⟨b, hb, x, hval ▸ hx, rfl⟩
      · rw [hnew, some.injEq] at hx
        subst hx
        exact .inr ⟨b, hb, v, update_self .., rfl⟩
    · exact .inr ⟨b, hb, x, by rw [update_of_ne heq, hx], rfl⟩

variable {res : Resolution}

variable {retired : RollupKey → Bool}

theorem LoopInv.closeSecond_coverage (h : LoopInv retired rows rev)
    (hcov : ParentCoverage rows (mergedSoFar val rev)) (hgrows : ∀ b, rev b = none → val b = none)
    (hrev : rev base = val base ∨ rev base = some v)
    (hlive : ∀ res, retired (base.parent res) = false) (hrow : retired base.row = false)
    (hc : Flow.closeSecond rows (base, v) = .ok rows') :
    ParentCoverage rows' (mergedSoFar val (Function.update rev base (some v))) := by
  have hold : rows.get base.row = rev base := by rw [h.second_row, hrow]; rfl
  obtain ⟨hsame, rfl⟩ | ⟨hne, -⟩ := closeSecond_spec hc
  · rw [← hsame, hold, update_eq_self]
    exact hcov
  intro k w hres hk
  obtain ⟨p, hself, hother, -, hcoverage⟩ := get_parent_closeSecond hres hne hc
  by_cases hparent : k = base.parent k.resolution
  · obtain rfl := some.inj (hk.symm.trans ((congrArg rows'.get hparent).trans hself))
    have hbase : base ∈ k.seconds := mem_seconds.2 hparent.symm
    rw [mergedSoFar_update hbase hrev, hcoverage, ← hparent]
    cases hp : rows.get k with
    | some q => exact (hcov k q hres hp).insert v.coverage
    | none =>
      -- a parent without a row has no reported second
      have hkids : ∀ b ∈ k.seconds, rev b = none := by
        intro b hb
        have hb' := mem_seconds.1 hb
        by_contra hsome
        refine (h.parent_rows _ hres).isSome (i := b) (by simpa using hsome) ?_ ?_
        · exact (congrArg retired (hb'.trans hparent)).trans (hlive _)
        · exact congrArg (Option.map Value.bytes) ((congrArg rows.get hb').trans hp)
      rw [mergedSoFar, coverages_eq_empty hkids,
        coverages_eq_empty fun b hb => hgrows b (hkids b hb), union_self, insert_empty_eq]
      simp only [map_none, getD_none, mergeCoverage, if_true]
      exact merged_singleton _
  · rw [mergedSoFar_update_of_ne fun hbase => hparent (mem_seconds.1 hbase).symm]
    exact hcov k w hres ((hother k rfl hparent).symm.trans hk)

theorem val_of_revised_eq_none {done} (hdone : ∀ entry ∈ done, selected.get entry.1 ≠ none) {b}
    (h : revised selected val done b = none) : val b = none := by
  rw [revised] at h
  split at h
  · next hmem =>
    obtain ⟨entry, hentry, rfl⟩ := List.mem_map.1 hmem
    exact (hdone entry hentry h).elim
  · exact h

/-- The whole closing loop merges the old and the new labels. -/
theorem LoopInv.loop_coverage {closed}
    (h : LoopInv retired rows val) (hcov : ParentCoverage rows (coverages val))
    (hlive : ∀ base, selected.get base ≠ none →
      retired base.row = false ∧ ∀ res, retired (base.parent res) = false)
    (hloop : selected.toList.foldlM Flow.closeSecond rows = .ok closed) :
    ParentCoverage closed (mergedSoFar val fun base => (selected.get base).or (val base)) := by
  rw [← revised_toList]
  refine (foldlM_invariant (I := fun done rows => LoopInv retired rows (revised selected val done) ∧
    ParentCoverage rows (mergedSoFar val (revised selected val done))) hloop ⟨h, ?_⟩
    fun done entry rest b b' hl hI hb => ?_).2
  · have hstart : mergedSoFar val (revised selected val []) = coverages val :=
      funext fun k => union_self _
    rwa [hstart]
  obtain ⟨base, v⟩ := entry
  have hget : ∀ entry ∈ done ++ (base, v) :: rest, selected.get entry.1 = some entry.2 :=
    fun entry hentry => mem_toList.1 (hl ▸ hentry)
  have hbase : selected.get base = some v := hget (base, v) (by simp)
  obtain ⟨hrow, hparents⟩ := hlive base (by simp [hbase])
  have hrev : revised selected val done base = val base ∨
      revised selected val done base = some v := by
    rw [revised]
    split
    · exact .inr hbase
    · exact .inl rfl
  rw [revised_append hbase]
  refine ⟨hI.1.closeSecond hparents hrow hb, hI.1.closeSecond_coverage hI.2 (fun c hc => ?_) hrev
    hparents hrow hb⟩
  exact val_of_revised_eq_none (fun e he => by simp [hget e (by simp [he])]) hc

/-! ### An advance of the watermark -/

theorem parent_eq_of_minute {b c : SecondKey} (h : b.parent .minute = c.parent .minute)
    (hres : res ≠ .second) : b.parent res = c.parent res := by
  have hbucket : b.epoch / 60 * 60 = c.epoch / 60 * 60 := congrArg bucket h
  have hdims : b.dims = c.dims := congrArg dims h
  cases res with
  | second => exact (hres rfl).elim
  | minute => exact h
  | hour =>
    refine RollupKey.ext rfl ?_ hdims
    simp only [SecondKey.parent, bucketOf, Resolution.width]
    omega

/-- The labels of the old values do not matter when a second with a new label shares its minute
with a second of another label. -/
theorem merged_of_mergedSoFar (hgrows : ∀ base, val' base = none → val base = none)
    (hmix : ∀ base x y, val base = some x → val' base = some y → x.coverage ≠ y.coverage →
      ∃ b ∈ (base.parent .minute).seconds, ∃ z, val' b = some z ∧ z.coverage ≠ y.coverage)
    (hres : k.resolution ≠ .second) {c} (h : Merged .estimated (mergedSoFar val val' k) c) :
    Merged .estimated (coverages val' k) c := by
  by_cases hrev : ∃ base ∈ k.seconds, ∃ x y, val base = some x ∧ val' base = some y ∧
      x.coverage ≠ y.coverage
  · obtain ⟨base, hbase, x, y, hx, hy, hne⟩ := hrev
    obtain ⟨b, hb, z, hz, hzy⟩ := hmix base x y hx hy hne
    have hbk : b ∈ k.seconds := mem_seconds.2
      ((parent_eq_of_minute (mem_seconds.1 hb) hres).trans
        (mem_seconds.1 hbase))
    have hymem : y.coverage ∈ coverages val' k := ⟨base, hbase, y, hy, rfl⟩
    exact .mixed ⟨b, hbk, z, hz, rfl⟩ hymem hzy
      (h.eq_top (.inl ⟨base, hbase, x, hx, rfl⟩) (.inr hymem) hne)
  · -- no label of the bucket has changed
    have hsub : coverages val k ⊆ coverages val' k := by
      rintro c ⟨base, hbase, x, hx, rfl⟩
      have hsome : val' base ≠ none := fun hnone => by simp [hgrows base hnone] at hx
      obtain ⟨y, hy⟩ := ne_none_iff_exists'.1 hsome
      refine ⟨base, hbase, y, hy, ?_⟩
      by_contra hne
      exact hrev ⟨base, hbase, x, y, hx, hy, fun heq => hne heq.symm⟩
    rwa [mergedSoFar, union_eq_self_of_subset_left hsub] at h

/-- A second whose coverage an advance revises shares its minute with a second of another
coverage. -/
def MixesRevisions (st : FlowState) : FlowEvent → Prop
  | .observe _ => True
  | .advance next _ => (selectSeconds st.engine.seconds st.engine.sources next).toOption.all
      fun selected => selected.toList.all fun entry =>
        (st.durable.get entry.1.row).all fun old => old.coverage = entry.2.coverage ∨
          ∃ base ∈ (entry.1.parent .minute).seconds,
            ((selected.get base).or (st.durable.get base.row)).any
              (·.coverage ≠ entry.2.coverage) = true

theorem mixesRevisions_iff {st next now}
    (hsel : selectSeconds st.engine.seconds st.engine.sources next = .ok selected) :
    MixesRevisions st (.advance next now) ↔ ∀ base v, selected.get base = some v →
      ∀ old, st.durable.get base.row = some old → old.coverage = v.coverage ∨
        ∃ b ∈ (base.parent .minute).seconds, ∃ z,
          (selected.get b).or (st.durable.get b.row) = some z ∧ z.coverage ≠ v.coverage := by
  simp only [MixesRevisions, Except.toOption_eq_some.2 hsel, all_some, List.all_eq_true,
    Prod.forall, SortedMap.mem_toList, all_eq_true, any_eq_true, decide_eq_true_eq]

/-- The durable minutes and hours have the merged coverage of their seconds. -/
def CoverageInv (st : FlowState) : Prop := ParentCoverage st.durable (coverages st.reportedValue)

/-- **The coverage after an advance** that emits and mixes what it revises. -/
theorem CoverageInv.advance {st} (hcov : CoverageInv st) (hd : DurableInv st)
    (h : RollupInv st) {next now engine' changes}
    (ha : Advanced st.engine next engine' changes) (hg : EmitsRevisions st (.advance next now))
    (hm : MixesRevisions st (.advance next now)) :
    CoverageInv ⟨engine', st.accepted, st.accepted, changes.foldl applyChange st.durable⟩ := by
  set st' : FlowState :=
    ⟨engine', st.accepted, st.accepted, changes.foldl applyChange st.durable⟩ with hst'
  obtain ⟨selected, closed, hsel, hloop, hem⟩ := ha.loop
  have hval : ∀ base, st'.reportedValue base = (selected.get base).or (st.reportedValue base) := by
    intro base
    rw [h.selected_or ha hsel, FlowState.reportedValue, ha.sources]
  have hstart : LoopInv st.engine.isRetired st.engine.emitted st.reportedValue :=
    ⟨h.second_row, h.parent_rows⟩
  have hend := hstart.loop_coverage (fun k v hres hk => hcov k v hres (hd.cached k v hk))
    (fun base => live_of_selected (h.noLeftover ha hg) hsel) hloop
  rw [← funext hval] at hend
  intro k v hres hk
  rw [hst', hd.get_next ha] at hk
  cases hc : engine'.emitted.get k with
  | none =>
    rw [hc, none_or] at hk
    rw [coverages_congr fun base hbase => h.reported_uncached ha hg _ hres hc hbase]
    exact hcov k v hres hk
  | some w =>
    rw [hc, some_or, some.injEq] at hk
    subst hk
    have hclosed : closed.get k = some w := by
      rw [hem, SortedMap.get_filter, filter_eq_some_iff] at hc
      exact hc.1
    refine merged_of_mergedSoFar (fun base => h.reported_grows ha _) ?_ hres
      (hend k w hres hclosed)
    intro base x y hx hy hne
    rw [hval] at hy
    have hsel_base : selected.get base = some y := by
      cases hs : selected.get base with
      | none =>
        rw [hs, none_or, hx, some.injEq] at hy
        exact (hne (congrArg Value.coverage hy)).elim
      | some z =>
        rw [hs, some_or] at hy
        exact hy
    obtain heq | ⟨b, hb, z, hz, hzy⟩ := (mixesRevisions_iff hsel).1 hm base y hsel_base x
      ((hd.second_row base).trans hx)
    · exact (hne heq).elim
    · exact ⟨b, hb, z, by rw [hval, ← hd.second_row, hz], hzy⟩

end NeonHearth.Flow
