import NeonHearth.Flow.Coverage
import NeonHearth.Flow.Store

/-!
# Compaction of rolled up rows

What compaction does to the tables when the rows it started from are rolled up: every second has
its minute and every minute its hour, with the sum and the merged coverage of the rows below
(`RolledUp`).  Compaction deletes child rows and seals their parents, so the tables are the rolled
up rows without the children of sealed parents (`StoreRel`), and a sealed hour has only sealed
minutes (`HourSealed`).

* `StoreRel.childRows_agree` : a parent with child rows left has the group value of those rows;
* `StoreRel.compact` : compaction finds no conflict, and it keeps the relation if SQLite can read the
  date that seconds expire at;
* `compactLevel_ne_unfinished` : the loop of a level ends.
-/

namespace NeonHearth.Flow

open SortedMap List Option RollupKey FlowStore SecondKey Resolution

/-! ### Keys -/

/-- The columns of a row can be told from those of other dimensions. -/
def Dimensions.Plain (d : Dimensions) : Prop := d.metadata ≠ some ⟨none, none⟩

theorem Dimensions.eq_of_stored {d e : Dimensions} (hd : d.Plain) (he : e.Plain)
    (h : d.stored = e.stored) : d = e := by
  obtain ⟨device, protocol, destination, interface, metadata⟩ := d
  obtain ⟨device', protocol', destination', interface', metadata'⟩ := e
  simp only [Dimensions.stored, Dimensions.mk.injEq, some.injEq] at h
  obtain ⟨rfl, rfl, rfl, rfl, h⟩ := h
  refine Dimensions.ext rfl rfl rfl rfl ?_
  cases metadata with
  | none =>
    cases metadata' with
    | none => rfl
    | some m => exact (he (congrArg some h.symm)).elim
  | some m =>
    cases metadata' with
    | none => exact (hd (congrArg some h)).elim
    | some m' => exact congrArg some h

variable {k p t l : RollupKey} {child : Resolution} {rows : SortedMap RollupKey Value}
  {st : FlowState} {store store' : FlowStore} {cut : Option ℤ}

theorem RollupKey.eq_of_stored (hk : k.dims.Plain) (hl : l.dims.Plain) (h : k.stored = l.stored) :
    k = l := by
  have hr : k.stored.resolution = l.stored.resolution := congrArg resolution h
  have hb : k.stored.bucket = l.stored.bucket := congrArg bucket h
  exact RollupKey.ext hr hb (Dimensions.eq_of_stored hk hl (congrArg dims h))

theorem RollupKey.parent_stored (k : RollupKey) : k.stored.parent = k.parent.stored := rfl

theorem SecondKey.parent_second (base : SecondKey) : base.parent .second = base.row := by
  refine RollupKey.ext rfl ?_ rfl
  simp [parent, row, bucketOf, width]

/-- The bucket of a second's bucket is the second's. -/
theorem SecondKey.parent_parent (base : SecondKey) (h : child ≠ .hour) :
    (base.parent child).parent = base.parent child.parent := by
  refine RollupKey.ext rfl ?_ rfl
  cases child with
  | hour => exact (h rfl).elim
  | second | minute =>
    simp only [RollupKey.parent, parent, bucketOf, Resolution.parent, Resolution.width]
    omega

/-- The rows of a resolution that are aggregated into a row. -/
def children (child : Resolution) (p : RollupKey) : Finset RollupKey :=
  p.seconds.image (SecondKey.parent child)

theorem mem_children (hchild : child ≠ .hour) (h : l ∈ children child p)
    (hp : p.resolution = child.parent) : l.resolution = child ∧ l.parent = p := by
  obtain ⟨base, hbase, rfl⟩ := Finset.mem_image.1 h
  refine ⟨rfl, ?_⟩
  rw [base.parent_parent hchild, ← hp]
  exact mem_seconds.1 hbase

/-! ### Rolled up rows -/

/-- Every row contains a second, and every second and minute is rolled up into its parent. -/
structure RolledUp (rows : SortedMap RollupKey Value) : Prop where
  plain : ∀ {k}, rows.get k ≠ none → k.dims.Plain
  exists_second : ∀ {k}, rows.get k ≠ none →
    ∃ base : SecondKey, base.parent k.resolution = k ∧ rows.get base.row ≠ none
  parent : ∀ {k}, rows.get k ≠ none → k.resolution ≠ .hour → ∃ v, rows.get k.parent = some v ∧
    v.bytes = ∑ l ∈ children k.resolution k.parent, bytesOf (rows.get l) ∧
    ∀ c, Merged .estimated {x | ∃ l ∈ children k.resolution k.parent,
      (rows.get l).map Value.coverage = some x} c → v.coverage = c

theorem RolledUp.mem_children (h : RolledUp rows) (hk : rows.get k ≠ none)
    (hres : k.resolution ≠ .hour) : k ∈ children k.resolution k.parent := by
  obtain ⟨base, hbase, -⟩ := h.exists_second hk
  refine Finset.mem_image.2 ⟨base, mem_seconds.2 ?_, hbase⟩
  conv_rhs => rw [← hbase]
  exact (base.parent_parent hres).symm

theorem seconds_row (base : SecondKey) : base.row.seconds = {base} := by
  ext b
  rw [mem_seconds, Finset.mem_singleton]
  constructor
  · intro h
    replace h : b.parent .second = base.row := h
    rw [b.parent_second] at h
    exact SecondKey.ext (congrArg RollupKey.bucket h) (congrArg RollupKey.dims h)
  · rintro rfl
    exact b.parent_second

theorem exists_row (h : l.resolution = .second) : ∃ base : SecondKey, l = base.row :=
  ⟨⟨l.bucket, l.dims⟩, RollupKey.ext h rfl rfl⟩

/-- Every durable row, present or not, has the bytes of its seconds. -/
theorem DurableInv.bytesOf_eq (h : DurableInv st) (l) :
    bytesOf (st.durable.get l) = ∑ b ∈ l.seconds, bytesOf (st.durable.get b.row) := by
  by_cases hres : l.resolution = .second
  · obtain ⟨base, rfl⟩ := exists_row hres
    rw [seconds_row, Finset.sum_singleton]
  · simp only [h.second_row]
    exact (h.parent_rows l.resolution hres).getD_eq (p := (l.bucket, l.dims)) trivial

variable {v : Value}

/-- Every durable row has the merged coverage of its seconds. -/
theorem CoverageInv.merged (hc : CoverageInv st) (h : DurableInv st)
    (hl : st.durable.get l = some v) :
    Merged .estimated (coverages st.reportedValue l) v.coverage := by
  by_cases hres : l.resolution = .second
  · obtain ⟨base, rfl⟩ := exists_row hres
    rw [h.second_row] at hl
    convert merged_singleton v.coverage
    ext c
    constructor
    · rintro ⟨b, hb, w, hw, rfl⟩
      rw [seconds_row, Finset.mem_singleton] at hb
      rw [hb, hl, some.injEq] at hw
      exact congrArg Value.coverage hw.symm
    · rintro rfl
      exact ⟨base, by simp [seconds_row], v, hl, rfl⟩
  · exact hc l v hres hl

theorem DurableInv.exists_second (h : DurableInv st) (hk : st.durable.get k ≠ none) :
    ∃ base : SecondKey, base.parent k.resolution = k ∧ st.durable.get base.row ≠ none := by
  by_cases hres : k.resolution = .second
  · obtain ⟨base, rfl⟩ := exists_row hres
    exact ⟨base, base.parent_second, hk⟩
  · obtain ⟨base, hbase, hval⟩ := (h.parent_rows k.resolution hres).exists_kid
      (p := (k.bucket, k.dims)) (by simpa [rowBytes] using hk)
    exact ⟨base, mem_seconds.1 hbase, by simpa [h.second_row] using hval⟩

theorem DurableInv.get_parent_ne_none (h : DurableInv st) {base : SecondKey}
    (hrow : st.durable.get base.row ≠ none) (res : Resolution) :
    st.durable.get (base.parent res) ≠ none := by
  by_cases hres : res = .second
  · rwa [hres, base.parent_second]
  · intro hnone
    refine (h.parent_rows res hres).isSome (i := base) (by simpa [h.second_row] using hrow) trivial ?_
    exact congrArg (Option.map Value.bytes) hnone

/-- **The durable rows are rolled up.** -/
theorem DurableInv.rolledUp (h : DurableInv st) (hc : CoverageInv st)
    (hplain : ∀ base : SecondKey, st.durable.get base.row ≠ none → base.dims.Plain) :
    RolledUp st.durable where
  plain {k} hk := by
    obtain ⟨base, hbase, hrow⟩ := h.exists_second hk
    have := hplain base hrow
    rwa [show base.dims = k.dims from congrArg RollupKey.dims hbase] at this
  exists_second := h.exists_second
  parent {k} hk hres := by
    obtain ⟨base, hbase, hrow⟩ := h.exists_second hk
    set p := k.parent with hp
    have hparent : base.parent p.resolution = p := by
      rw [hp, ← hbase]
      exact (base.parent_parent hres).symm
    obtain ⟨v, hv⟩ := ne_none_iff_exists'.1 (h.get_parent_ne_none hrow p.resolution)
    rw [hparent] at hv
    -- the seconds of the children are the seconds of the parent
    have hkid : ∀ l ∈ children k.resolution p, ∀ b : SecondKey,
        b.parent l.resolution = l → b.parent p.resolution = p := by
      intro l hl b hb
      obtain ⟨hlr, hlp⟩ := Flow.mem_children hres hl rfl
      rw [← hlp, ← hb, hlr]
      exact (b.parent_parent hres).symm
    refine ⟨v, hv, ?_, fun c hmerged => ?_⟩
    · calc v.bytes = ∑ b ∈ p.seconds, bytesOf (st.durable.get b.row) := by
            rw [← h.bytesOf_eq, hv]
            rfl
        _ = ∑ l ∈ children k.resolution p, ∑ b ∈ p.seconds with b.parent k.resolution = l,
              bytesOf (st.durable.get b.row) :=
            (Finset.sum_fiberwise_of_maps_to (fun b hb => Finset.mem_image_of_mem _ hb) _).symm
        _ = ∑ l ∈ children k.resolution p, bytesOf (st.durable.get l) := by
            refine Finset.sum_congr rfl fun l hl => ?_
            rw [h.bytesOf_eq l]
            refine Finset.sum_congr (Finset.ext fun b => ?_) fun _ _ => rfl
            rw [Finset.mem_filter, mem_seconds, mem_seconds, (Flow.mem_children hres hl rfl).1]
            refine and_iff_right_of_imp fun hb => hkid l hl b ?_
            rw [(Flow.mem_children hres hl rfl).1]
            exact hb
    · have hunion := Merged.iUnion (f := coverages st.reportedValue) (fun l _ a ha => ?_) hmerged
      swap
      · obtain ⟨w, hw, rfl⟩ := map_eq_some_iff.1 ha
        exact hc.merged h hw
      refine (hc.merged h hv).unique ?_
      convert hunion using 1
      ext x
      constructor
      · rintro ⟨b, hb, w, hw, rfl⟩
        have hchild : st.durable.get (b.parent k.resolution) ≠ none :=
          h.get_parent_ne_none (by simp [h.second_row, hw]) _
        exact ⟨b.parent k.resolution, Finset.mem_image_of_mem _ hb, by simpa using hchild, b,
          mem_seconds.2 rfl, w, hw, rfl⟩
      · rintro ⟨l, hl, -, b, hb, w, hw, rfl⟩
        exact ⟨b, mem_seconds.2 (hkid l hl b (mem_seconds.1 hb)), w, hw, rfl⟩

/-! ### The tables -/

/-- The row would be refused: its parent has been sealed. -/
def FlowStore.sealed (store : FlowStore) (k : RollupKey) : Bool :=
  k.resolution ≠ .hour ∧ store.seals.get k.parent.stored ≠ none

/-- The rows of a parent that are left in the table. -/
def FlowStore.childRows (store : FlowStore) (child : Resolution) (parent : RollupKey) :
    List (RollupKey × Value) :=
  store.table.toList.filter fun entry => entry.1.resolution = child ∧ entry.1.parent = parent

/-- The table holds the rows but those of sealed parents. -/
structure StoreRel (rows : SortedMap RollupKey Value) (store : FlowStore) : Prop where
  table_get : ∀ {k : RollupKey}, k.dims.Plain → store.table.get k.stored =
    if store.sealed k then none else rows.get k
  plain : ∀ {t : RollupKey}, store.table.get t ≠ none →
    ∃ k : RollupKey, k.dims.Plain ∧ t = k.stored

/-- A sealed hour has only sealed minutes. -/
def HourSealed (rows : SortedMap RollupKey Value) (store : FlowStore) : Prop :=
  ∀ base : SecondKey, rows.get base.row ≠ none →
    store.seals.get (base.parent .hour).stored ≠ none →
    store.seals.get (base.parent .minute).stored ≠ none

/-- The parent of an unsealed row of the level is unsealed. -/
def ParentOpen (rows : SortedMap RollupKey Value) (child : Resolution) (store : FlowStore) : Prop :=
  ∀ k, rows.get k ≠ none → k.resolution = child → store.sealed k = false →
    store.sealed k.parent = false

theorem parentOpen_minute (rows store) : ParentOpen rows .minute store := fun k _ hk _ => by
  simp [sealed, RollupKey.parent, hk, Resolution.parent]

theorem HourSealed.parentOpen (h : HourSealed rows store) : ParentOpen rows .second store := by
  intro k hk hres hopen
  obtain ⟨base, rfl⟩ := exists_row hres
  have hhour : base.row.parent.parent = base.parent .hour :=
    base.parent_parent (show minute ≠ .hour by decide)
  refine Bool.eq_false_iff.2 fun hsealed => ?_
  rw [sealed, decide_eq_true_eq, hhour] at hsealed
  have hclosed : store.sealed base.row = true :=
    decide_eq_true ⟨by simp [row], h base hk hsealed.2⟩
  rw [hclosed] at hopen
  cases hopen

namespace StoreRel

theorem of_table (h : StoreRel rows store) (ht : store.table.get t = some v) :
    ∃ k, k.dims.Plain ∧ t = k.stored ∧ store.sealed k = false ∧ rows.get k = some v := by
  obtain ⟨k, hk, rfl⟩ := h.plain (t := t) (by simp [ht])
  rw [h.table_get hk] at ht
  cases hs : store.sealed k with
  | true => simp [hs] at ht
  | false => exact ⟨k, hk, rfl, hs, by simpa [hs] using ht⟩

end StoreRel

/-! ### Groups -/

theorem merged_groupCoverage {l} (h : l ≠ []) :
    Merged .estimated {c | c ∈ l} (groupCoverage l) := by
  cases l with
  | nil => exact (h rfl).elim
  | cons c rest =>
    simp only [groupCoverage]
    split
    · next hall =>
      refine .same mem_cons_self fun x hx => ?_
      obtain rfl | hx := mem_cons.1 hx
      · rfl
      · simpa using all_eq_true.1 hall x hx
    · next hmix =>
      rw [List.all_eq_true] at hmix
      push Not at hmix
      obtain ⟨x, hx, hne⟩ := hmix
      exact .mixed (mem_cons_of_mem _ hx) mem_cons_self (by simpa using hne) rfl

theorem groupValue_bytes (l) : (groupValue l).bytes = (l.map fun entry => entry.2.bytes).sum := by
  induction l with
  | nil => rfl
  | cons entry l ih =>
    rw [map_cons, sum_cons, ← ih]
    rfl

/-- **A parent with child rows left has their group value.** -/
theorem StoreRel.childRows_agree (h : StoreRel rows store) (hr : RolledUp rows)
    (hchild : child ≠ .hour) (hopen : ParentOpen rows child store) {parent}
    (hne : store.childRows child parent ≠ []) :
    store.table.get parent = some (groupValue (store.childRows child parent)) := by
  obtain ⟨⟨t, x⟩, hmem⟩ := exists_mem_of_ne_nil _ hne
  obtain ⟨htable, hres⟩ := mem_filter.1 hmem
  rw [decide_eq_true_eq] at hres
  obtain ⟨k, hplain, rfl, hunsealed, hk⟩ := h.of_table (mem_toList.1 htable)
  have hkres : k.resolution = child := hres.1
  subst hkres
  obtain rfl : k.parent.stored = parent := hres.2
  have hsome : rows.get k ≠ none := by simp [hk]
  obtain ⟨w, hw, hbytes, hcov⟩ := hr.parent hsome hchild
  rw [h.table_get (show k.parent.dims.Plain from hplain), hopen k hsome rfl hunsealed]
  simp only [Bool.false_eq_true, if_false, hw, some.injEq]
  -- the children of an unsealed parent are all in the table
  have hkids : ∀ l ∈ children k.resolution k.parent,
      l.dims.Plain ∧ store.table.get l.stored = rows.get l := by
    intro l hl
    obtain ⟨hlr, hlp⟩ := mem_children hchild hl rfl
    have hdims : l.parent.dims = k.parent.dims := congrArg RollupKey.dims hlp
    have hld : l.dims.Plain := show l.parent.dims.Plain from hdims ▸ hplain
    refine ⟨hld, ?_⟩
    rw [h.table_get hld, show store.sealed l = false from ?_]
    · simp
    · rw [← hunsealed, sealed, sealed, hlr, hlp]
  have hmem_kids : ∀ t, store.table.get t ≠ none → t.resolution = k.resolution →
      t.parent = k.parent.stored → ∃ l ∈ children k.resolution k.parent, t = l.stored := by
    intro t ht htr htp
    obtain ⟨y, hy⟩ := ne_none_iff_exists'.1 ht
    obtain ⟨l, hlplain, rfl, -, hl⟩ := h.of_table hy
    have hlr : l.resolution = k.resolution := htr
    have hlp : l.parent = k.parent :=
      eq_of_stored (show l.parent.dims.Plain from hlplain) hplain htp
    refine ⟨l, ?_, rfl⟩
    have := hr.mem_children (k := l) (by simp [hl]) (hlr ▸ hchild)
    rwa [hlr, hlp] at this
  refine Value.ext ?_ ?_
  · rw [hbytes, groupValue_bytes, childRows, sum_toList_filter store.table
      (fun t => decide (t.resolution = k.resolution ∧ t.parent = k.parent.stored)) Value.bytes
      (s := (children k.resolution k.parent).image stored)]
    · rw [Finset.sum_image]
      · exact Finset.sum_congr rfl fun l hl => by rw [(hkids l hl).2]; rfl
      · intro l hl m hm heq
        exact eq_of_stored (hkids l hl).1 (hkids m hm).1 heq
    · intro t ht
      obtain ⟨l, hl, rfl⟩ := Finset.mem_image.1 ht
      obtain ⟨hlr, hlp⟩ := mem_children hchild hl rfl
      exact decide_eq_true ⟨hlr, by rw [parent_stored, hlp]⟩
    · intro t ht hp
      rw [decide_eq_true_eq] at hp
      obtain ⟨l, hl, rfl⟩ := hmem_kids t ht hp.1 hp.2
      exact Finset.mem_image_of_mem _ hl
  · refine hcov _ ?_
    change Merged _ _ (groupCoverage _)
    convert merged_groupCoverage (l := (store.childRows k.resolution k.parent.stored).map
      (·.2.coverage)) (by simpa using hne) using 1
    ext c
    simp only [Set.mem_ofPred_eq, List.mem_map, Prod.exists, childRows, mem_filter,
      SortedMap.mem_toList, decide_eq_true_eq, map_eq_some_iff]
    constructor
    · rintro ⟨l, hl, y, hy, rfl⟩
      obtain ⟨hlr, hlp⟩ := mem_children hchild hl rfl
      exact ⟨l.stored, y, ⟨(hkids l hl).2.trans hy, hlr, by rw [parent_stored, hlp]⟩, rfl⟩
    · rintro ⟨t, y, ⟨hy, htr, htp⟩, rfl⟩
      obtain ⟨l, hl, rfl⟩ := hmem_kids t (by simp [hy]) htr htp
      exact ⟨l, hl, y, (hkids l hl).2 ▸ hy, rfl⟩

/-! ### One batch -/

/-- The cut is a date that SQLite can read. -/
def InEra (cut : Option ℤ) : Prop := ∀ c, cut = some c → c ≤ 253402300799

theorem inEra_unixepoch (secs : ℤ) : InEra (unixepoch secs) := by
  intro c hc
  rw [unixepoch] at hc
  split_ifs at hc with h
  cases hc
  exact h.2

theorem inEra_unixepochOf (t) : InEra (unixepochOf t) := inEra_unixepoch _

theorem expired_iff :
    expired child cut k = true ↔ k.resolution = child ∧ -62167219200 ≤ k.bucket ∧
      k.bucket ≤ 253402300799 ∧
      ∃ c, cut = some c ∧ bucketOf child.parent k.bucket + child.parent.width ≤ c := by
  simp only [expired, Bool.and_eq_true, decide_eq_true_eq, Option.any_eq_true, unixepoch]
  constructor
  · rintro ⟨hres, b, hb, c, hc, hle⟩
    split_ifs at hb with h
    cases hb
    exact ⟨hres, h.1, h.2, c, hc, hle⟩
  · rintro ⟨hres, hmin, hmax, c, hc, hle⟩
    exact ⟨hres, k.bucket, if_pos ⟨hmin, hmax⟩, c, hc, hle⟩

theorem expired_sibling (hchild : child ≠ .hour) (hera : InEra cut) {u}
    (ht : expired child cut t = true) (hu : u.resolution = child) (hparent : u.parent = t.parent) :
    expired child cut u = true := by
  obtain ⟨hres, hmin, hmax, c, rfl, hle⟩ := expired_iff.1 ht
  have hbucket : bucketOf child.parent u.bucket = bucketOf child.parent t.bucket := by
    have := congrArg bucket hparent
    simpa only [RollupKey.parent, hu, hres] using this
  refine expired_iff.2 ⟨hu, ?_, ?_, c, rfl, hbucket ▸ hle⟩ <;> revert hbucket hle <;>
    cases child with
    | hour => exact (hchild rfl).elim
    | second | minute =>
      simp only [bucketOf, Resolution.parent, Resolution.width]
      omega

theorem mem_groupKeys :
    p ∈ store.groupKeys child cut ↔
      ∃ t v, store.table.get t = some v ∧ expired child cut t = true ∧ t.parent = p := by
  simp only [groupKeys, expiredRows, mem_dedup, List.mem_map, Prod.exists,
    mem_filter, SortedMap.mem_toList, and_assoc]

/-- A group of a batch is all that is left of its parent. -/
theorem groupRows_eq_childRows (hchild : child ≠ .hour) (hera : InEra cut)
    (hp : p ∈ store.groupKeys child cut) :
    store.groupRows child cut p = store.childRows child p := by
  obtain ⟨t, v, -, ht, rfl⟩ := mem_groupKeys.1 hp
  rw [groupRows, expiredRows, childRows, List.filter_filter]
  refine filter_congr fun entry _ => Bool.eq_iff_iff.2 ?_
  rw [Bool.and_eq_true, decide_eq_true_eq, decide_eq_true_eq]
  constructor
  · rintro ⟨hparent, hexp⟩
    exact ⟨(expired_iff.1 hexp).1, hparent⟩
  · rintro ⟨hres, hparent⟩
    exact ⟨hparent, expired_sibling hchild hera ht hres hparent⟩

theorem childRows_ne_nil (hp : p ∈ store.groupKeys child cut) : store.childRows child p ≠ [] := by
  obtain ⟨t, v, hv, ht, rfl⟩ := mem_groupKeys.1 hp
  refine ne_nil_of_mem (a := (t, v)) (mem_filter.2 ⟨mem_toList.2 hv, ?_⟩)
  exact decide_eq_true ⟨(expired_iff.1 ht).1, rfl⟩

theorem get_foldl_seal (keys : List RollupKey) (seals : SortedMap RollupKey Unit) (q) :
    (keys.foldl (fun seals parent => seals.insert parent ()) seals).get q ≠ none ↔
      seals.get q ≠ none ∨ q ∈ keys := by
  induction keys generalizing seals with
  | nil => simp
  | cons p keys ih =>
    rw [foldl_cons, ih, get_insert, mem_cons]
    by_cases hq : q = p <;> simp [hq]

theorem get_foldl_missing (value : RollupKey → Value) (keys : List RollupKey)
    (table : SortedMap RollupKey Value) (t) :
    (keys.foldl (fun table parent => if table.get parent = none then
        table.insert parent (value parent) else table) table).get t = table.get t ∨
      table.get t = none ∧ t ∈ keys := by
  induction keys generalizing table with
  | nil => exact .inl rfl
  | cons p keys ih =>
    rw [foldl_cons]
    by_cases hp : table.get p = none
    · rw [if_pos hp]
      by_cases ht : t = p
      · exact .inr ⟨ht ▸ hp, mem_cons.2 (.inl ht)⟩
      · obtain heq | ⟨hnone, hmem⟩ := ih (table.insert p (value p))
        · exact .inl (heq.trans (get_insert_of_ne _ _ ht))
        · rw [get_insert_of_ne _ _ ht] at hnone
          exact .inr ⟨hnone, mem_cons_of_mem _ hmem⟩
    · rw [if_neg hp]
      exact (ih table).imp_right fun ⟨hnone, hmem⟩ => ⟨hnone, mem_cons_of_mem _ hmem⟩

/-- What a batch adds to the tables: rows of parents that have none, and seals. -/
theorem aggregate_spec (h : store.aggregate child cut = .ok store') :
    (∀ t, store'.table.get t = store.table.get t ∨
      store.table.get t = none ∧ t ∈ store.groupKeys child cut) ∧
    ∀ q, store'.seals.get q ≠ none ↔ store.seals.get q ≠ none ∨ q ∈ store.groupKeys child cut := by
  simp only [aggregate, Except.bind_eq_ok, Except.pure_eq_ok] at h
  obtain ⟨-, -, -, -, rfl⟩ := h
  exact ⟨get_foldl_missing _ _ _, get_foldl_seal _ _⟩

theorem aggregate_error {e} (h : store.aggregate child cut = .error e) :
    e = .sql ∨ e = .compactionConflict ∧
      ((store.groupKeys child cut).any fun parent => (store.table.get parent).any
        (· ≠ groupValue (store.groupRows child cut parent))) = true := by
  simp only [aggregate, Except.bind_eq_error, reject_eq_error, Except.pure_ne_error] at h
  obtain ⟨-, rfl⟩ | ⟨_, -, ⟨hconflict, rfl⟩ | ⟨_, -, hfalse⟩⟩ := h
  · exact .inl rfl
  · exact .inr ⟨rfl, hconflict⟩
  · exact hfalse.elim

namespace StoreRel

section

variable (h : StoreRel rows store) (hr : RolledUp rows) (hchild : child ≠ .hour)
  (hopen : ParentOpen rows child store)
include h hr hchild hopen

/-- The parent of a group has the value of the group. -/
theorem group_agree (hera : InEra cut) (hp : p ∈ store.groupKeys child cut) :
    store.table.get p = some (groupValue (store.groupRows child cut p)) := by
  rw [groupRows_eq_childRows hchild hera hp]
  exact h.childRows_agree hr hchild hopen (childRows_ne_nil hp)

theorem aggregate_ne_conflict (hera : InEra cut) :
    store.aggregate child cut ≠ .error .compactionConflict := by
  have hagree : ¬((store.groupKeys child cut).any fun parent => (store.table.get parent).any
      (· ≠ groupValue (store.groupRows child cut parent))) = true := by
    rw [List.any_eq_true]
    rintro ⟨p, hp, hne⟩
    rw [h.group_agree hr hchild hopen hera hp] at hne
    simp at hne
  intro herr
  obtain heq | ⟨-, hconflict⟩ := aggregate_error herr
  · cases heq
  · exact hagree hconflict

theorem aggregate_table (hera : InEra cut)
    (ha : store.aggregate child cut = .ok store') : store'.table = store.table := by
  refine SortedMap.ext fun t => ?_
  obtain heq | ⟨hnone, hmem⟩ := (aggregate_spec ha).1 t
  · exact heq
  · rw [h.group_agree hr hchild hopen hera hmem] at hnone
    cases hnone

/-- **A batch keeps the relation**: the rows it deletes are those of the parents it seals. -/
theorem batch (hera : InEra cut) (ha : store.aggregate child cut = .ok store') :
    StoreRel rows (store'.deleteExpired child cut) := by
  have htable := h.aggregate_table hr hchild hopen hera ha
  have hget : ∀ t, (store'.deleteExpired child cut).table.get t =
      if expired child cut t then none else store.table.get t := by
    intro t
    rw [deleteExpired, SortedMap.get_filter, htable]
    cases expired child cut t <;> cases store.table.get t <;> rfl
  have hsealed : ∀ k, (store'.deleteExpired child cut).sealed k = true ↔ store.sealed k = true ∨
      k.resolution ≠ .hour ∧ k.parent.stored ∈ store.groupKeys child cut := by
    intro k
    simp only [sealed, deleteExpired, decide_eq_true_eq, (aggregate_spec ha).2]
    tauto
  refine ⟨fun {k} hk => ?_, fun {t} ht => h.plain (t := t) fun hnone => ht ?_⟩
  · rw [hget]
    have hold := h.table_get hk
    by_cases hexp : expired child cut k.stored = true
    · -- a deleted row has been sealed
      rw [if_pos hexp]
      by_cases hs : (store'.deleteExpired child cut).sealed k = true
      · rw [if_pos hs]
      rw [if_neg hs]
      rw [hsealed, not_or] at hs
      rw [if_neg hs.1] at hold
      by_contra hsome
      obtain ⟨v, hv⟩ := ne_none_iff_exists'.1 (Ne.symm hsome)
      have hres : k.resolution = child := (expired_iff.1 hexp).1
      exact hs.2 ⟨hres ▸ hchild, mem_groupKeys.2 ⟨k.stored, v, hold.trans hv, hexp, rfl⟩⟩
    · rw [if_neg hexp, hold]
      by_cases hs : store.sealed k = true
      · rw [if_pos hs, if_pos ((hsealed k).2 (.inl hs))]
      rw [if_neg hs]
      split
      · next hnew =>
        -- a row of a parent sealed now would have expired with it
        obtain hs' | ⟨hres, hmem⟩ := (hsealed k).1 hnew
        · exact (hs hs').elim
        obtain ⟨t, v, hv, ht, hparent⟩ := mem_groupKeys.1 hmem
        refine (hexp (expired_sibling hchild hera ht ?_ hparent.symm)).elim
        have hpr : t.resolution.parent = k.resolution.parent :=
          congrArg resolution hparent
        have htr := (expired_iff.1 ht).1
        rw [htr] at hpr
        change k.resolution = child
        revert hres hchild hpr
        cases k.resolution <;> cases child <;> decide
      · rfl
  · rw [hget, hnone]
    split <;> rfl

end

end StoreRel

/-! ### One level -/

theorem get_counts (l : List (RollupKey × Value)) (counts : SortedMap ℤ ℕ) (b : ℤ) :
    (l.foldl (fun counts entry => counts.insert entry.1.parent.bucket
      ((counts.get entry.1.parent.bucket).getD 0 + 1)) counts).get b ≠ none ↔
      counts.get b ≠ none ∨ ∃ entry ∈ l, entry.1.parent.bucket = b := by
  induction l generalizing counts with
  | nil => simp
  | cons entry l ih =>
    rw [foldl_cons, ih, get_insert]
    by_cases hb : b = entry.1.parent.bucket
    · simp [hb]
    · have hne : ¬entry.1.parent.bucket = b := fun h => hb h.symm
      simp [hb, hne]

theorem exists_expired_of_mem_groups {g : ℤ × ℕ} (h : g ∈ store.groups child cut) :
    ∃ t v, store.table.get t = some v ∧ expired child cut t = true ∧ t.parent.bucket = g.1 := by
  have hmem := mem_toList.1 (mem_of_mem_take h)
  have hne := (get_counts _ _ g.1).1 (by rw [hmem]; simp)
  simp only [get_empty, ne_eq, not_true_eq_false, false_or] at hne
  obtain ⟨⟨t, v⟩, hentry, hbucket⟩ := hne
  obtain ⟨ht, hexp⟩ := mem_filter.1 hentry
  exact ⟨t, v, mem_toList.1 ht, hexp, hbucket⟩

theorem not_expired_of_groups_eq_nil (h : store.groups child cut = [])
    (ht : store.table.get t ≠ none) : expired child cut t = false := by
  refine Bool.eq_false_iff.2 fun hexp => ?_
  obtain ⟨v, hv⟩ := ne_none_iff_exists'.1 ht
  have hentry : (t, v) ∈ store.expiredRows child cut :=
    mem_filter.2 ⟨mem_toList.2 hv, hexp⟩
  rw [groups, take_eq_nil_iff] at h
  have hne := (get_counts _ ∅ t.parent.bucket).2 (.inr ⟨_, hentry, rfl⟩)
  rw [← SortedMap.mem_keys, h.resolve_left (by decide)] at hne
  cases hne

theorem batchLast_mem (batch : ℕ) (first : ℤ) (count : ℕ) (rest) :
    batchLast batch first count rest = first ∨
      batchLast batch first count rest ∈ rest.map Prod.fst := by
  induction rest generalizing first count with
  | nil => exact .inl rfl
  | cons g rest ih =>
    rw [batchLast]
    split
    · exact .inl rfl
    · refine .inr ?_
      obtain heq | hmem := ih g.1 (count + g.2)
      · rw [heq]
        exact mem_cons_self
      · exact mem_cons_of_mem _ hmem

/-- The cut of a batch: some row of the level expires exactly there, not after the level's cut. -/
theorem batchCut_spec (hera : InEra cut) {first : ℤ} {count : ℕ} {rest}
    (hgroups : store.groups child cut = (first, count) :: rest) (batch : ℕ) {batchEnd : ℤ}
    (hend : batchEnd = batchLast batch first count rest + child.parent.width) :
    (∃ c, cut = some c ∧ batchEnd ≤ c) ∧ unixepoch batchEnd = some batchEnd ∧
      ∃ t v, store.table.get t = some v ∧ expired child (some batchEnd) t = true := by
  have hmem : ∃ g ∈ store.groups child cut, g.1 = batchLast batch first count rest := by
    rw [hgroups]
    obtain heq | hmem := batchLast_mem batch first count rest
    · exact ⟨_, mem_cons_self, heq.symm⟩
    · obtain ⟨g, hg, heq⟩ := mem_map.1 hmem
      exact ⟨g, mem_cons_of_mem _ hg, heq⟩
  obtain ⟨g, hg, hlast⟩ := hmem
  obtain ⟨t, v, hv, hexp, hbucket⟩ := exists_expired_of_mem_groups hg
  obtain ⟨hres, hmin, hmax, c, rfl, hle⟩ := expired_iff.1 hexp
  have hbatch : bucketOf child.parent t.bucket + child.parent.width = batchEnd := by
    rw [hend, ← hlast, ← hbucket, RollupKey.parent, hres]
  refine ⟨⟨c, rfl, hbatch ▸ hle⟩, if_pos ?_, t, v, hv,
    expired_iff.2 ⟨hres, hmin, hmax, batchEnd, rfl, hbatch.le⟩⟩
  have hlt := lt_bucketOf_add child.parent t.bucket
  have hc := hera c rfl
  omega

/-- What every batch of a level keeps holds after the level. -/
theorem compactLevel_rule {I : FlowStore → Prop} (hera : InEra cut)
    (hsound : ∀ store c, I store → c ≤ 253402300799 →
      store.aggregate child (some c) ≠ .error .compactionConflict)
    (hstep : ∀ store store' c c', I store → cut = some c → c' ≤ c →
      store.aggregate child (some c') = .ok store' → I (store'.deleteExpired child (some c')))
    (batch fuel : ℕ) (store) (removed : ℕ) (h : I store) :
    I (compactLevel child cut batch fuel store removed).1 ∧
      (compactLevel child cut batch fuel store removed).2 ≠ .error .compactionConflict := by
  induction fuel generalizing store removed with
  | zero => exact ⟨h, by simp [compactLevel]⟩
  | succ fuel ih =>
    rw [compactLevel]
    split
    · exact ⟨h, by simp⟩
    next first count rest hgroups =>
    obtain ⟨⟨c, hc, hle⟩, hcut, -⟩ := batchCut_spec hera hgroups batch rfl
    simp only [hcut]
    split
    · exact ⟨h, by simp⟩
    split
    · next e he =>
      refine ⟨h, fun heq => ?_⟩
      rw [Except.error.injEq] at heq
      exact hsound store _ h (hle.trans (hera c hc)) (heq ▸ he)
    · next store' ha =>
      have hI := hstep store store' c _ h hc hle ha
      split
      · exact ⟨hI, by simp⟩
      · split
        · exact ⟨hI, by simp⟩
        · exact ih _ _ hI

theorem expiredRows_ne_nil {c} (ha : store.aggregate child c = .ok store')
    (ht : store.table.get t = some v) (hexp : expired child cut t = true) :
    store'.table.get t = some v ∧ (store'.expiredRows child cut).length ≠ 0 := by
  have hkept : store'.table.get t = some v := by
    obtain heq | ⟨hnone, -⟩ := (aggregate_spec ha).1 t
    · exact heq.trans ht
    · rw [ht] at hnone
      cases hnone
  refine ⟨hkept, fun hzero => ?_⟩
  have hmem : (t, v) ∈ store'.expiredRows child cut :=
    mem_filter.2 ⟨mem_toList.2 hkept, hexp⟩
  rw [length_eq_zero_iff.1 hzero] at hmem
  cases hmem

/-- A level that succeeds leaves no expired row. -/
theorem compactLevel_done (hera : InEra cut) {batch fuel : ℕ} {removed n : ℕ}
    (h : (compactLevel child cut batch fuel store removed).2 = .ok n)
    (ht : (compactLevel child cut batch fuel store removed).1.table.get t ≠ none) :
    expired child cut t = false := by
  induction fuel generalizing store removed with
  | zero => simp [compactLevel] at h
  | succ fuel ih =>
    rw [compactLevel] at h ht
    split at h
    · next hgroups =>
      rw [hgroups] at ht
      exact not_expired_of_groups_eq_nil hgroups ht
    next first count rest hgroups =>
    obtain ⟨-, hcut, u, v, hu, hexp⟩ := batchCut_spec hera hgroups batch rfl
    simp only [hgroups, hcut] at h ht
    split at h
    · cases h
    next hstamp =>
    simp only [hstamp] at ht
    split at h
    · cases h
    next store' ha =>
    simp only [ha, (expiredRows_ne_nil ha hu hexp).2, if_false] at h ht
    split at h
    · cases h
    · next hover =>
      rw [if_neg hover] at ht
      exact ih h ht

/-- The rows of a level. -/
def FlowStore.levelRows (store : FlowStore) (child : Resolution) : SortedMap RollupKey Value :=
  store.table.filter fun k _ => k.resolution = child

/-- The parents a batch adds are of another resolution. -/
theorem levelRows_aggregate (hchild : child ≠ .hour) (ha : store.aggregate child cut = .ok store') :
    store'.levelRows child = store.levelRows child := by
  refine SortedMap.ext fun t => ?_
  rw [levelRows, levelRows, SortedMap.get_filter, SortedMap.get_filter]
  obtain heq | ⟨hnone, hmem⟩ := (aggregate_spec ha).1 t
  · rw [heq]
  obtain ⟨u, v, -, hexp, rfl⟩ := mem_groupKeys.1 hmem
  have hne : u.parent.resolution ≠ child := by
    change u.resolution.parent ≠ child
    rw [(expired_iff.1 hexp).1]
    revert hchild
    cases child <;> decide
  have hfilter : ∀ o : Option Value, o.filter (fun _ => decide (u.parent.resolution = child)) = none :=
    fun o => by simp [hne]
  rw [hfilter, hfilter]

theorem levelRows_deleteExpired_lt (ht : store.table.get t = some v)
    (hexp : expired child cut t = true) :
    ((store.deleteExpired child cut).levelRows child).size < (store.levelRows child).size := by
  have hfilter : (store.deleteExpired child cut).levelRows child =
      (store.levelRows child).filter fun k _ => !expired child cut k :=
    SortedMap.ext fun k => by
      simp only [levelRows, deleteExpired, SortedMap.get_filter,
        Option.filter_filter, Bool.and_comm]
  rw [hfilter]
  refine size_filter_lt (k := t) (v := v) ?_ (by simp [hexp])
  rw [levelRows, SortedMap.get_filter, ht]
  simp [(expired_iff.1 hexp).1]

/-- **The loop of a level ends**: every batch but the last deletes a row of the level. -/
theorem compactLevel_ne_unfinished (hchild : child ≠ .hour) (hera : InEra cut) {batch fuel : ℕ}
    {removed : ℕ} (hfuel : (store.levelRows child).size < fuel) :
    (compactLevel child cut batch fuel store removed).2 ≠ .error .unfinished := by
  induction fuel generalizing store removed with
  | zero => exact absurd hfuel (Nat.not_lt_zero _)
  | succ fuel ih =>
    rw [compactLevel]
    split
    · simp
    next first count rest hgroups =>
    obtain ⟨-, hcut, u, v, hu, hexp⟩ := batchCut_spec hera hgroups batch rfl
    simp only [hcut]
    split
    · simp
    split
    · next e he =>
      intro heq
      rw [Except.error.injEq] at heq
      obtain hsql | ⟨hconflict, -⟩ := aggregate_error he
      · cases heq.symm.trans hsql
      · cases heq.symm.trans hconflict
    · next store' ha =>
      obtain ⟨hkept, hne⟩ := expiredRows_ne_nil ha hu hexp
      split
      · simp
      · refine ih (lt_of_lt_of_le ?_ (Nat.le_of_lt_succ hfuel))
        rw [← levelRows_aggregate hchild ha]
        exact levelRows_deleteExpired_lt hkept hexp

/-- One second, which expires. -/
theorem compactLevel_one : (compactLevel .second (some 60) 1 2
    ⟨SortedMap.insert ∅ ⟨.second, 0, 1, .tcp, .internet, 1, none⟩ ⟨⟨1, 1⟩, .complete⟩, ∅⟩ 0).2 ≠
      .error .unfinished :=
  compactLevel_ne_unfinished (by decide) (by simp [InEra]) (by decide +kernel)

/-! ### A whole compaction -/

/-- SQLite can read the date that seconds expire at, if it can read that of the minutes. -/
def CutsInEra (now : DateTime) (p : CompactionPolicy) : Prop :=
  (now.checkedSubSigned p.seconds).all fun sec => (now.checkedSubSigned p.minutes).all fun min =>
    unixepochOf min = none ∨ unixepochOf sec ≠ none

theorem unixepochOf_le {now sec min p} {u : Unit}
    (hvalid : p.validate = .ok u) (hcuts : CutsInEra now p)
    (hsec : now.checkedSubSigned p.seconds = some sec)
    (hmin : now.checkedSubSigned p.minutes = some min) (c : ℤ) (hc : unixepochOf min = some c) :
    ∃ s, unixepochOf sec = some s ∧ c ≤ s := by
  simp only [CutsInEra, hsec, hmin, all_some, decide_eq_true_eq] at hcuts
  obtain ⟨s, hs⟩ := ne_none_iff_exists'.1 (hcuts.resolve_left (by simp [hc]))
  refine ⟨s, hs, ?_⟩
  rw [CompactionPolicy.validate, reject_eq_ok] at hvalid
  rw [DateTime.checkedSubSigned_eq_some] at hsec hmin
  rw [unixepochOf, unixepoch] at hc hs
  split_ifs at hc hs
  rw [some.injEq] at hc hs
  omega

/-- No second is left that expires at the cut. -/
def SecondsDone (cut : Option ℤ) (store : FlowStore) : Prop :=
  ∀ t, store.table.get t ≠ none → expired .second cut t = false

/-- Hours are sealed after their minutes: all their seconds have expired. -/
theorem HourSealed.batch (h : HourSealed rows store) (hrel : StoreRel rows store)
    (hr : RolledUp rows) {c s : ℤ} (hcs : c ≤ s) (hs : s ≤ 253402300799)
    (hdone : SecondsDone (some s) store) (ha : store.aggregate .minute (some c) = .ok store') :
    HourSealed rows (store'.deleteExpired .minute (some c)) := by
  intro base hbase hhour
  have hseals := (aggregate_spec ha).2
  refine (hseals _).2 (.inl ?_)
  obtain hold | hnew := (hseals _).1 hhour
  · exact h base hbase hold
  -- the hour is sealed now: a second left in it would have expired
  obtain ⟨t, v, hv, hexp, hparent⟩ := mem_groupKeys.1 hnew
  obtain ⟨hres, hmin, -, c', hc', hle⟩ := expired_iff.1 hexp
  obtain rfl : c = c' := some.inj hc'
  have hbucket : bucketOf t.resolution.parent t.bucket = bucketOf .hour base.epoch :=
    congrArg bucket hparent
  have hplain := hr.plain hbase
  have hsealed : store.sealed base.row = true := by
    by_contra hopen
    have hget := hrel.table_get hplain
    rw [if_neg hopen] at hget
    have hlive := hdone base.row.stored (hget ▸ hbase)
    refine absurd (expired_iff.2 ⟨rfl, ?_, ?_, s, rfl, ?_⟩) (Bool.eq_false_iff.1 hlive) <;>
      simp only [hres, Resolution.parent, Resolution.width, bucketOf, stored, row] at * <;> omega
  exact (of_decide_eq_true hsealed).2

theorem HourSealed.batch_second (h : HourSealed rows store)
    (ha : store.aggregate .second cut = .ok store') :
    HourSealed rows (store'.deleteExpired .second cut) := by
  intro base hbase hhour
  have hseals := (aggregate_spec ha).2
  refine (hseals _).2 (.inl (h base hbase (((hseals _).1 hhour).resolve_right fun hmem => ?_)))
  obtain ⟨t, v, -, hexp, hparent⟩ := mem_groupKeys.1 hmem
  have hres : t.resolution.parent = .hour := congrArg resolution hparent
  rw [(expired_iff.1 hexp).1] at hres
  cases hres

namespace StoreRel

section

variable (h : StoreRel rows store) (hr : RolledUp rows)
include h hr

theorem compactSeconds (hhour : HourSealed rows store) (hera : InEra cut) (batch fuel removed : ℕ) :
    let level := compactLevel .second cut batch fuel store removed
    (StoreRel rows level.1 ∧ HourSealed rows level.1) ∧ level.2 ≠ .error .compactionConflict := by
  refine compactLevel_rule (I := fun store => StoreRel rows store ∧ HourSealed rows store) hera
    (fun store c hI hc => ?_) (fun store store' c c' hI hc hle ha => ?_) batch fuel store removed
    ⟨h, hhour⟩
  · exact hI.1.aggregate_ne_conflict hr (by decide) hI.2.parentOpen fun _ heq =>
      some.inj heq ▸ hc
  · have hera' : InEra (some c') := fun _ heq => some.inj heq ▸ hle.trans (hera c hc)
    exact ⟨hI.1.batch hr (by decide) hI.2.parentOpen hera' ha, hI.2.batch_second ha⟩

theorem compactMinutes (hhour : HourSealed rows store) {secCut} (hera : InEra cut)
    (hsec : InEra secCut) (hdone : SecondsDone secCut store) (batch fuel removed : ℕ) :
    let level := compactLevel .minute cut batch fuel store removed
    level.2 ≠ .error .compactionConflict ∧ ((∀ c, cut = some c → ∃ s, secCut = some s ∧ c ≤ s) →
      StoreRel rows level.1 ∧ HourSealed rows level.1) := by
  intro level
  have hrule : _ ∧ level.2 ≠ _ := compactLevel_rule (I := fun store => StoreRel rows store ∧
    ((∀ c, cut = some c → ∃ s, secCut = some s ∧ c ≤ s) →
      HourSealed rows store ∧ SecondsDone secCut store)) hera
    (fun store c hI hc => ?_) (fun store store' c c' hI hc hle' ha => ?_) batch fuel store removed
    ⟨h, fun _ => ⟨hhour, hdone⟩⟩
  · exact ⟨hrule.2, fun hle => ⟨hrule.1.1, (hrule.1.2 hle).1⟩⟩
  · exact hI.1.aggregate_ne_conflict hr (by decide) (parentOpen_minute _ _) fun _ heq =>
      some.inj heq ▸ hc
  have hera' : InEra (some c') := fun _ heq => some.inj heq ▸ hle'.trans (hera c hc)
  refine ⟨hI.1.batch hr (by decide) (parentOpen_minute _ _) hera' ha, fun hle => ?_⟩
  obtain ⟨hhour, hdone⟩ := hI.2 hle
  obtain ⟨s, rfl, hcs⟩ := hle c hc
  refine ⟨hhour.batch hI.1 hr (hle'.trans hcs) (hsec s rfl) hdone ha, fun t ht => hdone t ?_⟩
  rw [← hI.1.aggregate_table hr (by decide) (parentOpen_minute _ _) hera' ha]
  intro hnone
  rw [deleteExpired, SortedMap.get_filter, hnone] at ht
  exact ht rfl

/-- **Compaction of rolled up rows** finds no conflict and keeps the relation. -/
theorem compact (hhour : HourSealed rows store) (now p) :
    (store.compact now p).2 ≠ .error .compactionConflict ∧ (CutsInEra now p →
      StoreRel rows (store.compact now p).1 ∧ HourSealed rows (store.compact now p).1) := by
  unfold FlowStore.compact
  split
  · next e hvalid =>
    refine ⟨fun heq => ?_, fun _ => ⟨h, hhour⟩⟩
    rw [Except.error.injEq] at heq
    simp [CompactionPolicy.validate, heq] at hvalid
  · exact ⟨by simp, fun _ => ⟨h, hhour⟩⟩
  · exact ⟨by simp, fun _ => ⟨h, hhour⟩⟩
  · next sec min hvalid hsecs hmins =>
    split
    · exact ⟨by simp, fun _ => ⟨h, hhour⟩⟩
    have hsec := h.compactSeconds hr hhour (inEra_unixepochOf sec) p.maxRows
      (store.table.size + 1) 0
    split
    · next store' e hlevel =>
      rw [hlevel] at hsec
      exact ⟨fun heq => hsec.2 heq, fun _ => hsec.1⟩
    next store' removed hlevel =>
    have hdone : SecondsDone (unixepochOf sec) store' := fun t ht =>
      compactLevel_done (inEra_unixepochOf sec) (congrArg Prod.snd hlevel)
        (by rw [hlevel]; exact ht)
    rw [hlevel] at hsec
    obtain ⟨hne, hkeeps⟩ := hsec.1.1.compactMinutes hr hsec.1.2 (inEra_unixepochOf min)
      (inEra_unixepochOf sec) hdone p.maxRows (store'.table.size + 1) 0
    have hcuts := fun hcuts => hkeeps (unixepochOf_le hvalid hcuts hsecs hmins)
    split
    · next store'' e hlevel' =>
      rw [hlevel'] at hne hcuts
      exact ⟨fun heq => hne heq, hcuts⟩
    · next store'' more hlevel' =>
      rw [hlevel'] at hcuts
      split <;> exact ⟨by simp, hcuts⟩

end

end StoreRel

end NeonHearth.Flow
