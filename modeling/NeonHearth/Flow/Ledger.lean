import NeonHearth.Data.Aggregate
import NeonHearth.Flow.Engine

/-!
# What the rollups are meant to say

The accepted observations, in the order they were accepted, decide every rollup: a second has for
each source the sum of its observations, the best visible source of a second wins it, and a minute
or an hour has the sum over its seconds.  Nothing here refers to the engine's caches.
-/

namespace NeonHearth.Flow

open List Option Finset Prod

namespace ByteCount

@[simp]
theorem upload_zero : (0 : ByteCount).upload = 0 := rfl

@[simp]
theorem download_zero : (0 : ByteCount).download = 0 := rfl

@[simp]
theorem upload_add (a b : ByteCount) : (a + b).upload = a.upload + b.upload := rfl

@[simp]
theorem download_add (a b : ByteCount) : (a + b).download = a.download + b.download := rfl

instance : AddCancelCommMonoid ByteCount where
  add_assoc a b c := by ext <;> simp [Nat.add_assoc]
  zero_add a := by ext <;> simp
  add_zero a := by ext <;> simp
  add_comm a b := by ext <;> simp [Nat.add_comm]
  add_left_cancel a b c h := by
    have hu := congrArg upload h
    have hd := congrArg download h
    simp only [upload_add, download_add] at hu hd
    ext <;> omega
  nsmul := nsmulRec

/-- Neither part exceeds the other count's. -/
instance : LE ByteCount := ⟨fun a b => a.upload ≤ b.upload ∧ a.download ≤ b.download⟩

theorem sum_le_sum {ι : Type*} {s} {f g : ι → ByteCount} (h : ∀ i ∈ s, f i ≤ g i) :
    ∑ i ∈ s, f i ≤ ∑ i ∈ s, g i := by
  classical
  induction s using Finset.induction_on with
  | empty => exact ⟨le_rfl, le_rfl⟩
  | insert i s hi ih =>
    rw [sum_insert hi, sum_insert hi]
    have hfg := h i (mem_insert_self i s)
    have hrest := ih fun j hj => h j (mem_insert_of_mem hj)
    exact ⟨Nat.add_le_add hfg.1 hrest.1, Nat.add_le_add hfg.2 hrest.2⟩

end ByteCount

/-! ### Accepted observations -/

/-- The accepted observations, oldest first. -/
abbrev Ledger := List (SourceSecondKey × ByteCount)

namespace Ledger

/-- What a source saw in a second: `none` when none of its observations was accepted. -/
def opened (ledger : Ledger) (k : SourceSecondKey) : Option ByteCount :=
  if k ∈ ledger.map Prod.fst then some ((ledger.filter (·.1 = k)).map Prod.snd).sum else none

theorem opened_append (ledger : Ledger) (k bytes l) : opened (ledger ++ [(k, bytes)]) l =
      if l = k then some ((opened ledger k).getD 0 + bytes) else opened ledger l := by
  by_cases hl : l = k
  · subst hl
    by_cases hmem : l ∈ ledger.map fst
    · simp [opened, hmem]
    · have hnil : ledger.filter (·.1 = l) = [] := by
        rw [filter_eq_nil_iff]
        intro a ha heq
        exact hmem (mem_map.2 ⟨a, ha, by simpa using heq⟩)
      simp [opened, hmem, hnil]
  · have hne : ¬k = l := fun h => hl h.symm
    have hmem : l ∈ (ledger ++ [(k, bytes)]).map fst ↔ l ∈ ledger.map fst := by
      rw [map_append, mem_append]
      simp [hl]
    rw [if_neg hl, opened, opened]
    simp only [hmem, filter_append]
    simp [hne]

end Ledger

/-! ### The winning source -/

section Winner

variable (sources : SortedMap FlowSourceId VisibilityKind)

/-- The coverage a source gives. -/
def sourceCoverage (s : FlowSourceId) : Coverage :=
  ((sources.get s).map coverage).getD .estimated

/-- Sources by falling coverage, equal ones by their id. -/
def precedence (s : FlowSourceId) : ℕ ×ₗ FlowSourceId :=
  toLex (4 - coverageRank (sourceCoverage sources s), s)

theorem precedence_injective : Function.Injective (precedence sources) :=
  fun _ _ h => congrArg (fun p => (ofLex p).2) h

/-- `v` is what the first source in precedence saw. -/
def Best (saw : FlowSourceId → Option ByteCount) (v : Value) : Prop :=
  ∃ s bytes, saw s = some bytes ∧ v = ⟨bytes, sourceCoverage sources s⟩ ∧
    ∀ s', saw s' ≠ none → precedence sources s ≤ precedence sources s'

variable {sources}

theorem Best.unique {saw} {v w : Value} (hv : Best sources saw v) (hw : Best sources saw w) :
    v = w := by
  obtain ⟨s, bytes, hs, rfl, hmin⟩ := hv
  obtain ⟨t, bytes', ht, rfl, hmin'⟩ := hw
  obtain rfl := precedence_injective sources
    (le_antisymm (hmin t (by simp [ht])) (hmin' s (by simp [hs])))
  rw [hs, some.injEq] at ht
  rw [ht]

variable (sources)

/-- The sources of which an observation in a second was accepted. -/
def Ledger.sourcesOf (ledger : Ledger) (base : SecondKey) : List FlowSourceId :=
  (ledger.filter (·.1.base = base)).map (·.1.source)

/-- The winning source's bytes and coverage of a second. -/
def Ledger.winning (ledger : Ledger) (base : SecondKey) : Option Value :=
  (((ledger.sourcesOf base).argmin (precedence sources)).bind fun s =>
    (ledger.opened ⟨base, s⟩).map fun bytes => ⟨bytes, sourceCoverage sources s⟩)

variable {sources} {ledger : Ledger} {base : SecondKey}

theorem Ledger.mem_sourcesOf {s} : s ∈ ledger.sourcesOf base ↔ ledger.opened ⟨base, s⟩ ≠ none := by
  simp only [sourcesOf, List.mem_map, mem_filter, decide_eq_true_eq, opened]
  constructor
  · rintro ⟨⟨k, bytes⟩, ⟨hmem, rfl⟩, rfl⟩
    rw [if_pos ⟨(k, bytes), hmem, rfl⟩]
    simp
  intro h
  split at h
  · next hmem =>
    obtain ⟨entry, hentry, hkey⟩ := hmem
    exact ⟨entry, ⟨hentry, by rw [hkey]⟩, by rw [hkey]⟩
  · exact (h rfl).elim

theorem Ledger.best_of_winning {v : Value} (hv : ledger.winning sources base = some v) :
    Best sources (fun s => ledger.opened ⟨base, s⟩) v := by
  obtain ⟨s, hs, hv⟩ := bind_eq_some_iff.1 hv
  obtain ⟨bytes, hbytes, rfl⟩ := map_eq_some_iff.1 hv
  exact ⟨s, bytes, hbytes, rfl, fun s' hs' =>
    le_of_mem_argmin (Ledger.mem_sourcesOf.2 hs') hs⟩

/-- A second that some source saw has a winner. -/
theorem Ledger.winning_ne_none {s} (hs : ledger.opened ⟨base, s⟩ ≠ none) :
    ledger.winning sources base ≠ none := by
  have hmem : s ∈ ledger.sourcesOf base := Ledger.mem_sourcesOf.2 hs
  cases hmin : (ledger.sourcesOf base).argmin (precedence sources) with
  | none =>
    rw [argmin_eq_none] at hmin
    simp [hmin] at hmem
  | some t =>
    obtain ⟨bytes, ht⟩ := ne_none_iff_exists'.1
      (Ledger.mem_sourcesOf.1 (argmin_mem hmin))
    simp [winning, hmin, ht]

theorem Ledger.winning_eq_some {v : Value} : ledger.winning sources base = some v ↔
      Best sources (fun s => ledger.opened ⟨base, s⟩) v := by
  refine ⟨Ledger.best_of_winning, fun h => ?_⟩
  obtain ⟨s, bytes, hs, -, -⟩ := id h
  have hne : ledger.winning sources base ≠ none :=
    Ledger.winning_ne_none (ne_none_iff_exists'.2 ⟨bytes, hs⟩)
  obtain ⟨w, hw⟩ := ne_none_iff_exists'.1 hne
  rw [hw, (Ledger.best_of_winning hw).unique h]

theorem Ledger.winning_eq_none :
    ledger.winning sources base = none ↔ ∀ s, ledger.opened ⟨base, s⟩ = none := by
  refine ⟨fun h s => by_contra fun hs => Ledger.winning_ne_none hs h, fun h => ?_⟩
  refine Option.eq_none_iff_forall_ne_some.2 fun v hv => ?_
  obtain ⟨s, bytes, hs, -, -⟩ := Ledger.best_of_winning hv
  simp [h s] at hs

/-- The winner only depends on what the sources saw in the second. -/
theorem Ledger.winning_congr {ledger' : Ledger}
    (h : ∀ s, ledger.opened ⟨base, s⟩ = ledger'.opened ⟨base, s⟩) :
    ledger.winning sources base = ledger'.winning sources base := by
  refine Option.ext fun v => ?_
  rw [Ledger.winning_eq_some, Ledger.winning_eq_some]
  simp [h]

end Winner

/-! ### Buckets -/

/-- The row of a second. -/
def SecondKey.row (base : SecondKey) : RollupKey := ⟨.second, base.epoch, base.dims⟩

/-- The row of the bucket that contains a second. -/
def SecondKey.parent (res : Resolution) (base : SecondKey) : RollupKey :=
  ⟨res, bucketOf res base.epoch, base.dims⟩

/-- The seconds of a row's bucket, with its dimensions. -/
def RollupKey.seconds (k : RollupKey) : Finset SecondKey :=
  ((Finset.range k.resolution.width.toNat).image fun i => ⟨k.bucket + i, k.dims⟩).filter
    fun base => base.parent k.resolution = k

theorem width_pos (res : Resolution) : 0 < res.width := by
  cases res <;> decide

theorem bucketOf_le (res) (e : ℤ) : bucketOf res e ≤ e :=
  Int.ediv_mul_le e (width_pos res).ne'

theorem lt_bucketOf_add (res) (e : ℤ) : e < bucketOf res e + res.width :=
  Int.lt_ediv_add_one_mul_self e (width_pos res) |>.trans_eq (by rw [bucketOf, Int.add_mul, Int.one_mul])

theorem RollupKey.mem_seconds {k} {base : SecondKey} :
    base ∈ k.seconds ↔ base.parent k.resolution = k := by
  refine mem_filter.trans (and_iff_right_of_imp fun h => ?_)
  have hbucket : bucketOf k.resolution base.epoch = k.bucket := congrArg RollupKey.bucket h
  have hdims : k.dims = base.dims := (congrArg RollupKey.dims h).symm
  have hle := bucketOf_le k.resolution base.epoch
  have hlt := lt_bucketOf_add k.resolution base.epoch
  rw [hbucket] at hle hlt
  refine Finset.mem_image.2 ⟨(base.epoch - k.bucket).toNat, Finset.mem_range.2 ?_,
    SecondKey.ext ?_ hdims⟩
  · omega
  · rw [Int.toNat_of_nonneg (by omega)]
    simp

/-- The seconds of the buckets of a resolution; a bucket is given with its dimensions. -/
def rollups (res : Resolution) : Aggregate SecondKey (ℤ × Dimensions) where
  parentOf base := (bucketOf res base.epoch, base.dims)
  kids p := RollupKey.seconds ⟨res, p.1, p.2⟩
  mem_kids {base p} := by
    rw [RollupKey.mem_seconds, SecondKey.parent, RollupKey.mk.injEq, Prod.ext_iff]
    simp

end NeonHearth.Flow
