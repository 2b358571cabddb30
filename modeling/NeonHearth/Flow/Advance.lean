import NeonHearth.Flow.Ledger

/-!
# What the engine's operations do

One specification lemma per operation of the flow engine, stated with lookups: `observe_spec` for
an accepted observation, `selectSeconds_spec` for the selection of the winning sources,
`adjustParent_spec` and `closeSecond_spec` for the passes of the closing loop, and `advance_spec` for a
whole advance of the watermark.
-/

namespace NeonHearth.Flow

open SortedMap NeonHearth.Except List Option

@[simp]
theorem checkedU64_eq_ok {n m : ℕ} : checkedU64 n = .ok m ↔ n < 2 ^ 64 ∧ n = m := by
  unfold checkedU64
  split <;> simp_all

@[simp]
theorem checkedSub_eq_ok {m n k : ℕ} : checkedSub m n = .ok k ↔ n ≤ m ∧ m - n = k := by
  unfold checkedSub
  split <;> simp_all

theorem checkedAdd_eq {a b c : ByteCount} (h : a.checkedAdd b = .ok c) : c = a + b := by
  simp only [ByteCount.checkedAdd, bind_eq_ok, pure_eq_ok, checkedU64_eq_ok] at h
  obtain ⟨_, ⟨-, rfl⟩, _, ⟨-, rfl⟩, _, -, rfl⟩ := h
  rfl

variable {k : SourceSecondKey}

theorem key_spec {o : FlowObservation} {cfg}
    (h : o.key cfg = .ok k) : k.base.epoch = o.eventTime.timestamp ∧ k.source = o.source := by
  simp only [FlowObservation.key, bind_eq_ok, pure_eq_ok] at h
  obtain ⟨_, -, rfl⟩ := h
  exact ⟨rfl, rfl⟩

variable {engine engine' : FlowEngine}

/-- An accepted observation is added to the count of its source and second; its correction window
is still open. -/
theorem observe_spec {o} (h : engine.observe o = .ok engine') :
    ∃ k edge, o.key engine.cfg = .ok k ∧ engine.sources.get k.source ≠ none ∧
      lateEdge engine.cfg.lateness k.base.epoch = some edge ∧
      (∀ w, engine.watermark = some w → w ≤ edge) ∧
      engine'.cfg = engine.cfg ∧ engine'.sources = engine.sources ∧
      engine'.watermark = engine.watermark ∧ engine'.emitted = engine.emitted ∧ engine'.seconds =
        engine.seconds.insert k ((engine.seconds.get k).getD 0 + o.bytes) := by
  simp only [FlowEngine.observe, bind_eq_ok, pure_eq_ok, reject_eq_ok, okOr_eq_ok]
    at h
  obtain ⟨kind, hkind, _, -, _, -, _, -, _, -, _, -, edge, hedge, _, -, _, hlate, _, -, _, -, _, -,
    _, -, _, -, k, hk, _, -, _, -, value, hvalue, rfl⟩ := h
  obtain ⟨hepoch, hsource⟩ := key_spec hk
  refine ⟨k, edge, hk, by rw [hsource, hkind]; simp, by rw [hepoch, hedge], fun w hw => ?_,
    rfl, rfl, rfl, rfl, by rw [checkedAdd_eq hvalue]⟩
  simpa [hw] using hlate

/-! ### Selection -/

/-- The second is over at the watermark `w`. -/
def SecondKey.Closed (base : SecondKey) (w : DateTime) : Prop := base.epoch + 1 ≤ w.timestamp

variable {sources : SortedMap FlowSourceId VisibilityKind}
  {done : List (SourceSecondKey × ByteCount)}

theorem precedence_lt_iff {s t} : precedence sources s < precedence sources t ↔
      coverageRank (sourceCoverage sources t) < coverageRank (sourceCoverage sources s) ∨
      coverageRank (sourceCoverage sources s) = coverageRank (sourceCoverage sources t) ∧ s < t := by
  have hrank : ∀ c, 1 ≤ coverageRank c ∧ coverageRank c ≤ 4 := by
    intro c
    cases c <;> decide
  have hs := hrank (sourceCoverage sources s)
  have ht := hrank (sourceCoverage sources t)
  rw [precedence, precedence, Prod.Lex.toLex_lt_toLex]
  refine or_congr (by omega) (and_congr_left' (by omega))

/-- What the selection loop has found out about one second. -/
inductive Selected (sources : SortedMap FlowSourceId VisibilityKind) (w : DateTime)
    (done : List (SourceSecondKey × ByteCount)) (base : SecondKey) (out : Selection) : Prop
  | unseen (hout : out.1.get base = none ∧ out.2.get base = none)
      (hdone : ∀ entry ∈ done, entry.1.base = base → ¬base.Closed w)
  | won {s bytes} (hmem : (⟨base, s⟩, bytes) ∈ done) (hclosed : base.Closed w)
      (hwin : out.1.get base = some (coverageRank (sourceCoverage sources s), s))
      (hout : out.2.get base = some ⟨bytes, sourceCoverage sources s⟩)
      (hmin : ∀ entry ∈ done, entry.1.base = base →
        precedence sources s ≤ precedence sources entry.1.source)

variable {w : DateTime} {out : Selection} {entry : SourceSecondKey × ByteCount} {base : SecondKey}

/-- Entries of other seconds and of open seconds do not matter. -/
theorem Selected.skip {out'} (h : Selected sources w done base out)
    (hout₁ : out'.1.get base = out.1.get base) (hout₂ : out'.2.get base = out.2.get base)
    (hskip : entry.1.base = base → ¬base.Closed w) :
    Selected sources w (done ++ [entry]) base out' := by
  cases h with
  | unseen hout hd =>
    exact .unseen (by rw [hout₁, hout₂]; exact hout) (forall_mem_concat.2 ⟨hd, hskip⟩)
  | won hmem hclosed hwin hout hmin =>
    exact .won (mem_append_left _ hmem) hclosed (hout₁.trans hwin) (hout₂.trans hout)
      (forall_mem_concat.2 ⟨hmin, fun hb => absurd hclosed (hskip hb)⟩)

/-- A source that precedes the winner so far replaces it. -/
theorem Selected.replace {bytes}
    (h : Selected sources w done k.base out) (hclosed : k.base.Closed w)
    (hbetter : ∀ s, out.1.get k.base = some (coverageRank (sourceCoverage sources s), s) →
      precedence sources k.source < precedence sources s) :
    Selected sources w (done ++ [(k, bytes)]) k.base
      (out.1.insert k.base (coverageRank (sourceCoverage sources k.source), k.source),
        out.2.insert k.base ⟨bytes, sourceCoverage sources k.source⟩) := by
  refine .won (s := k.source) (mem_append_right _ (mem_singleton.2 rfl)) hclosed
    (get_insert_self ..) (get_insert_self ..)
    (forall_mem_concat.2 ⟨fun e he hb => ?_, fun _ => le_rfl⟩)
  cases h with
  | unseen _ hd => exact absurd hclosed (hd e he hb)
  | won _ _ hwin _ hmin => exact (hbetter _ hwin).le.trans (hmin e he hb)

/-- A source that does not precede the winner so far leaves it. -/
theorem Selected.keep {bytes} (h : Selected sources w done k.base out) {s}
    (hs : out.1.get k.base = some (coverageRank (sourceCoverage sources s), s))
    (hworse : ¬precedence sources k.source < precedence sources s) :
    Selected sources w (done ++ [(k, bytes)]) k.base out := by
  cases h with
  | unseen hout _ => simp [hout.1] at hs
  | won hmem hclosed hwin hout hmin =>
    obtain rfl : _ = s := congrArg Prod.snd (some.inj (hwin.symm.trans hs))
    exact .won (mem_append_left _ hmem) hclosed hwin hout
      (forall_mem_concat.2 ⟨hmin, fun _ => not_lt.1 hworse⟩)

theorem selectSecond_step {out'} (hdone : ∀ base, Selected sources w done base out)
    (h : selectSecond sources w out entry = .ok out') (base) :
    Selected sources w (done ++ [entry]) base out' := by
  obtain ⟨k, bytes⟩ := entry
  simp only [selectSecond] at h
  split at h
  · next hopen =>
    cases h
    refine (hdone base).skip rfl rfl fun hb hclosed => ?_
    subst hb
    exact absurd hclosed (not_le.2 hopen)
  · next hclosed =>
    replace hclosed : k.base.Closed w := not_lt.1 hclosed
    simp only [bind_eq_ok, pure_eq_ok, okOr_eq_ok] at h
    obtain ⟨kind, hkind, rfl⟩ := h
    have hcoverage : coverage kind = sourceCoverage sources k.source := by
      simp [sourceCoverage, hkind]
    rw [hcoverage]
    by_cases hb : base = k.base
    · subst hb
      split
      · next hreplace =>
        refine (hdone _).replace hclosed fun s hs => ?_
        rw [hs, all_some, decide_eq_true_eq] at hreplace
        exact precedence_lt_iff.2 hreplace
      · next hkeep =>
        cases hdone k.base with
        | unseen hout _ => simp [hout.1] at hkeep
        | won hmem hcl hwin hout hmin =>
          refine (hdone _).keep hwin fun hlt => hkeep ?_
          rw [hwin, all_some, decide_eq_true_eq]
          exact precedence_lt_iff.1 hlt
    · have hskip : k.base = base → ¬base.Closed w := fun h => (hb h.symm).elim
      split
      · exact (hdone base).skip (get_insert_of_ne _ _ hb)
          (get_insert_of_ne _ _ hb) hskip
      · exact (hdone base).skip rfl rfl hskip

/-- The selection gives every closed second its best source. -/
theorem selectSeconds_spec {secs selected} (h : selectSeconds secs sources w = .ok selected)
    (base) (v : Value) :
    selected.get base = some v ↔ base.Closed w ∧ Best sources (fun s => secs.get ⟨base, s⟩) v := by
  simp only [selectSeconds, bind_eq_ok, pure_eq_ok] at h
  obtain ⟨out, hout, rfl⟩ := h
  have hsel : ∀ base, Selected sources w secs.toList base out :=
    foldlM_invariant (I := fun done out => ∀ base, Selected sources w done base out) hout
      (fun base => .unseen ⟨rfl, rfl⟩ (by simp))
      fun done entry rest b b' _ hI hb base => selectSecond_step hI hb base
  have hmem : ∀ s', secs.get ⟨base, s'⟩ ≠ none → ∃ entry ∈ secs.toList, entry.1 = ⟨base, s'⟩ := by
    intro s' hs'
    obtain ⟨b, hb⟩ := ne_none_iff_exists'.1 hs'
    exact ⟨_, mem_toList.2 hb, rfl⟩
  cases hsel base with
  | unseen hnone hd =>
    rw [hnone.2]
    refine iff_of_false (by simp) ?_
    rintro ⟨hclosed, s, bytes, hs, -, -⟩
    obtain ⟨entry, he, hkey⟩ := hmem s (by simp [hs])
    exact hd entry he (by rw [hkey]) hclosed
  | @won s bytes hs hclosed hwin hsome hmin =>
    have hbest : Best sources (fun s => secs.get ⟨base, s⟩) ⟨bytes, sourceCoverage sources s⟩ := by
      refine ⟨s, bytes, mem_toList.1 hs, rfl, fun s' hs' => ?_⟩
      obtain ⟨entry, he, hkey⟩ := hmem s' hs'
      have := hmin entry he (by rw [hkey])
      rwa [hkey] at this
    rw [hsome, some.injEq]
    exact ⟨fun hv => ⟨hclosed, hv ▸ hbest⟩, fun hv => hbest.unique hv.2⟩

/-! ### The closing loop -/

/-- The bytes of a row, if there is one. -/
def bytesOf (v : Option Value) : ByteCount := (v.map Value.bytes).getD 0

/-- Adjusting a parent takes the old count of the second out, puts the new one in and merges the
new coverage; no other row changes. -/
theorem adjustParent_spec {out out' res old} {new : Value}
    (h : adjustParent out res base old new = .ok out') :
    ∃ v, out' = out.insert (base.parent res) v ∧
      v.bytes + bytesOf old = bytesOf (out.get (base.parent res)) + new.bytes ∧
      v.coverage = mergeCoverage
        (((out.get (base.parent res)).map Value.coverage).getD new.coverage) new.coverage := by
  simp only [adjustParent, makeRollupKey, bind_eq_ok, pure_eq_ok, okOr_eq_ok,
    checkedU64_eq_ok, checkedSub_eq_ok] at h
  obtain ⟨key, ⟨_, -, rfl⟩, _, ⟨hup, rfl⟩, _, ⟨-, rfl⟩, _, ⟨hdown, rfl⟩, _, ⟨-, rfl⟩, _, -, rfl⟩ := h
  refine ⟨_, rfl, ?_, ?_⟩
  · change ByteCount.mk _ _ + bytesOf old = bytesOf (out.get (base.parent res)) + new.bytes
    rw [show (⟨res, bucketOf res base.epoch, base.dims⟩ : RollupKey) = base.parent res from rfl] at *
    cases hp : out.get (base.parent res) <;>
    · simp only [hp, bytesOf, getD_none, getD_some, map_none, map_some] at hup hdown ⊢
      ext <;> simp only [ByteCount.upload_add, ByteCount.download_add] <;> omega
  · rw [show (⟨res, bucketOf res base.epoch, base.dims⟩ : RollupKey) = base.parent res from rfl]
    cases out.get (base.parent res) <;> rfl

/-- One pass of the closing loop: an unchanged second changes nothing, a revised one sets its row
and adjusts its minute and its hour. -/
theorem closeSecond_spec {rows rows'} {v : Value}
    (h : closeSecond rows (base, v) = .ok rows') : rows.get base.row = some v ∧ rows' = rows ∨
    rows.get base.row ≠ some v ∧ ∃ minutes,
      adjustParent (rows.insert base.row v) .minute base (rows.get base.row) v = .ok minutes ∧
      adjustParent minutes .hour base (rows.get base.row) v = .ok rows' := by
  simp only [closeSecond, makeRollupKey, bind_eq_ok, pure_eq_ok, okOr_eq_ok] at h
  obtain ⟨key, ⟨_, -, rfl⟩, h⟩ := h
  change (if rows.get base.row = some v then _ else _) = _ at h
  split_ifs at h with hsame
  · exact .inl ⟨hsame, (pure_eq_ok.1 h).symm⟩
  · obtain ⟨minutes, hmin, hhour⟩ := bind_eq_ok.1 h
    exact .inr ⟨hsame, minutes, hmin, hhour⟩

/-! ### An advance of the watermark -/

/-- The parts of a successful advance. -/
structure Advanced (engine : FlowEngine) (next : DateTime) (engine' : FlowEngine)
    (changes : List RollupChange) : Prop where
  monotone : ∀ w, engine.watermark = some w → w ≤ next
  cfg : engine'.cfg = engine.cfg
  sources : engine'.sources = engine.sources
  watermark : engine'.watermark = some next
  loop : ∃ selected closed, selectSeconds engine.seconds engine.sources next = .ok selected ∧
    selected.toList.foldlM closeSecond engine.emitted = .ok closed ∧
    engine'.emitted = closed.filter fun k _ => !retired k next engine.cfg.lateness
  seconds : ∃ cutoff, next.checkedSubSigned engine.cfg.lateness = some cutoff ∧
    engine'.seconds = engine.seconds.filter fun k _ => cutoff.timestamp ≤ k.base.epoch + 1
  changes : changes = (unionKeys engine.emitted engine'.emitted).filterMap
    (rollupChange engine.emitted engine'.emitted)

theorem advance_spec {next now changes}
    (h : engine.advanceWatermarkAt next now = .ok (changes, engine')) :
    Advanced engine next engine' changes := by
  simp only [FlowEngine.advanceWatermarkAt, bind_eq_ok, pure_eq_ok, reject_eq_ok,
    okOr_eq_ok, min_eq_right engine.cfg_valid.correctionRetention] at h
  obtain ⟨_, -, _, -, _, hmono, cutoff, hcutoff, _, -, _, -, selected, hsel, closed, hclosed, _, -, _,
    -, _, -, _, -, hend⟩ := h
  cases hend
  exact ⟨fun w hw => by simpa [hw] using hmono, rfl, rfl, rfl, ⟨selected, closed, hsel, hclosed, rfl⟩,
    ⟨cutoff, hcutoff, rfl⟩, rfl⟩

theorem get_foldl_insert (l : List (RollupKey × Value)) (m : SortedMap RollupKey Value) (k) :
    (l.foldl (fun m entry => m.insert entry.1 entry.2) m).get k ≠ none ↔
      m.get k ≠ none ∨ k ∈ l.map Prod.fst := by
  induction l generalizing m with
  | nil => simp
  | cons entry l ih =>
    rw [foldl_cons, ih, get_insert]
    by_cases hk : k = entry.1
    · simp [hk]
    · simp [hk]

theorem mem_unionKeys {m n k} : k ∈ unionKeys m n ↔ m.get k ≠ none ∨ n.get k ≠ none := by
  rw [unionKeys, SortedMap.mem_keys, get_foldl_insert, SortedMap.mem_keys]

end NeonHearth.Flow
