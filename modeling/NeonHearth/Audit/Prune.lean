import NeonHearth.Audit.Integrity

/-!
# What a prune reports

A prune counts the rows that it removes and the rows that it leaves, and both counts are right
(`prune_reported_iff`).  It also counts the rows that are older than the cutoff and stay, because a row
below them is not older.  This count is taken before the bound on the number of rows moves the cut: a
row that the bound removes is reported as kept all the same (`boundedPrune_misreported`), so the count
is right just when the bound removes no such row.

Stamps are compared as the table compares them, as texts.
-/

namespace NeonHearth.Audit

open NeonHearth.Except List Option Library Links Prod

/-- The rows of a list that are older than a cutoff and above a row of the table that is not. -/
def outOfOrder (table rows : List Entry) (cutoff : Text) : List Entry :=
  rows.filter fun row => row.2.occurredAt.1 < cutoff.1 &&
    table.any fun x => x.1 < row.1 && cutoff.1 ≤ x.2.occurredAt.1

section

variable {rows : List Entry} {row last : Entry} {cutoff : Text}

/-- The age boundary is below an older row if a row below that row is not older. -/
theorem ageBoundary_lt_iff (hsorted : rows.Pairwise fun x y => x.1 < y.1)
    (hlast : rows.getLast? = some last) (hrow : row ∈ rows) (hold : row.2.occurredAt.1 < cutoff.1) :
    ageBoundary rows last.1 cutoff < row.1 ↔ ∃ x ∈ rows, x.1 < row.1 ∧ cutoff.1 ≤ x.2.occurredAt.1 := by
  unfold ageBoundary
  split
  next kept hkept =>
    obtain ⟨hnew, before, after, rfl, hbefore⟩ := find?_eq_some_iff_append.1 hkept
    rw [decide_eq_true_eq] at hnew
    obtain ⟨-, hafter, hcross⟩ := pairwise_append.1 hsorted
    constructor
    · intro hle
      refine ⟨kept, by simp, ?_, hnew⟩
      -- the first row that is kept is another one, as it is not older
      have hne : row ≠ kept := fun heq => absurd hnew (not_le.2 (heq ▸ hold))
      obtain hmem | hmem := mem_append.1 hrow
      · have := hcross row hmem kept mem_cons_self
        omega
      · obtain heq | hmem := mem_cons.1 hmem
        · exact absurd heq hne
        · exact (pairwise_cons.1 hafter).1 row hmem
    · rintro ⟨x, hx, hlt, hxnew⟩
      have hle : kept.1 ≤ x.1 := by
        obtain hmem | hmem := mem_append.1 hx
        · have hxold := hbefore x hmem
          simp [hxnew] at hxold
        · obtain rfl | hmem := mem_cons.1 hmem
          · exact le_rfl
          · exact ((pairwise_cons.1 hafter).1 x hmem).le
      omega
  next hnone =>
    obtain ⟨init, rfl⟩ := getLast?_eq_some_iff.1 hlast
    have hle : row.1 ≤ last.1 := by
      obtain hmem | hmem := mem_append.1 hrow
      · exact ((pairwise_append.1 hsorted).2.2 row hmem last (by simp)).le
      · exact (congrArg fst (mem_singleton.1 hmem)).le
    refine iff_of_false (not_lt.2 hle) ?_
    rintro ⟨x, hx, -, hnew⟩
    exact find?_eq_none.1 hnone x hx (decide_eq_true hnew)

/-- What the prune counts before it moves the cut. -/
theorem keptOutOfOrder_eq (hsorted : rows.Pairwise fun x y => x.1 < y.1)
    (hlast : rows.getLast? = some last) :
    keptOutOfOrder rows last.1 (some cutoff) = (outOfOrder rows rows cutoff).length := by
  refine congrArg length (filter_congr fun row hrow => ?_)
  by_cases hold : row.2.occurredAt.1 < cutoff.1
  · rw [Bool.eq_iff_iff]
    simpa [hold] using ageBoundary_lt_iff hsorted hlast hrow hold
  · simp [hold]

end

variable {Detail : Type} {lib : Library Detail} {run : Run} {db : Tables} {before : Option DateTime}
  {maxRows : Option ℕ} {now : DateTime} {report : PruneReport}

/-- The count of the rows left, which is computed from ids. -/
theorem remainingRows_eq (hintact : Intact lib run)
    (h : lib.retentionPrune run.db before maxRows now = .ok (db, report)) :
    report.remainingRows = db.rows.size := by
  have hholds := (hintact.holds_prune h).2
  obtain ⟨prunedAt, h⟩ := retentionPrune_eq_ok h
  obtain ⟨-, ⟨rfl, -, hreport⟩ | ⟨through, last, -, rfl, -, hreport⟩⟩ := pruneLocked_eq_ok lib h
  · exact hreport
  -- the head is the same, and the chain of the rows left starts after the new anchor
  have hhead := congrArg fst (hintact.holds.head_eq.trans hholds.head_eq.symm)
  have hlength := tip_id_of_chained hholds.chained_split.2
  rw [← head_eq_tip, SortedMap.length_toList] at hlength
  have hroot : (lib.head run.db).id = through + _ := hhead.trans hlength
  rw [hreport, hroot]
  omega

theorem first_le {first row : Entry} (hfirst : db.rows.toList.head? = some first)
    (hrow : row ∈ db.rows.toList) : first.1 ≤ row.1 := by
  obtain ⟨rest, hcons⟩ := head?_eq_some_iff.1 hfirst
  have hsorted := db.rows.pairwise_toList
  rw [hcons] at hrow hsorted
  obtain rfl | hmem := mem_cons.1 hrow
  · exact le_rfl
  · exact ((pairwise_cons.1 hsorted).1 row hmem).le

theorem isNone_get_pruned {cutoff} {prunedAt : Text} {first last row : Entry}
    (h : pruneLocked run.db cutoff maxRows prunedAt = .ok (db, report))
    (hfirst : run.db.rows.toList.head? = some first) (hlast : run.db.rows.toList.getLast? = some last)
    (hrow : row ∈ run.db.rows.toList) : (db.rows.get row.1).isNone ↔
      row.1 ≤ pruneThrough run.db.rows.toList first.1 last.1 cutoff maxRows := by
  have hle := first_le hfirst hrow
  have hget := SortedMap.mem_toList.1 hrow
  simp only [pruneLocked, hfirst, hlast] at h
  split_ifs at h with hnone
  · cases h
    simp [hget, hnone.trans_le hle]
  · obtain ⟨_, -, h⟩ := bind_eq_ok.1 h
    obtain ⟨_, -, h⟩ := bind_eq_ok.1 h
    cases h
    rw [SortedMap.get_filter, hget]
    simp [Option.filter]

/-- **What a prune reports**: the rows removed, the rows left, and the older rows that stay because a row
below them is not older, which is right just when these rows are all among the last `maxRows` ones. -/
theorem prune_reported_iff (hrun : (auditMachine lib).Reachable run)
    (h : lib.retentionPrune run.db before maxRows now = .ok (db, report)) :
    report.prunedRows =
        (run.db.rows.toList.filter fun row => (db.rows.get row.1).isNone).length ∧
      report.remainingRows = db.rows.size ∧
      (report.keptOutOfOrderRows = ((before.bind lib.encodeTime).elim 0 fun cutoff =>
          (outOfOrder run.db.rows.toList db.rows.toList cutoff).length) ↔
        ∀ cutoff ∈ before.bind lib.encodeTime, ∀ n ∈ maxRows,
          ∀ row ∈ outOfOrder run.db.rows.toList run.db.rows.toList cutoff,
            (lib.head run.db).id < row.1 + n) := by
  have hintact := intact_of_reachable hrun
  obtain ⟨hsplit, -⟩ := hintact.holds_prune h
  have hlength := congrArg length hsplit
  rw [length_append, SortedMap.length_toList, SortedMap.length_toList] at hlength
  refine ⟨?_, remainingRows_eq hintact h, ?_⟩
  · obtain ⟨prunedAt, h⟩ := retentionPrune_eq_ok h
    obtain ⟨-, ⟨rfl, hreport, -⟩ | ⟨through, last, -, rfl, hreport, -⟩⟩ := pruneLocked_eq_ok lib h
    · omega
    · omega
  obtain ⟨prunedAt, h⟩ := retentionPrune_eq_ok h
  rw [(pruneLocked_eq_ok lib h).1]
  cases hcutoff : before.bind lib.encodeTime with
  | none => cases run.db.rows.toList.getLast? <;> simp [keptOutOfOrder]
  | some cutoff =>
  cases hlast : run.db.rows.toList.getLast? with
  | none =>
    rw [getLast?_eq_none_iff.1 hlast] at hsplit ⊢
    simp [(append_eq_nil_iff.1 hsplit.symm).2, outOfOrder]
  | some last =>
  have hparts : outOfOrder run.db.rows.toList run.db.rows.toList cutoff =
      outOfOrder run.db.rows.toList
        (run.db.rows.toList.filter fun row => (db.rows.get row.1).isNone) cutoff ++
      outOfOrder run.db.rows.toList db.rows.toList cutoff :=
    (congrArg (outOfOrder run.db.rows.toList · cutoff) hsplit).trans (filter_append ..)
  have hhead : (lib.head run.db).id = last.1 := by rw [Library.head, hlast]
  simp only [Option.elim, keptOutOfOrder_eq run.db.rows.pairwise_toList hlast, hhead]
  rw [congrArg length hparts, length_append, Nat.add_eq_right, length_eq_zero_iff, outOfOrder,
    filter_eq_nil_iff]
  -- which of the rows that are counted the cut removes
  have hcut : ∀ row ∈ outOfOrder run.db.rows.toList run.db.rows.toList cutoff,
      (db.rows.get row.1).isNone ↔ ∃ n ∈ maxRows, row.1 + n ≤ last.1 := by
    intro row hrow
    obtain ⟨hrow, hcounted⟩ := mem_filter.1 hrow
    simp only [Bool.and_eq_true, decide_eq_true_eq, List.any_eq_true] at hcounted
    obtain ⟨first, hfirst⟩ := isSome_iff_exists.1 (isSome_head?.2 (ne_nil_of_mem hrow))
    have hage := (ageBoundary_lt_iff run.db.rows.pairwise_toList hlast hrow hcounted.1).2 hcounted.2
    have hfirst_le := first_le hfirst hrow
    have hlow : 0 < row.1 := (id_of_mem hintact.holds.chained
      (hintact.holds.split ▸ mem_append_right _ hrow)).1
    have hhigh : last.1 < 2 ^ 63 := by
      rw [← hhead]
      exact (congrArg fst hintact.holds.head_eq).trans_lt hintact.holds.bound
    rw [isNone_get_pruned h hfirst hlast hrow, hcutoff]
    cases maxRows with
    | none => simpa [pruneThrough] using ⟨by omega, hage⟩
    | some n =>
      simp only [pruneThrough, saturatingSub, Option.elim, le_max_iff, mem_some, exists_eq_left']
      omega
  constructor
  · rintro hnone _ ⟨⟩ n hn row hrow
    by_contra hle
    refine hnone row (mem_filter.2 ⟨mem_of_mem_filter hrow, ?_⟩) (mem_filter.1 hrow).2
    exact (hcut row hrow).2 ⟨n, hn, not_lt.1 hle⟩
  · intro hkept row hrow hcounted
    obtain ⟨hrow, hnone⟩ := mem_filter.1 hrow
    have hrow : row ∈ outOfOrder run.db.rows.toList run.db.rows.toList cutoff :=
      mem_filter.2 ⟨hrow, hcounted⟩
    obtain ⟨n, hn, hle⟩ := (hcut row hrow).1 hnone
    exact absurd (hkept cutoff rfl n hn row hrow) (not_lt.2 hle)

/-- A library that tells two times apart. -/
def stampLibrary : Library Unit :=
  { sampleLibrary with
    rfc3339 t := if t.nanos = 0 then sampleLibrary.rfc3339 t
      else ⟨"1970-01-01T00:00:01.000000000Z", by decide⟩
    parseRfc3339 text := if text.1 = "1970-01-01T00:00:00.000000000Z" then
      sampleLibrary.parseRfc3339 text else some ⟨seconds 1, by decide, by decide⟩ }

/-- A second of the epoch. -/
def stamp (n : Fin 2) : DateTime := ⟨seconds n, by decide +revert, by decide +revert⟩

/-- Three entries, of which the second one has the earlier time. -/
def clockBack : List (AuditEvent Unit) :=
  [1, 0, 1].map fun n => .append { sampleEntry with occurredAt := stamp n } false

/-- The run before any event. -/
def newRun : Run := ⟨⟨∅, none⟩, [], [], [stampLibrary.head ⟨∅, none⟩]⟩

theorem clockBack_reported : ∃ run db report,
    (auditMachine stampLibrary).exec newRun clockBack = some run ∧
      stampLibrary.retentionPrune run.db (some (stamp 1)) (some 2) (stamp 1) = .ok (db, report) ∧
      report.prunedRows = 1 ∧ report.remainingRows = db.rows.size ∧ report.keptOutOfOrderRows = 1 := by
  obtain ⟨run, hexec, ⟨db, report⟩, h, hpruned, hkept, hcount⟩ :
      ∃ run, (auditMachine stampLibrary).exec newRun clockBack = some run ∧
        ∃ x, stampLibrary.retentionPrune run.db (some (stamp 1)) (some 2) (stamp 1) = .ok x ∧
          x.2.prunedRows = 1 ∧ (∀ cutoff ∈ stampLibrary.encodeTime (stamp 1), ∀ n ∈ some (2 : ℕ),
            ∀ row ∈ outOfOrder run.db.rows.toList run.db.rows.toList cutoff,
              (stampLibrary.head run.db).id < row.1 + n) ∧
          ((stampLibrary.encodeTime (stamp 1)).elim 0 fun cutoff =>
            (outOfOrder run.db.rows.toList x.1.rows.toList cutoff).length) = 1 := by decide +kernel
  obtain ⟨-, hremaining, hreported⟩ := prune_reported_iff (.exec (.start rfl) hexec) h
  exact ⟨run, db, report, hexec, h, hpruned, hremaining, (hreported.2 hkept).trans hcount⟩

/-- The second row goes with the first one, and is reported as kept. -/
theorem boundedPrune_misreported : ∃ run db report, (auditMachine stampLibrary).Reachable run ∧
    stampLibrary.retentionPrune run.db (some (stamp 1)) (some 1) (stamp 1) = .ok (db, report) ∧
    db.rows.toList.map Prod.fst = [3] ∧ report.keptOutOfOrderRows = 1 ∧
    ∀ cutoff ∈ stampLibrary.encodeTime (stamp 1),
      outOfOrder run.db.rows.toList db.rows.toList cutoff = [] := by
  obtain ⟨run, hexec, ⟨db, report⟩, h⟩ :
      ∃ run, (auditMachine stampLibrary).exec newRun clockBack = some run ∧
        ∃ x, stampLibrary.retentionPrune run.db (some (stamp 1)) (some 1) (stamp 1) = .ok x ∧
          x.1.rows.toList.map fst = [3] ∧ x.2.keptOutOfOrderRows = 1 ∧
          ∀ cutoff ∈ stampLibrary.encodeTime (stamp 1),
            outOfOrder run.db.rows.toList x.1.rows.toList cutoff = [] := by decide +kernel
  exact ⟨run, db, report, .exec (.start rfl) hexec, h⟩

end NeonHearth.Audit
