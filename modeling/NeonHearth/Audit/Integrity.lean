import NeonHearth.Audit.Log

/-!
# The chain stays intact

What appends and prunes leave in the tables is a chain from the anchor, and the verifier finds no break
in it (`chain_intact`).

* `walkPages_eq` : going over the table in pages is going over its rows;
* `intact_of_verifyIn`, `verifyIn_of_intact` : what the verifier accepts.

There is one exception.  After the row with the last id the verifier counts on, and fails
(`lastId_not_verified`).
-/

namespace NeonHearth.Audit

open SortedMap NeonHearth.Except List Option Library Links

/-- How rows are linked. -/
def links : Links Entry Text := ⟨Prod.fst, fun row => row.2.prevHash, fun row => row.2.entryHash⟩

variable {Detail : Type} {lib : Library Detail}

/-- A row that can be decoded, with the hash of its fields. -/
structure Sound (lib : Library Detail) (row : Entry) : Prop where
  actor : (AuditActor.parse row.2.actor).isSome
  category : (AuditCategory.parse row.2.category).isSome
  hash : lib.computeEntryHash row.1 row.2 = row.2.entryHash

namespace Library

theorem breakKind_eq_none {i : ℤ} {prev : Text} {row : Entry} :
    lib.breakKind i prev row = none ↔ row.1 = i ∧ row.2.prevHash = prev ∧ Sound lib row := by
  unfold breakKind
  split_ifs with hid hparse hprev hhash
  · simp [hid]
  · refine iff_of_false (by simp) fun h => ?_
    rw [Bool.or_eq_true, isNone_iff_eq_none, isNone_iff_eq_none] at hparse
    obtain hparse | hparse := hparse
    · simpa [hparse] using h.2.2.actor
    · simpa [hparse] using h.2.2.category
  · simp [hprev]
  · exact iff_of_false (by simp) fun h => hhash h.2.2.hash
  · rw [Bool.or_eq_true, not_or, isNone_iff_eq_none, isNone_iff_eq_none] at hparse
    exact iff_of_true rfl ⟨not_not.1 hid, not_not.1 hprev, isSome_iff_ne_none.2 hparse.1,
      isSome_iff_ne_none.2 hparse.2, not_not.1 hhash⟩

variable {startId : ℤ} {anchored : Bool} {w w' : Walk} {rows : List Entry} {row : Entry}

/-! ### The walk -/

/-- The walk continues from an id and a hash. -/
def Walk.root (w : Walk) : ℤ × Text := (w.expectedId - 1, w.expectedPrev)

theorem walkRow_eq_ok (h : lib.walkRow startId anchored w row = .ok w') :
    links.Chained w.root [row] ∧ Sound lib row ∧ w'.root = links.tip w.root [row] ∧
      w'.cursor = row.1 := by
  unfold walkRow at h
  split at h
  · cases h
  next hbreak =>
    split_ifs at h
    cases h
    obtain ⟨hid, hprev, hsound⟩ := breakKind_eq_none.1 hbreak
    refine ⟨⟨?_, hprev, trivial⟩, hsound, Prod.ext ?_ rfl, rfl⟩
    · simp only [links, Walk.root, hid]
      omega
    · simp only [links, Walk.root, tip, foldl]
      omega

theorem breakKind_of_chained (hrow : links.Chained w.root [row]) (hsound : Sound lib row) :
    lib.breakKind w.expectedId w.expectedPrev row = none := by
  obtain ⟨hid, hprev, -⟩ := hrow
  simp only [links, Walk.root, sub_add_cancel] at hid hprev
  exact breakKind_eq_none.2 ⟨hid, hprev, hsound⟩

/-- The rows of a successful walk are a chain of sound rows. -/
theorem foldlM_walkRow (h : rows.foldlM (lib.walkRow startId anchored) w = .ok w') :
    links.Chained w.root rows ∧ (∀ row ∈ rows, Sound lib row) ∧ w'.root = links.tip w.root rows ∧
      ∀ row, rows.getLast? = some row → w'.cursor = row.1 := by
  refine foldlM_invariant (I := fun done w' => links.Chained w.root done ∧
    (∀ row ∈ done, Sound lib row) ∧ w'.root = links.tip w.root done ∧
      ∀ row, done.getLast? = some row → w'.cursor = row.1) h ⟨trivial, by simp, rfl, by simp⟩ ?_
  rintro done row rest w₁ w₂ - ⟨hchain, hsound, hroot, -⟩ hstep
  obtain ⟨hrow, hrowSound, hroot', hcursor⟩ := walkRow_eq_ok hstep
  rw [hroot] at hrow hroot'
  refine ⟨chained_append.2 ⟨hchain, hrow⟩, forall_mem_concat.2 ⟨hsound, hrowSound⟩, ?_,
    fun x hx => ?_⟩
  · rw [hroot', tip_append]
  · rw [getLast?_concat, some.injEq] at hx
    rw [hcursor, hx]

variable (startId anchored) in
/-- A chain of sound rows is walked over. -/
theorem foldlM_walkRow_ok (hchain : links.Chained w.root rows) (hsound : ∀ row ∈ rows, Sound lib row)
    (hfit : ∀ row ∈ rows, row.1 + 1 < 2 ^ 63) :
    ∃ w', rows.foldlM (lib.walkRow startId anchored) w = .ok w' := by
  have hloop := foldlM_ok (f := lib.walkRow startId anchored) (l := rows) (b := w)
    (I := fun done w' => w'.root = links.tip w.root done) rfl ?_
  · obtain ⟨w', hw', -⟩ := hloop
    exact ⟨w', hw'⟩
  intro done row rest w₁ hrows hroot
  have hmem : row ∈ rows := hrows ▸ by simp
  have hrow : links.Chained w₁.root [row] := by
    rw [hroot]
    rw [hrows, chained_append] at hchain
    exact ⟨hchain.2.1, hchain.2.2.1, trivial⟩
  obtain ⟨w₂, hw₂⟩ : ∃ w₂, lib.walkRow startId anchored w₁ row = .ok w₂ := by
    rw [walkRow, breakKind_of_chained hrow (hsound row hmem)]
    exact ⟨_, if_neg (not_le.2 (hfit row hmem))⟩
  refine ⟨w₂, hw₂, ?_⟩
  obtain ⟨-, -, hroot', -⟩ := walkRow_eq_ok hw₂
  rw [hroot', hroot, tip_append]

/-! ### Pages -/

theorem filter_after {page rest} {c : ℤ} {last : Entry}
    (hsorted : rows.Pairwise fun x y => x.1 < y.1)
    (hrest : rows.filter (fun row => c < row.1) = page ++ rest) (hlast : page.getLast? = some last) :
    rows.filter (fun row => last.1 < row.1) = rest := by
  obtain ⟨page, rfl⟩ := getLast?_eq_some_iff.1 hlast
  have hsorted' : ((page ++ [last]) ++ rest).Pairwise fun x y => x.1 < y.1 :=
    hrest ▸ hsorted.filter _
  obtain ⟨hpage, -, hafter⟩ := pairwise_append.1 hsorted'
  have hc : c < last.1 := by
    have hmem : last ∈ rows.filter fun row => c < row.1 := by simp [hrest]
    simpa using (mem_filter.1 hmem).2
  -- the filter can be applied to the rows after `c`, of which the page goes and the rest stays
  have hsplit : rows.filter (fun row => last.1 < row.1) =
      (rows.filter fun row => c < row.1).filter fun row => last.1 < row.1 := by
    rw [List.filter_filter]
    refine filter_congr fun x _ => ?_
    by_cases hx : last.1 < x.1
    · simp [hx, hc.trans hx]
    · simp [hx]
  rw [hsplit, hrest, filter_append]
  have hgone : (page ++ [last]).filter (fun row => last.1 < row.1) = [] := by
    rw [filter_eq_nil_iff]
    intro x hx
    obtain hx | hx := mem_append.1 hx
    · have hlt := (pairwise_append.1 hpage).2.2 x hx last (by simp)
      simpa using hlt.le
    · simp [mem_singleton.1 hx]
  have hstays : rest.filter (fun row => last.1 < row.1) = rest :=
    filter_eq_self.2 fun x hx => by simpa using hafter last (by simp) x hx
  rw [hgone, hstays, nil_append]

/-- **The pages are the table**: going over them is going over all rows after the cursor. -/
theorem walkPages_eq {fuel : ℕ} (hsorted : rows.Pairwise fun x y => x.1 < y.1)
    (hfuel : (rows.filter fun row => w.cursor < row.1).length < fuel) :
    lib.walkPages rows startId anchored fuel w =
      (rows.filter fun row => w.cursor < row.1).foldlM (lib.walkRow startId anchored) w := by
  induction fuel generalizing w with
  | zero => exact absurd hfuel (Nat.not_lt_zero _)
  | succ fuel ih =>
    set rest := rows.filter fun row => w.cursor < row.1 with hrest
    rw [walkPages, ← hrest]
    have hsplit := take_append_drop verifyPage rest
    by_cases hempty : rest.take verifyPage = []
    · have hnil : rest = [] := by
        rw [take_eq_nil_iff] at hempty
        exact hempty.resolve_left (by decide)
      rw [hnil]
      rfl
    · rw [if_neg hempty]
      conv_rhs => rw [← hsplit, foldlM_append]
      refine bind_congr_ok fun w' hw' => ?_
      by_cases hshort : (rest.take verifyPage).length < verifyPage
      · -- the page was not full, so nothing is left
        have hdrop : rest.drop verifyPage = [] := by
          rw [length_take] at hshort
          exact drop_eq_nil_of_le (by omega)
        rw [if_pos hshort, hdrop]
        rfl
      · rw [if_neg hshort]
        obtain ⟨last, hlast⟩ := isSome_iff_exists.1
          (getLast?_isSome.2 hempty)
        have hcursor : w'.cursor = last.1 := (foldlM_walkRow hw').2.2.2 last hlast
        have hafter : rows.filter (fun row => w'.cursor < row.1) = rest.drop verifyPage := by
          rw [hcursor]
          exact filter_after hsorted (hrest.symm.trans hsplit.symm) hlast
        rw [← hafter]
        refine ih ?_
        rw [hafter, length_drop]
        have hpage : 0 < verifyPage := by decide
        have hlength : 0 < rest.length := by
          refine length_pos_iff.2 fun hnil => hempty ?_
          rw [hnil, take_nil]
        omega

/-! ### What the verifier accepts -/

variable {db : Tables} {expected : Option ChainHead} {report : ChainReport} {head : ChainHead}

/-- The rows after the root. -/
def above (lib : Library Detail) (db : Tables) : List Entry :=
  db.rows.toList.filter fun row => (lib.trustedRoot db).1 < row.1

/-- The walk over a table with rows, from its root. -/
def walkAll (lib : Library Detail) (db : Tables) : Except (Except AuditLogError ChainReport) Walk :=
  (lib.above db).foldlM (lib.walkRow ((lib.trustedRoot db).1 + 1) true)
    ⟨(lib.trustedRoot db).1 + 1, (lib.trustedRoot db).2, 0, none, (lib.trustedRoot db).1⟩

theorem walkPages_all (lib : Library Detail) (db : Tables) :
    lib.walkPages db.rows.toList ((lib.trustedRoot db).1 + 1) true (db.rows.size + 1)
      ⟨(lib.trustedRoot db).1 + 1, (lib.trustedRoot db).2, 0, none, (lib.trustedRoot db).1⟩ =
    lib.walkAll db := by
  refine walkPages_eq db.rows.pairwise_toList (Nat.lt_succ_iff.2 ?_)
  rw [← SortedMap.length_toList]
  exact length_filter_le _ _

theorem walk_all (expected) (maxId : ℤ) (hlow : -2 ^ 63 ≤ (lib.trustedRoot db).1)
    (hhigh : (lib.trustedRoot db).1 + 1 < 2 ^ 63) : lib.walk db .all expected maxId =
      (lib.walkAll db).map (lib.finish db expected ((lib.trustedRoot db).1 + 1) true) := by
  have hstart : lib.start db .all maxId =
      .ok ((lib.trustedRoot db).1 + 1, (lib.trustedRoot db).2, true) := by
    simp only [start, reject, if_neg (not_le.2 hhigh)]
    rfl
  simp only [walk, hstart, bind, Except.bind, add_sub_cancel_right, reject, if_neg (not_lt.2 hlow),
    walkPages_all]
  cases lib.walkAll db <;> rfl

theorem root_of_walk_eq_ok {maxId : ℤ} (h : lib.walk db .all expected maxId = .ok report) :
    -2 ^ 63 ≤ (lib.trustedRoot db).1 ∧ (lib.trustedRoot db).1 + 1 < 2 ^ 63 := by
  obtain ⟨⟨startId, prev, anchored⟩, hstart, h⟩ := bind_eq_ok.1 h
  obtain ⟨_, hhigh, hstart⟩ := bind_eq_ok.1 hstart
  cases hstart
  obtain ⟨_, hlow, -⟩ := bind_eq_ok.1 h
  rw [reject_eq_ok] at hhigh hlow
  omega

/-- The verification ends early with an error or with a break. -/
theorem firstBreak_of_walk_eq_error {maxId : ℤ}
    (h : lib.walk db .all expected maxId = .error (.ok report)) : report.firstBreak ≠ none := by
  obtain h | ⟨⟨startId, prev, anchored⟩, hstart, h⟩ := bind_eq_error.1 h
  · obtain h | ⟨_, -, h⟩ := bind_eq_error.1 h
    · cases (reject_eq_error.1 h).2
    · cases h
  obtain ⟨_, hhigh, hstart⟩ := bind_eq_ok.1 hstart
  cases hstart
  obtain h | ⟨_, -, h⟩ := bind_eq_error.1 h
  · cases (reject_eq_error.1 h).2
  obtain h | ⟨_, -, h⟩ := bind_eq_error.1 h
  · rw [add_sub_cancel_right, walkPages_all, walkAll] at h
    obtain ⟨row, -, w, hrow⟩ := foldlM_error h
    unfold walkRow at hrow
    split at hrow
    · cases hrow
      exact some_ne_none _
    · split_ifs at hrow
      cases hrow
  · cases h

/-- The committed hash is the one at the committed id. -/
theorem finish_firstBreak {startId : ℤ} {w : Walk} :
    (lib.finish db expected startId anchored w).firstBreak = none ↔
      ∀ head ∈ expected, lib.liveHash db head = some head.entryHash := by
  cases expected with
  | none => simp [finish]
  | some head => simp [finish, Option.filter]

/-- **What the verifier accepts**: after the root comes a chain of sound rows, and the committed head
is the hash of its id. -/
theorem intact_of_verifyIn (h : lib.verifyIn db .all expected = .ok report)
    (hbreak : report.firstBreak = none) :
    links.Chained (lib.trustedRoot db) (lib.above db) ∧ (∀ row ∈ lib.above db, Sound lib row) ∧
      ∀ head ∈ expected, (lib.trustedRoot db).1 ≤ head.id ∧
        lib.liveHash db head = some head.entryHash := by
  obtain ⟨_, hexpected, h⟩ := bind_eq_ok.1 h
  have hlow : ∀ head ∈ expected, (lib.trustedRoot db).1 ≤ head.id := by
    rintro head hhead
    cases hhead
    exact not_lt.1 (reject_eq_ok.1 hexpected)
  split at h
  next hempty =>
    cases h
    have hnil : lib.above db = [] := by
      rw [above, getLast?_eq_none_iff.1 hempty, filter_nil]
    rw [hnil]
    refine ⟨trivial, by simp, fun head hhead => ⟨hlow head hhead, ?_⟩⟩
    cases hhead
    simp only [map_eq_none_iff, filter_eq_none_iff] at hbreak
    have hroot := hbreak head rfl
    simp only [Bool.or_eq_true, decide_eq_true_eq, not_or, not_not] at hroot
    rw [liveHash, if_pos hroot.1, hroot.2]
  next maxId r hlast =>
    split at h
    next report' hwalk =>
      cases h
      obtain ⟨hlow', hhigh⟩ := root_of_walk_eq_ok hwalk
      rw [walk_all expected maxId hlow' hhigh] at hwalk
      obtain ⟨w, hw, rfl⟩ := map_eq_ok.1 hwalk
      obtain ⟨hchain, hsound, -, -⟩ := foldlM_walkRow hw
      rw [Walk.root, add_sub_cancel_right] at hchain
      exact ⟨hchain, hsound, fun head hhead =>
        ⟨hlow head hhead, finish_firstBreak.1 hbreak head hhead⟩⟩
    next result hwalk =>
      rw [h] at hwalk
      exact absurd hbreak (firstBreak_of_walk_eq_error hwalk)

/-- The rows of a chain from the root are all after it. -/
theorem above_of_chained (h : links.Chained (lib.trustedRoot db) db.rows.toList) :
    lib.above db = db.rows.toList :=
  filter_eq_self.2 fun _ hrow => decide_eq_true (id_of_mem h hrow).1

/-- A head that is not below the root is looked for. -/
theorem verifyIn_eq (hexpected : ∀ head ∈ expected, (lib.trustedRoot db).1 ≤ head.id) {last : Entry}
    (hlast : db.rows.toList.getLast? = some last) : lib.verifyIn db .all expected =
      match lib.walk db .all expected last.1 with
      | .ok report => .ok report
      | .error result => result := by
  have hpass : (expected.elim (pure ()) fun head => reject (head.id < (lib.trustedRoot db).1)
      (predates head.id (lib.trustedRoot db).1)) = .ok () := by
    cases expected with
    | none => rfl
    | some head => exact reject_eq_ok.2 (not_lt.2 (hexpected head rfl))
  simp only [verifyIn, hpass, bind, Except.bind, hlast]
  rfl

variable (hchain : links.Chained (lib.trustedRoot db) db.rows.toList)
  (hsound : ∀ row ∈ db.rows.toList, Sound lib row) (hlow : 0 ≤ (lib.trustedRoot db).1)
  (hexpected : ∀ head ∈ expected, (lib.trustedRoot db).1 ≤ head.id ∧
    lib.liveHash db head = some head.entryHash)
include hchain hsound hlow hexpected

/-- A table of a chain of sound rows after its root is accepted, unless the last id is in use. -/
theorem verifyIn_of_intact (hfit : ∀ row ∈ db.rows.toList, row.1 + 1 < 2 ^ 63) :
    ∃ report, lib.verifyIn db .all expected = .ok report ∧ report.firstBreak = none := by
  cases hlast : db.rows.toList.getLast? with
  | none =>
    have hnil := getLast?_eq_none_iff.1 hlast
    cases expected with
    | none =>
      simp only [verifyIn, hlast]
      exact ⟨_, rfl, rfl⟩
    | some head =>
      obtain ⟨hhead, hlive⟩ := hexpected head rfl
      have hget : db.rows.get head.id = none := eq_none_iff_forall_ne_some.2 fun r hr => by
        simpa [hnil] using SortedMap.mem_toList.2 hr
      rw [liveHash, hget] at hlive
      split_ifs at hlive with hid
      · refine ⟨⟨0, none, none, true, none⟩, ?_, rfl⟩
        simp only [verifyIn, hlast, Option.elim, reject, if_neg (not_lt.2 hhead)]
        have hnobreak : (decide (head.id ≠ (lib.trustedRoot db).1) ||
            decide (head.entryHash ≠ (lib.trustedRoot db).2)) = false := by
          simp [hid, (some.inj hlive).symm]
        simp only [Option.filter, hnobreak]
        rfl
      · cases hlive
  | some last =>
    have hmem : last ∈ db.rows.toList := mem_of_getLast? hlast
    have hroot := id_of_mem hchain hmem
    have hwalk : ∃ w, lib.walkAll db = .ok w := by
      refine foldlM_walkRow_ok _ _ ?_ ?_ ?_
      · rw [above_of_chained hchain, Walk.root, add_sub_cancel_right]
        exact hchain
      · rwa [above_of_chained hchain]
      · rwa [above_of_chained hchain]
    obtain ⟨w, hw⟩ := hwalk
    have hhigh : (lib.trustedRoot db).1 + 1 < 2 ^ 63 := by
      have hlt : (lib.trustedRoot db).1 < last.1 := hroot.1
      have hlast := hfit last hmem
      omega
    rw [verifyIn_eq (fun head hhead => (hexpected head hhead).1) hlast,
      walk_all expected last.1 (by omega) hhigh, hw]
    exact ⟨_, rfl, finish_firstBreak.2 fun head hhead => (hexpected head hhead).2⟩

/-- After the row with the last id the verifier fails. -/
theorem verifyIn_exhausted {last : Entry} (hlast : db.rows.toList.getLast? = some last)
    (hfull : last.1 + 1 = 2 ^ 63) : lib.verifyIn db .all expected =
      .error (.corrupt "audit log id space exhausted") := by
  obtain ⟨rows, hrows⟩ := getLast?_eq_some_iff.1 hlast
  have hchain' := hchain
  rw [hrows, chained_append] at hchain'
  obtain ⟨hinit, hrow⟩ := hchain'
  have hroot : (lib.trustedRoot db).1 < last.1 :=
    (id_of_mem hchain (mem_of_getLast? hlast)).1
  have hwalk : lib.walkAll db = .error (.error (.corrupt "audit log id space exhausted")) := by
    rw [walkAll, above_of_chained hchain, hrows, foldlM_append]
    have hinit' : links.Chained (Walk.root ⟨(lib.trustedRoot db).1 + 1, (lib.trustedRoot db).2, 0, none,
        (lib.trustedRoot db).1⟩) rows := by
      rw [Walk.root, add_sub_cancel_right]
      exact hinit
    obtain ⟨w, hw⟩ := foldlM_walkRow_ok ((lib.trustedRoot db).1 + 1) true hinit'
      (fun row hrow => hsound row (hrows ▸ mem_append_left _ hrow)) fun row hmem => by
        have hle := (id_of_mem hinit hmem).2
        have hid : last.1 = (links.tip (lib.trustedRoot db) rows).1 + 1 := hrow.1
        have hrowid : links.id row = row.1 := rfl
        omega
    obtain ⟨-, -, hw', -⟩ := foldlM_walkRow hw
    rw [Walk.root, Walk.root, add_sub_cancel_right] at hw'
    rw [hw]
    change lib.walkRow _ _ w last >>= _ = _
    rw [walkRow, breakKind_of_chained _ (hsound last (mem_of_getLast? hlast))]
    · rw [if_pos (by omega)]
      rfl
    · rw [Walk.root, hw']
      exact hrow
  rw [verifyIn_eq (fun head hhead => (hexpected head hhead).1) hlast,
    walk_all expected last.1 (by omega) (by omega), hwalk]
  rfl

end Library

/-! ### What a write does -/

section Writes

variable {db db' : Tables} {pruned appended : List Entry} {row : Entry}

theorem head_eq_tip (lib : Library Detail) (db : Tables) :
    ((lib.head db).id, (lib.head db).entryHash) = links.tip (lib.trustedRoot db) db.rows.toList := by
  unfold Library.head
  split
  next id r hlast =>
    obtain ⟨rows, hrows⟩ := getLast?_eq_some_iff.1 hlast
    rw [hrows, tip_concat]
    rfl
  next hlast =>
    rw [getLast?_eq_none_iff.1 hlast]
    rfl

variable {entry : NewAuditEntry Detail} {run : Run}

theorem appendLocked_eq_ok {occurredAt detail : Text}
    (h : lib.appendLocked db entry occurredAt detail = .ok (db', row)) :
    db' = { db with rows := db.rows.insert row.1 row.2 } ∧
      links.Chained ((lib.head db).id, (lib.head db).entryHash) [row] ∧ Sound lib row ∧
      row.1 < 2 ^ 63 := by
  obtain ⟨_, hfit, h⟩ := bind_eq_ok.1 h
  obtain ⟨db₁, hinsert, h⟩ := bind_eq_ok.1 h
  obtain ⟨_, -, h⟩ := bind_eq_ok.1 h
  obtain ⟨_, -, h⟩ := bind_eq_ok.1 h
  cases h
  obtain ⟨_, -, hinsert⟩ := bind_eq_ok.1 hinsert
  cases hinsert
  rw [reject_eq_ok, not_le] at hfit
  refine ⟨rfl, ⟨rfl, rfl, trivial⟩, ⟨?_, ?_, rfl⟩, hfit⟩
  · simp [AuditActor.parse_asStr]
  · simp [AuditCategory.parse_asStr]

theorem append_eq_ok (h : lib.append db entry = .ok (db', row)) :
    ∃ occurredAt detail, lib.appendLocked db entry occurredAt detail = .ok (db', row) := by
  obtain ⟨occurredAt, -, h⟩ := bind_eq_ok.1 h
  obtain ⟨_, -, h⟩ := bind_eq_ok.1 h
  obtain ⟨_, -, h⟩ := bind_eq_ok.1 h
  obtain ⟨detail, -, h⟩ := bind_eq_ok.1 h
  obtain ⟨_, -, h⟩ := bind_eq_ok.1 h
  exact ⟨occurredAt, detail, h⟩

theorem appendInTransaction_eq_ok (h : lib.appendInTransaction db entry = .ok (db', row)) :
    ∃ occurredAt detail, lib.appendLocked db entry occurredAt detail = .ok (db', row) := by
  obtain ⟨occurredAt, -, h⟩ := bind_eq_ok.1 h
  obtain ⟨detail, -, h⟩ := bind_eq_ok.1 h
  obtain ⟨_, -, h⟩ := bind_eq_ok.1 h
  exact ⟨occurredAt, detail, h⟩

variable {maxRows : Option ℕ} {report : PruneReport} {before : Option DateTime}

variable (lib) in
/-- What a prune leaves: all, or the rows after a row that becomes the anchor. -/
theorem pruneLocked_eq_ok {cutoff} {prunedAt : Text}
    (h : pruneLocked db cutoff maxRows prunedAt = .ok (db', report)) :
    report.keptOutOfOrderRows = (db.rows.toList.getLast?.elim 0 fun last =>
        keptOutOfOrder db.rows.toList last.1 cutoff) ∧
      (db' = db ∧ report.prunedRows = 0 ∧ report.remainingRows = db.rows.size ∨
      ∃ through last, db.rows.get through = some last ∧
        db' = ⟨db.rows.filter fun id _ => through < id, some ⟨through, last.entryHash, prunedAt⟩⟩ ∧
        report.prunedRows = db.rows.size - db'.rows.size ∧
        report.remainingRows = ((lib.head db).id - through).toNat) := by
  unfold pruneLocked at h
  dsimp only at h
  split at h
  next minId _ maxId _ _ hmax =>
    rw [hmax]
    split_ifs at h with hnone
    · cases h
      exact ⟨rfl, .inl ⟨rfl, rfl, rfl⟩⟩
    · obtain ⟨last, hlast, h⟩ := bind_eq_ok.1 h
      obtain ⟨_, -, h⟩ := bind_eq_ok.1 h
      cases h
      refine ⟨rfl, .inr ⟨_, last, okOr_eq_ok.1 hlast, rfl, rfl, ?_⟩⟩
      rw [Library.head, hmax]
  next hempty =>
    cases h
    have hnil : db.rows.toList = [] := by
      cases hrows : db.rows.toList with
      | nil => rfl
      | cons row rows =>
        obtain ⟨last, hlast⟩ := isSome_iff_exists.1 (getLast?_isSome.2 (cons_ne_nil row rows))
        exact (hempty _ _ _ _ (by rw [hrows]; rfl) (hrows ▸ hlast)).elim
    rw [hnil, ← SortedMap.length_toList, hnil]
    exact ⟨rfl, .inl ⟨rfl, rfl, rfl⟩⟩

theorem encodeCutoff_eq_ok {cutoff} (h : lib.encodeCutoff before = .ok cutoff) :
    cutoff = before.bind lib.encodeTime := by
  cases before with
  | none => exact (Except.ok.inj h).symm
  | some t =>
    obtain ⟨text, htext, rfl⟩ := map_eq_ok.1 h
    exact (okOr_eq_ok.1 htext).symm

theorem retentionPrune_eq_ok {now}
    (h : lib.retentionPrune db before maxRows now = .ok (db', report)) :
    ∃ prunedAt, pruneLocked db (before.bind lib.encodeTime) maxRows prunedAt = .ok (db', report) := by
  obtain ⟨_, -, h⟩ := bind_eq_ok.1 h
  obtain ⟨cutoff, hcutoff, h⟩ := bind_eq_ok.1 h
  obtain ⟨prunedAt, -, h⟩ := bind_eq_ok.1 h
  exact ⟨prunedAt, encodeCutoff_eq_ok hcutoff ▸ h⟩

theorem filter_append_filter {rows : List Entry} (h : rows.Pairwise fun x y => x.1 < y.1) (c : ℤ) :
    rows = rows.filter (fun row => ¬c < row.1) ++ rows.filter fun row => c < row.1 := by
  -- Both sides are sorted.
  refine Perm.eq_of_pairwise (fun _ _ _ _ hxy hyx => (lt_asymm hxy hyx).elim) h
    (pairwise_append.2 ⟨h.filter _, h.filter _, fun x hx y hy => ?_⟩) ?_
  · simp only [mem_filter, decide_eq_true_eq] at hx hy
    omega
  · simpa [← decide_not] using (filter_append_perm (fun row : Entry => ¬c < row.1) rows).symm

/-- The rows up to an id end with the row of the id. -/
theorem getLast?_filter_le {rows : List Entry} (h : rows.Pairwise fun x y => x.1 < y.1)
    (hmem : row ∈ rows) : (rows.filter fun x => ¬row.1 < x.1).getLast? = some row := by
  obtain ⟨before, after, rfl⟩ := append_of_mem hmem
  obtain ⟨hbefore, hafter, hcross⟩ := pairwise_append.1 h
  have hstays : before.filter (fun x => ¬row.1 < x.1) = before :=
    filter_eq_self.2 fun x hx => by
      have hlt := hcross x hx row mem_cons_self
      simpa using hlt.le
  have hgone : after.filter (fun x => ¬row.1 < x.1) = [] :=
    filter_eq_nil_iff.2 fun x hx => by simpa using (pairwise_cons.1 hafter).1 x hx
  rw [filter_append, hstays, filter_cons, hgone]
  simp

/-! ### The invariant -/

/-- What has been appended is a chain of sound rows, of which prunes have removed the first part up to
the root and the tables hold the rest. -/
structure Holds (lib : Library Detail) (pruned appended : List Entry) (db : Tables) : Prop where
  chained : links.Chained (0, lib.genesisHash) appended
  sound : ∀ row ∈ appended, Sound lib row
  bound : (links.tip (0, lib.genesisHash) appended).1 < 2 ^ 63
  split : appended = pruned ++ db.rows.toList
  root : lib.trustedRoot db = links.tip (0, lib.genesisHash) pruned

namespace Holds

variable (h : Holds lib pruned appended db)
include h

theorem head_eq : ((lib.head db).id, (lib.head db).entryHash) =
    links.tip (0, lib.genesisHash) appended := by
  rw [head_eq_tip, h.root, h.split, tip_append]

theorem chained_split : links.Chained (0, lib.genesisHash) pruned ∧
    links.Chained (lib.trustedRoot db) db.rows.toList := by
  rw [h.root, ← chained_append, ← h.split]
  exact h.chained

theorem append (hrow : links.Chained ((lib.head db).id, (lib.head db).entryHash) [row])
    (hsound : Sound lib row) (hfit : row.1 < 2 ^ 63) :
    Holds lib pruned (appended ++ [row]) { db with rows := db.rows.insert row.1 row.2 } := by
  rw [h.head_eq] at hrow
  have hafter : ∀ x ∈ db.rows.toList, x.1 < row.1 := by
    intro x hx
    have hle : x.1 ≤ (links.tip (0, lib.genesisHash) appended).1 :=
      (id_of_mem h.chained (h.split ▸ mem_append_right _ hx)).2
    have hid : row.1 = (links.tip (0, lib.genesisHash) appended).1 + 1 := hrow.1
    omega
  refine ⟨chained_append.2 ⟨h.chained, hrow⟩, forall_mem_concat.2 ⟨h.sound, hsound⟩, ?_, ?_, h.root⟩
  · rw [tip_concat]
    exact hfit
  · rw [toList_insert_of_lt row.2 hafter, ← append_assoc, ← h.split]

theorem prune {through : ℤ} {last} {prunedAt : Text} (hlast : db.rows.get through = some last) :
    Holds lib (pruned ++ db.rows.toList.filter fun row => ¬through < row.1) appended
      ⟨db.rows.filter fun id _ => through < id, some ⟨through, last.entryHash, prunedAt⟩⟩ := by
  have hcut := filter_append_filter db.rows.pairwise_toList through
  have htip := getLast?_filter_le db.rows.pairwise_toList (mem_toList.2 hlast)
  refine ⟨h.chained, h.sound, h.bound, ?_, ?_⟩
  · rw [SortedMap.toList_filter, append_assoc, ← hcut]
    exact h.split
  · obtain ⟨rows, hrows⟩ := getLast?_eq_some_iff.1 htip
    rw [hrows, ← append_assoc, tip_concat]
    rfl

end Holds

end Writes

/-- The invariant of runs: the heads that have been current are tips of the chain. -/
structure Intact (lib : Library Detail) (run : Run) : Prop where
  holds : Holds lib run.pruned run.appended run.db
  heads : ∀ head ∈ run.heads, ∃ before, before <+: run.appended ∧
    links.tip (0, lib.genesisHash) before = (head.id, head.entryHash)

namespace Intact

variable {run run' : Run} {db : Tables}

/-- A write is committed, and the head is where the chain has come to. -/
theorem commit (h : Intact lib run) {pruned appended}
    (hholds : Holds lib pruned appended db) (happended : run.appended <+: appended) :
    Intact lib ⟨db, appended, pruned, run.heads ++ [lib.head db]⟩ := by
  refine ⟨hholds, forall_mem_concat.2 ⟨fun head hhead => ?_,
    appended, prefix_refl _, hholds.head_eq.symm⟩⟩
  obtain ⟨before, hbefore, htip⟩ := h.heads head hhead
  exact ⟨before, hbefore.trans happended, htip⟩

theorem holds_appendAll (h : Intact lib run) {entries written}
    (hall : appendAll lib run.db entries = .ok (db, written)) :
    Holds lib run.pruned (run.appended ++ written) db := by
  refine foldlM_invariant (I := fun _ (x : Tables × List Entry) =>
    Holds lib run.pruned (run.appended ++ x.2) x.1) hall ?_ ?_
  · rw [append_nil]
    exact h.holds
  rintro done entry rest ⟨db₁, written₁⟩ ⟨db₂, written₂⟩ - hholds hpass
  obtain ⟨⟨db₃, row⟩, happend, hpass⟩ := bind_eq_ok.1 hpass
  cases hpass
  obtain ⟨occurredAt, detail, happend⟩ := appendInTransaction_eq_ok happend
  obtain ⟨rfl, hrow, hsound, hfit⟩ := appendLocked_eq_ok happend
  rw [← append_assoc]
  exact hholds.append hrow hsound hfit

/-- The rows that a prune has removed come first. -/
theorem holds_prune (h : Intact lib run) {before maxRows now report}
    (hprune : lib.retentionPrune run.db before maxRows now = .ok (db, report)) :
    let removed := run.db.rows.toList.filter fun row => (db.rows.get row.1).isNone
    run.db.rows.toList = removed ++ db.rows.toList ∧
      Holds lib (run.pruned ++ removed) run.appended db := by
  obtain ⟨prunedAt, hprune⟩ := retentionPrune_eq_ok hprune
  obtain ⟨-, ⟨rfl, -⟩ | ⟨through, last, hlast, rfl, -⟩⟩ := pruneLocked_eq_ok lib hprune
  · have hnone : run.db.rows.toList.filter (fun row => (run.db.rows.get row.1).isNone) = [] :=
      filter_eq_nil_iff.2 fun row hrow => by simp [mem_toList.1 hrow]
    simp only [hnone, nil_append, append_nil]
    exact ⟨trivial, h.holds⟩
  · -- the rows that are gone are those up to the new anchor
    have hremoved : run.db.rows.toList.filter (fun row =>
        ((run.db.rows.filter fun id _ => through < id).get row.1).isNone) =
        run.db.rows.toList.filter fun row => ¬through < row.1 := by
      refine filter_congr fun row hrow => ?_
      rw [SortedMap.get_filter, SortedMap.mem_toList.1 hrow]
      by_cases hrow : through < row.1 <;> simp [Option.filter, hrow]
    rw [hremoved, SortedMap.toList_filter]
    exact ⟨filter_append_filter run.db.rows.pairwise_toList through, h.holds.prune hlast⟩

theorem step (h : Intact lib run) (e) : Intact lib (run.step lib e) := by
  cases e with
  | append entry storageFails =>
    rw [Run.step]
    split
    next db row happend =>
      split
      · exact h
      · obtain ⟨occurredAt, detail, happend⟩ := append_eq_ok happend
        obtain ⟨rfl, hrow, hsound, hfit⟩ := appendLocked_eq_ok happend
        exact h.commit (h.holds.append hrow hsound hfit) (prefix_append ..)
    next => exact h
  | transaction entries commits =>
    rw [Run.step]
    split
    next db written hall =>
      split
      · exact h.commit (h.holds_appendAll hall) (prefix_append ..)
      · exact h
    next => exact h
  | retentionPrune before maxRows now storageFails =>
    rw [Run.step]
    split
    next db report hprune =>
      split
      · exact h
      · exact h.commit (h.holds_prune hprune).2 (prefix_refl _)
    next => exact h

end Intact

variable {run : Run}

theorem intact_of_reachable (h : (auditMachine lib).Reachable run) : Intact lib run := by
  refine h.invariant (fun run hinit => ?_) fun run e run' hrun _ hstep => ?_
  · rw [hinit]
    refine ⟨⟨trivial, by simp, by simp, rfl, rfl⟩, fun head hhead => ?_⟩
    rw [mem_singleton.1 hhead]
    exact ⟨[], nil_prefix, rfl⟩
  · cases hstep
    exact hrun.step e

/-- A head that is not below the root has its hash in the tables. -/
theorem Intact.liveHash_eq (h : Intact lib run) {head} (hhead : head ∈ run.heads)
    (hlow : (lib.trustedRoot run.db).1 ≤ head.id) :
    lib.liveHash run.db head = some head.entryHash := by
  obtain ⟨before, hbefore, htip⟩ := h.heads head hhead
  have hchained := h.holds.chained
  obtain ⟨after, hafter⟩ := hbefore
  rw [← hafter, chained_append] at hchained
  have hlength := tip_id_of_chained hchained.1
  have hpruned := tip_id_of_chained h.holds.chained_split.1
  rw [htip] at hlength
  rw [h.holds.root, hpruned] at hlow
  -- the rows up to the head are those that were pruned and then some of the tables
  have htake : run.pruned <+: before := by
    have hpruned' : run.pruned <+: run.appended := ⟨_, h.holds.split.symm⟩
    refine prefix_of_prefix_length_le hpruned' ⟨_, hafter⟩ ?_
    omega
  obtain ⟨rows, rfl⟩ := htake
  rw [tip_append, ← h.holds.root] at htip
  obtain rfl | ⟨rows, row, rfl⟩ := eq_nil_or_concat rows
  · rw [tip_nil] at htip
    rw [liveHash, htip, if_pos rfl]
  rw [concat_eq_append] at htip hafter hchained
  rw [tip_concat, Prod.mk.injEq] at htip
  have hmem : row ∈ run.db.rows.toList := by
    have hsplit := h.holds.split
    rw [← hafter, append_assoc] at hsplit
    have hrows := append_cancel_left hsplit
    rw [← hrows]
    simp
  have hget := mem_toList.1 (show (row.1, row.2) ∈ run.db.rows.toList from hmem)
  have habove : (lib.trustedRoot run.db).1 < row.1 :=
    (id_of_mem h.holds.chained_split.2 hmem).1
  have hid : row.1 = head.id := htip.1
  have hhash : row.2.entryHash = head.entryHash := htip.2
  rw [liveHash, ← hid, if_neg (ne_of_gt habove), hget, map_some, hhash]

/-- The rows are among what has been appended. -/
theorem Intact.rows_sound (h : Intact lib run) :
    ∀ row ∈ run.db.rows.toList, Sound lib row := fun row hrow =>
  h.holds.sound row (h.holds.split ▸ mem_append_right _ hrow)

theorem Intact.root_nonneg (h : Intact lib run) : 0 ≤ (lib.trustedRoot run.db).1 := by
  rw [h.holds.root, tip_id_of_chained h.holds.chained_split.1]
  simp

/-- The verifier finds no break in the tables of a run, but fails once the last id is in use. -/
theorem Intact.verifyIn (h : Intact lib run) {expected}
    (hexpected : ∀ head ∈ expected, head ∈ run.heads ∧ (lib.trustedRoot run.db).1 ≤ head.id) :
    (run.db.rows.get (2 ^ 63 - 1) = none →
      ∃ report, lib.verifyIn run.db .all expected = .ok report ∧ report.firstBreak = none) ∧
    ((run.db.rows.get (2 ^ 63 - 1)).isSome → lib.verifyIn run.db .all expected =
      .error (.corrupt "audit log id space exhausted")) := by
  have hchained := h.holds.chained_split.2
  have hlive : ∀ head ∈ expected, (lib.trustedRoot run.db).1 ≤ head.id ∧
      lib.liveHash run.db head = some head.entryHash := fun head hhead =>
    ⟨(hexpected head hhead).2, h.liveHash_eq (hexpected head hhead).1 (hexpected head hhead).2⟩
  have hbound : ∀ row ∈ run.db.rows.toList, row.1 < 2 ^ 63 := fun row hrow =>
    lt_of_le_of_lt (id_of_mem h.holds.chained (h.holds.split ▸ mem_append_right _ hrow)).2
      h.holds.bound
  refine ⟨fun hfree => ?_, fun hused => ?_⟩
  · refine verifyIn_of_intact hchained h.rows_sound h.root_nonneg hlive fun row hrow => ?_
    have hne : row.1 ≠ 2 ^ 63 - 1 := fun hid => by
      cases hfree.symm.trans (hid ▸ mem_toList.1 (show (row.1, row.2) ∈ _ from hrow))
    have := hbound row hrow
    omega
  · -- the ids go up to that of the last row
    obtain ⟨r, hget⟩ := isSome_iff_exists.1 hused
    have hmem := SortedMap.mem_toList.2 hget
    obtain ⟨last, hlast⟩ := isSome_iff_exists.1 (getLast?_isSome.2 (ne_nil_of_mem hmem))
    obtain ⟨rows, hrows⟩ := getLast?_eq_some_iff.1 hlast
    have hle := (id_of_mem hchained hmem).2
    rw [hrows, tip_concat] at hle
    have hle : 2 ^ 63 - 1 ≤ last.1 := hle
    have := hbound last (mem_of_getLast? hlast)
    exact verifyIn_exhausted hchained h.rows_sound h.root_nonneg hlive hlast (by omega)

/-- **The chain stays intact.**  After any appends, transactions and prunes the rows have consecutive
ids after the root, and are what has been appended without what has been pruned.  A prune removes the
first rows.  The verifier finds no break, also against every head that has been current and is not
below the root, until the last id is in use; then every such call fails. -/
theorem chain_intact {run : Run} (h : (auditMachine lib).Reachable run) :
    run.db.rows.toList.map Prod.fst = (List.range run.db.rows.size).map
      (fun i : ℕ => (lib.trustedRoot run.db).1 + 1 + (i : ℤ)) ∧
    run.appended = run.pruned ++ run.db.rows.toList ∧
    (∀ before maxRows now storageFails, ∃ removed,
      run.db.rows.toList = removed ++
        (run.step lib (.retentionPrune before maxRows now storageFails)).db.rows.toList ∧
      (run.step lib (.retentionPrune before maxRows now storageFails)).pruned =
        run.pruned ++ removed) ∧
    ∀ expected : Option ChainHead,
      (∀ head ∈ expected, head ∈ run.heads ∧ (lib.trustedRoot run.db).1 ≤ head.id) →
      (run.db.rows.get (2 ^ 63 - 1) = none →
        ∃ report, lib.verifyIn run.db .all expected = .ok report ∧ report.firstBreak = none) ∧
      ((run.db.rows.get (2 ^ 63 - 1)).isSome → lib.verifyIn run.db .all expected =
        .error (.corrupt "audit log id space exhausted")) := by
  have hintact := intact_of_reachable h
  have hholds := hintact.holds
  have hchained := hholds.chained_split.2
  refine ⟨?_, hholds.split, fun before maxRows now storageFails => ?_, fun expected hexpected => ?_⟩
  · rw [← SortedMap.length_toList]
    exact ids_of_chained hchained
  · rw [Run.step]
    cases hprune : lib.retentionPrune run.db before maxRows now with
    | error => exact ⟨[], rfl, (append_nil _).symm⟩
    | ok result =>
      obtain ⟨db, report⟩ := result
      cases storageFails with
      | true => exact ⟨[], rfl, (append_nil _).symm⟩
      | false => exact ⟨_, (hintact.holds_prune hprune).1, rfl⟩
  · exact hintact.verifyIn hexpected

/-! ### Sample runs -/

/-- Hashes of 32 bytes, one text for all times and for all details. -/
def sampleLibrary : Library Unit where
  sha256 bytes :=
    let h := bytes.foldl (fun h b => (31 * h + b.toNat) % 2 ^ 64) 7
    be64 h ++ be64 h ++ be64 h ++ be64 h
  length_sha256 _ := rfl
  rfc3339 _ := ⟨"1970-01-01T00:00:00.000000000Z", by decide⟩
  parseRfc3339 _ := some ⟨0, by decide, by decide⟩
  toJson _ := some ⟨"null", by decide⟩
  isJson _ := true
  jsonValid _ := true

def sampleEntry : NewAuditEntry Unit where
  occurredAt := ⟨0, by decide, by decide⟩
  actor := .owner
  category := .approval
  action := ⟨"approve", by decide⟩
  subject := none
  detail := ()

/-- Three entries, one that is rolled back, and a prune that leaves one of them. -/
def prunedRun : List (AuditEvent Unit) :=
  [.append sampleEntry false, .transaction [sampleEntry, sampleEntry] true,
    .transaction [sampleEntry] false, .retentionPrune none (some 1) ⟨0, by decide, by decide⟩ false]

/-- The run before any event. -/
def emptyRun : Run := ⟨⟨∅, none⟩, [], [], [sampleLibrary.head ⟨∅, none⟩]⟩

theorem prunedRun_intact : ∃ run, (auditMachine sampleLibrary).exec emptyRun prunedRun = some run ∧
    run.appended.length = 3 ∧ run.db.rows.toList.map Prod.fst = [3] ∧
    run.appended = run.pruned ++ run.db.rows.toList ∧
    ∀ head ∈ run.heads, (sampleLibrary.trustedRoot run.db).1 ≤ head.id →
      ∃ report, sampleLibrary.verifyIn run.db .all (some head) = .ok report ∧
        report.firstBreak = none := by
  obtain ⟨run, hexec, happended, hrows, hlast⟩ :
      ∃ run, (auditMachine sampleLibrary).exec emptyRun prunedRun = some run ∧
        run.appended.length = 3 ∧ run.db.rows.toList.map Prod.fst = [3] ∧
        run.db.rows.get (2 ^ 63 - 1) = none := by decide +kernel
  obtain ⟨-, hsplit, -, hverify⟩ := chain_intact (.exec (.start rfl) hexec)
  refine ⟨run, hexec, happended, hrows, hsplit, fun head hhead hlow => ?_⟩
  exact (hverify (some head) fun x hx => by cases hx; exact ⟨hhead, hlow⟩).1 hlast

theorem isHex_digitChar : ∀ n < 16, ('0' ≤ Nat.digitChar n && Nat.digitChar n ≤ '9' ||
    'a' ≤ Nat.digitChar n && Nat.digitChar n ≤ 'f') = true := by
  decide

theorem isHash_digest (lib : Library Detail) (bytes) : isHash (lib.digest bytes) = true := by
  have hlength : ∀ bytes : List UInt8, (hexEncode bytes).toList.length = 2 * bytes.length := by
    intro bytes
    simp [hexEncode, length_flatMap, mul_comm]
  have hhex : ∀ c ∈ (hexEncode (lib.sha256 bytes)).toList,
      ('0' ≤ c && c ≤ '9' || 'a' ≤ c && c ≤ 'f') = true := by
    intro c hc
    rw [hexEncode, String.toList_ofList, mem_flatMap] at hc
    obtain ⟨b, -, hc⟩ := hc
    have hb : b.toNat < 256 := b.toNat_lt
    simp only [mem_cons, not_mem_nil, or_false] at hc
    obtain rfl | rfl := hc
    · exact isHex_digitChar _ (by omega)
    · exact isHex_digitChar _ (by omega)
  rw [isHash, Bool.and_eq_true, decide_eq_true_eq, List.all_eq_true]
  refine ⟨?_, hhex⟩
  rw [← String.length_toList]
  exact (hlength _).trans (by rw [lib.length_sha256])

/-- The tables without rows, pruned through some id. -/
def IsPrunedThrough (db : Tables) (n : ℤ) : Prop :=
  db.rows = ∅ ∧ (sampleLibrary.trustedRoot db).1 = n ∧
    isHash (sampleLibrary.trustedRoot db).2 = true

/-- The row that continues from a hash. -/
def sampleRow (id : ℤ) (prev : Text) : Fields :=
  let unhashed : Fields := ⟨⟨"1970-01-01T00:00:00.000000000Z", by decide⟩, AuditActor.owner.asStr,
    AuditCategory.approval.asStr, ⟨"approve", by decide⟩, none, ⟨"null", by decide⟩, prev, prev⟩
  { unhashed with entryHash := sampleLibrary.computeEntryHash id unhashed }

variable {db : Tables}

theorem insertRow_sampleRow {n : ℤ} {prev : Text} (hrows : db.rows = ∅) (hn : 0 ≤ n)
    (hprev : isHash prev = true) :
    sampleLibrary.insertRow db (n + 1) (sampleRow (n + 1) prev) =
      .ok { db with rows := db.rows.insert (n + 1) (sampleRow (n + 1) prev) } := by
  have hpos : 1 ≤ n + 1 := by omega
  have hchecks : sampleLibrary.rowChecks (n + 1) (sampleRow (n + 1) prev) = true := by
    have hentry : isHash (sampleRow (n + 1) prev).entryHash = true := isHash_digest ..
    have hprev' : isHash (sampleRow (n + 1) prev).prevHash = true := hprev
    -- the other columns are fixed
    have hfixed : sampleLibrary.rowChecks 1 (sampleRow 1 sampleLibrary.genesisHash) = true := by
      decide +kernel
    rw [rowChecks, Bool.and_eq_true, Bool.and_eq_true] at hfixed ⊢
    refine ⟨⟨?_, hprev'⟩, hentry⟩
    simp only [decide_eq_true hpos]
    exact hfixed.1.1
  refine bind_eq_ok.2 ⟨(), reject_eq_ok.2 ?_, rfl⟩
  simp [hchecks, hrows]

theorem append_of_isPrunedThrough {n : ℤ} (h : IsPrunedThrough db n) (hn : 0 ≤ n)
    (hfit : n + 1 < 2 ^ 63) : sampleLibrary.append db sampleEntry =
      .ok ({ db with rows := db.rows.insert (n + 1) (sampleRow (n + 1) (sampleLibrary.trustedRoot db).2) },
        n + 1, sampleRow (n + 1) (sampleLibrary.trustedRoot db).2) := by
  obtain ⟨hrows, hid, hhash⟩ := h
  have hhead : sampleLibrary.head db = ⟨n, (sampleLibrary.trustedRoot db).2⟩ := by
    simp [Library.head, hrows, hid]
  change sampleLibrary.appendLocked db sampleEntry _ _ = _
  rw [appendLocked, hhead]
  refine bind_eq_ok.2 ⟨(), reject_eq_ok.2 (not_le.2 hfit), ?_⟩
  exact bind_eq_ok.2 ⟨_, insertRow_sampleRow hrows hn hhash, rfl⟩

theorem prune_of_single {n : ℤ} {r} (hrows : db.rows = (∅ : SortedMap ℤ Fields))
    (hn : 0 ≤ n) (hhash : isHash r.entryHash = true) :
    ∃ db' report, sampleLibrary.retentionPrune { db with rows := db.rows.insert (n + 1) r } none
      (some 0) sampleEntry.occurredAt = .ok (db', report) ∧ IsPrunedThrough db' (n + 1) := by
  have hlist : (db.rows.insert (n + 1) r).toList = [(n + 1, r)] := by
    rw [hrows, toList_insert_of_lt r (by simp), toList_empty, nil_append]
  have hthrough : pruneThrough [(n + 1, r)] (n + 1) (n + 1) none (some 0) = n + 1 := by
    simp only [pruneThrough, Option.elim, saturatingSub]
    omega
  have hempty : (db.rows.insert (n + 1) r).filter (fun id _ => n + 1 < id) = ∅ := by
    refine SortedMap.ext fun id => ?_
    rw [SortedMap.get_filter, SortedMap.get_insert, hrows, SortedMap.get_empty]
    split_ifs with hid
    · simp [Option.filter, hid]
    · rfl
  have hlocked : pruneLocked { db with rows := db.rows.insert (n + 1) r } none (some 0)
      ⟨"1970-01-01T00:00:00.000000000Z", by decide⟩ =
      .ok (⟨∅, some ⟨n + 1, r.entryHash, ⟨"1970-01-01T00:00:00.000000000Z", by decide⟩⟩⟩,
        ⟨(db.rows.insert (n + 1) r).size - (∅ : SortedMap ℤ Fields).size, 0, some (n + 1),
          some r.entryHash, 0⟩) := by
    simp only [pruneLocked, hlist, head?_cons, getLast?_singleton, hthrough,
      lt_irrefl, if_false, get_insert_self, hempty, sub_self]
    refine bind_eq_ok.2 ⟨r, rfl, bind_eq_ok.2 ⟨(), reject_eq_ok.2 ?_, rfl⟩⟩
    rw [hhash]
    simp only [Bool.true_eq_false, false_or, not_or, not_lt]
    exact ⟨by omega, by decide, by decide⟩
  exact ⟨_, _, hlocked, rfl, rfl, hhash⟩

theorem reachable_isPrunedThrough (n : ℕ) (hn : n < 2 ^ 63) :
    ∃ run, (auditMachine sampleLibrary).Reachable run ∧ IsPrunedThrough run.db n := by
  induction n with
  | zero => exact ⟨emptyRun, .start rfl, rfl, rfl, isHash_digest ..⟩
  | succ n ih =>
    obtain ⟨run, hreachable, hpruned⟩ := ih (by omega)
    have happend := append_of_isPrunedThrough hpruned (by omega) (by omega)
    obtain ⟨db', report, hprune, hpruned'⟩ := prune_of_single
      (r := sampleRow (n + 1) (sampleLibrary.trustedRoot run.db).2) hpruned.1
      (Int.natCast_nonneg n) (isHash_digest sampleLibrary _)
    have hrun := hreachable.next (e := .append sampleEntry false) rfl
    rw [Run.step, happend] at hrun
    change (auditMachine _).Reachable (run.commit _ _ [_]) at hrun
    have hrun' := hrun.next (e := .retentionPrune none (some 0) sampleEntry.occurredAt false) rfl
    rw [Run.step, Run.commit, hprune] at hrun'
    exact ⟨_, hrun', hpruned'⟩

/-- The last id is given, and then the log cannot be verified. -/
theorem lastId_not_verified : ∃ run, (auditMachine sampleLibrary).Reachable run ∧
    run.db.rows.toList.map Prod.fst = [2 ^ 63 - 1] ∧
    sampleLibrary.verifyIn run.db .all none = .error (.corrupt "audit log id space exhausted") := by
  obtain ⟨run, hreachable, hpruned⟩ := reachable_isPrunedThrough (2 ^ 63 - 2) (by decide)
  have hcast : ((2 ^ 63 - 2 : ℕ) : ℤ) = 2 ^ 63 - 2 := by decide
  rw [hcast] at hpruned
  have happend := append_of_isPrunedThrough hpruned (by decide) (by decide)
  have hrun := hreachable.next (e := .append sampleEntry false) rfl
  rw [Run.step, happend] at hrun
  have hintact := intact_of_reachable hrun
  have hrows : (run.db.rows.insert (2 ^ 63 - 2 + 1) (sampleRow (2 ^ 63 - 2 + 1)
      (sampleLibrary.trustedRoot run.db).2)).toList = [(2 ^ 63 - 2 + 1, sampleRow (2 ^ 63 - 2 + 1)
        (sampleLibrary.trustedRoot run.db).2)] := by
    rw [hpruned.1, toList_insert_of_lt _ (by simp), toList_empty, nil_append]
  refine ⟨_, hrun, congrArg (map Prod.fst) hrows, ?_⟩
  exact verifyIn_exhausted hintact.holds.chained_split.2 hintact.rows_sound
    hintact.root_nonneg (nofun) (congrArg getLast? hrows) rfl

end NeonHearth.Audit
