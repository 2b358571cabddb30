import NeonHearth.Audit.Integrity

/-!
# Changes to the tables are found

A head of the log commits to all that came before it.  Whatever has been done to the tables since, the
anchor included, if the verifier accepts them against the head then every row between the anchor and
the head is the one that was appended (`row_of_verified`).

* `encodeEntry_inj` : what is hashed gives back the fields, as every text is written after its length
  and an optional one after a byte for its presence;
* `eq_of_hash_eq`, `hash_ne_genesisHash` : so the hash gives back the row, and no row has the hash that
  the chain starts from, if SHA-256 has no collision.
-/

namespace NeonHearth.Audit

open List Links SortedMap

/-! ### The encoding -/

@[simp]
theorem length_be64 (n : ℕ) : (be64 n).length = 8 := by simp [be64]

/-- The number that eight bytes stand for. -/
theorem foldl_be64 (n : ℕ) : (be64 n).foldl (fun acc b => acc * 256 + b.toNat) 0 = n % 2 ^ 64 := by
  simp only [be64, range, range.loop, map, foldl, UInt8.toNat_ofNat']
  omega

theorem be64_inj {m n : ℕ} (hm : m < 2 ^ 64) (hn : n < 2 ^ 64) (h : be64 m = be64 n) : m = n := by
  have hvalue := congrArg (foldl (fun acc (b : UInt8) => acc * 256 + b.toNat) 0) h
  rwa [foldl_be64, foldl_be64, Nat.mod_eq_of_lt hm, Nat.mod_eq_of_lt hn] at hvalue

variable {x y : List UInt8}

/-- A text after its length is read back. -/
theorem hashStr_append_inj {s t : Text} (h : hashStr s ++ x = hashStr t ++ y) : s = t ∧ x = y := by
  have hlength : ∀ s : Text, s.bytes.length < 2 ^ 64 := fun s => by
    have hs := s.2
    rw [← String.size_toByteArray] at hs
    exact lt_trans hs (by decide)
  rw [hashStr, hashStr, hashBytes, hashBytes, append_assoc, append_assoc] at h
  obtain ⟨hsize, h⟩ := append_inj h (by simp)
  obtain ⟨hbytes, hrest⟩ := append_inj h (be64_inj (hlength s) (hlength t) hsize)
  refine ⟨Subtype.ext (String.toByteArray_inj.1 ?_), hrest⟩
  exact ByteArray.ext (Array.toList_inj.1 hbytes)

/-- So is an optional one after its presence. -/
theorem hashSubject_append_inj {s t} (h : hashSubject s ++ x = hashSubject t ++ y) :
    s = t ∧ x = y := by
  cases s with
  | none =>
    cases t with
    | none => exact ⟨rfl, (cons.inj h).2⟩
    | some t => exact absurd (cons.inj h).1 (by decide)
  | some s =>
    cases t with
    | none => exact absurd (cons.inj h).1 (by decide)
    | some t =>
      obtain ⟨rfl, hrest⟩ := hashStr_append_inj (cons.inj h).2
      exact ⟨rfl, hrest⟩

/-- **What is hashed gives back the fields**, except the hash itself. -/
theorem encodeEntry_inj {i j : ℤ} {r r'} (h : encodeEntry i r = encodeEntry j r')
    (hhash : r.entryHash = r'.entryHash) : r = r' := by
  obtain ⟨-, h⟩ := append_inj h rfl
  obtain ⟨-, h⟩ := append_inj h (by simp)
  obtain ⟨hoccurredAt, h⟩ := hashStr_append_inj h
  obtain ⟨hactor, h⟩ := hashStr_append_inj h
  obtain ⟨hcategory, h⟩ := hashStr_append_inj h
  obtain ⟨haction, h⟩ := hashStr_append_inj h
  obtain ⟨hsubject, h⟩ := hashSubject_append_inj h
  obtain ⟨hdetail, h⟩ := hashStr_append_inj h
  have hprevHash : r.prevHash = r'.prevHash :=
    (hashStr_append_inj (x := []) (y := []) (by rw [h])).1
  cases r
  cases r'
  simp only at hoccurredAt hactor hcategory haction hsubject hdetail hprevHash hhash
  simp [hoccurredAt, hactor, hcategory, haction, hsubject, hdetail, hprevHash, hhash]

/-- The encoding of a row starts with a zero byte, which is not a letter. -/
theorem encodeEntry_ne_genesisDomain (i : ℤ) (r : Fields) : encodeEntry i r ≠ genesisDomain := by
  have hentry : (encodeEntry i r).head? = some 0 := rfl
  have hgenesis : genesisDomain.head? = some 110 := by decide +kernel
  intro h
  rw [h, hgenesis] at hentry
  cases hentry

/-! ### The hashes -/

theorem digitChar_inj : ∀ m < 16, ∀ n < 16, Nat.digitChar m = Nat.digitChar n → m = n := by decide

theorem hexEncode_inj (h : hexEncode x = hexEncode y) : x = y := by
  rw [hexEncode, hexEncode, String.ofList_inj] at h
  induction x generalizing y with
  | nil =>
    cases y with
    | nil => rfl
    | cons c y => cases h
  | cons b x ih =>
    cases y with
    | nil => cases h
    | cons c y =>
      simp only [flatMap_cons, cons_append, nil_append, cons.injEq] at h
      obtain ⟨hhigh, hlow, hrest⟩ := h
      have hb : b.toNat < 256 := b.toNat_lt
      have hc : c.toNat < 256 := c.toNat_lt
      have hhigh := digitChar_inj _ (by omega) _ (by omega) hhigh
      have hlow := digitChar_inj _ (by omega) _ (by omega) hlow
      rw [ih hrest, UInt8.toNat_inj.1 (show b.toNat = c.toNat by omega)]

variable {Detail : Type} {lib : Library Detail}

theorem sha256_of_digest_eq (h : lib.digest x = lib.digest y) : lib.sha256 x = lib.sha256 y :=
  hexEncode_inj (congrArg Subtype.val h)

/-- The inputs of SHA-256 in a log and in tables that are said to continue it. -/
def hashedInputs (lib : Library Detail) (run : Run) (db : Tables) : List (List UInt8) :=
  genesisDomain :: (run.appended ++ lib.above db).map fun row => encodeEntry row.1 row.2

section Collisions

variable {run : Run} {db : Tables} {row row' : Entry}
  (hinj : Set.InjOn lib.sha256 {x | x ∈ hashedInputs lib run db})
include hinj

theorem eq_of_hash_eq (hrow : row ∈ run.appended ++ lib.above db)
    (hrow' : row' ∈ run.appended ++ lib.above db) (hsound : Sound lib row) (hsound' : Sound lib row')
    (hid : row.1 = row'.1) (hhash : row.2.entryHash = row'.2.entryHash) : row = row' := by
  have hdigest : lib.computeEntryHash row.1 row.2 = lib.computeEntryHash row'.1 row'.2 := by
    rw [hsound.hash, hsound'.hash, hhash]
  have hinput : ∀ x ∈ run.appended ++ lib.above db,
      encodeEntry x.1 x.2 ∈ hashedInputs lib run db := fun x hx =>
    mem_cons_of_mem _ (mem_map_of_mem hx)
  have hencode := hinj (hinput row hrow) (hinput row' hrow') (sha256_of_digest_eq hdigest)
  exact Prod.ext hid (encodeEntry_inj hencode hhash)

theorem hash_ne_genesisHash (hrow : row ∈ run.appended ++ lib.above db) (hsound : Sound lib row) :
    row.2.entryHash ≠ lib.genesisHash := by
  intro h
  rw [← hsound.hash] at h
  exact encodeEntry_ne_genesisDomain row.1 row.2 (hinj
    (mem_cons_of_mem _ (mem_map_of_mem hrow)) mem_cons_self
    (sha256_of_digest_eq h))

end Collisions

/-- The rows up to the committed head come to the head. -/
theorem exists_rows_to_head {db head}
    (hlow : (lib.trustedRoot db).1 < head.id) (hlive : lib.liveHash db head = some head.entryHash) :
    ∃ rows, rows <+: lib.above db ∧ links.tip (lib.trustedRoot db) rows = (head.id, head.entryHash) := by
  rw [Library.liveHash, if_neg (ne_of_gt hlow), Option.map_eq_some_iff] at hlive
  obtain ⟨r, hget, hhash⟩ := hlive
  have hmem : (head.id, r) ∈ lib.above db :=
    mem_filter.2 ⟨mem_toList.2 hget, decide_eq_true hlow⟩
  obtain ⟨before, after, habove⟩ := append_of_mem hmem
  refine ⟨before ++ [(head.id, r)], ⟨after, by simp [habove]⟩, ?_⟩
  rw [tip_concat]
  exact Prod.ext rfl hhash

/-- **A head commits to the log.**  Let a head have been current in a run, and let the verifier accept
any tables against it.  Then every id above the anchor of the tables and up to the head has there the
row that was appended with the id. -/
theorem row_of_verified {run : Run} {head : ChainHead} {db : Tables} {report : ChainReport}
    (h : (auditMachine lib).Reachable run) (hhead : head ∈ run.heads)
    (hinj : Set.InjOn lib.sha256 {x | x ∈ hashedInputs lib run db})
    (hverify : lib.verifyIn db .all (some head) = .ok report) (hbreak : report.firstBreak = none)
    {i : ℤ} (hlow : (lib.trustedRoot db).1 < i) (hhigh : i ≤ head.id) :
    ∃ r, db.rows.get i = some r ∧ ∀ r', (i, r') ∈ run.appended ↔ r' = r := by
  have hintact := intact_of_reachable h
  obtain ⟨original, horiginal, htip⟩ := hintact.heads head hhead
  obtain ⟨hchain, hsound, hlive⟩ := Library.intact_of_verifyIn hverify hbreak
  obtain ⟨rows, hrows, htip'⟩ := exists_rows_to_head (hlow.trans_le hhigh) (hlive head rfl).2
  have horiginalChained : links.Chained (0, lib.genesisHash) original := by
    obtain ⟨after, hafter⟩ := horiginal
    exact (chained_append.1 (hafter ▸ hintact.holds.chained)).1
  have hrowsChained : links.Chained (lib.trustedRoot db) rows := by
    obtain ⟨after, hafter⟩ := hrows
    exact (chained_append.1 (hafter ▸ hchain)).1
  have heq : ∀ a ∈ original, ∀ b ∈ rows, a.1 = b.1 → a.2.entryHash = b.2.entryHash → a = b :=
    fun a ha b hb => eq_of_hash_eq hinj (mem_append_left _ (horiginal.subset ha))
      (mem_append_right _ (hrows.subset hb)) (hintact.holds.sound a (horiginal.subset ha))
      (hsound b (hrows.subset hb))
  -- one of the chains is the end of the other
  have hsuffix : ∀ row ∈ rows, row ∈ run.appended := by
    obtain hshort | hlong := le_or_gt rows.length original.length
    · obtain ⟨before, hbefore, -⟩ := suffix_of_tip_eq hrowsChained horiginalChained
        (htip'.trans htip.symm) (fun a ha b hb hid hhash => (heq b hb a ha hid.symm hhash.symm).symm)
        hshort
      exact fun row hrow => horiginal.subset (hbefore ▸ mem_append_right _ hrow)
    · -- a longer one would have a row with the hash that the chain starts from
      obtain ⟨before, hbefore, hroot⟩ := suffix_of_tip_eq horiginalChained hrowsChained
        (htip.trans htip'.symm) heq hlong.le
      obtain rfl | ⟨before, last, rfl⟩ := eq_nil_or_concat before
      · rw [hbefore] at hlong
        simp at hlong
      · rw [concat_eq_append] at hbefore hroot
        rw [tip_concat, Prod.mk.injEq] at hroot
        have hlast : last ∈ lib.above db := hrows.subset (hbefore ▸ by simp)
        exact absurd hroot.2 (hash_ne_genesisHash hinj (mem_append_right _ hlast)
          (hsound last hlast))
  obtain ⟨row, hrow, hid⟩ := exists_mem_of_le hrowsChained hlow (htip' ▸ hhigh)
  obtain rfl : row.1 = i := hid
  have hget : db.rows.get row.1 = some row.2 :=
    mem_toList.1 (mem_filter.1 (hrows.subset hrow)).1
  refine ⟨row.2, hget, fun r' => ⟨fun hr' => ?_, fun hr' => hr' ▸ hsuffix row hrow⟩⟩
  exact congrArg Prod.snd (eq_of_id_eq hintact.holds.chained hr' (hsuffix row hrow) rfl)

/-- The time of the last prune is not covered by a hash. -/
def backdate (db : Tables) : Tables :=
  { db with anchor := db.anchor.map fun a => { a with prunedAt := ⟨"", by decide⟩ } }

theorem backdate_row : ∃ run, (auditMachine sampleLibrary).exec emptyRun prunedRun = some run ∧
    (backdate run.db).anchor ≠ run.db.anchor ∧
      ∃ r, (backdate run.db).rows.get 3 = some r ∧ (3, r) ∈ run.appended := by
  obtain ⟨run, hexec, hchanged, hhead, hlow, hhigh, hpairs, report, hverify, hbreak⟩ :
      ∃ run, (auditMachine sampleLibrary).exec emptyRun prunedRun = some run ∧
        (backdate run.db).anchor ≠ run.db.anchor ∧ sampleLibrary.head run.db ∈ run.heads ∧
        (sampleLibrary.trustedRoot (backdate run.db)).1 < 3 ∧ 3 ≤ (sampleLibrary.head run.db).id ∧
        (∀ x ∈ hashedInputs sampleLibrary run (backdate run.db),
          ∀ y ∈ hashedInputs sampleLibrary run (backdate run.db),
            sampleLibrary.sha256 x = sampleLibrary.sha256 y → x = y) ∧
        ∃ report, sampleLibrary.verifyIn (backdate run.db) .all
          (some (sampleLibrary.head run.db)) = .ok report ∧ report.firstBreak = none := by
    decide +kernel
  obtain ⟨r, hget, happended⟩ := row_of_verified (.exec (.start rfl) hexec) hhead
    (fun x hx y hy => hpairs x hx y hy) hverify hbreak hlow hhigh
  exact ⟨run, hexec, hchanged, r, hget, (happended r).2 rfl⟩

end NeonHearth.Audit
