import NeonHearth.Data.HashChain
import NeonHearth.Data.SortedMap
import NeonHearth.System.Machine
import NeonHearth.Time.DateTime

/-!
# The audit log

Every entry of the audit log carries a hash of its fields and of the hash of the entry before it
(`audit_log.rs` of the store).  Appends continue from the last row, or from the anchor when a prune has
left no row.  A prune removes the oldest rows and moves the anchor.  The verifier walks over the table
in pages and recomputes every hash.

* `auditMachine` : the tables under any appends and prunes, with what has been appended and pruned.

SHA-256, JSON and the text of a time are parameters (`Library`).  The tables are maps from ids to rows,
so the queries of the source are lookups and listings by ascending id.
-/

namespace NeonHearth.Audit

/-- A text that fits into memory. -/
abbrev Text := { s : String // s.utf8ByteSize < 2 ^ 63 }

def Text.bytes (t : Text) : List UInt8 := t.1.toByteArray.data.toList

inductive AuditActor where
  | owner
  | service
  | module'
  deriving DecidableEq

namespace AuditActor

def asStr : AuditActor → Text
  | .owner => ⟨"owner", by decide⟩
  | .service => ⟨"service", by decide⟩
  | .module' => ⟨"module", by decide⟩

def parse (value : Text) : Option AuditActor :=
  if value.1 = "owner" then some .owner
  else if value.1 = "service" then some .service
  else if value.1 = "module" then some .module'
  else none

theorem parse_asStr (a) : parse a.asStr = some a := by
  cases a <;> decide

end AuditActor

inductive AuditCategory where
  | approval
  | scan
  | enforcement
  | doctorAction
  | auditModule
  deriving DecidableEq

namespace AuditCategory

def asStr : AuditCategory → Text
  | .approval => ⟨"approval", by decide⟩
  | .scan => ⟨"scan", by decide⟩
  | .enforcement => ⟨"enforcement", by decide⟩
  | .doctorAction => ⟨"doctor_action", by decide⟩
  | .auditModule => ⟨"audit_module", by decide⟩

def parse (value : Text) : Option AuditCategory :=
  if value.1 = "approval" then some .approval
  else if value.1 = "scan" then some .scan
  else if value.1 = "enforcement" then some .enforcement
  else if value.1 = "doctor_action" then some .doctorAction
  else if value.1 = "audit_module" then some .auditModule
  else none

theorem parse_asStr (c) : parse c.asStr = some c := by
  cases c <;> decide

end AuditCategory

structure NewAuditEntry (Detail : Type) where
  occurredAt : DateTime
  actor : AuditActor
  category : AuditCategory
  action : Text
  subject : Option Text
  detail : Detail

/-- The columns of a row other than its id. -/
structure Fields where
  occurredAt : Text
  actor : Text
  category : Text
  action : Text
  subject : Option Text
  detail : Text
  prevHash : Text
  entryHash : Text

/-- A row with its id. -/
abbrev Entry := ℤ × Fields

inductive ChainScope where
  | all
  | tail (n : ℕ)

inductive ChainBreakKind where
  | idGap
  | prevHashMismatch
  | entryHashMismatch
  | invalidRow
  | headMismatch

structure ChainHead where
  id : ℤ
  entryHash : Text
  deriving DecidableEq

structure ChainBreak where
  id : ℤ
  kind : ChainBreakKind

structure ChainReport where
  checked : ℕ
  startId : Option ℤ
  endId : Option ℤ
  anchored : Bool
  firstBreak : Option ChainBreak

structure PruneReport where
  prunedRows : ℕ
  remainingRows : ℕ
  prunedThroughId : Option ℤ
  prunedThroughHash : Option Text
  keptOutOfOrderRows : ℕ

inductive AuditLogError where
  | invalid (reason : String)
  | corrupt (reason : String)
  | storage

/-- The row of `audit_log_anchor`. -/
structure Anchor where
  prunedThroughId : ℤ
  prunedThroughHash : Text
  prunedAt : Text
  deriving DecidableEq

/-- `audit_log` and `audit_log_anchor`. -/
structure Tables where
  rows : SortedMap ℤ Fields
  anchor : Option Anchor

/-! ### Hashes -/

/-- What the log gets from libraries. -/
structure Library (Detail : Type) where
  sha256 : List UInt8 → List UInt8
  length_sha256 : ∀ bytes, (sha256 bytes).length = 32
  /-- `to_rfc3339_opts` with nanoseconds. -/
  rfc3339 : DateTime → Text
  /-- `parse_from_rfc3339`. -/
  parseRfc3339 : Text → Option DateTime
  /-- `serde_json::to_string`. -/
  toJson : Detail → Option Text
  /-- `serde_json::from_str` accepts the text. -/
  isJson : Text → Bool
  /-- `json_valid` of SQLite. -/
  jsonValid : Text → Bool

/-- Eight bytes, the highest one first. -/
def be64 (n : ℕ) : List UInt8 := (List.range 8).map fun i => UInt8.ofNat (n / 256 ^ (7 - i))

def hashBytes (value : List UInt8) : List UInt8 := be64 value.length ++ value

def hashStr (value : Text) : List UInt8 := hashBytes value.bytes

def entryDomain : List UInt8 := "neonhearth.audit-log.entry.v1".toByteArray.data.toList

def genesisDomain : List UInt8 := "neonhearth.audit-log.genesis.v1".toByteArray.data.toList

/-- The presence of a subject is one byte. -/
def hashSubject : Option Text → List UInt8
  | none => [0]
  | some subject => 1 :: hashStr subject

/-- What `compute_entry_hash` hashes. -/
def encodeEntry (id : ℤ) (r : Fields) : List UInt8 :=
  hashBytes entryDomain ++ (be64 (id % 2 ^ 64).toNat ++ (hashStr r.occurredAt ++ (hashStr r.actor ++
    (hashStr r.category ++ (hashStr r.action ++ (hashSubject r.subject ++ (hashStr r.detail ++
      hashStr r.prevHash)))))))

def hexEncode (bytes : List UInt8) : String :=
  String.ofList (bytes.flatMap fun b => [Nat.digitChar (b.toNat / 16), Nat.digitChar (b.toNat % 16)])

theorem utf8Size_digitChar : ∀ n < 16, (Nat.digitChar n).utf8Size = 1 := by decide

theorem utf8ByteSize_hexEncode (bytes) : (hexEncode bytes).utf8ByteSize = 2 * bytes.length := by
  rw [hexEncode, String.utf8ByteSize_ofList]
  induction bytes with
  | nil => rfl
  | cons b bytes ih =>
    have hb : b.toNat < 256 := b.toNat_lt
    rw [List.flatMap_cons, String.utf8Len_append, ih, List.length_cons, String.utf8Len_cons,
      String.utf8Len_cons, String.utf8Len_nil, utf8Size_digitChar _ (by omega),
      utf8Size_digitChar _ (by omega)]
    omega

variable {Detail : Type}

namespace Library

variable (lib : Library Detail)

/-- SHA-256 in hexadecimal. -/
def digest (bytes : List UInt8) : Text :=
  ⟨hexEncode (lib.sha256 bytes), by rw [utf8ByteSize_hexEncode, lib.length_sha256]; decide⟩

def genesisHash : Text := lib.digest genesisDomain

def computeEntryHash (id : ℤ) (r : Fields) : Text := lib.digest (encodeEntry id r)

/-- `encode_time`: only the years 1970 to 9999 are written. -/
def encodeTime (t : DateTime) : Option Text :=
  if 0 ≤ t.nanos ∧ t.nanos < seconds 253402300800 then some (lib.rfc3339 t) else none

/-- `decode_time`: only what would be written is read. -/
def decodeTime (value : Text) : Except AuditLogError DateTime := do
  let parsed ← okOr (lib.parseRfc3339 value) (.corrupt "stored timestamp is invalid")
  reject (lib.encodeTime parsed ≠ some value) (.corrupt "stored timestamp is not canonical")
  pure parsed

/-! ### Reading -/

/-- `trusted_root_on`. -/
def trustedRoot (db : Tables) : ℤ × Text :=
  match db.anchor with
  | some a => (a.prunedThroughId, a.prunedThroughHash)
  | none => (0, lib.genesisHash)

/-- `head_on`. -/
def head (db : Tables) : ChainHead :=
  match db.rows.toList.getLast? with
  | some (id, r) => ⟨id, r.entryHash⟩
  | none => ⟨(lib.trustedRoot db).1, (lib.trustedRoot db).2⟩

/-- What the verifier carries from row to row. -/
structure Walk where
  expectedId : ℤ
  expectedPrev : Text
  checked : ℕ
  endId : Option ℤ
  cursor : ℤ

/-- What is wrong with a row. -/
def breakKind (expectedId : ℤ) (expectedPrev : Text) (row : Entry) : Option ChainBreakKind :=
  if row.1 ≠ expectedId then some .idGap
  else if (AuditActor.parse row.2.actor).isNone || (AuditCategory.parse row.2.category).isNone then
    some .invalidRow
  else if row.2.prevHash ≠ expectedPrev then some .prevHashMismatch
  else if lib.computeEntryHash row.1 row.2 ≠ row.2.entryHash then some .entryHashMismatch
  else none

/-- One pass of the loop over a page.  A failure is the end of the verification, with its result. -/
def walkRow (startId : ℤ) (anchored : Bool) (w : Walk) (row : Entry) :
    Except (Except AuditLogError ChainReport) Walk :=
  match lib.breakKind w.expectedId w.expectedPrev row with
  | some kind => .error (.ok ⟨w.checked, some startId, w.endId, anchored, some ⟨row.1, kind⟩⟩)
  | none =>
    if 2 ^ 63 ≤ row.1 + 1 then .error (.error (.corrupt "audit log id space exhausted"))
    else .ok
      { expectedId := row.1 + 1
        expectedPrev := row.2.entryHash
        checked := min (w.checked + 1) (2 ^ 64 - 1)
        endId := some row.1
        cursor := row.1 }

/-- `VERIFY_PAGE`. -/
def verifyPage : ℕ := 512

/-- The loop over the pages.  Every page but the last is full, so there are at most as many as rows
and one. -/
def walkPages (rows : List Entry) (startId : ℤ) (anchored : Bool) :
    ℕ → Walk → Except (Except AuditLogError ChainReport) Walk
  | 0, w => .ok w
  | fuel + 1, w => do
    let page := (rows.filter fun row => w.cursor < row.1).take verifyPage
    if page = [] then pure w
    else do
      let w ← page.foldlM (lib.walkRow startId anchored) w
      if page.length < verifyPage then pure w else walkPages rows startId anchored fuel w

/-- Subtraction that stops at the least `i64`. -/
def saturatingSub (a b : ℤ) : ℤ := max (-2 ^ 63) (a - b)

/-- Where the verification starts: the first id, the hash before it, and whether that is trusted. -/
def start (db : Tables) (scope : ChainScope) (maxId : ℤ) :
    Except (Except AuditLogError ChainReport) (ℤ × Text × Bool) := do
  let root := lib.trustedRoot db
  reject (2 ^ 63 ≤ root.1 + 1) (.error (.corrupt "audit log id space exhausted"))
  match scope with
  | .all => pure (root.1 + 1, root.2, true)
  | .tail 0 => .error (.error (.invalid "tail scope must be nonzero"))
  | .tail n =>
    let window : ℤ := min n (2 ^ 63 - 1)
    let tailStart := saturatingSub maxId (saturatingSub window 1)
    if tailStart ≤ root.1 + 1 then pure (root.1 + 1, root.2, true)
    else
      match db.rows.get tailStart with
      | some r => pure (tailStart, r.prevHash, false)
      | none => .error (.ok ⟨0, some tailStart, none, false, some ⟨tailStart, .idGap⟩⟩)

/-- The committed head: the id must still have the committed hash. -/
def liveHash (db : Tables) (expected : ChainHead) : Option Text :=
  if expected.id = (lib.trustedRoot db).1 then some (lib.trustedRoot db).2
  else (db.rows.get expected.id).map (·.entryHash)

/-- The end of the verification of a table with rows. -/
def finish (db : Tables) (expectedHead : Option ChainHead) (startId : ℤ) (anchored : Bool) (w : Walk) :
    ChainReport where
  checked := w.checked
  startId := if 0 < w.checked then some startId else none
  endId := w.endId
  anchored := anchored
  firstBreak :=
    (expectedHead.filter fun expected => lib.liveHash db expected ≠ some expected.entryHash).map
      fun expected => ⟨expected.id, .headMismatch⟩

/-- The verification of a table with rows. -/
def walk (db : Tables) (scope : ChainScope) (expectedHead : Option ChainHead) (maxId : ℤ) :
    Except (Except AuditLogError ChainReport) ChainReport := do
  let (startId, expectedPrev, anchored) ← lib.start db scope maxId
  reject (startId - 1 < -2 ^ 63) (.error (.corrupt "audit log id underflow"))
  let w ← lib.walkPages db.rows.toList startId anchored (db.rows.size + 1)
    ⟨startId, expectedPrev, 0, none, startId - 1⟩
  pure (lib.finish db expectedHead startId anchored w)

/-- The error for a head below the anchor. -/
def predates (id rootId : ℤ) : AuditLogError :=
  .invalid s!"expected head {id} predates the retention anchor {rootId}"

/-- `verify_in`. -/
def verifyIn (db : Tables) (scope : ChainScope) (expectedHead : Option ChainHead) :
    Except AuditLogError ChainReport := do
  let root := lib.trustedRoot db
  expectedHead.elim (pure ()) fun expected =>
    reject (expected.id < root.1) (predates expected.id root.1)
  match db.rows.toList.getLast? with
  | none =>
    pure ⟨0, none, none, true, (expectedHead.filter fun expected =>
      expected.id ≠ root.1 || expected.entryHash ≠ root.2).map fun expected =>
        ⟨expected.id, .headMismatch⟩⟩
  | some (maxId, _) =>
    match lib.walk db scope expectedHead maxId with
    | .ok report => pure report
    | .error result => result

/-! ### Appending -/

/-- 64 hexadecimal digits, in lower case. -/
def isHash (t : Text) : Bool :=
  t.1.length = 64 && t.1.toList.all fun c => '0' ≤ c && c ≤ '9' || 'a' ≤ c && c ≤ 'f'

/-- The checks of the columns of `audit_log`. -/
def rowChecks (id : ℤ) (r : Fields) : Bool :=
  1 ≤ id && 20 ≤ r.occurredAt.1.length && r.occurredAt.1.length ≤ 40 &&
    (AuditActor.parse r.actor).isSome && (AuditCategory.parse r.category).isSome &&
    1 ≤ r.action.1.length && r.action.1.length ≤ 128 &&
    (r.subject.all fun s => 1 ≤ s.1.length && s.1.length ≤ 256) &&
    lib.jsonValid r.detail && r.detail.1.length ≤ 16384 && isHash r.prevHash && isHash r.entryHash

/-- `INSERT INTO audit_log`: the columns are checked, and ids and hashes are unique. -/
def insertRow (db : Tables) (id : ℤ) (r : Fields) : Except AuditLogError Tables := do
  reject (lib.rowChecks id r = false ∨ (db.rows.get id).isSome ∨
    ∃ row ∈ db.rows.toList, row.2.entryHash = r.entryHash) .storage
  pure { db with rows := db.rows.insert id r }

/-- `append_locked`. -/
def appendLocked (db : Tables) (entry : NewAuditEntry Detail) (occurredAt detail : Text) :
    Except AuditLogError (Tables × Entry) := do
  let head := lib.head db
  reject (2 ^ 63 ≤ head.id + 1) (.corrupt "audit log id space exhausted")
  let id := head.id + 1
  let unhashed : Fields := ⟨occurredAt, entry.actor.asStr, entry.category.asStr, entry.action,
    entry.subject, detail, head.entryHash, head.entryHash⟩
  let r := { unhashed with entryHash := lib.computeEntryHash id unhashed }
  let db ← lib.insertRow db id r
  reject (lib.isJson detail = false) (.corrupt "stored detail is not JSON")
  let _ ← lib.decodeTime occurredAt
  pure (db, id, r)

/-- `append_in_transaction`. -/
def appendInTransaction (db : Tables) (entry : NewAuditEntry Detail) :
    Except AuditLogError (Tables × Entry) := do
  let occurredAt ← okOr (lib.encodeTime entry.occurredAt) (.invalid "occurred_at is out of range")
  let detail ← okOr (lib.toJson entry.detail) (.invalid "detail is not serializable")
  reject (entry.action.1 = "" ∨ 128 < entry.action.1.utf8ByteSize ∨
    (entry.subject.any fun s => s.1 = "" || 256 < s.1.utf8ByteSize) ∨
    16384 < detail.1.utf8ByteSize) (.invalid "audit entry exceeds its bounds")
  lib.appendLocked db entry occurredAt detail

/-- `append`, with the transaction of its own. -/
def append (db : Tables) (entry : NewAuditEntry Detail) : Except AuditLogError (Tables × Entry) := do
  let occurredAt ← okOr (lib.encodeTime entry.occurredAt) (.invalid "occurred_at is out of range")
  reject (entry.action.1 = "" ∨ 128 < entry.action.1.utf8ByteSize)
    (.invalid "action must be 1..=128 bytes")
  reject (entry.subject.any fun s => s.1 = "" || 256 < s.1.utf8ByteSize)
    (.invalid "subject must be 1..=256 bytes")
  let detail ← okOr (lib.toJson entry.detail) (.invalid "detail is not serializable")
  reject (16384 < detail.1.utf8ByteSize) (.invalid "detail exceeds the 16384-byte cap")
  lib.appendLocked db entry occurredAt detail

/-! ### Pruning -/

/-- The last id that a cutoff lets go: all rows before the first one that must be kept. -/
def ageBoundary (rows : List Entry) (maxId : ℤ) (cutoff : Text) : ℤ :=
  match rows.find? fun row => cutoff.1 ≤ row.2.occurredAt.1 with
  | some kept => kept.1 - 1
  | none => maxId

/-- The last id to go. -/
def pruneThrough (rows : List Entry) (minId maxId : ℤ) (cutoff : Option Text) (maxRows : Option ℕ) :
    ℤ :=
  let byAge := cutoff.elim (minId - 1) fun cutoff => max (minId - 1) (ageBoundary rows maxId cutoff)
  maxRows.elim byAge fun maxRows => max byAge (saturatingSub maxId (min maxRows (2 ^ 63 - 1)))

/-- The rows above the boundary that are older than the cutoff. -/
def keptOutOfOrder (rows : List Entry) (maxId : ℤ) (cutoff : Option Text) : ℕ :=
  cutoff.elim 0 fun cutoff => (rows.filter fun row =>
    ageBoundary rows maxId cutoff < row.1 && row.2.occurredAt.1 < cutoff.1).length

/-- `prune_locked`. -/
def pruneLocked (db : Tables) (cutoff : Option Text) (maxRows : Option ℕ) (prunedAt : Text) :
    Except AuditLogError (Tables × PruneReport) :=
  let rows := db.rows.toList
  match rows.head?, rows.getLast? with
  | some (minId, _), some (maxId, _) => do
    let through := pruneThrough rows minId maxId cutoff maxRows
    let kept := keptOutOfOrder rows maxId cutoff
    if through < minId then pure (db, ⟨0, db.rows.size, none, none, kept⟩)
    else do
      let last ← okOr (db.rows.get through)
        (.corrupt "prune boundary entry is missing from the chain")
      let rows' := db.rows.filter fun id _ => through < id
      -- the checks of the columns of `audit_log_anchor`
      reject (through < 1 ∨ isHash last.entryHash = false ∨ prunedAt.1.length < 20 ∨
        40 < prunedAt.1.length) .storage
      pure (⟨rows', some ⟨through, last.entryHash, prunedAt⟩⟩,
        ⟨db.rows.size - rows'.size, (maxId - through).toNat, some through, some last.entryHash, kept⟩)
  | _, _ => pure (db, ⟨0, 0, none, none, 0⟩)

/-- The text of a cutoff. -/
def encodeCutoff : Option DateTime → Except AuditLogError (Option Text)
  | none => .ok none
  | some t => (okOr (lib.encodeTime t) (.invalid "cutoff is out of range")).map some

/-- `retention_prune`. -/
def retentionPrune (db : Tables) (before : Option DateTime) (maxRows : Option ℕ) (now : DateTime) :
    Except AuditLogError (Tables × PruneReport) := do
  reject (before.isNone ∧ maxRows.isNone)
    (.invalid "retention prune needs a max-age cutoff or a max-rows bound")
  let cutoff ← lib.encodeCutoff before
  let prunedAt ← okOr (lib.encodeTime now) (.invalid "prune time is out of range")
  pruneLocked db cutoff maxRows prunedAt

end Library

/-! ### Runs -/

/-- The tables, with what has happened to them. -/
structure Run where
  db : Tables
  /-- The entries of all committed appends, the first one first. -/
  appended : List Entry
  /-- The rows that prunes have removed. -/
  pruned : List Entry
  /-- The heads that have been current. -/
  heads : List ChainHead

/-- A write.  Storage may fail in it, and then it is rolled back. -/
inductive AuditEvent (Detail : Type) where
  | append (entry : NewAuditEntry Detail) (storageFails : Bool)
  /-- A transaction of someone else, which appends some entries. -/
  | transaction (entries : List (NewAuditEntry Detail)) (commits : Bool)
  | retentionPrune (before : Option DateTime) (maxRows : Option ℕ) (now : DateTime)
    (storageFails : Bool)

variable (lib : Library Detail)

/-- The appends of a transaction. -/
def appendAll (db : Tables) (entries : List (NewAuditEntry Detail)) :
    Except AuditLogError (Tables × List Entry) :=
  entries.foldlM (fun (db, written) entry => do
    let (db, row) ← lib.appendInTransaction db entry
    pure (db, written ++ [row])) (db, [])

namespace Run

/-- The run after new rows are committed. -/
def commit (run : Run) (db : Tables) (written : List Entry) : Run :=
  { run with db, appended := run.appended ++ written, heads := run.heads ++ [lib.head db] }

/-- The run after a prune is committed. -/
def commitPrune (run : Run) (db : Tables) : Run :=
  { run with
    db
    pruned := run.pruned ++ run.db.rows.toList.filter fun row => (db.rows.get row.1).isNone
    heads := run.heads ++ [lib.head db] }

def step (run : Run) : AuditEvent Detail → Run
  | .append entry storageFails =>
    match lib.append run.db entry with
    | .ok (db, row) => if storageFails then run else run.commit lib db [row]
    | .error _ => run
  | .transaction entries commits =>
    match appendAll lib run.db entries with
    | .ok (db, written) => if commits then run.commit lib db written else run
    | .error _ => run
  | .retentionPrune before maxRows now storageFails =>
    match lib.retentionPrune run.db before maxRows now with
    | .ok (db, _) => if storageFails then run else run.commitPrune lib db
    | .error _ => run

end Run

/-- The log under any writes, from empty tables. -/
def auditMachine : Machine Run (AuditEvent Detail) where
  init run := run = ⟨⟨∅, none⟩, [], [], [lib.head ⟨∅, none⟩]⟩
  step run e := some (run.step lib e)

end NeonHearth.Audit
