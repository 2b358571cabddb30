import NeonHearth.Flow.Store
import NeonHearth.Identity.Facts
import NeonHearth.Presence.Control
import NeonHearth.Presence.Replay

/-!
# The store of discovery

Discovery keeps its state in one row of `state_checkpoints`, and every observation that it commits in
a row of `discovery_commits` under the hash of the observation.  One transaction writes both, with the
evidence, the transitions and the rollups of the observation.

* `load_of_written` : what a transaction has written is read back, if it was written in the
  years 0 to 9999.

What the store gets from libraries is a parameter (`Libraries`): SHA-256, and the sizes and the syntax
of JSON.  Times are stored as RFC 3339 text and stand for themselves here; `parseTimestamp` says which
of the texts are read back.  A transaction that fails changes nothing.  The table of devices is left
out, which discovery writes and does not read.
-/

namespace NeonHearth.Discovery

open NeonHearth.Except

open NeonHearth.Presence (CheckpointError PresenceChanged inEra insertRow validateTransition wholeSeconds)
open NeonHearth.Flow (FlowStore FlowStoreError RollupChange)

instance neZeroOctet : NeZero 256 := ⟨by decide⟩

/-- Six octets, the first of them even, and not all of them zero. -/
structure LinkAddress where
  octets : List (Fin 256)
  length_eq : octets.length = 6
  nonzero : octets ≠ List.replicate 6 0
  unicast : octets.head?.all (·.val % 2 = 0) = true
  deriving DecidableEq

/-- The octets in hexadecimal, with colons. -/
def LinkAddress.toText (address : LinkAddress) : String :=
  Identity.formatMac (address.octets.map Fin.val)

structure M2StateConfig where
  maxCheckpointBytes : ℕ
  maxDiscoverySummaryBytes : ℕ
  maxBatch : ℕ
  maxStringBytes : ℕ

/-- `M2StateConfig::default`. -/
def M2StateConfig.default : M2StateConfig where
  maxCheckpointBytes := 4 * 1024 * 1024
  maxDiscoverySummaryBytes := 1024 * 1024
  maxBatch := 4096
  maxStringBytes := 4096

/-! ### Rows -/

structure DeviceProjection where
  deviceId : DeviceId
  firstSeenAt : DateTime
  lastSeenAt : DateTime
  ownerName : Option String
  ownerType : Option String
  ownerConfirmed : Bool

/-- A row of `evidence`. -/
structure EvidenceProjection where
  deviceId : DeviceId
  fact : EvidenceFact
  deriving DecidableEq

/-- The JSON object that is kept as the result of an observation. -/
structure DiscoverySummary where
  version : ℕ
  deviceId : DeviceId
  commitSequence : ℕ
  eventCount : ℕ
  presenceTransitionCount : ℕ

structure CheckpointInput (Bytes : Type) where
  formatVersion : ℕ
  bytes : Bytes
  sourceFingerprint : String
  commitSequence : ℕ
  writtenAt : DateTime

structure DiscoveryCommit (Digest : Type) where
  inputHash : Digest
  source : String
  resultSummary : DiscoverySummary
  committedAt : DateTime

structure CommitInput (Bytes Digest : Type) where
  checkpoint : CheckpointInput Bytes
  devices : List DeviceProjection
  evidence : List EvidenceProjection
  transitions : List PresenceChanged
  discovery : Option (DiscoveryCommit Digest)

/-- The row of `state_checkpoints`. -/
structure CheckpointRow (Bytes Digest : Type) extends CheckpointInput Bytes where
  sha256 : Digest

/-- The columns of `discovery_commits` that its checksum covers. -/
structure DiscoveryEntry (Digest : Type) extends DiscoveryCommit Digest where
  commitDigest : Digest
  resultSha256 : Digest
  checkpointSequence : ℕ
  sourceFingerprint : String

/-- A row of `discovery_commits`. -/
structure DiscoveryRow (Digest : Type) extends DiscoveryEntry Digest where
  rowSha256 : Digest

structure Database (Bytes Digest : Type) where
  checkpoint : Option (CheckpointRow Bytes Digest)
  commits : List (DiscoveryRow Digest)
  evidence : List EvidenceProjection
  transitions : List PresenceChanged
  flow : FlowStore

/-- The database before the first commit. -/
def Database.empty {Bytes Digest : Type} : Database Bytes Digest := ⟨none, [], [], [], ⟨∅, ∅⟩⟩

/-- What the store gets from libraries: the size and the syntax of JSON texts, and SHA-256 of what it
hashes. -/
structure Libraries (Bytes Digest : Type) where
  size : Bytes → ℕ
  isJson : Bytes → Bool
  summarySize : DiscoverySummary → ℕ
  checkpointChecksum : CheckpointInput Bytes → Digest
  legacyCheckpointChecksum : CheckpointInput Bytes → Digest
  summaryDigest : DiscoverySummary → Digest
  rowChecksum : DiscoveryEntry Digest → Digest
  commitDigest : CommitInput Bytes Digest → List RollupChange → Digest

/-! ### Checks -/

/-- `parse_timestamp` of a time that `to_rfc3339` has written: a year outside 0 to 9999 is written
with a sign, which `parse_from_rfc3339` does not read. -/
def parseTimestamp (t : DateTime) (field : String) (error : String → CheckpointError) :
    Except CheckpointError DateTime := do
  reject (¬inEra t) (error (field ++ ": input contains invalid characters"))
  pure t

theorem parseTimestamp_of_inEra {t} (h : inEra t) (field : String)
    (error) : parseTimestamp t field error = .ok t := by
  simp [parseTimestamp, reject, h, bind, Except.bind, pure, Except.pure]

/-- A loop over items that also refuses an item like an earlier one. -/
def forDistinct {α κ : Type} [DecidableEq κ] (key : α → κ) (repeated : String)
    (check : α → Except CheckpointError Unit) (items : List α) : Except CheckpointError Unit := do
  let _ ← items.foldlM (fun seen a => do
    reject (key a ∈ seen) (.invalid repeated)
    check a
    pure (key a :: seen)) []
  pure ()

section Checks

variable (config : M2StateConfig)

def checkStringWith (value field : String) (error : String → CheckpointError) :
    Except CheckpointError Unit := do
  reject (value = "") (error (field ++ " cannot be empty"))
  reject (config.maxStringBytes < value.utf8ByteSize) (.capacity (field ++ " exceeds configured size"))

def checkString (value field : String) : Except CheckpointError Unit :=
  checkStringWith config value field .invalid

def checkOptionalString (value : Option String) (field : String) : Except CheckpointError Unit :=
  match value with
  | some value => checkString config value field
  | none => pure ()

def checkDevice (d : DeviceProjection) : Except CheckpointError Unit := do
  reject (d.lastSeenAt < d.firstSeenAt) (.invalid "device first_seen_at is after last_seen_at")
  reject (¬wholeSeconds d.firstSeenAt ∨ ¬wholeSeconds d.lastSeenAt)
    (.invalid "device timestamps must be whole UTC seconds")
  checkOptionalString config d.ownerName "owner name"
  checkOptionalString config d.ownerType "owner type"

def checkEvidence (e : EvidenceProjection) : Except CheckpointError Unit := do
  reject (e.fact.confidence.isConfidence = false)
    (.invalid "evidence confidence must be finite and in range")
  reject (e.fact.expiresAt.any (· < e.fact.observedAt))
    (.invalid "evidence expiry is before observation")
  checkString config e.fact.source "evidence source"
  checkString config e.fact.key "evidence key"
  checkString config e.fact.value "evidence value"

def checkTransition (t : PresenceChanged) : Except CheckpointError Unit := do
  validateTransition t
  checkString config t.reason "transition reason"
  checkString config t.triggerSource "transition source"
  checkString config t.triggerKind "transition kind"

/-- `validate_discovery_summary`; the summary is an object with all its fields. -/
def validateDiscoverySummary (summary : DiscoverySummary) (expectedSequence : ℕ)
    (error : String → CheckpointError) : Except CheckpointError Unit := do
  reject (summary.version ≠ 1) (error "discovery result summary has an unsupported version")
  reject (summary.commitSequence ≠ expectedSequence)
    (error "discovery result summary commit_sequence mismatch")

variable {Bytes Digest : Type} [DecidableEq Digest] (lib : Libraries Bytes Digest)

def validateCheckpoint (c : CheckpointInput Bytes) (expectedFingerprint : String) (checksum : Digest)
    (error : String → CheckpointError) : Except CheckpointError Unit := do
  reject (c.formatVersion ≠ 1) (error "unknown format version")
  reject (config.maxCheckpointBytes < lib.size c.bytes)
    (.capacity "checkpoint exceeds configured size")
  reject (c.commitSequence = 0) (error "commit sequence must be nonzero")
  checkStringWith config c.sourceFingerprint "source fingerprint" error
  reject (c.sourceFingerprint ≠ expectedFingerprint) (error "source fingerprint mismatch")
  reject (checksum ≠ lib.checkpointChecksum c ∧ checksum ≠ lib.legacyCheckpointChecksum c)
    (error "checksum mismatch")
  reject (lib.isJson c.bytes = false) (error "checkpoint bytes are not JSON")

def validateInput (input : CommitInput Bytes Digest) : Except CheckpointError Unit := do
  reject (config.maxBatch <
      input.devices.length + input.evidence.length + input.transitions.length)
    (.capacity "projection batch too large")
  validateCheckpoint config lib input.checkpoint input.checkpoint.sourceFingerprint
    (lib.checkpointChecksum input.checkpoint) .invalid
  forDistinct (·.deviceId) "duplicate device projection" (checkDevice config) input.devices
  input.evidence.forM (checkEvidence config)
  forDistinct id "duplicate semantic evidence projection" (fun _ => pure ()) input.evidence
  forDistinct (·.transitionId) "duplicate transition identifier" (checkTransition config)
    input.transitions
  match input.discovery with
  | none => pure ()
  | some d => do
    checkString config d.source "discovery source"
    reject (config.maxDiscoverySummaryBytes < lib.summarySize d.resultSummary)
      (.capacity "discovery result summary too large")
    validateDiscoverySummary d.resultSummary input.checkpoint.commitSequence .invalid

end Checks

namespace Database

variable {Bytes Digest : Type} [DecidableEq Bytes] [DecidableEq Digest] (config : M2StateConfig)
  (lib : Libraries Bytes Digest) (db : Database Bytes Digest)

/-! ### Reading -/

/-- `load`. -/
def load (expectedFingerprint : String) : Except CheckpointError (Option (CheckpointInput Bytes)) :=
  match db.checkpoint with
  | none => pure none
  | some row => do
    let writtenAt ← parseTimestamp row.writtenAt "checkpoint written_at" .corrupt
    let loaded := { row.toCheckpointInput with writtenAt }
    validateCheckpoint config lib loaded expectedFingerprint row.sha256 .corrupt
    pure (some loaded)

/-- The checks of `discovery_commit` on the row it finds. -/
def checkDiscoveryRow (row : DiscoveryRow Digest) : Except CheckpointError (DiscoveryCommit Digest) := do
  checkStringWith config row.source "discovery source" .corrupt
  checkStringWith config row.sourceFingerprint "discovery source fingerprint" .corrupt
  reject (config.maxDiscoverySummaryBytes < lib.summarySize row.resultSummary ∨
      lib.summaryDigest row.resultSummary ≠ row.resultSha256)
    (.corrupt "discovery commit checksum or bound invalid")
  let committedAt ← parseTimestamp row.committedAt "discovery commit committed_at" .corrupt
  reject (row.rowSha256 ≠ lib.rowChecksum { row.toDiscoveryEntry with committedAt })
    (.corrupt "discovery commit row checksum mismatch")
  validateDiscoverySummary row.resultSummary row.checkpointSequence .corrupt
  let stored ← db.load config lib row.sourceFingerprint
  let checkpoint ← okOr stored (.corrupt "discovery record exists without checkpoint")
  reject (checkpoint.commitSequence < row.checkpointSequence)
    (.corrupt "discovery commit names a future checkpoint sequence")
  pure { row.toDiscoveryCommit with committedAt }

/-- The row of an observation. -/
def commitRow (inputHash : Digest) : Option (DiscoveryRow Digest) :=
  db.commits.find? fun row => row.inputHash = inputHash

/-- `discovery_commit`. -/
def discoveryCommit (inputHash : Digest) : Except CheckpointError (Option (DiscoveryCommit Digest)) :=
  match db.commitRow inputHash with
  | none => pure none
  | some row => (db.checkDiscoveryRow config lib row).map some

/-- The devices that a source has seen with an address. -/
def linkDevices (address : LinkAddress) (source : String) : List DeviceId :=
  ((db.evidence.filter fun e => e.fact.family = .linkLayer ∧ e.fact.key = "mac" ∧
    e.fact.source = source ∧ e.fact.value = address.toText).map (·.deviceId)).dedup

/-- `lookup_link_layer_device`. -/
def lookupLinkLayerDevice (address : LinkAddress) (source : String) :
    Except CheckpointError (Option DeviceId) := do
  checkString config source "identity source"
  match db.linkDevices address source with
  | [] => pure none
  | [id] => pure (some id)
  | _ => .error (.corrupt "identity evidence is ambiguous")

/-! ### The transaction -/

/-- What can go wrong in a transaction, apart from its own checks. -/
inductive Fault where
  /-- A statement fails, or the commit. -/
  | storage
  /-- The checkpoint is locked by another writer. -/
  | checkpointLocked
  /-- The observations are locked by another writer. -/
  | discoveryLocked
  deriving DecidableEq

/-- `verify_idempotent_checkpoint`. -/
def verifyIdempotentCheckpoint (input : CheckpointInput Bytes) : Except CheckpointError Unit := do
  let row ← okOr db.checkpoint (.corrupt "idempotency record exists without a checkpoint")
  let writtenAt ← parseTimestamp row.writtenAt "checkpoint written_at" .corrupt
  validateCheckpoint config lib { row.toCheckpointInput with writtenAt } input.sourceFingerprint
    row.sha256 .corrupt
  reject (row.formatVersion ≠ input.formatVersion ∨ row.bytes ≠ input.bytes ∨
      row.commitSequence ≠ input.commitSequence ∨ writtenAt ≠ input.writtenAt)
    (.conflict "idempotency record does not match current checkpoint envelope")

/-- `insert_evidence`: a row that is there already stays alone. -/
def insertEvidence (rows : List EvidenceProjection) (e : EvidenceProjection) :
    List EvidenceProjection :=
  if e ∈ rows then rows else rows ++ [e]

/-- `insert_transition`. -/
def insertTransition (rows : List PresenceChanged) (t : PresenceChanged) :
    Except CheckpointError (List PresenceChanged) :=
  insertRow (·.transitionId) rows t.transitionId t.correctionOf t

/-- The row of `insert_discovery_commit`. -/
def discoveryRow (checkpoint : CheckpointInput Bytes) (digest : Digest) (d : DiscoveryCommit Digest) :
    DiscoveryRow Digest :=
  let entry : DiscoveryEntry Digest :=
    { d with
      commitDigest := digest
      resultSha256 := lib.summaryDigest d.resultSummary
      checkpointSequence := checkpoint.commitSequence
      sourceFingerprint := checkpoint.sourceFingerprint }
  { entry with rowSha256 := lib.rowChecksum entry }

end Database

/-- The message of an error of the flow repository. -/
def flowMessage : FlowStoreError → String
  | .invalid => "invalid input"
  | .capacity => "capacity"
  | .compactionConflict => "compaction parent conflicts with existing aggregate"
  | .overflow => "integer overflow"
  | .sql | .unfinished => "storage"

namespace Database

variable {Bytes Digest : Type} [DecidableEq Bytes] [DecidableEq Digest] (config : M2StateConfig)
  (lib : Libraries Bytes Digest) (db : Database Bytes Digest)

/-- The sequence number that the next commit must have. -/
def expectedSequence : Except CheckpointError ℕ :=
  match db.checkpoint with
  | none => pure 1
  | some row => do
    reject (2 ^ 63 ≤ row.commitSequence + 1) (.conflict "commit sequence is exhausted")
    pure (row.commitSequence + 1)

/-- The writes of a new observation.  The transaction holds the write lock since before it read the
checkpoint, so the row that it replaces is the one it has read. -/
def writeCommit (fault : Option Fault) (input : CommitInput Bytes Digest) (changes : List RollupChange)
    (flowMaxBatch : ℕ) : Except CheckpointError (Database Bytes Digest) := do
  let expected ← db.expectedSequence
  let sequence := input.checkpoint.commitSequence
  reject (sequence ≠ expected)
    (.conflict s!"stale or out-of-order sequence: expected {expected}, got {sequence}")
  reject (fault = some .checkpointLocked)
    (.conflict "another writer committed this sequence first")
  let sorted := input.transitions.insertionSort fun t u => t.transitionId ≤ u.transitionId
  let transitions ← sorted.foldlM insertTransition db.transitions
  reject (input.discovery.isSome ∧ fault = some .discoveryLocked)
    (.conflict "another writer committed this discovery input first")
  let flow ← (db.flow.apply flowMaxBatch changes).mapError (.invalid <| flowMessage ·)
  let row := discoveryRow lib input.checkpoint (lib.commitDigest input changes)
  pure
    { checkpoint := some ⟨input.checkpoint, lib.checkpointChecksum input.checkpoint⟩
      commits := db.commits ++ (input.discovery.map row).toList
      evidence := input.evidence.foldl insertEvidence db.evidence
      transitions
      flow }

/-- `commit_inner`: an observation that has been committed already is not committed again. -/
def commitInner (fault : Option Fault) (input : CommitInput Bytes Digest)
    (changes : List RollupChange) (flowMaxBatch : ℕ) :
    Except CheckpointError (Database Bytes Digest) := do
  reject (fault = some .storage) .storage
  match input.discovery.bind fun d => db.commitRow d.inputHash with
  | some old => do
    reject (old.commitDigest ≠ lib.commitDigest input changes)
      (.conflict "input hash already names a different logical commit")
    db.verifyIdempotentCheckpoint config lib input.checkpoint
    pure db
  | none => db.writeCommit lib fault input changes flowMaxBatch

/-- `commit_with_flow`. -/
def commitWithFlow (fault : Option Fault) (input : CommitInput Bytes Digest)
    (changes : List RollupChange) (flowMaxBatch : ℕ) :
    Except CheckpointError (Database Bytes Digest) := do
  validateInput config lib input
  db.commitInner config lib fault input changes flowMaxBatch

/-! ### What a commit writes -/

section Written

variable {config lib db} {fault : Option Fault} {input : CommitInput Bytes Digest}
  {changes : List RollupChange} {flowMaxBatch : ℕ} {db' : Database Bytes Digest}

omit [DecidableEq Bytes] in
theorem validateCheckpoint_of_validateInput (h : validateInput config lib input = .ok ()) :
    validateCheckpoint config lib input.checkpoint input.checkpoint.sourceFingerprint
      (lib.checkpointChecksum input.checkpoint) .invalid = .ok () := by
  obtain ⟨_, -, h⟩ := bind_eq_ok.1 h
  obtain ⟨_, hcheckpoint, -⟩ := bind_eq_ok.1 h
  exact hcheckpoint

/-- The commit of a new observation passes the checks and writes its checkpoint. -/
theorem checkpoint_of_commitWithFlow
    (h : db.commitWithFlow config lib fault input changes flowMaxBatch = .ok db')
    (hnew : (input.discovery.bind fun d => db.commitRow d.inputHash) = none) :
    validateInput config lib input = .ok () ∧
      db.expectedSequence = .ok input.checkpoint.commitSequence ∧
      db'.checkpoint = some ⟨input.checkpoint, lib.checkpointChecksum input.checkpoint⟩ := by
  obtain ⟨_, hvalid, h⟩ := bind_eq_ok.1 h
  rw [commitInner, hnew] at h
  simp only [writeCommit, bind_eq_ok, pure_eq_ok, reject_eq_ok, not_not] at h
  obtain ⟨-, -, _, hexpected, -, rfl, -, -, _, -, -, -, _, -, rfl⟩ := h
  exact ⟨hvalid, hexpected, rfl⟩

omit [DecidableEq Bytes] in
/-- **What a commit has written is read back**, if the time can be read. -/
theorem load_of_written (hvalid : validateInput config lib input = .ok ())
    (hera : inEra input.checkpoint.writtenAt)
    (hrow : db.checkpoint = some ⟨input.checkpoint, lib.checkpointChecksum input.checkpoint⟩) :
    db.load config lib input.checkpoint.sourceFingerprint = .ok (some input.checkpoint) := by
  simp only [load, hrow, bind_eq_ok, pure_eq_ok]
  refine ⟨_, parseTimestamp_of_inEra hera _ _, ⟨⟩, ?_, rfl⟩
  -- the checks do not depend on what they call an error
  have h := validateCheckpoint_of_validateInput hvalid
  simp only [validateCheckpoint, checkStringWith, bind_eq_ok, reject_eq_ok] at h ⊢
  exact h

end Written

end Database

end NeonHearth.Discovery
