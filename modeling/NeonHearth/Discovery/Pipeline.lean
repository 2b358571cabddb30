import NeonHearth.Discovery.Store
import NeonHearth.Flow.Bandwidth
import NeonHearth.Identity.Checkpoint

/-!
# The discovery pipeline

An observation of a neighbour becomes a fact for the identity engine and evidence for the presence
engine.  The pipeline works on copies of both: it commits the observation with the checkpoint of the
copies, and only then the copies replace the engines.

What the storage does to a call is a parameter (`Faults`).  JSON of the checkpoint types and the hash of
an observation come from libraries, too (`PipelineLibraries`).
-/

namespace NeonHearth.Discovery

open NeonHearth.Except

open NeonHearth.Flow (BandwidthFrame FlowLiveAdapter LiveConfig LiveError RollupChange)
open NeonHearth.Identity (IdentityCheckpoint IdentityCheckpointEdge IdentityConfig IdentityEngine
  IdentityError Identification)
open NeonHearth.Presence (CheckpointError PresenceChanged PresenceCheckpoint PresenceCheckpointDevice
  PresenceConfig PresenceEngine PresenceError PresenceEvidenceKind PresenceTransition wholeSeconds)

/-! ### Observations and sources -/

structure DiscoveryObservation where
  sourceId : ℕ
  candidate : Option DeviceId
  facts : List EvidenceFact
  presenceSource : String
  presenceKind : PresenceEvidenceKind
  observedAt : DateTime
  validUntil : Option DateTime

inductive LinkPresenceKind where
  | present (validUntil : DateTime)
  | missed
  deriving DecidableEq

structure LinkPresenceObservation where
  sourceId : ℕ
  linkAddress : LinkAddress
  observedAt : DateTime
  kind : LinkPresenceKind
  deriving DecidableEq

structure DiscoverySource where
  id : ℕ
  name : String
  families : List EvidenceFamily
  presence : Bool

inductive DiscoveryError where
  | identity (e : IdentityError)
  | presence (e : PresenceError)
  | invalidSource
  | unboundLink
  | invalidCheckpoint
  | live (e : LiveError)
  | checkpoint (e : CheckpointError)
  deriving DecidableEq

/-- The sources by their ids. -/
structure DiscoverySources where
  byId : SortedMap ℕ DiscoverySource

/-- The name of a family in a fingerprint. -/
def familyName : EvidenceFamily → String
  | .linkLayer => "LinkLayer"
  | .addressing => "Addressing"
  | .naming => "Naming"
  | .service => "Service"
  | .cryptographic => "Cryptographic"
  | .routerHint => "RouterHint"
  | .owner => "Owner"

/-- What is hashed of a source. -/
def DiscoverySource.row (s : DiscoverySource) : String :=
  let families := (s.families.map familyName).insertionSort (· ≤ ·)
  "\x00".intercalate [toString s.id, s.name, ",".intercalate families, toString s.presence]

namespace DiscoverySources

variable (sources : DiscoverySources)

/-- The text whose hash is the fingerprint. -/
def fingerprintText : String :=
  "discovery-pipeline-v1\x00identity-default-v1\x00presence-default-v1\x00" ++
    "\n".intercalate (sources.byId.toList.map fun x => x.2.row)

/-- The presence engine trusts the sources that report presence. -/
def presenceConfig : PresenceConfig :=
  { PresenceConfig.default with
    trustedSources := (sources.byId.toList.filter fun x => x.2.presence).map fun x => x.2.name }

end DiscoverySources

/-! ### The engines -/

deriving instance DecidableEq for PresenceCheckpointDevice
deriving instance DecidableEq for PresenceCheckpoint
deriving instance DecidableEq for IdentityCheckpointEdge
deriving instance DecidableEq for IdentityCheckpoint

structure DiscoveryPipelineCheckpoint where
  version : ℕ
  sourceFingerprint : String
  identity : IdentityCheckpoint
  presence : PresenceCheckpoint
  deriving DecidableEq

/-- The libraries of the store, with the JSON of checkpoints and the hashes of the pipeline. -/
structure PipelineLibraries (Bytes Digest : Type) extends Libraries Bytes Digest where
  sha256Hex : String → String
  inputHash : LinkPresenceObservation → String → List RollupChange → Digest
  encode : DiscoveryPipelineCheckpoint → Bytes
  decode : Bytes → Option DiscoveryPipelineCheckpoint
  decode_encode : ∀ c, decode (encode c) = some c

structure DiscoveryResult where
  deviceId : DeviceId
  identification : Option Identification
  presence : List PresenceTransition
  events : List PresenceChanged

structure DiscoveryPipeline where
  identity : IdentityEngine
  presence : PresenceEngine
  sources : DiscoverySources

namespace DiscoveryPipeline

/-- `with_sources`. -/
def withSources (ids : List DeviceId) (sources : DiscoverySources) :
    Except DiscoveryError DiscoveryPipeline := do
  let identity ← (IdentityEngine.new .default ids).mapError .identity
  let presence ← (PresenceEngine.new sources.presenceConfig).mapError .presence
  pure ⟨identity, presence, sources⟩

variable {Bytes Digest : Type} (lib : PipelineLibraries Bytes Digest) (p : DiscoveryPipeline)

def checkpoint : DiscoveryPipelineCheckpoint where
  version := 1
  sourceFingerprint := lib.sha256Hex p.sources.fingerprintText
  identity := p.identity.checkpoint
  presence := p.presence.checkpoint

def fromCheckpoint (sources : DiscoverySources) (c : DiscoveryPipelineCheckpoint) :
    Except DiscoveryError DiscoveryPipeline := do
  reject (c.version ≠ 1 ∨ c.sourceFingerprint ≠ lib.sha256Hex sources.fingerprintText)
    .invalidCheckpoint
  let identity ← (IdentityEngine.fromCheckpoint .default c.identity).mapError .identity
  let presence ← (PresenceEngine.fromCheckpoint sources.presenceConfig c.presence).mapError .presence
  pure ⟨identity, presence, sources⟩

/-- `stage`: the engines after an observation, and what they made of it. -/
def stage (input : DiscoveryObservation) (arrival : DateTime) :
    Except DiscoveryError (DiscoveryPipeline × DiscoveryResult) := do
  let source ← okOr (p.sources.byId.get input.sourceId) .invalidSource
  reject (input.candidate.isSome ∧ input.facts ≠ []) .invalidSource
  reject (source.presence = false ∨ input.presenceSource ≠ source.name ∨
    ∃ f ∈ input.facts, f.source ≠ source.name ∨ f.family ∉ source.families) .invalidSource
  let observed := p.identity.observeAt input.candidate input.facts input.observedAt
  let id ← observed.2.mapError .identity
  let (transitions, presence) ← (p.presence.ingestEvents
    ⟨id, source.name, input.presenceKind, input.observedAt, input.validUntil⟩ arrival).mapError .presence
  let identification ← (observed.1.identificationAt id input.observedAt).mapError .identity
  pure (⟨observed.1, presence, p.sources⟩,
    ⟨id, identification, transitions, transitions.map .ofTransition⟩)

end DiscoveryPipeline

/-! ### The durable pipeline -/

structure PersistentDiscoveryPipeline where
  pipeline : DiscoveryPipeline
  live : FlowLiveAdapter
  /-- Of the repository of checkpoints. -/
  config : M2StateConfig
  /-- Of the repository of rollups. -/
  flowMaxBatch : ℕ
  sequence : ℕ

/-- What a service opens its pipeline with, apart from the ids for new devices. -/
structure Setup where
  config : M2StateConfig
  sources : DiscoverySources
  live : LiveConfig
  flowMaxBatch : ℕ
  maxLiveRows : ℕ

inductive DiscoveryPipelineOutcome where
  | committed (result : DiscoveryResult) (payload : Option BandwidthFrame) (commitSequence : ℕ)
  | duplicate (resultSummary : DiscoverySummary) (resnapshotRequired : Bool)

/-- Which accesses to the storage fail during a call. -/
structure Faults where
  firstRead : Bool
  lookup : Bool
  secondRead : Bool
  transaction : Option Database.Fault
  lastRead : Bool

/-- Nothing fails. -/
def Faults.none : Faults := ⟨false, false, false, .none, false⟩

/-- A pipeline in memory with its database. -/
structure Service (Bytes Digest : Type) where
  memory : PersistentDiscoveryPipeline
  db : Database Bytes Digest

/-- The answer to an observation, with the service after it. -/
abbrev Answer (Bytes Digest : Type) := DiscoveryPipelineOutcome × Service Bytes Digest

namespace PersistentDiscoveryPipeline

variable {Bytes Digest : Type} [DecidableEq Digest] (lib : PipelineLibraries Bytes Digest)
  (setup : Setup) (db : Database Bytes Digest)

/-- The engines and the sequence number that a database holds, or new ones. -/
def restore (ids : List DeviceId) : Except DiscoveryError (DiscoveryPipeline × ℕ) := do
  let stored ← (db.load setup.config lib.toLibraries
    (lib.sha256Hex setup.sources.fingerprintText)).mapError .checkpoint
  match stored with
  | some stored => do
    let checkpoint ← okOr (lib.decode stored.bytes) .invalidCheckpoint
    let pipeline ← DiscoveryPipeline.fromCheckpoint lib setup.sources checkpoint
    pure (pipeline, stored.commitSequence)
  | none => do
    let pipeline ← DiscoveryPipeline.withSources ids setup.sources
    pure (pipeline, 0)

/-- `PersistentDiscoveryPipeline::open`. -/
def openOn (ids : List DeviceId) : Except DiscoveryError PersistentDiscoveryPipeline := do
  let (pipeline, sequence) ← restore lib setup db ids
  reject (setup.flowMaxBatch = 0) (.checkpoint (.invalid (flowMessage .invalid)))
  let live ← (FlowLiveAdapter.new setup.live setup.maxLiveRows).mapError .live
  pure ⟨pipeline, live, setup.config, setup.flowMaxBatch, sequence⟩

end PersistentDiscoveryPipeline

/-- The device that a change of the rollups is about. -/
def changedDevice : RollupChange → DeviceId
  | .upsert key _ | .correction key _ | .retire key _ => key.dims.device

/-- The number 0.9. -/
def linkConfidence : F32 := ⟨false, 0x3F666666⟩

/-- The fact that a neighbour has an address. -/
def linkFact (o : LinkPresenceObservation) (source : String) : EvidenceFact where
  family := .linkLayer
  source
  key := "mac"
  value := o.linkAddress.toText
  confidence := linkConfidence
  observedAt := o.observedAt
  expiresAt := none
  ownerConfirmed := false

/-- The observation of a neighbour for the engines: only the first one of an address is a fact. -/
def linkInput (o : LinkPresenceObservation) (source : String) (binding : Option DeviceId) :
    Except DiscoveryError DiscoveryObservation :=
  match o.kind with
  | .present validUntil => .ok
    { sourceId := o.sourceId
      candidate := binding
      facts := if binding = none then [linkFact o source] else []
      presenceSource := source
      presenceKind := .neighborCache
      observedAt := o.observedAt
      validUntil := some validUntil }
  | .missed => do
    let id ← okOr binding .unboundLink
    pure
      { sourceId := o.sourceId
        candidate := some id
        facts := []
        presenceSource := source
        presenceKind := .confirmationFailure
        observedAt := o.observedAt
        validUntil := none }

/-- The end of the support comes after the observation, at a whole second. -/
def LinkPresenceKind.isTimely (kind : LinkPresenceKind) (observedAt : DateTime) : Bool :=
  match kind with
  | .present validUntil => observedAt < validUntil ∧ wholeSeconds validUntil
  | .missed => true

namespace Service

variable {Bytes Digest : Type} (lib : PipelineLibraries Bytes Digest) (s : Service Bytes Digest)

/-- The name of a source that sees neighbours. -/
def linkSource (sourceId : ℕ) : Except DiscoveryError String := do
  let source ← okOr (s.memory.pipeline.sources.byId.get sourceId) .invalidSource
  reject (source.presence = false ∨ .linkLayer ∉ source.families) .invalidSource
  pure source.name

/-- What an observation of a neighbour is for the engines. -/
def linkObservation (o : LinkPresenceObservation) (source : String) :
    Except DiscoveryError DiscoveryObservation := do
  let binding ← (s.db.lookupLinkLayerDevice s.memory.config o.linkAddress source).mapError .checkpoint
  linkInput o source binding

/-- The commit of an observation. -/
def commitInput (staged : DiscoveryPipeline) (result : DiscoveryResult) (facts : List EvidenceFact)
    (source : String) (inputHash : Digest) (arrival : DateTime) : CommitInput Bytes Digest :=
  let sequence := s.memory.sequence + 1
  let checkpoint := staged.checkpoint lib
  { checkpoint :=
      { formatVersion := 1
        bytes := lib.encode checkpoint
        sourceFingerprint := checkpoint.sourceFingerprint
        commitSequence := sequence
        writtenAt := arrival }
    devices := [
      { deviceId := result.deviceId
        firstSeenAt := (facts.map (·.observedAt)).min?.getD arrival
        lastSeenAt := arrival
        ownerName := none
        ownerType := none
        ownerConfirmed := false }]
    evidence := facts.map (⟨result.deviceId, ·⟩)
    transitions := result.presence.map .ofTransition
    discovery := some
      { inputHash
        source
        resultSummary :=
          { version := 1
            deviceId := result.deviceId
            commitSequence := sequence
            eventCount := result.events.length
            presenceTransitionCount := result.presence.length }
        committedAt := arrival } }

variable [DecidableEq Digest]

/-- The answer to an observation that has been committed before. -/
def existing (fault : Bool) (inputHash : Digest) :
    Except DiscoveryError (Option DiscoveryPipelineOutcome) := do
  reject (fault = true) (.checkpoint .storage)
  let found ← (s.db.discoveryCommit s.memory.config lib.toLibraries inputHash).mapError .checkpoint
  pure (found.map fun c => .duplicate c.resultSummary true)

/-- An observation that has been committed before is answered, and any other one goes on. -/
def unlessExisting (fault : Bool) (inputHash : Digest)
    (next : Except DiscoveryError (Answer Bytes Digest)) :
    Except DiscoveryError (Answer Bytes Digest) := do
  match ← s.existing lib fault inputHash with
  | some outcome => pure (outcome, s)
  | none => next

variable [DecidableEq Bytes]

/-- The end of an observation: the engines advance once the commit has succeeded. -/
def commitStaged (input : DiscoveryObservation) (changes : List RollupChange) (arrival : DateTime)
    (inputHash : Digest) (faults : Faults) (staged : DiscoveryPipeline × DiscoveryResult)
    (live : FlowLiveAdapter × Option BandwidthFrame) :
    Except DiscoveryError (Answer Bytes Digest) := do
  reject (2 ^ 63 ≤ s.memory.sequence + 1) .invalidCheckpoint
  let sequence := s.memory.sequence + 1
  let commit :=
    s.commitInput lib staged.1 staged.2 input.facts input.presenceSource inputHash arrival
  match s.db.commitWithFlow s.memory.config lib.toLibraries faults.transaction commit changes
      s.memory.flowMaxBatch with
  | .ok db => pure (.committed staged.2 live.2 sequence,
      ⟨{ s.memory with pipeline := staged.1, live := live.1, sequence }, db⟩)
  | .error (.conflict reason) => do
    -- another writer may have committed the same observation
    let found ← s.existing lib faults.lastRead inputHash
    let outcome ← okOr found (.checkpoint (.conflict reason))
    pure (outcome, s)
  | .error e => .error (.checkpoint e)

/-- An observation that has not been committed before. -/
def observeNew (input : DiscoveryObservation) (changes : List RollupChange) (tickMs : ℕ)
    (arrival : DateTime) (inputHash : Digest) (faults : Faults) :
    Except DiscoveryError (Answer Bytes Digest) := do
  let staged ← s.memory.pipeline.stage input arrival
  reject (∃ c ∈ changes, changedDevice c ≠ staged.2.deviceId) .invalidSource
  let live ← (s.memory.live.stagedPayload tickMs changes arrival).mapError .live
  s.commitStaged lib input changes arrival inputHash faults staged live

/-- `observe_with_flow_hashed`. -/
def observeWithFlowHashed (input : DiscoveryObservation) (changes : List RollupChange) (tickMs : ℕ)
    (arrival : DateTime) (inputHash : Digest) (faults : Faults) :
    Except DiscoveryError (Answer Bytes Digest) :=
  s.unlessExisting lib faults.secondRead inputHash
    (s.observeNew lib input changes tickMs arrival inputHash faults)

/-- `observe_link_presence_with_flow`: the answer with the service after it.  A failed call leaves the
pipeline and the database as they were. -/
def observeLinkPresenceWithFlow (o : LinkPresenceObservation) (changes : List RollupChange)
    (tickMs : ℕ) (arrival : DateTime) (faults : Faults) :
    Except DiscoveryError (Answer Bytes Digest) := do
  reject (¬wholeSeconds o.observedAt ∨ ¬wholeSeconds arrival ∨ arrival < o.observedAt ∨
    o.kind.isTimely o.observedAt = false) .invalidSource
  let source ← s.linkSource o.sourceId
  let inputHash := lib.inputHash o source changes
  s.unlessExisting lib faults.firstRead inputHash do
    reject (faults.lookup = true) (.checkpoint .storage)
    let input ← s.linkObservation o source
    s.observeWithFlowHashed lib input changes tickMs arrival inputHash faults

/-! ### What a call does -/

section Calls

variable {lib s} {o : LinkPresenceObservation} {changes : List RollupChange} {tickMs : ℕ}
  {arrival : DateTime} {faults : Faults} {outcome : DiscoveryPipelineOutcome}
  {s' : Service Bytes Digest} {input : DiscoveryObservation} {inputHash : Digest}

/-- A new observation has been staged and committed, and the engines have advanced. -/
structure Commits (lib : PipelineLibraries Bytes Digest) (s : Service Bytes Digest)
    (input : DiscoveryObservation) (changes : List RollupChange) (tickMs : ℕ) (arrival : DateTime)
    (inputHash : Digest) (result : DiscoveryResult) (s' : Service Bytes Digest) : Prop where
  new : s.db.commitRow inputHash = none
  staged : s.memory.pipeline.stage input arrival = .ok (s'.memory.pipeline, result)
  live : ∃ payload, s.memory.live.stagedPayload tickMs changes arrival = .ok (s'.memory.live, payload)
  written : ∃ fault, s.db.commitWithFlow s.memory.config lib.toLibraries fault
    (s.commitInput lib s'.memory.pipeline result input.facts input.presenceSource inputHash arrival)
    changes s.memory.flowMaxBatch = .ok s'.db
  memory : s'.memory = { s.memory with
    pipeline := s'.memory.pipeline, live := s'.memory.live, sequence := s.memory.sequence + 1 }

variable {fault : Bool}

omit [DecidableEq Bytes] in
theorem existing_of_some (h : s.existing lib fault inputHash = .ok (some outcome)) :
    ∃ summary, outcome = .duplicate summary true := by
  obtain ⟨_, -, h⟩ := bind_eq_ok.1 h
  obtain ⟨found, -, h⟩ := bind_eq_ok.1 h
  obtain ⟨c, -, rfl⟩ := Option.map_eq_some_iff.1 (pure_eq_ok.1 h)
  exact ⟨_, rfl⟩

omit [DecidableEq Bytes] in
/-- An observation without an answer has no row. -/
theorem commitRow_of_existing (h : s.existing lib fault inputHash = .ok none) :
    s.db.commitRow inputHash = none := by
  obtain ⟨_, -, h⟩ := bind_eq_ok.1 h
  obtain ⟨found, hfound, h⟩ := bind_eq_ok.1 h
  obtain rfl := Option.map_eq_none_iff.1 (pure_eq_ok.1 h)
  have hcommit := mapError_eq_ok.1 hfound
  unfold Database.discoveryCommit at hcommit
  split at hcommit
  · assumption
  · obtain ⟨_, -, hsome⟩ := map_eq_ok.1 hcommit
    cases hsome

omit [DecidableEq Bytes] in
theorem unlessExisting_cases {next}
    (h : s.unlessExisting lib fault inputHash next = .ok (outcome, s')) :
    (∃ summary, outcome = .duplicate summary true) ∧ s' = s ∨
      s.db.commitRow inputHash = none ∧ next = .ok (outcome, s') := by
  obtain ⟨found, hfound, h⟩ := bind_eq_ok.1 h
  cases found with
  | some answer =>
    cases h
    exact .inl ⟨existing_of_some hfound, rfl⟩
  | none => exact .inr ⟨commitRow_of_existing hfound, h⟩

theorem observeNew_cases
    (h : s.observeNew lib input changes tickMs arrival inputHash faults = .ok (outcome, s'))
    (hnew : s.db.commitRow inputHash = none) :
    (∃ summary, outcome = .duplicate summary true) ∧ s' = s ∨
      ∃ result payload, outcome = .committed result payload (s.memory.sequence + 1) ∧
        s.Commits lib input changes tickMs arrival inputHash result s' := by
  obtain ⟨⟨staged, result⟩, hstage, h⟩ := bind_eq_ok.1 h
  obtain ⟨_, -, h⟩ := bind_eq_ok.1 h
  obtain ⟨⟨live, payload⟩, hlive, h⟩ := bind_eq_ok.1 h
  obtain ⟨_, -, h⟩ := bind_eq_ok.1 h
  dsimp only at h
  split at h
  · next db hwrite =>
    cases h
    exact .inr ⟨result, payload, rfl, hnew, hstage, ⟨payload, mapError_eq_ok.1 hlive⟩,
      ⟨_, hwrite⟩, rfl⟩
  · obtain ⟨found, hfound, h⟩ := bind_eq_ok.1 h
    obtain ⟨answer, hanswer, h⟩ := bind_eq_ok.1 h
    cases h
    rw [okOr_eq_ok.1 hanswer] at hfound
    exact .inl ⟨existing_of_some hfound, rfl⟩
  · cases h

/-- **What a call does**: a successful call answers with the earlier result and changes nothing, or it
commits a new observation. -/
theorem observeLinkPresenceWithFlow_cases
    (h : s.observeLinkPresenceWithFlow lib o changes tickMs arrival faults = .ok (outcome, s')) :
    (∃ summary, outcome = .duplicate summary true) ∧ s' = s ∨
      ∃ source input result payload, s.linkSource o.sourceId = .ok source ∧
        s.linkObservation o source = .ok input ∧
        outcome = .committed result payload (s.memory.sequence + 1) ∧
        s.Commits lib input changes tickMs arrival (lib.inputHash o source changes) result s' := by
  obtain ⟨_, -, h⟩ := bind_eq_ok.1 h
  obtain ⟨source, hsource, h⟩ := bind_eq_ok.1 h
  obtain hsame | ⟨-, h⟩ := unlessExisting_cases h
  · exact .inl hsame
  obtain ⟨_, -, h⟩ := bind_eq_ok.1 h
  obtain ⟨input, hinput, h⟩ := bind_eq_ok.1 h
  obtain hsame | ⟨hnew, h⟩ := unlessExisting_cases h
  · exact .inl hsame
  obtain hsame | ⟨result, payload, houtcome, hcommits⟩ := observeNew_cases h hnew
  · exact .inl hsame
  · exact .inr ⟨source, input, result, payload, hsource, hinput, houtcome, hcommits⟩

end Calls

end Service

end NeonHearth.Discovery
