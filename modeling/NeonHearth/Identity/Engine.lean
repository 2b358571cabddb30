import NeonHearth.Data.Search
import NeonHearth.Data.SortedMap
import NeonHearth.Identity.Facts

/-!
# The identity engine

The identity engine decides which facts are about the same device.  New facts join the device they
match, if there is exactly one and two families agree; otherwise they become a new device, with a
merge proposal for every device they match.  An accepted proposal is an edge between two devices, and
the devices that edges connect (`component`) count as one, under the least of their ids.

Most functions return the engine after a successful call, and a failed call leaves the engine as it
was.  Storing facts is different: expired facts are dropped before the room is checked, so
`observeAt` and `addFactsAt` return an engine in any case.  Ids of proposals and of owner records are
64 bit numbers.
-/

namespace NeonHearth.Identity

inductive ProposalStatus where
  | pending
  | accepted
  | rejected
  | undone
  deriving DecidableEq

inductive Decision where
  | accept
  | reject
  deriving Repr

structure MergeProposal where
  id : ℕ
  left : DeviceId
  right : DeviceId
  score : F32
  families : List EvidenceFamily
  reasons : List String
  status : ProposalStatus
  deriving DecidableEq

structure AuditRecord where
  proposalId : ℕ
  action : ProposalStatus
  deriving DecidableEq

structure OwnerAuditRecord where
  sequence : ℕ
  deviceId : DeviceId
  key : String
  value : Option String
  recordedAt : DateTime
  deriving DecidableEq

structure Edge where
  a : DeviceId
  b : DeviceId
  active : Bool

structure IdentityEngine where
  cfg : IdentityConfig
  cfg_valid : cfg.valid = .ok ()
  /-- The ids that new devices get, the next one first. -/
  ids : List DeviceId
  facts : SortedMap DeviceId (List EvidenceFact)
  /-- By increasing id. -/
  proposals : List MergeProposal
  edges : SortedMap ℕ Edge
  audit : List AuditRecord
  owners : List OwnerAuditRecord
  nextProposal : ℕ
  nextOwner : ℕ

namespace IdentityEngine

/-- `IdentityEngine::new`. -/
def new (cfg : IdentityConfig) (ids : List DeviceId) : Except IdentityError IdentityEngine :=
  match h : cfg.valid with
  | .error e => .error e
  | .ok () => .ok
    { cfg
      cfg_valid := h
      ids := ids.take cfg.maxDevices
      facts := ∅
      proposals := []
      edges := ∅
      audit := []
      owners := []
      nextProposal := 1
      nextOwner := 1 }

variable (engine : IdentityEngine)

/-- The facts stored for a device. -/
def factsOf (id : DeviceId) : List EvidenceFact := (engine.facts.get id).getD []

variable {engine} in
theorem mem_factsOf {id f} :
    f ∈ engine.factsOf id ↔ ∃ fs, engine.facts.get id = some fs ∧ f ∈ fs := by
  cases h : engine.facts.get id <;> simp [factsOf, h]

/-! ### Components -/

/-- The other ends of the active edges at a device. -/
def neighbours (x : DeviceId) : List DeviceId :=
  engine.edges.toList.filterMap fun (_, e) =>
    if !e.active then none else if e.a = x then some e.b else if e.b = x then some e.a else none

/-- The devices that count as one with a device.  No search sees more devices than the given one and
the two ends of every edge. -/
def component (id : DeviceId) : Except IdentityError (List DeviceId) := do
  reject (engine.facts.get id).isNone .deviceNotFound
  reject (engine.cfg.maxCandidateWork <
    min (engine.facts.size * max engine.edges.size 1) (2 ^ 64 - 1)) (.capacity "graph work")
  let seen := search engine.neighbours (2 * engine.edges.size + 1) [] [id]
  pure (seen.insertionSort (· ≤ ·))

/-- The id that stands for a component; a component is never empty. -/
def canon (c : List DeviceId) : DeviceId := c.min?.getD 0

def resolve (id : DeviceId) : Except IdentityError DeviceId := do
  let c ← engine.component id
  pure (canon c)

def components : Except IdentityError (List (List DeviceId)) := do
  reject (engine.cfg.maxMergeEdges < engine.edges.size) (.capacity "graph")
  (engine.facts.toList.map Prod.fst).foldlM (fun out id =>
    if id ∈ out.flatten then pure out
    else do
      let c ← engine.component id
      pure (out ++ [c])) []

/-- The facts of a component. -/
def refs (c : List DeviceId) : Except IdentityError (List EvidenceFact) := do
  reject (engine.cfg.maxCandidateWork < (c.map fun d => (engine.factsOf d).length).sum)
    (.capacity "work")
  pure (c.flatMap engine.factsOf)

/-! ### Storing facts -/

/-- The facts of a device without those that have expired. -/
def retainLive (facts : SortedMap DeviceId (List EvidenceFact)) (now : DateTime) (d : DeviceId) :
    SortedMap DeviceId (List EvidenceFact) :=
  match facts.get d with
  | some fs => facts.insert d (fs.filter (live · now))
  | none => facts

def pruneExpired (id : DeviceId) (now : DateTime) : Except IdentityError IdentityEngine := do
  let c ← engine.component id
  pure { engine with facts := c.foldl (retainLive · now) engine.facts }

/-- How many facts of some devices have not expired. -/
def liveCount (c : List DeviceId) (now : DateTime) : ℕ :=
  (c.map fun d => ((engine.factsOf d).filter (live · now)).length).sum

def preadd (id : DeviceId) (n : ℕ) (now : DateTime) : Except IdentityError Unit := do
  let c ← engine.component id
  reject (engine.cfg.maxFactsPerDevice < engine.liveCount c now + n) (.capacity "facts")

/-- The end of a successful store: the facts are added to those of the device. -/
def extend (id : DeviceId) (incoming : List EvidenceFact) (now : DateTime) :
    Except IdentityError IdentityEngine := do
  engine.preadd id incoming.length now
  let stored ← okOr (engine.facts.get id) .deviceNotFound
  pure { engine with facts := engine.facts.insert id (stored ++ incoming) }

/-- Facts for a device: expired facts are dropped for good, then the room is checked. -/
def store (id : DeviceId) (incoming : List EvidenceFact) (now : DateTime) :
    IdentityEngine × Except IdentityError Unit :=
  match engine.pruneExpired id now with
  | .error e => (engine, .error e)
  | .ok pruned =>
    match pruned.extend id incoming now with
    | .error e => (pruned, .error e)
    | .ok stored => (stored, .ok ())

def addFactsAt (id : DeviceId) (incoming : List EvidenceFact) (now : DateTime) :
    IdentityEngine × Except IdentityError Unit :=
  match prepare engine.cfg incoming with
  | .error e => (engine, .error e)
  | .ok incoming => engine.store id incoming now

/-! ### Proposals -/

def preprops (n : ℕ) : Except IdentityError Unit :=
  reject (engine.cfg.maxProposals < engine.proposals.length + n ∨
    0 < n ∧ 2 ^ 64 ≤ engine.nextProposal + n) (.capacity "proposals")

/-- `insert_prop`; the proposal gets the next id. -/
def insertProp (a b : DeviceId) (score : F32) (families : List EvidenceFamily)
    (reasons : List String) : IdentityEngine :=
  { engine with
    nextProposal := engine.nextProposal + 1
    proposals := engine.proposals ++ [{
      id := engine.nextProposal
      left := a
      right := b
      score
      families := sortfam families
      reasons := sortReasons reasons
      status := .pending }] }

def proposeMerge (a b : DeviceId) (score : F32) (families : List EvidenceFamily)
    (reasons : List String) : Except IdentityError (IdentityEngine × ℕ) := do
  let _ ← engine.resolve a
  let _ ← engine.resolve b
  validprop score families reasons
  engine.preprops 1
  pure (engine.insertProp a b score families reasons, engine.nextProposal)

/-- The proposals with the status of the first one changed that has the id and the old status. -/
def setStatus (proposals : List MergeProposal) (id : ℕ) (old status : ProposalStatus) :
    List MergeProposal :=
  proposals.replaceF fun p => if p.id = id ∧ p.status = old then some { p with status } else none

def decide (id : ℕ) (d : Decision) : Except IdentityError IdentityEngine := do
  reject (engine.cfg.maxAuditRecords ≤ engine.audit.length) (.capacity "audit")
  let p ← okOr (engine.proposals.find? fun p => p.id = id ∧ p.status = .pending) .proposalNotFound
  match d with
  | .accept =>
    reject (engine.cfg.maxMergeEdges ≤ engine.edges.size) (.capacity "edges")
    pure { engine with
      edges := engine.edges.insert id ⟨p.left, p.right, true⟩
      proposals := setStatus engine.proposals id .pending .accepted
      audit := engine.audit ++ [⟨id, .accepted⟩] }
  | .reject =>
    pure { engine with
      proposals := setStatus engine.proposals id .pending .rejected
      audit := engine.audit ++ [⟨id, .rejected⟩] }

def undo (id : ℕ) : Except IdentityError IdentityEngine := do
  reject (engine.cfg.maxAuditRecords ≤ engine.audit.length) (.capacity "audit")
  let _ ← okOr (engine.proposals.find? fun p => p.id = id ∧ p.status = .accepted) .cannotUndo
  let edges :=
    match engine.edges.get id with
    | some e => engine.edges.insert id { e with active := false }
    | none => engine.edges
  pure { engine with
    edges
    proposals := setStatus engine.proposals id .accepted .undone
    audit := engine.audit ++ [⟨id, .undone⟩] }

/-! ### Observations -/

/-- The components that new facts match. -/
def findMatches (incoming : List EvidenceFact) (now : DateTime) :
    Except IdentityError (List (DeviceId × Match)) := do
  reject (engine.cfg.maxFactsPerDevice < incoming.length ∨ engine.cfg.maxDevices ≤ engine.facts.size)
    (.capacity "devices or facts")
  let comps ← engine.components
  let (_, found) ← comps.foldlM (fun (work, found) c => do
    let refs ← engine.refs c
    let work := work + refs.length * incoming.length
    reject (engine.cfg.maxCandidateWork < work) (.capacity "work")
    let m := matching refs incoming now engine.cfg
    pure (work, if m.any then found ++ [(canon c, m)] else found)) (0, [])
  pure (found.insertionSort fun x y => x.1 ≤ y.1)

/-- The proposals for a new device. -/
def proposeAll (fresh : DeviceId) (found : List (DeviceId × Match)) : IdentityEngine :=
  found.foldl (fun engine x => engine.insertProp x.1 fresh x.2.score x.2.families x.2.reasons) engine

/-- A new device, with a proposal for every match. -/
def enroll (incoming : List EvidenceFact) (found : List (DeviceId × Match)) :
    Except IdentityError (IdentityEngine × DeviceId) := do
  engine.preprops found.length
  let fresh ← okOr engine.ids.head? .idSourceExhausted
  reject (engine.facts.get fresh).isSome (.invalidInput "duplicate id")
  let enrolled :=
    { engine with ids := engine.ids.tail, facts := engine.facts.insert fresh incoming }
  pure (enrolled.proposeAll fresh found, fresh)

/-- The only match, if it is strong enough to be automatic. -/
def automatic : List (DeviceId × Match) → Option DeviceId
  | [(root, m)] => if m.auto then some root else none
  | _ => none

/-- New facts about a device that is not named. -/
def observeUnknown (incoming : List EvidenceFact) (now : DateTime) :
    IdentityEngine × Except IdentityError DeviceId :=
  match engine.findMatches incoming now with
  | .error e => (engine, .error e)
  | .ok found =>
    match automatic found with
    | some root =>
      let (stored, result) := engine.store root incoming now
      (stored, result.map fun _ => root)
    | none =>
      match engine.enroll incoming found with
      | .error e => (engine, .error e)
      | .ok (enrolled, fresh) => (enrolled, .ok fresh)

/-- New facts, about a device that is named or not. -/
def observeAt (id : Option DeviceId) (incoming : List EvidenceFact) (now : DateTime) :
    IdentityEngine × Except IdentityError DeviceId :=
  match prepare engine.cfg incoming with
  | .error e => (engine, .error e)
  | .ok incoming =>
    match id with
    | none => engine.observeUnknown incoming now
    | some device =>
      match engine.resolve device with
      | .error e => (engine, .error e)
      | .ok root =>
        let (stored, result) := engine.store device incoming now
        (stored, result.map fun _ => root)

/-! ### The owner -/

/-- The keys under which an owner can say something. -/
def ownerKeys : List String := ["vendor", "class", "model", "firmware", "name", "room"]

def owner (id : DeviceId) (key : String) (value : Option String) (at' : DateTime) :
    Except IdentityError IdentityEngine := do
  let root ← engine.resolve id
  reject (key ∉ ownerKeys ∨
    value.any fun x => x = "" || engine.cfg.maxValueLen < x.utf8ByteSize) (.invalidInput "owner fact")
  reject (engine.cfg.maxAuditRecords ≤ engine.owners.length) (.capacity "owner audit")
  reject (2 ^ 64 ≤ engine.nextOwner + 1) (.capacity "owner sequence")
  pure { engine with
    owners := engine.owners ++ [⟨engine.nextOwner, root, key, value, at'⟩]
    nextOwner := engine.nextOwner + 1 }

def setOwnerFact (id : DeviceId) (key value : String) (at' : DateTime) :
    Except IdentityError IdentityEngine :=
  engine.owner id key (some value) at'

def clearOwnerFactAt (id : DeviceId) (key : String) (at' : DateTime) :
    Except IdentityError IdentityEngine :=
  engine.owner id key none at'

/-! ### Eviction -/

/-- The component is forgotten: all its facts have expired and are old, the owner has not said
anything about it, and no proposal waits for a decision. -/
def evicts (now cutoff : DateTime) (c : List DeviceId) : Bool :=
  (c.all fun d => (engine.factsOf d).all fun f => !live f now && f.observedAt < cutoff) &&
  !(engine.owners.any fun o => o.deviceId ∈ c) &&
  !(engine.proposals.any fun p => p.status = .pending && (p.left ∈ c || p.right ∈ c))

/-- The engine without some devices. -/
def forget (gone : List DeviceId) : IdentityEngine :=
  let dropped := (engine.proposals.filter fun p => p.left ∈ gone || p.right ∈ gone).map (·.id)
  { engine with
    facts := engine.facts.filter fun d _ => d ∉ gone
    edges := engine.edges.filter fun _ e => e.a ∉ gone && e.b ∉ gone
    proposals := engine.proposals.filter fun p => p.id ∉ dropped
    audit := engine.audit.filter fun a => a.proposalId ∉ dropped }

def evictStaleAt (now : DateTime) (retention : ℤ) :
    Except IdentityError (IdentityEngine × List DeviceId) := do
  let cutoff ← okOr (now.checkedSubSigned retention) (.invalidInput "retention")
  let comps ← engine.components
  let evicted := (comps.filter (engine.evicts now cutoff)).flatten
  if evicted = [] then pure (engine, evicted)
  else pure (engine.forget evicted, evicted.insertionSort (· ≤ ·))

end IdentityEngine

/-! ### Identification -/

structure Identification where
  vendor : String
  deviceClass : String
  model : Option String
  firmware : Option String
  confidence : F32
  families : List EvidenceFamily
  deriving DecidableEq

/-- The fact with the highest confidence for a key, and the last value among those. -/
def pick (active : List EvidenceFact) (key : String) : Option EvidenceFact :=
  (active.filter (·.key = key)).foldl (fun best f =>
    match best with
    | none => some f
    | some b =>
      if f.confidence.totalPlace < b.confidence.totalPlace ∨
          f.confidence.totalPlace = b.confidence.totalPlace ∧ f.value < b.value then some b
      else some f) none

/-- What the facts and the owner say that a device is. -/
def identify (threshold : F32) (active : List EvidenceFact) (own : String → Option String) :
    Option Identification := do
  let av := pick active "vendor"
  let ac := pick active "class"
  let vendor ← own "vendor" <|> av.map (·.value)
  let deviceClass ← own "class" <|> ac.map (·.value)
  guard ¬((own "vendor").isNone ∧ av.all (·.confidence < threshold) ∨
    (own "class").isNone ∧ ac.all (·.confidence < threshold))
  guard ¬((own "vendor").isNone ∧ active.any fun f =>
    f.key = "vendor" ∧ f.value ≠ vendor ∧ threshold ≤ f.confidence)
  guard ¬((own "class").isNone ∧ active.any fun f =>
    f.key = "class" ∧ f.value ≠ deviceClass ∧ threshold ≤ f.confidence)
  let families := sortfam ((active.filter fun f =>
    (f.key = "vendor" ∧ f.value = vendor ∨ f.key = "class" ∧ f.value = deviceClass) ∧
      threshold ≤ f.confidence).map (·.family))
  guard ¬(((own "vendor").isNone ∨ (own "class").isNone) ∧ families.length < 2)
  some
    { vendor
      deviceClass
      model := own "model" <|> (pick active "model").map (·.value)
      firmware := own "firmware" <|> (pick active "firmware").map (·.value)
      confidence :=
        if (own "vendor").isSome ∧ (own "class").isSome then .one
        else F32.min (av.elim .one (·.confidence)) (ac.elim .one (·.confidence))
      families }

namespace IdentityEngine

/-- The last thing that the owner said about the devices of a component under a key. -/
def own (engine : IdentityEngine) (c : List DeviceId) (key : String) : Option String :=
  (engine.owners.reverse.find? fun o => o.deviceId ∈ c ∧ o.key = key).bind (·.value)

def identificationAt (engine : IdentityEngine) (id : DeviceId) (now : DateTime) :
    Except IdentityError (Option Identification) := do
  let c ← engine.component id
  let refs ← engine.refs c
  pure (identify engine.cfg.autoIdentificationThreshold (refs.filter (comparable now)) (engine.own c))

end IdentityEngine

end NeonHearth.Identity
