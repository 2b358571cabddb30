import NeonHearth.Identity.Components
import NeonHearth.System.Machine

/-!
# What the identity engine stores

Facts, proposals, edges, audit and owner records are separate collections that refer to each other.
`StoreOk` says how: the status of a proposal decides whether it has an edge and which actions the audit
records for it, everything refers to devices that have facts, and nothing exceeds its capacity.

* `MergesOk`, `OwnersOk` : what `StoreOk` says about merges and about the owner, with what each kind of
  change keeps.
-/

namespace NeonHearth.Identity

open List Option IdentityEngine

open IdentityEngine (ownerKeys)

/-! ### Calls -/

/-- The calls that can change an engine. -/
inductive IdentityCall where
  | observeAt (id : Option DeviceId) (facts : List EvidenceFact) (now : DateTime)
  | addFactsAt (id : DeviceId) (facts : List EvidenceFact) (now : DateTime)
  | proposeMerge (a b : DeviceId) (score : F32) (families : List EvidenceFamily)
    (reasons : List String)
  | decide (id : ℕ) (d : Decision)
  | undo (id : ℕ)
  | setOwnerFact (id : DeviceId) (key value : String) (at' : DateTime)
  | clearOwnerFactAt (id : DeviceId) (key : String) (at' : DateTime)
  | evictStaleAt (now : DateTime) (retention : ℤ)

/-- The facts that a call brings, and when. -/
def IdentityCall.brings : IdentityCall → Option (List EvidenceFact × DateTime)
  | .observeAt _ facts now | .addFactsAt _ facts now => some (facts, now)
  | _ => none

/-- What the owner says with a call: about which device, under which key, what, and when. -/
def IdentityCall.states : IdentityCall → Option (DeviceId × String × Option String × DateTime)
  | .setOwnerFact id key value at' => some (id, key, some value, at')
  | .clearOwnerFactAt id key at' => some (id, key, none, at')
  | _ => none

namespace IdentityEngine

/-- The engine after a call that changes nothing when it fails. -/
def orSame (engine : IdentityEngine) (result : Except IdentityError IdentityEngine) :
    IdentityEngine :=
  match result with
  | .ok engine' => engine'
  | .error _ => engine

/-- The engine after a call, successful or not. -/
def after (engine : IdentityEngine) : IdentityCall → IdentityEngine
  | .observeAt id facts now => (engine.observeAt id facts now).1
  | .addFactsAt id facts now => (engine.addFactsAt id facts now).1
  | .proposeMerge a b score families reasons =>
    engine.orSame ((engine.proposeMerge a b score families reasons).map Prod.fst)
  | .decide id d => engine.orSame (engine.decide id d)
  | .undo id => engine.orSame (engine.undo id)
  | .setOwnerFact id key value at' => engine.orSame (engine.setOwnerFact id key value at')
  | .clearOwnerFactAt id key at' => engine.orSame (engine.clearOwnerFactAt id key at')
  | .evictStaleAt now retention => engine.orSame ((engine.evictStaleAt now retention).map Prod.fst)

/-- The engine after a call, if that succeeds. -/
def attempt (engine : IdentityEngine) : IdentityCall → Except IdentityError IdentityEngine
  | .observeAt id facts now =>
    let (engine', result) := engine.observeAt id facts now
    result.map fun _ => engine'
  | .addFactsAt id facts now =>
    let (engine', result) := engine.addFactsAt id facts now
    result.map fun _ => engine'
  | .proposeMerge a b score families reasons =>
    (engine.proposeMerge a b score families reasons).map Prod.fst
  | .decide id d => engine.decide id d
  | .undo id => engine.undo id
  | .setOwnerFact id key value at' => engine.setOwnerFact id key value at'
  | .clearOwnerFactAt id key at' => engine.clearOwnerFactAt id key at'
  | .evictStaleAt now retention => (engine.evictStaleAt now retention).map Prod.fst

end IdentityEngine

def identityMachine : Machine IdentityEngine IdentityCall where
  init engine := ∃ cfg ids, new cfg ids = .ok engine
  step engine call := some (engine.after call)

/-! ### The invariant -/

/-- The actions in the audit of a proposal with a status. -/
def ProposalStatus.actions : ProposalStatus → List ProposalStatus
  | .pending => []
  | .accepted => [.accepted]
  | .rejected => [.rejected]
  | .undone => [.accepted, .undone]

/-- The edge of a proposal. -/
def MergeProposal.edge (p : MergeProposal) : Option Edge :=
  match p.status with
  | .accepted => some ⟨p.left, p.right, true⟩
  | .undone => some ⟨p.left, p.right, false⟩
  | .pending | .rejected => none

variable {p : MergeProposal}

theorem MergeProposal.edge_ends {e : Edge} (h : p.edge = some e) :
    e.a = p.left ∧ e.b = p.right := by
  unfold MergeProposal.edge at h
  split at h <;> cases h <;> exact ⟨rfl, rfl⟩

/-- The actions that the audit records for a proposal. -/
def actionsOf (audit : List AuditRecord) (id : ℕ) : List ProposalStatus :=
  (audit.filter (·.proposalId = id)).map (·.action)

/-- The proposal with an id. -/
def proposalWith (proposals : List MergeProposal) (id : ℕ) : Option MergeProposal :=
  proposals.find? (·.id = id)

/-- A proposal in its place: its id was given out, and its devices have facts. -/
structure Filed (facts : SortedMap DeviceId (List EvidenceFact)) (next : ℕ) (p : MergeProposal) :
    Prop where
  pos : 0 < p.id
  lt : p.id < next
  left : facts.get p.left ≠ none
  right : facts.get p.right ≠ none

/-- An owner record in its place. -/
structure Noted (cfg : IdentityConfig) (facts : SortedMap DeviceId (List EvidenceFact))
    (o : OwnerAuditRecord) : Prop where
  device : facts.get o.deviceId ≠ none
  key : o.key ∈ ownerKeys
  value : ¬(o.value.any fun v => v = "" || cfg.maxValueLen < v.utf8ByteSize) = true

/-- The facts keep to their capacities. -/
structure FactsOk (cfg : IdentityConfig) (facts : SortedMap DeviceId (List EvidenceFact)) : Prop where
  devices_le : facts.size ≤ cfg.maxDevices
  facts_le : ∀ {id fs}, facts.get id = some fs → fs.length ≤ cfg.maxFactsPerDevice

/-- Edges and audit follow from the proposals. -/
structure MergesOk (cfg : IdentityConfig) (facts : SortedMap DeviceId (List EvidenceFact))
    (proposals : List MergeProposal) (next : ℕ) (edges : SortedMap ℕ Edge)
    (audit : List AuditRecord) : Prop where
  proposals_lt : proposals.Pairwise (·.id < ·.id)
  proposals_ok : ∀ p ∈ proposals, Filed facts next p
  proposals_le : proposals.length ≤ cfg.maxProposals
  next_pos : 0 < next
  edges_eq : ∀ id, edges.get id = (proposalWith proposals id).bind (·.edge)
  edges_le : edges.size ≤ cfg.maxMergeEdges
  actions_eq : ∀ id, actionsOf audit id = (proposalWith proposals id).elim [] (·.status.actions)
  audit_le : audit.length ≤ cfg.maxAuditRecords

/-- The owner records are numbered, and about devices with facts. -/
structure OwnersOk (cfg : IdentityConfig) (facts : SortedMap DeviceId (List EvidenceFact))
    (owners : List OwnerAuditRecord) (next : ℕ) : Prop where
  owners_ok : ∀ o ∈ owners, Noted cfg facts o
  owners_le : owners.length ≤ cfg.maxAuditRecords
  sequences : owners.map (·.sequence) = List.range' 1 owners.length
  next_eq : next = owners.length + 1

/-- The store is in order. -/
structure IdentityEngine.StoreOk (engine : IdentityEngine) : Prop where
  facts : FactsOk engine.cfg engine.facts
  merges : MergesOk engine.cfg engine.facts engine.proposals engine.nextProposal engine.edges
    engine.audit
  owners : OwnersOk engine.cfg engine.facts engine.owners engine.nextOwner

/-! ### Proposals -/

section Proposals

variable {proposals : List MergeProposal} {q : MergeProposal}

theorem eq_of_id (h : proposals.Pairwise (·.id < ·.id)) (hp : p ∈ proposals) (hq : q ∈ proposals)
    (hid : p.id = q.id) : p = q :=
  inj_on_of_nodup_map (pairwise_map.2 (h.imp ne_of_lt)) hp hq hid

theorem find_eq_some (h : proposals.Pairwise (·.id < ·.id)) {id : ℕ} :
    proposals.find? (·.id = id) = some p ↔ p ∈ proposals ∧ p.id = id := by
  constructor
  · intro hfind
    exact ⟨mem_of_find?_eq_some hfind, by simpa using find?_some hfind⟩
  · rintro ⟨hp, rfl⟩
    obtain ⟨q, hq⟩ : ∃ q, proposals.find? (·.id = p.id) = some q :=
      isSome_iff_exists.1 (find?_isSome.2 ⟨p, hp, decide_eq_true rfl⟩)
    have hid : q.id = p.id := by simpa using find?_some hq
    rw [hq, eq_of_id h (mem_of_find?_eq_some hq) hp hid]

/-- Replacing the first item of a kind that occurs once. -/
theorem replaceF_eq_map {α : Type} {f} {l : List α}
    (h : l.Pairwise fun x y => f x = none ∨ f y = none) :
    l.replaceF f = l.map fun x => (f x).getD x := by
  induction l with
  | nil => rfl
  | cons x l ih =>
    obtain ⟨hx, hl⟩ := pairwise_cons.1 h
    rw [replaceF, map_cons]
    cases hfx : f x with
    | none => exact congrArg (x :: ·) (ih hl)
    | some y =>
      have hsame : ∀ z ∈ l, (f z).getD z = z := by
        intro z hz
        rw [(hx z hz).resolve_left (by simp [hfx]), getD_none]
      rw [map_congr_left hsame, List.map_id']
      rfl

/-- A proposal with its status changed, if it is the one. -/
def restatus (id : ℕ) (old status : ProposalStatus) (p : MergeProposal) : MergeProposal :=
  if p.id = id ∧ p.status = old then { p with status } else p

variable {id : ℕ} {old status : ProposalStatus}

@[simp]
theorem restatus_id : (restatus id old status p).id = p.id := by
  unfold restatus
  split <;> rfl

theorem setStatus_eq_map (h : proposals.Pairwise (·.id < ·.id)) :
    setStatus proposals id old status = proposals.map (restatus id old status) := by
  rw [setStatus, replaceF_eq_map]
  · refine map_congr_left fun p _ => ?_
    rw [restatus, apply_ite (getD · p), getD_some, getD_none]
  · refine h.imp fun {p q} hlt => ?_
    by_cases hp : p.id = id
    · exact .inr (if_neg fun hq => hlt.ne (hp.trans hq.1.symm))
    · exact .inl (if_neg fun hp' => hp hp'.1)

theorem find_map_restatus (i : ℕ) :
    (proposals.map (restatus id old status)).find? (·.id = i) =
      (proposals.find? (·.id = i)).map (restatus id old status) := by
  rw [find?_map]
  congr 2
  funext p
  simp

end Proposals

/-! ### What the operations keep -/

section MergesOk

variable {cfg : IdentityConfig} {facts facts' : SortedMap DeviceId (List EvidenceFact)}
  {proposals : List MergeProposal} {next : ℕ} {edges edges' : SortedMap ℕ Edge}
  {audit : List AuditRecord}

section

variable (h : MergesOk cfg facts proposals next edges audit)
include h

theorem MergesOk.mono (hknown : ∀ d, facts.get d ≠ none → facts'.get d ≠ none) :
    MergesOk cfg facts' proposals next edges audit :=
  { h with
    proposals_ok p hp :=
      have hfiled := h.proposals_ok p hp
      ⟨hfiled.pos, hfiled.lt, hknown _ hfiled.left, hknown _ hfiled.right⟩ }

theorem MergesOk.proposalWith_eq_some {id : ℕ}
    : proposalWith proposals id = some p ↔ p ∈ proposals ∧ p.id = id :=
  find_eq_some h.proposals_lt

theorem MergesOk.ends_known {id : ℕ} {e : Edge}
    (he : edges.get id = some e) : facts.get e.a ≠ none ∧ facts.get e.b ≠ none := by
  rw [h.edges_eq] at he
  obtain ⟨p, hp, hedge⟩ := bind_eq_some_iff.1 he
  have hfiled := h.proposals_ok p (h.proposalWith_eq_some.1 hp).1
  obtain ⟨ha, hb⟩ := MergeProposal.edge_ends hedge
  exact ⟨ha ▸ hfiled.left, hb ▸ hfiled.right⟩

theorem MergesOk.insert (hid : p.id = next)
    (hstatus : p.status = .pending) (hleft : facts.get p.left ≠ none)
    (hright : facts.get p.right ≠ none) (hroom : proposals.length + 1 ≤ cfg.maxProposals) :
    MergesOk cfg facts (proposals ++ [p]) (next + 1) edges audit := by
  have hwith : ∀ id, proposalWith (proposals ++ [p]) id =
      (proposalWith proposals id).or (if next = id then some p else none) := by
    intro id
    simp [proposalWith, find?_append, find?_singleton, hid]
  -- The new id is not taken, and a pending proposal has neither edge nor audit.
  have hnext : proposalWith proposals next = none := by
    refine find?_eq_none.2 fun q hq heq => ?_
    exact absurd (of_decide_eq_true heq) (h.proposals_ok q hq).lt.ne
  constructor
  case proposals_lt =>
    rw [pairwise_append]
    refine ⟨h.proposals_lt, pairwise_singleton _ _, fun q hq r hr => ?_⟩
    rw [mem_singleton.1 hr, hid]
    exact (h.proposals_ok q hq).lt
  case proposals_ok =>
    refine forall_mem_concat.2 ⟨fun q hq => ?_, hid ▸ h.next_pos, hid ▸ Nat.lt_succ_self _, hleft,
      hright⟩
    have hfiled := h.proposals_ok q hq
    exact { hfiled with lt := hfiled.lt.trans (Nat.lt_succ_self _) }
  case proposals_le => simpa using hroom
  case next_pos => exact Nat.succ_pos _
  case edges_eq =>
    intro id
    rw [h.edges_eq, hwith]
    split_ifs with heq
    · subst heq
      simp [hnext, MergeProposal.edge, hstatus]
    · simp
  case edges_le => exact h.edges_le
  case actions_eq =>
    intro id
    rw [h.actions_eq, hwith]
    split_ifs with heq
    · subst heq
      simp [hnext, ProposalStatus.actions, hstatus]
    · simp
  case audit_le => exact h.audit_le

theorem MergesOk.record {status} (hp : p ∈ proposals)
    (hactions : p.status.actions ++ [status] = status.actions) (hedge : ∀ i, edges'.get i =
      if i = p.id then ({ p with status } : MergeProposal).edge else edges.get i)
    (hedges : edges'.size ≤ cfg.maxMergeEdges) (haudit : audit.length < cfg.maxAuditRecords) :
    MergesOk cfg facts (setStatus proposals p.id p.status status) next edges'
      (audit ++ [⟨p.id, status⟩]) := by
  rw [setStatus_eq_map h.proposals_lt]
  have hfind : proposalWith proposals p.id = some p := h.proposalWith_eq_some.2 ⟨hp, rfl⟩
  have hself : restatus p.id p.status status p = { p with status } := if_pos ⟨rfl, rfl⟩
  have hother : ∀ i, i ≠ p.id → (proposalWith proposals i).map (restatus p.id p.status status) =
      proposalWith proposals i := by
    intro i hi
    cases hq : proposalWith proposals i with
    | none => rfl
    | some q =>
      have hne : q.id ≠ p.id := (h.proposalWith_eq_some.1 hq).2.trans_ne hi
      exact congrArg some (if_neg fun hq => hne hq.1)
  have hwith : ∀ i, proposalWith (proposals.map (restatus p.id p.status status)) i =
      if i = p.id then some { p with status } else proposalWith proposals i := by
    intro i
    rw [proposalWith, find_map_restatus, ← proposalWith]
    split_ifs with hi
    · rw [hi, hfind, map_some, hself]
    · exact hother i hi
  constructor
  case proposals_lt => exact pairwise_map.2 (by simpa using h.proposals_lt)
  case proposals_ok =>
    intro q' hq'
    obtain ⟨q, hq, rfl⟩ := mem_map.1 hq'
    have hfiled := h.proposals_ok q hq
    unfold restatus
    split_ifs
    · exact { hfiled with }
    · exact hfiled
  case proposals_le => simpa using h.proposals_le
  case next_pos => exact h.next_pos
  case edges_eq =>
    intro i
    rw [hedge, hwith, h.edges_eq]
    split_ifs <;> rfl
  case edges_le => exact hedges
  case actions_eq =>
    intro i
    have happend : actionsOf (audit ++ [⟨p.id, status⟩]) i =
        actionsOf audit i ++ if i = p.id then [status] else [] := by
      by_cases hi : i = p.id
      · simp [actionsOf, hi]
      · simp [actionsOf, hi, Ne.symm hi]
    rw [happend, hwith, h.actions_eq]
    split_ifs with hi
    · rw [hi, hfind]
      exact hactions
    · rw [append_nil]
  case audit_le => simpa using haudit

end

theorem get_filter_ne_none {gone : List DeviceId} {d} :
    (facts.filter fun d _ => d ∉ gone).get d ≠ none ↔ facts.get d ≠ none ∧ d ∉ gone := by
  rw [SortedMap.get_filter]
  cases facts.get d <;> simp

theorem MergesOk.forget (h : MergesOk cfg facts proposals next edges audit) {gone : List DeviceId}
    {dropped}
    (hdropped : dropped = (proposals.filter fun p => p.left ∈ gone || p.right ∈ gone).map (·.id)) :
    MergesOk cfg (facts.filter fun d _ => d ∉ gone) (proposals.filter fun p => p.id ∉ dropped) next
      (edges.filter fun _ e => e.a ∉ gone && e.b ∉ gone)
      (audit.filter fun a => a.proposalId ∉ dropped) := by
  have hmem : ∀ p ∈ proposals, p.id ∈ dropped ↔ p.left ∈ gone ∨ p.right ∈ gone := by
    intro p hp
    simp only [hdropped, List.mem_map, mem_filter, Bool.or_eq_true, decide_eq_true_eq]
    constructor
    · rintro ⟨q, ⟨hq, hgone⟩, hid⟩
      rwa [← eq_of_id h.proposals_lt hq hp hid]
    · intro hgone
      exact ⟨p, ⟨hp, hgone⟩, rfl⟩
  have hwith : ∀ i, proposalWith (proposals.filter fun p => p.id ∉ dropped) i =
      if i ∈ dropped then none else proposalWith proposals i := by
    intro i
    rw [proposalWith, find?_filter]
    split_ifs with hi
    · refine find?_eq_none.2 fun p _ hp => ?_
      simp only [decide_not, decide_eq_true_eq] at hp
      grind
    · refine congrArg (find? · proposals) (funext fun p => ?_)
      by_cases hp : p.id = i
      · simp [hp, hi]
      · simp [hp]
  constructor
  case proposals_lt => exact h.proposals_lt.filter _
  case proposals_ok =>
    intro p hp
    obtain ⟨hp, hkept⟩ := mem_filter.1 hp
    have hfiled := h.proposals_ok p hp
    have hends := not_or.1 ((hmem p hp).not.1 (of_decide_eq_true hkept))
    exact ⟨hfiled.pos, hfiled.lt, get_filter_ne_none.2 ⟨hfiled.left, hends.1⟩,
      get_filter_ne_none.2 ⟨hfiled.right, hends.2⟩⟩
  case proposals_le => exact (length_filter_le _ _).trans h.proposals_le
  case next_pos => exact h.next_pos
  case edges_eq =>
    intro i
    rw [SortedMap.get_filter, h.edges_eq, hwith]
    cases hfind : proposalWith proposals i with
    | none => simp
    | some p =>
      obtain ⟨hp, rfl⟩ := h.proposalWith_eq_some.1 hfind
      have hgone := hmem p hp
      rw [bind_some]
      cases he : p.edge with
      | none => split_ifs <;> simp [he]
      | some e =>
        obtain ⟨ha, hb⟩ := MergeProposal.edge_ends he
        rw [filter_some, ha, hb]
        split_ifs <;> grind
  case edges_le => exact (SortedMap.size_filter_le _ _).trans h.edges_le
  case actions_eq =>
    intro i
    rw [hwith, actionsOf, List.filter_filter]
    split_ifs with hi
    · rw [elim_none, map_eq_nil_iff, filter_eq_nil_iff]
      intro a _ ha
      simp only [decide_not, Bool.and_eq_true, decide_eq_true_eq] at ha
      grind
    · rw [← h.actions_eq, actionsOf]
      refine congrArg (map _) (filter_congr fun a _ => ?_)
      by_cases ha : a.proposalId = i
      · simp [ha, hi]
      · simp [ha]
  case audit_le => exact (length_filter_le _ _).trans h.audit_le

end MergesOk

section OwnersOk

variable {cfg : IdentityConfig} {facts facts' : SortedMap DeviceId (List EvidenceFact)}
  {owners : List OwnerAuditRecord} {next : ℕ}

section

variable (h : OwnersOk cfg facts owners next)
include h

theorem OwnersOk.mono
    (hknown : ∀ o ∈ owners, facts.get o.deviceId ≠ none → facts'.get o.deviceId ≠ none) :
    OwnersOk cfg facts' owners next :=
  { h with
    owners_ok o ho :=
      have hnoted := h.owners_ok o ho
      ⟨hknown o ho hnoted.device, hnoted.key, hnoted.value⟩ }

theorem OwnersOk.sequences_lt : owners.Pairwise (·.sequence < ·.sequence) := by
  have hlt : (owners.map (·.sequence)).Pairwise (· < ·) := h.sequences ▸ pairwise_lt_range'
  exact pairwise_map.1 hlt

theorem OwnersOk.sequence_bounds {o} (ho : o ∈ owners) : 0 < o.sequence ∧ o.sequence < next := by
  have hmem : o.sequence ∈ range' 1 owners.length := h.sequences ▸ mem_map_of_mem ho
  rw [mem_range'_1] at hmem
  rw [h.next_eq]
  omega

theorem OwnersOk.append {o} (hsequence : o.sequence = next) (hnoted : Noted cfg facts o)
    (hroom : owners.length < cfg.maxAuditRecords) : OwnersOk cfg facts (owners ++ [o]) (next + 1) where
  owners_ok := forall_mem_concat.2 ⟨h.owners_ok, hnoted⟩
  owners_le := by simpa using hroom
  sequences := by
    rw [map_append, h.sequences, map_singleton, hsequence, h.next_eq, length_append,
      length_singleton, range'_concat]
    simp [Nat.add_comm]
  next_eq := by simp [h.next_eq]

end

end OwnersOk

/-- The edge of a proposal is where it belongs. -/
theorem IdentityEngine.StoreOk.get_edge {engine : IdentityEngine} (h : engine.StoreOk)
    (hp : p ∈ engine.proposals) : engine.edges.get p.id = p.edge := by
  rw [h.merges.edges_eq, h.merges.proposalWith_eq_some.2 ⟨hp, rfl⟩, bind_some]

end NeonHearth.Identity
