import NeonHearth.Identity.Store

/-!
# Checkpoints of the identity engine

`checkpoint` writes an engine out and `fromCheckpoint` reads it back.  The reader does not trust what
it reads: it prepares the facts again, asks of every proposal what a valid proposal has, and replays
the audit to see that it leads to the statuses of the proposals and that the edges follow from those.

`IdentityEngine.Restorable` lists what the checks ask, and `fromCheckpoint_checkpoint` says that such
an engine reads back as itself.
-/

namespace NeonHearth.Identity

open SortedMap NeonHearth.Except List

open IdentityEngine (ownerKeys)

/-- An edge with its proposal. -/
structure IdentityCheckpointEdge where
  proposalId : ℕ
  left : DeviceId
  right : DeviceId
  active : Bool

/-- An engine, written out. -/
structure IdentityCheckpoint where
  version : ℕ
  ids : List DeviceId
  facts : List (DeviceId × List EvidenceFact)
  proposals : List MergeProposal
  edges : List IdentityCheckpointEdge
  audit : List AuditRecord
  owners : List OwnerAuditRecord
  nextProposal : ℕ
  nextOwner : ℕ

/-- `IdentityEngine::checkpoint`: facts by device and edges by proposal. -/
def IdentityEngine.checkpoint (engine : IdentityEngine) : IdentityCheckpoint where
  version := 1
  ids := engine.ids
  facts := engine.facts.toList
  proposals := engine.proposals
  edges := engine.edges.toList.map fun (id, e) => ⟨id, e.a, e.b, e.active⟩
  audit := engine.audit
  owners := engine.owners
  nextProposal := engine.nextProposal
  nextOwner := engine.nextOwner

/-! ### The checks -/

/-- An id that is left is listed once. -/
def restoreId (known : List DeviceId) (id : DeviceId) : Except IdentityError (List DeviceId) := do
  reject (id ∈ known) (.invalidCheckpoint "duplicate id")
  pure (known ++ [id])

/-- The facts of a device, prepared again. -/
def restoreFacts (cfg : IdentityConfig) (ids : List DeviceId)
    (facts : SortedMap DeviceId (List EvidenceFact)) :
    DeviceId × List EvidenceFact → Except IdentityError (SortedMap DeviceId (List EvidenceFact))
  | (id, fs) => do
    reject (id ∈ ids ∨ (facts.get id).isSome ∨ cfg.maxFactsPerDevice < fs.length)
      (.invalidCheckpoint "duplicate or facts")
    let fs ← prepare cfg fs
    reject (fs.any fun f => f.expiresAt.any (· < f.observedAt)) (.invalidCheckpoint "fact time")
    pure (facts.insert id fs)

section Checks

variable (cfg : IdentityConfig) (facts : SortedMap DeviceId (List EvidenceFact))

/-- A proposal joins two known devices, for a reason. -/
def checkProposal (p : MergeProposal) : Except IdentityError Unit := do
  reject (p.id = 0 ∨ (facts.get p.left).isNone ∨ (facts.get p.right).isNone ∨ p.left = p.right)
    (.invalidCheckpoint "proposal")
  validprop p.score p.families p.reasons

/-- Proposals are numbered in order. -/
def checkSequence (last : ℕ) (p : MergeProposal) : Except IdentityError ℕ := do
  reject (p.id ≤ last) (.invalidCheckpoint "proposal sequence")
  pure p.id

/-- An edge joins known devices. -/
def restoreEdge (edges : SortedMap ℕ Edge) (e : IdentityCheckpointEdge) :
    Except IdentityError (SortedMap ℕ Edge) := do
  reject ((edges.get e.proposalId).isSome ∨ (facts.get e.left).isNone ∨ (facts.get e.right).isNone)
    (.invalidCheckpoint "edge")
  pure (edges.insert e.proposalId ⟨e.left, e.right, e.active⟩)

/-- The records of the owner are in order and in bounds. -/
def checkOwner (seq : ℕ) (o : OwnerAuditRecord) : Except IdentityError ℕ := do
  reject (o.sequence = 0 ∨ o.sequence ≤ seq ∨ (facts.get o.deviceId).isNone ∨ o.key = "" ∨
    cfg.maxKeyLen < o.key.utf8ByteSize ∨
    (o.value.any fun v => v = "" || cfg.maxValueLen < v.utf8ByteSize) ∨ o.key ∉ ownerKeys)
    (.invalidCheckpoint "owner audit")
  pure o.sequence

/-- The actions that can follow one another on a proposal. -/
def follows : ProposalStatus → ProposalStatus → Bool
  | .pending, .accepted | .pending, .rejected | .accepted, .undone => true
  | _, _ => false

/-- One action of the audit is replayed. -/
def checkAudit (proposals : List MergeProposal) (prior : SortedMap ℕ ProposalStatus)
    (a : AuditRecord) : Except IdentityError (SortedMap ℕ ProposalStatus) := do
  let p ← okOr (proposals.find? (·.id = a.proposalId)) (.invalidCheckpoint "audit target")
  reject (follows ((prior.get a.proposalId).getD .pending) a.action = false ∨
    (p.status ≠ a.action ∧ ¬(a.action = .accepted ∧ p.status = .undone)))
    (.invalidCheckpoint "audit chronology")
  pure (prior.insert a.proposalId a.action)

/-- The audit leads to the status. -/
def checkAudited (prior : SortedMap ℕ ProposalStatus) (p : MergeProposal) :
    Except IdentityError Unit :=
  reject ((prior.get p.id).getD .pending ≠ p.status) (.invalidCheckpoint "proposal audit state")

/-- An edge is that of its proposal. -/
def checkEdge (proposals : List MergeProposal) : ℕ × Edge → Except IdentityError Unit
  | (id, e) => do
    let p ← okOr (proposals.find? (·.id = id)) (.invalidCheckpoint "edge target")
    reject (e.active ≠ (p.status = .accepted : Bool) ∨ e.a ≠ p.left ∨ e.b ≠ p.right ∨
      (p.status ≠ .accepted ∧ p.status ≠ .undone)) (.invalidCheckpoint "edge status")

/-- An edge is there if the status asks for it. -/
def checkProposalEdge (edges : SortedMap ℕ Edge) (p : MergeProposal) : Except IdentityError Unit :=
  match p.status with
  | .accepted => reject (edges.get p.id).isNone (.invalidCheckpoint "accepted edge")
  | .undone => reject (edges.get p.id).isNone (.invalidCheckpoint "undone edge")
  | .pending | .rejected => reject (edges.get p.id).isSome (.invalidCheckpoint "unexpected edge")

end Checks

/-- `IdentityEngine::from_checkpoint`. -/
def IdentityEngine.fromCheckpoint (cfg : IdentityConfig) (c : IdentityCheckpoint) :
    Except IdentityError IdentityEngine :=
  match h : cfg.valid with
  | .error e => .error e
  | .ok () => do
    reject (c.version ≠ 1) (.invalidCheckpoint "version")
    reject (c.nextProposal = 0 ∨ c.nextOwner = 0 ∨ cfg.maxDevices < c.ids.length ∨
      cfg.maxDevices < c.facts.length ∨ cfg.maxProposals < c.proposals.length ∨
      cfg.maxMergeEdges < c.edges.length ∨ cfg.maxAuditRecords < c.audit.length ∨
      cfg.maxAuditRecords < c.owners.length) (.invalidCheckpoint "capacity or sequence")
    let ids ← c.ids.foldlM restoreId []
    let facts ← c.facts.foldlM (restoreFacts cfg ids) ∅
    reject (cfg.maxDevices < facts.size + ids.length) (.invalidCheckpoint "device capacity")
    c.proposals.forM (checkProposal facts)
    let last ← c.proposals.foldlM checkSequence 0
    let edges ← c.edges.foldlM (restoreEdge facts) ∅
    let seq ← c.owners.foldlM (checkOwner cfg facts) 0
    reject (c.nextOwner ≤ seq ∨ c.nextProposal ≤ last) (.invalidCheckpoint "next sequence")
    let prior ← c.audit.foldlM (checkAudit c.proposals) ∅
    c.proposals.forM (checkAudited prior)
    edges.toList.forM (checkEdge c.proposals)
    c.proposals.forM (checkProposalEdge edges)
    pure
      { cfg
        cfg_valid := h
        ids
        facts
        proposals := c.proposals
        edges
        audit := c.audit
        owners := c.owners
        nextProposal := c.nextProposal
        nextOwner := c.nextOwner }

/-! ### Restorable engines -/

/-- The ids that are left are new, and there is room for them. -/
structure IdsOk (cfg : IdentityConfig) (facts : SortedMap DeviceId (List EvidenceFact))
    (ids : List DeviceId) : Prop where
  nodup : ids.Nodup
  fresh : ∀ id ∈ ids, facts.get id = none
  room : facts.size + ids.length ≤ cfg.maxDevices

/-- A proposal between two devices, for a reason. -/
structure Proposable (p : MergeProposal) : Prop where
  ne : p.left ≠ p.right
  valid : validprop p.score p.families p.reasons = .ok ()

/-- The engine can be written out and read back. -/
structure IdentityEngine.Restorable (engine : IdentityEngine) : Prop extends
    IdentityEngine.StoreOk engine where
  ids : IdsOk engine.cfg engine.facts engine.ids
  facts_ok : ∀ {id fs}, engine.facts.get id = some fs → ∀ f ∈ fs, FactOk engine.cfg f
  proposals_ok : ∀ p ∈ engine.proposals, Proposable p
  keys_le : ∀ o ∈ engine.owners, o.key.utf8ByteSize ≤ engine.cfg.maxKeyLen

/-! ### Every check passes -/

/-- A loop over items with increasing numbers that keeps the last number. -/
theorem foldlM_increasing {α : Type} {number : α → ℕ} {check : ℕ → α → Except IdentityError ℕ}
    {l : List α} {next : ℕ} (hnext : 0 < next) (hlt : l.Pairwise (number · < number ·))
    (hbound : ∀ a ∈ l, 0 < number a ∧ number a < next)
    (hcheck : ∀ a ∈ l, ∀ last < number a, check last a = .ok (number a)) :
    ∃ last, l.foldlM check 0 = .ok last ∧ last < next := by
  have hloop : ∃ last, l.foldlM check 0 = .ok last ∧
      last < next ∧ (last = 0 ∨ ∃ q ∈ l, number q = last) := by
    refine foldlM_ok (I := fun done last => last < next ∧ (last = 0 ∨ ∃ q ∈ done, number q = last))
      ⟨hnext, .inl rfl⟩ ?_
    rintro done a rest last hl ⟨-, hlast⟩
    have hmem : a ∈ l := hl ▸ by simp
    have hstep : last < number a := by
      obtain rfl | ⟨q, hq, rfl⟩ := hlast
      · exact (hbound a hmem).1
      · rw [hl, pairwise_append] at hlt
        exact hlt.2.2 q hq a mem_cons_self
    exact ⟨number a, hcheck a hmem last hstep, (hbound a hmem).2, .inr ⟨a, by simp, rfl⟩⟩
  obtain ⟨last, hlast, hlt, -⟩ := hloop
  exact ⟨last, hlast, hlt⟩

/-- An action in the audit of a proposal follows the one before it, and it is the status of the
proposal unless that was undone later. -/
theorem follows_of_actions {status action before after}
    (h : before ++ action :: after = status.actions) :
    follows (before.getLast?.getD .pending) action = true ∧
      (status ≠ action → action = .accepted ∧ status = .undone) := by
  match before, status, h with
  | [], .accepted, h | [], .rejected, h | [], .undone, h =>
    cases h
    exact ⟨rfl, by decide⟩
  | [_], .undone, h =>
    cases h
    exact ⟨rfl, by decide⟩
  | _ :: _ :: _, .undone, h => simp [ProposalStatus.actions] at h

section Restorable

variable {engine : IdentityEngine} (h : engine.Restorable)

include h

theorem foldlM_restoreId : engine.ids.foldlM restoreId [] = .ok engine.ids := by
  obtain ⟨ids, hids, rfl⟩ : ∃ ids, engine.ids.foldlM restoreId [] = .ok ids ∧ engine.ids = ids := by
    refine foldlM_ok (I := fun done ids => done = ids) rfl ?_
    rintro done id rest ids hl rfl
    have hnodup := h.ids.nodup
    rw [hl, nodup_append] at hnodup
    have hnew : id ∉ done := fun hin => hnodup.2.2 _ hin _ mem_cons_self rfl
    exact ⟨_, by simp [restoreId, reject, hnew, bind, Except.bind, pure, Except.pure], rfl⟩
  exact hids

theorem foldlM_restoreFacts :
    engine.facts.toList.foldlM (restoreFacts engine.cfg engine.ids) ∅ = .ok engine.facts := by
  refine foldlM_toList fun {out id fs} hget hnew => ?_
  have hlength := h.facts.facts_le hget
  have hfacts := h.facts_ok hget
  simp only [restoreFacts, bind_eq_ok, pure_eq_ok, reject_eq_ok]
  refine ⟨⟨⟩, ?_, fs, prepare_of_prepared fun f hf => (hfacts f hf).toPrepared, ⟨⟩, ?_, rfl⟩
  · rintro (hmem | hsome | hlt)
    · rw [h.ids.fresh id hmem] at hget
      cases hget
    · rw [hnew] at hsome
      cases hsome
    · exact absurd hlength (not_le.2 hlt)
  · intro hbad
    obtain ⟨f, hf, hbad⟩ := any_eq_true.1 hbad
    obtain ⟨u, hu, hlt⟩ := (Option.any_eq_true ..).1 hbad
    have hle := of_decide_eq_true ((Option.all_eq_true ..).1 (hfacts f hf).time u hu)
    exact absurd hle (not_le.2 (of_decide_eq_true hlt))

theorem forM_checkProposal : engine.proposals.forM (checkProposal engine.facts) = .ok ⟨⟩ := by
  refine forM_ok fun p hp => ?_
  have hfiled := h.merges.proposals_ok p hp
  have hok := h.proposals_ok p hp
  simp only [checkProposal, bind_eq_ok, reject_eq_ok]
  refine ⟨⟨⟩, ?_, hok.valid⟩
  simp only [Option.isNone_iff_eq_none, not_or]
  exact ⟨hfiled.pos.ne', hfiled.left, hfiled.right, hok.ne⟩

theorem foldlM_checkSequence : ∃ last, engine.proposals.foldlM checkSequence 0 = .ok last ∧
    last < engine.nextProposal := by
  refine foldlM_increasing h.merges.next_pos h.merges.proposals_lt (fun p hp => ?_)
    fun p hp last hlt => ?_
  · exact ⟨(h.merges.proposals_ok p hp).pos, (h.merges.proposals_ok p hp).lt⟩
  · simp only [checkSequence, bind_eq_ok, pure_eq_ok, reject_eq_ok, and_true, not_le]
    exact ⟨⟨⟩, hlt⟩

theorem foldlM_checkOwner : ∃ seq,
    engine.owners.foldlM (checkOwner engine.cfg engine.facts) 0 = .ok seq ∧ seq < engine.nextOwner := by
  refine foldlM_increasing (by rw [h.owners.next_eq]; exact Nat.succ_pos _) h.owners.sequences_lt
    (fun o ho => h.owners.sequence_bounds ho) fun o ho seq hlt => ?_
  have hnoted := h.owners.owners_ok o ho
  have hkey : o.key ≠ "" := by
    intro hempty
    exact absurd (hempty ▸ hnoted.key) (by decide)
  simp only [checkOwner, bind_eq_ok, pure_eq_ok, reject_eq_ok, and_true,
    Option.isNone_iff_eq_none, not_or, not_not, not_le, not_lt]
  exact ⟨⟨⟩, (h.owners.sequence_bounds ho).1.ne', hlt, hnoted.device, hkey, h.keys_le o ho, hnoted.value,
    hnoted.key⟩

theorem foldlM_restoreEdge :
    (engine.edges.toList.map fun x => (⟨x.1, x.2.a, x.2.b, x.2.active⟩ : IdentityCheckpointEdge)).foldlM
      (restoreEdge engine.facts) ∅ = .ok engine.edges := by
  rw [foldlM_map]
  refine foldlM_toList fun {out id e} hget hnew => ?_
  obtain ⟨ha, hb⟩ := h.merges.ends_known hget
  simp only [restoreEdge, bind_eq_ok, pure_eq_ok, reject_eq_ok, hnew,
    Option.isNone_iff_eq_none, Option.isSome_none, Bool.false_eq_true, false_or, not_or]
  exact ⟨⟨⟩, ⟨ha, hb⟩, trivial⟩

/-- The audit of a proposal leads to its status. -/
theorem foldlM_checkAudit : ∃ prior, engine.audit.foldlM (checkAudit engine.proposals) ∅ = .ok prior ∧
    ∀ id, prior.get id = (actionsOf engine.audit id).getLast? := by
  refine foldlM_ok (I := fun done (prior : SortedMap ℕ ProposalStatus) =>
    ∀ id, prior.get id = (actionsOf done id).getLast?) (by simp [actionsOf]) ?_
  intro done a rest prior hl hprior
  have hsplit : actionsOf (done ++ a :: rest) a.proposalId =
      actionsOf done a.proposalId ++ a.action :: actionsOf rest a.proposalId := by
    simp [actionsOf]
  have hactions := h.merges.actions_eq a.proposalId
  rw [hl, hsplit] at hactions
  -- What is in the audit is about a proposal.
  obtain ⟨p, hp⟩ : ∃ p, proposalWith engine.proposals a.proposalId = some p := by
    refine Option.ne_none_iff_exists'.1 fun hnone => ?_
    rw [hnone, Option.elim_none] at hactions
    exact append_ne_nil_of_right_ne_nil _ (cons_ne_nil _ _) hactions
  rw [hp, Option.elim_some] at hactions
  refine ⟨prior.insert a.proposalId a.action, ?_, fun id => ?_⟩
  · simp only [checkAudit, bind_eq_ok, pure_eq_ok, reject_eq_ok, okOr_eq_ok, and_true]
    refine ⟨p, hp, ⟨⟩, ?_⟩
    obtain ⟨hfollows, hstatus⟩ := follows_of_actions hactions
    rw [hprior, hfollows]
    rintro (hfalse | ⟨hne, hnot⟩)
    · cases hfalse
    · exact hnot (hstatus hne)
  · rw [get_insert, hprior]
    by_cases heq : id = a.proposalId
    · subst heq
      simp [actionsOf]
    · simp [actionsOf, heq, Ne.symm heq]

theorem forM_checkAudited {prior}
    (hprior : ∀ id, prior.get id = (actionsOf engine.audit id).getLast?) :
    engine.proposals.forM (checkAudited prior) = .ok ⟨⟩ := by
  refine forM_ok fun p hp => ?_
  rw [checkAudited, hprior, h.merges.actions_eq, h.merges.proposalWith_eq_some.2 ⟨hp, rfl⟩,
    Option.elim_some, reject_eq_ok]
  cases p.status <;> decide

theorem forM_checkEdge : engine.edges.toList.forM (checkEdge engine.proposals) = .ok ⟨⟩ := by
  refine forM_ok fun x hx => ?_
  obtain ⟨id, e⟩ := x
  have hget := (h.merges.edges_eq id).symm.trans (mem_toList.1 hx)
  obtain ⟨p, hp, hedge⟩ := Option.bind_eq_some_iff.1 hget
  simp only [checkEdge, bind_eq_ok, okOr_eq_ok, reject_eq_ok]
  refine ⟨p, hp, ?_⟩
  unfold MergeProposal.edge at hedge
  split at hedge <;> cases hedge <;> simp [*]

theorem forM_checkProposalEdge :
    engine.proposals.forM (checkProposalEdge engine.edges) = .ok ⟨⟩ := by
  refine forM_ok fun p hp => ?_
  unfold checkProposalEdge
  rw [h.toStoreOk.get_edge hp]
  split <;> simp [MergeProposal.edge, *]

/-- **The round trip**: a restorable engine reads back as itself. -/
theorem IdentityEngine.fromCheckpoint_checkpoint :
    IdentityEngine.fromCheckpoint engine.cfg engine.checkpoint = .ok engine := by
  obtain ⟨last, hlast, hlastlt⟩ := foldlM_checkSequence h
  obtain ⟨seq, hseq, hseqlt⟩ := foldlM_checkOwner h
  obtain ⟨prior, hprior, hactions⟩ := foldlM_checkAudit h
  unfold IdentityEngine.fromCheckpoint
  split
  next e herror =>
    rw [engine.cfg_valid] at herror
    cases herror
  next hvalid =>
  simp only [bind_eq_ok, pure_eq_ok, reject_eq_ok]
  refine ⟨⟨⟩, not_not.2 rfl, ⟨⟩, fun hfull => ?_, engine.ids, foldlM_restoreId h, engine.facts,
    foldlM_restoreFacts h, ⟨⟩, not_lt.2 h.ids.room, ⟨⟩, forM_checkProposal h, last, hlast,
    engine.edges, foldlM_restoreEdge h, seq, hseq, ⟨⟩, not_or.2 ⟨not_le.2 hseqlt, not_le.2 hlastlt⟩,
    prior, hprior, ⟨⟩, forM_checkAudited h hactions, ⟨⟩, forM_checkEdge h, ⟨⟩,
    forM_checkProposalEdge h, rfl⟩
  have hdevices := h.ids.room
  have hproposals := h.merges.proposals_le
  have hedges := h.merges.edges_le
  have haudit := h.merges.audit_le
  have howners := h.owners.owners_le
  have hnext := h.merges.next_pos
  have hnextOwner := h.owners.next_eq
  simp only [IdentityEngine.checkpoint, length_map, length_toList] at hfull
  omega

end Restorable

end NeonHearth.Identity
