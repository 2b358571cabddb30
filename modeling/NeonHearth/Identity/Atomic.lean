import NeonHearth.Data.InPlace
import NeonHearth.Identity.Restore

/-!
# Failed calls of the identity engine

The calls change the engine in place.  Here they are written as the source runs them, statement by
statement (`Call`), and shown to do what the model of the other modules says (`exec_run`).

A failed call changes nothing, except for one that brings facts to a device that has no room for them:
by the time the room is checked, what has expired is already gone (`fullDevice_changed`).  So a call is
atomic just when there is room for its facts, or nothing has expired (`unchanged_iff_takesIn`).
-/

namespace NeonHearth.Identity

open NeonHearth.Except Option

/-- A call that changes the engine in place. -/
abbrev Call (α : Type) : Type := InPlace IdentityEngine IdentityError α

open InPlace

namespace Call

open IdentityEngine (retainLive automatic setStatus ownerKeys)

/-- `prune_expired`. -/
def pruneExpired (id : DeviceId) (now : DateTime) : Call PUnit := do
  let engine ← get
  let c ← check (engine.component id)
  c.forM fun d => modify fun engine => { engine with facts := retainLive engine.facts now d }

/-- The end of a store: `preadd`, and the facts are added to those of the device. -/
def extend (id : DeviceId) (incoming : List EvidenceFact) (now : DateTime) : Call PUnit := do
  let engine ← get
  check (engine.preadd id incoming.length now)
  let stored ← check (okOr (engine.facts.get id) .deviceNotFound)
  set { engine with facts := engine.facts.insert id (stored ++ incoming) }

def store (id : DeviceId) (incoming : List EvidenceFact) (now : DateTime) : Call PUnit := do
  pruneExpired id now
  extend id incoming now

/-- `add_facts_at`. -/
def addFactsAt (id : DeviceId) (incoming : List EvidenceFact) (now : DateTime) : Call PUnit := do
  let engine ← get
  let incoming ← check (prepare engine.cfg incoming)
  store id incoming now

/-- `insert_prop`. -/
def insertProp (a b : DeviceId) (score : F32) (families : List EvidenceFamily)
    (reasons : List String) : Call ℕ := do
  let engine ← get
  let id := engine.nextProposal
  modify fun engine => { engine with nextProposal := engine.nextProposal + 1 }
  modify fun engine => { engine with
    proposals := engine.proposals ++ [⟨id, a, b, score, sortfam families, sortReasons reasons,
      .pending⟩] }
  return id

/-- The end of `observe_at` for a new device. -/
def enroll (incoming : List EvidenceFact) (found : List (DeviceId × Match)) : Call DeviceId := do
  let engine ← get
  check (engine.preprops found.length)
  let fresh ← check (okOr engine.ids.head? .idSourceExhausted)
  check (reject (engine.facts.get fresh).isSome (.invalidInput "duplicate id"))
  modify fun engine => { engine with ids := engine.ids.tail }
  modify fun engine => { engine with facts := engine.facts.insert fresh incoming }
  found.forM fun x => do
    let _ ← insertProp x.1 fresh x.2.score x.2.families x.2.reasons
  return fresh

/-- `observe_at`. -/
def observeAt (id : Option DeviceId) (incoming : List EvidenceFact) (now : DateTime) :
    Call DeviceId := do
  let engine ← get
  let incoming ← check (prepare engine.cfg incoming)
  match id with
  | some device =>
    let root ← check (engine.resolve device)
    store device incoming now
    return root
  | none =>
    let found ← check (engine.findMatches incoming now)
    match automatic found with
    | some root =>
      store root incoming now
      return root
    | none => enroll incoming found

/-- `propose_merge`. -/
def proposeMerge (a b : DeviceId) (score : F32) (families : List EvidenceFamily)
    (reasons : List String) : Call ℕ := do
  let engine ← get
  let _ ← check (engine.resolve a)
  let _ ← check (engine.resolve b)
  check (validprop score families reasons)
  check (engine.preprops 1)
  insertProp a b score families reasons

/-- The end of `decide` and `undo`. -/
def record (id : ℕ) (old status : ProposalStatus) : Call PUnit := do
  modify fun engine => { engine with proposals := setStatus engine.proposals id old status }
  modify fun engine => { engine with audit := engine.audit ++ [⟨id, status⟩] }

/-- `decide`. -/
def decide (id : ℕ) (d : Decision) : Call PUnit := do
  let engine ← get
  check (reject (engine.cfg.maxAuditRecords ≤ engine.audit.length) (.capacity "audit"))
  let p ← check (okOr (engine.proposals.find? fun p => p.id = id ∧ p.status = .pending)
    .proposalNotFound)
  match d with
  | .accept =>
    check (reject (engine.cfg.maxMergeEdges ≤ engine.edges.size) (.capacity "edges"))
    modify fun engine => { engine with edges := engine.edges.insert id ⟨p.left, p.right, true⟩ }
    record id .pending .accepted
  | .reject => record id .pending .rejected

/-- `undo`. -/
def undo (id : ℕ) : Call PUnit := do
  let engine ← get
  check (reject (engine.cfg.maxAuditRecords ≤ engine.audit.length) (.capacity "audit"))
  let _ ← check (okOr (engine.proposals.find? fun p => p.id = id ∧ p.status = .accepted) .cannotUndo)
  match engine.edges.get id with
  | some e =>
    modify fun engine => { engine with edges := engine.edges.insert id { e with active := false } }
  | none => pure ⟨⟩
  record id .accepted .undone

/-- `owner`, for `set_owner_fact` and `clear_owner_fact_at`. -/
def owner (id : DeviceId) (key : String) (value : Option String) (at' : DateTime) : Call PUnit := do
  let engine ← get
  let root ← check (engine.resolve id)
  check (reject (key ∉ ownerKeys ∨
    value.any fun x => x = "" || engine.cfg.maxValueLen < x.utf8ByteSize) (.invalidInput "owner fact"))
  check (reject (engine.cfg.maxAuditRecords ≤ engine.owners.length) (.capacity "owner audit"))
  check (reject (2 ^ 64 ≤ engine.nextOwner + 1) (.capacity "owner sequence"))
  modify fun engine => { engine with
    owners := engine.owners ++ [⟨engine.nextOwner, root, key, value, at'⟩] }
  modify fun engine => { engine with nextOwner := engine.nextOwner + 1 }

/-- `evict_stale_at`. -/
def evictStaleAt (now : DateTime) (retention : ℤ) : Call (List DeviceId) := do
  let engine ← get
  let cutoff ← check (okOr (now.checkedSubSigned retention) (.invalidInput "retention"))
  let comps ← check engine.components
  let evicted := (comps.filter (engine.evicts now cutoff)).flatten
  if evicted = [] then return evicted
  else
    modify fun engine => { engine with facts := engine.facts.filter fun d _ => d ∉ evicted }
    modify fun engine => { engine with
      edges := engine.edges.filter fun _ e => e.a ∉ evicted && e.b ∉ evicted }
    let engine ← get
    let dropped :=
      (engine.proposals.filter fun p => p.left ∈ evicted || p.right ∈ evicted).map (·.id)
    modify fun engine => { engine with proposals := engine.proposals.filter fun p => p.id ∉ dropped }
    modify fun engine => { engine with audit := engine.audit.filter fun a => a.proposalId ∉ dropped }
    return evicted.insertionSort (· ≤ ·)

end Call

/-- A call, without its result. -/
def IdentityCall.run : IdentityCall → Call PUnit
  | .observeAt id facts now => do let _ ← Call.observeAt id facts now
  | .addFactsAt id facts now => Call.addFactsAt id facts now
  | .proposeMerge a b score families reasons => do
    let _ ← Call.proposeMerge a b score families reasons
  | .decide id d => Call.decide id d
  | .undo id => Call.undo id
  | .setOwnerFact id key value at' => Call.owner id key (some value) at'
  | .clearOwnerFactAt id key at' => Call.owner id key none at'
  | .evictStaleAt now retention => do let _ ← Call.evictStaleAt now retention

/-! ### Calls do what the model says -/

namespace Call

open IdentityEngine (retainLive automatic)

section

variable (engine : IdentityEngine)
include engine

theorem pruneExpired_atomic (id now) :
    Atomic (pruneExpired id now) engine ((engine.pruneExpired id now).map fun e => (⟨⟩, e)) := by
  rw [IdentityEngine.pruneExpired, Except.map_bind]
  refine .get_bind (.check_bind fun c _ => ?_)
  -- the devices of the component one after another, and all of them at once
  have hloop : ∀ (c : List DeviceId) (engine : IdentityEngine),
      c.foldl (fun engine d => { engine with facts := retainLive engine.facts now d }) engine =
        { engine with facts := c.foldl (retainLive · now) engine.facts } := by
    intro c
    induction c with
    | nil => exact fun _ => rfl
    | cons d c ih => exact fun engine => ih _
  have hpass : ∀ (d : DeviceId) (engine : IdentityEngine),
      exec (modify fun engine => { engine with facts := retainLive engine.facts now d } : Call PUnit)
        engine = (.ok ⟨⟩, { engine with facts := retainLive engine.facts now d }) := fun _ _ => rfl
  rw [Atomic, exec_forM hpass, hloop]
  rfl

section

variable (id : DeviceId) (incoming : List EvidenceFact) (now : DateTime)
include id incoming now

theorem extend_atomic : Atomic (extend id incoming now) engine
      ((engine.extend id incoming now).map fun e => (⟨⟩, e)) := by
  rw [IdentityEngine.extend, Except.map_bind]
  refine .get_bind (.check_bind fun _ _ => ?_)
  rw [Except.map_bind]
  exact .check_bind fun _ _ => rfl

/-- A store that fails after the first change keeps that change. -/
theorem exec_store : exec (store id incoming now) engine = (engine.store id incoming now).swap := by
  have hprune := pruneExpired_atomic engine id now
  rw [store, exec_bind, hprune, IdentityEngine.store]
  cases engine.pruneExpired id now with
  | error e => rfl
  | ok pruned =>
    have hextend := extend_atomic pruned id incoming now
    dsimp only [Except.map, outcome]
    rw [hextend]
    cases pruned.extend id incoming now with
    | error | ok => rfl

theorem exec_addFactsAt :
    exec (addFactsAt id incoming now) engine = (engine.addFactsAt id incoming now).swap := by
  rw [addFactsAt, exec_bind_ok (exec_get _), exec_bind, exec_check, IdentityEngine.addFactsAt]
  cases prepare engine.cfg incoming with
  | error e => rfl
  | ok prepared => exact exec_store engine id prepared now

end

theorem enroll_atomic (incoming found) :
    Atomic (enroll incoming found) engine ((engine.enroll incoming found).map Prod.swap) := by
  rw [IdentityEngine.enroll, Except.map_bind]
  refine .get_bind (.check_bind fun _ _ => ?_)
  rw [Except.map_bind]
  refine .check_bind fun fresh _ => ?_
  rw [Except.map_bind]
  refine .check_bind fun _ _ => ?_
  have hpass : ∀ (x : DeviceId × Match) (engine : IdentityEngine),
      exec (do let _ ← insertProp x.1 fresh x.2.score x.2.families x.2.reasons) engine =
        (.ok ⟨⟩, engine.insertProp x.1 fresh x.2.score x.2.families x.2.reasons) := fun _ _ => rfl
  rw [Atomic, exec_bind_ok (exec_modify ..), exec_bind_ok (exec_modify ..),
    exec_bind_ok (exec_forM hpass ..)]
  rfl

theorem exec_store_bind (id root : DeviceId) (incoming now) :
    exec (do store id incoming now; return root) engine =
      ((engine.store id incoming now).2.map fun _ => root, (engine.store id incoming now).1) := by
  rw [exec_bind, exec_store]
  cases h : (engine.store id incoming now).2 with
  | error | ok => simp [Prod.swap, h, Except.map]

theorem exec_observeAt (id incoming now) :
    exec (observeAt id incoming now) engine = (engine.observeAt id incoming now).swap := by
  rw [observeAt, exec_bind_ok (exec_get _), exec_bind, exec_check, IdentityEngine.observeAt]
  cases prepare engine.cfg incoming with
  | error e => rfl
  | ok prepared =>
    cases id with
    | some device =>
      dsimp only
      rw [exec_bind, exec_check]
      cases engine.resolve device with
      | error e => rfl
      | ok root => exact exec_store_bind engine device root prepared now
    | none =>
      dsimp only
      rw [exec_bind, exec_check, IdentityEngine.observeUnknown]
      cases engine.findMatches prepared now with
      | error e => rfl
      | ok found =>
        dsimp only
        cases automatic found with
        | some root => exact exec_store_bind engine root root prepared now
        | none =>
          have henroll := enroll_atomic engine prepared found
          dsimp only
          rw [henroll]
          cases engine.enroll prepared found with
          | error | ok => rfl

theorem proposeMerge_atomic (a b) (score : F32) (families reasons) :
    Atomic (proposeMerge a b score families reasons) engine
      ((engine.proposeMerge a b score families reasons).map Prod.swap) := by
  simp only [IdentityEngine.proposeMerge, Except.map_bind]
  exact .get_bind (.check_bind fun _ _ => .check_bind fun _ _ => .check_bind fun _ _ =>
    .check_bind fun _ _ => rfl)

theorem decide_atomic (id : ℕ) (d) :
    Atomic (decide id d) engine ((engine.decide id d).map fun e => (⟨⟩, e)) := by
  simp only [IdentityEngine.decide, Except.map_bind]
  refine .get_bind (.check_bind fun _ _ => .check_bind fun p _ => ?_)
  cases d with
  | accept =>
    rw [Except.map_bind]
    exact .check_bind fun _ _ => rfl
  | reject => rfl

theorem undo_atomic (id : ℕ) : Atomic (undo id) engine ((engine.undo id).map fun e => (⟨⟩, e)) := by
  simp only [IdentityEngine.undo, Except.map_bind]
  refine .get_bind (.check_bind fun _ _ => .check_bind fun p _ => ?_)
  cases engine.edges.get id <;> rfl

theorem owner_atomic (id) (key : String) (value at') : Atomic (owner id key value at') engine
      ((engine.owner id key value at').map fun e => (⟨⟩, e)) := by
  simp only [IdentityEngine.owner, Except.map_bind]
  exact .get_bind (.check_bind fun _ _ => .check_bind fun _ _ => .check_bind fun _ _ =>
    .check_bind fun _ _ => rfl)

theorem evictStaleAt_atomic (now) (retention : ℤ) : Atomic (evictStaleAt now retention) engine
      ((engine.evictStaleAt now retention).map Prod.swap) := by
  simp only [IdentityEngine.evictStaleAt, Except.map_bind]
  refine .get_bind (.check_bind fun cutoff _ => .check_bind fun comps _ => ?_)
  dsimp only
  by_cases hnone : (comps.filter (engine.evicts now cutoff)).flatten = []
  · rw [if_pos hnone, if_pos hnone]
    rfl
  · rw [if_neg hnone, if_neg hnone]
    rfl

end

end Call

section Run

variable {α : Type} {m : Call α} {engine : IdentityEngine}

theorem exec_discard_of_atomic {x : Except IdentityError (IdentityEngine × α)}
    (h : Atomic m engine (x.map Prod.swap)) : exec (do let _ ← m) engine =
      ((x.map Prod.fst).map fun _ => ⟨⟩, engine.orSame (x.map Prod.fst)) := by
  rw [exec_bind, h]
  cases x <;> rfl

/-- A call that is atomic changes the engine as the model says. -/
theorem exec_of_atomic {m : Call PUnit} {x} (h : Atomic m engine (x.map fun e => (⟨⟩, e))) :
    exec m engine = (x.map fun _ => ⟨⟩, engine.orSame x) := by
  rw [Atomic] at h
  rw [h]
  cases x <;> rfl

end Run

/-- **The calls of the source do what the model says**, whether they fail or not. -/
theorem exec_run (engine) (call : IdentityCall) :
    exec call.run engine = ((engine.attempt call).map fun _ => ⟨⟩, engine.after call) := by
  cases call with
  | observeAt id facts now =>
    rw [IdentityCall.run, exec_bind, Call.exec_observeAt, IdentityEngine.attempt]
    cases hobserve : engine.observeAt id facts now with
    | mk engine' result => cases result <;> simp [IdentityEngine.after, hobserve] <;> rfl
  | addFactsAt id facts now =>
    refine (Call.exec_addFactsAt engine id facts now).trans ?_
    simp only [IdentityEngine.attempt, IdentityEngine.after, Prod.swap]
    cases (engine.addFactsAt id facts now).2 <;> rfl
  | proposeMerge a b score families reasons =>
    exact exec_discard_of_atomic (Call.proposeMerge_atomic engine a b score families reasons)
  | decide id d => exact exec_of_atomic (Call.decide_atomic engine id d)
  | undo id => exact exec_of_atomic (Call.undo_atomic engine id)
  | setOwnerFact id key value at' =>
    exact exec_of_atomic (Call.owner_atomic engine id key (some value) at')
  | clearOwnerFactAt id key at' => exact exec_of_atomic (Call.owner_atomic engine id key none at')
  | evictStaleAt now retention =>
    exact exec_discard_of_atomic (Call.evictStaleAt_atomic engine now retention)

/-! ### Failures -/

namespace IdentityEngine

variable {engine : IdentityEngine} {id : DeviceId} {c : List DeviceId} {now : DateTime}
  {incoming : List EvidenceFact} {n : ℕ}

/-- The component of a device has room for some facts, or none of its facts has expired. -/
def RoomFor (engine : IdentityEngine) (n : ℕ) (now : DateTime) (id : DeviceId) : Prop :=
  match engine.component id with
  | .ok c => engine.liveCount c now + n ≤ engine.cfg.maxFactsPerDevice ∨
    ∀ d ∈ c, ∀ f ∈ engine.factsOf d, live f now
  | .error _ => True

/-- The device that the facts of a call go to has room for them, or nothing has expired. -/
def TakesIn (engine : IdentityEngine) (call : IdentityCall) : Prop :=
  ∀ x ∈ engine.target call, engine.RoomFor x.2.1.length x.2.2 x.1

theorem pruned_eq_self : engine.pruned c now = engine.facts ↔
    ∀ d ∈ c, ∀ f ∈ engine.factsOf d, live f now := by
  constructor
  · intro h d hd f hf
    obtain ⟨fs, hget, hf⟩ := mem_factsOf.1 hf
    have hfs : (engine.pruned c now).get d = some (fs.filter (live · now)) := by
      rw [get_pruned, if_pos hd, hget, map_some]
    rw [h, hget] at hfs
    exact List.filter_eq_self.1 (some.inj hfs).symm f hf
  · intro h
    ext1 d
    rw [get_pruned]
    split_ifs with hd
    · cases hget : engine.facts.get d with
      | none => rfl
      | some fs =>
        have hlive : ∀ f ∈ fs, live f now := fun f hf => h d hd f (mem_factsOf.2 ⟨fs, hget, hf⟩)
        rw [map_some, List.filter_eq_self.2 hlive]
    · rfl

/-- A store that fails changes nothing just when there is room for the facts, or nothing has
expired. -/
theorem Storing.unchanged_iff {outcome} (h : Storing engine id incoming now outcome) :
    (∀ e, outcome.2 = .error e → outcome.1 = engine) ↔ engine.RoomFor incoming.length now id := by
  cases h with
  | unknown hc => simp [RoomFor, hc]
  | @full c hc hfull =>
    have hfacts : { engine with facts := engine.pruned c now } = engine ↔
        engine.pruned c now = engine.facts := by
      cases engine
      simp
    simp [RoomFor, hc, not_le.2 hfull, hfacts, pruned_eq_self]
  | stored hc hget hroom => simp [RoomFor, hc, hroom]

theorem takesIn_iff {call} {x : DeviceId × List EvidenceFact × DateTime}
    (h : engine.target call = some x) :
    engine.TakesIn call ↔ engine.RoomFor x.2.1.length x.2.2 x.1 := by
  simp [TakesIn, h]

theorem takesIn_of_none {call} (h : engine.target call = none) : engine.TakesIn call := by
  simp [TakesIn, h]

theorem observeAt_unchanged_iff (engine : IdentityEngine) (device facts now) :
    (∀ e, (engine.observeAt device facts now).2 = .error e →
      (engine.observeAt device facts now).1 = engine) ↔
      engine.TakesIn (.observeAt device facts now) := by
  unfold observeAt
  cases hprepare : prepare engine.cfg facts with
  | error e =>
    refine iff_of_true (fun _ _ => rfl) (takesIn_of_none ?_)
    cases device <;> simp [target, hprepare, Except.toOption]
  | ok prepared =>
  cases device with
  | some device =>
    rw [takesIn_iff (x := (device, prepared, now)) (by simp [target, hprepare, Except.toOption])]
    dsimp only
    cases hroot : engine.resolve device with
    | error e =>
      refine iff_of_true (fun _ _ => rfl) ?_
      unfold RoomFor
      cases hc : engine.component device with
      | error e => trivial
      | ok c => cases hroot.symm.trans (resolve_eq_ok.2 ⟨c, hc, rfl⟩)
    | ok root =>
      simp only [map_eq_error]
      exact (store_storing engine device prepared now).unchanged_iff
  | none =>
    dsimp only [observeUnknown]
    cases hfound : engine.findMatches prepared now with
    | error e =>
      exact iff_of_true (fun _ _ => rfl)
        (takesIn_of_none (by simp [target, hprepare, hfound, Except.toOption]))
    | ok found =>
    dsimp only
    cases hauto : automatic found with
    | some root =>
      rw [takesIn_iff (x := (root, prepared, now))
        (by simp [target, hprepare, hfound, hauto, Except.toOption])]
      simp only [map_eq_error]
      exact (store_storing engine root prepared now).unchanged_iff
    | none =>
      refine iff_of_true (fun e he => ?_)
        (takesIn_of_none (by simp [target, hprepare, hfound, hauto, Except.toOption]))
      cases henroll : engine.enroll prepared found with
      | error e => rfl
      | ok enrolled => simp [henroll] at he

theorem addFactsAt_unchanged_iff (engine : IdentityEngine) (id facts now) :
    (∀ e, (engine.addFactsAt id facts now).2 = .error e →
      (engine.addFactsAt id facts now).1 = engine) ↔ engine.TakesIn (.addFactsAt id facts now) := by
  unfold addFactsAt
  cases hprepare : prepare engine.cfg facts with
  | error e =>
    exact iff_of_true (fun _ _ => rfl) (takesIn_of_none (by simp [target, hprepare, Except.toOption]))
  | ok prepared =>
    rw [takesIn_iff (x := (id, prepared, now)) (by simp [target, hprepare, Except.toOption])]
    exact (store_storing engine id prepared now).unchanged_iff

theorem after_eq_self_iff (engine : IdentityEngine) (call : IdentityCall) :
    (∀ e, engine.attempt call = .error e → engine.after call = engine) ↔ engine.TakesIn call := by
  cases call with
  | observeAt device facts now =>
    simp only [attempt, map_eq_error]
    exact observeAt_unchanged_iff engine device facts now
  | addFactsAt id facts now =>
    simp only [attempt, map_eq_error]
    exact addFactsAt_unchanged_iff engine id facts now
  | _ => exact iff_of_true (fun e he => congrArg engine.orSame he) (takesIn_of_none rfl)

end IdentityEngine

/-- **A failed call changes nothing**, of facts, proposals, edges, audit, owner records, ids and
counters, just when there is room for the facts it brings or nothing has expired where they go. -/
theorem unchanged_iff_takesIn (engine : IdentityEngine) (call : IdentityCall) :
    (∀ e, (exec call.run engine).1 = .error e → (exec call.run engine).2 = engine) ↔
      engine.TakesIn call := by
  simp only [exec_run, map_eq_error]
  exact engine.after_eq_self_iff call

/-- Devices have room for one fact. -/
def oneFact : IdentityConfig := { IdentityConfig.default with maxFactsPerDevice := 1 }

/-- A device with a fact until some time. -/
def knownUntil (expiresAt : Option DateTime) : List IdentityCall :=
  [.observeAt none [{ sureFact .service "serial" "s-1" with expiresAt }] (halfSecond 0)]

/-- One fact too many for a device. -/
def oneTooMany : IdentityCall :=
  .addFactsAt 1 [sureFact .naming "hostname" "a", sureFact .naming "hostname" "b"] (halfSecond 4)

/-- A device has no room for two facts, and when they are refused it has lost the one it had. -/
theorem fullDevice_changed : ∃ engine, identityMachine.Reachable engine ∧
    (engine.factsOf 1).length = 1 ∧ (exec oneTooMany.run engine).1 = .error (.capacity "facts") ∧
    ((exec oneTooMany.run engine).2.factsOf 1).length = 0 :=
  reachable_of_run oneFact [1] (knownUntil (some (halfSecond 2))) (by decide +kernel)

end NeonHearth.Identity
