import NeonHearth.Discovery.Restart

/-!
# Several pipelines over one database

Nothing keeps two services from opening the same database.  A pipeline reads it while it prepares an
observation, and touches it in one transaction at the end, so by then another one may have committed.
A `Cluster` is a database with the pipelines that are open on it.  An attempt to commit runs on the
database of its transaction, and what it has read before, from whatever database, only decides what it
tries to commit.

`committed_once` says that the stored sequence counts the commits and that no observation is committed
twice.  Two pipelines in the same state may try the same commit: the second one finds it stored, and
is answered as if it had committed it (`twins_committed`).
-/

namespace NeonHearth.Discovery

open NeonHearth.Except Option List

open NeonHearth.Flow (RollupChange)

variable {Bytes Digest : Type}

/-- The sequence number of the stored checkpoint. -/
def Database.storedSequence (db : Database Bytes Digest) : ℕ :=
  db.checkpoint.elim 0 (·.commitSequence)

structure Cluster (Bytes Digest : Type) where
  db : Database Bytes Digest
  instances : ℕ → Option PersistentDiscoveryPipeline

/-- An observation that is about to be staged and committed. -/
structure Attempt (Digest : Type) where
  input : DiscoveryObservation
  changes : List RollupChange
  tickMs : ℕ
  arrival : DateTime
  inputHash : Digest
  faults : Faults

inductive ClusterEvent (Digest : Type) where
  | opens (i : ℕ) (setup : Setup) (ids : List DeviceId)
  /-- `dies` says that the pipeline is gone before it learns that its transaction has succeeded. -/
  | attempts (i : ℕ) (a : Attempt Digest) (dies : Bool)
  | dies (i : ℕ)

variable [DecidableEq Bytes] [DecidableEq Digest] (lib : PipelineLibraries Bytes Digest)

/-- An attempt of a pipeline, from its staging on. -/
def Attempt.run (a : Attempt Digest) (s : Service Bytes Digest) :
    Except DiscoveryError (Answer Bytes Digest) :=
  s.observeNew lib a.input a.changes a.tickMs a.arrival a.inputHash a.faults

def Cluster.step (c : Cluster Bytes Digest) : ClusterEvent Digest → Cluster Bytes Digest
  | .opens i setup ids =>
    match PersistentDiscoveryPipeline.openOn lib setup c.db ids with
    | .ok memory => { c with instances := Function.update c.instances i (some memory) }
    | .error _ => c
  | .attempts i a dies =>
    match c.instances i with
    | none => c
    | some memory =>
      match a.run lib ⟨memory, c.db⟩ with
      | .ok (_, s) => ⟨s.db, Function.update c.instances i (if dies then none else some s.memory)⟩
      | .error _ => c
  | .dies i => { c with instances := Function.update c.instances i none }

/-- The clusters over a database that was empty at first. -/
def clusterMachine : Machine (Cluster Bytes Digest) (ClusterEvent Digest) where
  init c := c = ⟨.empty, fun _ => none⟩
  step c e := some (c.step lib e)

/-! ### What an attempt does -/

variable {lib}

/-- A transaction writes a new observation with the next number, or finds its own commit stored. -/
theorem Database.commitWithFlow_cases {db db' : Database Bytes Digest}
    {config lib fault input changes} {flowMaxBatch : ℕ} {d}
    (hd : input.discovery = some d)
    (h : db.commitWithFlow config lib fault input changes flowMaxBatch = .ok db') :
    (∃ stored, db'.checkpoint = some stored ∧ stored.toCheckpointInput = input.checkpoint ∧
      db.commitRow d.inputHash = none ∧ input.checkpoint.commitSequence = db.storedSequence + 1 ∧
      ∃ row, row.inputHash = d.inputHash ∧ db'.commits = db.commits ++ [row]) ∨
    ∃ stored, db'.checkpoint = some stored ∧ stored.bytes = input.checkpoint.bytes ∧
      stored.commitSequence = input.checkpoint.commitSequence ∧ db' = db ∧
      ∃ row, db.commitRow d.inputHash = some row ∧ row.commitDigest = lib.commitDigest input changes := by
  obtain ⟨_, -, h⟩ := bind_eq_ok.1 h
  rw [commitInner, hd, bind_some] at h
  obtain ⟨_, -, h⟩ := bind_eq_ok.1 h
  cases hrow : db.commitRow d.inputHash with
  | none =>
    rw [hrow] at h
    simp only [writeCommit, bind_eq_ok, pure_eq_ok, reject_eq_ok, not_not] at h
    obtain ⟨_, hexpected, -, rfl, -, -, _, -, -, -, _, -, rfl⟩ := h
    refine .inl ⟨_, rfl, rfl, rfl, ?_, _, rfl, by rw [hd]; rfl⟩
    unfold expectedSequence at hexpected
    rw [storedSequence]
    cases hcheckpoint : db.checkpoint with
    | none =>
      rw [hcheckpoint] at hexpected
      exact (pure_eq_ok.1 hexpected).symm
    | some stored =>
      rw [hcheckpoint] at hexpected
      obtain ⟨_, -, hexpected⟩ := bind_eq_ok.1 hexpected
      exact (pure_eq_ok.1 hexpected).symm
  | some row =>
    rw [hrow] at h
    simp only [verifyIdempotentCheckpoint, bind_eq_ok, pure_eq_ok, reject_eq_ok,
      okOr_eq_ok, not_or, not_not, ne_eq] at h
    obtain ⟨_, hdigest, _, ⟨stored, hstored, _, -, _, -, -, hbytes, hsequence, -⟩, rfl⟩ := h
    exact .inr ⟨stored, hstored, hbytes, hsequence, rfl, row, rfl, hdigest⟩

variable {outcome : DiscoveryPipelineOutcome} {s s' : Service Bytes Digest}

/-- What a successful attempt has done: it found the observation committed and did nothing, or it is
where the stored checkpoint is, which it has written with the next number or has found there. -/
theorem Attempt.run_cases {a : Attempt Digest} (h : a.run lib s = .ok (outcome, s')) :
    (∃ summary, outcome = .duplicate summary true) ∧ s' = s ∨
    ∃ result payload stored, outcome = .committed result payload stored.commitSequence ∧
      s'.db.checkpoint = some stored ∧ stored.commitSequence = s'.memory.sequence ∧
      s'.memory.sequence = s.memory.sequence + 1 ∧
      stored.bytes = lib.encode (s'.memory.pipeline.checkpoint lib) ∧
      (s.db.commitRow a.inputHash = none ∧ s'.db.storedSequence = s.db.storedSequence + 1 ∧
          (∃ row, row.inputHash = a.inputHash ∧ s'.db.commits = s.db.commits ++ [row]) ∨
        s'.db = s.db ∧ ∃ row, s.db.commitRow a.inputHash = some row ∧
          row.commitDigest = lib.commitDigest (s.commitInput lib s'.memory.pipeline result
            a.input.facts a.input.presenceSource a.inputHash a.arrival) a.changes) := by
  obtain ⟨⟨staged, result⟩, -, h⟩ := bind_eq_ok.1 h
  obtain ⟨_, -, h⟩ := bind_eq_ok.1 h
  obtain ⟨⟨live, payload⟩, -, h⟩ := bind_eq_ok.1 h
  obtain ⟨_, -, h⟩ := bind_eq_ok.1 h
  dsimp only at h
  split at h
  · next db hwrite =>
    cases h
    obtain ⟨stored, hstored, hinput, hnew, hsequence, hrow⟩ |
      ⟨stored, hstored, hbytes, hsequence, rfl, hrow⟩ := Database.commitWithFlow_cases rfl hwrite
    · have hnumber : stored.commitSequence = s.memory.sequence + 1 :=
        congrArg CheckpointInput.commitSequence hinput
      refine .inr ⟨result, payload, stored, by rw [hnumber], hstored, hnumber, rfl,
        congrArg CheckpointInput.bytes hinput, .inl ⟨hnew, ?_, hrow⟩⟩
      rw [Database.storedSequence, hstored, elim_some, hnumber]
      exact hsequence
    · exact .inr ⟨result, payload, stored, by rw [hsequence]; rfl, hstored, hsequence, rfl, hbytes,
        .inr ⟨rfl, hrow⟩⟩
  · obtain ⟨found, hfound, h⟩ := bind_eq_ok.1 h
    obtain ⟨answer, hanswer, h⟩ := bind_eq_ok.1 h
    cases h
    rw [okOr_eq_ok.1 hanswer] at hfound
    exact .inl ⟨Service.existing_of_some hfound, rfl⟩
  · cases h

/-! ### Runs -/

/-- The commits are numbered, and each is of another observation. -/
structure Database.Counted (db : Database Bytes Digest) : Prop where
  sequence : db.storedSequence = db.commits.length
  nodup : (db.commits.map (·.inputHash)).Nodup

theorem Database.Counted.run {a : Attempt Digest} (hs : s.db.Counted)
    (h : a.run lib s = .ok (outcome, s')) : s'.db.Counted := by
  obtain ⟨-, rfl⟩ | ⟨_, _, _, -, -, -, -, -, ⟨hnew, hsequence, row, hrow, hcommits⟩ | ⟨hdb, -⟩⟩ :=
    Attempt.run_cases h
  · exact hs
  · refine ⟨by rw [hsequence, hcommits, hs.sequence, length_append, length_singleton], ?_⟩
    rw [hcommits, map_append, map_singleton, nodup_append]
    refine ⟨hs.nodup, nodup_singleton _, fun x hx y hy hxy => ?_⟩
    obtain ⟨old, hold, rfl⟩ := mem_map.1 hx
    rw [mem_singleton.1 hy, hrow] at hxy
    exact absurd (decide_eq_true hxy) (find?_eq_none.1 hnew old hold)
  · exact hdb ▸ hs

/-- **Discovery commits count once**, whatever pipelines are open on the database and whichever of them
attempts, fails or dies when: the stored sequence is the number of the committed observations, which
are all different.  An attempt that fails, or finds its observation committed, changes nothing.  One
that is answered as committed leaves its pipeline where the stored checkpoint is; it has made the next
commit, or has found the very commit it tried as the last one. -/
theorem committed_once {c : Cluster Bytes Digest} (h : (clusterMachine lib).Reachable c) :
    c.db.storedSequence = c.db.commits.length ∧ (c.db.commits.map (·.inputHash)).Nodup ∧
    ∀ i memory (a : Attempt Digest) dies, c.instances i = some memory →
      (∀ e, a.run lib ⟨memory, c.db⟩ = .error e → c.step lib (.attempts i a dies) = c) ∧
      ∀ outcome s', a.run lib ⟨memory, c.db⟩ = .ok (outcome, s') →
        (∃ summary, outcome = .duplicate summary true) ∧ s' = ⟨memory, c.db⟩ ∨
        ∃ result payload stored, outcome = .committed result payload stored.commitSequence ∧
          s'.db.checkpoint = some stored ∧ stored.commitSequence = s'.memory.sequence ∧
          s'.memory.sequence = memory.sequence + 1 ∧
          stored.bytes = lib.encode (s'.memory.pipeline.checkpoint lib) ∧
          (c.db.commitRow a.inputHash = none ∧ s'.db.storedSequence = c.db.storedSequence + 1 ∧
              (∃ row, row.inputHash = a.inputHash ∧ s'.db.commits = c.db.commits ++ [row]) ∨
            s'.db = c.db ∧ ∃ row, c.db.commitRow a.inputHash = some row ∧
              row.commitDigest = lib.commitDigest (Service.commitInput lib ⟨memory, c.db⟩
                s'.memory.pipeline result a.input.facts a.input.presenceSource a.inputHash a.arrival)
                a.changes) := by
  have hcounted : c.db.Counted := by
    refine Machine.Via.invariant (I := fun c => c.db.Counted) h ?_ ?_
    · rintro _ rfl
      exact ⟨rfl, .nil⟩
    rintro c e c' hc - hstep
    obtain rfl := some.inj hstep
    cases e with
    | opens i setup ids =>
      rw [Cluster.step]
      split
      · exact hc
      · exact hc
    | attempts i a dies =>
      rw [Cluster.step]
      split
      · exact hc
      · split
        · next hrun => exact Database.Counted.run hc hrun
        · exact hc
    | dies i => exact hc
  refine ⟨hcounted.sequence, hcounted.nodup, fun i memory a dies hi =>
    ⟨fun e he => ?_, fun outcome s' hrun => Attempt.run_cases hrun⟩⟩
  rw [Cluster.step, hi]
  simp [he]

theorem reachable_foldl {c} (h : (clusterMachine lib).Reachable c)
    (events : List (ClusterEvent Digest)) :
    (clusterMachine lib).Reachable (events.foldl (Cluster.step lib) c) := by
  induction events generalizing c with
  | nil => exact h
  | cons e events ih => exact ih (h.next rfl)

/-! ### Twins -/

abbrev SampleDigest := Option (LinkPresenceObservation × String)

abbrev SampleService := Service DiscoveryPipelineCheckpoint SampleDigest

/-- A pipeline on an empty database, the neighbour that it has read there and is about to commit, and
what a twin of it has made of them meanwhile. -/
def twins : Option (SampleService × Attempt SampleDigest × SampleService) := do
  let memory ← (PersistentDiscoveryPipeline.openOn sampleLibraries sampleSetup .empty [1, 2]).toOption
  let first : SampleService := ⟨memory, .empty⟩
  let call := sampleCall 0 true 0
  let input ← (first.linkObservation call.observation "sensor-a").toOption
  let a : Attempt SampleDigest :=
    ⟨input, [], call.tickMs, call.arrival, some (call.observation, "sensor-a"), .none⟩
  let committed ← (a.run sampleLibraries first).toOption
  pure (first, a, committed.2)

/-- The twins as a cluster. -/
def twinCluster (a : Attempt SampleDigest) : Cluster DiscoveryPipelineCheckpoint SampleDigest :=
  [.opens 0 sampleSetup [1, 2], .opens 1 sampleSetup [1, 2], .attempts 0 a false,
    .attempts 1 a false].foldl (Cluster.step sampleLibraries) ⟨.empty, fun _ => none⟩

theorem twinCluster_committed_once : ∃ x, twins = some x ∧
    (twinCluster x.2.1).db.storedSequence = 1 ∧
    (twinCluster x.2.1).db.storedSequence = (twinCluster x.2.1).db.commits.length := by
  refine exists_and_imp (by decide +kernel) fun x _ _ => ?_
  exact (committed_once (reachable_foldl (.start rfl) _)).1

/-- **The second of two equal attempts is answered as committed**, although it leaves the stored
sequence at the number that the first one has given it; and its pipeline advances. -/
theorem twins_committed : ∃ first a committed result payload s', twins = some (first, a, committed) ∧
    a.run sampleLibraries ⟨first.memory, committed.db⟩ = .ok (.committed result payload 1, s') ∧
    committed.db.storedSequence = 1 ∧ s'.db.storedSequence = 1 ∧
    first.memory.sequence = 0 ∧ s'.memory.sequence = 1 := by
  obtain ⟨⟨first, a, committed⟩, htwins, ⟨outcome, s'⟩, hrun, houtcome, h⟩ :
      ∃ x, twins = some x ∧ ∃ y, x.2.1.run sampleLibraries ⟨x.1.memory, x.2.2.db⟩ = .ok y ∧
        y.1.casesOn (fun _ _ n => some n) (fun _ _ => none) = some 1 ∧
        x.2.2.db.storedSequence = 1 ∧ y.2.db.storedSequence = 1 ∧ x.1.memory.sequence = 0 ∧
        y.2.memory.sequence = 1 := by decide +kernel
  cases outcome with
  | duplicate => cases houtcome
  | committed result payload n =>
    obtain rfl := some.inj houtcome
    exact ⟨first, a, committed, result, payload, s', htwins, hrun, h⟩

end NeonHearth.Discovery
