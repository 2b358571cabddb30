import NeonHearth.Flow.Rollups

/-!
# The flow repository

The durable side of the rollups: the `flow_rollups` table with the compaction seals.  `apply` writes
the changes of one advance in a transaction; `compact` aggregates expired second rows into minutes
and expired minute rows into hours, oldest buckets first and one transaction a batch, and refuses
when a parent row disagrees with its children.

A table row is keyed by its resolution, bucket and dimensions; the metadata columns do not tell
missing metadata from metadata without an address and a domain (`Dimensions.stored`).  A seal is
stored under the key of the sealed parent row.  The columns no operation here reads back are left
out: `updated_at`, and the `devices` table that an upsert also touches.
-/

namespace NeonHearth.Flow

inductive FlowStoreError where
  | invalid
  | capacity
  | compactionConflict
  | overflow
  | sql
  /-- The loop of the model was cut short; `compactLevel_ne_unfinished` rules it out. -/
  | unfinished
  deriving DecidableEq

/-- The dimensions as the columns of a row keep them. -/
def Dimensions.stored (d : Dimensions) : Dimensions :=
  { d with metadata := some (d.metadata.getD ⟨none, none⟩) }

/-- The key of a row in the table. -/
def RollupKey.stored (k : RollupKey) : RollupKey := { k with dims := k.dims.stored }

/-- The tables of the repository. -/
structure FlowStore where
  /-- `flow_rollups`. -/
  table : SortedMap RollupKey Value
  /-- `flow_compaction_seals`, by the key of the parent row. -/
  seals : SortedMap RollupKey Unit

/-- The resolution that rows of a resolution are aggregated into. -/
def Resolution.parent : Resolution → Resolution
  | .second => .minute
  | .minute | .hour => .hour

/-- The row that a second or a minute is aggregated into. -/
def RollupKey.parent (k : RollupKey) : RollupKey :=
  ⟨k.resolution.parent, bucketOf k.resolution.parent k.bucket, k.dims⟩

/-- `validate_meta`; an address always reads back. -/
def validateMeta (metadata : Option DestinationMetadata) : Bool :=
  match metadata with
  | some ⟨_, some domain⟩ => domain.utf8ByteSize ≤ 253 && (domain.isEmpty || validDomain domain)
  | _ => true

namespace FlowStore

variable (store : FlowStore)

/-- `upsert`: a row of a sealed parent is refused. -/
def upsert (k : RollupKey) (v : Value) : Except FlowStoreError FlowStore := do
  reject (k.bucket % k.resolution.width ≠ 0) .invalid
  reject (2 ^ 63 ≤ v.bytes.upload) .overflow
  reject (2 ^ 63 ≤ v.bytes.download) .overflow
  reject (validateMeta k.dims.metadata = false) .invalid
  reject (k.resolution ≠ .hour ∧ (DateTime.fromTimestamp k.parent.bucket = none ∨
    store.seals.get k.parent.stored ≠ none)) .invalid
  return { store with table := store.table.insert k.stored v }

/-- One change inside the transaction of `apply`. -/
def applyChange (change : RollupChange) : Except FlowStoreError FlowStore :=
  match change with
  | .upsert k v | .correction k v => store.upsert k v
  | .retire _ cacheOnly => if cacheOnly then .ok store else .error .invalid

/-- `FlowRepository::apply`: all changes or none. -/
def apply (maxBatch : ℕ) (changes : List RollupChange) : Except FlowStoreError FlowStore := do
  reject (maxBatch < changes.length) .capacity
  changes.foldlM FlowStore.applyChange store

end FlowStore

/-! ### Compaction -/

structure CompactionPolicy where
  seconds : ℤ
  minutes : ℤ
  hours : Option ℤ
  maxRows : ℕ

/-- `CompactionPolicy::default`. -/
def CompactionPolicy.default : CompactionPolicy where
  seconds := NeonHearth.hours 24
  minutes := days 90
  hours := none
  maxRows := 100000

/-- `CompactionPolicy::validate`. -/
def CompactionPolicy.validate (p : CompactionPolicy) : Except FlowStoreError Unit :=
  reject (p.seconds ≤ 0 ∨ p.minutes < p.seconds ∨ p.hours.isSome ∨ p.maxRows = 0) .invalid

/-- SQLite's `unixepoch` of a whole second: the years 0 to 9999. -/
def unixepoch (secs : ℤ) : Option ℤ :=
  if -62167219200 ≤ secs ∧ secs ≤ 253402300799 then some secs else none

/-- SQLite's `unixepoch` of an instant: dates are kept in milliseconds. -/
def unixepochOf (t : DateTime) : Option ℤ := unixepoch ((t.nanos + 500000) / 1000000 / 1000)

/-- Parent buckets inspected per batch. -/
def maxCompactionGroups : ℕ := 4096

/-- The row is a child row whose parent bucket ends at or before `cut`. -/
def expired (child : Resolution) (cut : Option ℤ) (k : RollupKey) : Bool :=
  k.resolution = child && (unixepoch k.bucket).any fun b =>
    cut.any fun c => bucketOf child.parent b + child.parent.width ≤ c

namespace FlowStore

variable (store : FlowStore)

/-- The expired child rows. -/
def expiredRows (child : Resolution) (cut : Option ℤ) : List (RollupKey × Value) :=
  store.table.toList.filter fun entry => expired child cut entry.1

/-- The parent buckets with expired rows, oldest first, with their numbers of rows. -/
def groups (child : Resolution) (cut : Option ℤ) : List (ℤ × ℕ) :=
  ((store.expiredRows child cut).foldl (fun counts entry =>
      counts.insert entry.1.parent.bucket ((counts.get entry.1.parent.bucket).getD 0 + 1))
    (∅ : SortedMap ℤ ℕ)).toList.take maxCompactionGroups

end FlowStore

/-- The last parent bucket of a batch: further buckets are taken while their rows fit. -/
def batchLast (batch : ℕ) : ℤ → ℕ → List (ℤ × ℕ) → ℤ
  | last, _, [] => last
  | last, rows, (parent, count) :: rest =>
    if batch < rows + count then last else batchLast batch parent (rows + count) rest

/-- The coverage of a group: the one its rows share, or estimated. -/
def groupCoverage : List Coverage → Coverage
  | [] => .estimated
  | c :: rest => if rest.all (· = c) then c else .estimated

/-- What `GROUP BY` computes for one parent from its rows. -/
def groupValue (rows : List (RollupKey × Value)) : Value :=
  ⟨⟨(rows.map (·.2.bytes.upload)).sum, (rows.map (·.2.bytes.download)).sum⟩,
    groupCoverage (rows.map (·.2.coverage))⟩

namespace FlowStore

variable (store : FlowStore)

/-- The expired rows of one parent. -/
def groupRows (child : Resolution) (cut : Option ℤ) (parent : RollupKey) :
    List (RollupKey × Value) :=
  (store.expiredRows child cut).filter fun entry => entry.1.parent = parent

/-- The parents of the expired rows. -/
def groupKeys (child : Resolution) (cut : Option ℤ) : List RollupKey :=
  ((store.expiredRows child cut).map fun entry => entry.1.parent).dedup

/-- `aggregate`: refuses when a parent row disagrees with its group, then seals the parents and
adds the missing ones. -/
def aggregate (child : Resolution) (cut : Option ℤ) : Except FlowStoreError FlowStore := do
  let value := fun parent => groupValue (store.groupRows child cut parent)
  let keys := store.groupKeys child cut
  reject (keys.any fun parent =>
    2 ^ 63 ≤ (value parent).bytes.upload ∨ 2 ^ 63 ≤ (value parent).bytes.download) .sql
  reject (keys.any fun parent => (store.table.get parent).any (· ≠ value parent))
    .compactionConflict
  return {
    table := keys.foldl (fun table parent =>
      if table.get parent = none then table.insert parent (value parent) else table) store.table
    seals := keys.foldl (fun seals parent => seals.insert parent ()) store.seals }

/-- The rows of a level after the expired ones have been deleted. -/
def deleteExpired (child : Resolution) (cut : Option ℤ) : FlowStore :=
  { store with table := store.table.filter fun k _ => !expired child cut k }

/-- `compact_level`: the tables after the committed batches, and the result.  Every batch but the
last deletes a row, so `fuel` rows and one batch are enough. -/
def compactLevel (child : Resolution) (cut : Option ℤ) (batch : ℕ) :
    ℕ → FlowStore → ℕ → FlowStore × Except FlowStoreError ℕ
  | 0, store, _ => (store, .error .unfinished)
  | fuel + 1, store, removed =>
    match store.groups child cut with
    | [] => (store, .ok removed)
    | (first, count) :: rest =>
      let batchEnd := batchLast batch first count rest + child.parent.width
      match DateTime.fromTimestamp batchEnd with
      | none => (store, .error .overflow)
      | some _ =>
        let batchCut := unixepoch batchEnd
        match store.aggregate child batchCut with
        | .error e => (store, .error e)
        | .ok store' =>
          let deleted := (store'.expiredRows child batchCut).length
          let store'' := store'.deleteExpired child batchCut
          if 2 ^ 64 ≤ removed + deleted then (store'', .error .overflow)
          else if deleted = 0 then (store'', .ok removed)
          else compactLevel child cut batch fuel store'' (removed + deleted)

/-- `FlowRepository::compact`: the tables after the committed batches, and the result. -/
def compact (now : DateTime) (p : CompactionPolicy) : FlowStore × Except FlowStoreError ℕ :=
  match p.validate, now.checkedSubSigned p.seconds, now.checkedSubSigned p.minutes with
  | .error e, _, _ => (store, .error e)
  | .ok _, none, _ | .ok _, some _, none => (store, .error .overflow)
  | .ok _, some sec, some min =>
    if 2 ^ 63 ≤ p.maxRows then (store, .error .overflow)
    else
      match compactLevel .second (unixepochOf sec) p.maxRows (store.table.size + 1) store 0 with
      | (store', .error e) => (store', .error e)
      | (store', .ok removed) =>
        match compactLevel .minute (unixepochOf min) p.maxRows (store'.table.size + 1) store' 0 with
        | (store'', .error e) => (store'', .error e)
        | (store'', .ok more) =>
          if 2 ^ 64 ≤ removed + more then (store'', .error .overflow)
          else (store'', .ok (removed + more))

end FlowStore

end NeonHearth.Flow
