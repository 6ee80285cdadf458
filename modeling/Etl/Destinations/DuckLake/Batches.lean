import Etl.Destinations.DuckLake.Mutations
import Mathlib.Data.Prod.Lex

/-! # Atomic batches

Reference: `etl-destinations/src/ducklake/batches.rs` (`compare_sequence_keys`,
`prepare_mutation_table_batches`, `push_prepared_mutation_batch`).

The mutations of a table are cut into batches, each applied in one transaction and annotated with
the keys of its first and its last mutation. Batch identities, which only copies are found by, and
start positions are left out.
-/

namespace Etl

/-! ## Sequence keys -/

/-- Keys are ordered by transaction, and in it by ordinal. -/
instance : LinearOrder EventSequenceKey :=
  LinearOrder.lift' (fun key : EventSequenceKey => toLex (key.commitLsn, key.txOrdinal))
    fun a b h => by
      obtain ⟨hcommit, hordinal⟩ := Prod.mk.inj (toLex.injective h)
      cases a
      cases b
      simp_all

theorem EventSequenceKey.lt_iff_precedes {a b : EventSequenceKey} : a < b ↔ a.Precedes b :=
  Prod.Lex.toLex_lt_toLex

namespace DuckLake

def compareSequenceKeys (left right : EventSequenceKey) : Ordering :=
  (compare left.commitLsn right.commitLsn).then (compare left.txOrdinal right.txOrdinal)

variable {left right : EventSequenceKey}

theorem compareSequenceKeys_eq_lt_iff :
    compareSequenceKeys left right = .lt ↔ left < right := by
  rw [EventSequenceKey.lt_iff_precedes, compareSequenceKeys, EventSequenceKey.Precedes,
    Ordering.then_eq_lt, Nat.compare_eq_lt, Nat.compare_eq_eq, Nat.compare_eq_lt]

/-! ## Tracked changes -/

/-- Event-level table mutation annotated with its position for idempotent replay. -/
structure TrackedTableMutation where
  commitLsn : PgLsn
  txOrdinal : ℕ
  mutation : TableMutation
  deriving DecidableEq

def TrackedTableMutation.sequenceKey (tracked : TrackedTableMutation) : EventSequenceKey :=
  ⟨tracked.commitLsn, tracked.txOrdinal⟩

/-! ## Batches -/

/-- Kinds of the atomic batches that streaming writes. -/
inductive DuckLakeTableBatchKind where
  | mutation | truncate
  deriving DecidableEq, Repr

/-- Prepared per-table work executed atomically in one transaction. -/
inductive PreparedDuckLakeTableBatchAction where
  | mutation (preparedMutations : List PreparedTableMutation)
  | truncate

/-- Prepared atomic table batch with replay metadata. -/
structure PreparedDuckLakeTableBatch where
  tableName : String
  batchKind : DuckLakeTableBatchKind
  firstSequenceKey : Option EventSequenceKey
  lastSequenceKey : Option EventSequenceKey
  action : PreparedDuckLakeTableBatchAction

/-- Maximum number of ordered mutations grouped into one atomic transaction. -/
def cdcMutationBatchSize : ℕ := 16

/-- Builds one prepared atomic batch from an ordered slice of tracked mutations. -/
def pushPreparedMutationBatch (preparedBatches : List PreparedDuckLakeTableBatch)
    (schema : ReplicatedTableSchema) (tableName : String)
    (trackedMutations : List TrackedTableMutation) : EtlResult (List PreparedDuckLakeTableBatch) :=
  if trackedMutations.isEmpty then .ok preparedBatches
  else do
    let preparedMutations ←
      prepareTableMutations schema (trackedMutations.map TrackedTableMutation.mutation)
    .ok (preparedBatches ++
      [⟨tableName, .mutation, trackedMutations.head?.map TrackedTableMutation.sequenceKey,
        trackedMutations.getLast?.map TrackedTableMutation.sequenceKey,
        .mutation preparedMutations⟩])

/-- Cuts the mutations into batches: walks them along with the batches prepared so far and the
mutations of the batch that is being filled. -/
def prepareMutationTableBatchesFrom (schema : ReplicatedTableSchema) (tableName : String)
    (preparedBatches : List PreparedDuckLakeTableBatch)
    (pendingMutations : List TrackedTableMutation) :
    List TrackedTableMutation → EtlResult (List PreparedDuckLakeTableBatch)
  | [] => pushPreparedMutationBatch preparedBatches schema tableName pendingMutations
  | trackedMutation :: trackedMutations => do
    let pendingMutations := pendingMutations ++ [trackedMutation]
    if cdcMutationBatchSize ≤ pendingMutations.length then do
      let preparedBatches ←
        pushPreparedMutationBatch preparedBatches schema tableName pendingMutations
      prepareMutationTableBatchesFrom schema tableName preparedBatches [] trackedMutations
    else
      prepareMutationTableBatchesFrom schema tableName preparedBatches pendingMutations
        trackedMutations

/-- Prepares ordered atomic batches for one table's mutations. -/
def prepareMutationTableBatches (schema : ReplicatedTableSchema) (tableName : String)
    (trackedMutations : List TrackedTableMutation) : EtlResult (List PreparedDuckLakeTableBatch) :=
  prepareMutationTableBatchesFrom schema tableName [] [] trackedMutations

end DuckLake

end Etl
