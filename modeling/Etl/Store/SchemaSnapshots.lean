import Etl.Common.SortedMap
import Etl.Types.Schema

/-! # Schema snapshots in memory

The in-memory index of schema versions, grouped by table and sorted by snapshot. It owns the
rules for lookup, bounded caching and pruning that the stores share.

Reference: `etl/src/store/schema/table.rs` (`TableSchemaSnapshots`).
-/

namespace Etl

/-- A table's retention boundary, with the reason it was chosen. -/
inductive TableSchemaRetention where
  | snapshotId (id : SnapshotId)
  | durableFlushLsn (lsn : PgLsn)
  deriving DecidableEq, Repr

/-- The position used as the retention boundary. -/
def TableSchemaRetention.toLsn : TableSchemaRetention → PgLsn
  | .snapshotId id => id
  | .durableFlushLsn lsn => lsn

/-- Schema versions by table and snapshot. A table without versions has the empty map. -/
abbrev TableSchemaSnapshots : Type := TableId → SortedMap SnapshotId TableSchema

namespace TableSchemaSnapshots

/-- The index with no versions. -/
def empty : TableSchemaSnapshots := fun _ => SortedMap.empty

/-- The newest version of the table at or before the snapshot. -/
def getAtOrBefore (snapshots : TableSchemaSnapshots) (tableId : TableId)
    (snapshotId : SnapshotId) : Option TableSchema :=
  ((snapshots tableId).floor snapshotId).map Prod.snd

/-- Inserts or replaces a version. -/
def insert (snapshots : TableSchemaSnapshots) (tableSchema : TableSchema) :
    TableSchemaSnapshots :=
  Function.update snapshots tableSchema.id
    ((snapshots tableSchema.id).insert tableSchema.snapshotId tableSchema)

/-- Inserts a version and keeps at most `maxSnapshots` for its table, the oldest going
first. -/
def insertWithEviction (snapshots : TableSchemaSnapshots) (tableSchema : TableSchema)
    (maxSnapshots : ℕ) : TableSchemaSnapshots :=
  let inserted := snapshots.insert tableSchema
  Function.update inserted tableSchema.id ((inserted tableSchema.id).evict maxSnapshots)

def replaceAll (tableSchemas : List TableSchema) : TableSchemaSnapshots :=
  tableSchemas.foldl insert empty

/-- Keeps, for each table with a boundary, the version in force there and the newer ones. -/
def prune (snapshots : TableSchemaSnapshots)
    (retentions : TableId → Option TableSchemaRetention) : TableSchemaSnapshots :=
  fun tableId =>
    match retentions tableId with
    | none => snapshots tableId
    | some retention => (snapshots tableId).prune retention.toLsn

/-- The versions of a table after a bounded insertion. -/
theorem insertWithEviction_apply (snapshots : TableSchemaSnapshots) (tableSchema : TableSchema)
    (maxSnapshots : ℕ) (tableId : TableId) :
    snapshots.insertWithEviction tableSchema maxSnapshots tableId =
      if tableId = tableSchema.id then
        ((snapshots tableId).insert tableSchema.snapshotId tableSchema).evict maxSnapshots
      else snapshots tableId := by
  by_cases h : tableId = tableSchema.id
  · subst h
    simp [insertWithEviction, insert]
  · simp [insertWithEviction, insert, h]

end TableSchemaSnapshots

end Etl
