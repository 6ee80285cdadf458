import Etl.State.DestinationMetadata
import Etl.Store.PostgresSchemas

/-! # Retention of schema versions

The apply loop prunes the schema versions of the tables it owns. The boundary of a table is its
durable progress or the earliest snapshot its destination metadata refer to, whichever is less.
No lookup at or above the boundary changes by pruning there, in memory or in the Postgres store,
whatever its cache holds.

Reference: `etl/src/replication/apply.rs` (`get_table_schema_retentions`).
-/

namespace Etl

/-- The boundary of a table: the earliest snapshot of the metadata, capped by the progress. -/
def tableSchemaRetention (durableFlushLsn : PgLsn) (metadata : DestinationTableMetadata) :
    TableSchemaRetention :=
  let destinationRetentionSnapshotId :=
    min (metadata.previousSnapshotId.getD metadata.snapshotId) metadata.snapshotId
  if durableFlushLsn ≤ destinationRetentionSnapshotId then .durableFlushLsn durableFlushLsn
  else .snapshotId destinationRetentionSnapshotId

/-- The boundaries of the active tables this worker owns at the durable position and that have
metadata. Ownership and metadata are read from the store, which may fail. -/
def getTableSchemaRetentions (activeTableIds : List TableId)
    (shouldApplyChanges : TableId → PgLsn → EtlResult Bool)
    (getDestinationTableMetadata : TableId → EtlResult (Option DestinationTableMetadata))
    (durableFlushLsn : PgLsn) : EtlResult (TableId → Option TableSchemaRetention) :=
  activeTableIds.foldlM (fun tableSchemaRetentions tableId => do
    let shouldApply ← shouldApplyChanges tableId durableFlushLsn
    if !shouldApply then return tableSchemaRetentions
    match ← getDestinationTableMetadata tableId with
    | none => return tableSchemaRetentions
    | some metadata =>
      return Function.update tableSchemaRetentions tableId
        (some (tableSchemaRetention durableFlushLsn metadata))) fun _ => none

variable {activeTableIds : List TableId} {shouldApplyChanges : TableId → PgLsn → EtlResult Bool}
  {getDestinationTableMetadata : TableId → EtlResult (Option DestinationTableMetadata)}
  {durableFlushLsn : PgLsn} {retentions : TableId → Option TableSchemaRetention}
  {tableId : TableId} {snapshotId : SnapshotId}

theorem toLsn_tableSchemaRetention (durableFlushLsn : PgLsn)
    (metadata : DestinationTableMetadata) :
    (tableSchemaRetention durableFlushLsn metadata).toLsn
      = min durableFlushLsn
        (min (metadata.previousSnapshotId.getD metadata.snapshotId) metadata.snapshotId) := by
  unfold tableSchemaRetention
  dsimp only
  split_ifs with hle
  · exact (min_eq_left hle).symm
  · exact (min_eq_right (le_of_lt (not_le.mp hle))).symm

theorem exists_metadata_of_retention
    (h : getTableSchemaRetentions activeTableIds shouldApplyChanges getDestinationTableMetadata
      durableFlushLsn = .ok retentions) {retention : TableSchemaRetention}
    (hretention : retentions tableId = some retention) :
    ∃ metadata, getDestinationTableMetadata tableId = .ok (some metadata) ∧
      retention = tableSchemaRetention durableFlushLsn metadata := by
  refine foldlM_invariant (P := fun retentions => ∀ tableId retention,
    retentions tableId = some retention →
      ∃ metadata, getDestinationTableMetadata tableId = .ok (some metadata) ∧
        retention = tableSchemaRetention durableFlushLsn metadata) ?_ (by simp) h tableId retention
    hretention
  intro retentions next retentions' hretentions hnext
  obtain ⟨shouldApply, -, hnext⟩ := bind_eq_ok_iff.mp hnext
  cases shouldApply with
  | false => exact Except.ok.inj hnext ▸ hretentions
  | true =>
    obtain ⟨metadata, hmetadata, hnext⟩ := bind_eq_ok_iff.mp hnext
    cases metadata with
    | none => exact Except.ok.inj hnext ▸ hretentions
    | some metadata =>
      cases hnext
      intro tableId retention hretention
      by_cases htable : tableId = next
      · subst htable
        rw [Function.update_self] at hretention
        exact ⟨metadata, hmetadata, (Option.some.inj hretention).symm⟩
      · rw [Function.update_of_ne htable] at hretention
        exact hretentions tableId retention hretention

/-- Where a lookup of the table may still come: at or after the durable position, or at a
snapshot that the metadata of the table record. -/
def StillNeeded (getDestinationTableMetadata : TableId → EtlResult (Option DestinationTableMetadata))
    (durableFlushLsn : PgLsn) (tableId : TableId) (snapshotId : SnapshotId) : Prop :=
  durableFlushLsn ≤ snapshotId ∨
    ∃ metadata, getDestinationTableMetadata tableId = .ok (some metadata) ∧
      (snapshotId = metadata.snapshotId ∨ metadata.previousSnapshotId = some snapshotId)

theorem toLsn_le_of_stillNeeded
    (h : getTableSchemaRetentions activeTableIds shouldApplyChanges getDestinationTableMetadata
      durableFlushLsn = .ok retentions) {retention : TableSchemaRetention}
    (hretention : retentions tableId = some retention)
    (hneeded : StillNeeded getDestinationTableMetadata durableFlushLsn tableId snapshotId) :
    retention.toLsn ≤ snapshotId := by
  obtain ⟨metadata, hmetadata, rfl⟩ := exists_metadata_of_retention h hretention
  rw [toLsn_tableSchemaRetention]
  rcases hneeded with hdurable | ⟨metadata', hmetadata', hsnapshot⟩
  · exact le_trans (min_le_left _ _) hdurable
  · obtain rfl := Option.some.inj (Except.ok.inj (hmetadata.symm.trans hmetadata'))
    refine le_trans (min_le_right _ _) ?_
    rcases hsnapshot with rfl | hprevious
    · exact min_le_right _ _
    · rw [hprevious]
      exact min_le_left _ _

/-! ## Lookups after pruning -/

theorem TableSchemaSnapshots.getAtOrBefore_prune (snapshots : TableSchemaSnapshots)
    (hle : ∀ retention, retentions tableId = some retention → retention.toLsn ≤ snapshotId) :
    (snapshots.prune retentions).getAtOrBefore tableId snapshotId
      = snapshots.getAtOrBefore tableId snapshotId := by
  unfold getAtOrBefore prune
  cases hretention : retentions tableId with
  | none => rfl
  | some retention => simp only [SortedMap.floor_prune (hle retention hretention)]

theorem SchemaTables.loadTableSchemaAtSnapshot_delete (db : SchemaTables)
    (hle : ∀ retention, retentions tableId = some retention → retention.toLsn ≤ snapshotId) :
    (db.deleteObsoleteTableSchemaVersions retentions).loadTableSchemaAtSnapshot tableId snapshotId
      = db.loadTableSchemaAtSnapshot tableId snapshotId := by
  unfold loadTableSchemaAtSnapshot deleteObsoleteTableSchemaVersions
  dsimp only
  cases hretention : retentions tableId with
  | none => rfl
  | some retention => simp only [SortedMap.floor_prune (hle retention hretention)]

/-- Pruning at the boundaries a worker computes leaves every lookup that may still come as it
was, in the memory store and in the Postgres store. -/
theorem lookups_kept_by_pruning
    (h : getTableSchemaRetentions activeTableIds shouldApplyChanges getDestinationTableMetadata
      durableFlushLsn = .ok retentions)
    (hneeded : StillNeeded getDestinationTableMetadata durableFlushLsn tableId snapshotId)
    (snapshots : TableSchemaSnapshots) (store : PostgresSchemaStore) :
    (snapshots.prune retentions).getAtOrBefore tableId snapshotId
        = snapshots.getAtOrBefore tableId snapshotId ∧
      ((store.pruneTableSchemas retentions).getTableSchema tableId snapshotId).1
        = (store.getTableSchema tableId snapshotId).1 := by
  have hle : ∀ retention, retentions tableId = some retention → retention.toLsn ≤ snapshotId :=
    fun retention hretention => toLsn_le_of_stillNeeded h hretention hneeded
  refine ⟨snapshots.getAtOrBefore_prune hle, ?_⟩
  unfold PostgresSchemaStore.getTableSchema PostgresSchemaStore.pruneTableSchemas
  rw [TableSchemaSnapshots.getAtOrBefore_prune _ hle,
    SchemaTables.loadTableSchemaAtSnapshot_delete _ hle]
  cases store.tableSchemas.getAtOrBefore tableId snapshotId with
  | some tableSchema => rfl
  | none => cases store.db.loadTableSchemaAtSnapshot tableId snapshotId <;> rfl

/-- The progress is at 300, but the destination is still at 200: version 200 stays. -/
theorem lookups_kept_by_pruning_at_metadata :
    ∃ retentions, getTableSchemaRetentions [7] (fun _ _ => .ok true)
        (fun _ => .ok (some (.newApplied "orders" 200 [true]))) 300 = .ok retentions ∧
      ((PostgresSchemaStore.pruneTableSchemas ⟨threeVersions, TableSchemaSnapshots.empty⟩
        retentions).getTableSchema 7 200).1
        = (PostgresSchemaStore.getTableSchema ⟨threeVersions, TableSchemaSnapshots.empty⟩
          7 200).1 := by
  have hneeded : StillNeeded (fun _ => .ok (some (.newApplied "orders" 200 [true]))) 300 7 200 :=
    .inr ⟨_, rfl, .inl rfl⟩
  have hretentions : getTableSchemaRetentions [7] (fun _ _ => .ok true)
      (fun _ => .ok (some (.newApplied "orders" 200 [true]))) 300
      = .ok (Function.update (fun _ => none) 7 (some (.snapshotId 200))) := rfl
  exact ⟨_, hretentions,
    (lookups_kept_by_pruning hretentions hneeded TableSchemaSnapshots.empty _).2⟩

end Etl
