import Etl.Destinations.BigQuery.Client

/-! # Preparing a BigQuery table

Before rows are written the destination makes sure that the table exists and that its view points
to it. It stores metadata with status Applying, creates the table and stores the metadata as
Applied; a table it knows to exist is skipped. Every later call reads the metadata through an
accessor that rejects Applying, so a call that fails between the two writes of the metadata makes
every later one fail. A failed check for the table's existence is worse hidden: it is taken for a
yes, and the missing table is remembered as created until the process ends.

`prepareTableForStreaming_recovers_iff` says which failures are harmless.

Reference: `etl-destinations/src/bigquery/core.rs` (`prepare_table_for_streaming`,
`handle_relation_event`).
-/

namespace Etl.BigQuery

open DestinationTableMetadata (newApplying newApplied)
open Calls

/-- Rejects the schemas whose rows BigQuery could not match by the source's primary key. -/
def validateBigqueryReplicaIdentity (schema : ReplicatedTableSchema) : EtlResult Unit :=
  let name := schema.tableSchema.name.schema ++ "." ++ schema.tableSchema.name.name
  if schema.primaryKeyColumnSchemas.length = 0 then
    bailWith .sourceSchemaError "BigQuery requires a source primary key"
      ("Table '" ++ name ++ "' does not expose any replicated primary-key columns")
  else if !schema.allPrimaryKeyColumnsReplicated then
    bailWith .sourceSchemaError
      "BigQuery requires all source primary-key columns to be replicated"
      ("Table '" ++ name ++ "' omits source primary-key columns from replication: " ++
        ",".intercalate (schema.unreplicatedPrimaryKeyColumnSchemas.map ColumnSchema.name))
  else
    match schema.identityType with
    | .primaryKey | .full => .ok ()
    | .alternativeKey =>
      bailWith .sourceSchemaError "BigQuery requires primary-key or full replica identity"
        ("Table '" ++ name ++ "' uses replica identity AlternativeKey, but BigQuery only " ++
          "supports source primary-key identity or full old-row images")
    | .missing =>
      bailWith .sourceSchemaError "BigQuery requires primary-key or full replica identity"
        ("Table '" ++ name ++ "' uses replica identity Missing, but BigQuery only " ++
          "supports source primary-key identity or full old-row images")

def tableNameToBigqueryTableId (tableName : TableName) : EtlResult String :=
  tryStringifyTableName tableName

/-- Remembers a table that exists. -/
def addToCreatedTablesCache (tableId : SequencedBigQueryTableId) (destination : Destination) :
    Destination :=
  if tableId ∈ destination.createdTables then destination
  else { destination with createdTables := tableId :: destination.createdTables }

/-- The table named by the stored metadata, or the first version. -/
def sequencedTableId (bigqueryTableId : String) (metadata : Option DestinationTableMetadata) :
    EtlResult SequencedBigQueryTableId := do
  match ← getAppliedDestinationTableMetadata metadata with
  | some metadata => SequencedBigQueryTableId.fromStr metadata.destinationTableId
  | none => return .new bigqueryTableId

section Operations

-- Where the destination writes to, and the schema versions the store answers with.
variable (config : Config) (schemas : SnapshotId → Option TableSchema)

/-- Makes a view point to a table, unless it is known to. Says whether it was changed. -/
def ensureViewPointsToTable (viewName : String) (targetTableId : SequencedBigQueryTableId) :
    Calls EtlError Destination Bool := do
  if (← .read).createdViews viewName = some targetTableId then return false
  createOrReplaceView config viewName targetTableId.toString
  .update fun destination => { destination with
    createdViews := Function.update destination.createdViews viewName (some targetTableId) }
  return true

/-- Makes sure that the table and its view exist, and returns the table's name. -/
def prepareTableForStreaming (schema : ReplicatedTableSchema) :
    Calls EtlError Destination SequencedBigQueryTableId := do
  .ofExcept (validateBigqueryReplicaIdentity schema)
  let bigqueryTableId ← .ofExcept (tableNameToBigqueryTableId schema.tableSchema.name)
  let tableId ← .ofExcept (sequencedTableId bigqueryTableId (← .read).metadata)
  if tableId ∉ (← .read).createdTables then
    let metadata := newApplying tableId.toString schema.tableSchema.snapshotId
      schema.replicationMask
    storeDestinationTableMetadata metadata
    discard <| createTableIfMissing config tableId.toString schema
    storeDestinationTableMetadata metadata.toApplied
    .update (addToCreatedTablesCache tableId)
  discard <| ensureViewPointsToTable config bigqueryTableId tableId
  return tableId

/-- Changes the columns of a table: additions, renames, removals. -/
def applySchemaDiff (tableId : SequencedBigQueryTableId) (diff : SchemaDiff) :
    Calls EtlError Destination Unit := do
  if diff.isEmpty then return
  forM diff.columnsToAdd (addColumn config tableId.toString)
  forM diff.columnsToRename fun rename =>
    renameColumn config tableId.toString rename.oldName rename.newName
  forM diff.columnsToRemove fun column => dropColumn config tableId.toString column.name

/-- Changes the table to the schema of a relation event. -/
def handleRelationEvent (newSchema : ReplicatedTableSchema) : Calls EtlError Destination Unit := do
  .ofExcept (validateBigqueryReplicaIdentity newSchema)
  let tableId := newSchema.id
  let newSnapshotId := newSchema.tableSchema.snapshotId
  let newReplicationMask := newSchema.replicationMask
  match ← .ofExcept (getAppliedDestinationTableMetadata (← .read).metadata) with
  | none =>
    .ofExcept (bailWith .corruptedTableSchema "Missing destination table metadata"
      (s!"No destination table metadata found for table {tableId} when processing schema " ++
        "change. This indicates a broken invariant, the metadata should have been recorded " ++
          "during initial table synchronization."))
  | some metadata =>
    if metadata.snapshotId = newSnapshotId ∧ metadata.replicationMask = newReplicationMask then
      return
    let currentSnapshotId := metadata.snapshotId
    match schemas currentSnapshotId with
    | none =>
      .ofExcept (bailWith .invalidState "Old schema not found"
        s!"Could not find schema for table {tableId} at snapshot_id {currentSnapshotId}")
    | some currentTableSchema =>
      let currentSchema :=
        ReplicatedTableSchema.fromMask currentTableSchema metadata.replicationMask
      let bigqueryTableId ← .ofExcept
        (SequencedBigQueryTableId.fromStr metadata.destinationTableId)
      let updatedMetadata := (newApplied metadata.destinationTableId metadata.snapshotId
        metadata.replicationMask).withSchemaChange newSnapshotId newReplicationMask .applying
      storeDestinationTableMetadata updatedMetadata
      applySchemaDiff config bigqueryTableId (currentSchema.diff newSchema)
      storeDestinationTableMetadata updatedMetadata.toApplied

end Operations

/-! ## Creating the table -/

section Create

variable {config : Config} {schema : ReplicatedTableSchema} {tableId : SequencedBigQueryTableId}
  {destination : Destination} {remaining : Option ℕ} {name : String}

/-- The metadata while the table is created. -/
def applyingMetadata (schema : ReplicatedTableSchema) (tableId : SequencedBigQueryTableId) :
    DestinationTableMetadata :=
  newApplying tableId.toString schema.tableSchema.snapshotId schema.replicationMask

/-- The steps for a table that is not known to exist. -/
def createWithMetadata (config : Config) (schema : ReplicatedTableSchema)
    (tableId : SequencedBigQueryTableId) : Calls EtlError Destination Unit := do
  storeDestinationTableMetadata (applyingMetadata schema tableId)
  discard <| createTableIfMissing config tableId.toString schema
  storeDestinationTableMetadata (applyingMetadata schema tableId).toApplied
  .update (addToCreatedTablesCache tableId)

def created (schema : ReplicatedTableSchema) (tableId : SequencedBigQueryTableId)
    (destination : Destination) : Destination :=
  if (destination.tables tableId.toString).isSome then destination
  else destination.setTable tableId.toString (tableColumns schema)

/-- The destination when the table is recorded as created. -/
def recorded (schema : ReplicatedTableSchema) (tableId : SequencedBigQueryTableId)
    (destination : Destination) : Destination :=
  addToCreatedTablesCache tableId
    (destination.setMetadata (applyingMetadata schema tableId).toApplied)

/-- The table exists, or its definition passes the checks. -/
def Creatable (config : Config) (schema : ReplicatedTableSchema)
    (tableId : SequencedBigQueryTableId) (destination : Destination) : Prop :=
  (destination.tables tableId.toString).isSome ∨
    (∃ name, fullTableName config tableId.toString = .ok name) ∧
      ∃ spec, createColumnsSpec schema = .ok spec

/-- The calls of `createWithMetadata`; the one after them updates the view. -/
def createCalls (tableId : SequencedBigQueryTableId) (destination : Destination) : ℕ :=
  if (destination.tables tableId.toString).isSome then 3 else 4

theorem run_storeDestinationTableMetadata {metadata : DestinationTableMetadata}
    (hremaining : remaining ≠ some 0) :
    (storeDestinationTableMetadata metadata).run ⟨destination, remaining⟩ =
      .ok () ⟨destination.setMetadata metadata, remaining.map (· - 1)⟩ := by
  rw [storeDestinationTableMetadata, run_call, if_neg hremaining]

theorem run_tableExists (hremaining : remaining ≠ some 0) :
    (tableExists name).run ⟨destination, remaining⟩ =
      .ok (destination.tables name).isSome ⟨destination, remaining.map (· - 1)⟩ := by
  rw [tableExists, run_query, if_neg hremaining]

theorem run_createTableIfMissing_of_exists (hremaining : remaining ≠ some 0)
    (hexists : (destination.tables name).isSome) :
    (createTableIfMissing config name schema).run ⟨destination, remaining⟩ =
      .ok false ⟨destination, remaining.map (· - 1)⟩ := by
  rw [createTableIfMissing, bind_of_ok (run_tableExists hremaining), hexists]
  rfl

theorem run_createTableIfMissing_of_missing (hremaining : remaining ≠ some 0)
    (hmissing : ¬ (destination.tables name).isSome) :
    (createTableIfMissing config name schema).run ⟨destination, remaining⟩ =
      (createTable config name schema >>= fun _ => pure true).run
        ⟨destination, remaining.map (· - 1)⟩ := by
  rw [createTableIfMissing, bind_of_ok (run_tableExists hremaining), if_neg hmissing]

theorem run_createTable_of_rejected
    (hrejected : ¬ ((∃ full, fullTableName config name = .ok full) ∧
      ∃ spec, createColumnsSpec schema = .ok spec)) :
    ∃ e, (createTable config name schema).run ⟨destination, remaining⟩ =
      .error e ⟨destination, remaining⟩ := by
  unfold createTable
  cases hname : fullTableName config name with
  | error e => exact ⟨e, rfl⟩
  | ok full =>
    cases hspec : createColumnsSpec schema with
    | error e => exact ⟨e, rfl⟩
    | ok spec => exact absurd ⟨⟨full, hname⟩, spec, hspec⟩ hrejected

theorem run_createTable_of_missing {name full spec : String}
    (hname : fullTableName config name = .ok full) (hspec : createColumnsSpec schema = .ok spec)
    (hmissing : ¬ (destination.tables name).isSome) :
    (createTable config name schema).run ⟨destination, remaining⟩ =
      if remaining = some 0 then .error requestFailed ⟨destination, remaining⟩
      else .ok () ⟨destination.setTable name (tableColumns schema), remaining.map (· - 1)⟩ := by
  unfold createTable
  rw [hname, hspec, discard_bind, run_bind_ofExcept_ok, discard_bind,
    run_bind_ofExcept_ok, run_call]
  simp [hmissing]

theorem run_createWithMetadata_of_unchecked :
    (createWithMetadata config schema tableId).run ⟨destination, some 1⟩ =
      .ok () ⟨recorded schema tableId destination, none⟩ :=
  rfl

theorem run_createWithMetadata_of_enough (hcreatable : Creatable config schema tableId destination)
    (henough : ∀ k, remaining = some k → createCalls tableId destination ≤ k) :
    (createWithMetadata config schema tableId).run ⟨destination, remaining⟩ =
      .ok () ⟨recorded schema tableId (created schema tableId destination),
        remaining.map (· - createCalls tableId destination)⟩ := by
  have hleft : ∀ n < createCalls tableId destination, remaining.map (· - n) ≠ some 0 := by
    intro n hn hzero
    obtain ⟨k, hk, hsub⟩ := Option.map_eq_some_iff.mp hzero
    have hle := henough k hk
    omega
  have hstart : remaining ≠ some 0 := by
    intro hzero
    have hle := henough 0 hzero
    unfold createCalls at hle
    split_ifs at hle <;> omega
  unfold createWithMetadata
  rw [bind_of_ok (run_storeDestinationTableMetadata hstart), discard_bind]
  by_cases hexists : (destination.tables tableId.toString).isSome
  · have hcalls : createCalls tableId destination = 3 := if_pos hexists
    rw [hcalls] at hleft ⊢
    have hcheck : (createTableIfMissing config tableId.toString schema).run
        ⟨destination.setMetadata (applyingMetadata schema tableId), remaining.map (· - 1)⟩ =
          .ok false ⟨_, (remaining.map (· - 1)).map (· - 1)⟩ :=
      run_createTableIfMissing_of_exists (hleft 1 (by decide)) hexists
    rw [bind_of_ok hcheck, map_sub_map_sub,
      bind_of_ok (run_storeDestinationTableMetadata (hleft 2 (by decide))),
      map_sub_map_sub, created, if_pos hexists]
    rfl
  · have hcalls : createCalls tableId destination = 4 := if_neg hexists
    rw [hcalls] at hleft ⊢
    obtain ⟨⟨full, hname⟩, spec, hspec⟩ := hcreatable.resolve_left hexists
    have hmissing : ¬ ((destination.setMetadata (applyingMetadata schema tableId)).tables
      tableId.toString).isSome := hexists
    have hcreate : (createTableIfMissing config tableId.toString schema).run
        ⟨destination.setMetadata (applyingMetadata schema tableId), remaining.map (· - 1)⟩ =
          .ok true ⟨(destination.setMetadata (applyingMetadata schema tableId)).setTable
            tableId.toString (tableColumns schema), remaining.map (· - 3)⟩ := by
      rw [run_createTableIfMissing_of_missing (hleft 1 (by decide)) hmissing,
        map_sub_map_sub,
        bind_of_ok ((run_createTable_of_missing hname hspec hmissing).trans
          (if_neg (hleft 2 (by decide)))), map_sub_map_sub]
      rfl
    rw [bind_of_ok hcreate,
      bind_of_ok (run_storeDestinationTableMetadata (hleft 3 (by decide))),
      map_sub_map_sub, created, if_neg hexists]
    rfl

/-- When the first write of the metadata and the check for the table come through and a later step
fails, the metadata stays in progress. -/
theorem run_createWithMetadata_of_interrupted (hchecked : ∀ k, remaining = some k → 2 ≤ k)
    (hfails : Creatable config schema tableId destination →
      ∃ k, remaining = some k ∧ k < createCalls tableId destination) :
    ∃ e s, (createWithMetadata config schema tableId).run ⟨destination, remaining⟩ = .error e s ∧
      s.state.metadata = some (applyingMetadata schema tableId) := by
  have hstart : remaining ≠ some 0 := by
    intro hzero
    have hle := hchecked 0 hzero
    omega
  have hone : remaining.map (· - 1) ≠ some 0 := by
    intro hzero
    obtain ⟨k, hk, hsub⟩ := Option.map_eq_some_iff.mp hzero
    have hle := hchecked k hk
    omega
  unfold createWithMetadata
  rw [bind_of_ok (run_storeDestinationTableMetadata hstart), discard_bind]
  by_cases hexists : (destination.tables tableId.toString).isSome
  · -- The table exists, so the call that fails is the second write.
    have hcalls : createCalls tableId destination = 3 := if_pos hexists
    obtain ⟨k, rfl, hlt⟩ := hfails (.inl hexists)
    obtain rfl : k = 2 := by
      have hle := hchecked k rfl
      omega
    have hcheck : (createTableIfMissing config tableId.toString schema).run
        ⟨destination.setMetadata (applyingMetadata schema tableId), (some 2).map (· - 1)⟩ =
          .ok false ⟨_, ((some 2).map (· - 1)).map (· - 1)⟩ :=
      run_createTableIfMissing_of_exists hone hexists
    rw [bind_of_ok hcheck]
    exact ⟨_, _, rfl, rfl⟩
  · have hmissing : ¬ ((destination.setMetadata (applyingMetadata schema tableId)).tables
      tableId.toString).isSome := hexists
    by_cases hcreatable : Creatable config schema tableId destination
    · -- The table is missing, so it is its creation that fails or the second write.
      obtain ⟨⟨full, hname⟩, spec, hspec⟩ := hcreatable.resolve_left hexists
      have hcalls : createCalls tableId destination = 4 := if_neg hexists
      obtain ⟨k, rfl, hlt⟩ := hfails hcreatable
      have hcreate := @run_createTable_of_missing config schema _ ((some k).map (· - 2)) _ _ _
        hname hspec hmissing
      obtain rfl | rfl : k = 2 ∨ k = 3 := by
        have hle := hchecked k rfl
        omega
      · rw [bind_of_error ((run_createTableIfMissing_of_missing hone hmissing).trans
          (bind_of_error hcreate))]
        exact ⟨_, _, rfl, rfl⟩
      · rw [bind_of_ok ((run_createTableIfMissing_of_missing hone hmissing).trans
          (bind_of_ok hcreate))]
        exact ⟨_, _, rfl, rfl⟩
    · -- The definition is rejected before it is sent.
      obtain ⟨e, he⟩ := run_createTable_of_rejected (not_or.mp hcreatable).2
      rw [bind_of_error ((run_createTableIfMissing_of_missing hone hmissing).trans
        (bind_of_error he))]
      exact ⟨_, _, rfl, rfl⟩

/-! What stays as it is when a table is created and recorded. -/

@[simp]
theorem tables_recorded : (recorded schema tableId destination).tables = destination.tables := by
  unfold recorded addToCreatedTablesCache
  split_ifs <;> rfl

@[simp]
theorem createdViews_recorded :
    (recorded schema tableId destination).createdViews = destination.createdViews := by
  unfold recorded addToCreatedTablesCache
  split_ifs <;> rfl

theorem mem_createdTables_recorded :
    tableId ∈ (recorded schema tableId destination).createdTables := by
  unfold recorded addToCreatedTablesCache
  split_ifs with hmem
  · exact hmem
  · exact List.mem_cons_self

theorem metadata_recorded : (recorded schema tableId destination).metadata =
    some (applyingMetadata schema tableId).toApplied := by
  unfold recorded addToCreatedTablesCache
  split_ifs <;> rfl

@[simp]
theorem createdViews_created :
    (created schema tableId destination).createdViews = destination.createdViews := by
  unfold created
  split_ifs <;> rfl

theorem isSome_tables_created :
    ((created schema tableId destination).tables tableId.toString).isSome := by
  unfold created
  split_ifs with hexists
  · exact hexists
  · simp [Destination.setTable]

end Create

/-! ## Updating the view -/

section View

variable {config : Config} {schema : ReplicatedTableSchema} {viewName : String}
  {tableId : SequencedBigQueryTableId} {tables : String → Option (List (String × String))}
  {destination : Destination} {remaining : Option ℕ}

/-- The names of the view and of its target can be written in a statement. -/
def ViewNamed (config : Config) (viewName : String) (tableId : SequencedBigQueryTableId) : Prop :=
  (∃ name, fullTableName config viewName = .ok name) ∧
    ∃ name, fullTableName config tableId.toString = .ok name

/-- The table is recorded as created, and a view is only remembered when it was updated. -/
structure Ready (config : Config) (schema : ReplicatedTableSchema) (viewName : String)
    (tableId : SequencedBigQueryTableId) (tables : String → Option (List (String × String)))
    (destination : Destination) : Prop where
  metadata : destination.metadata = some (applyingMetadata schema tableId).toApplied
  tablesEq : destination.tables = tables
  cached : tableId ∈ destination.createdTables
  view : destination.createdViews viewName = some tableId →
    ViewNamed config viewName tableId ∧ (tables tableId.toString).isSome

/-- The destination with a view that points to a table, and is known to. -/
def Destination.pointView (destination : Destination) (viewName : String)
    (tableId : SequencedBigQueryTableId) : Destination :=
  { destination.setView viewName tableId.toString with
    createdViews := Function.update destination.createdViews viewName (some tableId) }

theorem run_ensureViewPointsToTable_of_known
    (hknown : destination.createdViews viewName = some tableId) :
    (ensureViewPointsToTable config viewName tableId).run ⟨destination, remaining⟩ =
      .ok false ⟨destination, remaining⟩ := by
  unfold ensureViewPointsToTable
  rw [run_bind_read, if_pos hknown]
  rfl

/-- Any other view is updated, or everything stays as it is. -/
theorem run_ensureViewPointsToTable_cases
    (hunknown : destination.createdViews viewName ≠ some tableId) :
    (∃ e, (ensureViewPointsToTable config viewName tableId).run ⟨destination, remaining⟩ =
        .error e ⟨destination, remaining⟩) ∧
      (ViewNamed config viewName tableId → (destination.tables tableId.toString).isSome →
        remaining = some 0) ∨
    ViewNamed config viewName tableId ∧ (destination.tables tableId.toString).isSome ∧
      (ensureViewPointsToTable config viewName tableId).run ⟨destination, remaining⟩ =
        .ok true ⟨destination.pointView viewName tableId, remaining.map (· - 1)⟩ := by
  unfold ensureViewPointsToTable createOrReplaceView
  rw [run_bind_read, if_neg hunknown]
  cases hview : fullTableName config viewName with
  | error e => exact .inl ⟨⟨e, rfl⟩, fun hnamed => by simp [ViewNamed, hview] at hnamed⟩
  | ok view =>
    cases htarget : fullTableName config tableId.toString with
    | error e => exact .inl ⟨⟨e, rfl⟩, fun hnamed => by simp [ViewNamed, htarget] at hnamed⟩
    | ok target =>
      have hcall := run_call requestFailed (fun destination : Destination =>
        if (destination.tables tableId.toString).isSome then
          .ok (destination.setView viewName tableId.toString)
        else .error responseError) destination remaining
      by_cases hremaining : remaining = some 0
      · rw [if_pos hremaining] at hcall
        exact .inl ⟨⟨_, bind_of_error hcall⟩, fun _ _ => hremaining⟩
      · rw [if_neg hremaining] at hcall
        by_cases htable : (destination.tables tableId.toString).isSome
        · simp only [if_pos htable] at hcall
          exact .inr ⟨⟨⟨view, hview⟩, target, htarget⟩, htable, bind_of_ok hcall⟩
        · simp only [if_neg htable] at hcall
          exact .inl ⟨⟨_, bind_of_error hcall⟩, fun _ h => absurd h htable⟩

/-- Without failing calls the view is known already, or it can be updated. -/
theorem exists_run_ensureViewPointsToTable_iff :
    (∃ changed s, (ensureViewPointsToTable config viewName tableId).run ⟨destination, none⟩ =
        .ok changed s) ↔
      destination.createdViews viewName = some tableId ∨
        ViewNamed config viewName tableId ∧ (destination.tables tableId.toString).isSome := by
  by_cases hview : destination.createdViews viewName = some tableId
  · rw [run_ensureViewPointsToTable_of_known hview]
    exact ⟨fun _ => .inl hview, fun _ => ⟨_, _, rfl⟩⟩
  · obtain ⟨⟨e, he⟩, hnot⟩ | ⟨hnamed, htable, hok⟩ :=
      @run_ensureViewPointsToTable_cases config viewName tableId destination none hview
    · rw [he]
      refine iff_of_false (by simp) (not_or.mpr ⟨hview, fun h => ?_⟩)
      cases hnot h.1 h.2
    · rw [hok]
      exact ⟨fun _ => .inr ⟨hnamed, htable⟩, fun _ => ⟨_, _, rfl⟩⟩

/-- Updating a view keeps what the update of the destination keeps. -/
theorem keeps_ensureViewPointsToTable {P : Destination → Prop}
    (hP : ∀ destination, P destination → ViewNamed config viewName tableId →
      (destination.tables tableId.toString).isSome → P (destination.pointView viewName tableId)) :
    Calls.Keeps P (ensureViewPointsToTable config viewName tableId) := by
  rintro ⟨destination, remaining⟩ hkept
  by_cases hview : destination.createdViews viewName = some tableId
  · rw [run_ensureViewPointsToTable_of_known hview]
    exact hkept
  · obtain ⟨⟨e, he⟩, -⟩ | ⟨hnamed, htable, hok⟩ :=
      @run_ensureViewPointsToTable_cases config viewName tableId destination remaining hview
    · rw [he]
      exact hkept
    · rw [hok]
      exact hP destination hkept hnamed htable

/-- Updating the view keeps a table ready, whether it comes through or not. -/
theorem keeps_ready_ensureViewPointsToTable :
    Calls.Keeps (Ready config schema viewName tableId tables)
      (ensureViewPointsToTable config viewName tableId) :=
  keeps_ensureViewPointsToTable fun _ hready hnamed htable =>
    { hready with view := fun _ => ⟨hnamed, by rw [← hready.tablesEq]; exact htable⟩ }

end View

/-! ## What a failed preparation leaves -/

section Prepare

variable {config : Config} {schemas : SnapshotId → Option TableSchema}
  {schema : ReplicatedTableSchema} {tableId : SequencedBigQueryTableId} {base : String}
  {destination : Destination} {metadata : DestinationTableMetadata}
  {tables : String → Option (List (String × String))} {k : ℕ}

/-- Without failing calls the preparation returns. -/
def Prepares (config : Config) (schema : ReplicatedTableSchema) (destination : Destination) :
    Prop :=
  ∃ tableId s, (prepareTableForStreaming config schema).run ⟨destination, none⟩ = .ok tableId s

/-- A table with no schema change in progress: it was never created, or it is applied under its
name; and it is not remembered, as after a restart. -/
structure AtRest (schema : ReplicatedTableSchema) (tableId : SequencedBigQueryTableId)
    (destination : Destination) : Prop where
  metadata : (destination.metadata = none ∧
      ∀ base, tableNameToBigqueryTableId schema.tableSchema.name = .ok base →
        tableId = .new base) ∨
    ∃ metadata, destination.metadata = some metadata ∧ metadata.isApplied ∧
      metadata.destinationTableId = tableId.toString
  named : tableId.tableId ≠ ""
  notCached : tableId ∉ destination.createdTables
  noView : ∀ viewName, destination.createdViews viewName ≠ some tableId

theorem AtRest.restart (hrest : AtRest schema tableId destination) :
    AtRest schema tableId destination.restart where
  metadata := hrest.metadata
  named := hrest.named
  notCached := List.not_mem_nil
  noView := nofun

theorem getAppliedDestinationTableMetadata_of_applied (happlied : metadata.isApplied) :
    getAppliedDestinationTableMetadata (some metadata) =
      .ok (some ⟨metadata.destinationTableId, metadata.snapshotId, metadata.replicationMask⟩) := by
  rw [getAppliedDestinationTableMetadata, DestinationTableMetadata.intoApplied, happlied]
  rfl

theorem sequencedTableId_of_applied (happlied : metadata.isApplied)
    (hid : metadata.destinationTableId = tableId.toString) (hnamed : tableId.tableId ≠ "") :
    sequencedTableId base (some metadata) = .ok tableId := by
  rw [sequencedTableId, getAppliedDestinationTableMetadata_of_applied happlied]
  show SequencedBigQueryTableId.fromStr metadata.destinationTableId = _
  rw [hid, SequencedBigQueryTableId.fromStr_toString hnamed]

theorem AtRest.sequencedTableId_eq (hrest : AtRest schema tableId destination)
    (hbase : tableNameToBigqueryTableId schema.tableSchema.name = .ok base) :
    sequencedTableId base destination.metadata = .ok tableId := by
  obtain ⟨hnone, hnew⟩ | ⟨metadata, hmetadata, happlied, hid⟩ := hrest.metadata
  · rw [hnone, hnew base hbase]
    rfl
  · rw [hmetadata, sequencedTableId_of_applied happlied hid hrest.named]

/-- A schema that passes the checks. -/
structure Accepted (schema : ReplicatedTableSchema) (base : String) : Prop where
  valid : validateBigqueryReplicaIdentity schema = .ok ()
  named : tableNameToBigqueryTableId schema.tableSchema.name = .ok base

theorem run_prepareTableForStreaming_of_rejected (hrejected : ∀ base, ¬ Accepted schema base)
    (remaining : Option ℕ) :
    ∃ e, (prepareTableForStreaming config schema).run ⟨destination, remaining⟩ =
      .error e ⟨destination, remaining⟩ := by
  unfold prepareTableForStreaming
  cases hvalid : validateBigqueryReplicaIdentity schema with
  | error e => exact ⟨e, rfl⟩
  | ok _ =>
    cases hbase : tableNameToBigqueryTableId schema.tableSchema.name with
    | error e => exact ⟨e, rfl⟩
    | ok base => exact absurd ⟨hvalid, hbase⟩ (hrejected base)

theorem run_prepareTableForStreaming_of_cached (haccepted : Accepted schema base)
    (hid : sequencedTableId base destination.metadata = .ok tableId)
    (hcached : tableId ∈ destination.createdTables) (remaining : Option ℕ) :
    (prepareTableForStreaming config schema).run ⟨destination, remaining⟩ =
      (ensureViewPointsToTable config base tableId >>= fun _ => pure tableId).run
        ⟨destination, remaining⟩ := by
  unfold prepareTableForStreaming
  rw [haccepted.valid, haccepted.named, run_bind_ofExcept_ok, run_bind_ofExcept_ok,
    run_bind_read, hid, run_bind_ofExcept_ok, run_bind_read,
    if_neg (not_not.mpr hcached)]
  rw [discard_bind]

/-- The steps for a table that is not remembered: it is created, and the view is updated. -/
theorem run_prepareTableForStreaming_of_not_cached (haccepted : Accepted schema base)
    (hid : sequencedTableId base destination.metadata = .ok tableId)
    (hcached : tableId ∉ destination.createdTables) (remaining : Option ℕ) :
    (prepareTableForStreaming config schema).run ⟨destination, remaining⟩ =
      (createWithMetadata config schema tableId >>= fun _ =>
        ensureViewPointsToTable config base tableId >>= fun _ => pure tableId).run
          ⟨destination, remaining⟩ := by
  unfold prepareTableForStreaming
  rw [haccepted.valid, haccepted.named, run_bind_ofExcept_ok, run_bind_ofExcept_ok,
    run_bind_read, hid, run_bind_ofExcept_ok, run_bind_read, if_pos hcached]
  simp only [createWithMetadata, bind_assoc, discard_bind]
  rfl

theorem not_prepares_of_rejected (hrejected : ∀ base, ¬ Accepted schema base) :
    ¬ Prepares config schema destination := by
  rintro ⟨tableId, s, hrun⟩
  obtain ⟨e, he⟩ := run_prepareTableForStreaming_of_rejected hrejected none
  rw [he] at hrun
  cases hrun

/-- Metadata in progress make every preparation fail. -/
theorem not_prepares_of_applying
    (hmetadata : destination.metadata = some (applyingMetadata schema tableId)) :
    ¬ Prepares config schema destination := by
  by_cases haccepted : ∃ base, Accepted schema base
  · obtain ⟨base, hvalid, hbase⟩ := haccepted
    rintro ⟨id, s, hrun⟩
    unfold prepareTableForStreaming at hrun
    rw [hvalid, hbase, run_bind_ofExcept_ok, run_bind_ofExcept_ok,
      run_bind_read, hmetadata] at hrun
    cases hrun
  · exact not_prepares_of_rejected (not_exists.mp haccepted)

/-- A table at rest is prepared when it can be created and the view updated. -/
theorem AtRest.prepares_iff (hrest : AtRest schema tableId destination)
    (haccepted : Accepted schema base) :
    Prepares config schema destination ↔
      Creatable config schema tableId destination ∧ ViewNamed config base tableId := by
  unfold Prepares
  rw [run_prepareTableForStreaming_of_not_cached haccepted
    (hrest.sequencedTableId_eq haccepted.named) hrest.notCached]
  have hunlimited : ∀ n k, (none : Option ℕ) = some k → n ≤ k := by simp
  by_cases hcreatable : Creatable config schema tableId destination
  · rw [bind_of_ok (run_createWithMetadata_of_enough hcreatable (hunlimited _)),
      exists_bind_pure_eq_ok_iff]
    refine exists_run_ensureViewPointsToTable_iff.trans ?_
    simp [hrest.noView base, hcreatable, isSome_tables_created]
  · obtain ⟨e, s, he, -⟩ := run_createWithMetadata_of_interrupted (hunlimited 2)
      (fun h => absurd h hcreatable)
    rw [bind_of_error he]
    simp [hcreatable]

theorem Ready.prepares_iff (hready : Ready config schema base tableId tables destination)
    (haccepted : Accepted schema base) (hnamed : tableId.tableId ≠ "") :
    Prepares config schema destination ↔
      ViewNamed config base tableId ∧ (tables tableId.toString).isSome := by
  have hid : sequencedTableId base destination.metadata = .ok tableId := by
    rw [hready.metadata]
    exact sequencedTableId_of_applied rfl rfl hnamed
  unfold Prepares
  rw [run_prepareTableForStreaming_of_cached haccepted hid hready.cached,
    exists_bind_pure_eq_ok_iff]
  refine exists_run_ensureViewPointsToTable_iff.trans ?_
  rw [hready.tablesEq]
  exact or_iff_right_of_imp hready.view

theorem run_handleRelationEvent_of_unchanged {relation : ReplicatedTableSchema}
    (hvalid : validateBigqueryReplicaIdentity relation = .ok ())
    (hmetadata : destination.metadata = some metadata) (happlied : metadata.isApplied)
    (hsnapshot : metadata.snapshotId = relation.tableSchema.snapshotId)
    (hmask : metadata.replicationMask = relation.replicationMask) :
    (handleRelationEvent config schemas relation).run ⟨destination, none⟩ =
      .ok () ⟨destination, none⟩ := by
  unfold handleRelationEvent
  rw [hvalid, run_bind_ofExcept_ok, run_bind_read, hmetadata,
    getAppliedDestinationTableMetadata_of_applied happlied, run_bind_ofExcept_ok]
  simp only [hsnapshot, hmask]
  rfl

/-- What a preparation leaves of which `k` calls come through and the next one fails, after a
restart or in the same process. -/
def afterFailure (config : Config) (schema : ReplicatedTableSchema) (k : ℕ) (restarted : Bool)
    (destination : Destination) : Destination :=
  let left := Calls.endState
    ((prepareTableForStreaming config schema).run ⟨destination, some k⟩)
  if restarted then left.restart else left

/-- When no call fails, the table is prepared, also behind a relation event for the stored
schema. Without stored metadata there is no such event: a relation event for a table that was never
prepared fails whether or not a preparation was interrupted. -/
def Recovers (config : Config) (schemas : SnapshotId → Option TableSchema)
    (schema : ReplicatedTableSchema) (destination : Destination) : Prop :=
  Prepares config schema destination ∧
    ∀ relation metadata, validateBigqueryReplicaIdentity relation = .ok () →
      destination.metadata = some metadata →
        metadata.snapshotId = relation.tableSchema.snapshotId →
          metadata.replicationMask = relation.replicationMask →
            (handleRelationEvent config schemas relation).run ⟨destination, none⟩ =
              .ok () ⟨destination, none⟩

/-- The failing call is the first write of the metadata, the update of the view or none; or it is
the check for the table, and the table exists or the process is restarted. -/
def HarmlessFailure (tableId : SequencedBigQueryTableId) (destination : Destination) (k : ℕ)
    (restarted : Bool) : Prop :=
  k = 0 ∨ k = 1 ∧ ((destination.tables tableId.toString).isSome ∨ restarted) ∨
    createCalls tableId destination ≤ k

instance (tableId : SequencedBigQueryTableId) (destination : Destination) (k : ℕ)
    (restarted : Bool) : Decidable (HarmlessFailure tableId destination k restarted) :=
  inferInstanceAs (Decidable (_ ∨ _))

/-- Only metadata in progress make a relation event for the stored schema fail. -/
theorem recovers_iff
    (happlied : ∀ metadata, destination.metadata = some metadata → metadata.isApplied) :
    Recovers config schemas schema destination ↔ Prepares config schema destination :=
  ⟨And.left, fun hprepares => ⟨hprepares, fun _ metadata hvalid hmetadata hsnapshot hmask =>
    run_handleRelationEvent_of_unchanged hvalid hmetadata (happlied metadata hmetadata)
      hsnapshot hmask⟩⟩

theorem AtRest.recovers_iff (hrest : AtRest schema tableId destination) :
    Recovers config schemas schema destination ↔ Prepares config schema destination := by
  refine BigQuery.recovers_iff fun metadata hmetadata => ?_
  obtain ⟨hnone, -⟩ | ⟨stored, hstored, happlied, -⟩ := hrest.metadata
  · rw [hnone] at hmetadata
    cases hmetadata
  · rw [hstored] at hmetadata
    cases hmetadata
    exact happlied

theorem Ready.atRest_restart (hready : Ready config schema base tableId tables destination)
    (hnamed : tableId.tableId ≠ "") :
    AtRest schema tableId destination.restart where
  metadata := .inr ⟨_, hready.metadata, rfl, rfl⟩
  named := hnamed
  notCached := List.not_mem_nil
  noView := nofun

theorem Ready.recovers_iff (hready : Ready config schema base tableId tables destination)
    (haccepted : Accepted schema base) (hnamed : tableId.tableId ≠ "") (restarted : Bool) :
    Recovers config schemas schema (if restarted then destination.restart else destination) ↔
      ViewNamed config base tableId ∧ ((tables tableId.toString).isSome ∨
        restarted ∧ Creatable config schema tableId destination) := by
  cases restarted with
  | false =>
    have happlied : ∀ metadata, destination.metadata = some metadata → metadata.isApplied := by
      intro metadata hmetadata
      rw [hready.metadata] at hmetadata
      cases hmetadata
      rfl
    rw [if_neg Bool.false_ne_true, BigQuery.recovers_iff happlied,
      hready.prepares_iff haccepted hnamed]
    simp
  | true =>
    have hrest := hready.atRest_restart hnamed
    rw [if_pos rfl, hrest.recovers_iff, hrest.prepares_iff haccepted, and_comm]
    refine and_congr_right fun _ => ⟨fun h => .inr ⟨rfl, h⟩, ?_⟩
    rintro (hexists | ⟨-, hcreatable⟩)
    · exact .inl (by rw [← hready.tablesEq] at hexists; exact hexists)
    · exact hcreatable

/-- When the table is recorded, what the preparation leaves is ready, whatever becomes of the
view. -/
theorem ready_afterFailure (hrest : AtRest schema tableId destination)
    (haccepted : Accepted schema base) {before : Destination} {remaining : Option ℕ}
    (hrun : (createWithMetadata config schema tableId).run ⟨destination, some k⟩ =
      .ok () ⟨recorded schema tableId before, remaining⟩)
    (hviews : before.createdViews = destination.createdViews) :
    Ready config schema base tableId before.tables
      (Calls.endState ((prepareTableForStreaming config schema).run ⟨destination, some k⟩)) := by
  have hready : Ready config schema base tableId before.tables
      (recorded schema tableId before) := by
    refine ⟨metadata_recorded, tables_recorded, mem_createdTables_recorded, fun hview => ?_⟩
    rw [createdViews_recorded, hviews] at hview
    exact absurd hview (hrest.noView base)
  rw [run_prepareTableForStreaming_of_not_cached haccepted
    (hrest.sequencedTableId_eq haccepted.named) hrest.notCached, bind_of_ok hrun]
  exact (keeps_ready_ensureViewPointsToTable.bind fun _ => Calls.Keeps.pure tableId) _ hready

/-- The first write fails, and nothing has changed. -/
theorem recovers_afterFailure_zero (hrest : AtRest schema tableId destination)
    (haccepted : Accepted schema base) (restarted : Bool) :
    Recovers config schemas schema (afterFailure config schema 0 restarted destination) ↔
      Prepares config schema destination := by
  have hleft : afterFailure config schema 0 restarted destination =
      if restarted then destination.restart else destination := by
    rw [afterFailure, run_prepareTableForStreaming_of_not_cached haccepted
      (hrest.sequencedTableId_eq haccepted.named) hrest.notCached]
    rfl
  rw [hleft]
  cases restarted with
  | false => exact hrest.recovers_iff
  | true =>
    refine hrest.restart.recovers_iff.trans ?_
    rw [hrest.restart.prepares_iff haccepted, hrest.prepares_iff haccepted]
    rfl

/-- The check for the table fails, and the table is recorded as created. -/
theorem recovers_afterFailure_one (hrest : AtRest schema tableId destination)
    (haccepted : Accepted schema base) (restarted : Bool) :
    Recovers config schemas schema (afterFailure config schema 1 restarted destination) ↔
      Prepares config schema destination ∧
        ((destination.tables tableId.toString).isSome ∨ restarted) := by
  have hready := ready_afterFailure hrest haccepted
    (@run_createWithMetadata_of_unchecked config schema tableId destination) rfl
  rw [afterFailure, hready.recovers_iff haccepted hrest.named restarted,
    hrest.prepares_iff haccepted]
  -- The tables are those of before, also for whether the table can be created.
  have hcreatable : Creatable config schema tableId
      (endState ((prepareTableForStreaming config schema).run ⟨destination, some 1⟩)) ↔
        Creatable config schema tableId destination := by
    rw [Creatable, hready.tablesEq]
    rfl
  tauto

/-- The view is updated last; any failure between the first write and it is for good. -/
theorem recovers_afterFailure_of_le (hrest : AtRest schema tableId destination)
    (haccepted : Accepted schema base) (hk : 2 ≤ k) (restarted : Bool) :
    Recovers config schemas schema (afterFailure config schema k restarted destination) ↔
      Prepares config schema destination ∧ createCalls tableId destination ≤ k := by
  rw [hrest.prepares_iff haccepted]
  by_cases hdone : Creatable config schema tableId destination ∧
      createCalls tableId destination ≤ k
  · obtain ⟨hcreatable, henough⟩ := hdone
    have hready := ready_afterFailure hrest haccepted
      (run_createWithMetadata_of_enough hcreatable (by rintro n ⟨⟩; exact henough))
      createdViews_created
    rw [afterFailure, hready.recovers_iff haccepted hrest.named restarted]
    simp [isSome_tables_created, hcreatable, henough]
  · obtain ⟨e, s, hrun, hmetadata⟩ := @run_createWithMetadata_of_interrupted config schema tableId
      destination (some k) (by rintro n ⟨⟩; exact hk)
      (fun hcreatable => ⟨k, rfl, not_le.mp fun hle => hdone ⟨hcreatable, hle⟩⟩)
    have happlying : (afterFailure config schema k restarted destination).metadata =
        some (applyingMetadata schema tableId) := by
      rw [afterFailure, run_prepareTableForStreaming_of_not_cached haccepted
        (hrest.sequencedTableId_eq haccepted.named) hrest.notCached, bind_of_error hrun]
      cases restarted <;> exact hmetadata
    refine iff_of_false (fun h => not_prepares_of_applying happlying h.1) ?_
    rintro ⟨⟨hcreatable, -⟩, hle⟩
    exact hdone ⟨hcreatable, hle⟩

/-- After one failing call the table can be prepared again exactly when the schema passes the checks,
the table can be created and the view updated, and the call was a harmless one. -/
theorem prepareTableForStreaming_recovers_iff (hrest : AtRest schema tableId destination) (k : ℕ)
    (restarted : Bool) :
    Recovers config schemas schema (afterFailure config schema k restarted destination) ↔
      (∃ base, Accepted schema base ∧ Creatable config schema tableId destination ∧
          ViewNamed config base tableId) ∧
        HarmlessFailure tableId destination k restarted := by
  by_cases haccepted : ∃ base, Accepted schema base
  · obtain ⟨base, haccepted⟩ := haccepted
    have hprepares : (∃ base, Accepted schema base ∧ Creatable config schema tableId destination ∧
        ViewNamed config base tableId) ↔ Prepares config schema destination := by
      constructor
      · rintro ⟨base, haccepted, hprepares⟩
        exact (hrest.prepares_iff haccepted).mpr hprepares
      · exact fun hprepares => ⟨base, haccepted, (hrest.prepares_iff haccepted).mp hprepares⟩
    rw [hprepares]
    have hcalls : 3 ≤ createCalls tableId destination := by
      unfold createCalls
      split_ifs <;> omega
    unfold HarmlessFailure
    match k with
    | 0 =>
      rw [recovers_afterFailure_zero hrest haccepted]
      simp
    | 1 =>
      rw [recovers_afterFailure_one hrest haccepted]
      have hlt : ¬ createCalls tableId destination ≤ 1 := by omega
      simp [hlt]
    | k + 2 =>
      rw [recovers_afterFailure_of_le hrest haccepted (by omega)]
      simp
  · have hrejected := not_exists.mp haccepted
    refine iff_of_false (fun h => not_prepares_of_rejected hrejected h.1) ?_
    rintro ⟨⟨base, haccepted, -⟩, -⟩
    exact hrejected base haccepted

end Prepare

/-- A table of users. -/
def usersSchema : ReplicatedTableSchema :=
  .fromMask ⟨1, ⟨"public", "users"⟩, [⟨"id", .int8, -1, 1, some 1, false⟩], 0⟩ [true]

def usersConfig : Config := ⟨"project", "dataset"⟩

def usersTableId : SequencedBigQueryTableId := .new "public_users"

def newDestination : Destination := ⟨fun _ => none, fun _ => none, none, [], fun _ => none, []⟩

/-- The destination of a process that finds the table created. -/
def restartedDestination : Destination where
  tables := fun name => if name = "public_users_0" then some [("id", "int64")] else none
  views := fun name => if name = "public_users" then some "public_users_0" else none
  metadata := some (newApplied "public_users_0" 0 [true])
  createdTables := []
  createdViews := fun _ => none
  tasks := []

theorem restartedDestination_atRest : AtRest usersSchema usersTableId restartedDestination where
  metadata := .inr ⟨_, rfl, rfl, rfl⟩
  named := by decide
  notCached := List.not_mem_nil
  noView := nofun

/-- When the update of the view fails, the next call prepares the table. -/
theorem prepareTableForStreaming_recovers_view :
    Recovers usersConfig (fun _ => none) usersSchema
      (afterFailure usersConfig usersSchema 3 false restartedDestination) :=
  (prepareTableForStreaming_recovers_iff restartedDestination_atRest 3 false).mpr
    ⟨⟨"public_users", ⟨rfl, rfl⟩, .inl rfl, ⟨_, rfl⟩, _, rfl⟩, by decide⟩

/-- When the creation of a new table fails, or the second write of the metadata of a table found
after a restart, the metadata stay in progress. The next calls fail, in the same process and after
a restart, and so does a relation event for the same schema. -/
theorem prepareTableForStreaming_stuck :
    Prepares usersConfig usersSchema newDestination ∧
      Prepares usersConfig usersSchema restartedDestination ∧
        ∀ restarted : Bool,
          (∃ e s, (prepareTableForStreaming usersConfig usersSchema).run
              ⟨afterFailure usersConfig usersSchema 2 restarted newDestination, none⟩ =
                .error e s ∧ e.kind = .invalidState) ∧
            (∃ e s, (handleRelationEvent usersConfig (fun _ => none) usersSchema).run
              ⟨afterFailure usersConfig usersSchema 2 restarted newDestination, none⟩ =
                .error e s ∧ e.kind = .invalidState) ∧
            ∃ e s, (prepareTableForStreaming usersConfig usersSchema).run
              ⟨afterFailure usersConfig usersSchema 2 restarted restartedDestination, none⟩ =
                .error e s ∧ e.kind = .invalidState := by
  refine ⟨⟨_, _, rfl⟩, ⟨_, _, rfl⟩, fun restarted => ?_⟩
  cases restarted <;> exact ⟨⟨_, _, rfl, rfl⟩, ⟨_, _, rfl, rfl⟩, _, _, rfl, rfl⟩

end Etl.BigQuery
