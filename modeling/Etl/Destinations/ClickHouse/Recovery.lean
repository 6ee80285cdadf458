import Etl.Destinations.ClickHouse.SchemaChange
import Etl.Destinations.TableName

/-! # Schema changes that are interrupted

A relation event changes a ClickHouse table in steps: it stores metadata with status Applying,
runs the statements and stores the metadata as Applied. A row event makes sure that the table
exists and recovers a change it finds in progress. A replay of the stream begins with the relation
event, however, and that one insists on applied metadata: the change is completed by a replay
exactly when it was interrupted before the first or after the last of its steps
(`replay_completes_iff`).

Reference: `etl-destinations/src/clickhouse/core.rs` (`handle_relation_event`,
`recover_applying_metadata`).
-/

namespace Etl.ClickHouse

open NamedColumns Calls

/-! ## The destination's operations -/

section Operations

-- The engine the destination is configured for, and the schema versions the store answers with.
variable (engine : ClickHouseEngine) (schemas : SnapshotId → Option TableSchema)

def issueCreateTableStmt (clickhouseTableName : String) (schema : ReplicatedTableSchema) :
    Calls EtlError Destination Unit := do
  if engine = .replacingMergeTree then
    discard <| .ofExcept (primaryKeyColumnsSorted clickhouseTableName schema.columnSchemas)
  executeDdl clickhouseTableName (.createTable engine (createTableColumns engine schema))
  if engine = .replacingMergeTree then
    executeDdl clickhouseTableName (.createView (schema.columnSchemas.map ColumnSchema.name))

/-- Creates the table between two writes of its metadata. -/
def createTableWithMetadata (clickhouseTableName : String) (schema : ReplicatedTableSchema) :
    Calls EtlError Destination Unit := do
  let metadata := DestinationTableMetadata.newApplying clickhouseTableName
    schema.tableSchema.snapshotId schema.replicationMask
  storeDestinationTableMetadata metadata
  issueCreateTableStmt engine clickhouseTableName schema
  storeDestinationTableMetadata metadata.toApplied

/-- Rejects a table of another engine. -/
def ensureEngineMatches (clickhouseTableName : String) : Calls EtlError Destination Unit := do
  match (← .read).tables clickhouseTableName with
  | none => return
  | some table =>
    if table.engine = engine then return
    else
      .ofExcept (bailWith .configError "ClickHouse table engine mismatch"
        ("Table '" ++ clickhouseTableName ++ "' was previously created with engine '" ++
          table.engine.asClickhouseStr ++ "', but the pipeline is configured for engine '" ++
          engine.asClickhouseStr ++ "'. Either drop the destination table and re-sync, or " ++
          "reconfigure the pipeline's `engine` to match the existing table."))

/-- Runs an operation again that was interrupted: a schema change from the version before it, or
the creation of the table. -/
def recoverApplyingMetadata (clickhouseTableName : String) (schema : ReplicatedTableSchema)
    (metadata : DestinationTableMetadata) : Calls EtlError Destination Unit := do
  match metadata.previousSnapshotId with
  | some prevSnapshotId =>
    let tableId := schema.id
    match schemas prevSnapshotId with
    | none =>
      .ofExcept (bailWith .invalidState "Old schema not found for recovery"
        s!"Cannot find schema for table {tableId} at snapshot_id {prevSnapshotId}")
    | some oldTableSchema =>
      let oldSchema := ReplicatedTableSchema.fromMask oldTableSchema metadata.replicationMask
      applySchemaDiff engine clickhouseTableName (oldSchema.diff schema) oldSchema schema
  | none => issueCreateTableStmt engine clickhouseTableName schema
  storeDestinationTableMetadata metadata.toApplied

/-- Makes sure that the table exists with the columns of the schema. -/
def ensureTableExists (schema : ReplicatedTableSchema) :
    Calls EtlError Destination (String × List Bool) := do
  .ofExcept (validateReplicaIdentityForClickhouse schema engine)
  let clickhouseTableName ← .ofExcept (tryStringifyTableName schema.tableSchema.name)
  match (← .read).tableCache clickhouseTableName with
  | some flags => return (clickhouseTableName, flags)
  | none =>
    ensureEngineMatches engine clickhouseTableName
    match (← .read).metadata with
    | none => createTableWithMetadata engine clickhouseTableName schema
    | some metadata =>
      if metadata.isApplying then
        recoverApplyingMetadata engine schemas clickhouseTableName schema metadata
    let actualColumns :=
      ((← .read).tables clickhouseTableName).elim [] ClickHouseTable.columns
    let nullableFlags ← .ofExcept (nullableFlagsFromClickhouseColumns clickhouseTableName
      (expectedClickhouseColumnNames schema engine) actualColumns)
    .update fun destination => { destination with
      tableCache := Function.update destination.tableCache clickhouseTableName nullableFlags }
    return (clickhouseTableName, nullableFlags)

/-- Changes the table to the schema of a relation event. -/
def handleRelationEvent (newSchema : ReplicatedTableSchema) : Calls EtlError Destination Unit := do
  .ofExcept (validateReplicaIdentityForClickhouse newSchema engine)
  let tableId := newSchema.id
  let newSnapshotId := newSchema.tableSchema.snapshotId
  let newReplicationMask := newSchema.replicationMask
  match ← .ofExcept (getAppliedDestinationTableMetadata (← .read).metadata) with
  | none =>
    .ofExcept (bailWith .corruptedTableSchema "Missing destination table metadata"
      (s!"No destination table metadata found for table {tableId} when processing schema " ++
        "change. The metadata should have been recorded during initial table synchronization."))
  | some metadata =>
    if metadata.snapshotId = newSnapshotId ∧ metadata.replicationMask = newReplicationMask then
      return
    let currentSnapshotId := metadata.snapshotId
    match schemas currentSnapshotId with
    | none =>
      .ofExcept (bailWith .invalidState "Old schema not found"
        s!"Could not find schema for table {tableId} at snapshot_id {currentSnapshotId}")
    | some currentTableSchema =>
      let currentSchema :=
        ReplicatedTableSchema.fromMask currentTableSchema metadata.replicationMask
      let clickhouseTableName := metadata.destinationTableId
      let updatedMetadata := (DestinationTableMetadata.newApplied clickhouseTableName
        metadata.snapshotId metadata.replicationMask).withSchemaChange newSnapshotId
          newReplicationMask .applying
      storeDestinationTableMetadata updatedMetadata
      applySchemaDiff engine clickhouseTableName (currentSchema.diff newSchema) currentSchema
        newSchema
      storeDestinationTableMetadata updatedMetadata.toApplied
      .update fun destination => { destination with
        tableCache := Function.update destination.tableCache clickhouseTableName none }

end Operations

/-! ## The steps of a change -/

section Change

variable {engine : ClickHouseEngine} {schemas : SnapshotId → Option TableSchema}
  {tableName : String} {oldTable : TableSchema} {oldMask : List Bool} {new : ReplicatedTableSchema}
  {destination : Destination} {remaining : Option ℕ}

/-- A table with the columns of a schema version. If the new schema gives the table another name, no
table has that name yet. -/
structure AtRest (engine : ClickHouseEngine) (schemas : SnapshotId → Option TableSchema)
    (tableName : String) (oldTable : TableSchema) (oldMask : List Bool)
    (new : ReplicatedTableSchema) (destination : Destination) : Prop where
  metadata : destination.metadata = some (.newApplied tableName oldTable.snapshotId oldMask)
  stored : schemas oldTable.snapshotId = some oldTable
  table : ∃ table, destination.tables tableName = some table ∧ table.engine = engine ∧
    (table.columns.map Prod.fst).Nodup ∧
      table.columns.map Prod.fst =
        expectedClickhouseColumnNames (.fromMask oldTable oldMask) engine
  newName : ∀ name, tryStringifyTableName new.tableSchema.name = .ok name → name ≠ tableName →
    destination.tables name = none ∧ destination.tableCache name = none

theorem AtRest.restart (hrest : AtRest engine schemas tableName oldTable oldMask new destination) :
    AtRest engine schemas tableName oldTable oldMask new destination.restart where
  metadata := hrest.metadata
  stored := hrest.stored
  table := hrest.table
  newName := fun name hname hother => ⟨(hrest.newName name hname hother).1, rfl⟩

/-- The metadata of the change while it is in progress. -/
def applyingMetadata (tableName : String) (oldTable : TableSchema) (oldMask : List Bool)
    (new : ReplicatedTableSchema) : DestinationTableMetadata :=
  (DestinationTableMetadata.newApplied tableName oldTable.snapshotId oldMask).withSchemaChange
    new.tableSchema.snapshotId new.replicationMask .applying

/-- The steps of a change. -/
def changeSteps (engine : ClickHouseEngine) (tableName : String) (oldTable : TableSchema)
    (oldMask : List Bool) (new : ReplicatedTableSchema) : Calls EtlError Destination Unit := do
  storeDestinationTableMetadata (applyingMetadata tableName oldTable oldMask new)
  let old := ReplicatedTableSchema.fromMask oldTable oldMask
  applySchemaDiff engine tableName (old.diff new) old new
  storeDestinationTableMetadata (applyingMetadata tableName oldTable oldMask new).toApplied
  .update fun destination => { destination with
    tableCache := Function.update destination.tableCache tableName none }

/-- The statements of a change. -/
def changeStatements (engine : ClickHouseEngine) (oldTable : TableSchema) (oldMask : List Bool)
    (new : ReplicatedTableSchema) : List Ddl :=
  let old := ReplicatedTableSchema.fromMask oldTable oldMask
  schemaDiffStatements engine (old.diff new) old new

/-- The calls a change makes: one for each statement, and two that store metadata. -/
def changeCalls (engine : ClickHouseEngine) (oldTable : TableSchema) (oldMask : List Bool)
    (new : ReplicatedTableSchema) : ℕ :=
  (changeStatements engine oldTable oldMask new).length + 2

theorem run_handleRelationEvent_of_atRest
    (hrest : AtRest engine schemas tableName oldTable oldMask new destination)
    (hchange : ¬ (oldTable.snapshotId = new.tableSchema.snapshotId ∧ oldMask = new.replicationMask))
    (hvalid : validateReplicaIdentityForClickhouse new engine = .ok ()) (remaining : Option ℕ) :
    (handleRelationEvent engine schemas new).run ⟨destination, remaining⟩ =
      (changeSteps engine tableName oldTable oldMask new).run ⟨destination, remaining⟩ := by
  have happlied : getAppliedDestinationTableMetadata destination.metadata =
      .ok (some ⟨tableName, oldTable.snapshotId, oldMask⟩) := by
    rw [hrest.metadata]
    rfl
  unfold handleRelationEvent
  rw [hvalid, run_bind_ofExcept_ok, run_bind_read, happlied, run_bind_ofExcept_ok]
  simp only [if_neg hchange, hrest.stored]
  rfl

/-- The destination when a change has been started. -/
def started (tableName : String) (oldTable : TableSchema) (oldMask : List Bool)
    (new : ReplicatedTableSchema) (destination : Destination) : Destination :=
  { destination with metadata := some (applyingMetadata tableName oldTable oldMask new) }

/-- The destination when a change has been completed. -/
def completed (tableName : String) (oldTable : TableSchema) (oldMask : List Bool)
    (new : ReplicatedTableSchema) (destination : Destination) : Destination :=
  { destination with
    metadata := some (applyingMetadata tableName oldTable oldMask new).toApplied
    tableCache := Function.update destination.tableCache tableName none }

/-- A change is completed when the diff passes its check, enough calls come through and the
server rejects no statement. -/
theorem run_changeSteps_eq_ok_iff {t : CallState Destination} {u : Unit} :
    (changeSteps engine tableName oldTable oldMask new).run ⟨destination, remaining⟩ = .ok u t ↔
      rejectAlters engine tableName ((ReplicatedTableSchema.fromMask oldTable oldMask).diff new)
        (.fromMask oldTable oldMask) = .ok () ∧
        (∀ k, remaining = some k → changeCalls engine oldTable oldMask new ≤ k) ∧
          ∃ changed, (changeStatements engine oldTable oldMask new).foldlM
              (fun destination ddl => ddl.on tableName destination)
              (started tableName oldTable oldMask new destination) = .ok changed ∧
            t = ⟨completed tableName oldTable oldMask new changed,
              remaining.map (· - changeCalls engine oldTable oldMask new)⟩ := by
  have hcalls : changeCalls engine oldTable oldMask new =
      (changeStatements engine oldTable oldMask new).length + 2 := rfl
  -- The numbers of calls that are left after each step.
  have hleft : ((remaining.map (· - 1)).map
      (· - (changeStatements engine oldTable oldMask new).length)).map (· - 1) =
      remaining.map (· - changeCalls engine oldTable oldMask new) := by
    rw [Calls.map_sub_map_sub, Calls.map_sub_map_sub, hcalls, Nat.add_comm 1]
  unfold changeSteps
  simp only [Calls.bind_eq_ok_iff, run_storeDestinationTableMetadata_eq_ok_iff,
    run_applySchemaDiff_eq_ok_iff]
  constructor
  · rintro ⟨_, _, ⟨hfirst, rfl⟩, _, ⟨changed, left⟩, ⟨hreject, henough, hfold, rfl⟩, _, _,
      ⟨hlast, rfl⟩, hupdate⟩
    refine ⟨hreject, ?_, changed, hfold, ?_⟩
    · rintro k rfl
      have hone : k - 1 - (changeStatements engine oldTable oldMask new).length ≠ 0 :=
        fun h => hlast (congrArg some h)
      omega
    · cases hupdate
      rw [← hleft]
      rfl
  · rintro ⟨hreject, henough, changed, hfold, rfl⟩
    refine ⟨(), _, ⟨?_, rfl⟩, (), ⟨changed, _⟩, ⟨hreject, ?_, hfold, rfl⟩, (), _, ⟨?_, rfl⟩, ?_⟩
    · rintro hzero
      have hle := henough 0 hzero
      omega
    · intro k hk
      obtain ⟨n, hn, rfl⟩ := Option.map_eq_some_iff.mp hk
      have hle := henough n hn
      show (changeStatements engine oldTable oldMask new).length ≤ n - 1
      omega
    · intro hzero
      obtain ⟨m, hm, hsub⟩ := Option.map_eq_some_iff.mp hzero
      obtain ⟨n, hn, rfl⟩ := Option.map_eq_some_iff.mp hm
      have hle := henough n hn
      change n - 1 - (changeStatements engine oldTable oldMask new).length = 0 at hsub
      omega
    · rw [← hleft]
      rfl

theorem keeps_metadata_applySchemaDiff (metadata : Option DestinationTableMetadata)
    (diff : SchemaDiff) (currentSchema newSchema : ReplicatedTableSchema) :
    Calls.Keeps (fun destination => destination.metadata = metadata)
      (applySchemaDiff engine tableName diff currentSchema newSchema) := by
  rw [applySchemaDiff_eq]
  refine (Calls.Keeps.ofExcept _).bind fun _ => Calls.Keeps.forM fun ddl _ => Calls.Keeps.call ?_
  intro before after hbefore hddl
  obtain ⟨table, -, hafter⟩ := bind_eq_ok_iff.mp hddl
  cases hafter
  exact hbefore

theorem metadata_of_interrupted (hremaining : remaining ≠ some 0)
    (hinterrupted : ∀ u t,
      (changeSteps engine tableName oldTable oldMask new).run ⟨destination, remaining⟩ ≠ .ok u t) :
    (Calls.endState ((changeSteps engine tableName oldTable oldMask new).run
      ⟨destination, remaining⟩)).metadata =
        some (applyingMetadata tableName oldTable oldMask new) := by
  have hkeeps : Calls.Keeps (fun destination => destination.metadata =
      some (applyingMetadata tableName oldTable oldMask new))
      (applySchemaDiff engine tableName
        ((ReplicatedTableSchema.fromMask oldTable oldMask).diff new)
        (.fromMask oldTable oldMask) new) := keeps_metadata_applySchemaDiff _ _ _ _
  have hstore : (storeDestinationTableMetadata (applyingMetadata tableName oldTable oldMask new)).run
      ⟨destination, remaining⟩ =
        .ok () ⟨started tableName oldTable oldMask new destination, remaining.map (· - 1)⟩ :=
    run_storeDestinationTableMetadata_eq_ok_iff.mpr ⟨hremaining, rfl⟩
  have hafter := hkeeps
    ⟨started tableName oldTable oldMask new destination, remaining.map (· - 1)⟩ rfl
  unfold changeSteps at hinterrupted ⊢
  rw [bind_of_ok hstore] at hinterrupted ⊢
  cases hdiff : (applySchemaDiff engine tableName
      ((ReplicatedTableSchema.fromMask oldTable oldMask).diff new) (.fromMask oldTable oldMask)
        new).run
          ⟨started tableName oldTable oldMask new destination, remaining.map (· - 1)⟩ with
  | error e mid =>
    rw [bind_of_error hdiff]
    rw [hdiff] at hafter
    exact hafter
  | ok _ mid =>
    rw [hdiff] at hafter
    rw [bind_of_ok hdiff] at hinterrupted ⊢
    by_cases hlast : mid.remaining = some 0
    · obtain ⟨state, left⟩ := mid
      obtain rfl : left = some 0 := hlast
      exact hafter
    · have hstored := run_storeDestinationTableMetadata_eq_ok_iff (u := ()).mpr
        (⟨hlast, rfl⟩ : mid.remaining ≠ some 0 ∧ _ =
          (⟨{ mid.state with
            metadata := some (applyingMetadata tableName oldTable oldMask new).toApplied },
              mid.remaining.map (· - 1)⟩ : CallState Destination))
      rw [bind_of_ok hstored] at hinterrupted
      exact absurd rfl (hinterrupted () _)

end Change

/-! ## Replaying the stream -/

/-- What a replay does first for the table: the relation event, then the check before writing
rows. -/
def replay (engine : ClickHouseEngine) (schemas : SnapshotId → Option TableSchema)
    (newSchema : ReplicatedTableSchema) : Calls EtlError Destination (String × List Bool) := do
  handleRelationEvent engine schemas newSchema
  ensureTableExists engine schemas newSchema

/-- The new schema is applied, and the table has its columns. -/
def SchemaApplied (engine : ClickHouseEngine) (tableName : String) (new : ReplicatedTableSchema)
    (destination : Destination) : Prop :=
  destination.metadata =
      some (.newApplied tableName new.tableSchema.snapshotId new.replicationMask) ∧
    (destination.tables tableName).map (·.columns.map Prod.fst) =
      some (expectedClickhouseColumnNames new engine)

/-- The destination accepts the schema for the same table, and the statements run and leave the
expected columns. -/
def ChangeApplies (engine : ClickHouseEngine) (tableName : String)
    (old new : ReplicatedTableSchema) : Prop :=
  validateReplicaIdentityForClickhouse new engine = .ok () ∧
    tryStringifyTableName new.tableSchema.name = .ok tableName ∧
      rejectAlters engine tableName (old.diff new) old = .ok () ∧
        RenamesFree engine old new ∧ AddsBehind engine old new

section Replay

variable {engine : ClickHouseEngine} {schemas : SnapshotId → Option TableSchema}
  {tableName : String} {oldTable : TableSchema} {oldMask : List Bool} {new : ReplicatedTableSchema}
  {destination : Destination} {metadata : DestinationTableMetadata} {t : CallState Destination}
  {remaining : Option ℕ} {u : Unit}

/-- A change has been completed, whatever columns it left. -/
structure Completed (engine : ClickHouseEngine) (tableName : String) (new : ReplicatedTableSchema)
    (destination : Destination) : Prop where
  metadata : destination.metadata =
    some (.newApplied tableName new.tableSchema.snapshotId new.replicationMask)
  table : ∃ table, destination.tables tableName = some table ∧ table.engine = engine
  tableCache : ∀ name, tryStringifyTableName new.tableSchema.name = .ok name →
    destination.tableCache name = none
  newName : ∀ name, tryStringifyTableName new.tableSchema.name = .ok name → name ≠ tableName →
    destination.tables name = none

theorem Completed.restart (hcompleted : Completed engine tableName new destination) :
    Completed engine tableName new destination.restart where
  metadata := hcompleted.metadata
  table := hcompleted.table
  tableCache := fun _ _ => rfl
  newName := hcompleted.newName

/-- With applied metadata and nothing in memory, the check compares the columns of the table. -/
theorem exists_run_ensureTableExists (schemas : SnapshotId → Option TableSchema) {name : String}
    (hvalid : validateReplicaIdentityForClickhouse new engine = .ok ())
    (hname : tryStringifyTableName new.tableSchema.name = .ok name)
    (hcache : destination.tableCache name = none)
    (hengine : ∀ table, destination.tables name = some table → table.engine = engine)
    (hmetadata : destination.metadata = some metadata) (happlied : metadata.isApplying = false)
    (remaining : Option ℕ) :
    (∃ result t, (ensureTableExists engine schemas new).run ⟨destination, remaining⟩ =
        .ok result t ∧ SchemaApplied engine tableName new t.state) ↔
      ((destination.tables name).elim [] ClickHouseTable.columns).map Prod.fst =
          expectedClickhouseColumnNames new engine ∧
        SchemaApplied engine tableName new destination := by
  have hmatches : (ensureEngineMatches engine name).run ⟨destination, remaining⟩ =
      .ok () ⟨destination, remaining⟩ := by
    unfold ensureEngineMatches
    rw [run_bind_read]
    cases htable : destination.tables name with
    | none => rfl
    | some table =>
      dsimp only
      rw [if_pos (hengine table htable)]
      rfl
  unfold ensureTableExists
  rw [hvalid, run_bind_ofExcept_ok, hname, run_bind_ofExcept_ok, run_bind_read]
  simp only [hcache]
  rw [bind_of_ok hmatches, run_bind_read]
  simp only [hmetadata, happlied, Bool.false_eq_true, if_false]
  rw [run_bind_read, ← exists_nullableFlags_iff]
  cases nullableFlagsFromClickhouseColumns name (expectedClickhouseColumnNames new engine)
      ((destination.tables name).elim [] ClickHouseTable.columns) with
  | ok flags =>
    constructor
    · rintro ⟨result, t, hrun, hschema⟩
      cases hrun
      exact ⟨⟨flags, rfl⟩, hschema⟩
    · rintro ⟨-, hschema⟩
      exact ⟨_, _, rfl, hschema⟩
  | error e =>
    refine iff_of_false ?_ fun h => nomatch h.1
    rintro ⟨result, t, hrun, -⟩
    cases hrun

theorem exists_run_ensureTableExists_of_completed (hcompleted : Completed engine tableName new destination)
    (remaining : Option ℕ) :
    (∃ flags t, (ensureTableExists engine schemas new).run ⟨destination, remaining⟩ = .ok flags t ∧
        SchemaApplied engine tableName new t.state) ↔
      validateReplicaIdentityForClickhouse new engine = .ok () ∧
        tryStringifyTableName new.tableSchema.name = .ok tableName ∧
          (destination.tables tableName).map (·.columns.map Prod.fst) =
            some (expectedClickhouseColumnNames new engine) := by
  cases hvalid : validateReplicaIdentityForClickhouse new engine with
  | error e =>
    refine iff_of_false ?_ fun h => nomatch h.1
    rintro ⟨flags, t, hrun, -⟩
    rw [ensureTableExists, hvalid] at hrun
    cases hrun
  | ok _ =>
    cases hname : tryStringifyTableName new.tableSchema.name with
    | error e =>
      refine iff_of_false ?_ fun h => nomatch h.2.1
      rintro ⟨flags, t, hrun, -⟩
      rw [ensureTableExists, hvalid, hname] at hrun
      cases hrun
    | ok name =>
      have hengine : ∀ table, destination.tables name = some table → table.engine = engine := by
        intro table htable
        by_cases hsame : name = tableName
        · obtain ⟨table', htable', hengine'⟩ := hcompleted.table
          rw [hsame, htable'] at htable
          rw [← Option.some.inj htable, hengine']
        · rw [hcompleted.newName name hname hsame] at htable
          cases htable
      rw [exists_run_ensureTableExists schemas hvalid hname (hcompleted.tableCache name hname) hengine
        hcompleted.metadata rfl remaining]
      obtain ⟨table, htable, -⟩ := hcompleted.table
      constructor
      · rintro ⟨hcolumns, -, hexpected⟩
        refine ⟨rfl, congrArg _ ?_, hexpected⟩
        -- A table of another name does not exist, so it has none of the expected columns.
        by_contra hother
        rw [hcompleted.newName name hname hother] at hcolumns
        cases engine <;> simp [expectedClickhouseColumnNames, trailingCdcColumnNames] at hcolumns
      · rintro ⟨-, heq, hexpected⟩
        cases heq
        refine ⟨?_, hcompleted.metadata, hexpected⟩
        rw [htable] at hexpected ⊢
        exact Option.some.inj hexpected

theorem exists_run_replay_of_completed (hcompleted : Completed engine tableName new destination) :
    (∃ result t, (replay engine schemas new).run ⟨destination, none⟩ = .ok result t ∧
        SchemaApplied engine tableName new t.state) ↔
      validateReplicaIdentityForClickhouse new engine = .ok () ∧
        tryStringifyTableName new.tableSchema.name = .ok tableName ∧
          (destination.tables tableName).map (·.columns.map Prod.fst) =
            some (expectedClickhouseColumnNames new engine) := by
  cases hvalid : validateReplicaIdentityForClickhouse new engine with
  | error e =>
    refine iff_of_false ?_ fun h => nomatch h.1
    rintro ⟨result, t, hrun, -⟩
    rw [replay, handleRelationEvent, hvalid] at hrun
    cases hrun
  | ok _ =>
    have hunchanged : (handleRelationEvent engine schemas new).run ⟨destination, none⟩ =
        .ok () ⟨destination, none⟩ := by
      have happlied : getAppliedDestinationTableMetadata destination.metadata =
          .ok (some ⟨tableName, new.tableSchema.snapshotId, new.replicationMask⟩) := by
        rw [hcompleted.metadata]
        rfl
      unfold handleRelationEvent
      rw [hvalid, run_bind_ofExcept_ok, run_bind_read, happlied,
        run_bind_ofExcept_ok]
      simp only
      rfl
    unfold replay
    rw [bind_of_ok hunchanged, exists_run_ensureTableExists_of_completed hcompleted, hvalid]

/-- A change in progress makes the relation event, and with it the replay, fail. -/
theorem not_exists_run_replay_of_applying (hmetadata : destination.metadata = some metadata)
    (happlying : metadata.isApplied = false) :
    ¬ ∃ result t, (replay engine schemas new).run ⟨destination, none⟩ = .ok result t := by
  rintro ⟨result, t, hrun⟩
  unfold replay handleRelationEvent at hrun
  obtain ⟨_, mid, hrelation, -⟩ := Calls.bind_eq_ok_iff.mp hrun
  cases hvalid : validateReplicaIdentityForClickhouse new engine with
  | error e =>
    rw [hvalid] at hrelation
    cases hrelation
  | ok _ =>
    have hstuck : getAppliedDestinationTableMetadata destination.metadata = _ :=
      congrArg getAppliedDestinationTableMetadata hmetadata
    rw [getAppliedDestinationTableMetadata, DestinationTableMetadata.intoApplied, happlying]
      at hstuck
    rw [hvalid, Calls.run_bind_ofExcept_ok, Calls.run_bind_read, hstuck] at hrelation
    cases hrelation

theorem completed_of_run (hrest : AtRest engine schemas tableName oldTable oldMask new destination)
    (hrun : (changeSteps engine tableName oldTable oldMask new).run ⟨destination, remaining⟩ =
      .ok u t) :
    Completed engine tableName new t.state := by
  obtain ⟨-, -, changed, hfold, rfl⟩ := run_changeSteps_eq_ok_iff.mp hrun
  obtain ⟨table, htable, hengine, -, -⟩ := hrest.table
  have hstarted : (started tableName oldTable oldMask new destination).tables tableName =
      some table := htable
  obtain ⟨columns, -, -, rfl⟩ := (foldlM_schemaDiffStatements_eq_ok_iff hstarted).mp hfold
  refine ⟨rfl, ⟨_, Destination.tables_setTable_self .., hengine⟩, fun name hname => ?_,
    fun name hname hother => ?_⟩
  · show Function.update destination.tableCache tableName none name = none
    by_cases hsame : name = tableName
    · rw [hsame, Function.update_self]
    · rw [Function.update_of_ne hsame]
      exact (hrest.newName name hname hsame).2
  · show Function.update destination.tables tableName _ name = none
    rw [Function.update_of_ne hother]
    exact (hrest.newName name hname hother).1

theorem columns_of_run (hold : (ReplicatedTableSchema.fromMask oldTable oldMask).Ordered)
    (hnew : new.Ordered) (hrest : AtRest engine schemas tableName oldTable oldMask new destination)
    (hrun : (changeSteps engine tableName oldTable oldMask new).run ⟨destination, remaining⟩ =
      .ok u t) :
    (t.state.tables tableName).map (·.columns.map Prod.fst) =
        some (expectedClickhouseColumnNames new engine) ↔
      RenamesFree engine (.fromMask oldTable oldMask) new ∧
        AddsBehind engine (.fromMask oldTable oldMask) new := by
  obtain ⟨-, -, changed, hfold, rfl⟩ := run_changeSteps_eq_ok_iff.mp hrun
  obtain ⟨table, htable, -, hnodup, hcolumns⟩ := hrest.table
  have hstarted : (started tableName oldTable oldMask new destination).tables tableName =
      some table := htable
  rw [← foldlM_schemaDiffStatements_expected_iff hold hnew hstarted hnodup hcolumns]
  constructor
  · intro hexpected
    exact ⟨changed, hfold, hexpected⟩
  · rintro ⟨changed', hfold', hexpected⟩
    cases hfold.symm.trans hfold'
    exact hexpected

theorem exists_run_changeSteps (hold : (ReplicatedTableSchema.fromMask oldTable oldMask).Ordered)
    (hnew : new.Ordered) (hrest : AtRest engine schemas tableName oldTable oldMask new destination)
    (happlies : ChangeApplies engine tableName (.fromMask oldTable oldMask) new)
    (henough : ∀ k, remaining = some k → changeCalls engine oldTable oldMask new ≤ k) :
    ∃ t, (changeSteps engine tableName oldTable oldMask new).run ⟨destination, remaining⟩ =
      .ok () t := by
  obtain ⟨-, -, hreject, hfree, hbehind⟩ := happlies
  obtain ⟨table, htable, -, hnodup, hcolumns⟩ := hrest.table
  have hstarted : (started tableName oldTable oldMask new destination).tables tableName =
      some table := htable
  obtain ⟨changed, hfold, -⟩ := (foldlM_schemaDiffStatements_expected_iff hold hnew hstarted hnodup
    hcolumns).mpr ⟨hfree, hbehind⟩
  exact ⟨_, run_changeSteps_eq_ok_iff.mpr ⟨hreject, henough, changed, hfold, rfl⟩⟩

theorem exists_run_replay_of_atRest
    (hold : (ReplicatedTableSchema.fromMask oldTable oldMask).Ordered) (hnew : new.Ordered)
    (hrest : AtRest engine schemas tableName oldTable oldMask new destination)
    (hchange : ¬ (oldTable.snapshotId = new.tableSchema.snapshotId ∧
      oldMask = new.replicationMask)) :
    (∃ result t, (replay engine schemas new).run ⟨destination, none⟩ = .ok result t ∧
        SchemaApplied engine tableName new t.state) ↔
      ChangeApplies engine tableName (.fromMask oldTable oldMask) new := by
  cases hvalid : validateReplicaIdentityForClickhouse new engine with
  | error e =>
    refine iff_of_false ?_ fun h => nomatch hvalid.symm.trans h.1
    rintro ⟨result, t, hrun, -⟩
    rw [replay, handleRelationEvent, hvalid] at hrun
    cases hrun
  | ok _ =>
    have hrelation := run_handleRelationEvent_of_atRest hrest hchange hvalid none
    constructor
    · rintro ⟨result, t, hrun, happlied⟩
      obtain ⟨_, ⟨state, remaining⟩, hsteps, hensure⟩ := Calls.bind_eq_ok_iff.mp hrun
      rw [hrelation] at hsteps
      obtain ⟨-, hname, hexpected⟩ := (exists_run_ensureTableExists_of_completed
        (completed_of_run hrest hsteps) remaining).mp ⟨result, t, hensure, happlied⟩
      exact ⟨hvalid, hname, (run_changeSteps_eq_ok_iff.mp hsteps).1,
        (columns_of_run hold hnew hrest hsteps).mp hexpected⟩
    · intro happlies
      have henough : ∀ k, (none : Option ℕ) = some k → changeCalls engine oldTable oldMask new ≤ k :=
        nofun
      obtain ⟨⟨state, remaining⟩, hsteps⟩ :=
        exists_run_changeSteps hold hnew hrest happlies henough
      obtain ⟨result, t, hensure, happlied⟩ := (exists_run_ensureTableExists_of_completed
        (completed_of_run hrest hsteps) remaining).mpr
          ⟨hvalid, happlies.2.1, (columns_of_run hold hnew hrest hsteps).mpr happlies.2.2.2⟩
      refine ⟨result, t, ?_, happlied⟩
      unfold replay
      rw [Calls.bind_of_ok (hrelation.trans hsteps)]
      exact hensure

/-- A replay of the stream after a schema change that was interrupted behind its first `k` calls,
by an error or by a crash: it completes, with the new schema applied and its columns in place,
exactly when the change applies and was interrupted before its first or behind its last call. -/
theorem replay_completes_iff
    (hold : (ReplicatedTableSchema.fromMask oldTable oldMask).Ordered) (hnew : new.Ordered)
    (hrest : AtRest engine schemas tableName oldTable oldMask new destination)
    (hchange : ¬ (oldTable.snapshotId = new.tableSchema.snapshotId ∧
      oldMask = new.replicationMask)) (k : ℕ) (crashed : Bool) :
    let interrupted := endState
      ((handleRelationEvent engine schemas new).run ⟨destination, some k⟩)
    (∃ result t,
      (replay engine schemas new).run
          ⟨if crashed then interrupted.restart else interrupted, none⟩ = .ok result t ∧
        SchemaApplied engine tableName new t.state) ↔
      (k = 0 ∨ changeCalls engine oldTable oldMask new ≤ k) ∧
        ChangeApplies engine tableName (.fromMask oldTable oldMask) new := by
  intro interrupted
  -- An interruption that leaves the table at rest leaves the whole change to the replay.
  have hatRest : interrupted = destination →
      ((∃ result t, (replay engine schemas new).run
          ⟨if crashed then interrupted.restart else interrupted, none⟩ = .ok result t ∧
        SchemaApplied engine tableName new t.state) ↔
        ChangeApplies engine tableName (.fromMask oldTable oldMask) new) := by
    intro hsame
    rw [hsame]
    cases crashed with
    | false => exact exists_run_replay_of_atRest hold hnew hrest hchange
    | true => exact exists_run_replay_of_atRest hold hnew hrest.restart hchange
  cases hvalid : validateReplicaIdentityForClickhouse new engine with
  | error e =>
    have hsame : interrupted = destination := by
      show endState _ = _
      rw [handleRelationEvent, hvalid]
      rfl
    rw [hatRest hsame]
    exact iff_of_false (fun h => nomatch hvalid.symm.trans h.1)
      fun h => nomatch hvalid.symm.trans h.2.1
  | ok _ =>
    have hrelation := run_handleRelationEvent_of_atRest hrest hchange hvalid (some k)
    have hinterrupted : interrupted = endState
        ((changeSteps engine tableName oldTable oldMask new).run ⟨destination, some k⟩) :=
      congrArg endState hrelation
    by_cases hzero : k = 0
    · subst hzero
      rw [hatRest hinterrupted]
      exact ⟨fun h => ⟨.inl rfl, h⟩, fun h => h.2⟩
    by_cases hdone : ∃ t, (changeSteps engine tableName oldTable oldMask new).run
        ⟨destination, some k⟩ = .ok () t
    · obtain ⟨t, hsteps⟩ := hdone
      rw [hsteps] at hinterrupted
      have hcompleted : Completed engine tableName new
          (if crashed then interrupted.restart else interrupted) := by
        rw [hinterrupted]
        cases crashed with
        | false => exact completed_of_run hrest hsteps
        | true => exact (completed_of_run hrest hsteps).restart
      have htables : (if crashed then interrupted.restart else interrupted).tables =
          t.state.tables := by
        rw [hinterrupted]
        cases crashed <;> rfl
      obtain ⟨hreject, henough, -⟩ := run_changeSteps_eq_ok_iff.mp hsteps
      rw [exists_run_replay_of_completed hcompleted, htables, columns_of_run hold hnew hrest hsteps]
      constructor
      · rintro ⟨-, hname, hcolumns⟩
        exact ⟨.inr (henough k rfl), hvalid, hname, hreject, hcolumns⟩
      · rintro ⟨-, -, hname, -, hcolumns⟩
        exact ⟨hvalid, hname, hcolumns⟩
    · refine iff_of_false ?_ ?_
      · have hmetadata : (if crashed then interrupted.restart else interrupted).metadata =
            some (applyingMetadata tableName oldTable oldMask new) := by
          have happlying := metadata_of_interrupted (fun h => hzero (Option.some.inj h))
            fun u t hrun => hdone ⟨t, hrun⟩
          rw [← hinterrupted] at happlying
          cases crashed <;> exact happlying
        rintro ⟨result, t, hrun, -⟩
        exact not_exists_run_replay_of_applying hmetadata rfl ⟨result, t, hrun⟩
      · rintro ⟨hpoint, happlies⟩
        refine hdone (exists_run_changeSteps hold hnew hrest happlies ?_)
        rintro n hn
        cases hn
        exact hpoint.resolve_left hzero

end Replay

def usersTable (snapshotId : SnapshotId) (columns : List String) : TableSchema :=
  ⟨1, ⟨"public", "users"⟩, columns.zipIdx.map fun (name, index) =>
    ⟨name, .text, -1, index + 1, if index = 0 then some 1 else none, index ≠ 0⟩, snapshotId⟩

/-- The versions before and after a column is added. -/
def usersSchemas (snapshotId : SnapshotId) : Option TableSchema :=
  some (if snapshotId < 10 then usersTable 0 ["id"] else usersTable 10 ["id", "name"])

def usersWithName : ReplicatedTableSchema := .fromMask (usersTable 10 ["id", "name"]) [true, true]

/-- Another table stands next to the one that changes, and both are cached. -/
def usersDestination : Destination where
  tables := fun name =>
    if name = "public_users" then
      some ⟨.mergeTree, [("id", "String"), ("cdc_operation", "String"), ("cdc_lsn", "UInt64")], none⟩
    else if name = "public_orders" then some ⟨.mergeTree, [("number", "Int64")], none⟩
    else none
  metadata := some (.newApplied "public_users" 0 [true])
  tableCache := fun name =>
    if name = "public_users" ∨ name = "public_orders" then some [false] else none

theorem usersDestination_atRest :
    AtRest .mergeTree usersSchemas "public_users" (usersTable 0 ["id"]) [true] usersWithName
      usersDestination where
  metadata := rfl
  stored := rfl
  table := ⟨_, rfl, rfl, by decide, by decide⟩
  newName := fun _ hname hother => absurd (Except.ok.inj hname).symm hother

/-- After a crash before the first call the replay adds the column, and after a failure behind the
third and last call it finds the column added. -/
theorem replay_completes_outside_change :
    (∃ result t, (replay .mergeTree usersSchemas usersWithName).run
        ⟨(Calls.endState ((handleRelationEvent .mergeTree usersSchemas usersWithName).run
          ⟨usersDestination, some 0⟩)).restart, none⟩ = .ok result t ∧
        SchemaApplied .mergeTree "public_users" usersWithName t.state) ∧
      ∃ result t, (replay .mergeTree usersSchemas usersWithName).run
        ⟨Calls.endState ((handleRelationEvent .mergeTree usersSchemas usersWithName).run
          ⟨usersDestination, some 3⟩), none⟩ = .ok result t ∧
        SchemaApplied .mergeTree "public_users" usersWithName t.state := by
  have hcompletes := replay_completes_iff ⟨by decide, by decide⟩ ⟨by decide, by decide⟩
    usersDestination_atRest (by decide)
  have happlies : ChangeApplies .mergeTree "public_users"
      (.fromMask (usersTable 0 ["id"]) [true]) usersWithName :=
    ⟨rfl, rfl, rfl, by decide, by decide⟩
  exact ⟨(hcompletes 0 true).mpr ⟨.inl rfl, happlies⟩,
    (hcompletes 3 false).mpr ⟨.inr (by decide), happlies⟩⟩

/-- After a crash behind the first call, which stores that the change is in progress, and behind
the second, which adds the column, the replay fails in the relation event. -/
theorem replay_fails_in_progress :
    (∃ e t, (replay .mergeTree usersSchemas usersWithName).run
        ⟨(Calls.endState ((handleRelationEvent .mergeTree usersSchemas usersWithName).run
          ⟨usersDestination, some 1⟩)).restart, none⟩ = .error e t ∧ e.kind = .invalidState) ∧
      ∃ e t, (replay .mergeTree usersSchemas usersWithName).run
        ⟨(Calls.endState ((handleRelationEvent .mergeTree usersSchemas usersWithName).run
          ⟨usersDestination, some 2⟩)).restart, none⟩ = .error e t ∧ e.kind = .invalidState :=
  ⟨⟨_, _, rfl, rfl⟩, ⟨_, _, rfl, rfl⟩⟩

end Etl.ClickHouse
