import Etl.Common.Transition
import Etl.Destinations.BigQuery.Prepare

/-! # Truncates, dropped tables and their cleanup

A truncate moves a table to its next version: it creates that version empty, points the view to
it, stores its name, and leaves the old version to a background task that drops it some time
later. Before a table is copied again, all its versions are dropped and its metadata are deleted;
the new copy starts at version zero. Preparations and truncates hold a lock, the background tasks
and the drops do not. Nothing waits for the tasks: one that is left over from before the new copy
drops a version of the new table (`cleanup_drops_current_table`). It never does as long as no
metadata are stored for a version whose task is still to run (`cleanup_spares_current_table`).

The machine executes one statement of a running operation at a time. Run without interruption,
the statements are the programs of the source (`run_discard_prepareTableForStreaming`,
`run_processTruncateForSchema`).

Reference: `etl-destinations/src/bigquery/core.rs` (`process_truncate_for_schemas`).
-/

namespace Etl.BigQuery

open DestinationTableMetadata (newApplying newApplied)
open Calls.Keeps

/-! ## Programs -/

/-- The table named by the stored metadata. -/
def getSequencedBigqueryTableId (metadata : Option DestinationTableMetadata) :
    EtlResult (Option SequencedBigQueryTableId) := do
  match ← getAppliedDestinationTableMetadata metadata with
  | none => return none
  | some metadata => return some (← SequencedBigQueryTableId.fromStr metadata.destinationTableId)

def clearTableCache (baseTableId : String) (destination : Destination) : Destination :=
  { destination with
    createdViews := Function.update destination.createdViews baseTableId none
    createdTables := destination.createdTables.filter (!·.belongsToBase baseTableId) }

def spawnCleanup (tableId : SequencedBigQueryTableId) (destination : Destination) : Destination :=
  { destination with tasks := tableId :: destination.tasks }

/-- Moves a truncated table to its next version: what `process_truncate_for_schemas` does for each
table. -/
def processTruncateForSchema (config : Config) (schema : ReplicatedTableSchema) :
    Calls EtlError Destination Unit := do
  match ← .ofExcept (getSequencedBigqueryTableId (← .read).metadata) with
  | none => return
  | some tableId =>
    let nextTableId := tableId.next
    discard <| createOrReplaceTable config nextTableId.toString schema
    .update (addToCreatedTablesCache nextTableId)
    discard <| ensureViewPointsToTable config tableId.toBigqueryTableId nextTableId
    storeDestinationTableMetadata
      (newApplied nextTableId.toString schema.tableSchema.snapshotId schema.replicationMask)
    .update fun destination =>
      { destination with createdTables := destination.createdTables.erase tableId }
    .update (spawnCleanup tableId)

/-! ## Statements -/

/-- What an operation that holds the lock does next. -/
inductive Operation where
  -- a preparation
  | storeApplying (schema : ReplicatedTableSchema) (viewName : String)
      (tableId : SequencedBigQueryTableId)
  | checkTable (schema : ReplicatedTableSchema) (viewName : String)
      (tableId : SequencedBigQueryTableId)
  | createTable (schema : ReplicatedTableSchema) (viewName : String)
      (tableId : SequencedBigQueryTableId)
  | storeApplied (schema : ReplicatedTableSchema) (viewName : String)
      (tableId : SequencedBigQueryTableId)
  | updateView (viewName : String) (tableId : SequencedBigQueryTableId)
  -- a truncate of a version
  | replaceNext (schema : ReplicatedTableSchema) (tableId : SequencedBigQueryTableId)
  | switchView (schema : ReplicatedTableSchema) (tableId : SequencedBigQueryTableId)
  | storeNext (schema : ReplicatedTableSchema) (tableId : SequencedBigQueryTableId)
  | spawn (tableId : SequencedBigQueryTableId)
  deriving DecidableEq, Repr

/-- The next statement of an operation; it returns what remains to be done. -/
def Operation.statement (config : Config) :
    Operation → Calls EtlError Destination (Option Operation)
  | .storeApplying schema viewName tableId => do
    storeDestinationTableMetadata (applyingMetadata schema tableId)
    return some (.checkTable schema viewName tableId)
  | .checkTable schema viewName tableId => do
    if ← tableExists tableId.toString then return some (.storeApplied schema viewName tableId)
    else return some (.createTable schema viewName tableId)
  | .createTable schema viewName tableId => do
    BigQuery.createTable config tableId.toString schema
    return some (.storeApplied schema viewName tableId)
  | .storeApplied schema viewName tableId => do
    storeDestinationTableMetadata (applyingMetadata schema tableId).toApplied
    .update (addToCreatedTablesCache tableId)
    return some (.updateView viewName tableId)
  | .updateView viewName tableId => do
    discard <| ensureViewPointsToTable config viewName tableId
    return none
  | .replaceNext schema tableId => do
    discard <| createOrReplaceTable config tableId.next.toString schema
    .update (addToCreatedTablesCache tableId.next)
    return some (.switchView schema tableId)
  | .switchView schema tableId => do
    discard <| ensureViewPointsToTable config tableId.toBigqueryTableId tableId.next
    return some (.storeNext schema tableId)
  | .storeNext schema tableId => do
    storeDestinationTableMetadata
      (newApplied tableId.next.toString schema.tableSchema.snapshotId schema.replicationMask)
    .update fun destination =>
      { destination with createdTables := destination.createdTables.erase tableId }
    return some (.spawn tableId)
  | .spawn tableId => do
    .update (spawnCleanup tableId)
    return none

/-- An operation without interruption. -/
def Operation.program (config : Config) : ℕ → Operation → Calls EtlError Destination Unit
  | 0, _ => pure ()
  | n + 1, operation => do
    match ← operation.statement config with
    | some operation => operation.program config n
    | none => return

/-- What the removal of a table before a copy does next. -/
inductive Removal where
  | dropView (baseTableId : String) (tableIds : List SequencedBigQueryTableId)
  | dropTables (baseTableId : String) (tableIds : List SequencedBigQueryTableId)
  deriving DecidableEq, Repr

/-- The next statement of a removal. The last one needs the lock. -/
def Removal.statement (config : Config) : Removal → Calls EtlError Destination (Option Removal)
  | .dropView baseTableId tableIds => do
    dropViewIfExists config baseTableId
    return some (.dropTables baseTableId tableIds)
  | .dropTables baseTableId (tableId :: tableIds) => do
    dropTableIfExists config tableId.toString
    return some (.dropTables baseTableId tableIds)
  | .dropTables baseTableId [] => do
    .update (clearTableCache baseTableId)
    return none

def Removal.needsLock : Removal → Bool
  | .dropTables _ [] => true
  | _ => false

/-! ## The machine -/

/-- The destination with the operation that holds the lock and the removal that runs. -/
structure Shared where
  destination : Destination
  locked : Option Operation
  removal : Option Removal

/-- What can happen to a table. Statements and tasks say how many of their calls come through. -/
inductive TableEvent where
  | prepare (schema : ReplicatedTableSchema)
  | truncate (schema : ReplicatedTableSchema)
  | advance (remaining : Option ℕ)
  /-- BigQuery answers a removal with the tables it finds. -/
  | dropTableForCopy (schema : ReplicatedTableSchema) (listed : List String)
  | advanceRemoval (remaining : Option ℕ)
  | clearTableCopyState
  | cleanup (tableId : SequencedBigQueryTableId) (remaining : Option ℕ)
  deriving DecidableEq, Repr

/-- What is left of an operation after a statement: nothing when it failed. -/
def remainder {α : Type} (result : EStateM.Result EtlError (CallState Destination) (Option α)) :
    Option α :=
  match result with
  | .ok next _ => next
  | .error _ _ => none

/-- The first statement of a preparation, unless a check fails. -/
def startPrepare (schema : ReplicatedTableSchema) (destination : Destination) :
    EtlResult Operation := do
  validateBigqueryReplicaIdentity schema
  let bigqueryTableId ← tableNameToBigqueryTableId schema.tableSchema.name
  let tableId ← sequencedTableId bigqueryTableId destination.metadata
  if tableId ∉ destination.createdTables then
    return .storeApplying schema bigqueryTableId tableId
  return .updateView bigqueryTableId tableId

/-- The first statement of a truncate, unless there is no table. -/
def startTruncate (schema : ReplicatedTableSchema) (destination : Destination) :
    EtlResult (Option Operation) := do
  return (← getSequencedBigqueryTableId destination.metadata).map (.replaceNext schema)

def startRemoval (schema : ReplicatedTableSchema) (listed : List String) : EtlResult Removal := do
  let baseTableId ← tableNameToBigqueryTableId schema.tableSchema.name
  return .dropView baseTableId
    (listed.filterMap (SequencedBigQueryTableId.parseForBase · baseTableId)).dedup

/-- One step of the table. -/
def Shared.next (config : Config) (s : Shared) : TableEvent → Option Shared
  | .prepare schema =>
    if s.locked.isSome then none
    else some { s with locked := (startPrepare schema s.destination).toOption }
  | .truncate schema =>
    if s.locked.isSome then none
    else some { s with locked := (startTruncate schema s.destination).toOption.join }
  | .advance remaining =>
    match s.locked with
    | none => none
    | some operation =>
      let result := (operation.statement config).run ⟨s.destination, remaining⟩
      some { s with destination := Calls.endState result, locked := remainder result }
  | .dropTableForCopy schema listed =>
    if s.removal.isSome ∨ ¬ listed.all fun name => (s.destination.tables name).isSome then none
    else some { s with removal := (startRemoval schema listed).toOption }
  | .advanceRemoval remaining =>
    match s.removal with
    | none => none
    | some removal =>
      if removal.needsLock && s.locked.isSome then none
      else
        let result := (removal.statement config).run ⟨s.destination, remaining⟩
        some { s with destination := Calls.endState result, removal := remainder result }
  | .clearTableCopyState => some { s with destination := { s.destination with metadata := none } }
  | .cleanup tableId remaining =>
    if tableId ∈ s.destination.tasks then
      let dropped := Calls.endState
        ((dropTableIfExists config tableId.toString).run ⟨s.destination, remaining⟩)
      some { s with destination := { dropped with tasks := dropped.tasks.erase tableId } }
    else none

/-- A process with a table: it starts without tasks, operations and knowledge. -/
def tableMachine (config : Config) : Machine Shared TableEvent where
  init s := ∃ destination : Destination, s = ⟨destination.restart, none, none⟩
  next := Shared.next config

/-! ## Operations without interruption -/

section Programs

variable {config : Config} {schema : ReplicatedTableSchema} {destination : Destination}

/-- The last statements of a preparation. -/
theorem program_storeApplied (n : ℕ) (base : String) (tableId : SequencedBigQueryTableId) :
    (Operation.storeApplied schema base tableId).program config (n + 2) = (do
      storeDestinationTableMetadata (applyingMetadata schema tableId).toApplied
      .update (addToCreatedTablesCache tableId)
      discard <| ensureViewPointsToTable config base tableId) := by
  simp [Operation.program, Operation.statement]

/-- The check for a table and its creation are separate statements. -/
theorem program_checkTable (base : String) (tableId : SequencedBigQueryTableId) :
    (Operation.checkTable schema base tableId).program config 4 = (do
      discard <| createTableIfMissing config tableId.toString schema
      storeDestinationTableMetadata (applyingMetadata schema tableId).toApplied
      .update (addToCreatedTablesCache tableId)
      discard <| ensureViewPointsToTable config base tableId) := by
  rw [Operation.program, Operation.statement, Calls.discard_bind, createTableIfMissing, bind_assoc,
    bind_assoc]
  refine bind_congr fun found => ?_
  cases found with
  | true => exact program_storeApplied 1 base tableId
  | false =>
    rw [if_neg Bool.false_ne_true, if_neg Bool.false_ne_true, bind_assoc]
    show Operation.program config 3 (.createTable schema base tableId) = _
    rw [Operation.program, Operation.statement, bind_assoc]
    refine bind_congr fun _ => ?_
    exact program_storeApplied 0 base tableId

/-- The statements of a preparation are the program. -/
theorem run_discard_prepareTableForStreaming {operation : Operation} (remaining : Option ℕ)
    (hstart : startPrepare schema destination = .ok operation) :
    (discard (prepareTableForStreaming config schema)).run ⟨destination, remaining⟩ =
      (operation.program config 5).run ⟨destination, remaining⟩ := by
  obtain ⟨_, hvalid, hstart⟩ := bind_eq_ok_iff.mp hstart
  obtain ⟨base, hbase, hstart⟩ := bind_eq_ok_iff.mp hstart
  obtain ⟨tableId, hid, hstart⟩ := bind_eq_ok_iff.mp hstart
  rw [Calls.discard_eq]
  by_cases hcached : tableId ∈ destination.createdTables
  · rw [if_neg (not_not.mpr hcached)] at hstart
    cases hstart
    rw [Calls.run_bind_congr (run_prepareTableForStreaming_of_cached ⟨hvalid, hbase⟩ hid hcached
      remaining)]
    simp only [Operation.program, Operation.statement, Calls.discard_bind, bind_assoc, pure_bind]
  · rw [if_pos hcached] at hstart
    cases hstart
    rw [Calls.run_bind_congr (run_prepareTableForStreaming_of_not_cached ⟨hvalid, hbase⟩ hid hcached
      remaining)]
    have hfirst : (Operation.storeApplying schema base tableId).program config 5 =
        storeDestinationTableMetadata (applyingMetadata schema tableId) >>= fun _ =>
          (Operation.checkTable schema base tableId).program config 4 := by
      rw [Operation.program, Operation.statement, bind_assoc]
      rfl
    rw [hfirst, program_checkTable]
    simp [createWithMetadata, Calls.discard_eq]

/-- The statements of a truncate are the program. -/
theorem run_processTruncateForSchema (remaining : Option ℕ) :
    (processTruncateForSchema config schema).run ⟨destination, remaining⟩ =
      (Calls.ofExcept (startTruncate schema destination) >>= fun
        | some operation => operation.program config 4
        | none => pure ()).run ⟨destination, remaining⟩ := by
  unfold processTruncateForSchema startTruncate
  rw [Calls.run_bind_read]
  cases hid : getSequencedBigqueryTableId destination.metadata with
  | error e => rfl
  | ok found =>
    cases found with
    | none => rfl
    | some tableId =>
      show _ = (Operation.program config 4 (.replaceNext schema tableId)).run _
      simp only [bind_assoc, pure_bind, Operation.program, Operation.statement]
      rfl

end Programs

/-! ## What a statement does -/

/-- The stored metadata name a table. -/
def Destination.Names (destination : Destination) (tableId : SequencedBigQueryTableId) : Prop :=
  destination.metadata.map (·.destinationTableId) = some tableId.toString

instance (destination : Destination) (tableId : SequencedBigQueryTableId) :
    Decidable (destination.Names tableId) :=
  inferInstanceAs (Decidable (_ = _))

section Statements

variable {config : Config} {metadata : Option DestinationTableMetadata}
  {tasks : List SequencedBigQueryTableId}

/-- Neither the stored metadata nor the tasks change. -/
def Untouched (metadata : Option DestinationTableMetadata) (tasks : List SequencedBigQueryTableId)
    (destination : Destination) : Prop :=
  destination.metadata = metadata ∧ destination.tasks = tasks

theorem untouched_addToCreatedTablesCache (tableId : SequencedBigQueryTableId)
    {destination : Destination} (huntouched : Untouched metadata tasks destination) :
    Untouched metadata tasks (addToCreatedTablesCache tableId destination) := by
  unfold addToCreatedTablesCache
  split_ifs <;> exact huntouched

theorem keeps_untouched_tableExists (name : String) :
    Calls.Keeps (Untouched metadata tasks) (tableExists name) :=
  query _ _

theorem keeps_untouched_dropTableIfExists (name : String) :
    Calls.Keeps (Untouched metadata tasks) (dropTableIfExists config name) := by
  refine (ofExcept _).discard.bind fun _ => call ?_
  intro before after hbefore hafter
  cases hafter
  exact hbefore

theorem keeps_untouched_removal (removal : Removal) :
    Calls.Keeps (Untouched metadata tasks) (removal.statement config) := by
  match removal with
  | .dropView base tableIds =>
    refine bind ((ofExcept _).discard.bind fun _ => call ?_)
      fun _ => pure _
    intro before after hbefore hafter
    cases hafter
    exact hbefore
  | .dropTables base (tableId :: tableIds) =>
    exact (keeps_untouched_dropTableIfExists _).bind fun _ => pure _
  | .dropTables base [] =>
    exact bind (update fun _ h => h) fun _ => pure _

/-- What a statement leaves to do is said by its last part. -/
theorem remainder_bind {α β : Type} {p : Calls EtlError Destination α}
    {f : α → Calls EtlError Destination (Option β)} {s : CallState Destination} {next : β}
    (hnext : remainder ((p >>= f).run s) = some next) :
    ∃ a t, remainder ((f a).run t) = some next := by
  cases hp : p.run s with
  | error e t =>
    rw [Calls.bind_of_error hp] at hnext
    cases hnext
  | ok a t =>
    rw [Calls.bind_of_ok hp] at hnext
    exact ⟨a, t, hnext⟩

/-- The statements that store no metadata and leave no task. -/
def Operation.isQuiet : Operation → Bool
  | .storeApplying .. | .storeApplied .. | .storeNext .. | .spawn .. => false
  | _ => true

theorem keeps_untouched_statement {operation : Operation} (hquiet : operation.isQuiet) :
    Calls.Keeps (Untouched metadata tasks) (operation.statement config) := by
  match operation with
  | .checkTable .. =>
    refine (keeps_untouched_tableExists _).bind fun found => ?_
    cases found <;> exact pure _
  | .createTable .. => exact (keeps_createTable fun _ _ h => h).bind fun _ => pure _
  | .updateView .. =>
    exact (keeps_ensureViewPointsToTable fun _ h _ _ => h).discard.bind fun _ => pure _
  | .replaceNext .. =>
    exact (keeps_createOrReplaceTable fun _ _ h => h).discard.bind fun _ =>
      bind (update fun _ => untouched_addToCreatedTablesCache _)
        fun _ => pure _
  | .switchView .. =>
    exact (keeps_ensureViewPointsToTable fun _ h _ _ => h).discard.bind fun _ => pure _

end Statements

/-! ## Tasks spare the current table -/

section Spared

variable {config : Config} {destination after : Destination} {s s' : Shared} {operation : Operation}
  {tableId : SequencedBigQueryTableId} {metadata : DestinationTableMetadata}
  {schema : ReplicatedTableSchema}

/-- What holds before a statement: the version being prepared has no task, and the version a task
is spawned for is no longer named. -/
def Operation.Expects (destination : Destination) : Operation → Prop
  | .checkTable _ _ tableId | .createTable _ _ tableId | .storeApplied _ _ tableId =>
    tableId ∉ destination.tasks
  | .spawn tableId => ¬ destination.Names tableId
  | _ => True

/-- No task is for the table named by the stored metadata. -/
structure Spared (s : Shared) : Prop where
  tasks : ∀ tableId ∈ s.destination.tasks, ¬ s.destination.Names tableId
  locked : ∀ operation, s.locked = some operation → operation.Expects s.destination

/-- A statement that stores metadata naming another table than before finds no task that is still
to drop it. -/
def Operation.StoresFresh (destination : Destination) : Operation → Prop
  | .storeApplying _ _ tableId => destination.Names tableId ∨ tableId ∉ destination.tasks
  | .storeNext _ tableId => tableId.next ∉ destination.tasks
  | _ => True

instance (destination : Destination) :
    (operation : Operation) → Decidable (operation.StoresFresh destination)
  | .storeApplying .. => inferInstanceAs (Decidable (_ ∨ _))
  | .storeNext .. => inferInstanceAs (Decidable (_ ∉ _))
  | .checkTable .. | .createTable .. | .storeApplied .. | .updateView .. | .replaceNext ..
  | .switchView .. | .spawn .. => inferInstanceAs (Decidable True)

/-- The operation that holds the lock stores only metadata of tables without tasks. -/
def StoresFresh (s : Shared) : TableEvent → Prop
  | .advance _ => ∀ operation ∈ s.locked, operation.StoresFresh s.destination
  | _ => True

instance (s : Shared) : (event : TableEvent) → Decidable (StoresFresh s event)
  | .advance _ => inferInstanceAs (Decidable (∀ operation ∈ s.locked, _))
  | .prepare .. | .truncate .. | .dropTableForCopy .. | .advanceRemoval ..
  | .clearTableCopyState | .cleanup .. => inferInstanceAs (Decidable True)

theorem SequencedBigQueryTableId.next_ne (tableId : SequencedBigQueryTableId) :
    tableId.next ≠ tableId := by
  intro h
  have hsequence : tableId.sequence + 1 = tableId.sequence := congrArg sequence h
  simp at hsequence

theorem Untouched.names_iff (huntouched : Untouched destination.metadata destination.tasks after) :
    after.Names tableId ↔ destination.Names tableId := by
  rw [Destination.Names, Destination.Names, huntouched.1]

theorem Untouched.expects_iff (huntouched : Untouched destination.metadata destination.tasks after) :
    operation.Expects after ↔ operation.Expects destination := by
  cases operation <;> simp only [Operation.Expects, huntouched.2, huntouched.names_iff]

theorem Spared.of_untouched (hspared : Spared s)
    (huntouched : Untouched s.destination.metadata s.destination.tasks s'.destination)
    (hlocked : ∀ operation, s'.locked = some operation → operation.Expects s.destination) :
    Spared s' where
  tasks := by
    intro tableId hmem
    rw [huntouched.2] at hmem
    rw [huntouched.names_iff]
    exact hspared.tasks tableId hmem
  locked := fun operation h => huntouched.expects_iff.mpr (hlocked operation h)

/-- Metadata may name a table without a task. -/
theorem Spared.of_stored (hmetadata : s'.destination.metadata = some metadata)
    (hid : metadata.destinationTableId = tableId.toString) (hfree : tableId ∉ s'.destination.tasks)
    (hlocked : ∀ operation, s'.locked = some operation → operation.Expects s'.destination) :
    Spared s' where
  tasks := by
    intro other hmem hnames
    rw [Destination.Names, hmetadata, Option.map_some, hid, Option.some.injEq] at hnames
    rw [← SequencedBigQueryTableId.toString_injective hnames] at hmem
    exact hfree hmem
  locked := hlocked

theorem Spared.advance_of_quiet (hspared : Spared s) (hlocked : s.locked = some operation)
    (hquiet : operation.isQuiet) (remaining : Option ℕ) :
    Spared { s with
      destination := Calls.endState ((operation.statement config).run ⟨s.destination, remaining⟩)
      locked := remainder ((operation.statement config).run ⟨s.destination, remaining⟩) } := by
  refine hspared.of_untouched (keeps_untouched_statement hquiet _ ⟨rfl, rfl⟩) fun next hnext => ?_
  have hexpects := hspared.locked operation hlocked
  match operation with
  | .checkTable .. =>
    obtain ⟨found, _, hnext⟩ := remainder_bind hnext
    cases found <;> cases hnext <;> exact hexpects
  | .createTable .. =>
    obtain ⟨_, _, ⟨⟩⟩ := remainder_bind hnext
    exact hexpects
  | .updateView .. => obtain ⟨_, _, ⟨⟩⟩ := remainder_bind hnext
  | .replaceNext .. | .switchView .. =>
    obtain ⟨_, _, ⟨⟩⟩ := remainder_bind hnext
    trivial

theorem Spared.advance (hspared : Spared s) (hlocked : s.locked = some operation)
    (hfresh : operation.StoresFresh s.destination) (remaining : Option ℕ) :
    Spared { s with
      destination := Calls.endState ((operation.statement config).run ⟨s.destination, remaining⟩)
      locked := remainder ((operation.statement config).run ⟨s.destination, remaining⟩) } := by
  have hexpects := hspared.locked operation hlocked
  -- A failed write leaves everything as it is and ends the operation.
  have hfailed : Spared { s with locked := none } := ⟨hspared.tasks, nofun⟩
  match operation with
  | .storeApplying schema viewName tableId =>
    have hfree : tableId ∉ s.destination.tasks :=
      hfresh.elim (fun hnames hmem => hspared.tasks tableId hmem hnames) id
    by_cases hremaining : remaining = some 0
    · subst hremaining
      exact hfailed
    · rw [Operation.statement, Calls.bind_of_ok (run_storeDestinationTableMetadata hremaining)]
      exact .of_stored rfl rfl hfree (by rintro _ ⟨⟩; exact hfree)
  | .storeApplied schema viewName tableId =>
    by_cases hremaining : remaining = some 0
    · subst hremaining
      exact hfailed
    · rw [Operation.statement, Calls.bind_of_ok (run_storeDestinationTableMetadata hremaining)]
      obtain ⟨hmetadata, htasks⟩ := @untouched_addToCreatedTablesCache _ _ tableId
        (s.destination.setMetadata (applyingMetadata schema tableId).toApplied) ⟨rfl, rfl⟩
      refine .of_stored hmetadata rfl ?_ (by rintro _ ⟨⟩; trivial)
      exact fun hmem => hexpects (htasks ▸ hmem)
  | .storeNext schema tableId =>
    by_cases hremaining : remaining = some 0
    · subst hremaining
      exact hfailed
    · rw [Operation.statement, Calls.bind_of_ok (run_storeDestinationTableMetadata hremaining)]
      refine .of_stored rfl rfl hfresh ?_
      rintro _ ⟨⟩ hnames
      exact tableId.next_ne (SequencedBigQueryTableId.toString_injective (Option.some.inj hnames))
  | .spawn tableId =>
    refine ⟨fun other hmem => ?_, nofun⟩
    obtain rfl | hmem := List.mem_cons.mp hmem
    · exact hexpects
    · exact hspared.tasks other hmem
  | .checkTable .. | .createTable .. | .updateView .. | .replaceNext .. | .switchView .. =>
    exact hspared.advance_of_quiet hlocked rfl remaining

theorem expects_of_startPrepare
    (hstart : (startPrepare schema destination).toOption = some operation) :
    operation.Expects after := by
  cases hresult : startPrepare schema destination with
  | error e =>
    rw [hresult] at hstart
    cases hstart
  | ok first =>
    rw [hresult] at hstart
    cases hstart
    obtain ⟨_, -, hresult⟩ := bind_eq_ok_iff.mp hresult
    obtain ⟨base, -, hresult⟩ := bind_eq_ok_iff.mp hresult
    obtain ⟨tableId, -, hresult⟩ := bind_eq_ok_iff.mp hresult
    split_ifs at hresult <;> cases hresult <;> trivial

theorem expects_of_startTruncate
    (hstart : (startTruncate schema destination).toOption.join = some operation) :
    operation.Expects after := by
  rw [startTruncate] at hstart
  cases hid : getSequencedBigqueryTableId destination.metadata with
  | error e =>
    rw [hid] at hstart
    cases hstart
  | ok found =>
    rw [hid] at hstart
    cases found <;> cases hstart
    trivial

/-- Fewer tasks and no other name are expected as well. -/
theorem Operation.Expects.mono (hexpects : operation.Expects destination)
    (htasks : after.tasks ⊆ destination.tasks)
    (hnames : ∀ tableId, after.Names tableId → destination.Names tableId) :
    operation.Expects after := by
  cases operation with
  | checkTable | createTable | storeApplied => exact fun hmem => hexpects (htasks hmem)
  | spawn tableId => exact fun h => hexpects (hnames tableId h)
  | _ => trivial

theorem Spared.mono (hspared : Spared s) (htasks : s'.destination.tasks ⊆ s.destination.tasks)
    (hnames : ∀ tableId, s'.destination.Names tableId → s.destination.Names tableId)
    (hlocked : s'.locked = s.locked) : Spared s' where
  tasks := fun tableId hmem h => hspared.tasks tableId (htasks hmem) (hnames tableId h)
  locked := fun operation h =>
    (hspared.locked operation (hlocked ▸ h)).mono htasks hnames

/-- Every step that stores no metadata of a table with a task spares the current table. -/
theorem Spared.next (hspared : Spared s) {event : TableEvent} (hfresh : StoresFresh s event)
    (hnext : Shared.next config s event = some s') : Spared s' := by
  match event with
  | .prepare schema =>
    simp only [Shared.next] at hnext
    split_ifs at hnext
    cases hnext
    exact ⟨hspared.tasks, fun operation hstart => expects_of_startPrepare hstart⟩
  | .truncate schema =>
    simp only [Shared.next] at hnext
    split_ifs at hnext
    cases hnext
    exact ⟨hspared.tasks, fun operation hstart => expects_of_startTruncate hstart⟩
  | .advance remaining =>
    cases hlocked : s.locked with
    | none => simp [Shared.next, hlocked] at hnext
    | some operation =>
      simp only [Shared.next, hlocked, Option.some.injEq] at hnext
      subst hnext
      exact hspared.advance hlocked (hfresh operation hlocked) remaining
  | .dropTableForCopy schema listed =>
    simp only [Shared.next] at hnext
    split_ifs at hnext
    cases hnext
    exact ⟨hspared.tasks, hspared.locked⟩
  | .advanceRemoval remaining =>
    cases hremoval : s.removal with
    | none => simp [Shared.next, hremoval] at hnext
    | some removal =>
      simp only [Shared.next, hremoval] at hnext
      split_ifs at hnext
      cases hnext
      exact hspared.of_untouched (keeps_untouched_removal removal _ ⟨rfl, rfl⟩) hspared.locked
  | .clearTableCopyState =>
    cases hnext
    exact hspared.mono (List.Subset.refl _) nofun rfl
  | .cleanup tableId remaining =>
    simp only [Shared.next] at hnext
    split_ifs at hnext
    cases hnext
    have huntouched := @keeps_untouched_dropTableIfExists config _ _ tableId.toString
      ⟨s.destination, remaining⟩ ⟨rfl, rfl⟩
    refine hspared.mono (fun other hmem => ?_) (fun other => huntouched.names_iff.mp) rfl
    have hmem := List.mem_of_mem_erase hmem
    rwa [huntouched.2] at hmem

/-- In every run that stores no metadata of a table whose task is still to run, a task that drops a
table drops another one than the stored metadata name. -/
theorem cleanup_spares_current_table {tableId : SequencedBigQueryTableId} {remaining : Option ℕ}
    (hreachable : (tableMachine config).ReachableUnder StoresFresh s)
    (hcleanup : (tableMachine config).next s (.cleanup tableId remaining) = some s') :
    ¬ s.destination.Names tableId := by
  have hspared : Spared s := hreachable.invariant
    (fun _ ⟨_, hinit⟩ => by subst hinit; exact ⟨nofun, nofun⟩)
    (fun _ _ _ hspared hfresh hnext => hspared.next hfresh hnext)
  simp only [tableMachine, Shared.next] at hcleanup
  split_ifs at hcleanup with hmem
  exact hspared.tasks tableId hmem

end Spared

/-! ## A table that is copied again -/

/-- The events of a copy that nothing interrupts. -/
def copyEvents : List TableEvent := .prepare usersSchema :: List.replicate 5 (.advance none)

/-- The events of a truncate that nothing interrupts, up to the spawned task. -/
def truncateEvents : List TableEvent := .truncate usersSchema :: List.replicate 4 (.advance none)

/-- The events before a table is copied again: the view and both versions are dropped, the cache is
cleared, and the metadata are deleted. -/
def recopyEvents : List TableEvent :=
  .dropTableForCopy usersSchema ["public_users_0", "public_users_1"] ::
    List.replicate 4 (.advanceRemoval none) ++ [.clearTableCopyState]

def newProcess : Shared := ⟨newDestination, none, none⟩

/-- The state after some events. -/
def usersAfter (events : List TableEvent) : Shared :=
  ((tableMachine usersConfig).run newProcess events).getD newProcess

theorem newProcess_reachable {guard : Shared → TableEvent → Prop} :
    (tableMachine usersConfig).ReachableUnder guard newProcess :=
  .init ⟨newDestination, rfl⟩

/-- The task of a truncate spares the new version. -/
theorem cleanup_spares_truncated_table :
    ¬ (usersAfter (copyEvents ++ truncateEvents)).destination.Names usersTableId :=
  @cleanup_spares_current_table usersConfig _ _ usersTableId none
    (newProcess_reachable.run (copyEvents ++ truncateEvents) rfl) rfl

/-- A task of a truncate that runs late drops the table that was copied again meanwhile. -/
theorem cleanup_drops_current_table :
    ∃ s s', (tableMachine usersConfig).Reachable s ∧
      (tableMachine usersConfig).next s (.cleanup usersTableId none) = some s' ∧
        s.destination.Names usersTableId ∧
          (s.destination.tables usersTableId.toString).isSome ∧
            s'.destination.tables usersTableId.toString = none :=
  ⟨usersAfter (copyEvents ++ truncateEvents ++ recopyEvents ++ copyEvents), _,
    Machine.Reachable.run newProcess_reachable
      (copyEvents ++ truncateEvents ++ recopyEvents ++ copyEvents) rfl, rfl, rfl, rfl, rfl⟩

end Etl.BigQuery
