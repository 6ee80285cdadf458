import Etl.Destinations.RowEvents
import Etl.Destinations.Snowflake.Client
import Mathlib.Data.List.AList

/-! # Processing events at Snowflake

The events of a call are processed in rounds: the rows up to the next relation or truncate event are
encoded and sent table by table, then the relation events that follow are applied, and then the
truncates after them, each table once. Hash maps are iterated in an order that is a parameter.

Reference: `etl-destinations/src/snowflake/core.rs` (`accumulate_data_events`).
-/

namespace Etl.Snowflake

/-- The order in which hash maps are iterated. -/
structure HashOrder where
  entries : {β : TableId → Type} → AList β → List (Sigma β)
  perm : ∀ {β : TableId → Type} (map : AList β), (entries map).Perm map.entries

section Process

variable (config : Config) (server : Server) (casing : CaseMapping) (order : HashOrder)
  (format : RowFormat)

/-- A call of the client, with its errors as the destination reports them. -/
def client {α : Type} (call : Calls Error Destination α) : Calls EtlError Destination α :=
  .mapError Error.toEtlError call

def storeDestinationTableMetadata (tableId : TableId) (metadata : DestinationTableMetadata) :
    Calls EtlError Destination Unit :=
  .call ⟨.sourceQueryFailed, "Destination table metadata storage failed",
      some "Failed to store destination table metadata in PostgreSQL"⟩
    fun destination => .ok (destination.setMetadata tableId metadata)

/-- Creates the table and opens its channel, and stores the metadata the first time that is done in
this process. -/
def prepareTableForStreaming (schema : ReplicatedTableSchema) :
    Calls EtlError Destination Unit := do
  let tableName ← .ofExcept (snowflakeTableName casing schema.tableSchema.name)
  let tableIsNew ← client
    (Client.ensureTable config server schema.id tableName schema.columnSchemas)
  if tableIsNew then
    storeDestinationTableMetadata schema.id
      (.newApplied tableName schema.tableSchema.snapshotId schema.replicationMask)

/-! ## Rows -/

/-- The builders of the tables that have rows, and the columns of the tables that were prepared. -/
structure Accumulator where
  builders : AList fun _ : TableId => RowBatchBuilder format := ∅
  columnCache : AList fun _ : TableId => List ColumnSchema := ∅

/-- Prepares a table at its first row. -/
def ensureColumnCache (columnCache : AList fun _ : TableId => List ColumnSchema)
    (schema : ReplicatedTableSchema) :
    Calls EtlError Destination (AList fun _ : TableId => List ColumnSchema) := do
  if (columnCache.lookup schema.id).isSome then return columnCache
  prepareTableForStreaming config server casing schema
  return columnCache.insert schema.id schema.columnSchemas

/-- Encodes a row with the columns of its table, or with the given ones. -/
def encodeRow (accumulator : Accumulator format) (schema : ReplicatedTableSchema)
    (columns : Option (List ColumnSchema)) (row : TableRow) (operation : CdcOperation)
    (offset : OffsetToken) : Calls EtlError Destination (Accumulator format) := do
  let columnCache ← ensureColumnCache config server casing accumulator.columnCache schema
  let columns := columns.getD ((columnCache.lookup schema.id).getD [])
  let builder ← client <| .ofExcept <|
    ((accumulator.builders.lookup schema.id).getD {}).pushRow columns row ⟨operation, offset⟩ offset
  return ⟨accumulator.builders.insert schema.id builder, columnCache⟩

/-- Encodes what a row event carries. -/
def encodeEvent (accumulator : Accumulator format) (schema : ReplicatedTableSchema)
    (image : RowImage) (offset : OffsetToken) :
    Calls EtlError Destination (Accumulator format) :=
  match image with
  | .insert row => encodeRow config server casing format accumulator schema none row .insert offset
  | .update (.full row) _ =>
    encodeRow config server casing format accumulator schema none row .update offset
  | .update (.partialImage _) _ =>
    .ofExcept <| bailWith .invalidData "Partial update rows not supported"
      "Snowflake destination requires REPLICA IDENTITY FULL for update events"
  | .delete (some (.full row)) =>
    encodeRow config server casing format accumulator schema none row .delete offset
  | .delete (some (.key row)) =>
    encodeRow config server casing format accumulator schema (some schema.identityColumnSchemas) row
      .delete offset
  | .delete none => return accumulator

/-- Encodes the rows up to the next relation or truncate event. -/
def accumulateDataEvents (accumulator : Accumulator format) :
    List (Event RowImage) →
      Calls EtlError Destination (Accumulator format × List (Event RowImage))
  | [] => return (accumulator, [])
  | event :: events =>
    match event.body with
    | .truncate _ | .relation _ => return (accumulator, event :: events)
    | .row _ schema image => do
      let accumulator ← encodeEvent config server casing format accumulator schema image
        (OffsetToken.new event.commitLsn event.txOrdinal)
      accumulateDataEvents accumulator events
    | .begin | .commit _ => accumulateDataEvents accumulator events

/-- Sends the rows of every table. -/
def flushBatches (builders : AList fun _ : TableId => RowBatchBuilder format) :
    Calls EtlError Destination Unit :=
  forM (order.entries builders) fun ⟨tableId, builder⟩ => do
    let batches ← client (.ofExcept builder.finish)
    client (Client.insertBatches server tableId batches)

/-! ## Schema changes and truncates -/

def handleRelationEvent (newSchema : ReplicatedTableSchema) :
    Calls EtlError Destination Unit := do
  let tableId := newSchema.id
  let destination ← .read
  let some metadata ← .ofExcept
      (getAppliedDestinationTableMetadata (destination.metadata tableId))
    | .ofExcept <| bailWith .corruptedTableSchema "Missing destination table metadata"
        ("No destination table metadata found for table " ++ toString tableId ++
          " when processing schema change")
  if metadata.snapshotId = newSchema.tableSchema.snapshotId ∧
      metadata.replicationMask = newSchema.replicationMask then
    return
  let some currentTableSchema :=
      destination.tableSchemas.getAtOrBefore tableId metadata.snapshotId
    | .ofExcept <| bailWith .invalidState "Old schema not found"
        ("Could not find schema for table " ++ toString tableId ++ " at snapshot_id " ++
          toString metadata.snapshotId)
  let currentSchema := ReplicatedTableSchema.fromMask currentTableSchema metadata.replicationMask
  let tableName ← .ofExcept (snowflakeTableName casing newSchema.tableSchema.name)
  let updatedMetadata :=
    (DestinationTableMetadata.newApplied metadata.destinationTableId metadata.snapshotId
      metadata.replicationMask).withSchemaChange newSchema.tableSchema.snapshotId
        newSchema.replicationMask .applying
  storeDestinationTableMetadata tableId updatedMetadata
  client (Client.applySchemaDiff config server tableName (currentSchema.diff newSchema))
  storeDestinationTableMetadata tableId updatedMetadata.toApplied
  client (.ofExcept (validateNoCdcCollisions newSchema.columnSchemas))
  client (Client.refreshTable server tableId)

def applyRelationEvents : List (Event RowImage) →
    Calls EtlError Destination (List (Event RowImage))
  | [] => return []
  | event :: events =>
    match event.body with
    | .relation schema => do
      handleRelationEvent config server casing schema
      applyRelationEvents events
    | _ => return event :: events

/-- The tables of the truncate events at the front, each with its last schema, and the events after
them. -/
def collectTruncated (truncated : AList fun _ : TableId => ReplicatedTableSchema) :
    List (Event RowImage) →
      (AList fun _ : TableId => ReplicatedTableSchema) × List (Event RowImage)
  | [] => (truncated, [])
  | event :: events =>
    match event.body with
    | .truncate tables =>
      collectTruncated (tables.foldl (fun map schema => map.insert schema.id schema) truncated)
        events
    | _ => (truncated, event :: events)

def applyTruncateEvents (events : List (Event RowImage)) :
    Calls EtlError Destination (List (Event RowImage)) := do
  let (truncated, events) := collectTruncated ∅ events
  forM (order.entries truncated) fun ⟨_, schema⟩ => do
    let tableName ← .ofExcept (snowflakeTableName casing schema.tableSchema.name)
    client (Client.truncateTable config server schema.id tableName)
  return events

/-- The rounds of a call; every round takes an event at least. -/
def processRounds : ℕ → List (Event RowImage) → Calls EtlError Destination Unit
  | 0, _ => return
  | rounds + 1, events => do
    if events.isEmpty then return
    let (accumulator, events) ← accumulateDataEvents config server casing format {} events
    flushBatches server order format accumulator.builders
    let events ← applyRelationEvents config server casing events
    let events ← applyTruncateEvents config server casing order events
    processRounds rounds events

def processEvents (events : List (Event RowImage)) : Calls EtlError Destination Unit :=
  processRounds config server casing order format events.length events

end Process

end Etl.Snowflake
