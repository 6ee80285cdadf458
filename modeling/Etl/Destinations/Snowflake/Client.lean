import Etl.Common.Calls
import Etl.Conversions.Text
import Etl.Destinations.ObjectNames
import Etl.Destinations.Snowflake.Batch
import Etl.State.DestinationMetadata
import Etl.Store.SchemaSnapshots
import Etl.Types.SchemaDiff

/-! # The Snowflake client

Tables are created and altered by SQL statements; rows are sent through a channel for each table.
The client keeps the channels it has opened in memory, by table. Statements and channel requests go
to a server whose answers are a parameter; they may depend on all requests so far.

Reference: `etl-destinations/src/snowflake/client.rs` and
`etl-destinations/src/snowflake/streaming/channel.rs` (`process_batches`).
-/

namespace Etl.Snowflake

/-! ## Statements -/

def CDC_OPERATION_COLUMN : String := "_cdc_operation"

def CDC_SEQUENCE_COLUMN : String := "_cdc_sequence_number"

/-- An identifier in double quotes. -/
def quoteIdentifier (name : String) : String :=
  "\"" ++ String.ofList (name.toList.flatMap fun c => if c = '"' then ['"', '"'] else [c]) ++ "\""

/-- The type of a column. -/
def typeName (typ : PgType) : String :=
  if isArrayType typ then "ARRAY"
  else
    match typ with
    | .bool => "BOOLEAN"
    | .char | .bpchar | .varchar | .name | .text => "VARCHAR"
    | .int2 => "SMALLINT"
    | .int4 => "INTEGER"
    | .int8 => "BIGINT"
    | .float4 => "FLOAT"
    | .float8 => "DOUBLE"
    | .numeric => "VARCHAR"
    | .date => "DATE"
    | .time => "TIME"
    | .timestamp => "TIMESTAMP_NTZ"
    | .timestamptz => "TIMESTAMP_TZ"
    | .uuid => "VARCHAR"
    | .json | .jsonb => "VARIANT"
    | .oid => "BIGINT"
    | .bytea => "VARCHAR"
    | _ => "VARCHAR"

/-- Whether a column has a name that is added to every table. -/
def collides (column : ColumnSchema) : Bool :=
  column.name = CDC_OPERATION_COLUMN || column.name = CDC_SEQUENCE_COLUMN

/-- Checks that no column has a name that is added to every table. -/
def validateNoCdcCollisions (columns : List ColumnSchema) : Except Error Unit :=
  match columns.find? collides with
  | some column =>
    .error (.config ("source column '" ++ column.name ++
      "' collides with reserved CDC column name"))
  | none => .ok ()

def buildColumnDefs (columns : List ColumnSchema) : String :=
  ", ".intercalate
    (columns.map (fun column => quoteIdentifier column.name ++ " " ++ typeName column.typ) ++
      [quoteIdentifier CDC_OPERATION_COLUMN ++ " VARCHAR NOT NULL",
        quoteIdentifier CDC_SEQUENCE_COLUMN ++ " VARCHAR NOT NULL"])

/-- Where the tables are, and the pipeline that writes to them. -/
structure Config where
  database : String
  schema : String
  pipelineId : ℕ
  deriving DecidableEq, Repr

def Config.fullyQualifiedName (config : Config) (name : String) : String :=
  quoteIdentifier config.database ++ "." ++ quoteIdentifier config.schema ++ "." ++
    quoteIdentifier name

/-! ## The server and the state -/

/-- What is sent to Snowflake. -/
inductive Request where
  | executeDdl (sql : String)
  | openChannel (table channel : String)
  | dropChannel (table channel : String)
  | insertRows (table channel : String) (batch : RowBatch) (continuationToken : String)
  deriving DecidableEq, Repr

structure Response where
  offsetToken : Option OffsetToken
  continuationToken : String
  deriving DecidableEq, Repr

/-- The answers of Snowflake, which may depend on the requests before. -/
abbrev Server : Type := List Request → Request → Except Error Response

/-- A channel to a table. -/
structure ChannelHandle where
  table : String
  channel : String
  lastOffsetToken : Option OffsetToken := none
  continuationToken : Option String := none
  deriving DecidableEq, Repr

/-- The channels kept in memory, the stored metadata and schema versions, and the requests that
Snowflake has accepted. -/
structure Destination where
  channels : TableId → Option ChannelHandle
  metadata : TableId → Option DestinationTableMetadata
  tableSchemas : TableSchemaSnapshots
  requests : List Request := []

namespace Destination

def setChannel (destination : Destination) (tableId : TableId) (handle : ChannelHandle) :
    Destination :=
  { destination with channels := Function.update destination.channels tableId handle }

def setMetadata (destination : Destination) (tableId : TableId)
    (metadata : DestinationTableMetadata) : Destination :=
  { destination with metadata := Function.update destination.metadata tableId metadata }

end Destination

/-! ## Channels -/

section Calls

variable (config : Config) (server : Server)

/-- Sends a request. -/
def send (request : Request) : Calls Error Destination Response := do
  let answer := server (← .read).requests request
  .call (.httpTransport "request failed") fun destination =>
    answer.map fun _ => { destination with requests := destination.requests ++ [request] }
  .ofExcept answer

def executeDdl (sql : String) : Calls Error Destination Unit :=
  discard (send server (.executeDdl sql))

namespace ChannelHandle

/-- A handle without tokens. -/
def new (table : String) : ChannelHandle where
  table
  channel := "supabase_etl_" ++ toString config.pipelineId ++ "_" ++ config.schema ++ "_" ++
    table ++ "_ch0"

variable (handle : ChannelHandle)

/-- Opens or reopens the channel. -/
def openChannel : Calls Error Destination ChannelHandle := do
  let response ← send server (.openChannel handle.table handle.channel)
  return { handle with
    lastOffsetToken := response.offsetToken
    continuationToken := some response.continuationToken }

def dropChannel : Calls Error Destination ChannelHandle := do
  discard (send server (.dropChannel handle.table handle.channel))
  return { handle with lastOffsetToken := none, continuationToken := none }

def sendBatch (batch : RowBatch) : Calls Error Destination ChannelHandle := do
  match handle.continuationToken with
  | none =>
    .ofExcept (.error (.channel "send_batch called on channel without continuation token"))
  | some continuationToken =>
    let response ← send server
      (.insertRows handle.table handle.channel batch continuationToken)
    return { handle with
      continuationToken := some response.continuationToken
      lastOffsetToken := some batch.offset }

end ChannelHandle

/-- Snowflake has closed the channel. -/
def Error.isStaleChannel : Error → Bool
  | snowpipe statusCode _ => statusCode = 4
  | httpStatus status _ => status = 404
  | _ => false

/-- Keeps what an operation did to a channel. -/
def putChannel (tableId : TableId) (handle : ChannelHandle) : Calls Error Destination Unit :=
  .update (·.setChannel tableId handle)

/-- The channel of a table. -/
def getChannel (tableId : TableId) : Calls Error Destination ChannelHandle := do
  match (← .read).channels tableId with
  | some handle => return handle
  | none => .ofExcept (.error (.channel ("no open channel for table " ++ toString tableId)))

/-- Sends a batch; a channel that Snowflake has closed is reopened once. -/
def processBatch (tableId : TableId) (handle : ChannelHandle) (batch : RowBatch) :
    Calls Error Destination ChannelHandle := do
  let sent ← tryCatch (some <$> handle.sendBatch server batch) fun e =>
    if e.isStaleChannel then return none else throw e
  match sent with
  | some handle =>
    putChannel tableId handle
    return handle
  | none =>
    let handle ← handle.openChannel server
    putChannel tableId handle
    let handle ← handle.sendBatch server batch
    putChannel tableId handle
    return handle

/-! ## Tables -/

namespace Client

/-- Creates the table and opens its channel, unless that was done in this process. -/
def ensureTable (tableId : TableId) (tableName : String) (columns : List ColumnSchema) :
    Calls Error Destination Bool := do
  if ((← .read).channels tableId).isSome then return false
  .ofExcept (validateNoCdcCollisions columns)
  executeDdl server ("CREATE TABLE IF NOT EXISTS " ++ config.fullyQualifiedName tableName ++ " (" ++
    buildColumnDefs columns ++ ") ENABLE_SCHEMA_EVOLUTION = TRUE")
  let handle ← (ChannelHandle.new config tableName).openChannel server
  putChannel tableId handle
  return true

/-- Adds, renames and removes columns. -/
def applySchemaDiff (tableName : String) (diff : SchemaDiff) :
    Calls Error Destination Unit := do
  let table := config.fullyQualifiedName tableName
  if diff.isEmpty then return
  forM diff.columnsToAdd fun column =>
    executeDdl server ("ALTER TABLE " ++ table ++ " ADD COLUMN " ++ quoteIdentifier column.name ++
      " " ++ typeName column.typ)
  forM diff.columnsToRename fun rename =>
    executeDdl server ("ALTER TABLE " ++ table ++ " RENAME COLUMN " ++
      quoteIdentifier rename.oldName ++ " TO " ++ quoteIdentifier rename.newName)
  forM diff.columnsToRemove fun column =>
    executeDdl server ("ALTER TABLE " ++ table ++ " DROP COLUMN " ++ quoteIdentifier column.name)

/-- Empties the table and resets its channel. -/
def truncateTable (tableId : TableId) (tableName : String) : Calls Error Destination Unit := do
  let handle ← getChannel tableId
  executeDdl server ("TRUNCATE TABLE " ++ config.fullyQualifiedName tableName)
  let handle ← handle.dropChannel server
  putChannel tableId handle
  let handle ← handle.openChannel server
  putChannel tableId handle

/-- Reopens the channel after a schema change. -/
def refreshTable (tableId : TableId) : Calls Error Destination Unit := do
  let handle ← getChannel tableId
  let handle ← handle.openChannel server
  putChannel tableId handle

/-- Sends batches through the channel of a table. -/
def insertBatches (tableId : TableId) (batches : List RowBatch) :
    Calls Error Destination Unit := do
  let handle ← getChannel tableId
  discard (batches.foldlM (processBatch server tableId) handle)

end Client

end Calls

end Etl.Snowflake
