import Etl.Common.Calls
import Etl.Conversions.Text
import Etl.Destinations.BigQuery.TableId
import Etl.Destinations.SchemaChange
import Etl.State.DestinationMetadata
import Mathlib.Data.List.Sort

/-! # BigQuery statements

The statements the destination sends, and what BigQuery does with them: a table is created once, a
view needs its target, and a column statement fails as in `Etl.applyColumnChanges`. Identifiers
are escaped on the way, which rejects empty ones and control characters before anything is sent.

The check whether a table exists answers yes unless BigQuery says that it does not, so a check
that does not come through is a yes.

Reference: `etl-destinations/src/bigquery/client.rs`.
-/

namespace Etl.BigQuery

open NamedColumns Calls.Keeps

/-- Where the destination writes to. -/
structure Config where
  projectId : String
  datasetId : String
  deriving DecidableEq, Repr

/-! ## Identifiers and column definitions -/

def isControl (c : Char) : Bool := c.toNat < 0x20 || (0x7f ≤ c.toNat && c.toNat < 0xa0)

/-- Escapes what delimits or escapes an identifier. -/
def sanitizeIdentifier (identifier context : String) : EtlResult String :=
  if identifier.toList.isEmpty then
    bailWith .destinationTableNameInvalid "Invalid BigQuery identifier"
      (context ++ " cannot be empty")
  else if identifier.toList.any isControl then
    bailWith .destinationTableNameInvalid "Invalid BigQuery identifier"
      (context ++ " contains control characters")
  else
    .ok <| String.ofList <| identifier.toList.flatMap fun c =>
      if "`\\".toList.contains c then ['\\', c] else [c]

def fullTableName (config : Config) (tableId : String) : EtlResult String := do
  let projectId ← sanitizeIdentifier config.projectId "BigQuery project id"
  let datasetId ← sanitizeIdentifier config.datasetId "BigQuery dataset id"
  let tableId ← sanitizeIdentifier tableId "BigQuery table id"
  return "`" ++ projectId ++ "." ++ datasetId ++ "." ++ tableId ++ "`"

/-- The type of the elements of an array column. -/
def bigqueryElementType : PgType → String
  | .boolArray => "bool"
  | .int2Array | .int4Array | .int8Array | .oidArray => "int64"
  | .float4Array | .float8Array => "float64"
  | .numericArray => "bignumeric"
  | .dateArray => "date"
  | .timeArray => "time"
  | .timestampArray | .timestamptzArray => "timestamp"
  | .jsonArray | .jsonbArray => "json"
  | .byteaArray => "bytes"
  | _ => "string"

/-- The type of a column. -/
def postgresToBigqueryType (typ : PgType) : String :=
  if isArrayType typ then "array<" ++ bigqueryElementType typ ++ ">"
  else
    match typ with
    | .bool => "bool"
    | .int2 | .int4 | .int8 | .oid => "int64"
    | .float4 | .float8 => "float64"
    | .numeric => "bignumeric"
    | .date => "date"
    | .time => "time"
    | .timestamp | .timestamptz => "timestamp"
    | .json | .jsonb => "json"
    | .bytea => "bytes"
    | _ => "string"

/-- The definition of a column. -/
def columnSpec (column : ColumnSchema) : EtlResult String := do
  let columnName ← sanitizeIdentifier column.name "BigQuery column name"
  return "`" ++ columnName ++ "` " ++ postgresToBigqueryType column.typ ++
    if !column.nullable && !isArrayType column.typ then " not null" else ""

/-- The key of a table, in the order of the source's key. -/
def addPrimaryKeyClause (schema : ReplicatedTableSchema) : EtlResult (Option String) := do
  if schema.primaryKeyColumnSchemas.isEmpty then return none
  let primaryKeyColumns := schema.primaryKeyColumnSchemas.insertionSort fun a b =>
    a.primaryKeyOrdinalPosition.getD 0 ≤ b.primaryKeyOrdinalPosition.getD 0
  let names ← primaryKeyColumns.mapM fun column => do
    return "`" ++ (← sanitizeIdentifier column.name "BigQuery primary key column") ++ "`"
  return some (", primary key (" ++ ",".intercalate names ++ ") not enforced")

/-- The definition of a table. -/
def createColumnsSpec (schema : ReplicatedTableSchema) : EtlResult String := do
  let columnSpecs ← schema.columnSchemas.mapM columnSpec
  let primaryKeyClause ← addPrimaryKeyClause schema
  return "(" ++ ",".intercalate columnSpecs ++ primaryKeyClause.getD "" ++ ")"

/-! ## The destination -/

/-- What the destination works on for one source table: the tables at BigQuery with the names and
types of their columns, the views with their targets, the stored metadata, what is kept in memory
about tables and views, and the tables that background tasks have yet to drop. -/
structure Destination where
  tables : String → Option (List (String × String))
  views : String → Option String
  metadata : Option DestinationTableMetadata
  createdTables : List SequencedBigQueryTableId
  createdViews : String → Option SequencedBigQueryTableId
  tasks : List SequencedBigQueryTableId

namespace Destination

/-- A restart loses what is kept in memory, and the tasks. -/
def restart (destination : Destination) : Destination :=
  { destination with createdTables := [], createdViews := fun _ => none, tasks := [] }

def setTable (destination : Destination) (tableId : String)
    (columns : Option (List (String × String))) : Destination :=
  { destination with tables := Function.update destination.tables tableId columns }

def setView (destination : Destination) (viewName : String) (target : Option String) :
    Destination :=
  { destination with views := Function.update destination.views viewName target }

def setMetadata (destination : Destination) (metadata : DestinationTableMetadata) : Destination :=
  { destination with metadata := some metadata }

end Destination

/-- What a call that does not come through returns. -/
def requestFailed : EtlError := ⟨.destinationIoError, "BigQuery request failed", none⟩

/-- What a statement that BigQuery rejects returns. -/
def responseError : EtlError := ⟨.destinationQueryFailed, "BigQuery response error", none⟩

/-! ## Statements -/

section Statements

variable (config : Config)

/-- The columns of a new table. -/
def tableColumns (schema : ReplicatedTableSchema) : List (String × String) :=
  schema.columnSchemas.map fun column => (column.name, postgresToBigqueryType column.typ)

/-- Asks whether a table exists. -/
def tableExists (tableId : String) : Calls EtlError Destination Bool :=
  .query true fun destination => (destination.tables tableId).isSome

def createTable (tableId : String) (schema : ReplicatedTableSchema) :
    Calls EtlError Destination Unit := do
  discard <| .ofExcept (fullTableName config tableId)
  discard <| .ofExcept (createColumnsSpec schema)
  .call requestFailed fun destination =>
    if (destination.tables tableId).isSome then .error responseError
    else .ok (destination.setTable tableId (tableColumns schema))

def createTableIfMissing (tableId : String) (schema : ReplicatedTableSchema) :
    Calls EtlError Destination Bool := do
  if ← tableExists tableId then return false
  createTable config tableId schema
  return true

/-- Creates a table, in the place of one that exists. -/
def createOrReplaceTable (tableId : String) (schema : ReplicatedTableSchema) :
    Calls EtlError Destination Bool := do
  let existed ← tableExists tableId
  discard <| .ofExcept (fullTableName config tableId)
  discard <| .ofExcept (createColumnsSpec schema)
  .call requestFailed fun destination => .ok (destination.setTable tableId (tableColumns schema))
  return !existed

def createOrReplaceView (viewName targetTableId : String) : Calls EtlError Destination Unit := do
  discard <| .ofExcept (fullTableName config viewName)
  discard <| .ofExcept (fullTableName config targetTableId)
  .call requestFailed fun destination =>
    if (destination.tables targetTableId).isSome then
      .ok (destination.setView viewName targetTableId)
    else .error responseError

def dropViewIfExists (viewName : String) : Calls EtlError Destination Unit := do
  discard <| .ofExcept (fullTableName config viewName)
  .call requestFailed fun destination => .ok (destination.setView viewName none)

def dropTableIfExists (tableId : String) : Calls EtlError Destination Unit := do
  discard <| .ofExcept (fullTableName config tableId)
  .call requestFailed fun destination => .ok (destination.setTable tableId none)

/-- Changes the columns of a table, unless BigQuery rejects the change. -/
def alterTable (tableId : String)
    (change : List (String × String) → Option (List (String × String))) :
    Calls EtlError Destination Unit :=
  .call requestFailed fun destination =>
    match (destination.tables tableId).bind change with
    | some columns => .ok (destination.setTable tableId columns)
    | none => .error responseError

def addColumn (tableId : String) (column : ColumnSchema) : Calls EtlError Destination Unit := do
  discard <| .ofExcept (fullTableName config tableId)
  discard <| .ofExcept (sanitizeIdentifier column.name "BigQuery column name")
  alterTable tableId (Etl.addColumn (postgresToBigqueryType column.typ) column.name)

def dropColumn (tableId columnName : String) : Calls EtlError Destination Unit := do
  discard <| .ofExcept (fullTableName config tableId)
  discard <| .ofExcept (sanitizeIdentifier columnName "BigQuery column name")
  alterTable tableId (Etl.dropColumn columnName)

def renameColumn (tableId oldName newName : String) : Calls EtlError Destination Unit := do
  discard <| .ofExcept (fullTableName config tableId)
  discard <| .ofExcept (sanitizeIdentifier oldName "BigQuery column name")
  discard <| .ofExcept (sanitizeIdentifier newName "BigQuery column name")
  alterTable tableId (Etl.renameColumn oldName newName)

end Statements

def storeDestinationTableMetadata (metadata : DestinationTableMetadata) :
    Calls EtlError Destination Unit :=
  .call ⟨.sourceQueryFailed, "Destination table metadata storage failed",
      some "Failed to store destination table metadata in PostgreSQL"⟩
    fun destination => .ok (destination.setMetadata metadata)

/-! ## What statements keep -/

section Keeps

variable {config : Config} {schema : ReplicatedTableSchema} {name : String}
  {P : Destination → Prop}

theorem keeps_createTable
    (hP : ∀ destination columns, P destination → P (destination.setTable name (some columns))) :
    Calls.Keeps P (createTable config name schema) := by
  refine (ofExcept _).discard.bind fun _ =>
    (ofExcept _).discard.bind fun _ => call ?_
  intro before after hbefore hafter
  split_ifs at hafter
  cases hafter
  exact hP before _ hbefore

theorem keeps_createOrReplaceTable
    (hP : ∀ destination columns, P destination → P (destination.setTable name (some columns))) :
    Calls.Keeps P (createOrReplaceTable config name schema) := by
  refine bind (query _ _) fun _ =>
    (ofExcept _).discard.bind fun _ =>
      (ofExcept _).discard.bind fun _ =>
        (call ?_).bind fun _ => pure _
  intro before after hbefore hafter
  cases hafter
  exact hP before _ hbefore

end Keeps

end Etl.BigQuery
