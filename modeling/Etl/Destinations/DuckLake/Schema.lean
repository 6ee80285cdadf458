import Etl.Conversions.TableRow
import Etl.Conversions.TupleData
import Etl.Types.SchemaDiff

/-! # DuckLake tables

Reference: `etl-destinations/src/ducklake/schema.rs` (`postgres_column_type_to_ducklake_sql`,
`build_create_table_sql_ducklake`), `encoding.rs` (`prepare_rows`), `core.rs`
(`ensure_table_exists`), `batches.rs` (`stage_and_insert`, `load_rows`).

How a schema becomes the columns of a DuckLake table, and how rows reach it: a staging table is
created with the columns of the table, the values of each row are appended to it by position, and
its rows are inserted into the table. The table gets a column for every column of the source table,
while a decoded row has a value for every replicated column.

Statements are kept as the columns they name; quoting and the conversion of values to the types of
the columns are left out. What the database itself decides is a parameter (`DuckDb`).
-/

namespace Etl

open List

/-! ## Schemas that replicate every column -/

namespace ReplicatedTableSchema

variable (schema : ReplicatedTableSchema)

/-- Every column of the source table is replicated. -/
def AllReplicated : Prop :=
  ∀ i < schema.tableSchema.columnSchemas.length, schema.replicationMask[i]? = some true

instance : Decidable schema.AllReplicated :=
  inferInstanceAs (Decidable (∀ i < schema.tableSchema.columnSchemas.length, _))

variable {schema} {α : Type}

/-- The columns a mask selects stay in their order. -/
theorem selected_sublist (columns : List α) (mask : List Bool) :
    ((columns.zip mask).filterMap fun x => if x.2 then some x.1 else none).Sublist columns := by
  induction columns generalizing mask with
  | nil => simp
  | cons column columns ih =>
    cases mask with
    | nil => simp
    | cons replicated mask =>
      cases replicated with
      | true => exact (ih mask).cons_cons column
      | false => exact (ih mask).cons column

/-- A mask selects every column exactly when it is set at every column. -/
theorem length_selected_eq_iff {columns : List α} {mask : List Bool} :
    ((columns.zip mask).filterMap fun x => if x.2 then some x.1 else none).length =
        columns.length ↔
      ∀ i < columns.length, mask[i]? = some true := by
  induction columns generalizing mask with
  | nil => simp
  | cons column columns ih =>
    rw [length_cons, Nat.forall_lt_succ_left]
    cases mask with
    | nil => simp
    | cons replicated mask =>
      cases replicated with
      | true => simp [ih]
      | false =>
        have hle := (selected_sublist columns mask).length_le
        simp only [zip_cons_cons, filterMap_cons, Bool.false_eq_true, if_false,
          List.getElem?_cons_zero, Option.some.injEq, false_and, iff_false]
        omega

theorem length_columnSchemas_eq_iff :
    schema.columnSchemas.length = schema.tableSchema.columnSchemas.length ↔
      schema.AllReplicated :=
  length_selected_eq_iff

theorem AllReplicated.columnSchemas_eq (hall : schema.AllReplicated) :
    schema.columnSchemas = schema.tableSchema.columnSchemas := by
  have hsublist : schema.columnSchemas.Sublist schema.tableSchema.columnSchemas :=
    selected_sublist _ _
  exact hsublist.eq_of_length (length_columnSchemas_eq_iff.mpr hall)

end ReplicatedTableSchema

namespace DuckLake

/-! ## Column types -/

/-- The type of a scalar column. -/
def postgresScalarTypeToDucklakeSql : PgType → String
  | .bool => "BOOLEAN"
  | .char | .bpchar | .varchar | .name | .text => "VARCHAR"
  | .int2 => "SMALLINT"
  | .int4 => "INTEGER"
  | .int8 => "BIGINT"
  | .float4 => "FLOAT"
  | .float8 => "DOUBLE"
  | .numeric => "VARCHAR"
  | .date => "DATE"
  | .time => "TIME"
  | .timestamp => "TIMESTAMP"
  | .timestamptz => "TIMESTAMPTZ"
  | .uuid => "UUID"
  | .json | .jsonb => "JSON"
  | .oid => "UBIGINT"
  | .bytea => "BLOB"
  | _ => "VARCHAR"

/-- The type of an array column. -/
def postgresArrayTypeToDucklakeSql : PgType → String
  | .boolArray => "BOOLEAN[]"
  | .charArray | .bpcharArray | .varcharArray | .nameArray | .textArray => "VARCHAR[]"
  | .int2Array => "SMALLINT[]"
  | .int4Array => "INTEGER[]"
  | .int8Array => "BIGINT[]"
  | .float4Array => "FLOAT[]"
  | .float8Array => "DOUBLE[]"
  | .numericArray => "VARCHAR[]"
  | .dateArray => "DATE[]"
  | .timeArray => "TIME[]"
  | .timestampArray => "TIMESTAMP[]"
  | .timestamptzArray => "TIMESTAMPTZ[]"
  | .uuidArray => "UUID[]"
  | .jsonArray | .jsonbArray => "JSON[]"
  | .oidArray => "UBIGINT[]"
  | .byteaArray => "BLOB[]"
  | _ => "VARCHAR[]"

/-- The type of a column. -/
def postgresColumnTypeToDucklakeSql (typ : PgType) : String :=
  if isArrayType typ then postgresArrayTypeToDucklakeSql typ
  else postgresScalarTypeToDucklakeSql typ

/-! ## Tables -/

/-- A column of a table. -/
structure Column where
  name : String
  duckdbType : String
  notNull : Bool
  deriving DecidableEq, Repr

/-- A table with its rows. -/
structure Table where
  columns : List Column
  rows : List TableRow
  deriving DecidableEq

/-- The columns of the statement that creates a table. -/
def buildCreateTableSqlDucklake (columnSchemas : List ColumnSchema) : List Column :=
  columnSchemas.map fun col =>
    ⟨col.name, postgresColumnTypeToDucklakeSql col.typ, !col.nullable⟩

/-- Creates the table of a schema, if it does not exist. -/
def ensureTableExists (schema : ReplicatedTableSchema) (existing : Option Table) : Table :=
  existing.getD ⟨buildCreateTableSqlDucklake schema.tableSchema.columnSchemas, []⟩

/-- The column names of a table. -/
def Table.columnNames (table : Table) : List String := table.columns.map Column.name

/-! ## Staged inserts -/

/-- The rows of an insert, as values for the appender or as literals of a statement. -/
inductive PreparedRows where
  | appender (allValues : List (List Cell))
  | sqlLiterals (rowLiterals : List (List Cell))

def cellRequiresSqlLiterals : Cell → Bool
  | .array _ => true
  | _ => false

/-- Rows with an array anywhere go through statements. -/
def prepareRows (tableRows : List TableRow) : PreparedRows :=
  if tableRows.any fun row => row.values.any cellRequiresSqlLiterals then
    .sqlLiterals (tableRows.map TableRow.values)
  else .appender (tableRows.map TableRow.values)

/-- What the database decides: which values are equal, and which rows a table with given columns
takes. A row needs one value for each column; whether a column takes a null is left to the
database. -/
structure DuckDb where
  equals : Cell → Cell → Bool
  takes : List Column → TableRow → Bool
  length_of_takes : ∀ {columns : List Column} {row : TableRow},
    takes columns row = true → row.values.length = columns.length

/-- Appends rows to a staging table. -/
def loadRows (db : DuckDb) (staging : Table) : PreparedRows → EtlResult Table
  | .appender allValues =>
    if allValues.all (db.takes staging.columns ⟨·⟩) then
      .ok { staging with rows := staging.rows ++ allValues.map TableRow.mk }
    else bail .destinationQueryFailed "DuckLake staging append_row failed"
  | .sqlLiterals rowLiterals =>
    if rowLiterals.all (db.takes staging.columns ⟨·⟩) then
      .ok { staging with rows := staging.rows ++ rowLiterals.map TableRow.mk }
    else bail .destinationQueryFailed "DuckLake staging row insert failed"

/-- The columns of the staging table: those of the table without their constraints. -/
def Table.stagingColumns (table : Table) : List Column :=
  table.columns.map fun column => { column with notNull := false }

/-- Stages rows and inserts them into the table. -/
def stageAndInsert (db : DuckDb) (table : Table) (preparedRows : PreparedRows) :
    EtlResult Table := do
  let staging ← loadRows db ⟨table.stagingColumns, []⟩ preparedRows
  if staging.rows.all (db.takes table.columns) then
    .ok { table with rows := table.rows ++ staging.rows }
  else bail .destinationQueryFailed "DuckLake INSERT SELECT failed"

/-! ## The columns of tables and of rows -/

variable {row : TableRow} {schema : ReplicatedTableSchema} {lp : LeafParsers}

theorem columnNames_ensureTableExists (schema : ReplicatedTableSchema) :
    (ensureTableExists schema none).columnNames =
      schema.tableSchema.columnSchemas.map ColumnSchema.name := by
  simp [ensureTableExists, Table.columnNames, buildCreateTableSqlDucklake]

theorem length_columns_ensureTableExists (schema : ReplicatedTableSchema) :
    (ensureTableExists schema none).columns.length =
      schema.tableSchema.columnSchemas.length := by
  simp [ensureTableExists, buildCreateTableSqlDucklake]

/-- A row as the copy or the stream decodes it for a schema. -/
inductive Decoded (lp : LeafParsers) (schema : ReplicatedTableSchema) : TableRow → Prop
  | copied {bytes : ByteArray} {row : TableRow}
      (hrow : parseTableRowFromPostgresCopyBytes lp bytes schema.columnSchemas = .ok row) :
      Decoded lp schema row
  | streamed {tupleData : List TupleData} {row : TableRow}
      (hrow : convertTupleToRow lp schema.columnSchemas tupleData = .ok row) :
      Decoded lp schema row

theorem Decoded.length_values (hrow : Decoded lp schema row) :
    row.values.length = schema.columnSchemas.length := by
  cases hrow with
  | copied hrow => exact length_values_of_parseTableRow lp hrow
  | streamed hrow => exact length_values_of_convertTupleToRow lp hrow

/-- A created table has the columns of the decoded rows, by name and in order and one for each of
their values, exactly when every column is replicated. -/
theorem createdTable_fits_decoded_iff (lp : LeafParsers) (schema : ReplicatedTableSchema) :
    ((ensureTableExists schema none).columnNames = schema.columnSchemas.map ColumnSchema.name ∧
        ∀ row, Decoded lp schema row →
          row.values.length = (ensureTableExists schema none).columns.length) ↔
      schema.AllReplicated := by
  rw [columnNames_ensureTableExists]
  constructor
  · rintro ⟨hnames, -⟩
    have hlength := congrArg List.length hnames
    rw [length_map, length_map] at hlength
    exact ReplicatedTableSchema.length_columnSchemas_eq_iff.mp hlength.symm
  · intro hall
    refine ⟨by rw [hall.columnSchemas_eq], fun row hrow => ?_⟩
    rw [length_columns_ensureTableExists, hrow.length_values, hall.columnSchemas_eq]

/-- A table of two columns of which the publication lists the first. -/
def partialSchema : ReplicatedTableSchema :=
  .fromMask ⟨1, ⟨"public", "notes"⟩, [textColumn "title" 1, textColumn "body" 2], 0⟩ [true, false]

/-- The table is created with both columns, a copied row has one value, and inserting the row
fails on every database. -/
theorem partialSchema_row_not_inserted :
    (ensureTableExists partialSchema none).columnNames = ["title", "body"] ∧
      partialSchema.columnSchemas.map ColumnSchema.name = ["title"] ∧
      parseTableRowFromPostgresCopyBytes LeafParsers.rejectAll (copyRowBytes [some "a"])
          partialSchema.columnSchemas = .ok ⟨[.string "a"]⟩ ∧
      ∀ db : DuckDb, stageAndInsert db (ensureTableExists partialSchema none)
          (prepareRows [⟨[.string "a"]⟩]) =
        bail .destinationQueryFailed "DuckLake staging append_row failed" := by
  refine ⟨by decide, by decide, ?_, fun db => ?_⟩
  · exact parse_copyRowBytes LeafParsers.rejectAll [some "a"] (by decide)
      partialSchema.columnSchemas rfl (by decide)
  · -- the staging table has two columns as well
    have hrejected : db.takes (ensureTableExists partialSchema none).stagingColumns
        ⟨[.string "a"]⟩ = false :=
      Bool.eq_false_iff.mpr fun htakes => absurd (db.length_of_takes htakes) (by decide)
    simp [stageAndInsert, prepareRows, cellRequiresSqlLiterals, loadRows, hrejected]
    rfl

end DuckLake

end Etl
