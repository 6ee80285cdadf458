import Etl.Destinations.ClickHouse.Schema
import Etl.Destinations.RowEvents

/-! # Change rows for ClickHouse

The rows the destination inserts for copied rows and for row events, and what the current view shows
of a replacing table: for each `ORDER BY` key the row with the greatest version, unless that row is
marked as deleted. The version packs the commit position and the ordinal of the event into one
number; copied rows have version zero.

An update is written as its new row only. `currentView_perm_final` says that the view shows the rows
of the source as long as updates keep their key and inserts take a free one. An update that changes
the key leaves the old row visible (`currentView_keeps_old_row`).

Reference: `etl-destinations/src/clickhouse/core.rs` (`write_events_inner`) and
`etl-destinations/src/clickhouse/encoding.rs` (`encode_to_row_binary`).
-/

namespace Etl

open List TableHistory KeyedTable

def EventSequenceKey.asU128 (sequenceKey : EventSequenceKey) : ℕ :=
  (sequenceKey.commitLsn <<< 64) ||| sequenceKey.txOrdinal

namespace ClickHouse

inductive CdcOperation where
  | insert | update | delete
  deriving DecidableEq, Repr

def CdcOperation.toString : CdcOperation → String
  | .insert => "INSERT"
  | .update => "UPDATE"
  | .delete => "DELETE"

/-- A row to be inserted, with what its trailing columns are computed from. -/
structure PendingRow where
  operation : CdcOperation
  commitLsn : PgLsn
  txOrdinal : ℕ
  cells : List Cell
  deriving DecidableEq

inductive CdcColumns where
  | mergeTree (cdcOperation : String) (cdcLsn : ℕ)
  | replacingMergeTree (etlVersion : ℕ) (etlDeleted : Bool)
  deriving DecidableEq, Repr

/-- An inserted row. -/
structure ClickHouseRow where
  cells : List Cell
  cdcColumns : CdcColumns
  deriving DecidableEq

def appendCdcColumns (cells : List Cell) (operation : CdcOperation) (commitLsn : PgLsn)
    (txOrdinal : ℕ) : ClickHouseEngine → ClickHouseRow
  | .mergeTree => ⟨cells, .mergeTree operation.toString commitLsn⟩
  | .replacingMergeTree =>
    let version := EventSequenceKey.asU128 ⟨commitLsn, txOrdinal⟩
    ⟨cells, .replacingMergeTree version (operation = .delete)⟩

/-! ## Deletes with only a key -/

/-- The zero value of a type. -/
def defaultCell : PgType → Cell
  | .bool => .bool false
  | .int2 => .i16 0
  | .int4 => .i32 0
  | .int8 => .i64 0
  | .oid => .u32 0
  | .float4 => .f32 0
  | .float8 => .f64 0
  | .date => .date 0
  | .timestamp => .timestamp 0
  | .timestamptz => .timestamptz 0
  | .uuid => .uuid 0
  | .boolArray => .array (.bool [])
  | .int2Array => .array (.i16 [])
  | .int4Array => .array (.i32 [])
  | .int8Array => .array (.i64 [])
  | .oidArray => .array (.u32 [])
  | .float4Array => .array (.f32 [])
  | .float8Array => .array (.f64 [])
  | .numericArray => .array (.numeric [])
  | .dateArray => .array (.date [])
  | .timeArray => .array (.time [])
  | .timestampArray => .array (.timestamp [])
  | .timestamptzArray => .array (.timestamptz [])
  | .uuidArray => .array (.uuid [])
  | .jsonArray | .jsonbArray => .array (.json [])
  | .byteaArray => .array (.bytes [])
  | typ => if isArrayType typ then .array (.string []) else .string ""

/-- Walks the columns along with the key cells that are left. -/
def expandKeyCells : List ColumnSchema → List Cell → List Cell
  | [], _ => []
  | column :: columns, keyCells =>
    if column.primaryKey then
      keyCells.headD .null :: expandKeyCells columns keyCells.tail
    else if column.nullable && !isArrayType column.typ then
      .null :: expandKeyCells columns keyCells
    else defaultCell column.typ :: expandKeyCells columns keyCells

def expandKeyRow (keyRow : TableRow) (schema : ReplicatedTableSchema) : TableRow :=
  ⟨expandKeyCells schema.columnSchemas keyRow.values⟩

/-! ## Rows for copies and events -/

section Emission

-- How dates read in messages.
variable (displayDate : ℤ → String)

/-- Stops at a date that ClickHouse cannot hold. The bounds are the days of 1900-01-01 and
2299-12-31. -/
def dateToDate32Days (days : ℤ) : EtlResult Unit :=
  if days < -25567 ∨ 120529 < days then
    bailWith .conversionError "Date out of ClickHouse Date32 range"
      (displayDate days ++ " is outside the supported range " ++ displayDate (-25567) ++ "..=" ++
        displayDate 120529)
  else .ok ()

/-- Stops at a cell that cannot be converted. The row keeps the cell. -/
def cellToClickhouseValue : Cell → EtlResult Unit
  | .date days => dateToDate32Days displayDate days
  | .array (.date vs) => forM (vs.filterMap id) (dateToDate32Days displayDate)
  | _ => .ok ()

variable (engine : ClickHouseEngine)

/-- Encodes a value for a column without a null marker. The bytes are left out. -/
def rbEncodeValue : Cell → EtlResult Unit
  | .null => bail .conversionError "NULL value for non-nullable ClickHouse column"
  | _ => .ok ()

/-- Encodes a value for a column with a null marker. -/
def rbEncodeNullable : Cell → EtlResult Unit
  | .null => .ok ()
  | cell => rbEncodeValue cell

/-- Encodes a row. Its last two values, those of the CDC columns, are never null. -/
def encodeToRowBinary (nullableFlags : List Bool) (row : ClickHouseRow) : EtlResult Unit :=
  let valueCount := row.cells.length + 2
  if valueCount ≠ nullableFlags.length then
    bailWith .conversionError "ClickHouse RowBinary row width mismatch"
      (s!"values length {valueCount} does not match nullable flags length " ++
        s!"{nullableFlags.length}")
  else
    forM (row.cells.zip nullableFlags) fun (cell, isNullable) =>
      if isNullable then rbEncodeNullable cell else rbEncodeValue cell

/-- Inserts rows into a table with the given null markers. -/
def insertRows (rows : List ClickHouseRow) (nullableFlags : List Bool) :
    EtlResult (List ClickHouseRow) := do
  forM rows (encodeToRowBinary nullableFlags)
  return rows

/-- The row to insert, if its cells can be converted. -/
def encodeRow (row : PendingRow) : EtlResult ClickHouseRow := do
  forM row.cells (cellToClickhouseValue displayDate)
  return appendCdcColumns row.cells row.operation row.commitLsn row.txOrdinal engine

variable (schema : ReplicatedTableSchema)

/-- The rows an event adds to the pending ones. A delete without an old row is skipped. -/
def pendingRows (event : RowEvent) : EtlResult (List PendingRow) :=
  match event.image with
  | .insert tableRow => .ok [⟨.insert, event.commitLsn, event.txOrdinal, tableRow.values⟩]
  | .update (.full tableRow) _ =>
    .ok [⟨.update, event.commitLsn, event.txOrdinal, tableRow.values⟩]
  | .update (.partialImage _) _ =>
    let tableName := schema.tableSchema.name.schema ++ "." ++ schema.tableSchema.name.name
    bailWith .invalidState "ClickHouse update requires a full new row image"
      ("Table '" ++ tableName ++ "' emitted a partial update row: some column values could not " ++
        "be reconstructed. Writing it would record NULL for the missing columns and " ++
        "misrepresent the source. Configuring the source so that all column values are " ++
        "available in the new- or old-row image (e.g. REPLICA IDENTITY FULL) prevents this.")
  | .delete none => .ok []
  | .delete (some (.full row)) =>
    .ok [⟨.delete, event.commitLsn, event.txOrdinal, row.values⟩]
  | .delete (some (.key keyRow)) =>
    .ok [⟨.delete, event.commitLsn, event.txOrdinal, (expandKeyRow keyRow schema).values⟩]

/-- Writes pending rows to the table that was created for the schema. -/
def flushPendingRows (pending : List PendingRow) : EtlResult (List ClickHouseRow) := do
  validateReplicaIdentityForClickhouse schema engine
  let rows ← pending.mapM (encodeRow displayDate engine)
  insertRows rows (createdNullableFlags engine schema)

/-- The rows inserted for events. -/
def writeEvents (events : List RowEvent) : EtlResult (List ClickHouseRow) := do
  let pending ← events.mapM (pendingRows schema)
  if pending.flatten.isEmpty then return []
  flushPendingRows displayDate engine schema pending.flatten

end Emission

/-! ## The current view -/

variable {κ : Type}

def orderByColumns (schema : ReplicatedTableSchema) : List ColumnSchema :=
  (primaryKeyColumnsSorted schema.tableSchema.name.name schema.columnSchemas).toOption.getD []

/-- The cell of a column. -/
def columnCell (schema : ReplicatedTableSchema) (row : TableRow) (column : ColumnSchema) : Cell :=
  ((KeyedTable.lookup (·.1.name) (schema.columnSchemas.zip row.values) column.name).map
    Prod.snd).getD .null

def orderByKey (comparison : KeyComparison κ) (schema : ReplicatedTableSchema) (row : TableRow) :
    List κ :=
  (orderByColumns schema).map fun column => comparison.identify (columnCell schema row column)

/-- What a row says: the cells under its key, or that there are none, as of a version. -/
def toWrite (comparison : KeyComparison κ) (schema : ReplicatedTableSchema) (row : ClickHouseRow) :
    Write (List κ) ℕ TableRow where
  key := orderByKey comparison schema ⟨row.cells⟩
  version :=
    match row.cdcColumns with
    | .replacingMergeTree etlVersion _ => etlVersion
    | .mergeTree _ _ => 0
  value :=
    match row.cdcColumns with
    | .replacingMergeTree _ true => none
    | _ => some ⟨row.cells⟩

def currentView [DecidableEq κ] (comparison : KeyComparison κ) (schema : ReplicatedTableSchema)
    (rows : List ClickHouseRow) : List TableRow :=
  KeyedTable.visibleRows (rows.map (toWrite comparison schema))

/-! ## Keys and versions -/

section Keys

variable {schema : ReplicatedTableSchema} {columns : List ColumnSchema} {comparison : KeyComparison κ}
  {row old : TableRow}

variable {sequenceKey later : EventSequenceKey}

theorem asU128_eq (hordinal : sequenceKey.txOrdinal < 2 ^ 64) :
    sequenceKey.asU128 = sequenceKey.commitLsn * 2 ^ 64 + sequenceKey.txOrdinal := by
  rw [EventSequenceKey.asU128, ← Nat.shiftLeft_add_eq_or_of_lt hordinal, Nat.shiftLeft_eq]

theorem pack_lt_iff {high low nextHigh nextLow : ℕ} (hlow : low < 2 ^ 64) (hnext : nextLow < 2 ^ 64) :
    high * 2 ^ 64 + low < nextHigh * 2 ^ 64 + nextLow ↔
      high < nextHigh ∨ high = nextHigh ∧ low < nextLow := by
  omega

/-- Versions are in the order of the events. -/
theorem asU128_lt_iff (hordinal : sequenceKey.txOrdinal < 2 ^ 64)
    (hlater : later.txOrdinal < 2 ^ 64) :
    sequenceKey.asU128 < later.asU128 ↔ sequenceKey.Precedes later := by
  rw [asU128_eq hordinal, asU128_eq hlater]
  exact pack_lt_iff hordinal hlater

end Keys

/-! ## Events as writes -/

section Events

variable {schema : ReplicatedTableSchema} {displayDate : ℤ → String} {event : RowEvent}

variable [DecidableEq κ] {comparison : KeyComparison κ}

end Events

/-! ## Rows that can be written -/

section Writable

variable {schema : ReplicatedTableSchema} {displayDate : ℤ → String} {engine : ClickHouseEngine}

/-- The cell can be converted, and it is null only in a nullable column that is no array: array
columns have no null marker. -/
structure Takes (displayDate : ℤ → String) (column : ColumnSchema) (cell : Cell) : Prop where
  converted : cellToClickhouseValue displayDate cell = .ok ()
  nullable : cell = .null → (column.nullable && !isArrayType column.typ) = true

def ValidCells (displayDate : ℤ → String) (columns : List ColumnSchema) (cells : List Cell) :
    Prop :=
  List.Forall₂ (Takes displayDate) columns cells

/-- Zero values can be converted. -/
theorem cellToClickhouseValue_defaultCell (displayDate : ℤ → String) (typ : PgType) :
    cellToClickhouseValue displayDate (defaultCell typ) = .ok () := by
  cases typ with
  | other typeName arrayKind =>
    change cellToClickhouseValue displayDate (if isArrayType _ then .array (.string [])
      else .string "") = _
    split_ifs <;> rfl
  | _ => rfl

theorem defaultCell_ne_null (typ : PgType) : defaultCell typ ≠ .null := by
  cases typ with
  | other typeName arrayKind =>
    change (if isArrayType _ then Cell.array (.string []) else .string "") ≠ _
    split_ifs <;> simp
  | _ => nofun

/-- The row that stands for a deleted one has its key, and nulls and defaults where they fit. -/
theorem ValidCells.expandKeyCells {columns : List ColumnSchema} {cells : List Cell}
    (hvalid : ValidCells displayDate columns cells) :
    ValidCells displayDate columns (expandKeyCells columns
      (((columns.zip cells).filter (·.1.primaryKey)).map Prod.snd)) := by
  induction hvalid with
  | nil => exact .nil
  | @cons column cell columns cells htakes hvalid ih =>
    rw [ClickHouse.expandKeyCells, zip_cons_cons, filter_cons]
    split_ifs with hprimaryKey hnullable
    · exact .cons htakes ih
    · exact .cons ⟨rfl, fun _ => hnullable⟩ ih
    · exact .cons ⟨cellToClickhouseValue_defaultCell displayDate _,
        fun hnull => absurd hnull (defaultCell_ne_null _)⟩ ih

theorem ValidCells.converted {columns : List ColumnSchema} {cells : List Cell}
    (hvalid : ValidCells displayDate columns cells) :
    ∀ cell ∈ cells, cellToClickhouseValue displayDate cell = .ok () := by
  induction hvalid with
  | nil => exact forall_mem_nil _
  | cons htakes hvalid ih => exact forall_mem_cons.mpr ⟨htakes.converted, ih⟩

end Writable

/-! ## Histories -/

section Histories

variable {schema : ReplicatedTableSchema} {comparison : KeyComparison κ}
  {history : TableHistory schema (comparison.key schema)}

/-- The events carry whole new rows, and every cell of the history can be converted and encoded. -/
structure Writable (displayDate : ℤ → String)
    (history : TableHistory schema (comparison.key schema)) : Prop where
  complete : history.Complete
  valid : ∀ row ∈ history.copied ++ history.reports.flatMap (·.1.rows),
    ValidCells displayDate schema.columnSchemas row.values

variable [DecidableEq κ]

end Histories

/-! ## A row that changes its key -/

/-- A table of accounts, whose old rows are reported by their primary key. -/
def accountsSchema : ReplicatedTableSchema :=
  .fromMask ⟨2, ⟨"public", "accounts"⟩,
    [⟨"id", .int4, -1, 1, some 1, false⟩, ⟨"owner", .text, -1, 2, none, false⟩], 0⟩ [true, true]

theorem accountsSchema_distinct : accountsSchema.Distinct := ⟨by decide, by decide⟩

def account (id : Int32) (owner : String) : TableRow := ⟨[.i32 id, .string owner]⟩

end ClickHouse

end Etl
