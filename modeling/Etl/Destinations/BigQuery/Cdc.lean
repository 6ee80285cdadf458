import Etl.Destinations.BigQuery.Prepare
import Etl.Destinations.RowEvents
import Mathlib.Data.Prod.Lex

/-! # Change rows for BigQuery

The rows the destination appends for copied rows and for row events, and the table BigQuery merges
them into: per primary key the row with the greatest change sequence number, or none when that row
is a delete. Copied rows have no sequence number and come before all others. An update that changes
the primary key becomes two rows, a delete of the old key and an upsert of the new one, ordered by an
ordinal of their own.

`mergedRows_perm_final` says that the merged rows are those of the source as long as every step takes
a free key. Where the primary key is checked at commit, two rows can swap their keys directly; then
the delete for the second update removes the row that the first one moved there
(`mergedRows_swap_loses_row`).

Reference: `etl-destinations/src/bigquery/core.rs` (`write_events`).
-/

namespace Etl.BigQuery

open List KeyedTable

/-- What a change row does. -/
inductive BigQueryOperationType where
  | upsert | delete
  deriving DecidableEq, Repr

/-- The sections of a change sequence number, compared from left to right. -/
abbrev ChangeSequenceNumber : Type := ℕ ×ₗ ℕ ×ₗ ℕ

/-- A value of a change row: of a column, or of one of the two columns that describe the change. -/
inductive RowValue where
  | cell (cell : Cell)
  | operation (operation : BigQueryOperationType)
  | sequence (key : ChangeSequenceNumber)
  deriving DecidableEq

/-- A change row: its values with the tags of their fields. -/
abbrev BigQueryTableRow : Type := List (ℕ × RowValue)

/-- The sequence number of a row generated for an event. -/
def bigquerySequenceKey (sequenceKey : EventSequenceKey) (internalOrdinal : ℕ) :
    ChangeSequenceNumber :=
  toLex (sequenceKey.commitLsn, toLex (sequenceKey.txOrdinal, internalOrdinal))

def bigquerySequenceOrdinalFirst : ℕ := 0

def bigquerySequenceOrdinalSecond : ℕ := 1

/-! ## Primary keys of rows -/

/-- The table's name in messages. -/
def displayName (schema : ReplicatedTableSchema) : String :=
  schema.tableSchema.name.schema ++ "." ++ schema.tableSchema.name.name

/-- Stops at a row that does not have a value for every column. -/
def fullRowMismatch {α : Type} (schema : ReplicatedTableSchema) (row : TableRow) : EtlResult α :=
  let columnCount := schema.columnSchemas.length
  let valueCount := row.values.length
  bailWith .invalidState "BigQuery full row image does not match the replicated schema"
    (s!"Expected {columnCount} values for table '" ++ displayName schema ++
      s!"', got {valueCount}")

/-- Stops at a key image when the identity of rows is not the primary key. -/
def keyImageMismatch {α : Type} (schema : ReplicatedTableSchema) : EtlResult α :=
  let identityType :=
    match schema.identityType with
    | .full => "Full"
    | .primaryKey => "PrimaryKey"
    | .alternativeKey => "AlternativeKey"
    | .missing => "Missing"
  bailWith .invalidState "BigQuery key image does not match the source primary key"
    ("Table '" ++ displayName schema ++ "' emitted a key image for replica identity " ++
      identityType ++ ", but BigQuery rows are keyed by the source primary key")

/-- Stops at a key image of the wrong size. -/
def keyCountMismatch {α : Type} (schema : ReplicatedTableSchema) (row : TableRow)
    (description : String) : EtlResult α :=
  let primaryKeyColumnCount := schema.primaryKeyColumnSchemas.length
  let valueCount := row.values.length
  bailWith .invalidState description
    (s!"Expected {primaryKeyColumnCount} key values for table '" ++ displayName schema ++
      s!"', got {valueCount}")

/-- Compares the values of a key image with the key of the new row, in order. -/
def keyValuesChanged (schema : ReplicatedTableSchema) : List Cell → List Cell → EtlResult Bool
  | [], _ => .ok false
  | _ :: _, [] =>
    bailWith .invalidState "BigQuery primary key schema mismatch"
      ("Table '" ++ displayName schema ++ "' did not expose enough primary key columns")
  | oldValue :: oldValues, newValue :: newValues =>
    if !oldValue.eq newValue then .ok true else keyValuesChanged schema oldValues newValues

/-- Whether an update changed the primary key. -/
def bigqueryPrimaryKeyChanged (schema : ReplicatedTableSchema) (oldTableRow : OldTableRow)
    (newTableRow : TableRow) : EtlResult Bool :=
  if newTableRow.values.length ≠ schema.columnSchemas.length then
    fullRowMismatch schema newTableRow
  else
    match oldTableRow with
    | .full row =>
      if row.values.length ≠ schema.columnSchemas.length then fullRowMismatch schema row
      else
        .ok (((schema.columnSchemas.zip row.values).zip newTableRow.values).any
          fun ((columnSchema, oldValue), newValue) =>
            columnSchema.primaryKey && !oldValue.eq newValue)
    | .key row =>
      if !schema.identityMatchesPrimaryKey then keyImageMismatch schema
      else if row.values.length ≠ schema.primaryKeyColumnSchemas.length then
        keyCountMismatch schema row "BigQuery key image does not match the source primary key"
      else keyValuesChanged schema row.values (schema.primaryKeyValues newTableRow)

/-- Tags the values of a key image with the fields of the primary-key columns: walks the columns
along with the primary-key columns and the values that are left. -/
def tagKeyValues (schema : ReplicatedTableSchema) :
    List (ColumnSchema × ℕ) → List ColumnSchema → List Cell → EtlResult (List (ℕ × Cell))
  | [], _, [] => .ok []
  | [], _, _ :: _ =>
    bailWith .invalidState "BigQuery delete key image has leftover values"
      ("Table '" ++ displayName schema ++
        "' key image contained more values than its primary key")
  | (columnSchema, tag) :: columns, primaryKeyColumns, keyValues =>
    if primaryKeyColumns.head?.any (·.ordinalPosition = columnSchema.ordinalPosition) then
      match keyValues with
      | [] =>
        bailWith .invalidState "BigQuery delete key image shape is inconsistent"
          ("Table '" ++ displayName schema ++ "' key image ended before all primary key values")
      | value :: keyValues => do
        return (tag, value) :: (← tagKeyValues schema columns primaryKeyColumns.tail keyValues)
    else tagKeyValues schema columns primaryKeyColumns keyValues

/-- The primary key of an old row, with the tags of its fields. -/
def bigqueryPrimaryKeyTaggedCellsFromOldRow (schema : ReplicatedTableSchema) :
    OldTableRow → EtlResult (List (ℕ × Cell))
  | .full row =>
    if row.values.length ≠ schema.columnSchemas.length then fullRowMismatch schema row
    else
      .ok (((schema.columnSchemas.zip row.values).zipIdx 1).filterMap
        fun ((columnSchema, value), tag) =>
          if columnSchema.primaryKey then some (tag, value) else none)
  | .key row =>
    if !schema.identityMatchesPrimaryKey then keyImageMismatch schema
    else if row.values.length ≠ schema.primaryKeyColumnSchemas.length then
      keyCountMismatch schema row "BigQuery delete key image does not match the source primary key"
    else
      tagKeyValues schema (schema.columnSchemas.zipIdx 1) schema.primaryKeyColumnSchemas row.values

/-! ## Rows for copies and events -/

section Emission

-- Converts and checks a cell: array elements must not be null, numbers and dates must be in range.
variable (validateCell : ℕ → Cell → EtlResult Unit)

def validateValue (tag : ℕ) : RowValue → EtlResult Unit
  | .cell cell => validateCell tag cell
  | .operation _ | .sequence _ => .ok ()

/-- The row of tagged values, if all of them can be written. -/
def tryFromTaggedCells (taggedCells : List (ℕ × RowValue)) : EtlResult BigQueryTableRow :=
  taggedCells.mapM fun (tag, value) => do
    validateValue validateCell tag value
    return (tag, value)

/-- Values with the tags of consecutive fields. -/
def enumerated (values : List RowValue) : List (ℕ × RowValue) := (values.zipIdx 1).map Prod.swap

/-- The row for a copied row. -/
def bigqueryCopyRow (tableRow : TableRow) : EtlResult BigQueryTableRow :=
  tryFromTaggedCells validateCell
    (enumerated (tableRow.values.map .cell ++ [.operation .upsert]))

def bigqueryUpsertRow (tableRow : TableRow) (sequenceKey : ChangeSequenceNumber) :
    EtlResult BigQueryTableRow :=
  tryFromTaggedCells validateCell
    (enumerated (tableRow.values.map .cell ++ [.operation .upsert, .sequence sequenceKey]))

variable (schema : ReplicatedTableSchema)

def bigqueryDeleteRow (oldTableRow : OldTableRow) (sequenceKey : ChangeSequenceNumber) :
    EtlResult BigQueryTableRow := do
  let sourceColumnCount := schema.columnSchemas.length
  let taggedCells ← bigqueryPrimaryKeyTaggedCellsFromOldRow schema oldTableRow
  tryFromTaggedCells validateCell (taggedCells.map (Prod.map id .cell) ++
    [(sourceColumnCount + 1, .operation .delete), (sourceColumnCount + 2, .sequence sequenceKey)])

/-- The rows for an update: when it changed the primary key, a delete of the old key first. -/
def bigqueryUpdateRows (newTableRow : TableRow) (oldTableRow : Option OldTableRow)
    (sequenceKey : EventSequenceKey) : EtlResult (List BigQueryTableRow) := do
  let primaryKeyChanged ←
    match oldTableRow with
    | some oldTableRow => bigqueryPrimaryKeyChanged schema oldTableRow newTableRow
    | none => .ok false
  if primaryKeyChanged then
    match oldTableRow with
    | none =>
      bailWith .invalidState "BigQuery primary key change is missing old row"
        ("Table '" ++ displayName schema ++
          "' primary key change was detected without an old row image")
    | some oldTableRow => do
      let deleteRow ← bigqueryDeleteRow validateCell schema oldTableRow
        (bigquerySequenceKey sequenceKey bigquerySequenceOrdinalFirst)
      let upsertRow ← bigqueryUpsertRow validateCell newTableRow
        (bigquerySequenceKey sequenceKey bigquerySequenceOrdinalSecond)
      return [deleteRow, upsertRow]
  else
    let upsertRow ← bigqueryUpsertRow validateCell newTableRow
      (bigquerySequenceKey sequenceKey bigquerySequenceOrdinalFirst)
    return [upsertRow]

/-- The rows for an event. -/
def bigqueryEventRows (event : RowEvent) : EtlResult (List BigQueryTableRow) := do
  match event.image with
  | .insert tableRow =>
    let upsertRow ← bigqueryUpsertRow validateCell tableRow
      (bigquerySequenceKey event.eventSequenceKey bigquerySequenceOrdinalFirst)
    return [upsertRow]
  | .update updatedTableRow oldTableRow =>
    validateBigqueryReplicaIdentity schema
    match updatedTableRow with
    | .full tableRow =>
      bigqueryUpdateRows validateCell schema tableRow oldTableRow event.eventSequenceKey
    | .partialImage _ =>
      bailWith .invalidState "BigQuery update requires a full new row image"
        ("Table '" ++ displayName schema ++ "' emitted a partial update row. BigQuery CDC " ++
          "UPSERT does not preserve omitted columns.")
  | .delete oldTableRow =>
    validateBigqueryReplicaIdentity schema
    match oldTableRow with
    | none =>
      bailWith .invalidState "BigQuery delete requires an old row image"
        ("Table '" ++ displayName schema ++ "' emitted a delete without an old row image. " ++
          "BigQuery deletes are keyed by the source primary key and cannot be applied safely " ++
          "without it.")
    | some oldTableRow =>
      let deleteRow ← bigqueryDeleteRow validateCell schema oldTableRow
        (bigquerySequenceKey event.eventSequenceKey bigquerySequenceOrdinalFirst)
      return [deleteRow]

/-- The rows for the copy of a table and for the events that follow. -/
def bigqueryRows (copied : List TableRow) (events : List RowEvent) :
    EtlResult (List BigQueryTableRow) := do
  let copiedRows ← copied.mapM (bigqueryCopyRow validateCell)
  let eventRows ← events.mapM (bigqueryEventRows validateCell schema)
  return copiedRows ++ eventRows.flatten

end Emission

/-! ## Merging -/

/-- The value of a field. -/
def fieldAt (row : BigQueryTableRow) (tag : ℕ) : Option RowValue :=
  (KeyedTable.lookup Prod.fst row tag).map Prod.snd

/-- The cell of a column; a field that is not set is null. -/
def cellAt (row : BigQueryTableRow) (tag : ℕ) : Cell :=
  match fieldAt row tag with
  | some (.cell cell) => cell
  | _ => .null

/-- The sequence number in a field; a row without one comes before all others. -/
def sequenceAt (row : BigQueryTableRow) (tag : ℕ) : WithBot ChangeSequenceNumber :=
  match fieldAt row tag with
  | some (.sequence sequenceKey) => sequenceKey
  | _ => ⊥

/-- The fields of the primary-key columns, for columns whose fields start at a tag. -/
def primaryKeyTags (columns : List ColumnSchema) (start : ℕ) : List ℕ :=
  ((columns.zipIdx start).filter (·.1.primaryKey)).map Prod.snd

variable {κ : Type}

/-- What a change row says: the row under its primary key, or that there is none, as of a sequence
number. -/
def toWrite (comparison : KeyComparison κ) (schema : ReplicatedTableSchema)
    (row : BigQueryTableRow) : Write (List κ) (WithBot ChangeSequenceNumber) TableRow where
  key := ((primaryKeyTags schema.columnSchemas 1).map (cellAt row)).map comparison.identify
  version := sequenceAt row (schema.columnSchemas.length + 2)
  value :=
    match fieldAt row (schema.columnSchemas.length + 1) with
    | some (.operation .delete) => none
    | _ => some ⟨(List.range' 1 schema.columnSchemas.length).map (cellAt row)⟩

/-- The rows of the merged table. -/
def mergedRows [DecidableEq κ] (comparison : KeyComparison κ) (schema : ReplicatedTableSchema)
    (rows : List BigQueryTableRow) : List TableRow :=
  KeyedTable.visibleRows (rows.map (toWrite comparison schema))

/-! ## Reading back a row -/

section Fields

variable {columns : List ColumnSchema} {row old new : TableRow} {extra values : List RowValue}

theorem fieldAt_enumerated_from (start index : ℕ) :
    fieldAt ((values.zipIdx start).map Prod.swap) (start + index) = values[index]? := by
  induction values generalizing start index with
  | nil => rfl
  | cons value values ih =>
    rw [zipIdx_cons, map_cons, fieldAt, KeyedTable.lookup_cons]
    cases index with
    | zero => simp
    | succ index =>
      rw [Function.update_of_ne (by simp), List.getElem?_cons_succ, ← ih (start + 1) index,
        Nat.add_right_comm start 1 index]
      rfl

/-- The fields of a row hold its values in order. -/
theorem fieldAt_enumerated (index : ℕ) : fieldAt (enumerated values) (index + 1) = values[index]? := by
  rw [Nat.add_comm]
  exact fieldAt_enumerated_from 1 index

theorem cellAt_enumerated {index : ℕ} {cell : Cell} (hcell : row.values[index]? = some cell) :
    cellAt (enumerated (row.values.map .cell ++ extra)) (index + 1) = cell := by
  have hindex : index < row.values.length := (List.getElem?_eq_some_iff.mp hcell).1
  rw [cellAt, fieldAt_enumerated, List.getElem?_append_left (by simpa using hindex),
    List.getElem?_map, hcell]
  rfl

theorem map_primaryKeyTags {f : ℕ → Cell} {cells : List Cell} (start : ℕ)
    (hlength : cells.length = columns.length)
    (hf : ∀ index cell, cells[index]? = some cell → f (start + index) = cell) :
    (primaryKeyTags columns start).map f =
      ((columns.zip cells).filter (·.1.primaryKey)).map Prod.snd := by
  induction columns generalizing cells start with
  | nil => rfl
  | cons column columns ih =>
    cases cells with
    | nil => cases hlength
    | cons cell cells =>
      have hhead : f start = cell := hf 0 cell rfl
      have hrest : (primaryKeyTags columns (start + 1)).map f =
          ((columns.zip cells).filter (·.1.primaryKey)).map Prod.snd := by
        refine ih (start + 1) (Nat.succ.inj hlength) fun index other hother => ?_
        rw [Nat.add_right_comm]
        exact hf (index + 1) other hother
      rw [primaryKeyTags, map_map] at hrest
      rw [primaryKeyTags, map_map, zipIdx_cons, zip_cons_cons]
      cases hcolumn : column.primaryKey with
      | true =>
        simp [hcolumn, hhead, hrest]
      | false => simpa [hcolumn] using hrest

theorem map_cellAt_enumerated (row : TableRow) (extra : List RowValue) :
    (List.range' 1 row.values.length).map
      (cellAt (enumerated (row.values.map .cell ++ extra))) = row.values := by
  refine ext_getElem (by simp) fun index _ hindex => ?_
  rw [getElem_map, getElem_range', Nat.one_mul, Nat.add_comm]
  exact cellAt_enumerated (List.getElem?_eq_getElem hindex)

variable {schema : ReplicatedTableSchema} {κ : Type} {comparison : KeyComparison κ}

theorem toWrite_enumerated (hrow : schema.FitsRow row) (rest : List RowValue) :
    toWrite comparison schema
        (enumerated (row.values.map .cell ++ RowValue.operation .upsert :: rest)) =
      KeyedTable.put (comparison.key schema) (sequenceAt (enumerated
        (row.values.map .cell ++ RowValue.operation .upsert :: rest))
          (schema.columnSchemas.length + 2)) row := by
  have hkey : (primaryKeyTags schema.columnSchemas 1).map (cellAt (enumerated
      (row.values.map .cell ++ RowValue.operation .upsert :: rest))) =
        schema.primaryKeyValues row := by
    refine map_primaryKeyTags 1 hrow fun index cell hcell => ?_
    rw [Nat.add_comm]
    exact cellAt_enumerated hcell
  have hoperation : fieldAt (enumerated
      (row.values.map .cell ++ RowValue.operation .upsert :: rest)) (row.values.length + 1) =
        some (.operation .upsert) := by
    simp [fieldAt_enumerated]
  rw [toWrite, hkey, ← hrow.length_eq, map_cellAt_enumerated, hoperation]
  rfl

variable {validateCell : ℕ → Cell → EtlResult Unit} {change : BigQueryTableRow}

theorem eq_of_tryFromTaggedCells {taggedCells : List (ℕ × RowValue)}
    (hok : tryFromTaggedCells validateCell taggedCells = .ok change) : change = taggedCells := by
  rw [eq_map_of_mapM_eq_ok (g := id) (fun taggedCell _ written hwritten => ?_) hok, map_id]
  obtain ⟨-, -, hwritten⟩ := bind_eq_ok_iff.mp hwritten
  exact (Except.ok.inj hwritten).symm

theorem toWrite_bigqueryCopyRow (hrow : schema.FitsRow row)
    (hok : bigqueryCopyRow validateCell row = .ok change) :
    toWrite comparison schema change = KeyedTable.put (comparison.key schema) ⊥ row := by
  rw [eq_of_tryFromTaggedCells hok, toWrite_enumerated hrow, ← hrow.length_eq, sequenceAt,
    fieldAt_enumerated]
  simp

theorem toWrite_bigqueryUpsertRow {sequenceKey : ChangeSequenceNumber} (hrow : schema.FitsRow row)
    (hok : bigqueryUpsertRow validateCell row sequenceKey = .ok change) :
    toWrite comparison schema change = KeyedTable.put (comparison.key schema) ↑sequenceKey row := by
  rw [eq_of_tryFromTaggedCells hok, toWrite_enumerated hrow, ← hrow.length_eq, sequenceAt,
    fieldAt_enumerated]
  simp

end Fields

/-! ## Primary keys of old rows -/

section OldRows

variable {schema : ReplicatedTableSchema} {columns : List ColumnSchema} {old new : TableRow}
  {image : OldTableRow} {oldValues newValues : List Cell}

theorem primaryKeyTags_cons (column : ColumnSchema) (columns : List ColumnSchema) (start : ℕ) :
    primaryKeyTags (column :: columns) start =
      if column.primaryKey then start :: primaryKeyTags columns (start + 1)
      else primaryKeyTags columns (start + 1) := by
  rw [primaryKeyTags, zipIdx_cons, filter_cons]
  split <;> rfl

/-- The tagged key cells of a whole row. -/
theorem filterMap_primaryKey {cells : List Cell} (start : ℕ)
    (hlength : cells.length = columns.length) :
    ((columns.zip cells).zipIdx start).filterMap (fun ((columnSchema, value), tag) =>
        if columnSchema.primaryKey then some (tag, value) else none) =
      (primaryKeyTags columns start).zip
        (((columns.zip cells).filter (·.1.primaryKey)).map Prod.snd) := by
  induction columns generalizing cells start with
  | nil => rfl
  | cons column columns ih =>
    cases cells with
    | nil => cases hlength
    | cons cell cells =>
      rw [zip_cons_cons, zipIdx_cons, filterMap_cons, primaryKeyTags_cons,
        ih (start + 1) (Nat.succ.inj hlength)]
      cases hcolumn : column.primaryKey <;> simp [hcolumn]

/-- The tagged cells of a key image. The next primary-key column is the current one exactly when
that is in the primary key, since positions are distinct. -/
theorem tagKeyValues_eq_ok {keyValues : List Cell} (start : ℕ)
    (hpositions : (columns.map ColumnSchema.ordinalPosition).Nodup)
    (hlength : keyValues.length = (columns.filter ColumnSchema.primaryKey).length) :
    tagKeyValues schema (columns.zipIdx start) (columns.filter ColumnSchema.primaryKey)
      keyValues = .ok ((primaryKeyTags columns start).zip keyValues) := by
  induction columns generalizing keyValues start with
  | nil =>
    cases keyValues with
    | nil => rfl
    | cons _ _ => cases hlength
  | cons column columns ih =>
    obtain ⟨hcolumn, hpositions⟩ := nodup_cons.mp hpositions
    rw [zipIdx_cons, primaryKeyTags_cons]
    cases hprimaryKey : column.primaryKey with
    | true =>
      rw [filter_cons_of_pos hprimaryKey] at hlength ⊢
      cases keyValues with
      | nil => cases hlength
      | cons value keyValues =>
        have hrest := ih (start + 1) hpositions (Nat.succ.inj hlength)
        simp [tagKeyValues, hrest]
    | false =>
      have hnext : ((columns.filter ColumnSchema.primaryKey).head?.any
          (·.ordinalPosition = column.ordinalPosition)) = false := by
        rw [Option.any_eq_false]
        intro next hnext
        have hmem := mem_of_mem_filter (mem_of_mem_head? hnext)
        exact decide_eq_false fun heq => hcolumn (heq ▸ mem_map_of_mem hmem)
      rw [filter_cons_of_neg (by simp [hprimaryKey])] at hlength ⊢
      rw [tagKeyValues.eq_def]
      simp only [hnext]
      exact ih (start + 1) hpositions hlength

/-- From either image of an old row its primary key is read. -/
theorem bigqueryPrimaryKeyTaggedCellsFromOldRow_eq_ok (hschema : schema.Distinct)
    (hold : schema.FitsRow old) (himage : image.Shows schema old) :
    bigqueryPrimaryKeyTaggedCellsFromOldRow schema image =
      .ok ((primaryKeyTags schema.columnSchemas 1).zip (schema.primaryKeyValues old)) := by
  cases image with
  | full row =>
    obtain rfl : row = old := himage
    rw [bigqueryPrimaryKeyTaggedCellsFromOldRow, if_neg (not_not.mpr hold.length_eq),
      filterMap_primaryKey 1 hold]
    rfl
  | key row =>
    obtain ⟨hidentity, hvalues⟩ := himage
    have hlength := ReplicatedTableSchema.length_primaryKeyValues hold
    rw [bigqueryPrimaryKeyTaggedCellsFromOldRow, if_neg (by simp [hidentity]), hvalues,
      if_neg (not_not.mpr hlength), ReplicatedTableSchema.primaryKeyColumnSchemas_eq_filter]
    rw [ReplicatedTableSchema.primaryKeyColumnSchemas_eq_filter] at hlength
    exact tagKeyValues_eq_ok 1 hschema.positions hlength

/-- Some value differs from the one in the same place. -/
def differ (oldValues newValues : List Cell) : Bool :=
  (oldValues.zip newValues).any fun (oldValue, newValue) => !oldValue.eq newValue

theorem differ_cons (oldValue newValue : Cell) (oldValues newValues : List Cell) :
    differ (oldValue :: oldValues) (newValue :: newValues) =
      (!oldValue.eq newValue || differ oldValues newValues) := rfl

theorem keyValuesChanged_eq_ok (hlength : oldValues.length = newValues.length) :
    keyValuesChanged schema oldValues newValues = .ok (differ oldValues newValues) := by
  induction oldValues generalizing newValues with
  | nil => rfl
  | cons oldValue oldValues ih =>
    cases newValues with
    | nil => cases hlength
    | cons newValue newValues =>
      rw [keyValuesChanged, ih (Nat.succ.inj hlength), differ_cons]
      cases oldValue.eq newValue <;> rfl

theorem any_primaryKey_eq_differ (hold : oldValues.length = columns.length)
    (hnew : newValues.length = columns.length) :
    (((columns.zip oldValues).zip newValues).any fun ((columnSchema, oldValue), newValue) =>
        columnSchema.primaryKey && !oldValue.eq newValue) =
      differ (((columns.zip oldValues).filter (·.1.primaryKey)).map Prod.snd)
        (((columns.zip newValues).filter (·.1.primaryKey)).map Prod.snd) := by
  induction columns generalizing oldValues newValues with
  | nil => rfl
  | cons column columns ih =>
    cases oldValues with
    | nil => cases hold
    | cons oldValue oldValues =>
      cases newValues with
      | nil => cases hnew
      | cons newValue newValues =>
        rw [zip_cons_cons, zip_cons_cons, any_cons, ih (Nat.succ.inj hold) (Nat.succ.inj hnew)]
        cases hcolumn : column.primaryKey <;> simp [hcolumn, differ_cons]

/-- With either image of the old row the primary keys are compared. -/
theorem bigqueryPrimaryKeyChanged_eq_ok (hold : schema.FitsRow old) (hnew : schema.FitsRow new)
    (himage : image.Shows schema old) :
    bigqueryPrimaryKeyChanged schema image new =
      .ok (differ (schema.primaryKeyValues old) (schema.primaryKeyValues new)) := by
  rw [bigqueryPrimaryKeyChanged.eq_def, if_neg (not_not.mpr hnew.length_eq)]
  cases image with
  | full row =>
    obtain rfl : row = old := himage
    dsimp only
    rw [if_neg (not_not.mpr hold.length_eq), any_primaryKey_eq_differ hold hnew]
    rfl
  | key row =>
    obtain ⟨hidentity, hvalues⟩ := himage
    have hlength := ReplicatedTableSchema.length_primaryKeyValues hold
    dsimp only
    rw [if_neg (by simp [hidentity]), hvalues, if_neg (not_not.mpr hlength),
      keyValuesChanged_eq_ok]
    rw [hlength, ReplicatedTableSchema.length_primaryKeyValues hnew]

/-- Keys without a difference are equal. -/
theorem key_eq_of_differ_eq_false {κ : Type} {comparison : KeyComparison κ}
    (hold : schema.FitsRow old) (hnew : schema.FitsRow new)
    (hdiffer : differ (schema.primaryKeyValues old) (schema.primaryKeyValues new) = false) :
    comparison.key schema old = comparison.key schema new := by
  have hlength : (schema.primaryKeyValues old).length = (schema.primaryKeyValues new).length := by
    rw [ReplicatedTableSchema.length_primaryKeyValues hold,
      ReplicatedTableSchema.length_primaryKeyValues hnew]
  rw [KeyComparison.key, KeyComparison.key, ← forall₂_eq_eq_eq, forall₂_map_left_iff,
    forall₂_map_right_iff, forall₂_iff_zip]
  refine ⟨hlength, fun {a b} hmem => comparison.identify_of_eq a b ?_⟩
  simpa using any_eq_false.mp hdiffer (a, b) hmem

theorem fieldAt_of_mem {row : BigQueryTableRow} {tag : ℕ} {value : RowValue}
    (hnodup : (row.map Prod.fst).Nodup) (hmem : (tag, value) ∈ row) :
    fieldAt row tag = some value := by
  rw [fieldAt, (lookup_eq_some_iff hnodup).mpr ⟨hmem, rfl⟩]
  rfl

theorem primaryKeyTags_sublist (columns : List ColumnSchema) (start : ℕ) :
    (primaryKeyTags columns start).Sublist (List.range' start columns.length) := by
  rw [← zipIdx_map_snd start columns]
  exact filter_sublist.map Prod.snd

theorem length_primaryKeyTags (hold : schema.FitsRow old) :
    (primaryKeyTags schema.columnSchemas 1).length = (schema.primaryKeyValues old).length := by
  have hmap := map_primaryKeyTags (f := fun tag => old.values[tag - 1]?.getD .null) 1 hold
    (fun index cell hcell => by simp [hcell])
  rw [ReplicatedTableSchema.primaryKeyValues, ← hmap, length_map]

variable {κ : Type} {comparison : KeyComparison κ} {validateCell : ℕ → Cell → EtlResult Unit}

variable {change : BigQueryTableRow} {sequenceKey : ChangeSequenceNumber}

/-- A delete holds the primary key of the old row. -/
theorem eq_of_bigqueryDeleteRow (hschema : schema.Distinct) (hold : schema.FitsRow old)
    (himage : image.Shows schema old)
    (hok : bigqueryDeleteRow validateCell schema image sequenceKey = .ok change) :
    change = ((primaryKeyTags schema.columnSchemas 1).zip (schema.primaryKeyValues old)).map
        (Prod.map id .cell) ++
      [(schema.columnSchemas.length + 1, .operation .delete),
        (schema.columnSchemas.length + 2, .sequence sequenceKey)] := by
  rw [bigqueryDeleteRow, bigqueryPrimaryKeyTaggedCellsFromOldRow_eq_ok hschema hold himage] at hok
  exact eq_of_tryFromTaggedCells hok

theorem nodup_bigqueryDeleteRow (hschema : schema.Distinct) (hold : schema.FitsRow old)
    (himage : image.Shows schema old)
    (hok : bigqueryDeleteRow validateCell schema image sequenceKey = .ok change) :
    (change.map Prod.fst).Nodup := by
  have htags : change.map Prod.fst = primaryKeyTags schema.columnSchemas 1 ++
      List.range' (1 + schema.columnSchemas.length) 2 := by
    rw [eq_of_bigqueryDeleteRow hschema hold himage hok, map_append, map_map, Nat.add_comm 1]
    exact congrArg (· ++ _) (map_fst_zip (le_of_eq (length_primaryKeyTags hold)))
  have hsublist := (primaryKeyTags_sublist schema.columnSchemas 1).append_right
    (List.range' (1 + schema.columnSchemas.length) 2)
  rw [List.range'_append_1] at hsublist
  rw [htags]
  exact hsublist.nodup nodup_range'

theorem toWrite_bigqueryDeleteRow
    (hschema : schema.Distinct) (hold : schema.FitsRow old) (himage : image.Shows schema old)
    (hok : bigqueryDeleteRow validateCell schema image sequenceKey = .ok change) :
    toWrite comparison schema change =
      KeyedTable.remove (comparison.key schema) ↑sequenceKey old := by
  let tags := primaryKeyTags schema.columnSchemas 1
  let keyValues := schema.primaryKeyValues old
  have hchange : change = (tags.zip keyValues).map (Prod.map id .cell) ++
      [(schema.columnSchemas.length + 1, .operation .delete),
        (schema.columnSchemas.length + 2, .sequence sequenceKey)] :=
    eq_of_bigqueryDeleteRow hschema hold himage hok
  have hzip : (tags.zip keyValues).map Prod.fst = tags :=
    map_fst_zip (le_of_eq (length_primaryKeyTags hold))
  have hnodup := nodup_bigqueryDeleteRow hschema hold himage hok
  have hcell : ∀ tagged ∈ tags.zip keyValues, cellAt change tagged.1 = tagged.2 := by
    intro tagged htagged
    have hmem : (tagged.1, RowValue.cell tagged.2) ∈ change := by
      rw [hchange]
      exact mem_append_left _ (mem_map_of_mem htagged)
    rw [cellAt, fieldAt_of_mem hnodup hmem]
  have hkey : tags.map (cellAt change) = keyValues := by
    calc tags.map (cellAt change)
      _ = (tags.zip keyValues).map fun tagged => cellAt change tagged.1 := by
          rw [← hzip, map_map, hzip]
          rfl
      _ = (tags.zip keyValues).map Prod.snd := map_congr_left hcell
      _ = keyValues := map_snd_zip (le_of_eq (length_primaryKeyTags hold).symm)
  have hoperation : fieldAt change (schema.columnSchemas.length + 1) = some (.operation .delete) :=
    fieldAt_of_mem hnodup (by simp [hchange])
  have hsequence : fieldAt change (schema.columnSchemas.length + 2) = some (.sequence sequenceKey) :=
    fieldAt_of_mem hnodup (by simp [hchange])
  rw [toWrite, hkey, sequenceAt, hoperation, hsequence]
  rfl

end OldRows

/-! ## Events as writes -/

/-- The writes for a change: they make it, in order, under sequence numbers of its event. -/
structure Carries (comparison : KeyComparison κ) [DecidableEq κ] (schema : ReplicatedTableSchema)
    (change : RowChange TableRow) (sequenceKey : EventSequenceKey)
    (writes : List (Write (List κ) (WithBot ChangeSequenceNumber) TableRow)) : Prop where
  replicates : KeyedTable.Replicates (comparison.key schema) change writes
  ordered : writes.Pairwise fun v w => v.version < w.version
  versions : ∀ write ∈ writes, ∃ ordinal : ℕ,
    write.version = ↑(bigquerySequenceKey sequenceKey ordinal)

section Events

variable [DecidableEq κ] {comparison : KeyComparison κ} {schema : ReplicatedTableSchema}
  {validateCell : ℕ → Cell → EtlResult Unit} {old new : TableRow} {sequenceKey : EventSequenceKey}
  {rows : List BigQueryTableRow} {change : RowChange TableRow}

theorem Carries.singleton {ordinal : ℕ} {key : List κ} {value : Option TableRow}
    (hreplicates : KeyedTable.Replicates (comparison.key schema) change
      [(⟨key, ↑(bigquerySequenceKey sequenceKey ordinal), value⟩ :
        Write (List κ) (WithBot ChangeSequenceNumber) TableRow)]) :
    Carries comparison schema change sequenceKey
      [⟨key, ↑(bigquerySequenceKey sequenceKey ordinal), value⟩] where
  replicates := hreplicates
  ordered := pairwise_singleton _ _
  versions := forall_mem_singleton.mpr ⟨ordinal, rfl⟩

theorem bigquerySequenceKey_lt {ordinal next : ℕ} (hlt : ordinal < next) :
    bigquerySequenceKey sequenceKey ordinal < bigquerySequenceKey sequenceKey next :=
  Prod.Lex.toLex_lt_toLex.mpr (.inr ⟨rfl, Prod.Lex.toLex_lt_toLex.mpr (.inr ⟨rfl, hlt⟩)⟩)

theorem bigquerySequenceKey_lt_of_precedes {later : EventSequenceKey}
    (hprecedes : sequenceKey.Precedes later) (ordinal next : ℕ) :
    bigquerySequenceKey sequenceKey ordinal < bigquerySequenceKey later next := by
  refine Prod.Lex.toLex_lt_toLex.mpr ?_
  obtain hlt | ⟨heq, hlt⟩ := hprecedes
  · exact .inl hlt
  · exact .inr ⟨heq, Prod.Lex.toLex_lt_toLex.mpr (.inl hlt)⟩

theorem carries_upsert (hnew : schema.FitsRow new)
    (hkey : comparison.key schema old = comparison.key schema new)
    (hok : (do
      let upsertRow ← bigqueryUpsertRow validateCell new
        (bigquerySequenceKey sequenceKey bigquerySequenceOrdinalFirst)
      return [upsertRow]) = .ok rows) :
    Carries comparison schema (.update old new) sequenceKey
      (rows.map (toWrite comparison schema)) := by
  obtain ⟨upsertRow, hupsert, hrows⟩ := bind_eq_ok_iff.mp hok
  cases hrows
  rw [map_singleton, toWrite_bigqueryUpsertRow hnew hupsert]
  exact .singleton (replicates_update_of_key_eq _ hkey)

theorem bigqueryUpdateRows_carries {image : OldTableRow} (hschema : schema.Distinct)
    (hold : schema.FitsRow old) (hnew : schema.FitsRow new) (himage : image.Shows schema old)
    (hok : bigqueryUpdateRows validateCell schema new (some image) sequenceKey = .ok rows) :
    Carries comparison schema (.update old new) sequenceKey
      (rows.map (toWrite comparison schema)) := by
  rw [bigqueryUpdateRows, bigqueryPrimaryKeyChanged_eq_ok hold hnew himage] at hok
  cases hdiffer : differ (schema.primaryKeyValues old) (schema.primaryKeyValues new) with
  | false =>
    rw [hdiffer] at hok
    exact carries_upsert hnew (key_eq_of_differ_eq_false hold hnew hdiffer) hok
  | true =>
    simp only [hdiffer, ok_bind] at hok
    obtain ⟨deleteRow, hdelete, hok⟩ := bind_eq_ok_iff.mp hok
    obtain ⟨upsertRow, hupsert, hrows⟩ := bind_eq_ok_iff.mp hok
    cases hrows
    rw [map_cons, map_singleton, toWrite_bigqueryDeleteRow hschema hold himage hdelete,
      toWrite_bigqueryUpsertRow hnew hupsert]
    refine ⟨replicates_update _ _ old new, ?_, ?_⟩
    · refine pairwise_pair.mpr (WithBot.coe_lt_coe.mpr (bigquerySequenceKey_lt ?_))
      exact Nat.zero_lt_one
    · refine forall_mem_cons.mpr ⟨⟨_, rfl⟩, forall_mem_singleton.mpr ⟨_, rfl⟩⟩

theorem bigqueryEventRows_carries {event : RowEvent} (hschema : schema.Distinct)
    (hfits : ∀ row ∈ change.rows, schema.FitsRow row) (hreports : event.image.Reports schema change)
    (hok : bigqueryEventRows validateCell schema event = .ok rows) :
    Carries comparison schema change event.eventSequenceKey
      (rows.map (toWrite comparison schema)) := by
  obtain ⟨commitLsn, txOrdinal, image⟩ := event
  cases hreports with
  | insert new =>
    obtain ⟨upsertRow, hupsert, hrows⟩ := bind_eq_ok_iff.mp hok
    cases hrows
    rw [map_singleton, toWrite_bigqueryUpsertRow (hfits new mem_cons_self) hupsert]
    exact .singleton (replicates_insert _ new)
  | @update updated image old new hupdated himage =>
    obtain ⟨-, -, hok⟩ := bind_eq_ok_iff.mp hok
    cases updated with
    | partialImage row => cases hok
    | full row =>
      obtain rfl : row = new := hupdated
      exact bigqueryUpdateRows_carries hschema (hfits old (by simp [RowChange.rows]))
        (hfits row (by simp [RowChange.rows])) himage hok
  | @updateKeepingKey updated old new hupdated hkey =>
    obtain ⟨-, -, hok⟩ := bind_eq_ok_iff.mp hok
    cases updated with
    | partialImage row => cases hok
    | full row =>
      obtain rfl : row = new := hupdated
      exact carries_upsert (hfits row (by simp [RowChange.rows]))
        (congrArg (List.map comparison.identify) hkey) hok
  | @delete image old himage =>
    obtain ⟨-, -, hok⟩ := bind_eq_ok_iff.mp hok
    obtain ⟨deleteRow, hdelete, hrows⟩ := bind_eq_ok_iff.mp hok
    cases hrows
    rw [map_singleton, toWrite_bigqueryDeleteRow hschema (hfits old mem_cons_self)
      himage hdelete]
    exact .singleton (replicates_delete _ old)

end Events

/-! ## Rows that can be written -/

section Writable

variable {schema : ReplicatedTableSchema} {validateCell : ℕ → Cell → EtlResult Unit}
  {row old new : TableRow} {image : OldTableRow}

def ValidRow (validateCell : ℕ → Cell → EtlResult Unit) (row : TableRow) : Prop :=
  ∀ cell ∈ row.values, ∀ tag, validateCell tag cell = .ok ()

theorem exists_tryFromTaggedCells {taggedCells : List (ℕ × RowValue)}
    (hvalid : ∀ tag cell, (tag, RowValue.cell cell) ∈ taggedCells → validateCell tag cell = .ok ()) :
    ∃ change, tryFromTaggedCells validateCell taggedCells = .ok change := by
  refine exists_mapM_eq_ok_iff.mpr fun ⟨tag, value⟩ hmem => ⟨(tag, value), ?_⟩
  cases value with
  | cell cell =>
    refine bind_eq_ok_iff.mpr ⟨(), ?_, rfl⟩
    exact hvalid tag cell hmem
  | operation operation => rfl
  | sequence sequenceKey => rfl

theorem mem_of_mem_enumerated {values : List RowValue} {tag : ℕ} {value : RowValue}
    (hmem : (tag, value) ∈ enumerated values) : value ∈ values := by
  obtain ⟨indexed, hindexed, heq⟩ := mem_map.mp hmem
  obtain rfl : indexed.1 = value := (Prod.ext_iff.mp heq).2
  exact fst_mem_of_mem_zipIdx hindexed

theorem exists_bigqueryCopyRow (hrow : ValidRow validateCell row) :
    ∃ change, bigqueryCopyRow validateCell row = .ok change := by
  refine exists_tryFromTaggedCells fun tag cell hmem => hrow cell ?_ tag
  simpa using mem_of_mem_enumerated hmem

theorem exists_bigqueryUpsertRow (hrow : ValidRow validateCell row)
    (sequenceKey : ChangeSequenceNumber) :
    ∃ change, bigqueryUpsertRow validateCell row sequenceKey = .ok change := by
  refine exists_tryFromTaggedCells fun tag cell hmem => hrow cell ?_ tag
  simpa using mem_of_mem_enumerated hmem

theorem exists_bigqueryDeleteRow (hschema : schema.Distinct) (hold : schema.FitsRow old)
    (himage : image.Shows schema old) (hvalid : ValidRow validateCell old)
    (sequenceKey : ChangeSequenceNumber) :
    ∃ change, bigqueryDeleteRow validateCell schema image sequenceKey = .ok change := by
  rw [bigqueryDeleteRow, bigqueryPrimaryKeyTaggedCellsFromOldRow_eq_ok hschema hold himage]
  refine exists_tryFromTaggedCells fun tag cell hmem => hvalid cell ?_ tag
  obtain hmem | hmem := mem_append.mp hmem
  · obtain ⟨tagged, htagged, heq⟩ := mem_map.mp hmem
    obtain rfl := RowValue.cell.inj (Prod.ext_iff.mp heq).2
    exact ReplicatedTableSchema.mem_of_mem_primaryKeyValues (of_mem_zip htagged).2
  · simp at hmem

theorem exists_bigqueryUpdateRows (hschema : schema.Distinct) (hold : schema.FitsRow old)
    (hnew : schema.FitsRow new) (himage : image.Shows schema old)
    (holdValid : ValidRow validateCell old) (hnewValid : ValidRow validateCell new)
    (sequenceKey : EventSequenceKey) :
    ∃ rows, bigqueryUpdateRows validateCell schema new (some image) sequenceKey = .ok rows := by
  rw [bigqueryUpdateRows, bigqueryPrimaryKeyChanged_eq_ok hold hnew himage, ok_bind]
  dsimp only
  split_ifs
  · obtain ⟨deleteRow, hdelete⟩ := exists_bigqueryDeleteRow hschema hold himage holdValid
      (bigquerySequenceKey sequenceKey bigquerySequenceOrdinalFirst)
    obtain ⟨upsertRow, hupsert⟩ := exists_bigqueryUpsertRow hnewValid
      (bigquerySequenceKey sequenceKey bigquerySequenceOrdinalSecond)
    rw [hdelete, hupsert]
    exact ⟨_, rfl⟩
  · obtain ⟨upsertRow, hupsert⟩ := exists_bigqueryUpsertRow hnewValid
      (bigquerySequenceKey sequenceKey bigquerySequenceOrdinalFirst)
    rw [hupsert]
    exact ⟨_, rfl⟩

/-- An event with whole rows, whose cells can be written, is. -/
theorem exists_bigqueryEventRows {change : RowChange TableRow} {event : RowEvent}
    (hschema : schema.Distinct) (haccepted : validateBigqueryReplicaIdentity schema = .ok ())
    (hfits : ∀ row ∈ change.rows, schema.FitsRow row)
    (hvalid : ∀ row ∈ change.rows, ValidRow validateCell row)
    (hcomplete : ∀ partialRow image, event.image ≠ .update (.partialImage partialRow) image)
    (hreports : event.image.Reports schema change) :
    ∃ rows, bigqueryEventRows validateCell schema event = .ok rows := by
  obtain ⟨commitLsn, txOrdinal, image⟩ := event
  cases hreports with
  | insert new =>
    obtain ⟨upsertRow, hupsert⟩ := exists_bigqueryUpsertRow (hvalid new mem_cons_self)
      (bigquerySequenceKey ⟨commitLsn, txOrdinal⟩ bigquerySequenceOrdinalFirst)
    exact ⟨[upsertRow], bind_eq_ok_iff.mpr ⟨_, hupsert, rfl⟩⟩
  | @update updated image old new hupdated himage =>
    cases updated with
    | partialImage row => exact absurd rfl (hcomplete row _)
    | full row =>
      obtain rfl : row = new := hupdated
      obtain ⟨rows, hrows⟩ := exists_bigqueryUpdateRows hschema
        (hfits old (by simp [RowChange.rows])) (hfits row (by simp [RowChange.rows])) himage
        (hvalid old (by simp [RowChange.rows])) (hvalid row (by simp [RowChange.rows]))
        ⟨commitLsn, txOrdinal⟩
      exact ⟨rows, bind_eq_ok_iff.mpr ⟨(), haccepted, hrows⟩⟩
  | @updateKeepingKey updated old new hupdated hkey =>
    cases updated with
    | partialImage row => exact absurd rfl (hcomplete row _)
    | full row =>
      obtain rfl : row = new := hupdated
      obtain ⟨upsertRow, hupsert⟩ := exists_bigqueryUpsertRow
        (hvalid row (by simp [RowChange.rows]))
        (bigquerySequenceKey ⟨commitLsn, txOrdinal⟩ bigquerySequenceOrdinalFirst)
      have hrows : bigqueryUpdateRows validateCell schema row none ⟨commitLsn, txOrdinal⟩ =
          .ok [upsertRow] :=
        bind_eq_ok_iff.mpr ⟨false, rfl, bind_eq_ok_iff.mpr ⟨_, hupsert, rfl⟩⟩
      exact ⟨[upsertRow], bind_eq_ok_iff.mpr ⟨(), haccepted, hrows⟩⟩
  | @delete image old himage =>
    obtain ⟨deleteRow, hdelete⟩ := exists_bigqueryDeleteRow hschema
      (hfits old mem_cons_self) himage (hvalid old mem_cons_self)
      (bigquerySequenceKey ⟨commitLsn, txOrdinal⟩ bigquerySequenceOrdinalFirst)
    exact ⟨[deleteRow],
      bind_eq_ok_iff.mpr ⟨(), haccepted, bind_eq_ok_iff.mpr ⟨_, hdelete, rfl⟩⟩⟩

end Writable

/-! ## Histories -/

section Histories

variable {schema : ReplicatedTableSchema} {comparison : KeyComparison κ}
  {validateCell : ℕ → Cell → EtlResult Unit}

/-- The events carry whole new rows, and every cell of the history can be written. -/
structure Writable (validateCell : ℕ → Cell → EtlResult Unit)
    (history : TableHistory schema (comparison.key schema)) : Prop where
  complete : history.Complete
  valid : ∀ row ∈ history.copied ++ history.reports.flatMap (·.1.rows), ValidRow validateCell row

theorem exists_bigqueryRows {history : TableHistory schema (comparison.key schema)} {again : List RowEvent}
    (hschema : schema.Distinct) (haccepted : validateBigqueryReplicaIdentity schema = .ok ())
    (hagain : again ⊆ history.events) (hwritable : Writable validateCell history) :
    ∃ rows, bigqueryRows validateCell schema history.copied (history.events ++ again) =
      .ok rows := by
  have hcopied : ∀ row ∈ history.copied, ∃ change, bigqueryCopyRow validateCell row = .ok change :=
    fun row hrow => exists_bigqueryCopyRow (hwritable.valid row (mem_append_left _ hrow))
  have hevents : ∀ event ∈ history.events ++ again,
      ∃ rows, bigqueryEventRows validateCell schema event = .ok rows := by
    intro event hevent
    have hevent : event ∈ history.events := (mem_append.mp hevent).elim id (hagain ·)
    obtain ⟨report, hreport, rfl⟩ := mem_map.mp hevent
    exact exists_bigqueryEventRows hschema haccepted
      (fun row hrow => history.fits row (TableHistory.mem_rows hreport hrow))
      (fun row hrow => hwritable.valid row (TableHistory.mem_rows hreport hrow))
      (hwritable.complete _ hevent) (history.reported report hreport)
  obtain ⟨copiedRows, hcopied⟩ := exists_mapM_eq_ok_iff.mpr hcopied
  obtain ⟨eventRows, hevents⟩ := exists_mapM_eq_ok_iff.mpr hevents
  rw [bigqueryRows, hcopied, hevents]
  exact ⟨_, rfl⟩

def writtenRows (validateCell : ℕ → Cell → EtlResult Unit) (schema : ReplicatedTableSchema)
    (event : RowEvent) : List BigQueryTableRow :=
  (bigqueryEventRows validateCell schema event).toOption.getD []

theorem map_toWrite_bigqueryRows (comparison : KeyComparison κ) {copied : List TableRow}
    {events : List RowEvent} {rows : List BigQueryTableRow} (hfits : ∀ row ∈ copied, schema.FitsRow row)
    (hok : bigqueryRows validateCell schema copied events = .ok rows) :
    (∀ event ∈ events, bigqueryEventRows validateCell schema event =
        .ok (writtenRows validateCell schema event)) ∧
      rows.map (toWrite comparison schema) =
        copied.map (KeyedTable.put (comparison.key schema) ⊥) ++ events.flatMap fun event =>
          (writtenRows validateCell schema event).map (toWrite comparison schema) := by
  obtain ⟨copiedRows, hcopied, hok⟩ := bind_eq_ok_iff.mp hok
  obtain ⟨eventRows, hevents, hrows⟩ := bind_eq_ok_iff.mp hok
  cases hrows
  have hwritten : ∀ event ∈ events, bigqueryEventRows validateCell schema event =
      .ok (writtenRows validateCell schema event) := by
    intro event hevent
    obtain ⟨written, hwritten⟩ := exists_mapM_eq_ok_iff.mp ⟨_, hevents⟩ event hevent
    rw [writtenRows, hwritten]
    rfl
  refine ⟨hwritten, ?_⟩
  have hcopiedWrites : copiedRows.map (toWrite comparison schema) =
      copied.map (put (comparison.key schema) ⊥) :=
    map_eq_map_of_mapM_eq_ok (fun row hrow _ => toWrite_bigqueryCopyRow (hfits row hrow)) hcopied
  have heventRows : eventRows = events.map (writtenRows validateCell schema) := by
    refine eq_map_of_mapM_eq_ok (fun event hevent written hok => ?_) hevents
    exact Except.ok.inj (hok.symm.trans (hwritten event hevent))
  rw [map_append, hcopiedWrites, heventRows, ← flatMap_def, map_flatMap]

variable [DecidableEq κ]

/-- When every step takes a free key, the merged rows are those of the source, also after any of
the events are delivered again. The rows for a history whose cells can be written exist. -/
theorem mergedRows_perm_final (validateCell : ℕ → Cell → EtlResult Unit)
    (hschema : schema.Distinct)
    (haccepted : validateBigqueryReplicaIdentity schema = .ok ())
    (history : TableHistory schema (comparison.key schema)) (hfree : history.TakesFreeKeys)
    {again : List RowEvent} (hagain : again ⊆ history.events) :
    (Writable validateCell history →
        ∃ rows, bigqueryRows validateCell schema history.copied (history.events ++ again) =
          .ok rows) ∧
      ∀ rows, bigqueryRows validateCell schema history.copied (history.events ++ again) =
          .ok rows → (mergedRows comparison schema rows).Perm history.final := by
  refine ⟨exists_bigqueryRows hschema haccepted hagain, fun rows hok => ?_⟩
  obtain ⟨hwritten, hrows⟩ := map_toWrite_bigqueryRows comparison
    (fun row hrow => TableHistory.fits_copied hrow) hok
  let writes (event : RowEvent) := (writtenRows validateCell schema event).map
    (toWrite comparison schema)
  have hcarries : ∀ report ∈ history.reports,
      Carries comparison schema report.1 report.2.eventSequenceKey (writes report.2) := by
    intro report hreport
    exact bigqueryEventRows_carries hschema
      (fun row hrow => history.fits row (TableHistory.mem_rows hreport hrow))
      (history.reported report hreport)
      (hwritten report.2 (mem_append_left _ (mem_map_of_mem hreport)))
  have hversion : ∀ report ∈ history.reports, ∀ write ∈ writes report.2, ∃ ordinal : ℕ,
      write.version = ↑(bigquerySequenceKey report.2.eventSequenceKey ordinal) :=
    fun report hreport => (hcarries report hreport).versions
  have hevents : history.events.flatMap writes = history.reports.flatMap (writes ·.2) := by
    rw [TableHistory.events, flatMap_map]
  rw [mergedRows, hrows, flatMap_append, hevents, ← append_assoc]
  refine perm_visibleRows_of_evolves (fun report hreport =>
    (hcarries report hreport).replicates) ?_ ?_ ?_ history.copiedKeys hfree
  · intro write hwrite
    obtain ⟨report, hreport, hwrite⟩ := mem_flatMap.mp hwrite
    obtain ⟨ordinal, hordinal⟩ := hversion report hreport write hwrite
    rw [hordinal]
    exact WithBot.bot_lt_coe _
  · refine pairwise_flatMap.mpr ⟨fun report hreport => (hcarries report hreport).ordered, ?_⟩
    refine history.ordered.imp_of_mem fun hv hw hprecedes v hvmem w hwmem => ?_
    obtain ⟨ordinal, hordinal⟩ := hversion _ hv v hvmem
    obtain ⟨next, hnext⟩ := hversion _ hw w hwmem
    rw [hordinal, hnext]
    exact WithBot.coe_lt_coe.mpr (bigquerySequenceKey_lt_of_precedes hprecedes ordinal next)
  · rw [← hevents]
    intro write hwrite
    obtain ⟨event, hevent, hwrite⟩ := mem_flatMap.mp hwrite
    exact mem_flatMap.mpr ⟨event, hagain hevent, hwrite⟩

end Histories

/-! ## Two rows that swap their keys -/

/-- A table of accounts, whose old rows are reported whole. -/
def accountsSchema : ReplicatedTableSchema where
  tableSchema := ⟨2, ⟨"public", "accounts"⟩,
    [⟨"id", .int4, -1, 1, some 1, false⟩, ⟨"owner", .text, -1, 2, none, true⟩], 0⟩
  replicationMask := [true, true]
  identityMask := [true, true]

theorem accountsSchema_distinct : accountsSchema.Distinct := ⟨by decide, by decide⟩

def account (id : Int32) (owner : String) : TableRow := ⟨[.i32 id, .string owner]⟩

/-- An update in one transaction, with the event that reports it. -/
def accountUpdate (txOrdinal : ℕ) (old new : TableRow) : RowChange TableRow × RowEvent :=
  (.update old new, ⟨8, txOrdinal, .update (.full new) (some (.full old))⟩)

theorem accountUpdate_reports (txOrdinal : ℕ) (old new : TableRow) :
    (accountUpdate txOrdinal old new).2.image.Reports accountsSchema
      (accountUpdate txOrdinal old new).1 := .update rfl rfl

/-- Two rows swap their keys through a third one. -/
def swapThroughFreeKey : TableHistory accountsSchema (KeyComparison.byValue.key accountsSchema) where
  copied := [account 1 "a", account 2 "b"]
  reports := [accountUpdate 0 (account 1 "a") (account 3 "a"),
    accountUpdate 1 (account 2 "b") (account 1 "b"), accountUpdate 2 (account 3 "a") (account 2 "a")]
  final := [account 2 "a", account 1 "b"]
  fits := by decide
  copiedKeys := by decide
  finalKeys := by decide
  evolves := .cons trivial rfl (.cons trivial rfl (.cons trivial rfl (.nil _)))
  reported := by simp [accountUpdate_reports]
  commitLsns := by decide
  txOrdinals := by decide
  ordered := by decide

/-- Two rows of a table whose primary key is checked at commit swap their keys directly. -/
def swapDirectly : TableHistory accountsSchema (KeyComparison.byValue.key accountsSchema) where
  copied := [account 1 "a", account 2 "b"]
  reports := [accountUpdate 0 (account 1 "a") (account 2 "a"),
    accountUpdate 1 (account 2 "b") (account 1 "b")]
  final := [account 1 "b", account 2 "a"]
  fits := by decide
  copiedKeys := by decide
  finalKeys := by decide
  evolves := .cons trivial rfl (.cons trivial rfl (.nil _))
  reported := by simp [accountUpdate_reports]
  commitLsns := by decide
  txOrdinals := by decide
  ordered := by decide

/-- The swap through a free key is replicated, with its last event delivered again. -/
theorem mergedRows_swapThroughFreeKey :
    ∃ rows, bigqueryRows (fun _ _ => .ok ()) accountsSchema swapThroughFreeKey.copied
        (swapThroughFreeKey.events ++ swapThroughFreeKey.events.drop 2) = .ok rows ∧
      (mergedRows .byValue accountsSchema rows).Perm swapThroughFreeKey.final := by
  have hfree : swapThroughFreeKey.TakesFreeKeys :=
    .cons (by decide) rfl (.cons (by decide) rfl (.cons (by decide) rfl (.nil _)))
  obtain ⟨hexists, hmerged⟩ := mergedRows_perm_final (fun _ _ => .ok ()) accountsSchema_distinct rfl
    swapThroughFreeKey hfree (drop_subset 2 _)
  have hcomplete : swapThroughFreeKey.Complete := by
    simp [TableHistory.Complete, TableHistory.events, swapThroughFreeKey, accountUpdate]
  obtain ⟨rows, hrows⟩ := hexists ⟨hcomplete, fun _ _ _ _ _ => rfl⟩
  exact ⟨rows, hrows, hmerged rows hrows⟩

/-- After a direct swap one of the two rows is missing: the delete for the second update comes after
the upsert of the first. -/
theorem mergedRows_swap_loses_row :
    validateBigqueryReplicaIdentity accountsSchema = .ok () ∧
      ∃ rows, bigqueryRows (fun _ _ => .ok ()) accountsSchema swapDirectly.copied
          swapDirectly.events = .ok rows ∧
        mergedRows .byValue accountsSchema rows = [account 1 "b"] ∧
          ¬(mergedRows .byValue accountsSchema rows).Perm swapDirectly.final :=
  ⟨rfl, _, rfl, by decide, by decide⟩

end Etl.BigQuery
