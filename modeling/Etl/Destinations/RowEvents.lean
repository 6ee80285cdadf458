import Etl.Common.KeyedTable
import Etl.Types.Cell
import Etl.Types.SchemaDiff
import Mathlib.Algebra.Order.Ring.Nat

/-! # Row events and the history of a table

The row images that replication events carry, and what they say about the changes of a source
table. A history starts from the copied rows; each of its changes is reported by one event. Old rows
come whole or as their primary key; an update that keeps the key may come without one.
-/

namespace Etl

open List

/-- The old row of an update or a delete: whole, or its identity columns in column order. -/
inductive OldTableRow where
  | full (row : TableRow)
  | key (row : TableRow)
  deriving DecidableEq

/-- A row some of whose values could not be reconstructed: the others in column order, and the
indexes of the missing ones. -/
structure PartialTableRow where
  totalColumns : ℕ
  tableRow : TableRow
  missingColumnIndexes : List ℕ
  deriving DecidableEq

/-- The new row of an update. -/
inductive UpdatedTableRow where
  | full (row : TableRow)
  | partialImage (row : PartialTableRow)
  deriving DecidableEq

/-- The rows an event carries. -/
inductive RowImage where
  | insert (tableRow : TableRow)
  | update (updatedTableRow : UpdatedTableRow) (oldTableRow : Option OldTableRow)
  | delete (oldTableRow : Option OldTableRow)
  deriving DecidableEq

structure RowEvent where
  commitLsn : PgLsn
  txOrdinal : ℕ
  image : RowImage
  deriving DecidableEq

def RowEvent.eventSequenceKey (event : RowEvent) : EventSequenceKey :=
  ⟨event.commitLsn, event.txOrdinal⟩

/-- The order of events: by transaction, and in it by ordinal. -/
def EventSequenceKey.Precedes (a b : EventSequenceKey) : Prop :=
  a.commitLsn < b.commitLsn ∨ a.commitLsn = b.commitLsn ∧ a.txOrdinal < b.txOrdinal

instance (a b : EventSequenceKey) : Decidable (a.Precedes b) :=
  inferInstanceAs (Decidable (_ ∨ _))

namespace ReplicatedTableSchema

variable (schema : ReplicatedTableSchema)

def primaryKeyValues (row : TableRow) : List Cell :=
  ((schema.columnSchemas.zip row.values).filter (·.1.primaryKey)).map Prod.snd

def FitsRow (row : TableRow) : Prop := row.values.length = schema.columnSchemas.length

instance (row : TableRow) : Decidable (schema.FitsRow row) := inferInstanceAs (Decidable (_ = _))

variable {schema} {row : TableRow}

theorem FitsRow.length_eq (hrow : schema.FitsRow row) :
    row.values.length = schema.columnSchemas.length := hrow

theorem primaryKeyColumnSchemas_eq_filter :
    schema.primaryKeyColumnSchemas = schema.columnSchemas.filter ColumnSchema.primaryKey := by
  rw [primaryKeyColumnSchemas, columnSchemas, filter_filterMap]
  congr 1
  funext column
  cases hreplicated : column.2 <;> simp [Option.filter, hreplicated]

theorem mem_of_mem_primaryKeyValues {cell : Cell} (hcell : cell ∈ schema.primaryKeyValues row) :
    cell ∈ row.values := by
  obtain ⟨⟨column, value⟩, hcolumn, rfl⟩ := mem_map.mp hcell
  exact (of_mem_zip (mem_of_mem_filter hcolumn)).2

theorem FitsRow.map_fst_zip (hrow : schema.FitsRow row) :
    (schema.columnSchemas.zip row.values).map Prod.fst = schema.columnSchemas :=
  List.map_fst_zip (le_of_eq hrow.length_eq.symm)

theorem length_primaryKeyValues (hrow : schema.FitsRow row) :
    (schema.primaryKeyValues row).length = schema.primaryKeyColumnSchemas.length := by
  calc (schema.primaryKeyValues row).length
    _ = ((schema.columnSchemas.zip row.values).filter (·.1.primaryKey)).length := by
        rw [primaryKeyValues, length_map]
    _ = (((schema.columnSchemas.zip row.values).map Prod.fst).filter
          ColumnSchema.primaryKey).length := by
        rw [filter_map, length_map]
        rfl
    _ = schema.primaryKeyColumnSchemas.length := by
        rw [hrow.map_fst_zip, primaryKeyColumnSchemas_eq_filter]

end ReplicatedTableSchema

/-! ## What events report -/

/-- The image shows the old row of a change; only its primary key when that is the identity. -/
def OldTableRow.Shows (schema : ReplicatedTableSchema) (old : TableRow) : OldTableRow → Prop
  | full row => row = old
  | key row =>
    schema.identityMatchesPrimaryKey = true ∧ row.values = schema.primaryKeyValues old

/-- The image shows the new row of a change, or the values of it that are present. -/
def UpdatedTableRow.Shows (new : TableRow) : UpdatedTableRow → Prop
  | full row => row = new
  | partialImage row =>
    row.totalColumns = new.values.length ∧ row.tableRow.values =
      (new.values.zipIdx.filter (·.2 ∉ row.missingColumnIndexes)).map Prod.fst

/-- The image reports the change. Only an update that keeps the primary key may leave out the old
row. -/
inductive RowImage.Reports (schema : ReplicatedTableSchema) : RowImage → RowChange TableRow → Prop
  | insert (new : TableRow) : Reports schema (.insert new) (.insert new)
  | update {updated : UpdatedTableRow} {image : OldTableRow} {old new : TableRow} :
      updated.Shows new → image.Shows schema old →
        Reports schema (.update updated (some image)) (.update old new)
  | updateKeepingKey {updated : UpdatedTableRow} {old new : TableRow} :
      updated.Shows new → schema.primaryKeyValues old = schema.primaryKeyValues new →
        Reports schema (.update updated none) (.update old new)
  | delete {image : OldTableRow} {old : TableRow} :
      image.Shows schema old → Reports schema (.delete (some image)) (.delete old)

/-- How the cells of primary keys are compared, by the source and by the destination alike. Cells
that the pipeline takes for equal are. -/
structure KeyComparison (κ : Type) where
  identify : Cell → κ
  identify_of_eq : ∀ a b, a.eq b = true → identify a = identify b

/-- Comparison by value. -/
def KeyComparison.byValue : KeyComparison Cell where
  identify := Cell.unsignedZeros
  identify_of_eq := by
    intro a b h
    simp only [Cell.eq, Bool.and_eq_true, decide_eq_true_eq] at h
    exact h.2

variable {κ : Type}

def KeyComparison.key (comparison : KeyComparison κ) (schema : ReplicatedTableSchema)
    (row : TableRow) : List κ :=
  (schema.primaryKeyValues row).map comparison.identify

/-- A history of a table whose rows have keys: the copied rows, the changes with the events that
report them, and the rows at the end. Keys are distinct at both ends; in between, rows of a table
whose primary key is checked at commit may share one. -/
structure TableHistory (schema : ReplicatedTableSchema) (key : TableRow → κ) where
  copied : List TableRow
  reports : List (RowChange TableRow × RowEvent)
  final : List TableRow
  fits : ∀ row ∈ copied ++ reports.flatMap (·.1.rows), schema.FitsRow row
  copiedKeys : (copied.map key).Nodup
  finalKeys : (final.map key).Nodup
  evolves : KeyedTable.Evolves (fun _ _ => True) copied (reports.map Prod.fst) final
  reported : ∀ report ∈ reports, report.2.image.Reports schema report.1
  commitLsns : ∀ report ∈ reports, 0 < report.2.commitLsn ∧ report.2.commitLsn < 2 ^ 64
  txOrdinals : ∀ report ∈ reports, report.2.txOrdinal < 2 ^ 64
  ordered : reports.Pairwise fun a b => a.2.eventSequenceKey.Precedes b.2.eventSequenceKey

namespace TableHistory

variable {schema : ReplicatedTableSchema} {key : TableRow → κ} (history : TableHistory schema key)

def events : List RowEvent := history.reports.map Prod.snd

/-- Every row that a step adds takes a key that no other row holds at that step. -/
def TakesFreeKeys : Prop :=
  KeyedTable.Evolves (fun table change => change.TakesFreeKey key table) history.copied
    (history.reports.map Prod.fst) history.final

/-- The events carry whole new rows. -/
def Complete : Prop :=
  ∀ event ∈ history.events, ∀ partialRow image,
    event.image ≠ .update (.partialImage partialRow) image

variable {history} {row : TableRow}

theorem fits_copied (hrow : row ∈ history.copied) : schema.FitsRow row :=
  history.fits row (mem_append_left _ hrow)

theorem mem_rows {report : RowChange TableRow × RowEvent} (hreport : report ∈ history.reports)
    (hrow : row ∈ report.1.rows) :
    row ∈ history.copied ++ history.reports.flatMap (·.1.rows) :=
  mem_append_right _ (mem_flatMap.mpr ⟨report, hreport, hrow⟩)

end TableHistory

end Etl
