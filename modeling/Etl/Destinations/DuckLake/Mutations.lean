import Etl.Destinations.DuckLake.Schema
import Etl.Destinations.RowEvents

/-! # Mutations of DuckLake tables

Reference: `etl-destinations/src/ducklake/batches.rs` (`prepare_table_mutations`,
`delete_predicate_from_row`, `update_assignments_from_partial_row`, `apply_table_mutation`).

Row mutations become statements: neighbouring inserts share one staged insert, neighbouring deletes
share `DELETE` statements, and an update is a delete and an insert, or an `UPDATE` when its new row
is incomplete. Grouping keeps the order: what the statements of a list of mutations do to a table is
what its mutations do one after the other (`applyTableMutations_eq_ok_iff`).

A `WHERE` clause is kept as the values it asks for, a `SET` clause as the values it
assigns. What only metrics read is left out.
-/

namespace Etl.DuckLake

open List

/-- Event-level table mutations that must be applied in order. -/
inductive TableMutation where
  | insert (row : TableRow)
  | delete (row : OldTableRow)
  | update (deleteRow : OldTableRow) (newRow : UpdatedTableRow)
  | replace (row : TableRow)
  deriving DecidableEq

/-- A conjunction of equalities between columns and values. -/
abbrev Predicate : Type := List (String × Cell)

abbrev Assignments : Type := List (String × Cell)

/-- Prepared table mutations ready for execution and retries. -/
inductive PreparedTableMutation where
  | upsert (preparedRows : PreparedRows)
  | delete (predicates : List Predicate)
  | update (assignments : Assignments) (predicate : Predicate)

/-! ## Predicates and assignments -/

section Predicates

variable (schema : ReplicatedTableSchema)

/-- Stops at a table without replica identity. -/
def missingReplicaIdentity {α : Type} (description : String) : EtlResult α :=
  bailWith .invalidState description
    ("Table '" ++ schema.tableSchema.name.display ++
      "' has no replicated replica-identity columns")

/-- The values of the identity columns: walks the columns along with the identity columns that are
left. -/
def identityValues : List (ColumnSchema × Cell) → List ColumnSchema → List (ColumnSchema × Cell)
  | [], _ => []
  | _ :: _, [] => []
  | (columnSchema, value) :: columns, identityColumn :: identityColumns =>
    if identityColumn.ordinalPosition = columnSchema.ordinalPosition then
      (identityColumn, value) :: identityValues columns identityColumns
    else identityValues columns (identityColumn :: identityColumns)

/-- The `WHERE` clause that finds a row by its replica identity. -/
def deletePredicateFromRow (row : OldTableRow) : EtlResult Predicate :=
  if schema.identityColumnSchemas.isEmpty then
    missingReplicaIdentity schema "DuckLake delete requires a replica identity"
  else do
    let keyValues ←
      match row with
      | .full row =>
        let columnCount := schema.columnSchemas.length
        let valueCount := row.values.length
        if valueCount ≠ columnCount then
          bailWith .invalidState "DuckLake row shape does not match schema"
            (s!"Expected {columnCount} values for table '" ++ schema.tableSchema.name.display ++
              s!"', got {valueCount}")
        else
          .ok (identityValues (schema.columnSchemas.zip row.values) schema.identityColumnSchemas)
      | .key row =>
        let identityCount := schema.identityColumnSchemas.length
        let valueCount := row.values.length
        if valueCount ≠ identityCount then
          bailWith .invalidState "DuckLake key image does not match replica identity"
            (s!"Expected {identityCount} key values for table '" ++
              schema.tableSchema.name.display ++ s!"', got {valueCount}")
        else .ok (schema.identityColumnSchemas.zip row.values)
    .ok (keyValues.map fun (columnSchema, value) => (columnSchema.name, value))

/-- Stops at an incomplete row with another number of columns than the schema. -/
def partialRowMismatch {α : Type} (partialRow : PartialTableRow) : EtlResult α :=
  let columnCount := schema.columnSchemas.length
  let totalColumns := partialRow.totalColumns
  bailWith .invalidState "DuckLake partial update row does not match schema"
    (s!"Expected {columnCount} replicated columns for table '" ++
      schema.tableSchema.name.display ++ s!"', got {totalColumns}")

/-- Stops at an incomplete row whose present and missing values do not add up. -/
def partialRowInconsistent {α : Type} (partialRow : PartialTableRow) : EtlResult α :=
  let totalColumns := partialRow.totalColumns
  let presentCount := partialRow.tableRow.values.length
  let missingCount := partialRow.missingColumnIndexes.length
  bailWith .invalidState "DuckLake partial update row shape is inconsistent"
    ("Table '" ++ schema.tableSchema.name.display ++
      s!"' partial row reports {totalColumns} total columns but has {presentCount} present and " ++
      s!"{missingCount} missing")

/-- Stops at an incomplete row with too few values. -/
def partialRowEndedEarly {α : Type} : EtlResult α :=
  bailWith .invalidState "DuckLake partial update row ended early"
    ("Table '" ++ schema.tableSchema.name.display ++
      "' did not provide enough values for its partial update row")

/-- Stops at an incomplete row with values or indexes that no column takes. -/
def partialRowLeftover {α : Type} : EtlResult α :=
  bailWith .invalidState "DuckLake partial update row shape is inconsistent"
    ("Table '" ++ schema.tableSchema.name.display ++
      "' partial row has leftover values or missing indexes after decoding")

/-- Pairs the present values with their columns: walks the columns along with the missing indexes
and the values that are left. -/
def assignPresentValues :
    List (ColumnSchema × ℕ) → List ℕ → List Cell → EtlResult Assignments
  | [], [], [] => .ok []
  | [], _, _ => partialRowLeftover schema
  | (columnSchema, columnIndex) :: columns, missingIndexes, presentValues =>
    if missingIndexes.head? = some columnIndex then
      assignPresentValues columns missingIndexes.tail presentValues
    else
      match presentValues with
      | [] => partialRowEndedEarly schema
      | value :: presentValues => do
        let assignments ← assignPresentValues columns missingIndexes presentValues
        .ok ((columnSchema.name, value) :: assignments)

/-- The `SET` clause of an update whose new row is incomplete. -/
def updateAssignmentsFromPartialRow (partialRow : PartialTableRow) : EtlResult Assignments :=
  if partialRow.totalColumns ≠ schema.columnSchemas.length then
    partialRowMismatch schema partialRow
  else if partialRow.tableRow.values.isEmpty then
    bailWith .invalidState "DuckLake partial update row has no assignments"
      ("Table '" ++ schema.tableSchema.name.display ++ "' emitted an empty partial update row")
  else if partialRow.tableRow.values.length + partialRow.missingColumnIndexes.length ≠
      partialRow.totalColumns then
    partialRowInconsistent schema partialRow
  else
    assignPresentValues schema schema.columnSchemas.zipIdx partialRow.missingColumnIndexes
      partialRow.tableRow.values

end Predicates

/-! ## Grouping -/

/-- The loop state of the grouping between two mutations. -/
structure MutationGroups where
  preparedMutations : List PreparedTableMutation := []
  upsertRows : List TableRow := []
  deletePredicates : List Predicate := []

namespace MutationGroups

/-- Closes the group of inserts. -/
def flushUpserts (groups : MutationGroups) : MutationGroups :=
  if groups.upsertRows.isEmpty then groups
  else
    { groups with
      preparedMutations := groups.preparedMutations ++ [.upsert (prepareRows groups.upsertRows)]
      upsertRows := [] }

/-- Closes the group of deletes. -/
def flushDeletes (groups : MutationGroups) : MutationGroups :=
  if groups.deletePredicates.isEmpty then groups
  else
    { groups with
      preparedMutations := groups.preparedMutations ++ [.delete groups.deletePredicates]
      deletePredicates := [] }

/-- Adds statements of their own. -/
def push (groups : MutationGroups) (statements : List PreparedTableMutation) : MutationGroups :=
  { groups with preparedMutations := groups.preparedMutations ++ statements }

/-- Adds a mutation. -/
def add (schema : ReplicatedTableSchema) (groups : MutationGroups) :
    TableMutation → EtlResult MutationGroups
  | .insert row =>
    let groups := groups.flushDeletes
    .ok { groups with upsertRows := groups.upsertRows ++ [row] }
  | .delete row => do
    let groups := groups.flushUpserts
    let predicate ← deletePredicateFromRow schema row
    .ok { groups with deletePredicates := groups.deletePredicates ++ [predicate] }
  | .update deleteRow (.full upsertRow) => do
    let groups := groups.flushUpserts.flushDeletes
    let predicate ← deletePredicateFromRow schema deleteRow
    .ok (groups.push [.delete [predicate], .upsert (prepareRows [upsertRow])])
  | .update deleteRow (.partialImage partialRow) => do
    let groups := groups.flushUpserts.flushDeletes
    let assignments ← updateAssignmentsFromPartialRow schema partialRow
    let predicate ← deletePredicateFromRow schema deleteRow
    .ok (groups.push [.update assignments predicate])
  | .replace row => do
    let groups := groups.flushUpserts.flushDeletes
    let predicate ← deletePredicateFromRow schema (.full row)
    .ok (groups.push [.delete [predicate], .upsert (prepareRows [row])])

def finish (groups : MutationGroups) : List PreparedTableMutation :=
  groups.flushUpserts.flushDeletes.preparedMutations

end MutationGroups

/-- Groups ordered row mutations into retryable operations. -/
def prepareTableMutations (schema : ReplicatedTableSchema) (mutations : List TableMutation) :
    EtlResult (List PreparedTableMutation) := do
  let groups ← mutations.foldlM (MutationGroups.add schema) {}
  .ok groups.finish

/-! ## Statements -/

section Statements

variable (db : DuckDb)

def cellOf (columns : List Column) (row : TableRow) (name : String) : Option Cell :=
  ((columns.zip row.values).find? (·.1.name = name)).map Prod.snd

/-- Whether the row meets the predicate. A null is found by asking for it, and by nothing else. -/
def Predicate.holds (columns : List Column) (predicate : Predicate) (row : TableRow) : Bool :=
  predicate.all fun (name, value) =>
    match cellOf columns row name with
    | none => false
    | some .null => value = .null
    | some stored => value ≠ .null && db.equals stored value

/-- Whether the table has the columns that a clause names. -/
def Table.hasColumns (table : Table) (clause : List (String × Cell)) : Bool :=
  clause.all (·.1 ∈ table.columnNames)

/-- Maximum number of predicates per `DELETE` statement. -/
def sqlDeleteBatchSize : ℕ := 16

/-- One `DELETE` statement. -/
def deleteWhere (table : Table) (predicates : List Predicate) : EtlResult Table :=
  if predicates.all table.hasColumns then
    .ok { table with
      rows := table.rows.filter fun row =>
        !predicates.any (Predicate.holds db table.columns · row) }
  else bail .destinationQueryFailed "DuckLake DELETE failed"

/-- Applies one delete batch inside an open transaction. -/
def applyDeleteMutation (table : Table) (predicates : List Predicate) : EtlResult Table :=
  (predicates.toChunks sqlDeleteBatchSize).foldlM (deleteWhere db) table

def assignValues (columns : List Column) (assignments : Assignments) (row : TableRow) : TableRow :=
  ⟨(columns.zip row.values).map fun (column, stored) =>
    ((assignments.find? (·.1 = column.name)).map Prod.snd).getD stored⟩

/-- Applies one update statement inside an open transaction. -/
def applyUpdateMutation (table : Table) (assignments : Assignments) (predicate : Predicate) :
    EtlResult Table :=
  if assignments.isEmpty then .ok table
  else
    let found := predicate.holds db table.columns
    let assigned := assignValues table.columns assignments
    if table.hasColumns assignments && table.hasColumns predicate &&
        (table.rows.filter found).all (db.takes table.columns <| assigned ·) then
      .ok { table with rows := table.rows.map fun row => if found row then assigned row else row }
    else bail .destinationQueryFailed "DuckLake UPDATE failed"

/-- The number of prepared rows. -/
def preparedRowsCount : PreparedRows → ℕ
  | .appender values => values.length
  | .sqlLiterals values => values.length

/-- Applies one upsert batch inside an open transaction. -/
def applyUpsertMutation (table : Table) (preparedRows : PreparedRows) : EtlResult Table :=
  if preparedRowsCount preparedRows = 0 then .ok table else stageAndInsert db table preparedRows

/-- Applies one prepared table mutation inside an open transaction. -/
def applyTableMutation (table : Table) : PreparedTableMutation → EtlResult Table
  | .upsert preparedRows => applyUpsertMutation db table preparedRows
  | .delete predicates => applyDeleteMutation db table predicates
  | .update assignments predicate => applyUpdateMutation db table assignments predicate

/-- Applies prepared table mutations in order. -/
def applyTableMutations (table : Table) (preparedMutations : List PreparedTableMutation) :
    EtlResult Table :=
  preparedMutations.foldlM (applyTableMutation db) table

def mutationEffect (schema : ReplicatedTableSchema) (table : Table) (mutation : TableMutation) :
    EtlResult Table := do
  let preparedMutations ← prepareTableMutations schema [mutation]
  applyTableMutations db table preparedMutations

end Statements

/-! ## Inserts and deletes of several rows -/

section Batches

variable {db : DuckDb} {table table' : Table} {rows : List TableRow}
  {predicates : List Predicate}

/-- Whether the row gets through the staging table into the table. -/
def Table.accepts (db : DuckDb) (table : Table) (row : TableRow) : Bool :=
  db.takes table.stagingColumns row && db.takes table.columns row

theorem loadRows_prepareRows_eq_ok_iff {staging staging' : Table} :
    loadRows db staging (prepareRows rows) = .ok staging' ↔
      (∀ row ∈ rows, db.takes staging.columns row = true) ∧
        staging' = { staging with rows := staging.rows ++ rows } := by
  have hrows : (rows.map TableRow.values).map TableRow.mk = rows := by
    rw [map_map]
    exact map_id rows
  have hall : (rows.map TableRow.values).all (db.takes staging.columns ⟨·⟩) = true ↔
      ∀ row ∈ rows, db.takes staging.columns row = true := by simp
  rw [← hall, prepareRows]
  split_ifs <;>
  · rw [loadRows, hrows]
    split_ifs with hfits <;> simp [hfits, eq_comm]

theorem preparedRowsCount_prepareRows (rows : List TableRow) :
    preparedRowsCount (prepareRows rows) = rows.length := by
  rw [prepareRows]
  split_ifs <;> simp [preparedRowsCount]

theorem applyUpsertMutation_eq_ok_iff :
    applyUpsertMutation db table (prepareRows rows) = .ok table' ↔
      (∀ row ∈ rows, table.accepts db row = true) ∧
        table' = { table with rows := table.rows ++ rows } := by
  rw [applyUpsertMutation, preparedRowsCount_prepareRows]
  split_ifs with hempty
  · obtain rfl := length_eq_zero_iff.mp hempty
    simp [@eq_comm _ table']
  · rw [stageAndInsert, bind_eq_ok_iff]
    simp only [loadRows_prepareRows_eq_ok_iff]
    constructor
    · rintro ⟨staging, ⟨hstaged, rfl⟩, hinsert⟩
      split_ifs at hinsert with hinserted
      · refine ⟨fun row hrow => ?_, (Except.ok.inj hinsert).symm⟩
        simp [Table.accepts, hstaged row hrow, all_eq_true.mp hinserted row hrow]
      · exact absurd hinsert bail_ne_ok
    · rintro ⟨haccepts, rfl⟩
      simp only [Table.accepts, Bool.and_eq_true] at haccepts
      refine ⟨_, ⟨fun row hrow => (haccepts row hrow).1, rfl⟩, if_pos ?_⟩
      exact all_eq_true.mpr fun row hrow => (haccepts row hrow).2

theorem applyUpsertMutation_concat {row : TableRow} :
    applyUpsertMutation db table (prepareRows (rows ++ [row])) = .ok table' ↔
      ∃ mid, applyUpsertMutation db table (prepareRows rows) = .ok mid ∧
        applyUpsertMutation db mid (prepareRows [row]) = .ok table' := by
  simp only [applyUpsertMutation_eq_ok_iff, forall_mem_append, and_assoc, exists_and_left,
    exists_eq_left]
  refine and_congr_right fun _ => and_congr Iff.rfl ?_
  simp

theorem flatten_toChunks {α : Type} {n : ℕ} (hn : n ≠ 0) (xs : List α) :
    (xs.toChunks n).flatten = xs := by
  have hgo : ∀ (xs : List α) (chunk : Array α) (chunks : Array (List α)),
      (List.toChunks.go n xs chunk chunks).flatten =
        chunks.toList.flatten ++ chunk.toList ++ xs := by
    intro xs
    induction xs with
    | nil => simp [List.toChunks.go]
    | cons x xs ih =>
      intro chunk chunks
      rw [List.toChunks.go]
      split_ifs <;> simp [ih]
  match n, xs, hn with
  | _, [], _ => simp [List.toChunks]
  | n + 1, x :: xs, _ => simp [List.toChunks, hgo]

theorem foldlM_deleteWhere_eq_ok_iff {chunks : List (List Predicate)} :
    chunks.foldlM (deleteWhere db) table = .ok table' ↔
      (∀ predicate ∈ chunks.flatten, table.hasColumns predicate = true) ∧
        table' = { table with
          rows := table.rows.filter fun row =>
            !chunks.flatten.any (Predicate.holds db table.columns · row) } := by
  induction chunks generalizing table with
  | nil => simp [pure, Except.pure, @eq_comm _ table']
  | cons chunk chunks ih =>
    rw [foldlM_cons, bind_eq_ok_iff]
    constructor
    · rintro ⟨mid, hchunk, hchunks⟩
      rw [deleteWhere] at hchunk
      split_ifs at hchunk with hcolumns
      · cases hchunk
        obtain ⟨hrest, rfl⟩ := ih.mp hchunks
        refine ⟨fun predicate hpredicate => ?_, ?_⟩
        · obtain hpredicate | hpredicate := mem_append.mp hpredicate
          · exact all_eq_true.mp hcolumns predicate hpredicate
          · exact hrest predicate hpredicate
        · simp [Bool.and_comm]
      · exact absurd hchunk bail_ne_ok
    · rintro ⟨hcolumns, rfl⟩
      refine ⟨_, if_pos (all_eq_true.mpr fun predicate hpredicate => ?_), ih.mpr ⟨?_, ?_⟩⟩
      · exact hcolumns predicate (mem_append_left _ hpredicate)
      · exact fun predicate hpredicate => hcolumns predicate (mem_append_right _ hpredicate)
      · simp [Bool.and_comm]

theorem applyDeleteMutation_eq_ok_iff :
    applyDeleteMutation db table predicates = .ok table' ↔
      (∀ predicate ∈ predicates, table.hasColumns predicate = true) ∧
        table' = { table with
          rows := table.rows.filter fun row =>
            !predicates.any (Predicate.holds db table.columns · row) } := by
  rw [applyDeleteMutation, foldlM_deleteWhere_eq_ok_iff, flatten_toChunks (by decide)]

/-- Deleting by one more predicate is deleting by it after the others. -/
theorem applyDeleteMutation_concat {predicate : Predicate} :
    applyDeleteMutation db table (predicates ++ [predicate]) = .ok table' ↔
      ∃ mid, applyDeleteMutation db table predicates = .ok mid ∧
        applyDeleteMutation db mid [predicate] = .ok table' := by
  simp only [applyDeleteMutation_eq_ok_iff, forall_mem_append, and_assoc, exists_and_left,
    exists_eq_left]
  refine and_congr_right fun _ => and_congr Iff.rfl ?_
  simp [Bool.and_comm]

@[simp]
theorem applyUpsertMutation_nil : applyUpsertMutation db table (prepareRows []) = .ok table :=
  applyUpsertMutation_eq_ok_iff.mpr ⟨by simp, by simp⟩

@[simp]
theorem applyDeleteMutation_nil : applyDeleteMutation db table [] = .ok table := rfl

end Batches

/-! ## Grouping keeps the order -/

namespace MutationGroups

variable {db : DuckDb} {schema : ReplicatedTableSchema}
  {groups groups' : MutationGroups} {table table' : Table} {row : TableRow} {predicate : Predicate}
  {mutation : TableMutation}

def effect (db : DuckDb) (groups : MutationGroups) (table : Table) :
    EtlResult Table := do
  let table ← applyTableMutations db table groups.preparedMutations
  let table ← applyUpsertMutation db table (prepareRows groups.upsertRows)
  applyDeleteMutation db table groups.deletePredicates

/-- At most one of the groups is open. -/
def OneOpen (groups : MutationGroups) : Prop :=
  groups.upsertRows = [] ∨ groups.deletePredicates = []

theorem applyTableMutations_append (statements rest : List PreparedTableMutation) :
    applyTableMutations db table (statements ++ rest) =
      applyTableMutations db table statements >>= (applyTableMutations db · rest) :=
  foldlM_append

theorem applyTableMutations_singleton (statement : PreparedTableMutation) :
    applyTableMutations db table [statement] = applyTableMutation db table statement := by
  exact bind_pure _

theorem effect_flushUpserts :
    groups.flushUpserts.effect db table = groups.effect db table := by
  rw [flushUpserts]
  split_ifs
  · rfl
  · simp [effect, applyTableMutations_append, applyTableMutations_singleton,
      applyTableMutation, ok_bind]

theorem effect_flushDeletes (hopen : groups.OneOpen) :
    groups.flushDeletes.effect db table = groups.effect db table := by
  rw [flushDeletes]
  split_ifs with hempty
  · rfl
  · obtain hupserts | hdeletes := hopen
    · simp only [effect, hupserts, applyTableMutations_append, applyTableMutations_singleton,
        bind_assoc]
      exact bind_congr fun table => bind_pure (m := EtlResult) _
    · exact absurd (isEmpty_iff.mpr hdeletes) hempty

@[simp]
theorem upsertRows_flushUpserts : groups.flushUpserts.upsertRows = [] := by
  rw [flushUpserts]
  split_ifs with hempty
  · exact isEmpty_iff.mp hempty
  · rfl

@[simp]
theorem upsertRows_flushDeletes : groups.flushDeletes.upsertRows = groups.upsertRows := by
  rw [flushDeletes]
  split_ifs <;> rfl

@[simp]
theorem deletePredicates_flushDeletes : groups.flushDeletes.deletePredicates = [] := by
  rw [flushDeletes]
  split_ifs with hempty
  · exact isEmpty_iff.mp hempty
  · rfl

/-- Both groups can be closed at any time. -/
theorem effect_flush :
    groups.flushUpserts.flushDeletes.effect db table = groups.effect db table := by
  rw [effect_flushDeletes (.inl upsertRows_flushUpserts), effect_flushUpserts]

theorem applyTableMutations_finish :
    applyTableMutations db table groups.finish = groups.effect db table := by
  rw [← effect_flush, effect]
  simp only [upsertRows_flushDeletes, upsertRows_flushUpserts, deletePredicates_flushDeletes]
  exact (bind_pure (m := EtlResult) _).symm

theorem effect_push_flush (statements : List PreparedTableMutation) :
    (groups.flushUpserts.flushDeletes.push statements).effect db table =
      groups.effect db table >>= (applyTableMutations db · statements) := by
  have hpush {closed : MutationGroups} (hupserts : closed.upsertRows = [])
      (hdeletes : closed.deletePredicates = []) :
      (closed.push statements).effect db table =
        closed.effect db table >>= (applyTableMutations db · statements) := by
    simp only [effect, push, hupserts, hdeletes, applyTableMutations_append, bind_assoc]
    exact bind_congr fun table => bind_pure (m := EtlResult) _
  rw [hpush (by simp) (by simp), effect_flush]

theorem effect_add_insert (hdeletes : groups.deletePredicates = []) :
    { groups with upsertRows := groups.upsertRows ++ [row] }.effect db table = .ok table' ↔
      ∃ mid, groups.effect db table = .ok mid ∧
        applyUpsertMutation db mid (prepareRows [row]) = .ok table' := by
  simp only [effect, hdeletes, applyDeleteMutation_nil, bind_eq_ok_iff, Except.ok.injEq,
    exists_eq_right, applyUpsertMutation_concat]
  tauto

theorem effect_add_delete :
    { groups with deletePredicates := groups.deletePredicates ++ [predicate] }.effect db table =
        .ok table' ↔
      ∃ mid, groups.effect db table = .ok mid ∧
        applyDeleteMutation db mid [predicate] = .ok table' := by
  simp only [effect, bind_eq_ok_iff, applyDeleteMutation_concat]
  tauto

theorem oneOpen_push_flush (statements : List PreparedTableMutation) :
    (groups.flushUpserts.flushDeletes.push statements).OneOpen :=
  .inl (by simp [push])

theorem mutationEffect_eq :
    mutationEffect db schema table mutation =
      add schema {} mutation >>= (effect db · table) := by
  rw [mutationEffect, prepareTableMutations, foldlM_cons, bind_assoc, bind_assoc]
  refine bind_congr fun groups => ?_
  exact applyTableMutations_finish

theorem mutationEffect_insert :
    mutationEffect db schema table (.insert row) =
      applyUpsertMutation db table (prepareRows [row]) := by
  exact bind_pure (m := EtlResult) _

theorem mutationEffect_delete {row : OldTableRow}
    (hpredicate : deletePredicateFromRow schema row = .ok predicate) :
    mutationEffect db schema table (.delete row) =
      applyDeleteMutation db table [predicate] := by
  rw [mutationEffect_eq, add, hpredicate]
  rfl

theorem mutationEffect_eq_of_push {statements : List PreparedTableMutation}
    (hadd : add schema {} mutation = .ok (push {} statements)) :
    mutationEffect db schema table mutation = applyTableMutations db table statements := by
  rw [mutationEffect_eq, hadd]
  exact @effect_push_flush db {} table statements

/-- Adding a mutation leaves at most one group open. -/
theorem oneOpen_add (hadd : add schema groups mutation = .ok groups') :
    groups'.OneOpen := by
  match mutation with
  | .insert row =>
    cases hadd
    exact .inr deletePredicates_flushDeletes
  | .delete row =>
    obtain ⟨predicate, -, hgroups⟩ := bind_eq_ok_iff.mp hadd
    cases hgroups
    exact .inl upsertRows_flushUpserts
  | .update deleteRow (.full upsertRow) =>
    obtain ⟨predicate, -, hgroups⟩ := bind_eq_ok_iff.mp hadd
    cases hgroups
    exact oneOpen_push_flush _
  | .update deleteRow (.partialImage partialRow) =>
    obtain ⟨assignments, -, hadd⟩ := bind_eq_ok_iff.mp hadd
    obtain ⟨predicate, -, hgroups⟩ := bind_eq_ok_iff.mp hadd
    cases hgroups
    exact oneOpen_push_flush _
  | .replace row =>
    obtain ⟨predicate, -, hgroups⟩ := bind_eq_ok_iff.mp hadd
    cases hgroups
    exact oneOpen_push_flush _

/-- What the groups do after a mutation was added is what they did before, followed by the
mutation. -/
theorem effect_add (hopen : groups.OneOpen) (hadd : add schema groups mutation = .ok groups') :
    groups'.effect db table = .ok table' ↔
      ∃ mid, groups.effect db table = .ok mid ∧
        mutationEffect db schema mid mutation = .ok table' := by
  -- Updates and replacements close both groups and add statements of their own.
  have hpush {statements : List PreparedTableMutation}
      (hown : add schema {} mutation = .ok (push {} statements))
      (hgroups : groups.flushUpserts.flushDeletes.push statements = groups') :
      groups'.effect db table = .ok table' ↔
        ∃ mid, groups.effect db table = .ok mid ∧
          mutationEffect db schema mid mutation = .ok table' := by
    subst hgroups
    simp only [effect_push_flush, bind_eq_ok_iff, mutationEffect_eq_of_push hown]
  match mutation with
  | .insert row =>
    cases hadd
    simp only [effect_add_insert deletePredicates_flushDeletes, effect_flushDeletes hopen,
      mutationEffect_insert]
  | .delete row =>
    obtain ⟨predicate, hpredicate, hgroups⟩ := bind_eq_ok_iff.mp hadd
    cases hgroups
    simp only [effect_add_delete, effect_flushUpserts, mutationEffect_delete hpredicate]
  | .update deleteRow (.full upsertRow) =>
    obtain ⟨predicate, hpredicate, hgroups⟩ := bind_eq_ok_iff.mp hadd
    refine hpush ?_ (Except.ok.inj hgroups)
    rw [add, hpredicate]
    rfl
  | .update deleteRow (.partialImage partialRow) =>
    obtain ⟨assignments, hassignments, hadd⟩ := bind_eq_ok_iff.mp hadd
    obtain ⟨predicate, hpredicate, hgroups⟩ := bind_eq_ok_iff.mp hadd
    refine hpush ?_ (Except.ok.inj hgroups)
    rw [add, hassignments, hpredicate]
    rfl
  | .replace row =>
    obtain ⟨predicate, hpredicate, hgroups⟩ := bind_eq_ok_iff.mp hadd
    refine hpush ?_ (Except.ok.inj hgroups)
    rw [add, hpredicate]
    rfl

/-- What the groups do after a list of mutations is what they did before, followed by the mutations
in order. -/
theorem effect_foldlM_add {mutations : List TableMutation} (hopen : groups.OneOpen)
    (hadd : mutations.foldlM (add schema) groups = .ok groups') :
    groups'.effect db table = .ok table' ↔
      ∃ mid, groups.effect db table = .ok mid ∧
        mutations.foldlM (mutationEffect db schema) mid = .ok table' := by
  induction mutations generalizing groups with
  | nil =>
    cases hadd
    simp [pure, Except.pure]
  | cons mutation mutations ih =>
    obtain ⟨next, hnext, hadd⟩ := bind_eq_ok_iff.mp hadd
    simp only [ih (oneOpen_add hnext) hadd, effect_add hopen hnext, foldlM_cons, bind_eq_ok_iff]
    tauto

end MutationGroups

theorem applyTableMutations_eq_ok_iff {db : DuckDb}
    {schema : ReplicatedTableSchema} {mutations : List TableMutation}
    {preparedMutations : List PreparedTableMutation} {table table' : Table}
    (hprepare : prepareTableMutations schema mutations = .ok preparedMutations) :
    applyTableMutations db table preparedMutations = .ok table' ↔
      mutations.foldlM (mutationEffect db schema) table = .ok table' := by
  obtain ⟨groups, hgroups, hfinish⟩ := bind_eq_ok_iff.mp hprepare
  cases hfinish
  rw [MutationGroups.applyTableMutations_finish,
    MutationGroups.effect_foldlM_add (.inl rfl) hgroups]
  exact ⟨fun ⟨_, hmid, hrest⟩ => Except.ok.inj hmid ▸ hrest, fun hrest => ⟨table, rfl, hrest⟩⟩

end Etl.DuckLake
