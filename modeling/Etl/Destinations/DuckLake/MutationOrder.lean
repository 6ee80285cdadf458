import Etl.Destinations.DuckLake.Batches
import Mathlib.Data.List.ReduceOption

/-! # The order of mutations

Reference: `etl-destinations/src/ducklake/batches.rs` (`prepare_table_mutations`,
`prepare_mutation_table_batches`, `delete_predicate_from_row`).

What a mutation means for a table, said by values and columns alone: rows are found by the values of
the identity columns, and an incomplete row overwrites the columns it has. A mutation carries such a
change in its row images (`TableMutation.Means`). Preparing a list of mutations and cutting it into
batches at the size cap leave the meaning as it is.
-/

namespace Etl.DuckLake

open List

/-! ## The meaning of a mutation -/

/-- A change of the rows of a table. `identity` has the values of the identity columns, `cells` the
values of the replicated columns where they are known. -/
inductive RowChange where
  | insert (row : TableRow)
  | delete (identity : List Cell)
  | replace (identity : List Cell) (row : TableRow)
  | overwrite (identity : List Cell) (cells : List (Option Cell))

namespace RowChange

variable (db : DuckDb) (schema : ReplicatedTableSchema) (table : Table)

/-- Whether the stored row has these values in the identity columns. A null is like a null only. -/
def identifies (identity : List Cell) (row : TableRow) : Bool :=
  (schema.identityColumnSchemas.zip identity).all fun (columnSchema, value) =>
    match cellOf table.columns row columnSchema.name with
    | none => false
    | some stored =>
      if stored = .null ∨ value = .null then stored = value else db.equals stored value

/-- The stored row with the known cells in the columns of their names. -/
def overwritten (cells : List (Option Cell)) (row : TableRow) : TableRow :=
  ⟨(table.columns.zip row.values).map fun (column, stored) =>
    ((schema.columnSchemas.zip cells).findSome? fun (columnSchema, cell) =>
      if columnSchema.name = column.name then cell else none).getD stored⟩

/-- Whether the table has the identity columns. -/
def hasIdentity : Bool :=
  schema.identityColumnSchemas.all (·.name ∈ table.columnNames)

/-- Whether the table has the columns of the known cells. -/
def hasCells (cells : List (Option Cell)) : Bool :=
  (schema.columnSchemas.zip cells).all fun (columnSchema, cell) =>
    cell.isNone || columnSchema.name ∈ table.columnNames

def insertRow (row : TableRow) : EtlResult Table :=
  if table.accepts db row then .ok { table with rows := table.rows ++ [row] }
  else bail .destinationQueryFailed "DuckLake INSERT SELECT failed"

def deleteRows (identity : List Cell) : EtlResult Table :=
  if hasIdentity schema table then
    .ok { table with rows := table.rows.filter (!identifies db schema table identity ·) }
  else bail .destinationQueryFailed "DuckLake DELETE failed"

def overwriteRows (identity : List Cell) (cells : List (Option Cell)) : EtlResult Table :=
  let found := identifies db schema table identity
  let overwritten := overwritten schema table cells
  if hasCells schema table cells && hasIdentity schema table &&
      (table.rows.filter found).all (db.takes table.columns <| overwritten ·) then
    .ok { table with rows := table.rows.map fun row => if found row then overwritten row else row }
  else bail .destinationQueryFailed "DuckLake UPDATE failed"

/-- What the change does to a table. -/
def applyTo : RowChange → EtlResult Table
  | .insert row => insertRow db table row
  | .delete identity => deleteRows db schema table identity
  | .replace identity row => do insertRow db (← deleteRows db schema table identity) row
  | .overwrite identity cells => overwriteRows db schema table identity cells

end RowChange

/-- The row image has these values of the identity columns: a key image is made of them, a whole row
has each of them in its column. -/
structure Shows (schema : ReplicatedTableSchema) (identity : List Cell) (row : OldTableRow) :
    Prop where
  nonempty : schema.identityColumnSchemas ≠ []
  length_eq : identity.length = schema.identityColumnSchemas.length
  image : match row with
    | .key row => row.values = identity
    | .full row => row.values.length = schema.columnSchemas.length ∧
      List.Forall₂ (fun columnSchema value =>
        (columnSchema, value) ∈ schema.columnSchemas.zip row.values)
        schema.identityColumnSchemas identity

/-- The incomplete row has these cells, and at least one is known. -/
structure ShowsCells (schema : ReplicatedTableSchema) (cells : List (Option Cell))
    (partialRow : PartialTableRow) : Prop where
  length_eq : cells.length = schema.columnSchemas.length
  nonempty : cells.reduceOption ≠ []
  image : partialRow = ⟨cells.length, ⟨cells.reduceOption⟩,
    (cells.zipIdx.filter (·.1.isNone)).map Prod.snd⟩

/-- The mutation carries the change in its row images, which fit the schema. -/
inductive TableMutation.Means (schema : ReplicatedTableSchema) : TableMutation → RowChange → Prop
  | insert (row : TableRow) : Means schema (.insert row) (.insert row)
  | delete {row : OldTableRow} {identity : List Cell} (hold : Shows schema identity row) :
    Means schema (.delete row) (.delete identity)
  | update {deleteRow : OldTableRow} {identity : List Cell}
      (hold : Shows schema identity deleteRow) (row : TableRow) :
    Means schema (.update deleteRow (.full row)) (.replace identity row)
  | partialUpdate {deleteRow : OldTableRow} {identity : List Cell} {partialRow : PartialTableRow}
      {cells : List (Option Cell)} (hold : Shows schema identity deleteRow)
      (hnew : ShowsCells schema cells partialRow) :
    Means schema (.update deleteRow (.partialImage partialRow)) (.overwrite identity cells)
  | replace {row : TableRow} {identity : List Cell} (hold : Shows schema identity (.full row)) :
    Means schema (.replace row) (.replace identity row)

/-! ## Predicates and assignments from row images -/

section Images

variable {db : DuckDb} {schema : ReplicatedTableSchema} {table : Table} {identity : List Cell}
  {cells : List (Option Cell)} {columns identityColumns : List ColumnSchema} {values : List Cell}

/-- A column after the first one takes no value from the first place. -/
theorem forall₂_mem_zip_of_cons {column : ColumnSchema} {value : Cell}
    (hcolumn : column ∉ identityColumns)
    (hmem : List.Forall₂ (fun columnSchema cell =>
      (columnSchema, cell) ∈ (column, value) :: columns.zip values) identityColumns identity) :
    List.Forall₂ (fun columnSchema cell => (columnSchema, cell) ∈ columns.zip values)
      identityColumns identity := by
  induction hmem with
  | nil => exact .nil
  | cons hhead hrest ih =>
    obtain ⟨hne, hcolumn⟩ := not_or.mp (mt mem_cons.mpr hcolumn)
    refine .cons ((mem_cons.mp hhead).resolve_left fun heq => hne ?_) (ih hcolumn)
    exact (Prod.mk.inj heq).1.symm

/-- The walk over the columns of a whole row picks the values of the identity columns. -/
theorem identityValues_eq_zip (hsublist : identityColumns.Sublist columns)
    (hpositions : (columns.map ColumnSchema.ordinalPosition).Nodup)
    (hlength : values.length = columns.length)
    (hmem : List.Forall₂ (fun columnSchema value => (columnSchema, value) ∈ columns.zip values)
      identityColumns identity) :
    identityValues (columns.zip values) identityColumns = identityColumns.zip identity := by
  induction hsublist generalizing values identity with
  | slnil => rfl
  | @cons identityColumns columns column hsublist ih =>
    obtain ⟨value, values, rfl⟩ := exists_cons_of_length_eq_add_one hlength
    obtain ⟨hcolumn, hpositions⟩ := nodup_cons.mp hpositions
    have hnotMem {other : ColumnSchema} (hother : other ∈ identityColumns) :
        other.ordinalPosition ≠ column.ordinalPosition := fun heq =>
      hcolumn (heq ▸ mem_map_of_mem (hsublist.subset hother))
    have hrest := ih hpositions (Nat.succ.inj hlength)
      (forall₂_mem_zip_of_cons (fun hmem => hnotMem hmem rfl) hmem)
    cases identityColumns with
    | nil => rfl
    | cons identityColumn identityColumns =>
      rw [zip_cons_cons, identityValues, if_neg (hnotMem mem_cons_self), hrest]
  | @cons_cons identityColumns columns column hsublist ih =>
    obtain ⟨value, values, rfl⟩ := exists_cons_of_length_eq_add_one hlength
    obtain ⟨hcolumn, hpositions⟩ := nodup_cons.mp hpositions
    have hnotMem {columns' : List ColumnSchema} (hsubset : columns' ⊆ columns) :
        column ∉ columns' := fun hmem => hcolumn (mem_map_of_mem (hsubset hmem))
    cases hmem with
    | @cons _ found _ identity hfound hmem =>
      obtain heq | hlater := mem_cons.mp hfound
      · rw [zip_cons_cons, identityValues, if_pos rfl, zip_cons_cons, (Prod.mk.inj heq).2,
          ih hpositions (Nat.succ.inj hlength)
            (forall₂_mem_zip_of_cons (hnotMem hsublist.subset) hmem)]
      · exact absurd (of_mem_zip hlater).1 (hnotMem (Subset.refl _))

/-- The predicate that asks for the identity values. -/
def identityPredicate (schema : ReplicatedTableSchema) (identity : List Cell) : Predicate :=
  (schema.identityColumnSchemas.zip identity).map fun (columnSchema, value) =>
    (columnSchema.name, value)

theorem Shows.deletePredicateFromRow {row : OldTableRow} (hshows : Shows schema identity row)
    (hpositions : (schema.columnSchemas.map ColumnSchema.ordinalPosition).Nodup) :
    deletePredicateFromRow schema row = .ok (identityPredicate schema identity) := by
  rw [DuckLake.deletePredicateFromRow, if_neg (mt List.isEmpty_iff.mp hshows.nonempty)]
  cases row with
  | key row =>
    have himage : row.values = identity := hshows.image
    simp only [himage, hshows.length_eq, ne_eq, not_true_eq_false, if_false]
    rfl
  | full row =>
    obtain ⟨hlength, hmem⟩ := hshows.image
    simp only [hlength, ne_eq, not_true_eq_false, if_false]
    rw [ok_bind, identityValues_eq_zip (identityColumnSchemas_sublist schema) hpositions hlength
      hmem]
    rfl

theorem holds_identityPredicate :
    (identityPredicate schema identity).holds db table.columns =
      RowChange.identifies db schema table identity := by
  funext row
  rw [Predicate.holds, identityPredicate, all_map, RowChange.identifies]
  refine congrArg (all _) (funext fun x => ?_)
  simp only [Function.comp_apply]
  cases cellOf table.columns row x.1.name with
  | none => rfl
  | some stored =>
    by_cases hstored : stored = .null
    · simp [hstored, eq_comm]
    · by_cases hvalue : x.2 = .null <;> simp [hstored, hvalue]

theorem hasColumns_identityPredicate
    (hlength : identity.length = schema.identityColumnSchemas.length) :
    table.hasColumns (identityPredicate schema identity) =
      RowChange.hasIdentity schema table := by
  have hfst : (schema.identityColumnSchemas.zip identity).map Prod.fst =
      schema.identityColumnSchemas := map_fst_zip hlength.ge
  rw [Table.hasColumns, identityPredicate, all_map, RowChange.hasIdentity]
  nth_rewrite 2 [← hfst]
  rw [all_map]
  rfl

/-- The assignments of the known cells. -/
def cellAssignments (columns : List ColumnSchema) (cells : List (Option Cell)) : Assignments :=
  (columns.zip cells).filterMap fun x => x.2.map (x.1.name, ·)

/-- The walk over the columns of an incomplete row gives each known cell to its column. -/
theorem assignPresentValues_eq_ok (hlength : cells.length = columns.length) (start : ℕ) :
    assignPresentValues schema (columns.zipIdx start)
        (((cells.zipIdx start).filter (·.1.isNone)).map Prod.snd) cells.reduceOption =
      .ok (cellAssignments columns cells) := by
  induction columns generalizing cells start with
  | nil =>
    rw [length_eq_zero_iff.mp hlength]
    rfl
  | cons column columns ih =>
    obtain ⟨cell, cells, rfl⟩ := exists_cons_of_length_eq_add_one hlength
    have hrest := ih (Nat.succ.inj hlength) (start + 1)
    cases cell with
    | none =>
      rw [zipIdx_cons, zipIdx_cons, filter_cons_of_pos rfl, map_cons,
        assignPresentValues.eq_def]
      simp only [head?_cons, if_true, tail_cons, reduceOption_cons_of_none, hrest]
      rfl
    | some value =>
      have hhead : ((((cells.zipIdx (start + 1)).filter (·.1.isNone)).map Prod.snd).head? =
          some start) = False := by
        refine eq_false fun hhead => ?_
        obtain ⟨x, hx, hstart⟩ := mem_map.mp (mem_of_head? hhead)
        have hle := (mem_zipIdx (mem_of_mem_filter hx)).1
        omega
      rw [zipIdx_cons, zipIdx_cons, filter_cons_of_neg (by simp), assignPresentValues.eq_def]
      simp only [hhead, if_false, reduceOption_cons_of_some, hrest]
      rfl

theorem map_snd_cellAssignments (hlength : cells.length = columns.length) :
    (cellAssignments columns cells).map Prod.snd = cells.reduceOption := by
  induction columns generalizing cells with
  | nil =>
    rw [length_eq_zero_iff.mp hlength]
    rfl
  | cons column columns ih =>
    obtain ⟨cell, cells, rfl⟩ := exists_cons_of_length_eq_add_one hlength
    have hrest := ih (Nat.succ.inj hlength)
    cases cell with
    | none => rw [reduceOption_cons_of_none, ← hrest]; rfl
    | some value => rw [reduceOption_cons_of_some, ← hrest]; rfl

theorem length_reduceOption_add_missing (cells : List (Option Cell)) (start : ℕ) :
    cells.reduceOption.length +
      (((cells.zipIdx start).filter (·.1.isNone)).map Prod.snd).length = cells.length := by
  induction cells generalizing start with
  | nil => rfl
  | cons cell cells ih =>
    have hrest := ih (start + 1)
    cases cell with
    | none =>
      rw [zipIdx_cons, filter_cons_of_pos rfl, map_cons, length_cons, reduceOption_cons_of_none]
      simp only [length_cons]
      omega
    | some value =>
      rw [zipIdx_cons, filter_cons_of_neg (by simp), reduceOption_cons_of_some]
      simp only [length_cons]
      omega

theorem ShowsCells.updateAssignmentsFromPartialRow {partialRow : PartialTableRow}
    (hshows : ShowsCells schema cells partialRow) :
    updateAssignmentsFromPartialRow schema partialRow =
      .ok (cellAssignments schema.columnSchemas cells) := by
  have hcount := length_reduceOption_add_missing cells 0
  rw [DuckLake.updateAssignmentsFromPartialRow, hshows.image]
  simp only [hshows.length_eq, hcount, ne_eq, not_true_eq_false, if_false,
    mt List.isEmpty_iff.mp hshows.nonempty]
  exact assignPresentValues_eq_ok hshows.length_eq 0

theorem assignValues_cellAssignments (row : TableRow) :
    assignValues table.columns (cellAssignments schema.columnSchemas cells) row =
      RowChange.overwritten schema table cells row := by
  have hfind (name : String) (pairs : List (ColumnSchema × Option Cell)) :
      ((pairs.filterMap fun x => x.2.map (x.1.name, ·)).find? (·.1 = name)).map Prod.snd =
        pairs.findSome? fun x => if x.1.name = name then x.2 else none := by
    induction pairs with
    | nil => rfl
    | cons pair pairs ih =>
      obtain ⟨column, cell⟩ := pair
      cases cell with
      | none => simpa using ih
      | some value =>
        simp only [filterMap_cons, Option.map_some, find?_cons, findSome?_cons]
        by_cases hname : column.name = name
        · simp [hname]
        · simpa [hname] using ih
  rw [assignValues, RowChange.overwritten]
  simp only [cellAssignments, hfind]

theorem hasColumns_cellAssignments :
    table.hasColumns (cellAssignments schema.columnSchemas cells) =
      RowChange.hasCells schema table cells := by
  rw [Table.hasColumns, cellAssignments, RowChange.hasCells]
  induction schema.columnSchemas.zip cells with
  | nil => rfl
  | cons pair pairs ih =>
    obtain ⟨column, cell⟩ := pair
    cases cell <;> simp [ih]

/-- An `UPDATE` with the predicate and the assignments of a change overwrites its rows. -/
theorem applyUpdateMutation_eq (hlength : identity.length = schema.identityColumnSchemas.length)
    (hcells : cells.length = schema.columnSchemas.length) (hnonempty : cells.reduceOption ≠ []) :
    applyUpdateMutation db table (cellAssignments schema.columnSchemas cells)
        (identityPredicate schema identity) =
      RowChange.overwriteRows db schema table identity cells := by
  have hassigns : ¬ (cellAssignments schema.columnSchemas cells).isEmpty = true := by
    intro hempty
    rw [← map_snd_cellAssignments hcells, List.isEmpty_iff.mp hempty] at hnonempty
    exact hnonempty rfl
  rw [applyUpdateMutation, if_neg hassigns, RowChange.overwriteRows]
  simp only [holds_identityPredicate, assignValues_cellAssignments, hasColumns_cellAssignments,
    hasColumns_identityPredicate hlength]

end Images

/-! ## One mutation -/

section Meaning

open MutationGroups

variable {db : DuckDb} {schema : ReplicatedTableSchema} {table table' : Table}
  {mutation : TableMutation} {change : RowChange} {row : TableRow} {identity : List Cell}

theorem applyUpsertMutation_singleton :
    applyUpsertMutation db table (prepareRows [row]) = .ok table' ↔
      RowChange.insertRow db table row = .ok table' := by
  rw [applyUpsertMutation_eq_ok_iff, RowChange.insertRow]
  split_ifs with haccepts <;> simp [haccepts, @eq_comm _ table']

theorem applyDeleteMutation_singleton
    (hlength : identity.length = schema.identityColumnSchemas.length) :
    applyDeleteMutation db table [identityPredicate schema identity] = .ok table' ↔
      RowChange.deleteRows db schema table identity = .ok table' := by
  rw [applyDeleteMutation_eq_ok_iff, RowChange.deleteRows]
  simp only [mem_singleton, forall_eq, any_cons, any_nil, Bool.or_false, holds_identityPredicate,
    hasColumns_identityPredicate hlength]
  split_ifs with hcolumns <;> simp [hcolumns, @eq_comm _ table']

/-- A delete followed by an insert. -/
theorem applyTableMutations_replacement
    (hlength : identity.length = schema.identityColumnSchemas.length) :
    applyTableMutations db table
          [.delete [identityPredicate schema identity], .upsert (prepareRows [row])] = .ok table' ↔
      RowChange.applyTo db schema table (.replace identity row) = .ok table' := by
  simp [applyTableMutations, applyTableMutation, RowChange.applyTo, bind_eq_ok_iff,
    applyUpsertMutation_singleton, applyDeleteMutation_singleton hlength]

/-- The statements of a mutation on its own do what the mutation means. -/
theorem mutationEffect_eq_ok_iff
    (hpositions : (schema.columnSchemas.map ColumnSchema.ordinalPosition).Nodup)
    (hmeans : mutation.Means schema change) :
    mutationEffect db schema table mutation = .ok table' ↔
      change.applyTo db schema table = .ok table' := by
  cases hmeans with
  | insert row => rw [mutationEffect_insert, applyUpsertMutation_singleton, RowChange.applyTo]
  | delete hold =>
    rw [mutationEffect_delete (hold.deletePredicateFromRow hpositions),
      applyDeleteMutation_singleton hold.length_eq, RowChange.applyTo]
  | update hold row =>
    rw [mutationEffect_eq_of_push (by rw [add, hold.deletePredicateFromRow hpositions]; rfl),
      applyTableMutations_replacement hold.length_eq]
  | partialUpdate hold hnew =>
    rw [mutationEffect_eq_of_push (by
        rw [add, hnew.updateAssignmentsFromPartialRow, hold.deletePredicateFromRow hpositions]
        rfl),
      applyTableMutations_singleton, applyTableMutation,
      applyUpdateMutation_eq hold.length_eq hnew.length_eq hnew.nonempty, RowChange.applyTo]
  | replace hold =>
    rw [mutationEffect_eq_of_push (by rw [add, hold.deletePredicateFromRow hpositions]; rfl),
      applyTableMutations_replacement hold.length_eq]

theorem foldlM_mutationEffect_eq_ok_iff
    (hpositions : (schema.columnSchemas.map ColumnSchema.ordinalPosition).Nodup)
    {mutations : List TableMutation} {changes : List RowChange}
    (hmeans : List.Forall₂ (TableMutation.Means schema) mutations changes) :
    mutations.foldlM (mutationEffect db schema) table = .ok table' ↔
      changes.foldlM (RowChange.applyTo db schema) table = .ok table' := by
  induction hmeans generalizing table with
  | nil => rfl
  | cons hmutation hmeans ih =>
    simp [bind_eq_ok_iff, mutationEffect_eq_ok_iff hpositions hmutation, ih]

end Meaning

/-! ## Preparation -/

section Preparation

variable {db : DuckDb} {schema : ReplicatedTableSchema} {tableName : String}
  {groups : MutationGroups} {mutation : TableMutation} {mutations : List TableMutation}
  {change : RowChange} {changes : List RowChange} {prepared : List PreparedDuckLakeTableBatch}

theorem TableMutation.Means.add
    (hpositions : (schema.columnSchemas.map ColumnSchema.ordinalPosition).Nodup)
    (hmeans : mutation.Means schema change) (groups : MutationGroups) :
    ∃ groups', groups.add schema mutation = .ok groups' := by
  cases hmeans with
  | insert row => exact ⟨_, rfl⟩
  | delete hold | update hold row | replace hold =>
    exact ⟨_, by rw [MutationGroups.add, hold.deletePredicateFromRow hpositions]; rfl⟩
  | partialUpdate hold hnew =>
    exact ⟨_, by
      rw [MutationGroups.add, hnew.updateAssignmentsFromPartialRow,
        hold.deletePredicateFromRow hpositions]
      rfl⟩

theorem exists_prepareTableMutations
    (hpositions : (schema.columnSchemas.map ColumnSchema.ordinalPosition).Nodup)
    (hmeans : List.Forall₂ (TableMutation.Means schema) mutations changes) :
    ∃ preparedMutations, prepareTableMutations schema mutations = .ok preparedMutations := by
  have hgroups (groups : MutationGroups) :
      ∃ groups', mutations.foldlM (MutationGroups.add schema) groups = .ok groups' := by
    induction hmeans generalizing groups with
    | nil => exact ⟨groups, rfl⟩
    | cons hmutation hmeans ih =>
      obtain ⟨next, hnext⟩ := hmutation.add hpositions groups
      obtain ⟨groups', hgroups'⟩ := ih next
      exact ⟨groups', by rw [foldlM_cons, hnext, ok_bind, hgroups']⟩
  obtain ⟨groups, hgroups⟩ := hgroups {}
  exact ⟨groups.finish, by rw [prepareTableMutations, hgroups, ok_bind]⟩

/-- What the action of a batch does to a table. -/
def actionEffect (db : DuckDb) (table : Table) :
    PreparedDuckLakeTableBatchAction → EtlResult Table
  | .mutation preparedMutations => applyTableMutations db table preparedMutations
  | .truncate => .ok { table with rows := [] }

/-- What the batches do to a table, one after the other. -/
def batchesEffect (db : DuckDb) (table : Table) (batches : List PreparedDuckLakeTableBatch) :
    EtlResult Table :=
  batches.foldlM (fun table batch => actionEffect db table batch.action) table

/-- The batches perform the changes. -/
def Performs (db : DuckDb) (schema : ReplicatedTableSchema)
    (batches : List PreparedDuckLakeTableBatch) (changes : List RowChange) : Prop :=
  ∀ table table', batchesEffect db table batches = .ok table' ↔
    changes.foldlM (RowChange.applyTo db schema) table = .ok table'

theorem Performs.append {batches rest : List PreparedDuckLakeTableBatch}
    {later : List RowChange} (hbatches : Performs db schema batches changes)
    (hrest : Performs db schema rest later) :
    Performs db schema (batches ++ rest) (changes ++ later) := by
  intro table table'
  simp only [batchesEffect, foldlM_append, bind_eq_ok_iff]
  exact exists_congr fun mid => and_congr (hbatches table mid) (hrest mid table')

/-- The tracked mutations carry the changes. -/
def Carry (schema : ReplicatedTableSchema) (trackedMutations : List TrackedTableMutation)
    (changes : List RowChange) : Prop :=
  List.Forall₂ (fun tracked => tracked.mutation.Means schema) trackedMutations changes

theorem Carry.forall₂_means {tracked : List TrackedTableMutation}
    (hcarry : Carry schema tracked changes) :
    List.Forall₂ (TableMutation.Means schema) (tracked.map TrackedTableMutation.mutation) changes :=
  forall₂_map_left_iff.mpr hcarry

/-- The next batch performs the changes of its mutations. -/
theorem exists_pushPreparedMutationBatch {tracked : List TrackedTableMutation}
    {later : List RowChange}
    (hpositions : (schema.columnSchemas.map ColumnSchema.ordinalPosition).Nodup)
    (hprepared : Performs db schema prepared changes) (hcarry : Carry schema tracked later) :
    ∃ batches, pushPreparedMutationBatch prepared schema tableName tracked = .ok batches ∧
      Performs db schema batches (changes ++ later) := by
  rw [pushPreparedMutationBatch]
  split_ifs with hempty
  · obtain rfl := List.isEmpty_iff.mp hempty
    cases hcarry
    exact ⟨prepared, rfl, by rwa [append_nil]⟩
  · have hmeans := hcarry.forall₂_means
    obtain ⟨preparedMutations, hmutation⟩ := exists_prepareTableMutations hpositions hmeans
    refine ⟨_, by rw [hmutation]; rfl, hprepared.append fun table table' => ?_⟩
    rw [← foldlM_mutationEffect_eq_ok_iff hpositions hmeans,
      ← applyTableMutations_eq_ok_iff hmutation]
    exact iff_of_eq (congrArg (· = _) (bind_pure (m := EtlResult) _))

/-- Cutting the mutations into batches keeps what they mean. The batches prepared so far perform the
changes of the mutations before the pending ones. -/
theorem exists_prepareMutationTableBatchesFrom
    {pending tracked : List TrackedTableMutation} {pendingChanges trackedChanges : List RowChange}
    (hpositions : (schema.columnSchemas.map ColumnSchema.ordinalPosition).Nodup)
    (hprepared : Performs db schema prepared changes)
    (hpending : Carry schema pending pendingChanges)
    (htracked : Carry schema tracked trackedChanges) :
    ∃ batches, prepareMutationTableBatchesFrom schema tableName prepared pending tracked =
        .ok batches ∧
      Performs db schema batches (changes ++ (pendingChanges ++ trackedChanges)) := by
  induction htracked generalizing prepared changes pending pendingChanges with
  | nil =>
    rw [append_nil]
    exact exists_pushPreparedMutationBatch hpositions hprepared hpending
  | @cons mutation change tracked trackedChanges hmutation htracked ih =>
    have hpending : Carry schema (pending ++ [mutation]) (pendingChanges ++ [change]) :=
      rel_append hpending (.cons hmutation .nil)
    rw [append_cons pendingChanges change trackedChanges, prepareMutationTableBatchesFrom]
    split_ifs
    · -- the pending mutations reach the cap and become a batch
      obtain ⟨batches, hpush, hbatches⟩ :=
        exists_pushPreparedMutationBatch hpositions hprepared hpending
      rw [hpush, ← append_assoc]
      exact ih hbatches .nil
    · exact ih hprepared hpending

/-- Executing the operations prepared for valid mutations, all at once or cut into batches, leaves
the table that the changes they carry leave one by one. -/
theorem prepared_mutations_one_by_one (db : DuckDb) (schema : ReplicatedTableSchema)
    (hpositions : (schema.columnSchemas.map ColumnSchema.ordinalPosition).Nodup)
    (tableName : String) (trackedMutations : List TrackedTableMutation) (changes : List RowChange)
    (hcarry : Carry schema trackedMutations changes) :
    ∃ preparedMutations batches,
      prepareTableMutations schema (trackedMutations.map TrackedTableMutation.mutation) =
        .ok preparedMutations ∧
      prepareMutationTableBatches schema tableName trackedMutations = .ok batches ∧
      ∀ table table',
        (applyTableMutations db table preparedMutations = .ok table' ↔
          changes.foldlM (RowChange.applyTo db schema) table = .ok table') ∧
        (batchesEffect db table batches = .ok table' ↔
          changes.foldlM (RowChange.applyTo db schema) table = .ok table') := by
  obtain ⟨preparedMutations, hprepare⟩ := exists_prepareTableMutations hpositions hcarry.forall₂_means
  have hnone : Performs db schema [] [] := fun _ _ => Iff.rfl
  obtain ⟨batches, hbatches, hperforms⟩ :=
    @exists_prepareMutationTableBatchesFrom db schema tableName [] [] [] _ [] _ hpositions hnone
      .nil hcarry
  refine ⟨preparedMutations, batches, hprepare, hbatches, fun table table' => ⟨?_, ?_⟩⟩
  · rw [applyTableMutations_eq_ok_iff hprepare,
      foldlM_mutationEffect_eq_ok_iff hpositions hcarry.forall₂_means]
  · exact hperforms table table'

/-- Compares values as they are and takes rows with a value for every column and no null where there
must be none. -/
def plainDuckDb : DuckDb where
  equals := (· = ·)
  takes columns row := row.values.length = columns.length &&
    (columns.zip row.values).all fun (column, cell) => !(column.notNull && cell = .null)
  length_of_takes htakes := of_decide_eq_true (Bool.and_eq_true_iff.mp htakes).1

/-- Letters with a code, a nullable note and a body. -/
def lettersSchema : ReplicatedTableSchema :=
  ⟨⟨1, ⟨"public", "letters"⟩, [⟨"code", .int4, -1, 1, some 1, false⟩,
    textColumn "note" 2, textColumn "body" 3], 0⟩, [true, true, true], [true, false, false]⟩

def letterCode (code : ℕ) : Cell := .i32 (.ofNat code)

def letter (code : ℕ) (note body : String) : TableRow :=
  ⟨[letterCode code, .string note, .string body]⟩

def letterKey (code : ℕ) : OldTableRow := .key ⟨[letterCode code]⟩

/-- Eighteen letters come, three of them go, one gets a new code, two lose their note, and one comes
again. -/
def letterChanges : List (TrackedTableMutation × RowChange) :=
  (List.range 18).map (fun i => (⟨1, i, .insert (letter i "n" "b")⟩, .insert (letter i "n" "b"))) ++
    [(⟨1, 18, .delete (letterKey 0)⟩, .delete [letterCode 0]),
      (⟨1, 19, .delete (.full (letter 1 "n" "b"))⟩, .delete [letterCode 1]),
      (⟨1, 20, .delete (letterKey 2)⟩, .delete [letterCode 2]),
      (⟨1, 21, .update (letterKey 3) (.full (letter 30 "n" "c"))⟩,
        .replace [letterCode 3] (letter 30 "n" "c")),
      (⟨1, 22, .update (letterKey 4) (.partialImage ⟨3, ⟨[letterCode 4, .null]⟩, [2]⟩)⟩,
        .overwrite [letterCode 4] [some (letterCode 4), some .null, none]),
      (⟨1, 23, .update (letterKey 5) (.partialImage ⟨3, ⟨[letterCode 5, .null]⟩, [2]⟩)⟩,
        .overwrite [letterCode 5] [some (letterCode 5), some .null, none]),
      (⟨1, 24, .replace (letter 6 "m" "b")⟩, .replace [letterCode 6] (letter 6 "m" "b"))]

theorem shows_letterKey (code : ℕ) : Shows lettersSchema [letterCode code] (letterKey code) :=
  ⟨by decide, rfl, rfl⟩

theorem shows_letter (code : ℕ) (note body : String) :
    Shows lettersSchema [letterCode code] (.full (letter code note body)) :=
  ⟨by decide, rfl, rfl, .cons mem_cons_self .nil⟩

theorem means_of_mem_letterChanges :
    ∀ change ∈ letterChanges, change.1.mutation.Means lettersSchema change.2 := by
  have hupdates (code : ℕ) : ShowsCells lettersSchema [some (letterCode code), some .null, none]
      ⟨3, ⟨[letterCode code, .null]⟩, [2]⟩ := ⟨rfl, by simp [reduceOption_cons_of_some], rfl⟩
  simp only [letterChanges, forall_mem_append, forall_mem_map, forall_mem_cons]
  exact ⟨fun i _ => .insert _, .delete (shows_letterKey 0), .delete (shows_letter 1 _ _),
    .delete (shows_letterKey 2), .update (shows_letterKey 3) _,
    .partialUpdate (shows_letterKey 4) (hupdates 4),
    .partialUpdate (shows_letterKey 5) (hupdates 5), .replace (shows_letter 6 _ _), by simp⟩

/-- The letters after the changes. -/
def lettersLeft : List TableRow :=
  [⟨[letterCode 4, .null, .string "b"]⟩, ⟨[letterCode 5, .null, .string "b"]⟩] ++
    (List.range 11).map (fun i => letter (i + 7) "n" "b") ++ [letter 30 "n" "c", letter 6 "m" "b"]

/-- The mutations make two batches, the second with groups of inserts and deletes, and these leave
the letters that the changes leave. -/
theorem prepared_letters_one_by_one :
    ∃ batches, prepareMutationTableBatches lettersSchema "letters" (letterChanges.map Prod.fst) =
        .ok batches ∧
      batches.length = 2 ∧
      batchesEffect plainDuckDb (ensureTableExists lettersSchema none) batches =
        .ok { ensureTableExists lettersSchema none with rows := lettersLeft } := by
  have hcarry : Carry lettersSchema (letterChanges.map Prod.fst) (letterChanges.map Prod.snd) :=
    forall₂_map_left_iff.mpr (forall₂_map_right_iff.mpr
      (forall₂_same.mpr means_of_mem_letterChanges))
  obtain ⟨preparedMutations, batches, -, hbatches, hsame⟩ :=
    prepared_mutations_one_by_one plainDuckDb lettersSchema (by decide) "letters"
      (letterChanges.map Prod.fst) (letterChanges.map Prod.snd) hcarry
  refine ⟨batches, hbatches, ?_, ?_⟩
  · have hlength : ((prepareMutationTableBatches lettersSchema "letters"
        (letterChanges.map Prod.fst)).toOption.map List.length) = some 2 := by
      decide +kernel
    rw [hbatches] at hlength
    exact Option.some.inj hlength
  · rw [(hsame _ _).2]
    decide +kernel

end Preparation

end Etl.DuckLake
