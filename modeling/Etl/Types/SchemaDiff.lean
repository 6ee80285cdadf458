import Etl.Common.SortedMap
import Etl.Types.Event
import Mathlib.Data.List.Nodup

/-! # Replicated columns and schema diffs

What a replicated schema derives from its masks: the replicated columns, the primary key among
them and the kind of row identity; and the difference between two replicated schemas, which
identifies columns by their ordinal position. The source collects columns into hash maps and sorts
the results by position; the sorted map does both.

Reference: `etl-postgres/src/types/schema.rs` (`ReplicatedTableSchema`, `SchemaDiff`).
-/

namespace Etl

open List

def ColumnSchema.primaryKey (column : ColumnSchema) : Bool :=
  column.primaryKeyOrdinalPosition.isSome

/-- What identifies the old row of an update or delete. -/
inductive IdentityType where
  | full | primaryKey | alternativeKey | missing
  deriving DecidableEq, Repr

namespace ReplicatedTableSchema

def primaryKeyIdentityMask (tableSchema : TableSchema) (replicationMask : List Bool) :
    List Bool :=
  (tableSchema.columnSchemas.zip replicationMask).map fun (columnSchema, replicated) =>
    replicated && columnSchema.primaryKey

/-- A schema whose rows are identified by the primary key. -/
def fromMask (tableSchema : TableSchema) (replicationMask : List Bool) : ReplicatedTableSchema :=
  ⟨tableSchema, replicationMask, primaryKeyIdentityMask tableSchema replicationMask⟩

variable (schema : ReplicatedTableSchema)

/-- The identifier of the table. -/
def id : TableId := schema.tableSchema.id

/-- The replicated columns. -/
def columnSchemas : List ColumnSchema :=
  (schema.tableSchema.columnSchemas.zip schema.replicationMask).filterMap
    fun (columnSchema, replicated) => if replicated then some columnSchema else none

def identityColumnSchemas : List ColumnSchema :=
  (schema.tableSchema.columnSchemas.zip (schema.replicationMask.zip schema.identityMask)).filterMap
    fun (columnSchema, replicated, identity) =>
      if replicated && identity then some columnSchema else none

def primaryKeyColumnSchemas : List ColumnSchema :=
  (schema.tableSchema.columnSchemas.zip schema.replicationMask).filterMap
    fun (columnSchema, replicated) =>
      if replicated && columnSchema.primaryKey then some columnSchema else none

def unreplicatedPrimaryKeyColumnSchemas : List ColumnSchema :=
  (schema.tableSchema.columnSchemas.zip schema.replicationMask).filterMap
    fun (columnSchema, replicated) =>
      if columnSchema.primaryKey && !replicated then some columnSchema else none

def allPrimaryKeyColumnsReplicated : Bool := schema.unreplicatedPrimaryKeyColumnSchemas.isEmpty

def identityMatchesPrimaryKey : Bool :=
  schema.identityMask = primaryKeyIdentityMask schema.tableSchema schema.replicationMask

/-- The kind of row identity, from the shape of the masks. -/
def identityType : IdentityType :=
  let columns :=
    (schema.tableSchema.columnSchemas.zip schema.replicationMask).zip schema.identityMask
  let hasIdentity := columns.any fun (_, identity) => identity
  let matchesPrimaryKey := columns.all fun ((columnSchema, replicated), identity) =>
    identity == (replicated && columnSchema.primaryKey)
  let matchesFull := columns.all fun ((_, replicated), identity) => identity == replicated
  if !hasIdentity then .missing
  else if matchesPrimaryKey then .primaryKey
  else if matchesFull then .full
  else .alternativeKey

/-- The number of columns the schema keeps beside each of the three selections. -/
def replicatedColumnCount : ℕ := (schema.replicationMask.filter fun replicated => replicated).length

def identityColumnCount : ℕ :=
  ((schema.replicationMask.zip schema.identityMask).filter fun (replicated, identity) =>
    replicated && identity).length

def primaryKeyColumnCount : ℕ :=
  ((schema.tableSchema.columnSchemas.zip schema.replicationMask).filter
    fun (columnSchema, replicated) => replicated && columnSchema.primaryKey).length

theorem exists_marks {columns : List ColumnSchema} {replication identity : List Bool}
    (hreplication : replication.length = columns.length)
    (hidentity : identity.length = columns.length) :
    ∃ marked : List (ColumnSchema × Bool × Bool), columns = marked.map (·.1) ∧
      replication = marked.map (·.2.1) ∧ identity = marked.map (·.2.2) := by
  have hmasks : (replication.zip identity).length = columns.length := by simp [*]
  have hmap (f : Bool × Bool → Bool) : (columns.zip (replication.zip identity)).map (f ·.2) =
      (replication.zip identity).map f := by
    have h := congrArg (map f) (map_snd_zip hmasks.le)
    rwa [map_map] at h
  refine ⟨columns.zip (replication.zip identity), (map_fst_zip hmasks.ge).symm, ?_, ?_⟩
  · rw [hmap Prod.fst, map_fst_zip (by simp [*])]
  · rw [hmap Prod.snd, map_snd_zip (by simp [*])]

theorem length_filterMap_ite {α β : Type*} (p : α → Bool) (f : α → β) (l : List α) :
    (l.filterMap fun x => if p x then some (f x) else none).length = (l.filter p).length := by
  rw [length_filterMap_eq_countP, countP_eq_length_filter]
  congr 1
  refine filter_congr fun x _ => ?_
  cases p x <;> rfl

/-- The counts are those of the columns, the identity is the primary key when there is one and it
matches, and a schema from the replication mask alone is identified by its primary key. -/
theorem counts_and_identity {schema : ReplicatedTableSchema}
    (hreplication : schema.replicationMask.length = schema.tableSchema.columnSchemas.length)
    (hidentity : schema.identityMask.length = schema.tableSchema.columnSchemas.length) :
    schema.replicatedColumnCount = schema.columnSchemas.length ∧
    schema.identityColumnCount = schema.identityColumnSchemas.length ∧
    schema.primaryKeyColumnCount = schema.primaryKeyColumnSchemas.length ∧
    (schema.identityType = .primaryKey ↔
      schema.identityColumnSchemas ≠ [] ∧ schema.identityMatchesPrimaryKey = true) ∧
    (fromMask schema.tableSchema schema.replicationMask).identityColumnSchemas =
      schema.primaryKeyColumnSchemas := by
  obtain ⟨marked, hcolumns, hreplicated, hidentities⟩ := exists_marks hreplication hidentity
  refine ⟨?_, ?_, ?_, ?_, ?_⟩
  · simp only [replicatedColumnCount, columnSchemas, hcolumns, hreplicated, zip_map', filterMap_map,
      filter_map, length_map]
    exact (length_filterMap_ite _ _ _).symm
  · simp only [identityColumnCount, identityColumnSchemas, hcolumns, hreplicated, hidentities,
      zip_map', filterMap_map, filter_map, length_map]
    exact (length_filterMap_ite _ _ _).symm
  · exact (length_filterMap_ite _ _ _).symm
  · -- A mark of the primary key is a mark of a replicated column.
    simp only [identityType, identityColumnSchemas, identityMatchesPrimaryKey,
      primaryKeyIdentityMask, hcolumns, hreplicated, hidentities, zip_map', filterMap_map, map_map,
      any_map, all_map, map_inj_left, ne_eq, filterMap_eq_nil_iff]
    grind
  · simp only [identityColumnSchemas, primaryKeyColumnSchemas, fromMask, primaryKeyIdentityMask,
      hcolumns, hreplicated, zip_map', map_map]
    simp

/-- A column of the identity is not replicated. -/
def partlyReplicated : ReplicatedTableSchema :=
  ⟨⟨1, ⟨"public", "users"⟩,
    [⟨"id", .int4, -1, 1, some 1, false⟩, ⟨"age", .int4, -1, 2, none, true⟩,
      ⟨"name", .text, -1, 3, none, true⟩], 0⟩, [true, false, true], [true, true, false]⟩

/-- The identity has a column outside of the replication mask. -/
theorem counts_and_identity_outside :
    partlyReplicated.replicatedColumnCount = partlyReplicated.columnSchemas.length ∧
    partlyReplicated.identityColumnCount = partlyReplicated.identityColumnSchemas.length ∧
    partlyReplicated.primaryKeyColumnCount = partlyReplicated.primaryKeyColumnSchemas.length ∧
    (partlyReplicated.identityType = .primaryKey ↔
      partlyReplicated.identityColumnSchemas ≠ [] ∧
        partlyReplicated.identityMatchesPrimaryKey = true) ∧
    (fromMask partlyReplicated.tableSchema [true, false, true]).identityColumnSchemas =
      partlyReplicated.primaryKeyColumnSchemas :=
  @counts_and_identity partlyReplicated rfl rfl

end ReplicatedTableSchema

/-- A renamed column. -/
structure ColumnRename where
  oldName : String
  newName : String
  ordinalPosition : ℤ
  deriving DecidableEq, Repr

structure SchemaDiff where
  columnsToAdd : List ColumnSchema
  columnsToRemove : List ColumnSchema
  columnsToRename : List ColumnRename
  deriving DecidableEq, Repr

def SchemaDiff.isEmpty (diff : SchemaDiff) : Bool :=
  diff.columnsToAdd.isEmpty && diff.columnsToRemove.isEmpty && diff.columnsToRename.isEmpty

def columnsByPosition (columns : List ColumnSchema) : SortedMap ℤ ColumnSchema :=
  .ofValues ColumnSchema.ordinalPosition columns

def ReplicatedTableSchema.diff (schema newSchema : ReplicatedTableSchema) : SchemaDiff :=
  let oldColumns := columnsByPosition schema.columnSchemas
  let newColumns := columnsByPosition newSchema.columnSchemas
  { columnsToAdd := newColumns.entries.filterMap fun (ordinalPosition, column) =>
      if (oldColumns.get? ordinalPosition).isSome then none else some column
    columnsToRemove := oldColumns.entries.filterMap fun (ordinalPosition, oldColumn) =>
      if (newColumns.get? ordinalPosition).isSome then none else some oldColumn
    columnsToRename := oldColumns.entries.filterMap fun (ordinalPosition, oldColumn) =>
      match newColumns.get? ordinalPosition with
      | some newColumn =>
        if oldColumn.name ≠ newColumn.name then
          some ⟨oldColumn.name, newColumn.name, ordinalPosition⟩
        else none
      | none => none }

/-- The identity columns are replicated columns, in their order. -/
theorem identityColumnSchemas_sublist (schema : ReplicatedTableSchema) :
    schema.identityColumnSchemas.Sublist schema.columnSchemas := by
  have hsub : ∀ (columns : List ColumnSchema) (replication identity : List Bool),
      ((columns.zip (replication.zip identity)).filterMap fun column =>
        if column.2.1 && column.2.2 then some column.1 else none).Sublist
      ((columns.zip replication).filterMap fun column =>
        if column.2 then some column.1 else none) := by
    intro columns
    induction columns with
    | nil => simp
    | cons columnSchema columns ih =>
      rintro (_ | ⟨replicated, replication⟩) (_ | ⟨identity, identities⟩)
      · simp
      · simp
      · simp
      · have hrest := ih replication identities
        cases replicated <;> cases identity <;>
          simp only [zip_cons_cons]
        · exact hrest
        · exact hrest
        · exact hrest.cons _
        · exact hrest.cons_cons _
  exact hsub _ _ _

/-- What holds of the replicated columns of a table at any time: positions and names are
distinct. -/
structure ReplicatedTableSchema.Distinct (schema : ReplicatedTableSchema) : Prop where
  positions : (schema.columnSchemas.map ColumnSchema.ordinalPosition).Nodup
  names : (schema.columnSchemas.map ColumnSchema.name).Nodup

/-- What holds of the replicated columns of a table in the source's order: positions ascend and
names are distinct. -/
structure ReplicatedTableSchema.Ordered (schema : ReplicatedTableSchema) : Prop where
  positions : schema.columnSchemas.Pairwise fun a b => a.ordinalPosition < b.ordinalPosition
  names : (schema.columnSchemas.map ColumnSchema.name).Nodup

theorem ReplicatedTableSchema.Ordered.distinct {schema : ReplicatedTableSchema}
    (hschema : schema.Ordered) : schema.Distinct where
  positions := pairwise_map.mpr (hschema.positions.imp fun hlt => hlt.ne)
  names := hschema.names

section Diff

variable {old new : ReplicatedTableSchema} {columns : List ColumnSchema} {ordinalPosition : ℤ}
  {column : ColumnSchema}

theorem mem_columnsByPosition (hpositions : (columns.map ColumnSchema.ordinalPosition).Nodup) :
    (ordinalPosition, column) ∈ (columnsByPosition columns).entries ↔
      column ∈ columns ∧ ordinalPosition = column.ordinalPosition :=
  SortedMap.mem_ofValues hpositions

theorem get?_columnsByPosition_isSome
    (hpositions : (columns.map ColumnSchema.ordinalPosition).Nodup) :
    ((columnsByPosition columns).get? ordinalPosition).isSome = true ↔
      ∃ column ∈ columns, column.ordinalPosition = ordinalPosition := by
  rw [Option.isSome_iff_exists]
  refine exists_congr fun column => ?_
  rw [SortedMap.get?_eq_some_iff, mem_columnsByPosition hpositions]
  exact and_congr_right' eq_comm

theorem eq_of_ordinalPosition_eq (hpositions : (columns.map ColumnSchema.ordinalPosition).Nodup)
    {a b : ColumnSchema} (ha : a ∈ columns) (hb : b ∈ columns)
    (heq : a.ordinalPosition = b.ordinalPosition) : a = b :=
  inj_on_of_nodup_map hpositions ha hb heq

/-- The entries of one schema at positions the other does not have. -/
theorem mem_filterMap_columnsByPosition {columns others : List ColumnSchema}
    (hcolumns : (columns.map ColumnSchema.ordinalPosition).Nodup)
    (hothers : (others.map ColumnSchema.ordinalPosition).Nodup) :
    column ∈ ((columnsByPosition columns).entries.filterMap fun (ordinalPosition, column) =>
        if ((columnsByPosition others).get? ordinalPosition).isSome then none else some column) ↔
      column ∈ columns ∧
        ∀ other ∈ others, other.ordinalPosition ≠ column.ordinalPosition := by
  rw [mem_filterMap]
  constructor
  · rintro ⟨⟨ordinalPosition, entry⟩, hentry, hkept⟩
    obtain ⟨hmem, rfl⟩ := (mem_columnsByPosition hcolumns).mp hentry
    dsimp only at hkept
    split_ifs at hkept with hother
    cases hkept
    refine ⟨hmem, fun other hmem' heq => hother ?_⟩
    exact (get?_columnsByPosition_isSome hothers).mpr ⟨other, hmem', heq⟩
  · rintro ⟨hmem, hothers'⟩
    refine ⟨(column.ordinalPosition, column), (mem_columnsByPosition hcolumns).mpr ⟨hmem, rfl⟩, ?_⟩
    dsimp only
    rw [if_neg]
    rintro hother
    obtain ⟨other, hmem', heq⟩ := (get?_columnsByPosition_isSome hothers).mp hother
    exact hothers' other hmem' heq

/-- Such entries stay ordered by position. -/
theorem filterMap_columnsByPosition_sorted
    (hcolumns : (columns.map ColumnSchema.ordinalPosition).Nodup) (others : List ColumnSchema) :
    ((columnsByPosition columns).entries.filterMap fun (ordinalPosition, column) =>
      if ((columnsByPosition others).get? ordinalPosition).isSome then none
      else some column).Pairwise fun a b => a.ordinalPosition < b.ordinalPosition := by
  rw [pairwise_filterMap]
  refine (columnsByPosition columns).sorted.imp_of_mem ?_
  rintro ⟨positionA, a⟩ ⟨positionB, b⟩ ha hb hlt c hc d hd
  obtain ⟨-, rfl⟩ := (mem_columnsByPosition hcolumns).mp ha
  obtain ⟨-, rfl⟩ := (mem_columnsByPosition hcolumns).mp hb
  dsimp only at hc hd
  split_ifs at hc hd
  cases hc
  cases hd
  exact hlt

/-- The added columns are those at new positions. -/
theorem mem_columnsToAdd (hold : old.Distinct) (hnew : new.Distinct) :
    column ∈ (old.diff new).columnsToAdd ↔ column ∈ new.columnSchemas ∧
      ∀ oldColumn ∈ old.columnSchemas, oldColumn.ordinalPosition ≠ column.ordinalPosition :=
  mem_filterMap_columnsByPosition hnew.positions hold.positions

theorem columnsToAdd_sorted (old : ReplicatedTableSchema) (hnew : new.Distinct) :
    (old.diff new).columnsToAdd.Pairwise fun a b => a.ordinalPosition < b.ordinalPosition :=
  filterMap_columnsByPosition_sorted hnew.positions _

theorem columnsToAdd_names_nodup (hold : old.Distinct) (hnew : new.Distinct) :
    ((old.diff new).columnsToAdd.map ColumnSchema.name).Nodup := by
  have hnodup : (old.diff new).columnsToAdd.Nodup :=
    (columnsToAdd_sorted old hnew).imp fun hlt heq => absurd (heq ▸ hlt) (lt_irrefl _)
  refine hnodup.map_on fun a ha b hb heq => ?_
  exact inj_on_of_nodup_map hnew.names ((mem_columnsToAdd hold hnew).mp ha).1
    ((mem_columnsToAdd hold hnew).mp hb).1 heq

theorem mem_columnsToRemove (hold : old.Distinct) (hnew : new.Distinct) :
    column ∈ (old.diff new).columnsToRemove ↔ column ∈ old.columnSchemas ∧
      ∀ newColumn ∈ new.columnSchemas, newColumn.ordinalPosition ≠ column.ordinalPosition :=
  mem_filterMap_columnsByPosition hold.positions hnew.positions

theorem columnsToRemove_nodup (hold : old.Distinct) (new : ReplicatedTableSchema) :
    (old.diff new).columnsToRemove.Nodup :=
  (filterMap_columnsByPosition_sorted hold.positions _).imp
    fun hlt heq => absurd (heq ▸ hlt) (lt_irrefl _)

/-- The old columns that keep their position under another name, with that name. -/
def ReplicatedTableSchema.renamedColumns (old new : ReplicatedTableSchema) :
    List (ColumnSchema × String) :=
  (columnsByPosition old.columnSchemas).entries.filterMap fun (ordinalPosition, oldColumn) =>
    match (columnsByPosition new.columnSchemas).get? ordinalPosition with
    | some newColumn =>
      if oldColumn.name ≠ newColumn.name then some (oldColumn, newColumn.name) else none
    | none => none

theorem columnsToRename_eq (hold : old.Distinct) :
    (old.diff new).columnsToRename = (old.renamedColumns new).map fun (column, newName) =>
      ⟨column.name, newName, column.ordinalPosition⟩ := by
  rw [ReplicatedTableSchema.renamedColumns, map_filterMap]
  refine filterMap_congr fun ⟨ordinalPosition, column⟩ hentry => ?_
  obtain ⟨-, rfl⟩ := (mem_columnsByPosition hold.positions).mp hentry
  dsimp only
  split
  · split_ifs <;> simp
  · rfl

theorem mem_renamedColumns (hold : old.Distinct) (hnew : new.Distinct) {newName : String} :
    (column, newName) ∈ old.renamedColumns new ↔ column ∈ old.columnSchemas ∧
      column.name ≠ newName ∧ ∃ newColumn ∈ new.columnSchemas,
        newColumn.ordinalPosition = column.ordinalPosition ∧ newColumn.name = newName := by
  rw [ReplicatedTableSchema.renamedColumns, mem_filterMap]
  constructor
  · rintro ⟨⟨ordinalPosition, entry⟩, hentry, hkept⟩
    obtain ⟨hmem, rfl⟩ := (mem_columnsByPosition hold.positions).mp hentry
    dsimp only at hkept
    split at hkept
    · rename_i newColumn hget
      obtain ⟨hnewMem, hposition⟩ :=
        (mem_columnsByPosition hnew.positions).mp (SortedMap.get?_eq_some_iff.mp hget)
      split_ifs at hkept with hname
      cases hkept
      exact ⟨hmem, hname, newColumn, hnewMem, hposition.symm, rfl⟩
    · exact absurd hkept (by simp)
  · rintro ⟨hmem, hname, newColumn, hnewMem, hposition, rfl⟩
    refine ⟨(column.ordinalPosition, column),
      (mem_columnsByPosition hold.positions).mpr ⟨hmem, rfl⟩, ?_⟩
    have hget : (columnsByPosition new.columnSchemas).get? column.ordinalPosition =
        some newColumn :=
      SortedMap.get?_eq_some_iff.mpr
        ((mem_columnsByPosition hnew.positions).mpr ⟨hnewMem, hposition.symm⟩)
    dsimp only
    rw [hget]
    exact if_pos hname

theorem mem_columnsToRename (hold : old.Distinct) (hnew : new.Distinct) {rename : ColumnRename} :
    rename ∈ (old.diff new).columnsToRename ↔ ∃ column ∈ old.columnSchemas,
      ∃ newColumn ∈ new.columnSchemas, newColumn.ordinalPosition = column.ordinalPosition ∧
        column.name ≠ newColumn.name ∧
          rename = ⟨column.name, newColumn.name, column.ordinalPosition⟩ := by
  rw [columnsToRename_eq hold, mem_map]
  constructor
  · rintro ⟨⟨column, newName⟩, hmem, rfl⟩
    obtain ⟨hcolumn, hname, newColumn, hnewColumn, hposition, rfl⟩ :=
      (mem_renamedColumns hold hnew).mp hmem
    exact ⟨column, hcolumn, newColumn, hnewColumn, hposition, hname, rfl⟩
  · rintro ⟨column, hcolumn, newColumn, hnewColumn, hposition, hname, rfl⟩
    exact ⟨(column, newColumn.name), (mem_renamedColumns hold hnew).mpr
      ⟨hcolumn, hname, newColumn, hnewColumn, hposition, rfl⟩, rfl⟩

theorem renamedColumns_sorted (hold : old.Distinct) (new : ReplicatedTableSchema) :
    (old.renamedColumns new).Pairwise
      fun a b => a.1.ordinalPosition < b.1.ordinalPosition := by
  rw [ReplicatedTableSchema.renamedColumns, pairwise_filterMap]
  refine (columnsByPosition old.columnSchemas).sorted.imp_of_mem ?_
  rintro ⟨positionA, a⟩ ⟨positionB, b⟩ ha hb hlt c hc d hd
  obtain ⟨-, rfl⟩ := (mem_columnsByPosition hold.positions).mp ha
  obtain ⟨-, rfl⟩ := (mem_columnsByPosition hold.positions).mp hb
  have hfirst : ∀ {column : ColumnSchema} {renamed : ColumnSchema × String},
      (match (columnsByPosition new.columnSchemas).get? column.ordinalPosition with
        | some newColumn =>
          if column.name ≠ newColumn.name then some (column, newColumn.name) else none
        | none => none) = some renamed → renamed.1 = column := by
    intro column renamed hrenamed
    split at hrenamed
    · split_ifs at hrenamed
      exact (congrArg Prod.fst (Option.some.inj hrenamed)).symm
    · exact absurd hrenamed (by simp)
  rw [hfirst hc, hfirst hd]
  exact hlt

theorem renamedColumns_fst_nodup (hold : old.Distinct) (new : ReplicatedTableSchema) :
    ((old.renamedColumns new).map Prod.fst).Nodup := by
  rw [List.Nodup, pairwise_map]
  exact (renamedColumns_sorted hold new).imp
    fun hlt heq => absurd hlt (by rw [heq]; exact lt_irrefl _)

/-- New names are distinct, so no two columns are renamed to one name. -/
theorem renamedColumns_snd_nodup (hold : old.Distinct) (hnew : new.Distinct) :
    ((old.renamedColumns new).map Prod.snd).Nodup := by
  rw [List.Nodup, pairwise_map]
  refine (renamedColumns_sorted hold new).imp_of_mem ?_
  rintro ⟨a, nameA⟩ ⟨b, nameB⟩ ha hb hlt rfl
  obtain ⟨-, -, newA, hnewA, hpositionA, hnameA⟩ := (mem_renamedColumns hold hnew).mp ha
  obtain ⟨-, -, newB, hnewB, hpositionB, hnameB⟩ := (mem_renamedColumns hold hnew).mp hb
  have heq : newA = newB :=
    inj_on_of_nodup_map hnew.names hnewA hnewB (hnameA.trans hnameB.symm)
  rw [← hpositionA, ← hpositionB, heq] at hlt
  exact lt_irrefl _ hlt

end Diff

end Etl
