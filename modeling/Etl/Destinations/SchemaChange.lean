import Etl.Destinations.ColumnChanges

/-! # Applying a schema diff

Reference: `etl-destinations/src/snowflake/client.rs` (`apply_schema_diff`) and
`etl-destinations/src/bigquery/core.rs` (`apply_schema_diff`), whose calls are in
`Etl.Destinations.BigQuery.Prepare`.

BigQuery and Snowflake apply a schema diff with one statement per change: all additions, then all
renames in order of position, then all removals. Their statements fail when a column they add or
rename to exists, or one they rename or drop does not. A destination table is its columns with
what they hold; only the names and the identity of the held data matter here.

The order of the statements lets names clash that are free in the end: a column dropped and added
again under its name, an addition under the old name of a renamed column, and renames whose target
is still carried by a column renamed later (`NoNameClash`). Without such a clash the table ends
with exactly the new columns, each surviving one with its own data
(`applyColumnChanges_eq_new_iff`).
-/

namespace Etl

open List

open NamedColumns

variable {δ : Type}

/-- Adds a column. -/
def addColumn (blank : δ) (name : String) (table : List (String × δ)) :
    Option (List (String × δ)) :=
  if hasName name table then none else some (table ++ [(name, blank)])

/-- Renames a column. -/
def renameColumn (oldName newName : String) (table : List (String × δ)) :
    Option (List (String × δ)) :=
  if hasName oldName table && !hasName newName table then some (renamed oldName newName table)
  else none

/-- Drops a column. -/
def dropColumn (name : String) (table : List (String × δ)) : Option (List (String × δ)) :=
  if hasName name table then some (dropped name table) else none

/-- The statements for a diff, in the order both destinations run them. -/
def applyColumnChanges (blank : ColumnSchema → δ) (diff : SchemaDiff) (table : List (String × δ)) :
    Option (List (String × δ)) :=
  if diff.isEmpty then some table
  else do
    let table ← diff.columnsToAdd.foldlM
      (fun table column => addColumn (blank column) column.name table) table
    let table ← diff.columnsToRename.foldlM
      (fun table rename => renameColumn rename.oldName rename.newName table) table
    diff.columnsToRemove.foldlM (fun table column => dropColumn column.name table) table

/-- The statements of Snowflake, which quotes every name. -/
def Snowflake.applySchemaDiff (blank : ColumnSchema → δ) (diff : SchemaDiff)
    (table : List (String × δ)) : Option (List (String × δ)) :=
  applyColumnChanges blank diff table

/-- No statement meets a taken name: additions avoid all old names, and a column whose old name is
a rename's target is itself renamed before. -/
def NoNameClash (old new : ReplicatedTableSchema) : Prop :=
  (∀ column ∈ (old.diff new).columnsToAdd, ∀ oldColumn ∈ old.columnSchemas,
      oldColumn.name ≠ column.name) ∧
    ∀ rename ∈ (old.diff new).columnsToRename, ∀ oldColumn ∈ old.columnSchemas,
      oldColumn.name = rename.newName →
        ∃ earlier ∈ (old.diff new).columnsToRename,
          earlier.ordinalPosition = oldColumn.ordinalPosition ∧
            earlier.ordinalPosition < rename.ordinalPosition

instance (old new : ReplicatedTableSchema) : Decidable (NoNameClash old new) :=
  inferInstanceAs (Decidable (_ ∧ _))

/-- What a column of either schema holds after the change: its data if the position was there
before. -/
def heldAfter (old : ReplicatedTableSchema) (data : ℤ → δ) (blank : ColumnSchema → δ)
    (column : ColumnSchema) : δ :=
  if old.columnSchemas.any (·.ordinalPosition = column.ordinalPosition) then
    data column.ordinalPosition
  else blank column

def tableOf (schema : ReplicatedTableSchema) (held : ColumnSchema → δ) : List (String × δ) :=
  named schema.columnSchemas ColumnSchema.name held

/-! ## The statements -/

theorem renamesFound_renameColumn : RenamesFound (renameColumn (δ := δ)) := by
  intro old new table hold
  rw [renameColumn, hold]
  cases hasName new table <;> rfl

theorem dropsFound_dropColumn : DropsFound (dropColumn (δ := δ)) := by
  intro n table hn
  rw [dropColumn, if_pos hn]

/-- An empty diff runs no statements. -/
theorem applyColumnChanges_eq (blank : ColumnSchema → δ) (diff : SchemaDiff)
    (table : List (String × δ)) :
    applyColumnChanges blank diff table =
      (diff.columnsToAdd.foldlM
        (fun table column => addColumn (blank column) column.name table) table).bind fun table =>
        (diff.columnsToRename.foldlM
          (fun table rename => renameColumn rename.oldName rename.newName table) table).bind
            fun table =>
              diff.columnsToRemove.foldlM (fun table column => dropColumn column.name table)
                table := by
  rw [applyColumnChanges]
  split_ifs with hempty
  · simp only [SchemaDiff.isEmpty, Bool.and_eq_true, List.isEmpty_iff] at hempty
    obtain ⟨⟨hadd, hremove⟩, hrename⟩ := hempty
    rw [hadd, hremove, hrename]
    rfl
  · rfl

/-! ## The table after a change -/

section Change

variable {old new : ReplicatedTableSchema}

/-- Without removed columns and under their last names, the columns are those of the new
schema. -/
theorem named_surviving_perm (hold : old.Distinct) (hnew : new.Distinct)
    (hname : Set.InjOn (renameAll ColumnSchema.name (old.renamedColumns new))
      {column | column ∈ old.columnSchemas ++ (old.diff new).columnsToAdd})
    (data : ℤ → δ) (blank : ColumnSchema → δ) :
    (named ((old.columnSchemas ++ (old.diff new).columnsToAdd).filter
        (· ∉ (old.diff new).columnsToRemove))
      (renameAll ColumnSchema.name (old.renamedColumns new)) (heldAfter old data blank)).Perm
      (tableOf new (heldAfter old data blank)) := by
  have hheld {column newColumn : ColumnSchema}
      (hcolumn : column ∈ old.columnSchemas ++ (old.diff new).columnsToAdd)
      (hnewColumn : newColumn ∈ new.columnSchemas)
      (heq : column.ordinalPosition = newColumn.ordinalPosition) :
      heldAfter old data blank column = heldAfter old data blank newColumn := by
    rw [heldAfter, heldAfter, ← heq]
    split_ifs with hposition
    · rfl
    · -- a column without its position in the old schema is the new column itself
      obtain hcolumn | hcolumn := mem_append.mp hcolumn
      · exact absurd (any_eq_true.mpr ⟨column, hcolumn, by simp⟩) hposition
      · rw [eq_of_ordinalPosition_eq hnew.positions ((mem_columnsToAdd hold hnew).mp hcolumn).1
          hnewColumn heq]
  have hnodup := List.Nodup.of_map _ (positions_nodup hold hnew)
  have hleft : (named ((old.columnSchemas ++ (old.diff new).columnsToAdd).filter
        (· ∉ (old.diff new).columnsToRemove))
      (renameAll ColumnSchema.name (old.renamedColumns new)) (heldAfter old data blank)).Nodup := by
    refine (hnodup.filter _).map_on fun a ha b hb heq => ?_
    exact hname (mem_of_mem_filter ha) (mem_of_mem_filter hb) (congrArg Prod.fst heq)
  have hright : (tableOf new (heldAfter old data blank)).Nodup := by
    refine List.Nodup.of_map Prod.fst ?_
    rw [tableOf, named, map_map]
    exact hnew.names
  refine (perm_ext_iff_of_nodup hleft hright).mpr fun entry => ?_
  rw [tableOf, named, named, mem_map, mem_map]
  constructor
  · rintro ⟨column, hcolumn, rfl⟩
    obtain ⟨hmem, newColumn, hnewColumn, hposition⟩ := (mem_surviving_iff hold hnew).mp hcolumn
    refine ⟨newColumn, hnewColumn, ?_⟩
    rw [renameAll_name_eq hold hnew hmem hnewColumn hposition, hheld hmem hnewColumn hposition.symm]
  · rintro ⟨newColumn, hnewColumn, rfl⟩
    obtain ⟨column, hcolumn, hposition⟩ := exists_surviving hold hnew hnewColumn
    refine ⟨column, hcolumn, ?_⟩
    have hmem := ((mem_surviving_iff hold hnew).mp hcolumn).1
    rw [renameAll_name_eq hold hnew hmem hnewColumn hposition, hheld hmem hnewColumn hposition.symm]

/-- The statements of a diff go through exactly when no name clashes. -/
theorem applyColumnChanges_eq_some_iff (hold : old.Distinct) (hnew : new.Distinct) (data : ℤ → δ)
    (blank : ColumnSchema → δ) {table : List (String × δ)} :
    applyColumnChanges blank (old.diff new) (tableOf old fun column => data column.ordinalPosition)
        = some table ↔
      NoNameClash old new ∧
        table = named ((old.columnSchemas ++ (old.diff new).columnsToAdd).filter
            (· ∉ (old.diff new).columnsToRemove))
          (renameAll ColumnSchema.name (old.renamedColumns new)) (heldAfter old data blank) := by
  have hstart : tableOf old (fun column => data column.ordinalPosition) =
      named old.columnSchemas ColumnSchema.name (heldAfter old data blank) := by
    refine map_congr_left fun column hcolumn => ?_
    have hposition : old.columnSchemas.any (·.ordinalPosition = column.ordinalPosition) = true :=
      any_eq_true.mpr ⟨column, hcolumn, by simp⟩
    rw [heldAfter, if_pos hposition]
  have hblank : ∀ column ∈ (old.diff new).columnsToAdd,
      heldAfter old data blank column = blank column := by
    intro column hcolumn
    have hposition : ¬ old.columnSchemas.any (·.ordinalPosition = column.ordinalPosition) = true := by
      rw [any_eq_true]
      rintro ⟨oldColumn, holdColumn, heq⟩
      exact ((mem_columnsToAdd hold hnew).mp hcolumn).2 oldColumn holdColumn (by simpa using heq)
    rw [heldAfter, if_neg hposition]
  rw [applyColumnChanges_eq, hstart, NoNameClash, ← freshRun_renamedColumns_iff hold hnew,
    Option.bind_eq_some_iff]
  have hids : ∀ column ∈ old.columnSchemas,
      column ∈ old.columnSchemas ++ (old.diff new).columnsToAdd := fun column hcolumn =>
    mem_append_left _ hcolumn
  have happend {table : List (String × δ)} :
      (old.diff new).columnsToAdd.foldlM
          (fun table column => addColumn (blank column) column.name table)
          (named old.columnSchemas ColumnSchema.name (heldAfter old data blank)) = some table ↔
        (∀ i ∈ (old.diff new).columnsToAdd, ∀ j ∈ old.columnSchemas, j.name ≠ i.name) ∧
          table = named (old.columnSchemas ++ (old.diff new).columnsToAdd) ColumnSchema.name
            (heldAfter old data blank) :=
    foldlM_append_eq_some_iff (fun _ _ => rfl) (columnsToAdd_names_nodup hold hnew) hblank
  constructor
  · rintro ⟨added, hadded, hchanged⟩
    obtain ⟨hadds, rfl⟩ := happend.mp hadded
    obtain ⟨hfresh, htable⟩ := (foldlM_renames_drops_eq_some_iff hold hnew
      renamesFound_renameColumn dropsFound_dropColumn hids
      (injOn_name_of_noClash hold hnew hadds)).mp hchanged
    exact ⟨⟨hadds, hfresh⟩, htable⟩
  · rintro ⟨⟨hadds, hfresh⟩, htable⟩
    exact ⟨_, happend.mpr ⟨hadds, rfl⟩,
      (foldlM_renames_drops_eq_some_iff hold hnew renamesFound_renameColumn dropsFound_dropColumn
        hids (injOn_name_of_noClash hold hnew hadds)).mpr ⟨hfresh, htable⟩⟩

/-- Applying a diff runs through and leaves the columns of the new schema, with the surviving
columns' data, exactly when no name clashes. -/
theorem applyColumnChanges_eq_new_iff (hold : old.Distinct) (hnew : new.Distinct) (data : ℤ → δ)
    (blank : ColumnSchema → δ) :
    (∃ table,
      applyColumnChanges blank (old.diff new)
          (tableOf old fun column => data column.ordinalPosition) = some table ∧
        table.Perm (tableOf new (heldAfter old data blank))) ↔ NoNameClash old new := by
  constructor
  · rintro ⟨table, happly, -⟩
    exact ((applyColumnChanges_eq_some_iff hold hnew data blank).mp happly).1
  · intro hclash
    refine ⟨_, (applyColumnChanges_eq_some_iff hold hnew data blank).mpr ⟨hclash, rfl⟩, ?_⟩
    have hfresh := (freshRun_renamedColumns_iff hold hnew).mpr hclash.2
    exact named_surviving_perm hold hnew
      (hfresh.injOn (injOn_name_of_noClash hold hnew hclash.1)) data blank

end Change

/-- A replicated schema with all given columns. -/
def schemaWith (columns : List (String × ℤ)) : ReplicatedTableSchema :=
  .fromMask ⟨1, ⟨"public", "users"⟩,
    columns.map fun (name, ordinalPosition) => ⟨name, .text, -1, ordinalPosition, none, true⟩, 0⟩
    (columns.map fun _ => true)

end Etl
