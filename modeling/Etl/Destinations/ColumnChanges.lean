import Etl.Common.NamedColumns
import Etl.Types.SchemaDiff

/-! # Columns through a schema diff

What a diff does to the columns of a table, whatever statements a destination sends for it: which
columns survive, which names they end with, and when a sequence of renames and removals that
addresses columns by name goes through.
-/

namespace Etl

open List

open NamedColumns

section Change

variable {old new : ReplicatedTableSchema}

theorem injOn_name_of_noClash (hold : old.Distinct) (hnew : new.Distinct)
    (hadds : ∀ column ∈ (old.diff new).columnsToAdd, ∀ oldColumn ∈ old.columnSchemas,
      oldColumn.name ≠ column.name) :
    Set.InjOn ColumnSchema.name
      {column | column ∈ old.columnSchemas ++ (old.diff new).columnsToAdd} := by
  intro a ha b hb heq
  rcases mem_append.mp ha with ha | ha <;> rcases mem_append.mp hb with hb | hb
  · exact inj_on_of_nodup_map hold.names ha hb heq
  · exact absurd heq (hadds b hb a ha)
  · exact absurd heq.symm (hadds a ha b hb)
  · exact inj_on_of_nodup_map hnew.names ((mem_columnsToAdd hold hnew).mp ha).1
      ((mem_columnsToAdd hold hnew).mp hb).1 heq

/-- The renames of a diff go through when every column named like a target is renamed before. -/
theorem freshRun_renamedColumns_iff (hold : old.Distinct) (hnew : new.Distinct) :
    FreshRun (old.columnSchemas ++ (old.diff new).columnsToAdd) ColumnSchema.name
        (old.renamedColumns new) ↔
      ∀ rename ∈ (old.diff new).columnsToRename, ∀ oldColumn ∈ old.columnSchemas,
        oldColumn.name = rename.newName →
          ∃ earlier ∈ (old.diff new).columnsToRename,
            earlier.ordinalPosition = oldColumn.ordinalPosition ∧
              earlier.ordinalPosition < rename.ordinalPosition := by
  have hsorted := renamedColumns_sorted hold new
  rw [freshRun_iff (renamedColumns_snd_nodup hold hnew), columnsToRename_eq hold]
  constructor
  · intro hfresh rename hrename oldColumn holdColumn hname
    obtain ⟨⟨column, newName⟩, hmem, rfl⟩ := mem_map.mp hrename
    obtain ⟨before, after, hsplit⟩ := append_of_mem hmem
    have hbefore : oldColumn ∈ before.map Prod.fst := by
      by_contra hnot
      exact hfresh before _ after hsplit oldColumn (mem_append_left _ holdColumn) hnot hname
    obtain ⟨⟨earlier, earlierName⟩, hearlier, rfl⟩ := mem_map.mp hbefore
    rw [hsplit, pairwise_append] at hsorted
    have hlt := hsorted.2.2 _ hearlier _ mem_cons_self
    refine ⟨_, mem_map.mpr ⟨(earlier, earlierName), ?_, rfl⟩, rfl, hlt⟩
    rw [hsplit]
    exact mem_append_left _ hearlier
  · intro hearlier before rename after hsplit column hcolumn hbefore hname
    obtain ⟨renamedColumn, newName⟩ := rename
    have hmem : (renamedColumn, newName) ∈ old.renamedColumns new := by rw [hsplit]; simp
    obtain ⟨hrenamedOld, -, newColumn, hnewColumn, hposition, hnewName⟩ :=
      (mem_renamedColumns hold hnew).mp hmem
    rcases mem_append.mp hcolumn with holdColumn | hadded
    · -- An old column of that name was renamed at a smaller position, so before this one.
      obtain ⟨_, hfirst, heq, hlt⟩ := hearlier _ (mem_map.mpr ⟨_, hmem, rfl⟩) column holdColumn
        hname
      obtain ⟨⟨earlier, earlierName⟩, hearlierMem, rfl⟩ := mem_map.mp hfirst
      obtain rfl : earlier = column := eq_of_ordinalPosition_eq hold.positions
        ((mem_renamedColumns hold hnew).mp hearlierMem).1 holdColumn heq
      rw [hsplit, mem_append] at hearlierMem
      rcases hearlierMem with hin | hin
      · exact hbefore (mem_map.mpr ⟨_, hin, rfl⟩)
      · rw [hsplit, pairwise_append, pairwise_cons] at hsorted
        rcases mem_cons.mp hin with heq | hafter
        · obtain ⟨rfl, -⟩ := Prod.mk.inj heq
          exact lt_irrefl _ hlt
        · exact lt_asymm hlt (hsorted.2.1.1 _ hafter)
    · -- An added column of that name would be the renamed column itself.
      obtain ⟨haddedNew, hfresh⟩ := (mem_columnsToAdd hold hnew).mp hadded
      have heq : newColumn = column :=
        inj_on_of_nodup_map hnew.names hnewColumn haddedNew (hnewName.trans hname.symm)
      exact hfresh renamedColumn hrenamedOld (heq ▸ hposition.symm)

/-- The name a surviving column ends with is the name of the new column at its position. -/
theorem renameAll_name_eq (hold : old.Distinct) (hnew : new.Distinct)
    {column newColumn : ColumnSchema}
    (hcolumn : column ∈ old.columnSchemas ++ (old.diff new).columnsToAdd)
    (hnewColumn : newColumn ∈ new.columnSchemas)
    (hposition : newColumn.ordinalPosition = column.ordinalPosition) :
    renameAll ColumnSchema.name (old.renamedColumns new) column = newColumn.name := by
  by_cases hrenamed : (column, newColumn.name) ∈ old.renamedColumns new
  · exact renameAll_of_mem (renamedColumns_fst_nodup hold new) hrenamed
  · have hnot : column ∉ (old.renamedColumns new).map Prod.fst := by
      intro hin
      obtain ⟨⟨_, newName⟩, hmem, rfl⟩ := mem_map.mp hin
      obtain ⟨-, -, other, hother, hotherPosition, rfl⟩ := (mem_renamedColumns hold hnew).mp hmem
      rw [eq_of_ordinalPosition_eq hnew.positions hnewColumn hother
        (hposition.trans hotherPosition.symm)] at hrenamed
      exact hrenamed hmem
    rw [renameAll_of_not_mem hnot]
    rcases mem_append.mp hcolumn with holdColumn | hadded
    · by_contra hname
      exact hrenamed ((mem_renamedColumns hold hnew).mpr
        ⟨holdColumn, hname, newColumn, hnewColumn, hposition, rfl⟩)
    · rw [eq_of_ordinalPosition_eq hnew.positions hnewColumn
        ((mem_columnsToAdd hold hnew).mp hadded).1 hposition]

/-- The columns that are not removed. -/
theorem mem_surviving_iff (hold : old.Distinct) (hnew : new.Distinct) {column : ColumnSchema} :
    column ∈ (old.columnSchemas ++ (old.diff new).columnsToAdd).filter
        (· ∉ (old.diff new).columnsToRemove) ↔
      column ∈ old.columnSchemas ++ (old.diff new).columnsToAdd ∧
        ∃ newColumn ∈ new.columnSchemas,
          newColumn.ordinalPosition = column.ordinalPosition := by
  rw [mem_filter]
  refine and_congr_right fun hcolumn => ?_
  rw [decide_eq_true_iff, mem_columnsToRemove hold hnew]
  constructor
  · intro hkept
    by_contra hgone
    push Not at hgone
    rcases mem_append.mp hcolumn with holdColumn | hadded
    · exact hkept ⟨holdColumn, hgone⟩
    · exact hgone column ((mem_columnsToAdd hold hnew).mp hadded).1 rfl
  · rintro ⟨newColumn, hnewColumn, hposition⟩ ⟨-, hgone⟩
    exact hgone newColumn hnewColumn hposition

/-- The column of the changed table at the position of a new column: an old one, or the added
column itself. -/
theorem exists_surviving (hold : old.Distinct) (hnew : new.Distinct) {newColumn : ColumnSchema}
    (hnewColumn : newColumn ∈ new.columnSchemas) :
    ∃ column ∈ (old.columnSchemas ++ (old.diff new).columnsToAdd).filter
        (· ∉ (old.diff new).columnsToRemove),
      newColumn.ordinalPosition = column.ordinalPosition := by
  suffices h : ∃ column ∈ old.columnSchemas ++ (old.diff new).columnsToAdd,
      newColumn.ordinalPosition = column.ordinalPosition by
    obtain ⟨column, hmem, hposition⟩ := h
    exact ⟨column, (mem_surviving_iff hold hnew).mpr ⟨hmem, newColumn, hnewColumn, hposition⟩,
      hposition⟩
  by_cases hsurvives : ∃ column ∈ old.columnSchemas,
      column.ordinalPosition = newColumn.ordinalPosition
  · obtain ⟨column, hcolumn, hposition⟩ := hsurvives
    exact ⟨column, mem_append_left _ hcolumn, hposition.symm⟩
  · push Not at hsurvives
    exact ⟨newColumn, mem_append_right _
      ((mem_columnsToAdd hold hnew).mpr ⟨hnewColumn, hsurvives⟩), rfl⟩

theorem positions_nodup (hold : old.Distinct) (hnew : new.Distinct) :
    ((old.columnSchemas ++ (old.diff new).columnsToAdd).map ColumnSchema.ordinalPosition).Nodup := by
  rw [map_append, nodup_append']
  refine ⟨hold.positions, ?_, ?_⟩
  · exact pairwise_map.mpr ((columnsToAdd_sorted old hnew).imp fun hlt => hlt.ne)
  · intro position hposition hadded
    obtain ⟨oldColumn, holdColumn, rfl⟩ := mem_map.mp hposition
    obtain ⟨column, hcolumn, heq⟩ := mem_map.mp hadded
    exact ((mem_columnsToAdd hold hnew).mp hcolumn).2 oldColumn holdColumn heq.symm

/-- Renames and removals by name, on a table with all old columns under distinct names: they go
through when every target is free at its turn. -/
theorem foldlM_renames_drops_eq_some_iff {D : Type} (hold : old.Distinct) (hnew : new.Distinct)
    {renameStep : String → String → List (String × D) → Option (List (String × D))}
    {dropStep : String → List (String × D) → Option (List (String × D))}
    (hrename : RenamesFound renameStep) (hdrop : DropsFound dropStep) {ids : List ColumnSchema}
    (hids : ∀ column ∈ old.columnSchemas, column ∈ ids)
    (hname : Set.InjOn ColumnSchema.name {column | column ∈ ids}) {held : ColumnSchema → D}
    {table : List (String × D)} :
    (((old.diff new).columnsToRename.foldlM
        (fun table rename => renameStep rename.oldName rename.newName table)
        (named ids ColumnSchema.name held)).bind fun table =>
      (old.diff new).columnsToRemove.foldlM (fun table column => dropStep column.name table) table) =
        some table ↔
      FreshRun ids ColumnSchema.name (old.renamedColumns new) ∧
        table = named (ids.filter (· ∉ (old.diff new).columnsToRemove))
          (renameAll ColumnSchema.name (old.renamedColumns new)) held := by
  have hrenames : ∀ start, (old.diff new).columnsToRename.foldlM
      (fun table rename => renameStep rename.oldName rename.newName table) start =
      ((old.renamedColumns new).map fun rename => (rename.1.name, rename.2)).foldlM
        (fun table rename => renameStep rename.1 rename.2 table) start := by
    intro start
    rw [columnsToRename_eq hold, foldlM_map, foldlM_map]
  -- A removed column is not renamed, so it is dropped under its old name.
  have hdrops : ∀ start, (old.diff new).columnsToRemove.foldlM
      (fun table column => dropStep column.name table) start =
      ((old.diff new).columnsToRemove.map
        (renameAll ColumnSchema.name (old.renamedColumns new))).foldlM
          (fun table name => dropStep name table) start := by
    intro start
    have hnames : (old.diff new).columnsToRemove.map
        (renameAll ColumnSchema.name (old.renamedColumns new)) =
        (old.diff new).columnsToRemove.map ColumnSchema.name := by
      refine map_congr_left fun column hcolumn => renameAll_of_not_mem fun hrenamed => ?_
      obtain ⟨⟨_, newName⟩, hmem, rfl⟩ := mem_map.mp hrenamed
      obtain ⟨-, -, newColumn, hnewColumn, hposition, -⟩ := (mem_renamedColumns hold hnew).mp hmem
      exact ((mem_columnsToRemove hold hnew).mp hcolumn).2 newColumn hnewColumn hposition
    rw [hnames, foldlM_map]
  have hfound : ∀ rename ∈ old.renamedColumns new, rename.1 ∈ ids := fun rename hrename =>
    hids _ ((mem_renamedColumns hold hnew).mp hrename).1
  have hdropFound : ∀ column ∈ (old.diff new).columnsToRemove, column ∈ ids :=
    fun column hcolumn => hids _ ((mem_columnsToRemove hold hnew).mp hcolumn).1
  rw [hrenames, Option.bind_eq_some_iff]
  constructor
  · rintro ⟨renamed, hrenamed, hdropped⟩
    obtain ⟨hfresh, rfl⟩ := (foldlM_rename_eq_some_iff hrename
      (renamedColumns_fst_nodup hold new) hfound hname).mp hrenamed
    rw [hdrops, foldlM_drop hdrop (columnsToRemove_nodup hold new) hdropFound
      (hfresh.injOn hname)] at hdropped
    exact ⟨hfresh, (Option.some.inj hdropped).symm⟩
  · rintro ⟨hfresh, rfl⟩
    refine ⟨_, (foldlM_rename_eq_some_iff hrename (renamedColumns_fst_nodup hold new) hfound
      hname).mpr ⟨hfresh, rfl⟩, ?_⟩
    rw [hdrops]
    exact foldlM_drop hdrop (columnsToRemove_nodup hold new) hdropFound (hfresh.injOn hname)

end Change

end Etl
