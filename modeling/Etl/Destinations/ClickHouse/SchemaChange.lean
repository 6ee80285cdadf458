import Etl.Destinations.ClickHouse.Server
import Etl.Destinations.SchemaChange

/-! # Applying a schema diff to a ClickHouse table

Rows are encoded by position, so after a schema change the columns of the table must stand in the
order of the new schema, user columns first. Additions are chained behind the last user column of
the old schema, and the conditional form of the statements hides a name that is already taken:
the columns end up as expected exactly when every added name is new to the table and every added
column comes behind all columns that stay (`AddsBehind`, `columns_eq_expected_iff`).

Reference: `etl-destinations/src/clickhouse/core.rs` (`apply_schema_diff`).
-/

namespace Etl.ClickHouse

open List ColumnSchema Destination

open NamedColumns

/-- The additions, each placed behind the one before. -/
def addColumnAlters (lastUserColumn : Option String) : List ColumnSchema → List ColumnAlter
  | [] => []
  | column :: columns =>
    .addColumn column.name (clickhouseColumnType column true) lastUserColumn ::
      addColumnAlters (some column.name) columns

/-- Rebuilds the current-state view. -/
def refreshCurrentView (clickhouseTableName : String) (schema : ReplicatedTableSchema) :
    Calls EtlError Destination Unit := do
  executeDdl clickhouseTableName .dropView
  executeDdl clickhouseTableName (.createView (schema.columnSchemas.map ColumnSchema.name))

/-- Applies a diff to a table. -/
def applySchemaDiff (engine : ClickHouseEngine) (clickhouseTableName : String) (diff : SchemaDiff)
    (currentSchema newSchema : ReplicatedTableSchema) : Calls EtlError Destination Unit := do
  if diff.isEmpty then
    if engine = .replacingMergeTree then refreshCurrentView clickhouseTableName newSchema
  else
    if engine = .replacingMergeTree then
      .ofExcept (rejectPkAltersUnderReplacingMergeTree clickhouseTableName diff currentSchema)
    let lastUserColumn := currentSchema.columnSchemas.getLast?.map ColumnSchema.name
    forM (addColumnAlters lastUserColumn diff.columnsToAdd) fun change =>
      executeDdl clickhouseTableName (.alter change)
    forM diff.columnsToRename fun rename =>
      executeDdl clickhouseTableName (.alter (.renameColumn rename.oldName rename.newName))
    forM diff.columnsToRemove fun column =>
      executeDdl clickhouseTableName (.alter (.dropColumn column.name))
    if engine = .replacingMergeTree then refreshCurrentView clickhouseTableName newSchema

/-! ## The statements -/

/-- The renames, then the removals. -/
def renameAndDropAlters (diff : SchemaDiff) : List ColumnAlter :=
  diff.columnsToRename.map (fun rename => .renameColumn rename.oldName rename.newName) ++
    diff.columnsToRemove.map fun column => .dropColumn column.name

def schemaDiffAlters (diff : SchemaDiff) (currentSchema : ReplicatedTableSchema) :
    List ColumnAlter :=
  addColumnAlters (currentSchema.columnSchemas.getLast?.map ColumnSchema.name) diff.columnsToAdd ++
    renameAndDropAlters diff

/-- The statements that rebuild the view. -/
def viewStatements (engine : ClickHouseEngine) (newSchema : ReplicatedTableSchema) : List Ddl :=
  if engine = .replacingMergeTree then
    [.dropView, .createView (newSchema.columnSchemas.map ColumnSchema.name)]
  else []

/-- All statements of a diff. -/
def schemaDiffStatements (engine : ClickHouseEngine) (diff : SchemaDiff)
    (currentSchema newSchema : ReplicatedTableSchema) : List Ddl :=
  (schemaDiffAlters diff currentSchema).map Ddl.alter ++ viewStatements engine newSchema

/-- The check before the statements. -/
def rejectAlters (engine : ClickHouseEngine) (clickhouseTableName : String) (diff : SchemaDiff)
    (currentSchema : ReplicatedTableSchema) : EtlResult Unit :=
  if engine = .replacingMergeTree then
    rejectPkAltersUnderReplacingMergeTree clickhouseTableName diff currentSchema
  else .ok ()

/-- A diff is applied by a check and a list of statements; an empty one has no changes of
columns. -/
theorem applySchemaDiff_eq (engine : ClickHouseEngine) (clickhouseTableName : String)
    (diff : SchemaDiff) (currentSchema newSchema : ReplicatedTableSchema) :
    applySchemaDiff engine clickhouseTableName diff currentSchema newSchema =
      (do
        .ofExcept (rejectAlters engine clickhouseTableName diff currentSchema)
        forM (schemaDiffStatements engine diff currentSchema newSchema)
          (executeDdl clickhouseTableName)) := by
  have hview : forM (viewStatements engine newSchema) (executeDdl clickhouseTableName) =
      (if engine = .replacingMergeTree then refreshCurrentView clickhouseTableName newSchema
        else pure ()) := by
    rw [viewStatements]
    split_ifs
    · simp [refreshCurrentView]
    · rfl
  unfold applySchemaDiff
  split_ifs with hempty hengine hengine
  · simp only [SchemaDiff.isEmpty, Bool.and_eq_true, List.isEmpty_iff] at hempty
    obtain ⟨⟨hadd, hremove⟩, hrename⟩ := hempty
    simp only [schemaDiffStatements, schemaDiffAlters, renameAndDropAlters, hadd, hremove, hrename, addColumnAlters,
      List.map_nil, List.nil_append, hview, if_pos hengine, rejectAlters,
      rejectPkAltersUnderReplacingMergeTree]
    rfl
  · simp only [SchemaDiff.isEmpty, Bool.and_eq_true, List.isEmpty_iff] at hempty
    obtain ⟨⟨hadd, hremove⟩, hrename⟩ := hempty
    simp only [schemaDiffStatements, schemaDiffAlters, renameAndDropAlters, hadd, hremove, hrename, addColumnAlters,
      List.map_nil, List.nil_append, hview, if_neg hengine, rejectAlters]
    rfl
  · simp [schemaDiffStatements, schemaDiffAlters, renameAndDropAlters, hview, if_pos hengine, rejectAlters]
  · simp only [schemaDiffStatements, schemaDiffAlters, renameAndDropAlters, List.forM_append, List.forM_map, hview, if_neg hengine, rejectAlters, bind_assoc]
    rfl

variable {diff : SchemaDiff} {clickhouseTableName : String} {engine : ClickHouseEngine}
  {currentSchema newSchema : ReplicatedTableSchema} {table : ClickHouseTable}
  {destination destination' : Destination}

/-- A diff is applied when it passes the check, enough statements come through and the server
rejects none. -/
theorem run_applySchemaDiff_eq_ok_iff {s t : CallState Destination} {u : Unit} :
    (applySchemaDiff engine clickhouseTableName diff currentSchema newSchema).run s = .ok u t ↔
      rejectAlters engine clickhouseTableName diff currentSchema = .ok () ∧
        (∀ k, s.remaining = some k →
          (schemaDiffStatements engine diff currentSchema newSchema).length ≤ k) ∧
          (schemaDiffStatements engine diff currentSchema newSchema).foldlM
              (fun destination ddl => ddl.on clickhouseTableName destination) s.state =
            .ok t.state ∧
            t.remaining = s.remaining.map
              (· - (schemaDiffStatements engine diff currentSchema newSchema).length) := by
  rw [applySchemaDiff_eq, Calls.bind_eq_ok_iff]
  constructor
  · rintro ⟨a, mid, hreject, hrun⟩
    cases hcheck : rejectAlters engine clickhouseTableName diff currentSchema with
    | error e =>
      rw [hcheck] at hreject
      cases hreject
    | ok _ =>
      rw [hcheck] at hreject
      cases hreject
      exact ⟨rfl, Calls.forM_call_eq_ok_iff.mp hrun⟩
  · rintro ⟨hreject, hrun⟩
    rw [hreject]
    exact ⟨(), s, rfl, Calls.forM_call_eq_ok_iff.mpr hrun⟩

theorem foldlM_viewStatements_eq_ok_iff {newSchema : ReplicatedTableSchema}
    (htable : destination.tables clickhouseTableName = some table) :
    (viewStatements engine newSchema).foldlM
        (fun destination ddl => ddl.on clickhouseTableName destination) destination =
        .ok destination' ↔
      (engine = .replacingMergeTree → ∀ column ∈ newSchema.columnSchemas,
        column.name ∈ table.columns.map Prod.fst) ∧
        destination' = destination.setTable clickhouseTableName
          (some { table with
            currentView :=
              if engine = .replacingMergeTree then
                some (newSchema.columnSchemas.map name)
              else table.currentView }) := by
  cases engine with
  | mergeTree =>
    show Except.ok destination = _ ↔ _
    rw [Except.ok.injEq, if_neg (by decide), setTable_eq_self htable]
    exact ⟨fun heq => ⟨by simp, heq.symm⟩, fun h => h.2.symm⟩
  | replacingMergeTree =>
    have hall : (newSchema.columnSchemas.map name).all (hasName · table.columns) =
        true ↔ ∀ column ∈ newSchema.columnSchemas,
          column.name ∈ table.columns.map Prod.fst := by
      simp [hasName]
    have hdrop : Ddl.dropView.execute (destination.tables clickhouseTableName) =
        .ok (some { table with currentView := none }) := by
      rw [htable]
      rfl
    rw [viewStatements, if_pos rfl, foldlM_on_cons hdrop]
    by_cases hcolumns : ∀ column ∈ newSchema.columnSchemas,
        column.name ∈ table.columns.map Prod.fst
    · have hcreate : (Ddl.createView (newSchema.columnSchemas.map name)).execute
          (some { table with currentView := none }) =
            .ok (some { table with
              currentView := some (newSchema.columnSchemas.map name) }) :=
        if_pos (hall.mpr hcolumns)
      rw [foldlM_on_cons (by rw [tables_setTable_self]; exact hcreate),
        setTable_setTable]
      show Except.ok _ = _ ↔ _
      rw [Except.ok.injEq]
      exact ⟨fun heq => ⟨fun _ => hcolumns, heq.symm⟩, fun h => h.2.symm⟩
    · have hcreate : (Ddl.createView (newSchema.columnSchemas.map name)).execute
          (some { table with currentView := none }) = .error ddlFailed :=
        if_neg fun h => hcolumns (hall.mp h)
      rw [foldlM_on_cons_of_error (by rw [tables_setTable_self]; exact hcreate)]
      exact iff_of_false (by rintro ⟨⟩) fun h => hcolumns (h.1 rfl)

/-- All statements of a diff run when the changes of the columns do and leave what the view
selects. -/
theorem foldlM_schemaDiffStatements_eq_ok_iff
    (htable : destination.tables clickhouseTableName = some table) :
    (schemaDiffStatements engine diff currentSchema newSchema).foldlM
        (fun destination ddl => ddl.on clickhouseTableName destination) destination =
        .ok destination' ↔
      ∃ columns, (schemaDiffAlters diff currentSchema).foldlM
          (fun columns change => change.execute columns) table.columns = some columns ∧
        (engine = .replacingMergeTree → ∀ column ∈ newSchema.columnSchemas,
          column.name ∈ columns.map Prod.fst) ∧
          destination' = destination.setTable clickhouseTableName
            (some { table with
              columns
              currentView :=
                if engine = .replacingMergeTree then
                  some (newSchema.columnSchemas.map name)
                else table.currentView }) := by
  rw [schemaDiffStatements, foldlM_append, bind_eq_ok_iff]
  constructor
  · rintro ⟨mid, halters, hview⟩
    obtain ⟨columns, hcolumns, rfl⟩ := (foldlM_alter_eq_ok_iff htable).mp halters
    obtain ⟨hselected, rfl⟩ :=
      (foldlM_viewStatements_eq_ok_iff (tables_setTable_self ..)).mp hview
    exact ⟨columns, hcolumns, hselected, setTable_setTable ..⟩
  · rintro ⟨columns, hcolumns, hselected, rfl⟩
    refine ⟨_, (foldlM_alter_eq_ok_iff htable).mpr ⟨columns, hcolumns, rfl⟩, ?_⟩
    exact (foldlM_viewStatements_eq_ok_iff (tables_setTable_self ..)).mpr
      ⟨hselected, (setTable_setTable ..).symm⟩

/-! ## Columns with new names -/

/-- Stand-ins for the trailing columns, by name only. -/
def trailingColumns (engine : ClickHouseEngine) : List ColumnSchema :=
  (trailingCdcColumnNames engine).map fun name => ⟨name, .text, 0, 0, none, false⟩

/-- Additions under new names end up between the user columns and the trailing ones. -/
theorem foldlM_addColumnAlters {front back adds : List ColumnSchema}
    (held : ColumnSchema → String) (hfront : (front.map ColumnSchema.name).Nodup)
    (hadds : (adds.map ColumnSchema.name).Nodup)
    (hfree : ∀ added ∈ adds, ∀ column ∈ front ++ back, column.name ≠ added.name)
    (hheld : ∀ added ∈ adds, held added = clickhouseColumnType added true) :
    (addColumnAlters (front.getLast?.map ColumnSchema.name) adds).foldlM
        (fun columns change => change.execute columns)
        (named (front ++ back) ColumnSchema.name held) =
      some (named (front ++ adds ++ back) ColumnSchema.name held) := by
  induction adds generalizing front with
  | nil => simp [addColumnAlters]
  | cons added adds ih =>
    rw [map_cons, nodup_cons] at hadds
    have hnew : ∀ column ∈ front ++ back, column.name ≠ added.name :=
      hfree added mem_cons_self
    have hmissing : hasName added.name (named (front ++ back) name held) = false := by
      rw [Bool.eq_false_iff]
      intro htaken
      obtain ⟨column, hcolumn, heq⟩ := hasName_named_iff.mp htaken
      exact hnew column hcolumn heq
    -- The column goes behind the last of the front part, or first if there is none.
    have hplaced : (ColumnAlter.addColumn added.name (clickhouseColumnType added true)
        (front.getLast?.map name)).execute
          (named (front ++ back) name held) =
        some (named (front ++ [added] ++ back) name held) := by
      rw [ColumnAlter.execute, hmissing, ← hheld added mem_cons_self]
      rcases eq_nil_or_concat front with rfl | ⟨init, last, rfl⟩
      · rfl
      · have hlast : ∀ column ∈ init, column.name ≠ last.name := by
          intro column hcolumn heq
          rw [concat_eq_append, map_append, nodup_append'] at hfront
          refine hfront.2.2 (mem_map.mpr ⟨column, hcolumn, heq⟩) ?_
          simp
        have hhas : hasName last.name
            (named (init ++ last :: back) name held) = true :=
          hasName_named_iff.mpr ⟨last, by simp, rfl⟩
        simp only [concat_eq_append, append_assoc, singleton_append,
          List.getLast?_append, List.getLast?_singleton, Option.some_or, Option.map_some, placed,
          hhas, insertedAfter_named hlast]
        simp [named]
    rw [addColumnAlters, foldlM_cons, hplaced]
    have hrest := @ih (front ++ [added]) ?_ hadds.2 ?_
      fun column hcolumn => hheld column (mem_cons_of_mem _ hcolumn)
    · simpa using hrest
    · rw [map_append, nodup_append']
      refine ⟨hfront, by simp, ?_⟩
      intro name hname hadded
      obtain ⟨column, hcolumn, rfl⟩ := mem_map.mp hname
      exact hnew column (mem_append_left _ hcolumn) (by simpa using hadded)
    · intro later hlater column hcolumn
      simp only [append_assoc, mem_append, mem_singleton] at hcolumn
      rcases hcolumn with hcolumn | rfl | hcolumn
      · exact hfree later (mem_cons_of_mem _ hlater) column (mem_append_left _ hcolumn)
      · exact fun heq => hadds.1 (heq ▸ mem_map_of_mem hlater)
      · exact hfree later (mem_cons_of_mem _ hlater) column (mem_append_right _ hcolumn)

theorem renamesFound_renameColumn :
    RenamesFound fun oldName newName columns =>
      (ColumnAlter.renameColumn oldName newName).execute columns := by
  intro oldName newName columns hfound
  show (if (!hasName oldName columns) = true then _ else _) = _
  rw [hfound]
  rfl

theorem dropsFound_dropColumn :
    DropsFound fun name columns => (ColumnAlter.dropColumn name).execute columns :=
  fun _ _ _ => rfl

section Change

variable {old new : ReplicatedTableSchema} {engine : ClickHouseEngine}
  {columns : List ClickHouseTableColumn}

/-- The columns a diff leaves, under the names it gives them. -/
def changedNames (old new : ReplicatedTableSchema) : List String :=
  ((old.columnSchemas ++ (old.diff new).columnsToAdd).filter
    (· ∉ (old.diff new).columnsToRemove)).map
      (renameAll ColumnSchema.name (old.renamedColumns new))

/-- All columns the table has between the additions and the removals. -/
def allColumns (engine : ClickHouseEngine) (old new : ReplicatedTableSchema) : List ColumnSchema :=
  old.columnSchemas ++ (old.diff new).columnsToAdd ++ trailingColumns engine

theorem map_name_trailingColumns (engine : ClickHouseEngine) :
    (trailingColumns engine).map ColumnSchema.name = trailingCdcColumnNames engine := by
  rw [trailingColumns, map_map]
  exact map_id _

theorem allColumns_names_nodup (hold : old.Distinct) (hnew : new.Distinct)
    (hexpected : (expectedClickhouseColumnNames old engine).Nodup)
    (hadds : ∀ added ∈ (old.diff new).columnsToAdd,
      added.name ∉ expectedClickhouseColumnNames old engine) :
    ((allColumns engine old new).map ColumnSchema.name).Nodup := by
  rw [expectedClickhouseColumnNames, nodup_append'] at hexpected
  rw [allColumns, map_append, map_append, map_name_trailingColumns, nodup_append', nodup_append']
  refine ⟨⟨hold.names, columnsToAdd_names_nodup hold hnew, ?_⟩, hexpected.2.1, ?_⟩
  · intro name hname hadded
    obtain ⟨added, hmem, rfl⟩ := mem_map.mp hadded
    exact hadds added hmem (mem_append_left _ hname)
  · intro name hname htrailing
    rcases mem_append.mp hname with hname | hadded
    · exact hexpected.2.2 hname htrailing
    · obtain ⟨added, hmem, rfl⟩ := mem_map.mp hadded
      exact hadds added hmem (mem_append_right _ htrailing)

/-- The trailing columns are neither removed nor renamed. -/
theorem map_renameAll_allColumns (hold : old.Distinct) (hnew : new.Distinct)
    (hexpected : (expectedClickhouseColumnNames old engine).Nodup) :
    ((allColumns engine old new).filter (· ∉ (old.diff new).columnsToRemove)).map
        (renameAll ColumnSchema.name (old.renamedColumns new)) =
      changedNames old new ++ trailingCdcColumnNames engine := by
  have hback : ∀ column ∈ trailingColumns engine, column ∉ old.columnSchemas := by
    intro column htrailing hmem
    rw [expectedClickhouseColumnNames, nodup_append', ← map_name_trailingColumns] at hexpected
    exact hexpected.2.2 (mem_map_of_mem hmem) (mem_map_of_mem htrailing)
  have hkept : (trailingColumns engine).filter (· ∉ (old.diff new).columnsToRemove) =
      trailingColumns engine := by
    refine filter_eq_self.mpr fun column hcolumn => ?_
    simpa using fun hremoved => hback column hcolumn ((mem_columnsToRemove hold hnew).mp hremoved).1
  have hnames : (trailingColumns engine).map
      (renameAll name (old.renamedColumns new)) =
      (trailingColumns engine).map name := by
    refine map_congr_left fun column hcolumn => renameAll_of_not_mem fun hrenamed => ?_
    obtain ⟨⟨_, newName⟩, hmem, rfl⟩ := mem_map.mp hrenamed
    exact hback _ hcolumn ((mem_renamedColumns hold hnew).mp hmem).1
  rw [allColumns, filter_append, map_append, hkept, hnames, map_name_trailingColumns, changedNames]

/-- Renames and removals of a diff on a table that has all columns. -/
theorem foldlM_renames_drops (hold : old.Distinct) (hnew : new.Distinct)
    (hname : Set.InjOn ColumnSchema.name {column | column ∈ allColumns engine old new})
    (held : ColumnSchema → String) :
    (renameAndDropAlters (old.diff new)).foldlM (fun columns change => change.execute columns)
        (named (allColumns engine old new) ColumnSchema.name held) = some columns ↔
      FreshRun (allColumns engine old new) ColumnSchema.name (old.renamedColumns new) ∧
        columns = named ((allColumns engine old new).filter (· ∉ (old.diff new).columnsToRemove))
          (renameAll ColumnSchema.name (old.renamedColumns new)) held := by
  rw [renameAndDropAlters, foldlM_append]
  simp only [foldlM_map]
  exact foldlM_renames_drops_eq_some_iff hold hnew renamesFound_renameColumn dropsFound_dropColumn
    (fun column hcolumn => mem_append_left _ (mem_append_left _ hcolumn)) hname

/-- With new names only, the changes go through when the renames do. -/
theorem foldlM_schemaDiffAlters (hold : old.Distinct) (hnew : new.Distinct)
    (hexpected : (expectedClickhouseColumnNames old engine).Nodup)
    (hadds : ∀ added ∈ (old.diff new).columnsToAdd,
      added.name ∉ expectedClickhouseColumnNames old engine)
    (hcolumns : columns.map Prod.fst = expectedClickhouseColumnNames old engine) :
    ∃ result : List ClickHouseTableColumn,
      result.map Prod.fst = changedNames old new ++ trailingCdcColumnNames engine ∧
        ∀ columns', (schemaDiffAlters (old.diff new) old).foldlM
            (fun columns change => change.execute columns) columns = some columns' ↔
          FreshRun (allColumns engine old new) ColumnSchema.name (old.renamedColumns new) ∧
            columns' = result := by
  have hname : Set.InjOn name {column | column ∈ allColumns engine old new} :=
    fun _ ha _ hb heq => inj_on_of_nodup_map
      (allColumns_names_nodup hold hnew hexpected hadds) ha hb heq
  have hnames := map_renameAll_allColumns hold hnew hexpected
  rw [expectedClickhouseColumnNames, ← map_name_trailingColumns, ← map_append]
    at hexpected hcolumns hadds
  -- The types of the columns, with those of the additions.
  obtain ⟨held₀, rfl⟩ := exists_eq_named (List.Nodup.of_map _ hexpected) hcolumns
  let held : ColumnSchema → String := fun column =>
    if column ∈ (old.diff new).columnsToAdd then clickhouseColumnType column true
    else held₀ column
  have hstart : named (old.columnSchemas ++ trailingColumns engine) name held₀ =
      named (old.columnSchemas ++ trailingColumns engine) name held := by
    refine map_congr_left fun column hcolumn => ?_
    have hnot : column ∉ (old.diff new).columnsToAdd := fun hadded =>
      hadds column hadded (mem_map_of_mem hcolumn)
    rw [show held column = held₀ column from if_neg hnot]
  have hadded := foldlM_addColumnAlters held hold.names (columnsToAdd_names_nodup hold hnew)
    (fun added hmem column hcolumn heq =>
      hadds added hmem (mem_map.mpr ⟨column, hcolumn, heq⟩))
    (fun added hmem => if_pos hmem)
  refine ⟨named ((allColumns engine old new).filter (· ∉ (old.diff new).columnsToRemove))
    (renameAll name (old.renamedColumns new)) held, ?_, fun columns' => ?_⟩
  · rw [← hnames, named, map_map]
    rfl
  · rw [schemaDiffAlters, foldlM_append, hstart, hadded]
    exact foldlM_renames_drops hold hnew hname held

/-! ## The order of the columns -/

/-- The columns after a change have the new names in order when they have the new positions in
order. -/
theorem changedNames_eq_iff_positions (hold : old.Distinct) (hnew : new.Distinct) :
    changedNames old new = new.columnSchemas.map ColumnSchema.name ↔
      ((old.columnSchemas ++ (old.diff new).columnsToAdd).filter
        (· ∉ (old.diff new).columnsToRemove)).map ColumnSchema.ordinalPosition =
          new.columnSchemas.map ColumnSchema.ordinalPosition := by
  rw [changedNames, ← forall₂_eq_eq_eq, ← forall₂_eq_eq_eq, forall₂_map_left_iff,
    forall₂_map_right_iff, forall₂_map_left_iff, forall₂_map_right_iff,
    forall₂_iff_zip, forall₂_iff_zip]
  refine and_congr_right fun _ => forall_congr' fun column => forall_congr' fun newColumn =>
    imp_congr_right fun hzip => ?_
  obtain ⟨hcolumn, hnewColumn⟩ := of_mem_zip hzip
  obtain ⟨hmem, other, hother, hposition⟩ := (mem_surviving_iff hold hnew).mp hcolumn
  rw [renameAll_name_eq hold hnew hmem hother hposition, ← hposition]
  constructor
  · intro heq
    rw [inj_on_of_nodup_map hnew.names hother hnewColumn heq]
  · intro heq
    rw [eq_of_ordinalPosition_eq hnew.positions hother hnewColumn heq]

theorem positions_perm (hold : old.Distinct) (hnew : new.Distinct) :
    (((old.columnSchemas ++ (old.diff new).columnsToAdd).filter
      (· ∉ (old.diff new).columnsToRemove)).map ColumnSchema.ordinalPosition).Perm
        (new.columnSchemas.map ColumnSchema.ordinalPosition) := by
  refine (perm_ext_iff_of_nodup ?_ hnew.positions).mpr fun position => ?_
  · exact (positions_nodup hold hnew).sublist (filter_sublist.map _)
  · rw [mem_map, mem_map]
    constructor
    · rintro ⟨column, hcolumn, rfl⟩
      exact ((mem_surviving_iff hold hnew).mp hcolumn).2
    · rintro ⟨newColumn, hnewColumn, rfl⟩
      obtain ⟨column, hcolumn, hposition⟩ := exists_surviving hold hnew hnewColumn
      exact ⟨column, hcolumn, hposition.symm⟩

/-- The columns end in the order of the new schema when the added ones come behind all columns
that stay. -/
theorem changedNames_eq_iff (hold : old.Ordered) (hnew : new.Ordered) :
    changedNames old new = new.columnSchemas.map ColumnSchema.name ↔
      ∀ added ∈ (old.diff new).columnsToAdd, ∀ kept ∈ old.columnSchemas,
        kept ∉ (old.diff new).columnsToRemove →
          kept.ordinalPosition < added.ordinalPosition := by
  have hnewSorted : (new.columnSchemas.map ordinalPosition).Pairwise (· < ·) :=
    pairwise_map.mpr hnew.positions
  have hperm := positions_perm hold.distinct hnew.distinct
  rw [changedNames_eq_iff_positions hold.distinct hnew.distinct]
  trans (((old.columnSchemas ++ (old.diff new).columnsToAdd).filter
      (· ∉ (old.diff new).columnsToRemove)).map ordinalPosition).Pairwise (· < ·)
  · constructor
    · intro heq
      rw [heq]
      exact hnewSorted
    · intro hsorted
      exact hperm.eq_of_pairwise (fun a b _ _ hab hba => absurd hab (lt_asymm hba)) hsorted hnewSorted
  · rw [pairwise_map, filter_append, pairwise_append]
    constructor
    · rintro ⟨-, -, hcross⟩ added hadded kept hkept hstays
      refine hcross kept (mem_filter.mpr ⟨hkept, by simpa using hstays⟩) added
        (mem_filter.mpr ⟨hadded, ?_⟩)
      simpa using fun hremoved => ((mem_columnsToAdd hold.distinct hnew.distinct).mp hadded).2 added
        ((mem_columnsToRemove hold.distinct hnew.distinct).mp hremoved).1 rfl
    · intro hcross
      refine ⟨hold.positions.filter _, (columnsToAdd_sorted old hnew.distinct).filter _, ?_⟩
      intro kept hkept added hadded
      rw [mem_filter, decide_eq_true_iff] at hkept
      exact hcross added (mem_of_mem_filter hadded) kept hkept.1 hkept.2

end Change

/-! ## Names the table already has -/

/-- The name the change gives a column. -/
def ColumnAlter.givenName? : ColumnAlter → Option String
  | .addColumn name _ _ => some name
  | .renameColumn _ newName => some newName
  | .dropColumn _ => none

/-- The name the change takes from a column. -/
def ColumnAlter.takenName? : ColumnAlter → Option String
  | .addColumn .. => none
  | .renameColumn oldName _ => some oldName
  | .dropColumn name => some name

section Names

variable {change : ColumnAlter} {changes : List ColumnAlter}
  {columns columns' : List ClickHouseTableColumn} {name : String}

theorem placed_perm {afterColumn : Option String} {column : ClickHouseTableColumn}
    (hplaced : placed afterColumn column columns = some columns') :
    columns'.Perm (column :: columns) := by
  cases afterColumn with
  | none =>
    cases hplaced
    exact List.Perm.refl _
  | some anchor =>
    rw [placed] at hplaced
    split_ifs at hplaced with hanchor
    cases hplaced
    exact insertedAfter_perm hanchor column

theorem mem_names_execute (hexecute : change.execute columns = some columns')
    (hname : name ∈ columns'.map Prod.fst) :
    change.givenName? = some name ∨ name ∈ columns.map Prod.fst ∧ change.takenName? ≠ some name := by
  cases change with
  | addColumn added typeName afterColumn =>
    rw [ColumnAlter.execute] at hexecute
    split_ifs at hexecute with hhas
    · cases hexecute
      exact .inr ⟨hname, nofun⟩
    · rw [((placed_perm hexecute).map Prod.fst).mem_iff, map_cons, mem_cons] at hname
      rcases hname with rfl | hname
      · exact .inl rfl
      · exact .inr ⟨hname, nofun⟩
  | renameColumn oldName newName =>
    rw [ColumnAlter.execute] at hexecute
    split_ifs at hexecute with hmissing htaken
    · cases hexecute
      refine .inr ⟨hname, ?_⟩
      rintro heq
      cases heq
      rw [hasName_iff.mpr hname] at hmissing
      exact absurd hmissing (by decide)
    · cases hexecute
      rw [map_fst_renamed, mem_map] at hname
      obtain ⟨old, hold, rfl⟩ := hname
      by_cases heq : old = oldName
      · exact .inl (by rw [if_pos heq]; rfl)
      · rw [if_neg heq]
        exact .inr ⟨hold, fun h => heq (Option.some.inj h).symm⟩
  | dropColumn dropped =>
    cases hexecute
    rw [map_fst_dropped, mem_filter, decide_eq_true_iff] at hname
    exact .inr ⟨hname.1, fun h => hname.2 (Option.some.inj h).symm⟩

/-- No change gives two columns one name. -/
theorem names_nodup_execute (hexecute : change.execute columns = some columns')
    (hnodup : (columns.map Prod.fst).Nodup) : (columns'.map Prod.fst).Nodup := by
  cases change with
  | addColumn added typeName afterColumn =>
    rw [ColumnAlter.execute] at hexecute
    split_ifs at hexecute with hhas
    · cases hexecute
      exact hnodup
    · rw [((placed_perm hexecute).map Prod.fst).nodup_iff, map_cons, nodup_cons]
      exact ⟨fun hmem => hhas (hasName_iff.mpr hmem), hnodup⟩
  | renameColumn oldName newName =>
    rw [ColumnAlter.execute] at hexecute
    split_ifs at hexecute with hmissing htaken
    · cases hexecute
      exact hnodup
    · cases hexecute
      have hfree : newName ∉ columns.map Prod.fst := fun hmem => htaken (hasName_iff.mpr hmem)
      rw [map_fst_renamed]
      refine hnodup.map_on fun a ha b hb heq => ?_
      by_cases haold : a = oldName
      · by_cases hbold : b = oldName
        · rw [haold, hbold]
        · rw [if_pos haold, if_neg hbold] at heq
          exact absurd (heq ▸ hb) hfree
      · by_cases hbold : b = oldName
        · rw [if_neg haold, if_pos hbold] at heq
          exact absurd (heq ▸ ha) hfree
        · rwa [if_neg haold, if_neg hbold] at heq
  | dropColumn dropped =>
    cases hexecute
    rw [map_fst_dropped]
    exact hnodup.filter _

theorem names_nodup_foldlM
    (hrun : changes.foldlM (fun columns change => change.execute columns) columns = some columns')
    (hnodup : (columns.map Prod.fst).Nodup) : (columns'.map Prod.fst).Nodup := by
  induction changes generalizing columns with
  | nil =>
    cases hrun
    exact hnodup
  | cons change changes ih =>
    obtain ⟨mid, hexecute, hrest⟩ := Option.bind_eq_some_iff.mp hrun
    exact ih hrest (names_nodup_execute hexecute hnodup)

theorem not_mem_names_foldlM
    (hrun : changes.foldlM (fun columns change => change.execute columns) columns = some columns')
    (hgiven : ∀ change ∈ changes, change.givenName? ≠ some name)
    (htaken : name ∉ columns.map Prod.fst ∨ ∃ change ∈ changes, change.takenName? = some name) :
    name ∉ columns'.map Prod.fst := by
  induction changes generalizing columns with
  | nil =>
    cases hrun
    simpa using htaken
  | cons change changes ih =>
    obtain ⟨mid, hexecute, hrest⟩ := Option.bind_eq_some_iff.mp hrun
    refine ih hrest (fun later hlater => hgiven later (mem_cons_of_mem _ hlater)) ?_
    by_cases hlater : ∃ later ∈ changes, later.takenName? = some name
    · exact .inr hlater
    · left
      intro hmid
      obtain hfirst | ⟨hold, hnot⟩ := mem_names_execute hexecute hmid
      · exact hgiven change mem_cons_self hfirst
      · rcases htaken with habsent | ⟨taking, hmem, htaking⟩
        · exact habsent hold
        · rcases mem_cons.mp hmem with rfl | hmem
          · exact hnot htaking
          · exact hlater ⟨taking, hmem, htaking⟩

end Names

section Change

variable {old new : ReplicatedTableSchema} {engine : ClickHouseEngine}
  {columns columns' : List ClickHouseTableColumn}

/-- An added column whose name the table already has is not there in the end. -/
theorem columns_ne_expected_of_taken (hold : old.Distinct) (hnew : new.Distinct)
    (hexpected : (expectedClickhouseColumnNames old engine).Nodup)
    (hcolumns : columns.map Prod.fst = expectedClickhouseColumnNames old engine)
    (hrun : (schemaDiffAlters (old.diff new) old).foldlM
      (fun columns change => change.execute columns) columns = some columns') {added : ColumnSchema}
    (hadded : added ∈ (old.diff new).columnsToAdd)
    (htaken : added.name ∈ expectedClickhouseColumnNames old engine) :
    columns'.map Prod.fst ≠ expectedClickhouseColumnNames new engine := by
  obtain ⟨haddedNew, hposition⟩ := (mem_columnsToAdd hold hnew).mp hadded
  have hmemNew : added.name ∈ new.columnSchemas.map name := mem_map_of_mem haddedNew
  intro heq
  rcases mem_append.mp htaken with hnames | htrailing
  · obtain ⟨column, hcolumn, hname⟩ := mem_map.mp hnames
    rw [schemaDiffAlters, foldlM_append] at hrun
    obtain ⟨mid, -, hrest⟩ := Option.bind_eq_some_iff.mp hrun
    refine not_mem_names_foldlM hrest ?_ (.inr ?_)
      (by rw [heq]; exact mem_append_left _ hmemNew)
    · -- A rename to the added name would be a second new column of that name.
      intro change hchange hgiven
      rcases mem_append.mp hchange with hrename | hdrop
      · obtain ⟨rename, hmem, rfl⟩ := mem_map.mp hrename
        obtain ⟨renamed, hrenamed, newColumn, hnewColumn, hsame, -, rfl⟩ :=
          (mem_columnsToRename hold hnew).mp hmem
        rw [inj_on_of_nodup_map hnew.names hnewColumn haddedNew (Option.some.inj hgiven)]
          at hsame
        exact hposition renamed hrenamed hsame.symm
      · obtain ⟨removed, -, rfl⟩ := mem_map.mp hdrop
        cases hgiven
    · -- The old column of that name is renamed or removed.
      by_cases hremoved : column ∈ (old.diff new).columnsToRemove
      · exact ⟨.dropColumn column.name,
          mem_append_right _ (mem_map.mpr ⟨column, hremoved, rfl⟩), congrArg some hname⟩
      · have hstays : ∃ newColumn ∈ new.columnSchemas,
            newColumn.ordinalPosition = column.ordinalPosition := by
          by_contra hgone
          push Not at hgone
          exact hremoved ((mem_columnsToRemove hold hnew).mpr ⟨hcolumn, hgone⟩)
        obtain ⟨newColumn, hnewColumn, hsame⟩ := hstays
        have hother : column.name ≠ newColumn.name := by
          intro hsameName
          rw [inj_on_of_nodup_map hnew.names hnewColumn haddedNew
            (hsameName.symm.trans hname)] at hsame
          exact hposition column hcolumn hsame.symm
        have hrenamed := (mem_columnsToRename hold hnew).mpr
          ⟨column, hcolumn, newColumn, hnewColumn, hsame, hother, rfl⟩
        exact ⟨.renameColumn column.name newColumn.name,
          mem_append_left _ (mem_map.mpr ⟨_, hrenamed, rfl⟩), congrArg some hname⟩
  · -- The name of a trailing column would be there twice.
    have hnodup := names_nodup_foldlM hrun (by rw [hcolumns]; exact hexpected)
    rw [heq, expectedClickhouseColumnNames, nodup_append'] at hnodup
    exact hnodup.2.2 hmemNew htrailing

/-- Every added name is new to the table, and every added column comes behind all columns that
stay. -/
def AddsBehind (engine : ClickHouseEngine) (old new : ReplicatedTableSchema) : Prop :=
  (∀ added ∈ (old.diff new).columnsToAdd,
      added.name ∉ expectedClickhouseColumnNames old engine) ∧
    ∀ added ∈ (old.diff new).columnsToAdd, ∀ kept ∈ old.columnSchemas,
      kept ∉ (old.diff new).columnsToRemove → kept.ordinalPosition < added.ordinalPosition

instance (engine : ClickHouseEngine) (old new : ReplicatedTableSchema) :
    Decidable (AddsBehind engine old new) :=
  inferInstanceAs (Decidable (_ ∧ _))

/-- Changes that go through leave the columns of the new schema exactly when the additions are
new and at the end. -/
theorem foldlM_schemaDiffAlters_expected_iff (hold : old.Ordered) (hnew : new.Ordered)
    (hnodup : (columns.map Prod.fst).Nodup)
    (hcolumns : columns.map Prod.fst = expectedClickhouseColumnNames old engine)
    (hrun : (schemaDiffAlters (old.diff new) old).foldlM
      (fun columns change => change.execute columns) columns = some columns') :
    columns'.map Prod.fst = expectedClickhouseColumnNames new engine ↔
      AddsBehind engine old new := by
  rw [hcolumns] at hnodup
  by_cases hadds : ∀ added ∈ (old.diff new).columnsToAdd,
      added.name ∉ expectedClickhouseColumnNames old engine
  · obtain ⟨result, hresult, hfold⟩ :=
      foldlM_schemaDiffAlters hold.distinct hnew.distinct hnodup hadds hcolumns
    rw [((hfold columns').mp hrun).2, hresult, expectedClickhouseColumnNames,
      append_cancel_right_eq, changedNames_eq_iff hold hnew]
    exact ⟨fun hbehind => ⟨hadds, hbehind⟩, fun h => h.2⟩
  · refine iff_of_false ?_ fun h => hadds h.1
    push Not at hadds
    obtain ⟨added, hadded, htaken⟩ := hadds
    exact columns_ne_expected_of_taken hold.distinct hnew.distinct hnodup hcolumns hrun hadded htaken

/-- No rename goes to the name of a trailing column, or to that of a column that is not renamed
before. -/
def RenamesFree (engine : ClickHouseEngine) (old new : ReplicatedTableSchema) : Prop :=
  ∀ rename ∈ (old.diff new).columnsToRename,
    rename.newName ∉ trailingCdcColumnNames engine ∧
      ∀ oldColumn ∈ old.columnSchemas, oldColumn.name = rename.newName →
        ∃ earlier ∈ (old.diff new).columnsToRename,
          earlier.ordinalPosition = oldColumn.ordinalPosition ∧
            earlier.ordinalPosition < rename.ordinalPosition

instance (engine : ClickHouseEngine) (old new : ReplicatedTableSchema) :
    Decidable (RenamesFree engine old new) :=
  inferInstanceAs (Decidable (∀ _ ∈ _, _))

theorem freshRun_allColumns_iff (hold : old.Distinct) (hnew : new.Distinct)
    (hexpected : (expectedClickhouseColumnNames old engine).Nodup) :
    FreshRun (allColumns engine old new) ColumnSchema.name (old.renamedColumns new) ↔
      RenamesFree engine old new := by
  have hothers : ∀ rename ∈ old.renamedColumns new, rename.1 ∉ trailingColumns engine := by
    rintro ⟨column, newName⟩ hrename htrailing
    have hcolumn := ((mem_renamedColumns hold hnew).mp hrename).1
    rw [expectedClickhouseColumnNames, nodup_append', ← map_name_trailingColumns] at hexpected
    exact hexpected.2.2 (mem_map_of_mem hcolumn) (mem_map_of_mem htrailing)
  have htargets : (∀ rename ∈ old.renamedColumns new, ∀ column ∈ trailingColumns engine,
      column.name ≠ rename.2) ↔
      ∀ rename ∈ (old.diff new).columnsToRename,
        rename.newName ∉ trailingCdcColumnNames engine := by
    rw [columnsToRename_eq hold, forall_mem_map, ← map_name_trailingColumns]
    refine forall₂_congr fun rename _ => ?_
    rw [mem_map]
    push Not
    rfl
  rw [allColumns, freshRun_append_iff hothers, freshRun_renamedColumns_iff hold hnew, htargets]
  exact ⟨fun h rename hrename => ⟨h.2 rename hrename, h.1 rename hrename⟩,
    fun h => ⟨fun rename hrename => (h rename hrename).2, fun rename hrename => (h rename hrename).1⟩⟩

/-- The statements of a diff run and leave the expected columns when the renames are free and the
additions new and at the end. -/
theorem foldlM_schemaDiffStatements_expected_iff (hold : old.Ordered) (hnew : new.Ordered)
    {clickhouseTableName : String} {destination : Destination} {table : ClickHouseTable}
    (htable : destination.tables clickhouseTableName = some table)
    (hnodup : (table.columns.map Prod.fst).Nodup)
    (hcolumns : table.columns.map Prod.fst = expectedClickhouseColumnNames old engine) :
    (∃ destination', (schemaDiffStatements engine (old.diff new) old new).foldlM
        (fun destination ddl => ddl.on clickhouseTableName destination) destination =
          .ok destination' ∧
      (destination'.tables clickhouseTableName).map (·.columns.map Prod.fst) =
        some (expectedClickhouseColumnNames new engine)) ↔
      RenamesFree engine old new ∧ AddsBehind engine old new := by
  have hexpected : (expectedClickhouseColumnNames old engine).Nodup := hcolumns ▸ hnodup
  rw [← freshRun_allColumns_iff hold.distinct hnew.distinct hexpected]
  constructor
  · rintro ⟨destination', hrun, hnames⟩
    obtain ⟨columns', hfold, -, rfl⟩ := (foldlM_schemaDiffStatements_eq_ok_iff htable).mp hrun
    rw [tables_setTable_self] at hnames
    have hadds := (foldlM_schemaDiffAlters_expected_iff hold hnew hnodup hcolumns hfold).mp
      (Option.some.inj hnames)
    obtain ⟨result, -, hresult⟩ :=
      foldlM_schemaDiffAlters hold.distinct hnew.distinct hexpected hadds.1 hcolumns
    exact ⟨((hresult columns').mp hfold).1, hadds⟩
  · rintro ⟨hfresh, hadds⟩
    obtain ⟨result, -, hresult⟩ :=
      foldlM_schemaDiffAlters hold.distinct hnew.distinct hexpected hadds.1 hcolumns
    have hfold := (hresult result).mpr ⟨hfresh, rfl⟩
    have hnames := (foldlM_schemaDiffAlters_expected_iff hold hnew hnodup hcolumns hfold).mpr hadds
    refine ⟨_, (foldlM_schemaDiffStatements_eq_ok_iff htable).mpr ⟨result, hfold, ?_, rfl⟩, ?_⟩
    · intro _ column hcolumn
      rw [hnames]
      exact mem_append_left _ (mem_map_of_mem hcolumn)
    · rw [tables_setTable_self]
      exact congrArg some hnames

/-- When a diff has been applied, the table has the expected columns of the new schema in order,
so that the check before the next write passes, exactly when the additions are new and at the
end. -/
theorem applySchemaDiff_columns_eq_expected_iff (hold : old.Ordered) (hnew : new.Ordered)
    {clickhouseTableName : String} {s t : CallState Destination} {table : ClickHouseTable}
    (htable : s.state.tables clickhouseTableName = some table)
    (hnodup : (table.columns.map Prod.fst).Nodup)
    (hcolumns : table.columns.map Prod.fst = expectedClickhouseColumnNames old engine)
    (hsuccess : (applySchemaDiff engine clickhouseTableName (old.diff new) old new).run s =
      .ok () t) :
    ∃ table', t.state.tables clickhouseTableName = some table' ∧
      (table'.columns.map Prod.fst = expectedClickhouseColumnNames new engine ↔
        AddsBehind engine old new) ∧
      ((∃ flags, nullableFlagsFromClickhouseColumns clickhouseTableName
          (expectedClickhouseColumnNames new engine) table'.columns = .ok flags) ↔
        AddsBehind engine old new) := by
  obtain ⟨-, -, hrun, -⟩ := run_applySchemaDiff_eq_ok_iff.mp hsuccess
  obtain ⟨columns', hfold, -, hstate⟩ := (foldlM_schemaDiffStatements_eq_ok_iff htable).mp hrun
  have hexpected := foldlM_schemaDiffAlters_expected_iff hold hnew hnodup hcolumns hfold
  refine ⟨_, by rw [hstate, tables_setTable_self], hexpected, ?_⟩
  rw [exists_nullableFlags_iff]
  exact hexpected

end Change

/-- A destination with one table, with the columns a schema asks for. -/
def destinationWith (engine : ClickHouseEngine) (clickhouseTableName : String)
    (schema : ReplicatedTableSchema) : Destination where
  tables := fun name =>
    if name = clickhouseTableName then
      some ⟨engine, (expectedClickhouseColumnNames schema engine).map fun name => (name, "String"),
        none⟩
    else none
  metadata := none
  tableCache := fun _ => none

/-- A rename and an addition at the end. -/
theorem applySchemaDiff_columns_eq_expected_rename_add :
    ∃ t : CallState Destination, ∃ table',
      (applySchemaDiff .replacingMergeTree "public_users"
        ((schemaWith [("id", 1), ("name", 2)]).diff
          (schemaWith [("id", 1), ("title", 2), ("email", 3)]))
        (schemaWith [("id", 1), ("name", 2)])
        (schemaWith [("id", 1), ("title", 2), ("email", 3)])).run
          ⟨destinationWith .replacingMergeTree "public_users"
            (schemaWith [("id", 1), ("name", 2)]), none⟩ = .ok () t ∧
        t.state.tables "public_users" = some table' ∧
          table'.columns.map Prod.fst = expectedClickhouseColumnNames
            (schemaWith [("id", 1), ("title", 2), ("email", 3)]) .replacingMergeTree := by
  obtain ⟨t, hrun⟩ : ∃ t, (applySchemaDiff .replacingMergeTree "public_users"
      ((schemaWith [("id", 1), ("name", 2)]).diff
        (schemaWith [("id", 1), ("title", 2), ("email", 3)]))
      (schemaWith [("id", 1), ("name", 2)])
      (schemaWith [("id", 1), ("title", 2), ("email", 3)])).run
        ⟨destinationWith .replacingMergeTree "public_users"
          (schemaWith [("id", 1), ("name", 2)]), none⟩ = .ok () t := ⟨_, rfl⟩
  obtain ⟨table', htable', hexpected, -⟩ := applySchemaDiff_columns_eq_expected_iff
    ⟨by decide, by decide⟩ ⟨by decide, by decide⟩ rfl (by decide) (by decide) hrun
  exact ⟨t, table', hrun, htable', hexpected.mpr (by decide)⟩

/-- A table of three columns of which the second is not published. -/
def withoutSecond : ReplicatedTableSchema :=
  .fromMask (schemaWith [("id", 1), ("name", 2), ("age", 3)]).tableSchema [true, false, true]

/-- Publishing the second column as well puts it behind the third. -/
theorem applySchemaDiff_misplaces_published_column :
    ∃ t : CallState Destination,
      (applySchemaDiff .mergeTree "public_users"
        (withoutSecond.diff (schemaWith [("id", 1), ("name", 2), ("age", 3)])) withoutSecond
        (schemaWith [("id", 1), ("name", 2), ("age", 3)])).run
          ⟨destinationWith .mergeTree "public_users" withoutSecond, none⟩ = .ok () t ∧
        (t.state.tables "public_users").map (·.columns.map Prod.fst) =
          some ["id", "age", "name", "cdc_operation", "cdc_lsn"] ∧
          expectedClickhouseColumnNames (schemaWith [("id", 1), ("name", 2), ("age", 3)])
            .mergeTree = ["id", "name", "age", "cdc_operation", "cdc_lsn"] :=
  ⟨_, rfl, rfl, rfl⟩

end Etl.ClickHouse
