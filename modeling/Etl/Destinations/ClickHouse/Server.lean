import Etl.Common.Calls
import Etl.Common.NamedColumns
import Etl.Destinations.ClickHouse.Schema
import Etl.State.DestinationMetadata

/-! # ClickHouse statements

The statements the destination sends and what the server does with them. Every statement is
conditional: an addition of a column that exists, and a rename or removal of one that does not,
change nothing. An addition fails when the column it is placed behind is missing, a rename when
its target exists. A statement changes one table or nothing; the statements of a change are not
one transaction.

Reference: `etl-destinations/src/clickhouse/client.rs`.
-/

namespace Etl.ClickHouse

open NamedColumns

/-- A table at the server, with the columns selected by its current-state view. -/
structure ClickHouseTable where
  engine : ClickHouseEngine
  columns : List ClickHouseTableColumn
  currentView : Option (List String)
  deriving DecidableEq, Repr

/-- A change of the columns of a table. -/
inductive ColumnAlter where
  | addColumn (name typeName : String) (afterColumn : Option String)
  | renameColumn (oldName newName : String)
  | dropColumn (name : String)
  deriving DecidableEq, Repr

/-- The statements. -/
inductive Ddl where
  | createTable (engine : ClickHouseEngine) (columns : List ClickHouseTableColumn)
  | createView (columns : List String)
  | dropView
  | alter (change : ColumnAlter)
  deriving DecidableEq, Repr

/-- The columns with a new one placed behind another or first. -/
def placed (afterColumn : Option String) (column : ClickHouseTableColumn)
    (columns : List ClickHouseTableColumn) : Option (List ClickHouseTableColumn) :=
  match afterColumn with
  | none => some (column :: columns)
  | some anchor => if hasName anchor columns then some (insertedAfter anchor column columns) else none

def ColumnAlter.execute (change : ColumnAlter) (columns : List ClickHouseTableColumn) :
    Option (List ClickHouseTableColumn) :=
  match change with
  | .addColumn name typeName afterColumn =>
    if hasName name columns then some columns else placed afterColumn (name, typeName) columns
  | .renameColumn oldName newName =>
    if !hasName oldName columns then some columns
    else if hasName newName columns then none
    else some (renamed oldName newName columns)
  | .dropColumn name => some (dropped name columns)

/-- What a statement that is rejected or does not come through returns. -/
def ddlFailed : EtlError := ⟨.destinationQueryFailed, "ClickHouse call failed", some "DDL failed"⟩

/-- The table after a statement. -/
def Ddl.execute (ddl : Ddl) (table : Option ClickHouseTable) :
    EtlResult (Option ClickHouseTable) :=
  match ddl, table with
  | .createTable engine columns, none =>
    if (columns.map Prod.fst).Nodup then .ok (some ⟨engine, columns, none⟩) else .error ddlFailed
  | .createTable _ _, some table => .ok (some table)
  | .createView _, none => .error ddlFailed
  | .createView columns, some table =>
    if table.currentView.isSome then .ok (some table)
    else if columns.all (hasName · table.columns) then
      .ok (some { table with currentView := some columns })
    else .error ddlFailed
  | .dropView, table => .ok (table.map fun table => { table with currentView := none })
  | .alter _, none => .error ddlFailed
  | .alter change, some table =>
    match change.execute table.columns with
    | some columns => .ok (some { table with columns })
    | none => .error ddlFailed

/-- What the destination works on for one source table: the tables at the server, the stored
metadata, and the null markers kept in memory for each table. -/
structure Destination where
  tables : String → Option ClickHouseTable
  metadata : Option DestinationTableMetadata
  tableCache : String → Option (List Bool)

/-- A restart loses what is kept in memory. -/
def Destination.restart (destination : Destination) : Destination :=
  { destination with tableCache := fun _ => none }

def Destination.setTable (destination : Destination) (tableName : String)
    (table : Option ClickHouseTable) : Destination :=
  { destination with tables := Function.update destination.tables tableName table }

def Ddl.on (ddl : Ddl) (tableName : String) (destination : Destination) :
    EtlResult Destination := do
  let table ← ddl.execute (destination.tables tableName)
  return destination.setTable tableName table

/-- Sends a statement. -/
def executeDdl (tableName : String) (ddl : Ddl) : Calls EtlError Destination Unit :=
  .call ddlFailed (ddl.on tableName)

def storeDestinationTableMetadata (metadata : DestinationTableMetadata) :
    Calls EtlError Destination Unit :=
  .call ⟨.sourceQueryFailed, "Destination table metadata storage failed",
      some "Failed to store destination table metadata in PostgreSQL"⟩
    fun destination => .ok { destination with metadata := some metadata }

namespace Destination

variable (destination : Destination) (tableName : String)

@[simp]
theorem tables_setTable_self (table : Option ClickHouseTable) :
    (destination.setTable tableName table).tables tableName = table :=
  Function.update_self ..

@[simp]
theorem setTable_setTable (first second : Option ClickHouseTable) :
    (destination.setTable tableName first).setTable tableName second =
      destination.setTable tableName second := by
  simp [setTable]

theorem setTable_eq_self {destination : Destination} {tableName : String}
    {table : Option ClickHouseTable} (htable : destination.tables tableName = table) :
    destination.setTable tableName table = destination := by
  rw [setTable, ← htable, Function.update_eq_self]

end Destination

theorem run_storeDestinationTableMetadata_eq_ok_iff {metadata : DestinationTableMetadata}
    {s t : CallState Destination} {u : Unit} :
    (storeDestinationTableMetadata metadata).run s = .ok u t ↔
      s.remaining ≠ some 0 ∧
        t = ⟨{ s.state with metadata := some metadata }, s.remaining.map (· - 1)⟩ := by
  refine Calls.call_eq_ok_iff.trans (and_congr_right fun _ => ?_)
  rw [Except.ok.injEq, CallState.mk.injEq]
  exact and_congr_left' eq_comm

/-! ## Lists of statements -/

section Run

variable {tableName : String} {ddl : Ddl} {ddls : List Ddl} {destination destination' : Destination}

/-- The first statement of a list. -/
theorem foldlM_on_cons {table : Option ClickHouseTable}
    (hddl : ddl.execute (destination.tables tableName) = .ok table) :
    (ddl :: ddls).foldlM (fun destination ddl => ddl.on tableName destination) destination =
      ddls.foldlM (fun destination ddl => ddl.on tableName destination)
        (destination.setTable tableName table) := by
  rw [List.foldlM_cons, Ddl.on, hddl]
  rfl

/-- A statement the server rejects ends the list. -/
theorem foldlM_on_cons_of_error {e : EtlError}
    (hddl : ddl.execute (destination.tables tableName) = .error e) :
    (ddl :: ddls).foldlM (fun destination ddl => ddl.on tableName destination) destination =
      .error e := by
  rw [List.foldlM_cons, Ddl.on, hddl]
  rfl

theorem foldlM_alter_eq_ok_iff {alters : List ColumnAlter} {table : ClickHouseTable}
    (htable : destination.tables tableName = some table) :
    (alters.map Ddl.alter).foldlM (fun destination ddl => ddl.on tableName destination)
        destination = .ok destination' ↔
      ∃ columns, alters.foldlM (fun columns change => change.execute columns) table.columns =
          some columns ∧
        destination' = destination.setTable tableName (some { table with columns }) := by
  induction alters generalizing destination table with
  | nil =>
    constructor
    · intro h
      cases h
      exact ⟨table.columns, rfl, (Destination.setTable_eq_self htable).symm⟩
    · rintro ⟨columns, hcolumns, rfl⟩
      cases hcolumns
      exact congrArg Except.ok (Destination.setTable_eq_self htable).symm
  | cons change alters ih =>
    rw [List.map_cons]
    cases hchange : change.execute table.columns with
    | none =>
      rw [foldlM_on_cons_of_error (by rw [htable, Ddl.execute, hchange]), List.foldlM_cons, hchange]
      simp
    | some columns =>
      rw [foldlM_on_cons (by rw [htable, Ddl.execute, hchange]), List.foldlM_cons, hchange,
        ih (Destination.tables_setTable_self ..)]
      simp only [Destination.setTable_setTable]
      rfl

end Run

end Etl.ClickHouse
