import Etl.Conversions.Text
import Etl.Types.SchemaDiff
import Mathlib.Data.List.Sort

/-! # ClickHouse table schemas

How a replicated schema becomes the columns of a ClickHouse table: the type of each column, the
trailing columns of the engine, and the check that compares the columns a table has with the
columns rows are encoded for.

Reference: `etl-destinations/src/clickhouse/schema.rs`.
-/

namespace Etl

inductive ClickHouseEngine where
  | mergeTree | replacingMergeTree
  deriving DecidableEq, Repr

def ClickHouseEngine.asClickhouseStr : ClickHouseEngine → String
  | .mergeTree => "MergeTree"
  | .replacingMergeTree => "ReplacingMergeTree"

namespace ClickHouse

/-- The type of a scalar column, without nullability. -/
def postgresColumnTypeToClickhouseSql : PgType → String
  | .bool => "Boolean"
  | .char | .bpchar | .varchar | .name | .text => "String"
  | .int2 => "Int16"
  | .int4 => "Int32"
  | .int8 => "Int64"
  | .float4 => "Float32"
  | .float8 => "Float64"
  | .numeric | .money => "String"
  | .date => "Date32"
  | .time => "String"
  | .timestamp => "DateTime64(6)"
  | .timestamptz => "DateTime64(6, 'UTC')"
  | .uuid => "UUID"
  | .json | .jsonb => "String"
  | .bytea => "String"
  | .oid => "UInt32"
  | _ => "String"

/-- The element type of an array column. -/
def postgresArrayElementClickhouseSql : PgType → String
  | .boolArray => "Boolean"
  | .charArray | .bpcharArray | .varcharArray | .nameArray | .textArray | .moneyArray => "String"
  | .int2Array => "Int16"
  | .int4Array => "Int32"
  | .int8Array => "Int64"
  | .float4Array => "Float32"
  | .float8Array => "Float64"
  | .numericArray => "String"
  | .dateArray => "Date32"
  | .timeArray => "String"
  | .timestampArray => "DateTime64(6)"
  | .timestamptzArray => "DateTime64(6, 'UTC')"
  | .uuidArray => "UUID"
  | .jsonArray | .jsonbArray => "String"
  | .byteaArray => "String"
  | .oidArray => "UInt32"
  | _ => "String"

/-- The type of a column. -/
def clickhouseColumnType (column : ColumnSchema) (forceNullable : Bool) : String :=
  if isArrayType column.typ then
    "Array(Nullable(" ++ postgresArrayElementClickhouseSql column.typ ++ "))"
  else
    let base := postgresColumnTypeToClickhouseSql column.typ
    if column.nullable || forceNullable then "Nullable(" ++ base ++ ")" else base

def trailingCdcColumnNames : ClickHouseEngine → List String
  | .mergeTree => ["cdc_operation", "cdc_lsn"]
  | .replacingMergeTree => ["_etl_version", "_etl_deleted"]

/-- The columns a table must have for the schema, in order. -/
def expectedClickhouseColumnNames (schema : ReplicatedTableSchema) (engine : ClickHouseEngine) :
    List String :=
  schema.columnSchemas.map ColumnSchema.name ++ trailingCdcColumnNames engine

/-- A column of a table, with its name and its type. -/
abbrev ClickHouseTableColumn : Type := String × String

/-- The columns a table is created with. -/
def createTableColumns (engine : ClickHouseEngine) (schema : ReplicatedTableSchema) :
    List ClickHouseTableColumn :=
  schema.columnSchemas.map (fun column => (column.name, clickhouseColumnType column false)) ++
    match engine with
    | .mergeTree => [("cdc_operation", "String"), ("cdc_lsn", "UInt64")]
    | .replacingMergeTree => [("_etl_version", "UInt128"), ("_etl_deleted", "UInt8")]

/-- Whether values of the type are preceded by a null marker. -/
def clickhouseTypeExpectsNullableMarker (typeName : String) : Bool :=
  "Nullable(".toList.isPrefixOf typeName.toList

/-- The null markers of each column, if the table has the expected columns. -/
def nullableFlagsFromClickhouseColumns (clickhouseTableName : String)
    (expectedColumnNames : List String) (actualColumns : List ClickHouseTableColumn) :
    EtlResult (List Bool) :=
  let description := "ClickHouse table schema does not match replicated schema"
  let actualLen := actualColumns.length
  let expectedLen := expectedColumnNames.length
  if actualLen ≠ expectedLen then
    bailWith .corruptedTableSchema description
      ("table '" ++ clickhouseTableName ++
        s!"' has {actualLen} columns, but {expectedLen} were expected")
  else
    (actualColumns.zip expectedColumnNames).zipIdx.mapM
      fun ((actualColumn, expectedName), index) =>
        let position := index + 1
        if actualColumn.1 ≠ expectedName then
          bailWith .corruptedTableSchema description
            ("table '" ++ clickhouseTableName ++ s!"' column {position} is named '" ++
              actualColumn.1 ++ "', but '" ++ expectedName ++ "' was expected")
        else .ok (clickhouseTypeExpectsNullableMarker actualColumn.2)

/-- The check passes exactly for the expected columns in the expected order. -/
theorem exists_nullableFlags_iff {clickhouseTableName : String} {expectedColumnNames : List String}
    {actualColumns : List ClickHouseTableColumn} :
    (∃ flags, nullableFlagsFromClickhouseColumns clickhouseTableName expectedColumnNames
        actualColumns = .ok flags) ↔ actualColumns.map Prod.fst = expectedColumnNames := by
  rw [← List.forall₂_eq_eq_eq, List.forall₂_map_left_iff, List.forall₂_iff_zip]
  unfold nullableFlagsFromClickhouseColumns
  dsimp only
  split_ifs with hlength
  · simp [hlength]
  · rw [exists_mapM_eq_ok_iff]
    push Not at hlength
    constructor
    · refine fun hall => ⟨hlength, fun {actualColumn expectedName} hmem => ?_⟩
      obtain ⟨index, hindex⟩ := List.mem_iff_getElem?.mp hmem
      obtain ⟨flag, hflag⟩ := hall _ (List.mk_mem_zipIdx_iff_getElem?.mpr hindex)
      by_contra hne
      rw [if_pos hne] at hflag
      exact absurd hflag (by simp)
    · rintro ⟨-, hall⟩ ⟨⟨actualColumn, expectedName⟩, index⟩ hindex
      have hname := hall (List.fst_mem_of_mem_zipIdx hindex)
      exact ⟨_, if_neg (not_not.mpr hname)⟩

/-- The null markers of the table that is created for a schema. -/
def createdNullableFlags (engine : ClickHouseEngine) (schema : ReplicatedTableSchema) : List Bool :=
  (createTableColumns engine schema).map fun column => clickhouseTypeExpectsNullableMarker column.2

/-- The null markers that are read back from a created table. -/
theorem nullableFlags_createTableColumns (engine : ClickHouseEngine)
    (schema : ReplicatedTableSchema) (clickhouseTableName : String) :
    nullableFlagsFromClickhouseColumns clickhouseTableName
        (expectedClickhouseColumnNames schema engine) (createTableColumns engine schema) =
      .ok (createdNullableFlags engine schema) := by
  have hnames : (createTableColumns engine schema).map Prod.fst =
      expectedClickhouseColumnNames schema engine := by
    cases engine <;> simp [createTableColumns, expectedClickhouseColumnNames,
      trailingCdcColumnNames]
  obtain ⟨flags, hflags⟩ := (@exists_nullableFlags_iff clickhouseTableName _ _).mpr hnames
  have hlength := congrArg List.length hnames
  rw [List.length_map] at hlength
  rw [hflags]
  unfold nullableFlagsFromClickhouseColumns at hflags
  simp only [hlength, ne_eq, not_true_eq_false, if_false] at hflags
  refine congrArg Except.ok ?_
  calc flags
    _ = ((createTableColumns engine schema).zip
          (expectedClickhouseColumnNames schema engine)).zipIdx.map fun x =>
            clickhouseTypeExpectsNullableMarker x.1.1.2 := by
        refine eq_map_of_mapM_eq_ok (fun x _ flag hflag => ?_) hflags
        by_cases hname : x.1.1.1 = x.1.2
        · rw [if_neg (not_not.mpr hname)] at hflag
          exact (Except.ok.inj hflag).symm
        · rw [if_pos hname] at hflag
          exact absurd hflag bailWith_ne_ok
    _ = ((createTableColumns engine schema).zip
          (expectedClickhouseColumnNames schema engine)).map fun x =>
            clickhouseTypeExpectsNullableMarker x.1.2 := by
        rw [← List.zipIdx_map_fst 0 (List.zip _ _), List.map_map, List.zipIdx_map_fst]
        rfl
    _ = createdNullableFlags engine schema := by
        rw [createdNullableFlags, ← List.map_fst_zip hlength.le, List.map_map,
          List.map_fst_zip hlength.le]
        rfl

def primaryKeyColumnsSorted (tableName : String) (columns : List ColumnSchema) :
    EtlResult (List ColumnSchema) :=
  let pkColumns := columns.filter ColumnSchema.primaryKey
  if pkColumns.isEmpty then
    bailWith .sourceSchemaError "ClickHouse ReplacingMergeTree requires a primary key"
      ("Table '" ++ tableName ++ "' has no primary-key columns; set `engine: merge_tree` or " ++
        "define a PK on the source table.")
  else
    .ok (pkColumns.insertionSort fun a b =>
      a.primaryKeyOrdinalPosition.getD 0 ≤ b.primaryKeyOrdinalPosition.getD 0)

/-- Rejects schemas whose deletes cannot be written. -/
def validateReplicaIdentityForClickhouse (schema : ReplicatedTableSchema)
    (engine : ClickHouseEngine) : EtlResult Unit :=
  let tableName := schema.tableSchema.name.schema ++ "." ++ schema.tableSchema.name.name
  if !schema.allPrimaryKeyColumnsReplicated then
    bailWith .sourceSchemaError
      "ClickHouse requires all source primary-key columns to be replicated"
      ("Table '" ++ tableName ++ "' omits source primary-key columns from replication: " ++
        ",".intercalate (schema.unreplicatedPrimaryKeyColumnSchemas.map ColumnSchema.name))
  else if engine = .replacingMergeTree ∧ schema.primaryKeyColumnSchemas.isEmpty then
    bailWith .sourceSchemaError "ClickHouse ReplacingMergeTree requires a primary key"
      ("Table '" ++ tableName ++ "' has no primary-key columns; set `engine: merge_tree` or " ++
        "define a PK on the source table.")
  else
    let rejects (identityType : String) : EtlResult Unit :=
      bailWith .sourceSchemaError "ClickHouse requires primary-key or full replica identity"
        ("Table '" ++ tableName ++ "' uses replica identity " ++ identityType ++
          ". ClickHouse needs the source row identity to match the primary key (so DELETE " ++
          "tombstones land in the right PK slots) or to carry the full row image. Configure " ++
          "REPLICA IDENTITY DEFAULT (when the PK is the natural identity) or REPLICA IDENTITY " ++
          "FULL.")
    match schema.identityType with
    | .primaryKey | .full => .ok ()
    | .alternativeKey => rejects "AlternativeKey"
    | .missing => rejects "Missing"

/-- The primary key is the sort key of a replacing table, so its columns stay. -/
def rejectPkAltersUnderReplacingMergeTree (clickhouseTableName : String) (diff : SchemaDiff)
    (currentSchema : ReplicatedTableSchema) : EtlResult Unit := do
  for column in diff.columnsToRemove do
    if column.primaryKey then
      bailWith .sourceSchemaError
        "ReplacingMergeTree does not support dropping a primary-key column"
        ("Table '" ++ clickhouseTableName ++ "': DROP COLUMN '" ++ column.name ++ "' would " ++
          "invalidate the ReplacingMergeTree ORDER BY / dedup key. Switch this table to " ++
          "`engine: merge_tree` or restore the column on the source.")
  for rename in diff.columnsToRename do
    let wasPk :=
      (currentSchema.columnSchemas.find? (·.name = rename.oldName)).any ColumnSchema.primaryKey
    if wasPk then
      bailWith .sourceSchemaError
        "ReplacingMergeTree does not support renaming a primary-key column"
        ("Table '" ++ clickhouseTableName ++ "': RENAME COLUMN '" ++ rename.oldName ++ "' -> '" ++
          rename.newName ++ "' would invalidate the ReplacingMergeTree ORDER BY / dedup key. " ++
          "Switch this table to `engine: merge_tree` or revert the rename on the source.")

end ClickHouse

end Etl
