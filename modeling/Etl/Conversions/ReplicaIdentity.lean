import Etl.Types.SchemaDiff
import Mathlib.Data.List.Sort

/-! # Replicated schemas from the catalog and from relation messages

The replicated schema of a table is built twice. The initial copy reads the catalog: the columns, the
primary key and the replica identity come as attribute numbers, the published columns as names.
Streaming reads `RELATION` messages, which name the published columns and flag those of the replica
identity. `copyReplicatedTableSchema_eq_relation` says that both give the same schema, with the same
masks and so the same kind of identity.

What Postgres answers is modelled beside the code that reads it: the functions and views the queries
use, and the relation message of the output plugin.

Reference: `etl/src/conversions/event.rs` and `etl-postgres/src/types/schema.rs` (`IdentityMask`).
-/

namespace Etl

open List

/-! ## Masks -/

/-- Errors of schema operations. -/
inductive SchemaError where
  | unknownReplicatedColumns (columns : List String)
  deriving DecidableEq, Repr

/-- A list of names as it is printed; escapes inside of the names are left out. -/
def debugNames (names : List String) : String :=
  "[" ++ ", ".intercalate (names.map fun name => "\"" ++ name ++ "\"") ++ "]"

def SchemaError.display : SchemaError → String
  | .unknownReplicatedColumns columns =>
    "Received columns during replication that are not in the stored table schema: " ++
      debugNames columns

def SchemaError.toEtlError : SchemaError → EtlError
  | .unknownReplicatedColumns columns =>
    { kind := .corruptedTableSchema
      description :=
        "Received columns during replication that are not in the stored table schema"
      detail := some ("Unknown columns: " ++ debugNames columns ++
        "\n\nCause: The pipeline crashed after a schema change but before reporting progress " ++
        "back to Postgres. On restart, event streaming resumed from past events with an " ++
        "outdated schema.") }

/-- Rejects names that no column of the schema has. -/
def validateMaskColumnNames (tableSchema : TableSchema) (columnNames : List String) :
    Except SchemaError Unit :=
  let schemaColumnNames := tableSchema.columnSchemas.map ColumnSchema.name
  let unknownColumns := columnNames.filter fun name => !schemaColumnNames.contains name
  if unknownColumns ≠ [] then .error (.unknownReplicatedColumns unknownColumns) else .ok ()

def buildMaskBytes (tableSchema : TableSchema) (columnNames : List String) : List Bool :=
  tableSchema.columnSchemas.map fun columnSchema => columnNames.contains columnSchema.name

/-- The mask of the named columns. Replication and identity masks are built alike. -/
def tryBuildMask (tableSchema : TableSchema) (columnNames : List String) :
    Except SchemaError (List Bool) := do
  validateMaskColumnNames tableSchema columnNames
  return buildMaskBytes tableSchema columnNames

def ReplicationMask.tryBuild (tableSchema : TableSchema) (replicatedColumnNames : List String) :
    Except SchemaError (List Bool) :=
  tryBuildMask tableSchema replicatedColumnNames

def IdentityMask.tryBuild (tableSchema : TableSchema) (identityColumnNames : List String) :
    Except SchemaError (List Bool) :=
  tryBuildMask tableSchema identityColumnNames

theorem tryBuildMask_eq_ok_iff {tableSchema : TableSchema} {columnNames : List String}
    {mask : List Bool} :
    tryBuildMask tableSchema columnNames = .ok mask ↔
      (∀ name ∈ columnNames, name ∈ tableSchema.columnSchemas.map ColumnSchema.name) ∧
        buildMaskBytes tableSchema columnNames = mask := by
  have hunknown : columnNames.filter (fun name =>
        !(tableSchema.columnSchemas.map ColumnSchema.name).contains name) = [] ↔
      ∀ name ∈ columnNames, name ∈ tableSchema.columnSchemas.map ColumnSchema.name := by
    simp
  rw [tryBuildMask, validateMaskColumnNames]
  by_cases hall : ∀ name ∈ columnNames, name ∈ tableSchema.columnSchemas.map ColumnSchema.name
  · rw [if_neg (not_not.mpr (hunknown.mpr hall)), and_iff_right hall]
    exact ⟨Except.ok.inj, fun hmask => congrArg Except.ok hmask⟩
  · rw [if_pos (mt hunknown.mp hall)]
    exact ⟨fun herror => (by cases herror), fun hmask => absurd hmask.1 hall⟩

/-! ## Schemas from the catalog -/

/-- A column as the catalog queries return it. -/
structure ColumnSchemaMessage where
  attname : String
  atttypid : ℕ
  atttypmod : ℤ
  attnum : ℤ
  attnotnull : Bool
  deriving DecidableEq, Repr

/-- The identity of a table as the catalog queries return it. -/
structure IdentityMessage where
  primaryKeyAttnums : List ℤ
  relreplident : String
  replicaIdentityIndexAttnums : List ℤ
  deriving DecidableEq, Repr

/-- The column schemas in attribute order, with the positions of the primary-key columns in the
key. -/
def buildColumnSchemas (convertTypeOidToType : ℕ → PgType) (columns : List ColumnSchemaMessage)
    (primaryKeyAttnums : List ℤ) : List ColumnSchema :=
  -- a later entry of the map replaces an earlier one for the same number
  let primaryKeyPositions := (primaryKeyAttnums.zipIdx 1).reverse
  (columns.insertionSort fun a b => a.attnum ≤ b.attnum).map fun column =>
    { name := column.attname
      typ := convertTypeOidToType column.atttypid
      modifier := column.atttypmod
      ordinalPosition := column.attnum
      primaryKeyOrdinalPosition := (primaryKeyPositions.lookup column.attnum).map Int.ofNat
      nullable := !column.attnotnull }

def buildTableSchema (convertTypeOidToType : ℕ → PgType) (tableId : TableId)
    (tableName : TableName) (columns : List ColumnSchemaMessage) (primaryKeyAttnums : List ℤ)
    (snapshotId : SnapshotId) : TableSchema :=
  ⟨tableId, tableName, buildColumnSchemas convertTypeOidToType columns primaryKeyAttnums,
    snapshotId⟩

/-- The replicated columns with one of the given attribute numbers. -/
def buildIdentityMaskFromAttnums (tableSchema : TableSchema) (replicationMask : List Bool)
    (attnums : List ℤ) : List Bool :=
  (tableSchema.columnSchemas.zip replicationMask).map fun (columnSchema, replicated) =>
    replicated && attnums.contains columnSchema.ordinalPosition

def IdentityMessage.buildIdentityMask (identity : IdentityMessage) (tableSchema : TableSchema)
    (replicationMask : List Bool) : EtlResult (List Bool) :=
  match identity.relreplident with
  | "f" => .ok replicationMask
  | "d" =>
    .ok (buildIdentityMaskFromAttnums tableSchema replicationMask identity.primaryKeyAttnums)
  | "i" =>
    .ok (buildIdentityMaskFromAttnums tableSchema replicationMask
      identity.replicaIdentityIndexAttnums)
  | "n" => .ok (List.replicate tableSchema.columnSchemas.length false)
  | relreplident =>
    bailWith .conversionError "Invalid replica identity metadata"
      ("Unsupported replica identity mode '" ++ relreplident ++ "' for table '" ++
        tableSchema.name.display ++ "'")

def TableSchema.hasPrimaryKeys (tableSchema : TableSchema) : Bool :=
  tableSchema.columnSchemas.any ColumnSchema.primaryKey

/-- The names of the published columns, from the rows of `pg_publication_tables` for the table; a
row without a name means that all columns are published. Servers before version 15 publish all
columns. -/
def getReplicatedColumnNames (belowPostgres15 : Bool) (publicationName : String)
    (rows : List (Option String)) (tableSchema : TableSchema) : EtlResult (List String) :=
  let allColumns := tableSchema.columnSchemas.map ColumnSchema.name
  if belowPostgres15 then .ok allColumns
  else if rows = [] then
    bailWith .configError "Table not in publication"
      ("Table '" ++ tableSchema.name.display ++ "' is not included in publication '" ++
        publicationName ++
        "'. The table must be added to the publication to receive events.")
  else
    let columnNames := rows.reduceOption
    if columnNames = [] then .ok allColumns else .ok columnNames

/-! ## Schemas from relation messages -/

inductive ReplicaIdentity where
  | default | nothing | full | index
  deriving DecidableEq, Repr

structure RelationBodyColumn where
  flags : UInt8
  name : String
  deriving DecidableEq, Repr

/-- A relation message. -/
structure RelationBody where
  replicaIdentity : ReplicaIdentity
  columns : List RelationBodyColumn
  deriving DecidableEq, Repr

def parseReplicatedColumnNames (message : RelationBody) : List String :=
  message.columns.map RelationBodyColumn.name

/-- The names of the identity columns: all with a full identity, else those whose lowest flag is
set. -/
def parseReplicaIdentityColumnNames (message : RelationBody) : List String :=
  match message.replicaIdentity with
  | .full => message.columns.map RelationBodyColumn.name
  | _ =>
    (message.columns.filter fun column => column.flags &&& 1 = 1).map RelationBodyColumn.name

/-- The schema the handler of relation messages builds from the stored version. -/
def relationReplicatedTableSchema (tableSchema : TableSchema) (message : RelationBody) :
    EtlResult ReplicatedTableSchema := do
  let replicatedColumns := parseReplicatedColumnNames message
  let identityColumns := parseReplicaIdentityColumnNames message
  let replicationMask ←
    (ReplicationMask.tryBuild tableSchema replicatedColumns).mapError SchemaError.toEtlError
  let identityMask ←
    (IdentityMask.tryBuild tableSchema identityColumns).mapError SchemaError.toEtlError
  return ⟨tableSchema, replicationMask, identityMask⟩

/-! ## The source -/

/-- A row of `pg_attribute`. -/
structure PgAttribute where
  attname : String
  attnum : ℤ
  atttypid : ℕ
  atttypmod : ℤ
  attnotnull : Bool
  attisdropped : Bool
  attgenerated : Bool
  deriving DecidableEq, Repr

/-- Whether the row is a column of the table now. -/
def PgAttribute.isLive (attr : PgAttribute) : Bool :=
  0 < attr.attnum && !attr.attisdropped

/-- A table in the catalog: its attributes in order, the columns of its primary key and of the
primary key of its parent, and the columns of its replica-identity index. -/
structure SourceTable where
  id : TableId
  name : TableName
  attributes : List PgAttribute
  primaryKey : List ℤ
  parentPrimaryKey : List ℤ
  replicaIdentity : ReplicaIdentity
  replicaIdentityIndex : List ℤ
  attributes_sorted : attributes.Pairwise fun a b => a.attnum < b.attnum
  names_nodup : ((attributes.filter PgAttribute.isLive).map PgAttribute.attname).Nodup
  primaryKey_ne_nil : primaryKey ≠ []

/-- How a publication has the table: the attribute numbers of its column list, if there is one, and
what the server's version makes of it. -/
structure TablePublication (table : SourceTable) where
  name : String
  belowPostgres15 : Bool
  /-- Whether the catalog names the columns of a table without a column list. -/
  namesAllColumns : Bool
  columnList : Option (List ℤ)
  columnList_eq_none : belowPostgres15 = true → columnList = none
  columnList_live : ∀ list, columnList = some list →
    list ≠ [] ∧ ∀ attnum ∈ list, ∃ attr ∈ table.attributes,
      attr.isLive ∧ attr.attnum = attnum

namespace SourceTable

variable (table : SourceTable)

/-- The columns of the table that are not generated. -/
def columns : List PgAttribute :=
  table.attributes.filter fun attr => attr.isLive && !attr.attgenerated

/-- The function `etl.describe_table_schema`. -/
def describeTableSchema : List ColumnSchemaMessage :=
  table.columns.map fun attr =>
    ⟨attr.attname, attr.atttypid, attr.atttypmod, attr.attnum,
      attr.attnotnull⟩

/-- The setting in `pg_class`. -/
def relreplident : String :=
  match table.replicaIdentity with
  | .default => "d"
  | .nothing => "n"
  | .full => "f"
  | .index => "i"

/-- The function `etl.describe_table_identity`. Partitions without a primary key take that of their
parent. -/
def describeTableIdentity : IdentityMessage where
  primaryKeyAttnums :=
    table.primaryKey ++ if table.primaryKey = [] then table.parentPrimaryKey else []
  relreplident := table.relreplident
  replicaIdentityIndexAttnums := table.replicaIdentityIndex.filter (0 < ·)

/-- Whether the server takes the attribute as part of the replica identity. -/
def isIdentity (attr : PgAttribute) : Bool :=
  match table.replicaIdentity with
  | .default => table.primaryKey.contains attr.attnum
  | .nothing => false
  | .full => true
  | .index => table.replicaIdentityIndex.contains attr.attnum

/-- The schema of the table and its identity, as the copy reads them. -/
def getTableSchemaWithIdentity (convertTypeOidToType : ℕ → PgType) :
    TableSchema × IdentityMessage :=
  let identity := table.describeTableIdentity
  (buildTableSchema convertTypeOidToType table.id table.name table.describeTableSchema
    identity.primaryKeyAttnums SnapshotId.initial, identity)

end SourceTable

namespace TablePublication

variable {table : SourceTable} (publication : TablePublication table)

/-- The published columns: those of the column list, or all that are not generated. -/
def publishedColumns : List PgAttribute :=
  match publication.columnList with
  | none => table.columns
  | some list =>
    table.attributes.filter fun attr => attr.isLive && list.contains attr.attnum

/-- The rows of `pg_publication_tables` for the table. -/
def publicationTables : List (Option String) :=
  let attnames := publication.publishedColumns.map PgAttribute.attname
  if attnames = [] ∨ (publication.columnList = none ∧ publication.namesAllColumns = false) then
    [none]
  else attnames.map some

/-- The relation message the output plugin sends: the published columns in attribute order, with the
flags of the replica-identity columns among them. -/
def relationMessage : RelationBody where
  replicaIdentity := table.replicaIdentity
  columns := publication.publishedColumns.map fun attr =>
    { flags := if table.isIdentity attr then 1 else 0
      name := attr.attname }

/-- The schema the initial copy builds from the catalog. -/
def copyReplicatedTableSchema (convertTypeOidToType : ℕ → PgType) :
    EtlResult ReplicatedTableSchema := do
  let tableSchema := (table.getTableSchemaWithIdentity convertTypeOidToType).1
  let identity := (table.getTableSchemaWithIdentity convertTypeOidToType).2
  if !tableSchema.hasPrimaryKeys then
    bailWith .sourceSchemaError "Primary key not found"
      ("Table '" ++ tableSchema.name.display ++ "' has no primary key")
  let replicatedColumnNames ← getReplicatedColumnNames publication.belowPostgres15 publication.name
    publication.publicationTables tableSchema
  let replicationMask ← (ReplicationMask.tryBuild tableSchema replicatedColumnNames).mapError
    fun err => { kind := .invalidState, description := "Schema mismatch during table sync"
                 detail := some err.display }
  let identityMask ← identity.buildIdentityMask tableSchema replicationMask
  return ⟨tableSchema, replicationMask, identityMask⟩

end TablePublication

/-! ## Agreement -/

namespace SourceTable

variable (table : SourceTable) (convertTypeOidToType : ℕ → PgType)

/-- The schema of a column. -/
def columnSchema (attr : PgAttribute) : ColumnSchema where
  name := attr.attname
  typ := convertTypeOidToType attr.atttypid
  modifier := attr.atttypmod
  ordinalPosition := attr.attnum
  primaryKeyOrdinalPosition :=
    ((table.primaryKey.zipIdx 1).reverse.lookup attr.attnum).map Int.ofNat
  nullable := !attr.attnotnull

theorem primaryKeyAttnums_describeTableIdentity :
    table.describeTableIdentity.primaryKeyAttnums = table.primaryKey := by
  rw [describeTableIdentity, if_neg table.primaryKey_ne_nil, append_nil]

/-- The columns come in attribute order, so sorting them changes nothing. -/
theorem columnSchemas_getTableSchemaWithIdentity :
    (table.getTableSchemaWithIdentity convertTypeOidToType).1.columnSchemas =
      table.columns.map (table.columnSchema convertTypeOidToType) := by
  have hsorted : table.describeTableSchema.Pairwise fun a b => a.attnum ≤ b.attnum :=
    pairwise_map.mpr
      ((table.attributes_sorted.filter _).imp fun hlt => hlt.le)
  rw [getTableSchemaWithIdentity, buildTableSchema, buildColumnSchemas,
    primaryKeyAttnums_describeTableIdentity, hsorted.insertionSort_eq, describeTableSchema,
    map_map]
  rfl

theorem map_name_getTableSchemaWithIdentity :
    (table.getTableSchemaWithIdentity convertTypeOidToType).1.columnSchemas.map ColumnSchema.name =
      table.columns.map PgAttribute.attname := by
  rw [columnSchemas_getTableSchemaWithIdentity, map_map]
  rfl

/-- Live columns of one name are the same. -/
theorem eq_of_attname_eq {a b : PgAttribute} (ha : a ∈ table.attributes) (hb : b ∈ table.attributes)
    (haLive : a.isLive) (hbLive : b.isLive) (hname : a.attname = b.attname) : a = b :=
  inj_on_of_nodup_map table.names_nodup (mem_filter.mpr ⟨ha, haLive⟩)
    (mem_filter.mpr ⟨hb, hbLive⟩) hname

theorem isLive_of_mem_columns {a : PgAttribute} (ha : a ∈ table.columns) :
    a ∈ table.attributes ∧ a.isLive := by
  obtain ⟨hmem, hlive⟩ := mem_filter.mp ha
  exact ⟨hmem, (Bool.and_eq_true_iff.mp hlive).1⟩

end SourceTable

namespace TablePublication

variable {table : SourceTable} (publication : TablePublication table)
  (convertTypeOidToType : ℕ → PgType)

theorem isLive_of_mem_publishedColumns {a : PgAttribute} (ha : a ∈ publication.publishedColumns) :
    a ∈ table.attributes ∧ a.isLive := by
  rw [publishedColumns] at ha
  split at ha
  · exact table.isLive_of_mem_columns ha
  · obtain ⟨hmem, hlive⟩ := mem_filter.mp ha
    exact ⟨hmem, (Bool.and_eq_true_iff.mp hlive).1⟩

theorem publishedColumns_ne_nil {list : List ℤ} (hlist : publication.columnList = some list) :
    publication.publishedColumns ≠ [] := by
  obtain ⟨hne, hlive⟩ := publication.columnList_live list hlist
  obtain ⟨attnum, hattnum⟩ := exists_mem_of_ne_nil list hne
  obtain ⟨attr, hattr, hattrLive, rfl⟩ := hlive attnum hattnum
  refine ne_nil_of_mem (a := attr) ?_
  rw [publishedColumns, hlist]
  exact mem_filter.mpr
    ⟨hattr, Bool.and_eq_true_iff.mpr ⟨hattrLive, contains_iff_mem.mpr hattnum⟩⟩

/-- The copy reads the names that the relation message lists. -/
theorem getReplicatedColumnNames_eq :
    getReplicatedColumnNames publication.belowPostgres15 publication.name
        publication.publicationTables (table.getTableSchemaWithIdentity convertTypeOidToType).1 =
      .ok (parseReplicatedColumnNames publication.relationMessage) := by
  have hrelation : parseReplicatedColumnNames publication.relationMessage =
      publication.publishedColumns.map PgAttribute.attname := by
    rw [parseReplicatedColumnNames, relationMessage, map_map]
    rfl
  have hall : publication.columnList = none →
      publication.publishedColumns.map PgAttribute.attname =
        table.columns.map PgAttribute.attname := by
    intro hnone
    rw [publishedColumns, hnone]
  rw [getReplicatedColumnNames, hrelation, table.map_name_getTableSchemaWithIdentity]
  by_cases hbelow : publication.belowPostgres15
  · rw [if_pos hbelow, hall (publication.columnList_eq_none hbelow)]
  · rw [if_neg hbelow, publicationTables]
    by_cases hnone : publication.publishedColumns.map PgAttribute.attname = [] ∨
        (publication.columnList = none ∧ publication.namesAllColumns = false)
    · -- no names are reported: then there is no column list
      have hunlisted : publication.columnList = none := by
        rcases hnone with hempty | ⟨hunlisted, -⟩
        · by_contra hlisted
          obtain ⟨list, hlist⟩ := Option.ne_none_iff_exists'.mp hlisted
          exact publication.publishedColumns_ne_nil hlist (map_eq_nil_iff.mp hempty)
        · exact hunlisted
      rw [if_pos hnone, hall hunlisted]
      rfl
    · rw [if_neg hnone]
      rw [not_or] at hnone
      have hreduce : ((publication.publishedColumns.map PgAttribute.attname).map
          some).reduceOption = publication.publishedColumns.map PgAttribute.attname :=
        (filterMap_map ..).trans filterMap_some
      rw [hreduce, if_neg hnone.1, if_neg (mt map_eq_nil_iff.mp hnone.1)]

theorem buildMaskBytes_getTableSchemaWithIdentity {attributes : List PgAttribute}
    (hattributes : ∀ attr ∈ attributes, attr ∈ table.attributes ∧ attr.isLive) :
    buildMaskBytes (table.getTableSchemaWithIdentity convertTypeOidToType).1
        (attributes.map PgAttribute.attname) =
      table.columns.map fun attr => decide (attr ∈ attributes) := by
  rw [buildMaskBytes, table.columnSchemas_getTableSchemaWithIdentity, map_map]
  refine map_congr_left fun attr hattr => ?_
  obtain ⟨hmem, hlive⟩ := table.isLive_of_mem_columns hattr
  rw [Function.comp_apply, Bool.eq_iff_iff, contains_iff_mem, decide_eq_true_iff, mem_map]
  constructor
  · rintro ⟨other, hother, hname⟩
    rwa [← table.eq_of_attname_eq (hattributes other hother).1 hmem (hattributes other hother).2
      hlive hname]
  · intro hattr
    exact ⟨attr, hattr, rfl⟩

/-- The relation message flags the replica-identity columns among the published ones. -/
theorem parseReplicaIdentityColumnNames_relationMessage :
    parseReplicaIdentityColumnNames publication.relationMessage =
      (publication.publishedColumns.filter table.isIdentity).map PgAttribute.attname := by
  have hflags : ((publication.relationMessage.columns.filter
        fun column => column.flags &&& 1 = 1).map RelationBodyColumn.name) =
      (publication.publishedColumns.filter table.isIdentity).map PgAttribute.attname := by
    rw [relationMessage, filter_map, map_map]
    congr 1
    refine filter_congr fun attr _ => ?_
    cases hidentity : table.isIdentity attr <;> simp [hidentity]
  rw [parseReplicaIdentityColumnNames]
  split
  · rename_i hfull
    have hall : ∀ attr ∈ publication.publishedColumns, table.isIdentity attr = true := by
      intro attr _
      rw [SourceTable.isIdentity, show table.replicaIdentity = .full from hfull]
    rw [filter_eq_self.mpr hall, relationMessage, map_map]
    rfl
  · exact hflags

/-- A mask from attribute numbers, for a replication mask given column by column. -/
theorem buildIdentityMaskFromAttnums_eq (attnums : List ℤ) (replicated : PgAttribute → Bool) :
    buildIdentityMaskFromAttnums (table.getTableSchemaWithIdentity convertTypeOidToType).1
        (table.columns.map replicated) attnums =
      table.columns.map fun attr => replicated attr && attnums.contains attr.attnum := by
  rw [buildIdentityMaskFromAttnums, table.columnSchemas_getTableSchemaWithIdentity,
    zip_map', map_map]
  rfl

/-- The copy marks the replica-identity columns among the replicated ones. -/
theorem buildIdentityMask_eq (replicated : PgAttribute → Bool) :
    table.describeTableIdentity.buildIdentityMask
        (table.getTableSchemaWithIdentity convertTypeOidToType).1
        (table.columns.map replicated) =
      .ok (table.columns.map fun attr => replicated attr && table.isIdentity attr) := by
  have hrelreplident : table.describeTableIdentity.relreplident = table.relreplident := rfl
  rw [IdentityMessage.buildIdentityMask, hrelreplident, SourceTable.relreplident]
  cases hidentity : table.replicaIdentity with
  | default =>
    simp only [table.primaryKeyAttnums_describeTableIdentity, buildIdentityMaskFromAttnums_eq,
      SourceTable.isIdentity, hidentity]
  | nothing =>
    simp [SourceTable.isIdentity, hidentity, table.columnSchemas_getTableSchemaWithIdentity]
  | full => simp [SourceTable.isIdentity, hidentity]
  | index =>
    simp only [SourceTable.describeTableIdentity, buildIdentityMaskFromAttnums_eq,
      SourceTable.isIdentity, hidentity]
    -- the filter drops only numbers that no column has
    refine congrArg Except.ok (map_congr_left fun attr hattr => ?_)
    have hpos : 0 < attr.attnum :=
      of_decide_eq_true (Bool.and_eq_true_iff.mp (table.isLive_of_mem_columns hattr).2).1
    simp [hpos]

/-- The schema both paths build. -/
def replicatedTableSchema : ReplicatedTableSchema where
  tableSchema := (table.getTableSchemaWithIdentity convertTypeOidToType).1
  replicationMask := table.columns.map fun attr => decide (attr ∈ publication.publishedColumns)
  identityMask := table.columns.map fun attr =>
    decide (attr ∈ publication.publishedColumns) && table.isIdentity attr

/-- The schema of the table has the names of all published columns. -/
def NamesKnown : Prop :=
  ∀ name ∈ parseReplicatedColumnNames publication.relationMessage,
    name ∈ table.columns.map PgAttribute.attname

theorem tryBuild_replicated_eq_ok_iff {mask : List Bool} :
    ReplicationMask.tryBuild (table.getTableSchemaWithIdentity convertTypeOidToType).1
        (parseReplicatedColumnNames publication.relationMessage) = .ok mask ↔
      publication.NamesKnown ∧
        (publication.replicatedTableSchema convertTypeOidToType).replicationMask = mask := by
  have hnames : parseReplicatedColumnNames publication.relationMessage =
      publication.publishedColumns.map PgAttribute.attname := by
    rw [parseReplicatedColumnNames, relationMessage, map_map]
    rfl
  rw [ReplicationMask.tryBuild, tryBuildMask_eq_ok_iff, NamesKnown,
    table.map_name_getTableSchemaWithIdentity, hnames,
    buildMaskBytes_getTableSchemaWithIdentity convertTypeOidToType
      fun attr hattr => publication.isLive_of_mem_publishedColumns hattr]
  rfl

/-- The copy succeeds when a primary-key column is left and all published names are known. -/
theorem copyReplicatedTableSchema_eq_ok_iff {schema : ReplicatedTableSchema} :
    publication.copyReplicatedTableSchema convertTypeOidToType = .ok schema ↔
      (table.getTableSchemaWithIdentity convertTypeOidToType).1.hasPrimaryKeys = true ∧
        publication.NamesKnown ∧
        publication.replicatedTableSchema convertTypeOidToType = schema := by
  have hidentity : table.describeTableIdentity.buildIdentityMask
        (table.getTableSchemaWithIdentity convertTypeOidToType).1
        (publication.replicatedTableSchema convertTypeOidToType).replicationMask =
      .ok (publication.replicatedTableSchema convertTypeOidToType).identityMask :=
    buildIdentityMask_eq convertTypeOidToType _
  have hsecond : (table.getTableSchemaWithIdentity convertTypeOidToType).2 =
      table.describeTableIdentity := rfl
  rw [copyReplicatedTableSchema]
  by_cases hkeys : (table.getTableSchemaWithIdentity convertTypeOidToType).1.hasPrimaryKeys = true
  · simp only [hkeys, publication.getReplicatedColumnNames_eq, ok_bind, hsecond, true_and]
    cases hmask : ReplicationMask.tryBuild
        (table.getTableSchemaWithIdentity convertTypeOidToType).1
        (parseReplicatedColumnNames publication.relationMessage) with
    | error err =>
      refine ⟨fun herror => (by cases herror), fun ⟨hknown, _⟩ => ?_⟩
      have hok := (publication.tryBuild_replicated_eq_ok_iff convertTypeOidToType).mpr
        ⟨hknown, rfl⟩
      rw [hmask] at hok
      cases hok
    | ok mask =>
      obtain ⟨hknown, rfl⟩ :=
        (publication.tryBuild_replicated_eq_ok_iff convertTypeOidToType).mp hmask
      simp only [Except.mapError, ok_bind, hidentity]
      exact ⟨fun hok => ⟨hknown, Except.ok.inj hok⟩, fun ⟨_, hok⟩ => congrArg Except.ok hok⟩
  · refine ⟨fun herror => ?_, fun hok => absurd hok.1 hkeys⟩
    simp only [hkeys] at herror
    cases herror

theorem relationReplicatedTableSchema_eq_ok (hknown : publication.NamesKnown) :
    relationReplicatedTableSchema (table.getTableSchemaWithIdentity convertTypeOidToType).1
        publication.relationMessage =
      .ok (publication.replicatedTableSchema convertTypeOidToType) := by
  have hreplicated := (publication.tryBuild_replicated_eq_ok_iff convertTypeOidToType).mpr
    ⟨hknown, rfl⟩
  have hidentity : IdentityMask.tryBuild (table.getTableSchemaWithIdentity convertTypeOidToType).1
        (parseReplicaIdentityColumnNames publication.relationMessage) =
      .ok (publication.replicatedTableSchema convertTypeOidToType).identityMask := by
    rw [IdentityMask.tryBuild, tryBuildMask_eq_ok_iff, table.map_name_getTableSchemaWithIdentity,
      publication.parseReplicaIdentityColumnNames_relationMessage]
    constructor
    · intro name hname
      obtain ⟨attr, hattr, rfl⟩ := mem_map.mp hname
      refine hknown _ (mem_map.mpr ⟨_, mem_map_of_mem (mem_filter.mp hattr).1, rfl⟩)
    · rw [buildMaskBytes_getTableSchemaWithIdentity convertTypeOidToType fun attr hattr =>
        publication.isLive_of_mem_publishedColumns (mem_filter.mp hattr).1]
      refine map_congr_left fun attr _ => ?_
      rw [Bool.eq_iff_iff, decide_eq_true_iff, mem_filter, Bool.and_eq_true_iff, decide_eq_true_iff]
  simp only [relationReplicatedTableSchema, hreplicated, hidentity]
  rfl

end TablePublication

/-- Whatever schema the copy builds, the relation message gives the same one from the stored
version: the same masks and the same kind of identity. The copy builds one for every table that has
a primary-key column left, when no generated column is published. -/
theorem copyReplicatedTableSchema_eq_relation (convertTypeOidToType : ℕ → PgType)
    (table : SourceTable) (publication : TablePublication table) :
    (∀ schema, publication.copyReplicatedTableSchema convertTypeOidToType = .ok schema →
      ∃ streamed, relationReplicatedTableSchema schema.tableSchema publication.relationMessage =
          .ok streamed ∧
        streamed.replicationMask = schema.replicationMask ∧
        streamed.identityMask = schema.identityMask ∧
        streamed.identityType = schema.identityType) ∧
      ((∃ attr ∈ table.columns, attr.attnum ∈ table.primaryKey) →
        (∀ attr ∈ publication.publishedColumns, attr.attgenerated = false) →
        ∃ schema, publication.copyReplicatedTableSchema convertTypeOidToType = .ok schema) := by
  constructor
  · intro schema hschema
    obtain ⟨-, hknown, rfl⟩ :=
      (publication.copyReplicatedTableSchema_eq_ok_iff convertTypeOidToType).mp hschema
    exact ⟨_, publication.relationReplicatedTableSchema_eq_ok convertTypeOidToType hknown,
      rfl, rfl, rfl⟩
  · rintro ⟨attr, hattr, hkey⟩ hgenerated
    refine ⟨_, (publication.copyReplicatedTableSchema_eq_ok_iff convertTypeOidToType).mpr
      ⟨?_, ?_, rfl⟩⟩
    · rw [TableSchema.hasPrimaryKeys, table.columnSchemas_getTableSchemaWithIdentity,
        any_map, any_eq_true]
      refine ⟨attr, hattr, ?_⟩
      have hlookup : ((table.primaryKey.zipIdx 1).reverse.lookup attr.attnum).isSome = true := by
        obtain ⟨i, hi, hget⟩ := mem_iff_getElem.mp hkey
        rw [lookup_isSome_iff]
        refine ⟨(attr.attnum, i + 1), ?_, beq_self_eq_true _⟩
        rw [mem_reverse, mk_mem_zipIdx_iff_le_and_getElem?_sub]
        exact ⟨by omega, by rw [Nat.add_sub_cancel, List.getElem?_eq_getElem hi, hget]⟩
      rw [Function.comp_apply, ColumnSchema.primaryKey, SourceTable.columnSchema, Option.isSome_map]
      exact hlookup
    · intro name hname
      obtain ⟨column, hcolumn, rfl⟩ := mem_map.mp hname
      obtain ⟨published, hpublished, rfl⟩ := mem_map.mp hcolumn
      obtain ⟨hmem, hlive⟩ := publication.isLive_of_mem_publishedColumns hpublished
      refine mem_map_of_mem (mem_filter.mpr ⟨hmem, ?_⟩)
      rw [hlive, hgenerated published hpublished]
      rfl

/-- A table with a dropped and a generated column whose rows are identified by a unique index. -/
def ordersTable : SourceTable where
  id := 16384
  name := ⟨"public", "orders"⟩
  attributes :=
    [⟨"id", 1, 20, -1, true, false, false⟩,
      ⟨"........pg.dropped.2........", 2, 0, -1, false, true, false⟩,
      ⟨"code", 3, 25, -1, true, false, false⟩, ⟨"total", 4, 1700, -1, false, false, true⟩,
      ⟨"note", 5, 25, -1, false, false, false⟩]
  primaryKey := [1]
  parentPrimaryKey := []
  replicaIdentity := .index
  replicaIdentityIndex := [3]
  attributes_sorted := by decide
  names_nodup := by decide
  primaryKey_ne_nil := by decide

def ordersPublication : TablePublication ordersTable where
  name := "etl"
  belowPostgres15 := false
  namesAllColumns := true
  columnList := some [1, 3]
  columnList_eq_none := by decide
  columnList_live := by
    rintro list hlist
    cases hlist
    decide

theorem ordersPublication_schemas_agree :
    ∃ schema streamed,
      ordersPublication.copyReplicatedTableSchema (fun _ => .text) = .ok schema ∧
        relationReplicatedTableSchema schema.tableSchema ordersPublication.relationMessage =
          .ok streamed ∧
        streamed.replicationMask = schema.replicationMask ∧
        streamed.identityMask = schema.identityMask ∧
        streamed.identityType = schema.identityType := by
  obtain ⟨hagree, hsucceeds⟩ :=
    copyReplicatedTableSchema_eq_relation (fun _ => .text) ordersTable ordersPublication
  obtain ⟨schema, hschema⟩ := hsucceeds (by decide) (by decide)
  obtain ⟨streamed, hstreamed⟩ := hagree schema hschema
  exact ⟨schema, streamed, hschema, hstreamed⟩

end Etl
