import Etl.Types.Schema
import Mathlib.Data.List.Sort

/-! # Schema rows

The rows that hold a schema version in the database and the conversions between a row and a
table schema. Types are stored by name; a type without a storage name comes back as text, and
columns come back in ordinal order.

Reference: `etl-postgres/src/replication/schema.rs` (`postgres_type_to_string`).
-/

namespace Etl

/-- The storage name of every type that has one. -/
def typeMappings : List (PgType × String) :=
  [(.bool, "BOOL"), (.char, "CHAR"), (.int2, "INT2"), (.other "int2vector" true, "INT2_VECTOR"),
    (.int4, "INT4"), (.int8, "INT8"), (.other "regproc" false, "REGPROC"), (.float4, "FLOAT4"),
    (.float8, "FLOAT8"), (.text, "TEXT"), (.other "tid" false, "TID"),
    (.other "xid" false, "XID"), (.other "cid" false, "CID"), (.varchar, "VARCHAR"),
    (.timestamp, "TIMESTAMP"), (.timestamptz, "TIMESTAMPTZ"), (.date, "DATE"), (.time, "TIME"),
    (.other "timetz" false, "TIMETZ"), (.bytea, "BYTEA"), (.uuid, "UUID"), (.json, "JSON"),
    (.jsonb, "JSONB"), (.name, "NAME"), (.bpchar, "BPCHAR"), (.numeric, "NUMERIC"),
    (.money, "MONEY"), (.other "interval" false, "INTERVAL"), (.other "inet" false, "INET"),
    (.other "cidr" false, "CIDR"), (.other "macaddr" false, "MACADDR"),
    (.other "macaddr8" false, "MACADDR8"), (.other "bit" false, "BIT"),
    (.other "varbit" false, "VARBIT"), (.other "point" false, "POINT"),
    (.other "lseg" false, "LSEG"), (.other "path" false, "PATH"), (.other "box" false, "BOX"),
    (.other "polygon" false, "POLYGON"), (.other "line" false, "LINE"),
    (.other "circle" false, "CIRCLE"), (.oid, "OID"), (.other "oidvector" true, "OID_VECTOR"),
    (.other "xml" false, "XML"), (.other "pg_node_tree" false, "PG_NODE_TREE"),
    (.other "aclitem" false, "ACLITEM"), (.other "refcursor" false, "REFCURSOR"),
    (.other "regprocedure" false, "REGPROCEDURE"), (.other "regoper" false, "REGOPER"),
    (.other "regoperator" false, "REGOPERATOR"), (.other "regclass" false, "REGCLASS"),
    (.other "regtype" false, "REGTYPE"), (.other "txid_snapshot" false, "TXID_SNAPSHOT"),
    (.other "pg_lsn" false, "PG_LSN"), (.other "jsonpath" false, "JSONPATH"),
    (.other "regnamespace" false, "REGNAMESPACE"), (.other "regrole" false, "REGROLE"),
    (.other "regcollation" false, "REGCOLLATION"),
    (.other "pg_brin_bloom_summary" false, "PG_BRIN_BLOOM_SUMMARY"),
    (.other "pg_brin_minmax_multi_summary" false, "PG_BRIN_MINMAX_MULTI_SUMMARY"),
    (.other "pg_mcv_list" false, "PG_MCV_LIST"), (.other "pg_snapshot" false, "PG_SNAPSHOT"),
    (.other "xid8" false, "XID8"), (.other "tsvector" false, "TSVECTOR"),
    (.other "tsquery" false, "TSQUERY"), (.other "gtsvector" false, "GTSVECTOR"),
    (.other "regconfig" false, "REGCONFIG"), (.other "regdictionary" false, "REGDICTIONARY"),
    (.boolArray, "BOOL_ARRAY"), (.byteaArray, "BYTEA_ARRAY"), (.charArray, "CHAR_ARRAY"),
    (.nameArray, "NAME_ARRAY"), (.int2Array, "INT2_ARRAY"),
    (.other "_int2vector" true, "INT2_VECTOR_ARRAY"), (.int4Array, "INT4_ARRAY"),
    (.int8Array, "INT8_ARRAY"), (.other "_regproc" true, "REGPROC_ARRAY"),
    (.float4Array, "FLOAT4_ARRAY"), (.float8Array, "FLOAT8_ARRAY"), (.oidArray, "OID_ARRAY"),
    (.other "_oidvector" true, "OID_VECTOR_ARRAY"), (.textArray, "TEXT_ARRAY"),
    (.other "_tid" true, "TID_ARRAY"), (.other "_xid" true, "XID_ARRAY"),
    (.other "_cid" true, "CID_ARRAY"), (.bpcharArray, "BPCHAR_ARRAY"),
    (.varcharArray, "VARCHAR_ARRAY"), (.timeArray, "TIME_ARRAY"),
    (.timestampArray, "TIMESTAMP_ARRAY"), (.timestamptzArray, "TIMESTAMPTZ_ARRAY"),
    (.dateArray, "DATE_ARRAY"), (.other "_timetz" true, "TIMETZ_ARRAY"),
    (.other "_interval" true, "INTERVAL_ARRAY"), (.uuidArray, "UUID_ARRAY"),
    (.jsonArray, "JSON_ARRAY"), (.jsonbArray, "JSONB_ARRAY"), (.numericArray, "NUMERIC_ARRAY"),
    (.moneyArray, "MONEY_ARRAY"), (.other "_xml" true, "XML_ARRAY"),
    (.other "_aclitem" true, "ACLITEM_ARRAY"), (.other "_inet" true, "INET_ARRAY"),
    (.other "_cidr" true, "CIDR_ARRAY"), (.other "_macaddr" true, "MACADDR_ARRAY"),
    (.other "_macaddr8" true, "MACADDR8_ARRAY"), (.other "_cstring" true, "CSTRING_ARRAY"),
    (.other "_refcursor" true, "REFCURSOR_ARRAY"),
    (.other "_regprocedure" true, "REGPROCEDURE_ARRAY"),
    (.other "_regoper" true, "REGOPER_ARRAY"), (.other "_regoperator" true, "REGOPERATOR_ARRAY"),
    (.other "_regclass" true, "REGCLASS_ARRAY"), (.other "_regtype" true, "REGTYPE_ARRAY"),
    (.other "_record" false, "RECORD_ARRAY"),
    (.other "_txid_snapshot" true, "TXID_SNAPSHOT_ARRAY"), (.other "_bit" true, "BIT_ARRAY"),
    (.other "_varbit" true, "VARBIT_ARRAY"), (.other "_point" true, "POINT_ARRAY"),
    (.other "_lseg" true, "LSEG_ARRAY"), (.other "_path" true, "PATH_ARRAY"),
    (.other "_box" true, "BOX_ARRAY"), (.other "_polygon" true, "POLYGON_ARRAY"),
    (.other "_line" true, "LINE_ARRAY"), (.other "_circle" true, "CIRCLE_ARRAY"),
    (.other "_pg_lsn" true, "PG_LSN_ARRAY"), (.other "_tsvector" true, "TS_VECTOR_ARRAY"),
    (.other "_tsquery" true, "TSQUERY_ARRAY"), (.other "_gtsvector" true, "GTS_VECTOR_ARRAY"),
    (.other "_regconfig" true, "REGCONFIG_ARRAY"),
    (.other "_regdictionary" true, "REGDICTIONARY_ARRAY"),
    (.other "_jsonpath" true, "JSONPATH_ARRAY"),
    (.other "_regnamespace" true, "REGNAMESPACE_ARRAY"),
    (.other "_regrole" true, "REGROLE_ARRAY"),
    (.other "_regcollation" true, "REGCOLLATION_ARRAY"),
    (.other "_pg_snapshot" true, "PG_SNAPSHOT_ARRAY"), (.other "_xid8" true, "XID8_ARRAY"),
    (.other "int4range" false, "INT4_RANGE"), (.other "int8range" false, "INT8_RANGE"),
    (.other "numrange" false, "NUM_RANGE"), (.other "tsrange" false, "TS_RANGE"),
    (.other "tstzrange" false, "TSTZ_RANGE"), (.other "daterange" false, "DATE_RANGE"),
    (.other "int4multirange" false, "INT4MULTI_RANGE"),
    (.other "int8multirange" false, "INT8MULTI_RANGE"),
    (.other "nummultirange" false, "NUMMULTI_RANGE"),
    (.other "tsmultirange" false, "TSMULTI_RANGE"),
    (.other "tstzmultirange" false, "TSTZMULTI_RANGE"),
    (.other "datemultirange" false, "DATEMULTI_RANGE"),
    (.other "_int4range" true, "INT4_RANGE_ARRAY"),
    (.other "_int8range" true, "INT8_RANGE_ARRAY"), (.other "_numrange" true, "NUM_RANGE_ARRAY"),
    (.other "_tsrange" true, "TS_RANGE_ARRAY"), (.other "_tstzrange" true, "TSTZ_RANGE_ARRAY"),
    (.other "_daterange" true, "DATE_RANGE_ARRAY"),
    (.other "_int4multirange" true, "INT4MULTI_RANGE_ARRAY"),
    (.other "_int8multirange" true, "INT8MULTI_RANGE_ARRAY"),
    (.other "_nummultirange" true, "NUMMULTI_RANGE_ARRAY"),
    (.other "_tsmultirange" true, "TSMULTI_RANGE_ARRAY"),
    (.other "_tstzmultirange" true, "TSTZMULTI_RANGE_ARRAY"),
    (.other "_datemultirange" true, "DATEMULTI_RANGE_ARRAY")]

/-- The name a type has for Postgres, when it is not one of the distinguished ones. -/
def PgType.otherName : PgType → String
  | .other typeName _ => typeName
  | _ => ""

/-- The storage name of a type. -/
def postgresTypeToString (typ : PgType) : String :=
  match typeMappings.find? (fun m => m.1 = typ) with
  | some m => m.2
  | none => "UNKNOWN(" ++ typ.otherName ++ ")"

/-- The type of a storage name, falling back to text. -/
def stringToPostgresType (typeStr : String) : PgType :=
  match typeMappings.find? (fun m => m.2 = typeStr) with
  | some m => m.1
  | none => .text

/-- A row of the column table. -/
structure StoredColumn where
  columnName : String
  columnType : String
  typeModifier : ℤ
  nullable : Bool
  ordinalPosition : ℤ
  primaryKeyOrdinalPosition : Option ℤ
  deriving DecidableEq, Repr

/-- A row of the schema table with its column rows, without the key columns. -/
structure StoredSchema where
  schemaName : String
  tableName : String
  columns : List StoredColumn
  deriving DecidableEq, Repr

def storedColumn (column : ColumnSchema) : StoredColumn where
  columnName := column.name
  columnType := postgresTypeToString column.typ
  typeModifier := column.modifier
  nullable := column.nullable
  ordinalPosition := column.ordinalPosition
  primaryKeyOrdinalPosition := column.primaryKeyOrdinalPosition

def storedSchema (tableSchema : TableSchema) : StoredSchema where
  schemaName := tableSchema.name.schema
  tableName := tableSchema.name.name
  columns := tableSchema.columnSchemas.map storedColumn

def parseColumnSchema (row : StoredColumn) : ColumnSchema where
  name := row.columnName
  typ := stringToPostgresType row.columnType
  modifier := row.typeModifier
  ordinalPosition := row.ordinalPosition
  primaryKeyOrdinalPosition := row.primaryKeyOrdinalPosition
  nullable := row.nullable

/-- Reads a version back: its row joined with its column rows in ordinal order. The join is
an inner one, so a version without columns yields no row. -/
def loadedSchema (tableId : TableId) (snapshotId : SnapshotId) (row : StoredSchema) :
    Option TableSchema :=
  if row.columns = [] then none
  else some
    { id := tableId
      name := ⟨row.schemaName, row.tableName⟩
      columnSchemas :=
        (row.columns.insertionSort (fun a b => a.ordinalPosition ≤ b.ordinalPosition)).map
          parseColumnSchema
      snapshotId := snapshotId }

end Etl
