import Mathlib.Data.List.Basic
import Mathlib.Data.Nat.Basic

/-! # Table schemas

Postgres positions, table identifiers, column types and versioned table schemas. A log
sequence number is only ever compared and maximised by the pipeline, so natural numbers
carry it; a schema version is identified by the position of the DDL message that produced
it, with zero for the schema captured by the initial copy.

Reference: `etl-postgres/src/types/schema.rs`.
-/

namespace Etl

/-- A position in the write-ahead log. -/
abbrev PgLsn : Type := ℕ

abbrev TableId : Type := ℕ

/-- The identifier of a schema version: the position of the DDL message that created it. -/
abbrev SnapshotId : Type := ℕ

/-- The version captured by the initial copy. -/
def SnapshotId.initial : SnapshotId := 0

/-- The Postgres types that the text conversion distinguishes. Every other type is kept by
name, with whether Postgres gives it array kind. -/
inductive PgType where
  | bool | boolArray
  | char | bpchar | varchar | name | text | money
  | charArray | bpcharArray | varcharArray | nameArray | textArray | moneyArray
  | int2 | int2Array | int4 | int4Array | int8 | int8Array
  | float4 | float4Array | float8 | float8Array
  | numeric | numericArray | bytea | byteaArray
  | date | dateArray | time | timeArray
  | timestamp | timestampArray | timestamptz | timestamptzArray
  | uuid | uuidArray | json | jsonb | jsonArray | jsonbArray
  | oid | oidArray
  | other (typeName : String) (arrayKind : Bool)
  deriving DecidableEq, Repr

structure TableName where
  schema : String
  name : String
  deriving DecidableEq, Repr

/-- The name in messages. -/
def TableName.display (tableName : TableName) : String := tableName.schema ++ "." ++ tableName.name

/-- The schema of one column. -/
structure ColumnSchema where
  name : String
  typ : PgType
  modifier : ℤ
  ordinalPosition : ℤ
  primaryKeyOrdinalPosition : Option ℤ
  nullable : Bool
  deriving DecidableEq, Repr

/-- One version of a table's schema. -/
structure TableSchema where
  id : TableId
  name : TableName
  columnSchemas : List ColumnSchema
  snapshotId : SnapshotId
  deriving DecidableEq, Repr

end Etl
