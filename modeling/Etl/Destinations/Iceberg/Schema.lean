import Etl.Conversions.Text
import Etl.Types.SchemaDiff
import Mathlib.Data.List.Perm.Subperm

/-! # Iceberg table schemas

The fields of a changelog table: the replicated columns of the source, followed by the operation and
the sequence number of each change. Their names are numbered until they are free
(`findUniqueColumnName_spec`). Fields and the elements of lists take their identifiers from one
sequence, the fields first. Identifiers and suffixes are 32-bit integers in the source; a table has
at most 1600 columns, so none comes near that bound and natural numbers carry them.

Reference: `etl-destinations/src/iceberg/schema.rs` and `core.rs` (`find_unique_column_name`).
-/

namespace Etl.Iceberg

open List

/-- The types of fields without parts. -/
inductive PrimitiveType where
  | boolean | int | long | float | double | date | time | timestamp | timestamptz | string | uuid
  | binary
  deriving DecidableEq, Repr

inductive IcebergType where
  | primitive (typ : PrimitiveType)
  | list (element : PrimitiveType) (elementId : ℕ)
  deriving DecidableEq, Repr

/-- A field of a table. -/
structure NestedField where
  id : ℕ
  name : String
  fieldType : IcebergType
  required : Bool
  isIdentifier : Bool
  deriving DecidableEq, Repr

/-- The elements of an array column. -/
def postgresArrayTypeToIcebergType (fieldId : ℕ) : PgType → IcebergType
  | .boolArray => .list .boolean fieldId
  | .charArray | .bpcharArray | .varcharArray | .nameArray | .textArray => .list .string fieldId
  | .int2Array | .int4Array => .list .int fieldId
  | .int8Array => .list .long fieldId
  | .float4Array => .list .float fieldId
  | .float8Array => .list .double fieldId
  | .numericArray => .list .string fieldId
  | .dateArray => .list .date fieldId
  | .timeArray => .list .time fieldId
  | .timestampArray => .list .timestamp fieldId
  | .timestamptzArray => .list .timestamptz fieldId
  | .uuidArray => .list .uuid fieldId
  | .jsonArray | .jsonbArray => .list .string fieldId
  | .oidArray => .list .long fieldId
  | .byteaArray => .list .binary fieldId
  | _ => .list .string fieldId

def postgresScalarTypeToIcebergType : PgType → IcebergType
  | .bool => .primitive .boolean
  | .char | .bpchar | .varchar | .name | .text => .primitive .string
  | .int2 | .int4 => .primitive .int
  | .int8 => .primitive .long
  | .float4 => .primitive .float
  | .float8 => .primitive .double
  | .numeric => .primitive .string
  | .date => .primitive .date
  | .time => .primitive .time
  | .timestamp => .primitive .timestamp
  | .timestamptz => .primitive .timestamptz
  | .uuid => .primitive .uuid
  | .json | .jsonb => .primitive .string
  | .oid => .primitive .long
  | .bytea => .primitive .binary
  | _ => .primitive .string

/-- The fields of numbered columns; `nestedFieldId` is the next identifier of an element. -/
def buildFields : List (ColumnSchema × ℕ) → ℕ → List NestedField
  | [], _ => []
  | (column, fieldId) :: outerFields, nestedFieldId =>
    { id := fieldId
      name := column.name
      fieldType :=
        if isArrayType column.typ then postgresArrayTypeToIcebergType nestedFieldId column.typ
        else postgresScalarTypeToIcebergType column.typ
      required := !column.nullable
      isIdentifier := column.primaryKey } ::
    buildFields outerFields
      (if isArrayType column.typ then nestedFieldId + 1 else nestedFieldId)

/-- The fields of a table with the given columns. -/
def postgresToIcebergSchema (columnSchemas : List ColumnSchema) : List NestedField :=
  buildFields (columnSchemas.zipIdx 1) (columnSchemas.length + 1)

def NestedField.ids (field : NestedField) : List ℕ :=
  match field.fieldType with
  | .primitive _ => [field.id]
  | .list _ elementId => [field.id, elementId]

/-- A name with a number; zero stands for none. -/
def numberedName (newColumnName : String) : ℕ → String
  | 0 => newColumnName
  | number + 1 => newColumnName ++ "_" ++ (number + 1).repr

/-- Counts up from a number until the name is free, for as many steps as there are columns. -/
def findUniqueColumnNameFrom (columnSchemas : List ColumnSchema) (newColumnName : String) :
    ℕ → ℕ → String
  | 0, number => numberedName newColumnName number
  | steps + 1, number =>
    if columnSchemas.any (·.name = numberedName newColumnName number) then
      findUniqueColumnNameFrom columnSchemas newColumnName steps (number + 1)
    else numberedName newColumnName number

/-- A free name for an additional column. -/
def findUniqueColumnName (columnSchemas : List ColumnSchema) (newColumnName : String) : String :=
  findUniqueColumnNameFrom columnSchemas newColumnName columnSchemas.length 0

/-- The replicated columns with those of a change. -/
def buildCdcColumnSchemas (schema : ReplicatedTableSchema) : List ColumnSchema :=
  let columnSchemas := schema.columnSchemas
  let cdcOperationCol := findUniqueColumnName columnSchemas "cdc_operation"
  let sequenceNumberCol := findUniqueColumnName columnSchemas "sequence_number"
  columnSchemas ++ [⟨cdcOperationCol, .text, -1, 0, none, false⟩,
    ⟨sequenceNumberCol, .text, -1, 0, none, false⟩]

end Etl.Iceberg
