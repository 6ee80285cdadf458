import Etl.Common.ProtobufMessage
import Etl.Conversions.Numeric
import Etl.Destinations.BigQuery.Cdc
import Etl.Types.CellNonOptional

/-! # Rows on the wire to BigQuery

The checks of cells, the encoding of rows as protobuf messages with its length function, and the
descriptor that declares the fields of the messages. The three go through the types one by one and
do not refer to each other. How dates, times and identifiers are printed, and which JSON numbers
would be rounded, are parameters.

Reference: `etl-destinations/src/bigquery/encoding.rs` and
`etl-destinations/src/bigquery/validation.rs`.
-/

namespace Etl.BigQuery

open Protobuf

/-- The texts of values that are written as strings. -/
structure CellFormats where
  date : ℤ → String
  time : ℕ → String
  timestamp : ℤ → String
  timestamptz : ℤ → String
  uuid : BitVec 128 → String

/-- Formats for rows without dates, times and identifiers. -/
def plainFormats : CellFormats where
  date _ := ""
  time _ := ""
  timestamp _ := ""
  timestamptz _ := ""
  uuid _ := ""

/-! ## Validation -/

def bigqueryBignumericMaxScale : ℕ := 38

/-- The number of fractional digits of a numeric as it is printed. -/
def bigqueryBignumericScale (numeric : PgNumeric) : ℕ :=
  match numeric.display.toList.dropWhile (· ≠ '.') with
  | [] => 0
  | _ :: fractional => (String.ofList fractional).utf8ByteSize

/-- Rejects numerics that would be rounded. -/
def validateNumericForBigquery (numeric : PgNumeric) : EtlResult Unit :=
  match numeric with
  | .value .. =>
    if bigqueryBignumericMaxScale < bigqueryBignumericScale numeric then
      bailWith .unsupportedValueInDestination
        "Numeric value would be rounded by BigQuery BIGNUMERIC"
        (s!"A numeric value has more than {bigqueryBignumericMaxScale} decimal places and would " ++
          "be rounded by BigQuery")
    else .ok ()
  | _ => .ok ()

/-- An error as it is printed, under the name of its kind. -/
def displayError (kind : String) (err : EtlError) : String :=
  "[" ++ kind ++ "] " ++ err.description ++ (err.detail.map (": " ++ ·)).getD ""

section Validation

-- Rejects JSON values with integers that would be rounded.
variable (validateJsonForBigquery : String → EtlResult Unit)

/-- Checks the elements of an array one by one. -/
def validateElements {α : Type} (validate : α → EtlResult Unit) (elements : List α) :
    EtlResult Unit :=
  forM elements.zipIdx fun (element, index) =>
    (validate element).mapError fun err =>
      { kind := err.kind, description := "Array element validation failed"
        detail := some (s!"Element at index {index}: " ++
          displayError "UnsupportedValueInDestination" err) }

def validateArrayCellForBigquery : ArrayCellNonOptional → EtlResult Unit
  | .numeric numerics => validateElements validateNumericForBigquery numerics
  | .json values => validateElements validateJsonForBigquery values
  | _ => .ok ()

def validateCellForBigquery : CellNonOptional → EtlResult Unit
  | .numeric numeric => validateNumericForBigquery numeric
  | .json json => validateJsonForBigquery json
  | .array array => validateArrayCellForBigquery validateJsonForBigquery array
  | _ => .ok ()

/-- Converts and checks the cell of a field. -/
def convertCell (index : ℕ) (cell : Cell) : EtlResult CellNonOptional := do
  let cellNonOptional ← (CellNonOptional.tryFrom cell).mapError fun err =>
    { kind := err.kind, description := "Cell conversion failed during BigQuery validation"
      detail := some (s!"Failed to convert cell at index {index - 1} to non-optional format: " ++
        displayError "NullValuesNotSupportedInArrayInDestination" err) }
  (validateCellForBigquery validateJsonForBigquery cellNonOptional).mapError fun err =>
    { kind := err.kind, description := "Cell validation failed for BigQuery compatibility"
      detail := some (s!"Cell at index {index - 1} failed validation: " ++
        err.detail.getD "validation error") }
  return cellNonOptional

/-- The check of cells that rows are emitted with. -/
def checkCell (index : ℕ) (cell : Cell) : EtlResult Unit := do
  let _ ← convertCell validateJsonForBigquery index cell
  return ()

end Validation

/-! ## Encoding -/

/-- The text of an operation. -/
def BigQueryOperationType.display : BigQueryOperationType → String
  | .upsert => "UPSERT"
  | .delete => "DELETE"

def sequenceText (key : ChangeSequenceNumber) : String :=
  let (commitLsn, rest) := ofLex key
  let (txOrdinal, internalOrdinal) := ofLex rest
  hex16 commitLsn ++ "/" ++ hex16 txOrdinal ++ "/" ++ hex16 internalOrdinal

/-- The cell that is written for a value. -/
def RowValue.nonOptional : RowValue → EtlResult CellNonOptional
  | .cell value => CellNonOptional.tryFrom value
  | .operation kind => .ok (.string kind.display)
  | .sequence key => .ok (.string (sequenceText key))

/-- The cells of an emitted row with their tags. -/
def taggedCells (row : BigQueryTableRow) : EtlResult (List (ℕ × CellNonOptional)) :=
  row.mapM fun (tag, value) => do return (tag, ← value.nonOptional)

section Encoding

variable (formats : CellFormats)

/-- Lists of numbers are packed into one record, other lists take a record for each element. -/
def arrayCellEncodeProst (tag : ℕ) : ArrayCellNonOptional → List UInt8
  | .bool vec => encodePacked tag (vec.map WireValue.ofBool)
  | .string vec => encodeRepeated tag (vec.map WireValue.ofString)
  | .i16 vec => encodePacked tag (vec.map (WireValue.ofInt32 ·.toInt32))
  | .i32 vec => encodePacked tag (vec.map WireValue.ofInt32)
  | .u32 vec => encodePacked tag (vec.map WireValue.ofUint32)
  | .i64 vec => encodePacked tag (vec.map WireValue.ofInt64)
  | .f32 vec => encodePacked tag (vec.map WireValue.ofFloat)
  | .f64 vec => encodePacked tag (vec.map WireValue.ofDouble)
  | .numeric vec => encodeRepeated tag (vec.map (WireValue.ofString ·.display))
  | .date vec => encodeRepeated tag (vec.map (WireValue.ofString <| formats.date ·))
  | .time vec => encodeRepeated tag (vec.map (WireValue.ofString <| formats.time ·))
  | .timestamp vec => encodeRepeated tag (vec.map (WireValue.ofString <| formats.timestamp ·))
  | .timestamptz vec => encodeRepeated tag (vec.map (WireValue.ofString <| formats.timestamptz ·))
  | .uuid vec => encodeRepeated tag (vec.map (WireValue.ofString <| formats.uuid ·))
  | .json vec => encodeRepeated tag (vec.map WireValue.ofString)
  | .bytes vec => encodeRepeated tag (vec.map WireValue.ofBytes)

def cellEncodeProst (tag : ℕ) : CellNonOptional → List UInt8
  | .null => []
  | .bool b => encodeField tag (.ofBool b)
  | .string s => encodeField tag (.ofString s)
  | .i16 i => encodeField tag (.ofInt32 i.toInt32)
  | .i32 i => encodeField tag (.ofInt32 i)
  | .u32 i => encodeField tag (.ofUint32 i)
  | .i64 i => encodeField tag (.ofInt64 i)
  | .f32 i => encodeField tag (.ofFloat i)
  | .f64 i => encodeField tag (.ofDouble i)
  | .numeric n => encodeField tag (.ofString n.display)
  | .date t => encodeField tag (.ofString (formats.date t))
  | .time t => encodeField tag (.ofString (formats.time t))
  | .timestamp t => encodeField tag (.ofString (formats.timestamp t))
  | .timestamptz t => encodeField tag (.ofString (formats.timestamptz t))
  | .uuid u => encodeField tag (.ofString (formats.uuid u))
  | .json j => encodeField tag (.ofString j)
  | .bytes b => encodeField tag (.ofBytes b)
  | .array a => arrayCellEncodeProst formats tag a

/-- Writes a row. -/
def encodeRaw (cells : List (ℕ × CellNonOptional)) : List UInt8 :=
  cells.flatMap fun (tag, cell) => cellEncodeProst formats tag cell

def arrayCellNonOptionalEncodedLenProst (tag : ℕ) : ArrayCellNonOptional → ℕ
  | .bool vec => encodedLenPacked tag (vec.map WireValue.ofBool)
  | .string vec => encodedLenRepeated tag (vec.map WireValue.ofString)
  | .i16 vec => encodedLenPacked tag (vec.map (WireValue.ofInt32 ·.toInt32))
  | .i32 vec => encodedLenPacked tag (vec.map WireValue.ofInt32)
  | .u32 vec => encodedLenPacked tag (vec.map WireValue.ofUint32)
  | .i64 vec => encodedLenPacked tag (vec.map WireValue.ofInt64)
  | .f32 vec => encodedLenPacked tag (vec.map WireValue.ofFloat)
  | .f64 vec => encodedLenPacked tag (vec.map WireValue.ofDouble)
  | .numeric vec => encodedLenRepeated tag (vec.map (WireValue.ofString ·.display))
  | .date vec => encodedLenRepeated tag (vec.map (WireValue.ofString <| formats.date ·))
  | .time vec => encodedLenRepeated tag (vec.map (WireValue.ofString <| formats.time ·))
  | .timestamp vec => encodedLenRepeated tag (vec.map (WireValue.ofString <| formats.timestamp ·))
  | .timestamptz vec => encodedLenRepeated tag (vec.map (WireValue.ofString <| formats.timestamptz ·))
  | .uuid vec => encodedLenRepeated tag (vec.map (WireValue.ofString <| formats.uuid ·))
  | .json vec => encodedLenRepeated tag (vec.map WireValue.ofString)
  | .bytes vec => encodedLenRepeated tag (vec.map WireValue.ofBytes)

def cellEncodeLenProst (tag : ℕ) : CellNonOptional → ℕ
  | .null => 0
  | .bool b => encodedLenField tag (.ofBool b)
  | .string s => encodedLenField tag (.ofString s)
  | .i16 i => encodedLenField tag (.ofInt32 i.toInt32)
  | .i32 i => encodedLenField tag (.ofInt32 i)
  | .u32 i => encodedLenField tag (.ofUint32 i)
  | .i64 i => encodedLenField tag (.ofInt64 i)
  | .f32 i => encodedLenField tag (.ofFloat i)
  | .f64 i => encodedLenField tag (.ofDouble i)
  | .numeric n => encodedLenField tag (.ofString n.display)
  | .date t => encodedLenField tag (.ofString (formats.date t))
  | .time t => encodedLenField tag (.ofString (formats.time t))
  | .timestamp t => encodedLenField tag (.ofString (formats.timestamp t))
  | .timestamptz t => encodedLenField tag (.ofString (formats.timestamptz t))
  | .uuid u => encodedLenField tag (.ofString (formats.uuid u))
  | .json j => encodedLenField tag (.ofString j)
  | .bytes b => encodedLenField tag (.ofBytes b)
  | .array a => arrayCellNonOptionalEncodedLenProst formats tag a

/-- The reported length of a row. -/
def encodedLen (cells : List (ℕ × CellNonOptional)) : ℕ :=
  (cells.map fun (tag, cell) => cellEncodeLenProst formats tag cell).sum

end Encoding

/-! ## The descriptor -/

def columnType : PgType → FieldType
  | .bool => .bool
  | .char | .bpchar | .varchar | .name | .text => .string
  | .int2 => .int32
  | .int4 => .int32
  | .int8 => .int64
  | .float4 => .float
  | .float8 => .double
  | .numeric => .string
  | .money => .string
  | .date => .string
  | .time => .string
  | .timestamp => .string
  | .timestamptz => .string
  | .uuid => .string
  | .json => .string
  | .jsonb => .string
  | .oid => .int32
  | .bytea => .bytes
  | .boolArray => .bool
  | .charArray | .bpcharArray | .varcharArray | .nameArray | .textArray => .string
  | .int2Array => .int32
  | .int4Array => .int32
  | .int8Array => .int64
  | .float4Array => .float
  | .float8Array => .double
  | .numericArray => .string
  | .moneyArray => .string
  | .dateArray => .string
  | .timeArray => .string
  | .timestampArray => .string
  | .timestamptzArray => .string
  | .uuidArray => .string
  | .jsonArray => .string
  | .jsonbArray => .string
  | .oidArray => .int32
  | .byteaArray => .bytes
  | .other _ _ => .string

/-- Rows of changes can omit columns, whatever the table's columns say. -/
def columnMode (column : ColumnSchema) (useCdcSequenceColumn : Bool) : Label :=
  if isArrayType column.typ then .repeated
  else if useCdcSequenceColumn then .optional
  else if column.nullable then .optional
  else .required

def bigqueryCdcSpecialColumn : String := "_CHANGE_TYPE"

def bigqueryCdcSequenceColumn : String := "_CHANGE_SEQUENCE_NUMBER"

/-- The fields of the messages for a schema. -/
def columnSchemasToTableDescriptor (schema : ReplicatedTableSchema) (useCdcSequenceColumn : Bool) :
    List FieldDescriptor :=
  let number := schema.columnSchemas.length + 1
  ((schema.columnSchemas.zipIdx 1).map fun (column, number) =>
      ⟨number, column.name, columnType column.typ, columnMode column useCdcSequenceColumn⟩) ++
    [⟨number, bigqueryCdcSpecialColumn, .string, .required⟩] ++
    if useCdcSequenceColumn then
      [⟨number + 1, bigqueryCdcSequenceColumn, .string, .required⟩]
    else []

end Etl.BigQuery
