import Etl.Error
import Etl.Types.Schema
import Etl.Conversions.Numeric
import Mathlib.Algebra.Order.Ring.Int

/-! # Text-format conversion

The conversion of a Postgres text-format value into a typed cell, with the array-literal
parser. Integer parsing follows the standard library's digit loop; floats, calendar types,
UUIDs and JSON are parsed by leaf parsers the conversion is parameterised over, since libraries
do that work.

Reference: `etl/src/conversions/text.rs` (`parse_cell_from_postgres_text`,
`parse_cell_from_postgres_text_array`), `bool.rs` and `hex.rs`.
-/

namespace Etl

/-- The parsers of single values that the text conversion takes from libraries. -/
structure LeafParsers where
  f32 : String → EtlResult UInt32
  f64 : String → EtlResult UInt64
  date : String → EtlResult ℤ
  time : String → EtlResult ℕ
  timestamp : String → EtlResult ℤ
  timestamptzHHMM : String → EtlResult ℤ
  timestamptzHHColonMM : String → EtlResult ℤ
  uuid : String → EtlResult (BitVec 128)
  json : String → EtlResult String

/-- Leaf parsers that reject every value: all that rows of text columns need. -/
def LeafParsers.rejectAll : LeafParsers where
  f32 _ := bail .conversionError "Float parsing failed"
  f64 _ := bail .conversionError "Float parsing failed"
  date _ := bail .conversionError "Datetime parsing failed"
  time _ := bail .conversionError "Datetime parsing failed"
  timestamp _ := bail .conversionError "Datetime parsing failed"
  timestamptzHHMM _ := bail .conversionError "Datetime parsing failed"
  timestamptzHHColonMM _ := bail .conversionError "Datetime parsing failed"
  uuid _ := bail .invalidData "UUID parsing failed"
  json _ := bail .deserializationError "JSON deserialization failed"

/-- Whether the type is a regular array type: array kind and an underscore-prefixed name. -/
def isArrayType : PgType → Bool
  | .boolArray | .charArray | .bpcharArray | .varcharArray | .nameArray | .textArray
  | .moneyArray | .int2Array | .int4Array | .int8Array | .float4Array | .float8Array
  | .numericArray | .byteaArray | .dateArray | .timeArray | .timestampArray
  | .timestamptzArray | .uuidArray | .jsonArray | .jsonbArray | .oidArray => true
  | .other typeName arrayKind => arrayKind && typeName.startsWith "_"
  | _ => false

/-- The types whose text is kept verbatim as a string cell by their own arm. -/
def PgType.isText : PgType → Bool
  | .char | .bpchar | .varchar | .name | .text | .money => true
  | _ => false

/-- Booleans are exactly `t` or `f`. -/
def parseBool (s : String) : EtlResult Bool :=
  if s = "t" then .ok true
  else if s = "f" then .ok false
  else bailWith .invalidData "Invalid boolean value" "Boolean value must be 't' or 'f'"

theorem fromUTF8?_toUTF8 (s : String) : String.fromUTF8? s.toUTF8 = some s := by
  simp only [String.fromUTF8?, String.toUTF8_eq_toByteArray, s.isValidUTF8]
  rfl

/-! ## Integers -/

/-- The error an integer parse failure converts to. -/
def parseIntError {α : Type} (detail : String) : EtlResult α :=
  bailWith .conversionError "Integer parsing failed" detail

/-- The value of a decimal digit. -/
def digitValue (c : Char) : Option ℤ :=
  if '0' ≤ c ∧ c ≤ '9' then some (c.toNat - '0'.toNat) else none

/-- The digit loop: every step checks the digit first and the range second. -/
def parseDigits (lo hi : ℤ) (neg : Bool) (acc : ℤ) : List Char → EtlResult ℤ
  | [] => .ok acc
  | c :: rest =>
    match digitValue c with
    | none => parseIntError "invalid digit found in string"
    | some d =>
      let next := if neg then acc * 10 - d else acc * 10 + d
      if next < lo then parseIntError "number too small to fit in target type"
      else if hi < next then parseIntError "number too large to fit in target type"
      else parseDigits lo hi neg next rest

/-- Parses an integer in `[lo, hi]`; a leading minus is a sign only for signed targets. -/
def parseInt (signed : Bool) (lo hi : ℤ) (s : String) : EtlResult ℤ :=
  match s.toList with
  | [] => parseIntError "cannot parse integer from empty string"
  | ['+'] | ['-'] => parseIntError "invalid digit found in string"
  | '+' :: rest => parseDigits lo hi false 0 rest
  | '-' :: rest =>
    if signed then parseDigits lo hi true 0 rest
    else parseIntError "invalid digit found in string"
  | cs => parseDigits lo hi false 0 cs

def parseI16 (s : String) : EtlResult Int16 :=
  Int16.ofInt <$> parseInt true (-2 ^ 15) (2 ^ 15 - 1) s

def parseI32 (s : String) : EtlResult Int32 :=
  Int32.ofInt <$> parseInt true (-2 ^ 31) (2 ^ 31 - 1) s

def parseI64 (s : String) : EtlResult Int64 :=
  Int64.ofInt <$> parseInt true (-2 ^ 63) (2 ^ 63 - 1) s

def parseU32 (s : String) : EtlResult UInt32 :=
  (fun n : ℤ => UInt32.ofNat n.toNat) <$> parseInt false 0 (2 ^ 32 - 1) s

/-! ## Numerics and byte strings -/

/-- The text of a numeric error. -/
def ParseNumericError.display : ParseNumericError → String
  | .invalidSyntax => "Invalid syntax"
  | .valueOutOfRange => "Value out of range"

def parseNumeric (s : String) : EtlResult PgNumeric :=
  match PgNumeric.fromStr s with
  | .ok value => .ok value
  | .error err => bailWith .conversionError "Numeric parsing failed" err.display

/-- The value of a hexadecimal digit, in either case. -/
def hexDigitValue (c : Char) : Option ℕ :=
  if '0' ≤ c ∧ c ≤ '9' then some (c.toNat - '0'.toNat)
  else if 'a' ≤ c ∧ c ≤ 'f' then some (c.toNat - 'a'.toNat + 10)
  else if 'A' ≤ c ∧ c ≤ 'F' then some (c.toNat - 'A'.toNat + 10)
  else none

/-- A byte from a pair of characters. The standard library takes a plus for a sign here as well. -/
def parseHexPair (high low : Char) : EtlResult UInt8 :=
  let high := if high = '+' then some 0 else hexDigitValue high
  match high, hexDigitValue low with
  | some high, some low => .ok (UInt8.ofNat (16 * high + low))
  | _, _ => parseIntError "invalid digit found in string"

/-- The loop over the pairs, which runs on an even number of characters. -/
def parseHexPairs : List Char → EtlResult (List UInt8)
  | high :: low :: rest => do
    let val ← parseHexPair high low
    let result ← parseHexPairs rest
    .ok (val :: result)
  | _ => .ok []

/-- Converts the hex form of a byte string. Its characters are ASCII, so that a character is a
byte; at a longer one the source's slices panic. -/
def parseByteaHexString (value : String) : EtlResult (List UInt8) :=
  match value.toList with
  | '\\' :: 'x' :: digits =>
    if digits.length % 2 ≠ 0 then
      bailWith .conversionError "Bytea hex string conversion failed"
        "Odd number of hexadecimal digits"
    else parseHexPairs digits
  | _ =>
    bailWith .conversionError "Bytea hex string conversion failed" "Missing '\\x' prefix"

/-! ## Arrays -/

/-- Case-insensitive comparison with `null`. -/
def isNullWord (s : String) : Bool :=
  s.toList.map Char.toLower = ['n', 'u', 'l', 'l']

/-- The loop state of the array parser between two characters. -/
structure ArrayScan where
  valStr : String := ""
  inQuotes : Bool := false
  inEscape : Bool := false
  valQuoted : Bool := false
  deriving DecidableEq

/-- The element a finished field denotes. -/
def arrayElement {T : Type} (parse : String → EtlResult T) (st : ArrayScan) :
    EtlResult (Option T) :=
  if !st.valQuoted && isNullWord st.valStr then .ok none else some <$> parse st.valStr

/-- The element loop over the text between the braces. A comma outside quotes and the end
of the text both finish an element; quote and escape flags survive a separator. -/
def parseArrayElements {T : Type} (parse : String → EtlResult T) (st : ArrayScan)
    (res : List (Option T)) : List Char → EtlResult (List (Option T))
  | [] => do
    let val ← arrayElement parse st
    .ok (res ++ [val])
  | c :: rest =>
    if st.inEscape then
      parseArrayElements parse { st with valStr := st.valStr.push c, inEscape := false } res rest
    else if c = '"' then
      parseArrayElements parse
        { st with valQuoted := st.valQuoted || !st.inQuotes, inQuotes := !st.inQuotes } res rest
    else if c = '\\' then
      parseArrayElements parse { st with inEscape := true } res rest
    else if c = ',' ∧ st.inQuotes = false then do
      let val ← arrayElement parse st
      parseArrayElements parse { st with valStr := "", valQuoted := false } (res ++ [val]) rest
    else
      parseArrayElements parse { st with valStr := st.valStr.push c } res rest

/-- Parses an array literal and wraps its elements. -/
def parseCellFromPostgresTextArray {T : Type} (str : String) (parse : String → EtlResult T)
    (m : List (Option T) → ArrayCell) : EtlResult Cell :=
  if str.utf8ByteSize < 2 then bail .conversionError "Array input too short"
  else if str.toList.head? ≠ some '{' ∨ str.toList.getLast? ≠ some '}' then
    bail .conversionError "Array input missing braces"
  else
    let inner := str.toList.tail.dropLast
    if inner.isEmpty then .ok (.array (m []))
    else do
      let res ← parseArrayElements parse {} [] inner
      .ok (.array (m res))

/-! ## Cells -/

variable (lp : LeafParsers)

/-- The offset of a timestamp is accepted with and without a colon. -/
def parseTimestamptz (s : String) : EtlResult ℤ :=
  match lp.timestamptzHHMM s with
  | .ok val => .ok val
  | .error _ => lp.timestamptzHHColonMM s

/-- Converts a text-format value to a typed cell. -/
def parseCellFromPostgresText (typ : PgType) (str : String) : EtlResult Cell :=
  match typ with
  | .bool => Cell.bool <$> parseBool str
  | .boolArray => parseCellFromPostgresTextArray str parseBool .bool
  | .char | .bpchar | .varchar | .name | .text | .money => .ok (.string str)
  | .charArray | .bpcharArray | .varcharArray | .nameArray | .textArray | .moneyArray =>
    parseCellFromPostgresTextArray str .ok .string
  | .int2 => Cell.i16 <$> parseI16 str
  | .int2Array => parseCellFromPostgresTextArray str parseI16 .i16
  | .int4 => Cell.i32 <$> parseI32 str
  | .int4Array => parseCellFromPostgresTextArray str parseI32 .i32
  | .int8 => Cell.i64 <$> parseI64 str
  | .int8Array => parseCellFromPostgresTextArray str parseI64 .i64
  | .float4 => Cell.f32 <$> lp.f32 str
  | .float4Array => parseCellFromPostgresTextArray str lp.f32 .f32
  | .float8 => Cell.f64 <$> lp.f64 str
  | .float8Array => parseCellFromPostgresTextArray str lp.f64 .f64
  | .numeric => Cell.numeric <$> parseNumeric str
  | .numericArray => parseCellFromPostgresTextArray str parseNumeric .numeric
  | .bytea => Cell.bytes <$> parseByteaHexString str
  | .byteaArray => parseCellFromPostgresTextArray str parseByteaHexString .bytes
  | .date => Cell.date <$> lp.date str
  | .dateArray => parseCellFromPostgresTextArray str lp.date .date
  | .time => Cell.time <$> lp.time str
  | .timeArray => parseCellFromPostgresTextArray str lp.time .time
  | .timestamp => Cell.timestamp <$> lp.timestamp str
  | .timestampArray => parseCellFromPostgresTextArray str lp.timestamp .timestamp
  | .timestamptz => Cell.timestamptz <$> parseTimestamptz lp str
  -- the second format is tried for the whole array, not per element
  | .timestamptzArray =>
    match parseCellFromPostgresTextArray str lp.timestamptzHHMM .timestamptz with
    | .ok val => .ok val
    | .error _ => parseCellFromPostgresTextArray str lp.timestamptzHHColonMM .timestamptz
  | .uuid => Cell.uuid <$> lp.uuid str
  | .uuidArray => parseCellFromPostgresTextArray str lp.uuid .uuid
  | .json | .jsonb => Cell.json <$> lp.json str
  | .jsonArray | .jsonbArray => parseCellFromPostgresTextArray str lp.json .json
  | .oid => Cell.u32 <$> parseU32 str
  | .oidArray => parseCellFromPostgresTextArray str parseU32 .u32
  | .other typeName arrayKind =>
    if isArrayType (.other typeName arrayKind) then
      parseCellFromPostgresTextArray str .ok .string
    else .ok (.string str)

theorem parseCellFromPostgresText_text {typ : PgType} (htyp : typ.isText = true)
    (str : String) : parseCellFromPostgresText lp typ str = .ok (.string str) := by
  cases typ <;> first | rfl | simp [PgType.isText] at htyp

end Etl
