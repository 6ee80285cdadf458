import Mathlib.Data.Int.Notation
import Mathlib.Data.List.Basic

/-! # Cell values

Typed values of replicated rows. Floats are carried by their bit patterns, calendar types by
their distance from the epoch, and JSON values by their serialized text: the conversions
only construct and compare them.

Reference: `etl/src/types/cell.rs`.
-/

namespace Etl

/-- Sign of a Postgres numeric. -/
inductive Sign where
  | positive | negative
  deriving DecidableEq, Repr

/-- Postgres `NUMERIC` in its wire shape, with base-10000 digits. -/
inductive PgNumeric where
  | nan | positiveInfinity | negativeInfinity
  | value (sign : Sign) (weight : ℤ) (scale : ℕ) (digits : List ℤ)
  deriving DecidableEq, Repr

/-- An array value with nullable elements. -/
inductive ArrayCell where
  | bool (vs : List (Option Bool))
  | string (vs : List (Option String))
  | i16 (vs : List (Option Int16))
  | i32 (vs : List (Option Int32))
  | u32 (vs : List (Option UInt32))
  | i64 (vs : List (Option Int64))
  | f32 (vs : List (Option UInt32))
  | f64 (vs : List (Option UInt64))
  | numeric (vs : List (Option PgNumeric))
  | date (vs : List (Option ℤ))
  | time (vs : List (Option ℕ))
  | timestamp (vs : List (Option ℤ))
  | timestamptz (vs : List (Option ℤ))
  | uuid (vs : List (Option (BitVec 128)))
  | json (vs : List (Option String))
  | bytes (vs : List (Option (List UInt8)))
  deriving DecidableEq

/-- A single value of a row. -/
inductive Cell where
  | null
  | bool (b : Bool)
  | string (s : String)
  | i16 (i : Int16)
  | i32 (i : Int32)
  | u32 (u : UInt32)
  | i64 (i : Int64)
  | f32 (bits : UInt32)
  | f64 (bits : UInt64)
  | numeric (n : PgNumeric)
  | date (days : ℤ)
  | time (nanos : ℕ)
  | timestamp (nanos : ℤ)
  | timestamptz (nanos : ℤ)
  | uuid (u : BitVec 128)
  | json (serialized : String)
  | bytes (bs : List UInt8)
  | array (a : ArrayCell)
  deriving DecidableEq

/-! ## Equality

The source compares cells with derived equality. Floats compare as numbers there: the two zeros are
equal, and what is not a number is not equal to itself.
-/

def f32IsNan (bits : UInt32) : Bool := 0x7f800000 < bits &&& 0x7fffffff

def f64IsNan (bits : UInt64) : Bool := 0x7ff0000000000000 < bits &&& 0x7fffffffffffffff

def f32UnsignedZero (bits : UInt32) : UInt32 := if bits = 0x80000000 then 0 else bits

def f64UnsignedZero (bits : UInt64) : UInt64 := if bits = 0x8000000000000000 then 0 else bits

namespace Cell

/-- Whether the cell holds a float that is not a number. -/
def hasNan : Cell → Bool
  | f32 bits => f32IsNan bits
  | f64 bits => f64IsNan bits
  | array (.f32 vs) => vs.any (·.any f32IsNan)
  | array (.f64 vs) => vs.any (·.any f64IsNan)
  | _ => false

/-- The cell without the signs of zero floats. -/
def unsignedZeros : Cell → Cell
  | f32 bits => f32 (f32UnsignedZero bits)
  | f64 bits => f64 (f64UnsignedZero bits)
  | array (.f32 vs) => array (.f32 (vs.map (·.map f32UnsignedZero)))
  | array (.f64 vs) => array (.f64 (vs.map (·.map f64UnsignedZero)))
  | cell => cell

/-- Equality as the source derives it. -/
def eq (a b : Cell) : Bool := !a.hasNan && a.unsignedZeros = b.unsignedZeros

end Cell

structure TableRow where
  values : List Cell
  deriving DecidableEq

end Etl
