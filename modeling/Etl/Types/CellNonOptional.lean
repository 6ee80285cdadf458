import Etl.Error
import Etl.Types.Cell
import Mathlib.Data.List.ReduceOption

/-! # Cells without null elements

The cells of destinations whose arrays cannot hold nulls. A cell is converted when no array of it
has a null element, and then keeps its values.

Reference: `etl/src/types/cell.rs` (`CellNonOptional`).
-/

namespace Etl

/-- An array value whose elements are not null. -/
inductive ArrayCellNonOptional where
  | bool (vs : List Bool)
  | string (vs : List String)
  | i16 (vs : List Int16)
  | i32 (vs : List Int32)
  | u32 (vs : List UInt32)
  | i64 (vs : List Int64)
  | f32 (vs : List UInt32)
  | f64 (vs : List UInt64)
  | numeric (vs : List PgNumeric)
  | date (vs : List ℤ)
  | time (vs : List ℕ)
  | timestamp (vs : List ℤ)
  | timestamptz (vs : List ℤ)
  | uuid (vs : List (BitVec 128))
  | json (vs : List String)
  | bytes (vs : List (List UInt8))
  deriving DecidableEq

/-- A single value of a row, with arrays without nulls. -/
inductive CellNonOptional where
  | null
  | bool (b : Bool)
  | string (s : String)
  | i16 (i : Int16)
  | i32 (i : Int32)
  | u32 (u : UInt32)
  | i64 (i : Int64)
  | f32 (bits : UInt32)
  | f64 (bits : UInt64)
  | numeric (n : PgNumeric)
  | date (days : ℤ)
  | time (nanos : ℕ)
  | timestamp (nanos : ℤ)
  | timestamptz (nanos : ℤ)
  | uuid (u : BitVec 128)
  | json (serialized : String)
  | bytes (bs : List UInt8)
  | array (a : ArrayCellNonOptional)
  deriving DecidableEq

def convertArrayVariant {α : Type} (variant : List α → ArrayCellNonOptional)
    (vec : List (Option α)) : EtlResult ArrayCellNonOptional :=
  if vec.any Option.isNone then
    let elementCount := vec.length
    let nullCount := vec.countP Option.isNone
    bailWith .nullValuesNotSupportedInArrayInDestination
      "NULL values in arrays not supported in this destination"
      (s!"Array contains {nullCount} NULL values across {elementCount} elements, which are not " ++
        "supported in this destination")
  else .ok (variant vec.reduceOption)

def ArrayCellNonOptional.tryFrom : ArrayCell → EtlResult ArrayCellNonOptional
  | .bool vec => convertArrayVariant .bool vec
  | .string vec => convertArrayVariant .string vec
  | .i16 vec => convertArrayVariant .i16 vec
  | .i32 vec => convertArrayVariant .i32 vec
  | .u32 vec => convertArrayVariant .u32 vec
  | .i64 vec => convertArrayVariant .i64 vec
  | .f32 vec => convertArrayVariant .f32 vec
  | .f64 vec => convertArrayVariant .f64 vec
  | .numeric vec => convertArrayVariant .numeric vec
  | .date vec => convertArrayVariant .date vec
  | .time vec => convertArrayVariant .time vec
  | .timestamp vec => convertArrayVariant .timestamp vec
  | .timestamptz vec => convertArrayVariant .timestamptz vec
  | .uuid vec => convertArrayVariant .uuid vec
  | .json vec => convertArrayVariant .json vec
  | .bytes vec => convertArrayVariant .bytes vec

def CellNonOptional.tryFrom : Cell → EtlResult CellNonOptional
  | .null => .ok .null
  | .bool val => .ok (.bool val)
  | .string val => .ok (.string val)
  | .i16 val => .ok (.i16 val)
  | .i32 val => .ok (.i32 val)
  | .u32 val => .ok (.u32 val)
  | .i64 val => .ok (.i64 val)
  | .f32 val => .ok (.f32 val)
  | .f64 val => .ok (.f64 val)
  | .numeric val => .ok (.numeric val)
  | .date val => .ok (.date val)
  | .time val => .ok (.time val)
  | .timestamp val => .ok (.timestamp val)
  | .timestamptz val => .ok (.timestamptz val)
  | .uuid val => .ok (.uuid val)
  | .json val => .ok (.json val)
  | .bytes val => .ok (.bytes val)
  | .array arrayCell => .array <$> ArrayCellNonOptional.tryFrom arrayCell

/-! ## What is converted -/

/-- The elements of an array that are not null. -/
def ArrayCell.flattened : ArrayCell → ArrayCellNonOptional
  | .bool vec => .bool vec.reduceOption
  | .string vec => .string vec.reduceOption
  | .i16 vec => .i16 vec.reduceOption
  | .i32 vec => .i32 vec.reduceOption
  | .u32 vec => .u32 vec.reduceOption
  | .i64 vec => .i64 vec.reduceOption
  | .f32 vec => .f32 vec.reduceOption
  | .f64 vec => .f64 vec.reduceOption
  | .numeric vec => .numeric vec.reduceOption
  | .date vec => .date vec.reduceOption
  | .time vec => .time vec.reduceOption
  | .timestamp vec => .timestamp vec.reduceOption
  | .timestamptz vec => .timestamptz vec.reduceOption
  | .uuid vec => .uuid vec.reduceOption
  | .json vec => .json vec.reduceOption
  | .bytes vec => .bytes vec.reduceOption

/-- The cell without the null elements of arrays. -/
def Cell.flattened : Cell → CellNonOptional
  | .null => .null
  | .bool val => .bool val
  | .string val => .string val
  | .i16 val => .i16 val
  | .i32 val => .i32 val
  | .u32 val => .u32 val
  | .i64 val => .i64 val
  | .f32 val => .f32 val
  | .f64 val => .f64 val
  | .numeric val => .numeric val
  | .date val => .date val
  | .time val => .time val
  | .timestamp val => .timestamp val
  | .timestamptz val => .timestamptz val
  | .uuid val => .uuid val
  | .json val => .json val
  | .bytes val => .bytes val
  | .array arrayCell => .array arrayCell.flattened

variable {array : ArrayCellNonOptional}

theorem convertArrayVariant_eq_ok {α : Type} {variant : List α → ArrayCellNonOptional}
    {vec : List (Option α)} (harray : convertArrayVariant variant vec = .ok array) :
    array = variant vec.reduceOption := by
  rw [convertArrayVariant] at harray
  split_ifs at harray
  · exact absurd harray bailWith_ne_ok
  · exact (Except.ok.inj harray).symm

theorem ArrayCellNonOptional.eq_flattened {arrayCell : ArrayCell}
    (harray : tryFrom arrayCell = .ok array) : array = arrayCell.flattened := by
  cases arrayCell <;> exact convertArrayVariant_eq_ok harray

/-- A cell that is converted keeps its values. -/
theorem CellNonOptional.eq_flattened {cell : Cell} {converted : CellNonOptional}
    (hcell : tryFrom cell = .ok converted) : converted = cell.flattened := by
  cases cell with
  | array arrayCell =>
    obtain ⟨array, harray, rfl⟩ := map_eq_ok_iff.mp hcell
    rw [ArrayCellNonOptional.eq_flattened harray]
    rfl
  | _ => exact (Except.ok.inj hcell).symm

end Etl
