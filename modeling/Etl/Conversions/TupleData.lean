import Etl.Conversions.Text

/-! # Rows of replication messages

The conversion of the fields of a replication message to a row. A whole row takes one field for each
replicated column; a field that Postgres left out because its value did not change is not accepted
there.

Reference: `etl/src/conversions/event.rs` (`convert_tuple_data_to_cell`).
-/

namespace Etl

inductive TupleData where
  | null
  | unchangedToast
  | text (bytes : ByteArray)
  | binary (bytes : ByteArray)

variable (lp : LeafParsers)

/-- Converts a field. A field that was left out takes the old value, and is missing without one. -/
def convertTupleDataToCell (columnSchema : ColumnSchema) (tupleData : TupleData)
    (oldValue : Option Cell) : EtlResult (Option Cell) :=
  match tupleData with
  | .null =>
    if columnSchema.nullable then .ok (some .null)
    else
      bailWith .invalidData "Required column missing from tuple"
        ("Non-nullable column '" ++ columnSchema.name ++
          "' received NULL value, indicating protocol-level corruption")
  | .unchangedToast => .ok oldValue
  | .text bytes =>
    match String.fromUTF8? bytes with
    | none => bail .conversionError "UTF-8 conversion failed"
    | some str => some <$> parseCellFromPostgresText lp columnSchema.typ str
  | .binary _ => bail .conversionError "Binary format not supported in tuple data"

/-- Converts the fields of a whole row. -/
def convertTupleToRow (columnSchemas : List ColumnSchema) (tupleData : List TupleData) :
    EtlResult TableRow :=
  if tupleData.length ≠ columnSchemas.length then
    bailWith .conversionError "Tuple data field count does not match schema"
      s!"Expected {columnSchemas.length} tuple values, got {tupleData.length}"
  else do
    let values ← (columnSchemas.zip tupleData).zipIdx.mapM
      fun ((columnSchema, tupleData), index) => do
        match ← convertTupleDataToCell lp columnSchema tupleData none with
        | some value => .ok value
        | none =>
          bailWith .conversionError "Tuple missing source value for full row image"
            ("Column '" ++ columnSchema.name ++ s!"' at position {index + 1} was omitted from a " ++
              "row that requires a full image")
    .ok ⟨values⟩

theorem length_values_of_convertTupleToRow {columnSchemas : List ColumnSchema}
    {tupleData : List TupleData} {tableRow : TableRow}
    (hrow : convertTupleToRow lp columnSchemas tupleData = .ok tableRow) :
    tableRow.values.length = columnSchemas.length := by
  rw [convertTupleToRow] at hrow
  split_ifs at hrow with hlength
  · exact absurd hrow bailWith_ne_ok
  · obtain ⟨values, hvalues, hrow⟩ := bind_eq_ok_iff.mp hrow
    cases hrow
    have hmap := map_eq_map_of_mapM_eq_ok (g := fun _ => ()) (h := fun _ => ())
      (fun _ _ _ _ => rfl) hvalues
    have hcount := congrArg List.length hmap
    rw [not_not] at hlength
    simpa [hlength]
      using hcount

end Etl
