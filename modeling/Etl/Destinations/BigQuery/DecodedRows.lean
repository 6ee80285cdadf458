import Etl.Conversions.TableRow
import Etl.Conversions.TupleData
import Etl.Destinations.BigQuery.WireFormat

/-! # Decoded rows at BigQuery

A row comes as the text of a copy or as the tuple of an insert and goes out as the bytes of a
message. Whatever comes in, the decoders return cells of the kinds of the columns, which is what
the encoding relies on, so BigQuery reads the values that were decoded (`copied_row_read`,
`streamed_row_read`).

Reference: `etl-destinations/src/bigquery/core.rs` (`write_table_rows`).
-/

namespace Etl

open List

variable {lp : LeafParsers} {columns : List ColumnSchema} {st st' : RowScan} {n : ℕ}

def HasTypes (columns : List ColumnSchema) (values : List Cell) : Prop :=
  Forall₂ (fun column cell => Cell.HasType column.typ cell) columns values

/-- The values read so far are those of the columns that are not to be read any more. -/
def RowScan.Typed (st : RowScan) (columns : List ColumnSchema) : Prop :=
  ∃ read, columns = read ++ st.columnSchemas ∧ HasTypes read st.values

theorem typed_finishField (h : st.Typed columns) (hst : finishField lp n st = .ok st') :
    st'.Typed columns := by
  obtain ⟨read, hcolumns, hvalues⟩ := h
  rw [finishField] at hst
  split at hst
  · exact absurd hst bailWith_ne_ok
  · rename_i column rest hrest
    have hnext (value : Cell) (htype : value.HasType column.typ) :
        RowScan.Typed { st with columnSchemas := rest, values := st.values ++ [value], valStr := "" }
          columns :=
      ⟨read ++ [column], by simp [hcolumns, hrest], rel_append hvalues (.cons htype .nil)⟩
    split_ifs at hst
    · cases hst
      exact hnext .null fun shape hshape => by cases hshape
    · obtain ⟨value, hvalue, hst⟩ := bind_eq_ok_iff.mp hst
      cases hst
      exact hnext value (hasType_of_parseCellFromPostgresText hvalue)

theorem typed_parseFields {chars : List Char} (h : st.Typed columns)
    (hst : parseFields lp n st chars = .ok st') : st'.Typed columns := by
  induction chars generalizing st with
  | nil =>
    rw [parseFields] at hst
    split_ifs at hst
    · exact Except.ok.inj hst ▸ h
    · exact absurd hst bail_ne_ok
  | cons c chars ih =>
    rw [parseFields] at hst
    -- Only a tab and a newline end a field.
    split_ifs at hst
    · refine ih ?_ hst
      exact h
    · obtain ⟨mid, hmid, hst⟩ := bind_eq_ok_iff.mp hst
      exact ih (typed_finishField h hmid) hst
    · obtain ⟨mid, hmid, hst⟩ := bind_eq_ok_iff.mp hst
      refine ih (typed_finishField ?_ hmid) hst
      exact h
    · refine ih ?_ hst
      exact h
    · refine ih ?_ hst
      exact h

theorem hasTypes_of_copied {bytes : ByteArray} {row : TableRow}
    (hrow : parseTableRowFromPostgresCopyBytes lp bytes columns = .ok row) :
    HasTypes columns row.values := by
  rw [parseTableRowFromPostgresCopyBytes] at hrow
  split at hrow
  · exact absurd hrow bail_ne_ok
  · obtain ⟨st, hst, hrow⟩ := bind_eq_ok_iff.mp hrow
    have hstart : RowScan.Typed ⟨columns, [], "", false, false⟩ columns := ⟨[], rfl, .nil⟩
    obtain ⟨read, hread, htypes⟩ := typed_parseFields hstart hst
    split at hrow
    · exact absurd hrow bailWith_ne_ok
    · rename_i hleft
      cases hrow
      rwa [hread, hleft, append_nil]

theorem forall₂_of_mapM_eq_ok {α β : Type} {f : α → EtlResult β} {xs : List α} {ys : List β}
    (hys : xs.mapM f = .ok ys) : Forall₂ (fun x y => f x = .ok y) xs ys := by
  induction xs generalizing ys with
  | nil =>
    cases hys
    exact .nil
  | cons x xs ih =>
    rw [mapM_cons] at hys
    obtain ⟨y, hy, hys⟩ := bind_eq_ok_iff.mp hys
    obtain ⟨rest, hrest, hys⟩ := bind_eq_ok_iff.mp hys
    cases hys
    exact .cons hy (ih hrest)

theorem hasType_of_converted {column : ColumnSchema} {tupleData : TupleData} {cell : Cell}
    (h : convertTupleDataToCell lp column tupleData none = .ok (some cell)) :
    cell.HasType column.typ := by
  cases tupleData with
  | null =>
    rw [convertTupleDataToCell] at h
    split_ifs at h
    · cases h
      exact fun shape hshape => by cases hshape
    · exact absurd h bailWith_ne_ok
  | unchangedToast => cases h
  | text bytes =>
    rw [convertTupleDataToCell] at h
    split at h
    · exact absurd h bail_ne_ok
    · obtain ⟨value, hvalue, h⟩ := bind_eq_ok_iff.mp h
      cases h
      exact hasType_of_parseCellFromPostgresText hvalue
  | binary bytes => exact absurd h bail_ne_ok

theorem hasTypes_of_streamed {tupleData : List TupleData} {row : TableRow}
    (hrow : convertTupleToRow lp columns tupleData = .ok row) : HasTypes columns row.values := by
  rw [convertTupleToRow] at hrow
  split_ifs at hrow with hlength
  · exact absurd hrow bailWith_ne_ok
  · obtain ⟨values, hvalues, hrow⟩ := bind_eq_ok_iff.mp hrow
    cases hrow
    have hcolumns : ((columns.zip tupleData).zipIdx.map Prod.fst).map Prod.fst = columns := by
      rw [zipIdx_map_fst, map_fst_zip (not_not.mp hlength).ge]
    rw [HasTypes, ← hcolumns, forall₂_map_left_iff, forall₂_map_left_iff]
    refine (forall₂_of_mapM_eq_ok hvalues).imp fun field value hvalue => ?_
    obtain ⟨converted, hconverted, hvalue⟩ := bind_eq_ok_iff.mp hvalue
    cases converted with
    | none => exact absurd hvalue bailWith_ne_ok
    | some cell =>
      cases hvalue
      exact hasType_of_converted hconverted

namespace BigQuery

open Protobuf

/-- A copied row with nulls in nullable columns only, whose cells pass the checks, is read with its
values, up to the sign of object identifiers. -/
theorem copied_row_read (lp : LeafParsers) (formats : CellFormats)
    (validateJsonForBigquery : String → EtlResult Unit) (schema : ReplicatedTableSchema)
    (hschema : schema.Distinct) (hcolumns : schema.columnSchemas.length + 2 < 2 ^ 29)
    {bytes : ByteArray} {row : TableRow} {cells : List (ℕ × CellNonOptional)}
    (hrow : parseTableRowFromPostgresCopyBytes lp bytes schema.columnSchemas = .ok row)
    (hnulls : ∀ column cell, (column, cell) ∈ schema.columnSchemas.zip row.values →
      cell = .null → column.nullable = true)
    (hcells : bigqueryCopyRow (checkCell validateJsonForBigquery) row >>= taggedCells = .ok cells)
    (hsize : (encodeRaw formats cells).length < 2 ^ 64) :
    decodeMessage (columnSchemasToTableDescriptor schema false) (encodeRaw formats cells) =
      some (row.values.map (received formats ·.flattened) ++ [[.string "UPSERT"]]) := by
  obtain ⟨hlength, htypes⟩ := forall₂_iff_zip.mp (hasTypes_of_copied hrow)
  have htyped : Forall₂ (fun column cell => Cell.HasType column.typ cell ∧
      (cell = .null → column.nullable = true)) schema.columnSchemas row.values :=
    forall₂_iff_zip.mpr ⟨hlength, fun hmem => ⟨htypes hmem, hnulls _ _ hmem⟩⟩
  rw [(Emitted.decode_encodeRaw hschema hcolumns (.copied htyped hcells) hsize).1]
  simp [RowValue.flattened, received, contents, BigQueryOperationType.display]

/-- An inserted row needs no condition on nulls: its sequence number comes after its values and the
operation. -/
theorem streamed_row_read (lp : LeafParsers) (formats : CellFormats)
    (validateJsonForBigquery : String → EtlResult Unit) (schema : ReplicatedTableSchema)
    (hschema : schema.Distinct) (hcolumns : schema.columnSchemas.length + 2 < 2 ^ 29)
    (sequenceKey : ChangeSequenceNumber) {tupleData : List TupleData} {row : TableRow}
    {cells : List (ℕ × CellNonOptional)}
    (hrow : convertTupleToRow lp schema.columnSchemas tupleData = .ok row)
    (hcells : bigqueryUpsertRow (checkCell validateJsonForBigquery) row sequenceKey >>=
      taggedCells = .ok cells)
    (hsize : (encodeRaw formats cells).length < 2 ^ 64) :
    decodeMessage (columnSchemasToTableDescriptor schema true) (encodeRaw formats cells) =
      some (row.values.map (received formats ·.flattened) ++
        [[.string "UPSERT"], [.string (sequenceText sequenceKey)]]) := by
  have hemitted := Emitted.upserted (hasTypes_of_streamed hrow) hcells
  rw [(hemitted.decode_encodeRaw hschema hcolumns hsize).1]
  simp [RowValue.flattened, received, contents, BigQueryOperationType.display]

/-- A table with a number, a text and an array of texts. -/
def articlesSchema : ReplicatedTableSchema :=
  .fromMask ⟨1, ⟨"public", "articles"⟩,
    [⟨"id", .int4, -1, 1, some 1, false⟩, textColumn "title" 2,
      ⟨"tags", .textArray, -1, 3, none, true⟩], 0⟩ [true, true, true]

theorem columnSchemas_articlesSchema :
    articlesSchema.columnSchemas = [⟨"id", .int4, -1, 1, some 1, false⟩, textColumn "title" 2,
      ⟨"tags", .textArray, -1, 3, none, true⟩] := rfl

/-- A row whose text is null. -/
def articleRow : TableRow := ⟨[.i32 7, .null, .array (.string [some "x", some "y z"])]⟩

/-- The cells of the row with the operation. -/
def articleCells : List (ℕ × CellNonOptional) :=
  [(1, .i32 7), (2, .null), (3, .array (.string ["x", "y z"])), (4, .string "UPSERT")]

theorem copied_row_read_article :
    decodeMessage (columnSchemasToTableDescriptor articlesSchema false)
      (encodeRaw plainFormats articleCells) =
        some [[.int 7], [], [.string "x", .string "y z"], [.string "UPSERT"]] := by
  have hrow : parseTableRowFromPostgresCopyBytes .rejectAll
      "7\t\\N\t\x7bx,\"y z\"\x7d\n".toUTF8 articlesSchema.columnSchemas = .ok articleRow := by
    rw [parseTableRowFromPostgresCopyBytes, fromUTF8?_toUTF8]
    decide +kernel
  have hnulls : ∀ column cell,
      (column, cell) ∈ articlesSchema.columnSchemas.zip articleRow.values →
        cell = .null → column.nullable = true := by
    intro column cell hmem hnull
    simp only [columnSchemas_articlesSchema, articleRow, zip_cons_cons, zip_nil_right, mem_cons,
      Prod.mk.injEq, not_mem_nil, or_false] at hmem
    obtain ⟨-, rfl⟩ | ⟨rfl, -⟩ | ⟨rfl, -⟩ := hmem
    · cases hnull
    · rfl
    · rfl
  exact copied_row_read .rejectAll plainFormats (fun _ => .ok ()) articlesSchema
    ⟨by decide, by decide⟩ (by decide) hrow hnulls rfl (by decide +kernel)

theorem streamed_row_read_article :
    decodeMessage (columnSchemasToTableDescriptor articlesSchema true)
      (encodeRaw plainFormats (articleCells ++
        [(5, .string (sequenceText (bigquerySequenceKey ⟨30, 1⟩ 0)))])) =
        some [[.int 7], [], [.string "x", .string "y z"], [.string "UPSERT"],
          [.string (sequenceText (bigquerySequenceKey ⟨30, 1⟩ 0))]] := by
  have hrow : convertTupleToRow .rejectAll articlesSchema.columnSchemas
      [.text "7".toUTF8, .null, .text "\x7bx,\"y z\"\x7d".toUTF8] = .ok articleRow := by
    have htext (column : ColumnSchema) (s : String) :
        convertTupleDataToCell .rejectAll column (.text s.toUTF8) none =
          some <$> parseCellFromPostgresText .rejectAll column.typ s := by
      rw [convertTupleDataToCell, fromUTF8?_toUTF8]
    rw [columnSchemas_articlesSchema, convertTupleToRow, if_neg (by decide)]
    simp only [zip_cons_cons, zip_nil_right, zipIdx_cons, zipIdx_nil, mapM_cons, mapM_nil, htext]
    decide +kernel
  exact streamed_row_read .rejectAll plainFormats (fun _ => .ok ()) articlesSchema
    ⟨by decide, by decide⟩ (by decide) _ hrow rfl (by decide +kernel)

end BigQuery

end Etl
