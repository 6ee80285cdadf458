import Etl.Destinations.BigQuery.Encoding

/-! # Reading rows as BigQuery does

What a row means when its bytes are read with the descriptor. A cell of a column is encoded as the
column's type is declared, with one exception: object identifiers are written as unsigned numbers
and declared as signed ones, so that the greater half of them is read as negative numbers
(`received`). `decode_encodeRaw_iff` says that a row is read back, with the length that was reported
for it, exactly when it has no such identifier.

Reference: `etl-destinations/src/bigquery/encoding.rs` and `etl-destinations/src/bigquery/client.rs`
(`column_schemas_to_table_descriptor`).
-/

namespace Etl

open List

open Protobuf

/-- The kinds of cells. -/
inductive CellShape where
  | bool | string | i16 | i32 | u32 | i64 | f32 | f64 | numeric | date | time | timestamp
  | timestamptz | uuid | json | bytes
  deriving DecidableEq, Repr

/-- The kind of a cell and whether it is an array; null has none. -/
def CellNonOptional.shape : CellNonOptional → Option (CellShape × Bool)
  | .null => none
  | .bool _ => some (.bool, false)
  | .string _ => some (.string, false)
  | .i16 _ => some (.i16, false)
  | .i32 _ => some (.i32, false)
  | .u32 _ => some (.u32, false)
  | .i64 _ => some (.i64, false)
  | .f32 _ => some (.f32, false)
  | .f64 _ => some (.f64, false)
  | .numeric _ => some (.numeric, false)
  | .date _ => some (.date, false)
  | .time _ => some (.time, false)
  | .timestamp _ => some (.timestamp, false)
  | .timestamptz _ => some (.timestamptz, false)
  | .uuid _ => some (.uuid, false)
  | .json _ => some (.json, false)
  | .bytes _ => some (.bytes, false)
  | .array (.bool _) => some (.bool, true)
  | .array (.string _) => some (.string, true)
  | .array (.i16 _) => some (.i16, true)
  | .array (.i32 _) => some (.i32, true)
  | .array (.u32 _) => some (.u32, true)
  | .array (.i64 _) => some (.i64, true)
  | .array (.f32 _) => some (.f32, true)
  | .array (.f64 _) => some (.f64, true)
  | .array (.numeric _) => some (.numeric, true)
  | .array (.date _) => some (.date, true)
  | .array (.time _) => some (.time, true)
  | .array (.timestamp _) => some (.timestamp, true)
  | .array (.timestamptz _) => some (.timestamptz, true)
  | .array (.uuid _) => some (.uuid, true)
  | .array (.json _) => some (.json, true)
  | .array (.bytes _) => some (.bytes, true)

def PgType.cellShape : PgType → CellShape × Bool
  | .bool => (.bool, false)
  | .boolArray => (.bool, true)
  | .char | .bpchar | .varchar | .name | .text | .money => (.string, false)
  | .charArray | .bpcharArray | .varcharArray | .nameArray | .textArray | .moneyArray =>
    (.string, true)
  | .int2 => (.i16, false)
  | .int2Array => (.i16, true)
  | .int4 => (.i32, false)
  | .int4Array => (.i32, true)
  | .int8 => (.i64, false)
  | .int8Array => (.i64, true)
  | .float4 => (.f32, false)
  | .float4Array => (.f32, true)
  | .float8 => (.f64, false)
  | .float8Array => (.f64, true)
  | .numeric => (.numeric, false)
  | .numericArray => (.numeric, true)
  | .bytea => (.bytes, false)
  | .byteaArray => (.bytes, true)
  | .date => (.date, false)
  | .dateArray => (.date, true)
  | .time => (.time, false)
  | .timeArray => (.time, true)
  | .timestamp => (.timestamp, false)
  | .timestampArray => (.timestamp, true)
  | .timestamptz => (.timestamptz, false)
  | .timestamptzArray => (.timestamptz, true)
  | .uuid => (.uuid, false)
  | .uuidArray => (.uuid, true)
  | .json | .jsonb => (.json, false)
  | .jsonArray | .jsonbArray => (.json, true)
  | .oid => (.u32, false)
  | .oidArray => (.u32, true)
  | .other typeName arrayKind => (.string, isArrayType (.other typeName arrayKind))

/-- The cell is null or of the kind of the type. -/
def Cell.HasType (typ : PgType) (cell : Cell) : Prop :=
  ∀ shape ∈ cell.flattened.shape, shape = typ.cellShape

instance (typ : PgType) (cell : Cell) : Decidable (cell.HasType typ) :=
  inferInstanceAs (Decidable (∀ shape ∈ cell.flattened.shape, _))

theorem shape_of_parseCellFromPostgresTextArray {T : Type} {str : String}
    {parse : String → EtlResult T} {m : List (Option T) → ArrayCell} {cell : Cell}
    {shape : CellShape × Bool} (hshape : ∀ vs, (m vs |> Cell.array).flattened.shape = some shape)
    (hcell : parseCellFromPostgresTextArray str parse m = .ok cell) :
    cell.flattened.shape = some shape := by
  rw [parseCellFromPostgresTextArray] at hcell
  split_ifs at hcell
  · exact absurd hcell bail_ne_ok
  · exact absurd hcell bail_ne_ok
  · dsimp only at hcell
    split_ifs at hcell
    · cases hcell
      exact hshape []
    · obtain ⟨vs, -, hcell⟩ := bind_eq_ok_iff.mp hcell
      cases hcell
      exact hshape vs

/-- A parsed value is of the kind of its column. -/
theorem hasType_of_parseCellFromPostgresText {lp : LeafParsers} {typ : PgType} {str : String}
    {cell : Cell} (hcell : parseCellFromPostgresText lp typ str = .ok cell) :
    cell.HasType typ := by
  have hshape : cell.flattened.shape = some typ.cellShape := by
    cases typ with
    | char | bpchar | varchar | name | text | money =>
      cases hcell
      rfl
    | bool | int2 | int4 | int8 | float4 | float8 | numeric | bytea | date | time | timestamp
    | timestamptz | uuid | json | jsonb | oid =>
      obtain ⟨value, -, rfl⟩ := map_eq_ok_iff.mp hcell
      rfl
    | timestamptzArray =>
      rw [parseCellFromPostgresText] at hcell
      split at hcell
      · rename_i val hval
        cases hcell
        exact shape_of_parseCellFromPostgresTextArray (fun _ => rfl) hval
      · exact shape_of_parseCellFromPostgresTextArray (fun _ => rfl) hcell
    | other typeName arrayKind =>
      rw [parseCellFromPostgresText] at hcell
      split_ifs at hcell with harray
      · rw [PgType.cellShape, harray]
        exact shape_of_parseCellFromPostgresTextArray (fun _ => rfl) hcell
      · rw [PgType.cellShape, Bool.eq_false_iff.mpr harray]
        cases hcell
        rfl
    | _ => exact shape_of_parseCellFromPostgresTextArray (fun _ => rfl) hcell
  intro shape hmem
  rw [hshape] at hmem
  exact (Option.some.inj hmem).symm

namespace BigQuery

/-- The declared type of the fields that cells of a kind are written to. -/
def fieldType : CellShape → FieldType
  | .bool => .bool
  | .string => .string
  | .i16 => .int32
  | .i32 => .int32
  | .u32 => .int32
  | .i64 => .int64
  | .f32 => .float
  | .f64 => .double
  | .numeric => .string
  | .date => .string
  | .time => .string
  | .timestamp => .string
  | .timestamptz => .string
  | .uuid => .string
  | .json => .string
  | .bytes => .bytes

theorem columnType_eq (typ : PgType) : columnType typ = fieldType typ.cellShape.1 := by
  cases typ <;> rfl

theorem isArrayType_eq (typ : PgType) : isArrayType typ = typ.cellShape.2 := by
  cases typ <;> rfl

/-! ## Cells -/

section Cells

variable (formats : CellFormats)

/-- How the fields of a message hold a cell. -/
def fieldEncoding : CellNonOptional → FieldEncoding
  | .null => .absent
  | .bool b => .single (.ofBool b)
  | .string s => .single (.ofString s)
  | .i16 i => .single (.ofInt32 i.toInt32)
  | .i32 i => .single (.ofInt32 i)
  | .u32 i => .single (.ofUint32 i)
  | .i64 i => .single (.ofInt64 i)
  | .f32 i => .single (.ofFloat i)
  | .f64 i => .single (.ofDouble i)
  | .numeric n => .single (.ofString n.display)
  | .date t => .single (.ofString (formats.date t))
  | .time t => .single (.ofString (formats.time t))
  | .timestamp t => .single (.ofString (formats.timestamp t))
  | .timestamptz t => .single (.ofString (formats.timestamptz t))
  | .uuid u => .single (.ofString (formats.uuid u))
  | .json j => .single (.ofString j)
  | .bytes b => .single (.ofBytes b)
  | .array (.bool vec) => .packed (vec.map WireValue.ofBool)
  | .array (.string vec) => .repeated (vec.map WireValue.ofString)
  | .array (.i16 vec) => .packed (vec.map (WireValue.ofInt32 ·.toInt32))
  | .array (.i32 vec) => .packed (vec.map WireValue.ofInt32)
  | .array (.u32 vec) => .packed (vec.map WireValue.ofUint32)
  | .array (.i64 vec) => .packed (vec.map WireValue.ofInt64)
  | .array (.f32 vec) => .packed (vec.map WireValue.ofFloat)
  | .array (.f64 vec) => .packed (vec.map WireValue.ofDouble)
  | .array (.numeric vec) => .repeated (vec.map (WireValue.ofString ·.display))
  | .array (.date vec) => .repeated (vec.map (WireValue.ofString <| formats.date ·))
  | .array (.time vec) => .repeated (vec.map (WireValue.ofString <| formats.time ·))
  | .array (.timestamp vec) => .repeated (vec.map (WireValue.ofString <| formats.timestamp ·))
  | .array (.timestamptz vec) => .repeated (vec.map (WireValue.ofString <| formats.timestamptz ·))
  | .array (.uuid vec) => .repeated (vec.map (WireValue.ofString <| formats.uuid ·))
  | .array (.json vec) => .repeated (vec.map WireValue.ofString)
  | .array (.bytes vec) => .repeated (vec.map WireValue.ofBytes)

theorem cellEncodeProst_eq (tag : ℕ) (cell : CellNonOptional) :
    cellEncodeProst formats tag cell = (fieldEncoding formats cell).encode tag := by
  cases cell with
  | array a => cases a <;> rfl
  | _ => rfl

theorem cellEncodeLenProst_eq (tag : ℕ) (cell : CellNonOptional) :
    cellEncodeLenProst formats tag cell = (fieldEncoding formats cell).encodedLen tag := by
  cases cell with
  | array a => cases a <;> rfl
  | _ => rfl

/-- The values of a cell: none for null, and the elements of an array. -/
def contents : CellNonOptional → List Value
  | .null => []
  | .bool b => [.bool b]
  | .string s => [.string s]
  | .i16 i => [.int i.toInt]
  | .i32 i => [.int i.toInt]
  | .u32 i => [.int i.toNat]
  | .i64 i => [.int i.toInt]
  | .f32 i => [.float i]
  | .f64 i => [.double i]
  | .numeric n => [.string n.display]
  | .date t => [.string (formats.date t)]
  | .time t => [.string (formats.time t)]
  | .timestamp t => [.string (formats.timestamp t)]
  | .timestamptz t => [.string (formats.timestamptz t)]
  | .uuid u => [.string (formats.uuid u)]
  | .json j => [.string j]
  | .bytes b => [.bytes b]
  | .array (.bool vec) => vec.map Value.bool
  | .array (.string vec) => vec.map Value.string
  | .array (.i16 vec) => vec.map (Value.int ·.toInt)
  | .array (.i32 vec) => vec.map (Value.int ·.toInt)
  | .array (.u32 vec) => vec.map (Value.int ·.toNat)
  | .array (.i64 vec) => vec.map (Value.int ·.toInt)
  | .array (.f32 vec) => vec.map Value.float
  | .array (.f64 vec) => vec.map Value.double
  | .array (.numeric vec) => vec.map (Value.string ·.display)
  | .array (.date vec) => vec.map (Value.string <| formats.date ·)
  | .array (.time vec) => vec.map (Value.string <| formats.time ·)
  | .array (.timestamp vec) => vec.map (Value.string <| formats.timestamp ·)
  | .array (.timestamptz vec) => vec.map (Value.string <| formats.timestamptz ·)
  | .array (.uuid vec) => vec.map (Value.string <| formats.uuid ·)
  | .array (.json vec) => vec.map Value.string
  | .array (.bytes vec) => vec.map Value.bytes

/-- The values that are read for a cell: unsigned numbers are read as signed ones. -/
def received : CellNonOptional → List Value
  | .u32 i => [.int (Int.bmod i.toNat (2 ^ 32))]
  | .array (.u32 vec) => vec.map fun i => .int (Int.bmod i.toNat (2 ^ 32))
  | cell => contents formats cell

def oids : CellNonOptional → List UInt32
  | .u32 i => [i]
  | .array (.u32 vec) => vec
  | _ => []

theorem int_bmod_eq_iff (i : UInt32) :
    Value.int (Int.bmod i.toNat (2 ^ 32)) = Value.int i.toNat ↔ i.toNat < 2 ^ 31 := by
  rw [Value.int.injEq, Int.bmod_def]
  omega

/-- A cell is read as it is exactly when it has no identifier of the greater half. -/
theorem received_eq_contents_iff (cell : CellNonOptional) :
    received formats cell = contents formats cell ↔ ∀ i ∈ oids cell, i.toNat < 2 ^ 31 := by
  cases cell with
  | u32 i =>
    simp only [received, contents, oids, List.cons.injEq, and_true, int_bmod_eq_iff,
      forall_mem_singleton]
  | array a =>
    cases a with
    | u32 vec => simp only [received, contents, oids, map_inj_left, int_bmod_eq_iff]
    | _ => simp [received, oids]
  | _ => simp [received, oids]

variable {formats}

theorem forall₂_map {α : Type} {typ : FieldType} {wire : α → WireValue} {value : α → Value}
    (hvalue : ∀ a, decodeValue typ (wire a) = some (value a)) (vec : List α) :
    List.Forall₂ (fun wire value => decodeValue typ wire = some value) (vec.map wire)
      (vec.map value) := by
  rw [forall₂_map_left_iff, forall₂_map_right_iff]
  exact forall₂_same.mpr fun a _ => hvalue a

theorem decodeValue_ofInt16 (i : Int16) :
    decodeValue .int32 (.ofInt32 i.toInt32) = some (.int i.toInt) := by
  rw [decodeValue_ofInt32, Int16.toInt_toInt32]

theorem carries_fieldEncoding {cell : CellNonOptional} {shape : CellShape} {isArray : Bool}
    {label : Label} (hshape : cell.shape = some (shape, isArray))
    (hlabel : label = .repeated ↔ isArray = true) :
    (fieldEncoding formats cell).Carries (fieldType shape) label (received formats cell) := by
  have hsingle : isArray = false → label ≠ .repeated := by
    rintro rfl hrepeated
    exact Bool.false_ne_true (hlabel.mp hrepeated)
  cases cell with
  | null => cases hshape
  | array a =>
    have harray : isArray = true := by
      cases a <;> exact (Prod.ext_iff.mp (Option.some.inj hshape)).2.symm
    obtain rfl := hlabel.mpr harray
    cases a with
    | bool vec =>
      cases hshape
      exact .packed rfl (forall₂_map decodeValue_ofBool vec)
    | i16 vec =>
      cases hshape
      exact .packed rfl (forall₂_map decodeValue_ofInt16 vec)
    | i32 vec =>
      cases hshape
      exact .packed rfl (forall₂_map decodeValue_ofInt32 vec)
    | u32 vec =>
      cases hshape
      exact .packed rfl (forall₂_map decodeValue_ofUint32 vec)
    | i64 vec =>
      cases hshape
      exact .packed rfl (forall₂_map decodeValue_ofInt64 vec)
    | f32 vec | f64 vec =>
      cases hshape
      exact .packed rfl (forall₂_map (fun _ => rfl) vec)
    | bytes vec =>
      cases hshape
      exact .repeated (forall₂_map (fun _ => rfl) vec)
    | string vec | numeric vec | date vec | time vec | timestamp vec | timestamptz vec | uuid vec
    | json vec =>
      cases hshape
      exact .repeated (forall₂_map (fun _ => decodeValue_ofString _) vec)
  | bool b =>
    cases hshape
    exact .single (hsingle rfl) (decodeValue_ofBool b)
  | i16 i =>
    cases hshape
    exact .single (hsingle rfl) (decodeValue_ofInt16 i)
  | i32 i =>
    cases hshape
    exact .single (hsingle rfl) (decodeValue_ofInt32 i)
  | u32 i =>
    cases hshape
    exact .single (hsingle rfl) (decodeValue_ofUint32 i)
  | i64 i =>
    cases hshape
    exact .single (hsingle rfl) (decodeValue_ofInt64 i)
  | f32 i | f64 i | bytes i =>
    cases hshape
    exact .single (hsingle rfl) rfl
  | string s | numeric s | date s | time s | timestamp s | timestamptz s | uuid s | json s =>
    cases hshape
    exact .single (hsingle rfl) (decodeValue_ofString _)

end Cells

/-! ## Rows -/

/-- The cell that is written for a value, if it can be written. -/
def RowValue.flattened : RowValue → CellNonOptional
  | .cell value => value.flattened
  | .operation kind => .string kind.display
  | .sequence key => .string (sequenceText key)

variable {cells : List (ℕ × CellNonOptional)}

theorem eq_of_taggedCells {row : BigQueryTableRow} (hcells : taggedCells row = .ok cells) :
    cells = row.map (Prod.map id RowValue.flattened) := by
  refine eq_map_of_mapM_eq_ok (fun (tag, value) _ written hwritten => ?_) hcells
  obtain ⟨cell, hcell, hwritten⟩ := bind_eq_ok_iff.mp hwritten
  cases hwritten
  cases value with
  | cell value => rw [CellNonOptional.eq_flattened hcell]; rfl
  | operation kind | sequence key => rw [← Except.ok.inj hcell]; rfl

/-- The cells of the columns of a row with all but the primary key left out. -/
def keyCells (schema : ReplicatedTableSchema) (old : TableRow) : List Cell :=
  (schema.columnSchemas.zip old.values).map fun (column, cell) =>
    if column.primaryKey then cell else .null

/-- The rows that are written for a schema: with or without a sequence number, the values of their
columns, and the cells with their tags. -/
inductive Emitted (validateJsonForBigquery : String → EtlResult Unit)
    (schema : ReplicatedTableSchema) : Bool → List RowValue → List (ℕ × CellNonOptional) → Prop
  | copied {row : TableRow} {cells : List (ℕ × CellNonOptional)}
      (hrow : List.Forall₂ (fun column cell =>
        cell.HasType column.typ ∧ (cell = .null → column.nullable = true))
          schema.columnSchemas row.values)
      (hcells : bigqueryCopyRow (checkCell validateJsonForBigquery) row >>= taggedCells =
        .ok cells) :
      Emitted validateJsonForBigquery schema false
        (row.values.map .cell ++ [.operation .upsert]) cells
  | upserted {row : TableRow} {sequenceKey : ChangeSequenceNumber}
      {cells : List (ℕ × CellNonOptional)}
      (hrow : List.Forall₂ (fun column cell => cell.HasType column.typ) schema.columnSchemas
        row.values)
      (hcells : bigqueryUpsertRow (checkCell validateJsonForBigquery) row sequenceKey >>=
        taggedCells = .ok cells) :
      Emitted validateJsonForBigquery schema true
        (row.values.map .cell ++ [.operation .upsert, .sequence sequenceKey]) cells
  | deleted {old : TableRow} {image : OldTableRow} {sequenceKey : ChangeSequenceNumber}
      {cells : List (ℕ × CellNonOptional)}
      (hold : List.Forall₂ (fun column cell => cell.HasType column.typ) schema.columnSchemas
        old.values)
      (himage : image.Shows schema old)
      (hcells : bigqueryDeleteRow (checkCell validateJsonForBigquery) schema image sequenceKey >>=
        taggedCells = .ok cells) :
      Emitted validateJsonForBigquery schema true
        ((keyCells schema old).map .cell ++ [.operation .delete, .sequence sequenceKey]) cells

/-- The cells hold the values at the tags of their positions, and leave out nulls at most. -/
structure Lays (cells : List (ℕ × CellNonOptional)) (values : List CellNonOptional) : Prop where
  nodup : (cells.map Prod.fst).Nodup
  mem : ∀ entry ∈ cells, ∃ index, entry.1 = index + 1 ∧ values[index]? = some entry.2
  present : ∀ index value, values[index]? = some value → value ≠ .null →
    (index + 1, value) ∈ cells

theorem Lays.append {values : List CellNonOptional} (hlays : Lays cells values)
    (extra : List CellNonOptional) :
    Lays (cells ++ (extra.zipIdx (values.length + 1)).map Prod.swap) (values ++ extra) where
  nodup := by
    have hextra : ((extra.zipIdx (values.length + 1)).map Prod.swap).map Prod.fst =
        List.range' (values.length + 1) extra.length := by
      rw [map_map, ← zipIdx_map_snd]
      rfl
    rw [map_append, hextra, nodup_append]
    refine ⟨hlays.nodup, nodup_range', fun tag htag other hother heq => ?_⟩
    obtain ⟨entry, hentry, rfl⟩ := mem_map.mp htag
    obtain ⟨index, hindex, hvalue⟩ := hlays.mem entry hentry
    have hlt := (List.getElem?_eq_some_iff.mp hvalue).1
    have hle := (mem_range'_1.mp hother).1
    omega
  mem := by
    intro entry hentry
    obtain hentry | hentry := mem_append.mp hentry
    · obtain ⟨index, hindex, hvalue⟩ := hlays.mem entry hentry
      have hlt := (List.getElem?_eq_some_iff.mp hvalue).1
      exact ⟨index, hindex, (List.getElem?_append_left hlt).trans hvalue⟩
    · obtain ⟨⟨value, tag⟩, hvalue, rfl⟩ := mem_map.mp hentry
      obtain ⟨hle, hvalue⟩ := mk_mem_zipIdx_iff_le_and_getElem?_sub.mp hvalue
      have htag : values.length ≤ tag - 1 := by omega
      refine ⟨tag - 1, (Nat.sub_add_cancel (by omega : 1 ≤ tag)).symm, ?_⟩
      rw [List.getElem?_append_right htag, Nat.sub_sub, Nat.add_comm 1]
      exact hvalue
  present := by
    intro index value hvalue hne
    by_cases hlt : index < values.length
    · rw [List.getElem?_append_left hlt] at hvalue
      exact mem_append_left _ (hlays.present index value hvalue hne)
    · rw [List.getElem?_append_right (by omega)] at hvalue
      refine mem_append_right _ (mem_map.mpr ⟨(value, index + 1), ?_, rfl⟩)
      refine mk_mem_zipIdx_iff_le_and_getElem?_sub.mpr ⟨by omega, ?_⟩
      rwa [Nat.add_sub_add_right]

theorem Lays.enumerated (values : List CellNonOptional) :
    Lays ((values.zipIdx 1).map Prod.swap) values := by
  have hnil : Lays [] [] := ⟨nodup_nil, by simp, by simp⟩
  exact hnil.append values

section Rows

variable {formats : CellFormats} {cells : List (ℕ × CellNonOptional)}
  {values : List CellNonOptional} {fields : List FieldDescriptor}

/-- The message of a row holds each value at the number of its position. -/
theorem Lays.encodingAt (hlays : Lays cells values) {index : ℕ} {value : CellNonOptional}
    (hvalue : values[index]? = some value) :
    Protobuf.encodingAt (cells.map (Prod.map id (fieldEncoding formats))) (index + 1) =
      fieldEncoding formats value := by
  have hnodup : ((cells.map (Prod.map id (fieldEncoding formats))).map Prod.fst).Nodup := by
    rw [map_map]
    exact hlays.nodup
  by_cases hmem : (index + 1, value) ∈ cells
  · exact encodingAt_of_mem hnodup (mem_map_of_mem hmem)
  · -- Only a null is left out, and no other cell has its tag.
    have hnull : value = .null := by
      by_contra hne
      exact hmem (hlays.present index value hvalue hne)
    have hnone : (cells.map (Prod.map id (fieldEncoding formats))).find?
        (·.1 = index + 1) = none := by
      refine List.find?_eq_none.mpr fun entry hentry htag => hmem ?_
      obtain ⟨⟨tag, cell⟩, hcell, rfl⟩ := mem_map.mp hentry
      obtain ⟨other, hother, hcellAt⟩ := hlays.mem (tag, cell) hcell
      obtain rfl : tag = index + 1 := of_decide_eq_true htag
      obtain rfl : index = other := Nat.succ.inj hother
      obtain rfl : value = cell := Option.some.inj (hvalue.symm.trans hcellAt)
      exact hcell
    rw [Protobuf.encodingAt, hnone, hnull]
    rfl

structure FieldFits (field : FieldDescriptor) (cell : CellNonOptional) : Prop where
  typ : ∀ shape ∈ cell.shape,
    field.typ = fieldType shape.1 ∧ (field.label = .repeated ↔ shape.2 = true)
  label : cell = .null → field.label ≠ .required

theorem FieldFits.carries {field : FieldDescriptor} {cell : CellNonOptional}
    (hfits : FieldFits field cell) :
    (fieldEncoding formats cell).Carries field.typ field.label (received formats cell) := by
  cases hshape : cell.shape with
  | none =>
    obtain rfl : cell = .null := by
      cases cell with
      | null => rfl
      | array a => cases a <;> cases hshape
      | _ => cases hshape
    exact .absent (hfits.label rfl)
  | some shape =>
    obtain ⟨htyp, hlabel⟩ := hfits.typ shape hshape
    rw [htyp]
    exact carries_fieldEncoding hshape hlabel

theorem map_number_columnSchemasToTableDescriptor (schema : ReplicatedTableSchema)
    (useCdcSequenceColumn : Bool) :
    (columnSchemasToTableDescriptor schema useCdcSequenceColumn).map FieldDescriptor.number =
      List.range' 1 (columnSchemasToTableDescriptor schema useCdcSequenceColumn).length := by
  have hcolumns : ((schema.columnSchemas.zipIdx 1).map fun field =>
      (⟨field.2, field.1.name, columnType field.1.typ, columnMode field.1 useCdcSequenceColumn⟩ :
        FieldDescriptor)).map FieldDescriptor.number =
          List.range' 1 schema.columnSchemas.length := by
    rw [map_map, ← zipIdx_map_snd]
    rfl
  have hrange (count : ℕ) : List.range' 1 schema.columnSchemas.length ++
      List.range' (schema.columnSchemas.length + 1) count =
        List.range' 1 (schema.columnSchemas.length + count) := by
    rw [Nat.add_comm _ 1, List.range'_append_1]
  rw [columnSchemasToTableDescriptor, append_assoc, map_append, hcolumns,
    length_append, length_map, length_zipIdx, ← hrange]
  cases useCdcSequenceColumn <;> rfl

/-- Values at the positions of their fields make a message that conforms to the fields. -/
theorem Lays.conforms (hlays : Lays cells values)
    (hnumbers : fields.map FieldDescriptor.number = List.range' 1 fields.length)
    (hcount : fields.length < 2 ^ 29) (hfits : List.Forall₂ FieldFits fields values) :
    Conforms fields (cells.map (Prod.map id (fieldEncoding formats)))
      fun number => (values[number - 1]?.map (received formats)).getD [] := by
  have hnumber : ∀ index field, fields[index]? = some field → field.number = index + 1 := by
    intro index field hfield
    have hindex : index < fields.length := (List.getElem?_eq_some_iff.mp hfield).1
    have hmap : (fields.map FieldDescriptor.number)[index]? = some field.number := by
      rw [List.getElem?_map, hfield]
      rfl
    rw [hnumbers, List.getElem?_range' hindex, Nat.one_mul, Nat.add_comm] at hmap
    exact (Option.some.inj hmap).symm
  have hbound : ∀ field ∈ fields, 0 < field.number ∧ field.number < 2 ^ 29 := by
    intro field hfield
    obtain ⟨index, hindex⟩ := mem_iff_getElem?.mp hfield
    have hlt : index < fields.length := (List.getElem?_eq_some_iff.mp hindex).1
    rw [hnumber index field hindex]
    omega
  refine ⟨fun field hfield => (hbound field hfield).1, fun field hfield => (hbound field hfield).2,
    ?_, ?_, ?_⟩
  · rw [map_map]
    exact hlays.nodup
  · intro entry hentry
    obtain ⟨cell, hcell, rfl⟩ := mem_map.mp hentry
    obtain ⟨index, htag, hvalue⟩ := hlays.mem cell hcell
    have hlt : index < fields.length := by
      rw [hfits.length_eq]
      exact (List.getElem?_eq_some_iff.mp hvalue).1
    exact ⟨fields[index], getElem_mem hlt,
      (hnumber index _ (List.getElem?_eq_getElem hlt)).trans htag.symm⟩
  · intro field hfield
    obtain ⟨index, hindex⟩ := mem_iff_getElem?.mp hfield
    have hlt : index < fields.length := (List.getElem?_eq_some_iff.mp hindex).1
    have hltValues : index < values.length := hfits.length_eq ▸ hlt
    have hvalue : values[index]? = some values[index] := List.getElem?_eq_getElem hltValues
    have hfield : fields[index] = field := (List.getElem?_eq_some_iff.mp hindex).2
    have hfitsAt : FieldFits field values[index] := by
      rw [← hfield]
      exact hfits.get hlt hltValues
    rw [hnumber index field hindex, hlays.encodingAt hvalue, Nat.add_sub_cancel, hvalue]
    exact hfitsAt.carries

theorem Lays.decode_encodeRaw (hlays : Lays cells values)
    (hnumbers : fields.map FieldDescriptor.number = List.range' 1 fields.length)
    (hcount : fields.length < 2 ^ 29) (hfits : List.Forall₂ FieldFits fields values)
    (hsize : (encodeRaw formats cells).length < 2 ^ 64) :
    decodeMessage fields (encodeRaw formats cells) = some (values.map (received formats)) ∧
      encodedLen formats cells = (encodeRaw formats cells).length := by
  have hconforms : Conforms fields (cells.map (Prod.map id (fieldEncoding formats))) _ :=
    hlays.conforms hnumbers hcount hfits
  have hencode : encodeRaw formats cells =
      encodeMessage (cells.map (Prod.map id (fieldEncoding formats))) := by
    rw [encodeMessage, flatMap_map]
    exact flatMap_congr fun cell _ => cellEncodeProst_eq formats cell.1 cell.2
  have hlength : encodedLen formats cells =
      encodedLenMessage (cells.map (Prod.map id (fieldEncoding formats))) := by
    rw [encodedLenMessage, map_map]
    exact congrArg List.sum
      (map_congr_left fun cell _ => cellEncodeLenProst_eq formats cell.1 cell.2)
  have hvalues : (fields.map fun field =>
      (values[field.number - 1]?.map (received formats)).getD []) =
        values.map (received formats) := by
    have hrange : (fields.map fun field =>
        (values[field.number - 1]?.map (received formats)).getD []) =
          (fields.map FieldDescriptor.number).map fun number =>
            (values[number - 1]?.map (received formats)).getD [] := by
      rw [map_map]
      rfl
    rw [hrange, hnumbers, hfits.length_eq]
    refine ext_getElem (by simp) fun index hindex _ => ?_
    have hlt : index < values.length := by simpa using hindex
    simp [hlt]
  rw [hencode] at hsize ⊢
  refine ⟨?_, ?_⟩
  · rw [decodeMessage_encode hconforms hsize, hvalues]
  · rw [hlength, length_encodeMessage hconforms hsize]

variable {schema : ReplicatedTableSchema} {useCdcSequenceColumn : Bool} {cell : Cell}
  {column : ColumnSchema} {columns : List ColumnSchema} {rowCells : List Cell}
  {row : BigQueryTableRow} {oldCells : List Cell} {old : TableRow}

theorem fieldFits_column (number : ℕ) (htype : cell.HasType column.typ)
    (hnull : cell = .null → columnMode column useCdcSequenceColumn ≠ .required) :
    FieldFits ⟨number, column.name, columnType column.typ, columnMode column useCdcSequenceColumn⟩
      cell.flattened where
  typ := by
    intro shape hshape
    rw [htype shape hshape]
    refine ⟨columnType_eq column.typ, ?_⟩
    rw [← isArrayType_eq]
    dsimp only [columnMode]
    split_ifs with harray <;> simp [harray]
  label := by
    intro hflattened
    refine hnull ?_
    cases cell with
    | null => rfl
    | _ => cases hflattened

/-- A text fills a field for text. -/
theorem fieldFits_string (number : ℕ) (name s : String) :
    FieldFits ⟨number, name, .string, .required⟩ (.string s) where
  typ := by
    rintro shape hshape
    cases hshape
    exact ⟨rfl, by simp⟩
  label := fun h => by cases h

theorem forall₂_fieldFits_columns (start : ℕ)
    (hcells : List.Forall₂ (fun column cell => cell.HasType column.typ ∧
      (cell = .null → columnMode column useCdcSequenceColumn ≠ .required)) columns rowCells) :
    List.Forall₂ FieldFits
      ((columns.zipIdx start).map fun (column, number) =>
        ⟨number, column.name, columnType column.typ, columnMode column useCdcSequenceColumn⟩)
      ((rowCells.map RowValue.cell).map RowValue.flattened) := by
  induction hcells generalizing start with
  | nil => exact .nil
  | cons hcell _ ih => exact .cons (fieldFits_column start hcell.1 hcell.2) (ih (start + 1))

theorem forall₂_fieldFits {operation : BigQueryOperationType}
    (sequenceKeys : List ChangeSequenceNumber)
    (hkeys : sequenceKeys.length = if useCdcSequenceColumn then 1 else 0)
    (hcells : List.Forall₂ (fun column cell => cell.HasType column.typ ∧
      (cell = .null → columnMode column useCdcSequenceColumn ≠ .required))
        schema.columnSchemas rowCells) :
    List.Forall₂ FieldFits (columnSchemasToTableDescriptor schema useCdcSequenceColumn)
      ((rowCells.map RowValue.cell ++
        .operation operation :: sequenceKeys.map RowValue.sequence).map RowValue.flattened) := by
  rw [columnSchemasToTableDescriptor, map_append, append_assoc]
  refine rel_append (forall₂_fieldFits_columns 1 hcells) (.cons (fieldFits_string _ _ _) ?_)
  cases useCdcSequenceColumn with
  | false =>
    obtain rfl := length_eq_zero_iff.mp hkeys
    exact .nil
  | true =>
    obtain ⟨key, rfl⟩ := length_eq_one_iff.mp hkeys
    exact .cons (fieldFits_string _ _ _) .nil

theorem columnMode_ne_required (hcolumn : useCdcSequenceColumn = true ∨ column.nullable = true) :
    columnMode column useCdcSequenceColumn ≠ .required := by
  rw [columnMode]
  split_ifs with harray hcdc hnullable
  · simp
  · simp
  · simp
  · exact absurd hcolumn (by simp [hcdc, hnullable])

/-- The tagged values of a row, in order. -/
theorem lays_enumerated {values : List RowValue} (hrow : row = enumerated values)
    (hcells : taggedCells row = .ok cells) :
    Lays cells (values.map RowValue.flattened) := by
  have henumerated : cells = ((values.map RowValue.flattened).zipIdx 1).map Prod.swap := by
    rw [eq_of_taggedCells hcells, hrow, enumerated, zipIdx_map, map_map, map_map]
    rfl
  rw [henumerated]
  exact Lays.enumerated _

/-- The key cells of a delete are at the positions of their columns. -/
theorem mem_zip_primaryKeyTags_iff (hlength : oldCells.length = columns.length) {tag : ℕ} :
    (tag, cell) ∈ (primaryKeyTags columns 1).zip
        (((columns.zip oldCells).filter (·.1.primaryKey)).map Prod.snd) ↔
      ∃ index column, tag = index + 1 ∧ column.primaryKey = true ∧
        (columns.zip oldCells)[index]? = some (column, cell) := by
  rw [← filterMap_primaryKey 1 hlength, List.mem_filterMap]
  constructor
  · rintro ⟨⟨⟨column, value⟩, number⟩, hmem, hsome⟩
    obtain ⟨hle, hvalue⟩ := List.mk_mem_zipIdx_iff_le_and_getElem?_sub.mp hmem
    dsimp only at hsome
    split_ifs at hsome with hcolumn
    obtain ⟨rfl, rfl⟩ := Prod.mk.inj (Option.some.inj hsome)
    exact ⟨number - 1, column, (Nat.sub_add_cancel hle).symm, hcolumn, hvalue⟩
  · rintro ⟨index, column, rfl, hcolumn, hvalue⟩
    refine ⟨((column, cell), index + 1), ?_, by simp [hcolumn]⟩
    exact List.mk_mem_zipIdx_iff_le_and_getElem?_sub.mpr ⟨by omega, hvalue⟩

theorem lays_keyCells (hold : schema.FitsRow old) :
    Lays (((primaryKeyTags schema.columnSchemas 1).zip (schema.primaryKeyValues old)).map
      (Prod.map id Cell.flattened)) ((keyCells schema old).map Cell.flattened) where
  nodup := by
    have htags : (((primaryKeyTags schema.columnSchemas 1).zip (schema.primaryKeyValues old)).map
        (Prod.map id Cell.flattened)).map Prod.fst = primaryKeyTags schema.columnSchemas 1 := by
      rw [map_map]
      exact map_fst_zip (le_of_eq (length_primaryKeyTags hold))
    rw [htags]
    exact (primaryKeyTags_sublist schema.columnSchemas 1).nodup nodup_range'
  mem := by
    intro entry hentry
    obtain ⟨⟨tag, cell⟩, hcell, rfl⟩ := mem_map.mp hentry
    obtain ⟨index, column, htag, hcolumn, hvalue⟩ := (mem_zip_primaryKeyTags_iff hold).mp hcell
    refine ⟨index, htag, ?_⟩
    rw [keyCells, map_map, List.getElem?_map, hvalue]
    simp [hcolumn]
  present := by
    intro index value hvalue hne
    rw [keyCells, map_map, List.getElem?_map, Option.map_eq_some_iff] at hvalue
    obtain ⟨⟨column, cell⟩, hcell, rfl⟩ := hvalue
    cases hcolumn : column.primaryKey with
    | false =>
      simp only [Function.comp_apply, hcolumn] at hne
      exact absurd rfl hne
    | true =>
      simp only [Function.comp_apply, hcolumn]
      refine mem_map.mpr ⟨(index + 1, cell), ?_, rfl⟩
      exact (mem_zip_primaryKeyTags_iff hold).mpr ⟨index, column, rfl, hcolumn, hcell⟩

theorem lays_deleted {validateCell : ℕ → Cell → EtlResult Unit} {image : OldTableRow}
    {sequenceKey : ChangeSequenceNumber} (hschema : schema.Distinct) (hold : schema.FitsRow old)
    (himage : image.Shows schema old)
    (hrow : bigqueryDeleteRow validateCell schema image sequenceKey = .ok row)
    (hcells : taggedCells row = .ok cells) :
    Lays cells (((keyCells schema old).map RowValue.cell ++
      [RowValue.operation .delete, .sequence sequenceKey]).map RowValue.flattened) := by
  have hlength : ((keyCells schema old).map Cell.flattened).length =
      schema.columnSchemas.length := by
    rw [length_map, keyCells, length_map, length_zip, hold.length_eq, min_self]
  have hlays := (lays_keyCells hold).append
    [RowValue.flattened (.operation .delete), RowValue.flattened (.sequence sequenceKey)]
  rw [hlength] at hlays
  rw [eq_of_taggedCells hcells, eq_of_bigqueryDeleteRow hschema hold himage hrow, map_append,
    map_append, map_map, map_map]
  exact hlays

variable {validateJsonForBigquery : String → EtlResult Unit} {rowValues : List RowValue}

theorem fitsRow_of_forall₂ {R : ColumnSchema → Cell → Prop} {row : TableRow}
    (hrow : List.Forall₂ R schema.columnSchemas row.values) : schema.FitsRow row :=
  hrow.length_eq.symm

theorem Emitted.lays (hschema : schema.Distinct)
    (hrow : Emitted validateJsonForBigquery schema useCdcSequenceColumn rowValues cells) :
    Lays cells (rowValues.map RowValue.flattened) := by
  cases hrow with
  | copied hrow hcells | upserted hrow hcells =>
    obtain ⟨row, hok, hcells⟩ := bind_eq_ok_iff.mp hcells
    exact lays_enumerated (eq_of_tryFromTaggedCells hok) hcells
  | deleted hold himage hcells =>
    obtain ⟨row, hok, hcells⟩ := bind_eq_ok_iff.mp hcells
    exact lays_deleted hschema (fitsRow_of_forall₂ hold) himage hok hcells

theorem forall₂_keyCells
    (hold : List.Forall₂ (fun column cell => cell.HasType column.typ) columns oldCells) :
    List.Forall₂ (fun column cell => cell.HasType column.typ) columns
      ((columns.zip oldCells).map fun (column, cell) =>
        if column.primaryKey then cell else .null) := by
  induction hold with
  | nil => exact .nil
  | cons hcell _ ih =>
    refine .cons ?_ ih
    dsimp only
    split_ifs
    · exact hcell
    · exact fun shape hshape => by cases hshape

theorem Emitted.fits
    (hrow : Emitted validateJsonForBigquery schema useCdcSequenceColumn rowValues cells) :
    List.Forall₂ FieldFits (columnSchemasToTableDescriptor schema useCdcSequenceColumn)
      (rowValues.map RowValue.flattened) := by
  cases hrow with
  | copied hrow hcells =>
    refine forall₂_fieldFits [] rfl (hrow.imp fun column cell hcell => ?_)
    exact ⟨hcell.1, fun hnull => columnMode_ne_required (.inr (hcell.2 hnull))⟩
  | @upserted row sequenceKey _ hrow hcells =>
    refine forall₂_fieldFits [sequenceKey] rfl
      (hrow.imp fun column cell hcell => ?_)
    exact ⟨hcell, fun _ => columnMode_ne_required (.inl rfl)⟩
  | @deleted old image sequenceKey _ hold himage hcells =>
    refine forall₂_fieldFits [sequenceKey] rfl
      ((forall₂_keyCells hold).imp fun column cell hcell => ?_)
    exact ⟨hcell, fun _ => columnMode_ne_required (.inl rfl)⟩

theorem Emitted.decode_encodeRaw (hschema : schema.Distinct)
    (hcolumns : schema.columnSchemas.length + 2 < 2 ^ 29)
    (hrow : Emitted validateJsonForBigquery schema useCdcSequenceColumn rowValues cells)
    (hsize : (encodeRaw formats cells).length < 2 ^ 64) :
    decodeMessage (columnSchemasToTableDescriptor schema useCdcSequenceColumn)
        (encodeRaw formats cells) =
      some (rowValues.map fun value => received formats value.flattened) ∧
      encodedLen formats cells = (encodeRaw formats cells).length := by
  have hcount : (columnSchemasToTableDescriptor schema useCdcSequenceColumn).length < 2 ^ 29 := by
    refine lt_of_le_of_lt ?_ hcolumns
    cases useCdcSequenceColumn <;> simp [columnSchemasToTableDescriptor]
  have hdecode := (hrow.lays hschema).decode_encodeRaw
    (map_number_columnSchemasToTableDescriptor schema useCdcSequenceColumn) hcount hrow.fits hsize
  rw [map_map] at hdecode
  exact hdecode

end Rows

/-- The bytes of a row, read with the descriptor of its schema, give the values of the row, and the
length reported for it is the number of its bytes, exactly when the row has no object identifier of
the greater half. -/
theorem decode_encodeRaw_iff (formats : CellFormats)
    (validateJsonForBigquery : String → EtlResult Unit) (schema : ReplicatedTableSchema)
    (hschema : schema.Distinct) (hcolumns : schema.columnSchemas.length + 2 < 2 ^ 29)
    (useCdcSequenceColumn : Bool) (rowValues : List RowValue)
    (cells : List (ℕ × CellNonOptional))
    (hrow : Emitted validateJsonForBigquery schema useCdcSequenceColumn rowValues cells)
    (hsize : (encodeRaw formats cells).length < 2 ^ 64) :
    (decodeMessage (columnSchemasToTableDescriptor schema useCdcSequenceColumn)
          (encodeRaw formats cells) =
        some (rowValues.map fun value => contents formats value.flattened) ∧
      encodedLen formats cells = (encodeRaw formats cells).length) ↔
      ∀ value ∈ rowValues, ∀ i ∈ oids value.flattened, i.toNat < 2 ^ 31 := by
  obtain ⟨hdecode, hlength⟩ := hrow.decode_encodeRaw hschema hcolumns hsize
  rw [hdecode, Option.some.injEq, map_inj_left]
  simp [received_eq_contents_iff, hlength]

/-! ## Object identifiers -/

/-- A table with an object identifier, a text and an array of numbers. -/
def relationsSchema : ReplicatedTableSchema :=
  .fromMask ⟨1, ⟨"public", "relations"⟩,
    [⟨"relation", .oid, -1, 1, none, true⟩, ⟨"owner", .text, -1, 2, none, true⟩,
      ⟨"pages", .int4Array, -1, 3, none, true⟩], 0⟩ [true, true, true]

/-- The cells of a copied row whose text is null. -/
def relationCells (oid : UInt32) : List (ℕ × CellNonOptional) :=
  [(1, .u32 oid), (2, .null), (3, .array (.i32 [7, -300])), (4, .string "UPSERT")]

theorem emitted_relationCells (oid : UInt32) :
    Emitted (fun _ => .ok ()) relationsSchema false
      [.cell (.u32 oid), .cell .null, .cell (.array (.i32 [some 7, some (-300)])),
        .operation .upsert] (relationCells oid) := by
  have hrow : List.Forall₂ (fun column cell =>
      cell.HasType column.typ ∧ (cell = .null → column.nullable = true))
        relationsSchema.columnSchemas
        (⟨[.u32 oid, .null, .array (.i32 [some 7, some (-300)])]⟩ : TableRow).values := by
    refine .cons ⟨fun shape hshape => ?_, fun hnull => by cases hnull⟩
      (.cons ⟨by decide, fun _ => rfl⟩ (.cons ⟨by decide, fun _ => rfl⟩ .nil))
    exact (Option.some.inj hshape).symm
  exact .copied hrow rfl

theorem relationsSchema_distinct : relationsSchema.Distinct := ⟨by decide, by decide⟩

theorem relation_16384_read_back :
    decodeMessage (columnSchemasToTableDescriptor relationsSchema false)
          (encodeRaw plainFormats (relationCells 16384)) =
        some [[.int 16384], [], [.int 7, .int (-300)], [.string "UPSERT"]] ∧
      encodedLen plainFormats (relationCells 16384) =
        (encodeRaw plainFormats (relationCells 16384)).length := by
  refine (decode_encodeRaw_iff plainFormats (fun _ => .ok ()) relationsSchema
    relationsSchema_distinct (by decide) false _ (relationCells 16384)
    (emitted_relationCells 16384) (by decide +kernel)).mpr ?_
  simp [oids, RowValue.flattened, Cell.flattened, ArrayCell.flattened]

/-- The greatest object identifier is read as minus one. -/
theorem greatest_oid_read_negative :
    decodeMessage (columnSchemasToTableDescriptor relationsSchema false)
          (encodeRaw plainFormats (relationCells 4294967295)) =
        some [[.int (-1)], [], [.int 7, .int (-300)], [.string "UPSERT"]] ∧
      contents plainFormats (.u32 4294967295) = [.int 4294967295] := by
  have hdecode := ((emitted_relationCells 4294967295).decode_encodeRaw relationsSchema_distinct
    (by decide) (by decide +kernel : (encodeRaw plainFormats _).length < 2 ^ 64)).1
  rw [hdecode]
  exact ⟨by decide +kernel, by decide +kernel⟩

end BigQuery

end Etl
