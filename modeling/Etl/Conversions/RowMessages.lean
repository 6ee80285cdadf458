import Etl.Conversions.TupleData
import Etl.Destinations.RowEvents
import Mathlib.Data.List.ReduceOption

/-! # Updates and deletes of the replication stream

The decoding of update and delete messages. An update carries its new row, in which fields that
Postgres left out because their value did not change are filled in from the old row, as far as the
message has it; the others stay missing. Old rows come whole or as a key image, which has either one
field for each identity column or one for each replicated column.

The decoder walks the columns with two cursors, one over the identity columns and one over the old
values. `parseEventFromUpdateMessage_eq_ok` says what comes out for everything Postgres may send.

Reference: `etl/src/conversions/event.rs` (`parse_event_from_update_message`).
-/

namespace Etl

open List

/-! ## Decoding -/

/-- Gives the old values along the columns: of every column, of the identity columns only, or
none. -/
inductive OldRowResolver where
  | none
  | full (values : List Cell) (nextColumnIndex : ℕ)
  | key (values : List Cell) (nextKeyIndex : ℕ)

namespace OldRowResolver

def new (oldTableRow : Option OldTableRow) (columnCount : ℕ) : EtlResult OldRowResolver :=
  match oldTableRow with
  | some (.full row) =>
    if row.values.length ≠ columnCount then
      bailWith .conversionError "Old tuple row width does not match schema"
        s!"Expected {columnCount} old row values, got {row.values.length}"
    else .ok (.full row.values 0)
  | some (.key row) => .ok (.key row.values 0)
  | Option.none => .ok .none

/-- The old value of the next column, if there is one. -/
def valueForColumn (resolver : OldRowResolver) (isIdentityColumn : Bool) :
    EtlResult (Option Cell × OldRowResolver) :=
  match resolver with
  | .none => .ok (Option.none, .none)
  | .full values nextColumnIndex =>
    match values[nextColumnIndex]? with
    | Option.none =>
      bailWith .conversionError "Old tuple row width does not match schema"
        s!"Expected at least {nextColumnIndex + 1} old row values, got {values.length}"
    | some value => .ok (some value, .full values (nextColumnIndex + 1))
  | .key values nextKeyIndex =>
    if !isIdentityColumn then .ok (Option.none, .key values nextKeyIndex)
    else
      match values[nextKeyIndex]? with
      | Option.none =>
        bailWith .conversionError "Replica-identity tuple shape does not match schema"
          s!"Expected at least {nextKeyIndex + 1} key values, got {values.length}"
      | some value => .ok (some value, .key values (nextKeyIndex + 1))

/-- Checks that all old values were used. -/
def finish : OldRowResolver → EtlResult Unit
  | .full values nextColumnIndex =>
    if nextColumnIndex ≠ values.length then
      bailWith .conversionError "Old tuple row width does not match schema"
        s!"Expected {nextColumnIndex} old row values, got {values.length}"
    else .ok ()
  | .key values nextKeyIndex =>
    if nextKeyIndex ≠ values.length then
      bailWith .conversionError "Replica-identity tuple shape does not match schema"
        s!"Expected {nextKeyIndex} key values, got {values.length}"
    else .ok ()
  | .none => .ok ()

end OldRowResolver

/-- The values of a new row that are known so far. They move over to the present values at the first
one that is missing. -/
structure UpdatedValues where
  fullValues : List Cell := []
  presentValues : List Cell := []
  missingColumnIndexes : List ℕ := []
  partialRow : Bool := false

/-- Adds the value of a column. -/
def UpdatedValues.push (values : UpdatedValues) (index : ℕ) (cell : Option Cell) : UpdatedValues :=
  match cell with
  | some value =>
    if values.partialRow then
      { values with presentValues := values.presentValues ++ [value] }
    else { values with fullValues := values.fullValues ++ [value] }
  | none =>
    let values :=
      if !values.partialRow then
        { values with
          presentValues := values.presentValues ++ values.fullValues
          fullValues := []
          partialRow := true }
      else values
    { values with missingColumnIndexes := values.missingColumnIndexes ++ [index] }

section Decoding

variable (lp : LeafParsers)

/-- Decodes one field of a new row: consults the old row, and moves on in the identity columns at
one of them. -/
def convertUpdateField (columnSchema : ColumnSchema) (tupleData : TupleData) (index : ℕ) :
    OldRowResolver × List ColumnSchema × UpdatedValues →
      EtlResult (OldRowResolver × List ColumnSchema × UpdatedValues)
  | (oldRowResolver, identityColumns, values) => do
    let isIdentity := identityColumns.head?.any fun identityColumn =>
      identityColumn.ordinalPosition = columnSchema.ordinalPosition
    let (oldValue, oldRowResolver) ← oldRowResolver.valueForColumn isIdentity
    let identityColumns := if isIdentity then identityColumns.tail else identityColumns
    let cell ← convertTupleDataToCell lp columnSchema tupleData oldValue
    return (oldRowResolver, identityColumns, values.push index cell)

/-- Decodes the fields of a new row one after the other. -/
def convertUpdateFields :
    List ((ColumnSchema × TupleData) × ℕ) → OldRowResolver × List ColumnSchema × UpdatedValues →
      EtlResult (OldRowResolver × List ColumnSchema × UpdatedValues)
  | [], state => .ok state
  | ((columnSchema, tupleData), index) :: fields, state => do
    let state ← convertUpdateField lp columnSchema tupleData index state
    convertUpdateFields fields state

def convertUpdateTupleToUpdatedTableRow (schema : ReplicatedTableSchema)
    (tupleData : List TupleData) (oldTableRow : Option OldTableRow) :
    EtlResult UpdatedTableRow := do
  let columnCount := schema.columnSchemas.length
  if tupleData.length ≠ columnCount then
    bailWith .conversionError "Tuple data field count does not match schema"
      s!"Expected {columnCount} tuple values, got {tupleData.length}"
  let oldRowResolver ← OldRowResolver.new oldTableRow columnCount
  let (oldRowResolver, _, values) ←
    convertUpdateFields lp (schema.columnSchemas.zip tupleData).zipIdx
      (oldRowResolver, schema.identityColumnSchemas, {})
  oldRowResolver.finish
  if values.partialRow then
    return .partialImage ⟨columnCount, ⟨values.presentValues⟩, values.missingColumnIndexes⟩
  else return .full ⟨values.fullValues⟩

/-- The value of an identity column in a key image. -/
def convertKeyField (columnSchema : ColumnSchema) (tupleData : TupleData) : EtlResult Cell := do
  match ← convertTupleDataToCell lp columnSchema tupleData none with
  | some value => .ok value
  | none =>
    bailWith .conversionError "Replica-identity tuple missing source value"
      ("Replica-identity column '" ++ columnSchema.name ++ "' did not carry a concrete value")

/-- Converts a key image with one field for each identity column. -/
def convertDenseKeyTupleToRow (identityColumnSchemas : List ColumnSchema)
    (tupleData : List TupleData) : EtlResult TableRow := do
  let values ← (identityColumnSchemas.zip tupleData).mapM
    fun field => convertKeyField lp field.1 field.2
  return ⟨values⟩

/-- The values of a key image with one field for each replicated column; the fields of other columns
are passed over. -/
def fullWidthKeyValues :
    List (ColumnSchema × TupleData) → List ColumnSchema → EtlResult (List Cell)
  | [], _ => .ok []
  | (columnSchema, tupleData) :: fields, identityColumns =>
    if !(identityColumns.head?.any fun identityColumn =>
        identityColumn.ordinalPosition = columnSchema.ordinalPosition) then
      fullWidthKeyValues fields identityColumns
    else
      match identityColumns with
      | [] =>
        bailWith .conversionError "Replica-identity tuple shape does not match schema"
          "Replica-identity column iterator ended unexpectedly"
      | identityColumn :: identityColumns => do
        let value ← convertKeyField lp identityColumn tupleData
        let values ← fullWidthKeyValues fields identityColumns
        return value :: values

def convertFullWidthKeyTupleToRow (identityColumnSchemas replicatedColumnSchemas : List ColumnSchema)
    (tupleData : List TupleData) : EtlResult TableRow := do
  let values ← fullWidthKeyValues lp (replicatedColumnSchemas.zip tupleData) identityColumnSchemas
  return ⟨values⟩

/-- Converts a key image of either shape to the row of its identity columns. -/
def normalizeKeyTupleToRow (schema : ReplicatedTableSchema) (tupleData : List TupleData) :
    EtlResult TableRow :=
  let identityColumnCount := schema.identityColumnSchemas.length
  let replicatedColumnCount := schema.columnSchemas.length
  if identityColumnCount = 0 then
    bailWith .conversionError "Replica-identity tuple missing key columns"
      "Key-image row was received for a table without replicated replica-identity columns"
  else if tupleData.length = identityColumnCount then
    convertDenseKeyTupleToRow lp schema.identityColumnSchemas tupleData
  else if tupleData.length = replicatedColumnCount then
    convertFullWidthKeyTupleToRow lp schema.identityColumnSchemas schema.columnSchemas tupleData
  else
    bailWith .conversionError "Replica-identity tuple shape does not match schema"
      (s!"Expected {identityColumnCount} key values or {replicatedColumnCount} replicated values " ++
        s!"for key image, got {tupleData.length}")

/-- Converts the old row of a message: whole if there is one, else the key image. -/
def convertOldTuple (schema : ReplicatedTableSchema) (oldTuple keyTuple : Option (List TupleData)) :
    EtlResult (Option OldTableRow) :=
  match oldTuple, keyTuple with
  | some tupleData, _ => do
    let row ← convertTupleToRow lp schema.columnSchemas tupleData
    return some (.full row)
  | none, some tupleData => do
    let row ← normalizeKeyTupleToRow lp schema tupleData
    return some (.key row)
  | none, none => .ok none

/-- Decodes an update message. -/
def parseEventFromUpdateMessage (schema : ReplicatedTableSchema) (commitLsn : PgLsn)
    (txOrdinal : ℕ) (oldTuple keyTuple : Option (List TupleData)) (newTuple : List TupleData) :
    EtlResult RowEvent := do
  let oldTableRow ← convertOldTuple lp schema oldTuple keyTuple
  let tableRow ← convertUpdateTupleToUpdatedTableRow lp schema newTuple oldTableRow
  return ⟨commitLsn, txOrdinal, .update tableRow oldTableRow⟩

/-- Decodes a delete message. -/
def parseEventFromDeleteMessage (schema : ReplicatedTableSchema) (commitLsn : PgLsn)
    (txOrdinal : ℕ) (oldTuple keyTuple : Option (List TupleData)) : EtlResult RowEvent := do
  let oldTableRow ← convertOldTuple lp schema oldTuple keyTuple
  return ⟨commitLsn, txOrdinal, .delete oldTableRow⟩

end Decoding

/-! ## What Postgres sends -/

section Wire

variable (lp : LeafParsers)

/-- The field carries the value: it is the null of a nullable column, or a text that the type of the
column reads as the value. -/
inductive TupleData.Carries (columnSchema : ColumnSchema) : TupleData → Cell → Prop
  | null (hnullable : columnSchema.nullable = true) : Carries columnSchema .null .null
  | text {str : String} {value : Cell}
      (hvalue : parseCellFromPostgresText lp columnSchema.typ str = .ok value) :
    Carries columnSchema (.text str.toUTF8) value

def TupleData.isUnchangedToast : TupleData → Bool
  | .unchangedToast => true
  | _ => false

/-- A field sent for the new row of an update: it carries the new value, or says that the value did
not change. -/
def TupleData.SentFor (columnSchema : ColumnSchema) (tupleData : TupleData) (old new : Cell) :
    Prop :=
  tupleData.Carries lp columnSchema new ∨ tupleData = .unchangedToast ∧ old = new

/-- The fields sent for the new row of an update. -/
inductive NewTupleSent : List ColumnSchema → List Cell → List Cell → List TupleData → Prop
  | nil : NewTupleSent [] [] [] []
  | cons {columnSchema : ColumnSchema} {tupleData : TupleData} {old new : Cell}
      {columnSchemas : List ColumnSchema} {olds news : List Cell} {tuple : List TupleData} :
      tupleData.SentFor lp columnSchema old new → NewTupleSent columnSchemas olds news tuple →
        NewTupleSent (columnSchema :: columnSchemas) (old :: olds) (new :: news)
          (tupleData :: tuple)

/-- The columns of a row with their values. -/
def ReplicatedTableSchema.columnValues (schema : ReplicatedTableSchema) (row : TableRow) :
    List (ColumnSchema × Cell) :=
  schema.columnSchemas.zip row.values

/-- Whether the column identifies rows. -/
def ReplicatedTableSchema.isIdentity (schema : ReplicatedTableSchema) (columnSchema : ColumnSchema) :
    Bool :=
  columnSchema ∈ schema.identityColumnSchemas

/-- The identity columns of a row with their values. -/
def ReplicatedTableSchema.identityColumnValues (schema : ReplicatedTableSchema) (row : TableRow) :
    List (ColumnSchema × Cell) :=
  (schema.columnValues row).filter fun value => schema.isIdentity value.1

inductive OldImage where
  | full (tuple : List TupleData)
  | denseKey (tuple : List TupleData)
  | wideKey (tuple : List TupleData)
  | none

namespace OldImage

def oldTuple : OldImage → Option (List TupleData)
  | full tuple => some tuple
  | _ => Option.none

def keyTuple : OldImage → Option (List TupleData)
  | denseKey tuple | wideKey tuple => some tuple
  | _ => Option.none

/-- The image is one of the given old row. Whole rows and the identity columns of key images carry
their values. -/
def Sent (schema : ReplicatedTableSchema) (old : TableRow) : OldImage → Prop
  | full tuple =>
    List.Forall₂ (fun value tupleData => tupleData.Carries lp value.1 value.2)
      (schema.columnValues old) tuple
  | denseKey tuple =>
    schema.identityColumnSchemas ≠ [] ∧
      List.Forall₂ (fun value tupleData => tupleData.Carries lp value.1 value.2)
        (schema.identityColumnValues old) tuple
  | wideKey tuple =>
    schema.identityColumnSchemas ≠ [] ∧
      List.Forall₂ (fun value tupleData =>
          schema.isIdentity value.1 = true → tupleData.Carries lp value.1 value.2)
        (schema.columnValues old) tuple
  | none => True

/-- Whether the image has the old value of the column. -/
def hasColumn (schema : ReplicatedTableSchema) (columnSchema : ColumnSchema) : OldImage → Bool
  | full _ => true
  | denseKey _ | wideKey _ => schema.isIdentity columnSchema
  | none => false

def row (schema : ReplicatedTableSchema) (old : TableRow) : OldImage → Option OldTableRow
  | full _ => some (.full old)
  | denseKey _ | wideKey _ => some (.key ⟨(schema.identityColumnValues old).map Prod.snd⟩)
  | none => Option.none

end OldImage

/-- Which columns of the new row cannot be filled in: those that were left out and that the old
image does not have. -/
def missingColumns (schema : ReplicatedTableSchema) (image : OldImage) (newTuple : List TupleData) :
    List Bool :=
  (schema.columnSchemas.zip newTuple).map fun (columnSchema, tupleData) =>
    tupleData.isUnchangedToast && !image.hasColumn schema columnSchema

/-- The indexes that are marked. -/
def indexesOf (marks : List Bool) (start : ℕ) : List ℕ :=
  ((marks.zipIdx start).filter Prod.fst).map Prod.snd

/-- A row without the values at some indexes. -/
def UpdatedTableRow.without (new : TableRow) (missingColumnIndexes : List ℕ) : UpdatedTableRow :=
  if missingColumnIndexes = [] then .full new
  else
    .partialImage ⟨new.values.length,
      ⟨(new.values.zipIdx.filter (·.2 ∉ missingColumnIndexes)).map Prod.fst⟩, missingColumnIndexes⟩

end Wire

/-! ## The walk over the columns -/

section Walk

variable {lp : LeafParsers} {columnSchema : ColumnSchema} {old new : Cell} {tupleData : TupleData}
  {resolver : OldRowResolver} {isIdentity : ColumnSchema → Bool} {columnSchemas : List ColumnSchema}

/-- A field that carries a value is converted to it, whatever the old value was. -/
theorem TupleData.Carries.convert {value : Cell}
    (hcarries : tupleData.Carries lp columnSchema value) (oldValue : Option Cell) :
    convertTupleDataToCell lp columnSchema tupleData oldValue = .ok (some value) := by
  cases hcarries with
  | null hnullable => rw [convertTupleDataToCell, if_pos hnullable]
  | text hvalue =>
    rw [convertTupleDataToCell, fromUTF8?_toUTF8]
    exact congrArg (some <$> ·) hvalue

theorem TupleData.Carries.isUnchangedToast_eq_false {value : Cell}
    (hcarries : tupleData.Carries lp columnSchema value) : tupleData.isUnchangedToast = false := by
  cases hcarries <;> rfl

/-- A field of the new row gives the new value, unless it was left out and there is no old value. -/
theorem TupleData.SentFor.convert (hsent : tupleData.SentFor lp columnSchema old new)
    (hasColumn : Bool) :
    convertTupleDataToCell lp columnSchema tupleData (if hasColumn then some old else none) =
      .ok (if tupleData.isUnchangedToast && !hasColumn then none else some new) := by
  rcases hsent with hcarries | ⟨rfl, rfl⟩
  · rw [hcarries.convert, hcarries.isUnchangedToast_eq_false]
    rfl
  · cases hasColumn <;> rfl

theorem TupleData.Carries.convertKeyField {value : Cell}
    (hcarries : tupleData.Carries lp columnSchema value) :
    convertKeyField lp columnSchema tupleData = .ok value := by
  rw [Etl.convertKeyField, hcarries.convert, ok_bind]

/-- The values collected from the columns so far. -/
def UpdatedValues.ofCells (cells : List (Option Cell)) : UpdatedValues :=
  let missing := indexesOf (cells.map Option.isNone) 0
  if cells.all Option.isSome then ⟨cells.reduceOption, [], missing, false⟩
  else ⟨[], cells.reduceOption, missing, true⟩

theorem indexesOf_append (marks more : List Bool) (start : ℕ) :
    indexesOf (marks ++ more) start =
      indexesOf marks start ++ indexesOf more (start + marks.length) := by
  rw [indexesOf, indexesOf, indexesOf, zipIdx_append, filter_append, map_append]

theorem indexesOf_eq_nil_iff (marks : List Bool) (start : ℕ) :
    indexesOf marks start = [] ↔ ∀ mark ∈ marks, mark = false := by
  induction marks generalizing start with
  | nil => simp [indexesOf]
  | cons mark marks ih =>
    have hsplit := indexesOf_append [mark] marks start
    rw [singleton_append] at hsplit
    rw [hsplit, append_eq_nil_iff, ih]
    cases mark <;> simp [indexesOf]

theorem UpdatedValues.push_ofCells (cells : List (Option Cell)) (cell : Option Cell) :
    (UpdatedValues.ofCells cells).push cells.length cell = .ofCells (cells ++ [cell]) := by
  have hmissing : indexesOf ((cells ++ [cell]).map Option.isNone) 0 =
      indexesOf (cells.map Option.isNone) 0 ++ if cell.isNone then [cells.length] else [] := by
    rw [map_append, indexesOf_append, length_map, Nat.zero_add]
    cases cell <;> rfl
  simp only [UpdatedValues.ofCells, hmissing, reduceOption_append]
  by_cases hall : cells.all Option.isSome = true
  all_goals cases cell <;> simp [hall, UpdatedValues.push]

/-- The resolver has the old values of the remaining columns. -/
def OldRowResolver.HasRemaining (isIdentity : ColumnSchema → Bool)
    (remaining : List (ColumnSchema × Cell)) : OldRowResolver → Prop
  | .none => True
  | .full values next => values.drop next = remaining.map Prod.snd ∧ next ≤ values.length
  | .key values next =>
    values.drop next = (remaining.filter (isIdentity ·.1)).map Prod.snd ∧ next ≤ values.length

/-- Whether the resolver has old values for such columns. -/
def OldRowResolver.hasColumn (isIdentityColumn : Bool) : OldRowResolver → Bool
  | .none => false
  | .full _ _ => true
  | .key _ _ => isIdentityColumn

/-- Taking the next value of a list by its index. -/
theorem getElem?_of_drop_eq_cons {α : Type} {values rest : List α} {next : ℕ} {value : α}
    (hdrop : values.drop next = value :: rest) :
    values[next]? = some value ∧ values.drop (next + 1) = rest ∧ next + 1 ≤ values.length := by
  refine ⟨?_, ?_, ?_⟩
  · rw [← List.head?_drop, hdrop, List.head?_cons]
  · rw [← tail_drop, hdrop, tail_cons]
  · by_contra hlt
    rw [drop_eq_nil_of_le (by omega)] at hdrop
    cases hdrop

/-- The resolver gives the old value of the next column if it has one, and then has those of the
columns after it. -/
theorem OldRowResolver.HasRemaining.valueForColumn {old : Cell}
    {remaining : List (ColumnSchema × Cell)}
    (hremaining : resolver.HasRemaining isIdentity ((columnSchema, old) :: remaining)) :
    ∃ next : OldRowResolver, next.HasRemaining isIdentity remaining ∧
      (∀ isIdentityColumn, next.hasColumn isIdentityColumn = resolver.hasColumn isIdentityColumn) ∧
      resolver.valueForColumn (isIdentity columnSchema) =
        .ok (if resolver.hasColumn (isIdentity columnSchema) then some old else Option.none,
          next) := by
  cases resolver with
  | none => exact ⟨.none, trivial, fun _ => rfl, rfl⟩
  | full values next =>
    obtain ⟨hget, hdrop, hle⟩ := getElem?_of_drop_eq_cons hremaining.1
    refine ⟨.full values (next + 1), ⟨hdrop, hle⟩, fun _ => rfl, ?_⟩
    simp only [OldRowResolver.valueForColumn, hget, OldRowResolver.hasColumn, if_true]
  | key values next =>
    cases hidentity : isIdentity columnSchema with
    | false =>
      refine ⟨.key values next, ⟨?_, hremaining.2⟩, fun _ => rfl, rfl⟩
      rw [hremaining.1, filter_cons_of_neg (by simp [hidentity])]
    | true =>
      have hcons := hremaining.1
      rw [filter_cons_of_pos (by simp [hidentity])] at hcons
      obtain ⟨hget, hdrop, hle⟩ := getElem?_of_drop_eq_cons hcons
      refine ⟨.key values (next + 1), ⟨hdrop, hle⟩, fun _ => rfl, ?_⟩
      simp [OldRowResolver.valueForColumn, hget, OldRowResolver.hasColumn]

theorem OldRowResolver.HasRemaining.finish (hremaining : resolver.HasRemaining isIdentity []) :
    resolver.finish = .ok () := by
  cases resolver with
  | none => rfl
  | full values next | key values next =>
    have hlength : next = values.length :=
      le_antisymm hremaining.2 (drop_eq_nil_iff.mp hremaining.1)
    rw [OldRowResolver.finish, if_neg (not_not.mpr hlength)]

/-- Along columns at distinct positions, the next identity column is at the position of the current
column exactly when the current column is one. -/
theorem head?_filter_any
    (hpositions : ((columnSchema :: columnSchemas).map ColumnSchema.ordinalPosition).Nodup) :
    (((columnSchema :: columnSchemas).filter isIdentity).head?.any fun identityColumn =>
      identityColumn.ordinalPosition = columnSchema.ordinalPosition) = isIdentity columnSchema := by
  cases hidentity : isIdentity columnSchema with
  | true => rw [filter_cons_of_pos hidentity]; simp
  | false =>
    rw [filter_cons_of_neg (by simp [hidentity]), ← Bool.not_eq_true, Option.any_eq_true]
    rintro ⟨identityColumn, hhead, hposition⟩
    have hmem := mem_of_mem_filter (mem_of_mem_head? hhead)
    rw [map_cons, nodup_cons] at hpositions
    exact hpositions.1
      (mem_map.mpr ⟨identityColumn, hmem, of_decide_eq_true hposition⟩)

/-- The identity columns after the current column. -/
theorem tail_filter_cons (isIdentity : ColumnSchema → Bool) (columnSchema : ColumnSchema)
    (columnSchemas : List ColumnSchema) :
    (if isIdentity columnSchema then ((columnSchema :: columnSchemas).filter isIdentity).tail
      else (columnSchema :: columnSchemas).filter isIdentity) =
      columnSchemas.filter isIdentity := by
  cases hidentity : isIdentity columnSchema <;> simp [hidentity]

/-- The cells of the new row: missing where a field was left out and there is no old value. -/
def updatedCells (hasColumn : ColumnSchema → Bool) :
    List ColumnSchema → List Cell → List TupleData → List (Option Cell)
  | columnSchema :: columnSchemas, new :: news, tupleData :: tuple =>
    (if tupleData.isUnchangedToast && !hasColumn columnSchema then none else some new) ::
      updatedCells hasColumn columnSchemas news tuple
  | _, _, _ => []

/-- One column of the walk. -/
theorem convertUpdateField_eq_ok {olds : List Cell} (cells : List (Option Cell))
    (hsent : tupleData.SentFor lp columnSchema old new)
    (hpositions : ((columnSchema :: columnSchemas).map ColumnSchema.ordinalPosition).Nodup)
    (hremaining :
      resolver.HasRemaining isIdentity ((columnSchema, old) :: columnSchemas.zip olds)) :
    ∃ next : OldRowResolver, next.HasRemaining isIdentity (columnSchemas.zip olds) ∧
      (∀ isIdentityColumn, next.hasColumn isIdentityColumn = resolver.hasColumn isIdentityColumn) ∧
      convertUpdateField lp columnSchema tupleData cells.length
          (resolver, (columnSchema :: columnSchemas).filter isIdentity, .ofCells cells) =
        .ok (next, columnSchemas.filter isIdentity, .ofCells (cells ++
          [if tupleData.isUnchangedToast && !resolver.hasColumn (isIdentity columnSchema) then none
            else some new])) := by
  obtain ⟨next, hnext, hhas, hvalue⟩ := hremaining.valueForColumn
  refine ⟨next, hnext, hhas, ?_⟩
  simp only [convertUpdateField, head?_filter_any hpositions, hvalue, ok_bind, hsent.convert,
    tail_filter_cons, UpdatedValues.push_ofCells]
  rfl

/-- The walk over the remaining columns, from the values collected before. -/
theorem convertUpdateFields_eq_ok {olds news : List Cell} {tuple : List TupleData}
    (hsent : NewTupleSent lp columnSchemas olds news tuple)
    (hpositions : (columnSchemas.map ColumnSchema.ordinalPosition).Nodup) {hasColumn : Bool → Bool}
    (hremaining : resolver.HasRemaining isIdentity (columnSchemas.zip olds))
    (hhas : ∀ isIdentityColumn, resolver.hasColumn isIdentityColumn = hasColumn isIdentityColumn)
    (cells : List (Option Cell)) :
    ∃ last : OldRowResolver, last.HasRemaining isIdentity [] ∧
      convertUpdateFields lp ((columnSchemas.zip tuple).zipIdx cells.length)
          (resolver, columnSchemas.filter isIdentity, .ofCells cells) =
        .ok (last, [], .ofCells (cells ++ updatedCells (hasColumn ∘ isIdentity)
          columnSchemas news tuple)) := by
  induction hsent generalizing resolver cells with
  | nil =>
    refine ⟨resolver, hremaining, ?_⟩
    rw [updatedCells, append_nil]
    · rfl
    · simp
  | @cons columnSchema tupleData old new columnSchemas olds news tuple hfieldSent hsent ih =>
    obtain ⟨next, hnext, hnextHas, hfield⟩ :=
      convertUpdateField_eq_ok cells hfieldSent hpositions hremaining
    obtain ⟨last, hlast, hfields⟩ := ih (nodup_cons.mp hpositions).2 hnext
      (fun isIdentityColumn => (hnextHas isIdentityColumn).trans (hhas isIdentityColumn))
      (cells ++ [if tupleData.isUnchangedToast && !resolver.hasColumn (isIdentity columnSchema)
        then none else some new])
    refine ⟨last, hlast, ?_⟩
    rw [length_append, length_singleton] at hfields
    rw [zip_cons_cons, zipIdx_cons, convertUpdateFields, hfield, ok_bind, hfields,
      append_assoc, hhas]
    rfl

end Walk

/-! ## Identity columns -/

section Identity

variable {lp : LeafParsers} {schema : ReplicatedTableSchema} {old : TableRow}
  {tuple : List TupleData} {values : List (ColumnSchema × Cell)}

theorem eq_filter_mem_of_sublist {α : Type} [DecidableEq α] {part whole : List α}
    (hsub : part.Sublist whole) (hnodup : whole.Nodup) : part = whole.filter (· ∈ part) := by
  induction hsub with
  | slnil => rfl
  | @cons part whole a hsub ih =>
    have ha : a ∉ part := fun hmem => (nodup_cons.mp hnodup).1 (hsub.subset hmem)
    rw [filter_cons_of_neg (by simpa using ha)]
    exact ih (nodup_cons.mp hnodup).2
  | @cons_cons part whole a hsub ih =>
    have ha : a ∉ whole := (nodup_cons.mp hnodup).1
    rw [filter_cons_of_pos (by simp)]
    congr 1
    refine (ih (nodup_cons.mp hnodup).2).trans (filter_congr fun b hb => ?_)
    have hne : b ≠ a := fun heq => ha (heq ▸ hb)
    simp [hne]

theorem identityColumnSchemas_eq_filter
    (hpositions : (schema.columnSchemas.map ColumnSchema.ordinalPosition).Nodup) :
    schema.identityColumnSchemas = schema.columnSchemas.filter schema.isIdentity :=
  eq_filter_mem_of_sublist (identityColumnSchemas_sublist schema) (List.Nodup.of_map _ hpositions)

theorem map_fst_columnValues (hfits : schema.FitsRow old) :
    (schema.columnValues old).map Prod.fst = schema.columnSchemas :=
  map_fst_zip hfits.length_eq.ge

theorem map_snd_columnValues (hfits : schema.FitsRow old) :
    (schema.columnValues old).map Prod.snd = old.values :=
  map_snd_zip hfits.length_eq.le

theorem map_fst_identityColumnValues (hfits : schema.FitsRow old)
    (hpositions : (schema.columnSchemas.map ColumnSchema.ordinalPosition).Nodup) :
    (schema.identityColumnValues old).map Prod.fst = schema.identityColumnSchemas := by
  rw [identityColumnSchemas_eq_filter hpositions, ← map_fst_columnValues hfits, filter_map]
  rfl

theorem mapM_eq_ok_of_forall₂ {α β : Type} {f : α → EtlResult β} {xs : List α} {ys : List β}
    (hsteps : List.Forall₂ (fun x y => f x = .ok y) xs ys) : xs.mapM f = .ok ys := by
  induction hsteps with
  | nil => rfl
  | cons hstep hsteps ih =>
    rw [mapM_cons, hstep, ih]
    rfl

theorem convertDenseKeyTupleToRow_eq_ok
    (hsent : List.Forall₂
      (fun value tupleData => tupleData.Carries lp value.1 value.2)
      values tuple) :
    convertDenseKeyTupleToRow lp (values.map Prod.fst) tuple = .ok ⟨values.map Prod.snd⟩ := by
  have hfields : List.Forall₂ (fun field value => convertKeyField lp field.1 field.2 = .ok value)
      ((values.map Prod.fst).zip tuple) (values.map Prod.snd) := by
    induction hsent with
    | nil => exact .nil
    | cons hcarries hsent ih => exact .cons hcarries.convertKeyField ih
  exact bind_eq_ok_iff.mpr ⟨_, mapM_eq_ok_of_forall₂ hfields, rfl⟩

theorem fullWidthKeyValues_eq_ok {isIdentity : ColumnSchema → Bool}
    (hpositions : ((values.map Prod.fst).map ColumnSchema.ordinalPosition).Nodup)
    (hsent : List.Forall₂ (fun value tupleData =>
      isIdentity value.1 = true → tupleData.Carries lp value.1 value.2) values tuple) :
    fullWidthKeyValues lp ((values.map Prod.fst).zip tuple)
        ((values.map Prod.fst).filter isIdentity) =
      .ok ((values.filter fun value => isIdentity value.1).map Prod.snd) := by
  induction hsent with
  | nil => rfl
  | @cons value tupleData values tuple hcarries hsent ih =>
    obtain ⟨columnSchema, value⟩ := value
    rw [map_cons, zip_cons_cons, fullWidthKeyValues.eq_def]
    simp only [head?_filter_any hpositions]
    have hrest := ih (nodup_cons.mp hpositions).2
    cases hidentity : isIdentity columnSchema with
    | false =>
      rw [filter_cons_of_neg (by simp [hidentity]),
        filter_cons_of_neg (by simp [hidentity])]
      exact hrest
    | true =>
      rw [filter_cons_of_pos (by simp [hidentity]),
        filter_cons_of_pos (by simp [hidentity])]
      simp only [(hcarries hidentity).convertKeyField, hrest]
      rfl

/-- Both shapes of a key image give the values of the identity columns. -/
theorem normalizeKeyTupleToRow_eq_ok
    (hpositions : (schema.columnSchemas.map ColumnSchema.ordinalPosition).Nodup)
    (hfits : schema.FitsRow old) {image : OldImage} (hsent : image.Sent lp schema old)
    (hkey : image.keyTuple = some tuple) :
    normalizeKeyTupleToRow lp schema tuple =
      .ok ⟨(schema.identityColumnValues old).map Prod.snd⟩ := by
  have hcolumns := map_fst_columnValues hfits
  have hidentity := map_fst_identityColumnValues hfits hpositions
  have hdense : schema.identityColumnSchemas ≠ [] → List.Forall₂
      (fun value tupleData => tupleData.Carries lp value.1 value.2)
        (schema.identityColumnValues old) tuple →
      normalizeKeyTupleToRow lp schema tuple =
        .ok ⟨(schema.identityColumnValues old).map Prod.snd⟩ := by
    intro hne hsent
    have hlength : tuple.length = schema.identityColumnSchemas.length := by
      rw [← hidentity, List.length_map, hsent.length_eq]
    rw [normalizeKeyTupleToRow]
    simp only [List.length_eq_zero_iff, hne, hlength]
    rw [← hidentity]
    exact convertDenseKeyTupleToRow_eq_ok hsent
  cases image with
  | full _ | none => cases hkey
  | denseKey sent =>
    obtain rfl := Option.some.inj hkey
    exact hdense hsent.1 hsent.2
  | wideKey sent =>
    obtain rfl := Option.some.inj hkey
    obtain ⟨hne, hsent⟩ := hsent
    have hwide : sent.length = schema.columnSchemas.length := by
      rw [← hcolumns, List.length_map, hsent.length_eq]
    by_cases hlength : sent.length = schema.identityColumnSchemas.length
    · -- every column is an identity column, and the image has both shapes
      have hall : schema.identityColumnSchemas = schema.columnSchemas :=
        (identityColumnSchemas_sublist schema).eq_of_length (hlength.symm.trans hwide)
      have hmem : ∀ value ∈ schema.columnValues old, schema.isIdentity value.1 = true := by
        intro value hvalue
        rw [ReplicatedTableSchema.isIdentity, decide_eq_true_iff, hall, ← hcolumns]
        exact List.mem_map_of_mem hvalue
      refine hdense hne ?_
      rw [ReplicatedTableSchema.identityColumnValues, List.filter_eq_self.mpr hmem]
      exact ((List.forall₂_and_left _ _).mpr ⟨hmem, hsent⟩).imp fun _ _ hvalue => hvalue.2 hvalue.1
    · rw [normalizeKeyTupleToRow, if_neg (mt List.length_eq_zero_iff.mp hne), if_neg hlength, if_pos hwide,
        convertFullWidthKeyTupleToRow, identityColumnSchemas_eq_filter hpositions, ← hcolumns,
        fullWidthKeyValues_eq_ok (by rw [hcolumns]; exact hpositions) hsent]
      rfl

end Identity

/-! ## Updates and deletes -/

section Messages

variable {lp : LeafParsers} {schema : ReplicatedTableSchema} {old new : TableRow}
  {tuple : List TupleData} {olds news : List Cell} {columnSchemas : List ColumnSchema}
  {marks : List Bool} {values : List Cell}

/-- The fields with their indexes carry the values. -/
theorem forall₂_carries_zipIdx {values : List (ColumnSchema × Cell)}
    (hsent : List.Forall₂ (fun value tupleData => tupleData.Carries lp value.1 value.2)
      values tuple) (start : ℕ) :
    List.Forall₂ (fun field value => field.1.2.Carries lp field.1.1 value)
      (((values.map Prod.fst).zip tuple).zipIdx start) (values.map Prod.snd) := by
  induction hsent generalizing start with
  | nil => exact .nil
  | cons hcarries hsent ih => exact .cons hcarries (ih (start + 1))

theorem convertTupleToRow_eq_ok (hfits : schema.FitsRow old)
    (hsent : List.Forall₂ (fun value tupleData => tupleData.Carries lp value.1 value.2)
      (schema.columnValues old) tuple) :
    convertTupleToRow lp schema.columnSchemas tuple = .ok old := by
  have hlength : tuple.length = schema.columnSchemas.length := by
    rw [← map_fst_columnValues hfits, length_map, hsent.length_eq]
  rw [convertTupleToRow, if_neg (not_not.mpr hlength), ← map_fst_columnValues hfits]
  refine bind_eq_ok_iff.mpr ⟨_, mapM_eq_ok_of_forall₂
    ((forall₂_carries_zipIdx hsent 0).imp fun field value hcarries => ?_), ?_⟩
  · exact bind_eq_ok_iff.mpr ⟨some value, hcarries.convert none, rfl⟩
  · rw [map_snd_columnValues hfits]

theorem convertOldTuple_eq_ok
    (hpositions : (schema.columnSchemas.map ColumnSchema.ordinalPosition).Nodup)
    (hfits : schema.FitsRow old) {image : OldImage} (hsent : image.Sent lp schema old) :
    convertOldTuple lp schema image.oldTuple image.keyTuple = .ok (image.row schema old) := by
  cases image with
  | full tuple =>
    rw [OldImage.oldTuple, convertOldTuple, convertTupleToRow_eq_ok hfits hsent]
    rfl
  | denseKey tuple | wideKey tuple =>
    simp only [OldImage.oldTuple, OldImage.keyTuple, convertOldTuple,
      normalizeKeyTupleToRow_eq_ok hpositions hfits hsent rfl]
    rfl
  | none => rfl

theorem NewTupleSent.lengths (hsent : NewTupleSent lp columnSchemas olds news tuple) :
    olds.length = columnSchemas.length ∧ news.length = columnSchemas.length ∧
      tuple.length = columnSchemas.length := by
  induction hsent with
  | nil => exact ⟨rfl, rfl, rfl⟩
  | cons hfield hsent ih =>
    obtain ⟨holds, hnews, htuple⟩ := ih
    exact ⟨congrArg (· + 1) holds, congrArg (· + 1) hnews, congrArg (· + 1) htuple⟩

theorem updatedCells_eq_zipWith {hasColumn : ColumnSchema → Bool}
    (hsent : NewTupleSent lp columnSchemas olds news tuple) :
    updatedCells hasColumn columnSchemas news tuple =
      List.zipWith (fun mark value => if mark then none else some value)
        ((columnSchemas.zip tuple).map fun (columnSchema, tupleData) =>
          tupleData.isUnchangedToast && !hasColumn columnSchema) news := by
  induction hsent with
  | nil => rfl
  | cons hfield hsent ih =>
    rw [updatedCells, ih]
    rfl

theorem le_of_mem_indexesOf {start index : ℕ} (hindex : index ∈ indexesOf marks start) :
    start ≤ index := by
  obtain ⟨⟨mark, position⟩, hmark, rfl⟩ := mem_map.mp hindex
  exact (mem_zipIdx (mem_of_mem_filter hmark)).1

theorem indexesOf_cons (mark : Bool) (marks : List Bool) (start : ℕ) :
    indexesOf (mark :: marks) start =
      (if mark then [start] else []) ++ indexesOf marks (start + 1) := by
  cases mark <;> rfl

theorem reduceOption_zipWith (hlength : marks.length = values.length) (start : ℕ) :
    (List.zipWith (fun mark value => if mark then none else some value) marks
        values).reduceOption =
      ((values.zipIdx start).filter (·.2 ∉ indexesOf marks start)).map Prod.fst := by
  induction marks generalizing values start with
  | nil =>
    rw [length_eq_zero_iff.mp hlength.symm]
    rfl
  | cons mark marks ih =>
    obtain ⟨value, values, rfl⟩ := exists_cons_of_length_pos
      (l := values) (by rw [← hlength]; exact Nat.succ_pos _)
    have hrest : ((values.zipIdx (start + 1)).filter (·.2 ∉ indexesOf (mark :: marks) start)) =
        ((values.zipIdx (start + 1)).filter (·.2 ∉ indexesOf marks (start + 1))) := by
      refine filter_congr fun ⟨cell, index⟩ hcell => ?_
      have hle := (mem_zipIdx hcell).1
      have hne : index ≠ start := by omega
      cases mark <;> simp [indexesOf_cons, hne]
    have hhead : start ∉ indexesOf marks (start + 1) := fun hmem => by
      have := le_of_mem_indexesOf hmem
      omega
    rw [zipIdx_cons, filter_cons, hrest]
    rw [length_cons, length_cons, Nat.add_right_cancel_iff] at hlength
    cases mark with
    | true => simp [indexesOf_cons, ih hlength (start + 1)]
    | false => simp [indexesOf_cons, hhead, ih hlength (start + 1)]

theorem all_isSome_iff (cells : List (Option Cell)) :
    cells.all Option.isSome = true ↔ indexesOf (cells.map Option.isNone) 0 = [] := by
  rw [indexesOf_eq_nil_iff, forall_mem_map, all_eq_true]
  refine forall₂_congr fun cell _ => ?_
  cases cell <;> simp

/-- The marks of a row without the marked values. -/
theorem map_isNone_zipWith (hlength : marks.length = values.length) :
    (List.zipWith (fun mark value => if mark then none else some value) marks values).map
      Option.isNone = marks := by
  refine ext_getElem (by simp [hlength]) fun i _ _ => ?_
  rw [getElem_map, getElem_zipWith]
  cases marks[i] <;> rfl

theorem updatedTableRow_ofCells {cells : List (Option Cell)}
    (hlength : marks.length = new.values.length)
    (hcells : cells =
      List.zipWith (fun mark value => if mark then none else some value) marks new.values) :
    (if (UpdatedValues.ofCells cells).partialRow then
        UpdatedTableRow.partialImage ⟨new.values.length,
          ⟨(UpdatedValues.ofCells cells).presentValues⟩,
          (UpdatedValues.ofCells cells).missingColumnIndexes⟩
      else .full ⟨(UpdatedValues.ofCells cells).fullValues⟩) =
      .without new (indexesOf marks 0) := by
  have hmarks : cells.map Option.isNone = marks := by rw [hcells, map_isNone_zipWith hlength]
  have hpresent := reduceOption_zipWith hlength 0
  rw [← hcells] at hpresent
  have hall := all_isSome_iff cells
  rw [hmarks] at hall
  rw [UpdatedTableRow.without, UpdatedValues.ofCells, hmarks]
  by_cases hnone : indexesOf marks 0 = []
  · rw [if_pos (hall.mpr hnone), hpresent, hnone]
    simp
  · rw [if_neg (mt hall.mp hnone), if_neg hnone, hpresent]
    rfl

/-- The resolver for an old image starts with the old values of all columns, and has those of the
columns the image has. -/
theorem OldImage.exists_resolver (hfits : schema.FitsRow old) (image : OldImage) :
    ∃ (resolver : OldRowResolver) (hasColumn : Bool → Bool),
      OldRowResolver.new (image.row schema old) schema.columnSchemas.length = .ok resolver ∧
      resolver.HasRemaining schema.isIdentity (schema.columnSchemas.zip old.values) ∧
      (∀ isIdentityColumn, resolver.hasColumn isIdentityColumn = hasColumn isIdentityColumn) ∧
      ∀ columnSchema, hasColumn (schema.isIdentity columnSchema) =
        image.hasColumn schema columnSchema := by
  cases image with
  | full tuple =>
    refine ⟨.full old.values 0, fun _ => true, ?_, ⟨?_, Nat.zero_le _⟩, fun _ => rfl, fun _ => rfl⟩
    · rw [OldImage.row, OldRowResolver.new, if_neg (not_not.mpr hfits.length_eq)]
    · exact (map_snd_columnValues hfits).symm
  | denseKey tuple | wideKey tuple =>
    exact ⟨.key _ 0, fun isIdentityColumn => isIdentityColumn, rfl, ⟨rfl, Nat.zero_le _⟩,
      fun _ => rfl, fun _ => rfl⟩
  | none => exact ⟨.none, fun _ => false, rfl, trivial, fun _ => rfl, fun _ => rfl⟩

/-- The new row of an update is decoded to the row without the columns that cannot be filled in. -/
theorem convertUpdateTupleToUpdatedTableRow_eq_ok
    (hpositions : (schema.columnSchemas.map ColumnSchema.ordinalPosition).Nodup)
    {newTuple : List TupleData} (image : OldImage)
    (hnew : NewTupleSent lp schema.columnSchemas old.values new.values newTuple) :
    convertUpdateTupleToUpdatedTableRow lp schema newTuple (image.row schema old) =
      .ok (.without new (indexesOf (missingColumns schema image newTuple) 0)) := by
  obtain ⟨holds, hnews, htuple⟩ := hnew.lengths
  obtain ⟨resolver, hasColumn, hresolver, hremaining, hhas, hcolumns⟩ :=
    OldImage.exists_resolver holds image
  obtain ⟨last, hlast, hwalk⟩ := convertUpdateFields_eq_ok hnew hpositions hremaining hhas []
  have hcells : updatedCells (hasColumn ∘ schema.isIdentity) schema.columnSchemas new.values
        newTuple =
      List.zipWith (fun mark value => if mark then none else some value)
        (missingColumns schema image newTuple) new.values := by
    rw [updatedCells_eq_zipWith hnew, missingColumns]
    simp [hcolumns]
  have hlength : (missingColumns schema image newTuple).length = new.values.length := by
    rw [missingColumns, length_map, length_zip, htuple, hnews, min_self]
  rw [← identityColumnSchemas_eq_filter hpositions, nil_append, hcells] at hwalk
  rw [convertUpdateTupleToUpdatedTableRow]
  simp only [htuple, ne_eq, not_true_eq_false, if_false, hresolver, ok_bind]
  have hstart : UpdatedValues.ofCells [] = {} := rfl
  rw [hstart, length_nil] at hwalk
  rw [hwalk, ok_bind]
  rw [hlast.finish, ← hnews, ← updatedTableRow_ofCells hlength rfl]
  split_ifs <;> rfl

/-- Whatever Postgres sends for an update and its old row, decoding gives the new row without
exactly the columns that were left out and that the old image does not have, and the old row as the
image shows it; a whole old row leaves nothing missing. Deletes give the same old row. -/
theorem parseEventFromUpdateMessage_eq_ok (lp : LeafParsers) (schema : ReplicatedTableSchema)
    (hpositions : (schema.columnSchemas.map ColumnSchema.ordinalPosition).Nodup)
    (old new : TableRow) (newTuple : List TupleData) (image : OldImage)
    (hnew : NewTupleSent lp schema.columnSchemas old.values new.values newTuple)
    (hold : image.Sent lp schema old) (commitLsn : PgLsn) (txOrdinal : ℕ) :
    parseEventFromUpdateMessage lp schema commitLsn txOrdinal image.oldTuple image.keyTuple
          newTuple =
        .ok ⟨commitLsn, txOrdinal, .update
          (.without new (indexesOf (missingColumns schema image newTuple) 0))
          (image.row schema old)⟩ ∧
      (∀ tuple, image = .full tuple → indexesOf (missingColumns schema image newTuple) 0 = []) ∧
      parseEventFromDeleteMessage lp schema commitLsn txOrdinal image.oldTuple image.keyTuple =
        .ok ⟨commitLsn, txOrdinal, .delete (image.row schema old)⟩ := by
  obtain ⟨holds, hnews, htuple⟩ := hnew.lengths
  have hrow := convertOldTuple_eq_ok hpositions holds hold
  refine ⟨?_, ?_, ?_⟩
  · have hupdated := convertUpdateTupleToUpdatedTableRow_eq_ok hpositions image hnew
    rw [parseEventFromUpdateMessage, hrow, ok_bind, hupdated]
    rfl
  · rintro tuple rfl
    rw [indexesOf_eq_nil_iff]
    intro mark hmark
    obtain ⟨⟨columnSchema, tupleData⟩, -, rfl⟩ := mem_map.mp hmark
    exact Bool.and_false _
  · rw [parseEventFromDeleteMessage, hrow]
    rfl

end Messages

/-! ## An update of a document -/

/-- Documents with a code that identifies them, a content and a title. -/
def documentsSchema : ReplicatedTableSchema where
  tableSchema := ⟨16384, ⟨"public", "documents"⟩,
    [⟨"code", .int4, -1, 1, some 1, false⟩, ⟨"content", .text, -1, 2, none, false⟩,
      ⟨"title", .text, -1, 3, none, true⟩], 0⟩
  replicationMask := [true, true, true]
  identityMask := [true, false, false]

/-- A document gets another code and loses its title, and its content is not sent again: the content
is missing from the decoded row. The key image has the width of the table. -/
theorem documentUpdate_content_missing :
    parseEventFromUpdateMessage LeafParsers.rejectAll documentsSchema 16 1 none
        (some [.text "7".toUTF8, .null, .null])
        [.text "8".toUTF8, .unchangedToast, .null] =
      .ok ⟨16, 1, .update (.partialImage ⟨3, ⟨[.i32 8, .null]⟩, [1]⟩)
        (some (.key ⟨[.i32 7]⟩))⟩ := by
  have hnew : NewTupleSent LeafParsers.rejectAll documentsSchema.columnSchemas
      [.i32 7, .string "c", .string "s"] [.i32 8, .string "c", .null]
      [.text "8".toUTF8, .unchangedToast, .null] :=
    .cons (.inl (.text (by decide +kernel)))
      (.cons (.inr ⟨rfl, rfl⟩) (.cons (.inl (.null rfl)) .nil))
  have hold : (OldImage.wideKey [.text "7".toUTF8, .null, .null]).Sent LeafParsers.rejectAll
      documentsSchema ⟨[.i32 7, .string "c", .string "s"]⟩ := by
    refine ⟨by decide, .cons (fun _ => .text (by decide +kernel)) (.cons ?_ (.cons ?_ .nil))⟩
    all_goals exact fun hidentity => absurd hidentity (by decide)
  exact (parseEventFromUpdateMessage_eq_ok LeafParsers.rejectAll documentsSchema (by decide)
    ⟨[.i32 7, .string "c", .string "s"]⟩ ⟨[.i32 8, .string "c", .null]⟩ _ _ hnew hold 16 1).1

end Etl
