import Etl.Common.Protobuf
import Mathlib.Algebra.BigOperators.Group.List.Basic

/-! # Protobuf messages

The fields of a message and their declared types. A field that is repeated takes each of its records
for one value or for a packed list of values; any other field takes its last record. An encoder
writes a field as one record, as a packed record or as one record a value;
`decodeMessage_encode` says that a message whose fields are written as they are declared is read
back, whatever the order of its fields.
-/

namespace Protobuf

open List

/-- The declared types of fields. -/
inductive FieldType where
  | bool | int32 | int64 | float | double | string | bytes
  deriving DecidableEq, Repr

/-- Whether a field takes one value at most, exactly one, or a list of values. -/
inductive Label where
  | optional | required | repeated
  deriving DecidableEq, Repr

/-- The value of a field. Floats are kept as their bits. -/
inductive Value where
  | bool (b : Bool)
  | int (i : ℤ)
  | float (bits : UInt32)
  | double (bits : UInt64)
  | string (s : String)
  | bytes (bs : List UInt8)
  deriving DecidableEq

structure FieldDescriptor where
  number : ℕ
  name : String
  typ : FieldType
  label : Label
  deriving DecidableEq, Repr

/-! ## Scalar types -/

namespace WireValue

def ofBool (b : Bool) : WireValue := varint (if b then 1 else 0)

/-- Negative numbers are extended to 64 bits. -/
def ofInt32 (i : Int32) : WireValue := varint i.toInt64.toUInt64

def ofInt64 (i : Int64) : WireValue := varint i.toUInt64

def ofUint32 (n : UInt32) : WireValue := varint n.toUInt64

def ofFloat (bits : UInt32) : WireValue := fixed32 bits

def ofDouble (bits : UInt64) : WireValue := fixed64 bits

def ofBytes (bytes : List UInt8) : WireValue := lengthDelimited bytes

def ofString (s : String) : WireValue := ofBytes s.toUTF8.data.toList

end WireValue

/-! ## Reading fields -/

/-- Whether lists of the type may be packed into one record. -/
def FieldType.packable : FieldType → Bool
  | .string | .bytes => false
  | _ => true

def FieldType.wireType : FieldType → ℕ
  | .bool | .int32 | .int64 => 0
  | .double => 1
  | .string | .bytes => 2
  | .float => 5

/-- The value a record has for a type. Of a varint, an integer takes as many bits as its type has. -/
def decodeValue : FieldType → WireValue → Option Value
  | .bool, .varint n => some (.bool (n ≠ 0))
  | .int32, .varint n => some (.int (Int.bmod n.toNat (2 ^ 32)))
  | .int64, .varint n => some (.int (Int.bmod n.toNat (2 ^ 64)))
  | .float, .fixed32 n => some (.float n)
  | .double, .fixed64 n => some (.double n)
  | .string, .lengthDelimited bytes => (String.fromUTF8? ⟨bytes.toArray⟩).map .string
  | .bytes, .lengthDelimited bytes => some (.bytes bytes)
  | _, _ => none

/-- Reads one value of a packed list. -/
def decodePackedOne (typ : FieldType) (bytes : List UInt8) : Option (Value × List UInt8) := do
  let (wire, rest) ← decodePayload typ.wireType bytes
  let value ← decodeValue typ wire
  some (value, rest)

/-- The values a record adds to a repeated field. -/
def decodeElements (typ : FieldType) (wire : WireValue) : Option (List Value) :=
  match wire with
  | .lengthDelimited bytes =>
    if typ.packable then decodeAll (decodePackedOne typ) bytes
    else (decodeValue typ wire).map ([·])
  | _ => (decodeValue typ wire).map ([·])

/-- The values of a field, from its records. -/
def FieldDescriptor.decode (field : FieldDescriptor) (wires : List WireValue) :
    Option (List Value) :=
  match field.label with
  | .repeated => List.flatten <$> wires.mapM (decodeElements field.typ)
  | .optional => do
    let values ← wires.mapM (decodeValue field.typ)
    some values.getLast?.toList
  | .required => do
    let values ← wires.mapM (decodeValue field.typ)
    if values.isEmpty then none else some values.getLast?.toList

/-- The values of all fields of a message. A message with other fields is not accepted. -/
def decodeMessage (fields : List FieldDescriptor) (bytes : List UInt8) :
    Option (List (List Value)) := do
  let records ← decodeAll Record.decode bytes
  if records.all fun record => fields.any (·.number = record.number) then
    fields.mapM fun field =>
      field.decode ((records.filter (·.number = field.number)).map Record.value)
  else none

/-! ## Writing fields -/

/-- A field with one value. -/
def encodeField (number : ℕ) (wire : WireValue) : List UInt8 := Record.encode ⟨number, wire⟩

def encodedLenField (number : ℕ) (wire : WireValue) : ℕ := keyLen number + wire.payloadLen

def encodePacked (number : ℕ) (wires : List WireValue) : List UInt8 :=
  if wires.isEmpty then []
  else
    encodeKey number 2 ++ encodeVarint (wires.map WireValue.payloadLen).sum ++
      wires.flatMap WireValue.payload

def encodedLenPacked (number : ℕ) (wires : List WireValue) : ℕ :=
  if wires.isEmpty then 0
  else
    let length := (wires.map WireValue.payloadLen).sum
    keyLen number + encodedLenVarint length + length

def encodeRepeated (number : ℕ) (wires : List WireValue) : List UInt8 :=
  wires.flatMap (encodeField number)

def encodedLenRepeated (number : ℕ) (wires : List WireValue) : ℕ :=
  keyLen number * wires.length + (wires.map WireValue.payloadLen).sum

/-- The ways to write a field. -/
inductive FieldEncoding where
  | absent
  | single (wire : WireValue)
  | packed (wires : List WireValue)
  | repeated (wires : List WireValue)

namespace FieldEncoding

def encode (number : ℕ) : FieldEncoding → List UInt8
  | absent => []
  | single wire => encodeField number wire
  | packed wires => encodePacked number wires
  | repeated wires => encodeRepeated number wires

def encodedLen (number : ℕ) : FieldEncoding → ℕ
  | absent => 0
  | single wire => encodedLenField number wire
  | packed wires => encodedLenPacked number wires
  | repeated wires => encodedLenRepeated number wires

/-- The values of the records. -/
def wires : FieldEncoding → List WireValue
  | absent => []
  | single wire => [wire]
  | packed wires => if wires.isEmpty then [] else [.lengthDelimited (wires.flatMap WireValue.payload)]
  | repeated wires => wires

/-- The encoding gives a field of the type and label these values. -/
inductive Carries (typ : FieldType) : Label → FieldEncoding → List Value → Prop
  | absent {label : Label} (hlabel : label ≠ .required) : Carries typ label absent []
  | single {label : Label} {wire : WireValue} {value : Value} (hlabel : label ≠ .repeated)
      (hvalue : decodeValue typ wire = some value) : Carries typ label (single wire) [value]
  | packed {wires : List WireValue} {values : List Value} (htyp : typ.packable = true)
      (hvalues : List.Forall₂ (fun wire value => decodeValue typ wire = some value) wires values) :
      Carries typ .repeated (packed wires) values
  | repeated {wires : List WireValue} {values : List Value}
      (hvalues : List.Forall₂ (fun wire value => decodeValue typ wire = some value) wires values) :
      Carries typ .repeated (repeated wires) values

end FieldEncoding

/-! ## One field -/

variable {typ : FieldType} {label : Label} {wire : WireValue} {value : Value}
  {wires : List WireValue} {values : List Value} {encoding : FieldEncoding} {number : ℕ}

section Scalars

theorem decodeValue_ofBool (b : Bool) : decodeValue .bool (.ofBool b) = some (.bool b) := by
  cases b <;> rfl

theorem decodeValue_ofInt64 (i : Int64) : decodeValue .int64 (.ofInt64 i) = some (.int i.toInt) := by
  have hi : Int.bmod i.toUInt64.toNat (2 ^ 64) = i.toInt := by
    rw [Int64.toInt, BitVec.toInt_eq_toNat_bmod]
    rfl
  rw [WireValue.ofInt64, decodeValue, hi]

theorem decodeValue_ofInt32 (i : Int32) : decodeValue .int32 (.ofInt32 i) = some (.int i.toInt) := by
  have hwide : Int.bmod i.toInt64.toUInt64.toNat (2 ^ 64) = i.toInt := by
    rw [← Int32.toInt_toInt64, Int64.toInt, BitVec.toInt_eq_toNat_bmod]
    rfl
  have hle := i.le_toInt
  have hlt := i.toInt_lt
  have hi : Int.bmod i.toInt64.toUInt64.toNat (2 ^ 32) = i.toInt := by
    rw [Int.bmod_def] at hwide ⊢
    omega
  rw [WireValue.ofInt32, decodeValue, hi]

/-- An unsigned number is read as the signed number with the same bits. -/
theorem decodeValue_ofUint32 (n : UInt32) :
    decodeValue .int32 (.ofUint32 n) = some (.int (Int.bmod n.toNat (2 ^ 32))) := by
  rw [WireValue.ofUint32, decodeValue, UInt32.toNat_toUInt64]

theorem decodeValue_ofString (s : String) :
    decodeValue .string (.ofString s) = some (.string s) := by
  have hs : String.fromUTF8? s.toUTF8 = some s := by
    simp only [String.fromUTF8?, String.toUTF8_eq_toByteArray, s.isValidUTF8]
    rfl
  exact congrArg (Option.map Value.string) hs

end Scalars

theorem wireType_of_decodeValue (hvalue : decodeValue typ wire = some value) :
    wire.wireType = typ.wireType := by
  cases typ <;> cases wire <;> first | rfl | exact absurd hvalue (by simp [decodeValue])

theorem packable_eq (typ : FieldType) : typ.packable = decide (typ.wireType ≠ 2) := by
  cases typ <;> rfl

theorem fits_of_packable (htyp : typ.packable = true)
    (hvalue : decodeValue typ wire = some value) : wire.Fits := by
  cases wire with
  | lengthDelimited bytes =>
    rw [packable_eq, ← wireType_of_decodeValue hvalue] at htyp
    exact absurd rfl (of_decide_eq_true htyp)
  | varint n | fixed64 n | fixed32 n => trivial

theorem decodeElements_of_decodeValue (hvalue : decodeValue typ wire = some value) :
    decodeElements typ wire = some [value] := by
  cases wire with
  | lengthDelimited bytes =>
    have htyp : typ.packable = false := by
      rw [packable_eq, ← wireType_of_decodeValue hvalue]
      rfl
    rw [decodeElements, if_neg (by rw [htyp]; decide), hvalue]
    rfl
  | varint n | fixed64 n | fixed32 n =>
    rw [decodeElements, hvalue]
    · rfl
    · intro bytes hbytes
      cases hbytes

/-- A packed list is read back. -/
theorem decodeElements_packed (htyp : typ.packable = true)
    (hvalues : List.Forall₂ (fun wire value => decodeValue typ wire = some value) wires values) :
    decodeElements typ (.lengthDelimited (wires.flatMap WireValue.payload)) = some values := by
  rw [decodeElements, if_pos htyp]
  refine decodeAll_flatMap (hvalues.imp fun wire value hvalue => ?_)
  refine ⟨wire.payload_ne_nil, fun rest => ?_⟩
  rw [decodePackedOne, ← wireType_of_decodeValue hvalue,
    decodePayload_payload (fits_of_packable htyp hvalue)]
  simp [hvalue]

theorem mapM_eq_some_of_forall₂ {α β : Type} {f : α → Option β} {xs : List α} {ys : List β}
    (hxs : List.Forall₂ (fun x y => f x = some y) xs ys) : xs.mapM f = some ys := by
  induction hxs with
  | nil => rfl
  | cons hxy _ ih => simp [hxy, ih]

theorem FieldEncoding.Carries.decode {field : FieldDescriptor}
    (hcarries : Carries field.typ field.label encoding values) :
    field.decode encoding.wires = some values := by
  obtain ⟨number, name, typ, label⟩ := field
  cases hcarries with
  | absent hlabel =>
    cases label with
    | required => exact absurd rfl hlabel
    | optional | repeated => rfl
  | single hlabel hvalue =>
    cases label with
    | repeated => exact absurd rfl hlabel
    | optional | required => simp [FieldDescriptor.decode, FieldEncoding.wires, hvalue]
  | @packed wires _ htyp hvalues =>
    cases hvalues with
    | nil => rfl
    | cons hvalue hvalues =>
      have helements := decodeElements_packed htyp (hvalues.cons hvalue)
      simp only [FieldDescriptor.decode, FieldEncoding.wires, isEmpty_cons, Bool.false_eq_true,
        if_false, mapM_cons, helements]
      simp
  | repeated hvalues =>
    have helements := mapM_eq_some_of_forall₂ (forall₂_map_right_iff.mpr
      (hvalues.imp fun wire value hvalue => decodeElements_of_decodeValue hvalue) :
        List.Forall₂ (fun wire elements => decodeElements typ wire = some elements) _
          (values.map ([·])))
    simp [FieldDescriptor.decode, FieldEncoding.wires, helements, ← flatMap_def]

theorem sum_payloadLen (hwires : ∀ wire ∈ wires, wire.Fits) :
    (wires.map WireValue.payloadLen).sum = (wires.flatMap WireValue.payload).length := by
  rw [length_flatMap]
  refine congrArg List.sum (map_congr_left fun wire hwire => ?_)
  exact (WireValue.length_payload (hwires wire hwire)).symm

theorem forall_fits (htyp : typ.packable = true)
    (hvalues : List.Forall₂ (fun wire value => decodeValue typ wire = some value) wires values) :
    ∀ wire ∈ wires, wire.Fits := by
  induction hvalues with
  | nil => simp
  | cons hvalue _ ih => exact forall_mem_cons.mpr ⟨fits_of_packable htyp hvalue, ih⟩

theorem FieldEncoding.Carries.encode_eq (hcarries : Carries typ label encoding values)
    (number : ℕ) :
    encoding.encode number = (encoding.wires.map (Record.mk number)).flatMap Record.encode := by
  cases hcarries with
  | absent hlabel => rfl
  | single hlabel hvalue => simp [FieldEncoding.encode, FieldEncoding.wires, encodeField]
  | @packed wires _ htyp hvalues =>
    cases wires with
    | nil => rfl
    | cons wire wires =>
      rw [FieldEncoding.encode, encodePacked, sum_payloadLen (forall_fits htyp hvalues),
        FieldEncoding.wires, isEmpty_cons, if_neg Bool.false_ne_true,
        if_neg Bool.false_ne_true, map_singleton, flatMap_singleton, append_assoc]
      rfl
  | repeated hvalues =>
    rw [flatMap_map]
    rfl

theorem Record.fits_of_mem {records : List Record} {record : Record} (hrecord : record ∈ records)
    (hsize : (records.flatMap Record.encode).length < 2 ^ 64) : record.value.Fits := by
  have hsublist := sublist_flatten_of_mem (mem_map_of_mem (f := Record.encode) hrecord)
  exact Record.fits_of_length_encode
    (lt_of_le_of_lt hsublist.length_le (by rwa [← flatMap_def]))

theorem FieldEncoding.Carries.valid (hcarries : Carries typ label encoding values)
    (hpos : 0 < number) (hlt : number < 2 ^ 29) (hsize : (encoding.encode number).length < 2 ^ 64) :
    ∀ record ∈ encoding.wires.map (Record.mk number), record.Valid := by
  intro record hrecord
  rw [hcarries.encode_eq] at hsize
  have hfits := Record.fits_of_mem hrecord hsize
  obtain ⟨wire, -, rfl⟩ := mem_map.mp hrecord
  exact ⟨hpos, hlt, hfits⟩

theorem FieldEncoding.Carries.length_encode (hcarries : Carries typ label encoding values)
    (hpos : 0 < number) (hlt : number < 2 ^ 29) (hsize : (encoding.encode number).length < 2 ^ 64) :
    (encoding.encode number).length = encoding.encodedLen number := by
  have hvalid := hcarries.valid hpos hlt hsize
  have hlength : (encoding.encode number).length =
      (encoding.wires.map fun wire => keyLen number + wire.payloadLen).sum := by
    rw [hcarries.encode_eq, length_flatMap, map_map]
    refine congrArg List.sum (map_congr_left fun wire hwire => ?_)
    exact Record.length_encode (hvalid _ (mem_map_of_mem hwire))
  rw [hlength]
  cases hcarries with
  | absent hlabel => rfl
  | single hlabel hvalue => exact sum_singleton
  | @packed wires _ htyp hvalues =>
    cases wires with
    | nil => rfl
    | cons wire wires =>
      rw [FieldEncoding.encodedLen, encodedLenPacked, sum_payloadLen (forall_fits htyp hvalues)]
      exact (Nat.add_assoc _ _ _).symm
  | repeated hvalues =>
    rw [FieldEncoding.wires, FieldEncoding.encodedLen, encodedLenRepeated]
    simp [Nat.mul_comm]

/-! ## Messages -/

def encodeMessage (message : List (ℕ × FieldEncoding)) : List UInt8 :=
  message.flatMap fun (number, encoding) => encoding.encode number

def encodedLenMessage (message : List (ℕ × FieldEncoding)) : ℕ :=
  (message.map fun (number, encoding) => encoding.encodedLen number).sum

def encodingAt (message : List (ℕ × FieldEncoding)) (number : ℕ) : FieldEncoding :=
  ((message.find? (·.1 = number)).map Prod.snd).getD .absent

/-- The message writes declared fields only, each once and as it is declared, with these values. -/
structure Conforms (fields : List FieldDescriptor) (message : List (ℕ × FieldEncoding))
    (values : ℕ → List Value) : Prop where
  pos : ∀ field ∈ fields, 0 < field.number
  lt : ∀ field ∈ fields, field.number < 2 ^ 29
  nodup : (message.map Prod.fst).Nodup
  declared : ∀ entry ∈ message, ∃ field ∈ fields, field.number = entry.1
  carries : ∀ field ∈ fields,
    (encodingAt message field.number).Carries field.typ field.label (values field.number)

section Message

variable {fields : List FieldDescriptor} {message : List (ℕ × FieldEncoding)}
  {contents : ℕ → List Value} {entry : ℕ × FieldEncoding}

theorem encodingAt_of_mem (hnodup : (message.map Prod.fst).Nodup) (hentry : entry ∈ message) :
    encodingAt message entry.1 = entry.2 := by
  have hfind : message.find? (·.1 = entry.1) = some entry := by
    induction message with
    | nil => cases hentry
    | cons first message ih =>
      rw [map_cons, nodup_cons] at hnodup
      obtain rfl | hentry := mem_cons.mp hentry
      · simp
      · have hne : first.1 ≠ entry.1 := fun heq =>
          hnodup.1 (heq ▸ mem_map_of_mem hentry)
        rw [List.find?_cons_of_neg (by simpa using hne)]
        exact ih hnodup.2 hentry
  rw [encodingAt, hfind]
  rfl

/-- The records of a message. -/
def messageRecords (message : List (ℕ × FieldEncoding)) : List Record :=
  message.flatMap fun (number, encoding) => encoding.wires.map (Record.mk number)

theorem filter_messageRecords (hnodup : (message.map Prod.fst).Nodup) (number : ℕ) :
    ((messageRecords message).filter (·.number = number)).map Record.value =
      (encodingAt message number).wires := by
  induction message with
  | nil => rfl
  | cons first message ih =>
    obtain ⟨firstNumber, encoding⟩ := first
    rw [map_cons, nodup_cons] at hnodup
    rw [messageRecords, flatMap_cons, filter_append, map_append, ← messageRecords,
      ih hnodup.2, filter_map]
    by_cases hnumber : firstNumber = number
    · -- No later entry has the number, so nothing follows the records of this one.
      have hnone : message.find? (·.1 = number) = none := by
        refine List.find?_eq_none.mpr fun entry hentry heq => hnodup.1 ?_
        exact mem_map.mpr ⟨entry, hentry, (of_decide_eq_true heq).trans hnumber.symm⟩
      simp [encodingAt, hnumber, hnone, Function.comp_def, FieldEncoding.wires]
    · simp [encodingAt, hnumber]

theorem Conforms.carries_of_mem (hmessage : Conforms fields message contents)
    (hentry : entry ∈ message) :
    ∃ field ∈ fields, field.number = entry.1 ∧
      entry.2.Carries field.typ field.label (contents entry.1) := by
  obtain ⟨field, hfield, hnumber⟩ := hmessage.declared entry hentry
  have hcarries := hmessage.carries field hfield
  rw [hnumber, encodingAt_of_mem hmessage.nodup hentry] at hcarries
  exact ⟨field, hfield, hnumber, hcarries⟩

theorem Conforms.encodeMessage_eq (hmessage : Conforms fields message contents) :
    encodeMessage message = (messageRecords message).flatMap Record.encode := by
  rw [messageRecords, flatMap_assoc]
  refine flatMap_congr fun entry hentry => ?_
  obtain ⟨field, -, -, hcarries⟩ := hmessage.carries_of_mem hentry
  exact hcarries.encode_eq entry.1

theorem mem_messageRecords {record : Record} (hrecord : record ∈ messageRecords message) :
    ∃ entry ∈ message, entry.1 = record.number := by
  obtain ⟨entry, hentry, hrecord⟩ := mem_flatMap.mp hrecord
  obtain ⟨wire, -, rfl⟩ := mem_map.mp hrecord
  exact ⟨entry, hentry, rfl⟩

/-- A message is read back with the values of its fields. -/
theorem decodeMessage_encode (hmessage : Conforms fields message contents)
    (hsize : (encodeMessage message).length < 2 ^ 64) :
    decodeMessage fields (encodeMessage message) =
      some (fields.map fun field => contents field.number) := by
  rw [hmessage.encodeMessage_eq] at hsize ⊢
  have hdeclared : ∀ record ∈ messageRecords message,
      ∃ field ∈ fields, field.number = record.number := by
    intro record hrecord
    obtain ⟨entry, hentry, hnumber⟩ := mem_messageRecords hrecord
    rw [← hnumber]
    exact hmessage.declared entry hentry
  have hvalid : ∀ record ∈ messageRecords message, record.Valid := by
    intro record hrecord
    obtain ⟨field, hfield, hnumber⟩ := hdeclared record hrecord
    refine ⟨?_, ?_, Record.fits_of_mem hrecord hsize⟩
    · rw [← hnumber]
      exact hmessage.pos field hfield
    · rw [← hnumber]
      exact hmessage.lt field hfield
  have hknown : ((messageRecords message).all fun record =>
      fields.any (·.number = record.number)) = true := by
    simpa using hdeclared
  have hfields : fields.mapM (fun field => field.decode
      (((messageRecords message).filter (·.number = field.number)).map Record.value)) =
        some (fields.map fun field => contents field.number) := by
    refine mapM_eq_some_of_forall₂ (forall₂_map_right_iff.mpr
      (forall₂_same.mpr fun field hfield => ?_))
    rw [filter_messageRecords hmessage.nodup]
    exact (hmessage.carries field hfield).decode
  rw [decodeMessage, Record.decodeAll_encode hvalid]
  simp only [Option.bind_eq_bind, Option.bind_some, hknown]
  exact hfields

theorem length_encodeMessage (hmessage : Conforms fields message contents)
    (hsize : (encodeMessage message).length < 2 ^ 64) :
    (encodeMessage message).length = encodedLenMessage message := by
  rw [encodeMessage, length_flatMap]
  refine congrArg List.sum (map_congr_left fun entry hentry => ?_)
  obtain ⟨field, hfield, hnumber, hcarries⟩ := hmessage.carries_of_mem hentry
  have hsublist := sublist_flatten_of_mem
    (mem_map_of_mem (f := fun (number, encoding) => FieldEncoding.encode number encoding)
      hentry)
  refine hcarries.length_encode ?_ ?_ ?_
  · rw [← hnumber]
    exact hmessage.pos field hfield
  · rw [← hnumber]
    exact hmessage.lt field hfield
  · exact lt_of_le_of_lt hsublist.length_le hsize

end Message

end Protobuf
