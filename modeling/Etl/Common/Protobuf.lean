import Mathlib.Data.List.Flatten
import Mathlib.Data.List.Nodup
import Mathlib.Data.Nat.Log
import Mathlib.Tactic.NormNum

/-! # The protobuf wire format

A message is a list of records, each a key with the number of a field and a wire type, and a
payload. Records are encoded with their lengths computed beforehand; `Record.decodeAll_encode` says
that they are read back, and `Record.length_encode` that the computed length is the number of bytes.
-/

namespace Protobuf

open List

/-! ## Varints -/

/-- Seven bits a byte with the lowest first; every byte but the last has its high bit set. -/
def encodeVarintIn : ℕ → ℕ → List UInt8
  | 0, _ => []
  | fuel + 1, n =>
    if n < 128 then [UInt8.ofNat n]
    else UInt8.ofNat (n % 128 + 128) :: encodeVarintIn fuel (n / 128)

/-- A number of 64 bits takes at most ten bytes. -/
def encodeVarint (n : ℕ) : List UInt8 := encodeVarintIn 10 n

/-- The length of a varint, from the position of the highest bit. -/
def encodedLenVarint (n : ℕ) : ℕ := ((n ||| 1).log2 * 9 + 73) / 64

/-- Reads a varint of a bounded number of bytes, and returns what follows it. -/
def decodeVarintIn : ℕ → List UInt8 → Option (ℕ × List UInt8)
  | 0, _ => none
  | _ + 1, [] => none
  | fuel + 1, byte :: bytes =>
    if byte.toNat < 128 then some (byte.toNat, bytes)
    else do
      let (n, rest) ← decodeVarintIn fuel bytes
      some (byte.toNat % 128 + 128 * n, rest)

/-- Reads a varint of at most ten bytes; what does not fit in 64 bits is dropped. -/
def decodeVarint (bytes : List UInt8) : Option (UInt64 × List UInt8) := do
  let (n, rest) ← decodeVarintIn 10 bytes
  some (UInt64.ofNat n, rest)

variable {n : ℕ}

theorem toNat_ofNat (hn : n < 256) : (UInt8.ofNat n).toNat = n :=
  UInt8.toNat_ofNat_of_lt' hn

theorem decodeVarintIn_encodeVarintIn {fuel n : ℕ} (hn : n < 128 ^ (fuel + 1))
    (rest : List UInt8) :
    decodeVarintIn (fuel + 1) (encodeVarintIn (fuel + 1) n ++ rest) = some (n, rest) := by
  induction fuel generalizing n with
  | zero =>
    have hn : n < 128 := by simpa using hn
    have hbyte : (UInt8.ofNat n).toNat = n := toNat_ofNat (by omega)
    simp [encodeVarintIn, decodeVarintIn, hn, hbyte]
  | succ fuel ih =>
    rw [encodeVarintIn]
    split_ifs with hlast
    · have hbyte : (UInt8.ofNat n).toNat = n := toNat_ofNat (by omega)
      simp [decodeVarintIn, hlast, hbyte]
    · have hbyte : (UInt8.ofNat (n % 128 + 128)).toNat = n % 128 + 128 :=
        toNat_ofNat (by omega)
      have hrest : n / 128 < 128 ^ (fuel + 1) := by
        rw [Nat.div_lt_iff_lt_mul (by omega)]
        exact hn
      rw [cons_append, decodeVarintIn, if_neg (by omega), ih hrest]
      simp only [Option.bind_eq_bind, Option.bind_some, Option.some.injEq, Prod.mk.injEq, and_true]
      omega

theorem decodeVarint_encodeVarint (hn : n < 2 ^ 64) (rest : List UInt8) :
    decodeVarint (encodeVarint n ++ rest) = some (UInt64.ofNat n, rest) := by
  rw [decodeVarint, encodeVarint, decodeVarintIn_encodeVarintIn (by omega)]
  rfl

theorem log2_or_one (hn : n ≠ 0) : (n ||| 1).log2 = n.log2 := by
  have hor : n ||| 1 ≠ 0 := fun hzero => hn (Nat.or_eq_zero_iff.mp hzero).1
  rw [Nat.log2_eq_iff hor]
  refine ⟨(Nat.log2_self_le hn).trans Nat.left_le_or, Nat.or_lt_two_pow Nat.lt_log2_self ?_⟩
  exact Nat.one_lt_two_pow (Nat.succ_ne_zero _)

theorem log2_eq_log2_div (k : ℕ) (hn : 2 ^ k ≤ n) : n.log2 = (n / 2 ^ k).log2 + k := by
  have hpow : 0 < 2 ^ k := Nat.two_pow_pos k
  have hdiv : n / 2 ^ k ≠ 0 := (Nat.div_pos hn hpow).ne'
  rw [Nat.log2_eq_iff (by omega), Nat.add_right_comm, Nat.pow_add, Nat.pow_add]
  constructor
  · exact (Nat.le_div_iff_mul_le hpow).mp (Nat.log2_self_le hdiv)
  · exact (Nat.div_lt_iff_lt_mul hpow).mp Nat.lt_log2_self

theorem encodedLenVarint_of_lt (hn : n < 128) : encodedLenVarint n = 1 := by
  have hor : n ||| 1 < 2 ^ 7 := Nat.or_lt_two_pow hn (by norm_num)
  have hlog : (n ||| 1).log2 < 7 := by
    refine (Nat.log2_lt ?_).mpr hor
    exact fun hzero => absurd (Nat.or_eq_zero_iff.mp hzero).2 one_ne_zero
  rw [encodedLenVarint]
  omega

theorem encodedLenVarint_of_le (hn : 128 ≤ n) (hlt : n < 2 ^ 64) :
    encodedLenVarint n = encodedLenVarint (n / 128) + 1 := by
  have hlog : n.log2 < 64 := (Nat.log2_lt (by omega)).mpr hlt
  have hdiv : n.log2 = (n / 128).log2 + 7 := log2_eq_log2_div 7 hn
  rw [encodedLenVarint, encodedLenVarint, log2_or_one (by omega), log2_or_one (by omega)]
  omega

theorem length_encodeVarintIn {fuel n : ℕ} (hn : n < 128 ^ (fuel + 1)) (hlt : n < 2 ^ 64) :
    (encodeVarintIn (fuel + 1) n).length = encodedLenVarint n := by
  induction fuel generalizing n with
  | zero =>
    have hn : n < 128 := by simpa using hn
    rw [encodeVarintIn, if_pos hn, encodedLenVarint_of_lt hn]
    rfl
  | succ fuel ih =>
    rw [encodeVarintIn]
    split_ifs with hlast
    · rw [encodedLenVarint_of_lt hlast]
      rfl
    · have hrest : n / 128 < 128 ^ (fuel + 1) := by
        rw [Nat.div_lt_iff_lt_mul (by omega)]
        exact hn
      rw [length_cons, ih hrest (by omega), encodedLenVarint_of_le (by omega) hlt]

theorem length_encodeVarint (hn : n < 2 ^ 64) :
    (encodeVarint n).length = encodedLenVarint n :=
  length_encodeVarintIn (by omega) hn

theorem encodedLenVarint_key {tag wireType : ℕ} (htag : 0 < tag) (hwire : wireType < 8) :
    encodedLenVarint (tag * 8 + wireType) = encodedLenVarint (tag * 8) := by
  have hlog : (tag * 8 + wireType).log2 = (tag * 8).log2 := by
    have hkey : (tag * 8 + wireType) / 2 ^ 3 = tag * 8 / 2 ^ 3 := by omega
    rw [log2_eq_log2_div 3 (by omega), log2_eq_log2_div 3 (by omega : 2 ^ 3 ≤ tag * 8), hkey]
  rw [encodedLenVarint, encodedLenVarint, log2_or_one (by omega), log2_or_one (by omega), hlog]

/-! ## Wire values -/

/-- The bytes of a number with the lowest first. -/
def leBytes : ℕ → ℕ → List UInt8
  | 0, _ => []
  | width + 1, n => UInt8.ofNat n :: leBytes width (n / 256)

def ofLeBytes : List UInt8 → ℕ
  | [] => 0
  | byte :: bytes => byte.toNat + 256 * ofLeBytes bytes

theorem length_leBytes (width n : ℕ) : (leBytes width n).length = width := by
  induction width generalizing n with
  | zero => rfl
  | succ width ih => rw [leBytes, length_cons, ih]

theorem ofLeBytes_leBytes {width n : ℕ} (hn : n < 256 ^ width) :
    ofLeBytes (leBytes width n) = n := by
  induction width generalizing n with
  | zero =>
    rw [leBytes, ofLeBytes]
    omega
  | succ width ih =>
    have hrest : n / 256 < 256 ^ width := by
      rw [Nat.div_lt_iff_lt_mul (by omega)]
      exact hn
    rw [leBytes, ofLeBytes, ih hrest, UInt8.toNat_ofNat']
    omega

/-- The value of a record. -/
inductive WireValue where
  | varint (n : UInt64)
  | fixed64 (n : UInt64)
  | lengthDelimited (bytes : List UInt8)
  | fixed32 (n : UInt32)
  deriving DecidableEq

namespace WireValue

def wireType : WireValue → ℕ
  | varint _ => 0
  | fixed64 _ => 1
  | lengthDelimited _ => 2
  | fixed32 _ => 5

/-- The bytes after the key. -/
def payload : WireValue → List UInt8
  | varint n => encodeVarint n.toNat
  | fixed64 n => leBytes 8 n.toNat
  | lengthDelimited bytes => encodeVarint bytes.length ++ bytes
  | fixed32 n => leBytes 4 n.toNat

def payloadLen : WireValue → ℕ
  | varint n => encodedLenVarint n.toNat
  | fixed64 _ => 8
  | lengthDelimited bytes => encodedLenVarint bytes.length + bytes.length
  | fixed32 _ => 4

/-- The length of the value is a number of 64 bits. -/
def Fits : WireValue → Prop
  | lengthDelimited bytes => bytes.length < 2 ^ 64
  | _ => True

variable {value : WireValue}

theorem wireType_lt (value : WireValue) : value.wireType < 8 := by
  cases value <;> simp [wireType]

theorem length_payload (hvalue : value.Fits) : value.payload.length = value.payloadLen := by
  cases value with
  | varint n => exact length_encodeVarint n.toNat_lt
  | fixed64 n => exact length_leBytes 8 n.toNat
  | lengthDelimited bytes => rw [payload, length_append, length_encodeVarint hvalue, payloadLen]
  | fixed32 n => exact length_leBytes 4 n.toNat

theorem fits_of_length_payload (hvalue : value.payload.length < 2 ^ 64) : value.Fits := by
  cases value with
  | lengthDelimited bytes =>
    rw [payload, length_append] at hvalue
    exact lt_of_le_of_lt (Nat.le_add_left _ _) hvalue
  | varint n | fixed64 n | fixed32 n => trivial

theorem encodeVarint_ne_nil (n : ℕ) : encodeVarint n ≠ [] := by
  rw [encodeVarint, encodeVarintIn]
  split_ifs
  all_goals exact cons_ne_nil _ _

theorem payload_ne_nil (value : WireValue) : value.payload ≠ [] := by
  cases value with
  | varint n => exact encodeVarint_ne_nil n.toNat
  | fixed64 n | fixed32 n => exact cons_ne_nil _ _
  | lengthDelimited bytes => exact append_ne_nil_of_left_ne_nil (encodeVarint_ne_nil _) _

end WireValue

/-- Takes a number of bytes. -/
def takeBytes (n : ℕ) (bytes : List UInt8) : Option (List UInt8 × List UInt8) :=
  if n ≤ bytes.length then some (bytes.take n, bytes.drop n) else none

theorem takeBytes_append {bytes : List UInt8} (hn : bytes.length = n) (rest : List UInt8) :
    takeBytes n (bytes ++ rest) = some (bytes, rest) := by
  rw [takeBytes, if_pos (by rw [length_append]; omega), take_left' hn,
    drop_left' hn]

def decodePayload (wireType : ℕ) (bytes : List UInt8) : Option (WireValue × List UInt8) :=
  match wireType with
  | 0 => do
    let (n, rest) ← decodeVarint bytes
    some (.varint n, rest)
  | 1 => do
    let (value, rest) ← takeBytes 8 bytes
    some (.fixed64 (.ofNat (ofLeBytes value)), rest)
  | 2 => do
    let (length, rest) ← decodeVarint bytes
    let (value, rest) ← takeBytes length.toNat rest
    some (.lengthDelimited value, rest)
  | 5 => do
    let (value, rest) ← takeBytes 4 bytes
    some (.fixed32 (.ofNat (ofLeBytes value)), rest)
  | _ => none

theorem decodePayload_payload {value : WireValue} (hvalue : value.Fits) (rest : List UInt8) :
    decodePayload value.wireType (value.payload ++ rest) = some (value, rest) := by
  cases value with
  | varint n =>
    simp [WireValue.wireType, WireValue.payload, decodePayload,
      decodeVarint_encodeVarint n.toNat_lt]
  | fixed64 n =>
    have hn : n.toNat < 256 ^ 8 := n.toNat_lt
    simp [WireValue.wireType, WireValue.payload, decodePayload,
      takeBytes_append (length_leBytes 8 n.toNat), ofLeBytes_leBytes hn]
  | lengthDelimited bytes =>
    have hlength : (UInt64.ofNat bytes.length).toNat = bytes.length :=
      UInt64.toNat_ofNat_of_lt' hvalue
    simp [WireValue.wireType, WireValue.payload, decodePayload,
      decodeVarint_encodeVarint hvalue, hlength, takeBytes_append]
  | fixed32 n =>
    have hn : n.toNat < 256 ^ 4 := n.toNat_lt
    simp [WireValue.wireType, WireValue.payload, decodePayload,
      takeBytes_append (length_leBytes 4 n.toNat), ofLeBytes_leBytes hn]

/-! ## Lists of encodings -/

section Many

variable {α β : Type} (decodeOne : List UInt8 → Option (β × List UInt8))

/-- Reads one after the other until nothing is left. -/
def decodeMany : ℕ → List UInt8 → Option (List β)
  | _, [] => some []
  | 0, _ :: _ => none
  | fuel + 1, byte :: bytes => do
    let (value, rest) ← decodeOne (byte :: bytes)
    let values ← decodeMany fuel rest
    some (value :: values)

/-- Everything that is read takes a byte at least. -/
def decodeAll (bytes : List UInt8) : Option (List β) := decodeMany decodeOne bytes.length bytes

variable {decodeOne} {encodeOne : α → List UInt8} {xs : List α} {ys : List β}

theorem decodeMany_flatMap {fuel : ℕ}
    (hxs : List.Forall₂ (fun x y => encodeOne x ≠ [] ∧
      ∀ rest, decodeOne (encodeOne x ++ rest) = some (y, rest)) xs ys)
    (hfuel : (xs.flatMap encodeOne).length ≤ fuel) :
    decodeMany decodeOne fuel (xs.flatMap encodeOne) = some ys := by
  induction hxs generalizing fuel with
  | nil => rw [flatMap_nil, decodeMany]
  | @cons x y xs ys hxy hxs ih =>
    obtain ⟨hne, hdecode⟩ := hxy
    obtain ⟨byte, bytes, hbytes⟩ := exists_cons_of_ne_nil hne
    rw [flatMap_cons] at hfuel ⊢
    rw [length_append, hbytes, length_cons] at hfuel
    obtain ⟨fuel, rfl⟩ : ∃ fuel', fuel = fuel' + 1 := ⟨fuel - 1, by omega⟩
    have hone := hdecode (xs.flatMap encodeOne)
    rw [hbytes, cons_append] at hone ⊢
    rw [decodeMany, hone]
    simp [ih (by omega : (xs.flatMap encodeOne).length ≤ fuel)]

/-- A list of encodings is read back. -/
theorem decodeAll_flatMap
    (hxs : List.Forall₂ (fun x y => encodeOne x ≠ [] ∧
      ∀ rest, decodeOne (encodeOne x ++ rest) = some (y, rest)) xs ys) :
    decodeAll decodeOne (xs.flatMap encodeOne) = some ys :=
  decodeMany_flatMap hxs le_rfl

end Many

/-! ## Records -/

/-- A record: the number of a field and a value. -/
structure Record where
  number : ℕ
  value : WireValue
  deriving DecidableEq

/-- The key of a record. -/
def encodeKey (number wireType : ℕ) : List UInt8 := encodeVarint (number * 8 + wireType)

/-- The computed length of a key. -/
def keyLen (number : ℕ) : ℕ := encodedLenVarint (number * 8)

namespace Record

def encode (record : Record) : List UInt8 :=
  encodeKey record.number record.value.wireType ++ record.value.payload

/-- The number is that of a field, and the value can be written. -/
structure Valid (record : Record) : Prop where
  pos : 0 < record.number
  lt : record.number < 2 ^ 29
  fits : record.value.Fits

/-- Reads a record. -/
def decode (bytes : List UInt8) : Option (Record × List UInt8) := do
  let (key, rest) ← decodeVarint bytes
  if key.toNat / 8 = 0 ∨ 2 ^ 29 ≤ key.toNat / 8 then none
  else
    let (value, rest) ← decodePayload (key.toNat % 8) rest
    some (⟨key.toNat / 8, value⟩, rest)

theorem encode_ne_nil (record : Record) : record.encode ≠ [] :=
  append_ne_nil_of_left_ne_nil (WireValue.encodeVarint_ne_nil _) _

variable {record : Record}

/-- A record is read back, with what follows it. -/
theorem decode_encode (hrecord : record.Valid) (rest : List UInt8) :
    decode (record.encode ++ rest) = some (record, rest) := by
  obtain ⟨number, value⟩ := record
  obtain ⟨hpos, hlt, hfits⟩ := hrecord
  have hwire := value.wireType_lt
  dsimp only at hpos hlt hfits
  have hkey : number * 8 + value.wireType < 2 ^ 64 := by omega
  have hkeyNat : (UInt64.ofNat (number * 8 + value.wireType)).toNat =
      number * 8 + value.wireType := UInt64.toNat_ofNat_of_lt' hkey
  have hnumber : (number * 8 + value.wireType) / 8 = number := by omega
  have hwireType : (number * 8 + value.wireType) % 8 = value.wireType := by omega
  rw [decode, encode, encodeKey, append_assoc, decodeVarint_encodeVarint hkey]
  simp only [Option.bind_eq_bind, Option.bind_some, hkeyNat, hnumber, hwireType]
  rw [if_neg (by omega), decodePayload_payload hfits]
  rfl

theorem length_encode (hrecord : record.Valid) :
    record.encode.length = keyLen record.number + record.value.payloadLen := by
  have hwire := record.value.wireType_lt
  have hlt := hrecord.lt
  rw [encode, length_append, encodeKey, length_encodeVarint (by omega),
    encodedLenVarint_key hrecord.pos hwire, WireValue.length_payload hrecord.fits, keyLen]

theorem fits_of_length_encode (hrecord : record.encode.length < 2 ^ 64) :
    record.value.Fits := by
  rw [encode, length_append] at hrecord
  exact WireValue.fits_of_length_payload (lt_of_le_of_lt (Nat.le_add_left _ _) hrecord)

/-- A list of records is read back. -/
theorem decodeAll_encode {records : List Record} (hrecords : ∀ record ∈ records, record.Valid) :
    decodeAll decode (records.flatMap encode) = some records := by
  refine decodeAll_flatMap (forall₂_same.mpr fun record hrecord => ?_)
  exact ⟨record.encode_ne_nil, decode_encode (hrecords record hrecord)⟩

end Record

end Protobuf
