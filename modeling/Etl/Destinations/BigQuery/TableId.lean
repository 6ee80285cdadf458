import Etl.Destinations.TableName
import Mathlib.Algebra.Order.Ring.Nat
import Mathlib.Data.List.TakeWhile

/-! # Versioned BigQuery tables

A table at BigQuery is named by the encoded source name and a version number, which a truncate
advances. The name is stored as text and parsed back: the last underscore separates the version,
so a printed name is always parsed to what it was printed from (`fromStr_toString`), and different
tables have different names (`toString_injective`). The encoded source name itself is the name of
the view over the current version; versions, views and source tables are all kept apart
(`physicalNames_apart`).

Reference: `etl-destinations/src/bigquery/core.rs` (`SequencedBigQueryTableId`).
-/

namespace Etl.BigQuery

open List

/-- A table name with a version. -/
structure SequencedBigQueryTableId where
  tableId : String
  sequence : UInt64
  deriving DecidableEq, Repr

/-- Reads decimal digits behind a value already read. -/
def parseDigits : List Char → ℕ → Except String ℕ
  | [], value => .ok value
  | c :: chars, value =>
    if !c.isDigit then .error "invalid digit found in string"
    else
      let value := 10 * value + (c.toNat - '0'.toNat)
      if value < 2 ^ 64 then parseDigits chars value
      else .error "number too large to fit in target type"

/-- Parses an unsigned 64-bit number; a plus sign is accepted. -/
def parseU64 (chars : List Char) : Except String UInt64 :=
  if chars.isEmpty then .error "cannot parse integer from empty string"
  else do
    let digits := if chars.head? = some '+' ∧ 1 < chars.length then chars.tail else chars
    return UInt64.ofNat (← parseDigits digits 0)

/-- What stands before and behind the last underscore. -/
def splitLastUnderscore (chars : List Char) : Option (List Char × List Char) :=
  match chars.reverse.dropWhile (· ≠ '_') with
  | [] => none
  | _ :: name => some (name.reverse, (chars.reverse.takeWhile (· ≠ '_')).reverse)

namespace SequencedBigQueryTableId

/-- The first version of a table. -/
def new (tableId : String) : SequencedBigQueryTableId := ⟨tableId, 0⟩

/-- The next version. -/
def next (id : SequencedBigQueryTableId) : SequencedBigQueryTableId :=
  ⟨id.tableId, id.sequence + 1⟩

def toBigqueryTableId (id : SequencedBigQueryTableId) : String := id.tableId

def belongsToBase (id : SequencedBigQueryTableId) (baseTableId : String) : Bool :=
  id.tableId = baseTableId

def toString (id : SequencedBigQueryTableId) : String :=
  id.tableId ++ "_" ++ id.sequence.toNat.repr

def fromStr (tableId : String) : EtlResult SequencedBigQueryTableId :=
  match splitLastUnderscore tableId.toList with
  | none =>
    bailWith .destinationTableNameInvalid "Invalid sequenced BigQuery table ID format"
      ("No underscore found in table ID '" ++ tableId ++ "'. Expected format: " ++
        "'table_name_sequence' where sequence is a non-negative integer")
  | some (tableName, sequence) =>
    if tableName.isEmpty then
      bailWith .destinationTableNameInvalid "Invalid sequenced BigQuery table ID format"
        ("Table name cannot be empty in sequenced table ID '" ++ tableId ++ "'. Expected " ++
          "format: 'table_name_sequence'")
    else if sequence.isEmpty then
      bailWith .destinationTableNameInvalid "Invalid sequenced BigQuery table ID format"
        ("Sequence number cannot be empty in sequenced table ID '" ++ tableId ++ "'. " ++
          "Expected format: 'table_name_sequence'")
    else
      match parseU64 sequence with
      | .ok number => .ok ⟨String.ofList tableName, number⟩
      | .error e =>
        bailWith .destinationTableNameInvalid "Invalid sequence number in BigQuery table ID"
          ("Failed to parse sequence number '" ++ String.ofList sequence ++ "' in table ID '" ++
            tableId ++ "': " ++ e ++ ". Expected a non-negative integer " ++
              "(0-18446744073709551615)")

def parseForBase (tableId baseTableId : String) : Option SequencedBigQueryTableId :=
  (fromStr tableId).toOption.filter (·.belongsToBase baseTableId)

end SequencedBigQueryTableId

/-! ## Parsing what was printed -/

theorem splitLastUnderscore_append {name sequence : List Char} (hsequence : '_' ∉ sequence) :
    splitLastUnderscore (name ++ '_' :: sequence) = some (name, sequence) := by
  have hreverse : (name ++ '_' :: sequence).reverse =
      sequence.reverse ++ '_' :: name.reverse := by
    simp
  have hplain : ∀ c ∈ sequence.reverse, decide (c ≠ '_') = true := by
    intro c hc
    refine decide_eq_true fun h => hsequence ?_
    rw [← h]
    exact mem_reverse.mp hc
  rw [splitLastUnderscore, hreverse, dropWhile_append_of_pos hplain, takeWhile_append_of_pos hplain]
  simp

theorem parseDigits_eq_ok {chars : List Char} {value : ℕ} (hdigits : ∀ c ∈ chars, c.isDigit)
    (hvalue : value < 2 ^ 64) (hfits : Nat.ofDigitChars 10 chars value < 2 ^ 64) :
    parseDigits chars value = .ok (Nat.ofDigitChars 10 chars value) := by
  induction chars generalizing value with
  | nil => rw [parseDigits, Nat.ofDigitChars_nil]
  | cons c chars ih =>
    -- Reading further digits never makes a value smaller.
    have hle : 10 * value + (c.toNat - '0'.toNat) ≤
        Nat.ofDigitChars 10 chars (10 * value + (c.toNat - '0'.toNat)) := by
      rw [Nat.ofDigitChars_eq_ofDigitChars_zero]
      exact Nat.le_add_right_of_le (Nat.le_mul_of_pos_left _ (Nat.pow_pos (by decide)))
    have hnext := Nat.lt_of_le_of_lt hle hfits
    rw [parseDigits, hdigits c mem_cons_self, if_pos hnext]
    exact ih (fun d hd => hdigits d (mem_cons_of_mem c hd)) hnext hfits

theorem parseU64_toDigits (number : UInt64) :
    parseU64 (Nat.toDigits 10 number.toNat) = .ok number := by
  have hdigits : ∀ c ∈ Nat.toDigits 10 number.toNat, c.isDigit := fun c hc =>
    Nat.isDigit_of_mem_toDigits (by decide) (by decide) hc
  have hplus : ¬ ((Nat.toDigits 10 number.toNat).head? = some '+' ∧
      1 < (Nat.toDigits 10 number.toNat).length) := by
    rintro ⟨hhead, -⟩
    exact absurd (hdigits '+' (mem_of_mem_head? hhead)) (by decide)
  have hparse : parseDigits (Nat.toDigits 10 number.toNat) 0 = .ok number.toNat := by
    rw [parseDigits_eq_ok hdigits (by decide)] <;> rw [Nat.ofDigitChars_ten_toDigits]
    exact number.toNat_lt
  have hempty : ¬ (Nat.toDigits 10 number.toNat).isEmpty = true :=
    mt List.isEmpty_iff.mp Nat.toDigits_ne_nil
  simp only [parseU64, if_neg hempty, if_neg hplus, hparse]
  exact congrArg Except.ok UInt64.ofNat_toNat

namespace SequencedBigQueryTableId

theorem splitLastUnderscore_toString (id : SequencedBigQueryTableId) :
    splitLastUnderscore id.toString.toList =
      some (id.tableId.toList, Nat.toDigits 10 id.sequence.toNat) := by
  have hchars : id.toString.toList =
      id.tableId.toList ++ '_' :: Nat.toDigits 10 id.sequence.toNat := by
    simp [toString]
  rw [hchars, splitLastUnderscore_append Nat.underscore_not_in_toDigits]

/-- Different tables have different names. -/
theorem toString_injective : Function.Injective toString := by
  intro a b h
  have hsplit := splitLastUnderscore_toString a
  rw [h, splitLastUnderscore_toString b, Option.some.injEq, Prod.mk.injEq] at hsplit
  obtain ⟨hname, hdigits⟩ := hsplit
  have hsequence := parseU64_toDigits a.sequence
  rw [← hdigits, parseU64_toDigits b.sequence] at hsequence
  exact congrArg₂ mk (String.toList_inj.mp hname).symm (Except.ok.inj hsequence).symm

variable {id : SequencedBigQueryTableId}

theorem fromStr_toString (hname : id.tableId ≠ "") :
    fromStr id.toString = .ok id := by
  have hempty : ¬ id.tableId.toList.isEmpty = true := by
    rw [List.isEmpty_iff, String.toList_eq_nil_iff]
    exact hname
  have hsequence : ¬ (Nat.toDigits 10 id.sequence.toNat).isEmpty = true := by
    rw [List.isEmpty_iff]
    exact Nat.toDigits_ne_nil
  rw [fromStr, splitLastUnderscore_toString]
  simp only [if_neg hempty, if_neg hsequence, parseU64_toDigits, String.ofList_toList]

theorem parseForBase_toString (hname : id.tableId ≠ "") (baseTableId : String) :
    parseForBase id.toString baseTableId = if id.tableId = baseTableId then some id else none := by
  rw [parseForBase, fromStr_toString hname]
  by_cases hbase : id.tableId = baseTableId
  all_goals simp [Except.toOption, belongsToBase, hbase]

theorem toList_toString (id : SequencedBigQueryTableId) :
    id.toString.toList = id.tableId.toList ++ '_' :: Nat.toDigits 10 id.sequence.toNat := by
  simp [toString]

/-- A version of a table does not have the encoded name of a source table. -/
theorem toString_ne_encoded {a b : TableName} {baseA baseB : String}
    (ha : tryStringifyTableName a = .ok baseA) (hb : tryStringifyTableName b = .ok baseB)
    (sequence : UInt64) : toString ⟨baseA, sequence⟩ ≠ baseB := by
  intro h
  obtain ⟨ha, hbaseA⟩ := tryStringifyTableName_eq_ok_iff.mp ha
  obtain ⟨hb, hbaseB⟩ := tryStringifyTableName_eq_ok_iff.mp hb
  have hchars := congrArg String.toList h
  rw [toList_toString, hbaseA, hbaseB, ← append_nil b.encoded] at hchars
  obtain ⟨-, hname⟩ := TableName.encoded_append_inj ha hb hchars
  rw [append_nil] at hname
  -- The number does not begin with an underscore, so the one before it is not doubled.
  refine doubleSep_ne_append_sep ?_ hname.symm
  intro hhead
  exact Nat.underscore_not_in_toDigits (mem_of_mem_head? hhead)

/-- Different source tables have different encoded names, no version of one has the name of a
version or of the view of the other, and the name of a version is parsed for the base name it was
printed from and for no other. -/
theorem physicalNames_apart {a b : TableName} {baseA baseB : String}
    (ha : tryStringifyTableName a = .ok baseA) (hb : tryStringifyTableName b = .ok baseB)
    (hne : a ≠ b) :
    baseA ≠ baseB ∧
      (∀ sequence, toString ⟨baseA, sequence⟩ ≠ baseB ∧
        ∀ sequence', toString ⟨baseA, sequence⟩ ≠ toString ⟨baseB, sequence'⟩) ∧
      ∀ sequence base, (parseForBase (toString ⟨baseA, sequence⟩) base).isSome ↔
        ∃ sequence', toString ⟨baseA, sequence⟩ = toString ⟨base, sequence'⟩ := by
  have hbases : baseA ≠ baseB := by
    rintro rfl
    exact hne (tryStringifyTableName_inj ha hb)
  have hnonempty : baseA ≠ "" := by
    rintro rfl
    have hencoded := (tryStringifyTableName_eq_ok_iff.mp ha).2
    simp [TableName.encoded] at hencoded
  refine ⟨hbases, fun sequence => ⟨toString_ne_encoded ha hb sequence, fun sequence' h => ?_⟩,
    fun sequence base => ?_⟩
  · exact hbases (congrArg tableId (toString_injective h))
  · have hparse : parseForBase (toString ⟨baseA, sequence⟩) base =
        if baseA = base then some ⟨baseA, sequence⟩ else none := parseForBase_toString hnonempty base
    rw [hparse]
    constructor
    · intro hsome
      split_ifs at hsome with hbase
      · exact ⟨sequence, by rw [← hbase]⟩
      · cases hsome
    · rintro ⟨sequence', h⟩
      rw [if_pos (congrArg tableId (toString_injective h))]
      rfl

theorem physicalNames_apart_underscores :
    "a__b_c" ≠ "a_b__c" ∧ toString ⟨"a__b_c", 1⟩ ≠ "a_b__c" ∧
      toString ⟨"a__b_c", 1⟩ ≠ toString ⟨"a_b__c", 1⟩ := by
  obtain ⟨hbases, hnames, -⟩ :=
    physicalNames_apart (a := ⟨"a_b", "c"⟩) (b := ⟨"a", "b_c"⟩) rfl rfl (by decide)
  exact ⟨hbases, (hnames 1).1, (hnames 1).2 1⟩

end SequencedBigQueryTableId

end Etl.BigQuery
