import Etl.Common.DigitGroups
import Etl.Destinations.BigQuery.Encoding
import Etl.Destinations.ClickHouse.Cdc
import Etl.Destinations.DuckLake.Batches
import Etl.Destinations.Snowflake.Batch

/-! # Sequence keys as texts and numbers

Destinations compare sequence keys as texts, as pairs, as numbers of 128 bits and, at BigQuery,
section by section as hexadecimal numbers. All of them are one order, and an offset token is
decoded to the pair it was made from (`sequenceKeys_agree`).

Reference: `etl-destinations/src/snowflake/streaming/offset_token.rs`.
-/

namespace Etl

open List BigQuery

/-- `char::to_digit` at 16. -/
def hexDigit (c : Char) : Option ℕ :=
  if c.isDigit then some (c.toNat - '0'.toNat)
  else if 'a' ≤ c.toLower ∧ c.toLower ≤ 'f' then some (c.toLower.toNat - 'a'.toNat + 10)
  else none

/-- Reads hexadecimal digits behind a value already read. -/
def parseHexDigits : List Char → ℕ → Except String ℕ
  | [], value => .ok value
  | c :: chars, value =>
    match hexDigit c with
    | none => .error "invalid digit found in string"
    | some digit =>
      if 16 * value + digit < 2 ^ 64 then parseHexDigits chars (16 * value + digit)
      else .error "number too large to fit in target type"

/-- `u64::from_str_radix` at 16; a plus sign is accepted. -/
def fromStrRadix16 (chars : List Char) : Except String ℕ :=
  if chars = [] then .error "cannot parse integer from empty string"
  else parseHexDigits (if chars.head? = some '+' ∧ 1 < chars.length then chars.tail else chars) 0

/-- The position an offset token was made from. -/
def Snowflake.OffsetToken.decode (token : OffsetToken) : Except Error (PgLsn × ℕ) :=
  match token.toList.dropWhile (· ≠ '/') with
  | [] => .error (.channel ("invalid offset token format: " ++ token))
  | _ :: ordHex => do
    let lsn ← (fromStrRadix16 (token.toList.takeWhile (· ≠ '/'))).mapError
      fun e => .channel ("invalid LSN hex in offset token: " ++ e)
    let ord ← (fromStrRadix16 ordHex).mapError
      fun e => .channel ("invalid ordinal hex in offset token: " ++ e)
    return (lsn, ord)

/-- How BigQuery reads a sequence number: the sections between slashes, each in hexadecimal. -/
def BigQuery.hexSections (text : String) : List (Option ℕ) :=
  (text.toList.splitOn '/').map fun hex => (fromStrRadix16 hex).toOption

theorem hexDigit_digitChar : ∀ d < 16, hexDigit d.digitChar = some d := by decide

theorem digitChar_lt_iff : ∀ d < 16, ∀ e < 16, (d.digitChar < e.digitChar ↔ d < e) ∧
    (d.digitChar = e.digitChar ↔ d = e) := by decide

theorem isSome_hexDigit {chars : List Char} {value result : ℕ}
    (h : parseHexDigits chars value = .ok result) : ∀ c ∈ chars, (hexDigit c).isSome = true := by
  fun_induction parseHexDigits chars value <;> simp_all

/-- The number in at least as many digits. -/
def hexPad (width n : ℕ) : List Char := (Nat.toDigits 16 n).leftpad width '0'

theorem hexPad_one {n : ℕ} (hn : n < 16) : hexPad 1 n = [n.digitChar] := by
  rw [hexPad, Nat.toDigits_of_lt_base hn]
  rfl

theorem hexPad_succ (width n : ℕ) :
    hexPad (width + 2) n = hexPad (width + 1) (n / 16) ++ [(n % 16).digitChar] := by
  rw [hexPad, hexPad, ← leftpad_toDigits_succ (by decide) (Nat.mod_lt _ (by decide))
    (Nat.succ_pos _), Nat.div_add_mod]

theorem parseHexDigits_hexPad {width n : ℕ} (hn : n < 16 ^ (width + 1)) (hfits : n < 2 ^ 64)
    (rest : List Char) :
    parseHexDigits (hexPad (width + 1) n ++ rest) 0 = parseHexDigits rest n := by
  induction width generalizing n rest with
  | zero => simp_all [hexPad_one, parseHexDigits, hexDigit_digitChar]
  | succ width ih =>
    have hdigit := hexDigit_digitChar (n % 16) (Nat.mod_lt _ (by decide))
    rw [hexPad_succ, append_assoc, @ih (n / 16) (by omega) (by omega)]
    simp only [cons_append, nil_append, parseHexDigits, hdigit, Nat.div_add_mod, if_pos hfits]

/-- Texts that begin with a number are compared by it first. -/
theorem hexPad_append_lt_iff {width m n : ℕ} (hm : m < 16 ^ (width + 1))
    (hn : n < 16 ^ (width + 1)) (s t : List Char) :
    hexPad (width + 1) m ++ s < hexPad (width + 1) n ++ t ↔ m < n ∨ m = n ∧ s < t := by
  induction width generalizing m n s t with
  | zero => simp [hexPad_one hm, hexPad_one hn, cons_lt_cons_iff, digitChar_lt_iff m hm n hn]
  | succ width ih =>
    have hlast := digitChar_lt_iff (m % 16) (Nat.mod_lt _ (by decide)) (n % 16)
      (Nat.mod_lt _ (by decide))
    rw [hexPad_succ, hexPad_succ, append_assoc, append_assoc, @ih (m / 16) (n / 16) (by omega)
      (by omega)]
    by_cases hst : s < t <;> simp [cons_lt_cons_iff, hlast, hst] <;> omega

section Fits

variable (x y z : UInt64)

theorem parseHexDigits_toNat : parseHexDigits (hexPad 16 x.toNat) 0 = .ok x.toNat := by
  simpa [parseHexDigits] using @parseHexDigits_hexPad 15 _ x.toNat_lt x.toNat_lt []

theorem slash_notMem_hexPad : '/' ∉ hexPad 16 x.toNat := fun hmem =>
  absurd (isSome_hexDigit (parseHexDigits_toNat x) _ hmem) (by decide)

theorem fromStrRadix16_hexPad : fromStrRadix16 (hexPad 16 x.toNat) = .ok x.toNat := by
  have hplus : (hexPad 16 x.toNat).head? ≠ some '+' := fun h =>
    absurd (isSome_hexDigit (parseHexDigits_toNat x) _ (mem_of_mem_head? h)) (by decide)
  have hne : hexPad 16 x.toNat ≠ [] := by simp [hexPad, leftpad]
  rw [fromStrRadix16, if_neg hne, if_neg fun h => hplus h.1, parseHexDigits_toNat]

theorem toList_display : (EventSequenceKey.display ⟨x.toNat, y.toNat⟩).toList =
    hexPad 16 x.toNat ++ '/' :: hexPad 16 y.toNat := by
  simp [EventSequenceKey.display, hex16, hexPad]

theorem hexSections_sequenceText :
    hexSections (sequenceText (bigquerySequenceKey ⟨x.toNat, y.toNat⟩ z.toNat)) =
      [some x.toNat, some y.toNat, some z.toNat] := by
  have htext : (sequenceText (bigquerySequenceKey ⟨x.toNat, y.toNat⟩ z.toNat)).toList =
      hexPad 16 x.toNat ++ '/' :: (hexPad 16 y.toNat ++ '/' :: hexPad 16 z.toNat) := by
    simp [sequenceText, bigquerySequenceKey, hex16, hexPad]
  rw [hexSections, htext, splitOn_append_cons_self_of_not_mem (slash_notMem_hexPad x),
    splitOn_append_cons_self_of_not_mem (slash_notMem_hexPad y),
    splitOn_eq_singleton (slash_notMem_hexPad z)]
  simp only [map_cons, map_nil, fromStrRadix16_hexPad]
  rfl

theorem decode_new : (Snowflake.OffsetToken.new x.toNat y.toNat).decode =
    .ok (x.toNat, y.toNat) := by
  have hplain : ∀ c ∈ hexPad 16 x.toNat, decide (c ≠ '/') = true := fun c hc =>
    decide_eq_true fun heq => slash_notMem_hexPad x (heq ▸ hc)
  rw [Snowflake.OffsetToken.decode, Snowflake.OffsetToken.new, toList_display,
    dropWhile_append_of_pos hplain, takeWhile_append_of_pos hplain]
  simp [fromStrRadix16_hexPad]
  rfl

end Fits

/-- For all keys and internal ordinals of 64 bits, the printed keys, the pairs, the packed numbers
and, before the internal ordinals, the keys of BigQuery are in one order, and an offset token is
decoded to the pair it was made from. -/
theorem sequenceKeys_agree (commitLsn txOrdinal internal commitLsn' txOrdinal' internal' : UInt64) :
    let a : EventSequenceKey := ⟨commitLsn.toNat, txOrdinal.toNat⟩
    let b : EventSequenceKey := ⟨commitLsn'.toNat, txOrdinal'.toNat⟩
    (a.display.toList < b.display.toList ↔ a.Precedes b) ∧
      (DuckLake.compareSequenceKeys a b = .lt ↔ a.Precedes b) ∧
      (a.asU128 < b.asU128 ↔ a.Precedes b) ∧
      (hexSections (sequenceText (bigquerySequenceKey a internal.toNat)) <
          hexSections (sequenceText (bigquerySequenceKey b internal'.toNat)) ↔
        a.Precedes b ∨ a = b ∧ internal < internal') ∧
      (Snowflake.OffsetToken.new a.commitLsn a.txOrdinal).decode =
        .ok (a.commitLsn, a.txOrdinal) := by
  refine ⟨?_, ?_, ClickHouse.asU128_lt_iff txOrdinal.toNat_lt txOrdinal'.toNat_lt, ?_,
    decode_new _ _⟩
  · have hordinals := @hexPad_append_lt_iff 15 _ _ txOrdinal.toNat_lt txOrdinal'.toNat_lt [] []
    rw [toList_display, toList_display,
      @hexPad_append_lt_iff 15 _ _ commitLsn.toNat_lt commitLsn'.toNat_lt]
    simp_all [EventSequenceKey.Precedes]
  · rw [DuckLake.compareSequenceKeys_eq_lt_iff, EventSequenceKey.lt_iff_precedes]
  · rw [hexSections_sequenceText, hexSections_sequenceText]
    simp [cons_lt_cons_iff, EventSequenceKey.Precedes, UInt64.lt_iff_toNat_lt]
    tauto

end Etl
