import Etl.Conversions.Numeric
import Etl.Error

/-! # Numeric texts

What Postgres prints for a finite numeric other than zero, and what the parser makes of it. The
digits on either side of the decimal point are grouped separately, so the stored groups are those of
the two parts without the zero groups at the ends (`fromStr_text`). They denote the number of the
text, and they are read back from the wire format.

Reference: `etl/src/conversions/numeric.rs` (`PgNumeric::from_str`).
-/

namespace Etl

open List

/-- A finite numeric other than zero as Postgres prints it, with up to 131072 digits before the
decimal point and up to 16383 digits after it. -/
structure NumericText where
  negative : Bool
  whole : List ℕ
  fraction : List ℕ
  digits_lt : ∀ d ∈ whole ++ fraction, d < 10
  whole_ne_nil : whole ≠ []
  no_redundant_zero : whole = [0] ∨ whole.head? ≠ some 0
  length_whole_le : whole.length ≤ 131072
  length_fraction_le : fraction.length ≤ 16383
  nonzero : ∃ d ∈ whole ++ fraction, d ≠ 0

def digitChars (digits : List ℕ) : List Char := digits.map Nat.digitChar

namespace NumericText

def unsigned (t : NumericText) : List Char :=
  digitChars t.whole ++ if t.fraction = [] then [] else '.' :: digitChars t.fraction

/-- The characters of the text. -/
def text (t : NumericText) : String :=
  String.ofList ((if t.negative then ['-'] else []) ++ t.unsigned)

def sign (t : NumericText) : Sign := if t.negative then .negative else .positive

/-- The number the text denotes. -/
def toRat (t : NumericText) : ℚ :=
  (if t.negative then -1 else 1) *
    (decimalValue (t.whole ++ t.fraction) / (10 : ℚ) ^ t.fraction.length)

end NumericText

/-- The number a numeric denotes, if it is finite. -/
def PgNumeric.toRat? : PgNumeric → Option ℚ
  | .value sign weight _ digits =>
    some ((if sign = .negative then -1 else 1) * groupsValue weight digits)
  | _ => none

/-! ## Reading the digits -/

variable {d : ℕ} {leading : ℕ} {groups digits : List ℤ}

theorem isDigit_digitChar (hd : d < 10) : d.digitChar.isDigit = true := by
  interval_cases d <;> decide

theorem toNat_digitChar (hd : d < 10) : d.digitChar.toNat - '0'.toNat = d := by
  interval_cases d <;> decide

theorem scanDecimal_digitChars {digits : List ℕ} (hdigits : ∀ d ∈ digits, d < 10)
    (st : DecimalScan) (rest : List Char) :
    scanDecimal st (digitChars digits ++ rest) =
      scanDecimal (digits.foldl DecimalScan.push st) rest := by
  induction digits generalizing st with
  | nil => rfl
  | cons d digits ih =>
    have hd := hdigits d mem_cons_self
    rw [digitChars, map_cons, cons_append, scanDecimal, if_pos (isDigit_digitChar hd),
      toNat_digitChar hd]
    exact ih (fun d' hd' => hdigits d' (mem_cons_of_mem _ hd')) _

theorem foldl_push_whole (digits : List ℕ) (st : DecimalScan) (hst : st.haveDecimalPoint = false) :
    digits.foldl DecimalScan.push st =
      { st with
        decimalDigits := st.decimalDigits ++ digits
        dweight := st.dweight + digits.length } := by
  induction digits generalizing st with
  | nil => simp
  | cons d digits ih =>
    rw [foldl_cons, DecimalScan.push, if_neg (by simp [hst]), ih]
    · simp
      ring
    · exact hst

theorem foldl_push_fraction (digits : List ℕ) (st : DecimalScan)
    (hst : st.haveDecimalPoint = true) :
    digits.foldl DecimalScan.push st =
      { st with
        decimalDigits := st.decimalDigits ++ digits
        dscale := st.dscale + digits.length } := by
  induction digits generalizing st with
  | nil => simp
  | cons d digits ih =>
    rw [foldl_cons, DecimalScan.push, if_pos hst, ih]
    · simp
      ring
    · exact hst

/-! ## The wire format -/

theorem readU16_toBeBytes {n : ℕ} (hn : n < 2 ^ 16) (rest : List UInt8) :
    readU16 (toBeBytes n ++ rest) = .ok (n, rest) := by
  rw [toBeBytes]
  simp only [cons_append, readU16, UInt8.toNat_ofNat']
  congr 2
  omega

theorem readI16_toBeBytes {z : ℤ} (hlow : -2 ^ 15 ≤ z) (hhigh : z < 2 ^ 15) (rest : List UInt8) :
    readI16 (toBeBytes z ++ rest) = .ok (z, rest) := by
  obtain ⟨n, hn⟩ := Int.eq_ofNat_of_zero_le (Int.emod_nonneg z (by decide : (2 ^ 16 : ℤ) ≠ 0))
  have hbytes : toBeBytes z = toBeBytes (n : ℤ) := by
    rw [toBeBytes, toBeBytes, ← hn, Int.emod_emod_of_dvd _ dvd_rfl]
  have hread : (n : ℤ).bmod (2 ^ 16) = z := by
    rw [Int.bmod_def]
    omega
  rw [readI16, hbytes, readU16_toBeBytes (by omega)]
  exact congrArg (fun z => Except.ok (z, rest)) hread

theorem readDigits_toBeBytes {digits : List ℤ}
    (hdigits : ∀ d ∈ digits, -2 ^ 15 ≤ d ∧ d < 2 ^ 15) :
    readDigits digits.length (digits.flatMap toBeBytes) = .ok digits := by
  induction digits with
  | nil => rfl
  | cons d digits ih =>
    obtain ⟨hd, hdigits⟩ := forall_mem_cons.mp hdigits
    simp [readDigits, readI16_toBeBytes hd.1 hd.2, ok_bind, ih hdigits]

theorem PgNumeric.fromSql_toSql {sign : Sign} {weight : ℤ} {scale : ℕ} {digits : List ℤ}
    (hweight : -2 ^ 15 ≤ weight ∧ weight < 2 ^ 15) (hscale : scale < 2 ^ 16)
    (hlength : digits.length < 2 ^ 16) (hdigits : ∀ d ∈ digits, -2 ^ 15 ≤ d ∧ d < 2 ^ 15) :
    ∃ bytes, (PgNumeric.value sign weight scale digits).toSql = some bytes ∧
      PgNumeric.fromSql bytes = .ok (.value sign weight scale digits) := by
  refine ⟨_, if_pos hlength, ?_⟩
  have hsign : sign.toU16 < 2 ^ 16 := by cases sign <;> decide
  simp only [fromSql, ok_bind, readU16_toBeBytes hlength, readI16_toBeBytes hweight.1 hweight.2,
    readU16_toBeBytes hsign, Sign.tryFrom_toU16, readU16_toBeBytes hscale,
    readDigits_toBeBytes hdigits]

namespace NumericText

variable (t : NumericText)

theorem whole_lt : ∀ d ∈ t.whole, d < 10 := fun d hd => t.digits_lt d (mem_append_left _ hd)

theorem fraction_lt : ∀ d ∈ t.fraction, d < 10 :=
  fun d hd => t.digits_lt d (mem_append_right _ hd)

theorem scanDecimal_unsigned :
    scanDecimal {} t.unsigned =
      .ok ({ decimalDigits := t.whole ++ t.fraction
             haveDecimalPoint := !t.fraction.isEmpty
             dweight := t.whole.length - 1
             dscale := t.fraction.length }, []) := by
  rw [unsigned, scanDecimal_digitChars t.whole_lt, foldl_push_whole _ _ rfl]
  by_cases hfraction : t.fraction = []
  · rw [if_pos hfraction, scanDecimal, hfraction]
    simp
    ring
  · have hfirst : (digitChars t.fraction).head? ≠ some '_' := by
      obtain ⟨d, fraction, hcons⟩ := exists_cons_of_ne_nil hfraction
      have hd := isDigit_digitChar (t.fraction_lt d (hcons ▸ mem_cons_self))
      rw [hcons]
      intro hunderscore
      rw [Option.some.inj hunderscore] at hd
      cases hd
    rw [if_neg hfraction, scanDecimal, if_neg (by decide), if_neg hfirst, ← append_nil (digitChars t.fraction),
      scanDecimal_digitChars t.fraction_lt, foldl_push_fraction _ _ rfl, scanDecimal]
    simp [hfraction]
    ring

/-- The text starts with a digit after its sign. -/
theorem exists_unsigned_eq_cons : ∃ d rest, d < 10 ∧ t.unsigned = d.digitChar :: rest := by
  obtain ⟨d, whole, hcons⟩ := exists_cons_of_ne_nil t.whole_ne_nil
  rw [unsigned, hcons]
  exact ⟨d, _, t.whole_lt d (hcons ▸ mem_cons_self), rfl⟩

theorem parseUnsigned_unsigned (sign : Sign) (hasExplicitSign : Bool) :
    parseUnsigned t.unsigned sign hasExplicitSign =
      convertToBase10000 (t.whole ++ t.fraction) (t.whole.length - 1) t.fraction.length sign := by
  obtain ⟨d, rest, hd, hcons⟩ := t.exists_unsigned_eq_cons
  have hdigit : peeksDigit t.unsigned = true := by
    rw [hcons]
    exact isDigit_digitChar hd
  have hpoint : d.digitChar ≠ '.' := by interval_cases d <;> decide
  have hscale : ¬ postgresNumericMaxScale < t.fraction.length :=
    Nat.not_lt.mpr t.length_fraction_le
  rw [parseUnsigned, parseNumericValue]
  · rw [hdigit, scanDecimal_unsigned]
    exact if_neg hscale
  · intro rest' hrest'
    rw [hcons] at hrest'
    exact hpoint (List.cons.inj hrest').1

theorem fromStr_text_eq_convert :
    PgNumeric.fromStr t.text =
      convertToBase10000 (t.whole ++ t.fraction) (t.whole.length - 1) t.fraction.length
        t.sign := by
  obtain ⟨d, rest, hd, hcons⟩ := t.exists_unsigned_eq_cons
  rw [PgNumeric.fromStr, text, String.toList_ofList, sign]
  cases t.negative with
  | true =>
    exact t.parseUnsigned_unsigned .negative true
  | false =>
    have hspace : isWhitespace d.digitChar = false := by interval_cases d <;> decide
    have hskip : skipWhitespace t.unsigned = t.unsigned := by
      rw [hcons, skipWhitespace, dropWhile_cons, if_neg (by simp [hspace])]
    rw [if_neg (by simp), if_neg (by simp), ← t.parseUnsigned_unsigned .positive false]
    split <;> simp_all

end NumericText

/-! ## Stored groups -/

/-- The groups that are left when zeros are removed at both ends. -/
structure Stripped (groups : List ℤ) (leading : ℕ) (digits : List ℤ) : Prop where
  split : ∃ trailing,
    groups = List.replicate leading 0 ++ (digits ++ List.replicate trailing 0)
  ne_nil : digits ≠ []
  head : digits.head? ≠ some 0
  last : digits.getLast? ≠ some 0

theorem Stripped.length_le (hstripped : Stripped groups leading digits) :
    leading + digits.length ≤ groups.length := by
  obtain ⟨trailing, hsplit⟩ := hstripped.split
  simp only [hsplit, length_append, length_replicate]
  omega

theorem Stripped.leading_lt (hstripped : Stripped groups leading digits) :
    leading < groups.length := by
  have hlength := hstripped.length_le
  have hpos := length_pos_of_ne_nil hstripped.ne_nil
  omega

theorem stripLeadingZeros_spec {groups : List ℤ} (hgroups : ∃ group ∈ groups, group ≠ 0) :
    ∃ first rest, first ≠ 0 ∧ stripLeadingZeros groups = first :: rest ∧
      groups = List.replicate (groups.takeWhile fun d => d = 0).length 0 ++ first :: rest := by
  induction groups with
  | nil => simp at hgroups
  | cons group groups ih =>
    by_cases hzero : group = 0
    · have hrest : ∃ group ∈ groups, group ≠ 0 := by simpa [hzero] using hgroups
      obtain ⟨first, rest, hfirst, hstrip, hsplit⟩ := ih hrest
      refine ⟨first, rest, hfirst, ?_, ?_⟩
      · obtain ⟨second, groups, rfl⟩ : ∃ second tail, groups = second :: tail := by
          cases groups with
          | nil => simp at hrest
          | cons second tail => exact ⟨second, tail, rfl⟩
        rw [stripLeadingZeros, if_pos hzero, hstrip]
      · rw [takeWhile_cons, if_pos (by simpa using hzero), length_cons,
          replicate_succ, cons_append, ← hsplit, hzero]
    · refine ⟨group, groups, hzero, ?_, ?_⟩
      · cases groups with
        | nil => rfl
        | cons second groups => rw [stripLeadingZeros, if_neg hzero]
      · rw [takeWhile_cons, if_neg (by simpa using hzero)]
        rfl

theorem stripped_of_exists_ne_zero {groups : List ℤ} (hgroups : ∃ group ∈ groups, group ≠ 0) :
    Stripped groups (groups.takeWhile fun d => d = 0).length
      (stripTrailingZeros (stripLeadingZeros groups)) := by
  obtain ⟨first, rest, hfirst, hleading, hsplit⟩ := stripLeadingZeros_spec hgroups
  obtain ⟨last, init, hlast, htrailing, hreverse⟩ :=
    stripLeadingZeros_spec ⟨first, mem_reverse.mpr (mem_cons_self (l := rest)), hfirst⟩
  generalize (List.takeWhile _ (first :: rest).reverse).length = trailing at hreverse
  have hdigits : stripTrailingZeros (stripLeadingZeros groups) = init.reverse ++ [last] := by
    rw [hleading, stripTrailingZeros, htrailing, reverse_cons]
  have hrest : first :: rest = init.reverse ++ [last] ++ List.replicate trailing 0 := by
    rw [← reverse_inj, hreverse]
    simp
  rw [hdigits]
  refine ⟨⟨trailing, by rw [← hrest, ← hsplit]⟩, by simp, ?_, by simpa using hlast⟩
  have hhead : (first :: rest).head? = (init.reverse ++ [last]).head? := by
    rw [hrest, List.head?_append_of_ne_nil _ (by simp)]
  rw [← hhead]
  simpa using hfirst

namespace NumericText

variable (t : NumericText)

def wholeCount : ℕ := (t.whole.length + 3) / 4

def fractionCount : ℕ := (t.fraction.length + 3) / 4

def wholeGroups : List ℤ := digitGroups (padFront t.whole)

def fractionGroups : List ℤ := digitGroups (padBack t.fraction)

theorem wholeCount_pos : 0 < t.wholeCount := by
  have hpos := length_pos_of_ne_nil t.whole_ne_nil
  rw [wholeCount]
  omega

theorem wholeCount_le : t.wholeCount ≤ 32768 := by
  have hle := t.length_whole_le
  rw [wholeCount]
  omega

theorem fractionCount_le : t.fractionCount ≤ 4096 := by
  have hle := t.length_fraction_le
  rw [fractionCount]
  omega

theorem length_wholeGroups : t.wholeGroups.length = t.wholeCount :=
  length_digitGroups (length_padFront _)

theorem length_fractionGroups : t.fractionGroups.length = t.fractionCount :=
  length_digitGroups (length_padBack _)

theorem groupWeight_eq : groupWeight (t.whole.length - 1) = t.wholeCount - 1 := by
  rw [groupWeight, wholeCount]
  omega

theorem paddedDigits_eq :
    paddedDigits (t.whole ++ t.fraction) (t.whole.length - 1) =
      padFront t.whole ++ padBack t.fraction := by
  have hoffset : (t.wholeCount - 1 + 1 : ℤ) * 4 - (t.whole.length - 1 + 1) =
      (4 * ((t.whole.length + 3) / 4) - t.whole.length : ℕ) := by
    rw [wholeCount]
    omega
  have hback : (((t.whole ++ t.fraction).length +
        (4 * ((t.whole.length + 3) / 4) - t.whole.length : ℕ) + 3) / 4 * 4 -
      ((t.whole ++ t.fraction).length +
        (4 * ((t.whole.length + 3) / 4) - t.whole.length : ℕ)) : ℤ).toNat =
      4 * ((t.fraction.length + 3) / 4) - t.fraction.length := by
    rw [length_append]
    omega
  rw [paddedDigits, groupWeight_eq, hoffset, hback, padFront, padBack]
  simp

theorem exists_group_ne_zero :
    ∃ group ∈ t.wholeGroups ++ t.fractionGroups, group ≠ 0 := by
  by_contra hzero
  push Not at hzero
  obtain ⟨d, hd, hne⟩ := t.nonzero
  refine hne ?_
  obtain hd | hd := mem_append.mp hd
  · refine eq_zero_of_digitGroups (length_padFront _) (fun group hgroup => ?_) d
      (mem_append_right _ hd)
    exact hzero group (mem_append_left _ hgroup)
  · refine eq_zero_of_digitGroups (length_padBack _) (fun group hgroup => ?_) d
      (mem_append_left _ hd)
    exact hzero group (mem_append_right _ hgroup)

/-- A text is parsed to its groups without the zeros at the ends. -/
theorem fromStr_text :
    ∃ leading digits, Stripped (t.wholeGroups ++ t.fractionGroups) leading digits ∧
      PgNumeric.fromStr t.text =
        .ok (.value t.sign (t.wholeCount - 1 - leading) t.fraction.length digits) := by
  have hgroups : digitGroups (paddedDigits (t.whole ++ t.fraction) (t.whole.length - 1)) =
      t.wholeGroups ++ t.fractionGroups := by
    rw [paddedDigits_eq, digitGroups_append (length_padFront _)]
    rfl
  have hstripped := stripped_of_exists_ne_zero t.exists_group_ne_zero
  refine ⟨_, _, hstripped, ?_⟩
  have hscale := t.length_fraction_le
  have hall : ¬ (t.wholeGroups ++ t.fractionGroups).all (fun d => d = 0) = true := by
    intro hzero
    obtain ⟨group, hgroup, hne⟩ := t.exists_group_ne_zero
    exact hne (by simpa using all_eq_true.mp hzero group hgroup)
  have hleading := hstripped.leading_lt
  rw [length_append, length_wholeGroups, length_fractionGroups] at hleading
  have hwhole := t.wholeCount_le
  have hfraction := t.fractionCount_le
  rw [fromStr_text_eq_convert, convertToBase10000, if_neg (by omega),
    if_neg (by simp [t.whole_ne_nil]), hgroups, if_neg hall, groupWeight_eq, if_neg (by omega)]

/-! ## The value -/

variable {t} {leading : ℕ} {digits : List ℤ}

theorem groupsValue_digits
    (hstripped : Stripped (t.wholeGroups ++ t.fractionGroups) leading digits) :
    groupsValue (t.wholeCount - 1 - leading) digits =
      decimalValue (t.whole ++ t.fraction) / (10 : ℚ) ^ t.fraction.length := by
  obtain ⟨trailing, hsplit⟩ := hstripped.split
  have hlength : (padFront t.whole ++ padBack t.fraction).length =
      4 * (t.wholeCount + t.fractionCount) := by
    rw [length_append, length_padFront, length_padBack, wholeCount, fractionCount]
    ring
  have hvalue : decimalValue (padFront t.whole ++ padBack t.fraction) =
      decimalValue (t.whole ++ t.fraction) *
        10 ^ (4 * t.fractionCount - t.fraction.length) := by
    rw [padFront, padBack, append_assoc, decimalValue_replicate_append, ← append_assoc,
      decimalValue_append, decimalValue_replicate_zero, length_replicate]
    rfl
  have hplaces : (10 : ℚ) ^ (4 * t.fractionCount - t.fraction.length) * 10 ^ t.fraction.length =
      10000 ^ t.fractionCount := by
    have hle : t.fraction.length ≤ 4 * t.fractionCount := by
      rw [fractionCount]
      omega
    rw [← pow_add, Nat.sub_add_cancel hle, pow_mul]
    norm_num
  calc groupsValue (t.wholeCount - 1 - leading) digits
      = groupsValue (t.wholeCount - 1) (digitGroups (padFront t.whole ++ padBack t.fraction)) := by
        rw [digitGroups_append (length_padFront _)]
        change _ = groupsValue _ (t.wholeGroups ++ t.fractionGroups)
        rw [hsplit, groupsValue_replicate_append, groupsValue_append_replicate]
    _ = decimalValue (t.whole ++ t.fraction) *
          (10 : ℚ) ^ (4 * t.fractionCount - t.fraction.length) /
          (10000 : ℚ) ^ t.fractionCount := by
        have hweight : (t.wholeCount - 1 + 1 - (t.wholeCount + t.fractionCount : ℕ) : ℤ) =
            -(t.fractionCount : ℤ) := by
          push_cast
          ring
        rw [groupsValue_digitGroups hlength, hvalue, hweight, zpow_neg, zpow_natCast]
        push_cast
        rw [div_eq_mul_inv]
    _ = decimalValue (t.whole ++ t.fraction) / (10 : ℚ) ^ t.fraction.length := by
        rw [← hplaces]
        field_simp

theorem mem_digits_range
    (hstripped : Stripped (t.wholeGroups ++ t.fractionGroups) leading digits) :
    ∀ d ∈ digits, 0 ≤ d ∧ d < 10000 := by
  obtain ⟨trailing, hsplit⟩ := hstripped.split
  intro d hd
  have hmem : d ∈ t.wholeGroups ++ t.fractionGroups := by
    rw [hsplit]
    exact mem_append_right _ (mem_append_left _ hd)
  obtain hd | hd := mem_append.mp hmem
  · exact mem_digitGroups_range (length_padFront _) (mem_padFront_lt t.whole_lt) d hd
  · exact mem_digitGroups_range (length_padBack _) (mem_padBack_lt t.fraction_lt) d hd

/-- The parsed numeric is read back from its bytes. -/
theorem fromSql_toSql_digits
    (hstripped : Stripped (t.wholeGroups ++ t.fractionGroups) leading digits) :
    ∃ bytes,
      (PgNumeric.value t.sign (t.wholeCount - 1 - leading) t.fraction.length digits).toSql =
        some bytes ∧
      PgNumeric.fromSql bytes =
        .ok (.value t.sign (t.wholeCount - 1 - leading) t.fraction.length digits) := by
  have hlength := hstripped.length_le
  have hleading := hstripped.leading_lt
  rw [length_append, length_wholeGroups, length_fractionGroups] at hlength hleading
  have hwhole := t.wholeCount_le
  have hfraction := t.fractionCount_le
  have hscale := t.length_fraction_le
  refine PgNumeric.fromSql_toSql (by omega) (by omega) (by omega) fun d hd => ?_
  have hrange := mem_digits_range hstripped d hd
  omega

end NumericText

end Etl
