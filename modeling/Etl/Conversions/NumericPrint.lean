import Mathlib.Data.List.GetD
import Etl.Conversions.NumericText

/-! # Printing numerics

The printer goes through the stored groups by an index of 16 bits. The groups before the decimal
point are printed as the digits of the text. The groups after it are printed up to the first whose
index does not fit, and as zeros from there on (`formatFraction_eq`), so that a text round-trips
exactly when those groups are zeros.

Reference: `etl/src/conversions/numeric.rs` (`format_numeric_value`).
-/

namespace Etl

open List

/-! ## Groups -/

theorem formatGroup_chunkValue {a b c d : ℕ} (hdigits : ∀ x ∈ [a, b, c, d], x < 10) :
    formatGroup (chunkValue [a, b, c, d]) = digitChars [a, b, c, d] := by
  rw [chunkValue_four]
  exact leftpad_toDigits_decimalValue (cons_ne_nil _ _) hdigits

theorem flatMap_formatGroup {n : ℕ} {digits : List ℕ} (hlength : digits.length = 4 * n)
    (hdigits : ∀ d ∈ digits, d < 10) :
    (digitGroups digits).flatMap formatGroup = digitChars digits := by
  induction n generalizing digits with
  | zero =>
    obtain rfl := eq_nil_of_length_eq_zero hlength
    rfl
  | succ n ih =>
    obtain ⟨a, b, c, d, rest, rfl, hrest⟩ := exists_four_of_length hlength
    have hfirst : ∀ x ∈ [a, b, c, d], x < 10 := fun x hx =>
      hdigits x (mem_append_left rest hx)
    rw [digitGroups_cons, flatMap_cons, formatGroup_chunkValue hfirst,
      ih hrest fun x hx => hdigits x (mem_append_right [a, b, c, d] hx)]
    rfl

/-! ## Before the decimal point -/

variable {digits : List ℤ} {whole : List ℕ} {d : ℤ} {leading : ℕ}

theorem formatWhole_cons {first : ℤ} {rest : List ℤ}
    (hdigits : ∀ i ≤ rest.length, digits.getD i 0 = (first :: rest).getD i 0)
    (hfirst : (formatGroup first).dropWhile (fun c => c = '0') ≠ []) :
    formatWhole rest.length digits =
      (formatGroup first).dropWhile (fun c => c = '0') ++ rest.flatMap formatGroup := by
  have hrest : (List.range rest.length).map (fun i => digits.getD (i + 1) 0) = rest := by
    refine ext_getElem (by simp) fun i _ hi => ?_
    rw [getElem_map, getElem_range, hdigits (i + 1) hi, getD_cons_succ,
      getD_eq_getElem?_getD, List.getElem?_eq_getElem hi, Option.getD_some]
  have hflat : rest.flatMap formatGroup =
      (List.range rest.length).flatMap fun i => formatGroup (digits.getD (i + 1) 0) := by
    rw [← flatMap_map (fun i => digits.getD (i + 1) 0) formatGroup, hrest]
  have hfront : (if (formatGroup first).dropWhile (fun c => c = '0') = [] then ['0']
      else (formatGroup first).dropWhile (fun c => c = '0')) =
      (formatGroup first).dropWhile (fun c => c = '0') := if_neg hfirst
  rw [formatWhole, Int.toNat_natCast_add_one, range_succ_eq_map, flatMap_cons,
    flatMap_map, if_pos rfl, hdigits 0 (Nat.zero_le _), getD_cons_zero]
  simp only [hfront, Nat.succ_ne_zero, if_false, hflat]

theorem digitChar_eq_zero_iff {d : ℕ} (hd : d < 10) : d.digitChar = '0' ↔ d = 0 := by
  interval_cases d <;> decide

theorem dropWhile_digitChars_padFront (hhead : whole.head? ≠ some 0) (hwhole : ∀ d ∈ whole, d < 10) :
    (digitChars (padFront whole)).dropWhile (fun c => c = '0') = digitChars whole := by
  rw [padFront, digitChars, map_append, dropWhile_append_of_pos (by simp)]
  cases whole with
  | nil => rfl
  | cons d whole =>
    have hd : d.digitChar ≠ '0' := by
      simpa using hhead
    rw [map_cons, dropWhile_cons_of_neg (by simpa using hd)]
    rfl

theorem formatWhole_eq (hne : whole ≠ []) (hhead : whole.head? ≠ some 0)
    (hwhole : ∀ d ∈ whole, d < 10)
    (hdigits : ∀ i < (whole.length + 3) / 4,
      digits.getD i 0 = (digitGroups (padFront whole)).getD i 0) :
    formatWhole (((whole.length + 3) / 4 : ℕ) - 1) digits = digitChars whole := by
  have hpos := length_pos_of_ne_nil hne
  have hcount : (padFront whole).length = 4 * ((whole.length + 3) / 4 - 1 + 1) := by
    rw [length_padFront]
    omega
  have hdrop := dropWhile_digitChars_padFront hhead hwhole
  have hlt := mem_padFront_lt hwhole
  obtain ⟨a, b, c, d, rest, hpad, hrest⟩ := exists_four_of_length hcount
  rw [hpad] at hdigits hdrop hlt
  have hfirst := formatGroup_chunkValue fun x hx => hlt x (mem_append_left rest hx)
  have hsplit : digitChars (a :: b :: c :: d :: rest) =
      digitChars [a, b, c, d] ++ digitChars rest := rfl
  rw [hsplit, dropWhile_append] at hdrop
  -- The first group is not zero: the digits after it are too few.
  have hnonzero : (digitChars [a, b, c, d]).dropWhile (fun c => c = '0') ≠ [] := by
    intro hzero
    rw [hzero, isEmpty_nil, if_pos rfl] at hdrop
    have hle := (dropWhile_sublist (fun c => c = '0') (l := digitChars rest)).length_le
    rw [hdrop, digitChars, digitChars, length_map, length_map] at hle
    omega
  rw [if_neg (by simpa using hnonzero)] at hdrop
  have hgroup : ((whole.length + 3) / 4 : ℕ) - 1 = ((digitGroups rest).length : ℤ) := by
    rw [length_digitGroups hrest]
    omega
  have hgroups : ∀ i ≤ (digitGroups rest).length,
      digits.getD i 0 = (chunkValue [a, b, c, d] :: digitGroups rest).getD i 0 := by
    intro i hi
    exact hdigits i (by omega)
  rw [hgroup, formatWhole_cons hgroups (by rwa [hfirst]), hfirst, flatMap_formatGroup hrest, hdrop]
  exact fun x hx => hlt x (mem_append_right [a, b, c, d] hx)

/-! ## After the decimal point -/

/-- From an index below zero on, zeros are printed. -/
theorem formatFraction_of_neg {scale : ℕ} (hlow : -2 ^ 15 ≤ d) (hneg : d + scale < 0) :
    formatFraction digits scale d = List.replicate scale '0' := by
  have hzero {d : ℤ} (hd : d < 0) :
      formatGroup (digitAt digits d) = List.replicate 4 '0' := by
    rw [digitAt, if_neg (by omega)]
    decide
  induction scale, d using formatFraction.induct with
  | case1 scale d ih =>
    have hnext : (d + 1).bmod (2 ^ 16) = d + 1 := Int.bmod_eq_of_le (by omega) (by omega)
    rw [hnext] at ih
    rw [formatFraction, hzero (by omega), hnext, ih (by omega) (by omega)]
    rfl
  | case2 scale d hscale =>
    have hlt : scale < 4 := by
      by_contra hle
      exact hscale (scale - 4) (by omega)
    rw [formatFraction, hzero (by omega), take_replicate, min_eq_left (by omega)]
    exact hscale

/-- The digits after the decimal point are printed as long as the index of their group is below
`2 ^ 15`, and as zeros after that. -/
theorem formatFraction_eq {fraction : List ℕ} (hfraction : ∀ d ∈ fraction, d < 10)
    (hlength : fraction.length < 2 ^ 15) (hlow : -2 ^ 15 ≤ d) (hhigh : d < 2 ^ 15)
    (hdigits : ∀ j : ℕ, digitAt digits (d + j) = (digitGroups (padBack fraction)).getD j 0) :
    formatFraction digits fraction.length d =
      digitChars (fraction.take (4 * (2 ^ 15 - d).toNat)) ++
        List.replicate (fraction.length - 4 * (2 ^ 15 - d).toNat) '0' := by
  induction fraction using chunksOfFour.induct generalizing d with
  | case1 a b c e rest ih =>
    have hgroup : formatGroup (digitAt digits d) = digitChars [a, b, c, e] := by
      have hfirst := hdigits 0
      rw [Int.natCast_zero, add_zero, padBack_cons, digitGroups_cons, getD_cons_zero]
        at hfirst
      rw [hfirst]
      exact formatGroup_chunkValue fun x hx => hfraction x (mem_append_left rest hx)
    have htake : (digitChars [a, b, c, e]).take 4 = digitChars [a, b, c, e] := rfl
    simp only [length_cons] at hlength ⊢
    rw [formatFraction, hgroup, htake]
    by_cases hlast : d + 1 < 2 ^ 15
    · have hnext : (d + 1).bmod (2 ^ 16) = d + 1 := Int.bmod_eq_of_le (by omega) (by omega)
      have hrest : ∀ j : ℕ,
          digitAt digits (d + 1 + j) = (digitGroups (padBack rest)).getD j 0 := by
        intro j
        have hj := hdigits (j + 1)
        rw [padBack_cons, digitGroups_cons, getD_cons_succ] at hj
        rw [← hj]
        congr 1
        push_cast
        ring
      have hcount : 4 * (2 ^ 15 - d).toNat = 4 * (2 ^ 15 - (d + 1)).toNat + 4 := by omega
      rw [hnext, ih (fun x hx => hfraction x (mem_append_right [a, b, c, e] hx)) (by omega)
        (by omega) hlast hrest, hcount]
      simp [digitChars]
    · -- The next index does not fit: it is negative from here on.
      obtain rfl : d = 2 ^ 15 - 1 := by omega
      have hnext : (2 ^ 15 - 1 + 1 : ℤ).bmod (2 ^ 16) = -2 ^ 15 := by decide
      rw [formatFraction_of_neg (by omega) (by omega)]
      simp
  | case2 => simp [formatFraction, digitChars]
  | case3 short hlong hne =>
    have hshort : short.length < 4 := by
      rcases short with _ | ⟨a, _ | ⟨b, _ | ⟨c, _ | ⟨e, rest⟩⟩⟩⟩
      on_goal 5 => exact (hlong a b c e rest rfl).elim
      all_goals simp
    have hpos := length_pos_of_ne_nil hne
    have hpadded : (padBack short).length = 4 := by
      rw [length_padBack]
      omega
    have hgroup : formatGroup (digitAt digits d) = digitChars (padBack short) := by
      have hfirst := hdigits 0
      rw [Int.natCast_zero, add_zero] at hfirst
      have hlt := mem_padBack_lt hfraction
      obtain ⟨a, b, c, e, hpad⟩ := length_eq_four.mp hpadded
      have hvalue : (digitGroups [a, b, c, e]).getD 0 0 = chunkValue [a, b, c, e] := rfl
      rw [hpad] at hfirst hlt ⊢
      rw [hfirst, hvalue, formatGroup_chunkValue hlt]
    have htake : (digitChars (padBack short)).take short.length = digitChars short := by
      rw [digitChars, padBack, map_append, take_left' (length_map _)]
      rfl
    have hcount : short.length ≤ 4 * (2 ^ 15 - d).toNat := by omega
    rw [formatFraction, hgroup, htake, take_of_length_le hcount,
      Nat.sub_eq_zero_of_le hcount, replicate_zero, append_nil]
    intro n hn
    omega

/-! ## Printing a text -/

theorem Stripped.digitAt_eq {groups digits : List ℤ} (hstripped : Stripped groups leading digits)
    (i : ℕ) :
    digitAt digits (i - leading) = groups.getD i 0 := by
  obtain ⟨trailing, rfl⟩ := hstripped.split
  rw [digitAt]
  by_cases hi : leading ≤ i
  · have hindex : ((i : ℤ) - leading).toNat = i - leading := by omega
    rw [if_pos (by omega), hindex, getD_append_right _ _ _ _ (by simpa using hi), length_replicate]
    by_cases hdigit : i - leading < digits.length
    · rw [getD_append _ _ _ _ hdigit]
    · rw [getD_eq_default _ _ (by omega), getD_append_right _ _ _ _ (by omega)]
      simp
  · rw [if_neg (by omega), getD_append _ _ _ _ (by simpa using hi)]
    simp

theorem Stripped.head?_eq_zero_iff {groups digits : List ℤ}
    (hstripped : Stripped groups leading digits) : groups.head? = some 0 ↔ 0 < leading := by
  obtain ⟨trailing, rfl⟩ := hstripped.split
  cases leading with
  | zero =>
    rw [replicate_zero, nil_append, List.head?_append_of_ne_nil _ hstripped.ne_nil]
    simp [hstripped.head]
  | succ leading => simp [replicate_succ]

namespace NumericText

variable {t : NumericText} {leading : ℕ} {digits : List ℤ}

theorem digitAt_fraction
    (hstripped : Stripped (t.wholeGroups ++ t.fractionGroups) leading digits) (j : ℕ) :
    digitAt digits (t.wholeCount - leading + j) = t.fractionGroups.getD j 0 := by
  have hindex : (t.wholeCount - leading + j : ℤ) = (t.wholeCount + j : ℕ) - leading := by
    push_cast
    ring
  rw [hindex, hstripped.digitAt_eq, getD_append_right _ _ _ _ (by simp [length_wholeGroups]),
    length_wholeGroups, Nat.add_sub_cancel_left]

theorem head?_groups_eq_zero_iff :
    (t.wholeGroups ++ t.fractionGroups).head? = some 0 ↔ t.whole = [0] := by
  have hne : t.wholeGroups ≠ [] := by
    rw [← length_pos_iff, length_wholeGroups]
    exact t.wholeCount_pos
  rw [List.head?_append_of_ne_nil _ hne]
  constructor
  · intro hgroup
    refine t.no_redundant_zero.resolve_right fun hhead => hhead ?_
    obtain ⟨first, whole, hwhole⟩ := exists_cons_of_ne_nil t.whole_ne_nil
    have hcount : (padFront t.whole).length = 4 * (t.wholeCount - 1 + 1) := by
      rw [length_padFront, Nat.sub_add_cancel t.wholeCount_pos]
      rfl
    obtain ⟨a, b, c, d, rest, hpad, -⟩ := exists_four_of_length hcount
    rw [wholeGroups, hpad] at hgroup
    have hzero : ∀ x ∈ [a, b, c, d], x = 0 :=
      eq_zero_of_digitGroups (n := 1) rfl
        (by simpa [digitGroups, chunksOfFour] using hgroup)
    -- At most three zeros are in front of the first digit, so it is in the first group.
    have hmem : first ∈ (padFront t.whole).take 4 := by
      obtain ⟨k, hk⟩ : ∃ k, 4 - (4 * ((t.whole.length + 3) / 4) - t.whole.length) = k + 1 :=
        ⟨3 - (4 * ((t.whole.length + 3) / 4) - t.whole.length), by omega⟩
      rw [padFront, take_append, length_replicate, hk, hwhole]
      simp
    rw [hpad] at hmem
    rw [hwhole, hzero first hmem, List.head?_cons]
  · intro hzero
    rw [wholeGroups, hzero]
    decide

theorem format_whole (hstripped : Stripped (t.wholeGroups ++ t.fractionGroups) leading digits) :
    (if (t.wholeCount - 1 - leading : ℤ) < 0 then ['0']
      else formatWhole (t.wholeCount - 1 - leading) digits) = digitChars t.whole := by
  have hleading := hstripped.head?_eq_zero_iff.symm.trans head?_groups_eq_zero_iff
  have hpos := t.wholeCount_pos
  by_cases hzero : t.whole = [0]
  · have hcount : t.wholeCount = 1 := by
      rw [wholeCount, hzero]
      rfl
    have hnonneg := hleading.mpr hzero
    rw [if_pos (by omega), hzero]
    rfl
  · obtain rfl : leading = 0 := Nat.eq_zero_of_not_pos (mt hleading.mp hzero)
    rw [if_neg (by omega), Int.natCast_zero, Int.sub_zero]
    refine formatWhole_eq t.whole_ne_nil (t.no_redundant_zero.resolve_left hzero) t.whole_lt
      fun i hi => ?_
    have hdigit := hstripped.digitAt_eq i
    rw [getD_append _ _ _ _ (by rwa [length_wholeGroups])] at hdigit
    rw [← wholeGroups, ← hdigit, digitAt]
    simp

/-- The digits after the decimal point are printed up to the last group with a 16-bit index. -/
theorem format_fraction
    (hstripped : Stripped (t.wholeGroups ++ t.fractionGroups) leading digits) :
    formatFraction digits t.fraction.length
        ((t.wholeCount - 1 - leading + 1 : ℤ).bmod (2 ^ 16)) =
      digitChars (t.fraction.take (4 * (2 ^ 15 - t.wholeCount))) ++
        List.replicate (t.fraction.length - 4 * (2 ^ 15 - t.wholeCount)) '0' := by
  have hleading := hstripped.head?_eq_zero_iff.symm.trans head?_groups_eq_zero_iff
  have hlt := hstripped.leading_lt
  rw [length_append, length_wholeGroups, length_fractionGroups] at hlt
  have hfraction := t.fractionCount_le
  have hwhole := t.wholeCount_le
  have hlength := t.length_fraction_le
  have hcount : 0 < leading → t.wholeCount = 1 := by
    intro hpos
    rw [wholeCount, hleading.mp hpos]
    rfl
  rw [show (t.wholeCount - 1 - leading + 1 : ℤ) = t.wholeCount - leading by ring]
  by_cases hlast : (t.wholeCount - leading : ℤ) < 2 ^ 15
  · have hindex : (t.wholeCount - leading : ℤ).bmod (2 ^ 16) = t.wholeCount - leading :=
      Int.bmod_eq_of_le (by omega) (by omega)
    rw [hindex, formatFraction_eq t.fraction_lt (by omega) (by omega) hlast
      (digitAt_fraction hstripped)]
    rcases Nat.eq_zero_or_pos leading with rfl | hpos
    · rw [show (2 ^ 15 - (t.wholeCount - (0 : ℕ)) : ℤ).toNat = 2 ^ 15 - t.wholeCount by omega]
    · -- Below one, all digits fit.
      rw [take_of_length_le (by omega), take_of_length_le (by omega),
        Nat.sub_eq_zero_of_le (by omega), Nat.sub_eq_zero_of_le (by omega)]
  · -- The index of the first group after the point is already out of range.
    obtain rfl : leading = 0 := by
      by_contra hpos
      omega
    have hfull : t.wholeCount = 2 ^ 15 := by omega
    have hindex : ((2 ^ 15 : ℕ) - (0 : ℕ) : ℤ).bmod (2 ^ 16) = -2 ^ 15 := by decide
    rw [hfull, formatFraction_of_neg (by omega) (by omega)]
    simp [digitChars]

/-- The groups whose index does not fit into 16 bits when the text is printed are zero. -/
def IndexFits (t : NumericText) : Prop :=
  ∀ d ∈ t.fraction.drop (4 * (2 ^ 15 - t.wholeCount)), d = 0

instance (t : NumericText) : Decidable t.IndexFits :=
  inferInstanceAs (Decidable (∀ d ∈ t.fraction.drop (4 * (2 ^ 15 - t.wholeCount)), d = 0))

/-- A digit sequence with zeros from some place on is printed right exactly when they are zeros. -/
theorem digitChars_take_append_eq_iff {digits : List ℕ} (hdigits : ∀ d ∈ digits, d < 10) (n : ℕ) :
    digitChars (digits.take n) ++ List.replicate (digits.length - n) '0' = digitChars digits ↔
      ∀ d ∈ digits.drop n, d = 0 := by
  have hsplit : digitChars digits = digitChars (digits.take n) ++ digitChars (digits.drop n) := by
    rw [digitChars, digitChars, digitChars, ← map_append, take_append_drop]
  rw [hsplit, append_cancel_left_eq, ← length_drop, eq_comm, digitChars,
    eq_replicate_iff, length_map, and_iff_right rfl, forall_mem_map]
  refine forall₂_congr fun d hd => digitChar_eq_zero_iff ?_
  exact hdigits d (mem_of_mem_drop hd)

/-- A text is printed as it was exactly when the indices of its groups fit. -/
theorem display_eq_text_iff
    (hstripped : Stripped (t.wholeGroups ++ t.fractionGroups) leading digits) :
    (PgNumeric.value t.sign (t.wholeCount - 1 - leading) t.fraction.length digits).display =
        t.text ↔
      t.IndexFits := by
  have hsign : (if t.sign = .negative then ['-'] else []) =
      if t.negative = true then ['-'] else [] := by
    rw [sign]
    cases t.negative <;> rfl
  rw [PgNumeric.display, text, String.ofList_inj, formatNumericValue,
    if_neg hstripped.ne_nil, hsign, append_assoc, append_cancel_left_eq,
    format_whole hstripped, unsigned, append_cancel_left_eq, format_fraction hstripped,
    IndexFits]
  by_cases hfraction : t.fraction = []
  · simp [hfraction]
  · rw [if_pos (length_pos_of_ne_nil hfraction), if_neg hfraction, List.cons.injEq,
      and_iff_right rfl, digitChars_take_append_eq_iff t.fraction_lt]

/-- What is expected of a text: it is parsed, the stored groups denote the same number with the same
sign and scale and without a zero group at either end, they are printed as the text, and they are
read back from their bytes. -/
def RoundTrips (t : NumericText) : Prop :=
  ∃ weight digits, PgNumeric.fromStr t.text =
      .ok (.value t.sign weight t.fraction.length digits) ∧
    (PgNumeric.value t.sign weight t.fraction.length digits).toRat? = some t.toRat ∧
    digits.head? ≠ some 0 ∧ digits.getLast? ≠ some 0 ∧
    (PgNumeric.value t.sign weight t.fraction.length digits).display = t.text ∧
    ∃ bytes, (PgNumeric.value t.sign weight t.fraction.length digits).toSql = some bytes ∧
      PgNumeric.fromSql bytes = .ok (.value t.sign weight t.fraction.length digits)

/-- A text round-trips exactly when the indices of its groups fit into 16 bits. -/
theorem roundTrips_iff (t : NumericText) : t.RoundTrips ↔ t.IndexFits := by
  obtain ⟨leading, digits, hstripped, hparse⟩ := t.fromStr_text
  constructor
  · rintro ⟨weight, digits', hparse', -, -, -, hdisplay, -⟩
    rw [hparse] at hparse'
    rw [← Except.ok.inj hparse'] at hdisplay
    exact (display_eq_text_iff hstripped).mp hdisplay
  · intro hfits
    refine ⟨_, digits, hparse, ?_, hstripped.head, hstripped.last,
      (display_eq_text_iff hstripped).mpr hfits, fromSql_toSql_digits hstripped⟩
    rw [PgNumeric.toRat?, groupsValue_digits hstripped, toRat, sign]
    cases t.negative <;> rfl

/-- A power of ten and a half. -/
def powerAndHalf (n : ℕ) (hn : n < 131072) : NumericText where
  negative := false
  whole := 1 :: List.replicate n 0
  fraction := [5]
  digits_lt := by
    simp
    omega
  whole_ne_nil := cons_ne_nil _ _
  no_redundant_zero := .inr (by simp)
  length_whole_le := by simpa using hn
  length_fraction_le := by simp
  nonzero := ⟨1, mem_cons_self, by decide⟩

theorem wholeCount_powerAndHalf (n : ℕ) (hn : n < 131072) :
    (powerAndHalf n hn).wholeCount = (n + 4) / 4 := by
  rw [wholeCount, powerAndHalf, length_cons, length_replicate]

/-- The half is lost when the number has as many digits before the decimal point as there can be. -/
theorem powerAndHalf_misprinted :
    ∃ value, PgNumeric.fromStr (powerAndHalf 131071 (by decide)).text = .ok value ∧
      value.display ≠ (powerAndHalf 131071 (by decide)).text := by
  obtain ⟨leading, digits, hstripped, hparse⟩ := (powerAndHalf 131071 (by decide)).fromStr_text
  refine ⟨_, hparse, fun hdisplay => ?_⟩
  have hfits := (display_eq_text_iff hstripped).mp hdisplay 5
  rw [wholeCount_powerAndHalf] at hfits
  exact absurd (hfits mem_cons_self) (by decide)

end NumericText

end Etl
