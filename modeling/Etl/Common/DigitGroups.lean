import Mathlib.Data.Nat.Digits.Lemmas
import Mathlib.Tactic.FieldSimp

/-! # Groups of four decimal digits

A number written in decimal digits is stored in base 10000 by taking four digits at a time. This
module has the number that digits denote, the number that groups with a weight denote, and the
relation between the two. All digits are most significant first.
-/

open List

def decimalValue (digits : List ℕ) : ℕ := Nat.ofDigits 10 digits.reverse

theorem decimalValue_append (high low : List ℕ) :
    decimalValue (high ++ low) = decimalValue high * 10 ^ low.length + decimalValue low := by
  rw [decimalValue, reverse_append, Nat.ofDigits_append, length_reverse]
  simp only [decimalValue]
  ring

/-- Zeros in front do not count. -/
theorem decimalValue_replicate_append (n : ℕ) (digits : List ℕ) :
    decimalValue (List.replicate n 0 ++ digits) = decimalValue digits := by
  simp [decimalValue]

theorem decimalValue_replicate_zero (n : ℕ) : decimalValue (List.replicate n 0) = 0 := by
  simp [decimalValue]

/-- The digits of a list, four at a time; the last group may be shorter. -/
def chunksOfFour {α : Type*} : List α → List (List α)
  | a :: b :: c :: d :: rest => [a, b, c, d] :: chunksOfFour rest
  | [] => []
  | short => [short]

variable {n : ℕ} {digits : List ℕ}

theorem exists_four_of_length {α : Type*} {l : List α} (hl : l.length = 4 * (n + 1)) :
    ∃ a b c d rest, l = a :: b :: c :: d :: rest ∧ rest.length = 4 * n := by
  match l, hl with
  | a :: b :: c :: d :: rest, hl =>
    refine ⟨a, b, c, d, rest, rfl, ?_⟩
    simp only [length_cons] at hl
    omega

def chunkValue (chunk : List ℕ) : ℤ := chunk.foldl (fun (digit : ℤ) (d : ℕ) => digit * 10 + d) 0

/-- The base-10000 digits of decimal digits. -/
def digitGroups (digits : List ℕ) : List ℤ := (chunksOfFour digits).map chunkValue

theorem digitGroups_cons (a b c d : ℕ) (rest : List ℕ) :
    digitGroups (a :: b :: c :: d :: rest) = chunkValue [a, b, c, d] :: digitGroups rest := rfl

theorem chunkValue_four (a b c d : ℕ) : chunkValue [a, b, c, d] = decimalValue [a, b, c, d] := by
  simp [chunkValue, decimalValue, Nat.ofDigits_cons]
  ring

theorem digitGroups_append {high : List ℕ} (hhigh : high.length = 4 * n) (low : List ℕ) :
    digitGroups (high ++ low) = digitGroups high ++ digitGroups low := by
  induction n generalizing high with
  | zero =>
    obtain rfl := eq_nil_of_length_eq_zero hhigh
    rfl
  | succ n ih =>
    obtain ⟨a, b, c, d, rest, rfl, hrest⟩ := exists_four_of_length hhigh
    simp [digitGroups_cons, ih hrest]

theorem length_digitGroups (hdigits : digits.length = 4 * n) :
    (digitGroups digits).length = n := by
  induction n generalizing digits with
  | zero =>
    obtain rfl := eq_nil_of_length_eq_zero hdigits
    rfl
  | succ n ih =>
    obtain ⟨a, b, c, d, rest, rfl, hrest⟩ := exists_four_of_length hdigits
    rw [digitGroups_cons, length_cons, ih hrest]

theorem eq_zero_of_digitGroups (hdigits : digits.length = 4 * n)
    (hgroups : ∀ group ∈ digitGroups digits, group = 0) : ∀ d ∈ digits, d = 0 := by
  induction n generalizing digits with
  | zero =>
    obtain rfl := eq_nil_of_length_eq_zero hdigits
    exact nofun
  | succ n ih =>
    obtain ⟨a, b, c, d, rest, rfl, hrest⟩ := exists_four_of_length hdigits
    rw [digitGroups_cons, forall_mem_cons] at hgroups
    have hfirst : a = 0 ∧ b = 0 ∧ c = 0 ∧ d = 0 := by
      have hzero := hgroups.1
      simp only [chunkValue, foldl_cons, foldl_nil] at hzero
      omega
    obtain ⟨rfl, rfl, rfl, rfl⟩ := hfirst
    simpa using ih hrest hgroups.2

theorem mem_digitGroups_range (hlength : digits.length = 4 * n) (hdigits : ∀ d ∈ digits, d < 10) :
    ∀ group ∈ digitGroups digits, 0 ≤ group ∧ group < 10000 := by
  induction n generalizing digits with
  | zero =>
    obtain rfl := eq_nil_of_length_eq_zero hlength
    exact nofun
  | succ n ih =>
    obtain ⟨a, b, c, d, rest, rfl, hrest⟩ := exists_four_of_length hlength
    simp only [forall_mem_cons] at hdigits
    obtain ⟨ha, hb, hc, hd, hdigits⟩ := hdigits
    rw [digitGroups_cons, forall_mem_cons]
    refine ⟨?_, ih hrest hdigits⟩
    simp only [chunkValue, foldl_cons, foldl_nil]
    omega

/-! ## Padding to whole groups -/

/-- Zeros in front of digits, up to a multiple of four. -/
def padFront (digits : List ℕ) : List ℕ :=
  List.replicate (4 * ((digits.length + 3) / 4) - digits.length) 0 ++ digits

/-- Zeros after digits, up to a multiple of four. -/
def padBack (digits : List ℕ) : List ℕ :=
  digits ++ List.replicate (4 * ((digits.length + 3) / 4) - digits.length) 0

theorem length_padFront (digits : List ℕ) :
    (padFront digits).length = 4 * ((digits.length + 3) / 4) := by
  rw [padFront, length_append, length_replicate]
  omega

theorem length_padBack (digits : List ℕ) :
    (padBack digits).length = 4 * ((digits.length + 3) / 4) := by
  rw [padBack, length_append, length_replicate]
  omega

theorem mem_padFront_lt (hdigits : ∀ d ∈ digits, d < 10) :
    ∀ d ∈ padFront digits, d < 10 := by
  intro d hd
  obtain hd | hd := mem_append.mp hd
  · simp [eq_of_mem_replicate hd]
  · exact hdigits d hd

theorem mem_padBack_lt (hdigits : ∀ d ∈ digits, d < 10) :
    ∀ d ∈ padBack digits, d < 10 := by
  intro d hd
  obtain hd | hd := mem_append.mp hd
  · exact hdigits d hd
  · simp [eq_of_mem_replicate hd]

theorem padBack_cons (a b c d : ℕ) (rest : List ℕ) :
    padBack (a :: b :: c :: d :: rest) = a :: b :: c :: d :: padBack rest := by
  have hpad : 4 * ((rest.length + 4 + 3) / 4) - (rest.length + 4) =
      4 * ((rest.length + 3) / 4) - rest.length := by omega
  simp [padBack, hpad]

/-! ## The number that groups denote -/

/-- The number that groups denote, the first of them with the given weight. -/
def groupsValue : ℤ → List ℤ → ℚ
  | _, [] => 0
  | weight, group :: groups => group * (10000 : ℚ) ^ weight + groupsValue (weight - 1) groups

theorem groupsValue_replicate_append (n : ℕ) (weight : ℤ) (groups : List ℤ) :
    groupsValue weight (List.replicate n 0 ++ groups) = groupsValue (weight - n) groups := by
  induction n generalizing weight with
  | zero => simp
  | succ n ih =>
    rw [replicate_succ, cons_append, groupsValue, ih]
    have hweight : weight - 1 - n = weight - (n + 1 : ℕ) := by
      push_cast
      ring
    rw [hweight]
    simp

theorem groupsValue_append_replicate (n : ℕ) (weight : ℤ) (groups : List ℤ) :
    groupsValue weight (groups ++ List.replicate n 0) = groupsValue weight groups := by
  induction groups generalizing weight with
  | nil =>
    rw [nil_append, ← append_nil (List.replicate n 0), groupsValue_replicate_append]
    rfl
  | cons group groups ih => rw [cons_append, groupsValue, groupsValue, ih]

/-- The groups of digits denote what the digits denote, up to the place of the last digit. -/
theorem groupsValue_digitGroups (hdigits : digits.length = 4 * n) (weight : ℤ) :
    groupsValue weight (digitGroups digits) =
      decimalValue digits * (10000 : ℚ) ^ (weight + 1 - n) := by
  induction n generalizing digits weight with
  | zero =>
    obtain rfl := eq_nil_of_length_eq_zero hdigits
    simp [groupsValue, digitGroups, chunksOfFour, decimalValue]
  | succ n ih =>
    obtain ⟨a, b, c, d, rest, rfl, hrest⟩ := exists_four_of_length hdigits
    have hvalue : decimalValue (a :: b :: c :: d :: rest) =
        decimalValue [a, b, c, d] * 10000 ^ n + decimalValue rest := by
      rw [show a :: b :: c :: d :: rest = [a, b, c, d] ++ rest from rfl, decimalValue_append,
        hrest, pow_mul]
      norm_num
    have hplace : (10000 : ℚ) ^ weight = 10000 ^ n * 10000 ^ (weight + 1 - (n + 1 : ℕ)) := by
      rw [← zpow_natCast, ← zpow_add₀ (by norm_num)]
      congr 1
      push_cast
      ring
    have hexp : weight - 1 + 1 - n = weight + 1 - (n + 1 : ℕ) := by
      push_cast
      ring
    rw [digitGroups_cons, groupsValue, ih hrest, chunkValue_four, hvalue, hplace, hexp]
    push_cast
    ring

/-! ## Printing digits -/

/-- Padding to one more place prints one more digit. -/
theorem leftpad_toDigits_succ {base n d : ℕ} (hbase : 1 < base) (hd : d < base) {width : ℕ}
    (hwidth : 0 < width) :
    (Nat.toDigits base (base * n + d)).leftpad (width + 1) '0' =
      (Nat.toDigits base n).leftpad width '0' ++ [d.digitChar] := by
  rcases Nat.eq_zero_or_pos n with rfl | hn
  · obtain ⟨width, rfl⟩ := Nat.exists_eq_add_one_of_ne_zero hwidth.ne'
    rw [Nat.mul_zero, Nat.zero_add, Nat.toDigits_of_lt_base hd]
    simp [replicate_succ']
  · rw [← Nat.toDigits_append_toDigits hbase hn hd, Nat.toDigits_of_lt_base hd]
    simp

/-- A number printed with as many places as it has digits shows its digits. -/
theorem leftpad_toDigits_decimalValue (hne : digits ≠ []) (hdigits : ∀ d ∈ digits, d < 10) :
    (Nat.toDigits 10 (decimalValue digits)).leftpad digits.length '0' =
      digits.map Nat.digitChar := by
  induction digits using List.reverseRecOn with
  | nil => exact absurd rfl hne
  | append_singleton digits d ih =>
    have hd : d < 10 := hdigits d (by simp)
    have hvalue : decimalValue (digits ++ [d]) = 10 * decimalValue digits + d := by
      rw [decimalValue_append]
      simp [decimalValue, Nat.mul_comm]
    rw [hvalue, length_append, length_singleton, map_append]
    rcases digits.eq_nil_or_concat with rfl | ⟨_, _, rfl⟩
    · simp [decimalValue, Nat.toDigits_of_lt_base hd]
    · rw [leftpad_toDigits_succ (by decide) hd (by simp),
        ih (by simp) fun d' hd' => hdigits d' (mem_append_left _ hd')]
      rfl
