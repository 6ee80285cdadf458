import Mathlib.Data.List.Basic

/-! # Words joined by a separator

Words over an alphabet with a separator are joined by one separator after every separator inside
them has been doubled. The first separator that is not part of a pair ends the first word as long as
what follows does not begin with one, so the join can be taken apart
(`doubleSep_append_sep_inj`), and it is not the code of a single word (`doubleSep_ne_append_sep`).
-/

open List

variable {α : Type*} [DecidableEq α] {sep : α} {a : α} {rest : List α}

/-- Doubles every separator. -/
def doubleSep (sep : α) (word : List α) : List α :=
  word.flatMap fun a => if a = sep then [sep, sep] else [a]

@[simp]
theorem doubleSep_cons_self (word : List α) :
    doubleSep sep (sep :: word) = sep :: sep :: doubleSep sep word := by
  simp [doubleSep]

theorem doubleSep_cons_of_ne (h : a ≠ sep) (word : List α) :
    doubleSep sep (a :: word) = a :: doubleSep sep word := by
  simp [doubleSep, h]

theorem doubleSep_append (word word' : List α) :
    doubleSep sep (word ++ word') = doubleSep sep word ++ doubleSep sep word' :=
  flatMap_append

@[simp]
theorem head?_doubleSep (word : List α) : (doubleSep sep word).head? = word.head? := by
  cases word with
  | nil => rfl
  | cons a word =>
    by_cases h : a = sep
    · subst h
      rw [doubleSep_cons_self]
      rfl
    · rw [doubleSep_cons_of_ne h]
      rfl

theorem head?_doubleSep_append {word : List α} (h : word ≠ []) (rest : List α) :
    (doubleSep sep word ++ rest).head? = word.head? := by
  rw [List.head?_append, head?_doubleSep, Option.or_of_isSome]
  exact isSome_head?.mpr h

/-! ## Taking a join apart -/

/-- Reads a word up to the first separator that is not doubled. Returns the word and what stands
behind that separator, if there is one. -/
def splitSep (sep : α) : List α → List α × Option (List α)
  | [] => ([], none)
  | [a] => if a = sep then ([], some []) else ([a], none)
  | a :: b :: chars =>
    if a ≠ sep then
      let (word, rest) := splitSep sep (b :: chars)
      (a :: word, rest)
    else if b = sep then
      let (word, rest) := splitSep sep chars
      (sep :: word, rest)
    else ([], some (b :: chars))

theorem splitSep_cons_of_ne (h : a ≠ sep) (chars : List α) :
    splitSep sep (a :: chars) = (a :: (splitSep sep chars).1, (splitSep sep chars).2) := by
  cases chars with
  | nil | cons b chars => simp [splitSep, h]

theorem splitSep_pair (chars : List α) :
    splitSep sep (sep :: sep :: chars) = (sep :: (splitSep sep chars).1, (splitSep sep chars).2) := by
  simp [splitSep]

theorem splitSep_sep (hrest : rest.head? ≠ some sep) :
    splitSep sep (sep :: rest) = ([], some rest) := by
  cases rest with
  | nil => simp [splitSep]
  | cons b rest =>
    have hb : b ≠ sep := fun h => hrest (by rw [h]; rfl)
    simp [splitSep, hb]

/-- The doubled separators of a word are read back, whatever follows. -/
theorem splitSep_doubleSep_append (word rest : List α) :
    splitSep sep (doubleSep sep word ++ rest) =
      (word ++ (splitSep sep rest).1, (splitSep sep rest).2) := by
  induction word with
  | nil => rfl
  | cons a word ih =>
    by_cases ha : a = sep
    · subst ha
      rw [doubleSep_cons_self, cons_append, cons_append, splitSep_pair, ih]
      rfl
    · rw [doubleSep_cons_of_ne ha, cons_append, splitSep_cons_of_ne ha, ih]
      rfl

/-- The code of a word is read as the word. -/
theorem splitSep_doubleSep (word : List α) : splitSep sep (doubleSep sep word) = (word, none) := by
  have happend : splitSep sep (doubleSep sep word ++ []) = (word ++ [], none) :=
    splitSep_doubleSep_append word []
  rwa [append_nil, append_nil] at happend

/-- A join is read as its two parts. -/
theorem splitSep_join (word : List α) (hrest : rest.head? ≠ some sep) :
    splitSep sep (doubleSep sep word ++ sep :: rest) = (word, some rest) := by
  rw [splitSep_doubleSep_append, splitSep_sep hrest, append_nil]

/-- The parts of a join are determined by it. -/
theorem doubleSep_append_sep_inj {word word' rest rest' : List α} (hrest : rest.head? ≠ some sep)
    (hrest' : rest'.head? ≠ some sep)
    (h : doubleSep sep word ++ sep :: rest = doubleSep sep word' ++ sep :: rest') :
    word = word' ∧ rest = rest' := by
  have hsplit := splitSep_join word hrest
  rw [h, splitSep_join word' hrest', Prod.mk.injEq, Option.some.injEq] at hsplit
  exact ⟨hsplit.1.symm, hsplit.2.symm⟩

/-- Different words have different codes. -/
theorem doubleSep_injective (sep : α) : Function.Injective (doubleSep sep) := by
  intro word word' h
  have hsplit : splitSep sep (doubleSep sep word) = (word, none) := splitSep_doubleSep word
  rw [h, splitSep_doubleSep, Prod.mk.injEq] at hsplit
  exact hsplit.1.symm

/-- A join is not the code of a word. -/
theorem doubleSep_ne_append_sep {word word' rest : List α} (hrest : rest.head? ≠ some sep) :
    doubleSep sep word ≠ doubleSep sep word' ++ sep :: rest := by
  intro h
  have hsplit : splitSep sep (doubleSep sep word) = (word, none) := splitSep_doubleSep word
  rw [h, splitSep_join word' hrest, Prod.mk.injEq] at hsplit
  exact Option.some_ne_none rest hsplit.2

/-! ## Replacing letters -/

/-- Replacing the other letters by words without separators commutes with the code. -/
theorem doubleSep_flatMap {f : α → List α} (hsep : f sep = [sep])
    (hother : ∀ a, a ≠ sep → sep ∉ f a) (word : List α) :
    doubleSep sep (word.flatMap f) = (doubleSep sep word).flatMap f := by
  have hplain : ∀ l : List α, sep ∉ l → doubleSep sep l = l := by
    intro l hl
    induction l with
    | nil => rfl
    | cons a l ih =>
      obtain ⟨ha, hl⟩ := not_or.mp (mt mem_cons.mpr hl)
      rw [doubleSep_cons_of_ne (Ne.symm ha), ih hl]
  induction word with
  | nil => rfl
  | cons a word ih =>
    rw [flatMap_cons, doubleSep_append, ih]
    by_cases ha : a = sep
    · subst ha
      rw [hsep, doubleSep_cons_self, doubleSep_cons_self, flatMap_cons, flatMap_cons, hsep]
      rfl
    · rw [doubleSep_cons_of_ne ha, flatMap_cons, hplain _ (hother a ha)]
