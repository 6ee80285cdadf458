import Etl.Conversions.Text

/-! # Array literals

Postgres writes an array as its elements between braces, separated by commas. An element is
quoted when its text could be misread, and inside quotes a quote or a backslash is escaped. The
parser knows quotes, escapes and commas only: a brace inside the outer pair is a character of the
field it stands in. `parseArrayElements_fieldsText` reads a list of such fields, with any number
of braces around each element, and the round trip of one-dimensional arrays is the case without
braces.

Reference: `etl/src/conversions/text.rs` (`parse_cell_from_postgres_text_array`).
-/

namespace Etl

open List

/-! ## What Postgres writes -/

variable (isSpace : Char → Bool)

/-- An element is quoted when it is empty, the word null, or has a character of the literal. -/
def needsQuotes (element : String) : Bool :=
  element.toList.isEmpty || isNullWord element ||
    element.toList.any fun c =>
      c = '{' || c = '}' || c = ',' || c = '"' || c = '\\' || isSpace c

/-- Quotes and backslashes are escaped inside quotes. -/
def escapeQuoted (chars : List Char) : List Char :=
  chars.flatMap fun c => if c = '"' ∨ c = '\\' then ['\\', c] else [c]

/-- The text of an array element. -/
def elementText : Option String → List Char
  | none => ['N', 'U', 'L', 'L']
  | some element =>
    if needsQuotes isSpace element then '"' :: (escapeQuoted element.toList ++ ['"'])
    else element.toList

/-- The literal of a one-dimensional array with the default lower bound. -/
def arrayLiteral (elements : List (Option String)) : String :=
  String.ofList ('{' :: ([','].intercalate (elements.map (elementText isSpace)) ++ ['}']))

/-! ## Fields -/

/-- What stands between two commas of a literal: an element with the braces before and after. -/
structure ArrayField where
  opens : ℕ := 0
  element : Option String
  closes : ℕ := 0

/-- A text inside braces. -/
def braced (opens : ℕ) (text : String) (closes : ℕ) : String :=
  String.ofList (List.replicate opens '{' ++ text.toList ++ List.replicate closes '}')

@[simp] theorem braced_zero (text : String) : braced 0 text 0 = text := by
  simp [braced]

namespace ArrayField

/-- The characters of a field. -/
def text (field : ArrayField) : List Char :=
  List.replicate field.opens '{' ++ elementText isSpace field.element ++
    List.replicate field.closes '}'

/-- The state in which the parser has read a field. -/
def scan (field : ArrayField) : ArrayScan where
  valStr := braced field.opens (field.element.getD "NULL") field.closes
  valQuoted := field.element.any (needsQuotes isSpace)

end ArrayField

def fieldsText (fields : List ArrayField) : List Char :=
  [','].intercalate (fields.map (ArrayField.text isSpace))

variable {isSpace} in
theorem fieldsText_cons (field : ArrayField) {fields : List ArrayField} (hfields : fields ≠ []) :
    fieldsText isSpace (field :: fields) =
      field.text isSpace ++ ',' :: fieldsText isSpace fields := by
  rw [fieldsText, map_cons, intercalate_cons_of_ne_nil (by simpa using hfields)]
  simp [fieldsText]

/-! ## Reading fields -/

section Reading

variable {isSpace} {T : Type} {parse : String → EtlResult T} {res : List (Option T)}
  {fields : List ArrayField}

theorem parseArrayElements_plain {chars : List Char}
    (hchars : ∀ c ∈ chars, c ≠ '"' ∧ c ≠ '\\' ∧ c ≠ ',') (valStr : String) (valQuoted : Bool)
    (rest : List Char) :
    parseArrayElements parse { valStr, valQuoted } res (chars ++ rest) =
      parseArrayElements parse { valStr := valStr ++ String.ofList chars, valQuoted } res rest := by
  induction chars generalizing valStr with
  | nil => simp
  | cons c chars ih =>
    obtain ⟨hquote, hescape, hcomma⟩ := hchars c mem_cons_self
    rw [cons_append, parseArrayElements, if_neg (by simp), if_neg hquote, if_neg hescape,
      if_neg fun h => hcomma h.1, ih (fun d hd => hchars d (mem_cons_of_mem _ hd)),
      String.ofList_cons, String.push_eq_append, String.append_assoc]

/-- Inside quotes, what was escaped is read back up to the closing quote. -/
theorem parseArrayElements_escapeQuoted (chars : List Char) (valStr : String)
    (rest : List Char) :
    parseArrayElements parse { valStr, inQuotes := true, valQuoted := true } res
        (escapeQuoted chars ++ '"' :: rest) =
      parseArrayElements parse { valStr := valStr ++ String.ofList chars, valQuoted := true }
        res rest := by
  induction chars generalizing valStr with
  | nil => simp [escapeQuoted, parseArrayElements]
  | cons c chars ih =>
    have hpush : valStr.push c ++ String.ofList chars = valStr ++ String.ofList (c :: chars) := by
      rw [String.ofList_cons, String.push_eq_append, String.append_assoc]
    rw [← hpush, ← ih, escapeQuoted, flatMap_cons]
    by_cases hc : c = '"' ∨ c = '\\'
    · -- The backslash makes the parser take the next character whatever it is.
      rw [if_pos hc]
      simp [parseArrayElements, escapeQuoted]
    · rw [not_or] at hc
      simp [parseArrayElements, escapeQuoted, hc.1, hc.2]

theorem plain_of_needsQuotes_eq_false {element : String}
    (hplain : needsQuotes isSpace element = false) :
    ∀ c ∈ element.toList, c ≠ '"' ∧ c ≠ '\\' ∧ c ≠ ',' := by
  intro c hc
  rw [needsQuotes, Bool.or_eq_false_iff, any_eq_false] at hplain
  have hroles := hplain.2 c hc
  simp only [Bool.or_eq_true, decide_eq_true_eq, not_or] at hroles
  exact ⟨hroles.1.1.2, hroles.1.2, hroles.1.1.1.2⟩

theorem plain_replicate {brace : Char} (hbrace : brace = '{' ∨ brace = '}') (n : ℕ) :
    ∀ c ∈ List.replicate n brace, c ≠ '"' ∧ c ≠ '\\' ∧ c ≠ ',' := by
  intro c hc
  rw [eq_of_mem_replicate hc]
  obtain rfl | rfl := hbrace <;> decide

/-- An element is read up to its end. -/
theorem parseArrayElements_elementText (element : Option String) (valStr : String)
    (rest : List Char) :
    parseArrayElements parse { valStr } res (elementText isSpace element ++ rest) =
      parseArrayElements parse
        { valStr := valStr ++ element.getD "NULL",
          valQuoted := element.any (needsQuotes isSpace) } res rest := by
  cases element with
  | none =>
    have hplain : ∀ c ∈ ['N', 'U', 'L', 'L'], c ≠ '"' ∧ c ≠ '\\' ∧ c ≠ ',' := by simp
    exact parseArrayElements_plain hplain valStr false rest
  | some element =>
    rw [elementText, Option.any_some, Option.getD_some]
    cases hquotes : needsQuotes isSpace element with
    | false =>
      rw [if_neg (by simp), parseArrayElements_plain (plain_of_needsQuotes_eq_false hquotes),
        String.ofList_toList]
    | true =>
      rw [if_pos rfl, cons_append, append_assoc]
      refine (parseArrayElements_escapeQuoted _ _ _).trans ?_
      rw [String.ofList_toList]
      rfl

theorem parseArrayElements_text (field : ArrayField) (rest : List Char) :
    parseArrayElements parse {} res (field.text isSpace ++ rest) =
      parseArrayElements parse (field.scan isSpace) res rest := by
  rw [ArrayField.text, append_assoc, append_assoc,
    parseArrayElements_plain (plain_replicate (.inl rfl) _), parseArrayElements_elementText,
    parseArrayElements_plain (plain_replicate (.inr rfl) _), ArrayField.scan, braced]
  simp [String.append_assoc]

theorem parseArrayElements_fieldsText (hfields : fields ≠ []) :
    parseArrayElements parse {} res (fieldsText isSpace fields) =
      (res ++ ·) <$> fields.mapM fun field => arrayElement parse (field.scan isSpace) := by
  induction fields generalizing res with
  | nil => exact absurd rfl hfields
  | cons field fields ih =>
    cases fields with
    | nil =>
      rw [fieldsText, map_singleton, intercalate_singleton, mapM_cons,
        ← append_nil (field.text isSpace), parseArrayElements_text, parseArrayElements]
      cases arrayElement parse (field.scan isSpace) <;> rfl
    | cons next fields =>
      rw [fieldsText_cons _ (cons_ne_nil _ _), parseArrayElements_text, parseArrayElements,
        mapM_cons]
      cases arrayElement parse (field.scan isSpace) with
      | error err => rfl
      | ok val =>
        refine (ih (cons_ne_nil _ _)).trans ?_
        cases (next :: fields).mapM fun field => arrayElement parse (field.scan isSpace) with
        | error err => rfl
        | ok vals => exact congrArg Except.ok (append_assoc _ _ _)

/-! ## Reading a literal -/

/-- The value of an element. -/
def elementValue (parse : String → EtlResult T) : Option String → EtlResult (Option T)
  | none => .ok none
  | some element => some <$> parse element

/-- A field without braces denotes its element. -/
theorem arrayElement_bare (element : Option String) :
    arrayElement parse (ArrayField.scan isSpace { element }) = elementValue parse element := by
  rw [arrayElement, ArrayField.scan, braced_zero]
  cases element with
  | none =>
    have hnull : isNullWord "NULL" = true := by decide
    rw [Option.getD_none, hnull]
    rfl
  | some element =>
    rw [elementValue, Option.getD_some]
    cases hnull : isNullWord element with
    | false => rw [if_neg (by simp)]
    | true => simp [needsQuotes, hnull]

theorem elementText_ne_nil (element : Option String) : elementText isSpace element ≠ [] := by
  cases element with
  | none => exact cons_ne_nil _ _
  | some element =>
    rw [elementText]
    split_ifs with hquotes
    · exact cons_ne_nil _ _
    · intro hnil
      exact hquotes (by simp [needsQuotes, hnil])

theorem fieldsText_ne_nil (hfields : fields ≠ []) :
    fieldsText isSpace fields ≠ [] := by
  obtain ⟨field, fields, rfl⟩ := exists_cons_of_ne_nil hfields
  have htext : field.text isSpace ≠ [] := by
    simp [ArrayField.text, elementText_ne_nil]
  cases fields with
  | nil => simpa [fieldsText] using htext
  | cons next fields => simp [fieldsText_cons]

theorem parseCellFromPostgresTextArray_fieldsText (hfields : fields ≠ [])
    (m : List (Option T) → ArrayCell) :
    parseCellFromPostgresTextArray (String.ofList ('{' :: (fieldsText isSpace fields ++ ['}'])))
        parse m =
      (fun res => .array (m res)) <$>
        fields.mapM fun field => arrayElement parse (field.scan isSpace) := by
  have hsize :
      ¬ (String.ofList ('{' :: (fieldsText isSpace fields ++ ['}']))).utf8ByteSize < 2 := by
    have hopen : (String.singleton '{').utf8ByteSize = 1 := by decide
    have hclose : (String.ofList ['}']).utf8ByteSize = 1 := by decide
    rw [String.ofList_cons, String.ofList_append, String.utf8ByteSize_append,
      String.utf8ByteSize_append]
    omega
  have hlast : ('{' :: (fieldsText isSpace fields ++ ['}'])).getLast? = some '}' :=
    List.getLast?_concat (l := '{' :: fieldsText isSpace fields)
  rw [parseCellFromPostgresTextArray, if_neg hsize, String.toList_ofList, if_neg (by simp [hlast])]
  simp only [List.tail_cons, List.dropLast_concat, List.isEmpty_iff, fieldsText_ne_nil hfields]
  rw [parseArrayElements_fieldsText hfields]
  cases fields.mapM fun field => arrayElement parse (field.scan isSpace) <;> rfl

variable (isSpace) in
theorem arrayLiteral_eq (elements : List (Option String)) :
    arrayLiteral isSpace elements =
      String.ofList ('{' :: (fieldsText isSpace (elements.map fun element => { element }) ++
        ['}'])) := by
  rw [arrayLiteral, fieldsText, map_map]
  simp [Function.comp_def, ArrayField.text]

theorem parseCellFromPostgresTextArray_arrayLiteral (elements : List (Option String))
    (m : List (Option T) → ArrayCell) :
    parseCellFromPostgresTextArray (arrayLiteral isSpace elements) parse m =
      (fun res => .array (m res)) <$> elements.mapM (elementValue parse) := by
  cases elements with
  | nil =>
    have hnil : arrayLiteral isSpace [] = "\x7b\x7d" := rfl
    rw [hnil]
    rfl
  | cons element elements =>
    rw [arrayLiteral_eq, parseCellFromPostgresTextArray_fieldsText (by simp), mapM_map]
    congr 2
    funext element
    exact arrayElement_bare element

end Reading

/-- Every list of optional strings is read back from its literal. -/
theorem parseCellFromPostgresText_arrayLiteral (lp : LeafParsers)
    (elements : List (Option String)) :
    parseCellFromPostgresText lp .textArray (arrayLiteral isSpace elements) =
      .ok (.array (.string elements)) := by
  have hvalue : elementValue (T := String) .ok = fun element => .ok element := by
    funext element
    cases element <;> rfl
  have hread : elements.mapM (elementValue (T := String) .ok) = .ok elements := by
    rw [hvalue]
    exact mapM_pure.trans (congrArg Except.ok (map_id _))
  change parseCellFromPostgresTextArray _ _ _ = _
  rw [parseCellFromPostgresTextArray_arrayLiteral, hread]
  rfl

example : arrayLiteral Char.isWhitespace [some "a,b", none, some "null", some ""] =
    "\x7b\"a,b\",NULL,\"null\",\"\"\x7d" := by decide

end Etl
