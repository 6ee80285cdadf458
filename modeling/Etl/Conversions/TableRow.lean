import Etl.Conversions.Text

/-! # Parsing `COPY` rows

The parser of one text-format `COPY` row and the encoder Postgres writes such rows with.
The parser is a character loop with an escape flag. Its loop invariant is that the buffer
holds the decoded part of the current field, so an encoded field is read back verbatim; the
`NULL` marker is compared with the decoded text, which is the only place where a row can
come back changed.

Reference: `etl/src/conversions/table_row.rs` (`parse_table_row_from_postgres_copy_bytes`).
-/

namespace Etl

/-! ## The parser -/

/-- The loop state between two characters: the columns not yet read, the values read so far,
the decoded text of the current field and the two flags. -/
structure RowScan where
  columnSchemas : List ColumnSchema
  values : List Cell
  valStr : String
  inEscape : Bool
  rowTerminated : Bool

/-- Appends the character an escape sequence stands for. An escaped `N` keeps its backslash,
so that the `NULL` marker is visible in the decoded text. -/
def pushEscaped (valStr : String) (c : Char) : String :=
  if c = 'N' then (valStr.push '\\').push c
  else if c = 'b' then valStr.push (Char.ofNat 8)
  else if c = 'f' then valStr.push (Char.ofNat 12)
  else if c = 'n' then valStr.push '\n'
  else if c = 'r' then valStr.push '\r'
  else if c = 't' then valStr.push '\t'
  else if c = 'v' then valStr.push (Char.ofNat 11)
  else valStr.push c

variable (lp : LeafParsers) {st st' : RowScan} {n : ℕ}

/-- Converts the finished field with the next column and clears the buffer. -/
def finishField (expectedColumnCount : ℕ) (st : RowScan) : EtlResult RowScan :=
  match st.columnSchemas with
  | [] =>
    let actualColumnCount := st.values.length + 1
    bailWith .conversionError "Column count mismatch between schema and row"
      s!"Expected {expectedColumnCount} columns but row contains at least {actualColumnCount} columns"
  | columnSchema :: columnSchemas => do
    let value ←
      if st.valStr = "\\N" then .ok .null
      else parseCellFromPostgresText lp columnSchema.typ st.valStr
    .ok { st with columnSchemas, values := st.values ++ [value], valStr := "" }

/-- The character loop. The end of the input is accepted once a newline has been seen. -/
def parseFields (expectedColumnCount : ℕ) (st : RowScan) : List Char → EtlResult RowScan
  | [] =>
    if st.rowTerminated then .ok st
    else bail .conversionError "Row data not properly terminated"
  | c :: rest =>
    if st.inEscape then
      parseFields expectedColumnCount
        { st with valStr := pushEscaped st.valStr c, inEscape := false } rest
    else if c = '\t' then do
      let st ← finishField lp expectedColumnCount st
      parseFields expectedColumnCount st rest
    else if c = '\n' then do
      let st ← finishField lp expectedColumnCount { st with rowTerminated := true }
      parseFields expectedColumnCount st rest
    else if c = '\\' then
      parseFields expectedColumnCount { st with inEscape := true } rest
    else
      parseFields expectedColumnCount { st with valStr := st.valStr.push c } rest

/-- Parses one row of text-format `COPY` data against the column schemas. -/
def parseTableRowFromPostgresCopyBytes (row : ByteArray) (columnSchemas : List ColumnSchema) :
    EtlResult TableRow :=
  match String.fromUTF8? row with
  | none => bail .conversionError "UTF-8 conversion failed"
  | some rowStr => do
    let expectedColumnCount := columnSchemas.length
    let st ← parseFields lp expectedColumnCount ⟨columnSchemas, [], "", false, false⟩
      rowStr.toList
    let actualColumnCount := st.values.length
    match st.columnSchemas with
    | _ :: _ =>
      bailWith .conversionError "Column count mismatch between schema and row"
        s!"Expected {expectedColumnCount} columns but row contains {actualColumnCount} columns"
    | [] => .ok ⟨st.values⟩

/-! ## The width of parsed rows -/

/-- Finishing a field moves one column from the columns to be read to the values. -/
theorem finishField_length (hst : finishField lp n st = .ok st') :
    st'.values.length + st'.columnSchemas.length = st.values.length + st.columnSchemas.length := by
  rw [finishField] at hst
  split at hst
  · exact absurd hst bailWith_ne_ok
  · rename_i columnSchema columnSchemas hcolumns
    split_ifs at hst
    all_goals
      obtain ⟨value, -, hst⟩ := bind_eq_ok_iff.mp hst
      cases hst
      simp only [hcolumns, List.length_append, List.length_cons, List.length_nil]
      omega

theorem parseFields_length {chars : List Char} (hst : parseFields lp n st chars = .ok st') :
    st'.values.length + st'.columnSchemas.length = st.values.length + st.columnSchemas.length := by
  induction chars generalizing st with
  | nil =>
    rw [parseFields] at hst
    split_ifs at hst
    · rw [Except.ok.inj hst]
    · exact absurd hst bail_ne_ok
  | cons c chars ih =>
    rw [parseFields] at hst
    split_ifs at hst with hesc htab hnewline hbackslash
    case pos => exact (ih hst :)
    case pos =>
      obtain ⟨mid, hmid, hst⟩ := bind_eq_ok_iff.mp hst
      rw [ih hst, finishField_length lp hmid]
    case pos =>
      obtain ⟨mid, hmid, hst⟩ := bind_eq_ok_iff.mp hst
      exact (ih hst).trans (finishField_length lp hmid :)
    case pos => exact (ih hst :)
    case neg => exact (ih hst :)

theorem length_values_of_parseTableRow {row : ByteArray} {columnSchemas : List ColumnSchema}
    {tableRow : TableRow}
    (hrow : parseTableRowFromPostgresCopyBytes lp row columnSchemas = .ok tableRow) :
    tableRow.values.length = columnSchemas.length := by
  rw [parseTableRowFromPostgresCopyBytes] at hrow
  split at hrow
  · exact absurd hrow bail_ne_ok
  · obtain ⟨st, hst, hrow⟩ := bind_eq_ok_iff.mp hrow
    have hlength := parseFields_length lp hst
    split at hrow
    · exact absurd hrow bailWith_ne_ok
    · rename_i hcolumns
      cases hrow
      simpa [hcolumns] using hlength

/-! ## The encoder -/

/-- How `COPY` writes one character of a value: control characters with an escape of their
own and the backslash are escaped, everything else is literal. -/
def copyChar (c : Char) : List Char :=
  if c = '\\' then ['\\', '\\']
  else if c = Char.ofNat 8 then ['\\', 'b']
  else if c = Char.ofNat 12 then ['\\', 'f']
  else if c = '\n' then ['\\', 'n']
  else if c = '\r' then ['\\', 'r']
  else if c = '\t' then ['\\', 't']
  else if c = Char.ofNat 11 then ['\\', 'v']
  else [c]

/-- How `COPY` writes one field. -/
def copyField : Option String → List Char
  | none => ['\\', 'N']
  | some s => s.toList.flatMap copyChar

/-- How `COPY` writes a row: tab-separated fields and a final newline. -/
def copyRow : List (Option String) → List Char
  | [] => ['\n']
  | [field] => copyField field ++ ['\n']
  | field :: fields => copyField field ++ '\t' :: copyRow fields

/-- The bytes of an encoded row. -/
def copyRowBytes (row : List (Option String)) : ByteArray :=
  (String.ofList (copyRow row)).toUTF8

/-- The cell a text column's value should be read as. -/
def textCell : Option String → Cell
  | none => .null
  | some s => .string s

/-- The cell the parser does read: a value that spells the `NULL` marker is read as `NULL`. -/
def readBack : Option String → Cell
  | none => .null
  | some s => if s = "\\N" then .null else .string s

/-! ## One field -/

/-- The decoded text of an encoded field. -/
def fieldText : Option String → String
  | none => "\\N"
  | some s => s

theorem parseFields_copyChar (n : ℕ) (st : RowScan) (hesc : st.inEscape = false) (c : Char)
    (rest : List Char) :
    parseFields lp n st (copyChar c ++ rest)
      = parseFields lp n { st with valStr := st.valStr.push c } rest := by
  obtain ⟨cols, values, valStr, inEscape, term⟩ := st
  subst hesc
  unfold copyChar
  split_ifs with h₁ h₂ h₃ h₄ h₅ h₆ h₇
  -- the last branch is the literal character, the others an escape pair
  case neg => simp [parseFields, h₁, h₄, h₆]
  all_goals subst_vars; simp [parseFields, pushEscaped]

theorem parseFields_copyChars (n : ℕ) (cs : List Char) (st : RowScan)
    (hesc : st.inEscape = false) (rest : List Char) :
    parseFields lp n st (cs.flatMap copyChar ++ rest)
      = parseFields lp n { st with valStr := st.valStr ++ String.ofList cs } rest := by
  induction cs generalizing st with
  | nil => simp
  | cons c cs ih =>
    have happend : st.valStr.push c ++ String.ofList cs = st.valStr ++ String.ofList (c :: cs) := by
      simp [String.ext_iff]
    rw [List.flatMap_cons, List.append_assoc, parseFields_copyChar lp n st hesc,
      ih { st with valStr := st.valStr.push c } hesc, happend]

theorem parseFields_copyField (n : ℕ) (field : Option String) (st : RowScan)
    (hesc : st.inEscape = false) (hval : st.valStr = "") (rest : List Char) :
    parseFields lp n st (copyField field ++ rest)
      = parseFields lp n { st with valStr := fieldText field } rest := by
  cases field with
  | none =>
    obtain ⟨cols, values, valStr, inEscape, term⟩ := st
    subst hesc hval
    simp [copyField, parseFields, pushEscaped, fieldText]
  | some s =>
    rw [copyField, parseFields_copyChars lp n s.toList st hesc, hval]
    simp [fieldText]

theorem finishField_text (n : ℕ) (field : Option String) (column : ColumnSchema)
    (columns : List ColumnSchema) (values : List Cell) (term : Bool)
    (htext : column.typ.isText = true) :
    finishField lp n ⟨column :: columns, values, fieldText field, false, term⟩
      = .ok ⟨columns, values ++ [readBack field], "", false, term⟩ := by
  cases field with
  | none => simp [finishField, fieldText, readBack, bind, Except.bind]
  | some s =>
    by_cases hs : s = "\\N"
    · simp [finishField, fieldText, readBack, hs, bind, Except.bind]
    · simp [finishField, fieldText, readBack, hs, bind, Except.bind,
        parseCellFromPostgresText_text lp htext]

/-! ## Whole rows -/

theorem parseFields_copyRow (n : ℕ) (row : List (Option String)) (hne : row ≠ [])
    (columns : List ColumnSchema) (hlen : columns.length = row.length)
    (htext : ∀ column ∈ columns, column.typ.isText = true) (values : List Cell) :
    parseFields lp n ⟨columns, values, "", false, false⟩ (copyRow row)
      = .ok ⟨[], values ++ row.map readBack, "", false, true⟩ := by
  induction row generalizing columns values with
  | nil => exact absurd rfl hne
  | cons field fields ih =>
    obtain _ | ⟨column, columns⟩ := columns
    · simp at hlen
    have hcolumn : column.typ.isText = true := htext column (by simp)
    cases fields with
    | nil =>
      obtain rfl : columns = [] := by simpa using hlen
      rw [copyRow, parseFields_copyField lp n field _ rfl rfl]
      simp [parseFields, finishField_text lp n field column [] values true hcolumn, bind,
        Except.bind]
    | cons next fields =>
      have hrest := ih (by simp) columns (by simpa using hlen)
        (fun c hc => htext c (List.mem_cons_of_mem _ hc)) (values ++ [readBack field])
      have hcopy : copyRow (field :: next :: fields)
          = copyField field ++ '\t' :: copyRow (next :: fields) := rfl
      rw [hcopy, parseFields_copyField lp n field _ rfl rfl]
      simp [parseFields, finishField_text lp n field column columns values false hcolumn, bind,
        Except.bind, hrest]

/-- An encoded row of text columns is always accepted, and read back value by value. -/
theorem parse_copyRowBytes (row : List (Option String)) (hne : row ≠ [])
    (columns : List ColumnSchema) (hlen : columns.length = row.length)
    (htext : ∀ column ∈ columns, column.typ.isText = true) :
    parseTableRowFromPostgresCopyBytes lp (copyRowBytes row) columns
      = .ok ⟨row.map readBack⟩ := by
  rw [parseTableRowFromPostgresCopyBytes, copyRowBytes, fromUTF8?_toUTF8]
  simp [parseFields_copyRow lp columns.length row hne columns hlen htext [], bind, Except.bind]

/-- The parser reads a value as itself exactly when it does not spell the `NULL` marker. -/
theorem readBack_eq_textCell_iff (field : Option String) :
    readBack field = textCell field ↔ field ≠ some "\\N" := by
  cases field with
  | none => simp [readBack, textCell]
  | some s =>
    by_cases hs : s = "\\N"
    all_goals simp [readBack, textCell]

/-- A row of text columns survives the trip through the `COPY` encoding and the parser
exactly when no value of it spells the `NULL` marker. -/
theorem copy_roundtrip_iff (row : List (Option String)) (hne : row ≠ [])
    (columns : List ColumnSchema) (hlen : columns.length = row.length)
    (htext : ∀ column ∈ columns, column.typ.isText = true) :
    parseTableRowFromPostgresCopyBytes lp (copyRowBytes row) columns
        = .ok ⟨row.map textCell⟩
      ↔ ∀ field ∈ row, field ≠ some "\\N" := by
  rw [parse_copyRowBytes lp row hne columns hlen htext]
  simp [readBack_eq_textCell_iff]

/-- A nullable text column. -/
def textColumn (name : String) (position : ℤ) : ColumnSchema :=
  ⟨name, .text, -1, position, none, true⟩

theorem copy_roundtrip_null_and_backslash :
    parseTableRowFromPostgresCopyBytes LeafParsers.rejectAll
        (copyRowBytes [none, some "a\tb\\"]) [textColumn "a" 1, textColumn "b" 2]
      = .ok ⟨[.null, .string "a\tb\\"]⟩ := by
  refine (copy_roundtrip_iff LeafParsers.rejectAll [none, some "a\tb\\"] (by decide)
    [textColumn "a" 1, textColumn "b" 2] rfl (by decide)).mpr ?_
  decide

/-- A one-column row whose value is the two characters backslash and `N` is encoded with an
escaped backslash and comes back as `NULL`. -/
theorem copy_null_marker_value_read_as_null :
    copyRow [some "\\N"] = ['\\', '\\', 'N', '\n'] ∧
      parseTableRowFromPostgresCopyBytes LeafParsers.rejectAll (copyRowBytes [some "\\N"])
          [textColumn "v" 1] = .ok ⟨[.null]⟩ ∧
      parseTableRowFromPostgresCopyBytes LeafParsers.rejectAll (copyRowBytes [some "\\N"])
          [textColumn "v" 1] ≠ .ok ⟨[textCell (some "\\N")]⟩ := by
  have hread : parseTableRowFromPostgresCopyBytes LeafParsers.rejectAll
      (copyRowBytes [some "\\N"]) [textColumn "v" 1] = .ok ⟨[.null]⟩ :=
    parse_copyRowBytes LeafParsers.rejectAll [some "\\N"] (by decide) [textColumn "v" 1] rfl
      (by decide)
  refine ⟨by decide, hread, ?_⟩
  rw [hread]
  decide

end Etl
