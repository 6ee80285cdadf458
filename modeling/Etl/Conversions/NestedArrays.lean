import Mathlib.Data.Fin.VecNotation
import Mathlib.Data.List.OfFn
import Etl.Conversions.ArrayLiteral

/-! # Arrays of several dimensions

Postgres writes an array of several dimensions with a pair of braces for every row, and puts the
bounds in front when a lower bound is not one. The parser rejects the bounds, but takes inner
braces for characters of the first and the last element of a row. The element parser decides what
happens then: one that rejects a text in braces makes the parse fail, and one that keeps any text
returns elements with braces in them.

Reference: `etl/src/conversions/text.rs` (`parse_cell_from_postgres_text_array`).
-/

namespace Etl

open List

/-! ## What Postgres writes -/

/-- The elements of an array with the given dimensions, where a dimension `n` has `n + 1` rows: an
array without elements has no dimensions. -/
def NestedArray : List ℕ → Type
  | [] => Option String
  | n :: dims => Fin (n + 1) → NestedArray dims

namespace NestedArray

/-- The elements in the order in which they are stored. -/
def elements : {dims : List ℕ} → NestedArray dims → List (Option String)
  | [], element => [element]
  | _ :: _, rows => (List.ofFn fun i => elements (rows i)).flatten

/-- The text of a nested array: every row stands in braces of its own. -/
def text (isSpace : Char → Bool) : {dims : List ℕ} → NestedArray dims → List Char
  | [], element => elementText isSpace element
  | _ :: _, rows => '{' :: ([','].intercalate (List.ofFn fun i => text isSpace (rows i)) ++ ['}'])

end NestedArray

/-- An array value: for every dimension its lower bound and its size, and the elements. -/
structure ArrayValue where
  dims : List (ℤ × ℕ)
  dims_ne_nil : dims ≠ []
  rows : NestedArray (dims.map Prod.snd)

namespace ArrayValue

/-- The bounds, which are written when a lower bound is not the default. -/
def boundsText (value : ArrayValue) : List Char :=
  if value.dims.all fun dim => dim.1 = 1 then []
  else
    value.dims.flatMap (fun dim =>
      '[' :: ((toString dim.1).toList ++ ':' :: ((toString (dim.1 + (dim.2 : ℤ))).toList ++ [']']))) ++
      ['=']

def text (isSpace : Char → Bool) (value : ArrayValue) : String :=
  String.ofList (value.boundsText ++ value.rows.text isSpace)

/-- One dimension with the default lower bound. -/
def Plain (value : ArrayValue) : Prop := ∃ n, value.dims = [(1, n)]

end ArrayValue

/-! ## The fields of a nested array -/

/-- An opening brace in front of the first field. -/
def addOpen : List ArrayField → List ArrayField
  | [] => []
  | field :: fields => { field with opens := field.opens + 1 } :: fields

/-- A closing brace after the last field. -/
def addClose : List ArrayField → List ArrayField
  | [] => []
  | [field] => [{ field with closes := field.closes + 1 }]
  | field :: next :: fields => field :: addClose (next :: fields)

/-- The fields of a nested array. -/
def NestedArray.fields : {dims : List ℕ} → NestedArray dims → List ArrayField
  | [], element => [{ element }]
  | _ :: _, rows => addClose (addOpen (List.ofFn fun i => fields (rows i)).flatten)

section Fields

variable {isSpace : Char → Bool} {fields : List ArrayField}

theorem addOpen_ne_nil (hfields : fields ≠ []) : addOpen fields ≠ [] := by
  cases fields with
  | nil => exact absurd rfl hfields
  | cons field fields => exact cons_ne_nil _ _

theorem addClose_ne_nil (hfields : fields ≠ []) : addClose fields ≠ [] := by
  cases fields with
  | nil => exact absurd rfl hfields
  | cons field fields => cases fields <;> exact cons_ne_nil _ _

theorem fieldsText_addOpen (hfields : fields ≠ []) :
    fieldsText isSpace (addOpen fields) = '{' :: fieldsText isSpace fields := by
  obtain ⟨field, fields, rfl⟩ := exists_cons_of_ne_nil hfields
  cases fields <;>
    simp [addOpen, fieldsText, ArrayField.text, replicate_succ]

theorem fieldsText_addClose (hfields : fields ≠ []) :
    fieldsText isSpace (addClose fields) = fieldsText isSpace fields ++ ['}'] := by
  induction fields with
  | nil => exact absurd rfl hfields
  | cons field fields ih =>
    cases fields with
    | nil => simp [addClose, fieldsText, ArrayField.text, replicate_succ']
    | cons next fields =>
      rw [addClose, fieldsText_cons _ (addClose_ne_nil (cons_ne_nil _ _)),
        ih (cons_ne_nil _ _), fieldsText_cons _ (cons_ne_nil _ _)]
      simp

theorem fieldsText_append {next : List ArrayField} (hfields : fields ≠ []) (hnext : next ≠ []) :
    fieldsText isSpace (fields ++ next) =
      fieldsText isSpace fields ++ ',' :: fieldsText isSpace next := by
  induction fields with
  | nil => exact absurd rfl hfields
  | cons field fields ih =>
    rw [cons_append, fieldsText_cons _ (by simp [hnext])]
    cases fields with
    | nil => simp [fieldsText]
    | cons second fields =>
      rw [ih (cons_ne_nil _ _), fieldsText_cons field (cons_ne_nil _ _)]
      simp

theorem fieldsText_flatten {rows : List (List ArrayField)} (hrows : ∀ row ∈ rows, row ≠ []) :
    fieldsText isSpace rows.flatten = [','].intercalate (rows.map (fieldsText isSpace)) := by
  induction rows with
  | nil => rfl
  | cons row rows ih =>
    have hrest := ih fun r hr => hrows r (mem_cons_of_mem _ hr)
    cases rows with
    | nil => simp
    | cons next rows =>
      have hnext : (next :: rows).flatten ≠ [] := by
        simp [hrows next (by simp)]
      rw [flatten_cons, fieldsText_append (hrows row (by simp)) hnext, hrest]
      simp

theorem map_element_addOpen : (addOpen fields).map (·.element) = fields.map (·.element) := by
  cases fields <;> rfl

theorem map_element_addClose : (addClose fields).map (·.element) = fields.map (·.element) := by
  induction fields using addClose.induct with
  | case1 => rfl
  | case2 => rfl
  | case3 field next fields ih => rw [addClose, map_cons, ih, map_cons (l := next :: fields)]

theorem exists_open_addClose_addOpen (hfields : fields ≠ []) :
    ∃ field rest, addClose (addOpen fields) = field :: rest ∧ 0 < field.opens := by
  obtain ⟨field, rest, rfl⟩ := exists_cons_of_ne_nil hfields
  cases rest <;> exact ⟨_, _, rfl, Nat.succ_pos _⟩

end Fields

namespace NestedArray

variable {isSpace : Char → Bool} {n m : ℕ} {dims : List ℕ}

def inner (rows : NestedArray (n :: dims)) : List ArrayField :=
  (List.ofFn fun i => fields (rows i)).flatten

theorem fields_cons (rows : NestedArray (n :: dims)) :
    rows.fields = addClose (addOpen rows.inner) := rfl

theorem inner_ne_nil (hrows : ∀ row : NestedArray dims, row.fields ≠ [])
    (rows : NestedArray (n :: dims)) : rows.inner ≠ [] := by
  simp [inner, hrows]

theorem fields_ne_nil (rows : NestedArray dims) : rows.fields ≠ [] := by
  induction dims with
  | nil => exact cons_ne_nil _ _
  | cons n dims ih => exact addClose_ne_nil (addOpen_ne_nil (inner_ne_nil ih rows))

theorem fieldsText_inner (rows : NestedArray (n :: dims)) :
    fieldsText isSpace rows.inner =
      [','].intercalate (List.ofFn fun i => fieldsText isSpace (fields (rows i))) := by
  rw [inner, fieldsText_flatten, map_ofFn]
  · rfl
  · simp [fields_ne_nil]

theorem fieldsText_fields (rows : NestedArray dims) :
    fieldsText isSpace rows.fields = rows.text isSpace := by
  induction dims with
  | nil => simp [fields, fieldsText, ArrayField.text, text]
  | cons n dims ih =>
    have hinner := inner_ne_nil fields_ne_nil rows
    rw [fields_cons, fieldsText_addClose (addOpen_ne_nil hinner), fieldsText_addOpen hinner,
      fieldsText_inner]
    simp [ih, text]

theorem text_cons (rows : NestedArray (n :: dims)) :
    rows.text isSpace = '{' :: (fieldsText isSpace rows.inner ++ ['}']) := by
  simp [fieldsText_inner, fieldsText_fields, text]

theorem map_element_inner (hrows : ∀ row : NestedArray dims,
    row.fields.map (·.element) = row.elements) (rows : NestedArray (n :: dims)) :
    rows.inner.map (·.element) = rows.elements := by
  simp [inner, elements, Function.comp_def, hrows]

theorem map_element_fields (rows : NestedArray dims) :
    rows.fields.map (·.element) = rows.elements := by
  induction dims with
  | nil => rfl
  | cons n dims ih =>
    rw [fields_cons, map_element_addClose, map_element_addOpen, map_element_inner ih]

/-- The first field of an array of several dimensions has a brace before it. -/
theorem exists_open (rows : NestedArray (n :: m :: dims)) :
    ∃ field fields, rows.inner = field :: fields ∧ 0 < field.opens := by
  obtain ⟨field, fields, hfirst, hopen⟩ :=
    exists_open_addClose_addOpen (inner_ne_nil fields_ne_nil (rows 0))
  have hinner : rows.inner =
      field :: (fields ++ (List.ofFn fun i => (rows (Fin.succ i)).fields).flatten) := by
    rw [inner, ofFn_succ, flatten_cons, fields_cons, hfirst, cons_append]
  exact ⟨field, _, hinner, hopen⟩

end NestedArray

/-! ## Element parsers and braces -/

section Elements

variable {isSpace : Char → Bool} {T : Type} {parse : String → EtlResult T}
  {texts : String → Prop} {field : ArrayField}

/-- An element parser rejects the texts of elements with braces before them. -/
def RejectsBraces (texts : String → Prop) (parse : String → EtlResult T) : Prop :=
  ∀ opens closes (element : Option String) value, 0 < opens → (∀ s ∈ element, texts s) →
    parse (braced opens (element.getD "NULL") closes) ≠ .ok value

/-- An element parser reads the texts of elements in braces, if at all, as those without. -/
def ReadsBraces (texts : String → Prop) (parse : String → EtlResult T) : Prop :=
  ∀ opens closes (element : Option String) value, 0 < opens + closes →
    (∀ s ∈ element, texts s) → parse (braced opens (element.getD "NULL") closes) = .ok value →
    elementValue parse element = .ok (some value)

/-- The texts that have a brace. -/
def hasBrace (text : String) : Bool := text.toList.any fun c => c = '{' || c = '}'

theorem hasBrace_braced {opens closes : ℕ} (hbraces : 0 < opens + closes) (text : String) :
    hasBrace (braced opens text closes) = true := by
  rw [hasBrace, braced]
  obtain hopens | hcloses : opens ≠ 0 ∨ closes ≠ 0 := by omega
  · simp [hopens]
  · simp [hcloses]

theorem isNullWord_eq_false {text : String} (hbrace : hasBrace text = true) :
    isNullWord text = false := by
  obtain ⟨c, hc, hbrace⟩ := any_eq_true.mp hbrace
  rw [isNullWord, decide_eq_false_iff_not]
  intro hnull
  have hlower : c.toLower ∈ ['n', 'u', 'l', 'l'] := hnull ▸ mem_map_of_mem hc
  obtain rfl | rfl : c = '{' ∨ c = '}' := by simpa using hbrace
  all_goals exact absurd hlower (by decide)

/-- A field with braces is not a null. -/
theorem arrayElement_braces (hbraces : 0 < field.opens + field.closes) :
    arrayElement parse (field.scan isSpace) =
      some <$> parse (braced field.opens (field.element.getD "NULL") field.closes) := by
  have hnull := isNullWord_eq_false (hasBrace_braced hbraces (field.element.getD "NULL"))
  rw [arrayElement, ArrayField.scan, hnull, if_neg (by simp)]

theorem RejectsBraces.arrayElement_ne_ok (hrejects : RejectsBraces texts parse)
    (hopen : 0 < field.opens) (htexts : ∀ s ∈ field.element, texts s) (value : Option T) :
    arrayElement parse (field.scan isSpace) ≠ .ok value := by
  rw [arrayElement_braces (Nat.add_pos_left hopen _)]
  cases hparse : parse (braced field.opens (field.element.getD "NULL") field.closes) with
  | error err => exact nofun
  | ok read => exact absurd hparse (hrejects _ _ _ _ hopen htexts)

theorem ReadsBraces.elementValue_of_arrayElement (hreads : ReadsBraces texts parse)
    (htexts : ∀ s ∈ field.element, texts s) {value : Option T}
    (hvalue : arrayElement parse (field.scan isSpace) = .ok value) :
    elementValue parse field.element = .ok value := by
  by_cases hbraces : 0 < field.opens + field.closes
  · rw [arrayElement_braces hbraces] at hvalue
    cases hparse : parse (braced field.opens (field.element.getD "NULL") field.closes) with
    | error err =>
      rw [hparse] at hvalue
      cases hvalue
    | ok read =>
      rw [hparse] at hvalue
      cases hvalue
      exact hreads _ _ _ _ hbraces htexts hparse
  · obtain ⟨opens, element, closes⟩ := field
    obtain ⟨rfl, rfl⟩ := Nat.add_eq_zero_iff.mp (Nat.eq_zero_of_not_pos hbraces)
    exact (arrayElement_bare element).symm.trans hvalue

/-! ## Reading an array value -/

variable {value : ArrayValue} {m : List (Option T) → ArrayCell} {cell : Cell}

theorem parseCellFromPostgresTextArray_bounds
    (hbounds : ¬ value.dims.all (fun dim => dim.1 = 1) = true) :
    parseCellFromPostgresTextArray (value.text isSpace) parse m ≠ .ok cell := by
  have hhead : (value.text isSpace).toList.head? = some '[' := by
    obtain ⟨dim, dims, hdims⟩ := exists_cons_of_ne_nil value.dims_ne_nil
    have hbounds : ∃ rest, value.boundsText = '[' :: rest := by
      rw [ArrayValue.boundsText, if_neg hbounds, hdims]
      exact ⟨_, rfl⟩
    obtain ⟨rest, hrest⟩ := hbounds
    rw [ArrayValue.text, String.toList_ofList, hrest]
    rfl
  rw [parseCellFromPostgresTextArray]
  split_ifs with hshort hbraces
  · rintro ⟨⟩
  · rintro ⟨⟩
  · rw [hhead] at hbraces
    exact absurd (.inl (by decide)) hbraces

variable (isSpace parse m) in
/-- An array of several dimensions is read by its inner fields. -/
theorem parseCellFromPostgresTextArray_text (hplain : ¬ value.Plain)
    (hbounds : value.dims.all (fun dim => dim.1 = 1) = true) :
    ∃ n k dims, ∃ rows : NestedArray (n :: k :: dims), rows.elements = value.rows.elements ∧
      parseCellFromPostgresTextArray (value.text isSpace) parse m =
        (fun res => .array (m res)) <$> rows.inner.mapM
          fun field => arrayElement parse (field.scan isSpace) := by
  obtain ⟨dims, hdims, rows⟩ := value
  match dims, hdims, rows, hplain, hbounds with
  | [(lower, n)], hdims, rows, hplain, hbounds =>
    -- One dimension: its lower bound is the default, so the array is plain.
    obtain rfl : lower = 1 := by simpa using hbounds
    exact absurd ⟨n, rfl⟩ hplain
  | (_, n) :: (_, k) :: dims, _, rows, _, hbounds =>
    refine ⟨n, k, dims.map Prod.snd, rows, rfl, ?_⟩
    have hinner := NestedArray.inner_ne_nil NestedArray.fields_ne_nil rows
    rw [← parseCellFromPostgresTextArray_fieldsText hinner, ArrayValue.text,
      ArrayValue.boundsText, if_pos hbounds]
    exact congrArg (fun chars => parseCellFromPostgresTextArray (String.ofList chars) parse m)
      (NestedArray.text_cons rows)

theorem RejectsBraces.parseCellFromPostgresTextArray_ne_ok (hrejects : RejectsBraces texts parse)
    (hplain : ¬ value.Plain) (hbounds : value.dims.all (fun dim => dim.1 = 1) = true)
    (htexts : ∀ s, some s ∈ value.rows.elements → texts s) :
    parseCellFromPostgresTextArray (value.text isSpace) parse m ≠ .ok cell := by
  intro hcell
  obtain ⟨n, k, dims, rows, helements, hread⟩ :=
    parseCellFromPostgresTextArray_text isSpace parse m hplain hbounds
  rw [hread] at hcell
  obtain ⟨field, fields, hinner, hopen⟩ := rows.exists_open
  have hfield : field ∈ rows.inner := hinner ▸ mem_cons_self
  obtain ⟨res, hres, -⟩ := map_eq_ok_iff.mp hcell
  obtain ⟨read, hread⟩ := exists_mapM_eq_ok_iff.mp ⟨res, hres⟩ field hfield
  refine hrejects.arrayElement_ne_ok hopen (fun s hs => htexts s ?_) read hread
  rw [← helements, ← rows.map_element_inner NestedArray.map_element_fields]
  exact mem_map.mpr ⟨field, hfield, hs⟩

theorem ReadsBraces.parseCellFromPostgresTextArray_eq_ok (hreads : ReadsBraces texts parse)
    (hplain : ¬ value.Plain) (hbounds : value.dims.all (fun dim => dim.1 = 1) = true)
    (htexts : ∀ s, some s ∈ value.rows.elements → texts s)
    (hcell : parseCellFromPostgresTextArray (value.text isSpace) parse m = .ok cell) :
    parseCellFromPostgresTextArray (arrayLiteral isSpace value.rows.elements) parse m =
      .ok cell := by
  obtain ⟨n, k, dims, rows, helements, hread⟩ :=
    parseCellFromPostgresTextArray_text isSpace parse m hplain hbounds
  rw [hread] at hcell
  obtain ⟨res, hres, hcell⟩ := map_eq_ok_iff.mp hcell
  rw [← helements, ← rows.map_element_inner NestedArray.map_element_fields] at htexts ⊢
  rw [parseCellFromPostgresTextArray_arrayLiteral, mapM_map]
  refine map_eq_ok_iff.mpr ⟨res, mapM_eq_ok_of_imp (fun field hfield read hread => ?_) hres, hcell⟩
  refine hreads.elementValue_of_arrayElement (fun s hs => htexts s ?_) hread
  exact mem_map.mpr ⟨field, hfield, hs⟩

end Elements

/-! ## Array types -/

/-- The array types whose elements keep any text. -/
def keepsElementText : PgType → Bool
  | .charArray | .bpcharArray | .varcharArray | .nameArray | .textArray | .moneyArray => true
  | .other typeName arrayKind => isArrayType (.other typeName arrayKind)
  | _ => false

/-- What the parsers of the libraries do with braces around the texts of elements. Only a UUID may
stand in braces. -/
structure LeafParsers.BraceLaws (lp : LeafParsers) (texts : PgType → String → Prop) : Prop where
  f32 : RejectsBraces (texts .float4Array) lp.f32
  f64 : RejectsBraces (texts .float8Array) lp.f64
  date : RejectsBraces (texts .dateArray) lp.date
  time : RejectsBraces (texts .timeArray) lp.time
  timestamp : RejectsBraces (texts .timestampArray) lp.timestamp
  timestamptzHHMM : RejectsBraces (texts .timestamptzArray) lp.timestamptzHHMM
  timestamptzHHColonMM : RejectsBraces (texts .timestamptzArray) lp.timestamptzHHColonMM
  uuid : ReadsBraces (texts .uuidArray) lp.uuid
  json : RejectsBraces (texts .jsonArray) lp.json
  jsonb : RejectsBraces (texts .jsonbArray) lp.json

section Types

variable {T S : Type} {texts : String → Prop} {parse : String → EtlResult T}

theorem RejectsBraces.of_hasBrace (hparse : ∀ s value, parse s = .ok value → hasBrace s = false) :
    RejectsBraces texts parse := by
  intro opens closes element value hopen _ hvalue
  have hbrace := hasBrace_braced (Nat.add_pos_left hopen closes) (element.getD "NULL")
  rw [hparse _ _ hvalue] at hbrace
  cases hbrace

theorem RejectsBraces.map (hrejects : RejectsBraces texts parse) (f : T → S) :
    RejectsBraces texts fun s => f <$> parse s := by
  intro opens closes element value hopen htexts hvalue
  obtain ⟨read, hread, -⟩ := map_eq_ok_iff.mp hvalue
  exact hrejects opens closes element read hopen htexts hread

theorem rejectsBraces_parseBool : RejectsBraces texts parseBool := by
  refine .of_hasBrace fun s value hvalue => ?_
  rw [parseBool] at hvalue
  split_ifs at hvalue with htrue hfalse
  · rw [htrue]
    decide
  · rw [hfalse]
    decide
  · exact absurd hvalue bailWith_ne_ok

theorem parseDigits_no_brace {lo hi acc value : ℤ} {neg : Bool} {chars : List Char}
    (hvalue : parseDigits lo hi neg acc chars = .ok value) :
    (chars.any fun c => c = '{' || c = '}') = false := by
  induction chars generalizing acc with
  | nil => rfl
  | cons c chars ih =>
    rw [parseDigits] at hvalue
    split at hvalue
    · exact absurd hvalue bailWith_ne_ok
    · have hopen : digitValue '{' = none := by decide
      have hclose : digitValue '}' = none := by decide
      have hc : c ≠ '{' ∧ c ≠ '}' := by
        constructor <;> rintro rfl <;> simp_all
      simp only at hvalue
      split_ifs at hvalue <;>
        first
          | exact absurd hvalue bailWith_ne_ok
          | simpa [hc.1, hc.2] using ih hvalue

theorem rejectsBraces_parseInt (signed : Bool) (lo hi : ℤ) :
    RejectsBraces texts (parseInt signed lo hi) := by
  refine .of_hasBrace fun s value hvalue => ?_
  rw [parseInt] at hvalue
  rw [hasBrace]
  split at hvalue
  · exact absurd hvalue bailWith_ne_ok
  · exact absurd hvalue bailWith_ne_ok
  · exact absurd hvalue bailWith_ne_ok
  · rename_i hs
    simpa [hs] using parseDigits_no_brace hvalue
  · rename_i hs
    split_ifs at hvalue
    · simpa [hs] using parseDigits_no_brace hvalue
    · exact absurd hvalue bailWith_ne_ok
  · exact parseDigits_no_brace hvalue

/-- A text with braces before it starts with one. -/
theorem toList_braced_of_pos {opens : ℕ} (hopen : 0 < opens) (text : String) (closes : ℕ) :
    ∃ rest, (braced opens text closes).toList = '{' :: rest := by
  obtain ⟨opens, rfl⟩ := Nat.exists_eq_succ_of_ne_zero hopen.ne'
  refine ⟨replicate opens '{' ++ text.toList ++ replicate closes '}', ?_⟩
  simp [braced, replicate_succ]

/-- A brace is neither white space nor the start of a number, and no special value has one. -/
theorem fromStr_brace {s : String} {rest : List Char} (hs : s.toList = '{' :: rest) :
    PgNumeric.fromStr s = .error .invalidSyntax := by
  have hskip : skipWhitespace s.toList = '{' :: rest := by
    rw [hs, skipWhitespace, dropWhile_cons_of_neg (by decide)]
  have hmem : '{' ∈ (('{' :: rest).reverse.dropWhile isWhitespace).reverse.map Char.toLower := by
    refine mem_map.mpr ⟨'{', mem_reverse.mpr ?_, by decide⟩
    rw [reverse_cons, dropWhile_append, dropWhile_cons_of_neg (by decide)]
    split_ifs <;> simp
  have hword {word : List Char} (hword : '{' ∉ word) :
      (('{' :: rest).reverse.dropWhile isWhitespace).reverse.map Char.toLower ≠ word :=
    fun heq => hword (heq ▸ hmem)
  have hspecial : parseSpecialValue ('{' :: rest) .positive false = .error .invalidSyntax := by
    rw [parseSpecialValue, if_neg (hword (by decide)),
      if_neg (not_or.mpr ⟨hword (by decide), hword (by decide)⟩)]
  have hdigit : ¬ (peeksDigit ('{' :: rest) = true ∨ ('{' :: rest).head? = some '.') := by
    simp [peeksDigit]
  rw [PgNumeric.fromStr, hskip]
  exact (if_neg hdigit).trans hspecial

theorem rejectsBraces_parseNumeric : RejectsBraces texts parseNumeric := by
  intro opens closes element value hopen _ hvalue
  obtain ⟨rest, hrest⟩ := toList_braced_of_pos hopen (element.getD "NULL") closes
  rw [parseNumeric, fromStr_brace hrest] at hvalue
  exact absurd hvalue bailWith_ne_ok

/-- A byte string starts with a backslash. -/
theorem rejectsBraces_parseByteaHexString : RejectsBraces texts parseByteaHexString := by
  intro opens closes element value hopen _ hvalue
  obtain ⟨rest, hrest⟩ := toList_braced_of_pos hopen (element.getD "NULL") closes
  rw [parseByteaHexString, hrest] at hvalue
  exact absurd hvalue bailWith_ne_ok

end Types

variable {isSpace : Char → Bool} {lp : LeafParsers} {texts : PgType → String → Prop} {typ : PgType}
  {value : ArrayValue} {cell : Cell}

/-- Every array type rejects bounds. -/
theorem parseCellFromPostgresText_bounds (harray : isArrayType typ = true)
    (hbounds : ¬ value.dims.all (fun dim => dim.1 = 1) = true) :
    parseCellFromPostgresText lp typ (value.text isSpace) ≠ .ok cell := by
  cases typ with
  | timestamptzArray =>
    rw [parseCellFromPostgresText]
    split
    · rename_i hfirst
      exact absurd hfirst (parseCellFromPostgresTextArray_bounds hbounds)
    · exact parseCellFromPostgresTextArray_bounds hbounds
  | other typeName arrayKind =>
    rw [parseCellFromPostgresText, if_pos harray]
    exact parseCellFromPostgresTextArray_bounds hbounds
  | boolArray | charArray | bpcharArray | varcharArray | nameArray | textArray | moneyArray
  | int2Array | int4Array | int8Array | float4Array | float8Array | numericArray | byteaArray
  | dateArray | timeArray | timestampArray | uuidArray | jsonArray | jsonbArray | oidArray =>
    rw [parseCellFromPostgresText]
    exact parseCellFromPostgresTextArray_bounds hbounds
  | _ => cases harray

/-- Unless its elements keep any text, an array type rejects a value that is not plain or reads the
elements. -/
theorem parseCellFromPostgresText_of_not_plain (hlaws : lp.BraceLaws texts)
    (harray : isArrayType typ = true) (hkeeps : keepsElementText typ = false)
    (hplain : ¬ value.Plain) (hbounds : value.dims.all (fun dim => dim.1 = 1) = true)
    (htexts : ∀ s, some s ∈ value.rows.elements → texts typ s)
    (hcell : parseCellFromPostgresText lp typ (value.text isSpace) = .ok cell) :
    parseCellFromPostgresText lp typ (arrayLiteral isSpace value.rows.elements) = .ok cell := by
  have hrejects {T : Type} {parse : String → EtlResult T} {m : List (Option T) → ArrayCell}
      (h : RejectsBraces (texts typ) parse)
      (hread : parseCellFromPostgresTextArray (value.text isSpace) parse m = .ok cell) : False :=
    h.parseCellFromPostgresTextArray_ne_ok hplain hbounds htexts hread
  cases typ with
  | boolArray => exact (hrejects rejectsBraces_parseBool hcell).elim
  | int2Array | int4Array
  | int8Array | oidArray => exact (hrejects ((rejectsBraces_parseInt _ _ _).map _) hcell).elim
  | float4Array => exact (hrejects hlaws.f32 hcell).elim
  | float8Array => exact (hrejects hlaws.f64 hcell).elim
  | numericArray => exact (hrejects rejectsBraces_parseNumeric hcell).elim
  | byteaArray => exact (hrejects rejectsBraces_parseByteaHexString hcell).elim
  | dateArray => exact (hrejects hlaws.date hcell).elim
  | timeArray => exact (hrejects hlaws.time hcell).elim
  | timestampArray => exact (hrejects hlaws.timestamp hcell).elim
  | timestamptzArray =>
    -- Both formats are tried, and both reject the braces.
    rw [parseCellFromPostgresText] at hcell
    split at hcell
    · rename_i hfirst
      rw [← hcell] at hrejects
      exact (hrejects hlaws.timestamptzHHMM hfirst).elim
    · exact (hrejects hlaws.timestamptzHHColonMM hcell).elim
  | uuidArray => exact hlaws.uuid.parseCellFromPostgresTextArray_eq_ok hplain hbounds htexts hcell
  | jsonArray => exact (hrejects hlaws.json hcell).elim
  | jsonbArray => exact (hrejects hlaws.jsonb hcell).elim
  | other typeName arrayKind => cases harray.symm.trans hkeeps
  | charArray | bpcharArray | varcharArray | nameArray | textArray | moneyArray => cases hkeeps
  | _ => cases harray

theorem parseCellFromPostgresText_of_keepsElementText (hkeeps : keepsElementText typ = true)
    (str : String) :
    parseCellFromPostgresText lp typ str = parseCellFromPostgresTextArray str .ok .string := by
  cases typ with
  | other typeName arrayKind => exact if_pos hkeeps
  | charArray | bpcharArray | varcharArray | nameArray | textArray | moneyArray => rfl
  | _ => cases hkeeps

/-- A brace before a text makes it another text. -/
theorem braced_ne {opens : ℕ} (hopen : 0 < opens) (text : String) (closes : ℕ) :
    braced opens text closes ≠ text := by
  intro heq
  have hlength := congrArg String.length heq
  simp [braced] at hlength
  omega

/-- A brace before an element changes what is read when any text is kept. -/
theorem arrayElement_ne_elementValue {field : ArrayField} (hopen : 0 < field.opens) :
    arrayElement (T := String) .ok (field.scan isSpace) ≠ elementValue .ok field.element := by
  rw [arrayElement_braces (Nat.add_pos_left hopen _)]
  obtain ⟨opens, element, closes⟩ := field
  cases element with
  | none => rintro ⟨⟩
  | some text =>
    intro heq
    have htext : braced opens text closes = text := by
      simpa [elementValue, Functor.map, Except.map] using heq
    exact braced_ne hopen text closes htext

/-- An array type that keeps any text reads the first element of several dimensions with the braces
before it. -/
theorem misread_of_keepsElementText (lp : LeafParsers) (hkeeps : keepsElementText typ = true)
    (hplain : ¬ value.Plain) (hbounds : value.dims.all (fun dim => dim.1 = 1) = true) :
    ∃ cell, parseCellFromPostgresText lp typ (value.text isSpace) = .ok cell ∧
      parseCellFromPostgresText lp typ (arrayLiteral isSpace value.rows.elements) ≠ .ok cell := by
  obtain ⟨n, k, dims, rows, helements, hread⟩ :=
    parseCellFromPostgresTextArray_text isSpace .ok .string hplain hbounds
  rw [parseCellFromPostgresText_of_keepsElementText hkeeps,
    parseCellFromPostgresText_of_keepsElementText hkeeps, hread,
    parseCellFromPostgresTextArray_arrayLiteral, ← helements,
    ← rows.map_element_inner NestedArray.map_element_fields, mapM_map]
  obtain ⟨field, fields, hinner, hopen⟩ := rows.exists_open
  have hfields : ∀ field ∈ rows.inner, ∃ read,
      arrayElement Except.ok (field.scan isSpace) = (.ok read : EtlResult (Option String)) := by
    intro field _
    rw [arrayElement]
    split_ifs
    · exact ⟨_, rfl⟩
    · exact ⟨_, rfl⟩
  obtain ⟨res, hres⟩ := exists_mapM_eq_ok_iff.mpr hfields
  refine ⟨_, map_eq_ok_iff.mpr ⟨res, hres, rfl⟩, fun hcell => ?_⟩
  obtain ⟨flat, hflat, hcells⟩ := map_eq_ok_iff.mp hcell
  obtain rfl : flat = res := by simpa using hcells
  -- Both reads return the same elements, so they would agree on the first field.
  have hhead {read : ArrayField → EtlResult (Option String)}
      (hflat : rows.inner.mapM read = .ok flat) :
      ∃ element, read field = .ok element ∧ flat.head? = some element := by
    rw [hinner, mapM_cons] at hflat
    obtain ⟨element, helement, hflat⟩ := bind_eq_ok_iff.mp hflat
    obtain ⟨rest, -, hflat⟩ := bind_eq_ok_iff.mp hflat
    exact ⟨element, helement, Except.ok.inj hflat ▸ rfl⟩
  obtain ⟨nested, hnested, hfirst⟩ := hhead hres
  obtain ⟨plain, hplain, hsame⟩ := hhead hflat
  obtain rfl : nested = plain := Option.some.inj (hfirst.symm.trans hsame)
  exact arrayElement_ne_elementValue hopen (hnested.trans hplain.symm)

/-- An array type handles a value that is not plain, by an error or by the elements in order,
exactly when its elements do not keep any text or bounds are written before them. -/
theorem nestedArrays_read_iff (isSpace : Char → Bool) (hlaws : lp.BraceLaws texts)
    (harray : isArrayType typ = true) (hplain : ¬ value.Plain)
    (htexts : ∀ s, some s ∈ value.rows.elements → texts typ s) :
    (∀ cell, parseCellFromPostgresText lp typ (value.text isSpace) = .ok cell →
        parseCellFromPostgresText lp typ (arrayLiteral isSpace value.rows.elements) = .ok cell) ↔
      keepsElementText typ = false ∨ ∃ dim ∈ value.dims, dim.1 ≠ 1 := by
  by_cases hbounds : value.dims.all (fun dim => dim.1 = 1) = true
  · have hdefault : ¬ ∃ dim ∈ value.dims, dim.1 ≠ 1 := by
      simpa [all_eq_true] using hbounds
    rw [or_iff_left hdefault]
    constructor
    · intro hread
      by_contra hkeeps
      obtain ⟨cell, hcell, hflat⟩ :=
        misread_of_keepsElementText lp (Bool.eq_true_of_not_eq_false hkeeps) hplain hbounds
      exact hflat (hread cell hcell)
    · intro hkeeps cell hcell
      exact parseCellFromPostgresText_of_not_plain hlaws harray hkeeps hplain hbounds htexts hcell
  · have hother : ∃ dim ∈ value.dims, dim.1 ≠ 1 := by
      simpa [all_eq_true] using hbounds
    exact iff_of_true
      (fun cell hcell => absurd hcell (parseCellFromPostgresText_bounds harray hbounds)) (.inr hother)

/-- Parsers that reject everything reject braces. -/
theorem LeafParsers.rejectAll_braceLaws (texts : PgType → String → Prop) :
    LeafParsers.rejectAll.BraceLaws texts := by
  constructor <;> intro opens closes element value _ _ <;> exact nofun

def numericRows : ArrayValue where
  dims := [(1, 1), (1, 1)]
  dims_ne_nil := cons_ne_nil _ _
  rows := ![![some "1.5", none], ![some "2", some "-3"]]

/-- One dimension whose lower bound is zero. -/
def zeroBased : ArrayValue where
  dims := [(0, 1)]
  dims_ne_nil := cons_ne_nil _ _
  rows := ![some "a", some "b"]

/-- Two rows of numerics, and texts behind bounds. -/
theorem nestedArrays_read_numeric_bounds :
    (numericRows.text Char.isWhitespace = "\x7b\x7b1.5,NULL\x7d,\x7b2,-3\x7d\x7d" ∧
      ∀ cell, parseCellFromPostgresText .rejectAll .numericArray
          (numericRows.text Char.isWhitespace) = .ok cell →
        parseCellFromPostgresText .rejectAll .numericArray
          (arrayLiteral Char.isWhitespace numericRows.rows.elements) = .ok cell) ∧
    zeroBased.text Char.isWhitespace = "[0:1]=\x7ba,b\x7d" ∧
      ∀ cell, parseCellFromPostgresText .rejectAll .textArray
          (zeroBased.text Char.isWhitespace) = .ok cell →
        parseCellFromPostgresText .rejectAll .textArray
          (arrayLiteral Char.isWhitespace zeroBased.rows.elements) = .ok cell :=
  ⟨⟨by decide, (nestedArrays_read_iff Char.isWhitespace
      (LeafParsers.rejectAll_braceLaws fun _ _ => True) rfl
      (fun ⟨_, h⟩ => by cases h) (fun _ _ => trivial)).mpr (.inl rfl)⟩,
    by decide, (nestedArrays_read_iff Char.isWhitespace
      (LeafParsers.rejectAll_braceLaws fun _ _ => True) rfl
      (fun ⟨_, h⟩ => by cases h) (fun _ _ => trivial)).mpr (.inr ⟨(0, 1), by decide, by decide⟩)⟩

/-- Two rows of two texts. -/
def textRows : ArrayValue where
  dims := [(1, 1), (1, 1)]
  dims_ne_nil := cons_ne_nil _ _
  rows := ![![some "a", some "b"], ![some "c", some "d"]]

/-- A text array of two dimensions is read as strings with the inner braces in them. -/
theorem textArray_returns_fragments :
    ¬ textRows.Plain ∧
      textRows.text Char.isWhitespace = "\x7b\x7ba,b\x7d,\x7bc,d\x7d\x7d" ∧
      textRows.rows.elements = [some "a", some "b", some "c", some "d"] ∧
      parseCellFromPostgresText .rejectAll .textArray (textRows.text Char.isWhitespace) =
        .ok (.array (.string [some "\x7ba", some "b\x7d", some "\x7bc", some "d\x7d"])) :=
  ⟨fun ⟨_, h⟩ => (by cases h), by decide, by decide, by decide⟩

end Etl
