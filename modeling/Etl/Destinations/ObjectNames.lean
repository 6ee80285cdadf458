import Etl.Destinations.TableName

/-! # Names of the objects at the destinations

Each destination makes the names of its tables from the source names. ClickHouse adds a view to a
table, with a suffix on the encoded name; Snowflake converts the encoded name to upper case; Iceberg
adds a suffix, to the encoded name in a single namespace and to the plain table name when each
schema has a namespace of its own.

None of them keeps all source tables apart. A view has the name of the table whose source name ends
like the suffix (`objectNames_disjoint_iff`); upper case, and the characters a namespace may have,
fold different source names together (`destinationNames_differ_iff`).

Reference: `etl-destinations/src/iceberg/core.rs` (`schema_to_namespace`) and
`etl-destinations/src/snowflake/core.rs`.
-/

namespace Etl

open List

/-! ## ClickHouse -/

namespace ClickHouse

def currentViewSuffix : String := "__current"

def currentViewName (clickhouseTableName : String) : String :=
  clickhouseTableName ++ currentViewSuffix

/-- The objects created for a table with `ReplacingMergeTree`. -/
def objectNames (clickhouseTableName : String) : List String :=
  [clickhouseTableName, currentViewName clickhouseTableName]

theorem toList_currentViewName {b : TableName} {table : String} (htable : table.toList = b.encoded) :
    (currentViewName table).toList = (⟨b.schema, b.name ++ "_current"⟩ : TableName).encoded := by
  have hsuffix : currentViewSuffix.toList = doubleSep '_' "_current".toList := by decide
  rw [currentViewName, String.toList_append, htable, hsuffix, TableName.encoded, TableName.encoded,
    String.toList_append, doubleSep_append, append_assoc, cons_append]

theorem encodable_append_current {b : TableName} (hb : b.Encodable) :
    (⟨b.schema, b.name ++ "_current"⟩ : TableName).Encodable := by
  refine ⟨hb.schema, ?_, ?_, ?_⟩
  · rw [String.toList_append, List.head?_append_of_ne_nil _ hb.name.ne_nil]
    exact hb.name.head_ne
  · rw [String.toList_append, List.getLast?_append_of_ne_nil _ (by decide)]
    decide
  · simp

/-- A table has the name of a view when its source name ends like the suffix. -/
theorem eq_currentViewName_iff {a b : TableName} {tableA tableB : String}
    (ha : tryStringifyTableName a = .ok tableA) (hb : tryStringifyTableName b = .ok tableB) :
    tableA = currentViewName tableB ↔ a.schema = b.schema ∧ a.name = b.name ++ "_current" := by
  obtain ⟨ha, hnameA⟩ := tryStringifyTableName_eq_ok_iff.mp ha
  obtain ⟨hb, hnameB⟩ := tryStringifyTableName_eq_ok_iff.mp hb
  rw [← String.toList_inj, hnameA, toList_currentViewName hnameB]
  constructor
  · intro h
    have heq := TableName.encoded_inj ha (encodable_append_current hb) h
    rw [heq]
    exact ⟨rfl, rfl⟩
  · rintro ⟨hschema, hname⟩
    rw [← hname, ← hschema]

/-- The objects of two tables share a name when the name of one source table is the name of the
other with the suffix of the view. -/
theorem objectNames_disjoint_iff {a b : TableName} {tableA tableB : String}
    (ha : tryStringifyTableName a = .ok tableA) (hb : tryStringifyTableName b = .ok tableB)
    (hne : a ≠ b) :
    (objectNames tableA).Disjoint (objectNames tableB) ↔
      ¬(a.schema = b.schema ∧ (a.name = b.name ++ "_current" ∨ b.name = a.name ++ "_current")) := by
  have htables : tableA ≠ tableB := by
    rintro rfl
    exact hne (tryStringifyTableName_inj ha hb)
  have hviews : currentViewName tableA ≠ currentViewName tableB := by
    intro h
    rw [currentViewName, currentViewName, ← String.toList_inj, String.toList_append,
      String.toList_append] at h
    exact htables (String.toList_inj.mp (append_cancel_right h))
  have hdisjoint : (objectNames tableA).Disjoint (objectNames tableB) ↔
      tableA ≠ currentViewName tableB ∧ tableB ≠ currentViewName tableA := by
    simp only [objectNames, disjoint_cons_left, disjoint_nil_left, mem_cons,
      not_mem_nil, or_false, not_or, and_true]
    constructor
    · rintro ⟨⟨-, hview⟩, htable, -⟩
      exact ⟨hview, Ne.symm htable⟩
    · rintro ⟨hview, htable⟩
      exact ⟨⟨htables, hview⟩, Ne.symm htable, hviews⟩
  rw [hdisjoint, Ne, Ne, eq_currentViewName_iff ha hb, eq_currentViewName_iff hb ha]
  constructor
  · rintro ⟨hleft, hright⟩ ⟨hschema, hname | hname⟩
    · exact hleft ⟨hschema, hname⟩
    · exact hright ⟨hschema.symm, hname⟩
  · intro h
    exact ⟨fun hleft => h ⟨hleft.1, .inl hleft.2⟩,
      fun hright => h ⟨hright.1.symm, .inr hright.2⟩⟩

theorem objectNames_disjoint_users_orders :
    (objectNames "public_users").Disjoint (objectNames "public_user__orders") := by
  have h := objectNames_disjoint_iff (a := ⟨"public", "users"⟩) (b := ⟨"public", "user_orders"⟩) rfl rfl
    (by decide)
  exact h.mpr (by decide)

/-- The view of `users` is the table of `users_current`. -/
theorem objectNames_share_name :
    tryStringifyTableName ⟨"public", "users"⟩ = .ok "public_users" ∧
      tryStringifyTableName ⟨"public", "users_current"⟩ = .ok "public_users__current" ∧
      ¬(objectNames "public_users__current").Disjoint (objectNames "public_users") := by
  refine ⟨rfl, rfl, fun h => ?_⟩
  exact h (a := "public_users__current") (by decide) (by decide)

end ClickHouse

/-! ## Letter case -/

/-- How characters outside ASCII change their case. None of them disappears or becomes an
underscore. -/
structure CaseMapping where
  upper : Char → List Char
  lower : Char → List Char
  upper_ne_nil : ∀ c, upper c ≠ []
  underscore_not_mem_upper : ∀ c, 128 ≤ c.toNat → '_' ∉ upper c

namespace CaseMapping

/-- Characters outside ASCII have no case. -/
def caseless : CaseMapping where
  upper c := [c]
  lower c := [c]
  upper_ne_nil _ := cons_ne_nil _ _
  underscore_not_mem_upper c hc hmem := by
    rw [← mem_singleton.mp hmem] at hc
    exact absurd hc (by decide)

variable (casing : CaseMapping)

def upperChar (c : Char) : List Char := if c.toNat < 128 then [c.toUpper] else casing.upper c

def lowerChar (c : Char) : List Char := if c.toNat < 128 then [c.toLower] else casing.lower c

def toUppercase (text : String) : String := String.ofList (text.toList.flatMap casing.upperChar)

/-- The lower case of a text. Which of its two lower case forms the letter sigma takes depends on
its position in a word; both are outside ASCII, and no use of the text tells them apart. -/
def toLowercase (text : String) : String := String.ofList (text.toList.flatMap casing.lowerChar)

theorem upperChar_underscore : casing.upperChar '_' = ['_'] := rfl

theorem upperChar_ne_nil (c : Char) : casing.upperChar c ≠ [] := by
  unfold upperChar
  split_ifs
  · exact cons_ne_nil _ _
  · exact casing.upper_ne_nil c

theorem underscore_not_mem_upperChar {c : Char} (hc : c ≠ '_') : '_' ∉ casing.upperChar c := by
  unfold upperChar
  split_ifs with hascii
  · have hupper : ∀ n : Fin 128, Char.ofNat n ≠ '_' → '_' ≠ (Char.ofNat n).toUpper := by decide
    have h := hupper ⟨c.toNat, hascii⟩
    rw [Char.ofNat_toNat] at h
    exact mt mem_singleton.mp (h hc)
  · exact casing.underscore_not_mem_upper c (by omega)

theorem toList_toUppercase (text : String) :
    (casing.toUppercase text).toList = text.toList.flatMap casing.upperChar := by
  rw [toUppercase, String.toList_ofList]

/-- Upper case goes through the encoding of a name. -/
theorem flatMap_encoded (a : TableName) :
    a.encoded.flatMap casing.upperChar =
      (⟨casing.toUppercase a.schema, casing.toUppercase a.name⟩ : TableName).encoded := by
  have hdouble : ∀ text : String, (doubleSep '_' text.toList).flatMap casing.upperChar =
      doubleSep '_' (casing.toUppercase text).toList := by
    intro text
    rw [toList_toUppercase, doubleSep_flatMap casing.upperChar_underscore fun c hc =>
      casing.underscore_not_mem_upperChar hc]
  rw [TableName.encoded, flatMap_append, flatMap_cons, hdouble, hdouble]
  rfl

theorem encodableComponent_toUppercase {value : String} (hvalue : EncodableComponent value) :
    EncodableComponent (casing.toUppercase value) := by
  -- The first and the last character become words that do not contain an underscore.
  refine ⟨?_, ?_, ?_⟩
  · obtain ⟨c, chars, hchars⟩ := exists_cons_of_ne_nil hvalue.ne_nil
    have hc : c ≠ '_' := fun h => hvalue.head_ne (by rw [hchars, h]; rfl)
    rw [toList_toUppercase, hchars, flatMap_cons,
      List.head?_append_of_ne_nil _ (casing.upperChar_ne_nil c)]
    exact fun h => casing.underscore_not_mem_upperChar hc (mem_of_mem_head? h)
  · obtain ⟨chars, c, hchars⟩ := (eq_nil_or_concat' _).resolve_left hvalue.ne_nil
    have hc : c ≠ '_' := fun h => hvalue.last_ne (by rw [hchars, h, List.getLast?_concat])
    rw [toList_toUppercase, hchars, flatMap_append, flatMap_singleton,
      List.getLast?_append_of_ne_nil _ (casing.upperChar_ne_nil c)]
    exact fun h => casing.underscore_not_mem_upperChar hc (mem_of_mem_getLast? h)
  · obtain ⟨c, chars, hchars⟩ := exists_cons_of_ne_nil hvalue.ne_nil
    rw [toList_toUppercase, hchars]
    exact append_ne_nil_of_left_ne_nil (casing.upperChar_ne_nil c) _

theorem encodable_toUppercase {a : TableName} (ha : a.Encodable) :
    (⟨casing.toUppercase a.schema, casing.toUppercase a.name⟩ : TableName).Encodable :=
  ⟨casing.encodableComponent_toUppercase ha.schema, casing.encodableComponent_toUppercase ha.name⟩

end CaseMapping

/-! ## Snowflake -/

def snowflakeTableName (casing : CaseMapping) (tableName : TableName) : EtlResult String := do
  return casing.toUppercase (← tryStringifyTableName tableName)

/-! ## Iceberg -/

/-- The namespaces in which tables are created. -/
inductive DestinationNamespace where
  | single (name : String)
  | onePerSchema
  deriving DecidableEq, Repr

namespace DestinationNamespace

def getOr (destination : DestinationNamespace) (tableNamespace : String) : String :=
  match destination with
  | .single name => name
  | .onePerSchema => tableNamespace

def isSingle : DestinationNamespace → Bool
  | .single _ => true
  | .onePerSchema => false

end DestinationNamespace

def tableNameToIcebergTableName (tableName : TableName) (singleDestinationNamespace : Bool) :
    EtlResult String :=
  if singleDestinationNamespace then do
    return (← tryStringifyTableName tableName) ++ "_changelog"
  else .ok (tableName.name ++ "_changelog")

/-- Whether a namespace may start and end with the character. -/
def isNamespaceEdge (c : Char) : Bool := c.isLower || c.isDigit

/-- A namespace must not start with `aws`. -/
def avoidReserved (chars : List Char) : List Char :=
  if ['a', 'w', 's'] <+: chars then 's' :: '_' :: chars else chars

/-- A namespace starts with a letter or a digit. -/
def startNamespace (chars : List Char) : List Char :=
  if chars.head?.any (!isNamespaceEdge ·) then 's' :: chars else chars

/-- A namespace ends with a letter or a digit. -/
def endNamespace (chars : List Char) : List Char :=
  if chars.getLast?.any (!isNamespaceEdge ·) then chars ++ ['e'] else chars

def schemaToNamespace (casing : CaseMapping) (schema : String) : String :=
  let folded := (casing.toLowercase schema).toList.map fun c =>
    if isNamespaceEdge c ∨ c = '_' then c else '_'
  String.ofList (endNamespace (startNamespace (avoidReserved folded)))

/-- The namespace and the name of the table that is created at Iceberg. -/
def icebergTable (casing : CaseMapping) (destination : DestinationNamespace)
    (tableName : TableName) : EtlResult (String × String) := do
  let icebergTableName ← tableNameToIcebergTableName tableName destination.isSingle
  return (destination.getOr (schemaToNamespace casing tableName.schema), icebergTableName)

/-! ## Schemas that share a namespace

What is put before and behind a name is not marked as such, so a schema that is called like the
namespace of another one shares it. The stem of a name reads both as one. -/

/-- Reads `s_` at the front as `_`, and `aws` at the front as `_aws`. -/
def stemFront (chars : List Char) : List Char :=
  if ['s', '_'] <+: chars then chars.tail
  else if ['a', 'w', 's'] <+: chars then '_' :: chars
  else chars

/-- Reads `_e` at the end as `_`. -/
def stemBack (chars : List Char) : List Char :=
  if chars.getLast? = some 'e' ∧ chars.dropLast.getLast? = some '_' then chars.dropLast else chars

/-- The stem of a schema name: lower case letters and digits with every other character read as an
underscore, and both ends as above. -/
def namespaceStem (casing : CaseMapping) (schema : String) : List Char :=
  stemBack <| stemFront <| (casing.toLowercase schema).toList.map fun c =>
    if c.isLower || c.isDigit then c else '_'

section Stems

variable {chars : List Char}

theorem stemBack_concat (chars : List Char) (c : Char) :
    stemBack (chars ++ [c]) =
      if c = 'e' ∧ chars.getLast? = some '_' then chars else chars ++ [c] := by
  simp [stemBack]

theorem endNamespace_concat (chars : List Char) (c : Char) :
    endNamespace (chars ++ [c]) =
      if isNamespaceEdge c then chars ++ [c] else chars ++ [c] ++ ['e'] := by
  cases hc : isNamespaceEdge c <;> simp [endNamespace, hc]

theorem stemFront_append_e (chars : List Char) :
    stemFront (chars ++ ['e']) = stemFront chars ++ ['e'] := by
  have hprefix_iff {word : List Char} (hword : word.getLast? ≠ some 'e') :
      word <+: chars ++ ['e'] ↔ word <+: chars := by
    rw [prefix_concat_iff, or_iff_right]
    rintro rfl
    simp at hword
  have hmarked := @hprefix_iff ['s', '_'] (by decide)
  have hreserved := @hprefix_iff ['a', 'w', 's'] (by decide)
  simp only [stemFront, hmarked, hreserved]
  split_ifs with hmarked hreserved
  · obtain ⟨rest, rfl⟩ := hmarked
    rfl
  · rfl
  · rfl

/-- What is put at the front depends on the stem only. -/
theorem startNamespace_avoidReserved (chars : List Char) :
    startNamespace (avoidReserved chars) = startNamespace (stemFront chars) := by
  rw [avoidReserved, stemFront]
  split_ifs with hreserved hmarked hmarked
  · obtain ⟨rest, rfl⟩ := hreserved
    exact absurd hmarked (by simp)
  · rfl
  · obtain ⟨rest, rfl⟩ := hmarked
    rfl
  · rfl

/-- What is put at the front keeps the stem. -/
theorem stemFront_startNamespace (hchars : ∀ c ∈ chars, isNamespaceEdge c = true ∨ c = '_') :
    stemFront (startNamespace (avoidReserved chars)) = stemFront chars := by
  rw [avoidReserved]
  split_ifs with hreserved
  · obtain ⟨rest, rfl⟩ := hreserved
    simp [startNamespace, isNamespaceEdge, stemFront]
  · cases chars with
    | nil => rfl
    | cons c rest =>
      obtain hedge | rfl := hchars c mem_cons_self
      · simp [startNamespace, hedge]
      · simp [startNamespace, isNamespaceEdge, stemFront]

/-- What is put at the end depends on the stem only. -/
theorem endNamespace_stemBack (chars : List Char) :
    endNamespace (stemBack chars) = endNamespace chars := by
  obtain rfl | ⟨front, c, rfl⟩ := eq_nil_or_concat' chars
  · rfl
  · rw [stemBack_concat]
    split_ifs with hmarked
    · obtain ⟨rfl, hlast⟩ := hmarked
      obtain ⟨rest, rfl⟩ := getLast?_eq_some_iff.mp hlast
      rw [endNamespace_concat, endNamespace_concat]
      rfl
    · rfl

/-- An `e` is put at the end of a name that ends with an underscore. -/
theorem endNamespace_eq (hchars : ∀ c ∈ chars, isNamespaceEdge c = true ∨ c = '_') :
    endNamespace chars = if chars.getLast? = some '_' then chars ++ ['e'] else chars := by
  obtain rfl | ⟨front, c, rfl⟩ := eq_nil_or_concat' chars
  · rfl
  · rw [endNamespace_concat, getLast?_concat]
    obtain hedge | rfl := hchars c (mem_append_right _ (mem_singleton_self c))
    · have hne : c ≠ '_' := by
        rintro rfl
        exact absurd hedge (by decide)
      simp [hedge, hne]
    · rfl

theorem getLast?_stemFront : (stemFront chars).getLast? = chars.getLast? := by
  rw [stemFront]
  split_ifs with hmarked hreserved
  · obtain ⟨rest, rfl⟩ := hmarked
    cases rest <;> simp
  · obtain ⟨rest, rfl⟩ := hreserved
    cases rest <;> simp
  · rfl

theorem stemBack_append_e (hlast : chars.getLast? = some '_') :
    stemBack (chars ++ ['e']) = stemBack chars := by
  obtain ⟨front, rfl⟩ := getLast?_eq_some_iff.mp hlast
  rw [stemBack_concat, if_pos ⟨rfl, hlast⟩, stemBack_concat,
    if_neg (fun h => absurd h.1 (by decide))]

theorem endNamespace_startNamespace (chars : List Char) :
    endNamespace (startNamespace chars) = startNamespace (endNamespace chars) := by
  cases chars with
  | nil => rfl
  | cons c rest =>
    have hlast : ('s' :: c :: rest).getLast? = (c :: rest).getLast? := getLast?_cons_cons
    by_cases hhead : isNamespaceEdge c = true <;>
      by_cases hend : (c :: rest).getLast?.any (!isNamespaceEdge ·) = true <;>
      simp [startNamespace, endNamespace, hlast, hhead, hend]

theorem isNamespaceEdge_or_of_mem_startNamespace
    (hchars : ∀ c ∈ chars, isNamespaceEdge c = true ∨ c = '_') :
    ∀ c ∈ startNamespace (avoidReserved chars), isNamespaceEdge c = true ∨ c = '_' := by
  have hs : isNamespaceEdge 's' = true := by decide
  rw [avoidReserved, startNamespace]
  split_ifs <;> simpa [hs] using hchars

/-- The namespace of a folded name depends on the stem only, and has the same stem. -/
theorem endNamespace_eq_iff {others : List Char}
    (hchars : ∀ c ∈ chars, isNamespaceEdge c = true ∨ c = '_')
    (hothers : ∀ c ∈ others, isNamespaceEdge c = true ∨ c = '_') :
    endNamespace (startNamespace (avoidReserved chars)) =
        endNamespace (startNamespace (avoidReserved others)) ↔
      stemBack (stemFront chars) = stemBack (stemFront others) := by
  have hstem {chars : List Char} (hchars : ∀ c ∈ chars, isNamespaceEdge c = true ∨ c = '_') :
      stemBack (stemFront (endNamespace (startNamespace (avoidReserved chars)))) =
        stemBack (stemFront chars) := by
    have hfront := stemFront_startNamespace hchars
    rw [endNamespace_eq (isNamespaceEdge_or_of_mem_startNamespace hchars)]
    split_ifs with hlast
    · rw [stemFront_append_e, stemBack_append_e (getLast?_stemFront.trans hlast), hfront]
    · rw [hfront]
  constructor
  · intro h
    rw [← hstem hchars, h, hstem hothers]
  · intro h
    simp only [startNamespace_avoidReserved, endNamespace_startNamespace]
    rw [← endNamespace_stemBack, h, endNamespace_stemBack]

end Stems

/-- Schemas share a namespace when their names have the same stem. -/
theorem schemaToNamespace_eq_iff (casing : CaseMapping) (schema other : String) :
    schemaToNamespace casing schema = schemaToNamespace casing other ↔
      namespaceStem casing schema = namespaceStem casing other := by
  have hfold (schema : String) : ((casing.toLowercase schema).toList.map fun c =>
      if isNamespaceEdge c ∨ c = '_' then c else '_') =
      (casing.toLowercase schema).toList.map fun c => if c.isLower || c.isDigit then c else '_' := by
    refine map_congr_left fun c _ => ?_
    by_cases hc : c = '_' <;> simp [isNamespaceEdge, hc]
  have hchars (schema : String) : ∀ c ∈ (casing.toLowercase schema).toList.map
      (fun c => if c.isLower || c.isDigit then c else '_'),
      isNamespaceEdge c = true ∨ c = '_' := by
    refine forall_mem_map.mpr fun c _ => ?_
    split_ifs with hedge
    · exact .inl hedge
    · exact .inr rfl
  rw [schemaToNamespace, schemaToNamespace, hfold, hfold, namespaceStem, namespaceStem,
    String.ofList_inj, endNamespace_eq_iff (hchars schema) (hchars other)]

/-! ## Tables that share a name -/

variable {a b : TableName}

theorem snowflakeTableName_eq_ok_iff {casing : CaseMapping} {name : String} :
    snowflakeTableName casing a = .ok name ↔
      a.Encodable ∧ name.toList =
        (⟨casing.toUppercase a.schema, casing.toUppercase a.name⟩ : TableName).encoded := by
  rw [snowflakeTableName, bind_eq_ok_iff]
  constructor
  · rintro ⟨encoded, hencoded, hname⟩
    obtain ⟨ha, hencoded⟩ := tryStringifyTableName_eq_ok_iff.mp hencoded
    refine ⟨ha, ?_⟩
    rw [← Except.ok.inj hname, casing.toList_toUppercase, hencoded, casing.flatMap_encoded]
  · rintro ⟨ha, hname⟩
    refine ⟨String.ofList a.encoded, tryStringifyTableName_eq_ok_iff.mpr
      ⟨ha, String.toList_ofList⟩, congrArg Except.ok ?_⟩
    rw [← String.toList_inj, casing.toList_toUppercase, String.toList_ofList,
      casing.flatMap_encoded, hname]

/-- Snowflake keeps names apart that differ in more than their case. -/
theorem snowflakeTableName_ne_iff (casing : CaseMapping) :
    (∀ nameA nameB, snowflakeTableName casing a = .ok nameA →
        snowflakeTableName casing b = .ok nameB → nameA ≠ nameB) ↔
      (a.Encodable → b.Encodable → ¬(casing.toUppercase a.schema = casing.toUppercase b.schema ∧
        casing.toUppercase a.name = casing.toUppercase b.name)) := by
  constructor
  · rintro hnames ha hb ⟨hschema, hname⟩
    refine hnames _ _ (snowflakeTableName_eq_ok_iff.mpr ⟨ha, String.toList_ofList⟩)
      (snowflakeTableName_eq_ok_iff.mpr ⟨hb, String.toList_ofList⟩) ?_
    rw [hschema, hname]
  · rintro hcase nameA nameB hnameA hnameB rfl
    obtain ⟨ha, hnameA⟩ := snowflakeTableName_eq_ok_iff.mp hnameA
    obtain ⟨hb, hnameB⟩ := snowflakeTableName_eq_ok_iff.mp hnameB
    have heq := TableName.encoded_inj (casing.encodable_toUppercase ha)
      (casing.encodable_toUppercase hb) (hnameA.symm.trans hnameB)
    exact hcase ha hb (TableName.mk.inj heq)

theorem append_changelog_inj {left right : String}
    (h : left ++ "_changelog" = right ++ "_changelog") : left = right := by
  rw [← String.toList_inj, String.toList_append, String.toList_append] at h
  exact String.toList_inj.mp (append_cancel_right h)

theorem icebergTable_single_ne (casing : CaseMapping) (hne : a ≠ b) (name : String)
    {tableA tableB : String × String} (ha : icebergTable casing (.single name) a = .ok tableA)
    (hb : icebergTable casing (.single name) b = .ok tableB) : tableA ≠ tableB := by
  rintro rfl
  rw [icebergTable, bind_eq_ok_iff] at ha hb
  obtain ⟨icebergA, hnameA, hpairA⟩ := ha
  obtain ⟨icebergB, hnameB, hpairB⟩ := hb
  obtain ⟨encodedA, hencodedA, hsuffixA⟩ := bind_eq_ok_iff.mp hnameA
  obtain ⟨encodedB, hencodedB, hsuffixB⟩ := bind_eq_ok_iff.mp hnameB
  have hpairs := Prod.mk.inj ((Except.ok.inj hpairA).trans (Except.ok.inj hpairB).symm)
  have hsuffix : encodedA ++ "_changelog" = encodedB ++ "_changelog" :=
    (Except.ok.inj hsuffixA).trans (hpairs.2.trans (Except.ok.inj hsuffixB).symm)
  obtain rfl := append_changelog_inj hsuffix
  exact hne (tryStringifyTableName_inj hencodedA hencodedB)

theorem icebergTable_onePerSchema (casing : CaseMapping) (a : TableName) :
    icebergTable casing .onePerSchema a =
      .ok (schemaToNamespace casing a.schema, a.name ++ "_changelog") := rfl

/-- Two source tables have different tables at Snowflake, and at Iceberg in both namespace modes,
unless upper case makes their names equal, or they have the same table name in schemas whose names
have the same stem. -/
theorem destinationNames_differ_iff (casing : CaseMapping) (hne : a ≠ b) :
    ((∀ nameA nameB, snowflakeTableName casing a = .ok nameA →
        snowflakeTableName casing b = .ok nameB → nameA ≠ nameB) ∧
      ∀ destination tableA tableB, icebergTable casing destination a = .ok tableA →
        icebergTable casing destination b = .ok tableB → tableA ≠ tableB) ↔
    (a.Encodable → b.Encodable → ¬(casing.toUppercase a.schema = casing.toUppercase b.schema ∧
        casing.toUppercase a.name = casing.toUppercase b.name)) ∧
      ¬(namespaceStem casing a.schema = namespaceStem casing b.schema ∧ a.name = b.name) := by
  rw [snowflakeTableName_ne_iff, ← schemaToNamespace_eq_iff]
  refine and_congr_right fun _ => ?_
  constructor
  · rintro htables ⟨hschema, hname⟩
    refine htables .onePerSchema _ _ (icebergTable_onePerSchema casing a)
      (icebergTable_onePerSchema casing b) ?_
    rw [hschema, hname]
  · intro hfolded destination tableA tableB ha hb
    cases destination with
    | single name => exact icebergTable_single_ne casing hne name ha hb
    | onePerSchema =>
      rintro rfl
      obtain ⟨hschema, hname⟩ := Prod.mk.inj ((Except.ok.inj ha).trans (Except.ok.inj hb).symm)
      exact hfolded ⟨hschema, append_changelog_inj hname⟩

theorem destinationNames_differ_same_table_name :
    (∀ nameA nameB, snowflakeTableName .caseless ⟨"aws_sales", "users"⟩ = .ok nameA →
        snowflakeTableName .caseless ⟨"s-Sales", "users"⟩ = .ok nameB → nameA ≠ nameB) ∧
      ∀ destination tableA tableB,
        icebergTable .caseless destination ⟨"aws_sales", "users"⟩ = .ok tableA →
        icebergTable .caseless destination ⟨"s-Sales", "users"⟩ = .ok tableB → tableA ≠ tableB := by
  refine (destinationNames_differ_iff .caseless (by decide)).mpr ⟨?_, by decide⟩
  intro _ _
  decide

/-- Tables whose names differ in case share a table at Snowflake. Tables of schemas that differ in
case, or in a character that a namespace does not have, share a table at Iceberg. -/
theorem destinationNames_collide :
    snowflakeTableName .caseless ⟨"public", "users"⟩ = .ok "PUBLIC_USERS" ∧
      snowflakeTableName .caseless ⟨"public", "Users"⟩ = .ok "PUBLIC_USERS" ∧
      icebergTable .caseless .onePerSchema ⟨"sales", "users"⟩ = .ok ("sales", "users_changelog") ∧
      icebergTable .caseless .onePerSchema ⟨"Sales", "users"⟩ = .ok ("sales", "users_changelog") ∧
      icebergTable .caseless .onePerSchema ⟨"a-b", "users"⟩ = .ok ("a_b", "users_changelog") ∧
      icebergTable .caseless .onePerSchema ⟨"a_b", "users"⟩ = .ok ("a_b", "users_changelog") := by
  decide

end Etl
