import Etl.Common.SeparatorCode
import Etl.Error
import Etl.Types.Schema

/-! # Destination table names

The encoding of a schema-qualified table name as one identifier: underscores are doubled and a
single one separates the two parts. Different names have different encodings, because a part that
begins with an underscore is rejected (`tryStringifyTableName_inj`).

Reference: `etl-destinations/src/table_name.rs`.
-/

namespace Etl

/-- Rejects the components the encoding cannot carry. -/
def validateTableNameComponentForUnderscoreEncoding (value componentName : String) :
    EtlResult Unit :=
  if value.toList.head? = some '_' ∨ value.toList.getLast? = some '_' then
    bailWith .validationError "Destination table name cannot use leading or trailing underscores"
      (componentName ++ " '" ++ value ++ "' cannot start or end with '_' because " ++
        "underscore-based destination table naming would be ambiguous")
  else if value.toList.isEmpty then
    bailWith .validationError "Destination table name component cannot be empty"
      (componentName ++ " cannot be empty when building an underscore-escaped destination " ++
        "table name")
  else .ok ()

/-- Doubles the underscores of a component. -/
def stringifyTableNameComponent (value componentName : String) : EtlResult String := do
  validateTableNameComponentForUnderscoreEncoding value componentName
  return String.ofList (value.toList.flatMap fun c => if c = '_' then ['_', '_'] else [c])

def tryStringifyTableName (tableName : TableName) : EtlResult String := do
  let escapedSchema ← stringifyTableNameComponent tableName.schema "schema name"
  let escapedTable ← stringifyTableNameComponent tableName.name "table name"
  return escapedSchema ++ "_" ++ escapedTable

/-! ## Different names have different encodings -/

/-- Whether the encoding carries the component. -/
structure EncodableComponent (value : String) : Prop where
  head_ne : value.toList.head? ≠ some '_'
  last_ne : value.toList.getLast? ≠ some '_'
  ne_nil : value.toList ≠ []

/-- Whether the encoding carries the name. -/
structure TableName.Encodable (tableName : TableName) : Prop where
  schema : EncodableComponent tableName.schema
  name : EncodableComponent tableName.name

def TableName.encoded (tableName : TableName) : List Char :=
  doubleSep '_' tableName.schema.toList ++ '_' :: doubleSep '_' tableName.name.toList

theorem stringifyTableNameComponent_eq_ok_iff {value componentName escaped : String} :
    stringifyTableNameComponent value componentName = .ok escaped ↔
      EncodableComponent value ∧ String.ofList (doubleSep '_' value.toList) = escaped := by
  rw [stringifyTableNameComponent, bind_eq_ok_iff]
  unfold validateTableNameComponentForUnderscoreEncoding
  split_ifs with hedges hempty
  · constructor
    · rintro ⟨_, h, -⟩
      simp at h
    · rintro ⟨hvalue, -⟩
      exact absurd hedges (not_or.mpr ⟨hvalue.head_ne, hvalue.last_ne⟩)
  · constructor
    · rintro ⟨_, h, -⟩
      simp at h
    · rintro ⟨hvalue, -⟩
      exact absurd (List.isEmpty_iff.mp hempty) hvalue.ne_nil
  · obtain ⟨hhead, hlast⟩ := not_or.mp hedges
    constructor
    · rintro ⟨-, -, h⟩
      exact ⟨⟨hhead, hlast, mt List.isEmpty_iff.mpr hempty⟩, Except.ok.inj h⟩
    · rintro ⟨-, rfl⟩
      exact ⟨(), rfl, rfl⟩

theorem tryStringifyTableName_eq_ok_iff {tableName : TableName} {encoded : String} :
    tryStringifyTableName tableName = .ok encoded ↔
      tableName.Encodable ∧ encoded.toList = tableName.encoded := by
  have htoList : ∀ schema name : List Char,
      (String.ofList schema ++ "_" ++ String.ofList name).toList = schema ++ '_' :: name := by
    intro schema name
    simp
  rw [tryStringifyTableName, bind_eq_ok_iff]
  constructor
  · rintro ⟨schema, hschema, hrest⟩
    obtain ⟨name, hname, hencoded⟩ := bind_eq_ok_iff.mp hrest
    obtain ⟨hschemaOk, rfl⟩ := stringifyTableNameComponent_eq_ok_iff.mp hschema
    obtain ⟨hnameOk, rfl⟩ := stringifyTableNameComponent_eq_ok_iff.mp hname
    refine ⟨⟨hschemaOk, hnameOk⟩, ?_⟩
    rw [← Except.ok.inj hencoded, htoList]
    rfl
  · rintro ⟨⟨hschema, hname⟩, hencoded⟩
    refine ⟨_, stringifyTableNameComponent_eq_ok_iff.mpr ⟨hschema, rfl⟩, bind_eq_ok_iff.mpr
      ⟨_, stringifyTableNameComponent_eq_ok_iff.mpr ⟨hname, rfl⟩, congrArg Except.ok ?_⟩⟩
    rw [← String.toList_inj, htoList, hencoded]
    rfl

namespace TableName

variable {a b : TableName}

/-- What stands behind the separator does not begin with an underscore. -/
theorem Encodable.head_name_ne (ha : a.Encodable) (rest : List Char) :
    (doubleSep '_' a.name.toList ++ rest).head? ≠ some '_' := by
  rw [head?_doubleSep_append ha.name.ne_nil]
  exact ha.name.head_ne

theorem encoded_append_inj {rest rest' : List Char} (ha : a.Encodable) (hb : b.Encodable)
    (h : a.encoded ++ rest = b.encoded ++ rest') :
    a.schema = b.schema ∧
      doubleSep '_' a.name.toList ++ rest = doubleSep '_' b.name.toList ++ rest' := by
  rw [encoded, encoded, List.append_assoc, List.append_assoc] at h
  obtain ⟨hschema, hname⟩ :=
    doubleSep_append_sep_inj (ha.head_name_ne rest) (hb.head_name_ne rest') h
  exact ⟨String.toList_inj.mp hschema, hname⟩

theorem encoded_inj (ha : a.Encodable) (hb : b.Encodable) (h : a.encoded = b.encoded) : a = b := by
  have happend : a.encoded ++ [] = b.encoded ++ [] := by rw [h]
  obtain ⟨hschema, hname⟩ := encoded_append_inj ha hb happend
  rw [List.append_nil, List.append_nil] at hname
  have hname : a.name = b.name := String.toList_inj.mp (doubleSep_injective '_' hname)
  exact congrArg₂ TableName.mk hschema hname

end TableName

/-- Different names have different encodings. -/
theorem tryStringifyTableName_inj {a b : TableName} {encoded : String}
    (ha : tryStringifyTableName a = .ok encoded) (hb : tryStringifyTableName b = .ok encoded) :
    a = b := by
  obtain ⟨ha, hencoded⟩ := tryStringifyTableName_eq_ok_iff.mp ha
  obtain ⟨hb, hencoded'⟩ := tryStringifyTableName_eq_ok_iff.mp hb
  exact TableName.encoded_inj ha hb (hencoded.symm.trans hencoded')

end Etl
