import Etl.Destinations.BigQuery.Prepare

/-! # The column statements of BigQuery

Reference: `etl-destinations/src/bigquery/core.rs` (`apply_schema_diff`), `client.rs`
(`add_column`, `rename_column`, `drop_column`, `sanitize_identifier`).

BigQuery changes the columns of a table like Snowflake does, and checks every name before it is put
into a statement: an empty name and one with control characters is rejected. What a run of
`applySchemaDiff` does to the columns is `applyColumnChanges`, unless a name is rejected
(`alters_applySchemaDiff`).
-/

namespace Etl

namespace BigQuery

open Calls

/-! ## Names in statements -/

/-- The name can be put into a statement: it is not empty and has no control characters. -/
def NameAccepted (name : String) : Prop := name ≠ "" ∧ ∀ c ∈ name.toList, isControl c = false

instance (name : String) : Decidable (NameAccepted name) :=
  @instDecidableAnd _ _ inferInstance (List.decidableBAll _ _)

theorem exists_sanitizeIdentifier_iff {name context : String} :
    (∃ escaped, sanitizeIdentifier name context = .ok escaped) ↔ NameAccepted name := by
  rw [sanitizeIdentifier, NameAccepted]
  split_ifs with hempty hcontrol
  · simp [String.toList_eq_nil_iff.mp (List.isEmpty_iff.mp hempty)]
  · refine iff_of_false (by simp) fun haccepted => ?_
    obtain ⟨c, hc, hcontrol⟩ := List.any_eq_true.mp hcontrol
    rw [haccepted.2 c hc] at hcontrol
    exact absurd hcontrol (by simp)
  · simp_all

/-- The names in the statements of a diff can be put into statements. -/
def NamesAccepted (diff : SchemaDiff) : Prop :=
  (∀ column ∈ diff.columnsToAdd, NameAccepted column.name) ∧
    (∀ rename ∈ diff.columnsToRename, NameAccepted rename.oldName ∧ NameAccepted rename.newName) ∧
    ∀ column ∈ diff.columnsToRemove, NameAccepted column.name

instance (diff : SchemaDiff) : Decidable (NamesAccepted diff) :=
  inferInstanceAs (Decidable (_ ∧ _))

/-! ## Statements on one table -/

/-- With every call coming through, the program makes the change of the table's columns and nothing
else, when its names are accepted and the change is possible; otherwise it fails. -/
def Alters (tableId : String) (accepted : Prop)
    (change : List (String × String) → Option (List (String × String)))
    (program : Calls EtlError Destination Unit) : Prop :=
  ∀ (destination : Destination) (table : List (String × String)) (u : Unit)
      (t : CallState Destination),
    program.run ⟨destination.setTable tableId (some table), none⟩ = .ok u t ↔
      accepted ∧ ∃ table', change table = some table' ∧
        t = ⟨destination.setTable tableId (some table'), none⟩

section Alters

variable {config : Config} {tableId : String} {accepted accepted' : Prop}
  {change change' : List (String × String) → Option (List (String × String))}
  {program program' : Calls EtlError Destination Unit}

theorem setTable_setTable (destination : Destination)
    (columns columns' : Option (List (String × String))) :
    (destination.setTable tableId columns).setTable tableId columns' =
      destination.setTable tableId columns' := by
  simp [Destination.setTable]

theorem alters_alterTable (tableId : String)
    (change : List (String × String) → Option (List (String × String))) :
    Alters tableId True change (alterTable tableId change) := by
  intro destination table u t
  have htable : ((destination.setTable tableId (some table)).tables tableId).bind change =
      change table := by
    simp [Destination.setTable]
  obtain ⟨state, remaining⟩ := t
  rw [alterTable, call_eq_ok_iff]
  simp only [htable]
  cases change table with
  | none => simp
  | some table' => simp [setTable_setTable, eq_comm]

/-- A name is checked before the statement. -/
theorem Alters.check {name context : String} (hprogram : Alters tableId accepted change program) :
    Alters tableId (NameAccepted name ∧ accepted) change (do
      discard <| .ofExcept (sanitizeIdentifier name context)
      program) := by
  intro destination table u t
  rw [discard_bind, ← @exists_sanitizeIdentifier_iff name context]
  cases hname : sanitizeIdentifier name context with
  | ok escaped =>
    rw [run_bind_ofExcept_ok, hprogram]
    simp
  | error e => exact iff_of_false (fun hrun => by cases hrun) (by simp)

theorem Alters.named (hname : ∃ fullName, fullTableName config tableId = .ok fullName)
    (hprogram : Alters tableId accepted change program) :
    Alters tableId accepted change (do
      discard <| .ofExcept (fullTableName config tableId)
      program) := by
  obtain ⟨fullName, hname⟩ := hname
  intro destination table u t
  rw [discard_bind, hname, run_bind_ofExcept_ok, hprogram]

theorem Alters.seq (hprogram : Alters tableId accepted change program)
    (hprogram' : Alters tableId accepted' change' program') :
    Alters tableId (accepted ∧ accepted') (fun table => (change table).bind change') (do
      program
      program') := by
  intro destination table u t
  rw [Calls.bind_eq_ok_iff]
  constructor
  · rintro ⟨v, mid, hrun, hrun'⟩
    obtain ⟨haccepted, mid, hmid, rfl⟩ := (hprogram destination table v _).mp hrun
    obtain ⟨haccepted', table', htable', rfl⟩ := (hprogram' destination mid u t).mp hrun'
    exact ⟨⟨haccepted, haccepted'⟩, table', Option.bind_eq_some_iff.mpr ⟨mid, hmid, htable'⟩, rfl⟩
  · rintro ⟨⟨haccepted, haccepted'⟩, table', hchange, rfl⟩
    obtain ⟨mid, hmid, htable'⟩ := Option.bind_eq_some_iff.mp hchange
    exact ⟨(), _, (hprogram destination table () _).mpr ⟨haccepted, mid, hmid, rfl⟩,
      (hprogram' destination mid u _).mpr ⟨haccepted', table', htable', rfl⟩⟩

theorem Alters.done : Alters tableId True some (pure ()) := by
  intro destination table u t
  show EStateM.Result.ok _ _ = _ ↔ _
  simp [eq_comm]

theorem Alters.congr {other : List (String × String) → Option (List (String × String))}
    (hprogram : Alters tableId accepted change program) (haccepted : accepted' ↔ accepted)
    (hchange : ∀ table, other table = change table) : Alters tableId accepted' other program := by
  intro destination table u t
  rw [hprogram, haccepted, hchange]

theorem Alters.forM {χ : Type} {accepts : χ → Prop}
    {change : χ → List (String × String) → Option (List (String × String))}
    {program : χ → Calls EtlError Destination Unit}
    (hprogram : ∀ x, Alters tableId (accepts x) (change x) (program x)) (xs : List χ) :
    Alters tableId (∀ x ∈ xs, accepts x) (xs.foldlM fun table x => change x table)
      (xs.forM program) := by
  induction xs with
  | nil => exact Alters.done.congr (by simp) fun _ => rfl
  | cons x xs ih => exact ((hprogram x).seq ih).congr List.forall_mem_cons fun _ => rfl

/-- Applying a diff to a table makes its changes. -/
theorem alters_applySchemaDiff (tableId : SequencedBigQueryTableId)
    (hname : ∃ fullName, fullTableName config tableId.toString = .ok fullName)
    (diff : SchemaDiff) :
    Alters tableId.toString (NamesAccepted diff)
      (applyColumnChanges (fun column => postgresToBigqueryType column.typ) diff)
      (applySchemaDiff config tableId diff) := by
  have hadd (column : ColumnSchema) : Alters tableId.toString (NameAccepted column.name)
      (Etl.addColumn (postgresToBigqueryType column.typ) column.name)
      (addColumn config tableId.toString column) :=
    ((alters_alterTable _ _).check.named hname).congr (by simp) fun _ => rfl
  have hrename (rename : ColumnRename) : Alters tableId.toString
      (NameAccepted rename.oldName ∧ NameAccepted rename.newName)
      (Etl.renameColumn rename.oldName rename.newName)
      (renameColumn config tableId.toString rename.oldName rename.newName) :=
    ((alters_alterTable _ _).check.check.named hname).congr (by simp) fun _ => rfl
  have hdrop (column : ColumnSchema) : Alters tableId.toString (NameAccepted column.name)
      (Etl.dropColumn column.name) (dropColumn config tableId.toString column.name) :=
    ((alters_alterTable _ _).check.named hname).congr (by simp) fun _ => rfl
  have hall := (Alters.forM hadd diff.columnsToAdd).seq
    ((Alters.forM hrename diff.columnsToRename).seq (Alters.forM hdrop diff.columnsToRemove))
  rw [applySchemaDiff]
  split_ifs with hempty
  · simp only [SchemaDiff.isEmpty, Bool.and_eq_true, List.isEmpty_iff] at hempty
    obtain ⟨⟨hadd, hremove⟩, hrename⟩ := hempty
    refine Alters.done.congr (by simp [NamesAccepted, hadd, hremove, hrename]) fun table => ?_
    rw [applyColumnChanges, if_pos (by simp [SchemaDiff.isEmpty, hadd, hremove, hrename])]
  · exact hall.congr Iff.rfl fun table => by rw [applyColumnChanges_eq]

end Alters

end BigQuery

/-! ## Both destinations -/

/-- On both destinations the statements of a diff run through and end with exactly the new columns,
each surviving column with its own data, exactly when no name clashes and, on BigQuery, all names
can be put into statements. What a column holds at BigQuery is any text in the place of its type. -/
theorem applySchemaDiff_eq_new_iff {δ : Type} {old new : ReplicatedTableSchema}
    (hold : old.Distinct) (hnew : new.Distinct) (config : BigQuery.Config)
    (tableId : BigQuery.SequencedBigQueryTableId)
    (hname : ∃ fullName, BigQuery.fullTableName config tableId.toString = .ok fullName)
    (destination : BigQuery.Destination) (text : ℤ → String) (data : ℤ → δ)
    (blank : ColumnSchema → δ) :
    ((∃ t table,
        (BigQuery.applySchemaDiff config tableId (old.diff new)).run
            ⟨destination.setTable tableId.toString
              (some (tableOf old fun column => text column.ordinalPosition)), none⟩ = .ok () t ∧
          t.state.tables tableId.toString = some table ∧
          table.Perm (tableOf new (heldAfter old text fun column =>
            BigQuery.postgresToBigqueryType column.typ))) ↔
        NoNameClash old new ∧ BigQuery.NamesAccepted (old.diff new)) ∧
      ((∃ table,
        Snowflake.applySchemaDiff blank (old.diff new)
            (tableOf old fun column => data column.ordinalPosition) = some table ∧
          table.Perm (tableOf new (heldAfter old data blank))) ↔ NoNameClash old new) := by
  refine ⟨?_, applyColumnChanges_eq_new_iff hold hnew data blank⟩
  rw [← applyColumnChanges_eq_new_iff hold hnew text fun column =>
    BigQuery.postgresToBigqueryType column.typ]
  have hrun := BigQuery.alters_applySchemaDiff tableId hname (old.diff new) destination
    (tableOf old fun column => text column.ordinalPosition) ()
  constructor
  · rintro ⟨t, table, hok, htable, hperm⟩
    obtain ⟨haccepted, table', hchange, rfl⟩ := (hrun t).mp hok
    simp only [BigQuery.Destination.setTable, Function.update_self, Option.some.injEq] at htable
    exact ⟨⟨table', hchange, htable ▸ hperm⟩, haccepted⟩
  · rintro ⟨⟨table, hchange, hperm⟩, haccepted⟩
    refine ⟨_, table, (hrun _).mpr ⟨haccepted, table, hchange, rfl⟩, ?_, hperm⟩
    simp [BigQuery.Destination.setTable]

/-- The table before a change: each column holds a text of its own. -/
def heldText (position : ℤ) : String := "data " ++ position.repr

def emptyDataset : BigQuery.Destination := ⟨fun _ => none, fun _ => none, none, [], fun _ => none, []⟩

/-- A rename, a drop and an addition on both destinations: the renamed column keeps its data. -/
theorem applySchemaDiff_eq_new_rename_drop_add :
    (∃ t table,
      (BigQuery.applySchemaDiff ⟨"project", "dataset"⟩ ⟨"public_users", 0⟩
          ((schemaWith [("id", 1), ("name", 2), ("age", 3)]).diff
            (schemaWith [("id", 1), ("title", 2), ("email", 4)]))).run
          ⟨emptyDataset.setTable "public_users_0"
            (some [("id", "data 1"), ("name", "data 2"), ("age", "data 3")]), none⟩ = .ok () t ∧
        t.state.tables "public_users_0" = some table ∧
        table.Perm [("id", "data 1"), ("title", "data 2"), ("email", "string")]) ∧
      ∃ table,
        Snowflake.applySchemaDiff (fun _ => none)
            ((schemaWith [("id", 1), ("name", 2), ("age", 3)]).diff
              (schemaWith [("id", 1), ("title", 2), ("email", 4)]))
            [("id", some 1), ("name", some 2), ("age", some 3)] = some table ∧
          table.Perm [("id", some (1 : ℤ)), ("title", some 2), ("email", none)] := by
  have hboth := @applySchemaDiff_eq_new_iff _ (schemaWith [("id", 1), ("name", 2), ("age", 3)])
    (schemaWith [("id", 1), ("title", 2), ("email", 4)]) ⟨by decide, by decide⟩
    ⟨by decide, by decide⟩ ⟨"project", "dataset"⟩ ⟨"public_users", 0⟩ ⟨_, rfl⟩ emptyDataset
    heldText some fun _ => none
  exact ⟨hboth.1.mpr ⟨by decide, by decide⟩, hboth.2.mpr (by decide)⟩

/-- Two changes the statements reject: a dropped column added again under its name at a new
position, where the addition comes before the removal, and two columns that exchange their names,
where the first rename meets the second column. -/
theorem applySchemaDiff_rejects_readd_and_swap :
    (BigQuery.applySchemaDiff ⟨"project", "dataset"⟩ ⟨"public_users", 0⟩
        ((schemaWith [("id", 1), ("name", 2)]).diff (schemaWith [("id", 1), ("name", 3)]))).run
        ⟨emptyDataset.setTable "public_users_0" (some [("id", "data 1"), ("name", "data 2")]),
          none⟩ =
      .error BigQuery.responseError
        ⟨emptyDataset.setTable "public_users_0" (some [("id", "data 1"), ("name", "data 2")]),
          none⟩ ∧
      Snowflake.applySchemaDiff (fun _ => none)
        ((schemaWith [("a", 1), ("b", 2)]).diff (schemaWith [("b", 1), ("a", 2)]))
        [("a", some 1), ("b", some (2 : ℤ))] = none :=
  ⟨by rfl, by decide⟩

end Etl
