import Etl.Common.LatestWins
import Mathlib.Data.List.Dedup

/-! # Tables whose rows have keys

A table is a list of rows, of which a key is read. Changes insert, update and delete rows. A
history takes a table to another one; while every row it adds takes a key that no other row
holds, the keys stay distinct and the changes are updates of the map from keys to rows. A log of
writes that make these updates, in order of their versions, shows the rows of the table, also when
some of the writes are delivered again (`perm_visibleRows_of_evolves`).
-/

/-- A change of a table. -/
inductive RowChange (ρ : Type*) where
  | insert (row : ρ)
  | update (old new : ρ)
  | delete (old : ρ)
  deriving DecidableEq, Repr

namespace RowChange

variable {ρ κ : Type*}

/-- The rows a change is about. -/
def rows : RowChange ρ → List ρ
  | insert row => [row]
  | update old new => [old, new]
  | delete old => [old]

variable [DecidableEq ρ]

/-- The table after a change, when the row it changes is there. -/
def apply (table : List ρ) : RowChange ρ → Option (List ρ)
  | insert row => some (row :: table)
  | update old new => if old ∈ table then some (new :: table.erase old) else none
  | delete old => if old ∈ table then some (table.erase old) else none

/-- The row a change adds takes a key that no other row holds. -/
def TakesFreeKey (key : ρ → κ) (table : List ρ) : RowChange ρ → Prop
  | insert row => ∀ other ∈ table, key other ≠ key row
  | update old new => ∀ other ∈ table.erase old, key other ≠ key new
  | delete _ => True

instance [DecidableEq κ] (key : ρ → κ) (table : List ρ) :
    (change : RowChange ρ) → Decidable (change.TakesFreeKey key table)
  | insert _ => inferInstanceAs (Decidable (∀ other ∈ table, _))
  | update old _ => inferInstanceAs (Decidable (∀ other ∈ table.erase old, _))
  | delete _ => inferInstanceAs (Decidable True)

end RowChange

namespace KeyedTable

variable {ρ κ : Type*} [DecidableEq ρ]

/-- A history takes a table to another one, with every step meeting a condition on the table before
it. -/
inductive Evolves (condition : List ρ → RowChange ρ → Prop) :
    List ρ → List (RowChange ρ) → List ρ → Prop
  | nil (table : List ρ) : Evolves condition table [] table
  | cons {table next final : List ρ} {change : RowChange ρ} {changes : List (RowChange ρ)} :
      condition table change → change.apply table = some next →
        Evolves condition next changes final → Evolves condition table (change :: changes) final

/-- The row under a key. -/
def lookup [DecidableEq κ] (key : ρ → κ) (table : List ρ) (k : κ) : Option ρ :=
  table.find? (key · = k)

variable {key : ρ → κ} {table next : List ρ} {row old new : ρ} {change : RowChange ρ} {κ' : Type*}
  {final : List ρ} {key' : ρ → κ'}

theorem nodup_of_apply (hnodup : (table.map key).Nodup) (hfree : change.TakesFreeKey key table)
    (happly : change.apply table = some next) :
    (next.map key).Nodup := by
  have herase : ∀ old, ((table.erase old).map key).Nodup := fun old =>
    hnodup.sublist (List.erase_sublist.map key)
  match change with
  | .insert row =>
    cases happly
    rw [List.map_cons, List.nodup_cons]
    refine ⟨fun hmem => ?_, hnodup⟩
    obtain ⟨other, hother, heq⟩ := List.mem_map.mp hmem
    exact hfree other hother heq
  | .update old new =>
    rw [RowChange.apply] at happly
    split_ifs at happly
    cases happly
    rw [List.map_cons, List.nodup_cons]
    refine ⟨fun hmem => ?_, herase old⟩
    obtain ⟨other, hother, heq⟩ := List.mem_map.mp hmem
    exact hfree other hother heq
  | .delete old =>
    rw [RowChange.apply] at happly
    split_ifs at happly
    cases happly
    exact herase old

variable [DecidableEq κ]

omit [DecidableEq ρ] in
theorem lookup_eq_some_iff (hnodup : (table.map key).Nodup) {k : κ} :
    lookup key table k = some row ↔ row ∈ table ∧ key row = k := by
  have hkey_of_find : ∀ found, lookup key table k = some found → key found = k := by
    intro found hfind
    simpa using List.find?_some hfind
  constructor
  · intro hfind
    exact ⟨List.mem_of_find?_eq_some hfind, hkey_of_find row hfind⟩
  · rintro ⟨hmem, hkey⟩
    cases hfind : lookup key table k with
    | none => exact absurd hkey (by simpa using List.find?_eq_none.mp hfind row hmem)
    | some found =>
      have hfound := hkey_of_find found hfind
      have hinj := List.inj_on_of_nodup_map hnodup
      rw [hinj (List.mem_of_find?_eq_some hfind) hmem (hfound.trans hkey.symm)]

omit [DecidableEq ρ] in
theorem lookup_cons (row : ρ) (table : List ρ) :
    lookup key (row :: table) = Function.update (lookup key table) (key row) (some row) := by
  funext k
  by_cases hk : key row = k
  · subst hk
    simp [lookup]
  · rw [Function.update_of_ne (Ne.symm hk)]
    simp [lookup, hk]

theorem lookup_erase (hnodup : (table.map key).Nodup) (hold : old ∈ table) :
    lookup key (table.erase old) = Function.update (lookup key table) (key old) none := by
  have herased : ((table.erase old).map key).Nodup := hnodup.sublist (List.erase_sublist.map key)
  funext k
  refine Option.ext fun row => ?_
  rw [lookup_eq_some_iff herased, (List.Nodup.of_map key hnodup).mem_erase_iff]
  by_cases hk : k = key old
  · subst hk
    rw [Function.update_self]
    refine iff_of_false ?_ nofun
    rintro ⟨⟨hne, hmem⟩, hkey⟩
    exact hne (List.inj_on_of_nodup_map hnodup hmem hold hkey)
  · rw [Function.update_of_ne hk, lookup_eq_some_iff hnodup]
    constructor
    · rintro ⟨⟨-, hmem⟩, hkey⟩
      exact ⟨hmem, hkey⟩
    · rintro ⟨hmem, hkey⟩
      refine ⟨⟨?_, hmem⟩, hkey⟩
      rintro rfl
      exact hk hkey.symm

/-! ## Histories as writes -/

variable {ν α : Type*} {writes : α → List (Write κ ν ρ)} {history : List α}

/-- The writes for a change turn the rows before it into those after it. -/
def Replicates (key : ρ → κ) (change : RowChange ρ) (writes : List (Write κ ν ρ)) : Prop :=
  ∀ table next, (table.map key).Nodup → change.TakesFreeKey key table →
    change.apply table = some next →
      writes.foldl Write.update (lookup key table) = lookup key next

/-- The write that puts a row under its key. -/
def put (key : ρ → κ) (version : ν) (row : ρ) : Write κ ν ρ := ⟨key row, version, some row⟩

/-- The write that removes a row from its key. -/
def remove (key : ρ → κ) (version : ν) (row : ρ) : Write κ ν ρ := ⟨key row, version, none⟩

theorem replicates_insert (version : ν) (row : ρ) :
    Replicates key (.insert row) [put key version row] := by
  intro table next _ _ happly
  cases happly
  exact (lookup_cons row table).symm

theorem replicates_delete (version : ν) (old : ρ) :
    Replicates key (.delete old) [remove key version old] := by
  intro table next hnodup _ happly
  rw [RowChange.apply] at happly
  split_ifs at happly with hold
  cases happly
  exact (lookup_erase hnodup hold).symm

/-- An update replaces the row under the key it leaves and puts one under the key it takes. -/
theorem replicates_update (removed version : ν) (old new : ρ) :
    Replicates key (.update old new) [remove key removed old, put key version new] := by
  intro table next hnodup _ happly
  rw [RowChange.apply] at happly
  split_ifs at happly with hold
  cases happly
  rw [lookup_cons, lookup_erase hnodup hold]
  rfl

theorem replicates_update_of_key_eq (version : ν) (hkey : key old = key new) :
    Replicates key (.update old new) [put key version new] := by
  intro table next hnodup hfree happly
  rw [← replicates_update version version old new table next hnodup hfree happly]
  change Function.update _ _ _ = Function.update (Function.update _ _ _) _ _
  rw [remove, hkey, put, Function.update_idem]

omit [DecidableEq ρ] in
theorem foldl_update_put (version : ν) (hnodup : (table.map key).Nodup) :
    (table.map (put key version)).foldl Write.update (fun _ => none) = lookup key table := by
  induction table using List.reverseRecOn with
  | nil => rfl
  | append_singleton table last ih =>
    rw [List.map_append, List.nodup_append] at hnodup
    obtain ⟨htable, -, hlast⟩ := hnodup
    rw [List.map_append, List.foldl_append, ih htable]
    funext k
    change Function.update (lookup key table) (key last) (some last) k = _
    rw [lookup, List.find?_append]
    by_cases hk : key last = k
    · -- No earlier row holds the key of the last one.
      subst hk
      have hnone : table.find? (key · = key last) = none :=
        List.find?_eq_none.mpr fun row hrow => by
          simpa using hlast _ (List.mem_map_of_mem hrow) _ (List.mem_singleton_self _)
      simp [hnone]
    · rw [Function.update_of_ne (Ne.symm hk)]
      simp [lookup, hk]

theorem foldl_update_of_evolves {change : α → RowChange ρ}
    (hwrites : ∀ a ∈ history, Replicates key (change a) (writes a)) (hnodup : (table.map key).Nodup)
    (hevolves : Evolves (fun table change => change.TakesFreeKey key table) table
      (history.map change) final) :
    (final.map key).Nodup ∧
      (history.flatMap writes).foldl Write.update (lookup key table) = lookup key final := by
  induction history generalizing table with
  | nil =>
    cases hevolves
    exact ⟨hnodup, rfl⟩
  | cons a history ih =>
    cases hevolves with
    | cons hfree happly hrest =>
      have hnext := nodup_of_apply hnodup hfree happly
      obtain ⟨hfinal, hfold⟩ := ih (fun b hb => hwrites b (List.mem_cons_of_mem a hb)) hnext hrest
      have hstep := hwrites a List.mem_cons_self _ _ hnodup hfree happly
      rw [List.flatMap_cons, List.foldl_append, hstep]
      exact ⟨hfinal, hfold⟩

variable [LinearOrder ν]

/-- The rows a log shows, one for each key that holds one. -/
def visibleRows (log : List (Write κ ν ρ)) : List ρ :=
  (log.map Write.key).dedup.filterMap (Write.visible log)

omit [DecidableEq ρ] in
theorem perm_visibleRows {log : List (Write κ ν ρ)} (hnodup : (table.map key).Nodup)
    (hvisible : Write.visible log = lookup key table) : (visibleRows log).Perm table := by
  have hvisible_iff : ∀ k row, Write.visible log k = some row ↔ row ∈ table ∧ key row = k := by
    intro k row
    rw [hvisible, lookup_eq_some_iff hnodup]
  have hrows : (visibleRows log).Nodup := by
    refine (List.nodup_dedup _).filterMap fun k k' row hk hk' => ?_
    exact ((hvisible_iff k row).mp hk).2.symm.trans ((hvisible_iff k' row).mp hk').2
  refine (List.perm_ext_iff_of_nodup hrows (List.Nodup.of_map key hnodup)).mpr fun row => ?_
  rw [visibleRows, List.mem_filterMap]
  constructor
  · rintro ⟨k, -, hk⟩
    exact ((hvisible_iff k row).mp hk).1
  · intro hrow
    have hk := (hvisible_iff (key row) row).mpr ⟨hrow, rfl⟩
    obtain ⟨write, hwinner, -⟩ := Option.bind_eq_some_iff.mp hk
    obtain ⟨hmem, hkey, -⟩ := Write.winner_spec hwinner
    exact ⟨key row, List.mem_dedup.mpr (hkey ▸ List.mem_map_of_mem hmem), hk⟩

/-- Copied rows and the writes for a history, in order of their versions, show the last table, also
when some of the writes are delivered again. -/
theorem perm_visibleRows_of_evolves {change : α → RowChange ρ} {copyVersion : ν}
    {again : List (Write κ ν ρ)} (hwrites : ∀ a ∈ history, Replicates key (change a) (writes a))
    (hcopy : ∀ write ∈ history.flatMap writes, copyVersion < write.version)
    (hordered : (history.flatMap writes).Pairwise fun v w => v.version < w.version)
    (hagain : again ⊆ history.flatMap writes) (hnodup : (table.map key).Nodup)
    (hevolves : Evolves (fun table change => change.TakesFreeKey key table) table
      (history.map change) final) :
    (visibleRows (table.map (put key copyVersion) ++ history.flatMap writes ++ again)).Perm
      final := by
  have hcopied : ∀ write ∈ table.map (put key copyVersion), write.version = copyVersion := by
    intro write hwrite
    obtain ⟨row, -, rfl⟩ := List.mem_map.mp hwrite
    rfl
  have hlater : ∀ v ∈ table.map (put key copyVersion), ∀ w ∈ history.flatMap writes,
      v.version < w.version := fun v hv w hw => (hcopied v hv).symm ▸ hcopy w hw
  obtain ⟨hfinal, hfold⟩ := foldl_update_of_evolves hwrites hnodup hevolves
  refine perm_visibleRows hfinal ?_
  rw [Write.visible_append_of_subset, Write.visible_eq_foldl_update, List.foldl_append,
    foldl_update_put copyVersion hnodup, hfold]
  · -- The versions are in order.
    refine List.pairwise_append.mpr ⟨?_, hordered.imp le_of_lt, fun v hv w hw =>
      le_of_lt (hlater v hv w hw)⟩
    refine List.pairwise_of_forall_mem_list fun v hv w hw => ?_
    rw [hcopied v hv, hcopied w hw]
  · -- Copied rows differ in their keys, all other writes in their versions.
    refine Write.agrees_of_pairwise (List.pairwise_append.mpr ⟨?_, ?_, fun v hv w hw _ =>
      hlater v hv w hw⟩)
    · refine List.pairwise_map.mpr ((List.pairwise_map.mp hnodup).imp fun hne heq => ?_)
      exact absurd heq hne
    · refine hordered.imp ?_
      intro v w hlt _
      exact hlt
  · exact fun write hwrite => List.mem_append_right _ (hagain hwrite)

end KeyedTable
