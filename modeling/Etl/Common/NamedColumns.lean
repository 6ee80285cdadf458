import Mathlib.Data.List.Nodup
import Mathlib.Data.Set.Function

/-! # Columns renamed and dropped by name

A table is a list of columns with their names and what they hold. Statements address columns by
name, but what a sequence of statements does is said best of the columns themselves: `named`
presents a table as a list of column identities under a naming. A rename that finds its column and
a free target changes the naming at one column, so a sequence of renames goes through exactly when
every target is free at its turn, and a sequence of drops removes identities.
-/

namespace NamedColumns

open List

variable {I N D : Type*}

/-- The table that holds the columns under a naming. -/
def named (ids : List I) (name : I → N) (held : I → D) : List (N × D) :=
  ids.map fun i => (name i, held i)

/-! ## Namings -/

section Naming

variable [DecidableEq I] {ids : List I} {name : I → N} {renames : List (I × N)} {new : N} {i : I}

/-- A fresh name keeps the columns' names distinct. -/
theorem injOn_update (hname : Set.InjOn name {i | i ∈ ids}) (i : I)
    (hfresh : ∀ j ∈ ids, name j ≠ new) :
    Set.InjOn (Function.update name i new) {i | i ∈ ids} := by
  intro j hj k hk heq
  by_cases hji : j = i
  · by_cases hki : k = i
    · rw [hji, hki]
    · rw [hji, Function.update_self, Function.update_of_ne hki] at heq
      exact absurd heq.symm (hfresh k hk)
  · by_cases hki : k = i
    · rw [hki, Function.update_self, Function.update_of_ne hji] at heq
      exact absurd heq (hfresh j hj)
    · rw [Function.update_of_ne hji, Function.update_of_ne hki] at heq
      exact hname hj hk heq

/-- Every rename of the sequence has a free target at its turn. -/
def FreshRun (ids : List I) : (I → N) → List (I × N) → Prop
  | _, [] => True
  | name, (i, new) :: renames =>
    (∀ j ∈ ids, name j ≠ new) ∧ FreshRun ids (Function.update name i new) renames

def renameAll (name : I → N) (renames : List (I × N)) : I → N :=
  renames.foldl (fun name rename => Function.update name rename.1 rename.2) name

theorem renameAll_of_not_mem (hi : i ∉ renames.map Prod.fst) :
    renameAll name renames i = name i := by
  induction renames generalizing name with
  | nil => rfl
  | cons rename renames ih =>
    rw [map_cons, mem_cons, not_or] at hi
    show renameAll (Function.update name rename.1 rename.2) renames i = name i
    rw [ih hi.2, Function.update_of_ne hi.1]

theorem renameAll_of_mem (hdistinct : (renames.map Prod.fst).Nodup) (hi : (i, new) ∈ renames) :
    renameAll name renames i = new := by
  induction renames generalizing name with
  | nil => simp at hi
  | cons rename renames ih =>
    rw [map_cons, nodup_cons] at hdistinct
    show renameAll (Function.update name rename.1 rename.2) renames i = new
    rcases mem_cons.mp hi with rfl | hrest
    · rw [renameAll_of_not_mem hdistinct.1, Function.update_self]
    · exact ih hdistinct.2 hrest

theorem FreshRun.injOn (hrun : FreshRun ids name renames) (hname : Set.InjOn name {i | i ∈ ids}) :
    Set.InjOn (renameAll name renames) {i | i ∈ ids} := by
  induction renames generalizing name with
  | nil => exact hname
  | cons rename renames ih => exact ih hrun.2 (injOn_update hname rename.1 hrun.1)

/-- Columns that are never renamed only have to avoid the targets. -/
theorem freshRun_append_iff {others : List I} (hothers : ∀ rename ∈ renames, rename.1 ∉ others) :
    FreshRun (ids ++ others) name renames ↔
      FreshRun ids name renames ∧ ∀ rename ∈ renames, ∀ j ∈ others, name j ≠ rename.2 := by
  induction renames generalizing name with
  | nil => simp [FreshRun]
  | cons rename renames ih =>
    obtain ⟨i, new⟩ := rename
    have hi : i ∉ others := hothers _ mem_cons_self
    have hsame : ∀ j ∈ others, Function.update name i new j = name j := by
      intro j hj
      rw [Function.update_of_ne]
      rintro rfl
      exact hi hj
    rw [FreshRun, ih fun rename hrename => hothers rename (mem_cons_of_mem _ hrename),
      forall_mem_cons]
    constructor
    · rintro ⟨hfirst, hrest, htargets⟩
      refine ⟨⟨fun j hj => hfirst j (mem_append_left _ hj), hrest⟩,
        fun j hj => hfirst j (mem_append_right _ hj), fun rename hrename j hj => ?_⟩
      rw [← hsame j hj]
      exact htargets rename hrename j hj
    · rintro ⟨⟨hfirst, hrest⟩, hnew, htargets⟩
      refine ⟨fun j hj => (mem_append.mp hj).elim (hfirst j) (hnew j), hrest,
        fun rename hrename j hj => ?_⟩
      rw [hsame j hj]
      exact htargets rename hrename j hj

/-- With distinct targets, a target is free at its turn when no column that waits for its rename
or has none is called so. -/
theorem freshRun_iff (htargets : (renames.map Prod.snd).Nodup) :
    FreshRun ids name renames ↔
      ∀ before rename after, renames = before ++ rename :: after →
        ∀ j ∈ ids, j ∉ before.map Prod.fst → name j ≠ rename.2 := by
  induction renames generalizing name with
  | nil => simp [FreshRun]
  | cons first renames ih =>
    obtain ⟨i, new⟩ := first
    rw [map_cons, nodup_cons] at htargets
    rw [FreshRun, ih htargets.2]
    constructor
    · rintro ⟨hfirst, hrest⟩ before rename after hsplit j hj hbefore
      cases before with
      | nil =>
        obtain ⟨rfl, -⟩ := List.cons.inj hsplit
        exact hfirst j hj
      | cons first before =>
        obtain ⟨rfl, htail⟩ := List.cons.inj hsplit
        rw [map_cons, mem_cons, not_or] at hbefore
        have hne := hrest before rename after htail j hj hbefore.2
        rwa [Function.update_of_ne hbefore.1] at hne
    · intro hall
      refine ⟨fun j hj => hall [] (i, new) renames rfl j hj (by simp), ?_⟩
      intro before rename after hsplit j hj hbefore
      by_cases hji : j = i
      · -- The first column now carries its own target, which is no other target.
        rw [hji, Function.update_self]
        rintro rfl
        exact htargets.1 (mem_map.mpr ⟨rename, by rw [hsplit]; simp, rfl⟩)
      · rw [Function.update_of_ne hji]
        refine hall ((i, new) :: before) rename after (by rw [hsplit]; rfl) j hj ?_
        rw [map_cons, mem_cons, not_or]
        exact ⟨hji, hbefore⟩

end Naming

/-! ## Statements -/

section Statements

variable [DecidableEq N]

def hasName (n : N) (table : List (N × D)) : Bool := table.any (·.1 = n)

def renamed (old new : N) (table : List (N × D)) : List (N × D) :=
  table.map fun column => if column.1 = old then (new, column.2) else column

/-- The table without the column. -/
def dropped (n : N) (table : List (N × D)) : List (N × D) :=
  table.filter fun column => column.1 ≠ n

def insertedAfter (anchor : N) (column : N × D) : List (N × D) → List (N × D)
  | [] => []
  | first :: table =>
    if first.1 = anchor then first :: column :: table
    else first :: insertedAfter anchor column table

/-- A statement that renames a column it finds, and is rejected when the target is taken. -/
def RenamesFound (step : N → N → List (N × D) → Option (List (N × D))) : Prop :=
  ∀ old new table, hasName old table = true →
    step old new table = if hasName new table then none else some (renamed old new table)

/-- A statement that drops a column it finds. -/
def DropsFound (step : N → List (N × D) → Option (List (N × D))) : Prop :=
  ∀ n table, hasName n table = true → step n table = some (dropped n table)

variable {ids : List I} {name : I → N} {held blank : I → D} {table : List (N × D)} {n : N}
  {step : N → List (N × D) → Option (List (N × D))} {i : I}

theorem hasName_iff :
    hasName n table = true ↔ n ∈ table.map Prod.fst := by
  simp [hasName]

theorem hasName_named_iff :
    hasName n (named ids name held) = true ↔ ∃ i ∈ ids, name i = n := by
  simp [hasName, named]

theorem insertedAfter_perm {anchor : N} (hanchor : hasName anchor table = true) (column : N × D) :
    (insertedAfter anchor column table).Perm (column :: table) := by
  induction table with
  | nil => simp [hasName] at hanchor
  | cons first table ih =>
    rw [insertedAfter]
    split_ifs with hfirst
    · exact List.Perm.swap ..
    · have hrest : hasName anchor table = true := by simpa [hasName, hfirst] using hanchor
      exact ((ih hrest).cons first).trans (List.Perm.swap ..)

theorem map_fst_renamed (old new : N) (table : List (N × D)) :
    (renamed old new table).map Prod.fst =
      (table.map Prod.fst).map fun n => if n = old then new else n := by
  rw [renamed, map_map, map_map]
  refine map_congr_left fun column _ => ?_
  rw [Function.comp_apply, Function.comp_apply, apply_ite Prod.fst]

theorem map_fst_dropped (n : N) (table : List (N × D)) :
    (dropped n table).map Prod.fst = (table.map Prod.fst).filter (· ≠ n) := by
  rw [filter_map]
  rfl

/-- Statements that append columns, each rejected when its name is taken, go through when the names
are free. -/
theorem foldlM_append_eq_some_iff {add : I → List (N × D) → Option (List (N × D))}
    (hadd : ∀ i table, add i table =
      if hasName (name i) table then none else some (table ++ [(name i, blank i)]))
    {adds : List I} (hdistinct : (adds.map name).Nodup) (hblank : ∀ i ∈ adds, held i = blank i) :
    adds.foldlM (fun table i => add i table) (named ids name held) = some table ↔
      (∀ i ∈ adds, ∀ j ∈ ids, name j ≠ name i) ∧ table = named (ids ++ adds) name held := by
  induction adds generalizing ids with
  | nil => simp [eq_comm]
  | cons i adds ih =>
    rw [map_cons, nodup_cons] at hdistinct
    rw [foldlM_cons, hadd]
    by_cases hfree : ∀ j ∈ ids, name j ≠ name i
    · have hhas : hasName (name i) (named ids name held) = false := by
        rw [Bool.eq_false_iff]
        intro htaken
        obtain ⟨j, hj, heq⟩ := hasName_named_iff.mp htaken
        exact hfree j hj heq
      have happend : named ids name held ++ [(name i, blank i)] = named (ids ++ [i]) name held := by
        simp [named, hblank i mem_cons_self]
      rw [hhas, happend]
      simp only [Bool.false_eq_true, if_false, Option.bind_eq_bind, Option.bind_some]
      rw [ih hdistinct.2 fun j hj => hblank j (mem_cons_of_mem _ hj), append_assoc]
      refine and_congr_left' ⟨fun hrest k hk j hj => ?_, fun hall k hk j hj => ?_⟩
      · rcases mem_cons.mp hk with rfl | hk
        · exact hfree j hj
        · exact hrest k hk j (mem_append_left _ hj)
      · rcases mem_append.mp hj with hj | hj
        · exact hall k (mem_cons_of_mem _ hk) j hj
        · -- The column just added is not added again.
          rw [mem_singleton.mp hj]
          exact fun heq => hdistinct.1 (heq ▸ mem_map_of_mem hk)
    · have htaken : hasName (name i) (named ids name held) = true := by
        push Not at hfree
        obtain ⟨j, hj, heq⟩ := hfree
        exact hasName_named_iff.mpr ⟨j, hj, heq⟩
      rw [htaken]
      exact iff_of_false (by simp) fun hall => hfree (hall.1 i mem_cons_self)

omit [DecidableEq N] in
/-- A table is the naming of any list of identities that its names are distinct names of. -/
theorem exists_eq_named [DecidableEq I] [Inhabited D] (hnodup : ids.Nodup)
    (hnames : table.map Prod.fst = ids.map name) :
    ∃ held : I → D, table = named ids name held := by
  induction ids generalizing table with
  | nil => exact ⟨fun _ => default, by simpa [named] using hnames⟩
  | cons i ids ih =>
    obtain ⟨column, rest, rfl⟩ : ∃ column rest, table = column :: rest := by
      cases table with
      | nil => simp at hnames
      | cons column rest => exact ⟨column, rest, rfl⟩
    rw [nodup_cons] at hnodup
    rw [map_cons, map_cons, List.cons.injEq] at hnames
    obtain ⟨held, rfl⟩ := ih hnodup.2 hnames.2
    refine ⟨Function.update held i column.2, ?_⟩
    show column :: named ids name held =
      (name i, Function.update held i column.2 i) :: named ids name (Function.update held i column.2)
    rw [Function.update_self, ← hnames.1]
    refine congrArg _ (map_congr_left fun j hj => ?_)
    rw [Function.update_of_ne]
    rintro rfl
    exact hnodup.1 hj

theorem insertedAfter_named {front back : List I} (hfront : ∀ j ∈ front, name j ≠ name i)
    (column : N × D) :
    insertedAfter (name i) column (named (front ++ i :: back) name held) =
      named (front ++ [i]) name held ++ column :: named back name held := by
  induction front with
  | nil => simp [insertedAfter, named]
  | cons j front ih =>
    have hne : name j ≠ name i := hfront j mem_cons_self
    have hrest := ih fun k hk => hfront k (mem_cons_of_mem _ hk)
    show (if name j = name i then _ else _) = _
    rw [if_neg hne]
    exact congrArg _ hrest

theorem dropped_named [DecidableEq I] (hname : Set.InjOn name {i | i ∈ ids}) (hi : i ∈ ids) :
    dropped (name i) (named ids name held) = named (ids.filter (· ≠ i)) name held := by
  rw [dropped, named, filter_map]
  refine congrArg _ (filter_congr fun j hj => ?_)
  simp only [Function.comp_apply, decide_eq_decide]
  exact not_congr ⟨fun heq => hname hj hi heq, fun heq => congrArg name heq⟩

theorem foldlM_drop [DecidableEq I] (hstep : DropsFound step) {drops : List I}
    (hdistinct : drops.Nodup) (hfound : ∀ i ∈ drops, i ∈ ids) (hname : Set.InjOn name {i | i ∈ ids}) :
    (drops.map name).foldlM (fun table n => step n table) (named ids name held) =
      some (named (ids.filter (· ∉ drops)) name held) := by
  induction drops generalizing ids with
  | nil => simp
  | cons i drops ih =>
    rw [nodup_cons] at hdistinct
    have hi : i ∈ ids := hfound i mem_cons_self
    have hsub : ∀ j ∈ ids.filter (· ≠ i), j ∈ ids := fun j hj => mem_of_mem_filter hj
    rw [map_cons, foldlM_cons, hstep _ _ (hasName_named_iff.mpr ⟨i, hi, rfl⟩),
      dropped_named hname hi]
    show (drops.map name).foldlM _ _ = _
    rw [ih hdistinct.2 _ (hname.mono hsub)]
    · simp [Bool.and_comm]
    · intro j hj
      refine mem_filter.mpr ⟨hfound j (mem_cons_of_mem _ hj), ?_⟩
      simpa using fun heq : j = i => hdistinct.1 (heq ▸ hj)

variable [DecidableEq I] {renames : List (I × N)}

theorem renamed_named (hname : Set.InjOn name {i | i ∈ ids}) (hi : i ∈ ids) (new : N) :
    renamed (name i) new (named ids name held) =
      named ids (Function.update name i new) held := by
  rw [renamed, named, map_map]
  refine map_congr_left fun j hj => ?_
  by_cases hji : j = i
  · subst hji
    simp
  · have hne : name j ≠ name i := fun heq => hji (hname hj hi heq)
    simp [hne, hji]

/-- A sequence of renames goes through when every target is free at its turn, and gives the
columns their last names. -/
theorem foldlM_rename_eq_some_iff {step : N → N → List (N × D) → Option (List (N × D))}
    (hstep : RenamesFound step) (hdistinct : (renames.map Prod.fst).Nodup)
    (hfound : ∀ rename ∈ renames, rename.1 ∈ ids) (hname : Set.InjOn name {i | i ∈ ids}) :
    (renames.map fun rename => (name rename.1, rename.2)).foldlM
        (fun table rename => step rename.1 rename.2 table) (named ids name held) = some table ↔
      FreshRun ids name renames ∧ table = named ids (renameAll name renames) held := by
  induction renames generalizing name with
  | nil => simp [FreshRun, renameAll, eq_comm]
  | cons rename renames ih =>
    obtain ⟨i, new⟩ := rename
    rw [map_cons, nodup_cons] at hdistinct
    have hi : i ∈ ids := hfound _ mem_cons_self
    have hhas : hasName (name i) (named ids name held) = true :=
      hasName_named_iff.mpr ⟨i, hi, rfl⟩
    -- The later renames still find their columns under the old names.
    have hrest : (renames.map fun rename => (name rename.1, rename.2)) =
        renames.map fun rename => (Function.update name i new rename.1, rename.2) := by
      refine map_congr_left fun rename hrename => ?_
      have hne : rename.1 ≠ i := by
        rintro rfl
        exact hdistinct.1 (mem_map.mpr ⟨rename, hrename, rfl⟩)
      rw [Function.update_of_ne hne]
    rw [map_cons, foldlM_cons, hstep _ _ _ hhas]
    by_cases hfresh : ∀ j ∈ ids, name j ≠ new
    · have hfree : hasName new (named ids name held) = false := by
        rw [Bool.eq_false_iff]
        intro htaken
        obtain ⟨j, hj, heq⟩ := hasName_named_iff.mp htaken
        exact hfresh j hj heq
      rw [hfree, renamed_named hname hi, hrest]
      simp only [Bool.false_eq_true, if_false, Option.bind_eq_bind, Option.bind_some]
      rw [ih hdistinct.2 (fun rename hrename => hfound rename (mem_cons_of_mem _ hrename))
        (injOn_update hname i hfresh)]
      exact and_congr_left' ⟨fun hrun => ⟨hfresh, hrun⟩, fun hrun => hrun.2⟩
    · have htaken : hasName new (named ids name held) = true := by
        push Not at hfresh
        obtain ⟨j, hj, heq⟩ := hfresh
        exact hasName_named_iff.mpr ⟨j, hj, heq⟩
      rw [htaken]
      exact iff_of_false (by simp) fun hrun => hfresh hrun.1.1

end Statements

end NamedColumns
