import Etl.Error
import Etl.Types.Schema
import Mathlib.Algebra.Order.Floor.Div
import Mathlib.Data.List.Range
import Mathlib.Data.List.Count
import Mathlib.Data.List.Nodup
import Mathlib.Tactic.Ring

/-! # Ctid partitions

A table without partitions is copied in parallel by ranges of tuple identifiers. The ranges are
planned from the number of blocks the table has when the plan is made: the block count is divided
by the number of partitions with the quotient rounded up, every range ends where the next begins,
and only the last has no upper bound. Block counts are 64-bit integers in the source;
`plan_no_overflow` bounds every product and sum of the plan, so natural numbers carry them.

A planned range selects exactly the blocks of `planned_selects_iff`. The rounded-up width makes
the last range start behind the table for some sizes, while the range before it still ends at the
table's end: the blocks in between belong to no range (`countP_planned`). A child table that is read
through its parent and is longer has tuples there, whatever the snapshot.

Reference: `etl/src/replication/client.rs` (`plan_ctid_partitions`, `build_ctid_copy_query`).
-/

namespace Etl

open List

/-- A tuple identifier: the number of a block and the offset of a tuple in it. -/
structure Tid where
  block : ℕ
  offset : ℕ
  deriving DecidableEq, Repr

/-- Postgres orders tuple identifiers by block first. -/
def Tid.lt (a b : Tid) : Bool :=
  a.block < b.block || (a.block == b.block && a.offset < b.offset)

/-- A range of tuple identifiers copied by one query. -/
inductive CtidPartition where
  | openStart (endTid : Tid)
  | closed (startTid endTid : Tid)
  | openEnd (startTid : Tid)
  deriving DecidableEq, Repr

/-- The predicate a partition's copy query has on `ctid`. -/
def CtidPartition.selects (partition : CtidPartition) (ctid : Tid) : Bool :=
  match partition with
  | .openStart endTid => ctid.lt endTid
  | .closed startTid endTid => !ctid.lt startTid && ctid.lt endTid
  | .openEnd startTid => !ctid.lt startTid

/-- How many partitions are planned: no more than the table has blocks. -/
def effectivePartitions (tableBlocks numPartitions : ℕ) : ℕ := min numPartitions tableBlocks

/-- The width of a partition, by division rounded up. -/
def blocksPerPartition (tableBlocks numPartitions : ℕ) : ℕ :=
  (tableBlocks + effectivePartitions tableBlocks numPartitions - 1) /
    effectivePartitions tableBlocks numPartitions

/-- The range planned for one partition. -/
def plannedPartition (tableBlocks numPartitions i : ℕ) : CtidPartition :=
  let startBlock := i * blocksPerPartition tableBlocks numPartitions
  let endBlockExclusive := min ((i + 1) * blocksPerPartition tableBlocks numPartitions) tableBlocks
  if effectivePartitions tableBlocks numPartitions = 1 then .openEnd ⟨0, 1⟩
  else if i = 0 then .openStart ⟨endBlockExclusive, 1⟩
  else if i = effectivePartitions tableBlocks numPartitions - 1 then .openEnd ⟨startBlock, 1⟩
  else .closed ⟨startBlock, 1⟩ ⟨endBlockExclusive, 1⟩

/-- The ranges planned for a table. -/
def plannedPartitions (tableBlocks numPartitions : ℕ) : List CtidPartition :=
  if tableBlocks = 0 then []
  else (List.range (effectivePartitions tableBlocks numPartitions)).map
    (plannedPartition tableBlocks numPartitions)

/-- Plans the partitions of a table from the answer to the size query, which may have no row. -/
def planCtidPartitions (tableId : TableId) (tableBlocks : Option ℕ) (numPartitions : ℕ) :
    EtlResult (List CtidPartition) :=
  if numPartitions = 0 then
    bail .configError "Number of ctid partitions must be greater than zero"
  else
    match tableBlocks with
    | none =>
      bailWith .sourceSchemaError "Could not retrieve table block count for partition planning"
        s!"table_id: {tableId}"
    | some tableBlocks => .ok (plannedPartitions tableBlocks numPartitions)

/-- The first block of the last partition. -/
def lastStartBlock (tableBlocks numPartitions : ℕ) : ℕ :=
  (effectivePartitions tableBlocks numPartitions - 1) * blocksPerPartition tableBlocks numPartitions

/-- The blocks some planned partition selects. -/
def InPlan (tableBlocks numPartitions block : ℕ) : Prop :=
  tableBlocks ≠ 0 ∧ (block < tableBlocks ∨ lastStartBlock tableBlocks numPartitions ≤ block)

instance (tableBlocks numPartitions block : ℕ) :
    Decidable (InPlan tableBlocks numPartitions block) :=
  inferInstanceAs (Decidable (_ ∧ _))

/-! ## Arithmetic of the plan -/

section Plan

variable {tableBlocks numPartitions : ℕ}

theorem effectivePartitions_pos (hblocks : 1 ≤ tableBlocks) (hpartitions : 1 ≤ numPartitions) :
    1 ≤ effectivePartitions tableBlocks numPartitions :=
  Nat.le_min.mpr ⟨hpartitions, hblocks⟩

theorem blocksPerPartition_pos (hblocks : 1 ≤ tableBlocks) (hpartitions : 1 ≤ numPartitions) :
    1 ≤ blocksPerPartition tableBlocks numPartitions := by
  have heffective := effectivePartitions_pos hblocks hpartitions
  rw [blocksPerPartition, Nat.le_div_iff_mul_le (by omega)]
  omega

/-- The partitions together are at least as wide as the table. -/
theorem le_mul_blocksPerPartition (hblocks : 1 ≤ tableBlocks) (hpartitions : 1 ≤ numPartitions) :
    tableBlocks ≤ effectivePartitions tableBlocks numPartitions *
      blocksPerPartition tableBlocks numPartitions := by
  have heffective := effectivePartitions_pos hblocks hpartitions
  have hmod := Nat.mod_lt (tableBlocks + effectivePartitions tableBlocks numPartitions - 1)
    (show 0 < effectivePartitions tableBlocks numPartitions by omega)
  have hdiv := Nat.div_add_mod
    (tableBlocks + effectivePartitions tableBlocks numPartitions - 1)
    (effectivePartitions tableBlocks numPartitions)
  rw [blocksPerPartition]
  omega

/-- Every block number the plan computes is below the block count and the partition count
together. A block is at least a kilobyte and a size in bytes is a 64-bit integer, so none of the
plan's 64-bit operations overflows. -/
theorem plan_no_overflow (hblocks : 1 ≤ tableBlocks) {i : ℕ}
    (hi : i < effectivePartitions tableBlocks numPartitions) :
    (i + 1) * blocksPerPartition tableBlocks numPartitions < tableBlocks + numPartitions := by
  have heffective : effectivePartitions tableBlocks numPartitions ≤ numPartitions :=
    Nat.min_le_left _ _
  calc (i + 1) * blocksPerPartition tableBlocks numPartitions
    _ ≤ effectivePartitions tableBlocks numPartitions *
        blocksPerPartition tableBlocks numPartitions := Nat.mul_le_mul_right _ hi
    _ ≤ tableBlocks + effectivePartitions tableBlocks numPartitions - 1 := Nat.mul_div_le _ _
    _ < tableBlocks + numPartitions := by omega

end Plan

/-! ## What a planned partition selects -/

/-- With a tuple at offset one or later, a bound at offset one only compares blocks. -/
theorem Tid.lt_block_one {tid : Tid} (hoffset : 1 ≤ tid.offset) (block : ℕ) :
    tid.lt ⟨block, 1⟩ = decide (tid.block < block) := by
  have hlt : ¬ tid.offset < 1 := by omega
  simp [Tid.lt, hlt]

section Selects

variable {tableBlocks numPartitions : ℕ} {tid : Tid} {i : ℕ}

/-- The blocks of a planned partition: from its start, and unless it is the last one up to the
next start or the end of the table. -/
theorem planned_selects_iff (hoffset : 1 ≤ tid.offset)
    (hi : i < effectivePartitions tableBlocks numPartitions) :
    (plannedPartition tableBlocks numPartitions i).selects tid = true ↔
      i * blocksPerPartition tableBlocks numPartitions ≤ tid.block ∧
        (i + 1 = effectivePartitions tableBlocks numPartitions ∨
          tid.block < (i + 1) * blocksPerPartition tableBlocks numPartitions ∧
            tid.block < tableBlocks) := by
  unfold plannedPartition
  by_cases hone : effectivePartitions tableBlocks numPartitions = 1
  · obtain rfl : i = 0 := by omega
    simp [hone, CtidPartition.selects, Tid.lt_block_one hoffset]
  by_cases hfirst : i = 0
  · subst hfirst
    have hnot : ¬ 0 + 1 = effectivePartitions tableBlocks numPartitions := by omega
    simp [hone, hnot, CtidPartition.selects, Tid.lt_block_one hoffset]
  by_cases hlast : i = effectivePartitions tableBlocks numPartitions - 1
  · have hend : i + 1 = effectivePartitions tableBlocks numPartitions := by omega
    simp [hone, hfirst, hend, ← hlast, CtidPartition.selects, Tid.lt_block_one hoffset]
  · have hend : ¬ i + 1 = effectivePartitions tableBlocks numPartitions := by omega
    simp [hone, hfirst, hlast, hend, CtidPartition.selects, Tid.lt_block_one hoffset]

/-- In the sampled blocks the partition is the quotient by the width. -/
theorem planned_selects_iff_of_lt (hblocks : 1 ≤ tableBlocks) (hpartitions : 1 ≤ numPartitions)
    (hoffset : 1 ≤ tid.offset) (hblock : tid.block < tableBlocks)
    (hi : i < effectivePartitions tableBlocks numPartitions) :
    (plannedPartition tableBlocks numPartitions i).selects tid = true ↔
      i = tid.block / blocksPerPartition tableBlocks numPartitions := by
  have hwidth := blocksPerPartition_pos hblocks hpartitions
  have htotal := le_mul_blocksPerPartition hblocks hpartitions
  rw [planned_selects_iff hoffset hi, eq_comm (a := i), Nat.div_eq_iff hwidth]
  have hstep : (i + 1) * blocksPerPartition tableBlocks numPartitions =
      i * blocksPerPartition tableBlocks numPartitions +
        blocksPerPartition tableBlocks numPartitions := Nat.succ_mul _ _
  constructor
  · rintro ⟨hstart, hlast | ⟨hend, -⟩⟩
    · rw [← hlast] at htotal
      omega
    · omega
  · rintro ⟨hstart, hend⟩
    omega

/-- Behind the sampled blocks only the last partition selects anything. -/
theorem planned_selects_iff_of_le (hoffset : 1 ≤ tid.offset) (hblock : tableBlocks ≤ tid.block)
    (hi : i < effectivePartitions tableBlocks numPartitions) :
    (plannedPartition tableBlocks numPartitions i).selects tid = true ↔
      i = effectivePartitions tableBlocks numPartitions - 1 ∧
        lastStartBlock tableBlocks numPartitions ≤ tid.block := by
  rw [planned_selects_iff hoffset hi]
  constructor
  · rintro ⟨hstart, hlast | ⟨-, hend⟩⟩
    · obtain rfl : i = effectivePartitions tableBlocks numPartitions - 1 := by omega
      exact ⟨rfl, hstart⟩
    · omega
  · rintro ⟨rfl, hstart⟩
    exact ⟨hstart, .inl (by omega)⟩

theorem countP_range_eq_one {n k : ℕ} (hk : k < n) {q : ℕ → Bool}
    (hq : ∀ i < n, q i = true ↔ i = k) : (List.range n).countP q = 1 := by
  have hcount : (List.range n).countP q = (List.range n).count k :=
    countP_congr fun i hi => by rw [hq i (mem_range.mp hi), beq_iff_eq]
  rw [hcount]
  exact count_eq_one_of_mem nodup_range (mem_range.mpr hk)

/-- A tuple is selected by one planned partition, or by none when its block is not in the
plan. -/
theorem countP_planned (hpartitions : 1 ≤ numPartitions) (hoffset : 1 ≤ tid.offset) :
    (plannedPartitions tableBlocks numPartitions).countP (·.selects tid) =
      if InPlan tableBlocks numPartitions tid.block then 1 else 0 := by
  rcases Nat.eq_zero_or_pos tableBlocks with rfl | hblocks
  · simp [plannedPartitions, InPlan]
  have hne : tableBlocks ≠ 0 := by omega
  have heffective := effectivePartitions_pos hblocks hpartitions
  rw [plannedPartitions, if_neg hne, countP_map]
  by_cases hblock : tid.block < tableBlocks
  · rw [if_pos ⟨hne, .inl hblock⟩]
    have hwidth := blocksPerPartition_pos hblocks hpartitions
    have htotal := le_mul_blocksPerPartition hblocks hpartitions
    refine countP_range_eq_one ?_ fun i hi =>
      planned_selects_iff_of_lt hblocks hpartitions hoffset hblock hi
    rw [Nat.div_lt_iff_lt_mul hwidth]
    omega
  have hbehind : tableBlocks ≤ tid.block := by omega
  by_cases hlast : lastStartBlock tableBlocks numPartitions ≤ tid.block
  · rw [if_pos ⟨hne, .inr hlast⟩]
    have hindex : effectivePartitions tableBlocks numPartitions - 1 <
        effectivePartitions tableBlocks numPartitions := by omega
    exact countP_range_eq_one hindex fun i hi =>
      (planned_selects_iff_of_le hoffset hbehind hi).trans (and_iff_left hlast)
  · rw [if_neg (fun hin => hin.2.elim hblock hlast), countP_eq_zero]
    intro i hi hselects
    exact hlast ((planned_selects_iff_of_le hoffset hbehind (mem_range.mp hi)).mp hselects).2

end Selects

/-! ## Coverage -/

section Coverage

variable (tableId : TableId) {tableBlocks numPartitions : ℕ}

/-- A size of at least one block and at least one partition always give a plan. -/
theorem planCtidPartitions_eq (tableBlocks : ℕ) (hpartitions : 1 ≤ numPartitions) :
    planCtidPartitions tableId (some tableBlocks) numPartitions =
      .ok (plannedPartitions tableBlocks numPartitions) := by
  rw [planCtidPartitions, if_neg (by omega)]

/-- Every tuple of the sampled blocks is selected by exactly one of the planned partitions. -/
theorem sampled_tuple_selected_once (hblocks : 1 ≤ tableBlocks) (hpartitions : 1 ≤ numPartitions)
    {tid : Tid} (hoffset : 1 ≤ tid.offset) (hblock : tid.block < tableBlocks) :
    ∃ partitions, planCtidPartitions tableId (some tableBlocks) numPartitions = .ok partitions ∧
      partitions.countP (·.selects tid) = 1 := by
  refine ⟨_, planCtidPartitions_eq tableId tableBlocks hpartitions, ?_⟩
  rw [countP_planned hpartitions hoffset, if_pos ⟨by omega, .inl hblock⟩]

/-- Five blocks in four partitions: the tuple lies in the partition before the last. -/
theorem sampled_tuple_selected_once_five_by_four :
    ∃ partitions, planCtidPartitions 1 (some 5) 4 = .ok partitions ∧
      partitions.countP (·.selects ⟨4, 7⟩) = 1 :=
  sampled_tuple_selected_once 1 (by decide) (by decide) (by decide) (by decide)

/-- A tuple behind the sampled blocks is selected by exactly one of the planned partitions when the
last of them, with the block count divided by their number and rounded up for each one before it,
starts at or before its block, and not otherwise. -/
theorem appended_tuple_selected_once_iff (hblocks : 1 ≤ tableBlocks)
    (hpartitions : 1 ≤ numPartitions) {tid : Tid} (hoffset : 1 ≤ tid.offset)
    (hblock : tableBlocks ≤ tid.block) :
    (∃ partitions, planCtidPartitions tableId (some tableBlocks) numPartitions = .ok partitions ∧
        partitions.countP (·.selects tid) = 1) ↔
      (min numPartitions tableBlocks - 1) * (tableBlocks ⌈/⌉ min numPartitions tableBlocks) ≤
        tid.block := by
  have hlast : lastStartBlock tableBlocks numPartitions =
      (min numPartitions tableBlocks - 1) * (tableBlocks ⌈/⌉ min numPartitions tableBlocks) := by
    rw [lastStartBlock, blocksPerPartition, effectivePartitions, Nat.ceilDiv_eq_add_pred_div]
  have hinPlan : InPlan tableBlocks numPartitions tid.block ↔
      lastStartBlock tableBlocks numPartitions ≤ tid.block := by
    rw [InPlan, and_iff_right (by omega), or_iff_right (by omega)]
  rw [planCtidPartitions_eq tableId tableBlocks hpartitions, ← hlast, ← hinPlan]
  constructor
  · rintro ⟨_, hplan, hcount⟩
    rw [← Except.ok.inj hplan, countP_planned hpartitions hoffset] at hcount
    by_contra hgap
    rw [if_neg hgap] at hcount
    exact absurd hcount zero_ne_one
  · intro hin
    exact ⟨_, rfl, by rw [countP_planned hpartitions hoffset, if_pos hin]⟩

/-- Five blocks in four partitions of two: the last one starts at block six. -/
theorem appended_tuple_selected_once_block_six :
    ∃ partitions, planCtidPartitions 1 (some 5) 4 = .ok partitions ∧
      partitions.countP (·.selects ⟨6, 3⟩) = 1 :=
  (appended_tuple_selected_once_iff 1 (by decide) (by decide) (by decide) (by decide)).mpr
    (by decide)

/-- Five blocks in four partitions: the third partition ends at block five and the last starts
at block six, so no partition selects the tuples of block five. -/
theorem appended_tuple_not_selected :
    ∃ partitions, planCtidPartitions 1 (some 5) 4 = .ok partitions ∧
      partitions.countP (·.selects ⟨5, 1⟩) = 0 :=
  ⟨_, rfl, by decide⟩

end Coverage

end Etl
