import Etl.Common.Calls
import Etl.Common.SortedMap
import Etl.Error
import Etl.Workers.Phase
import Mathlib.Data.List.Induction

/-! # Start of a pipeline

Before its workers run, a pipeline brings the stored table states in line with the publication: it
gives new tables a first state and purges the tables that are no longer published, the state of
each before its replication slot. A start that stops on the way leaves what its calls have done,
and the next one finds its work from the stored states alone: a slot whose table has lost its state
stays for good.

Reference: `etl/src/pipeline.rs` (`initialize_table_states`).
-/

namespace Etl

/-- What the source answers about a publication. -/
structure PublicationInfo where
  name : String
  publicationExists : Bool
  tableIds : List TableId
  publishViaPartitionRoot : Bool
  hasPartitionedTables : Bool

/-- Refuses a publication the pipeline cannot follow. -/
def PublicationInfo.validate (publication : PublicationInfo) : EtlResult Unit :=
  if !publication.publicationExists then
    bailWith .configError "Missing publication"
      s!"The publication '{publication.name}' does not exist in the database"
  else if !publication.publishViaPartitionRoot && publication.hasPartitionedTables then
    bailWith .configError "Invalid publication configuration for partitioned tables"
      (s!"The publication '{publication.name}' contains partitioned tables but has " ++
        "publish_via_partition_root=false. This configuration causes replication messages to " ++
        "use child partition OIDs, which are not tracked by the pipeline and will cause " ++
        "failures. Please recreate the publication with publish_via_partition_root=true or " ++
        s!"use: ALTER PUBLICATION {publication.name} SET (publish_via_partition_root = true);")
  else .ok ()

/-- The stored table states of a pipeline, and the tables with a table-sync slot of it. -/
structure PipelineTables where
  states : SortedMap TableId TableReplicationPhase
  slots : List TableId

namespace PipelineTables

def updateTableReplicationState (tables : PipelineTables) (tableId : TableId)
    (phase : TableReplicationPhase) : PipelineTables :=
  { tables with states := tables.states.insert tableId phase }

def deleteTablePipelineState (tables : PipelineTables) (tableId : TableId) : PipelineTables :=
  { tables with states := tables.states.erase tableId }

def deleteSlotIfExists (tables : PipelineTables) (tableId : TableId) : PipelineTables :=
  { tables with slots := tables.slots.filter (· ≠ tableId) }

end PipelineTables

variable (failure : EtlError) (publication : PublicationInfo)

/-- The changes of a start that has loaded the states `loaded`. -/
def followPublication (loaded : SortedMap TableId TableReplicationPhase) :
    Calls EtlError PipelineTables Unit := do
  forM publication.tableIds fun tableId =>
    if (loaded.get? tableId).isSome then pure ()
    else Calls.apply failure (·.updateTableReplicationState tableId .init)
  forM (loaded.entries.map Prod.fst) fun tableId =>
    if tableId ∈ publication.tableIds then pure ()
    else do
      Calls.apply failure (·.deleteTablePipelineState tableId)
      Calls.apply failure (·.deleteSlotIfExists tableId)

/-- Checks the publication, loads the stored states and follows the publication. Questions to the
source and the load change nothing, so a start that fails at one is a start without calls. -/
def initializeTableStates : Calls EtlError PipelineTables Unit := do
  Calls.ofExcept publication.validate
  let tables ← Calls.read
  followPublication failure publication tables.states

/-- What a start leaves that stops after so many calls, by an error or a crash. -/
def afterAttempt (tables : PipelineTables) (calls : ℕ) : PipelineTables :=
  Calls.endState ((initializeTableStates failure publication).run ⟨tables, some calls⟩)

def afterAttempts (tables : PipelineTables) (attempts : List ℕ) : PipelineTables :=
  attempts.foldl (afterAttempt failure publication) tables

/-- A call of a start. -/
inductive StartCall where
  | storeInit (t : TableId)
  | deleteState (t : TableId)
  | deleteSlot (t : TableId)
deriving DecidableEq

def StartCall.effect : StartCall → PipelineTables → PipelineTables
  | .storeInit t => (·.updateTableReplicationState t .init)
  | .deleteState t => (·.deleteTablePipelineState t)
  | .deleteSlot t => (·.deleteSlotIfExists t)

/-- The calls of a start, in order: one for each published table without a state, two for each table
with a state that is not published. -/
def startCalls (tables : PipelineTables) : List StartCall :=
  (publication.tableIds.filter fun t => (tables.states.get? t).isNone).map .storeInit ++
    ((tables.states.entries.map Prod.fst).filter (· ∉ publication.tableIds)).flatMap fun t =>
      [.deleteState t, .deleteSlot t]

/-- A start that stops after so many calls has deleted the state of a table, and has not come to its
slot. -/
def StopsBetween (tables : PipelineTables) (calls : ℕ) (t : TableId) : Prop :=
  t ∈ tables.slots ∧ .deleteState t ∈ (startCalls publication tables).take calls ∧
    .deleteSlot t ∉ (startCalls publication tables).take calls

instance (tables : PipelineTables) (calls : ℕ) (t : TableId) :
    Decidable (StopsBetween publication tables calls t) :=
  inferInstanceAs (Decidable (_ ∧ _))

variable {failure publication} {tables : PipelineTables} {t : TableId}

/-! ## The calls of a start -/

theorem storeInit_mem_startCalls : .storeInit t ∈ startCalls publication tables ↔
    t ∈ publication.tableIds ∧ tables.states.get? t = none := by
  simp [startCalls]

theorem delete_mem_startCalls :
    (.deleteState t ∈ startCalls publication tables ↔
        tables.states.get? t ≠ none ∧ t ∉ publication.tableIds) ∧
      (.deleteSlot t ∈ startCalls publication tables ↔
        tables.states.get? t ≠ none ∧ t ∉ publication.tableIds) := by
  simp only [← SortedMap.mem_keys]
  simp [startCalls]

theorem followPublication_eq :
    followPublication failure publication tables.states =
      forM (startCalls publication tables) fun call => Calls.apply failure call.effect := by
  have hstore : ∀ ids : List TableId, (forM ids fun tableId =>
      if (tables.states.get? tableId).isSome then pure ()
      else Calls.apply failure (·.updateTableReplicationState tableId .init)) =
      forM ((ids.filter fun t => (tables.states.get? t).isNone).map .storeInit) fun call =>
        Calls.apply failure (StartCall.effect call) := by
    intro ids
    induction ids with
    | nil => rfl
    | cons id ids ih =>
      rw [List.forM_cons, ih]
      cases hget : tables.states.get? id <;> simp [hget, StartCall.effect]
  have hpurge : ∀ ids : List TableId, (forM ids fun tableId =>
      if tableId ∈ publication.tableIds then pure ()
      else do
        Calls.apply failure (·.deleteTablePipelineState tableId)
        Calls.apply failure (·.deleteSlotIfExists tableId)) =
      forM ((ids.filter (· ∉ publication.tableIds)).flatMap fun t => [.deleteState t, .deleteSlot t])
        fun call => Calls.apply failure (StartCall.effect call) := by
    intro ids
    induction ids with
    | nil => rfl
    | cons id ids ih =>
      rw [List.forM_cons, ih]
      by_cases hid : id ∈ publication.tableIds <;> simp [hid, StartCall.effect]
  rw [startCalls, List.forM_append]
  exact congrArg₂ (fun p q => p >>= fun _ => q) (hstore _) (hpurge _)

/-- What calls leave that store no state they delete. -/
theorem foldl_effect (calls : List StartCall)
    (hapart : ∀ t, .storeInit t ∈ calls → .deleteState t ∉ calls) (tables : PipelineTables)
    (t : TableId) :
    (calls.foldl (fun tables call => call.effect tables) tables).states.get? t =
        (if .deleteState t ∈ calls then none
        else if .storeInit t ∈ calls then some .init else tables.states.get? t) ∧
      (t ∈ (calls.foldl (fun tables call => call.effect tables) tables).slots ↔
        t ∈ tables.slots ∧ .deleteSlot t ∉ calls) := by
  induction calls generalizing tables with
  | nil => simp
  | cons call calls ih =>
    have hrest : ∀ t, .storeInit t ∈ calls → .deleteState t ∉ calls := fun t h h' =>
      hapart t (List.mem_cons_of_mem _ h) (List.mem_cons_of_mem _ h')
    obtain ⟨hstates, hslots⟩ := ih hrest (call.effect tables)
    rw [List.foldl_cons, hstates, hslots]
    have hother := hapart t
    cases call with
    | storeInit x =>
      simp only [StartCall.effect, PipelineTables.updateTableReplicationState,
        SortedMap.get?_insert, List.mem_cons, StartCall.storeInit.injEq, reduceCtorEq,
        false_or] at hother ⊢
      grind
    | deleteState x =>
      simp only [StartCall.effect, PipelineTables.deleteTablePipelineState, SortedMap.get?_erase,
        List.mem_cons, StartCall.deleteState.injEq, reduceCtorEq, false_or] at hother ⊢
      grind
    | deleteSlot x =>
      simp only [StartCall.effect, PipelineTables.deleteSlotIfExists, List.mem_filter,
        List.mem_cons, StartCall.deleteSlot.injEq, reduceCtorEq, false_or] at hother ⊢
      grind

/-- What the first calls of a start leave. -/
theorem foldl_take_startCalls (tables : PipelineTables) (k : ℕ) (t : TableId) :
    let calls := (startCalls publication tables).take k
    let left := calls.foldl (fun tables call => call.effect tables) tables
    left.states.get? t = (if .deleteState t ∈ calls then none
        else if .storeInit t ∈ calls then some .init else tables.states.get? t) ∧
      (t ∈ left.slots ↔ t ∈ tables.slots ∧ .deleteSlot t ∉ calls) := by
  refine foldl_effect _ (fun t hstore hdelete => ?_) tables t
  exact (delete_mem_startCalls.1.mp (List.mem_of_mem_take hdelete)).2
    (storeInit_mem_startCalls.mp (List.mem_of_mem_take hstore)).1

/-! ## What stopped starts leave -/

section Attempts

variable (hvalid : publication.validate = .ok ())
include hvalid

theorem afterAttempt_eq (tables : PipelineTables) (calls : ℕ) :
    afterAttempt failure publication tables calls =
      ((startCalls publication tables).take calls).foldl (fun tables call => call.effect tables)
        tables := by
  rw [afterAttempt, initializeTableStates, hvalid]
  show Calls.endState ((followPublication failure publication tables.states).run _) = _
  rw [followPublication_eq]
  exact Calls.endState_forM_apply _ _ _

/-- A published table keeps its state, or gets the first one. -/
theorem getD_afterAttempts (ht : t ∈ publication.tableIds) (attempts : List ℕ)
    (tables : PipelineTables) :
    ((afterAttempts failure publication tables attempts).states.get? t).getD .init =
      (tables.states.get? t).getD .init := by
  induction attempts generalizing tables with
  | nil => rfl
  | cons calls attempts ih =>
    refine (ih _).trans ?_
    rw [afterAttempt_eq hvalid, (foldl_take_startCalls tables calls t).1,
      if_neg fun h => (delete_mem_startCalls.1.mp (List.mem_of_mem_take h)).2 ht]
    split_ifs with hstored
    · rw [(storeInit_mem_startCalls.mp (List.mem_of_mem_take hstored)).2]
      rfl
    · rfl

/-- A start leaves a slot without a state where there was one already, or where it stops between the
two deletions. -/
theorem orphaned_afterAttempt_iff (ht : t ∉ publication.tableIds) (tables : PipelineTables)
    (calls : ℕ) :
    (t ∈ (afterAttempt failure publication tables calls).slots ∧
        (afterAttempt failure publication tables calls).states.get? t = none) ↔
      (t ∈ tables.slots ∧ tables.states.get? t = none) ∨
        StopsBetween publication tables calls t := by
  obtain ⟨hstates, hslots⟩ := @foldl_take_startCalls publication tables calls t
  rw [if_neg fun h => ht (storeInit_mem_startCalls.mp (List.mem_of_mem_take h)).1] at hstates
  rw [afterAttempt_eq hvalid, hslots, hstates, StopsBetween]
  by_cases hstate : tables.states.get? t = none
  · have hstays : .deleteState t ∉ (startCalls publication tables).take calls :=
      fun h => (delete_mem_startCalls.1.mp (List.mem_of_mem_take h)).1 hstate
    have hslot : .deleteSlot t ∉ (startCalls publication tables).take calls :=
      fun h => (delete_mem_startCalls.2.mp (List.mem_of_mem_take h)).1 hstate
    simp [hstate, hstays, hslot]
  · simp [hstate, and_assoc, and_comm]

/-- Stopped starts leave the slot of a table whose state they have deleted exactly where one of them
has stopped between the two deletions. -/
theorem orphaned_afterAttempts_iff (ht : t ∉ publication.tableIds)
    (hstate : tables.states.get? t ≠ none) (attempts : List ℕ) :
    (t ∈ (afterAttempts failure publication tables attempts).slots ∧
        (afterAttempts failure publication tables attempts).states.get? t = none) ↔
      ∃ done calls, done ++ [calls] <+: attempts ∧
        StopsBetween publication (afterAttempts failure publication tables done) calls t := by
  induction attempts using List.reverseRecOn with
  | nil => simp [afterAttempts, hstate]
  | append_singleton attempts calls ih =>
    have hlast : afterAttempts failure publication tables (attempts ++ [calls]) =
        afterAttempt failure publication (afterAttempts failure publication tables attempts)
          calls := by
      simp [afterAttempts]
    rw [hlast, orphaned_afterAttempt_iff hvalid ht, ih]
    constructor
    · rintro (⟨done, k, hdone, hstops⟩ | hstops)
      · exact ⟨done, k, hdone.trans (List.prefix_append _ _), hstops⟩
      · exact ⟨attempts, calls, List.prefix_refl _, hstops⟩
    · rintro ⟨done, k, hdone, hstops⟩
      rcases List.prefix_concat_iff.mp hdone with heq | hdone
      · obtain ⟨rfl, hk⟩ := List.append_inj' heq rfl
        obtain rfl := List.singleton_inj.mp hk
        exact .inr hstops
      · exact .inl ⟨done, k, hdone, hstops⟩

/-! ## What a completed start leaves -/

/-- A start that completes leaves the published tables with a state, and of the slots those of
published tables and of tables it has not found a state for. -/
theorem completes_initializeTableStates (left : PipelineTables) :
    (initializeTableStates failure publication).Completes left fun _ final => ∀ t,
      final.states.get? t = (if t ∈ publication.tableIds then
          some ((left.states.get? t).getD .init) else none) ∧
        (t ∈ final.slots ↔
          t ∈ left.slots ∧ (t ∈ publication.tableIds ∨ left.states.get? t = none)) := by
  refine (Calls.Completes.ofExcept hvalid (Q := fun _ state => state = left) rfl).bind
    fun _ _ hstate => ?_
  rw [hstate]
  show Calls.Completes (followPublication failure publication left.states) left _
  rw [followPublication_eq]
  refine (Calls.completes_forM_apply _ _).mono fun _ final hfinal t => ?_
  obtain ⟨hstates, hslots⟩ :=
    @foldl_take_startCalls publication left (startCalls publication left).length t
  rw [List.take_length, ← hfinal] at hstates hslots
  rw [hstates, hslots]
  simp only [delete_mem_startCalls, storeInit_mem_startCalls]
  cases hget : left.states.get? t <;> by_cases ht : t ∈ publication.tableIds <;> simp [ht]

/-- After any stopped starts, a start of a valid publication completes and leaves exactly the
published tables with a state, which is the one they had or the first one. The slots of the
tables that had a state and are no longer published are gone, except those of the tables between
whose two deletions a start has stopped. -/
theorem start_after_attempts (tables : PipelineTables) (attempts : List ℕ) :
    (initializeTableStates failure publication).Completes
      (afterAttempts failure publication tables attempts) fun _ final =>
      (∀ t, final.states.get? t = if t ∈ publication.tableIds then
        some ((tables.states.get? t).getD .init) else none) ∧
      ∀ t ∉ publication.tableIds, tables.states.get? t ≠ none →
        (t ∈ final.slots ↔ ∃ done calls, done ++ [calls] <+: attempts ∧
          StopsBetween publication (afterAttempts failure publication tables done) calls t) := by
  refine (completes_initializeTableStates hvalid _).mono fun _ final hfinal =>
    ⟨fun t => (hfinal t).1.trans ?_, fun t ht hstate => (hfinal t).2.trans ?_⟩
  · split_ifs with ht
    · rw [getD_afterAttempts hvalid ht]
    · rfl
  · rw [or_iff_right ht, orphaned_afterAttempts_iff hvalid ht hstate]

end Attempts

/-- The tables 9 and 10 are published. The tables 7, 8 and 9 have a state, 7 and 8 a slot. -/
def twoPublished : PublicationInfo := ⟨"pub", true, [9, 10], true, false⟩

def threeStates : PipelineTables :=
  ⟨((SortedMap.empty.insert 7 .dataSync).insert 8 .finishedCopy).insert 9 .ready, [7, 8]⟩

/-- The first start stops after it has stored the state of 10, the second after it has purged 7 and
deleted the state of 8. The third does not come to the slot of 8. -/
theorem start_after_attempts_purges :
    (initializeTableStates ⟨.unknown, "", none⟩ twoPublished).Completes
      (afterAttempts ⟨.unknown, "", none⟩ twoPublished threeStates [1, 3])
      fun _ final => final.states.get? 9 = some .ready ∧ final.states.get? 10 = some .init ∧
        final.states.get? 7 = none ∧ final.states.get? 8 = none ∧
        7 ∉ final.slots ∧ 8 ∈ final.slots := by
  refine (start_after_attempts rfl threeStates [1, 3]).mono fun _ final hfinal => ?_
  obtain ⟨hstates, hslots⟩ := hfinal
  refine ⟨hstates 9, hstates 10, hstates 7, hstates 8, fun hslot => ?_,
    (hslots 8 (by decide) (by decide)).mpr ⟨[1], 3, List.prefix_refl _, by decide⟩⟩
  obtain ⟨done, calls, hdone, hstops⟩ := (hslots 7 (by decide) (by decide)).mp hslot
  have hcases : (done = [] ∧ calls = 1) ∨ (done = [1] ∧ calls = 3) := by
    obtain ⟨rest, hrest⟩ := hdone
    rcases done with _ | ⟨first, _ | ⟨second, done⟩⟩ <;> simp_all
  obtain ⟨rfl, rfl⟩ | ⟨rfl, rfl⟩ := hcases <;> exact absurd hstops (by decide)

/-- A start that stops between the two deletions leaves the slot of a table that had a state and is
no longer published, and the next start does not delete it. -/
theorem slot_left_behind :
    threeStates.states.get? 7 = some .dataSync ∧ 7 ∉ twoPublished.tableIds ∧
      (initializeTableStates ⟨.unknown, "", none⟩ twoPublished).Completes
        (afterAttempts ⟨.unknown, "", none⟩ twoPublished threeStates [2])
        fun _ final => final.states.get? 7 = none ∧ final.slots = [7] :=
  ⟨rfl, by decide, _, _, rfl, rfl, rfl⟩

end Etl
