import Etl.Workers.CatchUpExit
import Etl.Workers.Exclusivity

/-! # A table-sync worker and how it ends

The pipeline with what the table-sync worker leaves behind: its replication slot and its
result. A worker returns when its apply loop has returned, with the loop's result, or without
one when it finds nothing to do. A loop that was asked to complete by a commit returns only
after the flush of that commit has handed the table back, so a worker whose loop completes has
caught up, and it deletes its slot after that.

Reference: `etl/src/workers/table_sync.rs` (`guarded_run_table_sync_worker`).
-/

namespace Etl

open List SyncPoint Pipeline Session

variable {ρ : Type} {point : SyncPoint}

/-! ## The run of a worker -/

/-- How a table-sync worker ends. -/
inductive TableSyncWorkerResult where
  | completed
  | shutdown
  | errored
  deriving DecidableEq, Repr

/-- The pipeline, the consistent point of the worker's slot while it exists, the catch-up
target set last, and the result of the last worker once it has ended. -/
structure SyncRun (ρ : Type) where
  pipeline : Pipeline ρ
  slot : Option PgLsn
  catchupLsn : Option PgLsn
  result : Option TableSyncWorkerResult

/-- What can happen. -/
inductive SyncRunInput (ρ : Type) where
  | pipeline (input : PipelineInput ρ)
  /-- The slot of an earlier copy is deleted before a new copy. -/
  | deleteStaleSlot
  | deleteReplicationProgress
  | deleteSlot

namespace SyncRun

/-- The result of the worker's loop, once it has returned. -/
def loopResult (r : SyncRun ρ) : Option ApplyLoopResult :=
  match r.pipeline.handoff.sync.isLooping, r.pipeline.sync.point with
  | true, .finished result => some result
  | _, _ => none

/-- Whether the worker allows the step: a slot is made only if there is none, and a worker that
runs its loop returns after it. -/
def permits (r : SyncRun ρ) : PipelineInput ρ → Bool
  | .prepareCopy _ | .createSlot _ => r.slot.isNone
  | .worker .finishWorker => !r.pipeline.handoff.sync.isLooping || r.loopResult.isSome
  | _ => true

/-- The result of a worker that ends with the step. -/
def ending (r : SyncRun ρ) : PipelineInput ρ → Option TableSyncWorkerResult
  | .worker .startTableSync => some .completed
  | .worker .finishWorker =>
    if r.loopResult = some .completed then some .completed else some .shutdown
  | .worker (.handleError _ true _) => some .errored
  | .worker .shutdownRetry => some .shutdown
  | _ => none

/-- The run after a step of the pipeline. -/
def record (r : SyncRun ρ) (input : PipelineInput ρ) (pipeline : Pipeline ρ) : SyncRun ρ where
  pipeline := pipeline
  slot :=
    match input with
    | .createSlot lsn => some lsn
    | _ => r.slot
  catchupLsn :=
    match pipeline.handoff.worker.phase with
    | .catchup lsn => some lsn
    | _ => r.catchupLsn
  result :=
    if pipeline.handoff.sync ≠ .inactive then none
    else if r.pipeline.handoff.sync = .inactive then r.result
    else r.ending input

/-- One step. The cleanup of a completed worker deletes its progress first; a failure of either
deletion is only logged. -/
def next [DecidableEq ρ] (tableId : TableId) (maxAttempts : ℕ) (r : SyncRun ρ)
    (input : SyncRunInput ρ) : Option (SyncRun ρ) :=
  match input with
  | .pipeline input =>
    if r.permits input then (r.pipeline.next tableId maxAttempts input).map (r.record input)
    else none
  | .deleteStaleSlot =>
    if r.pipeline.handoff.sync = .preparing then some { r with slot := none } else none
  | .deleteReplicationProgress =>
    if r.loopResult = some .completed then
      some { r with
        pipeline := { r.pipeline with sync := { r.pipeline.sync with durableProgress := none } } }
    else none
  | .deleteSlot =>
    if r.loopResult = some .completed ∧ r.pipeline.sync.durableProgress = none then
      some { r with slot := none }
    else none

end SyncRun

/-- The run as a machine: a process that finds the given phase in the store and perhaps a slot
of an earlier worker. -/
def syncRunMachine (ρ : Type) [DecidableEq ρ] (tableId : TableId) (maxAttempts : ℕ)
    (phase : TableReplicationPhase) : Machine (SyncRun ρ) (SyncRunInput ρ) where
  init r := ∃ pipeline slot, (pipelineMachine ρ tableId maxAttempts phase).init pipeline ∧
    r = ⟨pipeline, slot, none, none⟩
  next := SyncRun.next tableId maxAttempts

/-! ## The invariant -/

/-- Whether the worker has prepared its copy and still needs the slot. -/
def SyncPoint.needsSlot : SyncPoint → Bool
  | .copying | .copied _ | .waiting _ | .catchingUp _ => true
  | _ => false

theorem SyncPoint.snapshot?_of_isOutside (h : point.isOutside = true) :
    point.snapshot? = none := by
  cases point <;> first | rfl | cases h

theorem SyncPoint.needsSlot_of_isOutside (h : point.isOutside = true) :
    point.needsSlot = false := by
  cases point <;> first | rfl | cases h

/-- A worker that catches up from a snapshot. A loop that is asked to complete holds a commit
at or above the target. -/
structure Pipeline.Catching (p : Pipeline ρ) (tableId : TableId) (snapshotLsn : PgLsn) :
    Prop where
  covers : p.sync.Covers tableId p.wal p.syncCursor [] (snapshotLsn ≤ ·)
  inFlush : ∀ paused, p.sync.point = .inFlush paused → p.sync.state.pendingFlushResult = none
  holds : ∀ catchupLsn, p.handoff.worker.phase = .catchup catchupLsn →
    p.sync.state.exitIntent = some .complete → p.sync.HoldsCommit catchupLsn
  unfinished : p.sync.point ≠ .finished .completed

namespace SyncRun

variable {r r' : SyncRun ρ} {tableId : TableId} {maxAttempts : ℕ} {lsn : PgLsn}
  {input : PipelineInput ρ} {p' : Pipeline ρ} {error : EtlError} {handoff : Handoff} {stored : Bool}
  {sync : Session ρ} {syncCursor : Cursor ρ} {p : Pipeline ρ}

/-- The table was handed back at or above the target: `SyncDone` was stored and the store holds
it, or `Ready` if the apply worker was faster, and the destination has acknowledged every
change that committed after the snapshot in a transaction that ends by then. -/
structure CaughtUp (r : SyncRun ρ) (tableId : TableId) : Prop where
  reached : ∃ catchupLsn, r.catchupLsn = some catchupLsn ∧ catchupLsn ≤ r.pipeline.handbackLsn
  stored : .syncDone r.pipeline.handbackLsn ∈ r.pipeline.handoff.store.log
  current : r.pipeline.handoff.store.current = .syncDone r.pipeline.handbackLsn ∨
    r.pipeline.handoff.store.current = .ready
  handback_le : r.pipeline.handbackLsn ≤ r.pipeline.wal.tip
  acked : ∃ snapshotLsn, r.pipeline.snapshot = some snapshotLsn ∧
    ∀ tx ∈ r.pipeline.wal.txs, snapshotLsn ≤ tx.commitLsn →
      tx.endLsn ≤ r.pipeline.handbackLsn → ∀ record ∈ tx.records,
        record.change.concerns tableId = true →
          Writes tableId r.pipeline.sync.acked tx.commitLsn record

/-- The invariant of the run. -/
structure Inv (r : SyncRun ρ) (tableId : TableId) : Prop where
  consistent : r.pipeline.handoff.Consistent
  snapshot_le : ∀ lsn, r.pipeline.snapshot = some lsn → lsn ≤ r.pipeline.wal.tip
  snapshot_eq : ∀ lsn, r.pipeline.handoff.sync.snapshot? = some lsn →
    r.pipeline.snapshot = some lsn
  slot_eq : r.pipeline.handoff.sync.needsSlot = true → r.slot = r.pipeline.snapshot
  target_eq : ∀ lsn, r.pipeline.handoff.worker.phase = .catchup lsn → r.catchupLsn = some lsn
  catching : ∀ lsn, r.pipeline.handoff.sync = .catchingUp lsn →
    r.pipeline.Catching tableId lsn
  completing : r.pipeline.handoff.sync = .completing → r.CaughtUp tableId

/-- A log that grows and a loop that acknowledges more do not undo a handback. -/
theorem CaughtUp.mono (h : r.CaughtUp tableId) (htarget : r'.catchupLsn = r.catchupLsn)
    (hback : r'.pipeline.handbackLsn = r.pipeline.handbackLsn)
    (hsnapshot : r'.pipeline.snapshot = r.pipeline.snapshot)
    (hstore : r'.pipeline.handoff.store = r.pipeline.handoff.store ∨
      r'.pipeline.handoff.store = r.pipeline.handoff.store.updateTableReplicationState .ready)
    (hwal : r.pipeline.wal.Extends r'.pipeline.wal)
    (hacked : r.pipeline.sync.acked <+: r'.pipeline.sync.acked) : r'.CaughtUp tableId := by
  obtain ⟨snapshotLsn, hsome, hwrites⟩ := h.acked
  refine ⟨?_, ?_, ?_, ?_, snapshotLsn, hsnapshot.trans hsome, ?_⟩
  · rw [htarget, hback]
    exact h.reached
  · rw [hback]
    rcases hstore with heq | heq
    · rw [heq]
      exact h.stored
    · rw [heq]
      exact mem_append_left _ h.stored
  · rw [hback]
    rcases hstore with heq | heq
    · rw [heq]
      exact h.current
    · rw [heq]
      exact .inr rfl
  · rw [hback]
    exact le_trans h.handback_le hwal.tip_le
  · intro tx htx hafter hend record hrecord hconcerns
    rw [hback] at hend
    have hlt := lt_of_lt_of_le (r'.pipeline.wal.commit_lt tx htx) hend
    have hold := hwal.mem_of_lt htx (lt_of_lt_of_le hlt h.handback_le)
    exact (hwrites tx hold hafter hend record hrecord hconcerns).mono hacked.subset

@[simp]
theorem record_pipeline (r : SyncRun ρ) (input : PipelineInput ρ) (p : Pipeline ρ) :
    (r.record input p).pipeline = p := rfl

/-- The target is recorded when it is set. -/
theorem record_target (r : SyncRun ρ) (input : PipelineInput ρ) (p : Pipeline ρ)
    (hphase : p.handoff.worker.phase = .catchup lsn) :
    (r.record input p).catchupLsn = some lsn := by
  simp only [record, hphase]

/-- The target stays as long as the phase does, and when the table is handed back. -/
theorem record_catchupLsn (h : r.Inv tableId) (input : PipelineInput ρ)
    (hphase : p.handoff.worker.phase = r.pipeline.handoff.worker.phase ∨
      ∀ lsn, p.handoff.worker.phase ≠ .catchup lsn) :
    (r.record input p).catchupLsn = r.catchupLsn := by
  unfold record
  simp only
  split
  next lsn hlsn =>
    rcases hphase with hphase | hphase
    · exact (h.target_eq lsn (hphase.symm.trans hlsn)).symm
    · exact absurd hlsn (hphase lsn)
  · rfl

/-! ## Steps beside the worker -/

/-- The table-sync side of the pipeline is the same, up to growth of the log. -/
structure SameSync (p p' : Pipeline ρ) : Prop where
  wal : p.wal.Extends p'.wal
  store_eq : p'.handoff.store = p.handoff.store
  worker_eq : p'.handoff.worker = p.handoff.worker
  sync_eq : p'.handoff.sync = p.handoff.sync
  session_eq : p'.sync = p.sync
  cursor_eq : p'.syncCursor = p.syncCursor
  snapshot_eq : p'.snapshot = p.snapshot
  handback_eq : p'.handbackLsn = p.handbackLsn

theorem Inv.sameSync (h : r.Inv tableId) (hsame : SameSync r.pipeline p')
    (hslot : (r.record input p').slot = r.slot) :
    (r.record input p').Inv tableId := by
  have htarget := record_catchupLsn h input (p := p') (.inl (by rw [hsame.worker_eq]))
  refine ⟨?_, ?_, ?_, ?_, fun lsn hlsn => r.record_target input p' hlsn, ?_, ?_⟩
  · refine h.consistent.congr hsame.store_eq (by rw [record_pipeline, hsame.worker_eq])
      (by rw [record_pipeline, hsame.worker_eq]) ?_
    rw [record_pipeline, hsame.sync_eq]
    exact h.consistent.agrees
  · intro lsn hlsn
    exact le_trans (h.snapshot_le lsn (hsame.snapshot_eq.symm.trans hlsn)) hsame.wal.tip_le
  · intro lsn hlsn
    refine hsame.snapshot_eq.trans (h.snapshot_eq lsn ?_)
    rw [← hsame.sync_eq]
    exact hlsn
  · intro hneeds
    rw [hslot]
    refine (h.slot_eq ?_).trans hsame.snapshot_eq.symm
    rw [← hsame.sync_eq]
    exact hneeds
  · intro lsn hlsn
    obtain ⟨hcovers, hinFlush, hholds, hunfinished⟩ :=
      h.catching lsn (hsame.sync_eq.symm.trans hlsn)
    refine ⟨?_, ?_, ?_, ?_⟩
    · rw [record_pipeline, hsame.session_eq, hsame.cursor_eq]
      exact hcovers.extend hsame.wal
    · rw [record_pipeline, hsame.session_eq]
      exact hinFlush
    · rw [record_pipeline, hsame.session_eq, hsame.worker_eq]
      exact hholds
    · rw [record_pipeline, hsame.session_eq]
      exact hunfinished
  · intro hcompleting
    refine (h.completing (hsame.sync_eq.symm.trans hcompleting)).mono htarget hsame.handback_eq
      hsame.snapshot_eq (.inl hsame.store_eq) hsame.wal ?_
    simp [hsame.session_eq]

theorem sameSync_enterHook {p p' : Pipeline ρ} (hstep : p.enterHook = some p') :
    SameSync p p' := by
  unfold enterHook at hstep
  split at hstep
  next kind lsn _ _ _ =>
    cases hstep
    have hsame : (p.handoff.enterHook kind lsn).store = p.handoff.store ∧
        (p.handoff.enterHook kind lsn).worker = p.handoff.worker ∧
        (p.handoff.enterHook kind lsn).sync = p.handoff.sync := by
      unfold Handoff.enterHook
      split_ifs <;> exact ⟨rfl, rfl, rfl⟩
    exact ⟨.refl _, hsame.1, hsame.2.1, hsame.2.2, rfl, rfl, rfl, rfl⟩
  · cases hstep

theorem sameSync_applyStep [DecidableEq ρ] {p p' : Pipeline ρ} {input : LoopInput ρ}
    (hstep : p.applyStep tableId input = some p') : SameSync p p' := by
  obtain ⟨-, -, applyCursor, apply, -, -, rfl⟩ := applyStep_eq_some hstep
  exact ⟨.refl _, rfl, rfl, rfl, rfl, rfl, rfl, rfl⟩

theorem sameSync_failApply {p p' : Pipeline ρ} (hstep : p.failApply error = some p') :
    SameSync p p' := by
  obtain ⟨apply, -, rfl⟩ := Option.map_eq_some_iff.mp hstep
  exact ⟨.refl _, rfl, rfl, rfl, rfl, rfl, rfl, rfl⟩

theorem sameSync_restartApply {p p' : Pipeline ρ} (hstep : p.restartApply = some p') :
    SameSync p p' := by
  unfold restartApply at hstep
  split_ifs at hstep
  cases hstep
  exact ⟨.refl _, rfl, rfl, rfl, rfl, rfl, rfl, rfl⟩

/-! ## Steps of the handoff -/

/-- While a worker completes, nobody but the apply worker writes the store, and it writes
`Ready`. -/
theorem store_of_completing {h h' : Handoff} {input : HandoffInput} (hsync : h.sync = .completing)
    (hphase : h.worker.phase = .syncDone lsn) (hlocal : input.isLocal = true)
    (hnext : h.next maxAttempts input = some h') :
    h'.sync ≠ .completing ∨ h'.worker = h.worker ∧
      (h'.store = h.store ∨ h'.store = h.store.updateTableReplicationState .ready) := by
  cases Handoff.step_of_next hnext with
  | finishWorker | failWorker => exact .inl nofun
  | storeReady =>
    unfold Handoff.storeReady
    split_ifs
    · exact .inr ⟨rfl, .inr rfl⟩
    · exact .inr ⟨rfl, .inl rfl⟩
  | passTable | observeHandback => exact .inr ⟨rfl, .inl rfl⟩
  | _ => simp_all [HandoffInput.isLocal]

theorem Inv.localStep (h : r.Inv tableId) {input : HandoffInput} (hlocal : input.isLocal = true)
    (hnext : r.pipeline.handoff.next maxAttempts input = some handoff) :
    (r.record (.worker input) { r.pipeline with handoff }).Inv tableId := by
  have hagrees := h.consistent.agrees
  have hsync := Handoff.sync_of_next hlocal hnext
  refine ⟨h.consistent.next hnext, h.snapshot_le, ?_, ?_,
    fun lsn hlsn => r.record_target _ _ hlsn, ?_, ?_⟩
  · intro lsn hlsn
    rcases hsync with ⟨heq, -⟩ | ⟨lsn', hcopied, hwaiting⟩ | hout
    · exact h.snapshot_eq lsn (heq ▸ hlsn)
    · refine h.snapshot_eq lsn ?_
      simp only [record_pipeline, hwaiting] at hlsn
      rw [hcopied]
      exact hlsn
    · rw [record_pipeline, snapshot?_of_isOutside hout] at hlsn
      cases hlsn
  · intro hneeds
    refine h.slot_eq ?_
    rcases hsync with ⟨heq, -⟩ | ⟨lsn', hcopied, -⟩ | hout
    · exact heq ▸ hneeds
    · rw [hcopied]
      rfl
    · rw [record_pipeline, needsSlot_of_isOutside hout] at hneeds
      cases hneeds
  · intro lsn hlsn
    simp only [record_pipeline] at hlsn
    rcases hsync with ⟨heq, hkept⟩ | ⟨lsn', -, hwaiting⟩ | hout
    · have hwas : r.pipeline.handoff.sync = .catchingUp lsn := heq.symm.trans hlsn
      obtain ⟨hcovers, hinFlush, hholds, hunfinished⟩ := h.catching lsn hwas
      rw [hwas] at hagrees
      obtain ⟨catchupLsn, -, hphase⟩ := hagrees
      refine ⟨hcovers, hinFlush, ?_, hunfinished⟩
      intro catchupLsn' hphase'
      have hkept' := hkept catchupLsn (by simp [hwas]) hphase
      obtain rfl := TableReplicationPhase.catchup.inj (hkept'.symm.trans hphase')
      exact hholds catchupLsn hphase
    · rw [hwaiting] at hlsn
      cases hlsn
    · rw [hlsn] at hout
      cases hout
  · intro hcompleting
    simp only [record_pipeline] at hcompleting
    rcases hsync with ⟨heq, -⟩ | ⟨lsn', -, hwaiting⟩ | hout
    · have hwas : r.pipeline.handoff.sync = .completing := heq.symm.trans hcompleting
      rw [hwas] at hagrees
      obtain ⟨lsn, hphase⟩ := hagrees
      rcases store_of_completing hwas hphase hlocal hnext with hne | ⟨hworker, hstore⟩
      · exact absurd hcompleting hne
      · exact (h.completing hwas).mono
          (record_catchupLsn h _ (.inl (by simp only [hworker]))) rfl rfl hstore (.refl _)
          prefix_rfl
    · rw [hwaiting] at hcompleting
      cases hcompleting
    · rw [hcompleting] at hout
      cases hout

/-- A worker outside of its copy and its loop, with the same log and snapshot or none. -/
theorem Inv.outside (h : r.Inv tableId) (hconsistent : p.handoff.Consistent)
    (hout : p.handoff.sync.isOutside = true)
    (hsnapshot : ∀ lsn, p.snapshot = some lsn → r.pipeline.snapshot = some lsn)
    (hwal : p.wal = r.pipeline.wal) : (r.record input p).Inv tableId := by
  refine ⟨hconsistent, ?_, ?_, ?_, fun lsn hlsn => r.record_target _ _ hlsn, ?_, ?_⟩
  · intro lsn hlsn
    rw [record_pipeline, hwal]
    exact h.snapshot_le lsn (hsnapshot lsn hlsn)
  all_goals
    simp only [record_pipeline]
    cases hpoint : p.handoff.sync <;> rw [hpoint] at hout <;>
      simp [snapshot?, needsSlot, isOutside] at hout ⊢

/-! ## The copy -/

theorem Inv.prepareCopy (h : r.Inv tableId) (hslot : r.slot = none)
    (hnext : r.pipeline.handoff.next maxAttempts (.prepareCopy stored) = some handoff) :
    (r.record (.prepareCopy stored) { r.pipeline with handoff, snapshot := none }).Inv
      tableId := by
  have hconsistent := h.consistent.next hnext
  cases Handoff.step_of_next hnext
  cases stored with
  | false => exact h.outside hconsistent rfl (by simp) rfl
  | true =>
    refine ⟨hconsistent, by simp, ?_, fun _ => hslot, fun lsn hlsn => r.record_target _ _ hlsn,
      ?_, ?_⟩
    all_goals simp [Handoff.prepareCopy, snapshot?]

theorem Inv.createSlot (h : r.Inv tableId) (hstep : r.pipeline.createSlot lsn = some p') :
    (r.record (.createSlot lsn) p').Inv tableId := by
  unfold Pipeline.createSlot at hstep
  split_ifs at hstep with hslot
  cases hstep
  obtain ⟨hsync, -, hle, -⟩ := hslot
  refine ⟨h.consistent, ?_, ?_, fun _ => rfl, fun lsn hlsn => r.record_target _ _ hlsn, ?_, ?_⟩
  · intro lsn' hlsn'
    cases hlsn'
    exact hle
  all_goals simp [hsync, snapshot?]

theorem Inv.finishCopy (h : r.Inv tableId) (hstep : r.pipeline.finishCopy stored = some p') :
    (r.record (.finishCopy stored) p').Inv tableId := by
  unfold Pipeline.finishCopy at hstep
  split at hstep
  next lsn hsync hsnapshot =>
    cases hstep
    have hconsistent := h.consistent.finishCopy lsn stored
    cases stored with
    | false => exact h.outside hconsistent rfl (fun _ => id) rfl
    | true =>
      refine ⟨hconsistent, h.snapshot_le, ?_, fun _ => h.slot_eq (by rw [hsync]; rfl),
        fun lsn hlsn => r.record_target _ _ hlsn, ?_, ?_⟩
      · intro lsn' hlsn'
        cases hlsn'
        exact hsnapshot
      all_goals simp [Handoff.finishCopy]
  · cases hstep

/-! ## The loop -/

theorem Inv.startCatchup (h : r.Inv tableId) (hstep : r.pipeline.startCatchup = some p') :
    (r.record .startCatchup p').Inv tableId := by
  unfold Pipeline.startCatchup at hstep
  split at hstep
  next snapshotLsn hsync =>
    split_ifs at hstep with htype
    cases hstep
    have hagrees := h.consistent.agrees
    rw [hsync] at hagrees
    rcases hagrees with hphase | ⟨lsn, hle, hphase⟩
    · simp [hphase, TableReplicationPhase.asType] at htype
    have hsnapshot := h.snapshot_eq snapshotLsn (by rw [hsync]; rfl)
    refine ⟨h.consistent.congr rfl rfl rfl ⟨lsn, hle, hphase⟩, h.snapshot_le, ?_, ?_,
      fun lsn hlsn => r.record_target _ _ hlsn, ?_, ?_⟩
    · intro lsn' hlsn'
      exact h.snapshot_eq lsn' (by rw [hsync]; exact hlsn')
    · exact fun _ => h.slot_eq (by rw [hsync]; rfl)
    · intro lsn' hlsn'
      obtain rfl := catchingUp.inj hlsn'
      refine ⟨?_, by simp [start], by simp [start, ApplyLoopState.new],
        by simp [start]⟩
      refine covers_start (by simp) (h.snapshot_le snapshotLsn hsnapshot) ?_
      exact fun tx _ hbefore hafter => absurd hafter (not_le.mpr hbefore)
    · simp
  · cases hstep

/-- The table is handed back where the destination has acknowledged everything before. -/
theorem Inv.handback (h : r.Inv tableId) {kind : HookKind} {snapshotLsn catchupLsn lsn : PgLsn}
    (hsync : r.pipeline.handoff.sync = .catchingUp snapshotLsn)
    (hdue : r.pipeline.sync.dueHook = some (kind, lsn)) (hkind : kind ≠ .afterCommit)
    (hphase : r.pipeline.handoff.worker.phase = .catchup catchupLsn) (hreached : catchupLsn ≤ lsn)
    (hacked : r.pipeline.sync.acked <+: sync.acked) (input : PipelineInput ρ) :
    SyncRun.CaughtUp (r.record input { r.pipeline with
      handoff := r.pipeline.handoff.tryCompleteCatchup lsn true
      handbackLsn := lsn
      sync, syncCursor }) tableId := by
  obtain ⟨hcovers, -, -, -⟩ := h.catching snapshotLsn hsync
  have hsnapshot := h.snapshot_eq snapshotLsn (by rw [hsync]; rfl)
  obtain ⟨hackedThrough, hceiling, hopen⟩ := hcovers.inv.acked_dueHook hdue hkind
  have hhandoff : (r.pipeline.handoff.tryCompleteCatchup lsn true).worker.phase = .syncDone lsn ∧
      (r.pipeline.handoff.tryCompleteCatchup lsn true).store
        = r.pipeline.handoff.store.updateTableReplicationState (.syncDone lsn) := by
    simp [Handoff.tryCompleteCatchup, hphase, hreached, Handoff.setAndStore,
      TableReplicationPhase.asType, TableReplicationPhaseType.shouldStore]
  refine ⟨⟨catchupLsn, ?_, hreached⟩, ?_, .inl ?_, ?_, snapshotLsn, hsnapshot, ?_⟩
  · rw [record_catchupLsn h _ (.inr (by simp [hhandoff.1]))]
    exact h.target_eq catchupLsn hphase
  · simp only [record_pipeline, hhandoff.2]
    exact mem_append_right _ (mem_singleton.mpr rfl)
  · simp [hhandoff.2, PhaseStore.updateTableReplicationState]
  · exact le_trans hceiling hcovers.aligned.ceiling_le_tip
  · intro tx htx hafter hend record hrecord hconcerns
    have hlt := lt_of_lt_of_le (r.pipeline.wal.commit_lt tx htx) hend
    exact (hcovers.writes_of_acked hackedThrough hceiling hopen htx hafter hlt hrecord
      hconcerns).mono hacked.subset

/-- A loop that catches up and does not hand the table back goes on catching up. -/
theorem catching_syncStep [DecidableEq ρ] {snapshotLsn catchupLsn : PgLsn}
    (h : p.Catching tableId snapshotLsn) (hphase : p.handoff.worker.phase = .catchup catchupLsn)
    (hbelow : ∀ kind lsn, p.sync.dueHook = some (kind, lsn) → kind ≠ .afterCommit →
      lsn < catchupLsn) {input : LoopInput ρ} (hpermits : p.permitsSync tableId input = true)
    (hfollow : p.wal.follow p.syncCursor p.sync.sender.openCommit.isSome input = some syncCursor)
    (hnext : p.sync.next input = some sync) (hrun : sync.point.isFailed = false) :
    { p with sync, syncCursor }.Catching tableId snapshotLsn := by
  have hholds : sync.state.exitIntent = some .complete → sync.HoldsCommit catchupLsn := by
    intro hexit
    rcases complete_of_next hnext hrun hexit with hold | ⟨hdue, hanswer⟩
    · exact (h.holds catchupLsn hphase hold).next h.inFlush
        (fun lsn hdue => hbelow .afterFlush lsn hdue (by simp)) hnext hrun
    · -- only the commit hook asks to complete without handing the table back
      obtain ⟨⟨kind, lsn⟩, hdue⟩ := Option.isSome_iff_exists.mp hdue
      have hanswer' := answer_of_permitsSync hpermits hnext hdue
      have hreached : catchupLsn ≤ lsn := by
        rw [hanswer'] at hanswer
        by_contra hlt
        simp [Handoff.catchupAnswer, hphase, hlt] at hanswer
      rcases dueHook_cases hdue with ⟨rfl, -⟩ | ⟨-, startLsn, commitLsn, hpoint⟩ | ⟨rfl, -⟩
      · exact absurd hreached (not_le.mpr (hbelow _ lsn hdue (by simp)))
      · exact holdsCommit_of_commitHook hpoint hreached hanswer' hnext hrun
      · exact absurd hreached (not_le.mpr (hbelow _ lsn hdue (by simp)))
  refine ⟨?_, ?_, ?_, ?_⟩
  · refine h.covers.next hnext hfollow ?_
    intro ans hans _ _ _
    cases input with
    | message message ans' _ _ _ _ =>
      cases hans
      exact owns_of_agrees hpermits
    | _ => simp [LoopInput.answers?] at hans
  · intro paused hpoint
    cases batchStep_of_next h.inFlush hnext with
    | kept added hcall hproduced hgrown hfinished hflush =>
      rw [hgrown.pending_eq, resolve, (hflush paused hpoint).1]
      rfl
    | called call added hcall hproduced hgrown hdue houtcome =>
      rcases houtcome with hfailed | ⟨hepilogue, -⟩
      · rw [hfailed] at hrun
        cases hrun
      · simp [hepilogue] at hpoint
  · intro catchupLsn' hphase'
    obtain rfl := TableReplicationPhase.catchup.inj (hphase.symm.trans hphase')
    exact hholds
  · intro hpoint
    have hexit := complete_of_finished hnext hpoint
    exact (hholds hexit).not_finished h.inFlush hnext .completed hpoint

theorem Inv.syncStep [DecidableEq ρ] (h : r.Inv tableId) {input : LoopInput ρ}
    (hstep : r.pipeline.syncStep tableId input = some p') :
    (r.record (.sync input) p').Inv tableId := by
  unfold Pipeline.syncStep at hstep
  split_ifs at hstep with hlooping
  obtain ⟨hlooping, hpermits⟩ := hlooping
  split at hstep
  next syncCursor sync hfollow hnext =>
    cases hstep
    have hacked : r.pipeline.sync.acked <+: sync.acked := acked_of_next hnext
    have hagrees := h.consistent.agrees
    cases hsync : r.pipeline.handoff.sync with
    | catchingUp snapshotLsn =>
      rw [hsync] at hagrees
      obtain ⟨catchupLsn, -, hphase⟩ := hagrees
      rcases r.pipeline.tryHandback_of_catchup true hphase with
        ⟨hsame, hbelow⟩ | ⟨kind, lsn, hdue, hkind, hreached, heq⟩
      · rw [hsame]
        split_ifs with hfailed
        · exact h.outside (h.consistent.congr rfl rfl rfl trivial) rfl (fun _ => id) rfl
        · have hrun : sync.point.isFailed = false := by simpa using hfailed
          refine ⟨h.consistent, h.snapshot_le, h.snapshot_eq, h.slot_eq,
            fun lsn hlsn => r.record_target _ _ hlsn, ?_, by simp [hsync]⟩
          intro lsn hlsn
          obtain rfl := catchingUp.inj (hsync.symm.trans hlsn)
          exact catching_syncStep (h.catching snapshotLsn hsync) hphase hbelow hpermits hfollow
            hnext hrun
      · rw [heq]
        have hconsistent := h.consistent.tryCompleteCatchup lsn true
        have hcompleting : (r.pipeline.handoff.tryCompleteCatchup lsn true).sync = .completing := by
          simp [Handoff.tryCompleteCatchup, hphase, hreached]
        split_ifs
        · exact h.outside (hconsistent.congr rfl rfl rfl trivial) rfl (fun _ => id) rfl
        · refine ⟨hconsistent, h.snapshot_le, ?_, ?_, fun lsn hlsn => r.record_target _ _ hlsn, ?_,
            fun _ => h.handback hsync hdue hkind hphase hreached hacked _⟩
          all_goals simp [hcompleting, snapshot?, needsSlot]
    | completing =>
      rw [hsync] at hagrees
      obtain ⟨lsn, hphase⟩ := hagrees
      have hsame : r.pipeline.tryHandback true = r.pipeline := by
        rcases r.pipeline.tryHandback_cases true with hsame | ⟨_, _, _, _, _, hphase', _⟩
        · exact hsame
        · simp [hphase] at hphase'
      rw [hsame]
      split_ifs
      · exact h.outside (h.consistent.congr rfl rfl rfl trivial) rfl (fun _ => id) rfl
      · refine ⟨h.consistent, h.snapshot_le, h.snapshot_eq, h.slot_eq,
          fun lsn hlsn => r.record_target _ _ hlsn, by simp [hsync], ?_⟩
        exact fun _ => (h.completing hsync).mono (record_catchupLsn h _ (.inl rfl)) rfl rfl
          (.inl rfl) (.refl _) hacked
    | _ => simp [hsync, isLooping] at hlooping
  · cases hstep

theorem Inv.failHandback (h : r.Inv tableId) (hstep : r.pipeline.failHandback error = some p') :
    (r.record (.failHandback error) p').Inv tableId := by
  obtain ⟨-, catchupLsn, -, lsn, sync, -, hphase, -, -, hreached, -, rfl⟩ :=
    failHandback_eq_some hstep
  refine h.outside (h.consistent.tryCompleteCatchup lsn false) ?_ (fun _ => id) rfl
  simp [Handoff.tryCompleteCatchup, hphase, hreached, isOutside]

/-! ## Whole runs -/

theorem Inv.pipelineStep [DecidableEq ρ] (h : r.Inv tableId) (hpermits : r.permits input = true)
    (hnext : r.pipeline.next tableId maxAttempts input = some p') :
    (r.record input p').Inv tableId := by
  cases input with
  | commitTx tx =>
    obtain ⟨wal, hcommit, rfl⟩ := Option.map_eq_some_iff.mp hnext
    have hsame : SameSync r.pipeline { r.pipeline with wal } :=
      ⟨Wal.extends_commit hcommit, rfl, rfl, rfl, rfl, rfl, rfl, rfl⟩
    exact h.sameSync hsame rfl
  | advanceWal lsn =>
    cases hnext
    have hsame : SameSync r.pipeline { r.pipeline with wal := r.pipeline.wal.advance lsn } :=
      ⟨r.pipeline.wal.extends_advance lsn, rfl, rfl, rfl, rfl, rfl, rfl, rfl⟩
    exact h.sameSync hsame rfl
  | worker input =>
    simp only [Pipeline.next] at hnext
    split_ifs at hnext with hlocal
    obtain ⟨handoff, hstep, rfl⟩ := Option.map_eq_some_iff.mp hnext
    exact h.localStep hlocal hstep
  | prepareCopy stored =>
    obtain ⟨handoff, hstep, rfl⟩ := Option.map_eq_some_iff.mp hnext
    exact h.prepareCopy (Option.isNone_iff_eq_none.mp hpermits) hstep
  | createSlot lsn => exact h.createSlot hnext
  | finishCopy stored => exact h.finishCopy hnext
  | startCatchup => exact h.startCatchup hnext
  | sync input => exact h.syncStep hnext
  | failHandback error => exact h.failHandback hnext
  | enterHook => exact h.sameSync (sameSync_enterHook hnext) rfl
  | interruptHook =>
    obtain rfl := Pipeline.interruptHook_eq hnext
    have hsame : SameSync r.pipeline { r.pipeline with
        handoff := { r.pipeline.handoff with apply := .running }, hook := .interrupted } :=
      ⟨.refl _, rfl, rfl, rfl, rfl, rfl, rfl, rfl⟩
    exact h.sameSync hsame rfl
  | apply input => exact h.sameSync (sameSync_applyStep hnext) rfl
  | failApply error => exact h.sameSync (sameSync_failApply hnext) rfl
  | restartApply => exact h.sameSync (sameSync_restartApply hnext) rfl
  | confirmFlush lsn =>
    simp only [Pipeline.next] at hnext
    split_ifs at hnext
    cases hnext
    have hsame : SameSync r.pipeline { r.pipeline with slotLsn := max r.pipeline.slotLsn lsn } :=
      ⟨.refl _, rfl, rfl, rfl, rfl, rfl, rfl, rfl⟩
    exact h.sameSync hsame rfl
  | crash =>
    cases hnext
    exact h.outside (h.consistent.congr rfl rfl rfl trivial) rfl (fun _ => id) rfl

/-- A loop that has completed has handed the table back. -/
theorem Inv.caughtUp_of_loopResult (h : r.Inv tableId) (hloop : r.loopResult = some .completed) :
    r.pipeline.handoff.sync = .completing ∧ r.CaughtUp tableId := by
  unfold loopResult at hloop
  split at hloop
  next result hlooping hpoint =>
    cases hloop
    cases hsync : r.pipeline.handoff.sync with
    | catchingUp lsn => exact absurd hpoint (h.catching lsn hsync).unfinished
    | completing => exact ⟨rfl, h.completing hsync⟩
    | _ => simp [hsync, isLooping] at hlooping
  · cases hloop

theorem Inv.next [DecidableEq ρ] (h : r.Inv tableId) {input : SyncRunInput ρ}
    (hnext : r.next tableId maxAttempts input = some r') : r'.Inv tableId := by
  cases input with
  | pipeline input =>
    simp only [SyncRun.next] at hnext
    split_ifs at hnext with hpermits
    obtain ⟨p', hstep, rfl⟩ := Option.map_eq_some_iff.mp hnext
    exact h.pipelineStep hpermits hstep
  | deleteStaleSlot =>
    simp only [SyncRun.next] at hnext
    split_ifs at hnext with hsync
    cases hnext
    exact { h with slot_eq := by simp [hsync, needsSlot], completing := by simp [hsync] }
  | deleteReplicationProgress =>
    simp only [SyncRun.next] at hnext
    split_ifs at hnext with hloop
    cases hnext
    obtain ⟨hsync, hcaught⟩ := h.caughtUp_of_loopResult hloop
    exact ⟨h.consistent, h.snapshot_le, h.snapshot_eq, h.slot_eq, h.target_eq, by simp [hsync],
      fun _ => hcaught.mono rfl rfl rfl (.inl rfl) (.refl _) prefix_rfl⟩
  | deleteSlot =>
    simp only [SyncRun.next] at hnext
    split_ifs at hnext with hloop
    cases hnext
    obtain ⟨hsync, hcaught⟩ := h.caughtUp_of_loopResult hloop.1
    exact ⟨h.consistent, h.snapshot_le, h.snapshot_eq, by simp [hsync, needsSlot],
      h.target_eq, by simp [hsync],
      fun _ => hcaught.mono rfl rfl rfl (.inl rfl) (.refl _) prefix_rfl⟩

theorem inv_started {phase : TableReplicationPhase} (hphase : phase.asType.shouldStore = true)
    {wal : Wal ρ} {startLsn slotLsn : PgLsn} {durableProgress slot : Option PgLsn} :
    (SyncRun.mk (.started phase wal startLsn durableProgress slotLsn) slot none none).Inv
      tableId := by
  refine ⟨⟨trivial, ⟨hphase, by simp [started, startedWith], rfl⟩, rfl⟩, ?_, ?_, ?_, ?_,
    ?_, ?_⟩
  · simp [started]
  · simp [started, startedWith, snapshot?]
  · simp [started, startedWith, needsSlot]
  · intro lsn hlsn
    obtain rfl : phase = .catchup lsn := hlsn
    cases hphase
  all_goals simp [started, startedWith]

/-- The worker is about to find that the table needs no copy. -/
def NotRequired (r : SyncRun ρ) : Prop :=
  r.pipeline.handoff.sync = .starting ∧
    r.pipeline.handoff.worker.phase.asType ∈ [.syncDone, .ready, .errored]

/-- A worker that returns at its start has found nothing to do. -/
theorem notRequired_of_startTableSync
    (hnext : r.pipeline.handoff.next maxAttempts .startTableSync = some handoff)
    (hinactive : handoff.sync = .inactive) :
    r.NotRequired ∧ handoff.store = r.pipeline.handoff.store := by
  cases Handoff.step_of_next hnext with
  | startTableSync hsync =>
    unfold Handoff.startTableSync at hinactive ⊢
    split at hinactive
    next htype => exact ⟨⟨hsync, by simp [htype]⟩, rfl⟩
    next htype => exact ⟨⟨hsync, by simp [htype]⟩, rfl⟩
    next htype => exact ⟨⟨hsync, by simp [htype]⟩, rfl⟩
    all_goals cases hinactive

/-- How a worker ends with the result `Completed`. -/
theorem Inv.ending [DecidableEq ρ] (h : r.Inv tableId)
    (hnext : r.pipeline.next tableId maxAttempts input = some p')
    (hinactive : p'.handoff.sync = .inactive) (hending : r.ending input = some .completed) :
    r.NotRequired ∧ p'.handoff.store = r.pipeline.handoff.store ∧ p'.sync = r.pipeline.sync ∨
      (r.record input p').CaughtUp tableId := by
  unfold SyncRun.ending at hending
  split at hending
  · obtain ⟨handoff, hstep, rfl⟩ := Option.map_eq_some_iff.mp hnext
    obtain ⟨hrequired, hstore⟩ := notRequired_of_startTableSync hstep hinactive
    exact .inl ⟨hrequired, hstore, rfl⟩
  · split_ifs at hending with hloop
    · obtain ⟨handoff, hstep, rfl⟩ := Option.map_eq_some_iff.mp hnext
      obtain ⟨hsync, hcaught⟩ := h.caughtUp_of_loopResult hloop
      simp only [Handoff.next, hsync] at hstep
      cases hstep
      exact .inr (hcaught.mono (record_catchupLsn h _ (.inl rfl)) rfl rfl (.inl rfl)
        (.refl _) prefix_rfl)
    · cases hending
  all_goals cases hending

/-- When a step deletes the slot. -/
theorem Inv.deletion [DecidableEq ρ] (h : r.Inv tableId) {input : SyncRunInput ρ}
    (hnext : r.next tableId maxAttempts input = some r') (hslot : r.slot = some lsn)
    (hdeleted : r'.slot = none) :
    r.pipeline.handoff.sync = .preparing ∨
      r.pipeline.handoff.sync = .completing ∧ r.CaughtUp tableId := by
  unfold SyncRun.next at hnext
  split at hnext
  next input =>
    split_ifs at hnext
    obtain ⟨p', -, rfl⟩ := Option.map_eq_some_iff.mp hnext
    cases input <;> simp [record, hslot] at hdeleted
  · split_ifs at hnext with hsync
    exact .inl hsync
  · split_ifs at hnext
    cases hnext
    rw [hslot] at hdeleted
    cases hdeleted
  · split_ifs at hnext with hloop
    exact .inr (h.caughtUp_of_loopResult hloop.1)

end SyncRun

variable {phase : TableReplicationPhase} {r : SyncRun ρ} {tableId : TableId} {maxAttempts : ℕ}

theorem syncRun_inv [DecidableEq ρ] (hr : (syncRunMachine ρ tableId maxAttempts phase).Reachable r) :
    r.Inv tableId := by
  refine hr.invariant (I := fun r => r.Inv tableId) ?_ ?_
  · rintro r ⟨pipeline, slot, ⟨hphase, wal, startLsn, durableProgress, slotLsn, -, -, -, rfl⟩, rfl⟩
    exact SyncRun.inv_started hphase
  · exact fun r input r' h hnext => h.next hnext

theorem result_of_active [DecidableEq ρ]
    (hr : (syncRunMachine ρ tableId maxAttempts phase).Reachable r) :
    r.pipeline.handoff.sync ≠ .inactive → r.result = none := by
  refine hr.invariant (I := fun r => r.pipeline.handoff.sync ≠ .inactive → r.result = none) ?_ ?_
  · rintro r ⟨pipeline, slot, -, rfl⟩ -
    rfl
  · intro r input r' h hnext hactive
    replace hnext : r.next tableId maxAttempts input = some r' := hnext
    unfold SyncRun.next at hnext
    split at hnext
    · split_ifs at hnext
      obtain ⟨p', -, rfl⟩ := Option.map_eq_some_iff.mp hnext
      exact if_pos hactive
    all_goals
      split_ifs at hnext
      cases hnext
      exact h hactive

/-- In every run, a worker that ends with the result `Completed` has found nothing to do at its
start, or has caught up: the table was handed back at or above the target, and every change
after the snapshot up to there has been acknowledged. A slot is deleted by a worker that is
about to copy anew, or after the table was handed back. -/
theorem completed_worker_caughtUp [DecidableEq ρ] {tableId : TableId} {maxAttempts : ℕ}
    {phase : TableReplicationPhase} {r r' : SyncRun ρ} {input : SyncRunInput ρ}
    (hr : (syncRunMachine ρ tableId maxAttempts phase).Reachable r)
    (hnext : r.next tableId maxAttempts input = some r') :
    (r.pipeline.handoff.sync ≠ .inactive → r'.result = some .completed →
      (r.NotRequired ∧ r'.pipeline.handoff.store = r.pipeline.handoff.store ∧
        r'.pipeline.sync = r.pipeline.sync ∧ r'.slot = r.slot) ∨ r'.CaughtUp tableId) ∧
    (∀ lsn, r.slot = some lsn → r'.slot = none → r.pipeline.handoff.sync = .preparing ∨
      r.pipeline.handoff.sync = .completing ∧ r.CaughtUp tableId) := by
  have h := syncRun_inv hr
  refine ⟨?_, fun lsn hslot hdeleted => h.deletion hnext hslot hdeleted⟩
  intro hactive hresult
  cases input with
  | pipeline input =>
    simp only [SyncRun.next] at hnext
    split_ifs at hnext
    obtain ⟨p', hstep, rfl⟩ := Option.map_eq_some_iff.mp hnext
    simp only [SyncRun.record] at hresult
    split_ifs at hresult with hactive'
    have hinactive : p'.handoff.sync = .inactive := not_not.mp hactive'
    rcases h.ending hstep hinactive hresult with ⟨hrequired, hstore, hsession⟩ | hcaught
    · refine .inl ⟨hrequired, hstore, hsession, ?_⟩
      cases input <;> first | rfl | cases hresult
    · exact .inr hcaught
  | deleteStaleSlot | deleteReplicationProgress | deleteSlot =>
    -- the cleanup is no end of the worker
    simp only [SyncRun.next] at hnext
    split_ifs at hnext
    cases hnext
    rw [result_of_active hr hactive] at hresult
    cases hresult

/-- A process that finds no copy of the table but a slot of an earlier attempt. -/
def startedWithSlot : SyncRun Unit := ⟨.started .init (.empty 10) 10 none 10, some 5, none, none⟩

/-- The insert as a worker takes it from its connection, up to the commit hook. -/
def insertMessages (owned : Bool) : List (LoopInput Unit) :=
  [usersMessage owned (.xLogData 24 24 (.begin 30)), .idle none, .idle none,
    usersMessage owned (.xLogData 25 25 (.row .insert 1 ())), .idle none, .idle none,
    usersMessage owned (.xLogData 30 40 (.commit 30 40))]

/-- The apply worker starts the table-sync worker. -/
def workerStarted : List (PipelineInput Unit) :=
  [.enterHook, .worker (.processTable true), .apply (.idle none), .worker .startTableSync]

/-- The table is copied at 10. The apply worker has seen the insert when it sets the target, so
the worker streams it and hands the table back at 40. -/
def copiedAndHandedBack : List (PipelineInput Unit) :=
  [.prepareCopy true, .createSlot 10, .finishCopy true, .worker .announceSyncWait,
      .commitTx insertTx] ++ (insertMessages false).map .apply ++
    [.enterHook, .worker (.processTable true), .startCatchup, .sync (.idle none)] ++
    (insertMessages true).map .sync ++
    [.sync (.commitHook (some .complete) 10 1000 (.ok ())), .sync (.idle none),
      .sync (.idle none), .sync (.flushResult (.ok ()) (.ok ()) (.ok ())),
      .sync (.flushHook (some .complete) (.ok ())), .sync (.idle none)]

/-- The worker replaces the slot it finds and deletes its own slot in the end. -/
def copiedAndCleanedUp : List (SyncRunInput Unit) :=
  workerStarted.map .pipeline ++ [.deleteStaleSlot] ++ copiedAndHandedBack.map .pipeline ++
    [.deleteReplicationProgress, .deleteSlot]

/-- What is observed of a run: where the worker is, its result and slot, the target, the
handback, the stored phase, the snapshot and the log. -/
def SyncRun.observe (r : SyncRun Unit) :
    SyncPoint × Option TableSyncWorkerResult × Option PgLsn × Option PgLsn × PgLsn ×
      TableReplicationPhase × Option PgLsn × List (WalTx Unit) :=
  (r.pipeline.handoff.sync, r.result, r.slot, r.catchupLsn, r.pipeline.handbackLsn,
    r.pipeline.handoff.store.current, r.pipeline.snapshot, r.pipeline.wal.txs)

theorem reachable_startedWithSlot (maxAttempts : ℕ) :
    (syncRunMachine Unit 1 maxAttempts .init).Reachable startedWithSlot :=
  .init ⟨_, some 5, ⟨rfl, .empty 10, 10, none, 10, le_rfl, le_rfl, by simp, rfl⟩, rfl⟩

theorem completed_worker_caughtUp_cleanedUp :
    ∃ r r', (syncRunMachine Unit 1 3 .init).run startedWithSlot copiedAndCleanedUp = some r ∧
      r.next 1 3 (.pipeline (.worker .finishWorker)) = some r' ∧
      r'.observe = (.inactive, some .completed, none, some 40, 40, .syncDone 40, some 10,
        [insertTx]) ∧
      Writes 1 r'.pipeline.sync.acked 30 ⟨25, .row .insert 1 ()⟩ := by
  have hrun : ((syncRunMachine Unit 1 3 .init).run startedWithSlot copiedAndCleanedUp).bind
      (fun r => (r.next 1 3 (.pipeline (.worker .finishWorker))).map
        fun r' => (r.pipeline.handoff.sync, r'.observe))
        = some (.completing, .inactive, some .completed, none, some 40, 40, .syncDone 40, some 10,
          [insertTx]) := rfl
  obtain ⟨r, hr, hlast⟩ := Option.bind_eq_some_iff.mp hrun
  obtain ⟨r', hnext, hobserved⟩ := Option.map_eq_some_iff.mp hlast
  obtain ⟨hsync, hobserve⟩ := Prod.mk.inj hobserved
  obtain ⟨-, hresult, -, -, hhandback, -, hsnapshot, htxs⟩ : _ ∧ _ ∧ _ ∧ _ ∧ _ ∧ _ ∧ _ ∧ _ := by
    simpa only [SyncRun.observe, Prod.mk.injEq] using hobserve
  have hreach := (reachable_startedWithSlot 3).run copiedAndCleanedUp hr
  rcases (completed_worker_caughtUp hreach hnext).1 (by simp [hsync]) hresult with
    ⟨⟨hstarting, -⟩, -⟩ | hcaught
  · simp [hsync] at hstarting
  · obtain ⟨snapshotLsn, hsnapshot', hwrites⟩ := hcaught.acked
    cases hsnapshot.symm.trans hsnapshot'
    exact ⟨r, r', hr, hnext, hobserve, hwrites insertTx (by simp [htxs]) (by decide)
      (by rw [hhandback]; decide) _ (by simp [insertTx]) rfl⟩

/-- The idle hook of the apply worker has listed the table while its first worker still ran. That
worker fails for good, and the hook starts another one that finds the error and returns. -/
def listedAndFailed : List (PipelineInput Unit) :=
  [.enterHook, .worker (.processTable true), .apply (.idle none),
    .apply (usersMessage false (.primaryKeepAlive 10 false)), .enterHook,
    .worker .startTableSync, .worker (.failWorker false),
    .worker (.handleError .noRetry true true), .worker (.processTable true),
    .worker .startTableSync]

theorem completed_worker_errored :
    ∃ r, (syncRunMachine Unit 1 3 .init).run startedWithSlot (listedAndFailed.map .pipeline)
        = some r ∧
      r.observe = (.inactive, some .completed, some 5, none, 0, .errored, none, []) :=
  Option.map_eq_some_iff.mp rfl

end Etl
