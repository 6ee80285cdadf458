import Etl.Replication.Batching
import Etl.Workers.LoopHooks

/-! # Loops that are asked to complete

The commit hook of a table-sync worker asks its loop to complete before the table is handed
back; the handback follows with the flush of that commit. Until then the loop holds the commit:
its end waits in the batch, or in the flush that is in flight, or it has just been flushed and
the flush hook is about to run. A loop that holds a commit does not return.

Reference: `etl/src/workers/table_sync.rs`.
-/

namespace Etl

open ApplyLoopState

variable {ρ : Type}

/-! ## Commits that wait to be flushed -/

/-- A commit that ends at or above the position waits in the batch or is in flight. -/
def ApplyLoopState.HoldsCommit (st : ApplyLoopState ρ) (lsn : PgLsn) : Prop :=
  (∃ endLsn, st.lastCommitEndLsn = some endLsn ∧ lsn ≤ endLsn ∧ st.eventsBatch ≠ []) ∨
    ∃ pending endLsn, st.pendingFlushResult = some pending ∧
      pending.commitEndLsn = some endLsn ∧ lsn ≤ endLsn

namespace ApplyLoopState

variable {st st' : ApplyLoopState ρ} {lsn : PgLsn}

theorem HoldsCommit.hasUnresolvedBatchWork (h : st.HoldsCommit lsn) :
    st.hasUnresolvedBatchWork = true := by
  rcases h with ⟨_, _, _, hbatch⟩ | ⟨pending, _, hpending, _, _⟩
  · simp [ApplyLoopState.hasUnresolvedBatchWork, hasPendingBatch, hbatch]
  · simp [ApplyLoopState.hasUnresolvedBatchWork, hasPendingFlushResult, hpending]

theorem HoldsCommit.grown (h : st.HoldsCommit lsn) {added : List (Event ρ)}
    (hgrown : st.Grown st' added) : st'.HoldsCommit lsn := by
  rcases h with ⟨endLsn, hend, hle, hbatch⟩ | ⟨pending, endLsn, hpending, hend, hle⟩
  · obtain ⟨endLsn', hend', hle'⟩ := hgrown.commitEnd_le endLsn hend
    refine .inl ⟨endLsn', hend', le_trans hle hle', ?_⟩
    rw [hgrown.eventsBatch_eq]
    exact fun hnil => hbatch (List.append_eq_nil_iff.mp hnil).1
  · exact .inr ⟨pending, endLsn, hgrown.pending_eq.trans hpending, hend, hle⟩

theorem HoldsCommit.flushBatch (h : st.HoldsCommit lsn) {writeEvents : EtlResult Unit}
    (hflush : st.flushBatch writeEvents = .ok st') : st'.HoldsCommit lsn := by
  unfold ApplyLoopState.flushBatch at hflush
  split_ifs at hflush with hbatch hpending
  · cases hflush
    exact h
  · cases hflush
    exact h
  · cases writeEvents with
    | error error => cases hflush
    | ok _ =>
      cases hflush
      rcases h with ⟨endLsn, hend, hle, -⟩ | ⟨pending, _, hsome, _, _⟩
      · exact .inr ⟨_, endLsn, rfl, hend, hle⟩
      · simp [hasPendingFlushResult, hsome] at hpending

theorem holdsCommit_collect (st : ApplyLoopState ρ) {result : HandleMessageResult ρ}
    {event : Event ρ} {endLsn : PgLsn} (hevent : result.event = some event)
    (hend : result.endLsn = some endLsn) (hle : lsn ≤ endLsn) (sizeHint : ℕ) :
    (st.collect result sizeHint).HoldsCommit lsn := by
  obtain ⟨c, hcommitEnd, hc, -⟩ :=
    (st.addEventToBatch event sizeHint).updateLastCommitEndLsn_le endLsn
  unfold collect
  simp only [hevent, hend, hcommitEnd]
  refine .inl ⟨c, rfl, le_trans hle hc, ?_⟩
  simp [setFlushDeadlineIfNeeded, addEventToBatch]

end ApplyLoopState

namespace Session

variable {s s' : Session ρ} {input : LoopInput ρ} {lsn : PgLsn} {st : ApplyLoopState ρ}

/-- The loop holds such a commit, or has just flushed it. -/
def HoldsCommit (s : Session ρ) (lsn : PgLsn) : Prop :=
  s.state.HoldsCommit lsn ∨
    (∃ paused, s.point = .inFlush paused) ∧ lsn ≤ s.state.replicationProgress.lastFlushLsn

/-! ## Steps -/

/-- The result of a flush with a commit leads to the flush hook, unless the loop fails. -/
theorem inFlush_of_next {pending : PendingFlush ρ} {endLsn : PgLsn}
    {result upsert writeEvents : EtlResult Unit}
    (hpending : s.state.pendingFlushResult = some pending)
    (hend : pending.commitEndLsn = some endLsn)
    (hnext : s.next (.flushResult result upsert writeEvents) = some s') :
    s'.point.isFailed = true ∨
      (∃ paused, s'.point = .inFlush paused) ∧
        endLsn ≤ s'.state.replicationProgress.lastFlushLsn := by
  cases loopStep_of_next hnext with
  | quiet _ _ _ hquiet _ _ _ => cases hquiet
  | flushFailed acked error _ _ _ => exact .inl rfl
  | acknowledged _ hpending' hnone =>
    cases hpending.symm.trans hpending'
    rw [hnone] at hend
    cases hend
  | persisted _ hpending' hend' =>
    cases hpending.symm.trans hpending'
    simp only [handleFlushResult, hend]
    refine .inr ⟨⟨_, rfl⟩, ?_⟩
    simp only [ReplicationProgress.updateLastFlushLsn_lastFlushLsn]
    exact le_trans (le_max_right _ _) (le_max_right _ _)

/-- A commit is held until its flush hook runs. -/
theorem HoldsCommit.next (h : s.HoldsCommit lsn)
    (hinFlush : ∀ paused, s.point = .inFlush paused → s.state.pendingFlushResult = none)
    (hbelow : ∀ lsn', s.dueHook = some (.afterFlush, lsn') → lsn' < lsn)
    (hnext : s.next input = some s') (hrun : s'.point.isFailed = false) : s'.HoldsCommit lsn := by
  have hstate : s.state.HoldsCommit lsn := by
    rcases h with hstate | ⟨⟨paused, hpoint⟩, hle⟩
    · exact hstate
    · have hlt := hbelow s.state.replicationProgress.lastFlushLsn (by simp [dueHook, hpoint])
      exact absurd hle (not_le.mpr hlt)
  -- the result of the flush that carries the commit
  by_cases hresult : input.isFlushResult = true ∧ ∃ pending endLsn,
      s.state.pendingFlushResult = some pending ∧ pending.commitEndLsn = some endLsn ∧
        lsn ≤ endLsn
  · obtain ⟨hinput, pending, endLsn, hpending, hend, hle⟩ := hresult
    cases input with
    | flushResult result upsert writeEvents =>
      rcases inFlush_of_next hpending hend hnext with hfailed | ⟨hpoint, hflushed⟩
      · rw [hfailed] at hrun
        cases hrun
      · exact .inr ⟨hpoint, le_trans hle hflushed⟩
    | _ => cases hinput
  -- otherwise the commit is still there once a result is taken off
  have hresolve : (s.resolve input).HoldsCommit lsn := by
    unfold resolve
    split_ifs with hinput
    · rcases hstate with hbatch | ⟨pending, endLsn, hpending, hend, hle⟩
      · exact .inl hbatch
      · exact absurd ⟨hinput, pending, endLsn, hpending, hend, hle⟩ hresult
    · exact hstate
  cases batchStep_of_next hinFlush hnext with
  | kept added hcall hproduced hgrown hfinished hpoint => exact .inl (hresolve.grown hgrown)
  | called call added hcall hproduced hgrown hdue houtcome =>
    rcases houtcome with hfailed | ⟨-, hflush⟩
    · rw [hfailed] at hrun
      cases hrun
    · exact .inl ((hresolve.grown hgrown).flushBatch hflush)

theorem holdsCommit_of_commitHook {startLsn commitLsn endLsn : PgLsn}
    (hpoint : s.point = .inCommit startLsn commitLsn endLsn) (hle : lsn ≤ endLsn)
    {answer : Option ExitIntent} (hanswer : input.hookAnswer? = some answer)
    (hnext : s.next input = some s') (hrun : s'.point.isFailed = false) : s'.HoldsCommit lsn := by
  cases loopStep_of_next hnext with
  | quiet _ _ _ _ hrests _ _ =>
    rw [hpoint] at hrests
    cases hrests
  | @commitEnded _ _ _ _ sizeHint batchSizeBytes writeEvents hpoint' =>
    obtain ⟨rfl, rfl, rfl⟩ := LoopPoint.inCommit.inj (hpoint.symm.trans hpoint')
    rcases s.takeResult_cases _ _ sizeHint batchSizeBytes writeEvents with
      ⟨error, heq⟩ | ⟨state, hcollect, heq⟩
    · rw [heq] at hrun
      cases hrun
    · rw [heq]
      rcases collectAndFlush_cases hcollect with rfl | hflush
      · exact .inl (holdsCommit_collect _ rfl rfl hle sizeHint)
      · exact .inl ((holdsCommit_collect _ rfl rfl hle sizeHint).flushBatch hflush)
  | flushHook hpoint' => cases hpoint.symm.trans hpoint'
  | _ => cases hanswer

/-! ## Exits -/

/-- Whoever asks a loop to complete asked it before, or is the hook that runs. -/
theorem complete_of_recordExitIntent {exitIntent : Option ExitIntent}
    (h : (st.recordExitIntent exitIntent).exitIntent = some .complete) :
    st.exitIntent = some .complete ∨ exitIntent = some .complete := by
  unfold recordExitIntent at h
  cases exitIntent with
  | none => exact .inl h
  | some exitIntent =>
    cases exitIntent with
    | complete => exact .inr rfl
    | pause =>
      cases hold : st.exitIntent with
      | none => simp [hold] at h
      | some old =>
        cases old with
        | complete => exact .inl rfl
        | pause => simp [hold, ExitIntent.merge] at h

theorem exitIntent_takeResult (s : Session ρ) {state : ApplyLoopState ρ}
    {result : HandleMessageResult ρ} {sizeHint batchSizeBytes : ℕ} {writeEvents : EtlResult Unit}
    (hrun : (s.takeResult state result sizeHint batchSizeBytes
      writeEvents).point.isFailed = false) :
    (s.takeResult state result sizeHint batchSizeBytes writeEvents).state.exitIntent
      = state.exitIntent := by
  rcases s.takeResult_cases state result sizeHint batchSizeBytes writeEvents with
    ⟨error, heq⟩ | ⟨state', hcollect, heq⟩
  · rw [heq] at hrun
    cases hrun
  · rw [heq]
    exact (collectAndFlush_frame hcollect).2.2.1

theorem exitIntent_retryQueuedFlush (s : Session ρ) (due : Bool) (writeEvents : EtlResult Unit) :
    (s.retryQueuedFlush due writeEvents).state.exitIntent = s.state.exitIntent := by
  rcases s.retryQueuedFlush_cases due writeEvents with ⟨error, heq⟩ | ⟨state, rfl | hflush, heq⟩
  · rw [heq]
  · rw [heq]
  · obtain ⟨_, _, _, _, _, _, rfl⟩ := flushBatch_eq hflush
    rw [heq]

/-- The idle hook is the hook that is due at rest. -/
theorem dueHook_of_runsIdleHook (h : s.runsIdleHook = true) : s.dueHook.isSome = true := by
  unfold runsIdleHook at h
  unfold dueHook idleHook
  cases hpoint : s.point <;> simp_all

/-- A loop that is asked to complete was asked before, or by the hook that runs. -/
theorem complete_of_next (hnext : s.next input = some s') (hrun : s'.point.isFailed = false)
    (hexit : s'.state.exitIntent = some .complete) :
    s.state.exitIntent = some .complete ∨
      s.dueHook.isSome = true ∧ input.hookAnswer? = some (some .complete) := by
  cases loopStep_of_next hnext with
  | quiet reported shutdownState point hquiet _ _ _ =>
    obtain ⟨_, _, _, heq, rfl, -⟩ := s.rest_eq input reported shutdownState point
    rw [heq] at hexit
    rcases complete_of_recordExitIntent hexit with hold | hasked
    · exact .inl hold
    · cases input with
      | idle exitIntent =>
        unfold asked at hasked
        split_ifs at hasked with hruns
        exact .inr ⟨dueHook_of_runsIdleHook hruns, congrArg some hasked⟩
      | _ => simp [asked] at hasked
  | fail error => cases hrun
  | keepAlive sender _ _ => exact .inl ((exitIntent_takeResult _ hrun).symm.trans hexit)
  | refused sender error _ _ _ => cases hrun
  | handled sender state result _ hdata _ hhandle =>
    obtain ⟨_, _, rfl⟩ := handleLogicalReplicationMessage_eq hdata hhandle
    exact .inl ((exitIntent_takeResult _ hrun).symm.trans hexit)
  | commitBegun sender _ _ _ => exact .inl hexit
  | commitEnded hpoint =>
    rcases complete_of_recordExitIntent ((exitIntent_takeResult s hrun).symm.trans hexit) with
      hold | rfl
    · exact .inl hold
    · exact .inr ⟨by simp [dueHook, hpoint], rfl⟩
  | flushFailed acked error _ _ _ => cases hrun
  | acknowledged _ _ _ =>
    exact .inl ((exitIntent_retryQueuedFlush (s.acknowledge _) _ _).symm.trans hexit)
  | persisted _ _ hcommit =>
    simp only [handleFlushResult, hcommit] at hexit
    exact .inl hexit
  | flushHook hpoint =>
    rcases complete_of_recordExitIntent ((exitIntent_retryQueuedFlush _ _ _).symm.trans hexit) with
      hold | rfl
    · exact .inl hold
    · exact .inr ⟨by simp [dueHook, hpoint], rfl⟩
  | flushDeadline _ _ => exact .inl ((exitIntent_retryQueuedFlush s _ _).symm.trans hexit)

/-! ## Returning -/

theorem point_takeResult (s : Session ρ) (state : ApplyLoopState ρ)
    (result : HandleMessageResult ρ) (sizeHint batchSizeBytes : ℕ) (writeEvents : EtlResult Unit)
    (r : ApplyLoopResult) :
    (s.takeResult state result sizeHint batchSizeBytes writeEvents).point ≠ .finished r := by
  rcases s.takeResult_cases state result sizeHint batchSizeBytes writeEvents with
    ⟨error, heq⟩ | ⟨state', -, heq⟩ <;> simp [heq]

theorem point_retryQueuedFlush (s : Session ρ) (due : Bool) (writeEvents : EtlResult Unit)
    (r : ApplyLoopResult) : (s.retryQueuedFlush due writeEvents).point ≠ .finished r := by
  rcases s.retryQueuedFlush_cases due writeEvents with ⟨error, heq⟩ | ⟨state, -, heq⟩ <;>
    simp [heq]

theorem complete_of_exitResult (h : st.exitResult.getD .paused = .completed) :
    st.exitIntent = some .complete := by
  cases hexit : st.exitIntent with
  | none => simp [exitResult, hexit] at h
  | some exitIntent =>
    cases exitIntent with
    | complete => rfl
    | pause => simp [exitResult, hexit, ExitIntent.toResult] at h

/-- A loop that returns as completed was asked to complete. -/
theorem complete_of_finished (hnext : s.next input = some s')
    (hpoint : s'.point = .finished .completed) : s'.state.exitIntent = some .complete := by
  cases loopStep_of_next hnext with
  | quiet reported shutdownState point _ _ _ hfinished =>
    obtain ⟨_, _, _, heq, rfl, -⟩ := s.rest_eq input reported shutdownState point
    rw [heq] at hpoint ⊢
    exact complete_of_exitResult (hfinished _ hpoint).2
  | keepAlive | handled | commitEnded => exact absurd hpoint (point_takeResult _ _ _ _ _ _ _)
  | acknowledged | flushHook | flushDeadline => exact absurd hpoint (point_retryQueuedFlush _ _ _ _)
  | persisted _ _ hcommit => simp [handleFlushResult, hcommit] at hpoint
  | _ => cases hpoint

/-- A loop that holds a commit does not return. -/
theorem HoldsCommit.not_finished (h : s'.HoldsCommit lsn)
    (hinFlush : ∀ paused, s.point = .inFlush paused → s.state.pendingFlushResult = none)
    (hnext : s.next input = some s') (r : ApplyLoopResult) : s'.point ≠ .finished r := by
  intro hpoint
  have hstate : s'.state.HoldsCommit lsn := by
    rcases h with hstate | ⟨⟨paused, hinFlush⟩, -⟩
    · exact hstate
    · rw [hpoint] at hinFlush
      cases hinFlush
  cases batchStep_of_next hinFlush hnext with
  | kept added hcall hproduced hgrown hfinished _ =>
    rw [hstate.hasUnresolvedBatchWork] at hfinished
    cases hfinished r hpoint
  | called call added hcall hproduced hgrown hdue houtcome =>
    rcases houtcome with hfailed | ⟨hepilogue, -⟩
    · rw [hpoint] at hfailed
      cases hfailed
    · rw [hpoint] at hepilogue
      cases hepilogue

end Session

end Etl
