import Etl.Workers.HandoffPhases

/-! # The rollback of a retry

A worker that retries has stored `Errored` over the phase its table had, and takes it off again
when the wait is over. The rollback restores whatever lies below the current phase: that is
`Errored` itself if the recovery of an invalidated slot has reset the table in the meantime, or if
the error was recorded for a table that was stored as `Errored` already.

Reference: `etl/src/workers/table_sync.rs` (`handle_table_sync_worker_error`).
-/

namespace Etl

/-- No table is reset while its worker waits to retry, and no error is recorded over another. -/
def Handoff.KeepsRetry (h : Handoff) (input : HandoffInput) : Prop :=
  match input with
  | .resetTable => h.sync.isRetrying = false
  | .handleError _ _ _ => h.store.current ≠ .errored
  | _ => True

instance (h : Handoff) (input : HandoffInput) : Decidable (h.KeepsRetry input) := by
  unfold Handoff.KeepsRetry
  split <;> infer_instance

/-- While the worker waits to retry, a phase that is no error lies below the current one. -/
structure Handoff.Retries (h : Handoff) : Prop extends h.Consistent where
  below : h.sync.isRetrying = true →
    ∃ previous, h.store.history.head? = some previous ∧ previous ≠ .errored

namespace Handoff

variable {h h' : Handoff} {maxAttempts : ℕ}

theorem Consistent.phase_of_isRetrying (hc : h.Consistent) (hsync : h.sync.isRetrying = true) :
    h.worker.phase = .errored := by
  have hagrees := hc.agrees
  cases hpoint : h.sync with
  | erroredLocked unwound | sleeping unwound => simpa [hpoint, SyncPoint.Agrees] using hagrees
  | _ => simp [hpoint, SyncPoint.isRetrying] at hsync

theorem Retries.next (hr : h.Retries) {input : HandoffInput} (hguard : h.KeepsRetry input)
    (hnext : h.next maxAttempts input = some h') : h'.Retries := by
  refine ⟨hr.toConsistent.next hnext, fun hsync => ?_⟩
  cases step_of_next hnext with
  | startTableSync =>
    unfold Handoff.startTableSync at hsync
    split at hsync <;> cases hsync
  | prepareCopy stored | finishCopy _ stored => cases stored <;> cases hsync
  | announceSyncWait | observeCatchup | finishWorker | failWorker | shutdownRetry | crash =>
    cases hsync
  | tryCompleteCatchup snapshotLsn currentLsn stored hpoint =>
    have hlooping : h.sync.isRetrying = false := by rw [hpoint]; rfl
    unfold Handoff.tryCompleteCatchup at hsync
    split at hsync
    next catchupLsn _ =>
      by_cases hreached : catchupLsn ≤ currentLsn
      · rw [if_pos hreached] at hsync
        cases stored <;> cases hsync
      · rw [if_neg hreached, hlooping] at hsync
        cases hsync
    · rw [hlooping] at hsync
      cases hsync
  | handleError unwound directive stored due =>
    -- the error is stored over what the table had
    cases stored with
    | false => cases hsync
    | true =>
      refine ⟨h.store.current, ?_, hguard⟩
      unfold Handoff.handleTableSyncWorkerError
      simp only
      split_ifs <;> rfl
  | rollback unwound restored =>
    unfold Handoff.rollback at hsync
    simp only at hsync
    split at hsync
    · split_ifs at hsync <;> cases hsync
    · cases hsync
  | enterHook =>
    unfold Handoff.enterHook at hsync ⊢
    split_ifs at hsync ⊢ <;> exact hr.below hsync
  | setCatchup | awaitCatchup | passTable | observeHandback | shutdownWait | leaveHook | failApply
  | restartApply => exact hr.below hsync
  | storeReady kind currentLsn lsn listed succeeds _ _ _ hphase =>
    have hpoint : (h.storeReady succeeds).sync = h.sync := by cases succeeds <;> rfl
    rw [hpoint] at hsync
    rcases hphase with ⟨-, hphase⟩ | ⟨hinactive, -⟩
    · simp [hr.toConsistent.phase_of_isRetrying hsync] at hphase
    · simp [hinactive, SyncPoint.isRetrying] at hsync
  | spawnIntoPool succeeds hinactive =>
    cases succeeds with
    | true => cases hsync
    | false => simp [Handoff.spawnIntoPool, hinactive, SyncPoint.isRetrying] at hsync
  | resetTable => cases (show h.sync.isRetrying = false from hguard).symm.trans hsync

end Handoff

/-- If no table is reset while its worker waits to retry and no error is recorded over another, then
whatever fails and however the workers interleave, a rollback leaves memory and store with one
phase, the one that was stored before the error, and it is not `Errored`. -/
theorem rollback_restores_phase {maxAttempts : ℕ} {h h' : Handoff}
    (hh : (handoffMachine maxAttempts).ReachableUnder Handoff.KeepsRetry h)
    (hnext : h.next maxAttempts (.rollback true) = some h') :
    h'.worker.phase = h'.store.current ∧ h'.store.current ≠ .errored ∧
      h.store.history.head? = some h'.store.current := by
  have hr : h.Retries := by
    refine hh.invariant ?_ fun h input h' hr hguard hnext => hr.next hguard hnext
    intro h hinit
    refine ⟨Handoff.consistent_init hinit, fun hsync => ?_⟩
    obtain ⟨phase, history, log, -, rfl⟩ := hinit
    cases hsync
  cases Handoff.step_of_next hnext with
  | rollback unwound restored hsync =>
    obtain ⟨previous, hprevious, hne⟩ := hr.below (by rcases hsync with h | h <;> rw [h] <;> rfl)
    obtain ⟨history, hhistory⟩ := List.head?_eq_some_iff.mp hprevious
    simp only [Handoff.rollback, PhaseStore.rollbackTableReplicationState, hhistory]
    exact ⟨rfl, hne, rfl⟩

/-- A worker fails in the copy and retries. -/
def failedInCopy : List HandoffInput :=
  [.restartApply, .enterHook .whenIdle 5, .processTable true, .startTableSync, .prepareCopy true,
    .failWorker false, .handleError .timed true false]

theorem rollback_restores_phase_copy :
    ∃ h h', ((handoffMachine 3).restrict Handoff.KeepsRetry).run (startedWith .init) failedInCopy
        = some h ∧ h.next 3 (.rollback true) = some h' ∧
      h'.worker.phase = h'.store.current ∧ h'.store.current ≠ .errored ∧
        h.store.history.head? = some h'.store.current := by
  refine ⟨_, _, rfl, rfl, ?_⟩
  have hstart : (handoffMachine 3).ReachableUnder Handoff.KeepsRetry (startedWith .init) :=
    .init ⟨.init, [], [], by decide, rfl⟩
  exact rollback_restores_phase (hstart.run failedInCopy rfl) rfl

/-- The slot is recovered while the worker sleeps. Its rollback takes off the reset, and restores
the error. -/
theorem rollback_of_reset :
    ∃ h, (handoffMachine 3).run (startedWith .init)
        (failedInCopy ++ [.failApply, .resetTable, .rollback true]) = some h ∧
      h.sync = .starting ∧ h.worker.phase = .errored ∧ h.store.current = .errored :=
  ⟨_, rfl, rfl, rfl, rfl⟩

end Etl
