import Etl.Workers.Handoff

/-! # What a step of the handoff can do

The step function read backwards, once for all invariants. A hook that processes the table does
one of five things, whether it goes by the phase of an active worker or by the one it listed.

Reference: `etl/src/workers/table_sync.rs`.
-/

namespace Etl

namespace Handoff

variable {h h' : Handoff} {maxAttempts : ℕ} {input : HandoffInput}

/-- The steps, with what they find. -/
inductive Step (maxAttempts : ℕ) (h : Handoff) : HandoffInput → Handoff → Prop
  | startTableSync : h.sync = .starting → Step maxAttempts h .startTableSync h.startTableSync
  | prepareCopy (stored : Bool) : h.sync = .preparing →
      Step maxAttempts h (.prepareCopy stored) (h.prepareCopy stored)
  | finishCopy (snapshotLsn : PgLsn) (stored : Bool) : h.sync = .copying →
      Step maxAttempts h (.finishCopy snapshotLsn stored) (h.finishCopy snapshotLsn stored)
  | announceSyncWait (snapshotLsn : PgLsn) : h.sync = .copied snapshotLsn →
      Step maxAttempts h .announceSyncWait (h.announceSyncWait snapshotLsn)
  | observeCatchup (snapshotLsn : PgLsn) : h.sync = .waiting snapshotLsn →
      h.worker.phase.asType = .catchup →
      Step maxAttempts h .observeCatchup { h with sync := .catchingUp snapshotLsn }
  | tryCompleteCatchup (snapshotLsn currentLsn : PgLsn) (stored : Bool) :
      h.sync = .catchingUp snapshotLsn →
      Step maxAttempts h (.tryCompleteCatchup currentLsn stored)
        (h.tryCompleteCatchup currentLsn stored)
  | finishWorker : h.sync.canStop = true → Step maxAttempts h .finishWorker h.finish
  | failWorker (unwound : Bool) : h.sync.canFail = true →
      Step maxAttempts h (.failWorker unwound) { h with sync := .failing unwound }
  | handleError (unwound : Bool) (directive : RetryDirective) (stored due : Bool) :
      h.sync = .failing unwound →
      Step maxAttempts h (.handleError directive stored due)
        (h.handleTableSyncWorkerError maxAttempts unwound directive stored due)
  | rollback (unwound restored : Bool) :
      h.sync = .erroredLocked unwound ∨ h.sync = .sleeping unwound →
      Step maxAttempts h (.rollback restored) (h.rollback unwound restored)
  | shutdownRetry (unwound : Bool) : h.sync = .sleeping unwound →
      Step maxAttempts h .shutdownRetry h.finish
  | enterHook (kind : HookKind) (currentLsn : PgLsn) : h.apply = .running →
      Step maxAttempts h (.enterHook kind currentLsn) (h.enterHook kind currentLsn)
  /-- A hook tells a worker that waits to catch up, and waits for it. -/
  | setCatchup (kind : HookKind) (currentLsn snapshotLsn : PgLsn)
      (listed : TableReplicationPhase) (succeeds : Bool) :
      h.apply = .inHook kind currentLsn listed → h.sync ≠ .inactive → kind ≠ .afterFlush →
      h.worker.phase = .syncWait snapshotLsn →
      Step maxAttempts h (.processTable succeeds)
        { h.setAndStore (.catchup (max snapshotLsn currentLsn)) true with apply := .waiting }
  /-- It waits for a worker that catches up. -/
  | awaitCatchup (lsn : PgLsn) (succeeds : Bool) : h.worker.phase = .catchup lsn →
      Step maxAttempts h (.processTable succeeds) { h with apply := .waiting }
  /-- It has passed the handback, as it was listed or as an active worker has it. -/
  | storeReady (kind : HookKind) (currentLsn lsn : PgLsn) (listed : TableReplicationPhase)
      (succeeds : Bool) :
      h.apply = .inHook kind currentLsn listed → kind ≠ .afterCommit → lsn ≤ currentLsn →
      h.sync ≠ .inactive ∧ h.worker.phase = .syncDone lsn ∨
        h.sync = .inactive ∧ listed = .syncDone lsn →
      Step maxAttempts h (.processTable succeeds) (h.storeReady succeeds)
  | spawnIntoPool (succeeds : Bool) : h.sync = .inactive →
      Step maxAttempts h (.processTable succeeds) (h.spawnIntoPool succeeds)
  /-- It leaves the table alone, which it does not with a worker that catches up, unless it runs
  after a flush. -/
  | passTable (kind : HookKind) (currentLsn : PgLsn) (listed : TableReplicationPhase)
      (succeeds : Bool) : h.apply = .inHook kind currentLsn listed →
      (∀ lsn, h.sync ≠ .inactive → h.worker.phase = .catchup lsn → kind = .afterFlush) →
      Step maxAttempts h (.processTable succeeds) { h with apply := .running }
  | observeHandback : h.worker.phase.asType = .syncDone ∨ h.worker.phase.asType = .errored →
      Step maxAttempts h .observeHandback { h with apply := .running }
  | shutdownWait : Step maxAttempts h .shutdownWait { h with apply := .running }
  | leaveHook : Step maxAttempts h .leaveHook { h with apply := .running }
  | failApply : Step maxAttempts h .failApply { h with apply := .down }
  | restartApply : Step maxAttempts h .restartApply { h with apply := .running }
  | resetTable : Step maxAttempts h .resetTable
      { h with store := h.store.updateTableReplicationState .init }
  | crash : Step maxAttempts h .crash { h with sync := .inactive, apply := .down }

/-- What a hook does with the table. -/
theorem step_processTable {kind : HookKind} {currentLsn : PgLsn} {listed : TableReplicationPhase}
    (happly : h.apply = .inHook kind currentLsn listed) (succeeds : Bool) :
    Step maxAttempts h (.processTable succeeds)
      (h.processSingleSyncingTable kind currentLsn listed succeeds) := by
  unfold Handoff.processSingleSyncingTable Handoff.getActiveWorkerState
  by_cases hactive : h.sync = .inactive
  · have hpass : Step maxAttempts h (.processTable succeeds) { h with apply := .running } :=
      .passTable kind currentLsn listed succeeds happly fun _ hactive' => absurd hactive hactive'
    simp only [if_pos hactive]
    unfold Handoff.processInactive
    split
    · exact hpass
    next lsn hkind =>
      split_ifs with hle
      · exact .storeReady kind currentLsn lsn _ succeeds happly hkind hle (.inr ⟨hactive, rfl⟩)
      · exact hpass
    · exact .spawnIntoPool succeeds hactive
  · have hready : ∀ lsn, kind ≠ .afterCommit → h.worker.phase = .syncDone lsn →
        Step maxAttempts h (.processTable succeeds)
          (if lsn ≤ currentLsn then h.storeReady succeeds else { h with apply := .running }) := by
      intro lsn hkind hphase
      split_ifs with hle
      · exact .storeReady kind currentLsn lsn listed succeeds happly hkind hle
          (.inl ⟨hactive, hphase⟩)
      · exact .passTable kind currentLsn listed succeeds happly (by simp [hphase])
    simp only [if_neg hactive]
    unfold Handoff.processActive
    split
    next hphase => exact .setCatchup _ _ _ listed succeeds happly hactive (by simp) hphase
    next hphase => exact .setCatchup _ _ _ listed succeeds happly hactive (by simp) hphase
    next hphase => exact .awaitCatchup _ succeeds hphase
    next hphase => exact .awaitCatchup _ succeeds hphase
    next lsn hphase => exact hready lsn (by simp) hphase
    next lsn hphase => exact hready lsn (by simp) hphase
    next kind _ _ _ _ hcommit hidle _ _ =>
      refine .passTable kind currentLsn listed succeeds happly fun lsn _ hphase => ?_
      cases kind with
      | afterFlush => rfl
      | afterCommit => exact (hcommit lsn rfl hphase).elim
      | whenIdle => exact (hidle lsn rfl hphase).elim

theorem step_of_next (hnext : h.next maxAttempts input = some h') :
    Step maxAttempts h input h' := by
  unfold Handoff.next at hnext
  split at hnext <;> try split_ifs at hnext
  all_goals cases hnext
  next hsync => exact .startTableSync hsync
  next hsync => exact .prepareCopy _ hsync
  next hsync => exact .finishCopy _ _ hsync
  next hsync => exact .announceSyncWait _ hsync
  next hsync htype => exact .observeCatchup _ hsync htype
  next hsync => exact .tryCompleteCatchup _ _ _ hsync
  next hstop => exact .finishWorker hstop
  next hfail => exact .failWorker _ hfail
  next hsync => exact .handleError _ _ _ _ hsync
  next hsync => exact .rollback _ _ (.inl hsync)
  next hsync => exact .rollback _ _ (.inr hsync)
  next hsync => exact .shutdownRetry _ hsync
  next happly => exact .enterHook _ _ happly
  next happly _ => exact step_processTable happly _
  next hphase => exact .observeHandback hphase.2
  · exact .shutdownWait
  · exact .leaveHook
  · exact .failApply
  · exact .restartApply
  · exact .resetTable
  · exact .crash

end Handoff

end Etl
