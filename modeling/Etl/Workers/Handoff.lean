import Etl.Common.Transition
import Etl.Workers.Phase

/-! # The handoff between a table-sync worker and the apply worker

The two workers coordinate over one table through the phase they share in memory, guarded
by a lock, and the phase in the store. This file models every reader and writer of those two
phases: the table-sync worker's run with its error handling and retries, the hooks of the
apply worker, and its recovery. Positions are inputs; what the workers stream is not modelled
here.

A worker's critical section is one step unless the source releases the lock inside it or may
keep it across a wait. Store writes can fail, and then the store is unchanged.

Reference: `etl/src/replication/apply.rs` (`process_syncing_tables_after_flush`) and
`etl/src/workers/table_sync.rs`.
-/

namespace Etl

/-- How an error is retried. -/
inductive RetryDirective where
  | timed
  | manual
  | noRetry
  deriving DecidableEq, Repr

/-- What became of the store write that belongs to the phase in memory. -/
inductive PhaseWrite where
  | inMemoryOnly
  | stored (index : ℕ)
  | failed
  deriving DecidableEq, Repr

/-- The state a table-sync worker shares with the apply worker. The last field is history. -/
structure TableSyncWorkerState where
  phase : TableReplicationPhase
  retryAttempts : ℕ
  lastWrite : PhaseWrite
  deriving DecidableEq

/-- Where the table-sync worker is. In `waiting` it is blocked until it is told to catch up;
in `erroredLocked` it holds the lock while it prepares a retry. An unwound worker has
panicked and does not loop back. -/
inductive SyncPoint where
  | inactive
  | starting
  | preparing
  | copying
  | copied (snapshotLsn : PgLsn)
  | waiting (snapshotLsn : PgLsn)
  | catchingUp (snapshotLsn : PgLsn)
  | completing
  | failing (unwound : Bool)
  | erroredLocked (unwound : Bool)
  | sleeping (unwound : Bool)
  deriving DecidableEq

/-- Whether the worker can run into an error or panic there. -/
def SyncPoint.canFail : SyncPoint → Bool
  | .inactive | .failing _ | .erroredLocked _ | .sleeping _ => false
  | _ => true

/-- Whether a shutdown can end the worker there, or the worker has completed. -/
def SyncPoint.canStop : SyncPoint → Bool
  | .starting | .copying | .waiting _ | .catchingUp _ | .completing => true
  | _ => false

/-- Whether the worker waits to retry, and rolls the stored phase back after that. -/
def SyncPoint.isRetrying : SyncPoint → Bool
  | .erroredLocked _ | .sleeping _ => true
  | _ => false

/-- The hooks of the apply worker. -/
inductive HookKind where
  | afterCommit
  | afterFlush
  | whenIdle
  deriving DecidableEq, Repr

/-- Where the apply worker is with respect to the table. A hook works on the phase it listed
when it started. In `waiting` it is blocked until the table is handed back. -/
inductive ApplyPoint where
  | running
  | inHook (kind : HookKind) (currentLsn : PgLsn) (listed : TableReplicationPhase)
  | waiting
  | down
  deriving DecidableEq

/-- The shared and the stored phase of a table with the points of both workers. -/
structure Handoff where
  store : PhaseStore
  worker : TableSyncWorkerState
  sync : SyncPoint
  apply : ApplyPoint

namespace Handoff

def lockFree (h : Handoff) : Bool :=
  match h.sync with
  | .erroredLocked _ => false
  | _ => true

/-- The shared state of a worker that is still running. -/
def getActiveWorkerState (h : Handoff) : Option TableSyncWorkerState :=
  if h.sync = .inactive then none else some h.worker

/-- Sets the phase in memory first and then stores it, if phases of its type are stored. -/
def setAndStore (h : Handoff) (phase : TableReplicationPhase) (stored : Bool) : Handoff :=
  if !phase.asType.shouldStore then
    { h with worker := { h.worker with phase, lastWrite := .inMemoryOnly } }
  else if stored then
    { h with
      store := h.store.updateTableReplicationState phase
      worker := { h.worker with phase, lastWrite := .stored h.store.log.length } }
  else { h with worker := { h.worker with phase, lastWrite := .failed } }

/-- Stores `Ready`, or fails the apply worker. -/
def storeReady (h : Handoff) (stored : Bool) : Handoff :=
  if stored then
    { h with store := h.store.updateTableReplicationState .ready, apply := .running }
  else { h with apply := .down }

/-- Starts a worker with the stored phase, unless the phase cannot be read. -/
def spawnIntoPool (h : Handoff) (loaded : Bool) : Handoff :=
  if loaded then
    { h with
      worker := ⟨h.store.current, 0, .stored (h.store.log.length - 1)⟩
      sync := .starting
      apply := .running }
  else { h with apply := .running }

/-- Ends the worker. -/
def finish (h : Handoff) : Handoff :=
  { h with worker := { h.worker with retryAttempts := 0 }, sync := .inactive }

/-! ## The table-sync worker -/

/-- Checks whether the table needs a copy. -/
def startTableSync (h : Handoff) : Handoff :=
  match h.worker.phase.asType with
  | .syncDone | .ready | .errored => h.finish
  | .init | .dataSync | .finishedCopy => { h with sync := .preparing }
  | _ => { h with sync := .failing false }

/-- Records that the copy begins. -/
def prepareCopy (h : Handoff) (stored : Bool) : Handoff :=
  { h.setAndStore .dataSync stored with sync := if stored then .copying else .failing false }

/-- Records that the copy of a snapshot is complete. -/
def finishCopy (h : Handoff) (snapshotLsn : PgLsn) (stored : Bool) : Handoff :=
  { h.setAndStore .finishedCopy stored with
    sync := if stored then .copied snapshotLsn else .failing false }

/-- Tells the apply worker that catch-up may start. -/
def announceSyncWait (h : Handoff) (snapshotLsn : PgLsn) : Handoff :=
  { h.setAndStore (.syncWait snapshotLsn) true with sync := .waiting snapshotLsn }

/-- Hands the table back if catch-up has reached its target. -/
def tryCompleteCatchup (h : Handoff) (currentLsn : PgLsn) (stored : Bool) : Handoff :=
  match h.worker.phase with
  | .catchup catchupLsn =>
    if catchupLsn ≤ currentLsn then
      { h.setAndStore (.syncDone currentLsn) stored with
        sync := if stored then .completing else .failing false }
    else h
  | _ => h

/-- Records an error and decides how to go on: a timed retry either keeps the lock, if it is
already due, or sleeps without it. -/
def handleTableSyncWorkerError (h : Handoff) (maxAttempts : ℕ) (unwound : Bool)
    (directive : RetryDirective) (stored due : Bool) : Handoff :=
  let retryTimed := directive = .timed && h.worker.retryAttempts < maxAttempts
  let h := h.setAndStore .errored stored
  if !stored then { h with sync := .inactive }
  else if !retryTimed then h.finish
  else if due then { h with sync := .erroredLocked unwound }
  else { h with sync := .sleeping unwound }

/-- Rolls the store and then the memory back and runs the worker again, or ends it. -/
def rollback (h : Handoff) (unwound restored : Bool) : Handoff :=
  let h := { h with worker := { h.worker with retryAttempts := h.worker.retryAttempts + 1 } }
  match h.store.rollbackTableReplicationState with
  | some store =>
    if restored then
      { h with
        store
        worker := { h.worker with phase := store.current, lastWrite := .stored h.store.log.length }
        sync := if unwound then .inactive else .starting }
    else { h with sync := .inactive }
  | none => { h with sync := .inactive }

/-! ## The hooks of the apply worker -/

/-- A hook lists the tables that are not done. -/
def enterHook (h : Handoff) (kind : HookKind) (currentLsn : PgLsn) : Handoff :=
  if h.store.current.asType.isDone then h
  else { h with apply := .inHook kind currentLsn h.store.current }

/-- A hook finds an active worker. -/
def processActive (h : Handoff) (kind : HookKind) (currentLsn : PgLsn) (succeeds : Bool) :
    Handoff :=
  match kind, h.worker.phase with
  | .afterCommit, .syncWait snapshotLsn | .whenIdle, .syncWait snapshotLsn =>
    { h.setAndStore (.catchup (max snapshotLsn currentLsn)) true with apply := .waiting }
  | .afterCommit, .catchup _ | .whenIdle, .catchup _ => { h with apply := .waiting }
  | .afterFlush, .syncDone lsn | .whenIdle, .syncDone lsn =>
    if lsn ≤ currentLsn then h.storeReady succeeds else { h with apply := .running }
  | _, _ => { h with apply := .running }

/-- A hook finds no active worker and goes by the listed phase. -/
def processInactive (h : Handoff) (kind : HookKind) (currentLsn : PgLsn)
    (listed : TableReplicationPhase) (succeeds : Bool) : Handoff :=
  match kind, listed with
  | .afterCommit, .syncDone _ => { h with apply := .running }
  | _, .syncDone lsn =>
    if lsn ≤ currentLsn then h.storeReady succeeds else { h with apply := .running }
  | _, _ => h.spawnIntoPool succeeds

/-- A hook processes the table. -/
def processSingleSyncingTable (h : Handoff) (kind : HookKind) (currentLsn : PgLsn)
    (listed : TableReplicationPhase) (succeeds : Bool) : Handoff :=
  match h.getActiveWorkerState with
  | some _ => h.processActive kind currentLsn succeeds
  | none => h.processInactive kind currentLsn listed succeeds

end Handoff

/-! ## The machine -/

/-- What can happen. Store outcomes, positions and whether a retry is due are part of the
event. -/
inductive HandoffInput where
  | startTableSync
  | prepareCopy (stored : Bool)
  | finishCopy (snapshotLsn : PgLsn) (stored : Bool)
  | announceSyncWait
  /-- The worker sees that it may catch up. -/
  | observeCatchup
  | tryCompleteCatchup (currentLsn : PgLsn) (stored : Bool)
  /-- The worker returns, after completion or on shutdown. -/
  | finishWorker
  /-- The worker runs into an error, or panics. -/
  | failWorker (unwound : Bool)
  | handleError (directive : RetryDirective) (stored due : Bool)
  | rollback (restored : Bool)
  /-- A shutdown ends the sleep before a retry. -/
  | shutdownRetry
  | enterHook (kind : HookKind) (currentLsn : PgLsn)
  | processTable (succeeds : Bool)
  /-- The apply worker sees that the table was handed back or errored. -/
  | observeHandback
  /-- A shutdown ends the wait of the apply worker. -/
  | shutdownWait
  /-- A hook ends before it reaches the table. -/
  | leaveHook
  | failApply
  | restartApply
  /-- The recovery of an invalidated slot resets the table. -/
  | resetTable
  /-- The process ends and is started again. -/
  | crash
  deriving DecidableEq

/-- The steps that concern neither the copy, nor a position of a loop, nor the
recovery of the slot. -/
def HandoffInput.isLocal : HandoffInput → Bool
  | .startTableSync | .announceSyncWait | .finishWorker | .failWorker _ | .handleError _ _ _
  | .rollback _ | .shutdownRetry | .processTable _ | .observeHandback => true
  | _ => false

/-- Whether the step records an error of the table-sync worker. -/
def HandoffInput.recordsError : HandoffInput → Bool
  | .handleError _ _ _ => true
  | _ => false

/-- One step, with the configured number of automatic retries. -/
def Handoff.next (maxAttempts : ℕ) (h : Handoff) (input : HandoffInput) : Option Handoff :=
  match input, h.sync, h.apply with
  | .startTableSync, .starting, _ => some h.startTableSync
  | .prepareCopy stored, .preparing, _ => some (h.prepareCopy stored)
  | .finishCopy snapshotLsn stored, .copying, _ => some (h.finishCopy snapshotLsn stored)
  | .announceSyncWait, .copied snapshotLsn, _ => some (h.announceSyncWait snapshotLsn)
  | .observeCatchup, .waiting snapshotLsn, _ =>
    if h.worker.phase.asType = .catchup then some { h with sync := .catchingUp snapshotLsn }
    else none
  | .tryCompleteCatchup currentLsn stored, .catchingUp _, _ =>
    some (h.tryCompleteCatchup currentLsn stored)
  | .finishWorker, sync, _ => if sync.canStop then some h.finish else none
  | .failWorker unwound, sync, _ =>
    if sync.canFail then some { h with sync := .failing unwound } else none
  | .handleError directive stored due, .failing unwound, _ =>
    some (h.handleTableSyncWorkerError maxAttempts unwound directive stored due)
  | .rollback restored, .erroredLocked unwound, _ | .rollback restored, .sleeping unwound, _ =>
    some (h.rollback unwound restored)
  | .shutdownRetry, .sleeping _, _ => some h.finish
  | .enterHook kind currentLsn, _, .running => some (h.enterHook kind currentLsn)
  | .processTable succeeds, _, .inHook kind currentLsn listed =>
    if h.lockFree then some (h.processSingleSyncingTable kind currentLsn listed succeeds)
    else none
  | .observeHandback, _, .waiting =>
    if h.lockFree ∧ (h.worker.phase.asType = .syncDone ∨ h.worker.phase.asType = .errored) then
      some { h with apply := .running }
    else none
  | .shutdownWait, _, .waiting => some { h with apply := .running }
  | .leaveHook, _, .inHook _ _ _ => some { h with apply := .running }
  | .failApply, _, apply => if apply = .down then none else some { h with apply := .down }
  | .restartApply, _, .down => some { h with apply := .running }
  | .resetTable, _, .down => some { h with store := h.store.updateTableReplicationState .init }
  | .crash, _, _ => some { h with sync := .inactive, apply := .down }
  | _, _, _ => none

/-- The handoff as a machine. The process starts with what the store holds and no worker. -/
def handoffMachine (maxAttempts : ℕ) : Machine Handoff HandoffInput where
  init h := ∃ phase history log, (∀ p ∈ phase :: history, p.asType.shouldStore = true) ∧
    h = ⟨⟨phase, history, log ++ [phase]⟩, ⟨phase, 0, .stored log.length⟩, .inactive, .down⟩
  next := Handoff.next maxAttempts

end Etl
