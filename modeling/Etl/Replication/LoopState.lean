import Etl.Types.Event
import Mathlib.Algebra.Order.Ring.Nat

/-! # The state of the apply loop

The mutable state of one apply-loop invocation with its methods, and the wrapper around the
replication stream that reports progress to Postgres. Deadlines are represented by whether
they are armed; when they expire is up to the environment.

Reference: `etl/src/replication/apply.rs` (`ApplyLoopState`).
-/

namespace Etl

/-- The largest value of an unsigned 64-bit counter. -/
def u64Max : ℕ := 2 ^ 64 - 1

/-- The exit an invocation should eventually take. -/
inductive ExitIntent where
  | pause
  | complete
  deriving DecidableEq, Repr

def ExitIntent.merge : ExitIntent → ExitIntent → ExitIntent
  | .complete, _ | _, .complete => .complete
  | .pause, .pause => .pause

/-- Why an apply loop ended. -/
inductive ApplyLoopResult where
  | paused
  | completed
  deriving DecidableEq, Repr

/-- The result of an exit intent. -/
def ExitIntent.toResult : ExitIntent → ApplyLoopResult
  | .pause => .paused
  | .complete => .completed

/-- The shutdown state of a loop. -/
inductive ShutdownState where
  | noShutdown
  | drainingForShutdown
  deriving DecidableEq, Repr

def ShutdownState.isRequested : ShutdownState → Bool
  | .noShutdown => false
  | .drainingForShutdown => true

/-! ## Progress -/

/-- The highest position received from Postgres and the highest one durably flushed. -/
structure ReplicationProgress where
  lastReceivedLsn : PgLsn
  lastFlushLsn : PgLsn
  deriving DecidableEq, Repr

namespace ReplicationProgress

/-- Raises the received position. -/
def updateLastReceivedLsn (p : ReplicationProgress) (newLsn : PgLsn) : ReplicationProgress :=
  if newLsn ≤ p.lastReceivedLsn then p else { p with lastReceivedLsn := newLsn }

/-- Raises the flushed position. -/
def updateLastFlushLsn (p : ReplicationProgress) (newLsn : PgLsn) : ReplicationProgress :=
  if newLsn ≤ p.lastFlushLsn then p else { p with lastFlushLsn := newLsn }

/-- An update raises its position to the greater of the two. -/
theorem updateLastReceivedLsn_eq (p : ReplicationProgress) (newLsn : PgLsn) :
    p.updateLastReceivedLsn newLsn = ⟨max p.lastReceivedLsn newLsn, p.lastFlushLsn⟩ := by
  unfold updateLastReceivedLsn
  split_ifs with h
  · rw [max_eq_left h]
  · rw [max_eq_right (le_of_lt (not_le.mp h))]

theorem updateLastFlushLsn_eq (p : ReplicationProgress) (newLsn : PgLsn) :
    p.updateLastFlushLsn newLsn = ⟨p.lastReceivedLsn, max p.lastFlushLsn newLsn⟩ := by
  unfold updateLastFlushLsn
  split_ifs with h
  · rw [max_eq_left h]
  · rw [max_eq_right (le_of_lt (not_le.mp h))]

@[simp]
theorem updateLastReceivedLsn_lastReceivedLsn (p : ReplicationProgress) (newLsn : PgLsn) :
    (p.updateLastReceivedLsn newLsn).lastReceivedLsn = max p.lastReceivedLsn newLsn := by
  rw [updateLastReceivedLsn_eq]

@[simp]
theorem updateLastReceivedLsn_lastFlushLsn (p : ReplicationProgress) (newLsn : PgLsn) :
    (p.updateLastReceivedLsn newLsn).lastFlushLsn = p.lastFlushLsn := by
  rw [updateLastReceivedLsn_eq]

@[simp]
theorem updateLastFlushLsn_lastFlushLsn (p : ReplicationProgress) (newLsn : PgLsn) :
    (p.updateLastFlushLsn newLsn).lastFlushLsn = max p.lastFlushLsn newLsn := by
  rw [updateLastFlushLsn_eq]

@[simp]
theorem updateLastFlushLsn_lastReceivedLsn (p : ReplicationProgress) (newLsn : PgLsn) :
    (p.updateLastFlushLsn newLsn).lastReceivedLsn = p.lastReceivedLsn := by
  rw [updateLastFlushLsn_eq]

end ReplicationProgress

/-! ## Loop state -/

/-- A batch handed to the destination whose result is still awaited, with the commit end
captured when it was dispatched. -/
structure PendingFlush (ρ : Type) where
  commitEndLsn : Option PgLsn
  events : List (Event ρ)

/-- The mutable state of one invocation. Metrics fields are left out. -/
structure ApplyLoopState (ρ : Type) where
  lastCommitEndLsn : Option PgLsn
  remoteFinalLsn : Option PgLsn
  replicationProgress : ReplicationProgress
  eventsBatch : List (Event ρ)
  eventsBatchBytes : ℕ
  nextTxOrdinal : ℕ
  shutdownState : ShutdownState
  flushDeadlineArmed : Bool
  pendingFlushResult : Option (PendingFlush ρ)
  exitIntent : Option ExitIntent
  processingPaused : Bool
  bootstrapSnapshotId : SnapshotId

namespace ApplyLoopState

variable {ρ : Type} {writeEvents : EtlResult Unit} {st st' : ApplyLoopState ρ}

/-- The state of a loop that starts streaming at a position. -/
def new (startLsn : PgLsn) : ApplyLoopState ρ where
  lastCommitEndLsn := none
  remoteFinalLsn := none
  replicationProgress := ⟨startLsn, startLsn⟩
  eventsBatch := []
  eventsBatchBytes := 0
  nextTxOrdinal := 0
  shutdownState := .noShutdown
  flushDeadlineArmed := false
  pendingFlushResult := none
  exitIntent := none
  processingPaused := false
  bootstrapSnapshotId := startLsn

/-- Adds an event to the batch; the byte count saturates. -/
def addEventToBatch (st : ApplyLoopState ρ) (event : Event ρ) (sizeHint : ℕ) :
    ApplyLoopState ρ :=
  { st with
    eventsBatch := st.eventsBatch ++ [event]
    eventsBatchBytes := min u64Max (st.eventsBatchBytes + sizeHint) }

/-- Raises the last commit end. -/
def updateLastCommitEndLsn (st : ApplyLoopState ρ) (endLsn : Option PgLsn) :
    ApplyLoopState ρ :=
  match st.lastCommitEndLsn, endLsn with
  | none, some endLsn => { st with lastCommitEndLsn := some endLsn }
  | some old, some endLsn => if old < endLsn then { st with lastCommitEndLsn := some endLsn } else st
  | _, none => st

def setFlushDeadlineIfNeeded (st : ApplyLoopState ρ) : ApplyLoopState ρ :=
  { st with flushDeadlineArmed := true }

def handlingTransaction (st : ApplyLoopState ρ) : Bool := st.remoteFinalLsn.isSome

/-- Whether events wait to be flushed. -/
def hasPendingBatch (st : ApplyLoopState ρ) : Bool := !st.eventsBatch.isEmpty

def hasPendingFlushResult (st : ApplyLoopState ρ) : Bool := st.pendingFlushResult.isSome

/-- Whether buffered or in-flight work is unresolved. -/
def hasUnresolvedBatchWork (st : ApplyLoopState ρ) : Bool :=
  st.hasPendingBatch || st.hasPendingFlushResult

def isIdle (st : ApplyLoopState ρ) : Bool :=
  !st.handlingTransaction && !st.hasUnresolvedBatchWork

/-- The flush position to report: everything received when idle, else the last flush. -/
def effectiveFlushLsn (st : ApplyLoopState ρ) : PgLsn :=
  if st.isIdle then st.replicationProgress.lastReceivedLsn
  else st.replicationProgress.lastFlushLsn

/-- The next ordinal of the transaction; the counter saturates. -/
def takeTxOrdinal (st : ApplyLoopState ρ) : ℕ × ApplyLoopState ρ :=
  (st.nextTxOrdinal,
    { st with
      nextTxOrdinal :=
        if st.nextTxOrdinal + 1 ≤ u64Max then st.nextTxOrdinal + 1 else st.nextTxOrdinal })

def recordExitIntent (st : ApplyLoopState ρ) (exitIntent : Option ExitIntent) :
    ApplyLoopState ρ :=
  match exitIntent with
  | none => st
  | some exitIntent =>
    { st with
      exitIntent :=
        match st.exitIntent with
        | some current => some (current.merge exitIntent)
        | none => some exitIntent }

/-- Whether new replication messages may be accepted. -/
def canProcessMessages (st : ApplyLoopState ρ) : Bool :=
  st.exitIntent.isNone && !st.processingPaused

/-- Whether the flush deadline may trigger a flush. -/
def canWaitForDeadline (st : ApplyLoopState ρ) : Bool :=
  !st.processingPaused && st.hasPendingBatch

/-- Forgets the in-flight flush and enables processing. -/
def resumeProcessing (st : ApplyLoopState ρ) : ApplyLoopState ρ :=
  { st with processingPaused := false, pendingFlushResult := none }

def exitResult (st : ApplyLoopState ρ) : Option ApplyLoopResult :=
  st.exitIntent.map ExitIntent.toResult

/-- The result for the active phase once all exit barriers are resolved. -/
def tryFinishActiveIteration (st : ApplyLoopState ρ) : Option ApplyLoopResult :=
  if st.shutdownState.isRequested || st.hasUnresolvedBatchWork then none else st.exitResult

/-- The result once a shutdown has drained all work. -/
def finishShutdown (st : ApplyLoopState ρ) : ApplyLoopResult :=
  st.exitResult.getD .paused

/-- Flushes the batch: nothing to do when it is empty, deferred while a flush is in flight,
otherwise handed to the destination, which may refuse it. -/
def flushBatch (st : ApplyLoopState ρ) (writeEvents : EtlResult Unit) :
    EtlResult (ApplyLoopState ρ) :=
  if !st.hasPendingBatch then .ok st
  else if st.hasPendingFlushResult then .ok { st with processingPaused := true }
  else
    match writeEvents with
    | .error e => .error e
    | .ok () =>
      .ok
        { st with
          eventsBatch := []
          eventsBatchBytes := 0
          lastCommitEndLsn := none
          pendingFlushResult := some ⟨st.lastCommitEndLsn, st.eventsBatch⟩
          flushDeadlineArmed := false }

/-- A flush attempt touches the buffers only. -/
theorem flushBatch_eq (h : st.flushBatch writeEvents = .ok st') :
    ∃ eventsBatch eventsBatchBytes lastCommitEndLsn pendingFlushResult flushDeadlineArmed
      processingPaused,
      st' = { st with
        eventsBatch, eventsBatchBytes, lastCommitEndLsn, pendingFlushResult, flushDeadlineArmed,
        processingPaused } := by
  unfold flushBatch at h
  split_ifs at h
  · cases h
    exact ⟨_, _, _, _, _, _, rfl⟩
  · cases h
    exact ⟨_, _, _, _, _, _, rfl⟩
  · cases writeEvents with
    | error e => simp at h
    | ok _ =>
      cases h
      exact ⟨_, _, _, _, _, _, rfl⟩

theorem flushBatch_frame (h : st.flushBatch writeEvents = .ok st') :
    st'.remoteFinalLsn = st.remoteFinalLsn ∧
      st'.replicationProgress = st.replicationProgress := by
  obtain ⟨_, _, _, _, _, _, rfl⟩ := flushBatch_eq h
  exact ⟨rfl, rfl⟩

theorem recordExitIntent_eq (st : ApplyLoopState ρ) (exitIntent : Option ExitIntent) :
    ∃ exitIntent', st.recordExitIntent exitIntent = { st with exitIntent := exitIntent' } := by
  cases exitIntent with
  | none => exact ⟨st.exitIntent, rfl⟩
  | some exitIntent => exact ⟨_, rfl⟩

theorem isSome_recordExitIntent (st : ApplyLoopState ρ) (exitIntent : Option ExitIntent) :
    (st.recordExitIntent exitIntent).exitIntent.isSome
      = (st.exitIntent.isSome || exitIntent.isSome) := by
  unfold recordExitIntent
  cases exitIntent with
  | none => simp
  | some exitIntent => cases st.exitIntent <;> simp

theorem updateLastCommitEndLsn_some (st : ApplyLoopState ρ) (endLsn : PgLsn) :
    ∃ c, st.updateLastCommitEndLsn (some endLsn) = { st with lastCommitEndLsn := some c } ∧
      (c = endLsn ∨ st.lastCommitEndLsn = some c) := by
  unfold updateLastCommitEndLsn
  cases hold : st.lastCommitEndLsn with
  | none => exact ⟨endLsn, rfl, .inl rfl⟩
  | some old =>
    simp only
    split_ifs
    · exact ⟨endLsn, rfl, .inl rfl⟩
    · refine ⟨old, ?_, .inr rfl⟩
      rw [← hold]

theorem updateLastCommitEndLsn_le (st : ApplyLoopState ρ) (endLsn : PgLsn) :
    ∃ c, st.updateLastCommitEndLsn (some endLsn) = { st with lastCommitEndLsn := some c } ∧
      endLsn ≤ c ∧ ∀ old, st.lastCommitEndLsn = some old → old ≤ c := by
  unfold updateLastCommitEndLsn
  cases hold : st.lastCommitEndLsn with
  | none => exact ⟨endLsn, rfl, le_rfl, fun old h => by cases h⟩
  | some old =>
    simp only
    split_ifs with hlt
    · refine ⟨endLsn, rfl, le_rfl, fun old' h => ?_⟩
      cases h
      exact le_of_lt hlt
    · refine ⟨old, by rw [← hold], not_lt.mp hlt, fun old' h => ?_⟩
      cases h
      exact le_rfl

@[simp]
theorem updateLastCommitEndLsn_none (st : ApplyLoopState ρ) :
    st.updateLastCommitEndLsn none = st := by
  unfold updateLastCommitEndLsn
  cases st.lastCommitEndLsn <;> rfl

end ApplyLoopState

/-! ## Status updates -/

/-- A progress report to Postgres. -/
structure StatusUpdate where
  writeLsn : PgLsn
  flushLsn : PgLsn
  deriving DecidableEq, Repr

/-- The stream wrapper remembers the last report it sent. -/
structure EventsStream where
  lastUpdate : Option StatusUpdate
  deriving DecidableEq, Repr

/-- The report for the given positions, neither of which goes back. -/
def EventsStream.clamp (stream : EventsStream) (writeLsn flushLsn : PgLsn) : StatusUpdate :=
  match stream.lastUpdate with
  | none => ⟨writeLsn, flushLsn⟩
  | some last =>
    ⟨if writeLsn < last.writeLsn then last.writeLsn else writeLsn,
      if flushLsn < last.flushLsn then last.flushLsn else flushLsn⟩

/-- Sends a report unless it is unforced, repeats the last flush position and comes within
the throttling interval. -/
def EventsStream.sendStatusUpdate (stream : EventsStream) (writeLsn flushLsn : PgLsn)
    (force withinInterval : Bool) : EventsStream × Option StatusUpdate :=
  let update := stream.clamp writeLsn flushLsn
  match stream.lastUpdate with
  | some last =>
    if !force && update.flushLsn = last.flushLsn && withinInterval then (stream, none)
    else (⟨some update⟩, some update)
  | none => (⟨some update⟩, some update)

/-- Either nothing is sent and nothing changes, or the clamped report is sent. -/
theorem EventsStream.sendStatusUpdate_cases (stream : EventsStream) (writeLsn flushLsn : PgLsn)
    (force withinInterval : Bool) :
    stream.sendStatusUpdate writeLsn flushLsn force withinInterval = (stream, none) ∨
      stream.sendStatusUpdate writeLsn flushLsn force withinInterval
        = (⟨some (stream.clamp writeLsn flushLsn)⟩, some (stream.clamp writeLsn flushLsn)) := by
  unfold sendStatusUpdate
  cases stream.lastUpdate with
  | none => exact .inr rfl
  | some last =>
    simp only
    split_ifs
    · exact .inl rfl
    · exact .inr rfl

end Etl
