import Etl.Common.Transition
import Etl.Replication.Handlers

/-! # The apply loop

One invocation of the apply loop as a machine. Its state is the loop state together with the
point the loop is at, the stream wrapper, the durable progress row of the worker and what
Postgres has sent so far; the events are everything the `select!` of an iteration can pick,
and the answers of the hooks at the points where the loop waits for them.

The history fields record what the loop is judged by: the transactions delivered with the
events produced for them, the events the destination acknowledged, and the reports sent.

Reference: `etl/src/replication/apply.rs` (`ApplyLoop`).
-/

namespace Etl

variable {ρ : Type}

/-! ## The sending side -/

/-- What Postgres has committed itself to on this connection: the highest position carried by
a message, initially the start position, and the commit position of the open transaction. -/
structure WalSender where
  sentUpTo : PgLsn
  openCommit : Option PgLsn
  deriving DecidableEq, Repr

/-- Whether Postgres may send the message, and what it has sent afterwards.

Transactions come one at a time. A position is sent only after every transaction committing
before it, so a transaction that begins later commits at or after it. A commit record has a
positive length, and the message of a commit carries at least the end of its record. -/
def WalSender.send (w : WalSender) (message : ReplicationMessage ρ) : Option WalSender :=
  match message with
  | .primaryKeepAlive walEnd _ => some { w with sentUpTo := max w.sentUpTo walEnd }
  | .xLogData walStart walEnd data =>
    if walEnd < walStart then none
    else
      let sentUpTo := max w.sentUpTo walEnd
      match data with
      | .begin finalLsn =>
        if w.openCommit = none ∧ w.sentUpTo ≤ finalLsn then some ⟨sentUpTo, some finalLsn⟩
        else none
      | .commit commitLsn endLsn =>
        if w.openCommit = some commitLsn ∧ commitLsn < endLsn ∧ endLsn ≤ walEnd then
          some ⟨sentUpTo, none⟩
        else none
      | _ => some ⟨sentUpTo, w.openCommit⟩

/-! ## The session -/

/-- Where the loop is. Inside a commit and inside a flush result it waits for a hook of the
worker. -/
inductive LoopPoint where
  | preflight
  | select
  | epilogue
  | inCommit (startLsn commitLsn endLsn : PgLsn)
  | inFlush (processingPaused : Bool)
  | finished (result : ApplyLoopResult)
  | failed (error : EtlError)
  deriving DecidableEq

def LoopPoint.isOver : LoopPoint → Bool
  | .finished _ | .failed _ => true
  | _ => false

/-- A transaction delivered completely, with the events this worker produced for it. -/
structure DeliveredTx (ρ : Type) where
  commitLsn : PgLsn
  endLsn : PgLsn
  events : List (Event ρ)

/-- One invocation of the apply loop. -/
structure Session (ρ : Type) where
  state : ApplyLoopState ρ
  point : LoopPoint
  stream : EventsStream
  durableProgress : Option PgLsn
  sender : WalSender
  delivered : List (DeliveredTx ρ)
  openEvents : List (Event ρ)
  acked : List (Event ρ)
  reports : List StatusUpdate

/-- What can happen to a running loop. -/
inductive LoopInput (ρ : Type) where
  /-- The idle hook runs, if it is due, and asks for an exit or not. -/
  | idle (exitIntent : Option ExitIntent)
  | message (message : ReplicationMessage ρ) (ans : MessageAnswers)
      (sizeHint batchSizeBytes : ℕ) (writeEvents : EtlResult Unit) (withinInterval : Bool)
  /-- The commit hook returns. -/
  | commitHook (exitIntent : Option ExitIntent) (sizeHint batchSizeBytes : ℕ)
      (writeEvents : EtlResult Unit)
  | flushResult (result upsert writeEvents : EtlResult Unit)
  /-- The flush hook returns. -/
  | flushHook (exitIntent : Option ExitIntent) (writeEvents : EtlResult Unit)
  | flushDeadline (writeEvents : EtlResult Unit)
  | keepAliveDeadline
  | shutdown
  /-- The connection, a store call, a hook or the process fails. -/
  | fail (error : EtlError)

namespace Session

/-- A new invocation that streams from a position. -/
def start (startLsn : PgLsn) (durableProgress : Option PgLsn) : Session ρ where
  state := .new startLsn
  point := .preflight
  stream := ⟨none⟩
  durableProgress := durableProgress
  sender := ⟨startLsn, none⟩
  delivered := []
  openEvents := []
  acked := []
  reports := []

/-- Continues with the state a step of the loop gives, or ends with its error. -/
def continueWith (s : Session ρ) (point : LoopPoint) (result : EtlResult (ApplyLoopState ρ)) :
    Session ρ :=
  match result with
  | .ok state => { s with state, point }
  | .error error => { s with point := .failed error }

def sendStatusUpdate (s : Session ρ) (force withinInterval : Bool) : Session ρ :=
  let (stream, sent) :=
    s.stream.sendStatusUpdate s.state.replicationProgress.lastReceivedLsn
      s.state.effectiveFlushLsn force withinInterval
  { s with stream, reports := s.reports ++ sent.toList }

/-- Sends the final report of a shutdown. -/
def initiateGracefulShutdown (s : Session ρ) : Session ρ :=
  let s := s.sendStatusUpdate true false
  { s with state := { s.state with shutdownState := .noShutdown } }

/-- Handles a shutdown signal: stops intake, drains unresolved work first. -/
def handleShutdownSignal (s : Session ρ) : Session ρ :=
  let s := { s with state := s.state.recordExitIntent (some .pause), point := .epilogue }
  if s.state.hasUnresolvedBatchWork then
    { s with state := { s.state with shutdownState := .drainingForShutdown } }
  else s.initiateGracefulShutdown

/-- Runs the idle hook if no exit is requested and the loop is idle. -/
def maybeProcessSyncingTablesWhenIdle (s : Session ρ) (exitIntent : Option ExitIntent) :
    Session ρ :=
  if s.state.exitIntent.isNone && s.state.isIdle then
    { s with state := s.state.recordExitIntent exitIntent }
  else s

/-- Ends a drain whose work is resolved, or goes on at the given point. -/
def finishDrainOr (s : Session ρ) (point : LoopPoint) : Session ρ :=
  if s.state.hasUnresolvedBatchWork then { s with point }
  else
    let s := s.initiateGracefulShutdown
    { s with point := .finished s.state.finishShutdown }

/-- Ends the active phase if it may end, or goes on at the given point. -/
def tryFinishOr (s : Session ρ) (point : LoopPoint) : Session ρ :=
  match s.state.tryFinishActiveIteration with
  | some result => { s with point := .finished result }
  | none => { s with point }

/-- The start of an iteration. A drain does not run the idle hook here. -/
def preflight (s : Session ρ) (exitIntent : Option ExitIntent) : Session ρ :=
  match s.state.shutdownState with
  | .noShutdown => (s.maybeProcessSyncingTablesWhenIdle exitIntent).tryFinishOr .select
  | .drainingForShutdown => s.finishDrainOr .select

/-- The end of an iteration. -/
def epilogue (s : Session ρ) (exitIntent : Option ExitIntent) : Session ρ :=
  let s := s.maybeProcessSyncingTablesWhenIdle exitIntent
  match s.state.shutdownState with
  | .noShutdown => s.tryFinishOr .preflight
  | .drainingForShutdown => s.finishDrainOr .preflight

/-- Enters the produced event in the history. -/
def recordEvent (s : Session ρ) (result : HandleMessageResult ρ) : Session ρ :=
  match result.event, result.endLsn with
  | none, _ => s
  | some event, none => { s with openEvents := s.openEvents ++ [event] }
  | some event, some endLsn =>
    { s with
      delivered := s.delivered ++ [⟨event.commitLsn, endLsn, s.openEvents ++ [event]⟩]
      openEvents := [] }

/-- Takes over a handled message: history, batch and possibly a flush. -/
def takeResult (s : Session ρ) (state : ApplyLoopState ρ) (result : HandleMessageResult ρ)
    (sizeHint batchSizeBytes : ℕ) (writeEvents : EtlResult Unit) : Session ρ :=
  (s.recordEvent result).continueWith .epilogue
    (collectAndFlush state result sizeHint batchSizeBytes writeEvents)

/-- Raises the received position. -/
def receive (s : Session ρ) (lsn : PgLsn) : Session ρ :=
  { s with
    state :=
      { s.state with
        replicationProgress := s.state.replicationProgress.updateLastReceivedLsn lsn } }

/-- Handles a replication message. A commit stops at the worker's commit hook. -/
def handleReplicationMessage (s : Session ρ) (message : ReplicationMessage ρ)
    (ans : MessageAnswers) (sizeHint batchSizeBytes : ℕ) (writeEvents : EtlResult Unit)
    (withinInterval : Bool) : Session ρ :=
  match message with
  | .xLogData walStart walEnd data =>
    let s := (s.receive walStart).receive walEnd
    match data with
    | .commit commitLsn endLsn =>
      s.continueWith (.inCommit walStart commitLsn endLsn) (beginCommitMessage commitLsn s.state)
    | data =>
      match handleLogicalReplicationMessage ans walStart data s.state with
      | .error error => { s with point := .failed error }
      | .ok (state, result) => s.takeResult state result sizeHint batchSizeBytes writeEvents
  | .primaryKeepAlive walEnd replyRequested =>
    let s := (s.receive walEnd).sendStatusUpdate replyRequested withinInterval
    s.takeResult s.state .noEvent sizeHint batchSizeBytes writeEvents

/-- The commit hook has returned. -/
def finishCommit (s : Session ρ) (startLsn commitLsn endLsn : PgLsn)
    (exitIntent : Option ExitIntent) (sizeHint batchSizeBytes : ℕ)
    (writeEvents : EtlResult Unit) : Session ρ :=
  let (state, result) := finishCommitMessage startLsn commitLsn endLsn exitIntent s.state
  s.takeResult state result sizeHint batchSizeBytes writeEvents

/-- Flushes the batch that was queued behind the resolved flush, if there is one. -/
def retryQueuedFlush (s : Session ρ) (processingPaused : Bool) (writeEvents : EtlResult Unit) :
    Session ρ :=
  if processingPaused then s.continueWith .epilogue (s.state.flushBatch writeEvents)
  else { s with point := .epilogue }

/-- Handles a flush result. A batch with a commit raises the durable progress, which never
goes back, and stops at the worker's flush hook. -/
def handleFlushResult (s : Session ρ) (pending : PendingFlush ρ)
    (result upsert writeEvents : EtlResult Unit) : Session ρ :=
  let processingPaused := s.state.processingPaused
  let s := { s with state := s.state.resumeProcessing }
  match result with
  | .error error => { s with point := .failed error }
  | .ok () =>
    let s := { s with acked := s.acked ++ pending.events }
    match pending.commitEndLsn with
    | none => s.retryQueuedFlush processingPaused writeEvents
    | some commitEndLsn =>
      match upsert with
      | .error error => { s with point := .failed error }
      | .ok () =>
        let durable := max (s.durableProgress.getD commitEndLsn) commitEndLsn
        { s with
          durableProgress := some durable
          state :=
            { s.state with
              replicationProgress := s.state.replicationProgress.updateLastFlushLsn durable }
          point := .inFlush processingPaused }

/-- The flush hook has returned. -/
def finishFlush (s : Session ρ) (processingPaused : Bool) (exitIntent : Option ExitIntent)
    (writeEvents : EtlResult Unit) : Session ρ :=
  { s with state := s.state.recordExitIntent exitIntent }.retryQueuedFlush processingPaused
    writeEvents

/-- One step of the loop. The priorities of the `select!` are not modelled: whatever is
enabled may happen. -/
def next (s : Session ρ) (input : LoopInput ρ) : Option (Session ρ) :=
  match s.point, input with
  | .preflight, .idle exitIntent => some (s.preflight exitIntent)
  | .epilogue, .idle exitIntent => some (s.epilogue exitIntent)
  | .select, .shutdown =>
    if s.state.shutdownState.isRequested then none else some s.handleShutdownSignal
  | .select, .message message ans sizeHint batchSizeBytes writeEvents withinInterval =>
    if s.state.shutdownState.isRequested || !s.state.canProcessMessages then none
    else
      (s.sender.send message).map fun sender =>
        { s with sender }.handleReplicationMessage message ans sizeHint batchSizeBytes
          writeEvents withinInterval
  | .select, .flushResult result upsert writeEvents =>
    s.state.pendingFlushResult.map fun pending =>
      s.handleFlushResult pending result upsert writeEvents
  | .select, .flushDeadline writeEvents =>
    if s.state.canWaitForDeadline && s.state.flushDeadlineArmed then
      some (s.continueWith .epilogue (s.state.flushBatch writeEvents))
    else none
  | .select, .keepAliveDeadline => some { s.sendStatusUpdate true false with point := .epilogue }
  | .inCommit startLsn commitLsn endLsn, .commitHook exitIntent sizeHint batchSizeBytes
      writeEvents =>
    some (s.finishCommit startLsn commitLsn endLsn exitIntent sizeHint batchSizeBytes writeEvents)
  | .inFlush processingPaused, .flushHook exitIntent writeEvents =>
    some (s.finishFlush processingPaused exitIntent writeEvents)
  | point, .fail error => if point.isOver then none else some { s with point := .failed error }
  | _, _ => none

end Session

/-- The apply loop as a machine. The worker starts it at a position its durable progress does
not exceed. -/
def applyLoopMachine (ρ : Type) : Machine (Session ρ) (LoopInput ρ) where
  init s := ∃ startLsn durableProgress,
    (∀ durable, durableProgress = some durable → durable ≤ startLsn) ∧
      s = Session.start startLsn durableProgress
  next := Session.next

end Etl
