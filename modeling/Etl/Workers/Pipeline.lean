import Etl.Replication.Coverage
import Etl.Workers.HandoffPhases

/-! # One table of the pipeline

Both workers of a table in full: the apply loop of the apply worker and the apply loop of the
table-sync worker, each on its own connection to one write-ahead log, joined by the shared
phase of the handoff. Ownership of a change and the position a hook compares are read from
the state, and a loop goes on after a hook with what the hook answered.

The process may crash at every step and starts again from what is durable: the stored phase,
the progress row of the apply worker and the position its slot has confirmed.

Reference: `etl/src/workers/apply.rs` (`guarded_run_apply_worker`).
-/

namespace Etl

variable {ρ : Type}

/-! ## Ownership and hooks -/

/-- Whether the apply worker applies changes of the table: the phase of an active worker
decides, or else the stored one. -/
def Handoff.shouldApplyChanges (h : Handoff) (remoteFinalLsn : PgLsn) : Bool :=
  match h.getActiveWorkerState with
  | some worker => worker.phase.isReadyForChanges remoteFinalLsn
  | none => h.store.current.isReadyForChanges remoteFinalLsn

/-- The tables whose rows a message changes. -/
def ReplicationMessage.relations : ReplicationMessage ρ → List TableId
  | .xLogData _ _ data => data.relations
  | .primaryKeepAlive _ _ => []

/-- The answers for a message say whether the table is owned, unless asking fails, and the
schema cached for a table is its own. -/
def MessageAnswers.agrees (ans : MessageAnswers) (tableId : TableId) (owned : Bool)
    (message : ReplicationMessage ρ) : Bool :=
  (match ans.shouldApplyChanges tableId with
    | .ok answer => answer = owned
    | .error _ => true) &&
  (tableId :: message.relations).all fun relId =>
    match ans.rowSchema relId with
    | .ok schema => schema.tableSchema.id = relId
    | .error _ => true

/-- The idle hook with its position, if the loop is idle and no exit is requested. -/
def Session.idleHook (s : Session ρ) : Option (HookKind × PgLsn) :=
  if s.state.exitIntent.isNone && s.state.isIdle then some (.whenIdle, s.state.effectiveFlushLsn)
  else none

/-- The hook that runs at the point the loop is at, with its position. -/
def Session.dueHook (s : Session ρ) : Option (HookKind × PgLsn) :=
  match s.point with
  | .preflight => if s.state.shutdownState.isRequested then none else s.idleHook
  | .epilogue => s.idleHook
  | .inCommit _ _ endLsn => some (.afterCommit, endLsn)
  | .inFlush _ => some (.afterFlush, s.state.replicationProgress.lastFlushLsn)
  | _ => none

/-- What the hooks of the table-sync worker answer: catch-up is complete once the position has
reached its target. -/
def Handoff.catchupAnswer (h : Handoff) (lsn : PgLsn) : Option ExitIntent :=
  match h.worker.phase with
  | .catchup catchupLsn => if catchupLsn ≤ lsn then some .complete else none
  | _ => none

/-- Where the table-sync worker runs its apply loop. -/
def SyncPoint.isLooping : SyncPoint → Bool
  | .catchingUp _ | .completing => true
  | _ => false

/-- Where the apply loop is with its hook. A shutdown interrupts a hook, and the loop is then
asked to pause. -/
inductive HookProgress where
  | outside
  | inside
  | interrupted
  deriving DecidableEq, Repr

/-! ## The state -/

/-- The log, the handoff and both loops with their connections. The snapshot is the one of the
latest copy. The remaining fields are history: what earlier apply loops had acknowledged, what
earlier loops of table-sync workers produced, and the position the table was last handed back
at. -/
structure Pipeline (ρ : Type) where
  wal : Wal ρ
  handoff : Handoff
  apply : Session ρ
  applyCursor : Cursor ρ
  hook : HookProgress
  slotLsn : PgLsn
  sync : Session ρ
  syncCursor : Cursor ρ
  snapshot : Option PgLsn
  applied : List (Event ρ)
  synced : List (Event ρ)
  handbackLsn : PgLsn

/-- What can happen. -/
inductive PipelineInput (ρ : Type) where
  /-- The source commits a transaction. -/
  | commitTx (tx : WalTx ρ)
  | advanceWal (lsn : PgLsn)
  /-- A step of the table-sync worker outside of its copy and its loop, or of a hook of the
  apply worker. -/
  | worker (input : HandoffInput)
  | prepareCopy (stored : Bool)
  /-- The slot of the copy is created, which fixes its snapshot. -/
  | createSlot (lsn : PgLsn)
  | finishCopy (stored : Bool)
  /-- The table-sync worker starts its loop. -/
  | startCatchup
  | sync (input : LoopInput ρ)
  /-- The table-sync worker hands the table back, but the phase cannot be stored. -/
  | failHandback (error : EtlError)
  | enterHook
  | interruptHook
  | apply (input : LoopInput ρ)
  | failApply (error : EtlError)
  | restartApply
  /-- A report has reached Postgres. -/
  | confirmFlush (lsn : PgLsn)
  | crash

namespace Pipeline

/-! ## The apply worker -/

/-- Whether the surroundings allow the input of the apply loop. -/
def permitsApply (p : Pipeline ρ) (tableId : TableId) (input : LoopInput ρ) : Bool :=
  match input with
  | .message message ans _ _ _ _ =>
    p.hook = .outside && p.handoff.lockFree &&
      ans.agrees tableId (p.handoff.shouldApplyChanges (p.apply.state.remoteFinalLsn.getD 0))
        message
  | .idle exitIntent | .commitHook exitIntent _ _ _ | .flushHook exitIntent _ =>
    match p.apply.dueHook, p.hook with
    | none, .outside => true
    | some _, .inside => exitIntent = none
    | some _, .interrupted => exitIntent = some .pause
    | _, _ => false
  | .fail _ => false
  | _ => p.hook = .outside

/-- A step of the apply loop. -/
def applyStep [DecidableEq ρ] (p : Pipeline ρ) (tableId : TableId) (input : LoopInput ρ) :
    Option (Pipeline ρ) :=
  if p.handoff.apply = .running ∧ p.permitsApply tableId input = true then
    match p.wal.follow p.applyCursor p.apply.sender.openCommit.isSome input,
      p.apply.next input with
    | some applyCursor, some apply =>
      some
        { p with
          apply
          applyCursor
          hook := .outside
          handoff :=
            if apply.point.isOver then { p.handoff with apply := .down } else p.handoff }
    | _, _ => none
  else none

/-- The apply loop enters the hook that is due. -/
def enterHook (p : Pipeline ρ) : Option (Pipeline ρ) :=
  match p.handoff.apply, p.hook, p.apply.dueHook with
  | .running, .outside, some (kind, lsn) =>
    some { p with handoff := p.handoff.enterHook kind lsn, hook := .inside }
  | _, _, _ => none

/-- A shutdown ends a hook that can wait. -/
def interruptHook (p : Pipeline ρ) : Option (Pipeline ρ) :=
  match p.hook, p.apply.dueHook with
  | .inside, some (.afterCommit, _) | .inside, some (.whenIdle, _) =>
    if p.handoff.apply = .down then none
    else some { p with handoff := { p.handoff with apply := .running }, hook := .interrupted }
  | _, _ => none

/-- The position the apply worker starts from: the slot's, or its own progress if that is
ahead. -/
def getStartLsn (p : Pipeline ρ) : PgLsn :=
  match p.apply.durableProgress with
  | some durable => max durable p.slotLsn
  | none => p.slotLsn

/-- The apply worker starts its loop again. -/
def restartApply (p : Pipeline ρ) : Option (Pipeline ρ) :=
  if p.handoff.apply = .down then
    some
      { p with
        handoff := { p.handoff with apply := .running }
        apply := .start p.getStartLsn p.apply.durableProgress
        applyCursor := p.wal.cursorAt p.getStartLsn
        hook := .outside
        applied := p.applied ++ p.apply.acked }
  else none

/-- The apply worker fails. -/
def failApply (p : Pipeline ρ) (error : EtlError) : Option (Pipeline ρ) :=
  (p.apply.next (.fail error)).map fun apply =>
    { p with apply, hook := .outside, handoff := { p.handoff with apply := .down } }

/-! ## The table-sync worker -/

/-- The slot of the copy: everything that has committed is in the snapshot. -/
def createSlot (p : Pipeline ρ) (lsn : PgLsn) : Option (Pipeline ρ) :=
  if p.handoff.sync = .copying ∧ p.snapshot = none ∧ lsn ≤ p.wal.tip ∧
      ∀ tx ∈ p.wal.txs, tx.commitLsn < lsn then
    some { p with snapshot := some lsn }
  else none

/-- The copy of the snapshot is complete. -/
def finishCopy (p : Pipeline ρ) (stored : Bool) : Option (Pipeline ρ) :=
  match p.handoff.sync, p.snapshot with
  | .copying, some lsn => some { p with handoff := p.handoff.finishCopy lsn stored }
  | _, _ => none

/-- The worker sees that it may catch up and streams from its snapshot. -/
def startCatchup (p : Pipeline ρ) : Option (Pipeline ρ) :=
  match p.handoff.sync with
  | .waiting snapshotLsn =>
    if p.handoff.worker.phase.asType = .catchup then
      some
        { p with
          handoff := { p.handoff with sync := .catchingUp snapshotLsn }
          sync := .start snapshotLsn none
          syncCursor := p.wal.cursorAt snapshotLsn
          synced := p.synced ++ p.sync.producedEvents }
    else none
  | _ => none

/-- Whether the surroundings allow the input of the worker's loop. -/
def permitsSync (p : Pipeline ρ) (tableId : TableId) (input : LoopInput ρ) : Bool :=
  match input with
  | .message message ans _ _ _ _ => ans.agrees tableId true message
  | .idle exitIntent | .commitHook exitIntent _ _ _ | .flushHook exitIntent _ =>
    match p.sync.dueHook with
    | some (_, lsn) => exitIntent = p.handoff.catchupAnswer lsn
    | none => true
  | .fail _ => false
  | _ => true

/-- The hooks after a flush and when idle hand the table back once catch-up is complete. -/
def tryHandback (p : Pipeline ρ) (stored : Bool) : Pipeline ρ :=
  match p.sync.dueHook with
  | some (.afterFlush, lsn) | some (.whenIdle, lsn) =>
    if (p.handoff.catchupAnswer lsn).isSome then
      { p with handoff := p.handoff.tryCompleteCatchup lsn stored, handbackLsn := lsn }
    else p
  | _ => p

/-- A step of the worker's loop, together with the hook that runs at it. -/
def syncStep [DecidableEq ρ] (p : Pipeline ρ) (tableId : TableId) (input : LoopInput ρ) :
    Option (Pipeline ρ) :=
  if p.handoff.sync.isLooping = true ∧ p.permitsSync tableId input = true then
    match p.wal.follow p.syncCursor p.sync.sender.openCommit.isSome input, p.sync.next input with
    | some syncCursor, some sync =>
      let p := p.tryHandback true
      some
        { p with
          sync
          syncCursor
          handoff :=
            if sync.point.isFailed then { p.handoff with sync := .failing false } else p.handoff }
    | _, _ => none
  else none

/-- The table is handed back in memory only, and the worker fails. -/
def failHandback (p : Pipeline ρ) (error : EtlError) : Option (Pipeline ρ) :=
  match p.handoff.sync, p.sync.dueHook with
  | .catchingUp _, some (.afterFlush, lsn) | .catchingUp _, some (.whenIdle, lsn) =>
    if (p.handoff.catchupAnswer lsn).isSome then
      (p.sync.next (.fail error)).map fun sync => { p.tryHandback false with sync }
    else none
  | _, _ => none

/-! ## The machine -/

/-- One step. -/
def next [DecidableEq ρ] (tableId : TableId) (maxAttempts : ℕ) (p : Pipeline ρ)
    (input : PipelineInput ρ) : Option (Pipeline ρ) :=
  match input with
  | .commitTx tx => (p.wal.commit tx).map fun wal => { p with wal }
  | .advanceWal lsn => some { p with wal := p.wal.advance lsn }
  | .worker input =>
    if input.isLocal then
      (p.handoff.next maxAttempts input).map fun handoff => { p with handoff }
    else none
  | .prepareCopy stored =>
    (p.handoff.next maxAttempts (.prepareCopy stored)).map fun handoff =>
      { p with handoff, snapshot := none }
  | .createSlot lsn => p.createSlot lsn
  | .finishCopy stored => p.finishCopy stored
  | .startCatchup => p.startCatchup
  | .sync input => p.syncStep tableId input
  | .failHandback error => p.failHandback error
  | .enterHook => p.enterHook
  | .interruptHook => p.interruptHook
  | .apply input => p.applyStep tableId input
  | .failApply error => p.failApply error
  | .restartApply => p.restartApply
  | .confirmFlush lsn =>
    if lsn ∈ p.apply.reports.map (·.flushLsn) then
      some { p with slotLsn := max p.slotLsn lsn }
    else none
  | .crash =>
    some { p with handoff := { p.handoff with sync := .inactive, apply := .down }, hook := .outside }

/-- A process that starts with a stored phase of the table and streams from a position. -/
def started (phase : TableReplicationPhase) (wal : Wal ρ) (startLsn : PgLsn)
    (durableProgress : Option PgLsn) (slotLsn : PgLsn) : Pipeline ρ where
  wal := wal
  handoff := { startedWith phase with apply := .running }
  apply := .start startLsn durableProgress
  applyCursor := wal.cursorAt startLsn
  hook := .outside
  slotLsn := slotLsn
  sync := .start 0 none
  syncCursor := wal.cursorAt 0
  snapshot := none
  applied := []
  synced := []
  handbackLsn :=
    match phase with
    | .syncDone lsn => lsn
    | _ => 0

end Pipeline

/-- The pipeline as a machine. A process starts with the given phase of the table in the store,
at a position that neither its progress nor its slot exceeds. -/
def pipelineMachine (ρ : Type) [DecidableEq ρ] (tableId : TableId) (maxAttempts : ℕ)
    (phase : TableReplicationPhase) : Machine (Pipeline ρ) (PipelineInput ρ) where
  init p := phase.asType.shouldStore = true ∧ ∃ wal startLsn durableProgress slotLsn,
    startLsn ≤ wal.tip ∧ slotLsn ≤ startLsn ∧
      (∀ durable, durableProgress = some durable → durable ≤ startLsn) ∧
      p = .started phase wal startLsn durableProgress slotLsn
  next := Pipeline.next tableId maxAttempts

end Etl
