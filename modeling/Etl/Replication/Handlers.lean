import Etl.Replication.LoopState

/-! # Message handlers

What the apply loop does with one logical replication message: the transaction bookkeeping,
the ordinal every transaction-scoped message consumes, the ownership test, and the event, if
any. Ownership, schema lookups and decoding are answered by the surroundings, since they
depend on state the loop shares with other workers.

Reference: `etl/src/replication/apply.rs` (`handle_logical_replication_message`).
-/

namespace Etl

variable {ρ : Type} {writeEvents : EtlResult Unit} {sizeHint batchSizeBytes : ℕ}

/-- What the surroundings answer while one message is handled. -/
structure MessageAnswers where
  /-- Whether this worker owns the table at the open transaction's commit position. -/
  shouldApplyChanges : TableId → EtlResult Bool
  /-- The schema a relation message resolves to, with masks for the announced columns. -/
  relationSchema : TableId → List RelationColumn → EtlResult ReplicatedTableSchema
  /-- The cached schema row and truncate messages are decoded with. -/
  rowSchema : TableId → EtlResult ReplicatedTableSchema
  /-- Whether the row payload can be decoded. -/
  decodeRow : EtlResult Unit
  /-- Whether a schema version could be stored. -/
  storeTableSchema : TableSchema → EtlResult Unit
  /-- The exit the worker's commit hook asks for. -/
  afterCommit : EtlResult (Option ExitIntent)

/-- The answers of surroundings in which the worker owns every table and nothing fails. -/
def MessageAnswers.owning (schema : ReplicatedTableSchema) : MessageAnswers where
  shouldApplyChanges _ := .ok true
  relationSchema _ _ := .ok schema
  rowSchema _ := .ok schema
  decodeRow := .ok ()
  storeTableSchema _ := .ok ()
  afterCommit := .ok none

structure HandleMessageResult (ρ : Type) where
  event : Option (Event ρ) := none
  endLsn : Option PgLsn := none
  endBatch : Bool := false

/-- A result without an event. -/
def HandleMessageResult.noEvent : HandleMessageResult ρ := {}

/-- A result with an event. -/
def HandleMessageResult.returnEvent (event : Event ρ) : HandleMessageResult ρ :=
  { event := some event }

/-- The tag of schema-change messages. -/
def ddlMessageTag : String := "supabase_etl_ddl"

/-- A message that needs an open transaction came outside of one. -/
def noTransaction {α : Type} (detail : String) : EtlResult α :=
  bailWith .invalidState "Invalid transaction state" detail

/-- Handles `BEGIN`: opens the transaction and restarts the ordinals. -/
def handleBeginMessage (startLsn finalLsn : PgLsn) (st : ApplyLoopState ρ) :
    ApplyLoopState ρ × HandleMessageResult ρ :=
  let st := { st with remoteFinalLsn := some finalLsn, nextTxOrdinal := 0 }
  let (txOrdinal, st) := st.takeTxOrdinal
  (st, .returnEvent ⟨startLsn, finalLsn, txOrdinal, .begin⟩)

/-- The part of `COMMIT` before the worker's commit hook: the transaction is closed and its
commit position checked. -/
def beginCommitMessage (commitLsn : PgLsn) (st : ApplyLoopState ρ) :
    EtlResult (ApplyLoopState ρ) :=
  match st.remoteFinalLsn with
  | none => noTransaction "Transaction must be active before processing COMMIT message"
  | some remoteFinalLsn =>
    if commitLsn ≠ remoteFinalLsn then
      bailWith .validationError "Invalid commit LSN"
        s!"Incorrect commit LSN {commitLsn} in COMMIT message (expected {remoteFinalLsn})"
    else .ok { st with remoteFinalLsn := none }

/-- The part of `COMMIT` after the worker's commit hook: a requested exit is recorded and
ends the batch with this commit. -/
def finishCommitMessage (startLsn commitLsn endLsn : PgLsn) (exitIntent : Option ExitIntent)
    (st : ApplyLoopState ρ) : ApplyLoopState ρ × HandleMessageResult ρ :=
  let st := st.recordExitIntent exitIntent
  let (txOrdinal, st) := st.takeTxOrdinal
  (st,
    { event := some ⟨startLsn, commitLsn, txOrdinal, .commit endLsn⟩
      endLsn := some endLsn
      endBatch := exitIntent.isSome })

/-- Handles `COMMIT`. -/
def handleCommitMessage (ans : MessageAnswers) (startLsn commitLsn endLsn : PgLsn)
    (st : ApplyLoopState ρ) : EtlResult (ApplyLoopState ρ × HandleMessageResult ρ) := do
  let st ← beginCommitMessage commitLsn st
  let exitIntent ← ans.afterCommit
  .ok (finishCommitMessage startLsn commitLsn endLsn exitIntent st)

/-- Handles `RELATION`. The ordinal is consumed before the ownership test. -/
def handleRelationMessage (ans : MessageAnswers) (startLsn : PgLsn) (relId : TableId)
    (columns : List RelationColumn) (st : ApplyLoopState ρ) :
    EtlResult (ApplyLoopState ρ × HandleMessageResult ρ) :=
  match st.remoteFinalLsn with
  | none => noTransaction "Transaction must be active before processing RELATION message"
  | some remoteFinalLsn => do
    let (txOrdinal, st) := st.takeTxOrdinal
    if ← ans.shouldApplyChanges relId then
      let schema ← ans.relationSchema relId columns
      .ok (st, .returnEvent ⟨startLsn, remoteFinalLsn, txOrdinal, .relation schema⟩)
    else .ok (st, .noEvent)

/-- Handles a row message of the given kind. The ordinal is consumed before the ownership
test. -/
def handleRowMessage (messageName : String) (kind : RowKind) (ans : MessageAnswers)
    (startLsn : PgLsn) (relId : TableId) (image : ρ) (st : ApplyLoopState ρ) :
    EtlResult (ApplyLoopState ρ × HandleMessageResult ρ) :=
  match st.remoteFinalLsn with
  | none =>
    noTransaction s!"Transaction must be active before processing {messageName} message"
  | some remoteFinalLsn => do
    let (txOrdinal, st) := st.takeTxOrdinal
    if ← ans.shouldApplyChanges relId then
      let schema ← ans.rowSchema relId
      ans.decodeRow
      .ok (st, .returnEvent ⟨startLsn, remoteFinalLsn, txOrdinal, .row kind schema image⟩)
    else .ok (st, .noEvent)

/-- Handles `INSERT`. -/
def handleInsertMessage (ans : MessageAnswers) (startLsn : PgLsn) (relId : TableId) (image : ρ)
    (st : ApplyLoopState ρ) : EtlResult (ApplyLoopState ρ × HandleMessageResult ρ) :=
  handleRowMessage "INSERT" .insert ans startLsn relId image st

/-- Handles `UPDATE`. -/
def handleUpdateMessage (ans : MessageAnswers) (startLsn : PgLsn) (relId : TableId) (image : ρ)
    (st : ApplyLoopState ρ) : EtlResult (ApplyLoopState ρ × HandleMessageResult ρ) :=
  handleRowMessage "UPDATE" .update ans startLsn relId image st

/-- Handles `DELETE`. -/
def handleDeleteMessage (ans : MessageAnswers) (startLsn : PgLsn) (relId : TableId) (image : ρ)
    (st : ApplyLoopState ρ) : EtlResult (ApplyLoopState ρ × HandleMessageResult ρ) :=
  handleRowMessage "DELETE" .delete ans startLsn relId image st

/-- The schemas of the truncated tables this worker owns. -/
def ownedTruncatedTables (ans : MessageAnswers) :
    List TableId → EtlResult (List ReplicatedTableSchema)
  | [] => .ok []
  | relId :: relIds => do
    if ← ans.shouldApplyChanges relId then
      let schema ← ans.rowSchema relId
      let schemas ← ownedTruncatedTables ans relIds
      .ok (schema :: schemas)
    else ownedTruncatedTables ans relIds

/-- Handles `TRUNCATE`: one event for the owned tables, none if there are none. -/
def handleTruncateMessage (ans : MessageAnswers) (startLsn : PgLsn) (relIds : List TableId)
    (st : ApplyLoopState ρ) : EtlResult (ApplyLoopState ρ × HandleMessageResult ρ) :=
  match st.remoteFinalLsn with
  | none => noTransaction "Transaction must be active before processing TRUNCATE message"
  | some remoteFinalLsn => do
    let (txOrdinal, st) := st.takeTxOrdinal
    let truncatedTables ← ownedTruncatedTables ans relIds
    if truncatedTables.isEmpty then .ok (st, .noEvent)
    else
      .ok (st, .returnEvent ⟨startLsn, remoteFinalLsn, txOrdinal, .truncate truncatedTables⟩)

/-- Handles a logical message. A schema change of an owned table is stored under the message
position; it consumes no ordinal and yields no event. -/
def handleMessage (ans : MessageAnswers) (startLsn : PgLsn) (tag : String)
    (content : EtlResult SchemaChangeMessage) (st : ApplyLoopState ρ) :
    EtlResult (ApplyLoopState ρ × HandleMessageResult ρ) :=
  if tag ≠ ddlMessageTag then .ok (st, .noEvent)
  else
    match st.remoteFinalLsn with
    | none =>
      noTransaction ("DDL schema change messages must be transactional (transactional=true). " ++
        "Received a DDL message outside of a transaction boundary.")
    | some _ => do
      let change ← content
      if ← ans.shouldApplyChanges change.oid then
        ans.storeTableSchema (change.intoTableSchema startLsn)
        .ok (st, .noEvent)
      else .ok (st, .noEvent)

/-- Dispatches a message to its handler. -/
def handleLogicalReplicationMessage (ans : MessageAnswers) (startLsn : PgLsn)
    (message : LogicalReplicationMessage ρ) (st : ApplyLoopState ρ) :
    EtlResult (ApplyLoopState ρ × HandleMessageResult ρ) :=
  match message with
  | .begin finalLsn => .ok (handleBeginMessage startLsn finalLsn st)
  | .commit commitLsn endLsn => handleCommitMessage ans startLsn commitLsn endLsn st
  | .relation relId columns => handleRelationMessage ans startLsn relId columns st
  | .row .insert relId image => handleInsertMessage ans startLsn relId image st
  | .row .update relId image => handleUpdateMessage ans startLsn relId image st
  | .row .delete relId image => handleDeleteMessage ans startLsn relId image st
  | .truncate relIds => handleTruncateMessage ans startLsn relIds st
  | .message tag content => handleMessage ans startLsn tag content st
  | .origin | .type => .ok (st, .noEvent)

/-- Takes over the event of a handled message: it enters the batch, raises the last commit
end and arms the flush deadline. -/
def ApplyLoopState.collect (st : ApplyLoopState ρ) (result : HandleMessageResult ρ)
    (sizeHint : ℕ) : ApplyLoopState ρ :=
  match result.event with
  | none => st
  | some event =>
    ((st.addEventToBatch event sizeHint).updateLastCommitEndLsn
      result.endLsn).setFlushDeadlineIfNeeded

/-- Collecting an event touches the buffers only. -/
theorem ApplyLoopState.collect_eq (st : ApplyLoopState ρ) (result : HandleMessageResult ρ)
    (sizeHint : ℕ) :
    ∃ eventsBatch eventsBatchBytes lastCommitEndLsn flushDeadlineArmed,
      st.collect result sizeHint = { st with
        eventsBatch, eventsBatchBytes, lastCommitEndLsn, flushDeadlineArmed } := by
  unfold ApplyLoopState.collect
  cases result.event with
  | none => exact ⟨_, _, _, _, rfl⟩
  | some event =>
    cases result.endLsn with
    | none =>
      simp only [updateLastCommitEndLsn_none]
      exact ⟨_, _, _, _, rfl⟩
    | some endLsn =>
      obtain ⟨c, hcommitEnd, -⟩ :=
        (st.addEventToBatch event sizeHint).updateLastCommitEndLsn_some endLsn
      simp only [hcommitEnd]
      exact ⟨_, _, _, _, rfl⟩

theorem ApplyLoopState.collect_frame (st : ApplyLoopState ρ) (result : HandleMessageResult ρ)
    (sizeHint : ℕ) :
    (st.collect result sizeHint).remoteFinalLsn = st.remoteFinalLsn ∧
      (st.collect result sizeHint).replicationProgress = st.replicationProgress := by
  obtain ⟨_, _, _, _, heq⟩ := st.collect_eq result sizeHint
  rw [heq]
  exact ⟨rfl, rfl⟩

/-- Takes over the result of a handled message and flushes if the batch is full or should
end. -/
def collectAndFlush (st : ApplyLoopState ρ) (result : HandleMessageResult ρ)
    (sizeHint batchSizeBytes : ℕ) (writeEvents : EtlResult Unit) :
    EtlResult (ApplyLoopState ρ) :=
  let st := st.collect result sizeHint
  if batchSizeBytes ≤ st.eventsBatchBytes || result.endBatch then st.flushBatch writeEvents
  else .ok st

/-- A successful collection is the collected state, possibly after a flush attempt. -/
theorem collectAndFlush_cases {st st' : ApplyLoopState ρ} {result : HandleMessageResult ρ}
    (h : collectAndFlush st result sizeHint batchSizeBytes writeEvents = .ok st') :
    st' = st.collect result sizeHint ∨
      (st.collect result sizeHint).flushBatch writeEvents = .ok st' := by
  unfold collectAndFlush at h
  simp only at h
  split_ifs at h
  · exact .inr h
  · exact .inl (Except.ok.inj h).symm

theorem collectAndFlush_frame {st st' : ApplyLoopState ρ} {result : HandleMessageResult ρ}
    (h : collectAndFlush st result sizeHint batchSizeBytes writeEvents = .ok st') :
    st'.remoteFinalLsn = st.remoteFinalLsn ∧ st'.nextTxOrdinal = st.nextTxOrdinal ∧
      st'.exitIntent = st.exitIntent ∧ st'.replicationProgress = st.replicationProgress := by
  obtain ⟨_, _, _, _, heq⟩ := st.collect_eq result sizeHint
  rcases collectAndFlush_cases h with rfl | hflush
  · rw [heq]
    exact ⟨rfl, rfl, rfl, rfl⟩
  · rw [heq] at hflush
    obtain ⟨_, _, _, _, _, _, rfl⟩ := ApplyLoopState.flushBatch_eq hflush
    exact ⟨rfl, rfl, rfl, rfl⟩

/-! ## What a handler can do -/

/-- A message of an open transaction other than `BEGIN` and `COMMIT`. -/
def LogicalReplicationMessage.isInner : LogicalReplicationMessage ρ → Bool
  | .begin _ | .commit _ _ => false
  | _ => true

/-- Whether handling the message takes an ordinal of its transaction. -/
def LogicalReplicationMessage.consumesOrdinal : LogicalReplicationMessage ρ → Bool
  | .begin _ | .commit _ _ | .relation _ _ | .row _ _ _ | .truncate _ => true
  | .message _ _ | .origin | .type => false

/-- The outcome of an inner message: at most the ordinal counter moves, the result neither
ends a transaction nor the batch, and an event belongs to the open transaction and carries
the ordinal taken. -/
structure InnerOutcome (startLsn : PgLsn) (consumes : Bool) (st st' : ApplyLoopState ρ)
    (result : HandleMessageResult ρ) : Prop where
  state_eq : st' = if consumes then st.takeTxOrdinal.2 else st
  endLsn_eq : result.endLsn = none
  endBatch_eq : result.endBatch = false
  event_open : ∀ event, result.event = some event →
    consumes = true ∧ st.remoteFinalLsn = some event.commitLsn ∧ event.startLsn = startLsn ∧
      event.txOrdinal = st.nextTxOrdinal

variable {ans : MessageAnswers} {startLsn : PgLsn} {st st' : ApplyLoopState ρ}
  {result : HandleMessageResult ρ} {relId : TableId}

theorem InnerOutcome.exists_ordinal {consumes : Bool}
    (h : InnerOutcome startLsn consumes st st' result) :
    ∃ ordinal, st' = { st with nextTxOrdinal := ordinal } := by
  rw [h.state_eq]
  cases consumes with
  | true => exact ⟨_, rfl⟩
  | false => exact ⟨st.nextTxOrdinal, rfl⟩

theorem InnerOutcome.noEvent (startLsn : PgLsn) (consumes : Bool) (st : ApplyLoopState ρ) :
    InnerOutcome startLsn consumes st (if consumes then st.takeTxOrdinal.2 else st) .noEvent :=
  ⟨rfl, rfl, rfl, by simp [HandleMessageResult.noEvent]⟩

theorem InnerOutcome.returnEvent {remoteFinalLsn : PgLsn}
    (hopen : st.remoteFinalLsn = some remoteFinalLsn) (body : EventBody ρ) :
    InnerOutcome startLsn true st st.takeTxOrdinal.2
      (.returnEvent ⟨startLsn, remoteFinalLsn, st.nextTxOrdinal, body⟩) := by
  refine ⟨rfl, rfl, rfl, ?_⟩
  intro event hevent
  cases hevent
  exact ⟨rfl, hopen, rfl, rfl⟩

theorem handleRelationMessage_outcome {columns : List RelationColumn}
    (h : handleRelationMessage ans startLsn relId columns st = .ok (st', result)) :
    InnerOutcome startLsn true st st' result := by
  unfold handleRelationMessage at h
  split at h
  · simp [noTransaction] at h
  next remoteFinalLsn hopen =>
    obtain ⟨owned, -, h⟩ := bind_eq_ok_iff.mp h
    split at h
    · obtain ⟨schema, -, h⟩ := bind_eq_ok_iff.mp h
      cases h
      exact .returnEvent hopen _
    · cases h
      exact .noEvent _ _ _

theorem handleRowMessage_outcome {messageName : String} {kind : RowKind} {image : ρ}
    (h : handleRowMessage messageName kind ans startLsn relId image st = .ok (st', result)) :
    InnerOutcome startLsn true st st' result := by
  unfold handleRowMessage at h
  split at h
  · simp [noTransaction] at h
  next remoteFinalLsn hopen =>
    obtain ⟨owned, -, h⟩ := bind_eq_ok_iff.mp h
    split at h
    · obtain ⟨schema, -, h⟩ := bind_eq_ok_iff.mp h
      obtain ⟨-, -, h⟩ := bind_eq_ok_iff.mp h
      cases h
      exact .returnEvent hopen _
    · cases h
      exact .noEvent _ _ _

theorem handleTruncateMessage_outcome {relIds : List TableId}
    (h : handleTruncateMessage ans startLsn relIds st = .ok (st', result)) :
    InnerOutcome startLsn true st st' result := by
  unfold handleTruncateMessage at h
  split at h
  · simp [noTransaction] at h
  next remoteFinalLsn hopen =>
    obtain ⟨truncatedTables, -, h⟩ := bind_eq_ok_iff.mp h
    split at h
    · cases h
      exact .noEvent _ _ _
    · cases h
      exact .returnEvent hopen _

theorem handleMessage_outcome {tag : String} {content : EtlResult SchemaChangeMessage}
    (h : handleMessage ans startLsn tag content st = .ok (st', result)) :
    st' = st ∧ result = .noEvent := by
  unfold handleMessage at h
  split at h
  · cases h
    exact ⟨rfl, rfl⟩
  · split at h
    · simp [noTransaction] at h
    · obtain ⟨change, -, h⟩ := bind_eq_ok_iff.mp h
      obtain ⟨owned, -, h⟩ := bind_eq_ok_iff.mp h
      split at h
      · obtain ⟨-, -, h⟩ := bind_eq_ok_iff.mp h
        cases h
        exact ⟨rfl, rfl⟩
      · cases h
        exact ⟨rfl, rfl⟩

/-- Every inner message has the outcome of one. -/
theorem handleLogicalReplicationMessage_outcome {message : LogicalReplicationMessage ρ}
    (hinner : message.isInner = true)
    (h : handleLogicalReplicationMessage ans startLsn message st = .ok (st', result)) :
    InnerOutcome startLsn message.consumesOrdinal st st' result := by
  cases message with
  | begin finalLsn | commit commitLsn endLsn => simp [LogicalReplicationMessage.isInner] at hinner
  | relation relId columns => exact handleRelationMessage_outcome h
  | row kind relId image => cases kind <;> exact handleRowMessage_outcome h
  | truncate relIds => exact handleTruncateMessage_outcome h
  | message tag content =>
    obtain ⟨rfl, rfl⟩ := handleMessage_outcome h
    exact .noEvent _ _ _
  | origin | type =>
    cases h
    exact .noEvent _ _ _

end Etl
