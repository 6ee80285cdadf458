import Etl.Replication.ApplyLoop

/-! # What a step of the apply loop does

The inversion lemma of this file says once what each input of the loop can do, together with the
session it leaves; arguments about whole runs case on it instead of unfolding the loop. For its
transactions this means that an input either leaves the open transaction and the produced events
alone, or handles one message of the stream.

Reference: `etl/src/replication/apply.rs` (`run_active_iteration`).
-/

namespace Etl

open List

variable {ρ : Type} {w w' : WalSender}

/-- The message of the output plugin an input carries. -/
def LoopInput.data? : LoopInput ρ → Option (LogicalReplicationMessage ρ)
  | .message (.xLogData _ _ data) _ _ _ _ _ => some data
  | _ => none

/-- Whether the loop neither waits for the commit hook nor has failed. -/
def LoopPoint.isPlain : LoopPoint → Bool
  | .inCommit _ _ _ | .failed _ => false
  | _ => true

/-- Postgres never takes back a position. -/
theorem WalSender.sentUpTo_le {message : ReplicationMessage ρ} (h : w.send message = some w') :
    w.sentUpTo ≤ w'.sentUpTo := by
  cases message with
  | primaryKeepAlive walEnd replyRequested =>
    cases h
    exact le_max_left _ _
  | xLogData walStart walEnd data =>
    simp only [WalSender.send] at h
    split_ifs at h
    split at h
    · split_ifs at h
      cases h
      exact le_max_left _ _
    · split_ifs at h
      cases h
      exact le_max_left _ _
    · cases h
      exact le_max_left _ _

theorem WalSender.openCommit_of_inner {walStart walEnd : PgLsn} {data : LogicalReplicationMessage ρ}
    (hinner : data.isInner = true) (h : w.send (.xLogData walStart walEnd data) = some w') :
    w'.openCommit = w.openCommit := by
  simp only [WalSender.send] at h
  split_ifs at h
  cases data with
  | begin finalLsn | commit commitLsn endLsn => simp [LogicalReplicationMessage.isInner] at hinner
  | _ =>
    cases h
    rfl

/-- Whether an input only runs the idle hook, sends a report or signals a shutdown. -/
def LoopInput.isQuiet : LoopInput ρ → Bool
  | .idle _ | .keepAliveDeadline | .shutdown => true
  | _ => false

/-- Whether the loop waits for no hook and has not failed. -/
def LoopPoint.isResting : LoopPoint → Bool
  | .inCommit _ _ _ | .inFlush _ | .failed _ => false
  | _ => true

theorem LoopPoint.isPlain_of_isResting {point : LoopPoint} (h : point.isResting = true) :
    point.isPlain = true := by
  cases point <;> first | rfl | cases h

namespace Session

/-! ## The kinds of steps -/

/-- Whether the idle hook runs at the point the loop is at. -/
def runsIdleHook (s : Session ρ) : Bool :=
  s.state.exitIntent.isNone && s.state.isIdle &&
    match s.point with
    | .preflight => !s.state.shutdownState.isRequested
    | .epilogue => true
    | _ => false

/-- The exit that a quiet input asks for. -/
def asked (s : Session ρ) : LoopInput ρ → Option ExitIntent
  | .idle exitIntent => if s.runsIdleHook then exitIntent else none
  | .shutdown => some .pause
  | _ => none

/-- What a quiet input leaves: the exit is recorded and a report may be sent. -/
def rest (s : Session ρ) (input : LoopInput ρ) (reported : Bool) (shutdownState : ShutdownState)
    (point : LoopPoint) : Session ρ :=
  let s := { s with state := s.state.recordExitIntent (s.asked input) }
  let s := if reported then s.sendStatusUpdate true false else s
  { s with state := { s.state with shutdownState }, point }

/-- The session in which a data message of Postgres is handled. -/
def receiveData (s : Session ρ) (sender : WalSender) (walStart walEnd : PgLsn) : Session ρ :=
  (receive { s with sender } walStart).receive walEnd

/-- The session that has received and answered a keepalive message. -/
def receiveKeepAlive (s : Session ρ) (sender : WalSender) (walEnd : PgLsn)
    (replyRequested withinInterval : Bool) : Session ρ :=
  (receive { s with sender } walEnd).sendStatusUpdate replyRequested withinInterval

/-- The events of a flush are acknowledged. -/
def acknowledge (s : Session ρ) (acked : List (Event ρ)) : Session ρ :=
  { s with state := s.state.resumeProcessing, acked := s.acked ++ acked }

/-- What a step of the loop can do, with the session it leaves. -/
inductive LoopStep (s : Session ρ) : LoopInput ρ → Session ρ → Prop
  /-- The loop returns only when no work is left. -/
  | quiet {input : LoopInput ρ} (reported : Bool) (shutdownState : ShutdownState)
      (point : LoopPoint) :
      input.isQuiet = true → s.point.isResting = true → point.isResting = true →
      (∀ result, point = .finished result → s.state.hasUnresolvedBatchWork = false ∧
        (s.state.recordExitIntent (s.asked input)).exitResult.getD .paused = result) →
      s.LoopStep input (s.rest input reported shutdownState point)
  | fail (error : EtlError) : s.LoopStep (.fail error) { s with point := .failed error }
  | keepAlive (sender : WalSender) {walEnd : PgLsn} {replyRequested : Bool}
      {ans : MessageAnswers} {sizeHint batchSizeBytes : ℕ} {writeEvents : EtlResult Unit}
      {withinInterval : Bool} :
      s.point = .select →
      s.sender.send (ρ := ρ) (.primaryKeepAlive walEnd replyRequested) = some sender →
      s.LoopStep (.message (.primaryKeepAlive walEnd replyRequested) ans sizeHint batchSizeBytes
          writeEvents withinInterval)
        ((s.receiveKeepAlive sender walEnd replyRequested withinInterval).takeResult
          (s.receiveKeepAlive sender walEnd replyRequested withinInterval).state .noEvent sizeHint
          batchSizeBytes writeEvents)
  /-- The handler of a message fails. -/
  | refused (sender : WalSender) {walStart walEnd : PgLsn} {data : LogicalReplicationMessage ρ}
      {ans : MessageAnswers} {sizeHint batchSizeBytes : ℕ} {writeEvents : EtlResult Unit}
      {withinInterval : Bool} (error : EtlError) :
      s.point = .select → s.sender.send (.xLogData walStart walEnd data) = some sender →
      ((∀ a b, data ≠ .commit a b) → handleLogicalReplicationMessage ans walStart data
        (s.receiveData sender walStart walEnd).state = .error error) →
      s.LoopStep (.message (.xLogData walStart walEnd data) ans sizeHint batchSizeBytes
          writeEvents withinInterval)
        { s.receiveData sender walStart walEnd with point := .failed error }
  /-- A message other than `COMMIT` is handled. -/
  | handled (sender : WalSender) {walStart walEnd : PgLsn} {data : LogicalReplicationMessage ρ}
      {ans : MessageAnswers} {sizeHint batchSizeBytes : ℕ} {writeEvents : EtlResult Unit}
      {withinInterval : Bool} (state : ApplyLoopState ρ) (result : HandleMessageResult ρ) :
      s.point = .select → (∀ a b, data ≠ .commit a b) →
      s.sender.send (.xLogData walStart walEnd data) = some sender →
      handleLogicalReplicationMessage ans walStart data
        (s.receiveData sender walStart walEnd).state = .ok (state, result) →
      s.LoopStep (.message (.xLogData walStart walEnd data) ans sizeHint batchSizeBytes
          writeEvents withinInterval)
        ((s.receiveData sender walStart walEnd).takeResult state result sizeHint batchSizeBytes
          writeEvents)
  /-- A `COMMIT` closes the transaction and the loop waits for the commit hook. -/
  | commitBegun (sender : WalSender) {walStart walEnd commitLsn endLsn : PgLsn}
      {ans : MessageAnswers} {sizeHint batchSizeBytes : ℕ} {writeEvents : EtlResult Unit}
      {withinInterval : Bool} :
      s.point = .select →
      s.sender.send (ρ := ρ) (.xLogData walStart walEnd (.commit commitLsn endLsn))
        = some sender →
      s.state.remoteFinalLsn = some commitLsn →
      s.LoopStep (.message (.xLogData walStart walEnd (.commit commitLsn endLsn)) ans sizeHint
          batchSizeBytes writeEvents withinInterval)
        { s.receiveData sender walStart walEnd with
          state := { (s.receiveData sender walStart walEnd).state with remoteFinalLsn := none }
          point := .inCommit walStart commitLsn endLsn }
  | commitEnded {startLsn commitLsn endLsn : PgLsn} {exitIntent : Option ExitIntent}
      {sizeHint batchSizeBytes : ℕ} {writeEvents : EtlResult Unit} :
      s.point = .inCommit startLsn commitLsn endLsn →
      s.LoopStep (.commitHook exitIntent sizeHint batchSizeBytes writeEvents)
        (s.takeResult (finishCommitMessage startLsn commitLsn endLsn exitIntent s.state).1
          (finishCommitMessage startLsn commitLsn endLsn exitIntent s.state).2 sizeHint
          batchSizeBytes writeEvents)
  /-- A flush fails, or its commit cannot be stored. -/
  | flushFailed {pending : PendingFlush ρ} {result upsert writeEvents : EtlResult Unit}
      (acked : List (Event ρ)) (error : EtlError) :
      s.point = .select → s.state.pendingFlushResult = some pending →
      (result = .ok () → pending.commitEndLsn ≠ none) →
      s.LoopStep (.flushResult result upsert writeEvents)
        { s.acknowledge acked with point := .failed error }
  /-- A batch without a commit is flushed. -/
  | acknowledged {pending : PendingFlush ρ} {upsert writeEvents : EtlResult Unit} :
      s.point = .select → s.state.pendingFlushResult = some pending →
      pending.commitEndLsn = none →
      s.LoopStep (.flushResult (.ok ()) upsert writeEvents)
        ((s.acknowledge pending.events).retryQueuedFlush s.state.processingPaused writeEvents)
  /-- A batch with a commit is flushed and the loop waits for the flush hook. -/
  | persisted {pending : PendingFlush ρ} {commitEndLsn : PgLsn} {writeEvents : EtlResult Unit} :
      s.point = .select → s.state.pendingFlushResult = some pending →
      pending.commitEndLsn = some commitEndLsn →
      s.LoopStep (.flushResult (.ok ()) (.ok ()) writeEvents)
        (s.handleFlushResult pending (.ok ()) (.ok ()) writeEvents)
  | flushHook {paused : Bool} {exitIntent : Option ExitIntent} {writeEvents : EtlResult Unit} :
      s.point = .inFlush paused →
      s.LoopStep (.flushHook exitIntent writeEvents) (s.finishFlush paused exitIntent writeEvents)
  | flushDeadline {writeEvents : EtlResult Unit} :
      s.point = .select → s.state.flushDeadlineArmed = true →
      s.LoopStep (.flushDeadline writeEvents) (s.retryQueuedFlush true writeEvents)

variable {s s' : Session ρ} {input : LoopInput ρ} {point : LoopPoint} {s₁ : Session ρ}
  {exitIntent : Option ExitIntent} {data : LogicalReplicationMessage ρ}
  {message : ReplicationMessage ρ} {ans : MessageAnswers} {state state' : ApplyLoopState ρ}
  {result : HandleMessageResult ρ} {walStart : PgLsn}

/-- A quiet input touches the requested exit, the shutdown state and the reports only. -/
theorem rest_eq (s : Session ρ) (input : LoopInput ρ) (reported : Bool)
    (shutdownState : ShutdownState) (point : LoopPoint) :
    ∃ exitIntent stream reports,
      s.rest input reported shutdownState point
        = { s with state := { s.state with exitIntent, shutdownState }, stream, reports, point } ∧
      exitIntent = (s.state.recordExitIntent (s.asked input)).exitIntent ∧
      s.reports <+: reports := by
  obtain ⟨exitIntent, heq⟩ := s.state.recordExitIntent_eq (s.asked input)
  unfold rest
  rw [heq]
  cases reported with
  | false => exact ⟨exitIntent, s.stream, s.reports, rfl, rfl, prefix_rfl⟩
  | true => exact ⟨exitIntent, _, _, rfl, rfl, prefix_append _ _⟩

/-- The end of an iteration without a shutdown. -/
theorem loopStep_tryFinishOr (hrests : s.point.isResting = true)
    (hs₁ : s₁ = { s with state := s.state.recordExitIntent (s.asked (.idle exitIntent)) })
    (hpoint : point.isResting = true) (hgoes : ∀ result, point ≠ .finished result) :
    s.LoopStep (.idle exitIntent) (s₁.tryFinishOr point) := by
  obtain ⟨exitIntent', heq⟩ := s.state.recordExitIntent_eq (s.asked (.idle exitIntent))
  have hstep : ∀ point, { s₁ with point }
      = s.rest (.idle exitIntent) false s.state.shutdownState point := by
    intro point
    rw [hs₁, rest, heq]
    rfl
  unfold tryFinishOr ApplyLoopState.tryFinishActiveIteration
  split
  next result hresult =>
    split_ifs at hresult with hwork
    simp only [Bool.or_eq_true, not_or, Bool.not_eq_true] at hwork
    rw [hstep]
    refine .quiet false _ _ rfl hrests rfl ?_
    intro result' hresult'
    obtain rfl := LoopPoint.finished.inj hresult'
    have hwork' := hwork.2
    rw [hs₁] at hresult hwork'
    refine ⟨?_, by rw [hresult, Option.getD_some]⟩
    rwa [heq] at hwork'
  next =>
    rw [hstep]
    exact .quiet false _ _ rfl hrests hpoint fun result h => absurd h (hgoes result)

/-- The end of an iteration while the loop drains. -/
theorem loopStep_finishDrainOr (hrests : s.point.isResting = true)
    (hs₁ : s₁ = { s with state := s.state.recordExitIntent (s.asked (.idle exitIntent)) })
    (hpoint : point.isResting = true) (hgoes : ∀ result, point ≠ .finished result) :
    s.LoopStep (.idle exitIntent) (s₁.finishDrainOr point) := by
  obtain ⟨exitIntent', heq⟩ := s.state.recordExitIntent_eq (s.asked (.idle exitIntent))
  unfold finishDrainOr
  split_ifs with hwork
  · have hstep : { s₁ with point }
        = s.rest (.idle exitIntent) false s.state.shutdownState point := by
      rw [hs₁, rest, heq]
      rfl
    rw [hstep]
    exact .quiet false _ _ rfl hrests hpoint fun result h => absurd h (hgoes result)
  · have hstep : { s₁.initiateGracefulShutdown with
        point := .finished s₁.initiateGracefulShutdown.state.finishShutdown }
          = s.rest (.idle exitIntent) true .noShutdown (.finished s₁.state.finishShutdown) := by
      rw [hs₁]
      rfl
    simp only [hstep]
    refine .quiet true _ _ rfl hrests rfl ?_
    intro result hresult
    obtain rfl := LoopPoint.finished.inj hresult
    rw [Bool.not_eq_true, hs₁, heq] at hwork
    exact ⟨hwork, by rw [hs₁]; rfl⟩

/-- The idle hook records the exit it asks for. -/
theorem maybeProcessSyncingTablesWhenIdle_eq
    (hruns : s.runsIdleHook = (s.state.exitIntent.isNone && s.state.isIdle))
    (exitIntent : Option ExitIntent) :
    s.maybeProcessSyncingTablesWhenIdle exitIntent
      = { s with state := s.state.recordExitIntent (s.asked (.idle exitIntent)) } := by
  unfold maybeProcessSyncingTablesWhenIdle asked
  rw [hruns]
  split_ifs <;> rfl

theorem loopStep_preflight (hpoint : s.point = .preflight) (exitIntent : Option ExitIntent) :
    s.LoopStep (.idle exitIntent) (s.preflight exitIntent) := by
  have hrests : s.point.isResting = true := by rw [hpoint]; rfl
  unfold preflight
  split
  next hshutdown =>
    have hruns : s.runsIdleHook = (s.state.exitIntent.isNone && s.state.isIdle) := by
      simp [runsIdleHook, hpoint, hshutdown, ShutdownState.isRequested]
    exact loopStep_tryFinishOr hrests (maybeProcessSyncingTablesWhenIdle_eq hruns exitIntent) rfl
      (by simp)
  next hshutdown =>
    have hasked : s.asked (.idle exitIntent) = none := by
      simp [asked, runsIdleHook, hpoint, hshutdown, ShutdownState.isRequested]
    exact loopStep_finishDrainOr hrests (by rw [hasked]; rfl) rfl (by simp)

theorem loopStep_epilogue (hpoint : s.point = .epilogue) (exitIntent : Option ExitIntent) :
    s.LoopStep (.idle exitIntent) (s.epilogue exitIntent) := by
  have hrests : s.point.isResting = true := by rw [hpoint]; rfl
  have hruns : s.runsIdleHook = (s.state.exitIntent.isNone && s.state.isIdle) := by
    simp [runsIdleHook, hpoint]
  have hhook := maybeProcessSyncingTablesWhenIdle_eq hruns exitIntent
  unfold epilogue
  simp only
  split
  · exact loopStep_tryFinishOr hrests hhook rfl (by simp)
  · exact loopStep_finishDrainOr hrests hhook rfl (by simp)

theorem loopStep_shutdown (hpoint : s.point = .select) :
    s.LoopStep .shutdown s.handleShutdownSignal := by
  have hrests : s.point.isResting = true := by rw [hpoint]; rfl
  unfold handleShutdownSignal
  simp only
  split_ifs
  · exact .quiet false .drainingForShutdown .epilogue rfl hrests rfl (by simp)
  · exact .quiet true .noShutdown .epilogue rfl hrests rfl (by simp)

theorem beginCommitMessage_eq {commitLsn : PgLsn} {st st' : ApplyLoopState ρ}
    (h : beginCommitMessage commitLsn st = .ok st') :
    st.remoteFinalLsn = some commitLsn ∧ st' = { st with remoteFinalLsn := none } := by
  unfold beginCommitMessage at h
  split at h
  · simp [noTransaction] at h
  next remoteFinalLsn hopen =>
    split_ifs at h with hne
    · simp at h
    · exact ⟨by rw [hopen, not_not.mp hne], (Except.ok.inj h).symm⟩

/-- The session a data message other than `COMMIT` is handled in, and what comes of it. -/
theorem handleReplicationMessage_data {walStart walEnd : PgLsn} (hdata : ∀ a b, data ≠ .commit a b)
    (s : Session ρ) (ans : MessageAnswers) (sizeHint batchSizeBytes : ℕ)
    (writeEvents : EtlResult Unit) (withinInterval : Bool) :
    s.handleReplicationMessage (.xLogData walStart walEnd data) ans sizeHint batchSizeBytes
        writeEvents withinInterval
      = match handleLogicalReplicationMessage ans walStart data
          ((s.receive walStart).receive walEnd).state with
        | .error error => { (s.receive walStart).receive walEnd with point := .failed error }
        | .ok (state, result) => ((s.receive walStart).receive walEnd).takeResult state result
            sizeHint batchSizeBytes writeEvents := by
  cases data with
  | commit commitLsn endLsn => exact absurd rfl (hdata commitLsn endLsn)
  | _ => rfl

theorem loopStep_message {sender : WalSender} (hpoint : s.point = .select)
    (hsend : s.sender.send message = some sender) (ans : MessageAnswers)
    (sizeHint batchSizeBytes : ℕ) (writeEvents : EtlResult Unit) (withinInterval : Bool) :
    s.LoopStep (.message message ans sizeHint batchSizeBytes writeEvents withinInterval)
      ({ s with sender }.handleReplicationMessage message ans sizeHint batchSizeBytes writeEvents
        withinInterval) := by
  cases message with
  | primaryKeepAlive walEnd replyRequested => exact .keepAlive sender hpoint hsend
  | xLogData walStart walEnd data =>
    by_cases hdata : ∀ a b, data ≠ .commit a b
    · rw [handleReplicationMessage_data hdata]
      split
      next error hhandle => exact .refused sender error hpoint hsend fun _ => hhandle
      next state result hhandle => exact .handled sender state result hpoint hdata hsend hhandle
    · push Not at hdata
      obtain ⟨commitLsn, endLsn, rfl⟩ := hdata
      simp only [handleReplicationMessage]
      cases hcommit : beginCommitMessage commitLsn
          ((receive { s with sender } walStart).receive walEnd).state with
      | error error =>
        exact .refused sender error hpoint hsend fun h => absurd rfl (h commitLsn endLsn)
      | ok state =>
        obtain ⟨hopen, rfl⟩ := beginCommitMessage_eq hcommit
        exact .commitBegun sender hpoint hsend hopen

theorem loopStep_flushResult {pending : PendingFlush ρ} (hpoint : s.point = .select)
    (hpending : s.state.pendingFlushResult = some pending)
    (result upsert writeEvents : EtlResult Unit) :
    s.LoopStep (.flushResult result upsert writeEvents)
      (s.handleFlushResult pending result upsert writeEvents) := by
  cases result with
  | error error =>
    have hstep : s.handleFlushResult pending (.error error) upsert writeEvents
        = { s.acknowledge [] with point := .failed error } := by
      simp [handleFlushResult, acknowledge]
    rw [hstep]
    exact .flushFailed [] error hpoint hpending (by simp)
  | ok _ =>
    cases hcommit : pending.commitEndLsn with
    | none =>
      simp only [handleFlushResult, hcommit]
      exact .acknowledged hpoint hpending hcommit
    | some commitEndLsn =>
      cases upsert with
      | error error =>
        simp only [handleFlushResult, hcommit]
        exact .flushFailed pending.events error hpoint hpending (by simp [hcommit])
      | ok _ => exact .persisted hpoint hpending hcommit

/-- Every step of the loop is of one of these kinds. -/
theorem loopStep_of_next (hnext : s.next input = some s') : s.LoopStep input s' := by
  unfold Session.next at hnext
  split at hnext
  next exitIntent hpoint =>
    cases hnext
    exact loopStep_preflight hpoint exitIntent
  next exitIntent hpoint =>
    cases hnext
    exact loopStep_epilogue hpoint exitIntent
  next hpoint =>
    split_ifs at hnext
    cases hnext
    exact loopStep_shutdown hpoint
  next hpoint =>
    split_ifs at hnext
    obtain ⟨sender, hsend, rfl⟩ := Option.map_eq_some_iff.mp hnext
    exact loopStep_message hpoint hsend _ _ _ _ _
  next hpoint =>
    obtain ⟨pending, hpending, rfl⟩ := Option.map_eq_some_iff.mp hnext
    exact loopStep_flushResult hpoint hpending _ _ _
  next hpoint =>
    split_ifs at hnext with hdeadline
    cases hnext
    exact .flushDeadline hpoint (Bool.and_eq_true_iff.mp hdeadline).2
  next hpoint =>
    cases hnext
    exact .quiet true s.state.shutdownState .epilogue rfl (by rw [hpoint]; rfl) rfl (by simp)
  next hpoint =>
    cases hnext
    exact .commitEnded hpoint
  next hpoint =>
    cases hnext
    exact .flushHook hpoint
  next =>
    split_ifs at hnext
    cases hnext
    exact .fail _
  next => exact absurd hnext (by simp)

/-! ## Messages -/

theorem recordEvent_frame (s : Session ρ) (result : HandleMessageResult ρ) :
    (s.recordEvent result).state = s.state ∧ (s.recordEvent result).sender = s.sender := by
  unfold Session.recordEvent
  cases result.event with
  | none => exact ⟨rfl, rfl⟩
  | some event => cases result.endLsn <;> exact ⟨rfl, rfl⟩

theorem takeResult_cases (s : Session ρ) (state : ApplyLoopState ρ)
    (result : HandleMessageResult ρ) (sizeHint batchSizeBytes : ℕ)
    (writeEvents : EtlResult Unit) :
    (∃ error, s.takeResult state result sizeHint batchSizeBytes writeEvents
        = { s.recordEvent result with point := .failed error }) ∨
      ∃ state', collectAndFlush state result sizeHint batchSizeBytes writeEvents = .ok state' ∧
        s.takeResult state result sizeHint batchSizeBytes writeEvents
          = { s.recordEvent result with state := state', point := .epilogue } := by
  unfold takeResult continueWith
  cases hcollect : collectAndFlush state result sizeHint batchSizeBytes writeEvents with
  | error error => exact .inl ⟨error, rfl⟩
  | ok state' => exact .inr ⟨state', rfl, rfl⟩

theorem retryQueuedFlush_cases (s : Session ρ) (due : Bool) (writeEvents : EtlResult Unit) :
    (∃ error, s.retryQueuedFlush due writeEvents = { s with point := .failed error }) ∨
      ∃ state, (state = s.state ∨ s.state.flushBatch writeEvents = .ok state) ∧
        s.retryQueuedFlush due writeEvents = { s with state, point := .epilogue } := by
  unfold retryQueuedFlush continueWith
  split_ifs
  · cases hflush : s.state.flushBatch writeEvents with
    | error error => exact .inl ⟨error, rfl⟩
    | ok state => exact .inr ⟨state, .inr rfl, rfl⟩
  · exact .inr ⟨s.state, .inl rfl, rfl⟩

/-- A message other than `COMMIT` ends no transaction. -/
theorem endLsn_eq_none (hdata : ∀ a b, data ≠ .commit a b)
    (h : handleLogicalReplicationMessage ans walStart data state = .ok (state', result)) :
    result.endLsn = none := by
  cases data with
  | begin finalLsn =>
    cases h
    rfl
  | commit commitLsn endLsn => exact absurd rfl (hdata commitLsn endLsn)
  | _ => exact (handleLogicalReplicationMessage_outcome (by rfl) h).endLsn_eq

theorem handleLogicalReplicationMessage_eq (hdata : ∀ a b, data ≠ .commit a b)
    (h : handleLogicalReplicationMessage ans walStart data state = .ok (state', result)) :
    ∃ remoteFinalLsn nextTxOrdinal, state' = { state with remoteFinalLsn, nextTxOrdinal } := by
  by_cases hinner : data.isInner = true
  · obtain ⟨ordinal, rfl⟩ := (handleLogicalReplicationMessage_outcome hinner h).exists_ordinal
    exact ⟨_, ordinal, rfl⟩
  · cases data with
    | begin finalLsn =>
      cases h
      exact ⟨_, _, rfl⟩
    | commit commitLsn endLsn => exact absurd rfl (hdata commitLsn endLsn)
    | _ => simp [LogicalReplicationMessage.isInner] at hinner

theorem recordEvent_openEvents (hend : result.endLsn = none) (s : Session ρ) :
    (s.recordEvent result).openEvents = s.openEvents ++ result.event.toList ∧
      (s.recordEvent result).delivered = s.delivered := by
  unfold Session.recordEvent
  rw [hend]
  cases result.event with
  | none => exact ⟨by simp, rfl⟩
  | some event => exact ⟨rfl, rfl⟩

/-! ## Transactions -/

/-- The open transaction and the produced events are the same. -/
structure SameTx (s s' : Session ρ) : Prop where
  remoteFinalLsn_eq : s'.state.remoteFinalLsn = s.state.remoteFinalLsn
  nextTxOrdinal_eq : s'.state.nextTxOrdinal = s.state.nextTxOrdinal
  openEvents_eq : s'.openEvents = s.openEvents
  delivered_eq : s'.delivered = s.delivered
  openCommit_eq : s'.sender.openCommit = s.sender.openCommit
  sent_le : s.sender.sentUpTo ≤ s'.sender.sentUpTo

theorem SameTx.refl (s : Session ρ) : s.SameTx s := ⟨rfl, rfl, rfl, rfl, rfl, le_rfl⟩

/-- How a step of the loop can concern the stream. -/
inductive TxStep (s : Session ρ) : LoopInput ρ → Session ρ → Prop
  /-- Nothing of the stream is handled. -/
  | quiet {input : LoopInput ρ} {s' : Session ρ} :
      input.data? = none → s.SameTx s' → s.point.isPlain = true → s'.point.isPlain = true →
      s.TxStep input s'
  /-- The loop fails without producing anything. -/
  | failed {input : LoopInput ρ} {s' : Session ρ} {error : EtlError} :
      s'.point = .failed error → s'.openEvents = s.openEvents → s'.delivered = s.delivered →
      s.TxStep input s'
  /-- A message other than `COMMIT` is handled; the flush it may trigger can fail. -/
  | handled {walStart walEnd : PgLsn} {data : LogicalReplicationMessage ρ} {ans : MessageAnswers}
      {sizeHint batchSizeBytes : ℕ} {writeEvents : EtlResult Unit} {withinInterval : Bool}
      {s' : Session ρ} (progress : ReplicationProgress) (state : ApplyLoopState ρ)
      (result : HandleMessageResult ρ) :
      s.point = .select → (∀ a b, data ≠ .commit a b) →
      s.sender.send (.xLogData walStart walEnd data) = some s'.sender →
      handleLogicalReplicationMessage ans walStart data
        { s.state with replicationProgress := progress } = .ok (state, result) →
      s'.openEvents = s.openEvents ++ result.event.toList → s'.delivered = s.delivered →
      ((∃ error, s'.point = .failed error) ∨ s'.point = .epilogue ∧
        s'.state.remoteFinalLsn = state.remoteFinalLsn ∧
        s'.state.nextTxOrdinal = state.nextTxOrdinal) →
      s.TxStep (.message (.xLogData walStart walEnd data) ans sizeHint batchSizeBytes writeEvents
        withinInterval) s'
  /-- A `COMMIT` closes the transaction and the loop waits for the commit hook. -/
  | commitBegun {walStart walEnd commitLsn endLsn : PgLsn} {ans : MessageAnswers}
      {sizeHint batchSizeBytes : ℕ} {writeEvents : EtlResult Unit} {withinInterval : Bool}
      {s' : Session ρ} :
      s.point = .select →
      s.sender.send (ρ := ρ) (.xLogData walStart walEnd (.commit commitLsn endLsn))
        = some s'.sender →
      s.state.remoteFinalLsn = some commitLsn → s'.point = .inCommit walStart commitLsn endLsn →
      s'.state.remoteFinalLsn = none → s'.state.nextTxOrdinal = s.state.nextTxOrdinal →
      s'.openEvents = s.openEvents → s'.delivered = s.delivered →
      s.TxStep (.message (.xLogData walStart walEnd (.commit commitLsn endLsn)) ans sizeHint
        batchSizeBytes writeEvents withinInterval) s'
  /-- The commit hook has returned and the transaction is delivered. -/
  | commitEnded {startLsn commitLsn endLsn : PgLsn} {exitIntent : Option ExitIntent}
      {sizeHint batchSizeBytes : ℕ} {writeEvents : EtlResult Unit} {s' : Session ρ} :
      s.point = .inCommit startLsn commitLsn endLsn →
      s'.delivered = s.delivered ++ [⟨commitLsn, endLsn, s.openEvents ++
        [⟨startLsn, commitLsn, s.state.nextTxOrdinal, .commit endLsn⟩]⟩] →
      s'.openEvents = [] → s'.sender = s.sender →
      ((∃ error, s'.point = .failed error) ∨ s'.point = .epilogue ∧
        s'.state.remoteFinalLsn = s.state.remoteFinalLsn) →
      s.TxStep (.commitHook exitIntent sizeHint batchSizeBytes writeEvents) s'

/-- A flush that may be due leaves the stream alone, or fails without producing anything. -/
theorem txStep_retryQueuedFlush (hinput : input.data? = none) (hpoint : s.point.isPlain = true)
    (h : s.SameTx s₁) (due : Bool) (writeEvents : EtlResult Unit) :
    s.TxStep input (s₁.retryQueuedFlush due writeEvents) := by
  rcases s₁.retryQueuedFlush_cases due writeEvents with ⟨error, heq⟩ | ⟨state, hstate, heq⟩
  · rw [heq]
    exact .failed rfl h.openEvents_eq h.delivered_eq
  · have hsame : s.SameTx { s₁ with state, point := .epilogue } := by
      rcases hstate with rfl | hflush
      · exact ⟨h.1, h.2, h.3, h.4, h.5, h.6⟩
      · obtain ⟨_, _, _, _, _, _, rfl⟩ := ApplyLoopState.flushBatch_eq hflush
        exact ⟨h.1, h.2, h.3, h.4, h.5, h.6⟩
    rw [heq]
    exact .quiet hinput hsame hpoint rfl

theorem txStep_of_next (hnext : s.next input = some s') : s.TxStep input s' := by
  cases loopStep_of_next hnext with
  | quiet reported shutdownState point hquiet hrests hpoint _ =>
    obtain ⟨exitIntent, stream, reports, heq, -, -⟩ :=
      s.rest_eq input reported shutdownState point
    rw [heq]
    refine .quiet ?_ ⟨rfl, rfl, rfl, rfl, rfl, le_rfl⟩ (LoopPoint.isPlain_of_isResting hrests)
      (LoopPoint.isPlain_of_isResting hpoint)
    cases input <;> first | rfl | cases hquiet
  | fail error | refused sender error _ _ _ => exact .failed rfl rfl rfl
  | keepAlive sender hpoint hsend =>
    rcases takeResult_cases _ _ _ _ _ _ with ⟨error, heq⟩ | ⟨state, hcollect, heq⟩
    · rw [heq]
      exact .failed rfl rfl rfl
    · obtain ⟨hfinal, hordinal, -, -⟩ := collectAndFlush_frame hcollect
      rw [heq]
      refine .quiet rfl ⟨hfinal, hordinal, rfl, rfl, ?_, WalSender.sentUpTo_le hsend⟩
        (by rw [hpoint]; rfl) rfl
      cases hsend
      rfl
  | @handled sender walStart walEnd data ans sizeHint batchSizeBytes writeEvents withinInterval
      state result hpoint hdata hsend hhandle =>
    have hrecord := (s.receiveData sender walStart walEnd).recordEvent_openEvents
      (endLsn_eq_none hdata hhandle)
    have hsender := ((s.receiveData sender walStart walEnd).recordEvent_frame result).2
    rcases takeResult_cases _ state result sizeHint batchSizeBytes writeEvents with
      ⟨error, heq⟩ | ⟨state', hcollect, heq⟩
    · rw [heq]
      exact .handled _ state result hpoint hdata (hsend.trans (congrArg some hsender.symm))
        hhandle hrecord.1 hrecord.2 (.inl ⟨error, rfl⟩)
    · obtain ⟨hfinal, hordinal, -, -⟩ := collectAndFlush_frame hcollect
      rw [heq]
      exact .handled _ state result hpoint hdata (hsend.trans (congrArg some hsender.symm))
        hhandle hrecord.1 hrecord.2 (.inr ⟨rfl, hfinal, hordinal⟩)
  | commitBegun sender hpoint hsend hopen =>
    exact .commitBegun hpoint hsend hopen rfl rfl rfl rfl rfl
  | @commitEnded startLsn commitLsn endLsn exitIntent sizeHint batchSizeBytes writeEvents hpoint =>
    obtain ⟨exitIntent', hexit⟩ := s.state.recordExitIntent_eq exitIntent
    simp only [finishCommitMessage, hexit]
    rcases s.takeResult_cases _ _ sizeHint batchSizeBytes writeEvents with
      ⟨error, heq⟩ | ⟨state, hcollect, heq⟩
    · rw [heq]
      exact .commitEnded hpoint rfl rfl rfl (.inl ⟨error, rfl⟩)
    · rw [heq]
      exact .commitEnded hpoint rfl rfl rfl (.inr ⟨rfl, (collectAndFlush_frame hcollect).1⟩)
  | flushFailed acked error _ _ _ => exact .failed rfl rfl rfl
  | @acknowledged pending _ _ hpoint _ _ =>
    have hsame : s.SameTx (s.acknowledge pending.events) := ⟨rfl, rfl, rfl, rfl, rfl, le_rfl⟩
    exact txStep_retryQueuedFlush rfl (by rw [hpoint]; rfl) hsame _ _
  | persisted hpoint _ hcommit =>
    simp only [handleFlushResult, hcommit]
    exact .quiet rfl ⟨rfl, rfl, rfl, rfl, rfl, le_rfl⟩ (by rw [hpoint]; rfl) rfl
  | @flushHook paused exitIntent writeEvents hpoint =>
    have hsame : s.SameTx { s with state := s.state.recordExitIntent exitIntent } := by
      obtain ⟨exitIntent', hexit⟩ := s.state.recordExitIntent_eq exitIntent
      rw [hexit]
      exact ⟨rfl, rfl, rfl, rfl, rfl, le_rfl⟩
    exact txStep_retryQueuedFlush rfl (by rw [hpoint]; rfl) hsame _ _
  | flushDeadline hpoint _ =>
    exact txStep_retryQueuedFlush rfl (by rw [hpoint]; rfl) (.refl s) _ _

/-! ## What no step undoes -/

/-- The sender is where it was, acknowledged events stay acknowledged, reports stay sent, the
received and the flush position do not go back and a requested exit stays requested. -/
structure Keeps (s s' : Session ρ) : Prop where
  sender_eq : s'.sender = s.sender
  acked_prefix : s.acked <+: s'.acked
  reports_prefix : s.reports <+: s'.reports
  received_le :
    s.state.replicationProgress.lastReceivedLsn ≤ s'.state.replicationProgress.lastReceivedLsn
  flush_le :
    s.state.replicationProgress.lastFlushLsn ≤ s'.state.replicationProgress.lastFlushLsn
  exit_kept : s.state.exitIntent.isSome = true → s'.state.exitIntent.isSome = true

theorem Keeps.trans {s₁ s₂ s₃ : Session ρ} (h : s₁.Keeps s₂) (h' : s₂.Keeps s₃) : s₁.Keeps s₃ where
  sender_eq := h'.sender_eq.trans h.sender_eq
  acked_prefix := h.acked_prefix.trans h'.acked_prefix
  reports_prefix := h.reports_prefix.trans h'.reports_prefix
  received_le := le_trans h.received_le h'.received_le
  flush_le := le_trans h.flush_le h'.flush_le
  exit_kept hexit := h'.exit_kept (h.exit_kept hexit)

/-- A step that touches none of them keeps them. -/
theorem Keeps.of_eq (hsender : s'.sender = s.sender) (hacked : s'.acked = s.acked)
    (hreports : s'.reports = s.reports)
    (hprogress : s'.state.replicationProgress = s.state.replicationProgress)
    (hexit : s'.state.exitIntent = s.state.exitIntent) : s.Keeps s' :=
  ⟨hsender, hacked ▸ prefix_rfl, hreports ▸ prefix_rfl, hprogress ▸ le_rfl,
    hprogress ▸ le_rfl, fun h => hexit ▸ h⟩

theorem keeps_retryQueuedFlush (s : Session ρ) (due : Bool) (writeEvents : EtlResult Unit) :
    s.Keeps (s.retryQueuedFlush due writeEvents) := by
  rcases s.retryQueuedFlush_cases due writeEvents with ⟨error, heq⟩ | ⟨state, rfl | hflush, heq⟩
  · rw [heq]
    exact .of_eq rfl rfl rfl rfl rfl
  · rw [heq]
    exact .of_eq rfl rfl rfl rfl rfl
  · obtain ⟨_, _, _, _, _, _, rfl⟩ := ApplyLoopState.flushBatch_eq hflush
    rw [heq]
    exact .of_eq rfl rfl rfl rfl rfl

theorem keeps_recordEvent (s : Session ρ) (result : HandleMessageResult ρ) :
    s.Keeps (s.recordEvent result) := by
  unfold Session.recordEvent
  cases result.event with
  | none => exact .of_eq rfl rfl rfl rfl rfl
  | some event => cases result.endLsn <;> exact .of_eq rfl rfl rfl rfl rfl

/-- Taking over a result keeps what the handler kept. -/
theorem keeps_takeResult (s : Session ρ) {state : ApplyLoopState ρ}
    (hexit : s.state.exitIntent.isSome = true → state.exitIntent.isSome = true)
    (hprogress : state.replicationProgress = s.state.replicationProgress)
    (result : HandleMessageResult ρ) (sizeHint batchSizeBytes : ℕ)
    (writeEvents : EtlResult Unit) :
    s.Keeps (s.takeResult state result sizeHint batchSizeBytes writeEvents) := by
  have hrecord := s.keeps_recordEvent result
  rcases s.takeResult_cases state result sizeHint batchSizeBytes writeEvents with
    ⟨error, heq⟩ | ⟨state', hcollect, heq⟩
  · rw [heq]
    exact hrecord.trans (.of_eq rfl rfl rfl rfl rfl)
  · have hstate := (collectAndFlush_frame hcollect).2.2
    rw [heq]
    refine ⟨hrecord.sender_eq, hrecord.acked_prefix, hrecord.reports_prefix, ?_, ?_, ?_⟩
    · rw [hstate.2, hprogress]
    · rw [hstate.2, hprogress]
    · rw [hstate.1]
      exact hexit

theorem exit_kept_recordExitIntent (st : ApplyLoopState ρ) (exitIntent : Option ExitIntent)
    (h : st.exitIntent.isSome = true) :
    (st.recordExitIntent exitIntent).exitIntent.isSome = true := by
  rw [ApplyLoopState.isSome_recordExitIntent, h, Bool.true_or]

theorem keeps_recordExitIntent (s : Session ρ) (exitIntent : Option ExitIntent) :
    s.Keeps { s with state := s.state.recordExitIntent exitIntent } := by
  obtain ⟨exitIntent', heq⟩ := s.state.recordExitIntent_eq exitIntent
  refine ⟨rfl, prefix_rfl, prefix_rfl, ?_, ?_, exit_kept_recordExitIntent _ _⟩
  · rw [heq]
  · rw [heq]

theorem keeps_acknowledge (s : Session ρ) (acked : List (Event ρ)) :
    s.Keeps (s.acknowledge acked) :=
  ⟨rfl, prefix_append _ _, prefix_rfl, le_rfl, le_rfl, id⟩

theorem keeps_receive (s : Session ρ) (lsn : PgLsn) : s.Keeps (s.receive lsn) := by
  simp only [receive, ReplicationProgress.updateLastReceivedLsn_eq]
  exact ⟨rfl, prefix_rfl, prefix_rfl, le_max_left _ _, le_rfl, id⟩

theorem keeps_receiveData (s : Session ρ) (sender : WalSender) (walStart walEnd : PgLsn) :
    { s with sender }.Keeps (s.receiveData sender walStart walEnd) :=
  (keeps_receive _ walStart).trans (keeps_receive _ walEnd)

/-- Every step keeps them, a message after Postgres has moved the sender. -/
theorem keeps_of_next (hnext : s.next input = some s') :
    match input with
    | .message message _ _ _ _ _ =>
      ∃ sender, s.sender.send message = some sender ∧ { s with sender }.Keeps s'
    | _ => s.Keeps s' := by
  cases loopStep_of_next hnext with
  | quiet reported shutdownState point hquiet _ _ _ =>
    obtain ⟨exitIntent, stream, reports, heq, rfl, hreports⟩ :=
      s.rest_eq input reported shutdownState point
    have hkeeps : s.Keeps (s.rest input reported shutdownState point) := by
      rw [heq]
      exact ⟨rfl, prefix_rfl, hreports, le_rfl, le_rfl, exit_kept_recordExitIntent _ _⟩
    cases input <;> first | exact hkeeps | cases hquiet
  | fail error => exact .of_eq rfl rfl rfl rfl rfl
  | keepAlive sender _ hsend =>
    refine ⟨sender, hsend, Keeps.trans ?_ (keeps_takeResult _ id rfl _ _ _ _)⟩
    exact (keeps_receive _ _).trans
      ⟨rfl, prefix_rfl, prefix_append _ _, le_rfl, le_rfl, id⟩
  | refused sender error _ hsend _ | commitBegun sender _ hsend _ =>
    exact ⟨sender, hsend, (s.keeps_receiveData sender _ _).trans (.of_eq rfl rfl rfl rfl rfl)⟩
  | handled sender state result _ hdata hsend hhandle =>
    obtain ⟨_, _, rfl⟩ := handleLogicalReplicationMessage_eq hdata hhandle
    refine ⟨sender, hsend,
      (s.keeps_receiveData sender _ _).trans (keeps_takeResult _ ?_ ?_ _ _ _ _)⟩
    · exact id
    · rfl
  | @commitEnded startLsn commitLsn endLsn exitIntent _ _ _ hpoint =>
    obtain ⟨exitIntent', heq⟩ := s.state.recordExitIntent_eq exitIntent
    refine keeps_takeResult s ?_ ?_ _ _ _ _
    · exact exit_kept_recordExitIntent s.state exitIntent
    · rw [finishCommitMessage, heq]
      rfl
  | flushFailed acked error _ _ _ =>
    exact (s.keeps_acknowledge acked).trans (.of_eq rfl rfl rfl rfl rfl)
  | acknowledged _ _ _ => exact (s.keeps_acknowledge _).trans (keeps_retryQueuedFlush _ _ _)
  | persisted _ _ hcommit =>
    simp only [handleFlushResult, hcommit]
    simp only [ReplicationProgress.updateLastFlushLsn_eq]
    exact ⟨rfl, prefix_append _ _, prefix_rfl, le_rfl, le_max_left _ _, id⟩
  | flushHook _ => exact (s.keeps_recordExitIntent _).trans (keeps_retryQueuedFlush _ _ _)
  | flushDeadline _ _ => exact s.keeps_retryQueuedFlush _ _

/-- Acknowledged events stay acknowledged. -/
theorem acked_of_next (hnext : s.next input = some s') :
    s.acked <+: s'.acked := by
  have hkeeps := keeps_of_next hnext
  cases input with
  | message message ans sizeHint batchSizeBytes writeEvents withinInterval =>
    obtain ⟨sender, -, hkeeps⟩ := hkeeps
    exact hkeeps.acked_prefix
  | _ => exact hkeeps.acked_prefix

/-- A message is taken only between iterations' hooks, while no exit is requested. -/
theorem select_of_message {sizeHint batchSizeBytes : ℕ} {writeEvents : EtlResult Unit}
    {withinInterval : Bool}
    (hnext : s.next (.message message ans sizeHint batchSizeBytes writeEvents withinInterval)
      = some s') : s.point = .select ∧ s.state.exitIntent = none := by
  unfold Session.next at hnext
  cases hpoint : s.point with
  | select =>
    simp only [hpoint] at hnext
    split_ifs at hnext with hrefused
    refine ⟨rfl, ?_⟩
    simp only [ApplyLoopState.canProcessMessages, Bool.or_eq_true, Bool.not_eq_true', not_or,
      Bool.not_eq_false, Bool.and_eq_true, Option.isNone_iff_eq_none] at hrefused
    exact hrefused.2.1
  | _ => simp [hpoint] at hnext

/-- The loop comes to the commit hook with a `COMMIT`, whose end it has received then. -/
theorem commit_of_inCommit {commitLsn endLsn : PgLsn} (hnext : s.next input = some s')
    (hpoint : s'.point = .inCommit walStart commitLsn endLsn) :
    (∃ walEnd ans sizeHint batchSizeBytes writeEvents withinInterval,
        input = .message (.xLogData walStart walEnd (.commit commitLsn endLsn)) ans sizeHint
          batchSizeBytes writeEvents withinInterval) ∧
      endLsn ≤ s'.state.replicationProgress.lastReceivedLsn := by
  cases txStep_of_next hnext with
  | quiet _ _ _ hplain => simp [hpoint, LoopPoint.isPlain] at hplain
  | failed hfailed _ _ => simp [hpoint] at hfailed
  | handled _ _ _ _ _ _ _ _ _ hend | commitEnded _ _ _ _ hend => simp [hpoint] at hend
  | commitBegun _ hsend _ hcommit =>
    obtain ⟨rfl, rfl, rfl⟩ := LoopPoint.inCommit.inj (hcommit.symm.trans hpoint)
    refine ⟨⟨_, _, _, _, _, _, rfl⟩, ?_⟩
    simp only [WalSender.send] at hsend
    split_ifs at hsend with _ hopen
    refine le_trans hopen.2.2 ?_
    cases loopStep_of_next hnext with
    | quiet _ _ _ hquiet _ _ _ => cases hquiet
    | refused _ _ _ _ _ => cases hpoint
    | handled _ _ _ _ hdata _ _ => exact absurd rfl (hdata _ _)
    | commitBegun _ _ _ _ =>
      simp only [receiveData, receive, ReplicationProgress.updateLastReceivedLsn_lastReceivedLsn]
      exact le_max_right _ _

/-- A loop that has returned takes no step. -/
theorem isOver_of_next (hnext : s.next input = some s') :
    s.point.isOver = false := by
  cases hpoint : s.point with
  | finished result | failed error =>
    unfold Session.next at hnext
    rw [hpoint] at hnext
    cases input <;> simp [LoopPoint.isOver] at hnext
  | _ => rfl

end Session

end Etl
