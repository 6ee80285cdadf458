import Etl.Replication.Connection

/-! # Batches in flight and in order

The apply loop collects events in a batch, hands the batch to the destination and goes on
while the result is awaited; a flush that is due in the meantime waits, and the loop takes no
messages until it can go out. The session does not keep what was handed over, so the machine
of this file runs a session together with that history: every batch given to the destination,
the ones whose results are awaited, what is left in the batch, and why a waiting batch is due.

One lemma says what a step does to the buffers. Either they grow by the events the step
produces, or the batch, grown by them, is flushed in one of the places that call
`flush_batch`.

Reference: `etl/src/replication/apply.rs` (`flush_batch`).
-/

namespace Etl

open List ApplyLoopState Session

variable {ρ : Type}

/-! ## Calls of `flush_batch` -/

/-- Why a batch is flushed. A full batch comes with the budget it has reached. -/
inductive FlushReason where
  | maxBatchBytesReached (batchSizeBytes : ℕ)
  | earlyFlushRequested
  | flushDeadlineReached
  | pendingFlushResultReceived
  deriving DecidableEq, Repr

/-- A call of `flush_batch`: the state it finds and the reason for it. -/
structure FlushCall (ρ : Type) where
  state : ApplyLoopState ρ
  reason : FlushReason

/-- Whether the call hands the batch to the destination. -/
def FlushCall.dispatches (call : FlushCall ρ) : Bool :=
  call.state.hasPendingBatch && !call.state.hasPendingFlushResult

/-- The flush after a handled message. -/
def flushCallAfter (st : ApplyLoopState ρ) (result : HandleMessageResult ρ)
    (sizeHint batchSizeBytes : ℕ) : Option (FlushCall ρ) :=
  let st := st.collect result sizeHint
  if batchSizeBytes ≤ st.eventsBatchBytes then some ⟨st, .maxBatchBytesReached batchSizeBytes⟩
  else if result.endBatch then some ⟨st, .earlyFlushRequested⟩
  else none

/-- Collecting and flushing is collecting, followed by this call. -/
theorem collectAndFlush_eq (st : ApplyLoopState ρ) (result : HandleMessageResult ρ)
    (sizeHint batchSizeBytes : ℕ) (writeEvents : EtlResult Unit) :
    collectAndFlush st result sizeHint batchSizeBytes writeEvents
      = match flushCallAfter st result sizeHint batchSizeBytes with
        | none => .ok (st.collect result sizeHint)
        | some call => call.state.flushBatch writeEvents := by
  unfold collectAndFlush flushCallAfter
  by_cases hfull : batchSizeBytes ≤ (st.collect result sizeHint).eventsBatchBytes
  · simp [hfull]
  · by_cases hend : result.endBatch = true
    all_goals simp [hend, hfull]

/-- The call of `flush_batch` a step of the loop makes, if it makes one. -/
def Session.flushCall (s : Session ρ) : LoopInput ρ → Option (FlushCall ρ)
  | .message (.primaryKeepAlive walEnd _) _ sizeHint batchSizeBytes _ _ =>
    flushCallAfter (s.receive walEnd).state .noEvent sizeHint batchSizeBytes
  | .message (.xLogData _ _ (.commit _ _)) _ _ _ _ _ => none
  | .message (.xLogData walStart walEnd data) ans sizeHint batchSizeBytes _ _ =>
    match handleLogicalReplicationMessage ans walStart data
        ((s.receive walStart).receive walEnd).state with
    | .error _ => none
    | .ok (state, result) => flushCallAfter state result sizeHint batchSizeBytes
  | .commitHook exitIntent sizeHint batchSizeBytes _ =>
    match s.point with
    | .inCommit startLsn commitLsn endLsn =>
      let (state, result) := finishCommitMessage startLsn commitLsn endLsn exitIntent s.state
      flushCallAfter state result sizeHint batchSizeBytes
    | _ => none
  | .flushResult (.ok ()) _ _ =>
    match s.state.pendingFlushResult with
    | some ⟨none, _⟩ =>
      if s.state.processingPaused then
        some ⟨s.state.resumeProcessing, .pendingFlushResultReceived⟩
      else none
    | _ => none
  | .flushHook exitIntent _ =>
    match s.point with
    | .inFlush true => some ⟨s.state.recordExitIntent exitIntent, .pendingFlushResultReceived⟩
    | _ => none
  | .flushDeadline _ => some ⟨s.state, .flushDeadlineReached⟩
  | _ => none

def LoopInput.isFlushResult : LoopInput ρ → Bool
  | .flushResult _ _ _ => true
  | _ => false

/-! ## The history -/

/-- A session with the history of its batches. -/
structure Batching (ρ : Type) where
  session : Session ρ
  /-- The batches given to the destination, also those it refused. -/
  handed : List (List (Event ρ))
  /-- Those whose results are awaited. -/
  writing : List (List (Event ρ))
  /-- What the batch holds; a failed session no longer says so. -/
  batch : List (Event ρ)
  /-- Why the batch is due, while it waits for the one in flight. -/
  queued : Option FlushReason

namespace Batching

/-- A new session, with nothing handed over. -/
def start (session : Session ρ) : Batching ρ := ⟨session, [], [], [], none⟩

/-- A step of the loop, and what it does with the batch. -/
def next (b : Batching ρ) (input : LoopInput ρ) : Option (Batching ρ) :=
  (b.session.next input).map fun session =>
    let writing := if input.isFlushResult then b.writing.tail else b.writing
    match b.session.flushCall input with
    | none =>
      { session
        handed := b.handed
        writing
        batch := session.state.eventsBatch
        queued := if session.state.processingPaused then b.queued else none }
    | some call =>
      if call.dispatches then
        { session
          handed := b.handed ++ [call.state.eventsBatch]
          writing := writing ++ [call.state.eventsBatch]
          batch := []
          queued := none }
      else
        { session
          handed := b.handed
          writing
          batch := call.state.eventsBatch
          queued := if session.state.processingPaused then some call.reason else none }

end Batching

/-- The apply loop with the history of its batches. -/
def batchingMachine (ρ : Type) : Machine (Batching ρ) (LoopInput ρ) where
  init b := ∃ session, (applyLoopMachine ρ).init session ∧ b = .start session
  next := Batching.next

/-- The history does not restrict the loop: every session it can reach is reached with one. -/
theorem exists_batching {s : Session ρ} (h : (applyLoopMachine ρ).Reachable s) :
    ∃ b, (batchingMachine ρ).Reachable b ∧ b.session = s := by
  refine Machine.Reachable.invariant
    (I := fun s => ∃ b, (batchingMachine ρ).Reachable b ∧ b.session = s) ?_ ?_ h
  · intro s hinit
    exact ⟨.start s, .init ⟨s, hinit, rfl⟩, rfl⟩
  · rintro s input s' ⟨b, hb, rfl⟩ hnext
    have hsession : b.session.next input = some s' := hnext
    cases hb' : b.next input with
    | none => simp [Batching.next, hsession] at hb'
    | some b' =>
      refine ⟨b', .step hb trivial hb', ?_⟩
      simp only [Batching.next, hsession, Option.map_some, Option.some.injEq] at hb'
      rw [← hb']
      split
      · rfl
      · split <;> rfl

/-- Nor does it change the loop. -/
theorem reachable_session {b : Batching ρ} (h : (batchingMachine ρ).Reachable b) :
    (applyLoopMachine ρ).Reachable b.session := by
  refine h.invariant (I := fun b => (applyLoopMachine ρ).Reachable b.session) ?_ ?_
  · rintro b ⟨session, hinit, rfl⟩
    exact .init hinit
  · intro b input b' hb hnext
    obtain ⟨session, hsession, rfl⟩ := Option.map_eq_some_iff.mp hnext
    refine .step hb trivial (hsession.trans (congrArg some ?_))
    dsimp only
    split
    · rfl
    · split <;> rfl

/-! ## What a step does to the buffers -/

/-- The second state has the buffers of the first with the events added to the batch. -/
structure ApplyLoopState.Grown (st st' : ApplyLoopState ρ) (added : List (Event ρ)) : Prop where
  eventsBatch_eq : st'.eventsBatch = st.eventsBatch ++ added
  bytes_le : st.eventsBatchBytes ≤ u64Max →
    st.eventsBatchBytes ≤ st'.eventsBatchBytes ∧ st'.eventsBatchBytes ≤ u64Max
  pending_eq : st'.pendingFlushResult = st.pendingFlushResult
  paused_eq : st'.processingPaused = st.processingPaused
  deadline_kept : st.flushDeadlineArmed = true → st'.flushDeadlineArmed = true
  exit_kept : st.exitIntent.isSome = true → st'.exitIntent.isSome = true
  commitEnd_le : ∀ lsn, st.lastCommitEndLsn = some lsn →
    ∃ lsn', st'.lastCommitEndLsn = some lsn' ∧ lsn ≤ lsn'

namespace ApplyLoopState

variable {st st' st'' : ApplyLoopState ρ}

/-- Nothing is added when the buffers agree. -/
theorem Grown.of_eq (hbatch : st'.eventsBatch = st.eventsBatch)
    (hbytes : st'.eventsBatchBytes = st.eventsBatchBytes)
    (hpending : st'.pendingFlushResult = st.pendingFlushResult)
    (hpaused : st'.processingPaused = st.processingPaused)
    (hdeadline : st'.flushDeadlineArmed = st.flushDeadlineArmed)
    (hexit : st.exitIntent.isSome = true → st'.exitIntent.isSome = true)
    (hcommitEnd : st'.lastCommitEndLsn = st.lastCommitEndLsn) : st.Grown st' [] where
  eventsBatch_eq := by rw [hbatch, append_nil]
  bytes_le hle := by
    rw [hbytes]
    exact ⟨le_rfl, hle⟩
  pending_eq := hpending
  paused_eq := hpaused
  deadline_kept hd := by rw [hdeadline, hd]
  exit_kept := hexit
  commitEnd_le lsn hlsn := ⟨lsn, hcommitEnd.trans hlsn, le_rfl⟩

theorem Grown.refl (st : ApplyLoopState ρ) : st.Grown st [] := .of_eq rfl rfl rfl rfl rfl id rfl

theorem Grown.trans {added added' : List (Event ρ)} (h : st.Grown st' added)
    (h' : st'.Grown st'' added') : st.Grown st'' (added ++ added') where
  eventsBatch_eq := by rw [h'.eventsBatch_eq, h.eventsBatch_eq, append_assoc]
  bytes_le hle := by
    obtain ⟨hle₁, hmax₁⟩ := h.bytes_le hle
    obtain ⟨hle₂, hmax₂⟩ := h'.bytes_le hmax₁
    exact ⟨le_trans hle₁ hle₂, hmax₂⟩
  pending_eq := h'.pending_eq.trans h.pending_eq
  paused_eq := h'.paused_eq.trans h.paused_eq
  deadline_kept hd := h'.deadline_kept (h.deadline_kept hd)
  exit_kept hexit := h'.exit_kept (h.exit_kept hexit)
  commitEnd_le lsn hlsn := by
    obtain ⟨lsn₁, hlsn₁, hle₁⟩ := h.commitEnd_le lsn hlsn
    obtain ⟨lsn₂, hlsn₂, hle₂⟩ := h'.commitEnd_le lsn₁ hlsn₁
    exact ⟨lsn₂, hlsn₂, le_trans hle₁ hle₂⟩

theorem grown_recordExitIntent (st : ApplyLoopState ρ) (exitIntent : Option ExitIntent) :
    st.Grown (st.recordExitIntent exitIntent) [] := by
  have hexit : st.exitIntent.isSome = true →
      (st.recordExitIntent exitIntent).exitIntent.isSome = true := by
    intro h
    rw [isSome_recordExitIntent, h, Bool.true_or]
  obtain ⟨exitIntent', heq⟩ := st.recordExitIntent_eq exitIntent
  rw [heq] at hexit ⊢
  exact .of_eq rfl rfl rfl rfl rfl hexit rfl

/-- An event enters the batch at its end. -/
theorem grown_collect (st : ApplyLoopState ρ) (result : HandleMessageResult ρ) (sizeHint : ℕ) :
    st.Grown (st.collect result sizeHint) result.event.toList := by
  unfold collect
  cases result.event with
  | none => exact .refl st
  | some event =>
    have hadd : ∀ commitEnd : Option PgLsn,
        (∀ lsn, st.lastCommitEndLsn = some lsn → ∃ lsn', commitEnd = some lsn' ∧ lsn ≤ lsn') →
        st.Grown { st.addEventToBatch event sizeHint with
          lastCommitEndLsn := commitEnd, flushDeadlineArmed := true } [event] :=
      fun commitEnd hcommitEnd => ⟨rfl,
        fun hle => ⟨le_min hle (Nat.le_add_right _ _), min_le_left _ _⟩, rfl, rfl,
        fun _ => rfl, id, hcommitEnd⟩
    cases result.endLsn with
    | none =>
      simp only [updateLastCommitEndLsn_none]
      exact hadd _ fun lsn hlsn => ⟨lsn, hlsn, le_rfl⟩
    | some endLsn =>
      obtain ⟨c, hcommitEnd, -, hold⟩ :=
        (st.addEventToBatch event sizeHint).updateLastCommitEndLsn_le endLsn
      simp only [hcommitEnd]
      exact hadd _ fun lsn hlsn => ⟨c, rfl, hold lsn hlsn⟩

end ApplyLoopState

/-- What the reason says of the state a flush is asked for in. -/
def FlushReason.Due (st : ApplyLoopState ρ) : FlushReason → Prop
  | .maxBatchBytesReached batchSizeBytes => batchSizeBytes ≤ st.eventsBatchBytes
  | .earlyFlushRequested => st.exitIntent.isSome = true
  | .flushDeadlineReached => st.flushDeadlineArmed = true
  | .pendingFlushResultReceived => st.pendingFlushResult = none

/-- A batch that is due stays due while it grows. -/
theorem FlushReason.Due.grown {reason : FlushReason} {st st' : ApplyLoopState ρ}
    {added : List (Event ρ)} (h : reason.Due st) (hmax : st.eventsBatchBytes ≤ u64Max)
    (hgrown : st.Grown st' added) : reason.Due st' := by
  cases reason with
  | maxBatchBytesReached batchSizeBytes => exact le_trans h (hgrown.bytes_le hmax).1
  | earlyFlushRequested => exact hgrown.exit_kept h
  | flushDeadlineReached => exact hgrown.deadline_kept h
  | pendingFlushResultReceived => exact hgrown.pending_eq.trans h

namespace Session

variable {s s' : Session ρ} {input : LoopInput ρ} {sizeHint batchSizeBytes : ℕ}
  {result : HandleMessageResult ρ} {ans : MessageAnswers} {data : LogicalReplicationMessage ρ}
  {writeEvents : EtlResult Unit} {s₁ : Session ρ} {pending : PendingFlush ρ}

/-- The state once the result an input brings is taken off. -/
def resolve (s : Session ρ) (input : LoopInput ρ) : ApplyLoopState ρ :=
  if input.isFlushResult then s.state.resumeProcessing else s.state

/-- What a step can do to the buffers. -/
inductive BatchStep (s : Session ρ) (input : LoopInput ρ) (s' : Session ρ) : Prop
  /-- They grow by the events produced. -/
  | kept (added : List (Event ρ)) :
      s.flushCall input = none → s'.producedEvents = s.producedEvents ++ added →
      (s.resolve input).Grown s'.state added →
      (∀ result, s'.point = .finished result → s'.state.hasUnresolvedBatchWork = false) →
      (∀ paused, s'.point = .inFlush paused →
        input.isFlushResult = true ∧ paused = s.state.processingPaused) →
      s.BatchStep input s'
  /-- They grow by the events produced and a flush is asked for. -/
  | called (call : FlushCall ρ) (added : List (Event ρ)) :
      s.flushCall input = some call → s'.producedEvents = s.producedEvents ++ added →
      (s.resolve input).Grown call.state added → call.reason.Due call.state →
      (s'.point.isFailed = true ∨
        s'.point = .epilogue ∧ call.state.flushBatch (.ok ()) = .ok s'.state) →
      s.BatchStep input s'

/-- A step that neither produces an event nor asks for a flush. -/
theorem BatchStep.of_quiet (hcall : s.flushCall input = none)
    (hinput : input.isFlushResult = false) (hproduced : s'.producedEvents = s.producedEvents)
    (hstate : s.state.Grown s'.state [])
    (hfinished : ∀ result, s'.point = .finished result →
      s'.state.hasUnresolvedBatchWork = false)
    (hpoint : ∀ paused, s'.point ≠ .inFlush paused) : s.BatchStep input s' := by
  refine .kept [] hcall (by rw [hproduced, append_nil]) ?_ hfinished
    fun paused h => absurd h (hpoint paused)
  rw [resolve, hinput]
  exact hstate

theorem continueWith_flushBatch (s : Session ρ) (st : ApplyLoopState ρ)
    (writeEvents : EtlResult Unit) :
    (s.continueWith .epilogue (st.flushBatch writeEvents)).point.isFailed = true ∨
      (s.continueWith .epilogue (st.flushBatch writeEvents)).point = .epilogue ∧
        st.flushBatch (.ok ())
          = .ok (s.continueWith .epilogue (st.flushBatch writeEvents)).state := by
  cases writeEvents with
  | ok _ =>
    cases hflush : st.flushBatch (.ok ()) with
    | error error => exact .inl rfl
    | ok st' => exact .inr ⟨rfl, rfl⟩
  | error error =>
    unfold flushBatch
    split_ifs
    · exact .inr ⟨rfl, rfl⟩
    · exact .inr ⟨rfl, rfl⟩
    · exact .inl rfl

theorem producedEvents_continueWith (s : Session ρ) (point : LoopPoint)
    (result : EtlResult (ApplyLoopState ρ)) :
    (s.continueWith point result).producedEvents = s.producedEvents := by
  cases result <;> rfl

theorem producedEvents_recordEvent (s : Session ρ) (result : HandleMessageResult ρ) :
    (s.recordEvent result).producedEvents = s.producedEvents ++ result.event.toList := by
  unfold recordEvent producedEvents
  cases result.event with
  | none => simp
  | some event => cases result.endLsn <;> simp

/-! ## Messages -/

theorem due_flushCallAfter {st : ApplyLoopState ρ} {call : FlushCall ρ}
    (hend : result.endBatch = true → st.exitIntent.isSome = true)
    (h : flushCallAfter st result sizeHint batchSizeBytes = some call) :
    call.state = st.collect result sizeHint ∧ call.reason.Due call.state := by
  unfold flushCallAfter at h
  simp only at h
  split_ifs at h with hfull hend'
  · cases h
    exact ⟨rfl, hfull⟩
  · cases h
    exact ⟨rfl, (st.grown_collect result sizeHint).exit_kept (hend hend')⟩

/-- Only a commit can end its batch. -/
theorem endBatch_eq_false {walStart : PgLsn} {state state' : ApplyLoopState ρ}
    (hdata : ∀ a b, data ≠ .commit a b)
    (h : handleLogicalReplicationMessage ans walStart data state = .ok (state', result)) :
    result.endBatch = false := by
  cases data with
  | begin finalLsn =>
    cases h
    rfl
  | commit commitLsn endLsn => exact absurd rfl (hdata commitLsn endLsn)
  | _ => exact (handleLogicalReplicationMessage_outcome (by rfl) h).endBatch_eq

/-- Taking over the result of a message, whatever state the handler left. -/
theorem batchStep_takeResult {state : ApplyLoopState ρ} (hinput : input.isFlushResult = false)
    (hcall : s.flushCall input = flushCallAfter state result sizeHint batchSizeBytes)
    (hproduced : s₁.producedEvents = s.producedEvents) (hstate : s.state.Grown state [])
    (hend : result.endBatch = true → state.exitIntent.isSome = true) :
    s.BatchStep input (s₁.takeResult state result sizeHint batchSizeBytes writeEvents) := by
  have hresolve : s.resolve input = s.state := by rw [resolve, hinput]; rfl
  have hgrown : (s.resolve input).Grown (state.collect result sizeHint) result.event.toList := by
    rw [hresolve]
    exact hstate.trans (state.grown_collect result sizeHint)
  have hrecord : (s₁.takeResult state result sizeHint batchSizeBytes writeEvents).producedEvents
      = s.producedEvents ++ result.event.toList := by
    rw [takeResult, producedEvents_continueWith, producedEvents_recordEvent, hproduced]
  cases hafter : flushCallAfter state result sizeHint batchSizeBytes with
  | none =>
    refine .kept result.event.toList (hcall.trans hafter) hrecord ?_ ?_ ?_
    · rw [takeResult, collectAndFlush_eq, hafter]
      exact hgrown
    all_goals simp [takeResult, collectAndFlush_eq, hafter, continueWith]
  | some call =>
    obtain ⟨hcollected, hdue⟩ := due_flushCallAfter hend hafter
    refine .called call result.event.toList (hcall.trans hafter) hrecord ?_ hdue ?_
    · rw [hcollected]
      exact hgrown
    · rw [takeResult, collectAndFlush_eq, hafter]
      exact continueWith_flushBatch _ call.state writeEvents

theorem batchStep_failed {error : EtlError} (hcall : s.flushCall input = none)
    (hinput : input.isFlushResult = false) (hproduced : s₁.producedEvents = s.producedEvents)
    (hstate : s.state.Grown s₁.state []) :
    s.BatchStep input { s₁ with point := .failed error } :=
  .of_quiet hcall hinput hproduced hstate (by simp) (by simp)

/-- The call after a message other than `COMMIT`. -/
theorem flushCall_data {walStart walEnd : PgLsn} {sender : WalSender} {withinInterval : Bool}
    {handled : EtlResult (ApplyLoopState ρ × HandleMessageResult ρ)}
    (hdata : ∀ a b, data ≠ .commit a b)
    (hhandle : handleLogicalReplicationMessage ans walStart data
      (s.receiveData sender walStart walEnd).state = handled) :
    s.flushCall (.message (.xLogData walStart walEnd data) ans sizeHint batchSizeBytes
        writeEvents withinInterval)
      = handled.toOption.bind fun (state, result) =>
          flushCallAfter state result sizeHint batchSizeBytes := by
  have hcall : s.flushCall (.message (.xLogData walStart walEnd data) ans sizeHint batchSizeBytes
      writeEvents withinInterval)
      = match handleLogicalReplicationMessage ans walStart data
          (s.receiveData sender walStart walEnd).state with
        | .error _ => none
        | .ok (state, result) => flushCallAfter state result sizeHint batchSizeBytes := by
    cases data with
    | commit commitLsn endLsn => exact absurd rfl (hdata commitLsn endLsn)
    | _ => rfl
  rw [hcall, hhandle]
  cases handled <;> rfl

theorem batchStep_commitHook {startLsn commitLsn endLsn : PgLsn}
    (hpoint : s.point = .inCommit startLsn commitLsn endLsn) (exitIntent : Option ExitIntent)
    (sizeHint batchSizeBytes : ℕ) (writeEvents : EtlResult Unit) :
    s.BatchStep (.commitHook exitIntent sizeHint batchSizeBytes writeEvents)
      (s.finishCommit startLsn commitLsn endLsn exitIntent sizeHint batchSizeBytes
        writeEvents) := by
  refine batchStep_takeResult rfl (by rw [flushCall, hpoint]; rfl) rfl
    ((s.state.grown_recordExitIntent exitIntent).trans (.of_eq rfl rfl rfl rfl rfl id rfl)) ?_
  intro hend
  exact (s.state.isSome_recordExitIntent exitIntent).trans (by
    rw [show exitIntent.isSome = true from hend, Bool.or_true])

/-! ## Flush results -/

/-- A batch with a commit is not followed by the queued one at once. -/
theorem flushCall_flushResult {result upsert writeEvents : EtlResult Unit}
    (hpending : s.state.pendingFlushResult = some pending)
    (hcommit : result = .ok () → pending.commitEndLsn ≠ none) :
    s.flushCall (.flushResult result upsert writeEvents) = none := by
  obtain ⟨commitEndLsn, events⟩ := pending
  cases result with
  | error error => rfl
  | ok _ =>
    cases commitEndLsn with
    | none => exact absurd rfl (hcommit rfl)
    | some commitEndLsn => simp [flushCall, hpending]

theorem batchStep_acknowledged (hpending : s.state.pendingFlushResult = some pending)
    (hcommit : pending.commitEndLsn = none) (upsert writeEvents : EtlResult Unit) :
    s.BatchStep (.flushResult (.ok ()) upsert writeEvents)
      ((s.acknowledge pending.events).retryQueuedFlush s.state.processingPaused writeEvents) := by
  obtain ⟨commitEndLsn, events⟩ := pending
  obtain rfl : commitEndLsn = none := hcommit
  cases hpaused : s.state.processingPaused with
  | false =>
    exact .kept [] (by simp [flushCall, hpending, hpaused]) (append_nil _).symm (.refl _)
      (by simp [retryQueuedFlush]) (by simp [retryQueuedFlush])
  | true =>
    refine .called ⟨s.state.resumeProcessing, .pendingFlushResultReceived⟩ []
      (by simp [flushCall, hpending, hpaused]) ?_ (.refl _) rfl
      (continueWith_flushBatch _ _ writeEvents)
    rw [append_nil]
    exact producedEvents_continueWith _ _ _

/-- If a queued batch is not flushed with the result, the loop is not done with it. -/
theorem point_ne_epilogue {upsert writeEvents : EtlResult Unit}
    (hcall : s.flushCall (.flushResult (.ok ()) upsert writeEvents) = none)
    (hpaused : s.state.processingPaused = true)
    (hnext : s.next (.flushResult (.ok ()) upsert writeEvents) = some s') :
    s'.point ≠ .epilogue := by
  cases loopStep_of_next hnext with
  | quiet _ _ _ hquiet _ _ _ => cases hquiet
  | flushFailed acked error _ _ _ => simp
  | @acknowledged pending _ _ _ hpending hcommit =>
    obtain ⟨commitEndLsn, events⟩ := pending
    obtain rfl : commitEndLsn = none := hcommit
    simp [flushCall, hpending, hpaused] at hcall
  | persisted _ _ hcommit => simp [handleFlushResult, hcommit]

theorem batchStep_flushHook {paused : Bool} (hpoint : s.point = .inFlush paused)
    (hpending : s.state.pendingFlushResult = none) (exitIntent : Option ExitIntent)
    (writeEvents : EtlResult Unit) :
    s.BatchStep (.flushHook exitIntent writeEvents)
      (s.finishFlush paused exitIntent writeEvents) := by
  have hexit := s.state.grown_recordExitIntent exitIntent
  unfold finishFlush retryQueuedFlush
  cases paused with
  | false =>
    exact .of_quiet (by rw [flushCall, hpoint]) rfl rfl hexit (by simp) (by simp)
  | true =>
    refine .called ⟨s.state.recordExitIntent exitIntent, .pendingFlushResultReceived⟩ []
      (by rw [flushCall, hpoint]) ?_ hexit (hexit.pending_eq.trans hpending) ?_
    · rw [if_pos rfl, producedEvents_continueWith, append_nil]
      rfl
    · exact continueWith_flushBatch _ _ writeEvents

theorem batchStep_flushDeadline (harmed : s.state.flushDeadlineArmed = true)
    (writeEvents : EtlResult Unit) :
    s.BatchStep (.flushDeadline writeEvents)
      (s.continueWith .epilogue (s.state.flushBatch writeEvents)) := by
  refine .called ⟨s.state, .flushDeadlineReached⟩ [] rfl ?_ (.refl _) harmed
    (continueWith_flushBatch s s.state writeEvents)
  rw [producedEvents_continueWith, append_nil]

/-! ## The inversion lemma -/

/-- Every step keeps the buffers or flushes them, provided that the flush hook finds nothing
in flight. -/
theorem batchStep_of_next
    (hinFlush : ∀ paused, s.point = .inFlush paused → s.state.pendingFlushResult = none)
    (hnext : s.next input = some s') : s.BatchStep input s' := by
  cases loopStep_of_next hnext with
  | quiet reported shutdownState point hquiet _ hpoint hfinished =>
    obtain ⟨exitIntent, stream, reports, heq, rfl, -⟩ :=
      s.rest_eq input reported shutdownState point
    have hcall : s.flushCall input = none ∧ input.isFlushResult = false := by
      cases input <;> first | exact ⟨rfl, rfl⟩ | cases hquiet
    rw [heq]
    refine .of_quiet hcall.1 hcall.2 rfl
      (.of_eq rfl rfl rfl rfl rfl (exit_kept_recordExitIntent _ _) rfl)
      (fun result h => (hfinished result h).1) ?_
    rintro paused rfl
    cases hpoint
  | fail error => exact batchStep_failed rfl rfl rfl (.refl _)
  | keepAlive sender _ _ =>
    exact batchStep_takeResult rfl rfl rfl (.of_eq rfl rfl rfl rfl rfl id rfl)
      (by simp [HandleMessageResult.noEvent])
  | @refused sender _ _ data _ _ _ _ _ error _ _ hhandle =>
    refine batchStep_failed ?_ rfl rfl (.of_eq rfl rfl rfl rfl rfl id rfl)
    by_cases hdata : ∀ a b, data ≠ .commit a b
    · exact flushCall_data hdata (hhandle hdata)
    · push Not at hdata
      obtain ⟨commitLsn, endLsn, rfl⟩ := hdata
      rfl
  | handled sender state result _ hdata _ hhandle =>
    have hend := endBatch_eq_false hdata hhandle
    obtain ⟨_, _, rfl⟩ := handleLogicalReplicationMessage_eq hdata hhandle
    exact batchStep_takeResult rfl (flushCall_data hdata hhandle) rfl
      (.of_eq rfl rfl rfl rfl rfl id rfl) (by simp [hend])
  | commitBegun sender _ _ _ =>
    exact .of_quiet rfl rfl rfl (.of_eq rfl rfl rfl rfl rfl id rfl) (by simp) (by simp)
  | commitEnded hpoint => exact batchStep_commitHook hpoint _ _ _ _
  | flushFailed acked error _ hpending hcommit =>
    exact .kept [] (flushCall_flushResult hpending hcommit) (append_nil _).symm (.refl _)
      (by simp) (by simp)
  | acknowledged _ hpending hcommit => exact batchStep_acknowledged hpending hcommit _ _
  | persisted _ hpending hcommit =>
    refine .kept [] (flushCall_flushResult hpending (by simp [hcommit])) ?_ ?_ ?_ ?_
    all_goals simp only [handleFlushResult, hcommit]
    · exact (append_nil _).symm
    · exact .of_eq rfl rfl rfl rfl rfl id rfl
    · simp
    · exact fun paused hpoint => ⟨rfl, (LoopPoint.inFlush.inj hpoint).symm⟩
  | flushHook hpoint => exact batchStep_flushHook hpoint (hinFlush _ hpoint) _ _
  | flushDeadline _ harmed => exact batchStep_flushDeadline harmed _

end Session

/-! ## The invariant -/

namespace Batching

variable {b b' : Batching ρ} {input : LoopInput ρ} {added : List (Event ρ)} {session : Session ρ}
  {call : FlushCall ρ} {waited : Bool}

/-- A batch that is due waits for the one in flight. -/
structure Waiting (b : Batching ρ) : Prop where
  writing_ne : b.writing ≠ []
  batch_ne : b.batch ≠ []
  due : ∃ reason, b.queued = some reason ∧ reason ≠ .pendingFlushResultReceived ∧
    reason.Due b.session.state

/-- The history and the buffers of a loop that has not failed. -/
structure Running (b : Batching ρ) : Prop where
  batch_eq : b.batch = b.session.state.eventsBatch
  writing_eq : b.writing = b.session.state.pendingFlushResult.toList.map (·.events)
  bytes_le : b.session.state.eventsBatchBytes ≤ u64Max
  waiting : b.session.state.processingPaused = true → b.Waiting
  finished : ∀ result, b.session.point = .finished result →
    b.session.state.hasUnresolvedBatchWork = false
  inFlush : ∀ paused, b.session.point = .inFlush paused →
    b.session.state.pendingFlushResult = none ∧ b.session.state.processingPaused = false ∧
      (paused = true → b.batch ≠ [])

/-- The invariant of the batches. -/
structure Inv (b : Batching ρ) : Prop where
  balance : b.handed.flatten ++ b.batch = b.session.producedEvents
  writing_le : b.writing.length ≤ 1
  running : b.session.point.isFailed = false → b.Running

/-- The batches whose results are awaited once the result an input brings is taken off. -/
def resolve (b : Batching ρ) (input : LoopInput ρ) : List (List (Event ρ)) :=
  if input.isFlushResult then b.writing.tail else b.writing

/-- A result takes the batch in flight off, and nothing else. -/
theorem Running.resolve (h : b.Running) (input : LoopInput ρ) :
    b.resolve input
        = (b.session.resolve input).pendingFlushResult.toList.map (·.events) ∧
      (b.session.resolve input).eventsBatch = b.batch ∧
      (b.session.resolve input).eventsBatchBytes ≤ u64Max ∧
      ((b.session.resolve input).processingPaused = true →
        input.isFlushResult = false ∧ b.Waiting) := by
  unfold Batching.resolve Session.resolve
  split_ifs with hresult
  · refine ⟨?_, h.batch_eq.symm, h.bytes_le, fun hpaused => by cases hpaused⟩
    rw [h.writing_eq]
    cases b.session.state.pendingFlushResult <;> rfl
  · exact ⟨h.writing_eq, h.batch_eq.symm, h.bytes_le,
      fun hpaused => ⟨Bool.not_eq_true _ ▸ hresult, h.waiting hpaused⟩⟩

theorem writing_length_le (st : ApplyLoopState ρ) :
    (st.pendingFlushResult.toList.map (·.events)).length ≤ 1 := by
  cases st.pendingFlushResult <;> simp

theorem Inv.kept (h : b.Inv) (hrunning : b.Running)
    (hproduced : session.producedEvents = b.session.producedEvents ++ added)
    (hgrown : (b.session.resolve input).Grown session.state added)
    (hfinished : ∀ result, session.point = .finished result →
      session.state.hasUnresolvedBatchWork = false)
    (hinFlush : ∀ paused, session.point = .inFlush paused →
      input.isFlushResult = true ∧ paused = b.session.state.processingPaused) :
    Inv {
      session
      handed := b.handed
      writing := b.resolve input
      batch := session.state.eventsBatch
      queued := if session.state.processingPaused then b.queued else none } := by
  obtain ⟨hwriting, hbatch, hbytes, hpaused⟩ := hrunning.resolve input
  have hgrownBatch : session.state.eventsBatch = b.batch ++ added := by
    rw [hgrown.eventsBatch_eq, hbatch]
  refine ⟨?_, ?_, fun _ => ⟨rfl, ?_, (hgrown.bytes_le hbytes).2, ?_, hfinished, ?_⟩⟩
  · rw [hproduced, ← h.balance, hgrownBatch, append_assoc]
  · rw [hwriting]
    exact writing_length_le _
  · rw [hwriting, hgrown.pending_eq]
  · intro hstill
    obtain ⟨hinput, hwaiting⟩ := hpaused (hgrown.paused_eq.symm.trans hstill)
    obtain ⟨reason, hqueued, hreason, hdue⟩ := hwaiting.due
    refine ⟨?_, ?_, reason, ?_, hreason, ?_⟩
    · rw [Batching.resolve, hinput]
      exact hwaiting.writing_ne
    · rw [hgrownBatch]
      exact fun hnil => hwaiting.batch_ne (append_eq_nil_iff.mp hnil).1
    · rw [if_pos hstill, hqueued]
    · refine FlushReason.Due.grown ?_ hbytes hgrown
      rw [Session.resolve, hinput]
      exact hdue
  · intro paused hpoint
    obtain ⟨hinput, rfl⟩ := hinFlush paused hpoint
    have hresolve : b.session.resolve input = b.session.state.resumeProcessing := by
      rw [Session.resolve, hinput]
      rfl
    refine ⟨?_, ?_, fun hwas => ?_⟩
    · exact hgrown.pending_eq.trans (by rw [hresolve]; rfl)
    · exact hgrown.paused_eq.trans (by rw [hresolve]; rfl)
    · rw [hgrownBatch]
      exact fun hnil => (hrunning.waiting hwas).batch_ne (append_eq_nil_iff.mp hnil).1

/-- A batch handed over is the whole batch, and it goes out alone. -/
theorem Inv.dispatched (h : b.Inv) (hrunning : b.Running)
    (hproduced : session.producedEvents = b.session.producedEvents ++ added)
    (hgrown : (b.session.resolve input).Grown call.state added)
    (hdispatches : call.dispatches = true)
    (houtcome : session.point.isFailed = true ∨
      session.point = .epilogue ∧ call.state.flushBatch (.ok ()) = .ok session.state) :
    Inv {
      session
      handed := b.handed ++ [call.state.eventsBatch]
      writing := b.resolve input ++ [call.state.eventsBatch]
      batch := []
      queued := none } := by
  obtain ⟨hwriting, hbatch, hbytes, hpaused⟩ := hrunning.resolve input
  simp only [FlushCall.dispatches, Bool.and_eq_true, Bool.not_eq_true',
    hasPendingFlushResult, Option.isSome_eq_false_iff,
    Option.isNone_iff_eq_none] at hdispatches
  obtain ⟨hsome, hnone⟩ := hdispatches
  -- nothing is in flight when the batch goes out
  have hempty : b.resolve input = [] := by
    rw [hwriting, ← hgrown.pending_eq, hnone]
    rfl
  refine ⟨?_, ?_, fun hrun => ?_⟩
  · rw [hproduced, ← h.balance, hgrown.eventsBatch_eq, hbatch]
    simp
  · rw [hempty]
    exact le_rfl
  · rcases houtcome with hfailed | ⟨hpoint, hflush⟩
    · rw [hfailed] at hrun
      cases hrun
    · have hstill : call.state.processingPaused = false := by
        rw [hgrown.paused_eq]
        by_contra hstill
        obtain ⟨hinput, hwaiting⟩ := hpaused (Bool.not_eq_false _ ▸ hstill)
        apply hwaiting.writing_ne
        rw [Batching.resolve, hinput] at hempty
        exact hempty
      rw [flushBatch, hsome, hasPendingFlushResult, hnone] at hflush
      have hstate := Except.ok.inj hflush
      refine ⟨?_, ?_, ?_, ?_, ?_, ?_⟩ <;> simp only [← hstate, hpoint, hempty]
      · rfl
      · exact Nat.zero_le _
      · rw [hstill]
        exact fun hfalse => by cases hfalse
      all_goals exact fun _ hfalse => by cases hfalse

/-- A flush that cannot go out leaves the batch where it is; it waits if there is one. -/
theorem Inv.deferred (h : b.Inv) (hrunning : b.Running)
    (hproduced : session.producedEvents = b.session.producedEvents ++ added)
    (hgrown : (b.session.resolve input).Grown call.state added) (hdue : call.reason.Due call.state)
    (hdispatches : call.dispatches = false)
    (houtcome : session.point.isFailed = true ∨
      session.point = .epilogue ∧ call.state.flushBatch (.ok ()) = .ok session.state) :
    Inv {
      session
      handed := b.handed
      writing := b.resolve input
      batch := call.state.eventsBatch
      queued := if session.state.processingPaused then some call.reason else none } := by
  obtain ⟨hwriting, hbatch, hbytes, hpaused⟩ := hrunning.resolve input
  have hgrownBatch : call.state.eventsBatch = b.batch ++ added := by
    rw [hgrown.eventsBatch_eq, hbatch]
  refine ⟨?_, ?_, fun hrun => ?_⟩
  · rw [hproduced, ← h.balance, hgrownBatch, append_assoc]
  · rw [hwriting]
    exact writing_length_le _
  · rcases houtcome with hfailed | ⟨hpoint, hflush⟩
    · rw [hfailed] at hrun
      cases hrun
    · have hwriting' : b.resolve input
          = call.state.pendingFlushResult.toList.map (·.events) := by
        rw [hwriting, hgrown.pending_eq]
      have hbytes' := (hgrown.bytes_le hbytes).2
      cases hbatchSome : call.state.hasPendingBatch with
      | false =>
        -- an empty batch does not wait, and was not waiting before
        rw [flushBatch, hbatchSome] at hflush
        have hstate : call.state = session.state := Except.ok.inj hflush
        have hnil : call.state.eventsBatch = [] := by
          simpa [hasPendingBatch] using hbatchSome
        refine ⟨congrArg (·.eventsBatch) hstate, ?_, ?_, ?_, ?_, ?_⟩ <;>
          simp only [← hstate, hpoint]
        · exact hwriting'
        · exact hbytes'
        · intro hstill
          obtain ⟨-, hwaiting⟩ := hpaused (hgrown.paused_eq.symm.trans hstill)
          rw [hgrownBatch] at hnil
          exact absurd (append_eq_nil_iff.mp hnil).1 hwaiting.batch_ne
        all_goals exact fun _ hfalse => by cases hfalse
      | true =>
        have hpendingSome : call.state.hasPendingFlushResult = true := by
          simpa [FlushCall.dispatches, hbatchSome] using hdispatches
        rw [flushBatch, hbatchSome, hpendingSome] at hflush
        have hstate := Except.ok.inj hflush
        have hne : call.state.eventsBatch ≠ [] := by
          simpa [hasPendingBatch] using hbatchSome
        refine ⟨?_, ?_, ?_, ?_, ?_, ?_⟩ <;> simp only [← hstate, hpoint]
        · exact hwriting'
        · exact hbytes'
        · intro _
          obtain ⟨pending, hpending⟩ := Option.isSome_iff_exists.mp hpendingSome
          refine ⟨?_, hne, call.reason, rfl, ?_, ?_⟩
          · rw [hwriting', hpending]
            simp
          · intro hreason
            rw [hreason] at hdue
            exact absurd (hdue.symm.trans hpending) (by simp)
          · simp only [← hstate]
            cases hreason : call.reason <;> rw [hreason] at hdue <;> exact hdue
        all_goals exact fun _ hfalse => by cases hfalse

/-- A loop that takes a step has not failed. -/
theorem Inv.running_of_next (h : b.Inv) (hsession : b.session.next input = some session) :
    b.Running :=
  h.running (isFailed_of_next hsession)

/-- Every step keeps the invariant. -/
theorem Inv.next (h : b.Inv) (hnext : b.next input = some b') : b'.Inv := by
  obtain ⟨session, hsession, heq⟩ := Option.map_eq_some_iff.mp hnext
  have hrunning := h.running_of_next hsession
  have hstep := batchStep_of_next
    (fun paused hpoint => (hrunning.inFlush paused hpoint).1) hsession
  rw [← heq]
  cases hstep with
  | kept added hcall hproduced hgrown hfinished hinFlush =>
    simp only [hcall]
    exact h.kept hrunning hproduced hgrown hfinished hinFlush
  | called call added hcall hproduced hgrown hdue houtcome =>
    simp only [hcall]
    cases hdispatches : call.dispatches with
    | true => exact h.dispatched hrunning hproduced hgrown hdispatches houtcome
    | false => exact h.deferred hrunning hproduced hgrown hdue hdispatches houtcome

theorem inv_start (hinit : (applyLoopMachine ρ).init session) :
    (start session).Inv := by
  obtain ⟨startLsn, durableProgress, -, rfl⟩ := hinit
  exact ⟨rfl, Nat.zero_le _, fun _ => ⟨rfl, rfl, Nat.zero_le _, by simp [start, Session.start,
    new], by simp [start, Session.start], by simp [start, Session.start]⟩⟩

/-! ## Resuming -/

/-- The flush is over: unless this failed, the loop is not paused any more, and a batch that
waited has gone out. -/
def Resumed (b b' : Batching ρ) (waited : Bool) : Prop :=
  b'.session.point.isFailed = false →
    b'.session.state.processingPaused = false ∧
      (waited = true → b'.session.point = .epilogue →
        b'.handed = b.handed ++ [b.batch] ∧ b'.batch = [])

/-- A batch that waited goes out in the flush it asks for once nothing is in flight. -/
theorem Running.resumed_of_call (hrunning : b.Running) (hnext : b.next input = some b')
    (hcall : b.session.flushCall input = some call) (hbatch : call.state.eventsBatch = b.batch)
    (hne : b.batch ≠ []) (hnone : call.state.pendingFlushResult = none)
    (hpaused : call.state.processingPaused = false) (waited : Bool) : b.Resumed b' waited := by
  obtain ⟨session, hsession, heq⟩ := Option.map_eq_some_iff.mp hnext
  have hsome : call.state.hasPendingBatch = true := by
    rw [hasPendingBatch, hbatch]
    simpa using hne
  have hdispatches : call.dispatches = true := by
    rw [FlushCall.dispatches, hsome, hasPendingFlushResult, hnone]
    rfl
  simp only [hcall, hdispatches, if_true] at heq
  rw [← heq]
  intro hrun
  refine ⟨?_, fun _ _ => ⟨by simp only [hbatch], rfl⟩⟩
  cases batchStep_of_next
      (fun paused hpoint => (hrunning.inFlush paused hpoint).1) hsession with
  | kept added hcall' => exact absurd (hcall'.symm.trans hcall) (by simp)
  | called call' added hcall' hproduced hgrown hdue houtcome =>
    cases hcall'.symm.trans hcall
    rcases houtcome with hfailed | ⟨-, hflush⟩
    · rw [hfailed] at hrun
      cases hrun
    · rw [flushBatch, hsome, hasPendingFlushResult, hnone] at hflush
      simp only [← Except.ok.inj hflush, hpaused]

/-- Without a flush the pause is over as soon as the result is taken off. -/
theorem Running.resumed_of_kept (hrunning : b.Running) (hnext : b.next input = some b')
    (hcall : b.session.flushCall input = none)
    (hpaused : (b.session.resolve input).processingPaused = false)
    (hwaited : waited = true → b'.session.point ≠ .epilogue) : b.Resumed b' waited := by
  obtain ⟨session, hsession, heq⟩ := Option.map_eq_some_iff.mp hnext
  simp only [hcall] at heq
  intro _
  refine ⟨?_, fun hw hpoint => absurd hpoint (hwaited hw)⟩
  rw [← heq]
  cases batchStep_of_next
      (fun paused hpoint => (hrunning.inFlush paused hpoint).1) hsession with
  | kept added hcall' hproduced hgrown => exact hgrown.paused_eq.trans hpaused
  | called call added hcall' => exact absurd (hcall.symm.trans hcall') (by simp)

/-- A successful result ends the pause. A batch with a commit goes through the hook first. -/
theorem Inv.resumed_flushResult (h : b.Inv) {upsert writeEvents : EtlResult Unit}
    (hnext : b.next (.flushResult (.ok ()) upsert writeEvents) = some b') :
    b.Resumed b' b.session.state.processingPaused := by
  obtain ⟨session, hsession, heq⟩ := Option.map_eq_some_iff.mp hnext
  have hrunning := h.running_of_next hsession
  have hsession' : b'.session = session := by
    rw [← heq]
    simp only
    split
    · rfl
    · split <;> rfl
  cases hwaited : b.session.state.processingPaused with
  | false =>
    refine hrunning.resumed_of_kept hnext ?_ rfl (by simp)
    simp only [flushCall, hwaited]
    split <;> rfl
  | true =>
    have hwaiting := hrunning.waiting hwaited
    cases hcall : b.session.flushCall (.flushResult (.ok ()) upsert writeEvents) with
    | none =>
      refine hrunning.resumed_of_kept hnext hcall rfl fun _ => ?_
      rw [hsession']
      exact point_ne_epilogue hcall hwaited hsession
    | some call =>
      have hstate : call.state = b.session.state.resumeProcessing := by
        simp only [flushCall, hwaited] at hcall
        split at hcall
        · exact (congrArg (·.state) (Option.some.inj hcall)).symm
        · cases hcall
      refine hrunning.resumed_of_call hnext hcall ?_ hwaiting.batch_ne ?_ ?_ true <;> rw [hstate]
      · exact hrunning.batch_eq.symm
      · rfl
      · rfl

/-- The flush hook lets a batch out that waited for the flush. -/
theorem Inv.resumed_flushHook (h : b.Inv) (hpoint : b.session.point = .inFlush waited)
    {exitIntent : Option ExitIntent} {writeEvents : EtlResult Unit}
    (hnext : b.next (.flushHook exitIntent writeEvents) = some b') :
    b.Resumed b' waited := by
  obtain ⟨session, hsession, -⟩ := Option.map_eq_some_iff.mp hnext
  have hrunning := h.running_of_next hsession
  obtain ⟨hnone, hpaused, hne⟩ := hrunning.inFlush waited hpoint
  have hexit := b.session.state.grown_recordExitIntent exitIntent
  cases waited with
  | false =>
    exact hrunning.resumed_of_kept hnext (by rw [flushCall, hpoint]) hpaused (by simp)
  | true =>
    refine hrunning.resumed_of_call hnext (by rw [flushCall, hpoint]) ?_ (hne rfl)
      (hexit.pending_eq.trans hnone) (hexit.paused_eq.trans hpaused) true
    rw [hexit.eventsBatch_eq, append_nil, hrunning.batch_eq]

end Batching

theorem batching_inv {b : Batching ρ} (h : (batchingMachine ρ).Reachable b) : b.Inv := by
  refine h.invariant ?_ ?_
  · rintro b ⟨session, hinit, rfl⟩
    exact Batching.inv_start hinit
  · intro b input b' hinv hnext
    exact hinv.next hnext

/-- In every run of the loop at most one batch is being written, and the batches handed over
followed by the batch at hand are the events produced so far. The loop is paused only while a
batch that is due waits for the one in flight, a successful flush ends the pause and lets the
waiting batch out, and the loop returns only when nothing is in flight or left in the batch. -/
theorem batches_in_order {b : Batching ρ} (h : (batchingMachine ρ).Reachable b) :
    b.writing.length ≤ 1 ∧
      b.handed.flatten ++ b.batch = b.session.producedEvents ∧
      (b.session.point.isFailed = false →
        b.batch = b.session.state.eventsBatch ∧
          b.writing = b.session.state.pendingFlushResult.toList.map (·.events) ∧
          (b.session.state.processingPaused = true → b.Waiting)) ∧
      (∀ upsert writeEvents b', b.next (.flushResult (.ok ()) upsert writeEvents) = some b' →
        b.Resumed b' b.session.state.processingPaused) ∧
      (∀ waited exitIntent writeEvents b', b.session.point = .inFlush waited →
        b.next (.flushHook exitIntent writeEvents) = some b' → b.Resumed b' waited) ∧
      ∀ result, b.session.point = .finished result → b.writing = [] ∧ b.batch = [] := by
  have hinv := batching_inv h
  refine ⟨hinv.writing_le, hinv.balance, ?_, ?_, ?_, ?_⟩
  · intro hrun
    have hrunning := hinv.running hrun
    exact ⟨hrunning.batch_eq, hrunning.writing_eq, hrunning.waiting⟩
  · intro upsert writeEvents b' hnext
    exact hinv.resumed_flushResult hnext
  · intro waited exitIntent writeEvents b' hpoint hnext
    exact hinv.resumed_flushHook hpoint hnext
  · intro result hpoint
    have hrunning := hinv.running (by rw [hpoint]; rfl)
    have hwork := hrunning.finished result hpoint
    simp only [hasUnresolvedBatchWork, hasPendingBatch,
      hasPendingFlushResult, Bool.or_eq_false_iff, Bool.not_eq_false',
      List.isEmpty_iff, Option.isSome_eq_false_iff, Option.isNone_iff_eq_none] at hwork
    rw [hrunning.batch_eq, hrunning.writing_eq, hwork.1, hwork.2]
    exact ⟨rfl, rfl⟩

/-- However the batches are cut and however long their results are awaited, what was given to the
destination on a connection, followed by the batch at hand, is in the order of the keys: no batch
overtakes another, and nothing is handed over twice. -/
theorem handed_in_key_order {b : Batching ρ} (h : (batchingMachine ρ).Reachable b) :
    (b.handed.flatten ++ b.batch).Pairwise Event.Precedes := by
  obtain ⟨messages, hordered⟩ := exists_ordered (reachable_session h)
  rw [(batching_inv h).balance]
  exact hordered.produced

/-- The first event of a transaction is flushed when its deadline passes; the deadline of the
next one passes before the result is there. Every message is checked against one budget. -/
def slowFlush (batchSizeBytes : ℕ) : List (LoopInput Unit) :=
  let ans : MessageAnswers := .owning ⟨⟨1, ⟨"public", "users"⟩, [], 0⟩, [], []⟩
  let message (message : ReplicationMessage Unit) : List (LoopInput Unit) :=
    [.idle none, .message message ans 10 batchSizeBytes (.ok ()) false, .idle none]
  message (.xLogData 5 5 (.begin 20)) ++ [.idle none, .flushDeadline (.ok ()), .idle none] ++
    message (.xLogData 6 6 (.row .insert 1 ())) ++ [.idle none, .flushDeadline (.ok ())]

/-- Where this leaves the loop. -/
theorem slowFlush_end :
    ((batchingMachine Unit).run (.start (.start 0 none)) (slowFlush 1000)).map (fun b =>
      (b.handed.map (·.length), b.batch.length, b.session.state.processingPaused, b.queued,
        b.session.state.eventsBatchBytes))
      = some ([1], 1, true, some .flushDeadlineReached, 10) := by
  decide +kernel

theorem batches_in_order_slowFlush :
    ∃ b, (batchingMachine Unit).run (.start (.start 0 none)) (slowFlush 1000) = some b ∧
      b.handed.map (·.length) = [1] ∧ b.batch.length = 1 ∧ b.writing.length ≤ 1 ∧
      b.handed.flatten ++ b.batch = b.session.producedEvents := by
  obtain ⟨b, hrun, hend⟩ := Option.map_eq_some_iff.mp slowFlush_end
  simp only [Prod.mk.injEq] at hend
  have hstart : (batchingMachine Unit).Reachable (.start (.start 0 none)) :=
    .init ⟨_, ⟨0, none, by simp, rfl⟩, rfl⟩
  obtain ⟨hwriting, hbalance, -⟩ := batches_in_order (hstart.run (slowFlush 1000) hrun)
  exact ⟨b, hrun, hend.1, hend.2.1, hwriting, hbalance⟩

theorem handed_in_key_order_slowFlush :
    ∃ b, (batchingMachine Unit).run (.start (.start 0 none)) (slowFlush 1000) = some b ∧
      b.handed.map (·.length) = [1] ∧ b.batch.length = 1 ∧
      (b.handed.flatten ++ b.batch).Pairwise Event.Precedes := by
  obtain ⟨b, hrun, hend⟩ := Option.map_eq_some_iff.mp slowFlush_end
  simp only [Prod.mk.injEq] at hend
  have hstart : (batchingMachine Unit).Reachable (.start (.start 0 none)) :=
    .init ⟨_, ⟨0, none, by simp, rfl⟩, rfl⟩
  exact ⟨b, hrun, hend.1, hend.2.1, handed_in_key_order (hstart.run (slowFlush 1000) hrun)⟩

/-- The loop is then paused behind the flush although its batch has not reached the budget. -/
theorem paused_before_budget :
    ∃ b, (batchingMachine Unit).run (.start (.start 0 none)) (slowFlush 1000) = some b ∧
      b.session.state.processingPaused = true ∧ b.queued = some .flushDeadlineReached ∧
      b.session.state.eventsBatchBytes < 1000 := by
  obtain ⟨b, hrun, hend⟩ := Option.map_eq_some_iff.mp slowFlush_end
  simp only [Prod.mk.injEq] at hend
  obtain ⟨-, -, hpaused, hqueued, hbytes⟩ := hend
  exact ⟨b, hrun, hpaused, hqueued, by omega⟩

end Etl
