import Etl.Workers.Pipeline

/-! # The loops at their hooks

Which hook runs at which point of a loop and with which position, what is known about the
loop there, and that a loop whose hook asks for an exit takes no further message.

Reference: `etl/src/replication/apply.rs` (`process_syncing_tables_after_commit_event`).
-/

namespace Etl

variable {ρ : Type}

/-- The answer of a hook that an input carries. -/
def LoopInput.hookAnswer? : LoopInput ρ → Option (Option ExitIntent)
  | .idle exitIntent | .commitHook exitIntent _ _ _ | .flushHook exitIntent _ => some exitIntent
  | _ => none

namespace Session

variable {s s' : Session ρ} {tableId : TableId} {wal : Wal ρ} {cursor : Cursor ρ}
  {prior : List (Event ρ)} {must : PgLsn → Prop} {input : LoopInput ρ} {lsn : PgLsn}
  {kind : HookKind}

theorem idleHook_eq (hhook : s.idleHook = some (kind, lsn)) :
    kind = .whenIdle ∧ lsn = s.state.effectiveFlushLsn ∧ s.state.exitIntent = none ∧
      s.state.isIdle = true := by
  unfold Session.idleHook at hhook
  split_ifs at hhook with hidle
  cases hhook
  simp only [Bool.and_eq_true, Option.isNone_iff_eq_none] at hidle
  exact ⟨rfl, rfl, hidle⟩

/-- The hooks and where they run. -/
theorem dueHook_cases (hhook : s.dueHook = some (kind, lsn)) :
    kind = .whenIdle ∧ (s.point = .preflight ∧ s.state.shutdownState = .noShutdown ∨
        s.point = .epilogue) ∧ lsn = s.state.effectiveFlushLsn ∧ s.state.exitIntent = none ∧
        s.state.isIdle = true ∨
      kind = .afterCommit ∧ (∃ startLsn commitLsn, s.point = .inCommit startLsn commitLsn lsn) ∨
      kind = .afterFlush ∧ (∃ paused, s.point = .inFlush paused) ∧
        lsn = s.state.replicationProgress.lastFlushLsn := by
  unfold Session.dueHook at hhook
  split at hhook
  next hpoint =>
    split_ifs at hhook with hshutdown
    obtain ⟨hkind, hidle⟩ := idleHook_eq hhook
    refine .inl ⟨hkind, .inl ⟨hpoint, ?_⟩, hidle⟩
    cases hstate : s.state.shutdownState with
    | noShutdown => rfl
    | drainingForShutdown => simp [hstate, ShutdownState.isRequested] at hshutdown
  next hpoint =>
    obtain ⟨hkind, hidle⟩ := idleHook_eq hhook
    exact .inl ⟨hkind, .inr hpoint, hidle⟩
  next startLsn commitLsn endLsn hpoint =>
    cases hhook
    exact .inr (.inl ⟨rfl, startLsn, commitLsn, hpoint⟩)
  next paused hpoint =>
    cases hhook
    exact .inr (.inr ⟨rfl, ⟨paused, hpoint⟩, rfl⟩)
  · simp at hhook

theorem isIdle_closed (hidle : s.state.isIdle = true) : s.state.remoteFinalLsn = none := by
  simp only [ApplyLoopState.isIdle, ApplyLoopState.handlingTransaction, Bool.and_eq_true,
    Bool.not_eq_true', Option.isSome_eq_false_iff, Option.isNone_iff_eq_none] at hidle
  exact hidle.1

/-- The position of a hook after a flush or when idle is acknowledged. -/
theorem Inv.acked_dueHook (h : s.Inv) (hhook : s.dueHook = some (kind, lsn))
    (hkind : kind ≠ .afterCommit) :
    AckedThrough s.delivered s.acked lsn ∧ lsn ≤ s.sender.ceiling ∧
      ∀ e ∈ s.openEvents, lsn ≤ e.commitLsn := by
  have hplain : ∀ lsn, s.InStep → AckedThrough s.delivered s.acked lsn → lsn ≤ s.state.ceiling →
      AckedThrough s.delivered s.acked lsn ∧ lsn ≤ s.sender.ceiling ∧
        ∀ e ∈ s.openEvents, lsn ≤ e.commitLsn := by
    intro lsn hstep hacked hle
    refine ⟨hacked, hstep.sender_ceiling ▸ hle, ?_⟩
    intro e he
    rwa [ApplyLoopState.ceiling, hstep.openEvents_commit e he] at hle
  rcases dueHook_cases hhook with ⟨-, hpoint, rfl, -, -⟩ | ⟨rfl, -⟩ | ⟨-, ⟨paused, hpoint⟩, rfl⟩
  · have hstep : s.InStep := by
      rcases hpoint with ⟨hpoint, -⟩ | hpoint
      all_goals exact h.inStep (by rw [hpoint]; rfl)
    obtain ⟨hacked, hle, -⟩ :=
      hstep.running.effectiveFlushLsn (received_le_ceiling_of_idle s)
    exact hplain _ hstep hacked hle
  · exact absurd rfl hkind
  · have hstep : s.InStep := h.inStep (by rw [hpoint]; rfl)
    exact hplain _ hstep hstep.running.flush_acked hstep.running.flush_le_ceiling

/-- A hook that may wait runs outside of transactions, and everything the connection has gone
past commits before its position. -/
theorem Follows.lt_of_dueHook (h : s.Follows wal cursor) (hhook : s.dueHook = some (kind, lsn))
    (hkind : kind ≠ .afterFlush) :
    s.sender.openCommit = none ∧ ∀ tx ∈ wal.txs.take cursor.next, tx.commitLsn < lsn := by
  rcases dueHook_cases hhook with
    ⟨-, hpoint, rfl, -, hidle⟩ | ⟨-, startLsn, commitLsn, hpoint⟩ | ⟨rfl, -⟩
  · have hstep : s.InStep := by
      rcases hpoint with ⟨hpoint, -⟩ | hpoint
      all_goals exact h.inv.inStep (by rw [hpoint]; rfl)
    refine ⟨hstep.open_eq.trans (isIdle_closed hidle), ?_⟩
    intro tx htx
    rw [ApplyLoopState.effectiveFlushLsn, if_pos hidle, ← hstep.sent_eq]
    exact h.aligned.behind_lt tx htx
  · have hclosed := h.inv
    unfold Inv at hclosed
    rw [hpoint] at hclosed
    refine ⟨hclosed.open_eq.1, ?_⟩
    intro tx htx
    exact lt_of_lt_of_le (wal.commit_lt tx (List.mem_of_mem_take htx))
      ((h.closing startLsn commitLsn lsn hpoint).2 tx htx)
  · exact absurd rfl hkind

/-- A hook that is due at rest is the idle hook. -/
theorem runsIdleHook_of_dueHook (hhook : s.dueHook.isSome = true)
    (hrests : s.point.isResting = true) : s.runsIdleHook = true := by
  obtain ⟨⟨kind, lsn⟩, hhook⟩ := Option.isSome_iff_exists.mp hhook
  rcases dueHook_cases hhook with
    ⟨-, hpoint, -, hexit, hidle⟩ | ⟨-, startLsn, commitLsn, hpoint⟩ | ⟨-, ⟨paused, hpoint⟩, -⟩
  · rcases hpoint with ⟨hpoint, hshutdown⟩ | hpoint
    · simp [runsIdleHook, hexit, hidle, hpoint, hshutdown, ShutdownState.isRequested]
    · simp [runsIdleHook, hexit, hidle, hpoint]
  all_goals
    rw [hpoint] at hrests
    cases hrests

/-- A hook that asks for an exit gets it, unless the loop fails at once. -/
theorem exit_of_dueHook (hnext : s.next input = some s') (hhook : s.dueHook.isSome = true)
    {exitIntent : ExitIntent} (hanswer : input.hookAnswer? = some (some exitIntent)) :
    s'.state.exitIntent.isSome = true ∨ s'.point.isFailed = true := by
  have hrecord : (s.state.recordExitIntent (some exitIntent)).exitIntent.isSome = true := by
    rw [ApplyLoopState.isSome_recordExitIntent]
    simp
  cases loopStep_of_next hnext with
  | quiet reported shutdownState point hquiet hrests _ _ =>
    obtain ⟨_, _, _, heq, rfl, -⟩ := s.rest_eq input reported shutdownState point
    refine .inl ?_
    cases input with
    | idle exitIntent' =>
      cases hanswer
      rw [heq, asked, if_pos (runsIdleHook_of_dueHook hhook hrests)]
      exact hrecord
    | commitHook | flushHook => cases hquiet
    | _ => cases hanswer
  | @commitEnded _ _ _ _ sizeHint batchSizeBytes writeEvents _ =>
    cases hanswer
    rcases s.takeResult_cases _ _ sizeHint batchSizeBytes writeEvents with
      ⟨error, heq⟩ | ⟨state, hcollect, heq⟩
    · exact .inr (by rw [heq]; rfl)
    · refine .inl ?_
      rw [heq, (collectAndFlush_frame hcollect).2.2.1]
      exact hrecord
  | flushHook _ =>
    cases hanswer
    exact .inl ((keeps_retryQueuedFlush _ _ _).exit_kept hrecord)
  | _ => cases hanswer

end Session

end Etl
