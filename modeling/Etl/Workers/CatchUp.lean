import Etl.Workers.LoopHooks

/-! # Catching up to a target

The commit hook of a table-sync worker asks its loop to exit as soon as a commit ends at or
above the target of the catch-up. Every position the loop can come to count as flushed is its
start or the end of a delivered commit. So when such a position reaches the target, it is the
end of the last commit the loop has taken, and nothing of the table that the loop has produced
commits at or above it.

Reference: `etl/src/workers/table_sync.rs`.
-/

namespace Etl

open List List.Subset ApplyLoopState

variable {ρ : Type} {writeEvents : EtlResult Unit} {st st' : ApplyLoopState ρ}

/-! ## The ends of commits in a loop -/

/-- The commit ends that wait to be flushed. -/
def ApplyLoopState.commitEnds (st : ApplyLoopState ρ) : List PgLsn :=
  st.lastCommitEndLsn.toList ++ (st.pendingFlushResult.bind (·.commitEndLsn)).toList

/-- The positions that count as flushed or may come to. -/
def Session.commitEnds (s : Session ρ) : List PgLsn :=
  s.state.replicationProgress.lastFlushLsn :: (s.durableProgress.toList ++ s.state.commitEnds)

theorem ApplyLoopState.commitEnds_flushBatch (h : st.flushBatch writeEvents = .ok st') :
    st'.commitEnds ⊆ st.commitEnds := by
  unfold flushBatch at h
  split_ifs at h with hbatch hpending
  · cases h
    exact refl _
  · cases h
    exact refl _
  · cases writeEvents with
    | error e => simp at h
    | ok _ =>
      cases h
      simp [commitEnds]

theorem ApplyLoopState.commitEnds_collect (st : ApplyLoopState ρ) (result : HandleMessageResult ρ)
    (sizeHint : ℕ) :
    (st.collect result sizeHint).commitEnds ⊆ result.endLsn.toList ++ st.commitEnds := by
  unfold collect
  cases result.event with
  | none => exact subset_append_right _ _
  | some event =>
    cases result.endLsn with
    | none =>
      simp only [updateLastCommitEndLsn_none]
      exact subset_append_right _ _
    | some endLsn =>
      obtain ⟨c, heq, hc⟩ := (st.addEventToBatch event sizeHint).updateLastCommitEndLsn_some endLsn
      simp only [heq]
      intro x hx
      rcases mem_append.mp hx with hx | hx
      · obtain rfl : x = c := by simpa [setFlushDeadlineIfNeeded] using hx
        rcases hc with rfl | hold
        · simp
        · have hold' : st.lastCommitEndLsn = some x := hold
          simp [commitEnds, hold']
      · exact mem_append_right _ (mem_append_right _ hx)

theorem commitEnds_collectAndFlush {result : HandleMessageResult ρ} {sizeHint batchSizeBytes : ℕ}
    (h : collectAndFlush st result sizeHint batchSizeBytes writeEvents = .ok st') :
    st'.commitEnds ⊆ result.endLsn.toList ++ st.commitEnds := by
  have hcollect := st.commitEnds_collect result sizeHint
  rcases collectAndFlush_cases h with rfl | hflush
  · exact hcollect
  · exact List.Subset.trans (commitEnds_flushBatch hflush) hcollect

namespace Session

variable {s s' : Session ρ} {input : LoopInput ρ}

/-- No commit is flushed: the flushed and the durable position stay, and an end that waits has
waited before or is one of the added ones. -/
structure KeepsEnds (added : List PgLsn) (s s' : Session ρ) : Prop where
  flush_eq : s'.state.replicationProgress.lastFlushLsn = s.state.replicationProgress.lastFlushLsn
  durable_eq : s'.durableProgress = s.durableProgress
  ends_subset : s'.state.commitEnds ⊆ added ++ s.state.commitEnds

theorem KeepsEnds.trans {added : List PgLsn} {s₁ s₂ s₃ : Session ρ} (h : KeepsEnds [] s₁ s₂)
    (h' : KeepsEnds added s₂ s₃) : KeepsEnds added s₁ s₃ where
  flush_eq := h'.flush_eq.trans h.flush_eq
  durable_eq := h'.durable_eq.trans h.durable_eq
  ends_subset := List.Subset.trans h'.ends_subset
    (append_subset.mpr ⟨subset_append_left _ _,
      List.Subset.trans h.ends_subset (subset_append_right _ _)⟩)

theorem keepsEnds_retryQueuedFlush (s : Session ρ) (due : Bool) (writeEvents : EtlResult Unit) :
    KeepsEnds [] s (s.retryQueuedFlush due writeEvents) := by
  rcases s.retryQueuedFlush_cases due writeEvents with ⟨error, heq⟩ | ⟨state, rfl | hflush, heq⟩
  · rw [heq]
    exact ⟨rfl, rfl, refl _⟩
  · rw [heq]
    exact ⟨rfl, rfl, refl _⟩
  · rw [heq]
    refine ⟨?_, rfl, commitEnds_flushBatch hflush⟩
    rw [(flushBatch_frame hflush).2]

theorem keepsEnds_acknowledge (s : Session ρ) (acked : List (Event ρ)) :
    KeepsEnds [] s (s.acknowledge acked) :=
  ⟨rfl, rfl, by simp [acknowledge, ApplyLoopState.commitEnds, ApplyLoopState.resumeProcessing]⟩

/-- Taking over a result adds the end of its commit. -/
theorem keepsEnds_takeResult (s : Session ρ) {state : ApplyLoopState ρ}
    (hprogress : state.replicationProgress.lastFlushLsn
      = s.state.replicationProgress.lastFlushLsn)
    (hstate : state.commitEnds = s.state.commitEnds) (result : HandleMessageResult ρ)
    (sizeHint batchSizeBytes : ℕ) (writeEvents : EtlResult Unit) :
    KeepsEnds result.endLsn.toList s
      (s.takeResult state result sizeHint batchSizeBytes writeEvents) := by
  have hrecord : (s.recordEvent result).state = s.state ∧
      (s.recordEvent result).durableProgress = s.durableProgress := by
    unfold recordEvent
    split <;> exact ⟨rfl, rfl⟩
  rcases s.takeResult_cases state result sizeHint batchSizeBytes writeEvents with
    ⟨error, heq⟩ | ⟨state', hcollect, heq⟩
  · rw [heq]
    refine ⟨by simp only [hrecord], hrecord.2, ?_⟩
    simp only [hrecord]
    exact subset_append_right _ _
  · rw [heq]
    refine ⟨?_, hrecord.2, ?_⟩
    · rw [(collectAndFlush_frame hcollect).2.2.2, hprogress]
    · rw [← hstate]
      exact commitEnds_collectAndFlush hcollect

theorem keepsEnds_receiveData (s : Session ρ) (sender : WalSender) (walStart walEnd : PgLsn) :
    KeepsEnds [] s (s.receiveData sender walStart walEnd) :=
  ⟨by simp [receiveData, receive], rfl, refl _⟩

theorem commitEnds_persisted {pending : PendingFlush ρ} {commitEndLsn : PgLsn}
    (hpending : s.state.pendingFlushResult = some pending)
    (hcommit : pending.commitEndLsn = some commitEndLsn) (writeEvents : EtlResult Unit) :
    (s.handleFlushResult pending (.ok ()) (.ok ()) writeEvents).commitEnds ⊆ s.commitEnds := by
  have hend : commitEndLsn ∈ s.commitEnds := by
    simp [commitEnds, ApplyLoopState.commitEnds, hpending, hcommit]
  have hdurable : max (s.durableProgress.getD commitEndLsn) commitEndLsn ∈ s.commitEnds := by
    rcases max_choice (s.durableProgress.getD commitEndLsn) commitEndLsn with heq | heq
    · rw [heq]
      cases hdurable : s.durableProgress with
      | none => exact hend
      | some durable => simp [commitEnds, hdurable]
    · rw [heq]
      exact hend
  simp only [handleFlushResult, hcommit]
  intro x hx
  rcases mem_cons.mp hx with hx | hx
  · rw [ReplicationProgress.updateLastFlushLsn_lastFlushLsn] at hx
    rcases max_choice s.state.replicationProgress.lastFlushLsn
      (max (s.durableProgress.getD commitEndLsn) commitEndLsn) with heq | heq
    · exact mem_cons.mpr (.inl (hx.trans heq))
    · rw [hx.trans heq]
      exact hdurable
  · rcases mem_append.mp hx with hx | hx
    · obtain rfl : x = max (s.durableProgress.getD commitEndLsn) commitEndLsn := by
        simpa using hx
      exact hdurable
    · have hold := (s.keepsEnds_acknowledge []).ends_subset hx
      exact mem_cons_of_mem _ (mem_append_right _ hold)

/-- A step flushes a commit, or it keeps the ends; an end is added by the commit hook only. -/
theorem keepsEnds_of_next (hnext : s.next input = some s') :
    (∃ added, KeepsEnds added s s' ∧
        ∀ lsn ∈ added, ∃ startLsn commitLsn, s.point = .inCommit startLsn commitLsn lsn) ∨
      ∃ pending commitEndLsn writeEvents,
        input = .flushResult (.ok ()) (.ok ()) writeEvents ∧
        s.state.pendingFlushResult = some pending ∧ pending.commitEndLsn = some commitEndLsn ∧
        s' = s.handleFlushResult pending (.ok ()) (.ok ()) writeEvents := by
  have hkept : KeepsEnds [] s s' → ∃ added, KeepsEnds added s s' ∧
      ∀ lsn ∈ added, ∃ startLsn commitLsn, s.point = .inCommit startLsn commitLsn lsn :=
    fun h => ⟨[], h, fun lsn hlsn => by cases hlsn⟩
  cases loopStep_of_next hnext with
  | quiet reported shutdownState point _ _ _ _ =>
    obtain ⟨_, _, _, heq, -, -⟩ := s.rest_eq input reported shutdownState point
    refine .inl (hkept ?_)
    rw [heq]
    exact ⟨rfl, rfl, refl _⟩
  | fail error => exact .inl (hkept ⟨rfl, rfl, refl _⟩)
  | @keepAlive sender walEnd replyRequested _ _ _ _ withinInterval _ _ =>
    have hreceive :
        KeepsEnds [] s (s.receiveKeepAlive sender walEnd replyRequested withinInterval) :=
      ⟨by simp [receiveKeepAlive, sendStatusUpdate, receive], rfl, refl _⟩
    exact .inl (hkept (hreceive.trans (keepsEnds_takeResult _ rfl rfl .noEvent _ _ _)))
  | refused sender error _ _ _ | commitBegun sender _ _ _ =>
    exact .inl (hkept (.trans (s.keepsEnds_receiveData sender _ _)
      ⟨rfl, rfl, refl _⟩))
  | @handled sender walStart walEnd _ _ _ _ _ _ state result _ hdata _ hhandle =>
    have hend : [] = result.endLsn.toList := by
      rw [endLsn_eq_none hdata hhandle]
      rfl
    obtain ⟨_, _, rfl⟩ := handleLogicalReplicationMessage_eq hdata hhandle
    refine .inl (hkept ((s.keepsEnds_receiveData sender walStart walEnd).trans ?_))
    rw [hend]
    exact keepsEnds_takeResult _ (by rfl) (by rfl) _ _ _ _
  | @commitEnded startLsn commitLsn endLsn exitIntent _ _ _ hpoint =>
    obtain ⟨exitIntent', heq⟩ := s.state.recordExitIntent_eq exitIntent
    simp only [finishCommitMessage, heq]
    refine .inl ⟨_, keepsEnds_takeResult s (by rfl) (by rfl) _ _ _ _, ?_⟩
    intro lsn hlsn
    obtain rfl : lsn = endLsn := by simpa using hlsn
    exact ⟨startLsn, commitLsn, hpoint⟩
  | flushFailed acked error _ _ _ =>
    exact .inl (hkept (.trans (s.keepsEnds_acknowledge acked) ⟨rfl, rfl, refl _⟩))
  | acknowledged _ _ _ =>
    exact .inl (hkept ((s.keepsEnds_acknowledge _).trans (keepsEnds_retryQueuedFlush _ _ _)))
  | persisted _ hpending hcommit => exact .inr ⟨_, _, _, rfl, hpending, hcommit, rfl⟩
  | @flushHook paused exitIntent writeEvents _ =>
    have hrecord : KeepsEnds [] s { s with state := s.state.recordExitIntent exitIntent } := by
      obtain ⟨exitIntent', heq⟩ := s.state.recordExitIntent_eq exitIntent
      rw [heq]
      exact ⟨rfl, rfl, refl _⟩
    exact .inl (hkept (hrecord.trans (keepsEnds_retryQueuedFlush _ _ _)))
  | flushDeadline _ _ => exact .inl (hkept (s.keepsEnds_retryQueuedFlush _ _))

/-- The end of a commit enters with the commit. -/
theorem commitEnds_of_next (hnext : s.next input = some s') {lsn : PgLsn}
    (hlsn : lsn ∈ s'.commitEnds) :
    lsn ∈ s.commitEnds ∨ ∃ startLsn commitLsn, s.point = .inCommit startLsn commitLsn lsn := by
  rcases keepsEnds_of_next hnext with
    ⟨added, hkept, hadded⟩ | ⟨pending, commitEndLsn, writeEvents, -, hpending, hcommit, rfl⟩
  · simp only [commitEnds, hkept.flush_eq, hkept.durable_eq, mem_cons, mem_append]
      at hlsn ⊢
    rcases hlsn with hlsn | hlsn | hlsn
    · exact .inl (.inl hlsn)
    · exact .inl (.inr (.inl hlsn))
    · rcases mem_append.mp (hkept.ends_subset hlsn) with hlsn | hlsn
      · exact .inr (hadded lsn hlsn)
      · exact .inl (.inr (.inr hlsn))
  · exact .inl (commitEnds_persisted hpending hcommit writeEvents hlsn)

/-! ## The target -/

variable {tableId : TableId} {wal : Wal ρ} {cursor : Cursor ρ} {snapshotLsn catchupLsn lsn : PgLsn}
  {kind : HookKind}

/-- The loop takes no further message, and what it has produced of the table commits before the
position. -/
structure Drained (s : Session ρ) (tableId : TableId) (lsn : PgLsn) : Prop where
  stopped : s.state.exitIntent.isSome = true ∨ s.point.isFailed = true
  rows_lt : ∀ e ∈ s.producedEvents, e.body.concerns tableId = true → e.commitLsn < lsn

/-- A loop that is asked to exit stays so and takes no message. -/
theorem exit_of_next (hnext : s.next input = some s') (hexit : s.state.exitIntent.isSome = true) :
    s'.state.exitIntent.isSome = true := by
  have hkeeps := keeps_of_next hnext
  cases input with
  | message => simp [(select_of_message hnext).2] at hexit
  | _ => exact hkeeps.exit_kept hexit

theorem Drained.next (h : s.Drained tableId lsn) (hnext : s.next input = some s')
    (hfits : ∀ ans data, input.answers? = some ans → input.data? = some data →
      ans.Fits data.relations) : s'.Drained tableId lsn := by
  have hexit : s.state.exitIntent.isSome = true := by
    rcases h.stopped with hexit | hfailed
    · exact hexit
    · simp [isFailed_of_next hnext] at hfailed
  refine ⟨.inl (exit_of_next hnext hexit), ?_⟩
  intro e he hconcerns
  rcases owned_of_next hnext he hconcerns hfits with he | ⟨-, hnone, -⟩
  · exact h.rows_lt e he hconcerns
  · simp [hnone] at hexit

/-- A loop that catches up: it has not begun, or each position that may come to count as flushed
is below the target or is where the loop ends. -/
def CatchingUp (s : Session ρ) (tableId : TableId) (snapshotLsn catchupLsn : PgLsn) : Prop :=
  s = .start snapshotLsn none ∨
    ∀ lsn ∈ s.commitEnds, lsn < catchupLsn ∨ s.Drained tableId lsn

/-- What the loop has produced commits before the position of a hook that may wait. -/
theorem Follows.rows_lt_of_dueHook (h : s.Follows wal cursor) (hdue : s.dueHook = some (kind, lsn))
    (hkind : kind ≠ .afterFlush) :
    ∀ e ∈ s.producedEvents, e.commitLsn < lsn := by
  intro e he
  obtain ⟨hclosed, hbehind⟩ := h.lt_of_dueHook hdue hkind
  rcases h.sourced e he with hopen | ⟨tx, htx, hcommit⟩
  · simp [hclosed] at hopen
  · exact hcommit ▸ hbehind tx htx

/-- Where the catch-up ends, everything of the table that was produced commits before. -/
theorem CatchingUp.rows_lt (h : s.CatchingUp tableId snapshotLsn catchupLsn)
    (hfollows : s.Follows wal cursor) (hdue : s.dueHook = some (kind, lsn))
    (hkind : kind ≠ .afterCommit) (hreached : catchupLsn ≤ lsn) :
    ∀ e ∈ s.producedEvents, e.body.concerns tableId = true → e.commitLsn < lsn := by
  by_cases hflush : kind = .afterFlush
  · subst hflush
    obtain ⟨⟨paused, hpoint⟩, rfl⟩ : (∃ paused, s.point = .inFlush paused) ∧
        lsn = s.state.replicationProgress.lastFlushLsn := by
      simpa using dueHook_cases hdue
    rcases h with rfl | hends
    · simp [Session.start] at hpoint
    · rcases hends _ mem_cons_self with hlt | hdrained
      · exact absurd hreached (not_le.mpr hlt)
      · exact hdrained.rows_lt
  · exact fun e he _ => hfollows.rows_lt_of_dueHook hdue hflush e he

/-- A step of a loop that does not end its catch-up, with the answer of the commit hook. -/
theorem CatchingUp.next (h : s.CatchingUp tableId snapshotLsn catchupLsn)
    (hfollows : s.Follows wal cursor) (hnext : s.next input = some s')
    (hfits : ∀ ans data, input.answers? = some ans → input.data? = some data →
      ans.Fits data.relations)
    (hbelow : ∀ kind lsn, s.dueHook = some (kind, lsn) → kind ≠ .afterCommit → lsn < catchupLsn)
    (hanswer : ∀ lsn, s.dueHook = some (.afterCommit, lsn) → catchupLsn ≤ lsn →
      input.hookAnswer? = some (some .complete)) :
    s'.CatchingUp tableId snapshotLsn catchupLsn := by
  refine .inr ?_
  intro lsn hlsn
  rcases commitEnds_of_next hnext hlsn with hold | ⟨startLsn, commitLsn, hpoint⟩
  · rcases h with rfl | hends
    · obtain rfl : lsn = snapshotLsn := by
        simpa [commitEnds, Session.start, ApplyLoopState.new, ApplyLoopState.commitEnds] using hold
      exact .inl (hbelow .whenIdle lsn rfl (by simp))
    · rcases hends lsn hold with hlt | hdrained
      · exact .inl hlt
      · exact .inr (hdrained.next hnext hfits)
  · have hdue : s.dueHook = some (.afterCommit, lsn) := by
      simp [dueHook, hpoint]
    by_cases hlt : lsn < catchupLsn
    · exact .inl hlt
    refine .inr ⟨exit_of_dueHook hnext (by rw [hdue]; rfl) (hanswer lsn hdue (not_lt.mp hlt)), ?_⟩
    intro e he hconcerns
    rcases owned_of_next hnext he hconcerns hfits with he | ⟨hselect, -⟩
    · exact hfollows.rows_lt_of_dueHook hdue (by simp) e he
    · simp [hpoint] at hselect

end Session

end Etl
