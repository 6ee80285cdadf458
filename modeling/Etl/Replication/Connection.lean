import Etl.Replication.Changes

/-! # A loop on its connection

An apply loop that reads a connection to the log agrees with it about the open transaction and
about what has been sent, and every event the loop has produced belongs to a transaction of
the log: the open one, or one that the connection has gone past.

Reference: `etl/src/replication/apply.rs`.
-/

namespace Etl

open List

variable {ρ : Type}

/-- Whether the loop has failed. -/
def LoopPoint.isFailed : LoopPoint → Bool
  | .failed _ => true
  | _ => false

theorem LoopPoint.isOver_of_isFailed {point : LoopPoint} (h : point.isFailed = true) :
    point.isOver = true := by
  cases point with
  | failed error => rfl
  | _ => simp [isFailed] at h

/-- What the surroundings answer for the message of an input. -/
def LoopInput.answers? : LoopInput ρ → Option MessageAnswers
  | .message _ ans _ _ _ _ => some ans
  | _ => none

namespace Session

/-- The loop follows the log on a connection. While the commit hook runs, the transaction that
commits is the last one the connection has gone past. -/
structure Follows (s : Session ρ) (wal : Wal ρ) (cursor : Cursor ρ) : Prop where
  inv : s.Inv
  aligned : wal.Aligned s.sender cursor
  closing : ∀ startLsn commitLsn endLsn, s.point = .inCommit startLsn commitLsn endLsn →
    (∃ tx ∈ wal.txs.take cursor.next, tx.commitLsn = commitLsn) ∧
      ∀ tx ∈ wal.txs.take cursor.next, tx.endLsn ≤ endLsn
  sourced : ∀ e ∈ s.producedEvents, s.sender.openCommit = some e.commitLsn ∨
    ∃ tx ∈ wal.txs.take cursor.next, tx.commitLsn = e.commitLsn

variable {s s' : Session ρ} {tableId : TableId} {wal : Wal ρ} {cursor cursor' : Cursor ρ}
  {input : LoopInput ρ} {e : Event ρ}

/-! ## Parts of steps -/

theorem isFailed_of_next (hnext : s.next input = some s') : s.point.isFailed = false := by
  have hover := isOver_of_next hnext
  cases hpoint : s.point with
  | failed error => simp [hpoint, LoopPoint.isOver] at hover
  | _ => rfl

theorem isFailed_of_fail {error : EtlError} (hnext : s.next (.fail error) = some s') :
    s'.point.isFailed = true := by
  unfold Session.next at hnext
  split at hnext
  all_goals try contradiction
  split_ifs at hnext
  cases hnext
  rfl

/-- Positions that have been reported or count as flushed do not get lost. -/
theorem positions_of_next (hnext : s.next input = some s') {lsn : PgLsn}
    (hlsn : lsn ∈ s.positions) : ∃ lsn' ∈ s'.positions, lsn ≤ lsn' := by
  have hmono : ∀ sender, { s with sender }.Keeps s' → ∃ lsn' ∈ s'.positions, lsn ≤ lsn' := by
    intro sender hkeeps
    rcases mem_cons.mp hlsn with rfl | hreport
    · exact ⟨_, mem_cons_self, hkeeps.flush_le⟩
    · refine ⟨lsn, mem_cons_of_mem _ ?_, le_rfl⟩
      exact (hkeeps.reports_prefix.map _).subset hreport
  have hkeeps := keeps_of_next hnext
  cases input with
  | message message ans sizeHint batchSizeBytes writeEvents withinInterval =>
    obtain ⟨sender, -, hkeeps⟩ := hkeeps
    exact hmono sender hkeeps
  | _ => exact hmono s.sender hkeeps

theorem Inv.open_eq (h : s.Inv) (hpoint : s.point = .select) :
    s.sender.openCommit = s.state.remoteFinalLsn := by
  unfold Inv at h
  rw [hpoint] at h
  exact h.open_eq

theorem open_of_commit {commitLsn endLsn : PgLsn} (hnext : s.next input = some s')
    (hdata : input.data? = some (.commit commitLsn endLsn)) :
    s.sender.openCommit = some commitLsn := by
  have hkeeps := keeps_of_next hnext
  cases input with
  | message message ans sizeHint batchSizeBytes writeEvents withinInterval =>
    obtain ⟨sender, hsend, -⟩ := hkeeps
    cases message with
    | primaryKeepAlive walEnd replyRequested => simp [LoopInput.data?] at hdata
    | xLogData walStart walEnd data =>
      cases hdata
      simp only [WalSender.send] at hsend
      split_ifs at hsend with horder hopen
      exact hopen.1
  | _ => simp [LoopInput.data?] at hdata

theorem aligned_next [DecidableEq ρ] (haligned : wal.Aligned s.sender cursor)
    (hnext : s.next input = some s')
    (hfollow : wal.follow cursor s.sender.openCommit.isSome input = some cursor') :
    wal.Aligned s'.sender cursor' := by
  have hkeeps := keeps_of_next hnext
  cases input with
  | message message ans sizeHint batchSizeBytes writeEvents withinInterval =>
    obtain ⟨sender, hsend, hkeeps⟩ := hkeeps
    rw [hkeeps.sender_eq]
    exact haligned.deliver hsend hfollow
  | _ =>
    obtain rfl := Wal.follow_eq rfl hfollow
    rw [hkeeps.sender_eq]
    exact haligned

/-- While the commit hook runs, the transaction that commits is the last one the connection
has gone past. -/
theorem closing_next [DecidableEq ρ] (hnext : s.next input = some s')
    (hfollow : wal.follow cursor s.sender.openCommit.isSome input = some cursor')
    {startLsn commitLsn endLsn : PgLsn} (hpoint : s'.point = .inCommit startLsn commitLsn endLsn) :
    (∃ tx ∈ wal.txs.take cursor'.next, tx.commitLsn = commitLsn) ∧
      ∀ tx ∈ wal.txs.take cursor'.next, tx.endLsn ≤ endLsn := by
  obtain ⟨⟨walEnd, _, _, _, _, _, rfl⟩, -⟩ := commit_of_inCommit hnext hpoint
  simp only [Wal.follow] at hfollow
  obtain ⟨last, hget, rfl, rfl, -, rfl⟩ := Wal.deliver_data hfollow
  refine ⟨⟨last, Wal.mem_take_of_getElem? hget, rfl⟩, ?_⟩
  intro tx htx
  rcases Wal.mem_take_succ hget htx with htx | rfl
  · exact le_trans (Wal.end_le_of_take hget htx)
      (Nat.le_of_lt (wal.commit_lt last (mem_of_getElem? hget)))
  · exact le_rfl

/-! ## Produced events -/

theorem TxStep.producedEvents_subset (h : s.TxStep input s') :
    s.producedEvents ⊆ s'.producedEvents := by
  unfold producedEvents
  cases h with
  | quiet _ hsame _ _ =>
    rw [hsame.openEvents_eq, hsame.delivered_eq]
    exact List.Subset.refl _
  | failed _ hopen hdelivered | commitBegun _ _ _ _ _ _ hopen hdelivered =>
    rw [hopen, hdelivered]
    exact List.Subset.refl _
  | handled _ _ _ _ _ _ _ hopen hdelivered _ =>
    rw [hopen, hdelivered, ← append_assoc]
    exact subset_append_left _ _
  | commitEnded _ hdelivered hopen _ _ =>
    rw [hopen, hdelivered]
    simp only [flatMap_append, flatMap_singleton, append_nil, ← append_assoc]
    exact subset_append_left _ _

/-- An event is produced by handling a message, or it is the one of a commit. -/
theorem TxStep.mem_producedEvents (h : s.TxStep input s') (he : e ∈ s'.producedEvents) :
    e ∈ s.producedEvents ∨
      (∃ startLsn endLsn, s.point = .inCommit startLsn e.commitLsn endLsn ∧
        e.body = .commit endLsn ∧ s'.sender = s.sender ∧ input.data? = none) ∨
      ∃ walStart walEnd data ans progress state result, input.answers? = some ans ∧
        input.data? = some data ∧ s.point = .select ∧ (∀ a b, data ≠ .commit a b) ∧
        s.sender.send (.xLogData walStart walEnd data) = some s'.sender ∧
        handleLogicalReplicationMessage ans walStart data
          { s.state with replicationProgress := progress } = .ok (state, result) ∧
        result.event = some e := by
  unfold producedEvents at he ⊢
  cases h with
  | quiet _ hsame _ _ =>
    rw [hsame.openEvents_eq, hsame.delivered_eq] at he
    exact .inl he
  | failed _ hopen hdelivered | commitBegun _ _ _ _ _ _ hopen hdelivered =>
    rw [hopen, hdelivered] at he
    exact .inl he
  | handled progress state result hpoint hdata hsend hhandle hopen hdelivered _ =>
    rw [hopen, hdelivered, ← append_assoc] at he
    rcases mem_append.mp he with he | he
    · exact .inl he
    · exact .inr (.inr ⟨_, _, _, _, progress, state, result, rfl, rfl, hpoint, hdata, hsend,
        hhandle, by simpa using he⟩)
  | commitEnded hpoint hdelivered hopen hsender _ =>
    rw [hopen, hdelivered] at he
    simp only [flatMap_append, flatMap_singleton, append_nil, ← append_assoc]
      at he
    rcases mem_append.mp he with he | he
    · exact .inl he
    · obtain rfl := mem_singleton.mp he
      exact .inr (.inl ⟨_, _, hpoint, rfl, hsender, rfl⟩)

/-- A new event for a table comes with a message of the open transaction that is taken from a
worker that owns the table. -/
theorem owned_of_next (hnext : s.next input = some s') (he : e ∈ s'.producedEvents)
    (hconcerns : e.body.concerns tableId = true)
    (hfits : ∀ ans data, input.answers? = some ans → input.data? = some data →
      ans.Fits data.relations) :
    e ∈ s.producedEvents ∨ s.point = .select ∧ s.state.exitIntent = none ∧
      s.state.remoteFinalLsn = some e.commitLsn ∧
      ∃ ans, input.answers? = some ans ∧ ans.shouldApplyChanges tableId = .ok true := by
  rcases (txStep_of_next hnext).mem_producedEvents he with
    he | ⟨_, _, _, hbody, _⟩ |
      ⟨walStart, walEnd, data, ans, progress, state, result, hans, hdata, hpoint, hcommit, -,
        hhandle, hevent⟩
  · exact .inl he
  · simp [hbody, EventBody.concerns] at hconcerns
  · refine .inr ⟨hpoint, ?_, ?_, ans, hans, ?_⟩
    · cases input with
      | message => exact (select_of_message hnext).2
      | _ => simp [LoopInput.answers?] at hans
    · cases data with
      | begin finalLsn =>
        cases hhandle
        cases hevent
        simp [EventBody.concerns] at hconcerns
      | commit commitLsn endLsn => exact absurd rfl (hcommit commitLsn endLsn)
      | _ => exact ((handleLogicalReplicationMessage_outcome rfl hhandle).event_open e hevent).2.1
    · exact handleLogicalReplicationMessage_owned (hfits ans data hans hdata) hhandle hevent
        hconcerns

/-! ## Steps -/

/-- What Postgres has not sent completely does not move back. -/
theorem ceiling_of_next (hnext : s.next input = some s') :
    s.sender.ceiling ≤ s'.sender.ceiling := by
  have hkeeps := keeps_of_next hnext
  cases input with
  | message message ans sizeHint batchSizeBytes writeEvents withinInterval =>
    obtain ⟨sender, hsend, hkeeps⟩ := hkeeps
    rw [hkeeps.sender_eq]
    exact WalSender.ceiling_le hsend
  | _ => exact le_of_eq (by rw [hkeeps.sender_eq])

/-- The open transaction stays open until it commits. -/
theorem openCommit_of_next {commitLsn : PgLsn} (hnext : s.next input = some s')
    (hopen : s.sender.openCommit = some commitLsn) :
    s'.sender.openCommit = some commitLsn ∨
      ∃ endLsn, input.data? = some (.commit commitLsn endLsn) := by
  have hkeeps := keeps_of_next hnext
  cases input with
  | message message ans sizeHint batchSizeBytes writeEvents withinInterval =>
    obtain ⟨sender, hsend, hkeeps⟩ := hkeeps
    rw [hkeeps.sender_eq]
    cases message with
    | primaryKeepAlive walEnd replyRequested =>
      cases hsend
      exact .inl hopen
    | xLogData walStart walEnd data =>
      cases data with
      | begin finalLsn => simp [WalSender.send, hopen] at hsend
      | commit commitLsn' endLsn =>
        have hcommit := open_of_commit hnext rfl
        cases hopen.symm.trans hcommit
        exact .inr ⟨endLsn, rfl⟩
      | _ => exact .inl ((WalSender.openCommit_of_inner rfl hsend).trans hopen)
  | _ => exact .inl (hkeeps.sender_eq ▸ hopen)

theorem Follows.sourced_next [DecidableEq ρ] (h : s.Follows wal cursor)
    (hnext : s.next input = some s')
    (hfollow : wal.follow cursor s.sender.openCommit.isSome input = some cursor') :
    ∀ e ∈ s'.producedEvents, s'.sender.openCommit = some e.commitLsn ∨
      ∃ tx ∈ wal.txs.take cursor'.next, tx.commitLsn = e.commitLsn := by
  have hbehind : ∀ commitLsn, (∃ tx ∈ wal.txs.take cursor.next, tx.commitLsn = commitLsn) →
      ∃ tx ∈ wal.txs.take cursor'.next, tx.commitLsn = commitLsn := by
    rintro commitLsn ⟨tx, htx, hcommit⟩
    refine ⟨tx, take_subset_take_left _ ?_ htx, hcommit⟩
    rcases Wal.follow_next hfollow with hsame | ⟨-, -, -, -, rfl⟩
    · exact hsame.ge
    · exact Nat.le_succ _
  have hopened : ∀ commitLsn, s.sender.openCommit = some commitLsn →
      s'.sender.openCommit = some commitLsn ∨
        ∃ tx ∈ wal.txs.take cursor'.next, tx.commitLsn = commitLsn := by
    intro commitLsn hopen
    rcases openCommit_of_next hnext hopen with hopen | ⟨endLsn, hdata⟩
    · exact .inl hopen
    · obtain ⟨tx, hget, hcommit, rfl⟩ := Wal.follow_commit hdata hfollow
      exact .inr ⟨tx, Wal.mem_take_of_getElem? hget, hcommit⟩
  intro e he
  rcases (txStep_of_next hnext).mem_producedEvents he with
    he | ⟨startLsn, endLsn, hpoint, -, -, -⟩ |
      ⟨walStart, walEnd, data, ans, progress, state, result, hans, hdata, hpoint, hcommit, hsend,
        hhandle, hevent⟩
  · rcases h.sourced e he with hopen | hpast
    · exact hopened _ hopen
    · exact .inr (hbehind _ hpast)
  · exact .inr (hbehind _ (h.closing startLsn _ endLsn hpoint).1)
  · cases data with
    | begin finalLsn =>
      cases hhandle
      cases hevent
      simp only [WalSender.send] at hsend
      split_ifs at hsend
      exact .inl (by rw [← Option.some.inj hsend])
    | commit commitLsn endLsn => exact absurd rfl (hcommit commitLsn endLsn)
    | _ =>
      have hfinal := ((handleLogicalReplicationMessage_outcome rfl hhandle).event_open e hevent).2.1
      exact hopened _ ((h.inv.open_eq hpoint).trans hfinal)

theorem Follows.next [DecidableEq ρ] (h : s.Follows wal cursor) (hnext : s.next input = some s')
    (hfollow : wal.follow cursor s.sender.openCommit.isSome input = some cursor') :
    s'.Follows wal cursor' where
  inv := inv_next h.inv hnext
  aligned := aligned_next h.aligned hnext hfollow
  closing _ _ _ hpoint := closing_next hnext hfollow hpoint
  sourced := h.sourced_next hnext hfollow

/-- The log may grow. -/
theorem Follows.extend (h : s.Follows wal cursor) {wal' : Wal ρ} (hextends : wal.Extends wal') :
    s.Follows wal' cursor := by
  have htake := hextends.take_eq h.aligned.next_le
  refine ⟨h.inv, h.aligned.extend hextends, ?_, ?_⟩
  · rw [htake]
    exact h.closing
  · rw [htake]
    exact h.sourced

/-- A new loop follows a new connection. -/
theorem follows_start {startLsn : PgLsn} {durableProgress : Option PgLsn}
    (hdurable : ∀ durable, durableProgress = some durable → durable ≤ startLsn)
    (hstart : startLsn ≤ wal.tip) :
    (Session.start startLsn durableProgress : Session ρ).Follows wal (wal.cursorAt startLsn) where
  inv := inv_start startLsn hdurable
  aligned := wal.aligned_cursorAt hstart
  closing _ _ _ hpoint := by simp [Session.start] at hpoint
  sourced := by simp [Session.start, producedEvents]

end Session

end Etl
