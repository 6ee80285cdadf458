import Etl.Replication.LoopSteps

/-! # Reported progress is acknowledged progress

Postgres may discard WAL up to a reported flush position, so nothing delivered up to there
may still be unacknowledged. The invariant has two parts. What is said about positions
already reported or flushed holds even in a failed loop. The rest relates the running loop's
buffers to its history: everything produced is acknowledged, in flight or in the batch, and
every position that matters lies below a *ceiling*, the commit position of the open
transaction or else the received position. A transaction that completes later ends above
the ceiling, which is why positions stay valid.

Reference: `etl/src/replication/apply.rs` (`effective_flush_lsn`, `send_status_update`).
-/

namespace Etl

open List ApplyLoopState Session

variable {ρ : Type}

/-! ## Acknowledged positions -/

/-- Every delivered transaction that ends at or before the position, or commits before it,
has had all its events acknowledged, in order. -/
def AckedThrough (delivered : List (DeliveredTx ρ)) (acked : List (Event ρ)) (lsn : PgLsn) :
    Prop :=
  ∃ done rest, delivered = done ++ rest ∧
    (∀ tx ∈ rest, lsn ≤ tx.commitLsn ∧ lsn < tx.endLsn) ∧ done.flatMap (·.events) <+: acked

namespace AckedThrough

variable {delivered : List (DeliveredTx ρ)} {acked : List (Event ρ)} {lsn : PgLsn}

/-- If everything delivered is acknowledged, any position is. -/
theorem of_all (h : delivered.flatMap (·.events) <+: acked) (lsn : PgLsn) :
    AckedThrough delivered acked lsn :=
  ⟨delivered, [], by simp, by simp, h⟩

theorem mono (h : AckedThrough delivered acked lsn) {acked' : List (Event ρ)}
    (hacked : acked <+: acked') : AckedThrough delivered acked' lsn := by
  obtain ⟨done, rest, hsplit, hrest, hdone⟩ := h
  exact ⟨done, rest, hsplit, hrest, hdone.trans hacked⟩

/-- A transaction that commits at or above the position does not affect it. -/
theorem append (h : AckedThrough delivered acked lsn) {tx : DeliveredTx ρ}
    (htx : lsn ≤ tx.commitLsn ∧ lsn < tx.endLsn) : AckedThrough (delivered ++ [tx]) acked lsn := by
  obtain ⟨done, rest, rfl, hrest, hdone⟩ := h
  refine ⟨done, rest ++ [tx], by simp, ?_, hdone⟩
  intro tx' htx'
  rcases mem_append.mp htx' with hmem | hmem
  · exact hrest tx' hmem
  · rw [mem_singleton.mp hmem]
    exact htx

theorem max (h : AckedThrough delivered acked lsn) {lsn' : PgLsn}
    (h' : AckedThrough delivered acked lsn') : AckedThrough delivered acked (max lsn lsn') := by
  rcases max_choice lsn lsn' with heq | heq
  · rw [heq]
    exact h
  · rw [heq]
    exact h'

end AckedThrough

/-! ## The invariant -/

/-- The events handed to the destination whose result is awaited. -/
def ApplyLoopState.inFlightEvents (st : ApplyLoopState ρ) : List (Event ρ) :=
  match st.pendingFlushResult with
  | none => []
  | some pending => pending.events

/-- What holds of reported and flushed positions, in failed loops too. -/
structure Session.Settled (s : Session ρ) : Prop where
  reports_acked : ∀ r ∈ s.reports, AckedThrough s.delivered s.acked r.flushLsn
  reports_mono : s.reports.Pairwise (fun r r' => r.flushLsn ≤ r'.flushLsn)
  reports_le : ∀ r ∈ s.reports, r.flushLsn ≤ r.writeLsn
  flush_acked : AckedThrough s.delivered s.acked s.state.replicationProgress.lastFlushLsn
  durable_le : ∀ durable, s.durableProgress = some durable →
    durable ≤ s.state.replicationProgress.lastFlushLsn
  delivered_commit : ∀ tx ∈ s.delivered, ∀ e ∈ tx.events, e.commitLsn = tx.commitLsn

/-- The positions that have been reported or count as flushed. -/
def Session.positions (s : Session ρ) : List PgLsn :=
  s.state.replicationProgress.lastFlushLsn :: s.reports.map (·.flushLsn)

/-- The commit position of the transaction Postgres is sending, or else everything sent. -/
def WalSender.ceiling (w : WalSender) : PgLsn := w.openCommit.getD w.sentUpTo

/-- A message does not lower the ceiling: a transaction begins at or above everything sent and
its commit is sent with a position above it. -/
theorem WalSender.ceiling_le {w w' : WalSender} {message : ReplicationMessage ρ}
    (h : w.send message = some w') : w.ceiling ≤ w'.ceiling := by
  unfold WalSender.ceiling
  cases message with
  | primaryKeepAlive walEnd replyRequested =>
    cases h
    cases hopen : w.openCommit with
    | none => exact le_max_left _ _
    | some commitLsn => exact le_rfl
  | xLogData walStart walEnd data =>
    simp only [WalSender.send] at h
    split_ifs at h
    split at h
    · split_ifs at h with hbegin
      cases h
      rw [hbegin.1]
      exact hbegin.2
    · split_ifs at h with hcommit
      cases h
      rw [hcommit.1]
      exact le_trans (Nat.le_of_lt hcommit.2.1) (le_trans hcommit.2.2 (le_max_right _ _))
    · cases h
      cases hopen : w.openCommit with
      | none => exact le_max_left _ _
      | some commitLsn => exact le_rfl

/-- What holds of a failed loop: its positions lie below what Postgres was sending and below
what the loop had not completed. -/
structure Session.Stopped (s : Session ρ) : Prop extends s.Settled where
  positions_le : ∀ p ∈ s.positions, p ≤ s.sender.ceiling
  positions_le_open : ∀ e ∈ s.openEvents, ∀ p ∈ s.positions, p ≤ e.commitLsn

/-- What holds of a running loop, with the positions that matter below a ceiling. -/
structure Session.Running (s : Session ρ) (ceiling : PgLsn) : Prop extends s.Settled where
  balance : s.delivered.flatMap (·.events) ++ s.openEvents
    = s.acked ++ s.state.inFlightEvents ++ s.state.eventsBatch
  lastUpdate_eq : s.stream.lastUpdate = s.reports.getLast?
  flush_le_received :
    s.state.replicationProgress.lastFlushLsn ≤ s.state.replicationProgress.lastReceivedLsn
  flush_le_ceiling : s.state.replicationProgress.lastFlushLsn ≤ ceiling
  reports_le_ceiling : ∀ r ∈ s.reports, r.flushLsn ≤ ceiling
  commitEnd_le : ∀ c, s.state.lastCommitEndLsn = some c →
    c ≤ ceiling ∧ c ≤ s.state.replicationProgress.lastReceivedLsn
  pending_le : ∀ pending, s.state.pendingFlushResult = some pending →
    ∀ c, pending.commitEndLsn = some c →
      c ≤ ceiling ∧ c ≤ s.state.replicationProgress.lastReceivedLsn ∧
        AckedThrough s.delivered (s.acked ++ pending.events) c

/-- The commit position of the open transaction, or else the received position. -/
def ApplyLoopState.ceiling (st : ApplyLoopState ρ) : PgLsn :=
  match st.remoteFinalLsn with
  | some remoteFinalLsn => remoteFinalLsn
  | none => st.replicationProgress.lastReceivedLsn

/-- A running loop in step with Postgres: both agree on the open transaction and on how far
the stream has come. -/
structure Session.InStep (s : Session ρ) : Prop where
  running : s.Running s.state.ceiling
  open_eq : s.sender.openCommit = s.state.remoteFinalLsn
  sent_eq : s.sender.sentUpTo = s.state.replicationProgress.lastReceivedLsn
  openEvents_commit : ∀ e ∈ s.openEvents, s.state.remoteFinalLsn = some e.commitLsn

/-- While the commit hook runs, both sides have closed the transaction and its end has been
received, but positions still count as of its commit. -/
structure Session.InCommitHook (s : Session ρ) (commitLsn endLsn : PgLsn) : Prop where
  running : s.Running commitLsn
  open_eq : s.sender.openCommit = none ∧ s.state.remoteFinalLsn = none
  sent_eq : s.sender.sentUpTo = s.state.replicationProgress.lastReceivedLsn
  openEvents_commit : ∀ e ∈ s.openEvents, e.commitLsn = commitLsn
  commit_lt : commitLsn < endLsn
  end_le : endLsn ≤ s.state.replicationProgress.lastReceivedLsn

def Session.Inv (s : Session ρ) : Prop :=
  match s.point with
  | .failed _ => s.Stopped
  | .inCommit _ commitLsn endLsn => s.InCommitHook commitLsn endLsn
  | _ => s.InStep

/-! ## Parts of steps -/

namespace Session

variable {s : Session ρ} {ceiling : PgLsn} {s' : Session ρ} {state : ApplyLoopState ρ}
  {writeEvents : EtlResult Unit} {result : HandleMessageResult ρ} {event : Event ρ}
  {walStart walEnd : PgLsn} {sender : WalSender} {data : LogicalReplicationMessage ρ}
  {pending : PendingFlush ρ}

theorem Settled.congr (h : s.Settled) (hreports : s'.reports = s.reports)
    (hdelivered : s'.delivered = s.delivered) (hacked : s'.acked = s.acked)
    (hdurable : s'.durableProgress = s.durableProgress)
    (hprogress : s'.state.replicationProgress.lastFlushLsn
      = s.state.replicationProgress.lastFlushLsn) : s'.Settled := by
  refine ⟨?_, ?_, ?_, ?_, ?_, ?_⟩
  · rw [hreports, hdelivered, hacked]
    exact h.reports_acked
  · rw [hreports]
    exact h.reports_mono
  · rw [hreports]
    exact h.reports_le
  · rw [hprogress, hdelivered, hacked]
    exact h.flush_acked
  · rw [hdurable, hprogress]
    exact h.durable_le
  · rw [hdelivered]
    exact h.delivered_commit

theorem Stopped.congr (h : s.Stopped) (hreports : s'.reports = s.reports)
    (hdelivered : s'.delivered = s.delivered) (hacked : s'.acked = s.acked)
    (hdurable : s'.durableProgress = s.durableProgress)
    (hprogress : s'.state.replicationProgress.lastFlushLsn
      = s.state.replicationProgress.lastFlushLsn) (hopen : s'.openEvents = s.openEvents)
    (hsender : s'.sender = s.sender) : s'.Stopped := by
  have hpositions : s'.positions = s.positions := by
    rw [positions, positions, hprogress, hreports]
  refine ⟨h.toSettled.congr hreports hdelivered hacked hdurable hprogress, ?_, ?_⟩
  · rw [hpositions, hsender]
    exact h.positions_le
  · rw [hpositions, hopen]
    exact h.positions_le_open

/-- The effective flush position is acknowledged and below the ceiling, if the ceiling covers
what an idle loop has received. -/
theorem Running.effectiveFlushLsn (h : s.Running ceiling)
    (hidle : s.state.isIdle = true → s.state.replicationProgress.lastReceivedLsn ≤ ceiling) :
    AckedThrough s.delivered s.acked s.state.effectiveFlushLsn ∧
      s.state.effectiveFlushLsn ≤ ceiling ∧
      s.state.effectiveFlushLsn ≤ s.state.replicationProgress.lastReceivedLsn := by
  unfold ApplyLoopState.effectiveFlushLsn
  split_ifs with hcase
  · refine ⟨?_, hidle hcase, le_rfl⟩
    -- an idle loop has nothing in flight and nothing batched
    simp only [ApplyLoopState.isIdle, ApplyLoopState.hasUnresolvedBatchWork,
      ApplyLoopState.hasPendingBatch, ApplyLoopState.hasPendingFlushResult,
      Bool.and_eq_true, Bool.not_eq_true', Bool.or_eq_false_iff, Bool.not_eq_false',
      List.isEmpty_iff, Option.isSome_eq_false_iff, Option.isNone_iff_eq_none] at hcase
    obtain ⟨-, hbatch, hpending⟩ := hcase
    have hbalance := h.balance
    rw [hbatch, ApplyLoopState.inFlightEvents, hpending, List.append_nil, List.append_nil]
      at hbalance
    exact .of_all ⟨s.openEvents, hbalance⟩ _
  · exact ⟨h.flush_acked, h.flush_le_ceiling, h.flush_le_received⟩

/-- The clamped report keeps every property of the reports sent before it. -/
theorem Running.clamp (h : s.Running ceiling)
    (hidle : s.state.isIdle = true → s.state.replicationProgress.lastReceivedLsn ≤ ceiling)
    {update : StatusUpdate}
    (hupdate : update = s.stream.clamp s.state.replicationProgress.lastReceivedLsn
      s.state.effectiveFlushLsn) :
    AckedThrough s.delivered s.acked update.flushLsn ∧ update.flushLsn ≤ ceiling ∧
      update.flushLsn ≤ update.writeLsn ∧ ∀ r ∈ s.reports, r.flushLsn ≤ update.flushLsn := by
  obtain ⟨hacked, hceiling, hreceived⟩ := h.effectiveFlushLsn hidle
  have hlastUpdate := h.lastUpdate_eq
  cases hlast : s.stream.lastUpdate with
  | none =>
    rw [hlast] at hlastUpdate
    have hnil : s.reports = [] := List.getLast?_eq_none_iff.mp hlastUpdate.symm
    simp only [hupdate, EventsStream.clamp, hlast]
    exact ⟨hacked, hceiling, hreceived, by simp [hnil]⟩
  | some last =>
    rw [hlast] at hlastUpdate
    obtain ⟨init, hinit⟩ := List.getLast?_eq_some_iff.mp hlastUpdate.symm
    have hmem : last ∈ s.reports := by simp [hinit]
    have hmono : ∀ r ∈ s.reports, r.flushLsn ≤ last.flushLsn := by
      intro r hr
      rw [hinit] at hr
      rcases mem_append.mp hr with hr | hr
      · have hpairs := h.reports_mono
        rw [hinit] at hpairs
        exact (pairwise_append.mp hpairs).2.2 r hr last (by simp)
      · rw [mem_singleton.mp hr]
    have hlastLe := h.reports_le last hmem
    simp only [hupdate, EventsStream.clamp, hlast]
    refine ⟨?_, ?_, ?_, ?_⟩
    · split_ifs
      · exact h.reports_acked last hmem
      · exact hacked
    · split_ifs
      · exact h.reports_le_ceiling last hmem
      · exact hceiling
    · split_ifs <;> lia
    · intro r hr
      have hle := hmono r hr
      split_ifs <;> lia

theorem Running.sendStatusUpdate (h : s.Running ceiling)
    (hidle : s.state.isIdle = true → s.state.replicationProgress.lastReceivedLsn ≤ ceiling)
    (force withinInterval : Bool) : (s.sendStatusUpdate force withinInterval).Running ceiling := by
  unfold Session.sendStatusUpdate
  rcases s.stream.sendStatusUpdate_cases s.state.replicationProgress.lastReceivedLsn
    s.state.effectiveFlushLsn force withinInterval with heq | heq
  · rw [heq]
    simpa using h
  rw [heq]
  obtain ⟨hacked, hceiling, hle, hmono⟩ := h.clamp hidle rfl
  refine ⟨⟨?_, ?_, ?_, h.flush_acked, h.durable_le, h.delivered_commit⟩, h.balance, by simp,
    h.flush_le_received, h.flush_le_ceiling, ?_, h.commitEnd_le, h.pending_le⟩
  · intro r hr
    rcases mem_append.mp hr with hr | hr
    · exact h.reports_acked r hr
    · rw [mem_singleton.mp hr]
      exact hacked
  · refine pairwise_append.mpr ⟨h.reports_mono, pairwise_singleton _ _, ?_⟩
    intro r hr r' hr'
    rw [mem_singleton.mp hr']
    exact hmono r hr
  · intro r hr
    rcases mem_append.mp hr with hr | hr
    · exact h.reports_le r hr
    · rw [mem_singleton.mp hr]
      exact hle
  · intro r hr
    rcases mem_append.mp hr with hr | hr
    · exact h.reports_le_ceiling r hr
    · rw [mem_singleton.mp hr]
      exact hceiling

theorem Running.congr (h : s.Running ceiling)
    (hhistory : s'.reports = s.reports ∧ s'.delivered = s.delivered ∧ s'.acked = s.acked ∧
      s'.openEvents = s.openEvents ∧ s'.durableProgress = s.durableProgress ∧
      s'.stream = s.stream)
    (hstate : s'.state.replicationProgress = s.state.replicationProgress ∧
      s'.state.eventsBatch = s.state.eventsBatch ∧
      s'.state.pendingFlushResult = s.state.pendingFlushResult ∧
      s'.state.lastCommitEndLsn = s.state.lastCommitEndLsn) : s'.Running ceiling := by
  obtain ⟨hreports, hdelivered, hacked, hopen, hdurable, hstream⟩ := hhistory
  obtain ⟨hprogress, hbatch, hpending, hcommitEnd⟩ := hstate
  refine ⟨h.toSettled.congr hreports hdelivered hacked hdurable (by rw [hprogress]), ?_, ?_, ?_,
    ?_, ?_, ?_, ?_⟩
  · rw [hdelivered, hopen, hacked, hbatch, inFlightEvents, hpending]
    exact h.balance
  · rw [hstream, hreports]
    exact h.lastUpdate_eq
  · rw [hprogress]
    exact h.flush_le_received
  · rw [hprogress]
    exact h.flush_le_ceiling
  · rw [hreports]
    exact h.reports_le_ceiling
  · rw [hcommitEnd, hprogress]
    exact h.commitEnd_le
  · rw [hpending, hprogress, hdelivered, hacked]
    exact h.pending_le

/-- A higher ceiling is as good. -/
theorem Running.raise (h : s.Running ceiling) {ceiling' : PgLsn} (hle : ceiling ≤ ceiling') :
    s.Running ceiling' where
  toSettled := h.toSettled
  balance := h.balance
  lastUpdate_eq := h.lastUpdate_eq
  flush_le_received := h.flush_le_received
  flush_le_ceiling := h.flush_le_ceiling.trans hle
  reports_le_ceiling r hr := (h.reports_le_ceiling r hr).trans hle
  commitEnd_le c hc := ⟨(h.commitEnd_le c hc).1.trans hle, (h.commitEnd_le c hc).2⟩
  pending_le pending hpending c hc :=
    ⟨(h.pending_le pending hpending c hc).1.trans hle, (h.pending_le pending hpending c hc).2⟩

theorem Running.receive (h : s.Running ceiling) (lsn : PgLsn) :
    (s.receive lsn).Running ceiling := by
  refine ⟨h.toSettled.congr rfl rfl rfl rfl (by simp [Session.receive]), h.balance,
    h.lastUpdate_eq, ?_, ?_, h.reports_le_ceiling, ?_, ?_⟩
  · simpa [Session.receive] using .inl h.flush_le_received
  · simpa [Session.receive] using h.flush_le_ceiling
  · intro c hc
    obtain ⟨hceiling, hreceived⟩ := h.commitEnd_le c hc
    simpa [Session.receive] using ⟨hceiling, .inl hreceived⟩
  · intro pending hpending c hc
    obtain ⟨hceiling, hreceived, hacked⟩ := h.pending_le pending hpending c hc
    simpa [Session.receive] using ⟨hceiling, .inl hreceived, hacked⟩

theorem Running.flushBatch (h : s.Running ceiling)
    (hflush : s.state.flushBatch writeEvents = .ok state) :
    { s with state }.Running ceiling := by
  unfold ApplyLoopState.flushBatch at hflush
  split_ifs at hflush with hbatch hpending
  · cases hflush
    exact h
  · cases hflush
    exact h.congr ⟨rfl, rfl, rfl, rfl, rfl, rfl⟩ ⟨rfl, rfl, rfl, rfl⟩
  · cases writeEvents with
    | error e => simp at hflush
    | ok _ =>
      cases hflush
      -- the batch moves in flight, and its commit end covers everything delivered
      have hnone : s.state.pendingFlushResult = none := by
        simpa [ApplyLoopState.hasPendingFlushResult] using hpending
      have hbalance := h.balance
      rw [ApplyLoopState.inFlightEvents, hnone, append_nil] at hbalance
      refine ⟨h.toSettled.congr rfl rfl rfl rfl rfl, ?_, h.lastUpdate_eq, h.flush_le_received,
        h.flush_le_ceiling, h.reports_le_ceiling, by simp, ?_⟩
      · simpa [ApplyLoopState.inFlightEvents] using hbalance
      · intro pending hpending' c hc
        cases hpending'
        obtain ⟨hceiling, hreceived⟩ := h.commitEnd_le c hc
        exact ⟨hceiling, hreceived, .of_all ⟨s.openEvents, hbalance⟩ c⟩

/-! ## Events entering the batch -/

/-- An event of the open transaction enters history and batch together. -/
theorem Running.collect_inner (h : s.Running ceiling) (hend : result.endLsn = none) (sizeHint : ℕ) :
    { s.recordEvent result with state := s.state.collect result sizeHint }.Running ceiling := by
  unfold recordEvent collect
  rw [hend]
  cases result.event with
  | none => exact h
  | some event =>
    simp only [updateLastCommitEndLsn_none]
    refine { h with toSettled := h.toSettled.congr rfl rfl rfl rfl rfl, balance := ?_ }
    have hbalance := congrArg (· ++ [event]) h.balance
    simpa [setFlushDeadlineIfNeeded, addEventToBatch,
      inFlightEvents] using hbalance

/-- The commit event completes a transaction that commits at the old ceiling and ends below
the new one. -/
theorem Running.collect_commit (h : s.Running event.commitLsn) {endLsn ceiling' : PgLsn}
    (hopen : ∀ e ∈ s.openEvents, e.commitLsn = event.commitLsn) (hevent : result.event = some event)
    (hend : result.endLsn = some endLsn) (hlt : event.commitLsn < endLsn)
    (hreceived : endLsn ≤ s.state.replicationProgress.lastReceivedLsn)
    (hceiling : endLsn ≤ ceiling') (sizeHint : ℕ) :
    { s.recordEvent result with state := s.state.collect result sizeHint }.Running ceiling' := by
  have hraise := h.raise (hlt.le.trans hceiling)
  have habove : ∀ {lsn : PgLsn}, lsn ≤ event.commitLsn → lsn ≤ event.commitLsn ∧ lsn < endLsn :=
    fun hle => ⟨hle, lt_of_le_of_lt hle hlt⟩
  obtain ⟨c, hcommitEnd, hc⟩ :=
    (s.state.addEventToBatch event sizeHint).updateLastCommitEndLsn_some endLsn
  unfold recordEvent collect
  simp only [hevent, hend, hcommitEnd]
  refine ⟨⟨?_, h.reports_mono, h.reports_le, ?_, h.durable_le, ?_⟩, ?_, h.lastUpdate_eq,
    h.flush_le_received, hraise.flush_le_ceiling, hraise.reports_le_ceiling, ?_, ?_⟩
  · intro r hr
    exact (h.reports_acked r hr).append (habove (h.reports_le_ceiling r hr))
  · exact h.flush_acked.append (habove h.flush_le_ceiling)
  · intro tx htx e he
    rcases mem_append.mp htx with htx | htx
    · exact h.delivered_commit tx htx e he
    · obtain rfl := mem_singleton.mp htx
      rcases mem_append.mp he with he | he
      · exact hopen e he
      · rw [mem_singleton.mp he]
  · have hbalance := congrArg (· ++ [event]) h.balance
    simpa [setFlushDeadlineIfNeeded, addEventToBatch,
      inFlightEvents] using hbalance
  · intro c' hc'
    obtain rfl : c = c' := Option.some.inj hc'
    rcases hc with rfl | hold
    · exact ⟨hceiling, hreceived⟩
    · exact hraise.commitEnd_le c hold
  · intro pending hpending c' hc'
    obtain ⟨hle, hreceived', hacked⟩ := h.pending_le pending hpending c' hc'
    exact ⟨hle.trans (hlt.le.trans hceiling), hreceived', hacked.append (habove hle)⟩

/-! ## Steps -/

theorem InStep.congr (h : s.InStep)
    (hhistory : s'.reports = s.reports ∧ s'.delivered = s.delivered ∧ s'.acked = s.acked ∧
      s'.openEvents = s.openEvents ∧ s'.durableProgress = s.durableProgress ∧
      s'.stream = s.stream)
    (hstate : s'.state.replicationProgress = s.state.replicationProgress ∧
      s'.state.eventsBatch = s.state.eventsBatch ∧
      s'.state.pendingFlushResult = s.state.pendingFlushResult ∧
      s'.state.lastCommitEndLsn = s.state.lastCommitEndLsn)
    (hopen : s'.state.remoteFinalLsn = s.state.remoteFinalLsn) (hsender : s'.sender = s.sender) :
    s'.InStep := by
  have hceiling : s'.state.ceiling = s.state.ceiling := by
    rw [ceiling, ceiling, hopen, hstate.1]
  refine ⟨?_, ?_, ?_, ?_⟩
  · rw [hceiling]
    exact h.running.congr hhistory hstate
  · rw [hsender, hopen]
    exact h.open_eq
  · rw [hsender, hstate.1]
    exact h.sent_eq
  · rw [hhistory.2.2.2.1, hopen]
    exact h.openEvents_commit

theorem Running.positions_le (h : s.Running ceiling) : ∀ p ∈ s.positions, p ≤ ceiling := by
  intro p hp
  rcases mem_cons.mp hp with rfl | hp
  · exact h.flush_le_ceiling
  · obtain ⟨r, hr, rfl⟩ := mem_map.mp hp
    exact h.reports_le_ceiling r hr

theorem InStep.sender_ceiling (h : s.InStep) : s.sender.ceiling = s.state.ceiling := by
  rw [WalSender.ceiling, ceiling, h.open_eq, h.sent_eq]
  cases s.state.remoteFinalLsn <;> rfl

/-- A loop in step may fail at any time. -/
theorem InStep.stopped (h : s.InStep) : s.Stopped := by
  refine ⟨h.running.toSettled, ?_, ?_⟩
  · rw [h.sender_ceiling]
    exact h.running.positions_le
  · intro e he p hp
    have hle := h.running.positions_le p hp
    rwa [ceiling, h.openEvents_commit e he] at hle

theorem InCommitHook.stopped {commitLsn endLsn : PgLsn} (h : s.InCommitHook commitLsn endLsn) :
    s.Stopped := by
  refine ⟨h.running.toSettled, ?_, ?_⟩
  · intro p hp
    rw [WalSender.ceiling, h.open_eq.1, h.sent_eq]
    exact le_trans (h.running.positions_le p hp) (le_trans (Nat.le_of_lt h.commit_lt) h.end_le)
  · intro e he p hp
    rw [h.openEvents_commit e he]
    exact h.running.positions_le p hp

/-- Outside of a commit hook a loop in step satisfies the invariant. -/
theorem InStep.inv (h : s.InStep) (hpoint : ∀ a b c, s.point ≠ .inCommit a b c) : s.Inv := by
  unfold Inv
  split
  · exact h.stopped
  · next a b c hin => exact absurd hin (hpoint a b c)
  · exact h

theorem InStep.recordExitIntent (h : s.InStep) (exitIntent : Option ExitIntent) :
    { s with state := s.state.recordExitIntent exitIntent }.InStep := by
  obtain ⟨exitIntent', heq⟩ := s.state.recordExitIntent_eq exitIntent
  rw [heq]
  exact h.congr ⟨rfl, rfl, rfl, rfl, rfl, rfl⟩ ⟨rfl, rfl, rfl, rfl⟩ rfl rfl

theorem InStep.atPoint (h : s.InStep) (point : LoopPoint) : { s with point }.InStep :=
  h.congr ⟨rfl, rfl, rfl, rfl, rfl, rfl⟩ ⟨rfl, rfl, rfl, rfl⟩ rfl rfl

theorem InStep.withShutdownState (h : s.InStep) (shutdownState : ShutdownState) :
    { s with state := { s.state with shutdownState } }.InStep :=
  h.congr ⟨rfl, rfl, rfl, rfl, rfl, rfl⟩ ⟨rfl, rfl, rfl, rfl⟩ rfl rfl

theorem received_le_ceiling_of_idle (s : Session ρ) (hidle : s.state.isIdle = true) :
    s.state.replicationProgress.lastReceivedLsn ≤ s.state.ceiling := by
  simp only [isIdle, handlingTransaction, Bool.and_eq_true,
    Bool.not_eq_true', Option.isSome_eq_false_iff, Option.isNone_iff_eq_none] at hidle
  rw [ceiling, hidle.1]

theorem InStep.sendStatusUpdate (h : s.InStep) (force withinInterval : Bool) :
    (s.sendStatusUpdate force withinInterval).InStep where
  running :=
    h.running.sendStatusUpdate (received_le_ceiling_of_idle s) force withinInterval
  open_eq := h.open_eq
  sent_eq := h.sent_eq
  openEvents_commit := h.openEvents_commit

theorem InStep.flushBatch (h : s.InStep) (hflush : s.state.flushBatch writeEvents = .ok state) :
    { s with state }.InStep := by
  obtain ⟨hopen, hprogress⟩ := flushBatch_frame hflush
  have hceiling : state.ceiling = s.state.ceiling := by
    rw [ceiling, ceiling, hopen, hprogress]
  refine ⟨?_, ?_, ?_, ?_⟩
  · simp only [hceiling]
    exact h.running.flushBatch hflush
  · simp only [hopen]
    exact h.open_eq
  · simp only [hprogress]
    exact h.sent_eq
  · simp only [hopen]
    exact h.openEvents_commit

theorem inv_retryQueuedFlush (h : s.InStep) (due : Bool) (writeEvents : EtlResult Unit) :
    (s.retryQueuedFlush due writeEvents).Inv := by
  rcases s.retryQueuedFlush_cases due writeEvents with ⟨error, heq⟩ | ⟨state, rfl | hflush, heq⟩
  · rw [heq]
    exact h.stopped.congr rfl rfl rfl rfl rfl rfl rfl
  · rw [heq]
    exact (h.atPoint _).inv (by simp)
  · rw [heq]
    exact ((h.flushBatch hflush).atPoint _).inv (by simp)

theorem InStep.rest (h : s.InStep) (input : LoopInput ρ) (reported : Bool)
    (shutdownState : ShutdownState) (point : LoopPoint) :
    (s.rest input reported shutdownState point).InStep := by
  have hexit := h.recordExitIntent (s.asked input)
  cases reported with
  | false => exact (hexit.withShutdownState shutdownState).atPoint point
  | true =>
    exact ((hexit.sendStatusUpdate true false).withShutdownState shutdownState).atPoint point

/-! ## Messages -/

theorem recordEvent_withState (s : Session ρ) (st st' : ApplyLoopState ρ)
    (result : HandleMessageResult ρ) :
    { ({ s with state := st }.recordEvent result) with state := st' }
      = { s.recordEvent result with state := st' } := by
  unfold recordEvent
  cases result.event with
  | none => rfl
  | some event => cases result.endLsn <;> rfl

theorem inv_takeResult {sizeHint batchSizeBytes : ℕ}
    (h : { s.recordEvent result with state := state.collect result sizeHint }.InStep)
    (hprogress : state.replicationProgress = s.state.replicationProgress) :
    (s.takeResult state result sizeHint batchSizeBytes writeEvents).Inv := by
  rcases s.takeResult_cases state result sizeHint batchSizeBytes writeEvents with
    ⟨error, heq⟩ | ⟨state', hcollect, heq⟩
  · rw [heq]
    refine h.stopped.congr rfl rfl rfl rfl ?_ rfl rfl
    rw [(s.recordEvent_frame result).1, ← hprogress, (state.collect_frame result sizeHint).2]
  · rw [heq]
    have hstate : { s.recordEvent result with state := state' }.InStep := by
      rcases collectAndFlush_cases hcollect with rfl | hflush
      · exact h
      · exact h.flushBatch hflush
    exact (hstate.atPoint .epilogue).inv (by simp)

theorem InStep.collect_inner (h : s.InStep) (hend : result.endLsn = none)
    (hevent : ∀ e, result.event = some e → s.state.remoteFinalLsn = some e.commitLsn) (sizeHint : ℕ) :
    { s.recordEvent result with state := s.state.collect result sizeHint }.InStep := by
  obtain ⟨hopen, hprogress⟩ := s.state.collect_frame result sizeHint
  have hsender := (s.recordEvent_frame result).2
  have hceiling : (s.state.collect result sizeHint).ceiling = s.state.ceiling := by
    rw [ceiling, ceiling, hopen, hprogress]
  refine ⟨?_, ?_, ?_, ?_⟩
  · simp only [hceiling]
    exact h.running.collect_inner hend sizeHint
  · simp only [hopen, hsender]
    exact h.open_eq
  · simp only [hprogress, hsender]
    exact h.sent_eq
  · intro e he
    rw [(recordEvent_openEvents hend s).1] at he
    simp only [hopen]
    rcases mem_append.mp he with he | he
    · exact h.openEvents_commit e he
    · exact hevent e (Option.mem_toList.mp he)

/-- Receiving a position that Postgres has sent keeps the loop in step, as long as it is not
inside a transaction whose sender state changes with the message. -/
theorem InStep.receive (h : s.InStep) (lsn : PgLsn) (sender : WalSender)
    (hopen : sender.openCommit = s.sender.openCommit)
    (hsent : sender.sentUpTo = max s.sender.sentUpTo lsn) :
    ({ s with sender }.receive lsn).InStep := by
  have hreceived : ({ s with sender }.receive lsn).state.replicationProgress.lastReceivedLsn
      = max s.state.replicationProgress.lastReceivedLsn lsn := by
    simp [Session.receive]
  refine ⟨?_, ?_, ?_, h.openEvents_commit⟩
  · have hle : s.state.ceiling ≤ ({ s with sender }.receive lsn).state.ceiling := by
      unfold ceiling
      cases hfinal : s.state.remoteFinalLsn with
      | some f => simp [Session.receive, hfinal]
      | none =>
        simp [Session.receive, hfinal]
    have hrun : { s with sender }.Running s.state.ceiling :=
      h.running.congr ⟨rfl, rfl, rfl, rfl, rfl, rfl⟩ ⟨rfl, rfl, rfl, rfl⟩
    exact (hrun.receive lsn).raise hle
  · exact hopen.trans h.open_eq
  · rw [hreceived, ← h.sent_eq]
    exact hsent

/-- The two positions of a data message are received in turn; only the second counts. -/
theorem receive_receive (hle : walStart ≤ walEnd) (s : Session ρ) :
    (s.receive walStart).receive walEnd = s.receive walEnd := by
  simp [receive, ReplicationProgress.updateLastReceivedLsn_eq, max_eq_right hle]

/-- A transaction opens at or after everything sent, which becomes the new ceiling. -/
theorem InStep.begin (h : s.InStep) {walEnd finalLsn : PgLsn} (hle : s.sender.sentUpTo ≤ finalLsn)
    (hclosed : s.sender.openCommit = none)
    (hsender : sender = ⟨max s.sender.sentUpTo walEnd, some finalLsn⟩)
    (hstate : state = { (s.receive walEnd).state with
      remoteFinalLsn := some finalLsn, nextTxOrdinal := 1 }) :
    { s with sender, state }.InStep := by
  subst hsender hstate
  have hceiling : s.state.ceiling ≤ finalLsn := by
    rw [ceiling, ← h.open_eq, hclosed, ← h.sent_eq]
    exact hle
  refine ⟨?_, rfl, ?_, ?_⟩
  · exact ((h.running.receive walEnd).raise hceiling).congr ⟨rfl, rfl, rfl, rfl, rfl, rfl⟩
      ⟨rfl, rfl, rfl, rfl⟩
  · simp [Session.receive, h.sent_eq]
  · intro e he
    have hopen := h.openEvents_commit e he
    rw [← h.open_eq, hclosed] at hopen
    exact absurd hopen (by simp)

/-- Only the ordinal counter differs. -/
theorem InStep.withOrdinal (h : s.InStep) (nextTxOrdinal : ℕ) :
    { s with state := { s.state with nextTxOrdinal } }.InStep :=
  h.congr ⟨rfl, rfl, rfl, rfl, rfl, rfl⟩ ⟨rfl, rfl, rfl, rfl⟩ rfl rfl

/-- Taking over a result that completes no transaction keeps the invariant. -/
theorem InStep.inv_takeResult (h : { s with state }.InStep) (hend : result.endLsn = none)
    (hevent : ∀ e, result.event = some e → state.remoteFinalLsn = some e.commitLsn)
    (hprogress : state.replicationProgress = s.state.replicationProgress)
    (sizeHint batchSizeBytes : ℕ) (writeEvents : EtlResult Unit) :
    (s.takeResult state result sizeHint batchSizeBytes writeEvents).Inv := by
  have hcollect := h.collect_inner hend hevent sizeHint
  rw [recordEvent_withState] at hcollect
  exact Session.inv_takeResult hcollect hprogress

theorem inv_commitBegun (h : s.InStep) {walStart walEnd commitLsn endLsn : PgLsn}
    (hsend : s.sender.send (ρ := ρ) (.xLogData walStart walEnd (.commit commitLsn endLsn))
      = some sender) :
    { s.receiveData sender walStart walEnd with
      state := { (s.receiveData sender walStart walEnd).state with remoteFinalLsn := none }
      point := .inCommit walStart commitLsn endLsn }.Inv := by
  simp only [WalSender.send] at hsend
  split_ifs at hsend with horder hopen
  obtain ⟨hopen, hlt, hend⟩ := hopen
  cases hsend
  have hfinal : s.state.remoteFinalLsn = some commitLsn := h.open_eq.symm.trans hopen
  have hrunning : s.Running commitLsn := by
    have hrunning := h.running
    rwa [ceiling, hfinal] at hrunning
  rw [receiveData, receive_receive (not_lt.mp horder)]
  refine ⟨?_, ⟨rfl, rfl⟩, ?_, ?_, hlt, ?_⟩
  · exact (hrunning.receive walEnd).congr ⟨rfl, rfl, rfl, rfl, rfl, rfl⟩ ⟨rfl, rfl, rfl, rfl⟩
  · simp [receive, h.sent_eq]
  · intro e he
    have hcommit := h.openEvents_commit e he
    rw [hfinal] at hcommit
    exact (Option.some.inj hcommit).symm
  · simpa [receive] using .inr hend

theorem InStep.receiveData (h : s.InStep) (hinner : data.isInner = true)
    (hsend : s.sender.send (.xLogData walStart walEnd data) = some sender) :
    (s.receiveData sender walStart walEnd).InStep := by
  have horder : walStart ≤ walEnd := by
    by_contra hlt
    simp [WalSender.send, not_le.mp hlt] at hsend
  have hsender : sender = ⟨max s.sender.sentUpTo walEnd, s.sender.openCommit⟩ := by
    cases data <;> simp_all [WalSender.send, LogicalReplicationMessage.isInner]
  rw [Session.receiveData, receive_receive horder]
  exact h.receive walEnd sender (by rw [hsender]) (by rw [hsender])

/-- A message whose handler fails leaves the positions below what Postgres is sending. -/
theorem Stopped.receiveData (h : s.Stopped)
    (hsend : s.sender.send (.xLogData walStart walEnd data) = some sender) :
    (s.receiveData sender walStart walEnd).Stopped := by
  have hpositions : (s.receiveData sender walStart walEnd).positions = s.positions := by
    simp [positions, Session.receiveData, Session.receive]
  refine ⟨h.toSettled.congr rfl rfl rfl rfl (by simp [Session.receiveData, Session.receive]),
    ?_, ?_⟩
  · rw [hpositions]
    exact fun p hp => le_trans (h.positions_le p hp) (WalSender.ceiling_le hsend)
  · rw [hpositions]
    exact h.positions_le_open

theorem inv_handled (h : s.InStep) {ans : MessageAnswers} (hdata : ∀ a b, data ≠ .commit a b)
    (hsend : s.sender.send (.xLogData walStart walEnd data) = some sender)
    (hhandle : handleLogicalReplicationMessage ans walStart data
      (s.receiveData sender walStart walEnd).state = .ok (state, result))
    (sizeHint batchSizeBytes : ℕ) (writeEvents : EtlResult Unit) :
    ((s.receiveData sender walStart walEnd).takeResult state result sizeHint batchSizeBytes
      writeEvents).Inv := by
  by_cases hinner : data.isInner = true
  · have houtcome := handleLogicalReplicationMessage_outcome hinner hhandle
    obtain ⟨ordinal, rfl⟩ := houtcome.exists_ordinal
    exact ((h.receiveData hinner hsend).withOrdinal ordinal).inv_takeResult houtcome.endLsn_eq
      (fun e he => (houtcome.event_open e he).2.1) rfl sizeHint batchSizeBytes writeEvents
  cases data with
  | begin finalLsn =>
    simp only [WalSender.send] at hsend
    split_ifs at hsend with horder hfresh
    obtain ⟨hclosed, hle⟩ := hfresh
    cases hsend
    rw [receiveData, receive_receive (not_lt.mp horder)] at hhandle ⊢
    cases hhandle
    refine (h.begin hle hclosed rfl rfl).inv_takeResult (by rfl) ?_ (by rfl) sizeHint
      batchSizeBytes writeEvents
    intro e he
    cases he
    rfl
  | commit commitLsn endLsn => exact absurd rfl (hdata commitLsn endLsn)
  | _ => simp [LogicalReplicationMessage.isInner] at hinner

/-- The commit event completes the transaction and the ceiling rises over its end. -/
theorem InCommitHook.collect {endLsn : PgLsn} (h : s.InCommitHook event.commitLsn endLsn)
    (exitIntent : Option ExitIntent) (nextTxOrdinal : ℕ) (hevent : result.event = some event)
    (hend : result.endLsn = some endLsn) (sizeHint : ℕ) :
    { s.recordEvent result with
      state := { s.state with exitIntent, nextTxOrdinal }.collect result sizeHint }.InStep := by
  have hrunning : { s with state := { s.state with exitIntent, nextTxOrdinal } }.Running
      event.commitLsn := h.running.congr ⟨rfl, rfl, rfl, rfl, rfl, rfl⟩ ⟨rfl, rfl, rfl, rfl⟩
  have hcommit := hrunning.collect_commit h.openEvents_commit hevent hend h.commit_lt h.end_le
    h.end_le sizeHint
  rw [recordEvent_withState] at hcommit
  obtain ⟨hopen, hprogress⟩ :=
    { s.state with exitIntent, nextTxOrdinal }.collect_frame result sizeHint
  have hclosed := hopen.trans h.open_eq.2
  have hsender := (s.recordEvent_frame result).2
  refine ⟨?_, ?_, ?_, ?_⟩
  · simp only [ceiling, hclosed, hprogress]
    exact hcommit
  · simp only [hclosed, hsender]
    exact h.open_eq.1
  · simp only [hprogress, hsender]
    exact h.sent_eq
  · simp [recordEvent, hevent, hend]

theorem inv_finishCommit {startLsn commitLsn endLsn : PgLsn} (h : s.InCommitHook commitLsn endLsn)
    (exitIntent : Option ExitIntent) (sizeHint batchSizeBytes : ℕ)
    (writeEvents : EtlResult Unit) :
    (s.finishCommit startLsn commitLsn endLsn exitIntent sizeHint batchSizeBytes
      writeEvents).Inv := by
  obtain ⟨exitIntent', hexit⟩ := s.state.recordExitIntent_eq exitIntent
  simp only [finishCommit, finishCommitMessage, hexit]
  have hevent : s.InCommitHook
      (⟨startLsn, commitLsn, s.state.nextTxOrdinal, .commit endLsn⟩ : Event ρ).commitLsn endLsn := h
  exact inv_takeResult (hevent.collect exitIntent' _ rfl rfl sizeHint) rfl

/-! ## Flush results -/

/-- Acknowledged events leave the flight. -/
theorem Running.acknowledge (h : s.Running ceiling)
    (hpending : s.state.pendingFlushResult = some pending) :
    { s with state := s.state.resumeProcessing, acked := s.acked ++ pending.events }.Running
      ceiling := by
  have hmore : s.acked <+: s.acked ++ pending.events := prefix_append _ _
  have hbalance := h.balance
  simp only [inFlightEvents, hpending] at hbalance
  refine ⟨{ h with reports_acked := ?_, flush_acked := h.flush_acked.mono hmore }, ?_,
    h.lastUpdate_eq, h.flush_le_received, h.flush_le_ceiling,
    h.reports_le_ceiling, h.commitEnd_le, by simp [resumeProcessing]⟩
  · intro r hr
    exact (h.reports_acked r hr).mono hmore
  · simpa [inFlightEvents, resumeProcessing] using hbalance

/-- The durable progress and the flush position rise to an acknowledged commit end. -/
theorem Running.persist (h : s.Running ceiling) {c durable : PgLsn} (hc : c ≤ ceiling)
    (hreceived : c ≤ s.state.replicationProgress.lastReceivedLsn)
    (hacked : AckedThrough s.delivered s.acked c)
    (hdurable : durable = max (s.durableProgress.getD c) c) :
    { s with
      durableProgress := some durable
      state := { s.state with
        replicationProgress :=
          s.state.replicationProgress.updateLastFlushLsn durable } }.Running ceiling := by
  -- the row never exceeds the flush position, so only the commit end can raise it
  have hmax : max s.state.replicationProgress.lastFlushLsn durable
      = max s.state.replicationProgress.lastFlushLsn c := by
    cases hrow : s.durableProgress with
    | none => simp [hdurable, hrow]
    | some row =>
      have hle := h.durable_le row hrow
      rw [hdurable, hrow, Option.getD_some, ← max_assoc, max_eq_left hle]
  refine ⟨{ h with flush_acked := ?_, durable_le := ?_ }, h.balance,
    h.lastUpdate_eq, ?_, ?_, h.reports_le_ceiling, ?_, ?_⟩
  · simpa [hmax] using h.flush_acked.max hacked
  · intro durable' hdurable'
    cases hdurable'
    simp
  · simpa [hmax] using ⟨h.flush_le_received, hreceived⟩
  · simpa [hmax] using ⟨h.flush_le_ceiling, hc⟩
  · simpa using h.commitEnd_le
  · simpa using h.pending_le

/-- What is acknowledged in addition does no harm to a failed loop. -/
theorem Stopped.acknowledge (h : s.Stopped) (acked : List (Event ρ)) :
    (s.acknowledge acked).Stopped where
  reports_acked r hr := (h.reports_acked r hr).mono (prefix_append _ _)
  reports_mono := h.reports_mono
  reports_le := h.reports_le
  flush_acked := h.flush_acked.mono (prefix_append _ _)
  durable_le := h.durable_le
  delivered_commit := h.delivered_commit
  positions_le := h.positions_le
  positions_le_open := h.positions_le_open

theorem InStep.acknowledge (h : s.InStep) (hpending : s.state.pendingFlushResult = some pending) :
    (s.acknowledge pending.events).InStep :=
  { h with running := h.running.acknowledge hpending }

theorem inv_persisted (h : s.InStep) {c : PgLsn}
    (hpending : s.state.pendingFlushResult = some pending)
    (hcommitEnd : pending.commitEndLsn = some c) (writeEvents : EtlResult Unit) :
    (s.handleFlushResult pending (.ok ()) (.ok ()) writeEvents).Inv := by
  obtain ⟨hceiling, hreceived, hdone⟩ := h.running.pending_le pending hpending c hcommitEnd
  have hpersist := (h.running.acknowledge hpending).persist hceiling hreceived hdone rfl
  simp only [handleFlushResult, hcommitEnd]
  refine ⟨?_, h.open_eq, ?_, h.openEvents_commit⟩
  · have heq : ∀ durable, ceiling { s.state.resumeProcessing with
        replicationProgress := s.state.replicationProgress.updateLastFlushLsn durable }
          = s.state.ceiling := by
      intro durable
      simp [ceiling, resumeProcessing]
    exact (heq _).symm ▸ hpersist.congr ⟨rfl, rfl, rfl, rfl, rfl, rfl⟩ ⟨rfl, rfl, rfl, rfl⟩
  · simpa [resumeProcessing] using h.sent_eq

/-! ## Runs -/

theorem inv_start (startLsn : PgLsn) {durableProgress : Option PgLsn}
    (hdurable : ∀ durable, durableProgress = some durable → durable ≤ startLsn) :
    (Session.start startLsn durableProgress : Session ρ).Inv := by
  have hnone : AckedThrough ([] : List (DeliveredTx ρ)) [] startLsn :=
    .of_all (by simp) startLsn
  have hrunning : (start startLsn durableProgress : Session ρ).Running startLsn :=
    { reports_acked := by simp [start]
      reports_mono := List.Pairwise.nil
      reports_le := by simp [start]
      flush_acked := hnone
      durable_le := hdurable
      delivered_commit := by simp [start]
      balance := rfl
      lastUpdate_eq := rfl
      flush_le_received := le_rfl
      flush_le_ceiling := le_rfl
      reports_le_ceiling := by simp [start]
      commitEnd_le := by simp [start, new]
      pending_le := by simp [start, new] }
  exact ⟨hrunning, rfl, rfl, by simp [start]⟩

theorem Inv.stopped (h : s.Inv) : s.Stopped := by
  unfold Inv at h
  split at h
  · exact h
  all_goals exact h.stopped

theorem Inv.inStep (h : s.Inv) (hplain : s.point.isPlain = true) : s.InStep := by
  unfold Inv at h
  split at h
  next hpoint => simp [hpoint, LoopPoint.isPlain] at hplain
  next hpoint => simp [hpoint, LoopPoint.isPlain] at hplain
  · exact h

/-- Every step keeps the invariant. -/
theorem inv_next {input : LoopInput ρ} (h : s.Inv) (hnext : s.next input = some s') : s'.Inv := by
  have hselect : s.point = .select → s.InStep :=
    fun hpoint => h.inStep (by rw [hpoint]; rfl)
  cases loopStep_of_next hnext with
  | quiet reported shutdownState point _ hrests hpoint _ =>
    have hstep := h.inStep (LoopPoint.isPlain_of_isResting hrests)
    refine (hstep.rest input reported shutdownState point).inv ?_
    rintro a b c rfl
    cases hpoint
  | fail error => exact h.stopped.congr rfl rfl rfl rfl rfl rfl rfl
  | @keepAlive sender walEnd replyRequested ans sizeHint batchSizeBytes writeEvents withinInterval
      hpoint hsend =>
    cases hsend
    have hreport := ((hselect hpoint).receive walEnd
      ⟨max s.sender.sentUpTo walEnd, s.sender.openCommit⟩ rfl rfl).sendStatusUpdate
      replyRequested withinInterval
    exact hreport.inv_takeResult rfl
      (fun e he => absurd he (by simp [HandleMessageResult.noEvent])) rfl sizeHint
      batchSizeBytes writeEvents
  | refused sender error hpoint hsend _ =>
    exact ((hselect hpoint).stopped.receiveData hsend).congr rfl rfl rfl rfl rfl rfl rfl
  | handled sender state result hpoint hdata hsend hhandle =>
    exact inv_handled (hselect hpoint) hdata hsend hhandle _ _ _
  | commitBegun sender hpoint hsend _ => exact inv_commitBegun (hselect hpoint) hsend
  | commitEnded hpoint =>
    unfold Inv at h
    rw [hpoint] at h
    exact inv_finishCommit h _ _ _ _
  | flushFailed acked error _ _ _ =>
    exact (h.stopped.acknowledge acked).congr rfl rfl rfl rfl rfl rfl rfl
  | acknowledged hpoint hpending _ =>
    exact inv_retryQueuedFlush ((hselect hpoint).acknowledge hpending) _ _
  | persisted hpoint hpending hcommit => exact inv_persisted (hselect hpoint) hpending hcommit _
  | flushHook hpoint =>
    have hstep := h.inStep (by rw [hpoint]; rfl)
    exact inv_retryQueuedFlush (hstep.recordExitIntent _) _ _
  | flushDeadline hpoint _ => exact inv_retryQueuedFlush (hselect hpoint) _ _

end Session

/-- Every run keeps the invariant. -/
theorem inv_of_reachable {s : Session ρ} (hs : (applyLoopMachine ρ).Reachable s) : s.Inv := by
  refine hs.invariant ?_ ?_
  · rintro s ⟨startLsn, durableProgress, hdurable, rfl⟩
    exact inv_start startLsn hdurable
  · intro s input s' h hnext
    exact inv_next h hnext

/-- In every run, a reported flush position covers only transactions whose events the
destination has acknowledged; reports never go back and never exceed the write position
reported with them. -/
theorem reported_flush_acknowledged {s : Session ρ} (hs : (applyLoopMachine ρ).Reachable s) :
    (∀ r ∈ s.reports, AckedThrough s.delivered s.acked r.flushLsn) ∧
      s.reports.Pairwise (fun r r' => r.flushLsn ≤ r'.flushLsn) ∧
      ∀ r ∈ s.reports, r.flushLsn ≤ r.writeLsn := by
  have h := (inv_of_reachable hs).stopped
  exact ⟨h.reports_acked, h.reports_mono, h.reports_le⟩

/-- A transaction with one row is delivered, a keepalive arrives before and after it is
flushed, and the loop answers both. -/
def flushedTransaction : List (LoopInput Unit) :=
  let ans : MessageAnswers := .owning ⟨⟨1, ⟨"public", "users"⟩, [], 0⟩, [], []⟩
  let message (message : ReplicationMessage Unit) : List (LoopInput Unit) :=
    [.idle none, .message message ans 10 1000 (.ok ()) false]
  message (.xLogData 5 5 (.begin 20)) ++ [.idle none] ++
    message (.xLogData 6 6 (.row .insert 1 ())) ++ [.idle none] ++
    message (.xLogData 30 30 (.commit 20 30)) ++ [.commitHook none 10 1000 (.ok ()), .idle none] ++
    message (.primaryKeepAlive 40 true) ++
    [.idle none, .idle none, .flushDeadline (.ok ()), .idle none, .idle none,
      .flushResult (.ok ()) (.ok ()) (.ok ()), .flushHook none (.ok ()), .idle none] ++
    message (.primaryKeepAlive 40 true)

theorem reported_flush_acknowledged_flushedTransaction :
    ∃ s, (applyLoopMachine Unit).run (.start 0 none) flushedTransaction = some s ∧
      s.reports = [⟨40, 0⟩, ⟨40, 40⟩] ∧ s.delivered.map (·.endLsn) = [30] ∧
      ∀ r ∈ s.reports, AckedThrough s.delivered s.acked r.flushLsn := by
  refine ⟨_, rfl, rfl, rfl, ?_⟩
  have hstart : (applyLoopMachine Unit).Reachable (.start 0 none) :=
    .init ⟨0, none, by simp, rfl⟩
  exact (reported_flush_acknowledged (hstart.run flushedTransaction rfl)).1

end Etl
