import Etl.Workers.CatchUp

/-! # The progress row of a worker

A worker is restarted, and a run that was given up may still have an upsert on its way to the
database. So the durable progress row is shared: the runs of one worker, old and new, take steps
of the apply loop in any order, and every flushed commit goes through the row.

The row and, in every run, the received and the flushed position never go back. A run takes what
the upsert returns as its flushed position, so that position stays at or below what the run has
received exactly as long as no other run has moved the row beyond it (`progress_of_runs_iff`).

Reference: `etl/src/replication/apply.rs` (`ReplicationProgress`, `handle_flush_result`) and
`etl-postgres/src/replication/progress.rs` (`upsert_replication_progress`).
-/

namespace Etl

variable {ρ : Type}

/-- What the row holds after an upsert: a stale position does not move it back. -/
def upsertReplicationProgress (row : Option PgLsn) (flushLsn : PgLsn) : PgLsn :=
  match row with
  | none => flushLsn
  | some stored => if stored < flushLsn then flushLsn else stored

theorem upsertReplicationProgress_eq (row : Option PgLsn) (flushLsn : PgLsn) :
    upsertReplicationProgress row flushLsn = max (row.getD flushLsn) flushLsn := by
  cases row with
  | none => exact (max_self flushLsn).symm
  | some stored =>
    simp only [upsertReplicationProgress, Option.getD_some]
    split_ifs with hlt
    · exact (max_eq_right (le_of_lt hlt)).symm
    · exact (max_eq_left (not_lt.mp hlt)).symm

/-- Neither position goes back. -/
def ReplicationProgress.Advances (p p' : ReplicationProgress) : Prop :=
  p.lastReceivedLsn ≤ p'.lastReceivedLsn ∧ p.lastFlushLsn ≤ p'.lastFlushLsn

/-! ## Runs that share the row -/

/-- The row of a worker and the runs of its loop so far. A run that was given up stays. -/
structure ProgressRuns (ρ : Type) where
  row : Option PgLsn
  sessions : List (Session ρ)

inductive RunsInput (ρ : Type) where
  | start (startLsn : PgLsn)
  | step (index : ℕ) (input : LoopInput ρ)

/-- A flush result after which the commit end is stored, if there is one. -/
def LoopInput.upserts : LoopInput ρ → Bool
  | .flushResult (.ok ()) (.ok ()) _ => true
  | _ => false

namespace ProgressRuns

/-- A new run reads the row and starts at or after it; a step of a run sees the row as it is. -/
def next (r : ProgressRuns ρ) : RunsInput ρ → Option (ProgressRuns ρ)
  | .start startLsn =>
    if r.row.all (· ≤ startLsn) then
      some { r with sessions := r.sessions ++ [Session.start startLsn r.row] }
    else none
  | .step index input =>
    r.sessions[index]?.bind fun s =>
      (Session.next { s with durableProgress := r.row } input).map fun s' =>
        ⟨s'.durableProgress, r.sessions.set index s'⟩

/-- When a run upserts the end of a commit, the row is not beyond what the run has received. -/
def RowReceived (r : ProgressRuns ρ) : RunsInput ρ → Prop
  | .start _ => True
  | .step index input =>
    input.upserts = true → ∀ s ∈ r.sessions[index]?, ∀ pending ∈ s.state.pendingFlushResult,
      pending.commitEndLsn ≠ none →
        ∀ durable ∈ r.row, durable ≤ s.state.replicationProgress.lastReceivedLsn

instance (r : ProgressRuns ρ) (input : RunsInput ρ) : Decidable (r.RowReceived input) :=
  match input with
  | .start _ => .isTrue trivial
  | .step index input =>
    inferInstanceAs (Decidable (input.upserts = true → ∀ s ∈ r.sessions[index]?,
      ∀ pending ∈ s.state.pendingFlushResult, pending.commitEndLsn ≠ none →
        ∀ durable ∈ r.row, durable ≤ s.state.replicationProgress.lastReceivedLsn))

/-- No run counts as flushed what it has not received. -/
def FlushWithin (r : ProgressRuns ρ) : Prop :=
  ∀ s ∈ r.sessions,
    s.state.replicationProgress.lastFlushLsn ≤ s.state.replicationProgress.lastReceivedLsn

end ProgressRuns

/-- The runs of one worker. -/
def runsMachine (ρ : Type) : Machine (ProgressRuns ρ) (RunsInput ρ) where
  init r := r.sessions = []
  next := ProgressRuns.next

namespace Session

variable {s s' : Session ρ} {input : LoopInput ρ}

/-! ## One run -/

theorem advances_of_next (hnext : s.next input = some s') :
    s.state.replicationProgress.Advances s'.state.replicationProgress := by
  have hkeeps := keeps_of_next hnext
  cases input with
  | message message ans sizeHint batchSizeBytes writeEvents withinInterval =>
    obtain ⟨sender, -, hkeeps⟩ := hkeeps
    exact ⟨hkeeps.received_le, hkeeps.flush_le⟩
  | _ => exact ⟨hkeeps.received_le, hkeeps.flush_le⟩

/-- A step leaves the row alone or upserts the end of a commit that was in flight. -/
theorem durableProgress_of_next (hnext : s.next input = some s') :
    s'.durableProgress = s.durableProgress ∨ ∃ commitEndLsn,
      s'.durableProgress = some (upsertReplicationProgress s.durableProgress commitEndLsn) := by
  rcases keepsEnds_of_next hnext with
    ⟨added, hkept, -⟩ | ⟨pending, commitEndLsn, writeEvents, -, -, hcommit, rfl⟩
  · exact .inl hkept.durable_eq
  · refine .inr ⟨commitEndLsn, ?_⟩
    rw [upsertReplicationProgress_eq]
    simp only [handleFlushResult, hcommit]

/-- The flushed position, and every commit end that may become it, has been received. -/
structure FlushReceived (s : Session ρ) : Prop where
  flush_le :
    s.state.replicationProgress.lastFlushLsn ≤ s.state.replicationProgress.lastReceivedLsn
  ends_le : ∀ lsn ∈ s.state.commitEnds, lsn ≤ s.state.replicationProgress.lastReceivedLsn
  closing_le : ∀ startLsn commitLsn endLsn, s.point = .inCommit startLsn commitLsn endLsn →
    endLsn ≤ s.state.replicationProgress.lastReceivedLsn

theorem flushReceived_start (startLsn : PgLsn) (row : Option PgLsn) :
    (Session.start startLsn row : Session ρ).FlushReceived where
  flush_le := le_rfl
  ends_le lsn hlsn := by simp [start, ApplyLoopState.new, ApplyLoopState.commitEnds] at hlsn
  closing_le _ _ _ hpoint := by cases hpoint

theorem FlushReceived.next (h : s.FlushReceived) (hnext : s.next input = some s')
    (hrow : input.upserts = true → ∀ pending ∈ s.state.pendingFlushResult,
      pending.commitEndLsn ≠ none → ∀ durable ∈ s.durableProgress,
        durable ≤ s.state.replicationProgress.lastReceivedLsn) : s'.FlushReceived := by
  have hreceived := (advances_of_next hnext).1
  have hclosing : ∀ startLsn commitLsn endLsn, s'.point = .inCommit startLsn commitLsn endLsn →
      endLsn ≤ s'.state.replicationProgress.lastReceivedLsn :=
    fun _ _ _ hpoint => (commit_of_inCommit hnext hpoint).2
  rcases keepsEnds_of_next hnext with
    ⟨added, hkept, hadded⟩ | ⟨pending, commitEndLsn, writeEvents, rfl, hpending, hcommit, rfl⟩
  · refine ⟨hkept.flush_eq ▸ le_trans h.flush_le hreceived, ?_, hclosing⟩
    intro lsn hlsn
    rcases List.mem_append.mp (hkept.ends_subset hlsn) with hlsn | hlsn
    · obtain ⟨startLsn, commitLsn, hpoint⟩ := hadded lsn hlsn
      exact le_trans (h.closing_le _ _ _ hpoint) hreceived
    · exact le_trans (h.ends_le lsn hlsn) hreceived
  · -- the row and the end in flight have been received, so all that counts as flushed has
    have hle : ∀ lsn ∈ s.commitEnds, lsn ≤ s.state.replicationProgress.lastReceivedLsn := by
      intro lsn hlsn
      rcases List.mem_cons.mp hlsn with rfl | hlsn
      · exact h.flush_le
      rcases List.mem_append.mp hlsn with hlsn | hlsn
      · exact hrow rfl pending hpending (by simp [hcommit]) lsn (Option.mem_toList.mp hlsn)
      · exact h.ends_le lsn hlsn
    have hsubset := commitEnds_persisted hpending hcommit writeEvents
    refine ⟨le_trans (hle _ (hsubset List.mem_cons_self)) hreceived, ?_, hclosing⟩
    intro lsn hlsn
    refine le_trans (hle _ (hsubset ?_)) hreceived
    exact List.mem_cons_of_mem _ (List.mem_append_right _ hlsn)

/-- A run that has not received what the row holds counts as flushed more than it has received once
it has upserted the end of a commit. -/
theorem durable_le_of_next (hnext : s.next input = some s') (hupserts : input.upserts = true)
    {pending : PendingFlush ρ} (hpending : s.state.pendingFlushResult = some pending)
    (hcommit : pending.commitEndLsn ≠ none)
    (hflush : s'.state.replicationProgress.lastFlushLsn
      ≤ s'.state.replicationProgress.lastReceivedLsn) :
    ∀ durable ∈ s.durableProgress, durable ≤ s.state.replicationProgress.lastReceivedLsn := by
  intro durable hdurable
  obtain ⟨commitEndLsn, hcommit⟩ := Option.ne_none_iff_exists'.mp hcommit
  obtain ⟨writeEvents, rfl⟩ : ∃ writeEvents, input = .flushResult (.ok ()) (.ok ()) writeEvents := by
    unfold LoopInput.upserts at hupserts
    split at hupserts
    · exact ⟨_, rfl⟩
    · cases hupserts
  obtain rfl : s.handleFlushResult pending (.ok ()) (.ok ()) writeEvents = s' := by
    cases hpoint : s.point <;> simp [Session.next, hpoint, hpending] at hnext
    exact hnext
  have hrow : s.durableProgress = some durable := hdurable
  have hstate : (s.handleFlushResult pending (.ok ()) (.ok ()) writeEvents).state.replicationProgress
      = s.state.replicationProgress.updateLastFlushLsn (max durable commitEndLsn) := by
    simp only [handleFlushResult, hcommit, hrow, Option.getD_some]
    rfl
  rw [hstate, ReplicationProgress.updateLastFlushLsn_lastFlushLsn,
    ReplicationProgress.updateLastFlushLsn_lastReceivedLsn] at hflush
  exact (le_max_left _ _).trans ((le_max_right _ _).trans hflush)

end Session

/-! ## All runs -/

namespace ProgressRuns

variable {r r' : ProgressRuns ρ} {input : RunsInput ρ}

/-- A step adds a run or is one of a run that sees the row. -/
theorem next_cases (hnext : r.next input = some r') :
    (∃ startLsn, r' = { r with sessions := r.sessions ++ [Session.start startLsn r.row] }) ∨
      ∃ index loopInput s s', input = .step index loopInput ∧ r.sessions[index]? = some s ∧
        Session.next { s with durableProgress := r.row } loopInput = some s' ∧
        r' = ⟨s'.durableProgress, r.sessions.set index s'⟩ := by
  cases input with
  | start startLsn =>
    simp only [next] at hnext
    split_ifs at hnext
    exact .inl ⟨startLsn, (Option.some.inj hnext).symm⟩
  | step index loopInput =>
    obtain ⟨s, hget, hnext⟩ := Option.bind_eq_some_iff.mp hnext
    obtain ⟨s', hstep, rfl⟩ := Option.map_eq_some_iff.mp hnext
    exact .inr ⟨index, loopInput, s, s', rfl, hget, hstep, rfl⟩

/-- The row does not go back, and no run does. -/
structure Advances (r r' : ProgressRuns ρ) : Prop where
  row : ∀ durable ∈ r.row, ∃ durable' ∈ r'.row, durable ≤ durable'
  runs : ∀ (index : ℕ) (s : Session ρ), r.sessions[index]? = some s →
    ∃ s', r'.sessions[index]? = some s' ∧
      s.state.replicationProgress.Advances s'.state.replicationProgress

theorem Advances.trans {r'' : ProgressRuns ρ} (h : r.Advances r') (h' : r'.Advances r'') :
    r.Advances r'' where
  row durable hdurable := by
    obtain ⟨durable', hdurable', hle⟩ := h.row durable hdurable
    obtain ⟨durable'', hdurable'', hle'⟩ := h'.row durable' hdurable'
    exact ⟨durable'', hdurable'', hle.trans hle'⟩
  runs index s hs := by
    obtain ⟨s', hs', hreceived, hflush⟩ := h.runs index s hs
    obtain ⟨s'', hs'', hreceived', hflush'⟩ := h'.runs index s' hs'
    exact ⟨s'', hs'', hreceived.trans hreceived', hflush.trans hflush'⟩

theorem row_le_of_next (hnext : r.next input = some r') :
    ∀ durable ∈ r.row, ∃ durable' ∈ r'.row, durable ≤ durable' := by
  intro durable hdurable
  rcases next_cases hnext with ⟨startLsn, rfl⟩ | ⟨index, loopInput, s, s', -, -, hstep, rfl⟩
  · exact ⟨durable, hdurable, le_rfl⟩
  rcases Session.durableProgress_of_next hstep with heq | ⟨commitEndLsn, heq⟩
  · exact ⟨durable, heq.trans hdurable, le_rfl⟩
  · refine ⟨_, heq, ?_⟩
    have hrow : r.row = some durable := hdurable
    simp only [upsertReplicationProgress_eq, hrow, Option.getD_some]
    exact le_max_left _ _

theorem advances_of_next (hnext : r.next input = some r') : r.Advances r' := by
  refine ⟨row_le_of_next hnext, fun index s hget => ?_⟩
  have hlt := (List.getElem?_eq_some_iff.mp hget).1
  rcases next_cases hnext with ⟨startLsn, rfl⟩ | ⟨stepped, _, s₁, s₁', -, hget₁, hstep, rfl⟩
  · exact ⟨s, (List.getElem?_append_left hlt).trans hget, le_rfl, le_rfl⟩
  by_cases heq : stepped = index
  · subst heq
    obtain rfl := Option.some.inj (hget₁.symm.trans hget)
    have hadvances := Session.advances_of_next hstep
    exact ⟨s₁', List.getElem?_set_self hlt, hadvances⟩
  · exact ⟨s, (List.getElem?_set_ne heq).trans hget, le_rfl, le_rfl⟩

theorem flushReceived_of_reachable (hreach : (runsMachine ρ).ReachableUnder RowReceived r) :
    ∀ s ∈ r.sessions, s.FlushReceived := by
  refine hreach.invariant (I := fun r => ∀ s ∈ r.sessions, s.FlushReceived) ?_ ?_
  · intro r hinit s hs
    simp [show r.sessions = [] from hinit] at hs
  intro r input r' h hguard hnext s hs
  rcases next_cases hnext with ⟨startLsn, rfl⟩ | ⟨index, loopInput, s₁, s₁', rfl, hget, hstep, rfl⟩
  · rcases List.mem_append.mp hs with hs | hs
    · exact h s hs
    · obtain rfl := List.mem_singleton.mp hs
      exact Session.flushReceived_start _ _
  · rcases List.mem_or_eq_of_mem_set hs with hs | rfl
    · exact h s hs
    · have h₁ := h s₁ (List.mem_of_getElem? hget)
      have hseen : Session.FlushReceived { s₁ with durableProgress := r.row } :=
        ⟨h₁.flush_le, h₁.ends_le, h₁.closing_le⟩
      exact hseen.next hstep fun hupserts => hguard hupserts s₁ hget

/-- Neither the row nor the positions of a run go back. -/
theorem advances_of_run {inputs : List (RunsInput ρ)}
    (hrun : (runsMachine ρ).run r inputs = some r') : r.Advances r' := by
  refine Machine.run_invariant (I := fun _ => r.Advances) ?_ ?_ hrun
  · exact ⟨fun durable h => ⟨durable, h, le_rfl⟩, fun _ s h => ⟨s, h, le_rfl, le_rfl⟩⟩
  · exact fun _ _ input _ hadvances hnext => hadvances.trans (advances_of_next hnext)

theorem rowReceived_of_next (hnext : r.next input = some r') (hwithin : r'.FlushWithin) :
    r.RowReceived input := by
  cases input with
  | start startLsn => trivial
  | step index input =>
    intro hupserts s hs pending hpending hcommit
    obtain ⟨s₁, hget, hnext⟩ := Option.bind_eq_some_iff.mp hnext
    obtain ⟨s', hstep, rfl⟩ := Option.map_eq_some_iff.mp hnext
    obtain rfl : s₁ = s := Option.some.inj (hget.symm.trans hs)
    have hlt := (List.getElem?_eq_some_iff.mp hget).1
    exact Session.durable_le_of_next hstep hupserts hpending hcommit
      (hwithin s' (List.mem_set hlt s'))

/-- Whatever runs are started and in whatever order they take their steps, neither the row nor the
received and the flushed position of any run ever go back. No run ever counts as flushed what it has
not received exactly if no run upserts the end of a commit while the row is beyond what it has
received. -/
theorem progress_of_runs_iff {inputs : List (RunsInput ρ)} (hinit : r.sessions = [])
    (hrun : (runsMachine ρ).run r inputs = some r') :
    (∀ done mid, done <+: inputs → (runsMachine ρ).run r done = some mid → mid.Advances r') ∧
      ((∀ done mid, done <+: inputs → (runsMachine ρ).run r done = some mid → mid.FlushWithin) ↔
        ((runsMachine ρ).restrict RowReceived).run r inputs = some r') := by
  constructor
  · rintro done mid ⟨rest, rfl⟩ hmid
    rw [Machine.run_append, hmid] at hrun
    exact advances_of_run hrun
  constructor
  · -- a step that would not meet the guard leads to a run that breaks the bound
    intro hwithin
    induction inputs using List.reverseRecOn generalizing r' with
    | nil => exact hrun
    | append_singleton inputs input ih =>
      have hlast := hwithin _ r' (List.prefix_refl _) hrun
      rw [Machine.run_concat] at hrun ⊢
      obtain ⟨mid, hmid, hnext⟩ := Option.bind_eq_some_iff.mp hrun
      have hprefix : ∀ done mid, done <+: inputs → (runsMachine ρ).run r done = some mid →
          mid.FlushWithin :=
        fun done mid hdone => hwithin done mid (hdone.trans (List.prefix_append _ _))
      refine Option.bind_eq_some_iff.mpr ⟨mid, ih hmid hprefix, ?_⟩
      exact (if_pos (rowReceived_of_next hnext hlast)).trans hnext
  · rintro hguarded done mid ⟨rest, rfl⟩ hmid s hs
    rw [Machine.run_append] at hguarded
    obtain ⟨mid', hmid', -⟩ := Option.bind_eq_some_iff.mp hguarded
    obtain rfl : mid' = mid :=
      Option.some.inj ((Machine.run_of_restrict hmid').symm.trans hmid)
    have hreach : (runsMachine ρ).ReachableUnder RowReceived mid' :=
      Machine.ReachableUnder.run (.init hinit) done hmid'
    exact (flushReceived_of_reachable hreach s hs).flush_le

/-- A transaction that a run takes, flushing its batch if it reaches the size. -/
def transaction (index : ℕ) (commitLsn endLsn : PgLsn) (batchSizeBytes : ℕ) :
    List (RunsInput Unit) :=
  let ans : MessageAnswers := .owning ⟨⟨1, ⟨"public", "users"⟩, [], 0⟩, [], []⟩
  [.idle none, .message (.xLogData 50 commitLsn (.begin commitLsn)) ans 1 100 (.ok ()) true,
    .idle none, .idle none,
    .message (.xLogData commitLsn endLsn (.commit commitLsn endLsn)) ans 1 100 (.ok ()) true,
    .commitHook none 1 batchSizeBytes (.ok ()), .idle none].map (.step index)

/-- A run flushes up to 60, and its successor starts there and flushes up to 100. -/
def succeeded : List (RunsInput Unit) :=
  .start 50 :: transaction 0 55 60 1 ++
    [.step 0 (.idle none), .step 0 (.flushResult (.ok ()) (.ok ()) (.ok ()))] ++
    .start 60 :: transaction 1 90 100 1 ++
    [.step 1 (.idle none), .step 1 (.flushResult (.ok ()) (.ok ()) (.ok ()))]

theorem progress_of_runs_succeeded :
    ∃ r, (runsMachine Unit).run ⟨none, []⟩ succeeded = some r ∧ r.row = some 100 ∧
      r.sessions.map (·.state.replicationProgress) = [⟨60, 60⟩, ⟨100, 100⟩] ∧
      ∀ done mid, done <+: succeeded → (runsMachine Unit).run ⟨none, []⟩ done = some mid →
        mid.Advances r ∧ mid.FlushWithin := by
  have hguarded : (((runsMachine Unit).restrict RowReceived).run ⟨none, []⟩ succeeded).map
      (fun r => (r.row, r.sessions.map (·.state.replicationProgress))) =
        some (some 100, [⟨60, 60⟩, ⟨100, 100⟩]) := by
    decide
  obtain ⟨r, hguarded, hr⟩ := Option.map_eq_some_iff.mp hguarded
  have hrun := Machine.run_of_restrict hguarded
  obtain ⟨hadvances, hwithin⟩ := progress_of_runs_iff rfl hrun
  exact ⟨r, hrun, congrArg Prod.fst hr, congrArg Prod.snd hr, fun done mid hdone hmid =>
    ⟨hadvances done mid hdone hmid, hwithin.mpr hguarded done mid hdone hmid⟩⟩

/-- The first run has flushed up to 100 when its successor, which started at 50, flushes up to
60: the row sends the successor beyond what it has received. -/
def overtaken : List (RunsInput Unit) :=
  .start 50 :: transaction 0 55 60 100 ++ transaction 0 90 100 1 ++
    .start 50 :: transaction 1 55 60 1 ++
    [.step 0 (.idle none), .step 0 (.flushResult (.ok ()) (.ok ()) (.ok ())),
      .step 1 (.idle none), .step 1 (.flushResult (.ok ()) (.ok ()) (.ok ()))]

/-- The successor counts 100 as flushed and has received 60. -/
theorem flush_beyond_received :
    ∃ r : ProgressRuns Unit, (runsMachine Unit).Reachable r ∧ ∃ s ∈ r.sessions,
      s.state.replicationProgress.lastReceivedLsn < s.state.replicationProgress.lastFlushLsn := by
  have hrun : ((runsMachine Unit).run ⟨none, []⟩ overtaken).map
      (fun r => r.sessions.map (·.state.replicationProgress)) = some [⟨100, 100⟩, ⟨60, 100⟩] := by
    decide
  obtain ⟨r, hr, hprogress⟩ := Option.map_eq_some_iff.mp hrun
  refine ⟨r, Machine.Reachable.run (.init (by rfl)) overtaken hr, ?_⟩
  have hmem : (⟨60, 100⟩ : ReplicationProgress) ∈ r.sessions.map (·.state.replicationProgress) := by
    simp [hprogress]
  obtain ⟨s, hs, heq⟩ := List.mem_map.mp hmem
  exact ⟨s, hs, by simp [heq]⟩

end ProgressRuns

end Etl
