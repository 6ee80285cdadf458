import Etl.Workers.HandoffSteps

/-! # The phase in memory and the phase in the store

Two properties of the handoff. The phase in memory is one the store has held since it was
set, unless the store write that belongs to it failed: the memory is changed first and not
changed back. And the two workers do not wait for each other, unless a retry rolls the table
back while the apply worker still waits for it: then the apply worker has missed the error
and waits for a table that starts over.

Reference: `etl/src/workers/table_sync.rs`.
-/

namespace Etl

open TableReplicationPhase Handoff

/-! ## Consistent states -/

/-- The phases in memory that go with a point of the table-sync worker. -/
def SyncPoint.Agrees (sync : SyncPoint) (phase : TableReplicationPhase) : Prop :=
  match sync with
  | .inactive | .failing _ => True
  | .starting => phase.asType.shouldStore = true
  | .preparing => phase = .init ∨ phase = .dataSync ∨ phase = .finishedCopy
  | .copying => phase = .dataSync
  | .copied _ => phase = .finishedCopy
  | .waiting snapshotLsn =>
    phase = .syncWait snapshotLsn ∨ ∃ lsn, snapshotLsn ≤ lsn ∧ phase = .catchup lsn
  | .catchingUp snapshotLsn => ∃ lsn, snapshotLsn ≤ lsn ∧ phase = .catchup lsn
  | .completing => ∃ lsn, phase = .syncDone lsn
  | .erroredLocked _ | .sleeping _ => phase = .errored

/-- The store holds phases that are stored, and its log ends with the current one. -/
structure PhaseStore.Consistent (store : PhaseStore) : Prop where
  current_stored : store.current.asType.shouldStore = true
  history_stored : ∀ phase ∈ store.history, phase.asType.shouldStore = true
  log_eq : store.log.getLast? = some store.current

/-- The write of the phase in memory is in the log, or it is of a kind that is not stored, or
it failed. -/
def TableSyncWorkerState.WrittenTo (worker : TableSyncWorkerState)
    (log : List TableReplicationPhase) : Prop :=
  match worker.lastWrite with
  | .inMemoryOnly => worker.phase.asType.shouldStore = false
  | .stored index => log[index]? = some worker.phase
  | .failed => True

/-- The invariant of the handoff. -/
structure Handoff.Consistent (h : Handoff) : Prop where
  agrees : h.sync.Agrees h.worker.phase
  store : h.store.Consistent
  written : h.worker.WrittenTo h.store.log

namespace PhaseStore.Consistent

variable {store : PhaseStore}

theorem update (h : store.Consistent) {phase : TableReplicationPhase}
    (hphase : phase.asType.shouldStore = true) :
    (store.updateTableReplicationState phase).Consistent := by
  refine ⟨hphase, ?_, ?_⟩
  · intro p hp
    rcases List.mem_cons.mp hp with rfl | hp
    · exact h.current_stored
    · exact h.history_stored p hp
  · simp [updateTableReplicationState]

theorem rollback (h : store.Consistent) {store' : PhaseStore}
    (hrollback : store.rollbackTableReplicationState = some store') :
    store'.Consistent ∧ store'.log = store.log ++ [store'.current] := by
  unfold rollbackTableReplicationState at hrollback
  split at hrollback
  · simp at hrollback
  next previous history hhistory =>
    cases hrollback
    have hstored := h.history_stored
    rw [hhistory] at hstored
    refine ⟨⟨hstored previous (by simp), ?_, by simp⟩, rfl⟩
    intro p hp
    exact hstored p (List.mem_cons_of_mem _ hp)

end PhaseStore.Consistent

theorem TableSyncWorkerState.WrittenTo.append {worker : TableSyncWorkerState}
    {log : List TableReplicationPhase} (h : worker.WrittenTo log)
    (phases : List TableReplicationPhase) : worker.WrittenTo (log ++ phases) := by
  unfold WrittenTo at h ⊢
  cases hwrite : worker.lastWrite with
  | inMemoryOnly => simpa [hwrite] using h
  | failed => trivial
  | stored index =>
    simp only [hwrite] at h ⊢
    obtain ⟨hindex, -⟩ := List.getElem?_eq_some_iff.mp h
    rw [List.getElem?_append_left hindex]
    exact h

namespace Handoff

variable {h h' : Handoff} {maxAttempts : ℕ}

theorem Consistent.congr (hc : h.Consistent) (hstore : h'.store = h.store)
    (hphase : h'.worker.phase = h.worker.phase)
    (hwrite : h'.worker.lastWrite = h.worker.lastWrite) (hagrees : h'.sync.Agrees h.worker.phase) :
    h'.Consistent := by
  refine ⟨?_, hstore ▸ hc.store, ?_⟩
  · rw [hphase]
    exact hagrees
  · have hwritten := hc.written
    unfold TableSyncWorkerState.WrittenTo at hwritten ⊢
    rw [hwrite, hphase, hstore]
    exact hwritten

theorem Consistent.setAndStore (hc : h.Consistent) (phase : TableReplicationPhase)
    (stored : Bool) :
    (h.setAndStore phase stored).store.Consistent ∧
      (h.setAndStore phase stored).worker.WrittenTo (h.setAndStore phase stored).store.log ∧
      (h.setAndStore phase stored).worker.phase = phase := by
  unfold Handoff.setAndStore
  split_ifs with hkind hstored
  · refine ⟨hc.store, ?_, rfl⟩
    simpa [TableSyncWorkerState.WrittenTo] using hkind
  · refine ⟨hc.store.update (by simpa using hkind), ?_, rfl⟩
    simp [TableSyncWorkerState.WrittenTo, PhaseStore.updateTableReplicationState]
  · exact ⟨hc.store, trivial, rfl⟩

theorem Consistent.setAndStore_at (hc : h.Consistent) (phase : TableReplicationPhase)
    (stored : Bool) {sync : SyncPoint} {apply : ApplyPoint} (hagrees : sync.Agrees phase) :
    { h.setAndStore phase stored with sync, apply }.Consistent := by
  obtain ⟨hstore, hwritten, hphase⟩ := hc.setAndStore phase stored
  refine ⟨?_, hstore, hwritten⟩
  rw [hphase]
  exact hagrees

theorem Consistent.finish (hc : h.Consistent) : h.finish.Consistent :=
  hc.congr rfl rfl rfl trivial

theorem Consistent.startTableSync (hc : h.Consistent) : h.startTableSync.Consistent := by
  unfold Handoff.startTableSync
  split
  · exact hc.finish
  · exact hc.finish
  · exact hc.finish
  all_goals refine hc.congr rfl rfl rfl ?_
  all_goals first | trivial | skip
  all_goals
    cases hphase : h.worker.phase <;> simp_all [SyncPoint.Agrees, asType]

theorem Consistent.prepareCopy (hc : h.Consistent) (stored : Bool) :
    (h.prepareCopy stored).Consistent := by
  refine hc.setAndStore_at .dataSync stored ?_
  cases stored <;> trivial

theorem Consistent.finishCopy (hc : h.Consistent) (snapshotLsn : PgLsn) (stored : Bool) :
    (h.finishCopy snapshotLsn stored).Consistent := by
  refine hc.setAndStore_at .finishedCopy stored ?_
  cases stored <;> trivial

theorem Consistent.announceSyncWait (hc : h.Consistent) (snapshotLsn : PgLsn) :
    (h.announceSyncWait snapshotLsn).Consistent :=
  hc.setAndStore_at (.syncWait snapshotLsn) true (.inl rfl)

theorem Consistent.tryCompleteCatchup (hc : h.Consistent) (currentLsn : PgLsn) (stored : Bool) :
    (h.tryCompleteCatchup currentLsn stored).Consistent := by
  unfold Handoff.tryCompleteCatchup
  split
  next catchupLsn hphase =>
    by_cases hreached : catchupLsn ≤ currentLsn
    · rw [if_pos hreached]
      refine hc.setAndStore_at (.syncDone currentLsn) stored ?_
      cases stored with
      | true => exact ⟨currentLsn, rfl⟩
      | false => trivial
    · rw [if_neg hreached]
      exact hc
  · exact hc

theorem Consistent.handleTableSyncWorkerError (hc : h.Consistent) (maxAttempts : ℕ)
    (unwound : Bool) (directive : RetryDirective) (stored due : Bool) :
    (h.handleTableSyncWorkerError maxAttempts unwound directive stored due).Consistent := by
  obtain ⟨hstore, hwritten, -⟩ := hc.setAndStore .errored stored
  unfold Handoff.handleTableSyncWorkerError
  simp only
  split_ifs
  · exact hc.setAndStore_at .errored stored trivial
  · exact ⟨trivial, hstore, hwritten⟩
  all_goals exact hc.setAndStore_at .errored stored rfl

theorem Consistent.rollback (hc : h.Consistent) (unwound restored : Bool) :
    (h.rollback unwound restored).Consistent := by
  unfold Handoff.rollback
  simp only
  split
  next store hrollback =>
    split_ifs
    all_goals first | exact hc.congr rfl rfl rfl trivial | skip
    all_goals
      obtain ⟨hstore, hlog⟩ := hc.store.rollback hrollback
      refine ⟨?_, hstore, ?_⟩
    · trivial
    · simp [TableSyncWorkerState.WrittenTo, hlog]
    · exact hstore.current_stored
    · simp [TableSyncWorkerState.WrittenTo, hlog]
  · exact hc.congr rfl rfl rfl trivial

theorem Consistent.storePhase (hc : h.Consistent) {phase : TableReplicationPhase}
    (hphase : phase.asType.shouldStore = true) (apply : ApplyPoint) :
    { h with store := h.store.updateTableReplicationState phase, apply }.Consistent :=
  ⟨hc.agrees, hc.store.update hphase, hc.written.append [phase]⟩

theorem Consistent.storeReady (hc : h.Consistent) (stored : Bool) :
    (h.storeReady stored).Consistent := by
  unfold Handoff.storeReady
  split_ifs
  · exact hc.storePhase rfl .running
  · exact hc.congr rfl rfl rfl hc.agrees

theorem Consistent.spawnIntoPool (hc : h.Consistent) (loaded : Bool) :
    (h.spawnIntoPool loaded).Consistent := by
  unfold Handoff.spawnIntoPool
  split_ifs
  · refine ⟨hc.store.current_stored, hc.store, ?_⟩
    have hlog := hc.store.log_eq
    rw [List.getLast?_eq_getElem?] at hlog
    simpa [TableSyncWorkerState.WrittenTo] using hlog
  · exact hc.congr rfl rfl rfl hc.agrees

theorem Consistent.agrees_catchup (hc : h.Consistent) {snapshotLsn currentLsn : PgLsn}
    (hphase : h.worker.phase = .syncWait snapshotLsn) :
    h.sync.Agrees (.catchup (max snapshotLsn currentLsn)) := by
  have hagrees := hc.agrees
  rw [hphase] at hagrees
  cases hsync : h.sync with
  | waiting snapshotLsn' =>
    simp only [hsync, SyncPoint.Agrees, syncWait.injEq, reduceCtorEq,
      and_false, exists_false, or_false] at hagrees
    exact .inr ⟨_, hagrees ▸ le_max_left _ _, rfl⟩
  | inactive => trivial
  | failing unwound => trivial
  | _ => simp [hsync, SyncPoint.Agrees, asType,
      TableReplicationPhaseType.shouldStore] at hagrees

/-- A worker that is about to roll back has failed. -/
theorem Consistent.errored_of_rollback (hc : h.Consistent) {unwound : Bool}
    (hsync : h.sync = .erroredLocked unwound ∨ h.sync = .sleeping unwound) :
    h.sync ≠ .inactive ∧ h.worker.phase = .errored := by
  have hagrees := hc.agrees
  rcases hsync with hsync | hsync <;> rw [hsync] at hagrees ⊢ <;> exact ⟨by simp, hagrees⟩

theorem Consistent.withApply (hc : h.Consistent) (apply : ApplyPoint) :
    { h with apply }.Consistent :=
  hc.congr rfl rfl rfl hc.agrees

theorem Consistent.next (hc : h.Consistent) {input : HandoffInput}
    (hnext : h.next maxAttempts input = some h') : h'.Consistent := by
  cases step_of_next hnext with
  | startTableSync => exact hc.startTableSync
  | prepareCopy => exact hc.prepareCopy _
  | finishCopy => exact hc.finishCopy _ _
  | announceSyncWait => exact hc.announceSyncWait _
  | observeCatchup snapshotLsn hsync hphase =>
    refine hc.congr rfl rfl rfl ?_
    have hagrees := hc.agrees
    rw [hsync] at hagrees
    rcases hagrees with hwait | hcatchup
    · simp [hwait, asType] at hphase
    · exact hcatchup
  | tryCompleteCatchup => exact hc.tryCompleteCatchup _ _
  | finishWorker | shutdownRetry => exact hc.finish
  | failWorker | crash => exact hc.congr rfl rfl rfl trivial
  | handleError => exact hc.handleTableSyncWorkerError _ _ _ _ _
  | rollback => exact hc.rollback _ _
  | enterHook =>
    unfold enterHook
    split_ifs
    · exact hc
    · exact hc.withApply _
  | setCatchup _ _ _ _ _ _ _ _ hphase => exact hc.setAndStore_at _ true (hc.agrees_catchup hphase)
  | awaitCatchup | passTable | observeHandback | shutdownWait | leaveHook | failApply
  | restartApply => exact hc.withApply _
  | storeReady => exact hc.storeReady _
  | spawnIntoPool => exact hc.spawnIntoPool _
  | resetTable => exact hc.storePhase rfl h.apply

theorem consistent_init (hinit : (handoffMachine maxAttempts).init h) : h.Consistent := by
  obtain ⟨phase, history, log, hstored, rfl⟩ := hinit
  refine ⟨trivial, ⟨hstored phase (by simp), ?_, by simp⟩, ?_⟩
  · intro p hp
    exact hstored p (List.mem_cons_of_mem _ hp)
  · simp [TableSyncWorkerState.WrittenTo]

theorem consistent_of_reachableUnder {guard : Handoff → HandoffInput → Prop}
    (hh : (handoffMachine maxAttempts).ReachableUnder guard h) : h.Consistent := by
  refine hh.invariant (fun _ hinit => consistent_init hinit) ?_
  intro h input h' hc _ hnext
  exact hc.next hnext

end Handoff

/-! ## Memory and store -/

/-- A phase of a persisted kind in memory is one the store has held since it was set, so that
the store holds it or a phase persisted later, unless the store write made for it failed. -/
theorem phase_in_memory_persisted {maxAttempts : ℕ} {h : Handoff}
    (hh : (handoffMachine maxAttempts).Reachable h)
    (hphase : h.worker.phase.asType.shouldStore = true) :
    h.worker.lastWrite = .failed ∨
      ∃ earlier later, h.worker.lastWrite = .stored earlier.length ∧
        h.store.log = earlier ++ h.worker.phase :: later ∧
        (h.worker.phase :: later).getLast? = some h.store.current := by
  have hc := consistent_of_reachableUnder hh
  have hwritten := hc.written
  unfold TableSyncWorkerState.WrittenTo at hwritten
  cases hwrite : h.worker.lastWrite with
  | inMemoryOnly => simp [hwrite, hphase] at hwritten
  | failed => exact .inl rfl
  | stored index =>
    simp only [hwrite] at hwritten
    obtain ⟨hindex, hget⟩ := List.getElem?_eq_some_iff.mp hwritten
    have hsplit : h.store.log
        = h.store.log.take index ++ h.worker.phase :: h.store.log.drop (index + 1) := by
      rw [← hget, List.getElem_cons_drop, List.take_append_drop]
    refine .inr ⟨_, _, ?_, hsplit, ?_⟩
    · rw [List.length_take, min_eq_left (Nat.le_of_lt hindex)]
    · have hlog := hc.store.log_eq
      rw [hsplit, List.getLast?_append_of_ne_nil _ (by simp)] at hlog
      exact hlog

/-- A process that starts with a table in the given phase. -/
def startedWith (phase : TableReplicationPhase) : Handoff :=
  ⟨⟨phase, [], [phase]⟩, ⟨phase, 0, .stored 0⟩, .inactive, .down⟩

/-- A new table is copied and the apply worker tells its worker to catch up. -/
def copiedAndCatchingUp : List HandoffInput :=
  [.restartApply, .enterHook .whenIdle 5, .processTable true, .startTableSync, .prepareCopy true,
    .finishCopy 10 true, .announceSyncWait, .enterHook .whenIdle 15, .processTable true,
    .observeCatchup]

/-- The table is handed back, and `Ready` is stored while its worker still runs. -/
def handedBackAndReady : List HandoffInput :=
  copiedAndCatchingUp ++ [.tryCompleteCatchup 20 true, .observeHandback, .enterHook .afterFlush 20,
    .processTable true]

theorem phase_in_memory_persisted_handedBack :
    ∃ h, (handoffMachine 3).run (startedWith .init) handedBackAndReady = some h ∧
      h.worker.phase = .syncDone 20 ∧ h.store.current = .ready ∧
      (h.worker.lastWrite = .failed ∨
        ∃ earlier later, h.worker.lastWrite = .stored earlier.length ∧
          h.store.log = earlier ++ h.worker.phase :: later ∧
          (h.worker.phase :: later).getLast? = some h.store.current) := by
  refine ⟨_, rfl, rfl, rfl, ?_⟩
  have hstart : (handoffMachine 3).Reachable (startedWith .init) :=
    .init ⟨.init, [], [], by decide, rfl⟩
  exact phase_in_memory_persisted (hstart.run handedBackAndReady rfl) rfl

/-- The store write of `SyncDone` fails. The apply worker reads `SyncDone` in memory, which
the store never held. -/
theorem syncDone_in_memory_not_persisted :
    ∃ h, (handoffMachine 3).run (startedWith .init) (copiedAndCatchingUp ++
        [.tryCompleteCatchup 20 false, .observeHandback]) = some h ∧
      h.lockFree = true ∧ h.getActiveWorkerState.map (·.phase) = some (.syncDone 20) ∧
      h.store.current = .finishedCopy ∧ .syncDone 20 ∉ h.store.log :=
  ⟨_, rfl, rfl, rfl, rfl, by decide⟩

/-! ## Waiting for each other -/

/-- The apply worker is blocked until the table is handed back or errors, and the table's
worker is blocked until the apply worker lets it catch up. -/
def Handoff.CircularWait (h : Handoff) : Prop :=
  h.apply = .waiting ∧ h.worker.phase.asType ≠ .syncDone ∧ h.worker.phase.asType ≠ .errored ∧
    (∃ snapshotLsn, h.sync = .waiting snapshotLsn) ∧ h.worker.phase.asType ≠ .catchup

/-- Whether a retry rolls the table back. -/
def HandoffInput.isRollback : HandoffInput → Bool
  | .rollback _ => true
  | _ => false

/-- A retry does not roll the table back while the apply worker waits for it. -/
def Handoff.RollsBackUnawaited (h : Handoff) (input : HandoffInput) : Prop :=
  input.isRollback = true → h.apply ≠ .waiting

instance (h : Handoff) (input : HandoffInput) : Decidable (h.RollsBackUnawaited input) :=
  inferInstanceAs (Decidable (_ → _))

/-- The phases the apply worker waits in: the one it set or found, and those that end the
wait. -/
def TableReplicationPhase.IsAwaited (phase : TableReplicationPhase) : Prop :=
  phase.asType = .catchup ∨ phase.asType = .syncDone ∨ phase.asType = .errored

/-- The invariant of waiting: the shared state is consistent, and the apply worker waits in an
awaited phase only. -/
structure Handoff.Awaits (h : Handoff) : Prop extends h.Consistent where
  awaited : h.apply = .waiting → h.worker.phase.IsAwaited

namespace Handoff

variable {h h' : Handoff} {maxAttempts : ℕ}

theorem Awaits.not_waiting (ha : h.Awaits) (hphase : ¬h.worker.phase.IsAwaited) :
    h.apply ≠ .waiting :=
  fun hwaiting => hphase (ha.awaited hwaiting)

theorem not_isAwaited_of_agrees {sync : SyncPoint} {phase : TableReplicationPhase}
    (hsync : sync = .preparing ∨ sync = .copying ∨ ∃ snapshotLsn, sync = .copied snapshotLsn)
    (hagrees : sync.Agrees phase) : ¬phase.IsAwaited := by
  rcases hsync with rfl | rfl | ⟨snapshotLsn, rfl⟩
  · rcases hagrees with rfl | rfl | rfl <;>
      simp [TableReplicationPhase.IsAwaited, asType]
  · obtain rfl : phase = .dataSync := hagrees
    simp [TableReplicationPhase.IsAwaited, asType]
  · obtain rfl : phase = .finishedCopy := hagrees
    simp [TableReplicationPhase.IsAwaited, asType]

theorem setAndStore_frame (h : Handoff) (phase : TableReplicationPhase) (stored : Bool) :
    (h.setAndStore phase stored).apply = h.apply ∧ (h.setAndStore phase stored).sync = h.sync ∧
      (h.setAndStore phase stored).worker.phase = phase := by
  unfold setAndStore
  split_ifs <;> exact ⟨rfl, rfl, rfl⟩

theorem startTableSync_frame (h : Handoff) :
    h.startTableSync.apply = h.apply ∧ h.startTableSync.worker.phase = h.worker.phase := by
  unfold startTableSync
  split <;> exact ⟨rfl, rfl⟩

/-- Completing catch-up leaves the phase or hands the table back. -/
theorem tryCompleteCatchup_frame (h : Handoff) (currentLsn : PgLsn) (stored : Bool) :
    (h.tryCompleteCatchup currentLsn stored).apply = h.apply ∧
      ((h.tryCompleteCatchup currentLsn stored).worker.phase = h.worker.phase ∨
        (h.tryCompleteCatchup currentLsn stored).worker.phase = .syncDone currentLsn) := by
  obtain ⟨happly, -, hphase⟩ := h.setAndStore_frame (.syncDone currentLsn) stored
  unfold tryCompleteCatchup
  split
  next catchupLsn _ =>
    by_cases hreached : catchupLsn ≤ currentLsn
    · rw [if_pos hreached]
      exact ⟨happly, .inr hphase⟩
    · rw [if_neg hreached]
      exact ⟨rfl, .inl rfl⟩
  · exact ⟨rfl, .inl rfl⟩

theorem handleTableSyncWorkerError_frame (h : Handoff) (maxAttempts : ℕ) (unwound : Bool)
    (directive : RetryDirective) (stored due : Bool) :
    (h.handleTableSyncWorkerError maxAttempts unwound directive stored due).apply = h.apply ∧
      (h.handleTableSyncWorkerError maxAttempts unwound directive stored due).worker.phase
        = .errored := by
  obtain ⟨happly, -, hphase⟩ := h.setAndStore_frame .errored stored
  unfold handleTableSyncWorkerError
  simp only
  split_ifs <;> exact ⟨happly, hphase⟩

theorem rollback_apply (h : Handoff) (unwound restored : Bool) :
    (h.rollback unwound restored).apply = h.apply := by
  unfold rollback
  simp only
  split
  · split_ifs <;> rfl
  · rfl

/-- Every step that rolls back only what is not awaited keeps the invariant. -/
theorem Awaits.next (ha : h.Awaits) {input : HandoffInput} (hguard : h.RollsBackUnawaited input)
    (hnext : h.next maxAttempts input = some h') : h'.Awaits := by
  refine ⟨ha.toConsistent.next hnext, ?_⟩
  intro hwaiting
  have hagrees := ha.agrees
  cases step_of_next hnext with
  | startTableSync =>
    obtain ⟨happly, hphase⟩ := h.startTableSync_frame
    exact hphase ▸ ha.awaited (happly ▸ hwaiting)
  -- before the worker announces `SyncWait` no hook waits for it
  | prepareCopy stored hsync =>
    have happly := (h.setAndStore_frame .dataSync stored).1
    exact absurd (happly ▸ hwaiting)
      (ha.not_waiting (not_isAwaited_of_agrees (.inl hsync) hagrees))
  | finishCopy snapshotLsn stored hsync =>
    have happly := (h.setAndStore_frame .finishedCopy stored).1
    exact absurd (happly ▸ hwaiting)
      (ha.not_waiting (not_isAwaited_of_agrees (.inr (.inl hsync)) hagrees))
  | announceSyncWait snapshotLsn hsync =>
    have happly := (h.setAndStore_frame (.syncWait snapshotLsn) true).1
    exact absurd (happly ▸ hwaiting)
      (ha.not_waiting (not_isAwaited_of_agrees (.inr (.inr ⟨snapshotLsn, hsync⟩)) hagrees))
  | tryCompleteCatchup snapshotLsn currentLsn stored =>
    obtain ⟨happly, hphase⟩ := h.tryCompleteCatchup_frame currentLsn stored
    rcases hphase with hphase | hphase
    · exact hphase ▸ ha.awaited (happly ▸ hwaiting)
    · rw [hphase]
      exact .inr (.inl rfl)
  | observeCatchup | finishWorker | failWorker | shutdownRetry | resetTable =>
    exact ha.awaited hwaiting
  | handleError unwound directive stored due =>
    rw [(h.handleTableSyncWorkerError_frame maxAttempts unwound directive stored due).2]
    exact .inr (.inr rfl)
  -- the guard rules a rollback out while a hook waits
  | rollback unwound restored =>
    exact absurd (h.rollback_apply unwound restored ▸ hwaiting) (hguard rfl)
  | enterHook kind currentLsn happly =>
    unfold enterHook at hwaiting
    split_ifs at hwaiting
    simp [happly] at hwaiting
  | setCatchup =>
    refine .inl ?_
    simp [(h.setAndStore_frame _ true).2.2, asType]
  | awaitCatchup lsn succeeds hphase =>
    refine .inl ?_
    simp [hphase, asType]
  | storeReady =>
    unfold storeReady at hwaiting
    split_ifs at hwaiting
  | spawnIntoPool =>
    unfold spawnIntoPool at hwaiting
    split_ifs at hwaiting
  | passTable | observeHandback | shutdownWait | leaveHook | failApply | restartApply | crash =>
    cases hwaiting

end Handoff

/-- If no retry rolls the table back while the apply worker waits for it, the workers never
wait for each other. -/
theorem no_circularWait {maxAttempts : ℕ} {h : Handoff}
    (hh : (handoffMachine maxAttempts).ReachableUnder Handoff.RollsBackUnawaited h) :
    ¬h.CircularWait := by
  have ha : h.Awaits := by
    refine hh.invariant ?_ ?_
    · intro h hinit
      refine ⟨consistent_init hinit, ?_⟩
      obtain ⟨phase, history, log, -, rfl⟩ := hinit
      simp
    · intro h input h' ha hguard hnext
      exact ha.next hguard hnext
  rintro ⟨hwaiting, hnotDone, hnotErrored, -, hnotCatchup⟩
  rcases ha.awaited hwaiting with hphase | hphase | hphase
  · exact hnotCatchup hphase
  · exact hnotDone hphase
  · exact hnotErrored hphase

/-- The worker fails in catch-up and sleeps; the apply worker sees the error, and only then is
the table rolled back. -/
def retriedAfterNotice : List HandoffInput :=
  copiedAndCatchingUp ++ [.failWorker false, .handleError .timed true false, .observeHandback,
    .rollback true, .startTableSync, .prepareCopy true, .finishCopy 30 true, .announceSyncWait]

theorem no_circularWait_retriedAfterNotice :
    ∃ h, ((handoffMachine 3).restrict Handoff.RollsBackUnawaited).run (startedWith .init)
        retriedAfterNotice = some h ∧ h.worker.phase = .syncWait 30 ∧ ¬h.CircularWait := by
  refine ⟨_, rfl, rfl, ?_⟩
  have hstart : (handoffMachine 3).ReachableUnder Handoff.RollsBackUnawaited
      (startedWith .init) := .init ⟨.init, [], [], by decide, rfl⟩
  exact no_circularWait (hstart.run retriedAfterNotice rfl)

/-- The worker fails in catch-up with a retry that is already due: it keeps the lock from
recording the error until it has rolled the table back. -/
def retriedAtOnce : List HandoffInput :=
  copiedAndCatchingUp ++ [.failWorker false, .handleError .timed true true, .rollback true,
    .startTableSync, .prepareCopy true, .finishCopy 30 true, .announceSyncWait]

theorem circularWait_retriedAtOnce :
    ∃ h, (handoffMachine 3).run (startedWith .init) retriedAtOnce = some h ∧ h.CircularWait :=
  ⟨_, rfl, rfl, by decide, by decide, ⟨30, rfl⟩, by decide⟩

end Etl
