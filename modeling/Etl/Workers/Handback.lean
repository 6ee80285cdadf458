import Etl.Workers.HandoffPhases

/-! # Tables that have been handed back

A table counts as handed back when the store records it as `SyncDone` or `Ready`, or when its
active worker says so in memory. As long as no error is recorded over a stored `SyncDone` or
`Ready`, a table that the store records as handed back stays so, and the phase of an active
worker agrees with it.

Reference: `etl/src/workers/table_sync.rs` and `etl/src/workers/apply.rs`.
-/

namespace Etl

open TableReplicationPhase Handoff

/-- Whether the phase gives the table to the apply worker. -/
def TableReplicationPhase.isHandedBack : TableReplicationPhase → Bool
  | .syncDone _ | .ready => true
  | _ => false

theorem TableReplicationPhase.ne_syncDone {phase : TableReplicationPhase}
    (h : phase.isHandedBack = false) (lsn : PgLsn) : phase ≠ .syncDone lsn := by
  rintro rfl
  simp [isHandedBack] at h

/-- The snapshot a copied table catches up from. -/
def SyncPoint.snapshot? : SyncPoint → Option PgLsn
  | .copied snapshotLsn | .waiting snapshotLsn | .catchingUp snapshotLsn => some snapshotLsn
  | _ => none

theorem SyncPoint.ne_catchingUp {sync : SyncPoint} (h : sync.snapshot? = none) (lsn : PgLsn) :
    sync ≠ .catchingUp lsn := by
  rintro rfl
  simp [snapshot?] at h

namespace Handoff

/-- The table is handed back in the store, or in the memory of an active worker. -/
def HandedBack (h : Handoff) : Prop :=
  h.store.current.isHandedBack = true ∨
    h.sync ≠ .inactive ∧ h.worker.phase.isHandedBack = true

/-- The shared phase agrees with what the store records about the handback. -/
structure Recorded (h : Handoff) (handbackLsn : PgLsn) : Prop extends h.Consistent where
  worker_back : h.sync ≠ .inactive → h.store.current.isHandedBack = true →
    h.worker.phase.isHandedBack = true
  store_lsn : ∀ lsn, h.store.current = .syncDone lsn → lsn = handbackLsn
  worker_lsn : h.sync ≠ .inactive → ∀ lsn, h.worker.phase = .syncDone lsn → lsn = handbackLsn
  not_errored : h.sync ≠ .inactive → h.worker.phase.isHandedBack = false →
    h.worker.phase ≠ .errored → h.store.current ≠ .errored
  history_early : h.store.current.isHandedBack = false →
    ∀ phase ∈ h.store.history, phase.isHandedBack = false
  listed_back : ∀ kind lsn listed, h.apply = .inHook kind lsn listed →
    listed.isHandedBack = true → h.store.current.isHandedBack = true

variable {h h' : Handoff} {handbackLsn : PgLsn} {maxAttempts : ℕ}

/-- An active worker that has not handed the table back proves that the store has not. -/
theorem Recorded.store_early (hr : h.Recorded handbackLsn) (hactive : h.sync ≠ .inactive)
    (hphase : h.worker.phase.isHandedBack = false) : h.store.current.isHandedBack = false := by
  by_contra hback
  rw [hr.worker_back hactive (by simpa using hback)] at hphase
  simp at hphase

/-- A handed-back table is handed back at the recorded position, or ready. -/
theorem Recorded.phase_eq (hr : h.Recorded handbackLsn) (hback : h.HandedBack) :
    h.sync ≠ .inactive ∧ (h.worker.phase = .ready ∨ h.worker.phase = .syncDone handbackLsn) ∨
      h.sync = .inactive ∧
        (h.store.current = .ready ∨ h.store.current = .syncDone handbackLsn) := by
  by_cases hactive : h.sync = .inactive
  · refine .inr ⟨hactive, ?_⟩
    rcases hback with hback | hback
    · cases hphase : h.store.current with
      | ready => exact .inl rfl
      | syncDone lsn => exact .inr (by rw [hr.store_lsn lsn hphase])
      | _ => simp [hphase, isHandedBack] at hback
    · exact absurd hactive hback.1
  · refine .inl ⟨hactive, ?_⟩
    have hphase : h.worker.phase.isHandedBack = true := by
      rcases hback with hback | hback
      · exact hr.worker_back hactive hback
      · exact hback.2
    cases hworker : h.worker.phase with
    | ready => exact .inl rfl
    | syncDone lsn => exact .inr (by rw [hr.worker_lsn hactive lsn hworker])
    | _ => simp [hworker, isHandedBack] at hphase

/-! ## Steps that leave the phases alone -/

/-- What is recorded depends on the phases, on whether a worker is active and on the phase a
hook has listed. -/
theorem Recorded.congr (hr : h.Recorded handbackLsn) (hc : h'.Consistent)
    (hstore : h'.store = h.store) (hphase : h'.worker.phase = h.worker.phase)
    (hactive : h'.sync ≠ .inactive → h.sync ≠ .inactive)
    (hhook : ∀ kind lsn listed, h'.apply = .inHook kind lsn listed →
      h.apply = .inHook kind lsn listed) :
    h'.Recorded handbackLsn := by
  refine ⟨hc, ?_, ?_, ?_, ?_, ?_, ?_⟩
  · intro hactive'
    rw [hstore, hphase]
    exact hr.worker_back (hactive hactive')
  · rw [hstore]
    exact hr.store_lsn
  · intro hactive'
    rw [hphase]
    exact hr.worker_lsn (hactive hactive')
  · intro hactive'
    rw [hstore, hphase]
    exact hr.not_errored (hactive hactive')
  · rw [hstore]
    exact hr.history_early
  · intro kind lsn listed happly
    rw [hstore]
    exact hr.listed_back kind lsn listed (hhook kind lsn listed happly)

theorem HandedBack.congr (hback : h'.HandedBack) (hstore : h'.store = h.store)
    (hphase : h'.worker.phase = h.worker.phase)
    (hactive : h'.sync ≠ .inactive → h.sync ≠ .inactive) : h.HandedBack := by
  rcases hback with hback | ⟨hactive', hback⟩
  · exact .inl (hstore ▸ hback)
  · exact .inr ⟨hactive hactive', hphase ▸ hback⟩

/-! ## Phase writes -/

/-- A write of a phase that does not hand the table back, over a stored phase that does not
either. -/
theorem Recorded.writeEarly (hr : h.Recorded handbackLsn) (hc : h'.Consistent)
    (hearly : h.store.current.isHandedBack = false)
    (hphase : h'.worker.phase.isHandedBack = false)
    (hstore : h'.store = h.store ∨
      h'.store = h.store.updateTableReplicationState h'.worker.phase)
    (herrored : h'.worker.phase ≠ .errored → h'.store.current ≠ .errored)
    (hhook : ∀ kind lsn listed, h'.apply = .inHook kind lsn listed →
      h.apply = .inHook kind lsn listed) :
    h'.Recorded handbackLsn ∧ ¬h'.HandedBack := by
  have hcurrent : h'.store.current.isHandedBack = false := by
    rcases hstore with heq | heq
    · rw [heq]
      exact hearly
    · rw [heq]
      exact hphase
  refine ⟨⟨hc, ?_, ?_, ?_, ?_, ?_, ?_⟩, ?_⟩
  · simp [hcurrent]
  · exact fun lsn hlsn => absurd hlsn (ne_syncDone hcurrent lsn)
  · exact fun _ lsn hlsn => absurd hlsn (ne_syncDone hphase lsn)
  · intro _ _
    exact herrored
  · intro _ phase hmem
    rcases hstore with heq | heq
    · rw [heq] at hmem
      exact hr.history_early hearly phase hmem
    · rw [heq] at hmem
      rcases List.mem_cons.mp hmem with rfl | hmem
      · exact hearly
      · exact hr.history_early hearly phase hmem
  · intro kind lsn listed happly hlisted
    have hback := hr.listed_back kind lsn listed (hhook kind lsn listed happly) hlisted
    rw [hearly] at hback
    simp at hback
  · rintro (hback | ⟨-, hback⟩)
    · simp [hcurrent] at hback
    · simp [hphase] at hback

theorem setAndStore_store (h : Handoff) (phase : TableReplicationPhase) (stored : Bool) :
    (h.setAndStore phase stored).store = h.store ∨
      (h.setAndStore phase stored).store = h.store.updateTableReplicationState phase := by
  unfold setAndStore
  split_ifs
  · exact .inl rfl
  · exact .inr rfl
  · exact .inl rfl

theorem Recorded.setEarly (hr : h.Recorded handbackLsn) (phase : TableReplicationPhase)
    (stored : Bool) (sync : SyncPoint) (apply : ApplyPoint) (hactive : h.sync ≠ .inactive)
    (hworker : h.worker.phase.isHandedBack = false) (hworker' : h.worker.phase ≠ .errored)
    (hphase : phase.isHandedBack = false) (hphase' : phase ≠ .errored)
    (hagrees : sync.Agrees phase)
    (hhook : ∀ kind lsn listed, apply = .inHook kind lsn listed →
      h.apply = .inHook kind lsn listed) :
    { h.setAndStore phase stored with sync, apply }.Recorded handbackLsn ∧
      ¬{ h.setAndStore phase stored with sync, apply }.HandedBack := by
  have hset := (h.setAndStore_frame phase stored).2.2
  refine hr.writeEarly (hr.toConsistent.setAndStore_at phase stored hagrees)
    (hr.store_early hactive hworker) ?_ ?_ ?_ hhook
  · simp only [hset]
    exact hphase
  · simp only [hset]
    exact h.setAndStore_store phase stored
  · intro _
    rcases h.setAndStore_store phase stored with heq | heq
    · simp only [heq]
      exact hr.not_errored hactive hworker hworker'
    · simp only [heq]
      exact hphase'

theorem Recorded.storeReady (hr : h.Recorded handbackLsn) (hback : h.HandedBack)
    (stored : Bool) : (h.storeReady stored).Recorded handbackLsn := by
  have hc := hr.toConsistent.storeReady stored
  unfold Handoff.storeReady at hc ⊢
  split_ifs at hc ⊢
  · refine ⟨hc, ?_, ?_, hr.worker_lsn, ?_, ?_, ?_⟩
    · intro hactive _
      rcases hr.phase_eq hback with ⟨-, hphase | hphase⟩ | ⟨hinactive, -⟩
      · simp [hphase, isHandedBack]
      · simp [hphase, isHandedBack]
      · exact absurd hinactive hactive
    · simp [PhaseStore.updateTableReplicationState]
    · simp [PhaseStore.updateTableReplicationState]
    · simp [PhaseStore.updateTableReplicationState, isHandedBack]
    · simp
  · exact hr.congr hc rfl rfl id (by simp)

/-- A worker starts with the stored phase. -/
theorem Recorded.spawnIntoPool (hr : h.Recorded handbackLsn) (loaded : Bool) :
    (h.spawnIntoPool loaded).Recorded handbackLsn ∧
      ((h.spawnIntoPool loaded).HandedBack → h.HandedBack) := by
  have hc := hr.toConsistent.spawnIntoPool loaded
  unfold Handoff.spawnIntoPool at hc ⊢
  split_ifs at hc ⊢
  · refine ⟨⟨hc, ?_, hr.store_lsn, ?_, ?_, hr.history_early, ?_⟩, ?_⟩
    · exact fun _ hback => hback
    · exact fun _ lsn hlsn => hr.store_lsn lsn hlsn
    · exact fun _ _ herrored => herrored
    · simp
    · rintro (hback | ⟨-, hback⟩)
      all_goals exact .inl hback
  · exact ⟨hr.congr hc rfl rfl id (by simp), fun hback => hback.congr rfl rfl id⟩

/-- An error is recorded over a phase that does not hand the table back. -/
theorem Recorded.handleTableSyncWorkerError (hr : h.Recorded handbackLsn)
    (hearly : h.store.current.isHandedBack = false) (maxAttempts : ℕ) (unwound : Bool)
    (directive : RetryDirective) (stored due : Bool) :
    (h.handleTableSyncWorkerError maxAttempts unwound directive stored due).Recorded
        handbackLsn ∧
      ¬(h.handleTableSyncWorkerError maxAttempts unwound directive stored due).HandedBack := by
  obtain ⟨happly, hphase⟩ :=
    h.handleTableSyncWorkerError_frame maxAttempts unwound directive stored due
  refine hr.writeEarly (hr.toConsistent.handleTableSyncWorkerError _ _ _ _ _) hearly ?_ ?_ ?_ ?_
  · rw [hphase]
    rfl
  · rw [hphase]
    have hstore := h.setAndStore_store .errored stored
    unfold Handoff.handleTableSyncWorkerError
    simp only
    split_ifs <;> exact hstore
  · rw [hphase]
    exact fun hne => absurd rfl hne
  · rw [happly]
    exact fun _ _ _ heq => heq

/-- A rollback restores an early phase: nothing else is below a recorded error. -/
theorem Recorded.rollback (hr : h.Recorded handbackLsn) (hactive : h.sync ≠ .inactive)
    (hphase : h.worker.phase = .errored) (unwound restored : Bool) :
    (h.rollback unwound restored).Recorded handbackLsn ∧
      ¬(h.rollback unwound restored).HandedBack := by
  have hearly : h.store.current.isHandedBack = false :=
    hr.store_early hactive (by rw [hphase]; rfl)
  have hc := hr.toConsistent.rollback unwound restored
  have hended : ∀ worker : TableSyncWorkerState,
      { h with worker, sync := .inactive }.Consistent →
      { h with worker, sync := .inactive }.Recorded handbackLsn ∧
        ¬{ h with worker, sync := .inactive }.HandedBack := by
    intro worker hc'
    refine ⟨⟨hc', by simp, hr.store_lsn, by simp, by simp, hr.history_early, hr.listed_back⟩, ?_⟩
    rintro (hback | ⟨hne, -⟩)
    · simp [hearly] at hback
    · exact hne rfl
  unfold Handoff.rollback at hc ⊢
  simp only at hc ⊢
  split at hc
  next store hrollback =>
    by_cases hrestored : restored = true
    · rw [if_pos hrestored] at hc ⊢
      unfold PhaseStore.rollbackTableReplicationState at hrollback
      split at hrollback
      · simp at hrollback
      next previous history hhistory =>
        cases hrollback
        have hbelow := hr.history_early hearly
        rw [hhistory] at hbelow
        have hprevious := hbelow previous (by simp)
        refine ⟨⟨hc, fun _ hback => hback, ?_, ?_, fun _ _ herrored => herrored, ?_, ?_⟩, ?_⟩
        · exact fun lsn hlsn => absurd hlsn (ne_syncDone hprevious lsn)
        · exact fun _ lsn hlsn => absurd hlsn (ne_syncDone hprevious lsn)
        · exact fun _ phase hmem => hbelow phase (List.mem_cons_of_mem _ hmem)
        · intro kind lsn listed happly hlisted
          have hback := hr.listed_back kind lsn listed happly hlisted
          simp [hearly] at hback
        · rintro (hback | ⟨-, hback⟩)
          all_goals simp [hprevious] at hback
    · rw [if_neg hrestored] at hc ⊢
      exact hended _ hc
  · exact hended _ hc

/-- Completing catch-up hands the table back at its position, at least in memory. -/
theorem Recorded.tryCompleteCatchup (hr : h.Recorded handbackLsn)
    (hactive : h.sync ≠ .inactive) {catchupLsn currentLsn : PgLsn}
    (hphase : h.worker.phase = .catchup catchupLsn) (hreached : catchupLsn ≤ currentLsn)
    (stored : Bool) : (h.tryCompleteCatchup currentLsn stored).Recorded currentLsn := by
  have hearly : h.store.current.isHandedBack = false :=
    hr.store_early hactive (by rw [hphase]; rfl)
  have hc := hr.toConsistent.tryCompleteCatchup currentLsn stored
  have hset := h.setAndStore_frame (.syncDone currentLsn) stored
  unfold Handoff.tryCompleteCatchup at hc ⊢
  rw [hphase] at hc ⊢
  simp only [if_pos hreached] at hc ⊢
  have hlisted : ∀ kind lsn listed, h.apply = .inHook kind lsn listed →
      listed.isHandedBack = true → False := by
    intro kind lsn listed happly hlisted
    have hback := hr.listed_back kind lsn listed happly hlisted
    simp [hearly] at hback
  refine ⟨hc, ?_, ?_, ?_, ?_, ?_, ?_⟩
  · intro _ _
    simp [hset.2.2, isHandedBack]
  · intro lsn hlsn
    rcases h.setAndStore_store (.syncDone currentLsn) stored with heq | heq
    · simp only [heq] at hlsn
      exact absurd hlsn (ne_syncDone hearly lsn)
    · simp only [heq] at hlsn
      exact (syncDone.inj hlsn).symm
  · intro _ lsn hlsn
    simp only [hset.2.2] at hlsn
    exact (syncDone.inj hlsn).symm
  · intro _ hback
    simp [hset.2.2, isHandedBack] at hback
  · intro hcurrent
    rcases h.setAndStore_store (.syncDone currentLsn) stored with heq | heq
    · simp only [heq]
      exact hr.history_early hearly
    · simp [heq, PhaseStore.updateTableReplicationState, isHandedBack]
        at hcurrent
  · intro kind lsn listed happly hback
    simp only [hset.1] at happly
    exact (hlisted kind lsn listed happly hback).elim

/-- The hook lists the stored phase. -/
theorem Recorded.enterHook (hr : h.Recorded handbackLsn) (kind : HookKind) (lsn : PgLsn) :
    (h.enterHook kind lsn).Recorded handbackLsn := by
  unfold Handoff.enterHook
  split_ifs
  · exact hr
  · refine ⟨hr.toConsistent.congr rfl rfl rfl hr.agrees, hr.worker_back, hr.store_lsn,
      hr.worker_lsn, hr.not_errored, hr.history_early, ?_⟩
    intro kind' lsn' listed happly hback
    obtain ⟨-, -, rfl⟩ := ApplyPoint.inHook.inj happly
    exact hback

/-! ## Local steps -/

/-- What a step outside of the loops does to the handoff. A table that is to catch up was so
before, with the apply worker where it was or now waiting, unless a hook that may wait has just
asked it to. -/
structure LocalStep (h h' : Handoff) (handbackLsn : PgLsn) : Prop where
  recorded : h'.Recorded handbackLsn
  handedBack : h'.HandedBack → h.HandedBack
  inHook : ∀ kind lsn listed, h'.apply = .inHook kind lsn listed →
    h.apply = .inHook kind lsn listed
  snapshot : ∀ lsn, h'.sync.snapshot? = some lsn → h.sync.snapshot? = some lsn
  catchingUp : ∀ lsn, h'.sync = .catchingUp lsn → h.sync = .catchingUp lsn
  catchup : ∀ lsn, h'.sync ≠ .inactive → h'.worker.phase = .catchup lsn →
    (h.sync ≠ .inactive ∧ h.worker.phase = .catchup lsn ∧
      (h'.apply = h.apply ∨ h'.apply = .waiting ∨
        ∃ currentLsn listed, h.apply = .inHook .afterFlush currentLsn listed)) ∨
    h'.apply = .waiting ∧ ∃ kind currentLsn listed, h.apply = .inHook kind currentLsn listed ∧
      kind ≠ .afterFlush ∧ currentLsn ≤ lsn

theorem Recorded.localStep_frame (hr : h.Recorded handbackLsn) (hc : h'.Consistent)
    (hstore : h'.store = h.store) (hphase : h'.worker.phase = h.worker.phase)
    (hactive : h'.sync ≠ .inactive → h.sync ≠ .inactive)
    (happly : h'.apply = h.apply ∨ h'.apply = .waiting ∨
      h'.apply = .running ∧ ∀ lsn, h.worker.phase = .catchup lsn →
        ∃ currentLsn listed, h.apply = .inHook .afterFlush currentLsn listed)
    (hsync : h'.sync = h.sync ∨ h'.sync.snapshot? = none) : h.LocalStep h' handbackLsn := by
  have hhook : ∀ kind lsn listed, h'.apply = .inHook kind lsn listed →
      h.apply = .inHook kind lsn listed := by
    intro kind lsn listed heq
    rcases happly with hsame | hwaiting | ⟨hrunning, -⟩
    · exact hsame ▸ heq
    · simp [hwaiting] at heq
    · simp [hrunning] at heq
  refine ⟨hr.congr hc hstore hphase hactive hhook,
    fun hback => hback.congr hstore hphase hactive, hhook, ?_, ?_, ?_⟩
  · intro lsn hlsn
    rcases hsync with hsync | hsync
    · exact hsync ▸ hlsn
    · simp [hsync] at hlsn
  · intro lsn hlsn
    rcases hsync with hsync | hsync
    · exact hsync ▸ hlsn
    · exact absurd hlsn (SyncPoint.ne_catchingUp hsync lsn)
  · intro lsn hactive' hlsn
    rw [hphase] at hlsn
    refine .inl ⟨hactive hactive', hlsn, ?_⟩
    rcases happly with hsame | hwaiting | ⟨-, hflush⟩
    · exact .inl hsame
    · exact .inr (.inl hwaiting)
    · exact .inr (.inr (hflush lsn hlsn))

/-- A step that leaves the table in a phase that neither hands it back nor lets it catch up. -/
theorem localStep_early (hrecorded : h'.Recorded handbackLsn) (hback : ¬h'.HandedBack)
    (hphase : ∀ lsn, h'.sync ≠ .inactive → h'.worker.phase ≠ .catchup lsn)
    (happly : h'.apply = h.apply)
    (hsync : ∀ lsn, h'.sync.snapshot? = some lsn → h.sync.snapshot? = some lsn)
    (hcatching : ∀ lsn, h'.sync ≠ .catchingUp lsn) : h.LocalStep h' handbackLsn where
  recorded := hrecorded
  handedBack hback' := absurd hback' hback
  inHook _ _ _ heq := happly ▸ heq
  snapshot := hsync
  catchingUp lsn hlsn := absurd hlsn (hcatching lsn)
  catchup lsn hactive hlsn := absurd hlsn (hphase lsn hactive)

theorem startTableSync_eq (h : Handoff) :
    h.startTableSync.store = h.store ∧ h.startTableSync.sync.snapshot? = none := by
  unfold startTableSync
  split <;> exact ⟨rfl, rfl⟩

theorem Recorded.localStep_startTableSync (hr : h.Recorded handbackLsn)
    (hsync : h.sync = .starting) : h.LocalStep h.startTableSync handbackLsn := by
  obtain ⟨happly, hphase⟩ := h.startTableSync_frame
  obtain ⟨hstore, hsnapshot⟩ := h.startTableSync_eq
  exact hr.localStep_frame hr.toConsistent.startTableSync hstore hphase
    (fun _ => by simp [hsync]) (.inl happly) (.inr hsnapshot)

theorem Recorded.localStep_announceSyncWait (hr : h.Recorded handbackLsn) {lsn : PgLsn}
    (hsync : h.sync = .copied lsn) : h.LocalStep (h.announceSyncWait lsn) handbackLsn := by
  have hagrees := hr.agrees
  rw [hsync] at hagrees
  have hphase : h.worker.phase = .finishedCopy := hagrees
  obtain ⟨happly, -, hset⟩ := h.setAndStore_frame (.syncWait lsn) true
  obtain ⟨hrecorded, hback⟩ := hr.setEarly (.syncWait lsn) true (.waiting lsn) _
    (by simp [hsync]) (by rw [hphase]; rfl) (by simp [hphase]) rfl (by simp) (.inl rfl)
    (fun _ _ _ heq => happly ▸ heq)
  refine localStep_early hrecorded hback ?_ happly ?_ ?_
  · intro lsn' _
    simp [announceSyncWait, hset]
  · intro lsn' hlsn'
    rw [hsync]
    exact hlsn'
  · simp [announceSyncWait]

theorem Recorded.localStep_handleError (hr : h.Recorded handbackLsn)
    (hearly : h.store.current.isHandedBack = false) (maxAttempts : ℕ) (unwound : Bool)
    (directive : RetryDirective) (stored due : Bool) :
    h.LocalStep (h.handleTableSyncWorkerError maxAttempts unwound directive stored due)
      handbackLsn := by
  obtain ⟨happly, hphase⟩ :=
    h.handleTableSyncWorkerError_frame maxAttempts unwound directive stored due
  obtain ⟨hrecorded, hback⟩ :=
    hr.handleTableSyncWorkerError hearly maxAttempts unwound directive stored due
  have hsync : (h.handleTableSyncWorkerError maxAttempts unwound directive stored
      due).sync.snapshot? = none := by
    unfold Handoff.handleTableSyncWorkerError
    simp only
    split_ifs <;> rfl
  refine localStep_early hrecorded hback ?_ happly ?_ ?_
  · simp [hphase]
  · simp [hsync]
  · exact SyncPoint.ne_catchingUp hsync

theorem sync_of_rollback (h : Handoff) (unwound restored : Bool) :
    (h.rollback unwound restored).sync = .inactive ∨
      (h.rollback unwound restored).sync = .starting := by
  unfold rollback
  simp only
  split
  · split_ifs
    · exact .inl rfl
    · exact .inr rfl
    · exact .inl rfl
  · exact .inl rfl

theorem Recorded.localStep_rollback (hr : h.Recorded handbackLsn) (hactive : h.sync ≠ .inactive)
    (hphase : h.worker.phase = .errored) (unwound restored : Bool) :
    h.LocalStep (h.rollback unwound restored) handbackLsn := by
  obtain ⟨hrecorded, hback⟩ := hr.rollback hactive hphase unwound restored
  have hsync := h.sync_of_rollback unwound restored
  have hsnapshot : (h.rollback unwound restored).sync.snapshot? = none := by
    rcases hsync with hsync | hsync
    all_goals
      rw [hsync]
      rfl
  refine localStep_early hrecorded hback ?_ (h.rollback_apply unwound restored) ?_ ?_
  · intro lsn hactive' hlsn
    -- a worker that starts again has a phase that is stored
    have hagrees := hrecorded.agrees
    rw [hsync.resolve_left hactive', hlsn] at hagrees
    simp [SyncPoint.Agrees, asType,
      TableReplicationPhaseType.shouldStore] at hagrees
  · simp [hsnapshot]
  · exact SyncPoint.ne_catchingUp hsnapshot

theorem Recorded.localStep_storeReady (hr : h.Recorded handbackLsn) (hback : h.HandedBack)
    (hphase : ∀ lsn, h.sync ≠ .inactive → h.worker.phase ≠ .catchup lsn) (stored : Bool) :
    h.LocalStep (h.storeReady stored) handbackLsn := by
  have hsync : (h.storeReady stored).sync = h.sync ∧
      (h.storeReady stored).worker = h.worker := by
    unfold Handoff.storeReady
    split_ifs <;> exact ⟨rfl, rfl⟩
  have happly : ∀ kind lsn listed, (h.storeReady stored).apply ≠ .inHook kind lsn listed := by
    unfold Handoff.storeReady
    split_ifs <;> simp
  refine ⟨hr.storeReady hback stored, fun _ => hback, ?_, ?_, ?_, ?_⟩
  · exact fun kind lsn listed heq => absurd heq (happly kind lsn listed)
  · rw [hsync.1]
    exact fun _ hlsn => hlsn
  · rw [hsync.1]
    exact fun _ hlsn => hlsn
  · rw [hsync.1, hsync.2]
    exact fun lsn hactive hlsn => absurd hlsn (hphase lsn hactive)

/-- A hook that may wait tells the table to catch up. -/
theorem Recorded.localStep_catchup (hr : h.Recorded handbackLsn) (hactive : h.sync ≠ .inactive)
    {kind : HookKind} {currentLsn snapshotLsn : PgLsn} {listed : TableReplicationPhase}
    (happly : h.apply = .inHook kind currentLsn listed) (hkind : kind ≠ .afterFlush)
    (hphase : h.worker.phase = .syncWait snapshotLsn) :
    h.LocalStep { h.setAndStore (.catchup (max snapshotLsn currentLsn)) true with
      apply := .waiting } handbackLsn := by
  obtain ⟨-, hsync, hset⟩ := h.setAndStore_frame (.catchup (max snapshotLsn currentLsn)) true
  have hagrees : h.sync.Agrees (.catchup (max snapshotLsn currentLsn)) :=
    hr.toConsistent.agrees_catchup hphase
  obtain ⟨hrecorded, hback⟩ := hr.setEarly (.catchup (max snapshotLsn currentLsn)) true _ .waiting
    hactive (by rw [hphase]; rfl) (by simp [hphase]) rfl (by simp) (hsync.symm ▸ hagrees)
    (by simp)
  refine ⟨hrecorded, fun hback' => absurd hback' hback, by simp, ?_, ?_, ?_⟩
  · exact fun _ hlsn => hlsn
  · exact fun _ hlsn => hlsn
  · intro lsn _ hlsn
    simp only [hset, catchup.injEq] at hlsn
    exact .inr ⟨rfl, kind, currentLsn, listed, happly, hkind, hlsn ▸ le_max_right _ _⟩

/-- A hook that finds no worker starts one, with the stored phase. -/
theorem Recorded.localStep_spawnIntoPool (hr : h.Recorded handbackLsn)
    (hinactive : h.sync = .inactive) (loaded : Bool) :
    h.LocalStep (h.spawnIntoPool loaded) handbackLsn := by
  obtain ⟨hrecorded, hback⟩ := hr.spawnIntoPool loaded
  refine ⟨hrecorded, hback, ?_, ?_, ?_, ?_⟩
  all_goals unfold Handoff.spawnIntoPool
  all_goals split_ifs
  · simp
  · simp
  · simp [SyncPoint.snapshot?]
  · simp
  · simp
  · simp
  · intro lsn _ hlsn
    have hstored := hr.store.current_stored
    have hphase : h.store.current = .catchup lsn := hlsn
    simp [hphase, asType, TableReplicationPhaseType.shouldStore] at hstored
  · exact fun _ hactive => absurd hinactive hactive

/-- Every local step is of this kind, if no error is recorded over a handback. -/
theorem Recorded.localStep_of_next (hr : h.Recorded handbackLsn) {input : HandoffInput}
    (hlocal : input.isLocal = true)
    (hguard : input.recordsError = true → h.store.current.isHandedBack = false)
    (hnext : h.next maxAttempts input = some h') : h.LocalStep h' handbackLsn := by
  have hc := hr.toConsistent.next hnext
  cases step_of_next hnext with
  | startTableSync hsync => exact hr.localStep_startTableSync hsync
  | announceSyncWait snapshotLsn hsync => exact hr.localStep_announceSyncWait hsync
  | finishWorker | shutdownRetry =>
    exact hr.localStep_frame hc rfl rfl (by simp [finish]) (.inl rfl) (.inr rfl)
  | failWorker unwound hfail =>
    refine hr.localStep_frame hc rfl rfl ?_ (.inl rfl) (.inr rfl)
    intro _ hinactive
    simp [hinactive, SyncPoint.canFail] at hfail
  | handleError => exact hr.localStep_handleError (hguard rfl) _ _ _ _ _
  | rollback unwound restored hsync =>
    obtain ⟨hactive, hphase⟩ := hr.toConsistent.errored_of_rollback hsync
    exact hr.localStep_rollback hactive hphase _ _
  | setCatchup kind currentLsn snapshotLsn listed succeeds happly hactive hkind hphase =>
    exact hr.localStep_catchup hactive happly hkind hphase
  | awaitCatchup =>
    exact hr.localStep_frame hc rfl rfl id (.inr (.inl rfl)) (.inl rfl)
  | storeReady kind currentLsn lsn listed succeeds happly _ _ hback =>
    refine hr.localStep_storeReady ?_ ?_ succeeds
    · rcases hback with ⟨hactive, hphase⟩ | ⟨-, rfl⟩
      · exact .inr ⟨hactive, by rw [hphase]; rfl⟩
      · exact .inl (hr.listed_back kind currentLsn (.syncDone lsn) happly rfl)
    · rintro lsn' hactive hlsn'
      rcases hback with ⟨-, hphase⟩ | ⟨hinactive, -⟩
      · simp [hphase] at hlsn'
      · exact hactive hinactive
  | spawnIntoPool succeeds hinactive => exact hr.localStep_spawnIntoPool hinactive succeeds
  | passTable kind currentLsn listed succeeds happly hflush =>
    by_cases hactive : h.sync = .inactive
    · refine ⟨hr.congr hc rfl rfl id (by simp), fun hback => hback.congr rfl rfl id, by simp,
        fun _ hlsn => hlsn, fun _ hlsn => hlsn, ?_⟩
      exact fun _ hactive' => absurd hactive hactive'
    · refine hr.localStep_frame hc rfl rfl id (.inr (.inr ⟨rfl, ?_⟩)) (.inl rfl)
      intro lsn hlsn
      exact ⟨currentLsn, listed, hflush lsn hactive hlsn ▸ happly⟩
  | observeHandback hback =>
    refine hr.localStep_frame hc rfl rfl id (.inr (.inr ⟨rfl, ?_⟩)) (.inl rfl)
    intro lsn hlsn
    simp [hlsn, asType] at hback
  | _ => cases hlocal

end Handoff

end Etl
