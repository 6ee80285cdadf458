import Etl.Workers.Handback

/-! # A handback that is kept

Without errors that are recorded, a table that is handed back stays so, and the position it was
handed back at stays the one every later decision compares with. `Ready` is reached only by a
hook whose position has passed it.

Reference: `etl/src/workers/table_sync.rs`.
-/

namespace Etl

/-- Whether the worker is outside of its copy and its catch-up. -/
def SyncPoint.isOutside : SyncPoint → Bool
  | .copying | .copied _ | .waiting _ | .catchingUp _ | .completing => false
  | _ => true

namespace Handoff

variable {h h' : Handoff} {handbackLsn : PgLsn} {maxAttempts : ℕ} {input : HandoffInput}

/-- What backs a handback in the memory of a worker, unless the worker is about to fail: the
store. A hook that listed a handed-back table listed the position of the handback. -/
structure Backed (h : Handoff) (handbackLsn : PgLsn) : Prop where
  store_back : h.sync ≠ .inactive → h.worker.phase.isHandedBack = true →
    (∃ unwound, h.sync = .failing unwound) ∨ h.store.current.isHandedBack = true
  listed_lsn : ∀ kind currentLsn lsn, h.apply = .inHook kind currentLsn (.syncDone lsn) →
    lsn = handbackLsn

/-- The table is ready in the store, or in the memory of an active worker. -/
def IsReady (h : Handoff) : Prop :=
  h.store.current = .ready ∨ h.sync ≠ .inactive ∧ h.worker.phase = .ready

/-- What a step does that records no error. -/
structure KeepsBack (h h' : Handoff) (handbackLsn : PgLsn) : Prop where
  backed : h'.Backed handbackLsn
  handedBack : h.HandedBack → h'.HandedBack
  ready : h'.IsReady → h.IsReady ∨ ∃ kind lsn listed, h.apply = .inHook kind lsn listed ∧
    kind ≠ .afterCommit ∧ handbackLsn ≤ lsn

/-- An active worker of a handed-back table has it handed back in memory. -/
theorem Recorded.phase_back (hr : h.Recorded handbackLsn) (hback : h.HandedBack)
    (hactive : h.sync ≠ .inactive) : h.worker.phase.isHandedBack = true := by
  rcases hback with hback | ⟨-, hback⟩
  · exact hr.worker_back hactive hback
  · exact hback

/-- An active worker with an earlier phase proves that the table is not handed back. -/
theorem Recorded.not_handedBack (hr : h.Recorded handbackLsn) (hactive : h.sync ≠ .inactive)
    (hphase : h.worker.phase.isHandedBack = false) : ¬h.HandedBack := by
  intro hback
  rw [hr.phase_back hback hactive] at hphase
  simp at hphase

/-- The store backs a handback, unless a worker is about to fail. -/
theorem Backed.store_of_handedBack (hb : h.Backed handbackLsn) (hback : h.HandedBack)
    (hfailing : ∀ unwound, h.sync ≠ .failing unwound) : h.store.current.isHandedBack = true := by
  rcases hback with hback | ⟨hactive, hback⟩
  · exact hback
  · rcases hb.store_back hactive hback with ⟨unwound, hsync⟩ | hstore
    · exact absurd hsync (hfailing unwound)
    · exact hstore

theorem Backed.keepsBack_sync (hb : h.Backed handbackLsn)
    (hfailing : ∀ unwound, h.sync ≠ .failing unwound) (hstore : h'.store = h.store)
    (hphase : h'.worker.phase = h.worker.phase) (happly : h'.apply = h.apply)
    (hactive : h'.sync ≠ .inactive → h.sync ≠ .inactive) : h.KeepsBack h' handbackLsn := by
  refine ⟨⟨?_, ?_⟩, ?_, ?_⟩
  · intro hactive' hback
    refine .inr ?_
    rw [hphase] at hback
    rw [hstore]
    exact hb.store_of_handedBack (.inr ⟨hactive hactive', hback⟩) hfailing
  · rw [happly]
    exact hb.listed_lsn
  · intro hback
    refine .inl ?_
    rw [hstore]
    exact hb.store_of_handedBack hback hfailing
  · rintro (hready | ⟨hactive', hready⟩)
    · exact .inl (.inl (hstore ▸ hready))
    · exact .inl (.inr ⟨hactive hactive', hphase ▸ hready⟩)

theorem Backed.keepsBack_apply (hb : h.Backed handbackLsn) {point : ApplyPoint}
    (hpoint : ∀ kind lsn listed, point ≠ .inHook kind lsn listed) :
    h.KeepsBack { h with apply := point } handbackLsn := by
  refine ⟨⟨hb.store_back, ?_⟩, ?_, ?_⟩
  · exact fun kind lsn listed heq => absurd heq (hpoint kind lsn _)
  · exact fun hback => hback
  · exact fun hready => .inl hready

/-- A local step of a table that is not handed back. -/
theorem Backed.keepsBack_early (hb : h.Backed handbackLsn) (hstep : h.LocalStep h' handbackLsn)
    (hback : ¬h.HandedBack) : h.KeepsBack h' handbackLsn := by
  have hback' : ¬h'.HandedBack := fun hback' => hback (hstep.handedBack hback')
  refine ⟨⟨?_, ?_⟩, fun hback'' => absurd hback'' hback, ?_⟩
  · exact fun hactive hphase => absurd (.inr ⟨hactive, hphase⟩) hback'
  · exact fun kind lsn listed heq => hb.listed_lsn kind lsn listed (hstep.inHook _ _ _ heq)
  · rintro (hready | ⟨hactive, hready⟩)
    · exact absurd (.inl (by rw [hready]; rfl)) hback'
    · exact absurd (.inr ⟨hactive, by rw [hready]; rfl⟩) hback'

/-- Storing `Ready` at the position of a hook that has passed the handback. -/
theorem Backed.keepsBack_storeReady (hb : h.Backed handbackLsn) {kind : HookKind}
    {currentLsn : PgLsn} {listed : TableReplicationPhase}
    (happly : h.apply = .inHook kind currentLsn listed) (hkind : kind ≠ .afterCommit)
    (hle : handbackLsn ≤ currentLsn) (stored : Bool) :
    h.KeepsBack (h.storeReady stored) handbackLsn := by
  unfold Handoff.storeReady
  split_ifs
  · refine ⟨⟨fun _ _ => .inr rfl, by simp⟩, fun _ => .inl rfl, ?_⟩
    exact fun _ => .inr ⟨kind, currentLsn, listed, happly, hkind, hle⟩
  · exact hb.keepsBack_apply (by simp)

/-- A new worker has the stored phase. -/
theorem Backed.keepsBack_spawnIntoPool (hb : h.Backed handbackLsn) (hinactive : h.sync = .inactive)
    (loaded : Bool) : h.KeepsBack (h.spawnIntoPool loaded) handbackLsn := by
  unfold Handoff.spawnIntoPool
  split_ifs
  · refine ⟨⟨fun _ hback => .inr hback, by simp⟩, ?_, ?_⟩
    · rintro (hback | ⟨hactive, -⟩)
      · exact .inl hback
      · exact absurd hinactive hactive
    · rintro (hready | ⟨-, hready⟩) <;> exact .inl (.inl hready)
  · exact hb.keepsBack_apply (by simp)

/-- Every local step that records no error keeps a handback. -/
theorem Backed.keepsBack_of_next (hb : h.Backed handbackLsn) (hr : h.Recorded handbackLsn)
    (hlocal : input.isLocal = true) (herror : input.recordsError = false)
    (hnext : h.next maxAttempts input = some h') : h.KeepsBack h' handbackLsn := by
  have hagrees := hr.agrees
  cases step_of_next hnext with
  | startTableSync hsync =>
    obtain ⟨happly, hphase⟩ := h.startTableSync_frame
    exact hb.keepsBack_sync (by simp [hsync]) h.startTableSync_eq.1 hphase happly
      (fun _ => by simp [hsync])
  | announceSyncWait lsn hsync =>
    rw [hsync] at hagrees
    have hphase : h.worker.phase = .finishedCopy := hagrees
    exact hb.keepsBack_early (hr.localStep_announceSyncWait hsync)
      (hr.not_handedBack (by simp [hsync]) (by rw [hphase]; rfl))
  | finishWorker hstop =>
    refine hb.keepsBack_sync ?_ rfl rfl rfl (by simp [Handoff.finish])
    intro unwound hsync
    simp [hsync, SyncPoint.canStop] at hstop
  | failWorker unwound hfail =>
    refine hb.keepsBack_sync ?_ rfl rfl rfl ?_
    · intro unwound hsync
      simp [hsync, SyncPoint.canFail] at hfail
    · intro _ hinactive
      simp [hinactive, SyncPoint.canFail] at hfail
  | handleError => cases herror
  | rollback unwound restored hsync =>
    obtain ⟨hactive, hphase⟩ := hr.toConsistent.errored_of_rollback hsync
    exact hb.keepsBack_early (hr.localStep_rollback hactive hphase unwound restored)
      (hr.not_handedBack hactive (by rw [hphase]; rfl))
  | shutdownRetry unwound hsync =>
    exact hb.keepsBack_sync (by simp [hsync]) rfl rfl rfl (by simp [Handoff.finish])
  | setCatchup kind currentLsn snapshotLsn listed succeeds happly hactive hkind hphase =>
    exact hb.keepsBack_early (hr.localStep_catchup hactive happly hkind hphase)
      (hr.not_handedBack hactive (by rw [hphase]; rfl))
  | storeReady kind currentLsn lsn listed succeeds happly hkind hle hback =>
    have hlsn : lsn = handbackLsn := by
      rcases hback with ⟨hactive, hphase⟩ | ⟨-, rfl⟩
      · exact hr.worker_lsn hactive lsn hphase
      · exact hb.listed_lsn kind currentLsn lsn happly
    exact hb.keepsBack_storeReady happly hkind (hlsn ▸ hle) succeeds
  | spawnIntoPool succeeds hinactive => exact hb.keepsBack_spawnIntoPool hinactive succeeds
  | awaitCatchup | passTable | observeHandback => exact hb.keepsBack_apply (by simp)
  | _ => cases hlocal

/-! ## Where a local step leads -/

/-- A local step keeps the worker where it is, with the target of its catch-up, or lets it wait
for its catch-up, or leads outside of the copy and the catch-up. -/
theorem sync_of_next (hlocal : input.isLocal = true) (hnext : h.next maxAttempts input = some h') :
    (h'.sync = h.sync ∧ ∀ lsn, h.sync ≠ .inactive → h.worker.phase = .catchup lsn →
        h'.worker.phase = .catchup lsn) ∨
      (∃ lsn, h.sync = .copied lsn ∧ h'.sync = .waiting lsn) ∨
      h'.sync.isOutside = true := by
  cases step_of_next hnext with
  | startTableSync =>
    refine .inr (.inr ?_)
    unfold Handoff.startTableSync
    split <;> rfl
  | announceSyncWait lsn hsync => exact .inr (.inl ⟨lsn, hsync, rfl⟩)
  | finishWorker | failWorker | shutdownRetry => exact .inr (.inr rfl)
  | handleError =>
    refine .inr (.inr ?_)
    unfold Handoff.handleTableSyncWorkerError
    simp only
    split_ifs <;> rfl
  | rollback =>
    rcases h.sync_of_rollback _ _ with hsync | hsync <;>
      exact .inr (.inr (by rw [hsync]; rfl))
  | setCatchup _ _ snapshotLsn _ _ _ _ _ hphase =>
    exact .inl ⟨(h.setAndStore_frame _ true).2.1, by simp [hphase]⟩
  | storeReady =>
    unfold Handoff.storeReady
    split_ifs <;> exact .inl ⟨rfl, fun _ _ hlsn => hlsn⟩
  | spawnIntoPool succeeds hinactive =>
    unfold Handoff.spawnIntoPool
    split_ifs
    · exact .inr (.inr rfl)
    · exact .inl ⟨rfl, fun _ _ hlsn => hlsn⟩
  | awaitCatchup | passTable | observeHandback => exact .inl ⟨rfl, fun _ _ hlsn => hlsn⟩
  | _ => cases hlocal

end Handoff

end Etl
