import Etl.Workers.Handback

/-! # Creating the slot of the apply worker

The apply worker finds or creates its replication slot before it starts, and recreates a slot that
the server has invalidated. A new slot delivers only what is committed after its consistent point, so
every table has to be copied again: the recovery resets all tables first, and after creating a
missing slot the worker checks that every table is in its initial phase. Each call is a step here. The
process may crash between any two of them, and a table-sync worker from before may go on beside them.

What the copy of the table and its catch-up have delivered is kept as history.
`delivered_through_consistentPoint` says that a table counts as synchronized only with everything
before the consistent point of the slot, when no table-sync worker outlives the slot it worked with
and a new slot is not left behind unchecked. Otherwise changes are lost
(`slotRecovery_loses_changes`).

Reference: `etl/src/workers/apply.rs` (`handle_invalidated_slot`) and
`etl/src/replication/client.rs`.
-/

namespace Etl

/-- What to do about an invalidated slot. -/
inductive InvalidatedSlotBehavior where
  | error | recreate
  deriving DecidableEq, Repr

/-- The slot of the apply worker. -/
inductive ApplySlot where
  | missing
  | usable (consistentPoint : PgLsn)
  | invalidated
  deriving DecidableEq, Repr

/-- Where the apply worker is in finding its start position. -/
inductive StartPoint where
  /-- Not looking for one. -/
  | idle
  /-- The slot was missing and has been created. -/
  | created
  /-- A table was not in its initial phase. -/
  | rejecting
  | validated
  /-- The stale progress could not be deleted. -/
  | undoing
  /-- The slot was found invalidated. -/
  | invalidated
  | tablesReset
  | progressDeleted
  | slotDeleted
  deriving DecidableEq, Repr

/-- Whether a new slot exists that is not known to be safe. -/
def StartPoint.isUnchecked : StartPoint → Bool
  | .created | .rejecting => true
  | _ => false

/-- The table, its workers and the slot of the apply worker, with the end of the log. The last two
fields are history: the end of the log when the last copy began, and the position up to which the
last finished copy and its catch-up have delivered all changes of the table. -/
structure SlotState where
  handoff : Handoff
  walEnd : PgLsn
  slot : ApplySlot
  start : StartPoint
  copyStart : PgLsn
  delivered : PgLsn

/-- What can happen. Outcomes of calls are part of the event. -/
inductive SlotInput where
  /-- Transactions commit. -/
  | advanceWal (walEnd : PgLsn)
  | invalidateSlot
  | getOrCreateSlot
  | validateTablesInInitState (othersInInit : Bool)
  | deleteReplicationProgress (succeeds : Bool)
  | deleteSlotIfExists (succeeds : Bool)
  | resetTables (stored : Bool)
  | createSlot (succeeds : Bool)
  | crash
  /-- A step of the workers that is none of the above. -/
  | handoff (input : HandoffInput)
  deriving DecidableEq

namespace SlotState

/-- The apply worker starts. -/
def resume (s : SlotState) : SlotState :=
  { s with handoff := { s.handoff with apply := .running }, start := .idle }

/-- Creates the slot at the end of the log. -/
def withNewSlot (s : SlotState) : SlotState := { s with slot := .usable s.walEnd }

/-- Whether a step of the workers fits the log. A copy is of a snapshot taken after it began. -/
def Fits (s : SlotState) : HandoffInput → Prop
  | .finishCopy snapshotLsn _ => s.copyStart ≤ snapshotLsn ∧ snapshotLsn ≤ s.walEnd
  | .tryCompleteCatchup currentLsn _ | .enterHook _ currentLsn => currentLsn ≤ s.walEnd
  | .resetTable | .restartApply | .crash => False
  | _ => True

instance (s : SlotState) : DecidablePred s.Fits
  | .finishCopy _ _ => inferInstanceAs (Decidable (_ ∧ _))
  | .tryCompleteCatchup _ _ | .enterHook _ _ => inferInstanceAs (Decidable (_ ≤ _))
  | .resetTable | .restartApply | .crash => inferInstanceAs (Decidable False)
  | .startTableSync | .prepareCopy _ | .announceSyncWait | .observeCatchup | .finishWorker
  | .failWorker _ | .handleError _ _ _ | .rollback _ | .shutdownRetry | .processTable _
  | .observeHandback | .shutdownWait | .leaveHook | .failApply => inferInstanceAs (Decidable True)

/-- Follows a step of the workers in the history. -/
def afterHandoff (s : SlotState) (input : HandoffInput) (handoff : Handoff) : SlotState :=
  match input with
  | .prepareCopy _ => { s with handoff, copyStart := s.walEnd }
  | .finishCopy snapshotLsn _ => { s with handoff, delivered := snapshotLsn }
  | .tryCompleteCatchup currentLsn _ =>
    match s.handoff.worker.phase with
    | .catchup catchupLsn =>
      { s with handoff, delivered := if catchupLsn ≤ currentLsn then currentLsn else s.delivered }
    | _ => { s with handoff }
  | _ => { s with handoff }

/-- A step of the workers changes neither the log nor the slot. -/
theorem afterHandoff_frame (s : SlotState) (input : HandoffInput) (handoff : Handoff) :
    (s.afterHandoff input handoff).handoff = handoff ∧
      (s.afterHandoff input handoff).walEnd = s.walEnd ∧
      (s.afterHandoff input handoff).slot = s.slot ∧
      (s.afterHandoff input handoff).start = s.start := by
  unfold afterHandoff
  split
  · exact ⟨rfl, rfl, rfl, rfl⟩
  · exact ⟨rfl, rfl, rfl, rfl⟩
  · split <;> exact ⟨rfl, rfl, rfl, rfl⟩
  · exact ⟨rfl, rfl, rfl, rfl⟩

variable (maxAttempts : ℕ) (behavior : InvalidatedSlotBehavior)

/-- The first calls of `get_start_lsn`. -/
def getOrCreateSlot (s : SlotState) : SlotState :=
  match s.slot with
  | .missing => { s.withNewSlot with start := .created }
  | .usable _ => s.resume
  | .invalidated =>
    match behavior with
    | .error => s
    | .recreate => { s with start := .invalidated }

/-- One step. A call that fails ends the attempt to start. -/
def next (s : SlotState) (input : SlotInput) : Option SlotState :=
  match input, s.start with
  | .advanceWal walEnd, _ => if s.walEnd ≤ walEnd then some { s with walEnd } else none
  | .invalidateSlot, _ =>
    if s.slot = .missing then none else some { s with slot := .invalidated }
  | .getOrCreateSlot, .idle =>
    if s.handoff.apply = .down then some (s.getOrCreateSlot behavior) else none
  | .validateTablesInInitState othersInInit, .created =>
    if s.handoff.store.current.asType = .init ∧ othersInInit then
      some { s with start := .validated }
    else some { s with start := .rejecting }
  | .deleteReplicationProgress succeeds, .validated =>
    if succeeds then some s.resume else some { s with start := .undoing }
  | .deleteSlotIfExists succeeds, .rejecting | .deleteSlotIfExists succeeds, .undoing =>
    if succeeds then some { s with slot := .missing, start := .idle }
    else some { s with start := .idle }
  | .resetTables stored, .invalidated =>
    if stored then
      some { s with
        handoff := { s.handoff with store := s.handoff.store.updateTableReplicationState .init }
        start := .tablesReset }
    else some { s with start := .idle }
  | .deleteReplicationProgress succeeds, .tablesReset =>
    some { s with start := if succeeds then .progressDeleted else .idle }
  | .deleteSlotIfExists succeeds, .progressDeleted =>
    if succeeds then some { s with slot := .missing, start := .slotDeleted }
    else some { s with start := .idle }
  | .createSlot succeeds, .slotDeleted =>
    if succeeds then some s.withNewSlot.resume else some { s with start := .idle }
  | .crash, _ =>
    some { s with handoff := { s.handoff with sync := .inactive, apply := .down }, start := .idle }
  | .handoff input, _ =>
    if s.Fits input then (s.handoff.next maxAttempts input).map (s.afterHandoff input) else none
  | _, _ => none

end SlotState

/-- The recovery as a machine. The process starts with what the store holds, and without a slot. -/
def slotMachine (maxAttempts : ℕ) (behavior : InvalidatedSlotBehavior) :
    Machine SlotState SlotInput where
  init s := (handoffMachine maxAttempts).init s.handoff ∧ s.slot = .missing ∧ s.start = .idle
  next := SlotState.next maxAttempts behavior

/-! ## Tables that were copied after a position -/

variable {consistentPoint copyStart delivered : PgLsn} {phase : TableReplicationPhase}

/-- The phase dates from after a position: positions in it are not earlier, and a table that counts
as synchronized has everything before it. -/
def TableReplicationPhase.Since (consistentPoint delivered : PgLsn) : TableReplicationPhase → Prop
  | .syncWait lsn | .catchup lsn => consistentPoint ≤ lsn
  | .syncDone _ | .ready => consistentPoint ≤ delivered
  | _ => True

/-- The point of the table-sync worker dates from after a position. -/
def SyncPoint.Since (consistentPoint copyStart : PgLsn) : SyncPoint → Prop
  | .copying => consistentPoint ≤ copyStart
  | .copied lsn | .waiting lsn | .catchingUp lsn => consistentPoint ≤ lsn
  | _ => True

/-- The stored phases date from after a position, down to the latest initial one. -/
inductive PhasesSince (consistentPoint delivered : PgLsn) : List TableReplicationPhase → Prop
  | init (older : List TableReplicationPhase) : PhasesSince consistentPoint delivered (.init :: older)
  | push {phase : TableReplicationPhase} {older : List TableReplicationPhase} :
      phase.Since consistentPoint delivered → PhasesSince consistentPoint delivered older →
        PhasesSince consistentPoint delivered (phase :: older)

/-- Everything the workers know of the table dates from after a position. A rollback does not reach
below the latest initial phase. -/
structure Handoff.Since (h : Handoff) (consistentPoint copyStart delivered : PgLsn) : Prop where
  stored : PhasesSince consistentPoint delivered (h.store.current :: h.store.history)
  rollback : h.sync.isRetrying = true → h.store.current ≠ .init
  worker : h.sync ≠ .inactive → h.worker.phase.Since consistentPoint delivered
  sync : h.sync.Since consistentPoint copyStart
  listed : ∀ kind currentLsn listed, h.apply = .inHook kind currentLsn listed →
    listed.Since consistentPoint delivered

theorem TableReplicationPhase.Since.of_le {later : PgLsn}
    (hphase : phase.Since consistentPoint delivered) (hlater : consistentPoint ≤ later) :
    phase.Since consistentPoint later := by
  cases phase with
  | syncWait lsn | catchup lsn => exact hphase
  | syncDone lsn | ready => exact hlater
  | init | dataSync | finishedCopy | errored => trivial

namespace PhasesSince

variable {phase : TableReplicationPhase} {phases : List TableReplicationPhase}

theorem head (hphases : PhasesSince consistentPoint delivered (phase :: phases)) :
    phase.Since consistentPoint delivered := by
  cases hphases with
  | init => trivial
  | push hphase _ => exact hphase

theorem tail (hphases : PhasesSince consistentPoint delivered (phase :: phases))
    (hphase : phase ≠ .init) : PhasesSince consistentPoint delivered phases := by
  cases hphases with
  | init => exact absurd rfl hphase
  | push _ holder => exact holder

theorem of_le {later : PgLsn} (hphases : PhasesSince consistentPoint delivered phases)
    (hlater : consistentPoint ≤ later) : PhasesSince consistentPoint later phases := by
  induction hphases with
  | init older => exact .init older
  | push hphase _ ih => exact .push (hphase.of_le hlater) ih

end PhasesSince

namespace Handoff.Since

variable {h : Handoff} {maxAttempts : ℕ} {sync : SyncPoint} {copyStart' : PgLsn} {s : SlotState}

/-- A table in its initial phase without a worker. -/
theorem of_init (hstore : h.store.current = .init) (hsync : h.sync = .inactive)
    (happly : ∀ kind currentLsn listed, h.apply ≠ .inHook kind currentLsn listed) :
    h.Since consistentPoint copyStart delivered where
  stored := hstore ▸ .init _
  rollback := by simp [hsync, SyncPoint.isRetrying]
  worker := by simp [hsync]
  sync := by simp [hsync, SyncPoint.Since]
  listed := fun kind currentLsn listed heq => absurd heq (happly kind currentLsn listed)

theorem of_le {later : PgLsn} (hs : h.Since consistentPoint copyStart delivered)
    (hlater : consistentPoint ≤ later) : h.Since consistentPoint copyStart later where
  stored := hs.stored.of_le hlater
  rollback := hs.rollback
  worker := fun hactive => (hs.worker hactive).of_le hlater
  sync := hs.sync
  listed := fun kind currentLsn listed heq => (hs.listed kind currentLsn listed heq).of_le hlater

/-- The worker moves on. -/
theorem withSync (hs : h.Since consistentPoint copyStart delivered)
    (hactive : sync ≠ .inactive → h.sync ≠ .inactive) (hrolls : sync.isRetrying = false)
    (hsync : sync.Since consistentPoint copyStart') :
    { h with sync }.Since consistentPoint copyStart' delivered where
  stored := hs.stored
  rollback := by simp [hrolls]
  worker := fun hne => hs.worker (hactive hne)
  sync := hsync
  listed := hs.listed

/-- The apply worker moves on. -/
theorem withApply {apply : ApplyPoint} (hs : h.Since consistentPoint copyStart delivered)
    (happly : ∀ kind currentLsn listed, apply = .inHook kind currentLsn listed →
      listed.Since consistentPoint delivered) :
    { h with apply }.Since consistentPoint copyStart delivered where
  stored := hs.stored
  rollback := hs.rollback
  worker := hs.worker
  sync := hs.sync
  listed := happly

/-- The worker sets a phase and moves on. -/
theorem setAndStore {phase : TableReplicationPhase}
    (hs : h.Since consistentPoint copyStart delivered) (stored : Bool)
    (hphase : phase.Since consistentPoint delivered)
    (hrollback : sync.isRetrying = true → (h.setAndStore phase stored).store.current ≠ .init)
    (hsync : sync.Since consistentPoint copyStart') :
    { h.setAndStore phase stored with sync }.Since consistentPoint copyStart' delivered := by
  obtain ⟨happly, -, hset⟩ := h.setAndStore_frame phase stored
  refine ⟨?_, hrollback, fun _ => hset.symm ▸ hphase, hsync, ?_⟩
  · unfold Handoff.setAndStore
    split_ifs
    · exact hs.stored
    · exact .push hphase hs.stored
    · exact hs.stored
  · intro kind currentLsn listed heq
    exact hs.listed kind currentLsn listed (happly ▸ heq)

theorem finish (hs : h.Since consistentPoint copyStart delivered) :
    h.finish.Since consistentPoint copyStart delivered where
  stored := hs.stored
  rollback := nofun
  worker := fun hactive => absurd rfl hactive
  sync := trivial
  listed := hs.listed

theorem startTableSync (hs : h.Since consistentPoint copyStart delivered)
    (hactive : h.sync ≠ .inactive) :
    h.startTableSync.Since consistentPoint copyStart delivered := by
  unfold Handoff.startTableSync
  split
  · exact hs.finish
  · exact hs.finish
  · exact hs.finish
  all_goals exact hs.withSync (fun _ => hactive) rfl trivial

theorem prepareCopy {walEnd : PgLsn} (hs : h.Since consistentPoint copyStart delivered)
    (hwal : consistentPoint ≤ walEnd) (stored : Bool) :
    (h.prepareCopy stored).Since consistentPoint walEnd delivered := by
  cases stored with
  | true => exact hs.setAndStore true trivial nofun hwal
  | false => exact hs.setAndStore false trivial nofun trivial

theorem finishCopy {snapshotLsn : PgLsn} (hs : h.Since consistentPoint copyStart delivered)
    (hsnapshot : consistentPoint ≤ snapshotLsn) (stored : Bool) :
    (h.finishCopy snapshotLsn stored).Since consistentPoint copyStart snapshotLsn := by
  cases stored with
  | true => exact (hs.of_le hsnapshot).setAndStore true trivial nofun hsnapshot
  | false => exact (hs.of_le hsnapshot).setAndStore false trivial nofun trivial

/-- Catch-up that reaches its target has delivered everything before the position. -/
theorem tryCompleteCatchup {catchupLsn currentLsn : PgLsn}
    (hs : h.Since consistentPoint copyStart delivered)
    (hphase : h.worker.phase = .catchup catchupLsn) (hactive : h.sync ≠ .inactive)
    (hreached : catchupLsn ≤ currentLsn) (stored : Bool) :
    (h.tryCompleteCatchup currentLsn stored).Since consistentPoint copyStart currentLsn := by
  have hcatchup : consistentPoint ≤ catchupLsn := by
    have hworker := hs.worker hactive
    rwa [hphase] at hworker
  have hcurrent : consistentPoint ≤ currentLsn := le_trans hcatchup hreached
  unfold Handoff.tryCompleteCatchup
  rw [hphase]
  dsimp only
  rw [if_pos hreached]
  cases stored with
  | true => exact (hs.of_le hcurrent).setAndStore true hcurrent nofun trivial
  | false => exact (hs.of_le hcurrent).setAndStore false hcurrent nofun trivial

theorem afterCatchup (hs : s.handoff.Since consistentPoint s.copyStart s.delivered)
    (hactive : s.handoff.sync ≠ .inactive) (currentLsn : PgLsn) (stored : Bool) :
    let handoff := s.handoff.tryCompleteCatchup currentLsn stored
    let s' := s.afterHandoff (.tryCompleteCatchup currentLsn stored) handoff
    handoff.Since consistentPoint s'.copyStart s'.delivered := by
  dsimp only [SlotState.afterHandoff]
  split
  next catchupLsn hphase =>
    split_ifs with hreached
    · exact hs.tryCompleteCatchup hphase hactive hreached stored
    · rw [Handoff.tryCompleteCatchup, hphase]
      simp only [if_neg hreached]
      exact hs
  next hphase =>
    rw [Handoff.tryCompleteCatchup.eq_def]
    split
    next catchupLsn heq => exact absurd heq (hphase catchupLsn)
    · exact hs

theorem handleTableSyncWorkerError (hs : h.Since consistentPoint copyStart delivered)
    (unwound : Bool) (directive : RetryDirective) (stored due : Bool) :
    (h.handleTableSyncWorkerError maxAttempts unwound directive stored due).Since consistentPoint
      copyStart delivered := by
  unfold Handoff.handleTableSyncWorkerError
  cases stored with
  | false => exact hs.setAndStore false trivial nofun trivial
  | true =>
    have hset : ∀ sync : SyncPoint, sync.Since consistentPoint copyStart →
        { h.setAndStore .errored true with sync }.Since consistentPoint copyStart delivered :=
      fun _ hsync => hs.setAndStore true trivial (fun _ => nofun) hsync
    rw [if_neg (by simp)]
    split_ifs
    · exact (hset .inactive trivial).finish
    · exact hset (.erroredLocked unwound) trivial
    · exact hset (.sleeping unwound) trivial

/-- A rollback restores a phase from after the position. -/
theorem rollbackState (hs : h.Since consistentPoint copyStart delivered)
    (hrolls : h.sync.isRetrying = true) (unwound restored : Bool) :
    (h.rollback unwound restored).Since consistentPoint copyStart delivered := by
  have hinactive : ∀ retryAttempts, { h with
      worker := { h.worker with retryAttempts }, sync := .inactive }.Since consistentPoint copyStart
        delivered := fun _ =>
    ⟨hs.stored, nofun, fun hactive => absurd rfl hactive, trivial, hs.listed⟩
  have holder := hs.stored.tail (hs.rollback hrolls)
  unfold Handoff.rollback PhaseStore.rollbackTableReplicationState
  cases hhistory : h.store.history with
  | nil =>
    simp only [hhistory]
    exact hinactive _
  | cons previous history =>
    simp only [hhistory]
    cases restored with
    | false => exact hinactive _
    | true =>
      rw [hhistory] at holder
      cases unwound with
      | true => exact ⟨holder, nofun, fun hactive => absurd rfl hactive, trivial, hs.listed⟩
      | false => exact ⟨holder, nofun, fun _ => holder.head, trivial, hs.listed⟩

theorem storeReady (hs : h.Since consistentPoint copyStart delivered)
    (hdelivered : consistentPoint ≤ delivered) (stored : Bool) :
    (h.storeReady stored).Since consistentPoint copyStart delivered := by
  cases stored with
  | true => exact ⟨.push hdelivered hs.stored, nofun, hs.worker, hs.sync, nofun⟩
  | false => exact hs.withApply nofun

theorem spawnIntoPool (hs : h.Since consistentPoint copyStart delivered) (loaded : Bool) :
    (h.spawnIntoPool loaded).Since consistentPoint copyStart delivered := by
  cases loaded with
  | true => exact ⟨hs.stored, nofun, fun _ => hs.stored.head, trivial, nofun⟩
  | false => exact hs.withApply nofun

theorem next {input : HandoffInput} {h' : Handoff}
    (hs : s.handoff.Since consistentPoint s.copyStart s.delivered)
    (hwal : consistentPoint ≤ s.walEnd) (hfits : s.Fits input)
    (hnext : s.handoff.next maxAttempts input = some h') :
    h'.Since consistentPoint (s.afterHandoff input h').copyStart
      (s.afterHandoff input h').delivered := by
  have hsync' := hs.sync
  cases Handoff.step_of_next hnext with
  | startTableSync hsync => exact hs.startTableSync (by simp [hsync])
  | prepareCopy => exact hs.prepareCopy hwal _
  | finishCopy snapshotLsn stored hsync =>
    rw [hsync] at hsync'
    exact hs.finishCopy (le_trans hsync' hfits.1) _
  | announceSyncWait snapshotLsn hsync =>
    rw [hsync] at hsync'
    exact hs.setAndStore true hsync' nofun hsync'
  | observeCatchup snapshotLsn hsync =>
    rw [hsync] at hsync'
    exact hs.withSync (fun _ => by simp [hsync]) rfl hsync'
  | tryCompleteCatchup snapshotLsn currentLsn stored hsync =>
    exact hs.afterCatchup (by simp [hsync]) currentLsn stored
  | finishWorker | shutdownRetry => exact hs.finish
  | failWorker unwound hcanFail =>
    refine hs.withSync (fun _ hinactive => ?_) rfl trivial
    rw [hinactive] at hcanFail
    cases hcanFail
  | handleError => exact hs.handleTableSyncWorkerError _ _ _ _
  | rollback unwound restored hsync =>
    refine hs.rollbackState ?_ unwound restored
    rcases hsync with hsync | hsync <;> rw [hsync] <;> rfl
  | enterHook =>
    unfold Handoff.enterHook
    split_ifs
    · exact hs
    · refine hs.withApply fun _ _ _ heq => ?_
      obtain ⟨-, -, rfl⟩ := ApplyPoint.inHook.inj heq
      exact hs.stored.head
  | setCatchup kind currentLsn snapshotLsn listed succeeds happly hactive hkind hphase =>
    have hworker := hs.worker hactive
    rw [hphase] at hworker
    have hset : { s.handoff.setAndStore (.catchup (max snapshotLsn currentLsn)) true with
        sync := s.handoff.sync }.Since consistentPoint s.copyStart s.delivered :=
      hs.setAndStore true (le_trans hworker (le_max_left _ _)) hs.rollback hs.sync
    exact hset.withApply nofun
  | storeReady kind currentLsn lsn listed succeeds happly _ _ hback =>
    refine hs.storeReady ?_ succeeds
    rcases hback with ⟨hactive, hphase⟩ | ⟨-, rfl⟩
    · have hworker := hs.worker hactive
      rwa [hphase] at hworker
    · exact hs.listed kind currentLsn _ happly
  | spawnIntoPool => exact hs.spawnIntoPool _
  | awaitCatchup | passTable | observeHandback | shutdownWait | leaveHook
  | failApply => exact hs.withApply nofun
  | restartApply | resetTable | crash => exact hfits.elim

end Handoff.Since

/-! ## Runs in which no worker outlives its slot -/

def ApplySlot.isUsable : ApplySlot → Bool
  | .usable _ => true
  | _ => false

/-- Whether the invalidated slot is being replaced. -/
def StartPoint.isRecovering : StartPoint → Bool
  | .invalidated | .tablesReset | .progressDeleted | .slotDeleted => true
  | _ => false

/-- Whether the table is known to be in its initial phase. -/
def StartPoint.isReset : StartPoint → Bool
  | .validated | .undoing | .tablesReset | .progressDeleted | .slotDeleted => true
  | _ => false

namespace SlotState

/-- The condition on a step. A worker that starts without a usable slot finds no table-sync worker
at work, and a new slot is not left behind over a table that is not in its initial phase. -/
def Clean (s : SlotState) : SlotInput → Prop
  | .getOrCreateSlot => s.slot.isUsable = false → s.handoff.sync = .inactive
  | .crash | .deleteSlotIfExists false =>
    s.start.isUnchecked = true → s.handoff.store.current = .init
  | _ => True

instance (s : SlotState) : DecidablePred s.Clean
  | .getOrCreateSlot | .crash | .deleteSlotIfExists false => inferInstanceAs (Decidable (_ → _))
  | .advanceWal _ | .invalidateSlot | .validateTablesInInitState _ | .deleteReplicationProgress _
  | .deleteSlotIfExists true | .resetTables _ | .createSlot _ | .handoff _ =>
    inferInstanceAs (Decidable True)

/-- The invariant of such runs. -/
structure Covered (s : SlotState) : Prop where
  stopped : s.start ≠ .idle → s.handoff.sync = .inactive ∧ s.handoff.apply = .down
  reset : s.start.isReset = true → s.handoff.store.current = .init
  recovering : s.start.isRecovering = true → s.slot.isUsable = false
  slot_le : ∀ consistentPoint, s.slot = .usable consistentPoint → consistentPoint ≤ s.walEnd
  since : ∀ consistentPoint, s.slot = .usable consistentPoint → s.start.isUnchecked = false →
    s.handoff.Since consistentPoint s.copyStart s.delivered

namespace Covered

variable {s : SlotState} {maxAttempts : ℕ} {behavior : InvalidatedSlotBehavior}

/-- There is nothing to cover without a usable slot. -/
theorem of_not_usable (hslot : s.slot.isUsable = false)
    (hstopped : s.start ≠ .idle → s.handoff.sync = .inactive ∧ s.handoff.apply = .down)
    (hreset : s.start.isReset = true → s.handoff.store.current = .init) : s.Covered where
  stopped := hstopped
  reset := hreset
  recovering := fun _ => hslot
  slot_le := fun _ heq => by simp [heq, ApplySlot.isUsable] at hslot
  since := fun _ heq => by simp [heq, ApplySlot.isUsable] at hslot

/-- The apply worker is not looking for its start position. -/
theorem of_idle (hstart : s.start = .idle)
    (hle : ∀ consistentPoint, s.slot = .usable consistentPoint → consistentPoint ≤ s.walEnd)
    (hsince : ∀ consistentPoint, s.slot = .usable consistentPoint →
      s.handoff.Since consistentPoint s.copyStart s.delivered) : s.Covered where
  stopped := fun hne => absurd hstart hne
  reset := by simp [hstart, StartPoint.isReset]
  recovering := by simp [hstart, StartPoint.isRecovering]
  slot_le := hle
  since := fun _ heq _ => hsince _ heq

/-- A table in its initial phase is covered while no worker is at work. -/
theorem since_of_stopped (hs : s.Covered) (hstart : s.start ≠ .idle)
    (hstore : s.handoff.store.current = .init) (consistentPoint : PgLsn) :
    s.handoff.Since consistentPoint s.copyStart s.delivered := by
  obtain ⟨hsync, hdown⟩ := hs.stopped hstart
  exact .of_init hstore hsync fun _ _ _ => by simp [hdown]

/-- The apply worker starts with the slot it has. -/
theorem resume (hs : s.Covered) (hunchecked : s.start.isUnchecked = false) : s.resume.Covered :=
  of_idle rfl hs.slot_le fun _ heq => (hs.since _ heq hunchecked).withApply nofun

/-- The attempt to start ends without a usable slot. -/
theorem abandon (hslot : s.slot.isUsable = false) : { s with start := .idle }.Covered :=
  of_not_usable hslot (fun hne => absurd rfl hne) nofun

theorem getOrCreateSlot (hs : s.Covered) (hidle : s.start = .idle)
    (hdown : s.handoff.apply = .down)
    (hinactive : s.slot.isUsable = false → s.handoff.sync = .inactive) :
    (s.getOrCreateSlot behavior).Covered := by
  unfold SlotState.getOrCreateSlot
  split
  next hslot =>
    have hstopped := And.intro (hinactive (by rw [hslot]; rfl)) hdown
    refine ⟨fun _ => hstopped, nofun, nofun, ?_, nofun⟩
    intro consistentPoint heq
    exact le_of_eq (ApplySlot.usable.inj heq).symm
  · exact hs.resume (by rw [hidle]; rfl)
  next hslot =>
    have hunusable : s.slot.isUsable = false := by rw [hslot]; rfl
    cases behavior with
    | error => exact hs
    | recreate => exact of_not_usable hunusable (fun _ => ⟨hinactive hunusable, hdown⟩) nofun

/-- No worker takes a step while the apply worker looks for its start position. -/
theorem handoff_eq_none (hs : s.Covered) (hstart : s.start ≠ .idle) {input : HandoffInput}
    (hfits : s.Fits input) : s.handoff.next maxAttempts input = none := by
  obtain ⟨hsync, hdown⟩ := hs.stopped hstart
  unfold Handoff.next
  rw [hsync, hdown]
  cases input with
  | restartApply | resetTable | crash => exact hfits.elim
  | _ => rfl

theorem next {input : SlotInput} {s' : SlotState} (hs : s.Covered) (hclean : s.Clean input)
    (hnext : s.next maxAttempts behavior input = some s') : s'.Covered := by
  unfold SlotState.next at hnext
  split at hnext
  -- the WAL grows
  next walEnd =>
    split_ifs at hnext with hle
    cases hnext
    exact { hs with slot_le := fun _ heq => le_trans (hs.slot_le _ heq) hle }
  -- the server invalidates the slot: nothing is claimed of it any more
  · split_ifs at hnext
    cases hnext
    exact of_not_usable rfl hs.stopped hs.reset
  next hstart =>
    split_ifs at hnext with hdown
    cases hnext
    exact hs.getOrCreateSlot hstart hdown hclean
  -- a new slot counts once every table is found in its initial phase
  next othersInInit hstart =>
    have hstopped := hs.stopped (by simp [hstart])
    split_ifs at hnext with hinit
    · cases hnext
      have hcurrent : s.handoff.store.current = .init := by
        cases hphase : s.handoff.store.current with
        | init => rfl
        | _ => simp [hphase, TableReplicationPhase.asType] at hinit
      exact ⟨fun _ => hstopped, fun _ => hcurrent, by rintro ⟨⟩, hs.slot_le,
        fun _ _ _ => hs.since_of_stopped (by simp [hstart]) hcurrent _⟩
    · cases hnext
      exact ⟨fun _ => hstopped, by rintro ⟨⟩, by rintro ⟨⟩, hs.slot_le, by rintro _ _ ⟨⟩⟩
  next succeeds hstart =>
    split_ifs at hnext
    · cases hnext
      exact hs.resume (by rw [hstart]; rfl)
    · cases hnext
      exact ⟨fun _ => hs.stopped (by simp [hstart]), fun _ => hs.reset (by rw [hstart]; rfl),
        by rintro ⟨⟩, hs.slot_le, fun _ heq _ => hs.since _ heq (by rw [hstart]; rfl)⟩
  next succeeds hstart =>
    split_ifs at hnext with hsucceeds
    · cases hnext
      exact of_not_usable rfl (fun hne => absurd rfl hne) (by rintro ⟨⟩)
    -- the new slot stays although the check has failed: the guard leaves the phase initial
    · cases hnext
      obtain rfl : succeeds = false := by simpa using hsucceeds
      have hcurrent := hclean (by rw [hstart]; rfl)
      exact of_idle rfl hs.slot_le fun _ _ => hs.since_of_stopped (by simp [hstart]) hcurrent _
  next succeeds hstart =>
    split_ifs at hnext
    · cases hnext
      exact of_not_usable rfl (fun hne => absurd rfl hne) (by rintro ⟨⟩)
    · cases hnext
      exact of_idle rfl hs.slot_le fun _ heq => hs.since _ heq (by rw [hstart]; rfl)
  -- the recovery resets the tables before it touches the slot
  next stored hstart =>
    have hslot := hs.recovering (by rw [hstart]; rfl)
    split_ifs at hnext
    · cases hnext
      exact of_not_usable hslot (fun _ => hs.stopped (by simp [hstart])) fun _ => rfl
    · cases hnext
      exact abandon hslot
  next succeeds hstart =>
    have hslot := hs.recovering (by rw [hstart]; rfl)
    cases hnext
    cases succeeds with
    | false => exact abandon hslot
    | true =>
      exact of_not_usable hslot (fun _ => hs.stopped (by simp [hstart])) fun _ =>
        hs.reset (by rw [hstart]; rfl)
  next succeeds hstart =>
    split_ifs at hnext
    · cases hnext
      exact of_not_usable rfl (fun _ => hs.stopped (by simp [hstart])) fun _ =>
        hs.reset (by rw [hstart]; rfl)
    · cases hnext
      exact abandon (hs.recovering (by rw [hstart]; rfl))
  next succeeds hstart =>
    split_ifs at hnext
    · cases hnext
      have hcurrent := hs.reset (by rw [hstart]; rfl)
      -- the slot is new, and the table has been reset
      refine of_idle rfl (fun _ heq => le_of_eq (ApplySlot.usable.inj heq).symm) fun _ _ => ?_
      exact (hs.since_of_stopped (by simp [hstart]) hcurrent _).withApply (by simp)
    · cases hnext
      exact abandon (hs.recovering (by rw [hstart]; rfl))
  -- a crash ends both workers and keeps what is stored
  · cases hnext
    refine of_idle rfl hs.slot_le fun consistentPoint heq => ?_
    have hsince : s.handoff.Since consistentPoint s.copyStart s.delivered := by
      cases hunchecked : s.start.isUnchecked with
      | false => exact hs.since _ heq hunchecked
      | true =>
        have hstart : s.start ≠ .idle := by
          intro hidle
          rw [hidle] at hunchecked
          cases hunchecked
        exact hs.since_of_stopped hstart (hclean hunchecked) _
    exact (hsince.withSync (fun hne => absurd rfl hne) rfl trivial).withApply (by simp)
  next input =>
    split_ifs at hnext with hfits
    -- before the apply worker runs, only the table-sync worker takes steps
    by_cases hstart : s.start = .idle
    · obtain ⟨h', hhandoff, rfl⟩ := Option.map_eq_some_iff.mp hnext
      obtain ⟨hh, hwal, hslot, hidle⟩ := s.afterHandoff_frame input h'
      refine of_idle (hidle.trans hstart) (fun _ heq => ?_) fun _ heq => ?_
      · rw [hwal]
        exact hs.slot_le _ (hslot.symm.trans heq)
      · have hpoint := hslot.symm.trans heq
        rw [hh]
        exact (hs.since _ hpoint (by rw [hstart]; rfl)).next (hs.slot_le _ hpoint) hfits hhandoff
    · rw [hs.handoff_eq_none hstart hfits] at hnext
      cases hnext
  · cases hnext

end Covered

end SlotState

/-- In a run in which no table-sync worker outlives the slot and no new slot is left behind
unchecked, a table that is recorded as synchronized has every change from before the consistent
point of the slot. -/
theorem delivered_through_consistentPoint {maxAttempts : ℕ} {behavior : InvalidatedSlotBehavior}
    {s : SlotState} (hreach : (slotMachine maxAttempts behavior).ReachableUnder SlotState.Clean s)
    {consistentPoint : PgLsn} (hslot : s.slot = .usable consistentPoint)
    (hchecked : s.start.isUnchecked = false)
    (hback : s.handoff.store.current.isHandedBack = true) : consistentPoint ≤ s.delivered := by
  have hcovered : s.Covered := by
    refine hreach.invariant (fun s hinit => ?_) fun s input s' hs hclean hnext =>
      hs.next hclean hnext
    obtain ⟨-, hmissing, hidle⟩ := hinit
    refine .of_not_usable (by rw [hmissing]; rfl) (fun hne => absurd hidle hne) ?_
    simp [hidle, StartPoint.isReset]
  have hcurrent := (hcovered.since consistentPoint hslot hchecked).stored.head
  cases hphase : s.handoff.store.current with
  | syncDone lsn | ready => rwa [hphase] at hcurrent
  | _ => simp [hphase, TableReplicationPhase.isHandedBack] at hback

/-! ## Runs -/

/-- The process starts without a slot, with a table in the given phase. -/
def SlotState.started (phase : TableReplicationPhase) (walEnd delivered : PgLsn) : SlotState :=
  ⟨⟨⟨phase, [], [phase]⟩, ⟨phase, 0, .stored 0⟩, .inactive, .down⟩, walEnd, .missing, .idle, 0,
    delivered⟩

theorem SlotState.init_started (hphase : phase.asType.shouldStore = true) (walEnd delivered : PgLsn)
    (maxAttempts : ℕ) (behavior : InvalidatedSlotBehavior) :
    (slotMachine maxAttempts behavior).init (.started phase walEnd delivered) := by
  refine ⟨⟨phase, [], [], ?_, rfl⟩, rfl, rfl⟩
  intro p hp
  rw [List.mem_singleton.mp hp]
  exact hphase

/-- What is observed of a run: the stored phase, the slot, whether the apply worker runs, and how
much of the table is delivered. -/
def SlotState.observe (s : SlotState) : TableReplicationPhase × ApplySlot × StartPoint × PgLsn :=
  (s.handoff.store.current, s.slot, s.start, s.delivered)

/-- The slot is created at 10, the table is copied there and caught up to 20. -/
def createdAndCaughtUp : List SlotInput :=
  [.getOrCreateSlot, .validateTablesInInitState true, .deleteReplicationProgress true,
    .handoff (.enterHook .whenIdle 10), .handoff (.processTable true), .handoff .startTableSync,
    .handoff (.prepareCopy true), .handoff (.finishCopy 10 true), .handoff .announceSyncWait,
    .advanceWal 20, .handoff (.enterHook .whenIdle 20), .handoff (.processTable true),
    .handoff .observeCatchup, .handoff (.tryCompleteCatchup 20 true), .handoff .observeHandback]

/-- The slot is invalidated and replaced at 30. -/
def invalidatedAndRecreated : List SlotInput :=
  [.handoff .failApply, .invalidateSlot, .advanceWal 30, .getOrCreateSlot, .resetTables true,
    .deleteReplicationProgress true, .deleteSlotIfExists true, .createSlot true]

/-- The worker has ended before the slot is replaced, and the table is copied again. -/
def copiedAgain : List SlotInput :=
  createdAndCaughtUp ++ [.handoff .finishWorker] ++ invalidatedAndRecreated ++
    [.handoff (.enterHook .whenIdle 30), .handoff (.processTable true), .handoff .startTableSync,
      .handoff (.prepareCopy true), .handoff (.finishCopy 30 true), .handoff .announceSyncWait,
      .handoff (.enterHook .whenIdle 30), .handoff (.processTable true), .handoff .observeCatchup,
      .handoff (.tryCompleteCatchup 30 true)]

theorem delivered_through_copiedAgain :
    ∃ s, ((slotMachine 3 .recreate).restrict SlotState.Clean).run (.started .init 10 0)
        copiedAgain = some s ∧
      s.observe = (.syncDone 30, .usable 30, .idle, 30) ∧ 30 ≤ s.delivered := by
  have hrun : (((slotMachine 3 .recreate).restrict SlotState.Clean).run (.started .init 10 0)
      copiedAgain).map SlotState.observe = some (.syncDone 30, .usable 30, .idle, 30) := rfl
  obtain ⟨s, hs, hobserve⟩ := Option.map_eq_some_iff.mp hrun
  obtain ⟨hstore, hslot, hstart, -⟩ : s.handoff.store.current = .syncDone 30 ∧
      s.slot = .usable 30 ∧ s.start = .idle ∧ s.delivered = 30 := by
    simpa [SlotState.observe] using hobserve
  have hinit : (slotMachine 3 .recreate).ReachableUnder SlotState.Clean (.started .init 10 0) :=
    .init (SlotState.init_started rfl 10 0 3 .recreate)
  exact ⟨s, hs, hobserve, delivered_through_consistentPoint (hinit.run copiedAgain hs) hslot
    (by rw [hstart]; rfl) (by rw [hstore]; rfl)⟩

/-- The worker of the table has handed it back and is still ending when the slot is replaced. The
apply worker reads its phase in memory and stores `Ready`. -/
def outlivedSlot : List SlotInput :=
  createdAndCaughtUp ++ invalidatedAndRecreated ++
    [.handoff (.enterHook .whenIdle 30), .handoff (.processTable true)]

/-- The slot of a table in `Ready` is lost. The process crashes between the creation of a new one
and the check of the tables, and finds the new slot when it starts again. -/
def uncheckedSlot : List SlotInput := [.getOrCreateSlot, .crash, .getOrCreateSlot]

/-- The same when the tables are checked and the new slot cannot be deleted again. -/
def undeletedSlot : List SlotInput :=
  [.getOrCreateSlot, .validateTablesInInitState true, .deleteSlotIfExists false, .getOrCreateSlot]

/-- In each of these runs the table is recorded as synchronized and the slot starts at 30, but the
table has only the changes before 20. -/
theorem slotRecovery_loses_changes :
    (∃ s, (slotMachine 3 .recreate).Reachable s ∧
      s.observe = (.ready, .usable 30, .idle, 20)) ∧
    ∀ inputs ∈ [uncheckedSlot, undeletedSlot],
      ∃ s, (slotMachine 3 .error).Reachable s ∧
        (slotMachine 3 .error).run (.started .ready 30 20) inputs = some s ∧
        s.observe = (.ready, .usable 30, .idle, 20) := by
  have hready : (slotMachine 3 .error).Reachable (.started .ready 30 20) :=
    .init (SlotState.init_started rfl 30 20 3 .error)
  refine ⟨?_, ?_⟩
  · have hinit : (slotMachine 3 .recreate).Reachable (.started .init 10 0) :=
      .init (SlotState.init_started rfl 10 0 3 .recreate)
    exact ⟨_, hinit.run outlivedSlot rfl, rfl⟩
  · intro inputs hinputs
    simp only [List.mem_cons, List.not_mem_nil, or_false] at hinputs
    obtain rfl | rfl := hinputs
    · exact ⟨_, hready.run uncheckedSlot rfl, rfl, rfl⟩
    · exact ⟨_, hready.run undeletedSlot rfl, rfl, rfl⟩

end Etl
