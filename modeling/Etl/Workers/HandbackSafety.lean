import Etl.Workers.Handback
import Etl.Workers.LoopHooks

/-! # No change is lost by the handoff

Once a table is recorded as handed back, every change that committed after the snapshot of
its copy and that the apply worker's progress has passed is at the destination: the
table-sync worker has written what commits before the handback position, the apply worker
what commits after it. The invariant follows both workers through the handoff. While the
table catches up, the apply worker is held, and everything its connection has gone past
commits before the catch-up target.

This needs that no error is recorded over a stored `SyncDone` or `Ready`. Otherwise the apply
worker skips changes until the error is rolled back, and nobody writes them.

Reference: `etl/src/workers/table_sync.rs` and `etl/src/workers/apply.rs`.
-/

namespace Etl

open List TableReplicationPhase Pipeline Handoff Session

variable {ρ : Type}

/-- Whether the step records an error of the table-sync worker. -/
def PipelineInput.recordsError : PipelineInput ρ → Bool
  | .worker input => input.recordsError
  | _ => false

namespace Pipeline

/-- No error is recorded while the store has the table handed back. -/
def KeepsHandback (p : Pipeline ρ) (input : PipelineInput ρ) : Prop :=
  input.recordsError = true → p.handoff.store.current.isHandedBack = false

instance (p : Pipeline ρ) (input : PipelineInput ρ) : Decidable (p.KeepsHandback input) :=
  inferInstanceAs (Decidable (_ → _))

/-! ## The invariant -/

/-- The apply worker takes no message: it waits or is down, an exit is requested, or its loop
has not yet run its first hook. -/
def Held (p : Pipeline ρ) : Prop :=
  p.handoff.apply = .waiting ∨ p.handoff.apply = .down ∨
    p.apply.state.exitIntent.isSome = true ∨ p.hook = .interrupted ∨
    p.apply.point = .preflight ∧ (∃ lsn, p.apply.dueHook = some (.whenIdle, lsn)) ∧
      (p.hook = .outside ∨ ∃ kind lsn listed, p.handoff.apply = .inHook kind lsn listed)

/-- While the table catches up, the apply worker is held below the target. -/
structure Quiet (p : Pipeline ρ) (catchupLsn : PgLsn) : Prop where
  held : p.Held
  closed : p.apply.sender.openCommit = none
  behind : ∀ tx ∈ p.wal.txs.take p.applyCursor.next, tx.commitLsn < catchupLsn

/-- The apply worker has to write changes that commit at the position. -/
def Owed (p : Pipeline ρ) (commitLsn : PgLsn) : Prop :=
  p.handoff.HandedBack ∧ p.handbackLsn ≤ commitLsn

/-- The table-sync worker has written what commits from the snapshot up to the handback. -/
def CaughtUp (p : Pipeline ρ) (tableId : TableId) : Prop :=
  ∃ snapshotLsn, p.snapshot = some snapshotLsn ∧ ∀ tx ∈ p.wal.txs, snapshotLsn ≤ tx.commitLsn →
    tx.commitLsn < p.handbackLsn → ∀ record ∈ tx.records,
      record.change.concerns tableId = true → Writes tableId p.sync.acked tx.commitLsn record

/-- The invariant of both workers. -/
structure Safe (p : Pipeline ρ) (tableId : TableId) : Prop where
  recorded : p.handoff.Recorded p.handbackLsn
  applied : p.apply.Covers tableId p.wal p.applyCursor p.applied p.Owed
  slot_le : ∃ lsn ∈ p.apply.positions, p.slotLsn ≤ lsn
  hooked : ∀ kind lsn listed, p.handoff.apply = .inHook kind lsn listed →
    p.hook = .inside ∧ p.apply.dueHook = some (kind, lsn)
  quiet : ∀ lsn, p.handoff.sync ≠ .inactive → p.handoff.worker.phase = .catchup lsn → p.Quiet lsn
  snapshot_eq : ∀ lsn, p.handoff.sync.snapshot? = some lsn → p.snapshot = some lsn
  snapshot_le : ∀ lsn, p.snapshot = some lsn → lsn ≤ p.wal.tip
  catching : ∀ lsn, p.handoff.sync = .catchingUp lsn →
    p.sync.Covers tableId p.wal p.syncCursor [] (lsn ≤ ·)
  handback_le : p.handoff.HandedBack → p.handbackLsn ≤ p.wal.tip
  caughtUp : p.handoff.HandedBack → p.CaughtUp tableId

variable {p : Pipeline ρ} {tableId : TableId} {maxAttempts : ℕ} {wal : Wal ρ} {lsn : PgLsn}
  {handoff : Handoff} {p' : Pipeline ρ} {ans : MessageAnswers} {input : LoopInput ρ}
  {error : EtlError} {apply : Session ρ}

/-- Every change that committed after the snapshot is written if it committed before the
handback or if the progress of the apply worker has passed it. -/
theorem Safe.writes (h : p.Safe tableId) (hback : p.handoff.HandedBack) :
    ∃ snapshotLsn, p.snapshot = some snapshotLsn ∧ ∀ tx ∈ p.wal.txs,
      snapshotLsn ≤ tx.commitLsn →
      (tx.commitLsn < p.handbackLsn ∨
        ∃ durable, p.apply.durableProgress = some durable ∧ tx.commitLsn < durable) →
      ∀ record ∈ tx.records, record.change.concerns tableId = true →
        Writes tableId (p.applied ++ p.apply.acked ++ p.sync.acked) tx.commitLsn record := by
  obtain ⟨snapshotLsn, hsnapshot, hwrites⟩ := h.caughtUp hback
  refine ⟨snapshotLsn, hsnapshot, ?_⟩
  intro tx htx hafter hpassed record hrecord hconcerns
  by_cases hbefore : tx.commitLsn < p.handbackLsn
  · exact (hwrites tx htx hafter hbefore record hrecord hconcerns).mono
      (subset_append_right _ _)
  · obtain ⟨durable, hdurable, hpassed⟩ := hpassed.resolve_left hbefore
    have hle := h.applied.inv.stopped.durable_le durable hdurable
    have hposition : p.apply.state.replicationProgress.lastFlushLsn ∈ p.apply.positions :=
      mem_cons_self
    exact (h.applied.writes_of_position hposition htx ⟨hback, not_lt.mp hbefore⟩
      (lt_of_lt_of_le hpassed hle) hrecord hconcerns).mono (subset_append_left _ _)

/-! ## The log and the slot -/

theorem Safe.extend (h : p.Safe tableId) (hextends : p.wal.Extends wal) :
    { p with wal }.Safe tableId := by
  refine ⟨h.recorded, h.applied.extend hextends, h.slot_le, h.hooked, ?_, h.snapshot_eq, ?_, ?_,
    ?_, ?_⟩
  · intro lsn hactive hphase
    obtain ⟨hheld, hclosed, hbehind⟩ := h.quiet lsn hactive hphase
    refine ⟨hheld, hclosed, ?_⟩
    rw [hextends.take_eq h.applied.aligned.next_le]
    exact hbehind
  · exact fun lsn hlsn => le_trans (h.snapshot_le lsn hlsn) hextends.tip_le
  · exact fun lsn hlsn => (h.catching lsn hlsn).extend hextends
  · exact fun hback => le_trans (h.handback_le hback) hextends.tip_le
  · intro hback
    obtain ⟨snapshotLsn, hsnapshot, hwrites⟩ := h.caughtUp hback
    refine ⟨snapshotLsn, hsnapshot, ?_⟩
    intro tx htx hafter hbefore
    have hold := hextends.mem_of_lt htx (lt_of_lt_of_le hbefore (h.handback_le hback))
    exact hwrites tx hold hafter hbefore

theorem Safe.confirmFlush (h : p.Safe tableId) (hlsn : lsn ∈ p.apply.reports.map (·.flushLsn)) :
    { p with slotLsn := max p.slotLsn lsn }.Safe tableId := by
  refine { h with slot_le := ?_, quiet := fun lsn hactive hphase => ?_ }
  · obtain ⟨position, hposition, hle⟩ := h.slot_le
    rcases max_choice p.slotLsn lsn with heq | heq
    · exact ⟨position, hposition, le_of_eq_of_le heq hle⟩
    · exact ⟨lsn, mem_cons_of_mem _ hlsn, le_of_eq heq⟩
  · obtain ⟨hheld, hclosed, hbehind⟩ := h.quiet lsn hactive hphase
    exact ⟨hheld, hclosed, hbehind⟩

/-! ## Steps of the handoff -/

/-- Steps that neither set nor follow a handback. -/
theorem Safe.localStep (h : p.Safe tableId) (hstep : p.handoff.LocalStep handoff p.handbackLsn) :
    { p with handoff }.Safe tableId := by
  refine ⟨hstep.recorded, ?_, h.slot_le, ?_, ?_, ?_, h.snapshot_le, ?_, ?_, ?_⟩
  · have howed : ∀ commitLsn, { p with handoff }.Owed commitLsn → p.Owed commitLsn :=
      fun _ hmust => ⟨hstep.handedBack hmust.1, hmust.2⟩
    exact h.applied.change (fun tx _ => howed tx.commitLsn) (.inr howed)
  · exact fun kind lsn listed happly => h.hooked kind lsn listed (hstep.inHook _ _ _ happly)
  · intro lsn hactive hphase
    rcases hstep.catchup lsn hactive hphase with
      ⟨hactive', hphase', happly⟩ | ⟨hwaiting, kind, currentLsn, listed, happly, hkind, hle⟩
    · obtain ⟨hheld, hclosed, hbehind⟩ := h.quiet lsn hactive' hphase'
      refine ⟨?_, hclosed, hbehind⟩
      rcases happly with hsame | hwaiting | ⟨currentLsn, listed, happly⟩
      · unfold Held
        rw [hsame]
        exact hheld
      · exact .inl hwaiting
      · -- a hook after a flush goes on in a loop that is held by a requested exit
        obtain ⟨hinside, hdue⟩ := h.hooked _ _ _ happly
        rcases hheld with hheld | hheld | hexit | hheld | ⟨-, ⟨lsn', hidle⟩, -⟩
        · simp [happly] at hheld
        · simp [happly] at hheld
        · exact .inr (.inr (.inl hexit))
        · simp [hinside] at hheld
        · simp [hdue] at hidle
    · obtain ⟨-, hdue⟩ := h.hooked _ _ _ happly
      obtain ⟨hclosed, hbehind⟩ := h.applied.toFollows.lt_of_dueHook hdue hkind
      exact ⟨.inl hwaiting, hclosed, fun tx htx => lt_of_lt_of_le (hbehind tx htx) hle⟩
  · exact fun lsn hlsn => h.snapshot_eq lsn (hstep.snapshot lsn hlsn)
  · exact fun lsn hlsn => h.catching lsn (hstep.catchingUp lsn hlsn)
  · exact fun hback => h.handback_le (hstep.handedBack hback)
  · exact fun hback => h.caughtUp (hstep.handedBack hback)

/-- Steps of a copy: the table is neither handed back nor to catch up. -/
theorem Safe.copyStep (h : p.Safe tableId) {snapshot : Option PgLsn}
    (hrecorded : handoff.Recorded p.handbackLsn) (hback : ¬handoff.HandedBack)
    (hphase : ∀ lsn, handoff.worker.phase ≠ .catchup lsn) (happly : handoff.apply = p.handoff.apply)
    (hcatching : ∀ lsn, handoff.sync ≠ .catchingUp lsn)
    (hsnapshot : ∀ lsn, handoff.sync.snapshot? = some lsn → snapshot = some lsn)
    (hle : ∀ lsn, snapshot = some lsn → lsn ≤ p.wal.tip) :
    { p with handoff, snapshot }.Safe tableId := by
  refine ⟨hrecorded, ?_, h.slot_le, ?_, ?_, hsnapshot, hle, ?_, ?_, ?_⟩
  · have howed : ∀ commitLsn, { p with handoff, snapshot }.Owed commitLsn → p.Owed commitLsn :=
      fun _ hmust => absurd hmust.1 hback
    exact h.applied.change (fun tx _ => howed tx.commitLsn) (.inr howed)
  · exact fun kind lsn listed heq => h.hooked kind lsn listed (happly ▸ heq)
  · exact fun lsn _ hlsn => absurd hlsn (hphase lsn)
  · exact fun lsn hlsn => absurd hlsn (hcatching lsn)
  all_goals exact fun hback' => absurd hback' hback

theorem Safe.prepareCopy (h : p.Safe tableId) (hsync : p.handoff.sync = .preparing)
    (stored : Bool) :
    { p with handoff := p.handoff.prepareCopy stored, snapshot := none }.Safe tableId := by
  have hagrees := h.recorded.agrees
  rw [hsync] at hagrees
  have hphase : p.handoff.worker.phase.isHandedBack = false ∧
      p.handoff.worker.phase ≠ .errored := by
    rcases hagrees with hphase | hphase | hphase <;>
      simp [hphase, isHandedBack]
  obtain ⟨happly, -, hset⟩ := p.handoff.setAndStore_frame .dataSync stored
  obtain ⟨hrecorded, hback⟩ := h.recorded.setEarly .dataSync stored
    (if stored then .copying else .failing false) _ (by simp [hsync]) hphase.1 hphase.2 rfl
    (by simp) (by cases stored <;> trivial) (fun _ _ _ heq => happly ▸ heq)
  have hpoint : ∀ lsn, (p.handoff.prepareCopy stored).sync.snapshot? ≠ some lsn := by
    intro lsn
    cases stored <;> simp [Handoff.prepareCopy, SyncPoint.snapshot?]
  refine h.copyStep hrecorded hback ?_ happly ?_ ?_ (by simp)
  · simp [Handoff.prepareCopy, hset]
  · intro lsn hlsn
    exact hpoint lsn (by rw [hlsn]; rfl)
  · exact fun lsn hlsn => absurd hlsn (hpoint lsn)

theorem Safe.createSlot (h : p.Safe tableId) (hstep : p.createSlot lsn = some p') :
    p'.Safe tableId := by
  unfold Pipeline.createSlot at hstep
  split_ifs at hstep with hslot
  cases hstep
  obtain ⟨hsync, hnone, hle, -⟩ := hslot
  -- a table that is handed back has a snapshot already
  have hback : ¬p.handoff.HandedBack := by
    intro hback
    obtain ⟨snapshotLsn, hsnapshot, -⟩ := h.caughtUp hback
    simp [hnone] at hsnapshot
  have hagrees := h.recorded.agrees
  rw [hsync] at hagrees
  have hphase : p.handoff.worker.phase = .dataSync := hagrees
  refine h.copyStep h.recorded hback ?_ rfl ?_ ?_ ?_
  · simp [hphase]
  · simp [hsync]
  · simp [hsync, SyncPoint.snapshot?]
  · intro lsn' hlsn'
    exact Option.some.inj hlsn' ▸ hle

theorem Safe.finishCopy (h : p.Safe tableId) {stored : Bool} (hstep : p.finishCopy stored = some p') :
    p'.Safe tableId := by
  unfold Pipeline.finishCopy at hstep
  split at hstep
  next lsn hsync hsnapshot =>
    cases hstep
    have hagrees := h.recorded.agrees
    rw [hsync] at hagrees
    have hphase : p.handoff.worker.phase = .dataSync := hagrees
    obtain ⟨happly, -, hset⟩ := p.handoff.setAndStore_frame .finishedCopy stored
    obtain ⟨hrecorded, hback⟩ := h.recorded.setEarly .finishedCopy stored
      (if stored then .copied lsn else .failing false) _ (by simp [hsync])
      (by rw [hphase]; rfl) (by simp [hphase]) rfl (by simp) (by cases stored <;> trivial)
      (fun _ _ _ heq => happly ▸ heq)
    refine h.copyStep hrecorded hback ?_ happly ?_ ?_ h.snapshot_le
    · simp [Handoff.finishCopy, hset]
    · cases stored <;> simp [Handoff.finishCopy]
    · intro lsn' hlsn'
      cases stored with
      | true => exact hsnapshot.trans hlsn'
      | false => simp [Handoff.finishCopy, SyncPoint.snapshot?] at hlsn'
  · simp at hstep

/-! ## The loop of the table-sync worker -/

theorem Safe.startCatchup (h : p.Safe tableId) (hstep : p.startCatchup = some p') :
    p'.Safe tableId := by
  unfold Pipeline.startCatchup at hstep
  split at hstep
  next snapshotLsn hsync =>
    split_ifs at hstep with htype
    cases hstep
    have hagrees := h.recorded.agrees
    rw [hsync] at hagrees
    rcases hagrees with hphase | ⟨lsn, hle, hphase⟩
    · simp [hphase, asType] at htype
    have hactive : p.handoff.sync ≠ .inactive := by simp [hsync]
    have hearly := h.recorded.store_early hactive (by rw [hphase]; rfl)
    have hback : ¬p.handoff.HandedBack := by
      rintro (hback | ⟨-, hback⟩)
      · simp [hearly] at hback
      · simp [hphase, isHandedBack] at hback
    have hback' : ¬{ p.handoff with sync := .catchingUp snapshotLsn }.HandedBack :=
      fun hback' => hback (hback'.congr rfl rfl (fun _ => hactive))
    have hc : { p.handoff with sync := .catchingUp snapshotLsn }.Consistent :=
      h.recorded.toConsistent.congr rfl rfl rfl ⟨lsn, hle, hphase⟩
    refine ⟨h.recorded.congr hc rfl rfl (fun _ => hactive) (fun _ _ _ heq => heq), ?_, h.slot_le,
      h.hooked, ?_, ?_, h.snapshot_le, ?_, fun hback => absurd hback hback',
      fun hback => absurd hback hback'⟩
    · exact h.applied.change (fun _ _ hmust => absurd hmust.1 hback')
        (.inr fun _ hmust => absurd hmust.1 hback')
    · intro lsn _ hphase
      obtain ⟨hheld, hclosed, hbehind⟩ := h.quiet lsn hactive hphase
      exact ⟨hheld, hclosed, hbehind⟩
    · intro lsn' hlsn'
      exact h.snapshot_eq lsn' (by rw [hsync]; exact hlsn')
    · intro lsn' hlsn'
      obtain rfl := SyncPoint.catchingUp.inj hlsn'
      have hsnapshot := h.snapshot_eq snapshotLsn (by rw [hsync]; rfl)
      refine covers_start (by simp) (h.snapshot_le snapshotLsn hsnapshot) ?_
      exact fun tx _ hbefore hafter => absurd hafter (not_le.mpr hbefore)
  · simp at hstep

/-- The worker's loop goes on. -/
theorem Safe.syncLoop (h : p.Safe tableId) {sync : Session ρ} {syncCursor : Cursor ρ}
    (hacked : p.sync.acked <+: sync.acked)
    (hcatching : ∀ lsn, p.handoff.sync = .catchingUp lsn →
      sync.Covers tableId p.wal syncCursor [] (lsn ≤ ·)) :
    { p with sync, syncCursor }.Safe tableId := by
  refine { h with quiet := fun lsn hactive hphase => ?_, catching := hcatching, caughtUp := ?_ }
  · obtain ⟨hheld, hclosed, hbehind⟩ := h.quiet lsn hactive hphase
    exact ⟨hheld, hclosed, hbehind⟩
  · intro hback
    obtain ⟨snapshotLsn, hsnapshot, hwrites⟩ := h.caughtUp hback
    refine ⟨snapshotLsn, hsnapshot, ?_⟩
    intro tx htx hafter hbefore record hrecord hconcerns
    exact (hwrites tx htx hafter hbefore record hrecord hconcerns).mono hacked.subset

/-- The table is handed back at a position up to which the worker has written everything, and
that the apply worker has not gone past. -/
theorem Safe.handback (h : p.Safe tableId) {kind : HookKind} {snapshotLsn catchupLsn lsn : PgLsn}
    (hsync : p.handoff.sync = .catchingUp snapshotLsn)
    (hdue : p.sync.dueHook = some (kind, lsn)) (hkind : kind ≠ .afterCommit)
    (hphase : p.handoff.worker.phase = .catchup catchupLsn) (hreached : catchupLsn ≤ lsn)
    (stored : Bool) :
    { p with handoff := p.handoff.tryCompleteCatchup lsn stored, handbackLsn := lsn }.Safe
      tableId := by
  have hactive : p.handoff.sync ≠ .inactive := by simp [hsync]
  obtain ⟨-, hclosed, hbehind⟩ := h.quiet catchupLsn hactive hphase
  have hcovers := h.catching snapshotLsn hsync
  have hsnapshot := h.snapshot_eq snapshotLsn (by rw [hsync]; rfl)
  obtain ⟨hacked, hceiling, hopen⟩ := hcovers.inv.acked_dueHook hdue hkind
  have happly := (p.handoff.tryCompleteCatchup_frame lsn stored).1
  have hphase' : (p.handoff.tryCompleteCatchup lsn stored).worker.phase = .syncDone lsn ∧
      (p.handoff.tryCompleteCatchup lsn stored).sync.snapshot? = none := by
    unfold tryCompleteCatchup
    simp only [hphase, if_pos hreached]
    refine ⟨(p.handoff.setAndStore_frame _ _).2.2, ?_⟩
    cases stored <;> rfl
  refine ⟨h.recorded.tryCompleteCatchup hactive hphase hreached stored, ?_, h.slot_le, ?_, ?_, ?_,
    h.snapshot_le, ?_, fun _ => ?_, fun _ => ?_⟩
  · refine h.applied.change ?_ (.inl hclosed)
    intro tx htx hmust
    exact absurd (le_trans hreached hmust.2) (not_le.mpr (hbehind tx htx))
  · exact fun kind lsn listed heq => h.hooked kind lsn listed (happly ▸ heq)
  · intro lsn' _ hlsn'
    simp [hphase'.1] at hlsn'
  · intro lsn' hlsn'
    simp [hphase'.2] at hlsn'
  · exact fun lsn' hlsn' => absurd hlsn' (SyncPoint.ne_catchingUp hphase'.2 lsn')
  · exact le_trans hceiling hcovers.aligned.ceiling_le_tip
  · refine ⟨snapshotLsn, hsnapshot, ?_⟩
    intro tx htx hafter hbefore record hrecord hconcerns
    exact hcovers.writes_of_acked hacked hceiling hopen htx hafter hbefore hrecord hconcerns

theorem catchup_of_answer (hanswer : (handoff.catchupAnswer lsn).isSome = true) :
    ∃ catchupLsn, handoff.worker.phase = .catchup catchupLsn ∧ catchupLsn ≤ lsn := by
  unfold catchupAnswer at hanswer
  split at hanswer
  next catchupLsn hphase =>
    split_ifs at hanswer with hreached
    · exact ⟨catchupLsn, hphase, hreached⟩
    · simp at hanswer
  · simp at hanswer

theorem tryHandback_cases (p : Pipeline ρ) (stored : Bool) :
    p.tryHandback stored = p ∨ ∃ kind catchupLsn lsn, p.sync.dueHook = some (kind, lsn) ∧
      kind ≠ .afterCommit ∧ p.handoff.worker.phase = .catchup catchupLsn ∧ catchupLsn ≤ lsn ∧
      p.tryHandback stored
        = { p with handoff := p.handoff.tryCompleteCatchup lsn stored, handbackLsn := lsn } := by
  unfold tryHandback
  split
  case h_1 lsn hdue | h_2 lsn hdue =>
    split_ifs with hanswer
    · obtain ⟨catchupLsn, hphase, hreached⟩ := catchup_of_answer hanswer
      exact .inr ⟨_, catchupLsn, lsn, hdue, by simp, hphase, hreached, rfl⟩
    · exact .inl rfl
  · exact .inl rfl

theorem tryHandback_active (p : Pipeline ρ) (stored : Bool) (h : p.handoff.sync ≠ .inactive) :
    (p.tryHandback stored).handoff.sync ≠ .inactive := by
  rcases p.tryHandback_cases stored with hsame | ⟨_, _, lsn, _, _, hphase, hreached, heq⟩
  · rw [hsame]
    exact h
  · rw [heq]
    simp only [tryCompleteCatchup, hphase, if_pos hreached]
    cases stored <;> simp

theorem owns_of_agrees {message : ReplicationMessage ρ} (h : ans.agrees tableId true message = true) :
    ans.Owns tableId := by
  simp only [MessageAnswers.agrees, Bool.and_eq_true, all_cons] at h
  refine ⟨?_, ?_⟩
  · intro owned howned
    simpa [howned] using h.1
  · intro schema hschema
    simpa [hschema] using h.2.1

theorem Safe.syncStep [DecidableEq ρ] (h : p.Safe tableId)
    (hstep : p.syncStep tableId input = some p') : p'.Safe tableId := by
  unfold Pipeline.syncStep at hstep
  split_ifs at hstep with hlooping
  obtain ⟨hlooping, hpermits⟩ := hlooping
  split at hstep
  next syncCursor sync hfollow hnext =>
    cases hstep
    have hacked : p.sync.acked <+: sync.acked := acked_of_next hnext
    -- the hook runs before the loop goes on
    have hloop : { p.tryHandback true with sync, syncCursor }.Safe tableId := by
      rcases p.tryHandback_cases true with
        hsame | ⟨kind, catchupLsn, lsn, hdue, hkind, hphase, hreached, heq⟩
      · rw [hsame]
        refine h.syncLoop hacked ?_
        intro lsn hlsn
        refine (h.catching lsn hlsn).next hnext hfollow ?_
        intro ans hans _ _ _
        cases input with
        | message message ans' _ _ _ _ =>
          cases hans
          exact owns_of_agrees hpermits
        | _ => simp [LoopInput.answers?] at hans
      · obtain ⟨snapshotLsn, hsync⟩ : ∃ snapshotLsn, p.handoff.sync = .catchingUp snapshotLsn := by
          have hagrees := h.recorded.agrees
          cases hsync : p.handoff.sync with
          | catchingUp snapshotLsn => exact ⟨snapshotLsn, rfl⟩
          | completing => simp [hsync, hphase, SyncPoint.Agrees] at hagrees
          | _ => simp [hsync, SyncPoint.isLooping] at hlooping
        rw [heq]
        refine (h.handback hsync hdue hkind hphase hreached true).syncLoop hacked ?_
        intro lsn' hlsn'
        simp [tryCompleteCatchup, hphase, hreached] at hlsn'
    split_ifs
    · have hactive := p.tryHandback_active true (by rintro hinactive; simp [hinactive,
        SyncPoint.isLooping] at hlooping)
      refine hloop.localStep (hloop.recorded.localStep_frame ?_ rfl rfl (fun _ => hactive)
        (.inl rfl) (.inr rfl))
      exact hloop.recorded.toConsistent.congr rfl rfl rfl trivial
    · exact hloop
  · simp at hstep

/-- A worker that cannot store the handback has reached its target. -/
theorem failHandback_eq_some (hstep : p.failHandback error = some p') :
    ∃ snapshotLsn catchupLsn kind lsn sync, p.handoff.sync = .catchingUp snapshotLsn ∧
      p.handoff.worker.phase = .catchup catchupLsn ∧ p.sync.dueHook = some (kind, lsn) ∧
      kind ≠ .afterCommit ∧ catchupLsn ≤ lsn ∧ p.sync.next (.fail error) = some sync ∧
      p' = { p with
        handoff := p.handoff.tryCompleteCatchup lsn false
        handbackLsn := lsn
        sync } := by
  unfold failHandback at hstep
  split at hstep
  case h_1 snapshotLsn lsn hsync hdue | h_2 snapshotLsn lsn hsync hdue =>
    split_ifs at hstep with hanswer
    obtain ⟨sync, hnext, rfl⟩ := Option.map_eq_some_iff.mp hstep
    obtain ⟨catchupLsn, hphase, hreached⟩ := catchup_of_answer hanswer
    refine ⟨snapshotLsn, catchupLsn, _, lsn, sync, hsync, hphase, hdue, by simp, hreached, hnext, ?_⟩
    simp [tryHandback, hdue, hanswer]
  · simp at hstep

theorem Safe.failHandback [DecidableEq ρ] (h : p.Safe tableId)
    (hstep : p.failHandback error = some p') : p'.Safe tableId := by
  obtain ⟨snapshotLsn, catchupLsn, kind, lsn, sync, hsync, hphase, hdue, hkind, hreached, hnext,
    rfl⟩ := failHandback_eq_some hstep
  refine (h.handback hsync hdue hkind hphase hreached false).syncLoop
    (acked_of_next hnext) ?_
  intro lsn' hlsn'
  simp [tryCompleteCatchup, hphase, hreached] at hlsn'

/-! ## The apply worker -/

theorem notDone_of_catchup {h : Handoff} {handbackLsn lsn : PgLsn}
    (hr : h.Recorded handbackLsn) (hactive : h.sync ≠ .inactive)
    (hphase : h.worker.phase = .catchup lsn) : h.store.current.asType.isDone = false := by
  have hback : h.worker.phase.isHandedBack = false := by
    rw [hphase]
    rfl
  have hearly := hr.store_early hactive hback
  have herrored := hr.not_errored hactive hback (by simp [hphase])
  cases hcurrent : h.store.current with
  | ready => simp [hcurrent, isHandedBack] at hearly
  | errored => exact absurd hcurrent herrored
  | _ => rfl

theorem Safe.enterHook (h : p.Safe tableId) (hstep : p.enterHook = some p') :
    p'.Safe tableId := by
  unfold Pipeline.enterHook at hstep
  split at hstep
  next kind lsn happly hhook hdue =>
    cases hstep
    have hsame : (p.handoff.enterHook kind lsn).sync = p.handoff.sync ∧
        (p.handoff.enterHook kind lsn).worker = p.handoff.worker ∧
        (p.handoff.enterHook kind lsn).store = p.handoff.store := by
      unfold Handoff.enterHook
      split_ifs <;> exact ⟨rfl, rfl, rfl⟩
    have hback : (p.handoff.enterHook kind lsn).HandedBack → p.handoff.HandedBack :=
      fun hback => hback.congr hsame.2.2 (by rw [hsame.2.1]) (by rw [hsame.1]; exact id)
    refine ⟨h.recorded.enterHook kind lsn, ?_, h.slot_le, ?_, ?_, ?_, h.snapshot_le, ?_, ?_, ?_⟩
    · exact h.applied.change (fun _ _ hmust => ⟨hback hmust.1, hmust.2⟩)
        (.inr fun _ hmust => ⟨hback hmust.1, hmust.2⟩)
    · intro kind' lsn' listed heq
      unfold Handoff.enterHook at heq
      split_ifs at heq
      · simp [happly] at heq
      · obtain ⟨rfl, rfl, -⟩ := ApplyPoint.inHook.inj heq
        exact ⟨rfl, hdue⟩
    · intro lsn' hactive hphase
      rw [hsame.1] at hactive
      rw [hsame.2.1] at hphase
      obtain ⟨hheld, hclosed, hbehind⟩ := h.quiet lsn' hactive hphase
      refine ⟨?_, hclosed, hbehind⟩
      rcases hheld with hheld | hheld | hexit | hheld | ⟨hpoint, hidle, -⟩
      · simp [happly] at hheld
      · simp [happly] at hheld
      · exact .inr (.inr (.inl hexit))
      · simp [hhook] at hheld
      · -- a table that catches up is not done in the store, so the hook lists it
        have hlists := notDone_of_catchup h.recorded hactive hphase
        refine .inr (.inr (.inr (.inr ⟨hpoint, hidle, .inr ?_⟩)))
        exact ⟨kind, lsn, p.handoff.store.current, by simp [Handoff.enterHook, hlists]⟩
    · rw [hsame.1]
      exact h.snapshot_eq
    · rw [hsame.1]
      exact h.catching
    · exact fun hback' => h.handback_le (hback hback')
    · exact fun hback' => h.caughtUp (hback hback')
  · simp at hstep

theorem Safe.applyLoop (h : p.Safe tableId) {applyCursor : Cursor ρ} {hook : HookProgress}
    {point : ApplyPoint} {applied : List (Event ρ)}
    (hpoint : ∀ kind lsn listed, point ≠ .inHook kind lsn listed)
    (hcovers : apply.Covers tableId p.wal applyCursor applied p.Owed)
    (hslot : ∃ lsn ∈ apply.positions, p.slotLsn ≤ lsn)
    (hquiet : ∀ lsn, p.handoff.sync ≠ .inactive → p.handoff.worker.phase = .catchup lsn →
      { p with
        handoff := { p.handoff with apply := point }
        apply, applyCursor, hook, applied }.Quiet lsn) :
    { p with
      handoff := { p.handoff with apply := point }
      apply, applyCursor, hook, applied }.Safe tableId := by
  have hback : { p.handoff with apply := point }.HandedBack → p.handoff.HandedBack :=
    fun hback => hback.congr rfl rfl id
  refine ⟨?_, ?_, hslot, ?_, hquiet, h.snapshot_eq, h.snapshot_le, h.catching, ?_, ?_⟩
  · exact h.recorded.congr (h.recorded.toConsistent.congr rfl rfl rfl h.recorded.agrees) rfl rfl
      id (fun kind lsn listed heq => absurd heq (hpoint kind lsn listed))
  · exact hcovers.change (fun _ _ hmust => ⟨hback hmust.1, hmust.2⟩)
      (.inr fun _ hmust => ⟨hback hmust.1, hmust.2⟩)
  · exact fun kind lsn listed heq => absurd heq (hpoint kind lsn listed)
  · exact fun hback' => h.handback_le (hback hback')
  · exact fun hback' => h.caughtUp (hback hback')

theorem interruptHook_eq (hstep : p.interruptHook = some p') :
    p' = { p with handoff := { p.handoff with apply := .running }, hook := .interrupted } := by
  unfold interruptHook at hstep
  split at hstep
  · split_ifs at hstep
    exact (Option.some.inj hstep).symm
  · split_ifs at hstep
    exact (Option.some.inj hstep).symm
  · simp at hstep

theorem Safe.interruptHook (h : p.Safe tableId) (hstep : p.interruptHook = some p') :
    p'.Safe tableId := by
  obtain rfl := interruptHook_eq hstep
  refine h.applyLoop (by simp) h.applied h.slot_le ?_
  intro lsn hactive hphase
  obtain ⟨-, hclosed, hbehind⟩ := h.quiet lsn hactive hphase
  exact ⟨.inr (.inr (.inr (.inl rfl))), hclosed, hbehind⟩

/-- A loop that is held takes no message and stays held. -/
theorem Held.next (hheld : p.Held) (hrunning : p.handoff.apply = .running)
    (hpermits : p.permitsApply tableId input = true) (hnext : p.apply.next input = some apply) :
    input.data? = none ∧ p.apply.Keeps apply ∧
      (apply.state.exitIntent.isSome = true ∨ apply.point.isFailed = true) := by
  have hkeeps := Session.keeps_of_next hnext
  rcases hheld with hheld | hheld | hexit | hheld | ⟨hpoint, ⟨lsn, hidle⟩, hoff⟩
  · simp [hrunning] at hheld
  · simp [hrunning] at hheld
  · cases input with
    | message => simp [(Session.select_of_message hnext).2] at hexit
    | _ => exact ⟨rfl, hkeeps, .inl (hkeeps.exit_kept hexit)⟩
  · -- an interrupted hook answers that the loop is to pause
    have hanswer : p.apply.dueHook.isSome = true ∧ input.hookAnswer? = some (some .pause) := by
      cases input <;>
        simp only [permitsApply] at hpermits <;>
        simp_all [LoopInput.hookAnswer?] <;>
        split at hpermits <;> simp_all
    have hexit := Session.exit_of_dueHook hnext hanswer.1 hanswer.2
    cases input with
    | message => simp [LoopInput.hookAnswer?] at hanswer
    | _ => exact ⟨rfl, hkeeps, hexit⟩
  · -- the first hook has not run, and nothing else may
    have hhook : p.hook = .outside := by
      rcases hoff with hoff | ⟨kind, lsn, listed, happly⟩
      · exact hoff
      · simp [hrunning] at happly
    unfold Session.next at hnext
    cases input <;> simp [permitsApply, hpoint, hidle, hhook] at hnext hpermits

/-- The apply worker takes changes of a table it has to write. -/
theorem Safe.owns (h : p.Safe tableId) (hpermits : p.permitsApply tableId input = true)
    (hnext : p.apply.next input = some apply) (hans : input.answers? = some ans) {commitLsn : PgLsn}
    (hopen : p.apply.sender.openCommit = some commitLsn) (howed : p.Owed commitLsn) :
    ans.Owns tableId := by
  cases input with
  | message message ans' sizeHint batchSizeBytes writeEvents withinInterval =>
    cases hans
    have hfinal : p.apply.state.remoteFinalLsn = some commitLsn :=
      (h.applied.inv.open_eq (select_of_message hnext).1).symm.trans hopen
    have hready : p.handoff.shouldApplyChanges commitLsn = true := by
      unfold shouldApplyChanges getActiveWorkerState
      rcases h.recorded.phase_eq howed.1 with
        ⟨hactive, hphase | hphase⟩ | ⟨hinactive, hphase | hphase⟩
      · simp [hactive, hphase, isReadyForChanges]
      · simpa [hactive, hphase, isReadyForChanges] using howed.2
      · simp [hinactive, hphase, isReadyForChanges]
      · simpa [hinactive, hphase, isReadyForChanges] using howed.2
    simp only [permitsApply, hfinal, Option.getD_some, hready, Bool.and_eq_true] at hpermits
    exact owns_of_agrees hpermits.2
  | _ => simp [LoopInput.answers?] at hans

theorem applyStep_eq_some [DecidableEq ρ] (hstep : p.applyStep tableId input = some p') :
    p.handoff.apply = .running ∧ p.permitsApply tableId input = true ∧ ∃ applyCursor apply,
      p.wal.follow p.applyCursor p.apply.sender.openCommit.isSome input = some applyCursor ∧
      p.apply.next input = some apply ∧
      p' = { p with
        handoff := { p.handoff with apply := if apply.point.isOver then .down else .running }
        apply, applyCursor
        hook := .outside } := by
  unfold applyStep at hstep
  split_ifs at hstep with hpermits
  split at hstep
  next applyCursor apply hfollow hnext =>
    cases hstep
    refine ⟨hpermits.1, hpermits.2, applyCursor, apply, hfollow, hnext, ?_⟩
    split_ifs
    · rfl
    · rw [← hpermits.1]
  · simp at hstep

theorem Safe.applyStep [DecidableEq ρ] (h : p.Safe tableId)
    (hstep : p.applyStep tableId input = some p') : p'.Safe tableId := by
  obtain ⟨hrunning, hpermits, applyCursor, apply, hfollow, hnext, rfl⟩ := applyStep_eq_some hstep
  refine h.applyLoop ?_ ?_ ?_ ?_
  · split_ifs <;> simp
  · exact h.applied.next hnext hfollow
      (fun ans hans commitLsn hopen howed => h.owns hpermits hnext hans hopen howed)
  · obtain ⟨lsn, hlsn, hle⟩ := h.slot_le
    obtain ⟨lsn', hlsn', hle'⟩ := positions_of_next hnext hlsn
    exact ⟨lsn', hlsn', le_trans hle hle'⟩
  · intro lsn hactive hphase
    obtain ⟨hheld, hclosed, hbehind⟩ := h.quiet lsn hactive hphase
    obtain ⟨hdata, hkeeps, hexit⟩ := hheld.next hrunning hpermits hnext
    obtain rfl := Wal.follow_eq hdata hfollow
    refine ⟨?_, hkeeps.sender_eq ▸ hclosed, hbehind⟩
    rcases hexit with hexit | hfailed
    · exact .inr (.inr (.inl hexit))
    · refine .inr (.inl ?_)
      simp [LoopPoint.isOver_of_isFailed hfailed]

theorem Safe.failApply [DecidableEq ρ] (h : p.Safe tableId) (hstep : p.failApply error = some p') :
    p'.Safe tableId := by
  obtain ⟨apply, hnext, rfl⟩ := Option.map_eq_some_iff.mp hstep
  have hkeeps := keeps_of_next hnext
  refine h.applyLoop (by simp) ?_ ?_ ?_
  · exact h.applied.next hnext rfl (by simp [LoopInput.answers?])
  · obtain ⟨lsn, hlsn, hle⟩ := h.slot_le
    obtain ⟨lsn', hlsn', hle'⟩ := positions_of_next hnext hlsn
    exact ⟨lsn', hlsn', le_trans hle hle'⟩
  · intro lsn hactive hphase
    obtain ⟨-, hclosed, hbehind⟩ := h.quiet lsn hactive hphase
    exact ⟨.inr (.inl rfl), hkeeps.sender_eq ▸ hclosed, hbehind⟩

/-- The apply worker starts again at a position it had reported or counted as flushed. -/
theorem Safe.getStartLsn_le (h : p.Safe tableId) : ∃ lsn ∈ p.apply.positions,
    p.getStartLsn ≤ lsn := by
  obtain ⟨lsn, hlsn, hle⟩ := h.slot_le
  unfold getStartLsn
  split
  next durable hdurable =>
    rcases max_choice durable p.slotLsn with heq | heq
    · refine ⟨p.apply.state.replicationProgress.lastFlushLsn, by simp [positions], ?_⟩
      exact le_of_eq_of_le heq (h.applied.inv.stopped.durable_le durable hdurable)
    · exact ⟨lsn, hlsn, le_of_eq_of_le heq hle⟩
  · exact ⟨lsn, hlsn, hle⟩

theorem slotLsn_le_getStartLsn (p : Pipeline ρ) : p.slotLsn ≤ p.getStartLsn ∧
    ∀ durable, p.apply.durableProgress = some durable → durable ≤ p.getStartLsn := by
  unfold getStartLsn
  cases hdurable : p.apply.durableProgress with
  | some durable => simp
  | none => simp

theorem Safe.restartApply (h : p.Safe tableId) (hstep : p.restartApply = some p') :
    p'.Safe tableId := by
  unfold Pipeline.restartApply at hstep
  split_ifs at hstep
  cases hstep
  obtain ⟨lsn, hlsn, hle⟩ := h.getStartLsn_le
  obtain ⟨hslot, hdurable⟩ := p.slotLsn_le_getStartLsn
  have hceiling := h.applied.inv.stopped.positions_le lsn hlsn
  refine h.applyLoop (by simp) ?_ ?_ ?_
  · refine covers_start hdurable
      (le_trans hle (le_trans hceiling h.applied.aligned.ceiling_le_tip)) ?_
    intro tx htx hbefore howed record hrecord hconcerns
    exact h.applied.writes_of_position hlsn htx howed (lt_of_lt_of_le hbefore hle) hrecord
      hconcerns
  · exact ⟨p.getStartLsn, mem_cons_self, hslot⟩
  · intro catchupLsn hactive hphase
    obtain ⟨-, -, hbehind⟩ := h.quiet catchupLsn hactive hphase
    refine ⟨?_, rfl, ?_⟩
    · refine .inr (.inr (.inr (.inr ⟨rfl, ⟨p.getStartLsn, ?_⟩, .inl rfl⟩)))
      rfl
    · intro tx htx
      have hbefore := p.wal.lt_of_mem_take_cursorAt htx
      refine hbehind tx ?_
      exact h.applied.aligned.mem_take_of_lt (mem_of_mem_take htx)
        (lt_of_lt_of_le hbefore (le_trans hle hceiling))

theorem Safe.crash (h : p.Safe tableId) :
    { p with handoff := { p.handoff with sync := .inactive, apply := .down }, hook := .outside
      }.Safe tableId := by
  have hdown : { p with handoff := { p.handoff with apply := .down }, hook := .outside }.Safe
      tableId := by
    refine h.applyLoop (by simp) h.applied h.slot_le ?_
    intro lsn hactive hphase
    obtain ⟨-, hclosed, hbehind⟩ := h.quiet lsn hactive hphase
    exact ⟨.inr (.inl rfl), hclosed, hbehind⟩
  refine hdown.localStep (hdown.recorded.localStep_frame ?_ rfl rfl (by simp) (.inl rfl)
    (.inr rfl))
  exact hdown.recorded.toConsistent.congr rfl rfl rfl trivial

/-! ## Whole runs -/

theorem Safe.next [DecidableEq ρ] (h : p.Safe tableId) {input : PipelineInput ρ}
    (hguard : p.KeepsHandback input) (hnext : p.next tableId maxAttempts input = some p') :
    p'.Safe tableId := by
  cases input with
  | commitTx tx =>
    obtain ⟨wal, hcommit, rfl⟩ := Option.map_eq_some_iff.mp hnext
    exact h.extend (Wal.extends_commit hcommit)
  | advanceWal lsn =>
    cases hnext
    exact h.extend (p.wal.extends_advance lsn)
  | worker input =>
    simp only [Pipeline.next] at hnext
    split_ifs at hnext with hlocal
    obtain ⟨handoff, hstep, rfl⟩ := Option.map_eq_some_iff.mp hnext
    exact h.localStep (h.recorded.localStep_of_next hlocal hguard hstep)
  | prepareCopy stored =>
    obtain ⟨handoff, hstep, rfl⟩ := Option.map_eq_some_iff.mp hnext
    cases step_of_next hstep with
    | prepareCopy _ hsync => exact h.prepareCopy hsync stored
  | createSlot lsn => exact h.createSlot hnext
  | finishCopy stored => exact h.finishCopy hnext
  | startCatchup => exact h.startCatchup hnext
  | sync input => exact h.syncStep hnext
  | failHandback error => exact h.failHandback hnext
  | enterHook => exact h.enterHook hnext
  | interruptHook => exact h.interruptHook hnext
  | apply input => exact h.applyStep hnext
  | failApply error => exact h.failApply hnext
  | restartApply => exact h.restartApply hnext
  | confirmFlush lsn =>
    simp only [Pipeline.next] at hnext
    split_ifs at hnext with hreport
    cases hnext
    exact h.confirmFlush hreport
  | crash =>
    cases hnext
    exact h.crash

theorem safe_started {startLsn slotLsn : PgLsn} {durableProgress : Option PgLsn}
    (hstart : startLsn ≤ wal.tip) (hslot : slotLsn ≤ startLsn)
    (hdurable : ∀ durable, durableProgress = some durable → durable ≤ startLsn) :
    (started .init wal startLsn durableProgress slotLsn).Safe tableId := by
  have hback : ¬(started .init wal startLsn durableProgress slotLsn).handoff.HandedBack := by
    rintro (hback | ⟨hactive, -⟩)
    · simp [started, startedWith, isHandedBack] at hback
    · exact hactive rfl
  refine ⟨?_, ?_, ⟨startLsn, mem_cons_self, hslot⟩, ?_, ?_, ?_, by simp [started], ?_,
    fun hback' => absurd hback' hback, fun hback' => absurd hback' hback⟩
  · refine ⟨⟨trivial, ⟨rfl, by simp [started, startedWith], rfl⟩, rfl⟩,
      fun hactive => absurd rfl hactive, by simp [started, startedWith],
      fun hactive => absurd rfl hactive, fun hactive => absurd rfl hactive,
      by simp [started, startedWith], by simp [started]⟩
  · exact covers_start hdurable hstart (fun _ _ _ howed => absurd howed.1 hback)
  · simp [started]
  · simp [started, startedWith]
  · simp [started, startedWith, SyncPoint.snapshot?]
  · simp [started, startedWith]

end Pipeline

theorem safe_of_reachable [DecidableEq ρ] {p : Pipeline ρ} {tableId : TableId} {maxAttempts : ℕ}
    (hp : (pipelineMachine ρ tableId maxAttempts .init).ReachableUnder Pipeline.KeepsHandback p) :
    p.Safe tableId := by
  refine hp.invariant (I := fun p => p.Safe tableId) ?_ ?_
  · rintro p ⟨-, wal, startLsn, durableProgress, slotLsn, hstart, hslot, hdurable, rfl⟩
    exact safe_started hstart hslot hdurable
  · intro p input p' h hguard hnext
    exact h.next hguard hnext

/-- In every run in which no error of a table-sync worker is recorded over a handed-back phase,
whenever the table is handed back, every change that committed after the snapshot of its copy is
written if it committed before the handback or if the progress of the apply worker has passed
it. -/
theorem handed_back_changes_written [DecidableEq ρ] {p : Pipeline ρ} {tableId : TableId}
    {maxAttempts : ℕ}
    (hp : (pipelineMachine ρ tableId maxAttempts .init).ReachableUnder Pipeline.KeepsHandback p)
    (hback : p.handoff.HandedBack) :
    ∃ snapshotLsn, p.snapshot = some snapshotLsn ∧ ∀ tx ∈ p.wal.txs,
      snapshotLsn ≤ tx.commitLsn →
      (tx.commitLsn < p.handbackLsn ∨
        ∃ durable, p.apply.durableProgress = some durable ∧ tx.commitLsn < durable) →
      ∀ record ∈ tx.records, record.change.concerns tableId = true →
        Writes tableId (p.applied ++ p.apply.acked ++ p.sync.acked) tx.commitLsn record :=
  (safe_of_reachable hp).writes hback

/-! ## A table handed back, and one whose changes are lost -/

/-- The table of the runs below. -/
def usersSchema : ReplicatedTableSchema := ⟨⟨1, ⟨"public", "users"⟩, [], 0⟩, [], []⟩

def usersMessage (owned : Bool) (message : ReplicationMessage Unit) : LoopInput Unit :=
  let ans := { MessageAnswers.owning usersSchema with shouldApplyChanges := fun _ => .ok owned }
  .message message ans 10 1000 (.ok ()) false

/-- The table is copied at 10 and its worker reaches the target of its catch-up at 20. -/
def copiedAndCaughtUp : List (PipelineInput Unit) :=
  [.enterHook, .worker (.processTable true), .apply (.idle none), .worker .startTableSync,
    .prepareCopy true, .createSlot 10, .finishCopy true, .worker .announceSyncWait,
    .advanceWal 20, .apply (usersMessage false (.primaryKeepAlive 20 false)), .enterHook,
    .worker (.processTable true), .startCatchup, .sync (.idle none),
    .sync (usersMessage true (.primaryKeepAlive 20 false))]

/-- A transaction that inserts a row of the table. -/
def insertTx : WalTx Unit := ⟨30, 40, [⟨25, .row .insert 1 ()⟩]⟩

/-- The apply worker streams the insert and its progress passes it. -/
def insertedAndFlushed (owned : Bool) : List (PipelineInput Unit) :=
  [.commitTx insertTx,
    .apply (usersMessage owned (.xLogData 24 24 (.begin 30))), .apply (.idle none),
    .apply (.idle none), .apply (usersMessage owned (.xLogData 25 25 (.row .insert 1 ()))),
    .apply (.idle none), .apply (.idle none),
    .apply (usersMessage owned (.xLogData 30 40 (.commit 30 40))), .enterHook,
    .apply (.commitHook none 10 1000 (.ok ())), .apply (.idle none), .apply (.idle none),
    .apply (.flushDeadline (.ok ())), .apply (.idle none), .apply (.idle none),
    .apply (.flushResult (.ok ()) (.ok ()) (.ok ()))]

/-- What is observed of a run: the stored phase, the handback, the progress of the apply worker,
the snapshot and the log. -/
def Pipeline.observe (p : Pipeline Unit) :
    TableReplicationPhase × PgLsn × Option PgLsn × Option PgLsn × List (WalTx Unit) :=
  (p.handoff.store.current, p.handbackLsn, p.apply.durableProgress, p.snapshot, p.wal.txs)

/-- The table is handed back at 20, and `Ready` is stored before the insert. -/
def handedBackAndStreamed : List (PipelineInput Unit) :=
  copiedAndCaughtUp ++ [.sync (.idle (some .complete)), .worker .observeHandback,
    .apply (.idle none), .enterHook, .worker (.processTable true), .apply (.idle none),
    .worker .finishWorker] ++ insertedAndFlushed true

theorem handed_back_changes_written_streamed :
    ∃ p, ((pipelineMachine Unit 1 3 .init).restrict Pipeline.KeepsHandback).run
        (.started .init (.empty 10) 10 none 10) handedBackAndStreamed = some p ∧
      p.observe = (.ready, 20, some 40, some 10, [insertTx]) ∧
      Writes 1 (p.applied ++ p.apply.acked ++ p.sync.acked) 30 ⟨25, .row .insert 1 ()⟩ := by
  have hrun : (((pipelineMachine Unit 1 3 .init).restrict Pipeline.KeepsHandback).run
      (.started .init (.empty 10) 10 none 10) handedBackAndStreamed).map observe
        = some (.ready, 20, some 40, some 10, [insertTx]) := rfl
  obtain ⟨p, hp, hobserve⟩ := Option.map_eq_some_iff.mp hrun
  obtain ⟨hstore, -, hdurable, hsnapshot, htxs⟩ : p.handoff.store.current = .ready ∧
      p.handbackLsn = 20 ∧ p.apply.durableProgress = some 40 ∧ p.snapshot = some 10 ∧
      p.wal.txs = [insertTx] := by
    simpa [observe] using hobserve
  have hstart : (pipelineMachine Unit 1 3 .init).ReachableUnder Pipeline.KeepsHandback
      (.started .init (.empty 10) 10 none 10) :=
    .init ⟨rfl, .empty 10, 10, none, 10, le_rfl, le_rfl, by simp, rfl⟩
  obtain ⟨snapshotLsn, hsnapshot', hwrites⟩ :=
    handed_back_changes_written (hstart.run handedBackAndStreamed hp) (.inl (by rw [hstore]; rfl))
  cases hsnapshot.symm.trans hsnapshot'
  exact ⟨p, hp, hobserve, hwrites insertTx (by simp [htxs]) (by decide)
    (.inr ⟨40, hdurable, by decide⟩) _ (by simp [insertTx]) rfl⟩

/-- The table is handed back at 20, but `SyncDone` cannot be stored. The apply worker reads it
in memory and stores `Ready`. The worker then records its error over `Ready`, the apply worker
skips the insert, and the rollback brings `Ready` back. -/
def handedBackAndLost : List (PipelineInput Unit) :=
  copiedAndCaughtUp ++ [.failHandback ⟨.invalidState, "the state could not be stored", none⟩,
    .worker .observeHandback, .apply (.idle none), .enterHook, .worker (.processTable true),
    .apply (.idle none), .worker (.handleError .timed true false)] ++
    insertedAndFlushed false ++ [.worker (.rollback true)]

theorem handed_back_change_lost :
    ∃ p, (pipelineMachine Unit 1 3 .init).Reachable p ∧
      p.observe = (.ready, 20, some 40, some 10, [insertTx]) ∧
      ¬Writes 1 (p.applied ++ p.apply.acked ++ p.sync.acked) 30 ⟨25, .row .insert 1 ()⟩ := by
  have hrun : ((pipelineMachine Unit 1 3 .init).run (.started .init (.empty 10) 10 none 10)
      handedBackAndLost).map
        (fun p => (p.observe, (p.applied ++ p.apply.acked ++ p.sync.acked).map (·.startLsn)))
        = some ((.ready, 20, some 40, some 10, [insertTx]), [24, 30]) := rfl
  obtain ⟨p, hp, hobserve⟩ := Option.map_eq_some_iff.mp hrun
  obtain ⟨hobserve, hlsns⟩ := Prod.mk.inj hobserve
  have hstart : (pipelineMachine Unit 1 3 .init).Reachable
      (.started .init (.empty 10) 10 none 10) :=
    .init ⟨rfl, .empty 10, 10, none, 10, le_rfl, le_rfl, by simp, rfl⟩
  refine ⟨p, hstart.run handedBackAndLost hp, hobserve, ?_⟩
  rintro ⟨e, he, hlsn, -⟩
  have hmem : e.startLsn ∈ [24, 30] := hlsns ▸ mem_map_of_mem he
  simp [hlsn] at hmem

end Etl
