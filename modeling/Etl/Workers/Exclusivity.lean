import Etl.Workers.CatchUp
import Etl.Workers.HandbackKept
import Etl.Workers.HandbackSafety

/-! # Each change is written by one worker

In a run without crashes and retries the position a table is handed back at separates the
workers. Everything the table-sync worker has produced of the table commits before it: the
loop takes no message after the commit that reaches the target of the catch-up. The apply
worker takes only changes that commit at or after it: in `SyncDone` it compares with the
position, and `Ready` is stored only after the stream of the apply worker has passed it.

Reference: `etl/src/workers/table_sync.rs` and `etl/src/workers/apply.rs`.
-/

namespace Etl

open List Session TableReplicationPhase SyncPoint Handoff LoopInput

variable {ρ : Type}

def PipelineInput.restarts : PipelineInput ρ → Bool
  | .worker input => input.recordsError
  | .restartApply | .crash => true
  | _ => false

namespace Pipeline

def Unretried (_ : Pipeline ρ) (input : PipelineInput ρ) : Prop := input.restarts = false

instance (p : Pipeline ρ) (input : PipelineInput ρ) : Decidable (p.Unretried input) :=
  inferInstanceAs (Decidable (_ = _))

/-! ## The invariant -/

/-- What table-sync workers have produced. -/
def syncedEvents (p : Pipeline ρ) : List (Event ρ) := p.synced ++ p.sync.producedEvents

/-- What the apply worker has produced, as far as earlier loops had it acknowledged. -/
def appliedEvents (p : Pipeline ρ) : List (Event ρ) := p.applied ++ p.apply.producedEvents

/-- Among the events, those of the table commit before the position. -/
def RowsBefore (tableId : TableId) (events : List (Event ρ)) (lsn : PgLsn) : Prop :=
  ∀ e ∈ events, e.body.concerns tableId = true → e.commitLsn < lsn

/-- The side of the apply worker: it has produced changes of the table only after the handback
and from its position on. -/
structure ApplySide (p : Pipeline ρ) (tableId : TableId) : Prop where
  inv : p.apply.Inv
  hooked : ∀ kind lsn listed, p.handoff.apply = .inHook kind lsn listed →
    p.hook = .inside ∧ p.apply.dueHook = some (kind, lsn)
  ready_le : p.handoff.IsReady → p.handbackLsn ≤ p.apply.sender.ceiling
  rows_ge : ∀ e ∈ p.appliedEvents, e.body.concerns tableId = true →
    p.handoff.HandedBack ∧ p.handbackLsn ≤ e.commitLsn

/-- The side of the table-sync workers: what they have produced of the table commits before the
snapshot of a later copy, and before the handback. -/
structure SyncSide (p : Pipeline ρ) (tableId : TableId) : Prop where
  follows : p.sync.Follows p.wal p.syncCursor
  synced_mem : ∀ e ∈ p.synced, ∃ tx ∈ p.wal.txs, tx.commitLsn = e.commitLsn
  snapshot_eq : ∀ lsn, p.handoff.sync.snapshot? = some lsn → p.snapshot = some lsn
  snapshot_le : ∀ lsn, p.snapshot = some lsn → lsn ≤ p.wal.tip
  copied : ∀ lsn, p.snapshot = some lsn → p.handoff.sync = .copying ∨
    p.handoff.sync = .copied lsn ∨ p.handoff.sync = .waiting lsn →
      RowsBefore tableId p.syncedEvents lsn
  catching : ∀ snapshotLsn catchupLsn, p.handoff.sync = .catchingUp snapshotLsn →
    p.handoff.worker.phase = .catchup catchupLsn →
      RowsBefore tableId p.synced catchupLsn ∧
        p.sync.CatchingUp tableId snapshotLsn catchupLsn
  completing : p.handoff.sync = .completing →
    p.sync.state.exitIntent.isSome = true ∨ p.sync.point.isFailed = true
  handedBack : p.handoff.HandedBack → RowsBefore tableId p.syncedEvents p.handbackLsn

/-- The invariant of both workers in runs without retries. -/
structure Split (p : Pipeline ρ) (tableId : TableId) : Prop where
  recorded : p.handoff.Recorded p.handbackLsn
  backed : p.handoff.Backed p.handbackLsn
  applySide : p.ApplySide tableId
  syncSide : p.SyncSide tableId

variable {p : Pipeline ρ} {tableId : TableId} {maxAttempts : ℕ} {lsn : PgLsn} {wal : Wal ρ}
  {handoff : Handoff} {p' : Pipeline ρ} {sync : Session ρ} {syncCursor : Cursor ρ} {kind : HookKind}
  {input : LoopInput ρ} {error : EtlError} {apply : Session ρ}

theorem rowsBefore_append {events events' : List (Event ρ)} :
    RowsBefore tableId (events ++ events') lsn ↔
      RowsBefore tableId events lsn ∧ RowsBefore tableId events' lsn := by
  simp [RowsBefore, or_imp, forall_and]

/-- No change is written by both workers. -/
theorem Split.exclusive (h : p.Split tableId) (commitLsn : PgLsn) (record : WalRecord ρ) :
    ¬(Writes tableId p.syncedEvents commitLsn record ∧
      Writes tableId p.appliedEvents commitLsn record) := by
  rintro ⟨⟨e, he, -, rfl, hcarried⟩, e', he', -, hcommit, hcarried'⟩
  obtain ⟨hback, hge⟩ := h.applySide.rows_ge e' he' hcarried'.concerns
  have hlt := h.syncSide.handedBack hback e he hcarried.concerns
  rw [hcommit] at hge
  exact absurd hge (not_le.mpr hlt)

/-- A table for which the apply worker has produced a change is handed back. -/
theorem ApplySide.not_concerns (h : p.ApplySide tableId) (hback : ¬p.handoff.HandedBack) :
    ∀ e ∈ p.appliedEvents, e.body.concerns tableId = true → False :=
  fun e he hconcerns => hback (h.rows_ge e he hconcerns).1

theorem SyncSide.mem_wal (h : p.SyncSide tableId) :
    ∀ e ∈ p.syncedEvents, ∃ tx ∈ p.wal.txs, tx.commitLsn = e.commitLsn := by
  intro e he
  rcases mem_append.mp he with he | he
  · exact h.synced_mem e he
  · rcases h.follows.sourced e he with hopen | ⟨tx, htx, hcommit⟩
    · obtain ⟨tx, hget, hcommit⟩ := h.follows.aligned.open_eq _ hopen
      exact ⟨tx, mem_of_getElem? hget, hcommit⟩
    · exact ⟨tx, mem_of_mem_take htx, hcommit⟩

/-! ## The log -/

theorem Split.extend (h : p.Split tableId) (hextends : p.wal.Extends wal) :
    { p with wal }.Split tableId := by
  have hs := h.syncSide
  refine ⟨h.recorded, h.backed, { h.applySide with },
    { hs with follows := hs.follows.extend hextends, synced_mem := ?_, snapshot_le := ?_ }⟩
  · intro e he
    obtain ⟨tx, htx, hcommit⟩ := hs.synced_mem e he
    exact ⟨tx, hextends.subset htx, hcommit⟩
  · exact fun lsn hlsn => le_trans (hs.snapshot_le lsn hlsn) hextends.tip_le

/-! ## Steps of the handoff -/

/-- Steps that neither set nor follow a handback. -/
theorem Split.localStep (h : p.Split tableId) (hlocal : p.handoff.LocalStep handoff p.handbackLsn)
    (hkeeps : p.handoff.KeepsBack handoff p.handbackLsn)
    (hsync : (handoff.sync = p.handoff.sync ∧ ∀ lsn, p.handoff.sync ≠ .inactive →
        p.handoff.worker.phase = .catchup lsn → handoff.worker.phase = .catchup lsn) ∨
      (∃ lsn, p.handoff.sync = .copied lsn ∧ handoff.sync = .waiting lsn) ∨
      handoff.sync.isOutside = true) :
    { p with handoff }.Split tableId := by
  have ha := h.applySide
  have hs := h.syncSide
  refine ⟨hlocal.recorded, hkeeps.backed, ⟨ha.inv, ?_, ?_, ?_⟩, ⟨hs.follows, hs.synced_mem, ?_,
    hs.snapshot_le, ?_, ?_, ?_, ?_⟩⟩
  · exact fun kind lsn listed happly => ha.hooked kind lsn listed (hlocal.inHook _ _ _ happly)
  · intro hready
    rcases hkeeps.ready hready with hready | ⟨kind, lsn, listed, happly, hkind, hle⟩
    · exact ha.ready_le hready
    · obtain ⟨-, hdue⟩ := ha.hooked kind lsn listed happly
      exact le_trans hle (ha.inv.acked_dueHook hdue hkind).2.1
  · intro e he hconcerns
    obtain ⟨hback, hge⟩ := ha.rows_ge e he hconcerns
    exact ⟨hkeeps.handedBack hback, hge⟩
  · exact fun lsn hlsn => hs.snapshot_eq lsn (hlocal.snapshot lsn hlsn)
  · intro lsn hlsn hpoint
    dsimp only at hpoint
    refine hs.copied lsn hlsn ?_
    rcases hsync with ⟨hsame, -⟩ | ⟨lsn', hbefore, hafter⟩ | houtside
    · exact hsame ▸ hpoint
    · obtain rfl : lsn' = lsn := by simpa [hafter] using hpoint
      exact .inr (.inl hbefore)
    · rcases hpoint with hpoint | hpoint | hpoint
      all_goals simp [hpoint, isOutside] at houtside
  · intro snapshotLsn catchupLsn hcatching hphase
    dsimp only at hcatching hphase
    rcases hsync with ⟨hsame, htarget⟩ | ⟨lsn', -, hafter⟩ | houtside
    · have hcatching' : p.handoff.sync = .catchingUp snapshotLsn := hsame ▸ hcatching
      have hagrees := h.recorded.agrees
      rw [hcatching'] at hagrees
      obtain ⟨lsn, -, hphase'⟩ := hagrees
      have htarget' := htarget lsn (by simp [hcatching']) hphase'
      obtain rfl : lsn = catchupLsn := by simpa [hphase] using htarget'.symm
      exact hs.catching snapshotLsn lsn hcatching' hphase'
    · simp [hcatching] at hafter
    · simp [hcatching, isOutside] at houtside
  · intro hpoint
    dsimp only at hpoint
    rcases hsync with ⟨hsame, -⟩ | ⟨lsn', -, hafter⟩ | houtside
    · exact hs.completing (hsame ▸ hpoint)
    · simp [hpoint] at hafter
    · simp [hpoint, isOutside] at houtside
  · exact fun hback => hs.handedBack (hlocal.handedBack hback)

/-- Steps of a copy: the table is neither handed back nor to catch up. -/
theorem Split.copyStep (h : p.Split tableId) {snapshot : Option PgLsn}
    (hrecorded : handoff.Recorded p.handbackLsn) (hback : ¬p.handoff.HandedBack)
    (hback' : ¬handoff.HandedBack) (happly : handoff.apply = p.handoff.apply)
    (hsync : ∀ lsn, handoff.sync ≠ .catchingUp lsn) (hcompleting : handoff.sync ≠ .completing)
    (hsnapshot : ∀ lsn, handoff.sync.snapshot? = some lsn → snapshot = some lsn)
    (hle : ∀ lsn, snapshot = some lsn → lsn ≤ p.wal.tip)
    (hcopied : ∀ lsn, snapshot = some lsn → RowsBefore tableId p.syncedEvents lsn) :
    { p with handoff, snapshot }.Split tableId := by
  have hnone := h.applySide.not_concerns hback
  refine ⟨hrecorded, ⟨?_, ?_⟩, ⟨h.applySide.inv, ?_, ?_, ?_⟩, ⟨h.syncSide.follows,
    h.syncSide.synced_mem, hsnapshot, hle, fun lsn hlsn _ => hcopied lsn hlsn, ?_, ?_, ?_⟩⟩
  · exact fun hactive hphase => absurd (.inr ⟨hactive, hphase⟩) hback'
  · rw [happly]
    exact h.backed.listed_lsn
  · rw [happly]
    exact h.applySide.hooked
  · rintro (hready | ⟨hactive, hready⟩)
    · exact absurd (.inl (by rw [hready]; rfl)) hback'
    · exact absurd (.inr ⟨hactive, by rw [hready]; rfl⟩) hback'
  · exact fun e he hconcerns => (hnone e he hconcerns).elim
  · exact fun snapshotLsn _ hcatching => absurd hcatching (hsync snapshotLsn)
  · exact fun hpoint => absurd hpoint hcompleting
  · exact fun hback'' => absurd hback'' hback'

theorem Split.prepareCopy (h : p.Split tableId) (hsync : p.handoff.sync = .preparing)
    (stored : Bool) :
    { p with handoff := p.handoff.prepareCopy stored, snapshot := none }.Split tableId := by
  have hactive : p.handoff.sync ≠ .inactive := by simp [hsync]
  have hagrees := h.recorded.agrees
  rw [hsync] at hagrees
  have hphase : p.handoff.worker.phase.isHandedBack = false ∧
      p.handoff.worker.phase ≠ .errored := by
    rcases hagrees with hphase | hphase | hphase <;>
      simp [hphase, isHandedBack]
  obtain ⟨happly, -, -⟩ := p.handoff.setAndStore_frame .dataSync stored
  obtain ⟨hrecorded, hback⟩ := h.recorded.setEarly .dataSync stored
    (if stored then .copying else .failing false) _ hactive hphase.1 hphase.2 rfl
    (by simp) (by cases stored <;> trivial) (fun _ _ _ heq => happly ▸ heq)
  have hpoint : (p.handoff.prepareCopy stored).sync.snapshot? = none := by
    cases stored <;> rfl
  refine h.copyStep hrecorded (h.recorded.not_handedBack hactive hphase.1) hback happly
    (ne_catchingUp hpoint) ?_ ?_ (by simp) (by simp)
  · cases stored <;> simp [Handoff.prepareCopy]
  · simp [hpoint]

theorem Split.createSlot (h : p.Split tableId) (hstep : p.createSlot lsn = some p') :
    p'.Split tableId := by
  unfold Pipeline.createSlot at hstep
  split_ifs at hstep with hslot
  cases hstep
  obtain ⟨hsync, -, hle, hall⟩ := hslot
  have hagrees := h.recorded.agrees
  rw [hsync] at hagrees
  have hphase : p.handoff.worker.phase = .dataSync := hagrees
  have hback := h.recorded.not_handedBack (by simp [hsync]) (by rw [hphase]; rfl)
  refine h.copyStep h.recorded hback hback rfl (by simp [hsync]) (by simp [hsync]) ?_ ?_ ?_
  · simp [hsync, snapshot?]
  · exact fun lsn' hlsn' => Option.some.inj hlsn' ▸ hle
  · -- everything produced so far has committed, so it is in the snapshot
    intro lsn' hlsn' e he _
    obtain ⟨tx, htx, hcommit⟩ := h.syncSide.mem_wal e he
    exact Option.some.inj hlsn' ▸ hcommit ▸ hall tx htx

theorem Split.finishCopy (h : p.Split tableId) {stored : Bool}
    (hstep : p.finishCopy stored = some p') : p'.Split tableId := by
  unfold Pipeline.finishCopy at hstep
  split at hstep
  next lsn hsync hsnapshot =>
    cases hstep
    have hactive : p.handoff.sync ≠ .inactive := by simp [hsync]
    have hagrees := h.recorded.agrees
    rw [hsync] at hagrees
    have hphase : p.handoff.worker.phase = .dataSync := hagrees
    obtain ⟨happly, -, -⟩ := p.handoff.setAndStore_frame .finishedCopy stored
    obtain ⟨hrecorded, hback⟩ := h.recorded.setEarly .finishedCopy stored
      (if stored then .copied lsn else .failing false) _ hactive
      (by rw [hphase]; rfl) (by simp [hphase]) rfl (by simp) (by cases stored <;> trivial)
      (fun _ _ _ heq => happly ▸ heq)
    refine h.copyStep hrecorded (h.recorded.not_handedBack hactive (by rw [hphase]; rfl)) hback
      happly ?_ ?_ ?_ h.syncSide.snapshot_le ?_
    · cases stored <;> simp [Handoff.finishCopy]
    · cases stored <;> simp [Handoff.finishCopy]
    · intro lsn' hlsn'
      cases stored with
      | true => exact hsnapshot.trans hlsn'
      | false => simp [Handoff.finishCopy, snapshot?] at hlsn'
    · exact fun lsn' hlsn' => h.syncSide.copied lsn' hlsn' (.inl hsync)
  · simp at hstep

/-! ## The loop of the table-sync worker -/

theorem Split.startCatchup (h : p.Split tableId) (hstep : p.startCatchup = some p') :
    p'.Split tableId := by
  unfold Pipeline.startCatchup at hstep
  split at hstep
  next snapshotLsn hsync =>
    split_ifs at hstep with htype
    cases hstep
    have hactive : p.handoff.sync ≠ .inactive := by simp [hsync]
    have hagrees := h.recorded.agrees
    rw [hsync] at hagrees
    rcases hagrees with hphase | ⟨lsn, hle, hphase⟩
    · simp [hphase, asType] at htype
    have hback := h.recorded.not_handedBack hactive (by rw [hphase]; rfl)
    have hback' : ¬{ p.handoff with sync := .catchingUp snapshotLsn }.HandedBack :=
      fun hback' => hback (hback'.congr rfl rfl (fun _ => hactive))
    have hc : { p.handoff with sync := .catchingUp snapshotLsn }.Consistent :=
      h.recorded.toConsistent.congr rfl rfl rfl ⟨lsn, hle, hphase⟩
    have hnone := h.applySide.not_concerns hback
    have hs := h.syncSide
    have hsnapshot := hs.snapshot_eq snapshotLsn (by rw [hsync]; rfl)
    have hcopied := hs.copied snapshotLsn hsnapshot (.inr (.inr hsync))
    refine ⟨h.recorded.congr hc rfl rfl (fun _ => hactive) (fun _ _ _ heq => heq), ⟨?_, ?_⟩,
      ⟨h.applySide.inv, h.applySide.hooked, ?_, ?_⟩, ⟨?_, hs.mem_wal, ?_, hs.snapshot_le, ?_, ?_,
        by simp, fun hback'' => absurd hback'' hback'⟩⟩
    · exact fun hactive hphase => absurd (.inr ⟨hactive, hphase⟩) hback'
    · exact h.backed.listed_lsn
    · rintro (hready | ⟨-, hready⟩)
      · exact absurd (.inl (by rw [hready]; rfl)) hback
      · simp [hphase] at hready
    · exact fun e he hconcerns => (hnone e he hconcerns).elim
    · exact follows_start (by simp) (hs.snapshot_le snapshotLsn hsnapshot)
    · exact fun lsn' hlsn' => hs.snapshot_eq lsn' (by rw [hsync]; exact hlsn')
    · simp
    · intro snapshotLsn' catchupLsn hcatching hphase'
      obtain rfl := catchingUp.inj hcatching
      obtain rfl : lsn = catchupLsn := by simpa [hphase] using hphase'
      exact ⟨fun e he hconcerns => lt_of_lt_of_le (hcopied e he hconcerns) hle, .inl rfl⟩
  · simp at hstep

/-- A worker that catches up hands the table back at the first position of such a hook that
reaches its target. -/
theorem tryHandback_of_catchup (p : Pipeline ρ) (stored : Bool) {catchupLsn : PgLsn}
    (hphase : p.handoff.worker.phase = .catchup catchupLsn) :
    (p.tryHandback stored = p ∧ ∀ kind lsn, p.sync.dueHook = some (kind, lsn) →
        kind ≠ .afterCommit → lsn < catchupLsn) ∨
      ∃ kind lsn, p.sync.dueHook = some (kind, lsn) ∧ kind ≠ .afterCommit ∧ catchupLsn ≤ lsn ∧
        p.tryHandback stored
          = { p with handoff := p.handoff.tryCompleteCatchup lsn stored, handbackLsn := lsn } := by
  rcases p.tryHandback_cases stored with
    hsame | ⟨kind, catchupLsn', lsn, hdue, hkind, hphase', hreached, heq⟩
  · by_cases hreached : ∃ kind lsn, p.sync.dueHook = some (kind, lsn) ∧ kind ≠ .afterCommit ∧
        catchupLsn ≤ lsn
    · obtain ⟨kind, lsn, hdue, hkind, hle⟩ := hreached
      refine .inr ⟨kind, lsn, hdue, hkind, hle, ?_⟩
      have hanswer : (p.handoff.catchupAnswer lsn).isSome = true := by
        simp [catchupAnswer, hphase, hle]
      unfold Pipeline.tryHandback
      cases kind with
      | afterCommit => exact absurd rfl hkind
      | afterFlush | whenIdle => simp only [hdue, if_pos hanswer]
    · refine .inl ⟨hsame, fun kind lsn hdue hkind => not_le.mp fun hle => ?_⟩
      exact hreached ⟨kind, lsn, hdue, hkind, hle⟩
  · obtain rfl : catchupLsn' = catchupLsn := by simpa [hphase'] using hphase
    exact .inr ⟨kind, lsn, hdue, hkind, hreached, heq⟩

/-- The worker's loop goes on. -/
theorem Split.syncLoop (h : p.Split tableId) (hlooping : p.handoff.sync.isLooping = true)
    (hfollows : sync.Follows p.wal syncCursor)
    (hcatching : ∀ snapshotLsn catchupLsn, p.handoff.sync = .catchingUp snapshotLsn →
      p.handoff.worker.phase = .catchup catchupLsn →
        sync.CatchingUp tableId snapshotLsn catchupLsn)
    (hcompleting : p.handoff.sync = .completing →
      (sync.state.exitIntent.isSome = true ∨ sync.point.isFailed = true) ∧
        ∀ e ∈ sync.producedEvents, e.body.concerns tableId = true → e ∈ p.sync.producedEvents) :
    { p with sync, syncCursor }.Split tableId := by
  have hs := h.syncSide
  refine ⟨h.recorded, h.backed, { h.applySide with }, ⟨hfollows, hs.synced_mem, hs.snapshot_eq, hs.snapshot_le, ?_, ?_, ?_,
    ?_⟩⟩
  · rintro lsn - (hpoint | hpoint | hpoint)
    all_goals simp [show p.handoff.sync = _ from hpoint, isLooping] at hlooping
  · intro snapshotLsn catchupLsn hsync hphase
    exact ⟨(hs.catching snapshotLsn catchupLsn hsync hphase).1,
      hcatching snapshotLsn catchupLsn hsync hphase⟩
  · exact fun hsync => (hcompleting hsync).1
  · intro hback
    have hbefore := rowsBefore_append.mp (hs.handedBack hback)
    have hagrees := h.recorded.agrees
    cases hsync : p.handoff.sync with
    | catchingUp snapshotLsn =>
      rw [hsync] at hagrees
      obtain ⟨lsn, -, hphase⟩ := hagrees
      exact absurd hback (h.recorded.not_handedBack (by simp [hsync]) (by rw [hphase]; rfl))
    | completing =>
      refine rowsBefore_append.mpr ⟨hbefore.1, fun e he hconcerns => ?_⟩
      exact hbefore.2 e ((hcompleting hsync).2 e he hconcerns) hconcerns
    | _ => simp [hsync, isLooping] at hlooping

/-- The table is handed back at a position that everything the worker has produced commits
before, and the loop takes no further message. -/
theorem Split.handback (h : p.Split tableId) {snapshotLsn catchupLsn lsn : PgLsn}
    (hsync : p.handoff.sync = .catchingUp snapshotLsn)
    (hphase : p.handoff.worker.phase = .catchup catchupLsn)
    (hdue : p.sync.dueHook = some (kind, lsn)) (hkind : kind ≠ .afterCommit)
    (hreached : catchupLsn ≤ lsn) (stored : Bool) (hfollows : sync.Follows p.wal syncCursor)
    (hstopped : sync.state.exitIntent.isSome = true ∨ sync.point.isFailed = true)
    (hrows : ∀ e ∈ sync.producedEvents, e.body.concerns tableId = true →
      e ∈ p.sync.producedEvents) :
    { p with
      handoff := p.handoff.tryCompleteCatchup lsn stored
      handbackLsn := lsn
      sync, syncCursor }.Split tableId := by
  have hactive : p.handoff.sync ≠ .inactive := by simp [hsync]
  have hback := h.recorded.not_handedBack hactive (by rw [hphase]; rfl)
  have hnone := h.applySide.not_concerns hback
  have hs := h.syncSide
  obtain ⟨hsynced, hcatching⟩ := hs.catching snapshotLsn catchupLsn hsync hphase
  -- what the worker has produced of the table commits before the handback
  have hbefore := hcatching.rows_lt hs.follows hdue hkind hreached
  have happly := (p.handoff.tryCompleteCatchup_frame lsn stored).1
  have hphase' : (p.handoff.tryCompleteCatchup lsn stored).worker.phase = .syncDone lsn := by
    simp only [tryCompleteCatchup, hphase, if_pos hreached]
    exact (p.handoff.setAndStore_frame _ _).2.2
  have hpoint : (p.handoff.tryCompleteCatchup lsn stored).sync
      = if stored then .completing else .failing false := by
    simp [tryCompleteCatchup, hphase, hreached]
  have hsnapshot : (p.handoff.tryCompleteCatchup lsn stored).sync.snapshot? = none := by
    rw [hpoint]
    cases stored <;> rfl
  have hstore : (p.handoff.tryCompleteCatchup lsn stored).store.current
      = if stored then .syncDone lsn else p.handoff.store.current := by
    simp only [tryCompleteCatchup, hphase, if_pos hreached]
    cases stored <;> rfl
  -- no hook of the apply worker can have listed the phase before it is stored
  have hlisted : ∀ kind' currentLsn lsn', p.handoff.apply ≠ .inHook kind' currentLsn (.syncDone lsn') :=
    fun kind' currentLsn lsn' heq =>
      hback (.inl (h.recorded.listed_back kind' currentLsn _ heq rfl))
  refine ⟨h.recorded.tryCompleteCatchup hactive hphase hreached stored, ⟨?_, ?_⟩,
    ⟨h.applySide.inv, ?_, ?_, ?_⟩, ⟨hfollows, hs.synced_mem, ?_, hs.snapshot_le, ?_, ?_,
      fun _ => hstopped, fun _ => ?_⟩⟩
  · intro _ _
    cases stored with
    | true => exact .inr (by rw [hstore]; rfl)
    | false => exact .inl ⟨false, hpoint⟩
  · exact fun kind' currentLsn lsn' heq => absurd (happly ▸ heq) (hlisted kind' currentLsn lsn')
  · exact fun kind' lsn' listed heq => h.applySide.hooked kind' lsn' listed (happly ▸ heq)
  · rintro (hready | ⟨-, hready⟩)
    · rw [hstore] at hready
      cases stored with
      | true => simp at hready
      | false => exact absurd (.inl (by rw [show p.handoff.store.current = .ready from hready]; rfl)) hback
    · simp [hphase'] at hready
  · exact fun e he hconcerns => (hnone e he hconcerns).elim
  · intro lsn' hlsn'
    simp [hsnapshot] at hlsn'
  · rintro lsn' - (hcopy | hcopy | hcopy)
    all_goals cases stored <;> simp [hpoint] at hcopy
  · exact fun lsn' _ hlsn' => absurd hlsn' (ne_catchingUp hsnapshot lsn')
  · refine rowsBefore_append.mpr ⟨?_, ?_⟩
    · exact fun e he hconcerns => lt_of_lt_of_le (hsynced e he hconcerns) hreached
    · exact fun e he hconcerns => hbefore e (hrows e he hconcerns) hconcerns

theorem fits_of_agrees {ans : MessageAnswers} {owned : Bool} {message : ReplicationMessage ρ}
    (h : ans.agrees tableId owned message = true) : ans.Fits message.relations := by
  simp only [MessageAnswers.agrees, all_cons, Bool.and_eq_true, all_eq_true] at h
  intro relId hrelId schema hschema
  simpa [hschema] using h.2.2 relId hrelId

theorem fits_of_permitsSync (h : p.permitsSync tableId input = true) :
    ∀ ans data, input.answers? = some ans → input.data? = some data →
      ans.Fits data.relations := by
  intro ans data hans hdata
  cases input with
  | message message ans' sizeHint batchSizeBytes writeEvents withinInterval =>
    cases hans
    cases message with
    | primaryKeepAlive walEnd replyRequested => simp [data?] at hdata
    | xLogData walStart walEnd data' =>
      cases hdata
      exact fits_of_agrees h
  | _ => simp [answers?] at hans

theorem answer_of_permitsSync (hpermits : p.permitsSync tableId input = true)
    (hnext : p.sync.next input = some sync) (hdue : p.sync.dueHook = some (kind, lsn)) :
    input.hookAnswer? = some (p.handoff.catchupAnswer lsn) := by
  have hpoint := Session.dueHook_cases hdue
  unfold Session.next at hnext
  cases input with
  | idle exitIntent
  | commitHook exitIntent
  | flushHook exitIntent => simpa [permitsSync, hdue, hookAnswer?] using hpermits
  | fail error => simp [permitsSync] at hpermits
  | _ =>
    rcases hpoint with ⟨-, ⟨hpoint, -⟩ | hpoint, -⟩ | ⟨-, _, _, hpoint⟩ | ⟨-, ⟨_, hpoint⟩, -⟩
    all_goals simp [hpoint] at hnext

/-- No message is taken where a hook is due. -/
theorem rows_of_dueHook {s s' : Session ρ} (hnext : s.next input = some s')
    (hdue : s.dueHook.isSome = true)
    (hfits : ∀ ans data, input.answers? = some ans → input.data? = some data →
      ans.Fits data.relations) :
    ∀ e ∈ s'.producedEvents, e.body.concerns tableId = true → e ∈ s.producedEvents := by
  intro e he hconcerns
  rcases owned_of_next hnext he hconcerns hfits with he | ⟨hpoint, -⟩
  · exact he
  · simp [dueHook, hpoint] at hdue

theorem Split.syncStep [DecidableEq ρ] (h : p.Split tableId)
    (hstep : p.syncStep tableId input = some p') : p'.Split tableId := by
  unfold Pipeline.syncStep at hstep
  split_ifs at hstep with hlooping
  obtain ⟨hlooping, hpermits⟩ := hlooping
  split at hstep
  next syncCursor sync hfollow hnext =>
    cases hstep
    have hfits := fits_of_permitsSync hpermits
    have hfollows := h.syncSide.follows.next hnext hfollow
    have hagrees := h.recorded.agrees
    have hactive : p.handoff.sync ≠ .inactive := by
      intro hinactive
      simp [hinactive, isLooping] at hlooping
    -- the loop goes on, or this step hands the table back
    have hloop : { p.tryHandback true with sync, syncCursor }.Split tableId ∧
        ∀ unwound, (p.tryHandback true).handoff.sync ≠ .failing unwound := by
      cases hsync : p.handoff.sync with
      | catchingUp snapshotLsn =>
        rw [hsync] at hagrees
        obtain ⟨catchupLsn, -, hphase⟩ := hagrees
        have hcatching := (h.syncSide.catching snapshotLsn catchupLsn hsync hphase).2
        rcases p.tryHandback_of_catchup true hphase with
          ⟨hsame, hbelow⟩ | ⟨kind, lsn, hdue, hkind, hreached, heq⟩
        · rw [hsame]
          refine ⟨h.syncLoop hlooping hfollows ?_ (by simp [hsync]), by simp [hsync]⟩
          intro snapshotLsn' catchupLsn' hsync' hphase'
          obtain rfl : snapshotLsn = snapshotLsn' := by simpa [hsync] using hsync'
          obtain rfl : catchupLsn = catchupLsn' := by simpa [hphase] using hphase'
          refine hcatching.next h.syncSide.follows hnext hfits hbelow ?_
          intro lsn hdue hle
          rw [answer_of_permitsSync hpermits hnext hdue]
          simp [catchupAnswer, hphase, hle]
        -- the hook reaches the target: its answer makes the loop exit
        · have hanswer := answer_of_permitsSync hpermits hnext hdue
          simp only [catchupAnswer, hphase, if_pos hreached] at hanswer
          have hdue' : p.sync.dueHook.isSome = true := by rw [hdue]; rfl
          rw [heq]
          refine ⟨h.handback hsync hphase hdue hkind hreached true hfollows
            (exit_of_dueHook hnext hdue' hanswer) (rows_of_dueHook hnext hdue' hfits), ?_⟩
          simp [tryCompleteCatchup, hphase, hreached]
      | completing =>
        rw [hsync] at hagrees
        obtain ⟨lsn, hphase⟩ := hagrees
        have hsame : p.tryHandback true = p := by
          rcases p.tryHandback_cases true with hsame | ⟨_, _, _, _, _, hphase', _⟩
          · exact hsame
          · simp [hphase] at hphase'
        -- after the handback the loop only drains, and produces nothing of the table
        have hexit : p.sync.state.exitIntent.isSome = true := by
          rcases h.syncSide.completing hsync with hexit | hfailed
          · exact hexit
          · simp [isFailed_of_next hnext] at hfailed
        rw [hsame]
        refine ⟨h.syncLoop hlooping hfollows (by simp [hsync]) ?_, by simp [hsync]⟩
        refine fun _ => ⟨.inl (exit_of_next hnext hexit), ?_⟩
        intro e he hconcerns
        rcases owned_of_next hnext he hconcerns hfits with he | ⟨-, hnone, -⟩
        · exact he
        · simp [hnone] at hexit
      | _ => simp [hsync, isLooping] at hlooping
    obtain ⟨hloop, hfailing⟩ := hloop
    split_ifs
    · have hactive' := p.tryHandback_active true hactive
      refine hloop.localStep (hloop.recorded.localStep_frame ?_ rfl rfl (fun _ => hactive')
        (.inl rfl) (.inr rfl)) ?_ (.inr (.inr rfl))
      · exact hloop.recorded.toConsistent.congr rfl rfl rfl trivial
      · exact hloop.backed.keepsBack_sync hfailing rfl rfl rfl (fun _ => hactive')
    · exact hloop
  · simp at hstep

theorem Split.failHandback [DecidableEq ρ] (h : p.Split tableId)
    (hstep : p.failHandback error = some p') : p'.Split tableId := by
  obtain ⟨snapshotLsn, catchupLsn, kind, lsn, sync, hsync, hphase, hdue, hkind, hreached, hnext,
    rfl⟩ := failHandback_eq_some hstep
  have hfollows := h.syncSide.follows.next hnext rfl
  exact h.handback hsync hphase hdue hkind hreached false hfollows
    (.inr (isFailed_of_fail hnext))
    (rows_of_dueHook hnext (by rw [hdue]; rfl) (by simp [answers?]))

/-! ## The apply worker -/

theorem Split.enterHook (h : p.Split tableId) (hstep : p.enterHook = some p') :
    p'.Split tableId := by
  unfold Pipeline.enterHook at hstep
  split at hstep
  next kind lsn happly hhook hdue =>
    cases hstep
    have ha := h.applySide
    have hs := h.syncSide
    have hrecorded := h.recorded.enterHook kind lsn
    unfold Handoff.enterHook at hrecorded ⊢
    split_ifs at hrecorded ⊢ with hdone
    · refine ⟨hrecorded, h.backed, { ha with hooked := ?_ }, { hs with }⟩
      exact fun kind' lsn' listed heq => absurd (happly.symm.trans heq) (by simp)
    · refine ⟨hrecorded, ⟨h.backed.store_back, ?_⟩, { ha with hooked := ?_ },
        { hs with }⟩
      · intro kind' currentLsn lsn' heq
        obtain ⟨-, -, hlisted⟩ := ApplyPoint.inHook.inj heq
        exact h.recorded.store_lsn lsn' hlisted
      · intro kind' lsn' listed heq
        obtain ⟨rfl, rfl, -⟩ := ApplyPoint.inHook.inj heq
        exact ⟨rfl, hdue⟩
  · simp at hstep

theorem Split.applyLoop (h : p.Split tableId) {applyCursor : Cursor ρ} {hook : HookProgress}
    {point : ApplyPoint} (hpoint : ∀ kind lsn listed, point ≠ .inHook kind lsn listed)
    (hinv : apply.Inv) (hceiling : p.apply.sender.ceiling ≤ apply.sender.ceiling)
    (hrows : ∀ e ∈ apply.producedEvents, e.body.concerns tableId = true →
      e ∈ p.apply.producedEvents ∨ p.handoff.HandedBack ∧ p.handbackLsn ≤ e.commitLsn) :
    { p with
      handoff := { p.handoff with apply := point }
      apply, applyCursor, hook }.Split tableId := by
  have ha := h.applySide
  have hs := h.syncSide
  refine ⟨?_, (h.backed.keepsBack_apply hpoint).backed, ⟨hinv, ?_, ?_, ?_⟩, { hs with }⟩
  · exact h.recorded.congr (h.recorded.toConsistent.congr rfl rfl rfl h.recorded.agrees) rfl rfl
      id (fun kind lsn listed heq => absurd heq (hpoint kind lsn listed))
  · exact fun kind lsn listed heq => absurd heq (hpoint kind lsn listed)
  · exact fun hready => le_trans (ha.ready_le hready) hceiling
  · intro e he hconcerns
    rcases mem_append.mp he with he | he
    · exact ha.rows_ge e (mem_append_left _ he) hconcerns
    · rcases hrows e he hconcerns with he | hrow
      · exact ha.rows_ge e (mem_append_right _ he) hconcerns
      · exact hrow

theorem Split.interruptHook (h : p.Split tableId) (hstep : p.interruptHook = some p') :
    p'.Split tableId := by
  obtain rfl := interruptHook_eq hstep
  exact h.applyLoop (by simp) h.applySide.inv le_rfl (fun _ he _ => .inl he)

/-- The apply worker owns a change of the table only after the handback and from its position
on. -/
theorem Split.handedBack_of_owned (h : p.Split tableId) {commitLsn : PgLsn}
    (hopen : p.apply.sender.openCommit = some commitLsn)
    (howned : p.handoff.shouldApplyChanges commitLsn = true) :
    p.handoff.HandedBack ∧ p.handbackLsn ≤ commitLsn := by
  have hceiling : p.apply.sender.ceiling = commitLsn := by
    simp [WalSender.ceiling, hopen]
  unfold shouldApplyChanges getActiveWorkerState at howned
  by_cases hactive : p.handoff.sync = .inactive
  · simp only [if_pos hactive] at howned
    cases hphase : p.handoff.store.current with
    | ready =>
      have hready : p.handoff.IsReady := .inl hphase
      exact ⟨.inl (by rw [hphase]; rfl), hceiling ▸ h.applySide.ready_le hready⟩
    | syncDone lsn =>
      simp only [hphase, isReadyForChanges, decide_eq_true_eq] at howned
      exact ⟨.inl (by rw [hphase]; rfl), h.recorded.store_lsn lsn hphase ▸ howned⟩
    | _ => simp [hphase, isReadyForChanges] at howned
  · simp only [if_neg hactive] at howned
    cases hphase : p.handoff.worker.phase with
    | ready =>
      have hready : p.handoff.IsReady := .inr ⟨hactive, hphase⟩
      exact ⟨.inr ⟨hactive, by rw [hphase]; rfl⟩, hceiling ▸ h.applySide.ready_le hready⟩
    | syncDone lsn =>
      simp only [hphase, isReadyForChanges, decide_eq_true_eq] at howned
      exact ⟨.inr ⟨hactive, by rw [hphase]; rfl⟩,
        h.recorded.worker_lsn hactive lsn hphase ▸ howned⟩
    | _ => simp [hphase, isReadyForChanges] at howned

/-- A change of the table that the apply worker takes comes after the handback. -/
theorem Split.rows_of_applyStep (h : p.Split tableId)
    (hpermits : p.permitsApply tableId input = true) (hnext : p.apply.next input = some apply)
    {e : Event ρ} (he : e ∈ apply.producedEvents) (hconcerns : e.body.concerns tableId = true) :
    e ∈ p.apply.producedEvents ∨ p.handoff.HandedBack ∧ p.handbackLsn ≤ e.commitLsn := by
  cases input with
  | message message ans sizeHint batchSizeBytes writeEvents withinInterval =>
    simp only [permitsApply, Bool.and_eq_true] at hpermits
    have hfits : ∀ ans' data, some ans = some ans' → data? (.message message ans sizeHint
        batchSizeBytes writeEvents withinInterval) = some data → ans'.Fits data.relations := by
      intro ans' data hans hdata
      cases hans
      cases message with
      | primaryKeepAlive walEnd replyRequested => simp [data?] at hdata
      | xLogData walStart walEnd data' =>
        cases hdata
        exact fits_of_agrees hpermits.2
    rcases owned_of_next hnext he hconcerns hfits with
      he | ⟨hpoint, -, hfinal, ans', hans, howned⟩
    · exact .inl he
    · cases hans
      have hagrees := hpermits.2
      simp only [MessageAnswers.agrees, howned, hfinal, Bool.and_eq_true,
        decide_eq_true_eq] at hagrees
      exact .inr (h.handedBack_of_owned ((h.applySide.inv.open_eq hpoint).trans hfinal)
        hagrees.1.symm)
  | _ =>
    rcases owned_of_next hnext he hconcerns (by simp [answers?]) with
      he | ⟨-, -, -, ans', hans, -⟩
    · exact .inl he
    · simp [answers?] at hans

theorem Split.applyStep [DecidableEq ρ] (h : p.Split tableId)
    (hstep : p.applyStep tableId input = some p') : p'.Split tableId := by
  obtain ⟨-, hpermits, applyCursor, apply, -, hnext, rfl⟩ := applyStep_eq_some hstep
  refine h.applyLoop ?_ (inv_next h.applySide.inv hnext) (ceiling_of_next hnext) ?_
  · split_ifs <;> simp
  · exact fun e he hconcerns => h.rows_of_applyStep hpermits hnext he hconcerns

theorem Split.failApply (h : p.Split tableId) (hstep : p.failApply error = some p') :
    p'.Split tableId := by
  obtain ⟨apply, hnext, rfl⟩ := Option.map_eq_some_iff.mp hstep
  refine h.applyLoop (by simp) (inv_next h.applySide.inv hnext)
    (ceiling_of_next hnext) ?_
  intro e he hconcerns
  rcases owned_of_next hnext he hconcerns (by simp [answers?]) with
    he | ⟨-, -, -, ans', hans, -⟩
  · exact .inl he
  · simp [answers?] at hans

theorem Split.confirmFlush (h : p.Split tableId) (slotLsn : PgLsn) :
    { p with slotLsn }.Split tableId :=
  ⟨h.recorded, h.backed, { h.applySide with }, { h.syncSide with }⟩

/-! ## Whole runs -/

theorem Split.next [DecidableEq ρ] (h : p.Split tableId) {input : PipelineInput ρ}
    (hguard : p.Unretried input) (hnext : p.next tableId maxAttempts input = some p') :
    p'.Split tableId := by
  cases input with
  | commitTx tx =>
    obtain ⟨wal, hcommit, rfl⟩ := Option.map_eq_some_iff.mp hnext
    exact h.extend (Wal.extends_commit hcommit)
  | advanceWal lsn =>
    cases hnext
    exact h.extend (p.wal.extends_advance lsn)
  | worker input =>
    have herror : input.recordsError = false := hguard
    simp only [Pipeline.next] at hnext
    split_ifs at hnext with hlocal
    obtain ⟨handoff, hstep, rfl⟩ := Option.map_eq_some_iff.mp hnext
    exact h.localStep (h.recorded.localStep_of_next hlocal (by simp [herror]) hstep)
      (h.backed.keepsBack_of_next h.recorded hlocal herror hstep)
      (sync_of_next hlocal hstep)
  | prepareCopy stored =>
    obtain ⟨handoff, hstep, rfl⟩ := Option.map_eq_some_iff.mp hnext
    cases step_of_next hstep with
    | prepareCopy _ hsync => exact h.prepareCopy hsync stored
  | createSlot lsn => exact h.createSlot hnext
  | finishCopy stored => exact h.finishCopy hnext
  | startCatchup => exact h.startCatchup hnext
  | sync input => exact h.syncStep hnext
  | failHandback error => exact h.failHandback hnext
  | enterHook => exact h.enterHook hnext
  | interruptHook => exact h.interruptHook hnext
  | apply input => exact h.applyStep hnext
  | failApply error => exact h.failApply hnext
  | restartApply | crash => simp [Unretried, PipelineInput.restarts] at hguard
  | confirmFlush lsn =>
    simp only [Pipeline.next] at hnext
    split_ifs at hnext
    cases hnext
    exact h.confirmFlush _

theorem split_started {phase : TableReplicationPhase} (hphase : phase.asType.shouldStore = true)
    {startLsn slotLsn : PgLsn} {durableProgress : Option PgLsn}
    (hdurable : ∀ durable, durableProgress = some durable → durable ≤ startLsn) :
    (started phase wal startLsn durableProgress slotLsn).Split tableId := by
  have hinactive : (started phase wal startLsn durableProgress slotLsn).handoff.sync = .inactive :=
    rfl
  refine ⟨⟨⟨trivial, ⟨hphase, by simp [started, startedWith], rfl⟩, rfl⟩,
      fun hactive => absurd rfl hactive, ?_, fun hactive => absurd rfl hactive,
      fun hactive => absurd rfl hactive, by simp [started, startedWith], by simp [started]⟩,
    ⟨fun hactive => absurd rfl hactive, by simp [started]⟩,
    ⟨inv_start startLsn hdurable, by simp [started], ?_, ?_⟩,
    ⟨follows_start (by simp) (Nat.zero_le _), by simp [started], ?_, by simp [started],
      by simp [started], ?_, ?_, ?_⟩⟩
  · intro lsn hlsn
    obtain rfl : phase = .syncDone lsn := hlsn
    rfl
  · rintro (hready | ⟨hactive, -⟩)
    · obtain rfl : phase = .ready := hready
      exact Nat.zero_le _
    · exact absurd rfl hactive
  · simp [appliedEvents, started, start, producedEvents]
  · simp [hinactive, snapshot?]
  · simp [hinactive]
  · simp [hinactive]
  · intro _ e he
    simp [syncedEvents, started, start, producedEvents] at he

end Pipeline

theorem split_of_reachable [DecidableEq ρ] {p : Pipeline ρ} {tableId : TableId} {maxAttempts : ℕ}
    {phase : TableReplicationPhase}
    (hp : (pipelineMachine ρ tableId maxAttempts phase).ReachableUnder Pipeline.Unretried p) :
    p.Split tableId := by
  refine hp.invariant (I := fun p => p.Split tableId) ?_ ?_
  · rintro p ⟨hphase, wal, startLsn, durableProgress, slotLsn, -, -, hdurable, rfl⟩
    exact Pipeline.split_started hphase hdurable
  · intro p input p' h hguard hnext
    exact h.next hguard hnext

/-- In every run without retries and restarts, no change of the table is handed to the destination
by both workers. -/
theorem change_written_by_one_worker [DecidableEq ρ] {p : Pipeline ρ} {tableId : TableId}
    {maxAttempts : ℕ} {phase : TableReplicationPhase}
    (hp : (pipelineMachine ρ tableId maxAttempts phase).ReachableUnder Pipeline.Unretried p)
    (commitLsn : PgLsn) (record : WalRecord ρ) :
    ¬(Writes tableId p.syncedEvents commitLsn record ∧
      Writes tableId p.appliedEvents commitLsn record) :=
  (split_of_reachable hp).exclusive commitLsn record

/-- The position a table is handed back at separates the two workers. In every run without retries
and restarts, the table-sync worker has what commits from the snapshot up to it acknowledged, and
the apply worker has not produced any of it. What commits later is not produced by the table-sync
worker, and acknowledged to the apply worker once its progress has passed it. -/
theorem handback_separates_workers [DecidableEq ρ] {p : Pipeline ρ} {tableId : TableId}
    {maxAttempts : ℕ}
    (hp : (pipelineMachine ρ tableId maxAttempts .init).ReachableUnder Pipeline.Unretried p)
    (hback : p.handoff.HandedBack) :
    ∃ snapshotLsn, p.snapshot = some snapshotLsn ∧ ∀ tx ∈ p.wal.txs,
      snapshotLsn ≤ tx.commitLsn → ∀ record ∈ tx.records, record.change.concerns tableId = true →
      (tx.commitLsn < p.handbackLsn →
        Writes tableId p.sync.acked tx.commitLsn record ∧
          ¬Writes tableId p.appliedEvents tx.commitLsn record) ∧
      (p.handbackLsn ≤ tx.commitLsn →
        ¬Writes tableId p.syncedEvents tx.commitLsn record ∧
          ∀ durable, p.apply.durableProgress = some durable → tx.commitLsn < durable →
            Writes tableId (p.applied ++ p.apply.acked) tx.commitLsn record) := by
  have hsplit := split_of_reachable hp
  -- A step that restarts nothing records no error.
  have hsafe : p.Safe tableId := safe_of_reachable <| hp.invariant (fun _ hinit => .init hinit)
    fun _ input _ hreach hguard hnext => .step hreach (fun herror => by
      cases input <;> simp_all [PipelineInput.recordsError, Pipeline.Unretried,
        PipelineInput.restarts]) hnext
  obtain ⟨snapshotLsn, hsnapshot, hwrites⟩ := hsafe.caughtUp hback
  refine ⟨snapshotLsn, hsnapshot, fun tx htx hafter record hrecord hconcerns => ⟨?_, ?_⟩⟩
  · intro hbefore
    refine ⟨hwrites tx htx hafter hbefore record hrecord hconcerns, ?_⟩
    rintro ⟨e, he, -, hcommit, hcarried⟩
    have hge := (hsplit.applySide.rows_ge e he hcarried.concerns).2
    exact absurd (hcommit ▸ hge) (not_le.mpr hbefore)
  · intro hfrom
    refine ⟨?_, fun durable hdurable hpassed => ?_⟩
    · rintro ⟨e, he, -, hcommit, hcarried⟩
      have hlt := hsplit.syncSide.handedBack hback e he hcarried.concerns
      exact absurd hfrom (not_le.mpr (hcommit ▸ hlt))
    · have hle := hsafe.applied.inv.stopped.durable_le durable hdurable
      exact hsafe.applied.writes_of_position mem_cons_self htx ⟨hback, hfrom⟩
        (lt_of_lt_of_le hpassed hle) hrecord hconcerns

/-! ## A change on each side of the handback -/

/-- A transaction that commits after the copy and before the handback. -/
def caughtUpTx : WalTx Unit := ⟨15, 18, [⟨12, .row .insert 1 ()⟩]⟩

/-- A worker streams that transaction up to its commit. -/
def streamCaughtUpTx (step : LoopInput Unit → PipelineInput Unit) (owned : Bool) :
    List (PipelineInput Unit) :=
  [step (usersMessage owned (.xLogData 11 11 (.begin 15))), step (.idle none), step (.idle none),
    step (usersMessage owned (.xLogData 12 12 (.row .insert 1 ()))), step (.idle none),
    step (.idle none), step (usersMessage owned (.xLogData 15 18 (.commit 15 18)))]

/-- The apply worker skips the change that commits after the copy, and the table-sync worker
writes it before it hands the table back at 18. The apply worker writes the next one. -/
def changesOnBothSides : List (PipelineInput Unit) :=
  [.enterHook, .worker (.processTable true), .apply (.idle none), .worker .startTableSync,
    .prepareCopy true, .createSlot 10, .finishCopy true, .worker .announceSyncWait,
    .commitTx caughtUpTx] ++ streamCaughtUpTx .apply false ++
  [.enterHook, .worker (.processTable true), .startCatchup, .sync (.idle none)] ++
    streamCaughtUpTx .sync true ++
  [.sync (.commitHook (some .complete) 10 1000 (.ok ())), .sync (.idle none), .sync (.idle none),
    .sync (.flushResult (.ok ()) (.ok ()) (.ok ())), .sync (.flushHook (some .complete) (.ok ())),
    .sync (.idle none), .worker .finishWorker, .worker .observeHandback,
    .apply (.commitHook none 10 1000 (.ok ())), .apply (.idle none), .apply (.idle none),
    .apply (.flushDeadline (.ok ())), .apply (.idle none), .apply (.idle none),
    .apply (.flushResult (.ok ()) (.ok ()) (.ok ())), .enterHook, .worker (.processTable true),
    .apply (.flushHook none (.ok ())), .enterHook, .apply (.idle none), .enterHook,
    .apply (.idle none)] ++ insertedAndFlushed true

theorem change_written_by_one_worker_both_sides :
    ∃ p, ((pipelineMachine Unit 1 3 .init).restrict Pipeline.Unretried).run
        (.started .init (.empty 10) 10 none 10) changesOnBothSides = some p ∧
      p.syncedEvents.map (·.startLsn) = [11, 12, 15] ∧
      p.appliedEvents.map (·.startLsn) = [11, 15, 24, 25, 30] ∧
      ∀ commitLsn record, ¬(Writes 1 p.syncedEvents commitLsn record ∧
        Writes 1 p.appliedEvents commitLsn record) := by
  have hrun : (((pipelineMachine Unit 1 3 .init).restrict Pipeline.Unretried).run
      (.started .init (.empty 10) 10 none 10) changesOnBothSides).map
        (fun p => (p.syncedEvents.map (·.startLsn), p.appliedEvents.map (·.startLsn)))
        = some ([11, 12, 15], [11, 15, 24, 25, 30]) := rfl
  obtain ⟨p, hp, hobserve⟩ := Option.map_eq_some_iff.mp hrun
  obtain ⟨hsynced, happlied⟩ := Prod.mk.inj hobserve
  have hstart : (pipelineMachine Unit 1 3 .init).ReachableUnder Pipeline.Unretried
      (.started .init (.empty 10) 10 none 10) :=
    .init ⟨rfl, .empty 10, 10, none, 10, le_rfl, le_rfl, by simp, rfl⟩
  exact ⟨p, hp, hsynced, happlied,
    change_written_by_one_worker (hstart.run changesOnBothSides hp)⟩

theorem handback_separates_workers_both_sides :
    ∃ p, ((pipelineMachine Unit 1 3 .init).restrict Pipeline.Unretried).run
        (.started .init (.empty 10) 10 none 10) changesOnBothSides = some p ∧
      p.observe = (.ready, 18, some 40, some 10, [caughtUpTx, insertTx]) ∧
      Writes 1 p.sync.acked 15 ⟨12, .row .insert 1 ()⟩ ∧
      Writes 1 (p.applied ++ p.apply.acked) 30 ⟨25, .row .insert 1 ()⟩ := by
  have hrun : (((pipelineMachine Unit 1 3 .init).restrict Pipeline.Unretried).run
      (.started .init (.empty 10) 10 none 10) changesOnBothSides).map Pipeline.observe
        = some (.ready, 18, some 40, some 10, [caughtUpTx, insertTx]) := rfl
  obtain ⟨p, hp, hobserve⟩ := Option.map_eq_some_iff.mp hrun
  obtain ⟨hstore, hlsn, hdurable, hsnapshot, htxs⟩ : p.handoff.store.current = .ready ∧
      p.handbackLsn = 18 ∧ p.apply.durableProgress = some 40 ∧ p.snapshot = some 10 ∧
      p.wal.txs = [caughtUpTx, insertTx] := by
    simpa [Pipeline.observe] using hobserve
  have hstart : (pipelineMachine Unit 1 3 .init).ReachableUnder Pipeline.Unretried
      (.started .init (.empty 10) 10 none 10) :=
    .init ⟨rfl, .empty 10, 10, none, 10, le_rfl, le_rfl, by simp, rfl⟩
  obtain ⟨snapshotLsn, hsnapshot', hwrites⟩ :=
    handback_separates_workers (hstart.run changesOnBothSides hp) (.inl (by rw [hstore]; rfl))
  cases hsnapshot.symm.trans hsnapshot'
  have hbefore := hwrites caughtUpTx (by simp [htxs]) (by decide) _ mem_cons_self rfl
  have hafter := hwrites insertTx (by simp [htxs]) (by decide) _ mem_cons_self rfl
  rw [hlsn] at hbefore hafter
  exact ⟨p, hp, hobserve, (hbefore.1 (by decide)).1,
    (hafter.2 (by decide)).2 40 hdurable (by decide)⟩

end Etl
