import Etl.Common.Transition
import Etl.Workers.Phase

/-! # Waiting for a phase

Tasks share the state of a table-sync worker behind a mutex. A task that has the lock may set
the phase and then notifies every future that exists. A waiter that finds none of its target
phases creates its future before it drops the lock, and parks. So no wake-up is lost
(`no_lost_wakeup`), in whatever order tasks check, notify and park.

Reference: `etl/src/workers/table_sync.rs` (`wait_for_phase_type`).
-/

namespace Etl.PhaseChange

/-- Where a task is. -/
inductive TaskPoint where
  | idle
  | locking (targets : List TableReplicationPhaseType)
  | locked (targets : List TableReplicationPhaseType)
  /-- The phase is none of the targets, and there is no future yet. -/
  | checked (targets : List TableReplicationPhaseType)
  | listening (targets : List TableReplicationPhaseType) (notified : Bool)
  | parked (targets : List TableReplicationPhaseType) (notified : Bool)
  /-- The task has the guard, which `wait_for_phase_type` also returns. -/
  | holding
  /-- In `set`, between the assignment and the notification. -/
  | setting

namespace TaskPoint

def notify : TaskPoint → TaskPoint
  | listening targets _ => listening targets true
  | parked targets _ => parked targets true
  | point => point

def hasLock : TaskPoint → Bool
  | idle | locking _ | parked _ _ => false
  | _ => true

/-- The targets of a waiter that has checked the phase and is not notified. -/
def awaits : TaskPoint → Option (List TableReplicationPhaseType)
  | checked targets => some targets
  | listening targets notified | parked targets notified => if notified then none else some targets
  | _ => none

theorem hasLock_notify (point : TaskPoint) : point.notify.hasLock = point.hasLock := by
  cases point <;> rfl

/-- A notification misses only waiters without a future, which have the lock. -/
theorem hasLock_of_awaits {point : TaskPoint} (h : point.notify.awaits.isSome = true) :
    point.hasLock = true := by
  cases point <;> first | rfl | cases h

end TaskPoint

/-- The phase, the task that has the lock, and where the tasks are. -/
structure State where
  phase : TableReplicationPhase
  lock : Option ℕ
  tasks : ℕ → TaskPoint

inductive Input where
  | waitForPhaseType (targets : List TableReplicationPhaseType)
  | lock
  | check
  | notified
  | drop
  | set (phase : TableReplicationPhase)
  | notifyWaiters
  | wake
  | shutdown

namespace State

open TaskPoint

def goTo (s : State) (lock : Option ℕ) (task : ℕ) (point : TaskPoint) : State :=
  { s with lock, tasks := fun other => if other = task then point else s.tasks other }

/-- One step of a task. -/
def next (s : State) (task : ℕ) (input : Input) : Option State :=
  match input, s.tasks task with
  | .waitForPhaseType targets, .idle => some (s.goTo s.lock task (.locking targets))
  | .lock, .idle => if s.lock = none then some (s.goTo (some task) task .holding) else none
  | .lock, .locking targets =>
    if s.lock = none then some (s.goTo (some task) task (.locked targets)) else none
  | .check, .locked targets =>
    some (s.goTo s.lock task (if s.phase.asType ∈ targets then .holding else .checked targets))
  | .notified, .checked targets => some (s.goTo s.lock task (.listening targets false))
  | .drop, .listening targets notified => some (s.goTo none task (.parked targets notified))
  | .drop, .holding => some (s.goTo none task .idle)
  | .set phase, .holding => some { s.goTo s.lock task .setting with phase }
  | .notifyWaiters, .setting =>
    some { s with tasks := fun other => if other = task then .holding else (s.tasks other).notify }
  | .wake, .parked targets true => some (s.goTo s.lock task (.locking targets))
  | .shutdown, .parked _ _ => some (s.goTo s.lock task .idle)
  | _, _ => none

/-- The lock is exclusive, and a waiter that is not notified waits for another phase or is about
to be notified. -/
structure Inv (s : State) : Prop where
  locked : ∀ task, (s.tasks task).hasLock = true → s.lock = some task
  waits : ∀ task targets, (s.tasks task).awaits = some targets →
    s.phase.asType ∉ targets ∨ ∃ writer, s.tasks writer = .setting

variable {s s' : State} {task : ℕ} {point : TaskPoint} {lock : Option ℕ} {input : Input}

/-- Steps outside of `set`. -/
theorem Inv.goTo (h : s.Inv) (hpoint : s.tasks task ≠ .setting)
    (hlock : ∀ other ≠ task, (s.tasks other).hasLock = true → lock = some other)
    (hown : point.hasLock = true → lock = some task)
    (hwaits : ∀ targets, point.awaits = some targets →
      s.phase.asType ∉ targets ∨ (s.tasks task).awaits = some targets) :
    (s.goTo lock task point).Inv := by
  have hwas := h.waits
  unfold State.goTo
  constructor <;> dsimp only <;> grind

theorem Inv.next (h : s.Inv) (hnext : s.next task input = some s') : s'.Inv := by
  have hlocked := h.locked
  unfold State.next at hnext
  split at hnext
  case h_8 phase hpoint =>
    -- everybody else is about to be notified
    cases hnext
    refine ⟨?_, fun other targets _ => .inr ⟨task, by simp [State.goTo]⟩⟩
    dsimp only [State.goTo]
    grind [hasLock]
  case h_9 hpoint =>
    cases hnext
    constructor <;> dsimp only <;>
      grind [hasLock, awaits, hasLock_notify, hasLock_of_awaits]
  all_goals try split_ifs at hnext
  all_goals cases hnext
  all_goals refine h.goTo (by simp_all) ?_ ?_ ?_ <;> grind [hasLock, awaits]

end State

def machine (phase : TableReplicationPhase) : Machine State (ℕ × Input) where
  init s := s = ⟨phase, none, fun _ => .idle⟩
  next s input := s.next input.1 input.2

theorem inv_of_reachable {phase : TableReplicationPhase} {s : State}
    (hs : (machine phase).Reachable s) : s.Inv := by
  refine hs.invariant ?_ fun s input s' h hnext => h.next hnext
  rintro s rfl
  exact ⟨nofun, nofun⟩

/-- In every reachable state a parked waiter that is not notified while the phase is one of its
targets is about to be: the task that has the lock is in `set`, and its next step notifies the
waiter. -/
theorem no_lost_wakeup {phase : TableReplicationPhase} {s : State}
    (hs : (machine phase).Reachable s) {task : ℕ} {targets : List TableReplicationPhaseType}
    (hparked : s.tasks task = .parked targets false) (hreached : s.phase.asType ∈ targets) :
    ∃ writer s', s.lock = some writer ∧ s.next writer .notifyWaiters = some s' ∧
      s'.tasks task = .parked targets true := by
  have h := inv_of_reachable hs
  obtain hnot | ⟨writer, hwriter⟩ := h.waits task targets (by rw [hparked]; rfl)
  · exact absurd hreached hnot
  have hne : task ≠ writer := by
    rintro rfl
    cases hparked.symm.trans hwriter
  have hlock := h.locked writer (by rw [hwriter]; rfl)
  refine ⟨writer, _, hlock, by simp only [State.next, hwriter]; rfl, ?_⟩
  simp [hne, hparked, TaskPoint.notify]

/-- A waiter parks, and another task sets the phase. -/
def parkedAndSet : List (ℕ × Input) :=
  [(0, .waitForPhaseType [.syncWait]), (0, .lock), (0, .check), (0, .notified), (0, .drop),
    (1, .lock), (1, .set (.syncWait 5))]

theorem no_lost_wakeup_set :
    ∃ s, (machine .finishedCopy).run ⟨.finishedCopy, none, fun _ => .idle⟩ parkedAndSet = some s ∧
      ∃ writer s', s.lock = some writer ∧ s.next writer .notifyWaiters = some s' ∧
        s'.tasks 0 = .parked [.syncWait] true :=
  ⟨_, rfl, no_lost_wakeup (.run (m := machine .finishedCopy) (.init rfl) parkedAndSet rfl) rfl
    (by decide)⟩

end Etl.PhaseChange
