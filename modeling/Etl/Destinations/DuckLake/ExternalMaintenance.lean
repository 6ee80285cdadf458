import Etl.Common.Transition
import Mathlib.Data.Option.Basic

/-! # Pauses for external maintenance

The watcher that pauses foreground mutations while a maintenance job works on the catalog. The
controller of the job writes a pause request, with a run identifier and an expiry, into a shared
store. The watcher polls the store, takes the exclusive mutation guard for the run, and then reports
`Quiesced` for it, which tells the controller that the job may start. Between any two steps of the
watcher the controller may change the request, time may pass, and the process may be restarted.
Reads may fail, and a write that is given up may have taken effect, may take effect later, or never.

The job is safe while the guard is held for the run whose pause request is live and for which the
store shows `Quiesced` (`Guarded`). A restart drops the guard and leaves the status behind, and a
pause whose expiry is moved is still dropped at the expiry that was read first
(`quiesced_without_guard`). Without such restarts, and as long as an expiry the watcher goes by is
not over before the one in the store, the guard is always held (`guarded_of_careful`).

Reference: `etl-destinations/src/ducklake/external_maintenance.rs`
(`run_external_maintenance_watcher`).
-/

namespace Etl.DuckLake.ExternalMaintenance

open List

structure ExternalMaintenancePause where
  runId : String
  expiresAt : ℕ
  deriving DecidableEq, Repr

/-- What the replicator does. -/
inductive ExternalMaintenanceReplicatorState where
  | running | pausing | quiesced
  deriving DecidableEq, Repr

structure ExternalMaintenanceReplicatorStatus where
  state : ExternalMaintenanceReplicatorState
  observedRunId : Option String
  quiescedAt : Option ℕ
  deriving DecidableEq, Repr

/-- The shared state. -/
structure ExternalMaintenanceState where
  pauseRequest : Option ExternalMaintenancePause := none
  replicator : Option ExternalMaintenanceReplicatorStatus := none
  deriving DecidableEq, Repr

/-- A pause that the watcher holds; the guard itself is part of the process. -/
structure HeldPause where
  runId : String
  expiresAt : ℕ
  quiescedAt : ℕ
  quiescedReported : Bool
  deriving DecidableEq, Repr

/-- Where the watcher is between two steps. -/
inductive Phase where
  /-- Sleeping before the next read. -/
  | polling
  /-- The state was read, or found missing. -/
  | loaded (state : Option ExternalMaintenanceState)
  /-- The read failed or timed out. -/
  | loadFailed
  /-- Reporting that mutations run again, before the next pause if there is one. -/
  | reportingRunning (next : Option ExternalMaintenancePause)
  /-- Clearing the status of a state that disappeared. -/
  | clearingStatus
  | reportingPausing (pause : ExternalMaintenancePause)
  /-- Waiting for foreground mutations to drain. -/
  | acquiring (pause : ExternalMaintenancePause)
  /-- The guard is taken. -/
  | acquired (pause : ExternalMaintenancePause)
  | reportingQuiesced (pause : ExternalMaintenancePause) (quiescedAt : ℕ)
  /-- Reporting again for a pause that is held. -/
  | reportingHeld
  deriving DecidableEq, Repr

/-- How the write of a status ends: it is confirmed, rejected, given up after it took effect, or
given up while it is still on its way. -/
inductive WriteOutcome where
  | confirmed | rejected | applied | late
  deriving DecidableEq, Repr

/-- The replicator, the store and the writes on their way. The runs requested so far are kept for
the record. -/
structure State where
  clock : ℕ := 0
  store : Option ExternalMaintenanceState := none
  writes : List (Option ExternalMaintenanceReplicatorStatus) := []
  phase : Phase := .polling
  heldPause : Option HeldPause := none
  /-- The run for which the exclusive mutation guard is held. -/
  guard : Option String := none
  requested : List String := []
  deriving DecidableEq, Repr

/-- What can happen. -/
inductive Label where
  | tick
  | createState
  | deleteState
  | requestPause (pause : ExternalMaintenancePause)
  | clearPause
  /-- A write that was given up takes effect. -/
  | land (index : ℕ)
  | load (succeeds : Bool)
  /-- The watcher acts on what it read, or on the guard it got. -/
  | proceed
  | write (outcome : WriteOutcome)
  | acquire
  | restart
  deriving DecidableEq, Repr

namespace State

def setReplicator (s : State) (status : Option ExternalMaintenanceReplicatorStatus) : State :=
  { s with store := s.store.map fun state => { state with replicator := status } }

/-- Sends the write of a status. -/
def send (s : State) (status : Option ExternalMaintenanceReplicatorStatus) :
    WriteOutcome → State
  | .confirmed | .applied => s.setReplicator status
  | .rejected => s
  | .late => { s with writes := s.writes ++ [status] }

/-- Drops the pause with its guard. -/
def releaseHeldPause (s : State) : State := { s with heldPause := none, guard := none }

/-- Brings the guard in line with the pause request that was read. -/
def reconcilePause (s : State) (state : ExternalMaintenanceState) : State :=
  match state.pauseRequest.filter (s.clock < ·.expiresAt) with
  | none =>
    match s.heldPause with
    | some _ => { s.releaseHeldPause with phase := .reportingRunning none }
    | none => { s with phase := .polling }
  | some pause =>
    match s.heldPause with
    | some held =>
      if held.runId = pause.runId then
        if !held.quiescedReported then { s with phase := .reportingHeld }
        else { s with phase := .polling }
      else { s.releaseHeldPause with phase := .reportingRunning (some pause) }
    | none => { s with phase := .reportingPausing pause }

/-- Drops the pause when the store is gone. -/
def releaseMissingStatePause (s : State) : State :=
  match s.heldPause with
  | some _ => { s.releaseHeldPause with phase := .clearingStatus }
  | none => { s with phase := .polling }

/-- Drops the pause when the store cannot be read and the expiry that was read before is over. -/
def releaseExpiredPauseIfNeeded (s : State) : State :=
  match s.heldPause with
  | some held =>
    if s.clock < held.expiresAt then { s with phase := .polling }
    else { s.releaseHeldPause with phase := .reportingRunning none }
  | none => { s with phase := .polling }

/-- Checks the expiry once the guard is taken. -/
def checkQuiesced (s : State) (pause : ExternalMaintenancePause) : State :=
  if pause.expiresAt ≤ s.clock then
    { s.releaseHeldPause with phase := .reportingRunning none }
  else { s with phase := .reportingQuiesced pause s.clock }

/-- The step of the watcher that follows a read or the guard. -/
def proceed (s : State) : Option State :=
  match s.phase with
  | .loaded none => some s.releaseMissingStatePause
  | .loaded (some state) => some (s.reconcilePause state)
  | .loadFailed => some s.releaseExpiredPauseIfNeeded
  | .acquired pause => some (s.checkQuiesced pause)
  | _ => none

/-- Reports a status and goes on. -/
def report (s : State) (outcome : WriteOutcome) : Option State :=
  match s.phase with
  | .reportingRunning next =>
    let s := s.send (some ⟨.running, none, none⟩) outcome
    some { s with
      phase := match next with
        | some pause => .reportingPausing pause
        | none => .polling }
  | .clearingStatus => some { s.send none outcome with phase := .polling }
  | .reportingPausing pause =>
    some { s.send (some ⟨.pausing, some pause.runId, none⟩) outcome with
      phase := .acquiring pause }
  | .reportingQuiesced pause quiescedAt =>
    some { s.send (some ⟨.quiesced, some pause.runId, some quiescedAt⟩) outcome with
      phase := .polling
      heldPause := some ⟨pause.runId, pause.expiresAt, quiescedAt, outcome = .confirmed⟩ }
  | .reportingHeld =>
    s.heldPause.map fun held =>
      { s.send (some ⟨.quiesced, some held.runId, some held.quiescedAt⟩) outcome with
        phase := .polling
        heldPause := some { held with quiescedReported := outcome = .confirmed } }
  | _ => none

/-- One step. -/
def next (s : State) : Label → Option State
  | .tick => some { s with clock := s.clock + 1 }
  | .createState => if s.store.isNone then some { s with store := some {} } else none
  | .deleteState => some { s with store := none }
  | .requestPause pause =>
    s.store.map fun state =>
      { s with
        store := some { state with pauseRequest := some pause }
        requested := pause.runId :: s.requested }
  | .clearPause =>
    s.store.map fun state => { s with store := some { state with pauseRequest := none } }
  | .land index =>
    s.writes[index]?.map fun status =>
      { s.setReplicator status with writes := s.writes.eraseIdx index }
  | .load succeeds =>
    if s.phase = .polling then
      some { s with phase := if succeeds then .loaded s.store else .loadFailed }
    else none
  | .proceed => s.proceed
  | .write outcome => s.report outcome
  | .acquire =>
    match s.phase with
    | .acquiring pause => some { s with phase := .acquired pause, guard := some pause.runId }
    | _ => none
  | .restart => some { s with phase := .polling, heldPause := none, guard := none }

/-- The pause request in the store. -/
def request (s : State) : Option ExternalMaintenancePause := s.store.bind (·.pauseRequest)

/-- The run whose pause request is live. -/
def liveRun (s : State) : Option String :=
  (s.request.filter (s.clock < ·.expiresAt)).map (·.runId)

/-- The status in the store and those that may still get there. -/
def statuses (s : State) : List (Option ExternalMaintenanceReplicatorStatus) :=
  s.store.bind (·.replicator) :: s.writes

/-- The pause whose expiry the watcher goes by when it proceeds. -/
def consulted (s : State) : Option ExternalMaintenancePause :=
  match s.phase with
  | .loaded state => state.bind (·.pauseRequest)
  | .loadFailed => s.heldPause.map fun held => ⟨held.runId, held.expiresAt⟩
  | .acquired pause => some pause
  | _ => none

end State

/-- The run a status shows as quiesced. -/
def quiescedRun (status : Option ExternalMaintenanceReplicatorStatus) : Option String :=
  status.bind fun status => if status.state = .quiesced then status.observedRunId else none

/-- Whenever the store shows the replicator quiesced for the run whose pause request is live, the
guard is held for that run. -/
def Guarded (s : State) : Prop :=
  ∀ run ∈ quiescedRun (s.store.bind (·.replicator)), s.liveRun = some run → s.guard = some run

instance (s : State) : Decidable (Guarded s) :=
  inferInstanceAs (Decidable (∀ run ∈ quiescedRun _, _ → _))

/-- The watcher with its store and controller, from the start. -/
def watcher : Machine State Label where
  init s := s = { clock := s.clock }
  next := State.next

/-- A run is requested again only while its request is live. When the expiry the watcher goes by is
over, so is the one in the store. The process is not restarted while `Quiesced` is shown, or may
still be shown, for a live request. -/
def Careful (s : State) : Label → Prop
  | .requestPause pause => pause.runId ∈ s.requested → s.liveRun = some pause.runId
  | .proceed => ∀ pause ∈ s.consulted, pause.expiresAt ≤ s.clock → s.liveRun ≠ some pause.runId
  | .restart => ∀ status ∈ s.statuses, ∀ run ∈ quiescedRun status, s.liveRun ≠ some run
  | _ => True

instance (s : State) : (l : Label) → Decidable (Careful s l)
  | .requestPause _ => inferInstanceAs (Decidable (_ → _))
  | .proceed => inferInstanceAs (Decidable (∀ pause ∈ s.consulted, _ → _))
  | .restart => inferInstanceAs (Decidable (∀ status ∈ s.statuses, ∀ run ∈ quiescedRun status, _))
  | .tick | .createState | .deleteState | .clearPause | .land _ | .load _ | .write _ | .acquire =>
    inferInstanceAs (Decidable True)

/-! ## What the store shows -/

namespace State

theorem liveRun_eq_some_iff {s : State} {run : String} :
    s.liveRun = some run ↔
      ∃ pause, s.request = some pause ∧ s.clock < pause.expiresAt ∧ pause.runId = run := by
  simp [liveRun, and_assoc]

@[simp] theorem request_setReplicator (s : State)
    (status : Option ExternalMaintenanceReplicatorStatus) :
    (s.setReplicator status).request = s.request := by
  rw [request, request, setReplicator]
  cases s.store <;> rfl

theorem mem_statuses_setReplicator {s : State}
    {written status : Option ExternalMaintenanceReplicatorStatus}
    (hmem : status ∈ (s.setReplicator written).statuses) :
    status = written ∨ status ∈ s.statuses := by
  rw [setReplicator] at hmem
  rw [statuses]
  cases hstore : s.store with
  | none =>
    rw [hstore] at hmem
    exact .inr hmem
  | some state =>
    rw [hstore] at hmem
    exact (mem_cons.mp hmem).imp id (mem_cons_of_mem _)

/-- So is one that is sent, however the write ends. -/
theorem mem_statuses_send {s : State} {sent status : Option ExternalMaintenanceReplicatorStatus}
    {outcome : WriteOutcome} (hmem : status ∈ (s.send sent outcome).statuses) :
    status = sent ∨ status ∈ s.statuses := by
  cases outcome with
  | confirmed | applied => exact mem_statuses_setReplicator hmem
  | rejected => exact .inr hmem
  | late =>
    exact (mem_append.mp hmem).symm.imp mem_singleton.mp id

theorem send_frame (s : State) (status : Option ExternalMaintenanceReplicatorStatus)
    (outcome : WriteOutcome) :
    (s.send status outcome).request = s.request ∧ (s.send status outcome).clock = s.clock ∧
      (s.send status outcome).guard = s.guard ∧
      (s.send status outcome).heldPause = s.heldPause ∧
      (s.send status outcome).requested = s.requested := by
  cases outcome with
  | confirmed | applied => exact ⟨request_setReplicator s status, rfl, rfl, rfl, rfl⟩
  | rejected | late => exact ⟨rfl, rfl, rfl, rfl, rfl⟩

end State

structure StoreInv (s : State) : Prop where
  /-- Requests are recorded. -/
  requested : ∀ pause ∈ s.request, pause.runId ∈ s.requested
  /-- `Quiesced` is shown only for runs that were requested. -/
  shown : ∀ status ∈ s.statuses, ∀ run ∈ quiescedRun status, run ∈ s.requested
  /-- The guard is held while `Quiesced` is shown, or may still be shown, for a live request. -/
  guarded : ∀ status ∈ s.statuses, ∀ run ∈ quiescedRun status, s.liveRun = some run →
    s.guard = some run

namespace StoreInv

variable {s s' : State}

theorem safe (h : StoreInv s) : Guarded s :=
  h.guarded _ mem_cons_self

/-- A step that makes no run live and shows no new status keeps the facts. -/
theorem of_le (h : StoreInv s) (hrequest : ∀ pause ∈ s'.request, pause ∈ s.request)
    (hclock : s.clock ≤ s'.clock)
    (hstatuses : ∀ status ∈ s'.statuses, ∀ run ∈ quiescedRun status,
      ∃ status ∈ s.statuses, quiescedRun status = some run)
    (hguard : s'.guard = s.guard) (hrequested : s'.requested = s.requested) : StoreInv s' where
  requested pause hpause := hrequested ▸ h.requested pause (hrequest pause hpause)
  shown status hmem run hrun := by
    obtain ⟨status, hmem, hrun⟩ := hstatuses status hmem run hrun
    exact hrequested ▸ h.shown status hmem run hrun
  guarded status hmem run hrun hlive := by
    obtain ⟨status, hmem, hrun⟩ := hstatuses status hmem run hrun
    obtain ⟨pause, hpause, hexpires, hid⟩ := State.liveRun_eq_some_iff.mp hlive
    rw [hguard]
    exact h.guarded status hmem run hrun
      (State.liveRun_eq_some_iff.mpr ⟨pause, hrequest pause hpause, by omega, hid⟩)

/-- The guard may be dropped when its run is not live. -/
theorem release (h : StoreInv s) (hover : ∀ run ∈ s.guard, s.liveRun ≠ some run) :
    StoreInv { s with guard := none } where
  requested := h.requested
  shown := h.shown
  guarded status hmem run hrun hlive :=
    absurd hlive (hover run (h.guarded status hmem run hrun hlive))

/-- The guard may be taken for any run when it is free. -/
theorem acquire (h : StoreInv s) (hfree : s.guard = none) (run : String) :
    StoreInv { s with guard := some run } where
  requested := h.requested
  shown := h.shown
  guarded status hmem shown hrun hlive := by
    have hheld := h.guarded status hmem shown hrun hlive
    rw [hfree] at hheld
    cases hheld

/-- A status may be sent that shows `Quiesced` only for the run of the guard. -/
theorem send (h : StoreInv s) {status : Option ExternalMaintenanceReplicatorStatus}
    (outcome : WriteOutcome)
    (hrun : ∀ run ∈ quiescedRun status, run ∈ s.requested ∧ s.guard = some run) :
    StoreInv (s.send status outcome) := by
  obtain ⟨hrequest, hclock, hguard, -, hrequested⟩ := s.send_frame status outcome
  have hlive : (s.send status outcome).liveRun = s.liveRun := by
    rw [State.liveRun, State.liveRun, hrequest, hclock]
  refine ⟨?_, fun shown hmem run hshown => ?_, fun shown hmem run hshown hlive' => ?_⟩
  · rw [hrequest, hrequested]
    exact h.requested
  · rw [hrequested]
    rcases State.mem_statuses_send hmem with rfl | hmem
    · exact (hrun run hshown).1
    · exact h.shown shown hmem run hshown
  · rw [hguard]
    rcases State.mem_statuses_send hmem with rfl | hmem
    · exact (hrun run hshown).2
    · exact h.guarded shown hmem run hshown (hlive ▸ hlive')

end StoreInv

/-! ## What the watcher holds -/

/-- The pause a phase is about. -/
def Phase.pause : Phase → Option ExternalMaintenancePause
  | .loaded state => state.bind (·.pauseRequest)
  | .reportingRunning next => next
  | .reportingPausing pause | .acquiring pause | .acquired pause | .reportingQuiesced pause _ =>
    some pause
  | _ => none

/-- What holds of the guard in a phase: it is that of the pause held, or that of the pause that is
being established. -/
def Phase.Holds (s : State) : Phase → Prop
  | .polling | .loadFailed | .reportingHeld => s.guard = s.heldPause.map (·.runId)
  | .loaded state => s.guard = s.heldPause.map (·.runId) ∧
      ∀ run ∈ s.guard, (∀ pause ∈ state.bind (·.pauseRequest), pause.runId ≠ run) →
        s.liveRun ≠ some run
  | .reportingRunning _ | .clearingStatus | .reportingPausing _ | .acquiring _ =>
    s.guard = none ∧ s.heldPause = none
  | .acquired pause | .reportingQuiesced pause _ =>
    s.guard = some pause.runId ∧ s.heldPause = none

/-- What holds of the watcher. -/
structure WatcherInv (s : State) : Prop where
  /-- The pauses the watcher knows were requested. -/
  pause : ∀ pause ∈ s.phase.pause, pause.runId ∈ s.requested
  guard : ∀ run ∈ s.guard, run ∈ s.requested
  holds : s.phase.Holds s

namespace WatcherInv

variable {s s' : State}

/-- Steps that the watcher does not take keep what it holds, as no run of the past becomes live. -/
theorem of_frame (h : WatcherInv s) (hphase : s'.phase = s.phase)
    (hheld : s'.heldPause = s.heldPause) (hguard : s'.guard = s.guard)
    (hrequested : s.requested ⊆ s'.requested)
    (hlive : ∀ run ∈ s.requested, s'.liveRun = some run → s.liveRun = some run) :
    WatcherInv s' := by
  refine ⟨fun pause hpause => hrequested (h.pause pause (hphase ▸ hpause)),
    fun run hrun => hrequested (h.guard run (hguard ▸ hrun)), ?_⟩
  have hholds := h.holds
  rw [hphase]
  cases hphase' : s.phase with
  | loaded state =>
    rw [hphase'] at hholds
    obtain ⟨heq, hother⟩ := hholds
    refine ⟨by rw [hguard, hheld, heq], fun run hrun hne hlive' => ?_⟩
    rw [hguard] at hrun
    exact hother run hrun hne (hlive run (h.guard run hrun) hlive')
  | _ =>
    rw [hphase'] at hholds
    simpa only [Phase.Holds, hguard, hheld] using hholds

end WatcherInv

structure Inv (s : State) : Prop where
  store : StoreInv s
  watcher : WatcherInv s

namespace Inv

variable {s : State} {phase : Phase} {state : ExternalMaintenanceState}
  {pause : ExternalMaintenancePause} {s' : State}

/-- The watcher goes to a phase in which it holds the same. -/
theorem goTo (h : Inv s) (hpause : ∀ pause ∈ phase.pause, pause.runId ∈ s.requested)
    (hholds : phase.Holds { s with phase := phase }) : Inv { s with phase := phase } where
  store := ⟨h.store.requested, h.store.shown, h.store.guarded⟩
  watcher := ⟨hpause, h.watcher.guard, hholds⟩

theorem polling (h : Inv s) (hholds : s.guard = s.heldPause.map (·.runId)) :
    Inv { s with phase := .polling } :=
  h.goTo (fun _ hpause => by cases hpause) hholds

theorem release (h : Inv s) (hover : ∀ run ∈ s.guard, s.liveRun ≠ some run)
    (hpause : ∀ pause ∈ phase.pause, pause.runId ∈ s.requested)
    (hholds : phase.Holds { s.releaseHeldPause with phase := phase }) :
    Inv { s.releaseHeldPause with phase := phase } where
  store :=
    have hstore := h.store.release hover
    ⟨hstore.requested, hstore.shown, hstore.guarded⟩
  watcher := ⟨hpause, fun _ hrun => (by cases hrun), hholds⟩

theorem reconcilePause (h : Inv s) (hphase : s.phase = .loaded (some state))
    (hcareful : Careful s .proceed) :
    Inv (s.reconcilePause state) := by
  obtain ⟨hguard, hother⟩ : Phase.Holds s (.loaded (some state)) := hphase ▸ h.watcher.holds
  have hknown : ∀ pause ∈ state.pauseRequest, pause.runId ∈ s.requested := by
    have hpause := h.watcher.pause
    rw [hphase] at hpause
    exact hpause
  have hover : ∀ pause ∈ state.pauseRequest, pause.expiresAt ≤ s.clock →
      s.liveRun ≠ some pause.runId := by
    rw [Careful, State.consulted, hphase] at hcareful
    exact hcareful
  rw [State.reconcilePause]
  split
  next hnone =>
    split
    next held hheld =>
      -- the request that was read is absent, over, or that of another run
      refine h.release (fun run hrun => ?_) (fun _ hpause => by cases hpause) ⟨rfl, rfl⟩
      by_cases hsame : ∃ pause ∈ state.pauseRequest, pause.runId = run
      · obtain ⟨pause, hpause, rfl⟩ := hsame
        have hexpired := Option.filter_eq_none_iff.mp hnone pause hpause
        exact hover pause hpause (by simpa using hexpired)
      · exact hother run hrun fun pause hpause hid => hsame ⟨pause, hpause, hid⟩
    next => exact h.polling hguard
  next pause hsome =>
    have hpause : pause ∈ state.pauseRequest := (Option.filter_eq_some_iff.mp hsome).1
    have hnext : ∀ p ∈ some pause, p.runId ∈ s.requested := by
      rintro p ⟨⟩
      exact hknown pause hpause
    split
    next held hheld =>
      split_ifs with hid hreported
      · exact h.goTo (fun _ hpause => by cases hpause) hguard
      · exact h.polling hguard
      · refine h.release (fun run hrun => hother run hrun fun p hp hsame => ?_) hnext ⟨rfl, rfl⟩
        obtain rfl : p = pause := Option.some.inj (hp.symm.trans hpause)
        rw [hguard, hheld] at hrun
        exact hid ((Option.some.inj hrun).trans hsame.symm)
    next hheld =>
      have hholds : Phase.Holds s (.reportingPausing pause) := ⟨by rw [hguard, hheld]; rfl, hheld⟩
      exact h.goTo hnext hholds

theorem releaseMissingStatePause (h : Inv s) (hphase : s.phase = .loaded none) :
    Inv s.releaseMissingStatePause := by
  obtain ⟨hguard, hother⟩ : Phase.Holds s (.loaded none) := hphase ▸ h.watcher.holds
  rw [State.releaseMissingStatePause]
  split
  next held hheld =>
    exact h.release (fun run hrun => hother run hrun fun _ hpause => by cases hpause)
      (fun _ hpause => by cases hpause) ⟨rfl, rfl⟩
  next => exact h.polling hguard

theorem releaseExpiredPauseIfNeeded (h : Inv s) (hphase : s.phase = .loadFailed)
    (hcareful : Careful s .proceed) : Inv s.releaseExpiredPauseIfNeeded := by
  have hguard : Phase.Holds s .loadFailed := hphase ▸ h.watcher.holds
  rw [Careful, State.consulted, hphase] at hcareful
  rw [State.releaseExpiredPauseIfNeeded]
  split
  next held hheld =>
    split_ifs with hexpires
    · exact h.polling hguard
    · refine h.release (fun run hrun => ?_) (fun _ hpause => by cases hpause) ⟨rfl, rfl⟩
      obtain rfl : held.runId = run := by
        rw [hguard, hheld] at hrun
        exact Option.some.inj hrun
      exact hcareful ⟨held.runId, held.expiresAt⟩ (by rw [hheld]; rfl) (Nat.not_lt.mp hexpires)
  next => exact h.polling hguard

theorem checkQuiesced (h : Inv s) (hphase : s.phase = .acquired pause)
    (hcareful : Careful s .proceed) :
    Inv (s.checkQuiesced pause) := by
  obtain ⟨hguard, hheld⟩ : Phase.Holds s (.acquired pause) := hphase ▸ h.watcher.holds
  rw [State.checkQuiesced]
  split_ifs with hexpired
  · refine h.release (fun run hrun => ?_) (fun _ hpause => by cases hpause) ⟨rfl, rfl⟩
    rw [hguard] at hrun
    cases hrun
    rw [Careful, State.consulted, hphase] at hcareful
    exact hcareful pause rfl hexpired
  · refine h.goTo (fun p hp => ?_) ⟨hguard, hheld⟩
    have hpause := h.watcher.pause
    rw [hphase] at hpause
    exact hpause p hp

/-- What the watcher does after a read, or once it has the guard. -/
theorem proceed (h : Inv s) (hcareful : Careful s .proceed) (hnext : s.proceed = some s') :
    Inv s' := by
  rw [State.proceed] at hnext
  split at hnext
  next hphase => exact Option.some.inj hnext ▸ h.releaseMissingStatePause hphase
  next state hphase => exact Option.some.inj hnext ▸ h.reconcilePause hphase hcareful
  next hphase => exact Option.some.inj hnext ▸ h.releaseExpiredPauseIfNeeded hphase hcareful
  next pause hphase => exact Option.some.inj hnext ▸ h.checkQuiesced hphase hcareful
  next => cases hnext

theorem reported (h : Inv s) {status : Option ExternalMaintenanceReplicatorStatus}
    (hrun : ∀ run ∈ quiescedRun status, s.guard = some run) (outcome : WriteOutcome)
    {held : Option HeldPause} (hpause : ∀ pause ∈ phase.pause, pause.runId ∈ s.requested)
    (hholds : phase.Holds { s.send status outcome with phase := phase, heldPause := held }) :
    Inv { s.send status outcome with phase := phase, heldPause := held } := by
  obtain ⟨-, -, hguard, -, hrequested⟩ := s.send_frame status outcome
  have hstore := h.store.send outcome fun run hr =>
    ⟨h.watcher.guard run (hrun run hr), hrun run hr⟩
  refine ⟨⟨hstore.requested, hstore.shown, hstore.guarded⟩, ?_, ?_, hholds⟩
  · exact fun pause hp => hrequested ▸ hpause pause hp
  · exact fun run hr => hrequested ▸ h.watcher.guard run (hguard ▸ hr)

/-- What the watcher does when it has reported. -/
theorem report (h : Inv s) (outcome : WriteOutcome) (hnext : s.report outcome = some s') :
    Inv s' := by
  have hpause := h.watcher.pause
  have hholds := h.watcher.holds
  have hframe := fun status => s.send_frame status outcome
  rw [State.report] at hnext
  split at hnext
  next next hphase =>
    rw [hphase] at hpause hholds
    obtain ⟨-, -, hguard, hheld, -⟩ := hframe (some ⟨.running, none, none⟩)
    cases hnext
    cases next with
    | none =>
      have hfree : (s.send (some ⟨.running, none, none⟩) outcome).guard =
          (s.send (some ⟨.running, none, none⟩) outcome).heldPause.map (·.runId) := by
        rw [hguard, hheld, hholds.1, hholds.2]
        rfl
      exact h.reported (by rintro run ⟨⟩) outcome hpause hfree
    | some pause =>
      have hfree : Phase.Holds (s.send (some ⟨.running, none, none⟩) outcome)
          (.reportingPausing pause) := ⟨hguard.trans hholds.1, hheld.trans hholds.2⟩
      exact h.reported (by rintro run ⟨⟩) outcome hpause hfree
  next hphase =>
    rw [hphase] at hpause hholds
    obtain ⟨-, -, hguard, hheld, -⟩ := hframe none
    cases hnext
    have hfree : (s.send none outcome).guard =
        (s.send none outcome).heldPause.map (·.runId) := by
      rw [hguard, hheld, hholds.1, hholds.2]
      rfl
    exact h.reported (by rintro run ⟨⟩) outcome hpause hfree
  next pause hphase =>
    rw [hphase] at hpause hholds
    obtain ⟨-, -, hguard, hheld, -⟩ := hframe (some ⟨.pausing, some pause.runId, none⟩)
    cases hnext
    have hfree : Phase.Holds (s.send (some ⟨.pausing, some pause.runId, none⟩) outcome)
        (.acquiring pause) := ⟨hguard.trans hholds.1, hheld.trans hholds.2⟩
    exact h.reported (by rintro run ⟨⟩) outcome hpause hfree
  next pause quiescedAt hphase =>
    rw [hphase] at hpause hholds
    obtain ⟨-, -, hguard, -, -⟩ := hframe (some ⟨.quiesced, some pause.runId, some quiescedAt⟩)
    cases hnext
    refine h.reported ?_ outcome (fun _ hp => by cases hp) (hguard.trans hholds.1)
    rintro run ⟨⟩
    exact hholds.1
  next hphase =>
    rw [hphase] at hholds
    obtain ⟨held, hheld, rfl⟩ := Option.map_eq_some_iff.mp hnext
    obtain ⟨-, -, hguard, -, -⟩ :=
      hframe (some ⟨.quiesced, some held.runId, some held.quiescedAt⟩)
    have hrun : s.guard = some held.runId := by
      rw [show s.guard = _ from hholds, hheld]
      rfl
    refine h.reported ?_ outcome (fun _ hp => by cases hp) (hguard.trans hrun)
    rintro run ⟨⟩
    exact hrun
  next => cases hnext

/-- The controller, a late write and time make no run live that is not. -/
theorem of_le (h : Inv s) (hphase : s'.phase = s.phase) (hheld : s'.heldPause = s.heldPause)
    (hguard : s'.guard = s.guard) (hrequested : s'.requested = s.requested)
    (hrequest : ∀ pause ∈ s'.request, pause ∈ s.request) (hclock : s.clock ≤ s'.clock)
    (hstatuses : ∀ status ∈ s'.statuses, ∀ run ∈ quiescedRun status,
      ∃ status ∈ s.statuses, quiescedRun status = some run) : Inv s' where
  store := h.store.of_le hrequest hclock hstatuses hguard hrequested
  watcher := h.watcher.of_frame hphase hheld hguard (hrequested ▸ List.Subset.refl _)
    fun _ _ hlive => by
      obtain ⟨pause, hpause, hexpires, hid⟩ := State.liveRun_eq_some_iff.mp hlive
      exact State.liveRun_eq_some_iff.mpr
        ⟨pause, hrequest pause hpause, Nat.lt_of_le_of_lt hclock hexpires, hid⟩

/-- A run is requested for the first time, or its live request is replaced. -/
theorem requestPause (h : Inv s) (hstore : s.store = some state)
    (hcareful : Careful s (.requestPause pause)) :
    Inv { s with
      store := some { state with pauseRequest := some pause }
      requested := pause.runId :: s.requested } := by
  let s' : State := { s with
    store := some { state with pauseRequest := some pause }
    requested := pause.runId :: s.requested }
  have hlive : ∀ run ∈ s.requested, s'.liveRun = some run → s.liveRun = some run := by
    intro run hrun hlive
    obtain ⟨p, hp, -, rfl⟩ := State.liveRun_eq_some_iff.mp hlive
    cases hp
    exact hcareful hrun
  have hstatuses : s'.statuses = s.statuses := by
    rw [State.statuses, State.statuses, hstore]
    rfl
  refine ⟨⟨?_, fun status hmem run hrun => ?_, fun status hmem run hrun hl => ?_⟩,
    h.watcher.of_frame rfl rfl rfl (subset_cons_self _ _) hlive⟩
  · rintro p ⟨⟩
    exact mem_cons_self
  · rw [hstatuses] at hmem
    exact mem_cons_of_mem _ (h.store.shown status hmem run hrun)
  · rw [hstatuses] at hmem
    exact h.store.guarded status hmem run hrun
      (hlive run (h.store.shown status hmem run hrun) hl)

/-- A careful step keeps the invariant. -/
theorem next (h : Inv s) {l : Label} (hcareful : Careful s l) (hnext : s.next l = some s') :
    Inv s' := by
  cases l with
  | tick =>
    cases hnext
    exact h.of_le rfl rfl rfl rfl (fun _ hp => hp) (Nat.le_succ _)
      fun status hmem run hrun => ⟨status, hmem, hrun⟩
  -- a new row shows no run, so every status shown was shown before
  | createState =>
    rw [State.next] at hnext
    split_ifs at hnext with hstore
    cases hnext
    refine h.of_le rfl rfl rfl rfl (by rintro p ⟨⟩) (Nat.le_refl _) fun status hmem run hrun => ?_
    rcases mem_cons.mp hmem with rfl | hmem
    · cases hrun
    · exact ⟨status, mem_cons_of_mem _ hmem, hrun⟩
  | deleteState =>
    cases hnext
    refine h.of_le rfl rfl rfl rfl (by rintro p ⟨⟩) (Nat.le_refl _) fun status hmem run hrun => ?_
    rcases mem_cons.mp hmem with rfl | hmem
    · cases hrun
    · exact ⟨status, mem_cons_of_mem _ hmem, hrun⟩
  | requestPause pause =>
    obtain ⟨state, hstore, rfl⟩ := Option.map_eq_some_iff.mp hnext
    exact h.requestPause hstore hcareful
  | clearPause =>
    obtain ⟨state, hstore, rfl⟩ := Option.map_eq_some_iff.mp hnext
    refine h.of_le rfl rfl rfl rfl (by rintro p ⟨⟩) (Nat.le_refl _) fun status hmem run hrun => ?_
    refine ⟨status, ?_, hrun⟩
    rw [State.statuses, hstore]
    exact hmem
  | land index =>
    obtain ⟨landed, hlanded, rfl⟩ := Option.map_eq_some_iff.mp hnext
    refine h.of_le rfl rfl rfl rfl (fun p hp => ?_) (Nat.le_refl _) fun status hmem run hrun => ?_
    · exact State.request_setReplicator s landed ▸ hp
    -- the write that lands was in flight, so its status was shown before
    · have hwrite : landed ∈ s.statuses :=
        mem_cons_of_mem _ (mem_of_getElem? hlanded)
      rcases mem_cons.mp hmem with hstatus | hmem
      · rcases State.mem_statuses_setReplicator (mem_cons.mpr (.inl hstatus)) with rfl | hmem
        · exact ⟨status, hwrite, hrun⟩
        · exact ⟨status, hmem, hrun⟩
      · exact ⟨status, mem_cons_of_mem _ (mem_of_mem_eraseIdx hmem), hrun⟩
  | load succeeds =>
    rw [State.next] at hnext
    split_ifs at hnext with hphase hread
    · cases hnext
      have hguard : Phase.Holds s .polling := hphase ▸ h.watcher.holds
      refine h.goTo h.store.requested ⟨hguard, fun run hrun hother hlive => ?_⟩
      -- a live run is that of the pause just read
      obtain ⟨pause, hpause, -, hid⟩ := State.liveRun_eq_some_iff.mp hlive
      exact hother pause hpause hid
    · cases hnext
      have hguard : Phase.Holds s .polling := hphase ▸ h.watcher.holds
      exact h.goTo (fun _ hp => by cases hp) hguard
  | proceed => exact h.proceed hcareful hnext
  | write outcome => exact h.report outcome hnext
  | acquire =>
    rw [State.next] at hnext
    split at hnext
    next pause hphase =>
      cases hnext
      -- the guard is free, and the run it is taken for was requested
      obtain ⟨hfree, hheld⟩ : Phase.Holds s (.acquiring pause) := hphase ▸ h.watcher.holds
      have hknown : pause.runId ∈ s.requested := h.watcher.pause pause (by rw [hphase]; rfl)
      have hstore := h.store.acquire hfree pause.runId
      refine ⟨⟨hstore.requested, hstore.shown, hstore.guarded⟩, ?_, ?_, rfl, hheld⟩
      · rintro p ⟨⟩
        exact hknown
      · rintro run ⟨⟩
        exact hknown
    next => cases hnext
  | restart =>
    cases hnext
    -- no shown status claims a live run, so the guard may be lost
    have hstore : StoreInv { s with guard := none } :=
      ⟨h.store.requested, h.store.shown,
        fun status hmem run hrun hlive => absurd hlive (hcareful status hmem run hrun)⟩
    exact ⟨⟨hstore.requested, hstore.shown, hstore.guarded⟩, (by rintro p ⟨⟩),
      (by rintro r ⟨⟩), rfl⟩

end Inv

/-- In every careful run, the guard is held for a run whenever the store shows the replicator
quiesced for it and its pause request is live. -/
theorem guarded_of_careful {s : State} (h : watcher.ReachableUnder Careful s) : Guarded s := by
  refine StoreInv.safe (Inv.store (h.invariant ?_ fun s l s' h => h.next))
  intro s hinit
  rw [show s = _ from hinit]
  refine ⟨⟨by rintro p ⟨⟩, ?_, ?_⟩, by rintro p ⟨⟩, by rintro r ⟨⟩, rfl⟩
  all_goals
    intro status hmem run hrun
    cases mem_singleton.mp hmem
    cases hrun

/-! ## Guards that are dropped too early -/

/-- A pause is requested until the given time and established. -/
def quiesce (expiresAt : ℕ) : List Label :=
  [.createState, .requestPause ⟨"nightly", expiresAt⟩, .load true, .proceed, .write .confirmed,
    .acquire, .proceed, .write .confirmed]

/-- A pause that was extended, after its first expiry. -/
def extendedPause : State where
  clock := 3
  store := some ⟨some ⟨"nightly", 9⟩, some ⟨.quiesced, some "nightly", some 0⟩⟩
  heldPause := some ⟨"nightly", 3, 0, true⟩
  guard := some "nightly"
  requested := ["nightly", "nightly"]

/-- As long as the store can be read, an extended pause is held on to. -/
theorem guarded_after_extension :
    extendedPause.liveRun = some "nightly" ∧ Guarded extendedPause := by
  have hinit : watcher.ReachableUnder Careful {} := .init rfl
  have hrun : (watcher.restrict Careful).run {}
      (quiesce 3 ++ [.requestPause ⟨"nightly", 9⟩, .tick, .tick, .tick, .load true, .proceed]) =
        some extendedPause := by decide +kernel
  exact ⟨by decide, guarded_of_careful (hinit.run _ hrun)⟩

/-- A process that was restarted during a pause. -/
def restarted : State where
  store := some ⟨some ⟨"nightly", 9⟩, some ⟨.quiesced, some "nightly", some 0⟩⟩
  requested := ["nightly"]

/-- An extended pause that was dropped at its first expiry, as the store could not be read. -/
def unreadable : State where
  clock := 2
  store := some ⟨some ⟨"nightly", 9⟩, some ⟨.quiesced, some "nightly", some 0⟩⟩
  phase := .reportingRunning none
  requested := ["nightly", "nightly"]

/-- Both are reached, and in both the store shows `Quiesced` for a live request without a guard. -/
theorem quiesced_without_guard :
    (watcher.Reachable restarted ∧ ¬ Guarded restarted) ∧
      watcher.Reachable unreadable ∧ ¬ Guarded unreadable := by
  have hinit : watcher.Reachable {} := .init rfl
  have hrestart : watcher.run {} (quiesce 9 ++ [.restart]) = some restarted := by decide +kernel
  have hextend : watcher.run {} (quiesce 2 ++
      [.requestPause ⟨"nightly", 9⟩, .tick, .tick, .load false, .proceed]) = some unreadable := by
    decide +kernel
  exact ⟨⟨hinit.run _ hrestart, by decide⟩, hinit.run _ hextend, by decide⟩

end Etl.DuckLake.ExternalMaintenance
