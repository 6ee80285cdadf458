import Etl.Types.Schema

/-! # Table replication phases

The phases a table goes through, which of them are persisted, and the persistent history of
one table's phase: updates push the previous phase, a rollback pops it. The store also keeps
a log of every phase it ever held, which only the specifications read.

Reference: `etl/src/state/table.rs` (`TableReplicationPhase`).
-/

namespace Etl

/-- The replication phase of a table. The reason, solution and source of an error are
diagnostics and left out. -/
inductive TableReplicationPhase where
  | init
  | dataSync
  | finishedCopy
  | syncWait (lsn : PgLsn)
  | catchup (lsn : PgLsn)
  | syncDone (lsn : PgLsn)
  | ready
  | errored
  deriving DecidableEq, Repr

/-- A phase without its data. -/
inductive TableReplicationPhaseType where
  | init | dataSync | finishedCopy | syncWait | catchup | syncDone | ready | errored
  deriving DecidableEq, Repr

/-- The type of a phase. -/
def TableReplicationPhase.asType : TableReplicationPhase → TableReplicationPhaseType
  | .init => .init
  | .dataSync => .dataSync
  | .finishedCopy => .finishedCopy
  | .syncWait _ => .syncWait
  | .catchup _ => .catchup
  | .syncDone _ => .syncDone
  | .ready => .ready
  | .errored => .errored

namespace TableReplicationPhaseType

/-- Whether phases of this type are saved in the state store. -/
def shouldStore : TableReplicationPhaseType → Bool
  | .syncWait | .catchup => false
  | _ => true

/-- Whether a table in this phase needs no table-sync worker any more. -/
def isDone : TableReplicationPhaseType → Bool
  | .ready | .errored => true
  | _ => false

end TableReplicationPhaseType

/-- Whether the apply worker may apply a change that commits at a position, given the
table's phase. -/
def TableReplicationPhase.isReadyForChanges (phase : TableReplicationPhase)
    (remoteFinalLsn : PgLsn) : Bool :=
  match phase with
  | .ready => true
  | .syncDone lsn => lsn ≤ remoteFinalLsn
  | _ => false

/-! ## The stored phase of a table -/

/-- The persisted phase of one table, the phases it can be rolled back to, latest first, and
the log of all phases it held, oldest first. -/
structure PhaseStore where
  current : TableReplicationPhase
  history : List TableReplicationPhase
  log : List TableReplicationPhase

namespace PhaseStore

/-- Replaces the phase and remembers the previous one. -/
def updateTableReplicationState (store : PhaseStore) (phase : TableReplicationPhase) :
    PhaseStore where
  current := phase
  history := store.current :: store.history
  log := store.log ++ [phase]

/-- Restores the previous phase, if there is one. -/
def rollbackTableReplicationState (store : PhaseStore) : Option PhaseStore :=
  match store.history with
  | [] => none
  | previous :: history => some ⟨previous, history, store.log ++ [previous]⟩

end PhaseStore

end Etl
