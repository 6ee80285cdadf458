import Etl.Error
import Etl.Types.Schema

/-! # Replication messages and events

The messages of the logical replication stream, as the handlers read them, and the events
the handlers hand to the destination. Decoded row images are opaque here; timestamps,
transaction ids and flags are carried to the destination without being read and are left
out.

Reference: `etl/src/types/event.rs`.
-/

namespace Etl

/-- A schema version with the masks of replicated and of identity columns. -/
structure ReplicatedTableSchema where
  tableSchema : TableSchema
  replicationMask : List Bool
  identityMask : List Bool
  deriving DecidableEq, Repr

structure RelationColumn where
  name : String
  isIdentity : Bool
  deriving DecidableEq, Repr

structure SchemaChangeMessage where
  oid : TableId
  name : TableName
  columns : List ColumnSchema
  deriving DecidableEq, Repr

/-- The version a schema-change message creates. -/
def SchemaChangeMessage.intoTableSchema (message : SchemaChangeMessage)
    (snapshotId : SnapshotId) : TableSchema :=
  ⟨message.oid, message.name, message.columns, snapshotId⟩

/-- A row operation. -/
inductive RowKind where
  | insert | update | delete
  deriving DecidableEq, Repr

/-- The messages of the output plugin. A logical message carries its tag and what parsing its
content gives. -/
inductive LogicalReplicationMessage (ρ : Type) where
  | begin (finalLsn : PgLsn)
  | commit (commitLsn endLsn : PgLsn)
  | relation (relId : TableId) (columns : List RelationColumn)
  | row (kind : RowKind) (relId : TableId) (image : ρ)
  | truncate (relIds : List TableId)
  | message (tag : String) (content : EtlResult SchemaChangeMessage)
  | origin
  | type

/-- The messages of the replication protocol. -/
inductive ReplicationMessage (ρ : Type) where
  | xLogData (walStart walEnd : PgLsn) (data : LogicalReplicationMessage ρ)
  | primaryKeepAlive (walEnd : PgLsn) (replyRequested : Bool)

/-- What an event says. -/
inductive EventBody (ρ : Type) where
  | begin
  | commit (endLsn : PgLsn)
  | relation (schema : ReplicatedTableSchema)
  | row (kind : RowKind) (schema : ReplicatedTableSchema) (image : ρ)
  | truncate (truncatedTables : List ReplicatedTableSchema)
  deriving DecidableEq

/-- An event with its position, the commit position of its transaction and its ordinal in the
transaction. -/
structure Event (ρ : Type) where
  startLsn : PgLsn
  commitLsn : PgLsn
  txOrdinal : ℕ
  body : EventBody ρ
  deriving DecidableEq

/-- The pair destinations order and deduplicate events by. -/
structure EventSequenceKey where
  commitLsn : PgLsn
  txOrdinal : ℕ
  deriving DecidableEq, Repr

/-- A number as sixteen hexadecimal digits at least. -/
def hex16 (n : ℕ) : String := String.ofList ((Nat.toDigits 16 n).leftpad 16 '0')

/-- The text of a sequence key. -/
def EventSequenceKey.display (key : EventSequenceKey) : String :=
  hex16 key.commitLsn ++ "/" ++ hex16 key.txOrdinal

/-- The sequence key of an event. -/
def Event.eventSequenceKey {ρ : Type} (event : Event ρ) : EventSequenceKey :=
  ⟨event.commitLsn, event.txOrdinal⟩

end Etl
