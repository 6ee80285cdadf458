import Etl.Error
import Etl.Types.Schema

/-! # Destination table metadata

What the store keeps about a table at the destination: its name there, the schema version and the
replication mask that are applied or being applied, and which of the two it is.

Reference: `etl/src/state/destination_metadata.rs`.
-/

namespace Etl

/-- Whether a schema change is in progress at the destination. -/
inductive DestinationTableSchemaStatus where
  | applying | applied
  deriving DecidableEq, Repr

structure DestinationTableMetadata where
  destinationTableId : String
  snapshotId : SnapshotId
  /-- The version before the change in progress. -/
  previousSnapshotId : Option SnapshotId
  schemaStatus : DestinationTableSchemaStatus
  replicationMask : List Bool
  deriving DecidableEq, Repr

/-- Metadata whose schema is applied. -/
structure AppliedDestinationTableMetadata where
  destinationTableId : String
  snapshotId : SnapshotId
  replicationMask : List Bool
  deriving DecidableEq, Repr

namespace DestinationTableMetadata

/-- Metadata for a table that is being created. -/
def newApplying (destinationTableId : String) (snapshotId : SnapshotId)
    (replicationMask : List Bool) : DestinationTableMetadata :=
  ⟨destinationTableId, snapshotId, none, .applying, replicationMask⟩

/-- Metadata for a table that has been created. -/
def newApplied (destinationTableId : String) (snapshotId : SnapshotId)
    (replicationMask : List Bool) : DestinationTableMetadata :=
  ⟨destinationTableId, snapshotId, none, .applied, replicationMask⟩

variable (metadata : DestinationTableMetadata)

def isApplying : Bool := metadata.schemaStatus = .applying

def isApplied : Bool := metadata.schemaStatus = .applied

/-- The change in progress is complete. -/
def toApplied : DestinationTableMetadata :=
  { metadata with schemaStatus := .applied, previousSnapshotId := none }

/-- A change to another version. -/
def withSchemaChange (snapshotId : SnapshotId) (replicationMask : List Bool)
    (status : DestinationTableSchemaStatus) : DestinationTableMetadata :=
  { metadata with
    previousSnapshotId := some metadata.snapshotId
    snapshotId
    replicationMask
    schemaStatus := status }

/-- The metadata if its schema is applied. -/
def intoApplied : EtlResult AppliedDestinationTableMetadata :=
  if !metadata.isApplied then
    bailWith .invalidState "Destination table schema is not in applied state"
      ("table '" ++ metadata.destinationTableId ++ "' has schema_status 'Applying'; the DDL may " ++
        "not have completed — manual intervention may be required")
  else .ok ⟨metadata.destinationTableId, metadata.snapshotId, metadata.replicationMask⟩

end DestinationTableMetadata

/-- The stored metadata, which must be applied if there is any. -/
def getAppliedDestinationTableMetadata (metadata : Option DestinationTableMetadata) :
    EtlResult (Option AppliedDestinationTableMetadata) :=
  match metadata with
  | none => .ok none
  | some metadata => metadata.intoApplied.map some

theorem DestinationTableMetadata.destinationTableId_of_getApplied
    {metadata : DestinationTableMetadata} {applied : Option AppliedDestinationTableMetadata}
    (happlied : getAppliedDestinationTableMetadata (some metadata) = .ok applied) :
    applied.map AppliedDestinationTableMetadata.destinationTableId =
      some metadata.destinationTableId := by
  unfold getAppliedDestinationTableMetadata intoApplied at happlied
  dsimp only at happlied
  split_ifs at happlied
  · cases happlied
  · rw [← Except.ok.inj happlied]
    rfl

end Etl
