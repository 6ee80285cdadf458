import Etl.Conversions.NestedArrays
import Etl.Conversions.NumericPrint
import Etl.Conversions.ReplicaIdentity
import Etl.Conversions.RowMessages
import Etl.Destinations.BigQuery.ColumnStatements
import Etl.Destinations.BigQuery.CopyBatches
import Etl.Destinations.BigQuery.DecodedRows
import Etl.Destinations.BigQuery.Truncate
import Etl.Destinations.ClickHouse.Cdc
import Etl.Destinations.ClickHouse.Recovery
import Etl.Destinations.DuckLake.ExternalMaintenance
import Etl.Destinations.DuckLake.MutationOrder
import Etl.Destinations.Iceberg.Prepare
import Etl.Destinations.SequenceKeys
import Etl.Destinations.Snowflake.Channels
import Etl.Maintenance.Coordination
import Etl.Replication.SchemaRetention
import Etl.Replication.SlotNames
import Etl.Workers.PhaseChange
import Etl.Workers.PipelineStart
import Etl.Workers.ProgressRuns
import Etl.Workers.RetryRollback
import Etl.Workers.SlotRecovery
import Etl.Workers.TableCopy
import Etl.Workers.TableSyncRun
