import Moonlink.Wal.CrashConsistency
import Moonlink.Wal.Restarts
import Moonlink.Table.Resend
import Moonlink.Replication.AddTable
import Moonlink.Replication.Confirmed
import Moonlink.Table.ForceSnapshotSpec
import Moonlink.Storage.FileIdAllocators
import Moonlink.Replication.CopyBoundary
import Moonlink.Replication.FanOutSpec
import Moonlink.Replication.EventLoopSpec
import Moonlink.Replication.ParallelCopySpec
import Moonlink.UnionRead.ReadSpec
import Moonlink.Index.BitWriterRuns
import Moonlink.Index.CompactedIndex
import Moonlink.Storage.IndexInvariant
import Moonlink.Wal.Failures
import Moonlink.Iceberg.FileCatalogSpec
import Moonlink.Table.BackgroundTasksSpec
import Moonlink.Storage.SnapshotSyncSpec
import Moonlink.Storage.PersistenceBufferSpec
import Moonlink.Storage.ObjectStorageCacheSpec
import Moonlink.Storage.Deltalake
import Moonlink.Table.BatchIngestionSpec
import Moonlink.Wal.UnreadableFiles
import Moonlink.Replication.RegistrySpec
import Moonlink.Rest.Registration
import Moonlink.Otel.Routing
import Moonlink.Row.IdentitySpec
import Moonlink.Row.RejectedRows
import Moonlink.Query.InProtocol
import Moonlink.UnionRead.DeliverFirstSpec
import Moonlink.Storage.DrainedSlices
import Moonlink.Storage.FullRowIdentity
import Moonlink.Iceberg.ParquetStatsSpec
import Moonlink.Storage.DeltaStatsSpec
import Moonlink.Storage.SnapshotRead
import Moonlink.Iceberg.DeletionVectorBlobSpec
import Moonlink.Storage.DeletionMatchingSpec
import Moonlink.Schema.CaseVariants
import Moonlink.Schema.FieldIds
import Moonlink.Replication.CopyText
import Moonlink.UnionRead.ScanPlan
import Moonlink.Replication.UnchangedToast
import Moonlink.Schema.AvroRowSpec
import Moonlink.Replication.NumericColumnsSpec
import Moonlink.Schema.JsonRowSpec
import Moonlink.Replication.CtidShards
import Moonlink.Row.ProtoConverter
import Moonlink.Storage.DeleteVectorSpec
import Moonlink.UnionRead.FilepathRemap
import Moonlink.Index.HashIndex
