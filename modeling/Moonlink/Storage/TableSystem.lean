-- SUMMARY: A table with its snapshot, the Iceberg table and the background tasks: the payloads of maintenance and one step of the whole.
import Moonlink.Storage.Table
import Moonlink.Storage.Iceberg

/-!
# The table and its background tasks

Flushes, persistence, data compaction and index merge run in the background. Their
results come back in any order, and each is taken over by the next mooncake snapshot. At
most one persistence and one maintenance task are outstanding; a new one is started right
after a mooncake snapshot, from what that snapshot offers.

A mooncake snapshot only touches the snapshot state, so it is one step here, taken when
it is created.
-/

namespace Moonlink.Storage

open Lib

variable {Row Ident : Type}

/-! ## Payloads of maintenance -/

/-- What a compaction is asked for: which files are small or have enough deleted rows, and
how many of them. -/
structure CompactionOption (Row : Type) where
  minFiles : Nat
  maxFiles : Nat
  isCandidate : FileId → DiskFileEntry Row → Bool

/-- What an index merge is asked for. -/
structure IndexMergeOption where
  minFiles : Nat
  maxFiles : Nat
  isSmall : FileIndex → Bool

/-- What is fixed for a table. The reader of a data file returns its rows in batches. -/
structure TableEnv (Row Ident : Type) where
  config : TableConfig Row Ident
  writer : ArrowWriter Row
  readBatches : List Row → List (List Row)
  flatten_readBatches : ∀ rows, (readBatches rows).flatten = rows
  dataFileFinalSize : Nat
  /-- `build_from_merge_for_compaction`. -/
  compactIndices : IndexMerge FileIndex
  /-- `build_from_merge`. -/
  mergeIndices : List FileIndex → FileId → FileIndex

namespace SnapshotTableState

/-- A file of the snapshot with its persisted deletions. -/
def fileToCompact (env : TableEnv Row Ident) (file : Sigma fun _ : FileId => DiskFileEntry Row) :
    SingleFileToCompact Row where
  fileId := file.1
  batches := env.readBatches file.2.data
  deletionVector := file.2.puffinDeletionBlob.map (.ofDeletedRows file.2.data.length)
  fits := by
    intro dv hdv
    obtain ⟨rows, -, rfl⟩ := Option.map_eq_some_iff.mp hdv
    rw [env.flatten_readBatches]
    rfl

/-- The files of the snapshot with these ids. -/
def compactionPayload (env : TableEnv Row Ident) (s : SnapshotTableState Row Ident)
    (fileIds : List FileId) (fileIndices : List FileIndex) : DataCompactionPayload Row FileIndex where
  diskFiles := (s.diskFiles.entries.filter fun f => fileIds.contains f.1).map (fileToCompact env)
  fileIndices
  distinct := by
    rw [List.map_map]
    exact (s.diskFiles.nodupKeys.sublist List.filter_sublist : List.NodupKeys _)

/-- Only files that are persisted are compacted. -/
def tentativeFilesToCompact (s : SnapshotTableState Row Ident) (opt : CompactionOption Row) :
    List FileId :=
  let unpersisted := s.unpersistedRecords.getUnpersistedDataFilesSet
  ((s.diskFiles.entries.filter fun f => !unpersisted.contains f.1 && opt.isCandidate f.1 f.2).take
    opt.maxFiles).map (·.1)

/-- Files whose index is not persisted are not compacted either. -/
def rejectFile (fileIds : List FileId) (fileId : FileId) : Except StoragePanic (List FileId) := do
  StoragePanic.assert (fileIds.contains fileId) .invalidMaintenanceResult
  return fileIds.erase fileId

def getPayloadToCompact (env : TableEnv Row Ident) (s : SnapshotTableState Row Ident)
    (opt : CompactionOption Row) : Except StoragePanic (Option (DataCompactionPayload Row FileIndex)) := do
  let fileIds := s.tentativeFilesToCompact opt
  if fileIds.length < opt.minFiles then return none
  else
    let fileIndices := s.indices.fileIndices.filter fun i => i.files.any (fileIds.contains ·)
    let unpersisted := fileIndices.filter
      (s.unpersistedRecords.getUnpersistedFileIndicesSet.contains ·)
    let fileIds ← (unpersisted.flatMap (·.files)).foldlM rejectFile fileIds
    let fileIndices := fileIndices.filter fun i => !unpersisted.contains i
    return if fileIds.length < opt.minFiles then none
      else some (s.compactionPayload env fileIds fileIndices)

def getFileIndicesToMerge (s : SnapshotTableState Row Ident) (opt : IndexMergeOption) :
    Option (List FileIndex) :=
  let unpersisted := s.unpersistedRecords.getUnpersistedFileIndicesSet
  let fileIndices := s.indices.fileIndices.filter fun i => opt.isSmall i && !unpersisted.contains i
  if fileIndices.length < opt.minFiles then none else some (fileIndices.take opt.maxFiles)

end SnapshotTableState

/-! ## The system -/

inductive MaintenanceProcessStatus where
  | unrequested
  | inProcess
  | readyToPersist
  | inPersist
  deriving DecidableEq, Repr

structure TableSystem (Row Ident : Type) where
  table : MooncakeTable Row Ident
  snapshot : SnapshotTableState Row Ident
  manager : IcebergTableManager Row
  /-- The disk slices that are being written, with the streaming transaction they are of. -/
  flushes : List (Option Nat × DiskSliceWriter Row Ident)
  /-- What the last mooncake snapshot offers to persist. -/
  payload : Option (PersistenceSnapshotPayload Row)
  /-- The last mooncake snapshot looked for something to maintain. -/
  offersMaintenance : Bool
  /-- The payload that is being persisted. -/
  persistence : Option (PersistenceSnapshotPayload Row)
  compaction : Option (DataCompactionPayload Row FileIndex × CompactionFileParams)
  indexMerge : Option (List FileIndex × FileId)
  maintenance : MaintenanceProcessStatus

/-- What an Iceberg snapshot holds, with the file ids that are assigned when it is loaded. -/
structure PersistedTable (Row : Type) where
  dataFiles : AssocMap FileId (DataFileEntry Row)
  fileIndices : List FileIndex
  flushLsn : Option Nat
  snapshotVersion : Nat
  nextFileId : Nat
  fileIds_lt : ∀ fileId ∈ dataFiles, fileId < nextFileId
  nextFileId_lt : nextFileId < 2 ^ 32

/-- A file has a blob if a row of it is deleted. -/
def PersistedTable.diskFileEntry (entry : DataFileEntry Row) : DiskFileEntry Row where
  numRows := entry.rows.length
  data := entry.rows
  committedDeletionVector := entry.deletionVector
  puffinDeletionBlob :=
    if entry.deletionVector.collectDeletedRows.isEmpty then none
    else some entry.deletionVector.collectDeletedRows

/-- What the handler does with a table, and the background results that it receives. -/
inductive TableAction (Row : Type) where
  | append (row : Row)
  | delete (row : Row) (lsn : Nat) (deleteIfExists : Bool)
  | commit (lsn : Nat)
  | flush (lsn : Nat)
  | appendInStreamBatch (row : Row) (xactId : Nat)
  | deleteInStreamBatch (row : Row) (xactId : Nat)
  | flushStream (xactId : Nat)
  | abortInStreamBatch (xactId : Nat)
  | commitTransactionStream (xactId lsn : Nat)
  | batchIngest (files : List (List Row)) (lsn : Nat)
  /-- The flush at this place of the outstanding ones completes. -/
  | flushResult (idx : Nat)
  | createSnapshot (opt : SnapshotOption)
  | persistSnapshot
  | persistenceResult
  | performDataCompaction (opt : CompactionOption Row)
  | dataCompactionResult
  | performIndexMerge (opt : IndexMergeOption)
  | indexMergeResult

namespace TableSystem

variable [DecidableEq Ident]
variable (env : TableEnv Row Ident)

/-- `load_snapshot_from_table`: the table at the start of a process. -/
def load (persisted : PersistedTable Row) : Except StoragePanic (TableSystem Row Ident) := do
  let (memSlice, counter) ← MemSlice.new env.config.snapshot.identity env.config.snapshot.batchSize
    (.new false)
  return {
    table := {
      memSlice
      nonStreamingBatchIdCounter := counter
      streamingBatchIdCounter := .new true
      nextSnapshotTask := .new
      flushLsns := .new
      transactionStreamStates := ∅
      nextFileId := persisted.nextFileId }
    snapshot := {
      diskFiles := persisted.dataFiles.mapValues PersistedTable.diskFileEntry
      snapshotVersion := persisted.snapshotVersion
      flushLsn := persisted.flushLsn
      largestFlushLsn := none
      indices := ⟨[], persisted.fileIndices⟩
      batches := (∅ : AssocMap Nat (InMemoryBatch Row)).insert counter.counter
        (.new env.config.snapshot.batchSize)
      rows := []
      committedDeletionLog := []
      uncommittedDeletionLog := []
      compactingDataFiles := []
      lastCommit := (counter.counter, 0)
      unpersistedRecords := .new }
    manager := ⟨persisted.dataFiles, persisted.fileIndices⟩
    flushes := []
    payload := none
    offersMaintenance := false
    persistence := none
    compaction := none
    indexMerge := none
    maintenance := .unrequested }

variable (sys : TableSystem Row Ident)

/-- A flush is written and its result applied. -/
def applyFlush (idx : Nat)
    (flush : Option Nat × DiskSliceWriter Row Ident) : Except StoragePanic (TableSystem Row Ident) := do
  let slice ← flush.2.write env.writer env.config.parquetFileSize
  let table ← match flush.1 with
    | none => sys.table.applyFlushResult slice
    | some xactId => sys.table.applyStreamFlushResult xactId slice
  return { sys with table, flushes := sys.flushes.eraseIdx idx }

def createSnapshot (opt : SnapshotOption) : Except StoragePanic (TableSystem Row Ident) := do
  let (task, table) := sys.table.takeSnapshotTask
  let (snapshot, payload) ← sys.snapshot.updateSnapshot env.config.snapshot task opt
  return { sys with
    table
    snapshot
    payload
    offersMaintenance := sys.maintenance = .unrequested }

/-- `can_initiate_iceberg_snapshot`: none is ongoing, and the last result is taken over. -/
def canPersist : Bool :=
  sys.persistence.isNone && sys.table.nextSnapshotTask.persistedRecords.isNone &&
    sys.snapshot.snapshotVersion < sys.table.flushLsns.getMinOngoingFlushLsn

def containsTableMaintenancePayload (payload : PersistenceSnapshotPayload Row) : Bool :=
  !(payload.mergedFileIndicesToAdd.isEmpty && payload.mergedFileIndicesToRemove.isEmpty &&
    payload.compactedDataFilesToAdd.isEmpty && payload.compactedDataFilesToRemove.isEmpty)

def persistSnapshot (payload : PersistenceSnapshotPayload Row) :
    Except StoragePanic (TableSystem Row Ident) := do
  let table ← sys.table.reserveFileIds payload.getNewFileIdsNum
  return { sys with
    table
    payload := none
    persistence := some payload
    maintenance :=
      if containsTableMaintenancePayload payload && sys.maintenance = .readyToPersist
        then .inPersist else sys.maintenance }

def persistenceResult (payload : PersistenceSnapshotPayload Row) :
    Except StoragePanic (TableSystem Row Ident) := do
  let (res, manager) ← sys.manager.syncSnapshot payload
  let table ← sys.table.setPersistenceSnapshotRes res
  return { sys with
    table
    manager
    persistence := none
    maintenance :=
      if containsTableMaintenancePayload payload && sys.maintenance = .inPersist
        then .unrequested else sys.maintenance }

/-- The ids of the new files are reserved when the compaction starts. -/
def performDataCompaction (env : TableEnv Row Ident) (sys : TableSystem Row Ident)
    (payload : DataCompactionPayload Row FileIndex) : Except StoragePanic (TableSystem Row Ident) := do
  let table ← sys.table.performDataCompaction payload
  if h : table.nextFileId < 2 ^ 32 then
    return { sys with
      table
      compaction := some (payload, ⟨sys.table.nextFileId, table.nextFileId, env.dataFileFinalSize, h⟩)
      maintenance := .inProcess }
  else .error .fileIdsExhausted

def dataCompactionResult (payload : DataCompactionPayload Row FileIndex) (params : CompactionFileParams) :
    Except StoragePanic (TableSystem Row Ident) := do
  let res ← CompactionBuilder.build payload params env.writer env.compactIndices
  let table ← sys.table.setDataCompactionRes res
  return { sys with table, compaction := none, maintenance := .readyToPersist }

def performIndexMerge (fileIndices : List FileIndex) : Except StoragePanic (TableSystem Row Ident) := do
  let table ← sys.table.reserveFileIds 1
  return { sys with
    table
    indexMerge := some (fileIndices, sys.table.nextFileId)
    maintenance := .inProcess }

def indexMergeResult
    (fileIndices : List FileIndex) (fileId : FileId) : Except StoragePanic (TableSystem Row Ident) := do
  let table ← sys.table.setFileIndicesMergeRes ⟨fileIndices, [env.mergeIndices fileIndices fileId]⟩
  return { sys with table, indexMerge := none, maintenance := .readyToPersist }

/-- Maintenance can start: the last snapshot looked for it, and none is going on. -/
def canMaintain : Bool :=
  sys.offersMaintenance && sys.maintenance = .unrequested

/-- One step. An action that is not possible in a state is ignored. -/
def next : TableAction Row → Except StoragePanic (TableSystem Row Ident)
  | .append row => do
    return { sys with table := ← sys.table.append env.config.snapshot.identity row }
  | .delete row lsn deleteIfExists => do
    return { sys with
      table := ← sys.table.deleteImpl env.config.snapshot.identity row lsn deleteIfExists }
  | .commit lsn => do return { sys with table := ← sys.table.commit lsn }
  | .flush lsn => do
    let (slice, table) ← sys.table.flush lsn
    return { sys with table, flushes := sys.flushes ++ slice.toList.map fun s => (none, s) }
  | .appendInStreamBatch row xactId => do
    return { sys with table := ← sys.table.appendInStreamBatch env.config.snapshot row xactId }
  | .deleteInStreamBatch row xactId => do
    return { sys with table := ← sys.table.deleteInStreamBatch env.config.snapshot row xactId }
  | .flushStream xactId => do
    let (slice, table) ← sys.table.flushStream xactId none
    return { sys with table, flushes := sys.flushes ++ [(some xactId, slice)] }
  | .abortInStreamBatch xactId => do
    return { sys with table := ← sys.table.abortInStreamBatch xactId }
  | .commitTransactionStream xactId lsn => do
    let (slice, table) ← sys.table.commitTransactionStream xactId lsn
    return { sys with table, flushes := sys.flushes ++ [(some xactId, slice)] }
  | .batchIngest files lsn => do
    return { sys with table := ← sys.table.batchIngest env.config.snapshot.identity files lsn }
  | .flushResult idx =>
    match sys.flushes[idx]? with
    | some flush => sys.applyFlush env idx flush
    | none => .ok sys
  | .createSnapshot opt => sys.createSnapshot env opt
  | .persistSnapshot =>
    match sys.payload with
    | some payload => if sys.canPersist then sys.persistSnapshot payload else .ok sys
    | none => .ok sys
  | .persistenceResult =>
    match sys.persistence with
    | some payload => sys.persistenceResult payload
    | none => .ok sys
  | .performDataCompaction opt =>
    if sys.canMaintain then do
      match ← sys.snapshot.getPayloadToCompact env opt with
      | some payload => sys.performDataCompaction env payload
      | none => return sys
    else .ok sys
  | .dataCompactionResult =>
    match sys.compaction with
    | some (payload, params) => sys.dataCompactionResult env payload params
    | none => .ok sys
  | .performIndexMerge opt =>
    match sys.snapshot.getFileIndicesToMerge opt with
    | some fileIndices => if sys.canMaintain then sys.performIndexMerge fileIndices else .ok sys
    | none => .ok sys
  | .indexMergeResult =>
    match sys.indexMerge with
    | some (fileIndices, fileId) => sys.indexMergeResult env fileIndices fileId
    | none => .ok sys

/-- A run of the system. -/
def run (actions : List (TableAction Row)) : Except StoragePanic (TableSystem Row Ident) :=
  actions.foldlM (next env) sys

end TableSystem
end Moonlink.Storage
