-- SUMMARY: What a mooncake snapshot takes over: new files, batches and deletions, ended streams, and the results of maintenance and persistence.
import Moonlink.Storage.DiskSlice

/-!
# Snapshot tasks

Between two mooncake snapshots, a table collects what the next one has to apply. The
records that are not persisted yet are buffered in the snapshot, as the persistence of
one payload may finish several snapshots later.
-/

namespace Moonlink.Storage

open Lib

variable {Row Ident : Type}

/-! ## Data files and indices -/

/-- `DiskFileEntry`, with the rows of the file. -/
structure DiskFileEntry (Row : Type) where
  numRows : Nat
  data : List Row
  committedDeletionVector : BatchDeletionVector
  /-- The rows that the persisted deletion vector blob lists. -/
  puffinDeletionBlob : Option (List Nat)

def DiskFileEntry.new (file : DataFile Row) : DiskFileEntry Row :=
  ⟨file.rows.length, file.rows, .new file.rows.length, none⟩

abbrev DiskFiles (Row : Type) : Type := AssocMap FileId (DiskFileEntry Row)

/-- Mark a row of a file as deleted; a row that is deleted already panics. -/
def DiskFileEntry.deleteRow (entry : DiskFileEntry Row) (rowIdx : Nat) :
    Except StoragePanic (DiskFileEntry Row) := do
  return { entry with
    committedDeletionVector := ← entry.committedDeletionVector.deleteActiveRow rowIdx }

def DiskFiles.deleteRow (files : DiskFiles Row) (fileId : FileId) (rowIdx : Nat) :
    Except StoragePanic (DiskFiles Row) :=
  match files.lookup fileId with
  | none => .error .missingDiskFile
  | some entry => do return files.insert fileId (← entry.deleteRow rowIdx)

/-- `MooncakeIndex`: indices in memory, which are told apart by their address, and of files. -/
structure MooncakeIndex (Ident : Type) where
  inMemoryIndex : List (MemIndex Ident)
  fileIndices : List FileIndex

namespace MooncakeIndex

def new : MooncakeIndex Ident := ⟨[], []⟩

def insertMemoryIndex (index : MooncakeIndex Ident) (memIndex : MemIndex Ident) :
    MooncakeIndex Ident := { index with inMemoryIndex := index.inMemoryIndex ++ [memIndex] }

def deleteMemoryIndex [DecidableEq Ident] (index : MooncakeIndex Ident) (memIndex : MemIndex Ident) :
    MooncakeIndex Ident := { index with inMemoryIndex := index.inMemoryIndex.erase memIndex }

def insertFileIndex (index : MooncakeIndex Ident) (fileIndex : FileIndex) : MooncakeIndex Ident :=
  { index with fileIndices := index.fileIndices ++ [fileIndex] }

/-- The locations of a record, in memory and in files. -/
def findRecord [DecidableEq Ident] (index : MooncakeIndex Ident) (record : RawDeletionRecord Ident) :
    List RecordLocation :=
  (index.inMemoryIndex.flatMap fun i =>
    (i.findRecord record).map fun loc => RecordLocation.memoryBatch loc.1 loc.2) ++
  index.fileIndices.flatMap fun i =>
    (i.entries.filter (·.1 = record.lookupKey)).map Prod.snd

/-- The locations of several records, each once for its key. -/
def findRecords [DecidableEq Ident] (index : MooncakeIndex Ident)
    (records : List (RawDeletionRecord Ident)) : List (Nat × RecordLocation) :=
  ((index.inMemoryIndex.flatMap fun i => records.flatMap fun record =>
    (i.findRecord record).map fun loc =>
      (record.lookupKey, RecordLocation.memoryBatch loc.1 loc.2)).dedup) ++
  index.fileIndices.flatMap fun i => i.entries.filter fun e => records.any (·.lookupKey = e.1)

end MooncakeIndex

/-! ## Ended streams -/

structure TransactionStreamCommit (Row Ident : Type) where
  xactId : Nat
  commitLsn : Nat
  flushedFileIndices : List FileIndex
  flushedFiles : DiskFiles Row
  localDeletions : List ProcessedDeletionRecord
  pendingDeletions : List (RawDeletionRecord Ident)

inductive TransactionStreamOutput (Row Ident : Type) where
  | commit (commit : TransactionStreamCommit Row Ident)
  | abort (xactId : Nat)

def lsnStartForStreamingXact : Nat := 0xFFFF_FFFF_0000_0000

/-- The LSN of the deletions of a stream that is not committed. Transaction ids have 32
bits, so the or of the code is a sum. -/
def getLsnForPendingXact (xactId : Nat) : Nat := lsnStartForStreamingXact + xactId

/-! ## Results of background tasks -/

structure FileIndiceMergeResult where
  oldFileIndices : List FileIndex
  newFileIndices : List FileIndex

/-- `PersistedRecords`, with the committed deletions that were persisted. -/
structure PersistedRecords where
  flushLsn : Nat
  committedDeletionLogs : List (FileId × Nat)
  newDataFiles : List FileId
  puffinBlobRef : AssocMap FileId (List Nat)
  newFileIndices : List FileIndex
  mergedFileIndicesAdded : List FileIndex
  mergedFileIndicesRemoved : List FileIndex
  compactedDataFilesAdded : List FileId
  compactedDataFilesRemoved : List FileId
  compactedFileIndicesAdded : List FileIndex
  compactedFileIndicesRemoved : List FileIndex
  dataFileRecordsRemap : DataFileRemap

structure RecordBatchWithDeletionVector (Row : Type) where
  batchId : Nat
  recordBatch : List Row
  /-- Batches of streams come with their deletions. -/
  deletionVector : Option BatchDeletionVector

structure SnapshotTask (Row Ident : Type) where
  newDiskSlices : List (DiskSliceWriter Row Ident)
  newDeletions : List (RawDeletionRecord Ident)
  newRecordBatches : List (RecordBatchWithDeletionVector Row)
  newRows : List Row
  newMemIndices : List (MemIndex Ident)
  newDiskFileLsnMap : AssocMap FileId Nat
  flushingBatchLsnMap : AssocMap Nat Nat
  commitLsnBaseline : Nat
  prevCommitLsnBaseline : Nat
  newFlushLsn : Option Nat
  newLargestFlushLsn : Option Nat
  newCommitPoint : Option (Nat × Nat)
  newStreamingXact : List (TransactionStreamOutput Row Ident)
  forceEmptyPersistencePayload : Bool
  indexMergeResult : FileIndiceMergeResult
  compactingDataFiles : List FileId
  dataCompactionResult : Option (DataCompactionResult Row FileIndex)
  persistedRecords : Option PersistedRecords
  minOngoingFlushLsn : Nat

namespace SnapshotTask

/-- The fallback of the code for no ongoing flush. -/
def noOngoingFlush : Nat := 2 ^ 64 - 1

def new : SnapshotTask Row Ident where
  newDiskSlices := []
  newDeletions := []
  newRecordBatches := []
  newRows := []
  newMemIndices := []
  newDiskFileLsnMap := ∅
  flushingBatchLsnMap := ∅
  commitLsnBaseline := 0
  prevCommitLsnBaseline := 0
  newFlushLsn := none
  newLargestFlushLsn := none
  newCommitPoint := none
  newStreamingXact := []
  forceEmptyPersistencePayload := false
  indexMergeResult := ⟨[], []⟩
  compactingDataFiles := []
  dataCompactionResult := none
  persistedRecords := none
  minOngoingFlushLsn := noOngoingFlush

def getNewDataFiles (task : SnapshotTask Row Ident) : List (DataFile Row) :=
  (task.newDiskSlices.flatMap fun slice => slice.files) ++
  task.newStreamingXact.flatMap fun
    | .commit commit => commit.flushedFiles.entries.map fun f => ⟨f.1, f.2.data⟩
    | .abort _ => []

def getNewFileIndices (task : SnapshotTask Row Ident) : List FileIndex :=
  (task.newDiskSlices.flatMap fun slice => slice.newIndex.toList) ++
  task.newStreamingXact.flatMap fun
    | .commit commit => commit.flushedFileIndices
    | .abort _ => []

end SnapshotTask

/-! ## Records that are not persisted -/

structure UnpersistedRecords (Row : Type) where
  newDataFiles : List (DataFile Row)
  newFileIndices : List FileIndex
  mergedFileIndicesToRemove : List FileIndex
  mergedFileIndicesToAdd : List FileIndex
  compactedDataFilesToRemove : List FileId
  compactedDataFilesToAdd : List (DataFile Row)
  compactedFileIndicesToRemove : List FileIndex
  compactedFileIndicesToAdd : List FileIndex
  compactedDataFileRemap : DataFileRemap

namespace UnpersistedRecords

def new : UnpersistedRecords Row := ⟨[], [], [], [], [], [], [], [], ∅⟩

variable (records : UnpersistedRecords Row)

def getUnpersistedDataFilesSet : List FileId :=
  (records.newDataFiles ++ records.compactedDataFilesToAdd).map (·.fileId)

def getUnpersistedFileIndicesSet : List FileIndex :=
  records.newFileIndices ++ records.mergedFileIndicesToAdd ++ records.compactedFileIndicesToAdd

/-- The first entries of a buffer that were persisted are dropped. -/
def prune {α β : Type} (buffered : List α) (persisted : List β) : Except StoragePanic (List α) := do
  StoragePanic.assert (persisted.length ≤ buffered.length) .persistedMoreThanBuffered
  return buffered.drop persisted.length

def pruneRemap (remap persisted : DataFileRemap) : Except StoragePanic DataFileRemap :=
  if persisted.entries.isEmpty then .ok remap
  else do
    StoragePanic.assert (persisted.entries.length = remap.entries.length) .persistedMoreThanBuffered
    return ∅

def prunePersistedRecords : Option PersistedRecords → Except StoragePanic (UnpersistedRecords Row)
  | none => .ok records
  | some persisted => do
    return {
      newDataFiles := ← prune records.newDataFiles persisted.newDataFiles
      newFileIndices := ← prune records.newFileIndices persisted.newFileIndices
      mergedFileIndicesToRemove :=
        ← prune records.mergedFileIndicesToRemove persisted.mergedFileIndicesRemoved
      mergedFileIndicesToAdd :=
        ← prune records.mergedFileIndicesToAdd persisted.mergedFileIndicesAdded
      compactedDataFilesToAdd :=
        ← prune records.compactedDataFilesToAdd persisted.compactedDataFilesAdded
      compactedDataFilesToRemove :=
        ← prune records.compactedDataFilesToRemove persisted.compactedDataFilesRemoved
      compactedFileIndicesToAdd :=
        ← prune records.compactedFileIndicesToAdd persisted.compactedFileIndicesAdded
      compactedFileIndicesToRemove :=
        ← prune records.compactedFileIndicesToRemove persisted.compactedFileIndicesRemoved
      compactedDataFileRemap :=
        ← pruneRemap records.compactedDataFileRemap persisted.dataFileRecordsRemap }

def bufferCompactionData :
    Option (DataCompactionResult Row FileIndex) → Except StoragePanic (UnpersistedRecords Row)
  | none => .ok records
  | some result => do
    StoragePanic.assert records.compactedDataFileRemap.entries.isEmpty .compactionNotPersisted
    return { records with
      compactedDataFilesToAdd :=
        records.compactedDataFilesToAdd ++
          result.newDataFiles.map fun f => ⟨f.1.fileId, f.1.batches.flatten⟩
      compactedDataFilesToRemove := records.compactedDataFilesToRemove ++ result.oldDataFiles
      compactedFileIndicesToAdd := records.compactedFileIndicesToAdd ++ result.newFileIndices
      compactedFileIndicesToRemove := records.compactedFileIndicesToRemove ++ result.oldFileIndices
      compactedDataFileRemap := result.remappedDataFiles }

def bufferUnpersistedRecords (task : SnapshotTask Row Ident) : Except StoragePanic (UnpersistedRecords Row) :=
  bufferCompactionData
    { records with
      newDataFiles := records.newDataFiles ++ task.getNewDataFiles
      newFileIndices := records.newFileIndices ++ task.getNewFileIndices
      mergedFileIndicesToAdd :=
        records.mergedFileIndicesToAdd ++ task.indexMergeResult.newFileIndices
      mergedFileIndicesToRemove :=
        records.mergedFileIndicesToRemove ++ task.indexMergeResult.oldFileIndices }
    task.dataCompactionResult

end UnpersistedRecords

/-! ## Payloads -/

structure PersistenceSnapshotPayload (Row : Type) where
  flushLsn : Nat
  committedDeletionLogs : List (FileId × Nat)
  /-- The committed deletions, by file. -/
  newDeletionVector : AssocMap FileId BatchDeletionVector
  dataFiles : List (DataFile Row)
  fileIndices : List FileIndex
  mergedFileIndicesToAdd : List FileIndex
  mergedFileIndicesToRemove : List FileIndex
  compactedDataFilesToAdd : List (DataFile Row)
  compactedDataFilesToRemove : List FileId
  compactedFileIndicesToAdd : List FileIndex
  compactedFileIndicesToRemove : List FileIndex
  dataFileRecordsRemap : DataFileRemap

end Moonlink.Storage
