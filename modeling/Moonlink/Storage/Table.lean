-- SUMMARY: The table with its rows: mem slices, streaming transactions, flushes and the next snapshot task.
import Moonlink.Storage.Snapshot
import Moonlink.Table.FlushLsn

/-!
# The table with its rows

This is the table at the level of batches, files and deletion records. Rows of the main
transaction go to the mem slice of the table; a streaming transaction has a mem slice and
files of its own until it ends. A delete looks for its row in the transaction first,
then in the mem slice of the table, and is left to the next snapshot otherwise.

The bloom filter of a stream only saves lookups and is left out.
-/

namespace Moonlink.Storage

open Lib

inductive StreamStatus where
  | pending
  | committed (commitLsn : Nat)
  | aborted
  deriving DecidableEq, Repr

/-- `TransactionStreamState`. -/
structure StreamState (Row Ident : Type) where
  memSlice : MemSlice Row Ident
  localDeletions : List ProcessedDeletionRecord
  pendingDeletionsInMainMemSlice : List (RawDeletionRecord Ident)
  streamIndices : MooncakeIndex Ident
  flushedFiles : DiskFiles Row
  newRecordBatches : AssocMap Nat (InMemoryBatch Row)
  status : StreamStatus
  ongoingFlushCount : Nat

/-- The configuration of a table; `parquetFileSize` is that of the disk slice writer. -/
structure TableConfig (Row Ident : Type) where
  snapshot : SnapshotConfig Row Ident
  parquetFileSize : Nat

structure MooncakeTable (Row Ident : Type) where
  memSlice : MemSlice Row Ident
  nonStreamingBatchIdCounter : BatchIdCounter
  streamingBatchIdCounter : BatchIdCounter
  nextSnapshotTask : SnapshotTask Row Ident
  /-- With the flush LSNs of the next task. -/
  flushLsns : FlushLsns
  transactionStreamStates : AssocMap Nat (StreamState Row Ident)
  nextFileId : Nat

variable {Row Ident : Type} [DecidableEq Ident]

namespace MooncakeTable

/-! ## The main transaction -/

variable (t : MooncakeTable Row Ident)

/-- A batch of the main mem slice that was closed goes to the next snapshot. -/
def addClosedBatch (batch : Option (Nat × List Row)) : MooncakeTable Row Ident :=
  { t with nextSnapshotTask := { t.nextSnapshotTask with
    newRecordBatches := t.nextSnapshotTask.newRecordBatches ++
      batch.toList.map fun b => ⟨b.1, b.2, none⟩ } }

def append (t : MooncakeTable Row Ident) (identity : IdentityProp Row Ident) (row : Row) :
    Except StoragePanic (MooncakeTable Row Ident) := do
  let (batch, memSlice, counter) ← t.memSlice.append identity t.nonStreamingBatchIdCounter row
  return addClosedBatch { t with memSlice, nonStreamingBatchIdCounter := counter } batch

/-- Append-only tables have no deletes. -/
def deleteImpl (identity : IdentityProp Row Ident) (row : Row)
    (lsn : Nat) (deleteIfExists : Bool) : Except StoragePanic (MooncakeTable Row Ident) :=
  if identity.kind = .none then .ok t
  else do
    let record := identity.deletionRecord row lsn deleteIfExists
    let (pos, memSlice) ← t.memSlice.delete identity record
    return { t with
      memSlice
      nextSnapshotTask := { t.nextSnapshotTask with
        newDeletions := t.nextSnapshotTask.newDeletions ++ [{ record with pos }] } }

/-- The last deletion is below the commit LSN, or one of a stream. -/
def commit (lsn : Nat) : Except StoragePanic (MooncakeTable Row Ident) := do
  StoragePanic.assert (t.nextSnapshotTask.commitLsnBaseline ≤ lsn) (.table .commitLsnBelowBaseline)
  StoragePanic.assert
    (t.nextSnapshotTask.newDeletions.getLast?.all fun deletion =>
      decide (lsnStartForStreamingXact ≤ deletion.lsn) || decide (deletion.lsn < lsn))
    (.table .commitLsnNotAboveDeletion)
  return { t with nextSnapshotTask := { t.nextSnapshotTask with
    commitLsnBaseline := lsn
    newCommitPoint := some t.memSlice.columnStore.getCommitCheckPoint } }

def recordFlushingBatch (lsn : Nat) (m : AssocMap Nat Nat) (batchId : Nat) :
    Except StoragePanic (AssocMap Nat Nat) := do
  StoragePanic.assert (m.lookup batchId).isNone .duplicateBatch
  return m.insert batchId lsn

/-- Drain the mem slice into a disk slice. -/
def prepareDiskSlice (lsn : Nat) :
    Except StoragePanic (DiskSliceWriter Row Ident × MooncakeTable Row Ident) := do
  let ((newBatch, batches, index), memSlice, counter) ← t.memSlice.drain t.nonStreamingBatchIdCounter
  let t := addClosedBatch { t with memSlice, nonStreamingBatchIdCounter := counter } newBatch
  let flushingBatchLsnMap ← (batches.map (·.id)).foldlM (recordFlushingBatch lsn)
    t.nextSnapshotTask.flushingBatchLsnMap
  return (.new batches (some lsn) t.nextFileId index,
    { t with
      nextFileId := t.nextFileId + 1
      nextSnapshotTask := { t.nextSnapshotTask with
        flushingBatchLsnMap
        newMemIndices := t.nextSnapshotTask.newMemIndices ++ [index] } })

/-- Returns the disk slice that is written in the background, if there is one. -/
def flush (lsn : Nat) : Except StoragePanic (Option (DiskSliceWriter Row Ident) × MooncakeTable Row Ident) :=
  if t.memSlice.isEmpty || (t.flushLsns.ongoingFlushLsns.lookup lsn).isSome then do
    let flushLsns ← StoragePanic.lift (t.flushLsns.emptyFlush lsn)
    return (none, { t with flushLsns })
  else do
    StoragePanic.assert (t.flushLsns.newFlushLsn.all (· ≤ lsn)) (.table .flushLsnRegressed)
    let (slice, t) ← t.prepareDiskSlice lsn
    let flushLsns ← StoragePanic.lift (t.flushLsns.insertOngoingFlushLsn lsn 1)
    return (some slice, { t with flushLsns })

/-- A slice that was written becomes part of the next snapshot. -/
def addDiskSlice (slice : DiskSliceWriter Row Ident) (lsn : Nat) :
    Except StoragePanic (MooncakeTable Row Ident) := do
  let flushLsns ← StoragePanic.lift (t.flushLsns.completeFlush lsn)
  return { t with
    flushLsns
    nextSnapshotTask := { t.nextSnapshotTask with
      newDiskSlices := t.nextSnapshotTask.newDiskSlices ++ [slice] } }

def applyFlushResult (slice : DiskSliceWriter Row Ident) : Except StoragePanic (MooncakeTable Row Ident) :=
  match slice.writerLsn with
  | none => .error .missingWriterLsn
  | some lsn => t.addDiskSlice slice lsn

/-! ## Streaming transactions -/

def setStreamState (xactId : Nat) (st : StreamState Row Ident) : MooncakeTable Row Ident :=
  { t with transactionStreamStates := t.transactionStreamStates.insert xactId st }

def getStreamState (xactId : Nat) : Except StoragePanic (StreamState Row Ident) :=
  match t.transactionStreamStates.lookup xactId with
  | some st => .ok st
  | none => .error (.table .streamStateNotFound)

def getOrCreateStreamState (cfg : SnapshotConfig Row Ident)
    (xactId : Nat) : Except StoragePanic (StreamState Row Ident × MooncakeTable Row Ident) :=
  match t.transactionStreamStates.lookup xactId with
  | some st => .ok (st, t)
  | none => do
    let (memSlice, counter) ← MemSlice.new cfg.identity cfg.batchSize t.streamingBatchIdCounter
    return (⟨memSlice, [], [], .new, ∅, ∅, .pending, 0⟩, { t with streamingBatchIdCounter := counter })

def appendInStreamBatch (cfg : SnapshotConfig Row Ident) (row : Row)
    (xactId : Nat) : Except StoragePanic (MooncakeTable Row Ident) := do
  let (st, t) ← t.getOrCreateStreamState cfg xactId
  let (_, memSlice, counter) ← st.memSlice.append cfg.identity t.streamingBatchIdCounter row
  return setStreamState { t with streamingBatchIdCounter := counter } xactId { st with memSlice }

end MooncakeTable

namespace StreamState

variable (st : StreamState Row Ident)

/-- Delete a row of a batch that is being flushed, unless it is deleted or another row. -/
def deleteInBatch (identity : IdentityProp Row Ident)
    (record : RawDeletionRecord Ident) (batchId rowIdx : Nat) :
    Except StoragePanic (Option (StreamState Row Ident)) :=
  match st.newRecordBatches.lookup batchId with
  | none => .error .missingBatch
  | some batch =>
    if batch.deletions.isDeleted rowIdx then .ok none
    else do
      let rowIdentity := if identity.requiresIdentityCheckInMemSlice then record.rowIdentity else none
      if ← IdentityProp.checkRow identity.equalsRecordBatchAtOffset rowIdentity (batch.data.bind (·[rowIdx]?)) then
        let deletions ← batch.deletions.deleteActiveRow rowIdx
        return some { st with
          localDeletions := st.localDeletions ++ [⟨.memoryBatch batchId rowIdx, record.lsn⟩]
          newRecordBatches := st.newRecordBatches.insert batchId { batch with deletions } }
      else return none

/-- Delete a row of a flushed file, unless it is deleted or another row. -/
def deleteInFile (identity : IdentityProp Row Ident)
    (record : RawDeletionRecord Ident) (fileId : FileId) (rowIdx : Nat) :
    Except StoragePanic (Option (StreamState Row Ident)) :=
  match st.flushedFiles.lookup fileId with
  | none => .error .missingDiskFile
  | some entry =>
    if entry.committedDeletionVector.isDeleted rowIdx then .ok none
    else do
      if ← IdentityProp.checkRow identity.equalsParquetAtOffset record.rowIdentity entry.data[rowIdx]? then
        let entry ← entry.deleteRow rowIdx
        return some { st with
          localDeletions := st.localDeletions ++ [⟨.diskFile fileId rowIdx, record.lsn⟩]
          flushedFiles := st.flushedFiles.insert fileId entry }
      else return none

def deleteAtLocation (identity : IdentityProp Row Ident)
    (record : RawDeletionRecord Ident) : RecordLocation → Except StoragePanic (Option (StreamState Row Ident))
  | .memoryBatch batchId rowIdx => st.deleteInBatch identity record batchId rowIdx
  | .diskFile fileId rowIdx => st.deleteInFile identity record fileId rowIdx

/-- The first location at which a row is deleted. -/
def deleteAtLocations (st : StreamState Row Ident) (identity : IdentityProp Row Ident)
    (record : RawDeletionRecord Ident) :
    List RecordLocation → Except StoragePanic (Option (StreamState Row Ident))
  | [] => .ok none
  | loc :: rest => do
    match ← st.deleteAtLocation identity record loc with
    | some st => return some st
    | none => st.deleteAtLocations identity record rest

/-- Delete a row that the transaction has added, if there is one. -/
def deleteLocal (identity : IdentityProp Row Ident)
    (record : RawDeletionRecord Ident) : Except StoragePanic (Bool × StreamState Row Ident) := do
  match ← st.memSlice.delete identity record with
  | (some _, memSlice) => return (true, { st with memSlice })
  | (none, memSlice) =>
    let st := { st with memSlice }
    match ← st.deleteAtLocations identity record (st.streamIndices.findRecord record) with
    | some st => return (true, st)
    | none => return (false, st)

/-- Take the batches of the mem slice as batches that are being flushed. -/
def drain (st : StreamState Row Ident) (counter : BatchIdCounter) :
    Except StoragePanic
      ((List (BatchEntry Row) × MemIndex Ident) × StreamState Row Ident × BatchIdCounter) := do
  let ((_, batches, index), memSlice, counter) ← st.memSlice.drain counter
  return ((batches, index),
    { st with
      memSlice
      newRecordBatches := batches.foldl (fun m b => m.insert b.id b.batch) st.newRecordBatches
      streamIndices := st.streamIndices.insertMemoryIndex index },
    counter)

def insertFlushedFile (files : DiskFiles Row) (file : DataFile Row) : Except StoragePanic (DiskFiles Row) := do
  StoragePanic.assert (files.lookup file.fileId).isNone .duplicateDiskFile
  return files.insert file.fileId (.new file)

def removeFlushedBatch (batches : AssocMap Nat (InMemoryBatch Row)) (entry : BatchEntry Row) :
    Except StoragePanic (AssocMap Nat (InMemoryBatch Row)) := do
  StoragePanic.assert (batches.lookup entry.id).isSome .missingBatch
  return batches.erase entry.id

/-- The flush of a transaction that is still open: its files take the place of its batches. -/
def integrateDiskSlice (slice : DiskSliceWriter Row Ident) : Except StoragePanic (StreamState Row Ident) := do
  let files ← slice.files.foldlM insertFlushedFile st.flushedFiles
  let newRecordBatches ← slice.batches.foldlM removeFlushedBatch st.newRecordBatches
  let indices := slice.newIndex.toList.foldl (·.insertFileIndex ·) st.streamIndices
  let flushedFiles ← st.localDeletions.foldlM (SnapshotTableState.remapCommittedDeletion slice) files
  return { st with
    flushedFiles
    newRecordBatches
    streamIndices := indices.deleteMemoryIndex slice.oldIndex
    localDeletions := st.localDeletions.map slice.remapDeletionIfNeeded }

end StreamState

namespace MooncakeTable

variable (t : MooncakeTable Row Ident)

/-- A row of the table is only marked at the commit, or left to the snapshot. -/
def deleteInStreamBatch (cfg : SnapshotConfig Row Ident) (row : Row)
    (xactId : Nat) : Except StoragePanic (MooncakeTable Row Ident) :=
  if cfg.identity.kind = .none then .ok t
  else do
    let record := cfg.identity.deletionRecord row (getLsnForPendingXact xactId) false
    let (st, t) ← t.getOrCreateStreamState cfg xactId
    let (deleted, st) ← st.deleteLocal cfg.identity record
    if deleted then return t.setStreamState xactId st
    else
      match ← t.memSlice.findNonDeletedPosition cfg.identity record with
      | some pos =>
        return t.setStreamState xactId { st with
          pendingDeletionsInMainMemSlice :=
            st.pendingDeletionsInMainMemSlice ++ [{ record with pos := some pos }] }
      | none =>
        let t := t.setStreamState xactId st
        return { t with nextSnapshotTask := { t.nextSnapshotTask with
          newDeletions := t.nextSnapshotTask.newDeletions ++ [record] } }

/-- Keep the state while flushes of a transaction that ended are pending. -/
def removeIfFlushed (xactId : Nat) (st : StreamState Row Ident) : MooncakeTable Row Ident :=
  if st.ongoingFlushCount = 0 then
    { t with transactionStreamStates := t.transactionStreamStates.erase xactId }
  else t.setStreamState xactId st

def abortInStreamBatch (xactId : Nat) : Except StoragePanic (MooncakeTable Row Ident) := do
  let st ← t.getStreamState xactId
  let t := t.removeIfFlushed xactId { st with status := .aborted }
  return { t with nextSnapshotTask := { t.nextSnapshotTask with
    newStreamingXact := t.nextSnapshotTask.newStreamingXact ++ [.abort xactId] } }

/-- Drain the mem slice of a transaction; with its commit LSN if it is known. Returns the
disk slice that is written in the background. -/
def flushStream (xactId : Nat) (lsn : Option Nat) :
    Except StoragePanic (DiskSliceWriter Row Ident × MooncakeTable Row Ident) := do
  let st ← t.getStreamState xactId
  let ((batches, index), st, counter) ← st.drain t.streamingBatchIdCounter
  let st := { st with ongoingFlushCount := st.ongoingFlushCount + 1 }
  let slice : DiskSliceWriter Row Ident := .new batches lsn t.nextFileId index
  let flushLsns ← match lsn with
    | some lsn => StoragePanic.lift (t.flushLsns.insertOngoingFlushLsn lsn st.ongoingFlushCount)
    | none => .ok t.flushLsns
  return (slice, setStreamState
    { t with streamingBatchIdCounter := counter, nextFileId := t.nextFileId + 1, flushLsns } xactId st)

/-- Mark a pending deletion in the mem slice of the table. If its batch was flushed
meanwhile, the snapshot looks for the row. -/
def commitPendingDeletion (acc : MemSlice Row Ident × List (RawDeletionRecord Ident))
    (deletion : RawDeletionRecord Ident) :
    Except StoragePanic (MemSlice Row Ident × List (RawDeletionRecord Ident)) :=
  match deletion.pos with
  | none => .ok (acc.1, acc.2 ++ [deletion])
  | some pos => do
    let (found, memSlice) ← acc.1.tryDeleteAtPos pos
    return (memSlice, acc.2 ++ [if found then deletion else { deletion with pos := none }])

def commitTransactionStreamImpl (xactId lsn : Nat) : Except StoragePanic (MooncakeTable Row Ident) := do
  let st ← t.getStreamState xactId
  let (_, st, counter) ← st.drain t.streamingBatchIdCounter
  let task := t.nextSnapshotTask
  let flushingBatchLsnMap ← st.newRecordBatches.keys.foldlM (recordFlushingBatch lsn)
    task.flushingBatchLsnMap
  StoragePanic.assert (task.commitLsnBaseline ≤ lsn) (.table .commitLsnBelowBaseline)
  let (memSlice, pendingDeletions) ←
    st.pendingDeletionsInMainMemSlice.foldlM commitPendingDeletion (t.memSlice, [])
  let commit : TransactionStreamCommit Row Ident := {
    xactId
    commitLsn := lsn
    flushedFileIndices := st.streamIndices.fileIndices
    flushedFiles := st.flushedFiles
    localDeletions := st.localDeletions.map fun deletion => { deletion with lsn := lsn - 1 }
    pendingDeletions }
  return setStreamState
    { t with
      memSlice
      streamingBatchIdCounter := counter
      flushLsns := if st.flushedFiles.entries.isEmpty then t.flushLsns
        else t.flushLsns.trySetLargestFlushLsn lsn
      nextSnapshotTask := { task with
        flushingBatchLsnMap
        commitLsnBaseline := lsn
        newRecordBatches := task.newRecordBatches ++ st.newRecordBatches.entries.map fun b =>
          ⟨b.1, b.2.data.getD [], some b.2.deletions⟩
        newMemIndices := task.newMemIndices ++ st.streamIndices.inMemoryIndex
        newStreamingXact := task.newStreamingXact ++ [.commit commit] } }
    xactId
    { st with
      localDeletions := []
      pendingDeletionsInMainMemSlice := []
      status := .committed lsn }

/-- Flush what is left of a transaction, then commit it. -/
def commitTransactionStream (xactId lsn : Nat) :
    Except StoragePanic (DiskSliceWriter Row Ident × MooncakeTable Row Ident) := do
  let (slice, t) ← t.flushStream xactId (some lsn)
  return (slice, ← t.commitTransactionStreamImpl xactId lsn)

/-- A flush of a transaction completes, before or after the transaction ended. -/
def applyStreamFlushResult (xactId : Nat)
    (slice : DiskSliceWriter Row Ident) : Except StoragePanic (MooncakeTable Row Ident) := do
  let st ← t.getStreamState xactId
  let st := { st with ongoingFlushCount := st.ongoingFlushCount - 1 }
  match st.status with
  | .committed commitLsn =>
    (t.removeIfFlushed xactId st).addDiskSlice
      { slice with writerLsn := slice.writerLsn <|> some commitLsn } commitLsn
  | .aborted => return t.removeIfFlushed xactId st
  | .pending => return t.setStreamState xactId (← st.integrateDiskSlice slice)

/-! ## Snapshots and background results -/

/-- The task that a snapshot takes, and the table with a new one. -/
def takeSnapshotTask : SnapshotTask Row Ident × MooncakeTable Row Ident :=
  let task := t.nextSnapshotTask
  ({ task with
      newRows := t.memSlice.columnStore.currentRows
      newFlushLsn := t.flushLsns.newFlushLsn
      newLargestFlushLsn := t.flushLsns.newLargestFlushLsn
      minOngoingFlushLsn := t.flushLsns.getMinOngoingFlushLsn },
    { t with
      flushLsns := t.flushLsns.handOver
      nextSnapshotTask := { SnapshotTask.new with
        commitLsnBaseline := task.commitLsnBaseline
        prevCommitLsnBaseline := task.commitLsnBaseline } })

/-- Ids of files have 32 bits. -/
def reserveFileIds (n : Nat) : Except StoragePanic (MooncakeTable Row Ident) := do
  StoragePanic.assert (t.nextFileId + n < 2 ^ 32) .fileIdsExhausted
  return { t with nextFileId := t.nextFileId + n }

/-- `build_index_for_files`: every row of the files. -/
def buildIndexForFiles (identity : IdentityProp Row Ident) (files : List (DataFile Row))
    (indexFileId : FileId) : FileIndex where
  id := indexFileId
  files := files.map (·.fileId)
  entries := files.flatMap fun file => file.rows.zipIdx.map fun row =>
    (identity.lookupKey row.1, .diskFile file.fileId row.2)

/-- Load files as one committed transaction, and set the LSNs directly. -/
def batchIngest (identity : IdentityProp Row Ident)
    (files : List (List Row)) (lsn : Nat) : Except StoragePanic (MooncakeTable Row Ident) := do
  let startId := t.nextFileId
  let t ← t.reserveFileIds files.length
  let dataFiles : List (DataFile Row) := (files.zipIdx startId).map fun f => ⟨f.2, f.1⟩
  let commit : TransactionStreamCommit Row Ident := {
    xactId := 0
    commitLsn := lsn
    flushedFileIndices :=
      if identity.kind = .none then [] else [buildIndexForFiles identity dataFiles t.nextFileId]
    flushedFiles := dataFiles.foldl (fun m file => m.insert file.fileId (.new file)) ∅
    localDeletions := []
    pendingDeletions := [] }
  return { t with
    flushLsns := { t.flushLsns with newFlushLsn := some lsn, newLargestFlushLsn := some lsn }
    nextSnapshotTask := { t.nextSnapshotTask with
      newStreamingXact := t.nextSnapshotTask.newStreamingXact ++ [.commit commit]
      commitLsnBaseline := lsn } }

/-- `batch_ingest` if the index cannot be built, which is only logged: the files are taken
over as those of an append-only table. -/
def batchIngestUnindexed (identity : IdentityProp Row Ident)
    (files : List (List Row)) (lsn : Nat) : Except StoragePanic (MooncakeTable Row Ident) :=
  t.batchIngest { identity with kind := .none, columns_eq := nofun } files lsn

def setPersistenceSnapshotRes (res : PersistedRecords) : Except StoragePanic (MooncakeTable Row Ident) := do
  StoragePanic.assert t.nextSnapshotTask.persistedRecords.isNone .invalidMaintenanceResult
  return { t with nextSnapshotTask := { t.nextSnapshotTask with persistedRecords := some res } }

def setFileIndicesMergeRes (res : FileIndiceMergeResult) : Except StoragePanic (MooncakeTable Row Ident) := do
  StoragePanic.assert
    (t.nextSnapshotTask.indexMergeResult.oldFileIndices.isEmpty &&
      t.nextSnapshotTask.indexMergeResult.newFileIndices.isEmpty) .invalidMaintenanceResult
  return { t with nextSnapshotTask := { t.nextSnapshotTask with indexMergeResult := res } }

def setDataCompactionRes (res : DataCompactionResult Row FileIndex) :
    Except StoragePanic (MooncakeTable Row Ident) := do
  StoragePanic.assert t.nextSnapshotTask.dataCompactionResult.isNone .invalidMaintenanceResult
  return { t with nextSnapshotTask := { t.nextSnapshotTask with dataCompactionResult := some res } }

/-- The files of a compaction are recorded for the next snapshot only. -/
def performDataCompaction (payload : DataCompactionPayload Row FileIndex) :
    Except StoragePanic (MooncakeTable Row Ident) := do
  let t ← t.reserveFileIds payload.getNewCompactedDataFileIdsNumber
  StoragePanic.assert t.nextSnapshotTask.compactingDataFiles.isEmpty .invalidMaintenanceResult
  return { t with nextSnapshotTask := { t.nextSnapshotTask with
    compactingDataFiles := payload.diskFiles.map (·.fileId) } }

end MooncakeTable
end Moonlink.Storage
