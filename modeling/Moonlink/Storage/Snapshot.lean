-- SUMMARY: The mooncake snapshot of a table: its files, batches and deletion logs, and how a snapshot task updates them.
import Moonlink.Storage.SnapshotTask

/-!
# Mooncake snapshots

A snapshot holds the committed state that readers see: data files with their deletion
vectors, closed batches in memory, and deletions that are committed but not persisted, or
not committed yet. `update_snapshot` applies a task in a fixed order: the results of
persistence and maintenance come first, then ended streams, batches and files, and the
deletions last.

Caches are left out. The order of entries in hash maps, and of index results with one
key, is not specified by the code; the model keeps the order of its lists.
-/

namespace Moonlink.Storage

open Lib

structure SnapshotTableState (Row Ident : Type) where
  diskFiles : DiskFiles Row
  snapshotVersion : Nat
  flushLsn : Option Nat
  largestFlushLsn : Option Nat
  indices : MooncakeIndex Ident
  /-- By batch id; the last one is open. -/
  batches : AssocMap Nat (InMemoryBatch Row)
  rows : List Row
  committedDeletionLog : List ProcessedDeletionRecord
  uncommittedDeletionLog : List ProcessedDeletionRecord
  compactingDataFiles : List FileId
  lastCommit : Nat × Nat
  unpersistedRecords : UnpersistedRecords Row

/-- The configuration that a snapshot reads. -/
structure SnapshotConfig (Row Ident : Type) where
  identity : IdentityProp Row Ident
  batchSize : Nat
  newDataFileCount : Nat
  newCommittedDeletionLog : Nat
  newCompactedDataFileCount : Nat
  oldCompactedDataFileCount : Nat
  oldMergedFileIndicesCount : Nat

structure SnapshotOption where
  forceCreate : Bool
  skipIcebergSnapshot : Bool

namespace SnapshotTableState

variable {Row Ident : Type}

/-! ## Persistence results -/

variable (s : SnapshotTableState Row Ident)

/-- The persisted files are still there; only where they are read from changes. -/
def updateDataFilesToPersisted (files : List FileId) : Except StoragePanic Unit :=
  StoragePanic.assert (files.all fun fileId => (s.diskFiles.lookup fileId).isSome) .missingDiskFile

/-- Indices of persisted files are replaced. -/
def updateFileIndicesToPersisted (newFileIndices : List FileIndex) :
    Except StoragePanic (SnapshotTableState Row Ident) := do
  let updatedFileIds := newFileIndices.flatMap (·.files)
  let kept := s.indices.fileIndices.filter fun i => i.files.all fun f => !updatedFileIds.contains f
  let fileIndices := kept ++ newFileIndices
  StoragePanic.assert (fileIndices.length = s.indices.fileIndices.length) .invalidMaintenanceResult
  return { s with indices := { s.indices with fileIndices } }

/-- Blobs of files that were removed meanwhile are dropped. -/
def updateDeletionVectorToPersisted
    (puffinBlobRef : AssocMap FileId (List Nat)) : SnapshotTableState Row Ident :=
  { s with diskFiles := puffinBlobRef.entries.foldl (fun files blob =>
      match files.lookup blob.1 with
      | some entry => files.insert blob.1 { entry with puffinDeletionBlob := some blob.2 }
      | none => files) s.diskFiles }

def updateSnapshotByIcebergSnapshot :
    Option PersistedRecords → Except StoragePanic (SnapshotTableState Row Ident)
  | none => .ok s
  | some persisted => do
    s.updateDataFilesToPersisted (persisted.newDataFiles ++ persisted.compactedDataFilesAdded)
    let s ← s.updateFileIndicesToPersisted
      (persisted.newFileIndices ++ persisted.mergedFileIndicesAdded ++
        persisted.compactedFileIndicesAdded)
    return s.updateDeletionVectorToPersisted persisted.puffinBlobRef

/-! ## Maintenance results -/

/-- Every old index is one of the snapshot. -/
def updateFileIndicesToMooncakeSnapshot (oldFileIndices newFileIndices : List FileIndex) :
    Except StoragePanic (SnapshotTableState Row Ident) :=
  if oldFileIndices.isEmpty then do
    StoragePanic.assert newFileIndices.isEmpty .invalidMaintenanceResult
    return s
  else do
    StoragePanic.assert (oldFileIndices.all (s.indices.fileIndices.contains ·))
      .invalidMaintenanceResult
    let kept := s.indices.fileIndices.filter fun i => !oldFileIndices.contains i
    return { s with indices := { s.indices with fileIndices := kept ++ newFileIndices } }

/-- Move the deletion of one row to the new file, unless the row was compacted away. -/
def remapDeletedRow (remap : DataFileRemap) (fileId : FileId) (files : DiskFiles Row) (rowIdx : Nat) :
    Except StoragePanic (DiskFiles Row) :=
  match remap.lookup (.diskFile fileId rowIdx) with
  | none => .ok files
  | some location => files.deleteRow location.newDataFile location.recordLocation.getRowIdx

/-- Drop an old file and remap its deletions. -/
def removeCompactedFile (remap : DataFileRemap) (files : DiskFiles Row) (fileId : FileId) :
    Except StoragePanic (DiskFiles Row) :=
  match files.lookup fileId with
  | none => .error .missingDiskFile
  | some entry =>
    let files := files.erase fileId
    if entry.committedDeletionVector.isEmpty then do
      StoragePanic.assert entry.puffinDeletionBlob.isNone .invalidMaintenanceResult
      return files
    else
      entry.committedDeletionVector.collectDeletedRows.foldlM (remapDeletedRow remap fileId) files

def updateDataFilesToMooncakeSnapshot
    (result : DataCompactionResult Row FileIndex) : Except StoragePanic (SnapshotTableState Row Ident) :=
  if result.oldDataFiles.isEmpty then do
    StoragePanic.assert (result.newDataFiles.isEmpty && result.remappedDataFiles.entries.isEmpty)
      .invalidMaintenanceResult
    return s
  else do
    StoragePanic.assert (result.oldDataFiles.length ≤ s.diskFiles.entries.length)
      .invalidMaintenanceResult
    let files := result.newDataFiles.foldl (fun files new =>
      files.insert new.1.fileId
        { numRows := new.2.numRows
          data := new.1.batches.flatten
          committedDeletionVector := .new new.2.numRows
          puffinDeletionBlob := none }) s.diskFiles
    let diskFiles ← result.oldDataFiles.foldlM (removeCompactedFile result.remappedDataFiles) files
    return { s with diskFiles }

def updateDataCompactionToMooncakeSnapshot :
    Option (DataCompactionResult Row FileIndex) → Except StoragePanic (SnapshotTableState Row Ident)
  | none => .ok s
  | some result => do
    let s ← s.updateDataFilesToMooncakeSnapshot result
    s.updateFileIndicesToMooncakeSnapshot result.oldFileIndices result.newFileIndices

/-- An entry of the map is used up by the deletion that it remaps. -/
def remapRecordLocationAfterCompaction (remap : DataFileRemap) (deletion : ProcessedDeletionRecord) :
    Option (ProcessedDeletionRecord × DataFileRemap) :=
  match remap.lookup deletion.pos with
  | none => none
  | some location => some ({ deletion with pos := location.recordLocation }, remap.erase deletion.pos)

def remapUncommittedDeletionLogs (remap : DataFileRemap) :
    List ProcessedDeletionRecord → List ProcessedDeletionRecord × DataFileRemap
  | [] => ([], remap)
  | deletion :: rest =>
    match remapRecordLocationAfterCompaction remap deletion with
    | some (deletion, remap) =>
      let (rest, remap) := remapUncommittedDeletionLogs remap rest
      (deletion :: rest, remap)
    | none =>
      let (rest, remap) := remapUncommittedDeletionLogs remap rest
      (deletion :: rest, remap)

/-- The file of a deletion, if it is on disk. -/
def fileIdOf (deletion : ProcessedDeletionRecord) : Option FileId :=
  match deletion.pos with
  | .diskFile fileId _ => some fileId
  | .memoryBatch _ _ => none

/-- Every committed deletion of an old file can be remapped, or the code panics. -/
def remapCommittedDeletionLogs (oldDataFiles : List FileId) (remap : DataFileRemap) :
    List ProcessedDeletionRecord →
      Except StoragePanic (List ProcessedDeletionRecord × DataFileRemap)
  | [] => .ok ([], remap)
  | deletion :: rest =>
    if (fileIdOf deletion).any (oldDataFiles.contains ·) then
      match remapRecordLocationAfterCompaction remap deletion with
      | some (deletion, remap) => do
        let (rest, remap) ← remapCommittedDeletionLogs oldDataFiles remap rest
        return (deletion :: rest, remap)
      | none => .error .deletionLogNotRemapped
    else do
      let (rest, remap) ← remapCommittedDeletionLogs oldDataFiles remap rest
      return (deletion :: rest, remap)

/-- Also returns the result with what is left of its map. -/
def remapDeletionLogsAfterCompaction : Option (DataCompactionResult Row FileIndex) →
      Except StoragePanic
        (SnapshotTableState Row Ident × Option (DataCompactionResult Row FileIndex))
  | none => .ok (s, none)
  | some result => do
    let (uncommittedDeletionLog, remap) :=
      remapUncommittedDeletionLogs result.remappedDataFiles s.uncommittedDeletionLog
    let (committedDeletionLog, remap) ←
      remapCommittedDeletionLogs result.oldDataFiles remap s.committedDeletionLog
    return ({ s with uncommittedDeletionLog, committedDeletionLog },
      some { result with remappedDataFiles := remap })

/-! ## Pruning -/

/-- Entries that are persisted go, except those of files that are compacted. -/
def isKept (persisted : List (FileId × Nat)) (deletion : ProcessedDeletionRecord) : Bool :=
  match deletion.pos with
  | .memoryBatch _ _ => true
  | .diskFile fileId rowIdx =>
    !persisted.contains (fileId, rowIdx) || s.compactingDataFiles.contains fileId

def pruneCommittedDeletionLogs : Option PersistedRecords → Except StoragePanic (SnapshotTableState Row Ident)
  | none => .ok s
  | some persisted => do
    StoragePanic.assert (s.committedDeletionLog.all (·.lsn ≤ s.snapshotVersion))
      .deletionLogAfterSnapshot
    return { s with
      committedDeletionLog :=
        s.committedDeletionLog.filter (s.isKept persisted.committedDeletionLogs) }

/-! ## Streams, batches and files -/

/-- The deletions of a committed stream get its LSN. -/
def commitPendingLsn (commit : TransactionStreamCommit Row Ident) (lsn : Nat) : Nat :=
  if lsn = getLsnForPendingXact commit.xactId then commit.commitLsn - 1 else lsn

def applyTransactionStream (acc : SnapshotTableState Row Ident × SnapshotTask Row Ident) :
    TransactionStreamOutput Row Ident → SnapshotTableState Row Ident × SnapshotTask Row Ident
  | .commit commit =>
    let (s, task) := acc
    let newDeletions := task.newDeletions ++ commit.pendingDeletions
    ({ s with
        diskFiles := commit.flushedFiles.entries.foldl (fun files f => files.insert f.1 f.2) s.diskFiles
        indices := commit.flushedFileIndices.foldl (·.insertFileIndex ·) s.indices
        committedDeletionLog := s.committedDeletionLog ++ commit.localDeletions
        uncommittedDeletionLog := s.uncommittedDeletionLog.map fun deletion =>
          { deletion with lsn := commitPendingLsn commit deletion.lsn } },
      { task with
        newDiskFileLsnMap := commit.flushedFiles.keys.foldl (fun m f => m.insert f commit.commitLsn)
          task.newDiskFileLsnMap
        newDeletions := newDeletions.map fun deletion =>
          { deletion with lsn := commitPendingLsn commit deletion.lsn } })
  | .abort xactId =>
    let (s, task) := acc
    ({ s with
        uncommittedDeletionLog := s.uncommittedDeletionLog.filter
          fun deletion => deletion.lsn != getLsnForPendingXact xactId },
      { task with
        newDeletions := task.newDeletions.filter
          fun deletion => deletion.lsn != getLsnForPendingXact xactId })

def isStreamingBatch (batch : RecordBatchWithDeletionVector Row) : Bool :=
  batch.batchId < streamingBatchIdMax

/-- The batch with the largest id. -/
def lastBatch (batches : AssocMap Nat (InMemoryBatch Row)) : Option Nat := batches.keys.max?

def addBatch (batches : AssocMap Nat (InMemoryBatch Row)) (batch : RecordBatchWithDeletionVector Row) :
    Except StoragePanic (AssocMap Nat (InMemoryBatch Row)) := do
  StoragePanic.assert (batches.lookup batch.batchId).isNone .duplicateBatch
  let deletions := batch.deletionVector.getD (.new batch.recordBatch.length)
  return batches.insert batch.batchId ⟨some batch.recordBatch, deletions⟩

/-- The first new batch closes the open one, and a new one is opened after the last. -/
def closeOpenBatch (batchSize : Nat) (batches : AssocMap Nat (InMemoryBatch Row)) :
    List (RecordBatchWithDeletionVector Row) →
      Except StoragePanic
        (AssocMap Nat (InMemoryBatch Row) × List (RecordBatchWithDeletionVector Row))
  | [] => .ok (batches, [])
  | first :: rest =>
    match lastBatch batches with
    | none => .error .missingBatch
    | some lastId =>
      match batches.lookup lastId with
      | none => .error .missingBatch
      | some last => do
        StoragePanic.assert last.data.isNone .lastBatchNotOpen
        let batches := batches.insert lastId { last with data := some first.recordBatch }
        let nextId := (rest.getLast?.getD first).batchId + 1
        StoragePanic.assert (batches.lookup nextId).isNone .duplicateBatch
        return (batches.insert nextId (.new batchSize), rest)

def finalizeBatches (batchSize : Nat) (incoming : List (RecordBatchWithDeletionVector Row)) :
    Except StoragePanic (SnapshotTableState Row Ident) := do
  let (streaming, nonStreaming) := incoming.partition isStreamingBatch
  let (batches, nonStreaming) ← closeOpenBatch batchSize s.batches nonStreaming
  let batches ← (streaming ++ nonStreaming).foldlM addBatch batches
  return { s with batches }

def insertNewFile (files : DiskFiles Row) (file : DataFile Row) : Except StoragePanic (DiskFiles Row) := do
  StoragePanic.assert (files.lookup file.fileId).isNone .duplicateDiskFile
  return files.insert file.fileId (.new file)

/-- A deletion that moves to a new file is applied to it. -/
def remapCommittedDeletion (slice : DiskSliceWriter Row Ident) (files : DiskFiles Row)
    (deletion : ProcessedDeletionRecord) : Except StoragePanic (DiskFiles Row) :=
  match slice.remapLocation deletion.pos with
  | some (.diskFile fileId rowIdx) =>
    if (files.lookup fileId).isSome then files.deleteRow fileId rowIdx else .ok files
  | _ => .ok files

def removeBatch (batches : AssocMap Nat (InMemoryBatch Row)) (entry : BatchEntry Row) :
    Except StoragePanic (AssocMap Nat (InMemoryBatch Row)) := do
  StoragePanic.assert (batches.lookup entry.id).isSome .missingBatch
  return batches.erase entry.id

def integrateDiskSlice [DecidableEq Ident] (s : SnapshotTableState Row Ident)
    (slice : DiskSliceWriter Row Ident) : Except StoragePanic (SnapshotTableState Row Ident) := do
  StoragePanic.assert slice.writerLsn.isSome .missingWriterLsn
  let files ← slice.files.foldlM insertNewFile s.diskFiles
  let diskFiles ← s.committedDeletionLog.foldlM (remapCommittedDeletion slice) files
  let batches ← slice.batches.foldlM removeBatch s.batches
  let indices := slice.newIndex.toList.foldl (·.insertFileIndex ·) s.indices
  return { s with
    diskFiles
    committedDeletionLog := s.committedDeletionLog.map slice.remapDeletionIfNeeded
    uncommittedDeletionLog := s.uncommittedDeletionLog.map slice.remapDeletionIfNeeded
    indices := indices.deleteMemoryIndex slice.oldIndex
    batches }

def integrateDiskSlices [DecidableEq Ident] (s : SnapshotTableState Row Ident)
    (slices : List (DiskSliceWriter Row Ident)) : Except StoragePanic (SnapshotTableState Row Ident) :=
  slices.foldlM integrateDiskSlice s

/-- The LSNs of the files of the slices. -/
def recordDiskFileLsns (slices : List (DiskSliceWriter Row Ident)) (m : AssocMap FileId Nat) :
    AssocMap FileId Nat :=
  slices.foldl (fun m slice => slice.files.foldl
    (fun m file => m.insert file.fileId (slice.writerLsn.getD 0)) m) m

/-! ## Deletions -/

/-- A deletion of a batch that was flushed meanwhile is only logged. -/
def commitDeletion (deletion : ProcessedDeletionRecord) :
    Except StoragePanic (SnapshotTableState Row Ident) :=
  match deletion.pos with
  | .memoryBatch batchId rowIdx =>
    match s.batches.lookup batchId with
    | none => .ok { s with committedDeletionLog := s.committedDeletionLog ++ [deletion] }
    | some batch => do
      let deletions ← batch.deletions.deleteActiveRow rowIdx
      return { s with
        batches := s.batches.insert batchId { batch with deletions }
        committedDeletionLog := s.committedDeletionLog ++ [deletion] }
  | .diskFile fileId rowIdx => do
    let diskFiles ← s.diskFiles.deleteRow fileId rowIdx
    return { s with diskFiles, committedDeletionLog := s.committedDeletionLog ++ [deletion] }

/-- Commit a deletion, or keep it for later. -/
def addProcessedDeletion (newCommitLsn : Nat) (s : SnapshotTableState Row Ident)
    (deletion : ProcessedDeletionRecord) : Except StoragePanic (SnapshotTableState Row Ident) :=
  if deletion.lsn < newCommitLsn then s.commitDeletion deletion
  else .ok { s with uncommittedDeletionLog := s.uncommittedDeletionLog ++ [deletion] }

def advancePendingDeletions (commitLsnBaseline : Nat) : Except StoragePanic (SnapshotTableState Row Ident) :=
  s.uncommittedDeletionLog.foldlM (addProcessedDeletion commitLsnBaseline)
    { s with uncommittedDeletionLog := [] }

def isDeleted (s : SnapshotTableState Row Ident) : RecordLocation → Except StoragePanic Bool
  | .memoryBatch batchId rowIdx =>
    match s.batches.lookup batchId with
    | none => .error .missingBatch
    | some batch => .ok (batch.deletions.isDeleted rowIdx)
  | .diskFile fileId rowIdx =>
    match s.diskFiles.lookup fileId with
    | none => .error .missingDiskFile
    | some entry => .ok (entry.committedDeletionVector.isDeleted rowIdx)

/-- Rows of batches and files that are later than the deletion are not visible to it. -/
def isVisible (fileIdToLsn batchIdToLsn : AssocMap Nat Nat) (lsn : Nat) : RecordLocation → Bool
  | .memoryBatch batchId _ => (batchIdToLsn.lookup batchId).all (· ≤ lsn)
  | .diskFile fileId _ => (fileIdToLsn.lookup fileId).all (· ≤ lsn)

/-- The row at a location. -/
def rowAt : RecordLocation → Except StoragePanic Row
  | .memoryBatch batchId rowIdx =>
    match (s.batches.lookup batchId).bind fun batch => batch.data.bind (·[rowIdx]?) with
    | none => .error .missingBatch
    | some row => .ok row
  | .diskFile fileId rowIdx =>
    match (s.diskFiles.lookup fileId).bind (·.data[rowIdx]?) with
    | none => .error .missingDiskFile
    | some row => .ok row

def matchesIdentity (s : SnapshotTableState Row Ident) (identity : IdentityProp Row Ident)
    (loc : RecordLocation) (i : Ident) : Except StoragePanic Bool := do
  let row ← s.rowAt loc
  match loc with
  | .memoryBatch .. => IdentityProp.checkRow identity.equalsRecordBatchAtOffset (some i) (some row)
  | .diskFile .. => IdentityProp.checkRow identity.equalsParquetAtOffset (some i) (some row)

/-- The candidates that are not deleted and visible. -/
def activeCandidates (s : SnapshotTableState Row Ident) (task : SnapshotTask Row Ident) (lsn : Nat) :
    List RecordLocation → Except StoragePanic (List RecordLocation)
  | [] => .ok []
  | loc :: rest => do
    let deleted ← s.isDeleted loc
    let rest ← s.activeCandidates task lsn rest
    return if !deleted && isVisible task.newDiskFileLsnMap task.flushingBatchLsnMap lsn loc
      then loc :: rest else rest

/-- The position of the first candidate that matches. -/
def findMatch (s : SnapshotTableState Row Ident)
    (identity : IdentityProp Row Ident) (i : Ident) :
    List RecordLocation → Except StoragePanic (Option Nat)
  | [] => .ok none
  | loc :: rest => do
    if ← s.matchesIdentity identity loc i then return some 0
    else return (← s.findMatch identity i rest).map (· + 1)

/-- `swap_remove`: the last element takes the place of the removed one. -/
def swapRemove {α : Type} (l : List α) (idx : Nat) : List α :=
  match l.getLast? with
  | none => []
  | some last => if idx + 1 = l.length then l.dropLast else (l.set idx last).dropLast

def buildProcessedDeletion (deletion : RawDeletionRecord Ident) (pos : RecordLocation) :
    ProcessedDeletionRecord := ⟨pos, deletion.lsn⟩

/-- Each deletion takes a candidate with its identity. -/
def disambiguate (s : SnapshotTableState Row Ident)
    (identity : IdentityProp Row Ident) (candidates : List RecordLocation) :
    List (RawDeletionRecord Ident) → Except StoragePanic (List ProcessedDeletionRecord)
  | [] => .ok []
  | deletion :: rest =>
    match deletion.rowIdentity with
    | none => .error .noMatchingCandidate
    | some i => do
      match ← s.findMatch identity i candidates with
      | none => .error .noMatchingCandidate
      | some idx =>
        match candidates[idx]? with
        | none => .error .noMatchingCandidate
        | some loc =>
          let rest ← s.disambiguate identity (swapRemove candidates idx) rest
          return buildProcessedDeletion deletion loc :: rest

/-- `delete_if_exists`: the row may not be there. -/
def matchIfExists (s : SnapshotTableState Row Ident)
    (identity : IdentityProp Row Ident) (candidates : List RecordLocation)
    (deletion : RawDeletionRecord Ident) : Except StoragePanic (List ProcessedDeletionRecord) :=
  match deletion.rowIdentity with
  | none => .ok (candidates.getLast?.map (buildProcessedDeletion deletion)).toList
  | some i => do
    let idx ← s.findMatch identity i candidates
    return ((idx.bind (candidates[·]?)).map (buildProcessedDeletion deletion)).toList

def matchDeletionsWithIdenticalKeyAndLsn (s : SnapshotTableState Row Ident)
    (identity : IdentityProp Row Ident) (task : SnapshotTask Row Ident)
    (deletions : List (RawDeletionRecord Ident)) (indexLookupResult : List RecordLocation)
    (deleteIfExists : Bool) : Except StoragePanic (List ProcessedDeletionRecord) :=
  match deletions with
  | [] => .ok []
  | first :: _ => do
    let candidates ← s.activeCandidates task first.lsn indexLookupResult
    if deleteIfExists then
      StoragePanic.assert (deletions.length = 1) .mixedDeleteIfExists
      s.matchIfExists identity candidates first
    else if candidates.length = deletions.length then
      return (candidates.zip deletions).map fun c => buildProcessedDeletion c.2 c.1
    else if candidates.length < deletions.length then .error .fewerCandidatesThanDeletions
    else s.disambiguate identity candidates deletions

/-- Resolve the deletions with one key and LSN. -/
def applyDeletionGroup (identity : IdentityProp Row Ident)
    (task : SnapshotTask Row Ident) (lookup : List (Nat × RecordLocation)) (deleteIfExists : Bool)
    (s : SnapshotTableState Row Ident) (deletions : List (RawDeletionRecord Ident)) :
    Except StoragePanic (SnapshotTableState Row Ident) := do
  let key := (deletions.head?.map (·.lookupKey)).getD 0
  let locations := (lookup.filter (·.1 = key)).map Prod.snd
  let processed ← s.matchDeletionsWithIdenticalKeyAndLsn identity task deletions locations deleteIfExists
  processed.foldlM (addProcessedDeletion task.commitLsnBaseline) s

def sortDeletions (deletions : List (RawDeletionRecord Ident)) : List (RawDeletionRecord Ident) :=
  deletions.insertionSort fun a b =>
    a.lookupKey < b.lookupKey ∨ (a.lookupKey = b.lookupKey ∧ a.lsn ≤ b.lsn)

/-- Deletions with a position come first; the others are looked up in the index. -/
def applyNewDeletions [DecidableEq Ident] (identity : IdentityProp Row Ident)
    (s : SnapshotTableState Row Ident) (task : SnapshotTask Row Ident) :
    Except StoragePanic (SnapshotTableState Row Ident) := do
  let alreadyProcessed := task.newDeletions.filterMap fun deletion =>
    deletion.pos.map fun pos => buildProcessedDeletion deletion (.memoryBatch pos.1 pos.2)
  let s ← alreadyProcessed.foldlM (addProcessedDeletion task.commitLsnBaseline) s
  let newDeletions := sortDeletions (task.newDeletions.filter (·.pos.isNone))
  let deleteIfExists := newDeletions.any (·.deleteIfExists)
  StoragePanic.assert (newDeletions.isEmpty || deleteIfExists = newDeletions.all (·.deleteIfExists))
    .mixedDeleteIfExists
  let lookup := s.indices.findRecords newDeletions
  let groups := newDeletions.splitBy fun a b => a.lookupKey = b.lookupKey && a.lsn = b.lsn
  groups.foldlM (applyDeletionGroup identity task lookup deleteIfExists) s

def processDeletionLog [DecidableEq Ident] (identity : IdentityProp Row Ident)
    (s : SnapshotTableState Row Ident) (task : SnapshotTask Row Ident) :
    Except StoragePanic (SnapshotTableState Row Ident) := do
  let s ← s.advancePendingDeletions task.commitLsnBaseline
  s.applyNewDeletions identity task

/-! ## LSNs -/

variable (task : SnapshotTask Row Ident)

def validateMooncakeTableInvariants (opt : SnapshotOption) : Except StoragePanic Unit :=
  match task.newFlushLsn, s.flushLsn with
  | some newFlushLsn, some flushLsn =>
    if opt.forceCreate then do
      StoragePanic.assert (flushLsn ≤ newFlushLsn) .flushLsnRegresses
      StoragePanic.assert
        (task.commitLsnBaseline = 0 || newFlushLsn ≤ task.commitLsnBaseline ||
          task.commitLsnBaseline = task.prevCommitLsnBaseline) .flushLsnAfterCommit
    else do
      StoragePanic.assert (flushLsn < newFlushLsn) .flushLsnRegresses
      StoragePanic.assert (newFlushLsn ≤ task.commitLsnBaseline) .flushLsnAfterCommit
  | _, _ => .ok ()

/-- The LSNs and the commit point that the task sets. -/
def updateLsns : SnapshotTableState Row Ident :=
  { s with
    flushLsn := task.newFlushLsn <|> s.flushLsn
    largestFlushLsn :=
      match task.newLargestFlushLsn, s.largestFlushLsn with
      | some new, some largest => some (max new largest)
      | some new, none => some new
      | none, largest => largest
    snapshotVersion := if task.commitLsnBaseline = 0 then s.snapshotVersion else task.commitLsnBaseline
    lastCommit := task.newCommitPoint.getD s.lastCommit }

/-! ## Payloads -/

/-- A committed deletion that goes into the payload of a flush LSN. -/
def deletionToPersist (flushLsn : Nat) (deletion : ProcessedDeletionRecord) : Option (FileId × Nat) :=
  match deletion.pos with
  | .diskFile fileId rowIdx => if deletion.lsn < flushLsn then some (fileId, rowIdx) else none
  | .memoryBatch _ _ => none

/-- Add a deletion to the vector of its file, which has the size of the one of the snapshot. -/
def aggregateDeletion (files : DiskFiles Row) (vectors : AssocMap FileId BatchDeletionVector)
    (deletion : FileId × Nat) : Except StoragePanic (AssocMap FileId BatchDeletionVector) :=
  match files.lookup deletion.1 with
  | none => .error .missingDiskFile
  | some entry => do
    let vector := (vectors.lookup deletion.1).getD (.new entry.committedDeletionVector.maxRows)
    return vectors.insert deletion.1 (← vector.deleteActiveRow deletion.2)

/-- The deletions to persist, as a list and by file. -/
def aggregateCommittedDeletionLogs (flushLsn : Nat) :
    Except StoragePanic (List (FileId × Nat) × AssocMap FileId BatchDeletionVector) := do
  StoragePanic.assert (s.committedDeletionLog.all (·.lsn ≤ s.snapshotVersion)) .deletionLogAfterSnapshot
  let deletions := s.committedDeletionLog.filterMap (deletionToPersist flushLsn)
  let vectors ← deletions.foldlM (aggregateDeletion s.diskFiles) ∅
  return (deletions, vectors)

def persistByNewFilesOrMaintenance (cfg : SnapshotConfig Row Ident) (forceCreate : Bool) : Bool :=
  let threshold := fun n => if forceCreate then 1 else n
  threshold cfg.newDataFileCount ≤ s.unpersistedRecords.newDataFiles.length ||
    threshold cfg.newCompactedDataFileCount ≤ s.unpersistedRecords.compactedDataFilesToAdd.length ||
    threshold cfg.oldCompactedDataFileCount ≤ s.unpersistedRecords.compactedDataFilesToRemove.length ||
    threshold cfg.oldMergedFileIndicesCount ≤ s.unpersistedRecords.mergedFileIndicesToAdd.length

def persistByCommittedLogs (cfg : SnapshotConfig Row Ident) (forceCreate : Bool) : Bool :=
  (if forceCreate then 1 else cfg.newCommittedDeletionLog) ≤ s.committedDeletionLog.length

def getPersistenceSnapshotPayload (flushLsn : Nat)
    (deletions : List (FileId × Nat)) (vectors : AssocMap FileId BatchDeletionVector) :
    PersistenceSnapshotPayload Row where
  flushLsn
  committedDeletionLogs := deletions
  newDeletionVector := vectors
  dataFiles := s.unpersistedRecords.newDataFiles
  fileIndices := s.unpersistedRecords.newFileIndices
  mergedFileIndicesToAdd := s.unpersistedRecords.mergedFileIndicesToAdd
  mergedFileIndicesToRemove := s.unpersistedRecords.mergedFileIndicesToRemove
  compactedDataFilesToAdd := s.unpersistedRecords.compactedDataFilesToAdd
  compactedDataFilesToRemove := s.unpersistedRecords.compactedDataFilesToRemove
  compactedFileIndicesToAdd := s.unpersistedRecords.compactedFileIndicesToAdd
  compactedFileIndicesToRemove := s.unpersistedRecords.compactedFileIndicesToRemove
  dataFileRecordsRemap := s.unpersistedRecords.compactedDataFileRemap

/-- A payload is offered at a flush LSN before which everything is flushed. -/
def offerPayload (cfg : SnapshotConfig Row Ident) (task : SnapshotTask Row Ident) (opt : SnapshotOption) :
    Except StoragePanic (Option (PersistenceSnapshotPayload Row)) :=
  let byFilesOrMaintenance := s.persistByNewFilesOrMaintenance cfg opt.forceCreate
  let byTableWrite := s.flushLsn.isSome &&
    (byFilesOrMaintenance || s.persistByCommittedLogs cfg opt.forceCreate)
  let flushLsn := s.flushLsn.getD 0
  if !opt.skipIcebergSnapshot && (task.forceEmptyPersistencePayload || byTableWrite) &&
      decide (flushLsn < task.minOngoingFlushLsn) && decide (flushLsn = s.largestFlushLsn.getD 0) then do
    let (deletions, vectors) ← s.aggregateCommittedDeletionLogs flushLsn
    return if !deletions.isEmpty || byFilesOrMaintenance || task.forceEmptyPersistencePayload
      then some (s.getPersistenceSnapshotPayload flushLsn deletions vectors) else none
  else .ok none

/-! ## Update -/

/-- The part of the update that reflects persistence and maintenance. Also returns the
task with what is left of the compaction result. -/
def reflectResults : Except StoragePanic (SnapshotTableState Row Ident × SnapshotTask Row Ident) := do
  let s := { s with compactingDataFiles := task.compactingDataFiles }
  let s ← s.updateSnapshotByIcebergSnapshot task.persistedRecords
  let s ← s.updateFileIndicesToMooncakeSnapshot task.indexMergeResult.oldFileIndices
    task.indexMergeResult.newFileIndices
  let s ← s.updateDataCompactionToMooncakeSnapshot task.dataCompactionResult
  let (s, dataCompactionResult) ← s.remapDeletionLogsAfterCompaction task.dataCompactionResult
  let task := { task with dataCompactionResult }
  let s ← s.pruneCommittedDeletionLogs task.persistedRecords
  let unpersistedRecords ← s.unpersistedRecords.prunePersistedRecords task.persistedRecords
  let unpersistedRecords ← unpersistedRecords.bufferUnpersistedRecords task
  return ({ s with unpersistedRecords }, task)

/-- The part of the update that applies the writes. -/
def applyWrites [DecidableEq Ident] (s : SnapshotTableState Row Ident) (cfg : SnapshotConfig Row Ident)
    (task : SnapshotTask Row Ident) : Except StoragePanic (SnapshotTableState Row Ident) := do
  let (s, task) := task.newStreamingXact.foldl applyTransactionStream (s, task)
  let s := { s with indices := task.newMemIndices.foldl (·.insertMemoryIndex ·) s.indices }
  let s ← s.finalizeBatches cfg.batchSize task.newRecordBatches
  let s ← s.integrateDiskSlices task.newDiskSlices
  let task := { task with
    newDiskFileLsnMap := recordDiskFileLsns task.newDiskSlices task.newDiskFileLsnMap }
  let s := { s with rows := task.newRows }
  let s ← s.processDeletionLog cfg.identity task
  return s.updateLsns task

/-- The number of files that the task leaves. -/
def expectedDiskFilesCount : Nat :=
  let result := task.dataCompactionResult
  s.diskFiles.entries.length + task.getNewDataFiles.length -
    ((result.map (·.oldDataFiles.length)).getD 0) + (result.map (·.newDataFiles.length)).getD 0

/-- The number of file indices that the task leaves. -/
def expectedFileIndicesCount : Nat :=
  let result := task.dataCompactionResult
  s.indices.fileIndices.length + task.getNewFileIndices.length -
    task.indexMergeResult.oldFileIndices.length + task.indexMergeResult.newFileIndices.length -
    ((result.map (·.oldFileIndices.length)).getD 0) + (result.map (·.newFileIndices.length)).getD 0

def updateSnapshot [DecidableEq Ident] (s : SnapshotTableState Row Ident) (cfg : SnapshotConfig Row Ident)
    (task : SnapshotTask Row Ident) (opt : SnapshotOption) :
    Except StoragePanic (SnapshotTableState Row Ident × Option (PersistenceSnapshotPayload Row)) := do
  s.validateMooncakeTableInvariants task opt
  let expectedFiles := s.expectedDiskFilesCount task
  let expectedIndices := s.expectedFileIndicesCount task
  let (s, task) ← s.reflectResults task
  let s ← s.applyWrites cfg task
  let payload ← s.offerPayload cfg task opt
  StoragePanic.assert (expectedFiles = s.diskFiles.entries.length) .diskFilesCountDiffers
  StoragePanic.assert (expectedIndices = s.indices.fileIndices.length) .fileIndicesCountDiffers
  return (s, payload)

end SnapshotTableState
end Moonlink.Storage
