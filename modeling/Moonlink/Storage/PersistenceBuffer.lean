-- SUMMARY: The persistence buffer of a table over its runs: what tasks bring, payloads, their results, and the checks of the buffer.
import Moonlink.Lib.Outbox
import Moonlink.Storage.Maintenance

/-!
# The persistence buffer

Every snapshot task first drops what the persistence result that it brings confirms, by
count from the front, and then adds what it integrates. A payload takes the whole buffer.
At most one payload is outstanding: the next one is only taken when the result of the last
one was applied, or when its persistence failed.

Whether a snapshot looks for maintenance, which reads the buffer as sets, is an input. The
buffer is validated when debug assertions are compiled in.
-/

namespace Moonlink.Storage

open Lib

variable {Row Ident : Type}

inductive BufferPanic where
  /-- `prune_*` and `buffer_*`. -/
  | records (p : StoragePanic)
  /-- `get_unpersisted_*_set`. -/
  | sets (p : Maintenance.MaintenancePanic)
  /-- `persist_iceberg_snapshot_impl`: not the expected number of data files or indices. -/
  | persistedDataFileCount
  | persistedFileIndexCount
  /-- `validate_invariants`. -/
  | newFilesWithoutIndices
  | mergedIndicesDiffer
  | compactedWithoutOldFiles
  deriving DecidableEq, Repr

def BufferPanic.assert (c : Bool) (p : BufferPanic) : Except BufferPanic Unit :=
  if c then .ok () else .error p

/-! ## Payloads -/

/-- The records in a payload. -/
def PersistenceSnapshotPayload.records (p : PersistenceSnapshotPayload Row) : UnpersistedRecords Row where
  newDataFiles := p.dataFiles
  newFileIndices := p.fileIndices
  mergedFileIndicesToRemove := p.mergedFileIndicesToRemove
  mergedFileIndicesToAdd := p.mergedFileIndicesToAdd
  compactedDataFilesToRemove := p.compactedDataFilesToRemove
  compactedDataFilesToAdd := p.compactedDataFilesToAdd
  compactedFileIndicesToRemove := p.compactedFileIndicesToRemove
  compactedFileIndicesToAdd := p.compactedFileIndicesToAdd
  compactedDataFileRemap := p.dataFileRecordsRemap

/-- `PersistenceResult`: the remote files and indices, in the order in which they were given. -/
structure PersistenceResult where
  remoteDataFiles : List FileId
  puffinBlobRef : AssocMap FileId (List Nat)
  remoteFileIndices : List FileIndex

/-- What `sync_snapshot_impl` returns: file ids do not change, only the paths do. -/
def PersistenceSnapshotPayload.remote (p : PersistenceSnapshotPayload Row)
    (puffinBlobRef : AssocMap FileId (List Nat)) : PersistenceResult where
  remoteDataFiles := p.dataFilesToImport.map (·.fileId)
  puffinBlobRef
  remoteFileIndices := p.fileIndicesToImport

/-- The elements from one index up to another. -/
def slice {α : Type} (l : List α) (start stop : Nat) : List α := (l.take stop).drop start

/-- `persist_iceberg_snapshot_impl`: the result is cut into sections by the sizes of the payload. -/
def PersistenceSnapshotPayload.cutResult (p : PersistenceSnapshotPayload Row) (res : PersistenceResult) :
    Except BufferPanic PersistedRecords := do
  let newDataFilesCutoffIndex1 := p.dataFiles.length
  let newDataFilesCutoffIndex2 := newDataFilesCutoffIndex1 + p.compactedDataFilesToAdd.length
  BufferPanic.assert (newDataFilesCutoffIndex2 = res.remoteDataFiles.length) .persistedDataFileCount
  let newFileIndicesCutoffIndex1 := p.fileIndices.length
  let newFileIndicesCutoffIndex2 := newFileIndicesCutoffIndex1 + p.mergedFileIndicesToAdd.length
  let newFileIndicesCutoffIndex3 := newFileIndicesCutoffIndex2 + p.compactedFileIndicesToAdd.length
  BufferPanic.assert (newFileIndicesCutoffIndex3 = res.remoteFileIndices.length)
    .persistedFileIndexCount
  return {
    flushLsn := p.flushLsn
    committedDeletionLogs := p.committedDeletionLogs
    newDataFiles := slice res.remoteDataFiles 0 newDataFilesCutoffIndex1
    puffinBlobRef := res.puffinBlobRef
    newFileIndices := slice res.remoteFileIndices 0 newFileIndicesCutoffIndex1
    mergedFileIndicesAdded :=
      slice res.remoteFileIndices newFileIndicesCutoffIndex1 newFileIndicesCutoffIndex2
    mergedFileIndicesRemoved := p.mergedFileIndicesToRemove
    compactedDataFilesAdded :=
      slice res.remoteDataFiles newDataFilesCutoffIndex1 newDataFilesCutoffIndex2
    compactedDataFilesRemoved := p.compactedDataFilesToRemove
    compactedFileIndicesAdded :=
      slice res.remoteFileIndices newFileIndicesCutoffIndex2 newFileIndicesCutoffIndex3
    compactedFileIndicesRemoved := p.compactedFileIndicesToRemove
    dataFileRecordsRemap := p.dataFileRecordsRemap }

/-! ## Checks -/

/-- Whether there are old compacted indices is read off the old data files, as in the code. -/
def UnpersistedRecords.validateInvariants (U : UnpersistedRecords Row) (appendOnly : Bool) :
    Except BufferPanic Unit :=
  if appendOnly then .ok ()
  else do
    BufferPanic.assert (U.newDataFiles.isEmpty = U.newFileIndices.isEmpty) .newFilesWithoutIndices
    BufferPanic.assert (U.mergedFileIndicesToAdd.isEmpty = U.mergedFileIndicesToRemove.isEmpty)
      .mergedIndicesDiffer
    let oldCompactedDataFilesEmpty := U.compactedDataFilesToRemove.isEmpty
    let newCompactedDataFilesEmpty := U.compactedDataFilesToAdd.isEmpty
    let oldCompactedFileIndicesEmpty := U.compactedDataFilesToRemove.isEmpty
    let newCompactedFileIndicesEmpty := U.compactedFileIndicesToAdd.isEmpty
    if oldCompactedDataFilesEmpty then do
      BufferPanic.assert newCompactedDataFilesEmpty .compactedWithoutOldFiles
      BufferPanic.assert oldCompactedFileIndicesEmpty .compactedWithoutOldFiles
      BufferPanic.assert newCompactedFileIndicesEmpty .compactedWithoutOldFiles
    else BufferPanic.assert (!oldCompactedFileIndicesEmpty) .compactedWithoutOldFiles

/-- What a snapshot checks of its buffer. -/
def UnpersistedRecords.check (U : UnpersistedRecords Row) (appendOnly debugAssertions maintains : Bool) :
    Except BufferPanic Unit := do
  if maintains then
    let _ ← (Maintenance.getUnpersistedDataFilesSet U).mapError .sets
    let _ ← (Maintenance.getUnpersistedFileIndicesSet U).mapError .sets
  if debugAssertions then U.validateInvariants appendOnly

/-! ## Runs -/

structure PersistenceBuffer (Row : Type) where
  records : UnpersistedRecords Row
  /-- The payload that is being persisted. -/
  persistence : Option (PersistenceSnapshotPayload Row)
  /-- The persistence result that the next task brings. -/
  persisted : Option PersistedRecords

inductive BufferInput (Row Ident : Type) where
  | updateSnapshot (task : SnapshotTask Row Ident) (maintains : Bool)
  | persistSnapshot (flushLsn : Nat) (deletions : List (FileId × Nat))
      (vectors : AssocMap FileId BatchDeletionVector)
  | persistenceResult (puffinBlobRef : AssocMap FileId (List Nat))
  | persistenceFailed

namespace PersistenceBuffer

def new : PersistenceBuffer Row := ⟨.new, none, none⟩

/-- The part of the update of a snapshot that is about the buffer. -/
def integrate (b : PersistenceBuffer Row) (task : SnapshotTask Row Ident) :
    Except StoragePanic (UnpersistedRecords Row) := do
  let records ← b.records.prunePersistedRecords b.persisted
  records.bufferUnpersistedRecords task

/-- `get_persistence_snapshot_payload`. -/
def payload (b : PersistenceBuffer Row) (flushLsn : Nat) (deletions : List (FileId × Nat))
    (vectors : AssocMap FileId BatchDeletionVector) : PersistenceSnapshotPayload Row where
  flushLsn
  committedDeletionLogs := deletions
  newDeletionVector := vectors
  dataFiles := b.records.newDataFiles
  fileIndices := b.records.newFileIndices
  mergedFileIndicesToAdd := b.records.mergedFileIndicesToAdd
  mergedFileIndicesToRemove := b.records.mergedFileIndicesToRemove
  compactedDataFilesToAdd := b.records.compactedDataFilesToAdd
  compactedDataFilesToRemove := b.records.compactedDataFilesToRemove
  compactedFileIndicesToAdd := b.records.compactedFileIndicesToAdd
  compactedFileIndicesToRemove := b.records.compactedFileIndicesToRemove
  dataFileRecordsRemap := b.records.compactedDataFileRemap

/-- One step. A payload is only taken if none is outstanding. -/
def next (appendOnly debugAssertions : Bool) (b : PersistenceBuffer Row) :
    BufferInput Row Ident → Except BufferPanic (PersistenceBuffer Row)
  | .updateSnapshot task maintains => do
    let records ← (b.integrate task).mapError .records
    records.check appendOnly debugAssertions maintains
    return { b with records, persisted := none }
  | .persistSnapshot flushLsn deletions vectors =>
    if b.persistence.isNone && b.persisted.isNone then
      .ok { b with persistence := some (b.payload flushLsn deletions vectors) }
    else .ok b
  | .persistenceResult puffinBlobRef =>
    match b.persistence with
    | none => .ok b
    | some p => do
      let res ← p.cutResult (p.remote puffinBlobRef)
      return { b with persistence := none, persisted := some res }
  | .persistenceFailed => .ok { b with persistence := none }

def run (appendOnly debugAssertions : Bool) (b : PersistenceBuffer Row)
    (inputs : List (BufferInput Row Ident)) : Except BufferPanic (PersistenceBuffer Row) :=
  inputs.foldlM (next appendOnly debugAssertions) b

end PersistenceBuffer
end Moonlink.Storage
