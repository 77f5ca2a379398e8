-- SUMMARY: The Iceberg table manager: the persisted data files and deletion vectors, and how a payload is persisted.
import Moonlink.Storage.SnapshotTask

/-!
# The Iceberg table

The manager keeps, for each persisted data file, the rows that are deleted in it. A
payload adds data files, removes those that were compacted, and adds deletions. Deletions
of a compacted file that are persisted already are moved to the new file.

Uploads and the manifest are left out: what is persisted is what the manager holds. A
payload that the manager rejects, or whose upload fails, is never persisted.
-/

namespace Moonlink.Storage

open Lib

variable {Row : Type}

/-- `DataFileEntry`, with the rows of the file. -/
structure DataFileEntry (Row : Type) where
  rows : List Row
  deletionVector : BatchDeletionVector

structure IcebergTableManager (Row : Type) where
  persistedDataFiles : AssocMap FileId (DataFileEntry Row)
  persistedFileIndices : List FileIndex

namespace PersistenceSnapshotPayload

def getNewFileIdsNum (payload : PersistenceSnapshotPayload Row) : Nat :=
  payload.newDeletionVector.entries.length + payload.dataFileRecordsRemap.entries.length

def dataFilesToImport (payload : PersistenceSnapshotPayload Row) : List (DataFile Row) :=
  payload.dataFiles ++ payload.compactedDataFilesToAdd

def fileIndicesToImport (payload : PersistenceSnapshotPayload Row) : List FileIndex :=
  payload.fileIndices ++ payload.mergedFileIndicesToAdd ++ payload.compactedFileIndicesToAdd

def fileIndicesToRemove (payload : PersistenceSnapshotPayload Row) : List FileIndex :=
  payload.mergedFileIndicesToRemove ++ payload.compactedFileIndicesToRemove

end PersistenceSnapshotPayload

namespace IcebergTableManager

variable (files : AssocMap FileId (DataFileEntry Row))

/-- A file is imported with no row deleted. -/
def importDataFile (file : DataFile Row) : Except StoragePanic (AssocMap FileId (DataFileEntry Row)) := do
  StoragePanic.assert (files.lookup file.fileId).isNone .duplicateDiskFile
  return files.insert file.fileId ⟨file.rows, .new file.rows.length⟩

/-- The vector of a new data file, which is created at its first deletion. -/
def vectorOf (vectors : AssocMap FileId BatchDeletionVector) (fileId : FileId) :
    Except StoragePanic BatchDeletionVector :=
  match vectors.lookup fileId with
  | some vector => .ok vector
  | none =>
    match files.lookup fileId with
    | none => .error .missingDiskFile
    | some entry => .ok (.new entry.rows.length)

/-- Move a persisted deletion to the new data file of its row. -/
def remapPersistedRow (remap : DataFileRemap)
    (fileId : FileId) (vectors : AssocMap FileId BatchDeletionVector) (rowIdx : Nat) :
    Except StoragePanic (AssocMap FileId BatchDeletionVector) :=
  match remap.lookup (.diskFile fileId rowIdx) with
  | none => .ok vectors
  | some location => do
    let vector ← vectorOf files vectors location.newDataFile
    return vectors.insert location.newDataFile
      (← vector.deleteActiveRow location.recordLocation.getRowIdx)

def remapPersistedFile (remap : DataFileRemap)
    (vectors : AssocMap FileId BatchDeletionVector) (file : Sigma fun _ : FileId => DataFileEntry Row) :
    Except StoragePanic (AssocMap FileId BatchDeletionVector) :=
  file.2.deletionVector.collectDeletedRows.foldlM (remapPersistedRow files remap file.1) vectors

def removeDataFile (fileId : FileId) : Except StoragePanic (AssocMap FileId (DataFileEntry Row)) := do
  StoragePanic.assert (files.lookup fileId).isSome .missingDiskFile
  return files.erase fileId

/-- Import and remove data files. Also returns the deletions that were moved. -/
def syncDataFiles (newDataFiles : List (DataFile Row)) (oldDataFiles : List FileId) (remap : DataFileRemap) :
    Except StoragePanic
      (AssocMap FileId (DataFileEntry Row) × AssocMap FileId BatchDeletionVector) :=
  if newDataFiles.isEmpty && oldDataFiles.isEmpty then .ok (files, ∅)
  else do
    let files ← newDataFiles.foldlM importDataFile files
    let remapped ← files.entries.foldlM (remapPersistedFile files remap) ∅
    let files ← oldDataFiles.foldlM removeDataFile files
    return (files, remapped)

/-- Add the deletions that were moved to those of the payload. -/
def mergeDeletionVector (vectors : AssocMap FileId BatchDeletionVector)
    (remapped : Sigma fun _ : FileId => BatchDeletionVector) :
    Except StoragePanic (AssocMap FileId BatchDeletionVector) :=
  match vectors.lookup remapped.1 with
  | some vector => do return vectors.insert remapped.1 (← vector.mergeWith remapped.2)
  | none => .ok (vectors.insert remapped.1 remapped.2)

/-- Write the blob of a file, which has all its deletions. -/
def syncDeletionVector (acc : AssocMap FileId (DataFileEntry Row) × AssocMap FileId (List Nat))
    (new : Sigma fun _ : FileId => BatchDeletionVector) :
    Except StoragePanic (AssocMap FileId (DataFileEntry Row) × AssocMap FileId (List Nat)) :=
  match acc.1.lookup new.1 with
  | none => .error .missingDiskFile
  | some entry => do
    let deletionVector ← entry.deletionVector.mergeWith new.2
    let deletedRows := deletionVector.collectDeletedRows
    StoragePanic.assert (!deletedRows.isEmpty) .invalidMaintenanceResult
    return (acc.1.insert new.1 { entry with deletionVector }, acc.2.insert new.1 deletedRows)

/-- `sync_snapshot`. New files that are persisted, or old ones that are not, are rejected. -/
def syncSnapshot (m : IcebergTableManager Row) (payload : PersistenceSnapshotPayload Row) :
    Except StoragePanic (PersistedRecords × IcebergTableManager Row) := do
  let newDataFiles := payload.dataFilesToImport
  let oldDataFiles := payload.compactedDataFilesToRemove
  StoragePanic.assert (newDataFiles.all fun f => (m.persistedDataFiles.lookup f.fileId).isNone)
    .duplicateDiskFile
  StoragePanic.assert (oldDataFiles.all fun f => (m.persistedDataFiles.lookup f).isSome)
    .missingDiskFile
  let (files, remapped) ← syncDataFiles m.persistedDataFiles newDataFiles oldDataFiles
    payload.dataFileRecordsRemap
  let vectors ← remapped.entries.foldlM mergeDeletionVector payload.newDeletionVector
  let (files, puffinBlobRef) ← vectors.entries.foldlM syncDeletionVector (files, ∅)
  StoragePanic.assert
    (payload.fileIndicesToRemove.all (m.persistedFileIndices ++ payload.fileIndicesToImport).contains)
    .invalidMaintenanceResult
  return (
    { flushLsn := payload.flushLsn
      committedDeletionLogs := payload.committedDeletionLogs
      newDataFiles := payload.dataFiles.map (·.fileId)
      puffinBlobRef
      newFileIndices := payload.fileIndices
      mergedFileIndicesAdded := payload.mergedFileIndicesToAdd
      mergedFileIndicesRemoved := payload.mergedFileIndicesToRemove
      compactedDataFilesAdded := payload.compactedDataFilesToAdd.map (·.fileId)
      compactedDataFilesRemoved := payload.compactedDataFilesToRemove
      compactedFileIndicesAdded := payload.compactedFileIndicesToAdd
      compactedFileIndicesRemoved := payload.compactedFileIndicesToRemove
      dataFileRecordsRemap := payload.dataFileRecordsRemap },
    { persistedDataFiles := files
      persistedFileIndices := (m.persistedFileIndices ++ payload.fileIndicesToImport).filter
        fun i => !payload.fileIndicesToRemove.contains i })

end IcebergTableManager
end Moonlink.Storage
