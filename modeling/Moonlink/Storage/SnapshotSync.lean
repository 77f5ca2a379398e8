-- SUMMARY: A sync of the Iceberg table with its failures: what the table manager and its buffered updates are after each.
import Moonlink.Lib.Attempts
import Moonlink.Storage.IcebergSpec

/-!
# Failed syncs

A sync uploads data files, deletion vectors and file indices, and then commits. In
between, the maps of the manager are updated and the updates that the commit needs are
buffered in the catalog. The buffered updates are cleared after a commit. A failed sync
returns an error, and leaves maps and updates as they are at that point.

Each step that can fail stands for all operations of that kind: uploads of one kind run
concurrently, and no map is touched before all of them are done. Only the results of
cache accesses are handled one at a time. Remote paths are chosen by the sync.
-/

namespace Moonlink.Storage

open Lib

variable {Row Path : Type} [DecidableEq Path]

/-- Where a sync fails. -/
inductive SyncFailure where
  /-- The table is not loaded, or not created. -/
  | initialization
  | dataFileUpload
  | deletionVectorWrite
  /-- The access to the cached puffin file of a vector; those of `finalized` came before it. -/
  | cacheAccess (finalized : List FileId)
  | fileIndexWrite
  | commit
  deriving DecidableEq, Repr

inductive SyncError where
  /-- A new data file is persisted already, or an old one is not. -/
  | preconditionFailed
  | failed (failure : SyncFailure)
  deriving DecidableEq, Repr

structure DeletionVectorBlob (Path : Type) where
  dataFile : Path
  deletedRows : List Nat

/-- The updates that the next commit applies, besides the new data files. -/
structure TableUpdateProxy (Path : Type) where
  deletionVectorBlobsToAdd : AssocMap Path (DeletionVectorBlob Path)
  fileIndexBlobsToAdd : AssocMap Path FileIndex
  puffinBlobsToRemove : List Path
  dataFilesToRemove : List Path

structure TableCommit (Path : Type) where
  flushLsn : Nat
  dataFiles : List Path
  updates : TableUpdateProxy Path

/-- The table manager with its catalog, and the table as the commits so far. -/
structure TableSyncer (Row Path : Type) where
  persistedDataFiles : AssocMap FileId (DataFileEntry Row)
  /-- The remote path in each entry of `persistedDataFiles`. -/
  dataFilePaths : AssocMap FileId Path
  persistedFileIndices : AssocMap FileIndex Path
  remoteDataFileToFileId : AssocMap Path FileId
  catalog : TableUpdateProxy Path
  table : List (TableCommit Path)

/-- The remote paths of what a sync uploads. -/
structure RemotePaths (Path : Type) where
  dataFile : FileId → Path
  deletionVector : FileId → Path
  fileIndex : FileIndex → Path

/-- A deletion vector that is written, with the entry it leads to. -/
structure PreparedDeletionVectorBlob (Row : Type) where
  fileId : FileId
  entry : DataFileEntry Row
  deletedRows : List Nat

namespace TableUpdateProxy

def empty : TableUpdateProxy Path := ⟨∅, ∅, [], []⟩

def setDataFilesToRemove (u : TableUpdateProxy Path) (dataFiles : List Path) :
    Except StoragePanic (TableUpdateProxy Path) := do
  StoragePanic.assert u.dataFilesToRemove.isEmpty .invalidMaintenanceResult
  return { u with dataFilesToRemove := dataFiles }

def setIndexPuffinFilesToRemove (u : TableUpdateProxy Path) (puffinFilepaths : List Path) :
    Except StoragePanic (TableUpdateProxy Path) := do
  StoragePanic.assert u.puffinBlobsToRemove.isEmpty .invalidMaintenanceResult
  return { u with puffinBlobsToRemove := puffinFilepaths }

def recordDeletionVector (u : TableUpdateProxy Path) (puffinFilepath : Path)
    (blob : DeletionVectorBlob Path) : Except StoragePanic (TableUpdateProxy Path) := do
  StoragePanic.assert (u.deletionVectorBlobsToAdd.lookup puffinFilepath).isNone .duplicateDiskFile
  return { u with deletionVectorBlobsToAdd := u.deletionVectorBlobsToAdd.insert puffinFilepath blob }

def recordFileIndex (u : TableUpdateProxy Path) (puffinFilepath : Path) (index : FileIndex) :
    Except StoragePanic (TableUpdateProxy Path) := do
  StoragePanic.assert (u.fileIndexBlobsToAdd.lookup puffinFilepath).isNone .duplicateDiskFile
  return { u with fileIndexBlobsToAdd := u.fileIndexBlobsToAdd.insert puffinFilepath index }

end TableUpdateProxy

namespace TableSyncer

/-- A step of a sync. -/
abbrev Sync (Row Path α : Type) : Type := Attempt StoragePanic SyncError (TableSyncer Row Path) α

/-- The sync fails here, if the failure is this one and there is something that can fail. -/
def mayFail (failure : Option SyncFailure) (here : SyncFailure) (hasWork : Bool) : Sync Row Path Unit :=
  .failIf (failure == some here && hasWork) (.failed here)

/-! ## Data files -/

variable (paths : RemotePaths Path)
variable (m : TableSyncer Row Path)

def recordRemotePath (file : DataFile Row) : Except StoragePanic (TableSyncer Row Path) := do
  let path := paths.dataFile file.fileId
  StoragePanic.assert (m.remoteDataFileToFileId.lookup path).isNone .duplicateDiskFile
  return { m with
    dataFilePaths := m.dataFilePaths.insert file.fileId path
    remoteDataFileToFileId := m.remoteDataFileToFileId.insert path file.fileId }

/-- Also returns the paths that were removed. -/
def removeRemotePath (acc : TableSyncer Row Path × List Path) (fileId : FileId) :
    Except StoragePanic (TableSyncer Row Path × List Path) :=
  match acc.1.dataFilePaths.lookup fileId with
  | none => .error .missingDiskFile
  | some path => do
    StoragePanic.assert (acc.1.remoteDataFileToFileId.lookup path).isSome .missingDiskFile
    return ({ acc.1 with
      dataFilePaths := acc.1.dataFilePaths.erase fileId
      remoteDataFileToFileId := acc.1.remoteDataFileToFileId.erase path }, acc.2 ++ [path])

/-- What happens after the uploads. The maps of the entries are updated as in
`IcebergTableManager.syncDataFiles`, which also moves the persisted deletions. -/
def importDataFiles (new : List (DataFile Row)) (old : List FileId) (remap : DataFileRemap) :
    Except StoragePanic (AssocMap FileId BatchDeletionVector × TableSyncer Row Path) := do
  let (files, remapped) ← IcebergTableManager.syncDataFiles m.persistedDataFiles new old remap
  let m ← new.foldlM (recordRemotePath paths) { m with persistedDataFiles := files }
  let (m, removed) ← old.foldlM removeRemotePath (m, [])
  return (remapped, { m with catalog := ← m.catalog.setDataFilesToRemove removed })

def syncDataFiles (failure : Option SyncFailure) (new : List (DataFile Row))
    (old : List FileId) (remap : DataFileRemap) :
    Sync Row Path (AssocMap FileId BatchDeletionVector) :=
  if new.isEmpty && old.isEmpty then pure ∅
  else do
    mayFail failure .dataFileUpload (!new.isEmpty)
    let m ← .get
    let (remapped, m) ← .lift (m.importDataFiles paths new old remap)
    .set m
    return remapped

/-! ## Deletion vectors -/

def prepareDeletionVectorBlob (files : AssocMap FileId (DataFileEntry Row))
    (new : Sigma fun _ : FileId => BatchDeletionVector) :
    Except StoragePanic (PreparedDeletionVectorBlob Row) :=
  match files.lookup new.1 with
  | none => .error .missingDiskFile
  | some entry => do
    let deletionVector ← entry.deletionVector.mergeWith new.2
    let deletedRows := deletionVector.collectDeletedRows
    StoragePanic.assert (!deletedRows.isEmpty) .invalidMaintenanceResult
    return ⟨new.1, { entry with deletionVector }, deletedRows⟩

def recordDeletionVector (paths : RemotePaths Path) (m : TableSyncer Row Path)
    (blob : PreparedDeletionVectorBlob Row) : Except StoragePanic (TableSyncer Row Path) :=
  match m.dataFilePaths.lookup blob.fileId with
  | none => .error .missingDiskFile
  | some dataFile => do
    return { m with catalog :=
      ← m.catalog.recordDeletionVector (paths.deletionVector blob.fileId) ⟨dataFile, blob.deletedRows⟩ }

/-- Once its puffin file is in the cache, the new vector of a file is taken over. -/
def finalizeDeletionVector (blob : PreparedDeletionVectorBlob Row) : TableSyncer Row Path :=
  { m with persistedDataFiles := m.persistedDataFiles.insert blob.fileId blob.entry }

def recordDeletionVectors (vectors : AssocMap FileId BatchDeletionVector) :
    Except StoragePanic (List (PreparedDeletionVectorBlob Row) × TableSyncer Row Path) := do
  let prepared ← vectors.entries.mapM (prepareDeletionVectorBlob m.persistedDataFiles)
  return (prepared, ← prepared.foldlM (recordDeletionVector paths) m)

def finalizeDeletionVectors (failure : Option SyncFailure)
    (prepared : List (PreparedDeletionVectorBlob Row)) : Sync Row Path Unit := do
  let m ← .get
  match failure with
  | some (.cacheAccess finalized) => do
    .set ((prepared.filter fun blob => finalized.contains blob.fileId).foldl finalizeDeletionVector m)
    .fail (.failed (.cacheAccess finalized))
  | _ => .set (prepared.foldl finalizeDeletionVector m)

def syncDeletionVector (failure : Option SyncFailure)
    (vectors : AssocMap FileId BatchDeletionVector) : Sync Row Path Unit :=
  if vectors.entries.isEmpty then pure ()
  else do
    mayFail failure .deletionVectorWrite true
    let m ← .get
    let (prepared, m) ← .lift (m.recordDeletionVectors paths vectors)
    .set m
    finalizeDeletionVectors failure prepared

/-! ## File indices -/

def importFileIndex (index : FileIndex) : Except StoragePanic (TableSyncer Row Path) := do
  StoragePanic.assert (m.persistedFileIndices.lookup index).isNone .invalidMaintenanceResult
  return { m with
    persistedFileIndices := m.persistedFileIndices.insert index (paths.fileIndex index)
    catalog := ← m.catalog.recordFileIndex (paths.fileIndex index) index }

/-- Also returns the puffin files that were removed. -/
def removeFileIndex (acc : TableSyncer Row Path × List Path) (index : FileIndex) :
    Except StoragePanic (TableSyncer Row Path × List Path) :=
  match acc.1.persistedFileIndices.lookup index with
  | none => .error .invalidMaintenanceResult
  | some path => .ok
      ({ acc.1 with persistedFileIndices := acc.1.persistedFileIndices.erase index }, acc.2 ++ [path])

def importFileIndices (new old : List FileIndex) : Except StoragePanic (TableSyncer Row Path) := do
  let m ← new.foldlM (importFileIndex paths) m
  let (m, removed) ← old.foldlM removeFileIndex (m, [])
  return { m with catalog := ← m.catalog.setIndexPuffinFilesToRemove removed }

def syncFileIndices (failure : Option SyncFailure) (new old : List FileIndex) : Sync Row Path Unit :=
  if new.isEmpty && old.isEmpty then pure ()
  else do
    mayFail failure .fileIndexWrite (!new.isEmpty)
    let m ← .get
    let m ← .lift (m.importFileIndices paths new old)
    .set m

/-! ## The sync -/

/-- `validate_new_data_files` and `validate_old_data_files`. -/
def accepts (payload : PersistenceSnapshotPayload Row) : Bool :=
  (payload.dataFilesToImport.all fun f => (m.persistedDataFiles.lookup f.fileId).isNone) &&
    payload.compactedDataFilesToRemove.all fun f => (m.persistedDataFiles.lookup f).isSome

/-- The commit applies the buffered updates, and clears them. -/
def committed (paths : RemotePaths Path) (payload : PersistenceSnapshotPayload Row) : TableSyncer Row Path :=
  { m with
    catalog := .empty
    table := m.table ++
      [⟨payload.flushLsn, payload.dataFilesToImport.map (paths.dataFile ·.fileId), m.catalog⟩] }

def syncSnapshotImpl (failure : Option SyncFailure)
    (payload : PersistenceSnapshotPayload Row) : Sync Row Path Unit := do
  mayFail failure .initialization true
  let m ← .get
  .failIf (!m.accepts payload) .preconditionFailed
  let remapped ← syncDataFiles paths failure payload.dataFilesToImport
    payload.compactedDataFilesToRemove payload.dataFileRecordsRemap
  let vectors ← .lift
    (remapped.entries.foldlM IcebergTableManager.mergeDeletionVector payload.newDeletionVector)
  syncDeletionVector paths failure vectors
  syncFileIndices paths failure payload.fileIndicesToImport payload.fileIndicesToRemove
  mayFail failure .commit true
  let m ← .get
  .set (m.committed paths payload)

end TableSyncer
end Moonlink.Storage
