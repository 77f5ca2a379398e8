-- SUMMARY: Iceberg manifests: the three managers that filter, replace and re-pack entries, and the rewrite of a manifest list.
import Moonlink.Lib.AssocMap
import Moonlink.Lib.Panics

/-!
# Manifest rewriting

The Iceberg library commits new data files only. What else a commit changes (deletion
vectors, file indices, removed files) is done by rewriting the manifest list of the new
snapshot: a manifest with nothing to change is passed on, and the entries of the others are
collected by a manager for each type of entry, which writes them to new manifests.

A manifest list is the list of its manifest files. Manifest files are those of the
library, which is a parameter: what it writes, and what it reads back. File paths are only
compared, and the metrics of a file (its partition, sizes, counts, bounds and ids) only
copied, so their types are parameters too. Maps of blobs are read in the order of their
entries, which stands for the arbitrary order of a hash map.
-/

namespace Moonlink.Iceberg

open Lib

inductive ManifestContentType where
  | data
  | deletes
  deriving DecidableEq, Repr

inductive DataContentType where
  | data
  | positionDeletes
  | equalityDeletes
  deriving DecidableEq, Repr

inductive DataFileFormat where
  | avro
  | orc
  | parquet
  | puffin
  deriving DecidableEq, Repr

structure DataFile (Path Metrics : Type) where
  content : DataContentType
  filePath : Path
  fileFormat : DataFileFormat
  recordCount : UInt64
  referencedDataFile : Option Path
  contentOffset : Option Int64
  contentSizeInBytes : Option Int64
  metrics : Metrics
  deriving DecidableEq

structure ManifestEntry (Path Metrics : Type) where
  dataFile : DataFile Path Metrics
  sequenceNumber : Option Int64
  deriving DecidableEq

structure Manifest (Path Metrics : Type) where
  entries : List (ManifestEntry Path Metrics)
  content : ManifestContentType
  deriving DecidableEq

/-- `PuffinBlobMetadataProxy`, with the two properties that are read: the data file of a
deletion vector, and the cardinality, if it parses. -/
structure PuffinBlobMetadata (Path : Type) where
  type : String
  sequenceNumber : Int64
  offset : UInt64
  length : UInt64
  referencedDataFile : Option Path
  cardinality : Option UInt64

inductive ManifestEntryType where
  | dataFile
  | deletionVector
  | fileIndex
  deriving DecidableEq, Repr

/-- Where a rewrite fails: its assertions, `unwrap` on nothing, and errors of the library. -/
inductive RewriteError where
  | emptyManifest
  | unexpectedEntryType
  | missingSequenceNumber
  | missingReferencedDataFile
  /-- `DeletionVectorManifestManager::add_manifest_entries`: two vectors for one data file. -/
  | duplicateDeletionVector
  | unexpectedBlobType
  | missingBlobProperty
  | library
  deriving DecidableEq, Repr

def RewriteError.assert (c : Bool) (e : RewriteError) : Except RewriteError Unit :=
  if c then .ok () else .error e

/-- `unwrap`. -/
def RewriteError.unwrap {α : Type} (a : Option α) (e : RewriteError) : Except RewriteError α :=
  match a with
  | some a => .ok a
  | none => .error e

def deletionVectorV1 : String := "deletion-vector-v1"

def mooncakeHashIndexV1 : String := "mooncake-hash-index-v1"

/-- The most entries of a data file manifest. -/
def defaultMaxManifestEntryCount : Nat := 25000

/-- The manifest files of the library. A writer is the list of the files that were added to it,
with their sequence numbers, until it writes them to a new manifest file. -/
structure ManifestIo (Path Metrics ManifestFile : Type) where
  loadManifest : ManifestFile → Except RewriteError (Manifest Path Metrics)
  writeManifestFile : ManifestContentType → List (DataFile Path Metrics × Int64) →
    Except RewriteError ManifestFile

variable {Path Metrics ManifestFile : Type} [DecidableEq Path] [Inhabited Metrics]

/-- The type of the entries of a manifest, which is that of the first one. -/
def getManifestEntryType (entries : List (ManifestEntry Path Metrics)) (content : ManifestContentType) :
    Except RewriteError ManifestEntryType := do
  let first ← RewriteError.unwrap entries.head? .emptyManifest
  if content = .data ∧ first.dataFile.fileFormat = .parquet then return .dataFile
  else if content = .deletes ∧ first.dataFile.fileFormat = .puffin then return .deletionVector
  else
    RewriteError.assert (content = .data ∧ first.dataFile.fileFormat = .puffin) .unexpectedEntryType
    return .fileIndex

/-! ## Data files -/

structure DataFileManifestManager (Path Metrics ManifestFile : Type) where
  dataFilesToRemove : List Path
  writer : Option (List (DataFile Path Metrics × Int64))
  curManifestEntriesNum : Nat
  finalizedManifestFiles : List ManifestFile

namespace DataFileManifestManager

def new (dataFilesToRemove : List Path) : DataFileManifestManager Path Metrics ManifestFile :=
  ⟨dataFilesToRemove, none, 0, []⟩

/-- Add an entry that is not removed, and start another manifest file if this one is full. -/
def addManifestEntry (io : ManifestIo Path Metrics ManifestFile)
    (m : DataFileManifestManager Path Metrics ManifestFile) (entry : ManifestEntry Path Metrics) :
    Except RewriteError (DataFileManifestManager Path Metrics ManifestFile) :=
  if m.dataFilesToRemove.contains entry.dataFile.filePath then .ok m
  else do
    let sequenceNumber ← RewriteError.unwrap entry.sequenceNumber .missingSequenceNumber
    let files := m.writer.getD [] ++ [(entry.dataFile, sequenceNumber)]
    if defaultMaxManifestEntryCount ≤ m.curManifestEntriesNum + 1 then
      let manifestFile ← io.writeManifestFile .data files
      return { m with
        writer := none
        curManifestEntriesNum := 0
        finalizedManifestFiles := m.finalizedManifestFiles ++ [manifestFile] }
    else return { m with
      writer := some files
      curManifestEntriesNum := m.curManifestEntriesNum + 1 }

def addManifestEntries (io : ManifestIo Path Metrics ManifestFile)
    (m : DataFileManifestManager Path Metrics ManifestFile) (manifest : Manifest Path Metrics) :
    Except RewriteError (DataFileManifestManager Path Metrics ManifestFile) := do
  let entryType ← getManifestEntryType manifest.entries manifest.content
  RewriteError.assert (entryType = .dataFile) .unexpectedEntryType
  manifest.entries.foldlM (addManifestEntry io) m

/-- The last manifest file. -/
def finalize (io : ManifestIo Path Metrics ManifestFile)
    (m : DataFileManifestManager Path Metrics ManifestFile) : Except RewriteError (List ManifestFile) :=
  match m.writer with
  | some files => do return [← io.writeManifestFile .data files]
  | none => .ok []

end DataFileManifestManager

/-! ## Deletion vectors -/

structure DeletionVectorManifestManager (Path Metrics : Type) where
  dataFilesToRemove : List Path
  writer : Option (List (DataFile Path Metrics × Int64))
  /-- By the data file that the vector is for. -/
  existingDeletionVectorEntries : AssocMap Path (ManifestEntry Path Metrics)

/-- The manifest entry of a deletion vector blob, with the data file that it is for. -/
def getDataFileForDeletionVector (puffinFilepath : Path) (blob : PuffinBlobMetadata Path) :
    Except RewriteError (Path × DataFile Path Metrics) := do
  RewriteError.assert (blob.type = deletionVectorV1) .unexpectedBlobType
  let referencedDataFile ← RewriteError.unwrap blob.referencedDataFile .missingBlobProperty
  let recordCount ← RewriteError.unwrap blob.cardinality .missingBlobProperty
  return (referencedDataFile,
    { content := .positionDeletes
      filePath := puffinFilepath
      fileFormat := .puffin
      recordCount
      referencedDataFile := some referencedDataFile
      contentOffset := some blob.offset.toInt64
      contentSizeInBytes := some blob.length.toInt64
      metrics := default })

namespace DeletionVectorManifestManager

def new (dataFilesToRemove : List Path) : DeletionVectorManifestManager Path Metrics :=
  ⟨dataFilesToRemove, none, ∅⟩

variable (m : DeletionVectorManifestManager Path Metrics)

def addManifestEntry (entry : ManifestEntry Path Metrics) :
    Except RewriteError (DeletionVectorManifestManager Path Metrics) := do
  let referencedDataFile ← RewriteError.unwrap entry.dataFile.referencedDataFile
    .missingReferencedDataFile
  if m.dataFilesToRemove.contains referencedDataFile then return m
  else
    RewriteError.assert (m.existingDeletionVectorEntries.lookup referencedDataFile).isNone
      .duplicateDeletionVector
    return { m with existingDeletionVectorEntries :=
      m.existingDeletionVectorEntries.insert referencedDataFile entry }

def addManifestEntries (manifest : Manifest Path Metrics) :
    Except RewriteError (DeletionVectorManifestManager Path Metrics) := do
  let entryType ← getManifestEntryType manifest.entries manifest.content
  RewriteError.assert (entryType = .deletionVector) .unexpectedEntryType
  manifest.entries.foldlM addManifestEntry m

/-- A new vector replaces the old one of its data file. -/
def addNewPuffinBlob (new : Path × PuffinBlobMetadata Path) :
    Except RewriteError (DeletionVectorManifestManager Path Metrics) := do
  let (referencedDataFile, dataFile) ← getDataFileForDeletionVector new.1 new.2
  return { m with
    existingDeletionVectorEntries := m.existingDeletionVectorEntries.erase referencedDataFile
    writer := some (m.writer.getD [] ++ [(dataFile, new.2.sequenceNumber)]) }

/-- Add the entries that were not replaced. -/
def addExistingEntry (files : List (DataFile Path Metrics × Int64))
    (entry : ManifestEntry Path Metrics) : Except RewriteError (List (DataFile Path Metrics × Int64)) := do
  let sequenceNumber ← RewriteError.unwrap entry.sequenceNumber .missingSequenceNumber
  return files ++ [(entry.dataFile, sequenceNumber)]

def finalize (io : ManifestIo Path Metrics ManifestFile) (m : DeletionVectorManifestManager Path Metrics) :
    Except RewriteError (List ManifestFile) := do
  let files ← m.existingDeletionVectorEntries.values.foldlM addExistingEntry (m.writer.getD [])
  if m.writer.isSome || !m.existingDeletionVectorEntries.entries.isEmpty then
    return [← io.writeManifestFile .deletes files]
  else return []

end DeletionVectorManifestManager

/-! ## File indices -/

structure FileIndexManifestManager (Path Metrics : Type) where
  indexPuffinBlobsToRemove : List Path
  writer : Option (List (DataFile Path Metrics × Int64))

def getDataFileForFileIndex (puffinFilepath : Path) (blob : PuffinBlobMetadata Path) :
    Except RewriteError (DataFile Path Metrics) := do
  RewriteError.assert (blob.type = mooncakeHashIndexV1) .unexpectedBlobType
  let recordCount ← RewriteError.unwrap blob.cardinality .missingBlobProperty
  return {
    content := .data
    filePath := puffinFilepath
    fileFormat := .puffin
    recordCount
    referencedDataFile := none
    contentOffset := none
    contentSizeInBytes := none
    metrics := default }

namespace FileIndexManifestManager

def new (indexPuffinBlobsToRemove : List Path) : FileIndexManifestManager Path Metrics :=
  ⟨indexPuffinBlobsToRemove, none⟩

def addManifestEntry (m : FileIndexManifestManager Path Metrics) (entry : ManifestEntry Path Metrics) :
    Except RewriteError (FileIndexManifestManager Path Metrics) :=
  if m.indexPuffinBlobsToRemove.contains entry.dataFile.filePath then .ok m
  else do
    let sequenceNumber ← RewriteError.unwrap entry.sequenceNumber .missingSequenceNumber
    return { m with writer := some (m.writer.getD [] ++ [(entry.dataFile, sequenceNumber)]) }

def addManifestEntries (m : FileIndexManifestManager Path Metrics) (manifest : Manifest Path Metrics) :
    Except RewriteError (FileIndexManifestManager Path Metrics) := do
  let entryType ← getManifestEntryType manifest.entries manifest.content
  RewriteError.assert (entryType = .fileIndex) .unexpectedEntryType
  manifest.entries.foldlM addManifestEntry m

def addNewPuffinBlob (m : FileIndexManifestManager Path Metrics) (new : Path × PuffinBlobMetadata Path) :
    Except RewriteError (FileIndexManifestManager Path Metrics) := do
  let dataFile ← getDataFileForFileIndex new.1 new.2
  return { m with writer := some (m.writer.getD [] ++ [(dataFile, new.2.sequenceNumber)]) }

def finalize (io : ManifestIo Path Metrics ManifestFile) (m : FileIndexManifestManager Path Metrics) :
    Except RewriteError (List ManifestFile) :=
  match m.writer with
  | some files => do return [← io.writeManifestFile .data files]
  | none => .ok []

end FileIndexManifestManager

/-! ## The manifest list -/

/-- The blobs of a map from puffin files to their blobs, each with its file. -/
def blobsOf (blobs : AssocMap Path (List (PuffinBlobMetadata Path))) :
    List (Path × PuffinBlobMetadata Path) :=
  blobs.entries.flatMap fun file => file.2.map (file.1, ·)

/-- What a commit changes besides its new data files. -/
structure TableUpdateProxy (Path : Type) where
  deletionVectorBlobsToAdd : AssocMap Path (List (PuffinBlobMetadata Path))
  fileIndexBlobsToAdd : AssocMap Path (List (PuffinBlobMetadata Path))
  puffinBlobsToRemove : List Path
  dataFilesToRemove : List Path

namespace TableUpdateProxy

def isEmpty (u : TableUpdateProxy Path) : Bool :=
  u.dataFilesToRemove.isEmpty && u.deletionVectorBlobsToAdd.entries.isEmpty &&
    u.fileIndexBlobsToAdd.entries.isEmpty && u.puffinBlobsToRemove.isEmpty

/-- Manifests with entries of this type are passed on as they are. -/
def passesOn (u : TableUpdateProxy Path) : ManifestEntryType → Bool
  | .dataFile => u.dataFilesToRemove.isEmpty
  | .deletionVector => u.deletionVectorBlobsToAdd.entries.isEmpty && u.dataFilesToRemove.isEmpty
  | .fileIndex => u.fileIndexBlobsToAdd.entries.isEmpty && u.puffinBlobsToRemove.isEmpty

end TableUpdateProxy

structure ManifestRewriter (Path Metrics ManifestFile : Type) where
  manifestList : List ManifestFile
  dataFiles : DataFileManifestManager Path Metrics ManifestFile
  deletionVectors : DeletionVectorManifestManager Path Metrics
  fileIndices : FileIndexManifestManager Path Metrics

namespace ManifestRewriter

def new (u : TableUpdateProxy Path) : ManifestRewriter Path Metrics ManifestFile where
  manifestList := []
  dataFiles := .new u.dataFilesToRemove
  deletionVectors := .new u.dataFilesToRemove
  fileIndices := .new u.puffinBlobsToRemove

/-- Pass a manifest on, or give its entries to their manager. -/
def addManifestFile (io : ManifestIo Path Metrics ManifestFile) (u : TableUpdateProxy Path)
    (r : ManifestRewriter Path Metrics ManifestFile) (manifestFile : ManifestFile) :
    Except RewriteError (ManifestRewriter Path Metrics ManifestFile) := do
  let manifest ← io.loadManifest manifestFile
  RewriteError.assert (!manifest.entries.isEmpty) .emptyManifest
  let entryType ← getManifestEntryType manifest.entries manifest.content
  if u.passesOn entryType then return { r with manifestList := r.manifestList ++ [manifestFile] }
  else match entryType with
    | .dataFile => return { r with dataFiles := ← r.dataFiles.addManifestEntries io manifest }
    | .deletionVector =>
      return { r with deletionVectors := ← r.deletionVectors.addManifestEntries manifest }
    | .fileIndex => return { r with fileIndices := ← r.fileIndices.addManifestEntries manifest }

/-- Add the new blobs, and write the entries that were collected. -/
def finalize (io : ManifestIo Path Metrics ManifestFile) (u : TableUpdateProxy Path)
    (r : ManifestRewriter Path Metrics ManifestFile) : Except RewriteError (List ManifestFile) := do
  let deletionVectors ← (blobsOf u.deletionVectorBlobsToAdd).foldlM
    DeletionVectorManifestManager.addNewPuffinBlob r.deletionVectors
  let fileIndices ← (blobsOf u.fileIndexBlobsToAdd).foldlM
    FileIndexManifestManager.addNewPuffinBlob r.fileIndices
  let dataFileManifests ← r.dataFiles.finalize io
  let deletionVectorManifests ← deletionVectors.finalize io
  let fileIndexManifests ← fileIndices.finalize io
  return r.manifestList ++ dataFileManifests ++ deletionVectorManifests ++ fileIndexManifests

end ManifestRewriter

/-- Rewrite a manifest list: filter its entries, and add those of the new blobs. -/
def appendPuffinMetadataAndRewrite (io : ManifestIo Path Metrics ManifestFile)
    (manifestList : List ManifestFile) (u : TableUpdateProxy Path) :
    Except RewriteError (List ManifestFile) :=
  if u.isEmpty then .ok manifestList
  else do
    let r ← manifestList.foldlM (ManifestRewriter.addManifestFile io u) (.new u)
    r.finalize io u

end Moonlink.Iceberg
