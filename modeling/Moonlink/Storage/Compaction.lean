-- SUMMARY: Data compaction: rewriting data files without their deleted rows, and the map from old to new row locations.
import Moonlink.Storage.DeleteVector

/-!
# Data compaction

The rows of the given data files are read batch by batch, filtered by the deletion
vector of their file and written to new files, which are cut between input files once
they are large enough. Every row that is kept is recorded with its old and its new
location.

The Parquet writer and the index builder are parameters. Cache handles and file paths
are left out: they decide where the bytes of a file are, not what they say.
-/

namespace Moonlink

open Lib

abbrev FileId : Type := Nat

/-- Where a row is. -/
inductive RecordLocation where
  | memoryBatch (batchId rowIdx : Nat)
  | diskFile (fileId : FileId) (rowIdx : Nat)
  deriving DecidableEq, Repr

def RecordLocation.getRowIdx : RecordLocation → Nat
  | .memoryBatch _ rowIdx => rowIdx
  | .diskFile _ rowIdx => rowIdx

def localFileIdBase : Nat := 10000000000000000

def numFilesPerFlush : Nat := 100

def getUniqueFileIdForFlush (tableAutoIncrId fileIdx : Nat) : Except StoragePanic FileId := do
  StoragePanic.assert (fileIdx < numFilesPerFlush) .fileIdxOutOfRange
  return localFileIdBase + tableAutoIncrId * numFilesPerFlush + fileIdx

/-- What the code sees of an arrow writer to which batches of rows were written. A
finished file is not empty, as it has a footer. -/
structure ArrowWriter (Row : Type) where
  memorySize : List (List Row) → Nat
  bytesWritten : List (List Row) → Nat
  bytesWritten_pos : ∀ batches, 0 < bytesWritten batches

/-- The arrow writer of a schema, with the rows that a batch is written as. In a batch of another schema columns may be
cut or confused, or the batch or its file is rejected. -/
structure SchemaWriter (Row : Type) extends ArrowWriter Row where
  write : List Row → Option (List Row)
  write_nil : write [] = some []
  length_eq : ∀ {rows rows'}, write rows = some rows' → rows'.length = rows.length

/-- All batches have the schema of the writer. -/
def ArrowWriter.toSchemaWriter {Row : Type} (writer : ArrowWriter Row) : SchemaWriter Row where
  toArrowWriter := writer
  write := some
  write_nil := rfl
  length_eq h := by cases h; rfl

instance {Row : Type} : Coe (ArrowWriter Row) (SchemaWriter Row) := ⟨ArrowWriter.toSchemaWriter⟩

/-- A data file, as the batches its reader returns, and the rows deleted in it. -/
structure SingleFileToCompact (Row : Type) where
  fileId : FileId
  batches : List (List Row)
  deletionVector : Option BatchDeletionVector
  /-- A persisted deletion vector is one of this file. -/
  fits : ∀ dv, deletionVector = some dv → dv.maxRows = batches.flatten.length

structure DataCompactionPayload (Row Index : Type) where
  diskFiles : List (SingleFileToCompact Row)
  fileIndices : List Index
  /-- The files are those of a snapshot, by their id. -/
  distinct : (diskFiles.map (·.fileId)).Nodup

def DataCompactionPayload.getNewCompactedDataFileIdsNumber {Row Index : Type}
    (payload : DataCompactionPayload Row Index) : Nat := payload.diskFiles.length * 2

/-- The range of file ids has 32-bit bounds. -/
structure CompactionFileParams where
  startId : Nat
  endId : Nat
  dataFileFinalSize : Nat
  endId_lt : endId < 2 ^ 32

/-- A new data file, as the batches written to it. -/
structure CompactedDataFile (Row : Type) where
  fileId : FileId
  batches : List (List Row)

structure CompactedDataEntry where
  numRows : Nat
  fileSize : Nat

structure RemappedRecordLocation where
  recordLocation : RecordLocation
  newDataFile : FileId

abbrev DataFileRemap : Type := AssocMap RecordLocation RemappedRecordLocation

structure DataCompactionResult (Row Index : Type) where
  remappedDataFiles : DataFileRemap
  oldDataFiles : List FileId
  newDataFiles : List (CompactedDataFile Row × CompactedDataEntry)
  oldFileIndices : List Index
  newFileIndices : List Index

structure CompactionBuilder (Row : Type) where
  newDataFiles : List (CompactedDataFile Row × CompactedDataEntry)
  /-- The batches written to the current file. -/
  curArrowWriter : Option (List (List Row))
  curNewDataFile : Option FileId
  curRowNum : Nat
  compactedFileCount : Nat

/-- `build_from_merge_for_compaction`: the number of rows, the id of the index file, the
old indices, the new data files, the new location of an old one and the position of the
file of a new one. -/
abbrev IndexMerge (Index : Type) : Type :=
  Nat → FileId → List Index → List FileId → (RecordLocation → Option RecordLocation) →
    (RecordLocation → Nat) → Index

def SingleFileToCompact.loadDeletionVector {Row : Type} (file : SingleFileToCompact Row) :
    BatchDeletionVector := file.deletionVector.getD (.new 0)

namespace CompactionBuilder

variable {Row Index : Type}

def new : CompactionBuilder Row := ⟨[], none, none, 0, 0⟩

variable (b : CompactionBuilder Row)
variable (params : CompactionFileParams)

def getNextFileId : Except StoragePanic FileId := do
  let offset := b.compactedFileCount / numFilesPerFlush
  let tableAutoIncrId := params.startId + offset
  let narrowId := tableAutoIncrId % 2 ^ 32
  StoragePanic.assert (params.startId ≤ narrowId && narrowId < params.endId) .fileIdsExhausted
  getUniqueFileIdForFlush tableAutoIncrId (b.compactedFileCount - numFilesPerFlush * offset)

def getFileIndexAfterCompaction (startTableAutoIncrId : Nat) (fileId : FileId) : Nat :=
  (fileId - numFilesPerFlush * startTableAutoIncrId) % numFilesPerFlush

def initializeArrowWriterIfNot : Except StoragePanic (CompactionBuilder Row) :=
  match b.curArrowWriter with
  | some _ => do
    StoragePanic.assert b.curNewDataFile.isSome .unexpectedWriterState
    return b
  | none => do
    StoragePanic.assert b.curNewDataFile.isNone .unexpectedWriterState
    let fileId ← b.getNextFileId params
    return { b with curNewDataFile := some fileId, curArrowWriter := some [] }

/-- Close the current file. -/
def flushArrowWriter (writer : SchemaWriter Row) : Except StoragePanic (CompactionBuilder Row) :=
  match b.curArrowWriter, b.curNewDataFile with
  | some batches, some fileId => do
    let fileSize := writer.bytesWritten batches
    StoragePanic.assert (0 < fileSize) .emptyCompactedFile
    StoragePanic.assert (0 < b.curRowNum) .emptyCompactedFile
    return { b with
      newDataFiles := b.newDataFiles ++ [(⟨fileId, batches⟩, ⟨b.curRowNum, fileSize⟩)]
      curArrowWriter := none
      curNewDataFile := none
      curRowNum := 0
      compactedFileCount := b.compactedFileCount + 1 }
  | _, _ => .error .unexpectedWriterState

/-- Write the rows of a batch that are not deleted to the current file. -/
def writeBatch (writer : SchemaWriter Row) (rows : List Row) : Except StoragePanic (CompactionBuilder Row) := do
  let b ← b.initializeArrowWriterIfNot params
  match writer.write rows with
  | some written => return { b with curArrowWriter := b.curArrowWriter.map (· ++ [written]) }
  | none => .error .batchNotWritten

/-- Record where the row `oldRowIdx` goes, unless it is deleted. -/
def remapRow (fileId : FileId) (dv : BatchDeletionVector)
    (acc : CompactionBuilder Row × DataFileRemap) (oldRowIdx : Nat) :
    Except StoragePanic (CompactionBuilder Row × DataFileRemap) :=
  let (b, remap) := acc
  if dv.isDeleted oldRowIdx then .ok (b, remap)
  else
    match b.curNewDataFile with
    | none => .error .unexpectedWriterState
    | some newDataFile => do
      let oldLocation := RecordLocation.diskFile fileId oldRowIdx
      StoragePanic.assert (remap.lookup oldLocation).isNone .locationRemappedTwice
      return ({ b with curRowNum := b.curRowNum + 1 },
        remap.insert oldLocation ⟨.diskFile newDataFile b.curRowNum, newDataFile⟩)

def getFilteredRecordBatch (dv : BatchDeletionVector) (batch : List Row) (startRowIdx : Nat) :
    Except StoragePanic (List Row) :=
  if dv.isEmpty then .ok batch else dv.applyToBatchWithSlice batch startRowIdx

/-- One record batch of a data file; `oldStartRowIdx` is the index of its first row. -/
def compactBatch (writer : SchemaWriter Row) (fileId : FileId) (dv : BatchDeletionVector)
    (acc : (CompactionBuilder Row × DataFileRemap) × Nat) (batch : List Row) :
    Except StoragePanic ((CompactionBuilder Row × DataFileRemap) × Nat) := do
  let ((b, remap), oldStartRowIdx) := acc
  let filtered ← getFilteredRecordBatch dv batch oldStartRowIdx
  if filtered.isEmpty then
    return ((b, remap), oldStartRowIdx + batch.length)
  else
    let b ← b.writeBatch params writer filtered
    let acc ← (List.range' oldStartRowIdx batch.length).foldlM (remapRow fileId dv) (b, remap)
    return (acc, oldStartRowIdx + batch.length)

/-- Close the current file once it reaches the target size. -/
def flushIfLarge (writer : SchemaWriter Row) : Except StoragePanic (CompactionBuilder Row) :=
  match b.curArrowWriter with
  | some batches =>
    if params.dataFileFinalSize ≤ writer.memorySize batches then b.flushArrowWriter writer
    else .ok b
  | none => .ok b

def applyDeletionVectorAndWrite (writer : SchemaWriter Row) (file : SingleFileToCompact Row) :
    Except StoragePanic (CompactionBuilder Row × DataFileRemap) := do
  let dv := file.loadDeletionVector
  let totalNumRows := (file.batches.map List.length).sum
  let ((b, remap), _) ← file.batches.foldlM (compactBatch params writer file.fileId dv) ((b, ∅), 0)
  let b ← b.flushIfLarge params writer
  StoragePanic.assert (totalNumRows - dv.getNumRowsDeleted = remap.entries.length)
    .compactedRowCountDiffers
  return (b, remap)

/-- One data file; later entries replace earlier ones in the map of all files. -/
def compactDataFile (writer : SchemaWriter Row)
    (acc : CompactionBuilder Row × DataFileRemap) (file : SingleFileToCompact Row) :
    Except StoragePanic (CompactionBuilder Row × DataFileRemap) := do
  let (b, remap) ← acc.1.applyDeletionVectorAndWrite params writer file
  return (b, remap ∪ acc.2)

def compactDataFiles (writer : SchemaWriter Row) (files : List (SingleFileToCompact Row)) :
    Except StoragePanic (CompactionBuilder Row × DataFileRemap) :=
  files.foldlM (compactDataFile params writer) (b, ∅)

/-- The new data files, with a check that their ids increase. -/
def getNewCompactedDataFiles : Except StoragePanic (List FileId) := do
  let ids := b.newDataFiles.map (·.1.fileId)
  StoragePanic.assert (decide ((0 :: ids).Pairwise (· < ·))) .fileIdsNotIncreasing
  return ids

def compactFileIndices (merge : IndexMerge Index) (oldFileIndices : List Index) (remap : DataFileRemap) :
    Except StoragePanic Index := do
  let fileId ← b.getNextFileId params
  let newDataFiles ← b.getNewCompactedDataFiles
  return merge remap.entries.length fileId oldFileIndices newDataFiles
    (fun location => (remap.lookup location).map (·.recordLocation))
    fun
      | .diskFile fileId _ => getFileIndexAfterCompaction params.startId fileId
      | .memoryBatch _ _ => 0

/-- Close the last file, if one is open. -/
def flushLast (writer : SchemaWriter Row) : Except StoragePanic (CompactionBuilder Row) :=
  if b.curArrowWriter.isSome then b.flushArrowWriter writer else .ok b

def build (payload : DataCompactionPayload Row Index) (params : CompactionFileParams)
    (writer : SchemaWriter Row) (merge : IndexMerge Index) :
    Except StoragePanic (DataCompactionResult Row Index) := do
  let oldDataFiles := payload.diskFiles.map (·.fileId)
  let (b, remap) ← CompactionBuilder.new.compactDataFiles params writer payload.diskFiles
  if remap.entries.isEmpty then
    return ⟨remap, oldDataFiles, [], payload.fileIndices, []⟩
  else
    let b ← b.flushLast writer
    if payload.fileIndices.isEmpty then
      return ⟨remap, oldDataFiles, b.newDataFiles, payload.fileIndices, []⟩
    else
      let index ← b.compactFileIndices params merge payload.fileIndices remap
      return ⟨remap, oldDataFiles, b.newDataFiles, payload.fileIndices, [index]⟩

end CompactionBuilder
end Moonlink
