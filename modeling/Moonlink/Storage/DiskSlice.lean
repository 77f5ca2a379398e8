-- SUMMARY: Flushing: writing the active rows of drained batches to data files, with the map from batches to files and the index of the files.
import Moonlink.Storage.MemSlice

/-!
# Disk slices

A disk slice takes the batches of a drained mem slice. Writing it filters out the rows
deleted by then, writes the others to Parquet files that are cut after a batch once they
are large enough, and maps each row to its place. Deletions that come later are moved
with that map.
-/

namespace Moonlink.Storage

open Lib

/-- The index of data files, as the entries that a lookup of their keys returns. -/
structure FileIndex where
  /-- The id of its index block file. -/
  id : FileId
  files : List FileId
  entries : List (Nat × RecordLocation)
  deriving DecidableEq, Repr

/-- A written data file. -/
structure DataFile (Row : Type) where
  fileId : FileId
  rows : List Row

structure DiskSliceWriter (Row Ident : Type) where
  batches : List (BatchEntry Row)
  writerLsn : Option Nat
  tableAutoIncrId : Nat
  oldIndex : MemIndex Ident
  /-- The batches with an active row. -/
  flushedBatches : List Nat
  /-- From batch id and row to the number of the file and the row in it. -/
  rowOffsetMapping : AssocMap (Nat × Nat) (Nat × Nat)
  newIndex : Option FileIndex
  files : List (DataFile Row)

/-- The files that are written and the one that is open. -/
structure SliceOutput (Row : Type) where
  files : List (DataFile Row)
  writer : Option (FileId × List (List Row))
  outRowIdx : Nat
  mapping : AssocMap (Nat × Nat) (Nat × Nat)

namespace SliceOutput

variable {Row : Type}

def new : SliceOutput Row := ⟨[], none, 0, ∅⟩

/-- The open file, after one is created if there is none. -/
def openFile (out : SliceOutput Row) (tableAutoIncrId : Nat) :
    Except StoragePanic ((FileId × List (List Row)) × Nat) :=
  match out.writer with
  | some file => .ok (file, out.outRowIdx)
  | none => do
    let fileId ← getUniqueFileIdForFlush tableAutoIncrId out.files.length
    return ((fileId, []), 0)

def close (out : SliceOutput Row) : SliceOutput Row :=
  match out.writer with
  | some (fileId, batches) =>
    { out with files := out.files ++ [⟨fileId, batches.flatten⟩], writer := none }
  | none => out

/-- Write the active rows of a batch. -/
def writeBatch (writer : ArrowWriter Row) (parquetFileSize tableAutoIncrId : Nat)
    (out : SliceOutput Row) (batch : Nat × List (Nat × Row)) :
    Except StoragePanic (SliceOutput Row) := do
  let ((fileId, batches), outRowIdx) ← out.openFile tableAutoIncrId
  let batches := batches ++ [batch.2.map Prod.snd]
  let mapping := (batch.2.zipIdx outRowIdx).foldl
    (fun mapping row => mapping.insert (batch.1, row.1.1) (out.files.length, row.2)) out.mapping
  let out : SliceOutput Row :=
    { out with
      writer := some (fileId, batches)
      outRowIdx := outRowIdx + batch.2.length
      mapping }
  return if parquetFileSize < writer.memorySize batches then out.close else out

end SliceOutput

namespace DiskSliceWriter

variable {Row Ident : Type}

def new (batches : List (BatchEntry Row)) (writerLsn : Option Nat) (tableAutoIncrId : Nat)
    (oldIndex : MemIndex Ident) : DiskSliceWriter Row Ident :=
  ⟨batches, writerLsn, tableAutoIncrId, oldIndex, [], ∅, none, []⟩

/-- The active rows of a batch with their offsets, unless there is none. -/
def filteredBatch (entry : BatchEntry Row) : Option (Nat × List (Nat × Row)) :=
  match entry.batch.data with
  | none => none
  | some rows =>
    let active := ((rows.zipIdx).filter fun row => !entry.batch.deletions.isDeleted row.2).map
      fun row => (row.2, row.1)
    if active.isEmpty then none else some (entry.id, active)

/-- `remap_into_vec`. -/
def remapIndexEntry (flushedBatches : List Nat) (mapping : AssocMap (Nat × Nat) (Nat × Nat))
    (files : List (DataFile Row)) (e : MemIndexEntry Ident) :
    Except StoragePanic (Option (Nat × RecordLocation)) :=
  if e.location.1 ∈ flushedBatches then
    .ok do
      let (fileIdx, rowIdx) ← mapping.lookup e.location
      let file ← files[fileIdx]?
      return (e.hash, .diskFile file.fileId rowIdx)
  else .error .indexedBatchNotFlushed

variable (slice : DiskSliceWriter Row Ident)

/-- Nothing is indexed if there are no entries or no files. -/
def remapIndex : Except StoragePanic (Option FileIndex) :=
  if slice.oldIndex.isEmpty || slice.files.isEmpty then .ok none
  else do
    let entries ← slice.oldIndex.entries.mapM
      (remapIndexEntry slice.flushedBatches slice.rowOffsetMapping slice.files)
    let entries := entries.filterMap id
    StoragePanic.assert (entries.length = (slice.files.map (·.rows.length)).sum)
      .indexedRowCountDiffers
    let fileId ← getUniqueFileIdForFlush slice.tableAutoIncrId slice.files.length
    return some ⟨fileId, slice.files.map (·.fileId), entries⟩

def write (writer : ArrowWriter Row) (parquetFileSize : Nat) :
    Except StoragePanic (DiskSliceWriter Row Ident) := do
  let filtered := slice.batches.filterMap filteredBatch
  let out ← filtered.foldlM
    (SliceOutput.writeBatch writer parquetFileSize slice.tableAutoIncrId) SliceOutput.new
  let out := out.close
  let slice := { slice with
    flushedBatches := filtered.map Prod.fst
    rowOffsetMapping := out.mapping
    files := out.files }
  let newIndex ← slice.remapIndex
  return { slice with newIndex }

/-- The place of a row of a flushed batch in the files. -/
def remapLocation : RecordLocation → Option RecordLocation
  | .memoryBatch batchId rowIdx => do
    let (fileIdx, rowIdx) ← slice.rowOffsetMapping.lookup (batchId, rowIdx)
    let file ← slice.files[fileIdx]?
    return .diskFile file.fileId rowIdx
  | .diskFile _ _ => none

def remapDeletionIfNeeded (deletion : ProcessedDeletionRecord) : ProcessedDeletionRecord :=
  match slice.remapLocation deletion.pos with
  | some pos => { deletion with pos }
  | none => deletion

end DiskSliceWriter
end Moonlink.Storage
