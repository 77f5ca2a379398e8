-- SUMMARY: The column store with its builders, and appends that fail part-way.
import Moonlink.Row.ColumnArray
import Moonlink.Storage.MemSlice

/-!
# Column stores with builders

A row is appended to the column builders one column after the other, and a nested value one
part after the other. What was appended before a part is rejected stays, so a builder after an
error is a state of its own here. A full batch is finished before the row is looked at, and is
returned to the caller only if the row is accepted.
-/

namespace Moonlink.Row

open Lib
open Moonlink.Storage (BatchIdCounter)

/-! ## Appending in place -/

namespace ColumnArrayBuilder

mutual
/-- `append_value`, with the builder that it leaves. -/
def appendValueInPlace : ColumnArrayBuilder → RowValue → Except AppendError Unit × ColumnArrayBuilder
  | b, .null => (.ok (), b.appendNull)
  | list kind field offsets nulls inner len, .array items =>
    let offsets := offsets ++ [toI32 inner.len]
    match inner.appendItemsInPlace items with
    | (.ok (), inner) => (.ok (), list kind field offsets (nulls ++ [true]) inner (len + 1))
    | (.error e, inner) => (.error e, list kind field offsets nulls inner len)
  | struct fields children nulls len, .struct vals =>
    if vals.length = fields.length then
      match appendFieldsInPlace children vals with
      | (.ok (), children) => (.ok (), struct fields children (nulls ++ [true]) (len + 1))
      | (.error e, children) => (.error e, struct fields children nulls len)
    else (.error (.structFieldCountMismatch fields.length vals.length), struct fields children nulls len)
  | leaf builder values, v =>
    match builder.accept v with
    | .ok v => (.ok (), leaf builder (values ++ [v]))
    | .error e => (.error e, leaf builder values)
  | b, _ => (.error .typeMismatch, b)
def appendItemsInPlace : ColumnArrayBuilder → List RowValue → Except AppendError Unit × ColumnArrayBuilder
  | b, [] => (.ok (), b)
  | b, v :: rest =>
    match b.appendValueInPlace v with
    | (.ok (), b) => b.appendItemsInPlace rest
    | (.error e, b) => (.error e, b)
def appendFieldsInPlace : List ColumnArrayBuilder → List RowValue → Except AppendError Unit × List ColumnArrayBuilder
  | b :: bs, v :: vals =>
    match b.appendValueInPlace v with
    | (.ok (), b) => ((appendFieldsInPlace bs vals).1, b :: (appendFieldsInPlace bs vals).2)
    | (.error e, b) => (.error e, b :: bs)
  | bs, _ => (.ok (), bs)
end

/-- The value is rejected before any part of it is appended. -/
def rejectsAtOnce : ColumnArrayBuilder → RowValue → Bool
  | _, .null => false
  | leaf builder _, v => match builder.accept v with | .ok _ => false | .error _ => true
  | list _ _ _ _ _ _, .array _ => false
  | struct fields (child :: _) _ _, .struct (v :: vals) =>
    vals.length + 1 ≠ fields.length || child.rejectsAtOnce v
  | struct fields _ _ _, .struct vals => vals.length ≠ fields.length
  | _, _ => true

end ColumnArrayBuilder

/-! ## The store -/

inductive StorePanic where
  | array (p : ArrayPanic)
  | storage (p : StoragePanic)
  /-- `self.current_batch_builder[idx]`: the row has more values than the schema has columns. -/
  | indexOutOfBounds
  /-- `last_batch.unwrap()`. -/
  | noBatch

/-- The errors of an append, with those of `RecordBatch::try_new`. -/
inductive StoreError (ε : Type) where
  | append (e : AppendError)
  | recordBatch (e : ε)

structure InMemoryBatch (Batch : Type) where
  data : Option Batch
  deletions : BatchDeletionVector

structure BatchEntry (Batch : Type) where
  id : Nat
  batch : InMemoryBatch Batch

structure ColumnStoreBuffer (Batch : Type) where
  schema : List Field
  maxRowsPerBuffer : Nat
  inMemoryBatches : List (BatchEntry Batch)
  currentBatchBuilder : List ColumnArrayBuilder
  currentRows : List (List RowValue)
  currentRowCount : Nat
  batchIdCounter : BatchIdCounter

namespace ColumnStoreBuffer

variable {Batch ε : Type}

/-- `std::mem::replace` of each builder by a new one for its field. -/
def replaceBuilders : List ColumnArrayBuilder → List Field → Except StorePanic (List ColumnArrayBuilder)
  | _ :: bs, f :: fs => do
    let b ← (ColumnArrayBuilder.new f).mapError .array
    return b :: (← replaceBuilders bs fs)
  | bs, _ => .ok bs

section

/-! The arrays that the builders finish, and the record batch that is made of them. -/

variable (finish : List Field → List ColumnArrayBuilder → Except StorePanic (Except ε Batch))

def finalizeCurrentBatch (s : ColumnStoreBuffer Batch) :
    Except StorePanic (Except (StoreError ε) (Option (Nat × Batch)) × ColumnStoreBuffer Batch) :=
  if s.currentRowCount = 0 then .ok (.ok none, s)
  else do
    let finished ← finish s.schema s.currentBatchBuilder
    let builders ← replaceBuilders s.currentBatchBuilder s.schema
    let s := { s with currentBatchBuilder := builders }
    match finished with
    | .error e => return (.error (.recordBatch e), s)
    | .ok batch =>
      match s.inMemoryBatches.getLast? with
      | none => throw .noBatch
      | some last =>
        let (current, counter) ← s.batchIdCounter.getAndNext.mapError .storage
        let nextBatchId := current + 1
        let filled := { last with batch := { last.batch with data := some batch } }
        let opened := { id := nextBatchId, batch := ⟨none, .new s.maxRowsPerBuffer⟩ }
        return (.ok (some (nextBatchId - 1, batch)),
          { s with
            inMemoryBatches := s.inMemoryBatches.dropLast ++ [filled, opened]
            batchIdCounter := counter
            currentRowCount := 0
            currentRows := [] })

def closeIfFull (s : ColumnStoreBuffer Batch) :
    Except StorePanic (Except (StoreError ε) (Option (Nat × Batch)) × ColumnStoreBuffer Batch) :=
  if s.maxRowsPerBuffer ≤ s.currentRowCount then s.finalizeCurrentBatch finish else .ok (.ok none, s)

/-- The values of a row are appended to the builders one after the other. -/
def appendCells : List ColumnArrayBuilder → List RowValue →
    Except StorePanic (Except AppendError Unit × List ColumnArrayBuilder)
  | bs, [] => .ok (.ok (), bs)
  | [], _ :: _ => .error .indexOutOfBounds
  | b :: bs, v :: vs =>
    match b.appendValueInPlace v with
    | (.ok (), b) => do
      let (result, bs) ← appendCells bs vs
      return (result, b :: bs)
    | (.error e, b) => .ok (.error e, b :: bs)

/-- The location of the row and the batch that was closed, if the row is accepted. -/
def appendRow (s : ColumnStoreBuffer Batch) (row : List RowValue) :
    Except StorePanic (Except (StoreError ε) ((Nat × Nat) × Option (Nat × Batch)) × ColumnStoreBuffer Batch) := do
  match ← s.closeIfFull finish with
  | (.error e, s) => return (.error e, s)
  | (.ok newBatch, s) =>
    match ← appendCells s.currentBatchBuilder row with
    | (.error e, builders) => return (.error (.append e), { s with currentBatchBuilder := builders })
    | (.ok (), builders) =>
      match s.inMemoryBatches.getLast? with
      | none => throw .noBatch
      | some last =>
        return (.ok ((last.id, s.currentRowCount), newBatch),
          { s with
            currentBatchBuilder := builders
            currentRowCount := s.currentRowCount + 1
            currentRows := s.currentRows ++ [row] })

end

end ColumnStoreBuffer

/-- A slice has no index if its table is append-only. -/
structure MemSlice (Batch Index : Type) where
  columnStore : ColumnStoreBuffer Batch
  memIndex : Option Index

namespace MemSlice

variable {Batch Index ε : Type}
  (finish : List Field → List ColumnArrayBuilder → Except StorePanic (Except ε Batch))
  (insert : Nat → Option (List RowValue) → Nat × Nat → Index → Index)

def append (m : MemSlice Batch Index) (lookupKey : Nat) (row : List RowValue)
    (identityForKey : Option (List RowValue)) :
    Except StorePanic (Except (StoreError ε) (Option (Nat × Batch)) × MemSlice Batch Index) := do
  match ← m.columnStore.appendRow finish row with
  | (.error e, columnStore) => return (.error e, { m with columnStore := columnStore })
  | (.ok (location, newBatch), columnStore) =>
    return (.ok newBatch, ⟨columnStore, m.memIndex.map (insert lookupKey identityForKey location)⟩)

end MemSlice

end Moonlink.Row
