-- SUMMARY: The mem slice of a table: batches of rows in memory, their index, and how rows are found and deleted in it.
import Moonlink.Storage.Compaction

/-!
# The mem slice

Rows are appended to the last batch of a column store, which is closed when it is full
or drained. An index maps lookup keys to the rows of all batches. A table is identified
by a primitive key, by key columns or by the full row; the lookup key is a hash in the
last two cases.

A row that does not fit its schema is left out. Where a hash table holds several
entries for one key, the code may find any of them; the model takes the oldest.
-/

namespace Moonlink.Storage

open Lib

/-! ## Identity -/

inductive IdentityKind where
  | singlePrimitiveKey
  | keys
  | fullRow
  /-- Append-only tables. -/
  | none
  deriving DecidableEq, Repr

/-- `IdentityProp`, with the identity columns of a row, its lookup key, and the comparisons of identity columns with
a row: those with a row that is in an array or in a file may panic. -/
structure IdentityProp (Row Ident : Type) where
  kind : IdentityKind
  columns : Row → Ident
  lookupKey : Row → Nat
  /-- The lookup key is computed from the identity columns. -/
  lookupKey_eq : ∀ r r', columns r = columns r' → lookupKey r = lookupKey r'
  /-- A primitive key is its lookup key. -/
  columns_eq : kind = .singlePrimitiveKey → ∀ r r', lookupKey r = lookupKey r' → columns r = columns r'
  equalsMoonlinkRow : Ident → Row → Bool
  equalsRecordBatchAtOffset : Ident → Row → Option Bool
  equalsParquetAtOffset : Ident → Row → Option Bool

structure RawDeletionRecord (Ident : Type) where
  lookupKey : Nat
  rowIdentity : Option Ident
  /-- Where the row is in the mem slice, if it is there. -/
  pos : Option (Nat × Nat)
  lsn : Nat
  deleteIfExists : Bool

structure ProcessedDeletionRecord where
  pos : RecordLocation
  lsn : Nat

namespace IdentityProp

variable {Row Ident : Type}
variable (identity : IdentityProp Row Ident)

def extractIdentityColumns (row : Row) : Option Ident :=
  match identity.kind with
  | .singlePrimitiveKey => Option.none
  | .keys | .fullRow => some (identity.columns row)
  | .none => Option.none

def extractIdentityForKey (row : Row) : Option Ident :=
  match identity.kind with
  | .keys => some (identity.columns row)
  | _ => Option.none

def requiresIdentityCheckInMemSlice : Bool :=
  identity.kind == .fullRow

/-- The identity of a record, if it has one, is compared with a row. -/
def checkRow (equals : Ident → Row → Option Bool) : Option Ident → Option Row → Except StoragePanic Bool
  | Option.none, _ => .ok true
  | some i, row =>
    match row.bind (equals i) with
    | some equal => .ok equal
    | Option.none => .error .identityNotCompared

/-- The record of a delete event. -/
def deletionRecord (row : Row) (lsn : Nat) (deleteIfExists : Bool) : RawDeletionRecord Ident where
  lookupKey := identity.lookupKey row
  rowIdentity := identity.extractIdentityColumns row
  pos := Option.none
  lsn
  deleteIfExists

end IdentityProp

/-! ## Batch ids -/

def streamingBatchIdMax : Nat := 2 ^ 63

/-- `BatchIdCounter`. -/
structure BatchIdCounter where
  counter : Nat
  isStreaming : Bool

def BatchIdCounter.new (isStreaming : Bool) : BatchIdCounter :=
  ⟨if isStreaming then 0 else streamingBatchIdMax, isStreaming⟩

/-- The id before the change. -/
def BatchIdCounter.getAndNext (c : BatchIdCounter) : Except StoragePanic (Nat × BatchIdCounter) := do
  StoragePanic.assert (c.counter < if c.isStreaming then streamingBatchIdMax else 2 ^ 64 - 1)
    .batchIdsExhausted
  return (c.counter, { c with counter := c.counter + 1 })

/-! ## Index -/

structure MemIndexEntry (Ident : Type) where
  hash : Nat
  identity : Option Ident
  location : Nat × Nat
  deriving DecidableEq, Repr

/-- `MemIndex`, whose kind is that of the identity. -/
structure MemIndex (Ident : Type) where
  kind : IdentityKind
  entries : List (MemIndexEntry Ident)
  deriving DecidableEq, Repr

namespace MemIndex

variable {Ident : Type} [BEq Ident]

def new (kind : IdentityKind) : MemIndex Ident := ⟨kind, []⟩

variable (index : MemIndex Ident)

/-- The entry is one for the record, by its identity if there is one. -/
def isFor (record : RawDeletionRecord Ident) (e : MemIndexEntry Ident) : Bool :=
  e.hash = record.lookupKey && (index.kind != .keys || e.identity == record.rowIdentity)

def findRecord (record : RawDeletionRecord Ident) : List (Nat × Nat) :=
  match index.kind with
  | .fullRow => (index.entries.filter (index.isFor record)).map (·.location)
  | _ => ((index.entries.find? (index.isFor record)).map (·.location)).toList

/-- Remove the entry of a row and return its location. -/
def fastDelete (record : RawDeletionRecord Ident) : Option (Nat × Nat) × MemIndex Ident :=
  ((index.entries.find? (index.isFor record)).map (·.location),
    { index with entries := index.entries.eraseP (index.isFor record) })

def allowDuplicate : Bool := index.kind = .fullRow

/-- Append-only tables have no index. -/
def insert (key : Nat) (identity : Option Ident) (location : Nat × Nat) : MemIndex Ident :=
  if index.kind = .none then index
  else { index with entries := index.entries ++ [⟨key, identity, location⟩] }

def isEmpty (index : MemIndex Ident) : Bool := index.entries.isEmpty

end MemIndex

/-! ## Column store -/

structure InMemoryBatch (Row : Type) where
  /-- The rows, once the batch is closed. -/
  data : Option (List Row)
  deletions : BatchDeletionVector

namespace InMemoryBatch

variable {Row : Type}

def new (maxRowsPerBuffer : Nat) : InMemoryBatch Row := ⟨none, .new maxRowsPerBuffer⟩

/-- Nothing is returned for a batch without active rows. -/
def getFilteredBatch (batch : InMemoryBatch Row) : Except StoragePanic (Option (List Row)) :=
  match batch.data with
  | none => .ok none
  | some rows => do
    let rows ← batch.deletions.applyToBatchWithSlice rows 0
    return if rows.isEmpty then none else some rows

end InMemoryBatch

structure BatchEntry (Row : Type) where
  id : Nat
  batch : InMemoryBatch Row

/-- `ColumnStoreBuffer`: the closed batches, the open one and its rows. -/
structure ColumnStoreBuffer (Row : Type) where
  maxRowsPerBuffer : Nat
  closedBatches : List (BatchEntry Row)
  openBatch : BatchEntry Row
  currentRows : List Row

namespace ColumnStoreBuffer

variable {Row Ident : Type}

def new (maxRowsPerBuffer : Nat) (counter : BatchIdCounter) :
    Except StoragePanic (ColumnStoreBuffer Row × BatchIdCounter) := do
  let (current, counter) ← counter.getAndNext
  return (⟨maxRowsPerBuffer, [], ⟨current + 1, .new maxRowsPerBuffer⟩, []⟩, counter)

variable (store : ColumnStoreBuffer Row)

def inMemoryBatches : List (BatchEntry Row) :=
  store.closedBatches ++ [store.openBatch]

/-- Close the open batch, and return its rows with the id that its caller uses. -/
def finalizeCurrentBatch (counter : BatchIdCounter) :
    Except StoragePanic (Option (Nat × List Row) × ColumnStoreBuffer Row × BatchIdCounter) :=
  if store.currentRows.isEmpty then .ok (none, store, counter)
  else do
    let closed := { store.openBatch with
      batch := { store.openBatch.batch with data := some store.currentRows } }
    let (current, counter) ← counter.getAndNext
    let nextBatchId := current + 1
    return (some (nextBatchId - 1, store.currentRows),
      { store with
        closedBatches := store.closedBatches ++ [closed]
        openBatch := ⟨nextBatchId, .new store.maxRowsPerBuffer⟩
        currentRows := [] },
      counter)

/-- A full batch is closed first. -/
def closeIfFull (counter : BatchIdCounter) :
    Except StoragePanic (Option (Nat × List Row) × ColumnStoreBuffer Row × BatchIdCounter) :=
  if store.maxRowsPerBuffer ≤ store.currentRows.length then store.finalizeCurrentBatch counter
  else .ok (none, store, counter)

/-- Also returns the location of the row and the batch that was closed. -/
def appendRow (counter : BatchIdCounter) (row : Row) : Except StoragePanic
      ((Nat × Nat) × Option (Nat × List Row) × ColumnStoreBuffer Row × BatchIdCounter) := do
  let (newBatch, store, counter) ← store.closeIfFull counter
  let store := { store with currentRows := store.currentRows ++ [row] }
  return ((store.openBatch.id, store.currentRows.length - 1), newBatch, store, counter)

/-- The rows of a batch; those of the open one are in the row buffer. -/
def rowsOf (entry : BatchEntry Row) : List Row :=
  entry.batch.data.getD store.currentRows

def checkIdentity (store : ColumnStoreBuffer Row) (identity : IdentityProp Row Ident)
    (record : RawDeletionRecord Ident) (entry : BatchEntry Row) (offset : Nat) : Except StoragePanic Bool :=
  if identity.requiresIdentityCheckInMemSlice then
    match entry.batch.data with
    | some rows => IdentityProp.checkRow identity.equalsRecordBatchAtOffset record.rowIdentity rows[offset]?
    | none => IdentityProp.checkRow (some <| identity.equalsMoonlinkRow · ·) record.rowIdentity store.currentRows[offset]?
  else .ok true

/-- The batch of an id. Looking one up that does not exist panics in the code. -/
def findBatch (batchId : Nat) : Option (BatchEntry Row) :=
  store.inMemoryBatches.find? (·.id = batchId)

def findValidRowByRecord (store : ColumnStoreBuffer Row)
    (identity : IdentityProp Row Ident) (record : RawDeletionRecord Ident) (location : Nat × Nat) :
    Except StoragePanic (Option (Nat × Nat)) :=
  match store.findBatch location.1 with
  | none => .error .missingBatch
  | some entry =>
    if entry.batch.deletions.isDeleted location.2 then .ok none
    else do
      if ← store.checkIdentity identity record entry location.2 then return some location
      else return none

/-- Mark a row of a batch as deleted; a row that is deleted already panics. -/
def deleteInEntry (entry : BatchEntry Row) (offset : Nat) : Except StoragePanic (BatchEntry Row) := do
  let deletions ← entry.batch.deletions.deleteActiveRow offset
  return { entry with batch := { entry.batch with deletions } }

def deleteAt (location : Nat × Nat) : Except StoragePanic (ColumnStoreBuffer Row) := do
  let closedBatches ← store.closedBatches.mapM fun entry =>
    if entry.id = location.1 then deleteInEntry entry location.2 else .ok entry
  let openBatch ←
    if store.openBatch.id = location.1 then deleteInEntry store.openBatch location.2
    else .ok store.openBatch
  return { store with closedBatches, openBatch }

def deleteRowByRecord (store : ColumnStoreBuffer Row)
    (identity : IdentityProp Row Ident) (record : RawDeletionRecord Ident) (location : Nat × Nat) :
    Except StoragePanic (Option (Nat × Nat) × ColumnStoreBuffer Row) := do
  match ← store.findValidRowByRecord identity record location with
  | none => return (none, store)
  | some location => return (some location, ← store.deleteAt location)

/-- Returns whether the batch is still in memory. -/
def tryDeleteAtPos (pos : Nat × Nat) : Except StoragePanic (Bool × ColumnStoreBuffer Row) :=
  match store.findBatch pos.1 with
  | none => .ok (false, store)
  | some _ => do return (true, ← store.deleteAt pos)

def drain : List (BatchEntry Row) × ColumnStoreBuffer Row :=
  (store.closedBatches, { store with closedBatches := [] })

def getNumRows : Nat :=
  store.closedBatches.length * store.maxRowsPerBuffer + store.currentRows.length

def getCommitCheckPoint : Nat × Nat :=
  (store.openBatch.id, store.currentRows.length)

end ColumnStoreBuffer

/-! ## Mem slice -/

structure MemSlice (Row Ident : Type) where
  columnStore : ColumnStoreBuffer Row
  memIndex : MemIndex Ident

namespace MemSlice

variable {Row Ident : Type} [BEq Ident]

def new (identity : IdentityProp Row Ident) (maxRowsPerBuffer : Nat) (counter : BatchIdCounter) :
    Except StoragePanic (MemSlice Row Ident × BatchIdCounter) := do
  let (store, counter) ← ColumnStoreBuffer.new maxRowsPerBuffer counter
  return (⟨store, .new identity.kind⟩, counter)

def isEmpty (slice : MemSlice Row Ident) : Bool := slice.columnStore.getNumRows = 0

/-- The first of the locations at which a row is deleted. -/
def deleteFirst (identity : IdentityProp Row Ident) (record : RawDeletionRecord Ident)
    (store : ColumnStoreBuffer Row) :
    List (Nat × Nat) → Except StoragePanic (Option (Nat × Nat) × ColumnStoreBuffer Row)
  | [] => .ok (none, store)
  | location :: rest => do
    match ← store.deleteRowByRecord identity record location with
    | (some location, store) => return (some location, store)
    | (none, store) => deleteFirst identity record store rest

/-- Returns the location of the deleted row, if it was in the slice. -/
def delete (slice : MemSlice Row Ident) (identity : IdentityProp Row Ident)
    (record : RawDeletionRecord Ident) :
    Except StoragePanic (Option (Nat × Nat) × MemSlice Row Ident) :=
  if slice.memIndex.allowDuplicate then do
    let (location, columnStore) ←
      deleteFirst identity record slice.columnStore (slice.memIndex.findRecord record)
    return (location, { slice with columnStore })
  else do
    let (location, memIndex) := slice.memIndex.fastDelete record
    let (location, columnStore) ← deleteFirst identity record slice.columnStore location.toList
    return (location, ⟨columnStore, memIndex⟩)

def findFirst (identity : IdentityProp Row Ident) (record : RawDeletionRecord Ident)
    (store : ColumnStoreBuffer Row) : List (Nat × Nat) → Except StoragePanic (Option (Nat × Nat))
  | [] => .ok none
  | location :: rest => do
    match ← store.findValidRowByRecord identity record location with
    | some location => return some location
    | none => findFirst identity record store rest

def findNonDeletedPosition (slice : MemSlice Row Ident) (identity : IdentityProp Row Ident)
    (record : RawDeletionRecord Ident) : Except StoragePanic (Option (Nat × Nat)) :=
  findFirst identity record slice.columnStore (slice.memIndex.findRecord record)

def tryDeleteAtPos (slice : MemSlice Row Ident) (pos : Nat × Nat) :
    Except StoragePanic (Bool × MemSlice Row Ident) := do
  let (found, columnStore) ← slice.columnStore.tryDeleteAtPos pos
  return (found, { slice with columnStore })

/-- Returns the batch that was closed, if the last one was full. -/
def append (slice : MemSlice Row Ident) (identity : IdentityProp Row Ident)
    (counter : BatchIdCounter) (row : Row) :
    Except StoragePanic (Option (Nat × List Row) × MemSlice Row Ident × BatchIdCounter) := do
  let (location, newBatch, columnStore, counter) ← slice.columnStore.appendRow counter row
  let memIndex := slice.memIndex.insert (identity.lookupKey row)
    (identity.extractIdentityForKey row) location
  return (newBatch, ⟨columnStore, memIndex⟩, counter)

/-- Close the open batch and take all closed ones with their index. -/
def drain (slice : MemSlice Row Ident) (counter : BatchIdCounter) :
    Except StoragePanic
      ((Option (Nat × List Row) × List (BatchEntry Row) × MemIndex Ident) ×
        MemSlice Row Ident × BatchIdCounter) := do
  let (batch, columnStore, counter) ← slice.columnStore.finalizeCurrentBatch counter
  let (entries, columnStore) := columnStore.drain
  return ((batch, entries, slice.memIndex), ⟨columnStore, .new slice.memIndex.kind⟩, counter)

end MemSlice
end Moonlink.Storage
