-- SUMMARY: The Mooncake table: pending and committed changes, stream states, flushes and snapshots with their LSNs.
import Moonlink.Wal.Manager

/-!
# The Mooncake table

What a table holds is modelled by the list of transactions that were applied to
it, each with its row changes; how rows are laid out in batches, files and
deletion vectors is left out. The LSN bookkeeping of commits, flushes and
snapshots is that of the code, since its assertions are about LSNs.

A row of a mem slice is counted when it is appended, also if it is deleted later,
as in the code. A streaming delete leaves the LSN of the last deletion alone; in
the code it may add a record, whose placeholder LSN passes the check of `commit`.
-/

namespace Moonlink

open Lib

/-- A change of one row. -/
inductive RowOp (Row : Type) where
  | append (row : Row)
  | delete (row : Row) (deleteIfExists : Bool)
  deriving DecidableEq, Repr

/-- Where an applied transaction comes from. -/
inductive XactOrigin where
  | main
  | stream (xactId : XactId)
  /-- Files that `batch_ingest` loads. -/
  | files
  deriving DecidableEq, Repr

/-- A transaction whose changes are part of the table. -/
structure AppliedXact (Row : Type) where
  origin : XactOrigin
  lsn : Nat
  ops : List (RowOp Row)
  deriving DecidableEq, Repr

/-- A transaction stays until its pending flushes are applied, also after it ended.
The commit LSN is stored for them. -/
inductive TransactionStreamStatus where
  | pending
  | committed (commitLsn : Nat)
  | aborted
  deriving DecidableEq, Repr

structure TransactionStreamState (Row : Type) where
  ops : List (RowOp Row)
  memRows : Nat
  status : TransactionStreamStatus
  ongoingFlushCount : Nat

def TransactionStreamState.new {Row : Type} : TransactionStreamState Row := ⟨[], 0, .pending, 0⟩

/-- What the next snapshot takes over. -/
structure SnapshotTask where
  /-- The LSN of the last record of `new_deletions`. -/
  lastDeletionLsn : Option Nat
  commitLsnBaseline : Nat
  prevCommitLsnBaseline : Nat
  newFlushLsn : Option Nat
  /-- There are completed or aborted streaming transactions. -/
  newStreamingXact : Bool
  newDiskSlices : Bool

namespace SnapshotTask

def new : SnapshotTask := ⟨none, 0, 0, none, false, false⟩

/-- `otherWork` stands for the remaining reasons: many deletion records, or results of
an Iceberg snapshot or of table maintenance. -/
def shouldCreateSnapshot (task : SnapshotTask) (otherWork : Bool) : Bool :=
  (0 < task.commitLsnBaseline && task.commitLsnBaseline != task.prevCommitLsnBaseline) ||
    task.newStreamingXact || task.newDiskSlices || otherWork

end SnapshotTask

structure MooncakeTable (Row : Type) where
  memSliceSize : Nat
  appendOnly : Bool
  /-- Changes of the open main transaction. -/
  uncommitted : List (RowOp Row)
  memRows : Nat
  transactionStreamStates : AssocMap XactId (TransactionStreamState Row)
  applied : List (AppliedXact Row)
  nextSnapshotTask : SnapshotTask
  /-- The LSNs of ongoing flushes, once for each flush. -/
  ongoingFlushLsns : List Nat
  /-- The LSNs of the main disk slices that background tasks are writing. -/
  flushingDiskSlices : List Nat
  completedUnrecordedFlushLsns : List Nat
  lastFlushLsn : Option Nat
  /-- The flush LSN of the current snapshot. -/
  snapshotFlushLsn : Option Nat
  /-- A snapshot task failed an assertion; the snapshot then never completes. -/
  snapshotPanicked : Bool
  wal : WalManager Row

namespace MooncakeTable

variable {Row : Type}

/-- A table whose current snapshot was loaded from an Iceberg snapshot, if there is one. -/
def new (memSliceSize : Nat) (appendOnly : Bool) (persistenceSnapshotLsn : Option Nat)
    (wal : WalManager Row) : MooncakeTable Row where
  memSliceSize
  appendOnly
  uncommitted := []
  memRows := 0
  transactionStreamStates := ∅
  applied := []
  nextSnapshotTask := SnapshotTask.new
  ongoingFlushLsns := []
  flushingDiskSlices := []
  completedUnrecordedFlushLsns := []
  lastFlushLsn := none
  snapshotFlushLsn := persistenceSnapshotLsn
  snapshotPanicked := false
  wal

/-! ## Flush LSNs -/

variable (t : MooncakeTable Row)

/-- The smallest ongoing flush LSN; none stands for `u64::MAX`. -/
def getMinOngoingFlushLsn : Option Nat := t.ongoingFlushLsns.min?

def getLastFlushLsn : Nat := t.lastFlushLsn.getD 0

/-- A completed flush sets the next flush LSN if no smaller one is pending. -/
def recordFlushLsn (lsn : Nat) : Except Panic (MooncakeTable Row) :=
  if t.getMinOngoingFlushLsn.all (lsn < ·) then do
    assert (t.nextSnapshotTask.newFlushLsn.all (· ≤ lsn)) .nextFlushLsnRegressed
    return { t with nextSnapshotTask := { t.nextSnapshotTask with newFlushLsn := some lsn } }
  else
    .ok { t with completedUnrecordedFlushLsns := t.completedUnrecordedFlushLsns ++ [lsn] }

/-- Once no flush is pending, the largest completed LSN becomes the next flush LSN. -/
def recordCompletedFlushLsns : Except Panic (MooncakeTable Row) :=
  if t.ongoingFlushLsns.isEmpty then
    match t.completedUnrecordedFlushLsns.max?, t.nextSnapshotTask.newFlushLsn with
    | none, _ => .ok t
    | some _, none => .error .nextFlushLsnRegressed
    | some largest, some lsn =>
      .ok { t with
        nextSnapshotTask := { t.nextSnapshotTask with newFlushLsn := some (max largest lsn) }
        completedUnrecordedFlushLsns := [] }
  else .ok t

/-- Set the flush LSN for the next Iceberg snapshot, unless a smaller one is pending. -/
def trySetNextFlushLsn (lsn : Nat) : Except Panic (MooncakeTable Row) := do
  let t ← t.recordFlushLsn lsn
  t.recordCompletedFlushLsns

def insertOngoingFlushLsn (lsn count : Nat) : Except Panic (MooncakeTable Row) := do
  assert (t.getLastFlushLsn ≤ lsn) .flushLsnBelowLast
  return { t with
    ongoingFlushLsns := t.ongoingFlushLsns ++ List.replicate count lsn
    lastFlushLsn := some lsn }

def removeOngoingFlushLsn (lsn : Nat) : Except Panic (MooncakeTable Row) := do
  assert (t.ongoingFlushLsns.contains lsn) .flushLsnNotTracked
  return { t with ongoingFlushLsns := t.ongoingFlushLsns.erase lsn }

/-- The disk slice of a flush with this commit LSN becomes part of the next snapshot. -/
def addDiskSlice (lsn : Nat) : Except Panic (MooncakeTable Row) := do
  let t ← t.removeOngoingFlushLsn lsn
  let t ← t.trySetNextFlushLsn lsn
  return { t with nextSnapshotTask := { t.nextSnapshotTask with newDiskSlices := true } }

/-- The background flush of a main disk slice completes. -/
def applyFlushResult (lsn : Nat) : Except Panic (MooncakeTable Row) :=
  addDiskSlice { t with flushingDiskSlices := t.flushingDiskSlices.erase lsn } lsn

/-! ## The main transaction -/

def append (t : MooncakeTable Row) (row : Row) : MooncakeTable Row :=
  { t with uncommitted := t.uncommitted ++ [.append row], memRows := t.memRows + 1 }

def deleteImpl (row : Row) (lsn : Nat) (deleteIfExists : Bool) : MooncakeTable Row :=
  if t.appendOnly then t
  else { t with
    uncommitted := t.uncommitted ++ [.delete row deleteIfExists]
    nextSnapshotTask := { t.nextSnapshotTask with lastDeletionLsn := some lsn } }

def delete (row : Row) (lsn : Nat) : MooncakeTable Row :=
  t.deleteImpl row lsn false

def deleteIfExists (row : Row) (lsn : Nat) : MooncakeTable Row :=
  t.deleteImpl row lsn true

def commit (lsn : Nat) : Except Panic (MooncakeTable Row) := do
  assert (t.nextSnapshotTask.commitLsnBaseline ≤ lsn) .commitLsnBelowBaseline
  assert (t.nextSnapshotTask.lastDeletionLsn.all (· < lsn)) .commitLsnNotAboveDeletion
  return { t with
    applied := t.applied ++ [⟨.main, lsn, t.uncommitted⟩]
    uncommitted := []
    nextSnapshotTask := { t.nextSnapshotTask with commitLsnBaseline := lsn } }

def shouldFlush : Bool := t.memSliceSize ≤ t.memRows

/-- Drain the mem slice into a disk slice with this LSN. Rows of a main transaction
that is still open are drained with the others and become part of the table. -/
def prepareDiskSlice (lsn : Nat) : MooncakeTable Row :=
  let isAppend : RowOp Row → Bool := fun
    | .append _ => true
    | .delete _ _ => false
  let drained := t.uncommitted.filter isAppend
  { t with
    memRows := 0
    applied := if drained.isEmpty then t.applied else t.applied ++ [⟨.main, lsn, drained⟩]
    uncommitted := t.uncommitted.filter fun op => !isAppend op }

def flush (lsn : Nat) : Except Panic (MooncakeTable Row) := do
  assert (t.nextSnapshotTask.newFlushLsn.all (· ≤ lsn)) .flushLsnRegressed
  if t.memRows = 0 || t.ongoingFlushLsns.contains lsn then t.trySetNextFlushLsn lsn
  else
    let t ← (t.prepareDiskSlice lsn).insertOngoingFlushLsn lsn 1
    return { t with flushingDiskSlices := t.flushingDiskSlices ++ [lsn] }

/-! ## Streaming transactions -/

def getStreamState (x : XactId) : Except Panic (TransactionStreamState Row) :=
  match t.transactionStreamStates.lookup x with
  | some st => .ok st
  | none => .error .streamStateNotFound

def setStreamState (x : XactId) (st : TransactionStreamState Row) : MooncakeTable Row :=
  { t with transactionStreamStates := t.transactionStreamStates.insert x st }

def getOrCreateStreamState (x : XactId) : TransactionStreamState Row :=
  (t.transactionStreamStates.lookup x).getD TransactionStreamState.new

def appendInStreamBatch (row : Row) (x : XactId) : MooncakeTable Row :=
  let st := t.getOrCreateStreamState x
  t.setStreamState x { st with ops := st.ops ++ [.append row], memRows := st.memRows + 1 }

def deleteInStreamBatch (row : Row) (x : XactId) : MooncakeTable Row :=
  if t.appendOnly then t
  else
    let st := t.getOrCreateStreamState x
    t.setStreamState x { st with ops := st.ops ++ [.delete row false] }

def shouldTransactionFlush (x : XactId) : Except Panic Bool := do
  let st ← t.getStreamState x
  return t.memSliceSize ≤ st.memRows

/-- Flush the rows of a transaction before its commit. -/
def flushStream (x : XactId) : Except Panic (MooncakeTable Row) := do
  let st ← t.getStreamState x
  return t.setStreamState x { st with memRows := 0, ongoingFlushCount := st.ongoingFlushCount + 1 }

/-- Keep the state while flushes of a transaction that ended are pending. -/
def removeIfFlushed (x : XactId) (st : TransactionStreamState Row) : MooncakeTable Row :=
  if st.ongoingFlushCount = 0 then
    { t with transactionStreamStates := t.transactionStreamStates.erase x }
  else t.setStreamState x st

/-- The background flush of a streaming transaction completes, by the status of the
transaction. `st` has the flush already taken off. -/
def applyStreamDiskSlice (x : XactId) (st : TransactionStreamState Row) : Except Panic (MooncakeTable Row) :=
  match st.status with
  | .committed commitLsn => (t.removeIfFlushed x st).addDiskSlice commitLsn
  | .aborted => .ok (t.removeIfFlushed x st)
  | .pending => .ok (t.setStreamState x st)

def applyStreamFlushResult (x : XactId) : Except Panic (MooncakeTable Row) := do
  let st ← t.getStreamState x
  t.applyStreamDiskSlice x { st with ongoingFlushCount := st.ongoingFlushCount - 1 }

def abortInStreamBatch (x : XactId) : Except Panic (MooncakeTable Row) := do
  let st ← t.getStreamState x
  let t := t.removeIfFlushed x { st with status := .aborted }
  return { t with nextSnapshotTask := { t.nextSnapshotTask with newStreamingXact := true } }

/-- Flush what is left of the transaction under its commit LSN, then commit it. -/
def commitTransactionStream (x : XactId) (lsn : Nat) : Except Panic (MooncakeTable Row) := do
  let st ← t.getStreamState x
  let t ← t.insertOngoingFlushLsn lsn (st.ongoingFlushCount + 1)
  assert (t.nextSnapshotTask.commitLsnBaseline ≤ lsn) .commitLsnBelowBaseline
  return { t with
    applied := t.applied ++ [⟨.stream x, lsn, st.ops⟩]
    transactionStreamStates := t.transactionStreamStates.insert x
      { st with memRows := 0, status := .committed lsn, ongoingFlushCount := st.ongoingFlushCount + 1 }
    nextSnapshotTask := { t.nextSnapshotTask with commitLsnBaseline := lsn, newStreamingXact := true } }

/-! ## Bulk ingestion and snapshots -/

/-- Load files as one committed transaction, and set the LSNs directly. -/
def batchIngest (files : List (List Row)) (lsn : Nat) : MooncakeTable Row :=
  { t with
    applied := t.applied ++ [⟨.files, lsn, files.flatten.map .append⟩]
    nextSnapshotTask := { t.nextSnapshotTask with
      newFlushLsn := some lsn
      commitLsnBaseline := lsn
      newStreamingXact := true } }

/-- The assertions of `update_snapshot` on the LSNs of a task. -/
def validateInvariants (snapshotFlushLsn : Option Nat) (task : SnapshotTask) (forceCreate : Bool) :
    Bool :=
  match task.newFlushLsn, snapshotFlushLsn with
  | some newFlushLsn, some flushLsn =>
    if forceCreate then
      flushLsn ≤ newFlushLsn &&
        (task.commitLsnBaseline = 0 || newFlushLsn ≤ task.commitLsnBaseline ||
          task.commitLsnBaseline = task.prevCommitLsnBaseline)
    else flushLsn < newFlushLsn && newFlushLsn ≤ task.commitLsnBaseline
  | _, _ => true

/-- Take the task for a snapshot and carry the commit baseline over. The snapshot itself
runs in a detached task; its assertions do not stop the handler. -/
def createSnapshotImpl (forceCreate : Bool) : MooncakeTable Row :=
  let task := t.nextSnapshotTask
  let valid := validateInvariants t.snapshotFlushLsn task forceCreate
  { t with
    nextSnapshotTask := { SnapshotTask.new with
      commitLsnBaseline := task.commitLsnBaseline
      prevCommitLsnBaseline := task.commitLsnBaseline }
    snapshotFlushLsn :=
      if valid then task.newFlushLsn.or t.snapshotFlushLsn else t.snapshotFlushLsn
    snapshotPanicked := t.snapshotPanicked || !valid }

/-- Returns nothing if no snapshot is created. -/
def tryCreateMooncakeSnapshot (forceCreate otherWork : Bool) : Option (MooncakeTable Row) :=
  if !t.nextSnapshotTask.shouldCreateSnapshot otherWork && !forceCreate then none
  else some (t.createSnapshotImpl forceCreate)

end MooncakeTable
end Moonlink
