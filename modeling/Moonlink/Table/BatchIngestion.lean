-- SUMMARY: Bulk ingestion between the commits and flushes of a change stream, and when the LSN that it sets respects them.
import Moonlink.Lib.TransitionSystem
import Moonlink.Table.FlushLsn

/-!
# Bulk ingestion and the LSNs of the table

`batch_ingest` sets the commit and flush LSNs of the next snapshot task directly. The table is
kept here as its LSNs and the commit LSNs of the rows that are not on disk, with the commits and
flushes that the handler makes for the change stream.

The changes of a transaction that is not streamed come without others between them, so none is
open when a flush starts. The assertions of the snapshot itself are left out.
-/

namespace Moonlink

open Lib

/-- A disk slice that is being written, with the commit LSNs of its rows. -/
structure FlushingSlice where
  lsn : Nat
  rows : List Nat
  deriving DecidableEq, Repr

structure IngestingTable where
  flushLsns : FlushLsns
  commitLsnBaseline : Nat
  /-- The LSN of the last record of `new_deletions`. -/
  lastDeletionLsn : Option Nat
  /-- The rows of the mem slice that are not committed. -/
  openRows : Nat
  /-- The commit LSNs of the other rows of the mem slice. -/
  committedRows : List Nat
  slices : List FlushingSlice
  /-- The flush LSN of the current snapshot. -/
  snapshotFlushLsn : Option Nat
  /-- Kept by the handler. -/
  lastUnflushedCommitLsn : Option Nat
  /-- The last commit of the change stream, or the snapshot that the table was loaded from. -/
  lastCommitLsn : Nat
  /-- The LSN of the last bulk ingestion. -/
  ingestedLsn : Nat
  deriving DecidableEq

inductive IngestOp where
  | append
  | delete (lsn : Nat)
  /-- Commit the open rows, and flush if there are enough rows or a flush is requested. -/
  | commit (lsn : Nat) (flushes : Bool)
  /-- Commit a streaming transaction: the rows of its slices that are being written and of what is
  left in its mem slice, and whether it has files already. -/
  | commitTransactionStream (lsn : Nat) (flushing : List Nat) (rest : Nat) (flushedFiles : Bool)
  /-- The flush for a forced snapshot. -/
  | flush
  | flushResult (slice : FlushingSlice)
  | batchIngest (lsn : Nat)
  | createSnapshot

namespace IngestingTable

/-- A new table, or one that is loaded from an Iceberg snapshot. -/
def new (persistenceSnapshotLsn : Option Nat) : IngestingTable where
  flushLsns := .new
  commitLsnBaseline := 0
  lastDeletionLsn := none
  openRows := 0
  committedRows := []
  slices := []
  snapshotFlushLsn := persistenceSnapshotLsn
  lastUnflushedCommitLsn := none
  lastCommitLsn := persistenceSnapshotLsn.getD 0
  ingestedLsn := 0

variable (s : IngestingTable)

def commit (lsn : Nat) : Except Panic IngestingTable := do
  assert (s.commitLsnBaseline ≤ lsn) .commitLsnBelowBaseline
  assert (s.lastDeletionLsn.all (· < lsn)) .commitLsnNotAboveDeletion
  return { s with
    commitLsnBaseline := lsn
    openRows := 0
    committedRows := s.committedRows ++ List.replicate s.openRows lsn
    lastUnflushedCommitLsn := some lsn
    lastCommitLsn := lsn }

def flush (lsn : Nat) : Except Panic IngestingTable :=
  if (s.openRows = 0 && s.committedRows.isEmpty) || (s.flushLsns.ongoingFlushLsns.lookup lsn).isSome then do
    let flushLsns ← s.flushLsns.emptyFlush lsn
    return { s with flushLsns }
  else do
    assert (s.flushLsns.newFlushLsn.all (· ≤ lsn)) .flushLsnRegressed
    let flushLsns ← s.flushLsns.insertOngoingFlushLsn lsn 1
    return { s with
      flushLsns
      openRows := 0
      committedRows := []
      slices := s.slices ++ [⟨lsn, s.committedRows⟩] }

/-- Flush what was committed, up to the last commit. -/
def flushCommits (lsn : Nat) : Except Panic IngestingTable := do
  let s ← s.flush lsn
  return { s with lastUnflushedCommitLsn := none }

def flushUnflushedCommits : Except Panic IngestingTable :=
  match s.lastUnflushedCommitLsn with
  | none => .ok s
  | some lsn => s.flushCommits lsn

def commitTransactionStream (lsn : Nat) (flushing : List Nat) (rest : Nat)
    (flushedFiles : Bool) : Except Panic IngestingTable := do
  let flushLsns ← s.flushLsns.insertOngoingFlushLsn lsn (flushing.length + 1)
  assert (s.commitLsnBaseline ≤ lsn) .commitLsnBelowBaseline
  return { s with
    flushLsns := if flushedFiles then flushLsns.trySetLargestFlushLsn lsn else flushLsns
    commitLsnBaseline := lsn
    slices := s.slices ++ (flushing ++ [rest]).map fun rows => ⟨lsn, List.replicate rows lsn⟩
    lastCommitLsn := lsn }

/-- `apply_flush_result`, or `apply_stream_flush_result` of a transaction that is committed. -/
def applyFlushResult (slice : FlushingSlice) : Except Panic IngestingTable := do
  let flushLsns ← s.flushLsns.completeFlush slice.lsn
  return { s with flushLsns, slices := s.slices.erase slice }

/-- The files are on disk already. -/
def batchIngest (lsn : Nat) : IngestingTable :=
  { s with
    flushLsns := { s.flushLsns with newFlushLsn := some lsn, newLargestFlushLsn := some lsn }
    commitLsnBaseline := lsn
    ingestedLsn := lsn }

def createSnapshot : IngestingTable :=
  { s with
    flushLsns := s.flushLsns.handOver
    lastDeletionLsn := none
    snapshotFlushLsn := s.flushLsns.newFlushLsn.or s.snapshotFlushLsn }

/-- One step of the handler. The result of a flush that is not ongoing is ignored. -/
def next : IngestOp → Except Panic IngestingTable
  | .append => .ok { s with openRows := s.openRows + 1 }
  | .delete lsn => .ok { s with lastDeletionLsn := some lsn }
  | .commit lsn flushes => do
    let s ← s.commit lsn
    if flushes then s.flushCommits lsn else return s
  | .commitTransactionStream lsn flushing rest flushedFiles => do
    let s ← s.flushUnflushedCommits
    s.commitTransactionStream lsn flushing rest flushedFiles
  | .flush => s.flushCommits s.lastCommitLsn
  | .flushResult slice =>
    if slice ∈ s.slices then s.applyFlushResult slice else .ok s
  | .batchIngest lsn => .ok (s.batchIngest lsn)
  | .createSnapshot => .ok s.createSnapshot

/-- What the change stream and the handler keep to: commit LSNs increase, and no transaction is open when
a flush starts. -/
def Admissible : IngestOp → Prop
  | .commit lsn _ => s.lastCommitLsn < lsn ∧ lsn < u64Max ∧ s.lastDeletionLsn.all (· < lsn)
  | .commitTransactionStream lsn flushing _ _ =>
    s.lastCommitLsn < lsn ∧ lsn < u64Max ∧ s.openRows = 0 ∧ flushing.length + 1 < 2 ^ 32
  | .flush => s.openRows = 0
  | _ => True

/-- The commit LSNs of the rows that are not on disk. -/
def offDisk : List Nat := s.committedRows ++ s.slices.flatMap (·.rows)

/-- The flush LSN of the next snapshot; zero stands for none. -/
def flushLsn : Nat := (s.flushLsns.newFlushLsn.or s.snapshotFlushLsn).getD 0

/-- What a step keeps: the LSNs do not decrease, and all flushes and all committed rows up to the flush LSN
are on disk. -/
structure Respects (s s' : IngestingTable) : Prop where
  baseline : s.commitLsnBaseline ≤ s'.commitLsnBaseline
  flushLsn : s.flushLsn ≤ s'.flushLsn
  flushes : ∀ slice ∈ s'.slices, s'.flushLsn < slice.lsn
  rows : ∀ c ∈ s'.offDisk, s'.flushLsn < c

/-- A bulk ingestion comes when no flush is ongoing and all committed rows are on disk, with an LSN that is
not below those before. What is committed later has an LSN above it. -/
def InOrder : IngestOp → Prop
  | .batchIngest lsn => s.lastCommitLsn ≤ lsn ∧ s.ingestedLsn ≤ lsn ∧ s.slices = [] ∧ s.committedRows = []
  | .commit lsn _ => s.ingestedLsn ≤ lsn ∧ (s.openRows ≠ 0 → s.ingestedLsn < lsn)
  | .commitTransactionStream lsn _ _ _ =>
    s.ingestedLsn < lsn ∧ (s.lastUnflushedCommitLsn.isSome → s.ingestedLsn ≤ s.lastCommitLsn)
  | .flush => s.ingestedLsn ≤ s.lastCommitLsn
  | _ => True

end IngestingTable
end Moonlink
