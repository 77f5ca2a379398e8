-- SUMMARY: The table handler: processing of change events, the initial copy, and results of background tasks.
import Moonlink.Table.Mooncake
import Moonlink.Wal.Store

/-!
# The table handler

The handler takes events from its queue one at a time. Change events are checked
against the LSN that was persistent when the process started, and are buffered
during the initial copy. Besides the queue, the handler receives the results of
flushes and snapshots that run in the background, in any order.

Requests that only concern maintenance, force snapshots, schema changes and drops
are left out, so a force snapshot LSN is never set here. The commit path still
reads it.
-/

namespace Moonlink

open Lib

inductive SpecialTableState where
  | normal
  | initialCopy
  deriving DecidableEq, Repr

structure TableHandlerState (Row : Type) where
  /-- Change events at or below this LSN were already processed. -/
  initialPersistenceLsn : Option Nat
  /-- The LSN of the last event, if it was a commit. -/
  tableConsistentViewLsn : Option Nat
  latestCommitLsn : Option Nat
  /-- The last commit of a main transaction that was not flushed. -/
  lastUnflushedCommitLsn : Option Nat
  mooncakeSnapshotOngoing : Bool
  largestForceSnapshotLsn : Option Nat
  specialTableState : SpecialTableState
  initialCopyBufferedEvents : List (TableEvent Row)

namespace TableHandlerState

variable {Row : Type}

def new (initialPersistenceLsn persistenceSnapshotLsn : Option Nat) : TableHandlerState Row where
  initialPersistenceLsn
  tableConsistentViewLsn := persistenceSnapshotLsn
  latestCommitLsn := none
  lastUnflushedCommitLsn := none
  mooncakeSnapshotOngoing := false
  largestForceSnapshotLsn := none
  specialTableState := .normal
  initialCopyBufferedEvents := []

variable (s : TableHandlerState Row)

def updateTableLsns (e : TableEvent Row) : TableHandlerState Row :=
  if e.isIngestEvent then
    match e with
    | .commit lsn x _ => { s with
        latestCommitLsn := some lsn
        tableConsistentViewLsn := some lsn
        lastUnflushedCommitLsn := if x.isNone then some lsn else s.lastUnflushedCommitLsn }
    | .commitFlush lsn _ _ => { s with
        latestCommitLsn := some lsn
        tableConsistentViewLsn := some lsn }
    | .append .. | .delete .. | .streamAbort .. => { s with tableConsistentViewLsn := none }
    | _ => s
  else s

/-- Streaming events cannot be discarded here, since their LSN is sent at the commit. -/
def shouldDiscardEvent (e : TableEvent Row) : Bool :=
  match s.initialPersistenceLsn with
  | none => false
  | some initialPersistenceLsn =>
    !e.isStreamingUpdate && e.getLsnForIngestEvent.any (· ≤ initialPersistenceLsn)

def isInBlockingState : Bool := s.specialTableState != .normal

def shouldForceFlush (commitLsn existingFlushLsn : Nat) : Bool :=
  s.largestForceSnapshotLsn.any fun lsn => lsn ≤ commitLsn && existingFlushLsn < lsn

def startInitialCopy : Except Panic (TableHandlerState Row) := do
  assert (s.specialTableState == .normal) .unexpectedTableState
  return { s with specialTableState := .initialCopy }

def finishInitialCopy (lsn : Nat) : Except Panic (TableHandlerState Row) := do
  assert (s.specialTableState == .initialCopy) .unexpectedTableState
  return { s with
    specialTableState := .normal
    latestCommitLsn := some lsn
    tableConsistentViewLsn := some lsn }

end TableHandlerState

structure TableHandler (Row : Type) where
  table : MooncakeTable Row
  state : TableHandlerState Row

/-- What the event loop receives: events of the queue and results of background tasks. -/
inductive HandlerInput (Row : Type) where
  | event (e : TableEvent Row)
  /-- The flush of a main disk slice completes. -/
  | flushResult (lsn : Nat)
  /-- A flush of a streaming transaction completes. -/
  | streamFlushResult (xactId : XactId)
  | periodicalMooncakeTableSnapshot (otherWork : Bool)
  | mooncakeTableSnapshotResult

namespace TableHandler

variable {Row : Type}

/-- The persistent LSN that the event loop starts with. A file number above zero says
that the WAL was persisted before. -/
def initialPersistenceLsn (persistenceSnapshotLsn : Option Nat) (wal : WalManager Row) : Option Nat :=
  if 0 < wal.currFileNumber then
    match persistenceSnapshotLsn with
    | some lsn => some (max lsn wal.highestCompletionLsn)
    | none => some wal.highestCompletionLsn
  else persistenceSnapshotLsn

/-- The handler of a table that is loaded at the start of a process. -/
def new (memSliceSize : Nat) (appendOnly : Bool) (persistenceSnapshotLsn : Option Nat)
    (wal : WalManager Row) : TableHandler Row where
  table := MooncakeTable.new memSliceSize appendOnly persistenceSnapshotLsn wal
  state := TableHandlerState.new (initialPersistenceLsn persistenceSnapshotLsn wal)
    persistenceSnapshotLsn

/-- The handler after a restart from what a store has on disk. -/
def restart (memSliceSize : Nat) (appendOnly : Bool) (s : WalStore Row) : TableHandler Row :=
  new memSliceSize appendOnly s.persistenceSnapshotLsn (WalStore.recoveredManager s.metadata)

/-! ## Change events -/

variable (h : TableHandler Row)

/-- Attempt to flush all preceding unflushed committed main writes. -/
def flushUnflushedCommits : Except Panic (TableHandler Row) :=
  match h.state.lastUnflushedCommitLsn with
  | none => .ok h
  | some lsn => do
    let table ← h.table.flush lsn
    return ⟨table, { h.state with lastUnflushedCommitLsn := none }⟩

/-- A streaming transaction is only known to be persistent, and discarded, at its commit. -/
def commitStreaming (x : XactId) (lsn : Nat) : Except Panic (TableHandler Row) := do
  let h ← h.flushUnflushedCommits
  if h.state.initialPersistenceLsn.any (lsn ≤ ·) then
    let table ← h.table.abortInStreamBatch x
    return { h with table }
  else
    let table ← h.table.commitTransactionStream x lsn
    return { h with table }

def commitMain (lsn : Nat) (forceFlushRequested : Bool) : Except Panic (TableHandler Row) := do
  let shouldForceFlush := h.state.shouldForceFlush lsn h.table.getLastFlushLsn
  let table ← h.table.commit lsn
  if table.shouldFlush || shouldForceFlush || forceFlushRequested then
    let table ← table.flush lsn
    return ⟨table, { h.state with lastUnflushedCommitLsn := none }⟩
  else return { h with table }

def commitAndAttemptFlush (lsn : Nat) (x : Option XactId)
    (forceFlushRequested : Bool) : Except Panic (TableHandler Row) :=
  match x with
  | some x => h.commitStreaming x lsn
  | none => h.commitMain lsn forceFlushRequested

def appendStreaming (row : Row) (x : XactId) : Except Panic (TableHandler Row) := do
  let table := h.table.appendInStreamBatch row x
  if ← table.shouldTransactionFlush x then
    let table ← table.flushStream x
    return { h with table }
  else return { h with table }

def deleteStreaming (row : Row) (x : XactId) (deleteIfExists : Bool) : Except Panic (TableHandler Row) := do
  assert (!deleteIfExists) .streamDeleteIfExists
  return { h with table := h.table.deleteInStreamBatch row x }

/-- The match of `process_cdc_table_event` on the kind of the event. -/
def applyCdcTableEvent (e : TableEvent Row) : Except Panic (TableHandler Row) :=
  match e with
  | .append row (some x) _ _ => h.appendStreaming row x
  | .append row none _ _ => .ok { h with table := h.table.append row }
  | .delete row _ (some x) d _ => h.deleteStreaming row x d
  | .delete row lsn none d _ => .ok { h with
      table := if d then h.table.deleteIfExists row lsn else h.table.delete row lsn }
  | .commit lsn x _ => h.commitAndAttemptFlush lsn x false
  | .streamAbort x _ closesIncompleteWalTransaction =>
    if closesIncompleteWalTransaction then .ok h
    else do
      let table ← h.table.abortInStreamBatch x
      return { h with table }
  | .commitFlush lsn x _ => h.commitAndAttemptFlush lsn x true
  | .streamFlush x _ => do
    let table ← h.table.flushStream x
    return { h with table }
  | _ => .error .unexpectedEvent

/-- Recovery events are in the WAL already. -/
def pushWalEvent (b : Build) (h : TableHandler Row) (e : TableEvent Row) (isRecovery : Bool) :
    Except Panic (TableHandler Row) :=
  if isRecovery then .ok h
  else do
    let wal ← h.table.wal.push b e
    return { h with table := { h.table with wal } }

def processCdcTableEvent (b : Build) (h : TableHandler Row) (e : TableEvent Row) :
    Except Panic (TableHandler Row) :=
  if h.state.isInBlockingState then
    .ok { h with state := { h.state with
      initialCopyBufferedEvents := h.state.initialCopyBufferedEvents ++ [e] } }
  else do
    let h := { h with state := h.state.updateTableLsns e }
    let isRecovery ← e.isRecovery
    if h.state.shouldDiscardEvent e && !isRecovery then return h
    else
      let h ← h.pushWalEvent b e isRecovery
      h.applyCdcTableEvent e

def processCdcTableEvents (b : Build) (h : TableHandler Row) :
    List (TableEvent Row) → Except Panic (TableHandler Row)
  | [] => .ok h
  | e :: rest => do
    let h ← h.processCdcTableEvent b e
    processCdcTableEvents b h rest

def processBlockedEvents (b : Build) (h : TableHandler Row) : Except Panic (TableHandler Row) :=
  processCdcTableEvents b { h with state := { h.state with initialCopyBufferedEvents := [] } }
    h.state.initialCopyBufferedEvents

/-! ## The event loop -/

/-- Try to create a snapshot, if none is ongoing. -/
def tryCreateSnapshot (forceCreate otherWork : Bool) : TableHandler Row :=
  if h.state.mooncakeSnapshotOngoing then h
  else match h.table.tryCreateMooncakeSnapshot forceCreate otherWork with
    | some table => ⟨table, { h.state with mooncakeSnapshotOngoing := true }⟩
    | none => h

/-- The boundary of the copy becomes the persistent LSN, then the buffered events are applied. -/
def finishInitialCopy (b : Build) (h : TableHandler Row) (startLsn : Nat) :
    Except Panic (TableHandler Row) := do
  let h := h.tryCreateSnapshot true false
  let state ← h.state.finishInitialCopy startLsn
  processBlockedEvents b { h with state := { state with initialPersistenceLsn := some startLsn } }

def handleEvent (b : Build) (h : TableHandler Row) (e : TableEvent Row) :
    Except Panic (TableHandler Row) :=
  if e.isIngestEvent then h.processCdcTableEvent b e
  else match e with
    | .loadFiles files lsn => .ok { h with table := h.table.batchIngest files lsn }
    | .startInitialCopy => do
      let state ← h.state.startInitialCopy
      return { h with state }
    | .finishInitialCopy startLsn => h.finishInitialCopy b startLsn
    -- The WAL completion LSN is only reported to the replication loop.
    | .finishRecovery _ => .ok h
    | _ => .error .unexpectedEvent

/-- One round of the event loop. A background result arrives only for a task that was
started and has not panicked; in other states the input is ignored. -/
def next (b : Build) (h : TableHandler Row) : HandlerInput Row → Except Panic (TableHandler Row)
  | .event e => h.handleEvent b e
  | .flushResult lsn =>
    if lsn ∈ h.table.flushingDiskSlices then do
      let table ← h.table.applyFlushResult lsn
      return { h with table }
    else .ok h
  | .streamFlushResult x =>
    if (h.table.transactionStreamStates.lookup x).any (0 < ·.ongoingFlushCount) then do
      let table ← h.table.applyStreamFlushResult x
      return { h with table }
    else .ok h
  | .periodicalMooncakeTableSnapshot otherWork => .ok (h.tryCreateSnapshot false otherWork)
  | .mooncakeTableSnapshotResult =>
    if h.table.snapshotPanicked then .ok h
    else .ok { h with state := { h.state with mooncakeSnapshotOngoing := false } }

def run (b : Build) (h : TableHandler Row) : List (HandlerInput Row) → Except Panic (TableHandler Row)
  | [] => .ok h
  | i :: rest => do
    let h ← h.next b i
    run b h rest

end TableHandler
end Moonlink
