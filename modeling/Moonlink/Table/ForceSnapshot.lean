-- SUMMARY: The table handler with Iceberg persistence: force snapshot requests, what a persisted snapshot holds, and the answers.
import Moonlink.Table.Handler
import Moonlink.Table.MooncakeSpec

/-!
# Force snapshots

A force snapshot request asks that everything up to an LSN is persisted. The handler
answers it at once if it already is. Otherwise later snapshots are forced, and each
persisted snapshot answers the requests at or below the LSN that it reports.

The handler here is the one of the change events, together with the flags and payloads
of persistence. What a snapshot holds is the list of the commits whose rows are in disk
slices that were taken over; the table itself only counts rows, so the transactions of the
rows in the mem slice and in main disk slices are read off from what an event changes.
Maintenance, the initial copy, bulk loads, schema changes and drops are left out, and
whether there is enough to persist is an input.
-/

namespace Moonlink

open Lib

/-- The transactions of the rows of main transactions, by commit LSN; none for rows of the open
transaction. -/
structure MainRows where
  memSlice : List (Option Nat)
  /-- The main disk slices that are being written, with their flush LSN. -/
  diskSlices : List (Nat × List (Option Nat))

/-- What is persisted together: the commits that the snapshot holds at its flush LSN. -/
structure PersistencePayload where
  flushLsn : Nat
  commits : List Nat

/-- An answered request: everything up to `requested` is persisted, since everything up to `lsn` is. -/
structure ForceSnapshotAnswer where
  requested : Nat
  lsn : Nat
  deriving DecidableEq, Repr

structure PersistingHandler (Row : Type) where
  handler : TableHandler Row
  rows : MainRows
  /-- The LSNs of the commit events that were processed. -/
  received : List Nat
  /-- The LSNs of those that were not discarded. -/
  applied : List Nat
  /-- The LSN of the Iceberg snapshot that was loaded. -/
  loaded : Option Nat
  snapshotVersion : Nat
  /-- The payload of the mooncake snapshot that is being created. -/
  created : Option PersistencePayload
  /-- The payloads of `RegularIcebergSnapshot` events that are in the queue. -/
  queued : List PersistencePayload
  persisting : Option PersistencePayload
  /-- The table has its table manager, which a persistence takes away and its result returns. -/
  icebergTableManager : Bool
  persistenceSnapshotOngoing : Bool
  persistenceSnapshotResultConsumed : Bool
  lastPersistenceSnapshotLsn : Option Nat
  /-- The commits in the persisted snapshot, besides those that were loaded. -/
  persisted : List Nat
  /-- The force snapshot requests that wait for an answer. -/
  waiting : List Nat

/-- What the event loop receives, with the replication LSN where it reads it. -/
inductive PersistingInput (Row : Type) where
  | cdc (e : TableEvent Row)
  | flushResult (lsn : Nat)
  | streamFlushResult (xactId : XactId)
  | forceSnapshot (lsn : Option Nat) (replicationLsn : Nat)
  | periodicalMooncakeTableSnapshot (otherWork hasPayload : Bool)
  | mooncakeTableSnapshotResult
  | regularIcebergSnapshot
  | persistenceSnapshotResult (succeeds : Bool) (replicationLsn : Nat)

namespace TableHandlerState

variable {Row : Type}

/-- The largest LSN where all updates have been persisted. -/
def getPersistedTableLsn (s : TableHandlerState Row) (persistenceSnapshotLsn : Option Nat)
    (replicationLsn : Nat) : Nat :=
  -- No activities in the table.
  if persistenceSnapshotLsn.isNone && s.tableConsistentViewLsn.isNone then replicationLsn
  -- No updates since the last Iceberg snapshot.
  else if persistenceSnapshotLsn = s.tableConsistentViewLsn then
    max replicationLsn (persistenceSnapshotLsn.getD 0)
  else persistenceSnapshotLsn.getD 0

def hasPendingForceSnapshotRequest (s : TableHandlerState Row) : Bool := s.largestForceSnapshotLsn.isSome

end TableHandlerState

/-- A commit is discarded if it was persistent at the start, and so are all main events but those
of recovery. -/
def TableHandler.discardsCommit {Row : Type} (h : TableHandler Row) (lsn : Nat) (x : Option XactId)
    (isRecovery : Bool) : Bool :=
  h.state.initialPersistenceLsn.any (lsn ≤ ·) && (x.isSome || !isRecovery)

namespace MainRows

variable {Row : Type}

/-- The open main transaction commits. -/
def commit (r : MainRows) (lsn : Nat) : MainRows where
  memSlice := r.memSlice.map (·.or (some lsn))
  diskSlices := r.diskSlices.map fun slice => (slice.1, slice.2.map (·.or (some lsn)))

/-- A new disk slice has drained the mem slice. -/
def drain (r : MainRows) (t t' : MooncakeTable Row) : MainRows :=
  match t'.flushingDiskSlices.drop t.flushingDiskSlices.length with
  | lsn :: _ => ⟨[], r.diskSlices ++ [(lsn, r.memSlice)]⟩
  | [] => r

/-- What a change event does to the rows, from the handler before and after it. -/
def track (r : MainRows) (h h' : TableHandler Row) : TableEvent Row → MainRows
  | .append _ none _ _ =>
    if h.table.memRows < h'.table.memRows then { r with memSlice := r.memSlice ++ [none] } else r
  | .commit lsn none isRecovery =>
    if h.discardsCommit lsn none isRecovery then r
    else (r.commit lsn).drain h.table h'.table
  | _ => r.drain h.table h'.table

/-- The commits with rows that are not in a disk slice yet. -/
def pending (r : MainRows) : List Nat :=
  (r.memSlice ++ r.diskSlices.flatMap Prod.snd).filterMap id

end MainRows

namespace PersistingHandler

variable {Row : Type}

/-- The handler of a table that is loaded at the start of a process. -/
def new (memSliceSize : Nat) (appendOnly : Bool) (persistenceSnapshotLsn : Option Nat)
    (wal : WalManager Row) : PersistingHandler Row where
  handler := TableHandler.new memSliceSize appendOnly persistenceSnapshotLsn wal
  rows := ⟨[], []⟩
  received := []
  applied := []
  loaded := persistenceSnapshotLsn
  snapshotVersion := 0
  created := none
  queued := []
  persisting := none
  icebergTableManager := true
  persistenceSnapshotOngoing := false
  persistenceSnapshotResultConsumed := true
  lastPersistenceSnapshotLsn := persistenceSnapshotLsn
  persisted := []
  waiting := []

variable (p : PersistingHandler Row)

/-- The persisted Iceberg snapshot contains the transaction with this commit LSN. -/
def Persists (lsn : Nat) : Prop :=
  p.loaded.any (lsn ≤ ·) = true ∨ lsn ∈ p.persisted

instance {p : PersistingHandler Row} {lsn : Nat} : Decidable (p.Persists lsn) :=
  inferInstanceAs (Decidable (_ ∨ _))

/-- The commits with rows that the next snapshot does not take over. -/
def pendingCommits : List Nat :=
  p.rows.pending ++ p.handler.table.transactionStreamStates.flatMapValues (·.committedFlushes)

/-! ## Change events -/

/-- The LSN of the event, if it is a commit, and whether the handler discards it. -/
def commitOf (h : TableHandler Row) : TableEvent Row → Option (Nat × Bool)
  | .commit lsn x isRecovery => some (lsn, h.discardsCommit lsn x isRecovery)
  | _ => none

def processCdcTableEvent (b : Build) (p : PersistingHandler Row) (e : TableEvent Row) :
    Except Panic (PersistingHandler Row) := do
  assert e.isIngestEvent .unexpectedEvent
  let handler ← p.handler.processCdcTableEvent b e
  let commit := commitOf p.handler e
  return { p with
    handler
    rows := p.rows.track p.handler handler e
    received := p.received ++ (commit.map Prod.fst).toList
    applied := p.applied ++ ((commit.filter (!·.2)).map Prod.fst).toList }

/-- The flush of a main disk slice completes. -/
def flushResult (b : Build) (p : PersistingHandler Row) (lsn : Nat) :
    Except Panic (PersistingHandler Row) := do
  let handler ← p.handler.next b (.flushResult lsn)
  return { p with handler, rows := { p.rows with diskSlices := p.rows.diskSlices.eraseP (·.1 = lsn) } }

def streamFlushResult (b : Build) (p : PersistingHandler Row) (x : XactId) :
    Except Panic (PersistingHandler Row) := do
  return { p with handler := ← p.handler.next b (.streamFlushResult x) }

/-! ## Answers -/

/-- The waiting requests at or below the LSN are answered. -/
def notifyPersistedTableLsn (lsn : Nat) : PersistingHandler Row × List ForceSnapshotAnswer :=
  ({ p with waiting := p.waiting.filter (lsn < ·) },
    (p.waiting.filter (· ≤ lsn)).map fun requested => ⟨requested, lsn⟩)

def setLargestForceSnapshotLsn (lsn : Option Nat) : PersistingHandler Row :=
  { p with handler := { p.handler with state :=
    { p.handler.state with largestForceSnapshotLsn := lsn } } }

/-- A request without an LSN is for the latest commit. -/
def forceSnapshot (lsn : Option Nat) (replicationLsn : Nat) :
    PersistingHandler Row × List ForceSnapshotAnswer :=
  match lsn.or p.handler.state.latestCommitLsn with
  -- Nothing to snapshot.
  | none => p.notifyPersistedTableLsn 0
  | some requestedLsn =>
    let persistedTableLsn := p.handler.state.getPersistedTableLsn p.lastPersistenceSnapshotLsn
      replicationLsn
    let p := { p with waiting := p.waiting ++ [requestedLsn] }
    if requestedLsn ≤ persistedTableLsn then p.notifyPersistedTableLsn persistedTableLsn
    else
      (p.setLargestForceSnapshotLsn
        (some ((p.handler.state.largestForceSnapshotLsn.map (max · requestedLsn)).getD requestedLsn)),
        [])

/-! ## Snapshots -/

/-- Flush at the consistent view, if a request needs it. -/
def forceFlush : Except Panic (PersistingHandler Row) :=
  match p.handler.state.tableConsistentViewLsn with
  | none => .ok p
  | some commitLsn =>
    if p.handler.state.shouldForceFlush commitLsn p.handler.table.getLastFlushLsn then do
      let table ← p.handler.table.flush commitLsn
      return { p with
        handler := ⟨table, { p.handler.state with lastUnflushedCommitLsn := none }⟩
        rows := p.rows.drain p.handler.table table }
    else .ok p

def resetIcebergStateAtMooncakeSnapshot : Except Panic (PersistingHandler Row) := do
  assert (!p.persistenceSnapshotOngoing || p.persistenceSnapshotResultConsumed)
    .unexpectedPersistenceState
  return if p.persistenceSnapshotResultConsumed then p
    else { p with persistenceSnapshotResultConsumed := true, persistenceSnapshotOngoing := false }

/-- The payload that a mooncake snapshot offers, unless a persistence is ongoing or a flush at or
below its flush LSN is. The deletions of a commit are in it if the commit is not above the
flush LSN. -/
def offerPayload (hasPayload : Bool) : Option PersistencePayload :=
  let flushLsn := p.handler.table.snapshotFlushLsn.getD 0
  if hasPayload && !p.persistenceSnapshotOngoing &&
      p.handler.table.getMinOngoingFlushLsn.all (flushLsn < ·) then
    some ⟨flushLsn, p.applied.filter fun lsn => lsn ≤ flushLsn && !p.pendingCommits.contains lsn⟩
  else none

/-- Try to create a mooncake snapshot, if none is ongoing. -/
def tryCreateSnapshot (p : PersistingHandler Row) (forceCreate otherWork hasPayload : Bool) :
    PersistingHandler Row :=
  let commitLsnBaseline := p.handler.table.nextSnapshotTask.commitLsnBaseline
  let handler := p.handler.tryCreateSnapshot forceCreate otherWork
  if handler.state.mooncakeSnapshotOngoing then
    let p := { p with
      handler
      snapshotVersion := if commitLsnBaseline = 0 then p.snapshotVersion else commitLsnBaseline }
    { p with created := p.offerPayload hasPayload }
  else p

/-- A pending request is only forced once no flush at or below it is ongoing. -/
def periodicalMooncakeTableSnapshot (otherWork hasPayload : Bool) : Except Panic (PersistingHandler Row) :=
  if p.handler.state.mooncakeSnapshotOngoing then .ok p
  else do
    let requests := p.handler.state.hasPendingForceSnapshotRequest && !p.persistenceSnapshotOngoing
    let p ← if requests then p.forceFlush else .ok p
    let forces := requests && p.handler.state.largestForceSnapshotLsn.any fun lsn =>
      p.handler.table.getMinOngoingFlushLsn.all (lsn < ·)
    let p ← p.resetIcebergStateAtMooncakeSnapshot
    return p.tryCreateSnapshot forces otherWork hasPayload

/-- The snapshot completes, unless it failed an assertion, and its payload is to be persisted. -/
def mooncakeTableSnapshotResult (b : Build) (p : PersistingHandler Row) :
    Except Panic (PersistingHandler Row) :=
  if p.handler.table.snapshotPanicked then .ok p
  else do
    let handler ← p.handler.next b .mooncakeTableSnapshotResult
    let initiates := p.persistenceSnapshotResultConsumed && !p.persistenceSnapshotOngoing &&
      p.handler.table.getMinOngoingFlushLsn.all (p.snapshotVersion < ·)
    return { p with
      handler
      created := none
      queued := if initiates then p.queued ++ p.created.toList else p.queued }

/-! ## Persistence -/

def regularIcebergSnapshot : Except Panic (PersistingHandler Row) :=
  match p.queued with
  | [] => .ok p
  | payload :: rest => do
    assert p.icebergTableManager .icebergTableManagerTaken
    return { p with
      queued := rest
      persistenceSnapshotOngoing := true
      persisting := some payload
      icebergTableManager := false }

/-- A persistence that fails does not return the table manager. -/
def persistenceSnapshotResult (succeeds : Bool) (replicationLsn : Nat) :
    Except Panic (PersistingHandler Row × List ForceSnapshotAnswer) :=
  match p.persisting with
  | none => .ok (p, [])
  | some payload =>
    let p := { p with persistenceSnapshotOngoing := false, persisting := none }
    if succeeds then do
      assert (p.lastPersistenceSnapshotLsn.all (· ≤ payload.flushLsn)) .persistenceLsnRegressed
      let p := { p with
        lastPersistenceSnapshotLsn := some payload.flushLsn
        persisted := payload.commits
        icebergTableManager := true
        persistenceSnapshotResultConsumed := false }
      let persistedTableLsn := p.handler.state.getPersistedTableLsn (some payload.flushLsn)
        replicationLsn
      let largest := p.handler.state.largestForceSnapshotLsn.filter (persistedTableLsn < ·)
      return (p.setLargestForceSnapshotLsn largest).notifyPersistedTableLsn persistedTableLsn
    else
      -- The requests are answered with the error.
      .ok ({ p.setLargestForceSnapshotLsn none with
        waiting := if p.handler.state.hasPendingForceSnapshotRequest then [] else p.waiting }, [])

/-! ## The event loop -/

/-- One round of the event loop, with the requests that it answers. -/
def next (b : Build) (p : PersistingHandler Row) :
    PersistingInput Row → Except Panic (PersistingHandler Row × List ForceSnapshotAnswer)
  | .cdc e => do return (← p.processCdcTableEvent b e, [])
  | .flushResult lsn => do return (← p.flushResult b lsn, [])
  | .streamFlushResult x => do return (← p.streamFlushResult b x, [])
  | .forceSnapshot lsn replicationLsn => .ok (p.forceSnapshot lsn replicationLsn)
  | .periodicalMooncakeTableSnapshot otherWork hasPayload => do
    return (← p.periodicalMooncakeTableSnapshot otherWork hasPayload, [])
  | .mooncakeTableSnapshotResult => do return (← p.mooncakeTableSnapshotResult b, [])
  | .regularIcebergSnapshot => do return (← p.regularIcebergSnapshot, [])
  | .persistenceSnapshotResult succeeds replicationLsn =>
    p.persistenceSnapshotResult succeeds replicationLsn

def run (b : Build) (p : PersistingHandler Row) (inputs : List (PersistingInput Row)) :
    Except Panic (PersistingHandler Row) :=
  inputs.foldlM (fun p i => do return (← p.next b i).1) p

end PersistingHandler
end Moonlink
