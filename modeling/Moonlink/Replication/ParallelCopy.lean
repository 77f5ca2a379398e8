-- SUMMARY: The parallel initial copy: shard readers, a bounded queue, writers that share its receiver, and the task that waits for them.
import Moonlink.Lib.TransitionSystem

/-!
# The parallel initial copy

`copy_table_stream` spawns writers, then readers, and waits for the readers from the
last to the first. Readers cut their rows into batches and send them to a bounded
queue; writers take batches and write them to files. When a reader fails, the others
are aborted. Once all readers have ended, the queue is closed, the writers are awaited,
and the files of all writers are loaded into the table.

The lock of the shared receiver decides which waiting writer gets the next batch, so
any of them may. `copy_table_stream` keeps a handle of the receiver itself: the queue is
not closed for senders while it runs, also when every writer has ended. Writing can fail
at every batch and when a file is finished; which file is rotated at which batch is left
open. A batch always has rows and columns, since its builder rejects others.
-/

namespace Moonlink.Replication

open Lib

/-! ## Batches -/

/-- `ArrowBatchBuilder`: the rows of the current batch. -/
structure BatchBuilder (Row : Type) where
  maxRows : Nat
  current : List Row

namespace BatchBuilder

variable {Row : Type}

def new (maxRows : Nat) : BatchBuilder Row := ⟨maxRows, []⟩

def finalizeCurrentBatch (b : BatchBuilder Row) : Option (List Row) × BatchBuilder Row :=
  if b.current.isEmpty then (none, b) else (some b.current, { b with current := [] })

/-- A full batch is finished when the next row arrives. -/
def appendTableRow (b : BatchBuilder Row) (row : Row) : Option (List Row) × BatchBuilder Row :=
  let (batch, b) := if b.maxRows ≤ b.current.length then b.finalizeCurrentBatch else (none, b)
  (batch, { b with current := b.current ++ [row] })

end BatchBuilder

/-! ## Tasks -/

inductive CopyReader (Row : Type) where
  /-- About to poll the copy stream, whose remaining rows are `rest`. -/
  | reading (rest : List Row) (builder : BatchBuilder Row) (rows : Nat)
  /-- In `send` for a batch that the next row finished. -/
  | sending (batch rest : List Row) (builder : BatchBuilder Row) (rows : Nat)
  /-- In `send` for the last batch. -/
  | sendingLast (batch : List Row) (rows : Nat)
  | committing (rows : Nat)
  | finished (rows : Nat)
  | failed
  | aborted

inductive CopyWriter (Row : Type) where
  /-- Waiting for a batch; `current` are the rows of the open file. -/
  | receiving (files : List (List Row)) (current : Option (List Row))
  | writing (batch : List Row) (files : List (List Row)) (current : Option (List Row))
  /-- The queue is closed and the open file is finished. -/
  | finishing (files : List (List Row)) (current : Option (List Row))
  | done (files : List (List Row))
  | failed
  deriving DecidableEq, Repr

/-- Where `copy_table_stream` is. -/
inductive CopyMain (Row : Type) where
  /-- Connecting, exporting the snapshot and planning the shards. -/
  | setup
  /-- Waiting for the reader before the last `left` that were not awaited. -/
  | awaitingReaders (left rowsCopied : Nat)
  /-- A reader failed; the others are aborted and awaited. -/
  | drainingReaders (rowsCopied : Nat)
  | finalizingSnapshot (success : Bool) (rowsCopied : Nat)
  /-- The sender is dropped; `next` is the writer to wait for. -/
  | awaitingWriters (success : Bool) (rowsCopied next : Nat) (files : List (List Row))
  | sendingLoadFiles (rowsCopied : Nat) (files : List (List Row))
  | returnedOk (rowsCopied : Nat)
  | returnedErr

structure CopyState (Row : Type) where
  main : CopyMain Row
  readers : List (CopyReader Row)
  writers : List (CopyWriter Row)
  queue : List (List Row)
  /-- The files of the `LoadFiles` event, once it is sent. -/
  loadFiles : Option (List (List Row))

/-- The rows of each shard, and the configuration of readers and writers. -/
structure CopyConfig (Row : Type) where
  shards : List (List Row)
  maxRowsPerBatch : Nat
  numWriterTasks : Nat
  batchChannelCapacity : Nat

variable {Row : Type}

def CopyReader.hasEnded : CopyReader Row → Bool
  | finished _ | failed | aborted => true
  | _ => false

def CopyMain.hasReturned : CopyMain Row → Bool
  | returnedOk _ | returnedErr => true
  | _ => false

/-- The sender of `copy_table_stream` is dropped. -/
def CopyMain.hasDroppedSender : CopyMain Row → Bool
  | awaitingWriters .. | sendingLoadFiles .. | returnedOk _ | returnedErr => true
  | _ => false

/-- A channel of capacity zero panics at its creation. -/
def CopyConfig.start (cfg : CopyConfig Row) : Option (CopyState Row) :=
  if cfg.batchChannelCapacity = 0 then none
  else some {
    main := .setup
    readers := []
    writers := List.replicate (max cfg.numWriterTasks 1) (.receiving [] none)
    queue := []
    loadFiles := none }

/-- One reader for each shard. -/
def CopyConfig.spawnShardedCopyReaders (cfg : CopyConfig Row) : List (CopyReader Row) :=
  cfg.shards.map fun rows => .reading rows (.new cfg.maxRowsPerBatch) 0

/-- How a task goes on. -/
inductive CopyOutcome where
  | ok
  /-- For a writer: the open file is rotated after this batch. -/
  | rotate
  | fail
  deriving DecidableEq, Repr

inductive CopyStep where
  | reader (i : Nat) (outcome : CopyOutcome)
  /-- An aborted reader stops. -/
  | cancelReader (i : Nat)
  | writer (j : Nat) (outcome : CopyOutcome)
  | main (outcome : CopyOutcome)

def CopyStep.fails : CopyStep → Bool
  | reader _ .fail | writer _ .fail | main .fail => true
  | _ => false

/-- Also gives the batch that is sent, for which the queue must have room. -/
def CopyReader.step (outcome : CopyOutcome) : CopyReader Row → Option (CopyReader Row × Option (List Row))
  | reading rest builder rows =>
    if outcome = .fail then some (failed, none)
    else match rest with
      | [] =>
        match builder.finalizeCurrentBatch with
        | (some batch, _) => some (sendingLast batch rows, none)
        | (none, _) => some (committing rows, none)
      | row :: rest =>
        match builder.appendTableRow row with
        | (some batch, builder) => some (sending batch rest builder rows, none)
        | (none, builder) => some (reading rest builder (rows + 1), none)
  -- `send` only fails once the receiver is gone.
  | sending batch rest builder rows =>
    if outcome = .fail then none else some (reading rest builder (rows + 1), some batch)
  | sendingLast batch rows => if outcome = .fail then none else some (committing rows, some batch)
  | committing rows => if outcome = .fail then some (failed, none) else some (finished rows, none)
  | finished _ | failed | aborted => none

/-- `closed` says that all senders of the queue are gone. -/
def CopyWriter.step (outcome : CopyOutcome) (closed : Bool) (queue : List (List Row)) :
    CopyWriter Row → Option (CopyWriter Row × List (List Row))
  | receiving files current =>
    if outcome = .fail then none
    else match queue with
      | batch :: queue => some (writing batch files current, queue)
      | [] => if closed then some (finishing files current, []) else none
  | writing batch files current =>
    if batch.isEmpty then some (receiving files current, queue)
    else
      let rows := current.getD [] ++ batch
      match outcome with
      | .fail => some (failed, queue)
      | .rotate => some (receiving (files ++ [rows]) none, queue)
      | .ok => some (receiving files (some rows), queue)
  | finishing files current =>
    match current with
    | none => some (done files, queue)
    | some rows => if outcome = .fail then some (failed, queue) else some (done (files ++ [rows]), queue)
  | done _ | failed => none

namespace CopyState

/-- All senders of the queue are gone. -/
def closed (s : CopyState Row) : Bool := s.main.hasDroppedSender && s.readers.all (·.hasEnded)

def mainStep (cfg : CopyConfig Row) (s : CopyState Row) (fails : Bool) : Option (CopyState Row) :=
  match s.main with
  | .setup =>
    if fails then some { s with main := .returnedErr }
    else some { s with
      main := .awaitingReaders cfg.shards.length 0
      readers := cfg.spawnShardedCopyReaders }
  | .awaitingReaders 0 rowsCopied => some { s with main := .finalizingSnapshot true rowsCopied }
  | .awaitingReaders (left + 1) rowsCopied =>
    match s.readers[left]? with
    | some (.finished rows) => some { s with main := .awaitingReaders left (rowsCopied + rows) }
    | some .failed => some { s with main := .drainingReaders rowsCopied }
    | _ => none
  | .drainingReaders rowsCopied =>
    if s.readers.all (·.hasEnded) then some { s with main := .finalizingSnapshot false rowsCopied }
    else none
  | .finalizingSnapshot success rowsCopied =>
    some { s with main := if fails then .returnedErr else .awaitingWriters success rowsCopied 0 [] }
  | .awaitingWriters success rowsCopied next files =>
    match s.writers[next]? with
    | none =>
      some { s with
        main := if success then .sendingLoadFiles rowsCopied files else .returnedErr }
    | some (.done written) =>
      some { s with main := .awaitingWriters success rowsCopied (next + 1) (files ++ written) }
    | some .failed =>
      some { s with
        main := if success then .returnedErr else .awaitingWriters success rowsCopied (next + 1) files }
    | some _ => none
  | .sendingLoadFiles rowsCopied files =>
    some { s with main := .returnedOk rowsCopied, loadFiles := some files }
  | .returnedOk _ | .returnedErr => none

def isDraining (s : CopyState Row) : Bool :=
  match s.main with
  | .drainingReaders _ => true
  | _ => false

/-- A batch is sent only if the queue has room. -/
def send (s : CopyState Row) (capacity : Nat) : Option (List Row) → Option (List (List Row))
  | none => some s.queue
  | some batch => if s.queue.length < capacity then some (s.queue ++ [batch]) else none

/-- Returns nothing if the task cannot go on in this way. -/
def step (cfg : CopyConfig Row) (s : CopyState Row) : CopyStep → Option (CopyState Row)
  | .reader i outcome => do
    let reader ← s.readers[i]?
    let (reader, sent) ← reader.step outcome
    let queue ← s.send cfg.batchChannelCapacity sent
    return { s with readers := s.readers.set i reader, queue }
  | .cancelReader i => do
    let reader ← s.readers[i]?
    if s.isDraining && !reader.hasEnded then return { s with readers := s.readers.set i .aborted }
    else none
  | .writer j outcome => do
    let writer ← s.writers[j]?
    let (writer, queue) ← writer.step outcome s.closed s.queue
    return { s with writers := s.writers.set j writer, queue }
  | .main outcome => s.mainStep cfg (outcome = .fail)

end CopyState
end Moonlink.Replication
