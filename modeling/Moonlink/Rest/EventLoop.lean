-- SUMMARY: The REST event loop in small steps: commands, the stream of request results, background file inserts, delivery.
import Moonlink.Lib.TransitionSystem
import Moonlink.Rest.Sink

/-!
# The REST event loop

The loop takes a command or the next item of the stream of results, whichever branch of
its `select` is ready first. The stream runs only while the loop polls it; in between it is
suspended, with its local variables alive. Inserts of files run in tasks of their own
and draw their LSNs whenever they read a row.

The source is behind a lock. The stream reads it, and commands write it. `readers` counts
the read guards that are alive; a command waits until there is none.

What is ready comes as an input: the requests that arrive, the rows that a task reads
and where it fails. A step that is not possible has no result.
-/

namespace Moonlink.Rest

open Lib

inductive RestCommand (Schema AvroSchema : Type) where
  /-- The LSN is that of a recovered table. -/
  | addTable (srcTableName : String) (srcTableId : SrcTableId) (schema : Schema) (persistLsn : Option Nat)
  | setAvroSchema (srcTableName : String) (avroSchema : AvroSchema)
  | dropTable (srcTableName : String) (srcTableId : SrcTableId)
  | shutdown
  deriving DecidableEq, Repr

inductive TaskStatus where
  | running
  /-- A file could not be read. -/
  | failed
  | panicked
  deriving DecidableEq, Repr

/-- `generate_table_events_for_file_upload` in a background task. -/
structure FileInsertTask (Row : Type) where
  tx : Option Client
  srcTableId : SrcTableId
  /-- The files that are not read to their end. -/
  files : List String
  /-- The first of them is open. -/
  isOpen : Bool
  events : List (RestEvent Row)
  status : TaskStatus

namespace FileInsertTask

variable {Row : Type}

/-- The task has returned, or is over with an error. -/
def isFinished (t : FileInsertTask Row) : Bool := t.status != .running || (t.files.isEmpty && !t.isOpen)

/-- The task is about to open its next file. -/
def isBetweenFiles (t : FileInsertTask Row) : Bool := t.status = .running && !t.isOpen && !t.files.isEmpty

def isReading (t : FileInsertTask Row) : Bool := t.status = .running && t.isOpen

def pushEvent (t : FileInsertTask Row) (e : RestEvent Row) : FileInsertTask Row :=
  { t with events := t.events ++ [e] }

end FileInsertTask

/-- Where the stream is suspended, or where another task may come between its steps. -/
inductive StreamPoint (Row : Type) where
  /-- At its `select`, or at the `yield` of a finished task. -/
  | receiving
  /-- A row request has drawn its first LSN. The read guard is alive. -/
  | rowDrawn (tx : Option Client) (srcTableId : SrcTableId) (operation : RowEventOperation) (row : Row)
    (rowLsn : Nat)
  /-- At the `yield` of a request that was answered in place. The read guard is alive, and
  maybe the request with its response channel. -/
  | answered (keeps : Option Client)
  /-- A file insert waits for a permit. -/
  | acquiring (r : FileEventRequest) (srcTableId : SrcTableId)
  | ended

inductive LoopPoint (Schema AvroSchema Row : Type) where
  | selecting
  /-- A command waits for the write lock. -/
  | writing (cmd : RestCommand Schema AvroSchema)
  /-- `add_table` has the lock and has loaded the generator. -/
  | seeding (srcTableName : String) (srcTableId : SrcTableId) (schema : Schema) (persistLsn : Option Nat)
    (oldLsn : Nat)
  /-- The events of a request are delivered; `lsn` is the last LSN so far. -/
  | processing (tx : Option Client) (events : List (RestEvent Row)) (lsn : Nat)
  | stopped
  | panicked (p : RestPanic)

structure RestLoop (Schema AvroSchema Row : Type) where
  source : RestSource Schema AvroSchema
  readers : Nat
  stream : StreamPoint Row
  /-- The senders of the request channel are gone. -/
  requestsClosed : Bool
  pending : AssocMap Nat (FileInsertTask Row)
  nextTask : Nat
  sink : RestSink Row
  loop : LoopPoint Schema AvroSchema Row
  /-- The LSNs that were sent back. -/
  responses : List (Client × Nat)

inductive RestAction (Schema AvroSchema Json Row : Type) where
  /-- The command branch is taken, without a poll of the stream before it. -/
  | command (cmd : RestCommand Schema AvroSchema)
  /-- The stream is polled and has nothing. -/
  | poll
  | pollFinished (task : Nat)
  | pollRequest (r : EventRequest Json)
  | pollClosed
  /-- The rest of a row request. -/
  | finishRow
  | grantPermit
  | acquireWrite
  | finishAddTable
  | processEvent (closes : Bool)
  | taskOpen (task : Nat)
  | taskRow (task : Nat) (row : Row)
  | taskCommit (task : Nat)
  | taskFail (task : Nat)
  | taskPanic (task : Nat)
  | closeReceiver (srcTableId : SrcTableId)
  deriving DecidableEq, Repr

/-- The limit that the loop gives to its stream. -/
def maxConcurrentHeavyOps : Nat := 4

namespace RestLoop

variable {Schema AvroSchema Json Row : Type}

def init : RestLoop Schema AvroSchema Row where
  source := .new
  readers := 0
  stream := .receiving
  requestsClosed := false
  pending := ∅
  nextTask := 0
  sink := .new
  loop := .selecting
  responses := []

def drawLsn (s : RestLoop Schema AvroSchema Row) : RestLoop Schema AvroSchema Row :=
  { s with source := s.source.drawLsn.2 }

/-! ## The stream -/

variable (s : RestLoop Schema AvroSchema Row)

def lockRead : RestLoop Schema AvroSchema Row :=
  { s with readers := s.readers + 1 }

/-- What happens first when the stream is polled: the guard of the last answer is dropped. -/
def resume : Option (RestLoop Schema AvroSchema Row) :=
  match s.stream with
  | .receiving => some s
  | .answered _ => some { s with readers := s.readers - 1, stream := .receiving }
  | _ => none

/-- The loop gets an item. Errors are only logged. -/
def receive (tx : Option Client)
    (result : Except RestSourceError (List (RestEvent Row))) : RestLoop Schema AvroSchema Row :=
  match result with
  | .ok events => { s with loop := .processing tx events 0 }
  | .error _ => s

/-- The stream yields the result of a request that it has handled in place. -/
def yieldAnswer (keeps tx : Option Client)
    (result : Except RestSourceError (List (RestEvent Row))) : RestLoop Schema AvroSchema Row :=
  { s with stream := .answered keeps }.receive tx result

def handleRequest (c : Converters Schema AvroSchema Json Row) (s : RestLoop Schema AvroSchema Row)
    (r : EventRequest Json) : RestLoop Schema AvroSchema Row :=
  match r with
  | .row r =>
    let s := s.lockRead
    match s.source.decodeRowRequest c r with
    | .error e => s.yieldAnswer none r.tx (.error e)
    | .ok (id, row) =>
      let (rowLsn, source) := s.source.drawLsn
      { s with source, stream := .rowDrawn r.tx id r.operation row rowLsn }
  | .file r =>
    if r.operation = .insert then
      match s.source.getSrcTableId r.srcTableName with
      | .error e => s.lockRead.yieldAnswer r.tx r.tx (.error e)
      -- The guard is dropped before the permit is acquired.
      | .ok id => { s with stream := .acquiring r id }
    else
      let s := s.lockRead
      let (source, result) := s.source.processFileUploadSync r
      { s with source }.yieldAnswer none r.tx result
  | .snapshot r => s.lockRead.yieldAnswer (some r.tx) (some r.tx) (s.source.processSnapshotRequest r)
  | .flush r => s.lockRead.yieldAnswer (some r.tx) (some r.tx) (s.source.processFlushRequest r)

/-- A finished task comes out of the stream. The join error of a panic comes without the
response channel. -/
def joinTask (k : Nat) : Option (RestLoop Schema AvroSchema Row) :=
  match s.pending.lookup k with
  | none => none
  | some t =>
    if t.isFinished then
      let s := { s with pending := s.pending.erase k }
      match t.status with
      | .running => some (s.receive t.tx (.ok t.events))
      | .failed => some (s.receive t.tx (.error .fileRead))
      | .panicked => some (s.receive none (.error .taskJoin))
    else none

/-- The row request draws its second LSN and is answered. -/
def finishRow : Option (RestLoop Schema AvroSchema Row) :=
  match s.stream with
  | .rowDrawn tx id operation row rowLsn =>
    let (commitLsn, source) := s.source.drawLsn
    some ({ s with source }.yieldAnswer none tx
      (.ok (RestSource.rowRequestEvents id operation row rowLsn commitLsn)))
  | _ => none

def runningTasks : Nat :=
  (s.pending.entries.filter fun e => !e.2.isFinished).length

/-- A task holds its permit until it is over. -/
def grantPermit : Option (RestLoop Schema AvroSchema Row) :=
  match s.stream with
  | .acquiring r id =>
    if s.runningTasks < maxConcurrentHeavyOps then
      some { s with
        stream := .receiving
        pending := s.pending.insert s.nextTask ⟨r.tx, id, r.files, false, [], .running⟩
        nextTask := s.nextTask + 1 }
    else none
  | _ => none

/-! ## Commands -/

/-- The sink comes first, and an error there leaves the source alone. -/
def handleCommand (cmd : RestCommand Schema AvroSchema) : RestLoop Schema AvroSchema Row :=
  match cmd with
  | .addTable _ id _ persistLsn =>
    match s.sink.addTable id persistLsn with
    | (sink, .error _) => { s with sink }
    | (sink, .ok ()) => { s with sink, loop := .writing cmd }
  | .setAvroSchema _ _ => { s with loop := .writing cmd }
  | .dropTable _ id =>
    match s.sink.dropTable id with
    | (sink, .error _) => { s with sink }
    | (sink, .ok ()) => { s with sink, loop := .writing cmd }
  | .shutdown => { s with loop := .stopped }

/-- The source after a command, whose errors are only logged. -/
def finishCommand (outcome : RestSource Schema AvroSchema × Except RestPanic (Except RestSourceError Unit)) :
    RestLoop Schema AvroSchema Row :=
  { s with
    source := outcome.1
    loop := match outcome.2 with
      | .error p => .panicked p
      | .ok _ => .selecting }

/-- The write lock is granted when no read guard is alive. -/
def acquireWrite [DecidableEq Schema] (c : Converters Schema AvroSchema Json Row)
    (s : RestLoop Schema AvroSchema Row) : Option (RestLoop Schema AvroSchema Row) :=
  if s.readers ≠ 0 then none
  else match s.loop with
    | .writing (.addTable name id schema persistLsn) =>
      some { s with loop := .seeding name id schema persistLsn s.source.lsnGenerator }
    | .writing (.setAvroSchema name avroSchema) => some (s.finishCommand (s.source.setAvroSchema c name avroSchema))
    | .writing (.dropTable name _) => some (s.finishCommand (s.source.removeTable name))
    | _ => none

def finishAddTable : Option (RestLoop Schema AvroSchema Row) :=
  match s.loop with
  | .seeding name id schema persistLsn oldLsn =>
    some (s.finishCommand ((s.source.storePersistLsn oldLsn persistLsn).insertTable name id schema))
  | _ => none

/-! ## Delivery -/

/-- Deliver the next event, or send the last LSN back when there is none left. An event
that fails is skipped. -/
def processEvent (closes : Bool) : Option (RestLoop Schema AvroSchema Row) :=
  match s.loop with
  | .processing tx [] lsn =>
    some { s with loop := .selecting, responses := s.responses ++ tx.toList.map fun client => (client, lsn) }
  | .processing tx (e :: rest) lsn =>
    if e.lsn.all (lsn < ·) then
      match s.sink.processRestEvent e closes with
      | (sink, .error p) => some { s with sink, loop := .panicked p }
      | (sink, .ok _) => some { s with sink, loop := .processing tx rest (e.lsn.getD lsn) }
    else some { s with loop := .panicked .lsnNotIncreasing }
  | _ => none

/-! ## Background tasks -/

def setTask (k : Nat) (t : FileInsertTask Row) :
    RestLoop Schema AvroSchema Row := { s with pending := s.pending.insert k t }

/-- A step of a task that is in a state `p`. -/
def stepTask (k : Nat) (p : FileInsertTask Row → Bool)
    (step : FileInsertTask Row → RestLoop Schema AvroSchema Row) : Option (RestLoop Schema AvroSchema Row) :=
  (s.pending.lookup k).bind fun t => if p t then some (step t) else none

/-- The task opens its next file. -/
def taskOpen (k : Nat) : Option (RestLoop Schema AvroSchema Row) :=
  s.stepTask k (·.isBetweenFiles) fun t => s.setTask k { t with isOpen := true }

/-- The next file cannot be read. -/
def taskFail (k : Nat) : Option (RestLoop Schema AvroSchema Row) :=
  s.stepTask k (·.isBetweenFiles) fun t => s.setTask k { t with status := .failed }

/-- A batch of the open file cannot be read. -/
def taskPanic (k : Nat) : Option (RestLoop Schema AvroSchema Row) :=
  s.stepTask k (·.isReading) fun t => s.setTask k { t with status := .panicked }

/-- The task reads a row of the open file. -/
def taskRow (k : Nat) (row : Row) : Option (RestLoop Schema AvroSchema Row) :=
  s.stepTask k (·.isReading) fun t =>
    s.drawLsn.setTask k (t.pushEvent (.row t.srcTableId .insert row s.source.lsnGenerator))

/-- The open file is at its end, which is committed also without rows. -/
def taskCommit (k : Nat) : Option (RestLoop Schema AvroSchema Row) :=
  s.stepTask k (·.isReading) fun t =>
    s.drawLsn.setTask k { t.pushEvent (.commit s.source.lsnGenerator) with files := t.files.tail, isOpen := false }

/-! ## Steps -/

/-- The loop is at its `select`, and the stream is not in the middle of a row request. -/
def isSelecting : Bool :=
  match s.loop, s.stream with
  | .selecting, .rowDrawn .. => false
  | .selecting, _ => true
  | _, _ => false

def next [DecidableEq Schema] (c : Converters Schema AvroSchema Json Row) (s : RestLoop Schema AvroSchema Row)
    (a : RestAction Schema AvroSchema Json Row) : Option (RestLoop Schema AvroSchema Row) :=
  match a with
  | .command cmd => if s.isSelecting then some (s.handleCommand cmd) else none
  | .poll => if s.isSelecting then s.resume else none
  | .pollFinished k => if s.isSelecting then s.resume.bind (·.joinTask k) else none
  | .pollRequest r =>
    if s.isSelecting ∧ s.requestsClosed = false then s.resume.map (·.handleRequest c r) else none
  | .pollClosed =>
    if s.isSelecting then
      s.resume.map fun s => { s with
        requestsClosed := true
        stream := if s.pending.entries.isEmpty then .ended else s.stream }
    else none
  | .finishRow => s.finishRow
  | .grantPermit => if s.isSelecting then s.grantPermit else none
  | .acquireWrite => s.acquireWrite c
  | .finishAddTable => s.finishAddTable
  | .processEvent closes => s.processEvent closes
  | .taskOpen k => s.taskOpen k
  | .taskRow k row => s.taskRow k row
  | .taskCommit k => s.taskCommit k
  | .taskFail k => s.taskFail k
  | .taskPanic k => s.taskPanic k
  | .closeReceiver id => some { s with sink := s.sink.closeReceiver id }

def run [DecidableEq Schema] (c : Converters Schema AvroSchema Json Row) (s : RestLoop Schema AvroSchema Row)
    (actions : List (RestAction Schema AvroSchema Json Row)) : Option (RestLoop Schema AvroSchema Row) :=
  actions.foldlM (next c) s

end RestLoop
end Moonlink.Rest
