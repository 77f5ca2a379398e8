-- SUMMARY: The replication event loop: conversion of frames, batches, commands and reconnects; what an error leaves out.
import Moonlink.Lib.FirstFailure
import Moonlink.Replication.FanOut

/-!
# The replication event loop

`nextBatchMsgs` converts the frames of a connection with the schemas that the stream knows,
and the loop hands the resulting events to the sink. Some errors are skipped, others are
meant to lead to a new connection.

Status updates and the backoff are left out. Parsing the text of a column is a parameter.
-/

namespace Moonlink.EventLoop

open Lib FanOut

/-- Parsing of column texts, by the type of the column. -/
structure TextFormatConverter (Cell : Type) where
  null : Cell
  defaultValue : Nat → Cell
  tryFromStr : Nat → String → Option Cell

inductive TupleData where
  | null
  | unchangedToast
  /-- No string if the bytes are not UTF-8. -/
  | text (str : Option String)
  deriving DecidableEq, Repr

inductive LogicalReplicationMessage where
  | begin (finalLsn : Nat)
  | commit (endLsn : Nat)
  | origin
  | relation (relId : TableId) (columns : List ColumnInfo)
  | type
  | insert (relId : TableId) (tuple : List TupleData) (xid : Option XactId)
  | update (relId : TableId) (oldTuple : Option (List TupleData)) (newTuple : List TupleData)
      (xid : Option XactId)
  | delete (relId : TableId) (keyTuple oldTuple : Option (List TupleData)) (xid : Option XactId)
  | truncate
  | streamStart (xid : XactId)
  | streamStop
  | streamCommit (xid : XactId) (endLsn : Nat)
  | streamAbort (xid subXid : XactId)
  | other
  deriving DecidableEq, Repr

inductive ReplicationMessage where
  | xLogData (walStart dataLen : Nat) (data : LogicalReplicationMessage)
  | primaryKeepAlive (walEnd : Nat)
  | other
  deriving DecidableEq, Repr

inductive CdcEventConversionError where
  | messageNotSupported
  | unknownReplicationMessage
  | missingTupleInDeleteBody
  | missingSchema (tableId : TableId)
  | fromBytes
  | invalidStr
  deriving DecidableEq, Repr

inductive CdcStreamError where
  | tokioPostgresError
  | cdcEventConversion (e : CdcEventConversionError)
  deriving DecidableEq, Repr

inductive LoopPanic where
  | sink (p : SinkPanic)
  /-- A tuple has fewer values than the table has columns. -/
  | tupleTooShort
  /-- `add_table_schema`: there is a schema already. -/
  | schemaExists
  /-- `update_table_schema` and `remove_table_schema`: there is no schema. -/
  | schemaMissing
  deriving DecidableEq, Repr

def assert (c : Bool) (p : LoopPanic) : Except LoopPanic Unit := if c then .ok () else .error p

/-- The result of a conversion that does not panic. -/
abbrev Converted (α : Type) : Type := Except CdcEventConversionError α

variable {Cell : Type}

/-- `TableRow`. -/
abbrev TableRow (Cell : Type) : Type := List Cell

variable (text : TextFormatConverter Cell)

def convertCell (column : ColumnInfo) : TupleData → Except CdcEventConversionError Cell
  | .null => .ok text.null
  | .unchangedToast => .ok (text.defaultValue column.typ)
  | .text none => .error .invalidStr
  | .text (some str) =>
    match text.tryFromStr column.typ str with
    | some cell => .ok cell
    | none => .error .fromBytes

/-- Values beyond the columns are ignored. -/
def tryFromTupleDataSlice (text : TextFormatConverter Cell) :
    List ColumnInfo → List TupleData → Except LoopPanic (Converted (TableRow Cell))
  | [], _ => .ok (.ok [])
  | _ :: _, [] => .error .tupleTooShort
  | column :: columns, d :: rest =>
    match convertCell text column d with
    | .error e => .ok (.error e)
    | .ok cell => do
      let values ← tryFromTupleDataSlice text columns rest
      return values.map (cell :: ·)

/-- The columns of the table of a row message. -/
def columnsOf (tableSchemas : AssocMap TableId (List ColumnInfo)) (t : TableId) :
    Except CdcEventConversionError (List ColumnInfo) :=
  match tableSchemas.lookup t with
  | some columns => .ok columns
  | none => .error (.missingSchema t)

/-- Continue after a conversion that did not fail. -/
def andThen {α β : Type} (x : Except LoopPanic (Converted α))
    (f : α → Except LoopPanic (Converted β)) : Except LoopPanic (Converted β) := do
  match ← x with
  | .error e => return .error e
  | .ok a => f a

def tryFromInsertBody (t : TableId) (columns : List ColumnInfo)
    (tuple : List TupleData) (xid : Option XactId) : Except LoopPanic (Converted (FanOut.CdcEvent (TableRow Cell))) :=
  andThen (tryFromTupleDataSlice text columns tuple) fun row => .ok (.ok (.insert t row xid))

def tryFromUpdateBody (t : TableId) (columns : List ColumnInfo)
    (oldTuple : Option (List TupleData)) (newTuple : List TupleData) (xid : Option XactId) :
    Except LoopPanic (Converted (FanOut.CdcEvent (TableRow Cell))) :=
  let oldRow : Except LoopPanic (Converted (Option (TableRow Cell))) :=
    match oldTuple with
    | some tuple => andThen (tryFromTupleDataSlice text columns tuple) fun row => .ok (.ok (some row))
    | none => .ok (.ok none)
  andThen oldRow fun oldRow =>
    andThen (tryFromTupleDataSlice text columns newTuple) fun newRow =>
      .ok (.ok (.update t oldRow newRow xid))

def tryFromDeleteBody (t : TableId) (columns : List ColumnInfo)
    (keyTuple oldTuple : Option (List TupleData)) (xid : Option XactId) :
    Except LoopPanic (Converted (FanOut.CdcEvent (TableRow Cell))) :=
  match keyTuple.or oldTuple with
  | none => .ok (.error .missingTupleInDeleteBody)
  | some tuple => andThen (tryFromTupleDataSlice text columns tuple) fun row => .ok (.ok (.delete t row xid))

/-- `CdcEventConverter::try_from`. -/
def tryFrom (tableSchemas : AssocMap TableId (List ColumnInfo)) :
    ReplicationMessage → Except LoopPanic (Converted (FanOut.CdcEvent (TableRow Cell)))
  | .xLogData _ _ (.begin finalLsn) => .ok (.ok (.begin finalLsn))
  | .xLogData _ _ (.commit endLsn) => .ok (.ok (.commit endLsn))
  | .xLogData _ _ .origin => .ok (.error .messageNotSupported)
  | .xLogData _ _ (.relation relId columns) => .ok (.ok (.relation relId columns))
  | .xLogData _ _ .type => .ok (.ok .type)
  | .xLogData _ _ (.insert relId tuple xid) =>
    andThen (.ok (columnsOf tableSchemas relId)) fun columns =>
      tryFromInsertBody text relId columns tuple xid
  | .xLogData _ _ (.update relId oldTuple newTuple xid) =>
    andThen (.ok (columnsOf tableSchemas relId)) fun columns =>
      tryFromUpdateBody text relId columns oldTuple newTuple xid
  | .xLogData _ _ (.delete relId keyTuple oldTuple xid) =>
    andThen (.ok (columnsOf tableSchemas relId)) fun columns =>
      tryFromDeleteBody text relId columns keyTuple oldTuple xid
  | .xLogData _ _ .truncate => .ok (.error .messageNotSupported)
  | .xLogData _ _ (.streamStart xid) => .ok (.ok (.streamStart xid))
  | .xLogData _ _ .streamStop => .ok (.ok .streamStop)
  | .xLogData _ _ (.streamCommit xid endLsn) => .ok (.ok (.streamCommit xid endLsn))
  | .xLogData _ _ (.streamAbort xid subXid) => .ok (.ok (.streamAbort xid subXid))
  | .xLogData _ _ .other => .ok (.error .unknownReplicationMessage)
  | .primaryKeepAlive walEnd => .ok (.ok (.primaryKeepAlive walEnd))
  | .other => .ok (.error .unknownReplicationMessage)

/-- A frame of the connection, or its error. -/
abbrev Frame : Type := Option ReplicationMessage

/-- What the loop gets for a frame. -/
abbrev BatchItem (Cell : Type) : Type := Except CdcStreamError (FanOut.CdcEvent (TableRow Cell))

structure CdcStream where
  tableSchemas : AssocMap TableId (List ColumnInfo)
  skipBeforeEndLsn : Option Nat

namespace CdcStream

def shouldProcessXlogdata (skipBeforeEndLsn : Option Nat) (walStart payloadLen : Nat) : Bool × Nat :=
  let last := walStart + payloadLen
  (match skipBeforeEndLsn with
    | some lsn => lsn < last
    | none => true, last)

def addTableSchema (s : CdcStream) (t : TableId) (columns : List ColumnInfo) : Except LoopPanic CdcStream := do
  assert (s.tableSchemas.lookup t).isNone .schemaExists
  return { s with tableSchemas := s.tableSchemas.insert t columns }

def updateTableSchema (s : CdcStream) (t : TableId) (columns : List ColumnInfo) :
    Except LoopPanic CdcStream := do
  assert (s.tableSchemas.lookup t).isSome .schemaMissing
  return { s with tableSchemas := s.tableSchemas.insert t columns }

def removeTableSchema (s : CdcStream) (t : TableId) : Except LoopPanic CdcStream := do
  assert (s.tableSchemas.lookup t).isSome .schemaMissing
  return { s with tableSchemas := s.tableSchemas.erase t }

/-- Whether a frame is skipped, and the end LSN of one that is not. -/
def inspect (s : CdcStream) : Frame → Bool × Option Nat
  | some (.xLogData walStart dataLen _) =>
    let (should, last) := shouldProcessXlogdata s.skipBeforeEndLsn walStart dataLen
    if should then (false, some last) else (true, none)
  | _ => (false, none)

def convert (text : TextFormatConverter Cell) (s : CdcStream) : Frame → Except LoopPanic (BatchItem Cell)
  | some msg => do
    match ← tryFrom text s.tableSchemas msg with
    | .ok event => return .ok event
    | .error e => return .error (.cdcEventConversion e)
  | none => .ok (.error .tokioPostgresError)

def nextBatchMsgs (text : TextFormatConverter Cell) (s : CdcStream) :
    List Frame → Except LoopPanic (List (BatchItem Cell) × Option Nat)
  | [] => .ok ([], none)
  | f :: rest => do
    let (skipped, endLsn) := s.inspect f
    if skipped then nextBatchMsgs text s rest
    else
      let item ← s.convert text f
      let (items, lastEndLsn) ← nextBatchMsgs text s rest
      return (item :: items, lastEndLsn.or endLsn)

end CdcStream

/-- Errors that the loop steps over. -/
def isSkipped : BatchItem Cell → Bool
  | .error (.cdcEventConversion (.missingSchema _)) | .error (.cdcEventConversion .messageNotSupported) => true
  | _ => false

inductive LoopStatus where
  | connected
  /-- The inner loop was left. -/
  | reconnecting
  | stopped
  /-- The event loop returned an error. -/
  | failed
  deriving DecidableEq, Repr

structure ReplicationLoop (Cell : Type) where
  stream : CdcStream
  sink : FanOut.Sink
  /-- Persists across reconnects. -/
  savedSchemas : AssocMap TableId (List ColumnInfo)
  lastSeenEndLsn : Option Nat
  status : LoopStatus
  sent : FanOut.Sent (TableRow Cell)
  /-- The results of `next_batch_msgs` on this connection, and the events handed to the sink. -/
  batches : List (List (BatchItem Cell))
  delivered : List (FanOut.CdcEvent (TableRow Cell))

inductive LoopInput where
  | connect
  | connectFails
  | addTable (tableId : TableId) (eventSender : Sender) (columns : List ColumnInfo)
  | dropTable (tableId : TableId)
  | shutdown
  /-- Frames, with the schemas that are fetched while they are processed. -/
  | batch (frames : List Frame) (fetched : List (Option (List ColumnInfo)))
  | connectionClosed
  deriving DecidableEq

namespace ReplicationLoop

def new : ReplicationLoop Cell where
  stream := ⟨∅, none⟩
  sink := .new
  savedSchemas := ∅
  lastSeenEndLsn := none
  status := .reconnecting
  sent := []
  batches := []
  delivered := []

/-- Leave the inner loop. -/
def reconnect (s : ReplicationLoop Cell) : ReplicationLoop Cell :=
  { s with savedSchemas := s.stream.tableSchemas, status := .reconnecting }

def connect (s : ReplicationLoop Cell) : ReplicationLoop Cell :=
  { s with
    stream := ⟨s.savedSchemas, none⟩
    sink := s.sink.resetKeepaliveFloor
    status := .connected
    batches := []
    delivered := [] }

def liftSink {α : Type} (x : Except SinkPanic α) : Except LoopPanic α := x.mapError .sink

def processCdcEvent (s : ReplicationLoop Cell) (e : FanOut.CdcEvent (TableRow Cell)) :
    Except LoopPanic (ReplicationLoop Cell × Option TableId) := do
  let (sink, sent, request) ← liftSink (s.sink.processCdcEvent e)
  return ({ s with sink, sent := s.sent ++ sent, delivered := s.delivered ++ [e] }, request)

/-- A schema change: the sink tells the handler, and the stream converts with the new columns. -/
def alterTable (s : ReplicationLoop Cell) (t : TableId) (columns : List ColumnInfo) :
    Except LoopPanic (ReplicationLoop Cell) := do
  let (sink, sent) ← liftSink (s.sink.alterTable t columns)
  let stream ← s.stream.updateTableSchema t columns
  return { s with sink, stream, sent := s.sent ++ sent }

/-- The loop over the items of a batch. -/
def processBatch (s : ReplicationLoop Cell) :
    List (BatchItem Cell) → List (Option (List ColumnInfo)) → Except LoopPanic (ReplicationLoop Cell)
  | [], _ => .ok s
  | .error e :: rest, fetched =>
    if isSkipped (.error e : BatchItem Cell) then processBatch s rest fetched
    -- The rest of the batch is dropped.
    else .ok { s with savedSchemas := s.stream.tableSchemas }
  | .ok event :: rest, fetched => do
    match ← s.processCdcEvent event with
    | (s, none) => processBatch s rest fetched
    | (s, some t) =>
      match fetched with
      | some columns :: fetched => do processBatch (← s.alterTable t columns) rest fetched
      | _ => return { s with status := .failed }

def handleBatch (text : TextFormatConverter Cell) (s : ReplicationLoop Cell) (frames : List Frame)
    (fetched : List (Option (List ColumnInfo))) : Except LoopPanic (ReplicationLoop Cell) := do
  let (items, lastEndLsn) ← s.stream.nextBatchMsgs text frames
  if items.isEmpty then
    -- Frames were observed, but all of them were skipped.
    if lastEndLsn.isSome then return s else return s.reconnect
  else
    let s ← processBatch { s with batches := s.batches ++ [items] } items fetched
    return { s with lastSeenEndLsn := lastEndLsn.or s.lastSeenEndLsn }

def next (text : TextFormatConverter Cell) (s : ReplicationLoop Cell) (i : LoopInput) :
    Except LoopPanic (ReplicationLoop Cell) :=
  match s.status, i with
  | .reconnecting, .connect => .ok s.connect
  | .reconnecting, .connectFails => .ok { s with status := .failed }
  | .connected, .addTable t c columns => do
    let stream ← s.stream.addTableSchema t columns
    return { s with stream, sink := s.sink.addTable t c columns }
  | .connected, .dropTable t => do
    let sink ← liftSink (s.sink.dropTable t)
    let stream ← s.stream.removeTableSchema t
    return { s with sink, stream }
  | .connected, .shutdown => .ok { s with status := .stopped }
  | .connected, .batch frames fetched => s.handleBatch text frames fetched
  | .connected, .connectionClosed => .ok s.reconnect
  | _, _ => .ok s

def run (text : TextFormatConverter Cell) (s : ReplicationLoop Cell) (inputs : List LoopInput) :
    Except LoopPanic (ReplicationLoop Cell) :=
  inputs.foldlM (next text) s

end ReplicationLoop
end Moonlink.EventLoop
