-- SUMMARY: The sink with its channels: registration of tables, routing of rows and transaction ends, its caches.
import Moonlink.Event
import Moonlink.Lib.Panics

/-!
# Channels and caches of the sink

The replication loop hands each decoded message to the sink, which sends table events to
the handlers of the registered tables. Rows carry the LSN of the begin message; commits go
to the tables that were touched. The state of the sink lives as long as the process, over
all connections.

Tables are added and dropped while messages arrive, each added table has a channel of its
own, and three caches skip lookups. The sink without the caches is `UncachedSink`; the
caches change nothing as long as a table is not added twice.

The trackers of commit and replication LSNs are left out.
-/

namespace Moonlink

/-- `SrcTableId`. -/
abbrev TableId : Type := Nat

structure TransactionState where
  finalLsn : Nat
  /-- Distinct tables touched in this transaction, in first-touch order. -/
  touchedTables : List TableId
  /-- The last table touched, to avoid redundant inserts. -/
  lastTouchedTable : Option TableId

def TransactionState.default : TransactionState := ⟨0, [], none⟩

/-- Record that a row of this table was seen. -/
def TransactionState.touch (st : TransactionState) (t : TableId) : TransactionState :=
  if st.lastTouchedTable != some t then
    { st with
      touchedTables := if st.touchedTables.contains t then st.touchedTables else st.touchedTables ++ [t]
      lastTouchedTable := some t }
  else st

end Moonlink

namespace Moonlink.FanOut

open Lib

/-- The channel of a table's event queue. -/
abbrev Sender : Type := Nat

structure ColumnInfo where
  name : String
  typ : Nat
  modifier : Int
  deriving DecidableEq, Repr

/-- Decoded messages of the replication stream. -/
inductive CdcEvent (Row : Type) where
  | begin (finalLsn : Nat)
  | commit (endLsn : Nat)
  | insert (tableId : TableId) (row : Row) (xactId : Option XactId)
  | update (tableId : TableId) (oldRow : Option Row) (newRow : Row) (xactId : Option XactId)
  | delete (tableId : TableId) (row : Row) (xactId : Option XactId)
  | relation (tableId : TableId) (columns : List ColumnInfo)
  | type
  | primaryKeepAlive (walEnd : Nat)
  | streamStart (xactId : XactId)
  | streamStop
  | streamCommit (xactId : XactId) (endLsn : Nat)
  /-- The ids are the same unless a sub-transaction is aborted. -/
  | streamAbort (xactId subXactId : XactId)
  deriving DecidableEq, Repr

/-- What a channel carries. -/
inductive SinkEvent (Row : Type) where
  | table (e : TableEvent Row)
  | alterTable (columnsToDrop : List String)

inductive SinkPanic where
  | lsnBelowKeepalive
  /-- An update without the old row. -/
  | missingOldRow
  /-- `drop_table` of a table without a sender. -/
  | tableNotFound
  /-- `alter_table` of a table whose columns are not known. -/
  | relationNotFound
  deriving DecidableEq, Repr

def assert (c : Bool) (p : SinkPanic) : Except SinkPanic Unit := if c then .ok () else .error p

/-- Events with the channels they are sent on. -/
abbrev Sent (Row : Type) : Type := List (Sender × SinkEvent Row)

inductive SinkInput (Row : Type) where
  | addTable (tableId : TableId) (eventSender : Sender) (columns : List ColumnInfo)
  | dropTable (tableId : TableId)
  | alterTable (tableId : TableId) (columns : List ColumnInfo)
  | event (e : CdcEvent Row)

/-- The result of a step: what was sent, and the table whose schema is to be fetched again. -/
abbrev Outcome (σ Row : Type) : Type := σ × Sent Row × Option TableId

variable {Row : Type}

/-- Update messages are split into a delete and an append. -/
def updateEvents (oldRow : Option Row) (newRow : Row) (x : Option XactId) (lsn : Nat) :
    Except SinkPanic (List (TableEvent Row)) :=
  match oldRow with
  | some oldRow => .ok [.delete oldRow lsn x false false, .append newRow x lsn false]
  | none => .error .missingOldRow

/-- The names of the columns that are gone or changed. -/
def columnsToDrop (oldColumns newColumns : List ColumnInfo) : List String :=
  (oldColumns.filter fun c => !newColumns.contains c).map (·.name)

structure Sink where
  eventSenders : AssocMap TableId Sender
  streamingTransactionsState : AssocMap XactId TransactionState
  transactionState : TransactionState
  relationCache : AssocMap TableId (List ColumnInfo)
  /-- The last table used on the hot path. -/
  cachedEventSender : Option (TableId × Sender)
  /-- The last streaming transaction, table and LSN. -/
  streamingLastKey : Option (XactId × TableId × Nat)
  maxKeepaliveLsnSeen : Nat

namespace Sink

def new : Sink where
  eventSenders := ∅
  streamingTransactionsState := ∅
  transactionState := TransactionState.default
  relationCache := ∅
  cachedEventSender := none
  streamingLastKey := none
  maxKeepaliveLsnSeen := 0

variable (s : Sink)

/-- Called after a new stream is established. -/
def resetKeepaliveFloor : Sink := { s with maxKeepaliveLsnSeen := 0 }

def addTable (t : TableId) (eventSender : Sender) (columns : List ColumnInfo) : Sink :=
  { s with
    eventSenders := s.eventSenders.insert t eventSender
    relationCache := s.relationCache.insert t columns }

def dropTable (t : TableId) : Except SinkPanic Sink := do
  assert (s.eventSenders.lookup t).isSome .tableNotFound
  return { s with
    eventSenders := s.eventSenders.erase t
    cachedEventSender := match s.cachedEventSender with
      | some (cachedId, c) => if cachedId = t then none else some (cachedId, c)
      | none => none }

def alterTable (s : Sink) (t : TableId) (columns : List ColumnInfo) :
    Except SinkPanic (Sink × Sent Row) :=
  match s.relationCache.lookup t with
  | none => .error .relationNotFound
  | some oldColumns =>
    .ok ({ s with relationCache := s.relationCache.insert t columns },
      match s.eventSenders.lookup t with
      | some c => [(c, .alterTable (columnsToDrop oldColumns columns))]
      | none => [])

def streamingState (x : XactId) : TransactionState :=
  (s.streamingTransactionsState.lookup x).getD TransactionState.default

/-- The slow path of `get_final_lsn` for a streaming transaction. -/
def touchStreaming (x : XactId) (t : TableId) : Sink × Nat :=
  let st := (s.streamingState x).touch t
  ({ s with
      streamingTransactionsState := s.streamingTransactionsState.insert x st
      streamingLastKey := some (x, t, st.finalLsn) }, st.finalLsn)

/-- The LSN for rows of the current transaction. Also records the touched table. -/
def getFinalLsn (t : TableId) (x : Option XactId) : Sink × Nat :=
  match x with
  | some x =>
    match s.streamingLastKey with
    | some (lastXid, lastTable, cachedLsn) =>
      if lastXid = x ∧ lastTable = t then (s, cachedLsn) else s.touchStreaming x t
    | none => s.touchStreaming x t
  | none =>
    ({ s with transactionState := s.transactionState.touch t }, s.transactionState.finalLsn)

def lookupEventSender (t : TableId) : Sink × Option Sender :=
  match s.eventSenders.lookup t with
  | some c => ({ s with cachedEventSender := some (t, c) }, some c)
  | none => (s, none)

def getEventSenderFor (t : TableId) : Sink × Option Sender :=
  match s.cachedEventSender with
  | some (cachedId, c) => if cachedId = t then (s, some c) else s.lookupEventSender t
  | none => s.lookupEventSender t

/-- Send the events of a row message. -/
def sendRow (t : TableId) (x : Option XactId)
    (events : Nat → Except SinkPanic (List (TableEvent Row))) : Except SinkPanic (Outcome Sink Row) := do
  let (s, finalLsn) := s.getFinalLsn t x
  let (s, eventSender) := s.getEventSenderFor t
  match eventSender with
  | some c => do
    let events ← events finalLsn
    return (s, events.map fun e => (c, .table e), none)
  | none => return (s, [], none)

/-- Send the end of a transaction to the registered tables among those that it touched. -/
def sendEnd (eventSenders : AssocMap TableId Sender) (touchedTables : List TableId) (e : TableEvent Row) :
    Sent Row :=
  (touchedTables.filterMap eventSenders.lookup).map fun c => (c, .table e)

/-- Send the end of a streaming transaction to the tables it touched. -/
def endStreaming (x : XactId) (e : TableEvent Row) : Outcome Sink Row :=
  ({ s with
      streamingTransactionsState := s.streamingTransactionsState.erase x
      streamingLastKey := none },
    match s.streamingTransactionsState.lookup x with
    | some st => sendEnd s.eventSenders st.touchedTables e
    | none => [], none)

def processCdcEvent (e : CdcEvent Row) : Except SinkPanic (Outcome Sink Row) :=
  match e with
  | .begin finalLsn => do
    assert (s.maxKeepaliveLsnSeen ≤ finalLsn) .lsnBelowKeepalive
    return ({ s with
      transactionState := { s.transactionState with finalLsn, lastTouchedTable := none }
      streamingLastKey := none }, [], none)
  | .streamStart _ => .ok (s, [], none)
  | .commit endLsn => do
    assert (s.maxKeepaliveLsnSeen ≤ endLsn) .lsnBelowKeepalive
    return ({ s with
      transactionState := { s.transactionState with touchedTables := [], lastTouchedTable := none }
      streamingLastKey := none },
      sendEnd s.eventSenders s.transactionState.touchedTables (.commit endLsn none false), none)
  | .streamCommit x endLsn => do
    assert (s.maxKeepaliveLsnSeen ≤ endLsn) .lsnBelowKeepalive
    return s.endStreaming x (.commit endLsn (some x) false)
  | .insert t row x => s.sendRow t x fun lsn => .ok [.append row x lsn false]
  | .update t oldRow newRow x => s.sendRow t x (updateEvents oldRow newRow x)
  | .delete t row x => s.sendRow t x fun lsn => .ok [.delete row lsn x false false]
  | .relation t columns =>
    .ok (s, [], match s.relationCache.lookup t with
      | some cacheEntry => if cacheEntry.length ≠ columns.length then some t else none
      | none => none)
  | .type => .ok (s, [], none)
  | .primaryKeepAlive walEnd => do
    assert (s.maxKeepaliveLsnSeen ≤ walEnd) .lsnBelowKeepalive
    return ({ s with maxKeepaliveLsnSeen := walEnd }, [], none)
  | .streamStop => .ok (s, [], none)
  | .streamAbort x _ => .ok (s.endStreaming x (.streamAbort x false false))

def next : SinkInput Row → Except SinkPanic (Outcome Sink Row)
  | .addTable t c columns => .ok (s.addTable t c columns, [], none)
  | .dropTable t => do return (← s.dropTable t, [], none)
  | .alterTable t columns => do
    let (s, sent) ← s.alterTable t columns
    return (s, sent, none)
  | .event e => s.processCdcEvent e

end Sink

/-! ## Without caches -/

structure UncachedTransaction where
  finalLsn : Nat
  touchedTables : List TableId

namespace UncachedTransaction

def default : UncachedTransaction := ⟨0, []⟩

def touch (u : UncachedTransaction) (t : TableId) : UncachedTransaction :=
  { u with touchedTables := if t ∈ u.touchedTables then u.touchedTables else u.touchedTables ++ [t] }

theorem mem_touch {u : UncachedTransaction} {t t' : TableId} :
    t' ∈ (u.touch t).touchedTables ↔ t' = t ∨ t' ∈ u.touchedTables := by
  unfold touch
  simp only
  split
  · rename_i hmem
    refine ⟨.inr, ?_⟩
    rintro (rfl | h)
    · exact hmem
    · exact h
  · simp [or_comm]

theorem nodup_touch {u : UncachedTransaction} (h : u.touchedTables.Nodup) (t : TableId) :
    (u.touch t).touchedTables.Nodup := by
  unfold touch
  simp only
  split
  · exact h
  · rename_i hnot
    exact List.nodup_append.mpr ⟨h, List.nodup_singleton t, fun a ha b hb => by
      rintro rfl
      exact hnot (List.mem_singleton.mp hb ▸ ha)⟩

end UncachedTransaction

/-- The sink with a lookup for each row. The transactions are those of streams, and the current one. -/
structure UncachedSink where
  eventSenders : AssocMap TableId Sender
  transaction : Option XactId → UncachedTransaction
  relationCache : AssocMap TableId (List ColumnInfo)
  maxKeepaliveLsnSeen : Nat

namespace UncachedSink

def new : UncachedSink := ⟨∅, fun _ => .default, ∅, 0⟩

def set (u : UncachedSink) (x : Option XactId) (st : UncachedTransaction) : UncachedSink :=
  { u with transaction := Function.update u.transaction x st }

def sendRow (u : UncachedSink) (t : TableId) (x : Option XactId)
    (events : Nat → Except SinkPanic (List (TableEvent Row))) :
    Except SinkPanic (Outcome UncachedSink Row) :=
  let u' := u.set x ((u.transaction x).touch t)
  match u.eventSenders.lookup t with
  | some c => do
    let events ← events (u.transaction x).finalLsn
    return (u', events.map fun e => (c, .table e), none)
  | none => .ok (u', [], none)

def sendEnd (u : UncachedSink) (x : Option XactId) (e : TableEvent Row) : Sent Row :=
  Sink.sendEnd u.eventSenders (u.transaction x).touchedTables e

def processCdcEvent (u : UncachedSink) (e : CdcEvent Row) : Except SinkPanic (Outcome UncachedSink Row) :=
  match e with
  | .begin finalLsn => do
    assert (u.maxKeepaliveLsnSeen ≤ finalLsn) .lsnBelowKeepalive
    return (u.set none { u.transaction none with finalLsn }, [], none)
  | .commit endLsn => do
    assert (u.maxKeepaliveLsnSeen ≤ endLsn) .lsnBelowKeepalive
    return (u.set none { u.transaction none with touchedTables := [] },
      u.sendEnd none (.commit endLsn none false), none)
  | .streamCommit x endLsn => do
    assert (u.maxKeepaliveLsnSeen ≤ endLsn) .lsnBelowKeepalive
    return (u.set (some x) .default, u.sendEnd (some x) (.commit endLsn (some x) false), none)
  | .streamAbort x _ => .ok (u.set (some x) .default, u.sendEnd (some x) (.streamAbort x false false), none)
  | .insert t row x => u.sendRow t x fun lsn => .ok [.append row x lsn false]
  | .update t oldRow newRow x => u.sendRow t x (updateEvents oldRow newRow x)
  | .delete t row x => u.sendRow t x fun lsn => .ok [.delete row lsn x false false]
  | .relation t columns =>
    .ok (u, [], match u.relationCache.lookup t with
      | some cacheEntry => if cacheEntry.length ≠ columns.length then some t else none
      | none => none)
  | .primaryKeepAlive walEnd => do
    assert (u.maxKeepaliveLsnSeen ≤ walEnd) .lsnBelowKeepalive
    return ({ u with maxKeepaliveLsnSeen := walEnd }, [], none)
  | .streamStart _ | .streamStop | .type => .ok (u, [], none)

def next (u : UncachedSink) : SinkInput Row → Except SinkPanic (Outcome UncachedSink Row)
  | .addTable t c columns => .ok ({ u with
      eventSenders := u.eventSenders.insert t c
      relationCache := u.relationCache.insert t columns }, [], none)
  | .dropTable t => do
    assert (u.eventSenders.lookup t).isSome .tableNotFound
    return ({ u with eventSenders := u.eventSenders.erase t }, [], none)
  | .alterTable t columns =>
    match u.relationCache.lookup t with
    | none => .error .relationNotFound
    | some oldColumns =>
      .ok ({ u with relationCache := u.relationCache.insert t columns },
        match u.eventSenders.lookup t with
        | some c => [(c, .alterTable (columnsToDrop oldColumns columns))]
        | none => [], none)
  | .event e => u.processCdcEvent e

end UncachedSink
/-! ## The stream and its meaning -/

namespace CdcEvent

/-- The table and the transaction id of a row message. -/
def row? : CdcEvent Row → Option (TableId × Option XactId)
  | insert t _ x | update t _ _ x | delete t _ x => some (t, x)
  | _ => none

def lsn? : CdcEvent Row → Option Nat
  | begin lsn | commit lsn | streamCommit _ lsn | primaryKeepAlive lsn => some lsn
  | _ => none

def lacksOldRow : CdcEvent Row → Bool
  | update _ none _ _ => true
  | _ => false

end CdcEvent

/-- A row that is added or removed. -/
inductive Change (Row : Type) where
  | append (row : Row)
  | delete (row : Row)
  deriving DecidableEq, Repr

def CdcEvent.changes : CdcEvent Row → List (Change Row)
  | .insert _ row _ => [.append row]
  | .update _ oldRow newRow _ => oldRow.toList.map .delete ++ [.append newRow]
  | .delete _ row _ => [.delete row]
  | _ => []

/-- The position in the stream, with the tables that were added. -/
structure PgOutput where
  /-- The transaction between its begin and commit, or the one that is being streamed. -/
  current : Option (Option XactId)
  eventSenders : AssocMap TableId Sender
  /-- All tables that were added, with their channels. -/
  added : List (TableId × Sender)
  maxKeepaliveLsnSeen : Nat

namespace PgOutput

def new : PgOutput := ⟨none, ∅, [], 0⟩

/-- Where a message may stand. Between the start and the stop of a stream rows carry the id of the
streamed transaction or of a sub-transaction. -/
def Follows (p : PgOutput) : CdcEvent Row → Prop
  | .begin _ | .streamStart _ | .streamCommit _ _ | .streamAbort _ _ => p.current = none
  | .commit _ => p.current = some none
  | .streamStop => ∃ x, p.current = some (some x)
  | .insert _ _ x | .update _ _ _ x | .delete _ _ x => p.current.map Option.isSome = some x.isSome
  | .relation .. | .type | .primaryKeepAlive _ => True

/-- What the replication loop and the source guarantee: each added table is new and has a channel of
its own, LSNs are not below those of keepalives, and updates have their old row. -/
def Accepts (p : PgOutput) : SinkInput Row → Prop
  | .addTable t c _ => p.eventSenders.lookup t = none ∧ c ∉ p.added.map Prod.snd
  | .dropTable t => (p.eventSenders.lookup t).isSome = true
  | .alterTable t _ => t ∈ p.added.map Prod.fst
  | .event e => p.Follows e ∧ (∀ lsn ∈ e.lsn?, p.maxKeepaliveLsnSeen ≤ lsn) ∧ e.lacksOldRow = false

/-- No sub-transactions: rows carry the id of their transaction, and only whole ones are aborted. -/
def Plain (p : PgOutput) : SinkInput Row → Prop
  | .event (.streamAbort x subXactId) => subXactId = x
  | .event e => ∀ r ∈ e.row?, p.current = some r.2
  | _ => True

def next (p : PgOutput) : SinkInput Row → PgOutput
  | .addTable t c _ => { p with eventSenders := p.eventSenders.insert t c, added := (t, c) :: p.added }
  | .dropTable t => { p with eventSenders := p.eventSenders.erase t }
  | .alterTable .. => p
  | .event (.begin _) => { p with current := some none }
  | .event (.streamStart x) => { p with current := some (some x) }
  | .event (.commit _) | .event .streamStop => { p with current := none }
  | .event (.primaryKeepAlive walEnd) => { p with maxKeepaliveLsnSeen := walEnd }
  | .event _ => p

end PgOutput

/-- The rows of an open transaction, with the ids that their messages carry. -/
structure TransactionView (Row : Type) where
  touched : Bool
  changes : List (Option XactId × Change Row)

def TransactionView.empty : TransactionView Row := ⟨false, []⟩

/-- What the stream says about a table, as far as it had a certain channel. -/
structure TableView (Row : Type) where
  /-- The rows, in order. -/
  received : List (Change Row)
  pending : Option XactId → TransactionView Row
  /-- The end LSNs and the rows of the transactions that touched the table. -/
  committed : List (Nat × List (Change Row))

namespace TableView

def new : TableView Row := ⟨[], fun _ => .empty, []⟩

def row (v : TableView Row) (registered : Bool) (key x : Option XactId) (changes : List (Change Row)) :
    TableView Row :=
  let changes := if registered then changes else []
  { v with
    received := v.received ++ changes
    pending := Function.update v.pending key ⟨true, (v.pending key).changes ++ changes.map fun a => (x, a)⟩ }

def finish (v : TableView Row) (registered : Bool) (key : Option XactId) (endLsn : Nat) : TableView Row :=
  { v with
    pending := Function.update v.pending key .empty
    committed := if (v.pending key).touched && registered then
      v.committed ++ [(endLsn, (v.pending key).changes.map Prod.snd)] else v.committed }

/-- Only the rows of the aborted transaction or sub-transaction are discarded. -/
def abort (v : TableView Row) (x subXactId : XactId) : TableView Row :=
  let rest : TransactionView Row :=
    if subXactId = x then .empty
    else ⟨(v.pending (some x)).touched,
      (v.pending (some x)).changes.filter fun a => a.1 != some subXactId⟩
  { v with pending := Function.update v.pending (some x) rest }

def next (v : TableView Row) (t : TableId) (c : Sender) (p : PgOutput) : SinkInput Row → TableView Row
  | .event e =>
    let registered := p.eventSenders.lookup t == some c
    match e, e.row?, p.current with
    | _, some (t', x), some key => if t' = t then v.row registered key x e.changes else v
    | .commit endLsn, _, _ => v.finish registered none endLsn
    | .streamCommit x endLsn, _, _ => v.finish registered (some x) endLsn
    | .streamAbort x subXactId, _, _ => v.abort x subXactId
    | _, _, _ => v
  | _ => v

end TableView

/-- What a handler makes of the events of its channel. -/
structure Replica (Row : Type) where
  received : List (Change Row)
  pending : Option XactId → List (Change Row)
  committed : List (Nat × List (Change Row))

namespace Replica

def new : Replica Row := ⟨[], fun _ => [], []⟩

def row (r : Replica Row) (x : Option XactId) (a : Change Row) : Replica Row :=
  { r with
    received := r.received ++ [a]
    pending := Function.update r.pending x (r.pending x ++ [a]) }

def receive (r : Replica Row) : SinkEvent Row → Replica Row
  | .table (.append row x _ _) => r.row x (.append row)
  | .table (.delete row _ x _ _) => r.row x (.delete row)
  | .table (.commit lsn x _) =>
    { r with pending := Function.update r.pending x [], committed := r.committed ++ [(lsn, r.pending x)] }
  | .table (.streamAbort x _ _) => { r with pending := Function.update r.pending (some x) [] }
  | _ => r

end Replica

/-- The events of one channel. -/
def channel (sent : Sent Row) (c : Sender) : List (SinkEvent Row) :=
  (sent.filter fun p => p.1 == c).map Prod.snd

def replica (sent : Sent Row) (c : Sender) : Replica Row := (channel sent c).foldl .receive .new

/-- The sink with the stream before it and the channels behind it. -/
structure SinkRun (Row : Type) where
  source : PgOutput
  sink : Sink
  sent : Sent Row
  view : TableId → Sender → TableView Row

namespace SinkRun

def new : SinkRun Row := ⟨.new, .new, [], fun _ _ => .new⟩

def next (f : SinkRun Row) (i : SinkInput Row) : Except SinkPanic (SinkRun Row) := do
  let (sink, sent, _) ← f.sink.next i
  return ⟨f.source.next i, sink, f.sent ++ sent, fun t c => (f.view t c).next t c f.source i⟩

def run (f : SinkRun Row) (inputs : List (SinkInput Row)) : Except SinkPanic (SinkRun Row) :=
  inputs.foldlM next f

end SinkRun
end Moonlink.FanOut
