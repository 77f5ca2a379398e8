-- SUMMARY: Query connections: the pool of streams, the scans that use them, and the server at the other end of each.
import Moonlink.Lib.TransitionSystem

/-!
# The connection pool

A table provider takes a stream from the pool, asks for the schema of its table and begins a
scan. When the scan object is dropped, a detached task ends the scan. Whoever drops the stream
returns it to the pool by another detached task, in whatever state it is.

The server at the other end handles one request after the other, and keeps the open scans of
the stream in a map. The beginning of a scan is answered before the map is updated.

A stream is modelled with the requests and responses under way and with its server. Files,
metadata and schemas are left out; whether the bytes of a response can be decoded is part of a
step.
-/

namespace Moonlink.Query

open Lib

/-! ## Streams and their server -/

inductive Request (Table : Type) where
  | getTableSchema (table : Table)
  | scanTableBegin (table : Table) (lsn : Nat)
  | scanTableEnd (table : Table)

/-- A request with the number of the provider that sends it. -/
structure Message (Table : Type) where
  provider : Nat
  request : Request Table

/-- A response, with the message that it answers. -/
structure Response (Table : Type) where
  message : Message Table
  ok : Bool

/-- `handle_stream`. -/
inductive Server (Table : Type) where
  | reading
  /-- The response to `ScanTableBegin` is written, and the map is not yet updated. -/
  | inserting (table : Table)
  | closed
  /-- An assertion has failed. -/
  | panicked

structure Stream (Uri Table : Type) where
  uri : Uri
  requests : List (Message Table)
  /-- A request was written in part, which spoils whatever follows. -/
  garbled : Bool
  responses : List (Response Table)
  server : Server Table
  map : List Table

inductive ServerStep where
  | handle (ok : Bool)
  | insert
  /-- The connection breaks, or the server gives it up. -/
  | close

namespace Stream

variable {Uri Table : Type} [DecidableEq Table]

def connect (uri : Uri) : Stream Uri Table := ⟨uri, [], false, [], .reading, []⟩

variable (s : Stream Uri Table)

def isOpen : Bool :=
  match s.server with
  | .reading | .inserting _ => true
  | .closed | .panicked => false

def write (m : Message Table) : Stream Uri Table :=
  if s.isOpen && !s.garbled then { s with requests := s.requests ++ [m] } else s

def respond (m : Message Table) (ok : Bool) : Stream Uri Table :=
  { s with responses := s.responses ++ [⟨m, ok⟩] }

def panic : Stream Uri Table := { s with requests := [], server := .panicked }

/-- One request is handled. The backend may refuse a schema or a scan. -/
def handle (m : Message Table) (ok : Bool) : Stream Uri Table :=
  match m.request with
  | .getTableSchema _ => s.respond m ok
  | .scanTableBegin table _ => if ok then { s.respond m true with server := .inserting table } else s.respond m false
  | .scanTableEnd table =>
    if table ∈ s.map then { s.respond m true with map := s.map.erase table } else s.panic

def serve : ServerStep → Option (Stream Uri Table)
  | .handle ok =>
    match s.server, s.requests with
    | .reading, m :: rest => some ({ s with requests := rest }.handle m ok)
    | _, _ => none
  | .insert =>
    match s.server with
    | .inserting table =>
      some (if table ∈ s.map then s.panic else { s with map := table :: s.map, server := .reading })
    | _ => none
  | .close => if s.isOpen then some { s with requests := [], server := .closed, map := [] } else none

end Stream

/-! ## Providers and the pool -/

/-- Where a provider, its scan or the task that ends it awaits. -/
inductive Pc where
  | schemaRequest
  | schemaResponse
  | beginRequest
  | beginResponse
  /-- The scan object exists, for planning and for reading the files. -/
  | scanning
  | endRequest
  | endResponse
  deriving DecidableEq, Repr

inductive Provider (Uri Table : Type) where
  | unused
  | running (pc : Pc) (table : Table) (lsn : Nat) (stream : Stream Uri Table)
  | finished

structure QuerySystem (Uri Table : Type) where
  maxEntriesPerUri : Nat
  pool : Uri → List (Stream Uri Table)
  /-- The streams whose drop has not got the lock of the pool. -/
  returning : List (Stream Uri Table)
  /-- The streams that the pool has given up. -/
  dropped : List (Stream Uri Table)
  providers : Nat → Provider Uri Table
  /-- The responses that were read, with the message that each was taken for an answer to. -/
  reads : List (Message Table × Response Table)

/-- Where a stream is. -/
inductive Place (Uri : Type) where
  | pooled (uri : Uri) (n : Nat)
  | returning (n : Nat)
  | dropped (n : Nat)
  | held (i : Nat)

inductive QueryStep (Uri Table : Type) where
  /-- `MooncakeTableProvider::try_new`, after some entries of the pool have expired. -/
  | tryNew (i : Nat) (uri : Uri) (table : Table) (lsn expired : Nat)
  | write (i : Nat)
  | read (i : Nat) (decoded : Bool)
  /-- Reading or writing fails, since the connection is closed. -/
  | broken (i : Nat)
  /-- The future is dropped where it awaits. -/
  | cancel (i : Nat)
  | cancelWrite (i : Nat)
  /-- The last reference to the scan object is dropped. -/
  | dropScan (i : Nat)
  | putBack (n : Nat)
  | server (place : Place Uri) (step : ServerStep)

namespace QuerySystem

variable {Uri Table : Type} [DecidableEq Uri] [DecidableEq Table]

def init (maxEntriesPerUri : Nat) : QuerySystem Uri Table :=
  ⟨maxEntriesPerUri, fun _ => [], [], [], fun _ => .unused, []⟩

variable (sys : QuerySystem Uri Table)

def setProvider (i : Nat) (p : Provider Uri Table) : QuerySystem Uri Table :=
  { sys with providers := Function.update sys.providers i p }

/-- `PooledStream::drop`. -/
def release (i : Nat) (stream : Stream Uri Table) : QuerySystem Uri Table :=
  { sys.setProvider i .finished with returning := sys.returning ++ [stream] }

def stream? : Place Uri → Option (Stream Uri Table)
  | .pooled uri n => (sys.pool uri)[n]?
  | .returning n => sys.returning[n]?
  | .dropped n => sys.dropped[n]?
  | .held i => match sys.providers i with | .running _ _ _ stream => some stream | _ => none

def setStream (place : Place Uri) (stream : Stream Uri Table) : QuerySystem Uri Table :=
  match place with
  | .pooled uri n => { sys with pool := Function.update sys.pool uri ((sys.pool uri).set n stream) }
  | .returning n => { sys with returning := sys.returning.set n stream }
  | .dropped n => { sys with dropped := sys.dropped.set n stream }
  | .held i =>
    match sys.providers i with
    | .running pc table lsn _ => sys.setProvider i (.running pc table lsn stream)
    | _ => sys

/-- `get_stream_with_pool`: the oldest entries that have expired are closed, and the next is taken. -/
def getStream (uri : Uri) (expired : Nat) : Stream Uri Table × QuerySystem Uri Table :=
  let entries := sys.pool uri
  match entries.drop expired with
  | stream :: rest =>
    (stream, { sys with
      pool := Function.update sys.pool uri rest
      dropped := sys.dropped ++ entries.take expired })
  | [] => (.connect uri, { sys with
      pool := Function.update sys.pool uri []
      dropped := sys.dropped ++ entries.take expired })

/-- The detached task of `PooledStream::drop`: the oldest entries make room. -/
def putBack (n : Nat) (stream : Stream Uri Table) : QuerySystem Uri Table :=
  let entries := sys.pool stream.uri
  let surplus := entries.length + 1 - sys.maxEntriesPerUri
  { sys with
    returning := sys.returning.eraseIdx n
    pool := Function.update sys.pool stream.uri (entries.drop surplus ++ [stream])
    dropped := sys.dropped ++ entries.take surplus }

end QuerySystem

namespace Pc

variable {Table : Type}

/-- The request that is sent from here, and where its response is awaited. -/
def sends (pc : Pc) (table : Table) (lsn : Nat) : Option (Request Table × Pc) :=
  match pc with
  | schemaRequest => some (.getTableSchema table, schemaResponse)
  | beginRequest => some (.scanTableBegin table lsn, beginResponse)
  | endRequest => some (.scanTableEnd table, endResponse)
  | _ => none

/-- The request whose response is awaited here, and how it goes on if there is one that can be used. -/
def awaits (pc : Pc) (table : Table) (lsn : Nat) : Option (Request Table × Option Pc) :=
  match pc with
  | schemaResponse => some (.getTableSchema table, some beginRequest)
  | beginResponse => some (.scanTableBegin table lsn, some scanning)
  | endResponse => some (.scanTableEnd table, none)
  | _ => none

end Pc

namespace QuerySystem

variable {Uri Table : Type} [DecidableEq Uri] [DecidableEq Table]

/-- A response is read. The provider goes on if the response is no error and can be decoded. -/
def readResponse (sys : QuerySystem Uri Table) (i : Nat) (pc : Pc) (table : Table) (lsn : Nat)
    (stream : Stream Uri Table) (decoded : Bool) : Option (QuerySystem Uri Table) := do
  let (request, onward) ← pc.awaits table lsn
  match stream.responses with
  | [] => none
  | response :: rest =>
    let stream := { stream with responses := rest }
    let sys := { sys with reads := sys.reads ++ [(({ provider := i, request } : Message Table), response)] }
    match onward with
    | some pc =>
      some (if response.ok && decoded then sys.setProvider i (.running pc table lsn stream)
        else sys.release i stream)
    | none => some (sys.release i stream)

def next (sys : QuerySystem Uri Table) : QueryStep Uri Table → Option (QuerySystem Uri Table)
  | .tryNew i uri table lsn expired =>
    match sys.providers i with
    | .unused =>
      let (stream, sys) := sys.getStream uri expired
      some (sys.setProvider i (.running .schemaRequest table lsn stream))
    | _ => none
  | .write i =>
    match sys.providers i with
    | .running pc table lsn stream => do
      let (request, pc) ← pc.sends table lsn
      return sys.setProvider i (.running pc table lsn (stream.write ⟨i, request⟩))
    | _ => none
  | .read i decoded =>
    match sys.providers i with
    | .running pc table lsn stream => sys.readResponse i pc table lsn stream decoded
    | _ => none
  | .broken i =>
    match sys.providers i with
    | .running pc table lsn stream =>
      -- What was received before can still be read.
      if pc ≠ .scanning ∧ stream.isOpen = false ∧ ((pc.sends table lsn).isSome ∨ stream.responses = []) then
        some (sys.release i stream)
      else none
    | _ => none
  | .cancel i =>
    match sys.providers i with
    | .running pc _ _ stream => if pc ≠ .scanning then some (sys.release i stream) else none
    | _ => none
  | .cancelWrite i =>
    match sys.providers i with
    | .running pc table lsn stream => do
      let _ ← pc.sends table lsn
      return sys.release i { stream with garbled := true }
    | _ => none
  | .dropScan i =>
    match sys.providers i with
    | .running .scanning table lsn stream => some (sys.setProvider i (.running .endRequest table lsn stream))
    | _ => none
  | .putBack n => do return sys.putBack n (← sys.returning[n]?)
  | .server place step => do return sys.setStream place (← (← sys.stream? place).serve step)

end QuerySystem

end Moonlink.Query
