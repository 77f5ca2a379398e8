-- SUMMARY: REST requests, the events they are turned into, and the source that assigns LSNs to them.
import Moonlink.Lib.AssocMap

/-!
# The REST source

Row changes, files and control requests for a table come with the name of its source
table. The source knows the schema and the id of each name, and all its tables share
one generator of LSNs. Payloads are decoded by converters for JSON, Protobuf and Avro,
which come as parameters, as does the schema that is derived from an Avro schema.

Timestamps, storage configurations and the texts of errors are left out. The LSN
generator is unbounded here; it has 64 bits in the code.
-/

namespace Moonlink.Rest

open Lib

abbrev SrcTableId : Type := Nat

/-- The client that waits at the other end of a response channel. -/
abbrev Client : Type := Nat

inductive RowEventOperation where
  | insert
  | upsert
  | delete
  deriving DecidableEq, Repr

inductive IngestRequestPayload (Json : Type) where
  | json (value : Json)
  | protobuf (bytes : List UInt8)
  | avro (bytes : List UInt8)
  deriving DecidableEq, Repr

structure RowEventRequest (Json : Type) where
  srcTableName : String
  operation : RowEventOperation
  payload : IngestRequestPayload Json
  tx : Option Client
  deriving DecidableEq, Repr

inductive FileEventOperation where
  /-- Insert by rows. -/
  | insert
  /-- Upload by files. -/
  | upload
  deriving DecidableEq, Repr

structure FileEventRequest where
  srcTableName : String
  operation : FileEventOperation
  /-- Parquet files, which are processed in order. -/
  files : List String
  tx : Option Client
  deriving DecidableEq, Repr

structure SnapshotRequest where
  srcTableName : String
  lsn : Nat
  tx : Client
  deriving DecidableEq, Repr

structure FlushRequest where
  srcTableName : String
  tx : Client
  deriving DecidableEq, Repr

inductive EventRequest (Json : Type) where
  | row (r : RowEventRequest Json)
  | file (r : FileEventRequest)
  | snapshot (r : SnapshotRequest)
  | flush (r : FlushRequest)
  deriving DecidableEq, Repr

def EventRequest.getRequestTx {Json : Type} : EventRequest Json → Option Client
  | row r => r.tx
  | file r => r.tx
  | snapshot r => some r.tx
  | flush r => some r.tx

/-- The events of a request, without the one that the source never produces. -/
inductive RestEvent (Row : Type) where
  | row (srcTableId : SrcTableId) (operation : RowEventOperation) (row : Row) (lsn : Nat)
  | commit (lsn : Nat)
  | fileUpload (srcTableId : SrcTableId) (files : List String) (lsn : Nat)
  | snapshot (srcTableId : SrcTableId) (lsn : Nat)
  | flush (srcTableId : SrcTableId)

def RestEvent.lsn {Row : Type} : RestEvent Row → Option Nat
  | row _ _ _ lsn => some lsn
  | commit lsn => some lsn
  | fileUpload _ _ lsn => some lsn
  | snapshot _ _ => none
  | flush _ => none

inductive RestSourceError where
  | conversion
  | unknownTable (name : String)
  /-- The table has no Avro schema. -/
  | invalidOperation (name : String)
  | duplicateTable (name : String)
  | nonExistentTable (name : String)
  /-- A file cannot be read. -/
  | fileRead
  /-- The task of a file insert panicked. -/
  | taskJoin
  deriving DecidableEq, Repr

/-- The places where the loop panics. -/
inductive RestPanic where
  /-- `add_table`: the name has an id already. -/
  | nameTaken
  /-- `remove_table`: the name has no id. -/
  | nameMissing
  /-- `set_avro_schema`: the Avro schema cannot be converted. -/
  | avroSchemaInvalid
  /-- `set_avro_schema`: the schemas differ. -/
  | avroSchemaMismatch
  /-- `process_rest_event`: a commit without a table in progress. -/
  | tablesInProgressNotSet
  /-- `run_rest_event_loop`: the LSNs of a request do not increase. -/
  | lsnNotIncreasing
  deriving DecidableEq, Repr

/-- The loop panics while it delivers a request. -/
def RestPanic.isOfRequest : RestPanic → Bool
  | .tablesInProgressNotSet | .lsnNotIncreasing => true
  | _ => false

/-- What decodes payloads and schemas; none stands for an error. -/
structure Converters (Schema AvroSchema Json Row : Type) where
  json : Schema → Json → Option Row
  protobuf : List UInt8 → Option Row
  avro : AvroSchema → List UInt8 → Option Row
  arrowSchema : AvroSchema → Option Schema

structure RestSource (Schema AvroSchema : Type) where
  tableSchemas : AssocMap String (Schema × Option AvroSchema)
  srcTableNameToSrcId : AssocMap String SrcTableId
  lsnGenerator : Nat

namespace RestSource

variable {Schema AvroSchema Json Row : Type}

def new : RestSource Schema AvroSchema := ⟨∅, ∅, 1⟩

variable (s : RestSource Schema AvroSchema)

/-- `fetch_add` of the generator. -/
def drawLsn : Nat × RestSource Schema AvroSchema :=
  (s.lsnGenerator, { s with lsnGenerator := s.lsnGenerator + 1 })

/-! ## Tables -/

/-- Set the generator to the LSN of a recovered table, where `oldLsn` is what was loaded of it
before. -/
def storePersistLsn (oldLsn : Nat) (persistLsn : Option Nat) : RestSource Schema AvroSchema :=
  match persistLsn with
  | none => s
  | some lsn => if oldLsn < lsn then { s with lsnGenerator := lsn } else s

/-- The rest of `add_table`. The schema is replaced also if there is one already. -/
def insertTable (name : String) (id : SrcTableId) (schema : Schema) :
    RestSource Schema AvroSchema × Except RestPanic (Except RestSourceError Unit) :=
  let s' := { s with tableSchemas := s.tableSchemas.insert name (schema, none) }
  if (s.tableSchemas.lookup name).isSome then (s', .ok (.error (.duplicateTable name)))
  else
    let s'' := { s' with srcTableNameToSrcId := s'.srcTableNameToSrcId.insert name id }
    if (s.srcTableNameToSrcId.lookup name).isSome then (s'', .error .nameTaken) else (s'', .ok (.ok ()))

def setAvroSchema [DecidableEq Schema] (c : Converters Schema AvroSchema Json Row)
    (s : RestSource Schema AvroSchema) (name : String) (avroSchema : AvroSchema) :
    RestSource Schema AvroSchema × Except RestPanic (Except RestSourceError Unit) :=
  match s.tableSchemas.lookup name with
  | none => (s, .ok (.error (.unknownTable name)))
  | some (arrowSchema, _) =>
    match c.arrowSchema avroSchema with
    | none => (s, .error .avroSchemaInvalid)
    | some derived =>
      if arrowSchema = derived then
        ({ s with tableSchemas := s.tableSchemas.insert name (arrowSchema, some avroSchema) }, .ok (.ok ()))
      else (s, .error .avroSchemaMismatch)

def removeTable (name : String) :
    RestSource Schema AvroSchema × Except RestPanic (Except RestSourceError Unit) :=
  let s' := { s with tableSchemas := s.tableSchemas.erase name }
  if (s.tableSchemas.lookup name).isNone then (s', .ok (.error (.nonExistentTable name)))
  else
    let s'' := { s' with srcTableNameToSrcId := s'.srcTableNameToSrcId.erase name }
    if (s.srcTableNameToSrcId.lookup name).isNone then (s'', .error .nameMissing) else (s'', .ok (.ok ()))

/-! Only a draw and the store of a recovered LSN change the generator. -/

theorem insertTable_lsnGenerator (name : String) (id : SrcTableId) (schema : Schema) :
    (s.insertTable name id schema).1.lsnGenerator = s.lsnGenerator := by
  unfold insertTable
  dsimp only
  split
  · rfl
  · split <;> rfl

theorem setAvroSchema_lsnGenerator [DecidableEq Schema] (c : Converters Schema AvroSchema Json Row)
    (s : RestSource Schema AvroSchema) (name : String) (avroSchema : AvroSchema) :
    (s.setAvroSchema c name avroSchema).1.lsnGenerator = s.lsnGenerator := by
  unfold setAvroSchema
  split
  · rfl
  · split
    · rfl
    · split <;> rfl

theorem removeTable_lsnGenerator (name : String) : (s.removeTable name).1.lsnGenerator = s.lsnGenerator := by
  unfold removeTable
  dsimp only
  split
  · rfl
  · split <;> rfl

/-! The panics of commands are their own. -/

theorem insertTable_panic (name : String) (id : SrcTableId) (schema : Schema)
    (p : RestPanic) (h : (s.insertTable name id schema).2 = .error p) : p.isOfRequest = false := by
  unfold insertTable at h
  dsimp only at h
  split at h
  · cases h
  · split at h
    · cases h
      rfl
    · cases h

theorem setAvroSchema_panic [DecidableEq Schema] (c : Converters Schema AvroSchema Json Row)
    (s : RestSource Schema AvroSchema) (name : String) (avroSchema : AvroSchema) (p : RestPanic)
    (h : (s.setAvroSchema c name avroSchema).2 = .error p) : p.isOfRequest = false := by
  unfold setAvroSchema at h
  split at h
  · cases h
  · split at h
    · cases h
      rfl
    · split at h
      · cases h
      · cases h
        rfl

theorem removeTable_panic (name : String) (p : RestPanic)
    (h : (s.removeTable name).2 = .error p) : p.isOfRequest = false := by
  unfold removeTable at h
  dsimp only at h
  split at h
  · cases h
  · split at h
    · cases h
      rfl
    · cases h

/-! ## Requests -/

def getSrcTableId (name : String) : Except RestSourceError SrcTableId :=
  match s.srcTableNameToSrcId.lookup name with
  | some id => .ok id
  | none => .error (.unknownTable name)

def converted {α : Type} : Option α → Except RestSourceError α
  | some a => .ok a
  | none => .error .conversion

/-- Decode the payload by its type. -/
def decodePayload (c : Converters Schema AvroSchema Json Row) (name : String) (schema : Schema × Option AvroSchema) :
    IngestRequestPayload Json → Except RestSourceError Row
  | .json value => converted (c.json schema.1 value)
  | .protobuf bytes => converted (c.protobuf bytes)
  | .avro bytes =>
    match schema.2 with
    | none => .error (.invalidOperation name)
    | some avroSchema => converted (c.avro avroSchema bytes)

/-- `process_row_request_sync` up to the first LSN: the table and the row. -/
def decodeRowRequest (c : Converters Schema AvroSchema Json Row) (s : RestSource Schema AvroSchema)
    (r : RowEventRequest Json) : Except RestSourceError (SrcTableId × Row) :=
  match s.tableSchemas.lookup r.srcTableName with
  | none => .error (.unknownTable r.srcTableName)
  | some schema => do
    let id ← s.getSrcTableId r.srcTableName
    let row ← decodePayload c r.srcTableName schema r.payload
    return (id, row)

/-- The rest of `process_row_request_sync`: both events, once their LSNs are drawn. -/
def rowRequestEvents (id : SrcTableId) (operation : RowEventOperation) (row : Row) (rowLsn commitLsn : Nat) :
    List (RestEvent Row) := [.row id operation row rowLsn, .commit commitLsn]

def processFileUploadSync (r : FileEventRequest) :
    RestSource Schema AvroSchema × Except RestSourceError (List (RestEvent Row)) :=
  match s.getSrcTableId r.srcTableName with
  | .error e => (s, .error e)
  | .ok id =>
    let (lsn, s) := s.drawLsn
    (s, .ok [.fileUpload id r.files lsn])

def processSnapshotRequest (r : SnapshotRequest) : Except RestSourceError (List (RestEvent Row)) := do
  let id ← s.getSrcTableId r.srcTableName
  return [.snapshot id r.lsn]

def processFlushRequest (r : FlushRequest) : Except RestSourceError (List (RestEvent Row)) := do
  let id ← s.getSrcTableId r.srcTableName
  return [.flush id]

end RestSource
end Moonlink.Rest
