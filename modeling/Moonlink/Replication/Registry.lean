-- SUMMARY: The registration of tables in the replication manager, its connections and the metadata store, with inner steps that may fail.
import Moonlink.Lib.AssocMap
import Moonlink.Lib.Text
import Moonlink.Lib.TransitionSystem

/-!
# The table registry

A table is registered in four places: the manager's `table_info`, the table states of
its connection, the source of the connection, and the metadata store. The backend's
requests update them one after the other and return at the first inner step that fails.
Which step that is comes as an input. What the source and the table itself hold is left
out, so of a source only its kind and its id generator are kept, and of a table state
only the name of the source table.

A request gives the state it leaves behind also when it fails, since nothing is undone.
-/

namespace Moonlink.Registry

open Lib

structure MooncakeTableId where
  database : String
  table : String
  deriving DecidableEq, Repr

/-- A table together with its id at the source. -/
structure UniqueTableId where
  mooncakeTableId : MooncakeTableId
  srcTableId : Nat
  deriving DecidableEq, Repr

def restApiUri : String := "rest://api"

inductive RegistryError where
  /-- The field with this name is blank. -/
  | cannotBeEmpty (name : String)
  | invalidConfig
  | duplicateTable
  | connectionFailed
  | restApiNotFound (srcUri : String)
  | sourceFailed
  | tableNotFound
  | handlerFailed
  | metadataStoreFailed
  /-- A panic: a REST table is created without a schema. -/
  | schemaRequired
  /-- A panic: the connection is of the other kind. -/
  | unsupportedSource
  /-- A panic: a registered table has no connection. -/
  | connectionMissing
  /-- A panic: a registered table has no table state. -/
  | tableStateMissing
  deriving DecidableEq, Repr

/-- The inner steps of a creation that may fail. -/
inductive CreateStep where
  | parseConfig
  /-- Opening a new connection. -/
  | connect
  /-- Building the table and the command to the source. -/
  | addToSource
  | storeMetadata
  deriving DecidableEq, Repr

/-- The inner steps of a drop that may fail. -/
inductive DropStep where
  | dropFromHandler
  | dropFromSource
  | deleteMetadata
  deriving DecidableEq, Repr

structure CreateRequest where
  id : MooncakeTableId
  srcTableName : String
  srcUri : String
  /-- The request has an Arrow schema. -/
  hasSchema : Bool
  /-- The id of the table at a Postgres source. -/
  srcTableId : Nat

/-! ## Connections -/

inductive SourceType where
  | postgres
  | restApi (nextSrcTableId : Nat)
  deriving DecidableEq, Repr

structure ReplicationConnection where
  source : SourceType
  tableStates : AssocMap UniqueTableId String

namespace ReplicationConnection

def new (uri : String) : ReplicationConnection where
  source := if uri.startsWith "rest://" then .restApi 1 else .postgres
  tableStates := ∅

variable (c : ReplicationConnection)

def tableCount : Nat := c.tableStates.keys.length

def insertTableState (r : CreateRequest) (srcTableId : Nat) : ReplicationConnection :=
  { c with tableStates := c.tableStates.insert ⟨r.id, srcTableId⟩ r.srcTableName }

/-- Add a Postgres table. -/
def addTableReplication (r : CreateRequest) (fails : Option CreateStep) :
    ReplicationConnection × Except RegistryError Nat :=
  match c.source with
  | .restApi _ => (c, .error .unsupportedSource)
  | .postgres =>
    if fails = some .addToSource then (c, .error .sourceFailed)
    else (c.insertTableState r r.srcTableId, .ok r.srcTableId)

/-- Add a REST table under the next id. -/
def addTableApi (r : CreateRequest) (fails : Option CreateStep) :
    ReplicationConnection × Except RegistryError Nat :=
  match c.source with
  | .postgres => (c, .error .unsupportedSource)
  | .restApi srcTableId =>
    let c := { c with source := .restApi (srcTableId + 1) }
    if fails = some .addToSource then (c, .error .sourceFailed)
    else (c.insertTableState r srcTableId, .ok srcTableId)

/-- The table state is removed first. -/
def dropTable (id : MooncakeTableId) (srcTableId : Nat)
    (fails : Option DropStep) : ReplicationConnection × Except RegistryError Unit :=
  match c.tableStates.lookup ⟨id, srcTableId⟩ with
  | none => (c, .error .tableNotFound)
  | some _ =>
    let c := { c with tableStates := c.tableStates.erase ⟨id, srcTableId⟩ }
    if fails = some .dropFromHandler then (c, .error .handlerFailed)
    else if fails = some .dropFromSource then (c, .error .sourceFailed)
    else (c, .ok ())

end ReplicationConnection

/-! ## The manager -/

structure ReplicationManager where
  connections : AssocMap String ReplicationConnection
  /-- The connection and the source id of each table. -/
  tableInfo : AssocMap MooncakeTableId (String × Nat)
  /-- The Postgres sources whose publication and slot were dropped. -/
  droppedSlots : List String

namespace ReplicationManager

def new : ReplicationManager := ⟨∅, ∅, []⟩

variable (m : ReplicationManager)

def setConnection (uri : String) (c : ReplicationConnection) : ReplicationManager :=
  { m with connections := m.connections.insert uri c }

def getOrCreateConnection (uri : String) (fails : Option CreateStep) :
    Except RegistryError ReplicationConnection :=
  match m.connections.lookup uri with
  | some c => .ok c
  | none => if fails = some .connect then .error .connectionFailed else .ok (.new uri)

def register (r : CreateRequest) (srcTableId : Nat) : ReplicationManager :=
  { m with tableInfo := m.tableInfo.insert r.id (r.srcUri, srcTableId) }

def addTable (r : CreateRequest) (fails : Option CreateStep) :
    ReplicationManager × Except RegistryError Unit :=
  if (m.tableInfo.lookup r.id).isSome then (m, .error .duplicateTable)
  else match m.getOrCreateConnection r.srcUri fails with
    | .error e => (m, .error e)
    | .ok c =>
      match c.addTableReplication r fails with
      | (c, .error e) => (m.setConnection r.srcUri c, .error e)
      | (c, .ok srcTableId) => ((m.setConnection r.srcUri c).register r srcTableId, .ok ())

/-- Duplicates are only found when the table is already added to the connection. -/
def addRestTable (r : CreateRequest) (fails : Option CreateStep) :
    ReplicationManager × Except RegistryError Unit :=
  match m.connections.lookup r.srcUri with
  | none => (m, .error (.restApiNotFound r.srcUri))
  | some c =>
    match c.addTableApi r fails with
    | (c, .error e) => (m.setConnection r.srcUri c, .error e)
    | (c, .ok srcTableId) =>
      let m := m.setConnection r.srcUri c
      if (m.tableInfo.lookup r.id).isSome then (m, .error .duplicateTable)
      else (m.register r srcTableId, .ok ())

def initializeEventApiForOnce : ReplicationManager :=
  match m.connections.lookup restApiUri with
  | some _ => m
  | none => m.setConnection restApiUri (.new restApiUri)

/-- The tables of the connection are forgotten with it. -/
def shutdownConnection (uri : String) (postgresDropAll : Bool) : ReplicationManager :=
  match m.connections.lookup uri with
  | none => m
  | some c =>
    { connections := m.connections.erase uri
      tableInfo := m.tableInfo.retain fun _ info => info.1 ≠ uri
      droppedSlots := if postgresDropAll ∧ c.source = .postgres then m.droppedSlots ++ [uri]
        else m.droppedSlots }

/-- The last table of a Postgres connection takes it along. -/
def shutdownIfUnused (uri : String) (c : ReplicationConnection) : ReplicationManager :=
  if c.tableCount = 0 ∧ uri ≠ restApiUri then m.shutdownConnection uri true else m

/-- Returns whether the table was registered. -/
def dropTable (m : ReplicationManager) (id : MooncakeTableId) (fails : Option DropStep) :
    ReplicationManager × Except RegistryError Bool :=
  match m.tableInfo.lookup id with
  | none => (m, .ok false)
  | some (uri, srcTableId) =>
    match m.connections.lookup uri with
    | none => (m, .error .connectionMissing)
    | some c =>
      match c.dropTable id srcTableId fails with
      | (c, .error e) => (m.setConnection uri c, .error e)
      | (c, .ok ()) =>
        let m := m.setConnection uri c
        ({ m with tableInfo := m.tableInfo.erase id }.shutdownIfUnused uri c, .ok true)

/-! ### Getters -/

/-- The table state of a registered table, of which `get_table_reader`,
`get_table_state_reader` and `get_table_event_manager` each return a part. -/
def getTableState (id : MooncakeTableId) : Except RegistryError String :=
  match m.tableInfo.lookup id with
  | none => .error .tableNotFound
  | some (uri, srcTableId) =>
    match m.connections.lookup uri with
    | none => .error .connectionMissing
    | some c =>
      match c.tableStates.lookup ⟨id, srcTableId⟩ with
      | none => .error .tableStateMissing
      | some state => .ok state

/-- The table states of all connections that have a registered table. -/
def getTableStatusReaders : Except RegistryError (List (List (Sigma fun _ : UniqueTableId => String))) :=
  m.tableInfo.entries.mapM fun e =>
    match m.connections.lookup e.2.1 with
    | none => .error .connectionMissing
    | some c => .ok c.tableStates.entries

end ReplicationManager

/-! ## The backend -/

structure MoonlinkBackend where
  replicationManager : ReplicationManager
  /-- The source table and the source of each stored table. -/
  metadataStore : AssocMap MooncakeTableId (String × String)

def validateNotEmpty (field name : String) : Except RegistryError Unit :=
  if field.toList.all isWhitespace then .error (.cannotBeEmpty name) else .ok ()

def MooncakeTableId.validate (id : MooncakeTableId) : Except RegistryError Unit := do
  validateNotEmpty id.database "database"
  validateNotEmpty id.table "table"

namespace MoonlinkBackend

def new : MoonlinkBackend := ⟨.new, ∅⟩

/-- The table is the primary key of the store. -/
def storeTableMetadata (b : MoonlinkBackend) (r : CreateRequest) (fails : Option CreateStep) :
    MoonlinkBackend × Except RegistryError Unit :=
  if fails = some .storeMetadata ∨ (b.metadataStore.lookup r.id).isSome then
    (b, .error .metadataStoreFailed)
  else ({ b with metadataStore := b.metadataStore.insert r.id (r.srcTableName, r.srcUri) }, .ok ())

/-- Exactly one row must be deleted. -/
def deleteTableMetadata (b : MoonlinkBackend) (id : MooncakeTableId) (fails : Option DropStep) :
    MoonlinkBackend × Except RegistryError Unit :=
  if fails = some .deleteMetadata ∨ (b.metadataStore.lookup id).isNone then
    (b, .error .metadataStoreFailed)
  else ({ b with metadataStore := b.metadataStore.erase id }, .ok ())

/-- What is checked before the manager is asked. -/
def checkCreate (r : CreateRequest) (fails : Option CreateStep) : Except RegistryError Unit := do
  r.id.validate
  if fails = some .parseConfig then throw .invalidConfig
  if r.srcUri = restApiUri ∧ r.hasSchema = false then throw .schemaRequired

/-- Add the table to the manager, by the kind of its source. -/
def addToManager (b : MoonlinkBackend) (r : CreateRequest) (fails : Option CreateStep) :
    ReplicationManager × Except RegistryError Unit :=
  if r.srcUri = restApiUri then b.replicationManager.addRestTable r fails
  else b.replicationManager.addTable r fails

def createTable (b : MoonlinkBackend) (r : CreateRequest) (fails : Option CreateStep) :
    MoonlinkBackend × Except RegistryError Unit :=
  match checkCreate r fails with
  | .error e => (b, .error e)
  | .ok () =>
    match b.addToManager r fails with
    | (m, .error e) => ({ b with replicationManager := m }, .error e)
    | (m, .ok ()) => { b with replicationManager := m }.storeTableMetadata r fails

def dropTable (b : MoonlinkBackend) (id : MooncakeTableId) (fails : Option DropStep) :
    MoonlinkBackend × Except RegistryError Unit :=
  match id.validate with
  | .error e => (b, .error e)
  | .ok () =>
    match b.replicationManager.dropTable id fails with
    | (m, .error e) => ({ b with replicationManager := m }, .error e)
    | (m, .ok false) => ({ b with replicationManager := m }, .ok ())
    | (m, .ok true) => { b with replicationManager := m }.deleteTableMetadata id fails

end MoonlinkBackend

/-- The requests to a backend, each with the inner step at which it fails. -/
inductive RegistryAction where
  | initializeEventApi
  | createTable (r : CreateRequest) (fails : Option CreateStep)
  | dropTable (id : MooncakeTableId) (fails : Option DropStep)
  | shutdownConnection (uri : String) (postgresDropAll : Bool)

namespace MoonlinkBackend

/-- The state that a request leaves, and its answer. -/
def handle (b : MoonlinkBackend) : RegistryAction → MoonlinkBackend × Except RegistryError Unit
  | .initializeEventApi =>
    ({ b with replicationManager := b.replicationManager.initializeEventApiForOnce }, .ok ())
  | .createTable r fails => b.createTable r fails
  | .dropTable id fails => b.dropTable id fails
  | .shutdownConnection uri postgresDropAll =>
    ({ b with replicationManager := b.replicationManager.shutdownConnection uri postgresDropAll },
      .ok ())

def next (b : MoonlinkBackend) (a : RegistryAction) : Option MoonlinkBackend := some (b.handle a).1

def run (b : MoonlinkBackend) (actions : List RegistryAction) : Option MoonlinkBackend :=
  actions.foldlM next b

end MoonlinkBackend
end Moonlink.Registry
