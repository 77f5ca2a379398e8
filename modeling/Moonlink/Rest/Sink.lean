-- SUMMARY: The REST sink: registration of tables, and the table events that a REST event is turned into.
import Moonlink.Event
import Moonlink.Rest.Source

/-!
# The REST sink

The sink holds the channel of each table. A commit does not name its table: it goes to
the table of the row before it. An event fails if its table is not registered or if the
receiver of its channel is gone.

The log of what was sent is not part of the code. Receivers of flush LSNs are left out.
-/

namespace Moonlink.Rest

open Lib

/-- The events that go through the channel of a table. -/
inductive SentEvent (Row : Type) where
  /-- An event of a row or its commit. -/
  | ingest (e : TableEvent Row)
  | loadFiles (files : List String) (lsn : Nat)
  | forceSnapshot (lsn : Nat)
  | periodicalPersistenceUpdateWal

inductive RestSinkError where
  | duplicateTable (srcTableId : SrcTableId)
  | nonExistentTable (srcTableId : SrcTableId)
  /-- No table status for the id. -/
  | tableStatusNotFound (srcTableId : SrcTableId)
  /-- The receiver was dropped. -/
  | sendFailed (srcTableId : SrcTableId)
  deriving DecidableEq, Repr

structure TableStatus where
  /-- The receiver of the table's channel is alive. -/
  isOpen : Bool
  commitLsn : Nat

structure RestSink (Row : Type) where
  tableStatus : AssocMap SrcTableId TableStatus
  tablesInProgress : Option SrcTableId
  replicationLsn : Nat
  /-- What was sent so far, with the tables. -/
  sent : List (SrcTableId × SentEvent Row)

namespace RestSink

variable {Row : Type}

def new : RestSink Row := ⟨∅, none, 0, []⟩

variable (s : RestSink Row)

/-- The status is replaced also if there is one already. -/
def addTable (id : SrcTableId) (persistLsn : Option Nat) : RestSink Row × Except RestSinkError Unit :=
  let s' := { s with tableStatus := s.tableStatus.insert id ⟨true, persistLsn.getD 0⟩ }
  if (s.tableStatus.lookup id).isSome then (s', .error (.duplicateTable id))
  else ({ s' with replicationLsn := max s'.replicationLsn (persistLsn.getD 0) }, .ok ())

def dropTable (id : SrcTableId) : RestSink Row × Except RestSinkError Unit :=
  if (s.tableStatus.lookup id).isNone then (s, .error (.nonExistentTable id))
  else ({ s with tableStatus := s.tableStatus.erase id }, .ok ())

/-- Whether a table is added depends on the tables only, and nothing is sent. -/
theorem addTable_cases (id : SrcTableId) (persistLsn : Option Nat) :
    ∃ s', s'.sent = s.sent ∧ s'.tablesInProgress = s.tablesInProgress ∧
      ((s.tableStatus.lookup id ≠ none ∧ ∃ e, s.addTable id persistLsn = (s', .error e)) ∨
        (s.tableStatus.lookup id = none ∧ s.addTable id persistLsn = (s', .ok ()))) := by
  unfold addTable
  dsimp only
  split
  · rename_i hsome
    refine ⟨_, ?_, ?_, .inl ⟨Option.isSome_iff_ne_none.mp hsome, _, rfl⟩⟩ <;> rfl
  · rename_i hnone
    refine ⟨_, ?_, ?_, .inr ⟨Option.not_isSome_iff_eq_none.mp hnone, rfl⟩⟩ <;> rfl

theorem dropTable_cases (id : SrcTableId) :
    ∃ s', s'.sent = s.sent ∧ s'.tablesInProgress = s.tablesInProgress ∧
      ((s.tableStatus.lookup id = none ∧ ∃ e, s.dropTable id = (s', .error e)) ∨
        (s.tableStatus.lookup id ≠ none ∧ s.dropTable id = (s', .ok ()))) := by
  unfold dropTable
  split
  · rename_i hnone
    refine ⟨_, ?_, ?_, .inl ⟨Option.isNone_iff_eq_none.mp hnone, _, rfl⟩⟩ <;> rfl
  · rename_i hsome
    refine ⟨_, ?_, ?_, .inr ⟨fun hnone => hsome (Option.isNone_iff_eq_none.mpr hnone), rfl⟩⟩ <;> rfl

/-- The handler of the table is gone. -/
def closeReceiver (id : SrcTableId) : RestSink Row :=
  match s.tableStatus.lookup id with
  | none => s
  | some status => { s with tableStatus := s.tableStatus.insert id { status with isOpen := false } }

def markCommit (id : SrcTableId) (lsn : Nat) : RestSink Row × Except RestSinkError Unit :=
  match s.tableStatus.lookup id with
  | none => (s, .error (.tableStatusNotFound id))
  | some status =>
    ({ s with
      tableStatus := s.tableStatus.insert id { status with commitLsn := max status.commitLsn lsn }
      replicationLsn := max s.replicationLsn lsn }, .ok ())

def sendTableEvent (id : SrcTableId) (e : SentEvent Row) : RestSink Row × Except RestSinkError Unit :=
  match s.tableStatus.lookup id with
  | none => (s, .error (.tableStatusNotFound id))
  | some status =>
    if status.isOpen then ({ s with sent := s.sent ++ [(id, e)] }, .ok ()) else (s, .error (.sendFailed id))

/-- An upsert deletes the row with the same key, if there is one, and appends the new row. -/
def rowEvents (operation : RowEventOperation) (row : Row) (lsn : Nat) : List (SentEvent Row) :=
  match operation with
  | .insert => [.ingest (.append row none lsn false)]
  | .upsert => [.ingest (.delete row lsn none true false), .ingest (.append row none lsn false)]
  | .delete => [.ingest (.delete row lsn none true false)]

/-- Send events until one fails. The receiver may go after the first of them. -/
def sendAll (s : RestSink Row) (id : SrcTableId) (closes : Bool) :
    List (SentEvent Row) → RestSink Row × Except RestSinkError Unit
  | [] => (s, .ok ())
  | e :: rest =>
    match s.sendTableEvent id e with
    | (s, .ok ()) => (if closes then s.closeReceiver id else s).sendAll id closes rest
    | (s, .error error) => (s, .error error)

def processRowEvent (id : SrcTableId) (operation : RowEventOperation) (row : Row) (lsn : Nat)
    (closes : Bool) : RestSink Row × Except RestSinkError Unit :=
  s.sendAll id closes (rowEvents operation row lsn)

/-- Send an event, then mark its LSN as committed. -/
def sendCommitted (id : SrcTableId) (e : SentEvent Row) (lsn : Nat) :
    RestSink Row × Except RestSinkError Unit :=
  match s.sendTableEvent id e with
  | (s, .ok ()) => s.markCommit id lsn
  | (s, .error error) => (s, .error error)

/-- `closes` says that the receiver goes between the parts of an upsert. -/
def processRestEvent (e : RestEvent Row) (closes : Bool) :
    RestSink Row × Except RestPanic (Except RestSinkError Unit) :=
  match e with
  | .row id operation row lsn =>
    let (s, result) := { s with tablesInProgress := some id }.processRowEvent id operation row lsn closes
    (s, .ok result)
  | .commit lsn =>
    match s.tablesInProgress with
    | none => (s, .error .tablesInProgressNotSet)
    | some id =>
      let (s, result) := { s with tablesInProgress := none }.sendCommitted id (.ingest (.commit lsn none false)) lsn
      (s, .ok result)
  | .fileUpload id files lsn =>
    let (s, result) := s.sendCommitted id (.loadFiles files lsn) lsn
    (s, .ok result)
  | .snapshot id lsn =>
    let (s, result) := s.sendTableEvent id (.forceSnapshot lsn)
    (s, .ok result)
  | .flush id =>
    let (s, result) := s.sendTableEvent id .periodicalPersistenceUpdateWal
    (s, .ok result)

end RestSink
end Moonlink.Rest
