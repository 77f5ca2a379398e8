-- SUMMARY: Readers of a table beside the tasks that deliver a commit to the table before they mark its LSN.
import Moonlink.Lib.TransitionSystem
import Moonlink.UnionRead.ReadStateManager

/-!
# Tasks that deliver first

The REST sink and the initial copy send an event to the table, then mark the commit LSN of the
table, then the replication LSN. A table that is added again at recovery has both marked with
its persisted LSN. The replication stream marks the commit LSN first. Each of these is a task
with its own order of operations.

To mark an LSN is to compare it with the current one, to store it and to send it to the
readers, which are three steps.
-/

namespace Moonlink.UnionRead

open Lib

/-- `ReplicationState` and `CommitState`: the current LSN, and the one that readers see. -/
structure LsnState where
  current : Nat
  watched : Nat

inductive LsnKind where
  | commit
  | replication
  deriving DecidableEq, Repr

inductive WriterOp where
  /-- `Commit`, `LoadFiles` or `FinishInitialCopy` is sent to the table. -/
  | deliver (lsn : Nat)
  | mark (kind : LsnKind) (lsn : Nat)
  /-- The sink has the table. -/
  | added
  deriving DecidableEq, Repr

/-- A call of `mark` that found its LSN to be greater than the current one. -/
structure Marking where
  kind : LsnKind
  lsn : Nat
  stored : Bool
  deriving DecidableEq, Repr

structure Writer where
  marking : Option Marking
  todo : List WriterOp
  deriving DecidableEq, Repr

inductive Task where
  /-- `process_rest_event` of a commit or of uploaded files, followed by `mark_commit`. -/
  | restCommit (lsn : Nat)
  /-- The end of `perform_initial_copy`. -/
  | initialCopy (boundaryLsn : Nat)
  /-- A commit in the replication stream. -/
  | cdcCommit (lsn : Nat)
  /-- `add_table`, which fails for a duplicate after the commit LSN is marked. -/
  | addTable (duplicate : Bool)
  /-- The replication LSN is marked for another table. -/
  | other (lsn : Nat)

namespace Task

def isOfTable : Task → Bool
  | restCommit _ | initialCopy _ | cdcCommit _ => true
  | addTable _ | other _ => false

def isAddTable : Task → Bool
  | addTable _ => true
  | _ => false

def ops (persistLsn : Option Nat) : Task → List WriterOp
  | restCommit lsn | initialCopy lsn => [.deliver lsn, .mark .commit lsn, .mark .replication lsn]
  | cdcCommit lsn => [.mark .commit lsn, .deliver lsn, .mark .replication lsn]
  | addTable duplicate =>
    match persistLsn with
    | some lsn => .mark .commit lsn :: if duplicate then [] else [.mark .replication lsn, .added]
    | none => if duplicate then [] else [.added]
  | other lsn => [.mark .replication lsn]

end Task

structure MarkSystem where
  /-- The LSN that the table is recovered with. -/
  persistLsn : Option Nat
  isAdding : Bool
  isAdded : Bool
  commit : LsnState
  replication : LsnState
  writers : List Writer
  /-- What the table handler has not taken from its queue. -/
  queue : List Nat
  commitLsnBaseline : Nat
  snapshotVersion : Nat
  snapshotOngoing : Bool
  snapshotLsn : Nat
  readers : Nat → Reader

inductive MarkAction where
  | start (i : Nat) (task : Task)
  | writerStep (i : Nat)
  | processCommit
  | createSnapshot
  | notifySnapshotReader
  | tryRead (reader : Nat) (requested : Option Nat)
  /-- The next read of a published LSN. -/
  | readerStep (reader : Nat)

namespace MarkSystem

def init (persistLsn : Option Nat) (replicationLsn numWriters : Nat) : MarkSystem where
  persistLsn
  isAdding := false
  isAdded := false
  commit := ⟨noCommitLsn, noCommitLsn⟩
  replication := ⟨replicationLsn, replicationLsn⟩
  writers := List.replicate numWriters ⟨none, []⟩
  queue := []
  commitLsnBaseline := 0
  snapshotVersion := persistLsn.getD 0
  snapshotOngoing := false
  snapshotLsn := persistLsn.getD noSnapshotLsn
  readers _ := .idle

variable (s : MarkSystem)

def lsnState : LsnKind → LsnState
  | .commit => s.commit
  | .replication => s.replication

def setLsnState (kind : LsnKind) (state : LsnState) : MarkSystem :=
  match kind with
  | .commit => { s with commit := state }
  | .replication => { s with replication := state }

def setWriter (i : Nat) (writer : Writer) : MarkSystem :=
  { s with writers := s.writers.set i writer }

def setReader (id : Nat) (reader : Reader) : MarkSystem :=
  { s with readers := Function.update s.readers id reader }

/-- The next step of a task. -/
def perform (i : Nat) (writer : Writer) : Option MarkSystem :=
  match writer.marking, writer.todo with
  | some ⟨kind, lsn, false⟩, _ =>
    some ((s.setWriter i { writer with marking := some ⟨kind, lsn, true⟩ }).setLsnState kind
      { s.lsnState kind with current := lsn })
  | some ⟨kind, lsn, true⟩, _ =>
    some ((s.setWriter i { writer with marking := none }).setLsnState kind { s.lsnState kind with watched := lsn })
  | none, .deliver lsn :: todo => some { s.setWriter i ⟨none, todo⟩ with queue := s.queue ++ [lsn] }
  | none, .mark kind lsn :: todo =>
    some (s.setWriter i ⟨if (s.lsnState kind).current < lsn then some ⟨kind, lsn, false⟩ else none, todo⟩)
  | none, .added :: todo => some { s.setWriter i ⟨none, todo⟩ with isAdded := true }
  | none, [] => none

/-- The loop of `try_read`, up to its decision. -/
def readerNext (id : Nat) : Option MarkSystem :=
  match s.readers id with
  | .looping requested => some (s.setReader id (.loopSnapshot requested s.snapshotLsn))
  | .loopSnapshot requested snapshotLsn =>
    some (s.setReader id (.loopCommit requested snapshotLsn s.commit.watched))
  | .loopCommit requested snapshotLsn commitLsn =>
    some (s.setReader id
      (if !ReadStateManager.sanityCheck snapshotLsn s.replication.watched commitLsn then .panicked
      else if ReadStateManager.canSatisfyReadFromSnapshot requested snapshotLsn s.replication.watched commitLsn
        then .refreshing requested snapshotLsn s.replication.watched commitLsn
      else .looping requested))
  | .refreshing _ _ _ _ => some (s.setReader id .idle)
  | _ => none

/-- One step, if it is possible. The sink has events of a table only when it has the table. -/
def next : MarkAction → Option MarkSystem
  | .start i task =>
    if s.writers[i]? = some ⟨none, []⟩ ∧ (task.isOfTable = true → s.isAdded = true) ∧
        (task.isAddTable = true → s.isAdding = false) then
      some { s.setWriter i ⟨none, task.ops s.persistLsn⟩ with isAdding := s.isAdding || task.isAddTable }
    else none
  | .writerStep i => do s.perform i (← s.writers[i]?)
  | .processCommit =>
    match s.queue with
    | [] => none
    | lsn :: queue =>
      if s.persistLsn.any (lsn ≤ ·) then some { s with queue }
      else some { s with queue, commitLsnBaseline := lsn }
  | .createSnapshot =>
    if s.snapshotOngoing then none
    else some { s with
      snapshotVersion := if s.commitLsnBaseline != 0 then s.commitLsnBaseline else s.snapshotVersion
      snapshotOngoing := true }
  | .notifySnapshotReader =>
    if s.snapshotOngoing then some { s with snapshotLsn := s.snapshotVersion, snapshotOngoing := false } else none
  | .tryRead id requested =>
    if s.readers id = .idle then some (s.setReader id (.looping requested)) else none
  | .readerStep id => s.readerNext id

def run (actions : List MarkAction) : Option MarkSystem := actions.foldlM next s

end MarkSystem

end Moonlink.UnionRead
