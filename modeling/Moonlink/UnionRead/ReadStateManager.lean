-- SUMMARY: Union reads: the decisions of the read state manager, and its steps interleaved with the sink and with snapshots.
import Mathlib.Data.Nat.Bitwise

/-!
# The read state manager

A read of a table looks at three LSNs that other tasks publish: the LSN of the mooncake
snapshot, the commit LSN of the table and the replication LSN. From these it decides
whether the cached read state can be returned, whether the current snapshot can be read,
or whether it has to wait.

A read state is modelled by the transactions it shows, given by their commit LSNs. The
refresh of the cache holds the locks of the snapshot and of the cached state from its
start to its end, so it is one step.
-/

namespace Moonlink.UnionRead

/-- `u64::MAX`. -/
def u64Max : Nat := 2 ^ 64 - 1

/-- There are no preceding read operations. -/
def noReadLsn : Nat := u64Max

/-- There is no cached snapshot. -/
def noCacheLsn : Nat := u64Max

/-- There is no snapshot LSN update. -/
def noSnapshotLsn : Nat := u64Max

/-- There is no commit. -/
def noCommitLsn : Nat := 0

/-- The transactions that a read state shows. -/
abbrev ReadState : Type := List Nat

structure ReadStateManager where
  lastReadLsn : Nat
  lastReadState : ReadState
  deriving DecidableEq, Repr

/-- Where a read of the snapshot fails. -/
inductive ReadFailure where
  | requestRead
  | takeAsReadState
  deriving DecidableEq, Repr

namespace ReadStateManager

def new : ReadStateManager := ⟨noReadLsn, []⟩

def snapshotIsClean (snapshotLsn commitLsn : Nat) : Bool :=
  if snapshotLsn == noSnapshotLsn && commitLsn == noCommitLsn then true
  else snapshotLsn == commitLsn && snapshotLsn != noSnapshotLsn

def shouldUseCache (requested : Option Nat) (cachedLsn snapshotLsn commitLsn : Nat) : Bool :=
  if cachedLsn == noCacheLsn then false
  else match requested with
    | some bound =>
      cachedLsn == snapshotLsn && bound ≤ cachedLsn && snapshotIsClean snapshotLsn commitLsn
    | none => cachedLsn == snapshotLsn && snapshotIsClean snapshotLsn commitLsn

/-- The sanity check of `can_satisfy_read_from_snapshot`. -/
def sanityCheck (snapshotLsn replicationLsn commitLsn : Nat) : Bool :=
  (!(snapshotLsn != noSnapshotLsn && commitLsn != noCommitLsn) || snapshotLsn ≤ commitLsn) &&
    commitLsn ≤ replicationLsn

/-- What `can_satisfy_read_from_snapshot` decides after its sanity check. -/
def canSatisfyReadFromSnapshot (requested : Option Nat) (snapshotLsn replicationLsn commitLsn : Nat) :
    Bool :=
  match requested with
  | none => true
  | some reqLsn =>
    (snapshotLsn != noSnapshotLsn && reqLsn ≤ snapshotLsn) ||
      (reqLsn ≤ replicationLsn && snapshotIsClean snapshotLsn commitLsn)

/-- The cached state is older than the snapshot, or there is none. -/
def needsRefresh (m : ReadStateManager) (snapshotLsn : Nat) : Bool :=
  m.lastReadLsn < snapshotLsn || m.lastReadLsn == noReadLsn

/-- The LSN up to which a state that is read now counts as valid. -/
def effectiveLsn (m : ReadStateManager) (snapshotLsn replicationLsn commitLsn : Nat) : Nat :=
  if m.lastReadLsn == noReadLsn then snapshotLsn
  else if snapshotLsn == commitLsn && snapshotLsn < replicationLsn then replicationLsn
  else snapshotLsn

/-- Read the table snapshot, unless the cache is as new. The LSN of the cache is stored
between the two steps that can fail. -/
def readFromSnapshotAndUpdateCache (m : ReadStateManager) (tableSnapshot : ReadState)
    (snapshotLsn replicationLsn commitLsn : Nat) (failure : Option ReadFailure) :
    ReadStateManager × Except ReadFailure ReadState :=
  if m.needsRefresh snapshotLsn then
    let effectiveLsn := m.effectiveLsn snapshotLsn replicationLsn commitLsn
    match failure with
    | some .requestRead => (m, .error .requestRead)
    | some .takeAsReadState => ({ m with lastReadLsn := effectiveLsn }, .error .takeAsReadState)
    | none => (⟨effectiveLsn, tableSnapshot⟩, .ok tableSnapshot)
  else (m, .ok m.lastReadState)

end ReadStateManager

/-! ## Readers -/

/-- How far a call of `try_read` has got. -/
inductive Reader where
  | idle
  | loadedCache (requested : Option Nat) (cachedLsn : Nat)
  | sawSnapshot (requested : Option Nat) (cachedLsn snapshotLsn : Nat)
  /-- The cached state is taken next. -/
  | useCache (requested : Option Nat) (snapshotLsn : Nat)
  | looping (requested : Option Nat)
  | loopSnapshot (requested : Option Nat) (snapshotLsn : Nat)
  | loopCommit (requested : Option Nat) (snapshotLsn commitLsn : Nat)
  /-- The locks are taken next. -/
  | refreshing (requested : Option Nat) (snapshotLsn replicationLsn commitLsn : Nat)
  | returned (requested : Option Nat) (snapshotLsn : Nat) (state : ReadState)
  | failed (failure : ReadFailure)
  | panicked
  deriving DecidableEq, Repr

/-- A call of `try_read` ends with the result of reading the snapshot. -/
def Reader.ofResult (requested : Option Nat) (snapshotLsn : Nat) : Except ReadFailure ReadState → Reader
  | .ok state => .returned requested snapshotLsn state
  | .error failure => .failed failure

/-! ## The system -/

/-- The sink while it processes a commit that touched the table. -/
inductive Committing where
  /-- The commit LSN of the table is marked. -/
  | marked (lsn : Nat)
  /-- The commit is sent to the table. -/
  | delivered (lsn : Nat)

def Committing.lsn : Committing → Nat
  | marked lsn | delivered lsn => lsn

/-- The Iceberg snapshot that a table is loaded from, if there is one, with the transactions
it holds. -/
structure LoadedSnapshot where
  persistenceLsn : Option Nat
  xacts : List Nat
  xacts_le : ∀ lsn ∈ xacts, 0 < lsn ∧ ∃ p ∈ persistenceLsn, lsn ≤ p
  persistenceLsn_lt : ∀ p ∈ persistenceLsn, p < u64Max

structure ReadSystem where
  /-- The LSN of the Iceberg snapshot that was loaded at the start. -/
  persistenceLsn : Option Nat
  /-- The transactions of the table: those of the loaded snapshot and those whose commit
  the sink has begun to process. -/
  xacts : List Nat
  replicationLsn : Nat
  commitLsn : Nat
  maxKeepaliveLsnSeen : Nat
  /-- The LSN of the last commit of the stream, of any table. -/
  lastCommit : Nat
  committing : Option Committing
  /-- Commits that the table handler has not taken from its queue. -/
  queue : List Nat
  /-- What the table handler has applied. -/
  applied : List Nat
  commitLsnBaseline : Nat
  /-- The mooncake snapshot that readers see, with its version. -/
  tableSnapshot : ReadState
  snapshotVersion : Nat
  /-- A snapshot was created and its result is not handled. -/
  snapshotOngoing : Bool
  snapshotLsn : Nat
  manager : ReadStateManager
  readers : Nat → Reader

inductive ReadAction where
  /-- A commit or stream commit that touched the table: its commit LSN is marked. -/
  | markCommit (lsn : Nat)
  | deliver
  | markReplication
  /-- The commit of a transaction of other tables. -/
  | otherCommit (lsn : Nat)
  | primaryKeepAlive (walEnd : Nat)
  | processCommit
  | createSnapshot
  | notifySnapshotReader
  | tryRead (reader : Nat) (requested : Option Nat)
  /-- The next read of a published LSN, of the cached state, or of the snapshot. -/
  | readerStep (reader : Nat) (failure : Option ReadFailure)

namespace ReadSystem

/-- `build_table_components`: a table that is loaded. Other tables of the connection may have
marked the replication LSN. -/
def init (loaded : LoadedSnapshot) (replicationLsn : Nat) : ReadSystem where
  persistenceLsn := loaded.persistenceLsn
  xacts := loaded.xacts
  replicationLsn := max replicationLsn (loaded.persistenceLsn.getD 0)
  commitLsn := loaded.persistenceLsn.getD noCommitLsn
  maxKeepaliveLsnSeen := 0
  lastCommit := 0
  committing := none
  queue := []
  applied := loaded.xacts
  commitLsnBaseline := 0
  tableSnapshot := loaded.xacts
  snapshotVersion := loaded.persistenceLsn.getD 0
  snapshotOngoing := false
  snapshotLsn := loaded.persistenceLsn.getD noSnapshotLsn
  manager := .new
  readers _ := .idle

def setReader (s : ReadSystem) (id : Nat) (reader : Reader) : ReadSystem :=
  { s with readers := Function.update s.readers id reader }

/-- The transaction is in the Iceberg snapshot; its events are discarded. -/
def isPersisted (s : ReadSystem) (lsn : Nat) : Bool := s.persistenceLsn.any (lsn ≤ ·)

/-- Commit LSNs increase, and the sink asserts that they are not below a keepalive. What is
at or below the LSN of the loaded snapshot is in it. -/
def canCommit (s : ReadSystem) (lsn : Nat) : Bool :=
  s.committing.isNone && s.lastCommit < lsn && s.maxKeepaliveLsnSeen ≤ lsn && lsn < u64Max &&
    (!s.isPersisted lsn || s.xacts.contains lsn)

/-- A call of `try_read` goes on. -/
def readerNext (s : ReadSystem) (id : Nat) (failure : Option ReadFailure) : Option ReadSystem :=
  match s.readers id with
  | .loadedCache requested cachedLsn =>
    some (s.setReader id (.sawSnapshot requested cachedLsn s.snapshotLsn))
  | .sawSnapshot requested cachedLsn snapshotLsn =>
    some (s.setReader id
      (if ReadStateManager.shouldUseCache requested cachedLsn snapshotLsn s.commitLsn
        then .useCache requested snapshotLsn else .looping requested))
  | .useCache requested snapshotLsn =>
    some (s.setReader id (.returned requested snapshotLsn s.manager.lastReadState))
  | .looping requested => some (s.setReader id (.loopSnapshot requested s.snapshotLsn))
  | .loopSnapshot requested snapshotLsn =>
    some (s.setReader id (.loopCommit requested snapshotLsn s.commitLsn))
  | .loopCommit requested snapshotLsn commitLsn =>
    some (s.setReader id
      (if !ReadStateManager.sanityCheck snapshotLsn s.replicationLsn commitLsn then .panicked
      else if ReadStateManager.canSatisfyReadFromSnapshot requested snapshotLsn s.replicationLsn
          commitLsn
        then .refreshing requested snapshotLsn s.replicationLsn commitLsn
        -- Wait for a change, then look again.
        else .looping requested))
  | .refreshing requested snapshotLsn replicationLsn commitLsn =>
    let res := s.manager.readFromSnapshotAndUpdateCache s.tableSnapshot snapshotLsn replicationLsn
      commitLsn failure
    some (setReader { s with manager := res.1 } id (.ofResult requested snapshotLsn res.2))
  | _ => none

/-- One step, if it is possible. -/
def next (s : ReadSystem) : ReadAction → Option ReadSystem
  | .markCommit lsn =>
    if s.canCommit lsn then
      some { s with
        xacts := if s.xacts.contains lsn then s.xacts else s.xacts ++ [lsn]
        commitLsn := max s.commitLsn lsn
        lastCommit := lsn
        committing := some (.marked lsn) }
    else none
  | .deliver =>
    match s.committing with
    | some (.marked lsn) =>
      some { s with queue := s.queue ++ [lsn], committing := some (.delivered lsn) }
    | _ => none
  | .markReplication =>
    match s.committing with
    | some (.delivered lsn) =>
      some { s with replicationLsn := max s.replicationLsn lsn, committing := none }
    | _ => none
  | .otherCommit lsn =>
    if s.committing.isNone && s.lastCommit < lsn && s.maxKeepaliveLsnSeen ≤ lsn then
      some { s with replicationLsn := max s.replicationLsn lsn, lastCommit := lsn }
    else none
  | .primaryKeepAlive walEnd =>
    if s.committing.isNone && s.maxKeepaliveLsnSeen ≤ walEnd then
      some { s with
        replicationLsn := max s.replicationLsn walEnd
        maxKeepaliveLsnSeen := walEnd }
    else none
  | .processCommit =>
    match s.queue with
    | [] => none
    | lsn :: queue =>
      if s.isPersisted lsn then some { s with queue }
      else some { s with queue, applied := s.applied ++ [lsn], commitLsnBaseline := lsn }
  | .createSnapshot =>
    if s.snapshotOngoing then none
    else some { s with
      tableSnapshot := s.applied
      snapshotVersion := if s.commitLsnBaseline != 0 then s.commitLsnBaseline else s.snapshotVersion
      snapshotOngoing := true }
  | .notifySnapshotReader =>
    if s.snapshotOngoing then
      some { s with snapshotLsn := s.snapshotVersion, snapshotOngoing := false }
    else none
  | .tryRead id requested =>
    if s.readers id = .idle then
      some (s.setReader id (.loadedCache requested s.manager.lastReadLsn))
    else none
  | .readerStep id failure => s.readerNext id failure

/-- A run of the system. -/
def run (s : ReadSystem) (actions : List ReadAction) : Option ReadSystem := actions.foldlM next s

end ReadSystem
end Moonlink.UnionRead
