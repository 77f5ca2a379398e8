-- SUMMARY: The WAL manager: pushing events, preparing a persistence update and handling its completion.
import Moonlink.Lib.Panics
import Moonlink.Wal.Event

/-!
# The WAL manager

There is one manager per table. It buffers events, assigns them to numbered
files, and tracks the transactions that the Iceberg snapshot may still miss, so
that files can be truncated. Maps are association lists, so an iteration over
`active_transactions` visits the entries in list order where the code has an
unspecified order. The table id is left out.
-/

namespace Moonlink

open Lib

/-- WAL metadata, the single source of truth for the persisted WAL upon recovery. -/
structure PersistentWalMetadata where
  currFileNumber : Nat
  highestCompletionLsn : Nat
  liveWalFilesTracker : List WalFileInfo
  activeTransactions : AssocMap XactId WalTransactionState
  mainTransactionTracker : List WalTransactionState
  persistenceSnapshotLsn : Option Nat

/-- Everything the background task needs to update the persisted WAL. -/
structure PreparePersistentUpdate (Row : Type) where
  persistentWalMetadata : PersistentWalMetadata
  filesToDelete : List WalFileInfo
  accompanyingPersistenceSnapshotLsn : Option Nat
  filesToPersist : Option (List (WalEvent Row) × WalFileInfo)

def PreparePersistentUpdate.shouldDoPersistence {Row : Type}
    (u : PreparePersistentUpdate Row) : Bool :=
  u.filesToPersist.isSome || !u.filesToDelete.isEmpty

structure WalManager (Row : Type) where
  inMemBuf : List (WalEvent Row)
  highestCompletionLsn : Nat
  liveWalFilesTracker : List WalFileInfo
  currFileNumber : Nat
  activeTransactions : AssocMap XactId WalTransactionState
  mainTransactionTracker : List WalTransactionState

namespace WalManager

variable {Row : Type}

def new : WalManager Row where
  inMemBuf := []
  highestCompletionLsn := 0
  liveWalFilesTracker := []
  currFileNumber := 0
  activeTransactions := ∅
  mainTransactionTracker := []

/-! ## Tracking data structures -/

variable (w : WalManager Row)

def computeUpdatedLiveWalFileTracker (filesToDelete : List WalFileInfo)
    (filesToPersist : Option WalFileInfo) : List WalFileInfo :=
  let live := match filesToDelete.getLast? with
    | none => w.liveWalFilesTracker
    | some f => w.liveWalFilesTracker.filter fun g => f.fileNumber + 1 ≤ g.fileNumber
  match filesToPersist with
  | some f => live ++ [f]
  | none => live

/-- Remove all transactions that the most recent Iceberg snapshot captures. -/
def computeCleanedupXacts (b : Build) (w : WalManager Row) (persistenceSnapshotLsn : Option Nat)
    (filesToDelete : List WalFileInfo) :
    Except Panic (AssocMap XactId WalTransactionState × List WalTransactionState) := do
  match persistenceSnapshotLsn with
  | none => return (w.activeTransactions, w.mainTransactionTracker)
  | some lsn =>
    let lowestFileKept := filesToDelete.getLast?.map fun f => f.fileNumber + 1
    b.assert
      (w.activeTransactions.values.all (·.consistentWithIcebergSnapshot lsn lowestFileKept) &&
        w.mainTransactionTracker.all (·.consistentWithIcebergSnapshot lsn lowestFileKept))
      .completionFileTruncated
    return (w.activeTransactions.retain fun _ st => !st.isCapturedInIcebergSnapshot lsn,
      w.mainTransactionTracker.filter fun st => !st.isCapturedInIcebergSnapshot lsn)

/-! ## Inserting events -/

def getUpdatedXactState (e : TableEvent Row) (st : WalTransactionState)
    (highestCompletionLsn currFileNumber : Nat) : Except Panic WalTransactionState :=
  match e with
  | .append .. | .delete .. | .streamFlush .. => .ok (.open st.getStartFile)
  | .commit lsn _ _ | .commitFlush lsn _ _ => .ok (.commit st.getStartFile lsn currFileNumber)
  | .streamAbort .. => .ok (.abort st.getStartFile highestCompletionLsn currFileNumber)
  | _ => .error .eventNotSupportedForWal

/-- The transaction id that tracking goes by. Only these four kinds are looked
at; anything else is tracked as the main transaction. -/
def trackedXactId : TableEvent Row → Option XactId
  | .append _ x _ _ => x
  | .delete _ _ x _ _ => x
  | .commit _ x _ => x
  | .streamAbort x _ _ => some x
  | _ => none

/-- The state the main transaction continues from, and the tracker without it. -/
def popOpenMain : WalTransactionState × List WalTransactionState :=
  match w.mainTransactionTracker.getLast? with
  | some st =>
    if st.isClosed then (.open w.currFileNumber, w.mainTransactionTracker)
    else (st, w.mainTransactionTracker.dropLast)
  | none => (.open w.currFileNumber, w.mainTransactionTracker)

/-- Push a main state, where for each file only the highest commit that starts in
it is kept. -/
def pushMain (b : Build) (tracker : List WalTransactionState) (updated : WalTransactionState) :
    Except Panic (List WalTransactionState) := do
  match updated, tracker.getLast? with
  | .commit _ _ currFileEnd, some (.commit prevStartFile _ _) =>
    return (if prevStartFile = currFileEnd then tracker.dropLast else tracker) ++ [updated]
  | .commit .., some _ =>
    b.assert false .expectedMainCommit
    return tracker ++ [updated]
  | _, _ => return tracker ++ [updated]

/-- Update transaction tracking when a new event is inserted. -/
def updateTransactionTracking (b : Build) (w : WalManager Row) (e : TableEvent Row) :
    Except Panic (WalManager Row) := do
  match trackedXactId e with
  | some x =>
    let old := (w.activeTransactions.lookup x).getD (.open w.currFileNumber)
    let updated ← getUpdatedXactState e old w.highestCompletionLsn w.currFileNumber
    return { w with activeTransactions := w.activeTransactions.insert x updated }
  | none =>
    let updated ← getUpdatedXactState e w.popOpenMain.1 w.highestCompletionLsn w.currFileNumber
    let tracker ← pushMain b w.popOpenMain.2 updated
    return { w with mainTransactionTracker := tracker }

/-- The commit LSN that `push` checks against the highest seen LSN. -/
def commitLsn? : TableEvent Row → Option Nat
  | .commit lsn _ _ | .commitFlush lsn _ _ => some lsn
  | _ => none

/-- Update the highest LSN if this is a commit. -/
def updateHighestCompletionLsn (e : TableEvent Row) : Except Panic Nat :=
  match commitLsn? e with
  | some lsn => do
    assert (lsn = 0 || w.highestCompletionLsn ≤ lsn) .walCommitLsnRegressed
    return lsn
  | none => .ok w.highestCompletionLsn

def push (b : Build) (w : WalManager Row) (e : TableEvent Row) : Except Panic (WalManager Row) := do
  let isRecovery ← e.isRecovery
  assert (!isRecovery) .recoveryEventInWal
  let walEvent ← WalEvent.new e
  let highest ← w.updateHighestCompletionLsn e
  updateTransactionTracking b
    { w with inMemBuf := w.inMemBuf ++ [walEvent], highestCompletionLsn := highest } e

/-! ## Preparing for truncation -/

/-- The lowest file that must be kept: the lowest start file of a transaction that
the snapshot does not capture, or the next file number if there is none. -/
def getLowestFileToKeep (truncateFromLsn : Nat) : Nat :=
  let streaming := (w.activeTransactions.values.filter fun st =>
    !st.isCapturedInIcebergSnapshot truncateFromLsn).map (·.getStartFile)
  let main := (w.mainTransactionTracker.find? fun st =>
    !st.isCapturedInIcebergSnapshot truncateFromLsn).map (·.getStartFile)
  ((streaming ++ main.toList).min?).getD w.currFileNumber

def getFilesToTruncate (persistenceSnapshotLsn : Nat) : Except Panic (List WalFileInfo) := do
  let lowest := w.getLowestFileToKeep persistenceSnapshotLsn
  assert (w.liveWalFilesTracker.head?.all (·.fileNumber ≤ lowest)) .lowestFileAlreadyTruncated
  return w.liveWalFilesTracker.filter fun f => f.fileNumber < lowest

/-! ## Preparing for persistence -/

/-- Take all events of the in-memory buffer as the contents of the next file. -/
def extractNextPersistenceFile : WalManager Row × Option (List (WalEvent Row) × WalFileInfo) :=
  if w.inMemBuf.isEmpty then (w, none)
  else
    ({ w with inMemBuf := [], currFileNumber := w.currFileNumber + 1 },
      some (w.inMemBuf, ⟨w.currFileNumber, w.highestCompletionLsn⟩))

def prepareMetadata (b : Build) (w : WalManager Row) (persistenceSnapshotLsn : Option Nat)
    (filesToDelete : List WalFileInfo) (filesToPersist : Option WalFileInfo) :
    Except Panic PersistentWalMetadata := do
  let (active, main) ← w.computeCleanedupXacts b persistenceSnapshotLsn filesToDelete
  return {
    currFileNumber := w.currFileNumber
    highestCompletionLsn := w.highestCompletionLsn
    liveWalFilesTracker := w.computeUpdatedLiveWalFileTracker filesToDelete filesToPersist
    activeTransactions := active
    mainTransactionTracker := main
    persistenceSnapshotLsn }

/-- The files that a snapshot allows to truncate, if there is a snapshot. -/
def getFilesToTruncateFor (persistenceSnapshotLsn : Option Nat) : Except Panic (List WalFileInfo) :=
  match persistenceSnapshotLsn with
  | some lsn => w.getFilesToTruncate lsn
  | none => .ok []

def preparePersistentUpdate (b : Build) (w : WalManager Row) (persistenceSnapshotLsn : Option Nat) :
    Except Panic (WalManager Row × PreparePersistentUpdate Row) := do
  let filesToTruncate ← w.getFilesToTruncateFor persistenceSnapshotLsn
  let next := w.extractNextPersistenceFile
  let metadata ← next.1.prepareMetadata b persistenceSnapshotLsn filesToTruncate
    (next.2.map (·.2))
  return (next.1, ⟨metadata, filesToTruncate, persistenceSnapshotLsn, next.2⟩)

/-! ## Handling a completed persistence update -/

/-- The debug checks on the trackers after a persistence update: the live files
are those of the metadata, and a completed streaming transaction that was kept is
not captured and, if it completed by the persisted LSN, is in the metadata. -/
def checkTrackers (b : Build) (w : WalManager Row) (u : PreparePersistentUpdate Row) :
    Except Panic Unit := do
  let m := u.persistentWalMetadata
  b.assert (w.liveWalFilesTracker = m.liveWalFilesTracker) .liveFilesDifferFromMetadata
  b.assert (w.activeTransactions.values.all fun
    | .commit _ lsn _ => match u.accompanyingPersistenceSnapshotLsn with
      | some snapshotLsn => snapshotLsn < lsn
      | none => true
    | _ => true) .capturedXactStillTracked
  b.assert (w.activeTransactions.entries.all fun
    | ⟨x, .commit _ lsn _⟩ =>
      m.highestCompletionLsn < lsn || (m.activeTransactions.lookup x).isSome
    | _ => true) .xactMissingInMetadata

def updateTrackersForPersistenceUpdateResult (b : Build) (w : WalManager Row)
    (u : PreparePersistentUpdate Row) : Except Panic (WalManager Row) := do
  let live := w.computeUpdatedLiveWalFileTracker u.filesToDelete (u.filesToPersist.map (·.2))
  let (active, main) ← w.computeCleanedupXacts b u.accompanyingPersistenceSnapshotLsn
    u.filesToDelete
  let w' := { w with
    liveWalFilesTracker := live
    activeTransactions := active
    mainTransactionTracker := main }
  w'.checkTrackers b u
  return w'

/-- Update tracked files and transactions after a persistence update. Also returns
the highest LSN that has been persisted into the WAL. -/
def handleCompleteWalPersistenceUpdate (b : Build) (w : WalManager Row)
    (u : PreparePersistentUpdate Row) : Except Panic (WalManager Row × Option Nat) := do
  let w' ← w.updateTrackersForPersistenceUpdateResult b u
  return (w', u.filesToPersist.map (·.2.highestLsn))

/-! ## Recovery -/

def fromPersistentWalMetadata (m : PersistentWalMetadata) : WalManager Row where
  inMemBuf := []
  highestCompletionLsn := m.highestCompletionLsn
  liveWalFilesTracker := m.liveWalFilesTracker
  currFileNumber := m.currFileNumber
  activeTransactions := m.activeTransactions
  mainTransactionTracker := m.mainTransactionTracker

end WalManager
end Moonlink
