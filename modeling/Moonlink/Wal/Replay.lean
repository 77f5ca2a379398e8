-- SUMMARY: Recovery: reading the live WAL files back and forwarding the events that must be reapplied.
import Moonlink.Wal.Manager

/-!
# WAL replay

On recovery the live WAL files are read in order. An event is forwarded to the
table handler if `should_reapply_wal_event` says so, then every transaction that
is open in the metadata is closed by a stream abort, and a `finishRecovery`
event ends the recovery. The events that reached the handler are part of the
outcome even when the replay panics on a later event.
-/

namespace Moonlink

open Lib

namespace WalManager

variable {Row : Type}

/-- Returns true if the lsn is before the last iceberg snapshot lsn. -/
def eventAlreadyCapturedInIcebergSnapshot (lsn : Nat) (lastPersistenceSnapshotLsn : Option Nat) :
    Bool :=
  match lastPersistenceSnapshotLsn with
  | some snapshotLsn => lsn ≤ snapshotLsn
  | none => false

/-- The streaming branch of `should_reapply_wal_event`, by the tracked state of the
transaction. `commitLsn` is the LSN of the event if it is a commit. -/
def shouldReapplyStreaming (b : Build) (st : Option WalTransactionState) (commitLsn : Option Nat)
    (lastPersistenceSnapshotLsn : Option Nat) : Except Panic Bool :=
  match st with
  | some (.commit _ completionLsn _) | some (.abort _ completionLsn _) =>
    .ok !eventAlreadyCapturedInIcebergSnapshot completionLsn lastPersistenceSnapshotLsn
  | some (.open _) => .ok false
  | none => do
    match commitLsn with
    | some lsn =>
      b.assert (eventAlreadyCapturedInIcebergSnapshot lsn lastPersistenceSnapshotLsn)
        .untrackedXactNotCaptured
    | none => pure ()
    return false

/-- The main branch of `should_reapply_wal_event`, by the LSN of the event. -/
def shouldReapplyMain (lsn highestCommittedLsn : Nat) (lastPersistenceSnapshotLsn : Option Nat) :
    Bool :=
  let alreadyCaptured := match lastPersistenceSnapshotLsn with
    | some snapshotLsn => decide (lsn ≤ snapshotLsn)
    | none => false
  !alreadyCaptured && decide (lsn ≤ highestCommittedLsn)

/-- Reapply the events of transactions that are committed at the time of recovery,
except those that the Iceberg snapshot already captures. -/
def shouldReapplyWalEvent (b : Build) (e : TableEvent Row)
    (xactMap : AssocMap XactId WalTransactionState) (highestCommittedLsn : Nat)
    (lastPersistenceSnapshotLsn : Option Nat) : Except Panic Bool :=
  match e with
  | .append _ (some x) _ _ | .delete _ _ (some x) _ _ =>
    shouldReapplyStreaming b (xactMap.lookup x) none lastPersistenceSnapshotLsn
  | .commit lsn (some x) _ =>
    shouldReapplyStreaming b (xactMap.lookup x) (some lsn) lastPersistenceSnapshotLsn
  | .append _ none lsn _ | .delete _ lsn none _ _ | .commit lsn none _ =>
    .ok (shouldReapplyMain lsn highestCommittedLsn lastPersistenceSnapshotLsn)
  | .commitFlush .. | .streamFlush .. => .ok false
  | _ => .error .eventNotSupportedForWal

/-- The file numbers that recovery reads: all from the first to the last live file. -/
def filesToRecover (m : PersistentWalMetadata) : List Nat :=
  match m.liveWalFilesTracker.head?, m.liveWalFilesTracker.getLast? with
  | some first, some last => List.range' first.fileNumber (last.fileNumber + 1 - first.fileNumber)
  | _, _ => []

/-- The flat stream of recovered events. A file that cannot be read or parsed is an
error item of the stream, which the replay skips. -/
def recoverFlushedWalsFlat (read : Nat → Option (List (WalEvent Row)))
    (m : PersistentWalMetadata) : List (TableEvent Row) :=
  (filesToRecover m).flatMap fun n => ((read n).getD []).map (·.intoTableEvent)

/-- What a replay sent to the table handler, and whether it ran to its end. -/
structure ReplayOutcome (Row : Type) where
  sent : List (TableEvent Row)
  result : Except Panic Unit

/-- The loop over the recovered events. -/
def replayEvents (b : Build) (m : PersistentWalMetadata) (lastPersistenceSnapshotLsn : Option Nat) :
    List (TableEvent Row) → ReplayOutcome Row
  | [] => ⟨[], .ok ()⟩
  | e :: rest =>
    match shouldReapplyWalEvent b e m.activeTransactions m.highestCompletionLsn
        lastPersistenceSnapshotLsn with
    | .error p => ⟨[], .error p⟩
    | .ok false => replayEvents b m lastPersistenceSnapshotLsn rest
    | .ok true =>
      match e.setIsRecovery true with
      | .error p => ⟨[], .error p⟩
      | .ok e' =>
        let outcome := replayEvents b m lastPersistenceSnapshotLsn rest
        ⟨e' :: outcome.sent, outcome.result⟩

/-- The aborts that close the transactions which the source will send again. -/
def closeIncompleteXacts (active : AssocMap XactId WalTransactionState) : List (TableEvent Row) :=
  active.entries.filterMap fun
    | ⟨x, .open _⟩ => some (.streamAbort x false true)
    | _ => none

def replayRecoveryFromWal (b : Build) (metadata : Option PersistentWalMetadata)
    (read : Nat → Option (List (WalEvent Row))) (lastPersistenceSnapshotLsn : Option Nat) :
    ReplayOutcome Row :=
  match metadata with
  | none => ⟨[], .ok ()⟩
  | some m =>
    if m.liveWalFilesTracker.isEmpty then ⟨[], .ok ()⟩
    else
      let outcome := replayEvents b m lastPersistenceSnapshotLsn (recoverFlushedWalsFlat read m)
      match outcome.result with
      | .error p => ⟨outcome.sent, .error p⟩
      | .ok () =>
        ⟨outcome.sent ++ closeIncompleteXacts m.activeTransactions ++
          [.finishRecovery m.highestCompletionLsn], .ok ()⟩

end WalManager
end Moonlink
