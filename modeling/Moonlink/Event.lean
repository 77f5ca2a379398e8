-- SUMMARY: The events a table handler receives, and the panics of the modelled code.
import Moonlink.Lib.AssocMap

/-!
# Table events

`TableEvent` is the alphabet of a table's event queue, as far as ingestion,
recovery and the initial copy use it. Rows are opaque: every result holds for
any row type. LSNs and transaction ids are natural numbers, since the code only
compares them.

Code that can fail an assertion returns `Except Panic`. Blocks under
`cfg(any(debug_assertions, test))` and `debug_assert!` only run in a debug build,
so functions that contain one take the `Build`.
-/

namespace Moonlink

open Lib

abbrev XactId : Type := Nat

/-- The build profile, which decides whether debug assertions are compiled in. -/
inductive Build where
  | debug
  | release
  deriving DecidableEq, Repr

/-- The places where the modelled code panics: failed assertions,
`unimplemented!`, and `unwrap` or `expect` on nothing. -/
inductive Panic where
  /-- `TableEvent::is_recovery` and `set_is_recovery` on an event without the flag. -/
  | noRecoveryFlag
  /-- `WalManager::push`: recovery events should not be added to the WAL. -/
  | recoveryEventInWal
  /-- An event kind outside the match of `WalEvent::new`, `get_updated_xact_state`
  or `should_reapply_wal_event`. -/
  | eventNotSupportedForWal
  /-- `WalManager::push`: the highest seen LSN exceeds a new commit LSN. -/
  | walCommitLsnRegressed
  /-- `update_transaction_tracking`: a commit is expected before the last main state. -/
  | expectedMainCommit
  /-- `check_completed_xact_consistent_with_iceberg_snapshot`. -/
  | completionFileTruncated
  /-- `get_files_to_truncate`: the lowest file to keep precedes the oldest live file. -/
  | lowestFileAlreadyTruncated
  /-- `update_trackers_for_persistence_update_result`: the live files differ from the metadata. -/
  | liveFilesDifferFromMetadata
  /-- `update_trackers_for_persistence_update_result`: a tracked completion is at or
  below the snapshot LSN. -/
  | capturedXactStillTracked
  /-- `update_trackers_for_persistence_update_result`: the metadata misses a transaction. -/
  | xactMissingInMetadata
  /-- `should_reapply_wal_event`: an untracked streaming commit that no snapshot captured. -/
  | untrackedXactNotCaptured
  /-- `commit` and `commit_transaction_stream`: the commit LSN is below the baseline. -/
  | commitLsnBelowBaseline
  /-- `commit`: the commit LSN is not above the LSN of the last deletion. -/
  | commitLsnNotAboveDeletion
  /-- `flush`: the flush LSN is below the next flush LSN. -/
  | flushLsnRegressed
  /-- `try_set_next_flush_lsn`: the next flush LSN would decrease, or is not set. -/
  | nextFlushLsnRegressed
  /-- `insert_ongoing_flush_lsn`: the flush LSN is below the last one. -/
  | flushLsnBelowLast
  /-- `remove_ongoing_flush_lsn`: no flush with this LSN is ongoing. -/
  | flushLsnNotTracked
  /-- A streaming transaction without a stream state is flushed, committed or aborted. -/
  | streamStateNotFound
  /-- `process_cdc_table_event`: a streaming delete must not be a delete-if-exists. -/
  | streamDeleteIfExists
  /-- `start_initial_copy` and `finish_initial_copy`: the table is in another state. -/
  | unexpectedTableState
  /-- `process_cdc_table_event` and the event loop: unreachable event kinds. -/
  | unexpectedEvent
  /-- `persist_iceberg_snapshot`: the table manager is away with an earlier snapshot. -/
  | icebergTableManagerTaken
  /-- `reset_iceberg_state_at_mooncake_snapshot`: a snapshot is ongoing while a result waits. -/
  | unexpectedPersistenceState
  /-- `assert_flush_lsn_on_persistence_snapshot_res`. -/
  | persistenceLsnRegressed
  deriving DecidableEq, Repr

/-- `assert!(c)`. -/
def assert (c : Bool) (p : Panic) : Except Panic Unit :=
  if c then .ok () else .error p

/-- `debug_assert!(c)`, or an assertion inside a debug-only block. -/
def Build.assert (b : Build) (c : Bool) (p : Panic) : Except Panic Unit :=
  match b with
  | .debug => Moonlink.assert c p
  | .release => .ok ()

@[simp] theorem assert_eq_ok_iff {c : Bool} {p : Panic} {u : Unit} :
    Moonlink.assert c p = .ok u ↔ c = true := by
  cases c <;> simp [Moonlink.assert]

/-- Events of a table's queue. Files of `loadFiles` stand for the rows they hold. -/
inductive TableEvent (Row : Type) where
  | append (row : Row) (xactId : Option XactId) (lsn : Nat) (isRecovery : Bool)
  | delete (row : Row) (lsn : Nat) (xactId : Option XactId) (deleteIfExists isRecovery : Bool)
  | commit (lsn : Nat) (xactId : Option XactId) (isRecovery : Bool)
  | streamAbort (xactId : XactId) (isRecovery closesIncompleteWalTransaction : Bool)
  | loadFiles (files : List (List Row)) (lsn : Nat)
  | commitFlush (lsn : Nat) (xactId : Option XactId) (isRecovery : Bool)
  | streamFlush (xactId : XactId) (isRecovery : Bool)
  | startInitialCopy
  | finishInitialCopy (startLsn : Nat)
  | finishRecovery (highestCompletionLsn : Nat)
  deriving DecidableEq, Repr

namespace TableEvent

variable {Row : Type}

/-- The events `process_cdc_table_event` handles. `commitFlush` and `streamFlush`
are test events: outside test builds they are no ingest events. -/
def isIngestEvent : TableEvent Row → Bool
  | append .. | delete .. | commit .. | streamAbort .. => true
  | _ => false

/-- Whether the event belongs to a streaming transaction. -/
def isStreamingUpdate : TableEvent Row → Bool
  | append _ x _ _ => x.isSome
  | delete _ _ x _ _ => x.isSome
  | streamAbort .. => true
  | commit _ x _ => x.isSome
  | commitFlush _ x _ => x.isSome
  | streamFlush .. => true
  | _ => false

def getLsnForIngestEvent : TableEvent Row → Option Nat
  | append _ _ lsn _ => some lsn
  | delete _ lsn _ _ _ => some lsn
  | commit lsn _ _ => some lsn
  | streamAbort .. => none
  | commitFlush lsn _ _ => some lsn
  | _ => none

def isRecovery : TableEvent Row → Except Panic Bool
  | append _ _ _ r | delete _ _ _ _ r | commit _ _ r | streamAbort _ r _
  | commitFlush _ _ r | streamFlush _ r => .ok r
  | _ => .error .noRecoveryFlag

def setIsRecovery (r : Bool) : TableEvent Row → Except Panic (TableEvent Row)
  | append row x lsn _ => .ok (append row x lsn r)
  | delete row lsn x d _ => .ok (delete row lsn x d r)
  | commit lsn x _ => .ok (commit lsn x r)
  | streamAbort x _ c => .ok (streamAbort x r c)
  | commitFlush lsn x _ => .ok (commitFlush lsn x r)
  | streamFlush x _ => .ok (streamFlush x r)
  | _ => .error .noRecoveryFlag

end TableEvent
end Moonlink
