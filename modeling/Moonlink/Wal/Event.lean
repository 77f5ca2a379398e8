-- SUMMARY: WAL events, their conversion from and to table events, and the states of tracked transactions.
import Moonlink.Event

/-!
# WAL events and transaction states

A WAL event is a table event without its recovery flags. A transaction in the
WAL is open, committed or aborted; its state records the file of its first event
and, once it is closed, its completion LSN and the file of its last event.
-/

namespace Moonlink

inductive WalEvent (Row : Type) where
  | append (row : Row) (xactId : Option XactId) (lsn : Nat)
  | delete (row : Row) (lsn : Nat) (xactId : Option XactId) (deleteIfExists : Bool)
  | commit (lsn : Nat) (xactId : Option XactId)
  | streamAbort (xactId : XactId)
  | streamFlush (xactId : XactId)
  deriving DecidableEq, Repr

namespace WalEvent

variable {Row : Type}

def new : TableEvent Row → Except Panic (WalEvent Row)
  | .append row x lsn _ => .ok (append row x lsn)
  | .delete row lsn x d _ => .ok (delete row lsn x d)
  | .commit lsn x _ => .ok (commit lsn x)
  | .streamAbort x _ _ => .ok (streamAbort x)
  | .commitFlush lsn x _ => .ok (commit lsn x)
  | .streamFlush x _ => .ok (streamFlush x)
  | _ => .error .eventNotSupportedForWal

def intoTableEvent : WalEvent Row → TableEvent Row
  | append row x lsn => .append row x lsn false
  | delete row lsn x d => .delete row lsn x d false
  | commit lsn x => .commit lsn x false
  | streamAbort x => .streamAbort x false false
  | streamFlush x => .streamFlush x false

/-- The transaction an event belongs to: a streaming transaction or, for `none`,
the main transaction. -/
def xactId : WalEvent Row → Option XactId
  | append _ x _ => x
  | delete _ _ x _ => x
  | commit _ x => x
  | streamAbort x => some x
  | streamFlush x => some x

/-- Row events: what a transaction does to the table. -/
def isRow : WalEvent Row → Bool
  | append .. | delete .. => true
  | _ => false

def isStreamAbort : WalEvent Row → Bool
  | streamAbort _ => true
  | _ => false

/-- Decoding an encoded ingest event gives the event back, up to the flag that
marks the aborts sent by recovery. -/
theorem new_intoTableEvent (e : WalEvent Row) : new e.intoTableEvent = .ok e := by
  cases e <;> rfl

end WalEvent

structure WalFileInfo where
  fileNumber : Nat
  highestLsn : Nat
  deriving DecidableEq, Repr

inductive WalTransactionState where
  | commit (startFile : Nat) (completionLsn : Nat) (fileEnd : Nat)
  | abort (startFile : Nat) (completionLsn : Nat) (fileEnd : Nat)
  | open (startFile : Nat)
  deriving DecidableEq, Repr

namespace WalTransactionState

def getStartFile : WalTransactionState → Nat
  | .open startFile => startFile
  | .commit startFile _ _ => startFile
  | .abort startFile _ _ => startFile

def getCompletionLsnAndFile : WalTransactionState → Option (Nat × Nat)
  | .open _ => none
  | .commit _ completionLsn fileEnd => some (completionLsn, fileEnd)
  | .abort _ completionLsn fileEnd => some (completionLsn, fileEnd)

def isClosed (st : WalTransactionState) : Bool := st.getCompletionLsnAndFile.isSome

/-- The transaction completed by the snapshot LSN. The consistency check against
the lowest kept file is `consistentWithIcebergSnapshot`. -/
def isCapturedInIcebergSnapshot (st : WalTransactionState) (persistenceSnapshotLsn : Nat) : Bool :=
  match st.getCompletionLsnAndFile with
  | some (completionLsn, _) => completionLsn ≤ persistenceSnapshotLsn
  | none => false

/-- The debug check that `is_captured_in_iceberg_snapshot` runs once the lowest
kept file is known: a transaction completed after the snapshot does not end in a
truncated file. -/
def consistentWithIcebergSnapshot (st : WalTransactionState) (persistenceSnapshotLsn : Nat)
    (lowestFileKept : Option Nat) : Bool :=
  match st.getCompletionLsnAndFile, lowestFileKept with
  | some (completionLsn, completionFile), some lowest =>
    completionLsn ≤ persistenceSnapshotLsn || lowest ≤ completionFile
  | _, _ => true

@[simp] theorem isCaptured_open (f : Nat) (lsn : Nat) :
    (WalTransactionState.open f).isCapturedInIcebergSnapshot lsn = false := rfl

@[simp] theorem isCaptured_commit (f : Nat) (l : Nat) (e : Nat) (lsn : Nat) :
    (commit f l e).isCapturedInIcebergSnapshot lsn = decide (l ≤ lsn) := rfl

@[simp] theorem isCaptured_abort (f : Nat) (l : Nat) (e : Nat) (lsn : Nat) :
    (abort f l e).isCapturedInIcebergSnapshot lsn = decide (l ≤ lsn) := rfl

/-- A later snapshot captures whatever an earlier one captured. -/
theorem isCaptured_mono {st : WalTransactionState} {lsn lsn' : Nat} (hle : lsn ≤ lsn')
    (h : st.isCapturedInIcebergSnapshot lsn = true) :
    st.isCapturedInIcebergSnapshot lsn' = true := by
  cases st with
  | «open» f => exact h
  | commit f l e => simp only [isCaptured_commit, decide_eq_true_eq] at h ⊢; omega
  | abort f l e => simp only [isCaptured_abort, decide_eq_true_eq] at h ⊢; omega

end WalTransactionState
end Moonlink
