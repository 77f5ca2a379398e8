-- SUMMARY: What a log of WAL events means: the fate of each transaction and the events that a snapshot misses.
import Moonlink.Lib.Segments
import Moonlink.Lib.TailFilter
import Moonlink.Wal.Store

/-!
# Transaction histories

The meaning of a log, in terms of transactions and without any tracker. An event
belongs to the transaction that the next commit or abort with its transaction id
closes. Everything that the trackers are for is stated against the fate of a
transaction: a snapshot captures a transaction that committed by its LSN, an
aborted transaction needs no capture, and an open one is never captured.
-/

namespace Moonlink

open Lib

/-- How a transaction ends within a log. -/
inductive XactFate where
  | open
  | committed (lsn : Nat)
  | aborted
  deriving DecidableEq, Repr

namespace XactFate

/-- A snapshot with this LSN misses nothing of the transaction. -/
def isCaptured (persistenceSnapshotLsn : Option Nat) : XactFate → Bool
  | .open => false
  | .committed lsn =>
    WalManager.eventAlreadyCapturedInIcebergSnapshot lsn persistenceSnapshotLsn
  | .aborted => true

/-- The transaction committed, but the snapshot misses it. -/
def isLost (persistenceSnapshotLsn : Option Nat) : XactFate → Bool
  | .committed lsn =>
    !WalManager.eventAlreadyCapturedInIcebergSnapshot lsn persistenceSnapshotLsn
  | _ => false

end XactFate

/-- The order of snapshot LSNs, where no snapshot comes before every snapshot. -/
def snapshotLe : Option Nat → Option Nat → Prop
  | none, _ => True
  | some _, none => False
  | some lsn, some lsn' => lsn ≤ lsn'

theorem snapshotLe_refl (lsn : Option Nat) : snapshotLe lsn lsn := by
  cases lsn with
  | none => trivial
  | some l => exact Nat.le_refl l

theorem snapshotLe_trans {lsn₁ lsn₂ lsn₃ : Option Nat} (h₁ : snapshotLe lsn₁ lsn₂)
    (h₂ : snapshotLe lsn₂ lsn₃) : snapshotLe lsn₁ lsn₃ := by
  cases lsn₁ with
  | none => trivial
  | some l₁ =>
    cases lsn₂ with
    | none => exact h₁.elim
    | some l₂ =>
      cases lsn₃ with
      | none => exact h₂.elim
      | some l₃ => exact Nat.le_trans h₁ h₂

theorem alreadyCaptured_mono {l : Nat} {lsn lsn' : Option Nat} (hle : snapshotLe lsn lsn')
    (h : WalManager.eventAlreadyCapturedInIcebergSnapshot l lsn = true) :
    WalManager.eventAlreadyCapturedInIcebergSnapshot l lsn' = true := by
  cases lsn with
  | none => exact absurd h Bool.false_ne_true
  | some s =>
    cases lsn' with
    | none => exact hle.elim
    | some s' =>
      simp only [WalManager.eventAlreadyCapturedInIcebergSnapshot, decide_eq_true_eq] at h ⊢
      exact Nat.le_trans h hle

theorem XactFate.isCaptured_mono {f : XactFate} {lsn lsn' : Option Nat} (hle : snapshotLe lsn lsn')
    (h : f.isCaptured lsn = true) : f.isCaptured lsn' = true := by
  cases f with
  | «open» => exact h
  | aborted => rfl
  | committed l => exact alreadyCaptured_mono hle h

namespace WalEvent

variable {Row : Type}

/-- The commit LSN of a commit event. -/
def commitLsn? : WalEvent Row → Option Nat
  | .commit lsn _ => some lsn
  | _ => none

/-- How an event ends the transaction with id `k`, if it does. -/
def closes (k : Option XactId) : WalEvent Row → Option XactFate
  | .commit lsn x => if x = k then some (.committed lsn) else none
  | .streamAbort x => if some x = k then some .aborted else none
  | _ => none

theorem closes_of_ne {k : Option XactId} {e : WalEvent Row} (h : e.xactId ≠ k) :
    e.closes k = none := by
  cases e with
  | commit lsn x => exact if_neg h
  | streamAbort x => exact if_neg h
  | append row x lsn => rfl
  | delete row lsn x d => rfl
  | streamFlush x => rfl

theorem closes_ne_open {k : Option XactId} {e : WalEvent Row} : e.closes k ≠ some .open := by
  cases e with
  | commit lsn x => simp only [closes]; split <;> simp
  | streamAbort x => simp only [closes]; split <;> simp
  | append row x lsn => simp [closes]
  | delete row lsn x d => simp [closes]
  | streamFlush x => simp [closes]

end WalEvent

section Fate

variable {Row : Type}

/-- The fate of the transaction with id `k` that is open before `events`. -/
def fateOf (k : Option XactId) (events : List (WalEvent Row)) : XactFate :=
  (events.findSome? (·.closes k)).getD .open

/-- The fate of the transaction that an event belongs to, from what follows it. -/
def fate (e : WalEvent Row) (post : List (WalEvent Row)) : XactFate :=
  fateOf e.xactId (e :: post)

theorem fateOf_append (k : Option XactId) (l₁ l₂ : List (WalEvent Row)) :
    fateOf k (l₁ ++ l₂) = if fateOf k l₁ = .open then fateOf k l₂ else fateOf k l₁ := by
  unfold fateOf
  rw [List.findSome?_append]
  cases h : l₁.findSome? (·.closes k) with
  | none => simp
  | some f =>
    have hne : f ≠ .open := by
      rintro rfl
      obtain ⟨e, _, he⟩ := List.exists_of_findSome?_eq_some h
      exact WalEvent.closes_ne_open he
    simp [hne]

@[simp] theorem fateOf_singleton (k : Option XactId) (e : WalEvent Row) :
    fateOf k [e] = (e.closes k).getD .open := by
  unfold fateOf
  cases h : e.closes k <;> simp [h]

variable {l : List (WalEvent Row)} {k : Option XactId} {e : WalEvent Row}

theorem fateOf_append_of_ne
    (h : e.xactId ≠ k) : fateOf k (l ++ [e]) = fateOf k l := by
  rw [fateOf_append, fateOf_singleton, WalEvent.closes_of_ne h]
  split
  · rename_i hopen
    exact hopen.symm
  · rfl

/-- Appending an event to a history either keeps the fate of an earlier event or
ends its transaction. -/
theorem fate_append_singleton (e e' : WalEvent Row) (post : List (WalEvent Row)) :
    fate e (post ++ [e']) =
      if fate e post = .open then (e'.closes e.xactId).getD .open else fate e post := by
  unfold fate
  rw [← List.cons_append, fateOf_append, fateOf_singleton]

theorem fate_append_of_ne {e e' : WalEvent Row} {post : List (WalEvent Row)}
    (h : e'.xactId ≠ e.xactId) : fate e (post ++ [e']) = fate e post := by
  unfold fate
  rw [← List.cons_append, fateOf_append_of_ne h]

/-- Once a transaction is captured its fate is settled. -/
theorem fate_append_of_isCaptured {post l : List (WalEvent Row)}
    {lsn : Option Nat} (h : (fate e post).isCaptured lsn = true) :
    fate e (post ++ l) = fate e post := by
  unfold fate at h ⊢
  rw [← List.cons_append, fateOf_append, if_neg]
  intro hopen
  rw [hopen] at h
  cases h

/-- A transaction that does not stay open is ended by an event of the log. -/
theorem exists_closes_of_fateOf {f : XactFate}
    (h : fateOf k l = f) (hne : f ≠ .open) : ∃ e ∈ l, e.closes k = some f := by
  unfold fateOf at h
  cases hf : l.findSome? (·.closes k) with
  | none =>
    rw [hf] at h
    exact absurd h.symm hne
  | some f' =>
    rw [hf] at h
    obtain ⟨e, he, hc⟩ := List.exists_of_findSome?_eq_some hf
    have hff' : f' = f := h
    exact ⟨e, he, hff' ▸ hc⟩

/-- A committed fate comes from a commit event in the log. -/
theorem fateOf_eq_committed {lsn : Nat}
    (h : fateOf k l = .committed lsn) : WalEvent.commit lsn k ∈ l := by
  obtain ⟨e, he, hc⟩ := exists_closes_of_fateOf h (by simp)
  cases e <;> simp [WalEvent.closes] at hc
  obtain ⟨rfl, rfl⟩ := hc
  exact he

/-- An aborted fate comes from a stream abort in the log. -/
theorem fateOf_eq_aborted (h : fateOf k l = .aborted) : ∃ e ∈ l, e.isStreamAbort = true := by
  obtain ⟨e, he, hc⟩ := exists_closes_of_fateOf h (by simp)
  cases e <;> simp [WalEvent.closes] at hc
  exact ⟨_, he, rfl⟩

/-- The row and commit events that a recovery has to bring back, in log order: those
of transactions that committed within the log and that the snapshot misses. -/
def lostEvents (persistenceSnapshotLsn : Option Nat) (log : List (WalEvent Row)) :
    List (WalEvent Row) :=
  tailFilter (fun e post => (fate e post).isLost persistenceSnapshotLsn) log

end Fate
end Moonlink
