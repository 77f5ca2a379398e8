-- SUMMARY: A restarted handler applies the main transactions that the WAL replay forwards, each with its changes.
import Moonlink.Table.Logging
import Moonlink.Table.Recovery

namespace Moonlink

open Lib

namespace TableEvent

variable {Row : Type}

/-- Each commit is above all LSNs before it. -/
def Ordered (events : List (TableEvent Row)) : Prop :=
  events.Pairwise fun e e' =>
    ∀ n l x r, e.getLsnForIngestEvent = some n → e' = .commit l x r → n < l

end TableEvent

/-! ## The transactions of a log -/

namespace WalStore

variable {Row : Type} {b : Build} {s : WalStore Row}

theorem keep_recovered (v : TableView Row) (e : WalEvent Row) :
    v.keep none e.recovered = v.keep none e.intoTableEvent := by
  cases e with
  | append row x lsn => cases x <;> rfl
  | delete row lsn x d => cases x <;> rfl
  | commit lsn x => cases x <;> rfl
  | streamAbort x => rfl
  | streamFlush x => rfl

theorem fateOf_cons (k : Option XactId) (e : WalEvent Row) (rest : List (WalEvent Row)) :
    fateOf k (e :: rest) = (e.closes k).getD (fateOf k rest) := by
  unfold fateOf
  rw [List.findSome?_cons]
  cases e.closes k <;> rfl

/-- What a table holds of the lost transactions alone, beside what it holds of all of
them. The open main transaction is kept exactly if it is going to be lost. -/
structure LostView (lsn : Option Nat) (log : List (WalEvent Row)) (v v' : TableView Row) : Prop where
  applied : v'.applied = v.applied.filter fun a => (XactFate.committed a.lsn).isLost lsn
  openMain : v'.openMain = if (fateOf none log).isLost lsn then v.openMain else []

namespace LostView

variable {lsn : Option Nat} {e : WalEvent Row} {rest : List (WalEvent Row)} {v v' : TableView Row}

theorem skip (h : LostView lsn (e :: rest) v v') (hnot : (fate e rest).isLost lsn = false) :
    LostView lsn rest (v.keep none e.intoTableEvent) v' := by
  obtain ⟨happlied, hopen⟩ := h
  unfold fate at hnot
  rw [fateOf_cons] at hopen hnot
  cases e with
  | append row x l =>
    cases x with
    | some x => exact ⟨happlied, hopen⟩
    | none =>
      change (fateOf none rest).isLost lsn = false at hnot
      exact ⟨happlied, by rw [hnot]; simpa [WalEvent.closes, hnot] using hopen⟩
  | delete row l x d =>
    cases x with
    | some x => exact ⟨happlied, hopen⟩
    | none =>
      change (fateOf none rest).isLost lsn = false at hnot
      exact ⟨happlied, by rw [hnot]; simpa [WalEvent.closes, hnot] using hopen⟩
  | streamAbort x => exact ⟨happlied, hopen⟩
  | streamFlush x => exact ⟨happlied, hopen⟩
  | commit l x =>
    have hl : (XactFate.committed l).isLost lsn = false := by
      simpa [WalEvent.closes, WalEvent.xactId] using hnot
    cases x with
    | some x =>
      refine ⟨?_, hopen⟩
      simp [WalEvent.intoTableEvent, TableView.keep, TableView.applyXact, TableView.endStream,
        happlied, hl]
    | none =>
      have hnil : v'.openMain = [] := by simpa [WalEvent.closes, hl] using hopen
      constructor
      · simp [WalEvent.intoTableEvent, TableView.keep, TableView.applyXact, happlied, hl]
      · simp [WalEvent.intoTableEvent, TableView.keep, TableView.applyXact, hnil]

theorem lost (h : LostView lsn (e :: rest) v v') (hx : e.xactId = none)
    (hlost : (fate e rest).isLost lsn = true) :
    LostView lsn rest (v.keep none e.intoTableEvent) (v'.keep none e.recovered) := by
  obtain ⟨happlied, hopen⟩ := h
  unfold fate at hlost
  rw [hx, fateOf_cons] at hlost
  rw [fateOf_cons, hlost, if_pos rfl] at hopen
  rw [keep_recovered]
  cases e with
  | append row x l =>
    cases hx
    change (fateOf none rest).isLost lsn = true at hlost
    refine ⟨happlied, ?_⟩
    simp [WalEvent.intoTableEvent, TableView.keep, hopen, hlost]
  | delete row l x d =>
    cases hx
    change (fateOf none rest).isLost lsn = true at hlost
    refine ⟨happlied, ?_⟩
    simp [WalEvent.intoTableEvent, TableView.keep, hopen, hlost]
  | commit l x =>
    cases hx
    have hl : (XactFate.committed l).isLost lsn = true := by
      simpa [WalEvent.closes] using hlost
    constructor
    · simp [WalEvent.intoTableEvent, TableView.keep, TableView.applyXact, happlied, hopen, hl]
    · simp [WalEvent.intoTableEvent, TableView.keep, TableView.applyXact]
  | streamAbort x => cases hx
  | streamFlush x => cases hx

/-- If all lost events are of main transactions, they make up the transactions of the
log that the snapshot misses. -/
theorem keepAll {log : List (WalEvent Row)} (h : LostView lsn log v v')
    (hmain : ∀ e ∈ lostEvents lsn log, e.xactId = none) :
    LostView lsn [] (v.keepAll none (log.map (·.intoTableEvent)))
      (v'.keepAll none ((lostEvents lsn log).map (·.recovered))) := by
  induction log generalizing v v' with
  | nil => exact h
  | cons e rest ih =>
    unfold lostEvents at hmain ⊢
    rw [tailFilter_cons] at hmain ⊢
    cases hlost : (fate e rest).isLost lsn with
    | true =>
      rw [hlost, if_pos rfl] at hmain
      rw [if_pos rfl]
      exact ih (h.lost (hmain e List.mem_cons_self) hlost)
        fun e' he' => hmain e' (List.mem_cons_of_mem _ he')
    | false =>
      rw [hlost, if_neg Bool.false_ne_true] at hmain
      rw [if_neg Bool.false_ne_true]
      exact ih (h.skip hlost) hmain

end LostView

end WalStore

/-! ## The handler on recovery events -/

/-- The recovery event of a row change of a main transaction. -/
def RowOp.recovered {Row : Type} (lsn : Nat) : RowOp Row → TableEvent Row
  | .append row => .append row none lsn true
  | .delete row d => .delete row lsn none d true

/-- The recovery events that can come next, if no streaming transaction is forwarded. The
open main transaction is known by the largest LSN so far. -/
inductive RecoveryStep {Row : Type} (appendOnly : Bool) (src : Source) : TableEvent Row → Source → Prop
    where
  | row {op : RowOp Row} {lsn : Nat} (hop : op.isEmitted appendOnly = true) :
      RecoveryStep appendOnly src (op.recovered lsn)
        { src with openMain := some (max (src.openMain.getD src.lastEnd) lsn) }
  | commit {lsn : Nat} (hlt : src.openMain.getD src.lastEnd < lsn) :
      RecoveryStep appendOnly src (.commit lsn none true)
        { src with lastEnd := lsn, openMain := none, lastMain := some lsn }
  | close {x : XactId} : RecoveryStep appendOnly src (.streamAbort x false true) src
  | finish {lsn : Nat} : RecoveryStep appendOnly src (.finishRecovery lsn) src

namespace TableHandler

variable {Row : Type} {b : Build} {S : Setting} {src src' : Source} {v : TableView Row}
variable {h : TableHandler Row} {e : TableEvent Row}

/-- The handler is not copying, and its table agrees with what was forwarded. -/
structure RecoveryInv (S : Setting) (src : Source) (v : TableView Row) (h : TableHandler Row) : Prop
    where
  normal : h.state.NotCopying
  table : TableInv S src v h.table h.state.lastUnflushedCommitLsn

/-- Recovery events are neither discarded nor pushed. -/
theorem processCdcTableEvent_of_recovery (hnormal : h.state.NotCopying)
    (hrecovery : e.isRecovery = .ok true) :
    h.processCdcTableEvent b e =
      applyCdcTableEvent ⟨h.table, h.state.updateTableLsns e⟩ e := by
  unfold processCdcTableEvent
  rw [if_neg (by simp [TableHandlerState.isInBlockingState, hnormal.1]), hrecovery]
  simp only [ok_bind, Bool.not_true, Bool.and_false]
  rfl

theorem RecoveryInv.row {op : RowOp Row} {lsn : Nat} (hinv : RecoveryInv S src v h)
    (hkeeps : S.persistence = none) (hop : op.isEmitted S.appendOnly = true) :
    Returns (h.processCdcTableEvent b (op.recovered lsn))
      (RecoveryInv S { src with openMain := some (max (src.openMain.getD src.lastEnd) lsn) }
        { v with openMain := v.openMain ++ [op] }) := by
  obtain ⟨hcontents, hlsns, hwal⟩ := hinv.table
  have hdiscards : ∀ n, S.discards n = false := by
    intro n
    unfold Setting.discards
    rw [hkeeps]
    rfl
  rw [processCdcTableEvent_of_recovery hinv.normal (by cases op <;> rfl)]
  cases op with
  | append row =>
    refine Returns.ok ⟨hinv.normal, ?_, ?_, hwal⟩
    · exact hcontents.mainRow (Nat.le_max_left _ _) (Nat.le_max_right _ _) (hdiscards _) rfl rfl rfl
        rfl fun d hd => .inl hd
    · exact hlsns.congr ⟨rfl, rfl, rfl, rfl, rfl, rfl, rfl, rfl, rfl⟩
  | delete row d =>
    obtain ⟨hidentity, rfl⟩ := isEmitted_delete hop
    have hdelete : h.table.delete row lsn =
        { h.table with
          uncommitted := h.table.uncommitted ++ [.delete row false]
          nextSnapshotTask := { h.table.nextSnapshotTask with lastDeletionLsn := some lsn } } := by
      unfold MooncakeTable.delete MooncakeTable.deleteImpl
      rw [if_neg (by simp [hcontents.appendOnly, hidentity])]
    change Returns (Except.ok (⟨h.table.delete row lsn, _⟩ : TableHandler Row)) _
    rw [hdelete]
    refine Returns.ok ⟨hinv.normal, ?_, ?_, hwal⟩
    · exact hcontents.mainRow (Nat.le_max_left _ _) (Nat.le_max_right _ _) (hdiscards _) rfl rfl rfl
        rfl fun d' hd' => .inr (by cases hd'; rfl)
    · exact hlsns.congr ⟨rfl, rfl, rfl, rfl, rfl, rfl, rfl, rfl, rfl⟩

theorem RecoveryInv.commit {lsn : Nat} (hinv : RecoveryInv S src v h) (hloaded : S.loaded = 0)
    (hlt : src.openMain.getD src.lastEnd < lsn) :
    Returns (h.processCdcTableEvent b (.commit lsn none true))
      (RecoveryInv S { src with lastEnd := lsn, openMain := none, lastMain := some lsn }
        ({ v with openMain := [] }.applyXact .main lsn v.openMain)) := by
  obtain ⟨hcontents, hlsns, hwal⟩ := hinv.table
  have hlast : src.lastEnd ≤ src.openMain.getD src.lastEnd := by
    cases hopen : src.openMain with
    | none => exact Nat.le_refl _
    | some f => exact hcontents.mainAfterLast f hopen
  have hwal' : WalInv S lsn h.table.wal := by
    have hle := hwal.le
    exact ⟨hwal.shape, by omega, hwal.ge⟩
  have hlsns' : LsnInv S src.lastEnd h.table none :=
    ⟨hlsns.baseline, hlsns.flushInv, hlsns.flushLsns, by simp, by simp, hlsns.snapshot⟩
  rw [processCdcTableEvent_of_recovery hinv.normal rfl]
  refine Returns.mono (commitMain_returns hcontents hlsns' hwal' hlt (by omega) rfl) ?_
  rintro h' ⟨hs | hs, ht⟩
  · exact ⟨by rw [hs]; exact hinv.normal, ht⟩
  · exact ⟨by rw [hs]; exact hinv.normal, ht⟩

/-- The abort of a transaction that is open in the WAL is logged, and the table ignores it. -/
theorem RecoveryInv.close {x : XactId} (hinv : RecoveryInv S src v h) :
    Returns (h.processCdcTableEvent b (.streamAbort x false true)) (RecoveryInv S src v) := by
  rw [processCdcTableEvent_of_keep hinv.normal rfl (shouldDiscardEvent_streaming rfl)]
  have hpush := hinv.table.wal.push (b := b) (e := .streamAbort x false true) rfl rfl (Nat.le_refl _)
    nofun
  refine Returns.bind hpush ?_
  intro w hw
  obtain ⟨hcontents, hlsns⟩ := TableInv_setWal w hinv.table
  exact Returns.ok ⟨hinv.normal, hcontents, hlsns, hw⟩

/-- One recovery event. -/
theorem RecoveryInv.event (hkeeps : S.persistence = none) (hloaded : S.loaded = 0)
    (hinv : RecoveryInv S src v h) (hstep : RecoveryStep S.appendOnly src e src') :
    Returns (h.next b (.event e)) (RecoveryInv S src' (v.keepAll none ([e].filter (·.isData)))) := by
  cases hstep with
  | row hop =>
    rename_i op lsn
    cases op <;> exact hinv.row hkeeps hop
  | commit hlt => exact hinv.commit hloaded hlt
  | close => exact hinv.close
  | finish => exact Returns.ok hinv

/-- A run on recovery events, with background results anywhere in between. -/
theorem RecoveryInv.run (hkeeps : S.persistence = none) (hloaded : S.loaded = 0)
    {inputs : List (HandlerInput Row)} (hinv : RecoveryInv S src v h)
    (htrace : Trace (RecoveryStep S.appendOnly) src (HandlerInput.events inputs) src') :
    Returns (h.run b inputs)
      (RecoveryInv S src' (v.keepAll none ((HandlerInput.events inputs).filter (·.isData)))) := by
  induction inputs generalizing h src v with
  | nil =>
    cases htrace
    exact Returns.ok hinv
  | cons i rest ih =>
    unfold TableHandler.run
    cases hi : i.event? with
    | none =>
      have hrest : HandlerInput.events (i :: rest) = HandlerInput.events rest :=
        List.filterMap_cons_none hi
      rw [hrest] at htrace ⊢
      refine Returns.bind (next_background hinv.table hi) ?_
      rintro h₁ ⟨ht, o, hs⟩
      exact ih ⟨by rw [hs]; exact hinv.normal, by rw [hs]; exact ht⟩ htrace
    | some e =>
      have hrest : HandlerInput.events (i :: rest) = [e] ++ HandlerInput.events rest :=
        List.filterMap_cons_some hi
      rw [hrest] at htrace ⊢
      obtain rfl : i = .event e := by
        cases i <;> cases hi
        rfl
      rw [List.filter_append, TableView.keepAll_append]
      cases htrace with
      | cons hstep htail =>
        exact Returns.bind (hinv.event hkeeps hloaded hstep) fun h₁ hinv₁ => ih hinv₁ htail

end TableHandler

/-! ## Restarts -/

/-- Row events that the source emits for a table. -/
def WalEvent.isEmitted {Row : Type} (appendOnly : Bool) : WalEvent Row → Bool
  | .delete _ _ _ d => !appendOnly && !d
  | _ => true

namespace WalStore

variable {Row : Type} {b : Build} {s : WalStore Row}

/-- The LSN order of a log, with positive commit LSNs. -/
structure LogOrdered (log : WalLog Row) : Prop where
  ordered : TableEvent.Ordered (log.map (·.2.intoTableEvent))
  pos : ∀ p ∈ log, ∀ lsn, p.2.commitLsn? = some lsn → 0 < lsn

end WalStore

namespace TableHandler

variable {Row : Type} {b : Build} {s : WalStore Row}

end TableHandler
end Moonlink
