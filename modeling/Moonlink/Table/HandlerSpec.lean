-- SUMMARY: The handler keeps its invariant on every event of the change stream and on every background result.
import Moonlink.Table.Handler
import Moonlink.Table.Invariant

namespace Moonlink

open Lib

/-- No initial copy is going on, and no events are buffered for one. -/
def TableHandlerState.NotCopying {Row : Type} (s : TableHandlerState Row) : Prop :=
  s.specialTableState = .normal ∧ s.initialCopyBufferedEvents = []

namespace TableHandler

variable {Row : Type} {b : Build} {S : Setting} {src src' : Source} {v : TableView Row}
variable {h h' : TableHandler Row} {e : TableEvent Row}

/-- The handler is not copying, discards by the persistent LSN, and its table agrees with
the change stream. -/
structure Inv (S : Setting) (src : Source) (v : TableView Row) (h : TableHandler Row) : Prop where
  normal : h.state.NotCopying
  persistence : h.state.initialPersistenceLsn = S.persistence
  unflushed : h.state.lastUnflushedCommitLsn = none ∨
    h.state.lastUnflushedCommitLsn = src.lastMain
  table : TableInv S src v h.table h.state.lastUnflushedCommitLsn

/-- The condition on the commit of a streaming transaction: the WAL has not completed a
later transaction before, and the last commit, if it was of a main transaction, is above
the loaded files. -/
def CommitCondition (S : Setting) (src : Source) (e : TableEvent Row) : Prop :=
  ∀ lsn x r, e = .commit lsn (some x) r → S.walLsn ≤ lsn ∧
    ∀ l, src.lastMain = some l → S.loaded = 0 ∨ S.loaded < l

/-! ## One event -/

theorem updateTableLsns_row {x : Option XactId} {lsn : Nat} (s : TableHandlerState Row)
    (op : RowOp Row) :
    s.updateTableLsns (op.event x lsn) = { s with tableConsistentViewLsn := none } := by
  cases op <;> rfl

theorem shouldDiscardEvent_updateTableLsns (s : TableHandlerState Row) (e : TableEvent Row) :
    (s.updateTableLsns e).shouldDiscardEvent e = s.shouldDiscardEvent e := by
  have hp : (s.updateTableLsns e).initialPersistenceLsn = s.initialPersistenceLsn := by
    cases e <;> rfl
  unfold TableHandlerState.shouldDiscardEvent
  rw [hp]

theorem processCdcTableEvent_of_discard (hnormal : h.state.NotCopying)
    (hrecovery : e.isRecovery = .ok false) (hdiscard : h.state.shouldDiscardEvent e = true) :
    h.processCdcTableEvent b e = .ok { h with state := h.state.updateTableLsns e } := by
  unfold processCdcTableEvent
  rw [if_neg (by simp [TableHandlerState.isInBlockingState, hnormal.1]), hrecovery]
  simp only [ok_bind, shouldDiscardEvent_updateTableLsns, hdiscard]
  rfl

theorem processCdcTableEvent_of_keep (hnormal : h.state.NotCopying)
    (hrecovery : e.isRecovery = .ok false) (hdiscard : h.state.shouldDiscardEvent e = false) :
    h.processCdcTableEvent b e = (do
      let wal ← h.table.wal.push b e
      applyCdcTableEvent ⟨{ h.table with wal }, h.state.updateTableLsns e⟩ e) := by
  unfold processCdcTableEvent
  rw [if_neg (by simp [TableHandlerState.isInBlockingState, hnormal.1]), hrecovery]
  simp only [ok_bind, shouldDiscardEvent_updateTableLsns, hdiscard]
  unfold pushWalEvent
  cases h.table.wal.push b e <;> rfl

theorem shouldDiscardEvent_main (hp : h.state.initialPersistenceLsn = S.persistence)
    (hstreaming : e.isStreamingUpdate = false) {lsn : Nat} (hlsn : e.getLsnForIngestEvent = some lsn) :
    h.state.shouldDiscardEvent e = S.discards lsn := by
  unfold TableHandlerState.shouldDiscardEvent Setting.discards
  rw [hp, hstreaming, hlsn]
  cases S.persistence <;> simp

theorem shouldDiscardEvent_streaming (hstreaming : e.isStreamingUpdate = true) :
    h.state.shouldDiscardEvent e = false := by
  unfold TableHandlerState.shouldDiscardEvent
  rw [hstreaming]
  split <;> rfl

/-! ### Events of the main transaction -/

variable {t : MooncakeTable Row}

/-- The contents and LSNs survive a push to the WAL. -/
theorem TableInv_setWal {u : Option Nat} (w : WalManager Row) (ht : TableInv S src v t u) :
    ContentsInv S src v { t with wal := w } ∧ LsnInv S src.lastEnd { t with wal := w } u := by
  obtain ⟨hc, hl, -⟩ := ht
  exact ⟨⟨hc.appendOnly, hc.applied, hc.uncommitted, hc.pending, hc.mainClosed, hc.mainDropped,
    hc.mainAfterLast, hc.opened, hc.known, hc.deletion⟩,
    hl.congr ⟨rfl, rfl, rfl, rfl, rfl, rfl, rfl, rfl, rfl⟩⟩

theorem isEmitted_delete {row : Row} {d : Bool}
    (hop : (RowOp.delete row d).isEmitted S.appendOnly = true) :
    S.appendOnly = false ∧ d = false := by
  simpa [RowOp.isEmitted] using hop

theorem mainRow_returns {op : RowOp Row} {finalLsn : Nat} (hinv : Inv S src v h)
    (hop : op.isEmitted S.appendOnly = true)
    (hmain : src.openMain = some finalLsn ∨ src.openMain = none ∧ src.lastEnd ≤ finalLsn) :
    Returns (h.processCdcTableEvent b (op.event none finalLsn))
      (Inv S { src with openMain := some finalLsn } (v.keep S.persistence (op.event none finalLsn))) := by
  have hrecovery : (op.event none finalLsn).isRecovery = .ok false := by cases op <;> rfl
  have hdiscard := shouldDiscardEvent_main (e := op.event none finalLsn) hinv.persistence
    (by cases op <;> rfl) (by cases op <;> rfl)
  cases hd : S.discards finalLsn with
  | true =>
    rw [processCdcTableEvent_of_discard hinv.normal hrecovery (hdiscard.trans hd),
      updateTableLsns_row]
    have hkeep : v.keep S.persistence (op.event none finalLsn) = v := by
      cases op <;> exact if_pos hd
    rw [hkeep]
    exact Returns.ok ⟨hinv.normal, hinv.persistence, hinv.unflushed,
      hinv.table.contents.discardRow hmain hd, hinv.table.lsns, hinv.table.wal⟩
  | false =>
    rw [processCdcTableEvent_of_keep hinv.normal hrecovery (hdiscard.trans hd),
      updateTableLsns_row]
    have hpush := hinv.table.wal.push (b := b) hrecovery (by cases op <;> rfl) (Nat.le_refl _)
      (by cases op <;> exact nofun)
    refine Returns.bind hpush ?_
    intro w hw
    obtain ⟨hcontents, hlsns⟩ := TableInv_setWal w hinv.table
    have hge : src.openMain.getD src.lastEnd ≤ finalLsn := by
      rcases hmain with hopen | ⟨hnone, hle⟩
      · rw [hopen]
        exact Nat.le_refl _
      · rw [hnone]
        exact hle
    have hkeep : v.keep S.persistence (op.event none finalLsn) =
        { v with openMain := v.openMain ++ [op] } := by
      cases op <;> exact if_neg (by rw [← Setting.discards, hd]; simp)
    rw [hkeep]
    cases op with
    | append row =>
      refine Returns.ok ⟨hinv.normal, hinv.persistence, hinv.unflushed, ?_, ?_, hw⟩
      · exact hcontents.mainRow hge (Nat.le_refl _) hd rfl rfl rfl rfl fun d hd => .inl hd
      · exact hlsns.congr ⟨rfl, rfl, rfl, rfl, rfl, rfl, rfl, rfl, rfl⟩
    | delete row d =>
      obtain ⟨hidentity, rfl⟩ := isEmitted_delete hop
      have hdelete : ({ h.table with wal := w }.delete row finalLsn) =
          { h.table with
            wal := w
            uncommitted := h.table.uncommitted ++ [.delete row false]
            nextSnapshotTask :=
              { h.table.nextSnapshotTask with lastDeletionLsn := some finalLsn } } := by
        unfold MooncakeTable.delete MooncakeTable.deleteImpl
        rw [if_neg (by simp [hinv.table.contents.appendOnly, hidentity])]
      change Returns (Except.ok (⟨{ h.table with wal := w }.delete row finalLsn, _⟩ : TableHandler Row)) _
      rw [hdelete]
      refine Returns.ok ⟨hinv.normal, hinv.persistence, hinv.unflushed, ?_, ?_, hw⟩
      · exact hcontents.mainRow hge (Nat.le_refl _) hd rfl rfl rfl rfl
          fun d' hd' => .inr (by cases hd'; rfl)
      · exact hlsns.congr ⟨rfl, rfl, rfl, rfl, rfl, rfl, rfl, rfl, rfl⟩

/-- A kept commit is above everything before. -/
theorem lt_of_kept (hS : S.WellFormed) {lastEnd lsn : Nat} (hlt : lastEnd < lsn)
    (hkeeps : S.discards lsn = false) : max lastEnd S.loaded < lsn ∧ max lastEnd S.walLsn < lsn := by
  have hp := Setting.lt_of_not_discards (by omega) hkeeps
  have hloaded := hS.loaded
  have hwal := hS.walLsn
  omega

variable {s : TableHandlerState Row}

/-- The commit of a main transaction, with the flush that it may trigger. -/
theorem commitMain_returns {endLsn : Nat}
    (hcontents : ContentsInv S src v t) (hlsns : LsnInv S src.lastEnd t none)
    (hwal : WalInv S endLsn t.wal) (hlt : src.openMain.getD src.lastEnd < endLsn)
    (hbound : max src.lastEnd S.loaded < endLsn) (hunflushed : s.lastUnflushedCommitLsn = some endLsn) :
    Returns (TableHandler.commitMain ⟨t, s⟩ endLsn false) fun h' =>
      (h'.state = s ∨ h'.state = { s with lastUnflushedCommitLsn := none }) ∧
        TableInv S { src with lastEnd := endLsn, openMain := none, lastMain := some endLsn }
          ({ v with openMain := [] }.applyXact .main endLsn v.openMain) h'.table
          h'.state.lastUnflushedCommitLsn := by
  have hbaseline := hlsns.baseline
  have hcommit : t.commit endLsn = .ok _ := MooncakeTable.commit_returns (by omega) (by
    intro d hd
    exact Nat.lt_of_le_of_lt (hcontents.deletion d hd) hlt)
  have hcontents' := hcontents.mainCommit hlt
  have hlsns' := hlsns.mainCommit hbound
  unfold commitMain
  simp only [hcommit, ok_bind]
  split
  · refine Returns.bind (hlsns'.flush rfl (by omega)) ?_
    rintro t' ⟨hstep, hlsns''⟩
    refine Returns.pure ⟨.inr rfl, hcontents'.flushStep hstep, hlsns'', ?_⟩
    rw [hstep.contents.wal]
    exact hwal
  · refine Returns.pure ⟨.inl rfl, hcontents', ?_, hwal⟩
    rw [hunflushed]
    exact hlsns'

theorem mainCommit_returns {finalLsn endLsn : Nat} (hS : S.WellFormed) (hinv : Inv S src v h)
    (hmain : src.openMain = some finalLsn) (hlt : finalLsn < endLsn) :
    Returns (h.processCdcTableEvent b (.commit endLsn none false))
      (Inv S { src with lastEnd := endLsn, openMain := none, lastMain := some endLsn }
        (v.keep S.persistence (.commit endLsn none false))) := by
  have hlast : src.lastEnd < endLsn :=
    Nat.lt_of_le_of_lt (hinv.table.contents.mainAfterLast finalLsn hmain) hlt
  have hdiscard := shouldDiscardEvent_main (e := .commit endLsn none false) hinv.persistence rfl rfl
  cases hd : S.discards endLsn with
  | true =>
    rw [processCdcTableEvent_of_discard hinv.normal rfl (hdiscard.trans hd)]
    have hkeep : v.keep S.persistence (.commit endLsn none false) = v := if_pos hd
    rw [hkeep]
    have hwal := hinv.table.wal
    have hle := hwal.le
    refine Returns.ok ⟨hinv.normal, hinv.persistence, .inr rfl,
      hinv.table.contents.discardCommit hmain hlt hd,
      hinv.table.lsns.discardCommit hS hlast hd, ⟨hwal.shape, ?_, hwal.ge⟩⟩
    simp only
    omega
  | false =>
    obtain ⟨hbound, hboundWal⟩ := lt_of_kept hS hlast hd
    rw [processCdcTableEvent_of_keep hinv.normal rfl (hdiscard.trans hd)]
    have hpush := hinv.table.wal.push (b := b) (e := .commit endLsn none false) rfl rfl
      (Nat.le_of_lt hlast) (by rintro lsn ⟨⟩; exact ⟨Nat.le_of_lt hboundWal, Nat.le_refl _⟩)
    refine Returns.bind hpush ?_
    intro w hw
    obtain ⟨hcontents, hlsns⟩ := TableInv_setWal w hinv.table
    have hkeep : v.keep S.persistence (.commit endLsn none false) =
        { v with openMain := [] }.applyXact .main endLsn v.openMain :=
      if_neg (by rw [← Setting.discards, hd]; simp)
    rw [hkeep]
    have hlsns' : LsnInv S src.lastEnd { h.table with wal := w } none :=
      ⟨hlsns.baseline, hlsns.flushInv, hlsns.flushLsns, by simp, by simp, hlsns.snapshot⟩
    have hopen : src.openMain.getD src.lastEnd < endLsn := by
      rw [hmain]
      exact hlt
    refine Returns.mono (commitMain_returns hcontents hlsns' hw hopen hbound rfl) ?_
    rintro h' ⟨hs | hs, ht⟩
    · exact ⟨by rw [hs]; exact hinv.normal, by rw [hs]; exact hinv.persistence, .inr (by rw [hs]; rfl), ht⟩
    · exact ⟨by rw [hs]; exact hinv.normal, by rw [hs]; exact hinv.persistence, .inl (by rw [hs]), ht⟩

/-! ### Events of streaming transactions -/

/-- Push a streaming event that is not a commit. -/
theorem pushStreaming_returns (hinv : Inv S src v h) (hrecovery : e.isRecovery = .ok false)
    (hstreaming : e.isStreamingUpdate = true) (hingest : e.isIngestEvent = true)
    (hnot : WalManager.commitLsn? e = none) {Q : TableHandler Row → Prop}
    (happly : ∀ w, ContentsInv S src v { h.table with wal := w } →
      LsnInv S src.lastEnd { h.table with wal := w } h.state.lastUnflushedCommitLsn →
      WalInv S src.lastEnd w →
      Returns (applyCdcTableEvent ⟨{ h.table with wal := w }, h.state.updateTableLsns e⟩ e) Q) :
    Returns (h.processCdcTableEvent b e) Q := by
  rw [processCdcTableEvent_of_keep hinv.normal hrecovery (shouldDiscardEvent_streaming hstreaming)]
  have hpush := hinv.table.wal.push (b := b) hrecovery hingest (Nat.le_refl _)
    (by rw [hnot]; exact nofun)
  refine Returns.bind hpush ?_
  intro w hw
  obtain ⟨hcontents, hlsns⟩ := TableInv_setWal w hinv.table
  exact happly w hcontents hlsns hw

variable {x : XactId}

theorem appendStreaming_returns {row : Row} (hflush : t.FlushInv)
    (hold : ∀ st, t.transactionStreamStates.lookup x = some st → st.status = .pending) :
    Returns (TableHandler.appendStreaming ⟨t, s⟩ row x) fun h' => h'.state = s ∧
      MooncakeTable.StreamStep
        (Function.update t.pendingOps x (some ((t.pendingOps x).getD [] ++ [.append row]))) t h'.table := by
  have hstep := MooncakeTable.appendInStreamBatch_step hflush hold row
  have hsome : (t.appendInStreamBatch row x).pendingOps x =
      some ((t.pendingOps x).getD [] ++ [.append row]) := by
    rw [hstep.pending, Function.update_self]
  obtain ⟨st, hlook, hst, -⟩ := MooncakeTable.pendingOps_eq_some_iff.mp hsome
  unfold appendStreaming
  simp only [MooncakeTable.shouldTransactionFlush_returns hlook, ok_bind]
  split
  · refine Returns.bind (MooncakeTable.flushStream_returns hstep.inv hlook hst) ?_
    intro t' hflushed
    have hall := hstep.trans hflushed fun y hy => by rw [hstep.pending]; exact hy
    rw [hstep.pending] at hall
    exact Returns.pure ⟨rfl, hall⟩
  · exact Returns.pure ⟨rfl, hstep⟩

theorem streamRow_returns {op : RowOp Row} (hinv : Inv S src v h)
    (hop : op.isEmitted S.appendOnly = true) (hnew : x ∉ src.endedStreams) :
    Returns (h.processCdcTableEvent b (op.event (some x) 0))
      (Inv S { src with openStreams := x :: src.openStreams.filter (· != x) }
        (v.keep S.persistence (op.event (some x) 0))) := by
  have hkeep : v.keep S.persistence (op.event (some x) 0) = v.streamRows x [op] := by
    cases op <;> rfl
  rw [hkeep]
  refine pushStreaming_returns hinv (by cases op <;> rfl) (by cases op <;> rfl)
    (by cases op <;> rfl) (by cases op <;> rfl) ?_
  intro w hcontents hlsns hw
  have hold := hcontents.pending_of_known hnew
  rw [updateTableLsns_row]
  cases op with
  | append row =>
    refine Returns.mono (appendStreaming_returns hlsns.flushInv hold) ?_
    rintro ⟨t', s'⟩ ⟨hs', hstep⟩
    simp only at hs' hstep
    subst hs'
    refine ⟨hinv.normal, hinv.persistence, hinv.unflushed, hcontents.streamRow hstep, hlsns.streamStep hstep, ?_⟩
    rw [hstep.contents.wal]
    exact hw
  | delete row d =>
    obtain ⟨hidentity, rfl⟩ := isEmitted_delete hop
    have hstep := MooncakeTable.deleteInStreamBatch_step hlsns.flushInv hold
      (hcontents.appendOnly.trans hidentity) row
    refine Returns.ok ⟨hinv.normal, hinv.persistence, hinv.unflushed, hcontents.streamRow hstep,
      hlsns.streamStep hstep, ?_⟩
    rw [hstep.contents.wal]
    exact hw

theorem streamAbort_returns (hinv : Inv S src v h) (hmain : src.openMain = none)
    (hopen : x ∈ src.openStreams) :
    Returns (h.processCdcTableEvent b (.streamAbort x false false))
      (Inv S (src.endStream x) (v.keep S.persistence (.streamAbort x false false))) := by
  refine pushStreaming_returns hinv rfl rfl rfl rfl ?_
  intro w hcontents hlsns hw
  obtain ⟨st, hlook, hst, -⟩ := hcontents.exists_pending hopen
  refine Returns.bind (MooncakeTable.abortInStreamBatch_returns hlsns.flushInv hlook hst) ?_
  intro t' hstep
  refine Returns.pure ⟨hinv.normal, hinv.persistence, hinv.unflushed,
    hcontents.abortStream hmain hstep (Nat.le_refl _), hlsns.streamStep hstep, ?_⟩
  rw [hstep.contents.wal]
  exact hw

/-- Before the commit of a streaming transaction, unflushed commits are flushed. -/
theorem flushUnflushedCommits_returns
    (hcontents : ContentsInv S src v t) (hlsns : LsnInv S src.lastEnd t s.lastUnflushedCommitLsn)
    (hmain : src.openMain = none) (hcond : ∀ l, s.lastUnflushedCommitLsn = some l → S.loaded < l) :
    Returns (TableHandler.flushUnflushedCommits ⟨t, s⟩) fun h' =>
      ContentsInv S src v h'.table ∧ LsnInv S src.lastEnd h'.table none ∧ h'.table.wal = t.wal ∧
        h'.state = { s with lastUnflushedCommitLsn := none } := by
  have hclosed : t.uncommitted = [] := hcontents.uncommitted.trans (hcontents.mainClosed hmain)
  unfold flushUnflushedCommits
  simp only
  cases hu : s.lastUnflushedCommitLsn with
  | none =>
    rw [hu] at hlsns
    exact Returns.ok ⟨hcontents, hlsns, rfl, by rw [← hu]⟩
  | some l =>
    rw [hu] at hlsns
    refine Returns.bind (hlsns.flush hclosed (hcond l hu)) ?_
    rintro t' ⟨hstep, hlsns'⟩
    exact Returns.pure ⟨hcontents.flushStep hstep, hlsns', hstep.contents.wal, rfl⟩

theorem streamCommit_returns {endLsn : Nat} (hS : S.WellFormed) (hinv : Inv S src v h)
    (hmain : src.openMain = none) (hopen : x ∈ src.openStreams) (hlt : src.lastEnd < endLsn)
    (hcond : CommitCondition S src (.commit endLsn (some x) false : TableEvent Row)) :
    Returns (h.processCdcTableEvent b (.commit endLsn (some x) false))
      (Inv S { src.endStream x with lastEnd := endLsn, lastMain := none }
        (v.keep S.persistence (.commit endLsn (some x) false))) := by
  obtain ⟨hwalLsn, hlastMain⟩ := hcond endLsn x false rfl
  have hunflushed : ∀ l, h.state.lastUnflushedCommitLsn = some l → S.loaded < l := by
    intro l hl
    have hpos := (hinv.table.lsns.unflushedLe l hl).1
    rcases hinv.unflushed with hnone | hsome
    · rw [hl] at hnone
      cases hnone
    · have := hlastMain l (hsome.symm.trans hl)
      omega
  rw [processCdcTableEvent_of_keep hinv.normal rfl (shouldDiscardEvent_streaming rfl)]
  have hpush := hinv.table.wal.push (b := b) (e := .commit endLsn (some x) false) rfl rfl
    (Nat.le_of_lt hlt) (by rintro lsn ⟨⟩; exact ⟨by omega, Nat.le_refl _⟩)
  refine Returns.bind hpush ?_
  intro w hw
  obtain ⟨hcontents, hlsns⟩ := TableInv_setWal w hinv.table
  refine Returns.bind (flushUnflushedCommits_returns hcontents hlsns hmain hunflushed) ?_
  rintro ⟨t₁, s₁⟩ ⟨hcontents₁, hlsns₁, hwal₁, hs₁⟩
  simp only at hcontents₁ hlsns₁ hwal₁ hs₁
  obtain ⟨st, hlook, hst, hops⟩ := hcontents₁.exists_pending hopen
  have hp : s₁.initialPersistenceLsn = S.persistence := by
    rw [hs₁]
    exact hinv.persistence
  have hnormal : s₁.NotCopying := by
    rw [hs₁]
    exact hinv.normal
  have hnone : s₁.lastUnflushedCommitLsn = none := by rw [hs₁]
  rw [hp]
  cases hd : S.discards endLsn with
  | true =>
    have hkeep : v.keep S.persistence (.commit endLsn (some x) false) = v.endStream x := if_pos hd
    rw [hkeep, if_pos (by exact hd)]
    refine Returns.bind (MooncakeTable.abortInStreamBatch_returns hlsns₁.flushInv hlook hst) ?_
    intro t' hstep
    refine Returns.pure ⟨hnormal, hp, .inl hnone, hcontents₁.abortStream hmain hstep (Nat.le_of_lt hlt), ?_, ?_⟩
    · rw [hnone]
      exact (hlsns₁.streamStep hstep).mono (Nat.le_of_lt hlt)
    · rw [hstep.contents.wal, hwal₁]
      exact hw
  | false =>
    obtain ⟨hbound, -⟩ := lt_of_kept hS hlt hd
    have hkeep : v.keep S.persistence (.commit endLsn (some x) false) =
        (v.endStream x).applyXact (.stream x) endLsn ((v.openStreams x).getD []) :=
      if_neg (by rw [← Setting.discards, hd]; simp)
    have hbaseline := hlsns₁.baseline
    have hcommit := MooncakeTable.commitTransactionStream_returns endLsn hlook
      (fun n hn => by have := hlsns₁.flushLsns.last n hn; omega) (by omega)
    rw [hkeep, if_neg (by rw [← Setting.discards, hd]; simp)]
    simp only [hcommit, ok_bind]
    refine Returns.pure ⟨hnormal, hp, .inl hnone, hcontents₁.streamCommit hmain hops (Nat.le_of_lt hlt), ?_, ?_⟩
    · rw [hnone]
      exact hlsns₁.streamCommit hlook hst hbound
    · change WalInv S endLsn t₁.wal
      rw [hwal₁]
      exact hw

/-- One event of the change stream. -/
theorem processCdcTableEvent_returns (hS : S.WellFormed) (hinv : Inv S src v h)
    (hstep : Source.Step S.appendOnly src e src') (hcond : CommitCondition S src e) :
    Returns (h.processCdcTableEvent b e) (Inv S src' (v.keep S.persistence e)) := by
  cases hstep with
  | mainRow hop hmain => exact mainRow_returns hinv hop hmain
  | mainCommit hmain hlt => exact mainCommit_returns hS hinv hmain hlt
  | streamRow hop hmain hnew => exact streamRow_returns hinv hop hnew
  | streamCommit hmain hopen hlt => exact streamCommit_returns hS hinv hmain hopen hlt hcond
  | streamAbort hmain hopen => exact streamAbort_returns hinv hmain hopen

/-! ## Background results -/

theorem tryCreateSnapshot_spec {u : Option Nat} (h : TableHandler Row)
    (forceCreate otherWork : Bool) (ht : TableInv S src v h.table u) :
    TableInv S src v (h.tryCreateSnapshot forceCreate otherWork).table u ∧
      ∃ o, (h.tryCreateSnapshot forceCreate otherWork).state =
        { h.state with mooncakeSnapshotOngoing := o } := by
  unfold tryCreateSnapshot MooncakeTable.tryCreateMooncakeSnapshot
  split
  · exact ⟨ht, _, rfl⟩
  · split
    · rename_i table heq
      split at heq
      · cases heq
      · cases heq
        obtain ⟨hc, hl, hw⟩ := ht
        refine ⟨⟨⟨hc.appendOnly, hc.applied, hc.uncommitted, hc.pending, hc.mainClosed,
          hc.mainDropped, hc.mainAfterLast, hc.opened, hc.known, ?_⟩, hl.createSnapshot forceCreate, hw⟩,
          _, rfl⟩
        exact nofun
    · exact ⟨ht, _, rfl⟩

end TableHandler

namespace HandlerInput

variable {Row : Type}

/-- The event of the queue, if the input is not a background result. -/
def event? : HandlerInput Row → Option (TableEvent Row)
  | .event e => some e
  | _ => none

/-- The events of the queue, in order. -/
def events (inputs : List (HandlerInput Row)) : List (TableEvent Row) := inputs.filterMap event?

end HandlerInput

namespace TableHandler

variable {Row : Type} {b : Build} {S : Setting} {src src' : Source} {v : TableView Row}
variable {h h' : TableHandler Row} {e : TableEvent Row}

/-- Results of flushes and snapshots leave the contents alone and never panic. -/
theorem next_background {i : HandlerInput Row} {u : Option Nat} (ht : TableInv S src v h.table u)
    (hi : i.event? = none) :
    Returns (h.next b i) fun h' => TableInv S src v h'.table u ∧
      ∃ o, h'.state = { h.state with mooncakeSnapshotOngoing := o } := by
  obtain ⟨hcontents, hlsns, hwal⟩ := ht
  cases i with
  | event e => cases hi
  | flushResult lsn =>
    simp only [next]
    split
    · rename_i hmem
      refine Returns.bind (MooncakeTable.applyFlushResult_returns hlsns.flushInv hmem) ?_
      intro t' hstep
      have hongoing : lsn ∈ h.table.ongoingFlushLsns :=
        hlsns.flushInv.tracked.mem_iff.mpr (List.mem_append_left _ hmem)
      refine Returns.pure ⟨⟨hcontents.flushStep hstep, hlsns.flushResult hongoing hstep, ?_⟩, _, rfl⟩
      rw [hstep.contents.wal]
      exact hwal
    · exact Returns.ok ⟨⟨hcontents, hlsns, hwal⟩, _, rfl⟩
  | streamFlushResult x =>
    simp only [next]
    split
    · rename_i hany
      obtain ⟨st, hlook, hcount⟩ := (Option.any_eq_true _ _).mp hany
      refine Returns.bind (MooncakeTable.applyStreamFlushResult_returns hlsns.flushInv hlook
        (by simpa using hcount)) ?_
      intro t' hstep
      refine Returns.pure ⟨⟨hcontents.streamFlushStep hstep, hlsns.streamStep hstep, ?_⟩, _, rfl⟩
      rw [hstep.contents.wal]
      exact hwal
    · exact Returns.ok ⟨⟨hcontents, hlsns, hwal⟩, _, rfl⟩
  | periodicalMooncakeTableSnapshot otherWork =>
    exact Returns.ok (tryCreateSnapshot_spec h false otherWork ⟨hcontents, hlsns, hwal⟩)
  | mooncakeTableSnapshotResult =>
    simp only [next]
    split
    · exact Returns.ok ⟨⟨hcontents, hlsns, hwal⟩, _, rfl⟩
    · exact Returns.ok ⟨⟨hcontents, hlsns, hwal⟩, _, rfl⟩

theorem Inv.background {i : HandlerInput Row} (hinv : Inv S src v h) (hi : i.event? = none) :
    Returns (h.next b i) (Inv S src v) := by
  refine Returns.mono (next_background hinv.table hi) ?_
  rintro h' ⟨ht, o, hs⟩
  exact ⟨by rw [hs]; exact hinv.normal, by rw [hs]; exact hinv.persistence,
    by rw [hs]; exact hinv.unflushed, by rw [hs]; exact ht⟩

/-! ## Runs -/

/-- If the WAL was persisted before, the persistent LSN is not below what it has completed. -/
theorem le_initialPersistenceLsn (persistenceSnapshotLsn : Option Nat) {wal : WalManager Row}
    (hpos : 0 < wal.currFileNumber) :
    ∃ p, initialPersistenceLsn persistenceSnapshotLsn wal = some p ∧ wal.highestCompletionLsn ≤ p := by
  unfold initialPersistenceLsn
  rw [if_pos hpos]
  cases persistenceSnapshotLsn with
  | none => exact ⟨_, rfl, Nat.le_refl _⟩
  | some lsn => exact ⟨_, rfl, Nat.le_max_right _ _⟩

/-- The steps of a change stream that the handler takes without a panic. -/
def Allowed (S : Setting) (src : Source) (e : TableEvent Row) (src' : Source) : Prop :=
  Source.Step S.appendOnly src e src' ∧ CommitCondition S src e

theorem isIngestEvent_of_step (hstep : Source.Step S.appendOnly src e src') :
    e.isIngestEvent = true := by
  cases hstep with
  | mainRow => rename_i op lsn _ _; cases op <;> rfl
  | mainCommit => rfl
  | streamRow => rename_i op x _ _ _; cases op <;> rfl
  | streamCommit => rfl
  | streamAbort => rfl

theorem Inv.event (hS : S.WellFormed) (hinv : Inv S src v h) (hstep : Allowed S src e src') :
    Returns (h.next b (.event e)) (Inv S src' (v.keep S.persistence e)) := by
  change Returns (h.handleEvent b e) _
  unfold handleEvent
  rw [if_pos (isIngestEvent_of_step hstep.1)]
  exact processCdcTableEvent_returns hS hinv hstep.1 hstep.2

/-- A run on a change stream, with background results anywhere in between. -/
theorem Inv.run (hS : S.WellFormed) {inputs : List (HandlerInput Row)} (hinv : Inv S src v h)
    (htrace : Trace (Allowed S) src (HandlerInput.events inputs) src') :
    Returns (h.run b inputs)
      (Inv S src' (v.keepAll S.persistence (HandlerInput.events inputs))) := by
  induction inputs generalizing h src v with
  | nil =>
    cases htrace
    exact Returns.ok hinv
  | cons i rest ih =>
    unfold TableHandler.run
    cases hi : i.event? with
    | none =>
      have hrest : HandlerInput.events (i :: rest) = HandlerInput.events rest :=
        List.filterMap_cons_none hi
      rw [hrest] at htrace ⊢
      exact Returns.bind (hinv.background hi) fun h₁ hinv₁ => ih hinv₁ htrace
    | some e =>
      have hrest : HandlerInput.events (i :: rest) = e :: HandlerInput.events rest :=
        List.filterMap_cons_some hi
      rw [hrest] at htrace ⊢
      obtain rfl : i = .event e := by
        cases i <;> cases hi
        rfl
      cases htrace with
      | cons hstep htail =>
        exact Returns.bind (hinv.event hS hstep) fun h₁ hinv₁ => ih hinv₁ htail

end TableHandler
end Moonlink
