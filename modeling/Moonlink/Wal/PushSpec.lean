-- SUMMARY: When a push to the WAL does not panic, and the shape of the main tracker that this needs.
import Moonlink.Wal.ReplaySpec

namespace Moonlink

open Lib

/-- Commits, then at most one open transaction. -/
def MainShape (main : List WalTransactionState) : Prop :=
  ∃ kept opened, main = kept ++ opened ∧ (∀ st ∈ kept, ∃ f l g, st = .commit f l g) ∧
    (opened = [] ∨ ∃ f, opened = [.open f])

namespace MainShape

theorem nil : MainShape [] := ⟨[], [], rfl, by simp, .inl rfl⟩

/-- An open transaction is not captured by any snapshot. -/
theorem retain {main : List WalTransactionState} (h : MainShape main) (lsn : Option Nat) :
    MainShape (main.filter fun st => !lsn.any fun l => st.isCapturedInIcebergSnapshot l) := by
  obtain ⟨kept, opened, rfl, hkept, hopened⟩ := h
  rw [List.filter_append]
  refine ⟨_, _, rfl, fun st hst => hkept st (List.mem_filter.mp hst).1, ?_⟩
  rcases hopened with rfl | ⟨f, rfl⟩
  · exact .inl rfl
  · exact .inr ⟨f, by cases lsn <;> simp⟩

end MainShape

/-- Only streaming transactions are aborted. -/
theorem WalEvent.nextState_ne_abort {Row : Type} {e : WalEvent Row} (hx : e.xactId = none)
    (startFile highest curr : Nat) :
    ∀ f l g, e.nextState startFile highest curr ≠ .abort f l g := by
  intro f l g h
  cases e with
  | streamAbort x => cases hx
  | append row x lsn => cases h
  | delete row lsn x d => cases h
  | commit lsn x => cases h
  | streamFlush x => cases h

namespace WalManager

variable {Row : Type} {b : Build} {w w' : WalManager Row} {e : TableEvent Row} {e' : WalEvent Row}

/-- What stays in the tracker when the main transaction continues are commits. -/
theorem popOpenMain_commits (h : MainShape w.mainTransactionTracker) :
    ∀ st ∈ w.popOpenMain.2, ∃ f l g, st = .commit f l g := by
  obtain ⟨kept, opened, hmain, hkept, hopened⟩ := h
  rcases w.popOpenMain_cases with heq | ⟨st, kept', hmain', hclosed, heq⟩
  · rw [heq]
    rcases hopened with rfl | ⟨f, rfl⟩
    · simpa [hmain] using hkept
    · -- an open state at the end would have been popped
      have hpop : w.popOpenMain = (.open f, kept) := by
        unfold popOpenMain
        simp [hmain, WalTransactionState.isClosed, WalTransactionState.getCompletionLsnAndFile]
      rw [hpop] at heq
      rw [← (Prod.mk.inj heq).2]
      exact hkept
  · rw [heq]
    rcases hopened with rfl | ⟨f, rfl⟩
    · have hst : st ∈ kept := by
        rw [List.append_nil] at hmain
        rw [← hmain, hmain']
        simp
      obtain ⟨f, l, g, rfl⟩ := hkept st hst
      cases hclosed
    · have hkept' := List.append_inj_left' (hmain.symm.trans hmain') rfl
      rw [← hkept']
      exact hkept

theorem pushMain_returns {tracker : List WalTransactionState} {updated : WalTransactionState}
    (hcommits : ∀ st ∈ tracker, ∃ f l g, st = .commit f l g) (hnot : ∀ f l g, updated ≠ .abort f l g) :
    Returns (pushMain b tracker updated) MainShape := by
  have hshape : ∀ kept : List WalTransactionState, (∀ st ∈ kept, ∃ f l g, st = .commit f l g) →
      MainShape (kept ++ [updated]) := by
    intro kept hkept
    cases updated with
    | «open» f => exact ⟨kept, _, rfl, hkept, .inr ⟨f, rfl⟩⟩
    | commit f l g =>
      refine ⟨kept ++ [.commit f l g], [], by simp, ?_, .inl rfl⟩
      rw [List.forall_mem_append]
      exact ⟨hkept, by simp⟩
    | abort f l g => exact absurd rfl (hnot f l g)
  unfold pushMain
  split
  · refine Returns.pure (hshape _ ?_)
    split
    · exact fun st hst => hcommits st (List.dropLast_subset _ hst)
    · exact hcommits
  · rename_i st hcommit hlast
    obtain ⟨f, l, g, rfl⟩ := hcommits st (List.mem_of_getLast? hlast)
    exact (hcommit f l g rfl).elim
  · exact Returns.pure (hshape _ hcommits)

/-- An ingest event that is not a recovery event can be pushed, unless it is a commit
below the highest completion LSN. -/
theorem push_returns (hshape : MainShape w.mainTransactionTracker)
    (hrecovery : e.isRecovery = .ok false) (hingest : e.isIngestEvent = true)
    (hhigh : ∀ lsn, commitLsn? e = some lsn → w.highestCompletionLsn ≤ lsn) :
    Returns (w.push b e) fun w' => MainShape w'.mainTransactionTracker ∧
      w'.highestCompletionLsn = (commitLsn? e).getD w.highestCompletionLsn := by
  obtain ⟨e', hnew⟩ : ∃ e', WalEvent.new e = .ok e' := by
    cases e <;> first | exact ⟨_, rfl⟩ | cases hingest
  have hhighest : w.updateHighestCompletionLsn e =
      .ok ((commitLsn? e).getD w.highestCompletionLsn) := by
    unfold updateHighestCompletionLsn
    cases hlsn : commitLsn? e with
    | none => rfl
    | some lsn => simp [Moonlink.assert, hhigh lsn hlsn]
  unfold push
  rw [hrecovery, hnew, hhighest]
  simp only [ok_bind, Moonlink.assert, Bool.not_false, if_true]
  unfold updateTransactionTracking
  rw [trackedXactId_of_ingest hnew hingest]
  cases hx : e'.xactId with
  | some x =>
    simp only [getUpdatedXactState_of_new hnew, ok_bind]
    exact Returns.pure ⟨hshape, rfl⟩
  | none =>
    simp only [getUpdatedXactState_of_new hnew, ok_bind]
    refine Returns.bind (pushMain_returns (popOpenMain_commits hshape)
      (WalEvent.nextState_ne_abort hx _ _ _)) ?_
    intro tracker htracker
    exact Returns.pure ⟨htracker, rfl⟩

end WalManager

namespace WalStore

variable {Row : Type} {b : Build} {s s' : WalStore Row}

/-- The main trackers of the manager and of all metadata have the shape. -/
structure ShapeInv (s : WalStore Row) : Prop where
  manager : MainShape s.manager.mainTransactionTracker
  metadata : ∀ m, s.metadata = some m → MainShape m.mainTransactionTracker
  ongoing : ∀ o, s.ongoing = some o →
    MainShape o.update.persistentWalMetadata.mainTransactionTracker

theorem MainShape_push {w w' : WalManager Row} {e : TableEvent Row} {e' : WalEvent Row}
    (h : MainShape w.mainTransactionTracker) (hpush : w.push b e = .ok w')
    (hnew : WalEvent.new e = .ok e') (hingest : e.isIngestEvent = true) :
    MainShape w'.mainTransactionTracker := by
  cases hx : e'.xactId with
  | some x =>
    rw [(WalManager.push_streaming hpush hnew hingest hx).1]
    exact h
  | none =>
    obtain ⟨tracker, htracker, hshape⟩ := WalManager.pushMain_returns (b := b)
      (WalManager.popOpenMain_commits h)
      (WalEvent.nextState_ne_abort hx w.popOpenMain.1.getStartFile w'.highestCompletionLsn
        w.currFileNumber)
    rw [(WalManager.push_main hpush hnew hingest hx).2] at htracker
    cases htracker
    exact hshape

theorem ShapeInv.step (h : ShapeInv s) {a : WalAction Row} (henv : ingestEvents s a = true)
    (hstep : Step b s a s') : ShapeInv s' := by
  cases hstep with
  | push hpush hnew =>
    simp only [ingestEvents, Bool.and_eq_true] at henv
    exact ⟨MainShape_push h.manager hpush hnew henv.1, h.metadata, h.ongoing⟩
  | icebergSnapshot hle => exact ⟨h.manager, h.metadata, h.ongoing⟩
  | prepare hidle hprep =>
    have hspec := WalManager.preparePersistentUpdate_eq_ok hprep
    have hmain : MainShape (s.manager.extractNextPersistenceFile.1).mainTransactionTracker := by
      rw [(WalManager.extractNextPersistenceFile_frame s.manager).2.2.2]
      exact h.manager
    refine ⟨by rw [hspec.manager]; exact hmain, h.metadata, ?_⟩
    intro o ho
    split at ho
    · cases ho
      rw [(WalManager.computeCleanedupXacts_eq_ok hspec.xacts).2, hspec.manager]
      exact hmain.retain _
    · cases ho
  | persistNewWalFile hon =>
    have hold := h.ongoing _ hon
    refine ⟨h.manager, h.metadata, ?_⟩
    rintro o ⟨⟩
    exact hold
  | persistMetadata hon =>
    have hold := h.ongoing _ hon
    refine ⟨h.manager, ?_, ?_⟩
    · rintro m ⟨⟩
      exact hold
    · rintro o ⟨⟩
      exact hold
  | deleteFile hon hmem =>
    have hold := h.ongoing _ hon
    refine ⟨h.manager, h.metadata, ?_⟩
    rintro o ⟨⟩
    exact hold
  | complete hon hcomplete =>
    obtain ⟨-, -, -, -, hclean, -⟩ := WalManager.handleComplete_eq_ok hcomplete
    refine ⟨?_, h.metadata, nofun⟩
    rw [(WalManager.computeCleanedupXacts_eq_ok hclean).2]
    exact h.manager.retain _
  | crash =>
    refine ⟨?_, h.metadata, nofun⟩
    cases hm : s.metadata with
    | none => exact MainShape.nil
    | some m => exact h.metadata m hm

theorem ShapeInv_reachable (hs : (system b ingestEvents).Reachable s) : ShapeInv s := by
  have hind : (system b ingestEvents).Inductive (fun s : WalStore Row => ShapeInv s) := by
    constructor
    · rintro s rfl
      exact ⟨MainShape.nil, nofun, nofun⟩
    · rintro s s' h ⟨a, henv, hnext⟩
      exact h.step henv (Step_of_next hnext)
  exact hind.reachable hs

theorem MainShape_recoveredManager (hs : (system b ingestEvents).Reachable s) :
    MainShape (recoveredManager s.metadata : WalManager Row).mainTransactionTracker := by
  cases hm : s.metadata with
  | none => exact MainShape.nil
  | some m => exact (ShapeInv_reachable hs).metadata m hm

/-! ## The recovered manager -/

/-- Metadata is only written once there was a file to write. -/
structure NumberInv (s : WalStore Row) : Prop where
  metadata : ∀ m, s.metadata = some m → 0 < m.currFileNumber
  ongoing : ∀ o, s.ongoing = some o → 0 < o.update.persistentWalMetadata.currFileNumber

/-- An update has a file to write, or a live file to delete. -/
theorem prepare_currFileNumber_pos (hdisk : DiskInv s) (hidle : s.ongoing = none) {w : WalManager Row}
    {u : PreparePersistentUpdate Row}
    (hprep : s.manager.preparePersistentUpdate b s.persistenceSnapshotLsn = .ok (w, u))
    (hdo : u.shouldDoPersistence = true) : 0 < u.persistentWalMetadata.currFileNumber := by
  have hspec := WalManager.preparePersistentUpdate_eq_ok hprep
  rw [hspec.currFileNumber, hspec.manager]
  by_cases hdelete : u.filesToDelete = []
  · have hpersist : s.manager.extractNextPersistenceFile.2.isSome = true := by
      rw [← hspec.filesToPersist]
      simpa [PreparePersistentUpdate.shouldDoPersistence, hdelete] using hdo
    unfold WalManager.extractNextPersistenceFile at hpersist ⊢
    split at hpersist
    · cases hpersist
    · rename_i hbuf
      rw [if_neg hbuf]
      exact Nat.succ_pos _
  · obtain ⟨f, hf⟩ := List.exists_mem_of_ne_nil _ hdelete
    obtain ⟨-, -, hlive, -⟩ := hspec.filesToDelete f hf
    have hstate := hdisk.idle hidle
    obtain ⟨first, hrange⟩ := hdisk.durable.range
    rw [hstate.live] at hlive
    have hlt := hrange.lt_next hlive
    rw [← hstate.curr] at hlt
    exact Nat.lt_of_lt_of_le (Nat.zero_lt_of_lt hlt) (WalManager.le_extractNextPersistenceFile _)

theorem NumberInv.step (h : NumberInv s) (hdisk : DiskInv s) {a : WalAction Row}
    (hstep : Step b s a s') : NumberInv s' := by
  cases hstep with
  | push hpush hnew => exact ⟨h.metadata, h.ongoing⟩
  | icebergSnapshot hle => exact ⟨h.metadata, h.ongoing⟩
  | prepare hidle hprep =>
    refine ⟨h.metadata, ?_⟩
    intro o ho
    split at ho
    · rename_i hdo
      cases ho
      exact prepare_currFileNumber_pos hdisk hidle hprep hdo
    · cases ho
  | persistNewWalFile hon =>
    have hold := h.ongoing _ hon
    refine ⟨h.metadata, ?_⟩
    rintro o ⟨⟩
    exact hold
  | persistMetadata hon =>
    have hold := h.ongoing _ hon
    refine ⟨?_, ?_⟩
    · rintro m ⟨⟩
      exact hold
    · rintro o ⟨⟩
      exact hold
  | deleteFile hon hmem =>
    have hold := h.ongoing _ hon
    refine ⟨h.metadata, ?_⟩
    rintro o ⟨⟩
    exact hold
  | complete hon hcomplete => exact ⟨h.metadata, nofun⟩
  | crash => exact ⟨h.metadata, nofun⟩

theorem NumberInv_reachable {env : Environment Row} (hs : (system b env).Reachable s) :
    NumberInv s := by
  induction hs with
  | init hinit =>
    cases hinit
    exact ⟨nofun, nofun⟩
  | step hs hstep ih =>
    obtain ⟨a, -, hnext⟩ := hstep
    exact ih.step (DiskInv_reachable hs) (Step_of_next hnext)

/-- A recovered manager that has completed a transaction has persisted a file before. -/
theorem recoveredManager_currFileNumber_pos {env : Environment Row}
    (hs : (system b env).Reachable s)
    (hpos : 0 < (recoveredManager s.metadata : WalManager Row).highestCompletionLsn) :
    0 < (recoveredManager s.metadata : WalManager Row).currFileNumber := by
  cases hm : s.metadata with
  | none =>
    rw [hm] at hpos
    cases hpos
  | some m => exact (NumberInv_reachable hs).metadata m hm

end WalStore
end Moonlink
