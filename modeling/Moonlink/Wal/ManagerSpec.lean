-- SUMMARY: One specification lemma for each operation of the WAL manager.
import Moonlink.Wal.History

namespace Moonlink

open Lib

namespace WalEvent

variable {Row : Type}

/-- The tracked state after this event, for a transaction that started in `startFile`. -/
def nextState (e : WalEvent Row) (startFile highestCompletionLsn currFileNumber : Nat) :
    WalTransactionState :=
  match e with
  | .commit lsn _ => .commit startFile lsn currFileNumber
  | .streamAbort _ => .abort startFile highestCompletionLsn currFileNumber
  | _ => .open startFile

@[simp] theorem nextState_getStartFile (e : WalEvent Row) (startFile hi curr : Nat) :
    (e.nextState startFile hi curr).getStartFile = startFile := by
  cases e <;> rfl

/-- Events that ingestion pushes. -/
def isIngest : WalEvent Row → Bool
  | .streamFlush _ => false
  | _ => true

theorem isIngest_of_new {e : TableEvent Row} {e' : WalEvent Row} (hnew : new e = .ok e')
    (hingest : e.isIngestEvent = true) : e'.isIngest = true := by
  cases e <;> cases hnew <;> first | rfl | cases hingest

end WalEvent

namespace WalManager

variable {Row : Type} {b : Build} {w w' : WalManager Row} {e : TableEvent Row} {e' : WalEvent Row}

/-! ## Inserting events -/

theorem updateTransactionTracking_frame (h : w.updateTransactionTracking b e = .ok w') :
    w'.inMemBuf = w.inMemBuf ∧ w'.currFileNumber = w.currFileNumber ∧
      w'.liveWalFilesTracker = w.liveWalFilesTracker ∧
      w'.highestCompletionLsn = w.highestCompletionLsn := by
  unfold updateTransactionTracking at h
  split at h
  · obtain ⟨st, -, h⟩ := bind_eq_ok.mp h
    cases h
    exact ⟨rfl, rfl, rfl, rfl⟩
  · obtain ⟨st, -, h⟩ := bind_eq_ok.mp h
    obtain ⟨tracker, -, h⟩ := bind_eq_ok.mp h
    cases h
    exact ⟨rfl, rfl, rfl, rfl⟩

theorem commitLsn?_of_new (hnew : WalEvent.new e = .ok e') : commitLsn? e = e'.commitLsn? := by
  cases e <;> cases hnew <;> rfl

theorem updateHighestCompletionLsn_eq_ok {highest : Nat}
    (h : w.updateHighestCompletionLsn e = .ok highest) (hnew : WalEvent.new e = .ok e') :
    (∀ lsn, e'.commitLsn? = some lsn → lsn = 0 ∨ w.highestCompletionLsn ≤ lsn) ∧
      highest = e'.commitLsn?.getD w.highestCompletionLsn := by
  unfold updateHighestCompletionLsn at h
  rw [commitLsn?_of_new hnew] at h
  cases hlsn : e'.commitLsn? with
  | none =>
    rw [hlsn] at h
    cases h
    exact ⟨nofun, rfl⟩
  | some lsn =>
    rw [hlsn] at h
    obtain ⟨_, hassert, h⟩ := bind_eq_ok.mp h
    rw [pure_eq_ok_iff] at h
    subst h
    refine ⟨?_, rfl⟩
    rintro lsn' ⟨⟩
    simpa using hassert

/-- A push that does not panic appends the event to the buffer, checks a commit LSN
against the highest one, and updates the tracking. -/
theorem push_eq_ok (h : w.push b e = .ok w') (hnew : WalEvent.new e = .ok e') :
    e.isRecovery = .ok false ∧
      (∀ lsn, e'.commitLsn? = some lsn → lsn = 0 ∨ w.highestCompletionLsn ≤ lsn) ∧
      updateTransactionTracking b
        { w with
          inMemBuf := w.inMemBuf ++ [e']
          highestCompletionLsn := e'.commitLsn?.getD w.highestCompletionLsn } e = .ok w' := by
  unfold push at h
  obtain ⟨isRecovery, hrec, htail⟩ := bind_eq_ok.mp h
  obtain ⟨_, hassert, hpush⟩ := bind_eq_ok.mp htail
  rw [hnew, ok_bind] at hpush
  have hfalse : isRecovery = false := by simpa using hassert
  obtain ⟨highest, hhighest, hup⟩ := bind_eq_ok.mp hpush
  obtain ⟨hcheck, rfl⟩ := updateHighestCompletionLsn_eq_ok hhighest hnew
  exact ⟨by rw [hrec, hfalse], hcheck, hup⟩

theorem push_frame (h : w.push b e = .ok w') (hnew : WalEvent.new e = .ok e') :
    w'.inMemBuf = w.inMemBuf ++ [e'] ∧ w'.currFileNumber = w.currFileNumber ∧
      w'.liveWalFilesTracker = w.liveWalFilesTracker ∧
      w'.highestCompletionLsn = e'.commitLsn?.getD w.highestCompletionLsn :=
  updateTransactionTracking_frame (push_eq_ok h hnew).2.2

theorem getUpdatedXactState_of_new (hnew : WalEvent.new e = .ok e') (st : WalTransactionState)
    (hi curr : Nat) :
    getUpdatedXactState e st hi curr = .ok (e'.nextState st.getStartFile hi curr) := by
  cases e <;> cases hnew <;> rfl

theorem trackedXactId_of_ingest (hnew : WalEvent.new e = .ok e')
    (hingest : e.isIngestEvent = true) : trackedXactId e = e'.xactId := by
  cases e <;> cases hnew <;> first | rfl | cases hingest

/-- A streaming event updates the state under its transaction id. -/
theorem push_streaming (h : w.push b e = .ok w') (hnew : WalEvent.new e = .ok e')
    (hingest : e.isIngestEvent = true) {x : XactId} (hx : e'.xactId = some x) :
    w'.mainTransactionTracker = w.mainTransactionTracker ∧
      w'.activeTransactions = w.activeTransactions.insert x
        (e'.nextState
          ((w.activeTransactions.lookup x).getD (.open w.currFileNumber)).getStartFile
          w'.highestCompletionLsn w.currFileNumber) := by
  obtain ⟨-, -, hup⟩ := push_eq_ok h hnew
  obtain ⟨-, -, -, hhi⟩ := push_frame h hnew
  unfold updateTransactionTracking at hup
  rw [trackedXactId_of_ingest hnew hingest, hx] at hup
  simp only at hup
  rw [getUpdatedXactState_of_new hnew, ok_bind, pure_eq_ok_iff] at hup
  rw [hhi]
  subst hup
  exact ⟨rfl, rfl⟩

/-- An event of the main transaction updates the main tracker. -/
theorem push_main (h : w.push b e = .ok w') (hnew : WalEvent.new e = .ok e')
    (hingest : e.isIngestEvent = true) (hx : e'.xactId = none) :
    w'.activeTransactions = w.activeTransactions ∧
      pushMain b w.popOpenMain.2
        (e'.nextState w.popOpenMain.1.getStartFile w'.highestCompletionLsn w.currFileNumber) =
        .ok w'.mainTransactionTracker := by
  obtain ⟨-, -, hup⟩ := push_eq_ok h hnew
  obtain ⟨-, -, -, hhi⟩ := push_frame h hnew
  unfold updateTransactionTracking at hup
  rw [trackedXactId_of_ingest hnew hingest, hx] at hup
  simp only at hup
  rw [getUpdatedXactState_of_new hnew, ok_bind] at hup
  obtain ⟨tracker, hpush, hup⟩ := bind_eq_ok.mp hup
  rw [pure_eq_ok_iff] at hup
  rw [hhi]
  subst hup
  exact ⟨rfl, hpush⟩

variable {st : WalTransactionState}

/-- What is pushed ends up last; of the others at most a commit that starts in the
current file is dropped. -/
theorem pushMain_eq_ok {tracker tracker' : List WalTransactionState}
    (h : pushMain b tracker st = .ok tracker') :
    ∃ kept, tracker' = kept ++ [st] ∧ (kept = tracker ∨
      ∃ prevStartFile lsn fileEnd, tracker = kept ++ [.commit prevStartFile lsn fileEnd] ∧
        ∃ startFile lsn', st = .commit startFile lsn' prevStartFile) := by
  unfold pushMain at h
  split at h
  · rename_i startFile lsn currFileEnd prevStartFile prevLsn prevEnd hlast
    rw [pure_eq_ok_iff] at h
    split at h
    · rename_i heq
      refine ⟨tracker.dropLast, h.symm, .inr ⟨prevStartFile, prevLsn, prevEnd, ?_, ?_⟩⟩
      · exact (List.dropLast_append_getLast? _ hlast).symm
      · exact ⟨startFile, lsn, by rw [heq]⟩
    · exact ⟨tracker, h.symm, .inl rfl⟩
  · obtain ⟨_, -, h⟩ := bind_eq_ok.mp h
    rw [pure_eq_ok_iff] at h
    exact ⟨tracker, h.symm, .inl rfl⟩
  · rw [pure_eq_ok_iff] at h
    exact ⟨tracker, h.symm, .inl rfl⟩

/-- The main transaction continues from the open state at the end of the tracker, or
starts in the current file. -/
theorem popOpenMain_cases (w : WalManager Row) :
    (w.popOpenMain = (.open w.currFileNumber, w.mainTransactionTracker)) ∨
      ∃ st kept, w.mainTransactionTracker = kept ++ [st] ∧ st.isClosed = false ∧
        w.popOpenMain = (st, kept) := by
  unfold popOpenMain
  split
  · rename_i st hlast
    split
    · exact .inl rfl
    · rename_i hclosed
      refine .inr ⟨st, w.mainTransactionTracker.dropLast, ?_, by simpa using hclosed, rfl⟩
      exact (List.dropLast_append_getLast? _ hlast).symm
  · exact .inl rfl

/-! ## Truncation -/

/-- Every uncaptured tracked transaction starts at or above the lowest file to keep. -/
theorem getLowestFileToKeep_le_streaming {lsn : Nat} {x : XactId}
    (hlook : w.activeTransactions.lookup x = some st)
    (hcap : st.isCapturedInIcebergSnapshot lsn = false) :
    w.getLowestFileToKeep lsn ≤ st.getStartFile := by
  unfold getLowestFileToKeep
  simp only
  have hmem : st.getStartFile ∈
      ((w.activeTransactions.values.filter fun st =>
        !st.isCapturedInIcebergSnapshot lsn).map (·.getStartFile)) :=
    List.mem_map_of_mem
      (List.mem_filter.mpr ⟨AssocMap.mem_values_iff.mpr ⟨x, hlook⟩, by rw [hcap]; rfl⟩)
  exact List.min?_getD_le_of_mem (List.mem_append_left _ hmem)

theorem getLowestFileToKeep_le_main {lsn : Nat}
    (hsorted : w.mainTransactionTracker.Pairwise fun st st' => st.getStartFile ≤ st'.getStartFile)
    (hmem : st ∈ w.mainTransactionTracker) (hcap : st.isCapturedInIcebergSnapshot lsn = false) :
    w.getLowestFileToKeep lsn ≤ st.getStartFile := by
  unfold getLowestFileToKeep
  simp only
  -- the scan stops at the first uncaptured state, which starts no later than `st`
  cases hfind : w.mainTransactionTracker.find? fun st => !st.isCapturedInIcebergSnapshot lsn with
  | none =>
    have := List.find?_eq_none.mp hfind st hmem
    simp [hcap] at this
  | some first =>
    have hle : first.getStartFile ≤ st.getStartFile := by
      obtain ⟨-, pre, post, hsplit, hpre⟩ := List.find?_eq_some_iff_append.mp hfind
      rw [hsplit] at hmem hsorted
      rcases List.mem_append.mp hmem with hin | hin
      · have := hpre st hin
        simp [hcap] at this
      · rcases List.mem_cons.mp hin with rfl | hin
        · exact Nat.le_refl _
        · exact (List.pairwise_cons.mp (List.pairwise_append.mp hsorted).2.1).1 st hin
    refine Nat.le_trans (List.min?_getD_le_of_mem (List.mem_append_right _ ?_)) hle
    simp

theorem getFilesToTruncate_eq_ok {lsn : Nat} {files : List WalFileInfo}
    (h : w.getFilesToTruncate lsn = .ok files) :
    files = w.liveWalFilesTracker.filter fun f => f.fileNumber < w.getLowestFileToKeep lsn := by
  unfold getFilesToTruncate at h
  obtain ⟨_, -, h⟩ := bind_eq_ok.mp h
  rw [pure_eq_ok_iff] at h
  exact h.symm

/-! ## Persistence updates -/

/-- The tracked states that remain after a snapshot. -/
theorem computeCleanedupXacts_eq_ok {lsn : Option Nat} {files : List WalFileInfo}
    {active : AssocMap XactId WalTransactionState} {main : List WalTransactionState}
    (h : w.computeCleanedupXacts b lsn files = .ok (active, main)) :
    active = w.activeTransactions.retain (fun _ st =>
        !lsn.any fun l => st.isCapturedInIcebergSnapshot l) ∧
      main = w.mainTransactionTracker.filter (fun st =>
        !lsn.any fun l => st.isCapturedInIcebergSnapshot l) := by
  unfold computeCleanedupXacts at h
  cases lsn with
  | none =>
    simp only [pure_eq_ok_iff, Prod.mk.injEq] at h
    obtain ⟨rfl, rfl⟩ := h
    constructor
    · apply AList.ext
      simp [AssocMap.retain]
    · simp
  | some l =>
    obtain ⟨_, -, h⟩ := bind_eq_ok.mp h
    simp only [pure_eq_ok_iff, Prod.mk.injEq] at h
    obtain ⟨rfl, rfl⟩ := h
    exact ⟨rfl, rfl⟩

/-- What `prepare_persistent_update` hands to the background task. -/
structure PrepareSpec (b : Build) (w w' : WalManager Row) (lsn : Option Nat)
    (u : PreparePersistentUpdate Row) : Prop where
  manager : w' = w.extractNextPersistenceFile.1
  filesToPersist : u.filesToPersist = w.extractNextPersistenceFile.2
  filesToDelete : ∀ f ∈ u.filesToDelete, ∃ l, lsn = some l ∧ f ∈ w.liveWalFilesTracker ∧
    f.fileNumber < w.getLowestFileToKeep l
  sublist : u.filesToDelete.Sublist w.liveWalFilesTracker
  accompanying : u.accompanyingPersistenceSnapshotLsn = lsn
  snapshotLsn : u.persistentWalMetadata.persistenceSnapshotLsn = lsn
  currFileNumber : u.persistentWalMetadata.currFileNumber = w'.currFileNumber
  highestCompletionLsn : u.persistentWalMetadata.highestCompletionLsn = w.highestCompletionLsn
  live : u.persistentWalMetadata.liveWalFilesTracker =
    w.computeUpdatedLiveWalFileTracker u.filesToDelete (u.filesToPersist.map (·.2))
  xacts : w'.computeCleanedupXacts b lsn u.filesToDelete =
    .ok (u.persistentWalMetadata.activeTransactions, u.persistentWalMetadata.mainTransactionTracker)

theorem extractNextPersistenceFile_frame (w : WalManager Row) :
    w.extractNextPersistenceFile.1.highestCompletionLsn = w.highestCompletionLsn ∧
      w.extractNextPersistenceFile.1.liveWalFilesTracker = w.liveWalFilesTracker ∧
      w.extractNextPersistenceFile.1.activeTransactions = w.activeTransactions ∧
      w.extractNextPersistenceFile.1.mainTransactionTracker = w.mainTransactionTracker := by
  unfold extractNextPersistenceFile
  split <;> exact ⟨rfl, rfl, rfl, rfl⟩

theorem le_extractNextPersistenceFile (w : WalManager Row) :
    w.currFileNumber ≤ w.extractNextPersistenceFile.1.currFileNumber := by
  unfold extractNextPersistenceFile
  split
  · exact Nat.le_refl _
  · exact Nat.le_succ _

theorem preparePersistentUpdate_eq_ok {lsn : Option Nat} {u : PreparePersistentUpdate Row}
    (h : w.preparePersistentUpdate b lsn = .ok (w', u)) : PrepareSpec b w w' lsn u := by
  unfold preparePersistentUpdate at h
  obtain ⟨files, hfiles, h⟩ := bind_eq_ok.mp h
  simp only at h
  obtain ⟨metadata, hmeta, h⟩ := bind_eq_ok.mp h
  simp only [pure_eq_ok_iff, Prod.mk.injEq] at h
  obtain ⟨rfl, rfl⟩ := h
  unfold prepareMetadata at hmeta
  obtain ⟨⟨active, main⟩, hclean, hmeta⟩ := bind_eq_ok.mp hmeta
  simp only [pure_eq_ok_iff] at hmeta
  subst hmeta
  obtain ⟨hhi, hlive, -, -⟩ := extractNextPersistenceFile_frame w
  refine ⟨rfl, rfl, ?_, ?_, rfl, rfl, rfl, hhi, ?_, hclean⟩
  · intro f hf
    cases lsn with
    | none =>
      cases hfiles
      cases hf
    | some l =>
      have := getFilesToTruncate_eq_ok hfiles
      subst this
      obtain ⟨hmem, hlt⟩ := List.mem_filter.mp hf
      exact ⟨l, rfl, hmem, by simpa using hlt⟩
  · cases lsn with
    | none =>
      cases hfiles
      exact List.nil_sublist _
    | some l =>
      rw [getFilesToTruncate_eq_ok hfiles]
      exact List.filter_sublist
  · unfold computeUpdatedLiveWalFileTracker
    rw [hlive]

theorem handleComplete_eq_ok {u : PreparePersistentUpdate Row} {walLsn : Option Nat}
    (h : w.handleCompleteWalPersistenceUpdate b u = .ok (w', walLsn)) :
    w'.inMemBuf = w.inMemBuf ∧ w'.currFileNumber = w.currFileNumber ∧
      w'.highestCompletionLsn = w.highestCompletionLsn ∧
      w'.liveWalFilesTracker =
        w.computeUpdatedLiveWalFileTracker u.filesToDelete (u.filesToPersist.map (·.2)) ∧
      w.computeCleanedupXacts b u.accompanyingPersistenceSnapshotLsn u.filesToDelete =
        .ok (w'.activeTransactions, w'.mainTransactionTracker) ∧
      walLsn = u.filesToPersist.map (·.2.highestLsn) := by
  unfold handleCompleteWalPersistenceUpdate at h
  obtain ⟨w₁, hup, h⟩ := bind_eq_ok.mp h
  simp only [pure_eq_ok_iff, Prod.mk.injEq] at h
  obtain ⟨rfl, rfl⟩ := h
  unfold updateTrackersForPersistenceUpdateResult at hup
  obtain ⟨⟨active, main⟩, hclean, hup⟩ := bind_eq_ok.mp hup
  obtain ⟨_, -, hup⟩ := bind_eq_ok.mp hup
  simp only [pure_eq_ok_iff] at hup
  subst hup
  exact ⟨rfl, rfl, rfl, rfl, hclean, rfl⟩

end WalManager
end Moonlink
