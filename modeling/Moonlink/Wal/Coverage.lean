-- SUMMARY: In every run of ingest events, truncation only deletes files whose transactions the snapshot captures.
import Moonlink.Wal.Disk
import Moonlink.Wal.Tracking

namespace Moonlink

open Lib

namespace WalStore

variable {Row : Type} {b : Build} {s s' : WalStore Row}

/-- The metadata agrees with the log it was written for, and what it no longer
counts as live is captured by its snapshot. -/
structure Agrees (m : PersistentWalMetadata) (log : WalLog Row) : Prop where
  tracks : Tracks m.activeTransactions m.mainTransactionTracker m.highestCompletionLsn
    m.currFileNumber log m.persistenceSnapshotLsn
  captured : ∀ pre n e post, log = pre ++ (n, e) :: post →
    (∀ f ∈ m.liveWalFilesTracker, f.fileNumber ≠ n) →
    (fate e (post.map (·.2))).isCaptured m.persistenceSnapshotLsn = true

structure TrackInv (s : WalStore Row) : Prop where
  manager : Tracks s.manager.activeTransactions s.manager.mainTransactionTracker
    s.manager.highestCompletionLsn s.manager.currFileNumber s.log s.persistenceSnapshotLsn
  durable : ∀ m, s.metadata = some m →
    Agrees m s.durableLog ∧ snapshotLe m.persistenceSnapshotLsn s.persistenceSnapshotLsn
  ongoing : ∀ o, s.ongoing = some o →
    Agrees o.update.persistentWalMetadata o.log ∧
      snapshotLe o.update.persistentWalMetadata.persistenceSnapshotLsn s.persistenceSnapshotLsn ∧
      o.update.accompanyingPersistenceSnapshotLsn =
        o.update.persistentWalMetadata.persistenceSnapshotLsn

variable {w : WalManager Row}

/-- Below the lowest file to keep, every transaction is captured. -/
theorem captured_of_lt_lowest {log : WalLog Row} {base : Option Nat} {lsn : Nat}
    (h : Tracks w.activeTransactions w.mainTransactionTracker w.highestCompletionLsn
      w.currFileNumber log base)
    (hbase : snapshotLe base (some lsn)) {pre post : WalLog Row} {n : Nat} {e : WalEvent Row}
    (hlog : log = pre ++ (n, e) :: post) (hlt : n < w.getLowestFileToKeep lsn) :
    (fate e (post.map (·.2))).isCaptured (some lsn) = true := by
  by_contra hcap
  obtain ⟨st, htracked, hstart, hst⟩ :=
    h.covered pre n e post hlog (some lsn) hbase (by simpa using hcap)
  have hle : w.getLowestFileToKeep lsn ≤ st.getStartFile := by
    cases hk : e.xactId with
    | none =>
      rw [hk] at htracked
      exact WalManager.getLowestFileToKeep_le_main h.mainSorted htracked hst
    | some x =>
      rw [hk] at htracked
      exact WalManager.getLowestFileToKeep_le_streaming htracked hst
  omega

/-- Dropping the captured transactions, at a prepare or at a completion. -/
theorem Tracks_cleanedup {log : WalLog Row} {base lsn : Option Nat}
    {del : List WalFileInfo} {active : AssocMap XactId WalTransactionState}
    {main : List WalTransactionState}
    (h : Tracks w.activeTransactions w.mainTransactionTracker w.highestCompletionLsn
      w.currFileNumber log base)
    (hclean : w.computeCleanedupXacts b lsn del = .ok (active, main)) (hle : snapshotLe lsn base) :
    Tracks active main w.highestCompletionLsn w.currFileNumber log base := by
  obtain ⟨rfl, rfl⟩ := WalManager.computeCleanedupXacts_eq_ok hclean
  exact h.retain hle

/-- An occurrence in a file before the current one lies in the durable part of the log. -/
theorem Filed.split {log base : WalLog Row} (h : Filed w log base)
    {pre post : WalLog Row} {n : Nat} {e : WalEvent Row} (hlog : log = pre ++ (n, e) :: post)
    (hn : n ≠ w.currFileNumber) :
    ∃ post' ext, post = post' ++ ext ∧ base = pre ++ (n, e) :: post' := by
  obtain ⟨ext, heq, hext⟩ := h.extends_base
  rw [hlog] at heq
  rcases append_split heq.symm with ⟨post', hbase, hpost⟩ | ⟨pre', -, hin⟩
  · exact ⟨post', ext, hpost, hbase⟩
  · have hmem : (n, e) ∈ ext := by
      rw [hin]
      exact List.mem_append_right _ List.mem_cons_self
    exact absurd (hext _ hmem) hn

theorem TrackInv_init : TrackInv (init : WalStore Row) where
  manager := Tracks.empty
  durable := by
    intro m h
    cases h
  ongoing := by
    intro o h
    cases h

/-- The metadata of a prepared update agrees with the log. -/
theorem Agrees_prepare (hdisk : DiskInv s) (h : TrackInv s)
    {u : PreparePersistentUpdate Row} (hidle : s.ongoing = none)
    (hprep : s.manager.preparePersistentUpdate b s.persistenceSnapshotLsn = .ok (w, u)) :
    Agrees u.persistentWalMetadata s.log := by
  have hspec := WalManager.preparePersistentUpdate_eq_ok hprep
  obtain ⟨hhi, hlive, hactive, hmain⟩ := WalManager.extractNextPersistenceFile_frame s.manager
  rw [← hspec.manager] at hhi hlive hactive hmain
  have hi := hdisk.idle hidle
  have hcurr : s.manager.currFileNumber ≤ w.currFileNumber := by
    rw [hspec.manager]
    exact WalManager.le_extractNextPersistenceFile s.manager
  have htracks : Tracks w.activeTransactions w.mainTransactionTracker w.highestCompletionLsn
      w.currFileNumber s.log s.persistenceSnapshotLsn := by
    rw [hactive, hmain, hhi]
    exact h.manager.mono hcurr (snapshotLe_refl _)
  constructor
  case tracks =>
      rw [hspec.snapshotLsn, hspec.highestCompletionLsn, hspec.currFileNumber, ← hhi]
      exact Tracks_cleanedup htracks hspec.xacts (snapshotLe_refl _)
  case captured =>
      intro pre n e post hlog hnot
      rw [hspec.snapshotLsn]
      rw [hspec.live] at hnot
      have hmem : (n, e) ∈ s.log := by
        rw [hlog]
        exact List.mem_append_right _ List.mem_cons_self
      -- the current file is in the update, or it is empty
      have hn : n ≠ s.manager.currFileNumber := by
        rintro rfl
        have hpersist := hspec.filesToPersist
        unfold WalManager.extractNextPersistenceFile at hpersist
        split at hpersist
        · rename_i hempty
          have hnil : contents s.log s.manager.currFileNumber = [] := by
            rw [← hi.filed.buffer]
            simpa using hempty
          exact contents_eq_nil_iff.mp hnil _ hmem rfl
        · refine hnot ⟨s.manager.currFileNumber, s.manager.highestCompletionLsn⟩ ?_ rfl
          exact WalManager.mem_computeUpdated.mpr (.inr (by rw [hpersist]; rfl))
      obtain ⟨post', ext, rfl, hdurable⟩ := hi.filed.split hlog hn
      by_cases hold : ∃ f ∈ s.manager.liveWalFilesTracker, f.fileNumber = n
      · -- a file that this update truncates
        obtain ⟨f, hf, rfl⟩ := hold
        have hdel : ∃ last, u.filesToDelete.getLast? = some last ∧
            f.fileNumber ≤ last.fileNumber := by
          by_contra hno
          push Not at hno
          exact hnot f (WalManager.mem_computeUpdated.mpr (.inl ⟨hf, hno⟩)) rfl
        obtain ⟨last, hlast, hle⟩ := hdel
        obtain ⟨lsn, hlsn, -, hlt⟩ := hspec.filesToDelete last (List.mem_of_getLast? hlast)
        have htr := h.manager
        rw [hlsn] at htr ⊢
        exact captured_of_lt_lowest htr (snapshotLe_refl _) hlog (Nat.lt_of_le_of_lt hle hlt)
      · -- a file that an earlier update truncated
        push Not at hold
        cases hmeta : s.metadata with
        | none =>
          have hlt := hdisk.durable.lt (n, e) (by rw [hdurable]; simp)
          rw [hmeta] at hlt
          exact absurd hlt (Nat.not_lt_zero _)
        | some m =>
          obtain ⟨hagrees, hle⟩ := h.durable m hmeta
          have hcap := hagrees.captured pre n e post' hdurable (by
            intro f hf
            refine hold f ?_
            rw [hi.live, hmeta]
            exact hf)
          rw [List.map_append, fate_append_of_isCaptured hcap]
          exact XactFate.isCaptured_mono hle hcap

theorem TrackInv.push (h : TrackInv s) {e : TableEvent Row} {e' : WalEvent Row}
    (hpush : s.manager.push b e = .ok w) (hnew : WalEvent.new e = .ok e')
    (henv : ingestEvents s (.push e) = true) :
    TrackInv { s with manager := w, log := s.log ++ [(s.manager.currFileNumber, e')] } := by
  obtain ⟨hingest, hmono⟩ : e.isIngestEvent = true ∧ _ := Bool.and_eq_true_iff.mp henv
  refine ⟨h.manager.push hpush hnew hingest ?_, h.durable, h.ongoing⟩
  intro lsn hlsn
  rw [WalManager.commitLsn?_of_new hnew, hlsn] at hmono
  simpa using hmono

theorem TrackInv.icebergSnapshot (h : TrackInv s) {lsn : Nat}
    (hle : s.persistenceSnapshotLsn.all (· ≤ lsn) = true) :
    TrackInv { s with persistenceSnapshotLsn := some lsn } := by
  have hle' : snapshotLe s.persistenceSnapshotLsn (some lsn) := by
    cases hsnap : s.persistenceSnapshotLsn with
    | none => trivial
    | some l =>
      rw [hsnap] at hle
      simpa [snapshotLe] using hle
  constructor
  case manager => exact h.manager.mono (Nat.le_refl _) hle'
  case durable =>
      intro m hm
      exact ⟨(h.durable m hm).1, snapshotLe_trans (h.durable m hm).2 hle'⟩
  case ongoing =>
      intro o ho
      obtain ⟨hagrees, hsnap, hacc⟩ := h.ongoing o ho
      exact ⟨hagrees, snapshotLe_trans hsnap hle', hacc⟩

theorem TrackInv.prepare (hdisk : DiskInv s) (h : TrackInv s)
    {u : PreparePersistentUpdate Row} (hidle : s.ongoing = none)
    (hprep : s.manager.preparePersistentUpdate b s.persistenceSnapshotLsn = .ok (w, u)) :
    TrackInv { s with
        manager := w
        ongoing := if u.shouldDoPersistence then some ⟨u, .persistNewWalFile, s.log⟩ else none } := by
  have hspec := WalManager.preparePersistentUpdate_eq_ok hprep
  have hagrees := Agrees_prepare hdisk h hidle hprep
  constructor
  case manager =>
      obtain ⟨hhi, -, hactive, hmain⟩ := WalManager.extractNextPersistenceFile_frame s.manager
      have htr := h.manager.mono (WalManager.le_extractNextPersistenceFile s.manager)
        (snapshotLe_refl _)
      rw [← hactive, ← hmain, ← hhi, ← hspec.manager] at htr
      exact htr
  case durable => exact h.durable
  case ongoing =>
      intro o ho
      have hdo : u.shouldDoPersistence = true := by
        by_contra hne
        simp [hne] at ho
      simp only [hdo, if_true, Option.some.injEq] at ho
      subst ho
      refine ⟨hagrees, ?_, ?_⟩
      · rw [hspec.snapshotLsn]
        exact snapshotLe_refl _
      · rw [hspec.accompanying, hspec.snapshotLsn]

theorem TrackInv.step (hdisk : DiskInv s) (h : TrackInv s) {a : WalAction Row}
    (henv : ingestEvents s a = true) (hstep : Step b s a s') : TrackInv s' := by
  cases hstep with
  | push hpush hnew => exact h.push hpush hnew henv
  | icebergSnapshot hle => exact h.icebergSnapshot hle
  | prepare hidle hprep => exact h.prepare hdisk hidle hprep
  | persistNewWalFile hon =>
    have hold := h.ongoing _ hon
    refine ⟨h.manager, h.durable, ?_⟩
    rintro o ⟨⟩
    exact hold
  | persistMetadata hon =>
    obtain ⟨hagrees, hsnap, hacc⟩ := h.ongoing _ hon
    refine ⟨h.manager, ?_, ?_⟩
    · rintro m ⟨⟩
      exact ⟨hagrees, hsnap⟩
    · rintro o ⟨⟩
      exact ⟨hagrees, hsnap, hacc⟩
  | deleteFile hon hmem =>
    have hold := h.ongoing _ hon
    refine ⟨h.manager, h.durable, ?_⟩
    rintro o ⟨⟩
    exact hold
  | complete hon hcomplete =>
    obtain ⟨-, hsnap, hacc⟩ := h.ongoing _ hon
    obtain ⟨-, hcurr, hhi, -, hclean, -⟩ := WalManager.handleComplete_eq_ok hcomplete
    refine ⟨?_, h.durable, ?_⟩
    · rw [hcurr, hhi]
      refine Tracks_cleanedup h.manager hclean ?_
      rw [hacc]
      exact hsnap
    · intro o ho
      cases ho
  | crash =>
    refine ⟨?_, h.durable, ?_⟩
    · cases hmeta : s.metadata with
      | none =>
        rw [hdisk.durableLog_eq_nil hmeta]
        exact Tracks.empty.mono (Nat.le_refl _) trivial
      | some m =>
        obtain ⟨hagrees, hsnap⟩ := h.durable m hmeta
        exact hagrees.tracks.mono (Nat.le_refl _) hsnap
    · intro o ho
      cases ho

/-- The tracking invariant holds in every run of ingest events. -/
theorem TrackInv_reachable (hs : (system b ingestEvents).Reachable s) : TrackInv s := by
  have hind : (system b ingestEvents).Inductive
      (fun s : WalStore Row => DiskInv s ∧ TrackInv s) := by
    constructor
    · rintro s rfl
      exact ⟨DiskInv_init, TrackInv_init⟩
    · rintro s s' ⟨hdisk, htrack⟩ ⟨a, henv, hnext⟩
      have hstep := Step_of_next hnext
      exact ⟨hdisk.step hstep, htrack.step hdisk henv hstep⟩
  exact (hind.reachable hs).2

/-- Truncation never loses an uncaptured transaction: a file that a prepare selects
for deletion holds what was pushed to it, and every event in it belongs to a
transaction that aborted or that committed at or below the snapshot LSN. -/
theorem truncated_files_captured {o : OngoingUpdate Row} {f : WalFileInfo}
    (hs : (system b ingestEvents).Reachable s) (hprep : s.next b .prepare = some s')
    (ho : s'.ongoing = some o) (hf : f ∈ o.update.filesToDelete) :
    s.files f.fileNumber = some (contents s.log f.fileNumber) ∧
      ∀ pre e post, s.log = pre ++ (f.fileNumber, e) :: post →
        fate e (post.map (·.2)) ≠ .open ∧
          ∀ lsn, fate e (post.map (·.2)) = .committed lsn →
            ∃ snapshotLsn, s.persistenceSnapshotLsn = some snapshotLsn ∧ lsn ≤ snapshotLsn := by
  have hdisk := DiskInv_reachable hs
  have htrack := TrackInv_reachable hs
  cases Step_of_next hprep with
  | prepare hidle hupdate =>
    rename_i w u
    have hspec := WalManager.preparePersistentUpdate_eq_ok hupdate
    have hou : o.update = u := by
      simp only at ho
      split at ho
      · cases ho
        rfl
      · cases ho
    rw [hou] at hf
    obtain ⟨lsn, hlsn, hlive, hlt⟩ := hspec.filesToDelete f hf
    have hi := hdisk.idle hidle
    constructor
    · rw [hi.live] at hlive
      obtain ⟨first, hrange⟩ := hdisk.durable.range
      have hcurr := hrange.lt_next hlive
      rw [hdisk.durable.readable f hlive, hi.filed.contents_eq (hi.curr ▸ hcurr)]
    · intro pre e post hlog
      have htr := htrack.manager
      rw [hlsn] at htr
      have hcap := captured_of_lt_lowest htr (snapshotLe_refl _) hlog hlt
      constructor
      · intro hopen
        rw [hopen] at hcap
        cases hcap
      · intro l hl
        rw [hl] at hcap
        exact ⟨lsn, hlsn, by
          simpa [XactFate.isCaptured, WalManager.eventAlreadyCapturedInIcebergSnapshot]
            using hcap⟩

/-- A committed main transaction fills file 0, a streaming one stays open in file 1, and
a snapshot at the commit truncates file 0. -/
def truncationRun : List (WalAction Unit) :=
  [.push (.append () none 1 false), .push (.commit 2 none false),
    .prepare, .persistNewWalFile, .persistMetadata, .complete,
    .push (.append () (some 7) 0 false),
    .prepare, .persistNewWalFile, .persistMetadata, .complete, .icebergSnapshot 2]

theorem truncated_files_captured_run :
    ∃ (s s' : WalStore Unit) (o : OngoingUpdate Unit),
      run .debug ingestEvents init truncationRun = some s ∧ s.next .debug .prepare = some s' ∧
        s'.ongoing = some o ∧ o.update.filesToDelete = [⟨0, 2⟩] ∧
        s.files 0 = some (contents s.log 0) := by
  have happly : ∀ (s s' : WalStore Unit) (o : OngoingUpdate Unit),
      run .debug ingestEvents init truncationRun = some s → s.next .debug .prepare = some s' →
        s'.ongoing = some o → o.update.filesToDelete = [⟨0, 2⟩] →
        s.files 0 = some (contents s.log 0) := by
    intro s s' o hrun hprep ho hdel
    have hs := Reachable_of_run _ (.init rfl) hrun
    exact (truncated_files_captured (f := ⟨0, 2⟩) hs hprep ho (by rw [hdel]; simp)).1
  exact ⟨_, _, _, rfl, rfl, rfl, rfl, happly _ _ _ rfl rfl rfl rfl⟩

end WalStore
end Moonlink
