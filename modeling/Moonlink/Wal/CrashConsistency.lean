-- SUMMARY: What a restart finds after a crash at any point of a WAL persistence update.
import Moonlink.Wal.ReplaySpec

namespace Moonlink

open Lib

namespace WalStore

variable {Row : Type} {b : Build} {s s' : WalStore Row}

/-- Metadata without a snapshot LSN still has every file. -/
def KeepsAll (m : PersistentWalMetadata) : Prop :=
  m.persistenceSnapshotLsn = none → LiveRange m.liveWalFilesTracker 0 m.currFileNumber

structure KeepInv (s : WalStore Row) : Prop where
  durable : ∀ m, s.metadata = some m → KeepsAll m
  ongoing : ∀ o, s.ongoing = some o → KeepsAll o.update.persistentWalMetadata

/-- Between updates and before the first snapshot, the manager has every file. -/
theorem KeepInv.liveRange (h : KeepInv s) (hdisk : DiskInv s) (htrack : TrackInv s)
    (hidle : s.ongoing = none) (hnone : s.persistenceSnapshotLsn = none) :
    LiveRange s.manager.liveWalFilesTracker 0 s.manager.currFileNumber := by
  have hi := hdisk.idle hidle
  rw [hi.live, hi.curr]
  cases hm : s.metadata with
  | none => exact LiveRange.nil 0
  | some m =>
    have hle := (htrack.durable m hm).2
    rw [hnone] at hle
    refine h.durable m hm ?_
    cases hlsn : m.persistenceSnapshotLsn with
    | none => rfl
    | some lsn =>
      rw [hlsn] at hle
      exact hle.elim

theorem KeepInv.prepare (h : KeepInv s) (hdisk : DiskInv s) (htrack : TrackInv s)
    {w : WalManager Row} {u : PreparePersistentUpdate Row} (hidle : s.ongoing = none)
    (hprep : s.manager.preparePersistentUpdate b s.persistenceSnapshotLsn = .ok (w, u)) :
    KeepsAll u.persistentWalMetadata := by
  have hspec := WalManager.preparePersistentUpdate_eq_ok hprep
  intro hnone
  rw [hspec.snapshotLsn] at hnone
  have hrange := h.liveRange hdisk htrack hidle hnone
  -- no snapshot, no truncation
  have hdel : u.filesToDelete = [] := by
    rw [List.eq_nil_iff_forall_not_mem]
    intro f hf
    obtain ⟨lsn, hlsn, -, -⟩ := hspec.filesToDelete f hf
    rw [hnone] at hlsn
    cases hlsn
  obtain ⟨-, hlive, -, -⟩ := WalManager.extractNextPersistenceFile_frame s.manager
  rw [← hspec.manager] at hlive
  have hnext : u.persistentWalMetadata.liveWalFilesTracker =
      w.computeUpdatedLiveWalFileTracker [] (s.manager.extractNextPersistenceFile.2.map (·.2)) := by
    rw [hspec.live, hdel, hspec.filesToPersist]
    unfold WalManager.computeUpdatedLiveWalFileTracker
    rw [hlive]
  rw [hnext, hspec.currFileNumber, hspec.manager]
  unfold WalManager.extractNextPersistenceFile
  by_cases hempty : s.manager.inMemBuf.isEmpty
  · rw [if_pos hempty]
    exact hrange
  · rw [if_neg hempty]
    exact hrange.append rfl

theorem KeepInv.step (h : KeepInv s) (hdisk : DiskInv s) (htrack : TrackInv s)
    {a : WalAction Row} (hstep : Step b s a s') : KeepInv s' := by
  cases hstep with
  | push hpush hnew => exact ⟨h.durable, h.ongoing⟩
  | icebergSnapshot hle => exact ⟨h.durable, h.ongoing⟩
  | prepare hidle hprep =>
    refine ⟨h.durable, ?_⟩
    intro o ho
    split at ho
    · cases ho
      exact h.prepare hdisk htrack hidle hprep
    · cases ho
  | persistNewWalFile hon =>
    have hold := h.ongoing _ hon
    refine ⟨h.durable, ?_⟩
    rintro o ⟨⟩
    exact hold
  | persistMetadata hon =>
    have hold := h.ongoing _ hon
    refine ⟨?_, ?_⟩
    · rintro m ⟨⟩
      exact hold
    · rintro o ⟨⟩
      exact hold
  | deleteFile hon hmem =>
    have hold := h.ongoing _ hon
    refine ⟨h.durable, ?_⟩
    rintro o ⟨⟩
    exact hold
  | complete hon hcomplete => exact ⟨h.durable, by rintro o ⟨⟩⟩
  | crash => exact ⟨h.durable, by rintro o ⟨⟩⟩

end WalStore
end Moonlink
