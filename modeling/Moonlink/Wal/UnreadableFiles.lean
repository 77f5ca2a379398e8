-- SUMMARY: Replays that meet WAL files they cannot read: what they read, send and report.
import Mathlib.Data.List.TakeWhile
import Moonlink.Wal.ReplaySpec

namespace Moonlink

open Lib

namespace WalManager

variable {Row : Type} {b : Build} {m : PersistentWalMetadata} {lsn : Option Nat}
variable {read : Nat → Option (List (WalEvent Row))}

/-- The events of the files that could be read. -/
def readEvents (read : Nat → Option (List (WalEvent Row))) (m : PersistentWalMetadata) :
    List (WalEvent Row) :=
  (filesToRecover m).flatMap fun n => (read n).getD []

theorem recoverFlushedWalsFlat_eq_map :
    recoverFlushedWalsFlat read m = (readEvents read m).map (·.intoTableEvent) :=
  List.map_flatMap.symm

theorem mem_readEvents {e : WalEvent Row} :
    e ∈ readEvents read m ↔ ∃ n ∈ filesToRecover m, ∃ events, read n = some events ∧ e ∈ events := by
  unfold readEvents
  rw [List.mem_flatMap]
  apply exists_congr
  intro n
  apply and_congr_right
  intro _
  cases read n with
  | none => simp
  | some events => simp

/-- With live files, the events that are read decide whether the replay runs to its end. -/
theorem replay_result_of_live (hlive : m.liveWalFilesTracker ≠ []) :
    (replayRecoveryFromWal b (some m) read lsn).result = .ok () ↔
      ∀ e ∈ readEvents read m, decides b m lsn e = true := by
  rw [← replayEvents_result_eq_ok_iff, ← recoverFlushedWalsFlat_eq_map]
  unfold replayRecoveryFromWal
  simp only [List.isEmpty_iff, hlive, if_false]
  cases (replayEvents b m lsn (recoverFlushedWalsFlat read m)).result with
  | error p => rfl
  | ok => rfl

/-- What a replay that runs to its end has sent. -/
theorem replay_sent_of_ok (hlive : m.liveWalFilesTracker ≠ [])
    (hok : (replayRecoveryFromWal b (some m) read lsn).result = .ok ()) :
    (replayRecoveryFromWal b (some m) read lsn).sent =
      ((readEvents read m).filter (forwards b m lsn)).map (·.recovered) ++
        closeIncompleteXacts m.activeTransactions ++ [.finishRecovery m.highestCompletionLsn] := by
  have hdecides := (replay_result_of_live hlive).mp hok
  have hloop := (replayEvents_result_eq_ok_iff b m lsn (readEvents read m)).mpr hdecides
  have hsent := replayEvents_sent b m lsn (readEvents read m)
  rw [List.takeWhile_eq_self_iff.mpr hdecides] at hsent
  rw [← recoverFlushedWalsFlat_eq_map] at hloop hsent
  unfold replayRecoveryFromWal
  simp only [List.isEmpty_iff, hlive, if_false, hloop, hsent]

end WalManager

namespace WalStore

variable {Row : Type} {b : Build} {s : WalStore Row} {env : Environment Row}

/-- What recovery can read of the files of a store. -/
def readFile (s : WalStore Row) (unreadable : Nat → Bool) (n : Nat) : Option (List (WalEvent Row)) :=
  if unreadable n then none else s.files n

/-- Recovery when some files cannot be read or decoded. -/
def replayReadable (b : Build) (s : WalStore Row) (unreadable : Nat → Bool) :
    WalManager.ReplayOutcome Row :=
  WalManager.replayRecoveryFromWal b s.metadata (s.readFile unreadable) s.persistenceSnapshotLsn

/-- A replay that ends well and reports its LSN has read every live file and dropped no event
of one that has to be reapplied. -/
def ReplaysAllOrFails (b : Build) (s : WalStore Row) (m : PersistentWalMetadata)
    (unreadable : Nat → Bool) : Prop :=
  (s.replayReadable b unreadable).result = .ok () →
    .finishRecovery m.highestCompletionLsn ∈ (s.replayReadable b unreadable).sent →
      (∀ f ∈ m.liveWalFilesTracker, (s.readFile unreadable f.fileNumber).isSome = true) ∧
        ∀ f ∈ m.liveWalFilesTracker, ∀ e ∈ contents s.durableLog f.fileNumber,
          WalManager.forwards b m s.persistenceSnapshotLsn e = true →
            e.recovered ∈ (s.replayReadable b unreadable).sent

/-- A live file that can be read holds an event on which the filter panics. -/
def ReadsPanic (b : Build) (s : WalStore Row) (m : PersistentWalMetadata)
    (unreadable : Nat → Bool) : Prop :=
  ∃ f ∈ m.liveWalFilesTracker, unreadable f.fileNumber = false ∧
    ∃ e ∈ contents s.durableLog f.fileNumber,
      WalManager.decides b m s.persistenceSnapshotLsn e = false

variable {m : PersistentWalMetadata}

/-- Recovery goes through the live files. -/
theorem DiskInv.mem_filesToRecover (h : DiskInv s) (hm : s.metadata = some m) {n : Nat} :
    n ∈ WalManager.filesToRecover m ↔ ∃ f ∈ m.liveWalFilesTracker, f.fileNumber = n := by
  obtain ⟨first, hrange, -⟩ := h.liveLog_suffix hm
  have hle := hrange.le
  rw [hrange.filesToRecover_eq, List.mem_range'_1, hrange.mem]
  omega

/-- A live file that is not unreadable is read as it was written. -/
theorem DiskInv.readFile_live (h : DiskInv s) (hm : s.metadata = some m)
    {f : WalFileInfo} (hf : f ∈ m.liveWalFilesTracker) (unreadable : Nat → Bool) :
    s.readFile unreadable f.fileNumber =
      if unreadable f.fileNumber then none else some (contents s.durableLog f.fileNumber) := by
  have hread := h.durable.readable f (by rw [hm]; exact hf)
  unfold readFile
  rw [hread]

theorem DiskInv.mem_readEvents (h : DiskInv s) (hm : s.metadata = some m)
    {unreadable : Nat → Bool} {e : WalEvent Row} :
    e ∈ WalManager.readEvents (s.readFile unreadable) m ↔
      ∃ f ∈ m.liveWalFilesTracker, unreadable f.fileNumber = false ∧
        e ∈ contents s.durableLog f.fileNumber := by
  rw [WalManager.mem_readEvents]
  constructor
  · rintro ⟨n, hn, events, hevents, he⟩
    obtain ⟨f, hf, rfl⟩ := (h.mem_filesToRecover hm).mp hn
    rw [h.readFile_live hm hf] at hevents
    split at hevents
    · cases hevents
    · rename_i hreadable
      cases hevents
      exact ⟨f, hf, Bool.eq_false_iff.mpr hreadable, he⟩
  · rintro ⟨f, hf, hreadable, he⟩
    refine ⟨f.fileNumber, (h.mem_filesToRecover hm).mpr ⟨f, hf, rfl⟩, _, ?_, he⟩
    rw [h.readFile_live hm hf, hreadable]
    rfl

/-- A replay passes over the live files that it cannot read. So it reads them all before it
reports recovery only if each of them can be read, or if an event of one that can be read
stops it. -/
theorem replays_all_iff_readable (hs : (system b env).Reachable s) {m : PersistentWalMetadata}
    (hm : s.metadata = some m) (unreadable : Nat → Bool) :
    ReplaysAllOrFails b s m unreadable ↔
      (∀ f ∈ m.liveWalFilesTracker, unreadable f.fileNumber = false) ∨ ReadsPanic b s m unreadable := by
  have hdisk := DiskInv_reachable hs
  have hreplay : s.replayReadable b unreadable = WalManager.replayRecoveryFromWal b (some m)
      (s.readFile unreadable) s.persistenceSnapshotLsn := by
    unfold replayReadable
    rw [hm]
  constructor
  · intro hall
    by_contra hnot
    obtain ⟨hunreadable, hpanic⟩ := not_or.mp hnot
    push Not at hunreadable
    obtain ⟨f, hf, hfile⟩ := hunreadable
    have hlive : m.liveWalFilesTracker ≠ [] := List.ne_nil_of_mem hf
    -- No event stops the replay, so it reports recovery without the file.
    have hok : (s.replayReadable b unreadable).result = .ok () := by
      rw [hreplay, WalManager.replay_result_of_live hlive]
      intro e he
      by_contra hdecides
      obtain ⟨g, hg, hreadable, hmem⟩ := (hdisk.mem_readEvents hm).mp he
      exact hpanic ⟨g, hg, hreadable, e, hmem, Bool.eq_false_iff.mpr hdecides⟩
    have hsent := hreplay ▸ WalManager.replay_sent_of_ok hlive (hreplay ▸ hok)
    have hread := (hall hok (by rw [hsent]; simp)).1 f hf
    rw [hdisk.readFile_live hm hf, Bool.ne_false_iff.mp hfile] at hread
    cases hread
  · rintro (hreadable | ⟨f, hf, hreadable, e, he, hdecides⟩) hok hfinish
    · have hread : ∀ f ∈ m.liveWalFilesTracker, (s.readFile unreadable f.fileNumber).isSome = true := by
        intro f hf
        rw [hdisk.readFile_live hm hf, hreadable f hf]
        rfl
      refine ⟨hread, fun f hf e he hforwards => ?_⟩
      rw [hreplay] at hok ⊢
      rw [WalManager.replay_sent_of_ok (List.ne_nil_of_mem hf) hok, List.append_assoc]
      apply List.mem_append_left
      apply List.mem_map_of_mem
      exact List.mem_filter.mpr ⟨(hdisk.mem_readEvents hm).mpr ⟨f, hf, hreadable f hf, he⟩, hforwards⟩
    · rw [hreplay, WalManager.replay_result_of_live (List.ne_nil_of_mem hf)] at hok
      have hdecided := hok e ((hdisk.mem_readEvents hm).mpr ⟨f, hf, hreadable, he⟩)
      rw [hdecides] at hdecided
      cases hdecided

/-- A main transaction, persisted into one file. -/
def persistedRowRun : List (WalAction Unit) :=
  [.push (.append () none 9 false), .push (.commit 10 none false), .prepare, .persistNewWalFile,
    .persistMetadata, .complete]

theorem replays_all_iff_readable_persistedRow :
    ∃ (s : WalStore Unit) (m : PersistentWalMetadata),
      run .release ingestEvents init persistedRowRun = some s ∧ s.metadata = some m ∧
        ReplaysAllOrFails .release s m fun _ => false := by
  have happly : ∀ (s : WalStore Unit) (m : PersistentWalMetadata),
      run .release ingestEvents init persistedRowRun = some s → s.metadata = some m →
        ReplaysAllOrFails .release s m fun _ => false := by
    intro s m hrun hm
    exact (replays_all_iff_readable (Reachable_of_run _ (.init rfl) hrun) hm _).mpr (.inl fun _ _ => rfl)
  exact ⟨_, _, rfl, rfl, happly _ _ rfl rfl⟩

/-- When the file of the transaction cannot be read, the replay reports its LSN all the same
and sends nothing of it. -/
theorem unreadable_file_is_skipped :
    ∃ (s : WalStore Unit) (m : PersistentWalMetadata),
      run .release ingestEvents init persistedRowRun = some s ∧ s.metadata = some m ∧
        s.replayReadable .release (fun _ => true) = ⟨[.finishRecovery 10], .ok ()⟩ ∧
        ¬ ReplaysAllOrFails .release s m fun _ => true := by
  refine ⟨_, _, rfl, rfl, rfl, fun hall => ?_⟩
  have hread := (hall rfl (.head _)).1 _ (.head _)
  cases hread

end WalStore
end Moonlink
