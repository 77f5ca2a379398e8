-- SUMMARY: The highest completion LSN is the LSN of a logged commit, and only grows on disk; rounds of pushes as runs of a store.
import Moonlink.Wal.Coverage

namespace Moonlink

open Lib

namespace WalStore

variable {Row : Type} {b : Build} {s s' : WalStore Row}

/-- The LSN is that of a commit in the log, unless there was none. -/
def HighestIn (lsn : Nat) (log : WalLog Row) : Prop :=
  lsn = 0 ∨ ∃ p ∈ log, p.2.commitLsn? = some lsn

/-- The highest completion LSN that the metadata on disk has. -/
def durableHighestLsn (s : WalStore Row) : Nat :=
  (recoveredManager s.metadata : WalManager Row).highestCompletionLsn

structure HighestInv (s : WalStore Row) : Prop where
  manager : HighestIn s.manager.highestCompletionLsn s.log
  durable : HighestIn s.durableHighestLsn s.durableLog
  ongoing : ∀ o, s.ongoing = some o →
    HighestIn o.update.persistentWalMetadata.highestCompletionLsn o.log ∧
      ∀ events f, o.update.filesToPersist = some (events, f) →
        f.highestLsn = o.update.persistentWalMetadata.highestCompletionLsn

theorem HighestIn.push {w w' : WalManager Row} {log : WalLog Row} {e : TableEvent Row}
    {e' : WalEvent Row} {n : Nat} (h : HighestIn w.highestCompletionLsn log)
    (hpush : w.push b e = .ok w') (hnew : WalEvent.new e = .ok e') :
    HighestIn w'.highestCompletionLsn (log ++ [(n, e')]) := by
  obtain ⟨-, -, -, hhigh⟩ := WalManager.push_frame hpush hnew
  rw [hhigh]
  cases hlsn : e'.commitLsn? with
  | none =>
    rw [Option.getD_none]
    exact h.imp_right fun ⟨p, hp, hlsn⟩ => ⟨p, List.mem_append_left _ hp, hlsn⟩
  | some lsn => exact .inr ⟨(n, e'), by simp, hlsn⟩

/-- A prepared update reports the highest completion LSN of its metadata. -/
theorem prepare_highestLsn {w : WalManager Row} {u : PreparePersistentUpdate Row}
    (hprep : s.manager.preparePersistentUpdate b s.persistenceSnapshotLsn = .ok (w, u)) :
    ∀ events f, u.filesToPersist = some (events, f) →
      f.highestLsn = u.persistentWalMetadata.highestCompletionLsn := by
  intro events f hf
  have hspec := WalManager.preparePersistentUpdate_eq_ok hprep
  rw [hspec.filesToPersist] at hf
  rw [hspec.highestCompletionLsn]
  unfold WalManager.extractNextPersistenceFile at hf
  split at hf
  · cases hf
  · cases hf
    rfl

theorem HighestInv.step (h : HighestInv s) {a : WalAction Row} (hstep : Step b s a s') :
    HighestInv s' := by
  cases hstep with
  | push hpush hnew => exact ⟨h.manager.push hpush hnew, h.durable, h.ongoing⟩
  | icebergSnapshot hle => exact ⟨h.manager, h.durable, h.ongoing⟩
  | prepare hidle hprep =>
    have hspec := WalManager.preparePersistentUpdate_eq_ok hprep
    have hhigh := (WalManager.extractNextPersistenceFile_frame s.manager).1
    rw [← hspec.manager] at hhigh
    refine ⟨?_, h.durable, ?_⟩
    · simp only [hhigh]
      exact h.manager
    · intro o ho
      split at ho
      · cases ho
        rw [hspec.highestCompletionLsn]
        exact ⟨h.manager, by
          rw [← hspec.highestCompletionLsn]
          exact prepare_highestLsn hprep⟩
      · cases ho
  | persistNewWalFile hon =>
    have hold := h.ongoing _ hon
    refine ⟨h.manager, h.durable, ?_⟩
    rintro o ⟨⟩
    exact hold
  | persistMetadata hon =>
    have hold := h.ongoing _ hon
    refine ⟨h.manager, hold.1, ?_⟩
    rintro o ⟨⟩
    exact hold
  | deleteFile hon hmem =>
    have hold := h.ongoing _ hon
    refine ⟨h.manager, h.durable, ?_⟩
    rintro o ⟨⟩
    exact hold
  | complete hon hcomplete =>
    obtain ⟨-, -, hhigh, -⟩ := WalManager.handleComplete_eq_ok hcomplete
    refine ⟨?_, h.durable, nofun⟩
    simp only [hhigh]
    exact h.manager
  | crash => exact ⟨h.durable, h.durable, nofun⟩

theorem HighestInv_reachable {env : Environment Row} (hs : (system b env).Reachable s) :
    HighestInv s := by
  induction hs with
  | init hinit =>
    cases hinit
    exact ⟨.inl rfl, .inl rfl, nofun⟩
  | step _ hstep ih =>
    obtain ⟨a, -, hnext⟩ := hstep
    exact ih.step (Step_of_next hnext)

/-- The metadata of an update is not behind the metadata on disk. -/
theorem durableHighestLsn_le_ongoing (hdisk : DiskInv s) (htrack : TrackInv s) (h : HighestInv s)
    {o : OngoingUpdate Row} (ho : s.ongoing = some o) (hstage : o.stage = .persistMetadata) :
    s.durableHighestLsn ≤ o.update.persistentWalMetadata.highestCompletionLsn := by
  have hpending := (hdisk.updating o ho).stage
  rw [hstage] at hpending
  obtain ⟨ext, hlog, -⟩ := hpending.1.extends_durable
  rcases h.durable with hzero | ⟨p, hp, hlsn⟩
  · rw [hzero]
    exact Nat.zero_le _
  · exact (htrack.ongoing o ho).1.tracks.commitLe p (by rw [hlog]; exact List.mem_append_left _ hp)
      _ hlsn

theorem durableHighestLsn_mono (hdisk : DiskInv s) (htrack : TrackInv s) (h : HighestInv s)
    {a : WalAction Row} (hstep : Step b s a s') : s.durableHighestLsn ≤ s'.durableHighestLsn := by
  cases hstep with
  | persistMetadata hon => exact durableHighestLsn_le_ongoing hdisk htrack h hon rfl
  | push hpush hnew => exact Nat.le_refl _
  | icebergSnapshot hle => exact Nat.le_refl _
  | prepare hidle hprep => exact Nat.le_refl _
  | persistNewWalFile hon => exact Nat.le_refl _
  | deleteFile hon hmem => exact Nat.le_refl _
  | complete hon hcomplete => exact Nat.le_refl _
  | crash => exact Nat.le_refl _

/-- The LSN that a completed update reports is durable. -/
theorem complete_lsn_eq (hdisk : DiskInv s) (h : HighestInv s) {u : PreparePersistentUpdate Row}
    {log : WalLog Row} {w : WalManager Row} {lsn : Nat}
    (hon : s.ongoing = some ⟨u, .deleteFiles [], log⟩)
    (hcomplete : s.manager.handleCompleteWalPersistenceUpdate b u = .ok (w, some lsn)) :
    lsn = s.durableHighestLsn := by
  obtain ⟨-, -, -, -, -, hlsn⟩ := WalManager.handleComplete_eq_ok hcomplete
  obtain ⟨⟨events, f⟩, hfiles, hf⟩ := Option.map_eq_some_iff.mp hlsn.symm
  have hmeta : s.metadata = some u.persistentWalMetadata := (hdisk.updating _ hon).stage.1
  have hhigh := (h.ongoing _ hon).2 events f hfiles
  unfold durableHighestLsn
  rw [hmeta, ← hf]
  exact hhigh

/-- In every run, also over crashes, the highest completion LSN on disk only grows, and it is that of a durable
commit. -/
theorem durableHighestLsn_grows {actions : List (WalAction Row)} (hs : (system b ingestEvents).Reachable s)
    (hrun : run b ingestEvents s actions = some s') :
    s.durableHighestLsn ≤ s'.durableHighestLsn ∧ HighestIn s'.durableHighestLsn s'.durableLog := by
  refine ⟨?_, (HighestInv_reachable (Reachable_of_run actions hs hrun)).durable⟩
  induction actions generalizing s with
  | nil =>
    cases hrun
    exact Nat.le_refl _
  | cons a rest ih =>
    simp only [run] at hrun
    split at hrun
    · rename_i henv
      obtain ⟨t, hnext, hrest⟩ := Option.bind_eq_some_iff.mp hrun
      have hmono := durableHighestLsn_mono (DiskInv_reachable hs) (TrackInv_reachable hs) (HighestInv_reachable hs)
        (Step_of_next hnext)
      exact hmono.trans (ih (.step hs ⟨a, henv, hnext⟩) hrest)
    · cases hrun

theorem durableHighestLsn_grows_truncationRun : ∃ s', run .debug ingestEvents init truncationRun = some s' ∧
    durableHighestLsn (init : WalStore Unit) ≤ s'.durableHighestLsn ∧ HighestIn s'.durableHighestLsn s'.durableLog := by
  have hgrows {s'} (hrun : run .debug ingestEvents init truncationRun = some s') :=
    durableHighestLsn_grows (.init rfl) hrun
  exact ⟨_, rfl, hgrows rfl⟩

end WalStore

/-! ## Several pushes -/

namespace WalManager

variable {Row : Type} {b : Build} {w w₁ w' : WalManager Row}

def pushAll (b : Build) (w : WalManager Row) : List (TableEvent Row) → Except Panic (WalManager Row)
  | [] => .ok w
  | e :: rest => do
    let w ← w.push b e
    pushAll b w rest

theorem pushAll_append {es es' : List (TableEvent Row)} (h : w.pushAll b es = .ok w₁)
    (h' : w₁.pushAll b es' = .ok w') : w.pushAll b (es ++ es') = .ok w' := by
  induction es generalizing w with
  | nil =>
    cases h
    exact h'
  | cons e rest ih =>
    obtain ⟨w₂, hpush, hrest⟩ := bind_eq_ok.mp h
    exact bind_eq_ok.mpr ⟨w₂, hpush, ih hrest⟩

theorem pushAll_inMemBuf {events : List (WalEvent Row)}
    (h : w.pushAll b (events.map (·.intoTableEvent)) = .ok w') :
    w'.inMemBuf = w.inMemBuf ++ events := by
  induction events generalizing w with
  | nil =>
    cases h
    simp
  | cons e rest ih =>
    obtain ⟨w₁, hpush, hrest⟩ := bind_eq_ok.mp h
    rw [ih hrest, (push_frame hpush e.new_intoTableEvent).1]
    simp

end WalManager

namespace WalStore

variable {Row : Type} {b : Build} {s s' : WalStore Row}

/-- The store after the manager pushed further events, which are in its buffer. -/
def logPushes (s : WalStore Row) (w : WalManager Row) : WalStore Row :=
  { s with
    manager := w
    log := s.log ++
      (w.inMemBuf.drop s.manager.inMemBuf.length).map fun e => (s.manager.currFileNumber, e) }

@[simp] theorem logPushes_self : s.logPushes s.manager = s := by
  simp [logPushes]

/-- A push, then the others. -/
theorem logPushes_push {w w' : WalManager Row} {e : TableEvent Row} {e' : WalEvent Row}
    {rest : List (WalEvent Row)} (hpush : s.manager.push b e = .ok w)
    (hnew : WalEvent.new e = .ok e') (hbuf : w'.inMemBuf = w.inMemBuf ++ rest) :
    logPushes { s with manager := w, log := s.log ++ [(s.manager.currFileNumber, e')] } w' =
      s.logPushes w' := by
  obtain ⟨hpushed, hcurr, -, -⟩ := WalManager.push_frame hpush hnew
  simp [logPushes, hbuf, hpushed, hcurr]

/-- Pushing ingest events whose commits have a positive LSN is a run of the store. -/
theorem Reachable_logPushes {events : List (WalEvent Row)} {w : WalManager Row}
    (hs : (system b ingestEvents).Reachable s)
    (hpush : s.manager.pushAll b (events.map (·.intoTableEvent)) = .ok w)
    (hingest : ∀ e ∈ events, e.isIngest = true)
    (hpos : ∀ e ∈ events, ∀ lsn, e.commitLsn? = some lsn → 0 < lsn) :
    (system b ingestEvents).Reachable (s.logPushes w) ∧
      (s.logPushes w).log.map (·.2) = s.log.map (·.2) ++ events := by
  induction events generalizing s with
  | nil =>
    cases hpush
    simpa using hs
  | cons e rest ih =>
    obtain ⟨w₁, hfirst, hrest⟩ := bind_eq_ok.mp hpush
    have hnew := e.new_intoTableEvent
    have hallowed : ingestEvents s (.push e.intoTableEvent) = true := by
      have hkind : e.intoTableEvent.isIngestEvent = true := by
        have := hingest e List.mem_cons_self
        cases e <;> first | rfl | cases this
      simp only [ingestEvents, hkind, Bool.true_and, WalManager.commitLsn?_of_new hnew]
      cases hlsn : e.commitLsn? with
      | none => rfl
      | some lsn =>
        have hcheck := (WalManager.push_eq_ok hfirst hnew).2.1 lsn hlsn
        have := hpos e List.mem_cons_self lsn hlsn
        simp only [Option.all_some, decide_eq_true_eq]
        omega
    have hnext : s.next b (.push e.intoTableEvent) =
        some { s with manager := w₁, log := s.log ++ [(s.manager.currFileNumber, e)] } := by
      simp only [next, hfirst, hnew]
    obtain ⟨hreach, hlog⟩ := ih (.step hs ⟨_, hallowed, hnext⟩) hrest
      (fun e' he' => hingest e' (List.mem_cons_of_mem _ he'))
      (fun e' he' => hpos e' (List.mem_cons_of_mem _ he'))
    rw [logPushes_push hfirst hnew (WalManager.pushAll_inMemBuf hrest)] at hreach hlog
    exact ⟨hreach, by rw [hlog]; simp⟩

end WalStore
end Moonlink
