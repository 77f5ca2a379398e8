-- SUMMARY: The disk invariant: the live files of the metadata exist and hold the durable log, through updates and crashes.
import Moonlink.Wal.ManagerSpec

namespace Moonlink

open Lib

/-! ## Live files -/

/-- The live files are those numbered from `first` up to, but excluding, `next`. -/
structure LiveRange (live : List WalFileInfo) (first next : Nat) : Prop where
  le : first ≤ next
  sorted : live.Pairwise fun f g => f.fileNumber < g.fileNumber
  mem : ∀ n, (∃ f ∈ live, f.fileNumber = n) ↔ first ≤ n ∧ n < next

namespace LiveRange

variable {live : List WalFileInfo} {first next : Nat}

theorem nil (n : Nat) : LiveRange [] n n where
  le := Nat.le_refl n
  sorted := List.Pairwise.nil
  mem := by
    intro k
    constructor
    · rintro ⟨f, hf, -⟩
      cases hf
    · rintro ⟨h₁, h₂⟩
      omega

theorem lt_next (h : LiveRange live first next) {f : WalFileInfo} (hf : f ∈ live) :
    f.fileNumber < next :=
  ((h.mem f.fileNumber).mp ⟨f, hf, rfl⟩).2

theorem append (h : LiveRange live first next) {f : WalFileInfo} (hf : f.fileNumber = next) :
    LiveRange (live ++ [f]) first (next + 1) where
  le := Nat.le_succ_of_le h.le
  sorted := by
    rw [List.pairwise_append]
    refine ⟨h.sorted, List.pairwise_singleton _ _, ?_⟩
    intro g hg f' hf'
    rw [List.mem_singleton.mp hf', hf]
    exact h.lt_next hg
  mem := by
    intro n
    have hmem := h.mem n
    have hle := h.le
    constructor
    · rintro ⟨g, hg, rfl⟩
      rcases List.mem_append.mp hg with hin | hin
      · have := hmem.mp ⟨g, hin, rfl⟩
        omega
      · rw [List.mem_singleton.mp hin]
        omega
    · rintro ⟨h₁, h₂⟩
      by_cases hn : n = next
      · exact ⟨f, List.mem_append_right _ (List.mem_singleton_self f), hf.trans hn.symm⟩
      · obtain ⟨g, hg, hgn⟩ := hmem.mpr ⟨h₁, by omega⟩
        exact ⟨g, List.mem_append_left _ hg, hgn⟩

/-- Keeping the files from `lowest` on. -/
theorem filter (h : LiveRange live first next) {lowest : Nat} (hle : lowest ≤ next) :
    LiveRange (live.filter fun f => lowest ≤ f.fileNumber) (max first lowest) next where
  le := Nat.max_le.mpr ⟨h.le, hle⟩
  sorted := h.sorted.filter _
  mem := by
    intro n
    have hmem := h.mem n
    constructor
    · rintro ⟨f, hf, rfl⟩
      obtain ⟨hin, hlow⟩ := List.mem_filter.mp hf
      have := hmem.mp ⟨f, hin, rfl⟩
      simp only [decide_eq_true_eq] at hlow
      omega
    · rintro ⟨h₁, h₂⟩
      obtain ⟨f, hf, hfn⟩ := hmem.mpr ⟨by omega, h₂⟩
      exact ⟨f, List.mem_filter.mpr ⟨hf, by simp only [decide_eq_true_eq]; omega⟩, hfn⟩

/-- Recovery reads exactly the live files. -/
theorem filesToRecover_eq {m : PersistentWalMetadata}
    (h : LiveRange m.liveWalFilesTracker first m.currFileNumber) :
    WalManager.filesToRecover m = List.range' first (m.currFileNumber - first) := by
  unfold WalManager.filesToRecover
  cases hlive : m.liveWalFilesTracker with
  | nil =>
    have hempty : ¬ (first ≤ first ∧ first < m.currFileNumber) := by
      rw [← h.mem first, hlive]
      rintro ⟨f, hf, -⟩
      cases hf
    have : m.currFileNumber - first = 0 := by omega
    rw [this]
    rfl
  | cons f rest =>
    have hsorted := h.sorted
    rw [hlive] at hsorted
    have hmem := h.mem
    rw [hlive] at hmem
    obtain ⟨g, hg⟩ : ∃ g, (f :: rest).getLast? = some g :=
      Option.isSome_iff_exists.mp (by simp)
    have hf := (hmem f.fileNumber).mp ⟨f, List.mem_cons_self, rfl⟩
    have hgmem : g ∈ f :: rest := List.mem_of_getLast? hg
    have hgr := (hmem g.fileNumber).mp ⟨g, hgmem, rfl⟩
    -- the head is the lowest and the last is the highest live file
    have hfirst : f.fileNumber = first := by
      obtain ⟨f', hf', hf'n⟩ := (hmem first).mpr ⟨Nat.le_refl _, by omega⟩
      rcases List.mem_cons.mp hf' with rfl | hin
      · exact hf'n
      · have := (List.pairwise_cons.mp hsorted).1 f' hin
        omega
    have hlast : g.fileNumber + 1 = m.currFileNumber := by
      obtain ⟨f', hf', hf'n⟩ :=
        (hmem (m.currFileNumber - 1)).mpr ⟨by omega, by omega⟩
      have hsplit := List.dropLast_append_getLast? _ hg
      rw [← hsplit] at hf' hsorted
      rcases List.mem_append.mp hf' with hin | hin
      · have := (List.pairwise_append.mp hsorted).2.2 f' hin g (List.mem_singleton_self g)
        omega
      · rw [List.mem_singleton.mp hin] at hf'n
        omega
    simp only [List.head?_cons, hg]
    rw [hfirst, hlast]

end LiveRange

namespace WalManager

variable {Row : Type} {w : WalManager Row} {del : List WalFileInfo} {persist : Option WalFileInfo}
variable {first : Nat}

/-- The files that stay live come before the one that is added. -/
theorem computeUpdated_some {f : WalFileInfo} : w.computeUpdatedLiveWalFileTracker del (some f) =
    w.computeUpdatedLiveWalFileTracker del none ++ [f] := rfl

theorem mem_computeUpdated_none {g : WalFileInfo} :
    g ∈ w.computeUpdatedLiveWalFileTracker del none ↔
      g ∈ w.liveWalFilesTracker ∧ ∀ f, del.getLast? = some f → f.fileNumber < g.fileNumber := by
  unfold computeUpdatedLiveWalFileTracker
  cases del.getLast? with
  | none => exact (and_iff_left fun _ h => (by cases h)).symm
  | some f =>
    rw [List.mem_filter, decide_eq_true_eq]
    exact and_congr_right fun _ => ⟨fun h _ hf => Option.some.inj hf ▸ h, fun h => h f rfl⟩

theorem mem_computeUpdated {g : WalFileInfo} :
    g ∈ w.computeUpdatedLiveWalFileTracker del persist ↔
      (g ∈ w.liveWalFilesTracker ∧ ∀ f, del.getLast? = some f → f.fileNumber < g.fileNumber) ∨
        persist = some g := by
  cases persist with
  | none => exact mem_computeUpdated_none.trans (or_iff_left fun h => (by cases h)).symm
  | some f =>
    rw [computeUpdated_some]
    refine List.mem_append.trans (or_congr mem_computeUpdated_none ?_)
    rw [List.mem_singleton, Option.some_inj]
    exact eq_comm

/-- Truncating live files and adding the next file keeps the numbering consecutive. -/
theorem computeUpdated_liveRange {next : Nat} (h : LiveRange w.liveWalFilesTracker first next)
    (hdel : del.Sublist w.liveWalFilesTracker)
    (hpersist : ∀ f, persist = some f → f.fileNumber = next) :
    ∃ first', LiveRange (w.computeUpdatedLiveWalFileTracker del persist) first'
      (if persist.isSome then next + 1 else next) := by
  have hkept : ∃ first', LiveRange (w.computeUpdatedLiveWalFileTracker del none) first' next := by
    unfold computeUpdatedLiveWalFileTracker
    cases hlast : del.getLast? with
    | none => exact ⟨first, h⟩
    | some f =>
      have hmem : f ∈ w.liveWalFilesTracker := hdel.subset (List.mem_of_getLast? hlast)
      exact ⟨_, h.filter (h.lt_next hmem)⟩
  obtain ⟨first', hkept⟩ := hkept
  refine ⟨first', ?_⟩
  cases persist with
  | none => exact hkept
  | some f => exact hkept.append (hpersist f rfl)

/-- Every truncated file comes before every file that stays live. -/
theorem computeUpdated_lt {next : Nat} (h : LiveRange w.liveWalFilesTracker first next)
    (hdel : del.Sublist w.liveWalFilesTracker)
    (hpersist : ∀ f, persist = some f → f.fileNumber = next) {f g : WalFileInfo} (hf : f ∈ del)
    (hg : g ∈ w.computeUpdatedLiveWalFileTracker del persist) : f.fileNumber < g.fileNumber := by
  rcases mem_computeUpdated.mp hg with ⟨-, hlt⟩ | hpg
  · obtain ⟨last, hlast⟩ : ∃ last, del.getLast? = some last :=
      Option.isSome_iff_exists.mp (by simp [List.ne_nil_of_mem hf])
    have hle : f.fileNumber ≤ last.fileNumber := by
      have hsplit := List.dropLast_append_getLast? _ hlast
      have hsorted := h.sorted.sublist hdel
      rw [← hsplit] at hf hsorted
      rcases List.mem_append.mp hf with hin | hin
      · exact Nat.le_of_lt
          ((List.pairwise_append.mp hsorted).2.2 f hin last (List.mem_singleton_self last))
      · rw [List.mem_singleton.mp hin]
    exact Nat.lt_of_le_of_lt hle (hlt last hlast)
  · rw [hpersist g hpg]
    exact h.lt_next (hdel.subset hf)

end WalManager

/-! ## The invariant of the store -/

namespace WalStore

variable {Row : Type}

/-- What a restarted process finds on disk. -/
structure Durable (w : WalManager Row) (files : Nat → Option (List (WalEvent Row)))
    (log : WalLog Row) : Prop where
  range : ∃ first, LiveRange w.liveWalFilesTracker first w.currFileNumber
  readable : ∀ f ∈ w.liveWalFilesTracker, files f.fileNumber = some (contents log f.fileNumber)
  lt : ∀ p ∈ log, p.1 < w.currFileNumber
  segmented : Segmented log

/-- The events after `base` are all in the current file, which the buffer holds. -/
structure Filed (w : WalManager Row) (log base : WalLog Row) : Prop where
  extends_base : ∃ ext, log = base ++ ext ∧ ∀ p ∈ ext, p.1 = w.currFileNumber
  base_lt : ∀ p ∈ base, p.1 < w.currFileNumber
  segmented : Segmented base
  buffer : w.inMemBuf = contents log w.currFileNumber

/-- An update whose metadata is not yet written: the disk has the metadata from before. -/
structure Pending (s : WalStore Row) (u : PreparePersistentUpdate Row) (log : WalLog Row) :
    Prop where
  live : s.manager.liveWalFilesTracker =
    (recoveredManager s.metadata : WalManager Row).liveWalFilesTracker
  extends_durable : ∃ ext, log = s.durableLog ++ ext ∧
    ∀ p ∈ ext, p.1 = (recoveredManager s.metadata : WalManager Row).currFileNumber
  newFile : ∀ events f, u.filesToPersist = some (events, f) →
    f.fileNumber = (recoveredManager s.metadata : WalManager Row).currFileNumber ∧
      events = contents log f.fileNumber

/-- How far the disk is, by the stage of the update. -/
def AtStage (s : WalStore Row) (u : PreparePersistentUpdate Row) (log : WalLog Row) :
    UpdateStage → Prop
  | .persistNewWalFile => Pending s u log
  | .persistMetadata => Pending s u log ∧
      ∀ events f, u.filesToPersist = some (events, f) → s.files f.fileNumber = some events
  | .deleteFiles remaining => s.metadata = some u.persistentWalMetadata ∧ s.durableLog = log ∧
      ∀ f ∈ remaining, f ∈ u.filesToDelete

/-- An update in progress. -/
structure Updating (s : WalStore Row) (o : OngoingUpdate Row) : Prop where
  filed : Filed s.manager s.log o.log
  curr : o.update.persistentWalMetadata.currFileNumber = s.manager.currFileNumber
  live : o.update.persistentWalMetadata.liveWalFilesTracker =
    s.manager.computeUpdatedLiveWalFileTracker o.update.filesToDelete
      (o.update.filesToPersist.map (·.2))
  range : ∃ first, LiveRange o.update.persistentWalMetadata.liveWalFilesTracker first
    o.update.persistentWalMetadata.currFileNumber
  disjoint : ∀ f ∈ o.update.filesToDelete,
    ∀ g ∈ o.update.persistentWalMetadata.liveWalFilesTracker, f.fileNumber < g.fileNumber
  stage : AtStage s o.update o.log o.stage

/-- Between updates the manager and the disk agree on the live files. -/
structure Idle (s : WalStore Row) : Prop where
  filed : Filed s.manager s.log s.durableLog
  curr : s.manager.currFileNumber =
    (recoveredManager s.metadata : WalManager Row).currFileNumber
  live : s.manager.liveWalFilesTracker =
    (recoveredManager s.metadata : WalManager Row).liveWalFilesTracker

structure DiskInv (s : WalStore Row) : Prop where
  durable : Durable (recoveredManager s.metadata) s.files s.durableLog
  idle : s.ongoing = none → Idle s
  updating : ∀ o, s.ongoing = some o → Updating s o

/-- Without metadata nothing is durable. -/
theorem DiskInv.durableLog_eq_nil {s : WalStore Row} (h : DiskInv s) (hm : s.metadata = none) :
    s.durableLog = [] := by
  rw [List.eq_nil_iff_forall_not_mem]
  intro p hp
  have hlt := h.durable.lt p hp
  rw [hm] at hlt
  exact absurd hlt (Nat.not_lt_zero _)

/-- The durable log is where the log of the running process starts. -/
theorem DiskInv.durableLog_extends {s : WalStore Row} (h : DiskInv s) :
    ∃ ext, s.log = s.durableLog ++ ext := by
  cases ho : s.ongoing with
  | none =>
    obtain ⟨ext, hlog, -⟩ := (h.idle ho).filed.extends_base
    exact ⟨ext, hlog⟩
  | some o =>
    have hu := h.updating o ho
    obtain ⟨ext, hlog, -⟩ := hu.filed.extends_base
    have hstage := hu.stage
    have hpending : Pending s o.update o.log → ∃ ext, s.log = s.durableLog ++ ext := by
      intro hp
      obtain ⟨ext', hlog', -⟩ := hp.extends_durable
      exact ⟨ext' ++ ext, by rw [hlog, hlog', List.append_assoc]⟩
    cases hst : o.stage with
    | persistNewWalFile =>
      rw [hst] at hstage
      exact hpending hstage
    | persistMetadata =>
      rw [hst] at hstage
      exact hpending hstage.1
    | deleteFiles remaining =>
      rw [hst] at hstage
      exact ⟨ext, by rw [hlog, hstage.2.1]⟩

/-! ### Logs and files -/

namespace Filed

variable {w w' : WalManager Row} {log base : WalLog Row}

theorem le (h : Filed w log base) : ∀ p ∈ log, p.1 ≤ w.currFileNumber := by
  intro p hp
  obtain ⟨ext, rfl, hext⟩ := h.extends_base
  rcases List.mem_append.mp hp with hin | hin
  · exact Nat.le_of_lt (h.base_lt p hin)
  · exact Nat.le_of_eq (hext p hin)

theorem log_segmented (h : Filed w log base) : Segmented log := by
  obtain ⟨ext, rfl, hext⟩ := h.extends_base
  unfold Segmented
  rw [List.pairwise_append]
  refine ⟨h.segmented, ?_, ?_⟩
  · rw [List.pairwise_iff_forall_sublist]
    intro p q hpq
    rw [hext p (hpq.subset (by simp)), hext q (hpq.subset (by simp))]
  · intro p hp q hq
    rw [hext q hq]
    exact Nat.le_of_lt (h.base_lt p hp)

/-- Files before the current one hold the same events in the log and in its base. -/
theorem contents_eq (h : Filed w log base) {n : Nat} (hn : n < w.currFileNumber) :
    contents log n = contents base n := by
  obtain ⟨ext, rfl, hext⟩ := h.extends_base
  refine contents_append_of_ne ?_
  intro p hp
  rw [hext p hp]
  omega

theorem push {e' : WalEvent Row} (h : Filed w log base)
    (hcurr : w'.currFileNumber = w.currFileNumber) (hbuf : w'.inMemBuf = w.inMemBuf ++ [e']) :
    Filed w' (log ++ [(w.currFileNumber, e')]) base where
  extends_base := by
    obtain ⟨ext, rfl, hext⟩ := h.extends_base
    refine ⟨ext ++ [(w.currFileNumber, e')], by simp, ?_⟩
    intro p hp
    rw [hcurr]
    rcases List.mem_append.mp hp with hin | hin
    · exact hext p hin
    · rw [List.mem_singleton.mp hin]
  base_lt := by
    rw [hcurr]
    exact h.base_lt
  segmented := h.segmented
  buffer := by
    rw [hbuf, hcurr, h.buffer, contents_append]
    simp [contents]

/-- Taking the buffer as the next file leaves the whole log before the current file. -/
theorem extract (h : Filed w log base) : Filed w.extractNextPersistenceFile.1 log log := by
  unfold WalManager.extractNextPersistenceFile
  split
  · rename_i hempty
    have hnil : contents log w.currFileNumber = [] := by
      rw [← h.buffer]
      simpa using hempty
    refine ⟨⟨[], by simp, by simp⟩, ?_, h.log_segmented, h.buffer⟩
    intro p hp
    have hne := contents_eq_nil_iff.mp hnil p hp
    have hle := h.le p hp
    exact Nat.lt_of_le_of_ne hle hne
  · refine ⟨⟨[], by simp, by simp⟩, ?_, h.log_segmented, ?_⟩
    · intro p hp
      exact Nat.lt_succ_of_le (h.le p hp)
    · refine (contents_eq_nil ?_).symm
      intro p hp
      have hle := h.le p hp
      change p.1 ≠ w.currFileNumber + 1
      omega

end Filed

/-! ### Steps -/

variable {b : Build} {s : WalStore Row}

theorem DiskInv_init : DiskInv (init : WalStore Row) where
  durable := ⟨⟨0, LiveRange.nil 0⟩, by simp [init, recoveredManager, WalManager.new], by simp [init],
    List.Pairwise.nil⟩
  idle := fun _ => ⟨⟨⟨[], rfl, by simp⟩, by simp [init], List.Pairwise.nil, rfl⟩, rfl, rfl⟩
  updating := by
    intro o h
    cases h

variable {u : PreparePersistentUpdate Row} {log : WalLog Row}

/-- An update only looks at the live files of the manager and at the disk. -/
theorem AtStage.congr {s' : WalStore Row} {stage : UpdateStage} (h : AtStage s u log stage)
    (hlive : s'.manager.liveWalFilesTracker = s.manager.liveWalFilesTracker)
    (hmeta : s'.metadata = s.metadata) (hlog : s'.durableLog = s.durableLog)
    (hfiles : s'.files = s.files) : AtStage s' u log stage := by
  have hpending : Pending s u log → Pending s' u log := by
    intro hp
    refine ⟨?_, ?_, ?_⟩
    · rw [hlive, hmeta]
      exact hp.live
    · rw [hlog, hmeta]
      exact hp.extends_durable
    · rw [hmeta]
      exact hp.newFile
  cases stage with
  | persistNewWalFile => exact hpending h
  | persistMetadata => exact ⟨hpending h.1, by rw [hfiles]; exact h.2⟩
  | deleteFiles remaining => exact ⟨by rw [hmeta]; exact h.1, by rw [hlog]; exact h.2.1, h.2.2⟩

variable {w : WalManager Row}

theorem DiskInv.push (h : DiskInv s) {e : TableEvent Row} {e' : WalEvent Row}
    (hpush : s.manager.push b e = .ok w) (hnew : WalEvent.new e = .ok e') :
    DiskInv { s with manager := w, log := s.log ++ [(s.manager.currFileNumber, e')] } := by
  obtain ⟨hbuf, hcurr, hlive, -⟩ := WalManager.push_frame hpush hnew
  constructor
  case durable => exact h.durable
  case idle =>
      intro hidle
      have hi := h.idle hidle
      exact ⟨hi.filed.push hcurr hbuf, hcurr.trans hi.curr, hlive.trans hi.live⟩
  case updating =>
      intro o ho
      have hu := h.updating o ho
      refine ⟨hu.filed.push hcurr hbuf, hu.curr.trans hcurr.symm, ?_, hu.range, hu.disjoint,
        hu.stage.congr hlive rfl rfl rfl⟩
      rw [hu.live]
      unfold WalManager.computeUpdatedLiveWalFileTracker
      rw [hlive]

theorem DiskInv.icebergSnapshot (h : DiskInv s) (lsn : Nat) :
    DiskInv { s with persistenceSnapshotLsn := some lsn } := by
  constructor
  case durable => exact h.durable
  case idle =>
      intro hidle
      have hi := h.idle hidle
      exact ⟨hi.filed, hi.curr, hi.live⟩
  case updating =>
      intro o ho
      have hu := h.updating o ho
      exact ⟨hu.filed, hu.curr, hu.live, hu.range, hu.disjoint, hu.stage.congr rfl rfl rfl rfl⟩

theorem DiskInv.prepare (h : DiskInv s) (hidle : s.ongoing = none)
    (hprep : s.manager.preparePersistentUpdate b s.persistenceSnapshotLsn = .ok (w, u)) :
    DiskInv { s with
        manager := w
        ongoing := if u.shouldDoPersistence then some ⟨u, .persistNewWalFile, s.log⟩ else none } := by
  have hspec := WalManager.preparePersistentUpdate_eq_ok hprep
  have hi := h.idle hidle
  obtain ⟨first, hrange⟩ := h.durable.range
  obtain ⟨-, hlive, -, -⟩ := WalManager.extractNextPersistenceFile_frame s.manager
  rw [← hspec.manager] at hlive
  rw [← hi.live, ← hi.curr] at hrange
  constructor
  case durable => exact h.durable
  case idle =>
      -- without a file to persist the manager is unchanged
      intro hno
      have hnone : s.manager.extractNextPersistenceFile.2 = none := by
        rw [← hspec.filesToPersist]
        by_contra hsome
        have : u.shouldDoPersistence = true := by
          simp [PreparePersistentUpdate.shouldDoPersistence, Option.isSome_iff_ne_none.mpr hsome]
        simp [this] at hno
      have hsame : s.manager.extractNextPersistenceFile.1 = s.manager := by
        unfold WalManager.extractNextPersistenceFile at hnone ⊢
        split at hnone
        · rename_i hempty
          rw [if_pos hempty]
        · cases hnone
      rw [hspec.manager, hsame]
      exact ⟨hi.filed, hi.curr, hi.live⟩
  case updating =>
      intro o ho
      have hdo : u.shouldDoPersistence = true := by
        by_contra hne
        simp [hne] at ho
      simp only [hdo, if_true, Option.some.injEq] at ho
      subst ho
      have hnew : ∀ f, u.filesToPersist.map (·.2) = some f →
          f.fileNumber = s.manager.currFileNumber := by
        intro f hf
        rw [hspec.filesToPersist] at hf
        unfold WalManager.extractNextPersistenceFile at hf
        split at hf
        · cases hf
        · cases hf
          rfl
      have hcurr : u.persistentWalMetadata.currFileNumber =
          if (u.filesToPersist.map (·.2)).isSome then s.manager.currFileNumber + 1
          else s.manager.currFileNumber := by
        rw [hspec.currFileNumber, hspec.manager, hspec.filesToPersist]
        unfold WalManager.extractNextPersistenceFile
        split <;> rfl
      have hstage : Pending { s with manager := w, ongoing := some ⟨u, .persistNewWalFile, s.log⟩ }
          u s.log := by
        refine ⟨hlive.trans hi.live, ?_, ?_⟩
        · obtain ⟨ext, hlog, hext⟩ := hi.filed.extends_base
          exact ⟨ext, hlog, fun p hp => (hext p hp).trans hi.curr⟩
        · intro events f hf
          rw [hspec.filesToPersist] at hf
          unfold WalManager.extractNextPersistenceFile at hf
          split at hf
          · cases hf
          · cases hf
            exact ⟨hi.curr, hi.filed.buffer⟩
      refine ⟨?_, hspec.currFileNumber, ?_, ?_, ?_, ?_⟩
      · rw [hspec.manager]
        exact hi.filed.extract
      · rw [hspec.live]
        unfold WalManager.computeUpdatedLiveWalFileTracker
        rw [hlive]
      · rw [hcurr, hspec.live]
        exact WalManager.computeUpdated_liveRange hrange hspec.sublist hnew
      · intro f hf g hg
        rw [hspec.live] at hg
        exact WalManager.computeUpdated_lt hrange hspec.sublist hnew hf hg
      · simpa [hdo, AtStage] using hstage

theorem DiskInv.persistNewWalFile (h : DiskInv s)
    (hon : s.ongoing = some ⟨u, .persistNewWalFile, log⟩) :
    DiskInv { s with
        ongoing := some ⟨u, .persistMetadata, log⟩
        files := match u.filesToPersist with
          | some (events, f) => Function.update s.files f.fileNumber (some events)
          | none => s.files } := by
  have hu := h.updating _ hon
  have hpending : Pending s u log := hu.stage
  constructor
  case durable =>
      refine ⟨h.durable.range, ?_, h.durable.lt, h.durable.segmented⟩
      intro f hf
      cases hfile : u.filesToPersist with
      | none => exact h.durable.readable f hf
      | some file =>
        obtain ⟨events, g⟩ := file
        -- the new file is not live yet
        have hne : f.fileNumber ≠ g.fileNumber := by
          obtain ⟨first, hrange⟩ := h.durable.range
          have hlt := hrange.lt_next hf
          rw [(hpending.newFile events g hfile).1]
          exact Nat.ne_of_lt hlt
        exact (Function.update_of_ne hne _ _).trans (h.durable.readable f hf)
  case idle =>
      intro hno
      cases hno
  case updating =>
      rintro o ⟨⟩
      refine ⟨hu.filed, hu.curr, hu.live, hu.range, hu.disjoint,
        ⟨hpending.live, hpending.extends_durable, hpending.newFile⟩, ?_⟩
      intro events f hf
      have hf' : u.filesToPersist = some (events, f) := hf
      simp only [hf']
      exact Function.update_self _ _ _

theorem DiskInv.persistMetadata (h : DiskInv s)
    (hon : s.ongoing = some ⟨u, .persistMetadata, log⟩) :
    DiskInv { s with
        ongoing := some ⟨u, .deleteFiles u.filesToDelete, log⟩
        metadata := some u.persistentWalMetadata
        durableLog := log } := by
  have hu := h.updating _ hon
  obtain ⟨hpending, hwritten⟩ : Pending s u log ∧ _ := hu.stage
  constructor
  case durable =>
      refine ⟨hu.range, ?_, ?_, hu.filed.segmented⟩
      · intro f hf
        have hf' : f ∈ s.manager.computeUpdatedLiveWalFileTracker u.filesToDelete
            (u.filesToPersist.map (·.2)) := by
          rw [← hu.live]
          exact hf
        rcases WalManager.mem_computeUpdated.mp hf' with ⟨hold, -⟩ | hnew
        · -- an old file: the log only grew in later files
          rw [hpending.live] at hold
          obtain ⟨ext, hlog, hext⟩ := hpending.extends_durable
          obtain ⟨first, hrange⟩ := h.durable.range
          have hlt := hrange.lt_next hold
          refine (h.durable.readable f hold).trans ?_
          rw [hlog, contents_append_of_ne]
          intro p hp
          rw [hext p hp]
          exact Nat.ne_of_gt hlt
        · obtain ⟨⟨events, g⟩, hfile, rfl⟩ := Option.map_eq_some_iff.mp hnew
          refine (hwritten events g hfile).trans ?_
          rw [(hpending.newFile events g hfile).2]
      · intro p hp
        refine Nat.lt_of_lt_of_eq (hu.filed.base_lt p hp) hu.curr.symm
  case idle =>
      intro hno
      cases hno
  case updating =>
      rintro o ⟨⟩
      exact ⟨hu.filed, hu.curr, hu.live, hu.range, hu.disjoint, rfl, rfl, fun f hf => hf⟩

theorem DiskInv.deleteFile (h : DiskInv s) {remaining : List WalFileInfo} {f : WalFileInfo}
    (hon : s.ongoing = some ⟨u, .deleteFiles remaining, log⟩) (hmem : f ∈ remaining) :
    DiskInv { s with
        ongoing := some ⟨u, .deleteFiles (remaining.erase f), log⟩
        files := Function.update s.files f.fileNumber none } := by
  have hu := h.updating _ hon
  obtain ⟨hmeta, hdurable, hsub⟩ : s.metadata = some u.persistentWalMetadata ∧ _ := hu.stage
  constructor
  case durable =>
      refine ⟨h.durable.range, ?_, h.durable.lt, h.durable.segmented⟩
      intro g hg
      have hlive : g ∈ u.persistentWalMetadata.liveWalFilesTracker := by
        have hg' : g ∈ (recoveredManager s.metadata : WalManager Row).liveWalFilesTracker := hg
        rw [hmeta] at hg'
        exact hg'
      have hlt := hu.disjoint f (hsub f hmem) g hlive
      exact (Function.update_of_ne (Nat.ne_of_gt hlt) _ _).trans (h.durable.readable g hg)
  case idle =>
      intro hno
      cases hno
  case updating =>
      rintro o ⟨⟩
      exact ⟨hu.filed, hu.curr, hu.live, hu.range, hu.disjoint, hmeta, hdurable,
        fun g hg => hsub g (List.mem_of_mem_erase hg)⟩

theorem DiskInv.complete (h : DiskInv s)
    {walLsn : Option Nat} (hon : s.ongoing = some ⟨u, .deleteFiles [], log⟩)
    (hcomplete : s.manager.handleCompleteWalPersistenceUpdate b u = .ok (w, walLsn)) :
    DiskInv { s with manager := w, ongoing := none } := by
  have hu := h.updating _ hon
  obtain ⟨hmeta, hdurable, -⟩ : s.metadata = some u.persistentWalMetadata ∧ _ := hu.stage
  obtain ⟨hbuf, hcurr, -, hlive, -, -⟩ := WalManager.handleComplete_eq_ok hcomplete
  constructor
  case durable => exact h.durable
  case idle =>
      intro _
      have hfiled := hu.filed
      refine ⟨⟨?_, ?_, ?_, ?_⟩, ?_, ?_⟩
      · obtain ⟨ext, hlog, hext⟩ := hfiled.extends_base
        refine ⟨ext, hlog.trans (by rw [hdurable]), ?_⟩
        intro p hp
        rw [hcurr]
        exact hext p hp
      · intro p hp
        rw [hcurr]
        exact hfiled.base_lt p (hdurable ▸ hp)
      · exact hdurable ▸ hfiled.segmented
      · rw [hbuf, hcurr]
        exact hfiled.buffer
      · rw [hcurr, ← hu.curr, hmeta]
        rfl
      · rw [hlive, ← hu.live, hmeta]
        rfl
  case updating =>
      intro o ho
      cases ho

theorem DiskInv.crash (h : DiskInv s) :
    DiskInv
      { s with manager := recoveredManager s.metadata, ongoing := none, log := s.durableLog } where
  durable := h.durable
  idle := by
    intro _
    refine ⟨⟨⟨[], by simp, by simp⟩, h.durable.lt, h.durable.segmented, ?_⟩, rfl, rfl⟩
    have hbuf : (recoveredManager s.metadata : WalManager Row).inMemBuf = [] := by
      cases s.metadata <;> rfl
    rw [hbuf]
    refine (contents_eq_nil ?_).symm
    intro p hp
    exact Nat.ne_of_lt (h.durable.lt p hp)
  updating := by
    intro o ho
    cases ho

theorem DiskInv.step (h : DiskInv s) {a : WalAction Row} {s' : WalStore Row}
    (hstep : Step b s a s') : DiskInv s' := by
  cases hstep with
  | push hpush hnew => exact h.push hpush hnew
  | icebergSnapshot hle => exact h.icebergSnapshot _
  | prepare hidle hprep => exact h.prepare hidle hprep
  | persistNewWalFile hon => exact h.persistNewWalFile hon
  | persistMetadata hon => exact h.persistMetadata hon
  | deleteFile hon hmem => exact h.deleteFile hon hmem
  | complete hon hcomplete => exact h.complete hon hcomplete
  | crash => exact h.crash

/-- In every run, whatever is pushed, the disk holds what the metadata promises. -/
theorem DiskInv_reachable {env : Environment Row} (hs : (system b env).Reachable s) : DiskInv s := by
  have hind : (system b env).Inductive DiskInv := by
    constructor
    · rintro s rfl
      exact DiskInv_init
    · rintro s s' hinv ⟨a, -, hnext⟩
      exact hinv.step (Step_of_next hnext)
  exact hind.reachable hs

end WalStore
end Moonlink
