-- SUMMARY: The Delta table manager: the files it tracks against the files that are active in the log, over syncs that may fail.
import Moonlink.Lib.TransitionSystem
import Moonlink.Storage.DeletionLog

/-!
# The Delta table manager

A sync validates its payload against `persisted_data_files`, uploads the new files, records
them, and commits one entry to the log. The log is kept with the ids of the files, which are
those of the table since it was loaded.

File statistics, sizes and schemas are left out.
-/

namespace Moonlink.Deltalake

open Lib Storage

structure MooncakeDataFile where
  fileId : FileId
  filePath : String
  deriving DecidableEq, Repr

/-- The parts of the payload that concern data files. -/
structure PersistenceSnapshotPayload where
  dataFiles : List MooncakeDataFile
  newDataFilesToImport : List MooncakeDataFile
  oldDataFilesToRemove : List MooncakeDataFile
  flushLsn : Nat

def PersistenceSnapshotPayload.takeDataFilesToImport (p : PersistenceSnapshotPayload) :
    List MooncakeDataFile :=
  p.dataFiles ++ p.newDataFilesToImport

def PersistenceSnapshotPayload.takeDataFilesToRemove (p : PersistenceSnapshotPayload) :
    List MooncakeDataFile :=
  p.oldDataFilesToRemove

inductive DeltaError where
  /-- The table can be neither opened nor created. -/
  | tableUnavailable
  /-- "Data file to add is already persisted." -/
  | alreadyPersisted (file : MooncakeDataFile)
  /-- "Data file to remove is not persisted." -/
  | notPersisted (file : MooncakeDataFile)
  | uploadFailed
  | commitFailed
  deriving DecidableEq, Repr

inductive DeltaPanic where
  /-- `sync_snapshot_impl`: a file that is recorded was there already. -/
  | recordedTwice
  /-- `get_flush_lsn`: the last entry of the log has no flush LSN. -/
  | flushLsnMissing
  deriving DecidableEq, Repr

structure DeltaLog where
  /-- The files that were added and not removed. -/
  active : List MooncakeDataFile
  /-- The flush LSN of the last entry, which is missing in the one that creates the table. -/
  flushLsn : Option Nat

def DeltaLog.created : DeltaLog := ⟨[], none⟩

/-- Removal is by path. The paths of the added files are new. -/
def DeltaLog.commit (log : DeltaLog) (adds removes : List MooncakeDataFile) (flushLsn : Nat) : DeltaLog where
  active := (log.active.filter fun f => !(removes.map (·.filePath)).contains f.filePath) ++ adds
  flushLsn := some flushLsn

structure DeltalakeTableManager where
  /-- From file ids to remote file paths. -/
  persistedDataFiles : AssocMap FileId String

namespace DeltalakeTableManager

def new : DeltalakeTableManager := ⟨∅⟩

def validateNewDataFiles (m : DeltalakeTableManager) : List MooncakeDataFile → Except DeltaError Unit
  | [] => .ok ()
  | f :: rest =>
    if (m.persistedDataFiles.lookup f.fileId).isSome then .error (.alreadyPersisted f)
    else m.validateNewDataFiles rest

def validateOldDataFiles (m : DeltalakeTableManager) : List MooncakeDataFile → Except DeltaError Unit
  | [] => .ok ()
  | f :: rest =>
    if (m.persistedDataFiles.lookup f.fileId).isNone then .error (.notPersisted f)
    else m.validateOldDataFiles rest

/-- Reflect the add actions. -/
def recordDataFiles (m : DeltalakeTableManager) : List MooncakeDataFile → Except DeltaPanic DeltalakeTableManager
  | [] => .ok m
  | f :: rest =>
    if (m.persistedDataFiles.lookup f.fileId).isSome then .error .recordedTwice
    else recordDataFiles ⟨m.persistedDataFiles.insert f.fileId f.filePath⟩ rest

end DeltalakeTableManager

/-- What goes wrong outside the manager. -/
structure SyncEnv where
  tableAvailable : Bool
  /-- The remote path of an uploaded file. -/
  upload : MooncakeDataFile → Option String
  /-- The snapshot of the table can be read, and the entry is committed. -/
  commits : Bool

/-- Upload the files, which keep their ids. -/
def SyncEnv.uploadDataFiles (env : SyncEnv) (files : List MooncakeDataFile) : Option (List MooncakeDataFile) :=
  files.mapM fun f => (env.upload f).map fun path => ⟨f.fileId, path⟩

structure DeltaSystem where
  manager : DeltalakeTableManager
  /-- None if there is no table yet. -/
  log : Option DeltaLog

namespace DeltaSystem

/-- The files of the table. -/
def active (s : DeltaSystem) : List MooncakeDataFile := (s.log.map DeltaLog.active).getD []

/-- `load_data_files`: the files get their ids in order. -/
def loadDataFiles (nextFileId : Nat) : List MooncakeDataFile → List MooncakeDataFile
  | [] => []
  | f :: rest => ⟨nextFileId, f.filePath⟩ :: loadDataFiles (nextFileId + 1) rest

/-- A new manager after `load_snapshot_from_table`. The ids in the log are those it gives. -/
def loadSnapshotFromTable : Option DeltaLog → Except DeltaPanic DeltaSystem
  | none => .ok ⟨.new, none⟩
  | some log =>
    match log.flushLsn with
    | none => .error .flushLsnMissing
    | some lsn => .ok ⟨.new, some ⟨loadDataFiles 0 log.active, some lsn⟩⟩

/-- The state, also after an error, with the remote files. -/
def syncSnapshot (s : DeltaSystem) (p : PersistenceSnapshotPayload) (env : SyncEnv) :
    Except DeltaPanic (DeltaSystem × Except DeltaError (List MooncakeDataFile)) :=
  if env.tableAvailable then
    let log := s.log.getD .created
    let s : DeltaSystem := ⟨s.manager, some log⟩
    match s.manager.validateNewDataFiles p.takeDataFilesToImport with
    | .error e => .ok (s, .error e)
    | .ok () =>
      match s.manager.validateOldDataFiles p.takeDataFilesToRemove with
      | .error e => .ok (s, .error e)
      | .ok () =>
        match env.uploadDataFiles p.takeDataFilesToImport with
        | none => .ok (s, .error .uploadFailed)
        | some uploaded => do
          let manager ← s.manager.recordDataFiles uploaded
          if env.commits then
            return (⟨manager, some (log.commit uploaded p.takeDataFilesToRemove p.flushLsn)⟩, .ok uploaded)
          else return (⟨manager, some log⟩, .error .commitFailed)
  else .ok (s, .error .tableUnavailable)

def next (s : DeltaSystem) (i : PersistenceSnapshotPayload × SyncEnv) : Except DeltaPanic DeltaSystem := do
  return (← s.syncSnapshot i.1 i.2).1

def run (s : DeltaSystem) (inputs : List (PersistenceSnapshotPayload × SyncEnv)) :
    Except DeltaPanic DeltaSystem :=
  inputs.foldlM next s

/-- The states before the first sync, with or without a load. -/
inductive Started : DeltaSystem → Prop where
  | fresh (log : Option DeltaLog) : Started ⟨.new, log⟩
  | loaded {log : Option DeltaLog} {s : DeltaSystem} (h : loadSnapshotFromTable log = .ok s) : Started s

variable {s s' : DeltaSystem} {p : PersistenceSnapshotPayload} {env : SyncEnv}

/-- The manager has exactly the active files. -/
def Tracks (s : DeltaSystem) : Prop :=
  ∀ id path, s.manager.persistedDataFiles.lookup id = some path ↔ (⟨id, path⟩ : MooncakeDataFile) ∈ s.active

/-- New files are added, and files of the table are removed. -/
structure Proper (s : DeltaSystem) (p : PersistenceSnapshotPayload) : Prop where
  nodup : (p.takeDataFilesToImport.map (·.fileId)).Nodup
  added : ∀ f ∈ p.takeDataFilesToImport, ∀ g ∈ s.active, g.fileId ≠ f.fileId
  removed : ∀ f ∈ p.takeDataFilesToRemove, f ∈ s.active

/-- The payload is valid, the sync does not panic, and the manager follows the log. If the sync fails,
the same payload can be synced again. -/
def SyncsWell (s : DeltaSystem) (i : PersistenceSnapshotPayload × SyncEnv) : Prop :=
  s.manager.validateNewDataFiles i.1.takeDataFilesToImport = .ok () ∧
  s.manager.validateOldDataFiles i.1.takeDataFilesToRemove = .ok () ∧
  Returns (s.syncSnapshot i.1 i.2) fun r => r.1.Tracks ∧ ∀ e, r.2 = .error e → r.1.Proper i.1

/-- The sync fails before it records anything, or adds files and commits, or does nothing. -/
def KeepsTrack (p : PersistenceSnapshotPayload) (env : SyncEnv) : Prop :=
  env.tableAvailable = true → (env.uploadDataFiles p.takeDataFilesToImport).isSome = true →
    if env.commits then p.takeDataFilesToRemove = [] else p.takeDataFilesToImport = []

/-! ## One sync -/

variable {m : DeltalakeTableManager} {files : List MooncakeDataFile}

theorem validateNewDataFiles_eq_ok
    (h : ∀ f ∈ files, m.persistedDataFiles.lookup f.fileId = none) : m.validateNewDataFiles files = .ok () := by
  induction files with
  | nil => rfl
  | cons f rest ih =>
    obtain ⟨hf, hrest⟩ := List.forall_mem_cons.mp h
    simp [DeltalakeTableManager.validateNewDataFiles, hf, ih hrest]

theorem validateOldDataFiles_eq_ok
    (h : ∀ f ∈ files, (m.persistedDataFiles.lookup f.fileId).isSome = true) :
    m.validateOldDataFiles files = .ok () := by
  induction files with
  | nil => rfl
  | cons f rest ih =>
    obtain ⟨hf, hrest⟩ := List.forall_mem_cons.mp h
    simp [DeltalakeTableManager.validateOldDataFiles, Option.isSome_iff_ne_none.mp hf, ih hrest]

theorem recordDataFiles_returns (hnodup : (files.map (·.fileId)).Nodup)
    (hnew : ∀ f ∈ files, m.persistedDataFiles.lookup f.fileId = none) :
    Returns (m.recordDataFiles files) fun m' => ∀ id path, m'.persistedDataFiles.lookup id = some path ↔
      m.persistedDataFiles.lookup id = some path ∨ (⟨id, path⟩ : MooncakeDataFile) ∈ files := by
  induction files generalizing m with
  | nil => exact .ok fun id path => by simp
  | cons f rest ih =>
    obtain ⟨hf, hrest⟩ := List.forall_mem_cons.mp hnew
    obtain ⟨hnot, hnodup⟩ := List.nodup_cons.mp hnodup
    unfold DeltalakeTableManager.recordDataFiles
    rw [if_neg (by simp [hf])]
    refine (ih hnodup fun g hg => ?_).mono fun m' hm' id path => ?_
    · have hne : g.fileId ≠ f.fileId := fun heq => hnot (List.mem_map.mpr ⟨g, hg, heq⟩)
      rw [AssocMap.lookup_insert_ite, if_neg hne]
      exact hrest g hg
    · rw [hm', AssocMap.lookup_insert_ite, List.mem_cons]
      by_cases hid : id = f.fileId
      · subst hid
        rw [if_pos rfl, hf]
        have hcons : (⟨f.fileId, path⟩ : MooncakeDataFile) = f ↔ some f.filePath = some path := by
          rw [Option.some_inj]
          exact ⟨fun heq => (congrArg MooncakeDataFile.filePath heq).symm, fun heq => by rw [← heq]⟩
        rw [hcons]
        simp
      · rw [if_neg hid]
        have hne : (⟨id, path⟩ : MooncakeDataFile) ≠ f := fun heq => hid (congrArg MooncakeDataFile.fileId heq)
        simp [hne]

theorem uploadDataFiles_fileIds {files uploaded : List MooncakeDataFile}
    (h : env.uploadDataFiles files = some uploaded) : uploaded.map (·.fileId) = files.map (·.fileId) := by
  unfold SyncEnv.uploadDataFiles at h
  induction files generalizing uploaded with
  | nil =>
    cases h
    rfl
  | cons f rest ih =>
    rw [List.mapM_cons, Option.bind_eq_bind, Option.bind_eq_some_iff] at h
    obtain ⟨g, hg, h⟩ := h
    rw [Option.bind_eq_bind, Option.bind_eq_some_iff] at h
    obtain ⟨tail, htail, h⟩ := h
    obtain ⟨path, -, rfl⟩ := Option.map_eq_some_iff.mp hg
    cases h
    rw [List.map_cons, List.map_cons, ih htail]

theorem Tracks.lookup_eq_none (h : s.Tracks) {id : FileId} (hid : ∀ g ∈ s.active, g.fileId ≠ id) :
    s.manager.persistedDataFiles.lookup id = none := by
  rw [Option.eq_none_iff_forall_ne_some]
  intro path hlookup
  exact hid _ ((h id path).mp hlookup) rfl

theorem Tracks.validates (h : s.Tracks) (hp : s.Proper p) :
    s.manager.validateNewDataFiles p.takeDataFilesToImport = .ok () ∧
      s.manager.validateOldDataFiles p.takeDataFilesToRemove = .ok () := by
  constructor
  · exact validateNewDataFiles_eq_ok fun f hf => h.lookup_eq_none (hp.added f hf)
  · refine validateOldDataFiles_eq_ok fun f hf => ?_
    rw [(h f.fileId f.filePath).mpr (hp.removed f hf)]
    rfl

/-- The state when the table is open. -/
def opened (s : DeltaSystem) : DeltaSystem := ⟨s.manager, some (s.log.getD .created)⟩

theorem active_opened (s : DeltaSystem) : s.opened.active = s.active := by
  cases hlog : s.log with
  | none => simp [opened, active, hlog, DeltaLog.created]
  | some log => simp [opened, active, hlog]

theorem Tracks.opened (h : s.Tracks) : s.opened.Tracks := by
  intro id path
  rw [active_opened]
  exact h id path

theorem Proper.opened (h : s.Proper p) : s.opened.Proper p where
  nodup := h.nodup
  added := by
    rw [active_opened]
    exact h.added
  removed := by
    rw [active_opened]
    exact h.removed

/-- The sync of a valid payload, after the table was opened. -/
theorem syncSnapshot_eq (hvalid : s.manager.validateNewDataFiles p.takeDataFilesToImport = .ok () ∧
      s.manager.validateOldDataFiles p.takeDataFilesToRemove = .ok ())
    (htable : env.tableAvailable = true) :
    s.syncSnapshot p env = match env.uploadDataFiles p.takeDataFilesToImport with
      | none => .ok (s.opened, .error .uploadFailed)
      | some uploaded => do
        let manager ← s.manager.recordDataFiles uploaded
        if env.commits then
          return (⟨manager, some ((s.log.getD .created).commit uploaded p.takeDataFilesToRemove p.flushLsn)⟩,
            .ok uploaded)
        else return (⟨manager, s.opened.log⟩, .error .commitFailed) := by
  simp only [syncSnapshot, htable, if_true, hvalid.1, hvalid.2]
  rfl

/-- The ids of the uploaded files are new. -/
theorem Proper.recordDataFiles_returns (hp : s.Proper p) (h : s.Tracks) {uploaded : List MooncakeDataFile}
    (hup : env.uploadDataFiles p.takeDataFilesToImport = some uploaded) :
    (∀ f ∈ uploaded, ∀ g ∈ s.active, g.fileId ≠ f.fileId) ∧
    Returns (s.manager.recordDataFiles uploaded) fun m => ∀ id path, m.persistedDataFiles.lookup id = some path ↔
      (⟨id, path⟩ : MooncakeDataFile) ∈ s.active ∨ (⟨id, path⟩ : MooncakeDataFile) ∈ uploaded := by
  have hids := uploadDataFiles_fileIds hup
  have hnew : ∀ f ∈ uploaded, ∀ g ∈ s.active, g.fileId ≠ f.fileId := by
    intro f hf g hg
    have hmem := List.mem_map_of_mem (f := (·.fileId)) hf
    rw [hids] at hmem
    obtain ⟨f', hf', heq⟩ := List.mem_map.mp hmem
    exact heq ▸ hp.added f' hf' g hg
  refine ⟨hnew, ?_⟩
  refine (DeltaSystem.recordDataFiles_returns (hids ▸ hp.nodup) fun f hf => ?_).mono fun m hm id path => ?_
  · exact h.lookup_eq_none (hnew f hf)
  · rw [hm, h id path]

theorem commitFailed_tracks_iff {uploaded : List MooncakeDataFile}
    (hnew : ∀ f ∈ uploaded, ∀ g ∈ s.active, g.fileId ≠ f.fileId)
    (hm : ∀ id path, m.persistedDataFiles.lookup id = some path ↔
      (⟨id, path⟩ : MooncakeDataFile) ∈ s.active ∨ (⟨id, path⟩ : MooncakeDataFile) ∈ uploaded) :
    Tracks ⟨m, s.opened.log⟩ ↔ uploaded = [] := by
  have hactive : (⟨m, s.opened.log⟩ : DeltaSystem).active = s.active := active_opened s
  constructor
  · intro h
    rw [List.eq_nil_iff_forall_not_mem]
    intro f hf
    have hmem := (h f.fileId f.filePath).mp ((hm f.fileId f.filePath).mpr (.inr hf))
    rw [hactive] at hmem
    exact hnew f hf _ hmem rfl
  · rintro rfl id path
    rw [hm, hactive]
    simp

theorem committed_tracks_iff {uploaded removes : List MooncakeDataFile} {flushLsn : Nat}
    (hnew : ∀ f ∈ uploaded, ∀ g ∈ s.active, g.fileId ≠ f.fileId) (hremoved : ∀ f ∈ removes, f ∈ s.active)
    (hm : ∀ id path, m.persistedDataFiles.lookup id = some path ↔
      (⟨id, path⟩ : MooncakeDataFile) ∈ s.active ∨ (⟨id, path⟩ : MooncakeDataFile) ∈ uploaded) :
    Tracks ⟨m, some ((s.log.getD .created).commit uploaded removes flushLsn)⟩ ↔ removes = [] := by
  have hactive : (s.log.getD .created).active = s.active := active_opened s
  constructor
  · intro h
    rw [List.eq_nil_iff_forall_not_mem]
    intro f hf
    have hmem := (h f.fileId f.filePath).mp ((hm f.fileId f.filePath).mpr (.inl (hremoved f hf)))
    -- The file is not active any more, and it is not one of the new files.
    rcases List.mem_append.mp hmem with hkept | hadded
    · have hpath : f.filePath ∈ removes.map (·.filePath) := List.mem_map.mpr ⟨f, hf, rfl⟩
      have hnot := (List.mem_filter.mp hkept).2
      rw [Bool.not_eq_true', List.contains_eq_mem] at hnot
      exact absurd hpath (of_decide_eq_false hnot)
    · exact hnew _ hadded f (hremoved f hf) rfl
  · rintro rfl id path
    rw [hm, ← hactive]
    simp [active, DeltaLog.commit]

theorem syncsWell_of_tracks {s' : DeltaSystem} {r : Except DeltaError (List MooncakeDataFile)}
    (h : s.Tracks) (hp : s.Proper p) (hsync : s.syncSnapshot p env = .ok (s', r))
    (htracks : s'.Tracks) (hproper : ∀ e, r = .error e → s'.Proper p) : s.SyncsWell (p, env) :=
  ⟨(h.validates hp).1, (h.validates hp).2, hsync ▸ .ok ⟨htracks, hproper⟩⟩

theorem syncsWell_iff (h : s.Tracks) (hp : s.Proper p) : s.SyncsWell (p, env) ↔ KeepsTrack p env := by
  have hvalid := h.validates hp
  by_cases htable : env.tableAvailable = true
  case neg =>
    have hsync : s.syncSnapshot p env = .ok (s, .error .tableUnavailable) := if_neg htable
    exact iff_of_true (syncsWell_of_tracks h hp hsync h fun _ _ => hp) fun ht => absurd ht htable
  have heq := syncSnapshot_eq hvalid htable
  cases hup : env.uploadDataFiles p.takeDataFilesToImport with
  | none =>
    rw [hup] at heq
    refine iff_of_true (syncsWell_of_tracks h hp heq h.opened fun _ _ => hp.opened) fun _ hsome => ?_
    rw [hup] at hsome
    cases hsome
  | some uploaded =>
    obtain ⟨hnew, m, hrecord, hm⟩ := hp.recordDataFiles_returns h hup
    rw [hup] at heq
    simp only [hrecord, ok_bind] at heq
    have hkeeps : KeepsTrack p env ↔
        if env.commits then p.takeDataFilesToRemove = [] else p.takeDataFilesToImport = [] := by
      simp [KeepsTrack, htable, hup]
    rw [hkeeps]
    cases hcommits : env.commits with
    | true =>
      simp only [hcommits, if_true] at heq ⊢
      rw [← committed_tracks_iff hnew hp.removed hm]
      constructor
      · rintro ⟨-, -, hreturns⟩
        rw [heq] at hreturns
        exact (Returns.ok_iff.mp hreturns).1
      · exact fun ht => syncsWell_of_tracks h hp heq ht nofun
    | false =>
      simp only [hcommits, Bool.false_eq_true, if_false] at heq ⊢
      have hempty : p.takeDataFilesToImport = [] ↔ uploaded = [] := by
        rw [← List.map_eq_nil_iff (f := (·.fileId)), ← uploadDataFiles_fileIds hup, List.map_eq_nil_iff]
      rw [hempty, ← commitFailed_tracks_iff hnew hm]
      constructor
      · rintro ⟨-, -, hreturns⟩
        rw [heq] at hreturns
        exact (Returns.ok_iff.mp hreturns).1
      · intro ht
        have hactive : (⟨m, s.opened.log⟩ : DeltaSystem).active = s.active := active_opened s
        refine syncsWell_of_tracks h hp heq ht fun _ _ => ⟨hp.nodup, ?_, ?_⟩
        · rw [hactive]
          exact hp.added
        · rw [hactive]
          exact hp.removed

/-! ## Runs -/

theorem Started.tracks_iff (h : Started s) : s.Tracks ↔ s.active = [] := by
  have hmanager : s.manager = .new := by
    cases h with
    | fresh log => rfl
    | @loaded log _ hload =>
      cases log with
      | none =>
        cases hload
        rfl
      | some log =>
        unfold loadSnapshotFromTable at hload
        cases hlsn : log.flushLsn with
        | none =>
          simp only [hlsn] at hload
          cases hload
        | some lsn =>
          simp only [hlsn] at hload
          cases hload
          rfl
  have hnone : ∀ id, s.manager.persistedDataFiles.lookup id = none := by
    rw [hmanager]
    exact fun id => AList.lookup_empty id
  constructor
  · intro ht
    rw [List.eq_nil_iff_forall_not_mem]
    intro f hf
    have hsome := (ht f.fileId f.filePath).mpr hf
    rw [hnone] at hsome
    cases hsome
  · intro hempty id path
    rw [hnone, hempty]
    simp

/-- Every sync of a run is as it should be exactly if none of them removes files or fails to commit new
ones, and the table was empty in the beginning. -/
theorem syncs_well_iff {inputs : List (PersistenceSnapshotPayload × SyncEnv)} (hstart : Started s)
    (hproper : RunMeets (fun s i => (next s i).toOption) (fun s i => s.Proper i.1) s inputs) :
    (s.Tracks ∧ RunMeets (fun s i => (next s i).toOption) SyncsWell s inputs) ↔
      (s.active = [] ∧ ∀ i ∈ inputs, KeepsTrack i.1 i.2) := by
  rw [← hstart.tracks_iff]
  refine and_congr_right fun htracks => ?_
  clear hstart
  induction inputs generalizing s with
  | nil => simp [RunMeets]
  | cons i rest ih =>
    rw [List.forall_mem_cons, ← syncsWell_iff htracks hproper.1]
    refine and_congr_right fun hwell => ?_
    -- The sync does not panic, and the manager still has the active files.
    obtain ⟨⟨s', r⟩, hsync, htracks', -⟩ := hwell.2.2
    have hnext : (s.next i).toOption = some s' := by
      simp only [next, hsync]
      rfl
    rw [← ih (hproper.2 s' hnext) htracks']
    simp [hnext]

instance : Decidable (s.Proper p) :=
  decidable_of_iff ((p.takeDataFilesToImport.map (·.fileId)).Nodup ∧
      (∀ f ∈ p.takeDataFilesToImport, ∀ g ∈ s.active, g.fileId ≠ f.fileId) ∧
      ∀ f ∈ p.takeDataFilesToRemove, f ∈ s.active)
    ⟨fun h => ⟨h.1, h.2.1, h.2.2⟩, fun h => ⟨h.nodup, h.added, h.removed⟩⟩

instance : Decidable (KeepsTrack p env) :=
  inferInstanceAs (Decidable (_ → _ → if env.commits then _ else _))

def newFile (id : FileId) : MooncakeDataFile := ⟨id, "local-" ++ toString id⟩

def remoteFile (id : FileId) : MooncakeDataFile := ⟨id, "remote-" ++ toString id⟩

def flushed (id : FileId) (flushLsn : Nat) : PersistenceSnapshotPayload := ⟨[newFile id], [], [], flushLsn⟩

/-- The upload works, and the commit may fail. -/
def uploads (commits : Bool) : SyncEnv := ⟨true, fun f => some (remoteFile f.fileId).filePath, commits⟩

/-- Two flushes are synced, the second after an upload that failed. -/
def flushedInputs : List (PersistenceSnapshotPayload × SyncEnv) :=
  [(flushed 1 10, uploads true), (flushed 2 20, ⟨true, fun _ => none, true⟩), (flushed 2 20, uploads true)]

theorem syncs_well_iff_flushedInputs :
    (⟨.new, none⟩ : DeltaSystem).Tracks ∧
      RunMeets (fun s i => (next s i).toOption) SyncsWell ⟨.new, none⟩ flushedInputs :=
  (syncs_well_iff (.fresh none) (by decide +kernel)).mpr ⟨rfl, by decide +kernel⟩

/-- A commit fails, and the payload cannot be synced again. A compaction leaves its old file behind. A
file of a table that is loaded cannot be removed. -/
theorem manager_not_log :
    Returns ((⟨.new, none⟩ : DeltaSystem).run [(flushed 1 10, uploads false)]) (fun s =>
      s.Proper (flushed 1 10) ∧ s.manager.persistedDataFiles.keys = [1] ∧ s.active = [] ∧
      Returns (s.syncSnapshot (flushed 1 10) (uploads true)) fun r => r.2 = .error (.alreadyPersisted (newFile 1))) ∧
    Returns ((⟨.new, none⟩ : DeltaSystem).run [(flushed 1 10, uploads true),
        (⟨[], [newFile 2], [remoteFile 1], 10⟩, uploads true)]) (fun s =>
      s.manager.persistedDataFiles.keys = [2, 1] ∧ s.active = [remoteFile 2]) ∧
    Returns (loadSnapshotFromTable (some ⟨[remoteFile 7], some 10⟩)) (fun s =>
      s.Proper ⟨[], [newFile 1], s.active, 10⟩ ∧
      Returns (s.syncSnapshot ⟨[], [newFile 1], s.active, 10⟩ (uploads true)) fun r =>
        r.2 = .error (.notPersisted ⟨0, (remoteFile 7).filePath⟩)) := by
  decide +kernel

end DeltaSystem
end Moonlink.Deltalake
