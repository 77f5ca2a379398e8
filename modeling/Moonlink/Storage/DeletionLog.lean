-- SUMMARY: The deleted rows of data files, as vectors, blobs and logs have them, and how the writes of a snapshot change all three.
import Moonlink.Storage.Table

/-!
# Deletion records

A deleted row of a data file is marked in the vector of the file, and is in its persisted
blob or in the log of committed deletions. Writes add rows to the vector and the log
together; a file that is added has no blob. This is stated once, as `Extends`, and every
operation that writes is shown to be one.
-/

namespace Moonlink.Storage

open Lib

variable {Row Ident : Type}

namespace DiskFiles

/-- The row is marked in the vector of its file. -/
def Deleted (files : DiskFiles Row) (fileId : FileId) (rowIdx : Nat) : Prop :=
  ∃ entry, files.lookup fileId = some entry ∧
    rowIdx ∈ entry.committedDeletionVector.collectDeletedRows

/-- The row is in the persisted blob of its file. -/
def InBlob (files : DiskFiles Row) (fileId : FileId) (rowIdx : Nat) : Prop :=
  ∃ entry, files.lookup fileId = some entry ∧ rowIdx ∈ entry.puffinDeletionBlob.getD []

variable {files : DiskFiles Row} {fileId : FileId}

theorem mem_iff :
    fileId ∈ files ↔ ∃ entry, files.lookup fileId = some entry := by
  rw [← AList.lookup_isSome, Option.isSome_iff_exists]

theorem Deleted.mem {rowIdx : Nat}
    (h : files.Deleted fileId rowIdx) : fileId ∈ files := by
  obtain ⟨entry, hlook, -⟩ := h
  exact mem_iff.mpr ⟨entry, hlook⟩

theorem InBlob.mem {rowIdx : Nat}
    (h : files.InBlob fileId rowIdx) : fileId ∈ files := by
  obtain ⟨entry, hlook, -⟩ := h
  exact mem_iff.mpr ⟨entry, hlook⟩

theorem deleted_insert {fileId f : FileId} {entry : DiskFileEntry Row}
    {r : Nat} : Deleted (files.insert fileId entry) f r ↔
      f = fileId ∧ r ∈ entry.committedDeletionVector.collectDeletedRows ∨
        f ≠ fileId ∧ files.Deleted f r := by
  unfold Deleted
  rw [AssocMap.lookup_insert_ite]
  by_cases hf : f = fileId
  · simp [hf]
  · simp [hf]

theorem inBlob_insert {fileId f : FileId} {entry : DiskFileEntry Row}
    {r : Nat} : InBlob (files.insert fileId entry) f r ↔
      f = fileId ∧ r ∈ entry.puffinDeletionBlob.getD [] ∨ f ≠ fileId ∧ files.InBlob f r := by
  unfold InBlob
  rw [AssocMap.lookup_insert_ite]
  by_cases hf : f = fileId
  · simp [hf]
  · simp [hf]

/-- A row of a file is marked as deleted, and nothing else changes. -/
structure RowDeleted (files : DiskFiles Row) (fileId : FileId) (rowIdx : Nat)
    (files' : DiskFiles Row) : Prop where
  mem : ∀ f, f ∈ files' ↔ f ∈ files
  deleted : ∀ f r, files'.Deleted f r ↔ files.Deleted f r ∨ f = fileId ∧ r = rowIdx
  inBlob : ∀ f r, files'.InBlob f r ↔ files.InBlob f r

theorem deleteRow_ensures (files : DiskFiles Row) (fileId : FileId) (rowIdx : Nat) :
    Ensures (files.deleteRow fileId rowIdx) (RowDeleted files fileId rowIdx) := by
  unfold deleteRow
  cases hlook : files.lookup fileId with
  | none => exact .error
  | some entry =>
    refine .bind (P := fun e => e.puffinDeletionBlob = entry.puffinDeletionBlob ∧
      BatchDeletionVector.RowDeleted entry.committedDeletionVector rowIdx
        e.committedDeletionVector) ?_ ?_
    · exact .bind (BatchDeletionVector.deleteActiveRow_ensures _ _) fun v hv => .pure ⟨rfl, hv⟩
    · rintro e ⟨hblob, hdeleted⟩
      refine .pure ⟨?_, ?_, ?_⟩
      · intro f
        rw [AList.mem_insert]
        refine or_iff_right_of_imp ?_
        rintro rfl
        exact mem_iff.mpr ⟨entry, hlook⟩
      · intro f r
        rw [deleted_insert, hdeleted.mem]
        by_cases hf : f = fileId
        · subst hf
          simp [Deleted, hlook]
        · simp [hf]
      · intro f r
        rw [inBlob_insert, hblob]
        by_cases hf : f = fileId
        · subst hf
          simp [InBlob, hlook]
        · simp [hf]

end DiskFiles

/-! ## Logs -/

/-- The deletion of the row is in the log. -/
def Logged (log : List ProcessedDeletionRecord) (fileId : FileId) (rowIdx : Nat) : Prop :=
  ∃ deletion ∈ log, deletion.pos = .diskFile fileId rowIdx

instance {log : List ProcessedDeletionRecord} {fileId : FileId} {rowIdx : Nat} :
    Decidable (Logged log fileId rowIdx) :=
  inferInstanceAs (Decidable (∃ deletion ∈ log, _))

theorem logged_append {log log' : List ProcessedDeletionRecord} {f r : Nat} :
    Logged (log ++ log') f r ↔ Logged log f r ∨ Logged log' f r := by
  simp only [Logged, List.mem_append, or_and_right, exists_or]

theorem logged_singleton {deletion : ProcessedDeletionRecord} {f r : Nat} :
    Logged [deletion] f r ↔ deletion.pos = .diskFile f r := by
  simp [Logged]

/-- LSNs of deletions do not matter. -/
theorem logged_map {log : List ProcessedDeletionRecord} {f r : Nat} {g : Nat → Nat} :
    Logged (log.map fun deletion => { deletion with lsn := g deletion.lsn }) f r ↔ Logged log f r := by
  simp [Logged]

/-! ## Records -/

/-- The data files with the log of committed deletions. -/
structure DeletionRecords (Row : Type) where
  files : DiskFiles Row
  log : List ProcessedDeletionRecord

namespace DeletionRecords

/-- The deleted rows are those of the blobs and of the log. -/
def Represented (R : DeletionRecords Row) : Prop :=
  ∀ f r, R.files.Deleted f r ↔ R.files.InBlob f r ∨ Logged R.log f r

/-- Files among `new` are added, and every new deletion is logged. -/
structure Extends (new : FileId → Prop) (R R' : DeletionRecords Row) : Prop where
  mem : ∀ f, f ∈ R.files → f ∈ R'.files
  mem_inv : ∀ f, f ∈ R'.files → f ∈ R.files ∨ new f
  deleted : ∀ f r, R.files.Deleted f r → R'.files.Deleted f r
  deleted_inv : ∀ f r, R'.files.Deleted f r → R.files.Deleted f r ∨ Logged R'.log f r
  inBlob : ∀ f r, R'.files.InBlob f r ↔ R.files.InBlob f r
  logged : ∀ f r, Logged R.log f r → Logged R'.log f r
  logged_inv : ∀ f r, Logged R'.log f r → Logged R.log f r ∨ R'.files.Deleted f r

namespace Extends

variable {new : FileId → Prop} {R R₁ R₂ : DeletionRecords Row}

theorem refl (new : FileId → Prop) (R : DeletionRecords Row) : Extends new R R where
  mem _ h := h
  mem_inv _ h := .inl h
  deleted _ _ h := h
  deleted_inv _ _ h := .inl h
  inBlob _ _ := Iff.rfl
  logged _ _ h := h
  logged_inv _ _ h := .inl h

theorem trans (h : Extends new R R₁) (h' : Extends new R₁ R₂) : Extends new R R₂ where
  mem f hf := h'.mem f (h.mem f hf)
  mem_inv f hf := by
    rcases h'.mem_inv f hf with hold | hnew
    · exact h.mem_inv f hold
    · exact .inr hnew
  deleted f r hr := h'.deleted f r (h.deleted f r hr)
  deleted_inv f r hr := by
    rcases h'.deleted_inv f r hr with hold | hlog
    · exact (h.deleted_inv f r hold).imp_right (h'.logged f r)
    · exact .inr hlog
  inBlob f r := (h'.inBlob f r).trans (h.inBlob f r)
  logged f r hr := h'.logged f r (h.logged f r hr)
  logged_inv f r hr := by
    rcases h'.logged_inv f r hr with hold | hdel
    · exact (h.logged_inv f r hold).imp_right (h'.deleted f r)
    · exact .inr hdel

theorem mono {new' : FileId → Prop} (h : Extends new R R₁) (himp : ∀ f, new f → new' f) :
    Extends new' R R₁ :=
  { h with mem_inv := fun f hf => (h.mem_inv f hf).imp_right (himp f) }

theorem represented (h : Extends new R R₁) (hrep : R.Represented) : R₁.Represented := by
  intro f r
  rw [h.inBlob]
  constructor
  · intro hdel
    rcases h.deleted_inv f r hdel with hold | hlog
    · exact ((hrep f r).mp hold).imp_right (h.logged f r)
    · exact .inr hlog
  · rintro (hblob | hlog)
    · exact h.deleted f r ((hrep f r).mpr (.inl hblob))
    · rcases h.logged_inv f r hlog with hold | hdel
      · exact h.deleted f r ((hrep f r).mpr (.inr hold))
      · exact hdel

/-- Only the log changes, by deletions of rows in memory. -/
theorem of_logged_iff {files : DiskFiles Row} {log log' : List ProcessedDeletionRecord}
    (hlog : ∀ f r, Logged log' f r ↔ Logged log f r) : Extends new ⟨files, log⟩ ⟨files, log'⟩ :=
  { refl new _ with
    deleted_inv := fun _ _ h => .inl h
    logged := fun f r h => (hlog f r).mpr h
    logged_inv := fun f r h => .inl ((hlog f r).mp h) }

/-- A row is deleted and its deletion logged. -/
theorem of_rowDeleted {files files' : DiskFiles Row} {log : List ProcessedDeletionRecord}
    {deletion : ProcessedDeletionRecord} {fileId : FileId} {rowIdx : Nat}
    (h : DiskFiles.RowDeleted files fileId rowIdx files')
    (hpos : deletion.pos = .diskFile fileId rowIdx) :
    Extends new ⟨files, log⟩ ⟨files', log ++ [deletion]⟩ where
  mem f := (h.mem f).mpr
  mem_inv f hf := .inl ((h.mem f).mp hf)
  deleted f r hr := (h.deleted f r).mpr (.inl hr)
  deleted_inv f r hr := by
    rcases (h.deleted f r).mp hr with hold | ⟨rfl, rfl⟩
    · exact .inl hold
    · exact .inr (logged_append.mpr (.inr (logged_singleton.mpr hpos)))
  inBlob := h.inBlob
  logged f r hr := logged_append.mpr (.inl hr)
  logged_inv f r hr := by
    rcases logged_append.mp hr with hold | hnew
    · exact .inl hold
    · rw [logged_singleton, hpos] at hnew
      cases hnew
      exact .inr ((h.deleted fileId rowIdx).mpr (.inr ⟨rfl, rfl⟩))

end Extends

/-! ## Files that are added -/

/-- Files with no deleted row are added, whose ids were not there. -/
structure Added (ids : List FileId) (files files' : DiskFiles Row) : Prop where
  mem : ∀ f, f ∈ files' ↔ f ∈ files ∨ f ∈ ids
  deleted : ∀ f r, files'.Deleted f r ↔ files.Deleted f r
  inBlob : ∀ f r, files'.InBlob f r ↔ files.InBlob f r

theorem Added.insert {ids : List FileId} {files files' : DiskFiles Row} (h : Added ids files files')
    {fileId : FileId} {entry : DiskFileEntry Row} (hfresh : fileId ∉ files')
    (hvector : entry.committedDeletionVector.collectDeletedRows = [])
    (hblob : entry.puffinDeletionBlob = none) :
    Added (ids ++ [fileId]) files (files'.insert fileId entry) where
  mem f := by
    rw [AList.mem_insert, h.mem, List.mem_append, List.mem_singleton, or_comm, or_assoc]
  deleted f r := by
    rw [DiskFiles.deleted_insert, hvector, ← h.deleted]
    constructor
    · rintro (⟨-, hr⟩ | ⟨-, hr⟩)
      · cases hr
      · exact hr
    · intro hr
      refine .inr ⟨?_, hr⟩
      rintro rfl
      exact hfresh hr.mem
  inBlob f r := by
    rw [DiskFiles.inBlob_insert, hblob, ← h.inBlob]
    constructor
    · rintro (⟨-, hr⟩ | ⟨-, hr⟩)
      · cases hr
      · exact hr
    · intro hr
      refine .inr ⟨?_, hr⟩
      rintro rfl
      exact hfresh hr.mem

theorem Added.refl (files : DiskFiles Row) : Added [] files files where
  mem f := by simp
  deleted _ _ := Iff.rfl
  inBlob _ _ := Iff.rfl

/-! ## Disk slices -/

open SnapshotTableState

theorem insertNewFile_ensures (files : DiskFiles Row) (new : List (DataFile Row)) :
    Ensures (new.foldlM insertNewFile files) (Added (new.map (·.fileId)) files) := by
  refine .foldlM (I := fun done : List (DataFile Row) => Added (done.map (·.fileId)) files) (Added.refl files) ?_
  intro done file rest files' _ hadded files'' hok
  obtain ⟨_, hassert, hok⟩ := bind_eq_ok.mp hok
  cases hok
  have hfresh : file.fileId ∉ files' :=
    AList.lookup_eq_none.mp (by simpa using StoragePanic.of_assert hassert)
  rw [List.map_append, List.map_singleton]
  exact hadded.insert hfresh rfl rfl

theorem file_of_remapLocation {slice : DiskSliceWriter Row Ident} {loc : RecordLocation} {f r : Nat}
    (h : slice.remapLocation loc = some (.diskFile f r)) : f ∈ slice.files.map (·.fileId) := by
  cases loc with
  | diskFile fileId rowIdx => cases h
  | memoryBatch batchId rowIdx =>
    obtain ⟨⟨fileIdx, row⟩, -, h⟩ := Option.bind_eq_some_iff.mp h
    obtain ⟨file, hfile, h⟩ := Option.bind_eq_some_iff.mp h
    cases h
    exact List.mem_map_of_mem (List.mem_of_getElem? hfile)

theorem remapLocation_eq_none_or (slice : DiskSliceWriter Row Ident) (loc : RecordLocation) :
    slice.remapLocation loc = none ∨
      (∃ batchId rowIdx, loc = .memoryBatch batchId rowIdx) ∧
        ∃ f r, slice.remapLocation loc = some (.diskFile f r) := by
  cases loc with
  | diskFile fileId rowIdx => exact .inl rfl
  | memoryBatch batchId rowIdx =>
    cases h : slice.remapLocation (.memoryBatch batchId rowIdx) with
    | none => exact .inl rfl
    | some pos =>
      refine .inr ⟨⟨_, _, rfl⟩, ?_⟩
      obtain ⟨⟨fileIdx, row⟩, -, h⟩ := Option.bind_eq_some_iff.mp h
      obtain ⟨file, -, h⟩ := Option.bind_eq_some_iff.mp h
      cases h
      exact ⟨_, _, rfl⟩

/-- The rows to which a slice moves deletions are marked, and nothing else changes. -/
structure Moved (slice : DiskSliceWriter Row Ident) (log : List ProcessedDeletionRecord)
    (files files' : DiskFiles Row) : Prop where
  mem : ∀ f, f ∈ files' ↔ f ∈ files
  deleted : ∀ f r, files'.Deleted f r ↔
    files.Deleted f r ∨ ∃ d ∈ log, slice.remapLocation d.pos = some (.diskFile f r)
  inBlob : ∀ f r, files'.InBlob f r ↔ files.InBlob f r

theorem remapCommittedDeletion_ensures (slice : DiskSliceWriter Row Ident)
    (log : List ProcessedDeletionRecord) (files : DiskFiles Row)
    (hfiles : ∀ f ∈ slice.files.map (·.fileId), f ∈ files) :
    Ensures (log.foldlM (remapCommittedDeletion slice) files) (Moved slice log files) := by
  refine .foldlM (I := fun done => Moved slice done files) ⟨by simp, by simp, by simp⟩ ?_
  intro done d rest files' _ hmoved
  unfold remapCommittedDeletion
  rcases remapLocation_eq_none_or slice d.pos with hnone | ⟨-, f, r, hsome⟩
  · rw [hnone]
    refine .ok ⟨hmoved.mem, ?_, hmoved.inBlob⟩
    intro f r
    rw [hmoved.deleted]
    simp [hnone]
  · have hmem : f ∈ files' := (hmoved.mem f).mpr (hfiles f (file_of_remapLocation hsome))
    rw [hsome]
    simp only [AList.lookup_isSome, hmem, if_true]
    refine (DiskFiles.deleteRow_ensures files' f r).mono ?_
    intro files'' hdel
    refine ⟨fun f' => (hdel.mem f').trans (hmoved.mem f'), ?_,
      fun f' r' => (hdel.inBlob f' r').trans (hmoved.inBlob f' r')⟩
    intro f' r'
    rw [hdel.deleted, hmoved.deleted, or_assoc]
    refine or_congr_right ?_
    simp [or_and_right, exists_or, hsome, eq_comm]

theorem logged_remap {slice : DiskSliceWriter Row Ident} {log : List ProcessedDeletionRecord}
    {f r : Nat} : Logged (log.map slice.remapDeletionIfNeeded) f r ↔
      Logged log f r ∨ ∃ d ∈ log, slice.remapLocation d.pos = some (.diskFile f r) := by
  unfold Logged
  simp only [List.mem_map, exists_exists_and_eq_and, ← exists_or, ← and_or_left]
  refine exists_congr fun d => and_congr_right fun _ => ?_
  unfold DiskSliceWriter.remapDeletionIfNeeded
  rcases remapLocation_eq_none_or slice d.pos with hnone | ⟨⟨_, _, hpos⟩, f', r', hsome⟩
  · simp [hnone]
  · rw [hsome]
    simp [hpos]

/-- The files of a slice are added, and deletions of its batches move to them. -/
theorem integrate_ensures (slice : DiskSliceWriter Row Ident) (R : DeletionRecords Row) :
    Ensures (do
        let files ← slice.files.foldlM insertNewFile R.files
        R.log.foldlM (remapCommittedDeletion slice) files)
      fun files' => Extends (· ∈ slice.files.map (·.fileId)) R
        ⟨files', R.log.map slice.remapDeletionIfNeeded⟩ := by
  refine .bind (insertNewFile_ensures R.files slice.files) ?_
  intro files hadded
  refine (remapCommittedDeletion_ensures slice R.log files fun f hf =>
    (hadded.mem f).mpr (.inr hf)).mono ?_
  intro files' hmoved
  exact {
    mem := fun f hf => (hmoved.mem f).mpr ((hadded.mem f).mpr (.inl hf))
    mem_inv := fun f hf => (hadded.mem f).mp ((hmoved.mem f).mp hf)
    deleted := fun f r hr => (hmoved.deleted f r).mpr (.inl ((hadded.deleted f r).mpr hr))
    deleted_inv := by
      intro f r hr
      rcases (hmoved.deleted f r).mp hr with hold | hnew
      · exact .inl ((hadded.deleted f r).mp hold)
      · exact .inr (logged_remap.mpr (.inr hnew))
    inBlob := fun f r => (hmoved.inBlob f r).trans (hadded.inBlob f r)
    logged := fun f r hr => logged_remap.mpr (.inl hr)
    logged_inv := by
      intro f r hr
      rcases logged_remap.mp hr with hold | hnew
      · exact .inl hold
      · exact .inr ((hmoved.deleted f r).mpr (.inr hnew)) }

/-! ## Files of a stream -/

/-- The deleted rows are those of the log, and nothing is persisted. -/
def Unpersisted (R : DeletionRecords Row) : Prop :=
  R.Represented ∧ ∀ f r, ¬ R.files.InBlob f r

theorem Unpersisted.empty : Unpersisted (⟨∅, []⟩ : DeletionRecords Row) :=
  ⟨fun f r => by simp [DiskFiles.Deleted, DiskFiles.InBlob, Logged], fun f r => by simp [DiskFiles.InBlob]⟩

theorem Extends.unpersisted {new : FileId → Prop} {R R' : DeletionRecords Row} (h : Extends new R R')
    (hR : R.Unpersisted) : R'.Unpersisted :=
  ⟨h.represented hR.1, fun f r hblob => hR.2 f r ((h.inBlob f r).mp hblob)⟩

/-- The files of a committed stream are added with their deletions. -/
theorem Unpersisted.extends {R R' : DeletionRecords Row} (h : R'.Unpersisted)
    (hfresh : ∀ f ∈ R'.files, f ∉ R.files) :
    Extends (· ∈ R'.files) R
      ⟨R'.files.entries.foldl (fun files f => files.insert f.1 f.2) R.files, R.log ++ R'.log⟩ := by
  have hlook := AssocMap.lookup_foldl_insert R.files R'.files
  have hold : ∀ f ∈ R.files,
      (R'.files.entries.foldl (fun files f => files.insert f.1 f.2) R.files).lookup f =
        R.files.lookup f := by
    intro f hf
    have hnone : R'.files.lookup f = none := AList.lookup_eq_none.mpr fun hmem => hfresh f hmem hf
    rw [hlook, hnone, Option.none_or]
  have hnew : ∀ f entry, R'.files.lookup f = some entry →
      (R'.files.entries.foldl (fun files f => files.insert f.1 f.2) R.files).lookup f =
        some entry := by
    intro f entry hentry
    rw [hlook, hentry, Option.some_or]
  -- Every entry is an old one or one of the stream.
  have hcases : ∀ f entry,
      (R'.files.entries.foldl (fun files f => files.insert f.1 f.2) R.files).lookup f =
        some entry → R'.files.lookup f = some entry ∨ R.files.lookup f = some entry := by
    intro f entry hentry
    rw [hlook, Option.or_eq_some_iff] at hentry
    exact hentry.imp_right And.right
  exact {
    mem := by
      intro f hf
      obtain ⟨entry, hentry⟩ := DiskFiles.mem_iff.mp hf
      exact DiskFiles.mem_iff.mpr ⟨entry, (hold f hf).trans hentry⟩
    mem_inv := by
      intro f hf
      obtain ⟨entry, hentry⟩ := DiskFiles.mem_iff.mp hf
      rcases hcases f entry hentry with hstream | hentry
      · exact .inr (DiskFiles.mem_iff.mpr ⟨entry, hstream⟩)
      · exact .inl (DiskFiles.mem_iff.mpr ⟨entry, hentry⟩)
    deleted := by
      rintro f r hdel
      obtain ⟨entry, hentry, hr⟩ := id hdel
      exact ⟨entry, (hold f hdel.mem).trans hentry, hr⟩
    deleted_inv := by
      rintro f r ⟨entry, hentry, hr⟩
      rcases hcases f entry hentry with hstream | hentry
      · rcases (h.1 f r).mp ⟨entry, hstream, hr⟩ with hblob | hlog
        · exact absurd hblob (h.2 f r)
        · exact .inr (logged_append.mpr (.inr hlog))
      · exact .inl ⟨entry, hentry, hr⟩
    inBlob := by
      intro f r
      constructor
      · rintro ⟨entry, hentry, hr⟩
        rcases hcases f entry hentry with hstream | hentry
        · exact absurd ⟨entry, hstream, hr⟩ (h.2 f r)
        · exact ⟨entry, hentry, hr⟩
      · intro hblob
        obtain ⟨entry, hentry, hr⟩ := id hblob
        exact ⟨entry, (hold f hblob.mem).trans hentry, hr⟩
    logged := fun f r hlog => logged_append.mpr (.inl hlog)
    logged_inv := by
      intro f r hlog
      rcases logged_append.mp hlog with hlog | hlog
      · exact .inl hlog
      · obtain ⟨entry, hentry, hr⟩ := (h.1 f r).mpr (.inr hlog)
        exact .inr ⟨entry, hnew f entry hentry, hr⟩ }

end DeletionRecords

/-! ## The writes of a snapshot -/

/-- The ids of the files that an ended stream adds. -/
def TransactionStreamOutput.flushedFileIds : TransactionStreamOutput Row Ident → List FileId
  | .commit c => c.flushedFiles.keys
  | .abort _ => []

/-- The ids of the files that the task adds by writes. -/
def SnapshotTask.newFileIds (task : SnapshotTask Row Ident) : List FileId :=
  (task.newDiskSlices.flatMap fun slice => slice.files.map (·.fileId)) ++
    task.newStreamingXact.flatMap TransactionStreamOutput.flushedFileIds

theorem SnapshotTask.map_getNewDataFiles (task : SnapshotTask Row Ident) :
    task.getNewDataFiles.map (·.fileId) = task.newFileIds := by
  unfold getNewDataFiles newFileIds
  rw [List.map_append, List.map_flatMap, List.map_flatMap]
  congr 2
  funext output
  cases output with
  | commit commit =>
    simp [TransactionStreamOutput.flushedFileIds, AList.keys, List.keys, Function.comp_def]
  | abort xactId => rfl

/-- Committed streams have nothing persisted. -/
def TransactionStreamOutput.Unpersisted : TransactionStreamOutput Row Ident → Prop
  | .commit c => DeletionRecords.Unpersisted ⟨c.flushedFiles, c.localDeletions⟩
  | .abort _ => True

namespace SnapshotTableState

open DeletionRecords

variable (s : SnapshotTableState Row Ident)

def records : DeletionRecords Row :=
  ⟨s.diskFiles, s.committedDeletionLog⟩

/-- Files among `new` and deletions are added; what is not persisted stays. -/
structure Writes (new : FileId → Prop) (s s' : SnapshotTableState Row Ident) : Prop where
  records : Extends new s.records s'.records
  unpersistedRecords : s'.unpersistedRecords = s.unpersistedRecords

namespace Writes

variable {new : FileId → Prop} {s s₁ s₂ : SnapshotTableState Row Ident}

theorem refl (new : FileId → Prop) (s : SnapshotTableState Row Ident) : Writes new s s :=
  ⟨.refl new _, rfl⟩

theorem trans (h : Writes new s s₁) (h' : Writes new s₁ s₂) : Writes new s s₂ :=
  ⟨h.records.trans h'.records, h'.unpersistedRecords.trans h.unpersistedRecords⟩

theorem mono {new' : FileId → Prop} (h : Writes new s s₁) (himp : ∀ f, new f → new' f) :
    Writes new' s s₁ := ⟨h.records.mono himp, h.unpersistedRecords⟩

/-- Writes one after another. -/
theorem ensures_bind {x : Except StoragePanic (SnapshotTableState Row Ident)}
    {g : SnapshotTableState Row Ident → Except StoragePanic (SnapshotTableState Row Ident)}
    (hx : Ensures x (Writes new s)) (hg : ∀ s, Ensures (g s) (Writes new s)) :
    Ensures (x >>= g) (Writes new s) :=
  .bind hx fun s hs => (hg s).mono fun _ hs' => hs.trans hs'

theorem ensures_foldlM {β : Type}
    {g : SnapshotTableState Row Ident → β → Except StoragePanic (SnapshotTableState Row Ident)}
    (s : SnapshotTableState Row Ident) (bs : List β)
    (hg : ∀ s, ∀ b ∈ bs, Ensures (g s b) (Writes new s)) :
    Ensures (bs.foldlM g s) (Writes new s) := by
  refine .foldlM (I := fun _ => Writes new s) (.refl new _) ?_
  intro done b rest s' heq hs'
  have hb : b ∈ bs := by
    rw [heq]
    simp
  exact (hg s' b hb).mono fun _ h => hs'.trans h

end Writes

/-! ### Streams -/

theorem applyTransactionStream_writes (acc : SnapshotTableState Row Ident × SnapshotTask Row Ident)
    (output : TransactionStreamOutput Row Ident) (hok : output.Unpersisted)
    (hfresh : ∀ f ∈ output.flushedFileIds, f ∉ acc.1.diskFiles) :
    Writes (· ∈ output.flushedFileIds) acc.1 (applyTransactionStream acc output).1 := by
  cases output with
  | commit commit => exact ⟨hok.extends hfresh, rfl⟩
  | abort xactId => exact ⟨.refl _ _, rfl⟩

theorem foldl_applyTransactionStream_writes (outputs : List (TransactionStreamOutput Row Ident))
    (acc : SnapshotTableState Row Ident × SnapshotTask Row Ident)
    (hok : ∀ output ∈ outputs, output.Unpersisted)
    (hnodup : (outputs.flatMap TransactionStreamOutput.flushedFileIds).Nodup)
    (hfresh : ∀ f ∈ outputs.flatMap TransactionStreamOutput.flushedFileIds, f ∉ acc.1.diskFiles) :
    Writes (· ∈ outputs.flatMap TransactionStreamOutput.flushedFileIds) acc.1
      (outputs.foldl applyTransactionStream acc).1 := by
  induction outputs generalizing acc with
  | nil => exact .refl _ _
  | cons output rest ih =>
    rw [List.flatMap_cons] at hnodup hfresh
    obtain ⟨-, hrest, hdisjoint⟩ := List.nodup_append'.mp hnodup
    have hhead := applyTransactionStream_writes acc output (hok output List.mem_cons_self)
      fun f hf => hfresh f (List.mem_append_left _ hf)
    have htail := ih (applyTransactionStream acc output)
      (fun o ho => hok o (List.mem_cons_of_mem _ ho)) hrest (by
        intro f hf hmem
        rcases hhead.records.mem_inv f hmem with hold | hnew
        · exact hfresh f (List.mem_append_right _ hf) hold
        · exact hdisjoint hnew hf)
    rw [List.flatMap_cons, List.foldl_cons]
    exact (hhead.mono fun f hf => List.mem_append_left _ hf).trans
      (htail.mono fun f hf => List.mem_append_right _ hf)

theorem newDiskSlices_foldl_applyTransactionStream
    (outputs : List (TransactionStreamOutput Row Ident))
    (acc : SnapshotTableState Row Ident × SnapshotTask Row Ident) :
    (outputs.foldl applyTransactionStream acc).2.newDiskSlices = acc.2.newDiskSlices := by
  induction outputs generalizing acc with
  | nil => rfl
  | cons output rest ih =>
    rw [List.foldl_cons, ih]
    cases output <;> rfl

/-! ### Batches, files and deletions -/

variable {new : FileId → Prop}

theorem finalizeBatches_ensures (batchSize : Nat) (incoming : List (RecordBatchWithDeletionVector Row)) :
    Ensures (s.finalizeBatches batchSize incoming) (Writes new s) :=
  .bind_any fun _ => .bind_any fun _ => .pure ⟨.refl _ _, rfl⟩

theorem commitDeletion_ensures (deletion : ProcessedDeletionRecord) :
    Ensures (s.commitDeletion deletion) (Writes new s) := by
  unfold commitDeletion
  cases hpos : deletion.pos with
  | memoryBatch batchId rowIdx =>
    have hlog : Extends new s.records ⟨s.diskFiles, s.committedDeletionLog ++ [deletion]⟩ :=
      .of_logged_iff fun f r => by simp [logged_append, logged_singleton, hpos]
    simp only
    split
    · exact .ok ⟨hlog, rfl⟩
    · exact .bind_any fun _ => .pure ⟨hlog, rfl⟩
  | diskFile fileId rowIdx =>
    exact .bind (DiskFiles.deleteRow_ensures s.diskFiles fileId rowIdx) fun files hfiles =>
      .pure ⟨.of_rowDeleted hfiles hpos, rfl⟩

theorem addProcessedDeletion_ensures (newCommitLsn : Nat) (s : SnapshotTableState Row Ident)
    (deletion : ProcessedDeletionRecord) :
    Ensures (addProcessedDeletion newCommitLsn s deletion) (Writes new s) := by
  unfold addProcessedDeletion
  split
  · exact s.commitDeletion_ensures deletion
  · exact .ok ⟨.refl _ _, rfl⟩

variable [DecidableEq Ident]

theorem integrateDiskSlice_ensures (slice : DiskSliceWriter Row Ident) :
    Ensures (s.integrateDiskSlice slice) (Writes (· ∈ slice.files.map (·.fileId)) s) := by
  refine .bind_any fun _ => ?_
  intro s' hok
  obtain ⟨files, hfiles, hok⟩ := bind_eq_ok.mp hok
  obtain ⟨diskFiles, hdisk, hok⟩ := bind_eq_ok.mp hok
  obtain ⟨batches, -, hok⟩ := bind_eq_ok.mp hok
  cases hok
  exact ⟨integrate_ensures slice s.records diskFiles (bind_eq_ok.mpr ⟨files, hfiles, hdisk⟩), rfl⟩

theorem integrateDiskSlices_ensures (slices : List (DiskSliceWriter Row Ident)) :
    Ensures (s.integrateDiskSlices slices)
      (Writes (· ∈ slices.flatMap fun slice => slice.files.map (·.fileId)) s) := by
  refine Writes.ensures_foldlM s slices fun s' slice hslice => ?_
  exact (integrateDiskSlice_ensures s' slice).mono fun _ h => h.mono fun f hf =>
    List.mem_flatMap.mpr ⟨slice, hslice, hf⟩

theorem applyNewDeletions_ensures (identity : IdentityProp Row Ident)
    (s : SnapshotTableState Row Ident) (task : SnapshotTask Row Ident) :
    Ensures (s.applyNewDeletions identity task) (Writes new s) := by
  refine Writes.ensures_bind
    (Writes.ensures_foldlM s _ fun s' d _ => addProcessedDeletion_ensures _ s' d) fun s' => ?_
  refine .bind_any fun _ => Writes.ensures_foldlM s' _ fun s'' group _ => ?_
  exact .bind_any fun processed =>
    Writes.ensures_foldlM s'' _ fun s d _ => addProcessedDeletion_ensures _ s d

theorem processDeletionLog_ensures (identity : IdentityProp Row Ident)
    (s : SnapshotTableState Row Ident) (task : SnapshotTask Row Ident) :
    Ensures (s.processDeletionLog identity task) (Writes new s) := by
  have hadvance : Ensures (s.advancePendingDeletions task.commitLsnBaseline) (Writes new s) :=
    (Writes.ensures_foldlM { s with uncommittedDeletionLog := [] } s.uncommittedDeletionLog
      fun s' d _ => addProcessedDeletion_ensures _ s' d).mono fun s' hs' =>
        ⟨hs'.records, hs'.unpersistedRecords⟩
  exact Writes.ensures_bind hadvance fun s' => s'.applyNewDeletions_ensures identity task

/-- The writes of a task add files and deletions, and log the deletions. -/
theorem applyWrites_ensures (cfg : SnapshotConfig Row Ident)
    (task : SnapshotTask Row Ident) (hok : ∀ output ∈ task.newStreamingXact, output.Unpersisted)
    (hnodup : task.newFileIds.Nodup) (hfresh : ∀ f ∈ task.newFileIds, f ∉ s.diskFiles) :
    Ensures (s.applyWrites cfg task) (Writes (· ∈ task.newFileIds) s) := by
  have hstreams := foldl_applyTransactionStream_writes task.newStreamingXact (s, task) hok
    (List.nodup_append'.mp hnodup).2.1 fun f hf => hfresh f (List.mem_append_right _ hf)
  have hslices := newDiskSlices_foldl_applyTransactionStream task.newStreamingXact (s, task)
  unfold applyWrites
  generalize task.newStreamingXact.foldl applyTransactionStream (s, task) = acc at hstreams hslices ⊢
  obtain ⟨s₁, task₁⟩ := acc
  simp only at hstreams hslices ⊢
  rw [hslices]
  have hstreams : Writes (· ∈ task.newFileIds) s s₁ :=
    hstreams.mono fun f hf => List.mem_append_right _ hf
  refine .bind (P := Writes (· ∈ task.newFileIds) s₁) ?_ fun s₂ hbatches => ?_
  · exact (finalizeBatches_ensures _ _ _).mono fun s₂ hs₂ => ⟨hs₂.records, hs₂.unpersistedRecords⟩
  · refine .bind (integrateDiskSlices_ensures s₂ task.newDiskSlices) fun s₃ hslices => ?_
    have hslices : Writes (· ∈ task.newFileIds) s₂ s₃ :=
      hslices.mono fun f hf => List.mem_append_left _ hf
    have hwrites := (hstreams.trans hbatches).trans hslices
    refine .bind (P := Writes (· ∈ task.newFileIds) { s₃ with rows := task₁.newRows })
      (processDeletionLog_ensures _ _ _) fun s₄ hdeletions => ?_
    exact .pure (hwrites.trans ⟨hdeletions.records, hdeletions.unpersistedRecords⟩)

end SnapshotTableState
end Moonlink.Storage
