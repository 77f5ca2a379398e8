-- SUMMARY: What a payload for the Iceberg table holds, and what its persistence adds to the deletions of the table and to the blobs.
import Moonlink.Storage.Iceberg
import Moonlink.Storage.DeletionLog

namespace Moonlink.Storage

open Lib

variable {Row Ident : Type}

/-! ## Payloads -/

/-- The vectors of the payload mark the deletions that it lists. -/
def PersistenceSnapshotPayload.VectorsMatch (payload : PersistenceSnapshotPayload Row) : Prop :=
  ∀ f r, (∃ v, payload.newDeletionVector.lookup f = some v ∧ r ∈ v.collectDeletedRows) ↔
    (f, r) ∈ payload.committedDeletionLogs

namespace SnapshotTableState

/-- The vectors mark the deletions of files. -/
structure Aggregated (files : DiskFiles Row) (deletions : List (FileId × Nat))
    (vectors : AssocMap FileId BatchDeletionVector) : Prop where
  mem : ∀ d ∈ deletions, d.1 ∈ files
  vectors : ∀ f r, (∃ v, vectors.lookup f = some v ∧ r ∈ v.collectDeletedRows) ↔ (f, r) ∈ deletions

theorem aggregateDeletion_ensures {files : DiskFiles Row} {deletions : List (FileId × Nat)}
    {vectors : AssocMap FileId BatchDeletionVector} (h : Aggregated files deletions vectors)
    (deletion : FileId × Nat) :
    Ensures (aggregateDeletion files vectors deletion) (Aggregated files (deletions ++ [deletion])) := by
  obtain ⟨f, r⟩ := deletion
  unfold aggregateDeletion
  cases hlook : files.lookup f with
  | none => exact .error
  | some entry =>
    refine .bind (BatchDeletionVector.deleteActiveRow_ensures _ r) fun v hv => .pure ⟨?_, ?_⟩
    · intro d hd
      rcases List.mem_append.mp hd with hold | hnew
      · exact h.mem d hold
      · rw [List.mem_singleton.mp hnew]
        exact DiskFiles.mem_iff.mpr ⟨entry, hlook⟩
    · intro f' r'
      rw [List.mem_append, List.mem_singleton, ← h.vectors]
      simp only [AssocMap.lookup_insert_ite]
      by_cases hf : f' = f
      · subst hf
        have hold : r' ∈ ((vectors.lookup f').getD
            (.new entry.committedDeletionVector.maxRows)).collectDeletedRows ↔
            ∃ v, vectors.lookup f' = some v ∧ r' ∈ v.collectDeletedRows := by
          cases vectors.lookup f' <;> simp
        simp [hv.mem, hold]
      · simp [hf]

/-- The deletions of a payload are logged deletions of files of the snapshot. -/
theorem aggregateCommittedDeletionLogs_ensures (s : SnapshotTableState Row Ident) (flushLsn : Nat) :
    Ensures (s.aggregateCommittedDeletionLogs flushLsn) fun res =>
      Aggregated s.diskFiles res.1 res.2 ∧ ∀ d ∈ res.1, Logged s.committedDeletionLog d.1 d.2 := by
  refine .bind_any fun _ => ?_
  refine .bind (P := Aggregated s.diskFiles
    (s.committedDeletionLog.filterMap (deletionToPersist flushLsn))) ?_ ?_
  · refine .foldlM (I := Aggregated s.diskFiles) ⟨nofun, by simp⟩ ?_
    intro done deletion rest vectors _ hdone
    exact aggregateDeletion_ensures hdone deletion
  · intro vectors hvectors
    refine .pure ⟨hvectors, ?_⟩
    intro d hd
    obtain ⟨deletion, hmem, hsome⟩ := List.mem_filterMap.mp hd
    refine ⟨deletion, hmem, ?_⟩
    unfold deletionToPersist at hsome
    split at hsome
    · rename_i hpos
      split at hsome
      · cases hsome
        exact hpos
      · cases hsome
    · cases hsome

end SnapshotTableState

/-! ## Files of the manager -/

namespace IcebergTableManager

variable (files : AssocMap FileId (DataFileEntry Row))

/-- The row is deleted in the persisted table. -/
def Deleted (fileId : FileId) (rowIdx : Nat) : Prop :=
  ∃ entry, files.lookup fileId = some entry ∧ rowIdx ∈ entry.deletionVector.collectDeletedRows

theorem Deleted.mem {files : AssocMap FileId (DataFileEntry Row)} {f : FileId} {r : Nat}
    (h : Deleted files f r) : f ∈ files := by
  obtain ⟨entry, hlook, -⟩ := h
  exact AList.lookup_isSome.mp (by rw [hlook]; rfl)

/-- Files with no deletion are imported. -/
structure Imported (new : List (DataFile Row)) (files files' : AssocMap FileId (DataFileEntry Row)) :
    Prop where
  mem : ∀ f ∈ files', f ∈ files ∨ f ∈ new.map (·.fileId)
  deleted : ∀ f r, Deleted files' f r ↔ Deleted files f r

theorem importDataFile_ensures (new : List (DataFile Row)) :
    Ensures (new.foldlM importDataFile files) (Imported new files) := by
  refine .foldlM (I := fun done => Imported done files) ⟨fun _ h => .inl h, fun _ _ => Iff.rfl⟩ ?_
  intro done file rest files₁ _ hdone files₂ hok
  obtain ⟨_, hassert, hok⟩ := bind_eq_ok.mp hok
  cases hok
  have hfresh : files₁.lookup file.fileId = none := by simpa using StoragePanic.of_assert hassert
  refine ⟨?_, ?_⟩
  · intro f hf
    rw [AList.mem_insert] at hf
    rw [List.map_append, List.mem_append]
    rcases hf with rfl | hf
    · exact .inr (.inr (by simp))
    · exact (hdone.mem f hf).imp_right .inl
  · intro f r
    rw [← hdone.deleted]
    unfold Deleted
    simp only [AssocMap.lookup_insert_ite]
    by_cases hf : f = file.fileId
    · subst hf
      simp [hfresh]
    · simp [hf]

theorem removeDataFile_ensures (old : List FileId) : Ensures (old.foldlM removeDataFile files) fun files' =>
      (∀ f ∈ files', f ∈ files) ∧ ∀ f r, Deleted files' f r ↔ Deleted files f r ∧ f ∉ old := by
  refine .foldlM (I := fun done files' => (∀ f ∈ files', f ∈ files) ∧
    ∀ f r, Deleted files' f r ↔ Deleted files f r ∧ f ∉ done) ⟨fun _ h => h, by simp⟩ ?_
  rintro done fileId rest files₁ _ ⟨hmem, hdeleted⟩
  refine .bind_any fun _ => .pure ⟨fun f hf => hmem f (AList.mem_erase.mp hf).2, ?_⟩
  intro f r
  have herase : Deleted (files₁.erase fileId) f r ↔ f ≠ fileId ∧ Deleted files₁ f r := by
    unfold Deleted
    simp only [AssocMap.lookup_erase_ite]
    by_cases hf : f = fileId <;> simp [hf]
  rw [herase, hdeleted, List.mem_append, List.mem_singleton]
  tauto

/-- Nothing is moved if no persisted deletion is in the map. -/
theorem remapPersistedFile_eq (remap : DataFileRemap)
    (hremap : ∀ f r, Deleted files f r → RecordLocation.diskFile f r ∉ remap) :
    files.entries.foldlM (remapPersistedFile files remap) ∅ =
      (.ok ∅ : Except StoragePanic (AssocMap FileId BatchDeletionVector)) := by
  have hfile : ∀ file ∈ files.entries, ∀ vectors, remapPersistedFile files remap vectors file =
      .ok vectors := by
    intro file hmem vectors
    have hrow : ∀ r ∈ file.2.deletionVector.collectDeletedRows,
        remap.lookup (.diskFile file.1 r) = none := fun r hr =>
      AList.lookup_eq_none.mpr (hremap file.1 r ⟨file.2, AssocMap.lookup_eq_some_iff.mpr hmem, hr⟩)
    unfold remapPersistedFile
    generalize file.2.deletionVector.collectDeletedRows = rows at hrow ⊢
    induction rows with
    | nil => rfl
    | cons r rows ih =>
      rw [List.foldlM_cons]
      unfold remapPersistedRow
      rw [hrow r List.mem_cons_self]
      exact ih fun r' hr' => hrow r' (List.mem_cons_of_mem _ hr')
  generalize files.entries = entries at hfile ⊢
  induction entries with
  | nil => rfl
  | cons file entries ih =>
    rw [List.foldlM_cons, hfile file List.mem_cons_self, ok_bind]
    exact ih fun file' hmem => hfile file' (List.mem_cons_of_mem _ hmem)

theorem syncDataFiles_ensures (new : List (DataFile Row)) (old : List FileId) (remap : DataFileRemap)
    (hremap : ∀ f r, Deleted files f r → RecordLocation.diskFile f r ∉ remap) :
    Ensures (syncDataFiles files new old remap) fun res => res.2 = ∅ ∧
      (∀ f ∈ res.1, f ∈ files ∨ f ∈ new.map (·.fileId)) ∧
      ∀ f r, Deleted res.1 f r ↔ Deleted files f r ∧ f ∉ old := by
  unfold syncDataFiles
  split
  · rename_i hempty
    simp only [Bool.and_eq_true, List.isEmpty_iff] at hempty
    exact .ok ⟨rfl, fun f hf => .inl hf, by simp [hempty.2]⟩
  · refine .bind (importDataFile_ensures files new) fun files₁ himported => ?_
    rw [remapPersistedFile_eq files₁ remap fun f r hdel => hremap f r ((himported.deleted f r).mp hdel),
      ok_bind]
    refine .bind (removeDataFile_ensures files₁ old) ?_
    rintro files₂ ⟨hmem, hdeleted⟩
    refine .pure ⟨rfl, fun f hf => himported.mem f (hmem f hf), fun f r => ?_⟩
    rw [hdeleted, himported.deleted]

/-! ## Blobs -/

/-- The vectors `done` are added to the files, and the blobs have all deletions. -/
structure BlobsWritten (files : AssocMap FileId (DataFileEntry Row))
    (done : List (Sigma fun _ : FileId => BatchDeletionVector))
    (acc : AssocMap FileId (DataFileEntry Row) × AssocMap FileId (List Nat)) : Prop where
  mem : ∀ f, f ∈ acc.1 ↔ f ∈ files
  deleted : ∀ f r, Deleted acc.1 f r ↔
    Deleted files f r ∨ ∃ v, ⟨f, v⟩ ∈ done ∧ r ∈ v.collectDeletedRows
  blob : ∀ f rows, acc.2.lookup f = some rows → ∀ r, r ∈ rows ↔ Deleted acc.1 f r
  written : ∀ new ∈ done, ∃ rows, acc.2.lookup new.1 = some rows

theorem syncDeletionVector_ensures {files : AssocMap FileId (DataFileEntry Row)}
    {done : List (Sigma fun _ : FileId => BatchDeletionVector)}
    {acc : AssocMap FileId (DataFileEntry Row) × AssocMap FileId (List Nat)}
    (h : BlobsWritten files done acc) (new : Sigma fun _ : FileId => BatchDeletionVector) :
    Ensures (syncDeletionVector acc new) (BlobsWritten files (done ++ [new])) := by
  obtain ⟨g, vector⟩ := new
  unfold syncDeletionVector
  cases hlook : acc.1.lookup g with
  | none => exact .error
  | some entry =>
    refine .bind (BatchDeletionVector.mergeWith_ensures entry.deletionVector vector) ?_
    rintro merged ⟨-, hmerged⟩
    refine .bind_any fun _ => .pure ?_
    have hdeleted : ∀ f r, Deleted (acc.1.insert g { entry with deletionVector := merged }) f r ↔
        Deleted acc.1 f r ∨ f = g ∧ r ∈ vector.collectDeletedRows := by
      intro f r
      unfold Deleted
      simp only [AssocMap.lookup_insert_ite]
      by_cases hf : f = g
      · subst hf
        simp [hlook, hmerged]
      · simp [hf]
    refine ⟨?_, ?_, ?_, ?_⟩
    · intro f
      rw [AList.mem_insert, h.mem]
      refine or_iff_right_of_imp ?_
      rintro rfl
      exact (h.mem f).mp (AList.lookup_isSome.mp (by rw [hlook]; rfl))
    · intro f r
      rw [hdeleted, h.deleted, or_assoc]
      refine or_congr_right ⟨?_, ?_⟩
      · rintro (⟨v, hv, hr⟩ | ⟨rfl, hr⟩)
        · exact ⟨v, List.mem_append_left _ hv, hr⟩
        · exact ⟨vector, by simp, hr⟩
      · rintro ⟨v, hv, hr⟩
        rcases List.mem_append.mp hv with hold | hnew
        · exact .inl ⟨v, hold, hr⟩
        · cases List.mem_singleton.mp hnew
          exact .inr ⟨rfl, hr⟩
    · intro f rows hrows r
      rw [AssocMap.lookup_insert_ite] at hrows
      rw [hdeleted]
      split at hrows
      · rename_i hf
        subst hf
        cases hrows
        simp [Deleted, hlook, hmerged]
      · rename_i hf
        rw [h.blob f rows hrows]
        simp [hf]
    · intro new hnew
      simp only [AssocMap.lookup_insert_ite]
      split
      · exact ⟨_, rfl⟩
      · rename_i hne
        rcases List.mem_append.mp hnew with hold | hlast
        · exact h.written new hold
        · rw [List.mem_singleton.mp hlast] at hne
          exact absurd rfl hne

/-! ## Persistence -/

/-- What the persistence of a payload does. -/
structure Synced (m : IcebergTableManager Row) (payload : PersistenceSnapshotPayload Row)
    (res : PersistedRecords × IcebergTableManager Row) : Prop where
  mem : ∀ f ∈ res.2.persistedDataFiles,
    f ∈ m.persistedDataFiles ∨ f ∈ payload.dataFilesToImport.map (·.fileId)
  deleted : ∀ f r, Deleted res.2.persistedDataFiles f r ↔
    Deleted m.persistedDataFiles f r ∧ f ∉ payload.compactedDataFilesToRemove ∨
      (f, r) ∈ payload.committedDeletionLogs
  blob : ∀ f rows, res.1.puffinBlobRef.lookup f = some rows →
    ∀ r, r ∈ rows ↔ Deleted res.2.persistedDataFiles f r
  logged : ∀ f r, (f, r) ∈ payload.committedDeletionLogs →
    ∃ rows, res.1.puffinBlobRef.lookup f = some rows
  committedDeletionLogs : res.1.committedDeletionLogs = payload.committedDeletionLogs
  mergedFileIndicesAdded : res.1.mergedFileIndicesAdded = payload.mergedFileIndicesToAdd
  mergedFileIndicesRemoved : res.1.mergedFileIndicesRemoved = payload.mergedFileIndicesToRemove
  compactedDataFilesAdded :
    res.1.compactedDataFilesAdded = payload.compactedDataFilesToAdd.map (·.fileId)
  compactedDataFilesRemoved : res.1.compactedDataFilesRemoved = payload.compactedDataFilesToRemove

theorem syncSnapshot_ensures (m : IcebergTableManager Row) (payload : PersistenceSnapshotPayload Row)
    (hvectors : payload.VectorsMatch)
    (hremap : ∀ f r, Deleted m.persistedDataFiles f r →
      RecordLocation.diskFile f r ∉ payload.dataFileRecordsRemap) :
    Ensures (m.syncSnapshot payload) (Synced m payload) := by
  refine .bind_any fun _ => .bind_any fun _ => ?_
  refine .bind (syncDataFiles_ensures _ _ _ _ hremap) ?_
  rintro ⟨files, remapped⟩ ⟨hnone, hmem, hdeleted⟩
  simp only at hnone hmem hdeleted ⊢
  subst hnone
  -- No deletion was moved, so the vectors are those of the payload.
  refine .bind (P := (· = payload.newDeletionVector)) (.ok rfl) ?_
  rintro vectors rfl
  refine .bind (P := BlobsWritten files payload.newDeletionVector.entries) ?_ ?_
  · refine .foldlM (I := BlobsWritten files) ⟨by simp, by simp, by simp, by simp⟩ ?_
    intro done new rest acc _ hdone
    exact syncDeletionVector_ensures hdone new
  · rintro ⟨files', puffinBlobRef⟩ hblobs
    have hlogs : ∀ f r, (∃ v, ⟨f, v⟩ ∈ payload.newDeletionVector.entries ∧
        r ∈ v.collectDeletedRows) ↔ (f, r) ∈ payload.committedDeletionLogs := by
      intro f r
      simp only [← hvectors f r, AssocMap.lookup_eq_some_iff]
    refine .bind_any fun _ => .pure ⟨?_, ?_, hblobs.blob, ?_, rfl, rfl, rfl, rfl, rfl⟩
    · intro f hf
      exact hmem f ((hblobs.mem f).mp hf)
    · intro f r
      rw [hblobs.deleted, hdeleted, hlogs]
    · intro f r hlog
      obtain ⟨v, hv, -⟩ := (hlogs f r).mpr hlog
      exact hblobs.written ⟨f, v⟩ hv

end IcebergTableManager
end Moonlink.Storage
