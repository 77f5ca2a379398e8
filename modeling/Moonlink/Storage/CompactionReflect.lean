-- SUMMARY: How a compaction result is taken over by a snapshot: files are replaced, and deletions move in the vectors and in the logs alike.
import Moonlink.Storage.CompactionSpec
import Moonlink.Storage.DeletionLog

namespace Moonlink.Storage

open Lib

variable {Row Ident : Type}

/-- The map sends a row of an old file to a row of a new one. -/
def RemapsTo (remap : DataFileRemap) (oldFile oldRow newFile newRow : Nat) : Prop :=
  ∃ location, remap.lookup (.diskFile oldFile oldRow) = some location ∧
    location.newDataFile = newFile ∧ location.recordLocation.getRowIdx = newRow

theorem RemapsTo.mono {remap remap' : DataFileRemap}
    (h : ∀ location new, remap.lookup location = some new → remap'.lookup location = some new)
    {f₀ r₀ f r : Nat} (hto : RemapsTo remap f₀ r₀ f r) : RemapsTo remap' f₀ r₀ f r := by
  obtain ⟨location, hloc, htarget⟩ := hto
  exact ⟨location, h _ _ hloc, htarget⟩

/-- The result is one for a compaction of files of the snapshot. -/
structure ResultFits (R : DeletionRecords Row) (result : DataCompactionResult Row FileIndex) : Prop where
  old : ∀ f ∈ result.oldDataFiles, f ∈ R.files
  fresh : ∀ f ∈ result.newDataFiles.map (·.1.fileId), f ∉ R.files
  source : ∀ location ∈ result.remappedDataFiles, ∃ f ∈ result.oldDataFiles, ∃ r,
    location = .diskFile f r
  target : ∀ location new, result.remappedDataFiles.lookup location = some new →
    new.newDataFile ∈ result.newDataFiles.map (·.1.fileId) ∧
      new.recordLocation = .diskFile new.newDataFile new.recordLocation.getRowIdx
  /-- Deletions that the compaction does not know are in the log. -/
  logged : ∀ f r, RecordLocation.diskFile f r ∈ result.remappedDataFiles → R.files.Deleted f r →
    Logged R.log f r

namespace DiskFiles

theorem deleted_erase {files : DiskFiles Row} {fileId f : FileId} {r : Nat} :
    Deleted (files.erase fileId) f r ↔ f ≠ fileId ∧ files.Deleted f r := by
  unfold Deleted
  rw [AssocMap.lookup_erase_ite]
  by_cases hf : f = fileId <;> simp [hf]

theorem inBlob_erase {files : DiskFiles Row} {fileId f : FileId} {r : Nat} :
    InBlob (files.erase fileId) f r ↔ f ≠ fileId ∧ files.InBlob f r := by
  unfold InBlob
  rw [AssocMap.lookup_erase_ite]
  by_cases hf : f = fileId <;> simp [hf]

end DiskFiles

namespace SnapshotTableState

/-! ## Files -/

/-- The files after the old files `done` are dropped. -/
structure FilesReplaced (result : DataCompactionResult Row FileIndex) (done : List FileId)
    (files files' : DiskFiles Row) : Prop where
  mem : ∀ f, f ∈ files' ↔ f ∈ files ∧ f ∉ done ∨ f ∈ result.newDataFiles.map (·.1.fileId)
  deleted : ∀ f r, files'.Deleted f r ↔ files.Deleted f r ∧ f ∉ done ∨
    ∃ f₀ ∈ done, ∃ r₀, files.Deleted f₀ r₀ ∧ RemapsTo result.remappedDataFiles f₀ r₀ f r
  inBlob : ∀ f r, files'.InBlob f r ↔ files.InBlob f r ∧ f ∉ done

theorem remapDeletedRow_ensures (remap : DataFileRemap) (fileId : FileId) (rows : List Nat)
    (files : DiskFiles Row) :
    Ensures (rows.foldlM (remapDeletedRow remap fileId) files) fun files' =>
      (∀ f, f ∈ files' ↔ f ∈ files) ∧
      (∀ f r, DiskFiles.Deleted files' f r ↔
        files.Deleted f r ∨ ∃ r₀ ∈ rows, RemapsTo remap fileId r₀ f r) ∧
      ∀ f r, DiskFiles.InBlob files' f r ↔ files.InBlob f r := by
  refine .foldlM (I := fun done files' => (∀ f, f ∈ files' ↔ f ∈ files) ∧
    (∀ f r, DiskFiles.Deleted files' f r ↔
      files.Deleted f r ∨ ∃ r₀ ∈ done, RemapsTo remap fileId r₀ f r) ∧
    ∀ f r, DiskFiles.InBlob files' f r ↔ files.InBlob f r) ⟨by simp, by simp, by simp⟩ ?_
  rintro done row rest files₁ - ⟨hmem, hdeleted, hblob⟩
  unfold remapDeletedRow
  cases hlook : remap.lookup (.diskFile fileId row) with
  | none =>
    refine .ok ⟨hmem, fun f r => ?_, hblob⟩
    rw [hdeleted]
    simp [or_and_right, exists_or, RemapsTo, hlook]
  | some location =>
    refine (DiskFiles.deleteRow_ensures files₁ _ _).mono fun files₂ hrow => ?_
    refine ⟨fun f => (hrow.mem f).trans (hmem f), fun f r => ?_,
      fun f r => (hrow.inBlob f r).trans (hblob f r)⟩
    rw [hrow.deleted, hdeleted, or_assoc]
    refine or_congr_right ?_
    simp [or_and_right, exists_or, RemapsTo, hlook, eq_comm]

variable {result : DataCompactionResult Row FileIndex}

theorem removeCompactedFile_ensures {R : DeletionRecords Row}
    (hfits : ResultFits R result) {done : List FileId}
    {files' : DiskFiles Row} (h : FilesReplaced result done R.files files') {fileId : FileId}
    (hold : fileId ∈ result.oldDataFiles) :
    Ensures (removeCompactedFile result.remappedDataFiles files' fileId)
      (FilesReplaced result (done ++ [fileId]) R.files) := by
  have hnew : fileId ∉ result.newDataFiles.map (·.1.fileId) :=
    fun hmem => hfits.fresh fileId hmem (hfits.old fileId hold)
  unfold removeCompactedFile
  cases hlook : files'.lookup fileId with
  | none => exact .error
  | some entry =>
    have hmem : fileId ∈ R.files ∧ fileId ∉ done :=
      ((h.mem fileId).mp (DiskFiles.mem_iff.mpr ⟨entry, hlook⟩)).resolve_right hnew
    -- The rows of the entry are those deleted before.
    have hrows : ∀ r, r ∈ entry.committedDeletionVector.collectDeletedRows ↔
        R.files.Deleted fileId r := by
      intro r
      have hdel : files'.Deleted fileId r ↔
          r ∈ entry.committedDeletionVector.collectDeletedRows := by
        simp [DiskFiles.Deleted, hlook]
      rw [← hdel, h.deleted]
      constructor
      · rintro (⟨hr, -⟩ | ⟨f₀, -, r₀, -, location, hloc, htarget, -⟩)
        · exact hr
        · exact absurd (htarget ▸ (hfits.target _ _ hloc).1) hnew
      · exact fun hr => .inl ⟨hr, hmem.2⟩
    have hresult : ∀ files'' : DiskFiles Row,
        (∀ f, f ∈ files'' ↔ f ∈ files'.erase fileId) →
        (∀ f r, files''.Deleted f r ↔ DiskFiles.Deleted (files'.erase fileId) f r ∨
          ∃ r₀ ∈ entry.committedDeletionVector.collectDeletedRows,
            RemapsTo result.remappedDataFiles fileId r₀ f r) →
        (∀ f r, files''.InBlob f r ↔ DiskFiles.InBlob (files'.erase fileId) f r) →
        FilesReplaced result (done ++ [fileId]) R.files files'' := by
      intro files'' hmem'' hdeleted'' hblob''
      refine ⟨fun f => ?_, fun f r => ?_, fun f r => ?_⟩
      · rw [hmem'', AList.mem_erase, h.mem, List.mem_append, List.mem_singleton]
        constructor
        · rintro ⟨hne, ⟨hf, hdone⟩ | hf⟩
          · exact .inl ⟨hf, by tauto⟩
          · exact .inr hf
        · rintro (⟨hf, hdone⟩ | hf)
          · exact ⟨by tauto, .inl ⟨hf, by tauto⟩⟩
          · exact ⟨fun heq => hnew (heq ▸ hf), .inr hf⟩
      · rw [hdeleted'', DiskFiles.deleted_erase, h.deleted]
        simp only [hrows, List.mem_append, List.mem_singleton]
        constructor
        · rintro (⟨hne, ⟨hdel, hdone⟩ | ⟨f₀, hf₀, r₀, hdel, hto⟩⟩ | ⟨r₀, hdel, hto⟩)
          · exact .inl ⟨hdel, by tauto⟩
          · exact .inr ⟨f₀, .inl hf₀, r₀, hdel, hto⟩
          · exact .inr ⟨fileId, .inr rfl, r₀, hdel, hto⟩
        · rintro (⟨hdel, hdone⟩ | ⟨f₀, hf₀ | rfl, r₀, hdel, hto⟩)
          · exact .inl ⟨by tauto, .inl ⟨hdel, by tauto⟩⟩
          · refine .inl ⟨?_, .inr ⟨f₀, hf₀, r₀, hdel, hto⟩⟩
            rintro rfl
            obtain ⟨location, hloc, htarget, -⟩ := hto
            exact hnew (htarget ▸ (hfits.target _ _ hloc).1)
          · exact .inr ⟨r₀, hdel, hto⟩
      · rw [hblob'', DiskFiles.inBlob_erase, h.inBlob, List.mem_append, List.mem_singleton]
        tauto
    simp only
    split
    · rename_i hempty
      refine .bind_any fun _ => .pure (hresult _ (fun _ => Iff.rfl) (fun f r => ?_) fun _ _ => Iff.rfl)
      have hnone : entry.committedDeletionVector.collectDeletedRows = [] := by
        refine List.eq_nil_iff_forall_not_mem.mpr fun r hr => ?_
        have hlt : r < entry.committedDeletionVector.maxRows :=
          (BatchDeletionVector.mem_collectDeletedRows.mp hr).1
        have hactive := BatchDeletionVector.isDeleted_of_isEmpty hempty hlt
        rw [BatchDeletionVector.isDeleted_of_mem hr] at hactive
        cases hactive
      simp [hnone]
    · refine (remapDeletedRow_ensures result.remappedDataFiles fileId _ _).mono ?_
      rintro files'' ⟨hmem'', hdeleted'', hblob''⟩
      exact hresult files'' hmem'' hdeleted'' hblob''

/-- New files are added without deletions. -/
theorem foldl_insert_compacted (files : DiskFiles Row)
    {entry : CompactedDataFile Row × CompactedDataEntry → DiskFileEntry Row}
    (hvector : ∀ new, (entry new).committedDeletionVector = .new new.2.numRows)
    (hblob : ∀ new, (entry new).puffinDeletionBlob = none)
    (hfresh : ∀ f ∈ result.newDataFiles.map (·.1.fileId), f ∉ files) :
    FilesReplaced result [] files
      (result.newDataFiles.foldl (fun files new => files.insert new.1.fileId (entry new)) files) := by
  suffices h : ∀ new : List (CompactedDataFile Row × CompactedDataEntry), ∀ m : DiskFiles Row,
      (∀ f ∈ new.map (·.1.fileId), ∀ r, ¬ m.Deleted f r ∧ ¬ m.InBlob f r) →
      ∀ m', m' = new.foldl (fun files new => files.insert new.1.fileId (entry new)) m →
      (∀ f, f ∈ m' ↔ f ∈ m ∨ f ∈ new.map (·.1.fileId)) ∧
      (∀ f r, DiskFiles.Deleted m' f r ↔ m.Deleted f r) ∧
      ∀ f r, DiskFiles.InBlob m' f r ↔ m.InBlob f r by
    obtain ⟨hmem, hdeleted, hblob⟩ := h result.newDataFiles files
      (fun f hf r => ⟨fun hdel => hfresh f hf hdel.mem, fun hblob => hfresh f hf hblob.mem⟩) _ rfl
    exact ⟨by simpa using hmem, by simpa using hdeleted, by simpa using hblob⟩
  intro new
  induction new with
  | nil => rintro m - _ rfl; simp
  | cons new rest ih =>
    rintro m hempty _ rfl
    rw [List.foldl_cons]
    have hdeleted : ∀ f r, DiskFiles.Deleted (m.insert new.1.fileId (entry new)) f r ↔
        m.Deleted f r := by
      intro f r
      rw [DiskFiles.deleted_insert, hvector, BatchDeletionVector.collectDeletedRows_new]
      by_cases hf : f = new.1.fileId
      · simp [hf, (hempty new.1.fileId (by simp) r).1]
      · simp [hf]
    have hinBlob : ∀ f r, DiskFiles.InBlob (m.insert new.1.fileId (entry new)) f r ↔ m.InBlob f r := by
      intro f r
      rw [DiskFiles.inBlob_insert, hblob]
      by_cases hf : f = new.1.fileId
      · simp [hf, (hempty new.1.fileId (by simp) r).2]
      · simp [hf]
    obtain ⟨hmem', hdeleted', hblob'⟩ := ih _ (by
      intro f hf r
      rw [hdeleted, hinBlob]
      exact hempty f (List.mem_cons_of_mem _ hf) r) _ rfl
    refine ⟨fun f => ?_, fun f r => (hdeleted' f r).trans (hdeleted f r),
      fun f r => (hblob' f r).trans (hinBlob f r)⟩
    rw [hmem', AList.mem_insert, List.map_cons, List.mem_cons]
    tauto

theorem updateDataFilesToMooncakeSnapshot_ensures (s : SnapshotTableState Row Ident)
    (result : DataCompactionResult Row FileIndex) (hfits : ResultFits s.records result) :
    Ensures (s.updateDataFilesToMooncakeSnapshot result) fun s' =>
      FilesReplaced result result.oldDataFiles s.diskFiles s'.diskFiles ∧
        s' = { s with diskFiles := s'.diskFiles } := by
  unfold updateDataFilesToMooncakeSnapshot
  split
  · rename_i hempty
    intro s' hok
    obtain ⟨_, hassert, hok⟩ := bind_eq_ok.mp hok
    cases hok
    have hnew := StoragePanic.of_assert hassert
    rw [Bool.and_eq_true, List.isEmpty_iff] at hnew
    rw [List.isEmpty_iff] at hempty
    exact ⟨by rw [hempty]; exact ⟨by simp [hnew.1], by simp, by simp⟩, rfl⟩
  · refine .bind_any fun _ => .bind (P := FilesReplaced result result.oldDataFiles s.diskFiles) ?_
      fun files hfiles => .pure ⟨hfiles, rfl⟩
    refine .foldlM (I := fun done => FilesReplaced result done s.diskFiles)
      (foldl_insert_compacted s.diskFiles (fun _ => rfl) (fun _ => rfl) hfits.fresh) ?_
    intro done fileId rest files' heq hdone
    exact removeCompactedFile_ensures hfits hdone (by rw [heq]; simp)

/-! ## Logs -/

theorem lookup_remapUncommittedDeletionLogs (remap : DataFileRemap)
    (log : List ProcessedDeletionRecord) (location : RecordLocation) (new : RemappedRecordLocation)
    (h : (remapUncommittedDeletionLogs remap log).2.lookup location = some new) :
    remap.lookup location = some new := by
  induction log generalizing remap with
  | nil => exact h
  | cons deletion rest ih =>
    unfold remapUncommittedDeletionLogs remapRecordLocationAfterCompaction at h
    cases hlook : remap.lookup deletion.pos with
    | none =>
      rw [hlook] at h
      exact ih remap h
    | some target =>
      rw [hlook] at h
      have herase := ih (remap.erase deletion.pos) h
      rw [AssocMap.lookup_erase_ite] at herase
      split at herase
      · cases herase
      · exact herase

/-- The deletions of old files are moved, each by an entry of the map that is used up. -/
structure LogRemapped (old : List FileId) (remap : DataFileRemap) (log : List ProcessedDeletionRecord)
    (res : List ProcessedDeletionRecord × DataFileRemap) : Prop where
  logged : ∀ f r, Logged res.1 f r ↔ Logged log f r ∧ f ∉ old ∨
    ∃ f₀ ∈ old, ∃ r₀, Logged log f₀ r₀ ∧ RemapsTo remap f₀ r₀ f r
  found : ∀ f ∈ old, ∀ r, Logged log f r → RecordLocation.diskFile f r ∈ remap
  left : ∀ location new, res.2.lookup location = some new → remap.lookup location = some new ∧
    ∀ f ∈ old, ∀ r, location = .diskFile f r → ¬ Logged log f r

theorem logged_cons {deletion : ProcessedDeletionRecord} {log : List ProcessedDeletionRecord} {f r : Nat} :
    Logged (deletion :: log) f r ↔ deletion.pos = .diskFile f r ∨ Logged log f r := by
  simp [Logged]

theorem fileIdOf_any_iff {deletion : ProcessedDeletionRecord} {old : List FileId} :
    (fileIdOf deletion).any (old.contains ·) = true ↔ ∃ f ∈ old, ∃ r, deletion.pos = .diskFile f r := by
  unfold fileIdOf
  cases deletion.pos with
  | memoryBatch batchId rowIdx => simp
  | diskFile fileId rowIdx => simp

theorem remapCommittedDeletionLogs_ensures (old : List FileId) (remap : DataFileRemap)
    (log : List ProcessedDeletionRecord)
    (hshape : ∀ location new, remap.lookup location = some new →
      new.recordLocation = .diskFile new.newDataFile new.recordLocation.getRowIdx) :
    Ensures (remapCommittedDeletionLogs old remap log) (LogRemapped old remap log) := by
  induction log generalizing remap with
  | nil =>
    refine .ok ⟨by simp [Logged], by simp [Logged], ?_⟩
    intro location new h
    exact ⟨h, by simp [Logged]⟩
  | cons deletion rest ih =>
    unfold remapCommittedDeletionLogs
    split
    · -- A deletion of an old file, which uses up its entry.
      rename_i hany
      obtain ⟨f₁, hf₁, r₁, hpos⟩ := fileIdOf_any_iff.mp hany
      unfold remapRecordLocationAfterCompaction
      cases hlook : remap.lookup deletion.pos with
      | none => exact .error
      | some target =>
        refine .bind (ih (remap.erase deletion.pos) ?_) ?_
        · intro location new h
          rw [AssocMap.lookup_erase_ite] at h
          split at h
          · cases h
          · exact hshape location new h
        · rintro ⟨rest', remap'⟩ hrest
          have hshape₁ := hshape _ _ hlook
          rw [hpos] at hlook hrest
          -- The rest has no second deletion of the row.
          have honce : ¬ Logged rest f₁ r₁ := by
            intro hlog
            have hmem := hrest.found f₁ hf₁ r₁ hlog
            exact (AList.mem_erase.mp hmem).1 rfl
          have herase : ∀ f₀ r₀ f r, Logged rest f₀ r₀ →
              (RemapsTo (remap.erase (.diskFile f₁ r₁)) f₀ r₀ f r ↔ RemapsTo remap f₀ r₀ f r) := by
            intro f₀ r₀ f r hlog
            have hne : RecordLocation.diskFile f₀ r₀ ≠ .diskFile f₁ r₁ := by
              intro heq
              cases heq
              exact honce hlog
            unfold RemapsTo
            rw [AssocMap.lookup_erase_ite, if_neg hne]
          refine .pure ⟨?_, ?_, ?_⟩
          · intro f r
            have hhead : target.recordLocation = .diskFile f r ↔ RemapsTo remap f₁ r₁ f r := by
              unfold RemapsTo
              rw [hlook, hshape₁]
              simp [RecordLocation.getRowIdx]
            simp only [logged_cons, hrest.logged, hhead, hpos, RecordLocation.diskFile.injEq]
            constructor
            · rintro (hto | ⟨hlog, hf⟩ | ⟨f₀, hf₀, r₀, hlog, hto⟩)
              · exact .inr ⟨f₁, hf₁, r₁, .inl ⟨rfl, rfl⟩, hto⟩
              · exact .inl ⟨.inr hlog, hf⟩
              · exact .inr ⟨f₀, hf₀, r₀, .inr hlog, (herase f₀ r₀ f r hlog).mp hto⟩
            · rintro (⟨⟨rfl, rfl⟩ | hlog, hf⟩ | ⟨f₀, hf₀, r₀, ⟨rfl, rfl⟩ | hlog, hto⟩)
              · exact absurd hf₁ hf
              · exact .inr (.inl ⟨hlog, hf⟩)
              · exact .inl hto
              · exact .inr (.inr ⟨f₀, hf₀, r₀, hlog, (herase f₀ r₀ f r hlog).mpr hto⟩)
          · intro f hf r hlog
            rcases logged_cons.mp hlog with heq | hlog
            · rw [hpos] at heq
              rw [← heq]
              exact AList.lookup_isSome.mp (by rw [hlook]; rfl)
            · exact (AList.mem_erase.mp (hrest.found f hf r hlog)).2
          · intro location new h
            obtain ⟨hlookup, hnot⟩ := hrest.left location new h
            rw [AssocMap.lookup_erase_ite] at hlookup
            split at hlookup
            · cases hlookup
            · rename_i hne
              refine ⟨hlookup, ?_⟩
              rintro f hf r rfl hlog
              rcases logged_cons.mp hlog with heq | hlog
              · exact hne (heq.symm.trans hpos)
              · exact hnot f hf r rfl hlog
    · rename_i hany
      have hpos : ∀ f ∈ old, ∀ r, deletion.pos ≠ .diskFile f r :=
        fun f hf r heq => hany (fileIdOf_any_iff.mpr ⟨f, hf, r, heq⟩)
      refine .bind (ih remap hshape) ?_
      rintro ⟨rest', remap'⟩ hrest
      refine .pure ⟨?_, ?_, ?_⟩
      · intro f r
        simp only [logged_cons, hrest.logged]
        constructor
        · rintro (heq | ⟨hlog, hf⟩ | ⟨f₀, hf₀, r₀, hlog, hto⟩)
          · exact .inl ⟨.inl heq, fun hf => hpos f hf r heq⟩
          · exact .inl ⟨.inr hlog, hf⟩
          · exact .inr ⟨f₀, hf₀, r₀, .inr hlog, hto⟩
        · rintro (⟨heq | hlog, hf⟩ | ⟨f₀, hf₀, r₀, heq | hlog, hto⟩)
          · exact .inl heq
          · exact .inr (.inl ⟨hlog, hf⟩)
          · exact absurd heq (hpos f₀ hf₀ r₀)
          · exact .inr (.inr ⟨f₀, hf₀, r₀, hlog, hto⟩)
      · intro f hf r hlog
        rcases logged_cons.mp hlog with heq | hlog
        · exact absurd heq (hpos f hf r)
        · exact hrest.found f hf r hlog
      · intro location new h
        obtain ⟨hlookup, hnot⟩ := hrest.left location new h
        refine ⟨hlookup, ?_⟩
        rintro f hf r rfl hlog
        rcases logged_cons.mp hlog with heq | hlog
        · exact hpos f hf r heq
        · exact hnot f hf r rfl hlog

/-! ## Files and logs together -/

/-- The snapshot after it took over the result, of whose map `remap` is left. -/
structure TakenOver (result : DataCompactionResult Row FileIndex) (s s' : SnapshotTableState Row Ident)
    (remap : DataFileRemap) : Prop where
  represented : s'.records.Represented
  mem : ∀ f, f ∈ s'.diskFiles ↔
    f ∈ s.diskFiles ∧ f ∉ result.oldDataFiles ∨ f ∈ result.newDataFiles.map (·.1.fileId)
  deleted : ∀ f ∈ s.diskFiles, f ∉ result.oldDataFiles → ∀ r,
    s'.diskFiles.Deleted f r ↔ s.diskFiles.Deleted f r
  inBlob : ∀ f r, s'.diskFiles.InBlob f r ↔ s.diskFiles.InBlob f r ∧ f ∉ result.oldDataFiles
  left : ∀ location ∈ remap, ∃ f ∈ result.oldDataFiles, ∃ r, location = .diskFile f r ∧
    ¬ s.diskFiles.Deleted f r
  unpersistedRecords : s'.unpersistedRecords = s.unpersistedRecords
  compactingDataFiles : s'.compactingDataFiles = s.compactingDataFiles

/-- Vectors and log agree on the new files. -/
theorem represented_takenOver {R R' : DeletionRecords Row}
    {remap left : DataFileRemap} (hfits : ResultFits R result) (hrep : R.Represented)
    (hfiles : FilesReplaced result result.oldDataFiles R.files R'.files)
    (hsub : ∀ location new, remap.lookup location = some new →
      result.remappedDataFiles.lookup location = some new)
    (hlog : LogRemapped result.oldDataFiles remap R.log (R'.log, left)) : R'.Represented := by
  intro f r
  rw [hfiles.deleted, hfiles.inBlob, hlog.logged]
  constructor
  · rintro (⟨hdel, hf⟩ | ⟨f₀, hf₀, r₀, hdel, hto⟩)
    · rcases (hrep f r).mp hdel with hblob | hlogged
      · exact .inl ⟨hblob, hf⟩
      · exact .inr (.inl ⟨hlogged, hf⟩)
    · -- The row was not known to be deleted, so its deletion is logged and moved.
      obtain ⟨location, hloc, htarget⟩ := hto
      have hmem : RecordLocation.diskFile f₀ r₀ ∈ result.remappedDataFiles :=
        AList.lookup_isSome.mp (by rw [hloc]; rfl)
      have hlogged := hfits.logged f₀ r₀ hmem hdel
      obtain ⟨location', hloc'⟩ := Option.isSome_iff_exists.mp
        (AList.lookup_isSome.mpr (hlog.found f₀ hf₀ r₀ hlogged))
      have heq := hsub _ _ hloc'
      rw [hloc] at heq
      cases heq
      exact .inr (.inr ⟨f₀, hf₀, r₀, hlogged, location, hloc', htarget⟩)
  · rintro (⟨hblob, hf⟩ | ⟨hlogged, hf⟩ | ⟨f₀, hf₀, r₀, hlogged, hto⟩)
    · exact .inl ⟨(hrep f r).mpr (.inl hblob), hf⟩
    · exact .inl ⟨(hrep f r).mpr (.inr hlogged), hf⟩
    · exact .inr ⟨f₀, hf₀, r₀, (hrep f₀ r₀).mpr (.inr hlogged), hto.mono hsub⟩

theorem updateFileIndicesToMooncakeSnapshot_ensures (s : SnapshotTableState Row Ident)
    (oldFileIndices newFileIndices : List FileIndex) :
    Ensures (s.updateFileIndicesToMooncakeSnapshot oldFileIndices newFileIndices) fun s' =>
      s' = { s with indices := s'.indices } := by
  unfold updateFileIndicesToMooncakeSnapshot
  split
  · exact .bind_any fun _ => .pure rfl
  · exact .bind_any fun _ => .pure rfl

theorem takeOver_ensures (s : SnapshotTableState Row Ident)
    (result : DataCompactionResult Row FileIndex) (hfits : ResultFits s.records result)
    (hrep : s.records.Represented) :
    Ensures (do
        let s ← s.updateDataCompactionToMooncakeSnapshot (some result)
        s.remapDeletionLogsAfterCompaction (some result))
      fun res => ∃ remap, res.2 = some { result with remappedDataFiles := remap } ∧
        TakenOver result s res.1 remap := by
  refine .bind (P := fun s₁ : SnapshotTableState Row Ident =>
    FilesReplaced result result.oldDataFiles s.diskFiles s₁.diskFiles ∧
      s₁ = { s with diskFiles := s₁.diskFiles, indices := s₁.indices }) ?_ ?_
  · refine .bind (s.updateDataFilesToMooncakeSnapshot_ensures result hfits) ?_
    rintro s₁ ⟨hfiles, hs₁⟩
    refine (s₁.updateFileIndicesToMooncakeSnapshot_ensures _ _).mono fun s₂ hs₂ => ?_
    rw [hs₂]
    refine ⟨hfiles, ?_⟩
    rw [hs₁]
  · rintro s₁ ⟨hfiles, hs₁⟩
    have hsub := lookup_remapUncommittedDeletionLogs result.remappedDataFiles s₁.uncommittedDeletionLog
    refine .bind (remapCommittedDeletionLogs_ensures result.oldDataFiles _ s₁.committedDeletionLog
      fun location new h => (hfits.target location new (hsub location new h)).2) ?_
    rintro ⟨log, left⟩ hlog
    have hcommitted : s₁.committedDeletionLog = s.committedDeletionLog := by rw [hs₁]
    rw [hcommitted] at hlog
    refine .pure ⟨left, rfl, ?_⟩
    refine {
      represented := represented_takenOver hfits hrep hfiles hsub hlog
      mem := hfiles.mem
      deleted := ?_
      inBlob := hfiles.inBlob
      left := ?_
      unpersistedRecords := by rw [hs₁]
      compactingDataFiles := by rw [hs₁] }
    · intro f hf hold r
      rw [hfiles.deleted]
      constructor
      · rintro (⟨hdel, -⟩ | ⟨f₀, -, r₀, -, location, hloc, htarget, -⟩)
        · exact hdel
        · exact absurd hf (hfits.fresh f (htarget ▸ (hfits.target _ _ hloc).1))
      · exact fun hdel => .inl ⟨hdel, hold⟩
    · intro location hmem
      obtain ⟨new, hnew⟩ := Option.isSome_iff_exists.mp (AList.lookup_isSome.mpr hmem)
      obtain ⟨hlook, hnot⟩ := hlog.left location new hnew
      have hmem' : location ∈ result.remappedDataFiles :=
        AList.lookup_isSome.mp (by rw [hsub location new hlook]; rfl)
      obtain ⟨f, hf, r, rfl⟩ := hfits.source location hmem'
      exact ⟨f, hf, r, rfl, fun hdel => hnot f hf r rfl (hfits.logged f r hmem' hdel)⟩

end SnapshotTableState
end Moonlink.Storage
