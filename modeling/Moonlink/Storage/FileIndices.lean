-- SUMMARY: The data files and the file indices of a snapshot through the stages of `update_snapshot`, and the numbers of them that it expects.
import Mathlib.Algebra.Order.Group.Multiset
import Mathlib.Tactic.Abel
import Moonlink.Storage.TableIndices
import Moonlink.Storage.Outstanding

/-!
# The file indices of a snapshot

Every stage of `update_snapshot` replaces part of the data files and part of the indices.
As long as the parts fit, each file stays in one index. Results of background tasks were
computed from older snapshots; what they replace is still there, as the indices that are
not persisted and those under maintenance are different ones.
-/

namespace Moonlink.Storage

open Lib

variable {Row Ident : Type}

/-! ## Indices of different files -/

namespace FilesIndexed

variable {indices indices' : List FileIndex} {files files' : List FileId}

theorem congr_indices (h : FilesIndexed indices files) (hperm : indices.Perm indices') :
    FilesIndexed indices' files where
  perm := (hperm.symm.flatMap_right _).trans h.perm
  nonempty index hindex := h.nonempty index (hperm.mem_iff.mpr hindex)

/-- Different indices have different files. -/
theorem pairwise_disjoint (h : FilesIndexed indices files) (hnodup : files.Nodup) :
    indices.Pairwise fun i j => List.Disjoint i.files j.files :=
  (List.nodup_flatMap.mp (h.perm.nodup_iff.mpr hnodup)).2

theorem nodup (h : FilesIndexed indices files) (hnodup : files.Nodup) : indices.Nodup := by
  refine (h.pairwise_disjoint hnodup).imp_of_mem ?_
  rintro i _ hi - hdisjoint rfl
  obtain ⟨f, hf⟩ := List.exists_mem_of_ne_nil _ (h.nonempty i hi)
  exact hdisjoint hf hf

theorem index_eq (h : FilesIndexed indices files) (hnodup : files.Nodup) {i j : FileIndex} {f : FileId}
    (hi : i ∈ indices) (hj : j ∈ indices) (hfi : f ∈ i.files) (hfj : f ∈ j.files) : i = j := by
  have hsymm : Std.Symm fun i j : FileIndex => List.Disjoint i.files j.files :=
    ⟨fun _ _ hdisjoint _ hj hi => hdisjoint hi hj⟩
  by_contra hne
  exact (h.pairwise_disjoint hnodup).forall hi hj hne hfi hfj

theorem mem_iff (h : FilesIndexed indices files) {f : FileId} :
    f ∈ files ↔ ∃ index ∈ indices, f ∈ index.files := by
  rw [← h.perm.mem_iff, List.mem_flatMap]

/-- The indices without some of them. -/
theorem filter_perm (h : FilesIndexed indices files) (hnodup : files.Nodup) {old rest : List FileIndex}
    (hperm : indices.Perm (old ++ rest)) : (indices.filter fun i => !old.contains i).Perm rest := by
  have hall := hperm.nodup_iff.mp (h.nodup hnodup)
  obtain ⟨-, -, hdisjoint⟩ := List.nodup_append'.mp hall
  have hold : old.filter (fun i => !old.contains i) = [] := by
    rw [List.filter_eq_nil_iff]
    intro i hi
    simp [hi]
  have hrest : rest.filter (fun i => !old.contains i) = rest := by
    rw [List.filter_eq_self]
    intro i hi
    simpa using fun hmem => hdisjoint hmem hi
  refine (hperm.filter _).trans ?_
  rw [List.filter_append, hold, hrest, List.nil_append]

/-- Some indices are replaced by others for the same files. -/
theorem replace {old rest new : List FileIndex} (h : FilesIndexed (old ++ rest) files)
    (hnew : (new.flatMap (·.files)).Perm (old.flatMap (·.files)))
    (hnonempty : ∀ index ∈ new, index.files ≠ []) : FilesIndexed (rest ++ new) files where
  perm := by
    refine List.Perm.trans ?_ h.perm
    rw [List.flatMap_append, List.flatMap_append]
    exact (hnew.append_left _).trans List.perm_append_comm
  nonempty index hindex := (List.mem_append.mp hindex).elim
    (fun hrest => h.nonempty index (List.mem_append_right _ hrest)) (hnonempty index)

theorem flatMap {α : Type} {as : List α} {indices : α → List FileIndex} {files : α → List FileId}
    (h : ∀ a ∈ as, FilesIndexed (indices a) (files a)) :
    FilesIndexed (as.flatMap indices) (as.flatMap files) := by
  induction as with
  | nil => exact .nil
  | cons a as ih =>
    exact (h a List.mem_cons_self).append (ih fun a' ha' => h a' (List.mem_cons_of_mem _ ha'))

end FilesIndexed

/-! ## The files of a task -/

/-- The indices that an ended stream adds. -/
def TransactionStreamOutput.flushedFileIndices : TransactionStreamOutput Row Ident → List FileIndex
  | .commit c => c.flushedFileIndices
  | .abort _ => []

theorem SnapshotTask.getNewFileIndices_eq (task : SnapshotTask Row Ident) :
    task.getNewFileIndices = (task.newDiskSlices.flatMap fun slice => slice.newIndex.toList) ++
      task.newStreamingXact.flatMap TransactionStreamOutput.flushedFileIndices := by
  unfold getNewFileIndices
  congr 2

theorem MooncakeTable.Indexed.task {identity : IdentityProp Row Ident} {t : MooncakeTable Row Ident}
    (h : t.Indexed identity) :
    FilesIndexed t.nextSnapshotTask.getNewFileIndices t.nextSnapshotTask.newFileIds := by
  rw [SnapshotTask.getNewFileIndices_eq]
  refine FilesIndexed.append (.flatMap h.slices) (.flatMap fun output houtput => ?_)
  cases output with
  | commit commit => exact h.outputs _ houtput
  | abort xactId => exact .nil

/-! ## Stages -/

namespace SnapshotTableState

/-- The files are in the indices of the snapshot, each in one of them. -/
def Indexed (s : SnapshotTableState Row Ident) : Prop :=
  FilesIndexed s.indices.fileIndices s.diskFiles.keys

/-! ### Persistence results -/

variable {s : SnapshotTableState Row Ident}

/-- The persisted indices are the ones that they replace. -/
theorem Indexed.persisted_perm (h : s.Indexed)
    {new rest : List FileIndex} (hperm : s.indices.fileIndices.Perm (new ++ rest)) :
    ((s.indices.fileIndices.filter fun i =>
      i.files.all fun f => !(new.flatMap (·.files)).contains f) ++ new).Perm s.indices.fileIndices := by
  have hnodup := s.diskFiles.keys_nodup
  have hfilter : (s.indices.fileIndices.filter fun i =>
      i.files.all fun f => !(new.flatMap (·.files)).contains f) =
      s.indices.fileIndices.filter fun i => !new.contains i := by
    refine List.filter_congr fun i hi => ?_
    rw [Bool.eq_iff_iff]
    simp only [List.all_eq_true, Bool.not_eq_true', List.contains_eq_mem, decide_eq_false_iff_not]
    constructor
    · intro hall hmem
      obtain ⟨f, hf⟩ := List.exists_mem_of_ne_nil _ (h.nonempty i hi)
      exact hall f hf (List.mem_flatMap.mpr ⟨i, hmem, hf⟩)
    · intro hnot f hf hmem
      obtain ⟨j, hj, hfj⟩ := List.mem_flatMap.mp hmem
      have hj' := hperm.mem_iff.mpr (List.mem_append_left rest hj)
      exact hnot (h.index_eq hnodup hi hj' hf hfj ▸ hj)
  rw [hfilter]
  exact ((h.filter_perm hnodup hperm).append_right new).trans (List.perm_append_comm.trans hperm.symm)

/-- The check of the number of indices holds. -/
theorem Indexed.updateFileIndicesToPersisted (h : s.Indexed)
    {new rest : List FileIndex} (hperm : s.indices.fileIndices.Perm (new ++ rest)) :
    Returns (s.updateFileIndicesToPersisted new) fun s' =>
      s'.indices.fileIndices.Perm s.indices.fileIndices ∧ s'.diskFiles = s.diskFiles := by
  have hreplaced := h.persisted_perm hperm
  refine .bind (P := fun _ => True) ⟨(), ?_, trivial⟩ fun _ _ => .pure ⟨hreplaced, rfl⟩
  simp only [StoragePanic.assert, hreplaced.length_eq, decide_true, if_true]

/-- The indices that a result of persistence brings. -/
def persistedIndices (persisted : Option PersistedRecords) : List FileIndex :=
  (persisted.map fun p =>
    p.newFileIndices ++ p.mergedFileIndicesAdded ++ p.compactedFileIndicesAdded).getD []

variable {rest : List FileIndex}

theorem Indexed.updateSnapshotByIcebergSnapshot (h : s.Indexed)
    {persisted : Option PersistedRecords}
    (hperm : s.indices.fileIndices.Perm (persistedIndices persisted ++ rest)) :
    Ensures (s.updateSnapshotByIcebergSnapshot persisted) fun s' =>
      s'.indices.fileIndices.Perm s.indices.fileIndices ∧ s'.diskFiles.keys.Perm s.diskFiles.keys := by
  intro s' hok
  have hkeys := keys_perm_of_mem_iff
    (updateSnapshotByIcebergSnapshot_ensures s persisted s' hok).1.mem
  cases persisted with
  | none =>
    cases hok
    exact ⟨.refl _, hkeys⟩
  | some persisted =>
    obtain ⟨_, -, hok⟩ := bind_eq_ok.mp hok
    obtain ⟨s₁, hs₁, hok⟩ := bind_eq_ok.mp hok
    obtain ⟨s₁', hs₁', hindices, -⟩ := h.updateFileIndicesToPersisted hperm
    cases hs₁.symm.trans hs₁'
    cases hok
    exact ⟨hindices, hkeys⟩

/-! ### Maintenance results -/

theorem Indexed.updateFileIndicesToMooncakeSnapshot {files : List FileId}
    (h : FilesIndexed s.indices.fileIndices files) (hnodup : files.Nodup) {old new rest : List FileIndex}
    (hperm : s.indices.fileIndices.Perm (old ++ rest)) :
    Ensures (s.updateFileIndicesToMooncakeSnapshot old new) fun s' =>
      s'.indices.fileIndices.Perm (rest ++ new) ∧ s'.diskFiles = s.diskFiles ∧
        (old = [] → new = []) := by
  unfold SnapshotTableState.updateFileIndicesToMooncakeSnapshot
  split
  · rename_i hold
    intro s' hok
    obtain ⟨_, hassert, hok⟩ := bind_eq_ok.mp hok
    cases hok
    have hnew : new = [] := by simpa using StoragePanic.of_assert hassert
    rw [List.isEmpty_iff.mp hold, List.nil_append] at hperm
    rw [hnew, List.append_nil]
    exact ⟨hperm, rfl, fun _ => rfl⟩
  · rename_i hold
    refine .bind_any fun _ => .pure ⟨(h.filter_perm hnodup hperm).append_right new, rfl, fun hnil => ?_⟩
    exact absurd (List.isEmpty_iff.mpr hnil) hold

theorem mem_removeCompactedFile (remap : DataFileRemap) (files : DiskFiles Row) (fileId : FileId) :
    Ensures (removeCompactedFile remap files fileId) fun files' =>
      ∀ f, f ∈ files' ↔ f ∈ files ∧ f ≠ fileId := by
  unfold removeCompactedFile
  have herase : ∀ f, f ∈ files.erase fileId ↔ f ∈ files ∧ f ≠ fileId := fun f => by
    rw [AList.mem_erase, and_comm]
  split
  · exact .error
  · split
    · exact .bind_any fun _ => .pure herase
    · refine .foldlM (I := fun _ (files' : DiskFiles Row) => ∀ f, f ∈ files' ↔ f ∈ files ∧ f ≠ fileId)
        herase ?_
      intro _ rowIdx _ files' _ hfiles'
      unfold remapDeletedRow
      split
      · exact .ok hfiles'
      · exact (DiskFiles.deleteRow_ensures files' _ _).mono fun files'' hdeleted f =>
          (hdeleted.mem f).trans (hfiles' f)

theorem mem_updateDataFilesToMooncakeSnapshot (s : SnapshotTableState Row Ident)
    (result : DataCompactionResult Row FileIndex) :
    Ensures (s.updateDataFilesToMooncakeSnapshot result) fun s' => s'.indices = s.indices ∧
      ∀ f, f ∈ s'.diskFiles ↔
        (f ∈ s.diskFiles ∨ f ∈ result.newDataFiles.map (·.1.fileId)) ∧ f ∉ result.oldDataFiles := by
  unfold updateDataFilesToMooncakeSnapshot
  split
  · rename_i hold
    intro s' hok
    obtain ⟨_, hassert, hok⟩ := bind_eq_ok.mp hok
    cases hok
    have hnew : result.newDataFiles = [] := by
      have := StoragePanic.of_assert hassert
      simp only [Bool.and_eq_true, List.isEmpty_iff] at this
      exact this.1
    simp [hnew, List.isEmpty_iff.mp hold]
  · refine .bind_any fun _ => .bind (P := fun files' : DiskFiles Row => ∀ f, f ∈ files' ↔
      (f ∈ s.diskFiles ∨ f ∈ result.newDataFiles.map (·.1.fileId)) ∧ f ∉ result.oldDataFiles) ?_
      fun files' hfiles' => .pure ⟨rfl, hfiles'⟩
    have hinsert : ∀ (new : List (CompactedDataFile Row × CompactedDataEntry)) (files : DiskFiles Row) f,
        f ∈ new.foldl (fun files new => files.insert new.1.fileId
          ({ numRows := new.2.numRows
             data := new.1.batches.flatten
             committedDeletionVector := .new new.2.numRows
             puffinDeletionBlob := none } : DiskFileEntry Row)) files ↔
          f ∈ files ∨ f ∈ new.map (·.1.fileId) := by
      intro new
      induction new with
      | nil => simp
      | cons file rest ih =>
        intro files f
        rw [List.foldl_cons, ih, AList.mem_insert, List.map_cons, List.mem_cons, or_comm (a := f = _),
          or_assoc]
    refine .foldlM (I := fun done (files' : DiskFiles Row) => ∀ f, f ∈ files' ↔
      (f ∈ s.diskFiles ∨ f ∈ result.newDataFiles.map (·.1.fileId)) ∧ f ∉ done) ?_ ?_
    · intro f
      rw [hinsert]
      simp
    · intro done fileId _ files' _ hfiles'
      refine (mem_removeCompactedFile result.remappedDataFiles files' fileId).mono
        fun files'' hfiles'' f => ?_
      rw [hfiles'', hfiles', List.mem_append, List.mem_singleton, not_or, and_assoc]

/-- The result of a compaction has the indices of its old and of its new files. -/
structure ResultIndexed (result : DataCompactionResult Row FileIndex) : Prop where
  old : FilesIndexed result.oldFileIndices result.oldDataFiles
  new : FilesIndexed result.newFileIndices (result.newDataFiles.map (·.1.fileId))

/-- The files after a compaction, where `rest` are the indices that it leaves. -/
theorem keys_compacted (h : s.Indexed)
    {result : DataCompactionResult Row FileIndex} (hresult : ResultIndexed result)
    (hperm : s.indices.fileIndices.Perm (result.oldFileIndices ++ rest)) :
    s.diskFiles.keys.Perm (result.oldDataFiles ++ rest.flatMap (·.files)) := by
  refine h.perm.symm.trans ((hperm.flatMap_right _).trans ?_)
  rw [List.flatMap_append]
  exact hresult.old.perm.append_right _

theorem Indexed.updateDataCompaction (h : s.Indexed)
    {result : DataCompactionResult Row FileIndex} (hresult : ResultIndexed result)
    (hnodup : (result.newDataFiles.map (·.1.fileId)).Nodup)
    (hfresh : ∀ f ∈ result.newDataFiles.map (·.1.fileId), f ∉ s.diskFiles)
    (hperm : s.indices.fileIndices.Perm (result.oldFileIndices ++ rest)) :
    Ensures (s.updateDataCompactionToMooncakeSnapshot (some result)) fun s' =>
      s'.indices.fileIndices.Perm (rest ++ result.newFileIndices) ∧
        s'.diskFiles.keys.Perm (rest.flatMap (·.files) ++ result.newDataFiles.map (·.1.fileId)) := by
  have hkeys := keys_compacted h hresult hperm
  have hall := hkeys.nodup_iff.mp s.diskFiles.keys_nodup
  obtain ⟨-, hrest, hdisjoint⟩ := List.nodup_append'.mp hall
  have hmemD : ∀ f, f ∈ s.diskFiles ↔ f ∈ result.oldDataFiles ∨ f ∈ rest.flatMap (·.files) := by
    intro f
    rw [AList.mem_keys, hkeys.mem_iff, List.mem_append]
  refine .bind (s.mem_updateDataFilesToMooncakeSnapshot result) ?_
  rintro s₁ ⟨hindices, hmem⟩
  have hs₁ : FilesIndexed s₁.indices.fileIndices s.diskFiles.keys := hindices ▸ h
  refine (updateFileIndicesToMooncakeSnapshot hs₁ s.diskFiles.keys_nodup (hindices ▸ hperm)).mono ?_
  rintro s₂ ⟨hperm₂, hfiles₂, -⟩
  refine ⟨hperm₂, ?_⟩
  rw [hfiles₂]
  refine (List.perm_ext_iff_of_nodup s₁.diskFiles.keys_nodup ?_).mpr fun f => ?_
  · refine List.nodup_append'.mpr ⟨hrest, hnodup, fun f hf hnew => ?_⟩
    exact hfresh f hnew ((hmemD f).mpr (.inr hf))
  · rw [← AList.mem_keys, hmem, hmemD, List.mem_append]
    constructor
    · rintro ⟨(hold | hf) | hnew, hnot⟩
      · exact absurd hold hnot
      · exact .inl hf
      · exact .inr hnew
    · rintro (hf | hnew)
      · exact ⟨.inl (.inr hf), fun hold => hdisjoint hold hf⟩
      · exact ⟨.inr hnew, fun hold => hfresh f hnew ((hmemD f).mpr (.inl hold))⟩

/-! ### Writes -/

/-- The files `ids` and the indices `new` are added. -/
structure Gains (ids : List FileId) (new : List FileIndex) (s s' : SnapshotTableState Row Ident) : Prop where
  files : s'.diskFiles.keys.Perm (s.diskFiles.keys ++ ids)
  indices : s'.indices.fileIndices.Perm (s.indices.fileIndices ++ new)
  unpersistedRecords : s'.unpersistedRecords = s.unpersistedRecords

namespace Gains

variable {ids ids' : List FileId} {new new' : List FileIndex} {s s₁ s₂ : SnapshotTableState Row Ident}

theorem refl (s : SnapshotTableState Row Ident) : Gains [] [] s s := ⟨by simp, by simp, rfl⟩

theorem trans (h : Gains ids new s s₁) (h' : Gains ids' new' s₁ s₂) :
    Gains (ids ++ ids') (new ++ new') s s₂ where
  files := by
    rw [← List.append_assoc]
    exact h'.files.trans (h.files.append_right ids')
  indices := by
    rw [← List.append_assoc]
    exact h'.indices.trans (h.indices.append_right new')
  unpersistedRecords := h'.unpersistedRecords.trans h.unpersistedRecords

/-- Steps that only delete rows. -/
theorem of_mem_iff (hfiles : ∀ f, f ∈ s₁.diskFiles ↔ f ∈ s.diskFiles)
    (hindices : s₁.indices.fileIndices = s.indices.fileIndices)
    (hunp : s₁.unpersistedRecords = s.unpersistedRecords) : Gains [] [] s s₁ where
  files := by
    rw [List.append_nil]
    exact keys_perm_of_mem_iff hfiles
  indices := by
    rw [List.append_nil, hindices]
  unpersistedRecords := hunp

theorem indexed (h : Gains ids new s s₁) (hs : s.Indexed) (hnew : FilesIndexed new ids) : s₁.Indexed :=
  ((hs.append hnew).congr_indices h.indices.symm).congr_files h.files.symm

/-- A loop of deletes. -/
theorem ensures_foldlM {β : Type}
    {g : SnapshotTableState Row Ident → β → Except StoragePanic (SnapshotTableState Row Ident)}
    (s : SnapshotTableState Row Ident) (bs : List β) (hg : ∀ s b, Ensures (g s b) (Gains [] [] s)) :
    Ensures (bs.foldlM g s) (Gains [] [] s) := by
  refine .foldlM (I := fun _ => Gains [] [] s) (.refl s) ?_
  intro _ b _ s' _ hs'
  exact (hg s' b).mono fun _ h => hs'.trans h

end Gains

theorem addProcessedDeletion_gains (newCommitLsn : Nat) (s : SnapshotTableState Row Ident)
    (deletion : ProcessedDeletionRecord) :
    Ensures (addProcessedDeletion newCommitLsn s deletion) (Gains [] [] s) := by
  unfold addProcessedDeletion
  split
  · unfold commitDeletion
    split
    · split
      · exact .ok (.of_mem_iff (fun _ => Iff.rfl) rfl rfl)
      · exact .bind_any fun _ => .pure (.of_mem_iff (fun _ => Iff.rfl) rfl rfl)
    · exact .bind (DiskFiles.deleteRow_ensures s.diskFiles _ _) fun files hfiles =>
        .pure (.of_mem_iff hfiles.mem rfl rfl)
  · exact .ok (.of_mem_iff (fun _ => Iff.rfl) rfl rfl)

theorem processDeletionLog_gains [DecidableEq Ident] (identity : IdentityProp Row Ident)
    (s : SnapshotTableState Row Ident) (task : SnapshotTask Row Ident) :
    Ensures (s.processDeletionLog identity task) (Gains [] [] s) := by
  have hadvance : Ensures (s.advancePendingDeletions task.commitLsnBaseline) (Gains [] [] s) :=
    (Gains.ensures_foldlM { s with uncommittedDeletionLog := [] } s.uncommittedDeletionLog
      fun s' d => addProcessedDeletion_gains _ s' d).mono fun s' hs' =>
        ⟨hs'.files, hs'.indices, hs'.unpersistedRecords⟩
  refine .bind hadvance fun s₁ h₁ => ?_
  refine .bind (Gains.ensures_foldlM s₁ _ fun s' d => addProcessedDeletion_gains _ s' d) fun s₂ h₂ => ?_
  refine .bind_any fun _ => (Gains.ensures_foldlM s₂ _ fun s' group => ?_).mono
    fun s₃ h₃ => (h₁.trans h₂).trans h₃
  exact .bind_any fun processed =>
    Gains.ensures_foldlM s' _ fun s'' d => addProcessedDeletion_gains _ s'' d

theorem keys_foldl_insert {files new : DiskFiles Row} (hfresh : ∀ f ∈ new, f ∉ files) :
    (new.entries.foldl (fun files f => files.insert f.1 f.2) files).keys.Perm (files.keys ++ new.keys) := by
  refine (List.perm_ext_iff_of_nodup (AList.keys_nodup _) ?_).mpr fun f => ?_
  · exact List.nodup_append'.mpr ⟨files.keys_nodup, new.keys_nodup, fun f hf hnew => hfresh f hnew hf⟩
  · rw [← AList.mem_keys, ← AList.lookup_isSome, AssocMap.lookup_foldl_insert, Option.isSome_or,
      Bool.or_eq_true, AList.lookup_isSome, AList.lookup_isSome, List.mem_append, or_comm]
    rfl

theorem applyTransactionStream_gains (acc : SnapshotTableState Row Ident × SnapshotTask Row Ident)
    (output : TransactionStreamOutput Row Ident)
    (hfresh : ∀ f ∈ output.flushedFileIds, f ∉ acc.1.diskFiles) :
    Gains output.flushedFileIds output.flushedFileIndices acc.1 (applyTransactionStream acc output).1 := by
  cases output with
  | commit commit =>
    refine ⟨keys_foldl_insert fun f hf => hfresh f hf, ?_, rfl⟩
    simp only [applyTransactionStream, fileIndices_foldl_insertFileIndex]
    exact .refl _
  | abort xactId => exact .of_mem_iff (fun _ => Iff.rfl) rfl rfl

theorem foldl_applyTransactionStream_gains (outputs : List (TransactionStreamOutput Row Ident))
    (acc : SnapshotTableState Row Ident × SnapshotTask Row Ident)
    (hnodup : (outputs.flatMap TransactionStreamOutput.flushedFileIds).Nodup)
    (hfresh : ∀ f ∈ outputs.flatMap TransactionStreamOutput.flushedFileIds, f ∉ acc.1.diskFiles) :
    Gains (outputs.flatMap TransactionStreamOutput.flushedFileIds)
      (outputs.flatMap TransactionStreamOutput.flushedFileIndices) acc.1
      (outputs.foldl applyTransactionStream acc).1 := by
  induction outputs generalizing acc with
  | nil => exact .refl _
  | cons output rest ih =>
    rw [List.flatMap_cons] at hnodup hfresh
    obtain ⟨-, hrest, hdisjoint⟩ := List.nodup_append'.mp hnodup
    have hhead := applyTransactionStream_gains acc output
      fun f hf => hfresh f (List.mem_append_left _ hf)
    refine hhead.trans (ih _ hrest fun f hf hmem => ?_)
    rcases List.mem_append.mp (hhead.files.mem_iff.mp hmem) with hold | hnew
    · exact hfresh f (List.mem_append_right _ hf) hold
    · exact hdisjoint hnew hf

theorem fileIndices_foldl_insertMemoryIndex (memIndices : List (MemIndex Ident))
    (index : MooncakeIndex Ident) :
    (memIndices.foldl (·.insertMemoryIndex ·) index).fileIndices = index.fileIndices := by
  induction memIndices generalizing index with
  | nil => rfl
  | cons i rest ih => rw [List.foldl_cons, ih]; rfl

theorem integrateDiskSlices_gains [DecidableEq Ident] (s : SnapshotTableState Row Ident)
    (slices : List (DiskSliceWriter Row Ident)) :
    Ensures (s.integrateDiskSlices slices)
      (Gains (slices.flatMap fun slice => slice.files.map (·.fileId))
        (slices.flatMap fun slice => slice.newIndex.toList) s) := by
  refine .foldlM (I := fun (done : List (DiskSliceWriter Row Ident)) =>
    Gains (done.flatMap fun slice => slice.files.map (·.fileId))
      (done.flatMap fun slice => slice.newIndex.toList) s) (.refl s) ?_
  intro done slice _ s' _ hs' s'' hok
  obtain ⟨_, -, hok⟩ := bind_eq_ok.mp hok
  obtain ⟨files, hfiles, hok⟩ := bind_eq_ok.mp hok
  obtain ⟨diskFiles, hdisk, hok⟩ := bind_eq_ok.mp hok
  obtain ⟨batches, -, hok⟩ := bind_eq_ok.mp hok
  cases hok
  have hkeys := keys_integrate slice s'.diskFiles s'.committedDeletionLog diskFiles
    (bind_eq_ok.mpr ⟨files, hfiles, hdisk⟩)
  rw [List.flatMap_append, List.flatMap_append, List.flatMap_singleton, List.flatMap_singleton]
  refine hs'.trans ⟨hkeys, ?_, rfl⟩
  simp only [MooncakeIndex.deleteMemoryIndex, fileIndices_foldl_insertFileIndex]
  exact .refl _

/-- The writes of a task add its files with their indices. -/
theorem applyWrites_gains [DecidableEq Ident] (s : SnapshotTableState Row Ident)
    (cfg : SnapshotConfig Row Ident) (task : SnapshotTask Row Ident) (hnodup : task.newFileIds.Nodup)
    (hfresh : ∀ f ∈ task.newFileIds, f ∉ s.diskFiles) :
    Ensures (s.applyWrites cfg task) (Gains task.newFileIds task.getNewFileIndices s) := by
  have hstreams := foldl_applyTransactionStream_gains task.newStreamingXact (s, task)
    (List.nodup_append'.mp hnodup).2.1 fun f hf => hfresh f (List.mem_append_right _ hf)
  have hslices := newDiskSlices_foldl_applyTransactionStream task.newStreamingXact (s, task)
  unfold applyWrites
  generalize task.newStreamingXact.foldl applyTransactionStream (s, task) = acc at hstreams hslices ⊢
  obtain ⟨s₁, task₁⟩ := acc
  simp only at hstreams hslices ⊢
  rw [hslices]
  refine .bind (P := Gains [] [] s₁) ?_ fun s₂ hbatches => ?_
  · refine .bind_any fun _ => .bind_any fun _ => .pure (.of_mem_iff (fun _ => Iff.rfl) ?_ rfl)
    exact fileIndices_foldl_insertMemoryIndex _ _
  · refine .bind (integrateDiskSlices_gains s₂ task.newDiskSlices) fun s₃ hs₃ => ?_
    refine .bind (P := Gains [] [] { s₃ with rows := task₁.newRows })
      (processDeletionLog_gains _ _ _) fun s₄ hs₄ => .pure ?_
    have hs₄ : Gains [] [] s₃ s₄ := ⟨hs₄.files, hs₄.indices, hs₄.unpersistedRecords⟩
    have hall := ((hstreams.trans hbatches).trans hs₃).trans hs₄
    refine ⟨hall.files.trans ?_, hall.indices.trans ?_, hall.unpersistedRecords⟩
    · simp only [List.append_nil]
      exact List.perm_append_comm.append_left _
    · rw [SnapshotTask.getNewFileIndices_eq]
      simp only [List.append_nil]
      exact List.perm_append_comm.append_left _

end SnapshotTableState

/-! ## Records that are not persisted -/

/-- The indices that the task adds. -/
def SnapshotTask.addedIndices (task : SnapshotTask Row Ident) : List FileIndex :=
  task.getNewFileIndices ++ task.indexMergeResult.newFileIndices ++
    (task.dataCompactionResult.map (·.newFileIndices)).getD []

/-- The indices that the maintenance results of the task replace. -/
def SnapshotTask.replacedIndices (task : SnapshotTask Row Ident) : List FileIndex :=
  task.indexMergeResult.oldFileIndices ++
    (task.dataCompactionResult.map (·.oldFileIndices)).getD []

/-- The indices that were persisted are the first ones of each kind. -/
structure PersistedRecords.FirstOf (U : UnpersistedRecords Row) (p : PersistedRecords) : Prop where
  new : p.newFileIndices <+: U.newFileIndices
  merged : p.mergedFileIndicesAdded <+: U.mergedFileIndicesToAdd
  compacted : p.compactedFileIndicesAdded <+: U.compactedFileIndicesToAdd

namespace UnpersistedRecords

theorem perm_six {α : Type} (a b c d e f : List α) :
    ((a ++ b) ++ (c ++ d) ++ (e ++ f)).Perm ((a ++ c ++ e) ++ (b ++ d ++ f)) :=
  Multiset.coe_eq_coe.mp (by simp only [← Multiset.coe_add]; abel)

theorem prunePersistedRecords_indices (U : UnpersistedRecords Row) (persisted : Option PersistedRecords)
    (h : ∀ p, persisted = some p → p.FirstOf U) :
    Ensures (U.prunePersistedRecords persisted) fun U' =>
      U.getUnpersistedFileIndicesSet.Perm
        (SnapshotTableState.persistedIndices persisted ++ U'.getUnpersistedFileIndicesSet) := by
  cases persisted with
  | none => exact .ok (.refl _)
  | some p =>
    obtain ⟨⟨new, hnew⟩, ⟨merged, hmerged⟩, ⟨compacted, hcompacted⟩⟩ := h p rfl
    refine .bind_any fun _ => .bind (prune_ensures _ _) fun _ hnew' => .bind_any fun _ => ?_
    refine .bind (prune_ensures _ _) fun _ hmerged' => .bind_any fun _ => .bind_any fun _ => ?_
    refine .bind (prune_ensures _ _) fun _ hcompacted' => .bind_any fun _ => .bind_any fun _ => ?_
    refine .pure ?_
    rw [← hnew, List.drop_left] at hnew'
    rw [← hmerged, List.drop_left] at hmerged'
    rw [← hcompacted, List.drop_left] at hcompacted'
    unfold getUnpersistedFileIndicesSet
    rw [hnew', hmerged', hcompacted', ← hnew, ← hmerged, ← hcompacted]
    exact perm_six _ _ _ _ _ _

theorem bufferUnpersistedRecords_indices (U : UnpersistedRecords Row) (task : SnapshotTask Row Ident) :
    Ensures (U.bufferUnpersistedRecords task) fun U' =>
      U'.getUnpersistedFileIndicesSet.Perm (U.getUnpersistedFileIndicesSet ++ task.addedIndices) := by
  unfold bufferUnpersistedRecords getUnpersistedFileIndicesSet SnapshotTask.addedIndices
  cases task.dataCompactionResult with
  | none =>
    refine .ok ?_
    have hperm := perm_six U.newFileIndices task.getNewFileIndices U.mergedFileIndicesToAdd
      task.indexMergeResult.newFileIndices U.compactedFileIndicesToAdd []
    rwa [List.append_nil] at hperm
  | some result => exact .bind_any fun _ => .pure (perm_six _ _ _ _ _ _)

end UnpersistedRecords

/-! ## Payloads -/

/-- The indices of the payload are those of `U`. -/
structure PersistenceSnapshotPayload.IndicesOf (U : UnpersistedRecords Row)
    (p : PersistenceSnapshotPayload Row) : Prop where
  new : p.fileIndices = U.newFileIndices
  merged : p.mergedFileIndicesToAdd = U.mergedFileIndicesToAdd
  compacted : p.compactedFileIndicesToAdd = U.compactedFileIndicesToAdd

/-- The indices of the payload are the first ones of `U`. -/
structure PersistenceSnapshotPayload.FirstOf (U : UnpersistedRecords Row)
    (p : PersistenceSnapshotPayload Row) : Prop where
  new : p.fileIndices <+: U.newFileIndices
  merged : p.mergedFileIndicesToAdd <+: U.mergedFileIndicesToAdd
  compacted : p.compactedFileIndicesToAdd <+: U.compactedFileIndicesToAdd

theorem PersistenceSnapshotPayload.IndicesOf.firstOf {U : UnpersistedRecords Row}
    {p : PersistenceSnapshotPayload Row} (h : p.IndicesOf U) : p.FirstOf U :=
  ⟨h.new ▸ List.prefix_rfl, h.merged ▸ List.prefix_rfl, h.compacted ▸ List.prefix_rfl⟩

theorem SnapshotTableState.offerPayload_records (s : SnapshotTableState Row Ident) (cfg : SnapshotConfig Row Ident)
    (task : SnapshotTask Row Ident) (opt : SnapshotOption) :
    Ensures (s.offerPayload cfg task opt) fun payload => ∀ p, payload = some p →
      p.IndicesOf s.unpersistedRecords ∧ p.MaintenanceOf s.unpersistedRecords := by
  unfold SnapshotTableState.offerPayload
  simp only
  split
  · refine .bind_any fun _ => .pure fun p hp => ?_
    split at hp
    · cases hp
      exact ⟨⟨rfl, rfl, rfl⟩, ⟨rfl, rfl, rfl, rfl⟩⟩
    · cases hp
  · exact .ok nofun

/-! ## The update -/

namespace SnapshotTableState

/-- What a compaction that is taken over leaves, where `rest` are the other indices. -/
structure CompactedIndices (result : Option (DataCompactionResult Row FileIndex))
    (rest : List FileIndex) (s s' : SnapshotTableState Row Ident) : Prop where
  indexed : s'.Indexed
  indices : s'.indices.fileIndices.Perm (rest ++ (result.map (·.newFileIndices)).getD [])
  files : ∀ f ∈ s'.diskFiles, f ∈ s.diskFiles ∨ f ∈ compactedFileIds result
  old : ((result.map (·.oldDataFiles)).getD []).length ≤ s.diskFiles.keys.length
  count : s'.diskFiles.keys.length + ((result.map (·.oldDataFiles)).getD []).length =
    s.diskFiles.keys.length + (compactedFileIds result).length

variable {s : SnapshotTableState Row Ident}

theorem Indexed.compaction (h : s.Indexed) {result : Option (DataCompactionResult Row FileIndex)}
    (hresult : ∀ r, result = some r → ResultIndexed r) (hnodup : (compactedFileIds result).Nodup)
    (hfresh : ∀ f ∈ compactedFileIds result, f ∉ s.diskFiles) {rest : List FileIndex}
    (hperm : s.indices.fileIndices.Perm ((result.map (·.oldFileIndices)).getD [] ++ rest)) :
    Ensures (s.updateDataCompactionToMooncakeSnapshot result) (CompactedIndices result rest s) := by
  cases result with
  | none =>
    refine .ok ⟨h, ?_, fun f hf => .inl hf, Nat.zero_le _, rfl⟩
    simpa using hperm
  | some result =>
    have hresult := hresult result rfl
    refine (h.updateDataCompaction hresult hnodup hfresh hperm).mono ?_
    rintro s' ⟨hindices, hfiles⟩
    have hkeys := keys_compacted h hresult hperm
    have hbefore := hkeys.length_eq
    have hafter := hfiles.length_eq
    rw [List.length_append] at hbefore hafter
    refine ⟨?_, hindices, ?_, ?_, ?_⟩
    · refine FilesIndexed.congr_indices ?_ hindices.symm
      refine FilesIndexed.congr_files ?_ hfiles.symm
      refine FilesIndexed.append ⟨.refl _, fun index hindex => ?_⟩ hresult.new
      exact h.nonempty index (hperm.mem_iff.mpr (List.mem_append_right _ hindex))
    · intro f hf
      rcases List.mem_append.mp (hfiles.mem_iff.mp hf) with hrest | hnew
      · exact .inl (hkeys.mem_iff.mpr (List.mem_append_right _ hrest))
      · exact .inr hnew
    · simp only [Option.map_some, Option.getD_some]
      omega
    · simp only [Option.map_some, Option.getD_some, compactedFileIds]
      omega

/-- Remapping the logs leaves files and indices. -/
theorem remapDeletionLogsAfterCompaction_same (s : SnapshotTableState Row Ident)
    (result : Option (DataCompactionResult Row FileIndex)) :
    Ensures (s.remapDeletionLogsAfterCompaction result) fun res =>
      res.1.diskFiles = s.diskFiles ∧ res.1.indices = s.indices ∧
        res.1.unpersistedRecords = s.unpersistedRecords ∧
        res.2.map (·.newFileIndices) = result.map (·.newFileIndices) := by
  cases result with
  | none => exact .ok ⟨rfl, rfl, rfl, rfl⟩
  | some result => exact .bind_any fun _ => .pure ⟨rfl, rfl, rfl, rfl⟩

theorem pruneCommittedDeletionLogs_same (s : SnapshotTableState Row Ident)
    (persisted : Option PersistedRecords) :
    Ensures (s.pruneCommittedDeletionLogs persisted) fun s' =>
      s'.diskFiles = s.diskFiles ∧ s'.indices = s.indices ∧
        s'.unpersistedRecords = s.unpersistedRecords := by
  cases persisted with
  | none => exact .ok ⟨rfl, rfl, rfl⟩
  | some persisted => exact .bind_any fun _ => .pure ⟨rfl, rfl, rfl⟩

theorem updateDataCompaction_unpersistedRecords (s : SnapshotTableState Row Ident)
    (result : Option (DataCompactionResult Row FileIndex)) :
    Ensures (s.updateDataCompactionToMooncakeSnapshot result) fun s' =>
      s'.unpersistedRecords = s.unpersistedRecords := by
  cases result with
  | none => exact .ok rfl
  | some result =>
    refine .bind (P := fun s₁ => s₁.unpersistedRecords = s.unpersistedRecords) ?_ fun s₁ hs₁ => ?_
    · unfold updateDataFilesToMooncakeSnapshot
      split
      · exact .bind_any fun _ => .pure rfl
      · exact .bind_any fun _ => .bind_any fun _ => .pure rfl
    · refine (updateFileIndicesToMooncakeSnapshot_ensures s₁ _ _).mono fun s₂ hs₂ => ?_
      rw [hs₂]
      exact hs₁

/-- What a task brings fits the snapshot; `running` are the indices under maintenance. -/
structure TaskIndexed (s : SnapshotTableState Row Ident) (task : SnapshotTask Row Ident)
    (running : List FileIndex) : Prop where
  written : FilesIndexed task.getNewFileIndices task.newFileIds
  merged : (task.indexMergeResult.newFileIndices.flatMap (·.files)).Perm
    (task.indexMergeResult.oldFileIndices.flatMap (·.files))
  nonempty : task.indexMergeResult.oldFileIndices ≠ [] →
    ∀ index ∈ task.indexMergeResult.newFileIndices, index.files ≠ []
  compacted : ∀ r, task.dataCompactionResult = some r → ResultIndexed r
  persisted : ∀ p, task.persistedRecords = some p → p.FirstOf s.unpersistedRecords
  nodup : (takenFileIds task).Nodup
  fresh : ∀ f ∈ takenFileIds task, f ∉ s.diskFiles
  tracked : ∃ rest, s.indices.fileIndices.Perm
    (s.unpersistedRecords.getUnpersistedFileIndicesSet ++ task.replacedIndices ++ running ++ rest)

variable {task : SnapshotTask Row Ident} {running : List FileIndex}

/-- The indices that were persisted are in the snapshot. -/
theorem TaskIndexed.persisted_perm (h : TaskIndexed s task running) :
    ∃ rest, s.indices.fileIndices.Perm (persistedIndices task.persistedRecords ++ rest) := by
  obtain ⟨rest, hrest⟩ := h.tracked
  suffices hsub : ∃ others, s.unpersistedRecords.getUnpersistedFileIndicesSet.Perm
      (persistedIndices task.persistedRecords ++ others) by
    obtain ⟨others, hothers⟩ := hsub
    refine ⟨others ++ task.replacedIndices ++ running ++ rest, hrest.trans ?_⟩
    simp only [← List.append_assoc]
    exact ((hothers.append_right _).append_right _).append_right _
  cases hpersisted : task.persistedRecords with
  | none => exact ⟨_, .refl _⟩
  | some p =>
    obtain ⟨⟨new, hnew⟩, ⟨merged, hmerged⟩, ⟨compacted, hcompacted⟩⟩ := h.persisted p hpersisted
    refine ⟨new ++ merged ++ compacted, ?_⟩
    unfold UnpersistedRecords.getUnpersistedFileIndicesSet
    rw [← hnew, ← hmerged, ← hcompacted]
    exact UnpersistedRecords.perm_six _ _ _ _ _ _

/-- The snapshot after the results of the task are taken over. -/
structure ReflectedIndices (task : SnapshotTask Row Ident) (running : List FileIndex)
    (s s' : SnapshotTableState Row Ident) : Prop where
  indexed : s'.Indexed
  files : ∀ f ∈ s'.diskFiles, f ∈ s.diskFiles ∨ f ∈ compactedFileIds task.dataCompactionResult
  tracked : ∃ rest, (s'.indices.fileIndices ++ task.getNewFileIndices).Perm
    (s'.unpersistedRecords.getUnpersistedFileIndicesSet ++ running ++ rest)
  oldFiles : ((task.dataCompactionResult.map (·.oldDataFiles)).getD []).length ≤ s.diskFiles.keys.length
  oldIndices : task.replacedIndices.length ≤ s.indices.fileIndices.length
  filesCount : s'.diskFiles.keys.length +
      ((task.dataCompactionResult.map (·.oldDataFiles)).getD []).length =
    s.diskFiles.keys.length + (compactedFileIds task.dataCompactionResult).length
  indicesCount : s'.indices.fileIndices.length + task.replacedIndices.length +
      task.getNewFileIndices.length = s.indices.fileIndices.length + task.addedIndices.length
  buffered : ∃ result records, (task.dataCompactionResult = none → result = none) ∧
    s.unpersistedRecords.prunePersistedRecords task.persistedRecords = .ok records ∧
    records.bufferUnpersistedRecords { task with dataCompactionResult := result } =
      .ok s'.unpersistedRecords

theorem reflectResults_indexed (h : s.Indexed) (htask : TaskIndexed s task running) :
    Ensures (s.reflectResults task) fun res =>
      (∃ result, res.2 = { task with dataCompactionResult := result }) ∧
        ReflectedIndices task running s res.1 := by
  intro res hres
  obtain ⟨s₁, h₁, hres⟩ := bind_eq_ok.mp hres
  obtain ⟨s₂, h₂, hres⟩ := bind_eq_ok.mp hres
  obtain ⟨s₃, h₃, hres⟩ := bind_eq_ok.mp hres
  obtain ⟨⟨s₄, result⟩, h₄, hres⟩ := bind_eq_ok.mp hres
  obtain ⟨s₅, h₅, hres⟩ := bind_eq_ok.mp hres
  obtain ⟨records, hprune, hres⟩ := bind_eq_ok.mp hres
  obtain ⟨unpersisted, hbuffer, hres⟩ := bind_eq_ok.mp hres
  cases hres
  obtain ⟨rest, htracked⟩ := htask.tracked
  -- Records that are not persisted.
  obtain ⟨hfiles₄, hindices₄, hunp₄, hresult⟩ :=
    remapDeletionLogsAfterCompaction_same s₃ _ _ h₄
  obtain ⟨hfiles₅, hindices₅, hunp₅⟩ := pruneCommittedDeletionLogs_same s₄ _ s₅ h₅
  have hunp : s₅.unpersistedRecords = s.unpersistedRecords := by
    rw [hunp₅, hunp₄, updateDataCompaction_unpersistedRecords s₂ _ s₃ h₃,
      updateFileIndicesToMooncakeSnapshot_ensures s₁ _ _ s₂ h₂,
      (updateSnapshotByIcebergSnapshot_ensures _ _ s₁ h₁).2]
  have hpruned := UnpersistedRecords.prunePersistedRecords_indices s₅.unpersistedRecords _
    (fun p hp => hunp ▸ htask.persisted p hp) records hprune
  have hbuffered := UnpersistedRecords.bufferUnpersistedRecords_indices records _ unpersisted hbuffer
  have hadded : SnapshotTask.addedIndices { task with dataCompactionResult := result } =
      task.addedIndices := by
    unfold SnapshotTask.addedIndices
    rw [hresult]
    rfl
  rw [hadded] at hbuffered
  rw [hunp] at hpruned
  unfold SnapshotTask.replacedIndices at htracked
  rw [← Multiset.coe_eq_coe] at htracked hpruned hbuffered
  unfold SnapshotTask.addedIndices at hbuffered
  simp only [← Multiset.coe_add] at htracked hpruned hbuffered
  -- Persistence: the indices are the same ones.
  have hs : ({ s with compactingDataFiles := task.compactingDataFiles } :
      SnapshotTableState Row Ident).Indexed := h
  have hpersisted : s.indices.fileIndices.Perm (persistedIndices task.persistedRecords ++
      (records.getUnpersistedFileIndicesSet ++ task.replacedIndices ++ running ++ rest)) := by
    refine Multiset.coe_eq_coe.mp ?_
    simp only [SnapshotTask.replacedIndices, ← Multiset.coe_add]
    rw [htracked, hpruned]
    abel
  obtain ⟨hindices₁, hkeys₁⟩ := hs.updateSnapshotByIcebergSnapshot hpersisted s₁ h₁
  have hindexed₁ : s₁.Indexed := (h.congr_indices hindices₁.symm).congr_files hkeys₁.symm
  -- The index merge.
  have hmerge : s₁.indices.fileIndices.Perm (task.indexMergeResult.oldFileIndices ++
      (persistedIndices task.persistedRecords ++ records.getUnpersistedFileIndicesSet ++
        (task.dataCompactionResult.map (·.oldFileIndices)).getD [] ++ running ++ rest)) := by
    refine hindices₁.trans (Multiset.coe_eq_coe.mp ?_)
    simp only [← Multiset.coe_add]
    rw [htracked, hpruned]
    abel
  obtain ⟨hindices₂, hfiles₂, hmergedNil⟩ := Indexed.updateFileIndicesToMooncakeSnapshot hindexed₁
    s₁.diskFiles.keys_nodup hmerge s₂ h₂
  have hnonempty : ∀ index ∈ task.indexMergeResult.newFileIndices, index.files ≠ [] := by
    by_cases hold : task.indexMergeResult.oldFileIndices = []
    · rw [hmergedNil hold]
      exact nofun
    · exact htask.nonempty hold
  have hindexed₂ : s₂.Indexed := by
    have hreplaced := FilesIndexed.replace (hindexed₁.congr_indices hmerge) htask.merged hnonempty
    unfold Indexed
    rw [hfiles₂]
    exact hreplaced.congr_indices hindices₂.symm
  -- The compaction.
  have hkeys₂ : ∀ f, f ∈ s₂.diskFiles ↔ f ∈ s.diskFiles := by
    intro f
    rw [hfiles₂]
    exact hkeys₁.mem_iff
  have hcompaction : s₂.indices.fileIndices.Perm
      ((task.dataCompactionResult.map (·.oldFileIndices)).getD [] ++
        (persistedIndices task.persistedRecords ++ records.getUnpersistedFileIndicesSet ++ running ++
          rest ++ task.indexMergeResult.newFileIndices)) := by
    refine hindices₂.trans (Multiset.coe_eq_coe.mp ?_)
    simp only [← Multiset.coe_add]
    abel
  have hcompacted := hindexed₂.compaction htask.compacted (List.nodup_append'.mp htask.nodup).2.1
    (fun f hf hmem => htask.fresh f (List.mem_append_right _ hf) ((hkeys₂ f).mp hmem)) hcompaction
    s₃ h₃
  have hindices : s₅.indices = s₃.indices := hindices₅.trans hindices₄
  have hfiles : s₅.diskFiles = s₃.diskFiles := hfiles₅.trans hfiles₄
  have hlength : s₂.diskFiles.keys.length = s.diskFiles.keys.length := by
    rw [hfiles₂]
    exact hkeys₁.length_eq
  refine ⟨⟨result, rfl⟩, ?_, ?_, ?_, hlength ▸ hcompacted.old, ?_, ?_, ?_, ?_⟩
  · unfold Indexed
    simp only
    rw [hindices, hfiles]
    exact hcompacted.indexed
  · intro f hf
    simp only [hfiles] at hf
    exact (hcompacted.files f hf).imp_left (hkeys₂ f).mp
  · refine ⟨rest ++ persistedIndices task.persistedRecords, ?_⟩
    simp only [hindices]
    refine (hcompacted.indices.append_right _).trans (Multiset.coe_eq_coe.mp ?_)
    simp only [← Multiset.coe_add]
    rw [hbuffered]
    abel
  · have hbefore := hpersisted.length_eq
    simp only [List.length_append] at hbefore
    omega
  · simp only [hfiles]
    rw [hcompacted.count, hlength]
  · have hafter := hcompacted.indices.length_eq
    have hbefore := hpersisted.length_eq
    simp only [SnapshotTask.replacedIndices, SnapshotTask.addedIndices, List.length_append, hindices]
      at hafter hbefore ⊢
    omega
  · refine ⟨result, records, fun hnone => ?_, hunp ▸ hprune, hbuffer⟩
    rw [hnone] at hresult
    exact Option.map_eq_none_iff.mp hresult

/-- The snapshot after an update. -/
structure UpdatedIndices (task : SnapshotTask Row Ident) (running : List FileIndex)
    (s s' : SnapshotTableState Row Ident) : Prop where
  indexed : s'.Indexed
  files : ∀ f ∈ s'.diskFiles, f ∈ s.diskFiles ∨ f ∈ takenFileIds task
  tracked : ∃ rest, s'.indices.fileIndices.Perm
    (s'.unpersistedRecords.getUnpersistedFileIndicesSet ++ running ++ rest)
  filesCount : s.expectedDiskFilesCount task = s'.diskFiles.entries.length
  indicesCount : s.expectedFileIndicesCount task = s'.indices.fileIndices.length
  buffered : ∃ result records, (task.dataCompactionResult = none → result = none) ∧
    s.unpersistedRecords.prunePersistedRecords task.persistedRecords = .ok records ∧
    records.bufferUnpersistedRecords { task with dataCompactionResult := result } =
      .ok s'.unpersistedRecords

/-- The update as far as it changes files and indices. -/
def applyTask [DecidableEq Ident] (s : SnapshotTableState Row Ident) (cfg : SnapshotConfig Row Ident)
    (task : SnapshotTask Row Ident) : Except StoragePanic (SnapshotTableState Row Ident) := do
  let (s, task) ← s.reflectResults task
  s.applyWrites cfg task

theorem applyTask_indexed [DecidableEq Ident] (cfg : SnapshotConfig Row Ident)
    (h : s.Indexed) (htask : TaskIndexed s task running) :
    Ensures (s.applyTask cfg task) (UpdatedIndices task running s) := by
  refine .bind (reflectResults_indexed h htask) ?_
  rintro ⟨s₁, task₁⟩ ⟨⟨result, htask₁⟩, hreflected⟩
  simp only at htask₁ hreflected ⊢
  subst htask₁
  obtain ⟨hnodup, -, hdisjoint⟩ := List.nodup_append'.mp htask.nodup
  have hfresh : ∀ f ∈ task.newFileIds, f ∉ s₁.diskFiles := by
    intro f hnew hmem
    rcases hreflected.files f hmem with hold | hcompacted
    · exact htask.fresh f (List.mem_append_left _ hnew) hold
    · exact hdisjoint hnew hcompacted
  have hwrites : Ensures (s₁.applyWrites cfg { task with dataCompactionResult := result })
      (Gains task.newFileIds task.getNewFileIndices s₁) := applyWrites_gains s₁ cfg _ hnodup hfresh
  refine hwrites.mono fun s₂ hgains =>
    ⟨hgains.indexed hreflected.indexed htask.written, ?_, ?_, ?_, ?_, ?_⟩
  · intro f hf
    rcases List.mem_append.mp (hgains.files.mem_iff.mp hf) with hold | hwritten
    · exact (hreflected.files f hold).imp_right (List.mem_append_right _)
    · exact .inr (List.mem_append_left _ hwritten)
  · obtain ⟨rest, hrest⟩ := hreflected.tracked
    rw [hgains.unpersistedRecords]
    exact ⟨rest, hgains.indices.trans hrest⟩
  · have hcount := hreflected.filesCount
    have hold := hreflected.oldFiles
    have hlength := hgains.files.length_eq
    rw [List.length_append, ← task.map_getNewDataFiles, List.length_map] at hlength
    unfold expectedDiskFilesCount
    cases hresult : task.dataCompactionResult <;>
      simp only [hresult, compactedFileIds, AList.keys, List.keys, List.length_map, Option.map_none,
        Option.map_some, Option.getD_none, Option.getD_some, List.length_nil] at hcount hold hlength ⊢ <;>
      omega
  · have hcount := hreflected.indicesCount
    have hold := hreflected.oldIndices
    have hlength := hgains.indices.length_eq
    rw [List.length_append] at hlength
    unfold expectedFileIndicesCount
    unfold SnapshotTask.replacedIndices at hcount hold
    unfold SnapshotTask.addedIndices at hcount
    cases hresult : task.dataCompactionResult <;>
      simp only [hresult, List.length_append, Option.map_none, Option.map_some, Option.getD_none,
        Option.getD_some, List.length_nil] at hcount hold ⊢ <;>
      omega
  · rw [hgains.unpersistedRecords]
    exact hreflected.buffered

theorem updateSnapshot_indexed [DecidableEq Ident] (cfg : SnapshotConfig Row Ident)
    (opt : SnapshotOption) (h : s.Indexed) (htask : TaskIndexed s task running) :
    Ensures (s.updateSnapshot cfg task opt) fun res => UpdatedIndices task running s res.1 ∧
      ∀ p, res.2 = some p →
        p.IndicesOf res.1.unpersistedRecords ∧ p.MaintenanceOf res.1.unpersistedRecords := by
  intro res hok
  obtain ⟨_, -, hok⟩ := bind_eq_ok.mp hok
  obtain ⟨⟨s₁, task₁⟩, hreflect, hok⟩ := bind_eq_ok.mp hok
  obtain ⟨s₂, hwrites, hok⟩ := bind_eq_ok.mp hok
  obtain ⟨payload, hpayload, hok⟩ := bind_eq_ok.mp hok
  obtain ⟨_, -, hok⟩ := bind_eq_ok.mp hok
  obtain ⟨_, -, hok⟩ := bind_eq_ok.mp hok
  cases hok
  exact ⟨applyTask_indexed cfg h htask s₂ (bind_eq_ok.mpr ⟨_, hreflect, hwrites⟩),
    s₂.offerPayload_records cfg task₁ opt payload hpayload⟩

end SnapshotTableState
end Moonlink.Storage
