-- SUMMARY: When a failed sync leaves the table manager and the buffered updates as they were.
import Moonlink.Storage.SnapshotSync

namespace Moonlink.Storage

open Lib

variable {Row Path : Type}

namespace TableSyncer

variable {m m' m₁ m₂ : TableSyncer Row Path}

/-! ## What stays -/

/-- An entry or an update that was not there before. -/
inductive Adds (m m' : TableSyncer Row Path) : Prop where
  | dataFile (f : FileId) (hnew : f ∉ m.persistedDataFiles) (hmem : f ∈ m'.persistedDataFiles)
  | dataFileToRemove (path : Path) (hnew : path ∉ m.catalog.dataFilesToRemove)
      (hmem : path ∈ m'.catalog.dataFilesToRemove)
  | deletionVectorBlob (path : Path) (hnew : path ∉ m.catalog.deletionVectorBlobsToAdd)
      (hmem : path ∈ m'.catalog.deletionVectorBlobsToAdd)
  | fileIndexBlob (path : Path) (hnew : path ∉ m.catalog.fileIndexBlobsToAdd)
      (hmem : path ∈ m'.catalog.fileIndexBlobsToAdd)
  | puffinBlobToRemove (path : Path) (hnew : path ∉ m.catalog.puffinBlobsToRemove)
      (hmem : path ∈ m'.catalog.puffinBlobsToRemove)

/-- No such entry and no update is taken back. -/
structure Grows (m m' : TableSyncer Row Path) : Prop where
  dataFiles : ∀ f ∈ m.persistedDataFiles, f ∈ m'.persistedDataFiles
  dataFilesToRemove : ∀ path ∈ m.catalog.dataFilesToRemove, path ∈ m'.catalog.dataFilesToRemove
  deletionVectorBlobs :
    ∀ path ∈ m.catalog.deletionVectorBlobsToAdd, path ∈ m'.catalog.deletionVectorBlobsToAdd
  fileIndexBlobs : ∀ path ∈ m.catalog.fileIndexBlobsToAdd, path ∈ m'.catalog.fileIndexBlobsToAdd
  puffinBlobsToRemove :
    ∀ path ∈ m.catalog.puffinBlobsToRemove, path ∈ m'.catalog.puffinBlobsToRemove

theorem Grows.refl (m : TableSyncer Row Path) : m.Grows m :=
  ⟨fun _ h => h, fun _ h => h, fun _ h => h, fun _ h => h, fun _ h => h⟩

theorem Grows.trans (h : m.Grows m₁) (h' : m₁.Grows m₂) : m.Grows m₂ where
  dataFiles f hf := h'.dataFiles f (h.dataFiles f hf)
  dataFilesToRemove p hp := h'.dataFilesToRemove p (h.dataFilesToRemove p hp)
  deletionVectorBlobs p hp := h'.deletionVectorBlobs p (h.deletionVectorBlobs p hp)
  fileIndexBlobs p hp := h'.fileIndexBlobs p (h.fileIndexBlobs p hp)
  puffinBlobsToRemove p hp := h'.puffinBlobsToRemove p (h.puffinBlobsToRemove p hp)

theorem Adds.grows (h : m.Adds m₁) (hgrows : m₁.Grows m₂) : m.Adds m₂ := by
  cases h with
  | dataFile f hnew hmem => exact .dataFile f hnew (hgrows.dataFiles f hmem)
  | dataFileToRemove path hnew hmem =>
    exact .dataFileToRemove path hnew (hgrows.dataFilesToRemove path hmem)
  | deletionVectorBlob path hnew hmem =>
    exact .deletionVectorBlob path hnew (hgrows.deletionVectorBlobs path hmem)
  | fileIndexBlob path hnew hmem => exact .fileIndexBlob path hnew (hgrows.fileIndexBlobs path hmem)
  | puffinBlobToRemove path hnew hmem =>
    exact .puffinBlobToRemove path hnew (hgrows.puffinBlobsToRemove path hmem)

/-- A part of a sync has nothing to do and changes nothing, or it adds something. -/
def Does (nothing : Prop) (m m' : TableSyncer Row Path) : Prop :=
  nothing ∧ m' = m ∨ ¬ nothing ∧ m.Adds m'

theorem Does.congr {n₁ n₂ : Prop} (h : Does n₁ m m') (hiff : n₁ ↔ n₂) : Does n₂ m m' := by
  rwa [Does, ← hiff]

/-- What was done before stays when a later part only adds. -/
theorem Does.trans {n₁ n₂ : Prop} (h : Does n₁ m m₁) (h' : Does n₂ m₁ m₂) (hgrows : m₁.Grows m₂) :
    Does (n₁ ∧ n₂) m m₂ := by
  obtain ⟨hnothing, rfl⟩ | ⟨hdone, hadds⟩ := h
  · exact h'.imp (fun ⟨hn, heq⟩ => ⟨⟨hnothing, hn⟩, heq⟩) fun ⟨hd, hadds⟩ => ⟨fun hn => hd hn.2, hadds⟩
  · exact .inr ⟨fun hn => hdone hn.1, hadds.grows hgrows⟩

theorem setDataFilesToRemove_ensures (u : TableUpdateProxy Path) (dataFiles : List Path) :
    Ensures (u.setDataFilesToRemove dataFiles) fun u' =>
      u.dataFilesToRemove = [] ∧ u' = { u with dataFilesToRemove := dataFiles } := by
  intro u' hok
  obtain ⟨_, hassert, hok⟩ := bind_eq_ok.mp hok
  cases hok
  exact ⟨List.isEmpty_iff.mp (StoragePanic.of_assert hassert), rfl⟩

theorem Adds.of_grows (h : m₁.Adds m₂) (hgrows : m.Grows m₁) : m.Adds m₂ := by
  cases h with
  | dataFile f hnew hmem => exact .dataFile f (fun h => hnew (hgrows.dataFiles f h)) hmem
  | dataFileToRemove path hnew hmem =>
    exact .dataFileToRemove path (fun h => hnew (hgrows.dataFilesToRemove path h)) hmem
  | deletionVectorBlob path hnew hmem =>
    exact .deletionVectorBlob path (fun h => hnew (hgrows.deletionVectorBlobs path h)) hmem
  | fileIndexBlob path hnew hmem =>
    exact .fileIndexBlob path (fun h => hnew (hgrows.fileIndexBlobs path h)) hmem
  | puffinBlobToRemove path hnew hmem =>
    exact .puffinBlobToRemove path (fun h => hnew (hgrows.puffinBlobsToRemove path h)) hmem

theorem mayFail_leaves (m : TableSyncer Row Path) {failure : Option SyncFailure}
    {here : SyncFailure} {hasWork : Bool} :
    (mayFail failure here hasWork).Leaves m (fun _ m' => m' = m) fun m' => failure = some here ∧ m' = m := by
  refine .failIf (fun hfails => ?_) fun _ => rfl
  simp only [Bool.and_eq_true, beq_iff_eq] at hfails
  exact ⟨hfails.1, rfl⟩

theorem grows_finalizeDeletionVectors (m : TableSyncer Row Path)
    (prepared : List (PreparedDeletionVectorBlob Row)) :
    m.Grows (prepared.foldl finalizeDeletionVector m) := by
  induction prepared generalizing m with
  | nil => exact .refl m
  | cons blob rest ih =>
    refine Grows.trans ?_ (ih (m.finalizeDeletionVector blob))
    exact { Grows.refl m with dataFiles := fun f hf => (AList.mem_insert _).mpr (.inr hf) }

/-- Removing indices only changes the map of indices, until the removals are buffered. -/
theorem removeFileIndex_ensures (m : TableSyncer Row Path) (old : List FileIndex) :
    Ensures (old.foldlM removeFileIndex (m, [])) fun acc =>
      acc.1.persistedDataFiles = m.persistedDataFiles ∧ acc.1.catalog = m.catalog ∧
        acc.2.length = old.length := by
  refine .foldlM (I := fun done (acc : TableSyncer Row Path × List Path) =>
    acc.1.persistedDataFiles = m.persistedDataFiles ∧ acc.1.catalog = m.catalog ∧
      acc.2.length = done.length) ⟨rfl, rfl, rfl⟩ ?_
  intro done index rest acc _ ⟨hfiles, hcatalog, hlength⟩
  unfold removeFileIndex
  split
  · exact .error
  · exact .ok ⟨hfiles, hcatalog, by simp [hlength]⟩

/-- Buffering the removals of indices takes nothing back. -/
theorem grows_of_removals {removed : List Path}
    (hfiles : m'.persistedDataFiles = m.persistedDataFiles)
    (hcatalog : m'.catalog = { m.catalog with puffinBlobsToRemove := removed })
    (hnone : m.catalog.puffinBlobsToRemove = []) : m.Grows m' := by
  constructor <;> simp [hfiles, hcatalog, hnone]

variable [DecidableEq Path] {paths : RemotePaths Path} {failure : Option SyncFailure}

/-! ## As before -/

/-- Maps and buffered updates are the same, and so is the outcome of any later sync. -/
structure AsBefore (m m' : TableSyncer Row Path) : Prop where
  persistedDataFiles : ∀ f, m'.persistedDataFiles.lookup f = m.persistedDataFiles.lookup f
  persistedFileIndices : ∀ i, m'.persistedFileIndices.lookup i = m.persistedFileIndices.lookup i
  remoteDataFileToFileId :
    ∀ path, m'.remoteDataFileToFileId.lookup path = m.remoteDataFileToFileId.lookup path
  deletionVectorBlobsToAdd : ∀ path,
    m'.catalog.deletionVectorBlobsToAdd.lookup path = m.catalog.deletionVectorBlobsToAdd.lookup path
  fileIndexBlobsToAdd : ∀ path,
    m'.catalog.fileIndexBlobsToAdd.lookup path = m.catalog.fileIndexBlobsToAdd.lookup path
  puffinBlobsToRemove : ∀ path,
    path ∈ m'.catalog.puffinBlobsToRemove ↔ path ∈ m.catalog.puffinBlobsToRemove
  dataFilesToRemove : ∀ path, path ∈ m'.catalog.dataFilesToRemove ↔ path ∈ m.catalog.dataFilesToRemove
  later : ∀ (paths : RemotePaths Path) (failure : Option SyncFailure)
    (payload : PersistenceSnapshotPayload Row),
    syncSnapshotImpl paths failure payload m' = syncSnapshotImpl paths failure payload m

theorem AsBefore.refl (m : TableSyncer Row Path) : m.AsBefore m :=
  ⟨fun _ => rfl, fun _ => rfl, fun _ => rfl, fun _ => rfl, fun _ => rfl, fun _ => Iff.rfl,
    fun _ => Iff.rfl, fun _ _ _ => rfl⟩

def NoDataFiles (payload : PersistenceSnapshotPayload Row) : Prop :=
  payload.dataFilesToImport = [] ∧ payload.compactedDataFilesToRemove = []

def NoDeletions (payload : PersistenceSnapshotPayload Row) : Prop :=
  payload.newDeletionVector.entries = []

def NoFileIndices (payload : PersistenceSnapshotPayload Row) : Prop :=
  payload.fileIndicesToImport = [] ∧ payload.fileIndicesToRemove = []

/-- The failure comes before the first step of the sync that has something to do. -/
def NothingDone (payload : PersistenceSnapshotPayload Row) : SyncFailure → Prop
  | .initialization | .dataFileUpload => True
  | .deletionVectorWrite => NoDataFiles payload
  | .cacheAccess _ => False
  | .fileIndexWrite => NoDataFiles payload ∧ NoDeletions payload
  | .commit => NoDataFiles payload ∧ NoDeletions payload ∧ NoFileIndices payload

theorem mem_of_lookup_eq {α β : Type} [DecidableEq α] {t t' : AssocMap α β} {a : α}
    (h : t'.lookup a = t.lookup a) (hmem : a ∈ t') : a ∈ t := by
  rw [← AList.lookup_isSome] at hmem ⊢
  rwa [← h]

theorem Adds.not_asBefore (h : m.Adds m') : ¬ m.AsBefore m' := by
  intro hsame
  cases h with
  | dataFile f hnew hmem => exact hnew (mem_of_lookup_eq (hsame.persistedDataFiles f) hmem)
  | dataFileToRemove path hnew hmem => exact hnew ((hsame.dataFilesToRemove path).mp hmem)
  | deletionVectorBlob path hnew hmem =>
    exact hnew (mem_of_lookup_eq (hsame.deletionVectorBlobsToAdd path) hmem)
  | fileIndexBlob path hnew hmem =>
    exact hnew (mem_of_lookup_eq (hsame.fileIndexBlobsToAdd path) hmem)
  | puffinBlobToRemove path hnew hmem => exact hnew ((hsame.puffinBlobsToRemove path).mp hmem)

theorem Does.asBefore_iff {nothing : Prop} (h : Does nothing m m') : m.AsBefore m' ↔ nothing := by
  obtain ⟨hnothing, rfl⟩ | ⟨hdone, hadds⟩ := h
  · exact iff_of_true (.refl _) hnothing
  · exact iff_of_false hadds.not_asBefore hdone

/-! ## Data files -/

/-- A new file that is not removed is persisted. -/
theorem importDataFile_mem (files : AssocMap FileId (DataFileEntry Row)) (new : List (DataFile Row)) :
    Ensures (new.foldlM IcebergTableManager.importDataFile files) fun files' =>
      ∀ file ∈ new, file.fileId ∈ files' := by
  refine .foldlM (I := fun (done : List (DataFile Row)) files' => ∀ file ∈ done, file.fileId ∈ files') (by simp) ?_
  intro done file rest files₁ _ hdone
  refine .bind_any fun _ => .pure fun file' hfile' => ?_
  rw [AList.mem_insert]
  rcases List.mem_append.mp hfile' with hold | hlast
  · exact .inr (hdone file' hold)
  · exact .inl (by rw [List.mem_singleton.mp hlast])

theorem removeDataFile_mem (files : AssocMap FileId (DataFileEntry Row)) (old : List FileId) :
    Ensures (old.foldlM IcebergTableManager.removeDataFile files) fun files' =>
      ∀ f ∈ files, f ∉ old → f ∈ files' := by
  refine .foldlM (I := fun done files' => ∀ f ∈ files, f ∉ done → f ∈ files') (fun _ h _ => h) ?_
  intro done fileId rest files₁ _ hdone
  refine .bind_any fun _ => .pure fun f hf hnot => ?_
  simp only [List.mem_append, List.mem_singleton, not_or] at hnot
  exact AList.mem_erase.mpr ⟨hnot.2, hdone f hf hnot.1⟩

theorem syncDataFiles_mem (files : AssocMap FileId (DataFileEntry Row)) (new : List (DataFile Row))
    (old : List FileId) (remap : DataFileRemap) :
    Ensures (IcebergTableManager.syncDataFiles files new old remap) fun res =>
      ∀ file ∈ new, file.fileId ∉ old → file.fileId ∈ res.1 := by
  unfold IcebergTableManager.syncDataFiles
  split
  · rename_i hempty
    simp only [Bool.and_eq_true, List.isEmpty_iff] at hempty
    exact .ok fun file hfile => by simp [hempty.1] at hfile
  · refine .bind (importDataFile_mem files new) fun files₁ himported => .bind_any fun _ => ?_
    refine .bind (removeDataFile_mem files₁ old) fun files₂ hkept => ?_
    exact .pure fun file hfile hnot => hkept _ (himported file hfile) hnot

/-- Recording paths leaves the entries and the buffered updates. -/
theorem recordRemotePath_ensures (m : TableSyncer Row Path) (new : List (DataFile Row)) :
    Ensures (new.foldlM (recordRemotePath paths) m) fun m' =>
      m'.persistedDataFiles = m.persistedDataFiles ∧ m'.catalog = m.catalog := by
  refine .foldlM (I := fun _ (m' : TableSyncer Row Path) =>
    m'.persistedDataFiles = m.persistedDataFiles ∧ m'.catalog = m.catalog) ⟨rfl, rfl⟩ ?_
  intro done file rest m₁ _ hdone
  exact .bind_any fun _ => .pure hdone

theorem removeRemotePath_ensures (m : TableSyncer Row Path) (old : List FileId) :
    Ensures (old.foldlM removeRemotePath (m, [])) fun acc =>
      acc.1.persistedDataFiles = m.persistedDataFiles ∧ acc.1.catalog = m.catalog ∧
        acc.2.length = old.length := by
  refine .foldlM (I := fun done (acc : TableSyncer Row Path × List Path) =>
    acc.1.persistedDataFiles = m.persistedDataFiles ∧ acc.1.catalog = m.catalog ∧
      acc.2.length = done.length) ⟨rfl, rfl, rfl⟩ ?_
  intro done fileId rest acc _ ⟨hfiles, hcatalog, hlength⟩
  unfold removeRemotePath
  split
  · exact .error
  · exact .bind_any fun _ => .pure ⟨hfiles, hcatalog, by simp [hlength]⟩

/-- Importing or removing data files leaves a new entry, or a removal that is buffered. -/
theorem importDataFiles_adds {payload : PersistenceSnapshotPayload Row} {remap : DataFileRemap}
    (haccepts : m.accepts payload = true) (hsome : ¬ NoDataFiles payload) :
    Ensures (m.importDataFiles paths payload.dataFilesToImport payload.compactedDataFilesToRemove remap)
      fun r => m.Adds r.2 := by
  simp only [accepts, Bool.and_eq_true, List.all_eq_true, Option.isNone_iff_eq_none] at haccepts
  obtain ⟨hnew, hold⟩ := haccepts
  refine .bind (syncDataFiles_mem _ _ _ _) fun ⟨files, remapped⟩ hmem => ?_
  refine .bind (recordRemotePath_ensures _ _) fun m₁ ⟨hfiles₁, hcatalog₁⟩ => ?_
  refine .bind (removeRemotePath_ensures _ _) fun ⟨m₂, removed⟩ ⟨hfiles₂, hcatalog₂, hlength⟩ => ?_
  refine .bind (setDataFilesToRemove_ensures _ _) fun u ⟨hnone, hu⟩ => .pure ?_
  cases hfiles : payload.dataFilesToImport with
  | cons file rest =>
    have hfile : file ∈ payload.dataFilesToImport := by simp [hfiles]
    have hnotOld : file.fileId ∉ payload.compactedDataFilesToRemove := fun hin => by
      have hpersisted := hold _ hin
      rw [hnew file hfile] at hpersisted
      cases hpersisted
    refine .dataFile file.fileId (AList.lookup_eq_none.mp (hnew file hfile)) ?_
    have hin : file.fileId ∈ files := hmem file hfile hnotOld
    have heq : m₂.persistedDataFiles = files := hfiles₂.trans hfiles₁
    exact heq ▸ hin
  | nil =>
    have hremoved : removed ≠ [] := fun heq => hsome ⟨hfiles, by
      rw [← List.length_eq_zero_iff, ← hlength, heq]
      rfl⟩
    obtain ⟨path, hpath⟩ := List.exists_mem_of_ne_nil _ hremoved
    rw [hcatalog₂, hcatalog₁] at hnone
    have hnone : m.catalog.dataFilesToRemove = [] := hnone
    exact .dataFileToRemove path (by simp [hnone]) (by simpa [hu] using hpath)

/-- The first part of a sync that can change anything. -/
theorem syncDataFiles_leaves {payload : PersistenceSnapshotPayload Row} {remap : DataFileRemap}
    (haccepts : m.accepts payload = true) :
    (syncDataFiles paths failure payload.dataFilesToImport payload.compactedDataFilesToRemove remap).Leaves
      m (fun remapped m' => Does (NoDataFiles payload) m m' ∧ (NoDataFiles payload → remapped = ∅))
      fun m' => failure = some .dataFileUpload ∧ m' = m := by
  unfold syncDataFiles
  split
  · rename_i hempty
    simp only [Bool.and_eq_true, List.isEmpty_iff] at hempty
    exact .pure ⟨.inl ⟨hempty, rfl⟩, fun _ => rfl⟩
  · rename_i hsome
    have hsome : ¬ NoDataFiles payload := by simpa [NoDataFiles] using hsome
    refine .bind (mayFail_leaves m) ?_
    rintro _ m rfl
    refine .get_bind ?_
    refine .bind (P := fun r _ => m.Adds r.2) (.lift (importDataFiles_adds haccepts hsome)) ?_
    rintro ⟨remapped, m₁⟩ _ hadds
    refine .set_bind ?_
    exact .pure ⟨.inr ⟨hsome, hadds⟩, fun hnone => (hsome hnone).elim⟩

/-! ## Deletion vectors -/

/-- Recording a vector buffers its blob. -/
theorem recordDeletionVector_ensures (m : TableSyncer Row Path) (blob : PreparedDeletionVectorBlob Row) :
    Ensures (m.recordDeletionVector paths blob) fun m' => m.Grows m' ∧ m.Adds m' := by
  unfold recordDeletionVector
  split
  · exact .error
  · intro m' hok
    obtain ⟨u, hrecord, hok⟩ := bind_eq_ok.mp hok
    obtain ⟨_, hassert, hrecord⟩ := bind_eq_ok.mp hrecord
    cases hrecord
    cases hok
    have hfresh : paths.deletionVector blob.fileId ∉ m.catalog.deletionVectorBlobsToAdd :=
      AList.lookup_eq_none.mp (Option.isNone_iff_eq_none.mp (StoragePanic.of_assert hassert))
    exact ⟨{ Grows.refl m with
        deletionVectorBlobs := fun path hpath => (AList.mem_insert _).mpr (.inr hpath) },
      .deletionVectorBlob _ hfresh ((AList.mem_insert _).mpr (.inl rfl))⟩

theorem recordDeletionVectors_ensures (m : TableSyncer Row Path)
    {vectors : AssocMap FileId BatchDeletionVector} (hsome : vectors.entries ≠ []) :
    Ensures (m.recordDeletionVectors paths vectors) fun r => m.Grows r.2 ∧ m.Adds r.2 := by
  refine .bind (Ensures.mapM (R := fun _ _ => True) fun _ _ _ _ => trivial) fun prepared hprepared => ?_
  have hblobs : prepared ≠ [] := fun heq => hsome (by
    rw [heq] at hprepared
    exact List.forall₂_nil_right_iff.mp hprepared)
  refine .bind (P := fun m' => m.Grows m' ∧ m.Adds m') ?_ fun m' hm' => .pure hm'
  refine Ensures.mono (P := fun m' => m.Grows m' ∧ (prepared ≠ [] → m.Adds m')) ?_
    fun m' hm' => ⟨hm'.1, hm'.2 hblobs⟩
  refine .foldlM (I := fun done m' => m.Grows m' ∧ (done ≠ [] → m.Adds m')) ⟨.refl m, fun hne => (hne rfl).elim⟩ ?_
  intro done blob rest m₁ _ hdone
  exact (recordDeletionVector_ensures m₁ blob).mono fun m₂ ⟨hgrows, hadds⟩ =>
    ⟨hdone.1.trans hgrows, fun _ => hadds.of_grows hdone.1⟩

/-- An access to the cache that fails is after the blobs were recorded. -/
theorem syncDeletionVector_leaves (m : TableSyncer Row Path)
    (vectors : AssocMap FileId BatchDeletionVector) :
    (syncDeletionVector paths failure vectors).Leaves m
      (fun _ m' => Does (vectors.entries = []) m m' ∧ m.Grows m')
      fun m' => (failure = some .deletionVectorWrite ∧ m' = m) ∨
        ∃ finalized, failure = some (.cacheAccess finalized) ∧ m.Adds m' ∧ m.Grows m' := by
  unfold syncDeletionVector
  split
  · rename_i hnone
    exact .pure ⟨.inl ⟨List.isEmpty_iff.mp hnone, rfl⟩, .refl m⟩
  · rename_i hsome
    have hsome : vectors.entries ≠ [] := fun heq => hsome (List.isEmpty_iff.mpr heq)
    refine .bind ((mayFail_leaves m).mono (fun _ _ h => h) fun m' h => .inl h) ?_
    rintro _ m rfl
    refine .get_bind ?_
    refine .bind (P := fun r _ => m.Grows r.2 ∧ m.Adds r.2)
      (.lift (recordDeletionVectors_ensures m hsome)) ?_
    rintro ⟨prepared, m₁⟩ _ ⟨hgrows, hadds⟩
    refine .set_bind ?_
    unfold finalizeDeletionVectors
    refine .get_bind ?_
    split
    · rename_i finalized
      refine .bind (P := fun _ m₂ => m₁.Grows m₂) (.set (grows_finalizeDeletionVectors _ _)) ?_
      exact fun _ m₂ hfinal => .fail (.inr ⟨finalized, rfl, hadds.grows hfinal, hgrows.trans hfinal⟩)
    · have hfinal := grows_finalizeDeletionVectors m₁ prepared
      exact .set ⟨.inr ⟨hsome, hadds.grows hfinal⟩, hgrows.trans hfinal⟩

/-! ## File indices -/

theorem importFileIndex_ensures (m : TableSyncer Row Path) (index : FileIndex) :
    Ensures (m.importFileIndex paths index) fun m' => m.Grows m' ∧ m.Adds m' := by
  intro m' hok
  obtain ⟨_, -, hok⟩ := bind_eq_ok.mp hok
  obtain ⟨u, hrecord, hok⟩ := bind_eq_ok.mp hok
  obtain ⟨_, hassert, hrecord⟩ := bind_eq_ok.mp hrecord
  cases hrecord
  cases hok
  have hfresh : paths.fileIndex index ∉ m.catalog.fileIndexBlobsToAdd :=
    AList.lookup_eq_none.mp (Option.isNone_iff_eq_none.mp (StoragePanic.of_assert hassert))
  exact ⟨{ Grows.refl m with
      fileIndexBlobs := fun path hpath => (AList.mem_insert _).mpr (.inr hpath) },
    .fileIndexBlob _ hfresh ((AList.mem_insert _).mpr (.inl rfl))⟩

theorem importFileIndices_ensures (m : TableSyncer Row Path) (new old : List FileIndex) :
    Ensures (m.importFileIndices paths new old) fun m' =>
      m.Grows m' ∧ (¬ (new = [] ∧ old = []) → m.Adds m') := by
  refine .bind (P := fun m' => m.Grows m' ∧ (new ≠ [] → m.Adds m')) ?_ fun m₁ ⟨hgrows, hadds⟩ => ?_
  · refine .foldlM (I := fun done m' => m.Grows m' ∧ (done ≠ [] → m.Adds m'))
      ⟨.refl m, fun hne => (hne rfl).elim⟩ ?_
    intro done index rest m₁ _ hdone
    exact (importFileIndex_ensures m₁ index).mono fun m₂ ⟨hgrows, hadds⟩ =>
      ⟨hdone.1.trans hgrows, fun _ => hadds.of_grows hdone.1⟩
  · refine .bind (removeFileIndex_ensures m₁ old) fun ⟨m₂, removed⟩ ⟨hfiles, hcatalog, hlength⟩ => ?_
    intro m₃ hok
    obtain ⟨u, hset, hok⟩ := bind_eq_ok.mp hok
    obtain ⟨_, hassert, hset⟩ := bind_eq_ok.mp hset
    cases hset
    cases hok
    have hnone : m₁.catalog.puffinBlobsToRemove = [] :=
      hcatalog ▸ List.isEmpty_iff.mp (StoragePanic.of_assert hassert)
    have hcatalog : m₂.catalog = m₁.catalog := hcatalog
    have hlast : m₁.Grows { m₂ with catalog := { m₂.catalog with puffinBlobsToRemove := removed } } :=
      grows_of_removals hfiles (by rw [hcatalog]) hnone
    refine ⟨hgrows.trans hlast, fun hsome => ?_⟩
    by_cases hnew : new = []
    · have hremoved : removed ≠ [] := fun heq => hsome ⟨hnew, by
        rw [← List.length_eq_zero_iff, ← hlength, heq]
        rfl⟩
      obtain ⟨path, hpath⟩ := List.exists_mem_of_ne_nil _ hremoved
      exact Adds.of_grows (.puffinBlobToRemove path (by simp [hnone]) hpath) hgrows
    · exact (hadds hnew).grows hlast

theorem syncFileIndices_leaves (m : TableSyncer Row Path) (new old : List FileIndex) :
    (syncFileIndices paths failure new old).Leaves m
      (fun _ m' => Does (new = [] ∧ old = []) m m' ∧ m.Grows m')
      fun m' => failure = some .fileIndexWrite ∧ m' = m := by
  unfold syncFileIndices
  split
  · rename_i hnone
    simp only [Bool.and_eq_true, List.isEmpty_iff] at hnone
    exact .pure ⟨.inl ⟨hnone, rfl⟩, .refl m⟩
  · rename_i hsome
    have hsome : ¬ (new = [] ∧ old = []) := by simpa using hsome
    refine .bind (mayFail_leaves m) ?_
    rintro _ m rfl
    refine .get_bind ?_
    refine .bind (P := fun m₁ _ => m.Grows m₁ ∧ m.Adds m₁)
      (.lift ((importFileIndices_ensures m new old).mono fun m₁ hm₁ => ⟨hm₁.1, hm₁.2 hsome⟩)) ?_
    exact fun m₁ _ ⟨hgrows, hadds⟩ => .set ⟨.inr ⟨hsome, hadds⟩, hgrows⟩

/-! ## The sync -/

/-- A failed sync leaves maps and buffered updates as before, and later syncs with the same
outcomes, exactly if the payload is rejected or nothing was done before the failure. -/
theorem failed_sync_asBefore_iff (m : TableSyncer Row Path) (paths : RemotePaths Path)
    (failure : Option SyncFailure) (payload : PersistenceSnapshotPayload Row) :
    (syncSnapshotImpl paths failure payload).Leaves m (fun _ _ => True) fun m' =>
      m.AsBefore m' ↔ m.accepts payload = false ∨ ∀ f ∈ failure, NothingDone payload f := by
  suffices h : (syncSnapshotImpl paths failure payload).Leaves m (fun _ _ => True)
      (Does (m.accepts payload = false ∨ ∀ f ∈ failure, NothingDone payload f) m) from
    h.mono (fun _ _ h => h) fun m' hm' => hm'.asBefore_iff
  unfold syncSnapshotImpl
  refine .bind ((mayFail_leaves m).mono (fun _ _ h => h) ?_) ?_
  · rintro _ ⟨rfl, rfl⟩
    exact .inl ⟨.inr (by simp [NothingDone]), rfl⟩
  rintro _ m rfl
  refine .get_bind ?_
  refine .bind (P := fun _ m' => m.accepts payload = true ∧ m' = m) (.failIf (fun hrejects => ?_)
    fun haccepts => ⟨by simpa using haccepts, rfl⟩) ?_
  · exact .inl ⟨.inl (by simpa using hrejects), rfl⟩
  rintro _ m ⟨haccepts, rfl⟩
  have hwhen (nothing : Prop) (hnothing : (∀ f ∈ failure, NothingDone payload f) ↔ nothing) :
      nothing ↔ m.accepts payload = false ∨ ∀ f ∈ failure, NothingDone payload f := by
    rw [haccepts, hnothing]
    simp
  refine .bind ((syncDataFiles_leaves haccepts).mono (fun _ _ h => h) ?_) ?_
  · rintro _ ⟨rfl, rfl⟩
    exact .inl ⟨.inr (by simp [NothingDone]), rfl⟩
  rintro remapped m₁ ⟨hdata, hremapped⟩
  refine .bind (P := fun vectors m' => m' = m₁ ∧
    (NoDataFiles payload → vectors = payload.newDeletionVector)) (.lift ?_) ?_
  · intro vectors hvectors
    refine ⟨rfl, fun hnone => ?_⟩
    rw [hremapped hnone] at hvectors
    cases hvectors
    rfl
  rintro vectors m₁ ⟨rfl, hvectors⟩
  refine .bind ((syncDeletionVector_leaves m₁ vectors).mono (fun _ _ h => h) ?_) ?_
  · rintro m' (⟨rfl, rfl⟩ | ⟨finalized, rfl, hadds, hgrows⟩)
    · exact hdata.congr (hwhen _ (by simp [NothingDone]))
    · have hdoes : Does False m₁ m' := .inr ⟨id, hadds⟩
      exact (hdata.trans hdoes hgrows).congr (hwhen _ (by simp [NothingDone]))
  rintro _ m₂ ⟨hdeletions, hgrows⟩
  have hdone : Does (NoDataFiles payload ∧ NoDeletions payload) m m₂ :=
    (hdata.trans hdeletions hgrows).congr (and_congr_right fun hnone => by rw [hvectors hnone, NoDeletions])
  refine .bind ((syncFileIndices_leaves m₂ _ _).mono (fun _ _ h => h) ?_) ?_
  · rintro _ ⟨rfl, rfl⟩
    exact hdone.congr (hwhen _ (by simp [NothingDone]))
  rintro _ m₃ ⟨hindices, hgrows⟩
  have hdone := hdone.trans hindices hgrows
  refine .bind ((mayFail_leaves m₃).mono (fun _ _ h => h) ?_) ?_
  · rintro _ ⟨rfl, rfl⟩
    exact hdone.congr (hwhen _ (by simp [NothingDone, NoFileIndices, and_assoc]))
  rintro _ m₃ rfl
  exact .get_bind (.set trivial)

/-- The manager of a new table. -/
def init : TableSyncer Row Path := ⟨∅, ∅, ∅, ∅, .empty, []⟩

/-- Paths that are used in no other attempt. -/
def attemptPaths (attempt : Nat) : RemotePaths Nat where
  dataFile f := 10 * f + attempt
  deletionVector f := 1000 * f + attempt
  fileIndex i := 10 * i.id + attempt

def emptyPayload : PersistenceSnapshotPayload Row where
  flushLsn := 5
  committedDeletionLogs := []
  newDeletionVector := ∅
  dataFiles := []
  fileIndices := []
  mergedFileIndicesToAdd := []
  mergedFileIndicesToRemove := []
  compactedDataFilesToAdd := []
  compactedDataFilesToRemove := []
  compactedFileIndicesToAdd := []
  compactedFileIndicesToRemove := []
  dataFileRecordsRemap := ∅

/-- After a commit that failed, the same payload is rejected. The deletions of a payload that
failed are in the next commit, even if that has none. -/
theorem failed_commit_leaves_updates :
    Returns (syncSnapshotImpl (attemptPaths 0) (some .commit)
      { emptyPayload with dataFiles := [⟨1, [7]⟩] } init) (fun failed =>
        Returns (syncSnapshotImpl (attemptPaths 1) none
          { emptyPayload with dataFiles := [⟨1, [7]⟩] } failed.2) fun retried =>
            retried.1 = .error .preconditionFailed) ∧
    Returns (syncSnapshotImpl (attemptPaths 0) none
      { emptyPayload with dataFiles := [⟨1, [7]⟩] } init) (fun persisted => persisted.1 = .ok () ∧
        Returns (syncSnapshotImpl (attemptPaths 1) (some .commit)
          { emptyPayload with
            newDeletionVector := (∅ : AssocMap _ _).insert 1 (.ofDeletedRows 1 [0]) } persisted.2)
          fun failed => Returns (syncSnapshotImpl (attemptPaths 2) none emptyPayload failed.2)
            fun later => later.1 = .ok () ∧ later.2.table.getLast?.map
              (fun commit => commit.updates.deletionVectorBlobsToAdd.keys) = some [1001]) := by
  decide +kernel

end TableSyncer
end Moonlink.Storage
