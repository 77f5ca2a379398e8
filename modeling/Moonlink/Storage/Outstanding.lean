-- SUMMARY: What is outstanding in a table and its background tasks: file ids that are held, records that are not persisted, and maintenance.
import Moonlink.Storage.TableSystem
import Moonlink.Storage.FileIds
import Moonlink.Storage.SnapshotStages

namespace Moonlink.Storage

open Lib

variable {Row Ident : Type}

/-! ## File ids -/

/-- The id is one of the first `next` ids, alone or in a block. -/
def Allocated (next f : Nat) : Prop :=
  f < next ∧ f < 2 ^ 32 ∨ localFileIdBase ≤ f ∧ f < localFileIdBase + next * numFilesPerFlush

theorem Allocated.mono {next next' : Nat} {f : FileId} (h : Allocated next f) (hle : next ≤ next') :
    Allocated next' f := by
  rcases h with ⟨hlt, h32⟩ | ⟨hbase, hlt⟩
  · exact .inl ⟨hlt.trans_le hle, h32⟩
  · refine .inr ⟨hbase, hlt.trans_le ?_⟩
    exact Nat.add_le_add_left (Nat.mul_le_mul_right _ hle) _

/-- The ids that a compaction may use. -/
def compactionFileIds (params : CompactionFileParams) : List FileId :=
  List.range' (localFileIdBase + params.startId * numFilesPerFlush)
    ((params.endId - params.startId) * numFilesPerFlush)

namespace TableSystem

/-- The ids that outstanding flushes may use. -/
def flushIds (flushes : List (Option Nat × DiskSliceWriter Row Ident)) : List FileId :=
  flushes.flatMap fun flush => flushFileIds flush.2.tableAutoIncrId

/-- The ids of files that are not in the snapshot yet. -/
def heldIds (sys : TableSystem Row Ident) : List FileId :=
  flushIds sys.flushes ++ sys.table.heldIds ++
    (sys.compaction.toList.flatMap fun c => compactionFileIds c.2) ++
    SnapshotTableState.compactedFileIds sys.table.nextSnapshotTask.dataCompactionResult

/-- No id is held twice or was used before. -/
structure IdsOk (used : FileId → Prop) (sys : TableSystem Row Ident) : Prop where
  nodup : sys.heldIds.Nodup
  fresh : ∀ f ∈ sys.heldIds, ¬ used f
  allocated : ∀ f ∈ sys.heldIds, Allocated sys.table.nextFileId f
  used : ∀ f, used f → Allocated sys.table.nextFileId f

/-- Ids that are held afterwards were held before or are new. -/
theorem IdsOk.step {used : FileId → Prop} {sys sys' : TableSystem Row Ident} (h : IdsOk used sys)
    (new : List FileId) (hnodup : new.Nodup)
    (hnew : ∀ f ∈ new, ¬ Allocated sys.table.nextFileId f ∧ Allocated sys'.table.nextFileId f)
    (hnext : sys.table.nextFileId ≤ sys'.table.nextFileId)
    (hcount : ∀ f, sys'.heldIds.count f ≤ sys.heldIds.count f + new.count f) : IdsOk used sys' := by
  have hmem : ∀ f ∈ sys'.heldIds, f ∈ sys.heldIds ∨ f ∈ new := by
    intro f hf
    have hpos := List.count_pos_iff.mpr hf
    have hle := hcount f
    by_cases hf' : f ∈ new
    · exact .inr hf'
    · rw [List.count_eq_zero.mpr hf'] at hle
      exact .inl (List.count_pos_iff.mp (by omega))
  refine ⟨?_, ?_, ?_, fun f hf => (h.used f hf).mono hnext⟩
  · rw [List.nodup_iff_count_le_one]
    intro f
    have hle := hcount f
    by_cases hf : f ∈ new
    · have hzero : sys.heldIds.count f = 0 :=
        List.count_eq_zero.mpr fun hheld => (hnew f hf).1 (h.allocated f hheld)
      have hone := List.nodup_iff_count_le_one.mp hnodup f
      omega
    · have hzero : new.count f = 0 := List.count_eq_zero.mpr hf
      have hone := List.nodup_iff_count_le_one.mp h.nodup f
      omega
  · intro f hf hused
    rcases hmem f hf with hheld | hnew'
    · exact h.fresh f hheld hused
    · exact (hnew f hnew').1 (h.used f hused)
  · intro f hf
    rcases hmem f hf with hheld | hnew'
    · exact (h.allocated f hheld).mono hnext
    · exact (hnew f hnew').2

theorem count_heldIds (sys : TableSystem Row Ident) (f : FileId) :
    sys.heldIds.count f = (flushIds sys.flushes).count f + sys.table.heldIds.count f +
      (sys.compaction.toList.flatMap fun c => compactionFileIds c.2).count f +
      (SnapshotTableState.compactedFileIds
        sys.table.nextSnapshotTask.dataCompactionResult).count f := by
  unfold heldIds
  rw [List.count_append, List.count_append, List.count_append]

variable {used : FileId → Prop} {sys : TableSystem Row Ident} {table : MooncakeTable Row Ident}

/-- A step of the table that holds the ids `new`, of which `alloc` are allocated by it. -/
theorem IdsOk.writes (h : IdsOk used sys) {new : List FileId} (alloc : List FileId)
    (hstep : MooncakeTable.FileStep new sys.table table)
    {flushes : List (Option Nat × DiskSliceWriter Row Ident)}
    (hflush : ∀ f, (flushIds flushes).count f + new.count f ≤
      (flushIds sys.flushes).count f + alloc.count f)
    (hnodup : alloc.Nodup)
    (halloc : ∀ f ∈ alloc, ¬ Allocated sys.table.nextFileId f ∧ Allocated table.nextFileId f) :
    IdsOk used { sys with table, flushes } := by
  refine h.step alloc hnodup halloc hstep.nextFileId fun f => ?_
  rw [count_heldIds, count_heldIds]
  simp only
  rw [hstep.results.dataCompactionResult]
  have hheld := hstep.heldIds f
  have hle := hflush f
  omega

theorem flushFileIds_alloc {next next' : Nat} (hlt : next < next') :
    ∀ f ∈ flushFileIds next, ¬ Allocated next f ∧ Allocated next' f := by
  intro f hf
  unfold flushFileIds numFilesPerFlush at hf
  rw [List.mem_range'_1] at hf
  unfold Allocated numFilesPerFlush
  unfold localFileIdBase at hf ⊢
  omega

theorem range'_alloc {next next' n : Nat} (h32 : next + n < 2 ^ 32) (hnext : next' = next + n) :
    ∀ f ∈ List.range' next n, ¬ Allocated next f ∧ Allocated next' f := by
  intro f hf
  rw [List.mem_range'_1] at hf
  rw [hnext]
  unfold Allocated localFileIdBase
  omega

/-- The files of a flush are held instead of its block. -/
theorem count_flushIds_eraseIdx {flushes : List (Option Nat × DiskSliceWriter Row Ident)} {idx : Nat}
    {flush : Option Nat × DiskSliceWriter Row Ident} (hflush : flushes[idx]? = some flush)
    {ids : List FileId} (hsub : ids.Sublist (flushFileIds flush.2.tableAutoIncrId)) (f : FileId) :
    (flushIds (flushes.eraseIdx idx)).count f + ids.count f ≤ (flushIds flushes).count f := by
  have hperm : flushes.Perm (flush :: flushes.eraseIdx idx) := by
    obtain ⟨hidx, rfl⟩ := List.getElem?_eq_some_iff.mp hflush
    rw [List.eraseIdx_eq_take_drop_succ]
    conv_lhs => rw [← List.take_append_drop idx flushes, List.drop_eq_getElem_cons hidx]
    exact List.perm_middle
  have hcount := (hperm.flatMap_right fun flush => flushFileIds flush.2.tableAutoIncrId).count_eq f
  rw [List.flatMap_cons, List.count_append] at hcount
  have hle := hsub.count_le f
  unfold flushIds
  omega

open SnapshotTableState

theorem takenFileIds_subset {f : FileId} (hf : f ∈ takenFileIds sys.table.nextSnapshotTask) :
    f ∈ sys.heldIds := by
  unfold heldIds MooncakeTable.heldIds
  rcases List.mem_append.mp hf with hnew | hcompacted
  · simp [hnew]
  · simp [hcompacted]

theorem IdsOk.nodup_takenFileIds (h : IdsOk used sys) :
    (takenFileIds sys.table.nextSnapshotTask).Nodup := by
  rw [List.nodup_iff_count_le_one]
  intro f
  have hone := List.nodup_iff_count_le_one.mp h.nodup f
  rw [count_heldIds] at hone
  unfold MooncakeTable.heldIds at hone
  unfold takenFileIds
  rw [List.count_append] at hone ⊢
  omega

/-- The ids that the task holds are used after the snapshot. -/
theorem IdsOk.createSnapshot (h : IdsOk used sys) {sys' : TableSystem Row Ident}
    (hflushes : sys'.flushes = sys.flushes) (hcompaction : sys'.compaction = sys.compaction)
    (hstreams : sys'.table.transactionStreamStates = sys.table.transactionStreamStates)
    (hnext : sys'.table.nextFileId = sys.table.nextFileId)
    (htaken : takenFileIds sys'.table.nextSnapshotTask = []) :
    IdsOk (fun f => used f ∨ f ∈ takenFileIds sys.table.nextSnapshotTask) sys' := by
  have hcount : ∀ f, sys'.heldIds.count f + (takenFileIds sys.table.nextSnapshotTask).count f =
      sys.heldIds.count f := by
    intro f
    have hnone := congrArg (List.count f) htaken
    unfold takenFileIds at hnone ⊢
    rw [List.count_append, List.count_nil] at hnone
    rw [count_heldIds, count_heldIds, hflushes, hcompaction]
    unfold MooncakeTable.heldIds
    rw [hstreams, List.count_append, List.count_append, List.count_append]
    omega
  have hmem : ∀ f ∈ sys'.heldIds, f ∈ sys.heldIds ∧ f ∉ takenFileIds sys.table.nextSnapshotTask := by
    intro f hf
    have hpos := List.count_pos_iff.mpr hf
    have heq := hcount f
    have hone := List.nodup_iff_count_le_one.mp h.nodup f
    exact ⟨List.count_pos_iff.mp (by omega), List.count_eq_zero.mp (by omega)⟩
  refine ⟨?_, ?_, ?_, ?_⟩
  · rw [List.nodup_iff_count_le_one]
    intro f
    have heq := hcount f
    have hone := List.nodup_iff_count_le_one.mp h.nodup f
    omega
  · rintro f hf (hused | htask)
    · exact h.fresh f (hmem f hf).1 hused
    · exact (hmem f hf).2 htask
  · intro f hf
    rw [hnext]
    exact h.allocated f (hmem f hf).1
  · rintro f (hused | htask)
    · rw [hnext]
      exact h.used f hused
    · rw [hnext]
      exact h.allocated f (takenFileIds_subset htask)

variable {payload : DataCompactionPayload Row FileIndex}

/-- A compaction starts, with the next blocks of ids. -/
theorem IdsOk.performDataCompaction (h : IdsOk used sys) (env : TableEnv Row Ident)
    (hcompaction : sys.compaction = none) (hstep : MooncakeTable.FileStep [] sys.table
      { table with nextSnapshotTask := sys.table.nextSnapshotTask })
    (hnext : table.nextFileId = sys.table.nextFileId + payload.getNewCompactedDataFileIdsNumber)
    (htask : table.nextSnapshotTask = { sys.table.nextSnapshotTask with
      compactingDataFiles := payload.diskFiles.map (·.fileId) }) (hlt : table.nextFileId < 2 ^ 32) :
    IdsOk used { sys with
      table
      compaction := some (payload, ⟨sys.table.nextFileId, table.nextFileId, env.dataFileFinalSize, hlt⟩)
      maintenance := .inProcess } := by
  refine h.step (compactionFileIds
    ⟨sys.table.nextFileId, table.nextFileId, env.dataFileFinalSize, hlt⟩) List.nodup_range' ?_
    (by simp [hnext]) fun f => ?_
  · intro f hf
    unfold compactionFileIds numFilesPerFlush at hf
    rw [List.mem_range'_1] at hf
    simp only [hnext] at hf ⊢
    unfold Allocated numFilesPerFlush
    unfold localFileIdBase at hf ⊢
    omega
  · have hheld := hstep.heldIds f
    rw [count_heldIds, count_heldIds, hcompaction]
    unfold MooncakeTable.heldIds SnapshotTask.newFileIds at hheld ⊢
    simp only [htask] at hheld ⊢
    simp only [Option.toList_none, Option.toList_some, List.flatMap_nil, List.flatMap_singleton,
      List.count_nil] at hheld ⊢
    omega

/-- The new files have the first ids of the block. -/
theorem compactedFileIds_sublist
    {params : CompactionFileParams} {result : DataCompactionResult Row FileIndex}
    (hbuilt : Built payload params result)
    (hids : params.endId = params.startId + payload.getNewCompactedDataFileIdsNumber) :
    (compactedFileIds (some result)).Sublist (compactionFileIds params) := by
  have hrange : compactedFileIds (some result) =
      List.range' (localFileIdBase + params.startId * numFilesPerFlush) result.newDataFiles.length := by
    rw [List.range'_eq_map_range]
    exact hbuilt.ids
  rw [hrange]
  refine List.range'_sublist_right.mpr ?_
  have hcount := hbuilt.count
  rw [hids]
  unfold numFilesPerFlush
  omega

/-- The files of a compaction are held instead of its blocks. -/
theorem IdsOk.dataCompactionResult (h : IdsOk used sys)
    {params : CompactionFileParams} (hcompaction : sys.compaction = some (payload, params))
    (hnone : sys.table.nextSnapshotTask.dataCompactionResult = none)
    {result : DataCompactionResult Row FileIndex} (hbuilt : Built payload params result)
    (hids : params.endId = params.startId + payload.getNewCompactedDataFileIdsNumber) :
    IdsOk used { sys with
      table := { sys.table with nextSnapshotTask :=
        { sys.table.nextSnapshotTask with dataCompactionResult := some result } }
      compaction := none
      maintenance := .readyToPersist } := by
  refine h.step [] List.nodup_nil nofun le_rfl fun f => ?_
  have hle := (compactedFileIds_sublist hbuilt hids).count_le f
  rw [count_heldIds, count_heldIds, hcompaction, hnone]
  simp only [Option.toList_none, Option.toList_some, List.flatMap_nil, List.flatMap_singleton,
    List.count_nil]
  change _ + sys.table.heldIds.count f + _ + _ ≤ _
  omega

end TableSystem

/-! ## Records that are not persisted -/

/-- What is buffered for persistence; `logs` are the deletions that are being persisted. -/
structure UnpersistedRecords.Ok (used : FileId → Prop) (m : AssocMap FileId (DataFileEntry Row))
    (logs : List (FileId × Nat)) (files : DiskFiles Row) (U : UnpersistedRecords Row) : Prop where
  added : ∀ file ∈ U.newDataFiles ++ U.compactedDataFilesToAdd, used file.fileId
  removed : ∀ f ∈ U.compactedDataFilesToRemove, used f ∧ f ∉ files
  remap : ∀ location ∈ U.compactedDataFileRemap, ∃ f r, location = .diskFile f r ∧ used f ∧ f ∉ files ∧
    ¬ IcebergTableManager.Deleted m f r ∧ (f, r) ∉ logs

/-- A payload that is being persisted. -/
structure PersistenceSnapshotPayload.Ok (used : FileId → Prop) (m : AssocMap FileId (DataFileEntry Row))
    (files : DiskFiles Row) (p : PersistenceSnapshotPayload Row) : Prop where
  vectors : p.VectorsMatch
  added : ∀ file ∈ p.dataFilesToImport, used file.fileId
  removed : ∀ f ∈ p.compactedDataFilesToRemove, used f ∧ f ∉ files
  remap : ∀ f r, IcebergTableManager.Deleted m f r → RecordLocation.diskFile f r ∉ p.dataFileRecordsRemap
  logs : ∀ f r, (f, r) ∈ p.committedDeletionLogs → used f ∧ (f ∈ files → files.Deleted f r)

variable {p : PersistenceSnapshotPayload Row}

theorem PersistenceSnapshotPayload.Ok.evolves {used used' : FileId → Prop}
    {m : AssocMap FileId (DataFileEntry Row)} {R R' : DeletionRecords Row}
    (h : p.Ok used m R.files) (hevolves : R.Evolves used R')
    (himp : ∀ f, used f → used' f) : p.Ok used' m R'.files where
  vectors := h.vectors
  added file hfile := himp _ (h.added file hfile)
  removed f hf := ⟨himp f (h.removed f hf).1, fun hmem =>
    (h.removed f hf).2 (hevolves.mem f hmem (h.removed f hf).1)⟩
  remap := h.remap
  logs f r hlog := by
    obtain ⟨hused, hdel⟩ := h.logs f r hlog
    exact ⟨himp f hused, fun hmem => hevolves.deleted f r hmem hused (hdel (hevolves.mem f hmem hused))⟩

/-- The first records of each kind are dropped, as many as were persisted. -/
structure UnpersistedRecords.PrunedTo (persisted : Option PersistedRecords)
    (U U' : UnpersistedRecords Row) : Prop where
  newDataFiles : ∀ file ∈ U'.newDataFiles, file ∈ U.newDataFiles
  mergedToAdd : U'.mergedFileIndicesToAdd =
    U.mergedFileIndicesToAdd.drop ((persisted.map (·.mergedFileIndicesAdded.length)).getD 0)
  mergedToRemove : U'.mergedFileIndicesToRemove =
    U.mergedFileIndicesToRemove.drop ((persisted.map (·.mergedFileIndicesRemoved.length)).getD 0)
  compactedToAdd : U'.compactedDataFilesToAdd =
    U.compactedDataFilesToAdd.drop ((persisted.map (·.compactedDataFilesAdded.length)).getD 0)
  compactedToRemove : U'.compactedDataFilesToRemove =
    U.compactedDataFilesToRemove.drop ((persisted.map (·.compactedDataFilesRemoved.length)).getD 0)
  remap : ∀ location ∈ U'.compactedDataFileRemap, location ∈ U.compactedDataFileRemap

namespace UnpersistedRecords

theorem prune_ensures {α β : Type} (buffered : List α) (persisted : List β) :
    Ensures (prune buffered persisted) (· = buffered.drop persisted.length) :=
  .bind_any fun _ => .pure rfl

theorem prunePersistedRecords_ensures (U : UnpersistedRecords Row) (persisted : Option PersistedRecords) :
    Ensures (U.prunePersistedRecords persisted) (PrunedTo persisted U) := by
  cases persisted with
  | none => exact .ok ⟨fun _ h => h, rfl, rfl, rfl, rfl, fun _ h => h⟩
  | some res =>
    refine .bind (prune_ensures _ _) fun newDataFiles hnew => ?_
    refine .bind_any fun _ => .bind (prune_ensures _ _) fun _ hmergedRemove => ?_
    refine .bind (prune_ensures _ _) fun _ hmergedAdd => ?_
    refine .bind (prune_ensures _ _) fun _ hadd => .bind (prune_ensures _ _) fun _ hremove => ?_
    refine .bind_any fun _ => .bind_any fun _ => ?_
    refine .bind (P := fun remap => ∀ location ∈ remap, location ∈ U.compactedDataFileRemap) ?_ ?_
    · unfold pruneRemap
      split
      · exact .ok fun _ h => h
      · exact .bind_any fun _ => .pure nofun
    · intro remap hremap
      refine .pure ⟨?_, hmergedAdd, hmergedRemove, hadd, hremove, hremap⟩
      intro file hfile
      rw [hnew] at hfile
      exact List.mem_of_mem_drop hfile

/-- What a task adds to the records; the map of a compaction is that of the result. -/
structure BufferedTo (task : SnapshotTask Row Ident) (U U' : UnpersistedRecords Row) : Prop where
  newDataFiles : U'.newDataFiles = U.newDataFiles ++ task.getNewDataFiles
  mergedToAdd : U'.mergedFileIndicesToAdd =
    U.mergedFileIndicesToAdd ++ task.indexMergeResult.newFileIndices
  mergedToRemove : U'.mergedFileIndicesToRemove =
    U.mergedFileIndicesToRemove ++ task.indexMergeResult.oldFileIndices
  compactedToAdd : U'.compactedDataFilesToAdd = U.compactedDataFilesToAdd ++
    ((task.dataCompactionResult.map fun r =>
      r.newDataFiles.map fun f => (⟨f.1.fileId, f.1.batches.flatten⟩ : DataFile Row)).getD [])
  compactedToRemove : U'.compactedDataFilesToRemove = U.compactedDataFilesToRemove ++
    (task.dataCompactionResult.map (·.oldDataFiles)).getD []
  remap : U'.compactedDataFileRemap =
    (task.dataCompactionResult.map (·.remappedDataFiles)).getD U.compactedDataFileRemap

theorem bufferUnpersistedRecords_ensures (U : UnpersistedRecords Row) (task : SnapshotTask Row Ident) :
    Ensures (U.bufferUnpersistedRecords task) (BufferedTo task U) := by
  unfold bufferUnpersistedRecords
  cases hresult : task.dataCompactionResult with
  | none => exact .ok ⟨rfl, rfl, rfl, by simp [hresult], by simp [hresult], by simp [hresult]⟩
  | some result =>
    exact .bind_any fun _ => .pure
      ⟨rfl, rfl, rfl, by simp [hresult], by simp [hresult], by simp [hresult]⟩

/-- The task of a table is taken for a snapshot with the LSNs of its flushes. -/
theorem bufferUnpersistedRecords_taken {table : MooncakeTable Row Ident} {U U' : UnpersistedRecords Row}
    {result : Option (DataCompactionResult Row FileIndex)}
    (h : U.bufferUnpersistedRecords { table.takeSnapshotTask.1 with dataCompactionResult := result } = .ok U') :
    BufferedTo { table.nextSnapshotTask with dataCompactionResult := result } U U' :=
  { bufferUnpersistedRecords_ensures _ _ _ h with }

open SnapshotTableState in
/-- The records after an update of the snapshot. -/
theorem Ok.update {used : FileId → Prop} {m : AssocMap FileId (DataFileEntry Row)}
    {logs : List (FileId × Nat)} {R R' : DeletionRecords Row} {U U₁ U' : UnpersistedRecords Row}
    {task : SnapshotTask Row Ident} {result : Option (DataCompactionResult Row FileIndex)}
    (h : U.Ok used m logs R.files) (hok : SnapshotOk used m R)
    (hlogs : ∀ f r, (f, r) ∈ logs → f ∈ R.files → R.files.Deleted f r)
    (hevolves : R.Evolves used R') (htaken : ResultTaken R R' task.dataCompactionResult result)
    (hpruned : PrunedTo task.persistedRecords U U₁)
    (hbuffered : BufferedTo { task with dataCompactionResult := result } U₁ U') :
    U'.Ok (fun f => used f ∨ f ∈ takenFileIds task) m logs R'.files := by
  -- What was there before the task.
  have hadded : ∀ file ∈ U₁.newDataFiles ++ U₁.compactedDataFilesToAdd, used file.fileId := by
    intro file hfile
    rcases List.mem_append.mp hfile with hnew | hcompacted
    · exact h.added file (List.mem_append_left _ (hpruned.newDataFiles file hnew))
    · rw [hpruned.compactedToAdd] at hcompacted
      exact h.added file (List.mem_append_right _ (List.mem_of_mem_drop hcompacted))
  have hremoved : ∀ f ∈ U₁.compactedDataFilesToRemove, used f ∧ f ∉ R'.files := by
    intro f hf
    rw [hpruned.compactedToRemove] at hf
    obtain ⟨hused, hnot⟩ := h.removed f (List.mem_of_mem_drop hf)
    exact ⟨hused, fun hmem => hnot (hevolves.mem f hmem hused)⟩
  have hremap : ∀ location ∈ U₁.compactedDataFileRemap, ∃ f r, location = .diskFile f r ∧
      (used f ∨ f ∈ takenFileIds task) ∧ f ∉ R'.files ∧ ¬ IcebergTableManager.Deleted m f r ∧
        (f, r) ∉ logs := by
    intro location hloc
    obtain ⟨f, r, heq, hused, hnot, hrest⟩ := h.remap location (hpruned.remap location hloc)
    exact ⟨f, r, heq, .inl hused, fun hmem => hnot (hevolves.mem f hmem hused), hrest⟩
  have hnew : ∀ file ∈ task.getNewDataFiles, file.fileId ∈ takenFileIds task := by
    intro file hfile
    refine List.mem_append_left _ ?_
    rw [← task.map_getNewDataFiles]
    exact List.mem_map_of_mem hfile
  have hU' : U'.newDataFiles = U₁.newDataFiles ++ task.getNewDataFiles := hbuffered.newDataFiles
  generalize hresult : task.dataCompactionResult = before at htaken
  cases htaken with
  | none =>
    have hcompacted : U'.compactedDataFilesToAdd = U₁.compactedDataFilesToAdd := by
      simpa using hbuffered.compactedToAdd
    have hgone : U'.compactedDataFilesToRemove = U₁.compactedDataFilesToRemove := by
      simpa using hbuffered.compactedToRemove
    have hmap : U'.compactedDataFileRemap = U₁.compactedDataFileRemap := hbuffered.remap
    refine ⟨?_, ?_, ?_⟩
    · intro file hfile
      rw [hU', hcompacted, List.mem_append, List.mem_append] at hfile
      rcases hfile with (hold | htask) | hold
      · exact .inl (hadded file (List.mem_append_left _ hold))
      · exact .inr (hnew file htask)
      · exact .inl (hadded file (List.mem_append_right _ hold))
    · intro f hf
      rw [hgone] at hf
      exact ⟨.inl (hremoved f hf).1, (hremoved f hf).2⟩
    · intro location hloc
      rw [hmap] at hloc
      exact hremap location hloc
  | @some result remap old left =>
    have hcompacted : U'.compactedDataFilesToAdd = U₁.compactedDataFilesToAdd ++
        result.newDataFiles.map fun f => (⟨f.1.fileId, f.1.batches.flatten⟩ : DataFile Row) :=
      hbuffered.compactedToAdd
    have hgone : U'.compactedDataFilesToRemove =
        U₁.compactedDataFilesToRemove ++ result.oldDataFiles := hbuffered.compactedToRemove
    have hmap : U'.compactedDataFileRemap = remap := hbuffered.remap
    refine ⟨?_, ?_, ?_⟩
    · intro file hfile
      rw [hU', hcompacted, List.mem_append, List.mem_append, List.mem_append] at hfile
      rcases hfile with (hold | htask) | hold | hfile
      · exact .inl (hadded file (List.mem_append_left _ hold))
      · exact .inr (hnew file htask)
      · exact .inl (hadded file (List.mem_append_right _ hold))
      · obtain ⟨new, hmem, rfl⟩ := List.mem_map.mp hfile
        refine .inr (List.mem_append_right _ ?_)
        rw [hresult]
        exact List.mem_map_of_mem hmem
    · intro f hf
      rw [hgone] at hf
      rcases List.mem_append.mp hf with hold | hcompact
      · exact ⟨.inl (hremoved f hold).1, (hremoved f hold).2⟩
      · exact ⟨.inl (hok.files f (old f hcompact).1), (old f hcompact).2⟩
    · -- A row that is left in the map is not deleted anywhere.
      intro location hloc
      rw [hmap] at hloc
      obtain ⟨f, hf, r, heq, hdel⟩ := left location hloc
      obtain ⟨hmem, hnot⟩ := old f hf
      exact ⟨f, r, heq, .inl (hok.files f hmem), hnot, fun hm => hdel (hok.persisted f r hm hmem),
        fun hl => hdel (hlogs f r hl hmem)⟩

end UnpersistedRecords

/-! ## Maintenance -/

/-- The records of maintenance are all persisted. -/
structure UnpersistedRecords.CoveredBy (U : UnpersistedRecords Row)
    (persisted : Option PersistedRecords) : Prop where
  mergedToAdd : U.mergedFileIndicesToAdd.length ≤
    (persisted.map (·.mergedFileIndicesAdded.length)).getD 0
  mergedToRemove : U.mergedFileIndicesToRemove.length ≤
    (persisted.map (·.mergedFileIndicesRemoved.length)).getD 0
  compactedToAdd : U.compactedDataFilesToAdd.length ≤
    (persisted.map (·.compactedDataFilesAdded.length)).getD 0
  compactedToRemove : U.compactedDataFilesToRemove.length ≤
    (persisted.map (·.compactedDataFilesRemoved.length)).getD 0

/-- The records of maintenance are in the payload. -/
structure UnpersistedRecords.CoveredByPayload (U : UnpersistedRecords Row)
    (p : PersistenceSnapshotPayload Row) : Prop where
  mergedToAdd : U.mergedFileIndicesToAdd.length ≤ p.mergedFileIndicesToAdd.length
  mergedToRemove : U.mergedFileIndicesToRemove.length ≤ p.mergedFileIndicesToRemove.length
  compactedToAdd : U.compactedDataFilesToAdd.length ≤ p.compactedDataFilesToAdd.length
  compactedToRemove : U.compactedDataFilesToRemove.length ≤ p.compactedDataFilesToRemove.length

/-- The records of maintenance in the payload are those of `U`. -/
structure PersistenceSnapshotPayload.MaintenanceOf (U : UnpersistedRecords Row)
    (p : PersistenceSnapshotPayload Row) : Prop where
  mergedToAdd : p.mergedFileIndicesToAdd = U.mergedFileIndicesToAdd
  mergedToRemove : p.mergedFileIndicesToRemove = U.mergedFileIndicesToRemove
  compactedToAdd : p.compactedDataFilesToAdd = U.compactedDataFilesToAdd
  compactedToRemove : p.compactedDataFilesToRemove = U.compactedDataFilesToRemove

theorem SnapshotTableState.PayloadOf.maintenanceOf {s : SnapshotTableState Row Ident}
    (h : PayloadOf s p) : p.MaintenanceOf s.unpersistedRecords :=
  ⟨h.mergedToAdd, h.mergedToRemove, h.compactedToAdd, h.compactedToRemove⟩

/-- The records of maintenance in the result are those of the payload. -/
structure PersistedRecords.MaintenanceOf (p : PersistenceSnapshotPayload Row) (res : PersistedRecords) :
    Prop where
  mergedAdded : res.mergedFileIndicesAdded = p.mergedFileIndicesToAdd
  mergedRemoved : res.mergedFileIndicesRemoved = p.mergedFileIndicesToRemove
  compactedAdded : res.compactedDataFilesAdded = p.compactedDataFilesToAdd.map (·.fileId)
  compactedRemoved : res.compactedDataFilesRemoved = p.compactedDataFilesToRemove

theorem IcebergTableManager.Synced.maintenanceOf {m : IcebergTableManager Row}
    {res : PersistedRecords × IcebergTableManager Row}
    (h : Synced m p res) : res.1.MaintenanceOf p :=
  ⟨h.mergedFileIndicesAdded, h.mergedFileIndicesRemoved, h.compactedDataFilesAdded,
    h.compactedDataFilesRemoved⟩

/-- No result of maintenance waits for the next snapshot. -/
def SnapshotTask.NoMaintenance (task : SnapshotTask Row Ident) : Prop :=
  task.dataCompactionResult = none ∧ task.indexMergeResult = ⟨[], []⟩

open TableSystem in
/-- One maintenance task goes through the stages of its status, with its result and its
records where the status says. -/
structure TableSystem.MaintenanceOk (sys : TableSystem Row Ident) : Prop where
  running : sys.compaction.isSome ∨ sys.indexMerge.isSome → sys.maintenance = .inProcess
  single : sys.compaction = none ∨ sys.indexMerge = none
  waiting : sys.table.nextSnapshotTask.NoMaintenance ∨ sys.maintenance = .readyToPersist ∧
    ∀ p, sys.payload = some p → containsTableMaintenancePayload p = false
  quiet : sys.maintenance = .unrequested ∨ sys.maintenance = .inProcess →
    sys.snapshot.unpersistedRecords.CoveredBy sys.table.nextSnapshotTask.persistedRecords
  payload : sys.offersMaintenance = true ∨ sys.maintenance = .inProcess →
    ∀ p, sys.payload = some p → containsTableMaintenancePayload p = false
  persisting : sys.maintenance = .inPersist → ∃ p, sys.persistence = some p ∧
    containsTableMaintenancePayload p = true ∧ sys.snapshot.unpersistedRecords.CoveredByPayload p

namespace UnpersistedRecords

variable {U : UnpersistedRecords Row}

theorem CoveredBy.mono (h : U.CoveredBy none)
    (persisted : Option PersistedRecords) : U.CoveredBy persisted where
  mergedToAdd := h.mergedToAdd.trans (Nat.zero_le _)
  mergedToRemove := h.mergedToRemove.trans (Nat.zero_le _)
  compactedToAdd := h.compactedToAdd.trans (Nat.zero_le _)
  compactedToRemove := h.compactedToRemove.trans (Nat.zero_le _)

/-- Nothing of maintenance is left after pruning. -/
theorem CoveredBy.update {persisted : Option PersistedRecords} {U U₁ U' : UnpersistedRecords Row}
    {task : SnapshotTask Row Ident} (h : U.CoveredBy persisted) (hpruned : PrunedTo persisted U U₁)
    (hbuffered : BufferedTo task U₁ U') (hnone : task.NoMaintenance) : U'.CoveredBy none := by
  obtain ⟨hresult, hmerge⟩ := hnone
  constructor
  · simp [hbuffered.mergedToAdd, hpruned.mergedToAdd, hmerge, h.mergedToAdd]
  · simp [hbuffered.mergedToRemove, hpruned.mergedToRemove, hmerge, h.mergedToRemove]
  · simp [hbuffered.compactedToAdd, hpruned.compactedToAdd, hresult, h.compactedToAdd]
  · simp [hbuffered.compactedToRemove, hpruned.compactedToRemove, hresult, h.compactedToRemove]

variable {p : PersistenceSnapshotPayload Row}

theorem CoveredByPayload.update
    {persisted : Option PersistedRecords} {U U₁ U' : UnpersistedRecords Row}
    {task : SnapshotTask Row Ident} (h : U.CoveredByPayload p) (hpruned : PrunedTo persisted U U₁)
    (hbuffered : BufferedTo task U₁ U') (hnone : task.NoMaintenance) : U'.CoveredByPayload p := by
  obtain ⟨hresult, hmerge⟩ := hnone
  constructor
  · have := h.mergedToAdd
    simp [hbuffered.mergedToAdd, hpruned.mergedToAdd, hmerge]
    omega
  · have := h.mergedToRemove
    simp [hbuffered.mergedToRemove, hpruned.mergedToRemove, hmerge]
    omega
  · have := h.compactedToAdd
    simp [hbuffered.compactedToAdd, hpruned.compactedToAdd, hresult]
    omega
  · have := h.compactedToRemove
    simp [hbuffered.compactedToRemove, hpruned.compactedToRemove, hresult]
    omega

/-- A payload of records without maintenance has none. -/
theorem CoveredBy.payload (h : U.CoveredBy none) (hp : p.MaintenanceOf U) :
    TableSystem.containsTableMaintenancePayload p = false := by
  have hzero : ∀ {α : Type} {l : List α}, l.length ≤ 0 → l.isEmpty = true := by
    intro α l hl
    exact List.isEmpty_iff_length_eq_zero.mpr (Nat.le_zero.mp hl)
  unfold TableSystem.containsTableMaintenancePayload
  rw [hp.mergedToAdd, hp.mergedToRemove, hp.compactedToAdd, hp.compactedToRemove,
    hzero h.mergedToAdd, hzero h.mergedToRemove, hzero h.compactedToAdd, hzero h.compactedToRemove]
  rfl

theorem CoveredByPayload.of_maintenanceOf (hp : p.MaintenanceOf U) : U.CoveredByPayload p :=
  ⟨by rw [hp.mergedToAdd], by rw [hp.mergedToRemove], by rw [hp.compactedToAdd],
    by rw [hp.compactedToRemove]⟩

theorem CoveredByPayload.coveredBy
    {res : PersistedRecords} (h : U.CoveredByPayload p) (hres : res.MaintenanceOf p) :
    U.CoveredBy (some res) where
  mergedToAdd := by simpa [hres.mergedAdded] using h.mergedToAdd
  mergedToRemove := by simpa [hres.mergedRemoved] using h.mergedToRemove
  compactedToAdd := by simpa [hres.compactedAdded] using h.compactedToAdd
  compactedToRemove := by simpa [hres.compactedRemoved] using h.compactedToRemove

end UnpersistedRecords

namespace TableSystem.MaintenanceOk

open SnapshotTableState

variable {sys : TableSystem Row Ident} {table : MooncakeTable Row Ident}

/-- Writes leave maintenance alone. -/
theorem writes (h : MaintenanceOk sys)
    (hresults : sys.table.nextSnapshotTask.SameResults table.nextSnapshotTask)
    (flushes : List (Option Nat × DiskSliceWriter Row Ident)) :
    MaintenanceOk { sys with table, flushes } :=
  { h with
    waiting := by
      refine h.waiting.imp_left fun hnone => ⟨?_, ?_⟩
      · exact hresults.dataCompactionResult.trans hnone.1
      · exact hresults.indexMergeResult.trans hnone.2
    quiet hstatus := by
      have hquiet := h.quiet hstatus
      rw [← hresults.persistedRecords] at hquiet
      exact hquiet }

theorem createSnapshot (h : MaintenanceOk sys) {snapshot : SnapshotTableState Row Ident}
    {payload : Option (PersistenceSnapshotPayload Row)} {U₁ : UnpersistedRecords Row}
    {result : Option (DataCompactionResult Row FileIndex)}
    (hpruned : UnpersistedRecords.PrunedTo sys.table.nextSnapshotTask.persistedRecords
      sys.snapshot.unpersistedRecords U₁)
    (hbuffered : UnpersistedRecords.BufferedTo
      { sys.table.nextSnapshotTask with dataCompactionResult := result } U₁ snapshot.unpersistedRecords)
    (hresult : sys.table.nextSnapshotTask.dataCompactionResult = none → result = none)
    (hpayload : ∀ p, payload = some p → p.MaintenanceOf snapshot.unpersistedRecords)
    (htask : table.nextSnapshotTask.NoMaintenance) :
    MaintenanceOk { sys with
      table, snapshot, payload, offersMaintenance := decide (sys.maintenance = .unrequested) } := by
  -- If maintenance does not wait, the task brings none.
  have hnone : sys.maintenance ≠ .readyToPersist →
      SnapshotTask.NoMaintenance { sys.table.nextSnapshotTask with dataCompactionResult := result } := by
    intro hne
    have htask := h.waiting.resolve_right fun hready => hne hready.1
    exact ⟨hresult htask.1, htask.2⟩
  have hquiet : sys.maintenance = .unrequested ∨ sys.maintenance = .inProcess →
      snapshot.unpersistedRecords.CoveredBy none := by
    intro hstatus
    refine (h.quiet hstatus).update hpruned hbuffered (hnone ?_)
    rcases hstatus with hstatus | hstatus <;> simp [hstatus]
  refine ⟨h.running, h.single, .inl htask, ?_, ?_, ?_⟩
  · intro hstatus
    exact (hquiet hstatus).mono _
  · intro hstatus p hp
    refine (hquiet ?_).payload (hpayload p hp)
    exact hstatus.imp_left fun hoffers => by simpa using hoffers
  · intro hstatus
    obtain ⟨p, hp, hmaintenance, hcovered⟩ := h.persisting hstatus
    refine ⟨p, hp, hmaintenance, hcovered.update hpruned hbuffered (hnone ?_)⟩
    have hstatus : sys.maintenance = .inPersist := hstatus
    simp [hstatus]

theorem persistSnapshot (h : MaintenanceOk sys) {p : PersistenceSnapshotPayload Row}
    (hp : sys.payload = some p) (hof : p.MaintenanceOf sys.snapshot.unpersistedRecords)
    (hnone : sys.persistence = none)
    (hresults : sys.table.nextSnapshotTask.SameResults table.nextSnapshotTask) :
    MaintenanceOk { sys with
      table
      payload := none
      persistence := some p
      maintenance :=
        if containsTableMaintenancePayload p && sys.maintenance = .readyToPersist
          then .inPersist else sys.maintenance } := by
  have hwrites := h.writes hresults sys.flushes
  have hnot : sys.maintenance ≠ .inPersist := by
    intro hstatus
    obtain ⟨p', hp', -⟩ := h.persisting hstatus
    rw [hnone] at hp'
    cases hp'
  by_cases hready : (containsTableMaintenancePayload p && decide (sys.maintenance = .readyToPersist)) = true
  · simp only [hready, if_true]
    rw [Bool.and_eq_true, decide_eq_true_eq] at hready
    refine ⟨?_, h.single, ?_, ?_, nofun, ?_⟩
    · intro hrun
      have hstatus := h.running hrun
      rw [hready.2] at hstatus
      cases hstatus
    · refine hwrites.waiting.imp_right fun hwait => ?_
      have hmaintenance := hwait.2 p hp
      rw [hready.1] at hmaintenance
      cases hmaintenance
    · rintro (hstatus | hstatus) <;> cases hstatus
    · exact fun _ => ⟨p, rfl, hready.1, .of_maintenanceOf hof⟩
  · simp only [hready]
    refine ⟨h.running, h.single, ?_, hwrites.quiet, nofun, ?_⟩
    · exact hwrites.waiting.imp_right fun hwait => ⟨hwait.1, nofun⟩
    · exact fun hstatus => absurd hstatus hnot

theorem persistenceResult (h : MaintenanceOk sys) {p : PersistenceSnapshotPayload Row}
    {res : PersistedRecords × IcebergTableManager Row} (hp : sys.persistence = some p)
    (hres : res.1.MaintenanceOf p)
    (hnone : sys.table.nextSnapshotTask.persistedRecords = none)
    (htask : table.nextSnapshotTask =
      { sys.table.nextSnapshotTask with persistedRecords := some res.1 }) :
    MaintenanceOk { sys with
      table
      manager := res.2
      persistence := none
      maintenance :=
        if containsTableMaintenancePayload p && sys.maintenance = .inPersist
          then .unrequested else sys.maintenance } := by
  have hwaiting : table.nextSnapshotTask.NoMaintenance ∨ sys.maintenance = .readyToPersist ∧
      ∀ p, sys.payload = some p → containsTableMaintenancePayload p = false := by
    rw [htask]
    exact h.waiting
  have hpersisted : table.nextSnapshotTask.persistedRecords = some res.1 := by rw [htask]
  by_cases hready : (containsTableMaintenancePayload p && decide (sys.maintenance = .inPersist)) = true
  · simp only [hready, if_true]
    rw [Bool.and_eq_true, decide_eq_true_eq] at hready
    obtain ⟨p', hp', -, hcovered⟩ := h.persisting hready.2
    rw [hp] at hp'
    cases hp'
    refine ⟨?_, h.single, ?_, ?_, ?_, nofun⟩
    · intro hrun
      have hstatus := h.running hrun
      rw [hready.2] at hstatus
      cases hstatus
    · refine hwaiting.imp_right fun hwait => ?_
      rw [hready.2] at hwait
      cases hwait.1
    · intro _
      simp only
      rw [hpersisted]
      exact hcovered.coveredBy hres
    · exact fun hstatus => h.payload (hstatus.imp_right nofun)
  · simp only [hready]
    refine ⟨h.running, h.single, hwaiting, ?_, h.payload, ?_⟩
    · intro hstatus
      have hquiet := h.quiet hstatus
      rw [hnone] at hquiet
      exact hquiet.mono _
    · intro hstatus
      have hstatus : sys.maintenance = .inPersist := hstatus
      obtain ⟨p', hp', hmaintenance, -⟩ := h.persisting hstatus
      rw [hp] at hp'
      cases hp'
      simp [hmaintenance, hstatus] at hready

/-- Maintenance only starts if nothing waits or runs. -/
theorem idle (h : MaintenanceOk sys) (hcan : sys.canMaintain = true) :
    sys.maintenance = .unrequested ∧ sys.offersMaintenance = true ∧ sys.compaction = none ∧
      sys.indexMerge = none ∧ sys.table.nextSnapshotTask.NoMaintenance := by
  unfold canMaintain at hcan
  rw [Bool.and_eq_true, decide_eq_true_eq] at hcan
  obtain ⟨hoffers, hstatus⟩ := hcan
  have hidle : ¬ (sys.compaction.isSome ∨ sys.indexMerge.isSome) := by
    intro hrun
    have hproc := h.running hrun
    rw [hstatus] at hproc
    cases hproc
  rw [not_or] at hidle
  refine ⟨hstatus, hoffers, by simpa using hidle.1, by simpa using hidle.2, ?_⟩
  refine h.waiting.resolve_right fun hready => ?_
  rw [hstatus] at hready
  cases hready.1

/-- A compaction or an index merge starts. -/
theorem start (h : MaintenanceOk sys) (hcan : sys.canMaintain = true)
    {compaction : Option (DataCompactionPayload Row FileIndex × CompactionFileParams)}
    {indexMerge : Option (List FileIndex × FileId)} (hsingle : compaction = none ∨ indexMerge = none)
    (hnone : table.nextSnapshotTask.NoMaintenance)
    (hpersisted : table.nextSnapshotTask.persistedRecords =
      sys.table.nextSnapshotTask.persistedRecords) :
    MaintenanceOk { sys with table, compaction, indexMerge, maintenance := .inProcess } := by
  obtain ⟨hstatus, hoffers, -⟩ := h.idle hcan
  refine ⟨fun _ => rfl, hsingle, .inl hnone, ?_, ?_, nofun⟩
  · intro _
    simp only
    rw [hpersisted]
    exact h.quiet (.inl hstatus)
  · exact fun _ => h.payload (.inl hoffers)

/-- A compaction or an index merge completes, and its result waits. -/
theorem finish (h : MaintenanceOk sys) (hrun : sys.compaction.isSome ∨ sys.indexMerge.isSome)
    {compaction : Option (DataCompactionPayload Row FileIndex × CompactionFileParams)}
    {indexMerge : Option (List FileIndex × FileId)} (hcompaction : compaction = none)
    (hindexMerge : indexMerge = none) :
    MaintenanceOk { sys with table, compaction, indexMerge, maintenance := .readyToPersist } := by
  have hpayload := h.payload (.inr (h.running hrun))
  refine ⟨fun h => ?_, .inl hcompaction, .inr ⟨rfl, hpayload⟩, fun h => ?_, fun _ => hpayload,
    nofun⟩
  · simp [hcompaction, hindexMerge] at h
  · rcases h with h | h <;> cases h

end TableSystem.MaintenanceOk
end Moonlink.Storage
