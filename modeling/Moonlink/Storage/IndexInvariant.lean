-- SUMMARY: In every run whose compactions take whole indices and whose ingested files are indexed, each data file is in one file index and the expected numbers of both are right.
import Mathlib.Data.List.Flatten
import Moonlink.Storage.FileIndices
import Moonlink.Storage.Maintenance

namespace Moonlink.Storage

open Lib SnapshotTableState

variable {Row Ident : Type}

/-! ## Payloads -/

/-- Building an index of merged or compacted files covers these files. -/
structure TableEnv.CoversFiles (env : TableEnv Row Ident) : Prop where
  compactIndices : ∀ numRows fileId old files remap fileIdx,
    (env.compactIndices numRows fileId old files remap fileIdx).files = files
  mergeIndices : ∀ indices fileId,
    (env.mergeIndices indices fileId).files = indices.flatMap (·.files)

theorem IcebergTableManager.syncSnapshot_records (m : IcebergTableManager Row)
    (p : PersistenceSnapshotPayload Row) :
    Ensures (m.syncSnapshot p) fun res => res.1.MaintenanceOf p ∧
      res.1.newFileIndices = p.fileIndices ∧
      res.1.compactedFileIndicesAdded = p.compactedFileIndicesToAdd := by
  refine .bind_any fun _ => .bind_any fun _ => .bind_any fun _ => .bind_any fun _ => ?_
  exact .bind_any fun _ => .bind_any fun _ => .pure ⟨⟨rfl, rfl, rfl, rfl⟩, rfl, rfl⟩

/-- While nothing is pruned, what is buffered only grows. -/
theorem UnpersistedRecords.bufferUnpersistedRecords_grows (U : UnpersistedRecords Row)
    (task : SnapshotTask Row Ident) :
    Ensures (U.bufferUnpersistedRecords task) fun U' => U.newFileIndices <+: U'.newFileIndices ∧
      U.mergedFileIndicesToAdd <+: U'.mergedFileIndicesToAdd ∧
      U.compactedFileIndicesToAdd <+: U'.compactedFileIndicesToAdd := by
  unfold bufferUnpersistedRecords
  cases task.dataCompactionResult with
  | none => exact .ok ⟨List.prefix_append _ _, List.prefix_append _ _, List.prefix_rfl⟩
  | some result =>
    exact .bind_any fun _ => .pure
      ⟨List.prefix_append _ _, List.prefix_append _ _, List.prefix_append _ _⟩

/-! ## Compactions -/

/-- A compaction of whole indices has an index of its new files. -/
theorem resultIndexed_of_built {env : TableEnv Row Ident} (hcovers : env.CoversFiles)
    {payload : DataCompactionPayload Row FileIndex} {params : CompactionFileParams}
    {result : DataCompactionResult Row FileIndex}
    (hpayload : FilesIndexed payload.fileIndices (payload.diskFiles.map (·.fileId)))
    (hbuild : CompactionBuilder.build payload params env.writer env.compactIndices = .ok result)
    (hbuilt : Built payload params result) :
    ResultIndexed result ∧ result.oldFileIndices = payload.fileIndices := by
  obtain ⟨⟨b, remap⟩, hcompact, hbuild⟩ := bind_eq_ok.mp hbuild
  simp only at hbuild
  split at hbuild
  · cases hbuild
    exact ⟨⟨hpayload, .nil⟩, rfl⟩
  rename_i hremap
  obtain ⟨b', -, hbuild⟩ := bind_eq_ok.mp hbuild
  split at hbuild
  · -- Without indices there are no files either.
    rename_i hnil
    rw [List.isEmpty_iff.mp hnil] at hpayload
    have hfiles := List.map_eq_nil_iff.mp (List.perm_nil.mp hpayload.perm.symm)
    rw [hfiles] at hcompact
    cases hcompact
    exact absurd rfl hremap
  · obtain ⟨index, hindex, hbuild⟩ := bind_eq_ok.mp hbuild
    obtain ⟨_, -, hindex⟩ := bind_eq_ok.mp hindex
    obtain ⟨newDataFiles, hnew, hindex⟩ := bind_eq_ok.mp hindex
    obtain ⟨_, -, hnew⟩ := bind_eq_ok.mp hnew
    cases hnew
    cases hindex
    cases hbuild
    refine ⟨⟨hpayload, ?_, ?_⟩, rfl⟩
    · rw [List.flatMap_singleton, hcovers.compactIndices]
    · intro index hmem
      rw [List.mem_singleton.mp hmem, hcovers.compactIndices]
      -- The map is not empty, and what it maps to is in a new file.
      obtain ⟨entry, hentry⟩ := List.exists_mem_of_ne_nil _ (mt List.isEmpty_iff.mpr hremap)
      obtain ⟨file, hfile, -⟩ := hbuilt.compacted.bounds entry.1 entry.2
        (AssocMap.lookup_eq_some_iff.mpr hentry)
      exact List.ne_nil_of_mem (List.mem_map_of_mem hfile)

theorem foldlM_rejectFile_ensures {fileIds : List FileId} (hnodup : fileIds.Nodup)
    (rejected : List FileId) :
    Ensures (rejected.foldlM rejectFile fileIds) (· = fileIds.filter fun f => !rejected.contains f) := by
  refine .foldlM (I := fun done left => left = fileIds.filter fun f => !done.contains f) ?_ ?_
  · simp
  · intro done f _ left _ hleft
    refine .bind_any fun _ => .pure ?_
    rw [hleft, (hnodup.filter _).erase_eq_filter, List.filter_filter]
    refine List.filter_congr fun f' _ => ?_
    rw [Bool.eq_iff_iff]
    simp [and_comm]

namespace SnapshotTableState

variable (s : SnapshotTableState Row Ident) (opt : CompactionOption Row)

/-- The index covers a chosen file. -/
def IsAffected (index : FileIndex) : Prop :=
  ∃ f ∈ index.files, f ∈ s.tentativeFilesToCompact opt

instance {s : SnapshotTableState Row Ident} {opt : CompactionOption Row} {index : FileIndex} :
    Decidable (s.IsAffected opt index) := inferInstanceAs (Decidable (∃ f ∈ index.files, _))

/-- The chosen files without those of indices that are not persisted. -/
def filesToCompact : List FileId :=
  (s.tentativeFilesToCompact opt).filter fun f =>
    !((s.indices.fileIndices.filter fun i =>
      decide (s.IsAffected opt i) && s.unpersistedRecords.getUnpersistedFileIndicesSet.contains i).flatMap
        (·.files)).contains f

/-- The persisted indices of chosen files. -/
def indicesToCompact : List FileIndex :=
  (s.indices.fileIndices.filter fun i =>
    !s.unpersistedRecords.getUnpersistedFileIndicesSet.contains i).filter
      fun i => decide (s.IsAffected opt i)

/-- If there are enough files to compact, the persisted indices of chosen files cover no others. -/
def CompactsWholeIndices : Prop :=
  opt.minFiles ≤ (s.filesToCompact opt).length →
    ∀ index ∈ s.indices.fileIndices, index ∉ s.unpersistedRecords.getUnpersistedFileIndicesSet →
      s.IsAffected opt index → ∀ f ∈ index.files, f ∈ s.tentativeFilesToCompact opt

instance {s : SnapshotTableState Row Ident} {opt : CompactionOption Row} :
    Decidable (s.CompactsWholeIndices opt) := by
  unfold CompactsWholeIndices
  infer_instance

variable {s opt}

theorem tentativeFilesToCompact_nodup : (s.tentativeFilesToCompact opt).Nodup := by
  have hsub : (s.tentativeFilesToCompact opt).Sublist s.diskFiles.keys :=
    ((List.take_sublist _ _).trans List.filter_sublist).map _
  exact hsub.nodup s.diskFiles.keys_nodup

theorem getPayloadToCompact_eq (env : TableEnv Row Ident) :
    Ensures (s.getPayloadToCompact env opt) fun res => ∀ payload, res = some payload →
      opt.minFiles ≤ (s.filesToCompact opt).length ∧
        payload = s.compactionPayload env (s.filesToCompact opt) (s.indicesToCompact opt) := by
  have haffected : ∀ i : FileIndex, (i.files.any ((s.tentativeFilesToCompact opt).contains ·)) =
      decide (s.IsAffected opt i) := by
    intro i
    rw [Bool.eq_iff_iff, decide_eq_true_iff]
    simp [IsAffected]
  have hkept : ∀ {is : List FileIndex} {unpersisted : List FileIndex},
      is.filter (fun i => !(is.filter (unpersisted.contains ·)).contains i) =
        is.filter fun i => !unpersisted.contains i := by
    intro is unpersisted
    refine List.filter_congr fun i hi => ?_
    simp [hi]
  unfold getPayloadToCompact
  simp only [haffected, hkept]
  split
  · exact .pure nofun
  · refine .bind (foldlM_rejectFile_ensures tentativeFilesToCompact_nodup _) fun fileIds hfileIds => ?_
    have hfiles : fileIds = s.filesToCompact opt := by
      rw [hfileIds, filesToCompact, List.filter_filter]
      simp only [Bool.and_comm]
    refine .pure fun payload hpayload => ?_
    split at hpayload
    · cases hpayload
    · rename_i hmin
      cases hpayload
      rw [hfiles] at hmin ⊢
      refine ⟨Nat.le_of_not_lt hmin, ?_⟩
      rw [indicesToCompact, List.filter_filter, List.filter_filter]
      simp only [Bool.and_comm]

theorem getFileIndicesToMerge_sublist {opt : IndexMergeOption} {fileIndices : List FileIndex}
    (h : s.getFileIndicesToMerge opt = some fileIndices) :
    fileIndices.Sublist (s.indices.fileIndices.filter
      fun i => !s.unpersistedRecords.getUnpersistedFileIndicesSet.contains i) := by
  simp only [getFileIndicesToMerge] at h
  split at h
  · cases h
  · cases h
    refine (List.take_sublist _ _).trans ?_
    rw [← List.filter_filter]
    exact List.filter_sublist

/-- A compaction of whole indices has the files of its indices. -/
theorem Indexed.compactionPayload (h : s.Indexed) (env : TableEnv Row Ident)
    (hwhole : ∀ index ∈ s.indices.fileIndices,
      index ∉ s.unpersistedRecords.getUnpersistedFileIndicesSet → s.IsAffected opt index →
        ∀ f ∈ index.files, f ∈ s.tentativeFilesToCompact opt) :
    FilesIndexed (s.indicesToCompact opt) ((s.compactionPayload env (s.filesToCompact opt)
      (s.indicesToCompact opt)).diskFiles.map (·.fileId)) := by
  have hsub : (s.indicesToCompact opt).Sublist s.indices.fileIndices :=
    List.filter_sublist.trans List.filter_sublist
  have hmem : ∀ i, i ∈ s.indicesToCompact opt ↔ i ∈ s.indices.fileIndices ∧
      i ∉ s.unpersistedRecords.getUnpersistedFileIndicesSet ∧ s.IsAffected opt i := by
    intro i
    simp only [indicesToCompact, List.mem_filter, Bool.not_eq_true', List.contains_eq_mem,
      decide_eq_false_iff_not, decide_eq_true_iff, and_assoc]
  have hrejected : ∀ f, f ∈ s.filesToCompact opt ↔ f ∈ s.tentativeFilesToCompact opt ∧
      ∀ i ∈ s.indices.fileIndices, s.IsAffected opt i →
        i ∈ s.unpersistedRecords.getUnpersistedFileIndicesSet → f ∉ i.files := by
    intro f
    simp [filesToCompact]
  have hnodup := s.diskFiles.keys_nodup
  refine ⟨?_, fun i hi => h.nonempty i (hsub.subset hi)⟩
  have hfiles : (s.compactionPayload env (s.filesToCompact opt)
      (s.indicesToCompact opt)).diskFiles.map (·.fileId) = s.diskFiles.keys.filter fun f => (s.filesToCompact opt).contains f := by
    simp only [SnapshotTableState.compactionPayload, List.map_map]
    rw [AList.keys, List.keys, List.filter_map]
    rfl
  rw [hfiles]
  refine (List.perm_ext_iff_of_nodup ?_ (hnodup.filter _)).mpr fun f => ?_
  · exact (hsub.flatMap _).nodup (h.perm.nodup_iff.mpr hnodup)
  · rw [List.mem_flatMap, List.mem_filter, List.contains_eq_mem, decide_eq_true_iff, hrejected,
      h.mem_iff]
    constructor
    · rintro ⟨i, hi, hf⟩
      obtain ⟨hi, hpersisted, haffected⟩ := (hmem i).mp hi
      refine ⟨⟨i, hi, hf⟩, hwhole i hi hpersisted haffected f hf, ?_⟩
      rintro j hj - hunpersisted hfj
      exact hpersisted (h.index_eq hnodup hi hj hf hfj ▸ hunpersisted)
    · rintro ⟨⟨i, hi, hf⟩, hchosen, hkept⟩
      have haffected : s.IsAffected opt i := ⟨f, hf, hchosen⟩
      exact ⟨i, (hmem i).mpr ⟨hi, fun hunp => hkept i hi haffected hunp hf, haffected⟩, hf⟩

end SnapshotTableState

/-! ## The invariant -/

/-- The results of maintenance that wait have indices of the files of those that they replace. -/
structure SnapshotTask.ResultsIndexed (task : SnapshotTask Row Ident) : Prop where
  merged : (task.indexMergeResult.newFileIndices.flatMap (·.files)).Perm
    (task.indexMergeResult.oldFileIndices.flatMap (·.files))
  nonempty : task.indexMergeResult.oldFileIndices ≠ [] →
    ∀ index ∈ task.indexMergeResult.newFileIndices, index.files ≠ []
  compacted : ∀ result, task.dataCompactionResult = some result → ResultIndexed result

theorem SnapshotTask.NoMaintenance.resultsIndexed {task : SnapshotTask Row Ident}
    (h : task.NoMaintenance) : task.ResultsIndexed where
  merged := by rw [h.2]
  nonempty hold := by
    rw [h.2] at hold
    exact absurd rfl hold
  compacted result hresult := by
    rw [h.1] at hresult
    cases hresult

theorem SnapshotTask.NoMaintenance.replacedIndices {task : SnapshotTask Row Ident}
    (h : task.NoMaintenance) : task.replacedIndices = [] := by
  unfold SnapshotTask.replacedIndices
  rw [h.1, h.2]
  rfl

theorem SnapshotTask.SameResults.resultsIndexed {task task' : SnapshotTask Row Ident}
    (h : task.SameResults task') (hresults : task.ResultsIndexed) : task'.ResultsIndexed where
  merged := by
    rw [h.indexMergeResult]
    exact hresults.merged
  nonempty := by
    rw [h.indexMergeResult]
    exact hresults.nonempty
  compacted := by
    rw [h.dataCompactionResult]
    exact hresults.compacted

theorem SnapshotTask.SameResults.replacedIndices {task task' : SnapshotTask Row Ident}
    (h : task.SameResults task') : task'.replacedIndices = task.replacedIndices := by
  unfold SnapshotTask.replacedIndices
  rw [h.indexMergeResult, h.dataCompactionResult]

namespace TableSystem

/-- The indices that a running maintenance task replaces. -/
def runningIndices (sys : TableSystem Row Ident) : List FileIndex :=
  (sys.compaction.map (·.1.fileIndices)).getD [] ++ (sys.indexMerge.map (·.1)).getD []

structure IndexInv (identity : IdentityProp Row Ident) (used : FileId → Prop)
    (sys : TableSystem Row Ident) : Prop where
  ids : IdsOk used sys
  maintenance : MaintenanceOk sys
  files : ∀ f ∈ sys.snapshot.diskFiles, used f
  indexed : sys.snapshot.Indexed
  table : sys.table.Indexed identity
  flushes : ∀ flush ∈ sys.flushes, flush.2.Indexable
  /-- What is not persisted and what maintenance replaces are different indices. -/
  tracked : ∃ rest, sys.snapshot.indices.fileIndices.Perm
    (sys.snapshot.unpersistedRecords.getUnpersistedFileIndicesSet ++
      sys.table.nextSnapshotTask.replacedIndices ++ sys.runningIndices ++ rest)
  payload : ∀ p, sys.payload = some p → p.IndicesOf sys.snapshot.unpersistedRecords ∧
    p.MaintenanceOf sys.snapshot.unpersistedRecords
  persistence : ∀ p, sys.persistence = some p → p.FirstOf sys.snapshot.unpersistedRecords ∧
    sys.table.nextSnapshotTask.persistedRecords = none
  persisted : ∀ res, sys.table.nextSnapshotTask.persistedRecords = some res →
    res.FirstOf sys.snapshot.unpersistedRecords
  running : ∀ payload params, sys.compaction = some (payload, params) →
    FilesIndexed payload.fileIndices (payload.diskFiles.map (·.fileId)) ∧
      params.endId = params.startId + payload.getNewCompactedDataFileIdsNumber
  waiting : sys.table.nextSnapshotTask.ResultsIndexed

namespace IndexInv

variable {identity : IdentityProp Row Ident} {used : FileId → Prop} {sys : TableSystem Row Ident}
  {table : MooncakeTable Row Ident}

/-! ### Writes -/

/-- A step of the table that holds the ids `new`, of which `alloc` are allocated by it. -/
theorem writes (h : IndexInv identity used sys) {new : List FileId} (alloc : List FileId)
    (hstep : MooncakeTable.FileStep new sys.table table) (htable : table.Indexed identity)
    {flushes : List (Option Nat × DiskSliceWriter Row Ident)}
    (hindexable : ∀ flush ∈ flushes, flush.2.Indexable)
    (hflush : ∀ f, (flushIds flushes).count f + new.count f ≤
      (flushIds sys.flushes).count f + alloc.count f)
    (hnodup : alloc.Nodup)
    (halloc : ∀ f ∈ alloc, ¬ Allocated sys.table.nextFileId f ∧ Allocated table.nextFileId f) :
    IndexInv identity used { sys with table, flushes } :=
  { h with
    ids := h.ids.writes alloc hstep hflush hnodup halloc
    maintenance := h.maintenance.writes hstep.results flushes
    table := htable
    flushes := hindexable
    tracked := by
      simp only [hstep.results.replacedIndices]
      exact h.tracked
    persistence p hp := by
      simp only [hstep.results.persistedRecords]
      exact h.persistence p hp
    persisted res hres := h.persisted res (hstep.results.persistedRecords ▸ hres)
    waiting := hstep.results.resultsIndexed h.waiting }

theorem tableStep (h : IndexInv identity used sys) (hstep : MooncakeTable.FileStep [] sys.table table)
    (htable : table.Indexed identity) : IndexInv identity used { sys with table } :=
  h.writes [] hstep htable h.flushes (by simp) List.nodup_nil nofun

theorem flushStarts (h : IndexInv identity used sys)
    (hstep : MooncakeTable.FileStep [] sys.table table) (htable : table.Indexed identity)
    {slice : DiskSliceWriter Row Ident} (hid : slice.tableAutoIncrId = sys.table.nextFileId)
    (hlt : sys.table.nextFileId < table.nextFileId) (hslice : slice.Indexable) (xactId : Option Nat) :
    IndexInv identity used { sys with table, flushes := sys.flushes ++ [(xactId, slice)] } := by
  refine h.writes (flushFileIds sys.table.nextFileId) hstep htable ?_ (fun f => ?_)
    List.nodup_range' (flushFileIds_alloc hlt)
  · intro flush hmem
    rcases List.mem_append.mp hmem with hold | hnew
    · exact h.flushes flush hold
    · exact List.mem_singleton.mp hnew ▸ hslice
  · simp [flushIds, hid]

theorem flushCompletes (h : IndexInv identity used sys) {idx : Nat}
    {flush : Option Nat × DiskSliceWriter Row Ident} (hflush : sys.flushes[idx]? = some flush)
    {ids : List FileId} (hsub : ids.Sublist (flushFileIds flush.2.tableAutoIncrId))
    (hstep : MooncakeTable.FileStep ids sys.table table) (htable : table.Indexed identity) :
    IndexInv identity used { sys with table, flushes := sys.flushes.eraseIdx idx } := by
  refine h.writes [] hstep htable (fun flush hmem => ?_) (fun f => ?_) List.nodup_nil
    nofun
  · exact h.flushes flush (List.mem_of_mem_eraseIdx hmem)
  · rw [List.count_nil]
    exact count_flushIds_eraseIdx hflush hsub f

theorem applyFlush [DecidableEq Ident] (h : IndexInv identity used sys) (env : TableEnv Row Ident)
    {idx : Nat} {flush : Option Nat × DiskSliceWriter Row Ident}
    (hflush : sys.flushes[idx]? = some flush) :
    Ensures (sys.applyFlush env idx flush) (IndexInv identity used) := by
  have hindexable := h.flushes flush (List.mem_of_getElem? hflush)
  refine .bind ((flush.2.write_ensures env.writer env.config.parquetFileSize).and
    (hindexable.write env.writer env.config.parquetFileSize)) ?_
  rintro slice ⟨hsub, hslice⟩
  simp only
  split
  · refine .bind ((sys.table.applyFlushResult_ensures slice).and (h.table.applyFlushResult hslice)) ?_
    rintro table ⟨hstep, htable⟩
    exact .pure (h.flushCompletes hflush hsub hstep htable)
  · refine .bind ((sys.table.applyStreamFlushResult_ensures _ slice).and
      (h.table.applyStreamFlushResult _ hslice)) ?_
    rintro table ⟨hstep, htable⟩
    exact .pure (h.flushCompletes hflush hsub hstep htable)

theorem batchIngest (h : IndexInv identity used sys)
    {ingested : IdentityProp Row Ident} {files : List (List Row)} {lsn : Nat}
    (htable : Ensures (sys.table.batchIngest ingested files lsn)
      (MooncakeTable.Indexed identity)) :
    Ensures (do return { sys with table := ← sys.table.batchIngest ingested files lsn })
      (IndexInv identity used) := by
  refine .bind ((sys.table.batchIngest_ensures ingested files lsn).and htable) ?_
  rintro table ⟨⟨hstep, h32, hnext⟩, htable⟩
  exact .pure (h.writes _ hstep htable h.flushes (fun f => le_rfl) List.nodup_range'
    (range'_alloc h32 hnext))

/-! ### Snapshots -/

theorem taskIndexed (h : IndexInv identity used sys) :
    TaskIndexed sys.snapshot sys.table.takeSnapshotTask.1 sys.runningIndices where
  written := h.table.task
  merged := h.waiting.merged
  nonempty := h.waiting.nonempty
  compacted := h.waiting.compacted
  persisted := h.persisted
  nodup := h.ids.nodup_takenFileIds
  fresh f hf hmem := h.ids.fresh f (takenFileIds_subset hf) (h.files f hmem)
  tracked := h.tracked

theorem createSnapshot [DecidableEq Ident] (h : IndexInv identity used sys) (env : TableEnv Row Ident)
    (opt : SnapshotOption) :
    Ensures (sys.createSnapshot env opt) fun sys' => ∃ used', IndexInv identity used' sys' := by
  refine .bind (updateSnapshot_indexed env.config.snapshot opt h.indexed h.taskIndexed) ?_
  rintro ⟨snapshot, payload⟩ ⟨hupdated, hpayload⟩
  refine .pure ⟨fun f => used f ∨ f ∈ takenFileIds sys.table.nextSnapshotTask, ?_⟩
  obtain ⟨result, records, hresult, hprune, hbuffer⟩ := hupdated.buffered
  have hpruned := UnpersistedRecords.prunePersistedRecords_ensures _ _ records hprune
  have hbuffered := UnpersistedRecords.bufferUnpersistedRecords_taken hbuffer
  exact { h with
    ids := h.ids.createSnapshot rfl rfl rfl rfl rfl
    maintenance := h.maintenance.createSnapshot hpruned hbuffered hresult
      (fun p hp => (hpayload p hp).2) ⟨rfl, rfl⟩
    files := fun f hf => (hupdated.files f hf).imp_left (h.files f)
    indexed := hupdated.indexed
    table := ⟨h.table.memSlice, h.table.streams, nofun,
      nofun⟩
    tracked := by
      obtain ⟨rest, hrest⟩ := hupdated.tracked
      refine ⟨rest, hrest.trans ?_⟩
      rw [SnapshotTask.NoMaintenance.replacedIndices ⟨rfl, rfl⟩, List.append_nil]
      rfl
    payload := hpayload
    persistence := by
      intro p hp
      obtain ⟨hfirst, hnone⟩ := h.persistence p hp
      -- Nothing is pruned while a persistence is running.
      have hrecords : records = sys.snapshot.unpersistedRecords := by
        have hprune : sys.snapshot.unpersistedRecords.prunePersistedRecords
            sys.table.nextSnapshotTask.persistedRecords = .ok records := hprune
        rw [hnone] at hprune
        cases hprune
        rfl
      rw [hrecords] at hbuffer
      obtain ⟨hnew, hmerged, hcompacted⟩ :=
        UnpersistedRecords.bufferUnpersistedRecords_grows _ _ _ hbuffer
      exact ⟨⟨hfirst.new.trans hnew, hfirst.merged.trans hmerged,
        hfirst.compacted.trans hcompacted⟩, rfl⟩
    persisted := nofun
    waiting := SnapshotTask.NoMaintenance.resultsIndexed ⟨rfl, rfl⟩ }

/-! ### Persistence -/

theorem persistSnapshot (h : IndexInv identity used sys) {p : PersistenceSnapshotPayload Row}
    (hp : sys.payload = some p) (hnone : sys.persistence = none)
    (hres : sys.table.nextSnapshotTask.persistedRecords = none) :
    Ensures (sys.persistSnapshot p) (IndexInv identity used) := by
  refine .bind ((sys.table.reserveFileIds_ensures _).and (h.table.reserveFileIds _)) ?_
  rintro table ⟨⟨hstep, -, -⟩, htable⟩
  have hwrites := h.tableStep hstep htable
  obtain ⟨hindices, hmaintenance⟩ := h.payload p hp
  exact .pure { h with
    ids := ⟨hwrites.ids.nodup, hwrites.ids.fresh, hwrites.ids.allocated, hwrites.ids.used⟩
    maintenance := h.maintenance.persistSnapshot hp hmaintenance hnone hstep.results
    table := htable
    tracked := hwrites.tracked
    payload := nofun
    persistence := by
      rintro _ ⟨⟩
      exact ⟨hindices.firstOf, hstep.results.persistedRecords.trans hres⟩
    persisted := hwrites.persisted
    waiting := hwrites.waiting }

theorem persistenceResult (h : IndexInv identity used sys) {p : PersistenceSnapshotPayload Row}
    (hp : sys.persistence = some p) :
    Ensures (sys.persistenceResult p) (IndexInv identity used) := by
  obtain ⟨hfirst, hnone⟩ := h.persistence p hp
  refine .bind (sys.manager.syncSnapshot_records p) ?_
  rintro ⟨res, manager⟩ ⟨hmaintenance, hnew, hcompacted⟩
  have hmaintenance : (res, manager).1.MaintenanceOf p := hmaintenance
  intro sys' hok
  obtain ⟨table, hset, hok⟩ := bind_eq_ok.mp hok
  obtain ⟨_, -, hset⟩ := bind_eq_ok.mp hset
  cases hset
  cases hok
  exact { h with
    ids := ⟨h.ids.nodup, h.ids.fresh, h.ids.allocated, h.ids.used⟩
    maintenance := h.maintenance.persistenceResult hp hmaintenance hnone rfl
    table := ⟨h.table.memSlice, h.table.streams, h.table.outputs, h.table.slices⟩
    persistence := nofun
    persisted := by
      rintro _ ⟨⟩
      exact ⟨hnew ▸ hfirst.new, hmaintenance.mergedAdded ▸ hfirst.merged,
        hcompacted ▸ hfirst.compacted⟩
    waiting := ⟨h.waiting.merged, h.waiting.nonempty, h.waiting.compacted⟩ }

/-! ### Maintenance -/

/-- Maintenance that starts replaces persisted indices. -/
theorem tracked_start (h : IndexInv identity used sys) (hcan : sys.canMaintain = true)
    {indices : List FileIndex} (hsub : indices.Sublist (sys.snapshot.indices.fileIndices.filter
      fun i => !sys.snapshot.unpersistedRecords.getUnpersistedFileIndicesSet.contains i)) :
    ∃ rest, sys.snapshot.indices.fileIndices.Perm
      (sys.snapshot.unpersistedRecords.getUnpersistedFileIndicesSet ++ indices ++ rest) := by
  obtain ⟨-, -, hcompaction, hindexMerge, hnone⟩ := h.maintenance.idle hcan
  obtain ⟨rest, hrest⟩ := h.tracked
  rw [hnone.replacedIndices, runningIndices, hcompaction, hindexMerge] at hrest
  simp only [Option.map_none, Option.getD_none, List.append_nil] at hrest
  obtain ⟨others, hothers⟩ := hsub.exists_perm_append
  have hfilter := (h.indexed.filter_perm sys.snapshot.diskFiles.keys_nodup hrest).symm.trans hothers
  refine ⟨others, hrest.trans ?_⟩
  rw [List.append_assoc]
  exact hfilter.append_left _

theorem performDataCompaction (h : IndexInv identity used sys) (env : TableEnv Row Ident)
    (hcan : sys.canMaintain = true) {payload : DataCompactionPayload Row FileIndex}
    (hpayload : FilesIndexed payload.fileIndices (payload.diskFiles.map (·.fileId)))
    (hsub : payload.fileIndices.Sublist (sys.snapshot.indices.fileIndices.filter
      fun i => !sys.snapshot.unpersistedRecords.getUnpersistedFileIndicesSet.contains i)) :
    Ensures (sys.performDataCompaction env payload) (IndexInv identity used) := by
  obtain ⟨-, -, hcompaction, hindexMerge, hnoMaintenance⟩ := h.maintenance.idle hcan
  obtain ⟨rest, hrest⟩ := h.tracked_start hcan hsub
  refine .bind ((sys.table.performDataCompaction_ensures payload).and
    (h.table.performDataCompaction payload)) ?_
  rintro table ⟨⟨hstep, hnext, htask⟩, htable⟩
  split
  · rename_i hlt
    have hnone : table.nextSnapshotTask.NoMaintenance := by
      rw [htask]
      exact hnoMaintenance
    have hpersisted : table.nextSnapshotTask.persistedRecords =
        sys.table.nextSnapshotTask.persistedRecords := by rw [htask]
    refine .pure { h with
      ids := h.ids.performDataCompaction env hcompaction hstep hnext htask hlt
      maintenance := h.maintenance.start hcan (.inr hindexMerge) hnone hpersisted
      table := htable
      tracked := ?_
      persistence := by
        simp only [hpersisted]
        exact h.persistence
      persisted := by
        simp only [hpersisted]
        exact h.persisted
      running := by
        rintro _ _ ⟨⟩
        exact ⟨hpayload, hnext⟩
      waiting := hnone.resultsIndexed }
    refine ⟨rest, hrest.trans ?_⟩
    simp [hnone.replacedIndices, runningIndices, hindexMerge]
  · exact .error

/-- While maintenance is running, no result waits. -/
theorem noMaintenance_of_running (h : IndexInv identity used sys)
    (hrun : sys.compaction.isSome ∨ sys.indexMerge.isSome) :
    sys.table.nextSnapshotTask.NoMaintenance := by
  have hstatus := h.maintenance.running hrun
  refine h.maintenance.waiting.resolve_right fun hready => ?_
  rw [hstatus] at hready
  cases hready.1

theorem dataCompactionResult (h : IndexInv identity used sys) {env : TableEnv Row Ident}
    (hcovers : env.CoversFiles) {payload : DataCompactionPayload Row FileIndex}
    {params : CompactionFileParams} (hcompaction : sys.compaction = some (payload, params)) :
    Ensures (sys.dataCompactionResult env payload params) (IndexInv identity used) := by
  have hrun : sys.compaction.isSome ∨ sys.indexMerge.isSome := .inl (by simp [hcompaction])
  have hnone := h.noMaintenance_of_running hrun
  have hindexMerge : sys.indexMerge = none := by
    refine h.maintenance.single.resolve_left ?_
    simp [hcompaction]
  obtain ⟨hpayload, hids⟩ := h.running payload params hcompaction
  obtain ⟨result, hbuild, hbuilt⟩ := build_spec payload params env.writer env.compactIndices hids.ge
  obtain ⟨hresult, hold⟩ := resultIndexed_of_built hcovers hpayload hbuild hbuilt
  intro sys' hok
  unfold TableSystem.dataCompactionResult at hok
  rw [hbuild, ok_bind] at hok
  obtain ⟨table, hset, hok⟩ := bind_eq_ok.mp hok
  obtain ⟨_, -, hset⟩ := bind_eq_ok.mp hset
  cases hset
  cases hok
  exact { h with
    ids := h.ids.dataCompactionResult hcompaction hnone.1 hbuilt hids
    maintenance := h.maintenance.finish hrun rfl hindexMerge
    table := ⟨h.table.memSlice, h.table.streams, h.table.outputs, h.table.slices⟩
    tracked := by
      obtain ⟨rest, hrest⟩ := h.tracked
      refine ⟨rest, hrest.trans ?_⟩
      rw [hnone.replacedIndices]
      simp [runningIndices, SnapshotTask.replacedIndices, hcompaction, hindexMerge, hnone.2, hold]
    running := nofun
    waiting := ⟨h.waiting.merged, h.waiting.nonempty, by
      rintro _ ⟨⟩
      exact hresult⟩ }

theorem performIndexMerge (h : IndexInv identity used sys) (hcan : sys.canMaintain = true)
    {fileIndices : List FileIndex} (hsub : fileIndices.Sublist
      (sys.snapshot.indices.fileIndices.filter
        fun i => !sys.snapshot.unpersistedRecords.getUnpersistedFileIndicesSet.contains i)) :
    Ensures (sys.performIndexMerge fileIndices) (IndexInv identity used) := by
  obtain ⟨-, -, hcompaction, -, hnoMaintenance⟩ := h.maintenance.idle hcan
  obtain ⟨rest, hrest⟩ := h.tracked_start hcan hsub
  refine .bind ((sys.table.reserveFileIds_ensures 1).and (h.table.reserveFileIds 1)) ?_
  rintro table ⟨⟨hstep, -, -⟩, htable⟩
  have hwrites := h.tableStep hstep htable
  have hnone : table.nextSnapshotTask.NoMaintenance :=
    ⟨hstep.results.dataCompactionResult.trans hnoMaintenance.1,
      hstep.results.indexMergeResult.trans hnoMaintenance.2⟩
  refine .pure { h with
    ids := ⟨hwrites.ids.nodup, hwrites.ids.fresh, hwrites.ids.allocated, hwrites.ids.used⟩
    maintenance := h.maintenance.start hcan (.inl hcompaction) hnone hstep.results.persistedRecords
    table := htable
    tracked := ?_
    persistence := hwrites.persistence
    persisted := hwrites.persisted
    waiting := hwrites.waiting }
  refine ⟨rest, hrest.trans ?_⟩
  simp [hnone.replacedIndices, runningIndices, hcompaction]

theorem indexMergeResult (h : IndexInv identity used sys) {env : TableEnv Row Ident}
    (hcovers : env.CoversFiles) {fileIndices : List FileIndex} {fileId : FileId}
    (hindexMerge : sys.indexMerge = some (fileIndices, fileId)) :
    Ensures (sys.indexMergeResult env fileIndices fileId) (IndexInv identity used) := by
  have hrun : sys.compaction.isSome ∨ sys.indexMerge.isSome := .inr (by simp [hindexMerge])
  have hnone := h.noMaintenance_of_running hrun
  have hcompaction : sys.compaction = none := by
    refine h.maintenance.single.resolve_right ?_
    simp [hindexMerge]
  obtain ⟨rest, hrest⟩ := h.tracked
  rw [hnone.replacedIndices, runningIndices, hcompaction, hindexMerge] at hrest
  intro sys' hok
  obtain ⟨table, hset, hok⟩ := bind_eq_ok.mp hok
  obtain ⟨_, -, hset⟩ := bind_eq_ok.mp hset
  cases hset
  cases hok
  refine { h with
    ids := ⟨h.ids.nodup, h.ids.fresh, h.ids.allocated, h.ids.used⟩
    maintenance := h.maintenance.finish hrun hcompaction rfl
    table := ⟨h.table.memSlice, h.table.streams, h.table.outputs, h.table.slices⟩
    tracked := ⟨rest, hrest.trans ?_⟩
    waiting := ⟨?_, ?_, h.waiting.compacted⟩ }
  · simp [SnapshotTask.replacedIndices, runningIndices, hcompaction, hnone.1]
  · simp [hcovers.mergeIndices]
  · -- The merged indices are in the snapshot, so they have files.
    intro hold index hmem
    rw [List.mem_singleton.mp hmem, hcovers.mergeIndices]
    obtain ⟨i, hi⟩ := List.exists_mem_of_ne_nil _ hold
    have hsnapshot : i ∈ sys.snapshot.indices.fileIndices :=
      hrest.mem_iff.mpr (by simp [show i ∈ fileIndices from hi])
    obtain ⟨f, hf⟩ := List.exists_mem_of_ne_nil _ (h.indexed.nonempty i hsnapshot)
    exact List.ne_nil_of_mem (List.mem_flatMap.mpr ⟨i, hi, hf⟩)

/-! ### Loading -/

theorem load [DecidableEq Ident] (env : TableEnv Row Ident) {persisted : PersistedTable Row}
    (hindexed : FilesIndexed persisted.fileIndices persisted.dataFiles.keys) :
    Ensures (load env persisted)
      (IndexInv env.config.snapshot.identity (· ∈ persisted.dataFiles)) := by
  refine .bind (MemSlice.new_ensures env.config.snapshot.identity env.config.snapshot.batchSize _) ?_
  rintro ⟨memSlice, counter⟩ ⟨hmemSlice, -⟩
  have hkeys := AssocMap.keys_mapValues PersistedTable.diskFileEntry persisted.dataFiles
  have hnone : SnapshotTask.NoMaintenance (.new : SnapshotTask Row Ident) := ⟨rfl, rfl⟩
  refine .pure {
    ids := ⟨List.nodup_nil, nofun, nofun, fun f hf =>
      .inl ⟨persisted.fileIds_lt f hf, (persisted.fileIds_lt f hf).trans persisted.nextFileId_lt⟩⟩
    maintenance := ⟨by simp, .inl rfl, .inl hnone, fun _ => ⟨le_rfl, le_rfl, le_rfl, le_rfl⟩,
      nofun, nofun⟩
    files := fun f hf => (hkeys ▸ AList.mem_keys.mp hf : f ∈ persisted.dataFiles.keys)
    indexed := hindexed.congr_files (hkeys ▸ .refl _)
    table := ⟨hmemSlice, nofun, nofun,
      nofun⟩
    flushes := nofun
    tracked := ⟨persisted.fileIndices, .refl _⟩
    payload := nofun
    persistence := nofun
    persisted := nofun
    running := nofun
    waiting := hnone.resultsIndexed }

end IndexInv
end TableSystem

/-! ## Runs -/

/-- The actions of a table, with a bulk load whose index cannot be built. -/
inductive SystemAction (Row : Type) where
  | table (action : TableAction Row)
  | batchIngestUnindexed (files : List (List Row)) (lsn : Nat)

namespace TableSystem

/-- One step. -/
def nextAction [DecidableEq Ident] (env : TableEnv Row Ident) (sys : TableSystem Row Ident) :
    SystemAction Row → Except StoragePanic (TableSystem Row Ident)
  | .table action => sys.next env action
  | .batchIngestUnindexed files lsn => do
    return { sys with
      table := ← sys.table.batchIngestUnindexed env.config.snapshot.identity files lsn }

/-- A run. -/
def runActions [DecidableEq Ident] (env : TableEnv Row Ident) (sys : TableSystem Row Ident)
    (actions : List (SystemAction Row)) : Except StoragePanic (TableSystem Row Ident) :=
  actions.foldlM (nextAction env) sys

/-- The condition on a step: ingested files get an index, which is not empty, and a
compaction takes whole indices. -/
def IndexPermitted (sys : TableSystem Row Ident) : SystemAction Row → Prop
  | .table (.batchIngest files _) => files ≠ []
  | .batchIngestUnindexed files _ => files = []
  | .table (.performDataCompaction opt) =>
    sys.canMaintain = true → sys.snapshot.CompactsWholeIndices opt
  -- A streaming transaction is committed once.
  | .table (.commitTransactionStream xactId _) =>
    ∀ st ∈ sys.table.transactionStreamStates.lookup xactId, st.status = .pending
  | _ => True

instance {files : List (List Row)} : Decidable (files = []) :=
  decidable_of_iff _ List.isEmpty_iff

instance {sys : TableSystem Row Ident} {action : SystemAction Row} :
    Decidable (sys.IndexPermitted action) :=
  match action with
  | .table (.batchIngest files _) => inferInstanceAs (Decidable (files ≠ []))
  | .batchIngestUnindexed files _ => inferInstanceAs (Decidable (files = []))
  | .table (.performDataCompaction opt) =>
    inferInstanceAs (Decidable (sys.canMaintain = true → sys.snapshot.CompactsWholeIndices opt))
  | .table (.commitTransactionStream xactId _) =>
    inferInstanceAs (Decidable (∀ st ∈ sys.table.transactionStreamStates.lookup xactId, st.status = .pending))
  | .table (.append _) | .table (.delete ..) | .table (.commit _) | .table (.flush _)
  | .table (.appendInStreamBatch ..) | .table (.deleteInStreamBatch ..) | .table (.flushStream _)
  | .table (.abortInStreamBatch _) | .table (.flushResult _) | .table (.createSnapshot _)
  | .table .persistSnapshot | .table .persistenceResult | .table .dataCompactionResult
  | .table (.performIndexMerge _) | .table .indexMergeResult => isTrue trivial

/-- Every step of the run meets the condition. -/
def IndexPermittedRun [DecidableEq Ident] (env : TableEnv Row Ident) (sys : TableSystem Row Ident) :
    List (SystemAction Row) → Prop
  | [] => True
  | action :: rest => sys.IndexPermitted action ∧
      Ensures (sys.nextAction env action) fun sys' => IndexPermittedRun env sys' rest

instance IndexPermittedRun.decidable [DecidableEq Ident] (env : TableEnv Row Ident) :
    (sys : TableSystem Row Ident) → (actions : List (SystemAction Row)) →
      Decidable (IndexPermittedRun env sys actions)
  | _, [] => isTrue trivial
  | sys, action :: rest =>
    have : DecidablePred fun sys' => IndexPermittedRun env sys' rest := fun sys' =>
      IndexPermittedRun.decidable env sys' rest
    inferInstanceAs (Decidable (sys.IndexPermitted action ∧ Ensures (sys.nextAction env action) _))

namespace IndexInv

variable [DecidableEq Ident] {used : FileId → Prop} {sys : TableSystem Row Ident}
  {env : TableEnv Row Ident}

theorem next (h : IndexInv env.config.snapshot.identity used sys)
    (hkind : env.config.snapshot.identity.kind ≠ .none) (hcovers : env.CoversFiles)
    {action : TableAction Row} (hperm : sys.IndexPermitted (.table action)) :
    Ensures (sys.next env action) fun sys' =>
      ∃ used', IndexInv env.config.snapshot.identity used' sys' := by
  have hkeep : ∀ {x : Except StoragePanic (TableSystem Row Ident)},
      Ensures x (IndexInv env.config.snapshot.identity used) →
        Ensures x fun sys' => ∃ used', IndexInv env.config.snapshot.identity used' sys' :=
    fun hx => hx.mono fun _ hinv => ⟨used, hinv⟩
  cases action with
  | append row =>
    exact hkeep (.bind ((sys.table.append_ensures _ row).and (h.table.append hkind row))
      fun _ ht => .pure (h.tableStep ht.1 ht.2))
  | delete row lsn deleteIfExists =>
    exact hkeep (.bind ((sys.table.deleteImpl_ensures _ row lsn deleteIfExists).and
      (h.table.deleteImpl row lsn deleteIfExists)) fun _ ht => .pure (h.tableStep ht.1 ht.2))
  | commit lsn =>
    exact hkeep (.bind ((sys.table.commit_ensures lsn).and (h.table.commit lsn))
      fun _ ht => .pure (h.tableStep ht.1 ht.2))
  | flush lsn =>
    refine hkeep (.bind ((sys.table.flush_ensures lsn).and (h.table.flush lsn)) ?_)
    rintro ⟨slice, table⟩ ⟨⟨hstep, hslice⟩, htable, hindexable⟩
    refine .pure ?_
    cases slice with
    | none => simpa using h.tableStep hstep htable
    | some slice =>
      obtain ⟨hid, hlt⟩ := hslice slice rfl
      exact h.flushStarts hstep htable hid hlt (hindexable slice rfl) none
  | appendInStreamBatch row xactId =>
    exact hkeep (.bind ((sys.table.appendInStreamBatch_ensures _ row xactId).and
      (h.table.appendInStreamBatch hkind row xactId)) fun _ ht => .pure (h.tableStep ht.1 ht.2))
  | deleteInStreamBatch row xactId =>
    exact hkeep (.bind ((sys.table.deleteInStreamBatch_ensures _ row xactId).and
      (h.table.deleteInStreamBatch row xactId)) fun _ ht => .pure (h.tableStep ht.1 ht.2))
  | flushStream xactId =>
    refine hkeep (.bind ((sys.table.flushStream_ensures xactId none).and
      (h.table.flushStream xactId none)) ?_)
    rintro ⟨slice, table⟩ ⟨⟨hstep, hid, hlt, -⟩, htable, hindexable⟩
    exact .pure (h.flushStarts hstep htable hid hlt hindexable (some xactId))
  | abortInStreamBatch xactId =>
    exact hkeep (.bind ((sys.table.abortInStreamBatch_ensures xactId).and
      (h.table.abortInStreamBatch xactId)) fun _ ht => .pure (h.tableStep ht.1 ht.2))
  | commitTransactionStream xactId lsn =>
    refine hkeep (.bind ((sys.table.commitTransactionStream_ensures xactId lsn hperm).and
      (h.table.commitTransactionStream xactId lsn)) ?_)
    rintro ⟨slice, table⟩ ⟨⟨hstep, hid, hlt⟩, htable, hindexable⟩
    exact .pure (h.flushStarts hstep htable hid hlt hindexable (some xactId))
  | batchIngest files lsn => exact hkeep (h.batchIngest (h.table.batchIngest hkind hperm lsn))
  | flushResult idx =>
    refine hkeep ?_
    simp only [TableSystem.next]
    split
    · rename_i flush hflush
      exact h.applyFlush env hflush
    · exact .ok h
  | createSnapshot opt => exact h.createSnapshot env opt
  | persistSnapshot =>
    refine hkeep ?_
    simp only [TableSystem.next]
    split
    · rename_i payload hpayload
      split
      · rename_i hcan
        simp only [canPersist, Bool.and_eq_true, Option.isNone_iff_eq_none] at hcan
        exact h.persistSnapshot hpayload hcan.1.1 hcan.1.2
      · exact .ok h
    · exact .ok h
  | persistenceResult =>
    refine hkeep ?_
    simp only [TableSystem.next]
    split
    · rename_i payload hpersistence
      exact h.persistenceResult hpersistence
    · exact .ok h
  | performDataCompaction opt =>
    refine hkeep ?_
    simp only [TableSystem.next]
    split
    · rename_i hcan
      refine .bind (getPayloadToCompact_eq env) fun payload hpayload => ?_
      cases payload with
      | none => exact .pure h
      | some payload =>
        obtain ⟨hmin, rfl⟩ := hpayload payload rfl
        exact h.performDataCompaction env hcan (h.indexed.compactionPayload env (hperm hcan hmin))
          List.filter_sublist
    · exact .ok h
  | dataCompactionResult =>
    refine hkeep ?_
    simp only [TableSystem.next]
    split
    · rename_i payload params hcompaction
      exact h.dataCompactionResult hcovers hcompaction
    · exact .ok h
  | performIndexMerge opt =>
    refine hkeep ?_
    simp only [TableSystem.next]
    split
    · rename_i fileIndices hmerge
      split
      · rename_i hcan
        exact h.performIndexMerge hcan (getFileIndicesToMerge_sublist hmerge)
      · exact .ok h
    · exact .ok h
  | indexMergeResult =>
    refine hkeep ?_
    simp only [TableSystem.next]
    split
    · rename_i fileIndices fileId hindexMerge
      exact h.indexMergeResult hcovers hindexMerge
    · exact .ok h

theorem nextAction (h : IndexInv env.config.snapshot.identity used sys)
    (hkind : env.config.snapshot.identity.kind ≠ .none) (hcovers : env.CoversFiles)
    {action : SystemAction Row} (hperm : sys.IndexPermitted action) :
    Ensures (sys.nextAction env action) fun sys' =>
      ∃ used', IndexInv env.config.snapshot.identity used' sys' := by
  cases action with
  | table action => exact h.next hkind hcovers hperm
  | batchIngestUnindexed files lsn =>
    cases hperm
    exact (h.batchIngest (h.table.batchIngestUnindexed_nil lsn)).mono fun _ hinv => ⟨used, hinv⟩

theorem run (actions : List (SystemAction Row)) (h : IndexInv env.config.snapshot.identity used sys)
    (hkind : env.config.snapshot.identity.kind ≠ .none) (hcovers : env.CoversFiles)
    (hperm : IndexPermittedRun env sys actions) :
    Ensures (sys.runActions env actions) fun sys' =>
      ∃ used', IndexInv env.config.snapshot.identity used' sys' := by
  induction actions generalizing used sys with
  | nil => exact .pure ⟨used, h⟩
  | cons action rest ih =>
    intro sys' hrun
    obtain ⟨sys₁, hnext, hrest⟩ := bind_eq_ok.mp hrun
    obtain ⟨used₁, h₁⟩ := h.nextAction hkind hcovers hperm.1 sys₁ hnext
    exact ih h₁ (hperm.2 sys₁ hnext) sys' hrest

end IndexInv

/-- Every file is in one index, and the files of indices are there. -/
theorem count_flatMap_files {s : SnapshotTableState Row Ident} (h : s.Indexed) (f : FileId) :
    (s.indices.fileIndices.flatMap (·.files)).count f = if f ∈ s.diskFiles then 1 else 0 := by
  rw [h.perm.count_eq, s.diskFiles.keys_nodup.count]
  simp only [AList.mem_keys]

/-- In every state of a run whose steps meet the condition, files and indices correspond, and
the next update leaves as many of them as it expects. -/
theorem files_match_indices [DecidableEq Ident] {env : TableEnv Row Ident}
    {persisted : PersistedTable Row} {actions : List (SystemAction Row)}
    {sys₀ sys : TableSystem Row Ident} (hkind : env.config.snapshot.identity.kind ≠ .none)
    (hcovers : env.CoversFiles)
    (hpersisted : FilesIndexed persisted.fileIndices persisted.dataFiles.keys)
    (hload : TableSystem.load env persisted = .ok sys₀) (hperm : IndexPermittedRun env sys₀ actions)
    (hrun : sys₀.runActions env actions = .ok sys) :
    (∀ f, (sys.snapshot.indices.fileIndices.flatMap (·.files)).count f =
      if f ∈ sys.snapshot.diskFiles then 1 else 0) ∧
    (Ensures (sys.snapshot.applyTask env.config.snapshot sys.table.takeSnapshotTask.1) fun s =>
      sys.snapshot.expectedDiskFilesCount sys.table.takeSnapshotTask.1 = s.diskFiles.entries.length ∧
      sys.snapshot.expectedFileIndicesCount sys.table.takeSnapshotTask.1 =
        s.indices.fileIndices.length) ∧
    Returns (sys.snapshot.updateFileIndicesToPersisted
      (persistedIndices sys.table.nextSnapshotTask.persistedRecords)) fun s =>
        s.indices.fileIndices.length = sys.snapshot.indices.fileIndices.length := by
  obtain ⟨_, hinv⟩ :=
    (IndexInv.load env hpersisted sys₀ hload).run actions hkind hcovers hperm sys hrun
  refine ⟨count_flatMap_files hinv.indexed, ?_, ?_⟩
  · exact (applyTask_indexed env.config.snapshot hinv.indexed hinv.taskIndexed).mono
      fun s hs => ⟨hs.filesCount, hs.indicesCount⟩
  · obtain ⟨rest, hrest⟩ := hinv.taskIndexed.persisted_perm
    exact (hinv.indexed.updateFileIndicesToPersisted hrest).mono fun s hs => hs.1.length_eq

/-- The number of indices that cover a file of the snapshot, for each one. -/
def indexCounts (sys : TableSystem Nat Nat) : List (FileId × Nat) :=
  sys.snapshot.diskFiles.keys.map fun f =>
    (f, (sys.snapshot.indices.fileIndices.flatMap (·.files)).count f)

theorem natEnv_coversFiles : natEnv.CoversFiles := ⟨fun _ _ _ _ _ _ => rfl, fun _ _ => rfl⟩

theorem files_match_indices_persistedAtOnce :
    Returns (TableSystem.load natEnv emptyTable) fun sys₀ =>
      IndexPermittedRun natEnv sys₀ (persistedAtOnce.map .table) ∧
        Returns (sys₀.runActions natEnv (persistedAtOnce.map .table)) fun sys =>
          sys.indexCounts = [(compactedFile, 1), (localFileIdBase + 200, 1)] ∧
            Ensures (sys.snapshot.applyTask natEnv.config.snapshot sys.table.takeSnapshotTask.1)
              fun s => sys.snapshot.expectedDiskFilesCount sys.table.takeSnapshotTask.1 =
                s.diskFiles.entries.length := by
  have hrun : Returns (TableSystem.load natEnv emptyTable) fun sys₀ =>
      IndexPermittedRun natEnv sys₀ (persistedAtOnce.map .table) ∧
        Returns (sys₀.runActions natEnv (persistedAtOnce.map .table)) fun sys =>
          sys.indexCounts = [(compactedFile, 1), (localFileIdBase + 200, 1)] := by
    decide +kernel
  obtain ⟨sys₀, hload, hperm, sys, hok, hcounts⟩ := hrun
  refine ⟨sys₀, hload, hperm, sys, hok, hcounts, ?_⟩
  exact (files_match_indices (by decide) natEnv_coversFiles .nil hload hperm hok).2.1.mono
    fun _ hs => hs.1

/-- Two of the three files of an index are compacted. -/
def partlyCompacted : List (TableAction Nat) :=
  Maintenance.threeFilesPersisted ++ [.performDataCompaction ⟨2, 2, fun _ _ => true⟩,
    .dataCompactionResult, .createSnapshot ⟨true, false⟩]

/-- The third file of the index loses its index. -/
theorem compaction_loses_index :
    Returns (TableSystem.load Maintenance.smallFilesEnv emptyTable) fun sys₀ =>
      Returns (sys₀.runActions Maintenance.smallFilesEnv (partlyCompacted.map .table)) fun sys =>
        ¬ ∀ f, (sys.snapshot.indices.fileIndices.flatMap (·.files)).count f =
          if f ∈ sys.snapshot.diskFiles then 1 else 0 := by
  have hrun : Returns (TableSystem.load Maintenance.smallFilesEnv emptyTable) fun sys₀ =>
      Returns (sys₀.runActions Maintenance.smallFilesEnv (partlyCompacted.map .table)) fun sys =>
        (sys.snapshot.indices.fileIndices.flatMap (·.files)).count localFileIdBase = 0 ∧
          localFileIdBase ∈ sys.snapshot.diskFiles := by
    decide +kernel
  refine hrun.mono fun sys₀ hrun => hrun.mono fun sys ⟨hcount, hmem⟩ h => ?_
  have hone := h localFileIdBase
  rw [if_pos hmem, hcount] at hone
  cases hone

end TableSystem
end Moonlink.Storage
