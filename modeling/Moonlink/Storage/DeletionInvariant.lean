-- SUMMARY: In every run whose steps keep the log entries of a running compaction, the deleted rows of every file are those of its blob and of the log.
import Moonlink.Storage.Outstanding

namespace Moonlink.Storage

open Lib SnapshotTableState

variable {Row Ident : Type}

namespace TableSystem

/-- The deletions that are being persisted. -/
def persistingLogs (sys : TableSystem Row Ident) : List (FileId × Nat) :=
  (sys.persistence.map (·.committedDeletionLogs)).getD []

structure DeletionInv (used : FileId → Prop) (sys : TableSystem Row Ident) : Prop where
  snapshot : SnapshotOk used sys.manager.persistedDataFiles sys.snapshot.records
  unpersisted : sys.snapshot.unpersistedRecords.Ok used sys.manager.persistedDataFiles
    sys.persistingLogs sys.snapshot.diskFiles
  payload : ∀ p, sys.payload = some p → PayloadOf sys.snapshot p
  persistence : ∀ p, sys.persistence = some p →
    p.Ok used sys.manager.persistedDataFiles sys.snapshot.diskFiles
  persisted : ∀ res, sys.table.nextSnapshotTask.persistedRecords = some res →
    res.ResultOk sys.manager.persistedDataFiles
  running : ∀ payload params, sys.compaction = some (payload, params) →
    RunningOk sys.snapshot.records payload ∧
      params.endId = params.startId + payload.getNewCompactedDataFileIdsNumber
  waiting : ∀ result, sys.table.nextSnapshotTask.dataCompactionResult = some result →
    ResultFits sys.snapshot.records result
  ids : IdsOk used sys
  held : sys.table.Unpersisted
  maintenance : MaintenanceOk sys

/-- The next snapshot keeps the entries of the log for files under compaction: where the
persistence result that waits has one of them, the task names its file. -/
def KeepsCompactingLogs (sys : TableSystem Row Ident) : Prop :=
  ∀ compaction ∈ sys.compaction, ∀ res ∈ sys.table.nextSnapshotTask.persistedRecords,
    ∀ deletion ∈ res.committedDeletionLogs,
      deletion.1 ∈ compaction.1.diskFiles.map (·.fileId) →
      Logged sys.snapshot.committedDeletionLog deletion.1 deletion.2 →
      deletion.1 ∈ sys.table.nextSnapshotTask.compactingDataFiles

instance {sys : TableSystem Row Ident} : Decidable (KeepsCompactingLogs sys) := by
  unfold KeepsCompactingLogs
  infer_instance

theorem KeepsCompactingLogs.not_pruned {sys : TableSystem Row Ident} (h : KeepsCompactingLogs sys)
    {payload : DataCompactionPayload Row FileIndex} {params : CompactionFileParams}
    (hcompaction : sys.compaction = some (payload, params)) :
    ∀ file ∈ payload.diskFiles, ∀ r, Logged sys.snapshot.committedDeletionLog file.fileId r →
      ¬ Pruned sys.table.nextSnapshotTask file.fileId r := by
  rintro file hfile r hlogged ⟨res, hres, hdeletion, hnot⟩
  exact hnot (h _ hcompaction res hres _ hdeletion (List.mem_map_of_mem hfile) hlogged)

variable {used : FileId → Prop} {sys : TableSystem Row Ident} {table : MooncakeTable Row Ident}

namespace DeletionInv

/-! ## Writes -/

/-- A step of the table that holds the ids `new`, of which `alloc` are allocated by it. -/
theorem writes (h : DeletionInv used sys) {new : List FileId} (alloc : List FileId)
    (hstep : MooncakeTable.FileStep new sys.table table)
    {flushes : List (Option Nat × DiskSliceWriter Row Ident)}
    (hflush : ∀ f, (flushIds flushes).count f + new.count f ≤
      (flushIds sys.flushes).count f + alloc.count f)
    (hnodup : alloc.Nodup)
    (halloc : ∀ f ∈ alloc, ¬ Allocated sys.table.nextFileId f ∧ Allocated table.nextFileId f) :
    DeletionInv used { sys with table, flushes } :=
  { h with
    persisted res hres := h.persisted res (hstep.results.persistedRecords ▸ hres)
    waiting result hresult := h.waiting result (hstep.results.dataCompactionResult ▸ hresult)
    ids := h.ids.writes alloc hstep hflush hnodup halloc
    held := hstep.unpersisted h.held
    maintenance := h.maintenance.writes hstep.results flushes }

/-- Most steps of the table hold no more ids. -/
theorem tableStep (h : DeletionInv used sys) (hstep : MooncakeTable.FileStep [] sys.table table) :
    DeletionInv used { sys with table } :=
  h.writes [] hstep (by simp) List.nodup_nil nofun

/-- A flush starts, with the next block of ids. -/
theorem flushStarts (h : DeletionInv used sys) (hstep : MooncakeTable.FileStep [] sys.table table)
    {slice : DiskSliceWriter Row Ident} (hid : slice.tableAutoIncrId = sys.table.nextFileId)
    (hlt : sys.table.nextFileId < table.nextFileId) (xactId : Option Nat) :
    DeletionInv used { sys with table, flushes := sys.flushes ++ [(xactId, slice)] } := by
  refine h.writes (flushFileIds sys.table.nextFileId) hstep (fun f => ?_)
    List.nodup_range' (flushFileIds_alloc hlt)
  simp [flushIds, hid]

/-- A flush completes; its files are held instead of its block. -/
theorem flushCompletes (h : DeletionInv used sys) {idx : Nat}
    {flush : Option Nat × DiskSliceWriter Row Ident} (hflush : sys.flushes[idx]? = some flush)
    {ids : List FileId} (hsub : ids.Sublist (flushFileIds flush.2.tableAutoIncrId))
    (hstep : MooncakeTable.FileStep ids sys.table table) :
    DeletionInv used { sys with table, flushes := sys.flushes.eraseIdx idx } := by
  refine h.writes [] hstep (fun f => ?_) List.nodup_nil nofun
  rw [List.count_nil]
  exact count_flushIds_eraseIdx hflush hsub f

theorem applyFlush [DecidableEq Ident] (h : DeletionInv used sys) (env : TableEnv Row Ident)
    {idx : Nat} {flush : Option Nat × DiskSliceWriter Row Ident}
    (hflush : sys.flushes[idx]? = some flush) :
    Ensures (sys.applyFlush env idx flush) (DeletionInv used) := by
  refine .bind (flush.2.write_ensures env.writer env.config.parquetFileSize) fun slice hsub => ?_
  simp only
  split
  · exact .bind (sys.table.applyFlushResult_ensures slice) fun table hstep =>
      .pure (h.flushCompletes hflush hsub hstep)
  · exact .bind (sys.table.applyStreamFlushResult_ensures _ slice) fun table hstep =>
      .pure (h.flushCompletes hflush hsub hstep)

theorem batchIngest (h : DeletionInv used sys) {n : Nat}
    (hstep : MooncakeTable.FileStep (List.range' sys.table.nextFileId n) sys.table table)
    (h32 : sys.table.nextFileId + n < 2 ^ 32) (hnext : table.nextFileId = sys.table.nextFileId + n) :
    DeletionInv used { sys with table } := by
  exact h.writes _ hstep (fun f => le_rfl) List.nodup_range' (range'_alloc h32 hnext)

/-! ## Snapshots -/

theorem taskOk (h : DeletionInv used sys) :
    TaskOk used sys.manager.persistedDataFiles sys.snapshot.records sys.table.nextSnapshotTask where
  persisted := h.persisted
  compaction := h.waiting
  nodup := h.ids.nodup_takenFileIds
  fresh f hf := h.ids.fresh f (takenFileIds_subset hf)
  outputs := h.held.outputs

theorem createSnapshot [DecidableEq Ident] (h : DeletionInv used sys) (env : TableEnv Row Ident)
    (opt : SnapshotOption) (hkeeps : KeepsCompactingLogs sys) :
    Ensures (sys.createSnapshot env opt) fun sys' => ∃ used', DeletionInv used' sys' := by
  have htask : TaskOk used sys.manager.persistedDataFiles sys.snapshot.records
      sys.table.takeSnapshotTask.1 :=
    ⟨h.taskOk.persisted, h.taskOk.compaction, h.taskOk.nodup, h.taskOk.fresh, h.taskOk.outputs⟩
  refine .bind (updateSnapshot_ensures sys.snapshot env.config.snapshot
    sys.table.takeSnapshotTask.1 opt h.snapshot htask) ?_
  rintro ⟨snapshot, payload⟩ ⟨⟨result, hupdated⟩, hpayload⟩
  refine .pure ⟨fun f => used f ∨ f ∈ takenFileIds sys.table.nextSnapshotTask, ?_⟩
  have hlogs : ∀ f r, (f, r) ∈ sys.persistingLogs → f ∈ sys.snapshot.diskFiles →
      sys.snapshot.diskFiles.Deleted f r := by
    intro f r hlog
    unfold persistingLogs at hlog
    cases hp : sys.persistence with
    | none => simp [hp] at hlog
    | some p => exact ((h.persistence p hp).logs f r (by simpa [hp] using hlog)).2
  obtain ⟨records, hprune, hbuffer⟩ := hupdated.buffered
  have hpruned := UnpersistedRecords.prunePersistedRecords_ensures _ _ records hprune
  have hbuffered := UnpersistedRecords.bufferUnpersistedRecords_taken hbuffer
  have htaken : ResultTaken sys.snapshot.records snapshot.records
      sys.table.nextSnapshotTask.dataCompactionResult result := hupdated.taken
  exact {
    snapshot := hupdated.ok
    unpersisted := h.unpersisted.update h.snapshot hlogs hupdated.evolves htaken hpruned hbuffered
    payload := hpayload
    persistence := fun p hp => (h.persistence p hp).evolves hupdated.evolves fun f hf => .inl hf
    persisted := nofun
    running := by
      intro compaction params hcompaction
      have hcompaction : sys.compaction = some (compaction, params) := hcompaction
      obtain ⟨hrun, hids⟩ := h.running compaction params hcompaction
      have hnone : sys.table.nextSnapshotTask.dataCompactionResult = none := by
        have hstatus := h.maintenance.running (.inl (by simp [hcompaction]))
        refine (h.maintenance.waiting.resolve_right fun hready => ?_).1
        rw [hstatus] at hready
        cases hready.1
      exact ⟨hupdated.running compaction hnone hrun (hkeeps.not_pruned hcompaction), hids⟩
    waiting := nofun
    ids := h.ids.createSnapshot rfl rfl rfl rfl rfl
    held := ⟨nofun, h.held.streams⟩
    maintenance := by
      refine h.maintenance.createSnapshot hpruned hbuffered ?_
        (fun p hp => (hpayload p hp).maintenanceOf) ⟨rfl, rfl⟩
      intro hnone
      rw [hnone] at htaken
      cases htaken
      rfl }

/-! ## Persistence -/

theorem persistSnapshot (h : DeletionInv used sys) {p : PersistenceSnapshotPayload Row}
    (hp : sys.payload = some p) (hnone : sys.persistence = none) :
    Ensures (sys.persistSnapshot p) (DeletionInv used) := by
  refine .bind (sys.table.reserveFileIds_ensures _) ?_
  rintro table ⟨hstep, -, -⟩
  have hwrites := h.tableStep hstep
  have hof := h.payload p hp
  refine .pure { hwrites with
    snapshot := h.snapshot
    unpersisted := ?_
    payload := nofun
    persistence := ?_
    running := h.running
    ids := ⟨hwrites.ids.nodup, hwrites.ids.fresh, hwrites.ids.allocated, hwrites.ids.used⟩
    maintenance := h.maintenance.persistSnapshot hp hof.maintenanceOf hnone hstep.results }
  · refine ⟨h.unpersisted.added, h.unpersisted.removed, ?_⟩
    intro location hloc
    obtain ⟨f, r, heq, hused, hnot, hdel, -⟩ := h.unpersisted.remap location hloc
    exact ⟨f, r, heq, hused, hnot, hdel, fun hlog => hnot (hof.deleted f r hlog).mem⟩
  · rintro _ ⟨⟩
    refine ⟨hof.vectors, ?_, ?_, ?_, ?_⟩
    · unfold PersistenceSnapshotPayload.dataFilesToImport
      rw [hof.dataFiles, hof.compactedToAdd]
      exact h.unpersisted.added
    · rw [hof.compactedToRemove]
      exact h.unpersisted.removed
    · intro f r hdel hmem
      rw [hof.remap] at hmem
      obtain ⟨f', r', heq, -, -, hnot, -⟩ := h.unpersisted.remap _ hmem
      cases heq
      exact hnot hdel
    · intro f r hlog
      have hdel := hof.deleted f r hlog
      exact ⟨h.snapshot.files f hdel.mem, fun _ => hdel⟩

theorem persistenceResult (h : DeletionInv used sys) {p : PersistenceSnapshotPayload Row}
    (hp : sys.persistence = some p) : Ensures (sys.persistenceResult p) (DeletionInv used) := by
  have hok := h.persistence p hp
  have hlogs : sys.persistingLogs = p.committedDeletionLogs := by simp [persistingLogs, hp]
  refine .bind (IcebergTableManager.syncSnapshot_ensures sys.manager p hok.vectors hok.remap) ?_
  rintro ⟨res, manager⟩ hsynced
  intro sys' hok'
  obtain ⟨table, hset, hok'⟩ := bind_eq_ok.mp hok'
  obtain ⟨_, hassert, hset⟩ := bind_eq_ok.mp hset
  have hnone : sys.table.nextSnapshotTask.persistedRecords = none := by
    simpa using StoragePanic.of_assert hassert
  cases hset
  cases hok'
  refine { h with
    snapshot := ⟨h.snapshot.represented, h.snapshot.files, ?_, ?_, ?_⟩
    unpersisted := ⟨h.unpersisted.added, h.unpersisted.removed, ?_⟩
    persistence := nofun
    persisted := ?_
    ids := ⟨h.ids.nodup, h.ids.fresh, h.ids.allocated, h.ids.used⟩
    held := ⟨h.held.outputs, h.held.streams⟩
    maintenance := h.maintenance.persistenceResult hp hsynced.maintenanceOf hnone rfl }
  · intro f hf
    rcases hsynced.mem f hf with hold | hnew
    · exact h.snapshot.manager f hold
    · obtain ⟨file, hfile, rfl⟩ := List.mem_map.mp hnew
      exact hok.added file hfile
  · intro f r hdel hf
    rcases (hsynced.deleted f r).mp hdel with ⟨hold, -⟩ | hlog
    · exact h.snapshot.persisted f r hold hf
    · exact (hok.logs f r hlog).2 hf
  · intro f r hblob
    have hmem : f ∈ sys.snapshot.diskFiles := hblob.mem
    exact (hsynced.deleted f r).mpr (.inl ⟨h.snapshot.blob f r hblob,
      fun hremoved => (hok.removed f hremoved).2 hmem⟩)
  · intro location hloc
    obtain ⟨f, r, heq, hused, hnot, hdel, hlog⟩ := h.unpersisted.remap location hloc
    refine ⟨f, r, heq, hused, hnot, fun hdel' => ?_, by simp [persistingLogs]⟩
    rcases (hsynced.deleted f r).mp hdel' with ⟨hold, -⟩ | hnew
    · exact hdel hold
    · exact hlog (hlogs ▸ hnew)
  · rintro _ ⟨⟩
    refine ⟨hsynced.blob, fun f r hlog => ?_⟩
    rw [hsynced.committedDeletionLogs] at hlog
    exact ⟨(hsynced.deleted f r).mpr (.inr hlog), hsynced.logged f r hlog⟩

/-! ## Compaction -/

/-- A compaction knows the deletions of the blobs. -/
theorem runningOk_compactionPayload (env : TableEnv Row Ident) {s : SnapshotTableState Row Ident}
    (hrep : s.records.Represented) (fileIds : List FileId) (fileIndices : List FileIndex) :
    RunningOk s.records (s.compactionPayload env fileIds fileIndices) where
  files file hfile := by
    obtain ⟨e, he, rfl⟩ := List.mem_map.mp hfile
    exact DiskFiles.mem_iff.mpr ⟨e.2, AssocMap.lookup_eq_some_iff.mpr (List.mem_filter.mp he).1⟩
  logged f r hlive hdel := by
    refine ((hrep f r).mp hdel).resolve_left ?_
    rintro ⟨entry, hentry, hr⟩
    unfold DataCompactionPayload.liveRows at hlive
    rw [List.map_flatMap, List.mem_flatMap] at hlive
    obtain ⟨file, hfile, hlive⟩ := hlive
    obtain ⟨e, he, rfl⟩ := List.mem_map.mp hfile
    obtain ⟨f', entry'⟩ := e
    have hlook : s.diskFiles.lookup f' = some entry' :=
      AssocMap.lookup_eq_some_iff.mpr (List.mem_filter.mp he).1
    unfold SingleFileToCompact.liveRows at hlive
    rw [locateLive_map_fst, List.mem_map] at hlive
    obtain ⟨i, hi, heq⟩ := hlive
    cases heq
    have heq : s.diskFiles.lookup f' = some entry := hentry
    rw [hlook] at heq
    cases heq
    -- The row is in the blob, so the compaction knows it.
    obtain ⟨hrange, hactive⟩ := List.mem_filter.mp hi
    rw [List.mem_range'_1] at hrange
    cases hblob : entry.puffinDeletionBlob with
    | none => simp [hblob] at hr
    | some rows =>
      have hdeleted : ((BatchDeletionVector.ofDeletedRows entry.data.length rows).isDeleted r) =
          true := by
        refine BatchDeletionVector.isDeleted_of_mem
          (BatchDeletionVector.mem_collectDeletedRows_ofDeletedRows.mpr ⟨?_, ?_⟩)
        · simpa [fileToCompact, env.flatten_readBatches] using hrange.2
        · simpa [hblob] using hr
      simp [fileToCompact, SingleFileToCompact.loadDeletionVector, hblob, hdeleted] at hactive

theorem getPayloadToCompact_ensures (env : TableEnv Row Ident) (s : SnapshotTableState Row Ident)
    (opt : CompactionOption Row) :
    Ensures (s.getPayloadToCompact env opt) fun res => ∀ payload, res = some payload →
      ∃ fileIds fileIndices, payload = s.compactionPayload env fileIds fileIndices := by
  simp only [getPayloadToCompact]
  split
  · exact .pure nofun
  · refine .bind_any fun fileIds => .pure fun payload hpayload => ?_
    split at hpayload
    · cases hpayload
    · cases hpayload
      exact ⟨_, _, rfl⟩

variable {payload : DataCompactionPayload Row FileIndex}

theorem performDataCompaction (h : DeletionInv used sys) (env : TableEnv Row Ident)
    (hcan : sys.canMaintain = true) (hrun : RunningOk sys.snapshot.records payload) :
    Ensures (sys.performDataCompaction env payload) (DeletionInv used) := by
  obtain ⟨-, -, hcompaction, hindexMerge, hnoMaintenance⟩ := h.maintenance.idle hcan
  refine .bind (sys.table.performDataCompaction_ensures payload) ?_
  rintro table ⟨hstep, hnext, htask⟩
  split
  · rename_i hlt
    have hwrites := h.tableStep hstep
    refine .pure { h with
      persisted := by
        rw [htask]
        exact h.persisted
      running := by
        rintro _ _ ⟨⟩
        exact ⟨hrun, hnext⟩
      waiting := by
        rw [htask]
        exact h.waiting
      ids := h.ids.performDataCompaction env hcompaction hstep hnext htask hlt
      held := by
        refine ⟨?_, hwrites.held.streams⟩
        rw [htask]
        exact h.held.outputs
      maintenance := ?_ }
    · refine h.maintenance.start hcan (.inr hindexMerge) ?_ ?_
      · rw [htask]
        exact hnoMaintenance
      · rw [htask]
  · exact .error

theorem resultFits_of_built (h : DeletionInv used sys) {params : CompactionFileParams}
    (hcompaction : sys.compaction = some (payload, params))
    {result : DataCompactionResult Row FileIndex} (hbuilt : Built payload params result) :
    ResultFits sys.snapshot.records result := by
  obtain ⟨hrun, hids⟩ := h.running payload params hcompaction
  refine ⟨?_, ?_, ?_, ?_, ?_⟩
  · intro f hf
    rw [hbuilt.oldDataFiles] at hf
    obtain ⟨file, hfile, rfl⟩ := List.mem_map.mp hf
    exact hrun.files file hfile
  · intro f hf hmem
    have hblock := (compactedFileIds_sublist hbuilt hids).subset hf
    refine h.ids.fresh f ?_ (h.snapshot.files f hmem)
    simp [heldIds, hcompaction, hblock]
  · intro location hloc
    have hlive := (hbuilt.compacted.domain location).mp hloc
    unfold DataCompactionPayload.liveRows at hlive
    rw [List.map_flatMap, List.mem_flatMap] at hlive
    obtain ⟨file, hfile, hlive⟩ := hlive
    unfold SingleFileToCompact.liveRows at hlive
    rw [locateLive_map_fst, List.mem_map] at hlive
    obtain ⟨r, -, rfl⟩ := hlive
    refine ⟨file.fileId, ?_, r, rfl⟩
    rw [hbuilt.oldDataFiles]
    exact List.mem_map_of_mem hfile
  · intro location new hlook
    obtain ⟨file, hfile, hnew, r, -, hlocation⟩ := hbuilt.compacted.bounds location new hlook
    refine ⟨?_, ?_⟩
    · rw [hnew]
      exact List.mem_map_of_mem (f := fun f => f.1.fileId) hfile
    · rw [hlocation, hnew]
      rfl
  · intro f r hmem hdel
    exact hrun.logged f r ((hbuilt.compacted.domain _).mp hmem) hdel

theorem dataCompactionResult (h : DeletionInv used sys) (env : TableEnv Row Ident)
    {params : CompactionFileParams} (hcompaction : sys.compaction = some (payload, params)) :
    Ensures (sys.dataCompactionResult env payload params) (DeletionInv used) := by
  obtain ⟨hrun, hids⟩ := h.running payload params hcompaction
  obtain ⟨result, hbuild, hbuilt⟩ := build_spec payload params env.writer env.compactIndices hids.ge
  have hindexMerge : sys.indexMerge = none := by
    refine h.maintenance.single.resolve_left ?_
    simp [hcompaction]
  intro sys' hok
  unfold TableSystem.dataCompactionResult at hok
  rw [hbuild, ok_bind] at hok
  obtain ⟨table, hset, hok⟩ := bind_eq_ok.mp hok
  obtain ⟨_, hassert, hset⟩ := bind_eq_ok.mp hset
  have hnone : sys.table.nextSnapshotTask.dataCompactionResult = none := by
    simpa using StoragePanic.of_assert hassert
  cases hset
  cases hok
  exact { h with
    running := nofun
    waiting := by
      rintro _ ⟨⟩
      exact h.resultFits_of_built hcompaction hbuilt
    ids := h.ids.dataCompactionResult hcompaction hnone hbuilt hids
    held := ⟨h.held.outputs, h.held.streams⟩
    maintenance := h.maintenance.finish (.inl (by simp [hcompaction])) rfl hindexMerge }

/-! ## Index merge -/

theorem performIndexMerge (h : DeletionInv used sys) (hcan : sys.canMaintain = true)
    (fileIndices : List FileIndex) :
    Ensures (sys.performIndexMerge fileIndices) (DeletionInv used) := by
  obtain ⟨-, -, hcompaction, -, hnoMaintenance⟩ := h.maintenance.idle hcan
  refine .bind (sys.table.reserveFileIds_ensures 1) ?_
  rintro table ⟨hstep, -, -⟩
  have hwrites := h.tableStep hstep
  refine .pure { h with
    persisted := hwrites.persisted
    waiting := hwrites.waiting
    ids := ⟨hwrites.ids.nodup, hwrites.ids.fresh, hwrites.ids.allocated, hwrites.ids.used⟩
    held := hwrites.held
    maintenance := h.maintenance.start hcan (.inl hcompaction) ?_ hstep.results.persistedRecords }
  exact ⟨hstep.results.dataCompactionResult.trans hnoMaintenance.1,
    hstep.results.indexMergeResult.trans hnoMaintenance.2⟩

theorem indexMergeResult (h : DeletionInv used sys) (env : TableEnv Row Ident)
    {fileIndices : List FileIndex} {fileId : FileId}
    (hindexMerge : sys.indexMerge = some (fileIndices, fileId)) :
    Ensures (sys.indexMergeResult env fileIndices fileId) (DeletionInv used) := by
  have hcompaction : sys.compaction = none := by
    refine h.maintenance.single.resolve_right ?_
    simp [hindexMerge]
  intro sys' hok
  obtain ⟨table, hset, hok⟩ := bind_eq_ok.mp hok
  obtain ⟨_, -, hset⟩ := bind_eq_ok.mp hset
  cases hset
  cases hok
  exact { h with
    ids := ⟨h.ids.nodup, h.ids.fresh, h.ids.allocated, h.ids.used⟩
    held := ⟨h.held.outputs, h.held.streams⟩
    maintenance := h.maintenance.finish (.inr (by simp [hindexMerge])) hcompaction rfl }

/-! ## Runs -/

/-- A table that was loaded has the deletions of its blobs, and none in the log. -/
theorem load [DecidableEq Ident] (env : TableEnv Row Ident) (persisted : PersistedTable Row) :
    Ensures (load env persisted) (DeletionInv (· ∈ persisted.dataFiles)) := by
  refine .bind_any ?_
  rintro ⟨memSlice, counter⟩
  refine .pure ?_
  have hblob : ∀ entry : DataFileEntry Row,
      (PersistedTable.diskFileEntry entry).puffinDeletionBlob.getD [] =
        entry.deletionVector.collectDeletedRows := by
    intro entry
    unfold PersistedTable.diskFileEntry
    by_cases hnil : entry.deletionVector.collectDeletedRows = [] <;> simp [hnil]
  have hmem : ∀ f, f ∈ persisted.dataFiles.mapValues PersistedTable.diskFileEntry ↔
      f ∈ persisted.dataFiles := by
    intro f
    rw [← AList.lookup_isSome, ← AList.lookup_isSome, AssocMap.lookup_mapValues, Option.isSome_map]
  refine {
    snapshot := ⟨?_, fun f hf => (hmem f).mp hf, fun f hf => hf, ?_, ?_⟩
    unpersisted := ⟨by simp [UnpersistedRecords.new], by simp [UnpersistedRecords.new],
      by simp [UnpersistedRecords.new]⟩
    payload := fun _ hp => by cases hp
    persistence := fun _ hp => by cases hp
    persisted := fun _ hres => by cases hres
    running := fun _ _ hrun => by cases hrun
    waiting := fun _ hresult => by cases hresult
    ids := ?_
    held := ?_
    maintenance := ?_ }
  · intro f r
    unfold DiskFiles.Deleted DiskFiles.InBlob
    simp only [records, AssocMap.lookup_mapValues, Option.map_eq_some_iff, exists_exists_and_eq_and,
      hblob]
    simp [Logged, PersistedTable.diskFileEntry]
  · rintro f r ⟨entry, hlook, hr⟩ -
    exact ⟨PersistedTable.diskFileEntry entry, by simp [records, AssocMap.lookup_mapValues, hlook], hr⟩
  · rintro f r ⟨entry, hlook, hr⟩
    simp only [records, AssocMap.lookup_mapValues, Option.map_eq_some_iff] at hlook
    obtain ⟨entry, hlook, rfl⟩ := hlook
    exact ⟨entry, hlook, hblob entry ▸ hr⟩
  · exact ⟨List.nodup_nil, fun _ hf => (by cases hf), fun _ hf => (by cases hf), fun f hf =>
      .inl ⟨persisted.fileIds_lt f hf, (persisted.fileIds_lt f hf).trans persisted.nextFileId_lt⟩⟩
  · exact ⟨fun _ hf => (by cases hf), fun _ _ hlook => (by cases hlook)⟩
  · exact ⟨by simp, .inl rfl, .inl ⟨rfl, rfl⟩, fun _ => ⟨le_rfl, le_rfl, le_rfl, le_rfl⟩,
      fun _ _ hp => (by cases hp), fun hp => (by cases hp)⟩

end DeletionInv

/-! ## Runs -/

/-- The condition on a step. -/
def Permitted (sys : TableSystem Row Ident) : TableAction Row → Prop
  | .createSnapshot _ => KeepsCompactingLogs sys
  -- A streaming transaction is committed once.
  | .commitTransactionStream xactId _ =>
    ∀ st ∈ sys.table.transactionStreamStates.lookup xactId, st.status = .pending
  | _ => True

instance {sys : TableSystem Row Ident} {action : TableAction Row} :
    Decidable (sys.Permitted action) :=
  match action with
  | .createSnapshot _ => inferInstanceAs (Decidable (KeepsCompactingLogs sys))
  | .commitTransactionStream xactId _ =>
    inferInstanceAs (Decidable (∀ st ∈ sys.table.transactionStreamStates.lookup xactId, st.status = .pending))
  | .append _ | .delete .. | .commit _ | .flush _ | .appendInStreamBatch .. | .deleteInStreamBatch ..
  | .flushStream _ | .abortInStreamBatch _ | .batchIngest .. | .flushResult _ | .persistSnapshot
  | .persistenceResult | .performDataCompaction _ | .dataCompactionResult | .performIndexMerge _
  | .indexMergeResult => isTrue trivial

/-- Every step of the run meets the condition. -/
def PermittedRun [DecidableEq Ident] (env : TableEnv Row Ident) (sys : TableSystem Row Ident) :
    List (TableAction Row) → Prop
  | [] => True
  | action :: rest => sys.Permitted action ∧
      Ensures (sys.next env action) fun sys' => PermittedRun env sys' rest

instance PermittedRun.decidable [DecidableEq Ident] (env : TableEnv Row Ident) :
    (sys : TableSystem Row Ident) → (actions : List (TableAction Row)) →
      Decidable (PermittedRun env sys actions)
  | _, [] => isTrue trivial
  | sys, action :: rest =>
    have : DecidablePred fun sys' => PermittedRun env sys' rest := fun sys' =>
      PermittedRun.decidable env sys' rest
    inferInstanceAs (Decidable (sys.Permitted action ∧ Ensures (sys.next env action) _))

theorem DeletionInv.next [DecidableEq Ident] (h : DeletionInv used sys) (env : TableEnv Row Ident)
    {action : TableAction Row} (hperm : sys.Permitted action) :
    Ensures (sys.next env action) fun sys' => ∃ used', DeletionInv used' sys' := by
  have hkeep : ∀ {x : Except StoragePanic (TableSystem Row Ident)},
      Ensures x (DeletionInv used) → Ensures x fun sys' => ∃ used', DeletionInv used' sys' :=
    fun hx => hx.mono fun _ hinv => ⟨used, hinv⟩
  cases action with
  | append row =>
    exact hkeep (.bind (sys.table.append_ensures _ row) fun _ hstep => .pure (h.tableStep hstep))
  | delete row lsn deleteIfExists =>
    exact hkeep (.bind (sys.table.deleteImpl_ensures _ row lsn deleteIfExists)
      fun _ hstep => .pure (h.tableStep hstep))
  | commit lsn =>
    exact hkeep (.bind (sys.table.commit_ensures lsn) fun _ hstep => .pure (h.tableStep hstep))
  | flush lsn =>
    refine hkeep (.bind (sys.table.flush_ensures lsn) ?_)
    rintro ⟨slice, table⟩ ⟨hstep, hslice⟩
    refine .pure ?_
    cases slice with
    | none => simpa using h.tableStep hstep
    | some slice =>
      obtain ⟨hid, hlt⟩ := hslice slice rfl
      exact h.flushStarts hstep hid hlt none
  | appendInStreamBatch row xactId =>
    exact hkeep (.bind (sys.table.appendInStreamBatch_ensures _ row xactId)
      fun _ hstep => .pure (h.tableStep hstep))
  | deleteInStreamBatch row xactId =>
    exact hkeep (.bind (sys.table.deleteInStreamBatch_ensures _ row xactId)
      fun _ hstep => .pure (h.tableStep hstep))
  | flushStream xactId =>
    refine hkeep (.bind (sys.table.flushStream_ensures xactId none) ?_)
    rintro ⟨slice, table⟩ ⟨hstep, hid, hlt, -⟩
    exact .pure (h.flushStarts hstep hid hlt (some xactId))
  | abortInStreamBatch xactId =>
    exact hkeep (.bind (sys.table.abortInStreamBatch_ensures xactId)
      fun _ hstep => .pure (h.tableStep hstep))
  | commitTransactionStream xactId lsn =>
    refine hkeep (.bind (sys.table.commitTransactionStream_ensures xactId lsn hperm) ?_)
    rintro ⟨slice, table⟩ ⟨hstep, hid, hlt⟩
    exact .pure (h.flushStarts hstep hid hlt (some xactId))
  | batchIngest files lsn =>
    refine hkeep (.bind (sys.table.batchIngest_ensures _ files lsn) ?_)
    rintro table ⟨hstep, h32, hnext⟩
    exact .pure (h.batchIngest hstep h32 hnext)
  | flushResult idx =>
    refine hkeep ?_
    simp only [TableSystem.next]
    split
    · rename_i flush hflush
      exact h.applyFlush env hflush
    · exact .ok h
  | createSnapshot opt => exact h.createSnapshot env opt hperm
  | persistSnapshot =>
    refine hkeep ?_
    simp only [TableSystem.next]
    split
    · rename_i payload hpayload
      split
      · rename_i hcan
        refine h.persistSnapshot hpayload ?_
        simp only [canPersist, Bool.and_eq_true, Option.isNone_iff_eq_none] at hcan
        exact hcan.1.1
      · exact .ok h
    · exact .ok h
  | persistenceResult =>
    refine hkeep ?_
    simp only [TableSystem.next]
    split
    · rename_i payload hpersistence
      exact h.persistenceResult hpersistence
    · exact .ok h
  | performDataCompaction opt =>
    refine hkeep ?_
    simp only [TableSystem.next]
    split
    · rename_i hcan
      refine .bind (getPayloadToCompact_ensures env sys.snapshot opt) fun payload hpayload => ?_
      cases payload with
      | none => exact .pure h
      | some payload =>
        obtain ⟨fileIds, fileIndices, rfl⟩ := hpayload payload rfl
        exact h.performDataCompaction env hcan
          (runningOk_compactionPayload env h.snapshot.represented fileIds fileIndices)
    · exact .ok h
  | dataCompactionResult =>
    refine hkeep ?_
    simp only [TableSystem.next]
    split
    · rename_i payload params hcompaction
      exact h.dataCompactionResult env hcompaction
    · exact .ok h
  | performIndexMerge opt =>
    refine hkeep ?_
    simp only [TableSystem.next]
    split
    · rename_i fileIndices _
      split
      · rename_i hcan
        exact h.performIndexMerge hcan fileIndices
      · exact .ok h
    · exact .ok h
  | indexMergeResult =>
    refine hkeep ?_
    simp only [TableSystem.next]
    split
    · rename_i fileIndices fileId hindexMerge
      exact h.indexMergeResult env hindexMerge
    · exact .ok h

theorem DeletionInv.run [DecidableEq Ident] (env : TableEnv Row Ident)
    (actions : List (TableAction Row)) (h : DeletionInv used sys)
    (hperm : PermittedRun env sys actions) :
    Ensures (sys.run env actions) fun sys' => ∃ used', DeletionInv used' sys' := by
  induction actions generalizing used sys with
  | nil => exact .pure ⟨used, h⟩
  | cons action rest ih =>
    intro sys' hrun
    obtain ⟨sys₁, hnext, hrest⟩ := bind_eq_ok.mp hrun
    obtain ⟨used₁, h₁⟩ := h.next env hperm.1 sys₁ hnext
    exact ih h₁ (hperm.2 sys₁ hnext) sys' hrest

/-- In every state of a run whose steps meet the condition, the deleted rows of each file
are those of its blob and of the log. -/
theorem deletions_represented [DecidableEq Ident] {env : TableEnv Row Ident}
    {persisted : PersistedTable Row} {actions : List (TableAction Row)}
    {sys₀ sys : TableSystem Row Ident} (hload : TableSystem.load env persisted = .ok sys₀)
    (hperm : PermittedRun env sys₀ actions) (hrun : sys₀.run env actions = .ok sys) :
    sys.snapshot.records.Represented := by
  obtain ⟨_, hinv⟩ := (DeletionInv.load env persisted sys₀ hload).run env actions hperm sys hrun
  exact hinv.snapshot.represented

/-! ## A compaction over several snapshots -/

def natIdentity : IdentityProp Nat Nat where
  kind := .singlePrimitiveKey
  columns := id
  lookupKey := id
  lookupKey_eq _ _ h := h
  columns_eq _ _ _ h := h
  equalsMoonlinkRow i r := i == r
  equalsRecordBatchAtOffset i r := some (i == r)
  equalsParquetAtOffset i r := some (i == r)

/-- Rows are their own key, and every threshold is one. -/
def natEnv : TableEnv Nat Nat where
  config := ⟨⟨natIdentity, 4, 1, 1, 1, 1, 1⟩, 100⟩
  writer := ⟨fun b => b.flatten.length, fun b => b.flatten.length + 1, fun _ => Nat.succ_pos _⟩
  readBatches rows := [rows]
  flatten_readBatches := by simp
  dataFileFinalSize := 100
  compactIndices _ id old files remap _ :=
    ⟨id, files, old.flatMap fun i => i.entries.filterMap fun e => (remap e.2).map fun l => (e.1, l)⟩
  mergeIndices indices id := ⟨id, indices.flatMap (·.files), indices.flatMap (·.entries)⟩

def emptyTable : PersistedTable Nat := ⟨∅, [], none, 0, 0, by simp, by decide⟩

/-- The rows 1 and 2 are persisted, row 1 is deleted, and while its deletion is being
persisted a compaction of both files starts. -/
def compactionStarted : List (TableAction Nat) :=
  [.append 1, .commit 10, .flush 10, .flushResult 0,
   .append 2, .commit 20, .flush 20, .flushResult 0,
   .createSnapshot ⟨false, false⟩, .persistSnapshot, .persistenceResult,
   .delete 1 20 false, .append 5, .commit 30, .flush 30, .flushResult 0,
   .createSnapshot ⟨false, false⟩, .persistSnapshot,
   .performDataCompaction ⟨2, 100, fun _ _ => true⟩]

/-- The deletion is persisted in the snapshot that knows of the compaction. -/
def persistedAtOnce : List (TableAction Nat) :=
  compactionStarted ++ [.persistenceResult, .createSnapshot ⟨true, false⟩,
    .dataCompactionResult, .createSnapshot ⟨true, false⟩]

/-- The deletion is persisted two snapshots later. -/
def persistedLate : List (TableAction Nat) :=
  compactionStarted ++ [.createSnapshot ⟨true, false⟩, .createSnapshot ⟨true, false⟩,
    .persistenceResult, .createSnapshot ⟨true, false⟩,
    .dataCompactionResult, .createSnapshot ⟨true, false⟩]

/-- The deleted rows of a file, those of its blob, and the log. -/
def fileDeletions (sys : TableSystem Nat Nat) (fileId : FileId) :
    Option (List Nat × List Nat) × List RecordLocation :=
  ((sys.snapshot.diskFiles.lookup fileId).map fun entry =>
    (entry.committedDeletionVector.collectDeletedRows, entry.puffinDeletionBlob.getD []),
    sys.snapshot.committedDeletionLog.map (·.pos))

/-- The id of the file that the compaction writes. -/
def compactedFile : FileId := localFileIdBase + 400

theorem deletions_represented_persistedAtOnce : Returns (TableSystem.load natEnv emptyTable) fun sys₀ =>
    PermittedRun natEnv sys₀ persistedAtOnce ∧
      Returns (sys₀.run natEnv persistedAtOnce) fun sys =>
        sys.fileDeletions compactedFile = (some ([0], []), [.diskFile compactedFile 0]) ∧
          sys.snapshot.records.Represented := by
  have hrun : Returns (TableSystem.load natEnv emptyTable) fun sys₀ =>
      PermittedRun natEnv sys₀ persistedAtOnce ∧
        Returns (sys₀.run natEnv persistedAtOnce) fun sys =>
          sys.fileDeletions compactedFile = (some ([0], []), [.diskFile compactedFile 0]) := by
    decide +kernel
  obtain ⟨sys₀, hload, hperm, sys, hok, hdeletions⟩ := hrun
  exact ⟨sys₀, hload, hperm, sys, hok, hdeletions, deletions_represented hload hperm hok⟩

/-- The guard is reset by the first of the snapshots, so the log loses the deletion. -/
theorem compaction_loses_deletion : Returns (TableSystem.load natEnv emptyTable) fun sys₀ =>
    Returns (sys₀.run natEnv persistedLate) fun sys => ¬ sys.snapshot.records.Represented := by
  have hrun : Returns (TableSystem.load natEnv emptyTable) fun sys₀ =>
      Returns (sys₀.run natEnv persistedLate) fun sys =>
        sys.fileDeletions compactedFile = (some ([0], []), []) := by
    decide +kernel
  obtain ⟨sys₀, hload, sys, hok, hdeletions⟩ := hrun
  refine ⟨sys₀, hload, sys, hok, fun hrep => ?_⟩
  simp only [fileDeletions, Prod.mk.injEq, Option.map_eq_some_iff, List.map_eq_nil_iff] at hdeletions
  obtain ⟨⟨entry, hlook, hdel, hblob⟩, hlog⟩ := hdeletions
  have hdeleted : sys.snapshot.diskFiles.Deleted compactedFile 0 := ⟨entry, hlook, by simp [hdel]⟩
  rcases (hrep compactedFile 0).mp hdeleted with ⟨entry', hlook', hmem⟩ | ⟨deletion, hmem, -⟩
  · rw [show sys.snapshot.records.files = sys.snapshot.diskFiles from rfl, hlook] at hlook'
    cases hlook'
    simp [hblob] at hmem
  · rw [show sys.snapshot.records.log = sys.snapshot.committedDeletionLog from rfl, hlog] at hmem
    cases hmem

end TableSystem
end Moonlink.Storage
