-- SUMMARY: The file ids that a table holds for files which are not in the snapshot yet, and how each operation of the table changes them.
import Moonlink.Storage.DeletionLog

namespace Moonlink.Storage

open Lib

variable {Row Ident : Type}

/-! ## Files of a disk slice -/

/-- The ids that a flush may use. -/
def flushFileIds (tableAutoIncrId : Nat) : List FileId :=
  List.range' (localFileIdBase + tableAutoIncrId * numFilesPerFlush) numFilesPerFlush

theorem getUniqueFileIdForFlush_ensures (tableAutoIncrId fileIdx : Nat) :
    Ensures (getUniqueFileIdForFlush tableAutoIncrId fileIdx) fun fileId =>
      fileIdx < numFilesPerFlush ∧
        fileId = localFileIdBase + tableAutoIncrId * numFilesPerFlush + fileIdx := by
  intro fileId h
  obtain ⟨_, hassert, h⟩ := bind_eq_ok.mp h
  cases h
  exact ⟨by simpa using StoragePanic.of_assert hassert, rfl⟩

/-- The files have the first ids, and the open file the next one. -/
structure SliceOutput.Numbered (tableAutoIncrId : Nat) (out : SliceOutput Row) : Prop where
  files : out.files.map (·.fileId) =
    List.range' (localFileIdBase + tableAutoIncrId * numFilesPerFlush) out.files.length
  count : out.files.length ≤ numFilesPerFlush
  writer : ∀ fileId batches, out.writer = some (fileId, batches) →
    out.files.length < numFilesPerFlush ∧
      fileId = localFileIdBase + tableAutoIncrId * numFilesPerFlush + out.files.length

namespace SliceOutput.Numbered

variable {tableAutoIncrId : Nat} {out : SliceOutput Row}

theorem close (h : Numbered tableAutoIncrId out) :
    Numbered tableAutoIncrId out.close ∧ out.close.writer = none := by
  unfold SliceOutput.close
  cases hwriter : out.writer with
  | none => exact ⟨h, hwriter⟩
  | some file =>
    obtain ⟨fileId, batches⟩ := file
    obtain ⟨hlt, hid⟩ := h.writer fileId batches hwriter
    refine ⟨⟨?_, ?_, nofun⟩, rfl⟩
    · rw [List.map_append, h.files, List.length_append, List.length_singleton, List.range'_concat]
      simp [hid]
    · rw [List.length_append, List.length_singleton]
      exact hlt

theorem openFile (h : Numbered tableAutoIncrId out) :
    Ensures (out.openFile tableAutoIncrId) fun file => out.files.length < numFilesPerFlush ∧
      file.1.1 = localFileIdBase + tableAutoIncrId * numFilesPerFlush + out.files.length := by
  unfold SliceOutput.openFile
  cases hwriter : out.writer with
  | some file => exact .ok (h.writer file.1 file.2 hwriter)
  | none =>
    exact .bind (getUniqueFileIdForFlush_ensures tableAutoIncrId out.files.length)
      fun fileId hfileId => .pure hfileId

theorem writeBatch (h : Numbered tableAutoIncrId out) (writer : ArrowWriter Row)
    (parquetFileSize : Nat) (batch : Nat × List (Nat × Row)) :
    Ensures (out.writeBatch writer parquetFileSize tableAutoIncrId batch)
      (Numbered tableAutoIncrId) := by
  refine .bind h.openFile fun file hfile => ?_
  obtain ⟨⟨fileId, batches⟩, outRowIdx⟩ := file
  have hopen : ∀ rows n mapping, Numbered tableAutoIncrId
      (⟨out.files, some (fileId, rows), n, mapping⟩ : SliceOutput Row) := by
    intro rows n mapping
    refine ⟨h.files, h.count, ?_⟩
    rintro _ _ ⟨⟩
    exact hfile
  refine .pure ?_
  split
  · exact (hopen _ _ _).close.1
  · exact hopen _ _ _

end SliceOutput.Numbered

theorem DiskSliceWriter.write_ensures (slice : DiskSliceWriter Row Ident) (writer : ArrowWriter Row)
    (parquetFileSize : Nat) :
    Ensures (slice.write writer parquetFileSize) fun slice' =>
      (slice'.files.map (·.fileId)).Sublist (flushFileIds slice.tableAutoIncrId) := by
  refine .bind (P := SliceOutput.Numbered slice.tableAutoIncrId) ?_ fun out hout => ?_
  · refine .foldlM (I := fun _ => SliceOutput.Numbered slice.tableAutoIncrId) ?_ ?_
    · exact ⟨rfl, Nat.zero_le _, nofun⟩
    · intro _ batch _ out _ hout
      exact hout.writeBatch writer parquetFileSize batch
  · obtain ⟨hclosed, -⟩ := hout.close
    refine .bind_any fun newIndex => .pure ?_
    change List.Sublist (out.close.files.map (·.fileId)) _
    rw [hclosed.files]
    exact List.range'_sublist_right.mpr hclosed.count

/-! ## Streams -/

namespace StreamState

open DeletionRecords

def records (st : StreamState Row Ident) : DeletionRecords Row :=
  ⟨st.flushedFiles, st.localDeletions⟩

/-- The ids of the files of a stream that is open. -/
def heldIds (st : StreamState Row Ident) : List FileId :=
  if st.status = .pending then st.flushedFiles.keys else []

/-- The stream is as before, up to files with the ids `new` and deletions. -/
structure Step (new : List FileId) (st st' : StreamState Row Ident) : Prop where
  status : st'.status = st.status
  records : Extends (· ∈ new) st.records st'.records

variable {new : List FileId}

theorem count_keys_le {files files' : DiskFiles Row}
    (h : ∀ f, f ∈ files' → f ∈ files ∨ f ∈ new) (f : FileId) :
    files'.keys.count f ≤ files.keys.count f + new.count f := by
  rw [List.Nodup.count files'.keys_nodup]
  split
  · rename_i hmem
    rcases h f (AList.mem_keys.mpr hmem) with hold | hnew
    · have hcount : 0 < files.keys.count f := List.count_pos_iff.mpr (AList.mem_keys.mp hold)
      omega
    · have hcount : 0 < new.count f := List.count_pos_iff.mpr hnew
      omega
  · exact Nat.zero_le _

theorem Step.count_heldIds_le {st st' : StreamState Row Ident} (h : Step new st st')
    (f : FileId) : st'.heldIds.count f ≤ st.heldIds.count f + new.count f := by
  unfold heldIds
  rw [h.status]
  split
  · exact count_keys_le h.records.mem_inv f
  · exact Nat.zero_le _

theorem deleteInBatch_ensures [DecidableEq Ident] (st : StreamState Row Ident)
    (identity : IdentityProp Row Ident) (record : RawDeletionRecord Ident) (batchId rowIdx : Nat) :
    Ensures (st.deleteInBatch identity record batchId rowIdx) fun res =>
      ∀ st', res = some st' → Step [] st st' := by
  unfold deleteInBatch
  split
  · exact .error
  · split
    · exact .ok nofun
    · refine .bind_any fun found => ?_
      split
      · refine .bind_any fun deletions => .pure ?_
        rintro _ ⟨⟩
        exact ⟨rfl, .of_logged_iff fun f r => by simp [logged_append, logged_singleton]⟩
      · exact .pure nofun

theorem deleteInFile_ensures [DecidableEq Ident] (st : StreamState Row Ident)
    (identity : IdentityProp Row Ident) (record : RawDeletionRecord Ident) (fileId : FileId) (rowIdx : Nat) :
    Ensures (st.deleteInFile identity record fileId rowIdx) fun res =>
      ∀ st', res = some st' → Step [] st st' := by
  unfold deleteInFile
  cases hlook : st.flushedFiles.lookup fileId with
  | none => exact .error
  | some entry =>
    simp only
    split
    · exact .ok nofun
    · refine .bind_any fun found => ?_
      split
      · intro res hok st' hres
        obtain ⟨entry', hdelete, hok⟩ := bind_eq_ok.mp hok
        cases hok
        cases hres
        have hdeleted : DiskFiles.deleteRow st.flushedFiles fileId rowIdx =
            .ok (st.flushedFiles.insert fileId entry') := by
          unfold DiskFiles.deleteRow
          rw [hlook]
          exact bind_eq_ok.mpr ⟨entry', hdelete, rfl⟩
        exact ⟨rfl, .of_rowDeleted (DiskFiles.deleteRow_ensures _ _ _ _ hdeleted) rfl⟩
      · exact .pure nofun

theorem deleteAtLocations_ensures [DecidableEq Ident] (st : StreamState Row Ident)
    (identity : IdentityProp Row Ident) (record : RawDeletionRecord Ident)
    (locs : List RecordLocation) :
    Ensures (st.deleteAtLocations identity record locs) fun res =>
      ∀ st', res = some st' → Step [] st st' := by
  induction locs with
  | nil => exact .ok nofun
  | cons loc rest ih =>
    have hhead : Ensures (st.deleteAtLocation identity record loc) fun res =>
        ∀ st', res = some st' → Step [] st st' := by
      cases loc with
      | memoryBatch batchId rowIdx => exact st.deleteInBatch_ensures identity record batchId rowIdx
      | diskFile fileId rowIdx => exact st.deleteInFile_ensures identity record fileId rowIdx
    refine .bind hhead fun res hres => ?_
    cases res with
    | some st' => exact .pure hres
    | none => exact ih

theorem deleteLocal_ensures [DecidableEq Ident] (st : StreamState Row Ident)
    (identity : IdentityProp Row Ident) (record : RawDeletionRecord Ident) :
    Ensures (st.deleteLocal identity record) fun res => Step [] st res.2 := by
  refine .bind_any fun deleted => ?_
  obtain ⟨pos, memSlice⟩ := deleted
  cases pos with
  | some pos => exact .pure ⟨rfl, .refl _ _⟩
  | none =>
    refine .bind (deleteAtLocations_ensures { st with memSlice } identity record _) fun res hres => ?_
    cases res with
    | some st' =>
      have hstep := hres st' rfl
      exact .pure ⟨hstep.status, hstep.records⟩
    | none => exact .pure ⟨rfl, .refl _ _⟩

theorem drain_ensures (st : StreamState Row Ident) (counter : BatchIdCounter) :
    Ensures (st.drain counter) fun res => Step [] st res.2.1 :=
  .bind_any fun _ => .pure ⟨rfl, .refl _ _⟩

theorem integrateDiskSlice_ensures [DecidableEq Ident] (st : StreamState Row Ident)
    (slice : DiskSliceWriter Row Ident) :
    Ensures (st.integrateDiskSlice slice) (Step (slice.files.map (·.fileId)) st) := by
  intro st' hok
  obtain ⟨files, hfiles, hok⟩ := bind_eq_ok.mp hok
  obtain ⟨batches, -, hok⟩ := bind_eq_ok.mp hok
  obtain ⟨flushedFiles, hflushed, hok⟩ := bind_eq_ok.mp hok
  cases hok
  exact ⟨rfl, integrate_ensures slice st.records flushedFiles (bind_eq_ok.mpr ⟨files, hfiles, hflushed⟩)⟩

end StreamState

/-! ## The table -/

/-- The tasks have the same results of background tasks. -/
structure SnapshotTask.SameResults (task task' : SnapshotTask Row Ident) : Prop where
  indexMergeResult : task'.indexMergeResult = task.indexMergeResult
  compactingDataFiles : task'.compactingDataFiles = task.compactingDataFiles
  dataCompactionResult : task'.dataCompactionResult = task.dataCompactionResult
  persistedRecords : task'.persistedRecords = task.persistedRecords

theorem SnapshotTask.SameResults.trans {task task₁ task₂ : SnapshotTask Row Ident}
    (h : SameResults task task₁) (h' : SameResults task₁ task₂) : SameResults task task₂ :=
  ⟨h'.indexMergeResult.trans h.indexMergeResult, h'.compactingDataFiles.trans h.compactingDataFiles,
    h'.dataCompactionResult.trans h.dataCompactionResult,
    h'.persistedRecords.trans h.persistedRecords⟩

namespace MooncakeTable

/-- The ids of the files of open streams and of the next task. -/
def heldIds (t : MooncakeTable Row Ident) : List FileId :=
  t.nextSnapshotTask.newFileIds ++ t.transactionStreamStates.flatMapValues StreamState.heldIds

/-- Files that are held have nothing persisted. -/
structure Unpersisted (t : MooncakeTable Row Ident) : Prop where
  outputs : ∀ output ∈ t.nextSnapshotTask.newStreamingXact, output.Unpersisted
  streams : ∀ xactId st, t.transactionStreamStates.lookup xactId = some st →
    st.status = .pending → st.records.Unpersisted

/-- What an operation does to files: it may hold the ids `new` in addition, and leaves the
results of background tasks. -/
structure FileStep (new : List FileId) (t t' : MooncakeTable Row Ident) : Prop where
  nextFileId : t.nextFileId ≤ t'.nextFileId
  heldIds : ∀ f, t'.heldIds.count f ≤ t.heldIds.count f + new.count f
  unpersisted : t.Unpersisted → t'.Unpersisted
  results : t.nextSnapshotTask.SameResults t'.nextSnapshotTask

theorem FileStep.trans {new : List FileId} {t t₁ t₂ : MooncakeTable Row Ident}
    (h : FileStep [] t t₁) (h' : FileStep new t₁ t₂) : FileStep new t t₂ where
  nextFileId := h.nextFileId.trans h'.nextFileId
  heldIds f := by
    have hfirst := h.heldIds f
    have hsecond := h'.heldIds f
    rw [List.count_nil] at hfirst
    omega
  unpersisted := h'.unpersisted ∘ h.unpersisted
  results := h.results.trans h'.results

/-- The tables hold the same files. -/
structure SameFiles (t t' : MooncakeTable Row Ident) : Prop where
  streams : t'.transactionStreamStates = t.transactionStreamStates
  slices : t'.nextSnapshotTask.newDiskSlices = t.nextSnapshotTask.newDiskSlices
  outputs : t'.nextSnapshotTask.newStreamingXact = t.nextSnapshotTask.newStreamingXact
  results : t.nextSnapshotTask.SameResults t'.nextSnapshotTask
  nextFileId : t.nextFileId ≤ t'.nextFileId

theorem SameFiles.newFileIds {t t' : MooncakeTable Row Ident} (h : SameFiles t t') :
    t'.nextSnapshotTask.newFileIds = t.nextSnapshotTask.newFileIds := by
  unfold SnapshotTask.newFileIds
  rw [h.slices, h.outputs]

theorem SameFiles.fileStep {t t' : MooncakeTable Row Ident} (h : SameFiles t t') :
    FileStep [] t t' where
  nextFileId := h.nextFileId
  heldIds f := by
    unfold MooncakeTable.heldIds
    rw [h.newFileIds, h.streams, List.count_nil]
    exact le_rfl
  unpersisted ht := ⟨h.outputs ▸ ht.outputs, h.streams ▸ ht.streams⟩
  results := h.results

/-! ### Writes of a stream -/

variable (t : MooncakeTable Row Ident)

/-- The ids of the files of one stream. -/
def streamIds (xactId : Nat) : List FileId :=
  ((t.transactionStreamStates.lookup xactId).map StreamState.heldIds).getD []

/-- The ids of the files of the other streams. -/
def otherIds (xactId : Nat) : List FileId :=
  AssocMap.flatMapValues StreamState.heldIds (t.transactionStreamStates.erase xactId)

theorem count_heldIds (xactId : Nat) (f : FileId) : t.heldIds.count f =
      t.nextSnapshotTask.newFileIds.count f + (t.streamIds xactId).count f +
        (t.otherIds xactId).count f := by
  unfold heldIds streamIds otherIds
  rw [List.count_append, Nat.add_assoc, AssocMap.count_flatMapValues StreamState.heldIds _ xactId f]

@[simp] theorem streamIds_setStreamState (xactId : Nat)
    (st : StreamState Row Ident) : (t.setStreamState xactId st).streamIds xactId = st.heldIds := by
  simp [streamIds, setStreamState]

@[simp] theorem otherIds_setStreamState (xactId : Nat) (st : StreamState Row Ident) :
    (t.setStreamState xactId st).otherIds xactId = t.otherIds xactId := by
  simp [otherIds, setStreamState, AssocMap.flatMapValues, AssocMap.values, AssocMap.entries_erase,
    AList.entries_insert, List.kerase_cons_eq]

/-- `st` is the state of the stream, or a new one. -/
structure StreamOf (t : MooncakeTable Row Ident) (xactId : Nat) (st : StreamState Row Ident) : Prop where
  heldIds : st.heldIds = t.streamIds xactId
  unpersisted : t.Unpersisted → st.status = .pending → st.records.Unpersisted

theorem StreamOf.of_lookup {t : MooncakeTable Row Ident} {xactId : Nat} {st : StreamState Row Ident}
    (h : t.transactionStreamStates.lookup xactId = some st) : StreamOf t xactId st :=
  ⟨by simp [streamIds, h], fun ht => ht.streams xactId st h⟩

/-- A stream takes a step, and the table is as before otherwise. -/
theorem StreamOf.fileStep {new : List FileId} {t t₁ : MooncakeTable Row Ident} {xactId : Nat}
    {st st' : StreamState Row Ident} (hst : StreamOf t xactId st) (hsame : SameFiles t t₁)
    (hstep : StreamState.Step new st st') : FileStep new t (t₁.setStreamState xactId st') where
  nextFileId := hsame.nextFileId
  heldIds f := by
    have hother : t₁.otherIds xactId = t.otherIds xactId := by
      unfold otherIds
      rw [hsame.streams]
    have hheld := hstep.count_heldIds_le f
    rw [hst.heldIds] at hheld
    rw [count_heldIds t xactId, count_heldIds _ xactId, streamIds_setStreamState,
      otherIds_setStreamState, hother]
    change t₁.nextSnapshotTask.newFileIds.count f + _ + _ ≤ _
    rw [hsame.newFileIds]
    omega
  unpersisted ht := by
    refine ⟨fun output hmem => ht.outputs output (hsame.outputs ▸ hmem), ?_⟩
    intro xactId' st'' hlook hpending
    unfold setStreamState at hlook
    rw [AssocMap.lookup_insert_ite, hsame.streams] at hlook
    split at hlook
    · cases hlook
      rw [hstep.status] at hpending
      exact hstep.records.unpersisted (hst.unpersisted ht hpending)
    · exact ht.streams xactId' st'' hlook hpending
  results := hsame.results

/-- A stream that ended is dropped or kept until its flushes complete. -/
theorem SameFiles.removeIfFlushed {t t₁ : MooncakeTable Row Ident} (h : SameFiles t t₁) (xactId : Nat)
    (st : StreamState Row Ident) (hstatus : st.status ≠ .pending) :
    FileStep [] t (t₁.removeIfFlushed xactId st) := by
  have hother : t₁.otherIds xactId = t.otherIds xactId := by
    unfold otherIds
    rw [h.streams]
  have hheld : st.heldIds = [] := if_neg hstatus
  unfold MooncakeTable.removeIfFlushed
  split
  · refine ⟨h.nextFileId, fun f => ?_, fun ht => ?_, h.results⟩
    · rw [count_heldIds t xactId, ← hother, ← h.newFileIds, List.count_nil]
      change List.count f (t₁.nextSnapshotTask.newFileIds ++ t₁.otherIds xactId) ≤ _
      rw [List.count_append]
      omega
    · refine ⟨fun output hmem => ht.outputs output (h.outputs ▸ hmem), ?_⟩
      intro xactId' st' hlook
      rw [AssocMap.lookup_erase_ite, h.streams] at hlook
      split at hlook
      · cases hlook
      · exact ht.streams xactId' st' hlook
  · refine ⟨h.nextFileId, fun f => ?_, fun ht => ?_, h.results⟩
    · rw [count_heldIds t xactId, count_heldIds _ xactId, streamIds_setStreamState,
        otherIds_setStreamState, hother, hheld]
      change t₁.nextSnapshotTask.newFileIds.count f + _ + _ ≤ _
      rw [h.newFileIds, List.count_nil]
      omega
    · refine ⟨fun output hmem => ht.outputs output (h.outputs ▸ hmem), ?_⟩
      intro xactId' st' hlook hpending
      unfold setStreamState at hlook
      rw [AssocMap.lookup_insert_ite, h.streams] at hlook
      split at hlook
      · cases hlook
        exact absurd hpending hstatus
      · exact ht.streams xactId' st' hlook hpending

/-! ### Operations -/

theorem append_ensures (identity : IdentityProp Row Ident) (row : Row) :
    Ensures (t.append identity row) (FileStep [] t) :=
  .bind_any fun _ => .pure (SameFiles.fileStep ⟨rfl, rfl, rfl, ⟨rfl, rfl, rfl, rfl⟩, le_rfl⟩)

theorem deleteImpl_ensures [DecidableEq Ident] (t : MooncakeTable Row Ident)
    (identity : IdentityProp Row Ident) (row : Row) (lsn : Nat) (deleteIfExists : Bool) :
    Ensures (t.deleteImpl identity row lsn deleteIfExists) (FileStep [] t) := by
  unfold deleteImpl
  split
  · exact .ok (SameFiles.fileStep ⟨rfl, rfl, rfl, ⟨rfl, rfl, rfl, rfl⟩, le_rfl⟩)
  · exact .bind_any fun _ => .pure (SameFiles.fileStep ⟨rfl, rfl, rfl, ⟨rfl, rfl, rfl, rfl⟩, le_rfl⟩)

theorem commit_ensures (lsn : Nat) : Ensures (t.commit lsn) (FileStep [] t) :=
  .bind_any fun _ => .bind_any fun _ =>
    .pure (SameFiles.fileStep ⟨rfl, rfl, rfl, ⟨rfl, rfl, rfl, rfl⟩, le_rfl⟩)

/-- A flush of the main transaction takes the next block of ids, if it writes. -/
theorem flush_ensures (lsn : Nat) : Ensures (t.flush lsn) fun res => FileStep [] t res.2 ∧
      ∀ slice, res.1 = some slice → slice.tableAutoIncrId = t.nextFileId ∧
        t.nextFileId < res.2.nextFileId := by
  unfold flush
  split
  · exact .bind_any fun _ => .pure
      ⟨SameFiles.fileStep ⟨rfl, rfl, rfl, ⟨rfl, rfl, rfl, rfl⟩, le_rfl⟩, nofun⟩
  · refine .bind_any fun _ => .bind (P := fun res => SameFiles t res.2 ∧
      res.1.tableAutoIncrId = t.nextFileId ∧ t.nextFileId < res.2.nextFileId) ?_ ?_
    · exact .bind_any fun _ => .bind_any fun _ => .pure
        ⟨⟨rfl, rfl, rfl, ⟨rfl, rfl, rfl, rfl⟩, Nat.le_succ _⟩, rfl, Nat.lt_succ_self _⟩
    · rintro ⟨slice, t₁⟩ ⟨hsame, hid, hlt⟩
      refine .bind_any fun _ => .pure ⟨SameFiles.fileStep ?_, ?_⟩
      · exact ⟨hsame.streams, hsame.slices, hsame.outputs, hsame.results, hsame.nextFileId⟩
      · rintro _ ⟨⟩
        exact ⟨hid, hlt⟩

/-- Writes to a stream open it if needed. -/
theorem getOrCreateStreamState_ensures (cfg : SnapshotConfig Row Ident)
    (xactId : Nat) : Ensures (t.getOrCreateStreamState cfg xactId) fun res =>
      StreamOf t xactId res.1 ∧ SameFiles t res.2 := by
  unfold getOrCreateStreamState
  cases hlook : t.transactionStreamStates.lookup xactId with
  | some st => exact .ok ⟨.of_lookup hlook, rfl, rfl, rfl, ⟨rfl, rfl, rfl, rfl⟩, le_rfl⟩
  | none =>
    refine .bind_any fun _ => .pure ⟨⟨?_, fun _ _ => DeletionRecords.Unpersisted.empty⟩,
      rfl, rfl, rfl, ⟨rfl, rfl, rfl, rfl⟩, le_rfl⟩
    simp [streamIds, hlook, StreamState.heldIds]

theorem getStreamState_ensures (xactId : Nat) :
    Ensures (t.getStreamState xactId) fun st => t.transactionStreamStates.lookup xactId = some st := by
  unfold getStreamState
  split
  · rename_i st hlook
    exact .ok hlook
  · exact .error

theorem appendInStreamBatch_ensures (cfg : SnapshotConfig Row Ident)
    (row : Row) (xactId : Nat) : Ensures (t.appendInStreamBatch cfg row xactId) (FileStep [] t) := by
  refine .bind (t.getOrCreateStreamState_ensures cfg xactId) ?_
  rintro ⟨st, t₁⟩ ⟨hst, hsame⟩
  refine .bind_any fun _ => .pure (hst.fileStep ?_ ⟨rfl, .refl _ _⟩)
  exact ⟨hsame.streams, hsame.slices, hsame.outputs, hsame.results, hsame.nextFileId⟩

theorem deleteInStreamBatch_ensures [DecidableEq Ident] (t : MooncakeTable Row Ident)
    (cfg : SnapshotConfig Row Ident) (row : Row) (xactId : Nat) :
    Ensures (t.deleteInStreamBatch cfg row xactId) (FileStep [] t) := by
  unfold deleteInStreamBatch
  split
  · exact .ok (SameFiles.fileStep ⟨rfl, rfl, rfl, ⟨rfl, rfl, rfl, rfl⟩, le_rfl⟩)
  · refine .bind (t.getOrCreateStreamState_ensures cfg xactId) ?_
    rintro ⟨st, t₁⟩ ⟨hst, hsame⟩
    refine .bind (st.deleteLocal_ensures _ _) ?_
    rintro ⟨deleted, st'⟩ hstep
    simp only
    split
    · exact .pure (hst.fileStep hsame hstep)
    · refine .bind_any fun pos => ?_
      cases pos with
      | some pos => exact .pure (hst.fileStep hsame ⟨hstep.status, hstep.records⟩)
      | none =>
        have hset := hst.fileStep hsame hstep
        refine .pure (hset.trans (SameFiles.fileStep ?_))
        exact ⟨rfl, rfl, rfl, ⟨rfl, rfl, rfl, rfl⟩, le_rfl⟩

theorem abortInStreamBatch_ensures (xactId : Nat) :
    Ensures (t.abortInStreamBatch xactId) (FileStep [] t) := by
  refine .bind_any fun st => ?_
  have hsame : SameFiles t t := ⟨rfl, rfl, rfl, ⟨rfl, rfl, rfl, rfl⟩, le_rfl⟩
  have hremoved := hsame.removeIfFlushed xactId { st with status := .aborted } (by simp)
  refine .pure (hremoved.trans ⟨le_rfl, fun f => ?_, fun ht => ?_, ⟨rfl, rfl, rfl, rfl⟩⟩)
  · unfold heldIds SnapshotTask.newFileIds
    simp [TransactionStreamOutput.flushedFileIds]
  · refine ⟨?_, ht.streams⟩
    intro output hmem
    rcases List.mem_append.mp hmem with hold | hnew
    · exact ht.outputs output hold
    · rw [List.mem_singleton.mp hnew]
      trivial

/-- A flush of a stream takes the next block of ids. -/
theorem flushStream_ensures (xactId : Nat) (lsn : Option Nat) :
    Ensures (t.flushStream xactId lsn) fun res => FileStep [] t res.2 ∧
      res.1.tableAutoIncrId = t.nextFileId ∧ t.nextFileId < res.2.nextFileId ∧
      ∃ st st', t.transactionStreamStates.lookup xactId = some st ∧
        res.2.transactionStreamStates.lookup xactId = some st' ∧ st'.status = st.status := by
  refine .bind (t.getStreamState_ensures xactId) fun st hlook => ?_
  refine .bind (st.drain_ensures _) ?_
  rintro ⟨⟨batches, index⟩, st', counter⟩ hstep
  have hset : ∀ flushLsns, FileStep [] t (setStreamState
      { t with streamingBatchIdCounter := counter, nextFileId := t.nextFileId + 1, flushLsns } xactId
      { st' with ongoingFlushCount := st'.ongoingFlushCount + 1 }) := fun flushLsns =>
    (StreamOf.of_lookup hlook).fileStep ⟨rfl, rfl, rfl, ⟨rfl, rfl, rfl, rfl⟩, Nat.le_succ _⟩
      ⟨hstep.status, hstep.records⟩
  cases lsn with
  | none =>
    exact .pure ⟨hset _, rfl, Nat.lt_succ_self _, st, _, hlook, AList.lookup_insert _, hstep.status⟩
  | some lsn =>
    exact .bind_any fun flushLsns => .pure
      ⟨hset _, rfl, Nat.lt_succ_self _, st, _, hlook, AList.lookup_insert _, hstep.status⟩

theorem commitTransactionStreamImpl_ensures (xactId lsn : Nat)
    (hpending : ∀ st, t.transactionStreamStates.lookup xactId = some st → st.status = .pending) :
    Ensures (t.commitTransactionStreamImpl xactId lsn) (FileStep [] t) := by
  refine .bind (t.getStreamState_ensures xactId) fun st hlook => ?_
  refine .bind (st.drain_ensures _) ?_
  rintro ⟨_, st', counter⟩ hstep
  refine .bind_any fun _ => .bind_any fun _ => .bind_any fun _ => .pure ?_
  have hst := hpending st hlook
  have hst' : st'.status = .pending := hstep.status.trans hst
  refine ⟨le_rfl, fun f => ?_, fun ht => ?_, ⟨rfl, rfl, rfl, rfl⟩⟩
  · -- The files of the stream are now those of its commit.
    have hheld := hstep.count_heldIds_le f
    rw [(StreamOf.of_lookup hlook).heldIds] at hheld
    rw [count_heldIds t xactId, count_heldIds _ xactId, streamIds_setStreamState,
      otherIds_setStreamState]
    simp only [setStreamState, otherIds, SnapshotTask.newFileIds, List.flatMap_append,
      List.flatMap_singleton, List.count_append, TransactionStreamOutput.flushedFileIds,
      StreamState.heldIds, hst', if_true, reduceCtorEq, if_false, List.count_nil] at hheld ⊢
    omega
  · have hrecords := hstep.records.unpersisted (ht.streams xactId st hlook hst)
    refine ⟨?_, ?_⟩
    · intro output hmem
      rcases List.mem_append.mp hmem with hold | hnew
      · exact ht.outputs output hold
      · rw [List.mem_singleton.mp hnew]
        refine ⟨fun f r => ?_, hrecords.2⟩
        rw [logged_map (g := fun _ => lsn - 1)]
        exact hrecords.1 f r
    · intro xactId' st'' hlook' hpending'
      simp only [setStreamState, AssocMap.lookup_insert_ite] at hlook'
      split at hlook'
      · cases hlook'
        cases hpending'
      · exact ht.streams xactId' st'' hlook' hpending'

theorem commitTransactionStream_ensures (xactId lsn : Nat)
    (hpending : ∀ st, t.transactionStreamStates.lookup xactId = some st → st.status = .pending) :
    Ensures (t.commitTransactionStream xactId lsn) fun res => FileStep [] t res.2 ∧
      res.1.tableAutoIncrId = t.nextFileId ∧ t.nextFileId < res.2.nextFileId := by
  refine .bind (t.flushStream_ensures xactId (some lsn)) ?_
  rintro ⟨slice, t₁⟩ ⟨hflush, hid, hlt, st, st₁, hlook, hlook₁, hstatus⟩
  refine .bind (t₁.commitTransactionStreamImpl_ensures xactId lsn ?_) fun t₂ hcommit => .pure
    ⟨hflush.trans hcommit, hid, hlt.trans_le hcommit.nextFileId⟩
  intro st₂ hlook₂
  rw [hlook₁] at hlook₂
  cases hlook₂
  exact hstatus.trans (hpending st hlook)

theorem addDiskSlice_ensures (slice : DiskSliceWriter Row Ident)
    (lsn : Nat) : Ensures (t.addDiskSlice slice lsn) (FileStep (slice.files.map (·.fileId)) t) := by
  refine .bind_any fun _ => .pure
    ⟨le_rfl, fun f => ?_, fun ht => ⟨ht.outputs, ht.streams⟩, ⟨rfl, rfl, rfl, rfl⟩⟩
  simp only [heldIds, SnapshotTask.newFileIds, List.flatMap_append, List.flatMap_singleton,
    List.count_append]
  omega

theorem applyFlushResult_ensures (slice : DiskSliceWriter Row Ident) :
    Ensures (t.applyFlushResult slice) (FileStep (slice.files.map (·.fileId)) t) := by
  unfold applyFlushResult
  split
  · exact .error
  · exact t.addDiskSlice_ensures slice _

theorem applyStreamFlushResult_ensures [DecidableEq Ident] (t : MooncakeTable Row Ident)
    (xactId : Nat) (slice : DiskSliceWriter Row Ident) :
    Ensures (t.applyStreamFlushResult xactId slice) (FileStep (slice.files.map (·.fileId)) t) := by
  refine .bind (t.getStreamState_ensures xactId) fun st hlook => ?_
  have hsame : SameFiles t t := ⟨rfl, rfl, rfl, ⟨rfl, rfl, rfl, rfl⟩, le_rfl⟩
  have hcount : StreamState.Step [] st { st with ongoingFlushCount := st.ongoingFlushCount - 1 } :=
    ⟨rfl, .refl _ _⟩
  generalize ({ st with ongoingFlushCount := st.ongoingFlushCount - 1 } : StreamState Row Ident) = st₁
    at hcount ⊢
  simp only
  cases hstatus : st₁.status with
  | committed commitLsn =>
    have hremoved := hsame.removeIfFlushed xactId st₁ (by simp [hstatus])
    exact (addDiskSlice_ensures _ _ _).mono fun t' ht' => hremoved.trans ht'
  | aborted =>
    have hremoved := hsame.removeIfFlushed xactId st₁ (by simp [hstatus])
    refine .pure ⟨hremoved.nextFileId, fun f => ?_, hremoved.unpersisted, hremoved.results⟩
    have hheld := hremoved.heldIds f
    rw [List.count_nil] at hheld
    omega
  | pending =>
    refine .bind (st₁.integrateDiskSlice_ensures slice) fun st₂ hstep => .pure ?_
    refine (StreamOf.of_lookup hlook).fileStep hsame ⟨hstep.status.trans hcount.status, ?_⟩
    exact (hcount.records.mono nofun).trans hstep.records

theorem reserveFileIds_ensures (n : Nat) :
    Ensures (t.reserveFileIds n) fun t' => FileStep [] t t' ∧ t.nextFileId + n < 2 ^ 32 ∧
      t'.nextFileId = t.nextFileId + n := by
  intro t' h
  obtain ⟨_, hassert, h⟩ := bind_eq_ok.mp h
  cases h
  exact ⟨SameFiles.fileStep ⟨rfl, rfl, rfl, ⟨rfl, rfl, rfl, rfl⟩, Nat.le_add_right _ _⟩,
    by simpa using StoragePanic.of_assert hassert, rfl⟩

/-- A compaction takes the next ids, and its files are recorded. -/
theorem performDataCompaction_ensures (payload : DataCompactionPayload Row FileIndex) :
    Ensures (t.performDataCompaction payload) fun t' =>
      FileStep [] t { t' with nextSnapshotTask := t.nextSnapshotTask } ∧
      t'.nextFileId = t.nextFileId + payload.getNewCompactedDataFileIdsNumber ∧
      t'.nextSnapshotTask = { t.nextSnapshotTask with
        compactingDataFiles := payload.diskFiles.map (·.fileId) } := by
  intro t' hok
  obtain ⟨t₁, hreserve, hok⟩ := bind_eq_ok.mp hok
  obtain ⟨hstep, -, hnext⟩ := t.reserveFileIds_ensures _ t₁ hreserve
  obtain ⟨_, -, hreserve⟩ := bind_eq_ok.mp hreserve
  cases hreserve
  obtain ⟨_, -, hok⟩ := bind_eq_ok.mp hok
  cases hok
  exact ⟨hstep, hnext, rfl⟩

/-- Files with these ids, of which no row is deleted. -/
theorem lookup_foldl_new (files : List (DataFile Row)) (m : DiskFiles Row) {f : FileId}
    {entry : DiskFileEntry Row}
    (h : (files.foldl (fun m file => m.insert file.fileId (DiskFileEntry.new file)) m).lookup f =
      some entry) :
    m.lookup f = some entry ∨ ∃ file ∈ files, f = file.fileId ∧ entry = .new file := by
  induction files generalizing m with
  | nil => exact .inl h
  | cons file rest ih =>
    rcases ih _ h with hold | ⟨file', hmem, heq⟩
    · rw [AssocMap.lookup_insert_ite] at hold
      split at hold
      · cases hold
        exact .inr ⟨file, List.mem_cons_self, by assumption, rfl⟩
      · exact .inl hold
    · exact .inr ⟨file', List.mem_cons_of_mem _ hmem, heq⟩

theorem unpersisted_foldl_new (files : List (DataFile Row)) :
    DeletionRecords.Unpersisted
      ⟨files.foldl (fun m file => m.insert file.fileId (DiskFileEntry.new file)) ∅, []⟩ := by
  have hnew : ∀ f entry, (files.foldl (fun m file => m.insert file.fileId (DiskFileEntry.new file))
      (∅ : DiskFiles Row)).lookup f = some entry → ∃ file, entry = .new file := by
    intro f entry hentry
    rcases lookup_foldl_new _ _ hentry with hold | ⟨file, -, -, rfl⟩
    · cases hold
    · exact ⟨file, rfl⟩
  have hblob : ∀ f r, ¬ DiskFiles.InBlob (files.foldl
      (fun m file => m.insert file.fileId (DiskFileEntry.new file)) ∅) f r := by
    rintro f r ⟨entry, hentry, hr⟩
    obtain ⟨file, rfl⟩ := hnew f entry hentry
    cases hr
  refine ⟨fun f r => ⟨?_, ?_⟩, hblob⟩
  · rintro ⟨entry, hentry, hr⟩
    obtain ⟨file, rfl⟩ := hnew f entry hentry
    simp [DiskFileEntry.new] at hr
  · rintro (hr | ⟨_, hmem, -⟩)
    · exact absurd hr (hblob f r)
    · cases hmem

/-- Ingested files take single ids. -/
theorem batchIngest_ensures (identity : IdentityProp Row Ident) (files : List (List Row)) (lsn : Nat) :
    Ensures (t.batchIngest identity files lsn) fun t' =>
      FileStep (List.range' t.nextFileId files.length) t t' ∧
        t.nextFileId + files.length < 2 ^ 32 ∧ t'.nextFileId = t.nextFileId + files.length := by
  refine .bind (t.reserveFileIds_ensures files.length) ?_
  rintro t₁ ⟨hreserved, hlt, hnext⟩
  refine .pure ⟨hreserved.trans ⟨le_rfl, fun f => ?_, fun ht => ⟨?_, ht.streams⟩,
    ⟨rfl, rfl, rfl, rfl⟩⟩, hlt, hnext⟩
  · have hids : ∀ f ∈ ((files.zipIdx t.nextFileId).map fun f => (⟨f.2, f.1⟩ : DataFile Row)).foldl
        (fun (m : DiskFiles Row) file => m.insert file.fileId (DiskFileEntry.new file)) ∅,
        f ∈ (∅ : DiskFiles Row) ∨ f ∈ List.range' t.nextFileId files.length := by
      intro f hmem
      obtain ⟨entry, hentry⟩ := DiskFiles.mem_iff.mp hmem
      rcases lookup_foldl_new _ _ hentry with hold | ⟨file, hfile, rfl, -⟩
      · cases hold
      · obtain ⟨e, he, rfl⟩ := List.mem_map.mp hfile
        exact .inr (List.zipIdx_map_snd t.nextFileId files ▸ List.mem_map_of_mem he)
    have hcount := StreamState.count_keys_le hids f
    simp only [heldIds, SnapshotTask.newFileIds, List.flatMap_append, List.flatMap_singleton,
      List.count_append, TransactionStreamOutput.flushedFileIds]
    simp only [AList.keys_empty, List.count_nil] at hcount
    omega
  · intro output hmem
    rcases List.mem_append.mp hmem with hold | hnew
    · exact ht.outputs output hold
    · rw [List.mem_singleton.mp hnew]
      exact unpersisted_foldl_new _

end MooncakeTable

end Moonlink.Storage
