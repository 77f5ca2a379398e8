-- SUMMARY: Data compaction keeps the live rows that are written as they are, and its map of row locations is a bijection.
import Moonlink.Storage.Compaction

namespace Moonlink

open Lib

variable {Row Index : Type}

/-- The vector has a bit for each of the first `n` rows, or no row is deleted. -/
def BatchDeletionVector.Covers (dv : BatchDeletionVector) (n : Nat) : Prop :=
  dv.deletionVector = none ∨ n ≤ dv.maxRows

theorem BatchDeletionVector.Covers.isDeleted_of_isEmpty {dv : BatchDeletionVector} {n i : Nat}
    (h : dv.Covers n) (hempty : dv.isEmpty = true) (hi : i < n) : dv.isDeleted i = false := by
  rcases h with hnone | hle
  · simp [isDeleted, hnone]
  · exact BatchDeletionVector.isDeleted_of_isEmpty hempty (by omega)

/-! ## Rows with their locations -/

/-- Rows of a file from the row index `start` on, with their locations. -/
def locate (fileId : FileId) (start : Nat) (rows : List Row) : List (RecordLocation × Row) :=
  (rows.zipIdx start).map fun r => (.diskFile fileId r.2, r.1)

/-- The rows that are not deleted, with their locations. -/
def locateLive (fileId : FileId) (dv : BatchDeletionVector) (start : Nat) (rows : List Row) :
    List (RecordLocation × Row) :=
  ((rows.zipIdx start).filter fun r => !dv.isDeleted r.2).map fun r => (.diskFile fileId r.2, r.1)

def SingleFileToCompact.liveRows (file : SingleFileToCompact Row) : List (RecordLocation × Row) :=
  locateLive file.fileId file.loadDeletionVector 0 file.batches.flatten

def DataCompactionPayload.liveRows (payload : DataCompactionPayload Row Index) :
    List (RecordLocation × Row) := payload.diskFiles.flatMap (·.liveRows)

/-- The rows of each batch that are not deleted, where the first row has the index `start`. -/
def keptBatches (dv : BatchDeletionVector) : Nat → List (List Row) → List (List Row)
  | _, [] => []
  | start, batch :: rest =>
    (locateLive 0 dv start batch).map Prod.snd :: keptBatches dv (start + batch.length) rest

/-- The batches that are written to the new files. -/
def DataCompactionPayload.keptBatches (payload : DataCompactionPayload Row Index) : List (List Row) :=
  payload.diskFiles.flatMap fun file => Moonlink.keptBatches file.loadDeletionVector 0 file.batches

def CompactedDataFile.rows (file : CompactedDataFile Row) : List (RecordLocation × Row) :=
  locate file.fileId 0 file.batches.flatten

def DataCompactionResult.newRows (r : DataCompactionResult Row Index) :
    List (RecordLocation × Row) := r.newDataFiles.flatMap (·.1.rows)

/-- The new location of an old one. -/
def DataCompactionResult.remap (r : DataCompactionResult Row Index) (location : RecordLocation) :
    RecordLocation :=
  ((r.remappedDataFiles.lookup location).map (·.recordLocation)).getD location

/-- The compaction `r` has exactly the live rows of the payload, and its location map is a
bijection from their old to their new locations. -/
structure Compacted (payload : DataCompactionPayload Row Index)
    (r : DataCompactionResult Row Index) : Prop where
  rows : r.newRows.map Prod.snd = payload.liveRows.map Prod.snd
  domain : ∀ location, location ∈ r.remappedDataFiles ↔ location ∈ payload.liveRows.map Prod.fst
  bijOn : Set.BijOn r.remap {location | location ∈ payload.liveRows.map Prod.fst}
    {location | location ∈ r.newRows.map Prod.fst}
  content : ∀ location row, (location, row) ∈ payload.liveRows → (r.remap location, row) ∈ r.newRows
  /-- A new location names one row. -/
  distinct : (r.newRows.map Prod.fst).Nodup
  bounds : ∀ location new, r.remappedDataFiles.lookup location = some new →
    ∃ file ∈ r.newDataFiles, new.newDataFile = file.1.fileId ∧
      ∃ rowIdx < file.2.numRows, new.recordLocation = .diskFile file.1.fileId rowIdx

theorem locate_append (fileId : FileId) (start : Nat) (rows rows' : List Row) :
    locate fileId start (rows ++ rows') =
      locate fileId start rows ++ locate fileId (start + rows.length) rows' := by
  simp [locate, List.zipIdx_append]

theorem locateLive_append (fileId : FileId) (dv : BatchDeletionVector) (start : Nat)
    (rows rows' : List Row) :
    locateLive fileId dv start (rows ++ rows') =
      locateLive fileId dv start rows ++ locateLive fileId dv (start + rows.length) rows' := by
  simp [locateLive, List.zipIdx_append]

@[simp] theorem locate_map_snd (fileId : FileId) (start : Nat) (rows : List Row) :
    (locate fileId start rows).map Prod.snd = rows := by
  simp [locate, Function.comp_def, List.zipIdx_map_fst]

theorem locate_map_fst (fileId : FileId) (start : Nat) (rows : List Row) :
    (locate fileId start rows).map Prod.fst =
      (List.range' start rows.length).map (RecordLocation.diskFile fileId) := by
  rw [← List.zipIdx_map_snd start rows]
  simp only [locate, List.map_map, Function.comp_def]

theorem locateLive_map_fst (fileId : FileId) (dv : BatchDeletionVector) (start : Nat)
    (rows : List Row) :
    (locateLive fileId dv start rows).map Prod.fst =
      ((List.range' start rows.length).filter fun i => !dv.isDeleted i).map
        (RecordLocation.diskFile fileId) := by
  rw [← List.zipIdx_map_snd start rows, List.filter_map]
  simp only [locateLive, List.map_map, Function.comp_def]

theorem locateLive_map_snd (fileId : FileId) (dv : BatchDeletionVector) (start : Nat)
    (rows : List Row) :
    (locateLive fileId dv start rows).map Prod.snd =
      ((rows.zipIdx start).filter fun r => !dv.isDeleted r.2).map (·.1) := by
  simp [locateLive, Function.comp_def]

theorem length_locateLive (fileId : FileId) (dv : BatchDeletionVector) (start : Nat)
    (rows : List Row) :
    (locateLive fileId dv start rows).length =
      ((List.range' start rows.length).filter fun i => !dv.isDeleted i).length := by
  rw [← List.length_map (f := Prod.fst), locateLive_map_fst, List.length_map]

theorem keptBatches_append (dv : BatchDeletionVector) (start : Nat) (batches batches' : List (List Row)) :
    keptBatches dv start (batches ++ batches') =
      keptBatches dv start batches ++ keptBatches dv (start + batches.flatten.length) batches' := by
  induction batches generalizing start with
  | nil => rfl
  | cons batch rest ih => simp [keptBatches, ih, Nat.add_assoc]

theorem flatten_keptBatches (fileId : FileId) (dv : BatchDeletionVector) (start : Nat) (batches : List (List Row)) :
    (keptBatches dv start batches).flatten = (locateLive fileId dv start batches.flatten).map Prod.snd := by
  induction batches generalizing start with
  | nil => rfl
  | cons batch rest ih =>
    have hbatch : (locateLive 0 dv start batch).map Prod.snd = (locateLive fileId dv start batch).map Prod.snd := by
      rw [locateLive_map_snd, locateLive_map_snd]
    rw [keptBatches, List.flatten_cons, ih, List.flatten_cons, locateLive_append, List.map_append, hbatch]

theorem DataCompactionPayload.flatten_keptBatches (payload : DataCompactionPayload Row Index) :
    payload.keptBatches.flatten = payload.liveRows.map Prod.snd := by
  unfold keptBatches liveRows
  induction payload.diskFiles with
  | nil => rfl
  | cons file rest ih =>
    rw [List.flatMap_cons, List.flatten_append, ih, List.flatMap_cons, List.map_append,
      Moonlink.flatten_keptBatches file.fileId]
    rfl

/-- The batches are written as these ones. -/
def SchemaWriter.Writes (writer : SchemaWriter Row) : List (List Row) → List (List Row) → Prop :=
  List.Forall₂ fun batch written => writer.write batch = some written

theorem SchemaWriter.Writes.map_length {writer : SchemaWriter Row} {batches written : List (List Row)}
    (h : writer.Writes batches written) : written.map List.length = batches.map List.length := by
  induction h with
  | nil => rfl
  | cons hwrite _ ih => rw [List.map_cons, List.map_cons, writer.length_eq hwrite, ih]

theorem SchemaWriter.Writes.eq_self {writer : SchemaWriter Row} {batches written : List (List Row)}
    (h : writer.Writes batches written) (hself : ∀ batch ∈ batches, writer.write batch = some batch) :
    written = batches := by
  induction h with
  | nil => rfl
  | cons hwrite _ ih =>
    rw [hself _ List.mem_cons_self] at hwrite
    cases hwrite
    rw [ih fun batch hbatch => hself batch (List.mem_cons_of_mem _ hbatch)]

/-! ## Old and new locations in step -/

/-- The file of a location on disk. -/
def RecordLocation.fileId : RecordLocation → FileId
  | .memoryBatch _ _ => 0
  | .diskFile fileId _ => fileId

/-- The entries of a location map that pairs up two lists of rows, latest first. -/
def remapEntries (old new : List (RecordLocation × Row)) :
    List (Sigma fun _ : RecordLocation => RemappedRecordLocation) :=
  (((old.map Prod.fst).zip (new.map Prod.fst)).map fun p => ⟨p.1, p.2, p.2.fileId⟩).reverse

theorem remapEntries_append {old old' new new' : List (RecordLocation × Row)}
    (h : old.length = new.length) :
    remapEntries (old ++ old') (new ++ new') = remapEntries old' new' ++ remapEntries old new := by
  unfold remapEntries
  rw [List.map_append, List.map_append, List.zip_append (by simpa using h), List.map_append,
    List.reverse_append]

theorem mem_remapEntries {old new : List (RecordLocation × Row)} {location : RecordLocation}
    {target : RemappedRecordLocation} :
    (⟨location, target⟩ : Sigma fun _ : RecordLocation => RemappedRecordLocation) ∈
      remapEntries old new ↔
      (location, target.recordLocation) ∈ (old.map Prod.fst).zip (new.map Prod.fst) ∧
        target.newDataFile = target.recordLocation.fileId := by
  simp only [remapEntries, List.mem_reverse, List.mem_map]
  constructor
  · rintro ⟨p, hmem, heq⟩
    cases heq
    exact ⟨hmem, rfl⟩
  · rintro ⟨hmem, hfile⟩
    refine ⟨_, hmem, ?_⟩
    cases target
    simp_all

/-! ## The builder between two files -/

/-- The id of the new file number `n`. -/
def fileIdAt (params : CompactionFileParams) (n : Nat) : Nat :=
  localFileIdBase + params.startId * numFilesPerFlush + n

theorem fileIdAt_pos (params : CompactionFileParams) (n : Nat) : 0 < fileIdAt params n := by
  unfold fileIdAt localFileIdBase
  omega

theorem fileIdAt_lt (params : CompactionFileParams) {m n : Nat} (h : m < n) :
    fileIdAt params m < fileIdAt params n := by
  unfold fileIdAt
  omega

namespace CompactionBuilder

/-- The rows written so far, with their locations. -/
def newRows (b : CompactionBuilder Row) : List (RecordLocation × Row) :=
  b.newDataFiles.flatMap (·.1.rows) ++
    match b.curArrowWriter, b.curNewDataFile with
    | some batches, some fileId => locate fileId 0 batches.flatten
    | _, _ => []

/-- The current file, if there is one, has as many rows as are counted. -/
inductive Current (params : CompactionFileParams) (b : CompactionBuilder Row) : Prop where
  | closed (hwriter : b.curArrowWriter = none) (hfile : b.curNewDataFile = none)
      (hrows : b.curRowNum = 0)
  | writing (batches : List (List Row)) (hwriter : b.curArrowWriter = some batches)
      (hfile : b.curNewDataFile = some (fileIdAt params b.compactedFileCount))
      (hrows : b.curRowNum = batches.flatten.length) (hpos : 0 < b.curRowNum)

structure Ok (params : CompactionFileParams) (b : CompactionBuilder Row) : Prop where
  count : b.compactedFileCount = b.newDataFiles.length
  ids : b.newDataFiles.map (·.1.fileId) = (List.range b.newDataFiles.length).map (fileIdAt params)
  entries : ∀ file ∈ b.newDataFiles, file.2.numRows = file.1.batches.flatten.length
  nonempty : ∀ file ∈ b.newDataFiles, 0 < file.2.numRows
  current : Current params b

variable {params : CompactionFileParams} {b : CompactionBuilder Row} {writer : SchemaWriter Row}

theorem getNextFileId_eq (h : params.startId + b.compactedFileCount / numFilesPerFlush < params.endId) :
    b.getNextFileId params = .ok (fileIdAt params b.compactedFileCount) := by
  have hend := params.endId_lt
  have hnarrow : (params.startId + b.compactedFileCount / numFilesPerFlush) % 2 ^ 32 =
      params.startId + b.compactedFileCount / numFilesPerFlush := Nat.mod_eq_of_lt (by omega)
  have hmod : b.compactedFileCount - numFilesPerFlush * (b.compactedFileCount / numFilesPerFlush) =
      b.compactedFileCount % numFilesPerFlush := by
    have := Nat.div_add_mod b.compactedFileCount numFilesPerFlush
    omega
  have hlt : b.compactedFileCount % numFilesPerFlush < numFilesPerFlush :=
    Nat.mod_lt _ (by decide)
  unfold getNextFileId getUniqueFileIdForFlush
  simp only [hnarrow, hmod]
  rw [StoragePanic.assert_pos (by simp [h]), ok_bind, StoragePanic.assert_pos (by simpa using hlt),
    ok_bind]
  congr 1
  have hdiv := Nat.div_add_mod b.compactedFileCount numFilesPerFlush
  unfold fileIdAt
  rw [Nat.add_mul, Nat.mul_comm (b.compactedFileCount / numFilesPerFlush)]
  omega

/-- The current file holds `batches`, of which `k` rows are counted. -/
structure Writing (params : CompactionFileParams) (b : CompactionBuilder Row)
    (batches : List (List Row)) (k : Nat) : Prop where
  writer : b.curArrowWriter = some batches
  file : b.curNewDataFile = some (fileIdAt params b.compactedFileCount)
  rows : b.curRowNum = k

/-- The builders have the same finished files. -/
structure SameFiles (b b' : CompactionBuilder Row) : Prop where
  files : b'.newDataFiles = b.newDataFiles
  count : b'.compactedFileCount = b.compactedFileCount

theorem writeBatch_spec (hok : Ok params b)
    (hids : params.startId + b.compactedFileCount / numFilesPerFlush < params.endId)
    {rows written : List Row} (hwrite : writer.write rows = some written) :
    Returns (b.writeBatch params writer rows) fun b' => SameFiles b b' ∧ ∃ batches,
      Writing params b' (batches ++ [written]) batches.flatten.length ∧
        b'.newRows = b.newRows ++
          locate (fileIdAt params b.compactedFileCount) batches.flatten.length written := by
  unfold writeBatch initializeArrowWriterIfNot
  simp only [hwrite]
  cases hok.current with
  | closed hwriter hfile hrows =>
    simp only [hwriter, hfile]
    rw [StoragePanic.assert_pos (by rfl), ok_bind, getNextFileId_eq hids, ok_bind]
    refine .pure ⟨⟨rfl, rfl⟩, [], ⟨by simp, rfl, by simpa using hrows⟩, ?_⟩
    simp [newRows, hwriter]
  | writing batches hwriter hfile hrows hpos =>
    simp only [hwriter, hfile]
    rw [StoragePanic.assert_pos (by rfl), ok_bind]
    refine .pure ⟨⟨rfl, rfl⟩, batches, ⟨by simp [hwriter], hfile, hrows⟩, ?_⟩
    simp [newRows, hwriter, hfile, locate_append]

variable {dv : BatchDeletionVector} {remap : DataFileRemap}

/-- The rows of a batch are recorded one by one. -/
theorem remapRow_fold {fileId newDataFile : FileId} (start n : Nat)
    {b : CompactionBuilder Row} (hfile : b.curNewDataFile = some newDataFile)
    (hfresh : ∀ i, start ≤ i → RecordLocation.diskFile fileId i ∉ remap) :
    Returns ((List.range' start n).foldlM (remapRow fileId dv) (b, remap)) fun acc =>
      let live := (List.range' start n).filter fun i => !dv.isDeleted i
      acc.1 = { b with curRowNum := b.curRowNum + live.length } ∧
        acc.2.entries = (((live.map (RecordLocation.diskFile fileId)).zip
          ((List.range' b.curRowNum live.length).map (RecordLocation.diskFile newDataFile))).map
            fun p => ⟨p.1, p.2, p.2.fileId⟩).reverse ++ remap.entries := by
  induction n generalizing start b remap with
  | zero => exact .pure ⟨rfl, by simp⟩
  | succ n ih =>
    rw [List.range'_succ, List.foldlM_cons]
    by_cases hdel : dv.isDeleted start = true
    · have hstep : remapRow fileId dv (b, remap) start = .ok (b, remap) := by
        simp [remapRow, hdel]
      rw [hstep, ok_bind]
      refine (ih (start + 1) hfile fun i hi => hfresh i (by omega)).mono fun acc hacc => ?_
      simpa [List.filter_cons, hdel] using hacc
    · have hdel' : dv.isDeleted start = false := by simpa using hdel
      have hnone : remap.lookup (.diskFile fileId start) = none :=
        AList.lookup_eq_none.mpr (hfresh start le_rfl)
      have hstep : remapRow fileId dv (b, remap) start =
          .ok ({ b with curRowNum := b.curRowNum + 1 }, remap.insert (.diskFile fileId start)
            ⟨.diskFile newDataFile b.curRowNum, newDataFile⟩) := by
        unfold remapRow
        simp only [hdel', hfile, hnone]
        rw [StoragePanic.assert_pos (by rfl), ok_bind]
        rfl
      rw [hstep, ok_bind]
      refine (@ih _ (start + 1) { b with curRowNum := b.curRowNum + 1 } hfile ?_).mono
        fun acc hacc => ?_
      · intro i hi hmem
        rcases (AList.mem_insert _).mp hmem with heq | hmem
        · cases heq
          omega
        · exact hfresh i (by omega) hmem
      · simp only at hacc
        obtain ⟨hb, hentries⟩ := hacc
        simp only [List.filter_cons, hdel', Bool.not_false, if_true, List.length_cons]
        refine ⟨?_, ?_⟩
        · rw [hb]
          simp only [CompactionBuilder.mk.injEq, true_and, and_true]
          omega
        · rw [hentries, AList.entries_insert_of_notMem (hfresh start le_rfl)]
          simp [List.range'_succ, RecordLocation.fileId]

/-- What the rows `rows` of a file from row `start` on, which are written as `written`, add to the builder and to the
map. -/
structure Extends (params : CompactionFileParams) (fileId : FileId) (dv : BatchDeletionVector)
    (start : Nat) (rows written : List Row) (b : CompactionBuilder Row) (remap : DataFileRemap)
    (acc : CompactionBuilder Row × DataFileRemap) : Prop where
  ok : Ok params acc.1
  count : acc.1.compactedFileCount = b.compactedFileCount
  out : ∃ out, acc.1.newRows = b.newRows ++ out ∧
    out.map Prod.snd = written ∧ written.length = (locateLive fileId dv start rows).length ∧
    acc.2.entries = remapEntries (locateLive fileId dv start rows) out ++ remap.entries

theorem getFilteredRecordBatch_eq {start : Nat} {batch : List Row}
    (h : dv.Covers (start + batch.length)) (fileId : FileId) :
    getFilteredRecordBatch dv batch start =
      .ok ((locateLive fileId dv start batch).map Prod.snd) := by
  rw [locateLive_map_snd]
  unfold getFilteredRecordBatch
  split
  · rename_i hempty
    have hall : (batch.zipIdx start).filter (fun r => !dv.isDeleted r.2) = batch.zipIdx start := by
      rw [List.filter_eq_self]
      rintro ⟨row, i⟩ hmem
      have hlt := (List.mem_zipIdx hmem).2.1
      simp [h.isDeleted_of_isEmpty hempty (by omega)]
    rw [hall, List.zipIdx_map_fst]
  · rcases h with hnone | hle
    · have hactive : ∀ i, dv.isDeleted i = false := fun i => by
        simp [BatchDeletionVector.isDeleted, hnone]
      simp [BatchDeletionVector.applyToBatchWithSlice, hnone, hactive]
    · exact BatchDeletionVector.applyToBatchWithSlice_eq hle

variable {fileId : FileId}

theorem compactBatch_spec {start : Nat} {batch written : List Row} (hok : Ok params b)
    (hids : params.startId + b.compactedFileCount / numFilesPerFlush < params.endId)
    (hcovers : dv.Covers (start + batch.length))
    (hfresh : ∀ i, start ≤ i → RecordLocation.diskFile fileId i ∉ remap)
    (hwrite : writer.write ((locateLive fileId dv start batch).map Prod.snd) = some written) :
    Returns (compactBatch params writer fileId dv ((b, remap), start) batch) fun acc =>
      acc.2 = start + batch.length ∧ Extends params fileId dv start batch written b remap acc.1 := by
  have hlength : written.length = (locateLive fileId dv start batch).length := by
    simpa using writer.length_eq hwrite
  unfold compactBatch
  simp only [getFilteredRecordBatch_eq hcovers fileId, ok_bind]
  split
  · rename_i hempty
    have hlive : locateLive fileId dv start batch = [] := by simpa using hempty
    have hnil : written = [] := by simpa [hlive] using hlength
    refine .pure ⟨rfl, hok, rfl, [], by simp, by simp [hnil], hlength, by simp [hlive, remapEntries]⟩
  · rename_i hnonempty
    have hpos : 0 < (locateLive fileId dv start batch).length := by
      rw [List.length_pos_iff]
      simpa using hnonempty
    refine (writeBatch_spec hok hids hwrite).bind fun b₁ hb₁ => ?_
    obtain ⟨hsame, batches, hwriting, hrows⟩ := hb₁
    refine (remapRow_fold start batch.length hwriting.file hfresh).bind fun acc hacc => ?_
    simp only [← length_locateLive fileId dv start batch] at hacc
    obtain ⟨hb, hentries⟩ := hacc
    have hout : acc.1.newRows = b₁.newRows := by
      rw [hb]
      rfl
    refine .pure ⟨rfl, ?_, ?_, _, hout.trans hrows, locate_map_snd _ _ _, hlength, ?_⟩
    · rw [hb]
      refine ⟨?_, ?_, ?_, ?_, ?_⟩
      · simp only [hsame.files, hsame.count]
        exact hok.count
      · simp only [hsame.files]
        exact hok.ids
      · simp only [hsame.files]
        exact hok.entries
      · simp only [hsame.files]
        exact hok.nonempty
      · refine .writing _ hwriting.writer hwriting.file ?_ ?_
        · simp [hwriting.rows, hlength]
        · simp only
          omega
    · rw [hb]
      exact hsame.count
    · rw [hentries, hwriting.rows]
      unfold remapEntries
      rw [locate_map_fst, locateLive_map_fst, hlength, hsame.count]

/-- A batch that is compacted was written. -/
theorem compactBatch_written {start : Nat} {batch : List Row} (hcovers : dv.Covers (start + batch.length)) :
    Ensures (compactBatch params writer fileId dv ((b, remap), start) batch) fun acc =>
      acc.2 = start + batch.length ∧ (writer.write ((locateLive 0 dv start batch).map Prod.snd)).isSome := by
  unfold compactBatch
  simp only [getFilteredRecordBatch_eq hcovers 0, ok_bind]
  split
  case isTrue hempty =>
    rw [List.isEmpty_iff.mp hempty, writer.write_nil]
    exact .pure ⟨rfl, rfl⟩
  case isFalse =>
    refine .bind (P := fun _ => (writer.write ((locateLive 0 dv start batch).map Prod.snd)).isSome) ?_
      fun b' hwritten => .bind_any fun _ => .pure ⟨rfl, hwritten⟩
    unfold writeBatch
    refine .bind_any fun b' => ?_
    split
    case h_1 written hwrite => exact .pure (by rw [hwrite]; rfl)
    case h_2 => exact .error

theorem Extends.refl (hok : Ok params b)
    (remap : DataFileRemap) : Extends params fileId dv 0 [] [] b remap (b, remap) :=
  ⟨hok, rfl, [], by simp, rfl, by simp [locateLive], by simp [locateLive, remapEntries]⟩

theorem Extends.trans {rows rows' written written' : List Row}
    {acc acc' : CompactionBuilder Row × DataFileRemap}
    (h : Extends params fileId dv 0 rows written b remap acc)
    (h' : Extends params fileId dv rows.length rows' written' acc.1 acc.2 acc') :
    Extends params fileId dv 0 (rows ++ rows') (written ++ written') b remap acc' := by
  obtain ⟨out, hnew, hrows, hlength, hentries⟩ := h.out
  obtain ⟨out', hnew', hrows', hlength', hentries'⟩ := h'.out
  have hlen : (locateLive fileId dv 0 rows).length = out.length := by
    rw [← hlength, ← hrows, List.length_map]
  refine ⟨h'.ok, h'.count.trans h.count, out ++ out', ?_, ?_, ?_, ?_⟩
  · rw [hnew', hnew, List.append_assoc]
  · rw [List.map_append, hrows, hrows']
  · rw [locateLive_append, Nat.zero_add, List.length_append, List.length_append, hlength, hlength']
  · rw [hentries', hentries, locateLive_append, Nat.zero_add, remapEntries_append hlen,
      List.append_assoc]

/-- The map of a file knows rows of this file below the next row only. -/
theorem Extends.fresh {rows written : List Row}
    {acc : CompactionBuilder Row × DataFileRemap}
    (h : Extends params fileId dv 0 rows written b ∅ acc) (i : Nat) (hi : rows.length ≤ i) :
    RecordLocation.diskFile fileId i ∉ acc.2 := by
  obtain ⟨out, -, -, -, hentries⟩ := h.out
  intro hmem
  obtain ⟨target, htarget⟩ := Option.isSome_iff_exists.mp (AList.lookup_isSome.mpr hmem)
  rw [AssocMap.lookup_eq_some_iff, hentries] at htarget
  have hzip := (mem_remapEntries.mp (by simpa using htarget)).1
  have hold := (List.of_mem_zip hzip).1
  rw [locateLive_map_fst, List.mem_map] at hold
  obtain ⟨j, hj, heq⟩ := hold
  cases heq
  rw [List.mem_filter, List.mem_range'_1] at hj
  omega

theorem covers_batch (file : SingleFileToCompact Row) {done rest : List (List Row)} {batch : List Row}
    (heq : file.batches = done ++ batch :: rest) :
    file.loadDeletionVector.Covers (done.flatten.length + batch.length) := by
  unfold SingleFileToCompact.loadDeletionVector
  cases hdv : file.deletionVector with
  | none => exact .inl rfl
  | some dv =>
    refine .inr ?_
    have hfits := file.fits dv hdv
    rw [heq] at hfits
    simp only [List.flatten_append, List.flatten_cons, List.length_append] at hfits
    simp only [Option.getD_some]
    omega

theorem compactBatches_spec (file : SingleFileToCompact Row) (hok : Ok params b)
    (hids : params.startId + b.compactedFileCount / numFilesPerFlush < params.endId)
    (hwrites : ∀ kept ∈ keptBatches file.loadDeletionVector 0 file.batches, (writer.write kept).isSome) :
    Returns (file.batches.foldlM (compactBatch params writer file.fileId file.loadDeletionVector)
      ((b, ∅), 0)) fun acc => ∃ written,
        writer.Writes (keptBatches file.loadDeletionVector 0 file.batches) written ∧
        Extends params file.fileId file.loadDeletionVector 0 file.batches.flatten written.flatten b ∅ acc.1 := by
  refine (Returns.foldlM (I := fun done acc => acc.2 = done.flatten.length ∧ ∃ written,
    writer.Writes (keptBatches file.loadDeletionVector 0 done) written ∧
      Extends params file.fileId file.loadDeletionVector 0 done.flatten written.flatten b ∅ acc.1) ?_ ?_).mono
      fun acc hacc => hacc.2
  · exact ⟨rfl, [], .nil, .refl hok ∅⟩
  · rintro done batch rest ⟨⟨b', remap⟩, start⟩ heq ⟨rfl, written, hdone, hext⟩
    have hkept : (locateLive file.fileId file.loadDeletionVector done.flatten.length batch).map Prod.snd ∈
        keptBatches file.loadDeletionVector 0 file.batches := by
      rw [heq, keptBatches_append, keptBatches, Nat.zero_add, locateLive_map_snd, locateLive_map_snd]
      exact List.mem_append_right _ List.mem_cons_self
    obtain ⟨last, hlast⟩ := Option.isSome_iff_exists.mp (hwrites _ hkept)
    refine (compactBatch_spec hext.ok (by rw [hext.count]; exact hids) (covers_batch file heq) hext.fresh hlast).mono
      fun acc hacc => ?_
    rw [List.flatten_append, List.flatten_singleton]
    refine ⟨by rw [hacc.1, List.length_append], written ++ [last], ?_, ?_⟩
    · rw [keptBatches_append, keptBatches, keptBatches, Nat.zero_add]
      rw [locateLive_map_snd] at hlast
      exact List.rel_append hdone (.cons (by rw [locateLive_map_snd]; exact hlast) .nil)
    · rw [List.flatten_append, List.flatten_singleton]
      exact hext.trans hacc.2

theorem compactBatches_written (file : SingleFileToCompact Row) :
    Ensures (file.batches.foldlM (compactBatch params writer file.fileId file.loadDeletionVector)
      ((b, ∅), 0)) fun _ =>
        ∀ kept ∈ keptBatches file.loadDeletionVector 0 file.batches, (writer.write kept).isSome := by
  refine Ensures.mono (.foldlM (I := fun done acc => acc.2 = done.flatten.length ∧
    ∀ kept ∈ keptBatches file.loadDeletionVector 0 done, (writer.write kept).isSome) ⟨rfl, nofun⟩ ?_)
      fun acc hacc => hacc.2
  rintro done batch rest ⟨⟨b', remap⟩, start⟩ heq ⟨rfl, hdone⟩
  refine (compactBatch_written (covers_batch file heq)).mono fun acc hacc => ⟨by simp [hacc.1], fun kept hkept => ?_⟩
  rw [keptBatches_append, keptBatches, keptBatches, Nat.zero_add] at hkept
  obtain hold | hlast := List.mem_append.mp hkept
  · exact hdone kept hold
  · rw [List.mem_singleton.mp hlast]
    exact hacc.2

/-- Closing the current file moves its rows to the finished files. -/
theorem flushArrowWriter_spec (writer : SchemaWriter Row) (hok : Ok params b)
    (hopen : b.curArrowWriter.isSome) :
    Returns (b.flushArrowWriter writer) fun b' => Ok params b' ∧ b'.newRows = b.newRows ∧
      b'.curArrowWriter = none ∧ b'.compactedFileCount = b.compactedFileCount + 1 := by
  unfold flushArrowWriter
  cases hok.current with
  | closed hwriter _ _ =>
    rw [hwriter] at hopen
    cases hopen
  | writing batches hwriter hfile hrows hpos =>
    simp only [hwriter, hfile]
    rw [StoragePanic.assert_pos (by simpa using writer.bytesWritten_pos batches), ok_bind,
      StoragePanic.assert_pos (by simpa using hpos), ok_bind]
    refine .pure ⟨⟨?_, ?_, ?_, ?_, .closed rfl rfl rfl⟩, ?_, rfl, rfl⟩
    · simp [hok.count]
    · simp [hok.ids, hok.count, List.range_succ]
    · intro file hmem
      rcases List.mem_append.mp hmem with hmem | hmem
      · exact hok.entries file hmem
      · rw [List.mem_singleton.mp hmem]
        exact hrows
    · intro file hmem
      rcases List.mem_append.mp hmem with hmem | hmem
      · exact hok.nonempty file hmem
      · rw [List.mem_singleton.mp hmem]
        exact hpos
    · simp [newRows, hwriter, hfile, CompactedDataFile.rows]

theorem flushIfLarge_spec (writer : SchemaWriter Row) (hok : Ok params b) :
    Returns (b.flushIfLarge params writer) fun b' => Ok params b' ∧ b'.newRows = b.newRows ∧
      b'.compactedFileCount ≤ b.compactedFileCount + 1 := by
  unfold flushIfLarge
  cases hwriter : b.curArrowWriter with
  | none => exact .ok ⟨hok, rfl, by omega⟩
  | some batches =>
    simp only
    split
    · refine (flushArrowWriter_spec writer hok (by rw [hwriter]; rfl)).mono fun b' hb' => ?_
      exact ⟨hb'.1, hb'.2.1, hb'.2.2.2.le⟩
    · exact .ok ⟨hok, rfl, by omega⟩

/-- The number of live rows of a file, as it is checked. -/
theorem liveRows_length (file : SingleFileToCompact Row) :
    (file.batches.map List.length).sum - file.loadDeletionVector.getNumRowsDeleted =
      file.liveRows.length := by
  unfold SingleFileToCompact.liveRows
  rw [length_locateLive, ← List.length_flatten, ← List.range_eq_range',
    BatchDeletionVector.getNumRowsDeleted_eq, BatchDeletionVector.collectDeletedRows_eq]
  have hcount := List.length_eq_length_filter_add (l := List.range file.batches.flatten.length)
    file.loadDeletionVector.isDeleted
  rw [List.length_range] at hcount
  have hdeleted : (List.range file.loadDeletionVector.maxRows).filter
      file.loadDeletionVector.isDeleted = (List.range file.batches.flatten.length).filter
        file.loadDeletionVector.isDeleted := by
    unfold SingleFileToCompact.loadDeletionVector
    cases hdv : file.deletionVector with
    | none => simp [BatchDeletionVector.isDeleted, BatchDeletionVector.new]
    | some dv => simp [file.fits dv hdv]
  rw [hdeleted]
  omega

/-- What one file adds to the builder, and its part of the map. -/
structure FileCompacted (params : CompactionFileParams) (writer : SchemaWriter Row) (file : SingleFileToCompact Row)
    (b : CompactionBuilder Row) (acc : CompactionBuilder Row × DataFileRemap) : Prop where
  ok : Ok params acc.1
  count : acc.1.compactedFileCount ≤ b.compactedFileCount + 1
  out : ∃ out written, writer.Writes (keptBatches file.loadDeletionVector 0 file.batches) written ∧
    acc.1.newRows = b.newRows ++ out ∧ out.map Prod.snd = written.flatten ∧
    out.length = file.liveRows.length ∧ acc.2.entries = remapEntries file.liveRows out

theorem applyDeletionVectorAndWrite_spec (writer : SchemaWriter Row) (file : SingleFileToCompact Row)
    (hok : Ok params b)
    (hids : params.startId + b.compactedFileCount / numFilesPerFlush < params.endId)
    (hwrites : ∀ kept ∈ keptBatches file.loadDeletionVector 0 file.batches, (writer.write kept).isSome) :
    Returns (b.applyDeletionVectorAndWrite params writer file) (FileCompacted params writer file b) := by
  unfold applyDeletionVectorAndWrite
  refine (compactBatches_spec file hok hids hwrites).bind fun acc ⟨written, hwritten, hext⟩ => ?_
  refine (flushIfLarge_spec writer hext.ok).bind fun b' hb' => ?_
  obtain ⟨hok', hnew', hcount'⟩ := hb'
  obtain ⟨out, hnew, hrows, hlength, hentries⟩ := hext.out
  have hentries' : acc.1.2.entries = remapEntries file.liveRows out := by
    rw [hentries]
    simp [SingleFileToCompact.liveRows]
  have hout : out.length = file.liveRows.length := by
    rw [← List.length_map (f := Prod.snd), hrows, hlength]
    rfl
  have hlen : acc.1.2.entries.length = file.liveRows.length := by
    simp [hentries', remapEntries, hout]
  rw [liveRows_length, hlen, StoragePanic.assert_pos (by simp), ok_bind]
  refine .pure ⟨hok', ?_, out, written, hwritten, ?_, hrows, hout, hentries'⟩
  · exact hcount'.trans (by rw [hext.count])
  · exact hnew'.trans hnew

/-! ## All files -/

/-- The map sends each old location to the new one at the same position. -/
def PairsUp (old new : List (RecordLocation × Row)) (remap : DataFileRemap) : Prop :=
  ∀ location target, remap.lookup location = some target ↔
    (location, target.recordLocation) ∈ (old.map Prod.fst).zip (new.map Prod.fst) ∧
      target.newDataFile = target.recordLocation.fileId

theorem PairsUp.of_entries {old new : List (RecordLocation × Row)}
    (h : remap.entries = remapEntries old new) : PairsUp old new remap := by
  intro location target
  rw [AssocMap.lookup_eq_some_iff, h, mem_remapEntries]

theorem PairsUp.mem_old {old new : List (RecordLocation × Row)}
    (h : PairsUp old new remap) {location : RecordLocation} (hmem : location ∈ remap) :
    location ∈ old.map Prod.fst := by
  obtain ⟨target, htarget⟩ := Option.isSome_iff_exists.mp (AList.lookup_isSome.mpr hmem)
  exact (List.of_mem_zip ((h location target).mp htarget).1).1

theorem PairsUp.union {old old' new new' : List (RecordLocation × Row)}
    {remap remap' : DataFileRemap} (h : PairsUp old new remap) (h' : PairsUp old' new' remap')
    (hlen : old.length = new.length)
    (hdisjoint : ∀ location ∈ old.map Prod.fst, location ∉ old'.map Prod.fst) :
    PairsUp (old ++ old') (new ++ new') (remap' ∪ remap) := by
  intro location target
  have hunion : (remap' ∪ remap).lookup location = some target ↔
      remap'.lookup location = some target ∨
        location ∉ remap' ∧ remap.lookup location = some target := by
    simp
  rw [hunion, h, h', List.map_append, List.map_append, List.zip_append (by simpa using hlen),
    List.mem_append]
  constructor
  · rintro (⟨hzip, hfile⟩ | ⟨-, hzip, hfile⟩)
    · exact ⟨.inr hzip, hfile⟩
    · exact ⟨.inl hzip, hfile⟩
  · rintro ⟨hzip | hzip, hfile⟩
    · refine .inr ⟨?_, hzip, hfile⟩
      intro hmem
      exact hdisjoint location (List.of_mem_zip hzip).1 (h'.mem_old hmem)
    · exact .inl ⟨hzip, hfile⟩

theorem fileId_of_mem_liveRows {file : SingleFileToCompact Row} {location : RecordLocation}
    (h : location ∈ file.liveRows.map Prod.fst) : location.fileId = file.fileId := by
  unfold SingleFileToCompact.liveRows at h
  rw [locateLive_map_fst, List.mem_map] at h
  obtain ⟨i, -, rfl⟩ := h
  rfl

/-- The builder and the map after the files `files`. -/
structure FilesCompacted (params : CompactionFileParams) (writer : SchemaWriter Row)
    (files : List (SingleFileToCompact Row)) (acc : CompactionBuilder Row × DataFileRemap) : Prop where
  ok : Ok params acc.1
  count : acc.1.compactedFileCount ≤ files.length
  rows : ∃ written,
    writer.Writes (files.flatMap fun file => keptBatches file.loadDeletionVector 0 file.batches) written ∧
      acc.1.newRows.map Prod.snd = written.flatten
  length : acc.1.newRows.length = (files.flatMap (·.liveRows)).length
  pairs : PairsUp (files.flatMap (·.liveRows)) acc.1.newRows acc.2

theorem compactDataFiles_spec (writer : SchemaWriter Row) (files : List (SingleFileToCompact Row))
    (hdistinct : (files.map (·.fileId)).Nodup)
    (hids : params.startId + files.length * 2 ≤ params.endId)
    (hwrites : ∀ file ∈ files, ∀ kept ∈ keptBatches file.loadDeletionVector 0 file.batches,
      (writer.write kept).isSome) :
    Returns (CompactionBuilder.new.compactDataFiles params writer files)
      (FilesCompacted params writer files) := by
  unfold compactDataFiles
  refine Returns.foldlM (I := FilesCompacted params writer) ?_ ?_
  · have hok : Ok params (CompactionBuilder.new : CompactionBuilder Row) :=
      ⟨rfl, rfl, nofun, nofun, .closed rfl rfl rfl⟩
    exact ⟨hok, le_rfl, ⟨[], .nil, rfl⟩, rfl, PairsUp.of_entries rfl⟩
  · rintro done file rest ⟨b, remap⟩ heq hdone
    have hlen : files.length = done.length + rest.length + 1 := by
      rw [heq]
      simp
      omega
    have hnext : params.startId + b.compactedFileCount / numFilesPerFlush < params.endId := by
      have hcount : b.compactedFileCount ≤ done.length := hdone.count
      have hdiv : b.compactedFileCount / numFilesPerFlush ≤ b.compactedFileCount :=
        Nat.div_le_self _ _
      omega
    unfold compactDataFile
    refine (applyDeletionVectorAndWrite_spec writer file hdone.ok hnext
      (hwrites file (by rw [heq]; simp))).bind fun acc hfile => ?_
    obtain ⟨out, written, hwritten, hnew, hrows, hout, hentries⟩ := hfile.out
    obtain ⟨before, hbefore, hold⟩ := hdone.rows
    refine .pure ⟨hfile.ok, ?_, ⟨before ++ written, ?_, ?_⟩, ?_, ?_⟩
    · have hcount := hfile.count
      have hcounted := hdone.count
      simp only [List.length_append, List.length_singleton]
      simp only at hcounted hcount
      omega
    · rw [List.flatMap_append, List.flatMap_singleton]
      exact List.rel_append hbefore hwritten
    · rw [List.flatten_append, ← hrows, ← hold, ← List.map_append]
      exact congrArg _ hnew
    · rw [List.flatMap_append, List.flatMap_singleton, List.length_append, ← hout, ← hdone.length, ← List.length_append]
      exact congrArg _ hnew
    · rw [List.flatMap_append, List.flatMap_singleton, hnew]
      refine hdone.pairs.union (PairsUp.of_entries hentries) hdone.length.symm ?_
      · intro location hold hmem
        -- The file would be among the files before it.
        rw [List.map_flatMap, List.mem_flatMap] at hold
        obtain ⟨file', hfile', hold⟩ := hold
        have hsame : file'.fileId = file.fileId := by
          rw [← fileId_of_mem_liveRows hold, fileId_of_mem_liveRows hmem]
        rw [heq, List.map_append, List.map_cons, List.nodup_append] at hdistinct
        exact hdistinct.2.2 _ (List.mem_map_of_mem hfile') _ List.mem_cons_self hsame

theorem compactDataFiles_written (writer : SchemaWriter Row) (files : List (SingleFileToCompact Row)) :
    Ensures (CompactionBuilder.new.compactDataFiles params writer files) fun _ => ∀ file ∈ files,
      ∀ kept ∈ keptBatches file.loadDeletionVector 0 file.batches, (writer.write kept).isSome := by
  refine .foldlM (I := fun (done : List (SingleFileToCompact Row)) _ => ∀ file ∈ done,
    ∀ kept ∈ keptBatches file.loadDeletionVector 0 file.batches, (writer.write kept).isSome) nofun ?_
  intro done file rest acc _ hdone
  refine .bind (P := fun _ => ∀ kept ∈ keptBatches file.loadDeletionVector 0 file.batches,
    (writer.write kept).isSome) ?_ fun _ hfile => .pure fun file' hfile' => ?_
  · exact (compactBatches_written file).bind fun _ hfile => .bind_any fun _ => .bind_any fun _ => .pure hfile
  · obtain hold | hlast := List.mem_append.mp hfile'
    · exact hdone file' hold
    · rw [List.mem_singleton.mp hlast]
      exact hfile

/-! ## The result -/

theorem flushLast_spec (writer : SchemaWriter Row) (hok : Ok params b) :
    Returns (b.flushLast writer) fun b' => Ok params b' ∧ b'.newRows = b.newRows ∧
      b'.newRows = b'.newDataFiles.flatMap (·.1.rows) ∧
      b'.compactedFileCount ≤ b.compactedFileCount + 1 := by
  unfold flushLast
  split
  · rename_i hopen
    refine (flushArrowWriter_spec writer hok hopen).mono fun b' hb' => ?_
    obtain ⟨hok', hnew, hclosed, hcount⟩ := hb'
    exact ⟨hok', hnew, by simp [newRows, hclosed], hcount.le⟩
  · rename_i hclosed
    have hnone : b.curArrowWriter = none := by simpa using hclosed
    exact .ok ⟨hok, rfl, by simp [newRows, hnone], by omega⟩

theorem Ok.ids_increasing (hok : Ok params b) :
    (0 :: b.newDataFiles.map (·.1.fileId)).Pairwise (· < ·) := by
  rw [hok.ids, List.pairwise_cons, List.pairwise_map]
  refine ⟨?_, ?_⟩
  · intro id hmem
    obtain ⟨n, -, rfl⟩ := List.mem_map.mp hmem
    exact fileIdAt_pos params n
  · exact List.pairwise_lt_range.imp fun hlt => fileIdAt_lt params hlt

theorem compactFileIndices_spec (merge : IndexMerge Index) (indices : List Index)
    (remap : DataFileRemap) (hok : Ok params b)
    (hids : params.startId + b.compactedFileCount / numFilesPerFlush < params.endId) :
    Returns (b.compactFileIndices params merge indices remap) fun _ => True := by
  have hfiles : b.getNewCompactedDataFiles = .ok (b.newDataFiles.map (·.1.fileId)) := by
    unfold getNewCompactedDataFiles
    simp only
    rw [StoragePanic.assert_pos (decide_eq_true hok.ids_increasing), ok_bind]
    rfl
  unfold compactFileIndices
  rw [getNextFileId_eq hids, ok_bind, hfiles, ok_bind]
  exact .pure trivial

end CompactionBuilder

/-- Different files have different locations. -/
theorem rows_locations_nodup {files : List (CompactedDataFile Row × CompactedDataEntry)}
    (h : (files.map (·.1.fileId)).Nodup) :
    ((files.flatMap (·.1.rows)).map Prod.fst).Nodup := by
  induction files with
  | nil => simp
  | cons file files ih =>
    rw [List.map_cons, List.nodup_cons] at h
    rw [List.flatMap_cons, List.map_append, List.nodup_append]
    refine ⟨?_, ih h.2, ?_⟩
    · unfold CompactedDataFile.rows
      rw [locate_map_fst]
      refine List.Nodup.map ?_ List.nodup_range'
      intro i j hij
      cases hij
      rfl
    · intro location hmem location' hmem' heq
      subst heq
      unfold CompactedDataFile.rows at hmem
      rw [locate_map_fst, List.mem_map] at hmem
      obtain ⟨i, -, rfl⟩ := hmem
      rw [List.map_flatMap, List.mem_flatMap] at hmem'
      obtain ⟨file', hfile', hmem'⟩ := hmem'
      unfold CompactedDataFile.rows at hmem'
      rw [locate_map_fst, List.mem_map] at hmem'
      obtain ⟨j, -, heq⟩ := hmem'
      have hsame : file'.1.fileId = file.1.fileId := by
        injection heq
      exact h.1 (hsame ▸ List.mem_map_of_mem (f := fun f => f.1.fileId) hfile')

section Result

variable {payload : DataCompactionPayload Row Index} {r : DataCompactionResult Row Index}

/-- The new rows are the live rows at their new locations. -/
theorem newRows_eq_map (hrows : r.newRows.map Prod.snd = payload.liveRows.map Prod.snd)
    (hpairs : CompactionBuilder.PairsUp payload.liveRows r.newRows r.remappedDataFiles) :
    r.newRows = payload.liveRows.map fun p => (r.remap p.1, p.2) := by
  have hlen : r.newRows.length = payload.liveRows.length := by
    simpa using congrArg List.length hrows
  refine List.ext_getElem (by simpa using hlen) fun i hi hi' => ?_
  have hi'' : i < payload.liveRows.length := by omega
  have hzip : (payload.liveRows[i].1, r.newRows[i].1) ∈
      (payload.liveRows.map Prod.fst).zip (r.newRows.map Prod.fst) := by
    rw [List.mem_iff_getElem]
    exact ⟨i, by simp; omega, by simp⟩
  have hlookup := (hpairs _ ⟨r.newRows[i].1, r.newRows[i].1.fileId⟩).mpr ⟨hzip, rfl⟩
  have hrow : r.newRows[i].2 = payload.liveRows[i].2 := by
    have hget := congrArg (·[i]?) hrows
    simpa [List.getElem?_eq_getElem hi, List.getElem?_eq_getElem hi''] using hget
  rw [List.getElem_map]
  unfold DataCompactionResult.remap
  rw [hlookup]
  exact Prod.ext rfl hrow

theorem Compacted.of_pairs (hrows : r.newRows.map Prod.snd = payload.liveRows.map Prod.snd)
    (hpairs : CompactionBuilder.PairsUp payload.liveRows r.newRows r.remappedDataFiles)
    (hids : (r.newDataFiles.map (·.1.fileId)).Nodup)
    (hentries : ∀ file ∈ r.newDataFiles, file.2.numRows = file.1.batches.flatten.length) :
    Compacted payload r := by
  have hnew := newRows_eq_map hrows hpairs
  have hlen : payload.liveRows.length = r.newRows.length := by rw [hnew, List.length_map]
  have hlocations : r.newRows.map Prod.fst = (payload.liveRows.map Prod.fst).map r.remap := by
    rw [hnew]
    simp
  have hnodup : (r.newRows.map Prod.fst).Nodup := rows_locations_nodup hids
  refine ⟨hrows, ?_, ⟨?_, ?_, ?_⟩, ?_, hnodup, ?_⟩
  · intro location
    refine ⟨hpairs.mem_old, fun hmem => ?_⟩
    obtain ⟨i, hi, rfl⟩ := List.mem_iff_getElem.mp hmem
    have hi' : i < (r.newRows.map Prod.fst).length := by simpa [hlen] using hi
    have hzip : ((payload.liveRows.map Prod.fst)[i], (r.newRows.map Prod.fst)[i]) ∈
        (payload.liveRows.map Prod.fst).zip (r.newRows.map Prod.fst) := by
      rw [List.mem_iff_getElem]
      exact ⟨i, by simp at hi hi' ⊢; omega, by simp⟩
    rw [← AList.lookup_isSome,
      (hpairs _ ⟨(r.newRows.map Prod.fst)[i], (r.newRows.map Prod.fst)[i].fileId⟩).mpr ⟨hzip, rfl⟩]
    rfl
  · intro location hmem
    rw [Set.mem_ofPred_eq, hlocations]
    exact List.mem_map_of_mem hmem
  · intro location hmem location' hmem' heq
    rw [hlocations] at hnodup
    exact List.inj_on_of_nodup_map hnodup hmem hmem' heq
  · intro location hmem
    rw [Set.mem_ofPred_eq, hlocations, List.mem_map] at hmem
    exact hmem
  · intro location row hmem
    rw [hnew]
    exact List.mem_map.mpr ⟨_, hmem, rfl⟩
  · intro location new hlookup
    obtain ⟨hzip, hfile⟩ := (hpairs location new).mp hlookup
    have hmem := (List.of_mem_zip hzip).2
    unfold DataCompactionResult.newRows at hmem
    rw [List.map_flatMap, List.mem_flatMap] at hmem
    obtain ⟨file, hmemFile, hmem⟩ := hmem
    unfold CompactedDataFile.rows at hmem
    rw [locate_map_fst, List.mem_map] at hmem
    obtain ⟨i, hi, heq⟩ := hmem
    rw [List.mem_range'_1, Nat.zero_add] at hi
    refine ⟨file, hmemFile, ?_, i, ?_, heq.symm⟩
    · rw [hfile, ← heq]
      rfl
    · rw [hentries file hmemFile]
      exact hi.2

end Result

theorem CompactionBuilder.PairsUp.eq_nil {old new : List (RecordLocation × Row)}
    {remap : DataFileRemap} (h : PairsUp old new remap)
    (hlen : new.length = old.length) (hempty : remap.entries = []) : new = [] ∧ old = [] := by
  have hold : old = [] := by
    cases old with
    | nil => rfl
    | cons p old =>
      cases new with
      | nil => cases hlen
      | cons q new =>
        have hlookup := (h p.1 ⟨q.1, q.1.fileId⟩).mpr ⟨by simp, rfl⟩
        rw [AssocMap.lookup_eq_some_iff, hempty] at hlookup
        cases hlookup
  subst hold
  exact ⟨List.eq_nil_of_length_eq_zero hlen, rfl⟩

/-- What a compaction of the payload writes, with the ids `params`. -/
structure Wrote (payload : DataCompactionPayload Row Index) (params : CompactionFileParams) (writer : SchemaWriter Row)
    (r : DataCompactionResult Row Index) : Prop where
  rows : ∃ written, writer.Writes payload.keptBatches written ∧ r.newRows.map Prod.snd = written.flatten
  pairs : CompactionBuilder.PairsUp payload.liveRows r.newRows r.remappedDataFiles
  entries : ∀ file ∈ r.newDataFiles, file.2.numRows = file.1.batches.flatten.length
  oldDataFiles : r.oldDataFiles = payload.diskFiles.map (·.fileId)
  ids : r.newDataFiles.map (·.1.fileId) = (List.range r.newDataFiles.length).map (fileIdAt params)
  count : r.newDataFiles.length ≤ payload.getNewCompactedDataFileIdsNumber
  nonempty : ∀ file ∈ r.newDataFiles, 0 < file.1.rows.length

/-- What a compaction of the payload returns if its batches are written as they are. -/
structure Built (payload : DataCompactionPayload Row Index) (params : CompactionFileParams)
    (r : DataCompactionResult Row Index) : Prop where
  compacted : Compacted payload r
  oldDataFiles : r.oldDataFiles = payload.diskFiles.map (·.fileId)
  ids : r.newDataFiles.map (·.1.fileId) = (List.range r.newDataFiles.length).map (fileIdAt params)
  count : r.newDataFiles.length ≤ payload.getNewCompactedDataFileIdsNumber
  nonempty : ∀ file ∈ r.newDataFiles, 0 < file.1.rows.length

theorem Wrote.built {payload : DataCompactionPayload Row Index} {params : CompactionFileParams}
    {writer : SchemaWriter Row} {r : DataCompactionResult Row Index} (h : Wrote payload params writer r)
    (hwrites : ∀ kept ∈ payload.keptBatches, writer.write kept = some kept) : Built payload params r := by
  obtain ⟨written, hwritten, hrows⟩ := h.rows
  rw [hwritten.eq_self hwrites, payload.flatten_keptBatches] at hrows
  have hnodup : (r.newDataFiles.map (·.1.fileId)).Nodup := by
    rw [h.ids]
    refine List.nodup_range.map fun m n heq => ?_
    have heq : fileIdAt params m = fileIdAt params n := heq
    unfold fileIdAt at heq
    omega
  exact ⟨.of_pairs hrows h.pairs hnodup h.entries, h.oldDataFiles, h.ids, h.count, h.nonempty⟩

theorem CompactionBuilder.Ok.rows_pos {params : CompactionFileParams} {b : CompactionBuilder Row}
    (hok : CompactionBuilder.Ok params b) : ∀ file ∈ b.newDataFiles, 0 < file.1.rows.length := by
  intro file hfile
  have hpos := hok.nonempty file hfile
  rw [hok.entries file hfile] at hpos
  simpa [CompactedDataFile.rows, locate] using hpos

theorem build_writes (payload : DataCompactionPayload Row Index) (params : CompactionFileParams)
    (writer : SchemaWriter Row) (merge : IndexMerge Index)
    (hids : params.startId + payload.getNewCompactedDataFileIdsNumber ≤ params.endId)
    (hwrites : ∀ kept ∈ payload.keptBatches, (writer.write kept).isSome) :
    Returns (CompactionBuilder.build payload params writer merge) (Wrote payload params writer) := by
  unfold CompactionBuilder.build
  refine (CompactionBuilder.compactDataFiles_spec writer payload.diskFiles payload.distinct hids
    fun file hfile kept hkept => hwrites kept (List.mem_flatMap.mpr ⟨file, hfile, hkept⟩)).bind fun acc hacc => ?_
  obtain ⟨b, remap⟩ := acc
  obtain ⟨hok, hcount, hrows, hlen, hpairs⟩ := hacc
  have hpairs : CompactionBuilder.PairsUp payload.liveRows b.newRows remap := hpairs
  have hlen : b.newRows.length = payload.liveRows.length := hlen
  have hrows : ∃ written, writer.Writes payload.keptBatches written ∧ b.newRows.map Prod.snd = written.flatten := hrows
  simp only
  split
  · -- Every row is deleted.
    rename_i hempty
    obtain ⟨hnew, hold⟩ := hpairs.eq_nil hlen (List.isEmpty_iff.mp hempty)
    rw [hnew] at hrows hpairs
    exact .pure ⟨hrows, hpairs, nofun, rfl, rfl, Nat.zero_le _, nofun⟩
  · rename_i hnonempty
    -- There is a file, so the ids that are left suffice for the index.
    have hfiles : 0 < payload.diskFiles.length := by
      rw [List.length_pos_iff]
      intro hnil
      have hold : payload.liveRows = [] := by simp [DataCompactionPayload.liveRows, hnil]
      rw [hold] at hlen
      have hnone : ∀ location, location ∉ remap := by
        intro location hmem
        have hmem' := hpairs.mem_old hmem
        simp [hold] at hmem'
      refine hnonempty (List.isEmpty_iff.mpr (List.eq_nil_iff_forall_not_mem.mpr ?_))
      intro e he
      exact hnone e.1 (List.mem_map_of_mem he)
    refine (CompactionBuilder.flushLast_spec writer hok).bind fun b' hb' => ?_
    obtain ⟨hok', hsame, hclosed, hcount'⟩ := hb'
    rw [← hsame, hclosed] at hrows hpairs
    have hcount : b.compactedFileCount ≤ payload.diskFiles.length := hcount
    have hcount' : b'.compactedFileCount ≤ b.compactedFileCount + 1 := hcount'
    have hbound : b'.newDataFiles.length ≤ payload.getNewCompactedDataFileIdsNumber := by
      rw [← hok'.count]
      unfold DataCompactionPayload.getNewCompactedDataFileIdsNumber
      omega
    split
    · exact .pure ⟨hrows, hpairs, hok'.entries, rfl, hok'.ids, hbound, hok'.rows_pos⟩
    · have hnext : params.startId + b'.compactedFileCount / numFilesPerFlush < params.endId := by
        unfold DataCompactionPayload.getNewCompactedDataFileIdsNumber at hids
        unfold numFilesPerFlush
        omega
      refine (CompactionBuilder.compactFileIndices_spec merge payload.fileIndices remap hok'
        hnext).bind fun index _ => ?_
      exact .pure ⟨hrows, hpairs, hok'.entries, rfl, hok'.ids, hbound, hok'.rows_pos⟩

/-- The result if all batches have the schema of the writer. -/
theorem build_spec (payload : DataCompactionPayload Row Index) (params : CompactionFileParams)
    (writer : ArrowWriter Row) (merge : IndexMerge Index)
    (hids : params.startId + payload.getNewCompactedDataFileIdsNumber ≤ params.endId) :
    Returns (CompactionBuilder.build payload params writer merge) (Built payload params) :=
  (build_writes payload params writer merge hids fun _ _ => rfl).mono fun _ hr => hr.built fun _ _ => rfl

/-- With the file ids that its caller reserves, a compaction returns the live rows and a bijection of locations that
keeps them exactly if every batch is written as it is, as one of the schema of the writer is. -/
theorem build_compacts_iff (payload : DataCompactionPayload Row Index) (params : CompactionFileParams)
    (writer : SchemaWriter Row) (merge : IndexMerge Index)
    (hids : params.startId + payload.getNewCompactedDataFileIdsNumber ≤ params.endId) :
    Returns (CompactionBuilder.build payload params writer merge) (Compacted payload) ↔
      ∀ kept ∈ payload.keptBatches, writer.write kept = some kept := by
  constructor
  · rintro ⟨r, hr, hcompacted⟩
    have hsome : ∀ kept ∈ payload.keptBatches, (writer.write kept).isSome := by
      obtain ⟨acc, hacc, -⟩ := bind_eq_ok.mp hr
      intro kept hkept
      obtain ⟨file, hfile, hmem⟩ := List.mem_flatMap.mp hkept
      exact CompactionBuilder.compactDataFiles_written writer payload.diskFiles acc hacc file hfile kept hmem
    obtain ⟨r', hr', hwrote⟩ := build_writes payload params writer merge hids hsome
    rw [hr] at hr'
    cases hr'
    obtain ⟨written, hwritten, hrows⟩ := hwrote.rows
    rw [hcompacted.rows, ← payload.flatten_keptBatches] at hrows
    obtain rfl := List.eq_iff_flatten_eq.mpr ⟨hrows.symm, hwritten.map_length⟩
    exact List.forall₂_same.mp hwritten
  · intro hwrites
    have hsome : ∀ kept ∈ payload.keptBatches, (writer.write kept).isSome := fun kept hkept => by
      rw [hwrites kept hkept]
      rfl
    exact (build_writes payload params writer merge hids hsome).mono fun _ hr => (hr.built hwrites).compacted

/-- Rows of numbers, of which the first two columns are written. -/
def twoColumnWriter : SchemaWriter (List Nat) where
  memorySize batches := batches.flatten.length
  bytesWritten batches := batches.length + 1
  bytesWritten_pos _ := Nat.succ_pos _
  write rows := if rows.all (2 ≤ ·.length) then some (rows.map (·.take 2)) else none
  write_nil := rfl
  length_eq h := by
    split at h
    · cases h
      rw [List.length_map]
    · cases h

/-- Two files; the second of three rows of the first file is deleted. -/
def twoFiles : DataCompactionPayload (List Nat) Unit where
  diskFiles :=
    [{ fileId := 1
       batches := [[[10, 1], [11, 1]], [[12, 1]]]
       deletionVector := some
        { deletionVector := some [0b101#8]
          maxRows := 3
          fits := by
            rintro _ ⟨⟩
            refine ⟨rfl, ?_⟩
            intro i hi
            have hbyte : ∀ j < 8, 3 ≤ j → BitBuffer.getBit [0b101#8] j = false := by decide
            by_cases h : i < 8
            · exact hbyte i h hi
            · exact BitBuffer.getBit_of_length_le (by simp; omega) }
       fits := by rintro _ ⟨⟩; rfl },
     { fileId := 2, batches := [[[20, 1]]], deletionVector := none, fits := nofun }]
  fileIndices := [()]
  distinct := by decide

theorem build_compacts_twoFiles :
    Returns (CompactionBuilder.build twoFiles ⟨7, 11, 2, by decide⟩ twoColumnWriter (fun _ _ _ _ _ _ => ()))
      (Compacted twoFiles) :=
  (build_compacts_iff twoFiles ⟨7, 11, 2, by decide⟩ twoColumnWriter (fun _ _ _ _ _ _ => ()) (by decide)).mpr
    (by decide)

/-- A file from before the second of three columns was dropped. -/
def olderFile : DataCompactionPayload (List Nat) Unit where
  diskFiles := [{ fileId := 1, batches := [[[1, 5, 7]]], deletionVector := none, fits := nofun }]
  fileIndices := []
  distinct := by decide

/-- The value of the dropped column is written to the column that follows it. -/
theorem build_shifts_olderFile : ¬ Returns
    (CompactionBuilder.build olderFile ⟨7, 11, 2, by decide⟩ twoColumnWriter (fun _ _ _ _ _ _ => ()))
      (Compacted olderFile) := by
  rintro ⟨r, hr, hcompacted⟩
  have heval : (CompactionBuilder.build olderFile ⟨7, 11, 2, by decide⟩ twoColumnWriter
      (fun _ _ _ _ _ _ => ())).map (·.newRows.map Prod.snd) = .ok [[1, 5]] := rfl
  rw [hr] at heval
  have hrows := (Except.ok.inj heval).symm.trans hcompacted.rows
  exact absurd hrows (by decide)

end Moonlink
