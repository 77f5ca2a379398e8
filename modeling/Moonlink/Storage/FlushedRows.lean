-- SUMMARY: What a flush writes: the active rows in order, their places in the files, and when the files can be written.
import Moonlink.Storage.FileIds
import Moonlink.Storage.SliceCells

namespace Moonlink.Storage

open Lib

variable {Row Ident : Type}

/-! ## Active rows -/

namespace DiskSliceWriter

/-- The active rows with their offsets. -/
def activeRows (deletions : BatchDeletionVector) (rows : List Row) : List (Nat × Row) :=
  ((rows.zipIdx).filter fun row => !deletions.isDeleted row.2).map fun row => (row.2, row.1)

variable {rows : List Row}

theorem mem_activeRows {deletions : BatchDeletionVector} {i : Nat} {row : Row} :
    (i, row) ∈ activeRows deletions rows ↔ rows[i]? = some row ∧ deletions.isDeleted i = false := by
  unfold activeRows
  simp [List.mem_zipIdx_iff_getElem?]

theorem activeRows_offsets (deletions : BatchDeletionVector) (rows : List Row) :
    (activeRows deletions rows).map Prod.fst = deletions.collectActiveRows rows.length := by
  have hrange : List.range rows.length = rows.zipIdx.map Prod.snd := by
    rw [List.zipIdx_map_snd, List.range_eq_range']
  rw [BatchDeletionVector.collectActiveRows_eq, hrange, activeRows, List.map_map, List.filter_map]
  rfl

theorem activeRows_nodup (deletions : BatchDeletionVector) (rows : List Row) :
    ((activeRows deletions rows).map Prod.fst).Nodup := by
  rw [activeRows_offsets, BatchDeletionVector.collectActiveRows_eq]
  exact List.nodup_range.filter _

theorem filteredBatch_eq {entry : BatchEntry Row} (hdata : entry.batch.data = some rows) :
    filteredBatch entry = if (activeRows entry.batch.deletions rows).isEmpty then none
      else some (entry.id, activeRows entry.batch.deletions rows) := by
  unfold filteredBatch activeRows
  rw [hdata]

/-- The rows of the filtered batch are the active ones. -/
theorem getFilteredBatch_eq {entry : BatchEntry Row} (hdata : entry.batch.data = some rows)
    (hfits : rows.length ≤ entry.batch.deletions.maxRows) :
    entry.batch.getFilteredBatch = .ok ((filteredBatch entry).map fun batch => batch.2.map Prod.snd) := by
  have happly : entry.batch.deletions.applyToBatchWithSlice rows 0 =
      .ok ((activeRows entry.batch.deletions rows).map Prod.snd) := by
    unfold BatchDeletionVector.applyToBatchWithSlice activeRows BatchDeletionVector.isDeleted
    cases entry.batch.deletions.deletionVector with
    | none =>
      have hall : (rows.zipIdx.filter fun _ => !false) = rows.zipIdx := List.filter_eq_self.mpr fun _ _ => rfl
      dsimp only
      rw [hall, List.map_map]
      exact congrArg Except.ok (List.zipIdx_map_fst 0 rows).symm
    | some bits =>
      dsimp only
      rw [Nat.zero_add, StoragePanic.assert_pos (decide_eq_true hfits), List.map_map]
      simp only [Bool.not_not]
      rfl
  rw [filteredBatch_eq hdata]
  unfold InMemoryBatch.getFilteredBatch
  rw [hdata]
  dsimp only
  rw [happly, ok_bind, List.isEmpty_map]
  split <;> rfl

end DiskSliceWriter

/-! ## Places -/

/-- The rows of the batches, with their locations. -/
def locatedRows (batches : List (Nat × List (Nat × Row))) : List ((Nat × Nat) × Row) :=
  batches.flatMap fun batch => batch.2.map fun row => ((batch.1, row.1), row.2)

/-- The rows of the files, with their places. -/
def placedRows (files : List (List Row)) : List ((Nat × Nat) × Row) :=
  files.zipIdx.flatMap fun file => file.1.zipIdx.map fun row => ((file.2, row.2), row.1)

section Places

variable {files : List (List Row)} {file rows : List Row}

theorem locatedRows_concat (batches : List (Nat × List (Nat × Row))) (batch : Nat × List (Nat × Row)) :
    locatedRows (batches ++ [batch]) = locatedRows batches ++ batch.2.map fun row => ((batch.1, row.1), row.2) := by
  simp [locatedRows]

theorem placedRows_concat (files : List (List Row)) (file : List Row) :
    placedRows (files ++ [file]) =
      placedRows files ++ file.zipIdx.map fun row => ((files.length, row.2), row.1) := by
  simp [placedRows, List.zipIdx_append]

theorem placedRows_extend (files : List (List Row)) (file rows : List Row) :
    placedRows (files ++ [file ++ rows]) = placedRows (files ++ [file]) ++
      (rows.zipIdx file.length).map fun row => ((files.length, row.2), row.1) := by
  rw [placedRows_concat, placedRows_concat, List.zipIdx_append, List.map_append, List.append_assoc, Nat.zero_add]

theorem placedRows_rows (files : List (List Row)) : (placedRows files).map Prod.snd = files.flatten := by
  induction files using List.reverseRecOn with
  | nil => rfl
  | append_singleton files file ih =>
    rw [placedRows_concat, List.map_append, ih, List.map_map, List.flatten_append, List.flatten_singleton]
    exact congrArg (files.flatten ++ ·) (List.zipIdx_map_fst 0 file)

theorem mem_placedRows {place : Nat × Nat} {row : Row} :
    (place, row) ∈ placedRows files ↔ ∃ file, files[place.1]? = some file ∧ file[place.2]? = some row := by
  obtain ⟨f, r⟩ := place
  simp only [placedRows, List.mem_flatMap, List.mem_map, Prod.mk.injEq, Prod.exists, List.mem_zipIdx_iff_getElem?]
  constructor
  · rintro ⟨file, n, hfile, row', k, hrow, ⟨rfl, rfl⟩, rfl⟩
    exact ⟨file, hfile, hrow⟩
  · rintro ⟨file, hfile, hrow⟩
    exact ⟨file, f, hfile, row, r, hrow, ⟨rfl, rfl⟩, rfl⟩

theorem placedRows_nodup (files : List (List Row)) : ((placedRows files).map Prod.fst).Nodup := by
  induction files using List.reverseRecOn with
  | nil => exact List.nodup_nil
  | append_singleton files file ih =>
    rw [placedRows_concat, List.map_append, List.map_map]
    refine List.nodup_append.mpr ⟨ih, ?_, ?_⟩
    · have hsnd : (file.zipIdx.map Prod.snd).Nodup := by
        rw [List.zipIdx_map_snd]
        exact List.nodup_range'
      have hpair := hsnd.map fun i j h => (Prod.mk.inj h : files.length = files.length ∧ i = j).2
      rwa [List.map_map] at hpair
    · intro place hplace place' hplace'
      obtain ⟨⟨_, row⟩, hrow, rfl⟩ := List.mem_map.mp hplace
      obtain ⟨file', hfile, -⟩ := mem_placedRows.mp hrow
      obtain ⟨row', -, rfl⟩ := List.mem_map.mp hplace'
      have hlt := (List.getElem?_eq_some_iff.mp hfile).1
      exact fun heq => absurd (congrArg Prod.fst heq) (Nat.ne_of_lt hlt)

end Places

/-! ## Writing batches -/

namespace SliceOutput

/-- The files so far, with the open one. -/
def allFiles (out : SliceOutput Row) : List (DataFile Row) :=
  out.files ++ (out.writer.map fun file => ⟨file.1, file.2.flatten⟩).toList

/-- The map sends the rows of the batches to those of the files, in order. -/
structure Written (done : List (Nat × List (Nat × Row))) (out : SliceOutput Row) : Prop where
  rows : ((locatedRows done).map fun row => (out.mapping.lookup row.1, row.2)) =
    (placedRows (out.allFiles.map (·.rows))).map fun row => (some row.1, row.2)
  mapped : ∀ loc, (out.mapping.lookup loc).isSome → loc ∈ (locatedRows done).map Prod.fst
  outRowIdx : ∀ file ∈ out.writer, out.outRowIdx = file.2.flatten.length

variable {out : SliceOutput Row} {done : List (Nat × List (Nat × Row))}

theorem files_close (out : SliceOutput Row) : out.close.files = out.allFiles := by
  unfold close allFiles
  cases hwriter : out.writer with
  | none => simp
  | some file => simp

theorem writer_close (out : SliceOutput Row) : out.close.writer = none := by
  unfold close
  cases hwriter : out.writer with
  | none => exact hwriter
  | some file => rfl

theorem allFiles_close (out : SliceOutput Row) : out.close.allFiles = out.close.files := by
  rw [allFiles, writer_close, Option.map_none, Option.toList_none, List.append_nil]

theorem mapping_close (out : SliceOutput Row) : out.close.mapping = out.mapping := by
  unfold close
  split <;> rfl

theorem Written.lookup_of_mem (h : Written done out) {loc : Nat × Nat} {row : Row} (hrow : (loc, row) ∈ locatedRows done) :
    ∃ place, out.mapping.lookup loc = some place ∧ (place, row) ∈ placedRows (out.allFiles.map (·.rows)) := by
  have hmem := List.mem_map_of_mem (f := fun row => (out.mapping.lookup row.1, row.2)) hrow
  rw [h.rows] at hmem
  obtain ⟨⟨place, row'⟩, hplaced, heq⟩ := List.mem_map.mp hmem
  obtain ⟨hplace, rfl⟩ := Prod.mk.inj heq
  exact ⟨place, hplace.symm, hplaced⟩

theorem Written.mem_of_lookup (h : Written done out) {loc place : Nat × Nat} (hplace : out.mapping.lookup loc = some place) :
    ∃ row, (loc, row) ∈ locatedRows done ∧ (place, row) ∈ placedRows (out.allFiles.map (·.rows)) := by
  obtain ⟨⟨_, row⟩, hrow, rfl⟩ := List.mem_map.mp (h.mapped loc (hplace ▸ rfl))
  obtain ⟨place', hplace', hplaced⟩ := h.lookup_of_mem hrow
  cases hplace.symm.trans hplace'
  exact ⟨row, hrow, hplaced⟩

/-- No two rows have one place. -/
theorem Written.lookup_injective (h : Written done out) {loc loc' place : Nat × Nat}
    (hplace : out.mapping.lookup loc = some place) (hplace' : out.mapping.lookup loc' = some place) : loc = loc' := by
  have hplaces : ((locatedRows done).map fun row => out.mapping.lookup row.1) =
      ((placedRows (out.allFiles.map (·.rows))).map Prod.fst).map some := by
    have hfst := congrArg (List.map Prod.fst) h.rows
    rw [List.map_map, List.map_map] at hfst
    rw [List.map_map]
    exact hfst
  have hnodup : ((locatedRows done).map fun row => out.mapping.lookup row.1).Nodup := by
    rw [hplaces]
    exact (placedRows_nodup _).map (Option.some_injective _)
  obtain ⟨row, hrow, -⟩ := h.mem_of_lookup hplace
  obtain ⟨row', hrow', -⟩ := h.mem_of_lookup hplace'
  exact congrArg Prod.fst (List.inj_on_of_nodup_map hnodup hrow hrow' (hplace.trans hplace'.symm))

/-- Every place has a row. -/
theorem Written.lookup_surjective (h : Written done out) {place : Nat × Nat} {row : Row}
    (hplaced : (place, row) ∈ placedRows (out.allFiles.map (·.rows))) :
    ∃ loc, (loc, row) ∈ locatedRows done ∧ out.mapping.lookup loc = some place := by
  have hmem := List.mem_map_of_mem (f := fun row => (some row.1, row.2)) hplaced
  rw [← h.rows] at hmem
  obtain ⟨⟨loc, row'⟩, hrow, heq⟩ := List.mem_map.mp hmem
  obtain ⟨hplace, rfl⟩ := Prod.mk.inj heq
  exact ⟨loc, hrow, hplace⟩

theorem Written.close (h : Written done out) : Written done out.close := by
  refine ⟨?_, ?_, fun file hfile => ?_⟩
  · rw [mapping_close, allFiles_close, files_close]
    exact h.rows
  · rw [mapping_close]
    exact h.mapped
  · rw [writer_close] at hfile
    cases hfile

section InsertRows

variable {batchId fileIdx : Nat} {rows : List ((Nat × Row) × Nat)} {mapping : AssocMap (Nat × Nat) (Nat × Nat)}

theorem lookup_insertRows (hnodup : (rows.map fun row => row.1.1).Nodup) {row : (Nat × Row) × Nat} (hrow : row ∈ rows) :
    (rows.foldl (fun mapping row => mapping.insert (batchId, row.1.1) (fileIdx, row.2)) mapping).lookup
      (batchId, row.1.1) = some (fileIdx, row.2) := by
  induction rows using List.reverseRecOn with
  | nil => cases hrow
  | append_singleton rows last ih =>
    rw [List.map_append, List.map_singleton] at hnodup
    rw [List.foldl_append, List.foldl_cons, List.foldl_nil, AssocMap.lookup_insert_ite]
    obtain hold | hlast := List.mem_append.mp hrow
    · have hne : row.1.1 ≠ last.1.1 := by
        intro heq
        have hdisjoint := (List.nodup_append.mp hnodup).2.2
        exact hdisjoint row.1.1 (List.mem_map_of_mem hold) last.1.1 List.mem_cons_self heq
      rw [if_neg (by simpa using hne)]
      exact ih (List.nodup_append.mp hnodup).1 hold
    · cases List.mem_singleton.mp hlast
      exact if_pos rfl

theorem lookup_insertRows_of_ne {loc : Nat × Nat} (hne : ∀ row ∈ rows, loc ≠ (batchId, row.1.1)) :
    (rows.foldl (fun mapping row => mapping.insert (batchId, row.1.1) (fileIdx, row.2)) mapping).lookup loc =
      mapping.lookup loc := by
  induction rows generalizing mapping with
  | nil => rfl
  | cons row rest ih =>
    rw [List.foldl_cons, ih fun row hrow => hne row (List.mem_cons_of_mem _ hrow), AssocMap.lookup_insert_ite,
      if_neg (hne row List.mem_cons_self)]

end InsertRows

/-- The open file with the rows of a batch. -/
def wrote (out : SliceOutput Row) (file : (FileId × List (List Row)) × Nat) (batch : Nat × List (Nat × Row)) :
    SliceOutput Row where
  files := out.files
  writer := some (file.1.1, file.1.2 ++ [batch.2.map Prod.snd])
  outRowIdx := file.2 + batch.2.length
  mapping := (batch.2.zipIdx file.2).foldl
    (fun mapping row => mapping.insert (batch.1, row.1.1) (out.files.length, row.2)) out.mapping

theorem writeBatch_eq (out : SliceOutput Row) (writer : ArrowWriter Row) (parquetFileSize tableAutoIncrId : Nat)
    (batch : Nat × List (Nat × Row)) : out.writeBatch writer parquetFileSize tableAutoIncrId batch =
      (out.openFile tableAutoIncrId >>= fun file => pure
        (if parquetFileSize < writer.memorySize (file.1.2 ++ [batch.2.map Prod.snd]) then (out.wrote file batch).close
        else out.wrote file batch)) := rfl

/-- A new file has no rows yet. -/
theorem openFile_ensures (out : SliceOutput Row) (tableAutoIncrId : Nat)
    (hrows : ∀ file ∈ out.writer, out.outRowIdx = file.2.flatten.length) :
    Ensures (out.openFile tableAutoIncrId) fun res =>
      placedRows (out.allFiles.map (·.rows)) = placedRows (out.files.map (·.rows) ++ [res.1.2.flatten]) ∧
      res.2 = res.1.2.flatten.length := by
  unfold openFile allFiles
  cases hwriter : out.writer with
  | none =>
    refine .bind_any fun fileId => .pure ⟨?_, rfl⟩
    rw [placedRows_concat]
    simp
  | some file => exact .ok ⟨by simp, hrows file (by simp [hwriter])⟩

variable {batch : Nat × List (Nat × Row)}

theorem Written.wrote (h : Written done out) {file : (FileId × List (List Row)) × Nat}
    (hplaced : placedRows (out.allFiles.map (·.rows)) = placedRows (out.files.map (·.rows) ++ [file.1.2.flatten]))
    (hrowIdx : file.2 = file.1.2.flatten.length)
    (hfresh : batch.1 ∉ done.map Prod.fst) (hnodup : (batch.2.map Prod.fst).Nodup) :
    Written (done ++ [batch]) (out.wrote file batch) := by
  have hindexed : ((batch.2.zipIdx file.2).map fun row => row.1.1) = batch.2.map Prod.fst := by
    have hfst := congrArg (List.map Prod.fst) (List.zipIdx_map_fst file.2 batch.2)
    rwa [List.map_map] at hfst
  have hold (loc : Nat × Nat) (hloc : ∀ row ∈ batch.2.zipIdx file.2, loc ≠ (batch.1, row.1.1)) :
      (out.wrote file batch).mapping.lookup loc = out.mapping.lookup loc := lookup_insertRows_of_ne hloc
  refine ⟨?_, fun loc hloc => ?_, ?_⟩
  · have hfiles : (out.wrote file batch).allFiles.map (·.rows) =
        out.files.map (·.rows) ++ [file.1.2.flatten ++ batch.2.map Prod.snd] := by
      simp [allFiles, SliceOutput.wrote]
    rw [hfiles, placedRows_extend, ← hplaced, locatedRows_concat, List.map_append, List.map_append, ← h.rows]
    refine congrArg₂ (· ++ ·) (List.map_congr_left fun row hrow => ?_) ?_
    · -- The rows of other batches keep their places.
      obtain ⟨batch', hbatch', hmem⟩ := List.mem_flatMap.mp hrow
      obtain ⟨row', -, rfl⟩ := List.mem_map.mp hmem
      rw [hold]
      intro row _ heq
      have hid : batch'.1 = batch.1 := (Prod.ext_iff.mp heq).1
      exact hfresh (hid ▸ List.mem_map_of_mem hbatch')
    · rw [← hrowIdx, List.zipIdx_map, List.map_map, List.map_map, List.map_map, List.length_map]
      conv_lhs => rw [← List.zipIdx_map_fst file.2 batch.2, List.map_map]
      refine List.map_congr_left fun row hrow => ?_
      have hlookup : (out.wrote file batch).mapping.lookup (batch.1, row.1.1) = some (out.files.length, row.2) :=
        lookup_insertRows (hindexed ▸ hnodup) hrow
      exact congrArg₂ Prod.mk hlookup rfl
  · rw [locatedRows_concat, List.map_append, List.mem_append]
    by_cases hnew : ∃ row ∈ batch.2.zipIdx file.2, loc = (batch.1, row.1.1)
    · obtain ⟨row, hrow, rfl⟩ := hnew
      right
      rw [List.map_map]
      exact List.mem_map.mpr ⟨row.1, List.fst_mem_of_mem_zipIdx hrow, rfl⟩
    · rw [hold loc (by simpa using hnew)] at hloc
      exact .inl (h.mapped loc hloc)
  · rintro _ ⟨⟩
    simp [SliceOutput.wrote, hrowIdx]

theorem Written.writeBatch (h : Written done out) (writer : ArrowWriter Row) (parquetFileSize tableAutoIncrId : Nat)
    (hfresh : batch.1 ∉ done.map Prod.fst) (hnodup : (batch.2.map Prod.fst).Nodup) :
    Ensures (out.writeBatch writer parquetFileSize tableAutoIncrId batch) (Written (done ++ [batch])) := by
  rw [writeBatch_eq]
  refine .bind (openFile_ensures out tableAutoIncrId h.outRowIdx) ?_
  rintro file ⟨hplaced, hrowIdx⟩
  have hwrote := h.wrote hplaced hrowIdx hfresh hnodup
  refine .pure ?_
  split
  · exact hwrote.close
  · exact hwrote

/-! ## Row counts -/

/-- The `row_num` of the files: the row index at which each of them is closed. -/
def recordRowNums (writer : ArrowWriter Row) (parquetFileSize tableAutoIncrId : Nat) (out : SliceOutput Row) :
    List (Nat × List (Nat × Row)) → Except StoragePanic (List Nat)
  | [] => .ok (if out.writer.isSome then [out.outRowIdx] else [])
  | batch :: rest => do
    let next ← out.writeBatch writer parquetFileSize tableAutoIncrId batch
    let rowNums ← recordRowNums writer parquetFileSize tableAutoIncrId next rest
    return if next.writer.isNone then next.outRowIdx :: rowNums else rowNums

/-- The count of an open file is that of its rows, and a batch closes at most the open file. -/
theorem writeBatch_files (out : SliceOutput Row) (writer : ArrowWriter Row) (parquetFileSize tableAutoIncrId : Nat)
    (batch : Nat × List (Nat × Row)) (hrows : ∀ file ∈ out.writer, out.outRowIdx = file.2.flatten.length) :
    Ensures (out.writeBatch writer parquetFileSize tableAutoIncrId batch) fun next =>
      (∀ file ∈ next.writer, next.outRowIdx = file.2.flatten.length) ∧
      next.files.map (·.rows.length) =
        out.files.map (·.rows.length) ++ if next.writer.isNone then [next.outRowIdx] else [] := by
  rw [writeBatch_eq]
  refine .bind (openFile_ensures out tableAutoIncrId hrows) ?_
  rintro file ⟨-, hrowIdx⟩
  refine .pure ?_
  split
  · refine ⟨fun file hfile => ?_, ?_⟩
    · rw [writer_close] at hfile
      cases hfile
    · simp [close, wrote, hrowIdx]
  · refine ⟨?_, by simp [wrote]⟩
    rintro _ ⟨⟩
    simp [wrote, hrowIdx]

theorem recordRowNums_eq {writer : ArrowWriter Row} {parquetFileSize tableAutoIncrId : Nat}
    {batches : List (Nat × List (Nat × Row))} {out' : SliceOutput Row}
    (hrows : ∀ file ∈ out.writer, out.outRowIdx = file.2.flatten.length)
    (hok : batches.foldlM (writeBatch writer parquetFileSize tableAutoIncrId) out = .ok out') :
    ∃ rowNums, recordRowNums writer parquetFileSize tableAutoIncrId out batches = .ok rowNums ∧
      out'.allFiles.map (·.rows.length) = out.files.map (·.rows.length) ++ rowNums := by
  induction batches generalizing out with
  | nil =>
    cases hok
    refine ⟨_, rfl, ?_⟩
    unfold allFiles
    cases hwriter : out'.writer with
    | none => simp
    | some file => simp [hrows file hwriter]
  | cons batch rest ih =>
    obtain ⟨next, hnext, hrest⟩ := bind_eq_ok.mp (List.foldlM_cons.symm.trans hok)
    obtain ⟨hopen, hfiles⟩ := writeBatch_files out writer parquetFileSize tableAutoIncrId batch hrows next hnext
    obtain ⟨rowNums, hrowNums, heq⟩ := ih hopen hrest
    refine ⟨if next.writer.isNone then next.outRowIdx :: rowNums else rowNums, ?_, ?_⟩
    · rw [recordRowNums, hnext, ok_bind, hrowNums]
      rfl
    · rw [heq, hfiles, List.append_assoc]
      split <;> rfl

/-! ## The number of files -/

/-- The files that batches are cut into, after those that are in the open file. -/
def countFiles (writer : ArrowWriter Row) (parquetFileSize : Nat) : List (List Row) → List (List Row) → Nat
  | opened, [] => if opened.isEmpty then 0 else 1
  | opened, batch :: rest =>
    if parquetFileSize < writer.memorySize (opened ++ [batch]) then 1 + countFiles writer parquetFileSize [] rest
    else countFiles writer parquetFileSize (opened ++ [batch]) rest

variable {writer : ArrowWriter Row} {parquetFileSize tableAutoIncrId : Nat}

theorem countFiles_pos (writer : ArrowWriter Row) (parquetFileSize : Nat) {opened batches : List (List Row)} (h : opened ≠ [] ∨ batches ≠ []) :
    0 < countFiles writer parquetFileSize opened batches := by
  induction batches generalizing opened with
  | nil =>
    have hopened : opened ≠ [] := h.resolve_right (· rfl)
    simp [countFiles, hopened]
  | cons batch rest ih =>
    unfold countFiles
    split
    · omega
    · exact ih (.inl (by simp))

/-- The batches in the open file. -/
def opened (out : SliceOutput Row) : List (List Row) := (out.writer.map Prod.snd).getD []

/-- An open file has a batch, and there are ids for all files. -/
structure Numberable (out : SliceOutput Row) : Prop where
  nonempty : ∀ file ∈ out.writer, file.2 ≠ []
  count : out.allFiles.length ≤ numFilesPerFlush

theorem openFile_opened (out : SliceOutput Row) (tableAutoIncrId : Nat) :
    Ensures (out.openFile tableAutoIncrId) fun file => file.1.2 = out.opened := by
  unfold openFile opened
  cases out.writer with
  | none => exact .bind_any fun fileId => .pure rfl
  | some file => exact .ok rfl

theorem openFile_isOk_iff (h : out.Numberable) (tableAutoIncrId : Nat) :
    (∃ file, out.openFile tableAutoIncrId = .ok file) ↔ out.files.length < numFilesPerFlush := by
  unfold openFile
  cases hwriter : out.writer with
  | some file =>
    have hcount : out.files.length + 1 ≤ numFilesPerFlush := by simpa [allFiles, hwriter] using h.count
    exact iff_of_true ⟨_, rfl⟩ hcount
  | none =>
    constructor
    · rintro ⟨file, hok⟩
      obtain ⟨fileId, hid, -⟩ := bind_eq_ok.mp hok
      exact (getUniqueFileIdForFlush_ensures _ _ fileId hid).1
    · intro hlt
      unfold getUniqueFileIdForFlush
      rw [StoragePanic.assert_pos (decide_eq_true hlt)]
      exact ⟨_, rfl⟩

theorem Numberable.wrote {file : (FileId × List (List Row)) × Nat}
    (hlt : out.files.length < numFilesPerFlush) : (out.wrote file batch).Numberable := by
  have hcount : out.files.length + 1 ≤ numFilesPerFlush := hlt
  refine ⟨?_, by simpa [allFiles, SliceOutput.wrote] using hcount⟩
  rintro _ ⟨⟩
  simp

theorem Numberable.close (h : out.Numberable) : out.close.Numberable := by
  refine ⟨fun file hfile => ?_, ?_⟩
  · rw [writer_close] at hfile
    cases hfile
  · rw [allFiles, files_close, writer_close]
    simpa using h.count

/-- Writing a batch leaves as many files to come as there were. -/
theorem writeBatch_count (h : out.Numberable) (batch : Nat × List (Nat × Row)) (rest : List (List Row)) :
    Ensures (out.writeBatch writer parquetFileSize tableAutoIncrId batch) fun next => next.Numberable ∧
      next.files.length + countFiles writer parquetFileSize next.opened rest =
        out.files.length + countFiles writer parquetFileSize out.opened (batch.2.map Prod.snd :: rest) := by
  intro next hok
  rw [writeBatch_eq] at hok
  obtain ⟨file, hfile, hpure⟩ := bind_eq_ok.mp hok
  have hlt := (openFile_isOk_iff h tableAutoIncrId).mp ⟨file, hfile⟩
  have hsame := openFile_opened out tableAutoIncrId file hfile
  have hwrote : (out.wrote file batch).Numberable := .wrote hlt
  rw [hsame] at hpure
  cases hpure
  rw [countFiles]
  split
  · have hfiles : (out.wrote file batch).close.files.length = out.files.length + 1 := by
      simp [files_close, allFiles, SliceOutput.wrote]
    have hnone : (out.wrote file batch).close.opened = [] := by simp [opened, writer_close]
    exact ⟨hwrote.close, by rw [hfiles, hnone, Nat.add_assoc]⟩
  · have hopened : (out.wrote file batch).opened = out.opened ++ [batch.2.map Prod.snd] := by
      rw [← hsame]
      rfl
    exact ⟨hwrote, by rw [hopened]; rfl⟩

theorem writeBatch_isOk_iff (h : out.Numberable) (batch : Nat × List (Nat × Row)) :
    (∃ next, out.writeBatch writer parquetFileSize tableAutoIncrId batch = .ok next) ↔
      out.files.length < numFilesPerFlush := by
  rw [← openFile_isOk_iff h tableAutoIncrId, writeBatch_eq]
  constructor
  · rintro ⟨next, hok⟩
    obtain ⟨file, hfile, -⟩ := bind_eq_ok.mp hok
    exact ⟨file, hfile⟩
  · rintro ⟨file, hfile⟩
    rw [hfile]
    exact ⟨_, rfl⟩

theorem length_allFiles (h : out.Numberable) :
    out.allFiles.length = out.files.length + countFiles writer parquetFileSize out.opened [] := by
  unfold opened countFiles allFiles
  cases hwriter : out.writer with
  | none => simp
  | some file => simp [h.nonempty file hwriter]

variable (writer parquetFileSize tableAutoIncrId) in
theorem foldlM_writeBatch_count (batches : List (Nat × List (Nat × Row))) (h : out.Numberable) :
    Ensures (batches.foldlM (writeBatch writer parquetFileSize tableAutoIncrId) out) fun out' =>
      out'.allFiles.length = out.files.length +
        countFiles writer parquetFileSize out.opened (batches.map fun batch => batch.2.map Prod.snd) := by
  induction batches generalizing out with
  | nil => exact .ok (length_allFiles h)
  | cons batch rest ih =>
    rw [List.foldlM_cons]
    refine (writeBatch_count h batch (rest.map fun batch => batch.2.map Prod.snd)).bind fun next hnext => ?_
    rw [List.map_cons, ← hnext.2]
    exact ih hnext.1

variable (writer parquetFileSize tableAutoIncrId) in
/-- Batches can be written as long as there are ids for the files that they need. -/
theorem foldlM_writeBatch_isOk_iff (batches : List (Nat × List (Nat × Row))) (h : out.Numberable) :
    (∃ out', batches.foldlM (writeBatch writer parquetFileSize tableAutoIncrId) out = .ok out') ↔
      out.files.length + countFiles writer parquetFileSize out.opened (batches.map fun batch => batch.2.map Prod.snd) ≤
        numFilesPerFlush := by
  induction batches generalizing out with
  | nil =>
    rw [List.map_nil, ← length_allFiles h]
    exact iff_of_true ⟨out, rfl⟩ h.count
  | cons batch rest ih =>
    rw [List.foldlM_cons, List.map_cons]
    by_cases hlt : out.files.length < numFilesPerFlush
    · obtain ⟨next, hok⟩ := (writeBatch_isOk_iff h batch).mpr hlt
      obtain ⟨hnext, hcount⟩ := writeBatch_count h batch (rest.map fun batch => batch.2.map Prod.snd) next hok
      rw [hok, ok_bind, ih hnext, hcount]
    · refine iff_of_false ?_ ?_
      · rintro ⟨out', hok⟩
        obtain ⟨next, hnext, -⟩ := bind_eq_ok.mp hok
        exact hlt ((writeBatch_isOk_iff h batch).mp ⟨next, hnext⟩)
      · have hpos : 0 < countFiles writer parquetFileSize out.opened
            (batch.2.map Prod.snd :: rest.map fun batch => batch.2.map Prod.snd) :=
          countFiles_pos writer parquetFileSize (.inr nofun)
        omega

end SliceOutput

end Moonlink.Storage
