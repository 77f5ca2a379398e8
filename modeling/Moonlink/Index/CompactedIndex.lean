-- SUMMARY: The index of compacted data files: when its lookups are the old ones, mapped to the new locations.
import Moonlink.Index.MergeSpec
import Moonlink.Storage.CompactionSpec

namespace Moonlink.Index

open Lib Lib.Bits

variable {Row : Type}

/-- The index builder that a compaction is given. -/
def hashIndexMerge (heap : MinHeap) : IndexMerge (Except IndexPanic GlobalIndex) :=
  fun numRows fileId indices newDataFiles getRemappedRecordLocation getSegIdx => do
    let indices ← indices.mapM id
    GlobalIndexBuilder.buildFromMergeForCompaction heap (numRows % 2 ^ 32) fileId indices
      newDataFiles getRemappedRecordLocation getSegIdx

def getRemapped (remap : DataFileRemap) (location : RecordLocation) : Option RecordLocation :=
  (remap.lookup location).map (·.recordLocation)

def getSegIdx (params : CompactionFileParams) : RecordLocation → Nat
  | .diskFile fileId _ => CompactionBuilder.getFileIndexAfterCompaction params.startId fileId
  | .memoryBatch _ _ => 0

/-- What the index builder of a compaction is given. -/
theorem build_newFileIndices {Index : Type} (payload : DataCompactionPayload Row Index)
    (params : CompactionFileParams) (writer : ArrowWriter Row) (merge : IndexMerge Index)
    (hindices : payload.fileIndices ≠ []) :
    Ensures (CompactionBuilder.build payload params writer merge) fun r =>
      r.remappedDataFiles.entries ≠ [] → ∃ fileId, r.newFileIndices =
        [merge r.remappedDataFiles.entries.length fileId payload.fileIndices
          (r.newDataFiles.map (·.1.fileId)) (getRemapped r.remappedDataFiles)
          (getSegIdx params)] := by
  unfold CompactionBuilder.build
  refine Ensures.bind_any fun ⟨b, remap⟩ => ?_
  by_cases hempty : remap.entries.isEmpty
  · simp only [if_pos hempty]
    exact .pure fun hne => absurd (List.isEmpty_iff.mp hempty) hne
  · simp only [if_neg hempty]
    refine Ensures.bind_any fun b => ?_
    rw [if_neg (by simpa using hindices)]
    unfold CompactionBuilder.compactFileIndices CompactionBuilder.getNewCompactedDataFiles
    simp only [bind_assoc]
    refine Ensures.bind_any fun fileId => Ensures.bind_any fun _ => ?_
    simp only [pure_bind]
    refine .pure fun _ => ⟨fileId, ?_⟩
    congr 2

/-! ## The entries that are written -/

/-- The entry of a row at its new location, unless the row is gone. -/
def remappedEntry (params : CompactionFileParams) (remap : DataFileRemap) (files : List FileId)
    (e : Entry) : Option Entry := do
  let fileId ← files[e.2.1]?
  let location ← getRemapped remap (.diskFile fileId e.2.2)
  match location with
  | .diskFile _ rowIdx => some (e.1, getSegIdx params location, rowIdx)
  | .memoryBatch _ _ => none

/-- The new locations are in the new data files, and every new file has one. -/
structure Remaps (params : CompactionFileParams) (remap : DataFileRemap) (numFiles : Nat) :
    Prop where
  bounds : ∀ location new, getRemapped remap location = some new →
    ∃ n < numFiles, ∃ rowIdx < remap.entries.length, new = .diskFile (fileIdAt params n) rowIdx
  first : ∀ n < numFiles, ∃ location, getRemapped remap location = some (.diskFile (fileIdAt params n) 0)

theorem getSegIdx_fileIdAt (params : CompactionFileParams) (n rowIdx : Nat) :
    getSegIdx params (.diskFile (fileIdAt params n) rowIdx) = n % numFilesPerFlush := by
  show (fileIdAt params n - numFilesPerFlush * params.startId) % numFilesPerFlush = _
  unfold fileIdAt localFileIdBase numFilesPerFlush
  omega

variable {params : CompactionFileParams} {remap : DataFileRemap} {numFiles : Nat}

variable {files : List FileId} {e : Entry}

theorem Remaps.remappedEntry_eq (h : Remaps params remap numFiles)
    {fileId : FileId} (hfile : files[e.2.1]? = some fileId) :
    (getRemapped remap (.diskFile fileId e.2.2) = none ∧ remappedEntry params remap files e = none) ∨
      ∃ n < numFiles, ∃ rowIdx < remap.entries.length,
        getRemapped remap (.diskFile fileId e.2.2) = some (.diskFile (fileIdAt params n) rowIdx) ∧
        remappedEntry params remap files e = some (e.1, n % numFilesPerFlush, rowIdx) := by
  unfold remappedEntry
  rw [hfile]
  cases hnew : getRemapped remap (.diskFile fileId e.2.2) with
  | none =>
    refine .inl ⟨rfl, ?_⟩
    rw [Option.bind_eq_bind, Option.bind_some, hnew]
    rfl
  | some new =>
    obtain ⟨n, hn, rowIdx, hrow, rfl⟩ := h.bounds _ _ hnew
    refine .inr ⟨n, hn, rowIdx, hrow, rfl, ?_⟩
    rw [Option.bind_eq_bind, Option.bind_some, hnew, ← getSegIdx_fileIdAt params n rowIdx]
    rfl

variable {es : List Entry}

/-- The loop writes exactly these entries. -/
theorem Remaps.foldlM_appendRemapped (h : Remaps params remap numFiles) {metadata : GlobalIndex}
    (hsegs : ∀ e ∈ es, e.2.1 < metadata.files.length) (b : IndexBlockBuilder) :
    es.foldlM (GlobalIndexBuilder.appendRemapped metadata (getRemapped remap) (getSegIdx params)) b =
      (es.filterMap (remappedEntry params remap metadata.files)).foldlM
        (IndexBlockBuilder.appendEntry metadata) b := by
  induction es generalizing b with
  | nil => rfl
  | cons e es ih =>
    have ih := ih fun e' he' => hsegs e' (List.mem_cons_of_mem _ he')
    have hfile := List.getElem?_eq_getElem (hsegs e List.mem_cons_self)
    rw [List.foldlM_cons]
    obtain ⟨hnew, hentry⟩ | ⟨n, _, rowIdx, _, hnew, hentry⟩ := h.remappedEntry_eq hfile
    · rw [List.filterMap_cons_none hentry, ← ih b]
      simp only [GlobalIndexBuilder.appendRemapped, hfile, hnew, ok_bind]
    · rw [List.filterMap_cons_some hentry, List.foldlM_cons]
      simp only [GlobalIndexBuilder.appendRemapped, hfile, hnew, getSegIdx_fileIdAt]
      exact congrArg (_ >>= ·) (funext fun b' => ih b')

/-! ## The rows that are indexed -/

/-- The row of an entry. -/
def rowLocation (files : List FileId) (e : Entry) : RecordLocation :=
  .diskFile (files.getD e.2.1 0) e.2.2

theorem rowLocation_eq {fileId : FileId}
    (h : files[e.2.1]? = some fileId) : rowLocation files e = .diskFile fileId e.2.2 := by
  rw [rowLocation, List.getD_eq_getElem?_getD, h]
  rfl

/-- The rows of all indices. -/
def indexedRows (indices : List GlobalIndex) (entriess : List (List Entry)) :
    List RecordLocation :=
  (List.zipWith (fun index entries => entries.map (rowLocation index.files)) indices
    entriess).flatten

theorem indexedRows_cons (index : GlobalIndex) (entries : List Entry) (indices : List GlobalIndex)
    (entriess : List (List Entry)) :
    indexedRows (index :: indices) (entries :: entriess) =
      entries.map (rowLocation index.files) ++ indexedRows indices entriess := List.flatten_cons

theorem rowLocation_shiftSeg (before after : List FileId) (h : e.2.1 < files.length) :
    rowLocation (before ++ (files ++ after)) (shiftSeg before.length e) = rowLocation files e := by
  unfold rowLocation shiftSeg
  simp only [List.getD_eq_getElem?_getD]
  rw [List.getElem?_append_right (Nat.le_add_right ..), Nat.add_sub_cancel_left,
    List.getElem?_append_left h]

variable {indices : List GlobalIndex} {entriess : List (List Entry)}

theorem map_rowLocation_shiftedEntries (h : List.Forall₂ GlobalIndex.Holds indices entriess)
    (before : List FileId) :
    (shiftedEntries before.length indices entriess).flatten.map
        (rowLocation (before ++ mergedFiles indices)) = indexedRows indices entriess := by
  induction h generalizing before with
  | nil => rfl
  | @cons index entries indices entriess hindex _ ih =>
    have ih := ih (before ++ index.files)
    rw [List.length_append, List.append_assoc] at ih
    rw [shiftedEntries, List.flatten_cons, List.map_append, mergedFiles_cons, ih, List.map_map,
      indexedRows_cons]
    congr 1
    exact List.map_congr_left fun e he => rowLocation_shiftSeg before _ (hindex.segs e he)

theorem map_rowLocation_perm (h : List.Forall₂ GlobalIndex.Holds indices entriess)
    {entries : List Entry} (hperm : entries.Perm (mergedEntries indices entriess)) :
    (entries.map (rowLocation (mergedFiles indices))).Perm (indexedRows indices entriess) := by
  have heq := map_rowLocation_shiftedEntries h []
  rw [List.nil_append] at heq
  rw [← heq]
  exact hperm.map _

theorem exists_getElem?_eq_some {n : Nat} (h : n < files.length) : ∃ fileId, files[n]? = some fileId :=
  ⟨_, List.getElem?_eq_getElem h⟩

theorem getRemapped_isSome {location : RecordLocation} :
    (getRemapped remap location).isSome ↔ location ∈ remap := by
  rw [getRemapped, Option.isSome_map, AList.lookup_isSome]

/-- As many entries are written as there are rows in the map. -/
theorem Remaps.length_filterMap (h : Remaps params remap numFiles)
    (hsegs : ∀ e ∈ es, e.2.1 < files.length) (hnodup : (es.map (rowLocation files)).Nodup)
    (hcovers : ∀ location ∈ remap, location ∈ es.map (rowLocation files)) :
    (es.filterMap (remappedEntry params remap files)).length = remap.entries.length := by
  have hsome : ∀ e ∈ es, (remappedEntry params remap files e).isSome =
      decide (rowLocation files e ∈ remap) := by
    intro e he
    obtain ⟨fileId, hfile⟩ := exists_getElem?_eq_some (hsegs e he)
    rw [rowLocation_eq hfile, Bool.eq_iff_iff, decide_eq_true_eq, ← getRemapped_isSome]
    obtain ⟨hnew, hentry⟩ | ⟨n, _, rowIdx, _, hnew, hentry⟩ := h.remappedEntry_eq hfile
    · rw [hnew, hentry]
      exact ⟨nofun, nofun⟩
    · rw [hnew, hentry]
      exact ⟨fun _ => rfl, fun _ => rfl⟩
  have hkeys : ((es.map (rowLocation files)).filter (· ∈ remap)).Perm remap.keys := by
    refine (List.perm_ext_iff_of_nodup (hnodup.filter _) remap.nodupKeys).mpr fun location => ?_
    rw [List.mem_filter, decide_eq_true_eq]
    exact ⟨fun hmem => hmem.2, fun hmem => ⟨hcovers location hmem, hmem⟩⟩
  calc (es.filterMap (remappedEntry params remap files)).length
      = (es.filter fun e => decide (rowLocation files e ∈ remap)).length := by
        rw [List.length_filterMap_eq_countP, List.countP_eq_length_filter, List.filter_congr hsome]
    _ = ((es.map (rowLocation files)).filter (· ∈ remap)).length := by
        rw [List.filter_map, List.length_map]
        rfl
    _ = remap.keys.length := hkeys.length_eq
    _ = remap.entries.length := List.length_map _

/-! ## The answers -/

/-- The answer for a row at its new location, unless the row is gone. -/
def remappedAnswer (remap : DataFileRemap) (answer : Key × RecordLocation) :
    Option (Key × RecordLocation) :=
  (getRemapped remap answer.2).map fun location => (answer.1, location)

/-- The first hundred new files are found by their number. -/
theorem Remaps.answer_remappedEntry (h : Remaps params remap numFiles)
    (hfiles : numFiles ≤ numFilesPerFlush)
    (hseg : e.2.1 < files.length) (lookups : List (Key × Nat)) :
    (remappedEntry params remap files e).toList.flatMap
        (GlobalIndex.answer ((List.range numFiles).map (fileIdAt params)) lookups) =
      (GlobalIndex.answer files lookups e).filterMap (remappedAnswer remap) := by
  obtain ⟨fileId, hfile⟩ := exists_getElem?_eq_some hseg
  have hold : GlobalIndex.answer files lookups e =
      (lookups.filter (·.2 = e.1)).map fun lookup => (lookup.1, .diskFile fileId e.2.2) := by
    unfold GlobalIndex.answer
    rw [hfile]
  rw [hold, List.filterMap_map]
  obtain ⟨hnew, hentry⟩ | ⟨n, hn, rowIdx, _, hnew, hentry⟩ := h.remappedEntry_eq hfile
  · have hnone : remappedAnswer remap ∘ (fun lookup : Key × Nat =>
        (lookup.1, RecordLocation.diskFile fileId e.2.2)) = fun _ => none := by
      funext lookup
      rw [Function.comp_apply, remappedAnswer, hnew]
      rfl
    rw [hentry, hnone]
    simp
  · have hsome : remappedAnswer remap ∘ (fun lookup : Key × Nat =>
        (lookup.1, RecordLocation.diskFile fileId e.2.2)) =
          fun lookup => some (lookup.1, RecordLocation.diskFile (fileIdAt params n) rowIdx) := by
      funext lookup
      rw [Function.comp_apply, remappedAnswer, hnew]
      rfl
    have hget : ((List.range numFiles).map (fileIdAt params))[n]? = some (fileIdAt params n) := by
      rw [List.getElem?_map, List.getElem?_range hn]
      rfl
    rw [hentry, hsome, List.filterMap_eq_map', Option.toList_some, List.flatMap_singleton,
      Nat.mod_eq_of_lt (Nat.lt_of_lt_of_le hn hfiles)]
    unfold GlobalIndex.answer
    simp only [hget]

theorem Remaps.flatMap_answer (h : Remaps params remap numFiles)
    (hfiles : numFiles ≤ numFilesPerFlush)
    (hsegs : ∀ e ∈ es, e.2.1 < files.length) (lookups : List (Key × Nat)) :
    (es.filterMap (remappedEntry params remap files)).flatMap
        (GlobalIndex.answer ((List.range numFiles).map (fileIdAt params)) lookups) =
      (es.flatMap (GlobalIndex.answer files lookups)).filterMap (remappedAnswer remap) := by
  induction es with
  | nil => rfl
  | cons e es ih =>
    rw [List.flatMap_cons, List.filterMap_append,
      ← ih fun e' he' => hsegs e' (List.mem_cons_of_mem _ he'),
      ← h.answer_remappedEntry hfiles (hsegs e List.mem_cons_self), List.filterMap_cons]
    cases remappedEntry params remap files e with
    | none => rfl
    | some e' => simp

/-- A file after the first hundred is never an answer. -/
theorem Remaps.answer_not_later (h : Remaps params remap numFiles)
    (hsegs : ∀ e ∈ es, e.2.1 < files.length) (lookups : List (Key × Nat))
    (key : Key) (rowIdx : Nat) :
    (key, .diskFile (fileIdAt params numFilesPerFlush) rowIdx) ∉
      (es.filterMap (remappedEntry params remap files)).flatMap
        (GlobalIndex.answer ((List.range numFiles).map (fileIdAt params)) lookups) := by
  intro hmem
  obtain ⟨e', he', hanswer⟩ := List.mem_flatMap.mp hmem
  obtain ⟨e, he, hentry⟩ := List.mem_filterMap.mp he'
  obtain ⟨fileId, hfile⟩ := exists_getElem?_eq_some (hsegs e he)
  obtain ⟨-, hentry'⟩ | ⟨n, hn, rowIdx', _, -, hentry'⟩ := h.remappedEntry_eq hfile
  · rw [hentry'] at hentry
    cases hentry
  · rw [hentry'] at hentry
    cases hentry
    have hlt : n % numFilesPerFlush < numFiles := Nat.lt_of_le_of_lt (Nat.mod_le ..) hn
    have hget : ((List.range numFiles).map (fileIdAt params))[n % numFilesPerFlush]? =
        some (fileIdAt params (n % numFilesPerFlush)) := by
      rw [List.getElem?_map, List.getElem?_range hlt]
      rfl
    unfold GlobalIndex.answer at hanswer
    simp only [hget] at hanswer
    obtain ⟨lookup, -, heq⟩ := List.mem_map.mp hanswer
    have hid : fileIdAt params (n % numFilesPerFlush) = fileIdAt params numFilesPerFlush :=
      (RecordLocation.diskFile.inj (Prod.ext_iff.mp heq).2).1
    have hmod : n % numFilesPerFlush < numFilesPerFlush := Nat.mod_lt _ (by decide)
    exact absurd hid (Nat.ne_of_lt (fileIdAt_lt params hmod))

/-! ## The map of a compaction -/

section Compaction

variable {Index : Type} {payload : DataCompactionPayload Row Index}
  {r : DataCompactionResult Row Index}

theorem getRemapped_of_mem (hbuilt : Built payload params r) {location : RecordLocation}
    (hmem : location ∈ r.newRows.map Prod.fst) :
    ∃ old, getRemapped r.remappedDataFiles old = some location := by
  obtain ⟨old, hold, hremap⟩ := hbuilt.compacted.bijOn.surjOn hmem
  have hdomain := (hbuilt.compacted.domain old).mpr hold
  refine ⟨old, ?_⟩
  unfold DataCompactionResult.remap at hremap
  rw [← AList.lookup_isSome] at hdomain
  obtain ⟨new, hnew⟩ := Option.isSome_iff_exists.mp hdomain
  rw [hnew] at hremap
  rw [getRemapped, hnew]
  exact congrArg some hremap

theorem newRows_length_le (hbuilt : Built payload params r) :
    r.newRows.length ≤ r.remappedDataFiles.entries.length := by
  have hsubset : r.newRows.map Prod.fst ⊆
      r.remappedDataFiles.entries.map fun e => e.2.recordLocation := by
    intro location hmem
    obtain ⟨old, hold⟩ := getRemapped_of_mem hbuilt hmem
    obtain ⟨new, hnew, heq⟩ := Option.map_eq_some_iff.mp hold
    exact List.mem_map.mpr ⟨_, AssocMap.lookup_eq_some_iff.mp hnew, heq⟩
  have hle := (hbuilt.compacted.distinct.subperm hsubset).length_le
  rwa [List.length_map, List.length_map] at hle

/-- The new location of a row is one of a new file. -/
theorem mem_newRows_of_getRemapped (hbuilt : Built payload params r) {location new : RecordLocation}
    (hnew : getRemapped r.remappedDataFiles location = some new) :
    new ∈ r.newRows.map Prod.fst := by
  obtain ⟨value, hvalue, rfl⟩ := Option.map_eq_some_iff.mp hnew
  have hmem : location ∈ r.remappedDataFiles := by
    rw [← AList.lookup_isSome, hvalue]
    rfl
  have hmaps := hbuilt.compacted.bijOn.mapsTo ((hbuilt.compacted.domain location).mp hmem)
  unfold DataCompactionResult.remap at hmaps
  rw [hvalue] at hmaps
  exact hmaps

theorem mem_rows_map_fst {file : CompactedDataFile Row} {location : RecordLocation} :
    location ∈ file.rows.map Prod.fst ↔
      ∃ rowIdx < file.rows.length, location = .diskFile file.fileId rowIdx := by
  have hlen : file.rows.length = file.batches.flatten.length := by
    simp [CompactedDataFile.rows, locate]
  rw [hlen, CompactedDataFile.rows, locate_map_fst, List.mem_map]
  constructor
  · rintro ⟨rowIdx, hmem, rfl⟩
    exact ⟨rowIdx, by simpa [List.mem_range'_1] using hmem, rfl⟩
  · rintro ⟨rowIdx, hlt, rfl⟩
    exact ⟨rowIdx, by simpa [List.mem_range'_1] using hlt, rfl⟩

theorem Remaps.of_built (hbuilt : Built payload params r) :
    Remaps params r.remappedDataFiles r.newDataFiles.length := by
  have hids := hbuilt.ids
  constructor
  · intro location new hnew
    obtain ⟨⟨_, row⟩, hrow, rfl⟩ := List.mem_map.mp (mem_newRows_of_getRemapped hbuilt hnew)
    obtain ⟨file, hfile, hmem⟩ := List.mem_flatMap.mp hrow
    obtain ⟨rowIdx, hlt, hlocation⟩ := mem_rows_map_fst.mp (List.mem_map_of_mem hmem)
    have hid : file.1.fileId ∈ r.newDataFiles.map (·.1.fileId) := List.mem_map_of_mem hfile
    rw [hids] at hid
    obtain ⟨n, hn, hn'⟩ := List.mem_map.mp hid
    have hrows : file.1.rows ∈ r.newDataFiles.map (·.1.rows) := List.mem_map_of_mem hfile
    have hle : file.1.rows.length ≤ r.newRows.length := by
      rw [DataCompactionResult.newRows, List.flatMap_def]
      exact (List.sublist_flatten_of_mem hrows).length_le
    refine ⟨n, List.mem_range.mp hn, rowIdx, ?_, by rw [hn', hlocation]⟩
    exact Nat.lt_of_lt_of_le hlt (Nat.le_trans hle (newRows_length_le hbuilt))
  · intro n hn
    have hget : (r.newDataFiles.map (·.1.fileId))[n]? = some (fileIdAt params n) := by
      rw [hids, List.getElem?_map, List.getElem?_range hn]
      rfl
    rw [List.getElem?_map, List.getElem?_eq_getElem hn] at hget
    have hfile := List.getElem_mem hn
    have hid : r.newDataFiles[n].1.fileId = fileIdAt params n := Option.some.inj hget
    have hmem : RecordLocation.diskFile (fileIdAt params n) 0 ∈
        r.newDataFiles[n].1.rows.map Prod.fst :=
      mem_rows_map_fst.mpr ⟨0, hbuilt.nonempty _ hfile, by rw [hid]⟩
    refine getRemapped_of_mem hbuilt ?_
    obtain ⟨row, hrow, heq⟩ := List.mem_map.mp hmem
    exact List.mem_map.mpr ⟨row, List.mem_flatMap.mpr ⟨_, hfile, hrow⟩, heq⟩

end Compaction

/-! ## The index -/

theorem remappedEntry_fst {e e' : Entry}
    (h : remappedEntry params remap files e = some e') : e'.1 = e.1 := by
  unfold remappedEntry at h
  simp only [Option.bind_eq_bind, Option.bind_eq_some_iff] at h
  obtain ⟨fileId, -, location, -, hlocation⟩ := h
  cases location with
  | diskFile newFileId rowIdx =>
    cases hlocation
    rfl
  | memoryBatch _ _ => cases hlocation

theorem filterMap_remappedEntry_sorted (h : es.Pairwise (·.1 ≤ ·.1)) :
    (es.filterMap (remappedEntry params remap files)).Pairwise (·.1 ≤ ·.1) := by
  refine h.filterMap _ fun e e' hle b hb b' hb' => ?_
  rw [remappedEntry_fst hb, remappedEntry_fst hb']
  exact hle

/-- What is written for a row. -/
theorem Remaps.of_mem_filterMap (h : Remaps params remap numFiles)
    (hsegs : ∀ e ∈ es, e.2.1 < files.length) {e' : Entry}
    (he' : e' ∈ es.filterMap (remappedEntry params remap files)) :
    (∃ e ∈ es, e'.1 = e.1) ∧ (∃ n < numFiles, e'.2.1 = n % numFilesPerFlush) ∧
      e'.2.2 < remap.entries.length := by
  obtain ⟨e, he, hentry⟩ := List.mem_filterMap.mp he'
  obtain ⟨fileId, hfile⟩ := exists_getElem?_eq_some (hsegs e he)
  obtain ⟨-, hentry'⟩ | ⟨n, hn, rowIdx, hrow, -, hentry'⟩ := h.remappedEntry_eq hfile
  · rw [hentry'] at hentry
    cases hentry
  · rw [hentry'] at hentry
    cases hentry
    exact ⟨⟨e, he, rfl⟩, ⟨n, hn, rfl⟩, hrow⟩

/-- Every new file has an entry, with its number modulo one hundred. -/
theorem Remaps.exists_entry (h : Remaps params remap numFiles)
    (hsegs : ∀ e ∈ es, e.2.1 < files.length)
    (hcovers : ∀ location ∈ remap, location ∈ es.map (rowLocation files)) {n : Nat}
    (hn : n < numFiles) :
    ∃ e ∈ es, getRemapped remap (rowLocation files e) = some (.diskFile (fileIdAt params n) 0) ∧
      remappedEntry params remap files e = some (e.1, n % numFilesPerFlush, 0) := by
  obtain ⟨location, hlocation⟩ := h.first n hn
  have hmem : location ∈ remap := getRemapped_isSome.mp (by rw [hlocation]; rfl)
  obtain ⟨e, he, rfl⟩ := List.mem_map.mp (hcovers location hmem)
  refine ⟨e, he, hlocation, ?_⟩
  obtain ⟨fileId, hfile⟩ := exists_getElem?_eq_some (hsegs e he)
  rw [rowLocation_eq hfile] at hlocation
  obtain ⟨hnew, -⟩ | ⟨n', _, rowIdx, _, hnew, hentry⟩ := h.remappedEntry_eq hfile
  · rw [hnew] at hlocation
    cases hlocation
  · rw [hnew] at hlocation
    obtain ⟨hid, hrow⟩ := RecordLocation.diskFile.inj (Option.some.inj hlocation)
    have hn' : n' = n := by
      unfold fileIdAt at hid
      exact Nat.add_left_cancel hid
    rw [hentry, hn', hrow]

namespace GlobalIndexBuilder

theorem buildFromMergeForCompaction_eq (heap : MinHeap)
    (h : List.Forall₂ GlobalIndex.Holds indices entriess)
    (hremaps : Remaps params remap numFiles) (numRows : Nat) (fileId : FileId)
    (newDataFiles : List FileId) (hfiles : (mergedFiles indices).length < 2 ^ 32) :
    ∃ es : List Entry, es.Perm (mergedEntries indices entriess) ∧ es.Pairwise (·.1 ≤ ·.1) ∧
      buildFromMergeForCompaction heap numRows fileId indices newDataFiles (getRemapped remap)
          (getSegIdx params) = (do
        let index ← build ⟨numRows, mergedFiles indices⟩
          (es.filterMap (remappedEntry params remap (mergedFiles indices))) fileId
        return { index with files := newDataFiles }) := by
  obtain ⟨iter, hiter, es, hyields, hperm, hsorted⟩ := createMergingIterator_returns heap h hfiles
  refine ⟨es, hperm, hsorted, ?_⟩
  have hbound : es.length < mergeBound indices := by
    rw [hperm.length_eq]
    exact (mergedEntries_length h 0).2
  have hsegs : ∀ e ∈ es, e.2.1 < (mergedFiles indices).length :=
    fun e he => (of_mem_mergedEntries h hperm e he).2.2
  rw [buildFromMergeForCompaction, hiter, ok_bind, buildFromMergingIteratorWithPredicate]
  simp only
  rw [hyields.forEach_eq hbound, hremaps.foldlM_appendRemapped hsegs, build]
  simp only [bind_assoc, pure_bind]
  rfl

theorem buildFromMergeForCompaction_ensures (heap : MinHeap) (numRows : Nat) (fileId : FileId)
    (indices : List GlobalIndex) (newDataFiles : List FileId)
    (getRemapped : RecordLocation → Option RecordLocation) (getSegIdx : RecordLocation → Nat) :
    Ensures (buildFromMergeForCompaction heap numRows fileId indices newDataFiles getRemapped
      getSegIdx) fun _ => (mergedFiles indices).length < 2 ^ 32 := by
  unfold buildFromMergeForCompaction createMergingIterator
  rw [bind_assoc]
  refine Ensures.bind (createFileIdRemapAtMerge_ensures (Nat.two_pow_pos 32)) fun remaps hfiles => ?_
  rw [Nat.zero_add] at hfiles
  exact fun _ _ => hfiles

/-- A lookup returns the old answers whose row is kept, at the new location of the row. -/
def AnswersRemapped (indices : List GlobalIndex) (remap : DataFileRemap) (index : GlobalIndex) :
    Prop :=
  ∀ (sort : UnstableSort) (keys : List Key), keys ≠ [] →
    Returns (index.searchValues (GlobalIndex.prepareHashesForLookup sort keys)) fun results =>
      Returns (indices.mapM (·.searchValues (GlobalIndex.prepareHashesForLookup sort keys)))
        fun answers => results.Perm (answers.flatten.filterMap (remappedAnswer remap))

/-- There are at most one hundred new files, whose numbers fit in the width for the number of
old files, and the counters and offsets do not overflow. -/
structure CompactionFits (indices : List GlobalIndex) (remap : DataFileRemap) (numFiles : Nat) :
    Prop where
  newFiles : numFiles ≤ numFilesPerFlush
  segs : numFiles ≤ 2 ^ segIdBits (mergedFiles indices)
  files : (mergedFiles indices).length < 2 ^ 32
  rows : remap.entries.length < 2 ^ 32
  table : (createGlobalIndex ⟨remap.entries.length, mergedFiles indices⟩).2.TableInRange
  tables : ∀ index ∈ indices, index.TableInRange

section Compacted

variable {heap : MinHeap} {fileId : FileId}

theorem answersRemapped_of_fits (h : List.Forall₂ GlobalIndex.Holds indices entriess)
    (hnodup : (indexedRows indices entriess).Nodup) (hremaps : Remaps params remap numFiles)
    (hcovers : ∀ location ∈ remap, location ∈ indexedRows indices entriess)
    (hfits : CompactionFits indices remap numFiles) :
    Returns (buildFromMergeForCompaction heap (remap.entries.length % 2 ^ 32) fileId indices
      ((List.range numFiles).map (fileIdAt params)) (getRemapped remap) (getSegIdx params))
      (AnswersRemapped indices remap) := by
  obtain ⟨es, hperm, hsorted, heq⟩ := buildFromMergeForCompaction_eq heap h hremaps
    (remap.entries.length % 2 ^ 32) fileId ((List.range numFiles).map (fileIdAt params)) hfits.files
  have hmem := of_mem_mergedEntries h hperm
  have hsegs : ∀ e ∈ es, e.2.1 < (mergedFiles indices).length := fun e he => (hmem e he).2.2
  have hrowsPerm := map_rowLocation_perm h hperm
  have hlength := hremaps.length_filterMap hsegs (hrowsPerm.nodup_iff.mpr hnodup)
    fun location hloc => hrowsPerm.mem_iff.mpr (hcovers location hloc)
  rw [heq, Nat.mod_eq_of_lt hfits.rows]
  refine (build_answers ⟨remap.entries.length, mergedFiles indices⟩
    ((List.range numFiles).map (fileIdAt params)) hfits.rows (Nat.le_of_eq hlength)
    (filterMap_remappedEntry_sorted hsorted) ?_ ?_ ?_ hfits.table ?_).bind
    fun index hindex => .pure fun sort keys hkeys => ?_
  · intro e' he'
    obtain ⟨⟨e, he, hhash⟩, -, -⟩ := hremaps.of_mem_filterMap hsegs he'
    exact hhash ▸ (hmem e he).1
  · intro e' he'
    exact Nat.lt_trans (hremaps.of_mem_filterMap hsegs he').2.2 hfits.rows
  · intro e' he'
    obtain ⟨-, ⟨n, hn, hseg⟩, -⟩ := hremaps.of_mem_filterMap hsegs he'
    rw [hseg]
    exact Nat.lt_of_le_of_lt (Nat.mod_le ..) (Nat.lt_of_lt_of_le hn hfits.segs)
  · intro e' he'
    obtain ⟨-, ⟨n, hn, hseg⟩, -⟩ := hremaps.of_mem_filterMap hsegs he'
    rw [hseg, List.length_map, List.length_range]
    exact Nat.lt_of_le_of_lt (Nat.mod_le ..) hn
  · refine (hindex.2 sort keys hkeys).mono fun results hresults => ?_
    refine (searchAll_returns h hfits.tables sort hkeys).mono fun answers hanswers => ?_
    rw [hremaps.flatMap_answer hfits.newFiles hsegs] at hresults
    exact hresults.trans (((perm_answersOf h hperm _).trans hanswers.symm).filterMap _)

/-- Lookups in all indices, without panics. -/
theorem tableInRange_of_searchAll (h : List.Forall₂ GlobalIndex.Holds indices entriess)
    (hsearch : ∀ key, Returns (indices.mapM
      (·.searchValues (GlobalIndex.prepareHashesForLookup .stable [key]))) fun _ => True) :
    ∀ index ∈ indices, index.TableInRange := by
  intro index hindex
  obtain ⟨entries, -, hholds⟩ := exists_of_mem_left h hindex
  obtain ⟨block, hrep⟩ := hholds.represents
  refine hrep.tableInRange_of_lookups .stable fun key => ?_
  obtain ⟨answers, hanswers, -⟩ := hsearch key
  obtain ⟨results, hresults⟩ := exists_eq_ok_of_mapM hanswers hindex
  exact ⟨results, hresults, trivial⟩

theorem mem_answer_singleton (sort : UnstableSort) {files : List FileId} {e : Entry}
    (hseg : e.2.1 < files.length) {key : Key} (hhash : (splitmix64 key).toNat = e.1) :
    (key, rowLocation files e) ∈
      GlobalIndex.answer files (GlobalIndex.prepareHashesForLookup sort [key]) e := by
  obtain ⟨fileId, hfile⟩ := exists_getElem?_eq_some hseg
  rw [GlobalIndex.prepareHashesForLookup_singleton, rowLocation_eq hfile]
  unfold GlobalIndex.answer
  simp [hfile, hhash]

/-- From the hundredth file on the answers are wrong. -/
theorem newFiles_of_answers (h : List.Forall₂ GlobalIndex.Holds indices entriess)
    (hremaps : Remaps params remap numFiles)
    (hcovers : ∀ location ∈ remap, location ∈ indexedRows indices entriess) {es : List Entry}
    (hperm : es.Perm (mergedEntries indices entriess)) {index : GlobalIndex}
    (hanswers : AnswersRemapped indices remap index)
    (hwritten : ∀ (sort : UnstableSort) (keys : List Key), keys ≠ [] →
      Returns (index.searchValues (GlobalIndex.prepareHashesForLookup sort keys)) fun results =>
        results.Perm ((es.filterMap (remappedEntry params remap (mergedFiles indices))).flatMap
          (GlobalIndex.answer ((List.range numFiles).map (fileIdAt params))
            (GlobalIndex.prepareHashesForLookup sort keys)))) :
    numFiles ≤ numFilesPerFlush := by
  refine Nat.le_of_not_lt fun hlt => ?_
  have hmem := of_mem_mergedEntries h hperm
  have hsegs : ∀ e ∈ es, e.2.1 < (mergedFiles indices).length := fun e he => (hmem e he).2.2
  have hrowsPerm := map_rowLocation_perm h hperm
  obtain ⟨e, he, hlocation, -⟩ := hremaps.exists_entry hsegs
    (fun location hloc => hrowsPerm.mem_iff.mpr (hcovers location hloc)) hlt
  -- Look up the key of the row that the hundredth file starts with.
  obtain ⟨key, hkey⟩ := splitmix64_surjective (BitVec.ofNat 64 e.1)
  have hhash : (splitmix64 key).toNat = e.1 := by
    rw [hkey, BitVec.toNat_ofNat, Nat.mod_eq_of_lt (hmem e he).1]
  have htables := tableInRange_of_searchAll h fun key => by
    obtain ⟨_, -, answers, hsearch, -⟩ := hanswers .stable [key] (List.cons_ne_nil _ _)
    exact ⟨answers, hsearch, trivial⟩
  obtain ⟨results, hresults, answers, hsearch, hexpected⟩ :=
    hanswers .stable [key] (List.cons_ne_nil _ _)
  obtain ⟨results', hresults', hactual⟩ := hwritten .stable [key] (List.cons_ne_nil _ _)
  obtain ⟨answers', hsearch', hanswersOf⟩ :=
    searchAll_returns h htables .stable (List.cons_ne_nil key [])
  rw [hresults] at hresults'
  cases hresults'
  rw [hsearch] at hsearch'
  cases hsearch'
  have hold : (key, rowLocation (mergedFiles indices) e) ∈ answers.flatten := by
    refine (hanswersOf.trans (perm_answersOf h hperm _).symm).mem_iff.mpr
      (List.mem_flatMap.mpr ⟨e, he, ?_⟩)
    exact mem_answer_singleton .stable (hsegs e he) hhash
  have hnew : (key, RecordLocation.diskFile (fileIdAt params numFilesPerFlush) 0) ∈ results := by
    refine hexpected.mem_iff.mpr (List.mem_filterMap.mpr ⟨_, hold, ?_⟩)
    rw [remappedAnswer, hlocation]
    rfl
  exact hremaps.answer_not_later hsegs _ key 0 (hactual.mem_iff.mp hnew)

theorem fits_of_answersRemapped (h : List.Forall₂ GlobalIndex.Holds indices entriess)
    (hnodup : (indexedRows indices entriess).Nodup) (hremaps : Remaps params remap numFiles)
    (hcovers : ∀ location ∈ remap, location ∈ indexedRows indices entriess)
    (hreturns : Returns (buildFromMergeForCompaction heap (remap.entries.length % 2 ^ 32) fileId
      indices ((List.range numFiles).map (fileIdAt params)) (getRemapped remap) (getSegIdx params))
      (AnswersRemapped indices remap)) : CompactionFits indices remap numFiles := by
  obtain ⟨index, hindex, hanswers⟩ := hreturns
  have hfiles := buildFromMergeForCompaction_ensures heap _ fileId indices _ _ _ index hindex
  obtain ⟨es, hperm, hsorted, heq⟩ := buildFromMergeForCompaction_eq heap h hremaps
    (remap.entries.length % 2 ^ 32) fileId ((List.range numFiles).map (fileIdAt params)) hfiles
  have hmem := of_mem_mergedEntries h hperm
  have hsegs : ∀ e ∈ es, e.2.1 < (mergedFiles indices).length := fun e he => (hmem e he).2.2
  have hrowsPerm := map_rowLocation_perm h hperm
  have hcovers' := fun location hloc => hrowsPerm.mem_iff.mpr (hcovers location hloc)
  have hlength := hremaps.length_filterMap hsegs (hrowsPerm.nodup_iff.mpr hnodup) hcovers'
  rw [heq] at hindex
  obtain ⟨index', hbuild, hfilesSet⟩ := bind_eq_ok.mp hindex
  cases pure_eq_ok_iff.mp hfilesSet
  -- The written entries are counted with 32 bits.
  have hrows : remap.entries.length < 2 ^ 32 := by
    rw [← hlength]
    exact (build_ensures _ fileId index' hbuild).2
  rw [Nat.mod_eq_of_lt hrows] at hbuild
  have hhash : ∀ e' ∈ es.filterMap (remappedEntry params remap (mergedFiles indices)),
      e'.1 < 2 ^ 64 := by
    intro e' he'
    obtain ⟨⟨e, he, hhash⟩, -, -⟩ := hremaps.of_mem_filterMap hsegs he'
    exact hhash ▸ (hmem e he).1
  have hrow : ∀ e' ∈ es.filterMap (remappedEntry params remap (mergedFiles indices)),
      e'.2.2 < 2 ^ 32 :=
    fun e' he' => Nat.lt_trans (hremaps.of_mem_filterMap hsegs he').2.2 hrows
  have hseg : ∀ e' ∈ es.filterMap (remappedEntry params remap (mergedFiles indices)),
      e'.2.1 < numFilesPerFlush ∧ e'.2.1 < ((List.range numFiles).map (fileIdAt params)).length := by
    intro e' he'
    obtain ⟨-, ⟨n, hn, hseg⟩, -⟩ := hremaps.of_mem_filterMap hsegs he'
    rw [hseg, List.length_map, List.length_range]
    exact ⟨Nat.mod_lt _ (by decide), Nat.lt_of_le_of_lt (Nat.mod_le ..) hn⟩
  obtain ⟨hfits, htable⟩ := fits_of_lookups ⟨remap.entries.length, mergedFiles indices⟩ _ hrows
    (Nat.le_of_eq hlength) (filterMap_remappedEntry_sorted hsorted) hhash hrow
    (fun e' he' => Nat.lt_trans (hseg e' he').1 (by decide)) hbuild
    fun key => (hanswers .stable [key] (List.cons_ne_nil _ _)).mono fun _ _ => trivial
  obtain ⟨index'', hbuild', -, hwritten⟩ := build_answers
    ⟨remap.entries.length, mergedFiles indices⟩ ((List.range numFiles).map (fileIdAt params)) hrows
    (Nat.le_of_eq hlength) (filterMap_remappedEntry_sorted hsorted) hhash hrow hfits htable
    fun e' he' => (hseg e' he').2
  rw [hbuild] at hbuild'
  cases hbuild'
  have hnew := newFiles_of_answers h hremaps hcovers hperm hanswers hwritten
  refine ⟨hnew, Nat.le_of_not_lt fun hlt => ?_, hfiles, hrows, htable, ?_⟩
  · obtain ⟨e, he, -, hentry⟩ := hremaps.exists_entry hsegs hcovers' hlt
    have hwide := hfits _ (List.mem_filterMap.mpr ⟨e, he, hentry⟩)
    rw [Nat.mod_eq_of_lt (Nat.lt_of_lt_of_le hlt hnew)] at hwide
    exact Nat.lt_irrefl _ hwide
  · refine tableInRange_of_searchAll h fun key => ?_
    obtain ⟨_, -, answers, hsearch, -⟩ := hanswers .stable [key] (List.cons_ne_nil _ _)
    exact ⟨answers, hsearch, trivial⟩

end Compacted

end GlobalIndexBuilder

/-! ## Whole compactions -/

theorem hashIndexMerge_ok (heap : MinHeap) (numRows : Nat) (fileId : FileId)
    (indices : List GlobalIndex) (newDataFiles : List FileId)
    (getRemapped : RecordLocation → Option RecordLocation) (getSegIdx : RecordLocation → Nat) :
    hashIndexMerge heap numRows fileId (indices.map .ok) newDataFiles getRemapped getSegIdx =
      GlobalIndexBuilder.buildFromMergeForCompaction heap (numRows % 2 ^ 32) fileId indices
        newDataFiles getRemapped getSegIdx := by
  have hmapM : (indices.map .ok : List (Except IndexPanic GlobalIndex)).mapM id = .ok indices := by
    rw [List.mapM_map]
    exact (mapM_eq_ok (g := id) fun _ _ => rfl).trans (congrArg _ indices.map_id)
  rw [hashIndexMerge, hmapM, ok_bind]

/-- The index of a compaction, with the rows that survive in the map. -/
theorem compaction_index_eq (payload : DataCompactionPayload Row (Except IndexPanic GlobalIndex))
    (params : CompactionFileParams) (writer : ArrowWriter Row) (heap : MinHeap)
    (hids : params.startId + payload.getNewCompactedDataFileIdsNumber ≤ params.endId)
    (hindices : payload.fileIndices = indices.map .ok)
    (hindexed : ∀ row ∈ payload.liveRows, row.1 ∈ indexedRows indices entriess)
    (hlive : payload.liveRows ≠ []) :
    Returns (CompactionBuilder.build payload params writer (hashIndexMerge heap)) fun r =>
      Remaps params r.remappedDataFiles r.newDataFiles.length ∧
      (∀ location ∈ r.remappedDataFiles, location ∈ indexedRows indices entriess) ∧
      ∃ fileId, r.newFileIndices = [GlobalIndexBuilder.buildFromMergeForCompaction heap
        (r.remappedDataFiles.entries.length % 2 ^ 32) fileId indices
        ((List.range r.newDataFiles.length).map (fileIdAt params)) (getRemapped r.remappedDataFiles)
        (getSegIdx params)] := by
  obtain ⟨r, hr, hbuilt⟩ := build_spec payload params writer (hashIndexMerge heap) hids
  have hcovers : ∀ location ∈ r.remappedDataFiles, location ∈ indexedRows indices entriess := by
    intro location hmem
    obtain ⟨row, hrow, rfl⟩ := List.mem_map.mp ((hbuilt.compacted.domain location).mp hmem)
    exact hindexed row hrow
  have hne : r.remappedDataFiles.entries ≠ [] := by
    intro hnil
    obtain ⟨row, hrow⟩ := List.exists_mem_of_ne_nil _ hlive
    have hmem := (hbuilt.compacted.domain row.1).mpr (List.mem_map_of_mem hrow)
    change row.1 ∈ r.remappedDataFiles.entries.keys at hmem
    rw [hnil] at hmem
    exact List.not_mem_nil hmem
  have hindices' : payload.fileIndices ≠ [] := by
    rw [hindices]
    rintro hnil
    obtain ⟨row, hrow⟩ := List.exists_mem_of_ne_nil _ hlive
    have hmem := hindexed row hrow
    rw [List.map_eq_nil_iff.mp hnil] at hmem
    exact List.not_mem_nil hmem
  obtain ⟨fileId, hindex⟩ :=
    build_newFileIndices payload params writer (hashIndexMerge heap) hindices' r hr hne
  rw [hindices, hashIndexMerge_ok, hbuilt.ids] at hindex
  exact ⟨r, hr, .of_built hbuilt, hcovers, fileId, hindex⟩

/-- The index of the compacted files answers every lookup with the old answers whose rows are
kept, at their new locations, if and only if there are at most one hundred new files and what
is written fits. -/
theorem compactedIndex_answers_iff
    (payload : DataCompactionPayload Row (Except IndexPanic GlobalIndex))
    (params : CompactionFileParams) (writer : ArrowWriter Row) (heap : MinHeap)
    (hids : params.startId + payload.getNewCompactedDataFileIdsNumber ≤ params.endId)
    (hindices : payload.fileIndices = indices.map .ok)
    (h : List.Forall₂ GlobalIndex.Holds indices entriess)
    (hnodup : (indexedRows indices entriess).Nodup)
    (hindexed : ∀ row ∈ payload.liveRows, row.1 ∈ indexedRows indices entriess)
    (hlive : payload.liveRows ≠ []) :
    Returns (CompactionBuilder.build payload params writer (hashIndexMerge heap)) fun r =>
      ((∃ index, r.newFileIndices = [.ok index] ∧
          GlobalIndexBuilder.AnswersRemapped indices r.remappedDataFiles index) ↔
        GlobalIndexBuilder.CompactionFits indices r.remappedDataFiles r.newDataFiles.length) := by
  refine (compaction_index_eq payload params writer heap hids hindices hindexed hlive).mono ?_
  rintro r ⟨hremaps, hcovers, fileId, hindex⟩
  rw [hindex]
  constructor
  · rintro ⟨index, heq, hanswers⟩
    exact GlobalIndexBuilder.fits_of_answersRemapped h hnodup hremaps hcovers
      ⟨index, List.singleton_inj.mp heq, hanswers⟩
  · intro hfits
    obtain ⟨index, heq, hanswers⟩ :=
      GlobalIndexBuilder.answersRemapped_of_fits h hnodup hremaps hcovers hfits
    exact ⟨index, by rw [heq], hanswers⟩

/-- One row in each of `numFiles` files. -/
def oneRowFiles (numFiles : Nat) : List (SingleFileToCompact Nat) :=
  (List.range numFiles).map fun i =>
    { fileId := i, batches := [[i]], deletionVector := none, fits := nofun }

def oneRowPayload (numFiles : Nat) (index : GlobalIndex) :
    DataCompactionPayload Nat (Except IndexPanic GlobalIndex) where
  diskFiles := oneRowFiles numFiles
  fileIndices := [.ok index]
  distinct := by
    rw [oneRowFiles, List.map_map]
    exact List.nodup_range.map fun _ _ h => h

/-- A writer that cuts a file after each row. -/
def oneRowWriter : ArrowWriter Nat where
  memorySize batches := batches.flatten.length
  bytesWritten batches := batches.length + 1
  bytesWritten_pos _ := Nat.succ_pos _

theorem oneRowPayload_liveRows (numFiles : Nat) (index : GlobalIndex) :
    (oneRowPayload numFiles index).liveRows.map Prod.fst =
      (List.range numFiles).map (.diskFile · 0) := by
  show ((oneRowFiles numFiles).flatMap (·.liveRows)).map Prod.fst = _
  rw [oneRowFiles, List.flatMap_map, List.map_flatMap, ← List.flatMap_singleton' (List.map _ _),
    List.flatMap_map]
  rfl

def oneRowKeys (numFiles : Nat) : List (Key × Nat × Nat) :=
  (List.range numFiles).map fun i => (BitVec.ofNat 64 i, i, 0)

/-- The index of these files. -/
theorem oneRowKeys_holds {numFiles : Nat} (h : numFiles ≤ 2 ^ 16) :
    Returns (GlobalIndexBuilder.buildFromFlush .stable (List.range numFiles) (oneRowKeys numFiles) 0)
      fun index => index.files = List.range numFiles ∧ index.numRows = numFiles ∧
        ∃ entries, index.Holds entries ∧
          (indexedRows [index] [entries]).Perm ((List.range numFiles).map (.diskFile · 0)) := by
  have hlen : (oneRowKeys numFiles).length = numFiles := by simp [oneRowKeys]
  have hmem : ∀ row ∈ oneRowKeys numFiles, row.2.1 < numFiles ∧ row.2.2 = 0 := by
    intro row hrow
    obtain ⟨i, hi, rfl⟩ := List.mem_map.mp hrow
    exact ⟨List.mem_range.mp hi, rfl⟩
  refine (GlobalIndexBuilder.buildFromFlush_holds .stable (List.range numFiles)
    (oneRowKeys numFiles) 0 (by omega) (by simpa using h)
    (fun row hrow => by simpa using (hmem row hrow).1)
    (fun row hrow => by rw [(hmem row hrow).2]; decide)).mono ?_
  rintro index ⟨hfiles, hrows, hholds⟩
  refine ⟨hfiles, hrows.trans hlen, _, hholds, ?_⟩
  rw [indexedRows, List.zipWith_cons_cons, List.zipWith_nil_left, List.flatten_singleton, hfiles]
  refine ((UnstableSort.stable.perm _ _).map _).trans (.of_eq ?_)
  rw [oneRowKeys, List.map_map, List.map_map]
  refine List.map_congr_left fun i hi => ?_
  exact rowLocation_eq (List.getElem?_range (List.mem_range.mp hi))

/-- Every row of the files is in their index. -/
theorem oneRowPayload_indexed {numFiles : Nat} (hpos : 0 < numFiles) {index : GlobalIndex}
    {entries : List Entry}
    (hperm : (indexedRows [index] [entries]).Perm ((List.range numFiles).map (.diskFile · 0))) :
    (indexedRows [index] [entries]).Nodup ∧
      (∀ row ∈ (oneRowPayload numFiles index).liveRows, row.1 ∈ indexedRows [index] [entries]) ∧
      (oneRowPayload numFiles index).liveRows ≠ [] := by
  have hrows := oneRowPayload_liveRows numFiles index
  refine ⟨hperm.nodup_iff.mpr (List.nodup_range.map fun i j h => ?_), fun row hrow => ?_, ?_⟩
  · injection h
  · exact hperm.mem_iff.mpr (hrows ▸ List.mem_map_of_mem hrow)
  · intro hnil
    have hlen := congrArg List.length hrows
    rw [hnil] at hlen
    simp at hlen
    omega

/-- The files are closed when there is none left to read. -/
theorem build_newDataFiles {Index : Type} (payload : DataCompactionPayload Row Index)
    {writer : ArrowWriter Row} {acc : CompactionBuilder Row × DataFileRemap}
    (hcompact : CompactionBuilder.new.compactDataFiles params writer payload.diskFiles = .ok acc)
    (hwriter : acc.1.curArrowWriter.isSome = false) (hremap : acc.2.entries.isEmpty = false)
    (merge : IndexMerge Index) :
    Ensures (CompactionBuilder.build payload params writer merge) fun r =>
      r.newDataFiles = acc.1.newDataFiles ∧ r.remappedDataFiles = acc.2 := by
  unfold CompactionBuilder.build CompactionBuilder.flushLast
  rw [hcompact, ok_bind]
  simp only [hremap, hwriter, Bool.false_eq_true, if_false, ok_bind]
  split
  · exact .pure ⟨rfl, rfl⟩
  · exact .bind_any fun _ => .pure ⟨rfl, rfl⟩

theorem oneRowFiles_compact_many :
    Returns (CompactionBuilder.new.compactDataFiles ⟨0, 202, 1, by decide⟩ oneRowWriter
      (oneRowFiles 101)) fun acc => acc.1.curArrowWriter.isSome = false ∧
        acc.2.entries.isEmpty = false ∧ acc.1.newDataFiles.length = 101 := by
  decide +kernel

/-- A compaction of 101 files with one row each, which writes each row to a file of its own:
the last file gets the number of the first one. -/
theorem compactedIndex_manyFiles :
    ∃ index, GlobalIndexBuilder.buildFromFlush .stable (List.range 101) (oneRowKeys 101) 0 =
        .ok index ∧
      ∀ heap, Returns (CompactionBuilder.build (oneRowPayload 101 index) ⟨0, 202, 1, by decide⟩
          oneRowWriter (hashIndexMerge heap)) fun r =>
        ¬ ∃ index', r.newFileIndices = [.ok index'] ∧
          GlobalIndexBuilder.AnswersRemapped [index] r.remappedDataFiles index' := by
  obtain ⟨index, hindex, -, -, entries, hholds, hperm⟩ :=
    oneRowKeys_holds (show 101 ≤ 2 ^ 16 by decide)
  refine ⟨index, hindex, fun heap => ?_⟩
  obtain ⟨hnodup, hindexed, hlive⟩ := oneRowPayload_indexed (by decide) hperm
  obtain ⟨r, hr, hremaps, hcovers, fileId, hnew⟩ := compaction_index_eq (oneRowPayload 101 index)
    ⟨0, 202, 1, by decide⟩ oneRowWriter heap (Nat.le_of_eq rfl) rfl hindexed hlive
  refine ⟨r, hr, ?_⟩
  rintro ⟨index', heq, hanswers⟩
  rw [hnew] at heq
  have hfits := GlobalIndexBuilder.fits_of_answersRemapped (.cons hholds .nil) hnodup hremaps hcovers
    ⟨index', List.singleton_inj.mp heq, hanswers⟩
  obtain ⟨acc, hcompact, hwriter, hremap, hfiles⟩ := oneRowFiles_compact_many
  have hle := hfits.newFiles
  rw [(build_newDataFiles (oneRowPayload 101 index) hcompact hwriter hremap _ r hr).1, hfiles,
    numFilesPerFlush] at hle
  omega

/-- Two files with one row each. -/
theorem compactedIndex_answers_twoFiles :
    ∃ index, GlobalIndexBuilder.buildFromFlush .stable (List.range 2) (oneRowKeys 2) 0 =
        .ok index ∧
      Returns (CompactionBuilder.build (oneRowPayload 2 index) ⟨0, 4, 1, by decide⟩
          oneRowWriter (hashIndexMerge .unordered)) fun r =>
        ∃ index', r.newFileIndices = [.ok index'] ∧
          GlobalIndexBuilder.AnswersRemapped [index] r.remappedDataFiles index' := by
  obtain ⟨index, hindex, hfiles, hnumRows, entries, hholds, hperm⟩ :=
    oneRowKeys_holds (show 2 ≤ 2 ^ 16 by decide)
  refine ⟨index, hindex, ?_⟩
  obtain ⟨hnodup, hindexed, hlive⟩ := oneRowPayload_indexed (by decide) hperm
  obtain ⟨r, hr, hiff⟩ := compactedIndex_answers_iff (oneRowPayload 2 index) ⟨0, 4, 1, by decide⟩
    oneRowWriter .unordered (Nat.le_of_eq rfl) rfl (.cons hholds .nil) hnodup hindexed hlive
  refine ⟨r, hr, hiff.mpr ?_⟩
  have hcompact : Returns (CompactionBuilder.new.compactDataFiles ⟨0, 4, 1, by decide⟩ oneRowWriter
      (oneRowFiles 2)) fun acc => acc.1.curArrowWriter.isSome = false ∧
        acc.2.entries.length = 2 ∧ acc.1.newDataFiles.length = 2 := by
    decide +kernel
  obtain ⟨acc, hcompact, hwriter, hremap, hnew⟩ := hcompact
  have hne : acc.2.entries.isEmpty = false := by
    cases hentries : acc.2.entries with
    | nil => rw [hentries] at hremap; exact nomatch hremap
    | cons entry entries => rfl
  obtain ⟨hnewFiles, hremapped⟩ :=
    build_newDataFiles (oneRowPayload 2 index) hcompact hwriter hne _ r hr
  have hmerged : mergedFiles [index] = [0, 1] := by simp [mergedFiles, hfiles]; rfl
  have hclog : Nat.clog 2 (2 / 4 + 2) = 1 := by
    rw [Nat.clog_eq_one (by decide) (by decide)]
  constructor
  · rw [hnewFiles, hnew]
    decide
  · rw [hnewFiles, hnew, hmerged]
    decide
  · rw [hmerged]
    decide
  · rw [hremapped, hremap]
    decide
  · rw [hremapped, hremap, hmerged]
    simp only [GlobalIndexBuilder.createGlobalIndex, GlobalIndex.TableInRange,
      GlobalIndex.numBuckets, hclog]
    decide
  · intro index' hmem
    cases List.mem_singleton.mp hmem
    rw [GlobalIndex.TableInRange, GlobalIndex.numBuckets, hholds.bucketBits, hholds.upperBits,
      hnumRows, hclog]
    decide

end Moonlink.Index
