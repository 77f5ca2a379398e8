-- SUMMARY: When a flush of a drained mem slice writes and indexes exactly its active rows.
import Moonlink.Storage.FlushedRows
import Moonlink.Storage.MemSliceSearch

namespace Moonlink.Storage

open Lib

variable {Row Ident : Type}

namespace DrainedRows

/-- The rows that are not deleted, in the order of the batches and their rows. -/
def activeRows (drained : DrainedRows Row Ident) : List ((Nat × Nat) × Row) :=
  locatedRows (drained.batches.filterMap DiskSliceWriter.filteredBatch)

/-- What a mem slice hands over when it is drained. -/
structure Complete (identity : IdentityProp Row Ident) (drained : DrainedRows Row Ident) : Prop where
  kind : drained.index.kind = identity.kind
  ids : drained.batchIds.Nodup
  closed : ∀ entry ∈ drained.batches, ∃ rows, entry.batch.data = some rows ∧
    rows.length ≤ entry.batch.deletions.maxRows
  entries : ∀ e ∈ drained.index.entries, ∃ entry ∈ drained.batches, entry.id = e.location.1 ∧
    ∃ rows row, entry.batch.data = some rows ∧ rows[e.location.2]? = some row ∧ e.hash = identity.lookupKey row
  indexed : identity.kind ≠ .none → ∀ loc, drained.Writes loc → loc ∈ drained.index.entries.map (·.location)
  unindexed : identity.kind = .none → drained.index.entries = []
  nodup : (drained.index.entries.map (·.location)).Nodup

/-- The batch of the location has a row that is not deleted. -/
def BatchWritten (drained : DrainedRows Row Ident) (batchId : Nat) : Prop := ∃ rowIdx, drained.Writes (batchId, rowIdx)

/-- The files into which the active rows are cut. -/
def fileCount (drained : DrainedRows Row Ident) (writer : ArrowWriter Row) (parquetFileSize : Nat) : Nat :=
  SliceOutput.countFiles writer parquetFileSize []
    ((drained.batches.filterMap DiskSliceWriter.filteredBatch).map fun batch => batch.2.map Prod.snd)

/-- Nothing is written, or the batches of all index entries are, and there are ids for the files and for that
of the index. -/
def Flushable (identity : IdentityProp Row Ident) (drained : DrainedRows Row Ident) (writer : ArrowWriter Row)
    (parquetFileSize : Nat) : Prop :=
  drained.activeRows = [] ∨
    (∀ e ∈ drained.index.entries, drained.BatchWritten e.location.1) ∧
    drained.fileCount writer parquetFileSize + (if identity.kind = .none then 0 else 1) ≤ numFilesPerFlush

variable {identity : IdentityProp Row Ident} {drained : DrainedRows Row Ident}

theorem mem_activeRows {loc : Nat × Nat} {row : Row} : (loc, row) ∈ drained.activeRows ↔
    ∃ entry ∈ drained.batches, entry.id = loc.1 ∧ (∃ rows, entry.batch.data = some rows ∧ rows[loc.2]? = some row) ∧
      entry.batch.deletions.isDeleted loc.2 = false := by
  obtain ⟨batchId, rowIdx⟩ := loc
  simp only [activeRows, locatedRows, List.mem_flatMap, List.mem_filterMap, List.mem_map, Prod.exists, Prod.mk.injEq]
  constructor
  · rintro ⟨id, rows, ⟨entry, hentry, hfiltered⟩, i, row', hrow, ⟨rfl, rfl⟩, rfl⟩
    cases hdata : entry.batch.data with
    | none =>
      unfold DiskSliceWriter.filteredBatch at hfiltered
      rw [hdata] at hfiltered
      cases hfiltered
    | some data =>
      rw [DiskSliceWriter.filteredBatch_eq hdata] at hfiltered
      split at hfiltered
      · cases hfiltered
      · cases hfiltered
        obtain ⟨hget, hactive⟩ := DiskSliceWriter.mem_activeRows.mp hrow
        exact ⟨entry, hentry, rfl, ⟨data, hdata, hget⟩, hactive⟩
  · rintro ⟨entry, hentry, rfl, ⟨rows, hdata, hget⟩, hactive⟩
    have hmem : (rowIdx, row) ∈ DiskSliceWriter.activeRows entry.batch.deletions rows :=
      DiskSliceWriter.mem_activeRows.mpr ⟨hget, hactive⟩
    refine ⟨entry.id, _, ⟨entry, hentry, ?_⟩, rowIdx, row, hmem, ⟨rfl, rfl⟩, rfl⟩
    rw [DiskSliceWriter.filteredBatch_eq hdata, if_neg]
    intro hnil
    rw [List.isEmpty_iff.mp hnil] at hmem
    cases hmem

theorem writes_iff {loc : Nat × Nat} : drained.Writes loc ↔ ∃ row, (loc, row) ∈ drained.activeRows := by
  simp only [mem_activeRows]
  constructor
  · rintro ⟨entry, hentry, hid, ⟨rows, hdata, hlt⟩, hactive⟩
    exact ⟨rows[loc.2], entry, hentry, hid, ⟨rows, hdata, List.getElem?_eq_getElem hlt⟩, hactive⟩
  · rintro ⟨row, entry, hentry, hid, ⟨rows, hdata, hget⟩, hactive⟩
    exact ⟨entry, hentry, hid, ⟨rows, hdata, (List.getElem?_eq_some_iff.mp hget).1⟩, hactive⟩

theorem filteredBatch_id {entry : BatchEntry Row} {batch : Nat × List (Nat × Row)}
    (h : DiskSliceWriter.filteredBatch entry = some batch) :
    batch.1 = entry.id ∧ ∃ rows, entry.batch.data = some rows ∧ batch.2 = DiskSliceWriter.activeRows entry.batch.deletions rows ∧
      batch.2 ≠ [] := by
  cases hdata : entry.batch.data with
  | none =>
    unfold DiskSliceWriter.filteredBatch at h
    rw [hdata] at h
    cases h
  | some rows =>
    rw [DiskSliceWriter.filteredBatch_eq hdata] at h
    split at h
    · cases h
    · next hne =>
        cases h
        exact ⟨rfl, rows, rfl, rfl, by simpa using hne⟩

theorem filteredBatch_ids_sublist (batches : List (BatchEntry Row)) :
    ((batches.filterMap DiskSliceWriter.filteredBatch).map Prod.fst).Sublist (batches.map (·.id)) := by
  induction batches with
  | nil => exact .slnil
  | cons entry rest ih =>
    cases hfiltered : DiskSliceWriter.filteredBatch entry with
    | none =>
      rw [List.filterMap_cons_none hfiltered]
      exact .cons _ ih
    | some batch =>
      rw [List.filterMap_cons_some hfiltered, List.map_cons, List.map_cons, (filteredBatch_id hfiltered).1]
      exact .cons_cons _ ih

theorem Complete.filtered (h : drained.Complete identity) (entry : BatchEntry Row) (hentry : entry ∈ drained.batches) :
    entry.batch.getFilteredBatch =
        .ok ((DiskSliceWriter.filteredBatch entry).map fun batch => batch.2.map Prod.snd) ∧
      ∀ rows, entry.batch.data = some rows → ∀ batch ∈ DiskSliceWriter.filteredBatch entry,
        batch.2.map Prod.fst = entry.batch.deletions.collectActiveRows rows.length := by
  obtain ⟨rows, hdata, hfits⟩ := h.closed entry hentry
  refine ⟨DiskSliceWriter.getFilteredBatch_eq hdata hfits, fun rows' hdata' batch hbatch => ?_⟩
  cases hdata.symm.trans hdata'
  obtain ⟨-, rows', hdata', hrows, -⟩ := filteredBatch_id hbatch
  cases hdata.symm.trans hdata'
  rw [hrows, DiskSliceWriter.activeRows_offsets]

theorem Complete.filtered_nodup (h : drained.Complete identity) :
    ((drained.batches.filterMap DiskSliceWriter.filteredBatch).map Prod.fst).Nodup :=
  h.ids.sublist (filteredBatch_ids_sublist drained.batches)

theorem mem_filtered_iff {batchId : Nat} :
    batchId ∈ (drained.batches.filterMap DiskSliceWriter.filteredBatch).map Prod.fst ↔ drained.BatchWritten batchId := by
  constructor
  · intro hmem
    obtain ⟨batch, hbatch, rfl⟩ := List.mem_map.mp hmem
    obtain ⟨⟨rowIdx, row⟩, hrow⟩ : ∃ row, row ∈ batch.2 := by
      obtain ⟨entry, -, hfiltered⟩ := List.mem_filterMap.mp hbatch
      obtain ⟨-, -, -, -, hne⟩ := filteredBatch_id hfiltered
      exact List.exists_mem_of_ne_nil _ hne
    refine ⟨rowIdx, writes_iff.mpr ⟨row, ?_⟩⟩
    exact List.mem_flatMap.mpr ⟨batch, hbatch, List.mem_map.mpr ⟨(rowIdx, row), hrow, rfl⟩⟩
  · rintro ⟨rowIdx, hwrites⟩
    obtain ⟨row, hrow⟩ := writes_iff.mp hwrites
    obtain ⟨batch, hbatch, hmem⟩ := List.mem_flatMap.mp hrow
    obtain ⟨row', -, heq⟩ := List.mem_map.mp hmem
    have hid : batch.1 = batchId := congrArg (fun row => row.1.1) heq
    exact hid ▸ List.mem_map_of_mem hbatch

theorem activeRows_eq_nil_iff :
    drained.activeRows = [] ↔ drained.batches.filterMap DiskSliceWriter.filteredBatch = [] := by
  constructor
  · intro hnil
    by_contra hne
    obtain ⟨batch, hbatch⟩ := List.exists_mem_of_ne_nil _ hne
    obtain ⟨rowIdx, hwrites⟩ := mem_filtered_iff.mp (List.mem_map_of_mem hbatch)
    obtain ⟨row, hrow⟩ := writes_iff.mp hwrites
    rw [hnil] at hrow
    cases hrow
  · intro hnil
    rw [activeRows, hnil]
    rfl

/-- Every location is that of one row. -/
theorem Complete.activeRows_nodup (h : drained.Complete identity) : (drained.activeRows.map Prod.fst).Nodup := by
  rw [activeRows, locatedRows, List.map_flatMap]
  refine List.nodup_flatMap.mpr ⟨fun batch hbatch => ?_, ?_⟩
  · obtain ⟨entry, -, hfiltered⟩ := List.mem_filterMap.mp hbatch
    obtain ⟨-, rows, -, hrows, -⟩ := filteredBatch_id hfiltered
    have hoffsets := DiskSliceWriter.activeRows_nodup entry.batch.deletions rows
    have hpair := hoffsets.map fun i j h => (Prod.mk.inj h : batch.1 = batch.1 ∧ i = j).2
    rw [hrows, List.map_map]
    rwa [List.map_map] at hpair
  · refine (List.pairwise_map.mp h.filtered_nodup).imp fun hne => ?_
    intro loc hloc hloc'
    obtain ⟨row, hrow, rfl⟩ := List.mem_map.mp hloc
    obtain ⟨row', hrow', heq⟩ := List.mem_map.mp hloc'
    obtain ⟨_, -, rfl⟩ := List.mem_map.mp hrow
    obtain ⟨_, -, rfl⟩ := List.mem_map.mp hrow'
    exact hne (congrArg Prod.fst heq).symm

end DrainedRows

/-! ## Writing -/

/-- Lists with the same keys have the same values at them. -/
theorem perm_map_of_key {α β κ γ : Type} {as : List α} {bs : List β} {f : α → κ} {g : β → κ}
    {φ : α → γ} {ψ : β → γ} (hperm : (as.map f).Perm (bs.map g))
    (hsame : ∀ a ∈ as, ∀ b ∈ bs, f a = g b → φ a = ψ b) : (as.map φ).Perm (bs.map ψ) := by
  obtain ⟨bs', hkeys, hperm'⟩ : Relation.Comp (· = List.map g ·) List.Perm (as.map f) bs := by
    rw [List.eq_map_comp_perm]
    exact hperm
  have hvalues : as.map φ = bs'.map ψ := by
    refine List.ext_getElem (by simpa using congrArg List.length hkeys) fun i hi hi' => ?_
    rw [List.getElem_map, List.getElem_map]
    refine hsame _ (List.getElem_mem _) _ (hperm'.subset (List.getElem_mem _)) ?_
    have hlt : i < as.length := by simpa using hi
    have hlt' : i < bs'.length := by simpa using hi'
    simpa [hlt, hlt'] using congrArg (·[i]?) hkeys
  rw [hvalues]
  exact hperm'.map ψ

/-- The new index has one entry for each active row, with its key and its place. Tables without an identity have
no index. -/
def Indexes (identity : IdentityProp Row Ident) (drained : DrainedRows Row Ident) (slice : DiskSliceWriter Row Ident)
    (newIndex : Option FileIndex) : Prop :=
  if identity.kind = .none ∨ drained.activeRows = [] then newIndex = none
  else ∃ index, newIndex = some index ∧ index.files = slice.files.map (·.fileId) ∧
    (index.entries.map fun e => (e.1, some e.2)).Perm (drained.activeRows.map fun row =>
      (identity.lookupKey row.2, slice.remapLocation (.memoryBatch row.1.1 row.1.2)))

/-- What a flush of the drained rows should write. -/
structure Flushed (identity : IdentityProp Row Ident) (drained : DrainedRows Row Ident) (writer : ArrowWriter Row)
    (parquetFileSize : Nat) (slice : DiskSliceWriter Row Ident) : Prop where
  /-- The filtered batches are the active rows, whose offsets are collected next to them. -/
  filtered : ∀ entry ∈ drained.batches, entry.batch.getFilteredBatch =
      .ok ((DiskSliceWriter.filteredBatch entry).map fun batch => batch.2.map Prod.snd) ∧
    ∀ rows, entry.batch.data = some rows → ∀ batch ∈ DiskSliceWriter.filteredBatch entry,
      batch.2.map Prod.fst = entry.batch.deletions.collectActiveRows rows.length
  rows : slice.files.flatMap (·.rows) = drained.activeRows.map Prod.snd
  rowNums : SliceOutput.recordRowNums writer parquetFileSize slice.tableAutoIncrId .new
    (drained.batches.filterMap DiskSliceWriter.filteredBatch) = .ok (slice.files.map (·.rows.length))
  placed : ∀ loc row, (loc, row) ∈ drained.activeRows → ∃ place, slice.rowOffsetMapping.lookup loc = some place ∧
    ∃ file, slice.files[place.1]? = some file ∧ file.rows[place.2]? = some row
  active : ∀ loc place, slice.rowOffsetMapping.lookup loc = some place → drained.Writes loc
  injective : ∀ loc loc' place, slice.rowOffsetMapping.lookup loc = some place →
    slice.rowOffsetMapping.lookup loc' = some place → loc = loc'
  surjective : ∀ place file row, slice.files[place.1]? = some file → file.rows[place.2]? = some row →
    ∃ loc, slice.rowOffsetMapping.lookup loc = some place
  index : Indexes identity drained slice slice.newIndex

namespace DiskSliceWriter

variable {identity : IdentityProp Row Ident} {drained : DrainedRows Row Ident} {slice : DiskSliceWriter Row Ident}

theorem remapIndexEntry_eq (slice : DiskSliceWriter Row Ident) (e : MemIndexEntry Ident) :
    remapIndexEntry slice.flushedBatches slice.rowOffsetMapping slice.files e =
      if e.location.1 ∈ slice.flushedBatches then
        .ok ((slice.remapLocation (.memoryBatch e.location.1 e.location.2)).map fun location => (e.hash, location))
      else .error .indexedBatchNotFlushed := by
  unfold remapIndexEntry remapLocation
  split
  · cases hlookup : slice.rowOffsetMapping.lookup e.location with
    | none => simp [hlookup]
    | some place => cases hfile : slice.files[place.1]? <;> simp [hlookup, hfile]
  · rfl

/-- What `write` knows of the files when it remaps the index. -/
structure Remaps (identity : IdentityProp Row Ident) (drained : DrainedRows Row Ident)
    (slice : DiskSliceWriter Row Ident) : Prop where
  oldIndex : slice.oldIndex = drained.index
  flushed : ∀ batchId, batchId ∈ slice.flushedBatches ↔ drained.BatchWritten batchId
  rows : slice.files.flatMap (·.rows) = drained.activeRows.map Prod.snd
  files : slice.files = [] ↔ drained.activeRows = []
  located : ∀ loc, (slice.remapLocation (.memoryBatch loc.1 loc.2)).isSome ↔ drained.Writes loc

/-- Of the entries, those of active rows are remapped, each to the place of its row. -/
theorem Remaps.entries_perm (h : slice.Remaps identity drained) (hcomplete : drained.Complete identity)
    (hkind : identity.kind ≠ .none) :
    ((drained.index.entries.filterMap fun e => (slice.remapLocation (.memoryBatch e.location.1 e.location.2)).map
        fun location => (e.hash, location)).map fun e => (e.1, some e.2)).Perm
      (drained.activeRows.map fun row =>
        (identity.lookupKey row.2, slice.remapLocation (.memoryBatch row.1.1 row.1.2))) := by
  have hfilter : (drained.index.entries.filterMap fun e =>
      (slice.remapLocation (.memoryBatch e.location.1 e.location.2)).map fun location => (e.hash, location)).map
        (fun e => (e.1, some e.2)) =
      (drained.index.entries.filter fun e => (slice.remapLocation (.memoryBatch e.location.1 e.location.2)).isSome).map
        fun e => (e.hash, slice.remapLocation (.memoryBatch e.location.1 e.location.2)) := by
    induction drained.index.entries with
    | nil => rfl
    | cons e rest ih =>
      cases hlocation : slice.remapLocation (.memoryBatch e.location.1 e.location.2) with
      | none => simpa [hlocation] using ih
      | some location => simpa [hlocation] using ih
  rw [hfilter]
  refine perm_map_of_key (f := fun e => e.location) (g := Prod.fst) ?_ ?_
  · have hnodup : (drained.index.entries.filter fun e =>
        (slice.remapLocation (.memoryBatch e.location.1 e.location.2)).isSome).map (·.location) |>.Nodup :=
      hcomplete.nodup.sublist (List.filter_sublist.map _)
    refine (List.perm_ext_iff_of_nodup hnodup hcomplete.activeRows_nodup).mpr fun loc => ?_
    rw [List.mem_map, List.mem_map]
    constructor
    · rintro ⟨e, he, rfl⟩
      obtain ⟨row, hrow⟩ := DrainedRows.writes_iff.mp ((h.located e.location).mp (List.mem_filter.mp he).2)
      exact ⟨_, hrow, rfl⟩
    · rintro ⟨⟨_, row⟩, hrow, rfl⟩
      have hwrites := DrainedRows.writes_iff.mpr ⟨row, hrow⟩
      obtain ⟨e, he, rfl⟩ := List.mem_map.mp (hcomplete.indexed hkind _ hwrites)
      exact ⟨e, List.mem_filter.mpr ⟨he, (h.located e.location).mpr hwrites⟩, rfl⟩
  · rintro e he ⟨_, row⟩ hrow rfl
    obtain ⟨entry, hentry, hid, rows, row', hdata, hget, hhash⟩ := hcomplete.entries e (List.mem_of_mem_filter he)
    obtain ⟨entry', hentry', hid', ⟨rows', hdata', hget'⟩, -⟩ := DrainedRows.mem_activeRows.mp hrow
    cases List.inj_on_of_nodup_map hcomplete.ids hentry hentry' (hid.trans hid'.symm)
    cases hdata.symm.trans hdata'
    cases hget.symm.trans hget'
    rw [hhash]

theorem Remaps.remapIndex_returns_iff (h : slice.Remaps identity drained) (hcomplete : drained.Complete identity) :
    Returns slice.remapIndex (Indexes identity drained slice) ↔
      identity.kind = .none ∨ drained.activeRows = [] ∨
        (∀ e ∈ drained.index.entries, drained.BatchWritten e.location.1) ∧ slice.files.length < numFilesPerFlush := by
  by_cases hskipped : identity.kind = .none ∨ drained.activeRows = []
  · have hnone : slice.remapIndex = .ok none := by
      unfold remapIndex
      rw [if_pos]
      obtain hkind | hnil := hskipped
      · simp [h.oldIndex, MemIndex.isEmpty, hcomplete.unindexed hkind]
      · simp [h.files.mpr hnil]
    rw [hnone, Returns.ok_iff]
    refine iff_of_true ?_ (hskipped.imp_right .inl)
    rw [Indexes, if_pos hskipped]
  · rw [not_or] at hskipped
    obtain ⟨hkind, hactive⟩ := hskipped
    rw [or_iff_right hkind, or_iff_right hactive]
    have hfiles : slice.files ≠ [] := fun hnil => hactive (h.files.mp hnil)
    have hentries : drained.index.entries ≠ [] := by
      obtain ⟨⟨loc, row⟩, hrow⟩ := List.exists_mem_of_ne_nil _ hactive
      have hloc := hcomplete.indexed hkind loc (DrainedRows.writes_iff.mpr ⟨row, hrow⟩)
      intro hnil
      rw [hnil] at hloc
      cases hloc
    unfold remapIndex
    rw [if_neg (by simp [h.oldIndex, MemIndex.isEmpty, hentries, hfiles]), h.oldIndex]
    constructor
    · rintro ⟨newIndex, hok, -⟩
      obtain ⟨remapped, hremapped, hok⟩ := bind_eq_ok.mp hok
      obtain ⟨_, -, hok⟩ := bind_eq_ok.mp hok
      obtain ⟨fileId, hid, -⟩ := bind_eq_ok.mp hok
      refine ⟨fun e he => ?_, (getUniqueFileIdForFlush_ensures _ _ fileId hid).1⟩
      obtain ⟨place, hplace⟩ := exists_eq_ok_of_mapM hremapped he
      rw [remapIndexEntry_eq] at hplace
      split at hplace
      · next hmem => exact (h.flushed _).mp hmem
      · cases hplace
    · rintro ⟨hwritten, hlt⟩
      have hmap : drained.index.entries.mapM
          (remapIndexEntry slice.flushedBatches slice.rowOffsetMapping slice.files) =
          .ok (drained.index.entries.map fun e =>
            (slice.remapLocation (.memoryBatch e.location.1 e.location.2)).map fun location => (e.hash, location)) := by
        refine mapM_eq_ok fun e he => ?_
        rw [remapIndexEntry_eq, if_pos ((h.flushed _).mpr (hwritten e he))]
      have hperm := h.entries_perm hcomplete hkind
      have hcount : (drained.activeRows.map Prod.snd).length = drained.activeRows.length := List.length_map _
      have hlength := hperm.length_eq
      rw [List.length_map, List.length_map, ← hcount, ← h.rows, List.length_flatMap] at hlength
      rw [hmap, ok_bind]
      dsimp only
      rw [List.filterMap_map, Function.id_comp, StoragePanic.assert_pos (decide_eq_true hlength), ok_bind]
      unfold getUniqueFileIdForFlush
      rw [StoragePanic.assert_pos (decide_eq_true hlt), ok_bind, pure_bind]
      refine .pure ?_
      rw [Indexes, if_neg (by simp [hkind, hactive])]
      exact ⟨_, rfl, rfl, hperm⟩

theorem foldlM_written (h : drained.Complete identity) (writer : ArrowWriter Row) (parquetFileSize tableAutoIncrId : Nat) :
    Ensures ((drained.batches.filterMap filteredBatch).foldlM
        (SliceOutput.writeBatch writer parquetFileSize tableAutoIncrId) SliceOutput.new)
      (SliceOutput.Written (drained.batches.filterMap filteredBatch)) := by
  refine .foldlM (I := SliceOutput.Written) ⟨rfl, nofun, nofun⟩ fun done batch rest out heq hout => ?_
  refine hout.writeBatch writer parquetFileSize tableAutoIncrId ?_ ?_
  · have hids := h.filtered_nodup
    rw [heq, List.map_append, List.map_cons] at hids
    exact fun hmem => (List.nodup_append.mp hids).2.2 _ hmem _ List.mem_cons_self rfl
  · have hmem : batch ∈ drained.batches.filterMap filteredBatch := heq ▸ List.mem_append_right _ List.mem_cons_self
    obtain ⟨entry, -, hfiltered⟩ := List.mem_filterMap.mp hmem
    obtain ⟨-, rows, -, hrows, -⟩ := DrainedRows.filteredBatch_id hfiltered
    exact hrows ▸ activeRows_nodup entry.batch.deletions rows

theorem fileCount_eq_zero (hactive : drained.activeRows = []) (writer : ArrowWriter Row) (parquetFileSize : Nat) :
    drained.fileCount writer parquetFileSize = 0 := by
  rw [DrainedRows.fileCount, DrainedRows.activeRows_eq_nil_iff.mp hactive]
  rfl

theorem fileCount_pos (hactive : drained.activeRows ≠ []) (writer : ArrowWriter Row) (parquetFileSize : Nat) :
    0 < drained.fileCount writer parquetFileSize := by
  refine SliceOutput.countFiles_pos writer parquetFileSize (.inr fun hnil => hactive ?_)
  exact DrainedRows.activeRows_eq_nil_iff.mpr (List.map_eq_nil_iff.mp hnil)

/-- The slice with the files that are written. -/
def withOutput (slice : DiskSliceWriter Row Ident) (out : SliceOutput Row) : DiskSliceWriter Row Ident :=
  { slice with
    flushedBatches := (slice.batches.filterMap filteredBatch).map Prod.fst
    rowOffsetMapping := out.close.mapping
    files := out.close.files }

theorem write_eq (slice : DiskSliceWriter Row Ident) (writer : ArrowWriter Row) (parquetFileSize : Nat) :
    slice.write writer parquetFileSize =
      ((slice.batches.filterMap filteredBatch).foldlM
        (SliceOutput.writeBatch writer parquetFileSize slice.tableAutoIncrId) SliceOutput.new >>= fun out =>
        (slice.withOutput out).remapIndex >>= fun newIndex => pure { slice.withOutput out with newIndex }) := rfl

section Output

variable {out : SliceOutput Row} {writerLsn : Option Nat} {tableAutoIncrId : Nat}

theorem mem_placedRows_close {place : Nat × Nat} {row : Row} :
    (place, row) ∈ placedRows (out.close.allFiles.map (·.rows)) ↔
      ∃ file, out.close.files[place.1]? = some file ∧ file.rows[place.2]? = some row := by
  rw [mem_placedRows, SliceOutput.allFiles_close]
  constructor
  · rintro ⟨rows, hrows, hrow⟩
    obtain ⟨file, hfile, rfl⟩ := Option.map_eq_some_iff.mp (List.getElem?_map.symm.trans hrows)
    exact ⟨file, hfile, hrow⟩
  · rintro ⟨file, hfile, hrow⟩
    exact ⟨file.rows, by rw [List.getElem?_map, hfile]; rfl, hrow⟩

theorem rows_withOutput (h : SliceOutput.Written (drained.batches.filterMap filteredBatch) out.close) :
    out.close.files.flatMap (·.rows) = drained.activeRows.map Prod.snd := by
  have hsnd := congrArg (List.map Prod.snd) h.rows
  rw [List.map_map, List.map_map] at hsnd
  rw [List.flatMap_def, ← SliceOutput.allFiles_close, ← placedRows_rows]
  exact hsnd.symm

theorem remaps_withOutput (h : SliceOutput.Written (drained.batches.filterMap filteredBatch) out.close)
    (hfiles : out.close.files = [] ↔ drained.activeRows = []) :
    ((new drained.batches writerLsn tableAutoIncrId drained.index).withOutput out).Remaps identity drained where
  oldIndex := rfl
  flushed _ := DrainedRows.mem_filtered_iff
  rows := rows_withOutput h
  files := hfiles
  located loc := by
    rw [DrainedRows.writes_iff]
    constructor
    · intro hsome
      obtain ⟨location, hlocation⟩ := Option.isSome_iff_exists.mp hsome
      obtain ⟨place, hplace, -⟩ := Option.bind_eq_some_iff.mp hlocation
      obtain ⟨row, hrow, -⟩ := h.mem_of_lookup hplace
      exact ⟨row, hrow⟩
    · rintro ⟨row, hrow⟩
      obtain ⟨place, hplace, hplaced⟩ := h.lookup_of_mem hrow
      obtain ⟨file, hfile, -⟩ := mem_placedRows_close.mp hplaced
      have hlookup : out.close.mapping.lookup (loc.1, loc.2) = some place := hplace
      simp [remapLocation, withOutput, hlookup, hfile]

end Output

/-- A flush of drained rows writes and indexes its active rows exactly if there are ids for its files and the index
has no entry for a row of a batch whose rows are all deleted. -/
theorem write_returns_iff (h : drained.Complete identity) (writer : ArrowWriter Row) (parquetFileSize : Nat)
    (writerLsn : Option Nat) (tableAutoIncrId : Nat) :
    Returns ((new drained.batches writerLsn tableAutoIncrId drained.index).write writer parquetFileSize)
        (Flushed identity drained writer parquetFileSize) ↔
      drained.Flushable identity writer parquetFileSize := by
  have hnumberable : (SliceOutput.new : SliceOutput Row).Numberable := ⟨nofun, Nat.zero_le _⟩
  have hisOk := SliceOutput.foldlM_writeBatch_isOk_iff writer parquetFileSize tableAutoIncrId
    (drained.batches.filterMap filteredBatch) hnumberable
  have hcount := SliceOutput.foldlM_writeBatch_count writer parquetFileSize tableAutoIncrId
    (drained.batches.filterMap filteredBatch) hnumberable
  have hnew : (SliceOutput.new : SliceOutput Row).files.length + SliceOutput.countFiles writer parquetFileSize
      SliceOutput.new.opened ((drained.batches.filterMap filteredBatch).map fun batch => batch.2.map Prod.snd) =
        drained.fileCount writer parquetFileSize := Nat.zero_add _
  rw [hnew] at hisOk
  simp only [hnew] at hcount
  by_cases hle : drained.fileCount writer parquetFileSize ≤ numFilesPerFlush
  · obtain ⟨out, hout⟩ := hisOk.mpr hle
    have hwritten := (foldlM_written h writer parquetFileSize tableAutoIncrId out hout).close
    have hlength : out.close.files.length = drained.fileCount writer parquetFileSize :=
      (congrArg List.length (SliceOutput.files_close out)).trans (hcount out hout)
    have hfiles : out.close.files = [] ↔ drained.activeRows = [] := by
      rw [← List.length_eq_zero_iff, hlength]
      constructor
      · intro hzero
        by_contra hactive
        exact absurd (fileCount_pos hactive writer parquetFileSize) (hzero ▸ Nat.lt_irrefl 0)
      · exact fun hactive => fileCount_eq_zero hactive writer parquetFileSize
    have hnone : ∀ file ∈ (SliceOutput.new : SliceOutput Row).writer,
        (SliceOutput.new : SliceOutput Row).outRowIdx = file.2.flatten.length := nofun
    obtain ⟨rowNums, hrowNums, hnums⟩ := SliceOutput.recordRowNums_eq hnone hout
    rw [← SliceOutput.files_close] at hnums
    have hremaps : ((new drained.batches writerLsn tableAutoIncrId drained.index).withOutput out).Remaps identity drained :=
      remaps_withOutput hwritten hfiles
    have hflushed (newIndex : Option FileIndex) : Flushed identity drained writer parquetFileSize
          { (new drained.batches writerLsn tableAutoIncrId drained.index).withOutput out with newIndex } ↔
        Indexes identity drained ((new drained.batches writerLsn tableAutoIncrId drained.index).withOutput out)
          newIndex := by
      refine ⟨fun hflushed => hflushed.index, fun hindex => ⟨h.filtered, rows_withOutput hwritten, ?_, ?_, ?_, ?_, ?_, hindex⟩⟩
      · exact hrowNums.trans (congrArg Except.ok hnums.symm)
      · intro loc row hrow
        obtain ⟨place, hplace, hplaced⟩ := hwritten.lookup_of_mem hrow
        exact ⟨place, hplace, mem_placedRows_close.mp hplaced⟩
      · intro loc place hplace
        obtain ⟨row, hrow, -⟩ := hwritten.mem_of_lookup hplace
        exact DrainedRows.writes_iff.mpr ⟨row, hrow⟩
      · exact fun loc loc' place hplace hplace' => hwritten.lookup_injective hplace hplace'
      · intro place file row hfile hrow
        obtain ⟨loc, -, hplace⟩ := hwritten.lookup_surjective (mem_placedRows_close.mpr ⟨file, hfile, hrow⟩)
        exact ⟨loc, hplace⟩
    have hwrite : (new drained.batches writerLsn tableAutoIncrId drained.index).write writer parquetFileSize =
        ((new drained.batches writerLsn tableAutoIncrId drained.index).withOutput out).remapIndex >>= fun newIndex =>
          pure { (new drained.batches writerLsn tableAutoIncrId drained.index).withOutput out with newIndex } := by
      rw [write_eq]
      exact congrArg (· >>= _) hout
    have hpure (newIndex : Option FileIndex) : Returns (pure
        { (new drained.batches writerLsn tableAutoIncrId drained.index).withOutput out with newIndex } :
          Except StoragePanic (DiskSliceWriter Row Ident)) (Flushed identity drained writer parquetFileSize) ↔
        Indexes identity drained ((new drained.batches writerLsn tableAutoIncrId drained.index).withOutput out)
          newIndex := Returns.ok_iff.trans (hflushed newIndex)
    rw [hwrite, Returns.bind_iff]
    simp only [hpure]
    rw [hremaps.remapIndex_returns_iff h]
    change _ ∨ _ ∨ _ ∧ out.close.files.length < _ ↔ _
    rw [hlength, DrainedRows.Flushable]
    by_cases hkind : identity.kind = .none
    · rw [if_pos hkind, h.unindexed hkind]
      exact iff_of_true (.inl hkind) (.inr ⟨nofun, hle⟩)
    · rw [if_neg hkind, or_iff_right hkind]
      rfl
  · refine iff_of_false ?_ ?_
    · rintro ⟨slice, hok, -⟩
      obtain ⟨out, hout, -⟩ := bind_eq_ok.mp hok
      exact hle (hisOk.mp ⟨out, hout⟩)
    · rintro (hactive | ⟨-, hids⟩)
      · rw [fileCount_eq_zero hactive] at hle
        exact hle (Nat.zero_le _)
      · omega

end DiskSliceWriter
end Moonlink.Storage
