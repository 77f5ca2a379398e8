-- SUMMARY: The lookup of deletion records in the indices in memory and of files, one by one and in batches.
import Moonlink.Index.Addresses
import Moonlink.Index.MergeSpec

namespace Moonlink.Index

open Lib

/-! ## The indices of a table -/

inductive HashIndexPanic where
  | fileIndex (panic : IndexPanic)
  /-- "AppendOnly index does not support record lookups". -/
  | appendOnly
  | missingIdentity

/-- What lookups read of a `RawDeletionRecord`. -/
structure RawDeletionRecord (Ident : Type) where
  lookupKey : Key
  rowIdentity : Option Ident

/-- `MemIndex`, with entries in the order in which they are found. -/
inductive MemIndex (Ident : Type) where
  | singlePrimitive (entries : List (Key × RecordLocation))
  | key (entries : List (Key × Ident × RecordLocation))
  | fullRow (entries : List (Key × RecordLocation))
  | none

structure MooncakeIndex (Ident : Type) where
  inMemoryIndex : List (MemIndex Ident)
  fileIndices : List GlobalIndex

variable {Ident : Type} [DecidableEq Ident]

def MemIndex.findRecord : MemIndex Ident → RawDeletionRecord Ident →
    Except HashIndexPanic (List RecordLocation)
  | .singlePrimitive entries, record =>
    .ok ((entries.find? (·.1 = record.lookupKey)).map (·.2)).toList
  | .key entries, record =>
    -- The table compares the identities of the entries with this hash.
    match entries.filter (·.1 = record.lookupKey), record.rowIdentity with
    | [], _ => .ok []
    | _ :: _, .none => .error .missingIdentity
    | found, some identity => .ok ((found.find? (·.2.1 = identity)).map (·.2.2)).toList
  | .fullRow entries, record => .ok ((entries.filter (·.1 = record.lookupKey)).map (·.2))
  | .none, _ => .error .appendOnly

namespace MooncakeIndex

/-- The loop over the indices of files. -/
def searchFileIndices (index : MooncakeIndex Ident) (valueAndHashes : List (Key × Nat)) :
    Except HashIndexPanic (List (Key × RecordLocation)) := do
  return (← Except.mapError .fileIndex (index.fileIndices.mapM (·.searchValues valueAndHashes))).flatten

/-- The loop of `find_record` over the indices in memory. -/
def findInMemory (index : MooncakeIndex Ident) (record : RawDeletionRecord Ident) :
    Except HashIndexPanic (List RecordLocation) := do
  return (← index.inMemoryIndex.mapM (·.findRecord record)).flatten

/-- The loop of `find_record` over the indices of files. -/
def findInFiles (index : MooncakeIndex Ident) (key : Key) :
    Except HashIndexPanic (List RecordLocation) := do
  return (← index.searchFileIndices [(key, (splitmix64 key).toNat)]).map (·.2)

def findRecord (index : MooncakeIndex Ident) (record : RawDeletionRecord Ident) :
    Except HashIndexPanic (List RecordLocation) := do
  return (← index.findInMemory record) ++ (← index.findInFiles record.lookupKey)

/-- The locations in memory are deduplicated, the keys before they are looked up in files. -/
def findRecords (sort : UnstableSort) (index : MooncakeIndex Ident)
    (records : List (RawDeletionRecord Ident)) :
    Except HashIndexPanic (List (Key × RecordLocation)) := do
  let inMemoryRes ← index.inMemoryIndex.mapM fun memIndex => records.mapM fun record => do
    return (← memIndex.findRecord record).map (record.lookupKey, ·)
  let res := inMemoryRes.flatten.flatten.dedup
  if index.fileIndices.isEmpty then return res
  return res ++ (← index.searchFileIndices
    (GlobalIndex.prepareHashesForLookup sort (records.map (·.lookupKey))))

end MooncakeIndex

/-! ## Lookups in files -/

namespace GlobalIndex

/-- What a lookup of keys returns for an entry and a key is what a lookup of the key alone does. -/
theorem filter_answer (sort : UnstableSort) (keys : List Key) (files : List FileId) (key : Key) (e : Entry) :
    (answer files (prepareHashesForLookup sort keys) e).filter (·.1 = key) =
      if key ∈ keys then answer files [(key, (splitmix64 key).toNat)] e else [] := by
  unfold answer
  cases files[e.2.1]? with
  | none => simp
  | some fileId =>
    by_cases heq : (splitmix64 key).toNat = e.1
    · simp only [← heq, filter_prepareHashesForLookup]
      split <;> simp
    · refine (List.filter_eq_nil_iff.mpr fun p hp hkey => heq ?_).trans (by simp [heq])
      obtain ⟨lookup, hmem, rfl⟩ := List.mem_map.mp hp
      obtain ⟨hlookup, hhash⟩ := List.mem_filter.mp hmem
      rw [← of_decide_eq_true hkey, ← (mem_prepareHashesForLookup sort hlookup).2]
      exact of_decide_eq_true hhash

/-- The answers to a lookup of keys are for each key the same. -/
def Finds (found : Key → List (Key × RecordLocation)) (keys : List Key)
    (results : List (Key × RecordLocation)) : Prop :=
  ∀ key, (results.filter (·.1 = key)).Perm (if key ∈ keys then found key else [])

section

variable {found : Key → List (Key × RecordLocation)} {keys : List Key} {results : List (Key × RecordLocation)}

theorem Finds.mem_iff (h : Finds found keys results) (p : Key × RecordLocation) :
    p ∈ results ↔ p.1 ∈ keys ∧ p ∈ found p.1 := by
  have hmem := (h p.1).mem_iff (a := p)
  rw [List.mem_filter, and_iff_left (decide_eq_true rfl)] at hmem
  rw [hmem]
  split <;> simp [*]

theorem Finds.nodup_iff (h : Finds found keys results) :
    results.Nodup ↔ ∀ key ∈ keys, (found key).Nodup := by
  constructor
  · intro hnodup key hkey
    have hperm := h key
    rw [if_pos hkey] at hperm
    exact hperm.nodup_iff.mp (hnodup.filter _)
  · intro hnodup
    rw [List.nodup_iff_count_le_one]
    intro p
    have hfilter : (results.filter (·.1 = p.1)).count p = results.count p := List.count_filter (decide_eq_true rfl)
    rw [← hfilter, (h p.1).count_eq p]
    split
    · exact List.nodup_iff_count_le_one.mp (hnodup p.1 ‹_›) p
    · exact Nat.zero_le 1

end

end GlobalIndex

/-! ## Lookups of records -/

namespace MooncakeIndex

open GlobalIndexBuilder

variable {index : MooncakeIndex Ident}

theorem filter_answersOf (sort : UnstableSort) (keys : List Key) (key : Key)
    (indices : List GlobalIndex) (entriess : List (List Entry)) :
    (answersOf (GlobalIndex.prepareHashesForLookup sort keys) indices entriess).flatten.filter (·.1 = key) =
      if key ∈ keys then (answersOf [(key, (splitmix64 key).toNat)] indices entriess).flatten else [] := by
  induction indices generalizing entriess with
  | nil => simp [answersOf]
  | cons index indices ih =>
    cases entriess with
    | nil => simp [answersOf]
    | cons entries entriess =>
      rw [answersOf_cons, answersOf_cons, List.flatten_cons, List.filter_append, ih, List.filter_flatMap]
      simp only [GlobalIndex.filter_answer]
      split <;> simp

omit [DecidableEq Ident] in
theorem searchFileIndices_finds {entriess : List (List Entry)}
    (hholds : List.Forall₂ GlobalIndex.Holds index.fileIndices entriess)
    (htable : ∀ fileIndex ∈ index.fileIndices, fileIndex.TableInRange) (sort : UnstableSort) {keys : List Key}
    (hkeys : keys ≠ []) :
    Returns (index.searchFileIndices (GlobalIndex.prepareHashesForLookup sort keys)) (GlobalIndex.Finds
      (fun key => (answersOf [(key, (splitmix64 key).toNat)] index.fileIndices entriess).flatten) keys) := by
  obtain ⟨answers, hanswers, hperm⟩ := searchAll_returns hholds htable sort hkeys
  refine ⟨answers.flatten, by rw [searchFileIndices, hanswers]; rfl, fun key => ?_⟩
  exact (hperm.filter _).trans (.of_eq (filter_answersOf sort keys key index.fileIndices entriess))

omit [DecidableEq Ident] in
/-- What `find_record` finds in files for the key is what the lookup of any keys does. -/
theorem findInFiles_returns {found : Key → List (Key × RecordLocation)} {key : Key}
    (h : Returns (index.searchFileIndices (GlobalIndex.prepareHashesForLookup .stable [key]))
      (GlobalIndex.Finds found [key])) :
    Returns (index.findInFiles key) fun locations => (found key).Perm (locations.map (key, ·)) := by
  rw [GlobalIndex.prepareHashesForLookup_singleton] at h
  refine h.bind fun results hfinds => .pure ?_
  have hkeys : ∀ p ∈ results, p.1 = key := fun p hp => List.mem_singleton.mp ((hfinds.mem_iff p).mp hp).1
  have hperm := hfinds key
  rw [List.filter_eq_self.mpr fun p hp => decide_eq_true (hkeys p hp), if_pos (List.mem_singleton.mpr rfl)] at hperm
  refine hperm.symm.trans (.of_eq ?_)
  rw [List.map_map]
  conv_lhs => rw [← List.map_id results]
  exact List.map_congr_left fun p hp => Prod.ext (hkeys p hp) rfl

/-- What the indices in memory find for records that are found. -/
theorem exists_inMemory {records : List (RawDeletionRecord Ident)}
    (h : ∀ record ∈ records, ∃ locations, index.findRecord record = .ok locations) :
    ∃ found : MemIndex Ident → RawDeletionRecord Ident → List RecordLocation,
      ∀ memIndex ∈ index.inMemoryIndex, ∀ record ∈ records,
        memIndex.findRecord record = .ok (found memIndex record) := by
  refine ⟨fun memIndex record => match memIndex.findRecord record with
    | .ok locations => locations
    | .error _ => [], fun memIndex hmem record hrecord => ?_⟩
  obtain ⟨_, hfind⟩ := h record hrecord
  obtain ⟨_, hmemory, -⟩ := bind_eq_ok.mp hfind
  obtain ⟨_, hall, -⟩ := bind_eq_ok.mp hmemory
  obtain ⟨locations, heq⟩ := exists_eq_ok_of_mapM hall hmem
  simp only [heq]

/-- The batched lookup finds what the single ones do, and repeats a location only if the files do. -/
theorem findRecords_union (sort : UnstableSort) (records : List (RawDeletionRecord Ident)) {entriess : List (List Entry)}
    (hholds : List.Forall₂ GlobalIndex.Holds index.fileIndices entriess)
    (htable : ∀ fileIndex ∈ index.fileIndices, fileIndex.TableInRange) (hrecords : records ≠ [])
    (hfound : ∀ record ∈ records, ∃ locations, index.findRecord record = .ok locations) :
    Returns (index.findRecords sort records) fun res =>
      (∀ key location, (key, location) ∈ res ↔
        ∃ record ∈ records, record.lookupKey = key ∧ Returns (index.findRecord record) (location ∈ ·)) ∧
      (res.Nodup ↔ ∀ record ∈ records, Returns (index.findInFiles record.lookupKey) fun locations =>
        locations.Nodup ∧ ∀ record' ∈ records, record'.lookupKey = record.lookupKey →
          Returns (index.findInMemory record') (List.Disjoint locations)) := by
  obtain ⟨found, hfind⟩ := exists_inMemory hfound
  have hinMemory : ∀ record ∈ records,
      index.findInMemory record = .ok (index.inMemoryIndex.flatMap (found · record)) := by
    intro record hr
    rw [findInMemory, mapM_eq_ok fun memIndex hmem => hfind memIndex hmem record hr]
    rfl
  choose inFiles hinFiles hperm using fun key =>
    findInFiles_returns (searchFileIndices_finds hholds htable .stable (List.cons_ne_nil key []))
  have hkeys : records.map (·.lookupKey) ≠ [] := by simpa using hrecords
  obtain ⟨fileRes, hfileRes, hfile⟩ := searchFileIndices_finds hholds htable sort hkeys
  have hmemFiles : ∀ key location, (key, location) ∈ fileRes ↔
      ∃ record ∈ records, record.lookupKey = key ∧ location ∈ inFiles key := by
    intro key location
    rw [hfile.mem_iff, (hperm key).mem_iff]
    aesop
  have hnodupFiles : fileRes.Nodup ↔ ∀ record ∈ records, (inFiles record.lookupKey).Nodup := by
    rw [hfile.nodup_iff, List.forall_mem_map]
    refine forall₂_congr fun record _ => ?_
    rw [(hperm _).nodup_iff]
    exact List.nodup_map_iff (Prod.mk_right_injective _)
  let memoryRes := index.inMemoryIndex.map fun memIndex => records.map fun record =>
    (found memIndex record).map (record.lookupKey, ·)
  have hmemMemory : ∀ key location, (key, location) ∈ memoryRes.flatten.flatten.dedup ↔
      ∃ record ∈ records, record.lookupKey = key ∧ location ∈ index.inMemoryIndex.flatMap (found · record) := by
    intro key location
    simp only [memoryRes, List.mem_dedup, List.mem_flatten, List.mem_map, List.mem_flatMap]
    aesop
  have hres : index.findRecords sort records = .ok (memoryRes.flatten.flatten.dedup ++ fileRes) := by
    rw [findRecords, mapM_eq_ok fun memIndex hmem => mapM_eq_ok fun record hr => by
      rw [hfind memIndex hmem record hr]; rfl, ok_bind]
    cases hindices : index.fileIndices with
    | nil =>
      rw [searchFileIndices, hindices] at hfileRes
      cases hfileRes
      exact congrArg Except.ok (List.append_nil _).symm
    | cons _ _ =>
      rw [hfileRes]
      rfl
  refine ⟨_, hres, fun key location => ?_, ?_⟩
  · rw [List.mem_append, hmemMemory, hmemFiles, ← exists_or]
    refine exists_congr fun record => ?_
    rw [← and_or_left, ← and_or_left]
    refine and_congr_right fun hr => and_congr_right ?_
    rintro rfl
    rw [findRecord, hinMemory record hr, ok_bind, hinFiles]
    exact (Returns.ok_iff (P := (location ∈ ·)).trans List.mem_append).symm
  · rw [List.nodup_append', and_iff_right (List.nodup_dedup _), hnodupFiles]
    constructor
    · rintro ⟨hnodup, hdisjoint⟩ record hr
      refine ⟨_, hinFiles _, hnodup record hr, fun record' hr' hkey => ⟨_, hinMemory record' hr', ?_⟩⟩
      exact fun location hloc hloc' => hdisjoint ((hmemMemory _ location).mpr ⟨record', hr', hkey, hloc'⟩)
        ((hmemFiles _ location).mpr ⟨record, hr, rfl, hloc⟩)
    · intro h
      simp only [hinFiles, Returns.ok_iff] at h
      refine ⟨fun record hr => (h record hr).1, ?_⟩
      rintro ⟨key, location⟩ hmemory hfiles
      obtain ⟨record', hr', hkey, hloc'⟩ := (hmemMemory _ _).mp hmemory
      obtain ⟨record, hr, rfl, hloc⟩ := (hmemFiles _ _).mp hfiles
      have hdisjoint := (h record hr).2 record' hr' hkey
      rw [hinMemory record' hr', Returns.ok_iff] at hdisjoint
      exact hdisjoint hloc hloc'

/-- An index of one row. -/
theorem oneRow_returns : Returns (buildFromFlush .stable [7] [(5, 0, 1)] 3) fun fileIndex =>
    ∃ entries, fileIndex.Holds entries ∧ fileIndex.TableInRange ∧
      entries.flatMap (GlobalIndex.answer fileIndex.files [(5, (splitmix64 5).toNat)]) = [(5, .diskFile 7 1)] := by
  refine (buildFromFlush_holds .stable [7] [(5, 0, 1)] 3 (by decide) (by decide) (by decide) (by decide)).mono ?_
  rintro fileIndex ⟨hfiles, hrows, hholds⟩
  have htable : (createGlobalIndex ⟨1, [7]⟩).2.TableInRange := (tableInRange_iff (by decide)).mpr (by decide)
  refine ⟨_, hholds, tableInRange_of_le hholds (by decide) (Nat.le_of_eq hrows) htable, ?_⟩
  rw [List.map_cons, List.map_nil, List.perm_singleton.mp (UnstableSort.stable.perm _ _)]
  simp [GlobalIndex.answer, hfiles]

/-- A key with a location in memory, and one in a file. -/
def memoryAndFile (fileIndex : GlobalIndex) : MooncakeIndex Unit :=
  ⟨[.fullRow [(5, .memoryBatch 2 0)]], [fileIndex]⟩

theorem findRecords_union_twoRecords :
    Returns (buildFromFlush .stable [7] [(5, 0, 1)] 3) fun fileIndex =>
      Returns ((memoryAndFile fileIndex).findRecords .stable [⟨5, none⟩, ⟨5, none⟩]) fun res => ∀ location,
        (5, location) ∈ res ↔ Returns ((memoryAndFile fileIndex).findRecord ⟨5, none⟩) (location ∈ ·) := by
  refine oneRow_returns.mono ?_
  rintro fileIndex ⟨entries, hholds, htable, -⟩
  have htables : ∀ index ∈ (memoryAndFile fileIndex).fileIndices, index.TableInRange := List.forall_mem_singleton.mpr htable
  refine (findRecords_union .stable [⟨5, none⟩, ⟨5, none⟩] (.cons hholds .nil) htables (List.cons_ne_nil _ _)
    fun record hrecord => ?_).mono fun res h location => ?_
  · obtain ⟨locations, hlocations, -⟩ := findInFiles_returns
      (searchFileIndices_finds (.cons hholds .nil) htables .stable (List.cons_ne_nil record.lookupKey []))
    exact ⟨_, by rw [findRecord, hlocations]; rfl⟩
  · rw [h.1 5 location]
    simp

/-- A lookup of no keys panics if there is a file index, and locations that two of them have come twice. -/
theorem findRecords_not_union :
    Returns (buildFromFlush .stable [7] [(5, 0, 1)] 3) fun fileIndex =>
      (⟨[], [fileIndex]⟩ : MooncakeIndex Unit).findRecords .stable [] =
        .error (.fileIndex .lookupOutOfRange) ∧
      Returns ((⟨[], [fileIndex, fileIndex]⟩ : MooncakeIndex Unit).findRecords .stable [⟨5, none⟩])
        fun res => ¬ res.Nodup := by
  refine oneRow_returns.mono ?_
  rintro fileIndex ⟨entries, hholds, htable, hanswer⟩
  constructor
  · obtain ⟨block, hrep⟩ := hholds.represents
    have hsearch : fileIndex.searchValues [] = .error .lookupOutOfRange := by
      rw [GlobalIndex.searchValues, hrep.blocks]
      rfl
    have hfiles : [fileIndex].mapM (·.searchValues []) = .error .lookupOutOfRange := by
      rw [List.mapM_cons, hsearch]
      rfl
    have hsort : GlobalIndex.prepareHashesForLookup .stable [] = [] := by
      rw [GlobalIndex.prepareHashesForLookup, List.map_nil, (UnstableSort.stable.perm _ []).eq_nil]
      rfl
    rw [findRecords, List.map_nil, hsort, searchFileIndices, hfiles]
    rfl
  · have hprepare := GlobalIndex.prepareHashesForLookup_singleton .stable 5
    obtain ⟨answers, hanswers, hperm⟩ := searchAll_returns (.cons hholds (.cons hholds .nil))
      (by simpa using htable) .stable (List.cons_ne_nil 5 [])
    refine ⟨answers.flatten, ?_, fun hnodup => ?_⟩
    · rw [findRecords, List.map_cons, List.map_nil, searchFileIndices, hanswers]
      rfl
    · rw [hprepare, answersOf_cons, answersOf_cons, hanswer] at hperm
      exact absurd (hperm.nodup_iff.mp hnodup) (by simp)

end MooncakeIndex
end Moonlink.Index
