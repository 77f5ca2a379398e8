-- SUMMARY: The invariant of the object storage cache, kept by every operation; concurrent misses and the local copies they leave.
import Moonlink.Lib.TransitionSystem
import Moonlink.Storage.ObjectStorageCache

namespace Moonlink.ObjectCache

open Lib

/-- What an entry is about, without its references. -/
abbrev Content : Type := CacheEntry × Bool

def CacheEntryWrapper.content (w : CacheEntryWrapper) : Content := (w.cacheEntry, w.deletable)

def bytesOf (l : List Content) : Nat := (l.map (·.1.fileMetadata.fileSize)).sum

/-- The local copies among the cache files. -/
def filesOf (l : List Content) : List String := l.flatMap fun x => if x.2 then [x.1.cacheFilepath] else []

@[simp] theorem bytesOf_cons (x : Content) (l : List Content) :
    bytesOf (x :: l) = x.1.fileMetadata.fileSize + bytesOf l := by simp [bytesOf]

@[simp] theorem bytesOf_append (l l' : List Content) : bytesOf (l ++ l') = bytesOf l + bytesOf l' := by
  simp [bytesOf]

@[simp] theorem filesOf_content (w : CacheEntryWrapper) (l : List Content) :
    filesOf (w.content :: l) = w.evictedFile ++ filesOf l := rfl

theorem bytesOf_perm {l l' : List Content} (h : l.Perm l') : bytesOf l = bytesOf l' :=
  (h.map _).sum_nat

theorem filesOf_perm {l l' : List Content} (h : l.Perm l') : (filesOf l).Perm (filesOf l') :=
  h.flatMap_right _

theorem assert_contract {b : Bool} {p : CachePanic} {pre : Prop} (h : pre → b = true) :
    Contract (assert b p) pre fun _ => b = true := by
  cases b with
  | true => exact .ok rfl
  | false => exact .error fun hpre => by cases h hpre

/-- The state of one file: it has an evictable entry, a pinned one with its references, or none. -/
structure FileInv (evictable pinned : Option CacheEntryWrapper) (references : Nat) (requested : Prop) :
    Prop where
  unreferenced : ∀ w, evictable = some w → w.referenceCount = 0 ∧ pinned = none
  referenced : ∀ w, pinned = some w → w.referenceCount = references ∧ 0 < references
  unpinned : pinned = none → references = 0 ∧ ¬ requested

namespace ObjectStorageCacheInternal

variable {c c' : ObjectStorageCacheInternal} {id : TableUniqueFileId} {w : CacheEntryWrapper}

/-- The contents of all entries. -/
def contents (c : ObjectStorageCacheInternal) : List Content :=
  c.evictableCache.values.map (·.content) ++ c.nonEvictableCache.flatMapValues fun w => [w.content]

/-- The bytes of the entries that cannot be evicted. -/
def pinnedBytes (c : ObjectStorageCacheInternal) : Nat :=
  bytesOf (c.nonEvictableCache.flatMapValues fun w => [w.content])

/-- The file has no entry. -/
def Untracked (c : ObjectStorageCacheInternal) (id : TableUniqueFileId) : Prop :=
  c.evictableCache.lookup id = none ∧ c.nonEvictableCache.lookup id = none

instance : Decidable (c.Untracked id) := inferInstanceAs (Decidable (_ ∧ _))

structure Inv (c : ObjectStorageCacheInternal) (handles : List TableUniqueFileId) : Prop where
  bytes : c.curBytes = bytesOf c.contents
  le : c.curBytes ≤ c.config.maxBytes
  requested : c.evictedEntries.Nodup
  file : ∀ id, FileInv (c.evictableCache.lookup id) (c.nonEvictableCache.lookup id) (handles.count id)
    (id ∈ c.evictedEntries)

/-! ## Contents -/

theorem contents_of_evictable (h : c.evictableCache.lookup id = some w) :
    c.contents.Perm (w.content :: { c with evictableCache := c.evictableCache.erase id }.contents) :=
  ((LruCache.values_erase h).map (·.content)).append_right _

theorem contents_of_pinned (h : c.nonEvictableCache.lookup id = some w) :
    c.contents.Perm (w.content :: { c with nonEvictableCache := c.nonEvictableCache.erase id }.contents) :=
  ((AssocMap.flatMapValues_erase _ h).append_left _).trans List.perm_middle

theorem contents_insert (c : ObjectStorageCacheInternal) (id : TableUniqueFileId) (w : CacheEntryWrapper) :
    { c with nonEvictableCache := c.nonEvictableCache.insert id w }.contents.Perm
      (w.content :: { c with nonEvictableCache := c.nonEvictableCache.erase id }.contents) := by
  unfold contents
  rw [AssocMap.flatMapValues_insert]
  exact List.perm_middle

theorem contents_push (c : ObjectStorageCacheInternal) (id : TableUniqueFileId) (w : CacheEntryWrapper) :
    { c with evictableCache := c.evictableCache.push id w }.contents.Perm
      (w.content :: { c with evictableCache := c.evictableCache.erase id }.contents) :=
  ((LruCache.values_push _ id w).map (·.content)).append_right _

theorem erase_pinned_of_none (h : c.nonEvictableCache.lookup id = none) :
    { c with nonEvictableCache := c.nonEvictableCache.erase id }.contents = c.contents := by
  unfold contents
  rw [AssocMap.flatMapValues_erase_of_none _ h]

/-! ## Eviction -/

/-- Entries were evicted, with the files to delete. -/
structure Evicted (c c' : ObjectStorageCacheInternal) (files : List String) : Prop where
  config : c'.config = c.config
  pinned : c'.nonEvictableCache = c.nonEvictableCache
  requested : c'.evictedEntries = c.evictedEntries
  sub : ∀ id w, c'.evictableCache.lookup id = some w → c.evictableCache.lookup id = some w
  bytes : c'.curBytes = bytesOf c'.contents
  le : c'.curBytes ≤ c.curBytes
  files : (filesOf c.contents).Perm (files ++ filesOf c'.contents)

/-- How eviction ends. -/
def EvictionEnds (maxBytes : Nat) (tolerateInsufficiency : Bool) (c : ObjectStorageCacheInternal)
    (out : ObjectStorageCacheInternal × Bool × List String) : Prop :=
  Evicted c out.1 out.2.2 ∧
    if out.2.1 then out.1.curBytes ≤ maxBytes ∧ (c.curBytes ≤ maxBytes → out.1 = c ∧ out.2.2 = [])
    else tolerateInsufficiency = true ∧ maxBytes < c.pinnedBytes ∧ out.1.curBytes = c.pinnedBytes

theorem pinnedBytes_le (c : ObjectStorageCacheInternal) : c.pinnedBytes ≤ bytesOf c.contents := by
  unfold pinnedBytes contents
  rw [bytesOf_append]
  exact Nat.le_add_left _ _

theorem pinnedBytes_of_empty (h : c.evictableCache = .empty) : bytesOf c.contents = c.pinnedBytes := by
  simp [contents, pinnedBytes, h, LruCache.empty, LruCache.values]

theorem fitsAlready {maxBytes : Nat} {tolerateInsufficiency : Bool} (hbytes : c.curBytes = bytesOf c.contents)
    (hle : c.curBytes ≤ maxBytes) : EvictionEnds maxBytes tolerateInsufficiency c (c, true, []) :=
  ⟨⟨rfl, rfl, rfl, fun _ _ h => h, hbytes, Nat.le_refl _, List.Perm.refl _⟩, hle, fun _ => ⟨rfl, rfl⟩⟩

theorem nothingToEvict {maxBytes : Nat} {tolerateInsufficiency : Bool}
    (hbytes : c.curBytes = bytesOf c.contents) (hnone : c.evictableCache = .empty)
    (hgt : maxBytes < c.curBytes) :
    Contract (do
        assert tolerateInsufficiency .cannotReduceDiskUsage
        return (c, false, []))
      (tolerateInsufficiency = true ∨ c.pinnedBytes ≤ maxBytes)
      (EvictionEnds maxBytes tolerateInsufficiency c) := by
  have hpinned := hbytes.trans (pinnedBytes_of_empty hnone)
  refine .bind (assert_contract fun hor => hor.resolve_right (by omega)) fun _ htolerate => ?_
  exact .pure ⟨⟨rfl, rfl, rfl, fun _ _ h => h, hbytes, Nat.le_refl _, List.Perm.refl _⟩, htolerate,
    hpinned ▸ hgt, hpinned⟩

theorem evictLoop_contract (maxBytes : Nat) (tolerateInsufficiency : Bool) (rounds : Nat)
    (hrounds : c.evictableCache.entries.length ≤ rounds)
    (hrefs : ∀ id w, c.evictableCache.lookup id = some w → w.referenceCount = 0)
    (hbytes : c.curBytes = bytesOf c.contents) :
    Contract (evictLoop maxBytes tolerateInsufficiency c rounds)
      (tolerateInsufficiency = true ∨ c.pinnedBytes ≤ maxBytes)
      (EvictionEnds maxBytes tolerateInsufficiency c) := by
  induction rounds generalizing c with
  | zero =>
    have hnone := LruCache.eq_empty_of_length (Nat.le_zero.mp hrounds)
    unfold evictLoop
    split
    · rename_i hgt
      exact nothingToEvict hbytes hnone hgt
    · rename_i hle
      exact .pure (fitsAlready hbytes (Nat.not_lt.mp hle))
  | succ rounds ih =>
    unfold evictLoop
    split
    · rename_i hgt
      split
      · rename_i hpop
        exact nothingToEvict hbytes (LruCache.popLru_eq_none hpop) hgt
      · rename_i id w evictableCache hpop
        obtain ⟨hlook, rfl, hlength⟩ := LruCache.popLru_eq_some hpop
        refine .bind (assert_contract fun _ => decide_eq_true (hrefs id w hlook)) fun _ _ => ?_
        have hperm := contents_of_evictable hlook
        have hcontents := bytesOf_perm hperm
        have hrest := ih (c := { c with
            evictableCache := c.evictableCache.erase id
            curBytes := c.curBytes - w.fileSize })
          (by simp only; omega)
          (fun id' w' hlook' => by
            rw [LruCache.lookup_erase] at hlook'
            split at hlook'
            · cases hlook'
            · exact hrefs id' w' hlook')
          (by
            simp only [bytesOf_cons] at hcontents
            change c.curBytes - w.fileSize = bytesOf { c with evictableCache := c.evictableCache.erase id }.contents
            have hsize : w.fileSize = w.content.1.fileMetadata.fileSize := rfl
            omega)
        refine .bind (hrest.mono (fun h => h) fun _ h => h) ?_
        rintro ⟨c', evicted, files⟩ ⟨hevicted, hends⟩
        refine .pure ⟨?_, ?_⟩
        · exact { hevicted with
            sub := fun id' w' hlook' => by
              have h := hevicted.sub id' w' hlook'
              rw [LruCache.lookup_erase] at h
              split at h
              · cases h
              · exact h
            le := Nat.le_trans hevicted.le (Nat.sub_le _ _)
            files := by
              rw [List.append_assoc]
              exact (filesOf_perm hperm).trans (hevicted.files.append_left _) }
        · cases evicted with
          | true => exact ⟨hends.1, fun hle => absurd hgt (Nat.not_lt.mpr hle)⟩
          | false => exact hends
    · rename_i hle
      exact .ok (fitsAlready hbytes (Nat.not_lt.mp hle))

/-! ## Insertion -/

/-- Before the insertion of a first reference: the bytes are counted, and the other files are as they were. -/
structure Ready (c : ObjectStorageCacheInternal) (id : TableUniqueFileId) (w : CacheEntryWrapper)
    (handles : List TableUniqueFileId) : Prop where
  bytes : c.curBytes = bytesOf c.contents + w.fileSize
  requested : c.evictedEntries.Nodup
  others : ∀ id', id' ≠ id → FileInv (c.evictableCache.lookup id') (c.nonEvictableCache.lookup id')
    (handles.count id') (id' ∈ c.evictedEntries)
  unreferenced : handles.count id = 0
  notRequested : id ∉ c.evictedEntries
  references : w.referenceCount = 1

/-- How an insertion ends: the entry is pinned, or it does not fit. -/
def InsertionEnds (c : ObjectStorageCacheInternal) (id : TableUniqueFileId) (w : CacheEntryWrapper)
    (handles : List TableUniqueFileId) (tolerateInsufficiency : Bool)
    (out : ObjectStorageCacheInternal × Bool × List String) : Prop :=
  out.1.config = c.config ∧
  if out.2.1 then
    out.1.Inv (id :: handles) ∧
      (w.evictedFile ++ filesOf c.contents).Perm (out.2.2 ++ filesOf out.1.contents) ∧
      (c.curBytes ≤ c.config.maxBytes → out.2.2 = [])
  else
    tolerateInsufficiency = true ∧ c.config.maxBytes < c.pinnedBytes + w.fileSize ∧
      out.1.Ready id w handles ∧ out.1.Untracked id ∧ out.1.curBytes ≤ c.curBytes ∧
      (filesOf c.contents).Perm (out.2.2 ++ filesOf out.1.contents)

variable {handles : List TableUniqueFileId}

theorem count_cons_ne {id' : TableUniqueFileId} (hne : id' ≠ id) :
    (id :: handles).count id' = handles.count id' :=
  List.count_cons_of_ne (Ne.symm hne)

theorem insertNonEvictable_contract (tolerateInsufficiency : Bool)
    (hready : c.Untracked id → c.Ready id w handles) :
    Contract (c.insertNonEvictable id w c.config.maxBytes tolerateInsufficiency)
      (c.Untracked id ∧ (tolerateInsufficiency = true ∨ c.pinnedBytes + w.fileSize ≤ c.config.maxBytes))
      (InsertionEnds c id w handles tolerateInsufficiency) := by
  refine .bind (assert_contract fun hpre => by rw [hpre.1.1]; rfl) fun _ hevictable => ?_
  refine .bind (assert_contract fun hpre => by rw [hpre.1.2]; rfl) fun _ hpinned => ?_
  rw [Option.isNone_iff_eq_none] at hevictable hpinned
  have hready := hready ⟨hevictable, hpinned⟩
  have hperm := contents_insert c id w
  rw [erase_pinned_of_none hpinned] at hperm
  have hsize : w.content.1.fileMetadata.fileSize = w.fileSize := rfl
  have hpinnedBytes : { c with nonEvictableCache := c.nonEvictableCache.insert id w }.pinnedBytes =
      c.pinnedBytes + w.fileSize := by
    unfold pinnedBytes
    rw [AssocMap.flatMapValues_insert, AssocMap.flatMapValues_erase_of_none _ hpinned]
    simp [hsize, Nat.add_comm]
  have hevict := evictLoop_contract c.config.maxBytes tolerateInsufficiency
    (c := { c with nonEvictableCache := c.nonEvictableCache.insert id w })
    c.evictableCache.entries.length (Nat.le_refl _)
    (fun id' w' hlook => by
      by_cases hid : id' = id
      · subst hid
        rw [hevictable] at hlook
        cases hlook
      · exact ((hready.others id' hid).unreferenced w' hlook).1)
    (by
      rw [bytesOf_perm hperm, bytesOf_cons, hsize, Nat.add_comm]
      exact hready.bytes)
  refine .bind (hevict.mono (fun hpre => by rw [hpinnedBytes]; exact hpre.2) fun _ h => h) ?_
  rintro ⟨c', evicted, files⟩ ⟨hevicted, hends⟩
  have hothers (id' : TableUniqueFileId) (hid : id' ≠ id) :
      FileInv (c'.evictableCache.lookup id') (c.nonEvictableCache.lookup id') (handles.count id')
        (id' ∈ c'.evictedEntries) := by
    have h := hready.others id' hid
    refine ⟨fun w' hw' => h.unreferenced w' (hevicted.sub id' w' hw'), h.referenced, ?_⟩
    rw [show c'.evictedEntries = c.evictedEntries from hevicted.requested]
    exact h.unpinned
  have hnotEvictable : c'.evictableCache.lookup id = none := by
    cases hlook : c'.evictableCache.lookup id with
    | none => rfl
    | some w' => exact (hevicted.sub id w' hlook).symm.trans hevictable
  cases evicted with
  | true =>
    refine .pure ⟨hevicted.config, ?_, ?_, fun hle => (hends.2 hle).2⟩
    · refine ⟨hevicted.bytes, ?_, ?_, fun id' => ?_⟩
      · rw [show c'.config = c.config from hevicted.config]
        exact hends.1
      · rw [show c'.evictedEntries = c.evictedEntries from hevicted.requested]
        exact hready.requested
      · rw [show c'.nonEvictableCache = c.nonEvictableCache.insert id w from hevicted.pinned,
          AssocMap.lookup_insert_ite]
        by_cases hid : id' = id
        · subst hid
          rw [if_pos rfl, hnotEvictable, List.count_cons_self, hready.unreferenced]
          refine ⟨nofun, ?_, nofun⟩
          rintro w' ⟨⟩
          exact ⟨hready.references, Nat.one_pos⟩
        · rw [if_neg hid, count_cons_ne hid]
          exact hothers id' hid
    · have hfiles := filesOf_perm hperm
      rw [filesOf_content] at hfiles
      exact hfiles.symm.trans hevicted.files
  | false =>
    obtain ⟨htolerate, hgt, hcur⟩ := hends
    have hpinned' : c'.nonEvictableCache = c.nonEvictableCache.insert id w := hevicted.pinned
    have hlook : c'.nonEvictableCache.lookup id = some w := by
      rw [hpinned', AList.lookup_insert]
    have herase : c'.nonEvictableCache.erase id = c.nonEvictableCache := by
      rw [hpinned', AssocMap.erase_insert, AssocMap.erase_of_none hpinned]
    have hcontents := contents_of_pinned hlook
    rw [hpinnedBytes] at hgt
    refine .pure ⟨hevicted.config, htolerate, hgt, ?_, ⟨hnotEvictable, ?_⟩, hevicted.le, ?_⟩
    · refine ⟨?_, ?_, fun id' hid => ?_, hready.unreferenced, ?_, hready.references⟩
      · have hbytes : c'.curBytes = bytesOf c'.contents := hevicted.bytes
        rw [bytesOf_perm hcontents, bytesOf_cons, hsize, Nat.add_comm] at hbytes
        exact hbytes
      · rw [show c'.evictedEntries = c.evictedEntries from hevicted.requested]
        exact hready.requested
      · simp only [herase]
        exact hothers id' hid
      · simp only [show c'.evictedEntries = c.evictedEntries from hevicted.requested]
        exact hready.notRequested
    · simp only [herase]
      exact hpinned
    · have hfiles := (filesOf_perm hperm).symm.trans (hevicted.files.trans
        ((filesOf_perm hcontents).append_left files))
      rw [filesOf_content, filesOf_content] at hfiles
      exact (List.perm_append_left_iff _).mp (hfiles.trans (List.perm_append_comm_assoc _ _ _))

/-! ## Operations -/

/-- The remote file takes the place of the cache file: only for the last handle, and not if the
entry goes with it. -/
def Replaces (isLocalFilepath : String → Bool) (c : ObjectStorageCacheInternal) (id : TableUniqueFileId)
    (remotePath : String) (handles : List TableUniqueFileId) : Prop :=
  c.config.optimizeLocalFilesystem = true ∧ isLocalFilepath remotePath = true ∧
    id ∉ c.evictedEntries ∧ handles.count id = 1

instance (isLocalFilepath : String → Bool) (remotePath : String) (handles : List TableUniqueFileId) :
    Decidable (c.Replaces isLocalFilepath id remotePath handles) :=
  inferInstanceAs (Decidable (_ ∧ _))

/-- The local copies of the entries are those from before and `added`, less the returned ones. -/
def Accounts (c c' : ObjectStorageCacheInternal) (added files : List String) : Prop :=
  (added ++ filesOf c.contents).Perm (files ++ filesOf c'.contents)

namespace Inv

theorem notEvictable (h : c.Inv handles) (hlook : c.nonEvictableCache.lookup id = some w) :
    c.evictableCache.lookup id = none := by
  cases hevictable : c.evictableCache.lookup id with
  | none => rfl
  | some w' => cases hlook.symm.trans ((h.file id).unreferenced w' hevictable).2

theorem mem_handles_iff (h : c.Inv handles) :
    id ∈ handles ↔ ∃ w, c.nonEvictableCache.lookup id = some w := by
  rw [← List.count_pos_iff]
  cases hlook : c.nonEvictableCache.lookup id with
  | none => simp [((h.file id).unpinned hlook).1]
  | some w => simp [((h.file id).referenced w hlook).2]

/-- The same pinned file with other references. -/
theorem setPinned (h : c.Inv handles) {w' : CacheEntryWrapper} {handles' : List TableUniqueFileId}
    (hlook : c.nonEvictableCache.lookup id = some w) (hsize : w'.fileSize = w.fileSize)
    (hcount : w'.referenceCount = handles'.count id) (hpos : 0 < handles'.count id)
    (hothers : ∀ id', id' ≠ id → handles'.count id' = handles.count id') :
    { c with nonEvictableCache := c.nonEvictableCache.insert id w' }.Inv handles' where
  bytes := by
    rw [bytesOf_perm (contents_insert c id w'), bytesOf_cons]
    rw [show w'.content.1.fileMetadata.fileSize = w.content.1.fileMetadata.fileSize from hsize,
      ← bytesOf_cons, ← bytesOf_perm (contents_of_pinned hlook)]
    exact h.bytes
  le := h.le
  requested := h.requested
  file id' := by
    simp only [AssocMap.lookup_insert_ite]
    by_cases hid : id' = id
    · subst hid
      rw [if_pos rfl, h.notEvictable hlook]
      refine ⟨fun w hw => (by cases hw), ?_, fun hnone => (by cases hnone)⟩
      rintro _ ⟨⟩
      exact ⟨hcount, hpos⟩
    · rw [if_neg hid, hothers id' hid]
      exact h.file id'

theorem accounts_setPinned {w' : CacheEntryWrapper} (hlook : c.nonEvictableCache.lookup id = some w)
    (hcontent : w'.content = w.content) :
    Accounts c { c with nonEvictableCache := c.nonEvictableCache.insert id w' } [] [] := by
  refine filesOf_perm ((contents_of_pinned hlook).trans ?_)
  rw [← hcontent]
  exact (contents_insert c id w').symm

theorem ready (h : c.Inv handles) (w : CacheEntryWrapper) (huntracked : c.Untracked id)
    (hw : w.referenceCount = 1) :
    { c with curBytes := c.curBytes + w.fileSize }.Ready id w handles where
  bytes := congrArg (· + w.fileSize) h.bytes
  requested := h.requested
  others id' _ := h.file id'
  unreferenced := ((h.file id).unpinned huntracked.2).1
  notRequested := ((h.file id).unpinned huntracked.2).2
  references := hw

theorem importCacheEntry (h : c.Inv handles) (entry : CacheEntry) :
    Contract (c.importCacheEntry id entry)
      (c.Untracked id ∧ c.pinnedBytes + entry.fileMetadata.fileSize ≤ c.config.maxBytes)
      fun out => out.1.config = c.config ∧ out.1.Inv (id :: handles) ∧
        Accounts c out.1 [entry.cacheFilepath] out.2 := by
  have hready : { c with curBytes := c.curBytes + entry.fileMetadata.fileSize }.Untracked id →
      { c with curBytes := c.curBytes + entry.fileMetadata.fileSize }.Ready id ⟨entry, 1, true⟩ handles :=
    fun huntracked => h.ready ⟨entry, 1, true⟩ huntracked rfl
  have hinsert := insertNonEvictable_contract false hready
  refine .bind (hinsert.mono (fun hpre => ⟨hpre.1, .inr hpre.2⟩) fun _ h => h) ?_
  rintro ⟨c', inserted, files⟩ ⟨hconfig, hends⟩
  cases inserted with
  | true => exact .pure ⟨hconfig, hends.1, hends.2.1⟩
  | false => exact absurd hends.1 (by simp)

theorem insertFetched (h : c.Inv handles) (hw : w.referenceCount = 1) :
    Contract (c.insertFetched id w) (c.Untracked id) fun out => out.1.config = c.config ∧
      ((out.2.1 = some w.cacheEntry ∧ out.1.Inv (id :: handles) ∧
          Accounts c out.1 w.evictedFile out.2.2) ∨
        (out.2.1 = none ∧ c.config.maxBytes < c.pinnedBytes + w.fileSize ∧ out.1.Inv handles ∧
          Accounts c out.1 [] out.2.2)) := by
  have hready : { c with curBytes := c.curBytes + w.fileSize }.Untracked id →
      { c with curBytes := c.curBytes + w.fileSize }.Ready id w handles :=
    fun huntracked => h.ready w huntracked hw
  have hinsert := insertNonEvictable_contract true hready
  refine .bind (hinsert.mono (fun hpre => ⟨hpre, .inl rfl⟩) fun _ h => h) ?_
  rintro ⟨c', inserted, files⟩ ⟨hconfig, hends⟩
  cases inserted with
  | true => exact .pure ⟨hconfig, .inl ⟨rfl, hends.1, hends.2.1⟩⟩
  | false =>
    obtain ⟨-, hgt, hready, huntracked, hle, hfiles⟩ := hends
    have hbytes : c'.curBytes = bytesOf c'.contents + w.fileSize := hready.bytes
    have hle : c'.curBytes ≤ c.curBytes + w.fileSize := hle
    have hmax := h.le
    refine .bind (assert_contract fun _ => decide_eq_true (by omega)) fun _ _ => ?_
    refine .pure ⟨hconfig, .inr ⟨rfl, hgt, ?_, hfiles⟩⟩
    refine ⟨?_, ?_, hready.requested, fun id' => ?_⟩
    · change c'.curBytes - w.fileSize = bytesOf c'.contents
      omega
    · change c'.curBytes - w.fileSize ≤ c'.config.maxBytes
      rw [show c'.config = c.config from hconfig]
      omega
    · by_cases hid : id' = id
      · subst hid
        refine ⟨fun w' hw' => ?_, fun w' hw' => ?_, fun _ => ⟨hready.unreferenced, hready.notRequested⟩⟩
        · cases huntracked.1.symm.trans hw'
        · cases huntracked.2.symm.trans hw'
      · exact hready.others id' hid

theorem addReference (h : c.Inv handles) (hlook : c.nonEvictableCache.lookup id = some w) :
    { c with nonEvictableCache :=
      c.nonEvictableCache.insert id { w with referenceCount := w.referenceCount + 1 } }.Inv (id :: handles) := by
  refine h.setPinned hlook rfl ?_ ?_ fun id' hid => count_cons_ne hid
  · rw [List.count_cons_self, ← ((h.file id).referenced w hlook).1]
  · rw [List.count_cons_self]
    exact Nat.succ_pos _

theorem incrementReferenceCount (h : c.Inv handles) :
    Contract (c.incrementReferenceCount id) (id ∈ handles) fun c' => c'.config = c.config ∧
      c'.Inv (id :: handles) ∧ Accounts c c' [] [] := by
  unfold ObjectStorageCacheInternal.incrementReferenceCount
  split
  · rename_i w hlook
    have href := (h.file id).referenced w hlook
    refine .bind (assert_contract fun _ => decide_eq_true (by omega)) fun _ _ => ?_
    exact .pure ⟨rfl, h.addReference hlook, accounts_setPinned hlook rfl⟩
  · rename_i hlook
    refine .error fun hmem => ?_
    obtain ⟨w, hw⟩ := h.mem_handles_iff.mp hmem
    cases hlook.symm.trans hw

/-- A hit is pinned, and a miss changes nothing. -/
theorem getCached (h : c.Inv handles) : Contract (c.getCached id) True fun out =>
    out.1.config = c.config ∧
      ((∃ entry, out.2 = some entry ∧ out.1.Inv (id :: handles) ∧ Accounts c out.1 [] []) ∨
        (out = (c, none) ∧ c.Untracked id)) := by
  unfold ObjectStorageCacheInternal.getCached
  split
  · rename_i w hlook
    have href := (h.file id).referenced w hlook
    refine .bind (assert_contract fun _ => decide_eq_true (by omega)) fun _ _ => ?_
    exact .pure ⟨rfl, .inl ⟨_, rfl, h.addReference hlook, accounts_setPinned hlook rfl⟩⟩
  · rename_i hpinned
    split
    · rename_i w hlook
      have hzero := ((h.file id).unreferenced w hlook).1
      refine .bind (assert_contract fun _ => decide_eq_true hzero) fun _ _ => ?_
      have hperm := contents_of_evictable hlook
      have hready : { c with evictableCache := c.evictableCache.erase id }.Ready id
          { w with referenceCount := w.referenceCount + 1 } handles := by
        refine ⟨?_, h.requested, fun id' hid => ?_, ((h.file id).unpinned hpinned).1,
          ((h.file id).unpinned hpinned).2, by rw [hzero]⟩
        · refine h.bytes.trans ?_
          rw [bytesOf_perm hperm, bytesOf_cons, Nat.add_comm]
          rfl
        · simp only [LruCache.lookup_erase, if_neg hid]
          exact h.file id'
      have hinsert := insertNonEvictable_contract true
        fun _ => hready
      refine .bind (hinsert.mono (fun _ => ⟨⟨?_, hpinned⟩, .inl rfl⟩) fun _ h => h) ?_
      · simp [LruCache.lookup_erase]
      rintro ⟨c', inserted, files⟩ ⟨hconfig, hends⟩
      cases inserted with
      | true =>
        obtain ⟨hinv, hfiles, hnil⟩ := hends
        have hnil : files = [] := hnil h.le
        subst hnil
        refine .bind (assert_contract fun _ => rfl) fun _ _ => ?_
        refine .pure ⟨hconfig, .inl ⟨_, rfl, hinv, ?_⟩⟩
        have hall := filesOf_perm hperm
        rw [filesOf_content] at hall
        exact hall.trans hfiles
      | false =>
        -- The bytes of the entry were counted before, so it fits.
        obtain ⟨-, hgt, -⟩ := hends
        have hbytes := hready.bytes
        have hle := pinnedBytes_le { c with evictableCache := c.evictableCache.erase id }
        have hmax := h.le
        simp only at hgt hbytes
        omega
    · rename_i hlook
      exact .ok ⟨rfl, .inr ⟨rfl, hlook, hpinned⟩⟩

/-! ### Releases -/

/-- How the release of a handle ends: other handles stay, or the entry goes, or it becomes evictable. -/
inductive Released (c c' : ObjectStorageCacheInternal) (id : TableUniqueFileId)
    (handles : List TableUniqueFileId) : List String → Prop where
  | shared (hcount : 1 < handles.count id) (hrequested : c'.evictedEntries = c.evictedEntries)
      (hpinned : (c'.nonEvictableCache.lookup id).isSome = true) : Released c c' id handles []
  | removed {w : CacheEntryWrapper} {files : List String} (hcount : handles.count id = 1)
      (hrequested : id ∈ c.evictedEntries) (hold : c.nonEvictableCache.lookup id = some w)
      (hfiles : files = w.evictedFile) (huntracked : c'.Untracked id) (hgone : id ∉ c'.evictedEntries) :
      Released c c' id handles files
  | evictable {w w' : CacheEntryWrapper} (hcount : handles.count id = 1) (hnot : id ∉ c.evictedEntries)
      (hrequested : c'.evictedEntries = c.evictedEntries) (hold : c.nonEvictableCache.lookup id = some w)
      (hlook : c'.evictableCache.lookup id = some w') (hcontent : w'.content = w.content) :
      Released c c' id handles []

theorem count_erase_ne {id' : TableUniqueFileId} (hne : id' ≠ id) :
    (handles.erase id).count id' = handles.count id' :=
  List.count_erase_of_ne hne

theorem unreference (h : c.Inv handles) :
    Contract (c.unreference id) (id ∈ handles) fun out => out.1.config = c.config ∧
      out.1.Inv (handles.erase id) ∧ Accounts c out.1 [] out.2 ∧ Released c out.1 id handles out.2 := by
  unfold ObjectStorageCacheInternal.unreference
  split
  · rename_i hlook
    refine .error fun hmem => ?_
    obtain ⟨w, hw⟩ := h.mem_handles_iff.mp hmem
    cases hlook.symm.trans hw
  · rename_i w hlook
    obtain ⟨href, hpos⟩ := (h.file id).referenced w hlook
    have hperm := contents_of_pinned hlook
    have hbytes := h.bytes
    have hmax := h.le
    rw [bytesOf_perm hperm, bytesOf_cons] at hbytes
    have hsize : w.content.1.fileMetadata.fileSize = w.fileSize := rfl
    simp only
    split
    · rename_i hlast
      have hcount : handles.count id = 1 := by omega
      have hzero : (handles.erase id).count id = 0 := by rw [List.count_erase_self, hcount]
      split
      · rename_i hrequested
        rw [List.contains_iff_mem] at hrequested
        have hgone : id ∉ c.evictedEntries.erase id :=
          fun hmem => ((List.Nodup.mem_erase_iff h.requested).mp hmem).1 rfl
        refine .bind (assert_contract fun _ => decide_eq_true ?_) fun _ _ => .pure ⟨rfl, ?_, ?_, ?_⟩
        · change w.fileSize ≤ c.curBytes
          omega
        · refine ⟨?_, ?_, h.requested.erase id, fun id' => ?_⟩
          · change c.curBytes - w.fileSize = _
            rw [hbytes, hsize, Nat.add_sub_cancel_left]
            rfl
          · exact Nat.le_trans (Nat.sub_le _ _) hmax
          · simp only [AssocMap.lookup_erase_ite]
            by_cases hid : id' = id
            · subst hid
              rw [if_pos rfl, h.notEvictable hlook, hzero]
              exact ⟨fun w hw => (by cases hw), fun w hw => (by cases hw), fun _ => ⟨rfl, hgone⟩⟩
            · rw [if_neg hid, count_erase_ne hid, List.mem_erase_of_ne hid]
              exact h.file id'
        · have hfiles := filesOf_perm hperm
          rw [filesOf_content] at hfiles
          exact hfiles
        · refine .removed hcount hrequested hlook rfl ⟨h.notEvictable hlook, ?_⟩ hgone
          simp [AList.lookup_erase]
      · rename_i hrequested
        rw [List.contains_iff_mem] at hrequested
        have hmoved := contents_push { c with nonEvictableCache := c.nonEvictableCache.erase id } id
          { w with referenceCount := w.referenceCount - 1 }
        rw [LruCache.erase_of_none (h.notEvictable hlook)] at hmoved
        have hsame := hperm.trans hmoved.symm
        refine .ok ⟨rfl, ?_, filesOf_perm hsame, ?_⟩
        · refine ⟨h.bytes.trans (bytesOf_perm hsame), hmax, h.requested, fun id' => ?_⟩
          simp only [AssocMap.lookup_erase_ite, LruCache.lookup_push]
          by_cases hid : id' = id
          · subst hid
            rw [if_pos rfl, if_pos rfl, hzero]
            refine ⟨?_, fun w hw => (by cases hw), fun _ => ⟨rfl, hrequested⟩⟩
            rintro _ ⟨⟩
            exact ⟨hlast, rfl⟩
          · rw [if_neg hid, if_neg hid, count_erase_ne hid]
            exact h.file id'
        · have hpushed : (c.evictableCache.push id
              { w with referenceCount := w.referenceCount - 1 }).lookup id =
                some { w with referenceCount := w.referenceCount - 1 } := by
            rw [LruCache.lookup_push, if_pos rfl]
          exact .evictable hcount hrequested rfl hlook hpushed rfl
    · rename_i hshared
      have hcount : 1 < handles.count id := by
        omega
      refine .ok ⟨rfl, ?_, accounts_setPinned hlook rfl, ?_⟩
      · refine h.setPinned hlook rfl ?_ ?_ fun id' hid => count_erase_ne hid
        · rw [List.count_erase_self, href]
        · rw [List.count_erase_self]
          omega
      · exact .shared hcount rfl (by rw [AList.lookup_insert]; rfl)

theorem deleteCacheEntry (h : c.Inv handles) {panicIfNonExistent : Bool} :
    Contract (c.deleteCacheEntry id panicIfNonExistent)
      (id ∉ c.evictedEntries ∧ (panicIfNonExistent = true → ¬ c.Untracked id)) fun out =>
        out.1.config = c.config ∧ out.1.Inv handles ∧ Accounts c out.1 [] out.2 := by
  unfold ObjectStorageCacheInternal.deleteCacheEntry
  split
  · rename_i w hlook
    obtain ⟨hzero, hpinned⟩ := (h.file id).unreferenced w hlook
    have hperm := contents_of_evictable hlook
    have hbytes := h.bytes
    rw [bytesOf_perm hperm, bytesOf_cons] at hbytes
    refine .bind (assert_contract fun _ => decide_eq_true hzero) fun _ _ => .pure ⟨rfl, ?_, ?_⟩
    · refine ⟨?_, Nat.le_trans (Nat.sub_le _ _) h.le, h.requested, fun id' => ?_⟩
      · change c.curBytes - w.fileSize = _
        rw [hbytes, show w.content.1.fileMetadata.fileSize = w.fileSize from rfl, Nat.add_sub_cancel_left]
        rfl
      · simp only [LruCache.lookup_erase]
        by_cases hid : id' = id
        · subst hid
          rw [if_pos rfl]
          exact ⟨fun w hw => (by cases hw), (h.file id').referenced, (h.file id').unpinned⟩
        · rw [if_neg hid]
          exact h.file id'
    · have hfiles := filesOf_perm hperm
      rw [filesOf_content] at hfiles
      exact hfiles
  · rename_i hlook
    split
    · rename_i hpinned
      refine .bind (assert_contract fun hpre => by simpa using hpre.1) fun _ hnot => .pure ⟨rfl, ?_, .refl _⟩
      have hnot : id ∉ c.evictedEntries := by simpa using hnot
      refine ⟨h.bytes, h.le, List.nodup_cons.mpr ⟨hnot, h.requested⟩, fun id' => ?_⟩
      refine ⟨(h.file id').unreferenced, (h.file id').referenced, fun hnone => ?_⟩
      obtain ⟨hcount, hnot'⟩ := (h.file id').unpinned hnone
      refine ⟨hcount, fun hmem => ?_⟩
      rcases List.mem_cons.mp hmem with rfl | hmem
      · rw [hnone] at hpinned
        cases hpinned
      · exact hnot' hmem
    · rename_i hpinned
      have huntracked : c.Untracked id := ⟨hlook, by simpa using hpinned⟩
      refine .bind (assert_contract fun hpre => ?_) fun _ _ => .pure ⟨rfl, h, .refl _⟩
      cases panicIfNonExistent with
      | true => exact absurd huntracked (hpre.2 rfl)
      | false => rfl

/-- The copy that is replaced is returned, if it is one. -/
theorem tryReplaceEvictableWithRemote (h : c.Inv handles) (isLocalFilepath : String → Bool)
    (remotePath : String) :
    let out := c.tryReplaceEvictableWithRemote isLocalFilepath id remotePath
    out.1.config = c.config ∧ out.1.Inv handles ∧
      ((c.config.optimizeLocalFilesystem = true → isLocalFilepath remotePath = true →
        ∀ w, c.evictableCache.lookup id = some w → w.deletable = true) → Accounts c out.1 [] out.2) := by
  unfold ObjectStorageCacheInternal.tryReplaceEvictableWithRemote
  simp only
  split
  · exact ⟨rfl, h, fun _ => .refl _⟩
  · rename_i hreplaces
    obtain ⟨hoptimize, hlocal⟩ : c.config.optimizeLocalFilesystem = true ∧ isLocalFilepath remotePath = true := by
      simpa using hreplaces
    split
    · rename_i w hlook
      obtain ⟨hzero, hpinned⟩ := (h.file id).unreferenced w hlook
      have hperm := contents_of_evictable hlook
      have hpush := contents_push c id (w.replaceWithRemote remotePath)
      refine ⟨rfl, ⟨?_, h.le, h.requested, fun id' => ?_⟩, fun hdeletable => ?_⟩
      · refine h.bytes.trans ((bytesOf_perm hperm).trans ?_)
        rw [bytesOf_perm hpush]
        rfl
      · simp only [LruCache.lookup_push]
        by_cases hid : id' = id
        · subst hid
          rw [if_pos rfl]
          refine ⟨?_, (h.file id').referenced, (h.file id').unpinned⟩
          rintro _ ⟨⟩
          exact ⟨hzero, hpinned⟩
        · rw [if_neg hid]
          exact h.file id'
      · have hfiles := filesOf_perm hperm
        rw [filesOf_content, CacheEntryWrapper.evictedFile,
          if_pos (hdeletable hoptimize hlocal w hlook)] at hfiles
        exact hfiles.trans ((filesOf_perm hpush).symm.append_left [w.cacheEntry.cacheFilepath])
    · exact ⟨rfl, h, fun _ => .refl _⟩

theorem tryReplaceOnlyReferenceCountWithRemote (h : c.Inv handles) (isLocalFilepath : String → Bool)
    (remotePath : String) :
    Contract (c.tryReplaceOnlyReferenceCountWithRemote isLocalFilepath id remotePath) True fun out =>
      out.1.config = c.config ∧ out.1.Inv handles ∧
        ((c.Replaces isLocalFilepath id remotePath handles →
          ∀ w, c.nonEvictableCache.lookup id = some w → w.deletable = true) → Accounts c out.1 [] out.2) := by
  unfold ObjectStorageCacheInternal.tryReplaceOnlyReferenceCountWithRemote
  have hself : c.config = c.config ∧ c.Inv handles ∧
      ((c.Replaces isLocalFilepath id remotePath handles →
        ∀ w, c.nonEvictableCache.lookup id = some w → w.deletable = true) → Accounts c c [] []) :=
    ⟨rfl, h, fun _ => .refl _⟩
  split
  · exact .ok hself
  · rename_i hreplaces
    obtain ⟨hoptimize, hlocal⟩ : c.config.optimizeLocalFilesystem = true ∧ isLocalFilepath remotePath = true := by
      simpa using hreplaces
    split
    · exact .ok hself
    · rename_i hrequested
      rw [List.contains_iff_mem] at hrequested
      split
      · rename_i w hlook
        have href := (h.file id).referenced w hlook
        refine .bind (assert_contract fun _ => decide_eq_true (by omega)) fun _ _ => ?_
        split
        · exact .pure hself
        · refine .pure ⟨rfl, h.setPinned hlook rfl href.1 href.2 fun _ _ => rfl, fun hdeletable => ?_⟩
          have hlast : handles.count id = 1 := by omega
          have hfiles := filesOf_perm (contents_of_pinned hlook)
          rw [filesOf_content, CacheEntryWrapper.evictedFile,
            if_pos (hdeletable ⟨hoptimize, hlocal, hrequested, hlast⟩ w hlook)] at hfiles
          exact hfiles.trans ((filesOf_perm
            (contents_insert c id (w.replaceWithRemote remotePath))).symm.append_left [w.cacheEntry.cacheFilepath])
      · exact .ok hself

theorem unreferenceAndDelete (h : c.Inv handles) :
    Contract (c.unreferenceAndDelete id) (id ∈ handles ∧ id ∉ c.evictedEntries) fun out =>
      out.1.config = c.config ∧ out.1.Inv (handles.erase id) ∧ Accounts c out.1 [] out.2 := by
  refine .bind (h.unreference.mono And.left fun _ h => h) ?_
  rintro ⟨c₁, files⟩ ⟨hconfig, hinv, haccounts, hreleased⟩
  have hpre (hnot : id ∉ c.evictedEntries) : files = [] ∧ id ∉ c₁.evictedEntries ∧ ¬ c₁.Untracked id := by
    cases hreleased with
    | shared _ hrequested hpinned =>
      refine ⟨rfl, hrequested ▸ hnot, fun huntracked => ?_⟩
      rw [huntracked.2] at hpinned
      cases hpinned
    | removed _ hrequested => exact absurd hrequested hnot
    | evictable _ _ hrequested _ hlook =>
      exact ⟨rfl, hrequested ▸ hnot, fun huntracked => by cases huntracked.1.symm.trans hlook⟩
  refine .bind (assert_contract fun hpre' => by rw [(hpre hpre'.2).1]; rfl) fun _ hnil => ?_
  rw [List.isEmpty_iff] at hnil
  subst hnil
  refine hinv.deleteCacheEntry.mono (fun hpre' => ⟨(hpre hpre'.2).2.1, fun _ => (hpre hpre'.2).2.2⟩) ?_
  rintro ⟨c₂, files⟩ ⟨hconfig', hinv', haccounts'⟩
  exact ⟨hconfig'.trans hconfig, hinv', haccounts.trans haccounts'⟩

theorem unreferenceAndReplaceWithRemote (h : c.Inv handles) (isLocalFilepath : String → Bool)
    (remotePath : String) :
    Contract (c.unreferenceAndReplaceWithRemote isLocalFilepath id remotePath)
      (id ∈ handles ∧ (id ∉ c.evictedEntries ∨ 1 < handles.count id ∨
        ∀ w ∈ c.nonEvictableCache.lookup id, w.deletable = false)) fun out =>
        out.1.config = c.config ∧ out.1.Inv (handles.erase id) ∧
          ((c.Replaces isLocalFilepath id remotePath handles →
            ∀ w, c.nonEvictableCache.lookup id = some w → w.deletable = true) → Accounts c out.1 [] out.2) := by
  refine .bind (h.unreference.mono And.left fun _ h => h) ?_
  rintro ⟨c₁, files⟩ ⟨hconfig, hinv, haccounts, hreleased⟩
  have hnil (hpre : id ∉ c.evictedEntries ∨ 1 < handles.count id ∨
      ∀ w ∈ c.nonEvictableCache.lookup id, w.deletable = false) : files.isEmpty = true := by
    cases hreleased with
    | shared | evictable => rfl
    | removed hcount hrequested hold hfiles =>
      rcases hpre with hnot | hshared | hremote
      · exact absurd hrequested hnot
      · omega
      · rw [show files = _ from hfiles, CacheEntryWrapper.evictedFile, hremote _ hold]
        rfl
  refine .bind (assert_contract fun hpre => hnil hpre.2) fun _ hnil => ?_
  rw [List.isEmpty_iff] at hnil
  subst hnil
  obtain ⟨hconfig', hinv', haccounts'⟩ :=
    hinv.tryReplaceEvictableWithRemote isLocalFilepath remotePath
  refine .pure ⟨hconfig'.trans hconfig, hinv', fun hdeletable => haccounts.trans (haccounts' ?_)⟩
  intro hoptimize hlocal w' hw'
  cases hreleased with
  | shared _ _ hpinned =>
    obtain ⟨w, hw⟩ := Option.isSome_iff_exists.mp hpinned
    cases (hinv.notEvictable hw).symm.trans hw'
  | removed _ _ _ _ huntracked => cases huntracked.1.symm.trans hw'
  | evictable hcount hnot _ hold hlook hcontent =>
    cases hlook.symm.trans hw'
    have hreplaces : c.Replaces isLocalFilepath id remotePath handles :=
      ⟨hconfig ▸ hoptimize, hlocal, hnot, hcount⟩
    exact (congrArg Prod.snd hcontent).trans (hdeletable hreplaces _ hold)

end Inv

end ObjectStorageCacheInternal

/-! ## Clients -/

namespace CacheSystem

variable {isLocalFilepath : String → Bool} {config : ObjectStorageCacheConfig} {s : CacheSystem}

/-- Every local copy is the file of one entry, or was returned once. -/
def Accounted (s : CacheSystem) : Prop :=
  s.copies.Perm (filesOf s.cache.contents ++ s.returned)

instance : Decidable s.Accounted := inferInstanceAs (Decidable (List.Perm _ _))

/-- What the operations require: an imported file is new and fits, the file of a miss is still not
tracked, a released handle was not released before, and no deletion is requested twice. -/
def Accepts (s : CacheSystem) : CacheInput → Prop
  | .importCacheEntry id entry => s.cache.Untracked id ∧
      s.cache.pinnedBytes + entry.fileMetadata.fileSize ≤ s.cache.config.maxBytes
  | .fetched id remotePath _ _ => (id, remotePath) ∈ s.fetching → s.cache.Untracked id
  | .unreference id | .incrementReferenceCount id => id ∈ s.handles
  | .unreferenceAndDelete id => id ∈ s.handles ∧ id ∉ s.cache.evictedEntries
  | .unreferenceAndReplaceWithRemote id _ =>
    id ∈ s.handles ∧ (id ∉ s.cache.evictedEntries ∨ 1 < s.handles.count id ∨
      ∀ w ∈ s.cache.nonEvictableCache.lookup id, w.deletable = false)
  | .tryDeleteCacheEntry id => id ∉ s.cache.evictedEntries
  | .getCacheEntry .. | .fetchFails .. | .replaceWithRemote .. => True

instance {i : CacheInput} : Decidable (s.Accepts i) :=
  match i with
  | .importCacheEntry .. => inferInstanceAs (Decidable (_ ∧ _ ≤ _))
  | .fetched .. => inferInstanceAs (Decidable (_ ∈ _ → s.cache.Untracked _))
  | .unreference _ | .incrementReferenceCount _ => inferInstanceAs (Decidable (_ ∈ _))
  | .unreferenceAndDelete _ => inferInstanceAs (Decidable (_ ∈ _ ∧ _ ∉ _))
  | .unreferenceAndReplaceWithRemote .. => 
    inferInstanceAs (Decidable (_ ∈ _ ∧ (_ ∉ _ ∨ _ < _ ∨ ∀ w ∈ s.cache.nonEvictableCache.lookup _, w.deletable = false)))
  | .tryDeleteCacheEntry _ => inferInstanceAs (Decidable (_ ∉ _))
  | .getCacheEntry .. | .fetchFails .. | .replaceWithRemote .. => isTrue trivial

/-- A downloaded file fits beside the pinned ones, and only local copies are replaced. -/
def KeepsCopies (isLocalFilepath : String → Bool) (s : CacheSystem) : CacheInput → Prop
  | .fetched _ remotePath localPath fileSize =>
    (getCacheHandleFromRemote isLocalFilepath s.cache.config remotePath localPath fileSize).deletable = true →
      s.cache.pinnedBytes + fileSize ≤ s.cache.config.maxBytes
  | .unreferenceAndReplaceWithRemote id remotePath | .replaceWithRemote id remotePath =>
    s.cache.Replaces isLocalFilepath id remotePath s.handles →
      ∀ w ∈ s.cache.nonEvictableCache.lookup id, w.deletable = true
  | _ => True

/-- The caller of `get_cache_entry` gets a handle of the file it asked for, or hears that it does
not fit; it waits for the file only if there is no entry. -/
def Answers (s : CacheSystem) : CacheInput → CacheSystem × CacheAnswer → Prop
  | .getCacheEntry id remotePath, (s', a) =>
    (a = .fetching ∧ (id, remotePath) ∈ s'.fetching ∧ s'.cache.Untracked id) ∨ ∃ entry, a = .handle id entry
  | .fetched id remotePath _ _, (_, a) =>
    (id, remotePath) ∈ s.fetching → a = .noSpace ∨ ∃ entry, a = .handle id entry
  | _, _ => True

/-- What a step leaves. -/
def StepEnds (isLocalFilepath : String → Bool) (s : CacheSystem) (i : CacheInput)
    (out : CacheSystem × CacheAnswer) : Prop :=
  out.1.cache.config = s.cache.config ∧ out.1.cache.Inv out.1.handles ∧
    (s.KeepsCopies isLocalFilepath i → s.Accounted → out.1.Accounted) ∧ s.Answers i out

theorem Accounted.step (h : s.Accounted) {c' : ObjectStorageCacheInternal} {added files : List String}
    (haccounts : ObjectStorageCacheInternal.Accounts s.cache c' added files) :
    (s.copies ++ added).Perm (filesOf c'.contents ++ (s.returned ++ files)) := by
  have hcopies : (s.copies ++ added).Perm (added ++ filesOf s.cache.contents ++ s.returned) := by
    rw [List.append_assoc]
    exact (h.append_right added).trans List.perm_append_comm
  have hstep := hcopies.trans (haccounts.append_right s.returned)
  rw [List.append_assoc] at hstep
  rw [← List.append_assoc]
  exact hstep.trans List.perm_append_comm

/-- A step that adds no copy. -/
theorem Accounted.step_nil (h : s.Accounted) {c' : ObjectStorageCacheInternal} {files : List String}
    (haccounts : ObjectStorageCacheInternal.Accounts s.cache c' [] files) :
    s.copies.Perm (filesOf c'.contents ++ (s.returned ++ files)) := by
  have hstep := h.step haccounts
  rwa [List.append_nil] at hstep

theorem new_inv (config : ObjectStorageCacheConfig) : (new config).cache.Inv (new config).handles where
  bytes := rfl
  le := Nat.zero_le _
  requested := List.nodup_nil
  file _ := ⟨nofun, nofun, fun _ => ⟨rfl, List.not_mem_nil⟩⟩

theorem new_accounted (config : ObjectStorageCacheConfig) : (new config).Accounted := .refl _

variable (isLocalFilepath)

theorem fetched_contract (h : s.cache.Inv s.handles) (id : TableUniqueFileId) (remotePath localPath : String)
    (fileSize : Nat) :
    Contract (s.fetched isLocalFilepath id remotePath localPath fileSize)
      (s.Accepts (.fetched id remotePath localPath fileSize))
      (s.StepEnds isLocalFilepath (.fetched id remotePath localPath fileSize)) := by
  unfold fetched
  split
  · rename_i hfetching
    have hw : (getCacheHandleFromRemote isLocalFilepath s.cache.config remotePath localPath
        fileSize).referenceCount = 1 := by
      unfold getCacheHandleFromRemote
      split <;> rfl
    have hsize : (getCacheHandleFromRemote isLocalFilepath s.cache.config remotePath localPath
        fileSize).fileSize = fileSize := by
      unfold getCacheHandleFromRemote
      split <;> rfl
    refine .bind ((h.insertFetched hw).mono (fun hpre => hpre hfetching) fun _ h => h) ?_
    rintro ⟨c', entry, files⟩ ⟨hconfig, ⟨hentry, hinv, haccounts⟩ | ⟨hentry, hgt, hinv, haccounts⟩⟩
    · simp only at hentry
      subst hentry
      exact .pure ⟨hconfig, hinv, fun _ hall => hall.step haccounts, fun _ => .inr ⟨_, rfl⟩⟩
    · simp only at hentry
      subst hentry
      refine .pure ⟨hconfig, hinv, fun hkeeps hall => ?_, fun _ => .inl rfl⟩
      -- A file that does not fit is the remote file itself.
      have hremote : (getCacheHandleFromRemote isLocalFilepath s.cache.config remotePath localPath
          fileSize).evictedFile = [] := by
        refine if_neg fun hdeletable => ?_
        have hfits : s.cache.pinnedBytes + fileSize ≤ s.cache.config.maxBytes := hkeeps hdeletable
        omega
      simp only [Accounted, hremote]
      exact hall.step haccounts
  · rename_i hnot
    exact .ok ⟨rfl, h, fun _ hall => hall, fun hfetching => absurd hfetching hnot⟩

/-- The spec of one step. -/
theorem next_contract (h : s.cache.Inv s.handles) (i : CacheInput) :
    Contract (s.next isLocalFilepath i) (s.Accepts i) (s.StepEnds isLocalFilepath i) := by
  cases i with
  | importCacheEntry id entry =>
    refine .bind (h.importCacheEntry entry) ?_
    rintro ⟨c', files⟩ ⟨hconfig, hinv, haccounts⟩
    exact .pure ⟨hconfig, hinv, fun _ hall => hall.step haccounts, trivial⟩
  | getCacheEntry id remotePath =>
    refine .bind h.getCached ?_
    rintro ⟨c', entry⟩ ⟨hconfig, ⟨entry', hentry, hinv, haccounts⟩ | ⟨hmiss, huntracked⟩⟩
    · simp only at hentry
      subst hentry
      refine .pure ⟨hconfig, hinv, fun _ hall => ?_, .inr ⟨_, rfl⟩⟩
      have hall := hall.step_nil haccounts
      rwa [List.append_nil] at hall
    · cases hmiss
      exact .pure ⟨rfl, h, fun _ hall => hall, .inl ⟨rfl, List.mem_cons_self, huntracked⟩⟩
  | fetched id remotePath localPath fileSize =>
    exact fetched_contract isLocalFilepath h id remotePath localPath fileSize
  | fetchFails id remotePath => exact .ok ⟨rfl, h, fun _ hall => hall, trivial⟩
  | unreference id =>
    refine .bind h.unreference ?_
    rintro ⟨c', files⟩ ⟨hconfig, hinv, haccounts, -⟩
    exact .pure ⟨hconfig, hinv, fun _ hall => hall.step_nil haccounts, trivial⟩
  | unreferenceAndDelete id =>
    refine .bind h.unreferenceAndDelete ?_
    rintro ⟨c', files⟩ ⟨hconfig, hinv, haccounts⟩
    exact .pure ⟨hconfig, hinv, fun _ hall => hall.step_nil haccounts, trivial⟩
  | unreferenceAndReplaceWithRemote id remotePath =>
    refine .bind (h.unreferenceAndReplaceWithRemote isLocalFilepath remotePath) ?_
    rintro ⟨c', files⟩ ⟨hconfig, hinv, haccounts⟩
    exact .pure ⟨hconfig, hinv, fun hkeeps hall => hall.step_nil (haccounts hkeeps), trivial⟩
  | replaceWithRemote id remotePath =>
    refine .bind ((h.tryReplaceOnlyReferenceCountWithRemote isLocalFilepath remotePath).mono
      (fun _ => trivial) fun _ h => h) ?_
    rintro ⟨c', files⟩ ⟨hconfig, hinv, haccounts⟩
    exact .pure ⟨hconfig, hinv, fun hkeeps hall => hall.step_nil (haccounts hkeeps), trivial⟩
  | tryDeleteCacheEntry id =>
    refine .bind (h.deleteCacheEntry.mono (fun hpre => ⟨hpre, nofun⟩) fun _ h => h) ?_
    rintro ⟨c', files⟩ ⟨hconfig, hinv, haccounts⟩
    exact .pure ⟨hconfig, hinv, fun _ hall => hall.step_nil haccounts, trivial⟩
  | incrementReferenceCount id =>
    refine .bind h.incrementReferenceCount ?_
    rintro c' ⟨hconfig, hinv, haccounts⟩
    refine .pure ⟨hconfig, hinv, fun _ hall => ?_, trivial⟩
    have hall := hall.step_nil haccounts
    rwa [List.append_nil] at hall

/-! ## Atomic operations -/

/-- An operation that nothing interrupts, with the file that is fetched if it misses, or none if
that fails. -/
structure Operation where
  input : CacheInput
  file : Option (String × Nat)

def execute (s : CacheSystem) (op : Operation) : Except CachePanic CacheSystem := do
  let (s, answer) ← s.next isLocalFilepath op.input
  match op.input, answer, op.file with
  | .getCacheEntry id remotePath, .fetching, some (localPath, fileSize) =>
    return (← s.next isLocalFilepath (.fetched id remotePath localPath fileSize)).1
  | .getCacheEntry id remotePath, .fetching, none =>
    return (← s.next isLocalFilepath (.fetchFails id remotePath)).1
  | _, _, _ => return s

/-- Nothing is fetched while another operation runs, so a miss can always insert its file. -/
theorem execute_contract (h : s.cache.Inv s.handles) (op : Operation) :
    Contract (s.execute isLocalFilepath op) (s.Accepts op.input) fun s' =>
      s'.cache.config = s.cache.config ∧ s'.cache.Inv s'.handles := by
  unfold execute
  refine .bind (next_contract isLocalFilepath h op.input) ?_
  rintro ⟨s₁, answer⟩ ⟨hconfig, hinv, -, hanswers⟩
  simp only at hconfig hinv ⊢
  split
  · rename_i id remotePath localPath fileSize hinput hfile
    rw [hinput] at hanswers
    have huntracked : s₁.cache.Untracked id := by
      rcases hanswers with ⟨-, -, huntracked⟩ | ⟨entry, hentry⟩
      · exact huntracked
      · cases hentry
    refine .bind ((next_contract isLocalFilepath hinv _).mono (fun _ _ => huntracked) fun _ h => h) ?_
    exact fun out hout => .pure ⟨hout.1.trans hconfig, hout.2.1⟩
  · refine .bind ((next_contract isLocalFilepath hinv _).mono (fun _ => trivial) fun _ h => h) ?_
    exact fun out hout => .pure ⟨hout.1.trans hconfig, hout.2.1⟩
  · exact .pure ⟨hconfig, hinv⟩

/-- A file whose deletion was requested is pinned, and goes with its last handle. -/
theorem removed_of_requested (h : s.cache.Inv s.handles) {id : TableUniqueFileId}
    (hrequested : id ∈ s.cache.evictedEntries) :
    (s.cache.nonEvictableCache.lookup id).isSome = true ∧
      (s.handles.count id = 1 → Returns (s.cache.unreference id) fun out =>
        out.1.Untracked id ∧ id ∉ out.1.evictedEntries) := by
  have hpinned : (s.cache.nonEvictableCache.lookup id).isSome = true := by
    rw [Option.isSome_iff_ne_none]
    exact fun hnone => ((h.file id).unpinned hnone).2 hrequested
  refine ⟨hpinned, fun hlast => ?_⟩
  have hmem : id ∈ s.handles := List.count_pos_iff.mp (by omega)
  refine ((h.unreference).total hmem).mono ?_
  rintro ⟨c', files⟩ ⟨-, -, -, hreleased⟩
  cases hreleased with
  | shared hcount => omega
  | removed _ _ _ _ huntracked hgone => exact ⟨huntracked, hgone⟩
  | evictable _ hnot => exact absurd hrequested hnot

/-- After operations that are accepted, none of which panics, the cache has its invariant. -/
theorem cache_invariant {config : ObjectStorageCacheConfig} {ops : List Operation}
    (haccepts : RunMeets (fun s op => (execute isLocalFilepath s op).toOption) (fun s op => s.Accepts op.input)
      (new config) ops) :
    Returns (ops.foldlM (execute isLocalFilepath) (new config)) fun s =>
      s.cache.config = config ∧ s.cache.Inv s.handles ∧
        ∀ id ∈ s.cache.evictedEntries, (s.cache.nonEvictableCache.lookup id).isSome = true ∧
          (s.handles.count id = 1 → Returns (s.cache.unreference id) fun out =>
            out.1.Untracked id ∧ id ∉ out.1.evictedEntries) := by
  have hstep : ∀ s op, (s.cache.config = config ∧ s.cache.Inv s.handles) → s.Accepts op.input →
      Returns (execute isLocalFilepath s op) fun s' => s'.cache.config = config ∧ s'.cache.Inv s'.handles :=
    fun s op hs hop => ((execute_contract isLocalFilepath hs.2 op).total hop).mono fun s' hs' =>
      ⟨hs'.1.trans hs.1, hs'.2⟩
  refine (RunMeets.returns hstep haccepts ⟨rfl, new_inv config⟩).mono fun s hs => ?_
  exact ⟨hs.1, hs.2, fun id hid => removed_of_requested hs.2 hid⟩

/-- A pinned file, whose deletion is requested while it has two handles, makes a second file wait. -/
def pinnedOps : List Operation :=
  [⟨.importCacheEntry ⟨1, 1⟩ ⟨"a", ⟨60⟩⟩, none⟩, ⟨.getCacheEntry ⟨1, 1⟩ "remote/a", none⟩,
    ⟨.tryDeleteCacheEntry ⟨1, 1⟩, none⟩, ⟨.getCacheEntry ⟨1, 2⟩ "remote/b", some ("b", 60)⟩,
    ⟨.unreference ⟨1, 1⟩, none⟩]

theorem cache_invariant_pinnedOps :
    Returns (pinnedOps.foldlM (execute fun _ => false) (new ⟨100, true⟩)) fun s =>
      s.cache.curBytes = 60 ∧ s.cache.Inv s.handles ∧ s.cache.evictedEntries = [⟨1, 1⟩] := by
  have haccepts : RunMeets (fun s op => (execute (fun _ => false) s op).toOption)
      (fun s op => s.Accepts op.input) (new ⟨100, true⟩) pinnedOps := by
    decide +kernel
  have hruns : Returns (pinnedOps.foldlM (execute fun _ => false) (new ⟨100, true⟩)) fun s =>
      s.cache.curBytes = 60 ∧ s.cache.evictedEntries = [⟨1, 1⟩] := by
    decide +kernel
  obtain ⟨s, hrun, hbytes, hrequested⟩ := hruns
  obtain ⟨s', hrun', -, hinv, -⟩ := cache_invariant (fun _ => false) haccepts
  cases hrun.symm.trans hrun'
  exact ⟨s, hrun, hbytes, hinv, hrequested⟩

/-- The second import of a file that fits fails its assertion after the bytes were counted again and the entry was
replaced, and the cache stays like that: 60 bytes for one entry of 30. -/
theorem cache_invariant_import_twice :
    Returns ((new ⟨100, true⟩).execute (fun _ => false) ⟨.importCacheEntry ⟨1, 1⟩ ⟨"a", ⟨30⟩⟩, none⟩) fun s =>
      s.cache.pinnedBytes + 30 ≤ s.cache.config.maxBytes ∧
        s.execute (fun _ => false) ⟨.importCacheEntry ⟨1, 1⟩ ⟨"b", ⟨30⟩⟩, none⟩ = .error .alreadyTracked ∧
        ∀ handles, ¬ (s.cache.leftByImport ⟨1, 1⟩ ⟨"b", ⟨30⟩⟩).Inv handles := by
  have hruns : Returns ((new ⟨100, true⟩).execute (fun _ => false) ⟨.importCacheEntry ⟨1, 1⟩ ⟨"a", ⟨30⟩⟩, none⟩) fun s =>
      s.cache.pinnedBytes + 30 ≤ s.cache.config.maxBytes ∧
        s.execute (fun _ => false) ⟨.importCacheEntry ⟨1, 1⟩ ⟨"b", ⟨30⟩⟩, none⟩ = .error .alreadyTracked ∧
        (s.cache.leftByImport ⟨1, 1⟩ ⟨"b", ⟨30⟩⟩).curBytes ≠ bytesOf (s.cache.leftByImport ⟨1, 1⟩ ⟨"b", ⟨30⟩⟩).contents := by
    decide +kernel
  exact hruns.mono fun s hs => ⟨hs.1, hs.2.1, fun handles hinv => hs.2.2 hinv.bytes⟩

/-! ## Interleaved operations -/

/-- A miss whose file is still not tracked when it arrives, and fits; no file is deleted twice. -/
def Permitted (s : CacheSystem) (i : CacheInput) : Prop :=
  s.Accepts i ∧ s.KeepsCopies isLocalFilepath i

instance {i : CacheInput} : Decidable (s.KeepsCopies isLocalFilepath i) :=
  match i with
  | .fetched .. => inferInstanceAs (Decidable (_ = true → _ ≤ _))
  | .unreferenceAndReplaceWithRemote id remotePath | .replaceWithRemote id remotePath =>
    inferInstanceAs (Decidable (s.cache.Replaces isLocalFilepath id remotePath s.handles →
      ∀ w ∈ s.cache.nonEvictableCache.lookup id, w.deletable = true))
  | .importCacheEntry .. | .getCacheEntry .. | .fetchFails .. | .unreference _ | .unreferenceAndDelete _
  | .tryDeleteCacheEntry _ | .incrementReferenceCount _ => isTrue trivial

instance {i : CacheInput} : Decidable (s.Permitted isLocalFilepath i) :=
  inferInstanceAs (Decidable (_ ∧ _))

def step (s : CacheSystem) (i : CacheInput) : Except CachePanic CacheSystem := do
  return (← s.next isLocalFilepath i).1

/-- The spec of a permitted step. -/
theorem next_permitted (h : s.cache.Inv s.handles ∧ s.Accounted) {i : CacheInput}
    (hi : s.Permitted isLocalFilepath i) :
    Returns (s.next isLocalFilepath i) fun out =>
      (out.1.cache.Inv out.1.handles ∧ out.1.Accounted) ∧ out.1.cache.config = s.cache.config ∧
        s.Answers i out :=
  ((next_contract isLocalFilepath h.1 i).total hi.1).mono fun _ hout =>
    ⟨⟨hout.2.1, hout.2.2.1 hi.2 h.2⟩, hout.1, hout.2.2.2⟩

/-- In every interleaving of permitted steps no assertion fails, the cache has its invariant, every
caller gets its answer, and every local copy is tracked or was returned once. -/
theorem concurrent_misses_safe {config : ObjectStorageCacheConfig} {inputs : List CacheInput}
    (hpermitted : RunMeets (fun s i => (step isLocalFilepath s i).toOption) (Permitted isLocalFilepath)
      (new config) inputs) :
    Returns ((new config).run isLocalFilepath inputs) fun s =>
      s.cache.Inv s.handles ∧ s.Accounted ∧
        ∀ i, s.Permitted isLocalFilepath i → Returns (s.next isLocalFilepath i) (s.Answers i) := by
  have hstep : ∀ s i, s.cache.Inv s.handles ∧ s.Accounted → s.Permitted isLocalFilepath i →
      Returns (step isLocalFilepath s i) fun s' => s'.cache.Inv s'.handles ∧ s'.Accounted :=
    fun s i h hi => (next_permitted isLocalFilepath h hi).bind fun _ hout => .pure hout.1
  have hinv := RunMeets.returns hstep hpermitted ⟨new_inv config, new_accounted config⟩
  exact hinv.mono fun s hs =>
    ⟨hs.1, hs.2, fun i hi => (next_permitted isLocalFilepath hs hi).mono fun _ hout => hout.2.2⟩

/-- Two misses of different files, one of which is evicted for the other. -/
def missInputs : List CacheInput :=
  [.getCacheEntry ⟨1, 1⟩ "remote/a", .getCacheEntry ⟨1, 2⟩ "remote/b",
    .fetched ⟨1, 1⟩ "remote/a" "a" 60, .unreference ⟨1, 1⟩, .fetched ⟨1, 2⟩ "remote/b" "b" 60]

theorem concurrent_misses_safe_missInputs :
    Returns ((new ⟨100, true⟩).run (fun _ => false) missInputs) fun s =>
      s.copies = ["a", "b"] ∧ s.returned = ["a"] ∧ s.cache.Inv s.handles ∧ s.Accounted := by
  have hpermitted : RunMeets (fun s i => (step (fun _ => false) s i).toOption) (Permitted fun _ => false)
      (new ⟨100, true⟩) missInputs := by
    decide +kernel
  have hruns : Returns ((new ⟨100, true⟩).run (fun _ => false) missInputs) fun s =>
      s.copies = ["a", "b"] ∧ s.returned = ["a"] := by
    decide +kernel
  obtain ⟨s, hrun, hcopies, hreturned⟩ := hruns
  obtain ⟨s', hrun', hinv, haccounted, -⟩ := concurrent_misses_safe (fun _ => false) hpermitted
  cases hrun.symm.trans hrun'
  exact ⟨s, hrun, hcopies, hreturned, hinv, haccounted⟩

/-- Of two misses of one file, the second fails an assertion; and a downloaded file that does not fit
is neither tracked nor returned. -/
theorem concurrent_misses_unsafe :
    (new ⟨100, true⟩).run (fun _ => false) [.getCacheEntry ⟨1, 1⟩ "remote/a", .getCacheEntry ⟨1, 1⟩ "remote/a",
      .fetched ⟨1, 1⟩ "remote/a" "a" 60, .fetched ⟨1, 1⟩ "remote/a" "a'" 60] = .error .alreadyTracked ∧
    Returns ((new ⟨100, true⟩).run (fun _ => false) [.getCacheEntry ⟨1, 1⟩ "remote/a",
      .fetched ⟨1, 1⟩ "remote/a" "a" 60, .getCacheEntry ⟨1, 2⟩ "remote/b", .fetched ⟨1, 2⟩ "remote/b" "b" 60])
      fun s => "b" ∈ s.copies ∧ s.cache.Untracked ⟨1, 2⟩ ∧ "b" ∉ s.returned ∧ ¬ s.Accounted := by
  decide +kernel

end CacheSystem

end Moonlink.ObjectCache
