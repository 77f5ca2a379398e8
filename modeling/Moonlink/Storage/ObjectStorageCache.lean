-- SUMMARY: The object storage cache: eviction, insertion, deletion requests, replacement by remote files, and its clients.
import Moonlink.Lib.AssocMap
import Moonlink.Lib.LruCache
import Moonlink.Lib.Panics

/-!
# The object storage cache

The cache tracks the local copies of remote files. An entry that a handle refers to is
not evictable; when the last handle is released the entry becomes evictable, or is removed
if its deletion was requested. Files that leave the cache are returned to the caller, who
deletes them.

Each operation on the cache runs under its lock. A miss of `get_cache_entry` fetches the
file without the lock, so it is two steps of the system below, which also has the handles
that callers hold and the local copies that came and went.
-/

namespace Moonlink.ObjectCache

open Lib

structure TableUniqueFileId where
  tableId : Nat
  fileId : Nat
  deriving DecidableEq, Repr

structure FileMetadata where
  fileSize : Nat
  deriving DecidableEq, Repr

structure CacheEntry where
  cacheFilepath : String
  fileMetadata : FileMetadata
  deriving DecidableEq, Repr

structure CacheEntryWrapper where
  cacheEntry : CacheEntry
  referenceCount : Nat
  /-- Not set if the remote file itself is the cache file. -/
  deletable : Bool
  deriving DecidableEq, Repr

structure ObjectStorageCacheConfig where
  maxBytes : Nat
  optimizeLocalFilesystem : Bool
  deriving DecidableEq, Repr

/-- The assertions of the cache and of its handles. -/
inductive CachePanic where
  /-- `evict_cache_entries`: nothing to evict when disk space is insufficient. -/
  | cannotReduceDiskUsage
  /-- An evictable entry has references. -/
  | evictableReferenced
  /-- `insert_non_evictable`: the file is tracked already. -/
  | alreadyTracked
  /-- `delete_cache_entry`: the deletion was requested before. -/
  | deletionRequested
  /-- `delete_cache_entry`: the file should exist in the cache. -/
  | notInCache
  /-- `unreference`: no reference count for the file. -/
  | noReferenceCount
  /-- `unreference_and_delete` and `unreference_and_replace_with_remote`: the entry is gone. -/
  | evictedAtUnreference
  /-- A non-evictable entry has no references. -/
  | nonEvictableUnreferenced
  /-- `increment_reference_count`: the file is not pinned. -/
  | notPinned
  /-- The entry is larger than the cache. -/
  | bytesBelowFileSize
  deriving DecidableEq, Repr

def assert (c : Bool) (p : CachePanic) : Except CachePanic Unit := if c then .ok () else .error p

namespace CacheEntryWrapper

def fileSize (w : CacheEntryWrapper) : Nat := w.cacheEntry.fileMetadata.fileSize

/-- The cache file is deleted when the entry goes, unless it is the remote file. -/
def evictedFile (w : CacheEntryWrapper) : List String :=
  if w.deletable then [w.cacheEntry.cacheFilepath] else []

/-- The remote file becomes the cache file. -/
def replaceWithRemote (w : CacheEntryWrapper) (remotePath : String) : CacheEntryWrapper :=
  { w with cacheEntry := { w.cacheEntry with cacheFilepath := remotePath }, deletable := false }

end CacheEntryWrapper

structure ObjectStorageCacheInternal where
  config : ObjectStorageCacheConfig
  /-- The bytes of all entries, evictable or not. -/
  curBytes : Nat
  /-- Entries that go as soon as they have no reference. -/
  evictedEntries : List TableUniqueFileId
  evictableCache : LruCache TableUniqueFileId CacheEntryWrapper
  nonEvictableCache : AssocMap TableUniqueFileId CacheEntryWrapper
  deriving DecidableEq

namespace ObjectStorageCacheInternal

def new (config : ObjectStorageCacheConfig) : ObjectStorageCacheInternal where
  config
  curBytes := 0
  evictedEntries := []
  evictableCache := .empty
  nonEvictableCache := ∅

/-- The loop of `evictCacheEntries`, with as many rounds as there are evictable entries. -/
def evictLoop (maxBytes : Nat) (tolerateInsufficiency : Bool) (c : ObjectStorageCacheInternal) :
    Nat → Except CachePanic (ObjectStorageCacheInternal × Bool × List String)
  | 0 => do
    if maxBytes < c.curBytes then
      assert tolerateInsufficiency .cannotReduceDiskUsage
      return (c, false, [])
    else return (c, true, [])
  | rounds + 1 =>
    if maxBytes < c.curBytes then
      match c.evictableCache.popLru with
      | none => do
        assert tolerateInsufficiency .cannotReduceDiskUsage
        return (c, false, [])
      | some ((_, w), evictableCache) => do
        assert (w.referenceCount = 0) .evictableReferenced
        let (c, evicted, files) ← evictLoop maxBytes tolerateInsufficiency
          { c with evictableCache, curBytes := c.curBytes - w.fileSize } rounds
        return (c, evicted, w.evictedFile ++ files)
    else .ok (c, true, [])

variable (c : ObjectStorageCacheInternal)

/-- Remove entries from the evictable cache until the size is at most `maxBytes`. -/
def evictCacheEntries (maxBytes : Nat) (tolerateInsufficiency : Bool) :
    Except CachePanic (ObjectStorageCacheInternal × Bool × List String) :=
  evictLoop maxBytes tolerateInsufficiency c c.evictableCache.entries.length

/-- The caller has counted the bytes of the entry. -/
def insertNonEvictable (id : TableUniqueFileId) (w : CacheEntryWrapper)
    (maxBytes : Nat) (tolerateInsufficiency : Bool) :
    Except CachePanic (ObjectStorageCacheInternal × Bool × List String) := do
  assert (c.evictableCache.lookup id).isNone .alreadyTracked
  assert (c.nonEvictableCache.lookup id).isNone .alreadyTracked
  let (c, evicted, files) ← evictCacheEntries
    { c with nonEvictableCache := c.nonEvictableCache.insert id w } maxBytes tolerateInsufficiency
  if evicted then return (c, true, files)
  else return ({ c with nonEvictableCache := c.nonEvictableCache.erase id }, false, files)

/-- Remove an evictable entry, or request that a pinned one goes with its last reference. -/
def deleteCacheEntry (id : TableUniqueFileId)
    (panicIfNonExistent : Bool) : Except CachePanic (ObjectStorageCacheInternal × List String) :=
  match c.evictableCache.lookup id with
  | some w => do
    assert (w.referenceCount = 0) .evictableReferenced
    return ({ c with
      evictableCache := c.evictableCache.erase id
      curBytes := c.curBytes - w.fileSize }, w.evictedFile)
  | none => do
    if (c.nonEvictableCache.lookup id).isSome then
      assert (!c.evictedEntries.contains id) .deletionRequested
      return ({ c with evictedEntries := id :: c.evictedEntries }, [])
    else
      assert (!panicIfNonExistent) .notInCache
      return (c, [])

def unreference (id : TableUniqueFileId) : Except CachePanic (ObjectStorageCacheInternal × List String) :=
  match c.nonEvictableCache.lookup id with
  | none => .error .noReferenceCount
  | some w =>
    let w := { w with referenceCount := w.referenceCount - 1 }
    -- Down-level to evictable if the reference count goes away.
    if w.referenceCount = 0 then
      let c := { c with nonEvictableCache := c.nonEvictableCache.erase id }
      if c.evictedEntries.contains id then do
        assert (w.fileSize ≤ c.curBytes) .bytesBelowFileSize
        return ({ c with
          evictedEntries := c.evictedEntries.erase id
          curBytes := c.curBytes - w.fileSize }, w.evictedFile)
      else .ok ({ c with evictableCache := c.evictableCache.push id w }, [])
    else .ok ({ c with nonEvictableCache := c.nonEvictableCache.insert id w }, [])

def tryReplaceEvictableWithRemote (isLocalFilepath : String → Bool) (c : ObjectStorageCacheInternal)
    (id : TableUniqueFileId) (remotePath : String) : ObjectStorageCacheInternal × List String :=
  if !c.config.optimizeLocalFilesystem || !isLocalFilepath remotePath then (c, [])
  else match c.evictableCache.lookup id with
    | some w =>
      ({ c with evictableCache := c.evictableCache.push id (w.replaceWithRemote remotePath) },
        [w.cacheEntry.cacheFilepath])
    | none => (c, [])

/-- Only if there is one reference, and deletion is not requested. -/
def tryReplaceOnlyReferenceCountWithRemote (isLocalFilepath : String → Bool)
    (c : ObjectStorageCacheInternal) (id : TableUniqueFileId) (remotePath : String) :
    Except CachePanic (ObjectStorageCacheInternal × List String) :=
  if !c.config.optimizeLocalFilesystem || !isLocalFilepath remotePath then .ok (c, [])
  else if c.evictedEntries.contains id then .ok (c, [])
  else match c.nonEvictableCache.lookup id with
    | some w => do
      assert (1 ≤ w.referenceCount) .nonEvictableUnreferenced
      if 1 < w.referenceCount then return (c, [])
      else return ({ c with
        nonEvictableCache := c.nonEvictableCache.insert id (w.replaceWithRemote remotePath) },
          [w.cacheEntry.cacheFilepath])
    | none => .ok (c, [])

/-! ## Handles -/

/-- The entry is unreferenced, and goes now or with its last reference. -/
def unreferenceAndDelete (id : TableUniqueFileId) :
    Except CachePanic (ObjectStorageCacheInternal × List String) := do
  let (c, files) ← c.unreference id
  assert files.isEmpty .evictedAtUnreference
  c.deleteCacheEntry id true

def unreferenceAndReplaceWithRemote (isLocalFilepath : String → Bool) (c : ObjectStorageCacheInternal)
    (id : TableUniqueFileId) (remotePath : String) :
    Except CachePanic (ObjectStorageCacheInternal × List String) := do
  let (c, files) ← c.unreference id
  assert files.isEmpty .evictedAtUnreference
  return c.tryReplaceEvictableWithRemote isLocalFilepath id remotePath

/-! ## Requests -/

/-- The file must not be in the cache, and must fit in it. -/
def importCacheEntry (id : TableUniqueFileId) (entry : CacheEntry) :
    Except CachePanic (ObjectStorageCacheInternal × List String) := do
  let (c, _, files) ← insertNonEvictable
    { c with curBytes := c.curBytes + entry.fileMetadata.fileSize } id ⟨entry, 1, true⟩ c.config.maxBytes false
  return (c, files)

/-- What an import leaves when `insertNonEvictable` finds the file pinned: the lock is not poisoned by the panic. -/
def leftByImport (id : TableUniqueFileId) (entry : CacheEntry) : ObjectStorageCacheInternal :=
  { c with
    curBytes := c.curBytes + entry.fileMetadata.fileSize
    nonEvictableCache := c.nonEvictableCache.insert id ⟨entry, 1, true⟩ }

/-- The first critical section of `get_cache_entry`: a hit is pinned. -/
def getCached (id : TableUniqueFileId) : Except CachePanic (ObjectStorageCacheInternal × Option CacheEntry) :=
  match c.nonEvictableCache.lookup id with
  | some w => do
    assert (0 < w.referenceCount) .nonEvictableUnreferenced
    return ({ c with nonEvictableCache :=
      c.nonEvictableCache.insert id { w with referenceCount := w.referenceCount + 1 } }, some w.cacheEntry)
  | none => match c.evictableCache.lookup id with
    | some w => do
      assert (w.referenceCount = 0) .evictableReferenced
      let w := { w with referenceCount := w.referenceCount + 1 }
      let (c, _, files) ← insertNonEvictable
        { c with evictableCache := c.evictableCache.erase id } id w c.config.maxBytes true
      assert files.isEmpty .evictedAtUnreference
      return (c, some w.cacheEntry)
    | none => .ok (c, none)

/-- The last critical section of `get_cache_entry`, with the file that was fetched. -/
def insertFetched (id : TableUniqueFileId) (w : CacheEntryWrapper) :
    Except CachePanic (ObjectStorageCacheInternal × Option CacheEntry × List String) := do
  let (c, inserted, files) ← insertNonEvictable
    { c with curBytes := c.curBytes + w.fileSize } id w c.config.maxBytes true
  if inserted then return (c, some w.cacheEntry, files)
  else
    assert (w.fileSize ≤ c.curBytes) .bytesBelowFileSize
    return ({ c with curBytes := c.curBytes - w.fileSize }, none, files)

def incrementReferenceCount (id : TableUniqueFileId) : Except CachePanic ObjectStorageCacheInternal :=
  match c.nonEvictableCache.lookup id with
  | some w => do
    assert (0 < w.referenceCount) .nonEvictableUnreferenced
    return { c with nonEvictableCache :=
      c.nonEvictableCache.insert id { w with referenceCount := w.referenceCount + 1 } }
  | none => .error .notPinned

end ObjectStorageCacheInternal

/-! ## Clients of the cache -/

/-- The file that a miss fetches. The remote file itself is the cache file where that is possible;
otherwise it is copied to `localPath`. -/
def getCacheHandleFromRemote (isLocalFilepath : String → Bool) (config : ObjectStorageCacheConfig)
    (remotePath localPath : String) (fileSize : Nat) : CacheEntryWrapper :=
  if config.optimizeLocalFilesystem && isLocalFilepath remotePath then
    ⟨⟨remotePath, ⟨fileSize⟩⟩, 1, false⟩
  else ⟨⟨localPath, ⟨fileSize⟩⟩, 1, true⟩

structure CacheSystem where
  cache : ObjectStorageCacheInternal
  /-- The files of the handles that are not released, once for each handle. -/
  handles : List TableUniqueFileId
  /-- Misses, with the remote files that are being fetched. -/
  fetching : List (TableUniqueFileId × String)
  /-- The local copies that were imported or downloaded. -/
  copies : List String
  /-- The files that were returned to be deleted. -/
  returned : List String
  deriving DecidableEq

inductive CacheInput where
  | importCacheEntry (id : TableUniqueFileId) (entry : CacheEntry)
  | getCacheEntry (id : TableUniqueFileId) (remotePath : String)
  /-- The file of a miss arrives. -/
  | fetched (id : TableUniqueFileId) (remotePath localPath : String) (fileSize : Nat)
  | fetchFails (id : TableUniqueFileId) (remotePath : String)
  | unreference (id : TableUniqueFileId)
  | unreferenceAndDelete (id : TableUniqueFileId)
  | unreferenceAndReplaceWithRemote (id : TableUniqueFileId) (remotePath : String)
  | replaceWithRemote (id : TableUniqueFileId) (remotePath : String)
  | tryDeleteCacheEntry (id : TableUniqueFileId)
  | incrementReferenceCount (id : TableUniqueFileId)

inductive CacheAnswer where
  | handle (id : TableUniqueFileId) (entry : CacheEntry)
  | noSpace
  | fetching
  | failed
  | done

namespace CacheSystem

def new (config : ObjectStorageCacheConfig) : CacheSystem := ⟨.new config, [], [], [], []⟩

/-- The caller releases its handle, and gets files to delete. -/
def release (s : CacheSystem) (id : TableUniqueFileId)
    (r : ObjectStorageCacheInternal × List String) : CacheSystem :=
  { s with cache := r.1, handles := s.handles.erase id, returned := s.returned ++ r.2 }

def fetched (isLocalFilepath : String → Bool) (s : CacheSystem) (id : TableUniqueFileId)
    (remotePath localPath : String) (fileSize : Nat) : Except CachePanic (CacheSystem × CacheAnswer) :=
  if (id, remotePath) ∈ s.fetching then do
    let w := getCacheHandleFromRemote isLocalFilepath s.cache.config remotePath localPath fileSize
    let (cache, entry, files) ← s.cache.insertFetched id w
    let s := { s with
      cache
      fetching := s.fetching.erase (id, remotePath)
      copies := s.copies ++ w.evictedFile
      returned := s.returned ++ files }
    match entry with
    | some entry => return ({ s with handles := id :: s.handles }, .handle id entry)
    | none => return (s, .noSpace)
  else .ok (s, .done)

/-- One step of a client. -/
def next (isLocalFilepath : String → Bool) (s : CacheSystem) :
    CacheInput → Except CachePanic (CacheSystem × CacheAnswer)
  | .importCacheEntry id entry => do
    let (cache, files) ← s.cache.importCacheEntry id entry
    return ({ s with
      cache
      handles := id :: s.handles
      copies := s.copies ++ [entry.cacheFilepath]
      returned := s.returned ++ files }, .handle id entry)
  | .getCacheEntry id remotePath => do
    let (cache, entry) ← s.cache.getCached id
    match entry with
    | some entry => return ({ s with cache, handles := id :: s.handles }, .handle id entry)
    | none => return ({ s with cache, fetching := (id, remotePath) :: s.fetching }, .fetching)
  | .fetched id remotePath localPath fileSize =>
    s.fetched isLocalFilepath id remotePath localPath fileSize
  | .fetchFails id remotePath =>
    .ok ({ s with fetching := s.fetching.erase (id, remotePath) }, .failed)
  | .unreference id => do return (s.release id (← s.cache.unreference id), .done)
  | .unreferenceAndDelete id => do return (s.release id (← s.cache.unreferenceAndDelete id), .done)
  | .unreferenceAndReplaceWithRemote id remotePath => do
    return (s.release id
      (← s.cache.unreferenceAndReplaceWithRemote isLocalFilepath id remotePath), .done)
  | .replaceWithRemote id remotePath => do
    let (cache, files) ← s.cache.tryReplaceOnlyReferenceCountWithRemote isLocalFilepath id remotePath
    return ({ s with cache, returned := s.returned ++ files }, .done)
  | .tryDeleteCacheEntry id => do
    let (cache, files) ← s.cache.deleteCacheEntry id false
    return ({ s with cache, returned := s.returned ++ files }, .done)
  | .incrementReferenceCount id => do
    return ({ s with cache := ← s.cache.incrementReferenceCount id, handles := id :: s.handles }, .done)

def run (isLocalFilepath : String → Bool) (s : CacheSystem) (inputs : List CacheInput) :
    Except CachePanic CacheSystem :=
  inputs.foldlM (fun s i => do return (← s.next isLocalFilepath i).1) s

end CacheSystem
end Moonlink.ObjectCache
