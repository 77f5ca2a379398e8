-- SUMMARY: The file catalog: the objects of a table, the writes of each operation, and what a restart finds.
import Moonlink.Iceberg.Manifest
import Moonlink.Lib.Writes

/-!
# The file catalog

A table is a version hint, a metadata file for each version, and the manifest lists and
manifest files of its snapshots. A commit writes the metadata file of the next version and
replaces the hint; the version is the next sequence number of the metadata that it starts
from. What a snapshot commit changes besides its new data files is written over the manifest
list that the transaction of the library has just written.

Table metadata and the transaction are the library's, so they are parameters. A manifest
file has its contents by its name, so writing one that is there changes nothing, and one
that no list names is left out. The single writer holds the etag of the hint.
-/

namespace Moonlink.Iceberg

open Lib

inductive CatalogError where
  | objectNotFound
  | requirementFailed
  /-- `current_snapshot().unwrap()`. -/
  | noCurrentSnapshot
  | metadata
  | rewrite (e : RewriteError)
  deriving DecidableEq, Repr

/-- The objects in the directory of a table. -/
inductive ObjectName (Path ManifestFile : Type) where
  | versionHint
  | metadata (version : Nat)
  | manifestList (path : Path)
  | manifest (file : ManifestFile)
  deriving DecidableEq

inductive CatalogObject (Metadata ManifestFile : Type) where
  | version (version : Nat)
  | metadata (metadata : Metadata)
  | manifestList (manifests : List ManifestFile)
  | manifest

/-- Table metadata and its builder. A file location is given by its version. -/
structure MetadataLibrary (Metadata Schema Snapshot Path : Type) where
  fromTableCreation : Schema → Except CatalogError Metadata
  /-- `AddSnapshot` and `SetSnapshotRef` of the main branch. -/
  addSnapshot : Option Nat → Metadata → Snapshot → Except CatalogError Metadata
  addCurrentSchema : Option Nat → Metadata → Schema → Except CatalogError Metadata
  nextSequenceNumber : Metadata → Nat
  snapshots : Metadata → List Snapshot
  currentSnapshot : Metadata → Option Snapshot
  manifestList : Snapshot → Path

/-- A commit of a transaction: what the transaction wrote before, the new snapshot, and the
buffered updates of the catalog. -/
structure SnapshotCommit (Metadata Snapshot Path ManifestFile : Type) where
  newManifests : List ManifestFile
  manifests : List ManifestFile
  snapshot : Snapshot
  requirements : List (Metadata → Bool)
  tableUpdateProxy : TableUpdateProxy Path

inductive CatalogOp (Metadata Schema Snapshot Path ManifestFile : Type) where
  | createTable (creation icebergSchema : Schema)
  | updateTable (commit : SnapshotCommit Metadata Snapshot Path ManifestFile)
  | updateTableSchema (newSchema : Schema)

/-- What a restart finds of a table: its metadata and the manifests of its snapshot. -/
structure TableState (Metadata ManifestFile : Type) where
  metadata : Metadata
  manifests : List ManifestFile

namespace FileCatalog

variable {Metadata Schema Snapshot Path Metrics ManifestFile : Type}

abbrev Objects (Metadata Path ManifestFile : Type) : Type :=
  ObjectStore (ObjectName Path ManifestFile) (CatalogObject Metadata ManifestFile)

abbrev Write (Metadata Path ManifestFile : Type) : Type :=
  ObjectName Path ManifestFile × CatalogObject Metadata ManifestFile

/-! ## Reading -/

/-- The current version and its metadata. -/
def loadMetadata (objects : Objects Metadata Path ManifestFile) :
    Except CatalogError (Nat × Metadata) :=
  match objects .versionHint with
  | some (.version version) =>
    match objects (.metadata version) with
    | some (.metadata metadata) => .ok (version, metadata)
    | _ => .error .objectNotFound
  | _ => .error .objectNotFound

def loadManifestList (objects : Objects Metadata Path ManifestFile) (path : Path) :
    Except CatalogError (List ManifestFile) :=
  match objects (.manifestList path) with
  | some (.manifestList manifests) => .ok manifests
  | _ => .error .objectNotFound

/-- `get_table_if_exists`, and the manifests that the table names. -/
def getTableIfExists (lib : MetadataLibrary Metadata Schema Snapshot Path)
    (objects : Objects Metadata Path ManifestFile) :
    Except CatalogError (Option (TableState Metadata ManifestFile)) :=
  match objects .versionHint with
  | none => .ok none
  | some _ => do
    let (_, metadata) ← loadMetadata objects
    match lib.currentSnapshot metadata with
    | none => return some ⟨metadata, []⟩
    | some snapshot =>
      let manifests ← loadManifestList objects (lib.manifestList snapshot)
      if manifests.all fun f => (objects (.manifest f)).isSome then
        return some ⟨metadata, manifests⟩
      else throw .objectNotFound

/-! ## Writing -/

variable [DecidableEq Path] [DecidableEq ManifestFile] [Inhabited Metrics]

/-- The writes of `create_table`: the hint comes before the metadata file. -/
def createTable (lib : MetadataLibrary Metadata Schema Snapshot Path)
    (creation icebergSchema : Schema) :
    Except CatalogError (List (Write Metadata Path ManifestFile)) := do
  let metadata ← lib.fromTableCreation creation
  let metadata ← lib.addCurrentSchema none metadata icebergSchema
  return [(.versionHint, .version 0), (.metadata 0, .metadata metadata)]

/-- The writes of `append_puffin_metadata_and_rewrite`. -/
def rewriteManifests (lib : MetadataLibrary Metadata Schema Snapshot Path)
    (io : ManifestIo Path Metrics ManifestFile) (objects : Objects Metadata Path ManifestFile)
    (metadata : Metadata) (u : TableUpdateProxy Path) :
    Except CatalogError (List (Write Metadata Path ManifestFile)) :=
  if u.isEmpty then .ok []
  else match lib.currentSnapshot metadata with
    | none => .error .noCurrentSnapshot
    | some snapshot => do
      let old ← loadManifestList objects (lib.manifestList snapshot)
      match appendPuffinMetadataAndRewrite io old u with
      | .error e => throw (.rewrite e)
      | .ok new =>
        return (new.filter fun f => f ∉ old).map (fun f => (.manifest f, .manifest)) ++
          [(.manifestList (lib.manifestList snapshot), .manifestList new)]

/-- The writes of `update_table`, where `build` applies the updates of the commit. -/
def updateTable (lib : MetadataLibrary Metadata Schema Snapshot Path)
    (io : ManifestIo Path Metrics ManifestFile) (objects : Objects Metadata Path ManifestFile)
    (requirements : List (Metadata → Bool))
    (build : Option Nat → Metadata → Except CatalogError Metadata) (u : TableUpdateProxy Path) :
    Except CatalogError (List (Write Metadata Path ManifestFile)) := do
  let (current, metadata) ← loadMetadata objects
  let version := lib.nextSequenceNumber metadata
  if requirements.all (· metadata) then
    let newMetadata ← build (some current) metadata
    let rewrites ← rewriteManifests lib io objects newMetadata u
    return (.metadata version, .metadata newMetadata) :: rewrites ++
      [(.versionHint, .version version)]
  else throw .requirementFailed

/-- What the transaction writes before it commits. -/
def transactionWrites (lib : MetadataLibrary Metadata Schema Snapshot Path)
    (commit : SnapshotCommit Metadata Snapshot Path ManifestFile) :
    List (Write Metadata Path ManifestFile) :=
  commit.newManifests.map (fun f => (.manifest f, .manifest)) ++
    [(.manifestList (lib.manifestList commit.snapshot), .manifestList commit.manifests)]

/-- The writes of an operation that succeeds, in order. The buffers of the catalog are empty at a schema
update, since every snapshot commit clears them. -/
def writes (lib : MetadataLibrary Metadata Schema Snapshot Path)
    (io : ManifestIo Path Metrics ManifestFile) (objects : Objects Metadata Path ManifestFile) :
    CatalogOp Metadata Schema Snapshot Path ManifestFile →
      Except CatalogError (List (Write Metadata Path ManifestFile))
  | .createTable creation icebergSchema => createTable lib creation icebergSchema
  | .updateTable commit => do
    let before := transactionWrites lib commit
    let commitWrites ← updateTable lib io (applyWrites objects before) commit.requirements
      (fun location metadata => lib.addSnapshot location metadata commit.snapshot)
      commit.tableUpdateProxy
    return before ++ commitWrites
  | .updateTableSchema newSchema =>
    updateTable lib io objects []
      (fun location metadata => lib.addCurrentSchema location metadata newSchema) ⟨∅, ∅, [], []⟩

/-! ## Runs and crashes -/

/-- A table is created once. A transaction writes its manifest list to a new path, and the
list names manifests that exist. -/
def Permitted (lib : MetadataLibrary Metadata Schema Snapshot Path)
    (objects : Objects Metadata Path ManifestFile) :
    CatalogOp Metadata Schema Snapshot Path ManifestFile → Prop
  | .createTable .. => objects .versionHint = none
  | .updateTable commit =>
    objects (.manifestList (lib.manifestList commit.snapshot)) = none ∧
      ∀ f ∈ commit.manifests, f ∈ commit.newManifests ∨ objects (.manifest f) = some .manifest
  | .updateTableSchema _ => True

/-- The operation does not write over the metadata file of the current version. -/
def KeepsCurrentVersion (lib : MetadataLibrary Metadata Schema Snapshot Path)
    (objects : Objects Metadata Path ManifestFile) :
    CatalogOp Metadata Schema Snapshot Path ManifestFile → Prop
  | .createTable .. => False
  | .updateTable _ => ∃ version metadata, loadMetadata objects = .ok (version, metadata) ∧
      lib.nextSequenceNumber metadata ≠ version
  | .updateTableSchema newSchema => ∃ version metadata, loadMetadata objects = .ok (version, metadata) ∧
      (lib.nextSequenceNumber metadata ≠ version ∨
        lib.addCurrentSchema (some version) metadata newSchema = .ok metadata)

/-- The objects that the operations of one writer leave. An operation that keeps the
current version may also be cut short. -/
inductive Reachable (lib : MetadataLibrary Metadata Schema Snapshot Path)
    (io : ManifestIo Path Metrics ManifestFile) : Objects Metadata Path ManifestFile → Prop where
  | init : Reachable lib io fun _ => none
  | complete {objects : Objects Metadata Path ManifestFile}
      {op : CatalogOp Metadata Schema Snapshot Path ManifestFile}
      {ws : List (Write Metadata Path ManifestFile)} (h : Reachable lib io objects)
      (hpermitted : Permitted lib objects op) (hws : writes lib io objects op = .ok ws) :
      Reachable lib io (applyWrites objects ws)
  | crash {objects : Objects Metadata Path ManifestFile}
      {op : CatalogOp Metadata Schema Snapshot Path ManifestFile}
      {ws : List (Write Metadata Path ManifestFile)} (h : Reachable lib io objects)
      (hpermitted : Permitted lib objects op) (hws : writes lib io objects op = .ok ws)
      (hkeeps : KeepsCurrentVersion lib objects op) (k : Nat) :
      Reachable lib io (applyWrites objects (ws.take k))

/-- The current version refers to the object. -/
def Refers (lib : MetadataLibrary Metadata Schema Snapshot Path)
    (objects : Objects Metadata Path ManifestFile) (name : ObjectName Path ManifestFile) : Prop :=
  ∃ version metadata, loadMetadata objects = .ok (version, metadata) ∧
    (name = .metadata version ∨ ∃ snapshot ∈ lib.snapshots metadata,
      name = .manifestList (lib.manifestList snapshot) ∨
        ∃ manifests, loadManifestList objects (lib.manifestList snapshot) = .ok manifests ∧
          ∃ f ∈ manifests, name = .manifest f)

/-- After a crash at any of the writes a restart succeeds and finds the table from before
or the one after, and what the current version refers to is untouched until the hint is
written. -/
structure CrashAtomic (lib : MetadataLibrary Metadata Schema Snapshot Path)
    (objects : Objects Metadata Path ManifestFile) (ws : List (Write Metadata Path ManifestFile)) :
    Prop where
  succeeds : ∀ k, ∃ table, getTableIfExists lib (applyWrites objects (ws.take k)) = .ok table
  beforeOrAfter : ∀ k,
    getTableIfExists lib (applyWrites objects (ws.take k)) = getTableIfExists lib objects ∨
      getTableIfExists lib (applyWrites objects (ws.take k)) =
        getTableIfExists lib (applyWrites objects ws)
  untouched : ∀ k, (∀ w ∈ ws.take k, w.1 ≠ .versionHint) → ∀ name, Refers lib objects name →
    applyWrites objects (ws.take k) name = objects name

end FileCatalog

/-- What the library documents about table metadata of format version 2: a new snapshot of a
transaction takes the next sequence number, and a schema change leaves the snapshots alone. -/
structure MetadataLibrary.Lawful {Metadata Schema Snapshot Path : Type}
    (lib : MetadataLibrary Metadata Schema Snapshot Path) : Prop where
  creation : ∀ {creation metadata}, lib.fromTableCreation creation = .ok metadata →
    lib.nextSequenceNumber metadata = 1 ∧ lib.snapshots metadata = []
  current_mem : ∀ {metadata snapshot}, lib.currentSnapshot metadata = some snapshot →
    snapshot ∈ lib.snapshots metadata
  addSnapshot : ∀ {location metadata snapshot metadata'},
    lib.addSnapshot location metadata snapshot = .ok metadata' →
      lib.nextSequenceNumber metadata' = lib.nextSequenceNumber metadata + 1 ∧
        lib.currentSnapshot metadata' = some snapshot ∧
        ∀ s ∈ lib.snapshots metadata', s = snapshot ∨ s ∈ lib.snapshots metadata
  addCurrentSchema : ∀ {location metadata schema metadata'},
    lib.addCurrentSchema location metadata schema = .ok metadata' →
      lib.nextSequenceNumber metadata' = lib.nextSequenceNumber metadata ∧
        lib.currentSnapshot metadata' = lib.currentSnapshot metadata ∧
        lib.snapshots metadata' = lib.snapshots metadata

end Moonlink.Iceberg
