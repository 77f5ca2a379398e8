-- SUMMARY: When an operation of the file catalog is crash-atomic: exactly when it keeps the current version's metadata file.
import Moonlink.Iceberg.FileCatalog
import Moonlink.Iceberg.ManifestSpec

namespace Moonlink.Iceberg

open Lib

namespace FileCatalog

variable {Metadata Schema Snapshot Path Metrics ManifestFile : Type}
variable {lib : MetadataLibrary Metadata Schema Snapshot Path}
variable {objects objects' : Objects Metadata Path ManifestFile}

/-! ## Reading -/

variable {metadata : Metadata} {version : Nat}

theorem loadMetadata_eq_ok_iff :
    loadMetadata objects = .ok (version, metadata) ↔
      objects .versionHint = some (.version version) ∧
        objects (.metadata version) = some (.metadata metadata) := by
  unfold loadMetadata
  constructor
  · intro h
    split at h
    · rename_i v hhint
      split at h
      · rename_i m hm
        cases h
        exact ⟨hhint, hm⟩
      · cases h
    · cases h
  · rintro ⟨hhint, hm⟩
    simp only [hhint, hm]

theorem loadManifestList_eq_ok_iff {path : Path} {manifests : List ManifestFile} :
    loadManifestList objects path = .ok manifests ↔
      objects (.manifestList path) = some (.manifestList manifests) := by
  unfold loadManifestList
  constructor
  · intro h
    split at h
    · rename_i files hfiles
      cases h
      exact hfiles
    · cases h
  · intro h
    simp only [h]

/-- Every snapshot of the metadata has its manifest list, and that its manifests. -/
def HasSnapshots (lib : MetadataLibrary Metadata Schema Snapshot Path)
    (objects : Objects Metadata Path ManifestFile) (metadata : Metadata) : Prop :=
  ∀ snapshot ∈ lib.snapshots metadata, ∃ manifests,
    loadManifestList objects (lib.manifestList snapshot) = .ok manifests ∧
      ∀ f ∈ manifests, objects (.manifest f) = some .manifest

/-- The objects of a table at this version. -/
structure Live (lib : MetadataLibrary Metadata Schema Snapshot Path)
    (objects : Objects Metadata Path ManifestFile) (version : Nat) (metadata : Metadata) : Prop where
  load : loadMetadata objects = .ok (version, metadata)
  next : lib.nextSequenceNumber metadata = version + 1 ∨ lib.nextSequenceNumber metadata = version
  snapshots : HasSnapshots lib objects metadata

theorem all_isSome {manifests : List ManifestFile}
    (h : ∀ f ∈ manifests, objects (.manifest f) = some .manifest) :
    manifests.all (fun f => (objects (.manifest f)).isSome) = true := by
  rw [List.all_eq_true]
  intro f hf
  rw [h f hf]
  rfl

/-- The table that the objects of a version make up. -/
theorem Live.getTableIfExists (hlib : lib.Lawful) (h : Live lib objects version metadata) :
    ∃ manifests, getTableIfExists lib objects = .ok (some ⟨metadata, manifests⟩) := by
  obtain ⟨hhint, -⟩ := loadMetadata_eq_ok_iff.mp h.load
  unfold FileCatalog.getTableIfExists
  simp only [hhint, h.load, bind, Except.bind]
  cases hcurrent : lib.currentSnapshot metadata with
  | none => exact ⟨[], rfl⟩
  | some snapshot =>
    obtain ⟨manifests, hload, hexist⟩ := h.snapshots snapshot (hlib.current_mem hcurrent)
    refine ⟨manifests, ?_⟩
    simp only [hload, all_isSome hexist, if_true]
    rfl

/-- What the current version refers to decides what a restart finds. -/
theorem Live.congr (h : Live lib objects version metadata)
    (hhint : objects' .versionHint = objects .versionHint)
    (hrefers : ∀ name, Refers lib objects name → objects' name = objects name) :
    Live lib objects' version metadata := by
  obtain ⟨hversion, hmetadata⟩ := loadMetadata_eq_ok_iff.mp h.load
  refine ⟨?_, h.next, ?_⟩
  · rw [loadMetadata_eq_ok_iff, hhint, hrefers _ ⟨version, metadata, h.load, .inl rfl⟩]
    exact ⟨hversion, hmetadata⟩
  · intro snapshot hsnapshot
    obtain ⟨manifests, hload, hexist⟩ := h.snapshots snapshot hsnapshot
    refine ⟨manifests, ?_, ?_⟩
    · rw [loadManifestList_eq_ok_iff,
        hrefers _ ⟨version, metadata, h.load, .inr ⟨snapshot, hsnapshot, .inl rfl⟩⟩]
      exact loadManifestList_eq_ok_iff.mp hload
    · intro f hf
      rw [hrefers _ ⟨version, metadata, h.load,
        .inr ⟨snapshot, hsnapshot, .inr ⟨manifests, hload, f, hf, rfl⟩⟩⟩]
      exact hexist f hf

theorem Live.getTableIfExists_congr (hlib : lib.Lawful) (h : Live lib objects version metadata)
    (hhint : objects' .versionHint = objects .versionHint)
    (hrefers : ∀ name, Refers lib objects name → objects' name = objects name) :
    FileCatalog.getTableIfExists lib objects' = FileCatalog.getTableIfExists lib objects := by
  have h' := h.congr hhint hrefers
  obtain ⟨hversion, -⟩ := loadMetadata_eq_ok_iff.mp h.load
  unfold FileCatalog.getTableIfExists
  simp only [hhint, hversion, h.load, h'.load, bind, Except.bind]
  cases hcurrent : lib.currentSnapshot metadata with
  | none => rfl
  | some snapshot =>
    have hsnapshot := hlib.current_mem hcurrent
    obtain ⟨manifests, hload, hexist⟩ := h.snapshots snapshot hsnapshot
    obtain ⟨manifests', hload', hexist'⟩ := h'.snapshots snapshot hsnapshot
    have heq : manifests' = manifests := by
      rw [loadManifestList_eq_ok_iff,
        hrefers _ ⟨version, metadata, h.load, .inr ⟨snapshot, hsnapshot, .inl rfl⟩⟩,
        loadManifestList_eq_ok_iff.mp hload] at hload'
      cases hload'
      rfl
    subst heq
    simp only [hload, hload', all_isSome hexist, all_isSome hexist']

/-! ## Writes up to the hint -/

/-- Writes that touch neither the hint nor, but for what is there already, the objects of the
current version. -/
def Invisible (lib : MetadataLibrary Metadata Schema Snapshot Path)
    (objects : Objects Metadata Path ManifestFile) (ws : List (Write Metadata Path ManifestFile)) :
    Prop :=
  ∀ w ∈ ws, w.1 ≠ .versionHint ∧ (Refers lib objects w.1 → objects w.1 = some w.2)

variable {ws : List (Write Metadata Path ManifestFile)}

theorem Invisible.take
    (h : Invisible lib objects ws) (k : Nat) : Invisible lib objects (ws.take k) :=
  fun w hw => h w (List.mem_of_mem_take hw)

variable [DecidableEq Path] [DecidableEq ManifestFile]

theorem Invisible.hint (h : Invisible lib objects ws) :
    applyWrites objects ws .versionHint = objects .versionHint :=
  applyWrites_of_ne fun w hw => (h w hw).1

theorem Invisible.refers (h : Invisible lib objects ws) {name : ObjectName Path ManifestFile}
    (hname : Refers lib objects name) : applyWrites objects ws name = objects name :=
  applyWrites_eq fun w hw heq => by
    subst heq
    exact (h w hw).2 hname

/-- A commit whose writes stay invisible until the hint is crash-atomic. -/
theorem crashAtomic_of_invisible (hlib : lib.Lawful) (hlive : Live lib objects version metadata)
    {hint : CatalogObject Metadata ManifestFile} (hinv : Invisible lib objects ws)
    {version' : Nat} {metadata' : Metadata}
    (hafter : Live lib (applyWrites objects (ws ++ [(.versionHint, hint)])) version' metadata') :
    CrashAtomic lib objects (ws ++ [(.versionHint, hint)]) := by
  have hbefore : ∀ k, getTableIfExists lib (applyWrites objects (ws.take k)) =
      getTableIfExists lib objects := fun k =>
    hlive.getTableIfExists_congr hlib (hinv.take k).hint fun _ hname => (hinv.take k).refers hname
  constructor
  case succeeds =>
      intro k
      rcases take_concat ws (.versionHint, hint) k with hk | hk
      · obtain ⟨manifests, htable⟩ := hlive.getTableIfExists hlib
        exact ⟨_, by rw [hk, hbefore, htable]⟩
      · obtain ⟨manifests, htable⟩ := hafter.getTableIfExists hlib
        exact ⟨_, by rw [hk, htable]⟩
  case beforeOrAfter =>
      intro k
      rcases take_concat ws (.versionHint, hint) k with hk | hk
      · exact .inl (by rw [hk, hbefore])
      · exact .inr (by rw [hk])
  case untouched =>
      intro k hno name hname
      rcases take_concat ws (.versionHint, hint) k with hk | hk
      · rw [hk]
        exact (hinv.take k).refers hname
      · rw [hk] at hno
        exact absurd rfl (hno _ (List.mem_append_right _ (List.mem_singleton_self _)))

/-! ## What a commit writes before the hint -/

variable [Inhabited Metrics] {io : ManifestIo Path Metrics ManifestFile}

/-- The writes before the hint: the metadata file of the next version, manifest lists at new
paths, and manifests, which make up all the snapshots of the new metadata. -/
structure CommitSpec (lib : MetadataLibrary Metadata Schema Snapshot Path)
    (objects : Objects Metadata Path ManifestFile) (metadata newMetadata : Metadata)
    (ws : List (Write Metadata Path ManifestFile)) : Prop where
  written : (.metadata (lib.nextSequenceNumber metadata), .metadata newMetadata) ∈ ws
  hint : ∀ w ∈ ws, w.1 ≠ .versionHint
  metadataFile : ∀ w ∈ ws, ∀ version, w.1 = .metadata version →
    version = lib.nextSequenceNumber metadata ∧ w.2 = .metadata newMetadata
  manifestList : ∀ w ∈ ws, ∀ path, w.1 = .manifestList path → objects (.manifestList path) = none
  manifest : ∀ w ∈ ws, ∀ f, w.1 = .manifest f → w.2 = .manifest
  next : lib.nextSequenceNumber newMetadata = lib.nextSequenceNumber metadata + 1 ∨
    lib.nextSequenceNumber newMetadata = lib.nextSequenceNumber metadata
  snapshots : HasSnapshots lib (applyWrites objects ws) newMetadata

section

variable {version : Nat} {metadata newMetadata : Metadata}
variable {ws : List (Write Metadata Path ManifestFile)}

theorem applyWrites_hint (ws : List (Write Metadata Path ManifestFile))
    {name : ObjectName Path ManifestFile} (o : CatalogObject Metadata ManifestFile)
    (h : name ≠ .versionHint) :
    applyWrites objects (ws ++ [(.versionHint, o)]) name = applyWrites objects ws name := by
  rw [applyWrites_append]
  exact applyWrites_of_ne (by simpa using h.symm)

/-- A completed commit leaves a table at the next version. -/
theorem CommitSpec.live (h : CommitSpec lib objects metadata newMetadata ws) :
    Live lib (applyWrites objects
      (ws ++ [(.versionHint, .version (lib.nextSequenceNumber metadata))]))
      (lib.nextSequenceNumber metadata) newMetadata where
  load := by
    rw [loadMetadata_eq_ok_iff]
    refine ⟨applyWrites_last (by simp), ?_⟩
    rw [applyWrites_hint ws _ (by simp)]
    exact applyWrites_eq_some (.inr ⟨_, h.written, rfl⟩) fun w hw heq => (h.metadataFile w hw _ heq).2
  next := h.next
  snapshots := by
    intro snapshot hsnapshot
    obtain ⟨manifests, hload, hexist⟩ := h.snapshots snapshot hsnapshot
    refine ⟨manifests, ?_, ?_⟩
    · rw [loadManifestList_eq_ok_iff, applyWrites_hint ws _ (by simp)]
      exact loadManifestList_eq_ok_iff.mp hload
    · intro f hf
      rw [applyWrites_hint ws _ (by simp)]
      exact hexist f hf

/-- Before the hint, a commit touches the current version only by its metadata file. -/
theorem CommitSpec.invisible (h : CommitSpec lib objects metadata newMetadata ws)
    (hlive : Live lib objects version metadata)
    (hkeeps : lib.nextSequenceNumber metadata ≠ version ∨ newMetadata = metadata) :
    Invisible lib objects ws := by
  intro w hw
  refine ⟨h.hint w hw, ?_⟩
  rintro ⟨v, m, hload, hname⟩
  rw [hlive.load] at hload
  cases hload
  rcases hname with hname | ⟨snapshot, hsnapshot, hname | ⟨manifests, hlist, f, hf, hname⟩⟩
  · obtain ⟨hversion, hobject⟩ := h.metadataFile w hw _ hname
    rcases hkeeps with hne | rfl
    · exact absurd hversion.symm hne
    · rw [hname, hobject]
      exact (loadMetadata_eq_ok_iff.mp hlive.load).2
  · -- a manifest list of the current version is no new path
    obtain ⟨manifests, hlist, -⟩ := hlive.snapshots snapshot hsnapshot
    have hnone := h.manifestList w hw _ hname
    rw [loadManifestList_eq_ok_iff.mp hlist] at hnone
    cases hnone
  · obtain ⟨manifests', hlist', hexist⟩ := hlive.snapshots snapshot hsnapshot
    rw [hlist] at hlist'
    cases hlist'
    rw [hname, h.manifest w hw f hname]
    exact hexist f hf

/-- A commit is crash-atomic iff it leaves the metadata file of the current version as it is. -/
theorem CommitSpec.crashAtomic_iff (h : CommitSpec lib objects metadata newMetadata ws)
    (hlib : lib.Lawful) (hlive : Live lib objects version metadata) :
    CrashAtomic lib objects (ws ++ [(.versionHint, .version (lib.nextSequenceNumber metadata))]) ↔
      lib.nextSequenceNumber metadata ≠ version ∨ newMetadata = metadata := by
  constructor
  · intro hatomic
    by_contra hno
    push Not at hno
    obtain ⟨hversion, hne⟩ := hno
    -- the crash comes right before the hint
    have htake : ∀ w : Write Metadata Path ManifestFile, (ws ++ [w]).take ws.length = ws :=
      fun w => List.take_left ..
    have hsame := hatomic.untouched ws.length (by rw [htake]; exact h.hint) (.metadata version)
      ⟨version, metadata, hlive.load, .inl rfl⟩
    have hwritten : applyWrites objects ws (.metadata version) = some (.metadata newMetadata) := by
      rw [← hversion]
      exact applyWrites_eq_some (.inr ⟨_, h.written, rfl⟩) fun w hw heq =>
        (h.metadataFile w hw _ heq).2
    rw [htake, hwritten, (loadMetadata_eq_ok_iff.mp hlive.load).2] at hsame
    cases hsame
    exact hne rfl
  · intro hkeeps
    exact crashAtomic_of_invisible hlib hlive (h.invisible hlive hkeeps) h.live

end

/-! ## Operations -/

variable {u : TableUpdateProxy Path}

/-- What a rewrite of manifests writes: nothing, or new manifests and the manifest list of
the current snapshot, which then names manifests that were there or are new. -/
theorem rewriteManifests_eq_ok (h : rewriteManifests lib io objects metadata u = .ok ws) :
    ws = [] ∨ ∃ snapshot old new, lib.currentSnapshot metadata = some snapshot ∧
      loadManifestList objects (lib.manifestList snapshot) = .ok old ∧
      ws = (new.filter fun f => f ∉ old).map (fun f => (.manifest f, .manifest)) ++
        [(.manifestList (lib.manifestList snapshot), .manifestList new)] := by
  unfold rewriteManifests at h
  split at h
  · cases h
    exact .inl rfl
  · split at h
    · cases h
    · rename_i snapshot hcurrent
      obtain ⟨old, hold, h⟩ := bind_eq_ok.mp h
      split at h
      · cases h
      · rename_i new hnew
        cases h
        exact .inr ⟨snapshot, old, new, hcurrent, hold, rfl⟩

theorem updateTable_eq_ok {requirements : List (Metadata → Bool)}
    {build : Option Nat → Metadata → Except CatalogError Metadata}
    (h : updateTable lib io objects requirements build u = .ok ws) :
    ∃ current metadata newMetadata rewrites,
      loadMetadata objects = .ok (current, metadata) ∧
      build (some current) metadata = .ok newMetadata ∧
      rewriteManifests lib io objects newMetadata u = .ok rewrites ∧
      ws = (.metadata (lib.nextSequenceNumber metadata), .metadata newMetadata) :: rewrites ++
        [(.versionHint, .version (lib.nextSequenceNumber metadata))] := by
  unfold updateTable at h
  obtain ⟨⟨current, metadata⟩, hload, h⟩ := bind_eq_ok.mp h
  simp only at h
  split at h
  · obtain ⟨newMetadata, hbuild, h⟩ := bind_eq_ok.mp h
    obtain ⟨rewrites, hrewrites, h⟩ := bind_eq_ok.mp h
    cases h
    exact ⟨current, metadata, newMetadata, rewrites, hload, hbuild, hrewrites, rfl⟩
  · cases h

/-- A schema update writes the next metadata file, with the snapshots as they are. -/
theorem updateTableSchema_spec (hlib : lib.Lawful)
    (hlive : Live lib objects version metadata) {newSchema : Schema}
    (hws : writes lib io objects (.updateTableSchema newSchema) = .ok ws) :
    ∃ before newMetadata,
      ws = before ++ [(.versionHint, .version (lib.nextSequenceNumber metadata))] ∧
      lib.addCurrentSchema (some version) metadata newSchema = .ok newMetadata ∧
      CommitSpec lib objects metadata newMetadata before := by
  unfold writes at hws
  obtain ⟨current, m, newMetadata, rewrites, hload, hbuild, hrewrites, rfl⟩ := updateTable_eq_ok hws
  rw [hlive.load] at hload
  cases hload
  -- nothing is buffered
  have hnone : rewrites = [] := by
    unfold rewriteManifests at hrewrites
    rw [if_pos (by rfl)] at hrewrites
    cases hrewrites
    rfl
  subst hnone
  obtain ⟨hnext, -, hsnapshots⟩ := hlib.addCurrentSchema hbuild
  refine ⟨_, newMetadata, rfl, hbuild, ?_⟩
  constructor
  case written => exact List.mem_singleton_self _
  case hint => simp
  case metadataFile => simp [eq_comm]
  case manifestList => simp
  case manifest => simp
  case next => exact .inr hnext
  case snapshots =>
      intro snapshot hsnapshot
      rw [hsnapshots] at hsnapshot
      obtain ⟨manifests, hload, hexist⟩ := hlive.snapshots snapshot hsnapshot
      refine ⟨manifests, ?_, ?_⟩
      · rw [loadManifestList_eq_ok_iff, applyWrites_of_ne (by simp)]
        exact loadManifestList_eq_ok_iff.mp hload
      · intro f hf
        rw [applyWrites_of_ne (by simp)]
        exact hexist f hf

/-- A transaction does not touch the metadata before it commits. -/
theorem loadMetadata_transactionWrites
    (commit : SnapshotCommit Metadata Snapshot Path ManifestFile) :
    loadMetadata (applyWrites objects (transactionWrites lib commit)) = loadMetadata objects := by
  have hkeeps : ∀ name : ObjectName Path ManifestFile,
      (name = .versionHint ∨ ∃ version, name = .metadata version) →
        applyWrites objects (transactionWrites lib commit) name = objects name := by
    intro name hname
    refine applyWrites_of_ne ?_
    intro w hw
    rcases List.mem_append.mp hw with hm | hl
    · obtain ⟨f, -, rfl⟩ := List.mem_map.mp hm
      rcases hname with rfl | ⟨version, rfl⟩ <;> simp
    · rw [List.mem_singleton.mp hl]
      rcases hname with rfl | ⟨version, rfl⟩ <;> simp
  unfold loadMetadata
  simp only [hkeeps _ (.inl rfl), hkeeps _ (.inr ⟨_, rfl⟩)]

variable {commit : SnapshotCommit Metadata Snapshot Path ManifestFile}

/-- The writes of a snapshot commit before the hint. -/
theorem mem_commitWrites
    {newMetadata : Metadata} {n : Nat} {rewrites : List (Write Metadata Path ManifestFile)}
    (hcurrent : lib.currentSnapshot newMetadata = some commit.snapshot)
    (hrewrites : rewriteManifests lib io objects newMetadata u = .ok rewrites)
    {w : Write Metadata Path ManifestFile}
    (hw : w ∈ transactionWrites lib commit ++ (.metadata n, .metadata newMetadata) :: rewrites) :
    (∃ f, w = (.manifest f, .manifest)) ∨
      (∃ files, w = (.manifestList (lib.manifestList commit.snapshot), .manifestList files)) ∨
      w = (.metadata n, .metadata newMetadata) := by
  rcases List.mem_append.mp hw with hin | hin
  · rcases List.mem_append.mp hin with hm | hl
    · obtain ⟨f, -, rfl⟩ := List.mem_map.mp hm
      exact .inl ⟨f, rfl⟩
    · exact .inr (.inl ⟨_, List.mem_singleton.mp hl⟩)
  · rcases List.mem_cons.mp hin with rfl | hin
    · exact .inr (.inr rfl)
    · rcases rewriteManifests_eq_ok hrewrites with rfl | ⟨snapshot, old, new, hsnapshot, -, rfl⟩
      · cases hin
      · rw [hcurrent] at hsnapshot
        cases hsnapshot
        rcases List.mem_append.mp hin with hm | hl
        · obtain ⟨f, -, rfl⟩ := List.mem_map.mp hm
          exact .inl ⟨f, rfl⟩
        · exact .inr (.inl ⟨_, List.mem_singleton.mp hl⟩)

/-- The manifest list of a new snapshot, and its manifests, are there before the hint. -/
theorem commit_manifests
    {newMetadata : Metadata} {n : Nat} {rewrites : List (Write Metadata Path ManifestFile)}
    (hcurrent : lib.currentSnapshot newMetadata = some commit.snapshot)
    (hrewrites : rewriteManifests lib io (applyWrites objects (transactionWrites lib commit))
      newMetadata u = .ok rewrites) :
    ∃ manifests, loadManifestList (applyWrites objects (transactionWrites lib commit ++
        (.metadata n, .metadata newMetadata) :: rewrites))
        (lib.manifestList commit.snapshot) = .ok manifests ∧
      ∀ f ∈ manifests, f ∈ commit.manifests ∨ (.manifest f, .manifest) ∈ rewrites := by
  rcases rewriteManifests_eq_ok hrewrites with rfl | ⟨snapshot, old, new, hsnapshot, hold, rfl⟩
  · refine ⟨commit.manifests, ?_, fun f hf => .inl hf⟩
    rw [loadManifestList_eq_ok_iff]
    unfold transactionWrites
    rw [List.append_assoc, List.singleton_append]
    exact applyWrites_last (by simp)
  · rw [hcurrent] at hsnapshot
    cases hsnapshot
    have hold' : old = commit.manifests := by
      rw [loadManifestList_eq_ok_iff] at hold
      unfold transactionWrites at hold
      rw [applyWrites_last (by simp)] at hold
      cases hold
      rfl
    subst hold'
    refine ⟨new, ?_, ?_⟩
    · rw [loadManifestList_eq_ok_iff, ← List.cons_append, ← List.append_assoc]
      exact applyWrites_last (by simp)
    · intro f hf
      by_cases hin : f ∈ commit.manifests
      · exact .inl hin
      · refine .inr (List.mem_append_left _ (List.mem_map.mpr ⟨f, ?_, rfl⟩))
        exact List.mem_filter.mpr ⟨hf, by simpa using hin⟩

/-- A snapshot commit writes new manifests and a manifest list at a new path, and the next
metadata file. -/
theorem updateTable_spec (hlib : lib.Lawful) (hlive : Live lib objects version metadata)
    (hpermitted : Permitted lib objects (.updateTable commit : CatalogOp Metadata Schema ..))
    (hws : writes lib io objects (.updateTable commit) = .ok ws) :
    ∃ before newMetadata,
      ws = before ++ [(.versionHint, .version (lib.nextSequenceNumber metadata))] ∧
      lib.addSnapshot (some version) metadata commit.snapshot = .ok newMetadata ∧
      CommitSpec lib objects metadata newMetadata before := by
  obtain ⟨hfresh, hmanifests⟩ := hpermitted
  unfold writes at hws
  obtain ⟨commitWrites, hcommit, hws⟩ := bind_eq_ok.mp hws
  cases hws
  obtain ⟨current, m, newMetadata, rewrites, hload, hbuild, hrewrites, rfl⟩ :=
    updateTable_eq_ok hcommit
  rw [loadMetadata_transactionWrites, hlive.load] at hload
  cases hload
  obtain ⟨hnext, hcurrent, hsnapshots⟩ := hlib.addSnapshot hbuild
  refine ⟨transactionWrites lib commit ++
    (.metadata (lib.nextSequenceNumber metadata), .metadata newMetadata) :: rewrites, newMetadata,
    by simp, hbuild, ?_⟩
  have hmem := fun w => mem_commitWrites (n := lib.nextSequenceNumber metadata) (w := w)
    hcurrent hrewrites
  have hmanifest : ∀ w ∈ transactionWrites lib commit ++
      (.metadata (lib.nextSequenceNumber metadata), .metadata newMetadata) :: rewrites,
      ∀ f, w.1 = .manifest f → w.2 = .manifest := by
    rintro w hw f hf
    rcases hmem w hw with ⟨f, rfl⟩ | ⟨files, rfl⟩ | rfl
    · rfl
    · cases hf
    · cases hf
  constructor
  case written => exact List.mem_append_right _ List.mem_cons_self
  case hint =>
      intro w hw
      rcases hmem w hw with ⟨f, rfl⟩ | ⟨files, rfl⟩ | rfl <;> simp
  case metadataFile =>
      rintro w hw v hv
      rcases hmem w hw with ⟨f, rfl⟩ | ⟨files, rfl⟩ | rfl
      · cases hv
      · cases hv
      · cases hv
        exact ⟨rfl, rfl⟩
  case manifestList =>
      rintro w hw path hpath
      rcases hmem w hw with ⟨f, rfl⟩ | ⟨files, rfl⟩ | rfl
      · cases hpath
      · cases hpath
        exact hfresh
      · cases hpath
  case manifest => exact hmanifest
  case next => exact .inl hnext
  case snapshots =>
      intro snapshot hsnapshot
      rcases hsnapshots snapshot hsnapshot with rfl | hold
      · obtain ⟨manifests, hload, hnew⟩ := commit_manifests (n := lib.nextSequenceNumber metadata)
          hcurrent hrewrites
        refine ⟨manifests, hload, ?_⟩
        intro f hf
        refine applyWrites_eq_some ?_ fun w hw heq => hmanifest w hw f heq
        rcases hnew f hf with hin | hin
        · rcases hmanifests f hin with hwritten | hthere
          · refine .inr ⟨(.manifest f, .manifest), ?_, rfl⟩
            exact List.mem_append_left _ (List.mem_append_left _ (List.mem_map.mpr ⟨f, hwritten, rfl⟩))
          · exact .inl hthere
        · exact .inr ⟨_, List.mem_append_right _ (List.mem_cons_of_mem _ hin), rfl⟩
      · obtain ⟨manifests, hload, hexist⟩ := hlive.snapshots snapshot hold
        have hthere := loadManifestList_eq_ok_iff.mp hload
        refine ⟨manifests, ?_, ?_⟩
        · rw [loadManifestList_eq_ok_iff, applyWrites_of_ne]
          · exact hthere
          · -- the path of the new manifest list is new
            rintro w hw heq
            rcases hmem w hw with ⟨f, rfl⟩ | ⟨files, rfl⟩ | rfl
            · cases heq
            · simp only [ObjectName.manifestList.injEq] at heq
              rw [← heq, hfresh] at hthere
              cases hthere
            · cases heq
        · intro f hf
          exact applyWrites_eq_some (.inl (hexist f hf)) fun w hw heq => hmanifest w hw f heq

/-! ## Runs -/

omit [DecidableEq Path] [DecidableEq ManifestFile] in
/-- Creating a table. -/
theorem createTable_spec (hlib : lib.Lawful) {creation icebergSchema : Schema}
    (hws : createTable lib creation icebergSchema = .ok ws) :
    ∃ metadata, ws = [(.versionHint, .version 0), (.metadata 0, .metadata metadata)] ∧
      lib.nextSequenceNumber metadata = 1 ∧ lib.snapshots metadata = [] := by
  unfold createTable at hws
  obtain ⟨m, hm, hws⟩ := bind_eq_ok.mp hws
  obtain ⟨metadata, hmetadata, hws⟩ := bind_eq_ok.mp hws
  cases hws
  obtain ⟨hnext, hsnapshots⟩ := hlib.creation hm
  obtain ⟨hnext', -, hsnapshots'⟩ := hlib.addCurrentSchema hmetadata
  exact ⟨metadata, rfl, hnext'.trans hnext, hsnapshots'.trans hsnapshots⟩

/-- There is no table, or one at some version. -/
def Inv (lib : MetadataLibrary Metadata Schema Snapshot Path)
    (objects : Objects Metadata Path ManifestFile) : Prop :=
  objects = (fun _ => none) ∨ ∃ version metadata, Live lib objects version metadata

/-- A commit to a table: its writes, and when it keeps the current version. -/
theorem commit_spec (hlib : lib.Lawful) (hinv : Inv lib objects)
    {op : CatalogOp Metadata Schema Snapshot Path ManifestFile}
    (hpermitted : Permitted lib objects op) (hws : writes lib io objects op = .ok ws)
    (hop : ∀ creation icebergSchema, op ≠ .createTable creation icebergSchema) :
    ∃ version metadata newMetadata before, Live lib objects version metadata ∧
      CommitSpec lib objects metadata newMetadata before ∧
      ws = before ++ [(.versionHint, .version (lib.nextSequenceNumber metadata))] ∧
      (KeepsCurrentVersion lib objects op ↔
        lib.nextSequenceNumber metadata ≠ version ∨ newMetadata = metadata) := by
  cases op with
  | createTable creation icebergSchema => exact absurd rfl (hop creation icebergSchema)
  | updateTable commit =>
    rcases hinv with rfl | ⟨version, metadata, hlive⟩
    · -- without a table there is nothing to update
      unfold writes at hws
      obtain ⟨commitWrites, hcommit, -⟩ := bind_eq_ok.mp hws
      obtain ⟨current, m, newMetadata, rewrites, hload, -⟩ := updateTable_eq_ok hcommit
      rw [loadMetadata_transactionWrites] at hload
      cases hload
    · obtain ⟨before, newMetadata, rfl, hbuild, hspec⟩ := updateTable_spec hlib hlive hpermitted hws
      refine ⟨version, metadata, newMetadata, before, hlive, hspec, rfl, ?_⟩
      have hne : newMetadata ≠ metadata := by
        rintro rfl
        have := (hlib.addSnapshot hbuild).1
        omega
      constructor
      · rintro ⟨v, m, hload, hkeeps⟩
        rw [hlive.load] at hload
        cases hload
        exact .inl hkeeps
      · rintro (hkeeps | heq)
        · exact ⟨version, metadata, hlive.load, hkeeps⟩
        · exact absurd heq hne
  | updateTableSchema newSchema =>
    rcases hinv with rfl | ⟨version, metadata, hlive⟩
    · cases hws
    · obtain ⟨before, newMetadata, rfl, hbuild, hspec⟩ := updateTableSchema_spec hlib hlive hws
      refine ⟨version, metadata, newMetadata, before, hlive, hspec, rfl, ?_⟩
      constructor
      · rintro ⟨v, m, hload, hkeeps⟩
        rw [hlive.load] at hload
        cases hload
        rw [hbuild] at hkeeps
        exact hkeeps.imp_right fun h => Except.ok.inj h
      · rintro hkeeps
        refine ⟨version, metadata, hlive.load, hkeeps.imp_right ?_⟩
        rintro rfl
        exact hbuild

theorem Inv.complete (hlib : lib.Lawful) (hinv : Inv lib objects)
    {op : CatalogOp Metadata Schema Snapshot Path ManifestFile}
    (hpermitted : Permitted lib objects op)
    (hws : writes lib io objects op = .ok ws) : Inv lib (applyWrites objects ws) := by
  by_cases hop : ∀ creation icebergSchema, op ≠ .createTable creation icebergSchema
  · obtain ⟨version, metadata, newMetadata, before, -, hspec, rfl, -⟩ :=
      commit_spec hlib hinv hpermitted hws hop
    exact .inr ⟨_, _, hspec.live⟩
  · push Not at hop
    obtain ⟨creation, icebergSchema, rfl⟩ := hop
    obtain ⟨metadata, rfl, hnext, hsnapshots⟩ := createTable_spec hlib hws
    refine .inr ⟨0, metadata, ?_, .inl hnext, ?_⟩
    · rw [loadMetadata_eq_ok_iff]
      exact ⟨@applyWrites_last _ _ _ _ [] _ _ _ (by simp), @applyWrites_last _ _ _ _ [_] _ _ _ (by simp)⟩
    · intro snapshot hsnapshot
      rw [hsnapshots] at hsnapshot
      cases hsnapshot

theorem Inv_reachable (hlib : lib.Lawful) (h : Reachable lib io objects) : Inv lib objects := by
  induction h with
  | init => exact .inl rfl
  | complete _ hpermitted hws ih => exact ih.complete hlib hpermitted hws
  | crash hreachable hpermitted hws hkeeps k ih =>
    rename_i objects op ws
    have hop : ∀ creation icebergSchema, op ≠ .createTable creation icebergSchema := by
      rintro creation icebergSchema rfl
      exact hkeeps
    obtain ⟨version, metadata, newMetadata, before, hlive, hspec, rfl, hiff⟩ :=
      commit_spec hlib ih hpermitted hws hop
    rcases take_concat before (.versionHint, .version (lib.nextSequenceNumber metadata)) k with
      hk | hk
    · rw [hk]
      have hinvisible := (hspec.invisible hlive (hiff.mp hkeeps)).take k
      exact .inr ⟨version, metadata,
        hlive.congr hinvisible.hint fun _ hname => hinvisible.refers hname⟩
    · rw [hk]
      exact .inr ⟨_, _, hspec.live⟩

/-- In any state that the operations of one writer leave, an operation is crash-atomic iff
it does not write over the metadata file of the current version; creating a table never is. -/
theorem crashAtomic_iff_keepsCurrentVersion (hlib : lib.Lawful) (h : Reachable lib io objects)
    {op : CatalogOp Metadata Schema Snapshot Path ManifestFile}
    (hpermitted : Permitted lib objects op) {ws : List (Write Metadata Path ManifestFile)}
    (hws : writes lib io objects op = .ok ws) :
    CrashAtomic lib objects ws ↔ KeepsCurrentVersion lib objects op := by
  have hinv := Inv_reachable hlib h
  by_cases hop : ∀ creation icebergSchema, op ≠ .createTable creation icebergSchema
  · obtain ⟨version, metadata, newMetadata, before, hlive, hspec, rfl, hiff⟩ :=
      commit_spec hlib hinv hpermitted hws hop
    rw [hiff]
    exact hspec.crashAtomic_iff hlib hlive
  · push Not at hop
    obtain ⟨creation, icebergSchema, rfl⟩ := hop
    refine ⟨fun hatomic => ?_, fun hkeeps => hkeeps.elim⟩
    obtain ⟨metadata, rfl, -, -⟩ := createTable_spec hlib hws
    -- with the hint alone, the metadata file is missing
    rcases hinv with rfl | ⟨version, metadata, hlive⟩
    · obtain ⟨table, htable⟩ := hatomic.succeeds 1
      cases htable
    · have hhint : objects .versionHint = none := hpermitted
      rw [(loadMetadata_eq_ok_iff.mp hlive.load).1] at hhint
      cases hhint

/-! ## A table with a schema update -/

/-- Metadata as far as a commit looks at it, with snapshots given by their manifest lists. -/
structure SimpleMetadata where
  schema : Nat
  lastSequenceNumber : Nat
  snapshots : List Nat

def SimpleMetadata.library : MetadataLibrary SimpleMetadata Nat Nat Nat where
  fromTableCreation schema := .ok ⟨schema, 0, []⟩
  addSnapshot _ m snapshot := .ok ⟨m.schema, m.lastSequenceNumber + 1, m.snapshots ++ [snapshot]⟩
  addCurrentSchema _ m schema := .ok { m with schema }
  nextSequenceNumber m := m.lastSequenceNumber + 1
  snapshots m := m.snapshots
  currentSnapshot m := m.snapshots.getLast?
  manifestList snapshot := snapshot

theorem SimpleMetadata.library_lawful : SimpleMetadata.library.Lawful where
  creation := by
    rintro schema m ⟨⟩
    exact ⟨rfl, rfl⟩
  current_mem := fun h => List.mem_of_getLast? h
  addSnapshot := by
    rintro location m snapshot m' ⟨⟩
    refine ⟨rfl, List.getLast?_concat, ?_⟩
    intro s hs
    rcases List.mem_append.mp hs with hin | hin
    · exact .inr hin
    · exact .inl (List.mem_singleton.mp hin)
  addCurrentSchema := by
    rintro location m schema m' ⟨⟩
    exact ⟨rfl, rfl, rfl⟩

/-- A snapshot whose only change is a new file index. -/
def indexCommit : SnapshotCommit SimpleMetadata Nat Nat (Manifest Nat Unit) where
  newManifests := []
  manifests := []
  snapshot := 5
  requirements := []
  tableUpdateProxy :=
    { deletionVectorBlobsToAdd := ∅
      fileIndexBlobsToAdd := AList.singleton 21 [⟨mooncakeHashIndexV1, 1, 4, 40, none, some 1⟩]
      puffinBlobsToRemove := []
      dataFilesToRemove := [] }

def createdTable : Objects SimpleMetadata Nat (Manifest Nat Unit) :=
  applyWrites (fun _ => none) [(.versionHint, .version 0), (.metadata 0, .metadata ⟨2, 0, []⟩)]

theorem createdTable_reachable : Reachable SimpleMetadata.library .inMemory createdTable :=
  Reachable.init.complete
    (show Permitted SimpleMetadata.library (fun _ => none) (.createTable 1 2) from rfl) rfl

/-- A snapshot commit to a new table is crash-atomic. -/
theorem indexCommit_crashAtomic :
    ∃ ws, writes SimpleMetadata.library .inMemory createdTable (.updateTable indexCommit) = .ok ws ∧
      CrashAtomic SimpleMetadata.library createdTable ws := by
  have happly : ∀ ws, writes SimpleMetadata.library .inMemory createdTable (.updateTable indexCommit) =
      .ok ws → CrashAtomic SimpleMetadata.library createdTable ws := by
    intro ws hws
    have hpermitted : Permitted SimpleMetadata.library createdTable (.updateTable indexCommit) :=
      ⟨rfl, by simp [indexCommit]⟩
    exact (crashAtomic_iff_keepsCurrentVersion SimpleMetadata.library_lawful
      createdTable_reachable hpermitted hws).mpr ⟨0, _, rfl, by decide⟩
  exact ⟨_, rfl, happly _ rfl⟩

/-- The table after a schema update, at version 1. -/
def alteredTable : Objects SimpleMetadata Nat (Manifest Nat Unit) :=
  applyWrites createdTable
    [(.metadata 1, .metadata ⟨3, 0, []⟩), (.versionHint, .version 1)]

theorem alteredTable_reachable : Reachable SimpleMetadata.library .inMemory alteredTable :=
  createdTable_reachable.complete
    (show Permitted SimpleMetadata.library createdTable (.updateTableSchema 3) from trivial) rfl

/-- After a schema update, a snapshot commit that crashes between its metadata file and its
manifest list leaves a table that is neither the old nor the new one. A crash between the
two writes of a creation leaves a table that cannot be loaded. -/
theorem crash_leaves_partial_table :
    (Reachable SimpleMetadata.library .inMemory alteredTable ∧
      Permitted SimpleMetadata.library alteredTable (.updateTable indexCommit) ∧
      ∃ ws, writes SimpleMetadata.library .inMemory alteredTable (.updateTable indexCommit) = .ok ws ∧
      getTableIfExists SimpleMetadata.library (applyWrites alteredTable (ws.take 2)) =
        .ok (some ⟨⟨3, 1, [5]⟩, []⟩) ∧
      getTableIfExists SimpleMetadata.library alteredTable = .ok (some ⟨⟨3, 0, []⟩, []⟩) ∧
      getTableIfExists SimpleMetadata.library (applyWrites alteredTable ws) =
        .ok (some ⟨⟨3, 1, [5]⟩,
          [⟨[fileIndexEntry (21, ⟨mooncakeHashIndexV1, 1, 4, 40, none, some 1⟩)], .data⟩]⟩) ∧
      ¬ CrashAtomic SimpleMetadata.library alteredTable ws) ∧
    ∃ ws : List (Write SimpleMetadata Nat (Manifest Nat Unit)),
      createTable SimpleMetadata.library 1 2 = .ok ws ∧
      getTableIfExists SimpleMetadata.library (applyWrites (fun _ => none) (ws.take 1)) =
        .error .objectNotFound := by
  refine ⟨⟨alteredTable_reachable, ⟨rfl, by simp [indexCommit]⟩, _, rfl, rfl, rfl, rfl, ?_⟩,
    _, rfl, rfl⟩
  intro hatomic
  rcases hatomic.beforeOrAfter 2 with h | h
  · cases h
  · cases h

end FileCatalog
end Moonlink.Iceberg
