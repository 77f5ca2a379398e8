-- SUMMARY: What a manifest rewrite keeps: the live entries and those of new blobs, unless a data file manifest was full.
import Moonlink.Iceberg.Manifest

namespace Moonlink.Iceberg

open Lib

variable {Path Metrics ManifestFile : Type}

/-! ## Manifests of one entry type -/

namespace ManifestEntryType

def manifestContent : ManifestEntryType → ManifestContentType
  | .dataFile => .data
  | .deletionVector => .deletes
  | .fileIndex => .data

def fileFormat : ManifestEntryType → DataFileFormat
  | .dataFile => .parquet
  | .deletionVector => .puffin
  | .fileIndex => .puffin

def content : ManifestEntryType → DataContentType
  | .dataFile => .data
  | .deletionVector => .positionDeletes
  | .fileIndex => .data

end ManifestEntryType

structure ManifestEntry.OfType (t : ManifestEntryType) (e : ManifestEntry Path Metrics) : Prop where
  fileFormat : e.dataFile.fileFormat = t.fileFormat
  content : e.dataFile.content = t.content
  sequenceNumber : e.sequenceNumber.isSome
  /-- A deletion vector says which data file it is for. -/
  referenced : t = .deletionVector → e.dataFile.referencedDataFile.isSome

/-- The manifest is not empty, and all its entries have this type. -/
structure Manifest.OfType (t : ManifestEntryType) (m : Manifest Path Metrics) : Prop where
  content : m.content = t.manifestContent
  nonempty : m.entries ≠ []
  entries : ∀ e ∈ m.entries, e.OfType t

def Manifest.WellFormed (m : Manifest Path Metrics) : Prop := ∃ t, m.OfType t

variable {t : ManifestEntryType} {m : Manifest Path Metrics}

theorem Manifest.OfType.getManifestEntryType
    (h : m.OfType t) : getManifestEntryType m.entries m.content = .ok t := by
  obtain ⟨first, rest, heq⟩ := List.exists_cons_of_ne_nil h.nonempty
  have hfirst := (h.entries first (by rw [heq]; exact List.mem_cons_self)).fileFormat
  rw [heq, h.content]
  cases t <;>
    simp [Iceberg.getManifestEntryType, RewriteError.unwrap, RewriteError.assert, hfirst,
      ManifestEntryType.manifestContent, ManifestEntryType.fileFormat]

def Manifest.entryType (m : Manifest Path Metrics) : Option ManifestEntryType :=
  (getManifestEntryType m.entries m.content).toOption

theorem Manifest.OfType.entryType (h : m.OfType t) : m.entryType = some t := by
  unfold Manifest.entryType
  rw [h.getManifestEntryType]
  rfl

/-- The entries of this type in the manifests of a list. -/
def entriesOf (t : ManifestEntryType) (ms : List (Manifest Path Metrics)) :
    List (ManifestEntry Path Metrics) :=
  (ms.filter (·.entryType = some t)).flatMap (·.entries)

@[simp] theorem entriesOf_nil (t : ManifestEntryType) :
    entriesOf t ([] : List (Manifest Path Metrics)) = [] := rfl

@[simp] theorem entriesOf_append (t : ManifestEntryType) (ms ms' : List (Manifest Path Metrics)) :
    entriesOf t (ms ++ ms') = entriesOf t ms ++ entriesOf t ms' := by
  simp [entriesOf]

theorem entriesOf_cons (h : m.OfType t)
    (t' : ManifestEntryType) (ms : List (Manifest Path Metrics)) :
    entriesOf t' (m :: ms) = (if t' = t then m.entries else []) ++ entriesOf t' ms := by
  by_cases heq : t' = t
  · simp [entriesOf, h.entryType, heq]
  · have hne : t ≠ t' := fun h => heq h.symm
    simp [entriesOf, h.entryType, heq, hne]

theorem ofType_of_mem_entriesOf {ms : List (Manifest Path Metrics)}
    (hms : ∀ m ∈ ms, m.WellFormed) {e : ManifestEntry Path Metrics} (he : e ∈ entriesOf t ms) :
    e.OfType t := by
  obtain ⟨m, hm, hem⟩ := List.mem_flatMap.mp he
  obtain ⟨hm, htype⟩ := List.mem_filter.mp hm
  obtain ⟨t', hof⟩ := hms m hm
  rw [hof.entryType, decide_eq_true_eq, Option.some.injEq] at htype
  exact htype ▸ hof.entries e hem

/-! ## Manifest files -/

/-- The entry of a file that was added to a writer. -/
def entryOf (file : DataFile Path Metrics × Int64) : ManifestEntry Path Metrics := ⟨file.1, some file.2⟩

/-- A manifest file that is written holds the files that were added. A manifest for data takes
only data, and one for deletions takes none. The writer drops a negative sequence number, so this
is for tables without one. -/
structure ManifestIo.Lawful (io : ManifestIo Path Metrics ManifestFile) : Prop where
  write : ∀ content files, files ≠ [] →
    (∀ f ∈ files, f.1.content = .data ↔ content = .data) →
    Returns (io.writeManifestFile content files) fun m =>
      io.loadManifest m = .ok ⟨files.map entryOf, content⟩

/-- What is in the manifest files of a list. -/
def ManifestIo.Reads (io : ManifestIo Path Metrics ManifestFile) :
    List ManifestFile → List (Manifest Path Metrics) → Prop :=
  List.Forall₂ fun f m => io.loadManifest f = .ok m

/-- A manager wrote these entries to at most one manifest. -/
structure Finalized (io : ManifestIo Path Metrics ManifestFile) (t : ManifestEntryType)
    (entries : List (ManifestEntry Path Metrics)) (out : List ManifestFile)
    (ms : List (Manifest Path Metrics)) : Prop where
  reads : io.Reads out ms
  ofType : ∀ m ∈ ms, m.OfType t
  entries : ms.flatMap (·.entries) = entries

variable {io : ManifestIo Path Metrics ManifestFile}

theorem Finalized.entriesOf {entries : List (ManifestEntry Path Metrics)} {out : List ManifestFile}
    {ms : List (Manifest Path Metrics)} (h : Finalized io t entries out ms) (t' : ManifestEntryType) :
    Iceberg.entriesOf t' ms = if t' = t then entries else [] := by
  have hfilter : ms.filter (·.entryType = some t') = if t' = t then ms else [] := by
    split
    · rename_i heq
      exact List.filter_eq_self.mpr fun m hm => by rw [(h.ofType m hm).entryType, heq]; simp
    · rename_i hne
      refine List.filter_eq_nil_iff.mpr fun m hm => ?_
      rw [(h.ofType m hm).entryType]
      simpa using fun heq => hne heq.symm
  unfold Iceberg.entriesOf
  rw [hfilter]
  split
  · exact h.entries
  · rfl

theorem Finalized.nil :
    Finalized io t [] [] [] where
  reads := .nil
  ofType := by simp
  entries := rfl

/-- Files whose entries have the type of the manager are written as they are. -/
theorem writeManifestFile_finalized (hio : io.Lawful)
    {files : List (DataFile Path Metrics × Int64)} (hne : files ≠ [])
    (hfiles : ∀ f ∈ files, (entryOf f).OfType t) :
    Returns (io.writeManifestFile t.manifestContent files) fun m =>
      ∃ ms, Finalized io t (files.map entryOf) [m] ms := by
  have hcontent : ∀ f ∈ files, f.1.content = .data ↔ t.manifestContent = .data := by
    intro f hf
    have hf : f.1.content = t.content := (hfiles f hf).content
    rw [hf]
    cases t <;> decide
  refine (hio.write t.manifestContent files hne hcontent).mono fun m hm => ?_
  refine ⟨[⟨files.map entryOf, t.manifestContent⟩], .cons hm .nil, ?_, by simp⟩
  intro m hm
  rw [List.mem_singleton.mp hm]
  refine ⟨rfl, by simpa using hne, fun e he => ?_⟩
  obtain ⟨f, hf, rfl⟩ := List.mem_map.mp he
  exact hfiles f hf

theorem unwrap_returns {α : Type} {a : Option α} {e : RewriteError} (h : a.isSome) :
    Returns (RewriteError.unwrap a e) fun b => a = some b := by
  obtain ⟨b, rfl⟩ := Option.isSome_iff_exists.mp h
  exact .ok rfl

theorem assert_returns {c : Bool} {e : RewriteError} (h : c = true) :
    Returns (RewriteError.assert c e) fun _ => True := by
  rw [RewriteError.assert, if_pos h]
  exact .ok trivial

/-- An entry with a sequence number is that of its file. -/
theorem eq_entryOf {e : ManifestEntry Path Metrics} {n : Int64} (h : e.sequenceNumber = some n) :
    e = entryOf (e.dataFile, n) := by
  cases e
  cases h
  rfl

/-! ## Data files -/

/-- The entries that were added are those of finalized manifest files, which were full, and
those in the writer. -/
structure DataFileManifestManager.Holds (m : DataFileManifestManager Path Metrics ManifestFile)
    (added finalized : List (ManifestEntry Path Metrics))
    (pending : List (DataFile Path Metrics × Int64)) : Prop where
  added : added = finalized ++ pending.map entryOf
  writer : m.writer = if pending = [] then none else some pending
  count : m.curManifestEntriesNum = pending.length
  short : pending.length < defaultMaxManifestEntryCount
  full : finalized = [] ∨ defaultMaxManifestEntryCount ≤ finalized.length

namespace DataFileManifestManager

variable {io : ManifestIo Path Metrics ManifestFile}
  {m : DataFileManifestManager Path Metrics ManifestFile}
  {added : List (ManifestEntry Path Metrics)}

theorem Holds.getD_writer {finalized : List (ManifestEntry Path Metrics)}
    {pending : List (DataFile Path Metrics × Int64)} (h : m.Holds added finalized pending) :
    m.writer.getD [] = pending := by
  rw [h.writer]
  split
  · rename_i hnil
    exact hnil.symm
  · rfl

/-- The last manifest holds what was added since one was full. -/
theorem finalize_returns (hio : io.Lawful) {finalized : List (ManifestEntry Path Metrics)}
    {pending : List (DataFile Path Metrics × Int64)} (h : m.Holds added finalized pending)
    (hadded : ∀ e ∈ added, e.OfType .dataFile) :
    Returns (m.finalize io) fun out =>
      ∃ ms, Finalized io .dataFile (pending.map entryOf) out ms := by
  unfold finalize
  rw [h.writer]
  by_cases hnil : pending = []
  · rw [if_pos hnil, hnil]
    exact .ok ⟨[], .nil⟩
  · rw [if_neg hnil]
    refine (writeManifestFile_finalized hio (t := .dataFile) hnil fun f hf => ?_).bind
      fun _ hfile => .pure hfile
    refine hadded _ ?_
    rw [h.added]
    exact List.mem_append_right _ (List.mem_map_of_mem hf)

/-- Entries were added to the manager. -/
def Added (removed : List Path) (m : DataFileManifestManager Path Metrics ManifestFile)
    (added : List (ManifestEntry Path Metrics)) : Prop :=
  m.dataFilesToRemove = removed ∧ ∃ finalized pending, m.Holds added finalized pending

def keeps [DecidableEq Path] (removed : List Path) (e : ManifestEntry Path Metrics) : Bool :=
  !removed.contains e.dataFile.filePath

theorem added_new (removed : List Path) :
    Added removed (new removed : DataFileManifestManager Path Metrics ManifestFile) [] :=
  ⟨rfl, [], [], rfl, rfl, rfl, by simp [defaultMaxManifestEntryCount], .inl rfl⟩

variable [DecidableEq Path]

theorem addManifestEntry_returns (hio : io.Lawful) {removed : List Path} (h : Added removed m added)
    (hadded : ∀ e ∈ added, e.OfType .dataFile) {e : ManifestEntry Path Metrics}
    (he : e.OfType .dataFile) :
    Returns (m.addManifestEntry io e) fun m' =>
      Added removed m' (added ++ [e].filter (keeps removed)) := by
  obtain ⟨hremoved, finalized, pending, h⟩ := h
  unfold addManifestEntry
  rw [hremoved]
  by_cases hmem : removed.contains e.dataFile.filePath = true
  · rw [if_pos hmem]
    have hfilter : [e].filter (keeps removed) = [] := by simpa [keeps] using hmem
    exact .ok (by rw [hfilter, List.append_nil]; exact ⟨hremoved, finalized, pending, h⟩)
  · rw [if_neg hmem]
    have hfilter : [e].filter (keeps removed) = [e] := by simpa [keeps] using hmem
    rw [hfilter]
    refine (unwrap_returns he.sequenceNumber).bind fun n hn => ?_
    rw [h.getD_writer, h.count]
    have hadd : added ++ [e] = finalized ++ (pending ++ [(e.dataFile, n)]).map entryOf := by
      rw [h.added, List.map_append, ← List.append_assoc, List.map_singleton, ← eq_entryOf hn]
    split
    · rename_i hfull
      have hfiles : ∀ f ∈ pending ++ [(e.dataFile, n)], (entryOf f).OfType .dataFile := by
        intro f hf
        rcases List.mem_append.mp hf with hf | hf
        · refine hadded _ ?_
          rw [h.added]
          exact List.mem_append_right _ (List.mem_map_of_mem hf)
        · rw [List.mem_singleton.mp hf, ← eq_entryOf hn]
          exact he
      refine (writeManifestFile_finalized hio (t := .dataFile) (by simp) hfiles).bind fun file _ => ?_
      -- The manifest is full: what was pending is finalized.
      refine .pure ⟨rfl, added ++ [e], [], by simp, rfl, rfl,
        by simp [defaultMaxManifestEntryCount], .inr ?_⟩
      rw [hadd, List.length_append, List.length_map, List.length_append, List.length_singleton]
      omega
    · rename_i hshort
      refine .pure ⟨rfl, finalized, pending ++ [(e.dataFile, n)], hadd, ?_, by simp, ?_, h.full⟩
      · simp
      · rw [List.length_append, List.length_singleton]
        omega

theorem addManifestEntries_returns (hio : io.Lawful) {removed : List Path} (h : Added removed m added)
    (hadded : ∀ e ∈ added, e.OfType .dataFile) {manifest : Manifest Path Metrics}
    (hm : manifest.OfType .dataFile) :
    Returns (m.addManifestEntries io manifest) fun m' =>
      Added removed m' (added ++ manifest.entries.filter (keeps removed)) := by
  unfold addManifestEntries
  rw [hm.getManifestEntryType, ok_bind]
  refine (assert_returns (by simp)).bind fun _ _ => ?_
  refine Returns.foldlM (I := fun done m => Added removed m (added ++ done.filter (keeps removed)))
    (by simpa using h) ?_
  intro done e rest m' heq hm'
  rw [List.filter_append, ← List.append_assoc]
  refine addManifestEntry_returns hio hm' (fun a ha => ?_) (hm.entries e (by rw [heq]; simp))
  rcases List.mem_append.mp ha with ha | ha
  · exact hadded a ha
  · exact hm.entries a (by rw [heq]; exact List.mem_append_left _ (List.mem_of_mem_filter ha))

end DataFileManifestManager

/-! ## Deletion vectors -/

/-- The entry of a deletion vector blob. -/
def deletionVectorEntry [Inhabited Metrics] (new : Path × PuffinBlobMetadata Path) :
    ManifestEntry Path Metrics where
  dataFile := {
    content := .positionDeletes
    filePath := new.1
    fileFormat := .puffin
    recordCount := new.2.cardinality.getD 0
    referencedDataFile := new.2.referencedDataFile
    contentOffset := some new.2.offset.toInt64
    contentSizeInBytes := some new.2.length.toInt64
    metrics := default }
  sequenceNumber := some new.2.sequenceNumber

structure PuffinBlobMetadata.IsDeletionVector (blob : PuffinBlobMetadata Path) : Prop where
  type : blob.type = deletionVectorV1
  referenced : blob.referencedDataFile.isSome
  cardinality : blob.cardinality.isSome

theorem deletionVectorEntry_ofType [Inhabited Metrics] {new : Path × PuffinBlobMetadata Path}
    (h : new.2.IsDeletionVector) :
    (deletionVectorEntry new : ManifestEntry Path Metrics).OfType .deletionVector :=
  ⟨rfl, rfl, rfl, fun _ => h.referenced⟩

theorem getDataFileForDeletionVector_returns [Inhabited Metrics]
    {new : Path × PuffinBlobMetadata Path} (h : new.2.IsDeletionVector) :
    Returns (getDataFileForDeletionVector new.1 new.2 : Except RewriteError (Path × DataFile Path Metrics)) fun r =>
      new.2.referencedDataFile = some r.1 ∧
        entryOf (r.2, new.2.sequenceNumber) = deletionVectorEntry new := by
  unfold getDataFileForDeletionVector
  refine (assert_returns (by simpa using h.type)).bind fun _ _ => ?_
  refine (unwrap_returns h.referenced).bind fun referenced href => ?_
  refine (unwrap_returns h.cardinality).bind fun cardinality hcard => ?_
  refine .pure ⟨href, ?_⟩
  simp [entryOf, deletionVectorEntry, href, hcard]

namespace DeletionVectorManifestManager

variable {io : ManifestIo Path Metrics ManifestFile} {m : DeletionVectorManifestManager Path Metrics}
  {removed : List Path} {existing : List (ManifestEntry Path Metrics)}
  {new : List (DataFile Path Metrics × Int64)}

/-- The entries that are kept, one for each data file, and the new ones. -/
structure Holds (removed : List Path) (m : DeletionVectorManifestManager Path Metrics)
    (existing : List (ManifestEntry Path Metrics)) (new : List (DataFile Path Metrics × Int64)) :
    Prop where
  removes : m.dataFilesToRemove = removed
  values : m.existingDeletionVectorEntries.values.Perm existing
  keyed : ∀ p e, (⟨p, e⟩ : Sigma fun _ : Path => ManifestEntry Path Metrics) ∈
    m.existingDeletionVectorEntries.entries → e.dataFile.referencedDataFile = some p
  writer : m.writer = if new = [] then none else some new

theorem holds_new (removed : List Path) :
    Holds removed (.new removed : DeletionVectorManifestManager Path Metrics) [] [] where
  removes := rfl
  values := .refl _
  keyed _ _ h := (List.not_mem_nil h).elim
  writer := rfl

theorem Holds.getD_writer (h : m.Holds removed existing new) : m.writer.getD [] = new := by
  rw [h.writer]
  split
  · rename_i hnil
    exact hnil.symm
  · rfl

theorem Holds.referenced_nodup (h : m.Holds removed existing new) :
    (existing.map (·.dataFile.referencedDataFile)).Nodup := by
  have hkeys : m.existingDeletionVectorEntries.values.map (·.dataFile.referencedDataFile) =
      m.existingDeletionVectorEntries.keys.map some := by
    simp only [AssocMap.values, AList.keys, List.keys, List.map_map]
    exact List.map_congr_left fun e he => h.keyed e.1 e.2 he
  rw [(h.values.map _).nodup_iff.symm, hkeys]
  exact m.existingDeletionVectorEntries.keys_nodup.map fun _ _ h => Option.some.inj h

variable [DecidableEq Path]

def keeps (removed : List Path) (e : ManifestEntry Path Metrics) : Bool :=
  e.dataFile.referencedDataFile.all (!removed.contains ·)

theorem addManifestEntry_ensures (h : m.Holds removed existing new) (e : ManifestEntry Path Metrics) :
    Ensures (m.addManifestEntry e) fun m' =>
      m'.Holds removed (existing ++ [e].filter (keeps removed)) new := by
  unfold addManifestEntry
  rw [h.removes]
  cases href : e.dataFile.referencedDataFile with
  | none => exact .error
  | some p =>
    change Ensures (if removed.contains p = true then _ else _) _
    by_cases hmem : removed.contains p = true
    · rw [if_pos hmem]
      have hfilter : [e].filter (keeps removed) = [] := by simpa [keeps, href] using hmem
      exact .pure (by rw [hfilter, List.append_nil]; exact h)
    · rw [if_neg hmem]
      have hfilter : [e].filter (keeps removed) = [e] := by simpa [keeps, href] using hmem
      rw [hfilter]
      refine .bind (P := fun _ => m.existingDeletionVectorEntries.lookup p = none) ?_ fun _ hnone => ?_
      · intro _ hassert
        unfold RewriteError.assert at hassert
        split at hassert
        · rename_i hnone
          exact Option.isNone_iff_eq_none.mp hnone
        · cases hassert
      · have hnot : p ∉ m.existingDeletionVectorEntries := AList.lookup_eq_none.mp hnone
        have hentries : (m.existingDeletionVectorEntries.insert p e).entries =
            ⟨p, e⟩ :: m.existingDeletionVectorEntries.entries := AList.entries_insert_of_notMem hnot
        refine .pure ⟨rfl, ?_, ?_, h.writer⟩
        · simp only [AssocMap.values, hentries, List.map_cons]
          exact (h.values.cons e).trans (List.perm_append_singleton e existing).symm
        · intro p' e' hmem'
          rw [hentries, List.mem_cons] at hmem'
          rcases hmem' with heq | hmem'
          · cases heq
            exact href
          · exact h.keyed p' e' hmem'

theorem addManifestEntry_succeeds (h : m.Holds removed existing new) {e : ManifestEntry Path Metrics}
    (he : e.OfType .deletionVector)
    (hnodup : ((existing ++ [e].filter (keeps removed)).map (·.dataFile.referencedDataFile)).Nodup) :
    ∃ m', m.addManifestEntry e = .ok m' := by
  obtain ⟨p, href⟩ := Option.isSome_iff_exists.mp (he.referenced rfl)
  unfold addManifestEntry
  rw [h.removes, href]
  change ∃ m', (if removed.contains p = true then _ else _) = _
  by_cases hmem : removed.contains p = true
  · rw [if_pos hmem]
    exact ⟨_, rfl⟩
  · rw [if_neg hmem]
    have hfilter : [e].filter (keeps removed) = [e] := by simpa [keeps, href] using hmem
    rw [hfilter, List.map_append, List.nodup_append] at hnodup
    cases hlookup : m.existingDeletionVectorEntries.lookup p with
    | none => exact ⟨_, rfl⟩
    | some e' =>
      have hentry := AssocMap.lookup_eq_some_iff.mp hlookup
      have hmem' : e' ∈ existing := h.values.mem_iff.mp (List.mem_map.mpr ⟨_, hentry, rfl⟩)
      refine (hnodup.2.2 _ (List.mem_map_of_mem hmem') (some p) ?_ (h.keyed p e' hentry)).elim
      simp [href]

theorem addManifestEntries_ensures (h : m.Holds removed existing new)
    (manifest : Manifest Path Metrics) :
    Ensures (m.addManifestEntries manifest) fun m' =>
      m'.Holds removed (existing ++ manifest.entries.filter (keeps removed)) new := by
  unfold addManifestEntries
  refine .bind_any fun entryType => .bind_any fun _ => ?_
  refine Ensures.foldlM
    (I := fun done m' => Holds removed m' (existing ++ done.filter (keeps removed)) new)
    (by simpa using h) ?_
  intro done e rest m' _ hm'
  rw [List.filter_append, ← List.append_assoc]
  exact addManifestEntry_ensures hm' e

theorem addManifestEntries_succeeds (h : m.Holds removed existing new)
    {manifest : Manifest Path Metrics} (hm : manifest.OfType .deletionVector)
    (hnodup : ((existing ++ manifest.entries.filter (keeps removed)).map
      (·.dataFile.referencedDataFile)).Nodup) :
    ∃ m', m.addManifestEntries manifest = .ok m' := by
  suffices hr : Returns (m.addManifestEntries manifest) fun m' =>
      m'.Holds removed (existing ++ manifest.entries.filter (keeps removed)) new by
    obtain ⟨m', hm', -⟩ := hr
    exact ⟨m', hm'⟩
  unfold addManifestEntries
  rw [hm.getManifestEntryType, ok_bind]
  refine (assert_returns (by simp)).bind fun _ _ => ?_
  refine Returns.foldlM
    (I := fun done m' => Holds removed m' (existing ++ done.filter (keeps removed)) new)
    (by simpa using h) ?_
  intro done e rest m' heq hm'
  rw [List.filter_append, ← List.append_assoc]
  refine (addManifestEntry_ensures hm' e).returns
    (addManifestEntry_succeeds hm' (hm.entries e (by rw [heq]; simp)) (hnodup.sublist ?_))
  have hstart : (done ++ [e]).Sublist manifest.entries := by
    rw [heq, List.append_cons done e rest]
    exact List.sublist_append_left _ _
  refine List.Sublist.map _ ?_
  rw [List.append_assoc, ← List.filter_append]
  exact (hstart.filter _).append_left _

/-- No blob is for the data file of the entry. -/
def notReplaced (blobs : List (Path × PuffinBlobMetadata Path)) (e : ManifestEntry Path Metrics) : Bool :=
  !blobs.any (·.2.referencedDataFile = e.dataFile.referencedDataFile)

variable [Inhabited Metrics]

theorem addNewPuffinBlob_returns (h : m.Holds removed existing new)
    {blob : Path × PuffinBlobMetadata Path} (hblob : blob.2.IsDeletionVector) :
    Returns (m.addNewPuffinBlob blob) fun m' => ∃ file, entryOf file = deletionVectorEntry blob ∧
      m'.Holds removed (existing.filter (notReplaced [blob])) (new ++ [file]) := by
  unfold addNewPuffinBlob
  refine (getDataFileForDeletionVector_returns hblob).bind ?_
  rintro ⟨p, file⟩ ⟨href, hentry⟩
  refine .pure ⟨(file, blob.2.sequenceNumber), hentry, h.removes, ?_, ?_, ?_⟩
  · rw [AssocMap.values_erase (q := notReplaced [blob])]
    · exact h.values.filter _
    · intro e he
      simp [notReplaced, h.keyed e.1 e.2 he, href, eq_comm]
  · intro p' e he
    exact h.keyed p' e ((List.kerase_sublist p _).subset he)
  · simp [h.getD_writer]

theorem addNewPuffinBlobs_returns (h : m.Holds removed existing [])
    {blobs : List (Path × PuffinBlobMetadata Path)} (hblobs : ∀ b ∈ blobs, b.2.IsDeletionVector) :
    Returns (blobs.foldlM addNewPuffinBlob m) fun m' => ∃ files,
      files.map entryOf = blobs.map deletionVectorEntry ∧
      m'.Holds removed (existing.filter (notReplaced blobs)) files := by
  refine Returns.foldlM (I := fun done m' => ∃ files,
    files.map entryOf = done.map deletionVectorEntry ∧
    Holds removed m' (existing.filter (notReplaced done)) files) ?_ ?_
  · refine ⟨[], rfl, ?_⟩
    have hfilter : existing.filter (notReplaced []) = existing := List.filter_eq_self.mpr fun _ _ => rfl
    exact hfilter.symm ▸ h
  · rintro done blob rest m' heq ⟨files, hfiles, hm'⟩
    refine (addNewPuffinBlob_returns hm' (hblobs blob (by rw [heq]; simp))).mono ?_
    rintro m'' ⟨file, hfile, hm''⟩
    refine ⟨files ++ [file], by simp [hfiles, hfile], ?_⟩
    have hfilter : (existing.filter (notReplaced done)).filter (notReplaced [blob]) =
        existing.filter (notReplaced (done ++ [blob])) := by
      rw [List.filter_filter]
      refine List.filter_congr fun e _ => ?_
      simp [notReplaced, Bool.and_comm]
    exact hfilter ▸ hm''

omit [DecidableEq Path] [Inhabited Metrics] in
theorem addExistingEntries_returns {entries : List (ManifestEntry Path Metrics)}
    (hentries : ∀ e ∈ entries, e.OfType .deletionVector) (files : List (DataFile Path Metrics × Int64)) :
    Returns (entries.foldlM addExistingEntry files) fun files' =>
      files'.map entryOf = files.map entryOf ++ entries := by
  refine Returns.foldlM (I := fun done (files' : List (DataFile Path Metrics × Int64)) =>
    files'.map entryOf = files.map entryOf ++ done) (by simp) ?_
  intro done e rest files' heq hfiles'
  refine (unwrap_returns (hentries e (by rw [heq]; simp)).sequenceNumber).bind fun n hn => ?_
  refine .pure ?_
  rw [List.map_append, hfiles', List.map_singleton, ← eq_entryOf hn, List.append_assoc]

omit [DecidableEq Path] [Inhabited Metrics] in
theorem finalize_returns (hio : io.Lawful) (h : m.Holds removed existing new)
    (hexisting : ∀ e ∈ existing, e.OfType .deletionVector)
    (hnew : ∀ f ∈ new, (entryOf f).OfType .deletionVector) :
    Returns (m.finalize io) fun out => ∃ ms entries, Finalized io .deletionVector entries out ms ∧
      entries.Perm (existing ++ new.map entryOf) := by
  unfold finalize
  rw [h.getD_writer]
  have hvalues : ∀ e ∈ m.existingDeletionVectorEntries.values, e.OfType .deletionVector :=
    fun e he => hexisting e (h.values.mem_iff.mp he)
  refine (addExistingEntries_returns hvalues new).bind fun files hfiles => ?_
  have hperm : (files.map entryOf).Perm (existing ++ new.map entryOf) := by
    rw [hfiles]
    exact (h.values.append_left _).trans List.perm_append_comm
  split
  · rename_i hany
    have hne : files ≠ [] := by
      rintro rfl
      obtain ⟨hnew', hvalues'⟩ := List.append_eq_nil_iff.mp hfiles.symm
      rw [h.writer, if_pos (List.map_eq_nil_iff.mp hnew')] at hany
      have hnil : m.existingDeletionVectorEntries.entries = [] := List.map_eq_nil_iff.mp hvalues'
      rw [hnil] at hany
      cases hany
    refine (writeManifestFile_finalized hio (t := .deletionVector) hne fun f hf => ?_).bind
      fun _ ⟨ms, hms⟩ => .pure ⟨ms, _, hms, hperm⟩
    have hmem := hperm.mem_iff.mp (List.mem_map_of_mem (f := entryOf) hf)
    rcases List.mem_append.mp hmem with hmem | hmem
    · exact hexisting _ hmem
    · obtain ⟨g, hg, heq⟩ := List.mem_map.mp hmem
      exact heq ▸ hnew g hg
  · rename_i hnone
    have hnil : files.map entryOf = [] := by
      rw [hfiles]
      simp only [Bool.or_eq_true, not_or, Bool.not_eq_true, Bool.not_eq_false', List.isEmpty_iff,
        h.writer] at hnone
      have hnew' : new = [] := by
        by_contra hne
        simp [hne] at hnone
      simp [hnew', AssocMap.values, hnone.2]
    exact .pure ⟨[], _, .nil, hnil ▸ hperm⟩

end DeletionVectorManifestManager

/-! ## File indices -/

/-- The entry of a file index blob. -/
def fileIndexEntry [Inhabited Metrics] (new : Path × PuffinBlobMetadata Path) :
    ManifestEntry Path Metrics where
  dataFile := {
    content := .data
    filePath := new.1
    fileFormat := .puffin
    recordCount := new.2.cardinality.getD 0
    referencedDataFile := none
    contentOffset := none
    contentSizeInBytes := none
    metrics := default }
  sequenceNumber := some new.2.sequenceNumber

structure PuffinBlobMetadata.IsFileIndex (blob : PuffinBlobMetadata Path) : Prop where
  type : blob.type = mooncakeHashIndexV1
  cardinality : blob.cardinality.isSome

theorem fileIndexEntry_ofType [Inhabited Metrics] (new : Path × PuffinBlobMetadata Path) :
    (fileIndexEntry new : ManifestEntry Path Metrics).OfType .fileIndex :=
  ⟨rfl, rfl, rfl, nofun⟩

namespace FileIndexManifestManager

variable {io : ManifestIo Path Metrics ManifestFile} {m : FileIndexManifestManager Path Metrics}
  {removed : List Path} {files : List (DataFile Path Metrics × Int64)}

/-- The files that were added. -/
structure Holds (removed : List Path) (m : FileIndexManifestManager Path Metrics)
    (files : List (DataFile Path Metrics × Int64)) : Prop where
  removes : m.indexPuffinBlobsToRemove = removed
  writer : m.writer = if files = [] then none else some files

theorem holds_new (removed : List Path) :
    Holds removed (.new removed : FileIndexManifestManager Path Metrics) [] := ⟨rfl, rfl⟩

theorem Holds.getD_writer (h : m.Holds removed files) : m.writer.getD [] = files := by
  rw [h.writer]
  split
  · rename_i hnil
    exact hnil.symm
  · rfl

theorem Holds.snoc (h : m.Holds removed files) (file : DataFile Path Metrics × Int64) :
    Holds removed ⟨removed, some (m.writer.getD [] ++ [file])⟩ (files ++ [file]) :=
  ⟨rfl, by simp [h.getD_writer]⟩

theorem finalize_returns (hio : io.Lawful) (h : m.Holds removed files)
    (hfiles : ∀ f ∈ files, (entryOf f).OfType .fileIndex) :
    Returns (m.finalize io) fun out => ∃ ms, Finalized io .fileIndex (files.map entryOf) out ms := by
  unfold finalize
  rw [h.writer]
  by_cases hnil : files = []
  · rw [if_pos hnil, hnil]
    exact .ok ⟨[], .nil⟩
  · rw [if_neg hnil]
    exact (writeManifestFile_finalized hio (t := .fileIndex) hnil hfiles).bind
      fun _ hfile => .pure hfile

theorem addNewPuffinBlobs_returns [Inhabited Metrics] (h : m.Holds removed files)
    {blobs : List (Path × PuffinBlobMetadata Path)} (hblobs : ∀ b ∈ blobs, b.2.IsFileIndex) :
    Returns (blobs.foldlM addNewPuffinBlob m) fun m' => ∃ files',
      files'.map entryOf = files.map entryOf ++ blobs.map fileIndexEntry ∧ m'.Holds removed files' := by
  refine Returns.foldlM (I := fun done m' => ∃ files',
    files'.map entryOf = files.map entryOf ++ done.map fileIndexEntry ∧ Holds removed m' files')
    ⟨files, by simp, h⟩ ?_
  rintro done blob rest m' heq ⟨files', hfiles', hm'⟩
  have hblob := hblobs blob (by rw [heq]; simp)
  unfold addNewPuffinBlob getDataFileForFileIndex
  rw [bind_assoc]
  refine (assert_returns (by simpa using hblob.type)).bind fun _ _ => ?_
  rw [bind_assoc]
  refine (unwrap_returns hblob.cardinality).bind fun cardinality hcard => ?_
  rw [hm'.removes]
  refine .pure ⟨files' ++ [(_, blob.2.sequenceNumber)], ?_, hm'.snoc _⟩
  rw [List.map_append, hfiles', List.map_append, List.append_assoc]
  simp [entryOf, fileIndexEntry, hcard]

variable [DecidableEq Path]

def keeps (removed : List Path) (e : ManifestEntry Path Metrics) : Bool :=
  !removed.contains e.dataFile.filePath

theorem addManifestEntries_returns (h : m.Holds removed files) {manifest : Manifest Path Metrics}
    (hm : manifest.OfType .fileIndex) :
    Returns (m.addManifestEntries manifest) fun m' => ∃ files',
      files'.map entryOf = files.map entryOf ++ manifest.entries.filter (keeps removed) ∧
      m'.Holds removed files' := by
  unfold addManifestEntries
  rw [hm.getManifestEntryType, ok_bind]
  refine (assert_returns (by simp)).bind fun _ _ => ?_
  refine Returns.foldlM (I := fun done m' => ∃ files',
    files'.map entryOf = files.map entryOf ++ done.filter (keeps removed) ∧ Holds removed m' files')
    ⟨files, by simp, h⟩ ?_
  rintro done e rest m' heq ⟨files', hfiles', hm'⟩
  unfold addManifestEntry
  rw [hm'.removes, List.filter_append, ← List.append_assoc, ← hfiles']
  by_cases hmem : removed.contains e.dataFile.filePath = true
  · rw [if_pos hmem]
    have hfilter : [e].filter (keeps removed) = [] := by simpa [keeps] using hmem
    exact .ok ⟨files', by rw [hfilter, List.append_nil], hm'⟩
  · rw [if_neg hmem]
    have hfilter : [e].filter (keeps removed) = [e] := by simpa [keeps] using hmem
    refine (unwrap_returns (hm.entries e (by rw [heq]; simp)).sequenceNumber).bind fun n hn => ?_
    refine .pure ⟨files' ++ [(e.dataFile, n)], ?_, hm'.snoc _⟩
    rw [hfilter, List.map_append, List.map_singleton, ← eq_entryOf hn]

end FileIndexManifestManager

/-! ## The manifest list -/

variable [DecidableEq Path]

namespace TableUpdateProxy

/-- The entries of this type that are given to their manager. -/
def collected (u : TableUpdateProxy Path) (t : ManifestEntryType) (ms : List (Manifest Path Metrics)) :
    List (ManifestEntry Path Metrics) :=
  if u.passesOn t then [] else entriesOf t ms

omit [DecidableEq Path] in
@[simp] theorem collected_nil (u : TableUpdateProxy Path) (t : ManifestEntryType) :
    u.collected t ([] : List (Manifest Path Metrics)) = [] := by
  simp [collected]

omit [DecidableEq Path] in
theorem collected_snoc {t : ManifestEntryType} {m : Manifest Path Metrics} (hm : m.OfType t)
    (u : TableUpdateProxy Path) (t' : ManifestEntryType) (done : List (Manifest Path Metrics)) :
    u.collected t' (done ++ [m]) =
      u.collected t' done ++ (if t' = t ∧ u.passesOn t = false then m.entries else []) := by
  unfold collected
  rw [entriesOf_append, entriesOf_cons hm, entriesOf_nil, List.append_nil]
  by_cases heq : t' = t
  · subst heq
    cases u.passesOn t' <;> simp
  · simp [heq]

omit [DecidableEq Path] in
theorem ofType_of_mem_collected (u : TableUpdateProxy Path) {t : ManifestEntryType}
    {ms : List (Manifest Path Metrics)} (hms : ∀ m ∈ ms, m.WellFormed) {e : ManifestEntry Path Metrics}
    (he : e ∈ u.collected t ms) : e.OfType t := by
  unfold collected at he
  split at he
  · exact (List.not_mem_nil he).elim
  · exact ofType_of_mem_entriesOf hms he

end TableUpdateProxy

namespace ManifestRewriter

variable {io : ManifestIo Path Metrics ManifestFile} {u : TableUpdateProxy Path}
  {done : List (Manifest Path Metrics)} {r : ManifestRewriter Path Metrics ManifestFile}

/-- The manifests were passed on, or their entries are with their manager. -/
structure Collected (io : ManifestIo Path Metrics ManifestFile) (u : TableUpdateProxy Path)
    (done : List (Manifest Path Metrics)) (r : ManifestRewriter Path Metrics ManifestFile) : Prop where
  passed : ∃ passed, io.Reads r.manifestList passed ∧ (∀ m ∈ passed, m.WellFormed) ∧
    ∀ t, entriesOf t passed = if u.passesOn t then entriesOf t done else []
  dataFiles : r.dataFiles.Added u.dataFilesToRemove
    ((u.collected .dataFile done).filter (DataFileManifestManager.keeps u.dataFilesToRemove))
  deletionVectors : r.deletionVectors.Holds u.dataFilesToRemove
    ((u.collected .deletionVector done).filter
      (DeletionVectorManifestManager.keeps u.dataFilesToRemove)) []
  fileIndices : ∃ files, files.map entryOf = (u.collected .fileIndex done).filter
      (FileIndexManifestManager.keeps u.puffinBlobsToRemove) ∧
    r.fileIndices.Holds u.puffinBlobsToRemove files

theorem collected_new : Collected io u [] (.new u) where
  passed := ⟨[], .nil, by simp, by simp⟩
  dataFiles := by
    rw [u.collected_nil]
    exact DataFileManifestManager.added_new _
  deletionVectors := by
    rw [u.collected_nil]
    exact DeletionVectorManifestManager.holds_new _
  fileIndices := ⟨[], by simp, FileIndexManifestManager.holds_new _⟩

variable {m : Manifest Path Metrics} {t : ManifestEntryType} {f : ManifestFile}

theorem addManifestFile_eq
    (hload : io.loadManifest f = .ok m) (hm : m.OfType t) :
    addManifestFile io u r f =
      if u.passesOn t then .ok { r with manifestList := r.manifestList ++ [f] }
      else match t with
        | .dataFile => do return { r with dataFiles := ← r.dataFiles.addManifestEntries io m }
        | .deletionVector => do
          return { r with deletionVectors := ← r.deletionVectors.addManifestEntries m }
        | .fileIndex => do return { r with fileIndices := ← r.fileIndices.addManifestEntries m } := by
  have hempty : RewriteError.assert (!m.entries.isEmpty) .emptyManifest = .ok () := by
    simp [RewriteError.assert, hm.nonempty]
  unfold addManifestFile
  rw [hload, ok_bind, hempty, ok_bind, hm.getManifestEntryType, ok_bind]
  cases t <;> rfl

theorem addManifestFile_ensures (hio : io.Lawful) (hdone : ∀ m ∈ done, m.WellFormed)
    (h : Collected io u done r)
    (hload : io.loadManifest f = .ok m) (hm : m.OfType t) :
    Ensures (addManifestFile io u r f) (Collected io u (done ++ [m])) := by
  rw [addManifestFile_eq hload hm]
  obtain ⟨passed, hreads, hwf, hpassed⟩ := h.passed
  by_cases hpasses : u.passesOn t = true
  · rw [if_pos hpasses]
    have hsame : ∀ t', u.collected t' (done ++ [m]) = u.collected t' done := by
      intro t'
      rw [TableUpdateProxy.collected_snoc hm]
      simp [hpasses]
    refine .ok ⟨⟨passed ++ [m], ?_, ?_, fun t' => ?_⟩, ?_, ?_, ?_⟩
    · exact List.rel_append hreads (.cons hload .nil)
    · intro m' hm'
      rcases List.mem_append.mp hm' with hm' | hm'
      · exact hwf m' hm'
      · exact List.mem_singleton.mp hm' ▸ ⟨t, hm⟩
    · rw [entriesOf_append, entriesOf_append, hpassed, entriesOf_cons hm, entriesOf_nil, List.append_nil]
      by_cases heq : t' = t
      · subst heq
        simp [hpasses]
      · simp [heq]
    · rw [hsame]
      exact h.dataFiles
    · rw [hsame]
      exact h.deletionVectors
    · rw [hsame]
      exact h.fileIndices
  · rw [if_neg hpasses]
    have hpassed' : ∀ t', entriesOf t' passed =
        if u.passesOn t' then entriesOf t' (done ++ [m]) else [] := by
      intro t'
      rw [hpassed, entriesOf_append, entriesOf_cons hm]
      by_cases heq : t' = t
      · subst heq
        simp [hpasses]
      · simp [heq]
    have hpasses : u.passesOn t = false := Bool.eq_false_iff.mpr hpasses
    have hcollected := u.collected_snoc hm
    cases t with
    | dataFile =>
      refine (DataFileManifestManager.addManifestEntries_returns hio h.dataFiles (fun e he =>
        u.ofType_of_mem_collected hdone (List.mem_of_mem_filter he)) hm).ensures.bind
        fun dataFiles hdataFiles => .pure ⟨⟨passed, hreads, hwf, hpassed'⟩, ?_, ?_, ?_⟩
      · rw [hcollected]
        simpa [hpasses] using hdataFiles
      · rw [hcollected]
        simpa using h.deletionVectors
      · rw [hcollected]
        simpa using h.fileIndices
    | deletionVector =>
      refine (DeletionVectorManifestManager.addManifestEntries_ensures h.deletionVectors m).bind
        fun vectors hvectors => .pure ⟨⟨passed, hreads, hwf, hpassed'⟩, ?_, ?_, ?_⟩
      · rw [hcollected]
        simpa using h.dataFiles
      · rw [hcollected]
        simpa [hpasses] using hvectors
      · rw [hcollected]
        simpa using h.fileIndices
    | fileIndex =>
      obtain ⟨files, hfiles, hholds⟩ := h.fileIndices
      refine (FileIndexManifestManager.addManifestEntries_returns hholds hm).ensures.bind ?_
      rintro indices ⟨files', hfiles', hindices⟩
      refine .pure ⟨⟨passed, hreads, hwf, hpassed'⟩, ?_, ?_, files', ?_, hindices⟩
      · rw [hcollected]
        simpa using h.dataFiles
      · rw [hcollected]
        simpa using h.deletionVectors
      · rw [hcollected, hfiles', hfiles]
        simp [hpasses]

theorem addManifestFile_succeeds (hio : io.Lawful) (hdone : ∀ m ∈ done, m.WellFormed)
    (h : Collected io u done r)
    (hload : io.loadManifest f = .ok m) (hm : m.OfType t)
    (hnodup : (((u.collected .deletionVector (done ++ [m])).filter
      (DeletionVectorManifestManager.keeps u.dataFilesToRemove)).map
        (·.dataFile.referencedDataFile)).Nodup) :
    ∃ r', addManifestFile io u r f = .ok r' := by
  rw [addManifestFile_eq hload hm]
  by_cases hpasses : u.passesOn t = true
  · rw [if_pos hpasses]
    exact ⟨_, rfl⟩
  · rw [if_neg hpasses]
    have hpasses : u.passesOn t = false := Bool.eq_false_iff.mpr hpasses
    cases t with
    | dataFile =>
      obtain ⟨dataFiles, hdataFiles, -⟩ :=
        DataFileManifestManager.addManifestEntries_returns hio h.dataFiles (fun e he =>
          u.ofType_of_mem_collected hdone (List.mem_of_mem_filter he)) hm
      exact ⟨_, by rw [hdataFiles]; rfl⟩
    | deletionVector =>
      rw [TableUpdateProxy.collected_snoc hm, List.filter_append] at hnodup
      obtain ⟨vectors, hvectors⟩ := DeletionVectorManifestManager.addManifestEntries_succeeds
        h.deletionVectors hm (by simpa [hpasses] using hnodup)
      exact ⟨_, by rw [hvectors]; rfl⟩
    | fileIndex =>
      obtain ⟨files, -, hholds⟩ := h.fileIndices
      obtain ⟨indices, hindices, -⟩ := FileIndexManifestManager.addManifestEntries_returns hholds hm
      exact ⟨_, by rw [hindices]; rfl⟩

end ManifestRewriter

namespace TableUpdateProxy

/-- The blobs are what the maps say they are. -/
structure WellFormed (u : TableUpdateProxy Path) : Prop where
  deletionVectors : ∀ b ∈ blobsOf u.deletionVectorBlobsToAdd, b.2.IsDeletionVector
  fileIndices : ∀ b ∈ blobsOf u.fileIndexBlobsToAdd, b.2.IsFileIndex

def keepsDataFile (u : TableUpdateProxy Path) (e : ManifestEntry Path Metrics) : Bool :=
  DataFileManifestManager.keeps u.dataFilesToRemove e

/-- The data file is not removed. -/
def keepsReferenced (u : TableUpdateProxy Path) (e : ManifestEntry Path Metrics) : Bool :=
  DeletionVectorManifestManager.keeps u.dataFilesToRemove e

/-- The data file is neither removed nor given a new blob. -/
def keepsDeletionVector (u : TableUpdateProxy Path) (e : ManifestEntry Path Metrics) : Bool :=
  u.keepsReferenced e &&
    DeletionVectorManifestManager.notReplaced (blobsOf u.deletionVectorBlobsToAdd) e

def keepsFileIndex (u : TableUpdateProxy Path) (e : ManifestEntry Path Metrics) : Bool :=
  FileIndexManifestManager.keeps u.puffinBlobsToRemove e

/-! Entries that are passed on are kept. -/

variable {u : TableUpdateProxy Path}

theorem filter_keepsDataFile (h : u.passesOn .dataFile = true)
    (entries : List (ManifestEntry Path Metrics)) : entries.filter u.keepsDataFile = entries := by
  have hnil : u.dataFilesToRemove = [] := List.isEmpty_iff.mp h
  exact List.filter_eq_self.mpr fun e _ => by
    simp [keepsDataFile, DataFileManifestManager.keeps, hnil]

theorem filter_keepsDeletionVector (h : u.passesOn .deletionVector = true)
    (entries : List (ManifestEntry Path Metrics)) : entries.filter u.keepsDeletionVector = entries := by
  obtain ⟨hblobs, hnil⟩ := (Bool.and_eq_true _ _).mp h
  rw [List.isEmpty_iff] at hblobs hnil
  exact List.filter_eq_self.mpr fun e _ => by
    simp [keepsDeletionVector, keepsReferenced, DeletionVectorManifestManager.keeps,
      DeletionVectorManifestManager.notReplaced, blobsOf, hblobs, hnil]

theorem filter_keepsFileIndex (h : u.passesOn .fileIndex = true)
    (entries : List (ManifestEntry Path Metrics)) : entries.filter u.keepsFileIndex = entries := by
  obtain ⟨-, hnil⟩ := (Bool.and_eq_true _ _).mp h
  rw [List.isEmpty_iff] at hnil
  exact List.filter_eq_self.mpr fun e _ => by
    simp [keepsFileIndex, FileIndexManifestManager.keeps, hnil]

end TableUpdateProxy

/-- The manifests `ms'` hold the live entries of `ms` and one for each new blob. -/
structure Rewritten [Inhabited Metrics] (u : TableUpdateProxy Path) (ms ms' : List (Manifest Path Metrics)) :
    Prop where
  wellFormed : ∀ m ∈ ms', m.WellFormed
  dataFiles : (entriesOf .dataFile ms').Perm ((entriesOf .dataFile ms).filter u.keepsDataFile)
  deletionVectors : (entriesOf .deletionVector ms').Perm
    ((entriesOf .deletionVector ms).filter u.keepsDeletionVector ++
      (blobsOf u.deletionVectorBlobsToAdd).map deletionVectorEntry)
  fileIndices : (entriesOf .fileIndex ms').Perm
    ((entriesOf .fileIndex ms).filter u.keepsFileIndex ++
      (blobsOf u.fileIndexBlobsToAdd).map fileIndexEntry)

namespace ManifestRewriter

variable [Inhabited Metrics] {io : ManifestIo Path Metrics ManifestFile} {u : TableUpdateProxy Path}
  {ms : List (Manifest Path Metrics)} {r : ManifestRewriter Path Metrics ManifestFile}

omit [Inhabited Metrics] in
/-- Deletion vectors that were collected are for different data files. -/
theorem Collected.referenced (h : Collected io u ms r) :
    (u.deletionVectorBlobsToAdd.entries = [] ∧ u.dataFilesToRemove = []) ∨
      (((entriesOf .deletionVector ms).filter u.keepsReferenced).map
        (·.dataFile.referencedDataFile)).Nodup := by
  have hnodup := h.deletionVectors.referenced_nodup
  unfold TableUpdateProxy.collected at hnodup
  cases hpasses : u.passesOn .deletionVector with
  | true =>
    obtain ⟨hblobs, hnil⟩ := (Bool.and_eq_true _ _).mp hpasses
    exact .inl ⟨List.isEmpty_iff.mp hblobs, List.isEmpty_iff.mp hnil⟩
  | false =>
    rw [hpasses] at hnodup
    exact .inr hnodup

/-- What a rewrite keeps, where data files of `finalized` manifests are lost. -/
structure Outcome (u : TableUpdateProxy Path) (ms ms' : List (Manifest Path Metrics))
    (finalized : List (ManifestEntry Path Metrics)) : Prop where
  wellFormed : ∀ m ∈ ms', m.WellFormed
  dataFiles : (entriesOf .dataFile ms).filter u.keepsDataFile = finalized ++ entriesOf .dataFile ms'
  deletionVectors : (entriesOf .deletionVector ms').Perm
    ((entriesOf .deletionVector ms).filter u.keepsDeletionVector ++
      (blobsOf u.deletionVectorBlobsToAdd).map deletionVectorEntry)
  fileIndices : (entriesOf .fileIndex ms').Perm
    ((entriesOf .fileIndex ms).filter u.keepsFileIndex ++
      (blobsOf u.fileIndexBlobsToAdd).map fileIndexEntry)
  short : u.dataFilesToRemove = [] ∨
    (entriesOf .dataFile ms').length < defaultMaxManifestEntryCount
  full : finalized = [] ∨ u.dataFilesToRemove ≠ [] ∧
    defaultMaxManifestEntryCount ≤ finalized.length
  referenced : (u.deletionVectorBlobsToAdd.entries = [] ∧ u.dataFilesToRemove = []) ∨
    (((entriesOf .deletionVector ms).filter u.keepsReferenced).map
      (·.dataFile.referencedDataFile)).Nodup

omit [DecidableEq Path] [Inhabited Metrics] in
/-- What a manager wrote, together with what was passed on. -/
theorem entriesOf_written {passed dataMs vectorMs indexMs : List (Manifest Path Metrics)}
    {dataOut vectorOut indexOut : List ManifestFile}
    {dataEntries vectorEntries indexEntries : List (ManifestEntry Path Metrics)}
    (hpassed : ∀ t, entriesOf t passed = if u.passesOn t then entriesOf t ms else [])
    (hdata : Finalized io .dataFile dataEntries dataOut dataMs)
    (hvectors : Finalized io .deletionVector vectorEntries vectorOut vectorMs)
    (hindices : Finalized io .fileIndex indexEntries indexOut indexMs) (t : ManifestEntryType) :
    entriesOf t (passed ++ dataMs ++ vectorMs ++ indexMs) =
      (if u.passesOn t then entriesOf t ms else []) ++
        match t with
        | .dataFile => dataEntries
        | .deletionVector => vectorEntries
        | .fileIndex => indexEntries := by
  rw [entriesOf_append, entriesOf_append, entriesOf_append, hpassed, hdata.entriesOf,
    hvectors.entriesOf, hindices.entriesOf]
  cases t <;> simp

theorem finalize_returns (hio : io.Lawful) (hms : ∀ m ∈ ms, m.WellFormed) (hu : u.WellFormed)
    (h : Collected io u ms r) :
    Returns (r.finalize io u) fun out => ∃ ms' finalized, io.Reads out ms' ∧ Outcome u ms ms' finalized := by
  obtain ⟨passed, hreads, hwf, hpassed⟩ := h.passed
  obtain ⟨-, finalized, pending, hdata⟩ := h.dataFiles
  obtain ⟨indexFiles, hindexFiles, hindices⟩ := h.fileIndices
  unfold finalize
  refine (DeletionVectorManifestManager.addNewPuffinBlobs_returns h.deletionVectors
    hu.deletionVectors).bind ?_
  rintro vectors ⟨vectorFiles, hvectorFiles, hvectors⟩
  refine (FileIndexManifestManager.addNewPuffinBlobs_returns hindices hu.fileIndices).bind ?_
  rintro indices ⟨indexFiles', hindexFiles', hindices'⟩
  refine (DataFileManifestManager.finalize_returns hio hdata fun e he =>
    u.ofType_of_mem_collected hms (List.mem_of_mem_filter he)).bind ?_
  rintro dataOut ⟨dataMs, hdataMs⟩
  refine (DeletionVectorManifestManager.finalize_returns hio hvectors (fun e he =>
    u.ofType_of_mem_collected hms (List.mem_of_mem_filter (List.mem_of_mem_filter he))) ?_).bind ?_
  · intro f hf
    have hmem := List.mem_map_of_mem (f := entryOf) hf
    rw [hvectorFiles] at hmem
    obtain ⟨b, hb, heq⟩ := List.mem_map.mp hmem
    exact heq ▸ deletionVectorEntry_ofType (hu.deletionVectors b hb)
  rintro vectorOut ⟨vectorMs, vectorEntries, hvectorMs, hvectorEntries⟩
  refine (FileIndexManifestManager.finalize_returns hio hindices' ?_).bind ?_
  · intro f hf
    have hmem := List.mem_map_of_mem (f := entryOf) hf
    rw [hindexFiles', hindexFiles] at hmem
    rcases List.mem_append.mp hmem with hmem | hmem
    · exact u.ofType_of_mem_collected hms (List.mem_of_mem_filter hmem)
    · obtain ⟨b, _, heq⟩ := List.mem_map.mp hmem
      exact heq ▸ fileIndexEntry_ofType b
  rintro indexOut ⟨indexMs, hindexMs⟩
  refine .pure ⟨passed ++ dataMs ++ vectorMs ++ indexMs, finalized, ?_, ?_⟩
  · exact List.rel_append (List.rel_append (List.rel_append hreads hdataMs.reads) hvectorMs.reads)
      hindexMs.reads
  · have hentries := entriesOf_written hpassed hdataMs hvectorMs hindexMs
    refine ⟨?_, ?_, ?_, ?_, ?_, ?_, h.referenced⟩
    · intro m hm
      simp only [List.mem_append] at hm
      rcases hm with ((hm | hm) | hm) | hm
      · exact hwf m hm
      · exact ⟨_, hdataMs.ofType m hm⟩
      · exact ⟨_, hvectorMs.ofType m hm⟩
      · exact ⟨_, hindexMs.ofType m hm⟩
    · rw [hentries]
      have hadded := hdata.added
      unfold TableUpdateProxy.collected at hadded
      cases hpasses : u.passesOn .dataFile with
      | true =>
        rw [hpasses] at hadded
        obtain ⟨hfinalized, hpending⟩ := List.append_eq_nil_iff.mp hadded.symm
        simp [hfinalized, hpending, u.filter_keepsDataFile hpasses]
      | false =>
        rw [hpasses] at hadded
        exact hadded
    · rw [hentries]
      unfold TableUpdateProxy.collected at hvectorEntries
      rw [hvectorFiles] at hvectorEntries
      cases hpasses : u.passesOn .deletionVector with
      | true =>
        rw [hpasses] at hvectorEntries
        rw [u.filter_keepsDeletionVector hpasses]
        exact hvectorEntries.append_left _
      | false =>
        rw [hpasses] at hvectorEntries
        have hkeeps : (u.keepsDeletionVector : ManifestEntry Path Metrics → Bool) = fun e =>
            DeletionVectorManifestManager.notReplaced (blobsOf u.deletionVectorBlobsToAdd) e &&
              u.keepsReferenced e := by
          funext e
          exact Bool.and_comm _ _
        rw [hkeeps, ← List.filter_filter]
        exact hvectorEntries
    · rw [hentries, hindexFiles', hindexFiles, ← List.append_assoc]
      unfold TableUpdateProxy.collected
      refine List.Perm.append_right _ (.of_eq ?_)
      cases hpasses : u.passesOn .fileIndex with
      | true => simp [u.filter_keepsFileIndex hpasses]
      | false => rfl
    · rw [hentries]
      cases hpasses : u.passesOn .dataFile with
      | true => exact .inl (List.isEmpty_iff.mp hpasses)
      | false => exact .inr (by simpa using hdata.short)
    · refine hdata.full.imp id fun hfull => ?_
      have hadded := hdata.added
      unfold TableUpdateProxy.collected at hadded
      cases hpasses : u.passesOn .dataFile with
      | true =>
        rw [hpasses] at hadded
        rw [(List.append_eq_nil_iff.mp hadded.symm).1] at hfull
        simp [defaultMaxManifestEntryCount] at hfull
      | false =>
        have hne : u.dataFilesToRemove ≠ [] := fun hnil => by
          simp [TableUpdateProxy.passesOn, hnil] at hpasses
        exact ⟨hne, hfull⟩

end ManifestRewriter

/-- No data file is removed, or the others fit one manifest; and deletion vectors that are
collected are for different data files. -/
structure Fits (u : TableUpdateProxy Path) (ms : List (Manifest Path Metrics)) : Prop where
  dataFiles : u.dataFilesToRemove = [] ∨
    ((entriesOf .dataFile ms).filter u.keepsDataFile).length < defaultMaxManifestEntryCount
  deletionVectors : (u.deletionVectorBlobsToAdd.entries = [] ∧ u.dataFilesToRemove = []) ∨
    (((entriesOf .deletionVector ms).filter u.keepsReferenced).map
      (·.dataFile.referencedDataFile)).Nodup

omit [DecidableEq Path] in
theorem ManifestIo.Reads.unique {out : List ManifestFile}
    {ms ms' : List (Manifest Path Metrics)} (h : io.Reads out ms) (h' : io.Reads out ms') : ms = ms' := by
  refine List.right_unique_forall₂' ?_ h h'
  intro f m m' hm hm'
  exact Except.ok.inj (hm.symm.trans hm')

namespace ManifestRewriter

variable {io : ManifestIo Path Metrics ManifestFile} {u : TableUpdateProxy Path}
  {manifestList : List ManifestFile} {ms : List (Manifest Path Metrics)}

theorem collected_ensures (hio : io.Lawful) (hreads : io.Reads manifestList ms)
    (hms : ∀ m ∈ ms, m.WellFormed) :
    Ensures (manifestList.foldlM (addManifestFile io u) (.new u)) (Collected io u ms) := by
  refine Ensures.foldlM_forall₂ (I := Collected io u) hreads collected_new ?_
  intro done f m rest r heq hload hr
  obtain ⟨t, hm⟩ := hms m (by rw [heq]; simp)
  exact addManifestFile_ensures hio (fun m' hm' => hms m' (by rw [heq]; exact List.mem_append_left _ hm'))
    hr hload hm

theorem collected_returns (hio : io.Lawful) (hreads : io.Reads manifestList ms)
    (hms : ∀ m ∈ ms, m.WellFormed)
    (hnodup : (((u.collected .deletionVector ms).filter u.keepsReferenced).map
      (·.dataFile.referencedDataFile)).Nodup) :
    Returns (manifestList.foldlM (addManifestFile io u) (.new u)) (Collected io u ms) := by
  refine Returns.foldlM_forall₂ (I := Collected io u) hreads collected_new ?_
  intro done f m rest r heq hload hr
  obtain ⟨t, hm⟩ := hms m (by rw [heq]; simp)
  have hdone : ∀ m' ∈ done, m'.WellFormed := fun m' hm' =>
    hms m' (by rw [heq]; exact List.mem_append_left _ hm')
  refine (addManifestFile_ensures hio hdone hr hload hm).returns
    (addManifestFile_succeeds hio hdone hr hload hm (hnodup.sublist ?_))
  refine List.Sublist.map _ (List.Sublist.filter _ ?_)
  rw [heq, List.append_cons done m rest]
  unfold TableUpdateProxy.collected
  split
  · exact List.nil_sublist _
  · rw [entriesOf_append _ (done ++ [m])]
    exact List.sublist_append_left _ _

end ManifestRewriter

/-! ## Manifests in memory -/

/-- Manifest files that are the manifests themselves. -/
def ManifestIo.inMemory : ManifestIo Path Metrics (Manifest Path Metrics) where
  loadManifest := .ok
  writeManifestFile content files :=
    if files.all fun f => (f.1.content = .data) = (content = .data) then
      .ok ⟨files.map entryOf, content⟩
    else .error .library

omit [DecidableEq Path] in
theorem ManifestIo.inMemory_lawful : (inMemory : ManifestIo Path Metrics _).Lawful where
  write content files _ hcontent := by
    have hall : (files.all fun f => (f.1.content = .data) = (content = .data)) = true :=
      List.all_eq_true.mpr fun f hf => by simpa using hcontent f hf
    change Returns (if _ then _ else _) _
    rw [if_pos hall]
    exact .ok rfl

omit [DecidableEq Path] in
theorem ManifestIo.inMemory_reads (ms : List (Manifest Path Metrics)) : inMemory.Reads ms ms :=
  List.forall₂_same.mpr fun _ _ => rfl

/-- Data files that are named by numbers. -/
def dataFileEntry (path : Nat) : ManifestEntry Nat Unit :=
  ⟨⟨.data, path, .parquet, 1, none, none, none, ()⟩, some 1⟩

/-- The data files below `n`. -/
def dataFilesBelow (n : Nat) : Manifest Nat Unit := ⟨(List.range n).map dataFileEntry, .data⟩

theorem dataFilesBelow_ofType {n : Nat} (hn : 0 < n) : (dataFilesBelow n).OfType .dataFile where
  content := rfl
  nonempty := by simp [dataFilesBelow, Nat.pos_iff_ne_zero.mp hn]
  entries e he := by
    obtain ⟨path, -, rfl⟩ := List.mem_map.mp he
    exact ⟨rfl, rfl, rfl, nofun⟩

def blobFor (dataFile : Nat) : PuffinBlobMetadata Nat :=
  ⟨deletionVectorV1, 2, 4, 40, some dataFile, some 1⟩

/-- Two data files with a deletion vector each, and one file index. -/
def twoDataFiles : List (Manifest Nat Unit) :=
  [dataFilesBelow 2,
    ⟨[deletionVectorEntry (10, blobFor 0), deletionVectorEntry (11, blobFor 1)], .deletes⟩,
    ⟨[fileIndexEntry (20, ⟨mooncakeHashIndexV1, 1, 4, 40, none, some 1⟩)], .data⟩]

/-- The first data file and the index are replaced, and the other file has a new deletion vector. -/
def replaceFirst : TableUpdateProxy Nat where
  deletionVectorBlobsToAdd := AList.singleton 12 [blobFor 1]
  fileIndexBlobsToAdd := AList.singleton 21 [⟨mooncakeHashIndexV1, 2, 4, 40, none, some 1⟩]
  puffinBlobsToRemove := [20]
  dataFilesToRemove := [0]

theorem twoDataFiles_wellFormed : ∀ m ∈ twoDataFiles, m.WellFormed := by
  intro m hm
  simp only [twoDataFiles, List.mem_cons, List.not_mem_nil, or_false] at hm
  rcases hm with rfl | rfl | rfl
  · exact ⟨_, dataFilesBelow_ofType (by decide)⟩
  · refine ⟨.deletionVector, rfl, by simp, fun e he => ?_⟩
    simp only [List.mem_cons, List.not_mem_nil, or_false] at he
    rcases he with rfl | rfl <;> exact ⟨rfl, rfl, rfl, fun _ => rfl⟩
  · refine ⟨.fileIndex, rfl, by simp, fun e he => ?_⟩
    rw [List.mem_singleton.mp he]
    exact ⟨rfl, rfl, rfl, nofun⟩

theorem replaceFirst_wellFormed : replaceFirst.WellFormed where
  deletionVectors b hb := by
    have hb : b = (12, blobFor 1) := List.mem_singleton.mp hb
    exact hb ▸ ⟨rfl, rfl, rfl⟩
  fileIndices b hb := by
    have hb : b = (21, ⟨mooncakeHashIndexV1, 2, 4, 40, none, some 1⟩) := List.mem_singleton.mp hb
    exact hb ▸ ⟨rfl, rfl⟩

/-! ## The live entries -/

section

variable [Inhabited Metrics] {io : ManifestIo Path Metrics ManifestFile} {u : TableUpdateProxy Path}
  {manifestList : List ManifestFile} {ms : List (Manifest Path Metrics)}

omit [Inhabited Metrics] in
theorem Fits.collected_nodup (h : Fits u ms) :
    (((u.collected .deletionVector ms).filter u.keepsReferenced).map
      (·.dataFile.referencedDataFile)).Nodup := by
  unfold TableUpdateProxy.collected
  rcases h.deletionVectors with ⟨hblobs, hnil⟩ | hnodup
  · have hpasses : u.passesOn .deletionVector = true := by
      simp [TableUpdateProxy.passesOn, hblobs, hnil]
    simp [hpasses]
  · split
    · exact List.nodup_nil
    · exact hnodup

/-- Without changes, every entry is live. -/
theorem rewritten_of_isEmpty (hms : ∀ m ∈ ms, m.WellFormed) (hempty : u.isEmpty = true) :
    Rewritten u ms ms := by
  simp only [TableUpdateProxy.isEmpty, Bool.and_eq_true] at hempty
  obtain ⟨⟨⟨hfiles, hvectors⟩, hindices⟩, hpuffins⟩ := hempty
  refine ⟨hms, ?_, ?_, ?_⟩
  · rw [u.filter_keepsDataFile hfiles]
  · rw [u.filter_keepsDeletionVector (by simp only [TableUpdateProxy.passesOn, hvectors, hfiles]; rfl)]
    simp [blobsOf, List.isEmpty_iff.mp hvectors]
  · rw [u.filter_keepsFileIndex (by simp only [TableUpdateProxy.passesOn, hindices, hpuffins]; rfl)]
    simp [blobsOf, List.isEmpty_iff.mp hindices]

omit [Inhabited Metrics] in
theorem Fits.of_isEmpty (hempty : u.isEmpty = true) : Fits u ms := by
  simp only [TableUpdateProxy.isEmpty, Bool.and_eq_true, List.isEmpty_iff] at hempty
  exact ⟨.inl hempty.1.1.1, .inl ⟨hempty.1.1.2, hempty.1.1.1⟩⟩

/-- What is rewritten holds the live entries exactly if no finalized manifest was lost. -/
theorem ManifestRewriter.Outcome.rewritten_iff {ms' finalized : List _}
    (h : ManifestRewriter.Outcome u ms ms' finalized) : Rewritten u ms ms' ↔ finalized = [] := by
  constructor
  · intro hrewritten
    have hlength := hrewritten.dataFiles.length_eq
    rw [h.dataFiles, List.length_append] at hlength
    exact List.length_eq_zero_iff.mp (by omega)
  · intro hnil
    have hdata := h.dataFiles
    rw [hnil, List.nil_append] at hdata
    exact ⟨h.wellFormed, .of_eq hdata.symm, h.deletionVectors, h.fileIndices⟩

theorem ManifestRewriter.Outcome.finalized_iff {ms' finalized : List _}
    (h : ManifestRewriter.Outcome u ms ms' finalized) :
    finalized = [] ↔ u.dataFilesToRemove = [] ∨
      ((entriesOf .dataFile ms).filter u.keepsDataFile).length < defaultMaxManifestEntryCount := by
  rw [h.dataFiles, List.length_append]
  constructor
  · intro hnil
    exact h.short.imp id fun hshort => by rwa [hnil, List.length_nil, Nat.zero_add]
  · intro hfits
    refine h.full.resolve_right ?_
    rintro ⟨hne, hfull⟩
    have hlt := hfits.resolve_left hne
    omega

theorem rewrite_outcome (hio : io.Lawful) (hreads : io.Reads manifestList ms)
    (hms : ∀ m ∈ ms, m.WellFormed) (hu : u.WellFormed) (hempty : u.isEmpty = false) :
    Ensures (appendPuffinMetadataAndRewrite io manifestList u) fun out =>
      ∃ ms' finalized, io.Reads out ms' ∧ ManifestRewriter.Outcome u ms ms' finalized := by
  unfold appendPuffinMetadataAndRewrite
  rw [hempty, if_neg Bool.false_ne_true]
  exact (ManifestRewriter.collected_ensures hio hreads hms).bind fun r hcollected =>
    (ManifestRewriter.finalize_returns hio hms hu hcollected).ensures

/-- A rewrite that keeps the live entries fits. -/
theorem Fits.of_rewritten (hio : io.Lawful) (hreads : io.Reads manifestList ms)
    (hms : ∀ m ∈ ms, m.WellFormed) (hu : u.WellFormed)
    (h : Returns (appendPuffinMetadataAndRewrite io manifestList u)
      fun out => ∃ ms', io.Reads out ms' ∧ Rewritten u ms ms') : Fits u ms := by
  cases hempty : u.isEmpty with
  | true => exact .of_isEmpty hempty
  | false =>
    obtain ⟨out, hout, ms', hms', hrewritten⟩ := h
    obtain ⟨ms'', finalized, hms'', houtcome⟩ := rewrite_outcome hio hreads hms hu hempty out hout
    rw [hms'.unique hms''] at hrewritten
    exact ⟨houtcome.finalized_iff.mp (houtcome.rewritten_iff.mp hrewritten), houtcome.referenced⟩

/-- A rewrite succeeds and keeps exactly the live entries if and only if those of the data files
that are kept fit one manifest, where any is removed, and no data file has two deletion
vectors, where these are collected. -/
theorem rewrite_keeps_live_iff (hio : io.Lawful) (hreads : io.Reads manifestList ms)
    (hms : ∀ m ∈ ms, m.WellFormed) (hu : u.WellFormed) :
    Returns (appendPuffinMetadataAndRewrite io manifestList u)
      (fun out => ∃ ms', io.Reads out ms' ∧ Rewritten u ms ms') ↔ Fits u ms := by
  refine ⟨.of_rewritten hio hreads hms hu, fun hfits => ?_⟩
  unfold appendPuffinMetadataAndRewrite
  by_cases hempty : u.isEmpty = true
  · rw [if_pos hempty]
    exact .ok ⟨ms, hreads, rewritten_of_isEmpty hms hempty⟩
  · rw [if_neg hempty]
    refine (ManifestRewriter.collected_returns hio hreads hms hfits.collected_nodup).bind
      fun r hcollected => ?_
    refine (ManifestRewriter.finalize_returns hio hms hu hcollected).mono ?_
    rintro out ⟨ms', finalized, hms', houtcome⟩
    exact ⟨ms', hms', houtcome.rewritten_iff.mpr (houtcome.finalized_iff.mpr hfits.dataFiles)⟩

end

theorem rewrite_keeps_live_replaceFirst :
    Returns (appendPuffinMetadataAndRewrite .inMemory twoDataFiles replaceFirst) fun out =>
      ∃ ms', ManifestIo.inMemory.Reads out ms' ∧ Rewritten replaceFirst twoDataFiles ms' :=
  (rewrite_keeps_live_iff ManifestIo.inMemory_lawful (ManifestIo.inMemory_reads _)
    twoDataFiles_wellFormed replaceFirst_wellFormed).mpr ⟨.inr (by decide), .inr (by decide)⟩

/-- The first data file is removed. -/
def removeFirst : TableUpdateProxy Nat := ⟨∅, ∅, [], [0]⟩

/-- The manifest is full with the other files, and is lost. -/
theorem rewrite_loses_full_manifest :
    ¬ Returns (appendPuffinMetadataAndRewrite .inMemory
        [dataFilesBelow (defaultMaxManifestEntryCount + 1)] removeFirst) fun out =>
      ∃ ms', ManifestIo.inMemory.Reads out ms' ∧
        Rewritten removeFirst [dataFilesBelow (defaultMaxManifestEntryCount + 1)] ms' := by
  intro h
  have htype := dataFilesBelow_ofType (Nat.succ_pos defaultMaxManifestEntryCount)
  have hfits := Fits.of_rewritten ManifestIo.inMemory_lawful (ManifestIo.inMemory_reads _)
    (fun m hm => List.mem_singleton.mp hm ▸ ⟨_, htype⟩) ⟨by simp [blobsOf, removeFirst],
      by simp [blobsOf, removeFirst]⟩ h
  have hlt := hfits.dataFiles.resolve_left (by simp [removeFirst])
  have hentries : (entriesOf .dataFile [dataFilesBelow (defaultMaxManifestEntryCount + 1)]).filter
      removeFirst.keepsDataFile = (List.range defaultMaxManifestEntryCount).map (dataFileEntry ∘ (· + 1)) := by
    rw [entriesOf_cons htype, if_pos rfl, entriesOf_nil, List.append_nil, dataFilesBelow,
      List.range_succ_eq_map, List.map_cons, List.filter_cons_of_neg (by decide), List.map_map,
      List.filter_eq_self.mpr]
    intro e he
    obtain ⟨path, -, rfl⟩ := List.mem_map.mp he
    simp [TableUpdateProxy.keepsDataFile, DataFileManifestManager.keeps, removeFirst, dataFileEntry]
  rw [hentries, List.length_map, List.length_range] at hlt
  exact absurd hlt (Nat.lt_irrefl _)

end Moonlink.Iceberg
