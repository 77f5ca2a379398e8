-- SUMMARY: When deletes and lookups in a mem slice find the live rows, over runs of its operations.
import Moonlink.Lib.TransitionSystem
import Moonlink.Storage.SliceCells

/-!
# Searching a mem slice

A slice has an index and deletion vectors. A delete removes the entry of the row that it marks, while a
delete at a position only marks the row, so the entry of a deleted row may stay. If a row with the same
key is appended then, a search may come to the old entry first, find a deleted row and give up. A
search for full rows goes on to the next entry.
-/

namespace Moonlink.Storage

open Lib

variable {Row Ident : Type} [BEq Ident]

/-- Rows are found by one entry. -/
def IdentityKind.isKey : IdentityKind → Bool
  | singlePrimitiveKey => true
  | keys => true
  | _ => false

/-! ## Lookups -/

namespace ColumnStoreBuffer

variable {store : ColumnStoreBuffer Row} {identity : IdentityProp Row Ident} {row : Row} {loc : Nat × Nat}

/-- The comparison with the row at a location, which is in an array once its batch is closed. -/
def compared (store : ColumnStoreBuffer Row) (identity : IdentityProp Row Ident) (i : Ident) (loc : Nat × Nat) (r : Row) :
    Option Bool :=
  match (store.findBatch loc.1).bind (·.batch.data) with
  | some _ => identity.equalsRecordBatchAtOffset i r
  | none => some (identity.equalsMoonlinkRow i r)

/-- What a search for a row makes of a location: a live row is found, and a full row if it compares equal. -/
def answerAt (store : ColumnStoreBuffer Row) (identity : IdentityProp Row Ident) (row : Row) (loc : Nat × Nat) : Option Bool :=
  match store.cell loc with
  | some (r, false) =>
    if identity.kind = .fullRow then store.compared identity (identity.columns row) loc r else some true
  | _ => some false

def valid (store : ColumnStoreBuffer Row) (identity : IdentityProp Row Ident) (row : Row) (loc : Nat × Nat) : Bool :=
  store.answerAt identity row loc = some true

omit [BEq Ident] in
theorem findValidRowByRecord_eq {lsn : Nat} {deleteIfExists : Bool} (hcell : store.cell loc ≠ none) :
    store.findValidRowByRecord identity (identity.deletionRecord row lsn deleteIfExists) loc =
      match store.answerAt identity row loc with
      | some found => .ok (if found then some loc else none)
      | none => .error .identityNotCompared := by
  obtain ⟨⟨r, deleted⟩, hr⟩ := Option.ne_none_iff_exists'.mp hcell
  obtain ⟨entry, hfind, hmap⟩ := Option.bind_eq_some_iff.mp hr
  obtain ⟨r', hrow, heq⟩ := Option.map_eq_some_iff.mp hmap
  cases heq
  unfold findValidRowByRecord answerAt
  rw [hfind, hr]
  cases hdeleted : entry.batch.deletions.isDeleted loc.2 with
  | true => simp [hdeleted]
  | false =>
    by_cases hfull : identity.kind = .fullRow
    · have hrecord : (identity.deletionRecord row lsn deleteIfExists).rowIdentity = some (identity.columns row) := by
        simp [IdentityProp.deletionRecord, IdentityProp.extractIdentityColumns, hfull]
      unfold rowsOf at hrow
      unfold checkIdentity compared IdentityProp.requiresIdentityCheckInMemSlice
      rw [hfind, hfull, hrecord]
      cases hdata : entry.batch.data with
      | none =>
        rw [hdata] at hrow
        simp only [Option.getD_none] at hrow
        cases hequal : identity.equalsMoonlinkRow (identity.columns row) r <;>
          simp [hdata, hdeleted, hrow, hequal, IdentityProp.checkRow, pure, Except.pure]
      | some rows =>
        rw [hdata] at hrow
        simp only [Option.getD_some] at hrow
        rcases hequal : identity.equalsRecordBatchAtOffset (identity.columns row) r with _ | (_ | _) <;>
          simp [hdata, hdeleted, hrow, hequal, IdentityProp.checkRow, bind, Except.bind, pure, Except.pure]
    · have hcheck : store.checkIdentity identity (identity.deletionRecord row lsn deleteIfExists) entry loc.2 = .ok true :=
        if_neg (by simp [IdentityProp.requiresIdentityCheckInMemSlice, hfull])
      simp [hcheck, hdeleted, hfull, pure, Except.pure]

omit [BEq Ident] in
theorem answerAt_ne_none (h : identity.kind = .fullRow → ∀ r, store.cell loc = some (r, false) →
    store.compared identity (identity.columns row) loc r ≠ none) : store.answerAt identity row loc ≠ none := by
  unfold answerAt
  split
  case h_1 r hcell =>
    split
    case isTrue hfull => exact h hfull r hcell
    case isFalse => exact nofun
  case h_2 => exact nofun

omit [BEq Ident] in
theorem answerAt_eq_true_iff : store.answerAt identity row loc = some true ↔ ∃ r, store.cell loc = some (r, false) ∧
    (identity.kind = .fullRow → store.compared identity (identity.columns row) loc r = some true) := by
  unfold answerAt
  cases store.cell loc with
  | none => simp
  | some c =>
    obtain ⟨r, deleted⟩ := c
    by_cases hfull : identity.kind = .fullRow <;> cases deleted <;> simp [hfull]

omit [BEq Ident] in
theorem valid_eq_true_iff : store.valid identity row loc = true ↔ ∃ r, store.cell loc = some (r, false) ∧
    (identity.kind = .fullRow → store.compared identity (identity.columns row) loc r = some true) :=
  decide_eq_true_iff.trans answerAt_eq_true_iff

end ColumnStoreBuffer

namespace MemSlice

open ColumnStoreBuffer

variable {slice : MemSlice Row Ident} {store : ColumnStoreBuffer Row} {identity : IdentityProp Row Ident} {row : Row}
  {lsn : Nat} {deleteIfExists : Bool} {locs : List (Nat × Nat)}

omit [BEq Ident] in
theorem findFirst_eq (hcells : ∀ loc ∈ locs, store.cell loc ≠ none)
    (hanswers : ∀ loc ∈ locs, store.answerAt identity row loc ≠ none) :
    findFirst identity (identity.deletionRecord row lsn deleteIfExists) store locs =
      .ok (locs.find? (store.valid identity row)) := by
  induction locs with
  | nil => rfl
  | cons loc rest ih =>
    obtain ⟨found, hfound⟩ := Option.ne_none_iff_exists'.mp (hanswers loc List.mem_cons_self)
    rw [findFirst, findValidRowByRecord_eq (hcells loc List.mem_cons_self), List.find?_cons, valid, hfound]
    cases found with
    | true => rfl
    | false =>
      exact ih (fun loc' hloc' => hcells loc' (List.mem_cons_of_mem _ hloc'))
        fun loc' hloc' => hanswers loc' (List.mem_cons_of_mem _ hloc')

omit [BEq Ident] in
/-- Whatever the comparisons answer, it is a live row that is found. -/
theorem findFirst_live (hcells : ∀ loc ∈ locs, store.cell loc ≠ none) :
    Ensures (findFirst identity (identity.deletionRecord row lsn deleteIfExists) store locs) fun found =>
      ∀ loc ∈ found, ∃ r, store.cell loc = some (r, false) := by
  induction locs with
  | nil => exact .ok nofun
  | cons loc rest ih =>
    rw [findFirst, findValidRowByRecord_eq (hcells loc List.mem_cons_self)]
    cases hanswer : store.answerAt identity row loc with
    | none => exact .error
    | some found =>
      cases found with
      | false => exact ih fun loc' hloc' => hcells loc' (List.mem_cons_of_mem _ hloc')
      | true =>
        obtain ⟨r, hcell, -⟩ := answerAt_eq_true_iff.mp hanswer
        refine .pure fun loc' hloc' => ?_
        cases hloc'
        exact ⟨r, hcell⟩

omit [BEq Ident] in
/-- A delete is a search, and the row that it finds is marked. -/
theorem deleteFirst_eq (record : RawDeletionRecord Ident) : deleteFirst identity record store locs = (do
    match ← findFirst identity record store locs with
    | none => return (none, store)
    | some loc => return (some loc, ← store.deleteAt loc)) := by
  induction locs with
  | nil => rfl
  | cons loc rest ih =>
    rw [deleteFirst, deleteRowByRecord, findFirst]
    cases store.findValidRowByRecord identity record loc with
    | error e => rfl
    | ok found =>
      cases found with
      | none => exact ih
      | some loc' => cases hdelete : store.deleteAt loc' <;> simp [hdelete, bind, Except.bind, pure, Except.pure]

/-! ## The index and the rows -/

/-- Every entry is that of a row, and every live row has one entry. -/
structure Accounted (identity : IdentityProp Row Ident) (counter : BatchIdCounter) (slice : MemSlice Row Ident) :
    Prop where
  kind : slice.memIndex.kind = identity.kind
  wellFormed : slice.columnStore.WellFormed counter
  entries : ∀ e ∈ slice.memIndex.entries, ∃ row deleted, slice.columnStore.cell e.location = some (row, deleted) ∧
    e.hash = identity.lookupKey row ∧ e.identity = identity.extractIdentityForKey row
  indexed : identity.kind ≠ .none → ∀ loc row, slice.columnStore.cell loc = some (row, false) →
    loc ∈ slice.memIndex.entries.map (·.location)
  unindexed : identity.kind = .none → slice.memIndex.entries = []
  nodup : (slice.memIndex.entries.map (·.location)).Nodup

/-- Of the entries for one key only the last can be that of a live row. -/
structure Searchable (identity : IdentityProp Row Ident) (counter : BatchIdCounter) (slice : MemSlice Row Ident) :
    Prop extends slice.Accounted identity counter where
  last : identity.kind.isKey = true → slice.memIndex.entries.Pairwise fun e e' =>
    e.hash = e'.hash → e.identity = e'.identity → ∃ row, slice.columnStore.cell e.location = some (row, true)

/-- What a search for a row should return. -/
def FoundBy (identity : IdentityProp Row Ident) (slice : MemSlice Row Ident) (row : Row) : Option (Nat × Nat) → Prop
  | some loc => ∃ r, slice.columnStore.cell loc = some (r, false) ∧ identity.columns r = identity.columns row
  | none => ∀ loc r, slice.columnStore.cell loc = some (r, false) → identity.columns r ≠ identity.columns row

/-- If a live row has the key, no entry of the index is that of a deleted row with the same key. -/
def NoStale (identity : IdentityProp Row Ident) (slice : MemSlice Row Ident) (row : Row) : Prop :=
  identity.kind ≠ .fullRow →
    (∃ loc r, slice.columnStore.cell loc = some (r, false) ∧ identity.columns r = identity.columns row) →
      ∀ e ∈ slice.memIndex.entries, ∀ r, slice.columnStore.cell e.location = some (r, true) →
        identity.columns r ≠ identity.columns row

/-- The comparisons of a search tell whether a row has the identity: those of keys with the entries of the index, and
those of full rows with the live rows. -/
structure Tells (identity : IdentityProp Row Ident) (slice : MemSlice Row Ident) (row : Row) : Prop where
  keys : identity.kind = .keys → ∀ e ∈ slice.memIndex.entries, ∀ r deleted,
    slice.columnStore.cell e.location = some (r, deleted) → identity.lookupKey r = identity.lookupKey row →
      (identity.columns r == identity.columns row ↔ identity.columns r = identity.columns row)
  fullRows : identity.kind = .fullRow → ∀ loc r, slice.columnStore.cell loc = some (r, false) →
    identity.lookupKey r = identity.lookupKey row →
      ∃ equal, slice.columnStore.compared identity (identity.columns row) loc r = some equal ∧
        (equal ↔ identity.columns r = identity.columns row)

section Search

variable {counter : BatchIdCounter}

omit [BEq Ident] in
theorem columns_eq_of_isKey (hkey : identity.kind.isKey = true) {r r' : Row}
    (hhash : identity.lookupKey r = identity.lookupKey r')
    (hidentity : identity.extractIdentityForKey r = identity.extractIdentityForKey r') :
    identity.columns r = identity.columns r' := by
  unfold IdentityProp.extractIdentityForKey at hidentity
  cases hkind : identity.kind with
  | singlePrimitiveKey => exact identity.columns_eq hkind r r' hhash
  | keys =>
    rw [hkind] at hidentity
    exact Option.some.inj hidentity
  | fullRow => rw [hkind] at hkey; cases hkey
  | none => rw [hkind] at hkey; cases hkey

theorem isFor_iff_of_isKey (h : slice.Searchable identity counter) (htells : slice.Tells identity row)
    (hkey : identity.kind.isKey = true) {e : MemIndexEntry Ident} (he : e ∈ slice.memIndex.entries) {r : Row}
    {deleted : Bool} (hcell : slice.columnStore.cell e.location = some (r, deleted))
    (hhash : e.hash = identity.lookupKey r) (hidentity : e.identity = identity.extractIdentityForKey r) :
    slice.memIndex.isFor (identity.deletionRecord row lsn deleteIfExists) e = true ↔
      identity.columns r = identity.columns row := by
  unfold MemIndex.isFor IdentityProp.deletionRecord IdentityProp.extractIdentityColumns
  rw [h.kind, hhash, hidentity, IdentityProp.extractIdentityForKey]
  cases hkind : identity.kind with
  | singlePrimitiveKey =>
    have hiff : identity.lookupKey r = identity.lookupKey row ↔ identity.columns r = identity.columns row :=
      ⟨identity.columns_eq hkind r row, identity.lookupKey_eq r row⟩
    simpa using hiff
  | keys =>
    have hiff := htells.keys hkind e he r deleted hcell
    have hlookup := identity.lookupKey_eq r row
    constructor
    · intro hfor
      have hsame : identity.lookupKey r = identity.lookupKey row ∧
          identity.columns r == identity.columns row := by simpa using hfor
      exact (hiff hsame.1).mp hsame.2
    · intro hcolumns
      simpa using And.intro (hlookup hcolumns) ((hiff (hlookup hcolumns)).mpr hcolumns)
  | fullRow => rw [hkind] at hkey; cases hkey
  | none => rw [hkind] at hkey; cases hkey

/-- The locations that the index gives for a row. -/
def candidates (identity : IdentityProp Row Ident) (slice : MemSlice Row Ident) (row : Row) : List (Nat × Nat) :=
  slice.memIndex.findRecord (identity.deletionRecord row 0 false)

theorem findRecord_eq : slice.memIndex.findRecord (identity.deletionRecord row lsn deleteIfExists) =
    slice.candidates identity row := rfl

theorem hash_of_isFor {e : MemIndexEntry Ident}
    (h : slice.memIndex.isFor (identity.deletionRecord row lsn deleteIfExists) e = true) :
    e.hash = identity.lookupKey row := of_decide_eq_true (Bool.and_eq_true_iff.mp h).1

theorem Accounted.candidates_cell (h : slice.Accounted identity counter) :
    ∀ loc ∈ slice.candidates identity row, slice.columnStore.cell loc ≠ none := by
  intro loc hloc
  obtain ⟨e, he, rfl, -⟩ := MemIndex.exists_of_mem_findRecord hloc
  obtain ⟨r, deleted, hcell, -⟩ := h.entries e he
  rw [hcell]
  exact nofun

theorem Searchable.candidates_answer (h : slice.Searchable identity counter) (htells : slice.Tells identity row) :
    ∀ loc ∈ slice.candidates identity row, slice.columnStore.answerAt identity row loc ≠ none := by
  intro loc hloc
  obtain ⟨e, he, rfl, hfor⟩ := MemIndex.exists_of_mem_findRecord hloc
  obtain ⟨r, deleted, hcell, hhash, -⟩ := h.entries e he
  refine answerAt_ne_none fun hfull r' hlive => ?_
  rw [hcell] at hlive
  cases hlive
  obtain ⟨equal, hequal, -⟩ := htells.fullRows hfull _ r hcell (hhash.symm.trans (hash_of_isFor hfor))
  rw [hequal]
  exact nofun

theorem candidates_eq_fastDelete (lsn : Nat) (deleteIfExists : Bool) (h : slice.memIndex.kind ≠ .fullRow) :
    slice.candidates identity row =
    (slice.memIndex.fastDelete (identity.deletionRecord row lsn deleteIfExists)).1.toList := by
  unfold candidates MemIndex.findRecord
  split
  case h_1 hfull => exact absurd hfull h
  case h_2 => rfl

/-- A search for full rows tries all entries with the hash. -/
theorem Searchable.found_of_fullRow (h : slice.Searchable identity counter) (htells : slice.Tells identity row)
    (hkind : identity.kind = .fullRow) :
    slice.FoundBy identity row ((slice.candidates identity row).find? (slice.columnStore.valid identity row)) := by
  have hmem (e : MemIndexEntry Ident) (he : e ∈ slice.memIndex.entries) (hhash : e.hash = identity.lookupKey row) :
      e.location ∈ slice.candidates identity row := by
    unfold candidates MemIndex.findRecord
    rw [h.kind, hkind]
    refine List.mem_map_of_mem (List.mem_filter.mpr ⟨he, ?_⟩)
    simp [MemIndex.isFor, IdentityProp.deletionRecord, hhash, h.kind, hkind]
  cases hfind : (slice.candidates identity row).find? (slice.columnStore.valid identity row) with
  | some loc =>
    obtain ⟨r, hcell, hequal⟩ := valid_eq_true_iff.mp (List.find?_some hfind)
    obtain ⟨e, he, rfl, hfor⟩ := MemIndex.exists_of_mem_findRecord (List.mem_of_find?_eq_some hfind)
    obtain ⟨r', deleted, hcell', hhash, -⟩ := h.entries e he
    rw [hcell] at hcell'
    cases hcell'
    obtain ⟨equal, hcompared, htold⟩ := htells.fullRows hkind _ r hcell (hhash.symm.trans (hash_of_isFor hfor))
    rw [hequal hkind] at hcompared
    cases hcompared
    exact ⟨r, hcell, htold.mp rfl⟩
  | none =>
    intro loc r hcell hcolumns
    obtain ⟨e, he, rfl⟩ := List.mem_map.mp (h.indexed (by rw [hkind]; decide) loc r hcell)
    obtain ⟨r', deleted, hcell', hhash, -⟩ := h.entries e he
    rw [hcell] at hcell'
    cases hcell'
    have hlookup := identity.lookupKey_eq r row hcolumns
    obtain ⟨equal, hcompared, htold⟩ := htells.fullRows hkind _ r hcell hlookup
    rw [htold.mpr hcolumns] at hcompared
    exact List.find?_eq_none.mp hfind _ (hmem e he (hhash.trans hlookup))
      (valid_eq_true_iff.mpr ⟨r, hcell, fun _ => hcompared⟩)

/-- A search by key finds what it should if its entry is not stale. -/
theorem Searchable.found_iff_of_isKey (h : slice.Searchable identity counter) (htells : slice.Tells identity row)
    (hkey : identity.kind.isKey = true) :
    slice.FoundBy identity row ((slice.candidates identity row).find? (slice.columnStore.valid identity row)) ↔
      slice.NoStale identity row := by
  have hkind : identity.kind ≠ .fullRow := by
    intro hkind
    rw [hkind] at hkey
    cases hkey
  rw [candidates_eq_fastDelete 0 false (h.kind ▸ hkind), MemIndex.fastDelete]
  cases hfind : slice.memIndex.entries.find? (slice.memIndex.isFor (identity.deletionRecord row 0 false)) with
  | none =>
    have hnone : ∀ loc r, slice.columnStore.cell loc = some (r, false) → identity.columns r ≠ identity.columns row := by
      intro loc r hcell hcolumns
      have hindexed : identity.kind ≠ .none := by
        intro hnone
        rw [hnone] at hkey
        cases hkey
      obtain ⟨e, he, rfl⟩ := List.mem_map.mp (h.indexed hindexed loc r hcell)
      obtain ⟨r', deleted, hcell', hhash, hidentity⟩ := h.entries e he
      have hsame := hcell'
      rw [hcell] at hsame
      cases hsame
      exact List.find?_eq_none.mp hfind e he ((isFor_iff_of_isKey h htells hkey he hcell' hhash hidentity).mpr hcolumns)
    refine iff_of_true hnone ?_
    rintro - ⟨loc, r, hcell, hcolumns⟩
    exact absurd hcolumns (hnone loc r hcell)
  | some e =>
    have he := List.mem_of_find?_eq_some hfind
    obtain ⟨r, deleted, hcell, hhash, hidentity⟩ := h.entries e he
    have hcolumns := (isFor_iff_of_isKey h htells hkey he hcell hhash hidentity).mp (List.find?_some hfind)
    cases deleted with
    | true =>
      -- The search gives up at a deleted row.
      have hvalid : slice.columnStore.valid identity row e.location = false := by simp [valid, answerAt, hcell]
      rw [Option.map_some, Option.toList_some, List.find?_cons, hvalid, List.find?_nil]
      constructor
      · rintro hnone - ⟨loc, r', hlive, hcolumns'⟩
        exact absurd hcolumns' (hnone loc r' hlive)
      · exact fun hstale loc r' hlive hcolumns' => hstale hkind ⟨loc, r', hlive, hcolumns'⟩ e he r hcell hcolumns
    | false =>
      have hvalid : slice.columnStore.valid identity row e.location = true :=
        valid_eq_true_iff.mpr ⟨r, hcell, fun hfull => absurd hfull hkind⟩
      rw [Option.map_some, Option.toList_some, List.find?_cons, hvalid]
      refine iff_of_true ⟨r, hcell, hcolumns⟩ ?_
      rintro - - e' he' r' hcell' hcolumns'
      obtain ⟨r'', deleted, hrow, hhash', hidentity'⟩ := h.entries e' he'
      have hsame := hrow
      rw [hcell'] at hsame
      cases hsame
      have hequal : identity.columns r = identity.columns r' := hcolumns.trans hcolumns'.symm
      have hfor : slice.memIndex.isFor (identity.deletionRecord row 0 false) e' = true :=
        (isFor_iff_of_isKey h htells hkey he' hrow hhash' hidentity').mpr hcolumns'
      obtain ⟨-, before, after, heq, hbefore⟩ := List.find?_eq_some_iff_append.mp hfind
      have hlast := h.last hkey
      rw [heq] at he' hlast
      rcases List.mem_append.mp he' with hmem | hmem
      · have hnot := hbefore e' hmem
        rw [hfor] at hnot
        cases hnot
      · rcases List.mem_cons.mp hmem with rfl | hmem
        · rw [hcell] at hcell'
          cases hcell'
        · obtain ⟨-, hafter, -⟩ := List.pairwise_append.mp hlast
          obtain ⟨r₁, hdeleted⟩ := (List.pairwise_cons.mp hafter).1 e' hmem
            (by rw [hhash, hhash', identity.lookupKey_eq r r' hequal])
            (by rw [hidentity, hidentity', IdentityProp.extractIdentityForKey,
              IdentityProp.extractIdentityForKey, hequal])
          rw [hcell] at hdeleted
          cases hdeleted

/-- A search finds what it should, unless it is by key and an entry of the key is stale. -/
theorem Searchable.found_iff (h : slice.Searchable identity counter) (htells : slice.Tells identity row)
    (hkind : identity.kind ≠ .none) :
    slice.FoundBy identity row ((slice.candidates identity row).find? (slice.columnStore.valid identity row)) ↔
      slice.NoStale identity row := by
  by_cases hfull : identity.kind = .fullRow
  · exact iff_of_true (h.found_of_fullRow htells hfull) fun hne => absurd hfull hne
  · refine h.found_iff_of_isKey htells ?_
    cases hk : identity.kind with
    | singlePrimitiveKey => rfl
    | keys => rfl
    | fullRow => exact absurd hk hfull
    | none => exact absurd hk hkind

end Search

/-! ## Operations -/

/-- The cells with a location marked. -/
def markAt (cells : Nat × Nat → Option (Row × Bool)) : Option (Nat × Nat) → Nat × Nat → Option (Row × Bool)
  | none => cells
  | some loc => Function.update cells loc ((cells loc).map fun c => (c.1, true))

section Operations

variable {counter : BatchIdCounter}

theorem findNonDeletedPosition_eq
    (hcells : ∀ loc ∈ slice.candidates identity row, slice.columnStore.cell loc ≠ none)
    (hanswers : ∀ loc ∈ slice.candidates identity row, slice.columnStore.answerAt identity row loc ≠ none) :
    slice.findNonDeletedPosition identity (identity.deletionRecord row lsn deleteIfExists) =
      .ok ((slice.candidates identity row).find? (slice.columnStore.valid identity row)) := by
  unfold findNonDeletedPosition
  rw [findRecord_eq, findFirst_eq hcells hanswers]

theorem findNonDeletedPosition_live
    (hcells : ∀ loc ∈ slice.candidates identity row, slice.columnStore.cell loc ≠ none) :
    Ensures (slice.findNonDeletedPosition identity (identity.deletionRecord row lsn deleteIfExists)) fun pos =>
      ∀ loc ∈ pos, ∃ r, slice.columnStore.cell loc = some (r, false) := findFirst_live hcells

/-- The index after a delete. -/
def indexAfterDelete (slice : MemSlice Row Ident) (record : RawDeletionRecord Ident) : MemIndex Ident :=
  if slice.memIndex.allowDuplicate then slice.memIndex else (slice.memIndex.fastDelete record).2

omit [BEq Ident] in
theorem markFirst_eq (locs : List (Nat × Nat)) (memIndex : MemIndex Ident) : (do
    let (location, columnStore) ←
      deleteFirst identity (identity.deletionRecord row lsn deleteIfExists) slice.columnStore locs
    return (location, (⟨columnStore, memIndex⟩ : MemSlice Row Ident))) = (do
    match ← findFirst identity (identity.deletionRecord row lsn deleteIfExists) slice.columnStore locs with
    | none => return (none, ⟨slice.columnStore, memIndex⟩)
    | some loc => return (some loc, ⟨← slice.columnStore.deleteAt loc, memIndex⟩)) := by
  rw [deleteFirst_eq]
  cases findFirst identity (identity.deletionRecord row lsn deleteIfExists) slice.columnStore locs with
  | error e => rfl
  | ok found =>
    cases found with
    | none => rfl
    | some loc => cases hdelete : slice.columnStore.deleteAt loc <;> simp [hdelete, bind, Except.bind, pure, Except.pure]

theorem delete_eq : slice.delete identity (identity.deletionRecord row lsn deleteIfExists) = (do
    match ← slice.findNonDeletedPosition identity (identity.deletionRecord row lsn deleteIfExists) with
    | none => return (none, ⟨slice.columnStore, slice.indexAfterDelete (identity.deletionRecord row lsn deleteIfExists)⟩)
    | some loc => return (some loc, ⟨← slice.columnStore.deleteAt loc,
        slice.indexAfterDelete (identity.deletionRecord row lsn deleteIfExists)⟩)) := by
  unfold delete indexAfterDelete findNonDeletedPosition
  split
  case isTrue => exact markFirst_eq _ _
  case isFalse hkey =>
    rw [findRecord_eq, candidates_eq_fastDelete lsn deleteIfExists (by simpa [MemIndex.allowDuplicate] using hkey)]
    exact markFirst_eq _ _

/-- The row that a delete finds, if there is one, is marked. -/
theorem delete_marks (hwf : slice.columnStore.WellFormed counter)
    (hcells : ∀ loc ∈ slice.candidates identity row, slice.columnStore.cell loc ≠ none) :
    Ensures (slice.delete identity (identity.deletionRecord row lsn deleteIfExists)) fun res =>
      res.2.memIndex = slice.indexAfterDelete (identity.deletionRecord row lsn deleteIfExists) ∧
      res.2.columnStore.WellFormed counter ∧ res.2.columnStore.batchIds = slice.columnStore.batchIds ∧
      res.2.columnStore.cell = markAt slice.columnStore.cell res.1 := by
  rw [delete_eq]
  refine (findNonDeletedPosition_live hcells).bind fun found hlive => ?_
  cases found with
  | none => exact .pure ⟨rfl, hwf, rfl, rfl⟩
  | some loc =>
    obtain ⟨r, hcell⟩ := hlive loc rfl
    refine (deleteAt_cell hwf hcell).ensures.bind ?_
    rintro store' ⟨hwf', hids, hmarked⟩
    exact .pure ⟨rfl, hwf', hids, by rw [hmarked, markAt, hcell]; rfl⟩

/-- A delete finds what a search finds. -/
theorem delete_finds (hwf : slice.columnStore.WellFormed counter)
    (hcells : ∀ loc ∈ slice.candidates identity row, slice.columnStore.cell loc ≠ none)
    (hanswers : ∀ loc ∈ slice.candidates identity row, slice.columnStore.answerAt identity row loc ≠ none) :
    Returns (slice.delete identity (identity.deletionRecord row lsn deleteIfExists)) fun res =>
      res.1 = (slice.candidates identity row).find? (slice.columnStore.valid identity row) := by
  rw [delete_eq, findNonDeletedPosition_eq hcells hanswers, ok_bind]
  cases hfind : (slice.candidates identity row).find? (slice.columnStore.valid identity row) with
  | none => exact .pure rfl
  | some loc =>
    obtain ⟨r, hcell, -⟩ := valid_eq_true_iff.mp (List.find?_some hfind)
    exact (deleteAt_cell hwf hcell).bind fun store' _ => .pure rfl

/-! ## What operations keep -/

section Mark

variable {cells : Nat × Nat → Option (Row × Bool)} {found : Option (Nat × Nat)} {loc : Nat × Nat} {r : Row}

theorem markAt_live_iff :
    markAt cells found loc = some (r, false) ↔ cells loc = some (r, false) ∧ found ≠ some loc := by
  cases found with
  | none => simp [markAt]
  | some loc' =>
    unfold markAt
    by_cases heq : loc = loc'
    · subst heq
      simp
    · simp [Function.update_of_ne heq, Ne.symm heq]

theorem markAt_deleted (h : cells loc = some (r, true)) : markAt cells found loc = some (r, true) := by
  cases found with
  | none => exact h
  | some loc' =>
    rw [markAt]
    by_cases heq : loc = loc'
    · subst heq
      simp [h]
    · rw [Function.update_of_ne heq, h]

theorem exists_markAt (found : Option (Nat × Nat)) {deleted : Bool} (h : cells loc = some (r, deleted)) :
    ∃ deleted', markAt cells found loc = some (r, deleted') := by
  cases deleted with
  | true => exact ⟨true, markAt_deleted h⟩
  | false =>
    by_cases hfound : found = some loc
    · subst hfound
      exact ⟨true, by simp [markAt, h]⟩
    · exact ⟨false, markAt_live_iff.mpr ⟨h, hfound⟩⟩

end Mark

/-- The index loses at most the entry of the row that is marked. -/
theorem delete_keeps (hwf : slice.columnStore.WellFormed counter)
    (hcells : ∀ loc ∈ slice.candidates identity row, slice.columnStore.cell loc ≠ none)
    (hindex : slice.memIndex.kind = identity.kind) :
    Ensures (slice.delete identity (identity.deletionRecord row lsn deleteIfExists)) fun res =>
      res.2.memIndex.kind = slice.memIndex.kind ∧ res.2.columnStore.WellFormed counter ∧
      res.2.columnStore.batchIds = slice.columnStore.batchIds ∧
      res.2.columnStore.cell = markAt slice.columnStore.cell res.1 ∧
      res.2.memIndex.entries.Sublist slice.memIndex.entries ∧
      ∀ loc ∈ slice.memIndex.entries.map (·.location), ∀ r, res.2.columnStore.cell loc = some (r, false) →
        loc ∈ res.2.memIndex.entries.map (·.location) := by
  refine Ensures.mono (Ensures.and (fun res hres => hres) (delete_marks hwf hcells)) ?_
  rintro ⟨found, slice'⟩ ⟨hok, hslice, hwf', hids, hcell⟩
  simp only at hslice hwf' hids hcell
  unfold indexAfterDelete at hslice
  split at hslice
  case isTrue => exact ⟨by rw [hslice], hwf', hids, hcell, by rw [hslice], fun loc hloc _ _ => by rwa [hslice]⟩
  case isFalse hkey =>
    have hne : slice.memIndex.kind ≠ .fullRow := by simpa [MemIndex.allowDuplicate] using hkey
    obtain ⟨res, hres, hfound⟩ : Returns (slice.delete identity (identity.deletionRecord row lsn deleteIfExists)) _ :=
      delete_finds hwf hcells (fun _ _ => answerAt_ne_none fun hfull => absurd (hindex.trans hfull) hne)
    rw [hok] at hres
    cases hres
    refine ⟨by rw [hslice]; rfl, hwf', hids, hcell, by rw [hslice]; exact List.eraseP_sublist, ?_⟩
    intro loc hloc r hlive
    rw [hcell, markAt_live_iff] at hlive
    rw [hslice]
    refine (MemIndex.mem_fastDelete _ hloc).resolve_left fun hremoved => hlive.2 ?_
    -- The entry that is removed is the one at which the row was found.
    have hvalid : slice.columnStore.valid identity row loc = true :=
      valid_eq_true_iff.mpr ⟨r, hlive.1, fun hfull => absurd (hindex.trans hfull) hne⟩
    exact hfound.trans (by rw [candidates_eq_fastDelete lsn deleteIfExists hne, hremoved, Option.toList_some,
      List.find?_cons, hvalid])

omit [BEq Ident] in
/-- A row is marked, and at most its entry is removed. -/
theorem Accounted.mark (h : slice.Accounted identity counter) {slice' : MemSlice Row Ident} {found : Option (Nat × Nat)}
    (hkind : slice'.memIndex.kind = slice.memIndex.kind) (hwf : slice'.columnStore.WellFormed counter)
    (hcell : slice'.columnStore.cell = markAt slice.columnStore.cell found)
    (hsub : slice'.memIndex.entries.Sublist slice.memIndex.entries)
    (hkept : ∀ loc ∈ slice.memIndex.entries.map (·.location), ∀ r, slice'.columnStore.cell loc = some (r, false) →
      loc ∈ slice'.memIndex.entries.map (·.location)) : slice'.Accounted identity counter where
  kind := hkind.trans h.kind
  wellFormed := hwf
  entries e he := by
    obtain ⟨r, deleted, hrow, hentry⟩ := h.entries e (hsub.subset he)
    obtain ⟨deleted', hmarked⟩ := exists_markAt found hrow
    exact ⟨r, deleted', hcell ▸ hmarked, hentry⟩
  indexed hindexed loc r hlive := by
    have hold := hlive
    rw [hcell, markAt_live_iff] at hold
    exact hkept loc (h.indexed hindexed loc r hold.1) r hlive
  unindexed hnone := by
    have hempty := h.unindexed hnone
    rw [hempty] at hsub
    exact List.sublist_nil.mp hsub
  nodup := h.nodup.sublist (hsub.map _)

omit [BEq Ident] in
theorem Accounted.new {maxRowsPerBuffer : Nat} (hmax : 0 < maxRowsPerBuffer) (counter : BatchIdCounter) :
    Ensures (MemSlice.new identity maxRowsPerBuffer counter) fun res =>
      res.1.Accounted identity res.2 ∧ res.1.memIndex.entries = [] := by
  refine .bind (new_wellFormed hmax counter) ?_
  rintro ⟨store, counter'⟩ ⟨hwf, hcell⟩
  refine .pure ⟨⟨rfl, hwf, fun _ he => (by cases he), fun _ loc r hlive => ?_, fun _ => rfl, .nil⟩, rfl⟩
  rw [hcell] at hlive
  cases hlive

omit [BEq Ident] in
/-- A row is appended at a location without a row, with an entry unless the table has no identity. -/
theorem Accounted.append (h : slice.Accounted identity counter) :
    Ensures (slice.append identity counter row) fun res => res.2.1.Accounted identity res.2.2 ∧
      counter.counter ≤ res.2.2.counter ∧
      (∀ id ∈ res.2.1.columnStore.batchIds, id ∈ slice.columnStore.batchIds ∨ counter.counter < id) ∧
      ∃ loc, slice.columnStore.cell loc = none ∧
        res.2.1.columnStore.cell = Function.update slice.columnStore.cell loc (some (row, false)) ∧
        res.2.1.memIndex.entries = slice.memIndex.entries ++ if identity.kind = .none then [] else
          [⟨identity.lookupKey row, identity.extractIdentityForKey row, loc⟩] := by
  refine .bind (appendRow_cell h.wellFormed row) ?_
  rintro ⟨loc, newBatch, store, counter'⟩ ⟨hwf, hcounter, hids, hempty, hcell⟩
  simp only at hwf hcounter hids hempty hcell
  have hentries : ∀ e ∈ slice.memIndex.entries, e.location ≠ loc ∧ ∃ r deleted,
      store.cell e.location = some (r, deleted) ∧
        e.hash = identity.lookupKey r ∧ e.identity = identity.extractIdentityForKey r := by
    intro e he
    obtain ⟨r, deleted, hrow, hentry⟩ := h.entries e he
    have hne : e.location ≠ loc := by
      intro heq
      rw [heq, hempty] at hrow
      cases hrow
    exact ⟨hne, r, deleted, by rw [hcell, Function.update_of_ne hne, hrow], hentry⟩
  refine .pure ?_
  dsimp only
  by_cases hnone : identity.kind = .none
  · have hinsert : slice.memIndex.insert (identity.lookupKey row) (identity.extractIdentityForKey row) loc =
        slice.memIndex := if_pos (h.kind.trans hnone)
    rw [hinsert]
    refine ⟨⟨h.kind, hwf, fun e he => (hentries e he).2, fun hne => absurd hnone hne, h.unindexed, h.nodup⟩,
      hcounter, hids, loc, hempty, hcell, ?_⟩
    rw [if_pos hnone, List.append_nil]
  · have hinsert : slice.memIndex.insert (identity.lookupKey row) (identity.extractIdentityForKey row) loc =
        { slice.memIndex with entries := slice.memIndex.entries ++
          [⟨identity.lookupKey row, identity.extractIdentityForKey row, loc⟩] } := if_neg (h.kind ▸ hnone)
    rw [hinsert]
    refine ⟨⟨h.kind, hwf, ?_, fun _ loc' r hlive => ?_, fun heq => absurd heq hnone, ?_⟩, hcounter, hids, loc, hempty,
      hcell, by rw [if_neg hnone]⟩
    · intro e he
      obtain he | hlast := List.mem_append.mp he
      · exact (hentries e he).2
      · cases List.mem_singleton.mp hlast
        exact ⟨row, false, by rw [hcell, Function.update_self], rfl, rfl⟩
    · rw [List.map_append, List.mem_append]
      by_cases hloc : loc' = loc
      · exact .inr (List.mem_singleton.mpr hloc)
      · rw [hcell, Function.update_of_ne hloc] at hlive
        exact .inl (h.indexed hnone loc' r hlive)
    · rw [List.map_append, List.map_singleton, ← List.concat_eq_append]
      refine h.nodup.concat fun hmem => ?_
      obtain ⟨e, he, hloc⟩ := List.mem_map.mp hmem
      exact (hentries e he).1 hloc

omit [BEq Ident] in
/-- Nothing is left in a slice that is drained. -/
theorem Accounted.drain (h : slice.Accounted identity counter) :
    Ensures (slice.drain counter) fun res => res.2.1.Accounted identity res.2.2 ∧ res.2.1.memIndex.entries = [] ∧
      counter.counter ≤ res.2.2.counter ∧ (res.2.1.columnStore.cell = fun _ => none) ∧
      ∀ id ∈ res.2.1.columnStore.batchIds, counter.counter < id ∨
        id ∈ slice.columnStore.batchIds ∧ ∀ i, slice.columnStore.cell (id, i) = none := by
  refine .bind (finalizeCurrentBatch_cell h.wellFormed) ?_
  rintro ⟨batch, store, counter'⟩ ⟨hwf, hcounter, hrows, hids, hcell⟩
  simp only at hwf hcounter hrows hids hcell
  obtain ⟨hdrained, hempty⟩ := drain_cell hwf hrows
  refine .pure ⟨⟨h.kind, hdrained, fun e he => ?_, fun _ loc r hlive => ?_, fun _ => rfl, .nil⟩, rfl, hcounter, hempty, ?_⟩
  · cases he
  · cases hlive.symm.trans (congrFun hempty loc)
  · intro id hid
    have hopen : id = store.openBatch.id := by simpa [ColumnStoreBuffer.drain, batchIds, inMemoryBatches] using hid
    subst hopen
    have hmem : store.openBatch.id ∈ store.batchIds := List.mem_map_of_mem (List.mem_append_right _ List.mem_cons_self)
    refine (hids _ hmem).symm.imp_right fun hold => ⟨hold, fun i => ?_⟩
    rw [← hcell, cell, (findBatch_eq_some_iff hwf.ordered).mpr ⟨List.mem_append_right _ List.mem_cons_self, rfl⟩,
      Option.bind_some, rowsOf_openBatch hwf.ordered, hrows]
    rfl

theorem Accounted.delete (h : slice.Accounted identity counter) :
    Ensures (slice.delete identity (identity.deletionRecord row lsn deleteIfExists)) fun res =>
      res.2.Accounted identity counter ∧ res.2.columnStore.batchIds = slice.columnStore.batchIds ∧
      res.2.columnStore.cell = markAt slice.columnStore.cell res.1 ∧
      res.2.memIndex.entries.Sublist slice.memIndex.entries := by
  refine (delete_keeps h.wellFormed h.candidates_cell h.kind).mono ?_
  rintro ⟨found, slice'⟩ ⟨hkind, hwf, hids, hcell, hsub, hkept⟩
  exact ⟨h.mark hkind hwf hcell hsub hkept, hids, hcell, hsub⟩

omit [BEq Ident] in
/-- A row at a position can be deleted once. -/
theorem tryDeleteAtPos_returns (h : slice.Accounted identity counter) {pos : Nat × Nat}
    (hcell : pos.1 ∈ slice.columnStore.batchIds → ∃ r, slice.columnStore.cell pos = some (r, false)) :
    Returns (slice.tryDeleteAtPos pos) fun res => res.2.Accounted identity counter ∧
      res.2.columnStore.batchIds = slice.columnStore.batchIds ∧ res.2.memIndex = slice.memIndex ∧
      (res.1 = true ↔ pos.1 ∈ slice.columnStore.batchIds) ∧
      res.2.columnStore.cell = markAt slice.columnStore.cell (if res.1 then some pos else none) := by
  unfold MemSlice.tryDeleteAtPos ColumnStoreBuffer.tryDeleteAtPos
  cases hfind : slice.columnStore.findBatch pos.1 with
  | none =>
    have hnot : pos.1 ∉ slice.columnStore.batchIds := by
      intro hmem
      obtain ⟨entry, hentry, hid⟩ := List.mem_map.mp hmem
      rw [(findBatch_eq_some_iff h.wellFormed.ordered).mpr ⟨hentry, hid⟩] at hfind
      cases hfind
    exact .pure ⟨h, rfl, rfl, iff_of_false Bool.false_ne_true hnot, rfl⟩
  | some entry =>
    obtain ⟨hentry, hid⟩ := (findBatch_eq_some_iff h.wellFormed.ordered).mp hfind
    have hmem : pos.1 ∈ slice.columnStore.batchIds := hid ▸ List.mem_map_of_mem hentry
    obtain ⟨r, hlive⟩ := hcell hmem
    obtain ⟨store', hok, hwf, hids, hmarked⟩ := deleteAt_cell h.wellFormed hlive
    have hmark : store'.cell = markAt slice.columnStore.cell (some pos) := by
      rw [hmarked, markAt, hlive]
      rfl
    refine ⟨(true, ⟨store', slice.memIndex⟩), by simp only [hok]; rfl, ?_, hids, rfl, iff_of_true rfl hmem, hmark⟩
    exact h.mark rfl hwf hmark (.refl _) fun loc hloc _ _ => hloc

omit [BEq Ident] in
theorem tryDeleteAtPos_error (h : slice.Accounted identity counter) {pos : Nat × Nat} {r : Row}
    (hcell : slice.columnStore.cell pos = some (r, true)) : ¬ ∃ res, slice.tryDeleteAtPos pos = .ok res := by
  rintro ⟨res, hok⟩
  obtain ⟨found, hfound, -⟩ := bind_eq_ok.mp hok
  obtain ⟨entry, hentry, hid, -⟩ := (cell_eq_some_iff h.wellFormed.ordered).mp hcell
  rw [ColumnStoreBuffer.tryDeleteAtPos, (findBatch_eq_some_iff h.wellFormed.ordered).mpr ⟨hentry, hid⟩] at hfound
  obtain ⟨store', hdelete, -⟩ := bind_eq_ok.mp hfound
  exact deleteAt_error h.wellFormed hcell ⟨store', hdelete⟩

omit [BEq Ident] in
theorem Accounted.tryDeleteAtPos (h : slice.Accounted identity counter) {pos : Nat × Nat}
    (hpos : pos.1 ∈ slice.columnStore.batchIds → slice.columnStore.cell pos ≠ none) :
    Ensures (slice.tryDeleteAtPos pos) fun res => res.2.Accounted identity counter ∧
      res.2.columnStore.batchIds = slice.columnStore.batchIds ∧ res.2.memIndex = slice.memIndex ∧
      ∃ found, res.2.columnStore.cell = markAt slice.columnStore.cell found := by
  by_cases hdeleted : ∃ r, slice.columnStore.cell pos = some (r, true)
  · obtain ⟨r, hcell⟩ := hdeleted
    exact fun res hok => absurd ⟨res, hok⟩ (tryDeleteAtPos_error h hcell)
  · refine (tryDeleteAtPos_returns h fun hmem => ?_).ensures.mono fun res hres =>
      ⟨hres.1, hres.2.1, hres.2.2.1, _, hres.2.2.2.2⟩
    obtain ⟨⟨r, deleted⟩, hcell⟩ := Option.ne_none_iff_exists'.mp (hpos hmem)
    cases deleted with
    | true => exact absurd ⟨r, hcell⟩ hdeleted
    | false => exact ⟨r, hcell⟩

omit [BEq Ident] in
theorem Searchable.mark (h : slice.Searchable identity counter) {slice' : MemSlice Row Ident} {counter' : BatchIdCounter}
    (haccounted : slice'.Accounted identity counter') {found : Option (Nat × Nat)}
    (hcell : slice'.columnStore.cell = markAt slice.columnStore.cell found)
    (hsub : slice'.memIndex.entries.Sublist slice.memIndex.entries) : slice'.Searchable identity counter' := by
  refine ⟨haccounted, fun hkey => (h.last hkey |>.sublist hsub).imp fun hpair hhash hidentity => ?_⟩
  obtain ⟨r, hdeleted⟩ := hpair hhash hidentity
  exact ⟨r, hcell ▸ markAt_deleted hdeleted⟩

omit [BEq Ident] in
theorem Accounted.searchable (h : slice.Accounted identity counter) (hempty : slice.memIndex.entries = []) :
    slice.Searchable identity counter := ⟨h, fun _ => hempty ▸ .nil⟩

omit [BEq Ident] in
/-- What an append keeps if no live row has the key. -/
theorem Searchable.append (h : slice.Searchable identity counter) (hunique : identity.kind.isKey = true →
      ∀ loc r, slice.columnStore.cell loc = some (r, false) → identity.columns r ≠ identity.columns row) :
    Ensures (slice.append identity counter row) fun res => res.2.1.Searchable identity res.2.2 := by
  refine h.toAccounted.append.mono ?_
  rintro ⟨newBatch, slice', counter'⟩ ⟨haccounted, -, -, loc, hempty, hcell, hentries⟩
  simp only at haccounted hcell hentries
  refine ⟨haccounted, fun hkey => ?_⟩
  have hnone : identity.kind ≠ .none := by
    intro hnone
    rw [hnone] at hkey
    cases hkey
  have hold : ∀ {loc' c}, slice.columnStore.cell loc' = some c → slice'.columnStore.cell loc' = some c := by
    intro loc' c hc
    have hne : loc' ≠ loc := by
      rintro rfl
      rw [hempty] at hc
      cases hc
    rw [hcell, Function.update_of_ne hne, hc]
  rw [hentries, if_neg hnone]
  refine List.pairwise_append.mpr ⟨(h.last hkey).imp fun hpair hhash hidentity => ?_, List.pairwise_singleton _ _, ?_⟩
  · obtain ⟨r, hdeleted⟩ := hpair hhash hidentity
    exact ⟨r, hold hdeleted⟩
  · -- The entries of the key that are there already are those of deleted rows.
    intro e he e' he' hhash hidentity
    cases List.mem_singleton.mp he'
    obtain ⟨r, deleted, hrow, hrowHash, hrowIdentity⟩ := h.entries e he
    have hcolumns := columns_eq_of_isKey hkey (hrowHash.symm.trans hhash) (hrowIdentity.symm.trans hidentity)
    cases deleted with
    | true => exact ⟨r, hold hrow⟩
    | false => exact absurd hcolumns (hunique hkey e.location r hrow)

end Operations

end MemSlice

/-! ## Runs -/

/-- An operation on a mem slice. A position that is deleted is one that was found before. -/
inductive SliceOp (Row : Type) where
  | append (row : Row)
  | delete (row : Row) (lsn : Nat) (deleteIfExists : Bool)
  | findNonDeletedPosition (row : Row) (lsn : Nat)
  | tryDeleteAtPos (pos : Nat × Nat)
  | drain

/-- A mem slice with the counter of its batch ids and the positions that lookups returned. -/
structure SliceRun (Row Ident : Type) where
  slice : MemSlice Row Ident
  counter : BatchIdCounter
  found : List (Nat × Nat)

namespace SliceRun

open ColumnStoreBuffer

variable (identity : IdentityProp Row Ident)

def next (s : SliceRun Row Ident) : SliceOp Row → Except StoragePanic (SliceRun Row Ident)
  | .append row => do
    let (_, slice, counter) ← s.slice.append identity s.counter row
    return { s with slice, counter }
  | .delete row lsn deleteIfExists => do
    let (_, slice) ← s.slice.delete identity (identity.deletionRecord row lsn deleteIfExists)
    return { s with slice }
  | .findNonDeletedPosition row lsn => do
    let pos ← s.slice.findNonDeletedPosition identity (identity.deletionRecord row lsn false)
    return { s with found := s.found ++ pos.toList }
  | .tryDeleteAtPos pos => do
    let (_, slice) ← s.slice.tryDeleteAtPos pos
    return { s with slice }
  | .drain => do
    let (_, slice, counter) ← s.slice.drain s.counter
    return { s with slice, counter }

/-- Rows with a key are appended while no live row has it, tables without an identity have no deletes, and
positions come from lookups. -/
def Admissible (s : SliceRun Row Ident) : SliceOp Row → Prop
  | .append row => identity.kind.isKey = true →
      ∀ loc r, s.slice.columnStore.cell loc = some (r, false) → identity.columns r ≠ identity.columns row
  | .delete _ _ _ => identity.kind ≠ .none
  | .findNonDeletedPosition _ _ => identity.kind ≠ .none
  | .tryDeleteAtPos pos => pos ∈ s.found
  | .drain => True

/-- The operation finds a live row whenever there is one, and marks the row that it finds and no other. -/
def Correct (s : SliceRun Row Ident) : SliceOp Row → Prop
  | .append row => Ensures (s.slice.append identity s.counter row) fun res =>
    ∃ loc, s.slice.columnStore.cell loc = none ∧
      res.2.1.columnStore.cell = Function.update s.slice.columnStore.cell loc (some (row, false))
  | .delete row lsn deleteIfExists =>
    Returns (s.slice.delete identity (identity.deletionRecord row lsn deleteIfExists)) fun res =>
      MemSlice.FoundBy identity s.slice row res.1 ∧
      res.2.columnStore.cell = MemSlice.markAt s.slice.columnStore.cell res.1
  | .findNonDeletedPosition row lsn =>
    Returns (s.slice.findNonDeletedPosition identity (identity.deletionRecord row lsn false))
      (MemSlice.FoundBy identity s.slice row)
  | .tryDeleteAtPos pos => Returns (s.slice.tryDeleteAtPos pos) fun res =>
    (res.1 = true ↔ pos.1 ∈ s.slice.columnStore.batchIds) ∧
    res.2.columnStore.cell = MemSlice.markAt s.slice.columnStore.cell (if res.1 then some pos else none)
  | .drain => Ensures (s.slice.drain s.counter) fun res => res.2.1.columnStore.cell = fun _ => none

/-- The comparisons of a search tell whether a row has the identity. -/
def Told (s : SliceRun Row Ident) : SliceOp Row → Prop
  | .delete row _ _ => MemSlice.Tells identity s.slice row
  | .findNonDeletedPosition row _ => MemSlice.Tells identity s.slice row
  | _ => True

/-- No search by key meets a stale entry, and a row at a position is not deleted yet. -/
def Fresh (s : SliceRun Row Ident) : SliceOp Row → Prop
  | .delete row _ _ => MemSlice.NoStale identity s.slice row
  | .findNonDeletedPosition row _ => MemSlice.NoStale identity s.slice row
  | .tryDeleteAtPos pos => pos.1 ∈ s.slice.columnStore.batchIds →
      ∃ r, s.slice.columnStore.cell pos = some (r, false)
  | .append _ => True
  | .drain => True

/-- A position that is deleted is one that a lookup returned. -/
def FromLookups (s : SliceRun Row Ident) : SliceOp Row → Prop
  | .tryDeleteAtPos pos => pos ∈ s.found
  | _ => True

instance decidableFromLookups (s : SliceRun Row Ident) : (op : SliceOp Row) → Decidable (s.FromLookups op)
  | .tryDeleteAtPos pos => inferInstanceAs (Decidable (pos ∈ s.found))
  | .append _ | .delete _ _ _ | .findNonDeletedPosition _ _ | .drain => isTrue trivial

structure AccountedInv (identity : IdentityProp Row Ident) (s : SliceRun Row Ident) : Prop where
  accounted : s.slice.Accounted identity s.counter
  /-- The batches of positions that were found still have their rows. -/
  found : ∀ pos ∈ s.found, pos.1 ≤ s.counter.counter ∧
    (pos.1 ∈ s.slice.columnStore.batchIds → s.slice.columnStore.cell pos ≠ none)

structure Inv (identity : IdentityProp Row Ident) (s : SliceRun Row Ident) : Prop extends
    s.AccountedInv identity where
  searchable : s.slice.Searchable identity s.counter

variable {identity : IdentityProp Row Ident} {s : SliceRun Row Ident}

omit [BEq Ident] in
theorem keeps_found (h : ∀ pos ∈ s.found, pos.1 ≤ s.counter.counter ∧
      (pos.1 ∈ s.slice.columnStore.batchIds → s.slice.columnStore.cell pos ≠ none))
    {slice : MemSlice Row Ident} {marked : Option (Nat × Nat)}
    (hids : slice.columnStore.batchIds = s.slice.columnStore.batchIds)
    (hcell : slice.columnStore.cell = MemSlice.markAt s.slice.columnStore.cell marked) :
    ∀ pos ∈ s.found, pos.1 ≤ s.counter.counter ∧
      (pos.1 ∈ slice.columnStore.batchIds → slice.columnStore.cell pos ≠ none) := by
  intro pos hpos
  obtain ⟨hle, hrow⟩ := h pos hpos
  refine ⟨hle, fun hmem => ?_⟩
  obtain ⟨⟨r, deleted⟩, hold⟩ := Option.ne_none_iff_exists'.mp (hrow (hids ▸ hmem))
  obtain ⟨deleted', hmarked⟩ := MemSlice.exists_markAt marked hold
  rw [hcell, hmarked]
  exact nofun

omit [BEq Ident] in
theorem keeps_found_append (h : ∀ pos ∈ s.found, pos.1 ≤ s.counter.counter ∧
      (pos.1 ∈ s.slice.columnStore.batchIds → s.slice.columnStore.cell pos ≠ none))
    {slice : MemSlice Row Ident} {counter : BatchIdCounter} {loc : Nat × Nat} {row : Row}
    (hcounter : s.counter.counter ≤ counter.counter)
    (hids : ∀ id ∈ slice.columnStore.batchIds, id ∈ s.slice.columnStore.batchIds ∨ s.counter.counter < id)
    (hempty : s.slice.columnStore.cell loc = none)
    (hcell : slice.columnStore.cell = Function.update s.slice.columnStore.cell loc (some (row, false))) :
    ∀ pos ∈ s.found, pos.1 ≤ counter.counter ∧
      (pos.1 ∈ slice.columnStore.batchIds → slice.columnStore.cell pos ≠ none) := by
  intro pos hpos
  obtain ⟨hle, hrow⟩ := h pos hpos
  refine ⟨hle.trans hcounter, fun hmem => ?_⟩
  obtain hold | hnew := hids pos.1 hmem
  · have hne : pos ≠ loc := by
      rintro rfl
      exact hrow hold hempty
    rw [hcell, Function.update_of_ne hne]
    exact hrow hold
  · exact absurd hle (Nat.not_le_of_lt hnew)

omit [BEq Ident] in
theorem keeps_found_drain (h : ∀ pos ∈ s.found, pos.1 ≤ s.counter.counter ∧
      (pos.1 ∈ s.slice.columnStore.batchIds → s.slice.columnStore.cell pos ≠ none))
    {slice : MemSlice Row Ident} {counter : BatchIdCounter} (hcounter : s.counter.counter ≤ counter.counter)
    (hids : ∀ id ∈ slice.columnStore.batchIds, s.counter.counter < id ∨
      id ∈ s.slice.columnStore.batchIds ∧ ∀ i, s.slice.columnStore.cell (id, i) = none) :
    ∀ pos ∈ s.found, pos.1 ≤ counter.counter ∧
      (pos.1 ∈ slice.columnStore.batchIds → slice.columnStore.cell pos ≠ none) := by
  intro pos hpos
  obtain ⟨hle, hrow⟩ := h pos hpos
  refine ⟨hle.trans hcounter, fun hmem => ?_⟩
  obtain hnew | ⟨hold, hempty⟩ := hids pos.1 hmem
  · exact absurd hle (Nat.not_le_of_lt hnew)
  · exact absurd (hempty pos.2) (hrow hold)

theorem AccountedInv.next (h : s.AccountedInv identity) (op : SliceOp Row) (hop : s.FromLookups op) :
    Ensures (s.next identity op) (AccountedInv identity) := by
  have haccounted := h.accounted
  cases op with
  | append row =>
    refine haccounted.append.bind ?_
    rintro ⟨newBatch, slice, counter⟩ ⟨hslice, hcounter, hids, loc, hempty, hcell, -⟩
    exact .pure ⟨hslice, keeps_found_append h.found hcounter hids hempty hcell⟩
  | delete row lsn deleteIfExists =>
    refine haccounted.delete.bind ?_
    rintro ⟨found, slice⟩ ⟨hslice, hids, hcell, -⟩
    exact .pure ⟨hslice, keeps_found h.found hids hcell⟩
  | findNonDeletedPosition row lsn =>
    refine (MemSlice.findNonDeletedPosition_live haccounted.candidates_cell).bind fun found hlive => ?_
    refine .pure ⟨haccounted, fun pos hpos => ?_⟩
    rcases List.mem_append.mp hpos with hold | hnew
    · exact h.found pos hold
    · obtain ⟨r, hcell⟩ := hlive pos (Option.mem_toList.mp hnew)
      obtain ⟨entry, hentry, hid, -⟩ := (cell_eq_some_iff haccounted.wellFormed.ordered).mp hcell
      exact ⟨hid ▸ haccounted.wellFormed.ordered.counter entry hentry, fun _ => by simp [hcell]⟩
  | tryDeleteAtPos pos =>
    refine (haccounted.tryDeleteAtPos (h.found pos hop).2).bind ?_
    rintro ⟨deleted, slice⟩ ⟨hslice, hids, -, found, hcell⟩
    exact .pure ⟨hslice, keeps_found h.found hids hcell⟩
  | drain =>
    refine haccounted.drain.bind ?_
    rintro ⟨drained, slice, counter⟩ ⟨hslice, -, hcounter, -, hids⟩
    exact .pure ⟨hslice, keeps_found_drain h.found hcounter hids⟩

/-- Where the comparisons tell whether a row has the identity, the condition is exact. -/
theorem correct_iff (h : s.Inv identity) (op : SliceOp Row) (hop : s.Admissible identity op)
    (htold : s.Told identity op) : s.Correct identity op ↔ s.Fresh identity op := by
  have hsearch := h.searchable
  cases op with
  | append row =>
    refine iff_of_true (h.accounted.append.mono ?_) trivial
    rintro res ⟨-, -, -, loc, hempty, hcell, -⟩
    exact ⟨loc, hempty, hcell⟩
  | delete row lsn deleteIfExists =>
    refine Iff.trans ?_ (hsearch.found_iff htold hop)
    obtain ⟨res, hok, hfound⟩ := MemSlice.delete_finds hsearch.wellFormed hsearch.candidates_cell
      (hsearch.candidates_answer htold)
    obtain ⟨-, -, -, hcell⟩ := MemSlice.delete_marks hsearch.wellFormed hsearch.candidates_cell res hok
    rw [← hfound]
    constructor
    · rintro ⟨res', hok', hres', -⟩
      rw [hok] at hok'
      cases hok'
      exact hres'
    · exact fun hres => ⟨res, hok, hres, hcell⟩
  | findNonDeletedPosition row lsn =>
    refine Iff.trans ?_ (hsearch.found_iff htold hop)
    dsimp only [Correct]
    rw [MemSlice.findNonDeletedPosition_eq hsearch.candidates_cell (hsearch.candidates_answer htold), Returns.ok_iff]
  | tryDeleteAtPos pos =>
    constructor
    · rintro ⟨res, hok, -⟩ hmem
      obtain ⟨⟨r, deleted⟩, hcell⟩ := Option.ne_none_iff_exists'.mp ((h.found pos hop).2 hmem)
      cases deleted with
      | false => exact ⟨r, hcell⟩
      | true => exact absurd ⟨res, hok⟩ (MemSlice.tryDeleteAtPos_error h.accounted hcell)
    · exact fun hlive => (MemSlice.tryDeleteAtPos_returns h.accounted hlive).mono fun _ hres => hres.2.2.2
  | drain => exact iff_of_true (h.accounted.drain.mono fun _ hres => hres.2.2.2.1) trivial

omit [BEq Ident] in
theorem Admissible.fromLookups {op : SliceOp Row} (h : s.Admissible identity op) : s.FromLookups op := by
  cases op with
  | tryDeleteAtPos pos => exact h
  | _ => exact trivial

theorem Inv.next (h : s.Inv identity) (op : SliceOp Row) (hop : s.Admissible identity op) :
    Ensures (s.next identity op) (Inv identity) := by
  have hsearchable : Ensures (s.next identity op) fun s' => s'.slice.Searchable identity s'.counter := by
    have hsearch := h.searchable
    cases op with
    | append row => exact (hsearch.append hop).bind fun _ hslice => .pure hslice
    | delete row lsn deleteIfExists =>
      refine h.accounted.delete.bind ?_
      rintro ⟨found, slice⟩ ⟨hslice, -, hcell, hsub⟩
      exact .pure (hsearch.mark hslice hcell hsub)
    | findNonDeletedPosition row lsn => exact Ensures.bind_any fun _ => .pure hsearch
    | tryDeleteAtPos pos =>
      refine (h.accounted.tryDeleteAtPos (h.found pos hop).2).bind ?_
      rintro ⟨deleted, slice⟩ ⟨hslice, -, hindex, found, hcell⟩
      exact .pure (hsearch.mark hslice hcell (by rw [hindex]))
    | drain => exact h.accounted.drain.bind fun _ hres => .pure (hres.1.searchable hres.2.1)
  exact ((h.toAccountedInv.next op hop.fromLookups).and hsearchable).mono fun _ hs' => ⟨hs'.1, hs'.2⟩

/-- The operations of a run are correct as long as the comparisons of searches tell whether a row has the identity, no
search by key meets a stale entry and no row is deleted at a position twice. -/
theorem correct_of_told_fresh {maxRowsPerBuffer : Nat} (hmax : 0 < maxRowsPerBuffer) {counter : BatchIdCounter}
    {slice : MemSlice Row Ident} {counter' : BatchIdCounter}
    (hnew : MemSlice.new identity maxRowsPerBuffer counter = .ok (slice, counter')) {ops : List (SliceOp Row)}
    (hops : RunMeets (fun s op => (next identity s op).toOption) (Admissible identity) ⟨slice, counter', []⟩ ops)
    (hcondition : RunMeets (fun s op => (next identity s op).toOption)
      (fun s op => s.Told identity op ∧ s.Fresh identity op) ⟨slice, counter', []⟩ ops) :
    RunMeets (fun s op => (next identity s op).toOption) (Correct identity) ⟨slice, counter', []⟩ ops := by
  obtain ⟨haccounted, hempty⟩ := MemSlice.Accounted.new hmax counter _ hnew
  have hinit : Inv identity ⟨slice, counter', []⟩ :=
    ⟨⟨haccounted, fun pos hpos => by cases hpos⟩, haccounted.searchable hempty⟩
  have hiff : RunMeets (fun s op => (next identity s op).toOption)
      (fun s op => s.Told identity op ∧ s.Correct identity op) ⟨slice, counter', []⟩ ops ↔ _ :=
    RunMeets.congr (fun s op h hop => and_congr_right fun htold => correct_iff h op hop htold)
      (fun s op h hop _ => h.next op hop) hops hinit
  exact (hiff.mpr hcondition).mono fun _ _ h => h.2

/-- Rows that are their own primitive keys. -/
def numberKeys : IdentityProp Nat Nat where
  kind := .singlePrimitiveKey
  columns := id
  lookupKey := id
  lookupKey_eq _ _ h := h
  columns_eq _ _ _ h := h
  equalsMoonlinkRow i r := i == r
  equalsRecordBatchAtOffset i r := some (i == r)
  equalsParquetAtOffset i r := some (i == r)

def emptyRun : SliceRun Nat Nat := ⟨⟨⟨4, [], ⟨1, .new 4⟩, []⟩, .new .singlePrimitiveKey⟩, ⟨1, true⟩, []⟩

theorem new_emptyRun : MemSlice.new numberKeys 4 (.new true) = .ok (emptyRun.slice, emptyRun.counter) := rfl

theorem emptyRun_cell : emptyRun.slice.columnStore.cell = fun _ => none :=
  (new_wellFormed (Nat.succ_pos 3) (.new true) (emptyRun.slice.columnStore, emptyRun.counter) rfl).2

theorem correct_of_told_fresh_append :
    RunMeets (fun s op => (next numberKeys s op).toOption) (Correct numberKeys) emptyRun [.append 7, .delete 7 3 false] := by
  refine correct_of_told_fresh (by decide) new_emptyRun ⟨fun _ loc r hcell => ?_, fun _ _ => ⟨?_, fun _ _ => trivial⟩⟩
    ⟨⟨trivial, trivial⟩, ?_⟩
  · rw [emptyRun_cell] at hcell
    cases hcell
  · exact nofun
  · rintro _ ⟨⟩
    refine ⟨⟨⟨nofun, nofun⟩, fun _ _ e he r hcell => ?_⟩, fun _ _ => trivial⟩
    cases List.mem_singleton.mp he
    have hdeleted : _ = some true := congrArg (Option.map Prod.snd) hcell
    exact absurd hdeleted (by decide +kernel)

/-- A row is appended, found, deleted at its position and appended again, and then deleted. -/
def reappended : List (SliceOp Nat) :=
  [.append 7, .findNonDeletedPosition 7 3, .tryDeleteAtPos (1, 0), .append 7, .delete 7 5 false]

/-- The delete does not find the row. -/
theorem reappended_not_found :
    RunMeets (fun s op => (next numberKeys s op).toOption) (Admissible numberKeys) emptyRun reappended ∧
      ¬ RunMeets (fun s op => (next numberKeys s op).toOption) (Correct numberKeys) emptyRun reappended := by
  constructor
  · refine ⟨fun _ loc r hcell => ?_, ?_⟩
    · rw [emptyRun_cell] at hcell
      cases hcell
    rintro _ ⟨⟩
    refine ⟨nofun, ?_⟩
    rintro _ ⟨⟩
    refine ⟨List.mem_cons_self, ?_⟩
    rintro _ ⟨⟩
    refine ⟨fun _ loc r hcell => ?_, ?_⟩
    · -- The only row is deleted.
      obtain ⟨batchId, i⟩ := loc
      obtain ⟨entry, hfind, hcell⟩ := Option.bind_eq_some_iff.mp hcell
      cases List.mem_singleton.mp (List.mem_of_find?_eq_some hfind)
      obtain ⟨r', hrow, heq⟩ := Option.map_eq_some_iff.mp hcell
      cases i with
      | zero =>
        have hdeleted := congrArg Prod.snd heq
        dsimp only at hdeleted
        exact absurd hdeleted (by decide +kernel)
      | succ i => cases hrow
    rintro _ ⟨⟩
    refine ⟨nofun, ?_⟩
    exact fun _ _ => trivial
  · rintro ⟨-, h⟩
    obtain ⟨-, h⟩ := h _ rfl
    obtain ⟨-, h⟩ := h _ rfl
    obtain ⟨-, h⟩ := h _ rfl
    obtain ⟨⟨res, hok, hfound, -⟩, -⟩ := h _ rfl
    cases hok
    exact hfound (1, 1) 7 rfl rfl

end SliceRun
end Moonlink.Storage
