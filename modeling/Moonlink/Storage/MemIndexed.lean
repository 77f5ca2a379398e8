-- SUMMARY: Every active row of a mem slice has an entry in its index, so the files of a flush are always indexed.
import Moonlink.Storage.DiskSlice

namespace Moonlink.Storage

open Lib

variable {Row Ident : Type}

/-- Rows that are deleted stay deleted. -/
theorem BatchDeletionVector.isDeleted_deleteActiveRow (v : BatchDeletionVector) (rowIdx : Nat) :
    Ensures (v.deleteActiveRow rowIdx) fun v' =>
      v'.isDeleted rowIdx = true ∧ ∀ r, v.isDeleted r = true → v'.isDeleted r = true := by
  intro v' h
  obtain ⟨⟨wasActive, v₁⟩, hdelete, h⟩ := bind_eq_ok.mp h
  obtain ⟨_, -, hdelete⟩ := bind_eq_ok.mp hdelete
  obtain ⟨_, -, h⟩ := bind_eq_ok.mp h
  cases h
  cases hdelete
  refine ⟨by simp [BatchDeletionVector.isDeleted, BitBuffer.getBit_unsetBit], fun r hr => ?_⟩
  cases hbits : v.deletionVector with
  | none => simp [BatchDeletionVector.isDeleted, hbits] at hr
  | some bits =>
    have hbit : v.bits.getBit r = false := by
      simpa [BatchDeletionVector.isDeleted, BatchDeletionVector.bits, hbits] using hr
    simp [BatchDeletionVector.isDeleted, BitBuffer.getBit_unsetBit, hbit]

/-! ## The column store -/

namespace ColumnStoreBuffer

/-- A row in memory that is not deleted. -/
def Active (store : ColumnStoreBuffer Row) (loc : Nat × Nat) : Prop :=
  ∃ entry ∈ store.inMemoryBatches, entry.id = loc.1 ∧ loc.2 < (store.rowsOf entry).length ∧
    entry.batch.deletions.isDeleted loc.2 = false

/-- Batches have different ids, the last of them from the counter, and all but the last
are closed. -/
structure Ordered (counter : BatchIdCounter) (store : ColumnStoreBuffer Row) : Prop where
  ids : (store.inMemoryBatches.map (·.id)).Nodup
  counter : ∀ entry ∈ store.inMemoryBatches, entry.id ≤ counter.counter
  closed : ∀ entry ∈ store.closedBatches, entry.batch.data.isSome
  isOpen : store.openBatch.batch.data = none

variable {store : ColumnStoreBuffer Row}

theorem Ordered.mono {counter counter' : BatchIdCounter}
    (h : store.Ordered counter) (hle : counter.counter ≤ counter'.counter) :
    store.Ordered counter' :=
  { h with counter := fun entry hentry => (h.counter entry hentry).trans hle }

theorem getAndNext_ensures (c : BatchIdCounter) :
    Ensures c.getAndNext fun res => res.2.counter = res.1 + 1 ∧ res.1 = c.counter :=
  .bind_any fun _ => .pure ⟨rfl, rfl⟩

theorem new_ensures (maxRowsPerBuffer : Nat) (counter : BatchIdCounter) :
    Ensures (new maxRowsPerBuffer counter : Except _ (ColumnStoreBuffer Row × _)) fun res =>
      res.1.Ordered res.2 ∧ counter.counter ≤ res.2.counter ∧ ∀ loc, ¬ res.1.Active loc := by
  refine .bind (getAndNext_ensures counter) ?_
  rintro ⟨current, counter'⟩ ⟨hnext, hcurrent⟩
  simp only at hnext hcurrent
  refine .pure ⟨⟨by simp [inMemoryBatches], ?_, by simp, rfl⟩, by simp; omega, ?_⟩
  · intro entry hentry
    cases List.mem_singleton.mp hentry
    simp only
    omega
  · rintro loc ⟨entry, hentry, -, hlt, -⟩
    cases List.mem_singleton.mp hentry
    exact absurd hlt (Nat.not_lt_zero _)

/-- The store after its open batch may have been closed: the same rows are active. -/
structure Closes (counter : BatchIdCounter) (store : ColumnStoreBuffer Row)
    (res : Option (Nat × List Row) × ColumnStoreBuffer Row × BatchIdCounter) : Prop where
  ordered : res.2.1.Ordered res.2.2
  counter : counter.counter ≤ res.2.2.counter
  active : ∀ loc, res.2.1.Active loc → store.Active loc

variable {counter : BatchIdCounter}

theorem Closes.refl (h : store.Ordered counter) : Closes counter store (none, store, counter) :=
  ⟨h, le_rfl, fun _ hloc => hloc⟩

theorem finalizeCurrentBatch_ensures (h : store.Ordered counter) :
    Ensures (store.finalizeCurrentBatch counter) fun res => Closes counter store res ∧
      res.2.1.currentRows = [] := by
  unfold finalizeCurrentBatch
  split
  · rename_i hempty
    exact .ok ⟨.refl h, List.isEmpty_iff.mp hempty⟩
  · refine .bind (getAndNext_ensures counter) ?_
    rintro ⟨current, counter'⟩ ⟨hnext, hcurrent⟩
    simp only at hnext hcurrent
    have hids := h.ids
    rw [inMemoryBatches, List.map_append, List.map_singleton] at hids
    refine .pure ⟨⟨⟨?_, ?_, ?_, rfl⟩, ?_, ?_⟩, rfl⟩
    · have hfresh : current + 1 ∉ store.closedBatches.map (·.id) ++ [store.openBatch.id] := by
        intro hmem
        rw [← List.map_singleton (f := fun e : BatchEntry Row => e.id), ← List.map_append] at hmem
        obtain ⟨entry, hentry, heq⟩ := List.mem_map.mp hmem
        have hle := h.counter entry hentry
        omega
      simpa [inMemoryBatches] using hids.concat hfresh
    · intro entry hentry
      rw [inMemoryBatches, List.append_assoc] at hentry
      rcases List.mem_append.mp hentry with hclosed | hentry
      · have hle := h.counter entry (List.mem_append_left _ hclosed)
        simp only
        omega
      · have hopen := h.counter store.openBatch (List.mem_append_right _ List.mem_cons_self)
        simp only [List.singleton_append, List.mem_cons, List.not_mem_nil, or_false] at hentry
        rcases hentry with rfl | rfl
        · simp only
          omega
        · simp only
          omega
    · intro entry hentry
      rcases List.mem_append.mp hentry with hclosed | hnew
      · exact h.closed entry hclosed
      · cases List.mem_singleton.mp hnew
        rfl
    · simp only
      omega
    · -- The closed batch has the rows that the open one had.
      rintro loc ⟨entry, hentry, hid, hlt, hactive⟩
      rw [inMemoryBatches] at hentry
      rcases List.mem_append.mp hentry with hclosed | hopen
      · rcases List.mem_append.mp hclosed with hclosed | hnew
        · refine ⟨entry, List.mem_append_left _ hclosed, hid, ?_, hactive⟩
          obtain ⟨rows, hrows⟩ := Option.isSome_iff_exists.mp (h.closed entry hclosed)
          simpa [rowsOf, hrows] using hlt
        · cases List.mem_singleton.mp hnew
          refine ⟨store.openBatch, List.mem_append_right _ List.mem_cons_self, hid, ?_, hactive⟩
          simpa [rowsOf, h.isOpen] using hlt
      · cases List.mem_singleton.mp hopen
        exact absurd hlt (Nat.not_lt_zero _)

theorem closeIfFull_ensures
    (h : store.Ordered counter) : Ensures (store.closeIfFull counter) (Closes counter store) := by
  unfold closeIfFull
  split
  · exact (finalizeCurrentBatch_ensures h).mono fun _ hres => hres.1
  · exact .ok (.refl h)

/-- The only row that becomes active is the new one. -/
theorem appendRow_ensures (h : store.Ordered counter) (row : Row) :
    Ensures (store.appendRow counter row) fun res => res.2.2.1.Ordered res.2.2.2 ∧
      counter.counter ≤ res.2.2.2.counter ∧
      ∀ loc, res.2.2.1.Active loc → store.Active loc ∨ loc = res.1 := by
  refine .bind (closeIfFull_ensures h) ?_
  rintro ⟨newBatch, store', counter'⟩ ⟨hordered, hcounter, hactive⟩
  refine .pure ⟨⟨hordered.ids, hordered.counter, hordered.closed, hordered.isOpen⟩, hcounter, ?_⟩
  rintro loc ⟨entry, hentry, hid, hlt, hdel⟩
  rcases List.mem_append.mp hentry with hclosed | hopen
  · obtain ⟨rows, hrows⟩ := Option.isSome_iff_exists.mp (hordered.closed entry hclosed)
    refine .inl (hactive loc ⟨entry, List.mem_append_left _ hclosed, hid, ?_, hdel⟩)
    simpa [rowsOf, hrows] using hlt
  · cases List.mem_singleton.mp hopen
    have hopen := hordered.isOpen
    simp only at hid hopen hlt
    simp only [rowsOf, hopen, Option.getD_none, List.length_append, List.length_singleton] at hlt
    by_cases hlast : loc.2 = store'.currentRows.length
    · refine .inr (Prod.ext hid.symm ?_)
      simpa using hlast
    · refine .inl (hactive loc ⟨store'.openBatch, List.mem_append_right _ List.mem_cons_self, hid, ?_,
        hdel⟩)
      simp only [rowsOf, hopen, Option.getD_none]
      omega

/-! ### Deletes -/

/-- The entry with a row marked, if it is the one of the row. -/
structure EntryDeleted (loc : Nat × Nat) (entry entry' : BatchEntry Row) : Prop where
  id : entry'.id = entry.id
  data : entry'.batch.data = entry.batch.data
  deleted : entry.id = loc.1 → entry'.batch.deletions.isDeleted loc.2 = true
  kept : ∀ r, entry.batch.deletions.isDeleted r = true → entry'.batch.deletions.isDeleted r = true

theorem deleteInEntry_ensures (entry : BatchEntry Row) (loc : Nat × Nat) :
    Ensures (if entry.id = loc.1 then deleteInEntry entry loc.2 else .ok entry)
      (EntryDeleted loc entry) := by
  split
  · refine .bind (BatchDeletionVector.isDeleted_deleteActiveRow _ _) fun deletions hdel => ?_
    exact .pure ⟨rfl, rfl, fun _ => hdel.1, hdel.2⟩
  · rename_i hne
    exact .ok ⟨rfl, rfl, fun heq => absurd heq hne, fun _ hr => hr⟩

/-- The batches of the store are the same, up to deletions. -/
theorem Ordered.of_forall₂ {store store' : ColumnStoreBuffer Row}
    {loc : Nat × Nat} (h : store.Ordered counter)
    (hclosed : List.Forall₂ (EntryDeleted loc) store.closedBatches store'.closedBatches)
    (hopen : EntryDeleted loc store.openBatch store'.openBatch) : store'.Ordered counter := by
  have hall : List.Forall₂ (EntryDeleted loc) store.inMemoryBatches store'.inMemoryBatches :=
    List.rel_append hclosed (.cons hopen .nil)
  have hids : store'.inMemoryBatches.map (·.id) = store.inMemoryBatches.map (·.id) := by
    rw [eq_comm, ← List.forall₂_eq_eq_eq, List.forall₂_map_left_iff, List.forall₂_map_right_iff]
    exact hall.imp fun _ _ hentry => hentry.id.symm
  refine ⟨hids ▸ h.ids, ?_, ?_, hopen.data.trans h.isOpen⟩
  · intro entry' hentry'
    obtain ⟨entry, hentry, hdeleted⟩ := exists_of_mem_right hall hentry'
    exact hdeleted.id ▸ h.counter entry hentry
  · intro entry' hentry'
    obtain ⟨entry, hentry, hdeleted⟩ := exists_of_mem_right hclosed hentry'
    exact hdeleted.data ▸ h.closed entry hentry

/-- No row becomes active, and the row is not. -/
theorem deleteAt_ensures (h : store.Ordered counter) (loc : Nat × Nat) :
    Ensures (store.deleteAt loc) fun store' => store'.Ordered counter ∧
      ∀ loc', store'.Active loc' → store.Active loc' ∧ loc' ≠ loc := by
  refine .bind (.mapM fun entry _ => deleteInEntry_ensures entry loc) fun closed hclosed => ?_
  have hopen := deleteInEntry_ensures store.openBatch loc
  suffices hall : ∀ openBatch, EntryDeleted loc store.openBatch openBatch →
      ({ store with closedBatches := closed, openBatch } : ColumnStoreBuffer Row).Ordered counter ∧
        ∀ loc', ({ store with closedBatches := closed, openBatch } : ColumnStoreBuffer Row).Active loc' →
          store.Active loc' ∧ loc' ≠ loc by
    by_cases hid : store.openBatch.id = loc.1
    · rw [if_pos hid] at hopen ⊢
      exact .bind hopen fun openBatch hdeleted => .pure (hall openBatch hdeleted)
    · rw [if_neg hid] at hopen ⊢
      exact .bind hopen fun openBatch hdeleted => .pure (hall openBatch hdeleted)
  intro openBatch hopen
  refine ⟨h.of_forall₂ hclosed hopen, ?_⟩
  rintro loc' ⟨entry', hentry', hid, hlt, hactive⟩
  have hall : List.Forall₂ (EntryDeleted loc) store.inMemoryBatches (closed ++ [openBatch]) :=
    List.rel_append hclosed (.cons hopen .nil)
  obtain ⟨entry, hentry, hdeleted⟩ := exists_of_mem_right hall hentry'
  refine ⟨⟨entry, hentry, hdeleted.id ▸ hid, ?_, ?_⟩, ?_⟩
  · rw [rowsOf, hdeleted.data] at hlt
    exact hlt
  · by_contra hdel
    rw [hdeleted.kept _ (by simpa using hdel)] at hactive
    cases hactive
  · rintro rfl
    rw [hdeleted.deleted (hdeleted.id ▸ hid)] at hactive
    cases hactive

/-- Except for full rows, where another row is at the place, the row is not active
afterwards. -/
theorem deleteRowByRecord_ensures
    (h : store.Ordered counter) (identity : IdentityProp Row Ident)
    (record : RawDeletionRecord Ident) (loc : Nat × Nat) :
    Ensures (store.deleteRowByRecord identity record loc) fun res => res.2.Ordered counter ∧
      ∀ loc', res.2.Active loc' → store.Active loc' ∧ (identity.kind ≠ .fullRow → loc' ≠ loc) := by
  refine .bind (P := fun found => found = some loc ∨ found = none ∧
    (identity.kind ≠ .fullRow → ¬ store.Active loc)) ?_ ?_
  · unfold findValidRowByRecord
    cases hfind : store.findBatch loc.1 with
    | none => exact .error
    | some entry =>
      simp only
      have hcheck (hkind : identity.kind ≠ .fullRow) : store.checkIdentity identity record entry loc.2 = .ok true :=
        if_neg (by simp [IdentityProp.requiresIdentityCheckInMemSlice, hkind])
      split
      · rename_i hskipped
        refine .ok (.inr ⟨rfl, fun _ => ?_⟩)
        rintro ⟨entry', hentry', hid, -, hactive⟩
        -- The batch with this id is the one that was found.
        have hmem : entry ∈ store.inMemoryBatches := List.mem_of_find?_eq_some hfind
        have hentry : entry.id = loc.1 := by simpa using List.find?_some hfind
        cases List.inj_on_of_nodup_map h.ids hentry' hmem (hid.trans hentry.symm)
        simp [hactive] at hskipped
      · by_cases hkind : identity.kind = .fullRow
        · refine .bind_any fun equal => ?_
          split
          · exact .pure (.inl rfl)
          · exact .pure (.inr ⟨rfl, fun hne => absurd hkind hne⟩)
        · rw [hcheck hkind, ok_bind]
          exact .pure (.inl rfl)
  · rintro found (rfl | ⟨rfl, hgone⟩)
    · refine .bind (deleteAt_ensures h loc) fun store' hstore' => .pure ⟨hstore'.1, fun loc' hloc' => ?_⟩
      exact ⟨(hstore'.2 loc' hloc').1, fun _ => (hstore'.2 loc' hloc').2⟩
    · refine .pure ⟨h, fun loc' hloc' => ⟨hloc', fun hkind => ?_⟩⟩
      rintro rfl
      exact hgone hkind hloc'

theorem tryDeleteAtPos_ensures (h : store.Ordered counter) (pos : Nat × Nat) :
    Ensures (store.tryDeleteAtPos pos) fun res => res.2.Ordered counter ∧
      ∀ loc, res.2.Active loc → store.Active loc := by
  unfold tryDeleteAtPos
  split
  · exact .ok ⟨h, fun _ hloc => hloc⟩
  · exact .bind (deleteAt_ensures h pos) fun store' hstore' =>
      .pure ⟨hstore'.1, fun loc hloc => (hstore'.2 loc hloc).1⟩

end ColumnStoreBuffer

/-! ## The mem slice -/

theorem MemIndex.mem_fastDelete [BEq Ident] {index : MemIndex Ident}
    (record : RawDeletionRecord Ident) {loc : Nat × Nat} (h : loc ∈ index.entries.map (·.location)) :
    (index.fastDelete record).1 = some loc ∨
      loc ∈ (index.fastDelete record).2.entries.map (·.location) := by
  obtain ⟨e, he, rfl⟩ := List.mem_map.mp h
  unfold fastDelete
  cases hfind : index.entries.find? (index.isFor record) with
  | none =>
    refine .inr ?_
    rw [List.find?_eq_none] at hfind
    simp only
    rw [List.eraseP_of_forall_not hfind]
    exact List.mem_map_of_mem he
  | some e' =>
    obtain ⟨hfor, l₁, l₂, heq, hnot⟩ := List.find?_eq_some_iff_append.mp hfind
    have herase : index.entries.eraseP (index.isFor record) = l₁ ++ l₂ := by
      rw [heq, List.eraseP_append_right _ (by simpa using hnot), List.eraseP_cons_of_pos hfor]
    simp only
    rw [herase]
    rw [heq, List.mem_append, List.mem_cons] at he
    rcases he with he | rfl | he
    · exact .inr (List.mem_map_of_mem (List.mem_append_left _ he))
    · exact .inl rfl
    · exact .inr (List.mem_map_of_mem (List.mem_append_right _ he))

namespace MemSlice

/-- Every active row has an entry in the index. -/
structure Indexed (identity : IdentityProp Row Ident) (counter : BatchIdCounter)
    (slice : MemSlice Row Ident) : Prop where
  kind : slice.memIndex.kind = identity.kind
  ordered : slice.columnStore.Ordered counter
  indexed : ∀ loc, slice.columnStore.Active loc → loc ∈ slice.memIndex.entries.map (·.location)

variable {identity : IdentityProp Row Ident} {counter : BatchIdCounter} {slice : MemSlice Row Ident}

theorem Indexed.mono {counter' : BatchIdCounter} (h : slice.Indexed identity counter)
    (hle : counter.counter ≤ counter'.counter) : slice.Indexed identity counter' :=
  { h with ordered := h.ordered.mono hle }

theorem new_ensures (identity : IdentityProp Row Ident) (maxRowsPerBuffer : Nat)
    (counter : BatchIdCounter) :
    Ensures (MemSlice.new identity maxRowsPerBuffer counter) fun res =>
      res.1.Indexed identity res.2 ∧ counter.counter ≤ res.2.counter := by
  refine .bind (ColumnStoreBuffer.new_ensures maxRowsPerBuffer counter) ?_
  rintro ⟨store, counter'⟩ ⟨hordered, hcounter, hnone⟩
  exact .pure ⟨⟨rfl, hordered, fun loc hloc => absurd hloc (hnone loc)⟩, hcounter⟩

theorem Indexed.append (h : slice.Indexed identity counter) (hkind : identity.kind ≠ .none) (row : Row) :
    Ensures (slice.append identity counter row) fun res => res.2.1.Indexed identity res.2.2 ∧
      counter.counter ≤ res.2.2.counter := by
  refine .bind (ColumnStoreBuffer.appendRow_ensures h.ordered row) ?_
  rintro ⟨loc, newBatch, store, counter'⟩ ⟨hordered, hcounter, hactive⟩
  have hinsert : ∀ key i, slice.memIndex.insert key i loc =
      { slice.memIndex with entries := slice.memIndex.entries ++ [⟨key, i, loc⟩] } := by
    intro key i
    rw [MemIndex.insert, if_neg (h.kind ▸ hkind)]
  refine .pure ⟨⟨?_, hordered, fun loc' hloc' => ?_⟩, hcounter⟩
  · simp only [hinsert]
    exact h.kind
  · simp only [hinsert, List.map_append, List.map_singleton]
    rcases hactive loc' hloc' with hold | rfl
    · exact List.mem_append_left _ (h.indexed loc' hold)
    · exact List.mem_append_right _ List.mem_cons_self

theorem Indexed.tryDeleteAtPos (h : slice.Indexed identity counter) (pos : Nat × Nat) :
    Ensures (slice.tryDeleteAtPos pos) fun res => res.2.Indexed identity counter := by
  refine .bind (ColumnStoreBuffer.tryDeleteAtPos_ensures h.ordered pos) ?_
  rintro ⟨found, store⟩ ⟨hordered, hactive⟩
  exact .pure ⟨h.kind, hordered, fun loc hloc => h.indexed loc (hactive loc hloc)⟩

/-- The index that is drained has an entry if a drained batch has an active row. -/
theorem Indexed.drain (h : slice.Indexed identity counter) :
    Ensures (slice.drain counter) fun res => res.2.1.Indexed identity res.2.2 ∧
      counter.counter ≤ res.2.2.counter ∧
      (res.1.2.1.filterMap DiskSliceWriter.filteredBatch ≠ [] → res.1.2.2.isEmpty = false) := by
  refine .bind (ColumnStoreBuffer.finalizeCurrentBatch_ensures h.ordered) ?_
  rintro ⟨batch, store, counter'⟩ ⟨⟨hordered, hcounter, hactive⟩, hrows⟩
  simp only at hordered hcounter hactive hrows
  refine .pure ⟨⟨h.kind, ⟨?_, ?_, ?_, hordered.isOpen⟩, ?_⟩, hcounter, ?_⟩
  · simp [ColumnStoreBuffer.inMemoryBatches]
  · intro entry hentry
    exact hordered.counter entry (List.mem_append_right _ hentry)
  · exact nofun
  · rintro loc ⟨entry, hentry, -, hlt, -⟩
    cases List.mem_singleton.mp hentry
    simp [ColumnStoreBuffer.rowsOf, hordered.isOpen, hrows] at hlt
  · intro hfiltered
    obtain ⟨filtered, hmem⟩ := List.exists_mem_of_ne_nil _ hfiltered
    obtain ⟨entry, hentry, hfilter⟩ := List.mem_filterMap.mp hmem
    obtain ⟨rows, hdata⟩ := Option.isSome_iff_exists.mp (hordered.closed entry hentry)
    -- One of the rows is active, so it has an entry.
    obtain ⟨i, hlt, hdel⟩ : ∃ i, i < rows.length ∧ entry.batch.deletions.isDeleted i = false := by
      by_contra hall
      simp only [not_exists, not_and, Bool.not_eq_false] at hall
      have hnone : (rows.zipIdx).filter (fun row => !entry.batch.deletions.isDeleted row.2) = [] := by
        rw [List.filter_eq_nil_iff]
        rintro ⟨row, i⟩ hrow
        simp [hall i (List.snd_lt_of_mem_zipIdx hrow)]
      simp [DiskSliceWriter.filteredBatch, hdata, hnone] at hfilter
    have hloc := h.indexed (entry.id, i) (hactive _
      ⟨entry, List.mem_append_left _ hentry, rfl, by simpa [ColumnStoreBuffer.rowsOf, hdata] using hlt,
        hdel⟩)
    obtain ⟨e, he, -⟩ := List.mem_map.mp hloc
    simpa [MemIndex.isEmpty] using List.ne_nil_of_mem he

theorem deleteFirst_ensures {store : ColumnStoreBuffer Row} (h : store.Ordered counter)
    (identity : IdentityProp Row Ident) (record : RawDeletionRecord Ident) (locs : List (Nat × Nat)) :
    Ensures (deleteFirst identity record store locs) fun res => res.2.Ordered counter ∧
      ∀ loc, res.2.Active loc → store.Active loc ∧
        (identity.kind ≠ .fullRow → locs.head? ≠ some loc) := by
  induction locs generalizing store with
  | nil => exact .ok ⟨h, fun loc hloc => ⟨hloc, nofun⟩⟩
  | cons loc rest ih =>
    refine .bind (ColumnStoreBuffer.deleteRowByRecord_ensures h identity record loc) ?_
    rintro ⟨found, store'⟩ ⟨hordered, hactive⟩
    have hhead : ∀ loc', store'.Active loc' → store.Active loc' ∧
        (identity.kind ≠ .fullRow → (loc :: rest).head? ≠ some loc') := by
      intro loc' hloc'
      refine ⟨(hactive loc' hloc').1, fun hkind heq => (hactive loc' hloc').2 hkind ?_⟩
      simpa [eq_comm] using heq
    cases found with
    | some loc' => exact .pure ⟨hordered, hhead⟩
    | none =>
      refine (ih hordered).mono fun res hres => ⟨hres.1, fun loc' hloc' => ?_⟩
      exact hhead loc' (hres.2 loc' hloc').1

variable [DecidableEq Ident]

theorem Indexed.delete (h : slice.Indexed identity counter) (record : RawDeletionRecord Ident) :
    Ensures (slice.delete identity record) fun res => res.2.Indexed identity counter := by
  unfold MemSlice.delete
  split
  · refine .bind (deleteFirst_ensures h.ordered identity record _) ?_
    rintro ⟨pos, store⟩ ⟨hordered, hactive⟩
    exact .pure ⟨h.kind, hordered, fun loc hloc => h.indexed loc (hactive loc hloc).1⟩
  · rename_i hkind
    refine .bind (deleteFirst_ensures h.ordered identity record _) ?_
    rintro ⟨pos, store⟩ ⟨hordered, hactive⟩
    refine .pure ⟨h.kind, hordered, fun loc hloc => ?_⟩
    obtain ⟨hold, hne⟩ := hactive loc hloc
    refine (MemIndex.mem_fastDelete record (h.indexed loc hold)).resolve_left fun hfound => ?_
    refine hne (h.kind ▸ by simpa [MemIndex.allowDuplicate] using hkind) ?_
    simp only [MemIndex.fastDelete] at hfound
    rw [hfound]
    rfl

end MemSlice

/-! ## Disk slices -/

/-- Each of the files is in one of the indices, and none of the indices is empty. -/
structure FilesIndexed (indices : List FileIndex) (files : List FileId) : Prop where
  perm : (indices.flatMap (·.files)).Perm files
  nonempty : ∀ index ∈ indices, index.files ≠ []

namespace FilesIndexed

variable {indices indices' : List FileIndex} {files files' : List FileId}

theorem nil : FilesIndexed [] [] := ⟨.nil, by simp⟩

theorem append (h : FilesIndexed indices files) (h' : FilesIndexed indices' files') :
    FilesIndexed (indices ++ indices') (files ++ files') where
  perm := by
    rw [List.flatMap_append]
    exact h.perm.append h'.perm
  nonempty index hindex := (List.mem_append.mp hindex).elim (h.nonempty index) (h'.nonempty index)

theorem congr_files (h : FilesIndexed indices files) (hperm : files.Perm files') :
    FilesIndexed indices files' := ⟨h.perm.trans hperm, h.nonempty⟩

end FilesIndexed

namespace DiskSliceWriter

/-- If a row of the slice is active, the index of its batches has an entry. -/
def Indexable (slice : DiskSliceWriter Row Ident) : Prop :=
  slice.batches.filterMap filteredBatch ≠ [] → slice.oldIndex.isEmpty = false

/-- The files of a slice that was written are those of its index. -/
def Indexed (slice : DiskSliceWriter Row Ident) : Prop :=
  FilesIndexed slice.newIndex.toList (slice.files.map (·.fileId))

theorem remapIndex_ensures (slice : DiskSliceWriter Row Ident)
    (h : slice.files ≠ [] → slice.oldIndex.isEmpty = false) :
    Ensures slice.remapIndex fun newIndex => Indexed { slice with newIndex } := by
  unfold remapIndex
  split
  · rename_i hempty
    have hfiles : slice.files = [] := by
      by_contra hne
      simp [h hne, hne] at hempty
    refine .ok ?_
    rw [Indexed, hfiles]
    exact .nil
  · rename_i hempty
    refine .bind_any fun entries => .bind_any fun _ => .bind_any fun fileId => .pure ⟨by simp, ?_⟩
    intro index hindex
    cases List.mem_singleton.mp hindex
    simp only [Bool.or_eq_true, List.isEmpty_iff, not_or] at hempty
    simpa using hempty.2

theorem Indexable.write {slice : DiskSliceWriter Row Ident} (h : slice.Indexable)
    (writer : ArrowWriter Row) (parquetFileSize : Nat) :
    Ensures (slice.write writer parquetFileSize) Indexed := by
  refine .bind (P := fun out : SliceOutput Row =>
    slice.batches.filterMap filteredBatch = [] → out.close.files = []) ?_ fun out hout => ?_
  · intro out hok hnone
    simp only [hnone, List.foldlM_nil] at hok
    cases hok
    rfl
  · refine .bind (remapIndex_ensures _ fun hfiles => h fun hnone => hfiles (hout hnone)) ?_
    exact fun newIndex hindexed => .pure hindexed

end DiskSliceWriter
end Moonlink.Storage
