-- SUMMARY: What a column store has at each location, and what each operation does to it.
import Moonlink.Storage.DrainedRows

namespace Moonlink.Storage

open Lib

variable {Row Ident : Type}

/-- The bound that `get_and_next` checks. -/
def BatchIdCounter.limit (c : BatchIdCounter) : Nat :=
  if c.isStreaming then streamingBatchIdMax else 2 ^ 64 - 1

theorem BatchIdCounter.getAndNext_eq (c : BatchIdCounter) :
    Ensures c.getAndNext fun res =>
      c.counter < c.limit ∧ res = (c.counter, { c with counter := c.counter + 1 }) := by
  intro res h
  obtain ⟨_, hassert, h⟩ := bind_eq_ok.mp h
  cases h
  exact ⟨by simpa [limit] using StoragePanic.of_assert hassert, rfl⟩

namespace ColumnStoreBuffer

def batchIds (store : ColumnStoreBuffer Row) : List Nat := store.inMemoryBatches.map (·.id)

theorem finalizeCurrentBatch_cases (store : ColumnStoreBuffer Row) (counter : BatchIdCounter) :
    Ensures (store.finalizeCurrentBatch counter) fun res =>
      store.currentRows = [] ∧ res = (none, store, counter) ∨
      store.currentRows ≠ [] ∧ counter.counter < counter.limit ∧
        res = (some (counter.counter, store.currentRows),
          { store with
            closedBatches := store.closedBatches ++ [{ store.openBatch with
              batch := { store.openBatch.batch with data := some store.currentRows } }]
            openBatch := ⟨counter.counter + 1, .new store.maxRowsPerBuffer⟩
            currentRows := [] },
          { counter with counter := counter.counter + 1 }) := by
  unfold finalizeCurrentBatch
  split
  · rename_i hempty
    exact .ok (.inl ⟨List.isEmpty_iff.mp hempty, rfl⟩)
  · rename_i hrows
    refine .bind counter.getAndNext_eq ?_
    rintro _ ⟨hlt, rfl⟩
    exact .pure (.inr ⟨mt List.isEmpty_iff.mpr hrows, hlt, rfl⟩)

end ColumnStoreBuffer

theorem BatchDeletionVector.isDeleted_iff_mem {v : BatchDeletionVector} {i : Nat} (h : i < v.maxRows) :
    v.isDeleted i = true ↔ i ∈ v.collectDeletedRows := by
  rw [BatchDeletionVector.mem_collectDeletedRows, BatchDeletionVector.isDeleted_eq_getBit h]
  simp [h]

/-- An active row can be deleted. -/
theorem BatchDeletionVector.deleteActiveRow_returns {v : BatchDeletionVector} {rowIdx : Nat}
    (hlt : rowIdx < v.maxRows) (hactive : v.isDeleted rowIdx = false) :
    Returns (v.deleteActiveRow rowIdx) fun v' => v'.maxRows = v.maxRows ∧
      ∀ i < v.maxRows, (v'.isDeleted i = true ↔ v.isDeleted i = true ∨ i = rowIdx) := by
  have hbit : v.bits.getBit rowIdx = true := by
    rw [BatchDeletionVector.isDeleted_eq_getBit hlt] at hactive
    simpa using hactive
  have hdeleted : Ensures (v.deleteActiveRow rowIdx) fun v' => v'.maxRows = v.maxRows ∧
      ∀ i < v.maxRows, (v'.isDeleted i = true ↔ v.isDeleted i = true ∨ i = rowIdx) := by
    refine (BatchDeletionVector.deleteActiveRow_ensures v rowIdx).mono fun v' h => ⟨h.maxRows, fun i hi => ?_⟩
    rw [isDeleted_iff_mem (h.maxRows ▸ hi), isDeleted_iff_mem hi, h.mem]
  refine hdeleted.returns ?_
  rw [BatchDeletionVector.deleteActiveRow, BatchDeletionVector.deleteRow,
    StoragePanic.assert_pos (decide_eq_true hlt)]
  simp only [ok_bind, pure_bind, StoragePanic.assert_pos hbit]
  exact ⟨_, rfl⟩

namespace ColumnStoreBuffer

/-- The row at a location, and whether it is deleted. -/
def cell (store : ColumnStoreBuffer Row) (loc : Nat × Nat) : Option (Row × Bool) :=
  (store.findBatch loc.1).bind fun entry =>
    (store.rowsOf entry)[loc.2]?.map fun row => (row, entry.batch.deletions.isDeleted loc.2)

/-- No batch has more rows than it may have deletions of, and what follows the last row is not marked. -/
structure Sized (store : ColumnStoreBuffer Row) : Prop where
  positive : 0 < store.maxRowsPerBuffer
  capacity : ∀ entry ∈ store.inMemoryBatches, entry.batch.deletions.maxRows = store.maxRowsPerBuffer
  rows : ∀ entry ∈ store.inMemoryBatches, (store.rowsOf entry).length ≤ store.maxRowsPerBuffer
  unmarked : ∀ i, store.currentRows.length ≤ i → i < store.maxRowsPerBuffer →
    store.openBatch.batch.deletions.isDeleted i = false

/-- A store whose batches are in order and within their size. -/
structure WellFormed (counter : BatchIdCounter) (store : ColumnStoreBuffer Row) : Prop where
  ordered : store.Ordered counter
  sized : store.Sized

section Cells

variable {store : ColumnStoreBuffer Row} {counter : BatchIdCounter} {entry : BatchEntry Row}

theorem findBatch_eq_some_iff (h : store.Ordered counter) {id : Nat} :
    store.findBatch id = some entry ↔ entry ∈ store.inMemoryBatches ∧ entry.id = id := by
  constructor
  · exact fun hfind => ⟨List.mem_of_find?_eq_some hfind, by simpa using List.find?_some hfind⟩
  · rintro ⟨hentry, rfl⟩
    unfold findBatch
    cases hfind : store.inMemoryBatches.find? (·.id = entry.id) with
    | none => exact absurd (List.find?_eq_none.mp hfind entry hentry) (by simp)
    | some other =>
      have hid : other.id = entry.id := by simpa using List.find?_some hfind
      rw [List.inj_on_of_nodup_map h.ids (List.mem_of_find?_eq_some hfind) hentry hid]

variable {loc : Nat × Nat} {row : Row}

theorem cell_eq_some_iff (h : store.Ordered counter) {deleted : Bool} :
    store.cell loc = some (row, deleted) ↔ ∃ entry ∈ store.inMemoryBatches, entry.id = loc.1 ∧
      (store.rowsOf entry)[loc.2]? = some row ∧ entry.batch.deletions.isDeleted loc.2 = deleted := by
  unfold cell
  rw [Option.bind_eq_some_iff]
  simp only [findBatch_eq_some_iff h, Option.map_eq_some_iff, Prod.mk.injEq]
  constructor
  · rintro ⟨entry, ⟨hentry, hid⟩, _, hrow, rfl, hdel⟩
    exact ⟨entry, hentry, hid, hrow, hdel⟩
  · rintro ⟨entry, hentry, hid, hrow, hdel⟩
    exact ⟨entry, ⟨hentry, hid⟩, row, hrow, rfl, hdel⟩

/-- Cells are equal if each row is at its place in both with its mark. -/
theorem cell_ext {cells cells' : Nat × Nat → Option (Row × Bool)}
    (h : ∀ loc row deleted, cells loc = some (row, deleted) ↔ cells' loc = some (row, deleted)) : cells = cells' := by
  funext loc
  apply Option.ext
  rintro ⟨row, deleted⟩
  exact h loc row deleted

theorem new_wellFormed {maxRowsPerBuffer : Nat} (hmax : 0 < maxRowsPerBuffer) (counter : BatchIdCounter) :
    Ensures (new maxRowsPerBuffer counter : Except _ (ColumnStoreBuffer Row × _)) fun res =>
      res.1.WellFormed res.2 ∧ res.1.cell = fun _ => none := by
  intro res hok
  have hordered := (new_ensures maxRowsPerBuffer counter res hok).1
  obtain ⟨⟨current, counter'⟩, -, hok⟩ := bind_eq_ok.mp hok
  cases hok
  refine ⟨⟨hordered, hmax, ?_, ?_, fun _ _ _ => rfl⟩, ?_⟩
  · intro entry hentry
    cases List.mem_singleton.mp hentry
    rfl
  · intro entry hentry
    cases List.mem_singleton.mp hentry
    exact Nat.zero_le _
  · refine cell_ext fun loc row deleted => (cell_eq_some_iff hordered).trans (iff_of_false ?_ nofun)
    rintro ⟨entry, hentry, -, hrow, -⟩
    cases List.mem_singleton.mp hentry
    cases hrow

/-! ## Closing a batch and appending a row -/

theorem rowsOf_closed (h : store.Ordered counter) {store' : ColumnStoreBuffer Row}
    (hentry : entry ∈ store.closedBatches) : store'.rowsOf entry = store.rowsOf entry := by
  obtain ⟨data, hdata⟩ := Option.isSome_iff_exists.mp (h.closed entry hentry)
  simp [rowsOf, hdata]

theorem rowsOf_openBatch (h : store.Ordered counter) : store.rowsOf store.openBatch = store.currentRows := by
  simp [rowsOf, h.isOpen]

theorem finalizeCurrentBatch_cell (h : store.WellFormed counter) :
    Ensures (store.finalizeCurrentBatch counter) fun res => res.2.1.WellFormed res.2.2 ∧
      counter.counter ≤ res.2.2.counter ∧ res.2.1.currentRows = [] ∧
      (∀ id ∈ res.2.1.batchIds, id ∈ store.batchIds ∨ counter.counter < id) ∧ res.2.1.cell = store.cell := by
  intro res hok
  obtain ⟨hcloses, hrows⟩ := finalizeCurrentBatch_ensures h.ordered res hok
  rcases finalizeCurrentBatch_cases store counter res hok with ⟨-, rfl⟩ | ⟨-, -, rfl⟩
  · exact ⟨h, Nat.le_refl _, hrows, fun _ hid => .inl hid, rfl⟩
  · have hopen := rowsOf_openBatch h.ordered
    refine ⟨⟨hcloses.ordered, h.sized.positive, ?_, ?_, fun _ _ _ => rfl⟩, Nat.le_succ _, rfl, ?_, ?_⟩
    · intro entry hentry
      simp only [inMemoryBatches, List.mem_append, List.mem_singleton] at hentry
      rcases hentry with (hclosed | rfl) | rfl
      · exact h.sized.capacity entry (List.mem_append_left _ hclosed)
      · exact h.sized.capacity store.openBatch (List.mem_append_right _ List.mem_cons_self)
      · rfl
    · intro entry hentry
      simp only [inMemoryBatches, List.mem_append, List.mem_singleton] at hentry
      rcases hentry with (hclosed | rfl) | rfl
      · rw [rowsOf_closed h.ordered hclosed]
        exact h.sized.rows entry (List.mem_append_left _ hclosed)
      · exact hopen ▸ h.sized.rows store.openBatch (List.mem_append_right _ List.mem_cons_self)
      · exact Nat.zero_le _
    · intro id hid
      simp only [batchIds, inMemoryBatches, List.map_append, List.map_cons, List.map_nil, List.mem_append,
        List.mem_singleton] at hid ⊢
      rcases hid with hold | rfl
      · exact .inl hold
      · exact .inr (Nat.lt_succ_self _)
    · refine cell_ext fun loc row deleted => ?_
      rw [cell_eq_some_iff hcloses.ordered, cell_eq_some_iff h.ordered]
      simp only [inMemoryBatches, List.mem_append, List.mem_singleton]
      constructor
      · rintro ⟨entry, (hclosed | rfl) | rfl, hid, hrow, hdel⟩
        · exact ⟨entry, .inl hclosed, hid, rowsOf_closed h.ordered hclosed ▸ hrow, hdel⟩
        · exact ⟨store.openBatch, .inr rfl, hid, hopen ▸ hrow, hdel⟩
        · cases hrow
      · rintro ⟨entry, hclosed | rfl, hid, hrow, hdel⟩
        · exact ⟨entry, .inl (.inl hclosed), hid, (rowsOf_closed h.ordered hclosed).symm ▸ hrow, hdel⟩
        · exact ⟨_, .inl (.inr rfl), hid, hopen ▸ hrow, hdel⟩

theorem closeIfFull_cell (h : store.WellFormed counter) :
    Ensures (store.closeIfFull counter) fun res => res.2.1.WellFormed res.2.2 ∧
      counter.counter ≤ res.2.2.counter ∧ res.2.1.currentRows.length < res.2.1.maxRowsPerBuffer ∧
      (∀ id ∈ res.2.1.batchIds, id ∈ store.batchIds ∨ counter.counter < id) ∧ res.2.1.cell = store.cell := by
  unfold closeIfFull
  split
  case isTrue =>
    refine (finalizeCurrentBatch_cell h).mono ?_
    rintro res ⟨hwf, hcounter, hrows, hids, hcell⟩
    exact ⟨hwf, hcounter, by rw [hrows]; exact hwf.sized.positive, hids, hcell⟩
  case isFalse hroom => exact .ok ⟨h, Nat.le_refl _, Nat.lt_of_not_le hroom, fun _ hid => .inl hid, rfl⟩

/-- The new row is at a location that nothing was at. -/
theorem appendRow_cell (h : store.WellFormed counter) (row : Row) :
    Ensures (store.appendRow counter row) fun res => res.2.2.1.WellFormed res.2.2.2 ∧
      counter.counter ≤ res.2.2.2.counter ∧ (∀ id ∈ res.2.2.1.batchIds, id ∈ store.batchIds ∨ counter.counter < id) ∧
      store.cell res.1 = none ∧ res.2.2.1.cell = Function.update store.cell res.1 (some (row, false)) := by
  refine .bind (closeIfFull_cell h) ?_
  rintro ⟨newBatch, store', counter'⟩ ⟨hwf, hcounter, hroom, hids, hcell⟩
  simp only at hwf hcounter hroom hids hcell
  rw [← hcell]
  have hopen := rowsOf_openBatch hwf.ordered
  have hmem : store'.openBatch ∈ store'.inMemoryBatches := List.mem_append_right _ List.mem_cons_self
  have hempty : store'.cell (store'.openBatch.id, store'.currentRows.length) = none := by
    rw [cell, (findBatch_eq_some_iff hwf.ordered).mpr ⟨hmem, rfl⟩, Option.bind_some, hopen]
    simp
  have hlocation : (store'.openBatch.id, (store'.currentRows ++ [row]).length - 1) =
      (store'.openBatch.id, store'.currentRows.length) := by simp
  have hordered : ({ store' with currentRows := store'.currentRows ++ [row] } : ColumnStoreBuffer Row).Ordered counter' :=
    ⟨hwf.ordered.ids, hwf.ordered.counter, hwf.ordered.closed, hwf.ordered.isOpen⟩
  refine .pure ⟨⟨hordered, hwf.sized.positive, hwf.sized.capacity, ?_, ?_⟩, hcounter, hids, ?_, ?_⟩
  · intro entry hentry
    rcases List.mem_append.mp hentry with hclosed | hlast
    · rw [rowsOf_closed hwf.ordered hclosed]
      exact hwf.sized.rows entry (List.mem_append_left _ hclosed)
    · cases List.mem_singleton.mp hlast
      rw [rowsOf_openBatch hordered, List.length_append]
      exact hroom
  · intro i hi hlt
    rw [List.length_append] at hi
    exact hwf.sized.unmarked i (Nat.le_of_succ_le hi) hlt
  · rw [hlocation]
    exact hempty
  · rw [hlocation]
    refine cell_ext fun loc r deleted => (cell_eq_some_iff hordered).trans ?_
    by_cases hloc : loc = (store'.openBatch.id, store'.currentRows.length)
    · -- The open batch is the only one with this id, and the row is its last.
      subst hloc
      have hunmarked := hwf.sized.unmarked _ (Nat.le_refl _) hroom
      rw [Function.update_self, Option.some_inj, Prod.mk.injEq]
      constructor
      · rintro ⟨entry, hentry, hid, hrow, rfl⟩
        cases List.inj_on_of_nodup_map hwf.ordered.ids hentry hmem hid
        rw [rowsOf_openBatch hordered] at hrow
        exact ⟨by simpa using hrow, hunmarked.symm⟩
      · rintro ⟨rfl, rfl⟩
        exact ⟨store'.openBatch, hmem, rfl, by rw [rowsOf_openBatch hordered]; simp, hunmarked⟩
    · rw [Function.update_of_ne hloc, cell_eq_some_iff hwf.ordered]
      refine exists_congr fun entry => and_congr_right fun hentry => and_congr_right fun hid => ?_
      rcases List.mem_append.mp hentry with hclosed | hlast
      · rw [rowsOf_closed hwf.ordered hclosed]
      · cases List.mem_singleton.mp hlast
        have hne : loc.2 ≠ store'.currentRows.length := fun heq => hloc (Prod.ext hid.symm heq)
        rw [rowsOf_openBatch hordered, hopen, List.getElem?_append]
        split
        · rfl
        · rw [List.getElem?_eq_none (by simp; omega), List.getElem?_eq_none (by omega)]

/-! ## Deletes -/

/-- The entry with the row marked, if the location is in it. -/
structure EntryMarked (loc : Nat × Nat) (entry entry' : BatchEntry Row) : Prop where
  id : entry'.id = entry.id
  data : entry'.batch.data = entry.batch.data
  maxRows : entry'.batch.deletions.maxRows = entry.batch.deletions.maxRows
  marked : ∀ i < entry.batch.deletions.maxRows, (entry'.batch.deletions.isDeleted i = true ↔
    entry.batch.deletions.isDeleted i = true ∨ (entry.id, i) = loc)

theorem EntryMarked.refl (hid : entry.id ≠ loc.1) :
    EntryMarked loc entry entry := by
  refine ⟨rfl, rfl, rfl, fun i _ => (or_iff_left ?_).symm⟩
  rintro rfl
  exact hid rfl

theorem deleteInEntry_marked
    (hactive : entry.id = loc.1 → loc.2 < entry.batch.deletions.maxRows ∧ entry.batch.deletions.isDeleted loc.2 = false) :
    Returns (if entry.id = loc.1 then deleteInEntry entry loc.2 else .ok entry) (EntryMarked loc entry) := by
  split
  case isTrue hid =>
    obtain ⟨hlt, hdel⟩ := hactive hid
    refine (BatchDeletionVector.deleteActiveRow_returns hlt hdel).bind ?_
    rintro deletions ⟨hmax, hmarked⟩
    refine .pure ⟨rfl, rfl, hmax, fun i hi => (hmarked i hi).trans (or_congr_right ?_)⟩
    exact ⟨fun heq => Prod.ext hid heq, fun heq => congrArg Prod.snd heq⟩
  case isFalse hid => exact .ok (.refl hid)

/-- The batches of a store, with a row marked. -/
theorem cell_of_forall₂ {store' : ColumnStoreBuffer Row} (h : store.WellFormed counter)
    (hordered : store'.Ordered counter) (hrows : store'.currentRows = store.currentRows)
    (hall : List.Forall₂ (EntryMarked loc) store.inMemoryBatches store'.inMemoryBatches)
    (hlive : store.cell loc = some (row, false)) :
    store'.cell = Function.update store.cell loc (some (row, true)) := by
  have hrowsOf : ∀ {entry entry'}, EntryMarked loc entry entry' → store'.rowsOf entry' = store.rowsOf entry := by
    intro entry entry' hmarked
    rw [rowsOf, rowsOf, hmarked.data, hrows]
  -- Within the rows of a batch, only the location has another mark.
  have hmark : ∀ {entry entry'}, entry ∈ store.inMemoryBatches → EntryMarked loc entry entry' → ∀ {i r},
      (store.rowsOf entry)[i]? = some r → (entry'.batch.deletions.isDeleted i = true ↔
        entry.batch.deletions.isDeleted i = true ∨ (entry.id, i) = loc) := by
    intro entry entry' hentry hmarked i r hrow
    obtain ⟨hlt, -⟩ := List.getElem?_eq_some_iff.mp hrow
    refine hmarked.marked i ?_
    rw [h.sized.capacity entry hentry]
    exact hlt.trans_le (h.sized.rows entry hentry)
  obtain ⟨entry, hentry, hid, hrow, hdel⟩ := (cell_eq_some_iff h.ordered).mp hlive
  funext loc'
  by_cases hloc : loc' = loc
  · subst hloc
    obtain ⟨entry', hentry', hmarked⟩ := exists_of_mem_left hall hentry
    rw [Function.update_self, cell_eq_some_iff hordered]
    refine ⟨entry', hentry', hmarked.id.trans hid, (hrowsOf hmarked).symm ▸ hrow, ?_⟩
    exact (hmark hentry hmarked hrow).mpr (.inr (Prod.ext hid rfl))
  · have hother : ∀ e : BatchEntry Row, e.id = loc'.1 → (e.id, loc'.2) ≠ loc := by
      rintro e heid heq
      rw [heid] at heq
      exact hloc heq
    rw [Function.update_of_ne hloc]
    apply Option.ext
    rintro ⟨r, deleted⟩
    rw [cell_eq_some_iff hordered, cell_eq_some_iff h.ordered]
    constructor
    · rintro ⟨e', he', heid, hr, hd⟩
      obtain ⟨e, he, hmarked⟩ := exists_of_mem_right hall he'
      rw [hrowsOf hmarked] at hr
      refine ⟨e, he, hmarked.id ▸ heid, hr, ?_⟩
      have hiff := hmark he hmarked hr
      rw [or_iff_left (hother e (hmarked.id ▸ heid))] at hiff
      rw [← hd, Bool.eq_iff_iff, hiff]
    · rintro ⟨e, he, heid, hr, hd⟩
      obtain ⟨e', he', hmarked⟩ := exists_of_mem_left hall he
      refine ⟨e', he', hmarked.id.trans heid, (hrowsOf hmarked).symm ▸ hr, ?_⟩
      have hiff := hmark he hmarked hr
      rw [or_iff_left (hother e heid)] at hiff
      rw [← hd, Bool.eq_iff_iff, hiff]

/-- A row that is not deleted can be. -/
theorem deleteAt_cell (h : store.WellFormed counter)
    (hlive : store.cell loc = some (row, false)) :
    Returns (store.deleteAt loc) fun store' => store'.WellFormed counter ∧ store'.batchIds = store.batchIds ∧
      store'.cell = Function.update store.cell loc (some (row, true)) := by
  obtain ⟨entry, hentry, hid, hrow, hdel⟩ := (cell_eq_some_iff h.ordered).mp hlive
  have hactive : ∀ e ∈ store.inMemoryBatches, e.id = loc.1 →
      loc.2 < e.batch.deletions.maxRows ∧ e.batch.deletions.isDeleted loc.2 = false := by
    intro e he heid
    cases List.inj_on_of_nodup_map h.ordered.ids he hentry (heid.trans hid.symm)
    obtain ⟨hlt, -⟩ := List.getElem?_eq_some_iff.mp hrow
    rw [h.sized.capacity entry hentry]
    exact ⟨hlt.trans_le (h.sized.rows entry hentry), hdel⟩
  have hclosed := returns_mapM_iff.mpr fun e he => deleteInEntry_marked (hactive e (List.mem_append_left _ he))
  have hopen := deleteInEntry_marked (hactive store.openBatch (List.mem_append_right _ List.mem_cons_self))
  have hreturns : Returns (store.deleteAt loc) fun store' => store'.currentRows = store.currentRows ∧
      store'.maxRowsPerBuffer = store.maxRowsPerBuffer ∧
      List.Forall₂ (EntryMarked loc) store.closedBatches store'.closedBatches ∧
      EntryMarked loc store.openBatch store'.openBatch := by
    refine hclosed.bind fun closed hclosed => ?_
    by_cases hopenId : store.openBatch.id = loc.1
    · rw [if_pos hopenId] at hopen ⊢
      exact hopen.bind fun openBatch hmarked => .pure ⟨rfl, rfl, hclosed, hmarked⟩
    · rw [if_neg hopenId] at hopen ⊢
      exact hopen.bind fun openBatch hmarked => .pure ⟨rfl, rfl, hclosed, hmarked⟩
  obtain ⟨store', hok, hrows, hmax, hclosed, hopen⟩ := hreturns
  have hordered := (deleteAt_ensures h.ordered loc store' hok).1
  have hall : List.Forall₂ (EntryMarked loc) store.inMemoryBatches store'.inMemoryBatches :=
    List.rel_append hclosed (.cons hopen .nil)
  refine ⟨store', hok, ⟨hordered, hmax ▸ h.sized.positive, ?_, ?_, ?_⟩, ?_,
    cell_of_forall₂ h hordered hrows hall hlive⟩
  · intro e' he'
    obtain ⟨e, he, hmarked⟩ := exists_of_mem_right hall he'
    rw [hmarked.maxRows, hmax]
    exact h.sized.capacity e he
  · intro e' he'
    obtain ⟨e, he, hmarked⟩ := exists_of_mem_right hall he'
    rw [rowsOf, hmarked.data, hrows, hmax]
    exact h.sized.rows e he
  · intro i hi hlt
    have hopenMem : store.openBatch ∈ store.inMemoryBatches := List.mem_append_right _ List.mem_cons_self
    rw [hrows] at hi
    rw [hmax] at hlt
    have hne : (store.openBatch.id, i) ≠ loc := by
      rintro rfl
      cases List.inj_on_of_nodup_map h.ordered.ids hentry hopenMem hid
      rw [rowsOf_openBatch h.ordered, List.getElem?_eq_none hi] at hrow
      cases hrow
    have hiff := hopen.marked i (by rw [h.sized.capacity _ hopenMem]; exact hlt)
    rw [or_iff_left hne, h.sized.unmarked i hi hlt] at hiff
    simpa using hiff
  · rw [batchIds, batchIds, eq_comm, ← List.forall₂_eq_eq_eq, List.forall₂_map_left_iff, List.forall₂_map_right_iff]
    exact hall.imp fun _ _ hmarked => hmarked.id.symm

/-- A row that is deleted cannot be deleted again. -/
theorem deleteAt_error (h : store.WellFormed counter)
    (hdeleted : store.cell loc = some (row, true)) : ¬ ∃ store', store.deleteAt loc = .ok store' := by
  obtain ⟨entry, hentry, hid, hrow, hdel⟩ := (cell_eq_some_iff h.ordered).mp hdeleted
  have hlt : loc.2 < entry.batch.deletions.maxRows := by
    obtain ⟨hlt, -⟩ := List.getElem?_eq_some_iff.mp hrow
    rw [h.sized.capacity entry hentry]
    exact hlt.trans_le (h.sized.rows entry hentry)
  have hfails : ¬ ∃ entry', deleteInEntry entry loc.2 = .ok entry' := by
    rintro ⟨entry', hok⟩
    obtain ⟨deletions, hdelete, -⟩ := bind_eq_ok.mp hok
    have hactive := (BatchDeletionVector.deleteActiveRow_ensures _ _ _ hdelete).active
    exact hactive ((BatchDeletionVector.isDeleted_iff_mem hlt).mp hdel)
  rintro ⟨store', hok⟩
  obtain ⟨closed, hclosed, hok⟩ := bind_eq_ok.mp hok
  rcases List.mem_append.mp hentry with hmem | hlast
  · have hentryOk := exists_eq_ok_of_mapM hclosed hmem
    rw [if_pos hid] at hentryOk
    exact hfails hentryOk
  · cases List.mem_singleton.mp hlast
    rw [if_pos hid] at hok
    obtain ⟨openBatch, hopen, -⟩ := bind_eq_ok.mp hok
    exact hfails ⟨openBatch, hopen⟩

/-- Nothing is left in a store whose open batch is empty. -/
theorem drain_cell (h : store.WellFormed counter) (hrows : store.currentRows = []) :
    store.drain.2.WellFormed counter ∧ store.drain.2.cell = fun _ => none := by
  have hmem : store.openBatch ∈ store.inMemoryBatches := List.mem_append_right _ List.mem_cons_self
  have hordered : store.drain.2.Ordered counter := by
    refine ⟨by simp [drain, inMemoryBatches], fun entry hentry => ?_, by simp [drain], h.ordered.isOpen⟩
    cases List.mem_singleton.mp hentry
    exact h.ordered.counter _ hmem
  refine ⟨⟨hordered, h.sized.positive, ?_, ?_, h.sized.unmarked⟩, ?_⟩
  · intro entry hentry
    cases List.mem_singleton.mp hentry
    exact h.sized.capacity _ hmem
  · intro entry hentry
    cases List.mem_singleton.mp hentry
    exact h.sized.rows _ hmem
  · refine cell_ext fun loc row deleted => (cell_eq_some_iff hordered).trans (iff_of_false ?_ (fun h => by cases h))
    rintro ⟨entry, hentry, -, hrow, -⟩
    cases List.mem_singleton.mp hentry
    rw [rowsOf_openBatch hordered] at hrow
    rw [drain, hrows] at hrow
    cases hrow

end Cells

end ColumnStoreBuffer
end Moonlink.Storage
