-- SUMMARY: What a rejected row leaves in the column builders, and when it leaves no trace.
import Moonlink.Row.ColumnStore

namespace Moonlink.Row

open Lib

/-! ## What an append leaves -/

namespace ColumnArrayBuilder

/-- The builder in place is the one that is returned, if there is one. -/
def Leaves {α : Type} (returned : Except AppendError α) (left : Except AppendError Unit × α) : Prop :=
  left.1 = returned.map (fun _ => ()) ∧ ∀ a, returned = .ok a → left.2 = a

theorem Leaves.cases {α : Type} {returned : Except AppendError α} {left : Except AppendError Unit × α}
    (h : Leaves returned left) : (∃ a, returned = .ok a ∧ left = (.ok (), a)) ∨
      ∃ e a, returned = .error e ∧ left = (.error e, a) := by
  obtain ⟨result, a⟩ := left
  obtain ⟨rfl, hleft⟩ := h
  cases returned with
  | ok a' => exact .inl ⟨a', rfl, Prod.ext rfl (hleft a' rfl)⟩
  | error e => exact .inr ⟨e, a, rfl, rfl⟩

theorem leaf_leaves (builder : LeafBuilder) (values : List RowValue) (v : RowValue) :
    Leaves ((leaf builder values).appendValue v) ((leaf builder values).appendValueInPlace v) := by
  cases v with
  | null => exact ⟨rfl, fun a ha => by cases ha; rfl⟩
  | _ =>
    rw [appendValue, appendValueInPlace]
    · cases builder.accept _ with
      | ok v => exact ⟨rfl, fun a ha => by cases ha; rfl⟩
      | error e => exact ⟨rfl, fun a ha => by cases ha⟩
    all_goals (intros; contradiction)

mutual
theorem appendValueInPlace_leaves (b : ColumnArrayBuilder) (v : RowValue) :
    Leaves (b.appendValue v) (b.appendValueInPlace v) :=
  match v with
  | .null => by
    rw [appendValue, appendValueInPlace]
    exact ⟨rfl, fun a ha => by cases ha; rfl⟩
  | .array items => by
    cases b with
    | leaf builder values => exact leaf_leaves builder values _
    | struct fields children nulls len => exact ⟨rfl, nofun⟩
    | list kind field offsets nulls inner len =>
      rw [appendValue, appendValueInPlace]
      rcases (appendItemsInPlace_leaves inner items).cases with
        ⟨inner', hreturned, hleft⟩ | ⟨e, inner', hreturned, hleft⟩
      · rw [hreturned, hleft]
        exact ⟨rfl, fun a ha => by cases ha; rfl⟩
      · rw [hreturned, hleft]
        exact ⟨rfl, nofun⟩
  | .struct vals => by
    cases b with
    | leaf builder values => exact leaf_leaves builder values _
    | list kind field offsets nulls inner len => exact ⟨rfl, nofun⟩
    | struct fields children nulls len =>
      rw [appendValue, appendValueInPlace]
      by_cases hcount : vals.length = fields.length
      · rw [if_pos hcount, if_pos hcount]
        rcases (appendFieldsInPlace_leaves children vals).cases with
          ⟨bs, hreturned, hleft⟩ | ⟨e, bs, hreturned, hleft⟩
        · rw [hreturned, hleft]
          exact ⟨rfl, fun a ha => by cases ha; rfl⟩
        · rw [hreturned, hleft]
          exact ⟨rfl, nofun⟩
      · rw [if_neg hcount, if_neg hcount]
        exact ⟨rfl, nofun⟩
  | .int32 _ | .int64 _ | .float32 _ | .float64 _ | .decimal _ | .bool _ | .byteArray _ | .fixedLenByteArray _ => by
    cases b with
    | leaf builder values => exact leaf_leaves builder values _
    | _ => exact ⟨rfl, nofun⟩
theorem appendItemsInPlace_leaves (b : ColumnArrayBuilder) (vs : List RowValue) :
    Leaves (b.appendItems vs) (b.appendItemsInPlace vs) :=
  match vs with
  | [] => by
    rw [appendItems, appendItemsInPlace]
    exact ⟨rfl, fun a ha => by cases ha; rfl⟩
  | v :: vs => by
    rw [appendItems, appendItemsInPlace]
    rcases (appendValueInPlace_leaves b v).cases with ⟨b', hreturned, hleft⟩ | ⟨e, b', hreturned, hleft⟩
    · rw [hreturned, hleft]
      exact appendItemsInPlace_leaves b' vs
    · rw [hreturned, hleft]
      exact ⟨rfl, nofun⟩
theorem appendFieldsInPlace_leaves (bs : List ColumnArrayBuilder) (vs : List RowValue) :
    Leaves (appendFields bs vs) (appendFieldsInPlace bs vs) :=
  match bs, vs with
  | [], _ => by
    rw [appendFields, appendFieldsInPlace]
    · exact ⟨rfl, fun a ha => by cases ha; rfl⟩
    all_goals (intros; contradiction)
  | _ :: _, [] => by
    rw [appendFields, appendFieldsInPlace]
    · exact ⟨rfl, fun a ha => by cases ha; rfl⟩
    all_goals (intros; contradiction)
  | b :: bs, v :: vs => by
    rw [appendFields, appendFieldsInPlace]
    rcases (appendValueInPlace_leaves b v).cases with ⟨b', hreturned, hleft⟩ | ⟨e, b', hreturned, hleft⟩
    · rw [hreturned, hleft]
      rcases (appendFieldsInPlace_leaves bs vs).cases with ⟨bs', hrest, hleft⟩ | ⟨e, bs', hrest, hleft⟩
      · rw [hrest, hleft]
        exact ⟨rfl, fun a ha => by cases ha; rfl⟩
      · rw [hrest, hleft]
        exact ⟨rfl, nofun⟩
    · rw [hreturned, hleft]
      exact ⟨rfl, nofun⟩
end

/-- An accepted value makes the builder longer. -/
theorem len_appendValue {b b' : ColumnArrayBuilder} {v : RowValue} (h : b.appendValue v = .ok b') :
    b'.len = b.len + 1 := by
  cases b with
  | leaf builder values =>
    cases v with
    | null =>
      cases h
      rw [appendNull, len, List.length_append]
      rfl
    | _ =>
      rw [appendValue] at h
      · obtain ⟨w, -, heq⟩ := bind_eq_ok.mp h
        cases heq
        rw [len, List.length_append]
        rfl
      all_goals (intros; contradiction)
  | list kind field offsets nulls inner n =>
    cases v with
    | null =>
      cases h
      rfl
    | array items =>
      rw [appendValue] at h
      obtain ⟨inner', -, heq⟩ := bind_eq_ok.mp h
      cases heq
      rfl
    | _ => cases h
  | struct fields children nulls n =>
    cases v with
    | null =>
      cases h
      rfl
    | struct vals =>
      rw [appendValue] at h
      split at h
      · obtain ⟨children', -, heq⟩ := bind_eq_ok.mp h
        cases heq
        rfl
      · cases h
    | _ => cases h

theorem ne_of_appendValue {b b' : ColumnArrayBuilder} {v : RowValue} (h : b.appendValue v = .ok b') : b' ≠ b := by
  rintro rfl
  have hlen := len_appendValue h
  omega

theorem ne_of_appendValueInPlace {b b' : ColumnArrayBuilder} {v : RowValue}
    (h : b.appendValueInPlace v = (.ok (), b')) : b' ≠ b := by
  rcases (appendValueInPlace_leaves b v).cases with ⟨b'', hreturned, hleft⟩ | ⟨e, b'', -, hleft⟩
  · rw [hleft] at h
    cases h
    exact ne_of_appendValue hreturned
  · rw [hleft] at h
    cases h

/-- A list that rejects one of its items keeps the offset where it would have started. -/
theorem ne_of_items {kind : ListKind} {field : Field} {offsets : List Int} {nulls : List Bool}
    {inner b' : ColumnArrayBuilder} {n : Nat} {items : List RowValue} {e : AppendError}
    (h : (list kind field offsets nulls inner n).appendValueInPlace (.array items) = (.error e, b')) :
    b' ≠ list kind field offsets nulls inner n := by
  rw [appendValueInPlace] at h
  split at h
  case h_1 => cases h
  case h_2 =>
    cases h
    intro heq
    have hoffsets := congrArg List.length (list.inj heq).2.2.1
    rw [List.length_append] at hoffsets
    exact absurd hoffsets (Nat.succ_ne_self _)

theorem leaf_rejectsAtOnce {builder : LeafBuilder} {values : List RowValue} {b' : ColumnArrayBuilder} {v : RowValue}
    {e : AppendError} (h : (leaf builder values).appendValueInPlace v = (.error e, b')) :
    b' = leaf builder values ∧ (leaf builder values).rejectsAtOnce v = true := by
  cases v with
  | null => cases h
  | _ =>
    rw [appendValueInPlace] at h
    · split at h
      case h_1 => cases h
      case h_2 haccept =>
        cases h
        rw [rejectsAtOnce, haccept]
        · exact ⟨rfl, rfl⟩
        all_goals (intros; contradiction)
    all_goals (intros; contradiction)

theorem appendValueInPlace_of_rejectsAtOnce (b : ColumnArrayBuilder) {v : RowValue} (h : b.rejectsAtOnce v = true) :
    ∃ e, b.appendValueInPlace v = (.error e, b) :=
  match b with
  | leaf builder values => by
    cases v with
    | null => cases h
    | _ =>
      rw [rejectsAtOnce] at h
      · split at h
        case h_1 => cases h
        case h_2 e haccept =>
          refine ⟨e, ?_⟩
          rw [appendValueInPlace, haccept]
          all_goals (intros; contradiction)
      all_goals (intros; contradiction)
  | list kind field offsets nulls inner n => by
    cases v with
    | null => cases h
    | array items => cases h
    | _ => exact ⟨_, rfl⟩
  | struct fields children nulls n => by
    cases v with
    | null => cases children <;> cases h
    | struct vals =>
      rw [appendValueInPlace]
      by_cases hcount : vals.length = fields.length
      · rw [if_pos hcount]
        cases children with
        | nil =>
          rw [rejectsAtOnce, hcount] at h
          · exact absurd rfl (of_decide_eq_true h)
          all_goals (intros; contradiction)
        | cons child rest =>
          cases vals with
          | nil =>
            rw [rejectsAtOnce, hcount] at h
            · exact absurd rfl (of_decide_eq_true h)
            all_goals (intros; contradiction)
          | cons v vals =>
            have hsame : decide (vals.length + 1 ≠ fields.length) = false := decide_eq_false (not_not.mpr hcount)
            rw [rejectsAtOnce, hsame, Bool.false_or] at h
            obtain ⟨e, heq⟩ := appendValueInPlace_of_rejectsAtOnce child h
            rw [appendFieldsInPlace, heq]
            exact ⟨e, rfl⟩
      · rw [if_neg hcount]
        exact ⟨_, rfl⟩
    | _ => exact ⟨_, rfl⟩

theorem rejectsAtOnce_of_eq (b : ColumnArrayBuilder) {v : RowValue} {e : AppendError}
    (h : b.appendValueInPlace v = (.error e, b)) : b.rejectsAtOnce v = true :=
  match b with
  | leaf builder values => (leaf_rejectsAtOnce h).2
  | list kind field offsets nulls inner n => by
    cases v with
    | null => cases h
    | array items => exact absurd rfl (ne_of_items h)
    | _ => rfl
  | struct fields children nulls n => by
    cases v with
    | null => cases h
    | struct vals =>
      rw [appendValueInPlace] at h
      by_cases hcount : vals.length = fields.length
      · rw [if_pos hcount] at h
        cases children with
        | nil => cases vals <;> cases h
        | cons child rest =>
          cases vals with
          | nil => cases h
          | cons v vals =>
            rw [appendFieldsInPlace] at h
            rcases (appendValueInPlace_leaves child v).cases with
              ⟨child', -, hleft⟩ | ⟨e', child', -, hleft⟩
            · rw [hleft] at h
              dsimp only at h
              cases hrest : (appendFieldsInPlace rest vals).1 with
              | ok _ =>
                rw [hrest] at h
                cases h
              | error e' =>
                rw [hrest] at h
                have hchild := (List.cons.inj (struct.inj (Prod.mk.inj h).2).2.1).1
                exact absurd hchild (ne_of_appendValueInPlace hleft)
            · rw [hleft] at h
              cases h
              rw [rejectsAtOnce, rejectsAtOnce_of_eq child hleft, Bool.or_true]
      · cases children with
        | nil => exact decide_eq_true hcount
        | cons child rest =>
          cases vals with
          | nil => exact decide_eq_true hcount
          | cons v vals =>
            rw [rejectsAtOnce, Bool.or_eq_true_iff]
            exact .inl (decide_eq_true hcount)
    | _ => cases children <;> rfl

/-- What a rejected value leaves is the builder itself just if the value was rejected at once. -/
theorem rejectsAtOnce_iff {b b' : ColumnArrayBuilder} {v : RowValue} {e : AppendError}
    (h : b.appendValueInPlace v = (.error e, b')) : b' = b ↔ b.rejectsAtOnce v = true := by
  constructor
  · rintro rfl
    exact rejectsAtOnce_of_eq b' h
  · intro hrejects
    obtain ⟨e', heq⟩ := appendValueInPlace_of_rejectsAtOnce b hrejects
    rw [heq] at h
    cases h
    rfl

end ColumnArrayBuilder

/-! ## Rejected rows -/

namespace ColumnStoreBuffer

variable {Batch ε : Type} {finish : List Field → List ColumnArrayBuilder → Except StorePanic (Except ε Batch)}

/-- The batch is full, and has rows. -/
def Full (s : ColumnStoreBuffer Batch) : Prop := s.maxRowsPerBuffer ≤ s.currentRowCount ∧ s.currentRowCount ≠ 0

/-- The first value of the row is rejected at once. -/
def RejectsAtOnce : List ColumnArrayBuilder → List RowValue → Prop
  | b :: _, v :: _ => b.rejectsAtOnce v = true
  | _, _ => False

theorem appendCells_error {bs bs' : List ColumnArrayBuilder} {row : List RowValue} {e : AppendError}
    (h : appendCells bs row = .ok (.error e, bs')) : bs' = bs ↔ RejectsAtOnce bs row := by
  cases row with
  | nil =>
    rw [appendCells] at h
    cases h
  | cons v vs =>
    cases bs with
    | nil => cases h
    | cons b bs =>
      rw [appendCells] at h
      split at h
      case h_1 b' hleft =>
        obtain ⟨⟨result, rest⟩, -, heq⟩ := bind_eq_ok.mp h
        cases heq
        refine iff_of_false (fun hsame => ?_) fun hrejects => ?_
        · exact ColumnArrayBuilder.ne_of_appendValueInPlace hleft (List.cons.inj hsame).1
        · obtain ⟨e', heq⟩ := ColumnArrayBuilder.appendValueInPlace_of_rejectsAtOnce b hrejects
          rw [heq] at hleft
          cases hleft
      case h_2 e' b' hleft =>
        cases h
        rw [List.cons_eq_cons, and_iff_left rfl]
        exact ColumnArrayBuilder.rejectsAtOnce_iff hleft

/-- Finishing a batch that has rows replaces the builders, and opens another batch unless it fails. -/
theorem finalizeCurrentBatch_cases {s s' : ColumnStoreBuffer Batch} {r : Except (StoreError ε) (Option (Nat × Batch))}
    (hrows : s.currentRowCount ≠ 0) (h : s.finalizeCurrentBatch finish = .ok (r, s')) :
    ∃ builders, replaceBuilders s.currentBatchBuilder s.schema = .ok builders ∧
      ((∃ e, finish s.schema s.currentBatchBuilder = .ok (.error e) ∧ r = .error (.recordBatch e) ∧
        s' = { s with currentBatchBuilder := builders }) ∨
      ∃ batch newBatch, finish s.schema s.currentBatchBuilder = .ok (.ok batch) ∧ r = .ok newBatch ∧
        s'.inMemoryBatches.length = s.inMemoryBatches.length + 1) := by
  rw [finalizeCurrentBatch, if_neg hrows] at h
  obtain ⟨finished, hfinish, h⟩ := bind_eq_ok.mp h
  obtain ⟨builders, hbuilders, h⟩ := bind_eq_ok.mp h
  refine ⟨builders, hbuilders, ?_⟩
  cases finished with
  | error e =>
    cases h
    exact .inl ⟨e, hfinish, rfl, rfl⟩
  | ok batch =>
    dsimp only at h
    split at h
    case h_1 => cases h
    case h_2 last hlast =>
      obtain ⟨⟨current, counter⟩, -, h⟩ := bind_eq_ok.mp h
      cases h
      refine .inr ⟨batch, _, hfinish, rfl, ?_⟩
      have hpos : 0 < s.inMemoryBatches.length := by
        refine List.length_pos_of_ne_nil fun hnil => ?_
        rw [hnil] at hlast
        cases hlast
      rw [List.length_append, List.length_dropLast]
      show s.inMemoryBatches.length - 1 + 2 = _
      omega

/-- When an append that fails leaves the store as it was. -/
def LeavesNoTrace (finish : List Field → List ColumnArrayBuilder → Except StorePanic (Except ε Batch))
    (s : ColumnStoreBuffer Batch) (row : List RowValue) : Prop :=
  (¬ s.Full ∧ RejectsAtOnce s.currentBatchBuilder row) ∨
  (s.Full ∧ (∃ e, finish s.schema s.currentBatchBuilder = .ok (.error e)) ∧
    replaceBuilders s.currentBatchBuilder s.schema = .ok s.currentBatchBuilder)

theorem closeIfFull_of_not_full {s : ColumnStoreBuffer Batch} (h : ¬ s.Full) :
    s.closeIfFull finish = .ok (.ok none, s) := by
  rw [closeIfFull]
  split
  case isTrue hmax =>
    have hrows : s.currentRowCount = 0 := by
      by_contra hrows
      exact h ⟨hmax, hrows⟩
    rw [finalizeCurrentBatch, if_pos hrows]
  case isFalse => rfl

theorem appendRow_unchanged_iff {s s' : ColumnStoreBuffer Batch} {row : List RowValue} {e : StoreError ε}
    (h : s.appendRow finish row = .ok (.error e, s')) : s' = s ↔ s.LeavesNoTrace finish row := by
  obtain ⟨⟨r, closed⟩, hclose, h⟩ := bind_eq_ok.mp h
  by_cases hfull : s.Full
  · rw [closeIfFull, if_pos hfull.1] at hclose
    have hnot : ¬ ¬ s.Full := not_not.mpr hfull
    obtain ⟨builders, hbuilders, ⟨e', hfinish, rfl, rfl⟩ | ⟨batch, newBatch, hfinish, rfl, hlength⟩⟩ :=
      finalizeCurrentBatch_cases hfull.2 hclose
    · cases h
      constructor
      · intro heq
        have hsame := congrArg currentBatchBuilder heq
        exact .inr ⟨hfull, ⟨e', hfinish⟩, hbuilders.trans (congrArg _ hsame)⟩
      · rintro (⟨hopen, -⟩ | ⟨-, -, hfresh⟩)
        · exact absurd hopen hnot
        · rw [hbuilders] at hfresh
          cases hfresh
          rfl
    · obtain ⟨⟨result, cells⟩, -, h⟩ := bind_eq_ok.mp h
      cases result with
      | ok _ =>
        dsimp only at h
        split at h
        · cases h
        · cases h
      | error e' =>
        cases h
        refine iff_of_false (fun heq => ?_) ?_
        · have hsame := congrArg (fun s => s.inMemoryBatches.length) heq
          dsimp only at hsame
          omega
        · rintro (⟨hopen, -⟩ | ⟨-, ⟨e'', herror⟩, -⟩)
          · exact hnot hopen
          · rw [hfinish] at herror
            cases herror
  · rw [closeIfFull_of_not_full hfull] at hclose
    cases hclose
    obtain ⟨⟨result, cells⟩, hcells, h⟩ := bind_eq_ok.mp h
    cases result with
    | ok _ =>
      dsimp only at h
      split at h
      · cases h
      · cases h
    | error e' =>
      cases h
      have hiff := appendCells_error hcells
      constructor
      · intro heq
        exact .inl ⟨hfull, hiff.mp (congrArg currentBatchBuilder heq)⟩
      · rintro (⟨-, hrejects⟩ | ⟨hfull', -⟩)
        · rw [hiff.mpr hrejects]
        · exact absurd hfull' hfull

end ColumnStoreBuffer

theorem MemSlice.append_error {Batch Index ε : Type}
    {finish : List Field → List ColumnArrayBuilder → Except StorePanic (Except ε Batch)}
    {insert : Nat → Option (List RowValue) → Nat × Nat → Index → Index} {m m' : MemSlice Batch Index}
    {lookupKey : Nat} {row : List RowValue} {identityForKey : Option (List RowValue)} {e : StoreError ε}
    (h : m.append finish insert lookupKey row identityForKey = .ok (.error e, m')) :
    m.columnStore.appendRow finish row = .ok (.error e, m'.columnStore) ∧ m'.memIndex = m.memIndex := by
  obtain ⟨⟨r, columnStore⟩, happend, h⟩ := bind_eq_ok.mp h
  cases r with
  | error e' =>
    cases h
    exact ⟨happend, rfl⟩
  | ok _ => cases h

/-- A rejected row leaves the column store, and the slice, as it was just if no batch had to be finished before
it and its first value was rejected at once, or if the builders of the batch that could not be finished hold nothing. -/
theorem rejectedRow_unchanged_iff {Batch Index ε : Type}
    (finish : List Field → List ColumnArrayBuilder → Except StorePanic (Except ε Batch))
    (insert : Nat → Option (List RowValue) → Nat × Nat → Index → Index) (row : List RowValue) :
    (∀ (s s' : ColumnStoreBuffer Batch) e, s.appendRow finish row = .ok (.error e, s') →
      (s' = s ↔ s.LeavesNoTrace finish row)) ∧
    ∀ (m m' : MemSlice Batch Index) lookupKey identityForKey e,
      m.append finish insert lookupKey row identityForKey = .ok (.error e, m') →
      (m' = m ↔ m.columnStore.LeavesNoTrace finish row) := by
  refine ⟨fun s s' e h => ColumnStoreBuffer.appendRow_unchanged_iff h, fun m m' lookupKey identityForKey e h => ?_⟩
  obtain ⟨happend, hindex⟩ := MemSlice.append_error h
  rw [← ColumnStoreBuffer.appendRow_unchanged_iff happend]
  obtain ⟨columnStore, memIndex⟩ := m
  obtain ⟨columnStore', memIndex'⟩ := m'
  cases hindex
  exact ⟨fun heq => congrArg MemSlice.columnStore heq, fun heq => congrArg (MemSlice.mk · memIndex) heq⟩

/-- A batch is what its builders hold, which have the same length. -/
def heldBatch (_ : List Field) (builders : List ColumnArrayBuilder) :
    Except StorePanic (Except Unit (List ColumnArrayBuilder)) :=
  .ok (if builders.all fun b => b.len = (builders.headD (.leaf .boolean [])).len then .ok builders else .error ())

def twoColumns : ColumnStoreBuffer (List ColumnArrayBuilder) where
  schema := [.leaf false .int32, .leaf false .int64]
  maxRowsPerBuffer := 4
  inMemoryBatches := [⟨1, none, .new 4⟩]
  currentBatchBuilder := [.leaf .int32 [], .leaf .int64 []]
  currentRows := []
  currentRowCount := 0
  batchIdCounter := .new true

/-- The store after a row whose second value is rejected. -/
def halfAppended : ColumnStoreBuffer (List ColumnArrayBuilder) :=
  { twoColumns with currentBatchBuilder := [.leaf .int32 [.int32 1], .leaf .int64 []] }

/-- The first value of a rejected row stays, and no batch can be finished with the rows that follow. -/
theorem rejectedRow_half_appended :
    twoColumns.appendRow heldBatch [.int32 1, .bool true] = .ok (.error (.append .typeMismatch), halfAppended) ∧
    halfAppended ≠ twoColumns ∧
    halfAppended.currentBatchBuilder.map ColumnArrayBuilder.len = [1, 0] ∧ halfAppended.currentRowCount = 0 ∧
    (do
      let (_, s) ← halfAppended.appendRow heldBatch [.int32 3, .int64 5]
      return (← s.finalizeCurrentBatch heldBatch).1) = .ok (.error (.recordBatch ())) := by
  refine ⟨rfl, fun heq => ?_, rfl, rfl, rfl⟩
  have hbuilders := congrArg ColumnStoreBuffer.currentBatchBuilder heq
  cases hbuilders

/-- A row whose first value is rejected leaves no trace. -/
theorem rejectedRow_unchanged_iff_first :
    ∃ e s', twoColumns.appendRow heldBatch [.bool true, .int64 5] = .ok (.error e, s') ∧ s' = twoColumns := by
  have h : twoColumns.appendRow heldBatch [.bool true, .int64 5] =
      .ok (.error (.append .typeMismatch), twoColumns) := rfl
  refine ⟨.append .typeMismatch, twoColumns, h, ?_⟩
  refine ((rejectedRow_unchanged_iff heldBatch (fun key _ location => ((key, location) :: ·)) _).1 _ _ _ h).mpr ?_
  exact .inl ⟨fun hfull => hfull.2 rfl, rfl⟩

end Moonlink.Row
