-- SUMMARY: What a comparison sees of a stored value, in arrays that were built and in any others.
import Moonlink.Row.ColumnArraySpec
import Moonlink.Row.Identity

namespace Moonlink.Row

open Lib

/-! ## Cells -/

inductive Cell where
  | leaf (type : LeafType) (slot : Slot)
  | list (kind : ListKind) (valid : Bool) (items : List Cell)
  | struct (valid : Bool) (fields : List Cell)

mutual
def ArrayRef.cell? : ArrayRef → Nat → Option Cell
  | .leaf type slots, idx => (slots[idx]?).map (.leaf type)
  | .list kind offsets nulls values, idx =>
    match nulls[idx]?, offsets[idx]?, offsets[idx + 1]? with
    | some true, some start, some stop => do
      return .list kind true (← (List.range' start.toNat (stop.toNat - start.toNat)).mapM values.cell?)
    | some false, _, _ => some (.list kind false [])
    | _, _, _ => none
  | .struct children nulls, idx =>
    match nulls[idx]? with
    | some true => do return .struct true (← ArrayRef.cells? children idx)
    | some false => some (.struct false [])
    | none => none
def ArrayRef.cells? : List ArrayRef → Nat → Option (List Cell)
  | [], _ => some []
  | column :: columns, idx => do return (← column.cell? idx) :: (← ArrayRef.cells? columns idx)
end

namespace Cell

def valid : Cell → Bool
  | leaf _ slot => slot.valid
  | list _ valid _ => valid
  | struct valid _ => valid

mutual
def value : Cell → RowValue
  | leaf _ slot => if slot.valid then slot.content else .null
  | list _ valid items => if valid then .array (values items) else .null
  | struct valid fields => if valid then .struct (values fields) else .null
def values : List Cell → List RowValue
  | [] => []
  | c :: cs => c.value :: values cs
end

mutual
/-- Every leaf of the value lies on a slot of the type that is asked for, with the same content. -/
def shows : Cell → RowValue → Bool
  | c, .null => !c.valid
  | list .list valid cells, .array items => valid && items.length == cells.length && allShow cells items
  | struct valid cells, .struct vals => valid && vals.length == cells.length && allShow cells vals
  | leaf type slot, v => v.downcasts type && slot.content.eq v
  | _, _ => false
def allShow : List Cell → List RowValue → Bool
  | c :: cs, v :: vs => c.shows v && allShow cs vs
  | _, _ => true
end

mutual
/-- A list of the value lies on something else than a list, and what comes before it is shown. -/
def aborts : Cell → RowValue → Bool
  | list .list valid cells, .array items => valid && items.length == cells.length && anyAborts cells items
  | _, .array _ => true
  | struct valid cells, .struct vals => valid && vals.length == cells.length && anyAborts cells vals
  | _, _ => false
def anyAborts : List Cell → List RowValue → Bool
  | c :: cs, v :: vs => c.aborts v || (c.shows v && anyAborts cs vs)
  | _, _ => false
end

end Cell

/-! ## Answers -/

/-- The answer for a cell. -/
def answer (aborts shows : Bool) : Except ComparePanic Bool :=
  if aborts then .error .unsupportedList else .ok shows

theorem answer_bind (aborts shows aborts' shows' : Bool) :
    (do if ← answer aborts shows then answer aborts' shows' else return false) =
      answer (aborts || (shows && aborts')) (shows && shows') := by
  cases aborts <;> cases shows <;> rfl

variable {offsets : List Int} {nulls : List Bool} {i : Nat}

/-- The cell of a list, which has its items unless it is null. -/
theorem cell?_list {kind : ListKind} {values : ArrayRef} {c : Cell}
    (h : (ArrayRef.list kind offsets nulls values).cell? i = some c) :
    (∃ start stop cells, nulls[i]? = some true ∧ offsets[i]? = some start ∧ offsets[i + 1]? = some stop ∧
      (List.range' start.toNat (stop.toNat - start.toNat)).mapM values.cell? = some cells ∧
      c = .list kind true cells) ∨ nulls[i]? = some false ∧ c = .list kind false [] := by
  rw [ArrayRef.cell?] at h
  split at h
  case h_1 start stop hvalid hstart hstop =>
    obtain ⟨cells, hcells, heq⟩ := Option.bind_eq_some_iff.mp h
    cases heq
    exact .inl ⟨start, stop, cells, hvalid, hstart, hstop, hcells, rfl⟩
  case h_2 hnull =>
    cases h
    exact .inr ⟨hnull, rfl⟩
  case h_3 => cases h

theorem cell?_struct {children : List ArrayRef} {c : Cell}
    (h : (ArrayRef.struct children nulls).cell? i = some c) :
    (∃ cells, nulls[i]? = some true ∧ ArrayRef.cells? children i = some cells ∧ c = .struct true cells) ∨
      nulls[i]? = some false ∧ c = .struct false [] := by
  rw [ArrayRef.cell?] at h
  split at h
  case h_1 hvalid =>
    obtain ⟨cells, hcells, heq⟩ := Option.bind_eq_some_iff.mp h
    cases heq
    exact .inl ⟨cells, hvalid, hcells, rfl⟩
  case h_2 hnull =>
    cases h
    exact .inr ⟨hnull, rfl⟩
  case h_3 => cases h

theorem nulls_of_cell? {a : ArrayRef} {c : Cell} (h : a.cell? i = some c) :
    a.nulls[i]? = some c.valid := by
  cases a with
  | leaf type slots =>
    obtain ⟨slot, hslot, rfl⟩ := Option.map_eq_some_iff.mp h
    rw [ArrayRef.nulls, List.getElem?_map, hslot]
    rfl
  | list kind offsets nulls values =>
    rcases cell?_list h with ⟨_, _, _, hvalid, -, -, -, rfl⟩ | ⟨hnull, rfl⟩
    · exact hvalid
    · exact hnull
  | struct children nulls =>
    rcases cell?_struct h with ⟨_, hvalid, -, rfl⟩ | ⟨hnull, rfl⟩
    · exact hvalid
    · exact hnull

theorem length_of_mapM {α β : Type} {f : α → Option β} {as : List α} {bs : List β} (h : as.mapM f = some bs) :
    bs.length = as.length := by
  induction as generalizing bs with
  | nil =>
    cases h
    rfl
  | cons a as ih =>
    rw [List.mapM_cons] at h
    obtain ⟨b, -, h⟩ := Option.bind_eq_some_iff.mp h
    obtain ⟨rest, hrest, heq⟩ := Option.bind_eq_some_iff.mp h
    cases heq
    rw [List.length_cons, List.length_cons, ih hrest]

theorem length_of_cells? {as : List ArrayRef} {cs : List Cell} (h : ArrayRef.cells? as i = some cs) :
    cs.length = as.length := by
  induction as generalizing cs with
  | nil =>
    cases h
    rfl
  | cons a as ih =>
    rw [ArrayRef.cells?] at h
    obtain ⟨c, -, h⟩ := Option.bind_eq_some_iff.mp h
    obtain ⟨rest, hrest, heq⟩ := Option.bind_eq_some_iff.mp h
    cases heq
    rw [List.length_cons, List.length_cons, ih hrest]

@[simp] theorem Cell.aborts_null (c : Cell) : c.aborts .null = false := by
  cases c with
  | list kind _ _ => cases kind <;> rfl
  | _ => rfl

/-- The comparison of the parts of a value, after that of their number. -/
theorem parts_answer (n m : Nat) (aborts shows : Bool) :
    (if n = m then answer aborts shows else .ok false) = answer (true && n == m && aborts) (true && n == m && shows) := by
  by_cases h : n = m
  · rw [if_pos h, beq_iff_eq.mpr h, Bool.and_self, Bool.true_and, Bool.true_and]
  · rw [if_neg h, beq_eq_false_iff_ne.mpr h]
    rfl

mutual
theorem valueMatchesColumn_eq (v : RowValue) (a : ArrayRef) (i : Nat) {c : Cell} (h : a.cell? i = some c) :
    valueMatchesColumn v a i = answer (c.aborts v) (c.shows v) :=
  match v with
  | .null => by
    rw [valueMatchesColumn, nulls_of_cell? h, Cell.aborts_null, Cell.shows]
    rfl
  | .array items => by
    cases a with
    | leaf type slots =>
      obtain ⟨slot, hslot, rfl⟩ := Option.map_eq_some_iff.mp h
      rfl
    | struct children nulls =>
      rcases cell?_struct h with ⟨_, -, -, rfl⟩ | ⟨-, rfl⟩
      · rfl
      · rfl
    | list kind offsets nulls values =>
      cases kind with
      | map => rcases cell?_list h with ⟨_, _, _, -, -, -, -, rfl⟩ | ⟨-, rfl⟩ <;> rfl
      | list =>
        rcases cell?_list h with ⟨start, stop, cells, hvalid, hstart, hstop, hcells, rfl⟩ | ⟨hnull, rfl⟩
        · have hlength := length_of_mapM hcells
          rw [List.length_range'] at hlength
          rw [valueMatchesColumn, hvalid, hstart, hstop, Cell.aborts, Cell.shows, ← parts_answer, hlength]
          simp only [eq_comm (a := stop.toNat - start.toNat)]
          by_cases heq : items.length = stop.toNat - start.toNat
          · rw [if_pos heq, if_pos heq]
            exact itemsMatch_eq items values start.toNat (heq ▸ hcells)
          · rw [if_neg heq, if_neg heq]
        · rw [valueMatchesColumn, hnull]
          rfl
  | .struct vals => by
    cases a with
    | leaf type slots =>
      obtain ⟨slot, hslot, rfl⟩ := Option.map_eq_some_iff.mp h
      cases type <;> rfl
    | list kind offsets nulls values =>
      rcases cell?_list h with ⟨_, _, _, -, -, -, -, rfl⟩ | ⟨-, rfl⟩ <;> cases kind <;> rfl
    | struct children nulls =>
      rcases cell?_struct h with ⟨cells, hvalid, hcells, rfl⟩ | ⟨hnull, rfl⟩
      · rw [valueMatchesColumn, hvalid, Cell.aborts, Cell.shows, ← parts_answer, length_of_cells? hcells]
        by_cases heq : vals.length = children.length
        · rw [if_pos heq, if_pos heq]
          exact fieldsMatch_eq vals children i hcells
        · rw [if_neg heq, if_neg heq]
      · rw [valueMatchesColumn, hnull]
        rfl
  | .int32 _ | .int64 _ | .float32 _ | .float64 _ | .decimal _ | .bool _ | .byteArray _ | .fixedLenByteArray _ => by
    cases a with
    | leaf type slots =>
      obtain ⟨slot, hslot, rfl⟩ := Option.map_eq_some_iff.mp h
      rw [valueMatchesColumn, hslot, Cell.shows, Cell.aborts]
      split
      case isTrue hdowncasts =>
        rw [hdowncasts]
        rfl
      case isFalse hdowncasts =>
        rw [Bool.eq_false_iff.mpr hdowncasts]
        rfl
      all_goals nofun
    | list kind offsets nulls values =>
      rcases cell?_list h with ⟨_, _, _, -, -, -, -, rfl⟩ | ⟨-, rfl⟩ <;> cases kind <;> rfl
    | struct children nulls =>
      rcases cell?_struct h with ⟨_, -, -, rfl⟩ | ⟨-, rfl⟩ <;> rfl
theorem itemsMatch_eq (vs : List RowValue) (a : ArrayRef) (i : Nat) {cs : List Cell}
    (h : (List.range' i vs.length).mapM a.cell? = some cs) :
    itemsMatch vs a i = answer (Cell.anyAborts cs vs) (Cell.allShow cs vs) :=
  match vs with
  | [] => by
    cases h
    rfl
  | v :: vs => by
    rw [List.length_cons, List.range'_succ, List.mapM_cons] at h
    obtain ⟨c, hc, h⟩ := Option.bind_eq_some_iff.mp h
    obtain ⟨rest, hrest, heq⟩ := Option.bind_eq_some_iff.mp h
    cases heq
    rw [itemsMatch, valueMatchesColumn_eq v a i hc, itemsMatch_eq vs a (i + 1) hrest, answer_bind]
    rfl
theorem fieldsMatch_eq (vs : List RowValue) (as : List ArrayRef) (i : Nat) {cs : List Cell}
    (h : ArrayRef.cells? as i = some cs) :
    fieldsMatch vs as i = answer (Cell.anyAborts cs vs) (Cell.allShow cs vs) :=
  match vs, as with
  | [], _ => by
    cases cs <;> rfl
  | _ :: _, [] => by
    cases h
    rfl
  | v :: vs, a :: as => by
    rw [ArrayRef.cells?] at h
    obtain ⟨c, hc, h⟩ := Option.bind_eq_some_iff.mp h
    obtain ⟨rest, hrest, heq⟩ := Option.bind_eq_some_iff.mp h
    cases heq
    rw [fieldsMatch, valueMatchesColumn_eq v a i hc, fieldsMatch_eq vs as i hrest, answer_bind]
    rfl
end

/-! ## Arrays that were built -/

mutual
/-- The cell of a value that was appended to a column. -/
def Cell.stored : Field → RowValue → Cell
  | .leaf _ type, v => .leaf type (type.slot v)
  | .list kind _ item, .array items => .list kind true (items.map (stored item))
  | .list kind _ _, _ => .list kind false []
  | .struct _ fields, .struct vals => .struct true (storedRow fields vals)
  | .struct _ _, _ => .struct false []
def Cell.storedRow : List Field → List RowValue → List Cell
  | f :: fs, v :: vs => stored f v :: storedRow fs vs
  | _, _ => []
end

theorem newList_bounded {kind : ListKind} {field : Field} {values : ColumnArray}
    : Ensures (ColumnArray.newList kind field offsets values nulls) fun a =>
      a = .list offsets nulls values ∧ offsets.IsChain (· ≤ ·) ∧ (offsets.getLastD 0).toNat ≤ values.len := by
  intro a ha
  obtain ⟨rfl, hchain⟩ := newList_ensures a ha
  refine ⟨rfl, hchain, ?_⟩
  unfold ColumnArray.newList at ha
  obtain ⟨_, -, ha⟩ := bind_eq_ok.mp ha
  obtain ⟨_, hlast, -⟩ := bind_eq_ok.mp ha
  unfold ArrayPanic.assert at hlast
  split at hlast
  case isTrue hle => exact of_decide_eq_true hle
  case isFalse => cases hlast

theorem slices_getElem? {values items : List RowValue}
    (h : (slices values offsets)[i]? = some items) : ∃ start stop, offsets[i]? = some start ∧
      offsets[i + 1]? = some stop ∧ items = (values.drop start.toNat).take (stop.toNat - start.toNat) := by
  induction offsets generalizing i with
  | nil => cases h
  | cons start rest ih =>
    cases rest with
    | nil => cases h
    | cons stop rest =>
      cases i with
      | zero =>
        cases h
        exact ⟨start, stop, rfl, rfl, rfl⟩
      | succ i => exact ih h

/-- Consecutive offsets do not decrease, and none exceeds the last. -/
theorem offsets_le (hchain : offsets.IsChain (· ≤ ·)) {start stop : Int}
    (hstart : offsets[i]? = some start) (hstop : offsets[i + 1]? = some stop) :
    start ≤ stop ∧ stop ≤ offsets.getLastD 0 := by
  obtain ⟨_, rfl⟩ := List.getElem?_eq_some_iff.mp hstart
  obtain ⟨hlt, rfl⟩ := List.getElem?_eq_some_iff.mp hstop
  refine ⟨hchain.getElem i hlt, ?_⟩
  have hne : offsets ≠ [] := List.ne_nil_of_length_pos (by omega)
  rw [List.getLastD_eq_getLast?, List.getLast?_eq_some_getLast hne, Option.getD_some]
  exact (List.isChain_iff_pairwise.mp hchain).rel_getLast (List.getElem_mem hlt)

/-- The cells of consecutive values. -/
theorem mapM_range'_cell? {a : ArrayRef} {values : List RowValue} {g : RowValue → Cell}
    (hcell : ∀ j w, values[j]? = some w → a.cell? j = some (g w)) (start n : Nat) (h : start + n ≤ values.length) :
    (List.range' start n).mapM a.cell? = some (((values.drop start).take n).map g) := by
  induction n generalizing start with
  | zero => rw [List.take_zero]; rfl
  | succ n ih =>
    have hstart : start < values.length := by omega
    rw [List.range'_succ, List.mapM_cons, hcell start _ (List.getElem?_eq_getElem hstart),
      ih (start + 1) (by omega), List.drop_eq_getElem_cons hstart, List.take_succ_cons]
    rfl

theorem readRows_getElem? {as : List ColumnArray} {w : RowValue}
    (h : (ColumnArray.readRows as nulls)[i]? = some w) :
    (nulls[i]? = some true ∧ ∃ vals, w = .struct vals) ∨ nulls[i]? = some false ∧ w = .null := by
  induction as generalizing w with
  | nil =>
    rw [ColumnArray.readRows, List.getElem?_map] at h
    obtain ⟨valid, hvalid, rfl⟩ := Option.map_eq_some_iff.mp h
    cases valid with
    | true => exact .inl ⟨hvalid, [], rfl⟩
    | false => exact .inr ⟨hvalid, rfl⟩
  | cons a as ih =>
    rw [ColumnArray.readRows] at h
    obtain ⟨v, row, -, hrow, rfl⟩ := List.getElem?_zipWith_eq_some.mp h
    rcases ih hrow with ⟨hvalid, vals, rfl⟩ | ⟨hnull, rfl⟩
    · exact .inl ⟨hvalid, v :: vals, rfl⟩
    · exact .inr ⟨hnull, rfl⟩

mutual
/-- A place of a built array holds the cell of the value that is read there. -/
theorem cell?_built (f : Field) (vs : List RowValue) (h : ∀ v ∈ vs, f.Has v) :
    Ensures ((built f vs).finish f) fun a =>
      ∀ i w, a.read[i]? = some w → (ArrayRef.built f a).cell? i = some (.stored f w) :=
  match f with
  | .leaf _ type => by
    rw [finish_leaf h]
    refine .ok fun i w hw => ?_
    rw [ColumnArray.read] at hw
    rw [ArrayRef.built, ArrayRef.cell?, List.getElem?_map, hw]
    rfl
  | .list kind nullable item => by
    rw [built, ColumnArrayBuilder.finish]
    obtain ⟨-, hitems⟩ := Field.Has_list h
    have hhas : ∀ w ∈ vs.flatMap RowValue.items, item.Has w := fun w hw => (hitems w hw).1
    refine ((finish_nulls item _ hhas).and (cell?_built item _ hhas)).bind fun values hvalues => ?_
    obtain ⟨⟨hnulls, hread⟩, hcell⟩ := hvalues
    refine newList_bounded.mono ?_
    rintro _ ⟨rfl, hchain, hlast⟩ i w hw
    obtain ⟨valid, items, hvalid, hslice, rfl⟩ := List.getElem?_zipWith_eq_some.mp hw
    obtain ⟨start, stop, hstart, hstop, rfl⟩ := slices_getElem? hslice
    rw [ArrayRef.built, ArrayRef.cell?, hvalid, hstart, hstop]
    cases valid with
    | false => rfl
    | true =>
      have hlength : values.read.length = values.len := by
        rw [ColumnArray.len, hnulls, ← hread, List.length_map]
      have hle := offsets_le hchain hstart hstop
      have hcells := mapM_range'_cell? hcell start.toNat (stop.toNat - start.toNat) (by omega)
      simp only [hcells]
      rfl
  | .struct _ fields => by
    rw [built, ColumnArrayBuilder.finish]
    refine .bind (cells?_built fields vs h) fun as has => ?_
    refine .bind_any fun _ => .bind_any fun _ => .pure ?_
    intro i w hw
    rw [ColumnArray.read] at hw
    rw [ArrayRef.built, ArrayRef.cell?]
    rcases readRows_getElem? hw with ⟨hvalid, vals, rfl⟩ | ⟨hnull, rfl⟩
    · rw [hvalid]
      simp only [has _ i vals hw]
      rfl
    · rw [hnull]
      rfl
theorem cells?_built (fs : List Field) (vs : List RowValue) (h : ∀ v ∈ vs, IsRow fs v) :
    Ensures (ColumnArrayBuilder.finishFields (builtFields fs vs) fs) fun as =>
      ∀ nulls i vals, (ColumnArray.readRows as nulls)[i]? = some (.struct vals) →
        ArrayRef.cells? (ArrayRef.allBuilt fs as) i = some (Cell.storedRow fs vals) :=
  match fs with
  | [] => by
    refine .ok fun nulls i vals hvals => ?_
    rw [ColumnArray.readRows, List.getElem?_map] at hvals
    obtain ⟨valid, -, heq⟩ := Option.map_eq_some_iff.mp hvals
    cases valid with
    | false => cases heq
    | true => rfl
  | f :: fs => by
    rw [builtFields, ColumnArrayBuilder.finishFields]
    have hfirst : ∀ v ∈ vs.map RowValue.firstField, f.Has v := by
      rw [List.forall_mem_map]
      exact fun v hv => (h v hv).firstField.1
    have hrest : ∀ v ∈ vs.map RowValue.restFields, IsRow fs v := by
      rw [List.forall_mem_map]
      exact fun v hv => (h v hv).restFields.1
    refine .bind (cell?_built f _ hfirst) fun a ha => .bind (cells?_built fs _ hrest) fun as has => .pure ?_
    intro nulls i vals hvals
    rw [ColumnArray.readRows] at hvals
    obtain ⟨v, row, hv, hrow, heq⟩ := List.getElem?_zipWith_eq_some.mp hvals
    rcases readRows_getElem? hrow with ⟨-, rest, rfl⟩ | ⟨-, rfl⟩
    · cases heq
      rw [ArrayRef.allBuilt, ArrayRef.cells?, ha i v hv, has nulls i rest hrow]
      rfl
    · cases heq
end

/-! ## Stored rows -/

theorem storedRow_length {fs : List Field} {s : List RowValue} (h : s.length = fs.length) :
    (Cell.storedRow fs s).length = fs.length := by
  induction fs generalizing s with
  | nil => rfl
  | cons f fs ih =>
    cases s with
    | nil => cases h
    | cons v s => rw [Cell.storedRow, List.length_cons, ih (Nat.succ.inj h), List.length_cons]

theorem AllHave_length {fs : List Field} {row : List RowValue} (h : Field.AllHave fs row) :
    row.length = fs.length := by
  induction fs generalizing row with
  | nil =>
    rw [h]
    rfl
  | cons f fs ih =>
    obtain ⟨v, rest, rfl, -, -, hrest⟩ := h
    rw [List.length_cons, List.length_cons, ih hrest]

/-! ## What is found -/

mutual
/-- No part of the value is a 16-bit number, a date, a time, a timestamp or a map, which are not compared. -/
def Field.native : Field → RowValue → Bool
  | _, .null => true
  | .leaf _ type, v => v.downcasts type
  | .list kind _ item, .array items => kind == .list && items.all fun w => item.native w
  | .struct _ fields, .struct vals => Field.allNative fields vals
  | _, _ => false
def Field.allNative : List Field → List RowValue → Bool
  | f :: fs, v :: vs => f.native v && Field.allNative fs vs
  | _, _ => true
end

namespace Cell

mutual
/-- The value is that of the cell, but where the cell has a null it may be the content under it. -/
def alike : Cell → RowValue → Bool
  | c, .null => !c.valid
  | leaf _ slot, v => slot.content.eq v
  | list _ valid cells, .array items => valid && items.length == cells.length && allAlike cells items
  | struct valid cells, .struct vals => valid && vals.length == cells.length && allAlike cells vals
  | _, _ => false
def allAlike : List Cell → List RowValue → Bool
  | c :: cs, v :: vs => c.alike v && allAlike cs vs
  | _, _ => true
end

mutual
/-- The cell has the type of the field. -/
def IsOf : Field → Cell → Prop
  | .leaf _ type, .leaf type' slot => type' = type ∧ slot.content.isValid = true
  | .list kind _ item, .list kind' _ cells => kind' = kind ∧ ∀ c ∈ cells, IsOf item c
  | .struct _ fields, .struct valid cells => valid = true → AllOf fields cells
  | _, _ => False
def AllOf : List Field → List Cell → Prop
  | [], cs => cs = []
  | f :: fs, cs => ∃ c rest, cs = c :: rest ∧ IsOf f c ∧ AllOf fs rest
end

/-- The items of a list are of one field. -/
theorem allShow_items_iff {item : Field} {cs : List Cell} {vs : List RowValue}
    (hcell : ∀ c ∈ cs, ∀ v, c.shows v = true ↔ item.native v = true ∧ c.alike v = true)
    (hlength : vs.length = cs.length) :
    allShow cs vs = true ↔ (vs.all fun v => item.native v) = true ∧ allAlike cs vs = true := by
  induction cs generalizing vs with
  | nil =>
    rw [List.eq_nil_of_length_eq_zero hlength]
    exact ⟨fun _ => ⟨rfl, rfl⟩, fun _ => rfl⟩
  | cons c cs ih =>
    cases vs with
    | nil => cases hlength
    | cons v vs =>
      have hrest := ih (fun c hc => hcell c (List.mem_cons_of_mem _ hc)) (Nat.succ.inj hlength)
      rw [allShow, allAlike, List.all_cons, Bool.and_eq_true_iff, Bool.and_eq_true_iff, Bool.and_eq_true_iff,
        hcell c List.mem_cons_self v, hrest]
      tauto

mutual
/-- A value is shown where an alike value of a type that is compared is stored. -/
theorem shows_iff (f : Field) {c : Cell} (hc : IsOf f c) (v : RowValue) :
    c.shows v = true ↔ f.native v = true ∧ c.alike v = true :=
  match f, c with
  | .leaf _ type, .leaf type' slot => by
    obtain ⟨rfl, -⟩ := hc
    cases v with
    | null => exact ⟨fun h => ⟨rfl, h⟩, And.right⟩
    | array _ | struct _ => cases type' <;> exact ⟨nofun, fun h => (by cases h.1)⟩
    | _ => exact Bool.and_eq_true_iff
  | .list kind _ item, .list kind' valid cells => by
    obtain ⟨rfl, hitems⟩ := hc
    cases v with
    | null => cases kind' <;> exact ⟨fun h => ⟨rfl, h⟩, And.right⟩
    | array items =>
      cases kind' with
      | map => exact ⟨nofun, fun h => (by cases h.1)⟩
      | list =>
        by_cases hlength : items.length = cells.length
        · have hiff := allShow_items_iff (fun c hc => shows_iff item (hitems c hc)) hlength
          rw [shows, Field.native, alike, beq_self_eq_true, Bool.true_and, Bool.and_eq_true_iff, hiff,
            Bool.and_eq_true_iff (x := valid && _)]
          exact and_left_comm
        · rw [shows, Field.native, alike, beq_eq_false_iff_ne.mpr hlength]
          simp
    | _ => cases kind' <;> exact ⟨nofun, fun h => (by cases h.1)⟩
  | .struct _ fields, .struct valid cells => by
    cases v with
    | null => exact ⟨fun h => ⟨rfl, h⟩, And.right⟩
    | struct vals =>
      rw [shows, Field.native, alike]
      cases valid with
      | false => exact ⟨nofun, fun h => (by cases h.2)⟩
      | true =>
        rw [Bool.true_and, Bool.and_eq_true_iff, Bool.and_eq_true_iff, allShow_iff fields (hc rfl) vals]
        exact and_left_comm
    | _ => exact ⟨nofun, fun h => (by cases h.1)⟩
theorem allShow_iff (fs : List Field) {cs : List Cell} (hcs : AllOf fs cs) (vs : List RowValue) :
    allShow cs vs = true ↔ Field.allNative fs vs = true ∧ allAlike cs vs = true :=
  match fs, vs with
  | [], vs => by
    subst hcs
    cases vs <;> exact ⟨fun _ => ⟨rfl, rfl⟩, fun _ => rfl⟩
  | _ :: _, [] => by
    obtain ⟨c, rest, rfl, -, -⟩ := hcs
    exact ⟨fun _ => ⟨rfl, rfl⟩, fun _ => rfl⟩
  | f :: fs, v :: vs => by
    obtain ⟨c, rest, rfl, hc, hrest⟩ := hcs
    rw [allShow, Field.allNative, allAlike, Bool.and_eq_true_iff, Bool.and_eq_true_iff, Bool.and_eq_true_iff,
      shows_iff f hc v, allShow_iff fs hrest vs]
    tauto
end

mutual
/-- What is shown is compared without a panic. -/
theorem aborts_of_shows (c : Cell) (v : RowValue) (h : c.shows v = true) : c.aborts v = false :=
  match c, v with
  | .leaf type _, v => by
    cases v with
    | array _ => cases type <;> cases h
    | _ => rfl
  | .list kind _ cells, v => by
    cases kind with
    | map => cases v <;> first | rfl | cases h
    | list =>
      cases v with
      | array items =>
        rw [shows, Bool.and_eq_true_iff] at h
        rw [aborts, anyAborts_of_allShow cells items h.2, Bool.and_false]
      | _ => rfl
  | .struct _ cells, v => by
    cases v with
    | array _ => cases h
    | struct vals =>
      rw [shows, Bool.and_eq_true_iff] at h
      rw [aborts, anyAborts_of_allShow cells vals h.2, Bool.and_false]
    | _ => rfl
theorem anyAborts_of_allShow (cs : List Cell) (vs : List RowValue) (h : allShow cs vs = true) :
    anyAborts cs vs = false :=
  match cs, vs with
  | [], _ => rfl
  | _ :: _, [] => rfl
  | c :: cs, v :: vs => by
    obtain ⟨hv, hvs⟩ := Bool.and_eq_true_iff.mp h
    rw [anyAborts, aborts_of_shows c v hv, anyAborts_of_allShow cs vs hvs, Bool.and_false, Bool.or_false]
end

end Cell

/-! ## Equal values -/

theorem f32Eq_comm (a b : UInt32) : f32Eq a b = f32Eq b a := by
  rw [f32Eq, f32Eq, UInt32.or_comm, BEq.comm, Bool.and_comm (a &&& _ ≤ _)]

theorem f64Eq_comm (a b : UInt64) : f64Eq a b = f64Eq b a := by
  rw [f64Eq, f64Eq, UInt64.or_comm, BEq.comm, Bool.and_comm (a &&& _ ≤ _)]

mutual
theorem RowValue.eq_comm (v w : RowValue) : v.eq w = w.eq v :=
  match v with
  | .array xs => by
    cases w with
    | array ys => exact RowValue.allEq_comm xs ys
    | _ => rfl
  | .struct xs => by
    cases w with
    | struct ys => exact RowValue.allEq_comm xs ys
    | _ => rfl
  | .float32 x => by
    cases w with
    | float32 y => exact f32Eq_comm x y
    | _ => rfl
  | .float64 x => by
    cases w with
    | float64 y => exact f64Eq_comm x y
    | _ => rfl
  | .int32 _ | .int64 _ | .decimal _ | .bool _ | .byteArray _ | .fixedLenByteArray _ | .null => by
    cases w <;> first | rfl | exact BEq.comm
theorem RowValue.allEq_comm (vs ws : List RowValue) : RowValue.allEq vs ws = RowValue.allEq ws vs :=
  match vs, ws with
  | [], [] => rfl
  | [], _ :: _ => rfl
  | _ :: _, [] => rfl
  | v :: vs, w :: ws => by
    rw [RowValue.allEq, RowValue.allEq, RowValue.eq_comm v w, RowValue.allEq_comm vs ws]
end

theorem length_of_allEq {vs ws : List RowValue} (h : RowValue.allEq vs ws = true) : vs.length = ws.length := by
  induction vs generalizing ws with
  | nil =>
    cases ws with
    | nil => rfl
    | cons _ _ => cases h
  | cons v vs ih =>
    cases ws with
    | nil => cases h
    | cons w ws => rw [List.length_cons, List.length_cons, ih (Bool.and_eq_true_iff.mp h).2]

namespace Cell

/-- The items of a list that were stored. -/
theorem allAlike_items {item : Field} {ws : List RowValue}
    (hcell : ∀ w ∈ ws, ∀ v, v.eq w = true → (stored item w).alike v = true) {vs : List RowValue}
    (h : RowValue.allEq vs ws = true) : allAlike (ws.map (stored item)) vs = true := by
  induction ws generalizing vs with
  | nil => cases vs <;> rfl
  | cons w ws ih =>
    cases vs with
    | nil => cases h
    | cons v vs =>
      obtain ⟨hv, hvs⟩ := Bool.and_eq_true_iff.mp h
      rw [List.map_cons, allAlike, hcell w List.mem_cons_self v hv,
        ih (fun w hw => hcell w (List.mem_cons_of_mem _ hw)) hvs]
      rfl

mutual
/-- The cell of a stored value is alike all values that are equal to it. -/
theorem stored_spec (f : Field) {w : RowValue} (hw : f.Has w) :
    IsOf f (stored f w) ∧ ∀ v, v.eq w = true → (stored f w).alike v = true :=
  match f with
  | .leaf _ type => by
    cases w with
    | null =>
      refine ⟨⟨rfl, ?_⟩, fun v h => ?_⟩
      · cases type with
        | fixedSizeBinary n =>
          show (ite _ _ _ : RowValue).isValid = true
          split <;> rfl
        | _ => rfl
      · cases v with
        | null => rfl
        | _ => cases h
    | _ =>
      refine ⟨⟨rfl, rfl⟩, fun v h => ?_⟩
      cases v with
      | null => cases h
      | _ => exact (RowValue.eq_comm _ _).trans h
  | .list kind _ item => by
    rcases hw with rfl | ⟨ws, rfl, hws⟩
    · refine ⟨⟨rfl, nofun⟩, fun v h => ?_⟩
      cases v with
      | null => rfl
      | _ => cases h
    · refine ⟨⟨rfl, List.forall_mem_map.mpr fun w hw => (stored_spec item (hws w hw).1).1⟩, fun v h => ?_⟩
      cases v with
      | array vs =>
        have hlength : (vs.length == (ws.map (stored item)).length) = true := by
          rw [List.length_map]
          exact beq_iff_eq.mpr (length_of_allEq h)
        rw [stored, alike, hlength, allAlike_items (fun w hw => (stored_spec item (hws w hw).1).2) h]
        rfl
      | _ => cases h
  | .struct _ fields => by
    rcases hw with rfl | ⟨ws, rfl, hws⟩
    · refine ⟨nofun, fun v h => ?_⟩
      cases v with
      | null => rfl
      | _ => cases h
    · obtain ⟨hof, halike⟩ := storedRow_spec fields hws
      refine ⟨fun _ => hof, fun v h => ?_⟩
      cases v with
      | struct vs =>
        have hlength : (vs.length == (storedRow fields ws).length) = true := by
          rw [storedRow_length (AllHave_length hws), ← AllHave_length hws]
          exact beq_iff_eq.mpr (length_of_allEq h)
        rw [stored, alike, hlength, halike vs h]
        rfl
      | _ => cases h
theorem storedRow_spec (fs : List Field) {ws : List RowValue} (hws : Field.AllHave fs ws) :
    AllOf fs (storedRow fs ws) ∧ ∀ vs, RowValue.allEq vs ws = true → allAlike (storedRow fs ws) vs = true :=
  match fs with
  | [] => by
    refine ⟨rfl, fun vs _ => ?_⟩
    cases vs <;> rfl
  | f :: fs => by
    obtain ⟨w, rest, rfl, hw, -, hrest⟩ := hws
    obtain ⟨hof, halike⟩ := stored_spec f hw
    obtain ⟨hofs, halikes⟩ := storedRow_spec fs hrest
    refine ⟨⟨_, _, rfl, hof, hofs⟩, fun vs h => ?_⟩
    cases vs with
    | nil => rfl
    | cons v vs =>
      obtain ⟨hv, hvs⟩ := Bool.and_eq_true_iff.mp h
      rw [storedRow, allAlike, halike v hv, halikes vs hvs]
      rfl
end

end Cell

end Moonlink.Row
