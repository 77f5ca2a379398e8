-- SUMMARY: When the comparisons of an identity with a row in memory, in a batch and in a file agree.
import Moonlink.Row.Cells

namespace Moonlink.Row

open Lib

/-! ## Rows of batches and of files -/

/-- Every column of rows is built. -/
def buildColumns : List Field → List (List RowValue) → Except ArrayPanic (Except AppendError (List ColumnArray))
  | [], _ => return .ok []
  | f :: fs, rows => do
    match ← buildColumn f (rows.map (·.headD .null)) with
    | .error e => return .error e
    | .ok a =>
      match ← buildColumns fs (rows.map List.tail) with
      | .error e => return .error e
      | .ok as => return .ok (a :: as)

/-- The row of columns at an index. -/
def readRow (arrays : List ColumnArray) (i : Nat) : Option (List RowValue) := arrays.mapM (·.read[i]?)

/-- A batch with columns that were built from rows, and one of its rows. -/
structure RecordBatch.Stores (batch : RecordBatch) (fs : List Field) (offset : Nat) (s : List RowValue) : Prop where
  built : ∃ rows arrays, (∀ row ∈ rows, Field.AllHave fs row) ∧ buildColumns fs rows = .ok (.ok arrays) ∧
    batch = { columns := ArrayRef.allBuilt fs arrays, numRows := rows.length } ∧ readRow arrays offset = some s
  inBatch : offset < batch.numRows

/-- What is promised of the reader of a file, whose row groups have the rows `groups`: a projected
row has the cells of its columns. -/
structure ParquetFile.Reads (file : ParquetFile) (groups : List (List (List Cell))) : Prop where
  rowGroups : file.rowGroups = groups.map List.length
  row : ∀ rowGroup offset rows cells roots, groups[rowGroup]? = some rows → rows[offset]? = some cells →
    (∀ k ∈ roots, k < cells.length) → ∃ batch, file.read rowGroup offset roots = some batch ∧
      batch.numRows = 1 ∧ ArrayRef.cells? batch.columns 0 = some (roots.filterMap (cells[·]?))

/-- One of the rows of a file, with its cells. -/
structure ParquetFile.Stores (file : ParquetFile) (position : Nat) (s : List RowValue) (cells : List Cell) : Prop where
  reads : ∃ groups, file.Reads groups ∧ groups.flatten[position]? = some cells
  numColumns : cells.length = file.numColumns
  values : Cell.values cells = s

namespace IdentityProp

/-- The columns of the identity. -/
def columns {α : Type} (identity : IdentityProp) (row : List α) : List α :=
  match identity with
  | keys columns => columns.filterMap (row[·]?)
  | _ => row

end IdentityProp

variable {as : List ArrayRef}

variable {indices : List Nat}

variable {fs : List Field}

theorem buildColumns_cons {f : Field} {rows : List (List RowValue)} {arrays : List ColumnArray}
    (h : buildColumns (f :: fs) rows = .ok (.ok arrays)) : ∃ a as, arrays = a :: as ∧
      buildColumn f (rows.map (·.headD .null)) = .ok (.ok a) ∧ buildColumns fs (rows.map List.tail) = .ok (.ok as) := by
  rw [buildColumns] at h
  obtain ⟨column, hcolumn, h⟩ := bind_eq_ok.mp h
  cases column with
  | error e => cases h
  | ok a =>
    obtain ⟨rest, hrest, h⟩ := bind_eq_ok.mp h
    cases rest with
    | error e => cases h
    | ok as =>
      cases h
      exact ⟨a, as, rfl, hcolumn, hrest⟩

theorem cell?_buildColumn {f : Field} (hf : f.Supported) {vs : List RowValue} (hvs : ∀ v ∈ vs, f.Has v)
    {a : ColumnArray} (h : buildColumn f vs = .ok (.ok a)) {i : Nat} {w : RowValue} (hw : a.read[i]? = some w) :
    (ArrayRef.built f a).cell? i = some (.stored f w) := by
  have happend := appendItems_built (fun ws w => appendValue_built f ws w) [] hvs
  unfold buildColumn at h
  rw [new_eq f hf, ok_bind, happend] at h
  obtain ⟨a', hfinish, heq⟩ := bind_eq_ok.mp h
  cases heq
  exact cell?_built f vs hvs a hfinish i w hw

theorem cells?_readRow (hfs : Field.AllSupported fs) {rows : List (List RowValue)}
    (hrows : ∀ row ∈ rows, Field.AllHave fs row) {arrays : List ColumnArray}
    (h : buildColumns fs rows = .ok (.ok arrays)) {i : Nat} {s : List RowValue} (hs : readRow arrays i = some s) :
    s.length = fs.length ∧ ArrayRef.cells? (ArrayRef.allBuilt fs arrays) i = some (Cell.storedRow fs s) := by
  induction fs generalizing rows arrays s with
  | nil =>
    cases h
    cases hs
    exact ⟨rfl, rfl⟩
  | cons f fs ih =>
    obtain ⟨hf, hfs⟩ := hfs
    obtain ⟨a, as, rfl, hcolumn, hrest⟩ := buildColumns_cons h
    rw [readRow, List.mapM_cons] at hs
    obtain ⟨w, hw, hs⟩ := Option.bind_eq_some_iff.mp hs
    obtain ⟨ws, hws, heq⟩ := Option.bind_eq_some_iff.mp hs
    cases heq
    have hvs : ∀ v ∈ rows.map (·.headD .null), f.Has v := by
      rw [List.forall_mem_map]
      intro row hrow
      obtain ⟨v, rest, rfl, hv, -, -⟩ := hrows row hrow
      exact hv
    have hrows' : ∀ row ∈ rows.map List.tail, Field.AllHave fs row := by
      rw [List.forall_mem_map]
      intro row hrow
      obtain ⟨v, rest, rfl, -, -, hrest⟩ := hrows row hrow
      exact hrest
    obtain ⟨hlength, hcells⟩ := ih hfs hrows' hrest hws
    refine ⟨by rw [List.length_cons, hlength, List.length_cons], ?_⟩
    rw [ArrayRef.allBuilt, ArrayRef.cells?, cell?_buildColumn hf hvs hcolumn hw, hcells]
    rfl

variable {cells : List Cell}

/-- The stored cells show the values exactly if the values are equal to those of the columns. -/
structure Tells (cells : List Cell) (values columns : List RowValue) : Prop where
  complete : Cell.anyAborts cells values = false
  exact : Cell.allShow cells values = RowValue.allEq values columns

variable {identity : IdentityProp}

theorem Cell.AllOf.length {cs : List Cell} (h : Cell.AllOf fs cs) : cs.length = fs.length := by
  induction fs generalizing cs with
  | nil =>
    rw [h]
    rfl
  | cons f fs ih =>
    obtain ⟨c, rest, rfl, -, hrest⟩ := h
    rw [List.length_cons, List.length_cons, ih hrest]

/-- A different identity is not taken for that of the cells: a value is of a type that is not compared, or differs
from the cell also if the content under a null is read, and no list meets a map before that. -/
def Rejects (fs : List Field) (cells : List Cell) (values : List RowValue) : Prop :=
  ¬ (Field.allNative fs values = true ∧ Cell.allAlike cells values = true) ∧ Cell.anyAborts cells values = false

theorem tells_iff {values columns : List RowValue} (hcells : Cell.AllOf fs cells) :
    Tells cells values columns ↔
      if RowValue.allEq values columns then Field.allNative fs values = true ∧ Cell.allAlike cells values = true
      else Rejects fs cells values := by
  have hshow := Cell.allShow_iff fs hcells values
  split
  next hequal =>
    rw [← hshow]
    exact ⟨fun h => h.exact.trans hequal, fun h => ⟨Cell.anyAborts_of_allShow _ _ h, h.trans hequal.symm⟩⟩
  next hdiffer =>
    rw [Rejects, ← hshow, Bool.not_eq_true]
    rw [Bool.not_eq_true] at hdiffer
    exact ⟨fun h => ⟨h.exact.trans hdiffer, h.complete⟩, fun h => ⟨h.2, h.1.trans hdiffer.symm⟩⟩

/-- In a built batch, an equal identity is found if no part of it has a type that is not compared. -/
theorem tells_storedRow_iff {values columns : List RowValue} (hcolumns : Field.AllHave fs columns) :
    Tells (Cell.storedRow fs columns) values columns ↔
      if RowValue.allEq values columns then Field.allNative fs values = true
      else Rejects fs (Cell.storedRow fs columns) values := by
  obtain ⟨hof, halike⟩ := Cell.storedRow_spec fs hcolumns
  rw [tells_iff hof]
  split
  next hequal => exact and_iff_left (halike values hequal)
  next => exact Iff.rfl

end Moonlink.Row
