-- SUMMARY: The identity of a row, and its comparison with a row in memory, in a record batch and in a Parquet file.
import Moonlink.Row.ColumnArray

/-!
# Identity comparison

A deletion carries the identity of its row: the key columns, or all columns. The rows that
share its lookup key are compared with it in the form that they have: the values of the row, a
place in the columns of a record batch, or a row that is read from a Parquet file with only the
identity columns.

A comparison looks at the type of a column and at the content of its slots. The slot of a null
has a content as well, which is the default of its type in an array that was built.
-/

namespace Moonlink.Row

open Lib

inductive ComparePanic where
  /-- "Single primitive key should not need any identity check", and the same for no identity. -/
  | noIdentityCheck
  /-- `is_extracted_identity_row`. -/
  | notExtracted
  /-- `offset < batch.num_rows()`. -/
  | offset
  /-- `batch.project(..).unwrap()`. -/
  | projection
  | indexOutOfBounds
  /-- "Failed to parse column into supported Arrow list type". -/
  | unsupportedList
  /-- Reading a row of a Parquet file. -/
  | parquet
  deriving DecidableEq, Repr

/-! ## Values -/

/-- The equality of `f32`: a NaN equals nothing, and the zeros are equal. -/
def f32Eq (a b : UInt32) : Bool :=
  a &&& 0x7fffffff ≤ 0x7f800000 && b &&& 0x7fffffff ≤ 0x7f800000 && (a == b || (a ||| b) &&& 0x7fffffff == 0)

def f64Eq (a b : UInt64) : Bool :=
  a &&& 0x7fffffffffffffff ≤ 0x7ff0000000000000 && b &&& 0x7fffffffffffffff ≤ 0x7ff0000000000000 &&
    (a == b || (a ||| b) &&& 0x7fffffffffffffff == 0)

namespace RowValue

mutual
/-- The derived `==`. -/
def eq : RowValue → RowValue → Bool
  | int32 x, int32 y => x == y
  | int64 x, int64 y => x == y
  | float32 x, float32 y => f32Eq x y
  | float64 x, float64 y => f64Eq x y
  | decimal x, decimal y => x == y
  | bool x, bool y => x == y
  | byteArray x, byteArray y => x.data == y.data
  | fixedLenByteArray x, fixedLenByteArray y => x == y
  | array xs, array ys => allEq xs ys
  | struct xs, struct ys => allEq xs ys
  | null, null => true
  | _, _ => false
def allEq : List RowValue → List RowValue → Bool
  | [], [] => true
  | x :: xs, y :: ys => x.eq y && allEq xs ys
  | _, _ => false
end

/-- The array types to which a column is downcast for a value. -/
def downcasts : RowValue → LeafType → Bool
  | int32 _, .int32 => true
  | int64 _, .int64 => true
  | float32 _, .float32 => true
  | float64 _, .float64 => true
  | decimal _, .decimal128 => true
  | bool _, .boolean => true
  | byteArray _, .binary | byteArray _, .utf8 => true
  | fixedLenByteArray _, .fixedSizeBinary _ => true
  | _, _ => false

end RowValue

/-! ## Arrays -/

/-- A slot of a leaf array. -/
structure Slot where
  valid : Bool
  content : RowValue

inductive ArrayRef where
  | leaf (type : LeafType) (slots : List Slot)
  | list (kind : ListKind) (offsets : List Int) (nulls : List Bool) (values : ArrayRef)
  | struct (children : List ArrayRef) (nulls : List Bool)

/-- What the builder of a leaf appends for a null. -/
def LeafType.default : LeafType → RowValue
  | boolean => .bool false
  | int16 | int32 | date32 => .int32 0
  | timestamp | int64 | time64 => .int64 0
  | float32 => .float32 0
  | float64 => .float64 0
  | decimal128 => .decimal 0
  | utf8 | binary => .byteArray ⟨#[]⟩
  | fixedSizeBinary n => if n = 16 then .fixedLenByteArray (Vector.replicate 16 0) else .byteArray ⟨Array.replicate n 0⟩

def LeafType.slot (type : LeafType) : RowValue → Slot
  | .null => { valid := false, content := type.default }
  | v => { valid := true, content := v }

namespace ArrayRef

mutual
/-- An array that was built for a field. -/
def built : Field → ColumnArray → ArrayRef
  | .leaf _ type, .leaf values => .leaf type (values.map type.slot)
  | .list kind _ item, .list offsets nulls values => .list kind offsets nulls (built item values)
  | .struct _ fields, .struct children nulls => .struct (allBuilt fields children) nulls
  | _, _ => .struct [] []
def allBuilt : List Field → List ColumnArray → List ArrayRef
  | f :: fs, a :: as => built f a :: allBuilt fs as
  | _, _ => []
end

def nulls : ArrayRef → List Bool
  | leaf _ slots => slots.map Slot.valid
  | list _ _ nulls _ => nulls
  | struct _ nulls => nulls

end ArrayRef

structure RecordBatch where
  columns : List ArrayRef
  numRows : Nat

def RecordBatch.project (batch : RecordBatch) (indices : List Nat) : Option RecordBatch := do
  return { batch with columns := ← indices.mapM (batch.columns[·]?) }

/-! ## Identities -/

inductive IdentityProp where
  | singlePrimitiveKey (column : Nat)
  | keys (columns : List Nat)
  | fullRow
  | none
  deriving DecidableEq, Repr

namespace IdentityProp

def getKeyIndices (identity : IdentityProp) (colNum : Nat) : Except ComparePanic (List Nat) :=
  match identity with
  | singlePrimitiveKey column => .ok [column]
  | keys columns => .ok columns
  | fullRow => .ok (List.range colNum)
  | none => .error .noIdentityCheck

/-- The key columns are taken out of the row one after the other. -/
def takeColumns : List Nat → List RowValue → Except ComparePanic (List RowValue)
  | [], _ => .ok []
  | k :: ks, row =>
    match row[k]? with
    | .none => .error .indexOutOfBounds
    | some v => return v :: (← takeColumns ks (row.set k .null))

def extractIdentityColumns (identity : IdentityProp) (row : List RowValue) :
    Except ComparePanic (Option (List RowValue)) :=
  match identity with
  | singlePrimitiveKey _ => .ok .none
  | keys columns => return some (← takeColumns columns row)
  | fullRow => .ok (some row)
  | none => .error .noIdentityCheck

def isExtractedIdentityRow (identity : IdentityProp) (values : List RowValue) : Except ComparePanic Bool :=
  match identity with
  | keys columns => .ok (values.length = columns.length)
  | fullRow => .ok true
  | _ => .error .noIdentityCheck

end IdentityProp

/-! ## Comparisons -/

mutual
def valueMatchesColumn : RowValue → ArrayRef → Nat → Except ComparePanic Bool
  | .null, column, idx =>
    match column.nulls[idx]? with
    | some valid => .ok (!valid)
    | none => .error .indexOutOfBounds
  | .array items, .list .list offsets nulls values, idx =>
    match nulls[idx]?, offsets[idx]?, offsets[idx + 1]? with
    | some true, some start, some stop =>
      if stop.toNat - start.toNat = items.length then itemsMatch items values start.toNat else .ok false
    | some false, _, _ => .ok false
    | _, _, _ => .error .indexOutOfBounds
  | .array _, _, _ => .error .unsupportedList
  | .struct vals, .struct children nulls, idx =>
    match nulls[idx]? with
    | some true => if vals.length = children.length then fieldsMatch vals children idx else .ok false
    | some false => .ok false
    | none => .error .indexOutOfBounds
  | v, .leaf type slots, idx =>
    if v.downcasts type then
      match slots[idx]? with
      | some slot => .ok (slot.content.eq v)
      | none => .error .indexOutOfBounds
    else .ok false
  | _, _, _ => .ok false
def itemsMatch : List RowValue → ArrayRef → Nat → Except ComparePanic Bool
  | [], _, _ => .ok true
  | v :: vs, child, i => do
    if ← valueMatchesColumn v child i then itemsMatch vs child (i + 1) else return false
/-- Also the comparison of the values of a row with the columns of a batch. -/
def fieldsMatch : List RowValue → List ArrayRef → Nat → Except ComparePanic Bool
  | v :: vs, column :: columns, idx => do
    if ← valueMatchesColumn v column idx then fieldsMatch vs columns idx else return false
  | _, _, _ => .ok true
end

def equalsRecordBatchAtOffsetImpl (values : List RowValue) (batch : RecordBatch) (offset : Nat) :
    Except ComparePanic Bool :=
  if offset < batch.numRows then fieldsMatch values batch.columns offset else .error .offset

def equalsRecordBatchAtOffset (values : List RowValue) (batch : RecordBatch) (offset : Nat)
    (identity : IdentityProp) : Except ComparePanic Bool := do
  if ← identity.isExtractedIdentityRow values then
    match identity with
    | .keys columns =>
      match batch.project columns with
      | some projected => equalsRecordBatchAtOffsetImpl values projected offset
      | none => .error .projection
    | .fullRow => equalsRecordBatchAtOffsetImpl values batch offset
    | _ => .error .noIdentityCheck
  else .error .notExtracted

/-- A Parquet file as its reader gives it: the rows in each row group, and one row of a row
group, projected to the root columns with the indices. -/
structure ParquetFile where
  rowGroups : List Nat
  numColumns : Nat
  read : (rowGroup offset : Nat) → (roots : List Nat) → Option RecordBatch

/-- The row group of an offset, with the rows before it. -/
def targetRowGroup (offset : Nat) : List Nat → Nat → Nat → Nat × Nat
  | [], target, rowCount => (target, rowCount)
  | numRows :: rest, target, rowCount =>
    if offset < rowCount + numRows then (target, rowCount)
    else targetRowGroup offset rest (target + 1) (rowCount + numRows)

/-- `ProjectionMask::roots` is a set of columns, which are read in the order of the schema. -/
def ParquetFile.roots (file : ParquetFile) (indices : List Nat) : List Nat :=
  (List.range file.numColumns).filter (· ∈ indices)

def equalsParquetAtOffset (values : List RowValue) (file : ParquetFile) (offset : Nat)
    (identity : IdentityProp) : Except ComparePanic Bool := do
  if ← identity.isExtractedIdentityRow values then
    let (target, rowCount) := targetRowGroup offset file.rowGroups 0 0
    let indices ← identity.getKeyIndices values.length
    match file.read target (offset - rowCount) (file.roots indices) with
    | some batch => equalsRecordBatchAtOffsetImpl values batch 0
    | none => .error .parquet
  else .error .notExtracted

/-- The values at the key columns of the other row are compared one after the other. -/
def keysEqual (other : List RowValue) : List RowValue → List Nat → Except ComparePanic Bool
  | v :: vs, k :: ks =>
    match other[k]? with
    | some w => if v.eq w then keysEqual other vs ks else .ok false
    | none => .error .indexOutOfBounds
  | [], [] => .ok true
  | _, _ => .ok false

def equalsMoonlinkRow (values other : List RowValue) (identity : IdentityProp) : Except ComparePanic Bool :=
  match identity with
  | .keys columns => if values.length = columns.length then keysEqual other values columns else .error .notExtracted
  | .fullRow => .ok (RowValue.allEq values other)
  | _ => .error .noIdentityCheck

end Moonlink.Row
