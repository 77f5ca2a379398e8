-- SUMMARY: Row values, the builders of nested column arrays, the arrays that they finish, and how an array is read.
import Mathlib.Data.List.Chain
import Moonlink.Lib.Panics

/-!
# Column arrays

A column is built by appending row values to a `ColumnArrayBuilder` that follows the type of
the column. Lists and maps share a helper that keeps offsets and validity next to the builder
of their items; a struct has a builder for each field.

The leaf builders and the arrays are those of the Arrow library. A leaf keeps its values with
their validity. An array of lists keeps offsets, validity and the array of its items, and its
constructor makes the checks that are made here. Names, units and precisions are left out, and
floating-point numbers are their bits.
-/

namespace Moonlink.Row

open Lib

inductive RowValue where
  | int32 (x : Int32)
  | int64 (x : Int64)
  | float32 (bits : UInt32)
  | float64 (bits : UInt64)
  | decimal (x : BitVec 128)
  | bool (x : Bool)
  | byteArray (bytes : ByteArray)
  | fixedLenByteArray (bytes : Vector UInt8 16)
  | array (items : List RowValue)
  | struct (vals : List RowValue)
  | null

namespace RowValue

def isValid : RowValue → Bool
  | null => false
  | _ => true

def items : RowValue → List RowValue
  | array items => items
  | _ => []

end RowValue

/-! ## Types -/

/-- The data types without children that a builder supports. -/
inductive LeafType where
  | boolean
  | int16
  | int32
  | date32
  | timestamp
  | int64
  | time64
  | float32
  | float64
  | decimal128
  | utf8
  | fixedSizeBinary (n : Nat)
  | binary
  deriving DecidableEq, Repr

inductive ListKind where
  | list
  | map
  deriving DecidableEq, Repr

/-- A field with its data type. The items of a map are its entries. -/
inductive Field where
  | leaf (nullable : Bool) (type : LeafType)
  | list (kind : ListKind) (nullable : Bool) (item : Field)
  | struct (nullable : Bool) (fields : List Field)

namespace Field

def isNullable : Field → Bool
  | leaf nullable _ => nullable
  | list _ nullable _ => nullable
  | struct nullable _ => nullable

def isEntries : Field → Bool
  | struct _ [_, _] => true
  | _ => false

mutual
/-- The entries of maps have two fields. -/
def Supported : Field → Prop
  | leaf _ _ => True
  | list kind _ item => (kind = .map → item.isEntries = true) ∧ item.Supported
  | struct _ fields => AllSupported fields
def AllSupported : List Field → Prop
  | [] => True
  | f :: fs => f.Supported ∧ AllSupported fs
end

end Field

/-- The values of a leaf that its data type has. -/
def LeafType.Has : LeafType → RowValue → Prop
  | boolean, .bool _ => True
  | int16, .int32 x => -2 ^ 15 ≤ x.toInt ∧ x.toInt < 2 ^ 15
  | int32, .int32 _ => True
  | date32, .int32 _ => True
  | timestamp, .int64 _ => True
  | int64, .int64 _ => True
  | time64, .int64 _ => True
  | float32, .float32 _ => True
  | float64, .float64 _ => True
  | decimal128, .decimal _ => True
  | utf8, .byteArray bytes => bytes.IsValidUTF8
  | fixedSizeBinary n, .fixedLenByteArray _ => n = 16
  | binary, .byteArray _ => True
  | _, _ => False

mutual
/-- A null, or a value of the type, which has nulls only where its fields have them. -/
def Field.Has : Field → RowValue → Prop
  | .leaf _ type, v => v = .null ∨ type.Has v
  | .list kind _ item, v => v = .null ∨ ∃ items, v = .array items ∧
      ∀ w ∈ items, item.Has w ∧ (w = .null → item.isNullable = true ∧ kind = .list)
  | .struct _ fields, v => v = .null ∨ ∃ vals, v = .struct vals ∧ Field.AllHave fields vals
def Field.AllHave : List Field → List RowValue → Prop
  | [], vals => vals = []
  | f :: fs, vals => ∃ v rest, vals = v :: rest ∧ f.Has v ∧ (v = .null → f.isNullable = true) ∧
      Field.AllHave fs rest
end

/-! ## Builders -/

inductive AppendError where
  /-- "Got RowValue::Array for non-list builder". -/
  | arrayForLeaf
  | typeMismatch
  | structFieldCountMismatch (expected got : Nat)
  | invalidUtf8
  /-- The byte array does not have the size of the builder. -/
  | fixedSizeMismatch
  deriving DecidableEq, Repr

inductive ArrayPanic where
  /-- `new`: the entries of a map are no struct of two fields. -/
  | mapEntries
  /-- `OffsetBuffer::new`: the offsets are negative or not monotonically increasing. -/
  | offsets
  /-- `ListArray::new` and `MapArray::new`: the last offset exceeds the items. -/
  | offsetPastItems
  /-- The validity has another length than the array. -/
  | nullsLength
  /-- `ListArray::new`: nulls in items that are not nullable. -/
  | nullItems
  /-- `MapArray::new`: nulls in the entries. -/
  | nullEntries
  /-- `StructArray::new`: a child array has another length. -/
  | childLength
  /-- `StructArray::new`: unmasked nulls in a field that is not nullable. -/
  | nullField
  deriving DecidableEq, Repr

def ArrayPanic.assert (c : Bool) (p : ArrayPanic) : Except ArrayPanic Unit := if c then .ok () else .error p

inductive LeafBuilder where
  | boolean
  | int32
  | int64
  | float32
  | float64
  | decimal128
  | utf8
  | fixedSizeBinary (n : Nat)
  | binary
  deriving DecidableEq, Repr

def LeafType.builder : LeafType → LeafBuilder
  | boolean => .boolean
  | int16 | int32 | date32 => .int32
  | timestamp | int64 | time64 => .int64
  | float32 => .float32
  | float64 => .float64
  | decimal128 => .decimal128
  | utf8 => .utf8
  | fixedSizeBinary n => .fixedSizeBinary n
  | binary => .binary

/-- `append_value` of a leaf, except for nulls. -/
def LeafBuilder.accept : LeafBuilder → RowValue → Except AppendError RowValue
  | boolean, .bool x => .ok (.bool x)
  | int32, .int32 x => .ok (.int32 x)
  | int64, .int64 x => .ok (.int64 x)
  | float32, .float32 x => .ok (.float32 x)
  | float64, .float64 x => .ok (.float64 x)
  | decimal128, .decimal x => .ok (.decimal x)
  | utf8, .byteArray bytes =>
    match String.fromUTF8? bytes with
    | some s => .ok (.byteArray s.toByteArray)
    | none => .error .invalidUtf8
  | fixedSizeBinary n, .fixedLenByteArray x => if n = 16 then .ok (.fixedLenByteArray x) else .error .fixedSizeMismatch
  | binary, .byteArray x => .ok (.byteArray x)
  | _, .array _ => .error .arrayForLeaf
  | _, _ => .error .typeMismatch

inductive ColumnArrayBuilder where
  | leaf (builder : LeafBuilder) (values : List RowValue)
  /-- `ListBuilderHelper`, with the field of the items. -/
  | list (kind : ListKind) (field : Field) (offsets : List Int) (nulls : List Bool)
      (inner : ColumnArrayBuilder) (len : Nat)
  /-- `StructBuilderHelper`. -/
  | struct (fields : List Field) (children : List ColumnArrayBuilder) (nulls : List Bool) (len : Nat)

/-- `as i32`. -/
def toI32 (n : Nat) : Int := (n : Int).bmod (2 ^ 32)

namespace ColumnArrayBuilder

mutual
def new : Field → Except ArrayPanic ColumnArrayBuilder
  | .leaf _ type => .ok (.leaf type.builder [])
  | .list kind _ item => do
    ArrayPanic.assert (kind = .list || item.isEntries) .mapEntries
    return .list kind item [] [] (← new item) 0
  | .struct _ fields => do
    return .struct fields (← newChildren fields) [] 0
def newChildren : List Field → Except ArrayPanic (List ColumnArrayBuilder)
  | [] => .ok []
  | f :: fs => do
    let child ← new f
    return child :: (← newChildren fs)
end

def len : ColumnArrayBuilder → Nat
  | leaf _ values => values.length
  | list _ _ _ _ _ len => len
  | struct _ _ _ len => len

mutual
/-- `append_value` of a null. A null list repeats the last offset; a null struct has nulls in its fields. -/
def appendNull : ColumnArrayBuilder → ColumnArrayBuilder
  | leaf builder values => leaf builder (values ++ [.null])
  | list kind field offsets nulls inner len =>
    list kind field (offsets ++ [offsets.getLast?.getD 0]) (nulls ++ [false]) inner (len + 1)
  | struct fields children nulls len => struct fields (appendNulls children) (nulls ++ [false]) (len + 1)
def appendNulls : List ColumnArrayBuilder → List ColumnArrayBuilder
  | [] => []
  | b :: bs => b.appendNull :: appendNulls bs
end

mutual
def appendValue : ColumnArrayBuilder → RowValue → Except AppendError ColumnArrayBuilder
  | b, .null => .ok b.appendNull
  | list kind field offsets nulls inner len, .array items => do
    let offsets := offsets ++ [toI32 inner.len]
    let inner ← inner.appendItems items
    return list kind field offsets (nulls ++ [true]) inner (len + 1)
  | struct fields children nulls len, .struct vals =>
    if vals.length = fields.length then do
      return struct fields (← appendFields children vals) (nulls ++ [true]) (len + 1)
    else .error (.structFieldCountMismatch fields.length vals.length)
  | leaf builder values, v => do
    return leaf builder (values ++ [← builder.accept v])
  | _, _ => .error .typeMismatch
def appendItems : ColumnArrayBuilder → List RowValue → Except AppendError ColumnArrayBuilder
  | b, [] => .ok b
  | b, v :: rest => do
    let b ← b.appendValue v
    b.appendItems rest
def appendFields : List ColumnArrayBuilder → List RowValue → Except AppendError (List ColumnArrayBuilder)
  | b :: bs, v :: vals => do
    let b ← b.appendValue v
    return b :: (← appendFields bs vals)
  | bs, _ => .ok bs
end

end ColumnArrayBuilder

/-! ## Arrays -/

inductive ColumnArray where
  | leaf (values : List RowValue)
  | list (offsets : List Int) (nulls : List Bool) (values : ColumnArray)
  | struct (children : List ColumnArray) (nulls : List Bool)

namespace ColumnArray

def nulls : ColumnArray → List Bool
  | leaf values => values.map RowValue.isValid
  | list _ nulls _ => nulls
  | struct _ nulls => nulls

def len (a : ColumnArray) : Nat := a.nulls.length

/-- Where the items of lists have nulls. -/
def checkItems (field : Field) (values : ColumnArray) : ListKind → Except ArrayPanic Unit
  | .list => ArrayPanic.assert (field.isNullable || values.nulls.all id) .nullItems
  | .map => ArrayPanic.assert (values.nulls.all id) .nullEntries

/-- `ListArray::new` and `MapArray::new`. -/
def newList (kind : ListKind) (field : Field) (offsets : List Int) (values : ColumnArray) (nulls : List Bool) :
    Except ArrayPanic ColumnArray := do
  ArrayPanic.assert (decide (0 ≤ offsets.headD 0) && decide (offsets.IsChain (· ≤ ·))) .offsets
  ArrayPanic.assert ((offsets.getLastD 0).toNat ≤ values.len) .offsetPastItems
  ArrayPanic.assert (nulls.length = offsets.length - 1) .nullsLength
  checkItems field values kind
  return .list offsets nulls values

/-- `StructArray::new` looks at every field with its array. -/
def checkFields (nulls : List Bool) : List Field → List ColumnArray → Except ArrayPanic Unit
  | f :: fs, a :: as => do
    ArrayPanic.assert (a.len = nulls.length) .childLength
    ArrayPanic.assert (f.isNullable || (nulls.zip a.nulls).all fun v => !v.1 || v.2) .nullField
    checkFields nulls fs as
  | _, _ => .ok ()

end ColumnArray

/-- The cast to the type of the column, by which a number that does not fit becomes null. -/
def LeafType.cast : LeafType → RowValue → RowValue
  | int16, .int32 x => if -2 ^ 15 ≤ x.toInt ∧ x.toInt < 2 ^ 15 then .int32 x else .null
  | _, v => v

namespace ColumnArrayBuilder

mutual
def finish : ColumnArrayBuilder → Field → Except ArrayPanic ColumnArray
  | leaf _ values, .leaf _ type => .ok (.leaf (values.map type.cast))
  | leaf _ values, _ => .ok (.leaf values)
  | list kind field offsets nulls inner _, _ => do
    let values ← inner.finish field
    ColumnArray.newList kind field (offsets ++ [toI32 values.len]) values nulls
  | struct fields children nulls len, _ => do
    let arrays ← finishFields children fields
    ArrayPanic.assert (nulls.length = len) .nullsLength
    ColumnArray.checkFields nulls fields arrays
    return .struct arrays nulls
def finishFields : List ColumnArrayBuilder → List Field → Except ArrayPanic (List ColumnArray)
  | b :: bs, f :: fs => do
    let a ← b.finish f
    return a :: (← finishFields bs fs)
  | _, _ => .ok []
end

end ColumnArrayBuilder

/-! ## Reading -/

/-- The items between two offsets. -/
def slices (values : List RowValue) : List Int → List (List RowValue)
  | a :: b :: rest => (values.drop a.toNat).take (b.toNat - a.toNat) :: slices values (b :: rest)
  | _ => []

namespace RowValue

/-- A list with its validity. -/
def ofItems (valid : Bool) (items : List RowValue) : RowValue := if valid then array items else null

/-- A struct with the value of one more field, which comes first. -/
def consField (v : RowValue) : RowValue → RowValue
  | struct vals => struct (v :: vals)
  | row => row

end RowValue

namespace ColumnArray

mutual
/-- The elements of an array. -/
def read : ColumnArray → List RowValue
  | leaf values => values
  | list offsets nulls values => List.zipWith RowValue.ofItems nulls (slices values.read offsets)
  | struct children nulls => readRows children nulls
def readRows : List ColumnArray → List Bool → List RowValue
  | [], nulls => nulls.map fun valid => if valid then .struct [] else .null
  | a :: as, nulls => List.zipWith RowValue.consField a.read (readRows as nulls)
end

end ColumnArray

/-- A column is built from all its values. -/
def buildColumn (f : Field) (vs : List RowValue) : Except ArrayPanic (Except AppendError ColumnArray) := do
  let b ← ColumnArrayBuilder.new f
  match b.appendItems vs with
  | .error e => return .error e
  | .ok b => return .ok (← b.finish f)

end Moonlink.Row
