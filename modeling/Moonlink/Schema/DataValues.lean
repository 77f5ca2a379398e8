-- SUMMARY: The row values that a type and a field of an Arrow schema have.
import Moonlink.Row.ColumnArray
import Moonlink.Schema.Arrow

/-!
# Values of Arrow types

A field has the values of its type, and nulls where it is nullable. That a decimal has no more
digits than its precision is not said here.
-/

namespace Moonlink.Schema

open Row

mutual
/-- The values of a type, except for nulls. -/
def DataType.Holds : DataType → RowValue → Prop
  | .null, _ => False
  | .boolean, v => ∃ b, v = .bool b
  | .int16, v => ∃ x : Int32, v = .int32 x ∧ -2 ^ 15 ≤ x.toInt ∧ x.toInt < 2 ^ 15
  | .int32, v => ∃ x, v = .int32 x
  | .int64, v => ∃ x, v = .int64 x
  | .float32, v => ∃ bits, v = .float32 bits
  | .float64, v => ∃ bits, v = .float64 bits
  | .date32, v => ∃ days, v = .int32 days
  | .time64, v => ∃ micros, v = .int64 micros
  | .timestamp _, v => ∃ micros, v = .int64 micros
  | .utf8, v => ∃ bytes : ByteArray, v = .byteArray bytes ∧ bytes.IsValidUTF8
  | .binary, v => ∃ bytes, v = .byteArray bytes
  | .fixedSizeBinary size, v => size = 16 ∧ ∃ bytes, v = .fixedLenByteArray bytes
  | .decimal128 _ _, v => ∃ m, v = .decimal m
  | .list item, v => ∃ items, v = .array items ∧ ∀ w ∈ items, Field.Holds item w
  | .struct fields, v => ∃ vals, v = .struct vals ∧ Field.AllHold fields vals
/-- The values of a field. -/
def Field.Holds : ArrowField DataType → RowValue → Prop
  | ⟨_, dataType, nullable, _, _⟩, v => v = .null ∧ nullable = true ∨ dataType.Holds v
/-- One value for each field, in order. -/
def Field.AllHold : List (ArrowField DataType) → List RowValue → Prop
  | [], vals => vals = []
  | f :: fs, vals => ∃ v rest, vals = v :: rest ∧ Field.Holds f v ∧ Field.AllHold fs rest
end

/-- A field by its parts. -/
theorem Field.holds_iff {f : Field} {v : RowValue} :
    Field.Holds f v ↔ v = .null ∧ f.nullable = true ∨ f.dataType.Holds v := by
  cases f
  rw [Field.Holds]

end Moonlink.Schema
