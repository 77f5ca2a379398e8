-- SUMMARY: Avro values, the values of a schema, their content, and the rows that values are converted to.
import Moonlink.Schema.AvroSchema
import Moonlink.Schema.DataValues

/-!
# Rows of Avro values

A value is converted without its schema. A fixed value becomes one of 16 bytes, and others are
rejected; a map becomes a list of structs, in the order in which its entries come.

The values of a schema are those that are read with it: a record has a value for each of its
fields, in order, and a value of a union has the position of its variant.
-/

namespace Moonlink.Schema

open Lib Row

inductive AvroValue where
  | null
  | boolean (b : Bool)
  | int (i : Int32)
  | long (l : Int64)
  | float (bits : UInt32)
  | double (bits : UInt64)
  | bytes (b : ByteArray)
  | string (s : String)
  | fixed (size : Nat) (bytes : ByteArray)
  | array (items : List AvroValue)
  | map (entries : List (String × AvroValue))
  | union (position : Nat) (value : AvroValue)
  | record (fields : List (String × AvroValue))
  /-- A value of one of the schemas without an Arrow type. -/
  | other (schema : OtherAvroSchema)

inductive AvroRowFailure where
  /-- "unsupported avro type", with the value. -/
  | unsupportedType (value : AvroValue)
  /-- "only Fixed(16) is supported". -/
  | unsupportedFixed (size : Nat)
  /-- `copy_from_slice` of another number of bytes panics. -/
  | copyFromSlice

mutual
def convertValue : AvroValue → Except AvroRowFailure RowValue
  | .null => .ok .null
  | .boolean b => .ok (.bool b)
  | .int i => .ok (.int32 i)
  | .long l => .ok (.int64 l)
  | .float bits => .ok (.float32 bits)
  | .double bits => .ok (.float64 bits)
  | .string s => .ok (.byteArray s.toByteArray)
  | .bytes b => .ok (.byteArray b)
  -- Fixed length binary (only support 16-byte for UUIDs)
  | .fixed size bytes =>
    if size = 16 then
      if h : bytes.size = 16 then .ok (.fixedLenByteArray ⟨bytes.data, h⟩) else .error .copyFromSlice
    else .error (.unsupportedFixed size)
  | .array items => do
    let convertedElements ← convertItems items
    return .array convertedElements
  | .record fields => do
    let values ← convertFieldValues fields
    return .struct values
  | .map entries => do
    let values ← convertEntries entries
    return .array values
  | .union _ value => convertValue value
  | .other schema => .error (.unsupportedType (.other schema))
def convertItems : List AvroValue → Except AvroRowFailure (List RowValue)
  | [] => .ok []
  | item :: rest => do
    let converted ← convertValue item
    let values ← convertItems rest
    return converted :: values
/-- The values of the fields of a record. -/
def convertFieldValues : List (String × AvroValue) → Except AvroRowFailure (List RowValue)
  | [] => .ok []
  | (_, value) :: rest => do
    let converted ← convertValue value
    let values ← convertFieldValues rest
    return converted :: values
/-- The entries of a map. -/
def convertEntries : List (String × AvroValue) → Except AvroRowFailure (List RowValue)
  | [] => .ok []
  | (key, value) :: rest => do
    let converted ← convertValue value
    let values ← convertEntries rest
    return .struct [.byteArray key.toByteArray, converted] :: values
end

/-- `AvroToMoonlinkRowConverter::convert`. -/
def convertAvroRow : AvroValue → Except AvroRowFailure (List RowValue)
  | .record fields => convertFieldValues fields
  | value => .error (.unsupportedType value)

/-! ## Values of a schema -/

mutual
/-- The values of a schema. -/
def AvroSchema.Has : AvroSchema → AvroValue → Prop
  | .null, v => v = .null
  | .boolean, v => ∃ b, v = .boolean b
  | .int, v => ∃ i, v = .int i
  | .long, v => ∃ l, v = .long l
  | .float, v => ∃ bits, v = .float bits
  | .double, v => ∃ bits, v = .double bits
  | .bytes, v => ∃ b, v = .bytes b
  | .string, v => ∃ s, v = .string s
  | .array items, v => ∃ values, v = .array values ∧ ∀ w ∈ values, items.Has w
  | .map types, v => ∃ entries, v = .map entries ∧ (entries.map (·.1)).Nodup ∧
      ∀ entry ∈ entries, types.Has entry.2
  | .union variants, v => ∃ position w, v = .union position w ∧ AvroSchema.VariantHas variants position w
  | .record fields, v => ∃ values, v = .record values ∧ AvroSchema.FieldsHave fields values
  | .fixed size, v => ∃ bytes : ByteArray, v = .fixed size bytes ∧ bytes.size = size
  | .other schema, v => v = .other schema
/-- The values of the variant at a position. -/
def AvroSchema.VariantHas : List AvroSchema → Nat → AvroValue → Prop
  | [], _, _ => False
  | variant :: _, 0, v => variant.Has v
  | _ :: rest, position + 1, v => AvroSchema.VariantHas rest position v
/-- The values of the fields of a record, with their names. -/
def AvroSchema.FieldsHave : List (RecordField AvroSchema) → List (String × AvroValue) → Prop
  | [], values => values = []
  | ⟨name, schema⟩ :: fields, values => ∃ v rest, values = (name, v) :: rest ∧ schema.Has v ∧
      AvroSchema.FieldsHave fields rest
end

/-! ## The content of a value -/

mutual
/-- A value without the positions of its unions. -/
def AvroValue.content : AvroValue → AvroValue
  | .union _ value => value.content
  | .array items => .array (AvroValue.itemContents items)
  | .map entries => .map (AvroValue.entryContents entries)
  | .record fields => .record (AvroValue.entryContents fields)
  | value => value
def AvroValue.itemContents : List AvroValue → List AvroValue
  | [] => []
  | item :: rest => item.content :: AvroValue.itemContents rest
def AvroValue.entryContents : List (String × AvroValue) → List (String × AvroValue)
  | [] => []
  | (name, value) :: rest => (name, value.content) :: AvroValue.entryContents rest
end

/-- The entry of a map that a struct is. -/
def readEntry (read : RowValue → Option AvroValue) : RowValue → Option (String × AvroValue)
  | .struct [.byteArray key, v] => do
    let name ← String.fromUTF8? key
    let value ← read v
    return (name, value)
  | _ => none

mutual
/-- The content that a row value has under a schema. -/
def AvroSchema.read : AvroSchema → RowValue → Option AvroValue
  | .null, .null => some .null
  | .boolean, .bool b => some (.boolean b)
  | .int, .int32 i => some (.int i)
  | .long, .int64 l => some (.long l)
  | .float, .float32 bits => some (.float bits)
  | .double, .float64 bits => some (.double bits)
  | .bytes, .byteArray b => some (.bytes b)
  | .string, .byteArray b => (String.fromUTF8? b).map .string
  | .fixed size, .fixedLenByteArray raw => some (.fixed size ⟨raw.toArray⟩)
  | .array items, .array values => (values.mapM items.read).map .array
  | .map types, .array entries => (entries.mapM (readEntry types.read)).map .map
  | .record fields, .struct values => (AvroSchema.readFields fields values).map .record
  -- A null, or a value of the other variant.
  | .union _, .null => some .null
  | .union variants, v => AvroSchema.readVariant variants v
  | _, _ => none
def AvroSchema.readVariant : List AvroSchema → RowValue → Option AvroValue
  | [], _ => none
  | .null :: rest, v => AvroSchema.readVariant rest v
  | variant :: _, v => variant.read v
def AvroSchema.readFields : List (RecordField AvroSchema) → List RowValue → Option (List (String × AvroValue))
  | [], [] => some []
  | ⟨name, schema⟩ :: fields, v :: rest => do
    let value ← schema.read v
    let values ← AvroSchema.readFields fields rest
    return (name, value) :: values
  | _, _ => none
end

mutual
/-- The fixed values, at every depth, have 16 bytes. -/
def AvroValue.HasFixed16 : AvroValue → Prop
  | .fixed size _ => size = 16
  | .array items => AvroValue.ItemsHaveFixed16 items
  | .map entries => AvroValue.EntriesHaveFixed16 entries
  | .record fields => AvroValue.EntriesHaveFixed16 fields
  | .union _ value => value.HasFixed16
  | _ => True
def AvroValue.ItemsHaveFixed16 : List AvroValue → Prop
  | [] => True
  | item :: rest => item.HasFixed16 ∧ AvroValue.ItemsHaveFixed16 rest
def AvroValue.EntriesHaveFixed16 : List (String × AvroValue) → Prop
  | [] => True
  | (_, value) :: rest => value.HasFixed16 ∧ AvroValue.EntriesHaveFixed16 rest
end

end Moonlink.Schema
