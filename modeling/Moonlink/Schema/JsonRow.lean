-- SUMMARY: JSON values, and the rows that they are converted to for an Arrow schema.
import Moonlink.Schema.DataValues
import Moonlink.Schema.DecimalRow

/-!
# Rows of JSON values

A row is converted field by field. A value must have the form that the type of its field asks
for, or be null where the field is nullable; a member of a struct may be missing there. The path
in a type mismatch is extended on the way out of lists and structs.

Numbers are kept as `serde_json` does, with floating-point numbers by Lean's model of them. How
dates and times are read is the calendar library's.
-/

namespace Moonlink.Schema

open Lib Row

/-! ## JSON -/

inductive Json where
  | null
  | bool (b : Bool)
  | posInt (n : UInt64)
  | negInt (i : Int64)
  | float (x : Float.Model) (finite : x.isFinite = true)
  | string (s : String)
  | array (items : List Json)
  | object (members : List (String × Json))

namespace Json

def isNull : Json → Bool
  | null => true
  | _ => false

def asBool : Json → Option Bool
  | bool b => some b
  | _ => none

def asI64 : Json → Option Int64
  | posInt n => if n.toNat < 2 ^ 63 then some n.toInt64 else none
  | negInt i => some i
  | _ => none

def asF64 : Json → Option Float.Model
  | posInt n => some (Float.Model.ofUInt64 n)
  | negInt i => some (Float.Model.ofInt64 i)
  | float x _ => some x
  | _ => none

def asStr : Json → Option String
  | string s => some s
  | _ => none

def asArray : Json → Option (List Json)
  | array items => some items
  | _ => none

def asObject : Json → Option (List (String × Json))
  | object members => some members
  | _ => none

def get (json : Json) (key : String) : Option Json := json.asObject.bind (·.lookup key)

end Json

/-- `as f32`. -/
def asF32 (x : Float.Model) : Float32.Model :=
  Float32.Model.pack (match x.unpack with
    | .finite sign mantissa exponent _ => .round .binary32 sign mantissa exponent
    | other => other)

/-! ## Errors -/

inductive JsonToMoonlinkRowError where
  | missingField (path : String)
  | typeMismatch (path : String)
  | invalidValue (field : String)
  | invalidValueWithCause (field : String) (cause : DecimalConversionError)
  deriving DecidableEq, Repr

inductive JsonRowFailure where
  | error (e : JsonToMoonlinkRowError)
  /-- The arithmetic of a decimal overflows. -/
  | arithmetic
  deriving DecidableEq, Repr

/-- Only the paths of type mismatches are extended. -/
def JsonRowFailure.extendPath (extend : String → String) : JsonRowFailure → JsonRowFailure
  | .error (.typeMismatch path) => .error (.typeMismatch (extend path))
  | failure => failure

/-- `replacen` of the first occurrence. -/
def replaceFirst (pattern replacement : List Char) : List Char → List Char
  | [] => if pattern.isEmpty then replacement else []
  | c :: rest =>
    if pattern.isPrefixOf (c :: rest) then replacement ++ (c :: rest).drop pattern.length
    else c :: replaceFirst pattern replacement rest

/-- The path of an element of a list. -/
def elementPath (field child : String) (index : Nat) (path : String) : String :=
  let element := s!"{child}[{index}]"
  field ++ "." ++ String.ofList (replaceFirst child.toList element.toList path.toList)

/-! ## The conversion -/

/-- What chrono reads from texts, by their formats. -/
structure ChronoLib where
  /-- The days since 1970-01-01. -/
  naiveDate : String → String → Option Int
  /-- The microseconds since midnight. -/
  naiveTime : String → String → Option Int64
  /-- The microseconds since 1970-01-01. -/
  rfc3339 : String → Option Int64
  naiveDateTime : String → String → Option Int64
  /-- A time zone: the earliest time in UTC of a local time. -/
  timeZone : String → Option (Int64 → Option Int64)

namespace ChronoLib

variable (lib : ChronoLib)

def parseDate (dateStr : String) : Option Int32 := (lib.naiveDate dateStr "%Y-%m-%d").map .ofInt

def parseTime (timeStr : String) : Option Int64 :=
  (lib.naiveTime timeStr "%H:%M:%S%.f").or (lib.naiveTime timeStr "%H:%M:%S")

/-- The time zone of the schema is for a timestamp without one. -/
def parseTimestampWithTimezone (timestampStr : String) (schemaTimezone : Option String) : Option Int64 :=
  match lib.rfc3339 timestampStr with
  | some micros => some micros
  | none => do
    let naiveDt ← (lib.naiveDateTime timestampStr "%Y-%m-%dT%H:%M:%S").or
      (lib.naiveDateTime timestampStr "%Y-%m-%dT%H:%M:%S%.f")
    match schemaTimezone.bind lib.timeZone with
    | some earliest => earliest naiveDt
    | none => return naiveDt

end ChronoLib

/-- What dates, times and decimals are read with. -/
structure JsonLib extends ChronoLib where
  decimals : DecimalLib
  /-- The precisions and scales that `with_precision_and_scale` accepts. -/
  decimalTypes : UInt8 → Int8 → Bool

/-- Null for a nullable field, where the value has not the form of the type. -/
def orNull (name : String) (nullable : Bool) (value : Json) :
    Option (Except JsonRowFailure RowValue) → Except JsonRowFailure RowValue
  | some result => result
  | none => if value.isNull && nullable then .ok .null else .error (.error (.typeMismatch name))

/-- The member of a struct, which may be missing for a nullable field. -/
def orMissing (path : String) (nullable : Bool) :
    Option (Except JsonRowFailure RowValue) → Except JsonRowFailure RowValue
  | some result => result
  | none => if nullable then .ok .null else .error (.error (.missingField path))

/-- `map_err` of a text that is no date or time. -/
def orInvalid (name : String) : Option RowValue → Except JsonRowFailure RowValue
  | some v => .ok v
  | none => .error (.error (.invalidValue name))

/-- `map_err` of a decimal that is rejected. -/
def decimalFailure (name : String) : DecimalFailure → JsonRowFailure
  | .error e => .error (.invalidValueWithCause name e)
  | .arithmetic => .arithmetic

/-- The elements of a list with their indices. -/
def convertElements (convert : Json → Except JsonRowFailure RowValue) (path : Nat → String → String) :
    Nat → List Json → Except JsonRowFailure (List RowValue)
  | _, [] => .ok []
  | index, ele :: rest => do
    let convertedElement ← (convert ele).mapError (·.extendPath (path index))
    let convertedElements ← convertElements convert path (index + 1) rest
    return convertedElement :: convertedElements

namespace JsonToMoonlinkRowConverter

variable (lib : JsonLib)

mutual
/-- The field comes with its name and whether it is nullable. -/
def convertValue (name : String) (nullable : Bool) : DataType → Json → Except JsonRowFailure RowValue
  | .boolean, value => orNull name nullable value (value.asBool.map fun b => .ok (.bool b))
  | .int32, value => orNull name nullable value (value.asI64.map fun i => .ok (.int32 i.toInt32))
  | .int64, value => orNull name nullable value (value.asI64.map fun i => .ok (.int64 i))
  | .float32, value => orNull name nullable value (value.asF64.map fun f => .ok (.float32 (asF32 f).toBits))
  | .float64, value => orNull name nullable value (value.asF64.map fun f => .ok (.float64 f.toBits))
  | .date32, value =>
    orNull name nullable value (value.asStr.map fun s => orInvalid name ((lib.parseDate s).map .int32))
  | .time64, value =>
    orNull name nullable value (value.asStr.map fun s => orInvalid name ((lib.parseTime s).map .int64))
  | .timestamp tz, value =>
    orNull name nullable value (value.asStr.map fun s =>
      orInvalid name ((lib.parseTimestampWithTimezone s tz).map .int64))
  | .utf8, value => orNull name nullable value (value.asStr.map fun s => .ok (.byteArray s.toByteArray))
  | .decimal128 precision scale, value =>
    orNull name nullable value (value.asStr.map fun s =>
      (convertDecimalToRowValue lib.decimals s precision scale).mapError (decimalFailure name))
  -- Null is no list, whether or not the field is nullable.
  | .list ⟨child, dataType, childNullable, _, _⟩, value =>
    match value.asArray with
    | some array => do
      let converted ← convertElements (convertValue child childNullable dataType) (elementPath name child) 0 array
      return .array converted
    | none => .error (.error (.typeMismatch name))
  | .struct childFields, value =>
    match value.asObject with
    | some obj => do
      let values ← convertMembers name childFields obj
      return .struct values
    | none => orNull name nullable value none
  | _, _ => .error (.error (.typeMismatch name))
/-- The values of the fields of a struct. -/
def convertMembers (parent : String) : List (ArrowField DataType) → List (String × Json) →
    Except JsonRowFailure (List RowValue)
  | [], _ => .ok []
  | ⟨child, dataType, nullable, _, _⟩ :: rest, obj => do
    let converted ← orMissing s!"{parent}.{child}" nullable ((obj.lookup child).map fun value =>
      (convertValue child nullable dataType value).mapError (·.extendPath fun path => s!"{parent}.{path}"))
    let values ← convertMembers parent rest obj
    return converted :: values
end

def convert : List Field → Json → Except JsonRowFailure (List RowValue)
  | [], _ => .ok []
  | field :: rest, json => do
    let value ← match json.get field.name with
      | some value => .ok value
      | none => .error (.error (.missingField field.name))
    let rowValue ← convertValue lib field.name field.nullable field.dataType value
    let values ← convert rest json
    return rowValue :: values

end JsonToMoonlinkRowConverter

/-! ## Columns -/

inductive BuilderPanic where
  /-- `with_precision_and_scale` rejects the type. -/
  | precisionAndScale (precision : UInt8) (scale : Int8)
  /-- "unsupported type in builder". -/
  | unsupportedType
  deriving DecidableEq, Repr

section Columns

variable (lib : JsonLib)

mutual
/-- The column of a type, whose builder panics in `ColumnArrayBuilder::new` for some types. -/
def DataType.column (nullable : Bool) : DataType → Except BuilderPanic Row.Field
  | .null => .error .unsupportedType
  | .boolean => .ok (.leaf nullable .boolean)
  | .int16 => .ok (.leaf nullable .int16)
  | .int32 => .ok (.leaf nullable .int32)
  | .int64 => .ok (.leaf nullable .int64)
  | .float32 => .ok (.leaf nullable .float32)
  | .float64 => .ok (.leaf nullable .float64)
  | .date32 => .ok (.leaf nullable .date32)
  | .time64 => .ok (.leaf nullable .time64)
  | .timestamp _ => .ok (.leaf nullable .timestamp)
  | .utf8 => .ok (.leaf nullable .utf8)
  | .binary => .ok (.leaf nullable .binary)
  | .fixedSizeBinary size => .ok (.leaf nullable (.fixedSizeBinary size.toInt.toNat))
  | .decimal128 precision scale =>
    if lib.decimalTypes precision scale then .ok (.leaf nullable .decimal128)
    else .error (.precisionAndScale precision scale)
  | .list ⟨_, dataType, itemNullable, _, _⟩ => do
    let item ← dataType.column itemNullable
    return .list .list nullable item
  | .struct fields => do
    let columns ← Field.columns fields
    return .struct nullable columns
def Field.columns : List (ArrowField DataType) → Except BuilderPanic (List Row.Field)
  | [] => .ok []
  | ⟨_, dataType, nullable, _, _⟩ :: fs => do
    let column ← dataType.column nullable
    let columns ← Field.columns fs
    return column :: columns
end

/-- The builder of the column of a field takes a value. -/
def Field.Accepts (f : Field) (v : RowValue) : Prop :=
  ∃ column b b', f.dataType.column lib f.nullable = .ok column ∧ ColumnArrayBuilder.new column = .ok b ∧
    b.appendValue v = .ok b'

end Columns

end Moonlink.Schema
