-- SUMMARY: NUMERIC columns, elements and fields with their declared types, and the texts of their values.
import Moonlink.Lib.Decimals
import Moonlink.Replication.Cells
import Moonlink.Schema.RestSchema

/-!
# NUMERIC columns

A column has a declared type, in which each NUMERIC, also in arrays and composite types, may
have a precision and a scale. The code knows them from the modifier of the column only. A value
is printed with as many digits behind the point as its scale has.
-/

namespace Moonlink.Replication

open Lib Row Schema

/-! ## Declared types -/

/-- `NUMERIC(precision, scale)`. -/
structure NumericMod where
  precision : Nat
  scale : Int
  precision_pos : 1 ≤ precision
  precision_le : precision ≤ 1000
  le_scale : -1000 ≤ scale
  scale_le : scale ≤ 1000

namespace NumericMod

/-- The precision and the scale, which is cut to 11 bits, are packed and moved by the size of a header. -/
def modifier (mod : NumericMod) : Int32 := Int32.ofNat (mod.precision * 2 ^ 16 + (mod.scale % 2 ^ 11).toNat + 4)

/-- `Decimal128` has such a precision and such a scale. -/
def FitsDecimal128 (mod : NumericMod) : Prop := mod.precision ≤ 38 ∧ -2 ^ 7 ≤ mod.scale ∧ mod.scale < 2 ^ 7

/-- The precision and the scale of a NUMERIC that declares none. -/
def IsDefault (mod : NumericMod) : Prop := mod.precision = 38 ∧ mod.scale = 10

end NumericMod

/-- The types of columns that are told apart: NUMERIC, declared with or without a modifier, the other simple types,
and arrays and composite types of them. -/
inductive DeclType where
  | numeric (mod : Option NumericMod)
  | scalar (type : PgSimpleType)
  | array (element : DeclType)
  | composite (fields : List (PgField DeclType))

namespace DeclType

/-- The induction over a type: over its elements, and over the fields of composite types. -/
theorem induction {P : DeclType → Prop} {Q : List (PgField DeclType) → Prop} (numeric : ∀ mod, P (numeric mod))
    (scalar : ∀ type, P (scalar type)) (array : ∀ element, P element → P (array element))
    (composite : ∀ fields, Q fields → P (composite fields)) (nil : Q [])
    (cons : ∀ name type rest, P type → Q rest → Q (⟨name, type⟩ :: rest)) :
    (∀ type, P type) ∧ ∀ fields, Q fields := by
  have hall : ∀ type, P type := by
    intro type
    refine @DeclType.rec P Q (fun field => P field.type) numeric scalar array composite nil ?_ ?_ type
    · exact fun field rest hfield hrest => cons field.name field.type rest hfield hrest
    · exact fun _ _ htype => htype
  exact ⟨hall, PgField.induction hall nil cons⟩

mutual
/-- The type as the code sees it. -/
def pgType : DeclType → PgType
  | numeric _ => .simple .numeric
  | scalar type => .simple type
  | array element => .array element.pgType
  | composite fields => .composite (pgFields fields)
def pgFields : List (PgField DeclType) → List (PgField PgType)
  | [] => []
  | ⟨name, type⟩ :: rest => ⟨name, type.pgType⟩ :: pgFields rest
end

/-- The modifier of a column. An array has that of its elements. -/
def modifier : DeclType → Int32
  | numeric none => -1
  | numeric (some mod) => mod.modifier
  | scalar _ => -1
  | array element => element.modifier
  | composite _ => -1

end DeclType

/-! ## Values -/

/-- The texts of values. -/
inductive NumericText where
  | nan
  | infinity
  | negInfinity
  | number (negative : Bool) (whole fraction : List (Fin 10)) (whole_ne_nil : whole ≠ [])

namespace NumericText

/-- The digits of a number as a numeral. -/
def numeral (negative : Bool) (whole fraction : List (Fin 10)) (h : whole ≠ []) : Numeral where
  sign := if negative then some true else none
  whole := whole
  fraction := if fraction = [] then none else some fraction
  exponent := none
  digits_ne_nil := by simp [h]

def text : NumericText → String
  | nan => "NaN"
  | infinity => "Infinity"
  | negInfinity => "-Infinity"
  | number negative whole fraction h => (numeral negative whole fraction h).text

def value : NumericText → Option ℚ
  | number negative whole fraction h => some (numeral negative whole fraction h).value
  | _ => none

end NumericText

/-- `PgNumeric::from_str`, for a way in which decimals are read. -/
def pgNumericFromStr (fromStr : String → Option BigDecimal) (s : String) : Option PgNumeric :=
  match fromStr s with
  | some n => some (.value n.digits n.scale)
  | none =>
    if Schema.toLowercase s = "infinity" then some .positiveInf
    else if Schema.toLowercase s = "-infinity" then some .negativeInf
    else if Schema.toLowercase s = "nan" then some .nan
    else none

namespace PgNumeric

/-- The value, unless it is no number. -/
def toRat : PgNumeric → Option ℚ
  | value intVal scale => some (BigDecimal.value ⟨intVal, scale⟩)
  | _ => none

end PgNumeric

def Scalar.isNumeric : Scalar → Bool
  | numeric _ => true
  | _ => false

/-- The elements of an array. -/
def Cell.items : Cell → Option (List Cell)
  | array elements => some (elements.map fun element => element.elim .null .scalar)
  | compositeArray elements => some (elements.map fun element => element.elim .null .composite)
  | _ => none

namespace DeclType

mutual
/-- A cell for a value of a type. -/
def Has : DeclType → Cell → Prop
  | numeric _, c => c = .null ∨ ∃ v, c = .scalar (.numeric v)
  | scalar _, c => c = .null ∨ ∃ v, c = .scalar v ∧ v.isNumeric = false
  | array element, c => c = .null ∨ ∃ items, c.items = some items ∧ ∀ item ∈ items, element.Has item
  | composite fields, c => c = .null ∨ ∃ cells, c = .composite cells ∧ FieldsHave fields cells
def FieldsHave : List (PgField DeclType) → List Cell → Prop
  | [], cells => cells = []
  | ⟨_, type⟩ :: rest, cells => ∃ c others, cells = c :: others ∧ type.Has c ∧ FieldsHave rest others
end

end DeclType

end Moonlink.Replication
