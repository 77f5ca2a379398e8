-- SUMMARY: The field schemas of the REST API, and the Arrow schema that is built from them.
import Moonlink.Lib.Panics
import Moonlink.Lib.Text
import Moonlink.Schema.Arrow

/-!
# Schemas of REST tables

A table is created with a list of field schemas, whose types have names. Structs have fields
and lists an item; both are built before the field they are in, and each field takes the next
id when it is built.
-/

namespace Moonlink.Schema

open Lib

structure FieldSchema where
  name : String
  /-- Case insensitive. -/
  dataType : String
  nullable : Bool
  /-- For structs. -/
  fields : Option (List FieldSchema)
  /-- For lists. -/
  item : Option FieldSchema

/-- The induction over a schema: over its fields and its item, and over lists of schemas. -/
theorem FieldSchema.induction {P : FieldSchema → Prop} {Q : List FieldSchema → Prop}
    (mk : ∀ fs : FieldSchema, (∀ fields, fs.fields = some fields → Q fields) → (∀ item, fs.item = some item → P item) → P fs)
    (nil : Q []) (cons : ∀ fs rest, P fs → Q rest → Q (fs :: rest)) : (∀ fs, P fs) ∧ ∀ fields, Q fields := by
  have hall : ∀ fs, P fs := by
    intro fs
    refine @FieldSchema.rec P (fun fields? => ∀ fields, fields? = some fields → Q fields)
      (fun item? => ∀ item, item? = some item → P item) Q ?_ ?_ ?_ ?_ ?_ nil cons fs
    · exact fun name dataType nullable fields item hfields hitem => mk ⟨name, dataType, nullable, fields, item⟩ hfields hitem
    · exact fun _ h => absurd h (by simp)
    · rintro fields hfields _ ⟨⟩
      exact hfields
    · exact fun _ h => absurd h (by simp)
    · rintro item hitem _ ⟨⟩
      exact hitem
  refine ⟨hall, fun fields => ?_⟩
  induction fields with
  | nil => exact nil
  | cons fs rest ih => exact cons fs rest (hall fs) ih

inductive SchemaBuildError where
  | invalidDecimal (dataType : String)
  | invalidSchema (message : String)
  | unsupportedType (message : String)
  deriving DecidableEq, Repr

/-- `to_lowercase`. The letters outside ASCII are kept here: with or without them a text that has
others is the name of no type, and they show only in the texts of errors. -/
def toLowercase (s : String) : String := String.ofList (Lib.toLowercase s.toList)

/-! ## Decimals -/

/-- The number that decimal digits stand for. -/
def parseDigits (s : List Char) : Option Nat :=
  if s.isEmpty ∨ s.any (!·.isDigit) then none
  else some (s.foldl (fun n c => 10 * n + (c.toNat - '0'.toNat)) 0)

/-- `parse::<u8>`: digits with an optional plus sign. -/
def parseU8 (s : List Char) : Option UInt8 := do
  let n ← parseDigits (if s.head? = some '+' then s.tail else s)
  if n < 2 ^ 8 then some (UInt8.ofNat n) else none

/-- `parse::<i8>`: digits with an optional sign. -/
def parseI8 (s : List Char) : Option Int8 :=
  if s.head? = some '-' then do
    let n ← parseDigits s.tail
    if n ≤ 2 ^ 7 then some (Int8.ofInt (-n)) else none
  else do
    let n ← parseDigits (if s.head? = some '+' then s.tail else s)
    if n < 2 ^ 7 then some (Int8.ofInt n) else none

/-- The precision and the scale in `decimal(precision)` or `decimal(precision, scale)`. -/
def parseDecimal (dataTypeStr : String) : Except SchemaBuildError (UInt8 × Int8) :=
  let inner := (dataTypeStr.toList.drop 8).dropLast
  let parts := (inner.splitOn ',').map trim
  match parts with
  | [part] =>
    match parseU8 part with
    | some precision => .ok (precision, 0)
    | none => .error (.invalidDecimal dataTypeStr)
  | [part, part'] =>
    match parseU8 part, parseI8 part' with
    | some precision, some scale => .ok (precision, scale)
    | _, _ => .error (.invalidDecimal dataTypeStr)
  | _ => .error (.invalidDecimal dataTypeStr)

/-! ## Fields -/

/-- What the name of a type stands for. -/
inductive TypeName where
  | primitive (dataType : DataType)
  | decimal
  | struct
  | list
  | other

/-- The cases of `build_field_from_schema`. -/
def typeName (dataTypeStr : String) : TypeName :=
  match dataTypeStr with
  | "int16" => .primitive .int16
  | "int32" => .primitive .int32
  | "int64" => .primitive .int64
  | "string" | "text" => .primitive .utf8
  | "boolean" | "bool" => .primitive .boolean
  | "float32" => .primitive .float32
  | "float64" => .primitive .float64
  | "date32" => .primitive .date32
  | "struct" => .struct
  | "list" | "array" => .list
  | other =>
    if "decimal(".toList.isPrefixOf other.toList ∧ other.toList.getLast? = some ')' then .decimal else .other

/-- The check of the item of a list. -/
def isNestedType (dataType : String) : Bool := dataType = "list" ∨ dataType = "array" ∨ dataType = "struct"

mutual
def buildFieldFromSchema : FieldSchema → Option String → Int32 → Except SchemaBuildError (Field × Int32)
  | ⟨name, dataType, nullable, fields, item⟩, overrideName, fieldId =>
    let fieldName := overrideName.getD name
    let dataTypeStr := toLowercase dataType
    match typeName dataTypeStr with
    | .primitive dataType => .ok (tagged fieldName dataType nullable fieldId)
    | .decimal => do
      let (precision, scale) ← parseDecimal dataTypeStr
      return tagged fieldName (.decimal128 precision scale) nullable fieldId
    | .struct =>
      match fields with
      | none => .error (.invalidSchema s!"Missing 'fields' for struct '{name}'")
      | some fields => do
        let (children, fieldId) ← buildFields fields fieldId
        return tagged fieldName (.struct children) nullable fieldId
    | .list =>
      match item with
      | none => .error (.invalidSchema s!"Missing 'item' for list '{name}'")
      | some item => do
        if isNestedType item.dataType then
          throw (.unsupportedType
            s!"Invalid 'item' for list '{name}': list/array/struct is not supported as a list item")
        let (itemField, fieldId) ← buildFieldFromSchema item (some "item") fieldId
        return tagged fieldName (.list itemField) nullable fieldId
    | .other => .error (.unsupportedType dataTypeStr)
/-- The fields one after the other, up to the first error. -/
def buildFields : List FieldSchema → Int32 → Except SchemaBuildError (List Field × Int32)
  | [], fieldId => .ok ([], fieldId)
  | fs :: rest, fieldId => do
    let (field, fieldId) ← buildFieldFromSchema fs none fieldId
    let (fields, fieldId) ← buildFields rest fieldId
    return (field :: fields, fieldId)
end

def buildArrowSchemaImpl (fields : List FieldSchema) : Except SchemaBuildError (List Field) := do
  let (builtFields, _) ← buildFields fields 0
  return builtFields

/-! ## Schemas that are accepted -/

/-- The schema of a field that is built, one case for each kind of type. -/
theorem buildFieldFromSchema_cases {fs : FieldSchema} {o : Option String} {c : Int32} {r : Field × Int32}
    (h : buildFieldFromSchema fs o c = .ok r) :
    (∃ type, typeName (toLowercase fs.dataType) = .primitive type ∧ r = tagged (o.getD fs.name) type fs.nullable c) ∨
    (∃ precision scale, typeName (toLowercase fs.dataType) = .decimal ∧
      parseDecimal (toLowercase fs.dataType) = .ok (precision, scale) ∧
      r = tagged (o.getD fs.name) (.decimal128 precision scale) fs.nullable c) ∨
    (∃ fields children c', typeName (toLowercase fs.dataType) = .struct ∧ fs.fields = some fields ∧
      buildFields fields c = .ok (children, c') ∧ r = tagged (o.getD fs.name) (.struct children) fs.nullable c') ∨
    ∃ item itemField c', typeName (toLowercase fs.dataType) = .list ∧ fs.item = some item ∧
      isNestedType item.dataType = false ∧ buildFieldFromSchema item (some "item") c = .ok (itemField, c') ∧
      r = tagged (o.getD fs.name) (.list itemField) fs.nullable c' := by
  obtain ⟨name, dataType, nullable, fields, item⟩ := fs
  unfold buildFieldFromSchema at h
  dsimp only at h ⊢
  cases htype : typeName (toLowercase dataType) with
  | primitive type =>
    rw [htype] at h
    cases h
    exact .inl ⟨type, rfl, rfl⟩
  | decimal =>
    rw [htype] at h
    obtain ⟨⟨precision, scale⟩, hparse, heq⟩ := bind_eq_ok.mp h
    cases heq
    exact .inr (.inl ⟨precision, scale, rfl, hparse, rfl⟩)
  | struct =>
    rw [htype] at h
    cases fields with
    | none => cases h
    | some fields =>
      obtain ⟨⟨children, c'⟩, hchildren, heq⟩ := bind_eq_ok.mp h
      cases heq
      exact .inr (.inr (.inl ⟨fields, children, c', rfl, rfl, hchildren, rfl⟩))
  | list =>
    rw [htype] at h
    cases item with
    | none => cases h
    | some item =>
      dsimp only at h
      split at h
      · cases h
      · next hitem =>
          obtain ⟨⟨itemField, c'⟩, hbuilt, heq⟩ := bind_eq_ok.mp h
          cases heq
          exact .inr (.inr (.inr ⟨item, itemField, c', rfl, rfl, by simpa using hitem, hbuilt, rfl⟩))
  | other =>
    rw [htype] at h
    cases h

theorem buildFields_cons {fs : FieldSchema} {rest : List FieldSchema} {c : Int32} {r : List Field × Int32} :
    buildFields (fs :: rest) c = .ok r ↔ ∃ field c₁ fields c₂, buildFieldFromSchema fs none c = .ok (field, c₁) ∧
      buildFields rest c₁ = .ok (fields, c₂) ∧ r = (field :: fields, c₂) := by
  rw [buildFields]
  constructor
  · intro h
    obtain ⟨⟨field, c₁⟩, hfield, hrest⟩ := bind_eq_ok.mp h
    obtain ⟨⟨fields, c₂⟩, hfields, heq⟩ := bind_eq_ok.mp hrest
    cases heq
    exact ⟨field, c₁, fields, c₂, hfield, hfields, rfl⟩
  · rintro ⟨field, c₁, fields, c₂, hfield, hfields, rfl⟩
    rw [hfield, ok_bind]
    dsimp only
    rw [hfields]
    rfl

theorem buildArrowSchemaImpl_eq_ok_iff {fields : List FieldSchema} {schema : List Field} :
    buildArrowSchemaImpl fields = .ok schema ↔ ∃ c, buildFields fields 0 = .ok (schema, c) := by
  rw [buildArrowSchemaImpl]
  constructor
  · intro h
    obtain ⟨⟨built, c⟩, hbuilt, heq⟩ := bind_eq_ok.mp h
    cases heq
    exact ⟨c, hbuilt⟩
  · rintro ⟨c, hbuilt⟩
    rw [hbuilt]
    rfl

/-- The induction over the fields that are built: over their types, and over the lists of fields. -/
theorem build_induction {P : FieldSchema → Option String → Int32 → Field × Int32 → Prop}
    {Q : List FieldSchema → Int32 → List Field × Int32 → Prop}
    (primitive : ∀ fs o c type, typeName (toLowercase fs.dataType) = .primitive type →
      P fs o c (tagged (o.getD fs.name) type fs.nullable c))
    (decimal : ∀ fs o c precision scale, typeName (toLowercase fs.dataType) = .decimal →
      parseDecimal (toLowercase fs.dataType) = .ok (precision, scale) →
      P fs o c (tagged (o.getD fs.name) (.decimal128 precision scale) fs.nullable c))
    (struct : ∀ fs o c fields children c', typeName (toLowercase fs.dataType) = .struct → fs.fields = some fields →
      Q fields c (children, c') → P fs o c (tagged (o.getD fs.name) (.struct children) fs.nullable c'))
    (list : ∀ fs o c item itemField c', typeName (toLowercase fs.dataType) = .list → fs.item = some item →
      isNestedType item.dataType = false → P item (some "item") c (itemField, c') →
      P fs o c (tagged (o.getD fs.name) (.list itemField) fs.nullable c'))
    (nil : ∀ c, Q [] c ([], c))
    (cons : ∀ fs rest c field c₁ fields c₂, P fs none c (field, c₁) → Q rest c₁ (fields, c₂) →
      Q (fs :: rest) c (field :: fields, c₂)) :
    (∀ fs o c r, buildFieldFromSchema fs o c = .ok r → P fs o c r) ∧
      ∀ fields c r, buildFields fields c = .ok r → Q fields c r := by
  refine FieldSchema.induction ?_ ?_ ?_
  · intro fs hfieldsInd hitemInd o c r h
    obtain ⟨type, htype, rfl⟩ | ⟨precision, scale, htype, hparse, rfl⟩ |
      ⟨fields, children, c', htype, hfields, hbuilt, rfl⟩ |
      ⟨item, itemField, c', htype, hitem, hnested, hbuilt, rfl⟩ := buildFieldFromSchema_cases h
    · exact primitive fs o c type htype
    · exact decimal fs o c precision scale htype hparse
    · exact struct fs o c fields children c' htype hfields (hfieldsInd fields hfields c _ hbuilt)
    · exact list fs o c item itemField c' htype hitem hnested (hitemInd item hitem _ c _ hbuilt)
  · intro c r h
    cases h
    exact nil c
  · intro fs rest hfs hrest c r h
    obtain ⟨field, c₁, fields, c₂, hfield, hfields, rfl⟩ := buildFields_cons.mp h
    exact cons fs rest c field c₁ fields c₂ (hfs _ c _ hfield) (hrest c₁ _ hfields)

end Moonlink.Schema
