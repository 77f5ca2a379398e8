-- SUMMARY: Field schemas that differ only in the letter case of their types, and when the same Arrow schema is built from them.
import Moonlink.Schema.RestSchema

/-!
# The letter case of types

Types are lower-cased before they are looked at, apart from the type of the item of a list,
which is looked at first. Two spellings of a list of lists are told apart by it: the one in
lower case is rejected and another one accepted.
-/

namespace Moonlink.Schema

open Lib

namespace FieldSchema

mutual
/-- The schema with all its types in lower case. -/
def lowerCase : FieldSchema → FieldSchema
  | ⟨name, dataType, nullable, fields, item⟩ =>
    ⟨name, toLowercase dataType, nullable,
      match fields with
      | none => none
      | some fields => some (lowerCaseAll fields),
      match item with
      | none => none
      | some item => some item.lowerCase⟩
def lowerCaseAll : List FieldSchema → List FieldSchema
  | [] => []
  | fs :: rest => fs.lowerCase :: lowerCaseAll rest
end

/-- They differ only in the letter case of types. -/
def SameButCase (fields fields' : List FieldSchema) : Prop := lowerCaseAll fields = lowerCaseAll fields'

mutual
/-- Every type that is looked at has a known name, decimals their numbers, structs fields and lists an
item. -/
def WellFormed : FieldSchema → Prop
  | ⟨_, dataType, _, fields, item⟩ =>
    match typeName (toLowercase dataType) with
    | .primitive _ => True
    | .decimal => ∃ d, parseDecimal (toLowercase dataType) = .ok d
    | .struct =>
      match fields with
      | none => False
      | some fields => AllWellFormed fields
    | .list =>
      match item with
      | none => False
      | some item => item.WellFormed
    | .other => False
def AllWellFormed : List FieldSchema → Prop
  | [] => True
  | fs :: rest => fs.WellFormed ∧ AllWellFormed rest
end

mutual
/-- A list has an item whose type is spelled as given. -/
def HasItem (spelled : String → Bool) : FieldSchema → Prop
  | ⟨_, dataType, _, fields, item⟩ =>
    match typeName (toLowercase dataType) with
    | .struct =>
      match fields with
      | none => False
      | some fields => AnyHasItem spelled fields
    | .list =>
      match item with
      | none => False
      | some item => spelled item.dataType = true ∨ item.HasItem spelled
    | _ => False
def AnyHasItem (spelled : String → Bool) : List FieldSchema → Prop
  | [] => False
  | fs :: rest => fs.HasItem spelled ∨ AnyHasItem spelled rest
end

/-- Some list has lists or structs as its items. -/
def HasNestedLists (fields : List FieldSchema) : Prop := AnyHasItem (fun dataType => isNestedType (toLowercase dataType)) fields

/-- Some list has lists or structs as its items, and their type is spelled in lower case. -/
def SpelledLower (fields : List FieldSchema) : Prop := AnyHasItem isNestedType fields

/-! ## The parts of a spelling -/

variable {fs gs : FieldSchema} {fields fields' : List FieldSchema} {item : FieldSchema} {spelled : String → Bool}

theorem lowerCase_eq_iff : fs.lowerCase = gs.lowerCase ↔
    fs.name = gs.name ∧ toLowercase fs.dataType = toLowercase gs.dataType ∧ fs.nullable = gs.nullable ∧
      fs.fields.map lowerCaseAll = gs.fields.map lowerCaseAll ∧ fs.item.map lowerCase = gs.item.map lowerCase := by
  obtain ⟨name, dataType, nullable, fields, item⟩ := fs
  obtain ⟨name', dataType', nullable', fields', item'⟩ := gs
  unfold lowerCase
  cases fields <;> cases fields' <;> cases item <;> cases item' <;>
    simp only [FieldSchema.mk.injEq, Option.map_none, Option.map_some, reduceCtorEq]

theorem lowerCaseAll_cons_eq (h : lowerCaseAll (fs :: fields) = lowerCaseAll fields') :
    ∃ gs rest, fields' = gs :: rest ∧ fs.lowerCase = gs.lowerCase ∧ lowerCaseAll fields = lowerCaseAll rest := by
  cases fields' with
  | nil => cases h
  | cons gs rest =>
    simp only [lowerCaseAll, List.cons.injEq] at h
    exact ⟨gs, rest, rfl, h.1, h.2⟩

/-- The fields of another spelling are other spellings of the fields. -/
theorem fields_of_lowerCase_eq (h : fs.lowerCase = gs.lowerCase) (hfields : fs.fields = some fields) :
    ∃ fields', gs.fields = some fields' ∧ lowerCaseAll fields = lowerCaseAll fields' := by
  have hmap := (lowerCase_eq_iff.mp h).2.2.2.1
  rw [hfields, Option.map_some, eq_comm, Option.map_eq_some_iff] at hmap
  obtain ⟨fields', hfields', heq⟩ := hmap
  exact ⟨fields', hfields', heq.symm⟩

theorem item_of_lowerCase_eq (h : fs.lowerCase = gs.lowerCase) (hitem : fs.item = some item) :
    ∃ item', gs.item = some item' ∧ item.lowerCase = item'.lowerCase := by
  have hmap := (lowerCase_eq_iff.mp h).2.2.2.2
  rw [hitem, Option.map_some, eq_comm, Option.map_eq_some_iff] at hmap
  obtain ⟨item', hitem', heq⟩ := hmap
  exact ⟨item', hitem', heq.symm⟩

/-- The kinds of types that a well-formed schema has. -/
theorem wellFormed_iff : fs.WellFormed ↔
    (∃ type, typeName (toLowercase fs.dataType) = .primitive type) ∨
    (typeName (toLowercase fs.dataType) = .decimal ∧ ∃ d, parseDecimal (toLowercase fs.dataType) = .ok d) ∨
    (typeName (toLowercase fs.dataType) = .struct ∧ ∃ fields, fs.fields = some fields ∧ AllWellFormed fields) ∨
    (typeName (toLowercase fs.dataType) = .list ∧ ∃ item, fs.item = some item ∧ item.WellFormed) := by
  obtain ⟨name, dataType, nullable, fields, item⟩ := fs
  rw [WellFormed.eq_def]
  dsimp only
  cases typeName (toLowercase dataType) with
  | primitive type => simp
  | decimal => simp
  | struct => cases fields <;> simp
  | list => cases item <;> simp
  | other => simp

theorem hasItem_iff : fs.HasItem spelled ↔
    (typeName (toLowercase fs.dataType) = .struct ∧ ∃ fields, fs.fields = some fields ∧ AnyHasItem spelled fields) ∨
    (typeName (toLowercase fs.dataType) = .list ∧
      ∃ item, fs.item = some item ∧ (spelled item.dataType = true ∨ item.HasItem spelled)) := by
  obtain ⟨name, dataType, nullable, fields, item⟩ := fs
  rw [HasItem.eq_def]
  dsimp only
  cases typeName (toLowercase dataType) with
  | primitive type => simp
  | decimal => simp
  | struct => cases fields <;> simp
  | list => cases item <;> simp
  | other => simp

/-! ## What the spellings of a schema share -/

/-- Whether a schema is well formed does not depend on its spelling. -/
theorem wellFormed_congr : (∀ fs gs : FieldSchema, fs.lowerCase = gs.lowerCase → fs.WellFormed → gs.WellFormed) ∧
    ∀ fields fields' : List FieldSchema, SameButCase fields fields' → AllWellFormed fields → AllWellFormed fields' := by
  refine FieldSchema.induction ?_ ?_ ?_
  · intro fs hfieldsInd hitemInd gs h hwf
    have htypes := (lowerCase_eq_iff.mp h).2.1
    rw [wellFormed_iff] at hwf ⊢
    rw [← htypes]
    obtain hprimitive | hdecimal | ⟨htype, fields, hfields, hwf⟩ | ⟨htype, item, hitem, hwf⟩ := hwf
    · exact .inl hprimitive
    · exact .inr (.inl hdecimal)
    · obtain ⟨fields', hfields', heq⟩ := fields_of_lowerCase_eq h hfields
      exact .inr (.inr (.inl ⟨htype, fields', hfields', hfieldsInd fields hfields fields' heq hwf⟩))
    · obtain ⟨item', hitem', heq⟩ := item_of_lowerCase_eq h hitem
      exact .inr (.inr (.inr ⟨htype, item', hitem', hitemInd item hitem item' heq hwf⟩))
  · intro fields' h _
    cases fields' with
    | nil => trivial
    | cons gs rest => cases h
  · intro fs rest hfs hrest fields' h hwf
    obtain ⟨gs, rest', rfl, hhead, htail⟩ := lowerCaseAll_cons_eq h
    exact ⟨hfs gs hhead hwf.1, hrest rest' htail hwf.2⟩

/-- Nor do the items of its lists, if their types are lower-cased before they are compared. -/
theorem hasItem_congr (hspelled : ∀ s s', toLowercase s = toLowercase s' → spelled s = spelled s') :
    (∀ fs gs : FieldSchema, fs.lowerCase = gs.lowerCase → fs.HasItem spelled → gs.HasItem spelled) ∧
    ∀ fields fields' : List FieldSchema, SameButCase fields fields' → AnyHasItem spelled fields →
      AnyHasItem spelled fields' := by
  refine FieldSchema.induction ?_ ?_ ?_
  · intro fs hfieldsInd hitemInd gs h hhas
    have htypes := (lowerCase_eq_iff.mp h).2.1
    rw [hasItem_iff] at hhas ⊢
    rw [← htypes]
    obtain ⟨htype, fields, hfields, hhas⟩ | ⟨htype, item, hitem, hhas⟩ := hhas
    · obtain ⟨fields', hfields', heq⟩ := fields_of_lowerCase_eq h hfields
      exact .inl ⟨htype, fields', hfields', hfieldsInd fields hfields fields' heq hhas⟩
    · obtain ⟨item', hitem', heq⟩ := item_of_lowerCase_eq h hitem
      refine .inr ⟨htype, item', hitem', hhas.imp (fun hs => ?_) (hitemInd item hitem item' heq)⟩
      rw [← hspelled _ _ (lowerCase_eq_iff.mp heq).2.1]
      exact hs
  · exact fun _ _ h => h.elim
  · intro fs rest hfs hrest fields' h hhas
    obtain ⟨gs, rest', rfl, hhead, htail⟩ := lowerCaseAll_cons_eq h
    exact hhas.imp (hfs gs hhead) (hrest rest' htail)

/-- A spelling in lower case is the spelling that is compared. -/
theorem HasItem.mono {spelled' : String → Bool} (hspelled : ∀ s, spelled s = true → spelled' s = true) :
    (∀ fs : FieldSchema, fs.HasItem spelled → fs.HasItem spelled') ∧
    ∀ fields : List FieldSchema, AnyHasItem spelled fields → AnyHasItem spelled' fields := by
  refine FieldSchema.induction ?_ ?_ ?_
  · intro fs hfieldsInd hitemInd hhas
    rw [hasItem_iff] at hhas ⊢
    obtain ⟨htype, fields, hfields, hhas⟩ | ⟨htype, item, hitem, hhas⟩ := hhas
    · exact .inl ⟨htype, fields, hfields, hfieldsInd fields hfields hhas⟩
    · exact .inr ⟨htype, item, hitem, hhas.imp (hspelled _) (hitemInd item hitem)⟩
  · exact fun h => h.elim
  · exact fun fs rest hfs hrest hhas => hhas.imp hfs hrest

end FieldSchema

open FieldSchema

variable {fields fields' : List FieldSchema}

/-! ## What is accepted -/

variable {s : String}

theorem typeName_eq_struct_iff : typeName s = .struct ↔ s = "struct" := by
  unfold typeName
  split <;> (try split) <;> simp_all

theorem typeName_eq_list_iff : typeName s = .list ↔ s = "list" ∨ s = "array" := by
  unfold typeName
  split <;> (try split) <;> simp_all

theorem isNestedType_iff : isNestedType s = true ↔ typeName s = .struct ∨ typeName s = .list := by
  rw [typeName_eq_struct_iff, typeName_eq_list_iff, isNestedType]
  simp only [decide_eq_true_eq]
  tauto

theorem isScalar_of_primitive {type : DataType} (h : typeName s = .primitive type) :
    type.isScalar = true := by
  unfold typeName at h
  split at h <;> (try split at h) <;> cases h <;> rfl

/-- Nested types are so in lower case. -/
theorem isNestedType_toLowercase (h : isNestedType s = true) : isNestedType (toLowercase s) = true := by
  simp only [isNestedType, decide_eq_true_eq] at h
  obtain rfl | rfl | rfl := h <;> decide

theorem DataType.hasFlatLists_of_isScalar {type : DataType} (h : type.isScalar = true) : type.HasFlatLists := by
  cases type with
  | list item => cases h
  | struct fields => cases h
  | _ => trivial

/-- A schema that is accepted is well formed, and no item of a list is spelled as a nested type. -/
theorem wellFormed_of_built :
    (∀ fs o c r, buildFieldFromSchema fs o c = .ok r → fs.WellFormed ∧ ¬ fs.HasItem isNestedType) ∧
    ∀ fields c r, buildFields fields c = .ok r → AllWellFormed fields ∧ ¬ AnyHasItem isNestedType fields := by
  refine build_induction ?_ ?_ ?_ ?_ ?_ ?_
  · intro fs o c type htype
    rw [wellFormed_iff, hasItem_iff]
    simp [htype]
  · intro fs o c precision scale htype hparse
    rw [wellFormed_iff, hasItem_iff]
    simp [htype, hparse]
  · intro fs o c fields children c' htype hfields ih
    rw [wellFormed_iff, hasItem_iff]
    simpa [htype, hfields] using ih
  · intro fs o c item itemField c' htype hitem hnested ih
    rw [wellFormed_iff, hasItem_iff]
    simpa [htype, hitem, hnested] using ih
  · exact fun c => ⟨trivial, fun h => h⟩
  · exact fun fs rest c field c₁ fields c₂ hfield hfields =>
      ⟨⟨hfield.1, hfields.1⟩, fun h => h.elim hfield.2 hfields.2⟩

theorem built_of_wellFormed :
    (∀ fs : FieldSchema, fs.WellFormed → ¬ fs.HasItem isNestedType → ∀ o c, ∃ r, buildFieldFromSchema fs o c = .ok r) ∧
    ∀ fields, AllWellFormed fields → ¬ AnyHasItem isNestedType fields → ∀ c, ∃ r, buildFields fields c = .ok r := by
  refine FieldSchema.induction ?_ ?_ ?_
  · intro fs hfieldsInd hitemInd hwf hitems o c
    rw [wellFormed_iff] at hwf
    rw [hasItem_iff] at hitems
    obtain ⟨name, dataType, nullable, fields, item⟩ := fs
    rw [buildFieldFromSchema.eq_def]
    dsimp only at hwf hitems ⊢
    obtain ⟨type, htype⟩ | ⟨htype, d, hd⟩ | ⟨htype, fields, rfl, hwf⟩ | ⟨htype, item, rfl, hwf⟩ := hwf
    · rw [htype]
      exact ⟨_, rfl⟩
    · rw [htype, hd]
      exact ⟨_, rfl⟩
    · obtain ⟨⟨children, c'⟩, hbuilt⟩ := hfieldsInd fields rfl hwf (fun h => hitems (.inl ⟨htype, fields, rfl, h⟩)) c
      rw [htype]
      dsimp only
      rw [hbuilt]
      exact ⟨_, rfl⟩
    · have hnested : ¬ isNestedType item.dataType = true := fun h => hitems (.inr ⟨htype, item, rfl, .inl h⟩)
      obtain ⟨⟨itemField, c'⟩, hbuilt⟩ :=
        hitemInd item rfl hwf (fun h => hitems (.inr ⟨htype, item, rfl, .inr h⟩)) (some "item") c
      rw [htype]
      dsimp only
      rw [if_neg hnested, hbuilt]
      exact ⟨_, rfl⟩
  · exact fun _ _ c => ⟨_, rfl⟩
  · intro fs rest hfs hrest hwf hitems c
    obtain ⟨⟨field, c₁⟩, hfield⟩ := hfs hwf.1 (fun h => hitems (.inl h)) none c
    obtain ⟨⟨fields, c₂⟩, hfields⟩ := hrest hwf.2 (fun h => hitems (.inr h)) c₁
    exact ⟨_, buildFields_cons.mpr ⟨field, c₁, fields, c₂, hfield, hfields, rfl⟩⟩

/-- Spellings that are accepted have the same schema. -/
theorem built_unique :
    (∀ fs o c r, buildFieldFromSchema fs o c = .ok r → ∀ gs : FieldSchema, fs.lowerCase = gs.lowerCase → ∀ r',
      buildFieldFromSchema gs o c = .ok r' → r' = r) ∧
    ∀ fields c r, buildFields fields c = .ok r → ∀ fields', SameButCase fields fields' → ∀ r',
      buildFields fields' c = .ok r' → r' = r := by
  refine build_induction ?_ ?_ ?_ ?_ ?_ ?_
  · intro fs o c type htype gs heq r' h
    obtain ⟨hname, htypes, hnullable, -, -⟩ := lowerCase_eq_iff.mp heq
    rw [htypes] at htype
    rw [hname, hnullable]
    obtain ⟨type', htype', rfl⟩ | ⟨_, _, htype', -, -⟩ | ⟨_, _, _, htype', -, -, -⟩ | ⟨_, _, _, htype', -, -, -, -⟩ :=
      buildFieldFromSchema_cases h <;> rw [htype] at htype' <;> cases htype'
    rfl
  · intro fs o c precision scale htype hparse gs heq r' h
    obtain ⟨hname, htypes, hnullable, -, -⟩ := lowerCase_eq_iff.mp heq
    rw [htypes] at htype hparse
    rw [hname, hnullable]
    obtain ⟨type', htype', -⟩ | ⟨_, _, htype', hparse', rfl⟩ | ⟨_, _, _, htype', -, -, -⟩ |
      ⟨_, _, _, htype', -, -, -, -⟩ := buildFieldFromSchema_cases h <;> rw [htype] at htype' <;> cases htype'
    rw [hparse] at hparse'
    cases hparse'
    rfl
  · intro fs o c fields children c' htype hfields ih gs heq r' h
    obtain ⟨hname, htypes, hnullable, -, -⟩ := lowerCase_eq_iff.mp heq
    obtain ⟨fields', hfields', hsame⟩ := fields_of_lowerCase_eq heq hfields
    rw [htypes] at htype
    rw [hname, hnullable]
    obtain ⟨type', htype', -⟩ | ⟨_, _, htype', -, -⟩ | ⟨_, _, _, htype', hfields'', hbuilt, rfl⟩ |
      ⟨_, _, _, htype', -, -, -, -⟩ := buildFieldFromSchema_cases h <;> rw [htype] at htype' <;> cases htype'
    rw [hfields'] at hfields''
    cases hfields''
    cases ih fields' hsame _ hbuilt
    rfl
  · intro fs o c item itemField c' htype hitem hnested ih gs heq r' h
    obtain ⟨hname, htypes, hnullable, -, -⟩ := lowerCase_eq_iff.mp heq
    obtain ⟨item', hitem', hsame⟩ := item_of_lowerCase_eq heq hitem
    rw [htypes] at htype
    rw [hname, hnullable]
    obtain ⟨type', htype', -⟩ | ⟨_, _, htype', -, -⟩ | ⟨_, _, _, htype', -, -, -⟩ |
      ⟨_, _, _, htype', hitem'', -, hbuilt, rfl⟩ := buildFieldFromSchema_cases h <;> rw [htype] at htype' <;> cases htype'
    rw [hitem'] at hitem''
    cases hitem''
    cases ih item' hsame _ hbuilt
    rfl
  · intro c fields' hsame r' h
    cases fields' with
    | nil =>
      cases h
      rfl
    | cons gs rest => cases hsame
  · intro fs rest c field c₁ fields c₂ hfield hfields fields' hsame r' h
    obtain ⟨gs, rest', rfl, hhead, htail⟩ := lowerCaseAll_cons_eq hsame
    obtain ⟨field', c₁', fields', c₂', hfield', hfields', rfl⟩ := buildFields_cons.mp h
    cases hfield gs hhead _ hfield'
    cases hfields rest' htail _ hfields'
    rfl

/-- The lists of the schema that is built are flat if no item is a nested type in any spelling. -/
theorem hasFlatLists_iff :
    (∀ fs o c r, buildFieldFromSchema fs o c = .ok r →
      (r.1.dataType.isScalar = true ↔ ¬ isNestedType (toLowercase fs.dataType) = true) ∧
      (r.1.dataType.HasFlatLists ↔ ¬ fs.HasItem fun dataType => isNestedType (toLowercase dataType))) ∧
    ∀ fields c r, buildFields fields c = .ok r → (Field.AllHaveFlatLists r.1 ↔ ¬ HasNestedLists fields) := by
  refine build_induction ?_ ?_ ?_ ?_ ?_ ?_
  · intro fs o c type htype
    have hscalar : type.isScalar = true := isScalar_of_primitive htype
    refine ⟨iff_of_true hscalar ?_, iff_of_true (DataType.hasFlatLists_of_isScalar hscalar) ?_⟩
    · simp [isNestedType_iff, htype]
    · rw [hasItem_iff]
      simp [htype]
  · intro fs o c precision scale htype _
    refine ⟨iff_of_true rfl ?_, iff_of_true trivial ?_⟩
    · simp [isNestedType_iff, htype]
    · rw [hasItem_iff]
      simp [htype]
  · intro fs o c fields children c' htype hfields ih
    refine ⟨iff_of_false (by simp [tagged, DataType.isScalar]) ?_, ?_⟩
    · simp [isNestedType_iff, htype]
    · rw [hasItem_iff]
      simpa [htype, hfields, tagged, DataType.HasFlatLists, HasNestedLists] using ih
  · intro fs o c item itemField c' htype hitem _ ih
    refine ⟨iff_of_false (by simp [tagged, DataType.isScalar]) ?_, ?_⟩
    · simp [isNestedType_iff, htype]
    · have hdeep : itemField.dataType.isScalar = true → itemField.dataType.HasFlatLists :=
        DataType.hasFlatLists_of_isScalar
      have hitems : (tagged (o.getD fs.name) (.list itemField) fs.nullable c').1.dataType.HasFlatLists ↔
          itemField.dataType.isScalar = true := by
        rw [tagged, DataType.HasFlatLists]
      rw [hitems, hasItem_iff]
      simp only [htype, hitem, reduceCtorEq, false_and, false_or, true_and, Option.some.injEq, exists_eq_left']
      rw [not_or, ← ih.1, ← ih.2]
      exact ⟨fun h => ⟨h, hdeep h⟩, fun h => h.1⟩
  · exact fun c => iff_of_true trivial fun h => h
  · intro fs rest c field c₁ fields c₂ hfield hfields
    obtain ⟨name, dataType, nullable, fieldId, extensionType⟩ := field
    rw [HasNestedLists, AnyHasItem, not_or, ← hfield.2]
    exact and_congr_right fun _ => hfields

/-! ## Two spellings -/

/-- The same schema is built for both spellings or both are rejected, and none has a list of lists or of
structs. -/
structure CaseInsensitive (fields fields' : List FieldSchema) : Prop where
  same : ∀ schema, buildArrowSchemaImpl fields = .ok schema ↔ buildArrowSchemaImpl fields' = .ok schema
  flat : ∀ schema, buildArrowSchemaImpl fields = .ok schema → Field.AllHaveFlatLists schema

/-- A schema is accepted exactly if it is well formed and spells no item as a nested type. -/
theorem exists_schema_iff : (∃ schema, buildArrowSchemaImpl fields = .ok schema) ↔
    AllWellFormed fields ∧ ¬ SpelledLower fields := by
  simp only [buildArrowSchemaImpl_eq_ok_iff]
  constructor
  · rintro ⟨schema, c, h⟩
    exact wellFormed_of_built.2 fields 0 _ h
  · rintro ⟨hwf, hspelled⟩
    obtain ⟨⟨schema, c⟩, h⟩ := built_of_wellFormed.2 fields hwf hspelled 0
    exact ⟨schema, c, h⟩

theorem flat_iff {schema : List Field} (h : buildArrowSchemaImpl fields = .ok schema) :
    Field.AllHaveFlatLists schema ↔ ¬ HasNestedLists fields := by
  obtain ⟨c, hbuilt⟩ := buildArrowSchemaImpl_eq_ok_iff.mp h
  exact hasFlatLists_iff.2 fields 0 _ hbuilt

theorem hasNestedLists_of_spelledLower (h : SpelledLower fields) : HasNestedLists fields :=
  (HasItem.mono fun _ => isNestedType_toLowercase).2 fields h

theorem hasNestedLists_congr (hsame : SameButCase fields fields') (h : HasNestedLists fields) :
    HasNestedLists fields' :=
  (hasItem_congr fun _ _ heq => by rw [heq]).2 fields fields' hsame h

/-- If no item of a list is a nested type, whatever is built from one spelling is built from the other. -/
theorem built_congr (hsame : SameButCase fields fields') (hnested : ¬ HasNestedLists fields) {schema : List Field}
    (h : buildArrowSchemaImpl fields = .ok schema) : buildArrowSchemaImpl fields' = .ok schema := by
  have hwf := (exists_schema_iff.mp ⟨schema, h⟩).1
  have hspelled : ¬ SpelledLower fields' := fun hs => hnested (hasNestedLists_congr hsame.symm (hasNestedLists_of_spelledLower hs))
  obtain ⟨schema', h'⟩ := exists_schema_iff.mpr ⟨wellFormed_congr.2 fields fields' hsame hwf, hspelled⟩
  obtain ⟨c, hbuilt⟩ := buildArrowSchemaImpl_eq_ok_iff.mp h
  obtain ⟨c', hbuilt'⟩ := buildArrowSchemaImpl_eq_ok_iff.mp h'
  cases built_unique.2 fields 0 _ hbuilt fields' hsame _ hbuilt'
  exact h'

/-- The letter case of types does not matter exactly if a schema that is otherwise well formed has only
lists of scalars, or both spellings have a nested type in lower case as an item. -/
theorem caseInsensitive_iff (hsame : SameButCase fields fields') : CaseInsensitive fields fields' ↔
    (AllWellFormed fields → HasNestedLists fields → SpelledLower fields ∧ SpelledLower fields') := by
  have hwf' : AllWellFormed fields → AllWellFormed fields' := wellFormed_congr.2 fields fields' hsame
  constructor
  · intro h hwf hnested
    have hlower : SpelledLower fields := by
      by_contra hspelled
      obtain ⟨schema, hbuilt⟩ := exists_schema_iff.mpr ⟨hwf, hspelled⟩
      exact (flat_iff hbuilt).mp (h.flat schema hbuilt) hnested
    refine ⟨hlower, ?_⟩
    by_contra hspelled
    obtain ⟨schema, hbuilt⟩ := exists_schema_iff.mpr ⟨hwf' hwf, hspelled⟩
    exact (exists_schema_iff.mp ⟨schema, (h.same schema).mpr hbuilt⟩).2 hlower
  · intro hcond
    have hflat : ∀ schema, buildArrowSchemaImpl fields = .ok schema → ¬ HasNestedLists fields := by
      intro schema h hnested
      obtain ⟨hwf, hspelled⟩ := exists_schema_iff.mp ⟨schema, h⟩
      exact hspelled (hcond hwf hnested).1
    have hflat' : ∀ schema, buildArrowSchemaImpl fields' = .ok schema → ¬ HasNestedLists fields' := by
      intro schema h hnested
      obtain ⟨hwf, hspelled⟩ := exists_schema_iff.mp ⟨schema, h⟩
      have hwf' := wellFormed_congr.2 fields' fields hsame.symm hwf
      exact hspelled (hcond hwf' (hasNestedLists_congr hsame.symm hnested)).2
    constructor
    · intro schema
      exact ⟨fun h => built_congr hsame (hflat schema h) h, fun h => built_congr hsame.symm (hflat' schema h) h⟩
    · exact fun schema h => (flat_iff h).mpr (hflat schema h)

/-- A list of lists, with the type of its items spelled as given. -/
def matrix (spelling : String) : List FieldSchema :=
  [⟨"matrix", "array", true, none, some ⟨"row", spelling, true, none, some ⟨"cell", "int32", true, none, none⟩⟩⟩]

/-- A struct with a list of labels. -/
def labelled (struct list text : String) : List FieldSchema :=
  [⟨"event", struct, true, some [⟨"labels", list, true, none, some ⟨"label", text, true, none, none⟩⟩], none⟩]

theorem caseInsensitive_iff_label :
    CaseInsensitive (labelled "Struct" "List" "Text") (labelled "STRUCT" "LIST" "TEXT") := by
  have hsame : SameButCase (labelled "Struct" "List" "Text") (labelled "STRUCT" "LIST" "TEXT") := rfl
  refine (caseInsensitive_iff hsame).mpr fun _ h => ?_
  have hstruct : typeName (toLowercase "Struct") = .struct := rfl
  have hlist : typeName (toLowercase "List") = .list := rfl
  have htext : typeName (toLowercase "Text") = .primitive .utf8 := rfl
  have hitem : isNestedType (toLowercase "Text") = false := rfl
  rw [HasNestedLists, labelled, AnyHasItem, hasItem_iff, hstruct] at h
  simp only [reduceCtorEq, false_and, or_false, true_and, Option.some.injEq, exists_eq_left', AnyHasItem] at h
  rw [hasItem_iff, hlist] at h
  simp only [reduceCtorEq, false_and, false_or, true_and, Option.some.injEq, exists_eq_left', hitem,
    Bool.false_eq_true] at h
  rw [hasItem_iff, htext] at h
  simp at h

/-- A list of lists is rejected, but not if the type of its items is spelled `List`. -/
theorem matrix_accepted : SameButCase (matrix "list") (matrix "List") ∧
    ¬ CaseInsensitive (matrix "list") (matrix "List") := by
  refine ⟨rfl, fun h => ?_⟩
  have hrejected : (buildArrowSchemaImpl (matrix "list")).isOk = false := by decide +kernel
  have haccepted : (buildArrowSchemaImpl (matrix "List")).isOk = true := by decide +kernel
  cases hbuilt : buildArrowSchemaImpl (matrix "List") with
  | error e =>
    rw [hbuilt] at haccepted
    cases haccepted
  | ok schema =>
    rw [(h.same schema).mpr hbuilt] at hrejected
    cases hrejected

end Moonlink.Schema
