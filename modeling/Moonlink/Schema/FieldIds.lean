-- SUMMARY: The ids that the three builders of Arrow schemas give to the fields at every depth.
import Mathlib.Data.List.Range
import Moonlink.Schema.RestSchema
import Moonlink.Schema.PostgresSchema
import Moonlink.Schema.AvroSchema

namespace Moonlink.Schema

open Lib

variable {c c₁ c₂ : Int32} {m n : Nat} {ids ids' : List (Option Int32)}

/-! ## The values of a counter -/

/-- The next `n` values. -/
def idsFrom (c : Int32) (n : Nat) : List (Option Int32) := (List.range n).map fun i => some (c + Int32.ofNat i)

theorem idsFrom_add : idsFrom c (m + n) = idsFrom c m ++ idsFrom (c + Int32.ofNat m) n := by
  simp only [idsFrom, List.range_add, List.map_append, List.map_map]
  congr 1
  refine List.map_congr_left fun i _ => ?_
  simp [Int32.add_assoc]

theorem nodup_idsFrom_iff : (idsFrom c n).Nodup ↔ n ≤ 2 ^ 32 := by
  have hinj : ∀ i j, some (c + Int32.ofNat i) = some (c + Int32.ofNat j) ↔ i % 2 ^ 32 = j % 2 ^ 32 := by
    intro i j
    rw [Option.some.injEq, Int32.add_right_inj, ← Int32.toBitVec_inj]
    simp only [Int32.toBitVec_ofNat', ← BitVec.toNat_inj, BitVec.toNat_ofNat]
  constructor
  · intro h
    by_contra hlt
    have heq := List.inj_on_of_nodup_map h (List.mem_range.mpr (show 0 < n by omega))
      (List.mem_range.mpr (show 2 ^ 32 < n by omega)) ((hinj 0 (2 ^ 32)).mpr (by decide))
    omega
  · intro hle
    refine List.Nodup.map_on ?_ List.nodup_range
    intro i hi j hj heq
    have hmod := (hinj i j).mp heq
    rw [List.mem_range] at hi hj
    rwa [Nat.mod_eq_of_lt (by omega), Nat.mod_eq_of_lt (by omega)] at hmod

/-- The counter goes from `c` to `c₁`, and the ids are the `n` values in between. -/
structure Numbered (n : Nat) (c : Int32) (ids : List (Option Int32)) (c₁ : Int32) : Prop where
  counter : c₁ = c + Int32.ofNat n
  ids : ids.Perm (idsFrom c n)

namespace Numbered

theorem nil : Numbered 0 c [] c := ⟨by simp, .refl _⟩

theorem append (h : Numbered m c ids c₁) (h' : Numbered n c₁ ids' c₂) : Numbered (m + n) c (ids ++ ids') c₂ := by
  obtain ⟨rfl, hids⟩ := h
  obtain ⟨rfl, hids'⟩ := h'
  refine ⟨by simp [Int32.add_assoc], ?_⟩
  rw [idsFrom_add]
  exact hids.append hids'

/-- A field takes the next value. -/
theorem tag (h : Numbered n c ids c₁) : Numbered (n + 1) c (ids ++ [some c₁]) (c₁ + 1) := by
  refine h.append (n := 1) ⟨rfl, ?_⟩
  simp [idsFrom]

theorem perm (h : Numbered n c ids c₁) (hperm : ids'.Perm ids) : Numbered n c ids' c₁ := ⟨h.counter, hperm.trans h.ids⟩

/-- All ids are there, and they are distinct unless there are more than the counter has values. -/
theorem identified_iff {fields : List Field} (h : Numbered n c (Field.allIds fields) c₁) :
    Field.Identified fields ↔ n ≤ 2 ^ 32 := by
  have hsome : ∀ id ∈ Field.allIds fields, id.isSome = true := by
    intro id hid
    obtain ⟨i, -, rfl⟩ := List.mem_map.mp (h.ids.mem_iff.mp hid)
    rfl
  rw [Field.Identified, h.ids.nodup_iff, nodup_idsFrom_iff]
  exact and_iff_right hsome

end Numbered

/-! ## REST schemas -/

mutual
/-- The number of fields at all depths, with the field itself. -/
def FieldSchema.fieldCount : FieldSchema → Nat
  | ⟨_, dataType, _, fields, item⟩ =>
    match typeName (toLowercase dataType) with
    | .struct =>
      match fields with
      | none => 1
      | some fields => fieldCounts fields + 1
    | .list =>
      match item with
      | none => 1
      | some item => item.fieldCount + 1
    | _ => 1
def FieldSchema.fieldCounts : List FieldSchema → Nat
  | [] => 0
  | fs :: rest => fs.fieldCount + fieldCounts rest
end

theorem FieldSchema.fieldCount_eq (fs : FieldSchema) : fs.fieldCount =
    match typeName (toLowercase fs.dataType) with
    | .struct =>
      match fs.fields with
      | none => 1
      | some fields => fieldCounts fields + 1
    | .list =>
      match fs.item with
      | none => 1
      | some item => item.fieldCount + 1
    | _ => 1 := by
  obtain ⟨name, dataType, nullable, fields, item⟩ := fs
  rw [fieldCount.eq_def]

theorem buildFields_numbered :
    (∀ fs o c r, buildFieldFromSchema fs o c = .ok r → Numbered fs.fieldCount c (Field.fieldIds r.1) r.2) ∧
    ∀ fields c r, buildFields fields c = .ok r → Numbered (FieldSchema.fieldCounts fields) c (Field.allIds r.1) r.2 := by
  refine build_induction ?_ ?_ ?_ ?_ ?_ ?_
  · intro fs o c type htype
    have hcount : fs.fieldCount = 1 := by rw [fs.fieldCount_eq, htype]
    have hids : type.fieldIds = [] := by
      unfold typeName at htype
      split at htype <;> (try split at htype) <;> cases htype <;> rfl
    rw [hcount, tagged, Field.fieldIds, hids]
    exact Numbered.nil.tag
  · intro fs o c precision scale htype _
    have hcount : fs.fieldCount = 1 := by rw [fs.fieldCount_eq, htype]
    rw [hcount]
    exact Numbered.nil.tag
  · intro fs o c fields children c' htype hfields ih
    have hcount : fs.fieldCount = FieldSchema.fieldCounts fields + 1 := by rw [fs.fieldCount_eq, htype, hfields]
    rw [hcount]
    exact ih.tag
  · intro fs o c item itemField c' htype hitem _ ih
    have hcount : fs.fieldCount = item.fieldCount + 1 := by rw [fs.fieldCount_eq, htype, hitem]
    rw [hcount]
    exact ih.tag
  · exact fun c => .nil
  · exact fun fs rest c field c₁ fields c₂ hfield hfields => hfield.append hfields

/-! ## Avro schemas -/

mutual
/-- The number of fields in the type of a schema. A map has its entries, keys and values. -/
def AvroSchema.fieldCount : AvroSchema → Nat
  | .array items => items.fieldCount + 1
  | .map types => types.fieldCount + 3
  | .union variants => variantCounts variants
  | .record fields => fieldCounts fields
  | _ => 0
def AvroSchema.variantCounts : List AvroSchema → Nat
  | [] => 0
  | variant :: rest => variant.fieldCount + variantCounts rest
def AvroSchema.fieldCounts : List (RecordField AvroSchema) → Nat
  | [] => 0
  | ⟨_, schema⟩ :: rest => schema.fieldCount + 1 + fieldCounts rest
end

theorem AvroSchema.fieldCount_of_isNull {schema : AvroSchema} (h : schema.isNull = true) : schema.fieldCount = 0 := by
  cases schema with
  | null => rfl
  | _ => cases h

theorem convertSchemaType_numbered :
    (∀ schema c r, convertSchemaType schema c = .ok r → Numbered schema.fieldCount c r.1.1.fieldIds r.2) ∧
    ∀ fields c r, convertFields fields c = .ok r → Numbered (AvroSchema.fieldCounts fields) c (Field.allIds r.1) r.2 := by
  refine AvroSchema.induction ?_ ?_ ?_ ?_ ?_ ?_ ?_
  · intro schema hsimple c r h
    cases schema with
    | array items => cases hsimple
    | map types => cases hsimple
    | union variants => cases hsimple
    | record fields => cases hsimple
    | other schema => cases h
    | _ =>
      cases h
      exact .nil
  · intro items ih c r h
    obtain ⟨⟨⟨itemType, itemNullable⟩, c₁⟩, hitems, heq⟩ := bind_eq_ok.mp h
    cases heq
    exact (ih c _ hitems).tag
  · intro types ih c r h
    obtain ⟨⟨⟨valueType, valueNullable⟩, c₁⟩, htypes, heq⟩ := bind_eq_ok.mp h
    cases heq
    -- The key has the id after those in the type of the values, which come first.
    refine (ih c _ htypes).tag.tag.tag.perm ?_
    have hmiddle := (@List.perm_middle _ (some c₁) valueType.fieldIds [some (c₁ + 1), some (c₁ + 1 + 1)]).symm
    simpa [tagged, DataType.fieldIds, Field.fieldIds, Field.allIds] using hmiddle
  · intro variants ih c r h
    match variants with
    | [variant, variant'] =>
      simp only [convertSchemaType] at h
      split at h
      · next hnull =>
          split at h
          · cases h
          · obtain ⟨⟨⟨dataType, nullable⟩, c₁⟩, hvariant, heq⟩ := bind_eq_ok.mp h
            cases heq
            have hnumbered := ih variant' (by simp) c _ hvariant
            simpa [AvroSchema.fieldCount, AvroSchema.variantCounts, AvroSchema.fieldCount_of_isNull hnull] using hnumbered
      · split at h
        · next hnull =>
            obtain ⟨⟨⟨dataType, nullable⟩, c₁⟩, hvariant, heq⟩ := bind_eq_ok.mp h
            cases heq
            have hnumbered := ih variant (by simp) c _ hvariant
            simpa [AvroSchema.fieldCount, AvroSchema.variantCounts, AvroSchema.fieldCount_of_isNull hnull] using hnumbered
        · cases h
    | [] => cases h
    | [_] => cases h
    | _ :: _ :: _ :: _ => cases h
  · intro fields ih c r h
    obtain ⟨⟨structFields, c₁⟩, hfields, heq⟩ := bind_eq_ok.mp h
    cases heq
    exact ih c _ hfields
  · intro c r h
    cases h
    exact .nil
  · intro name schema rest hschema hrest c r h
    obtain ⟨⟨⟨dataType, nullable⟩, c₁⟩, htype, hcont⟩ := bind_eq_ok.mp h
    obtain ⟨⟨fields, c₂⟩, hfields, heq⟩ := bind_eq_ok.mp hcont
    cases heq
    exact (hschema c _ htype).tag.append (hrest _ _ hfields)

/-! ## Postgres schemas -/

namespace PgType

mutual
def fieldCount : PgType → Nat
  | .array inner => inner.fieldCount + 1
  | .composite fields => fieldCounts fields + 1
  | _ => 1
def fieldCounts : List (PgField PgType) → Nat
  | [] => 0
  | ⟨_, type⟩ :: rest => type.fieldCount + fieldCounts rest
end

mutual
/-- An enum is in the type, at some depth. -/
def HasEnum : PgType → Prop
  | .array inner => inner.HasEnum
  | .composite fields => AnyHasEnum fields
  | .enum => True
  | _ => False
def AnyHasEnum : List (PgField PgType) → Prop
  | [] => False
  | ⟨_, type⟩ :: rest => type.HasEnum ∨ AnyHasEnum rest
end

end PgType

/-- The ids are numbered, apart from those of enums, which are missing. -/
structure NumberedBut (hasEnum : Prop) (n : Nat) (c : Int32) (ids : List (Option Int32)) (c₁ : Int32) : Prop where
  numbered : ¬ hasEnum → Numbered n c ids c₁
  missing : hasEnum → none ∈ ids

namespace NumberedBut

variable {p q : Prop}

theorem append (h : NumberedBut p m c ids c₁) (h' : NumberedBut q n c₁ ids' c₂) :
    NumberedBut (p ∨ q) (m + n) c (ids ++ ids') c₂ where
  numbered hnot := (h.numbered fun hp => hnot (.inl hp)).append (h'.numbered fun hq => hnot (.inr hq))
  missing hor := List.mem_append.mpr (hor.imp h.missing h'.missing)

theorem tag (h : NumberedBut p n c ids c₁) : NumberedBut p (n + 1) c (ids ++ [some c₁]) (c₁ + 1) where
  numbered hnot := (h.numbered hnot).tag
  missing hp := List.mem_append_left _ (h.missing hp)

end NumberedBut

theorem postgresTypeToArrowType_numbered :
    (∀ (type : PgType) modifier name nullable c r, postgresTypeToArrowType type modifier name nullable c = .ok r →
      NumberedBut type.HasEnum type.fieldCount c (Field.fieldIds r.1) r.2) ∧
    ∀ fields c r, compositeFields fields c = .ok r →
      NumberedBut (PgType.AnyHasEnum fields) (PgType.fieldCounts fields) c (Field.allIds r.1) r.2 := by
  refine PgType.induction ?_ ?_ ?_ ?_ ?_ ?_ ?_
  · intro type modifier name nullable c r h
    cases h
    refine ⟨fun _ => ?_, fun h => h.elim⟩
    cases type <;> exact Numbered.nil.tag
  · intro inner ih modifier name nullable c r h
    obtain ⟨⟨itemType, c₁⟩, hinner, heq⟩ := bind_eq_ok.mp h
    cases heq
    exact (ih _ _ _ c _ hinner).tag
  · intro fields ih modifier name nullable c r h
    obtain ⟨⟨children, c₁⟩, hfields, heq⟩ := bind_eq_ok.mp h
    cases heq
    exact (ih c _ hfields).tag
  · intro modifier name nullable c r h
    cases h
    exact ⟨fun h => absurd trivial h, fun _ => List.mem_singleton.mpr rfl⟩
  · intro modifier name nullable c r h
    cases h
  · intro c r h
    cases h
    exact ⟨fun _ => .nil, fun h => h.elim⟩
  · intro name type rest htype hrest c r h
    obtain ⟨⟨field, c₁⟩, hfield, hcont⟩ := bind_eq_ok.mp h
    obtain ⟨⟨fields, c₂⟩, hfields, heq⟩ := bind_eq_ok.mp hcont
    cases heq
    exact (htype _ _ _ c _ hfield).append (hrest c₁ _ hfields)

/-- The number of fields of a table at all depths. -/
def columnCount (columns : List ColumnSchema) : Nat := (columns.map (·.typ.fieldCount)).sum

theorem columnFields_numbered {columns : List ColumnSchema} {r : List Field × Int32}
    (h : columnFields columns c = .ok r) :
    NumberedBut (∃ col ∈ columns, col.typ.HasEnum) (columnCount columns) c (Field.allIds r.1) r.2 := by
  induction columns generalizing c r with
  | nil =>
    cases h
    exact ⟨fun _ => .nil, fun ⟨_, hmem, _⟩ => absurd hmem List.not_mem_nil⟩
  | cons col rest ih =>
    obtain ⟨⟨field, c₁⟩, hfield, hcont⟩ := bind_eq_ok.mp h
    obtain ⟨⟨fields, c₂⟩, hfields, heq⟩ := bind_eq_ok.mp hcont
    cases heq
    have hcol := postgresTypeToArrowType_numbered.1 _ _ _ _ _ _ hfield
    have hboth := hcol.append (ih hfields)
    simp only [List.mem_cons, exists_eq_or_imp]
    exact hboth

theorem postgres_identified_iff {columns : List ColumnSchema} {schema : List Field}
    (h : postgresSchemaToMoonlinkSchema columns = .ok schema) : Field.Identified schema ↔
      (∀ col ∈ columns, ¬ col.typ.HasEnum) ∧ columnCount columns ≤ 2 ^ 32 := by
  obtain ⟨⟨fields, c⟩, hfields, heq⟩ := bind_eq_ok.mp h
  cases heq
  have hnumbered := columnFields_numbered hfields
  by_cases henum : ∃ col ∈ columns, col.typ.HasEnum
  · refine iff_of_false (fun hid => ?_) (fun hall => ?_)
    · exact absurd (hid.1 none (hnumbered.missing henum)) (by simp)
    · obtain ⟨col, hmem, hcol⟩ := henum
      exact hall.1 col hmem hcol
  · rw [(hnumbered.numbered henum).identified_iff]
    exact (and_iff_right fun col hmem hcol => henum ⟨col, hmem, hcol⟩).symm

/-- Every field at every depth has an id of its own: in the schema of a Postgres table exactly if no type
has an enum in it, in the schemas of the REST API always, as long as the counter has enough values. -/
theorem schemas_identified_iff (columns : List ColumnSchema) (fields : List FieldSchema) (avroSchema : AvroSchema)
    (schema : List Field) :
    (postgresSchemaToMoonlinkSchema columns = .ok schema →
      (Field.Identified schema ↔ (∀ col ∈ columns, ¬ col.typ.HasEnum) ∧ columnCount columns ≤ 2 ^ 32)) ∧
    (buildArrowSchemaImpl fields = .ok schema →
      (Field.Identified schema ↔ FieldSchema.fieldCounts fields ≤ 2 ^ 32)) ∧
    (convertAvroToArrowSchema avroSchema = .ok schema →
      (Field.Identified schema ↔ avroSchema.fieldCount ≤ 2 ^ 32)) := by
  refine ⟨postgres_identified_iff, fun h => ?_, fun h => ?_⟩
  · obtain ⟨c, hbuilt⟩ := buildArrowSchemaImpl_eq_ok_iff.mp h
    exact (buildFields_numbered.2 fields 0 _ hbuilt).identified_iff
  · cases avroSchema with
    | record fields =>
      obtain ⟨⟨arrowFields, c⟩, hfields, heq⟩ := bind_eq_ok.mp h
      cases heq
      exact (convertSchemaType_numbered.2 fields 0 _ hfields).identified_iff
    | _ => cases h

/-- A column of an array of text. -/
def notes : ColumnSchema := ⟨"notes", .array (.simple .text), -1, true⟩

/-- A list of numbers, with the ids in the order in which the fields are built. -/
def tagsField (nullable : Bool) : Field :=
  ⟨"tags", .list ⟨"item", .int64, false, some 0, none⟩, nullable, some 1, none⟩

theorem schemas_identified_iff_id :
    Field.Identified [⟨"notes", .list ⟨"item", .utf8, true, some 0, none⟩, true, some 1, none⟩] ∧
      Field.Identified [tagsField true] ∧ Field.Identified [tagsField false] := by
  have hbuilt : buildArrowSchemaImpl [⟨"tags", "List", true, none, some ⟨"tag", "Int64", false, none, none⟩⟩] =
      .ok [tagsField true] := by
    refine buildArrowSchemaImpl_eq_ok_iff.mpr ⟨2, buildFields_cons.mpr ⟨_, 2, [], 2, ?_, rfl, rfl⟩⟩
    unfold buildFieldFromSchema
    dsimp only
    rw [show typeName (toLowercase "List") = .list from rfl]
    dsimp only
    unfold buildFieldFromSchema
    rfl
  refine ⟨((schemas_identified_iff [notes] [] .null _).1 rfl).mpr ⟨?_, by decide⟩,
    ((schemas_identified_iff [] _ .null _).2.1 hbuilt).mpr (by decide +kernel),
    ((schemas_identified_iff [] [] (.record [⟨"tags", .array .long⟩]) _).2.2 rfl).mpr (by decide)⟩
  simp [notes, PgType.HasEnum]

/-- The field of an enum has no id. -/
theorem enum_without_id : ∃ schema, postgresSchemaToMoonlinkSchema [⟨"mood", .enum, -1, true⟩, notes] = .ok schema ∧
    ¬ Field.Identified schema := by
  refine ⟨_, rfl, fun h => ?_⟩
  exact absurd (h.1 none (by decide)) (by decide)

end Moonlink.Schema
