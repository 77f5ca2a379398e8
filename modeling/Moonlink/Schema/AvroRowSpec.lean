-- SUMMARY: Rows of Avro values have the types of the schema and the content of the values.
import Moonlink.Schema.AvroRow

namespace Moonlink.Schema

open Lib Row

/-! ## Reading -/

@[simp] theorem fromUTF8?_toByteArray (s : String) : String.fromUTF8? s.toByteArray = some s := by
  unfold String.fromUTF8?
  exact dif_pos s.isValidUTF8

namespace AvroSchema

theorem read_null {schema : AvroSchema} {value : AvroValue} (h : schema.read .null = some value) : value = .null := by
  cases schema with
  | null =>
    cases h
    rfl
  | union variants =>
    cases h
    rfl
  | _ => cases h

/-- A value of a union is a null, or read as a value of the variant that is not null. -/
theorem read_union {variants : List AvroSchema} {variant : AvroSchema} {w : RowValue} {value : AvroValue}
    (hvariant : ∀ w, readVariant variants w = variant.read w) (h : variant.read w = some value) :
    (AvroSchema.union variants).read w = some value := by
  cases w with
  | null =>
    rw [read_null h]
    rfl
  | _ => exact (hvariant _).trans h

end AvroSchema

/-! ## The conversions -/

/-- The error for a fixed value of a size that is rejected. -/
def AvroRowFailure.IsUnsupportedFixed (e : AvroRowFailure) : Prop :=
  ∃ size, size ≠ 16 ∧ e = .unsupportedFixed size

/-- A row value of a type, with the content of a value. -/
structure Represents (schema : AvroSchema) (dataType : DataType) (nullable : Bool) (value : AvroValue)
    (w : RowValue) : Prop where
  typed : w = .null ∧ nullable = true ∨ dataType.Holds w
  content : schema.read w = some value.content

/-- The values of a schema that was converted to a type. -/
def ConvertsTo (schema : AvroSchema) (dataType : DataType) (nullable : Bool) (value : AvroValue) : Prop :=
  ReturnsWhen value.HasFixed16 (convertValue value) AvroRowFailure.IsUnsupportedFixed
    (Represents schema dataType nullable value)

theorem convertItems_represents {items : AvroSchema} {name : String} {dataType : DataType} {nullable : Bool}
    {id : Int32} {values : List AvroValue} (h : ∀ value ∈ values, ConvertsTo items dataType nullable value) :
    ReturnsWhen (AvroValue.ItemsHaveFixed16 values) (convertItems values) AvroRowFailure.IsUnsupportedFixed fun ws =>
      (∀ w ∈ ws, Field.Holds (tagged name dataType nullable id).1 w) ∧
      ws.mapM items.read = some (AvroValue.itemContents values) := by
  induction values with
  | nil => exact .ok trivial ⟨by simp, rfl⟩
  | cons value rest ih =>
    obtain ⟨hvalue, hrest⟩ := List.forall_mem_cons.mp h
    refine hvalue.bind fun w hw => (ih hrest).bind_pure fun ws hws => ⟨?_, ?_⟩
    · exact List.forall_mem_cons.mpr ⟨Field.holds_iff.mpr hw.typed, hws.1⟩
    · rw [List.mapM_cons, hw.content, hws.2]
      rfl

theorem convertEntries_represents {types : AvroSchema} {dataType : DataType} {nullable : Bool} {id : Int32}
    {entries : List (String × AvroValue)} (h : ∀ entry ∈ entries, ConvertsTo types dataType nullable entry.2) :
    ReturnsWhen (AvroValue.EntriesHaveFixed16 entries) (convertEntries entries) AvroRowFailure.IsUnsupportedFixed
      fun ws =>
      (∀ w ∈ ws, DataType.Holds
        (.struct [(tagged "key" .utf8 false id).1, (tagged "value" dataType nullable (id + 1)).1]) w) ∧
      ws.mapM (readEntry types.read) = some (AvroValue.entryContents entries) := by
  induction entries with
  | nil => exact .ok trivial ⟨by simp, rfl⟩
  | cons entry rest ih =>
    obtain ⟨key, value⟩ := entry
    obtain ⟨hvalue, hrest⟩ := List.forall_mem_cons.mp h
    refine hvalue.bind fun w hw => (ih hrest).bind_pure fun ws hws => ⟨?_, ?_⟩
    · refine List.forall_mem_cons.mpr ⟨?_, hws.1⟩
      exact ⟨_, rfl, _, _, rfl, .inr ⟨_, rfl, key.isValidUTF8⟩, _, _, rfl, hw.typed, rfl⟩
    · rw [List.mapM_cons, readEntry, fromUTF8?_toByteArray, hw.content, hws.2]
      rfl

variable {variants : List AvroSchema}

/-- A union is that of null and one more schema, whose type gets nulls. -/
theorem convertSchemaType_union {c : Int32} {r : (DataType × Bool) × Int32}
    (h : convertSchemaType (.union variants) c = .ok r) :
    ∃ variant nullable, (variants = [.null, variant] ∨ variants = [variant, .null]) ∧ variant.isNull = false ∧
      convertSchemaType variant c = .ok ((r.1.1, nullable), r.2) ∧ r.1.2 = true := by
  have hnull : ∀ {schema : AvroSchema}, schema.isNull = true → schema = .null := by
    intro schema hschema
    cases schema with
    | null => rfl
    | _ => cases hschema
  match variants with
  | [variant, variant'] =>
    simp only [convertSchemaType] at h
    split at h
    · next hfirst =>
        obtain rfl := hnull hfirst
        split at h
        · cases h
        · next hsecond =>
            obtain ⟨⟨⟨dataType, nullable⟩, c₁⟩, hvariant, heq⟩ := bind_eq_ok.mp h
            cases heq
            exact ⟨variant', nullable, .inl rfl, by simpa using hsecond, hvariant, rfl⟩
    · next hfirst =>
        split at h
        · next hsecond =>
            obtain rfl := hnull hsecond
            obtain ⟨⟨⟨dataType, nullable⟩, c₁⟩, hvariant, heq⟩ := bind_eq_ok.mp h
            cases heq
            exact ⟨variant, nullable, .inr rfl, by simpa using hfirst, hvariant, rfl⟩
        · cases h
  | [] => cases h
  | [_] => cases h
  | _ :: _ :: _ :: _ => cases h

/-- A value of a union is a null, or a value of the variant that is not null. -/
theorem AvroSchema.union_has {variant : AvroSchema}
    (hvariants : variants = [.null, variant] ∨ variants = [variant, .null]) {position : Nat} {w : AvroValue}
    (h : VariantHas variants position w) : w = .null ∨ variant.Has w := by
  obtain rfl | rfl := hvariants
  · match position with
    | 0 => exact .inl h
    | 1 => exact .inr h
    | _ + 2 => exact h.elim
  · match position with
    | 0 => exact .inr h
    | 1 => exact .inl h
    | _ + 2 => exact h.elim

theorem AvroSchema.readVariant_eq {variant : AvroSchema}
    (hvariants : variants = [.null, variant] ∨ variants = [variant, .null]) (hnull : variant.isNull = false)
    (w : RowValue) : readVariant variants w = variant.read w := by
  obtain rfl | rfl := hvariants
  · cases variant with
    | null => cases hnull
    | _ => rfl
  · cases variant with
    | null => cases hnull
    | _ => rfl

/-- The types that are accepted have the row values that the values of the schema become, with their content. -/
theorem convertSchemaType_converts :
    (∀ schema c r, convertSchemaType schema c = .ok r →
      ∀ value, schema.Has value → ConvertsTo schema r.1.1 r.1.2 value) ∧
    ∀ fields c r, convertFields fields c = .ok r → ∀ values, AvroSchema.FieldsHave fields values →
      ReturnsWhen (AvroValue.EntriesHaveFixed16 values) (convertFieldValues values)
        AvroRowFailure.IsUnsupportedFixed fun ws =>
          Field.AllHold r.1 ws ∧ AvroSchema.readFields fields ws = some (AvroValue.entryContents values) := by
  refine AvroSchema.induction ?_ ?_ ?_ ?_ ?_ ?_ ?_
  · intro schema hsimple c r h value hvalue
    cases schema with
    | array items => cases hsimple
    | map types => cases hsimple
    | union variants => cases hsimple
    | record fields => cases hsimple
    | other schema => cases h
    | null =>
      cases h
      cases hvalue
      exact .ok trivial ⟨.inl ⟨rfl, rfl⟩, rfl⟩
    | string =>
      cases h
      obtain ⟨s, rfl⟩ := hvalue
      exact .ok trivial ⟨.inr ⟨_, rfl, s.isValidUTF8⟩, by simp [AvroSchema.read, AvroValue.content]⟩
    | fixed size =>
      cases h
      obtain ⟨bytes, rfl, hsize⟩ := hvalue
      unfold ConvertsTo convertValue
      split
      · next h16 =>
          subst h16
          rw [dif_pos hsize]
          exact .ok rfl ⟨.inr ⟨rfl, _, rfl⟩, rfl⟩
      · next h16 => exact .error h16 ⟨size, h16, rfl⟩
    | _ =>
      cases h
      obtain ⟨x, rfl⟩ := hvalue
      exact .ok trivial ⟨.inr ⟨_, rfl⟩, rfl⟩
  · intro items ih c r h value hvalue
    obtain ⟨⟨⟨itemType, itemNullable⟩, c₁⟩, hitems, heq⟩ := bind_eq_ok.mp h
    cases heq
    obtain ⟨values, rfl, hall⟩ := hvalue
    have hconverted := @convertItems_represents items "item" itemType itemNullable c₁ values fun w hw =>
      ih c _ hitems w (hall w hw)
    refine hconverted.bind_pure fun ws hws => ⟨.inr ⟨ws, rfl, hws.1⟩, ?_⟩
    rw [AvroSchema.read, hws.2]
    rfl
  · intro types ih c r h value hvalue
    obtain ⟨⟨⟨valueType, valueNullable⟩, c₁⟩, htypes, heq⟩ := bind_eq_ok.mp h
    cases heq
    obtain ⟨entries, rfl, -, hall⟩ := hvalue
    have hconverted := @convertEntries_represents types valueType valueNullable c₁ entries fun entry hentry =>
      ih c _ htypes entry.2 (hall entry hentry)
    refine hconverted.bind_pure fun ws hws => ⟨.inr ⟨ws, rfl, fun w hw => .inr (hws.1 w hw)⟩, ?_⟩
    rw [AvroSchema.read, hws.2]
    rfl
  · intro variants ih c r h value hvalue
    obtain ⟨variant, nullable, hvariants, hnull, htype, hnullable⟩ := convertSchemaType_union h
    obtain ⟨position, w, rfl, hposition⟩ := hvalue
    obtain rfl | hw := AvroSchema.union_has hvariants hposition
    · exact .ok trivial ⟨.inl ⟨rfl, hnullable⟩, rfl⟩
    · have hmem : variant ∈ variants := by
        obtain rfl | rfl := hvariants <;> simp
      refine (ih variant hmem c _ htype w hw).mono fun v hv => ⟨?_, ?_⟩
      · exact hv.typed.imp_left fun hnullValue => ⟨hnullValue.1, hnullable⟩
      · exact AvroSchema.read_union (AvroSchema.readVariant_eq hvariants hnull) hv.content
  · intro fields ih c r h value hvalue
    obtain ⟨⟨structFields, c₁⟩, hfields, heq⟩ := bind_eq_ok.mp h
    cases heq
    obtain ⟨values, rfl, hall⟩ := hvalue
    refine (ih c _ hfields values hall).bind_pure fun ws hws => ⟨.inr ⟨ws, rfl, hws.1⟩, ?_⟩
    rw [AvroSchema.read, hws.2]
    rfl
  · intro c r h values hvalues
    cases h
    cases hvalues
    exact .ok trivial ⟨rfl, rfl⟩
  · intro name schema rest hschema hrest c r h values hvalues
    obtain ⟨⟨⟨dataType, nullable⟩, c₁⟩, htype, hcont⟩ := bind_eq_ok.mp h
    obtain ⟨⟨fields, c₂⟩, hfields, heq⟩ := bind_eq_ok.mp hcont
    cases heq
    obtain ⟨value, others, rfl, hvalue, hothers⟩ := hvalues
    have hvalues := hrest _ _ hfields others hothers
    refine (hschema c _ htype value hvalue).bind fun w hw => hvalues.bind_pure fun ws hws => ⟨?_, ?_⟩
    · exact ⟨w, ws, rfl, Field.holds_iff.mpr hw.typed, hws.1⟩
    · rw [AvroSchema.readFields, hw.content, hws.2]
      rfl

/-- A value of an accepted record schema becomes a row with a value of each Arrow field, in order, from which its
content is read back, if its fixed values have 16 bytes, and is rejected for a fixed value otherwise. -/
theorem convertAvroRow_agrees {schema : AvroSchema} {fields : List Field} {value : AvroValue}
    (haccepted : convertAvroToArrowSchema schema = .ok fields) (hvalue : schema.Has value) :
    (value.HasFixed16 → ∃ row, convertAvroRow value = .ok row ∧ Field.AllHold fields row ∧
      schema.read (.struct row) = some value.content) ∧
    (¬ value.HasFixed16 → ∃ size, size ≠ 16 ∧ convertAvroRow value = .error (.unsupportedFixed size)) := by
  cases schema with
  | record recordFields =>
    obtain ⟨⟨arrowFields, c⟩, hfields, heq⟩ := bind_eq_ok.mp haccepted
    cases heq
    obtain ⟨values, rfl, hall⟩ := hvalue
    have hconverted := convertSchemaType_converts.2 recordFields 0 _ hfields values hall
    constructor
    · intro hfixed
      obtain ⟨row, hrow, htyped, hcontent⟩ := hconverted.returns hfixed
      refine ⟨row, hrow, htyped, ?_⟩
      rw [AvroSchema.read, hcontent]
      rfl
    · intro hfixed
      obtain ⟨e, he, size, hsize, rfl⟩ := hconverted.fails hfixed
      exact ⟨size, hsize, he⟩
  | _ => cases haccepted

/-- A record with a nullable list of maps. -/
def mapsSchema : AvroSchema := .record [⟨"maps", .union [.null, .array (.map (.fixed 16))]⟩]

/-- A value of it. -/
def mapsValue : AvroValue :=
  .record [("maps",
    .union 1 (.array [.map [("id", .fixed 16 ⟨(Vector.replicate 16 7).toArray⟩)], .map []]))]

theorem convertAvroRow_agrees_maps : ∃ fields row, convertAvroToArrowSchema mapsSchema = .ok fields ∧
    convertAvroRow mapsValue = .ok row ∧ Field.AllHold fields row ∧
      mapsSchema.read (.struct row) = some mapsValue.content := by
  have hvalue : mapsSchema.Has mapsValue := by
    refine ⟨_, rfl, _, _, rfl, ⟨_, _, rfl, _, rfl, ?_⟩, rfl⟩
    refine List.forall_mem_cons.mpr ⟨?_, List.forall_mem_cons.mpr ⟨?_, by simp⟩⟩
    · exact ⟨_, rfl, by simp, List.forall_mem_cons.mpr ⟨⟨_, rfl, rfl⟩, by simp⟩⟩
    · exact ⟨_, rfl, by simp, by simp⟩
  obtain ⟨row, hrow⟩ := (convertAvroRow_agrees rfl hvalue).1 ⟨⟨⟨rfl, trivial⟩, trivial, trivial⟩, trivial⟩
  exact ⟨_, row, rfl, hrow⟩

/-- A fixed value of four bytes, of a schema that is accepted, is rejected. -/
theorem fixed4_rejected : ∃ fields, convertAvroToArrowSchema (.record [⟨"code", .fixed 4⟩]) = .ok fields ∧
    (AvroSchema.record [⟨"code", .fixed 4⟩]).Has (.record [("code", .fixed 4 ⟨#[1, 2, 3, 4]⟩)]) ∧
    ∀ row, convertAvroRow (.record [("code", .fixed 4 ⟨#[1, 2, 3, 4]⟩)]) ≠ .ok row := by
  refine ⟨_, rfl, ⟨_, rfl, _, _, rfl, ⟨_, rfl, rfl⟩, rfl⟩, ?_⟩
  rintro row ⟨⟩

end Moonlink.Schema
