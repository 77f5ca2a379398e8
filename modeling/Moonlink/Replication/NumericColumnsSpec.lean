-- SUMMARY: When NUMERIC columns, elements and fields keep their values, and their precision and scale.
import Moonlink.Replication.NumericColumns

namespace Moonlink.Replication

open Lib Row Schema

/-! ## Modifiers -/

section Modifier

variable {p r : Nat}

theorem typmod_shiftRight (hp : p < 2 ^ 15) (hr : r < 2 ^ 11) :
    (Int32.ofNat (p * 2 ^ 16 + r) >>> 16) &&& 0xffff = Int32.ofNat p := by
  have hmsb : (Int32.ofNat (p * 2 ^ 16 + r)).toBitVec.msb = false := by
    rw [BitVec.msb_eq_false_iff_two_mul_lt]
    simp [Int32.toBitVec_ofNat']
    omega
  have hshift : (16 : Int32).toBitVec.smod 32 = 16#32 := by decide
  have hmask : (65535 : Nat) = 2 ^ 16 - 1 := rfl
  rw [← Int32.toBitVec_inj, Int32.toBitVec_and, Int32.toBitVec_shiftRight]
  apply BitVec.eq_of_toNat_eq
  rw [hshift, BitVec.sshiftRight', BitVec.sshiftRight_eq_of_msb_false hmsb]
  simp [Int32.toBitVec_ofNat', Nat.shiftRight_eq_div_pow]
  rw [hmask, Nat.and_two_pow_sub_one_eq_mod]
  omega

theorem typmod_and (hr : r < 2 ^ 11) : Int32.ofNat (p * 2 ^ 16 + r) &&& 0x7ff = Int32.ofNat r := by
  have hmask : (2047 : Nat) = 2 ^ 11 - 1 := rfl
  rw [← Int32.toBitVec_inj, Int32.toBitVec_and]
  apply BitVec.eq_of_toNat_eq
  simp [Int32.toBitVec_ofNat']
  rw [hmask, Nat.and_two_pow_sub_one_eq_mod]
  omega

/-- The 11 bits of a scale, with their sign. -/
theorem signExtend_scale : ∀ r : Fin 2048,
    ((Int32.ofNat r ^^^ 1024) - 1024).toInt8 = Int8.ofInt (if r.val < 1024 then r else r - 2048) := by
  decide +kernel

end Modifier

namespace NumericMod

variable (mod : NumericMod)

/-- The modifier of a column is decoded to its precision and scale, both cut to 8 bits. -/
theorem numericPrecisionScale_modifier :
    numericPrecisionScale mod.modifier = some (UInt8.ofNat mod.precision, Int8.ofInt mod.scale) := by
  have hle := mod.precision_le
  have hscale := mod.le_scale
  have hscale' := mod.scale_le
  obtain ⟨r, hr⟩ : ∃ r : Fin 2048, mod.scale % 2 ^ 11 = r := ⟨⟨(mod.scale % 2 ^ 11).toNat, by omega⟩, by simp; omega⟩
  have hsign : (if r.val < 1024 then (r.val : ℤ) else r - 2048) = mod.scale := by
    split <;> omega
  have hmodifier : mod.modifier - 4 = Int32.ofNat (mod.precision * 2 ^ 16 + r) := by
    rw [modifier, hr, Int.toNat_natCast, Int32.ofNat_add]
    exact Int32.add_sub_cancel _ _
  have hlt : ¬ mod.modifier < 4 := by
    rw [Int32.lt_iff_toInt_lt, modifier, Int32.toInt_ofNat_of_lt (by omega)]
    have hfour : (4 : Int32).toInt = 4 := rfl
    omega
  unfold numericPrecisionScale
  rw [if_neg hlt]
  dsimp only
  have hprecision : (Int32.ofNat mod.precision).toUInt32.toUInt8 = UInt8.ofNat mod.precision := by
    rw [← UInt8.toNat_inj]
    simp
  rw [hmodifier, typmod_shiftRight (by omega) r.isLt, typmod_and r.isLt, signExtend_scale r, hsign, hprecision]

end NumericMod

/-! ## Texts -/

/-- Decimals are read from the texts of numbers, with their digits and the number of those behind the point. -/
def ReadsText (fromStr : String → Option BigDecimal) : NumericText → Prop
  | .number negative whole fraction h =>
    fromStr (NumericText.numeral negative whole fraction h).text =
      some (NumericText.numeral negative whole fraction h).toBigDecimal
  | text => fromStr text.text = none

/-- A text is read as its value. -/
theorem pgNumericFromStr_text {fromStr : String → Option BigDecimal} {text : NumericText} (h : ReadsText fromStr text) :
    ∃ v, pgNumericFromStr fromStr text.text = some v ∧ v.toRat = text.value := by
  cases text with
  | number negative whole fraction hne =>
    refine ⟨.value _ _, ?_, rfl⟩
    rw [pgNumericFromStr, NumericText.text, show fromStr _ = _ from h]
    rfl
  | nan =>
    refine ⟨.nan, ?_, rfl⟩
    rw [pgNumericFromStr, show fromStr _ = _ from h]
    rfl
  | infinity =>
    refine ⟨.positiveInf, ?_, rfl⟩
    rw [pgNumericFromStr, show fromStr _ = _ from h]
    rfl
  | negInfinity =>
    refine ⟨.negativeInf, ?_, rfl⟩
    rw [pgNumericFromStr, show fromStr _ = _ from h]
    rfl

/-! ## Exactness -/

namespace DeclType

mutual
/-- The types that are assigned have the precision and the scale that are declared, where they fit. -/
def KeepsTypes : DeclType → DataType → Prop
  | numeric none, _ => True
  | numeric (some mod), type => mod.FitsDecimal128 →
      ∃ p s, type = .decimal128 p s ∧ p.toNat = mod.precision ∧ s.toInt = mod.scale
  | scalar _, _ => True
  | array element, type => ∃ item, type = .list item ∧ element.KeepsTypes item.dataType
  | composite fields, type => ∃ fs, type = .struct fs ∧ FieldsKeepTypes fields fs
def FieldsKeepTypes : List (PgField DeclType) → List Schema.Field → Prop
  | [], fs => fs = []
  | ⟨_, type⟩ :: rest, fs => ∃ f others, fs = f :: others ∧ type.KeepsTypes f.dataType ∧ FieldsKeepTypes rest others
end

mutual
/-- Each NUMERIC becomes a null, or a decimal with its value for the scale of the type that was assigned. -/
def Exact : DeclType → DataType → Cell → RowValue → Prop
  | numeric _, type, c, w => ∃ p s, type = .decimal128 p s ∧ (w = .null ∨
      ∃ v m, c = .scalar (.numeric v) ∧ w = .decimal m ∧ v.toRat = some (BigDecimal.value ⟨m.toInt, s.toInt⟩))
  | scalar _, _, _, _ => True
  | array element, type, c, w => c = .null ∧ w = .null ∨ ∃ item items ws, type = .list item ∧ c.items = some items ∧
      w = .array ws ∧ List.Forall₂ (element.Exact item.dataType) items ws
  | composite fields, type, c, w => c = .null ∧ w = .null ∨ ∃ fs cells ws, type = .struct fs ∧ c = .composite cells ∧
      w = .struct ws ∧ FieldsExact fields fs cells ws
def FieldsExact : List (PgField DeclType) → List Schema.Field → List Cell → List RowValue → Prop
  | [], fs, cells, ws => fs = [] ∧ cells = [] ∧ ws = []
  | ⟨_, type⟩ :: rest, fs, cells, ws => ∃ f fs' c cells' w ws', fs = f :: fs' ∧ cells = c :: cells' ∧ ws = w :: ws' ∧
      type.Exact f.dataType c w ∧ FieldsExact rest fs' cells' ws'
end

end DeclType

/-- A number of 128 bits that is zero or has as many digits behind the point as a scale. -/
def PgNumeric.Fits (scale : Int) : PgNumeric → Prop
  | value intVal s => (-2 ^ 127 ≤ intVal ∧ intVal < 2 ^ 127) ∧ (intVal = 0 ∨ s = scale)
  | _ => True

namespace DeclType

mutual
/-- The numbers of a cell fit a scale, and those in arrays and composite types that of a NUMERIC without a modifier. -/
def ValuesFit : DeclType → Int → Cell → Prop
  | numeric _, scale, c => ∀ v, c = .scalar (.numeric v) → v.Fits scale
  | scalar _, _, _ => True
  | array element, _, c => ∀ items, c.items = some items → ∀ item ∈ items, element.ValuesFit 10 item
  | composite fields, _, c => ∀ cells, c = .composite cells → FieldsFit fields cells
def FieldsFit : List (PgField DeclType) → List Cell → Prop
  | [], _ => True
  | ⟨_, type⟩ :: rest, cells => ∀ c others, cells = c :: others → type.ValuesFit 10 c ∧ FieldsFit rest others
end

mutual
/-- What is declared for elements and fields is what a NUMERIC without a modifier has, or does not fit. -/
def InnerDefault : DeclType → Prop
  | numeric none => True
  | numeric (some mod) => mod.FitsDecimal128 → mod.IsDefault
  | scalar _ => True
  | array element => element.InnerDefault
  | composite fields => FieldsInnerDefault fields
def FieldsInnerDefault : List (PgField DeclType) → Prop
  | [] => True
  | ⟨_, type⟩ :: rest => type.InnerDefault ∧ FieldsInnerDefault rest
end

end DeclType

/-! ## Cells -/

/-- An array becomes the array of the row values of its elements. -/
theorem toRowValue_of_items {c : Cell} {items : List Cell} (h : c.items = some items) :
    c.toRowValue = (do
      let ws ← items.mapM Cell.toRowValue
      return .array ws) := by
  cases c with
  | array elements =>
    cases h
    rw [Cell.toRowValue, List.mapM_map]
    congr 1
    refine mapM_congr fun element _ => ?_
    cases element <;> rfl
  | compositeArray elements =>
    cases h
    rw [Cell.toRowValue]
    congr 1
    induction elements with
    | nil => rfl
    | cons element rest ih =>
      rw [List.map_cons, List.mapM_cons, ← ih]
      cases element with
      | none => rfl
      | some cells =>
        rw [compositesToRowValues, Option.elim_some, Cell.toRowValue, bind_assoc]
        rfl
  | _ => cases h

theorem toRowValue_scalar {v : Scalar} (h : v.isNumeric = false) : ∃ w, (Cell.scalar v).toRowValue = .ok w := by
  cases v with
  | numeric value => cases h
  | _ => exact ⟨_, rfl⟩

/-- The digits are a decimal of another scale with the same value only if they are zero. -/
theorem value_eq_value_iff {digits s s' : Int} :
    BigDecimal.value ⟨digits, s⟩ = BigDecimal.value ⟨digits, s'⟩ ↔ digits = 0 ∨ s = s' := by
  unfold BigDecimal.value
  rw [mul_eq_mul_left_iff, zpow_right_inj₀ (by norm_num) (by norm_num), neg_inj, Int.cast_eq_zero, or_comm]

/-- A NUMERIC is exact if its digits fit the scale of its type. -/
theorem numeric_exact_iff {mod : Option NumericMod} {p : UInt8} {s : Int8} {c : Cell}
    (h : (DeclType.numeric mod).Has c) :
    Returns c.toRowValue ((DeclType.numeric mod).Exact (.decimal128 p s) c) ↔
      (DeclType.numeric mod).ValuesFit s.toInt c := by
  rw [DeclType.Has] at h
  simp only [DeclType.Exact, DeclType.ValuesFit]
  obtain rfl | ⟨v, rfl⟩ := h
  · exact iff_of_true ⟨.null, rfl, p, s, rfl, .inl rfl⟩ fun v hv => by cases hv
  · cases v with
    | value intVal scale =>
      by_cases hrange : -2 ^ 127 ≤ intVal ∧ intVal < 2 ^ 127
      · have hvalue : (Cell.scalar (.numeric (.value intVal scale))).toRowValue =
            .ok (.decimal (BitVec.ofInt 128 intVal)) := if_pos hrange
        have hint : (BitVec.ofInt 128 intVal).toInt = intVal := by
          rw [BitVec.toInt_ofInt, Int.bmod_eq_of_le] <;> omega
        have hfits : (PgNumeric.value intVal scale).Fits s.toInt ↔
            BigDecimal.value ⟨intVal, scale⟩ = BigDecimal.value ⟨intVal, s.toInt⟩ := by
          rw [value_eq_value_iff]
          exact and_iff_right hrange
        rw [hvalue, Returns.ok_iff]
        constructor
        · rintro ⟨_, _, htype, hnull | ⟨v, m, hv, hm, hexact⟩⟩ v' hv'
          · cases hnull
          · cases htype
            cases hv
            cases hv'
            cases hm
            rw [hint] at hexact
            exact hfits.mpr (Option.some.inj hexact)
        · intro h
          refine ⟨p, s, rfl, .inr ⟨_, _, rfl, rfl, ?_⟩⟩
          rw [hint]
          exact congrArg some (hfits.mp (h _ rfl))
      · refine iff_of_false ?_ fun h => hrange (h _ rfl).1
        rintro ⟨w, hw, -⟩
        have hpanic : (Cell.scalar (.numeric (.value intVal scale))).toRowValue = .error .numericOverflow :=
          if_neg hrange
        rw [hpanic] at hw
        cases hw
    | _ =>
      refine iff_of_true ⟨.null, rfl, p, s, rfl, .inl rfl⟩ fun v hv => ?_
      cases hv
      trivial

theorem array_exact_iff {element : DeclType} {item : Schema.Field} {scale : Int} {c : Cell}
    (hc : (DeclType.array element).Has c)
    (helement : ∀ x, element.Has x →
      (Returns x.toRowValue (element.Exact item.dataType x) ↔ element.ValuesFit 10 x)) :
    Returns c.toRowValue ((DeclType.array element).Exact (.list item) c) ↔
      (DeclType.array element).ValuesFit scale c := by
  rw [DeclType.Has] at hc
  simp only [DeclType.Exact, DeclType.ValuesFit]
  obtain rfl | ⟨items, hitems, hall⟩ := hc
  · exact iff_of_true ⟨.null, rfl, .inl ⟨rfl, rfl⟩⟩ fun items hitems => by cases hitems
  · have hne : c ≠ .null := by
      rintro rfl
      cases hitems
    have hexact : ∀ ws, (c = .null ∧ RowValue.array ws = .null ∨ ∃ item' items' ws', DataType.list item = .list item' ∧
        c.items = some items' ∧ RowValue.array ws = .array ws' ∧
        List.Forall₂ (element.Exact item'.dataType) items' ws') ↔
        List.Forall₂ (element.Exact item.dataType) items ws := by
      intro ws
      constructor
      · rintro (⟨hnull, -⟩ | ⟨_, _, _, htype, hitems', harray, hforall⟩)
        · exact absurd hnull hne
        · cases htype
          cases hitems.symm.trans hitems'
          cases harray
          exact hforall
      · exact fun hforall => .inr ⟨item, items, ws, rfl, hitems, rfl, hforall⟩
    rw [toRowValue_of_items hitems, Returns.bind_pure_iff hexact, returns_mapM_iff]
    constructor
    · intro h items' hitems' x hx
      cases hitems.symm.trans hitems'
      exact (helement x (hall x hx)).mp (h x hx)
    · exact fun h x hx => (helement x (hall x hx)).mpr (h items hitems x hx)

theorem composite_exact_iff {fields : List (PgField DeclType)} {fs : List Schema.Field} {scale : Int} {c : Cell}
    (hc : (DeclType.composite fields).Has c)
    (hfields : ∀ cells, DeclType.FieldsHave fields cells →
      (Returns (cellsToRowValues cells) (DeclType.FieldsExact fields fs cells) ↔ DeclType.FieldsFit fields cells)) :
    Returns c.toRowValue ((DeclType.composite fields).Exact (.struct fs) c) ↔
      (DeclType.composite fields).ValuesFit scale c := by
  rw [DeclType.Has] at hc
  simp only [DeclType.Exact, DeclType.ValuesFit]
  obtain rfl | ⟨cells, rfl, hcells⟩ := hc
  · exact iff_of_true ⟨.null, rfl, .inl ⟨rfl, rfl⟩⟩ fun cells hnull => by cases hnull
  · have hexact : ∀ ws, (Cell.composite cells = .null ∧ RowValue.struct ws = .null ∨ ∃ fs' cells' ws',
        DataType.struct fs = .struct fs' ∧ Cell.composite cells = .composite cells' ∧
        RowValue.struct ws = .struct ws' ∧ DeclType.FieldsExact fields fs' cells' ws') ↔
        DeclType.FieldsExact fields fs cells ws := by
      intro ws
      constructor
      · rintro (⟨hnull, -⟩ | ⟨_, _, _, htype, hsame, hstruct, h⟩)
        · cases hnull
        · cases htype
          cases hsame
          cases hstruct
          exact h
      · exact fun h => .inr ⟨fs, cells, ws, rfl, rfl, rfl, h⟩
    rw [Cell.toRowValue, Returns.bind_pure_iff hexact, hfields cells hcells]
    constructor
    · rintro h cells' hsame
      cases hsame
      exact h
    · exact fun h => h cells rfl

/-- The types and the values of elements and fields, over the declared type. -/
theorem inner_exact_iff :
    (∀ d : DeclType, ∀ name nullable id r, postgresTypeToArrowType d.pgType (-1) name nullable id = .ok r →
      (d.KeepsTypes r.1.dataType ↔ d.InnerDefault) ∧
      ∀ c, d.Has c → (Returns c.toRowValue (d.Exact r.1.dataType c) ↔ d.ValuesFit 10 c)) ∧
    ∀ fields, ∀ id r, compositeFields (DeclType.pgFields fields) id = .ok r →
      (DeclType.FieldsKeepTypes fields r.1 ↔ DeclType.FieldsInnerDefault fields) ∧
      ∀ cells, DeclType.FieldsHave fields cells →
        (Returns (cellsToRowValues cells) (DeclType.FieldsExact fields r.1 cells) ↔ DeclType.FieldsFit fields cells) := by
  refine DeclType.induction ?_ ?_ ?_ ?_ ?_ ?_
  · intro mod name nullable id r h
    obtain rfl := Except.ok.inj h
    have htype : (postgresPrimitiveToArrowType .numeric (-1) name nullable id).1.dataType = .decimal128 38 10 := rfl
    rw [htype]
    refine ⟨?_, fun c hc => numeric_exact_iff hc⟩
    cases mod with
    | none => exact iff_of_true trivial trivial
    | some mod =>
      refine forall_congr' fun _ => ?_
      constructor
      · rintro ⟨p, s, heq, hp, hs⟩
        cases heq
        exact ⟨hp.symm, hs.symm⟩
      · exact fun hdefault => ⟨38, 10, rfl, hdefault.1.symm, hdefault.2.symm⟩
  · intro type name nullable id r h
    refine ⟨iff_of_true trivial trivial, fun c hc => iff_of_true ?_ trivial⟩
    rw [DeclType.Has] at hc
    obtain rfl | ⟨v, rfl, hv⟩ := hc
    · exact ⟨.null, rfl, trivial⟩
    · obtain ⟨w, hw⟩ := toRowValue_scalar hv
      exact ⟨w, hw, trivial⟩
  · intro element ih name nullable id r h
    obtain ⟨⟨itemType, id'⟩, hitem, heq⟩ := bind_eq_ok.mp h
    cases heq
    obtain ⟨hkeeps, hexact⟩ := ih _ _ _ _ hitem
    refine ⟨?_, fun c hc => array_exact_iff hc hexact⟩
    rw [DeclType.InnerDefault, ← hkeeps]
    constructor
    · rintro ⟨_, htype, h⟩
      cases htype
      exact h
    · exact fun h => ⟨_, rfl, h⟩
  · intro fields ih name nullable id r h
    obtain ⟨⟨fs, id'⟩, hfs, heq⟩ := bind_eq_ok.mp h
    cases heq
    obtain ⟨hkeeps, hexact⟩ := ih _ _ hfs
    refine ⟨?_, fun c hc => composite_exact_iff hc hexact⟩
    rw [DeclType.InnerDefault, ← hkeeps]
    constructor
    · rintro ⟨_, htype, h⟩
      cases htype
      exact h
    · exact fun h => ⟨_, rfl, h⟩
  · intro id r h
    cases h
    refine ⟨iff_of_true rfl trivial, fun cells hcells => ?_⟩
    cases hcells
    exact iff_of_true ⟨[], rfl, rfl, rfl, rfl⟩ trivial
  · intro name type rest htype hrest id r h
    obtain ⟨⟨field, id₁⟩, hfield, hcont⟩ := bind_eq_ok.mp h
    obtain ⟨⟨fields, id₂⟩, hfields, heq⟩ := bind_eq_ok.mp hcont
    cases heq
    obtain ⟨hkeeps, hexact⟩ := htype _ _ _ _ hfield
    obtain ⟨hkeepsRest, hexactRest⟩ := hrest _ _ hfields
    constructor
    · rw [DeclType.FieldsInnerDefault, ← hkeeps, ← hkeepsRest]
      constructor
      · rintro ⟨_, _, hsame, h, hothers⟩
        cases hsame
        exact ⟨h, hothers⟩
      · exact fun h => ⟨field, fields, rfl, h⟩
    · rintro cells ⟨c, others, rfl, hc, hothers⟩
      have hcons : ∀ w ws, DeclType.FieldsExact (⟨name, type⟩ :: rest) (field :: fields) (c :: others) (w :: ws) ↔
            type.Exact field.dataType c w ∧ DeclType.FieldsExact rest fields others ws := by
        intro w ws
        constructor
        · rintro ⟨_, _, _, _, _, _, hfs, hcells, hws, h, hothers⟩
          cases hfs
          cases hcells
          cases hws
          exact ⟨h, hothers⟩
        · exact fun h => ⟨_, _, _, _, _, _, rfl, rfl, rfl, h.1, h.2⟩
      rw [cellsToRowValues, Returns.cons_iff hcons, hexact c hc, hexactRest others hothers]
      constructor
      · rintro h _ _ hsame
        cases hsame
        exact h
      · exact fun h => h c others rfl

/-! ## Columns -/

/-- A column with its declared type. -/
structure DeclColumn where
  name : String
  type : DeclType
  nullable : Bool

def DeclColumn.columnSchema (col : DeclColumn) : ColumnSchema :=
  ⟨col.name, col.type.pgType, col.type.modifier, col.nullable⟩

namespace DeclType

/-- The scale that a column of the type is assigned, if it is a NUMERIC. -/
def assignedScale : DeclType → Int
  | numeric (some mod) => mod.scale.bmod (2 ^ 8)
  | _ => 10

/-- Elements and fields, at every depth, declare what a NUMERIC without a modifier has, or what does not fit. -/
def InsideDefault : DeclType → Prop
  | numeric _ => True
  | d => d.InnerDefault

end DeclType

theorem column_exact_iff {d : DeclType} {name : String} {nullable : Bool} {id : Int32} {r : Schema.Field × Int32}
    (h : postgresTypeToArrowType d.pgType d.modifier name nullable id = .ok r) {c : Cell} (hc : d.Has c) :
    d.KeepsTypes r.1.dataType ∧ Returns c.toRowValue (d.Exact r.1.dataType c) ↔
      d.InsideDefault ∧ d.ValuesFit d.assignedScale c := by
  cases d with
  | numeric mod =>
    obtain rfl := Except.ok.inj h
    cases mod with
    | none => exact and_congr Iff.rfl (numeric_exact_iff hc)
    | some mod =>
      have htype : (postgresPrimitiveToArrowType .numeric mod.modifier name nullable id).1.dataType =
          .decimal128 (UInt8.ofNat mod.precision) (Int8.ofInt mod.scale) := by
        unfold postgresPrimitiveToArrowType
        rw [mod.numericPrecisionScale_modifier]
        rfl
      have hscale : (Int8.ofInt mod.scale).toInt = mod.scale.bmod (2 ^ 8) := Int8.toInt_ofInt
      refine and_congr (iff_of_true ?_ trivial) ?_
      · rw [DeclType.modifier, htype]
        rintro ⟨hprecision, hlow, hhigh⟩
        refine ⟨_, _, rfl, ?_, ?_⟩
        · exact UInt8.toNat_ofNat_of_lt' (show mod.precision < 2 ^ 8 by omega)
        · rw [hscale, Int.bmod_eq_of_le] <;> omega
      · rw [DeclType.modifier, htype, numeric_exact_iff hc, hscale]
        rfl
  | scalar type =>
    obtain ⟨hkeeps, hexact⟩ := inner_exact_iff.1 _ _ _ _ _ h
    exact and_congr hkeeps (hexact c hc)
  | array element =>
    obtain ⟨hkeeps, hexact⟩ := inner_exact_iff.1 (.array element) _ _ _ _ h
    exact and_congr hkeeps (hexact c hc)
  | composite fields =>
    obtain ⟨hkeeps, hexact⟩ := inner_exact_iff.1 (.composite fields) _ _ _ _ h
    exact and_congr hkeeps (hexact c hc)

/-- A text is read as its value; and a cell of a column becomes a row value without a panic, with the value of each
NUMERIC for the type that is assigned, which has what is declared, exactly under the condition. -/
theorem numerics_exact_iff {columns : List DeclColumn} {schema : List Schema.Field}
    (h : postgresSchemaToMoonlinkSchema (columns.map DeclColumn.columnSchema) = .ok schema)
    (fromStr : String → Option BigDecimal) :
    (∀ text, ReadsText fromStr text → ∃ v, pgNumericFromStr fromStr text.text = some v ∧ v.toRat = text.value) ∧
    List.Forall₂ (fun col f => ∀ c, col.type.Has c →
      (col.type.KeepsTypes f.dataType ∧ Returns c.toRowValue (col.type.Exact f.dataType c) ↔
        col.type.InsideDefault ∧ col.type.ValuesFit col.type.assignedScale c)) columns schema := by
  refine ⟨fun text htext => pgNumericFromStr_text htext, ?_⟩
  obtain ⟨⟨fields, id⟩, hfields, heq⟩ := bind_eq_ok.mp h
  cases heq
  clear h
  generalize (0 : Int32) = first at hfields
  induction columns generalizing first schema id with
  | nil =>
    cases hfields
    exact .nil
  | cons col rest ih =>
    obtain ⟨⟨field, id₁⟩, hfield, hcont⟩ := bind_eq_ok.mp hfields
    obtain ⟨⟨others, id₂⟩, hothers, heq⟩ := bind_eq_ok.mp hcont
    cases heq
    exact .cons (fun c hc => column_exact_iff hfield hc) (ih _ _ hothers)

/-- NUMERIC(10, 2). -/
def money : NumericMod := ⟨10, 2, by decide, by decide, by decide, by decide⟩

/-- 123.45 -/
def amount : NumericText :=
  .number false (((List.finRange 10).drop 1).take 3) (((List.finRange 10).drop 4).take 2) (by decide)

theorem numerics_exact_iff_money : ∃ field,
    postgresSchemaToMoonlinkSchema [DeclColumn.columnSchema ⟨"price", .numeric (some money), false⟩] = .ok [field] ∧
    (∃ v, pgNumericFromStr (fun _ => some ⟨12345, 2⟩) amount.text = some v ∧ v.toRat = amount.value) ∧
    (DeclType.numeric (some money)).KeepsTypes field.dataType ∧
    Returns (Cell.scalar (.numeric (.value 12345 2))).toRowValue
      ((DeclType.numeric (some money)).Exact field.dataType (.scalar (.numeric (.value 12345 2)))) := by
  obtain ⟨htexts, hcolumns⟩ := @numerics_exact_iff [⟨"price", .numeric (some money), false⟩] _ rfl
    fun _ => some ⟨12345, 2⟩
  cases hcolumns with
  | cons hcolumn _ =>
    refine ⟨_, rfl, htexts amount rfl, (hcolumn _ (.inr ⟨_, rfl⟩)).mpr ⟨trivial, ?_⟩⟩
    rintro v hv
    cases hv
    exact ⟨⟨by decide, by decide⟩, .inr rfl⟩

/-- In an array of the type 123.45 becomes 0.0000012345. -/
theorem element_rescaled : ∃ field,
    postgresSchemaToMoonlinkSchema [DeclColumn.columnSchema ⟨"prices", .array (.numeric (some money)), false⟩] =
      .ok [field] ∧
    (DeclType.array (.numeric (some money))).Has (.array [some (.numeric (.value 12345 2))]) ∧
    ¬ Returns (Cell.array [some (.numeric (.value 12345 2))]).toRowValue
      ((DeclType.array (.numeric (some money))).Exact field.dataType (.array [some (.numeric (.value 12345 2))])) := by
  have hhas : (DeclType.array (.numeric (some money))).Has (.array [some (.numeric (.value 12345 2))]) := by
    refine .inr ⟨_, rfl, fun item hitem => .inr ⟨_, List.mem_singleton.mp hitem⟩⟩
  refine ⟨_, rfl, hhas, ?_⟩
  intro hexact
  have hfits := (@array_exact_iff _ _ 10 _ hhas fun x hx => numeric_exact_iff hx).mp hexact
  have hscale := (hfits _ rfl _ (List.mem_singleton.mpr rfl) _ rfl).2
  exact absurd hscale (by decide)

end Moonlink.Replication
