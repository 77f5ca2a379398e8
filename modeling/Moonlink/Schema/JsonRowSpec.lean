-- SUMMARY: When the objects that have values for the fields of a REST schema become rows that the columns take.
import Moonlink.Row.ColumnArraySpec
import Moonlink.Schema.DecimalRowSpec
import Moonlink.Schema.JsonRow
import Moonlink.Schema.RestSchema

namespace Moonlink.Schema

open Lib Row

/-! ## Decimals -/

section Decimals

variable {lib : DecimalLib} {n : Numeral} {precision : UInt8} {scale : Int8}

/-- The value has so many digits in units of the scale. -/
def IsInRange (d : BigDecimal) (precision : UInt8) (scale : Int8) : Prop :=
  ∃ m : ℤ, d.value * (10 : ℚ) ^ scale.toInt = m ∧ m.natAbs < 10 ^ precision.toNat

/-- The decimals that are accepted. Zeros must not have too many digits before the point, which are not counted
right where they overflow; with a negative scale the digits without their point and exponent must fit. -/
def IsAccepted (checks : Bool) (d : BigDecimal) (precision : UInt8) (scale : Int8) : Prop :=
  IsReadable d ∧
    if scale.toInt < 0 then
      let rounded := roundHalfAway (d.digits / 10 ^ scale.toInt.natAbs)
      rounded.natAbs < 10 ^ precision.toNat ∧
        -2 ^ 127 ≤ rounded * 10 ^ scale.toInt.natAbs ∧ rounded * 10 ^ scale.toInt.natAbs < 2 ^ 127
    else d.scale ≤ scale.toInt ∧ (d.digits = 0 →
      1 - d.scale ≤ precision.toNat - scale.toInt ∨ checks = false ∧ -128 ≤ d.scale ∧ d.scale ≤ -127)

theorem exists_convertMantissa_iff {mantissa : Int} :
    (∃ v, convertMantissaToRowValue mantissa = .ok v) ↔ -2 ^ 127 ≤ mantissa ∧ mantissa < 2 ^ 127 := by
  simp [convertMantissaToRowValue_eq_ok_iff]

variable {d : BigDecimal}

/-- Digits in range leave room for those of the scale. -/
theorem numDigits_le_of_inRange (hrange : IsInRange d precision scale) (hzero : d.digits ≠ 0)
    (hscale : d.scale ≤ scale.toInt) :
    numDigits d.digits.natAbs + (scale.toInt - d.scale) ≤ precision.toNat := by
  obtain ⟨m, hm, hlt⟩ := hrange
  rw [d.value_mul_zpow_of_le hscale, Int.cast_inj] at hm
  obtain ⟨k, hk⟩ : ∃ k : ℕ, (k : ℤ) = scale.toInt - d.scale := ⟨(scale.toInt - d.scale).toNat, by omega⟩
  have hkNat : (scale.toInt - d.scale).toNat = k := by omega
  rw [hkNat] at hm
  rw [← hm, Int.natAbs_mul, Int.natAbs_pow] at hlt
  have hpos : 0 < d.digits.natAbs := Int.natAbs_pos.mpr hzero
  have hexp : k < precision.toNat := by
    refine (Nat.pow_lt_pow_iff_right (a := 10) (by decide)).mp (lt_of_le_of_lt ?_ hlt)
    exact Nat.le_mul_of_pos_left _ hpos
  obtain ⟨r, hr⟩ : ∃ r, precision.toNat = r + k := ⟨precision.toNat - k, by omega⟩
  rw [hr, pow_add] at hlt
  have hdigits : numDigits d.digits.natAbs ≤ r :=
    (numDigits_le_iff (by omega)).mpr (Nat.lt_of_mul_lt_mul_right hlt)
  omega

/-- A zero whose length overflows without a check is accepted. -/
theorem handleStandard_overflown (hchecks : lib.overflowChecks = false) (hp : 1 ≤ precision.toNat)
    (hpLt : precision.toNat < 2 ^ 7) (hscale : 0 ≤ scale.toInt) (hle : scale.toInt ≤ precision.toNat)
    (hzero : d.digits = 0) (hlow : -128 ≤ d.scale) (hhigh : d.scale ≤ -127) :
    ∃ v, handleStandard lib d scale precision = .ok v := by
  have hsub : ∀ a b, ∃ c, lib.subI8 a b = .ok c := by
    intro a b
    unfold DecimalLib.subI8
    rw [hchecks]
    split <;> exact ⟨_, rfl⟩
  obtain ⟨missing, hmissing⟩ := hsub scale.toInt d.scale
  have hdigits : numDigits (Int.natAbs 0) = 1 := rfl
  have hlength : lib.subI8 1 d.scale = .ok (-127 - d.scale - 128) := by
    unfold DecimalLib.subI8
    rw [if_neg (by omega), hchecks]
    obtain h | h : d.scale = -127 ∨ d.scale = -128 := by omega
    · rw [h]
      rfl
    · rw [h]
      rfl
  rw [handleStandard_of_fits ⟨by rw [hzero]; exact hp, by omega, by omega⟩ hpLt hscale, hzero, hdigits]
  push_cast
  rw [hlength, ok_bind, (returnErrIf_eq_ok_iff (u := ())).mpr (by omega), ok_bind, hmissing, ok_bind, zero_mul]
  split <;> exact ⟨_, rfl⟩

theorem standard_accepted_iff (hp : 1 ≤ precision.toNat ∧ precision.toNat ≤ 38)
    (hscale : 0 ≤ scale.toInt) (hle : scale.toInt ≤ precision.toNat) (hrange : IsInRange d precision scale) :
    (∃ v, handleStandard lib d scale precision = .ok v) ↔
      d.scale ≤ scale.toInt ∧ (d.digits = 0 → 1 - d.scale ≤ precision.toNat - scale.toInt ∨
        lib.overflowChecks = false ∧ -128 ≤ d.scale ∧ d.scale ≤ -127) := by
  have hscaleLt : scale.toInt < 2 ^ 7 := Int8.toInt_lt scale
  have hzero : d.digits = 0 → numDigits d.digits.natAbs = 1 := by
    intro hd
    rw [hd]
    rfl
  constructor
  · rintro ⟨v, hv⟩
    obtain ⟨hdigits, hlow, hdscale⟩ := standardFits_of_ok hv
    refine ⟨hdscale, fun hd => ?_⟩
    have hone := hzero hd
    by_cases hlength : numDigits d.digits.natAbs - d.scale < 2 ^ 7
    · obtain ⟨-, hinteger, -⟩ := (handleStandard_eq_ok_iff (by omega) hscale hlength).mp hv
      exact .inl (by omega)
    · refine .inr ⟨?_, by omega, by omega⟩
      by_contra hchecks
      rw [(handleStandard_arithmetic_iff (by simpa using hchecks) (by omega) hscale).mpr
        ⟨⟨hdigits, hlow, hdscale⟩, by omega⟩] at hv
      cases hv
  · rintro ⟨hdscale, hzeros⟩
    by_cases hoverflown : d.digits = 0 ∧ ¬ 1 - d.scale ≤ precision.toNat - scale.toInt
    · obtain ⟨hchecks, hlow, hhigh⟩ := (hzeros hoverflown.1).resolve_left hoverflown.2
      exact handleStandard_overflown hchecks hp.1 (by omega) hscale hle hoverflown.1 hlow hhigh
    -- The digits with the zeros of the scale behind them are no more than the precision.
    have hdigits : numDigits d.digits.natAbs + (scale.toInt - d.scale) ≤ precision.toNat := by
      by_cases hd : d.digits = 0
      · have hone := hzero hd
        have hinteger : 1 - d.scale ≤ precision.toNat - scale.toInt := by
          by_contra hlt
          exact hoverflown ⟨hd, hlt⟩
        omega
      · exact numDigits_le_of_inRange hrange hd hdscale
    have hfits : -2 ^ 127 ≤ d.digits * 10 ^ (scale.toInt - d.scale).toNat ∧
        d.digits * 10 ^ (scale.toInt - d.scale).toNat < 2 ^ 127 := by
      obtain ⟨m, hm, hlt⟩ := hrange
      rw [d.value_mul_zpow_of_le hdscale, Int.cast_inj] at hm
      have hmax : m.natAbs < 10 ^ 38 := lt_of_lt_of_le hlt (Nat.pow_le_pow_right (by decide) hp.2)
      rw [hm]
      omega
    have hpos := numDigits_pos d.digits.natAbs
    obtain ⟨v, hv⟩ := exists_convertMantissa_iff.mpr hfits
    refine ⟨v, (handleStandard_eq_ok_iff (by omega) hscale (by omega)).mpr ⟨?_, by omega, hv⟩⟩
    exact ⟨by omega, by omega, hdscale⟩

theorem negative_accepted_iff (hp : 1 ≤ precision.toNat) (hscale : scale.toInt < 0) :
    (∃ v, handleNegativeScale d scale precision = .ok v) ↔
      let rounded := roundHalfAway (d.digits / 10 ^ scale.toInt.natAbs)
      rounded.natAbs < 10 ^ precision.toNat ∧
        -2 ^ 127 ≤ rounded * 10 ^ scale.toInt.natAbs ∧ rounded * 10 ^ scale.toInt.natAbs < 2 ^ 127 := by
  simp only [handleNegativeScale_eq_ok_iff, exists_and_left, exists_convertMantissa_iff, roundedMantissa_eq hscale]
  refine and_congr_left fun _ => ?_
  rw [numDigits_le_iff (by omega), Int.natAbs_mul, Int.natAbs_pow, pow_add]
  exact Nat.mul_lt_mul_right (by positivity)

/-- The precisions and scales of decimals that Arrow documents: up to 38 digits, and no scale that exceeds them. -/
def isDecimalType (precision : UInt8) (scale : Int8) : Bool :=
  1 ≤ precision.toNat && precision.toNat ≤ 38 && scale.toInt ≤ 38 && scale.toInt ≤ precision.toNat

/-- A numeral in range is accepted exactly under the condition. -/
theorem convertDecimal_accepted_iff (hreads : lib.Reads n) (htype : isDecimalType precision scale = true)
    (hrange : IsInRange n.toBigDecimal precision scale) :
    (∃ v, convertDecimalToRowValue lib n.text precision scale = .ok v) ↔
      IsAccepted lib.overflowChecks n.toBigDecimal precision scale := by
  simp only [isDecimalType, Bool.and_eq_true, decide_eq_true_eq] at htype
  obtain ⟨⟨⟨hlow, hhigh⟩, -⟩, hle⟩ := htype
  by_cases hread : IsReadable n.toBigDecimal
  · have hprecision : asI8 precision.toNat = precision.toNat := asI8_of_lt (by omega) (by omega)
    rw [convertDecimal_of_readable hreads hread, IsAccepted, and_iff_right hread, hprecision]
    split
    · next hneg => exact negative_accepted_iff hlow hneg
    · next hnonneg =>
        rw [if_neg (by omega)]
        exact standard_accepted_iff ⟨hlow, hhigh⟩ (by omega) hle hrange
  · refine iff_of_false (fun ⟨v, hv⟩ => ?_) fun h => hread h.1
    rw [convertDecimalToRowValue, hreads.none hread] at hv
    cases hv

theorem convertDecimal_ensures {text : String} :
    Ensures (convertDecimalToRowValue lib text precision scale) fun v => ∃ m, v = .decimal m := by
  have hmantissa : ∀ mantissa, Ensures (convertMantissaToRowValue mantissa) fun v => ∃ m, v = .decimal m :=
    fun _ _ hv => ⟨_, (convertMantissaToRowValue_eq_ok_iff.mp hv).2⟩
  unfold convertDecimalToRowValue
  split
  · exact .error
  split
  · unfold handleNegativeScale
    dsimp only
    split
    · exact .error
    · exact hmantissa _
  split
  · refine .bind_any fun _ => .bind_any fun _ => .bind_any fun _ => ?_
    split
    · exact .bind_any fun _ => hmantissa _
    · exact hmantissa _
  · refine .bind_any fun _ => .bind_any fun _ => .bind_any fun _ => .bind_any fun _ => .bind_any fun _ => ?_
    refine .bind_any fun _ => .bind_any fun _ => .bind_any fun _ => ?_
    split <;> exact hmantissa _

end Decimals

/-! ## Values of the declared types -/

/-- What is given for the fields of a schema: which types have nulls, whether there are values of 16 bits, and
which numerals there are for decimals. -/
structure Terms where
  null : DataType → Prop
  int16 : Prop
  decimal : UInt8 → Int8 → Numeral → Prop

/-- An integer of so many bits. -/
def Json.IsInteger (bits : Nat) (v : Json) : Prop :=
  ∃ i : Int64, v.asI64 = some i ∧ -2 ^ (bits - 1) ≤ i.toInt ∧ i.toInt < 2 ^ (bits - 1)

section Given

variable (lib : JsonLib) (terms : Terms)

mutual
/-- The values of the types of the REST API, except for nulls. -/
def DataType.Given : DataType → Json → Prop
  | .boolean, v => ∃ b, v = .bool b
  | .int16, v => terms.int16 ∧ v.IsInteger 16
  | .int32, v => v.IsInteger 32
  | .int64, v => v.IsInteger 64
  | .float32, v => ∃ x, v.asF64 = some x
  | .float64, v => ∃ x, v.asF64 = some x
  | .date32, v => ∃ s days, v = .string s ∧ lib.parseDate s = some days
  | .utf8, v => ∃ s, v = .string s
  | .decimal128 precision scale, v => ∃ n : Numeral, v = .string n.text ∧ terms.decimal precision scale n
  | .list item, v => ∃ items, v = .array items ∧ ∀ w ∈ items, Field.Given item w
  | .struct fields, v => ∃ obj, v = .object obj ∧ Field.AllGiven fields obj
  | _, _ => False
/-- The values of a field. -/
def Field.Given : ArrowField DataType → Json → Prop
  | ⟨_, dataType, nullable, _, _⟩, v => v = .null ∧ nullable = true ∧ terms.null dataType ∨ dataType.Given v
/-- Each field has one of its values in an object. -/
def Field.AllGiven : List (ArrowField DataType) → List (String × Json) → Prop
  | [], _ => True
  | f :: fs, obj => (∃ v, obj.lookup f.name = some v ∧ Field.Given f v) ∧ Field.AllGiven fs obj
end

end Given

/-- Everything that the types have: nulls of nullable fields, and the decimals in range, as they are read. -/
def declared (lib : JsonLib) : Terms where
  null _ := True
  int16 := True
  decimal precision scale n := lib.decimals.Reads n ∧ IsInRange n.toBigDecimal precision scale

/-- The types of which null is converted. -/
def DataType.takesNull : DataType → Bool
  | .null | .int16 | .binary | .fixedSizeBinary _ | .list _ => false
  | _ => true

/-- What of it is converted. -/
def ingestible (lib : JsonLib) : Terms where
  null dataType := dataType.takesNull = true
  int16 := False
  decimal precision scale n := (lib.decimals.Reads n ∧ IsInRange n.toBigDecimal precision scale) ∧
    IsAccepted lib.decimals.overflowChecks n.toBigDecimal precision scale

mutual
/-- The columns have the decimals that Arrow documents. -/
def JsonLib.ChecksDecimals (lib : JsonLib) : Prop :=
  ∀ precision scale, lib.decimalTypes precision scale = isDecimalType precision scale

/-- The types that columns have. -/
def DataType.IsColumn : DataType → Prop
  | .null => False
  | .decimal128 precision scale => isDecimalType precision scale = true
  | .list ⟨_, dataType, _, _, _⟩ => dataType.IsColumn
  | .struct fields => Field.AllColumns fields
  | _ => True
def Field.AllColumns : List (ArrowField DataType) → Prop
  | [] => True
  | ⟨_, dataType, _, _, _⟩ :: fs => dataType.IsColumn ∧ Field.AllColumns fs
end

/-! ## The conversion -/

namespace JsonToMoonlinkRowConverter

variable {lib : JsonLib}

theorem returnsWhen_mapError {ε ε' α : Type} {c : Prop} {x : Except ε α} {g : ε → ε'} {Q : α → Prop}
    (h : ReturnsWhen c x (fun _ => True) Q) : ReturnsWhen c (x.mapError g) (fun _ => True) Q := by
  obtain ⟨hc, a, rfl, ha⟩ | ⟨hc, e, rfl, -⟩ := h
  · exact .ok hc ha
  · exact .error hc trivial

/-- The values given for a field of a type are converted if they are ingestible, to values of the field. -/
def Converts (lib : JsonLib) (f : Field) (v : Json) : Prop :=
  ReturnsWhen (Field.Given lib (ingestible lib) f v) (convertValue lib f.name f.nullable f.dataType v) (fun _ => True)
    (Field.Holds f)

theorem null_converts {name : String} {dataType : DataType} {id : Option Int32} {ext : Option ArrowExtensionType} :
    Converts lib ⟨name, dataType, true, id, ext⟩ .null := by
  unfold Converts
  by_cases h : dataType.takesNull = true
  · have hnull : convertValue lib name true dataType .null = .ok .null := by
      cases dataType <;> first | rfl | cases h
    rw [hnull]
    exact .ok (.inl ⟨rfl, rfl, h⟩) (.inl ⟨rfl, rfl⟩)
  · have hnull : convertValue lib name true dataType .null = .error (.error (.typeMismatch name)) := by
      cases dataType <;> first | rfl | exact absurd rfl h
    rw [hnull]
    refine .error ?_ trivial
    rintro (⟨-, -, htakes⟩ | hvalue)
    · exact h htakes
    · cases dataType <;> simp [DataType.Given, Json.IsInteger, Json.asI64, Json.asF64] at hvalue h

theorem scalar_converts {dataType : DataType} (hscalar : dataType.isScalar = true) {name : String} {nullable : Bool}
    {id : Option Int32} {ext : Option ArrowExtensionType} {v : Json} (hcolumn : dataType.IsColumn)
    (hvalue : dataType.Given lib (declared lib) v) : Converts lib ⟨name, dataType, nullable, id, ext⟩ v := by
  unfold Converts
  cases dataType with
  | boolean =>
    obtain ⟨b, rfl⟩ := hvalue
    exact .ok (.inr ⟨b, rfl⟩) (.inr ⟨b, rfl⟩)
  | int32 =>
    have hgiven := hvalue
    obtain ⟨i, hi, -⟩ := hvalue
    simp only [convertValue, hi]
    exact .ok (.inr hgiven) (.inr ⟨_, rfl⟩)
  | int64 =>
    have hgiven := hvalue
    obtain ⟨i, hi, -⟩ := hvalue
    simp only [convertValue, hi]
    exact .ok (.inr hgiven) (.inr ⟨_, rfl⟩)
  | float32 =>
    obtain ⟨x, hx⟩ := hvalue
    simp only [convertValue, hx]
    exact .ok (.inr ⟨x, hx⟩) (.inr ⟨_, rfl⟩)
  | float64 =>
    obtain ⟨x, hx⟩ := hvalue
    simp only [convertValue, hx]
    exact .ok (.inr ⟨x, hx⟩) (.inr ⟨_, rfl⟩)
  | date32 =>
    obtain ⟨s, days, rfl, hs⟩ := hvalue
    simp only [convertValue, Json.asStr, Option.map_some, hs]
    exact .ok (.inr ⟨s, days, rfl, hs⟩) (.inr ⟨_, rfl⟩)
  | utf8 =>
    obtain ⟨s, rfl⟩ := hvalue
    exact .ok (.inr ⟨s, rfl⟩) (.inr ⟨_, rfl, s.isValidUTF8⟩)
  | int16 =>
    refine .error ?_ trivial
    rintro (⟨-, -, htakes⟩ | ⟨hint16, -⟩)
    · cases htakes
    · exact hint16
  | decimal128 precision scale =>
    obtain ⟨n, rfl, hreads, hrange⟩ := hvalue
    simp only [convertValue, Json.asStr, Option.map_some, orNull]
    cases hresult : convertDecimalToRowValue lib.decimals n.text precision scale with
    | ok w =>
      have haccepted := (convertDecimal_accepted_iff hreads hcolumn hrange).mp ⟨w, hresult⟩
      exact .ok (.inr ⟨n, rfl, ⟨hreads, hrange⟩, haccepted⟩) (.inr (convertDecimal_ensures w hresult))
    | error e =>
      refine .error ?_ trivial
      rintro (⟨hnull, -⟩ | ⟨n', htext, ⟨hreads', hrange'⟩, haccepted⟩)
      · cases hnull
      · obtain ⟨w, hw⟩ := (convertDecimal_accepted_iff hreads' hcolumn hrange').mpr haccepted
        rw [← Json.string.inj htext, hresult] at hw
        cases hw
  | _ => first | exact hvalue.elim | cases hscalar

theorem convertElements_converts {item : Field} {path : Nat → String → String} {items : List Json}
    (h : ∀ v ∈ items, Converts lib item v) (index : Nat) :
    ReturnsWhen (∀ v ∈ items, Field.Given lib (ingestible lib) item v)
      (convertElements (convertValue lib item.name item.nullable item.dataType) path index items) (fun _ => True)
      fun ws => ∀ w ∈ ws, Field.Holds item w := by
  induction items generalizing index with
  | nil => exact .ok (by simp) (by simp)
  | cons v rest ih =>
    obtain ⟨hv, hrest⟩ := List.forall_mem_cons.mp h
    rw [List.forall_mem_cons]
    refine (returnsWhen_mapError hv).bind fun w hw => (ih hrest (index + 1)).bind_pure fun ws hws => ?_
    exact List.forall_mem_cons.mpr ⟨hw, hws⟩

/-- The member of an object that a field has. -/
theorem given_member_iff {terms : Terms} {f : Field} {fs : List Field} {obj : List (String × Json)} {v : Json}
    (h : obj.lookup f.name = some v) : Field.AllGiven lib terms (f :: fs) obj ↔
      Field.Given lib terms f v ∧ Field.AllGiven lib terms fs obj := by
  rw [Field.AllGiven, h]
  simp

theorem convertValue_converts :
    (∀ dataType : DataType, ∀ name nullable id ext v, dataType.IsColumn →
      Field.Given lib (declared lib) ⟨name, dataType, nullable, id, ext⟩ v →
        Converts lib ⟨name, dataType, nullable, id, ext⟩ v) ∧
    ∀ fields parent obj, Field.AllColumns fields → Field.AllGiven lib (declared lib) fields obj →
      ReturnsWhen (Field.AllGiven lib (ingestible lib) fields obj) (convertMembers lib parent fields obj)
        (fun _ => True) (Field.AllHold fields) := by
  refine DataType.induction ?_ ?_ ?_ ?_ ?_
  · intro dataType hscalar name nullable id ext v hcolumn hgiven
    obtain ⟨rfl, rfl, -⟩ | hvalue := hgiven
    · exact null_converts
    · exact scalar_converts hscalar hcolumn hvalue
  · intro item ih name nullable id ext v hcolumn hgiven
    obtain ⟨rfl, rfl, -⟩ | ⟨items, rfl, hitems⟩ := hgiven
    · exact null_converts
    have helements := @convertElements_converts lib item (elementPath name item.name) items
      (fun w hw => ih item.name item.nullable item.fieldId item.extensionType w hcolumn (hitems w hw)) 0
    have hiff : Field.Given lib (ingestible lib) ⟨name, .list item, nullable, id, ext⟩ (.array items) ↔
        ∀ w ∈ items, Field.Given lib (ingestible lib) item w := by simp [Field.Given, DataType.Given]
    rw [Converts, hiff]
    exact helements.bind_pure fun ws hws => .inr ⟨ws, rfl, hws⟩
  · intro fields ih name nullable id ext v hcolumn hgiven
    obtain ⟨rfl, rfl, -⟩ | ⟨obj, rfl, hobj⟩ := hgiven
    · exact null_converts
    have hiff : Field.Given lib (ingestible lib) ⟨name, .struct fields, nullable, id, ext⟩ (.object obj) ↔
        Field.AllGiven lib (ingestible lib) fields obj := by simp [Field.Given, DataType.Given]
    rw [Converts, hiff]
    exact (ih name obj hcolumn hobj).bind_pure fun ws hws => .inr ⟨ws, rfl, hws⟩
  · intro parent obj _ _
    exact .ok trivial rfl
  · intro f fs hf hfs parent obj hcolumns hgiven
    obtain ⟨⟨v, hlookup, hv⟩, hrest⟩ := hgiven
    have hfirst : Converts lib f v := hf f.name f.nullable f.fieldId f.extensionType v hcolumns.1 hv
    rw [given_member_iff hlookup, convertMembers, hlookup]
    refine (returnsWhen_mapError hfirst).bind fun w hw => (hfs parent obj hcolumns.2 hrest).bind_pure fun ws hws => ?_
    exact ⟨w, ws, rfl, hw, hws⟩

theorem convert_converts {schema : List Field} {obj : List (String × Json)} (hcolumns : Field.AllColumns schema)
    (hgiven : Field.AllGiven lib (declared lib) schema obj) :
    ReturnsWhen (Field.AllGiven lib (ingestible lib) schema obj) (convert lib schema (.object obj)) (fun _ => True)
      (Field.AllHold schema) := by
  induction schema with
  | nil => exact .ok trivial rfl
  | cons f fs ih =>
    obtain ⟨⟨v, hlookup, hv⟩, hrest⟩ := hgiven
    have hfirst : Converts lib f v :=
      convertValue_converts.1 f.dataType f.name f.nullable f.fieldId f.extensionType v hcolumns.1 hv
    have hget : (Json.object obj).get f.name = some v := hlookup
    rw [given_member_iff hlookup, convert, hget]
    refine hfirst.bind fun w hw => (ih hcolumns.2 hrest).bind_pure fun ws hws => ?_
    exact ⟨w, ws, rfl, hw, hws⟩

end JsonToMoonlinkRowConverter

/-! ## The columns -/

section Columns

variable {lib : JsonLib}

theorem DataType.not_holds_null (dataType : DataType) : ¬ dataType.Holds .null := by
  cases dataType <;> simp [DataType.Holds]

/-- A column of a type takes the values of the field. -/
def DataType.Takes (lib : JsonLib) (dataType : DataType) : Prop :=
  ∀ name nullable id ext, ∃ column, dataType.column lib nullable = .ok column ∧ column.Supported ∧
    column.isNullable = nullable ∧ ∀ v, Field.Holds ⟨name, dataType, nullable, id, ext⟩ v → column.Has v

theorem DataType.Takes.leaf {dataType : DataType} {type : LeafType}
    (hcolumn : ∀ nullable, dataType.column lib nullable = .ok (.leaf nullable type))
    (hhas : ∀ v, dataType.Holds v → type.Has v) : dataType.Takes lib := by
  intro name nullable id ext
  refine ⟨_, hcolumn nullable, trivial, rfl, ?_⟩
  rintro v (⟨rfl, -⟩ | hv)
  · exact .inl rfl
  · exact .inr (hhas v hv)

theorem takes_of_isColumn (hlib : lib.ChecksDecimals) :
    (∀ dataType : DataType, dataType.IsColumn → dataType.Takes lib) ∧
    ∀ fields, Field.AllColumns fields → ∃ columns, Field.columns lib fields = .ok columns ∧
      Row.Field.AllSupported columns ∧ ∀ vals, Field.AllHold fields vals → Row.Field.AllHave columns vals := by
  refine DataType.induction ?_ ?_ ?_ ?_ ?_
  · intro dataType hscalar hcolumn
    cases dataType with
    | null => exact hcolumn.elim
    | list item => cases hscalar
    | struct fields => cases hscalar
    | decimal128 precision scale =>
      refine .leaf (fun _ => if_pos ((hlib precision scale).trans hcolumn)) ?_
      rintro _ ⟨m, rfl⟩
      trivial
    | int16 =>
      refine .leaf (fun _ => rfl) ?_
      rintro _ ⟨x, rfl, hrange⟩
      exact hrange
    | utf8 =>
      refine .leaf (fun _ => rfl) ?_
      rintro _ ⟨bytes, rfl, hvalid⟩
      exact hvalid
    | fixedSizeBinary size =>
      refine .leaf (fun _ => rfl) ?_
      rintro _ ⟨rfl, bytes, rfl⟩
      rfl
    | _ =>
      refine .leaf (fun _ => rfl) ?_
      rintro _ ⟨x, rfl⟩
      trivial
  · intro item ih hcolumn name nullable id ext
    obtain ⟨column, hitem, hsupported, hnullable, hhas⟩ :=
      ih hcolumn item.name item.nullable item.fieldId item.extensionType
    refine ⟨.list .list nullable column, ?_, ⟨nofun, hsupported⟩, rfl, ?_⟩
    · rw [DataType.column, hitem]
      rfl
    rintro v (⟨rfl, -⟩ | ⟨ws, rfl, hws⟩)
    · exact .inl rfl
    refine .inr ⟨ws, rfl, fun w hw => ⟨hhas w (hws w hw), ?_⟩⟩
    rintro rfl
    have hnull := (Field.holds_iff.mp (hws _ hw)).resolve_right (DataType.not_holds_null _)
    exact ⟨hnullable.trans hnull.2, rfl⟩
  · intro fields ih hcolumns name nullable id ext
    obtain ⟨columns, hfields, hsupported, hhave⟩ := ih hcolumns
    refine ⟨.struct nullable columns, ?_, hsupported, rfl, ?_⟩
    · rw [DataType.column, hfields]
      rfl
    rintro v (⟨rfl, -⟩ | ⟨vals, rfl, hvals⟩)
    · exact .inl rfl
    · exact .inr ⟨vals, rfl, hhave vals hvals⟩
  · intro _
    exact ⟨[], rfl, trivial, fun _ h => h⟩
  · intro f fs hf hfs hcolumns
    obtain ⟨column, hcolumn, hsupported, hnullable, hhas⟩ :=
      hf hcolumns.1 f.name f.nullable f.fieldId f.extensionType
    obtain ⟨columns, hfields, hsupporteds, hhave⟩ := hfs hcolumns.2
    refine ⟨column :: columns, ?_, ⟨hsupported, hsupporteds⟩, ?_⟩
    · rw [Field.columns, hcolumn, hfields]
      rfl
    rintro _ ⟨v, vals, rfl, hv, hvals⟩
    refine ⟨v, vals, rfl, hhas v hv, ?_, hhave vals hvals⟩
    rintro rfl
    have hnull := (Field.holds_iff.mp hv).resolve_right (DataType.not_holds_null _)
    exact hnullable.trans hnull.2

/-- The builders of other types panic. -/
theorem isColumn_of_column (hlib : lib.ChecksDecimals) :
    (∀ dataType : DataType, ∀ nullable column, dataType.column lib nullable = .ok column → dataType.IsColumn) ∧
    ∀ fields columns, Field.columns lib fields = .ok columns → Field.AllColumns fields := by
  refine DataType.induction ?_ ?_ ?_ ?_ ?_
  · intro dataType hscalar nullable column h
    cases dataType with
    | null => cases h
    | list item => cases hscalar
    | struct fields => cases hscalar
    | decimal128 precision scale =>
      unfold DataType.column at h
      split at h
      · rename_i htype
        exact (hlib precision scale).symm.trans htype
      · cases h
    | _ => exact trivial
  · intro item ih nullable column h
    obtain ⟨itemColumn, hitem, -⟩ := bind_eq_ok.mp h
    exact ih _ _ hitem
  · intro fields ih nullable column h
    obtain ⟨columns, hfields, -⟩ := bind_eq_ok.mp h
    exact ih _ hfields
  · intro _ _
    trivial
  · intro f fs hf hfs columns h
    obtain ⟨column, hcolumn, hrest⟩ := bind_eq_ok.mp h
    obtain ⟨rest, hfields, -⟩ := bind_eq_ok.mp hrest
    exact ⟨hf _ _ hcolumn, hfs _ hfields⟩

theorem Field.accepts_of_holds (hlib : lib.ChecksDecimals) {f : Field} {v : RowValue} (hcolumn : f.dataType.IsColumn)
    (h : Field.Holds f v) : f.Accepts lib v := by
  obtain ⟨column, hf, hsupported, -, hhas⟩ :=
    (takes_of_isColumn hlib).1 f.dataType hcolumn f.name f.nullable f.fieldId f.extensionType
  exact ⟨column, _, _, hf, new_eq column hsupported, appendValue_built column [] v (hhas v h)⟩

/-! ## Rows -/

/-- The object becomes a row of which every value is accepted by the column of its field. -/
def IsIngested (lib : JsonLib) (schema : List Field) (obj : List (String × Json)) : Prop :=
  ∃ row, JsonToMoonlinkRowConverter.convert lib schema (.object obj) = .ok row ∧
    List.Forall₂ (Field.Accepts lib) schema row

theorem forall₂_accepts (hlib : lib.ChecksDecimals) {fields : List Field} {row : List RowValue}
    (hcolumns : Field.AllColumns fields) (h : Field.AllHold fields row) : List.Forall₂ (Field.Accepts lib) fields row := by
  induction fields generalizing row with
  | nil =>
    cases h
    exact .nil
  | cons f fs ih =>
    obtain ⟨v, rest, rfl, hv, hrest⟩ := h
    exact .cons (Field.accepts_of_holds hlib hcolumns.1 hv) (ih hcolumns.2 hrest)

theorem allColumns_of_accepts (hlib : lib.ChecksDecimals) {fields : List Field} {row : List RowValue}
    (h : List.Forall₂ (Field.Accepts lib) fields row) : Field.AllColumns fields := by
  induction h with
  | nil => trivial
  | cons hfirst _ ih =>
    obtain ⟨column, -, -, hcolumn, -⟩ := hfirst
    exact ⟨(isColumn_of_column hlib).1 _ _ _ hcolumn, ih⟩

end Columns

/-- An object with a value of the declared type for each field is ingested exactly if the decimal types are those of
columns, no value is given for a field of 16 bits and no null for a list, and the decimals are accepted. -/
theorem restRow_ingested_iff {lib : JsonLib} (hlib : lib.ChecksDecimals) :
    ∀ fields schema, buildArrowSchemaImpl fields = .ok schema → ∀ obj, Field.AllGiven lib (declared lib) schema obj →
      (IsIngested lib schema obj ↔ Field.AllColumns schema ∧ Field.AllGiven lib (ingestible lib) schema obj) := by
  intro fields schema _ obj hgiven
  constructor
  · rintro ⟨row, hrow, haccepts⟩
    have hcolumns := allColumns_of_accepts hlib haccepts
    refine ⟨hcolumns, ?_⟩
    by_contra hnot
    obtain ⟨e, he, -⟩ := (JsonToMoonlinkRowConverter.convert_converts hcolumns hgiven).fails hnot
    rw [hrow] at he
    cases he
  · rintro ⟨hcolumns, hingestible⟩
    obtain ⟨row, hrow, hholds⟩ := (JsonToMoonlinkRowConverter.convert_converts hcolumns hgiven).returns hingestible
    exact ⟨row, hrow, forall₂_accepts hlib hcolumns hholds⟩

/-- A price, up to 999.99, of an order. -/
def priceSchema : List Field := [⟨"price", .decimal128 5 2, true, some 0, none⟩]

def orderSchema : List Field := [⟨"order", .struct priceSchema, true, some 1, none⟩]

/-- A library that reads one price. -/
def priceLib : JsonLib :=
  ⟨⟨fun _ _ => none, fun _ _ => none, fun _ => none, fun _ _ => none, fun _ => none⟩, readsOnly twelvePointFour, isDecimalType⟩

theorem restRow_ingested_iff_price :
    IsIngested priceLib orderSchema [("order", .object [("price", .string twelvePointFour.text)])] := by
  have hbuilt : buildArrowSchemaImpl
      [⟨"order", "Struct", true, some [⟨"price", "Decimal(5, 2)", true, none, none⟩], none⟩] = .ok orderSchema := by
    have hprice : buildFields [⟨"price", "Decimal(5, 2)", true, none, none⟩] 0 = .ok (priceSchema, 1) := by
      refine buildFields_cons.mpr ⟨_, 1, [], 1, ?_, rfl, rfl⟩
      unfold buildFieldFromSchema
      rfl
    refine buildArrowSchemaImpl_eq_ok_iff.mpr ⟨2, buildFields_cons.mpr ⟨_, 2, [], 2, ?_, rfl, rfl⟩⟩
    unfold buildFieldFromSchema
    dsimp only
    rw [show typeName (toLowercase "Struct") = .struct from rfl]
    dsimp only
    rw [hprice]
    rfl
  have hread : IsReadable twelvePointFour.toBigDecimal := ⟨by decide, by decide⟩
  have hrange : IsInRange twelvePointFour.toBigDecimal 5 2 := by
    refine ⟨1240, ?_, by decide⟩
    rw [BigDecimal.value_mul_zpow_of_le _ (by decide)]
    rfl
  have hdeclared : (declared priceLib).decimal 5 2 twelvePointFour := ⟨readsOnly_reads hread, hrange⟩
  have hgiven : Field.AllGiven priceLib (declared priceLib) priceSchema [("price", .string twelvePointFour.text)] :=
    ⟨⟨_, rfl, .inr ⟨_, rfl, hdeclared⟩⟩, trivial⟩
  have hingestible : Field.AllGiven priceLib (ingestible priceLib) priceSchema [("price", .string twelvePointFour.text)] :=
    ⟨⟨_, rfl, .inr ⟨_, rfl, hdeclared, hread, ⟨by decide, fun h => by cases h⟩⟩⟩, trivial⟩
  refine (restRow_ingested_iff (fun _ _ => rfl) _ _ hbuilt _ ⟨⟨_, rfl, .inr ⟨_, rfl, hgiven⟩⟩, trivial⟩).mpr ⟨⟨⟨rfl, trivial⟩, trivial⟩, ?_⟩
  exact ⟨⟨_, rfl, .inr ⟨_, rfl, hingestible⟩⟩, trivial⟩

/-- An integer of 16 bits, of a schema that is accepted, is rejected. -/
theorem int16_rejected : ∃ schema, buildArrowSchemaImpl [⟨"level", "int16", false, none, none⟩] = .ok schema ∧
    ∀ lib, Field.AllGiven lib (declared lib) schema [("level", .posInt 7)] ∧
      ¬ IsIngested lib schema [("level", .posInt 7)] := by
  refine ⟨[⟨"level", .int16, false, some 0, none⟩], ?_, fun lib => ⟨?_, ?_⟩⟩
  · refine buildArrowSchemaImpl_eq_ok_iff.mpr ⟨1, buildFields_cons.mpr ⟨_, 1, [], 1, ?_, rfl, rfl⟩⟩
    unfold buildFieldFromSchema
    rfl
  · exact ⟨⟨_, rfl, .inr ⟨trivial, 7, rfl, by decide⟩⟩, trivial⟩
  · rintro ⟨row, hrow, -⟩
    cases hrow

end Moonlink.Schema
