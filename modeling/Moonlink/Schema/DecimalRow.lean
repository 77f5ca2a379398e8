-- SUMMARY: Texts of decimals, and the row values that they are converted to for a precision and a scale.
import Moonlink.Lib.Decimals
import Moonlink.Row.ColumnArray

/-!
# Decimals of the REST API

A text is read as a decimal, whose digits are fitted to the precision and the scale of the
column. There are three cases: a negative scale, a scale that exceeds the precision, and all
others. Lengths are compared in 8 bits; what overflows wraps around where it is not checked.

How a text is read and how a decimal is brought to another scale is the decimal library's.
-/

namespace Moonlink.Schema

open Lib Row

/-- The decimal library, and whether the build checks arithmetic for overflows. -/
structure DecimalLib where
  overflowChecks : Bool
  fromStr : String → Option BigDecimal
  /-- `with_scale_round` with halves rounded up. -/
  withScaleRound : BigDecimal → Int → BigDecimal

/-- The value in an error is printed there. -/
inductive DecimalConversionError where
  | normalizationPrecision (value : BigDecimal) (parsedPrecision : Nat)
  | normalizationScale (value : BigDecimal) (parsedScale : Int)
  | precisionOutOfRange (value : BigDecimal) (expectedPrecision actualPrecision : UInt8)
  | scaleOutOfRange (value : BigDecimal) (expectedScale actualScale : Int)
  | integerPartOutOfRange (value : BigDecimal) (expectedLen actualLen : Int)
  | invalidValue (value : String)
  | overflow (mantissa : Int)
  deriving DecidableEq, Repr

inductive DecimalFailure where
  | error (e : DecimalConversionError)
  /-- Arithmetic that overflows panics if the build checks it. -/
  | arithmetic
  deriving DecidableEq, Repr

/-- `return Err(e)` under a condition. -/
def returnErrIf (c : Prop) [Decidable c] (e : DecimalConversionError) : Except DecimalFailure Unit :=
  if c then .error (.error e) else .ok ()

/-- `as i8`. -/
def asI8 (n : Int) : Int := n.bmod (2 ^ 8)

/-- A difference of 8-bit numbers. -/
def DecimalLib.subI8 (lib : DecimalLib) (a b : Int) : Except DecimalFailure Int :=
  if -2 ^ 7 ≤ a - b ∧ a - b < 2 ^ 7 then .ok (a - b)
  else if lib.overflowChecks then .error .arithmetic
  else .ok (asI8 (a - b))

def convertMantissaToRowValue (mantissa : Int) : Except DecimalFailure RowValue :=
  if -2 ^ 127 ≤ mantissa ∧ mantissa < 2 ^ 127 then .ok (.decimal (BitVec.ofInt 128 mantissa))
  else .error (.error (.overflow mantissa))

/-- The digits rounded to a multiple of the power of ten. -/
def roundedMantissa (mantissa : Int) (scale : Int8) : Int :=
  let powerOf10 : Nat := 10 ^ scale.toInt.natAbs
  let halfPower : Nat := powerOf10 / 2
  if 0 ≤ mantissa then (mantissa + halfPower).tdiv powerOf10 * powerOf10
  else (mantissa - halfPower).tdiv powerOf10 * powerOf10

def handleNegativeScale (value : BigDecimal) (scale : Int8) (precision : UInt8) : Except DecimalFailure RowValue :=
  let maxPrecision := precision.toNat + scale.toInt.natAbs
  let rounded := roundedMantissa value.digits scale
  let roundedPrecision := numDigits rounded.natAbs
  if maxPrecision < roundedPrecision then
    .error (.error (.precisionOutOfRange ⟨rounded, 0⟩ precision roundedPrecision.toUInt8))
  else convertMantissaToRowValue rounded

def handleFractionalOnly (lib : DecimalLib) (value : BigDecimal) (scale : Int8) (precision : UInt8) :
    Except DecimalFailure RowValue := do
  let rounded := lib.withScaleRound value scale.toInt
  let roundedPrecision := numDigits rounded.digits.natAbs
  let actualScale := asI8 rounded.scale
  let integerPartLength ← lib.subI8 (asI8 roundedPrecision) actualScale
  returnErrIf (0 < integerPartLength) (.integerPartOutOfRange value 0 integerPartLength)
  returnErrIf (precision.toNat < roundedPrecision) (.precisionOutOfRange value precision roundedPrecision.toUInt8)
  if actualScale < scale.toInt then
    let scaleDiff ← lib.subI8 scale.toInt actualScale
    convertMantissaToRowValue (rounded.digits * 10 ^ scaleDiff.toNat)
  else convertMantissaToRowValue rounded.digits

def handleStandard (lib : DecimalLib) (value : BigDecimal) (scale : Int8) (precision : UInt8) :
    Except DecimalFailure RowValue := do
  let decimalPrecision := numDigits value.digits.natAbs
  returnErrIf (2 ^ 8 ≤ decimalPrecision) (.normalizationPrecision value decimalPrecision)
  returnErrIf (value.scale < -2 ^ 7 ∨ 2 ^ 7 ≤ value.scale) (.normalizationScale value value.scale)
  returnErrIf (precision.toNat < decimalPrecision) (.precisionOutOfRange value precision decimalPrecision.toUInt8)
  returnErrIf (scale.toInt < value.scale) (.scaleOutOfRange value scale.toInt value.scale)
  let maxIntegerLen ← lib.subI8 (asI8 precision.toNat) scale.toInt
  let actualIntegerLen ← lib.subI8 (asI8 decimalPrecision) value.scale
  returnErrIf (maxIntegerLen < actualIntegerLen) (.integerPartOutOfRange value maxIntegerLen actualIntegerLen)
  let missing ← lib.subI8 scale.toInt value.scale
  if 0 < missing then convertMantissaToRowValue (value.digits * 10 ^ missing.toNat)
  else convertMantissaToRowValue value.digits

def convertDecimalToRowValue (lib : DecimalLib) (value : String) (precision : UInt8) (scale : Int8) :
    Except DecimalFailure RowValue :=
  match lib.fromStr value with
  | none => .error (.error (.invalidValue value))
  | some decimal =>
    if scale < 0 then handleNegativeScale decimal scale precision
    else if asI8 precision.toNat < scale.toInt then handleFractionalOnly lib decimal scale precision
    else handleStandard lib decimal scale precision

end Moonlink.Schema
