-- SUMMARY: Rows as protobuf messages and back, and which messages are converted, rejected or panic.
import Mathlib.Algebra.BigOperators.Fin
import Moonlink.Row.ColumnArray

/-!
# Rows in protobuf

A message is converted depth first. A value without its kind panics; a decimal or fixed-length value
of another length than 16 bytes is an error, and the values after it are not looked at.
-/

namespace Moonlink.Row

open Lib

/-! ## Messages -/

/-- `moonlink_pb::RowValue`, of which the kind may be unset. -/
inductive PbRowValue where
  | unset
  | int32 (x : Int32)
  | int64 (x : Int64)
  | float32 (bits : UInt32)
  | float64 (bits : UInt64)
  | decimal128Be (bytes : ByteArray)
  | bool (x : Bool)
  | bytes (b : ByteArray)
  | fixedLenBytes (bytes : ByteArray)
  | array (values : List PbRowValue)
  | struct (fields : List PbRowValue)
  | null

inductive ProtoFailure where
  | pbConversionError (message : String)
  /-- `expect` of the kind. -/
  | panic (message : String)
  deriving DecidableEq, Repr

def toBeBytes (x : BitVec 128) : Vector UInt8 16 := .ofFn fun i => UInt8.ofNat (x.toNat / 256 ^ i.rev.val)

def fromBeBytes (bytes : Vector UInt8 16) : BitVec 128 :=
  BitVec.ofNat 128 (∑ i : Fin 16, bytes[i.rev.val].toNat * 256 ^ i.val)

/-- `try_into` of a slice. -/
def sixteenBytes (message : String) (bytes : ByteArray) : Except ProtoFailure (Vector UInt8 16) :=
  if h : bytes.size = 16 then .ok ⟨bytes.data, h⟩ else .error (.pbConversionError message)

/-! ## The conversions -/

mutual
def rowValueToProto : RowValue → PbRowValue
  | .int32 x => .int32 x
  | .int64 x => .int64 x
  | .float32 x => .float32 x
  | .float64 x => .float64 x
  | .decimal x => .decimal128Be ⟨(toBeBytes x).toArray⟩
  | .bool x => .bool x
  | .byteArray b => .bytes b
  | .fixedLenByteArray arr => .fixedLenBytes ⟨arr.toArray⟩
  | .array items => .array (moonlinkRowToProto items)
  | .struct fields => .struct (moonlinkRowToProto fields)
  | .null => .null
def moonlinkRowToProto : List RowValue → List PbRowValue
  | [] => []
  | v :: rest => rowValueToProto v :: moonlinkRowToProto rest
end

mutual
def protoToRowValue : PbRowValue → Except ProtoFailure RowValue
  | .unset => .error (.panic "RowValue.kind is required")
  | .int32 x => .ok (.int32 x)
  | .int64 x => .ok (.int64 x)
  | .float32 x => .ok (.float32 x)
  | .float64 x => .ok (.float64 x)
  | .decimal128Be bytes => do
    let arr ← sixteenBytes "decimal128_be must be 16 bytes" bytes
    return .decimal (fromBeBytes arr)
  | .bool x => .ok (.bool x)
  | .bytes b => .ok (.byteArray b)
  | .fixedLenBytes b => do
    let arr ← sixteenBytes "fixed_len_bytes must be 16 bytes" b
    return .fixedLenByteArray arr
  | .array values => do
    let items ← protoToMoonlinkRow values
    return .array items
  | .struct values => do
    let fields ← protoToMoonlinkRow values
    return .struct fields
  | .null => .ok .null
def protoToMoonlinkRow : List PbRowValue → Except ProtoFailure (List RowValue)
  | [] => .ok []
  | p :: rest => do
    let v ← protoToRowValue p
    let vs ← protoToMoonlinkRow rest
    return v :: vs
end

/-! ## Malformed values -/

mutual
/-- The values in a value that are not nested, in the order in which they are converted. -/
def PbRowValue.leaves : PbRowValue → List PbRowValue
  | .array values => leavesOf values
  | .struct fields => leavesOf fields
  | v => [v]
/-- The same of a row. -/
def leavesOf : List PbRowValue → List PbRowValue
  | [] => []
  | v :: rest => v.leaves ++ leavesOf rest
end

def PbRowValue.isUnset : PbRowValue → Bool
  | .unset => true
  | _ => false

def PbRowValue.isMalformed : PbRowValue → Bool
  | .unset => true
  | .decimal128Be b => b.size ≠ 16
  | .fixedLenBytes b => b.size ≠ 16
  | _ => false

/-- A value is returned that `Q` holds of, or the first malformed value is rejected: by a panic if it is unset. -/
def Converts {α : Type} (result : Except ProtoFailure α) (leaves : List PbRowValue) (Q : α → Prop) : Prop :=
  match leaves.find? PbRowValue.isMalformed with
  | none => Returns result Q
  | some v => ∃ failure, result = .error failure ∧ ((∃ message, failure = .panic message) ↔ v.isUnset = true)

theorem Converts.ok {α : Type} {a : α} {vs : List PbRowValue} {Q : α → Prop}
    (hvs : vs.find? PbRowValue.isMalformed = none) (h : Q a) : Converts (.ok a) vs Q := by
  unfold Converts
  rw [hvs]
  exact .ok h

theorem Converts.bind {α β : Type} {x : Except ProtoFailure α} {f : α → Except ProtoFailure β} {vs ws : List PbRowValue}
    {P : α → Prop} {Q : β → Prop} (h : Converts x vs P) (hf : ∀ a, P a → Converts (f a) ws Q) :
    Converts (x >>= f) (vs ++ ws) Q := by
  unfold Converts at *
  rw [List.find?_append]
  cases hfind : vs.find? PbRowValue.isMalformed with
  | none =>
    rw [hfind] at h
    obtain ⟨a, rfl, ha⟩ := h
    exact hf a ha
  | some v =>
    rw [hfind] at h
    obtain ⟨failure, rfl, hpanic⟩ := h
    exact ⟨failure, rfl, hpanic⟩

theorem Converts.bind_pure {α β : Type} {x : Except ProtoFailure α} {g : α → β} {vs : List PbRowValue}
    {P : α → Prop} {Q : β → Prop} (h : Converts x vs P) (hg : ∀ a, P a → Q (g a)) :
    Converts (x >>= fun a => pure (g a)) vs Q := by
  have hbind : Converts (x >>= fun a => pure (g a)) (vs ++ []) Q := h.bind fun a ha => .ok rfl (hg a ha)
  rwa [List.append_nil] at hbind

theorem sixteenBytes_toArray (message : String) (arr : Vector UInt8 16) : sixteenBytes message ⟨arr.toArray⟩ = .ok arr :=
  dif_pos arr.size_toArray

theorem sixteenBytes_converts {message : String} {b : ByteArray} {v : PbRowValue}
    (hv : v.isMalformed = decide (b.size ≠ 16)) (hset : v.isUnset = false) :
    Converts (sixteenBytes message b) [v] fun arr => arr.toArray = b.data := by
  unfold Converts sixteenBytes
  rw [List.find?_singleton, hv]
  by_cases h : b.size = 16
  · simp [h, Returns.ok_iff]
  · simp [h, hset]

/-! ## Decimals -/

theorem fromBeBytes_toBeBytes (x : BitVec 128) : fromBeBytes (toBeBytes x) = x := by
  have hdigits := congrArg Fin.val (finFunctionFinEquiv.apply_symm_apply (⟨x.toNat, x.isLt⟩ : Fin (256 ^ 16)))
  rw [finFunctionFinEquiv_apply] at hdigits
  have hsum : ∑ i : Fin 16, (toBeBytes x)[i.rev.val].toNat * 256 ^ i.val = x.toNat := by
    refine Eq.trans (Finset.sum_congr rfl fun i _ => ?_) hdigits
    simp only [toBeBytes, Vector.getElem_ofFn, Fin.eta, Fin.rev_rev, UInt8.toNat_ofNat']
    rfl
  rw [fromBeBytes, hsum, BitVec.ofNat_toNat, BitVec.setWidth_eq]

theorem toBeBytes_fromBeBytes (bytes : Vector UInt8 16) : toBeBytes (fromBeBytes bytes) = bytes := by
  let digits : Fin 16 → Fin 256 := fun i => bytes[i.rev.val].toFin
  have hvalue : (fromBeBytes bytes).toNat = finFunctionFinEquiv digits := by
    rw [fromBeBytes, BitVec.toNat_ofNat, finFunctionFinEquiv_apply]
    exact Nat.mod_eq_of_lt (finFunctionFinEquiv digits).isLt
  ext i hi
  have hdigit := congrArg Fin.val (congrFun (finFunctionFinEquiv.symm_apply_apply digits) (Fin.rev ⟨i, hi⟩))
  have hbyte : (digits (Fin.rev ⟨i, hi⟩)).val = bytes[i].toNat := by
    simp only [digits, Fin.rev_rev]
    rfl
  rw [toBeBytes, Vector.getElem_ofFn, hvalue, UInt8.toNat_ofNat', ← hbyte]
  exact hdigit

/-! ## Conversions -/

mutual
theorem protoToRowValue_converts : ∀ p : PbRowValue, Converts (protoToRowValue p) p.leaves (rowValueToProto · = p)
  | .unset => by
    have hpanic : ∃ message, ProtoFailure.panic "RowValue.kind is required" = .panic message := ⟨_, rfl⟩
    exact ⟨_, rfl, iff_of_true hpanic rfl⟩
  | .decimal128Be bytes => by
    refine (sixteenBytes_converts rfl rfl).bind_pure fun arr harr => ?_
    rw [rowValueToProto, toBeBytes_fromBeBytes, harr]
  | .fixedLenBytes bytes => by
    refine (sixteenBytes_converts rfl rfl).bind_pure fun arr harr => ?_
    rw [rowValueToProto, harr]
  | .array values => (protoToMoonlinkRow_converts values).bind_pure fun items hitems => by
    rw [rowValueToProto, hitems]
  | .struct values => (protoToMoonlinkRow_converts values).bind_pure fun fields hfields => by
    rw [rowValueToProto, hfields]
  | .int32 _ | .int64 _ | .float32 _ | .float64 _ | .bool _ | .bytes _ | .null => .ok rfl rfl
theorem protoToMoonlinkRow_converts :
    ∀ ps : List PbRowValue, Converts (protoToMoonlinkRow ps) (leavesOf ps) (moonlinkRowToProto · = ps)
  | [] => .ok rfl rfl
  | p :: rest => by
    refine (protoToRowValue_converts p).bind fun v hv => (protoToMoonlinkRow_converts rest).bind_pure fun vs hvs => ?_
    rw [moonlinkRowToProto, hv, hvs]
end

mutual
theorem protoToRowValue_rowValueToProto : ∀ v : RowValue, protoToRowValue (rowValueToProto v) = .ok v
  | .decimal x => by
    rw [rowValueToProto, protoToRowValue, sixteenBytes_toArray, ok_bind, fromBeBytes_toBeBytes]
    rfl
  | .fixedLenByteArray arr => by
    rw [rowValueToProto, protoToRowValue, sixteenBytes_toArray]
    rfl
  | .array items => by
    rw [rowValueToProto, protoToRowValue, protoToMoonlinkRow_moonlinkRowToProto items]
    rfl
  | .struct fields => by
    rw [rowValueToProto, protoToRowValue, protoToMoonlinkRow_moonlinkRowToProto fields]
    rfl
  | .int32 _ | .int64 _ | .float32 _ | .float64 _ | .bool _ | .byteArray _ | .null => rfl
theorem protoToMoonlinkRow_moonlinkRowToProto :
    ∀ row : List RowValue, protoToMoonlinkRow (moonlinkRowToProto row) = .ok row
  | [] => rfl
  | v :: rest => by
    rw [moonlinkRowToProto, protoToMoonlinkRow, protoToRowValue_rowValueToProto v, ok_bind,
      protoToMoonlinkRow_moonlinkRowToProto rest]
    rfl
end

/-- A message is converted or rejected without a panic, and a row that it is converted to gives it back. -/
def IsSafe (p : List PbRowValue) : Prop :=
  (∀ message, protoToMoonlinkRow p ≠ .error (.panic message)) ∧
    Ensures (protoToMoonlinkRow p) (moonlinkRowToProto · = p)

/-- Every row is converted and back to itself. A message panics exactly if its first malformed value is unset. -/
theorem protoRow_roundTrip_iff (row : List RowValue) (p : List PbRowValue) :
    protoToMoonlinkRow (moonlinkRowToProto row) = .ok row ∧
      (IsSafe p ↔ ∀ v, (leavesOf p).find? PbRowValue.isMalformed = some v → v.isUnset = false) := by
  refine ⟨protoToMoonlinkRow_moonlinkRowToProto row, ?_⟩
  have h := protoToMoonlinkRow_converts p
  unfold Converts at h
  cases hfind : (leavesOf p).find? PbRowValue.isMalformed with
  | none =>
    rw [hfind] at h
    obtain ⟨row, hrow, hback⟩ := h
    refine iff_of_true ⟨fun message => ?_, ?_⟩ nofun
    · rw [hrow]
      nofun
    · rw [hrow]
      exact .ok hback
  | some v =>
    rw [hfind] at h
    obtain ⟨failure, hfailure, hpanic⟩ := h
    rw [IsSafe, hfailure]
    constructor
    · rintro ⟨hsafe, -⟩ _ ⟨⟩
      rw [← Bool.not_eq_true, ← hpanic]
      rintro ⟨message, rfl⟩
      exact hsafe message rfl
    · intro hset
      refine ⟨?_, .error⟩
      rintro message ⟨⟩
      exact absurd (hpanic.mp ⟨message, rfl⟩) (by simp [hset v rfl])

/-- A list with a value of no kind panics. -/
theorem unsetKind_panics : ¬ IsSafe [.int32 7, .array [.unset]] := fun h => h.1 _ rfl

end Moonlink.Row
