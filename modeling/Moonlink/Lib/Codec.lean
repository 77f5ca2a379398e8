-- SUMMARY: Encoders and decoders of byte strings: what an encoder emits and when it fits, what a decoder reads back, with rules for sequences and loops.
import Moonlink.Lib.Panics

/-!
# Encoders and decoders

An encoder appends to the bytes written so far, a decoder reads from the front of the
bytes that are left; both may fail. `Emits` gives the bytes of an encoder together with
the condition under which the format can hold them, and `Decodes` says that a decoder
reads a value back from its bytes, whatever follows them. A format is read back
correctly when each of its parts is, in the order in which they are written.
-/

namespace Lib.Codec

abbrev Encoder (ε α : Type) : Type := StateT (List UInt8) (Except ε) α

abbrev Decoder (ε α : Type) : Type := StateT (List UInt8) (Except ε) α

variable {ε α β : Type}

def write (bytes : List UInt8) : Encoder ε Unit := modify (· ++ bytes)

/-- Take `n` bytes from the front, unless the input ends first. -/
def read (unexpectedEnd : ε) (n : Nat) : Decoder ε (List UInt8) := do
  let input ← get
  if n ≤ input.length then
    set (input.drop n)
    return input.take n
  else throw unexpectedEnd

/-- Run a decoder `n` times. -/
def times (d : Decoder ε α) : Nat → Decoder ε (List α)
  | 0 => pure []
  | n + 1 => do
    let a ← d
    let as ← times d n
    return a :: as

/-! ## What an encoder emits -/

/-- If `fits` holds the encoder appends `bytes` and returns `a`, and otherwise it fails with
`err`. -/
structure Emits (e : Encoder ε α) (fits : Prop) (err : ε) (bytes : List UInt8) (a : α) : Prop where
  appends : fits → ∀ out, e.run out = .ok (a, out ++ bytes)
  fails : ¬ fits → ∀ out, e.run out = .error err

namespace Emits

variable {e : Encoder ε α} {f : α → Encoder ε β} {fits fits' : Prop} {err : ε}
  {bytes bytes' : List UInt8} {a : α} {b : β}

theorem pure : Emits (Pure.pure a : Encoder ε α) True err [] a where
  appends _ out := by
    rw [List.append_nil]
    rfl
  fails h := absurd trivial h

theorem write : Emits (write bytes : Encoder ε Unit) True err bytes () where
  appends _ _ := rfl
  fails h := absurd trivial h

theorem bind (h : Emits e fits err bytes a) (hf : Emits (f a) fits' err bytes' b) :
    Emits (e >>= f) (fits ∧ fits') err (bytes ++ bytes') b where
  appends hfits out := by
    rw [StateT.run_bind, h.appends hfits.1, ok_bind, hf.appends hfits.2, List.append_assoc]
  fails hfits out := by
    rw [StateT.run_bind]
    by_cases hfirst : fits
    · rw [h.appends hfirst, ok_bind, hf.fails fun hrest => hfits ⟨hfirst, hrest⟩]
    · rw [h.fails hfirst]
      rfl

/-- Another way to put the condition; the bytes matter only if it holds. -/
theorem congr (h : Emits e fits err bytes a) (hfits : fits ↔ fits') (hbytes : fits' → bytes = bytes') :
    Emits e fits' err bytes' a where
  appends hfits' out := hbytes hfits' ▸ h.appends (hfits.mpr hfits') out
  fails hfits' := h.fails fun hfit => hfits' (hfits.mp hfit)

/-- A loop whose body always fits. -/
theorem forM {f : α → Encoder ε PUnit} {bytes : α → List UInt8} {as : List α}
    (h : ∀ a, Emits (f a) True err (bytes a) ⟨⟩) : Emits (as.forM f) True err (as.flatMap bytes) ⟨⟩ := by
  induction as with
  | nil => exact pure
  | cons a as ih =>
    rw [List.flatMap_cons]
    exact ((h a).bind ih).congr and_self_iff fun _ => rfl

end Emits

/-! ## What a decoder reads back -/

/-- The decoder reads `a` from `bytes` and leaves what follows them. -/
def Decodes (d : Decoder ε α) (bytes : List UInt8) (a : α) : Prop :=
  ∀ rest, d.run (bytes ++ rest) = .ok (a, rest)

namespace Decodes

variable {d : Decoder ε α} {f : α → Decoder ε β} {bytes bytes' : List UInt8} {a : α} {b : β}

theorem pure : Decodes (Pure.pure a : Decoder ε α) [] a := fun _ => rfl

theorem read {unexpectedEnd : ε} : Decodes (read unexpectedEnd bytes.length) bytes bytes := by
  intro rest
  simp [Codec.read]

theorem bind (h : Decodes d bytes a) (hf : Decodes (f a) bytes' b) :
    Decodes (d >>= f) (bytes ++ bytes') b := by
  intro rest
  rw [StateT.run_bind, List.append_assoc, h, ok_bind, hf]

/-- A sequence whose second part reads nothing. -/
theorem bind_pure (h : Decodes d bytes a) (hf : Decodes (f a) [] b) : Decodes (d >>= f) bytes b := by
  have hboth := h.bind hf
  rwa [List.append_nil] at hboth

/-- The elements of a list, one after the other. -/
theorem times {encode : α → List UInt8} {as : List α} (h : ∀ a ∈ as, Decodes d (encode a) a) :
    Decodes (times d as.length) (as.flatMap encode) as := by
  induction as with
  | nil => exact pure
  | cons a as ih =>
    rw [List.flatMap_cons]
    have hrest := ih fun b hb => h b (List.mem_cons_of_mem _ hb)
    exact (h a List.mem_cons_self).bind (hrest.bind_pure pure)

end Decodes

end Lib.Codec
