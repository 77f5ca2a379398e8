-- SUMMARY: Computations that change a state and may fail halfway: what they leave on success and on failure.
import Moonlink.Lib.Panics

/-!
# Attempts

An attempt is a computation on a state that may fail. A failure keeps what was done to
the state before it. Panics are errors of the underlying monad, so they leave no state.
`Leaves x s Q E` says that from `s` a success of `x` satisfies `Q`, and that a failure
leaves a state that satisfies `E`.
-/

namespace Lib

/-- A computation on a state that may panic, and may fail. -/
def Attempt (π ε σ α : Type) : Type := σ → Except π (Except ε α × σ)

namespace Attempt

variable {π ε σ α β : Type}

def pure (a : α) : Attempt π ε σ α := fun s => .ok (.ok a, s)

/-- After a failure the rest is skipped, and the state is kept. -/
def bind (x : Attempt π ε σ α) (f : α → Attempt π ε σ β) : Attempt π ε σ β := fun s =>
  x s >>= fun r => match r with
    | (.ok a, s') => f a s'
    | (.error e, s') => .ok (.error e, s')

instance : Monad (Attempt π ε σ) where
  pure := pure
  bind := bind

def fail (e : ε) : Attempt π ε σ α := fun s => .ok (.error e, s)

def get : Attempt π ε σ σ := fun s => .ok (.ok s, s)

def set (s : σ) : Attempt π ε σ Unit := fun _ => .ok (.ok (), s)

/-- A computation without state. -/
def lift (x : Except π α) : Attempt π ε σ α := fun s => x >>= fun a => .ok (.ok a, s)

/-- Fail if the condition holds. -/
def failIf (c : Bool) (e : ε) : Attempt π ε σ Unit := if c then fail e else pure ()

/-- The attempt succeeded with `Q`, or it failed with `E`. -/
def Post (Q : α → σ → Prop) (E : σ → Prop) : Except ε α × σ → Prop
  | (.ok a, s) => Q a s
  | (.error _, s) => E s

/-- Unless `x` panics from `s`, it succeeds with `Q`, or it fails with `E`. -/
def Leaves (x : Attempt π ε σ α) (s : σ) (Q : α → σ → Prop) (E : σ → Prop) : Prop :=
  Ensures (x s) (Post Q E)

namespace Leaves

variable {x : Attempt π ε σ α} {f : α → Attempt π ε σ β} {s : σ} {E E' : σ → Prop}
  {P P' : α → σ → Prop} {Q : β → σ → Prop}

theorem pure {a : α} (h : P a s) : Leaves (Pure.pure a : Attempt π ε σ α) s P E := .ok h

theorem fail {e : ε} (h : E s) : Leaves (Attempt.fail e : Attempt π ε σ α) s P E := .ok h

theorem get_bind {f : σ → Attempt π ε σ β} (h : Leaves (f s) s Q E) :
    Leaves (Attempt.get >>= f) s Q E := h

theorem set {s' : σ} {P : Unit → σ → Prop} (h : P () s') :
    Leaves (Attempt.set s' : Attempt π ε σ Unit) s P E := .ok h

theorem set_bind {s' : σ} {f : Unit → Attempt π ε σ β} (h : Leaves (f ()) s' Q E) :
    Leaves (Attempt.set s' >>= f) s Q E := h

theorem lift {x : Except π α} (h : Ensures x fun a => P a s) :
    Leaves (Attempt.lift x : Attempt π ε σ α) s P E :=
  Ensures.bind h fun _ ha => .ok ha

theorem failIf {c : Bool} {e : ε} {P : Unit → σ → Prop} (hfail : c = true → E s)
    (h : c = false → P () s) : Leaves (Attempt.failIf c e : Attempt π ε σ Unit) s P E := by
  cases c with
  | true => exact .ok (hfail rfl)
  | false => exact .ok (h rfl)

theorem mono (h : Leaves x s P E) (hP : ∀ a s', P a s' → P' a s') (hE : ∀ s', E s' → E' s') :
    Leaves x s P' E' := by
  refine Ensures.mono h ?_
  rintro ⟨_ | _, s'⟩ hr
  · exact hE s' hr
  · exact hP _ s' hr

/-- Sequencing: the second part starts in the state that the first one left. -/
theorem bind (h : Leaves x s P E) (hf : ∀ a s', P a s' → Leaves (f a) s' Q E) :
    Leaves (x >>= f) s Q E := by
  refine Ensures.bind h ?_
  rintro ⟨_ | a, s'⟩ hr
  · exact .ok hr
  · exact hf a s' hr

end Leaves
end Attempt
end Lib
