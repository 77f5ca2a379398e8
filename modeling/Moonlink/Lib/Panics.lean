-- SUMMARY: Successful computations in the exception monad: inversion, and total and partial postconditions with their rules.
import Mathlib.Algebra.Order.BigOperators.Group.List
import Mathlib.Data.Fintype.EquivFin
import Mathlib.Data.Nat.Bitwise

/-!
# Successful runs

Code that may panic is a computation in `Except`. A sequence succeeds when both
parts do, which is the only fact proofs need to take such code apart. Going
forward, `Returns x Q` says that `x` does not panic and its value satisfies `Q`;
a sequence is handled by giving the first part a postcondition. `Ensures x Q` is the
partial form, which says nothing if `x` panics. `ReturnsWhen` also says when `x` fails, and how.
-/

namespace Lib

variable {ε α β : Type} {f : α → Except ε β}

theorem bind_eq_ok {x : Except ε α} {b : β} :
    (x >>= f) = .ok b ↔ ∃ a, x = .ok a ∧ f a = .ok b := by
  cases x with
  | error e => exact ⟨nofun, fun ⟨_, h, _⟩ => (nomatch h)⟩
  | ok a => exact ⟨fun h => ⟨a, rfl, h⟩, fun ⟨_, h, hf⟩ => by cases h; exact hf⟩

@[simp] theorem ok_bind (a : α) (f : α → Except ε β) : ((.ok a : Except ε α) >>= f) = f a := rfl

@[simp] theorem pure_eq_ok_iff {a b : α} : (pure a : Except ε α) = .ok b ↔ a = b :=
  ⟨fun h => by cases h; rfl, fun h => by rw [h]; rfl⟩

variable {as : List α}

theorem mapM_eq_ok {g : α → β} (h : ∀ a ∈ as, f a = .ok (g a)) : as.mapM f = .ok (as.map g) := by
  induction as with
  | nil => rfl
  | cons a as ih =>
    rw [List.mapM_cons, h a List.mem_cons_self, ih fun b hb => h b (List.mem_cons_of_mem _ hb)]
    rfl

theorem mapM_congr {f g : α → Except ε β} (h : ∀ a ∈ as, f a = g a) : as.mapM f = as.mapM g := by
  induction as with
  | nil => rfl
  | cons a as ih =>
    rw [List.mapM_cons, List.mapM_cons, h a List.mem_cons_self, ih fun b hb => h b (List.mem_cons_of_mem _ hb)]

theorem exists_eq_ok_of_mapM {bs : List β}
    (h : as.mapM f = .ok bs) {a : α} (ha : a ∈ as) : ∃ b, f a = .ok b := by
  induction as generalizing bs with
  | nil => exact (List.not_mem_nil ha).elim
  | cons c as ih =>
    rw [List.mapM_cons] at h
    obtain ⟨b, hb, hrest⟩ := bind_eq_ok.mp h
    obtain ⟨bs', hbs', -⟩ := bind_eq_ok.mp hrest
    cases List.mem_cons.mp ha with
    | inl heq => exact ⟨b, heq ▸ hb⟩
    | inr hmem => exact ih hbs' hmem

/-- Elements of related lists are related in pairs. -/
theorem exists_of_mem_left {R : α → β → Prop} {bs : List β} (h : List.Forall₂ R as bs) {a : α}
    (ha : a ∈ as) : ∃ b ∈ bs, R a b := by
  induction h with
  | nil => cases ha
  | cons hhead _ ih =>
    rcases List.mem_cons.mp ha with rfl | hrest
    · exact ⟨_, List.mem_cons_self, hhead⟩
    · obtain ⟨b, hb, hab⟩ := ih hrest
      exact ⟨b, List.mem_cons_of_mem _ hb, hab⟩

theorem exists_of_mem_right {R : α → β → Prop} {bs : List β} (h : List.Forall₂ R as bs) {b : β}
    (hb : b ∈ bs) : ∃ a ∈ as, R a b := exists_of_mem_left (List.Forall₂.flip h) hb

/-- `x` returns a value, and `Q` holds of it. -/
def Returns (x : Except ε α) (Q : α → Prop) : Prop := ∃ a, x = .ok a ∧ Q a

namespace Returns

variable {x : Except ε α} {f : α → Except ε β} {P : α → Prop} {Q : β → Prop}

theorem ok {a : α} (h : P a) : Returns (.ok a : Except ε α) P := ⟨a, rfl, h⟩

theorem pure {a : α} (h : P a) : Returns (Pure.pure a : Except ε α) P := ⟨a, rfl, h⟩

theorem mono {P' : α → Prop} (h : Returns x P) (himp : ∀ a, P a → P' a) : Returns x P' := by
  obtain ⟨a, hx, ha⟩ := h
  exact ⟨a, hx, himp a ha⟩

theorem bind (h : Returns x P) (hf : ∀ a, P a → Returns (f a) Q) : Returns (x >>= f) Q := by
  obtain ⟨a, rfl, ha⟩ := h
  exact hf a ha

theorem ok_iff {a : α} : Returns (.ok a : Except ε α) P ↔ P a :=
  ⟨fun ⟨_, h, ha⟩ => by cases h; exact ha, ok⟩

theorem bind_iff : Returns (x >>= f) Q ↔ Returns x fun a => Returns (f a) Q := by
  constructor
  · rintro ⟨b, hb, hQ⟩
    obtain ⟨a, hx, hf⟩ := bind_eq_ok.mp hb
    exact ⟨a, hx, b, hf, hQ⟩
  · exact fun h => h.bind fun _ ha => ha

/-- The value may be put to use at the end. -/
theorem bind_pure_iff {g : α → β} (h : ∀ a, Q (g a) ↔ P a) : Returns (x >>= fun a => Pure.pure (g a)) Q ↔ Returns x P := by
  rw [bind_iff]
  constructor
  · exact fun hx => hx.mono fun a ha => (h a).mp (ok_iff.mp ha)
  · exact fun hx => hx.mono fun a ha => ok_iff.mpr ((h a).mpr ha)

/-- A list of which the first element and the rest are computed one after the other. -/
theorem cons_iff {xs : Except ε (List α)} {R T : List α → Prop} (h : ∀ a as, T (a :: as) ↔ P a ∧ R as) :
    Returns (do
      let a ← x
      let as ← xs
      return a :: as) T ↔ Returns x P ∧ Returns xs R := by
  rw [bind_iff]
  constructor
  · rintro ⟨a, ha, as, has, hT⟩
    obtain ⟨as', has', heq⟩ := bind_eq_ok.mp has
    cases heq
    exact ⟨⟨a, ha, ((h a as').mp hT).1⟩, as', has', ((h a as').mp hT).2⟩
  · rintro ⟨⟨a, ha, hP⟩, as, has, hR⟩
    exact ⟨a, ha, a :: as, bind_eq_ok.mpr ⟨as, has, rfl⟩, (h a as).mpr ⟨hP, hR⟩⟩

instance decidable {x : Except ε α} {P : α → Prop} [DecidablePred P] : Decidable (Returns x P) :=
  match x with
  | .ok a => decidable_of_iff (P a) ⟨ok, fun ⟨_, h, ha⟩ => by cases h; exact ha⟩
  | .error _ => isFalse fun ⟨_, h, _⟩ => nomatch h

/-- The rule for loops: `I done` holds after the elements `done`. -/
theorem foldlM {as : List β} {g : α → β → Except ε α} {I : List β → α → Prop} {a : α}
    (hinit : I [] a)
    (hstep : ∀ done b rest a, as = done ++ b :: rest → I done a →
      Returns (g a b) (I (done ++ [b]))) :
    Returns (as.foldlM g a) (I as) := by
  suffices h : ∀ todo done a, as = done ++ todo → I done a →
      Returns (todo.foldlM g a) (I as) from h as [] a rfl hinit
  intro todo
  induction todo with
  | nil =>
    intro done a heq hinv
    rw [List.append_nil] at heq
    exact .pure (heq ▸ hinv)
  | cons b rest ih =>
    intro done a heq hinv
    rw [List.foldlM_cons]
    refine (hstep done b rest a heq hinv).bind fun a' ha' => ?_
    exact ih (done ++ [b]) a' (by rw [heq]; simp) ha'

/-- The rule for loops over elements that are related to those of another list. -/
theorem foldlM_forall₂ {γ : Type} {as : List β} {cs : List γ} {R : β → γ → Prop}
    {g : α → β → Except ε α} {I : List γ → α → Prop} {a : α} (h : List.Forall₂ R as cs) (hinit : I [] a)
    (hstep : ∀ done b c rest a, cs = done ++ c :: rest → R b c → I done a →
      Returns (g a b) (I (done ++ [c]))) :
    Returns (as.foldlM g a) (I cs) := by
  suffices hall : ∀ done todo as a, cs = done ++ todo → List.Forall₂ R as todo → I done a →
      Returns (as.foldlM g a) (I cs) from hall [] cs as a rfl h hinit
  clear h hinit as a
  intro done todo
  induction todo generalizing done with
  | nil =>
    rintro _ a heq ⟨⟩ hinv
    rw [List.append_nil] at heq
    exact .pure (heq ▸ hinv)
  | cons c todo ih =>
    rintro _ a heq (_ | ⟨hbc, hrest⟩) hinv
    rw [List.foldlM_cons]
    refine (hstep done _ c todo a heq hbc hinv).bind fun a' ha' => ?_
    exact ih (done ++ [c]) _ a' (by rw [heq]; simp) hrest ha'

end Returns

/-- If `x` returns a value, `Q` holds of it. -/
def Ensures (x : Except ε α) (Q : α → Prop) : Prop := ∀ a, x = .ok a → Q a

namespace Ensures

variable {x : Except ε α} {f : α → Except ε β} {P : α → Prop} {Q : β → Prop}

theorem ok {a : α} (h : P a) : Ensures (.ok a : Except ε α) P := by
  rintro _ ⟨⟩
  exact h

theorem pure {a : α} (h : P a) : Ensures (Pure.pure a : Except ε α) P := ok h

theorem error {p : ε} : Ensures (.error p : Except ε α) P := nofun

theorem mono {P' : α → Prop} (h : Ensures x P) (himp : ∀ a, P a → P' a) : Ensures x P' :=
  fun a ha => himp a (h a ha)

theorem and {P' : α → Prop} (h : Ensures x P) (h' : Ensures x P') : Ensures x fun a => P a ∧ P' a :=
  fun a ha => ⟨h a ha, h' a ha⟩

theorem bind (h : Ensures x P) (hf : ∀ a, P a → Ensures (f a) Q) : Ensures (x >>= f) Q := by
  intro b hb
  obtain ⟨a, ha, hfa⟩ := bind_eq_ok.mp hb
  exact hf a (h a ha) b hfa

instance decidable {x : Except ε α} {P : α → Prop} [DecidablePred P] : Decidable (Ensures x P) :=
  match x with
  | .ok a => decidable_of_iff (P a) ⟨ok, fun h => h a rfl⟩
  | .error _ => isTrue error

/-- The rule for loops: `I done` holds after the elements `done`. -/
theorem foldlM {as : List β} {g : α → β → Except ε α} {I : List β → α → Prop} {a : α}
    (hinit : I [] a)
    (hstep : ∀ done b rest a, as = done ++ b :: rest → I done a →
      Ensures (g a b) (I (done ++ [b]))) :
    Ensures (as.foldlM g a) (I as) := by
  suffices h : ∀ todo done a, as = done ++ todo → I done a →
      Ensures (todo.foldlM g a) (I as) from h as [] a rfl hinit
  intro todo
  induction todo with
  | nil =>
    intro done a heq hinv
    rw [List.append_nil] at heq
    exact .pure (heq ▸ hinv)
  | cons b rest ih =>
    intro done a heq hinv
    rw [List.foldlM_cons]
    refine bind (hstep done b rest a heq hinv) fun a' ha' => ?_
    exact ih (done ++ [b]) a' (by rw [heq]; simp) ha'

/-- The rule for loops over elements that are related to those of another list. -/
theorem foldlM_forall₂ {γ : Type} {as : List β} {cs : List γ} {R : β → γ → Prop}
    {g : α → β → Except ε α} {I : List γ → α → Prop} {a : α} (h : List.Forall₂ R as cs) (hinit : I [] a)
    (hstep : ∀ done b c rest a, cs = done ++ c :: rest → R b c → I done a →
      Ensures (g a b) (I (done ++ [c]))) :
    Ensures (as.foldlM g a) (I cs) := by
  suffices hall : ∀ done todo as a, cs = done ++ todo → List.Forall₂ R as todo → I done a →
      Ensures (as.foldlM g a) (I cs) from hall [] cs as a rfl h hinit
  clear h hinit as a
  intro done todo
  induction todo generalizing done with
  | nil =>
    rintro _ a heq ⟨⟩ hinv
    rw [List.append_nil] at heq
    exact .pure (heq ▸ hinv)
  | cons c todo ih =>
    rintro _ a heq (_ | ⟨hbc, hrest⟩) hinv
    rw [List.foldlM_cons]
    refine bind (hstep done _ c todo a heq hbc hinv) fun a' ha' => ?_
    exact ih (done ++ [c]) _ a' (by rw [heq]; simp) hrest ha'

/-- Every element is related to its result. -/
theorem mapM {as : List α} {R : α → β → Prop} (h : ∀ a ∈ as, Ensures (f a) (R a)) :
    Ensures (as.mapM f) (List.Forall₂ R as) := by
  induction as with
  | nil => exact .pure .nil
  | cons a as ih =>
    rw [List.mapM_cons]
    refine bind (h a List.mem_cons_self) fun b hb => ?_
    refine bind (ih fun a' ha' => h a' (List.mem_cons_of_mem _ ha')) fun bs hbs => ?_
    exact .pure (.cons hb hbs)

theorem returns (h : Ensures x P) (hx : ∃ a, x = .ok a) : Returns x P := by
  obtain ⟨a, hx⟩ := hx
  exact ⟨a, hx, h a hx⟩

/-- The first part is only there for its panic. -/
theorem bind_any (hf : ∀ a, Ensures (f a) Q) : Ensures (x >>= f) Q :=
  bind (P := fun _ => True) (fun _ _ => trivial) fun a _ => hf a

end Ensures

theorem Returns.ensures {x : Except ε α} {P : α → Prop} (h : Returns x P) : Ensures x P := by
  obtain ⟨a, rfl, ha⟩ := h
  exact .ok ha

/-! ## Results of a list -/

/-- A loop returns if and only if its body does for each element, whatever the state. -/
theorem exists_foldlM_eq_ok_iff {g : α → β → Except ε α} {P : β → Prop} (h : ∀ a b, (∃ a', g a b = .ok a') ↔ P b)
    {bs : List β} {a : α} : (∃ a', bs.foldlM g a = .ok a') ↔ ∀ b ∈ bs, P b := by
  induction bs generalizing a with
  | nil => exact iff_of_true ⟨a, rfl⟩ (by simp)
  | cons b bs ih =>
    rw [List.foldlM_cons, List.forall_mem_cons, ← h a b]
    constructor
    · rintro ⟨a', ha'⟩
      obtain ⟨a₁, hfirst, hrest⟩ := bind_eq_ok.mp ha'
      exact ⟨⟨a₁, hfirst⟩, ih.mp ⟨a', hrest⟩⟩
    · rintro ⟨⟨a₁, hfirst⟩, hrest⟩
      obtain ⟨a', ha'⟩ := (ih (a := a₁)).mpr hrest
      exact ⟨a', bind_eq_ok.mpr ⟨a₁, hfirst, ha'⟩⟩

/-- The results of `f` for the elements of a list, one after the other. -/
def collectM (f : α → Except ε (List β)) (as : List α) : Except ε (List β) := do
  let bss ← as.mapM f
  return bss.flatten

/-- Lists of results that come from one function are its results for the lists together. -/
theorem collectM_eq_mapM {γ : Type} {f : α → Except ε (List β)} {g : α → List γ} {h : γ → Except ε β}
    (heq : ∀ a, f a = (g a).mapM h) : collectM f as = (as.flatMap g).mapM h := by
  induction as with
  | nil => rfl
  | cons a as ih =>
    rw [List.flatMap_cons, List.mapM_append, ← ih, ← heq]
    unfold collectM
    rw [List.mapM_cons]
    cases f a with
    | error e => rfl
    | ok bs => cases as.mapM f <;> rfl

theorem returns_mapM_iff {R : α → β → Prop} :
    Returns (as.mapM f) (List.Forall₂ R as) ↔ ∀ a ∈ as, Returns (f a) (R a) := by
  induction as with
  | nil => exact ⟨fun _ => by simp, fun _ => .pure .nil⟩
  | cons a as ih =>
    rw [List.mapM_cons, List.forall_mem_cons, ← ih]
    constructor
    · rintro ⟨_, hall, hR⟩
      obtain ⟨b, hb, hrest⟩ := bind_eq_ok.mp hall
      obtain ⟨bs, hbs, heq⟩ := bind_eq_ok.mp hrest
      cases heq
      cases hR with
      | cons hhead htail => exact ⟨⟨b, hb, hhead⟩, bs, hbs, htail⟩
    · rintro ⟨hhead, htail⟩
      refine hhead.bind fun b hb => ?_
      refine htail.bind fun bs hbs => ?_
      exact .pure (.cons hb hbs)

/-! ## Errors -/

/-- `x` returns a value that `Q` holds of if `c` holds, and otherwise ends in an error that `F` holds of. -/
def ReturnsWhen (c : Prop) (x : Except ε α) (F : ε → Prop) (Q : α → Prop) : Prop :=
  c ∧ Returns x Q ∨ ¬ c ∧ ∃ e, x = .error e ∧ F e

namespace ReturnsWhen

variable {c d : Prop} {x : Except ε α} {f : α → Except ε β} {F : ε → Prop} {P : α → Prop} {Q : β → Prop}

theorem ok {a : α} (hc : c) (h : P a) : ReturnsWhen c (.ok a : Except ε α) F P := .inl ⟨hc, .ok h⟩

theorem error {e : ε} (hc : ¬ c) (h : F e) : ReturnsWhen c (.error e : Except ε α) F P := .inr ⟨hc, e, rfl, h⟩

theorem mono {P' : α → Prop} (h : ReturnsWhen c x F P) (himp : ∀ a, P a → P' a) : ReturnsWhen c x F P' :=
  h.imp (fun hx => ⟨hx.1, hx.2.mono himp⟩) id

/-- A sequence returns if both parts do. -/
theorem bind (h : ReturnsWhen c x F P) (hf : ∀ a, P a → ReturnsWhen d (f a) F Q) :
    ReturnsWhen (c ∧ d) (x >>= f) F Q := by
  obtain ⟨hc, a, rfl, ha⟩ | ⟨hc, e, rfl, he⟩ := h
  · obtain ⟨hd, b, hb⟩ | ⟨hd, hb⟩ := hf a ha
    · exact .inl ⟨⟨hc, hd⟩, b, hb⟩
    · exact .inr ⟨fun hcd => hd hcd.2, hb⟩
  · exact .inr ⟨fun hcd => hc hcd.1, e, rfl, he⟩

/-- The value may be put to use at the end. -/
theorem bind_pure {g : α → β} (h : ReturnsWhen c x F P) (hg : ∀ a, P a → Q (g a)) :
    ReturnsWhen c (x >>= fun a => pure (g a)) F Q := by
  obtain ⟨hc, a, rfl, ha⟩ | ⟨hc, e, rfl, he⟩ := h
  · exact .inl ⟨hc, g a, rfl, hg a ha⟩
  · exact .inr ⟨hc, e, rfl, he⟩

theorem returns (h : ReturnsWhen c x F P) (hc : c) : Returns x P := by
  obtain ⟨-, hx⟩ | ⟨hnot, -⟩ := h
  · exact hx
  · exact absurd hc hnot

theorem fails (h : ReturnsWhen c x F P) (hc : ¬ c) : ∃ e, x = .error e ∧ F e := by
  obtain ⟨hholds, -⟩ | ⟨-, hx⟩ := h
  · exact absurd hholds hc
  · exact hx

end ReturnsWhen

/-! ## Preconditions -/

/-- `x` returns a value if `pre` holds, and `Q` holds of a value that it returns in any case. -/
structure Contract (x : Except ε α) (pre : Prop) (Q : α → Prop) : Prop where
  ensures : Ensures x Q
  returns : pre → ∃ a, x = .ok a

namespace Contract

variable {x : Except ε α} {f : α → Except ε β} {pre : Prop} {P : α → Prop} {Q : β → Prop}

theorem ok {a : α} (h : P a) : Contract (.ok a : Except ε α) pre P := ⟨.ok h, fun _ => ⟨a, rfl⟩⟩

theorem pure {a : α} (h : P a) : Contract (Pure.pure a : Except ε α) pre P := ok h

theorem error {p : ε} (h : ¬ pre) : Contract (.error p : Except ε α) pre P :=
  ⟨.error, fun hpre => absurd hpre h⟩

theorem mono {pre' : Prop} {P' : α → Prop} (h : Contract x pre P) (hpre : pre' → pre)
    (himp : ∀ a, P a → P' a) : Contract x pre' P' :=
  ⟨h.ensures.mono himp, fun hpre' => h.returns (hpre hpre')⟩

theorem bind (h : Contract x pre P) (hf : ∀ a, P a → Contract (f a) pre Q) :
    Contract (x >>= f) pre Q where
  ensures := h.ensures.bind fun a ha => (hf a ha).ensures
  returns hpre := by
    obtain ⟨a, rfl⟩ := h.returns hpre
    exact (hf a (h.ensures a rfl)).returns hpre

theorem total (h : Contract x pre P) (hpre : pre) : Returns x P := h.ensures.returns (h.returns hpre)

end Contract

end Lib
