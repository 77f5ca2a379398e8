-- SUMMARY: Transition systems, reachability and the rules for inductive invariants; labelled traces; runs of a step function.
import Moonlink.Lib.Panics

namespace Lib

/-- A transition system over states `σ`. -/
structure TransitionSystem (σ : Type) where
  init : σ → Prop
  step : σ → σ → Prop

namespace TransitionSystem

variable {σ : Type} {M : TransitionSystem σ}

/-- The states that a run of `M` can end in. -/
inductive Reachable (M : TransitionSystem σ) : σ → Prop where
  | init {s : σ} (h : M.init s) : Reachable M s
  | step {s s' : σ} (hs : Reachable M s) (h : M.step s s') : Reachable M s'

/-- `Inv` holds in the initial states and every step keeps it. -/
structure Inductive (M : TransitionSystem σ) (Inv : σ → Prop) : Prop where
  init : ∀ s, M.init s → Inv s
  step : ∀ s s', Inv s → M.step s s' → Inv s'

theorem Inductive.reachable {Inv : σ → Prop} (h : M.Inductive Inv) {s : σ}
    (hs : M.Reachable s) : Inv s := by
  induction hs with
  | init hi => exact h.init _ hi
  | step _ hstep ih => exact h.step _ _ ih hstep

end TransitionSystem

/-! ## Traces -/

/-- A sequence of labelled steps from one state to another. -/
inductive Trace {σ α : Type} (R : σ → α → σ → Prop) : σ → List α → σ → Prop where
  | nil {s : σ} : Trace R s [] s
  | cons {s s₁ s' : σ} {a : α} {rest : List α} (hstep : R s a s₁) (hrest : Trace R s₁ rest s') :
      Trace R s (a :: rest) s'

namespace Trace

variable {σ α : Type} {R : σ → α → σ → Prop} {s s₁ s' : σ} {as as' : List α}

theorem append (h : Trace R s as s₁) (h' : Trace R s₁ as' s') : Trace R s (as ++ as') s' := by
  induction h with
  | nil => exact h'
  | cons hstep _ ih => exact .cons hstep (ih h')

end Trace

/-! ## Runs of a step function -/

/-- Every step of the run meets the condition `p`, as far as the steps are possible. -/
def RunMeets {σ α : Type} (next : σ → α → Option σ) (p : σ → α → Prop) (s : σ) : List α → Prop
  | [] => True
  | a :: rest => p s a ∧ ∀ s' ∈ next s a, RunMeets next p s' rest

namespace RunMeets

variable {σ α : Type} {next : σ → α → Option σ} {p : σ → α → Prop}

instance decidable [∀ s a, Decidable (p s a)] : (s : σ) → (as : List α) → Decidable (RunMeets next p s as)
  | _, [] => isTrue trivial
  | s, a :: rest =>
    have : DecidablePred fun s' => RunMeets next p s' rest := fun s' => decidable s' rest
    inferInstanceAs (Decidable (p s a ∧ ∀ s' ∈ next s a, RunMeets next p s' rest))

variable {as : List α} {I : σ → Prop} {s s' : σ}

theorem mono {r : σ → α → Prop} (h : RunMeets next p s as) (himp : ∀ s a, p s a → r s a) : RunMeets next r s as := by
  induction as generalizing s with
  | nil => trivial
  | cons a rest ih => exact ⟨himp s a h.1, fun s' hs' => ih (h.2 s' hs')⟩

/-- What every step that meets the condition keeps holds at the end. -/
theorem invariant (hstep : ∀ s a s', I s → p s a → next s a = some s' → I s')
    (hmeets : RunMeets next p s as) (hrun : as.foldlM next s = some s') (h : I s) : I s' := by
  induction as generalizing s with
  | nil =>
    cases hrun
    exact h
  | cons a rest ih =>
    rw [List.foldlM_cons, Option.bind_eq_bind, Option.bind_eq_some_iff] at hrun
    obtain ⟨s₁, hnext, hrest⟩ := hrun
    exact ih (hmeets.2 s₁ hnext) hrest (hstep s a s₁ h hmeets.1 hnext)

/-- Two conditions that agree where an invariant holds, which the second one keeps, are met by the same runs. -/
theorem iff_of_invariant {r : σ → α → Prop} (hiff : ∀ s a, I s → (p s a ↔ r s a))
    (hstep : ∀ s a s', I s → r s a → next s a = some s' → I s') {s : σ} (h : I s) :
    RunMeets next p s as ↔ RunMeets next r s as := by
  induction as generalizing s with
  | nil => exact Iff.rfl
  | cons a rest ih =>
    unfold RunMeets
    rw [hiff s a h]
    exact and_congr_right fun hr => forall₂_congr fun s' hs' => ih (hstep s a s' h hr hs')

variable {next : σ → α → Except ε σ} {ε : Type}

/-- The same for steps that may panic. -/
theorem invariant_ok (hstep : ∀ s a, I s → p s a → Ensures (next s a) I)
    (hmeets : RunMeets (fun s a => (next s a).toOption) p s as) (hrun : as.foldlM next s = .ok s')
    (h : I s) : I s' := by
  induction as generalizing s with
  | nil =>
    cases hrun
    exact h
  | cons a rest ih =>
    rw [List.foldlM_cons] at hrun
    obtain ⟨s₁, hnext, hrest⟩ := bind_eq_ok.mp hrun
    refine ih (hmeets.2 s₁ ?_) hrest (hstep s a h hmeets.1 s₁ hnext)
    change (next s a).toOption = some s₁
    rw [hnext]
    rfl

/-- Steps that meet the condition and therefore do not panic. -/
theorem returns (hstep : ∀ s a, I s → p s a → Returns (next s a) I) {s : σ}
    (hmeets : RunMeets (fun s a => (next s a).toOption) p s as) (h : I s) :
    Returns (as.foldlM next s) I := by
  induction as generalizing s with
  | nil => exact .pure h
  | cons a rest ih =>
    obtain ⟨s₁, hnext, hs₁⟩ := hstep s a h hmeets.1
    rw [List.foldlM_cons, hnext]
    refine ih (hmeets.2 s₁ ?_) hs₁
    change (next s a).toOption = some s₁
    rw [hnext]
    rfl

theorem cons_ok_iff {s s₁ : σ} {a : α} (hnext : next s a = .ok s₁) (rest : List α) :
    RunMeets (fun s a => (next s a).toOption) p s (a :: rest) ↔
      p s a ∧ RunMeets (fun s a => (next s a).toOption) p s₁ rest := by
  have hsome : (next s a).toOption = some s₁ := by
    rw [hnext]
    rfl
  refine and_congr_right fun _ => ?_
  constructor
  · exact fun h => h s₁ hsome
  · intro h s' hs'
    obtain rfl : s₁ = s' := Option.some.inj (hsome.symm.trans hs')
    exact h

/-- A run ends exactly if its steps meet the condition under which a single one does. -/
theorem exists_ok_iff {q : α → Prop} (hstep : ∀ s a, I s → q a → Ensures (next s a) I)
    (hiff : ∀ s a, I s → q a → ((∃ s', next s a = .ok s') ↔ p s a)) {s : σ}
    (hq : ∀ a ∈ as, q a) (h : I s) :
    (∃ s', as.foldlM next s = .ok s') ↔ RunMeets (fun s a => (next s a).toOption) p s as := by
  induction as generalizing s with
  | nil => exact iff_of_true ⟨s, rfl⟩ trivial
  | cons a rest ih =>
    obtain ⟨ha, hrest⟩ := List.forall_mem_cons.mp hq
    rw [List.foldlM_cons]
    cases hnext : next s a with
    | error e =>
      refine iff_of_false ?_ fun hmeets => ?_
      · rintro ⟨s', hs'⟩
        cases hs'
      · obtain ⟨s₁, hs₁⟩ := (hiff s a h ha).mpr hmeets.1
        rw [hnext] at hs₁
        cases hs₁
    | ok s₁ =>
      have hp : p s a := (hiff s a h ha).mp ⟨s₁, hnext⟩
      rw [ok_bind, ih hrest (hstep s a h ha s₁ hnext), cons_ok_iff hnext]
      exact (and_iff_right hp).symm

/-- A property that a step keeps exactly if the step meets `p` holds at the end exactly if all do. -/
theorem iff_of_step {I P : σ → Prop} {q : σ → α → Prop}
    (hstep : ∀ s a, I s → q s a → Ensures (next s a) fun s' => I s' ∧ (P s' ↔ P s ∧ p s a))
    (hmeets : RunMeets (fun s a => (next s a).toOption) q s as)
    (hrun : as.foldlM next s = .ok s') (h : I s) :
    P s' ↔ P s ∧ RunMeets (fun s a => (next s a).toOption) p s as := by
  induction as generalizing s with
  | nil =>
    cases hrun
    simp [RunMeets]
  | cons a rest ih =>
    rw [List.foldlM_cons] at hrun
    obtain ⟨s₁, hnext, hrest⟩ := bind_eq_ok.mp hrun
    have hsome : (next s a).toOption = some s₁ := by
      rw [hnext]
      rfl
    obtain ⟨hs₁, hiff⟩ := hstep s a h hmeets.1 s₁ hnext
    rw [ih (hmeets.2 s₁ hsome) hrest hs₁, hiff]
    simp [RunMeets, hsome, and_assoc]

/-- Two conditions that agree on a step, as long as those before it meet them and keep an invariant, are met
by the same runs. -/
theorem congr {p q r : σ → α → Prop} (hiff : ∀ s a, I s → q s a → (p s a ↔ r s a))
    (hstep : ∀ s a, I s → q s a → r s a → Ensures (next s a) I) {s : σ}
    (hmeets : RunMeets (fun s a => (next s a).toOption) q s as) (h : I s) :
    RunMeets (fun s a => (next s a).toOption) p s as ↔ RunMeets (fun s a => (next s a).toOption) r s as := by
  induction as generalizing s with
  | nil => exact Iff.rfl
  | cons a rest ih =>
    unfold RunMeets
    rw [hiff s a h hmeets.1]
    refine and_congr_right fun hr => forall₂_congr fun s' hs' => ?_
    refine ih (hmeets.2 s' hs') (hstep s a h hmeets.1 hr s' ?_)
    cases hnext : next s a with
    | error e =>
      rw [hnext] at hs'
      cases hs'
    | ok s₁ =>
      rw [hnext] at hs'
      cases hs'
      rfl

end RunMeets
end Lib
