-- SUMMARY: Iterators that yield finite sequences, loops over them, and merging sorted iterators with a heap.
import Mathlib.Data.List.Destutter
import Moonlink.Lib.Panics

/-!
# Sorted iterators

An iterator is a state with a function that returns the next element and the state
after it. Sorted iterators are merged with a heap of their next elements. Sorting and
heaps may leave elements of the same key in any order.
-/

namespace Lib

/-! ## Iterators -/

section Iterators

variable {ε σ α β : Type}

/-- From `s` on, `next` returns the elements one by one and then ends. -/
inductive Yields (next : σ → Except ε (Option (α × σ))) : σ → List α → Prop where
  | nil {s : σ} (h : next s = .ok none) : Yields next s []
  | cons {s s' : σ} {a : α} {as : List α} (h : next s = .ok (some (a, s')))
      (hrest : Yields next s' as) : Yields next s (a :: as)

/-- Run `body` on every element, in at most `bound` steps. -/
def forEach (next : σ → Except ε (Option (α × σ))) (body : β → α → Except ε β) (stuck : ε) :
    Nat → σ → β → Except ε β
  | 0, _, _ => .error stuck
  | bound + 1, s, b => do
    match ← next s with
    | none => return b
    | some (a, s) =>
      let b ← body b a
      forEach next body stuck bound s b

variable {next : σ → Except ε (Option (α × σ))}

/-- Two states that go on in the same way. -/
theorem Yields.of_next_eq {s s' : σ} {as : List α} (h : Yields next s' as)
    (heq : next s = next s') : Yields next s as := by
  cases h with
  | nil h => exact .nil (heq.trans h)
  | cons h hrest => exact .cons (heq.trans h) hrest

theorem Yields.forEach_eq {s : σ} {as : List α} (h : Yields next s as)
    {body : β → α → Except ε β} {stuck : ε} {bound : Nat} (hbound : as.length < bound) (b : β) :
    forEach next body stuck bound s b = as.foldlM body b := by
  induction h generalizing bound b with
  | nil h =>
    obtain ⟨bound, rfl⟩ := Nat.exists_eq_add_one_of_ne_zero (Nat.ne_of_gt hbound)
    rw [forEach, h]
    rfl
  | @cons s s' a as h hrest ih =>
    obtain ⟨bound, rfl⟩ := Nat.exists_eq_add_one_of_ne_zero (Nat.ne_of_gt (Nat.zero_lt_of_lt hbound))
    rw [forEach, h, List.foldlM_cons]
    exact congrArg (body b a >>= ·) (funext fun b' => ih (Nat.lt_of_succ_lt_succ hbound) b')

end Iterators

/-! ## Sorting -/

/-- A sort by a key that need not be stable. -/
structure UnstableSort where
  sort : {α : Type} → (α → Nat) → List α → List α
  perm : ∀ {α : Type} (key : α → Nat) (as : List α), (sort key as).Perm as
  sorted : ∀ {α : Type} (key : α → Nat) (as : List α), (sort key as).Pairwise (key · ≤ key ·)

/-- The stable sort is one. -/
def UnstableSort.stable : UnstableSort where
  sort key as := as.mergeSort fun a b => key a ≤ key b
  perm key as := List.mergeSort_perm as _
  sorted key as := by
    refine (List.pairwise_mergeSort ?_ ?_ as).imp of_decide_eq_true
    · intro a b c hab hbc
      exact decide_eq_true (Nat.le_trans (of_decide_eq_true hab) (of_decide_eq_true hbc))
    · intro a b
      rw [Bool.or_eq_true, decide_eq_true_eq, decide_eq_true_eq]
      exact Nat.le_total _ _

/-- A heap that gives out an element with the smallest key. -/
structure MinHeap where
  pop : {α : Type} → (α → Nat) → List α → Option (α × List α)
  pop_nil : ∀ {α : Type} (key : α → Nat), pop key [] = none
  pop_cons : ∀ {α : Type} (key : α → Nat) (a : α) (as : List α), ∃ b rest,
    pop key (a :: as) = some (b, rest) ∧ (b :: rest).Perm (a :: as) ∧
      ∀ c ∈ a :: as, key b ≤ key c

section Unordered

variable {α : Type}

/-- The first element with the smallest key, and the others. -/
def popMin (key : α → Nat) : List α → Option (α × List α)
  | [] => none
  | a :: as =>
    match popMin key as with
    | none => some (a, [])
    | some (b, rest) => if key a ≤ key b then some (a, as) else some (b, a :: rest)

theorem popMin_cons (key : α → Nat) (a : α) (as : List α) : ∃ b rest, popMin key (a :: as) = some (b, rest) ∧
    (b :: rest).Perm (a :: as) ∧ ∀ c ∈ a :: as, key b ≤ key c := by
  induction as generalizing a with
  | nil => exact ⟨a, [], rfl, .refl _, by simp⟩
  | cons a' as ih =>
    obtain ⟨b, rest, hpop, hperm, hle⟩ := ih a'
    rw [popMin, hpop]
    by_cases hkey : key a ≤ key b
    · refine ⟨a, a' :: as, if_pos hkey, .refl _, List.forall_mem_cons.mpr ⟨Nat.le_refl _, ?_⟩⟩
      exact fun c hc => hkey.trans (hle c hc)
    · refine ⟨b, a :: rest, if_neg hkey, (List.Perm.swap a b rest).trans (hperm.cons a), ?_⟩
      exact List.forall_mem_cons.mpr ⟨Nat.le_of_not_le hkey, hle⟩

/-- The list itself, searched for its minimum. -/
def MinHeap.unordered : MinHeap := ⟨popMin, fun _ => rfl, popMin_cons⟩

end Unordered

/-! ## Adjacent elements of one key -/

section Dedup

variable {α : Type} (key : α → Nat)

/-- Of adjacent elements with the same key only the first stays. -/
def dedupByKey (as : List α) : List α := as.destutter (key · ≠ key ·)

variable {key}

theorem dedupByKey_sublist (as : List α) : (dedupByKey key as).Sublist as :=
  List.destutter_sublist _ as

theorem dedupByKey_ne_nil {as : List α} (h : as ≠ []) : dedupByKey key as ≠ [] :=
  mt (List.destutter_eq_nil _).mp h

/-- Every key of a list is still there. -/
theorem exists_mem_dedupByKey {as : List α} {a : α} (ha : a ∈ as) :
    ∃ b ∈ dedupByKey key as, key b = key a := by
  suffices h : ∀ as (c : α), a ∈ c :: as → ∃ b ∈ as.destutter' (key · ≠ key ·) c, key b = key a by
    cases as with
    | nil => exact (List.not_mem_nil ha).elim
    | cons c as => exact h as c ha
  clear ha
  intro as
  induction as with
  | nil =>
    intro c ha
    exact ⟨c, List.mem_singleton_self c, by rw [List.mem_singleton.mp ha]⟩
  | cons d as ih =>
    intro c ha
    by_cases hne : key c ≠ key d
    · rw [List.destutter'_cons, if_pos hne]
      cases List.mem_cons.mp ha with
      | inl h => exact ⟨c, List.mem_cons_self, by rw [h]⟩
      | inr h =>
        obtain ⟨b, hb, hkey⟩ := ih d h
        exact ⟨b, List.mem_cons_of_mem _ hb, hkey⟩
    · rw [List.destutter'_cons, if_neg hne]
      rcases List.mem_cons.mp ha with h | h
      · exact ih c (h ▸ List.mem_cons_self)
      · rcases List.mem_cons.mp h with h | h
        · exact ⟨c, List.mem_destutter' _ _ c, by rw [h, of_not_not hne]⟩
        · exact ih c (List.mem_cons_of_mem _ h)

/-- The keys of a sorted list increase strictly. -/
theorem dedupByKey_strictlySorted {as : List α} (h : as.Pairwise (key · ≤ key ·)) :
    (dedupByKey key as).Pairwise (key · < key ·) := by
  have hchain : (dedupByKey key as).IsChain (key · < key ·) := by
    have hle : (dedupByKey key as).IsChain (key · ≤ key ·) := (h.sublist (dedupByKey_sublist as)).isChain
    have hne : (dedupByKey key as).IsChain (key · ≠ key ·) := List.isChain_destutter _ as
    rw [List.isChain_iff_getElem] at hle hne ⊢
    exact fun i hi => Nat.lt_of_le_of_ne (hle i hi) (hne i hi)
  have : IsTrans α (key · < key ·) := ⟨fun _ _ _ => Nat.lt_trans⟩
  exact hchain.pairwise

end Dedup

/-! ## Merging -/

section Merge

variable {ε σ α : Type}

/-- The first elements of the iterators, each with the iterator after it. -/
def mergeNew (next : σ → Except ε (Option (α × σ))) (iters : List σ) :
    Except ε (List (α × σ)) :=
  iters.foldlM (fun items iter => do
    match ← next iter with
    | none => return items
    | some item => return item :: items) []

/-- Take the smallest element, and replace it by the next one of its iterator. -/
def mergeNext (heap : MinHeap) (key : α → Nat) (next : σ → Except ε (Option (α × σ)))
    (items : List (α × σ)) : Except ε (Option (α × List (α × σ))) :=
  match heap.pop (fun item => key item.1) items with
  | none => .ok none
  | some ((a, iter), items) => do
    match ← next iter with
    | none => return some (a, items)
    | some item => return some (a, item :: items)

variable {heap : MinHeap} {key : α → Nat} {next : σ → Except ε (Option (α × σ))}

/-- The sorted list `as` is still to come from `item`. -/
inductive Pending (key : α → Nat) (next : σ → Except ε (Option (α × σ))) :
    α × σ → List α → Prop where
  | mk {a : α} {iter : σ} {as : List α} (hyields : Yields next iter as)
      (hsorted : (a :: as).Pairwise (key · ≤ key ·)) : Pending key next (a, iter) (a :: as)

/-- What the iterator of an item gives next. -/
theorem Yields.pending {iter : σ} {as : List α} (h : Yields next iter as)
    (hsorted : as.Pairwise (key · ≤ key ·)) :
    (as = [] ∧ next iter = .ok none) ∨
      ∃ item, next iter = .ok (some item) ∧ Pending key next item as := by
  cases h with
  | nil h => exact .inl ⟨rfl, h⟩
  | cons h hrest => exact .inr ⟨_, h, .mk hrest hsorted⟩

variable {ass : List (List α)}

theorem mergeNew_returns {iters : List σ} (hyields : List.Forall₂ (Yields next) iters ass)
    (hsorted : ∀ as ∈ ass, as.Pairwise (key · ≤ key ·)) :
    Returns (mergeNew next iters) fun items =>
      ∃ ass', List.Forall₂ (Pending key next) items ass' ∧ ass'.flatten.Perm ass.flatten := by
  suffices h : ∀ items₀ ass₀, List.Forall₂ (Pending key next) items₀ ass₀ →
      Returns (iters.foldlM (fun items iter => do
        match ← next iter with
        | none => return items
        | some item => return item :: items) items₀) fun items =>
      ∃ ass', List.Forall₂ (Pending key next) items ass' ∧
        ass'.flatten.Perm (ass₀.flatten ++ ass.flatten) from h [] [] .nil
  induction hyields with
  | nil =>
    intro items₀ ass₀ h
    refine .pure ⟨ass₀, h, ?_⟩
    rw [List.flatten_nil, List.append_nil]
  | @cons iter as iters ass hiter _ ih =>
    intro items₀ ass₀ h
    rw [List.foldlM_cons]
    have ih := ih fun as has => hsorted as (List.mem_cons_of_mem _ has)
    obtain ⟨rfl, hnext⟩ | ⟨item, hnext, hitem⟩ := hiter.pending (hsorted as List.mem_cons_self)
    · rw [hnext]
      exact ih items₀ ass₀ h
    · rw [hnext]
      refine (ih (item :: items₀) (as :: ass₀) (.cons hitem h)).mono ?_
      rintro items ⟨ass', hitems, hperm⟩
      refine ⟨ass', hitems, hperm.trans ?_⟩
      rw [List.flatten_cons, List.flatten_cons, ← List.append_assoc]
      exact List.perm_append_comm.append_right _

variable {items : List (α × σ)}

/-- The elements that are still to come are at least the smallest first one. -/
theorem le_of_pending {a : α}
    (h : List.Forall₂ (Pending key next) items ass) (hmin : ∀ item ∈ items, key a ≤ key item.1) :
    ∀ b ∈ ass.flatten, key a ≤ key b := by
  induction h with
  | nil => exact fun b hb => (List.not_mem_nil hb).elim
  | @cons item as items ass hitem _ ih =>
    intro b hb
    rw [List.flatten_cons] at hb
    cases List.mem_append.mp hb with
    | inr hb => exact ih (fun item hi => hmin item (List.mem_cons_of_mem _ hi)) b hb
    | inl hb =>
      obtain ⟨_, hsorted⟩ := hitem
      have hfirst := hmin _ List.mem_cons_self
      cases List.mem_cons.mp hb with
      | inl h => exact h ▸ hfirst
      | inr h => exact Nat.le_trans hfirst (List.rel_of_pairwise_cons hsorted h)

/-- One step takes the smallest element from what is still to come. -/
theorem mergeNext_step (heap : MinHeap) {item : α × σ}
    (h : List.Forall₂ (Pending key next) (item :: items) ass) :
    ∃ a items' ass', mergeNext heap key next (item :: items) = .ok (some (a, items')) ∧
      List.Forall₂ (Pending key next) items' ass' ∧ (a :: ass'.flatten).Perm ass.flatten ∧
      ∀ b ∈ ass'.flatten, key a ≤ key b := by
  obtain ⟨⟨a, iter⟩, rest, hpop, hperm, hmin⟩ := heap.pop_cons (fun item => key item.1) item items
  obtain ⟨ass', hass', hpermass⟩ := List.perm_comp_forall₂ hperm h
  have hle := le_of_pending hass' fun item hi => hmin item (hperm.mem_iff.mp hi)
  cases hass' with
  | @cons _ _ _ rest' hitem hrest =>
    obtain ⟨hyields, hsorted⟩ := hitem
    rename_i as
    have hflat := hpermass.flatten
    rw [List.flatten_cons, List.cons_append] at hflat hle
    have hle' : ∀ b ∈ as ++ rest'.flatten, key a ≤ key b :=
      fun b hb => hle b (List.mem_cons_of_mem _ hb)
    obtain ⟨rfl, hnext⟩ | ⟨item', hnext, hitem'⟩ := hyields.pending hsorted.of_cons
    · refine ⟨a, rest, rest', ?_, hrest, hflat, hle'⟩
      rw [mergeNext, hpop]
      simp only [hnext, ok_bind]
      rfl
    · refine ⟨a, item' :: rest, as :: rest', ?_, .cons hitem' hrest, hflat, hle'⟩
      rw [mergeNext, hpop]
      simp only [hnext, ok_bind]
      rfl

/-- The merged sequence has the elements of all iterators in the order of their keys. -/
theorem mergeNext_yields (h : List.Forall₂ (Pending key next) items ass) :
    ∃ as, Yields (mergeNext heap key next) items as ∧ as.Perm ass.flatten ∧
      as.Pairwise (key · ≤ key ·) := by
  generalize hn : ass.flatten.length = n
  induction n generalizing items ass with
  | zero =>
    cases h with
    | nil =>
      refine ⟨[], .nil ?_, .refl _, .nil⟩
      rw [mergeNext, heap.pop_nil]
    | cons hitem _ =>
      cases hitem
      cases hn
  | succ n ih =>
    cases h with
    | nil => cases hn
    | cons hitem hrest =>
      obtain ⟨a, items', ass', hstep, hitems', hperm, hle⟩ :=
        mergeNext_step heap (.cons hitem hrest)
      have hlen := hperm.length_eq
      obtain ⟨as, hyields, hperm', hsorted⟩ := ih hitems' (by rw [hn] at hlen; exact Nat.succ.inj hlen)
      refine ⟨a :: as, .cons hstep hyields, (hperm'.cons a).trans hperm, .cons ?_ hsorted⟩
      exact fun b hb => hle b (hperm'.mem_iff.mp hb)

/-- Merging sorted iterators. -/
theorem mergeNew_yields {iters : List σ} (hyields : List.Forall₂ (Yields next) iters ass)
    (hsorted : ∀ as ∈ ass, as.Pairwise (key · ≤ key ·)) :
    Returns (mergeNew next iters) fun items => ∃ as, Yields (mergeNext heap key next) items as ∧
      as.Perm ass.flatten ∧ as.Pairwise (key · ≤ key ·) := by
  refine (mergeNew_returns hyields hsorted).mono ?_
  rintro items ⟨ass', hitems, hperm⟩
  obtain ⟨as, has, hperm', hsorted'⟩ := mergeNext_yields hitems
  exact ⟨as, has, hperm'.trans hperm, hsorted'⟩

end Merge
end Lib
