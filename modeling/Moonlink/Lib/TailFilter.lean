-- SUMMARY: Occurrences in a list and filters that look at what follows an occurrence.
import Mathlib.Data.Nat.Bitwise

/-!
# Occurrences and tail filters

An occurrence of `a` in `l` is a split `l = pre ++ a :: post`. A tail filter
keeps an occurrence depending on the element and on what follows it, which is
how a log is read when the fate of an entry is decided by a later entry.
-/

namespace Lib

variable {α : Type}

/-- An occurrence in `l ++ [b]` is the last entry or an occurrence in `l`. -/
theorem append_singleton_split {l pre post : List α} {a b : α}
    (h : l ++ [b] = pre ++ a :: post) :
    (l = pre ∧ b = a ∧ post = []) ∨ ∃ post', post = post' ++ [b] ∧ l = pre ++ a :: post' := by
  rcases List.eq_nil_or_concat post with rfl | ⟨post', c, rfl⟩
  · left
    have := List.append_inj' h rfl
    exact ⟨this.1, by simpa using this.2, rfl⟩
  · right
    have h' : l ++ [b] = (pre ++ a :: post') ++ [c] := by simpa using h
    have := List.append_inj' h' rfl
    have hbc : b = c := by simpa using this.2
    exact ⟨post', by rw [hbc]; simp, this.1⟩

/-- An occurrence in `l₁ ++ l₂` is one in `l₁` or one in `l₂`. -/
theorem append_split {l₁ l₂ pre post : List α} {a : α} (h : l₁ ++ l₂ = pre ++ a :: post) :
    (∃ post', l₁ = pre ++ a :: post' ∧ post = post' ++ l₂) ∨
      ∃ pre', pre = l₁ ++ pre' ∧ l₂ = pre' ++ a :: post := by
  rcases List.append_eq_append_iff.mp h with ⟨mid, hpre, hl₂⟩ | ⟨mid, hl₁, hpost⟩
  · exact .inr ⟨mid, hpre, hl₂⟩
  · cases mid with
    | nil =>
      rw [List.append_nil] at hl₁
      exact .inr ⟨[], by simp [hl₁], by simpa using hpost.symm⟩
    | cons c mid =>
      obtain ⟨rfl, rfl⟩ := List.cons.inj hpost
      exact .inl ⟨mid, hl₁, rfl⟩

variable {l : List α}

/-- The images that satisfy `p` are distinct if no two occurrences share one. -/
theorem nodup_filter_map {β : Type} {f : α → β} {p : β → Bool}
    (h : ∀ pre a mid b post, l = pre ++ a :: (mid ++ b :: post) → p (f a) = true → f b ≠ f a) :
    ((l.map f).filter p).Nodup := by
  induction l with
  | nil => exact List.nodup_nil
  | cons a l ih =>
    have htail : ((l.map f).filter p).Nodup :=
      ih fun pre b mid c post hl => h (a :: pre) b mid c post (by rw [hl]; rfl)
    rw [List.map_cons]
    by_cases ha : p (f a) = true
    · rw [List.filter_cons_of_pos ha, List.nodup_cons]
      refine ⟨?_, htail⟩
      intro hmem
      obtain ⟨b, hb, hba⟩ := List.mem_map.mp (List.mem_filter.mp hmem).1
      obtain ⟨mid, post, rfl⟩ := List.append_of_mem hb
      exact h [] a mid b post rfl ha hba
    · rw [List.filter_cons_of_neg ha]
      exact htail

/-- Keep the entries on which `p` holds, where `p` also sees the rest of the list. -/
def tailFilter (p : α → List α → Bool) : List α → List α
  | [] => []
  | a :: l => if p a l then a :: tailFilter p l else tailFilter p l

@[simp] theorem tailFilter_cons (p : α → List α → Bool) (a : α) (l : List α) :
    tailFilter p (a :: l) = if p a l then a :: tailFilter p l else tailFilter p l := rfl

variable {p : α → List α → Bool}

section Count

variable [DecidableEq α]

end Count

end Lib
