-- SUMMARY: Lists of entries filed under increasing segment numbers: contents of a segment and reading segments in order.
import Mathlib.Data.List.Range

namespace Lib

variable {β : Type}

/-- The entries of segment `n`, in log order. -/
def contents (log : List (Nat × β)) (n : Nat) : List β :=
  (log.filter fun p => p.1 = n).map (·.2)

/-- Segment numbers never decrease along the log. -/
def Segmented (log : List (Nat × β)) : Prop :=
  log.Pairwise fun p q => p.1 ≤ q.1

theorem contents_append (l₁ l₂ : List (Nat × β)) (n : Nat) :
    contents (l₁ ++ l₂) n = contents l₁ n ++ contents l₂ n := by
  simp [contents]

variable {log : List (Nat × β)}

theorem mem_contents {n : Nat} {e : β} :
    e ∈ contents log n ↔ (n, e) ∈ log := by
  simp [contents]

/-- A segment that no entry is filed under is empty. -/
theorem contents_eq_nil {n : Nat} (h : ∀ p ∈ log, p.1 ≠ n) :
    contents log n = [] := by
  simp only [contents, List.map_eq_nil_iff, List.filter_eq_nil_iff, decide_eq_true_eq]
  exact h

theorem contents_eq_nil_iff {n : Nat} :
    contents log n = [] ↔ ∀ p ∈ log, p.1 ≠ n := by
  simp [contents, List.filter_eq_nil_iff]

/-- Entries filed under other segments do not matter. -/
theorem contents_append_of_ne {l₁ l₂ : List (Nat × β)} {n : Nat} (h : ∀ p ∈ l₂, p.1 ≠ n) :
    contents (l₁ ++ l₂) n = contents l₁ n := by
  rw [contents_append, contents_eq_nil h, List.append_nil]

/-- In a segmented log, the entries below `c` come right before those of segment `c`. -/
theorem filter_lt_append_filter_eq (hlog : Segmented log) (a c : Nat) (hac : a ≤ c) :
    (log.filter fun p => a ≤ p.1 ∧ p.1 < c) ++ (log.filter fun p => p.1 = c) =
      log.filter fun p => a ≤ p.1 ∧ p.1 < c + 1 := by
  induction log with
  | nil => rfl
  | cons p log ih =>
    have hle : ∀ q ∈ log, p.1 ≤ q.1 := (List.pairwise_cons.mp hlog).1
    have ih' := ih (List.pairwise_cons.mp hlog).2
    rcases Nat.lt_trichotomy p.1 c with hlt | heq | hgt
    · by_cases hap : a ≤ p.1
      · have hlt' : p.1 < c + 1 := Nat.lt_succ_of_lt hlt
        have hne : p.1 ≠ c := Nat.ne_of_lt hlt
        rw [List.filter_cons_of_pos (by simp only [hap, hlt, and_self, decide_true]),
          List.filter_cons_of_neg (by simp only [hne, decide_false, Bool.not_eq_true]),
          List.filter_cons_of_pos (by simp only [hap, hlt', and_self, decide_true]),
          List.cons_append, ih']
      · have hne : p.1 ≠ c := Nat.ne_of_lt hlt
        rw [List.filter_cons_of_neg (by simp only [hap, false_and, decide_false, Bool.not_eq_true]),
          List.filter_cons_of_neg (by simp only [hne, decide_false, Bool.not_eq_true]),
          List.filter_cons_of_neg (by simp only [hap, false_and, decide_false, Bool.not_eq_true]), ih']
    · have hnil : (log.filter fun q => a ≤ q.1 ∧ q.1 < c) = [] := by
        rw [List.filter_eq_nil_iff]
        intro q hq
        have := hle q hq
        simp only [decide_eq_true_eq]
        omega
      subst heq
      rw [List.filter_cons_of_neg (by simp), List.filter_cons_of_pos (by simp),
        List.filter_cons_of_pos (by simp [hac]), hnil, ← ih', hnil]
      rfl
    · have hlt : ¬ p.1 < c := by omega
      have hne : p.1 ≠ c := by omega
      have hlt' : ¬ p.1 < c + 1 := by omega
      rw [List.filter_cons_of_neg (by simp only [hlt, and_false, decide_false, Bool.not_eq_true]),
        List.filter_cons_of_neg (by simp only [hne, decide_false, Bool.not_eq_true]),
        List.filter_cons_of_neg (by simp only [hlt', and_false, decide_false, Bool.not_eq_true]), ih']

/-- A segmented log is cut in two at any segment number. -/
theorem filter_lt_append_filter_le (hlog : Segmented log) (a : Nat) :
    (log.filter fun p => p.1 < a) ++ (log.filter fun p => a ≤ p.1) = log := by
  induction log with
  | nil => rfl
  | cons p log ih =>
    have hle : ∀ q ∈ log, p.1 ≤ q.1 := (List.pairwise_cons.mp hlog).1
    by_cases hlt : p.1 < a
    · rw [List.filter_cons_of_pos (by simp [hlt]), List.filter_cons_of_neg (by simp [hlt]),
        List.cons_append, ih (List.pairwise_cons.mp hlog).2]
    · have hnil : (p :: log).filter (fun q => q.1 < a) = [] := by
        rw [List.filter_eq_nil_iff]
        intro q hq
        simp only [decide_eq_true_eq, Nat.not_lt]
        rcases List.mem_cons.mp hq with rfl | hq
        · omega
        · have := hle q hq
          omega
      rw [hnil, List.nil_append, List.filter_eq_self]
      intro q hq
      simp only [decide_eq_true_eq]
      rcases List.mem_cons.mp hq with rfl | hq
      · omega
      · have := hle q hq
        omega

/-- Reading the segments `a`, …, `a + k - 1` in order gives their entries in log order. -/
theorem flatMap_contents (hlog : Segmented log) (a k : Nat) :
    (List.range' a k).flatMap (contents log) =
      (log.filter fun p => a ≤ p.1 ∧ p.1 < a + k).map (·.2) := by
  induction k with
  | zero =>
    have hnil : (log.filter fun p => a ≤ p.1 ∧ p.1 < a + 0) = [] := by
      rw [List.filter_eq_nil_iff]
      intro p _
      simp only [decide_eq_true_eq]
      omega
    rw [hnil]
    rfl
  | succ k ih =>
    rw [List.range'_1_concat, List.flatMap_append, ih, List.flatMap_singleton]
    unfold contents
    rw [← List.map_append, filter_lt_append_filter_eq hlog a (a + k) (Nat.le_add_right a k)]
    rfl

end Lib
