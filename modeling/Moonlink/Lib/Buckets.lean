-- SUMMARY: Sorted lists cut into buckets: where each bucket starts and what it holds.
import Mathlib.Data.Fintype.EquivFin

namespace Lib.Buckets

variable {α : Type} (bucket : α → Nat)

/-- The number of elements in the buckets before `b`. -/
def start (as : List α) (b : Nat) : Nat := (as.filter (bucket · < b)).length

variable {bucket} {as : List α}

theorem start_le_length (as : List α) (b : Nat) : start bucket as b ≤ as.length :=
  List.length_filter_le ..

theorem start_mono (as : List α) {b b' : Nat} (h : b ≤ b') :
    start bucket as b ≤ start bucket as b' := by
  refine (List.monotone_filter_right as fun a ha => ?_).length_le
  exact decide_eq_true (Nat.lt_of_lt_of_le (of_decide_eq_true ha) h)

theorem start_zero (as : List α) : start bucket as 0 = 0 := by
  simp [start]

theorem start_eq_length {b : Nat} (h : ∀ a ∈ as, bucket a < b) :
    start bucket as b = as.length := by
  rw [start, List.filter_eq_self.mpr fun a ha => decide_eq_true (h a ha)]

/-- An element behind the buckets before `b` does not count. -/
theorem start_append_of_le {b : Nat} {a : α} (h : b ≤ bucket a) :
    start bucket (as ++ [a]) b = start bucket as b := by
  rw [start, List.filter_append, List.filter_singleton, decide_eq_false (Nat.not_lt.mpr h)]
  simp [start]

/-- A sorted list is the buckets before `b` and then the others. -/
theorem filter_append_filter (hsorted : as.Pairwise (bucket · ≤ bucket ·)) (b : Nat) :
    as.filter (bucket · < b) ++ as.filter (b ≤ bucket ·) = as := by
  induction as with
  | nil => rfl
  | cons a as ih =>
    obtain ⟨hle, hsorted⟩ := List.pairwise_cons.mp hsorted
    by_cases ha : bucket a < b
    · rw [List.filter_cons, List.filter_cons, if_pos (decide_eq_true ha),
        if_neg (by simpa using ha), List.cons_append, ih hsorted]
    · have hnone : (a :: as).filter (bucket · < b) = [] := by
        rw [List.filter_eq_nil_iff]
        intro c hc
        rw [decide_eq_true_eq]
        cases List.mem_cons.mp hc with
        | inl h => exact h ▸ ha
        | inr h => exact fun hlt => ha (Nat.lt_of_le_of_lt (hle c h) hlt)
      have hall : (a :: as).filter (b ≤ bucket ·) = a :: as := by
        rw [List.filter_eq_self]
        intro c hc
        refine decide_eq_true (Nat.le_of_not_lt fun hlt => ?_)
        exact List.not_mem_nil (hnone ▸ List.mem_filter.mpr ⟨hc, decide_eq_true hlt⟩)
      rw [hnone, hall, List.nil_append]

theorem drop_start (hsorted : as.Pairwise (bucket · ≤ bucket ·)) (b : Nat) :
    as.drop (start bucket as b) = as.filter (b ≤ bucket ·) := by
  conv_lhs => rw [← filter_append_filter hsorted b]
  rw [List.drop_left' (by rw [filter_append_filter hsorted b]; rfl)]

theorem take_start (hsorted : as.Pairwise (bucket · ≤ bucket ·)) (b : Nat) :
    as.take (start bucket as b) = as.filter (bucket · < b) := by
  conv_lhs => rw [← filter_append_filter hsorted b]
  rw [List.take_left' (by rw [filter_append_filter hsorted b]; rfl)]

/-- The elements of one bucket. -/
theorem take_drop_start (hsorted : as.Pairwise (bucket · ≤ bucket ·)) (b : Nat) :
    (as.drop (start bucket as b)).take (start bucket as (b + 1) - start bucket as b) =
      as.filter (bucket · = b) := by
  rw [← List.drop_take, take_start hsorted]
  have hsorted' := hsorted.filter (p := (bucket · < b + 1))
  have hstart : start bucket as b = start bucket (as.filter (bucket · < b + 1)) b := by
    rw [start, start, List.filter_filter]
    congr 1
    refine List.filter_congr fun a _ => ?_
    rw [eq_comm, Bool.and_eq_left_iff_imp]
    simp only [decide_eq_true_eq]
    omega
  rw [hstart, drop_start hsorted', List.filter_filter]
  refine List.filter_congr fun a _ => ?_
  rw [← Bool.decide_and]
  exact decide_eq_decide.mpr (by omega)

/-- The position of an element tells its bucket. -/
theorem lt_start_iff (hsorted : as.Pairwise (bucket · ≤ bucket ·)) {i : Nat} {a : α}
    (ha : as[i]? = some a) (b : Nat) : i < start bucket as b ↔ bucket a < b := by
  constructor
  · intro hi
    have hmem : a ∈ as.take (start bucket as b) :=
      List.mem_of_getElem? (i := i) (by rw [List.getElem?_take_of_lt hi, ha])
    rw [take_start hsorted, List.mem_filter] at hmem
    exact of_decide_eq_true hmem.2
  · intro hlt
    refine Nat.lt_of_not_le fun hle => ?_
    have hmem : a ∈ as.drop (start bucket as b) :=
      List.mem_of_getElem? (i := i - start bucket as b)
        (by rw [List.getElem?_drop, Nat.add_sub_cancel' hle, ha])
    rw [drop_start hsorted, List.mem_filter] at hmem
    exact Nat.not_le.mpr hlt (of_decide_eq_true hmem.2)

/-- All elements of the given buckets. -/
theorem flatMap_filter_perm (as : List α) {bs : List Nat} (hnodup : bs.Nodup) :
    (bs.flatMap fun b => as.filter (bucket · = b)).Perm (as.filter (bucket · ∈ bs)) := by
  induction bs with
  | nil => simp
  | cons b bs ih =>
    obtain ⟨hb, hnodup⟩ := List.nodup_cons.mp hnodup
    rw [List.flatMap_cons]
    refine ((ih hnodup).append_left _).trans ?_
    have hsplit := List.filter_append_perm (bucket · = b) (as.filter (bucket · ∈ b :: bs))
    rw [List.filter_filter, List.filter_filter] at hsplit
    refine (List.Perm.of_eq ?_).trans hsplit
    congr 1
    · refine List.filter_congr fun a _ => ?_
      rw [← Bool.decide_and]
      exact decide_eq_decide.mpr ⟨fun h => ⟨h, h ▸ List.mem_cons_self⟩, And.left⟩
    · refine List.filter_congr fun a _ => ?_
      rw [← decide_not, ← Bool.decide_and]
      refine decide_eq_decide.mpr ⟨fun h => ⟨fun heq => hb (heq ▸ h), List.mem_cons_of_mem _ h⟩, ?_⟩
      rintro ⟨hne, hmem⟩
      exact (List.mem_cons.mp hmem).resolve_left hne

end Lib.Buckets
