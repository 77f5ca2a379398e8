-- SUMMARY: Batches of which each is taken up to its first failure: when the parts taken are a prefix of the whole.
import Mathlib.Data.List.TakeWhile

namespace Lib

variable {α : Type} {p : α → Bool}

/-- After the first batch with a failing element, every batch begins with one. -/
def EndsAtFailure (p : α → Bool) : List (List α) → Prop
  | [] => True
  | b :: rest => if b.all p then EndsAtFailure p rest else ∀ b' ∈ rest, b'.takeWhile p = []

instance EndsAtFailure.decidable [DecidableEq α] : (bs : List (List α)) → Decidable (EndsAtFailure p bs)
  | [] => isTrue trivial
  | b :: rest =>
    have := decidable rest
    inferInstanceAs (Decidable (if b.all p then EndsAtFailure p rest else ∀ b' ∈ rest, b'.takeWhile p = []))

theorem exists_failure {b : List α} (h : b.all p = false) :
    ∃ x rest, b = b.takeWhile p ++ x :: rest ∧ p x = false := by
  induction b with
  | nil => cases h
  | cons a rest ih =>
    cases ha : p a with
    | false => exact ⟨a, rest, by simp [ha], ha⟩
    | true =>
      obtain ⟨x, rest', heq, hx⟩ := ih (by simpa [ha] using h)
      exact ⟨x, rest', by rw [List.takeWhile_cons_of_pos ha, List.cons_append, ← heq], hx⟩

theorem all_takeWhile (bs : List (List α)) : ∀ a ∈ bs.flatMap (List.takeWhile p), p a = true := by
  intro a ha
  obtain ⟨b, -, hb⟩ := List.mem_flatMap.mp ha
  exact List.mem_takeWhile_imp hb

/-- The last batch may be cut earlier, as long as something is taken from it. -/
theorem takeWhile_prefix_iff {b d : List α} (hd : d <+: b.takeWhile p) (hnil : d = [] → b.takeWhile p = [])
    (bs : List (List α)) :
    bs.flatMap (List.takeWhile p) ++ d <+: (bs ++ [b]).flatten ↔ EndsAtFailure p (bs ++ [b]) := by
  induction bs with
  | nil =>
    have hpre : d <+: b := hd.trans (List.takeWhile_prefix p)
    simp [EndsAtFailure, hpre]
  | cons a bs ih =>
    rw [List.flatMap_cons, List.cons_append, List.flatten_cons, List.append_assoc]
    cases hall : a.all p with
    | true =>
      have htake : a.takeWhile p = a := List.takeWhile_eq_self_iff.mpr (List.all_eq_true.mp hall)
      rw [htake, List.prefix_append_right_inj, ih]
      simp [EndsAtFailure, hall]
    | false =>
      obtain ⟨x, rest, heq, hx⟩ := exists_failure hall
      have hends : EndsAtFailure p (a :: (bs ++ [b])) ↔ ∀ b' ∈ bs ++ [b], b'.takeWhile p = [] := by
        simp [EndsAtFailure, hall]
      rw [hends]
      rw [show a ++ (bs ++ [b]).flatten = a.takeWhile p ++ (x :: rest ++ (bs ++ [b]).flatten) by
        rw [← List.append_assoc, ← heq], List.prefix_append_right_inj]
      constructor
      · intro hpre
        -- The next element that was taken would be the failing one.
        have htaken : bs.flatMap (List.takeWhile p) ++ d = [] := by
          cases htaken : bs.flatMap (List.takeWhile p) ++ d with
          | nil => rfl
          | cons y ys =>
            rw [htaken] at hpre
            have hy : y = x := (List.cons_prefix_cons.mp hpre).1
            have hmem : y ∈ bs.flatMap (List.takeWhile p) ++ d := htaken ▸ List.mem_cons_self
            have htrue : p y = true := by
              rcases List.mem_append.mp hmem with hmem | hmem
              · exact all_takeWhile bs y hmem
              · exact List.mem_takeWhile_imp (hd.subset hmem)
            rw [hy, hx] at htrue
            cases htrue
        obtain ⟨hbs, hd⟩ := List.append_eq_nil_iff.mp htaken
        intro b' hb'
        rcases List.mem_append.mp hb' with hb' | hb'
        · exact List.flatMap_eq_nil_iff.mp hbs b' hb'
        · rw [List.mem_singleton.mp hb']
          exact hnil hd
      · intro hnone
        have hbs : bs.flatMap (List.takeWhile p) = [] :=
          List.flatMap_eq_nil_iff.mpr fun b' hb' => hnone b' (List.mem_append_left _ hb')
        have hd' : d = [] := by
          rw [hnone b (by simp)] at hd
          exact List.prefix_nil.mp hd
        rw [hbs, hd']
        exact List.nil_prefix

end Lib
