-- SUMMARY: Objects in a store, and a sequence of writes applied to it in order.
import Mathlib.Data.Nat.Bitwise

namespace Lib

variable {Name Object : Type}

/-- What each name holds. -/
abbrev ObjectStore (Name Object : Type) : Type := Name → Option Object

variable [DecidableEq Name]

/-- The store after a sequence of writes. -/
def applyWrites (s : ObjectStore Name Object) (ws : List (Name × Object)) :
    ObjectStore Name Object :=
  ws.foldl (fun s w => Function.update s w.1 (some w.2)) s

@[simp] theorem applyWrites_cons (s : ObjectStore Name Object) (w : Name × Object)
    (ws : List (Name × Object)) :
    applyWrites s (w :: ws) = applyWrites (Function.update s w.1 (some w.2)) ws := rfl

theorem applyWrites_append (s : ObjectStore Name Object) (ws ws' : List (Name × Object)) :
    applyWrites s (ws ++ ws') = applyWrites (applyWrites s ws) ws' :=
  List.foldl_append

variable {s : ObjectStore Name Object} {ws : List (Name × Object)}

/-- An object stays that is only written over with itself. -/
theorem applyWrites_eq {n : Name}
    (h : ∀ w ∈ ws, w.1 = n → s n = some w.2) : applyWrites s ws n = s n := by
  induction ws generalizing s with
  | nil => rfl
  | cons w ws ih =>
    obtain ⟨hw, hws⟩ := List.forall_mem_cons.mp h
    have hupdate : Function.update s w.1 (some w.2) n = s n := by
      by_cases hn : w.1 = n
      · subst hn
        rw [Function.update_self, hw rfl]
      · exact Function.update_of_ne (Ne.symm hn) ..
    rw [applyWrites_cons, ih (by rw [hupdate]; exact hws), hupdate]

/-- An object that is not written stays. -/
theorem applyWrites_of_ne {n : Name} (h : ∀ w ∈ ws, w.1 ≠ n) : applyWrites s ws n = s n :=
  applyWrites_eq fun w hw hn => absurd hn (h w hw)

/-- The last write of an object counts. -/
theorem applyWrites_last {ws ws' : List (Name × Object)} {n : Name}
    {o : Object} (h : ∀ w ∈ ws', w.1 ≠ n) : applyWrites s (ws ++ (n, o) :: ws') n = some o := by
  rw [applyWrites_append, applyWrites_cons, applyWrites_of_ne h]
  exact Function.update_self ..

/-- An object that is there or written is there, if no write of its name differs. -/
theorem applyWrites_eq_some {n : Name}
    {o : Object} (h : s n = some o ∨ ∃ w ∈ ws, w.1 = n) (hall : ∀ w ∈ ws, w.1 = n → w.2 = o) :
    applyWrites s ws n = some o := by
  induction ws generalizing s with
  | nil =>
    rcases h with h | ⟨w, hw, -⟩
    · exact h
    · cases hw
  | cons w ws ih =>
    obtain ⟨hw, hws⟩ := List.forall_mem_cons.mp hall
    rw [applyWrites_cons]
    refine ih ?_ hws
    by_cases hn : w.1 = n
    · left
      rw [hw hn, hn]
      exact Function.update_self ..
    · rw [Function.update_of_ne (Ne.symm hn)]
      rcases h with h | ⟨w', hw', hw'n⟩
      · exact .inl h
      · rcases List.mem_cons.mp hw' with rfl | hin
        · exact absurd hw'n hn
        · exact .inr ⟨w', hin, hw'n⟩

omit [DecidableEq Name] in
/-- A crash comes before the last write, or after all of them. -/
theorem take_concat (ws : List (Name × Object)) (w : Name × Object) (k : Nat) :
    (ws ++ [w]).take k = ws.take k ∨ (ws ++ [w]).take k = ws ++ [w] := by
  rcases Nat.lt_or_ge ws.length k with hlt | hle
  · exact .inr (List.take_of_length_le (by rw [List.length_append]; exact hlt))
  · exact .inl (List.take_append_of_le_length hle)

end Lib
