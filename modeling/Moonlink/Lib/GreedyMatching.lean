-- SUMMARY: Greedy assignment by a check: each demand takes the first supply that passes, out of a list that it shortens; when nobody is left over.
import Moonlink.Lib.Panics

/-!
# Greedy assignment

Each demand takes the first supply that passes its check; the last supply moves to the place
of the taken one. The greedy choice can use up what a later demand needs, unless supplies
that pass one check are alike for every other one: then supplies and demands fall into
classes, and nobody takes anything from another class.
-/

namespace Lib.Greedy

variable {ε α β δ κ : Type}

/-- The position of the first element that passes. -/
def findMatch (check : α → Except ε Bool) : List α → Except ε (Option Nat)
  | [] => .ok none
  | a :: rest => do
    if ← check a then return some 0
    else return (← findMatch check rest).map (· + 1)

/-- The last element takes the place of the removed one. -/
def swapRemove (l : List α) (idx : Nat) : List α :=
  match l.getLast? with
  | none => []
  | some last => if idx + 1 = l.length then l.dropLast else (l.set idx last).dropLast

/-- What each demand takes. -/
def assign (check : δ → α → Except ε Bool) (missing : ε) : List α → List δ → Except ε (List α)
  | _, [] => .ok []
  | as, d :: ds => do
    match ← findMatch (check d) as with
    | none => .error missing
    | some idx =>
      match as[idx]? with
      | none => .error missing
      | some a => return a :: (← assign check missing (swapRemove as idx) ds)

/-! ## Removing -/

theorem swapRemove_zero (a : α) (as : List α) (last : α) :
    swapRemove (a :: (as ++ [last])) 0 = last :: as := by
  have hlast : (a :: (as ++ [last])).getLast? = some last := by
    rw [← List.cons_append, List.getLast?_concat]
  have hlen : ¬ 0 + 1 = (a :: (as ++ [last])).length := by
    rw [List.length_cons, List.length_append, List.length_singleton]
    omega
  unfold swapRemove
  rw [hlast]
  simp only [if_neg hlen]
  rw [List.set_cons_zero, ← List.cons_append, List.dropLast_concat]

theorem exists_split_of_getElem? {l : List α} {idx : Nat} {a : α} (h : l[idx]? = some a) :
    ∃ before after, l = before ++ a :: after ∧ idx = before.length := by
  obtain ⟨hlt, rfl⟩ := List.getElem?_eq_some_iff.mp h
  refine ⟨l.take idx, l.drop (idx + 1), ?_, ?_⟩
  · rw [List.getElem_cons_drop, List.take_append_drop]
  · rw [List.length_take, Nat.min_eq_left (Nat.le_of_lt hlt)]

/-- The removed element and the rest are the list. -/
theorem swapRemove_perm {l : List α} {idx : Nat} {a : α} (h : l[idx]? = some a) :
    l.Perm (a :: swapRemove l idx) := by
  obtain ⟨hlt, hget⟩ := List.getElem?_eq_some_iff.mp h
  obtain ⟨init, last, rfl⟩ : ∃ init last, l = init ++ [last] := by
    rcases List.eq_nil_or_concat l with rfl | ⟨init, last, rfl⟩
    · exact absurd hlt (Nat.not_lt_zero _)
    · exact ⟨init, last, List.concat_eq_append⟩
  unfold swapRemove
  rw [List.getLast?_concat]
  simp only [List.length_append, List.length_singleton, Nat.add_right_cancel_iff] at hlt ⊢
  by_cases hidx : idx = init.length
  · subst hidx
    rw [if_pos rfl, List.dropLast_concat]
    rw [List.getElem?_concat_length] at h
    cases h
    exact List.perm_append_singleton _ _
  · have hinit : idx < init.length := by omega
    rw [if_neg hidx, List.set_append_left _ _ hinit, List.dropLast_concat]
    rw [List.getElem?_append_left hinit] at h
    obtain ⟨before, after, rfl, rfl⟩ : ∃ before after, init = before ++ a :: after ∧ idx = before.length :=
      exists_split_of_getElem? h
    rw [List.set_append_right _ _ (Nat.le_refl _), Nat.sub_self, List.set_cons_zero, List.append_assoc,
      List.cons_append]
    exact List.perm_middle.trans ((List.Perm.append_left before (List.perm_append_singleton last after)).cons a)

/-! ## Classes -/

theorem subperm_map (f : α → κ) {as bs : List α} (h : as.Subperm bs) : (as.map f).Subperm (bs.map f) := by
  obtain ⟨cs, hperm, hsub⟩ := h
  exact ⟨cs.map f, hperm.map f, hsub.map f⟩

/-- The first element that passes is found, if every check returns and one does. -/
theorem findMatch_returns {check : α → Except ε Bool} {p : α → Prop} {as : List α}
    (hcheck : ∀ a ∈ as, Returns (check a) fun b => b = true ↔ p a) (h : ∃ a ∈ as, p a) :
    Returns (findMatch check as) fun idx => ∃ i a, idx = some i ∧ as[i]? = some a ∧ p a := by
  induction as with
  | nil =>
    obtain ⟨a, ha, -⟩ := h
    cases ha
  | cons a rest ih =>
    obtain ⟨hfirst, hrest⟩ := List.forall_mem_cons.mp hcheck
    unfold findMatch
    refine hfirst.bind fun b hb => ?_
    cases b with
    | true => exact .pure ⟨0, a, rfl, rfl, hb.mp rfl⟩
    | false =>
      have hlater : ∃ a ∈ rest, p a := by
        obtain ⟨a', ha', hp⟩ := h
        rcases List.mem_cons.mp ha' with rfl | hmem
        · exact absurd (hb.mpr hp) Bool.false_ne_true
        · exact ⟨a', hmem, hp⟩
      refine (ih hrest hlater).bind ?_
      rintro _ ⟨i, a', rfl, hget, hp⟩
      exact .pure ⟨i + 1, a', rfl, hget, hp⟩

variable {ds : List δ}

/-- Where a check passes just inside of a class, and each class has as many supplies as demands, every
demand gets a supply of its own. -/
theorem assign_returns {check : δ → α → Except ε Bool} {missing : ε} (supply : α → κ) (demand : δ → κ)
    {as : List α}
    (hcheck : ∀ d ∈ ds, ∀ a ∈ as, Returns (check d a) fun b => b = true ↔ supply a = demand d)
    (h : (ds.map demand).Subperm (as.map supply)) :
    Returns (assign check missing as ds) fun taken => taken.length = ds.length ∧ taken.Subperm as := by
  induction ds generalizing as with
  | nil => exact .ok ⟨rfl, List.nil_subperm⟩
  | cons d ds ih =>
    obtain ⟨hfirst, hrest⟩ := List.forall_mem_cons.mp hcheck
    have hmem : demand d ∈ as.map supply := h.subset List.mem_cons_self
    unfold assign
    refine (findMatch_returns hfirst (List.mem_map.mp hmem)).bind ?_
    rintro _ ⟨idx, a, rfl, hget, ha⟩
    have hperm := swapRemove_perm hget
    -- A supply of the class of the demand is used up, as many as before are left for the others.
    have hleft : (ds.map demand).Subperm ((swapRemove as idx).map supply) := by
      have hcons := h.trans (hperm.map supply).subperm
      rw [List.map_cons, List.map_cons, ha] at hcons
      exact (List.subperm_cons _).mp hcons
    have hsub : ∀ b ∈ swapRemove as idx, b ∈ as := fun b hb => hperm.mem_iff.mpr (List.mem_cons_of_mem a hb)
    simp only [hget]
    refine (ih (fun d' hd' b hb => hrest d' hd' b (hsub b hb)) hleft).bind ?_
    rintro taken ⟨hlen, htaken⟩
    refine .pure ⟨by rw [List.length_cons, List.length_cons, hlen], ?_⟩
    exact ((List.subperm_cons a).mpr htaken).trans hperm.symm.subperm

/-- As many demands as supplies take all of them. -/
theorem perm_of_taken {taken as : List α} (h : taken.Subperm as) (hlen : as.length = taken.length) :
    taken.Perm as := h.perm_of_length_le (Nat.le_of_eq hlen)

/-! ## What is needed -/

variable {check : δ → α → Except ε Bool} {missing : ε}

/-- The first supply is checked. -/
theorem check_of_assign {d : δ} {a : α} {as : List α}
    (h : ∃ taken, assign check missing (a :: as) (d :: ds) = .ok taken) : ∃ b, check d a = .ok b := by
  obtain ⟨taken, h⟩ := h
  obtain ⟨idx, hfind, -⟩ := bind_eq_ok.mp h
  obtain ⟨b, hb, -⟩ := bind_eq_ok.mp hfind
  exact ⟨b, hb⟩

/-- Two alike supplies are there for nobody, or for the demand. -/
theorem check_alike_of_assign {d : δ} {a a' : α} (halike : check d a' = check d a)
    (h : ∃ taken, assign check missing [a, a'] (d :: ds) = .ok taken) : check d a = .ok true := by
  obtain ⟨b, hb⟩ := check_of_assign h
  cases b with
  | true => exact hb
  | false =>
    obtain ⟨taken, h⟩ := h
    have hfind : findMatch (check d) [a, a'] = .ok none := by
      simp only [findMatch, halike, hb, ok_bind, Bool.false_eq_true, if_false]
      rfl
    unfold assign at h
    rw [hfind] at h
    cases h

/-- A demand that passes at the first supply takes it, and the last supply moves to the front. -/
theorem assign_of_first {d : δ} {a last : α} (as : List α) (hcheck : check d a = .ok true)
    (h : ∃ taken, assign check missing (a :: (as ++ [last])) (d :: ds) = .ok taken) :
    ∃ taken, assign check missing (last :: as) ds = .ok taken := by
  obtain ⟨taken, h⟩ := h
  have hfind : findMatch (check d) (a :: (as ++ [last])) = .ok (some 0) := by
    simp only [findMatch, hcheck, ok_bind, if_true]
    rfl
  unfold assign at h
  rw [hfind, ok_bind] at h
  obtain ⟨rest, hrest, -⟩ := bind_eq_ok.mp h
  rw [swapRemove_zero] at hrest
  exact ⟨rest, hrest⟩

end Lib.Greedy
