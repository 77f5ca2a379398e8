-- SUMMARY: Maps that collect one value for each key: entries are combined with the value that is there, and the map is the fold of each key's entries.
import Moonlink.Lib.AssocMap

namespace Lib.Grouping

variable {κ α β : Type} [DecidableEq κ] {f : β → β → β}

/-- `m.entry(k).and_modify(|e| *e = f(e, b)).or_insert(b)`. -/
def combine (f : β → β → β) (m : AssocMap κ β) (k : κ) (b : β) : AssocMap κ β :=
  m.insert k (match m.lookup k with
    | some e => f e b
    | none => b)

/-- The values of a key, in the order of the entries. -/
def valuesOf (k : κ) (entries : List (κ × β)) : List β := entries.filterMap fun e => if e.1 = k then some e.2 else none

/-- What `combine` makes of the values of one key. -/
def foldValues (f : β → β → β) : List β → Option β
  | [] => none
  | b :: bs => some (bs.foldl f b)

theorem foldValues_concat (bs : List β) (b : β) :
    foldValues f (bs ++ [b]) = some (match foldValues f bs with
      | some e => f e b
      | none => b) := by
  cases bs with
  | nil => rfl
  | cons c bs => exact congrArg some (List.foldl_concat f c b bs)

@[simp] theorem valuesOf_nil (k : κ) : valuesOf k ([] : List (κ × β)) = [] := rfl

theorem valuesOf_append (k : κ) (es es' : List (κ × β)) : valuesOf k (es ++ es') = valuesOf k es ++ valuesOf k es' :=
  List.filterMap_append

@[simp] theorem valuesOf_self (k : κ) (b : β) : valuesOf k [(k, b)] = [b] := by simp [valuesOf]

theorem valuesOf_ne {k k' : κ} (h : k' ≠ k) (b : β) : valuesOf k [(k', b)] = [] := by simp [valuesOf, h]

/-- What an element contributes to the map of its key. -/
def entriesBy (key : α → Option κ) (g : κ → α → Option β) (a : α) : List (κ × β) :=
  match key a with
  | none => []
  | some k => ((g k a).map fun b => (k, b)).toList

section
variable {key : α → Option κ} {g : κ → α → Option β} {a : α}

omit [DecidableEq κ] in
theorem entriesBy_none (h : key a = none) : entriesBy key g a = [] := by rw [entriesBy, h]

omit [DecidableEq κ] in
theorem entriesBy_some {k : κ} (h : key a = some k) :
    entriesBy key g a = ((g k a).map fun b => (k, b)).toList := by rw [entriesBy, h]

end

theorem valuesOf_entriesBy (key : α → Option κ) (g : κ → α → Option β) (k : κ) (as : List α) :
    valuesOf k (as.flatMap (entriesBy key g)) = (as.filter fun a => key a = some k).filterMap (g k) := by
  induction as with
  | nil => rfl
  | cons a as ih =>
    rw [List.flatMap_cons, valuesOf_append, ih]
    cases hkey : key a with
    | none => simp [entriesBy_none hkey, hkey]
    | some k' =>
      rw [entriesBy_some hkey]
      by_cases heq : k' = k
      · subst heq
        cases hg : g k' a <;> simp [hkey, hg]
      · cases g k' a <;> simp [hkey, heq, valuesOf_ne heq]

/-- The map holds the fold of the entries of each key. -/
def Groups (f : β → β → β) (m : AssocMap κ β) (entries : List (κ × β)) : Prop :=
  ∀ k, m.lookup k = foldValues f (valuesOf k entries)

namespace Groups

variable {m : AssocMap κ β} {entries : List (κ × β)}

theorem empty : Groups f (∅ : AssocMap κ β) [] := fun _ => AList.lookup_empty _

theorem combine (h : Groups f m entries) (k : κ) (b : β) :
    Groups f (combine f m k b) (entries ++ [(k, b)]) := by
  intro k'
  rw [Grouping.combine, AssocMap.lookup_insert_ite, valuesOf_append]
  by_cases hk : k' = k
  · subst hk
    rw [if_pos rfl, valuesOf_self, foldValues_concat, h k']
  · rw [if_neg hk, valuesOf_ne (Ne.symm hk), List.append_nil, h k']

/-- An entry that is only there in some cases. -/
theorem combineAll (h : Groups f m entries) (new : List (κ × β)) :
    Groups f (new.foldl (fun m e => Grouping.combine f m e.1 e.2) m) (entries ++ new) := by
  induction new generalizing m entries with
  | nil =>
    rw [List.append_nil]
    exact h
  | cons e new ih =>
    have hnext := ih (h.combine e.1 e.2)
    rwa [List.append_assoc] at hnext

end Groups

/-! ## Folds of one key -/

theorem foldValues_add (ns : List Nat) : foldValues (· + ·) ns = if ns = [] then none else some ns.sum := by
  cases ns with
  | nil => rfl
  | cons n ns =>
    rw [if_neg (List.cons_ne_nil n ns), List.sum_cons, foldValues]
    congr 1
    induction ns generalizing n with
    | nil => rfl
    | cons m ns ih => rw [List.foldl_cons, ih, List.sum_cons, Nat.add_assoc]

/-- The last one wins. -/
theorem foldValues_overwrite (bs : List β) : foldValues (fun _ b => b) bs = bs.getLast? := by
  induction bs using List.reverseRecOn with
  | nil => rfl
  | append_singleton bs b =>
    rw [foldValues_concat, List.getLast?_concat]
    cases foldValues (fun _ b => b) bs <;> rfl

/-- What the next value replaces if it is beyond it: none of the values is beyond the fold. -/
theorem foldValues_extreme {r : β → β → Prop} [DecidableRel r] [IsStrictTotalOrder β r] {bs : List β} {e : β}
    (h : foldValues (fun e b => if r e b then b else e) bs = some e) : e ∈ bs ∧ ∀ b ∈ bs, ¬ r e b := by
  induction bs using List.reverseRecOn generalizing e with
  | nil => cases h
  | append_singleton bs b ih =>
    rw [foldValues_concat] at h
    cases hfold : foldValues (fun e b => if r e b then b else e) bs with
    | none =>
      have hnil : bs = [] := by
        cases bs with
        | nil => rfl
        | cons c bs => cases hfold
      rw [hfold] at h
      cases h
      subst hnil
      exact ⟨by simp, by simpa using irrefl_of r b⟩
    | some d =>
      obtain ⟨hmem, hall⟩ := ih hfold
      rw [hfold] at h
      by_cases hbeyond : r d b
      · simp only [if_pos hbeyond, Option.some.injEq] at h
        subst h
        refine ⟨by simp, fun c hc => ?_⟩
        rcases List.mem_append.mp hc with hold | hlast
        · exact fun hr => hall c hold (trans_of r hbeyond hr)
        · rw [List.mem_singleton.mp hlast]
          exact irrefl_of r b
      · simp only [if_neg hbeyond, Option.some.injEq] at h
        subst h
        refine ⟨List.mem_append_left _ hmem, fun c hc => ?_⟩
        rcases List.mem_append.mp hc with hold | hlast
        · exact hall c hold
        · rw [List.mem_singleton.mp hlast]
          exact hbeyond

theorem foldValues_add_eq_some {ns : List Nat} {n : Nat} (h : foldValues (· + ·) ns = some n) : n = ns.sum := by
  rw [foldValues_add] at h
  split at h
  · cases h
  · exact (Option.some.inj h).symm

theorem foldValues_isSome {bs : List β} {b : β} (h : b ∈ bs) : ∃ e, foldValues f bs = some e := by
  cases bs with
  | nil => cases h
  | cons c bs => exact ⟨_, rfl⟩

end Lib.Grouping
