-- SUMMARY: Finite maps as association lists: filtering, mapping and joining the values, and how lookups read through it.
import Mathlib.Algebra.Order.BigOperators.Group.List
import Mathlib.Data.Fintype.EquivFin
import Mathlib.Data.Nat.Bitwise
import Mathlib.Data.List.AList

/-!
# Finite maps

Maps with decidable keys are Mathlib's association lists at a constant family.
Mathlib has lookup, insertion and erasure. What is added here is `retain`, the
filter of a map by a predicate on its entries, `mapValues`, and `flatMapValues`,
which collects a list from every value.
-/

namespace Lib

/-- Finite maps from `α` to `β`. -/
abbrev AssocMap (α β : Type) : Type := AList (fun _ : α => β)

namespace AssocMap

variable {α β : Type} [DecidableEq α]

/-- The values of a map, in the order of its entries. -/
def values (m : AssocMap α β) : List β := m.entries.map (·.2)

/-- Keep the entries on which `p` holds. -/
def retain (p : α → β → Bool) (m : AssocMap α β) : AssocMap α β where
  entries := m.entries.filter fun e => p e.1 e.2
  nodupKeys := m.nodupKeys.sublist List.filter_sublist

variable {m : AssocMap α β} {a : α}

theorem lookup_eq_some_iff {b : β} :
    m.lookup a = some b ↔ (⟨a, b⟩ : Sigma fun _ : α => β) ∈ m.entries := by
  rw [← AList.mem_lookup_iff, Option.mem_def]

theorem lookup_retain_eq_some_iff {p : α → β → Bool} {b : β} :
    (m.retain p).lookup a = some b ↔ m.lookup a = some b ∧ p a b = true := by
  simp only [lookup_eq_some_iff, retain, List.mem_filter]

theorem mem_values_iff {b : β} :
    b ∈ m.values ↔ ∃ a, m.lookup a = some b := by
  simp only [values, List.mem_map, lookup_eq_some_iff]
  constructor
  · rintro ⟨⟨a, b'⟩, hmem, rfl⟩
    exact ⟨a, hmem⟩
  · rintro ⟨a, hmem⟩
    exact ⟨⟨a, b⟩, hmem, rfl⟩

theorem lookup_insert_ite (m : AssocMap α β) (a a' : α) (b : β) :
    (m.insert a b).lookup a' = if a' = a then some b else m.lookup a' := by
  split
  · rename_i h
    rw [h, AList.lookup_insert]
  · rename_i h
    exact AList.lookup_insert_ne h

theorem lookup_erase_ite (m : AssocMap α β) (a a' : α) :
    (m.erase a).lookup a' = if a' = a then none else m.lookup a' := by
  split
  · rename_i h
    rw [h, AList.lookup_erase]
  · rename_i h
    exact AList.lookup_erase_ne h

theorem erase_of_none (h : m.lookup a = none) : m.erase a = m := by
  refine AList.ext (List.kerase_of_notMem_keys fun hmem => ?_)
  rw [← List.dlookup_isSome] at hmem
  change (m.lookup a).isSome = true at hmem
  rw [h] at hmem
  cases hmem

theorem erase_insert (m : AssocMap α β) (a : α) (b : β) : (m.insert a b).erase a = m.erase a := by
  refine AList.ext ?_
  change ((m.insert a b).entries).kerase a = m.entries.kerase a
  rw [AList.entries_insert]
  exact List.kerase_cons_eq rfl

theorem kerase_eq_filter {l : List (Sigma fun _ : α => β)} (h : l.NodupKeys) (a : α) :
    l.kerase a = l.filter (·.1 ≠ a) := by
  induction l with
  | nil => rfl
  | cons e l ih =>
    obtain ⟨hnot, hnodup⟩ := List.nodupKeys_cons.mp h
    by_cases ha : a = e.1
    · have hall : ∀ e' ∈ l, decide (e'.1 ≠ a) = true := fun e' he' =>
        decide_eq_true fun heq => hnot (ha ▸ heq ▸ List.mem_map_of_mem he')
      rw [List.kerase_cons_eq ha, List.filter_cons_of_neg (by simpa using ha.symm),
        List.filter_eq_self.mpr hall]
    · rw [List.kerase_cons_ne ha, List.filter_cons_of_pos (by simpa using Ne.symm ha), ih hnodup]

/-- The values of the other keys, where the values say which keys those are. -/
theorem values_erase {q : β → Bool}
    (hq : ∀ e ∈ m.entries, q e.2 = decide (e.1 ≠ a)) : values (m.erase a) = m.values.filter q := by
  change (m.entries.kerase a).map _ = (m.entries.map _).filter q
  rw [kerase_eq_filter m.nodupKeys, List.filter_map]
  exact congrArg _ (List.filter_congr fun e he => (hq e he).symm)

/-! ## Joining -/

theorem lookup_foldl_insert (m m' : AssocMap α β) (a : α) :
    (m'.entries.foldl (fun m e => m.insert e.1 e.2) m).lookup a = (m'.lookup a).or (m.lookup a) := by
  change _ = (m'.entries.dlookup a).or _
  have hnodup := m'.nodupKeys
  generalize m'.entries = l at hnodup ⊢
  induction l generalizing m with
  | nil => rfl
  | cons e l ih =>
    obtain ⟨hnot, hnodup⟩ := List.nodupKeys_cons.mp hnodup
    rw [List.foldl_cons, ih _ hnodup, lookup_insert_ite]
    by_cases ha : a = e.1
    · subst ha
      rw [List.dlookup_eq_none.mpr hnot, List.dlookup_cons_eq]
      simp
    · rw [if_neg ha, List.dlookup_cons_ne _ _ ha]

/-! ## Mapping the values -/

/-- Apply `f` to every value. -/
def mapValues {γ : Type} (f : β → γ) (m : AssocMap α β) : AssocMap α γ where
  entries := m.entries.map fun e => ⟨e.1, f e.2⟩
  nodupKeys := by
    have hkeys : (m.entries.map fun e => (⟨e.1, f e.2⟩ : Sigma fun _ : α => γ)).keys = m.entries.keys := by
      simp [List.keys, Function.comp_def]
    unfold List.NodupKeys
    rw [hkeys]
    exact m.nodupKeys

omit [DecidableEq α] in
theorem keys_mapValues {γ : Type} (f : β → γ) (m : AssocMap α β) : (mapValues f m).keys = m.keys := by
  simp [AList.keys, List.keys, mapValues, Function.comp_def]

theorem lookup_mapValues {γ : Type} (f : β → γ) (m : AssocMap α β) (a : α) :
    (mapValues f m).lookup a = (m.lookup a).map f := by
  cases h : m.lookup a with
  | some b =>
    rw [lookup_eq_some_iff] at h
    exact lookup_eq_some_iff.mpr (List.mem_map.mpr ⟨_, h, rfl⟩)
  | none =>
    cases h' : (mapValues f m).lookup a with
    | none => rfl
    | some c =>
      obtain ⟨⟨a', b⟩, hmem, heq⟩ := List.mem_map.mp (lookup_eq_some_iff.mp h')
      cases heq
      rw [lookup_eq_some_iff.mpr hmem] at h
      cases h

/-! ## Collecting from all values -/

variable {γ : Type}

/-- What `f` gives for each value, joined. -/
def flatMapValues (f : β → List γ) (m : AssocMap α β) : List γ := m.values.flatMap f

theorem entries_erase (m : AssocMap α β) (a : α) : (m.erase a).entries = m.entries.kerase a := rfl

theorem flatMapValues_insert (f : β → List γ) (m : AssocMap α β) (a : α) (b : β) :
    flatMapValues f (m.insert a b) = f b ++ flatMapValues f (m.erase a) := by
  simp [flatMapValues, values, entries_erase, AList.entries_insert]

theorem flatMapValues_erase (f : β → List γ) {b : β} (h : m.lookup a = some b) :
    (flatMapValues f m).Perm (f b ++ flatMapValues f (m.erase a)) := by
  have hmem : a ∈ m.entries.keys := List.dlookup_isSome.mp (by
    change (m.lookup a).isSome = true
    rw [h]
    rfl)
  obtain ⟨b', l₁, l₂, -, heq, herase⟩ := List.exists_of_kerase hmem
  have hb' : m.lookup a = some b' := lookup_eq_some_iff.mpr (by rw [heq]; simp)
  rw [h] at hb'
  cases hb'
  simp only [flatMapValues, values, entries_erase, herase]
  rw [heq]
  simp only [List.map_append, List.map_cons, List.flatMap_append, List.flatMap_cons]
  exact List.perm_append_comm_assoc _ _ _

theorem flatMapValues_erase_of_none (f : β → List γ)
    (h : m.lookup a = none) : flatMapValues f (m.erase a) = flatMapValues f m := by
  have hnot : a ∉ m.entries.keys := by
    rw [← List.dlookup_isSome]
    change ¬ (m.lookup a).isSome = true
    rw [h]
    simp
  simp only [flatMapValues, values, entries_erase]
  rw [List.kerase_of_notMem_keys hnot]

/-- What is collected from the value of one key, and from the others. -/
theorem count_flatMapValues [DecidableEq γ] (f : β → List γ) (m : AssocMap α β) (a : α) (c : γ) :
    (flatMapValues f m).count c =
      (((m.lookup a).map f).getD []).count c + (flatMapValues f (m.erase a)).count c := by
  cases hlook : m.lookup a with
  | none =>
    rw [flatMapValues_erase_of_none f hlook]
    simp
  | some b =>
    rw [(flatMapValues_erase f hlook).count_eq, List.count_append]
    rfl

end AssocMap
end Lib
