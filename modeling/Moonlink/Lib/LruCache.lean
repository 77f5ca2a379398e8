-- SUMMARY: Maps ordered by last use: lookup, removal, insertion as the most recently used entry, and removal of the least recently used one.
import Mathlib.Data.Fintype.EquivFin

namespace Lib

/-- A map from `α` to `β`, the least recently used entry first. -/
structure LruCache (α β : Type) where
  entries : List (α × β)
  nodup : (entries.map Prod.fst).Nodup
  deriving DecidableEq

namespace LruCache

variable {α β : Type}

def empty : LruCache α β := ⟨[], List.nodup_nil⟩

/-- Remove the least recently used entry. -/
def popLru (m : LruCache α β) : Option ((α × β) × LruCache α β) :=
  match m with
  | ⟨[], _⟩ => none
  | ⟨e :: rest, h⟩ => some (e, ⟨rest, (List.nodup_cons.mp h).2⟩)

def values (m : LruCache α β) : List β := m.entries.map Prod.snd

variable [DecidableEq α]

def lookup (m : LruCache α β) (a : α) : Option β := (m.entries.find? (·.1 = a)).map Prod.snd

def erase (m : LruCache α β) (a : α) : LruCache α β :=
  ⟨m.entries.filter (·.1 ≠ a), m.nodup.sublist (List.filter_sublist.map _)⟩

/-- Insert an entry, or replace it, as the most recently used one. -/
def push (m : LruCache α β) (a : α) (b : β) : LruCache α β where
  entries := (m.erase a).entries ++ [(a, b)]
  nodup := by
    rw [List.map_append, List.nodup_append]
    refine ⟨(m.erase a).nodup, List.nodup_singleton _, ?_⟩
    rintro x hx y hy
    obtain ⟨e, he, rfl⟩ := List.mem_map.mp hx
    obtain rfl : y = a := by simpa using hy
    simpa using (List.mem_filter.mp he).2

/-! ## Lookups -/

variable {m : LruCache α β} {a : α}

theorem lookup_eq_some_iff {b : β} :
    m.lookup a = some b ↔ (a, b) ∈ m.entries := by
  unfold lookup
  rw [Option.map_eq_some_iff]
  constructor
  · rintro ⟨⟨a', b'⟩, hfind, rfl⟩
    have ha : a' = a := by simpa using List.find?_some hfind
    subst ha
    exact List.mem_of_find?_eq_some hfind
  · intro hmem
    cases hfind : m.entries.find? (·.1 = a) with
    | none => simpa using List.find?_eq_none.mp hfind _ hmem
    | some e =>
      have ha : e.1 = a := by simpa using List.find?_some hfind
      refine ⟨e, rfl, ?_⟩
      exact congrArg Prod.snd
        (List.inj_on_of_nodup_map m.nodup (List.mem_of_find?_eq_some hfind) hmem ha)

theorem lookup_eq_none_iff :
    m.lookup a = none ↔ ∀ b, (a, b) ∉ m.entries := by
  constructor
  · intro hnone b hmem
    rw [lookup_eq_some_iff.mpr hmem] at hnone
    cases hnone
  · intro hnot
    cases hlook : m.lookup a with
    | none => rfl
    | some b => exact absurd (lookup_eq_some_iff.mp hlook) (hnot b)

theorem lookup_erase (m : LruCache α β) (a a' : α) :
    (m.erase a).lookup a' = if a' = a then none else m.lookup a' := by
  split
  · rename_i heq
    subst heq
    exact lookup_eq_none_iff.mpr fun b hmem => by simpa using (List.mem_filter.mp hmem).2
  · rename_i hne
    refine Option.ext fun b => ?_
    rw [lookup_eq_some_iff, lookup_eq_some_iff]
    simp [erase, hne]

theorem lookup_push (m : LruCache α β) (a a' : α) (b : β) :
    (m.push a b).lookup a' = if a' = a then some b else m.lookup a' := by
  split
  · rename_i heq
    subst heq
    exact lookup_eq_some_iff.mpr (by simp [push])
  · rename_i hne
    refine Option.ext fun b' => ?_
    rw [lookup_eq_some_iff, lookup_eq_some_iff]
    simp [push, erase, hne]

/-! ## Values -/

theorem values_push (m : LruCache α β) (a : α) (b : β) :
    (m.push a b).values.Perm (b :: (m.erase a).values) := by
  unfold values push
  rw [List.map_append]
  exact List.perm_append_singleton _ _

theorem erase_of_none (h : m.lookup a = none) : m.erase a = m := by
  obtain ⟨entries, hnodup⟩ := m
  unfold erase
  congr
  refine List.filter_eq_self.mpr fun e he => decide_eq_true ?_
  rintro rfl
  exact lookup_eq_none_iff.mp h e.2 he

theorem values_erase {b : β} (h : m.lookup a = some b) :
    m.values.Perm (b :: (m.erase a).values) := by
  have hmem := lookup_eq_some_iff.mp h
  have hperm : m.entries.Perm ((a, b) :: (m.erase a).entries) := by
    refine (List.perm_ext_iff_of_nodup (List.Nodup.of_map _ m.nodup) ?_).mpr ?_
    · refine List.nodup_cons.mpr ⟨fun h => by simpa using (List.mem_filter.mp h).2, ?_⟩
      exact (List.Nodup.of_map _ m.nodup).filter _
    · rintro ⟨a', b'⟩
      rw [List.mem_cons, erase, List.mem_filter]
      by_cases ha : a' = a
      · subst ha
        have hb : (a', b') ∈ m.entries ↔ b' = b := by
          rw [← lookup_eq_some_iff, h]
          simp [eq_comm]
        simp [hb]
      · simp [ha]
  exact hperm.map Prod.snd

/-! ## The least recently used entry -/

omit [DecidableEq α] in
theorem eq_empty_of_length (h : m.entries.length = 0) : m = empty := by
  obtain ⟨entries, hnodup⟩ := m
  cases entries with
  | nil => rfl
  | cons e rest => cases h

omit [DecidableEq α] in
theorem popLru_eq_none (h : m.popLru = none) : m = empty := by
  obtain ⟨entries, hnodup⟩ := m
  cases entries with
  | nil => rfl
  | cons e rest => cases h

/-- The least recently used entry is looked up, and removed. -/
theorem popLru_eq_some {m m' : LruCache α β} {b : β} (h : m.popLru = some ((a, b), m')) :
    m.lookup a = some b ∧ m' = m.erase a ∧ m.entries.length = m'.entries.length + 1 := by
  obtain ⟨entries, hnodup⟩ := m
  cases entries with
  | nil => cases h
  | cons e rest =>
    cases h
    refine ⟨lookup_eq_some_iff.mpr List.mem_cons_self, ?_, rfl⟩
    unfold erase
    congr
    simp only [ne_eq, decide_not, decide_true, Bool.not_true, Bool.false_eq_true, not_false_eq_true,
      List.filter_cons_of_neg]
    refine (List.filter_eq_self.mpr fun e he => ?_).symm
    have hnot := (List.nodup_cons.mp hnodup).1
    simp only [Bool.not_eq_true', decide_eq_false_iff_not]
    intro heq
    refine hnot (List.mem_map.mpr ⟨e, he, heq⟩)

end LruCache
end Lib
