-- SUMMARY: Ongoing flushes counted per LSN, the next flush LSN, and what it says about every sequence of flushes.
import Mathlib.Data.List.MinMax
import Moonlink.Lib.Panics
import Moonlink.Event

/-!
# Flush LSNs

The table counts the ongoing flushes of each LSN. A flush that completes becomes
the flush LSN of the next snapshot unless a smaller LSN is still ongoing; it is
then kept aside until nothing is ongoing. This is the bookkeeping of
`MooncakeTable` at the level of its counters, with the widths of the code: LSNs
have 64 bits and counters 32.
-/

namespace Moonlink

open Lib

/-- `u64::MAX`, which stands for the smallest LSN when nothing is ongoing. -/
def u64Max : Nat := 2 ^ 64 - 1

structure FlushLsns where
  ongoingFlushLsns : AssocMap Nat Nat
  completedUnrecordedFlushLsns : List Nat
  lastFlushLsn : Option Nat
  /-- The flush LSN of the next snapshot task. -/
  newFlushLsn : Option Nat
  newLargestFlushLsn : Option Nat
  deriving DecidableEq

namespace FlushLsns

def new : FlushLsns := ⟨∅, [], none, none, none⟩

variable (s : FlushLsns)

def getMinOngoingFlushLsn : Nat := s.ongoingFlushLsns.keys.min?.getD u64Max

def getLastFlushLsn : Nat := s.lastFlushLsn.getD 0

def insertOngoingFlushLsn (lsn count : Nat) : Except Panic FlushLsns := do
  let counter := (s.ongoingFlushLsns.lookup lsn).getD 0
  assert (s.getLastFlushLsn ≤ lsn) .flushLsnBelowLast
  return { s with
    ongoingFlushLsns := s.ongoingFlushLsns.insert lsn ((counter + count) % 2 ^ 32)
    lastFlushLsn := some lsn }

def removeOngoingFlushLsn (lsn : Nat) : Except Panic FlushLsns :=
  match s.ongoingFlushLsns.lookup lsn with
  | some counter =>
    if 1 < counter then
      .ok { s with ongoingFlushLsns := s.ongoingFlushLsns.insert lsn (counter - 1) }
    else .ok { s with ongoingFlushLsns := s.ongoingFlushLsns.erase lsn }
  | none => .error .flushLsnNotTracked

def trySetLargestFlushLsn (lsn : Nat) : FlushLsns :=
  if s.newLargestFlushLsn.any (lsn ≤ ·) then s else { s with newLargestFlushLsn := some lsn }

/-- Record the LSN, or keep it aside if a flush at or below it is ongoing. -/
def recordFlushLsn (lsn : Nat) : Except Panic FlushLsns :=
  if lsn < s.getMinOngoingFlushLsn then do
    assert (s.newFlushLsn.all (· ≤ lsn)) .nextFlushLsnRegressed
    return { s with newFlushLsn := some lsn }
  else
    .ok { s with
      completedUnrecordedFlushLsns := s.completedUnrecordedFlushLsns.insert lsn }

/-- Once nothing is ongoing, the largest LSN that was kept aside is recorded. -/
def recordCompletedFlushLsns : Except Panic FlushLsns :=
  if s.ongoingFlushLsns.keys.isEmpty then
    match s.completedUnrecordedFlushLsns.max?, s.newFlushLsn with
    | none, _ => .ok s
    | some _, none => .error .nextFlushLsnRegressed
    | some largest, some flushLsn =>
      .ok { s with
        newFlushLsn := if flushLsn < largest then some largest else some flushLsn
        completedUnrecordedFlushLsns := [] }
  else .ok s

def trySetNextFlushLsn (lsn : Nat) : Except Panic FlushLsns := do
  let s ← (s.trySetLargestFlushLsn lsn).recordFlushLsn lsn
  s.recordCompletedFlushLsns

/-- `flush` with an empty mem slice, or with an LSN that is being flushed already. -/
def emptyFlush (lsn : Nat) : Except Panic FlushLsns := do
  assert (s.newFlushLsn.all (· ≤ lsn)) .flushLsnRegressed
  s.trySetNextFlushLsn lsn

/-- What `apply_flush_result` and `apply_stream_flush_result` do with the LSN. -/
def completeFlush (lsn : Nat) : Except Panic FlushLsns := do
  let s ← s.removeOngoingFlushLsn lsn
  s.trySetNextFlushLsn lsn

/-- A snapshot takes the task. What was kept aside stays with the table. -/
def handOver : FlushLsns :=
  { s with newFlushLsn := none, newLargestFlushLsn := none }

end FlushLsns

/-! ## Sequences of flushes -/

inductive FlushEvent where
  /-- `count` flushes with this LSN are registered. -/
  | initiate (lsn count : Nat)
  | emptyFlush (lsn : Nat)
  | complete (lsn : Nat)
  | handOver
  deriving DecidableEq, Repr

def FlushLsns.step (s : FlushLsns) : FlushEvent → Except Panic FlushLsns
  | .initiate lsn count => s.insertOngoingFlushLsn lsn count
  | .emptyFlush lsn => s.emptyFlush lsn
  | .complete lsn => s.completeFlush lsn
  | .handOver => .ok s.handOver

def FlushLsns.run (es : List FlushEvent) : Except Panic FlushLsns := es.foldlM FlushLsns.step .new

namespace FlushEvent

/-- How many flushes with this LSN the event registers. -/
def initiated (lsn : Nat) : FlushEvent → Nat
  | .initiate lsn' count => if lsn' = lsn then count else 0
  | _ => 0

def initiatedLsn : FlushEvent → Option Nat
  | .initiate lsn _ => some lsn
  | _ => none

/-- The LSN that the event completes. A flush of nothing completes at once. -/
def completedLsn : FlushEvent → Option Nat
  | .emptyFlush lsn => some lsn
  | .complete lsn => some lsn
  | _ => none

end FlushEvent

/-- The flushes with this LSN that were initiated. -/
def initiatedCount (es : List FlushEvent) (lsn : Nat) : Nat := (es.map (·.initiated lsn)).sum

/-- The flushes with this LSN that were initiated and have completed. -/
def completedCount (es : List FlushEvent) (lsn : Nat) : Nat := es.count (.complete lsn)

/-- No flush is ongoing. -/
def NoneOngoing (es : List FlushEvent) : Prop :=
  ∀ lsn, completedCount es lsn = initiatedCount es lsn

/-- `past` is the last time before the end of `past ++ recent` at which no flush was ongoing. -/
structure LastIdle (past recent : List FlushEvent) : Prop where
  idle : NoneOngoing past
  busy : ∀ r, r ≠ [] → r <+: recent → ¬ NoneOngoing (past ++ r)

/-- Flushes are initiated with non-decreasing LSNs and complete in any order. -/
def FlushEvent.Possible (past : List FlushEvent) : FlushEvent → Prop
  | .initiate lsn _ => ∀ lsn' ∈ past.filterMap initiatedLsn, lsn' ≤ lsn
  | .complete lsn => completedCount past lsn < initiatedCount past lsn
  | _ => True

/-- The event neither repeats the recorded flush LSN nor leaves the range of the counters. -/
def FlushEvent.Proper (s : FlushLsns) : FlushEvent → Prop
  | .initiate lsn count =>
    s.newFlushLsn.all (· < lsn) ∧ lsn < u64Max ∧
      0 < count ∧ (s.ongoingFlushLsns.lookup lsn).getD 0 + count < 2 ^ 32
  | .emptyFlush lsn => s.newFlushLsn.all (· ≤ lsn) ∧ lsn < u64Max
  | _ => True

instance (past : List FlushEvent) : (e : FlushEvent) → Decidable (e.Possible past)
  | .initiate lsn _ =>
    inferInstanceAs (Decidable (∀ lsn' ∈ past.filterMap FlushEvent.initiatedLsn, lsn' ≤ lsn))
  | .complete lsn => inferInstanceAs (Decidable (completedCount past lsn < initiatedCount past lsn))
  | .emptyFlush _ => isTrue trivial
  | .handOver => isTrue trivial

instance (s : FlushLsns) : (e : FlushEvent) → Decidable (e.Proper s)
  | .initiate lsn count =>
    inferInstanceAs (Decidable (s.newFlushLsn.all (· < lsn) ∧ lsn < u64Max ∧
      0 < count ∧ (s.ongoingFlushLsns.lookup lsn).getD 0 + count < 2 ^ 32))
  | .emptyFlush lsn => inferInstanceAs (Decidable (s.newFlushLsn.all (· ≤ lsn) ∧ lsn < u64Max))
  | .complete _ => isTrue trivial
  | .handOver => isTrue trivial

/-- Each event is possible after those before it. -/
def FlushHistory (es : List FlushEvent) : Prop :=
  ∀ i (h : i < es.length), es[i].Possible (es.take i)

/-- Each event is proper in the state that those before it lead to. -/
def ProperHistory (es : List FlushEvent) : Prop :=
  ∀ i (h : i < es.length), Ensures (FlushLsns.run (es.take i)) fun s => es[i].Proper s

instance (es : List FlushEvent) : Decidable (FlushHistory es) :=
  inferInstanceAs (Decidable (∀ i (h : i < es.length), es[i].Possible (es.take i)))

instance (es : List FlushEvent) : Decidable (ProperHistory es) :=
  inferInstanceAs (Decidable (∀ i (h : i < es.length),
    Ensures (FlushLsns.run (es.take i)) fun s => es[i].Proper s))

/-- What the next flush LSN promises after a sequence of flushes. -/
structure FlushTracked (es : List FlushEvent) (s : FlushLsns) : Prop where
  /-- Every flush at or below the next flush LSN has completed. -/
  completed : ∀ flushLsn, s.newFlushLsn = some flushLsn →
    ∀ lsn ≤ flushLsn, completedCount es lsn = initiatedCount es lsn
  /-- When the last ongoing flush completes, the next flush LSN is the largest LSN that
  completed since the last time none was ongoing. -/
  largest : ∀ past recent e, es = past ++ recent ++ [e] → LastIdle past recent →
    e.completedLsn.isSome → NoneOngoing es →
    s.newFlushLsn = ((recent ++ [e]).filterMap FlushEvent.completedLsn).max?

/-! ## Recording an LSN -/

namespace FlushLsns

variable {s : FlushLsns} {lsn : Nat}

theorem lt_getMinOngoingFlushLsn_iff (hmax : lsn < u64Max) :
    lsn < s.getMinOngoingFlushLsn ↔ ∀ lsn' ∈ s.ongoingFlushLsns, lsn < lsn' := by
  unfold getMinOngoingFlushLsn
  cases hmin : s.ongoingFlushLsns.keys.min? with
  | none =>
    have hkeys : s.ongoingFlushLsns.keys = [] := List.min?_eq_none_iff.mp hmin
    refine iff_of_true hmax ?_
    intro lsn' hmem
    rw [AList.mem_keys, hkeys] at hmem
    cases hmem
  | some least =>
    obtain ⟨hmem, hleast⟩ := List.min?_eq_some_iff.mp hmin
    constructor
    · intro h lsn' hlsn'
      exact Nat.lt_of_lt_of_le h (hleast lsn' hlsn')
    · intro h
      exact h least hmem

/-- How `try_set_next_flush_lsn` changes the state. -/
inductive Recorded (s : FlushLsns) (lsn : Nat) (s' : FlushLsns) : Prop where
  /-- Nothing is ongoing. -/
  | drained (hidle : ∀ lsn', lsn' ∉ s.ongoingFlushLsns)
      (hnew : s'.newFlushLsn = (lsn :: s.completedUnrecordedFlushLsns).max?)
      (haside : s'.completedUnrecordedFlushLsns = [])
  /-- Everything ongoing is above the LSN. -/
  | ahead (habove : ∀ lsn' ∈ s.ongoingFlushLsns, lsn < lsn')
      (hbusy : ∃ lsn', lsn' ∈ s.ongoingFlushLsns)
      (hnew : s'.newFlushLsn = some lsn)
      (haside : s'.completedUnrecordedFlushLsns = s.completedUnrecordedFlushLsns)
  /-- Something at or below the LSN is ongoing. -/
  | aside (hbelow : ∃ lsn' ∈ s.ongoingFlushLsns, lsn' ≤ lsn)
      (hnew : s'.newFlushLsn = s.newFlushLsn)
      (haside : s'.completedUnrecordedFlushLsns = s.completedUnrecordedFlushLsns.insert lsn)

theorem recordFlushLsn_of_lt (hmin : lsn < s.getMinOngoingFlushLsn)
    (hle : s.newFlushLsn.all (· ≤ lsn)) :
    s.recordFlushLsn lsn = .ok { s with newFlushLsn := some lsn } := by
  unfold recordFlushLsn assert
  rw [if_pos hmin, if_pos hle]
  rfl

theorem recordFlushLsn_of_not_lt (hmin : ¬ lsn < s.getMinOngoingFlushLsn) :
    s.recordFlushLsn lsn = .ok { s with
      completedUnrecordedFlushLsns := s.completedUnrecordedFlushLsns.insert lsn } := by
  unfold recordFlushLsn
  exact if_neg hmin

theorem recordCompletedFlushLsns_of_busy
    (h : lsn ∈ s.ongoingFlushLsns) : s.recordCompletedFlushLsns = .ok s := by
  unfold recordCompletedFlushLsns
  exact if_neg (by simpa using List.ne_nil_of_mem (AList.mem_keys.mp h))

theorem recordCompletedFlushLsns_of_idle
    (h : ∀ lsn', lsn' ∉ s.ongoingFlushLsns) (hnew : s.newFlushLsn = some lsn) :
    s.recordCompletedFlushLsns = .ok { s with
      newFlushLsn := (lsn :: s.completedUnrecordedFlushLsns).max?
      completedUnrecordedFlushLsns := [] } := by
  have hkeys : s.ongoingFlushLsns.keys = [] := List.eq_nil_iff_forall_not_mem.mpr h
  unfold recordCompletedFlushLsns
  rw [if_pos (by simp [hkeys]), hnew, List.max?_cons]
  cases hmax : s.completedUnrecordedFlushLsns.max? with
  | none =>
    have haside := List.max?_eq_none_iff.mp hmax
    cases s
    simp_all
  | some largest =>
    have hpick : (if lsn < largest then some largest else some lsn) = some (max lsn largest) := by
      split <;> congr 1 <;> omega
    simp only [hpick, Option.elim]

@[simp] theorem trySetLargestFlushLsn_ongoing (s : FlushLsns) (lsn : Nat) :
    (s.trySetLargestFlushLsn lsn).ongoingFlushLsns = s.ongoingFlushLsns := by
  unfold trySetLargestFlushLsn
  split <;> rfl

@[simp] theorem trySetLargestFlushLsn_aside (s : FlushLsns) (lsn : Nat) :
    (s.trySetLargestFlushLsn lsn).completedUnrecordedFlushLsns =
      s.completedUnrecordedFlushLsns := by
  unfold trySetLargestFlushLsn
  split <;> rfl

@[simp] theorem trySetLargestFlushLsn_last (s : FlushLsns) (lsn : Nat) :
    (s.trySetLargestFlushLsn lsn).lastFlushLsn = s.lastFlushLsn := by
  unfold trySetLargestFlushLsn
  split <;> rfl

@[simp] theorem trySetLargestFlushLsn_new (s : FlushLsns) (lsn : Nat) :
    (s.trySetLargestFlushLsn lsn).newFlushLsn = s.newFlushLsn := by
  unfold trySetLargestFlushLsn
  split <;> rfl

theorem trySetNextFlushLsn_spec (hmax : lsn < u64Max) (hle : s.newFlushLsn.all (· ≤ lsn)) :
    Returns (s.trySetNextFlushLsn lsn) fun s' =>
      s'.ongoingFlushLsns = s.ongoingFlushLsns ∧ s'.lastFlushLsn = s.lastFlushLsn ∧
        Recorded s lsn s' := by
  unfold trySetNextFlushLsn
  by_cases hmin : lsn < (s.trySetLargestFlushLsn lsn).getMinOngoingFlushLsn
  · rw [recordFlushLsn_of_lt hmin (by simpa using hle), ok_bind]
    have habove := (lt_getMinOngoingFlushLsn_iff hmax).mp hmin
    rw [trySetLargestFlushLsn_ongoing] at habove
    by_cases hbusy : ∃ lsn', lsn' ∈ s.ongoingFlushLsns
    · obtain ⟨lsn', hmem⟩ := hbusy
      rw [recordCompletedFlushLsns_of_busy (by simpa using hmem)]
      exact .ok ⟨by simp, by simp, .ahead habove ⟨lsn', hmem⟩ rfl (by simp)⟩
    · have hidle := not_exists.mp hbusy
      rw [recordCompletedFlushLsns_of_idle (by simpa using hidle) rfl]
      exact .ok ⟨by simp, by simp, .drained hidle (by simp) rfl⟩
  · rw [recordFlushLsn_of_not_lt hmin, ok_bind]
    rw [lt_getMinOngoingFlushLsn_iff hmax, trySetLargestFlushLsn_ongoing] at hmin
    push Not at hmin
    obtain ⟨lsn', hmem, hlsn'⟩ := hmin
    rw [recordCompletedFlushLsns_of_busy (by simpa using hmem)]
    exact .ok ⟨by simp, by simp, .aside ⟨lsn', hmem, hlsn'⟩ (by simp) (by simp)⟩

/-- One of the `n` flushes with this LSN leaves the counters. -/
structure Removed (s : FlushLsns) (lsn n : Nat) (s' : FlushLsns) : Prop where
  lookup : ∀ lsn', s'.ongoingFlushLsns.lookup lsn' =
    if lsn' = lsn then (if 1 < n then some (n - 1) else none) else s.ongoingFlushLsns.lookup lsn'
  aside : s'.completedUnrecordedFlushLsns = s.completedUnrecordedFlushLsns
  new : s'.newFlushLsn = s.newFlushLsn
  last : s'.lastFlushLsn = s.lastFlushLsn

theorem Removed.mem {s s' : FlushLsns} {lsn n : Nat} (h : Removed s lsn n s') (lsn' : Nat)
    (hmem : lsn' ∈ s'.ongoingFlushLsns) (hlsn : lsn ∈ s.ongoingFlushLsns) :
    lsn' ∈ s.ongoingFlushLsns := by
  by_cases heq : lsn' = lsn
  · rw [heq]
    exact hlsn
  · rw [← AList.lookup_isSome, h.lookup, if_neg heq, AList.lookup_isSome] at hmem
    exact hmem

theorem removeOngoingFlushLsn_spec {lsn n : Nat} (hn : s.ongoingFlushLsns.lookup lsn = some n) :
    Returns (s.removeOngoingFlushLsn lsn) (Removed s lsn n) := by
  unfold removeOngoingFlushLsn
  simp only [hn]
  split
  · rename_i hone
    refine .ok ⟨fun lsn' => ?_, rfl, rfl, rfl⟩
    rw [if_pos hone]
    exact AssocMap.lookup_insert_ite _ _ _ _
  · rename_i hone
    refine .ok ⟨fun lsn' => ?_, rfl, rfl, rfl⟩
    rw [if_neg hone]
    exact AssocMap.lookup_erase_ite _ _ _

end FlushLsns

/-! ## Counting flushes -/

section Counts

variable {es past recent : List FlushEvent} {e : FlushEvent}

@[simp] theorem initiatedCount_snoc (es : List FlushEvent) (e : FlushEvent) (lsn : Nat) :
    initiatedCount (es ++ [e]) lsn = initiatedCount es lsn + e.initiated lsn := by
  simp [initiatedCount]

@[simp] theorem completedCount_snoc (es : List FlushEvent) (e : FlushEvent) (lsn : Nat) :
    completedCount (es ++ [e]) lsn =
      completedCount es lsn + if e = .complete lsn then 1 else 0 := by
  simp [completedCount, List.count_singleton]

theorem LastIdle.of_snoc (h : LastIdle past (recent ++ [e])) : LastIdle past recent where
  idle := h.idle
  busy := fun r hr hpre => h.busy r hr (hpre.trans (List.prefix_append _ _))

theorem LastIdle.not_noneOngoing (h : LastIdle past (recent ++ [e])) :
    ¬ NoneOngoing (past ++ recent ++ [e]) := by
  rw [List.append_assoc]
  exact h.busy _ (by simp) List.prefix_rfl

theorem LastIdle.eq_nil (h : LastIdle past recent) (hidle : NoneOngoing (past ++ recent)) :
    recent = [] := by
  by_contra hne
  exact h.busy recent hne List.prefix_rfl hidle

/-- A sequence that ends in `e` was last idle now or before `e`. -/
theorem LastIdle.snoc_cases (heq : es ++ [e] = past ++ recent) (h : LastIdle past recent) :
    (recent = [] ∧ NoneOngoing (es ++ [e])) ∨
      ∃ recent', recent = recent' ++ [e] ∧ es = past ++ recent' ∧ LastIdle past recent' ∧
        ¬ NoneOngoing (es ++ [e]) := by
  rcases List.eq_nil_or_concat recent with rfl | ⟨recent', e', rfl⟩
  · rw [List.append_nil] at heq
    exact .inl ⟨rfl, heq ▸ h.idle⟩
  · simp only [List.concat_eq_append] at heq h ⊢
    rw [← List.append_assoc] at heq
    obtain ⟨rfl, hlast⟩ := List.append_inj' heq rfl
    cases hlast
    exact .inr ⟨recent', rfl, rfl, h.of_snoc, h.not_noneOngoing⟩

end Counts

/-! ## The invariant -/

/-- The counters, and the next flush LSN below everything that is ongoing. -/
structure OngoingInv (es : List FlushEvent) (s : FlushLsns) : Prop where
  count : ∀ lsn, (s.ongoingFlushLsns.lookup lsn).getD 0 + completedCount es lsn =
    initiatedCount es lsn
  positive : ∀ lsn n, s.ongoingFlushLsns.lookup lsn = some n → 0 < n
  bound : ∀ lsn ∈ s.ongoingFlushLsns, lsn < u64Max
  last : ∀ lsn, s.lastFlushLsn = some lsn → lsn ∈ es.filterMap FlushEvent.initiatedLsn
  le_last : ∀ lsn ∈ s.ongoingFlushLsns, lsn ≤ s.getLastFlushLsn
  above : ∀ flushLsn, s.newFlushLsn = some flushLsn →
    ∀ lsn ∈ s.ongoingFlushLsns, flushLsn < lsn

/-- The LSNs `lsns` are kept aside, or are below everything that is ongoing. -/
structure AsideInv (lsns : List Nat) (s : FlushLsns) : Prop where
  tracked : ∀ lsn ∈ lsns, lsn ∈ s.completedUnrecordedFlushLsns ∨
    ∀ lsn' ∈ s.ongoingFlushLsns, lsn < lsn'
  mem : ∀ lsn ∈ s.completedUnrecordedFlushLsns, lsn ∈ lsns

structure FlushInv (es : List FlushEvent) (s : FlushLsns) : Prop extends OngoingInv es s where
  recent : ∀ past recent, es = past ++ recent → LastIdle past recent →
    AsideInv (recent.filterMap FlushEvent.completedLsn) s

namespace OngoingInv

variable {es : List FlushEvent} {s : FlushLsns} {lsn : Nat}

theorem exists_of_mem (h : OngoingInv es s) (hmem : lsn ∈ s.ongoingFlushLsns) :
    ∃ n, s.ongoingFlushLsns.lookup lsn = some n ∧ 0 < n := by
  obtain ⟨n, hn⟩ := Option.isSome_iff_exists.mp (AList.lookup_isSome.mpr hmem)
  exact ⟨n, hn, h.positive lsn n hn⟩

theorem completed_of_notMem (h : OngoingInv es s) (hmem : lsn ∉ s.ongoingFlushLsns) :
    completedCount es lsn = initiatedCount es lsn := by
  have hcount := h.count lsn
  rw [AList.lookup_eq_none.mpr hmem] at hcount
  simpa using hcount

theorem noneOngoing_iff (h : OngoingInv es s) :
    NoneOngoing es ↔ ∀ lsn, lsn ∉ s.ongoingFlushLsns := by
  constructor
  · intro hidle lsn hmem
    obtain ⟨n, hn, hpos⟩ := h.exists_of_mem hmem
    have hcount := h.count lsn
    rw [hn, hidle lsn] at hcount
    simp only [Option.getD_some] at hcount
    omega
  · intro hnone lsn
    exact h.completed_of_notMem (hnone lsn)

theorem completed (h : OngoingInv es s) {flushLsn : Nat} (hnew : s.newFlushLsn = some flushLsn)
    (hle : lsn ≤ flushLsn) : completedCount es lsn = initiatedCount es lsn := by
  apply h.completed_of_notMem
  intro hmem
  have hlt := h.above flushLsn hnew lsn hmem
  omega

/-- Recording an LSN keeps what is ongoing above the next flush LSN. -/
theorem recorded {s' : FlushLsns} (h : OngoingInv es s)
    (hongoing : s'.ongoingFlushLsns = s.ongoingFlushLsns) (hlast : s'.lastFlushLsn = s.lastFlushLsn)
    (hrec : s.Recorded lsn s') : OngoingInv es s' where
  count := by rw [hongoing]; exact h.count
  positive := by rw [hongoing]; exact h.positive
  bound := by rw [hongoing]; exact h.bound
  last := by rw [hlast]; exact h.last
  le_last := by unfold FlushLsns.getLastFlushLsn; rw [hongoing, hlast]; exact h.le_last
  above := by
    intro flushLsn hnew lsn' hmem
    rw [hongoing] at hmem
    cases hrec with
    | drained hidle _ _ => exact absurd hmem (hidle lsn')
    | ahead habove _ hnew' _ =>
      rw [hnew'] at hnew
      cases hnew
      exact habove lsn' hmem
    | aside _ hnew' _ =>
      rw [hnew'] at hnew
      exact h.above flushLsn hnew lsn' hmem

theorem removed {lsn n : Nat} {s' : FlushLsns} (h : OngoingInv es s)
    (hn : s.ongoingFlushLsns.lookup lsn = some n) (hremoved : s.Removed lsn n s') :
    OngoingInv (es ++ [.complete lsn]) s' := by
  have hpos := h.positive lsn n hn
  have hmem : lsn ∈ s.ongoingFlushLsns := AList.lookup_isSome.mp (by rw [hn]; rfl)
  refine ⟨?_, ?_, ?_, ?_, ?_, ?_⟩
  · intro lsn'
    have hcount := h.count lsn'
    simp only [completedCount_snoc, initiatedCount_snoc, FlushEvent.initiated, hremoved.lookup]
    by_cases heq : lsn' = lsn
    · subst heq
      rw [hn] at hcount
      simp only [Option.getD_some] at hcount
      by_cases hone : 1 < n
      · simp [hone]; omega
      · simp [hone]; omega
    · have hne : lsn ≠ lsn' := fun h => heq h.symm
      simp [heq, hne, hcount]
  · intro lsn' m hm
    rw [hremoved.lookup] at hm
    split at hm
    · split at hm
      · cases hm; omega
      · cases hm
    · exact h.positive lsn' m hm
  · exact fun lsn' hmem' => h.bound lsn' (hremoved.mem lsn' hmem' hmem)
  · rw [hremoved.last]; simpa [FlushEvent.initiatedLsn] using h.last
  · intro lsn' hmem'
    unfold FlushLsns.getLastFlushLsn
    rw [hremoved.last]
    exact h.le_last lsn' (hremoved.mem lsn' hmem' hmem)
  · intro flushLsn hflush lsn' hmem'
    rw [hremoved.new] at hflush
    exact h.above flushLsn hflush lsn' (hremoved.mem lsn' hmem' hmem)

end OngoingInv

/-- Lists whose elements are bounded by elements of each other have one maximum. -/
theorem max?_eq_of_dominated {l₁ l₂ : List Nat} (h₁ : ∀ a ∈ l₁, ∃ b ∈ l₂, a ≤ b)
    (h₂ : ∀ b ∈ l₂, ∃ a ∈ l₁, b ≤ a) : l₁.max? = l₂.max? := by
  cases hmax : l₂.max? with
  | none =>
    rw [List.max?_eq_none_iff] at hmax ⊢
    subst hmax
    refine List.eq_nil_iff_forall_not_mem.mpr ?_
    intro a ha
    obtain ⟨b, hb, -⟩ := h₁ a ha
    cases hb
  | some m =>
    obtain ⟨hmem, hle⟩ := List.max?_eq_some_iff.mp hmax
    obtain ⟨a, ha, hma⟩ := h₂ m hmem
    have hbound : ∀ c ∈ l₁, c ≤ m := by
      intro c hc
      obtain ⟨b, hb, hcb⟩ := h₁ c hc
      exact hcb.trans (hle b hb)
    have heq : a = m := le_antisymm (hbound a ha) hma
    exact List.max?_eq_some_iff.mpr ⟨heq ▸ ha, hbound⟩

/-! ## What each event preserves -/

section Steps

variable {es : List FlushEvent} {s s₁ s' : FlushLsns} {e : FlushEvent} {lsn : Nat}

theorem FlushInv.tracked (h : FlushInv es s)
    (hlargest : ∀ past recent e, es = past ++ recent ++ [e] → LastIdle past recent →
      e.completedLsn.isSome → NoneOngoing es →
      s.newFlushLsn = ((recent ++ [e]).filterMap FlushEvent.completedLsn).max?) :
    FlushTracked es s where
  completed := fun _ hnew _ hle => h.completed hnew hle
  largest := hlargest

/-- The completed LSN `lsn` of `e` is recorded. `hbelow` is about the last ongoing flush:
what completed before it is kept aside or below it. -/
theorem FlushInv.record (hongoing : OngoingInv (es ++ [e]) s₁)
    (hrecent : ∀ past recent, es = past ++ recent → LastIdle past recent →
      AsideInv (recent.filterMap FlushEvent.completedLsn) s₁)
    (hbelow : ∀ past recent, es = past ++ recent → LastIdle past recent →
      (∀ lsn', lsn' ∉ s₁.ongoingFlushLsns) →
      ∀ c ∈ recent.filterMap FlushEvent.completedLsn, c ∈ s₁.completedUnrecordedFlushLsns ∨ c ≤ lsn)
    (he : e.completedLsn = some lsn)
    (hsame : s'.ongoingFlushLsns = s₁.ongoingFlushLsns) (hlast : s'.lastFlushLsn = s₁.lastFlushLsn)
    (hrec : s₁.Recorded lsn s') : FlushInv (es ++ [e]) s' ∧ FlushTracked (es ++ [e]) s' := by
  have hinv : FlushInv (es ++ [e]) s' := by
    refine { hongoing.recorded hsame hlast hrec with recent := ?_ }
    intro past recent heq hidle
    rcases hidle.snoc_cases heq with ⟨rfl, hnone⟩ | ⟨recent', rfl, heq', hidle', hbusy⟩
    · have hfree := hongoing.noneOngoing_iff.mp hnone
      cases hrec with
      | drained _ _ haside => exact ⟨by simp, by simp [haside]⟩
      | ahead _ hbusy _ _ => exact absurd hbusy.choose_spec (hfree _)
      | aside hbelow' _ _ => exact absurd hbelow'.choose_spec.1 (hfree _)
    · obtain ⟨htracked, hmem⟩ := hrecent past recent' heq' hidle'
      rw [List.filterMap_append]
      cases hrec with
      | drained hfree _ _ => exact absurd (hongoing.noneOngoing_iff.mpr hfree) hbusy
      | ahead habove _ _ haside =>
        constructor
        · intro c hc
          rw [haside, hsame]
          rcases List.mem_append.mp hc with hc | hc
          · exact htracked c hc
          · obtain rfl : c = lsn := by simpa [he] using hc
            exact .inr habove
        · intro c hc
          rw [haside] at hc
          exact List.mem_append_left _ (hmem c hc)
      | aside _ _ haside =>
        constructor
        · intro c hc
          rw [haside, hsame, List.mem_insert_iff]
          rcases List.mem_append.mp hc with hc | hc
          · rcases htracked c hc with hc | hc
            · exact .inl (.inr hc)
            · exact .inr hc
          · obtain rfl : c = lsn := by simpa [he] using hc
            exact .inl (.inl rfl)
        · intro c hc
          rw [haside, List.mem_insert_iff] at hc
          rcases hc with rfl | hc
          · exact List.mem_append_right _ (by simp [he])
          · exact List.mem_append_left _ (hmem c hc)
  refine ⟨hinv, hinv.tracked ?_⟩
  intro past recent e' heq hidle _ hnone
  obtain ⟨heq', hlast'⟩ := List.append_inj' heq rfl
  cases hlast'
  have hfree := hongoing.noneOngoing_iff.mp hnone
  cases hrec with
  | ahead _ hbusy _ _ => exact absurd hbusy.choose_spec (hfree _)
  | aside hbelow' _ _ => exact absurd hbelow'.choose_spec.1 (hfree _)
  | drained _ hnew _ =>
    rw [hnew, List.filterMap_append]
    apply max?_eq_of_dominated
    · intro c hc
      rcases List.mem_cons.mp hc with rfl | hc
      · exact ⟨c, List.mem_append_right _ (by simp [he]), le_rfl⟩
      · exact ⟨c, List.mem_append_left _ ((hrecent past recent heq' hidle).mem c hc), le_rfl⟩
    · intro c hc
      rcases List.mem_append.mp hc with hc | hc
      · rcases hbelow past recent heq' hidle hfree c hc with hc | hc
        · exact ⟨c, List.mem_cons_of_mem _ hc, le_rfl⟩
        · exact ⟨lsn, List.mem_cons_self, hc⟩
      · obtain rfl : c = lsn := by simpa [he] using hc
        exact ⟨c, List.mem_cons_self, le_rfl⟩

theorem FlushInv.emptyFlush (h : FlushInv es s) (hproper : (FlushEvent.emptyFlush lsn).Proper s) :
    Returns (s.emptyFlush lsn) fun s' =>
      FlushInv (es ++ [.emptyFlush lsn]) s' ∧ FlushTracked (es ++ [.emptyFlush lsn]) s' := by
  obtain ⟨hle, hmax⟩ := hproper
  have hongoing : OngoingInv (es ++ [.emptyFlush lsn]) s :=
    { count := by simpa [FlushEvent.initiated] using h.count
      positive := h.positive
      bound := h.bound
      last := by simpa [FlushEvent.initiatedLsn] using h.last
      le_last := h.le_last
      above := h.above }
  unfold FlushLsns.emptyFlush assert
  rw [if_pos hle, ok_bind]
  refine (FlushLsns.trySetNextFlushLsn_spec hmax hle).mono ?_
  rintro s' ⟨hsame, hlast, hrec⟩
  refine FlushInv.record hongoing h.recent ?_ rfl hsame hlast hrec
  -- Nothing is ongoing, so nothing completed since the last idle time.
  intro past recent heq hidle hfree c hc
  have hnone := h.noneOngoing_iff.mpr hfree
  rw [heq] at hnone
  rw [hidle.eq_nil hnone] at hc
  cases hc

theorem FlushInv.complete (h : FlushInv es s) (hpossible : (FlushEvent.complete lsn).Possible es) :
    Returns (s.completeFlush lsn) fun s' =>
      FlushInv (es ++ [.complete lsn]) s' ∧ FlushTracked (es ++ [.complete lsn]) s' := by
  have hmem : lsn ∈ s.ongoingFlushLsns := by
    by_contra hmem
    have hcount := h.completed_of_notMem hmem
    have hlt : completedCount es lsn < initiatedCount es lsn := hpossible
    omega
  obtain ⟨n, hn, -⟩ := h.exists_of_mem hmem
  obtain ⟨s₁, hs₁, hremoved⟩ := FlushLsns.removeOngoingFlushLsn_spec hn
  have hongoing := h.toOngoingInv.removed hn hremoved
  have hle : s₁.newFlushLsn.all (· ≤ lsn) := by
    rw [hremoved.new]
    cases hflush : s.newFlushLsn with
    | none => rfl
    | some flushLsn => simpa using (h.above flushLsn hflush lsn hmem).le
  unfold FlushLsns.completeFlush
  rw [hs₁, ok_bind]
  refine (FlushLsns.trySetNextFlushLsn_spec (h.bound lsn hmem) hle).mono ?_
  rintro s' ⟨hsame, hlast', hrec⟩
  refine FlushInv.record hongoing ?_ ?_ rfl hsame hlast' hrec
  · intro past recent heq hidle
    obtain ⟨htracked, hmem'⟩ := h.recent past recent heq hidle
    constructor
    · intro c hc
      rw [hremoved.aside]
      exact (htracked c hc).imp_right fun hall lsn' hin => hall lsn' (hremoved.mem lsn' hin hmem)
    · rw [hremoved.aside]; exact hmem'
  · intro past recent heq hidle _ c hc
    rw [hremoved.aside]
    exact ((h.recent past recent heq hidle).tracked c hc).imp_right fun hall => (hall lsn hmem).le

theorem FlushInv.initiate {count : Nat} (h : FlushInv es s)
    (hpossible : (FlushEvent.initiate lsn count).Possible es)
    (hproper : (FlushEvent.initiate lsn count).Proper s) :
    Returns (s.insertOngoingFlushLsn lsn count) fun s' =>
      FlushInv (es ++ [.initiate lsn count]) s' ∧ FlushTracked (es ++ [.initiate lsn count]) s' := by
  obtain ⟨hnew, hmax, hpos, hwidth⟩ := hproper
  have hle : s.getLastFlushLsn ≤ lsn := by
    unfold FlushLsns.getLastFlushLsn
    cases hlast : s.lastFlushLsn with
    | none => exact Nat.zero_le _
    | some last => exact hpossible last (h.last last hlast)
  unfold FlushLsns.insertOngoingFlushLsn assert
  rw [if_pos (by simpa using hle), ok_bind]
  have hongoing : OngoingInv (es ++ [.initiate lsn count]) { s with
      ongoingFlushLsns := s.ongoingFlushLsns.insert lsn
        (((s.ongoingFlushLsns.lookup lsn).getD 0 + count) % 2 ^ 32)
      lastFlushLsn := some lsn } := by
    rw [Nat.mod_eq_of_lt hwidth]
    refine ⟨?_, ?_, ?_, ?_, ?_, ?_⟩
    · intro lsn'
      have hcount := h.count lsn'
      simp only [AssocMap.lookup_insert_ite, initiatedCount_snoc, completedCount_snoc,
        FlushEvent.initiated]
      by_cases heq : lsn' = lsn
      · subst heq
        simp
        omega
      · have hne : lsn ≠ lsn' := fun h => heq h.symm
        simp [heq, hne, hcount]
    · intro lsn' n hn
      simp only [AssocMap.lookup_insert_ite] at hn
      split at hn
      · cases hn; omega
      · exact h.positive lsn' n hn
    · intro lsn' hmem
      rcases (AList.mem_insert _).mp hmem with rfl | hmem
      · exact hmax
      · exact h.bound lsn' hmem
    · intro last hlast
      cases hlast
      simp [FlushEvent.initiatedLsn]
    · intro lsn' hmem
      rcases (AList.mem_insert _).mp hmem with rfl | hmem
      · exact le_rfl
      · exact (h.le_last lsn' hmem).trans hle
    · intro flushLsn hflush lsn' hmem
      rcases (AList.mem_insert _).mp hmem with rfl | hmem
      · simp only at hflush
        rw [hflush] at hnew
        simpa using hnew
      · exact h.above flushLsn hflush lsn' hmem
  refine .pure ?_
  have hinv : FlushInv (es ++ [.initiate lsn count]) { s with
      ongoingFlushLsns := s.ongoingFlushLsns.insert lsn
        (((s.ongoingFlushLsns.lookup lsn).getD 0 + count) % 2 ^ 32)
      lastFlushLsn := some lsn } := by
    refine { hongoing with recent := ?_ }
    intro past recent heq hidle
    rcases hidle.snoc_cases heq with ⟨rfl, hnone⟩ | ⟨recent', rfl, heq', hidle', -⟩
    · exact absurd ((AList.mem_insert _).mpr (.inl rfl)) (hongoing.noneOngoing_iff.mp hnone lsn)
    · obtain ⟨htracked, hmem⟩ := h.recent past recent' heq' hidle'
      simp only [List.filterMap_append, List.filterMap_cons, FlushEvent.completedLsn,
        List.filterMap_nil, List.append_nil]
      refine ⟨?_, hmem⟩
      intro c hc
      refine (htracked c hc).imp_right fun hall lsn' hin => ?_
      rcases (AList.mem_insert _).mp hin with rfl | hin
      · -- Something is ongoing, since `c` completed after the last idle time.
        by_contra hnlt
        have hfree : ∀ lsn'', lsn'' ∉ s.ongoingFlushLsns := by
          intro lsn'' hin
          have hlt := hall lsn'' hin
          have hlast := h.le_last lsn'' hin
          omega
        have hnone := h.noneOngoing_iff.mpr hfree
        rw [heq'] at hnone
        rw [hidle'.eq_nil hnone] at hc
        cases hc
      · exact hall lsn' hin
  refine ⟨hinv, hinv.tracked ?_⟩
  intro past recent e' heq _ _ hnone
  exact absurd ((AList.mem_insert _).mpr (.inl rfl)) (hongoing.noneOngoing_iff.mp hnone lsn)

theorem FlushInv.handOver (h : FlushInv es s) :
    FlushInv (es ++ [.handOver]) s.handOver ∧ FlushTracked (es ++ [.handOver]) s.handOver := by
  have hongoing : OngoingInv (es ++ [.handOver]) s.handOver :=
    { count := by simpa [FlushEvent.initiated, FlushLsns.handOver] using h.count
      positive := h.positive
      bound := h.bound
      last := by simpa [FlushEvent.initiatedLsn, FlushLsns.handOver] using h.last
      le_last := h.le_last
      above := nofun }
  have hinv : FlushInv (es ++ [.handOver]) s.handOver := by
    refine { hongoing with recent := ?_ }
    intro past recent heq hidle
    rcases hidle.snoc_cases heq with ⟨rfl, hnone⟩ | ⟨recent', rfl, heq', hidle', -⟩
    · have hfree := hongoing.noneOngoing_iff.mp hnone
      have hidle' : LastIdle es [] := 
        ⟨h.noneOngoing_iff.mpr hfree, fun r hr hpre => absurd (List.prefix_nil.mp hpre) hr⟩
      exact ⟨by simp, (h.recent es [] (by simp) hidle').mem⟩
    · simp only [List.filterMap_append, List.filterMap_cons, FlushEvent.completedLsn,
        List.filterMap_nil, List.append_nil]
      exact ⟨(h.recent past recent' heq' hidle').tracked, (h.recent past recent' heq' hidle').mem⟩
  refine ⟨hinv, hinv.tracked ?_⟩
  intro past recent e' heq _ he'
  obtain ⟨-, hlast⟩ := List.append_inj' heq rfl
  cases hlast
  cases he'

theorem FlushInv.step (h : FlushInv es s) (hpossible : e.Possible es) (hproper : e.Proper s) :
    Returns (s.step e) fun s' => FlushInv (es ++ [e]) s' ∧ FlushTracked (es ++ [e]) s' := by
  cases e with
  | initiate lsn count => exact h.initiate hpossible hproper
  | emptyFlush lsn => exact h.emptyFlush hproper
  | complete lsn => exact h.complete hpossible
  | handOver => exact .ok h.handOver

end Steps

theorem FlushInv.new : FlushInv [] .new where
  count := fun _ => rfl
  positive := nofun
  bound := nofun
  last := nofun
  le_last := nofun
  above := nofun
  recent := by
    intro past recent heq _
    obtain ⟨-, rfl⟩ := List.append_eq_nil_iff.mp heq.symm
    exact ⟨by simp, by simp [FlushLsns.new]⟩

/-- A sequence of flushes that starts from a new table. -/
theorem FlushLsns.run_snoc (es : List FlushEvent) (e : FlushEvent) :
    run (es ++ [e]) = run es >>= fun s => s.step e := by
  unfold run
  rw [List.foldlM_append]
  simp

/-- A property of all events and what precedes them, taken apart at the last event. -/
theorem forall_getElem_snoc {α : Type} {P : List α → α → Prop} {as : List α} {a : α}
    (h : ∀ i (hi : i < (as ++ [a]).length), P ((as ++ [a]).take i) (as ++ [a])[i]) :
    (∀ i (hi : i < as.length), P (as.take i) as[i]) ∧ P as a := by
  constructor
  · intro i hi
    have hlen : i < (as ++ [a]).length := by simp; omega
    have hP := h i hlen
    rwa [List.take_append_of_le_length hi.le, List.getElem_append_left hi] at hP
  · have hP := h as.length (by simp)
    simpa using hP

theorem FlushInv.run {es : List FlushEvent} (hist : FlushHistory es) (hproper : ProperHistory es) :
    Returns (FlushLsns.run es) fun s => FlushInv es s ∧ FlushTracked es s := by
  induction es using List.reverseRecOn with
  | nil =>
    refine .ok ⟨.new, FlushInv.new.tracked ?_⟩
    intro past recent e heq
    simp at heq
  | append_singleton past e ih =>
    obtain ⟨hist', hpossible⟩ := forall_getElem_snoc hist
    obtain ⟨hproper', hstep⟩ := forall_getElem_snoc
      (P := fun past e => Ensures (FlushLsns.run past) fun s => e.Proper s) hproper
    obtain ⟨s, hs, hinv, -⟩ := ih hist' hproper'
    rw [FlushLsns.run_snoc, hs]
    exact hinv.step hpossible (hstep s hs)

/-- If every initiated flush is above the recorded flush LSN, no sequence of flushes
panics and the next flush LSN stays behind the slowest flush. -/
theorem flush_lsn_tracked {es : List FlushEvent} (hist : FlushHistory es)
    (hproper : ProperHistory es) : ∃ s, FlushLsns.run es = .ok s ∧ FlushTracked es s := by
  obtain ⟨s, hs, -, htracked⟩ := FlushInv.run hist hproper
  exact ⟨s, hs, htracked⟩

/-- Two flushes at 10, one at 20 that completes first, a flush of nothing, and a snapshot
before the first two complete. -/
theorem flush_lsn_tracked_out_of_order :
    let es : List FlushEvent :=
      [.initiate 10 2, .initiate 20 1, .complete 20, .emptyFlush 25, .complete 10, .handOver,
        .complete 10]
    ∃ s, FlushLsns.run es = .ok s ∧ s.newFlushLsn = some 25 ∧ FlushTracked es s := by
  intro es
  obtain ⟨s, hs, htracked⟩ := @flush_lsn_tracked es (by decide) (by decide)
  have heval : FlushLsns.run es = .ok ⟨∅, [], some 20, some 25, some 10⟩ := rfl
  rw [heval] at hs
  cases hs
  exact ⟨_, heval, rfl, htracked⟩

/-- A flush is initiated again at the recorded flush LSN, which then covers a flush that
has not completed. -/
theorem flush_lsn_repeated :
    let es : List FlushEvent := [.initiate 10 1, .complete 10, .initiate 10 1]
    FlushHistory es ∧ ∃ s, FlushLsns.run es = .ok s ∧ s.newFlushLsn = some 10 ∧
      completedCount es 10 < initiatedCount es 10 ∧ ¬ FlushTracked es s := by
  intro es
  have heval : FlushLsns.run es = .ok ⟨AList.singleton 10 1, [], some 10, some 10, some 10⟩ :=
    rfl
  refine ⟨by decide, _, heval, rfl, by decide, ?_⟩
  intro h
  exact absurd (h.completed 10 rfl 10 le_rfl) (by decide)

end Moonlink
