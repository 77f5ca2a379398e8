-- SUMMARY: What the table operations change and when they do not panic, one specification for each.
import Moonlink.Table.Mooncake

namespace Moonlink

open Lib

namespace MooncakeTable

variable {Row : Type} {t t' : MooncakeTable Row} {lsn : Nat}

/-! ## Flush LSNs -/

theorem getMinOngoingFlushLsn_all :
    t.getMinOngoingFlushLsn.all (lsn < ·) = true ↔ ∀ l ∈ t.ongoingFlushLsns, lsn < l := by
  unfold getMinOngoingFlushLsn
  cases hmin : t.ongoingFlushLsns.min? with
  | none =>
    rw [List.min?_eq_none_iff.mp hmin]
    simp
  | some m =>
    simp only [Option.all_some, decide_eq_true_eq]
    exact List.le_min?_iff hmin

/-- The table with another next flush LSN and other completed flushes. -/
def withFlushLsn (t : MooncakeTable Row) (newFlushLsn : Option Nat) (completed : List Nat) :
    MooncakeTable Row :=
  { t with
    nextSnapshotTask := { t.nextSnapshotTask with newFlushLsn }
    completedUnrecordedFlushLsns := completed }

/-- How a completed flush changes the next flush LSN: it waits for a smaller pending
flush, or becomes the next flush LSN, where larger ones that waited may take over. -/
inductive NextFlush (t : MooncakeTable Row) (lsn : Nat) : Option Nat → List Nat → Prop where
  | waits {l : Nat} (hmem : l ∈ t.ongoingFlushLsns) (hle : l ≤ lsn) :
      NextFlush t lsn t.nextSnapshotTask.newFlushLsn (t.completedUnrecordedFlushLsns ++ [lsn])
  | set (hlt : ∀ l ∈ t.ongoingFlushLsns, lsn < l) :
      NextFlush t lsn (some lsn) t.completedUnrecordedFlushLsns
  | catchUp {largest : Nat} (hnone : t.ongoingFlushLsns = [])
      (hmem : largest ∈ t.completedUnrecordedFlushLsns) :
      NextFlush t lsn (some (max largest lsn)) []

theorem recordFlushLsn_returns (hle : ∀ n, t.nextSnapshotTask.newFlushLsn = some n → n ≤ lsn) :
    Returns (t.recordFlushLsn lsn) fun t' =>
      (t' = t.withFlushLsn (some lsn) t.completedUnrecordedFlushLsns ∧
        ∀ l ∈ t.ongoingFlushLsns, lsn < l) ∨
      (t' = t.withFlushLsn t.nextSnapshotTask.newFlushLsn (t.completedUnrecordedFlushLsns ++ [lsn]) ∧
        ∃ l ∈ t.ongoingFlushLsns, l ≤ lsn) := by
  unfold recordFlushLsn
  split
  · rename_i hall
    have hassert : t.nextSnapshotTask.newFlushLsn.all (· ≤ lsn) = true := by
      cases hn : t.nextSnapshotTask.newFlushLsn with
      | none => rfl
      | some n => simpa using hle n hn
    refine Returns.bind (P := fun _ => True) ⟨(), assert_eq_ok_iff.mpr hassert, trivial⟩ ?_
    intro _ _
    exact Returns.pure (.inl ⟨rfl, getMinOngoingFlushLsn_all.mp hall⟩)
  · rename_i hall
    rw [getMinOngoingFlushLsn_all] at hall
    push Not at hall
    exact Returns.ok (.inr ⟨rfl, hall⟩)

theorem recordCompletedFlushLsns_returns
    (hset : t.ongoingFlushLsns = [] → ∃ n, t.nextSnapshotTask.newFlushLsn = some n) :
    Returns t.recordCompletedFlushLsns fun t' => t' = t ∨
      ∃ largest n, t.ongoingFlushLsns = [] ∧ largest ∈ t.completedUnrecordedFlushLsns ∧
        t.nextSnapshotTask.newFlushLsn = some n ∧ t' = t.withFlushLsn (some (max largest n)) [] := by
  unfold recordCompletedFlushLsns
  split
  · rename_i hempty
    have hnil := List.isEmpty_iff.mp hempty
    obtain ⟨n, hn⟩ := hset hnil
    rw [hn]
    cases hmax : t.completedUnrecordedFlushLsns.max? with
    | none => exact Returns.ok (.inl rfl)
    | some largest =>
      exact Returns.ok (.inr ⟨largest, n, hnil, List.max?_mem hmax, rfl, rfl⟩)
  · exact Returns.ok (.inl rfl)

theorem trySetNextFlushLsn_returns (hle : ∀ n, t.nextSnapshotTask.newFlushLsn = some n → n ≤ lsn) :
    Returns (t.trySetNextFlushLsn lsn) fun t' =>
      ∃ n c, t' = t.withFlushLsn n c ∧ NextFlush t lsn n c := by
  unfold trySetNextFlushLsn
  refine Returns.bind (recordFlushLsn_returns hle) ?_
  rintro t₁ (⟨rfl, hlt⟩ | ⟨rfl, l, hmem, hl⟩)
  · refine Returns.mono (recordCompletedFlushLsns_returns fun _ => ⟨lsn, rfl⟩) ?_
    rintro t₂ (rfl | ⟨largest, n, hnil, hmax, hn, rfl⟩)
    · exact ⟨_, _, rfl, .set hlt⟩
    · cases hn
      exact ⟨_, _, rfl, .catchUp hnil hmax⟩
  · have hne : t.ongoingFlushLsns ≠ [] := List.ne_nil_of_mem hmem
    refine Returns.mono (recordCompletedFlushLsns_returns fun hnil => absurd hnil hne) ?_
    rintro t₂ (rfl | ⟨largest, n, hnil, -⟩)
    · exact ⟨_, _, rfl, .waits hmem hl⟩
    · exact absurd hnil hne

/-! ## Flushes -/

/-- `p` holds of every flush LSN. -/
structure FlushLsns (p : Nat → Prop) (t : MooncakeTable Row) : Prop where
  next : ∀ n, t.nextSnapshotTask.newFlushLsn = some n → p n
  last : ∀ n, t.lastFlushLsn = some n → p n
  ongoing : ∀ l ∈ t.ongoingFlushLsns, p l
  completed : ∀ l ∈ t.completedUnrecordedFlushLsns, p l

theorem FlushLsns.mono {p q : Nat → Prop} (h : FlushLsns p t) (himp : ∀ n, p n → q n) :
    FlushLsns q t where
  next n hn := himp n (h.next n hn)
  last n hn := himp n (h.last n hn)
  ongoing l hl := himp l (h.ongoing l hl)
  completed l hl := himp l (h.completed l hl)

/-- The flush LSNs that a snapshot can still take over are above `f`. -/
structure FlushesAbove (f : Nat) (t : MooncakeTable Row) : Prop where
  next : ∀ n, t.nextSnapshotTask.newFlushLsn = some n → f < n
  ongoing : ∀ l ∈ t.ongoingFlushLsns, f < l

end MooncakeTable

/-- The LSNs that a streaming transaction contributes to the ongoing flushes. -/
def TransactionStreamState.committedFlushes {Row : Type} (st : TransactionStreamState Row) :
    List Nat :=
  match st.status with
  | .committed commitLsn => List.replicate st.ongoingFlushCount commitLsn
  | _ => []

namespace MooncakeTable

variable {Row : Type} {t t' : MooncakeTable Row} {lsn : Nat}

/-- The next flush LSN is below all ongoing flushes, which are those of main disk slices
and of committed streaming transactions. -/
structure FlushInv (t : MooncakeTable Row) : Prop where
  next_lt : ∀ n, t.nextSnapshotTask.newFlushLsn = some n → ∀ l ∈ t.ongoingFlushLsns, n < l
  tracked : t.ongoingFlushLsns.Perm
    (t.flushingDiskSlices ++ t.transactionStreamStates.flatMapValues (·.committedFlushes))

/-- Two tables agree on everything that concerns LSNs of flushes and snapshots. -/
structure SameLsns (t t' : MooncakeTable Row) : Prop where
  next : t'.nextSnapshotTask.newFlushLsn = t.nextSnapshotTask.newFlushLsn
  last : t'.lastFlushLsn = t.lastFlushLsn
  ongoing : t'.ongoingFlushLsns = t.ongoingFlushLsns
  completed : t'.completedUnrecordedFlushLsns = t.completedUnrecordedFlushLsns
  flushing : t'.flushingDiskSlices = t.flushingDiskSlices
  streams : t'.transactionStreamStates = t.transactionStreamStates
  baseline : t'.nextSnapshotTask.commitLsnBaseline = t.nextSnapshotTask.commitLsnBaseline
  taken : t'.snapshotFlushLsn = t.snapshotFlushLsn
  panicked : t'.snapshotPanicked = t.snapshotPanicked

namespace SameLsns

theorem flushLsns {p : Nat → Prop} (h : SameLsns t t') (hall : FlushLsns p t) : FlushLsns p t' where
  next := by rw [h.next]; exact hall.next
  last := by rw [h.last]; exact hall.last
  ongoing := by rw [h.ongoing]; exact hall.ongoing
  completed := by rw [h.completed]; exact hall.completed

theorem flushesAbove {f : Nat} (h : SameLsns t t') (habove : FlushesAbove f t) :
    FlushesAbove f t' where
  next := by rw [h.next]; exact habove.next
  ongoing := by rw [h.ongoing]; exact habove.ongoing

theorem flushInv (h : SameLsns t t') (hinv : FlushInv t) : FlushInv t' where
  next_lt := by rw [h.next, h.ongoing]; exact hinv.next_lt
  tracked := by rw [h.ongoing, h.flushing, h.streams]; exact hinv.tracked

end SameLsns

/-- What flushes and streaming transactions change of a table before they are committed. -/
structure Bookkeeping (Row : Type) where
  memRows : Nat
  newFlushLsn : Option Nat
  newDiskSlices : Bool
  newStreamingXact : Bool
  transactionStreamStates : AssocMap XactId (TransactionStreamState Row)
  ongoingFlushLsns : List Nat
  flushingDiskSlices : List Nat
  completedUnrecordedFlushLsns : List Nat
  lastFlushLsn : Option Nat

/-- The table with other bookkeeping and the same contents. -/
def withBookkeeping (t : MooncakeTable Row) (k : Bookkeeping Row) : MooncakeTable Row :=
  { t with
    memRows := k.memRows
    nextSnapshotTask := { t.nextSnapshotTask with
      newFlushLsn := k.newFlushLsn
      newDiskSlices := k.newDiskSlices
      newStreamingXact := k.newStreamingXact }
    transactionStreamStates := k.transactionStreamStates
    ongoingFlushLsns := k.ongoingFlushLsns
    flushingDiskSlices := k.flushingDiskSlices
    completedUnrecordedFlushLsns := k.completedUnrecordedFlushLsns
    lastFlushLsn := k.lastFlushLsn }

def bookkeeping (t : MooncakeTable Row) : Bookkeeping Row :=
  { t with
    newFlushLsn := t.nextSnapshotTask.newFlushLsn
    newDiskSlices := t.nextSnapshotTask.newDiskSlices
    newStreamingXact := t.nextSnapshotTask.newStreamingXact }

def SameContents (t t' : MooncakeTable Row) : Prop := t' = t.withBookkeeping t'.bookkeeping

theorem SameContents.trans {t₁ t₂ t₃ : MooncakeTable Row} (h : SameContents t₁ t₂)
    (h' : SameContents t₂ t₃) : SameContents t₁ t₃ := by
  unfold SameContents at *
  rw [h', h]
  rfl

theorem SameContents.wal (h : SameContents t t') : t'.wal = t.wal := by
  rw [h]
  rfl

theorem SameContents.uncommitted (h : SameContents t t') : t'.uncommitted = t.uncommitted := by
  rw [h]
  rfl

/-- A step of flush bookkeeping under `lsn`, which adds no other flush LSN. -/
structure FlushStep (lsn : Nat) (t t' : MooncakeTable Row) : Prop where
  contents : SameContents t t'
  streams : t'.transactionStreamStates = t.transactionStreamStates
  inv : FlushInv t'
  lsns : ∀ p : Nat → Prop, p lsn → FlushLsns p t → FlushLsns p t'
  above : ∀ f, f < lsn → FlushesAbove f t → FlushesAbove f t'

namespace NextFlush

variable {n : Option Nat} {c : List Nat}

theorem lt (h : NextFlush t lsn n c)
    (hlt : ∀ n, t.nextSnapshotTask.newFlushLsn = some n → ∀ l ∈ t.ongoingFlushLsns, n < l) :
    ∀ k, n = some k → ∀ l ∈ t.ongoingFlushLsns, k < l := by
  cases h with
  | waits => exact hlt
  | set hset =>
    rintro k ⟨⟩
    exact hset
  | catchUp hnone =>
    rw [hnone]
    simp

theorem next {p : Nat → Prop} (h : NextFlush t lsn n c) (hp : p lsn) (hall : FlushLsns p t) :
    ∀ k, n = some k → p k := by
  cases h with
  | waits => exact hall.next
  | set =>
    rintro k ⟨⟩
    exact hp
  | catchUp _ hmem =>
    rintro k ⟨⟩
    rw [Nat.max_def]
    split
    · exact hp
    · exact hall.completed _ hmem

theorem completed {p : Nat → Prop} (h : NextFlush t lsn n c) (hp : p lsn) (hall : FlushLsns p t) :
    ∀ l ∈ c, p l := by
  cases h with
  | waits =>
    rw [List.forall_mem_append]
    exact ⟨hall.completed, by simpa using hp⟩
  | set => exact hall.completed
  | catchUp => simp

theorem above {f : Nat} (h : NextFlush t lsn n c) (hf : f < lsn) (habove : FlushesAbove f t) :
    ∀ k, n = some k → f < k := by
  cases h with
  | waits => exact habove.next
  | set =>
    rintro k ⟨⟩
    exact hf
  | catchUp =>
    rintro k ⟨⟩
    exact Nat.lt_of_lt_of_le hf (Nat.le_max_right _ _)

end NextFlush

theorem trySetNextFlushLsn_step (hinv : FlushInv t)
    (hle : ∀ n, t.nextSnapshotTask.newFlushLsn = some n → n ≤ lsn) :
    Returns (t.trySetNextFlushLsn lsn) (FlushStep lsn t) := by
  refine Returns.mono (trySetNextFlushLsn_returns hle) ?_
  rintro t' ⟨n, c, rfl, hnext⟩
  exact {
    contents := rfl
    streams := rfl
    inv := ⟨hnext.lt hinv.next_lt, hinv.tracked⟩
    lsns := fun p hp hall => ⟨hnext.next hp hall, hall.last, hall.ongoing, hnext.completed hp hall⟩
    above := fun f hf habove => ⟨hnext.above hf habove, habove.ongoing⟩ }

/-- A completed flush is taken off the ongoing ones and recorded. -/
theorem addDiskSlice_returns (hmem : lsn ∈ t.ongoingFlushLsns)
    (hlt : ∀ n, t.nextSnapshotTask.newFlushLsn = some n → ∀ l ∈ t.ongoingFlushLsns, n < l)
    (htracked : (t.ongoingFlushLsns.erase lsn).Perm
      (t.flushingDiskSlices ++ t.transactionStreamStates.flatMapValues (·.committedFlushes))) :
    Returns (t.addDiskSlice lsn) (FlushStep lsn t) := by
  unfold addDiskSlice removeOngoingFlushLsn
  refine Returns.bind (P := fun t₁ => t₁ = { t with ongoingFlushLsns := t.ongoingFlushLsns.erase lsn })
    ?_ ?_
  · exact Returns.bind (P := fun _ => True)
      ⟨(), assert_eq_ok_iff.mpr (List.contains_iff_mem.mpr hmem), trivial⟩
      (fun _ _ => Returns.pure rfl)
  · rintro t₁ rfl
    have hsub : ∀ l ∈ t.ongoingFlushLsns.erase lsn, l ∈ t.ongoingFlushLsns :=
      fun l => List.mem_of_mem_erase
    have hinv : FlushInv { t with ongoingFlushLsns := t.ongoingFlushLsns.erase lsn } :=
      ⟨fun n hn l hl => hlt n hn l (hsub l hl), htracked⟩
    refine Returns.bind (trySetNextFlushLsn_step hinv fun n hn => Nat.le_of_lt (hlt n hn lsn hmem)) ?_
    intro t₂ hstep
    refine Returns.pure ?_
    have hlsns : ∀ p : Nat → Prop, FlushLsns p t →
        FlushLsns p { t with ongoingFlushLsns := t.ongoingFlushLsns.erase lsn } :=
      fun p hall => ⟨hall.next, hall.last, fun l hl => hall.ongoing l (hsub l hl), hall.completed⟩
    exact {
      contents := hstep.contents.trans rfl
      streams := hstep.streams
      inv := ⟨hstep.inv.next_lt, hstep.inv.tracked⟩
      lsns := fun p hp hall =>
        have h := hstep.lsns p hp (hlsns p hall)
        ⟨h.next, h.last, h.ongoing, h.completed⟩
      above := fun a ha habove =>
        have h := hstep.above a ha ⟨habove.next, fun l hl => habove.ongoing l (hsub l hl)⟩
        ⟨h.next, h.ongoing⟩ }

theorem applyFlushResult_returns (hinv : FlushInv t) (hmem : lsn ∈ t.flushingDiskSlices) :
    Returns (t.applyFlushResult lsn) (FlushStep lsn t) := by
  have hongoing : lsn ∈ t.ongoingFlushLsns :=
    hinv.tracked.mem_iff.mpr (List.mem_append_left _ hmem)
  unfold applyFlushResult
  refine Returns.mono (addDiskSlice_returns hongoing hinv.next_lt ?_) ?_
  · rw [← List.erase_append_left _ hmem]
    exact hinv.tracked.erase lsn
  · intro t' hstep
    have hcontents : SameContents t
        { t with flushingDiskSlices := t.flushingDiskSlices.erase lsn } := rfl
    exact { hstep with
      contents := hcontents.trans hstep.contents
      lsns := fun p hp hall => hstep.lsns p hp ⟨hall.next, hall.last, hall.ongoing, hall.completed⟩
      above := fun a ha habove => hstep.above a ha ⟨habove.next, habove.ongoing⟩ }

theorem insertOngoingFlushLsn_returns (hlast : ∀ n, t.lastFlushLsn = some n → n ≤ lsn)
    (count : Nat) : Returns (t.insertOngoingFlushLsn lsn count) fun t' =>
      t' = { t with
        ongoingFlushLsns := t.ongoingFlushLsns ++ List.replicate count lsn
        lastFlushLsn := some lsn } := by
  have hassert : decide (t.getLastFlushLsn ≤ lsn) = true := by
    unfold getLastFlushLsn
    cases hn : t.lastFlushLsn with
    | none => simp
    | some n => simpa using hlast n hn
  unfold insertOngoingFlushLsn
  exact Returns.bind (P := fun _ => True) ⟨(), assert_eq_ok_iff.mpr hassert, trivial⟩
    (fun _ _ => Returns.pure rfl)

/-- With no open main transaction, a flush above all earlier flush LSNs changes only the
flush bookkeeping. -/
theorem flush_returns (hinv : FlushInv t) (hclosed : t.uncommitted = [])
    (hlt : FlushLsns (· < lsn) t) : Returns (t.flush lsn) (FlushStep lsn t) := by
  have hle : ∀ n, t.nextSnapshotTask.newFlushLsn = some n → n ≤ lsn :=
    fun n hn => Nat.le_of_lt (hlt.next n hn)
  have hassert : t.nextSnapshotTask.newFlushLsn.all (· ≤ lsn) = true := by
    cases hn : t.nextSnapshotTask.newFlushLsn with
    | none => rfl
    | some n => simpa using hle n hn
  unfold flush
  refine Returns.bind (P := fun _ => True) ⟨(), assert_eq_ok_iff.mpr hassert, trivial⟩ ?_
  intro _ _
  split
  · exact trySetNextFlushLsn_step hinv hle
  · have hprep : t.prepareDiskSlice lsn = { t with memRows := 0 } := by
      unfold prepareDiskSlice
      simp [hclosed]
    rw [hprep]
    refine Returns.bind (insertOngoingFlushLsn_returns (t := { t with memRows := 0 })
      (fun n hn => Nat.le_of_lt (hlt.last n hn)) 1) ?_
    rintro t₁ rfl
    refine Returns.pure ?_
    exact {
      contents := rfl
      streams := rfl
      inv := {
        next_lt := fun n hn => List.forall_mem_append.mpr
          ⟨hinv.next_lt n hn, by simpa using hlt.next n hn⟩
        tracked := (hinv.tracked.append_right [lsn]).trans (by
          simp only [List.append_assoc]
          exact List.perm_append_comm.append_left _) }
      lsns := fun p hp hall => ⟨hall.next, by rintro n ⟨⟩; exact hp,
        List.forall_mem_append.mpr ⟨hall.ongoing, by simpa using hp⟩, hall.completed⟩
      above := fun f hf habove => ⟨habove.next,
        List.forall_mem_append.mpr ⟨habove.ongoing, by simpa using hf⟩⟩ }

/-! ## The main transaction -/

theorem commit_returns (hbaseline : t.nextSnapshotTask.commitLsnBaseline ≤ lsn)
    (hdeletion : ∀ d, t.nextSnapshotTask.lastDeletionLsn = some d → d < lsn) :
    t.commit lsn = .ok { t with
      applied := t.applied ++ [⟨.main, lsn, t.uncommitted⟩]
      uncommitted := []
      nextSnapshotTask := { t.nextSnapshotTask with commitLsnBaseline := lsn } } := by
  have hall : t.nextSnapshotTask.lastDeletionLsn.all (· < lsn) = true := by
    cases hd : t.nextSnapshotTask.lastDeletionLsn with
    | none => rfl
    | some d => simpa using hdeletion d hd
  unfold commit
  simp only [Moonlink.assert, decide_eq_true hbaseline, hall, if_true, ok_bind]
  rfl

/-! ## Streaming transactions -/

/-- The changes of a streaming transaction that is still open. -/
def pendingOps (t : MooncakeTable Row) (x : XactId) : Option (List (RowOp Row)) :=
  (t.transactionStreamStates.lookup x).bind fun st =>
    if st.status = .pending then some st.ops else none

theorem pendingOps_eq_some_iff {x : XactId} {ops : List (RowOp Row)} :
    t.pendingOps x = some ops ↔
      ∃ st, t.transactionStreamStates.lookup x = some st ∧ st.status = .pending ∧ st.ops = ops := by
  unfold pendingOps
  cases t.transactionStreamStates.lookup x with
  | none => simp
  | some st =>
    by_cases hst : st.status = .pending
    · simp [hst]
    · simp [hst]

theorem lookup_ne_none {x : XactId} (h : t.pendingOps x ≠ none) :
    t.transactionStreamStates.lookup x ≠ none := by
  intro hnone
  unfold pendingOps at h
  rw [hnone] at h
  exact h rfl

/-- A step of the streaming transactions after which `ops` are the open ones. It changes
no flush LSN, and no transaction becomes known that is not open. -/
structure StreamStep (ops : XactId → Option (List (RowOp Row))) (t t' : MooncakeTable Row) :
    Prop where
  contents : SameContents t t'
  inv : FlushInv t'
  lsns : ∀ p : Nat → Prop, FlushLsns p t → FlushLsns p t'
  above : ∀ f, FlushesAbove f t → FlushesAbove f t'
  pending : t'.pendingOps = ops
  known : ∀ x, t'.transactionStreamStates.lookup x ≠ none →
    t.transactionStreamStates.lookup x ≠ none ∨ ops x ≠ none

section Streams

variable {x : XactId} {st st' : TransactionStreamState Row}

theorem pendingOps_insert (t : MooncakeTable Row) (x : XactId) (st : TransactionStreamState Row) :
    (t.setStreamState x st).pendingOps =
      Function.update t.pendingOps x (if st.status = .pending then some st.ops else none) := by
  funext y
  unfold pendingOps setStreamState
  by_cases hy : y = x
  · subst hy
    simp
  · rw [AList.lookup_insert_ne hy, Function.update_of_ne hy]

theorem pendingOps_erase (t : MooncakeTable Row) (x : XactId) :
    { t with transactionStreamStates := t.transactionStreamStates.erase x }.pendingOps =
      Function.update t.pendingOps x none := by
  funext y
  unfold pendingOps
  by_cases hy : y = x
  · subst hy
    simp
  · rw [AList.lookup_erase_ne hy, Function.update_of_ne hy]

/-- Replacing a state by one with the same ongoing commit flushes. -/
theorem FlushInv.setStreamState (hinv : FlushInv t)
    (hold : ∀ old, t.transactionStreamStates.lookup x = some old →
      old.committedFlushes = st.committedFlushes)
    (hnew : t.transactionStreamStates.lookup x = none → st.committedFlushes = []) :
    FlushInv (t.setStreamState x st) := by
  refine ⟨hinv.next_lt, hinv.tracked.trans (List.Perm.append_left _ ?_)⟩
  unfold MooncakeTable.setStreamState
  rw [AssocMap.flatMapValues_insert]
  cases hlook : t.transactionStreamStates.lookup x with
  | none =>
    rw [hnew hlook, AssocMap.flatMapValues_erase_of_none _ hlook]
    rfl
  | some old =>
    rw [← hold old hlook]
    exact AssocMap.flatMapValues_erase _ hlook

theorem StreamStep_setStreamState (hinv : FlushInv t)
    (hold : ∀ old, t.transactionStreamStates.lookup x = some old → old.status = .pending)
    (st : TransactionStreamState Row) (hst : st.status = .pending) :
    StreamStep (Function.update t.pendingOps x (some st.ops)) t (t.setStreamState x st) where
  contents := rfl
  inv := hinv.setStreamState
    (fun old hlook => by simp [TransactionStreamState.committedFlushes, hold old hlook, hst])
    (fun _ => by simp [TransactionStreamState.committedFlushes, hst])
  lsns _ hall := ⟨hall.next, hall.last, hall.ongoing, hall.completed⟩
  above _ habove := ⟨habove.next, habove.ongoing⟩
  pending := by rw [pendingOps_insert, if_pos hst]
  known y hy := by
    by_cases hyx : y = x
    · subst hyx
      exact .inr (by simp)
    · unfold MooncakeTable.setStreamState at hy
      rw [AList.lookup_insert_ne hyx] at hy
      exact .inl hy

theorem StreamStep.trans {ops ops' : XactId → Option (List (RowOp Row))} {t₁ t₂ t₃ : MooncakeTable Row}
    (h : StreamStep ops t₁ t₂) (h' : StreamStep ops' t₂ t₃) (hsub : ∀ x, ops x ≠ none → ops' x ≠ none) :
    StreamStep ops' t₁ t₃ where
  contents := h.contents.trans h'.contents
  inv := h'.inv
  lsns p hall := h'.lsns p (h.lsns p hall)
  above f habove := h'.above f (h.above f habove)
  pending := h'.pending
  known x hx := by
    rcases h'.known x hx with hk | hk
    · rcases h.known x hk with hk' | hk'
      · exact .inl hk'
      · exact .inr (hsub x hk')
    · exact .inr hk

theorem getStreamState_returns (hlook : t.transactionStreamStates.lookup x = some st) :
    t.getStreamState x = .ok st := by
  unfold getStreamState
  rw [hlook]

theorem shouldTransactionFlush_returns (hlook : t.transactionStreamStates.lookup x = some st) :
    t.shouldTransactionFlush x = .ok (decide (t.memSliceSize ≤ st.memRows)) := by
  unfold shouldTransactionFlush
  rw [getStreamState_returns hlook]
  rfl

/-- The state that a row of an open or new transaction is added to. -/
theorem getOrCreateStreamState_spec
    (hold : ∀ old, t.transactionStreamStates.lookup x = some old → old.status = .pending) :
    (t.getOrCreateStreamState x).status = .pending ∧
      (t.getOrCreateStreamState x).ops = (t.pendingOps x).getD [] := by
  unfold getOrCreateStreamState pendingOps
  cases hlook : t.transactionStreamStates.lookup x with
  | none => exact ⟨rfl, rfl⟩
  | some old => simp [hold old hlook]

theorem appendInStreamBatch_step (hinv : FlushInv t)
    (hold : ∀ old, t.transactionStreamStates.lookup x = some old → old.status = .pending)
    (row : Row) :
    StreamStep (Function.update t.pendingOps x (some ((t.pendingOps x).getD [] ++ [.append row]))) t
      (t.appendInStreamBatch row x) := by
  obtain ⟨hstatus, hops⟩ := getOrCreateStreamState_spec hold
  unfold appendInStreamBatch
  rw [← hops]
  exact StreamStep_setStreamState hinv hold
    { t.getOrCreateStreamState x with
      ops := (t.getOrCreateStreamState x).ops ++ [.append row]
      memRows := (t.getOrCreateStreamState x).memRows + 1 } hstatus

theorem deleteInStreamBatch_step (hinv : FlushInv t)
    (hold : ∀ old, t.transactionStreamStates.lookup x = some old → old.status = .pending)
    (hidentity : t.appendOnly = false) (row : Row) :
    StreamStep (Function.update t.pendingOps x (some ((t.pendingOps x).getD [] ++ [.delete row false])))
      t (t.deleteInStreamBatch row x) := by
  obtain ⟨hstatus, hops⟩ := getOrCreateStreamState_spec hold
  unfold deleteInStreamBatch
  rw [← hops, if_neg (by simp [hidentity])]
  exact StreamStep_setStreamState hinv hold
    { t.getOrCreateStreamState x with
      ops := (t.getOrCreateStreamState x).ops ++ [.delete row false] } hstatus

theorem flushStream_returns (hinv : FlushInv t)
    (hlook : t.transactionStreamStates.lookup x = some st) (hst : st.status = .pending) :
    Returns (t.flushStream x) (StreamStep t.pendingOps t) := by
  unfold flushStream
  rw [getStreamState_returns hlook]
  refine Returns.pure ?_
  have hstep := StreamStep_setStreamState (x := x) hinv
    (fun old hold => by rw [hlook] at hold; cases hold; exact hst)
    { st with memRows := 0, ongoingFlushCount := st.ongoingFlushCount + 1 } hst
  have hsome : t.pendingOps x = some st.ops := pendingOps_eq_some_iff.mpr ⟨st, hlook, hst, rfl⟩
  have hself : Function.update t.pendingOps x (some st.ops) = t.pendingOps := by
    rw [← hsome, Function.update_eq_self]
  rw [hself] at hstep
  exact hstep

/-! ### Ending a transaction -/

/-- The states `m` after the state of `x`, which is not pending any more, was replaced by
`st` or removed. -/
structure Ended (t : MooncakeTable Row) (x : XactId) (st : TransactionStreamState Row)
    (m : AssocMap XactId (TransactionStreamState Row)) : Prop where
  pending : { t with transactionStreamStates := m }.pendingOps = Function.update t.pendingOps x none
  flushes : m.flatMapValues (·.committedFlushes) = st.committedFlushes ++
    AssocMap.flatMapValues (·.committedFlushes) (t.transactionStreamStates.erase x)
  known : ∀ y, m.lookup y ≠ none → y = x ∨ t.transactionStreamStates.lookup y ≠ none

theorem Ended_insert (t : MooncakeTable Row) (x : XactId) (st : TransactionStreamState Row)
    (hst : st.status ≠ .pending) : Ended t x st (t.transactionStreamStates.insert x st) where
  pending := by
    have h := pendingOps_insert t x st
    rwa [if_neg hst] at h
  flushes := AssocMap.flatMapValues_insert _ _ _ _
  known y hy := by
    by_cases hyx : y = x
    · exact .inl hyx
    · rw [AList.lookup_insert_ne hyx] at hy
      exact .inr hy

theorem Ended_erase (t : MooncakeTable Row) (x : XactId) (st : TransactionStreamState Row)
    (hnil : st.committedFlushes = []) : Ended t x st (t.transactionStreamStates.erase x) where
  pending := pendingOps_erase t x
  flushes := by
    rw [hnil]
    rfl
  known y hy := by
    by_cases hyx : y = x
    · exact .inl hyx
    · rw [AList.lookup_erase_ne hyx] at hy
      exact .inr hy

theorem removeIfFlushed_spec (t : MooncakeTable Row) (x : XactId) (st : TransactionStreamState Row)
    (hst : st.status ≠ .pending) :
    ∃ m, t.removeIfFlushed x st = { t with transactionStreamStates := m } ∧ Ended t x st m := by
  unfold removeIfFlushed
  split
  · rename_i hzero
    refine ⟨_, rfl, Ended_erase t x st ?_⟩
    unfold TransactionStreamState.committedFlushes
    split
    · rw [hzero]
      rfl
    · rfl
  · exact ⟨_, rfl, Ended_insert t x st hst⟩

theorem abortInStreamBatch_returns (hinv : FlushInv t)
    (hlook : t.transactionStreamStates.lookup x = some st) (hst : st.status = .pending) :
    Returns (t.abortInStreamBatch x) (StreamStep (Function.update t.pendingOps x none) t) := by
  obtain ⟨m, hm, hended⟩ := removeIfFlushed_spec t x { st with status := .aborted } (by simp)
  have htracked := AssocMap.flatMapValues_erase (·.committedFlushes) hlook
  rw [show st.committedFlushes = [] by simp [TransactionStreamState.committedFlushes, hst]]
    at htracked
  unfold abortInStreamBatch
  rw [getStreamState_returns hlook]
  simp only [ok_bind, hm]
  refine Returns.pure ?_
  exact {
    contents := rfl
    inv := ⟨hinv.next_lt, by
      rw [hended.flushes]
      exact hinv.tracked.trans (htracked.append_left _)⟩
    lsns := fun p hall => ⟨hall.next, hall.last, hall.ongoing, hall.completed⟩
    above := fun f habove => ⟨habove.next, habove.ongoing⟩
    pending := hended.pending
    known := fun y hy => .inl (by
      rcases hended.known y hy with rfl | h
      · simp [hlook]
      · exact h) }

/-- The table after the commit of a streaming transaction, up to its states. -/
def withStreamCommit (t : MooncakeTable Row) (x : XactId) (lsn : Nat) (st : TransactionStreamState Row) :
    MooncakeTable Row :=
  { t with
    applied := t.applied ++ [⟨.stream x, lsn, st.ops⟩]
    transactionStreamStates := t.transactionStreamStates.insert x
      { st with memRows := 0, status := .committed lsn, ongoingFlushCount := st.ongoingFlushCount + 1 }
    nextSnapshotTask := { t.nextSnapshotTask with commitLsnBaseline := lsn, newStreamingXact := true }
    ongoingFlushLsns := t.ongoingFlushLsns ++ List.replicate (st.ongoingFlushCount + 1) lsn
    lastFlushLsn := some lsn }

theorem commitTransactionStream_returns (lsn : Nat)
    (hlook : t.transactionStreamStates.lookup x = some st)
    (hlast : ∀ n, t.lastFlushLsn = some n → n ≤ lsn)
    (hbaseline : t.nextSnapshotTask.commitLsnBaseline ≤ lsn) :
    t.commitTransactionStream x lsn = .ok (t.withStreamCommit x lsn st) := by
  obtain ⟨t₁, ht₁, rfl⟩ := insertOngoingFlushLsn_returns hlast (st.ongoingFlushCount + 1)
  unfold commitTransactionStream
  rw [getStreamState_returns hlook]
  simp only [ok_bind, ht₁]
  simp [Moonlink.assert, hbaseline]
  rfl

theorem FlushInv.withStreamCommit (hinv : FlushInv t)
    (hlook : t.transactionStreamStates.lookup x = some st) (hst : st.status = .pending)
    (hlt : FlushLsns (· < lsn) t) : FlushInv (t.withStreamCommit x lsn st) := by
  have htracked := AssocMap.flatMapValues_erase (·.committedFlushes) hlook
  rw [show st.committedFlushes = [] by simp [TransactionStreamState.committedFlushes, hst]]
    at htracked
  refine ⟨fun n hn => List.forall_mem_append.mpr ⟨hinv.next_lt n hn, ?_⟩, ?_⟩
  · intro l hl
    rw [List.eq_of_mem_replicate hl]
    exact hlt.next n hn
  · unfold MooncakeTable.withStreamCommit
    simp only [AssocMap.flatMapValues_insert]
    refine ((hinv.tracked.trans (htracked.append_left _)).append_right _).trans ?_
    rw [List.append_assoc]
    exact List.perm_append_comm.append_left _

theorem FlushLsns.withStreamCommit {p : Nat → Prop} (hall : FlushLsns p t) (hp : p lsn) :
    FlushLsns p (t.withStreamCommit x lsn st) where
  next := hall.next
  last := by
    rintro n ⟨⟩
    exact hp
  ongoing := by
    refine List.forall_mem_append.mpr ⟨hall.ongoing, ?_⟩
    intro l hl
    rwa [List.eq_of_mem_replicate hl]
  completed := hall.completed

theorem FlushesAbove.withStreamCommit {f : Nat} (habove : FlushesAbove f t) (hf : f < lsn) :
    FlushesAbove f (t.withStreamCommit x lsn st) where
  next := habove.next
  ongoing := by
    refine List.forall_mem_append.mpr ⟨habove.ongoing, ?_⟩
    intro l hl
    rwa [List.eq_of_mem_replicate hl]

theorem pendingOps_withStreamCommit :
    (t.withStreamCommit x lsn st).pendingOps = Function.update t.pendingOps x none :=
  (Ended_insert t x { st with
    memRows := 0
    status := .committed lsn
    ongoingFlushCount := st.ongoingFlushCount + 1 } (by simp)).pending

/-- The flush of a streaming transaction completes, in any state of the transaction. -/
theorem applyStreamFlushResult_returns (hinv : FlushInv t)
    (hlook : t.transactionStreamStates.lookup x = some st) (hcount : 0 < st.ongoingFlushCount) :
    Returns (t.applyStreamFlushResult x) (StreamStep t.pendingOps t) := by
  have hknown : t.transactionStreamStates.lookup x ≠ none := by simp [hlook]
  have htracked := AssocMap.flatMapValues_erase (·.committedFlushes) hlook
  unfold applyStreamFlushResult
  rw [getStreamState_returns hlook]
  simp only [ok_bind]
  unfold applyStreamDiskSlice
  cases hst : st.status with
  | pending =>
    refine Returns.ok ?_
    have hsome : t.pendingOps x = some st.ops := pendingOps_eq_some_iff.mpr ⟨st, hlook, hst, rfl⟩
    have hstep := StreamStep_setStreamState (x := x) hinv
      (fun old hold => by rw [hlook] at hold; cases hold; exact hst)
      { st with status := .pending, ongoingFlushCount := st.ongoingFlushCount - 1 } rfl
    simp only [← hsome, Function.update_eq_self] at hstep
    exact hstep
  | aborted =>
    have hnone : t.pendingOps x = none := by simp [pendingOps, hlook, hst]
    obtain ⟨m, hm, hended⟩ := removeIfFlushed_spec t x
      { st with status := .aborted, ongoingFlushCount := st.ongoingFlushCount - 1 } (by simp)
    rw [show st.committedFlushes = [] by simp [TransactionStreamState.committedFlushes, hst]]
      at htracked
    refine Returns.ok ?_
    rw [hm]
    exact {
      contents := rfl
      inv := ⟨hinv.next_lt, by
        simp only [hended.flushes]
        exact hinv.tracked.trans (htracked.append_left _)⟩
      lsns := fun p hall => ⟨hall.next, hall.last, hall.ongoing, hall.completed⟩
      above := fun f habove => ⟨habove.next, habove.ongoing⟩
      pending := by rw [hended.pending, ← hnone, Function.update_eq_self]
      known := fun y hy => .inl (by
        rcases hended.known y hy with rfl | h
        · exact hknown
        · exact h) }
  | committed commitLsn =>
    have hnone : t.pendingOps x = none := by simp [pendingOps, hlook, hst]
    obtain ⟨m, hm, hended⟩ := removeIfFlushed_spec t x
      { st with
        status := .committed commitLsn
        ongoingFlushCount := st.ongoingFlushCount - 1 } (by simp)
    have hcons : st.committedFlushes =
        commitLsn :: List.replicate (st.ongoingFlushCount - 1) commitLsn := by
      obtain ⟨c, hc⟩ := Nat.exists_eq_succ_of_ne_zero (Nat.pos_iff_ne_zero.mp hcount)
      simp [TransactionStreamState.committedFlushes, hst, hc, List.replicate_succ]
    rw [hcons] at htracked
    have hperm := hinv.tracked.trans (htracked.append_left t.flushingDiskSlices)
    have hmem : commitLsn ∈ t.ongoingFlushLsns := hperm.mem_iff.mpr (by simp)
    simp only [hm]
    have hslice := addDiskSlice_returns
      (t := { t with transactionStreamStates := m }) hmem hinv.next_lt (by
        simp only [hended.flushes]
        refine (hperm.erase commitLsn).trans ?_
        refine (List.perm_middle.erase commitLsn).trans ?_
        rw [List.erase_cons_head]
        rfl)
    refine Returns.mono hslice ?_
    intro t' hstep
    have hcontents : SameContents t { t with transactionStreamStates := m } := rfl
    have hpend : t'.pendingOps = { t with transactionStreamStates := m }.pendingOps := by
      funext y
      simp only [pendingOps, hstep.streams]
    exact {
      contents := hcontents.trans hstep.contents
      inv := hstep.inv
      lsns := fun p hall => hstep.lsns p (hall.ongoing _ hmem)
        ⟨hall.next, hall.last, hall.ongoing, hall.completed⟩
      above := fun f habove => hstep.above f (habove.ongoing _ hmem) ⟨habove.next, habove.ongoing⟩
      pending := by rw [hpend, hended.pending, ← hnone, Function.update_eq_self]
      known := fun y hy => .inl (by
        rw [hstep.streams] at hy
        rcases hended.known y hy with rfl | h
        · exact hknown
        · exact h) }

end Streams

/-! ## From any state

Without assumptions on the flushes an operation may panic. If it does not, it still
changes only its own part of the table. -/

section AnyState

variable {x : XactId}

theorem trySetNextFlushLsn_sameContents : Ensures (t.trySetNextFlushLsn lsn) (SameContents t) := by
  have hrecord : Ensures (t.recordFlushLsn lsn) (SameContents t) := by
    unfold recordFlushLsn
    split
    · exact Ensures.bind_any fun _ => Ensures.pure rfl
    · exact Ensures.ok rfl
  refine Ensures.bind hrecord ?_
  intro t₁ ht₁
  unfold recordCompletedFlushLsns
  split
  · split
    · exact Ensures.ok ht₁
    · exact Ensures.error
    · exact Ensures.ok (ht₁.trans rfl)
  · exact Ensures.ok ht₁

theorem addDiskSlice_sameContents : Ensures (t.addDiskSlice lsn) (SameContents t) := by
  have hremove : Ensures (t.removeOngoingFlushLsn lsn) (SameContents t) :=
    Ensures.bind_any fun _ => Ensures.pure rfl
  refine Ensures.bind hremove ?_
  intro t₁ ht₁
  refine Ensures.bind trySetNextFlushLsn_sameContents ?_
  intro t₂ ht₂
  exact Ensures.pure (ht₁.trans (ht₂.trans rfl))

theorem applyFlushResult_sameContents : Ensures (t.applyFlushResult lsn) (SameContents t) := by
  intro t' ht'
  have hslice : SameContents t { t with flushingDiskSlices := t.flushingDiskSlices.erase lsn } := rfl
  exact hslice.trans (addDiskSlice_sameContents t' ht')

/-- A flush may first drain the mem slice. -/
theorem flush_sameContents : Ensures (t.flush lsn) fun t' =>
    SameContents t t' ∨ SameContents (t.prepareDiskSlice lsn) t' := by
  refine Ensures.bind_any fun _ => ?_
  split
  · exact fun t' ht' => .inl (trySetNextFlushLsn_sameContents t' ht')
  · have hinsert : Ensures ((t.prepareDiskSlice lsn).insertOngoingFlushLsn lsn 1)
        (SameContents (t.prepareDiskSlice lsn)) :=
      Ensures.bind_any fun _ => Ensures.pure rfl
    refine Ensures.bind hinsert ?_
    intro t₁ ht₁
    exact Ensures.pure (.inr (ht₁.trans rfl))

theorem flushStream_sameContents : Ensures (t.flushStream x) (SameContents t) :=
  Ensures.bind_any fun _ => Ensures.pure rfl

theorem removeIfFlushed_sameContents (st : TransactionStreamState Row) :
    SameContents t (t.removeIfFlushed x st) := by
  unfold removeIfFlushed
  split <;> rfl

theorem abortInStreamBatch_sameContents : Ensures (t.abortInStreamBatch x) (SameContents t) :=
  Ensures.bind_any fun _ => Ensures.pure ((removeIfFlushed_sameContents _).trans rfl)

theorem applyStreamFlushResult_sameContents :
    Ensures (t.applyStreamFlushResult x) (SameContents t) := by
  refine Ensures.bind_any fun st => ?_
  unfold applyStreamDiskSlice
  split
  · exact fun t' ht' => (removeIfFlushed_sameContents _).trans (addDiskSlice_sameContents t' ht')
  · exact Ensures.ok (removeIfFlushed_sameContents _)
  · exact Ensures.ok rfl

end AnyState

end MooncakeTable
end Moonlink
