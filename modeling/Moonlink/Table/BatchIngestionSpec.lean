-- SUMMARY: The invariant of bulk ingestion, and that the LSN protocol is respected exactly by ingestions in order.
import Moonlink.Table.BatchIngestion

namespace Moonlink

open Lib

namespace IngestingTable

structure Inv (s : IngestingTable) : Prop where
  counts : ∀ lsn, (s.flushLsns.ongoingFlushLsns.lookup lsn).getD 0 = s.slices.countP (·.lsn = lsn)
  positive : ∀ lsn n, s.flushLsns.ongoingFlushLsns.lookup lsn = some n → 0 < n
  flushes : ∀ slice ∈ s.slices, s.flushLsn < slice.lsn ∧ slice.lsn ≤ s.flushLsns.getLastFlushLsn
  rows : ∀ c ∈ s.offDisk, s.flushLsn < c
  /-- A flush takes all rows that were committed before it. -/
  sliceRows : ∀ slice ∈ s.slices, ∀ slice' ∈ s.slices, slice'.lsn < slice.lsn →
    ∀ c ∈ slice.rows, slice'.lsn < c
  committedRows : ∀ c ∈ s.committedRows, s.flushLsns.getLastFlushLsn < c ∧ c ≤ s.lastCommitLsn
  aside : ∀ a ∈ s.flushLsns.completedUnrecordedFlushLsns,
    a ≤ s.lastCommitLsn ∧ ∀ c ∈ s.committedRows, a < c
  lastFlush : s.flushLsns.getLastFlushLsn ≤ s.lastCommitLsn
  flushLsn : s.flushLsn ≤ max s.lastCommitLsn s.ingestedLsn
  baseline : s.commitLsnBaseline ≤ max s.lastCommitLsn s.ingestedLsn
  ingested : s.ingestedLsn ≤ s.flushLsn ∧ s.ingestedLsn ≤ s.commitLsnBaseline
  lastCommit : s.lastCommitLsn ≤ max s.commitLsnBaseline s.flushLsn
  unflushed : ∀ lsn, s.lastUnflushedCommitLsn = some lsn →
    lsn = s.lastCommitLsn ∧ s.flushLsns.getLastFlushLsn < lsn
  flushed : s.lastUnflushedCommitLsn = none → s.committedRows = []
  bound : s.lastCommitLsn < u64Max

/-- The invariant is kept, and the LSNs do not decrease. -/
structure Keeps (s s' : IngestingTable) : Prop where
  inv : s'.Inv
  baseline : s.commitLsnBaseline ≤ s'.commitLsnBaseline
  flushLsn : s.flushLsn ≤ s'.flushLsn

variable {s s' s'' : IngestingTable} {lsn : Nat}

theorem Keeps.trans (h : Keeps s s') (h' : Keeps s' s'') : Keeps s s'' where
  inv := h'.inv
  baseline := h.baseline.trans h'.baseline
  flushLsn := h.flushLsn.trans h'.flushLsn

theorem Keeps.respects (h : Keeps s s') : Respects s s' where
  baseline := h.baseline
  flushLsn := h.flushLsn
  flushes := fun slice hslice => (h.inv.flushes slice hslice).1
  rows := h.inv.rows

theorem Inv.new {persistenceSnapshotLsn : Option Nat} (h : persistenceSnapshotLsn.getD 0 < u64Max) :
    (new persistenceSnapshotLsn).Inv where
  counts := fun _ => rfl
  positive := nofun
  flushes := nofun
  rows := nofun
  sliceRows := nofun
  committedRows := nofun
  aside := nofun
  lastFlush := Nat.zero_le _
  flushLsn := Nat.le_max_left _ _
  baseline := Nat.zero_le _
  ingested := ⟨Nat.zero_le _, Nat.zero_le _⟩
  lastCommit := Nat.le_max_right _ _
  unflushed := nofun
  flushed := fun _ => rfl
  bound := h

/-! ## Recording a flush LSN -/

theorem Inv.mem_ongoing_iff (h : s.Inv) :
    lsn ∈ s.flushLsns.ongoingFlushLsns ↔ ∃ slice ∈ s.slices, slice.lsn = lsn := by
  have hcount := h.counts lsn
  rw [← AList.lookup_isSome, Option.isSome_iff_exists]
  constructor
  · rintro ⟨n, hn⟩
    rw [hn, Option.getD_some] at hcount
    have hpos : 0 < s.slices.countP (·.lsn = lsn) := hcount ▸ h.positive lsn n hn
    obtain ⟨slice, hslice, heq⟩ := List.countP_pos_iff.mp hpos
    exact ⟨slice, hslice, of_decide_eq_true heq⟩
  · rintro ⟨slice, hslice, heq⟩
    have hpos : 0 < s.slices.countP (·.lsn = lsn) :=
      List.countP_pos_iff.mpr ⟨slice, hslice, decide_eq_true heq⟩
    cases hn : s.flushLsns.ongoingFlushLsns.lookup lsn with
    | none =>
      rw [hn, Option.getD_none] at hcount
      omega
    | some n => exact ⟨n, rfl⟩

theorem flushLsn_of_new {n : Nat} (h : s.flushLsns.newFlushLsn = some n) : s.flushLsn = n := by
  unfold IngestingTable.flushLsn
  rw [h]
  rfl

theorem newFlushLsn_le (h : s.flushLsn ≤ lsn) : s.flushLsns.newFlushLsn.all (· ≤ lsn) = true := by
  cases hnew : s.flushLsns.newFlushLsn with
  | none => rfl
  | some n =>
    rw [flushLsn_of_new hnew] at h
    exact decide_eq_true h

theorem Inv.withFlushLsns (h : s.Inv) {fl : FlushLsns} (hongoing : fl.ongoingFlushLsns = s.flushLsns.ongoingFlushLsns)
    (hlast : fl.lastFlushLsn = s.flushLsns.lastFlushLsn)
    (hge : s.flushLsn ≤ { s with flushLsns := fl }.flushLsn)
    (hle : { s with flushLsns := fl }.flushLsn ≤ max s.lastCommitLsn s.ingestedLsn)
    (hflushes : ∀ slice ∈ s.slices, { s with flushLsns := fl }.flushLsn < slice.lsn)
    (hrows : ∀ c ∈ s.offDisk, { s with flushLsns := fl }.flushLsn < c)
    (haside : ∀ a ∈ fl.completedUnrecordedFlushLsns, a ≤ s.lastCommitLsn ∧ ∀ c ∈ s.committedRows, a < c) :
    Keeps s { s with flushLsns := fl } := by
  have hlast' : fl.getLastFlushLsn = s.flushLsns.getLastFlushLsn := by
    unfold FlushLsns.getLastFlushLsn
    rw [hlast]
  refine ⟨?_, Nat.le_refl _, hge⟩
  exact { h with
    counts := by simpa only [hongoing] using h.counts
    positive := by simpa only [hongoing] using h.positive
    flushes := fun slice hslice => ⟨hflushes slice hslice, hlast' ▸ (h.flushes slice hslice).2⟩
    rows := hrows
    committedRows := fun c hc => ⟨hlast' ▸ (h.committedRows c hc).1, (h.committedRows c hc).2⟩
    aside := haside
    lastFlush := hlast' ▸ h.lastFlush
    flushLsn := hle
    ingested := ⟨h.ingested.1.trans hge, h.ingested.2⟩
    lastCommit := h.lastCommit.trans (max_le_max (Nat.le_refl _) hge)
    unflushed := fun l hl => ⟨(h.unflushed l hl).1, hlast' ▸ (h.unflushed l hl).2⟩ }

/-- The LSN of a flush that completed, or of one that had nothing to write. -/
theorem Inv.trySetNextFlushLsn (h : s.Inv) (hge : s.flushLsn ≤ lsn) (hle : lsn ≤ s.lastCommitLsn)
    (hslices : ∀ slice ∈ s.slices, lsn < slice.lsn → ∀ c ∈ slice.rows, lsn < c)
    (hcommitted : ∀ c ∈ s.committedRows, lsn < c) :
    Returns (s.flushLsns.trySetNextFlushLsn lsn) fun fl => Keeps s { s with flushLsns := fl } := by
  refine (FlushLsns.trySetNextFlushLsn_spec (Nat.lt_of_le_of_lt hle h.bound) (newFlushLsn_le hge)).mono ?_
  rintro fl ⟨hongoing, hlast, hrecorded⟩
  cases hrecorded with
  | drained hidle hnew haside =>
    -- Everything that was kept aside is recorded.
    have hslices : s.slices = [] := by
      rw [List.eq_nil_iff_forall_not_mem]
      intro slice hslice
      exact hidle _ (h.mem_ongoing_iff.mpr ⟨slice, hslice, rfl⟩)
    obtain ⟨n, hn⟩ : ∃ n, fl.newFlushLsn = some n := by
      rw [hnew, List.max?_cons]
      exact ⟨_, rfl⟩
    have hflush : { s with flushLsns := fl }.flushLsn = n := flushLsn_of_new hn
    obtain ⟨hmem, hmax⟩ := List.max?_eq_some_iff.mp (hnew.symm.trans hn)
    have hlsn : lsn ≤ n := hmax lsn List.mem_cons_self
    have hbound : n ≤ s.lastCommitLsn ∧ ∀ c ∈ s.committedRows, n < c := by
      rcases List.mem_cons.mp hmem with rfl | hmem
      · exact ⟨hle, hcommitted⟩
      · exact h.aside n hmem
    refine h.withFlushLsns hongoing hlast (hflush ▸ hge.trans hlsn) (hflush ▸ hbound.1.trans (Nat.le_max_left _ _))
      ?_ ?_ ?_
    · rw [hslices]
      exact nofun
    · intro c hc
      rw [offDisk, hslices] at hc
      simp only [List.flatMap_nil, List.append_nil] at hc
      rw [hflush]
      exact hbound.2 c hc
    · rw [haside]
      exact nofun
  | ahead habove _ hnew haside =>
    have hflush : { s with flushLsns := fl }.flushLsn = lsn := flushLsn_of_new hnew
    have hflushes : ∀ slice ∈ s.slices, lsn < slice.lsn := fun slice hslice =>
      habove _ (h.mem_ongoing_iff.mpr ⟨slice, hslice, rfl⟩)
    refine h.withFlushLsns hongoing hlast (hflush ▸ hge) (hflush ▸ hle.trans (Nat.le_max_left _ _)) ?_ ?_ ?_
    · rw [hflush]
      exact hflushes
    · intro c hc
      rw [hflush]
      rcases List.mem_append.mp hc with hc | hc
      · exact hcommitted c hc
      · obtain ⟨slice, hslice, hc⟩ := List.mem_flatMap.mp hc
        exact hslices slice hslice (hflushes slice hslice) c hc
    · rw [haside]
      exact h.aside
  | aside _ hnew haside =>
    have hflush : { s with flushLsns := fl }.flushLsn = s.flushLsn := by
      unfold IngestingTable.flushLsn
      rw [hnew]
    refine h.withFlushLsns hongoing hlast (hflush ▸ Nat.le_refl _) (hflush ▸ h.flushLsn) ?_ ?_ ?_
    · rw [hflush]
      exact fun slice hslice => (h.flushes slice hslice).1
    · rw [hflush]
      exact h.rows
    · intro a ha
      rw [haside] at ha
      rcases List.mem_insert_iff.mp ha with rfl | ha
      · exact ⟨hle, hcommitted⟩
      · exact h.aside a ha

/-! ## Starting and completing flushes -/

theorem Inv.setFlushed (h : s.Inv) (hrows : s.committedRows = []) :
    Inv { s with lastUnflushedCommitLsn := none } :=
  { h with
    unflushed := nofun
    flushed := fun _ => hrows }

/-- The counter of an LSN that is registered for new slices. -/
theorem Inv.insertOngoing (h : s.Inv) {count : Nat} (hlast : s.flushLsns.getLastFlushLsn < lsn)
    (hcount : count < 2 ^ 32) :
    s.flushLsns.insertOngoingFlushLsn lsn count = .ok { s.flushLsns with
      ongoingFlushLsns := s.flushLsns.ongoingFlushLsns.insert lsn count
      lastFlushLsn := some lsn } := by
  have hnone : s.flushLsns.ongoingFlushLsns.lookup lsn = none := by
    rw [← Option.not_isSome_iff_eq_none, AList.lookup_isSome, h.mem_ongoing_iff]
    rintro ⟨slice, hslice, rfl⟩
    exact absurd hlast (Nat.not_lt.mpr (h.flushes slice hslice).2)
  unfold FlushLsns.insertOngoingFlushLsn assert
  rw [if_pos (decide_eq_true hlast.le), ok_bind, hnone, Option.getD_none, Nat.zero_add, Nat.mod_eq_of_lt hcount]
  rfl

/-- New slices, which leave no committed rows in the mem slice. -/
def addSlices (s : IngestingTable) (fl : FlushLsns) (slices : List FlushingSlice) : IngestingTable :=
  { s with
    flushLsns := fl
    openRows := 0
    committedRows := []
    slices := s.slices ++ slices
    lastUnflushedCommitLsn := none }

theorem Inv.addSlices (h : s.Inv) (slices : List FlushingSlice) (fl : FlushLsns) {count : Nat}
    (hongoing : fl.ongoingFlushLsns = s.flushLsns.ongoingFlushLsns.insert lsn count)
    (hlastFlush : fl.lastFlushLsn = some lsn) (hnew : fl.newFlushLsn = s.flushLsns.newFlushLsn)
    (haside : fl.completedUnrecordedFlushLsns = s.flushLsns.completedUnrecordedFlushLsns)
    (hlast : s.flushLsns.getLastFlushLsn < lsn) (hflush : s.flushLsn < lsn) (hle : lsn ≤ s.lastCommitLsn)
    (hcount : slices.length = count) (hpos : 0 < count) (hslices : ∀ slice ∈ slices, slice.lsn = lsn)
    (hrows : ∀ slice ∈ slices, ∀ c ∈ slice.rows, s.flushLsn < c ∧ s.flushLsns.getLastFlushLsn < c) :
    Keeps s (s.addSlices fl slices) := by
  have hlsn : fl.getLastFlushLsn = lsn := by
    unfold FlushLsns.getLastFlushLsn
    rw [hlastFlush]
    rfl
  have hbelow : ∀ slice ∈ s.slices, slice.lsn < lsn := fun slice hslice =>
    Nat.lt_of_le_of_lt (h.flushes slice hslice).2 hlast
  have heq : (s.addSlices fl slices).flushLsn = s.flushLsn := by
    unfold IngestingTable.flushLsn IngestingTable.addSlices
    rw [hnew]
  refine ⟨?_, Nat.le_refl _, heq.ge⟩
  refine { h with
    counts := fun l => ?_
    positive := fun l n hn => ?_
    flushes := fun slice hslice => ?_
    rows := fun c hc => ?_
    sliceRows := fun slice hslice slice' hslice' hlt c hc => ?_
    committedRows := nofun
    aside := fun a ha => ⟨(h.aside a (haside ▸ ha)).1, nofun⟩
    lastFlush := hlsn ▸ hle
    flushLsn := heq ▸ h.flushLsn
    ingested := heq ▸ h.ingested
    lastCommit := heq ▸ h.lastCommit
    unflushed := nofun
    flushed := fun _ => rfl }
  · change (fl.ongoingFlushLsns.lookup l).getD 0 = (s.slices ++ slices).countP (·.lsn = l)
    rw [hongoing, AssocMap.lookup_insert_ite, List.countP_append]
    by_cases hl : l = lsn
    · subst hl
      have hnone : s.slices.countP (·.lsn = l) = 0 :=
        List.countP_eq_zero.mpr fun slice hslice heq => absurd (of_decide_eq_true heq) (hbelow slice hslice).ne
      have hall : slices.countP (·.lsn = l) = slices.length :=
        List.countP_eq_length.mpr fun slice hslice => decide_eq_true (hslices slice hslice)
      rw [if_pos rfl, Option.getD_some, hnone, hall, hcount, Nat.zero_add]
    · have hnone : slices.countP (·.lsn = l) = 0 :=
        List.countP_eq_zero.mpr fun slice hslice heq =>
          hl ((of_decide_eq_true heq).symm.trans (hslices slice hslice))
      rw [if_neg hl, h.counts, hnone, Nat.add_zero]
  · change fl.ongoingFlushLsns.lookup l = some n at hn
    rw [hongoing, AssocMap.lookup_insert_ite] at hn
    split at hn
    · cases hn
      exact hpos
    · exact h.positive l n hn
  · change (s.addSlices fl slices).flushLsn < slice.lsn ∧ slice.lsn ≤ fl.getLastFlushLsn
    rw [heq, hlsn]
    rcases List.mem_append.mp hslice with hslice | hslice
    · exact ⟨(h.flushes slice hslice).1, (hbelow slice hslice).le⟩
    · rw [hslices slice hslice]
      exact ⟨hflush, Nat.le_refl _⟩
  · rw [heq]
    simp only [offDisk, IngestingTable.addSlices, List.nil_append, List.flatMap_append] at hc
    rcases List.mem_append.mp hc with hc | hc
    · exact h.rows c (List.mem_append_right _ hc)
    · obtain ⟨slice, hslice, hc⟩ := List.mem_flatMap.mp hc
      exact (hrows slice hslice c hc).1
  · rcases List.mem_append.mp hslice with hslice | hslice
    · rcases List.mem_append.mp hslice' with hslice' | hslice'
      · exact h.sliceRows slice hslice slice' hslice' hlt c hc
      · rw [hslices slice' hslice'] at hlt
        exact absurd (hbelow slice hslice) (Nat.not_lt.mpr hlt.le)
    · rcases List.mem_append.mp hslice' with hslice' | hslice'
      · exact Nat.lt_of_le_of_lt (h.flushes slice' hslice').2 (hrows slice hslice c hc).2
      · rw [hslices slice hslice, hslices slice' hslice'] at hlt
        exact absurd hlt (Nat.lt_irrefl _)

/-- What a flush of the committed rows leaves as it is. -/
structure Flushed (s s' : IngestingTable) : Prop where
  openRows : s'.openRows = 0
  committedRows : s'.committedRows = []
  unflushed : s'.lastUnflushedCommitLsn = none
  baseline : s'.commitLsnBaseline = s.commitLsnBaseline
  lastCommit : s'.lastCommitLsn = s.lastCommitLsn
  ingested : s'.ingestedLsn = s.ingestedLsn

theorem Inv.committedRows_eq_nil (h : s.Inv) (hempty : (s.openRows = 0 && s.committedRows.isEmpty) ||
    (s.flushLsns.ongoingFlushLsns.lookup s.lastCommitLsn).isSome) : s.committedRows = [] := by
  rcases Bool.or_eq_true_iff.mp hempty with hempty | hongoing
  · exact List.isEmpty_iff.mp (Bool.and_eq_true_iff.mp hempty).2
  · -- A flush at the last commit has taken all committed rows.
    rw [AList.lookup_isSome, h.mem_ongoing_iff] at hongoing
    obtain ⟨slice, hslice, heq⟩ := hongoing
    rw [List.eq_nil_iff_forall_not_mem]
    intro c hc
    have hle := (h.flushes slice hslice).2
    obtain ⟨hlt, hc⟩ := h.committedRows c hc
    omega

theorem Inv.flushCommits (h : s.Inv) (hopen : s.openRows = 0) (hing : s.ingestedLsn ≤ s.lastCommitLsn) :
    Returns (s.flushCommits s.lastCommitLsn) fun s' => Keeps s s' ∧ Flushed s s' := by
  have hge : s.flushLsn ≤ s.lastCommitLsn := h.flushLsn.trans (max_le (Nat.le_refl _) hing)
  have hassert : s.flushLsns.newFlushLsn.all (· ≤ s.lastCommitLsn) = true := newFlushLsn_le hge
  unfold IngestingTable.flushCommits IngestingTable.flush
  by_cases hempty : ((s.openRows = 0 && s.committedRows.isEmpty) ||
      (s.flushLsns.ongoingFlushLsns.lookup s.lastCommitLsn).isSome) = true
  · have hrows := h.committedRows_eq_nil hempty
    have hslices : ∀ slice ∈ s.slices, s.lastCommitLsn < slice.lsn → ∀ c ∈ slice.rows, s.lastCommitLsn < c :=
      fun slice hslice hlt => absurd ((h.flushes slice hslice).2.trans h.lastFlush) (Nat.not_le.mpr hlt)
    have hcommitted : ∀ c ∈ s.committedRows, s.lastCommitLsn < c := by
      rw [hrows]
      exact nofun
    obtain ⟨fl, hset, hkeeps⟩ := h.trySetNextFlushLsn hge (Nat.le_refl _) hslices hcommitted
    unfold FlushLsns.emptyFlush assert
    rw [if_pos hempty, if_pos hassert, ok_bind, hset]
    exact .ok ⟨⟨hkeeps.inv.setFlushed hrows, hkeeps.baseline, hkeeps.flushLsn⟩, ⟨hopen, hrows, rfl, rfl, rfl, rfl⟩⟩
  · rw [if_neg hempty]
    rw [Bool.or_eq_true_iff, not_or] at hempty
    have hrows : s.committedRows ≠ [] := fun hrows => hempty.1 (by simp [hopen, hrows])
    have hlast : s.flushLsns.getLastFlushLsn < s.lastCommitLsn := by
      cases hunflushed : s.lastUnflushedCommitLsn with
      | none => exact absurd (h.flushed hunflushed) hrows
      | some l =>
        obtain ⟨rfl, hlt⟩ := h.unflushed l hunflushed
        exact hlt
    have hflush : s.flushLsn < s.lastCommitLsn := by
      obtain ⟨c, hc⟩ := List.exists_mem_of_ne_nil _ hrows
      exact Nat.lt_of_lt_of_le (h.rows c (List.mem_append_left _ hc)) (h.committedRows c hc).2
    have hkeeps := h.addSlices [⟨s.lastCommitLsn, s.committedRows⟩]
      { s.flushLsns with
        ongoingFlushLsns := s.flushLsns.ongoingFlushLsns.insert s.lastCommitLsn 1
        lastFlushLsn := some s.lastCommitLsn } rfl rfl rfl rfl hlast hflush (Nat.le_refl _) rfl Nat.one_pos
      (by simp) (by
        intro slice hslice c hc
        cases List.mem_singleton.mp hslice
        exact ⟨h.rows c (List.mem_append_left _ hc), (h.committedRows c hc).1⟩)
    unfold assert
    rw [if_pos hassert, ok_bind, h.insertOngoing hlast (by decide)]
    exact .ok ⟨hkeeps, ⟨rfl, rfl, rfl, rfl, rfl, rfl⟩⟩

/-- A slice is taken off the counters. -/
theorem Inv.eraseSlice (h : s.Inv) {slice : FlushingSlice} (hslice : slice ∈ s.slices) {n : Nat}
    (hn : s.flushLsns.ongoingFlushLsns.lookup slice.lsn = some n) {fl : FlushLsns}
    (hremoved : FlushLsns.Removed s.flushLsns slice.lsn n fl) :
    Keeps s { s with flushLsns := fl, slices := s.slices.erase slice } := by
  have hlast : fl.getLastFlushLsn = s.flushLsns.getLastFlushLsn := by
    unfold FlushLsns.getLastFlushLsn
    rw [hremoved.last]
  let s₁ : IngestingTable := { s with flushLsns := fl, slices := s.slices.erase slice }
  have heq : s₁.flushLsn = s.flushLsn := by
    unfold IngestingTable.flushLsn
    rw [hremoved.new]
  have hsub : ∀ slice' ∈ s₁.slices, slice' ∈ s.slices := fun _ hslice' => List.mem_of_mem_erase hslice'
  have hcount : ∀ lsn, s.slices.countP (·.lsn = lsn) =
      s₁.slices.countP (·.lsn = lsn) + if slice.lsn = lsn then 1 else 0 := by
    intro lsn
    rw [(List.perm_cons_erase hslice).countP_eq, List.countP_cons]
    simp only [decide_eq_true_eq]
    rfl
  have hn' : n = s.slices.countP (·.lsn = slice.lsn) := by
    have hcounts := h.counts slice.lsn
    rw [hn] at hcounts
    exact hcounts
  refine ⟨?_, Nat.le_refl _, heq.ge⟩
  refine { h with
    counts := fun lsn => ?_
    positive := fun lsn m hm => ?_
    flushes := fun slice' hslice' => ⟨heq ▸ (h.flushes slice' (hsub slice' hslice')).1,
      hlast ▸ (h.flushes slice' (hsub slice' hslice')).2⟩
    rows := fun c hc => ?_
    sliceRows := fun a ha b hb => h.sliceRows a (hsub a ha) b (hsub b hb)
    committedRows := fun c hc => ⟨hlast ▸ (h.committedRows c hc).1, (h.committedRows c hc).2⟩
    aside := fun a ha => h.aside a (hremoved.aside ▸ ha)
    lastFlush := hlast ▸ h.lastFlush
    flushLsn := heq ▸ h.flushLsn
    ingested := ⟨heq ▸ h.ingested.1, h.ingested.2⟩
    lastCommit := heq ▸ h.lastCommit
    unflushed := fun l hl => ⟨(h.unflushed l hl).1, hlast ▸ (h.unflushed l hl).2⟩ }
  · change (fl.ongoingFlushLsns.lookup lsn).getD 0 = s₁.slices.countP (·.lsn = lsn)
    rw [hremoved.lookup]
    have hcounts := h.counts lsn
    rw [hcount] at hcounts hn'
    by_cases hlsn : lsn = slice.lsn
    · subst hlsn
      have hone : (if slice.lsn = slice.lsn then 1 else 0) = 1 := if_pos rfl
      rw [hone] at hn'
      rw [if_pos rfl]
      split
      · rw [Option.getD_some]
        omega
      · rw [Option.getD_none]
        omega
    · rw [if_neg hlsn, hcounts, if_neg fun heq => hlsn heq.symm]
      rfl
  · rw [hremoved.lookup] at hm
    split at hm
    · split at hm
      · cases hm
        omega
      · cases hm
    · exact h.positive lsn m hm
  · refine heq ▸ h.rows c ?_
    rcases List.mem_append.mp hc with hc | hc
    · exact List.mem_append_left _ hc
    · obtain ⟨slice', hslice', hc⟩ := List.mem_flatMap.mp hc
      exact List.mem_append_right _ (List.mem_flatMap.mpr ⟨slice', hsub slice' hslice', hc⟩)

theorem Inv.applyFlushResult (h : s.Inv) {slice : FlushingSlice} (hslice : slice ∈ s.slices) :
    Returns (s.applyFlushResult slice) (Keeps s) := by
  obtain ⟨n, hn⟩ : ∃ n, s.flushLsns.ongoingFlushLsns.lookup slice.lsn = some n := by
    rw [← Option.isSome_iff_exists, AList.lookup_isSome, h.mem_ongoing_iff]
    exact ⟨slice, hslice, rfl⟩
  obtain ⟨fl, hremove, hremoved⟩ := FlushLsns.removeOngoingFlushLsn_spec hn
  have hkeeps := h.eraseSlice hslice hn hremoved
  have heq : { s with flushLsns := fl, slices := s.slices.erase slice }.flushLsn = s.flushLsn := by
    unfold IngestingTable.flushLsn
    rw [hremoved.new]
  obtain ⟨hlt, hlast⟩ := h.flushes slice hslice
  -- The slices that are left with a higher LSN have rows that were committed above this flush.
  have hslices : ∀ slice' ∈ s.slices.erase slice, slice.lsn < slice'.lsn → ∀ c ∈ slice'.rows, slice.lsn < c :=
    fun slice' hslice' => h.sliceRows slice' (List.mem_of_mem_erase hslice') slice hslice
  have hcommitted : ∀ c ∈ s.committedRows, slice.lsn < c := fun c hc =>
    Nat.lt_of_le_of_lt hlast (h.committedRows c hc).1
  have hset := hkeeps.inv.trySetNextFlushLsn (heq ▸ hlt.le) (hlast.trans h.lastFlush) hslices
    hcommitted
  unfold IngestingTable.applyFlushResult FlushLsns.completeFlush
  rw [hremove, ok_bind]
  exact hset.bind fun fl' hfl' => .pure (hkeeps.trans hfl')

/-! ## Commits -/

def committed (s : IngestingTable) (lsn : Nat) : IngestingTable :=
  { s with
    commitLsnBaseline := lsn
    openRows := 0
    committedRows := s.committedRows ++ List.replicate s.openRows lsn
    lastUnflushedCommitLsn := some lsn
    lastCommitLsn := lsn }

theorem Inv.committed (h : s.Inv) (hlt : s.lastCommitLsn < lsn) (hbound : lsn < u64Max)
    (hing : s.ingestedLsn ≤ lsn) (hrows : s.openRows ≠ 0 → s.ingestedLsn < lsn) : Keeps s (s.committed lsn) := by
  have hlast : s.flushLsns.getLastFlushLsn < lsn := Nat.lt_of_le_of_lt h.lastFlush hlt
  have hmem : ∀ c ∈ s.committedRows ++ List.replicate s.openRows lsn,
      c ∈ s.committedRows ∨ (c = lsn ∧ s.ingestedLsn < lsn) := by
    intro c hc
    rcases List.mem_append.mp hc with hc | hc
    · exact .inl hc
    · obtain ⟨hne, rfl⟩ := List.mem_replicate.mp hc
      exact .inr ⟨rfl, hrows hne⟩
  have hflush := h.flushLsn
  have hbaseline := h.baseline
  have hlastCommit := h.lastCommit
  refine ⟨{ h with
    rows := fun c hc => ?_
    committedRows := fun c hc => ?_
    aside := fun a ha => ⟨(h.aside a ha).1.trans hlt.le, fun c hc => ?_⟩
    lastFlush := hlast.le
    flushLsn := hflush.trans (max_le_max hlt.le (Nat.le_refl _))
    baseline := Nat.le_max_left _ _
    ingested := ⟨h.ingested.1, hing⟩
    lastCommit := Nat.le_max_left _ _
    unflushed := fun l hl => ?_
    flushed := nofun
    bound := hbound }, ?_, Nat.le_refl _⟩
  · change s.flushLsn < c
    rcases List.mem_append.mp hc with hc | hc
    · rcases hmem c hc with hc | ⟨rfl, hlt'⟩
      · exact h.rows c (List.mem_append_left _ hc)
      · omega
    · exact h.rows c (List.mem_append_right _ hc)
  · rcases hmem c hc with hc | ⟨rfl, -⟩
    · exact ⟨(h.committedRows c hc).1, (h.committedRows c hc).2.trans hlt.le⟩
    · exact ⟨hlast, Nat.le_refl _⟩
  · rcases hmem c hc with hc | ⟨rfl, -⟩
    · exact (h.aside a ha).2 c hc
    · exact Nat.lt_of_le_of_lt (h.aside a ha).1 hlt
  · cases hl
    exact ⟨rfl, hlast⟩
  · change s.commitLsnBaseline ≤ lsn
    omega

theorem commit_eq (hbaseline : s.commitLsnBaseline ≤ lsn) (hdeletion : s.lastDeletionLsn.all (· < lsn) = true) :
    s.commit lsn = .ok (s.committed lsn) := by
  unfold commit assert
  rw [if_pos (decide_eq_true hbaseline), if_pos hdeletion]
  rfl

theorem Inv.commit (h : s.Inv) {flushes : Bool} (hadm : s.Admissible (.commit lsn flushes))
    (hord : s.InOrder (.commit lsn flushes)) : Returns (s.next (.commit lsn flushes)) (Keeps s) := by
  obtain ⟨hlt, hbound, hdeletion⟩ := hadm
  obtain ⟨hing, hrows⟩ := hord
  have hbaseline : s.commitLsnBaseline ≤ lsn := h.baseline.trans (max_le hlt.le hing)
  have hkeeps := h.committed hlt hbound hing hrows
  simp only [next, commit_eq hbaseline hdeletion, ok_bind]
  cases flushes with
  | false => exact .pure hkeeps
  | true => exact (hkeeps.inv.flushCommits rfl hing).mono fun _ h' => hkeeps.trans h'.1

theorem Inv.flushUnflushedCommits (h : s.Inv) (hopen : s.openRows = 0)
    (hing : s.lastUnflushedCommitLsn.isSome → s.ingestedLsn ≤ s.lastCommitLsn) :
    Returns s.flushUnflushedCommits fun s' => Keeps s s' ∧ Flushed s s' := by
  unfold IngestingTable.flushUnflushedCommits
  cases hunflushed : s.lastUnflushedCommitLsn with
  | none => exact .ok ⟨⟨h, Nat.le_refl _, Nat.le_refl _⟩, ⟨hopen, h.flushed hunflushed, hunflushed, rfl, rfl, rfl⟩⟩
  | some l =>
    obtain ⟨rfl, -⟩ := h.unflushed l hunflushed
    exact h.flushCommits hopen (hing (by rw [hunflushed]; rfl))

theorem Inv.commitTransactionStream (h : s.Inv) {flushing : List Nat} {rest : Nat} {flushedFiles : Bool}
    (hadm : s.Admissible (.commitTransactionStream lsn flushing rest flushedFiles))
    (hord : s.InOrder (.commitTransactionStream lsn flushing rest flushedFiles)) :
    Returns (s.next (.commitTransactionStream lsn flushing rest flushedFiles)) (Keeps s) := by
  obtain ⟨hlt, hbound, hopen, hcount⟩ := hadm
  obtain ⟨hing, hunflushed⟩ := hord
  refine (h.flushUnflushedCommits hopen hunflushed).bind fun s₁ ⟨hkeeps, hflushed⟩ => ?_
  rw [← hflushed.lastCommit] at hlt
  rw [← hflushed.ingested] at hing
  have hlast : s₁.flushLsns.getLastFlushLsn < lsn := Nat.lt_of_le_of_lt hkeeps.inv.lastFlush hlt
  have hflush : s₁.flushLsn < lsn := Nat.lt_of_le_of_lt hkeeps.inv.flushLsn (max_lt hlt hing)
  have hbaseline : s₁.commitLsnBaseline ≤ lsn := hkeeps.inv.baseline.trans (max_le hlt.le hing.le)
  have hcommitted := hkeeps.inv.committed hlt hbound hing.le fun _ => hing
  let fl : FlushLsns := { s₁.flushLsns with
    ongoingFlushLsns := s₁.flushLsns.ongoingFlushLsns.insert lsn (flushing.length + 1)
    lastFlushLsn := some lsn }
  let fl' : FlushLsns := if flushedFiles then fl.trySetLargestFlushLsn lsn else fl
  let slices : List FlushingSlice := (flushing ++ [rest]).map fun rows => ⟨lsn, List.replicate rows lsn⟩
  have hfl' : fl'.ongoingFlushLsns = fl.ongoingFlushLsns ∧ fl'.lastFlushLsn = fl.lastFlushLsn ∧
      fl'.newFlushLsn = fl.newFlushLsn ∧ fl'.completedUnrecordedFlushLsns = fl.completedUnrecordedFlushLsns := by
    cases flushedFiles with
    | true =>
      exact ⟨FlushLsns.trySetLargestFlushLsn_ongoing fl lsn, FlushLsns.trySetLargestFlushLsn_last fl lsn,
        FlushLsns.trySetLargestFlushLsn_new fl lsn, FlushLsns.trySetLargestFlushLsn_aside fl lsn⟩
    | false => exact ⟨rfl, rfl, rfl, rfl⟩
  have hadd := hcommitted.inv.addSlices slices fl' hfl'.1 hfl'.2.1 hfl'.2.2.1 hfl'.2.2.2
    hlast hflush (Nat.le_refl _) (by simp [slices]) (Nat.succ_pos _)
    (by
      intro slice hslice
      obtain ⟨_, -, rfl⟩ := List.mem_map.mp hslice
      rfl)
    (by
      intro slice hslice c hc
      obtain ⟨rows, -, rfl⟩ := List.mem_map.mp hslice
      cases List.eq_of_mem_replicate hc
      exact ⟨hflush, hlast⟩)
  have heq : s₁.commitTransactionStream lsn flushing rest flushedFiles =
      .ok ((s₁.committed lsn).addSlices fl' slices) := by
    unfold IngestingTable.commitTransactionStream assert
    rw [hkeeps.inv.insertOngoing hlast hcount, ok_bind, if_pos (decide_eq_true hbaseline), ok_bind]
    simp only [IngestingTable.addSlices, hflushed.openRows, hflushed.committedRows, hflushed.unflushed]
    rfl
  rw [heq]
  exact .ok ((hkeeps.trans hcommitted).trans hadd)

/-! ## Bulk ingestions and snapshots -/

theorem offDisk_eq_nil (hslices : s.slices = []) (hrows : s.committedRows = []) : s.offDisk = [] := by
  unfold offDisk
  rw [hslices, hrows]
  rfl

theorem Inv.batchIngest (h : s.Inv) (hord : s.InOrder (.batchIngest lsn)) : Keeps s (s.batchIngest lsn) := by
  obtain ⟨hcommit, hing, hslices, hrows⟩ := hord
  have hflush := h.flushLsn
  have hbaseline := h.baseline
  refine ⟨{ h with
    flushes := fun slice hslice => ?_
    rows := fun c hc => ?_
    flushLsn := Nat.le_max_right _ _
    baseline := Nat.le_max_right _ _
    ingested := ⟨Nat.le_refl _, Nat.le_refl _⟩
    lastCommit := hcommit.trans (Nat.le_max_left _ _) }, ?_, ?_⟩
  · change slice ∈ s.slices at hslice
    rw [hslices] at hslice
    cases hslice
  · change c ∈ s.offDisk at hc
    rw [offDisk_eq_nil hslices hrows] at hc
    cases hc
  · change s.commitLsnBaseline ≤ lsn
    omega
  · change s.flushLsn ≤ lsn
    omega

theorem Inv.createSnapshot (h : s.Inv) : Keeps s s.createSnapshot := by
  have heq : s.createSnapshot.flushLsn = s.flushLsn := by
    unfold IngestingTable.flushLsn IngestingTable.createSnapshot FlushLsns.handOver
    rw [Option.none_or]
  exact ⟨{ h with
    flushes := heq ▸ h.flushes
    rows := heq ▸ h.rows
    flushLsn := heq ▸ h.flushLsn
    ingested := heq ▸ h.ingested
    lastCommit := heq ▸ h.lastCommit }, Nat.le_refl _, heq.ge⟩

theorem Inv.next (h : s.Inv) {op : IngestOp} (hadm : s.Admissible op) (hord : s.InOrder op) :
    Returns (s.next op) (Keeps s) := by
  cases op with
  | append => exact .ok ⟨{ h with }, Nat.le_refl _, Nat.le_refl _⟩
  | delete lsn => exact .ok ⟨{ h with }, Nat.le_refl _, Nat.le_refl _⟩
  | commit lsn flushes => exact h.commit hadm hord
  | commitTransactionStream lsn flushing rest flushedFiles => exact h.commitTransactionStream hadm hord
  | flush => exact (h.flushCommits hadm hord).mono fun _ h' => h'.1
  | flushResult slice =>
    by_cases hslice : slice ∈ s.slices
    · simp only [IngestingTable.next, if_pos hslice]
      exact h.applyFlushResult hslice
    · simp only [IngestingTable.next, if_neg hslice]
      exact .ok ⟨h, Nat.le_refl _, Nat.le_refl _⟩
  | batchIngest lsn => exact .ok (h.batchIngest hord)
  | createSnapshot => exact .ok h.createSnapshot

/-! ## Steps out of order -/

/-- A flush at a commit below the last ingestion sets the flush LSN back, if it does not panic. -/
theorem Inv.flushCommits_decreases (h : s.Inv) (hopen : s.openRows = 0) (hlt : s.lastCommitLsn < s.ingestedLsn) :
    Ensures (s.flushCommits s.lastCommitLsn) fun s' => s'.flushLsn < s.flushLsn := by
  have hflush : s.lastCommitLsn < s.flushLsn := Nat.lt_of_lt_of_le hlt h.ingested.1
  have hrows : s.committedRows = [] := by
    rw [List.eq_nil_iff_forall_not_mem]
    intro c hc
    have hc' := h.rows c (List.mem_append_left _ hc)
    have hle := (h.committedRows c hc).2
    omega
  have hidle : ∀ l, l ∉ s.flushLsns.ongoingFlushLsns := by
    intro l hl
    obtain ⟨slice, hslice, -⟩ := h.mem_ongoing_iff.mp hl
    have hslice' := h.flushes slice hslice
    have hle := h.lastFlush
    omega
  unfold IngestingTable.flushCommits IngestingTable.flush FlushLsns.emptyFlush assert
  rw [if_pos (by simp [hopen, hrows])]
  cases hnew : s.flushLsns.newFlushLsn with
  | some n =>
    rw [flushLsn_of_new hnew] at hflush
    rw [if_neg (by simp [hflush])]
    exact .error
  | none =>
    simp only [Option.all_none, if_true, ok_bind]
    refine .bind (.bind (FlushLsns.trySetNextFlushLsn_spec h.bound (by simp [hnew])).ensures ?_)
      (P := fun s' => s'.flushLsn < s.flushLsn) fun _ h' => .pure h'
    rintro fl ⟨-, -, hrecorded⟩
    cases hrecorded with
    | drained _ hmax _ =>
      obtain ⟨n, hn⟩ : ∃ n, fl.newFlushLsn = some n := by
        rw [hmax, List.max?_cons]
        exact ⟨_, rfl⟩
      have heq : { s with flushLsns := fl }.flushLsn = n := flushLsn_of_new hn
      refine .pure (heq ▸ Nat.lt_of_le_of_lt ?_ hflush)
      rcases List.mem_cons.mp (List.max?_eq_some_iff.mp (hmax.symm.trans hn)).1 with rfl | hmem
      · exact Nat.le_refl _
      · exact (h.aside n hmem).1
    | ahead _ hbusy _ _ =>
      obtain ⟨l, hl⟩ := hbusy
      exact absurd hl (hidle l)
    | aside hbelow _ _ =>
      obtain ⟨l, hl, -⟩ := hbelow
      exact absurd hl (hidle l)

theorem flushCommits_offDisk (c : Nat) (hc : c ∈ s.offDisk) :
    Ensures (s.flushCommits lsn) fun s' => c ∈ s'.offDisk := by
  unfold IngestingTable.flushCommits
  refine .bind (P := fun s' => c ∈ s'.offDisk) ?_ fun _ h' => .pure h'
  unfold IngestingTable.flush
  split
  · exact .bind_any fun _ => .pure hc
  · refine .bind_any fun _ => .bind_any fun _ => .pure ?_
    unfold offDisk at hc ⊢
    rcases List.mem_append.mp hc with hc | hc
    · simp [hc]
    · simp only [List.nil_append, List.flatMap_append]
      exact List.mem_append_left _ hc

theorem commit_ensures : Ensures (s.commit lsn) fun s' => s' = s.committed lsn ∧ s.commitLsnBaseline ≤ lsn := by
  unfold IngestingTable.commit assert
  by_cases hbaseline : s.commitLsnBaseline ≤ lsn
  · rw [if_pos (decide_eq_true hbaseline), ok_bind]
    exact .bind_any fun _ => .pure ⟨rfl, hbaseline⟩
  · rw [if_neg (by simpa using hbaseline)]
    exact .error

theorem commitTransactionStream_ensures {flushing : List Nat} {rest : Nat} {flushedFiles : Bool} :
    Ensures (s.commitTransactionStream lsn flushing rest flushedFiles) fun s' =>
      s'.flushLsn = s.flushLsn ∧ ∃ slice ∈ s'.slices, slice.lsn = lsn := by
  unfold IngestingTable.commitTransactionStream FlushLsns.insertOngoingFlushLsn
  refine .bind (P := fun fl => fl.newFlushLsn = s.flushLsns.newFlushLsn) (.bind_any fun _ => .pure rfl) ?_
  intro fl hfl
  refine .bind_any fun _ => .pure ⟨?_, ⟨lsn, List.replicate rest lsn⟩, by simp, rfl⟩
  unfold IngestingTable.flushLsn
  cases flushedFiles with
  | true => simp [hfl]
  | false => simp [hfl]

theorem Inv.inOrder_of_respects (h : s.Inv) {op : IngestOp} (hadm : s.Admissible op)
    (hrespects : Returns (s.next op) (Respects s)) : s.InOrder op := by
  obtain ⟨s', hnext, hr⟩ := hrespects
  have hing := h.ingested
  have hflushLsn := hr.flushLsn
  cases op with
  | batchIngest lsn =>
    cases hnext
    have hbaseline : s.commitLsnBaseline ≤ lsn := hr.baseline
    have hflush : s.flushLsn ≤ lsn := hr.flushLsn
    have hcommit := h.lastCommit
    have hlast := h.lastFlush
    refine ⟨by omega, by omega, ?_, ?_⟩
    · rw [List.eq_nil_iff_forall_not_mem]
      intro slice hslice
      have hlt : lsn < slice.lsn := hr.flushes slice hslice
      have hle := (h.flushes slice hslice).2
      omega
    · rw [List.eq_nil_iff_forall_not_mem]
      intro c hc
      have hlt : lsn < c := hr.rows c (List.mem_append_left _ hc)
      have hle := (h.committedRows c hc).2
      omega
  | commit lsn flushes =>
    obtain ⟨s₁, hcommit, hrest⟩ := bind_eq_ok.mp hnext
    obtain ⟨rfl, hbaseline⟩ := commit_ensures s₁ hcommit
    refine ⟨by omega, fun hopen => ?_⟩
    -- The rows are committed at this LSN, and are not on disk yet.
    have hmem : lsn ∈ (s.committed lsn).offDisk :=
      List.mem_append_left _ (List.mem_append_right _ (List.mem_replicate.mpr ⟨hopen, rfl⟩))
    have hlt : s'.flushLsn < lsn := by
      cases flushes with
      | true => exact hr.rows lsn (flushCommits_offDisk lsn hmem s' hrest)
      | false =>
        cases hrest
        exact hr.rows lsn hmem
    omega
  | commitTransactionStream lsn flushing rest flushedFiles =>
    obtain ⟨s₁, hflush, hrest⟩ := bind_eq_ok.mp hnext
    obtain ⟨heq, slice, hslice, rfl⟩ := commitTransactionStream_ensures s' hrest
    have hlt := hr.flushes slice hslice
    refine ⟨by omega, fun hsome => ?_⟩
    obtain ⟨l, hl⟩ := Option.isSome_iff_exists.mp hsome
    obtain ⟨rfl, -⟩ := h.unflushed l hl
    by_contra hbelow
    unfold IngestingTable.flushUnflushedCommits at hflush
    rw [hl] at hflush
    have hdecreases := h.flushCommits_decreases hadm.2.2.1 (Nat.not_le.mp hbelow) s₁ hflush
    omega
  | flush =>
    by_contra hbelow
    have hdecreases := h.flushCommits_decreases hadm (Nat.not_le.mp hbelow) s' hnext
    omega
  | append => trivial
  | delete lsn => trivial
  | flushResult slice => trivial
  | createSnapshot => trivial

/-! ## Runs -/

/-- The LSN protocol is respected in every step exactly if all ingestions are in order. -/
theorem respects_iff {persistenceSnapshotLsn : Option Nat} {ops : List IngestOp}
    (hloaded : persistenceSnapshotLsn.getD 0 < u64Max)
    (hadm : RunMeets (fun s op => (next s op).toOption) Admissible (new persistenceSnapshotLsn) ops) :
    RunMeets (fun s op => (next s op).toOption) (fun s op => Returns (s.next op) (Respects s))
        (new persistenceSnapshotLsn) ops ↔
      RunMeets (fun s op => (next s op).toOption) InOrder (new persistenceSnapshotLsn) ops := by
  refine RunMeets.congr (I := Inv) (fun s op h hop => ?_) (fun s op h hop hord => ?_) hadm (Inv.new hloaded)
  · exact ⟨h.inOrder_of_respects hop, fun hord => (h.next hop hord).mono fun _ => Keeps.respects⟩
  · exact (h.next hop hord).ensures.mono fun _ hkeeps => hkeeps.inv

instance : (op : IngestOp) → Decidable (s.Admissible op)
  | .commit .. => inferInstanceAs (Decidable (_ ∧ _ ∧ _))
  | .commitTransactionStream .. => inferInstanceAs (Decidable (_ ∧ _ ∧ _ ∧ _))
  | .flush => inferInstanceAs (Decidable (_ = _))
  | .append => isTrue trivial
  | .delete _ => isTrue trivial
  | .flushResult _ => isTrue trivial
  | .batchIngest _ => isTrue trivial
  | .createSnapshot => isTrue trivial

instance : (op : IngestOp) → Decidable (s.InOrder op)
  | .batchIngest _ => inferInstanceAs (Decidable (_ ∧ _ ∧ _ ∧ _))
  | .commit .. => inferInstanceAs (Decidable (_ ∧ (_ → _)))
  | .commitTransactionStream .. => inferInstanceAs (Decidable (_ ∧ (_ → _)))
  | .flush => inferInstanceAs (Decidable (_ ≤ _))
  | .append => isTrue trivial
  | .delete _ => isTrue trivial
  | .flushResult _ => isTrue trivial
  | .createSnapshot => isTrue trivial

instance : Decidable (Respects s s') :=
  decidable_of_iff (s.commitLsnBaseline ≤ s'.commitLsnBaseline ∧ s.flushLsn ≤ s'.flushLsn ∧
      (∀ slice ∈ s'.slices, s'.flushLsn < slice.lsn) ∧ ∀ c ∈ s'.offDisk, s'.flushLsn < c)
    ⟨fun h => ⟨h.1, h.2.1, h.2.2.1, h.2.2.2⟩, fun h => ⟨h.baseline, h.flushLsn, h.flushes, h.rows⟩⟩

/-- A commit is flushed before files are loaded, and a streaming transaction and an open one end after that. -/
def orderedOps : List IngestOp :=
  [.append, .commit 10 true, .append, .flushResult ⟨10, [10]⟩, .batchIngest 20, .createSnapshot, .commit 30 false,
    .commitTransactionStream 40 [2] 1 false, .flushResult ⟨40, [40, 40]⟩, .flushResult ⟨30, [30]⟩,
    .flushResult ⟨40, [40]⟩, .batchIngest 50]

theorem respects_iff_orderedOps :
    RunMeets (fun s op => (next s op).toOption) (fun s op => Returns (s.next op) (Respects s)) (new (some 5))
      orderedOps :=
  (respects_iff (by decide) (by decide +kernel)).mpr (by decide +kernel)

/-- The flush LSN covers a committed row that is not on disk; the LSNs decrease; the next commit and the
result of a flush that is ongoing panic. -/
theorem ingested_out_of_order :
    RunMeets (fun s op => (next s op).toOption) Admissible (new none)
      [.append, .commit 10 false, .batchIngest 20] ∧
    Returns ([.append, .commit 10 false, .batchIngest 20].foldlM next (new none)) (fun s =>
      s.flushLsns.newFlushLsn = some 20 ∧ s.committedRows = [10]) ∧
    Returns ([.append, .commit 10 true, .flushResult ⟨10, [10]⟩, .batchIngest 5].foldlM next (new none)) (fun s =>
      s.flushLsns.newFlushLsn = some 5 ∧ s.commitLsnBaseline = 5) ∧
    [.batchIngest 20, .append, .commit 10 false].foldlM next (new none) = .error .commitLsnBelowBaseline ∧
    [.append, .commit 10 true, .batchIngest 20, .flushResult ⟨10, [10]⟩].foldlM next (new none) =
      .error .nextFlushLsnRegressed := by
  decide +kernel

end IngestingTable
end Moonlink
