-- SUMMARY: The rows of main transactions on their way to a snapshot, and what every step of the table keeps of them.
import Moonlink.Table.ForceSnapshot
import Moonlink.Table.HandlerSpec

namespace Moonlink

open Lib

namespace MooncakeTable

variable {Row : Type} {t t' : MooncakeTable Row} {lsn : Nat}

/-! ## Steps of the table -/

/-- The mem slice and its flushes stay as they are. -/
structure SameMain (t t' : MooncakeTable Row) : Prop where
  memRows : t'.memRows = t.memRows
  flushing : t'.flushingDiskSlices = t.flushingDiskSlices
  last : t'.lastFlushLsn = t.lastFlushLsn

theorem SameMain.trans {t₁ t₂ t₃ : MooncakeTable Row} (h : SameMain t₁ t₂) (h' : SameMain t₂ t₃) :
    SameMain t₁ t₃ :=
  ⟨h'.memRows.trans h.memRows, h'.flushing.trans h.flushing, h'.last.trans h.last⟩

theorem trySetNextFlushLsn_sameMain : Ensures (t.trySetNextFlushLsn lsn) (SameMain t) := by
  have hrecord : Ensures (t.recordFlushLsn lsn) (SameMain t) := by
    unfold recordFlushLsn
    split
    · exact Ensures.bind_any fun _ => Ensures.pure ⟨rfl, rfl, rfl⟩
    · exact Ensures.ok ⟨rfl, rfl, rfl⟩
  refine Ensures.bind hrecord ?_
  intro t₁ ht₁
  unfold recordCompletedFlushLsns
  split
  · split
    · exact Ensures.ok ht₁
    · exact Ensures.error
    · exact Ensures.ok (ht₁.trans ⟨rfl, rfl, rfl⟩)
  · exact Ensures.ok ht₁

theorem addDiskSlice_sameMain : Ensures (t.addDiskSlice lsn) (SameMain t) := by
  have hremove : Ensures (t.removeOngoingFlushLsn lsn) (SameMain t) :=
    Ensures.bind_any fun _ => Ensures.pure ⟨rfl, rfl, rfl⟩
  refine Ensures.bind hremove ?_
  intro t₁ ht₁
  refine Ensures.bind trySetNextFlushLsn_sameMain ?_
  intro t₂ ht₂
  exact Ensures.pure (ht₁.trans (ht₂.trans ⟨rfl, rfl, rfl⟩))

/-- Nothing is flushed or taken over, and every flush LSN is an earlier one. -/
structure Quiet (t t' : MooncakeTable Row) : Prop where
  main : SameMain t t'
  inv : FlushInv t'
  lsns : ∀ p : Nat → Prop, FlushLsns p t → FlushLsns p t'
  taken : t'.snapshotFlushLsn = t.snapshotFlushLsn

theorem Quiet.trans {t₁ t₂ t₃ : MooncakeTable Row} (h : Quiet t₁ t₂) (h' : Quiet t₂ t₃) : Quiet t₁ t₃ where
  main := h.main.trans h'.main
  inv := h'.inv
  lsns p hall := h'.lsns p (h.lsns p hall)
  taken := h'.taken.trans h.taken

theorem Quiet.of_sameLsns (h : SameLsns t t') (hrows : t'.memRows = t.memRows) (hinv : FlushInv t) :
    Quiet t t' where
  main := ⟨hrows, h.flushing, h.last⟩
  inv := h.flushInv hinv
  lsns _ := h.flushLsns
  taken := h.taken

theorem StreamStep.quiet {ops : XactId → Option (List (RowOp Row))} (h : StreamStep ops t t')
    (hmain : SameMain t t') : Quiet t t' where
  main := hmain
  inv := h.inv
  lsns := h.lsns
  taken := by
    rw [h.contents]
    rfl

/-- A flush at `lsn` leaves the mem slice empty. -/
structure Flushed (lsn : Nat) (t t' : MooncakeTable Row) : Prop where
  inv : FlushInv t'
  lsns : ∀ p : Nat → Prop, p lsn → FlushLsns p t → FlushLsns p t'
  memRows : t'.memRows = 0
  flushing : t'.flushingDiskSlices = t.flushingDiskSlices ++ if t.memRows = 0 then [] else [lsn]
  streams : t'.transactionStreamStates = t.transactionStreamStates
  taken : t'.snapshotFlushLsn = t.snapshotFlushLsn

theorem flush_ensures (hinv : FlushInv t) (hle : FlushLsns (· ≤ lsn) t)
    (hlt : t.memRows = 0 ∨ FlushLsns (· < lsn) t) : Ensures (t.flush lsn) (Flushed lsn t) := by
  refine Ensures.bind_any fun _ => ?_
  split
  · rename_i hskip
    have hrows : t.memRows = 0 := by
      rcases hlt with hrows | hlt
      · exact hrows
      · have hnot : lsn ∉ t.ongoingFlushLsns := fun hmem => Nat.lt_irrefl _ (hlt.ongoing lsn hmem)
        simpa [hnot] using hskip
    refine ((trySetNextFlushLsn_step hinv hle.next).ensures.and trySetNextFlushLsn_sameMain).mono ?_
    rintro t' ⟨hstep, hmain⟩
    exact { hstep with
      memRows := hmain.memRows.trans hrows
      flushing := by simp [hmain.flushing, hrows]
      taken := by
        rw [hstep.contents]
        rfl }
  · rename_i hflush
    have hrows : t.memRows ≠ 0 := fun hzero => hflush (by simp [hzero])
    have hlt := hlt.resolve_left hrows
    have hinsert : Ensures ((t.prepareDiskSlice lsn).insertOngoingFlushLsn lsn 1) fun t' =>
        t' = { t.prepareDiskSlice lsn with
          ongoingFlushLsns := t.ongoingFlushLsns ++ [lsn]
          lastFlushLsn := some lsn } :=
      Ensures.bind_any fun _ => Ensures.pure rfl
    refine Ensures.bind hinsert ?_
    rintro t₁ rfl
    refine Ensures.pure ?_
    exact {
      inv := {
        next_lt := fun n hn => List.forall_mem_append.mpr
          ⟨hinv.next_lt n hn, by simpa using hlt.next n hn⟩
        tracked := (hinv.tracked.append_right [lsn]).trans (by
          simp only [List.append_assoc]
          exact List.perm_append_comm.append_left _) }
      lsns := fun p hp hall => ⟨hall.next, by rintro n ⟨⟩; exact hp,
        List.forall_mem_append.mpr ⟨hall.ongoing, by simpa using hp⟩, hall.completed⟩
      memRows := rfl
      flushing := by rw [if_neg hrows]; rfl
      streams := rfl
      taken := rfl }

/-- The flush of a main disk slice completes. -/
theorem applyFlushResult_ensures (hinv : FlushInv t) (hmem : lsn ∈ t.flushingDiskSlices) :
    Ensures (t.applyFlushResult lsn) (Quiet { t with flushingDiskSlices := t.flushingDiskSlices.erase lsn }) := by
  have hongoing : lsn ∈ t.ongoingFlushLsns :=
    hinv.tracked.mem_iff.mpr (List.mem_append_left _ hmem)
  refine ((applyFlushResult_returns hinv hmem).ensures.and addDiskSlice_sameMain).mono ?_
  rintro t' ⟨hstep, hmain⟩
  exact {
    main := hmain
    inv := hstep.inv
    lsns := fun p hall => hstep.lsns p (hall.ongoing lsn hongoing)
      ⟨hall.next, hall.last, hall.ongoing, hall.completed⟩
    taken := by
      rw [hstep.contents]
      rfl }

section Streams

variable {x : XactId} {st : TransactionStreamState Row}

theorem removeIfFlushed_sameMain (st : TransactionStreamState Row) : SameMain t (t.removeIfFlushed x st) := by
  unfold removeIfFlushed
  split <;> exact ⟨rfl, rfl, rfl⟩

theorem appendInStreamBatch_quiet (hinv : FlushInv t)
    (hold : ∀ old, t.transactionStreamStates.lookup x = some old → old.status = .pending) (row : Row) :
    Quiet t (t.appendInStreamBatch row x) :=
  (appendInStreamBatch_step hinv hold row).quiet ⟨rfl, rfl, rfl⟩

theorem deleteInStreamBatch_quiet (hinv : FlushInv t)
    (hold : ∀ old, t.transactionStreamStates.lookup x = some old → old.status = .pending) (row : Row) :
    Quiet t (t.deleteInStreamBatch row x) := by
  cases happendOnly : t.appendOnly with
  | true =>
    unfold deleteInStreamBatch
    rw [if_pos happendOnly]
    exact .of_sameLsns ⟨rfl, rfl, rfl, rfl, rfl, rfl, rfl, rfl, rfl⟩ rfl hinv
  | false =>
    refine (deleteInStreamBatch_step hinv hold happendOnly row).quiet ?_
    unfold deleteInStreamBatch
    rw [if_neg (by simp [happendOnly])]
    exact ⟨rfl, rfl, rfl⟩

theorem flushStream_quiet (hinv : FlushInv t)
    (hold : ∀ old, t.transactionStreamStates.lookup x = some old → old.status = .pending) :
    Ensures (t.flushStream x) (Quiet t) := by
  cases hlook : t.transactionStreamStates.lookup x with
  | none =>
    unfold flushStream getStreamState
    rw [hlook]
    exact Ensures.error
  | some st =>
    refine ((flushStream_returns hinv hlook (hold st hlook)).ensures.and ?_).mono
      fun t' ht' => ht'.1.quiet ht'.2
    exact Ensures.bind_any fun _ => Ensures.pure ⟨rfl, rfl, rfl⟩

theorem abortInStreamBatch_quiet (hinv : FlushInv t)
    (hold : ∀ old, t.transactionStreamStates.lookup x = some old → old.status = .pending) :
    Ensures (t.abortInStreamBatch x) (Quiet t) := by
  cases hlook : t.transactionStreamStates.lookup x with
  | none =>
    unfold abortInStreamBatch getStreamState
    rw [hlook]
    exact Ensures.error
  | some st =>
    refine ((abortInStreamBatch_returns hinv hlook (hold st hlook)).ensures.and ?_).mono
      fun t' ht' => ht'.1.quiet ht'.2
    exact Ensures.bind_any fun _ => Ensures.pure ((removeIfFlushed_sameMain _).trans ⟨rfl, rfl, rfl⟩)

theorem commitTransactionStream_ensures (hlook : t.transactionStreamStates.lookup x = some st) :
    Ensures (t.commitTransactionStream x lsn) (· = t.withStreamCommit x lsn st) := by
  unfold commitTransactionStream
  rw [getStreamState_returns hlook, ok_bind]
  have hinsert : Ensures (t.insertOngoingFlushLsn lsn (st.ongoingFlushCount + 1)) fun t' =>
      t' = { t with
        ongoingFlushLsns := t.ongoingFlushLsns ++ List.replicate (st.ongoingFlushCount + 1) lsn
        lastFlushLsn := some lsn } :=
    Ensures.bind_any fun _ => Ensures.pure rfl
  refine Ensures.bind hinsert ?_
  rintro t₁ rfl
  exact Ensures.bind_any fun _ => Ensures.pure rfl

theorem applyStreamFlushResult_quiet (hinv : FlushInv t)
    (hlook : t.transactionStreamStates.lookup x = some st) (hcount : 0 < st.ongoingFlushCount) :
    Ensures (t.applyStreamFlushResult x) (Quiet t) := by
  refine ((applyStreamFlushResult_returns hinv hlook hcount).ensures.and ?_).mono
    fun t' ht' => ht'.1.quiet ht'.2
  refine Ensures.bind_any fun st => ?_
  unfold applyStreamDiskSlice
  split
  · exact fun t' ht' => (removeIfFlushed_sameMain _).trans (addDiskSlice_sameMain t' ht')
  · exact Ensures.ok (removeIfFlushed_sameMain _)
  · exact Ensures.ok ⟨rfl, rfl, rfl⟩

end Streams

/-- A snapshot takes the next flush LSN, or nothing if it fails an assertion. -/
structure SnapshotTaken (t t' : MooncakeTable Row) : Prop where
  main : SameMain t t'
  inv : FlushInv t'
  lsns : ∀ p : Nat → Prop, FlushLsns p t → FlushLsns p t'
  ongoing : t'.ongoingFlushLsns = t.ongoingFlushLsns
  streams : t'.transactionStreamStates = t.transactionStreamStates
  taken : t'.snapshotFlushLsn = t.snapshotFlushLsn ∨
    ∃ n, t.nextSnapshotTask.newFlushLsn = some n ∧ t'.snapshotFlushLsn = some n

theorem createSnapshotImpl_taken (hinv : FlushInv t) (forceCreate : Bool) :
    SnapshotTaken t (t.createSnapshotImpl forceCreate) where
  main := ⟨rfl, rfl, rfl⟩
  inv := ⟨nofun, hinv.tracked⟩
  lsns _ hall := ⟨nofun, hall.last, hall.ongoing, hall.completed⟩
  ongoing := rfl
  streams := rfl
  taken := by
    unfold createSnapshotImpl
    simp only
    split
    · cases hn : t.nextSnapshotTask.newFlushLsn with
      | none => exact .inl rfl
      | some n => exact .inr ⟨n, rfl, rfl⟩
    · exact .inl rfl

end MooncakeTable

/-! ## Rows on their way -/

namespace MainRows

variable {Row : Type} {r : MainRows} {t t₁ t₂ : MooncakeTable Row}

theorem drain_of_same (h : t₁.flushingDiskSlices = t.flushingDiskSlices) : r.drain t t₁ = r := by
  unfold drain
  rw [h, List.drop_length]

theorem drain_congr (h : t₂.flushingDiskSlices = t₁.flushingDiskSlices) :
    r.drain t t₂ = r.drain t t₁ := by
  unfold drain
  rw [h]

theorem drain_congr_left (h : t₁.flushingDiskSlices = t.flushingDiskSlices) :
    r.drain t₁ t₂ = r.drain t t₂ := by
  unfold drain
  rw [h]

theorem drain_of_flushed {lsn : Nat} (h : t.Flushed lsn t₁) (hrows : r.memSlice.length = t.memRows) :
    r.drain t t₁ = ⟨[], r.diskSlices ++ if t.memRows = 0 then [] else [(lsn, r.memSlice)]⟩ := by
  unfold drain
  rw [h.flushing, List.drop_left]
  split
  · rename_i heq
    split at heq
    · cases heq
    · rename_i hne
      cases heq
      rw [if_neg hne]
  · rename_i heq
    split at heq
    · rename_i hzero
      rw [if_pos hzero, List.append_nil, ← List.length_eq_zero_iff.mp (hrows.trans hzero)]
    · cases heq

theorem mem_commit_memSlice {lsn c : Nat} (h : some c ∈ (r.commit lsn).memSlice) :
    some c ∈ r.memSlice ∨ c = lsn := by
  obtain ⟨o, ho, heq⟩ := List.mem_map.mp h
  cases o with
  | none => exact .inr (by simpa using heq.symm)
  | some a =>
    cases heq
    exact .inl ho

theorem mem_commit_diskSlices {lsn c : Nat} {s : Nat × List (Option Nat)}
    (hs : s ∈ (r.commit lsn).diskSlices) (h : some c ∈ s.2) :
    (∃ old ∈ r.diskSlices, old.1 = s.1 ∧ some c ∈ old.2) ∨ c = lsn := by
  obtain ⟨old, hold, rfl⟩ := List.mem_map.mp hs
  obtain ⟨o, ho, heq⟩ := List.mem_map.mp h
  cases o with
  | none => exact .inr (by simpa using heq.symm)
  | some a =>
    cases heq
    exact .inl ⟨old, hold, rfl, ho⟩

end MainRows

/-- The rows of main transactions between their commits and a snapshot, where the commits in
`received` arrived, with the last unflushed commit `u` and the consistent view `view`. -/
structure RowsInv {Row : Type} (received : List Nat) (loaded : Nat) (t : MooncakeTable Row)
    (u view : Option Nat) (r : MainRows) : Prop where
  flushInv : t.FlushInv
  flushed : t.FlushLsns (· ∈ received)
  taken : t.snapshotFlushLsn.getD 0 ≤ loaded ∨ t.snapshotFlushLsn.getD 0 ∈ received
  memRows : r.memSlice.length = t.memRows
  slices : r.diskSlices.map Prod.fst = t.flushingDiskSlices
  mem : ∀ c, some c ∈ r.memSlice → u ≠ none ∧ t.FlushLsns (· < c) ∧ t.snapshotFlushLsn.getD 0 < c
  disk : ∀ s ∈ r.diskSlices, ∀ c, some c ∈ s.2 →
    t.FlushLsns (fun l => l < s.1 → l < c) ∧ t.snapshotFlushLsn.getD 0 < c
  unflushed : ∀ l, u = some l → l ∈ received ∧ t.FlushLsns (· < l)
  /-- Nothing that arrived is above the view, and a flush at the view flushes every row once. -/
  view : ∀ v, view = some v → (∀ c ∈ received, c ≤ v) ∧ (v ≤ loaded ∨
    v ∈ received ∧ (t.memRows = 0 ∨ t.lastFlushLsn = some v ∨ t.FlushLsns (· < v)))

namespace RowsInv

variable {Row : Type} {received : List Nat} {loaded lsn : Nat} {t t' : MooncakeTable Row}
variable {u view : Option Nat} {r : MainRows}

theorem mem_ongoing (h : RowsInv received loaded t u view r) {s : Nat × List (Option Nat)}
    (hs : s ∈ r.diskSlices) : s.1 ∈ t.ongoingFlushLsns := by
  refine h.flushInv.tracked.mem_iff.mpr (List.mem_append_left _ ?_)
  rw [← h.slices]
  exact List.mem_map_of_mem hs

/-- A step that flushes no mem slice and that no snapshot takes over. -/
theorem carry {r' : MainRows} (h : RowsInv received loaded t u view r) (hinv : t'.FlushInv)
    (hlsns : ∀ p : Nat → Prop, t.FlushLsns p → t'.FlushLsns p) (hrows : t'.memRows = t.memRows)
    (hlast : t'.lastFlushLsn = t.lastFlushLsn) (htaken : t'.snapshotFlushLsn = t.snapshotFlushLsn)
    (hmem : r'.memSlice = r.memSlice) (hsub : r'.diskSlices ⊆ r.diskSlices)
    (hslices : r'.diskSlices.map Prod.fst = t'.flushingDiskSlices) :
    RowsInv received loaded t' u view r' where
  flushInv := hinv
  flushed := hlsns _ h.flushed
  taken := htaken ▸ h.taken
  memRows := by rw [hmem, h.memRows, hrows]
  slices := hslices
  mem c hc := by
    obtain ⟨hu, hlt, hc⟩ := h.mem c (hmem ▸ hc)
    exact ⟨hu, hlsns _ hlt, htaken ▸ hc⟩
  disk s hs c hc := by
    obtain ⟨hlt, hc⟩ := h.disk s (hsub hs) c hc
    exact ⟨hlsns _ hlt, htaken ▸ hc⟩
  unflushed l hl := (h.unflushed l hl).imp_right (hlsns _)
  view v hv := by
    obtain ⟨hall, hview⟩ := h.view v hv
    refine ⟨hall, hview.imp_right fun ⟨hmem, hflush⟩ => ⟨hmem, ?_⟩⟩
    rw [hrows, hlast]
    exact hflush.imp_right (.imp_right (hlsns _))

theorem quiet (h : RowsInv received loaded t u view r) (hquiet : t.Quiet t') :
    RowsInv received loaded t' u view r :=
  h.carry hquiet.inv hquiet.lsns hquiet.main.memRows hquiet.main.last hquiet.taken rfl
    (fun _ hs => hs) (h.slices.trans hquiet.main.flushing.symm)

theorem clearView (h : RowsInv received loaded t u view r) : RowsInv received loaded t u none r :=
  { h with view := nofun }

/-- A commit event arrives. -/
theorem receive (h : RowsInv received loaded t u view r) (hlt : ∀ c ∈ received, c < lsn) :
    RowsInv (received ++ [lsn]) loaded t u (some lsn) r :=
  { h with
    flushed := h.flushed.mono fun n hn => List.mem_append_left _ hn
    taken := h.taken.imp_right (List.mem_append_left _)
    unflushed l hl := (h.unflushed l hl).imp_left (List.mem_append_left _)
    view := by
      rintro v ⟨⟩
      refine ⟨List.forall_mem_append.mpr ⟨fun c hc => Nat.le_of_lt (hlt c hc), by simp⟩, .inr ⟨by simp, ?_⟩⟩
      exact .inr (.inr (h.flushed.mono hlt)) }

theorem setUnflushed (h : RowsInv received loaded t u view r) (hmem : lsn ∈ received)
    (hlt : t.FlushLsns (· < lsn)) : RowsInv received loaded t (some lsn) view r :=
  { h with
    mem := fun c hc => ⟨by simp, (h.mem c hc).2⟩
    unflushed := by
      rintro l ⟨⟩
      exact ⟨hmem, hlt⟩ }

/-- The rows of the open main transaction get its commit LSN. -/
theorem commitRows (h : RowsInv received loaded t (some lsn) view r)
    (htaken : t.snapshotFlushLsn.getD 0 < lsn) :
    RowsInv received loaded t (some lsn) view (r.commit lsn) := by
  have hlt := (h.unflushed lsn rfl).2
  exact { h with
    memRows := by
      rw [← h.memRows]
      exact List.length_map _
    slices := by
      rw [← h.slices]
      simp [MainRows.commit]
    mem := by
      intro c hc
      rcases MainRows.mem_commit_memSlice hc with hc | rfl
      · exact h.mem c hc
      · exact ⟨by simp, hlt, htaken⟩
    disk := by
      intro s hs c hc
      rcases MainRows.mem_commit_diskSlices hs hc with ⟨old, hold, heq, hc⟩ | rfl
      · rw [← heq]
        exact h.disk old hold c hc
      · exact ⟨hlt.mono fun n hn _ => hn, htaken⟩ }

theorem append (h : RowsInv received loaded t u view r) (t' : MooncakeTable Row) (hinv : t'.FlushInv)
    (hlsns : ∀ p : Nat → Prop, t.FlushLsns p → t'.FlushLsns p)
    (hrows : t'.memRows = t.memRows + 1) (hslices : t'.flushingDiskSlices = t.flushingDiskSlices)
    (htaken : t'.snapshotFlushLsn = t.snapshotFlushLsn) :
    RowsInv received loaded t' u none { r with memSlice := r.memSlice ++ [none] } where
  flushInv := hinv
  flushed := hlsns _ h.flushed
  taken := htaken ▸ h.taken
  memRows := by simp [hrows, h.memRows]
  slices := h.slices.trans hslices.symm
  mem c hc := by
    have hc : some c ∈ r.memSlice := by simpa using hc
    obtain ⟨hu, hlt, hc⟩ := h.mem c hc
    exact ⟨hu, hlsns _ hlt, htaken ▸ hc⟩
  disk s hs c hc := by
    obtain ⟨hlt, hc⟩ := h.disk s hs c hc
    exact ⟨hlsns _ hlt, htaken ▸ hc⟩
  unflushed l hl := (h.unflushed l hl).imp_right (hlsns _)
  view v hv := (nomatch hv)

/-- A flush at the last commit that arrived, or at an earlier one with nothing flushed since. -/
theorem flush (h : RowsInv received loaded t u view r) (hmem : lsn ∈ received)
    (hle : t.FlushLsns (· ≤ lsn)) (hflushed : t.Flushed lsn t') :
    RowsInv received loaded t' none view (r.drain t t') := by
  rw [MainRows.drain_of_flushed hflushed h.memRows]
  exact {
    flushInv := hflushed.inv
    flushed := hflushed.lsns _ hmem h.flushed
    taken := hflushed.taken ▸ h.taken
    memRows := hflushed.memRows.symm
    slices := by
      rw [List.map_append, h.slices, hflushed.flushing]
      split <;> rfl
    mem := nofun
    disk := by
      intro s hs c hc
      rw [hflushed.taken]
      rcases List.mem_append.mp hs with hs | hs
      · obtain ⟨hlt, hc⟩ := h.disk s hs c hc
        -- The slice is being written, so its LSN is not above this one.
        have hslice := hle.ongoing s.1 (h.mem_ongoing hs)
        exact ⟨hflushed.lsns _ (fun hlt => absurd hlt (Nat.not_lt.mpr hslice)) hlt, hc⟩
      · split at hs
        · cases hs
        · rw [List.mem_singleton] at hs
          subst hs
          obtain ⟨-, hlt, hc⟩ := h.mem c hc
          exact ⟨hflushed.lsns _ (fun hlt => absurd hlt (Nat.lt_irrefl _)) (hlt.mono fun n hn _ => hn), hc⟩
    unflushed := nofun
    view := fun v hv => by
      obtain ⟨hall, hview⟩ := h.view v hv
      exact ⟨hall, hview.imp_right fun ⟨hmem, _⟩ => ⟨hmem, .inl hflushed.memRows⟩⟩ }

theorem streamCommit {x : XactId} {st : TransactionStreamState Row}
    (h : RowsInv received loaded t none (some lsn) r) (hmem : lsn ∈ received)
    (hlt : t.FlushLsns (· < lsn)) (hlook : t.transactionStreamStates.lookup x = some st)
    (hst : st.status = .pending) :
    RowsInv received loaded (t.withStreamCommit x lsn st) none (some lsn) r where
  flushInv := h.flushInv.withStreamCommit hlook hst hlt
  flushed := h.flushed.withStreamCommit hmem
  taken := h.taken
  memRows := h.memRows
  slices := h.slices
  mem c hc := absurd rfl (h.mem c hc).1
  disk s hs c hc := by
    obtain ⟨hlsns, htaken⟩ := h.disk s hs c hc
    have hslice := hlt.ongoing s.1 (h.mem_ongoing hs)
    exact ⟨hlsns.withStreamCommit fun hlt => absurd hlt (Nat.lt_asymm hslice), htaken⟩
  unflushed l hl := (nomatch hl)
  view := by
    rintro v ⟨⟩
    exact ⟨(h.view lsn rfl).1, .inr ⟨hmem, .inr (.inl rfl)⟩⟩

/-- The flush of a main disk slice completes. -/
theorem flushResult (h : RowsInv received loaded t u view r)
    (hquiet : { t with flushingDiskSlices := t.flushingDiskSlices.erase lsn }.Quiet t') :
    RowsInv received loaded t' u view { r with diskSlices := r.diskSlices.eraseP (·.1 = lsn) } := by
  refine h.carry hquiet.inv
    (fun p hall => hquiet.lsns p ⟨hall.next, hall.last, hall.ongoing, hall.completed⟩)
    hquiet.main.memRows hquiet.main.last hquiet.taken rfl (fun _ => List.mem_of_mem_eraseP) ?_
  rw [hquiet.main.flushing, ← h.slices, List.erase_eq_eraseP', List.eraseP_map]
  rfl

theorem snapshot (h : RowsInv received loaded t u view r) (htaken : t.SnapshotTaken t') :
    RowsInv received loaded t' u view r := by
  have hbelow (c : Nat) (hc : t.snapshotFlushLsn.getD 0 < c)
      (hnext : ∀ n, t.nextSnapshotTask.newFlushLsn = some n → n < c) : t'.snapshotFlushLsn.getD 0 < c := by
    rcases htaken.taken with heq | ⟨n, hn, heq⟩
    · exact heq ▸ hc
    · exact heq ▸ hnext n hn
  exact {
    flushInv := htaken.inv
    flushed := htaken.lsns _ h.flushed
    taken := by
      rcases htaken.taken with heq | ⟨n, hn, heq⟩
      · exact heq ▸ h.taken
      · exact heq ▸ .inr (h.flushed.next n hn)
    memRows := h.memRows.trans htaken.main.memRows.symm
    slices := h.slices.trans htaken.main.flushing.symm
    mem := fun c hc => by
      obtain ⟨hu, hlt, hc⟩ := h.mem c hc
      exact ⟨hu, htaken.lsns _ hlt, hbelow c hc hlt.next⟩
    disk := fun s hs c hc => by
      obtain ⟨hlt, hc⟩ := h.disk s hs c hc
      refine ⟨htaken.lsns _ hlt, hbelow c hc fun n hn => hlt.next n hn ?_⟩
      exact h.flushInv.next_lt n hn s.1 (h.mem_ongoing hs)
    unflushed := fun l hl => (h.unflushed l hl).imp_right (htaken.lsns _)
    view := fun v hv => by
      obtain ⟨hall, hview⟩ := h.view v hv
      refine ⟨hall, hview.imp_right fun ⟨hmem, hflush⟩ => ⟨hmem, ?_⟩⟩
      rw [htaken.main.memRows, htaken.main.last]
      exact hflush.imp_right (.imp_right (htaken.lsns _)) }

end RowsInv

/-! ## Change events -/

namespace TableEvent

variable {Row : Type}

/-- The streaming transaction that the event belongs to. -/
def xactId : TableEvent Row → Option XactId
  | append _ x _ _ => x
  | delete _ _ x _ _ => x
  | commit _ x _ => x
  | streamAbort x _ _ => some x
  | commitFlush _ x _ => x
  | streamFlush x _ => some x
  | _ => none

end TableEvent

/-- The event does not belong to a streaming transaction that has ended. -/
def MooncakeTable.StreamOpen {Row : Type} (t : MooncakeTable Row) (e : TableEvent Row) : Prop :=
  ∀ x ∈ e.xactId, ∀ st ∈ t.transactionStreamStates.lookup x, st.status = .pending

namespace TableHandler

variable {Row : Type} {b : Build} {h : TableHandler Row} {e : TableEvent Row}
variable {received : List Nat} {loaded lsn : Nat} {r : MainRows}

/-- An event is discarded, or goes to the WAL and is applied. -/
theorem processCdcTableEvent_ensures {Q : TableHandler Row → Prop}
    (hnormal : h.state.specialTableState = .normal)
    (hdiscard : h.state.shouldDiscardEvent e = true → e.isRecovery = .ok false →
      Q ⟨h.table, h.state.updateTableLsns e⟩)
    (happly : ∀ wal recovery, e.isRecovery = .ok recovery →
      (h.state.shouldDiscardEvent e && !recovery) = false →
      Ensures (applyCdcTableEvent ⟨{ h.table with wal }, h.state.updateTableLsns e⟩ e) Q) :
    Ensures (h.processCdcTableEvent b e) Q := by
  unfold processCdcTableEvent
  rw [if_neg (by simp [TableHandlerState.isInBlockingState, hnormal])]
  simp only [shouldDiscardEvent_updateTableLsns]
  refine Ensures.bind (fun _ h => h) fun recovery hrecovery => ?_
  split
  · rename_i hskip
    simp only [Bool.and_eq_true, Bool.not_eq_true'] at hskip
    exact Ensures.pure (hdiscard hskip.1 (hskip.2 ▸ hrecovery))
  · rename_i hkeep
    have happly := fun wal => happly wal recovery hrecovery (by simpa using hkeep)
    unfold pushWalEvent
    split
    · exact happly h.table.wal
    · have hpush : Ensures (h.table.wal.push b e >>= fun wal =>
          pure (⟨{ h.table with wal }, h.state.updateTableLsns e⟩ : TableHandler Row))
          fun h₁ => ∃ wal, h₁ = ⟨{ h.table with wal }, h.state.updateTableLsns e⟩ :=
        Ensures.bind_any fun wal => Ensures.pure ⟨wal, rfl⟩
      refine Ensures.bind hpush ?_
      rintro _ ⟨wal, rfl⟩
      exact happly wal

theorem appendStreaming_quiet {row : Row} {x : XactId} (hinv : h.table.FlushInv)
    (hopen : ∀ st, h.table.transactionStreamStates.lookup x = some st → st.status = .pending) :
    Ensures (h.appendStreaming row x) fun h' => h.table.Quiet h'.table ∧ h'.state = h.state := by
  have hquiet := MooncakeTable.appendInStreamBatch_quiet hinv hopen row
  have hstill : ∀ st, (h.table.appendInStreamBatch row x).transactionStreamStates.lookup x = some st →
      st.status = .pending := by
    intro st hlook
    unfold MooncakeTable.appendInStreamBatch MooncakeTable.setStreamState at hlook
    rw [AList.lookup_insert] at hlook
    cases hlook
    exact (MooncakeTable.getOrCreateStreamState_spec hopen).1
  refine Ensures.bind_any fun flushes => ?_
  split
  · refine Ensures.bind (MooncakeTable.flushStream_quiet hquiet.inv hstill) ?_
    intro t' ht'
    exact Ensures.pure ⟨hquiet.trans ht', rfl⟩
  · exact Ensures.pure ⟨hquiet, rfl⟩

/-- Unflushed commits are flushed. -/
theorem flushUnflushedCommits_rows
    (hrows : RowsInv received loaded h.table h.state.lastUnflushedCommitLsn h.state.tableConsistentViewLsn r) :
    Ensures h.flushUnflushedCommits fun h' =>
      RowsInv received loaded h'.table none h.state.tableConsistentViewLsn (r.drain h.table h'.table) ∧
        h'.state = { h.state with lastUnflushedCommitLsn := none } ∧
        h'.table.transactionStreamStates = h.table.transactionStreamStates ∧
        ∀ p : Nat → Prop, (∀ l, h.state.lastUnflushedCommitLsn = some l → p l) →
          h.table.FlushLsns p → h'.table.FlushLsns p := by
  unfold flushUnflushedCommits
  cases hu : h.state.lastUnflushedCommitLsn with
  | none =>
    rw [hu] at hrows
    refine Ensures.ok ⟨?_, by rw [← hu], rfl, fun p _ hall => hall⟩
    rw [MainRows.drain_of_same rfl]
    exact hrows
  | some l =>
    obtain ⟨hmem, hlt⟩ := hrows.unflushed l hu
    have hle := hlt.mono fun n hn => Nat.le_of_lt hn
    refine Ensures.bind (MooncakeTable.flush_ensures hrows.flushInv hle (.inr hlt)) ?_
    intro t' hflushed
    exact Ensures.pure ⟨hrows.flush hmem hle hflushed, rfl, hflushed.streams,
      fun p hp => hflushed.lsns p (hp l rfl)⟩

theorem commitMain_rows
    (hrows : RowsInv received loaded h.table h.state.lastUnflushedCommitLsn h.state.tableConsistentViewLsn r)
    (hu : h.state.lastUnflushedCommitLsn = some lsn) (htaken : h.table.snapshotFlushLsn.getD 0 < lsn) :
    Ensures (h.commitMain lsn false) fun h' =>
      RowsInv received loaded h'.table h'.state.lastUnflushedCommitLsn h'.state.tableConsistentViewLsn
          ((r.commit lsn).drain h.table h'.table) ∧
        ∃ u, h'.state = { h.state with lastUnflushedCommitLsn := u } := by
  unfold commitMain
  have hcommit : Ensures (h.table.commit lsn) fun t' => h.table.Quiet t' ∧
      t'.flushingDiskSlices = h.table.flushingDiskSlices := by
    refine Ensures.bind_any fun _ => Ensures.bind_any fun _ => Ensures.pure ⟨?_, rfl⟩
    exact {
      main := ⟨rfl, rfl, rfl⟩
      inv := ⟨hrows.flushInv.next_lt, hrows.flushInv.tracked⟩
      lsns := fun p hall => ⟨hall.next, hall.last, hall.ongoing, hall.completed⟩
      taken := rfl }
  refine Ensures.bind hcommit ?_
  rintro t₁ ⟨hquiet, hsame⟩
  rw [hu] at hrows
  have hrows₁ := (hrows.commitRows htaken).quiet hquiet
  split
  · obtain ⟨hmem, hlt⟩ := hrows₁.unflushed lsn rfl
    have hle := hlt.mono fun n hn => Nat.le_of_lt hn
    refine Ensures.bind (MooncakeTable.flush_ensures hrows₁.flushInv hle (.inr hlt)) ?_
    intro t' hflushed
    refine Ensures.pure ⟨?_, _, rfl⟩
    rw [← MainRows.drain_congr_left hsame]
    exact hrows₁.flush hmem hle hflushed
  · refine Ensures.pure ⟨?_, h.state.lastUnflushedCommitLsn, rfl⟩
    rw [MainRows.drain_of_same hsame]
    simp only [hu]
    exact hrows₁

/-- The commit of a streaming transaction, with the last commit that arrived as its view. -/
theorem commitStreaming_rows {x : XactId}
    (hrows : RowsInv received loaded h.table h.state.lastUnflushedCommitLsn h.state.tableConsistentViewLsn r)
    (hview : h.state.tableConsistentViewLsn = some lsn) (hmem : lsn ∈ received)
    (hlt : h.table.FlushLsns (· < lsn)) (hu : ∀ l, h.state.lastUnflushedCommitLsn = some l → l < lsn)
    (hopen : ∀ st, h.table.transactionStreamStates.lookup x = some st → st.status = .pending) :
    Ensures (h.commitStreaming x lsn) fun h' =>
      RowsInv received loaded h'.table h'.state.lastUnflushedCommitLsn h'.state.tableConsistentViewLsn
          (r.drain h.table h'.table) ∧
        ∃ u, h'.state = { h.state with lastUnflushedCommitLsn := u } := by
  refine Ensures.bind (flushUnflushedCommits_rows hrows) ?_
  rintro ⟨t₁, s₁⟩ ⟨hrows₁, hs₁, hstreams, hlsns⟩
  simp only at hrows₁ hs₁ hstreams hlsns
  subst hs₁
  rw [← hstreams] at hopen
  split
  · refine Ensures.bind (MooncakeTable.abortInStreamBatch_quiet hrows₁.flushInv hopen) ?_
    intro t₂ hquiet
    refine Ensures.pure ⟨?_, none, rfl⟩
    rw [MainRows.drain_congr hquiet.main.flushing]
    exact hrows₁.quiet hquiet
  · have hcommit : Ensures (t₁.commitTransactionStream x lsn) fun t₂ =>
        RowsInv received loaded t₂ none (some lsn) (r.drain h.table t₂) := by
      cases hlook : t₁.transactionStreamStates.lookup x with
      | none =>
        unfold MooncakeTable.commitTransactionStream MooncakeTable.getStreamState
        rw [hlook]
        exact Ensures.error
      | some st =>
        rw [hview] at hrows₁
        refine (MooncakeTable.commitTransactionStream_ensures hlook).mono ?_
        rintro t₂ rfl
        exact hrows₁.streamCommit hmem (hlsns _ hu hlt) hlook (hopen st hlook)
    refine Ensures.bind hcommit ?_
    intro t₂ hrows₂
    refine Ensures.pure ⟨?_, none, rfl⟩
    simp only [hview]
    exact hrows₂

/-- What change events leave of the state. -/
structure SameRequests (s s' : TableHandlerState Row) : Prop where
  normal : s'.specialTableState = s.specialTableState
  requests : s'.largestForceSnapshotLsn = s.largestForceSnapshotLsn

/-- The invariant after an event. -/
def RowsAfter (received : List Nat) (loaded : Nat) (r : MainRows) (h : TableHandler Row)
    (e : TableEvent Row) (h' : TableHandler Row) : Prop :=
  RowsInv (received ++ ((PersistingHandler.commitOf h e).map Prod.fst).toList) loaded h'.table
      h'.state.lastUnflushedCommitLsn h'.state.tableConsistentViewLsn (r.track h h' e) ∧
    SameRequests h.state h'.state

theorem track_of_quiet {h' : TableHandler Row} (hquiet : h.table.Quiet h'.table)
    (hcommit : PersistingHandler.commitOf h e = none) : r.track h h' e = r := by
  have hdrain : r.drain h.table h'.table = r := MainRows.drain_of_same hquiet.main.flushing
  cases e with
  | append row x lsn recovery =>
    cases x with
    | none => simp [MainRows.track, hquiet.main.memRows]
    | some x => exact hdrain
  | commit lsn x recovery => cases hcommit
  | _ => exact hdrain

theorem discardsCommit_main {recovery : Bool} : h.discardsCommit lsn none recovery =
    (h.state.shouldDiscardEvent (.commit lsn none recovery) && !recovery) := by
  unfold discardsCommit TableHandlerState.shouldDiscardEvent
  cases h.state.initialPersistenceLsn <;>
    simp [TableEvent.isStreamingUpdate, TableEvent.getLsnForIngestEvent]

section Events

variable (hrows : RowsInv received loaded h.table h.state.lastUnflushedCommitLsn
  h.state.tableConsistentViewLsn r)

include hrows

/-- The table with another WAL. -/
theorem setWal_quiet (wal : WalManager Row) : h.table.Quiet { h.table with wal } :=
  .of_sameLsns ⟨rfl, rfl, rfl, rfl, rfl, rfl, rfl, rfl, rfl⟩ rfl hrows.flushInv

/-- An event that is no commit and adds no row. -/
theorem rowsAfter_of_quiet {h' : TableHandler Row} (hquiet : h.table.Quiet h'.table)
    (hstate : h'.state = { h.state with tableConsistentViewLsn := none })
    (hcommit : PersistingHandler.commitOf h e = none) : RowsAfter received loaded r h e h' := by
  obtain ⟨t', s'⟩ := h'
  cases hstate
  refine ⟨?_, rfl, rfl⟩
  rw [track_of_quiet hquiet hcommit, hcommit]
  simpa using hrows.clearView.quiet hquiet

variable (hnormal : h.state.specialTableState = .normal)

include hnormal

variable {recovery : Bool}

theorem append_rows {row : Row} {x : Option XactId}
    (hopen : h.table.StreamOpen (.append row x lsn recovery)) :
    Ensures (h.processCdcTableEvent b (.append row x lsn recovery))
      (RowsAfter received loaded r h (.append row x lsn recovery)) := by
  refine processCdcTableEvent_ensures hnormal (fun _ _ => ?_) fun wal _ _ _ => ?_
  · exact rowsAfter_of_quiet hrows (setWal_quiet hrows h.table.wal) rfl rfl
  · have hwal := setWal_quiet hrows wal
    cases x with
    | none =>
      refine Ensures.ok ⟨?_, rfl, rfl⟩
      have happend := hrows.append ({ h.table with wal }.append row)
        ⟨hrows.flushInv.next_lt, hrows.flushInv.tracked⟩
        (fun p hall => ⟨hall.next, hall.last, hall.ongoing, hall.completed⟩) rfl rfl rfl
      have htrack : r.track h ⟨{ h.table with wal }.append row, h.state.updateTableLsns
          (.append row none lsn recovery)⟩ (.append row none lsn recovery) =
            { r with memSlice := r.memSlice ++ [none] } :=
        if_pos (Nat.lt_succ_self h.table.memRows)
      rw [htrack]
      change RowsInv (received ++ []) _ _ _ _ _
      rw [List.append_nil]
      exact happend
    | some x =>
      refine (appendStreaming_quiet (h := ⟨{ h.table with wal }, _⟩) hwal.inv (hopen x rfl)).mono ?_
      rintro h' ⟨hquiet, hstate⟩
      exact rowsAfter_of_quiet hrows (hwal.trans hquiet) hstate rfl

theorem delete_rows {row : Row} {x : Option XactId} {d recovery : Bool}
    (hopen : h.table.StreamOpen (.delete row lsn x d recovery)) :
    Ensures (h.processCdcTableEvent b (.delete row lsn x d recovery))
      (RowsAfter received loaded r h (.delete row lsn x d recovery)) := by
  refine processCdcTableEvent_ensures hnormal (fun _ _ => ?_) fun wal _ _ _ => ?_
  · exact rowsAfter_of_quiet hrows (setWal_quiet hrows h.table.wal) rfl rfl
  · have hwal := setWal_quiet hrows wal
    cases x with
    | none =>
      have hdelete (d : Bool) : h.table.Quiet ({ h.table with wal }.deleteImpl row lsn d) := by
        unfold MooncakeTable.deleteImpl
        split
        · exact hwal
        · exact ⟨⟨rfl, rfl, rfl⟩, ⟨hrows.flushInv.next_lt, hrows.flushInv.tracked⟩,
            fun p hall => ⟨hall.next, hall.last, hall.ongoing, hall.completed⟩, rfl⟩
      refine Ensures.ok (rowsAfter_of_quiet hrows ?_ rfl rfl)
      cases d with
      | true => exact hdelete true
      | false => exact hdelete false
    | some x =>
      refine Ensures.bind_any fun _ => Ensures.pure (rowsAfter_of_quiet hrows ?_ rfl rfl)
      exact hwal.trans (MooncakeTable.deleteInStreamBatch_quiet hwal.inv (hopen x rfl) row)

theorem streamAbort_rows {x : XactId} {recovery closes : Bool}
    (hopen : h.table.StreamOpen (.streamAbort x recovery closes)) :
    Ensures (h.processCdcTableEvent b (.streamAbort x recovery closes))
      (RowsAfter received loaded r h (.streamAbort x recovery closes)) := by
  refine processCdcTableEvent_ensures hnormal (fun _ _ => ?_) fun wal _ _ _ => ?_
  · exact rowsAfter_of_quiet hrows (setWal_quiet hrows h.table.wal) rfl rfl
  · have hwal := setWal_quiet hrows wal
    cases closes with
    | true => exact Ensures.ok (rowsAfter_of_quiet hrows hwal rfl rfl)
    | false =>
      refine Ensures.bind (MooncakeTable.abortInStreamBatch_quiet hwal.inv (hopen x rfl)) ?_
      intro t' hquiet
      exact Ensures.pure (rowsAfter_of_quiet hrows (hwal.trans hquiet) rfl rfl)

theorem mainCommit_rows (hlt : ∀ c ∈ received, c < lsn)
    (hloaded : h.discardsCommit lsn none recovery = false → loaded < lsn) :
    Ensures (h.processCdcTableEvent b (.commit lsn none recovery))
      (RowsAfter received loaded r h (.commit lsn none recovery)) := by
  have hreceive := (hrows.receive hlt).setUnflushed (by simp) (hrows.flushed.mono hlt)
  have hdiscards : h.discardsCommit lsn none recovery =
      (h.state.shouldDiscardEvent (.commit lsn none recovery) && !recovery) := discardsCommit_main
  refine processCdcTableEvent_ensures hnormal (fun hdiscard hrecovery => ?_) fun wal _ hrecovery hkeep => ?_
  · cases hrecovery
    refine ⟨?_, rfl, rfl⟩
    have htrack : r.track h ⟨h.table, h.state.updateTableLsns (.commit lsn none false)⟩
        (.commit lsn none false) = r := if_pos (by rw [hdiscards, hdiscard]; rfl)
    rw [htrack]
    exact hreceive
  · cases hrecovery
    have hkeep := hdiscards.trans hkeep
    have htaken : h.table.snapshotFlushLsn.getD 0 < lsn :=
      hrows.taken.elim (fun hle => Nat.lt_of_le_of_lt hle (hloaded hkeep)) (hlt _)
    refine (commitMain_rows (h := ⟨{ h.table with wal }, h.state.updateTableLsns _⟩)
      (hreceive.quiet (setWal_quiet hrows wal)) rfl htaken).mono ?_
    rintro ⟨t', s'⟩ ⟨hrows', u, hs'⟩
    cases hs'
    refine ⟨?_, rfl, rfl⟩
    have htrack : r.track h ⟨t', { h.state.updateTableLsns (.commit lsn none recovery) with
        lastUnflushedCommitLsn := u }⟩ (.commit lsn none recovery) = (r.commit lsn).drain h.table t' :=
      if_neg (by rw [hkeep]; simp)
    rw [htrack]
    exact hrows'

theorem streamCommit_rows {x : XactId} (hlt : ∀ c ∈ received, c < lsn)
    (hopen : h.table.StreamOpen (.commit lsn (some x) recovery)) :
    Ensures (h.processCdcTableEvent b (.commit lsn (some x) recovery))
      (RowsAfter received loaded r h (.commit lsn (some x) recovery)) := by
  refine processCdcTableEvent_ensures hnormal (fun hdiscard _ => ?_) fun wal _ _ _ => ?_
  · rw [shouldDiscardEvent_streaming rfl] at hdiscard
    cases hdiscard
  · have hwal := (hrows.receive hlt).quiet (setWal_quiet hrows wal)
    refine (commitStreaming_rows
      (h := ⟨{ h.table with wal }, h.state.updateTableLsns (.commit lsn (some x) recovery)⟩) hwal rfl
      (by simp) ((setWal_quiet hrows wal).lsns _ (hrows.flushed.mono hlt))
      (fun l hl => hlt l (hrows.unflushed l hl).1) (hopen x rfl)).mono ?_
    rintro ⟨t', s'⟩ ⟨hrows', u, hs'⟩
    cases hs'
    exact ⟨hrows', rfl, rfl⟩

end Events

/-- What the next commit must look like, where it is discarded if the flag is set. -/
def NextCommit (received : List Nat) (loaded : Nat) (h : TableHandler Row) (e : TableEvent Row) : Prop :=
  ∀ lsn discarded, PersistingHandler.commitOf h e = some (lsn, discarded) →
    (∀ c ∈ received, c < lsn) ∧ (discarded = false → loaded < lsn)

theorem processCdcTableEvent_rows
    (hrows : RowsInv received loaded h.table h.state.lastUnflushedCommitLsn
      h.state.tableConsistentViewLsn r)
    (hnormal : h.state.specialTableState = .normal) (hingest : e.isIngestEvent = true)
    (hopen : h.table.StreamOpen e) (hcommit : NextCommit received loaded h e) :
    Ensures (h.processCdcTableEvent b e) (RowsAfter received loaded r h e) := by
  cases e with
  | append row x lsn recovery => exact append_rows hrows hnormal hopen
  | delete row lsn x d recovery => exact delete_rows hrows hnormal hopen
  | commit lsn x recovery =>
    obtain ⟨hlt, hloaded⟩ := hcommit lsn _ rfl
    cases x with
    | none => exact mainCommit_rows hrows hnormal hlt hloaded
    | some x => exact streamCommit_rows hrows hnormal hlt hopen
  | streamAbort x recovery closes => exact streamAbort_rows hrows hnormal hopen
  | _ => cases hingest

end TableHandler

end Moonlink
