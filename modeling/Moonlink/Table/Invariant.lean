-- SUMMARY: The invariant that ties a table to the change stream it has received, and that each table operation keeps.
import Moonlink.Table.MooncakeSpec
import Moonlink.Table.Source
import Moonlink.Wal.PushSpec

namespace Moonlink

open Lib

/-- What is fixed while a table receives a change stream. -/
structure Setting where
  appendOnly : Bool
  /-- The persistent LSN of the handler. -/
  persistence : Option Nat
  /-- The LSN of files that were loaded. -/
  loaded : Nat
  /-- The highest completion LSN that the WAL started with. -/
  walLsn : Nat
  /-- Whether the assertions of snapshots are tracked as well. -/
  snapshots : Prop

namespace Setting

/-- Nothing above the persistent LSN happened before. -/
structure WellFormed (S : Setting) : Prop where
  loaded : S.loaded ≤ S.persistence.getD 0
  walLsn : S.walLsn ≤ S.persistence.getD 0
  snapshots : S.snapshots → S.persistence.getD 0 ≤ S.loaded

/-- The handler discards main events with this LSN. -/
def discards (S : Setting) (lsn : Nat) : Bool := S.persistence.any (lsn ≤ ·)

theorem lt_of_not_discards {S : Setting} {lsn : Nat} (hpos : 0 < lsn)
    (h : S.discards lsn = false) : S.persistence.getD 0 < lsn := by
  unfold discards at h
  cases hp : S.persistence with
  | none => exact hpos
  | some q =>
    rw [hp] at h
    simpa using h

theorem le_of_discards {S : Setting} {lsn : Nat} (h : S.discards lsn = true) :
    lsn ≤ S.persistence.getD 0 := by
  unfold discards at h
  cases hp : S.persistence with
  | none =>
    rw [hp] at h
    cases h
  | some q =>
    rw [hp] at h
    simpa using h

end Setting

/-- What the table holds, in terms of the stream. -/
structure ContentsInv {Row : Type} (S : Setting) (src : Source) (v : TableView Row)
    (t : MooncakeTable Row) : Prop where
  appendOnly : t.appendOnly = S.appendOnly
  applied : t.applied = v.applied
  uncommitted : t.uncommitted = v.openMain
  pending : t.pendingOps = v.openStreams
  mainClosed : src.openMain = none → v.openMain = []
  mainDropped : ∀ f, src.openMain = some f → S.discards f = true → v.openMain = []
  mainAfterLast : src.MainAfterLast
  opened : ∀ x, x ∈ src.openStreams ↔ v.openStreams x ≠ none
  known : ∀ x, t.transactionStreamStates.lookup x ≠ none →
    x ∈ src.openStreams ∨ x ∈ src.endedStreams
  deletion : ∀ d, t.nextSnapshotTask.lastDeletionLsn = some d → d ≤ src.openMain.getD src.lastEnd

/-- The LSN assertions of the next snapshot hold. -/
structure SnapshotInv {Row : Type} (t : MooncakeTable Row) : Prop where
  flushLe : t.FlushLsns (· ≤ t.nextSnapshotTask.commitLsnBaseline)
  taken : ∀ f, t.snapshotFlushLsn = some f →
    f ≤ t.nextSnapshotTask.commitLsnBaseline ∧ t.FlushesAbove f
  notPanicked : t.snapshotPanicked = false

/-- The LSNs of the table are bounded by the last transaction and the loaded files. The
last unflushed commit, if it is not one that was discarded, is above all flushes. -/
structure LsnInv {Row : Type} (S : Setting) (lastEnd : Nat) (t : MooncakeTable Row)
    (unflushed : Option Nat) : Prop where
  baseline : t.nextSnapshotTask.commitLsnBaseline ≤ max lastEnd S.loaded
  flushInv : t.FlushInv
  flushLsns : t.FlushLsns (· ≤ max lastEnd S.loaded)
  unflushedLe : ∀ l, unflushed = some l → 0 < l ∧ l ≤ lastEnd
  unflushed : ∀ l, unflushed = some l → l ≤ S.loaded ∨ (t.FlushLsns (· < l) ∧
    (S.snapshots → l ≤ t.nextSnapshotTask.commitLsnBaseline ∧
      ∀ f, t.snapshotFlushLsn = some f → f < l))
  snapshot : S.snapshots → SnapshotInv t

/-- The WAL accepts the next commit. -/
structure WalInv {Row : Type} (S : Setting) (lastEnd : Nat) (w : WalManager Row) : Prop where
  shape : MainShape w.mainTransactionTracker
  le : w.highestCompletionLsn ≤ max lastEnd S.walLsn
  ge : S.walLsn ≤ w.highestCompletionLsn

structure TableInv {Row : Type} (S : Setting) (src : Source) (v : TableView Row)
    (t : MooncakeTable Row) (unflushed : Option Nat) : Prop where
  contents : ContentsInv S src v t
  lsns : LsnInv S src.lastEnd t unflushed
  wal : WalInv S src.lastEnd t.wal

variable {Row : Type} {S : Setting} {src : Source} {v : TableView Row} {t t' : MooncakeTable Row}
variable {u : Option Nat} {lastEnd lastEnd' lsn : Nat}

/-- A new table, before the first event. -/
theorem TableInv_new {appendOnly : Bool} {wal : WalManager Row} (memSliceSize : Nat)
    (persistenceSnapshotLsn : Option Nat) (happend : appendOnly = S.appendOnly)
    (hshape : MainShape wal.mainTransactionTracker) (hwal : wal.highestCompletionLsn = S.walLsn)
    (hsnapshot : S.snapshots → persistenceSnapshotLsn = none) :
    TableInv S Source.init TableView.empty
      (MooncakeTable.new memSliceSize appendOnly persistenceSnapshotLsn wal) none where
  contents := {
    appendOnly := happend
    applied := rfl
    uncommitted := rfl
    pending := rfl
    mainClosed := fun _ => rfl
    mainDropped := nofun
    mainAfterLast := nofun
    opened := by simp [Source.init, TableView.empty]
    known := fun x hx => absurd rfl hx
    deletion := nofun }
  lsns := {
    baseline := Nat.zero_le _
    flushInv := ⟨nofun, List.Perm.nil⟩
    flushLsns := ⟨nofun, nofun, nofun,
      nofun⟩
    unflushedLe := nofun
    unflushed := nofun
    snapshot := by
      intro hs
      refine ⟨⟨nofun, nofun, nofun,
        nofun⟩, ?_, rfl⟩
      intro f hf
      rw [hsnapshot hs] at hf
      cases hf }
  wal := ⟨hshape, by rw [← hwal]; exact Nat.le_max_right _ _, Nat.le_of_eq hwal.symm⟩

/-! ## LSNs -/

namespace LsnInv

open MooncakeTable

/-- Later transactions only raise the bounds. -/
theorem mono (h : LsnInv S lastEnd t u) (hle : lastEnd ≤ lastEnd') : LsnInv S lastEnd' t u where
  baseline := by
    have := h.baseline
    omega
  flushInv := h.flushInv
  flushLsns := h.flushLsns.mono fun n hn => by omega
  unflushedLe l hl := ⟨(h.unflushedLe l hl).1, Nat.le_trans (h.unflushedLe l hl).2 hle⟩
  unflushed := h.unflushed
  snapshot := h.snapshot

/-- A step that leaves the contents alone and keeps the flush LSNs in their bounds. -/
theorem transfer (h : LsnInv S lastEnd t u) (hcontents : SameContents t t') (hinv : t'.FlushInv)
    (hbound : t'.FlushLsns (· ≤ max lastEnd S.loaded))
    (hunflushed : ∀ l, u = some l → t.FlushLsns (· < l) → l ≤ S.loaded ∨ t'.FlushLsns (· < l))
    (hle : S.snapshots → t.FlushLsns (· ≤ t.nextSnapshotTask.commitLsnBaseline) →
      t'.FlushLsns (· ≤ t.nextSnapshotTask.commitLsnBaseline))
    (habove : S.snapshots → ∀ f, t.snapshotFlushLsn = some f → t.FlushesAbove f → t'.FlushesAbove f) :
    LsnInv S lastEnd t' u := by
  have hbaseline : t'.nextSnapshotTask.commitLsnBaseline = t.nextSnapshotTask.commitLsnBaseline := by
    rw [hcontents]
    rfl
  have htaken : t'.snapshotFlushLsn = t.snapshotFlushLsn := by
    rw [hcontents]
    rfl
  have hpanicked : t'.snapshotPanicked = t.snapshotPanicked := by
    rw [hcontents]
    rfl
  refine ⟨by rw [hbaseline]; exact h.baseline, hinv, hbound, h.unflushedLe, ?_, ?_⟩
  · intro l hl
    rw [hbaseline, htaken]
    rcases h.unflushed l hl with hloaded | ⟨hlt, hsnap⟩
    · exact .inl hloaded
    · exact (hunflushed l hl hlt).imp_right fun hlt' => ⟨hlt', hsnap⟩
  · intro hs
    have hold := h.snapshot hs
    refine ⟨by rw [hbaseline]; exact hle hs hold.flushLe, ?_, by rw [hpanicked]; exact hold.notPanicked⟩
    intro f hf
    rw [htaken] at hf
    rw [hbaseline]
    exact ⟨(hold.taken f hf).1, habove hs f hf (hold.taken f hf).2⟩

/-- The invariant only looks at LSNs. -/
theorem congr (h : LsnInv S lastEnd t u) (hsame : SameLsns t t') : LsnInv S lastEnd t' u where
  baseline := by rw [hsame.baseline]; exact h.baseline
  flushInv := hsame.flushInv h.flushInv
  flushLsns := hsame.flushLsns h.flushLsns
  unflushedLe := h.unflushedLe
  unflushed l hl := by
    rw [hsame.baseline, hsame.taken]
    exact (h.unflushed l hl).imp_right fun ⟨hlt, hsnap⟩ => ⟨hsame.flushLsns hlt, hsnap⟩
  snapshot hs := by
    have hold := h.snapshot hs
    refine ⟨by rw [hsame.baseline]; exact hsame.flushLsns hold.flushLe, ?_,
      hsame.panicked.trans hold.notPanicked⟩
    intro f hf
    rw [hsame.taken] at hf
    rw [hsame.baseline]
    exact ⟨(hold.taken f hf).1, hsame.flushesAbove (hold.taken f hf).2⟩

theorem streamStep {ops : XactId → Option (List (RowOp Row))} (h : LsnInv S lastEnd t u)
    (hstep : StreamStep ops t t') : LsnInv S lastEnd t' u :=
  h.transfer hstep.contents hstep.inv (hstep.lsns _ h.flushLsns)
    (fun _ _ hlt => .inr (hstep.lsns _ hlt)) (fun _ hle => hstep.lsns _ hle)
    (fun _ f _ habove => hstep.above f habove)

/-- The flush of a main disk slice completes. -/
theorem flushResult (h : LsnInv S lastEnd t u) (hmem : lsn ∈ t.ongoingFlushLsns)
    (hstep : FlushStep lsn t t') : LsnInv S lastEnd t' u :=
  h.transfer hstep.contents hstep.inv (hstep.lsns _ (h.flushLsns.ongoing lsn hmem) h.flushLsns)
    (fun _ _ hlt => .inr (hstep.lsns _ (hlt.ongoing lsn hmem) hlt))
    (fun _ hle => hstep.lsns _ (hle.ongoing lsn hmem) hle)
    (fun _ f _ habove => hstep.above f (habove.ongoing lsn hmem) habove)

/-- A flush at the last unflushed commit, unless that one was discarded. -/
theorem flush (h : LsnInv S lastEnd t (some lsn)) (hclosed : t.uncommitted = [])
    (hlt : S.loaded < lsn) :
    Returns (t.flush lsn) fun t' => FlushStep lsn t t' ∧ LsnInv S lastEnd t' none := by
  obtain ⟨hflushes, hsnap⟩ := (h.unflushed lsn rfl).resolve_left (Nat.not_le.mpr hlt)
  have hle := (h.unflushedLe lsn rfl).2
  have hnone : LsnInv S lastEnd t none :=
    ⟨h.baseline, h.flushInv, h.flushLsns, by simp, by simp, h.snapshot⟩
  refine Returns.mono (flush_returns h.flushInv hclosed hflushes) ?_
  intro t' hstep
  refine ⟨hstep, ?_⟩
  exact hnone.transfer hstep.contents hstep.inv (hstep.lsns _ (by omega) h.flushLsns)
    nofun (fun hs hle => hstep.lsns _ (hsnap hs).1 hle)
    (fun hs f hf habove => hstep.above f ((hsnap hs).2 f hf) habove)

/-- The commit of a main transaction above everything before. -/
theorem mainCommit (h : LsnInv S lastEnd t u) (hlt : max lastEnd S.loaded < lsn) :
    LsnInv S lsn { t with
      applied := t.applied ++ [⟨.main, lsn, t.uncommitted⟩]
      uncommitted := []
      nextSnapshotTask := { t.nextSnapshotTask with commitLsnBaseline := lsn } } (some lsn) where
  baseline := Nat.le_max_left _ _
  flushInv := ⟨h.flushInv.next_lt, h.flushInv.tracked⟩
  flushLsns :=
    have hall := h.flushLsns.mono (q := (· ≤ max lsn S.loaded)) fun n hn => by omega
    ⟨hall.next, hall.last, hall.ongoing, hall.completed⟩
  unflushedLe := by
    rintro l ⟨⟩
    exact ⟨by omega, Nat.le_refl _⟩
  unflushed := by
    rintro l ⟨⟩
    have hall := h.flushLsns.mono (q := (· < lsn)) fun n hn => by omega
    refine .inr ⟨⟨hall.next, hall.last, hall.ongoing, hall.completed⟩, fun hs => ⟨Nat.le_refl _, ?_⟩⟩
    intro f hf
    have hle := ((h.snapshot hs).taken f hf).1
    have hbaseline := h.baseline
    omega
  snapshot hs := by
    have hall := h.flushLsns.mono (q := (· ≤ lsn)) fun n hn => by omega
    have hold := h.snapshot hs
    have hbaseline := h.baseline
    refine ⟨⟨hall.next, hall.last, hall.ongoing, hall.completed⟩, ?_, hold.notPanicked⟩
    intro f hf
    obtain ⟨hle, habove⟩ := hold.taken f hf
    exact ⟨by simp only; omega, habove.next, habove.ongoing⟩

/-- A discarded commit of a main transaction still becomes the last unflushed one. -/
theorem discardCommit (h : LsnInv S lastEnd t u) (hS : S.WellFormed) (hlt : lastEnd < lsn)
    (hdiscards : S.discards lsn = true) : LsnInv S lsn t (some lsn) := by
  have hmono := h.mono (Nat.le_of_lt hlt)
  refine ⟨hmono.baseline, hmono.flushInv, hmono.flushLsns, ?_, ?_, hmono.snapshot⟩
  · rintro l ⟨⟩
    exact ⟨by omega, Nat.le_refl _⟩
  · rintro l ⟨⟩
    by_cases hloaded : lsn ≤ S.loaded
    · exact .inl hloaded
    · refine .inr ⟨h.flushLsns.mono fun n hn => by omega, fun hs => ?_⟩
      have hle := Setting.le_of_discards hdiscards
      have := hS.snapshots hs
      omega

/-- The commit of a streaming transaction above everything before. -/
theorem streamCommit {x : XactId} {st : TransactionStreamState Row} (h : LsnInv S lastEnd t none)
    (hlook : t.transactionStreamStates.lookup x = some st) (hst : st.status = .pending)
    (hlt : max lastEnd S.loaded < lsn) : LsnInv S lsn (t.withStreamCommit x lsn st) none where
  baseline := Nat.le_max_left _ _
  flushInv := h.flushInv.withStreamCommit hlook hst (h.flushLsns.mono fun n hn => by omega)
  flushLsns := FlushLsns.withStreamCommit (h.flushLsns.mono fun n hn => by omega)
    (Nat.le_max_left _ _)
  unflushedLe := by simp
  unflushed := by simp
  snapshot hs := by
    have hold := h.snapshot hs
    have hbaseline := h.baseline
    refine ⟨FlushLsns.withStreamCommit (h.flushLsns.mono fun n hn => by
      change n ≤ lsn
      omega) (Nat.le_refl _), ?_, hold.notPanicked⟩
    intro f hf
    obtain ⟨hle, habove⟩ := hold.taken f hf
    exact ⟨by change f ≤ lsn; omega, habove.withStreamCommit (by omega)⟩

end LsnInv

theorem SnapshotInv.valid (h : SnapshotInv t) (forceCreate : Bool) :
    MooncakeTable.validateInvariants t.snapshotFlushLsn t.nextSnapshotTask forceCreate = true := by
  unfold MooncakeTable.validateInvariants
  cases hn : t.nextSnapshotTask.newFlushLsn with
  | none => simp
  | some n =>
    cases hf : t.snapshotFlushLsn with
    | none => simp
    | some f =>
      have hlt := (h.taken f hf).2.next n hn
      have hle : n ≤ t.nextSnapshotTask.commitLsnBaseline := h.flushLe.next n hn
      have hle' : f ≤ n := Nat.le_of_lt hlt
      cases forceCreate <;> simp [hlt, hle, hle']

/-- The flush LSN of the snapshot that is created. -/
theorem SnapshotInv.taken_cases (h : SnapshotInv t) {forceCreate : Bool} {f : Nat}
    (hf : (t.createSnapshotImpl forceCreate).snapshotFlushLsn = some f) :
    t.nextSnapshotTask.newFlushLsn = some f ∨ t.snapshotFlushLsn = some f := by
  simp only [MooncakeTable.createSnapshotImpl, h.valid forceCreate, if_true] at hf
  cases hn : t.nextSnapshotTask.newFlushLsn with
  | none =>
    rw [hn] at hf
    exact .inr hf
  | some n =>
    rw [hn] at hf
    exact .inl hf

/-- A snapshot takes the next flush LSN over, and its assertions hold. -/
theorem LsnInv.createSnapshot (h : LsnInv S lastEnd t u) (forceCreate : Bool) :
    LsnInv S lastEnd (t.createSnapshotImpl forceCreate) u where
  baseline := h.baseline
  flushInv := ⟨nofun, h.flushInv.tracked⟩
  flushLsns := ⟨nofun, h.flushLsns.last, h.flushLsns.ongoing,
    h.flushLsns.completed⟩
  unflushedLe := h.unflushedLe
  unflushed := by
    intro l hl
    rcases h.unflushed l hl with hloaded | ⟨hlt, hsnap⟩
    · exact .inl hloaded
    · refine .inr ⟨⟨nofun, hlt.last, hlt.ongoing, hlt.completed⟩, ?_⟩
      intro hs
      refine ⟨(hsnap hs).1, ?_⟩
      intro f hf
      rcases (h.snapshot hs).taken_cases hf with hnew | hold
      · exact hlt.next f hnew
      · exact (hsnap hs).2 f hold
  snapshot := by
    intro hs
    have hold := h.snapshot hs
    refine ⟨⟨nofun, hold.flushLe.last, hold.flushLe.ongoing,
      hold.flushLe.completed⟩, ?_, ?_⟩
    · intro f hf
      rcases hold.taken_cases hf with hnew | htaken
      · exact ⟨hold.flushLe.next f hnew, nofun, h.flushInv.next_lt f hnew⟩
      · exact ⟨(hold.taken f htaken).1, nofun, (hold.taken f htaken).2.ongoing⟩
    · simp [MooncakeTable.createSnapshotImpl, hold.valid forceCreate, hold.notPanicked]

/-! ## The write-ahead log -/

/-- A commit below the highest completion LSN that the WAL started with is not accepted. -/
theorem WalInv.push {b : Build} {w : WalManager Row} {e : TableEvent Row} (h : WalInv S lastEnd w)
    (hrecovery : e.isRecovery = .ok false) (hingest : e.isIngestEvent = true)
    (hle : lastEnd ≤ lastEnd')
    (hcommit : ∀ lsn, WalManager.commitLsn? e = some lsn →
      max lastEnd S.walLsn ≤ lsn ∧ lsn ≤ lastEnd') :
    Returns (w.push b e) (WalInv S lastEnd') := by
  have hhigh : ∀ lsn, WalManager.commitLsn? e = some lsn → w.highestCompletionLsn ≤ lsn :=
    fun lsn hlsn => Nat.le_trans h.le (hcommit lsn hlsn).1
  refine Returns.mono (WalManager.push_returns h.shape hrecovery hingest hhigh) ?_
  rintro w' ⟨hshape, hhighest⟩
  have hold := h.le
  have hold' := h.ge
  cases hlsn : WalManager.commitLsn? e with
  | none =>
    rw [hlsn, Option.getD_none] at hhighest
    exact ⟨hshape, by omega, by omega⟩
  | some lsn =>
    rw [hlsn, Option.getD_some] at hhighest
    obtain ⟨hge, hle'⟩ := hcommit lsn hlsn
    exact ⟨hshape, by omega, by omega⟩

/-! ## Contents -/

namespace ContentsInv

open MooncakeTable

/-- Bookkeeping of flushes does not change what the table holds. -/
theorem bookkeeping (h : ContentsInv S src v t) (hcontents : SameContents t t')
    (hpending : t'.pendingOps = t.pendingOps)
    (hknown : ∀ x, t'.transactionStreamStates.lookup x ≠ none →
      t.transactionStreamStates.lookup x ≠ none) : ContentsInv S src v t' :=
  { h with
    appendOnly := by rw [hcontents]; exact h.appendOnly
    applied := by rw [hcontents]; exact h.applied
    uncommitted := by rw [hcontents]; exact h.uncommitted
    pending := by rw [hpending]; exact h.pending
    known x hx := h.known x (hknown x hx)
    deletion := by rw [hcontents]; exact h.deletion }

theorem flushStep {n : Nat} (h : ContentsInv S src v t) (hstep : FlushStep n t t') :
    ContentsInv S src v t' :=
  h.bookkeeping hstep.contents (by funext x; simp only [pendingOps, hstep.streams])
    (fun x hx => by rwa [hstep.streams] at hx)

theorem streamFlushStep (h : ContentsInv S src v t) (hstep : StreamStep t.pendingOps t t') :
    ContentsInv S src v t' :=
  h.bookkeeping hstep.contents hstep.pending (fun x hx => by
    rcases hstep.known x hx with hk | hk
    · exact hk
    · exact lookup_ne_none hk)

/-- An event of a main transaction that is discarded. -/
theorem discardRow {finalLsn : Nat} (h : ContentsInv S src v t)
    (hmain : src.openMain = some finalLsn ∨ src.openMain = none ∧ src.lastEnd ≤ finalLsn)
    (hdiscards : S.discards finalLsn = true) :
    ContentsInv S { src with openMain := some finalLsn } v t :=
  { h with
    mainClosed := nofun
    mainDropped := by
      rintro f ⟨⟩ -
      rcases hmain with hopen | ⟨hnone, -⟩
      · exact h.mainDropped finalLsn hopen hdiscards
      · exact h.mainClosed hnone
    mainAfterLast := by
      rintro f ⟨⟩
      rcases hmain with hopen | ⟨-, hle⟩
      · exact h.mainAfterLast finalLsn hopen
      · exact hle
    deletion := by
      intro d hd
      have hle := h.deletion d hd
      rcases hmain with hopen | ⟨hnone, hlast⟩
      · rw [hopen] at hle
        exact hle
      · rw [hnone] at hle
        exact Nat.le_trans hle hlast }

theorem discardCommit {finalLsn endLsn : Nat} (h : ContentsInv S src v t)
    (hmain : src.openMain = some finalLsn) (hlt : finalLsn < endLsn)
    (hdiscards : S.discards endLsn = true) :
    ContentsInv S { src with lastEnd := endLsn, openMain := none, lastMain := some endLsn } v t :=
  { h with
    mainClosed := fun _ => h.mainDropped finalLsn hmain (by
      unfold Setting.discards at hdiscards ⊢
      cases hp : S.persistence with
      | none =>
        rw [hp] at hdiscards
        cases hdiscards
      | some q =>
        rw [hp] at hdiscards
        have hle : endLsn ≤ q := by simpa using hdiscards
        simp only [Option.any_some, decide_eq_true_eq]
        omega)
    mainDropped := nofun
    mainAfterLast := nofun
    deletion := by
      intro d hd
      have hle := h.deletion d hd
      rw [hmain] at hle
      simp only [Option.getD_some] at hle
      simp only [Option.getD_none]
      omega }

/-- A row of a main transaction that is kept. The open transaction is known by the largest
LSN `n` of its rows. -/
theorem mainRow {finalLsn n : Nat} {op : RowOp Row} (h : ContentsInv S src v t)
    (hge : src.openMain.getD src.lastEnd ≤ n) (hlsn : finalLsn ≤ n)
    (hkeeps : S.discards n = false)
    (happend : t'.appendOnly = t.appendOnly) (happlied : t'.applied = t.applied)
    (huncommitted : t'.uncommitted = t.uncommitted ++ [op])
    (hstreams : t'.transactionStreamStates = t.transactionStreamStates)
    (hdeletion : ∀ d, t'.nextSnapshotTask.lastDeletionLsn = some d →
      t.nextSnapshotTask.lastDeletionLsn = some d ∨ d = finalLsn) :
    ContentsInv S { src with openMain := some n } { v with openMain := v.openMain ++ [op] } t' where
  appendOnly := happend.trans h.appendOnly
  applied := happlied.trans h.applied
  uncommitted := by rw [huncommitted, h.uncommitted]
  pending := by
    rw [← h.pending]
    funext x
    simp only [pendingOps, hstreams]
  mainClosed := nofun
  mainDropped := by
    rintro f ⟨⟩ hdiscards
    rw [hkeeps] at hdiscards
    cases hdiscards
  mainAfterLast := by
    rintro f ⟨⟩
    cases hopen : src.openMain with
    | none =>
      rw [hopen] at hge
      exact hge
    | some f' =>
      rw [hopen] at hge
      exact Nat.le_trans (h.mainAfterLast f' hopen) hge
  opened := h.opened
  known := by
    rw [hstreams]
    exact h.known
  deletion := by
    intro d hd
    rcases hdeletion d hd with hold | rfl
    · exact Nat.le_trans (h.deletion d hold) hge
    · exact hlsn

variable {endLsn : Nat}

theorem mainCommit (h : ContentsInv S src v t)
    (hlt : src.openMain.getD src.lastEnd < endLsn) :
    ContentsInv S { src with lastEnd := endLsn, openMain := none, lastMain := some endLsn }
      ({ v with openMain := [] }.applyXact .main endLsn v.openMain)
      { t with
        applied := t.applied ++ [⟨.main, endLsn, t.uncommitted⟩]
        uncommitted := []
        nextSnapshotTask := { t.nextSnapshotTask with commitLsnBaseline := endLsn } } :=
  { h with
    applied := by
      rw [h.applied, h.uncommitted]
      rfl
    uncommitted := rfl
    mainClosed := fun _ => rfl
    mainDropped := nofun
    mainAfterLast := nofun
    deletion := by
      intro d hd
      exact Nat.le_of_lt (Nat.lt_of_le_of_lt (h.deletion d hd) hlt) }

/-! ### Streaming transactions -/

variable {x : XactId}

/-- An id that has not ended is new to the table or belongs to an open transaction. -/
theorem pending_of_known (h : ContentsInv S src v t) (hnew : x ∉ src.endedStreams) :
    ∀ st, t.transactionStreamStates.lookup x = some st → st.status = .pending := by
  intro st hst
  have hopen : x ∈ src.openStreams := (h.known x (by simp [hst])).resolve_right hnew
  have hsome := (h.opened x).mp hopen
  rw [← h.pending] at hsome
  obtain ⟨ops, hops⟩ := Option.ne_none_iff_exists'.mp hsome
  obtain ⟨st', hst', hpending, -⟩ := pendingOps_eq_some_iff.mp hops
  rw [hst] at hst'
  cases hst'
  exact hpending

/-- An open transaction has a pending state, with its changes so far. -/
theorem exists_pending (h : ContentsInv S src v t) (hopen : x ∈ src.openStreams) :
    ∃ st, t.transactionStreamStates.lookup x = some st ∧ st.status = .pending ∧
      v.openStreams x = some st.ops := by
  obtain ⟨ops, hops⟩ := Option.ne_none_iff_exists'.mp ((h.opened x).mp hopen)
  rw [← h.pending] at hops
  obtain ⟨st, hst, hpending, rfl⟩ := pendingOps_eq_some_iff.mp hops
  rw [h.pending] at hops
  exact ⟨st, hst, hpending, hops⟩

theorem streamRow {op : RowOp Row} (h : ContentsInv S src v t)
    (hstep : StreamStep (Function.update t.pendingOps x (some ((t.pendingOps x).getD [] ++ [op]))) t t') :
    ContentsInv S { src with openStreams := x :: src.openStreams.filter (· != x) }
      (v.streamRows x [op]) t' where
  appendOnly := by rw [hstep.contents]; exact h.appendOnly
  applied := by rw [hstep.contents]; exact h.applied
  uncommitted := by rw [hstep.contents]; exact h.uncommitted
  pending := by
    rw [hstep.pending, h.pending]
    rfl
  mainClosed := h.mainClosed
  mainDropped := h.mainDropped
  mainAfterLast := h.mainAfterLast
  opened := by
    intro y
    by_cases hy : y = x
    · subst hy
      simp [TableView.streamRows]
    · simp [TableView.streamRows, hy, h.opened y]
  known := by
    intro y hy
    by_cases hyx : y = x
    · subst hyx
      exact .inl (by simp)
    · rcases hstep.known y hy with hk | hk
      · refine (h.known y hk).imp_left fun hopen => ?_
        exact List.mem_cons_of_mem _ (List.mem_filter.mpr ⟨hopen, by simpa using hyx⟩)
      · rw [Function.update_of_ne hyx, h.pending] at hk
        refine .inl (List.mem_cons_of_mem _ (List.mem_filter.mpr ⟨(h.opened y).mpr hk, ?_⟩))
        simpa using hyx
  deletion := by rw [hstep.contents]; exact h.deletion

variable {lastMain : Option Nat}

/-- What the end of a streaming transaction does to the open transactions. -/
theorem endStream (applied : List (AppliedXact Row))
    (h : ContentsInv S src v t) (hmain : src.openMain = none)
    (happend : t'.appendOnly = t.appendOnly) (happlied : t'.applied = applied)
    (huncommitted : t'.uncommitted = t.uncommitted)
    (hpending : t'.pendingOps = Function.update t.pendingOps x none)
    (hknown : ∀ y, t'.transactionStreamStates.lookup y ≠ none →
      y = x ∨ t.transactionStreamStates.lookup y ≠ none)
    (hdeletion : t'.nextSnapshotTask.lastDeletionLsn = t.nextSnapshotTask.lastDeletionLsn)
    (hle : src.lastEnd ≤ endLsn) :
    ContentsInv S { src.endStream x with lastEnd := endLsn, lastMain } { v.endStream x with applied } t' where
  appendOnly := happend.trans h.appendOnly
  applied := happlied
  uncommitted := huncommitted.trans h.uncommitted
  pending := by
    rw [hpending, h.pending]
    rfl
  mainClosed := h.mainClosed
  mainDropped := h.mainDropped
  mainAfterLast := by
    intro f hf
    simp only [Source.endStream, hmain] at hf
    cases hf
  opened := by
    intro y
    by_cases hy : y = x
    · subst hy
      simp [TableView.endStream, Source.endStream]
    · simp [TableView.endStream, Source.endStream, hy, h.opened y]
  known := by
    intro y hy
    by_cases hyx : y = x
    · subst hyx
      exact .inr (by simp [Source.endStream])
    · rcases hknown y hy with rfl | hk
      · exact absurd rfl hyx
      · refine (h.known y hk).imp (fun hopen => ?_) (fun hended => List.mem_cons_of_mem _ hended)
        exact List.mem_filter.mpr ⟨hopen, by simpa using hyx⟩
  deletion := by
    intro d hd
    rw [hdeletion] at hd
    have hd' := h.deletion d hd
    simp only [Source.endStream, hmain, Option.getD_none] at hd' ⊢
    exact Nat.le_trans hd' hle

/-- A streaming transaction is aborted, or discarded at its commit. -/
theorem abortStream (h : ContentsInv S src v t)
    (hmain : src.openMain = none) (hstep : StreamStep (Function.update t.pendingOps x none) t t')
    (hle : src.lastEnd ≤ endLsn) :
    ContentsInv S { src.endStream x with lastEnd := endLsn, lastMain } (v.endStream x) t' := by
  refine endStream v.applied h hmain (by rw [hstep.contents]; rfl)
    (by rw [hstep.contents]; exact h.applied) hstep.contents.uncommitted hstep.pending ?_
    (by rw [hstep.contents]; rfl) hle
  intro y hy
  by_cases hyx : y = x
  · exact .inl hyx
  · refine .inr ?_
    rcases hstep.known y hy with hk | hk
    · exact hk
    · rw [Function.update_of_ne hyx] at hk
      exact lookup_ne_none hk

theorem streamCommit {st : TransactionStreamState Row}
    (h : ContentsInv S src v t) (hmain : src.openMain = none) (hops : v.openStreams x = some st.ops)
    (hle : src.lastEnd ≤ endLsn) :
    ContentsInv S { src.endStream x with lastEnd := endLsn, lastMain }
      ((v.endStream x).applyXact (.stream x) endLsn ((v.openStreams x).getD []))
      (t.withStreamCommit x endLsn st) := by
  change ContentsInv S _ { v.endStream x with
    applied := v.applied ++ [⟨.stream x, endLsn, (v.openStreams x).getD []⟩] } _
  refine endStream _ h hmain rfl ?_ rfl pendingOps_withStreamCommit ?_ rfl hle
  · rw [hops, ← h.applied]
    rfl
  · intro y hy
    by_cases hyx : y = x
    · exact .inl hyx
    · unfold withStreamCommit at hy
      simp only [AList.lookup_insert_ne hyx] at hy
      exact .inr hy

end ContentsInv
end Moonlink
