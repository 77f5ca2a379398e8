-- SUMMARY: When reads are not stale and do not panic: invariants over all interleavings of the sink, snapshots and readers.
import Moonlink.Lib.TransitionSystem
import Moonlink.UnionRead.ReadStateManager

namespace Moonlink.UnionRead

open Lib

namespace ReadSystem

variable {s s' : ReadSystem}

/-! ## LSNs -/

/-- The state shows every transaction up to `n`. -/
def Shows (s : ReadSystem) (state : ReadState) (n : Nat) : Prop := ∀ lsn ∈ s.xacts, lsn ≤ n → lsn ∈ state

/-- The commits that the handler has not taken, in order. -/
def pending (s : ReadSystem) : List Nat :=
  s.queue ++ match s.committing with
    | some (.marked lsn) => [lsn]
    | _ => []

/-- The LSNs are ordered, and each snapshot shows the transactions up to its version. -/
structure LsnInv (s : ReadSystem) : Prop where
  pos : ∀ lsn ∈ s.xacts, 0 < lsn
  le_commit : ∀ lsn ∈ s.xacts, lsn ≤ s.commitLsn
  commit_le : s.commitLsn ≤ max (s.persistenceLsn.getD 0) s.lastCommit
  persistence_le : s.persistenceLsn.getD 0 ≤ s.commitLsn
  commit_lt : s.commitLsn < u64Max
  persisted : ∀ lsn ∈ s.xacts, lsn ≤ s.persistenceLsn.getD 0 → lsn ∈ s.tableSnapshot
  subset : ∀ lsn ∈ s.tableSnapshot, lsn ∈ s.applied
  arrived : ∀ lsn ∈ s.xacts, lsn ∈ s.applied ∨ lsn ∈ s.pending
  order : s.pending.Pairwise (· < ·)
  later : ∀ lsn ∈ s.pending, s.commitLsnBaseline < lsn ∧ lsn ≤ s.lastCommit ∧ lsn ≤ s.commitLsn
  pendingKnown : ∀ lsn ∈ s.pending, lsn ∈ s.xacts
  baseline : s.commitLsnBaseline = 0 ∨ s.persistenceLsn.getD 0 < s.commitLsnBaseline
  baseline_le : s.commitLsnBaseline ≤ s.commitLsn
  version_le : s.snapshotVersion ≤ max s.commitLsnBaseline (s.persistenceLsn.getD 0)
  shown : s.Shows s.tableSnapshot s.snapshotVersion
  published : s.snapshotLsn = noSnapshotLsn ∨ s.snapshotLsn ≤ s.snapshotVersion

variable {lsn : Nat}

theorem isPersisted_iff (hpos : 0 < lsn) :
    s.isPersisted lsn = true ↔ lsn ≤ s.persistenceLsn.getD 0 := by
  unfold isPersisted
  cases s.persistenceLsn with
  | none => simp; omega
  | some p => simp

theorem LsnInv.init (loaded : LoadedSnapshot) (replicationLsn : Nat) :
    LsnInv (init loaded replicationLsn) := by
  have hle : ∀ lsn ∈ loaded.xacts, lsn ≤ loaded.persistenceLsn.getD 0 := by
    intro lsn hlsn
    obtain ⟨-, p, hp, hle⟩ := loaded.xacts_le lsn hlsn
    rw [Option.mem_def.mp hp]
    exact hle
  exact {
    pos := fun lsn hlsn => (loaded.xacts_le lsn hlsn).1
    le_commit := hle
    commit_le := Nat.le_max_left _ _
    persistence_le := Nat.le_refl _
    commit_lt := by
      cases hp : loaded.persistenceLsn with
      | none => simp [ReadSystem.init, hp, noCommitLsn, u64Max]
      | some p => simpa [ReadSystem.init, hp] using loaded.persistenceLsn_lt p hp
    persisted := fun lsn hlsn _ => hlsn
    subset := fun lsn hlsn => hlsn
    arrived := fun lsn hlsn => .inl hlsn
    order := List.Pairwise.nil
    later := nofun
    pendingKnown := nofun
    baseline := .inl rfl
    baseline_le := Nat.zero_le _
    version_le := Nat.le_max_right _ _
    shown := fun lsn hlsn _ => hlsn
    published := by
      cases hp : loaded.persistenceLsn with
      | none => exact .inl (by simp [ReadSystem.init, hp])
      | some p => exact .inr (by simp [ReadSystem.init, hp]) }

variable {failure : Option ReadFailure}

/-- A reader only changes itself and the cache. -/
theorem readerNext_frame {id : Nat} (h : s.readerNext id failure = some s') :
    ∃ manager reader, s' = setReader { s with manager } id reader := by
  unfold readerNext at h
  split at h
  all_goals first
    | (cases h; exact ⟨_, _, rfl⟩)
    | cases h

/-- What the guard of a commit says. -/
theorem canCommit_iff (h : s.canCommit lsn = true) :
    s.committing = none ∧ s.lastCommit < lsn ∧ lsn < u64Max ∧
      (s.isPersisted lsn = true → lsn ∈ s.xacts) := by
  simp only [canCommit, Bool.and_eq_true, Option.isNone_iff_eq_none, decide_eq_true_eq,
    Bool.or_eq_true, Bool.not_eq_true', List.contains_iff_mem] at h
  refine ⟨h.1.1.1.1, h.1.1.1.2, h.1.2, fun hp => h.2.resolve_left ?_⟩
  simp [hp]

/-- A commit of the table is new, and above everything before, or in the loaded snapshot. -/
theorem LsnInv.commit_cases (h : LsnInv s) (hcan : s.canCommit lsn = true) :
    (lsn ∈ s.xacts ∧ lsn ≤ s.persistenceLsn.getD 0) ∨ (lsn ∉ s.xacts ∧ s.commitLsn < lsn) := by
  obtain ⟨-, hlast, -, hpersisted⟩ := canCommit_iff hcan
  have hpos : 0 < lsn := by omega
  by_cases hp : lsn ≤ s.persistenceLsn.getD 0
  · exact .inl ⟨hpersisted ((isPersisted_iff hpos).mpr hp), hp⟩
  · have hlt : s.commitLsn < lsn := by
      have hle := h.commit_le
      omega
    refine .inr ⟨fun hmem => ?_, hlt⟩
    have hle := h.le_commit lsn hmem
    omega

theorem LsnInv.markCommit (h : LsnInv s) (hcan : s.canCommit lsn = true) :
    LsnInv { s with
      xacts := if s.xacts.contains lsn then s.xacts else s.xacts ++ [lsn]
      commitLsn := max s.commitLsn lsn
      lastCommit := lsn
      committing := some (.marked lsn) } := by
  obtain ⟨hnone, hlast, hmax, -⟩ := canCommit_iff hcan
  have hqueue : s.pending = s.queue := by simp [pending, hnone]
  have hmem : ∀ l, l ∈ (if s.xacts.contains lsn then s.xacts else s.xacts ++ [lsn]) ↔
      l ∈ s.xacts ∨ l = lsn := by
    intro l
    split
    · rename_i hin
      rw [List.contains_iff_mem] at hin
      exact ⟨.inl, fun hl => hl.elim id fun heq => heq ▸ hin⟩
    · simp
  have hnew := h.commit_cases hcan
  have hbaseline : s.commitLsnBaseline < lsn := by
    rcases hnew with ⟨hold, hp⟩ | ⟨-, hlt⟩
    · rcases h.baseline with h0 | hb
      · have hpos := h.pos lsn hold
        omega
      · have hle := h.baseline_le
        have hcommit := h.commit_le
        omega
    · have hle := h.baseline_le
      omega
  have hshows : ∀ n, n ≤ s.commitLsn → ∀ l, l ∈ s.xacts ∨ l = lsn → l ≤ n →
      l ∈ s.xacts := by
    rintro n hn l (hl | rfl) hle
    · exact hl
    · rcases hnew with ⟨hold, -⟩ | ⟨-, hlt⟩
      · exact hold
      · omega
  have hversion : s.snapshotVersion ≤ s.commitLsn := by
    have hle := h.version_le
    have hb := h.baseline_le
    have hp := h.persistence_le
    omega
  exact { h with
    pos := by
      intro l hl
      rcases (hmem l).mp hl with hl | rfl
      · exact h.pos l hl
      · omega
    le_commit := by
      intro l hl
      rcases (hmem l).mp hl with hl | rfl
      · have hle := h.le_commit l hl
        simp only
        omega
      · exact Nat.le_max_right _ _
    commit_le := by
      have hle := h.commit_le
      simp only
      omega
    persistence_le := by
      have hle := h.persistence_le
      simp only
      omega
    commit_lt := by
      have hlt := h.commit_lt
      simp only
      omega
    persisted := by
      intro l hl hp
      exact h.persisted l (hshows _ h.persistence_le l ((hmem l).mp hl) hp) hp
    arrived := by
      intro l hl
      rcases (hmem l).mp hl with hl | rfl
      · rcases h.arrived l hl with happlied | hpending
        · exact .inl happlied
        · exact .inr (List.mem_append_left _ (hqueue ▸ hpending))
      · exact .inr (List.mem_append_right _ List.mem_cons_self)
    order := by
      refine List.pairwise_append.mpr ⟨hqueue ▸ h.order, List.pairwise_singleton _ _, ?_⟩
      intro l hl l' hl'
      rw [List.mem_singleton.mp hl']
      have hle := (h.later l (hqueue ▸ hl)).2.1
      omega
    later := by
      intro l hl
      rcases List.mem_append.mp hl with hl | hl
      · obtain ⟨hb, hle, hc⟩ := h.later l (hqueue ▸ hl)
        simp only
        omega
      · rw [List.mem_singleton.mp hl]
        exact ⟨hbaseline, Nat.le_refl _, Nat.le_max_right _ _⟩
    pendingKnown := by
      intro l hl
      rcases List.mem_append.mp hl with hl | hl
      · exact (hmem l).mpr (.inl (h.pendingKnown l (hqueue ▸ hl)))
      · exact (hmem l).mpr (.inr (List.mem_singleton.mp hl))
    baseline_le := by
      have hle := h.baseline_le
      simp only
      omega
    shown := by
      intro l hl hle
      exact h.shown l (hshows _ hversion l ((hmem l).mp hl) hle) hle }

theorem LsnInv.processCommit (h : LsnInv s) {queue : List Nat}
    (hqueue : s.queue = lsn :: queue) (hp : s.isPersisted lsn = false) :
    LsnInv { s with queue, applied := s.applied ++ [lsn], commitLsnBaseline := lsn } := by
  have hmem : ∀ l, l ∈ s.pending ↔ l = lsn ∨
      l ∈ pending { s with queue, applied := s.applied ++ [lsn], commitLsnBaseline := lsn } := by
    intro l
    unfold pending
    rw [hqueue, List.cons_append]
    exact List.mem_cons
  have hfirst := (hmem lsn).mpr (.inl rfl)
  obtain ⟨hbaseline, -, hcommit⟩ := h.later lsn hfirst
  have hpos := h.pos lsn (h.pendingKnown lsn hfirst)
  have hlt : s.persistenceLsn.getD 0 < lsn := by
    have hiff := (isPersisted_iff (s := s) hpos).not
    rw [Bool.not_eq_true] at hiff
    exact Nat.lt_of_not_le (hiff.mp hp)
  have horder : ∀ l ∈ pending { s with queue, applied := s.applied ++ [lsn], commitLsnBaseline := lsn },
      lsn < l := by
    have hsorted := h.order
    unfold pending at hsorted ⊢
    rw [hqueue, List.cons_append] at hsorted
    exact fun l hl => List.rel_of_pairwise_cons hsorted hl
  exact { h with
    subset := fun l hl => List.mem_append_left _ (h.subset l hl)
    arrived := by
      intro l hl
      rcases h.arrived l hl with happlied | hpending
      · exact .inl (List.mem_append_left _ happlied)
      · rcases (hmem l).mp hpending with rfl | hrest
        · exact .inl (List.mem_append_right _ List.mem_cons_self)
        · exact .inr hrest
    order := by
      have hsorted := h.order
      unfold pending at hsorted ⊢
      rw [hqueue, List.cons_append] at hsorted
      exact hsorted.of_cons
    later := fun l hl => ⟨horder l hl, (h.later l ((hmem l).mpr (.inr hl))).2⟩
    pendingKnown := fun l hl => h.pendingKnown l ((hmem l).mpr (.inr hl))
    baseline := .inr hlt
    baseline_le := hcommit
    version_le := by
      have hle := h.version_le
      simp only
      omega }

/-- A commit that is in the loaded snapshot is discarded. -/
theorem LsnInv.discardCommit (h : LsnInv s) {queue : List Nat}
    (hqueue : s.queue = lsn :: queue) (hp : s.isPersisted lsn = true) :
    LsnInv { s with queue } := by
  have hmem : ∀ l, l ∈ s.pending ↔ l = lsn ∨ l ∈ pending { s with queue } := by
    intro l
    unfold pending
    rw [hqueue, List.cons_append]
    exact List.mem_cons
  have hfirst := h.pendingKnown lsn ((hmem lsn).mpr (.inl rfl))
  exact { h with
    arrived := by
      intro l hl
      rcases h.arrived l hl with happlied | hpending
      · exact .inl happlied
      · rcases (hmem l).mp hpending with rfl | hrest
        · exact .inl (h.subset l (h.persisted l hfirst ((isPersisted_iff (h.pos l hfirst)).mp hp)))
        · exact .inr hrest
    order := by
      have hsorted := h.order
      unfold pending at hsorted ⊢
      rw [hqueue, List.cons_append] at hsorted
      exact hsorted.of_cons
    later := fun l hl => h.later l ((hmem l).mpr (.inr hl))
    pendingKnown := fun l hl => h.pendingKnown l ((hmem l).mpr (.inr hl)) }

/-- The version of the next snapshot. -/
theorem LsnInv.nextVersion_cases (h : LsnInv s) :
    (s.commitLsnBaseline = 0 ∧
      (if s.commitLsnBaseline != 0 then s.commitLsnBaseline else s.snapshotVersion) =
        s.snapshotVersion) ∨
      (s.persistenceLsn.getD 0 < s.commitLsnBaseline ∧
        (if s.commitLsnBaseline != 0 then s.commitLsnBaseline else s.snapshotVersion) =
          s.commitLsnBaseline) := by
  rcases h.baseline with h0 | hb
  · exact .inl ⟨h0, by simp [h0]⟩
  · refine .inr ⟨hb, if_pos ?_⟩
    simp only [bne_iff_ne, ne_eq]
    omega

theorem LsnInv.version_le_next (h : LsnInv s) : s.snapshotVersion ≤
    if s.commitLsnBaseline != 0 then s.commitLsnBaseline else s.snapshotVersion := by
  have hle := h.version_le
  rcases h.nextVersion_cases with ⟨-, heq⟩ | ⟨hb, heq⟩
  · exact Nat.le_of_eq heq.symm
  · rw [heq]
    omega

theorem LsnInv.createSnapshot (h : LsnInv s) :
    LsnInv { s with
      tableSnapshot := s.applied
      snapshotVersion := if s.commitLsnBaseline != 0 then s.commitLsnBaseline else s.snapshotVersion
      snapshotOngoing := true } := by
  have hcases := h.nextVersion_cases
  exact { h with
    persisted := fun l hl hp => h.subset l (h.persisted l hl hp)
    subset := fun l hl => hl
    version_le := by
      have hle := h.version_le
      simp only
      rcases hcases with ⟨-, heq⟩ | ⟨hb, heq⟩
      · rw [heq]
        exact hle
      · rw [heq]
        exact Nat.le_max_left _ _
    shown := by
      intro l hl hle
      simp only at hle ⊢
      rcases hcases with ⟨-, heq⟩ | ⟨hb, heq⟩
      · rw [heq] at hle
        exact h.subset l (h.shown l hl hle)
      · rw [heq] at hle
        refine (h.arrived l hl).resolve_right fun hpending => ?_
        have hlt := (h.later l hpending).1
        omega
    published := h.published.imp_right fun hle => Nat.le_trans hle h.version_le_next }

variable {action : ReadAction}

theorem LsnInv.next (h : LsnInv s) (hnext : s.next action = some s') :
    LsnInv s' := by
  cases action with
  | markCommit lsn =>
    simp only [ReadSystem.next] at hnext
    split at hnext
    · cases hnext
      rename_i hcan
      exact h.markCommit hcan
    · cases hnext
  | deliver =>
    simp only [ReadSystem.next] at hnext
    split at hnext
    · rename_i lsn hmarked
      cases hnext
      have hpending : pending { s with
          queue := s.queue ++ [lsn], committing := some (.delivered lsn) } = s.pending := by
        simp [pending, hmarked]
      exact { h with
        arrived := by rw [hpending]; exact h.arrived
        order := by rw [hpending]; exact h.order
        later := by rw [hpending]; exact h.later
        pendingKnown := by rw [hpending]; exact h.pendingKnown }
    · cases hnext
  | markReplication =>
    simp only [ReadSystem.next] at hnext
    split at hnext
    · rename_i lsn hdelivered
      cases hnext
      have hpending : pending { s with
          replicationLsn := max s.replicationLsn lsn, committing := none } = s.pending := by
        simp [pending, hdelivered]
      exact { h with
        arrived := by rw [hpending]; exact h.arrived
        order := by rw [hpending]; exact h.order
        later := by rw [hpending]; exact h.later
        pendingKnown := by rw [hpending]; exact h.pendingKnown }
    · cases hnext
  | otherCommit lsn =>
    simp only [ReadSystem.next] at hnext
    split at hnext
    · rename_i hguard
      cases hnext
      simp only [Bool.and_eq_true, decide_eq_true_eq] at hguard
      have hlast := hguard.1.2
      exact { h with
        commit_le := by
          have hle := h.commit_le
          simp only
          omega
        later := by
          intro l hl
          obtain ⟨hb, hle, hc⟩ := h.later l hl
          exact ⟨hb, by simp only; omega, hc⟩ }
    · cases hnext
  | primaryKeepAlive walEnd =>
    simp only [ReadSystem.next] at hnext
    split at hnext
    · cases hnext
      exact { h with }
    · cases hnext
  | processCommit =>
    simp only [ReadSystem.next] at hnext
    split at hnext
    · cases hnext
    · rename_i lsn queue hqueue
      split at hnext
      · rename_i hp
        cases hnext
        exact h.discardCommit hqueue hp
      · rename_i hp
        cases hnext
        exact h.processCommit hqueue (by simpa using hp)
  | createSnapshot =>
    simp only [ReadSystem.next] at hnext
    split at hnext
    · cases hnext
    · cases hnext
      exact h.createSnapshot
  | notifySnapshotReader =>
    simp only [ReadSystem.next] at hnext
    split at hnext
    · cases hnext
      exact { h with published := .inr (Nat.le_refl _) }
    · cases hnext
  | tryRead id requested =>
    simp only [ReadSystem.next] at hnext
    split at hnext
    · cases hnext
      exact { h with }
    · cases hnext
  | readerStep id failure =>
    obtain ⟨manager, reader, rfl⟩ := readerNext_frame hnext
    exact { h with }

/-- An LSN that was marked for a commit in progress, or reached by the replication. -/
def Marked (s : ReadSystem) (lsn : Nat) : Prop :=
  lsn ≤ s.replicationLsn ∨ ∃ c ∈ s.committing, c.lsn = lsn

/-- What a step of the sink, the handler or a snapshot keeps that marks no commit. -/
structure Quiet (s s' : ReadSystem) : Prop where
  xacts : s'.xacts = s.xacts
  commitLsn : s'.commitLsn = s.commitLsn
  replicationLsn : s.replicationLsn ≤ s'.replicationLsn
  marked : ∀ lsn, s.Marked lsn → s'.Marked lsn
  snapshotVersion : s.snapshotVersion ≤ s'.snapshotVersion
  tableSnapshot : ∀ lsn ∈ s.tableSnapshot, lsn ∈ s'.tableSnapshot
  manager : s'.manager = s.manager
  readers : s'.readers = s.readers

theorem Marked.raise (h : s.Marked lsn) (hreplication : s.replicationLsn ≤ s'.replicationLsn)
    (hcommitting : s'.committing = s.committing) : s'.Marked lsn := by
  refine h.imp (fun hle => Nat.le_trans hle hreplication) fun hc => ?_
  rw [hcommitting]
  exact hc

theorem LsnInv.quiet (h : LsnInv s) (hnext : s.next action = some s') :
    match action with
    | .markCommit _ | .tryRead _ _ | .readerStep _ _ => True
    | _ => Quiet s s' := by
  have hle := Nat.le_refl s.replicationLsn
  have hversion := Nat.le_refl s.snapshotVersion
  cases action with
  | deliver =>
    simp only [ReadSystem.next] at hnext
    split at hnext
    · rename_i lsn hmarked
      cases hnext
      refine ⟨rfl, rfl, hle, fun l hl => hl.imp_right fun ⟨c, hc, heq⟩ => ⟨_, rfl, ?_⟩, hversion,
        fun _ => id, rfl, rfl⟩
      rw [hmarked] at hc
      cases hc
      exact heq
    · cases hnext
  | markReplication =>
    simp only [ReadSystem.next] at hnext
    split at hnext
    · rename_i lsn hdelivered
      cases hnext
      refine ⟨rfl, rfl, Nat.le_max_left _ _, ?_, hversion, fun _ => id, rfl, rfl⟩
      rintro l (hle | ⟨c, hc, heq⟩)
      · exact .inl (Nat.le_trans hle (Nat.le_max_left _ _))
      · rw [hdelivered] at hc
        cases hc
        exact .inl (heq ▸ Nat.le_max_right _ _)
    · cases hnext
  | otherCommit | primaryKeepAlive =>
    simp only [ReadSystem.next] at hnext
    split at hnext
    · cases hnext
      have hraise := Nat.le_max_left s.replicationLsn
      exact ⟨rfl, rfl, hraise _, fun _ hl => hl.raise (hraise _) rfl, hversion, fun _ => id, rfl, rfl⟩
    · cases hnext
  | processCommit =>
    simp only [ReadSystem.next] at hnext
    split at hnext
    · cases hnext
    · split at hnext <;> cases hnext <;>
        exact ⟨rfl, rfl, hle, fun _ hl => hl.raise hle rfl, hversion, fun _ => id, rfl, rfl⟩
  | createSnapshot =>
    simp only [ReadSystem.next] at hnext
    split at hnext <;> cases hnext
    exact ⟨rfl, rfl, hle, fun _ hl => hl.raise hle rfl, h.version_le_next, h.subset, rfl, rfl⟩
  | notifySnapshotReader =>
    simp only [ReadSystem.next] at hnext
    split at hnext <;> cases hnext
    exact ⟨rfl, rfl, hle, fun _ hl => hl.raise hle rfl, hversion, fun _ => id, rfl, rfl⟩
  | _ => trivial

/-! ## Stale reads -/

/-- Every transaction that comes later is above this LSN. -/
def horizon (s : ReadSystem) : Nat := max s.replicationLsn s.commitLsn

/-- The cached state and the snapshot show every transaction up to `n`, also later. -/
structure Covered (s : ReadSystem) (n : Nat) : Prop where
  reached : n ≤ s.horizon
  snapshot : s.Shows s.tableSnapshot n
  cached : s.Shows s.manager.lastReadState n

/-- The LSN was published for a snapshot, or stands for none. -/
def Published (s : ReadSystem) (snapshotLsn : Nat) : Prop :=
  snapshotLsn = noSnapshotLsn ∨ snapshotLsn ≤ s.snapshotVersion

/-- What a reader can rely on, by how far it has got. -/
def ReaderSound (s : ReadSystem) : Reader → Prop
  | .loadedCache _ cachedLsn | .sawSnapshot _ cachedLsn _ =>
    cachedLsn = noReadLsn ∨ s.Covered cachedLsn
  | .useCache requested snapshotLsn => s.Covered snapshotLsn ∧ ∀ bound ∈ requested, bound ≤ snapshotLsn
  | .loopSnapshot _ snapshotLsn => s.Published snapshotLsn
  | .loopCommit _ snapshotLsn commitLsn => s.Published snapshotLsn ∧ commitLsn < u64Max
  | .refreshing requested snapshotLsn replicationLsn commitLsn =>
    s.Published snapshotLsn ∧ commitLsn < u64Max ∧ replicationLsn ≤ s.replicationLsn ∧
      (ReadStateManager.snapshotIsClean snapshotLsn commitLsn = true →
        ∀ lsn ∈ s.xacts, lsn ≤ replicationLsn → lsn ≤ commitLsn) ∧
      ReadStateManager.canSatisfyReadFromSnapshot requested snapshotLsn replicationLsn commitLsn = true
  | .returned requested snapshotLsn state =>
    (∀ bound ∈ requested, bound ≤ s.horizon ∧ s.Shows state bound) ∧
      (snapshotLsn ≠ noSnapshotLsn → snapshotLsn ≤ s.horizon ∧ s.Shows state snapshotLsn)
  | _ => True

structure ReadInv (s : ReadSystem) : Prop where
  lsns : LsnInv s
  cache : s.manager.lastReadLsn = noReadLsn ∨ s.Covered s.manager.lastReadLsn
  readers : ∀ id, s.ReaderSound (s.readers id)

/-- The condition on a step. -/
def ReadsInOrder (s : ReadSystem) : ReadAction → Prop
  -- A commit of the table is above the replication LSN, unless the loaded snapshot has it.
  | .markCommit lsn => s.isPersisted lsn = true ∨ s.replicationLsn < lsn
  | .readerStep id failure =>
    match s.readers id with
    -- No commit of the table was processed since the reader read the commit LSN.
    | .loopCommit _ snapshotLsn commitLsn =>
      ReadStateManager.snapshotIsClean snapshotLsn commitLsn = true →
        ∀ lsn ∈ s.xacts, lsn ≤ s.replicationLsn → lsn ≤ commitLsn
    -- A cache whose refresh fails late has what it is taken to show.
    | .refreshing _ snapshotLsn replicationLsn commitLsn =>
      failure = some .takeAsReadState → s.manager.needsRefresh snapshotLsn = true →
        s.manager.effectiveLsn snapshotLsn replicationLsn commitLsn ≠ noReadLsn →
        ∀ lsn ∈ s.xacts, lsn ≤ s.manager.effectiveLsn snapshotLsn replicationLsn commitLsn →
          lsn ∈ s.manager.lastReadState
    | _ => True
  | _ => True

instance {action : ReadAction} : Decidable (s.ReadsInOrder action) := by
  unfold ReadsInOrder
  split
  · infer_instance
  · split <;> infer_instance
  · infer_instance

/-! ### What later states keep -/

/-- New transactions are above the horizon, and nothing that was shown is lost. -/
structure Later (s s' : ReadSystem) : Prop where
  xacts : ∀ lsn ∈ s'.xacts, lsn ∈ s.xacts ∨ s.horizon < lsn
  horizon : s.horizon ≤ s'.horizon
  replication : s.replicationLsn ≤ s'.replicationLsn
  version : s.snapshotVersion ≤ s'.snapshotVersion
  covered : ∀ n, s.Covered n → s'.Covered n

theorem Shows.mono {state state' : ReadState} {n : Nat} (h : s.Shows state n)
    (hxacts : ∀ lsn ∈ s'.xacts, lsn ∈ s.xacts ∨ s.horizon < lsn) (hn : n ≤ s.horizon)
    (hsub : ∀ lsn ∈ state, lsn ∈ state') : s'.Shows state' n := by
  intro lsn hlsn hle
  rcases hxacts lsn hlsn with hold | hlt
  · exact hsub lsn (h lsn hold hle)
  · omega

/-- A step that leaves the cache alone. -/
theorem Later.of_sameCache (hxacts : ∀ lsn ∈ s'.xacts, lsn ∈ s.xacts ∨ s.horizon < lsn)
    (hreplication : s.replicationLsn ≤ s'.replicationLsn) (hcommit : s.commitLsn ≤ s'.commitLsn)
    (hversion : s.snapshotVersion ≤ s'.snapshotVersion)
    (hsnapshot : ∀ lsn ∈ s.tableSnapshot, lsn ∈ s'.tableSnapshot) (hmanager : s'.manager = s.manager) :
    Later s s' := by
  have hhorizon : s.horizon ≤ s'.horizon := by
    unfold ReadSystem.horizon
    omega
  refine ⟨hxacts, hhorizon, hreplication, hversion, fun n hn => ⟨Nat.le_trans hn.reached hhorizon, ?_, ?_⟩⟩
  · exact hn.snapshot.mono hxacts hn.reached hsnapshot
  · rw [hmanager]
    exact hn.cached.mono hxacts hn.reached fun _ hlsn => hlsn

variable {reader : Reader}

theorem ReaderSound.later (h : s.ReaderSound reader) (hlater : Later s s') :
    s'.ReaderSound reader := by
  have hpublished : ∀ n, s.Published n → s'.Published n := fun n hn =>
    hn.imp_right fun hle => Nat.le_trans hle hlater.version
  cases reader with
  | idle => trivial
  | loadedCache requested cachedLsn => exact h.imp_right (hlater.covered cachedLsn)
  | sawSnapshot requested cachedLsn snapshotLsn => exact h.imp_right (hlater.covered cachedLsn)
  | useCache requested snapshotLsn => exact ⟨hlater.covered snapshotLsn h.1, h.2⟩
  | looping requested => trivial
  | loopSnapshot requested snapshotLsn => exact hpublished snapshotLsn h
  | loopCommit requested snapshotLsn commitLsn => exact ⟨hpublished snapshotLsn h.1, h.2⟩
  | refreshing requested snapshotLsn replicationLsn commitLsn =>
    obtain ⟨hsnapshot, hmax, hle, hclean, hcan⟩ := h
    refine ⟨hpublished snapshotLsn hsnapshot, hmax, Nat.le_trans hle hlater.replication, ?_, hcan⟩
    intro hisClean lsn hlsn hlsnLe
    rcases hlater.xacts lsn hlsn with hold | hlt
    · exact hclean hisClean lsn hold hlsnLe
    · have hhorizon : s.replicationLsn ≤ s.horizon := Nat.le_max_left _ _
      omega
  | returned requested snapshotLsn state =>
    refine ⟨fun bound hbound => ?_, fun hsnapshot => ?_⟩
    · obtain ⟨hle, hshows⟩ := h.1 bound hbound
      exact ⟨Nat.le_trans hle hlater.horizon, hshows.mono hlater.xacts hle fun _ hlsn => hlsn⟩
    · obtain ⟨hle, hshows⟩ := h.2 hsnapshot
      exact ⟨Nat.le_trans hle hlater.horizon, hshows.mono hlater.xacts hle fun _ hlsn => hlsn⟩
  | failed failure => trivial
  | panicked => trivial

/-- A step of the sink, the handler or a snapshot. -/
theorem ReadInv.later (h : ReadInv s) (hlsns : LsnInv s') (hlater : Later s s')
    (hmanager : s'.manager = s.manager) (hreaders : s'.readers = s.readers) : ReadInv s' where
  lsns := hlsns
  cache := by
    rw [hmanager]
    exact h.cache.imp_right (hlater.covered _)
  readers id := by
    rw [hreaders]
    exact (h.readers id).later hlater

/-! ### Readers -/

/-- A reader moves on and leaves the cache alone. -/
theorem ReadInv.setReader (h : ReadInv s) (id : Nat) (hreader : s.ReaderSound reader) :
    ReadInv (s.setReader id reader) := by
  have hlater : Later s (s.setReader id reader) :=
    .of_sameCache (fun _ => .inl) (Nat.le_refl _) (Nat.le_refl _) (Nat.le_refl _) (fun _ hlsn => hlsn) rfl
  refine ⟨{ h.lsns with }, h.cache.imp_right (hlater.covered _), fun id' => ?_⟩
  by_cases hid : id' = id
  · subst hid
    simp only [ReadSystem.setReader, Function.update_self]
    exact hreader.later hlater
  · simp only [ReadSystem.setReader, Function.update_of_ne hid]
    exact (h.readers id').later hlater

theorem Published.shows (h : LsnInv s) {snapshotLsn : Nat} (hpublished : s.Published snapshotLsn)
    (hne : snapshotLsn ≠ noSnapshotLsn) :
    snapshotLsn ≤ s.horizon ∧ s.Shows s.tableSnapshot snapshotLsn := by
  have hle := hpublished.resolve_left hne
  refine ⟨?_, fun lsn hlsn hlsnLe => h.shown lsn hlsn (Nat.le_trans hlsnLe hle)⟩
  have hversion := h.version_le
  have hbaseline := h.baseline_le
  have hpersistence := h.persistence_le
  unfold horizon
  omega

variable {snapshotLsn replicationLsn commitLsn : Nat}

/-- A clean snapshot shows everything up to the replication LSN that the reader has read. -/
theorem shows_of_clean (h : LsnInv s)
    (hclean : ReadStateManager.snapshotIsClean snapshotLsn commitLsn = true)
    (hle : ∀ lsn ∈ s.xacts, lsn ≤ replicationLsn → lsn ≤ commitLsn) :
    ∀ lsn ∈ s.xacts, lsn ≤ replicationLsn → snapshotLsn ≠ noSnapshotLsn ∧ lsn ≤ snapshotLsn := by
  intro lsn hlsn hlsnLe
  have hcommit := hle lsn hlsn hlsnLe
  have hpos := h.pos lsn hlsn
  unfold ReadStateManager.snapshotIsClean at hclean
  split at hclean
  · rename_i hnone
    simp only [Bool.and_eq_true, beq_iff_eq] at hnone
    have hzero : commitLsn = 0 := hnone.2
    omega
  · simp only [Bool.and_eq_true, beq_iff_eq, bne_iff_ne] at hclean
    exact ⟨hclean.2, hclean.1 ▸ hcommit⟩

variable {requested : Option Nat}

/-- What the snapshot and an equally new cache show is what the reader asked for. -/
theorem returned_sound (h : LsnInv s)
    (hreader : s.ReaderSound (.refreshing requested snapshotLsn replicationLsn commitLsn))
    {state : ReadState} (hstate : ∀ lsn ∈ s.xacts, snapshotLsn ≠ noSnapshotLsn → lsn ≤ snapshotLsn →
      lsn ∈ state) : s.ReaderSound (.returned requested snapshotLsn state) := by
  obtain ⟨hpublished, -, hreplication, hclean, hcan⟩ := hreader
  refine ⟨?_, fun hne => ⟨(hpublished.shows h hne).1, fun lsn hlsn hle => hstate lsn hlsn hne hle⟩⟩
  intro bound hbound
  rw [Option.mem_def.mp hbound] at hcan
  simp only [ReadStateManager.canSatisfyReadFromSnapshot, Bool.or_eq_true, Bool.and_eq_true,
    bne_iff_ne, decide_eq_true_eq] at hcan
  rcases hcan with ⟨hne, hle⟩ | ⟨hle, hisClean⟩
  · refine ⟨Nat.le_trans hle (hpublished.shows h hne).1, fun lsn hlsn hlsnLe => ?_⟩
    exact hstate lsn hlsn hne (Nat.le_trans hlsnLe hle)
  · have hhorizon : s.replicationLsn ≤ s.horizon := Nat.le_max_left _ _
    refine ⟨by omega, fun lsn hlsn hlsnLe => ?_⟩
    obtain ⟨hne, hlsnSnapshot⟩ :=
      shows_of_clean h hisClean (hclean hisClean) lsn hlsn (Nat.le_trans hlsnLe hle)
    exact hstate lsn hlsn hne hlsnSnapshot

/-- The snapshot shows everything up to the LSN under which it is cached. -/
theorem effectiveLsn_shows (h : LsnInv s)
    (hreader : s.ReaderSound (.refreshing requested snapshotLsn replicationLsn commitLsn))
    (hne : s.manager.effectiveLsn snapshotLsn replicationLsn commitLsn ≠ noReadLsn) :
    s.manager.effectiveLsn snapshotLsn replicationLsn commitLsn ≤ s.horizon ∧
      s.Shows s.tableSnapshot (s.manager.effectiveLsn snapshotLsn replicationLsn commitLsn) := by
  obtain ⟨hpublished, hmax, hreplication, hclean, -⟩ := hreader
  unfold ReadStateManager.effectiveLsn at hne ⊢
  split
  · rename_i hfirst
    rw [if_pos hfirst] at hne
    exact hpublished.shows h hne
  · rename_i hfirst
    rw [if_neg hfirst] at hne
    split
    · rename_i hahead
      simp only [Bool.and_eq_true, beq_iff_eq, decide_eq_true_eq] at hahead
      obtain ⟨heq, hlt⟩ := hahead
      have hhorizon : s.replicationLsn ≤ s.horizon := Nat.le_max_left _ _
      refine ⟨Nat.le_trans hreplication hhorizon, ?_⟩
      have hsnapshot : snapshotLsn ≠ noSnapshotLsn := by
        unfold noSnapshotLsn
        omega
      have hisClean : ReadStateManager.snapshotIsClean snapshotLsn commitLsn = true := by
        simp [ReadStateManager.snapshotIsClean, heq, heq ▸ hsnapshot]
      intro lsn hlsn hle
      obtain ⟨-, hlsnLe⟩ := shows_of_clean h hisClean (hclean hisClean) lsn hlsn hle
      exact (hpublished.shows h hsnapshot).2 lsn hlsn hlsnLe
    · rename_i hahead
      rw [if_neg hahead] at hne
      exact hpublished.shows h hne

/-- The cache changes to a state that shows as much. -/
theorem ReadInv.setManager (h : ReadInv s) {manager : ReadStateManager}
    (hcovered : ∀ n, s.Covered n → s.Shows manager.lastReadState n)
    (hcache : manager.lastReadLsn = noReadLsn ∨ (manager.lastReadLsn ≤ s.horizon ∧
      s.Shows s.tableSnapshot manager.lastReadLsn ∧
      s.Shows manager.lastReadState manager.lastReadLsn)) : ReadInv { s with manager } where
  lsns := { h.lsns with }
  cache := hcache.imp_right fun ⟨hreached, hsnapshot, hcached⟩ => ⟨hreached, hsnapshot, hcached⟩
  readers id := by
    refine (h.readers id).later ⟨fun _ => .inl, Nat.le_refl _, Nat.le_refl _, Nat.le_refl _, ?_⟩
    exact fun n hn => ⟨hn.reached, hn.snapshot, hcovered n hn⟩

/-- The cache is refreshed, or a read of the snapshot fails. -/
theorem ReadInv.refresh (h : ReadInv s) {id : Nat}
    (hphase : s.readers id = .refreshing requested snapshotLsn replicationLsn commitLsn)
    (hcond : s.ReadsInOrder (.readerStep id failure)) {manager : ReadStateManager}
    {res : Except ReadFailure ReadState}
    (hres : s.manager.readFromSnapshotAndUpdateCache s.tableSnapshot snapshotLsn replicationLsn
      commitLsn failure = (manager, res)) :
    ReadInv (ReadSystem.setReader { s with manager } id (.ofResult requested snapshotLsn res)) := by
  have hreader := h.readers id
  rw [hphase] at hreader
  simp only [ReadsInOrder, hphase] at hcond
  unfold ReadStateManager.readFromSnapshotAndUpdateCache at hres
  split at hres
  · rename_i hrefresh
    have hshows := effectiveLsn_shows h.lsns hreader
    split at hres
    · cases hres
      exact h.setReader id trivial
    · -- The LSN is stored although the state is the old one.
      cases hres
      have hstate : ReadInv { s with manager := { s.manager with
          lastReadLsn := s.manager.effectiveLsn snapshotLsn replicationLsn commitLsn } } := by
        refine h.setManager (fun n hn => hn.cached) ?_
        by_cases hne : s.manager.effectiveLsn snapshotLsn replicationLsn commitLsn = noReadLsn
        · exact .inl hne
        · obtain ⟨hle, hshown⟩ := hshows hne
          exact .inr ⟨hle, hshown, hcond rfl hrefresh hne⟩
      exact hstate.setReader id trivial
    · cases hres
      have hstate : ReadInv { s with manager := ⟨s.manager.effectiveLsn snapshotLsn replicationLsn
          commitLsn, s.tableSnapshot⟩ } := by
        refine h.setManager (fun n hn => hn.snapshot) ?_
        by_cases hne : s.manager.effectiveLsn snapshotLsn replicationLsn commitLsn = noReadLsn
        · exact .inl hne
        · obtain ⟨hle, hshown⟩ := hshows hne
          exact .inr ⟨hle, hshown, hshown⟩
      refine hstate.setReader id ?_
      refine returned_sound (s := s) h.lsns hreader fun lsn hlsn hne hle => ?_
      exact (hreader.1.shows h.lsns hne).2 lsn hlsn hle
  · rename_i hrefresh
    cases hres
    refine h.setReader id (returned_sound h.lsns hreader fun lsn hlsn hne hle => ?_)
    simp only [ReadStateManager.needsRefresh, Bool.or_eq_true, decide_eq_true_eq, beq_iff_eq,
      not_or, Nat.not_lt] at hrefresh
    exact (h.cache.resolve_left hrefresh.2).cached lsn hlsn (Nat.le_trans hle hrefresh.1)

theorem ReadInv.readerStep (h : ReadInv s) {id : Nat}
    (hcond : s.ReadsInOrder (.readerStep id failure)) (hnext : s.readerNext id failure = some s') :
    ReadInv s' := by
  have hreader := h.readers id
  unfold readerNext at hnext
  split at hnext
  · rename_i requested cachedLsn hphase
    cases hnext
    rw [hphase] at hreader
    exact h.setReader id hreader
  · rename_i requested cachedLsn snapshotLsn hphase
    cases hnext
    rw [hphase] at hreader
    refine h.setReader id ?_
    split
    · rename_i huse
      unfold ReadStateManager.shouldUseCache at huse
      split at huse
      · cases huse
      · rename_i hcached
        have hcovered := hreader.resolve_left (by simpa [noCacheLsn, noReadLsn] using hcached)
        split at huse
        · simp only [Bool.and_eq_true, beq_iff_eq, decide_eq_true_eq] at huse
          obtain ⟨⟨rfl, hle⟩, -⟩ := huse
          refine ⟨hcovered, fun bound hbound => ?_⟩
          cases hbound
          exact hle
        · simp only [Bool.and_eq_true, beq_iff_eq] at huse
          obtain ⟨rfl, -⟩ := huse
          exact ⟨hcovered, nofun⟩
    · trivial
  · rename_i requested snapshotLsn hphase
    cases hnext
    rw [hphase] at hreader
    obtain ⟨hcovered, hbound⟩ := hreader
    refine h.setReader id ⟨fun bound hmem => ?_, fun _ => ⟨hcovered.reached, hcovered.cached⟩⟩
    have hle := hbound bound hmem
    exact ⟨Nat.le_trans hle hcovered.reached, fun lsn hlsn hlsnLe =>
      hcovered.cached lsn hlsn (Nat.le_trans hlsnLe hle)⟩
  · cases hnext
    exact h.setReader id h.lsns.published
  · rename_i requested snapshotLsn hphase
    cases hnext
    rw [hphase] at hreader
    exact h.setReader id ⟨hreader, h.lsns.commit_lt⟩
  · rename_i requested snapshotLsn commitLsn hphase
    cases hnext
    rw [hphase] at hreader
    simp only [ReadsInOrder, hphase] at hcond
    refine h.setReader id ?_
    split
    · trivial
    · split
      · rename_i hcan
        exact ⟨hreader.1, hreader.2, Nat.le_refl _, hcond, hcan⟩
      · trivial
  · rename_i requested snapshotLsn replicationLsn commitLsn hphase
    cases hnext
    exact h.refresh hphase hcond rfl
  · cases hnext

theorem ReadInv.next (h : ReadInv s) (hcond : s.ReadsInOrder action)
    (hnext : s.next action = some s') : ReadInv s' := by
  have hlsns := h.lsns.next hnext
  have hquiet := h.lsns.quiet hnext
  cases action with
  | markCommit lsn =>
    simp only [ReadSystem.next] at hnext
    split at hnext
    · rename_i hcan
      cases hnext
      refine h.later hlsns (.of_sameCache ?_ (Nat.le_refl _) (Nat.le_max_left _ _) (Nat.le_refl _)
        (fun _ hlsn => hlsn) rfl) rfl rfl
      intro l hl
      split at hl
      · exact .inl hl
      · rename_i hnot
        rcases List.mem_append.mp hl with hold | hnew
        · exact .inl hold
        · rw [List.mem_singleton.mp hnew]
          rw [List.contains_iff_mem] at hnot
          obtain ⟨-, hlt⟩ := (h.lsns.commit_cases hcan).resolve_left fun hold => hnot hold.1
          have hreplication : s.replicationLsn < lsn := by
            refine hcond.resolve_left fun hp => hnot ?_
            exact (canCommit_iff hcan).2.2.2 hp
          exact .inr (Nat.max_lt.mpr ⟨hreplication, hlt⟩)
    · cases hnext
  | tryRead id requested =>
    simp only [ReadSystem.next] at hnext
    split at hnext
    · cases hnext
      exact h.setReader id h.cache
    · cases hnext
  | readerStep id failure => exact h.readerStep hcond hnext
  | _ =>
    exact h.later hlsns (.of_sameCache (fun _ hlsn => .inl (hquiet.xacts ▸ hlsn)) hquiet.replicationLsn
      (Nat.le_of_eq hquiet.commitLsn.symm) hquiet.snapshotVersion hquiet.tableSnapshot hquiet.manager)
      hquiet.manager hquiet.readers

theorem ReadInv.init (loaded : LoadedSnapshot) (replicationLsn : Nat) :
    ReadInv (init loaded replicationLsn) :=
  ⟨LsnInv.init loaded replicationLsn, .inl rfl, fun _ => trivial⟩

/-- In every run whose steps meet the condition, a read state shows every transaction up to
the requested LSN and up to the snapshot LSN that the reader has seen. -/
theorem reads_not_stale {loaded : LoadedSnapshot} {replicationLsn : Nat} {actions : List ReadAction}
    (hmeets : RunMeets next ReadsInOrder (init loaded replicationLsn) actions)
    (hrun : (init loaded replicationLsn).run actions = some s) {id : Nat} {requested : Option Nat}
    {snapshotLsn : Nat} {state : ReadState} (hreturned : s.readers id = .returned requested snapshotLsn state) :
    (∀ bound ∈ requested, s.Shows state bound) ∧
      (snapshotLsn ≠ noSnapshotLsn → s.Shows state snapshotLsn) := by
  have hinv := hmeets.invariant (fun _ _ _ h hcond hnext => h.next hcond hnext) hrun
    (ReadInv.init loaded replicationLsn)
  have hreader := hinv.readers id
  rw [hreturned] at hreader
  exact ⟨fun bound hbound => (hreader.1 bound hbound).2, fun hne => (hreader.2 hne).2⟩

/-- A new table. -/
def emptySnapshot : LoadedSnapshot := ⟨none, [], by simp, by simp⟩

/-- A commit at this LSN is processed by the sink. -/
def sinkCommit (lsn : Nat) : List ReadAction := [.markCommit lsn, .deliver, .markReplication]

/-- The handler applies the next commit and publishes a snapshot. -/
def publishNext : List ReadAction := [.processCommit, .createSnapshot, .notifySnapshotReader]

/-- `n` steps of a reader, none of which fails. -/
def readerSteps (id n : Nat) : List ReadAction := List.replicate n (.readerStep id none)

/-- A read at 10, and, when other tables have got to 15, one at 15. -/
def readsBetweenCommits : List ReadAction :=
  sinkCommit 10 ++ publishNext ++ [.tryRead 0 (some 10)] ++ readerSteps 0 6 ++
    [.otherCommit 15, .tryRead 1 (some 15)] ++ readerSteps 1 6

theorem reads_not_stale_betweenCommits :
    RunMeets next ReadsInOrder (init emptySnapshot 0) readsBetweenCommits ∧
      ∃ s, (init emptySnapshot 0).run readsBetweenCommits = some s ∧
        s.readers 1 = .returned (some 15) 10 [10] ∧ s.Shows [10] 15 := by
  have hmeets : RunMeets next ReadsInOrder (init emptySnapshot 0) readsBetweenCommits := by
    decide +kernel
  have hshows : ∀ s, (init emptySnapshot 0).run readsBetweenCommits = some s →
      s.readers 1 = .returned (some 15) 10 [10] → s.Shows [10] 15 :=
    fun _ hrun hreturned => (reads_not_stale hmeets hrun hreturned).1 15 rfl
  exact ⟨hmeets, _, rfl, rfl, hshows _ rfl rfl⟩

/-- A commit at 20 falls between the reads of the commit LSN and of the replication LSN. -/
def readAcrossCommit : List ReadAction :=
  sinkCommit 10 ++ publishNext ++ [.tryRead 0 (some 20)] ++ readerSteps 0 4 ++ sinkCommit 20 ++
    readerSteps 0 2

theorem read_misses_commit : ∃ s, (init emptySnapshot 0).run readAcrossCommit = some s ∧
    s.readers 0 = .returned (some 20) 10 [10] ∧ 20 ∈ s.xacts :=
  ⟨_, rfl, rfl, by decide⟩

/-! ## Monotonic reads -/

/-- What reads have returned is a part of the cache, that of the snapshot, and that of the table, each up to some
commit. Reads that are returned while `shown` was seen before show it as well. -/
structure Nested (idle : Nat → Prop) (shown : ReadState) (s : ReadSystem) : Prop where
  snapshot : s.tableSnapshot <+: s.applied
  cached : s.manager.lastReadState <+: s.tableSnapshot
  seen : shown <+: s.manager.lastReadState
  returned : ∀ id requested n state, s.readers id = .returned requested n state →
    state <+: s.manager.lastReadState ∧ (idle id → shown <+: state)

variable {idle : Nat → Prop} {shown : ReadState}

/-- A reader takes a step that leaves the cache alone, or refreshes it. -/
theorem Nested.setReader (h : Nested idle shown s) {manager : ReadStateManager} {id : Nat} {reader : Reader}
    (hcached : manager.lastReadState = s.manager.lastReadState ∨ manager.lastReadState = s.tableSnapshot)
    (hreader : ∀ requested n state, reader = .returned requested n state → state = manager.lastReadState) :
    Nested idle shown (ReadSystem.setReader { s with manager } id reader) := by
  have hgrows : s.manager.lastReadState <+: manager.lastReadState :=
    hcached.elim (fun heq => heq ▸ List.prefix_rfl) fun heq => heq ▸ h.cached
  refine ⟨h.snapshot, hcached.elim (fun heq => heq ▸ h.cached) fun heq => heq ▸ List.prefix_rfl, h.seen.trans hgrows,
    fun i requested n state hreturned => ?_⟩
  change Function.update s.readers id reader i = _ at hreturned
  by_cases hi : i = id
  · rw [hi, Function.update_self] at hreturned
    rw [hreader _ _ _ hreturned]
    exact ⟨List.prefix_rfl, fun _ => h.seen.trans hgrows⟩
  · rw [Function.update_of_ne hi] at hreturned
    exact (h.returned _ _ _ _ hreturned).imp_left (·.trans hgrows)

theorem Nested.next (h : Nested idle shown s) (hnext : s.next action = some s') : Nested idle shown s' := by
  cases action with
  | processCommit =>
    simp only [ReadSystem.next] at hnext
    split at hnext
    · cases hnext
    · split at hnext <;> cases hnext
      · exact { h with }
      · exact { h with snapshot := h.snapshot.trans (List.prefix_append _ _) }
  | createSnapshot =>
    simp only [ReadSystem.next] at hnext
    split at hnext <;> cases hnext
    exact { h with snapshot := List.prefix_rfl, cached := h.cached.trans h.snapshot }
  | tryRead id requested =>
    simp only [ReadSystem.next] at hnext
    split at hnext <;> cases hnext
    exact h.setReader (.inl rfl) fun _ _ _ heq => by cases heq
  | readerStep id failure =>
    simp only [ReadSystem.next, readerNext] at hnext
    split at hnext <;> cases hnext
    case h_7 =>
      unfold ReadStateManager.readFromSnapshotAndUpdateCache
      split
      · cases failure with
        | none => exact h.setReader (.inr rfl) fun _ _ _ heq => by cases heq; rfl
        | some failure =>
          cases failure <;> exact h.setReader (.inl rfl) fun _ _ _ heq => by cases heq
      · exact h.setReader (.inl rfl) fun _ _ _ heq => by cases heq; rfl
    all_goals
      refine h.setReader (.inl rfl) fun _ _ _ heq => ?_
      repeat' split at heq
      all_goals cases heq
      all_goals rfl
  | _ =>
    simp only [ReadSystem.next] at hnext
    split at hnext <;> cases hnext
    exact { h with }

theorem Nested.run {actions : List ReadAction} (h : Nested idle shown s) (hrun : s.run actions = some s') :
    Nested idle shown s' := by
  induction actions generalizing s with
  | nil =>
    cases hrun
    exact h
  | cons action rest ih =>
    obtain ⟨s₁, hnext, hrest⟩ := Option.bind_eq_some_iff.mp hrun
    exact ih (h.next hnext) hrest

/-- In every run, what a read returns is the table up to some commit, and holds everything that any read which was
over before it began has returned. -/
theorem reads_monotonic {loaded : LoadedSnapshot} {replicationLsn : Nat} {before after : List ReadAction}
    (hbefore : (init loaded replicationLsn).run before = some s) (hafter : s.run after = some s')
    {i j : Nat} {requested requested' : Option Nat} {n n' : Nat} {state state' : ReadState}
    (hfirst : s.readers i = .returned requested n state) (hidle : s.readers j = .idle)
    (hsecond : s'.readers j = .returned requested' n' state') : state <+: state' ∧ state' <+: s'.applied := by
  have hinit : Nested (fun _ => False) [] (init loaded replicationLsn) :=
    ⟨List.prefix_rfl, List.nil_prefix, List.nil_prefix, fun _ _ _ _ heq => by cases heq⟩
  have hs := hinit.run hbefore
  have hs' : Nested (fun k => s.readers k = .idle) s.manager.lastReadState s' :=
    Nested.run { hs with
      seen := List.prefix_rfl
      returned := fun _ _ _ _ heq => ⟨(hs.returned _ _ _ _ heq).1, fun hid => by cases hid.symm.trans heq⟩ } hafter
  obtain ⟨hle, hseen⟩ := hs'.returned _ _ _ _ hsecond
  exact ⟨(hs.returned _ _ _ _ hfirst).1.trans (hseen hidle), hle.trans (hs'.cached.trans hs'.snapshot)⟩

theorem reads_monotonic_twoCommits : ∃ s s' : ReadSystem, s.readers 0 = .returned (some 10) 10 [10] ∧
    s'.readers 1 = .returned none 20 [10, 20] ∧ [10] <+: [10, 20] ∧ [10, 20] <+: s'.applied := by
  have hruns : ∃ s, (init emptySnapshot 0).run
      (sinkCommit 10 ++ publishNext ++ [.tryRead 0 (some 10)] ++ readerSteps 0 6) = some s ∧
        s.readers 0 = .returned (some 10) 10 [10] ∧ s.readers 1 = .idle ∧ ∃ s', s.run
          (sinkCommit 20 ++ publishNext ++ [.tryRead 1 none] ++ readerSteps 1 6) = some s' ∧
            s'.readers 1 = .returned none 20 [10, 20] := ⟨_, rfl, rfl, rfl, _, rfl, rfl⟩
  obtain ⟨s, hrun, hfirst, hidle, s', hrun', hsecond⟩ := hruns
  exact ⟨s, s', hfirst, hsecond, reads_monotonic hrun hrun' hfirst hidle hsecond⟩

/-! ## The sanity check -/

/-- What the sanity check of a reader relies on, by how far it has got. -/
def ReaderChecked (s : ReadSystem) : Reader → Prop
  | .loopSnapshot _ snapshotLsn => snapshotLsn = noSnapshotLsn ∨ snapshotLsn ≤ s.commitLsn
  | .loopCommit _ snapshotLsn commitLsn =>
    (snapshotLsn = noSnapshotLsn ∨ snapshotLsn ≤ commitLsn) ∧
      (commitLsn ≤ s.replicationLsn ∨ ∃ c ∈ s.committing, c.lsn = commitLsn)
  | .panicked => False
  | _ => True

structure CheckInv (s : ReadSystem) : Prop where
  lsns : LsnInv s
  commit : s.commitLsn ≤ s.replicationLsn ∨ ∃ c ∈ s.committing, c.lsn = s.commitLsn
  readers : ∀ id, s.ReaderChecked (s.readers id)

/-- The sink is not in the middle of the commit whose LSN the reader has read. -/
def ChecksBetweenCommits (s : ReadSystem) : ReadAction → Prop
  | .readerStep id _ =>
    match s.readers id with
    | .loopCommit _ _ commitLsn => ∀ c ∈ s.committing, c.lsn = commitLsn → commitLsn ≤ s.replicationLsn
    | _ => True
  | _ => True

instance {action : ReadAction} : Decidable (s.ChecksBetweenCommits action) := by
  unfold ChecksBetweenCommits
  split
  · split <;> infer_instance
  · infer_instance

theorem ReaderChecked.later (h : s.ReaderChecked reader)
    (hcommit : s.commitLsn ≤ s'.commitLsn) (hmarked : ∀ lsn, s.Marked lsn → s'.Marked lsn) :
    s'.ReaderChecked reader := by
  cases reader with
  | loopSnapshot requested snapshotLsn => exact h.imp_right fun hle => Nat.le_trans hle hcommit
  | loopCommit requested snapshotLsn commitLsn => exact ⟨h.1, hmarked commitLsn h.2⟩
  | panicked => exact h
  | _ => trivial

/-- A step of the sink, the handler or a snapshot. -/
theorem CheckInv.later (h : CheckInv s) (hlsns : LsnInv s') (hcommit : s.commitLsn ≤ s'.commitLsn)
    (hmarked : ∀ lsn, s.Marked lsn → s'.Marked lsn) (hnew : s'.Marked s'.commitLsn)
    (hreaders : s'.readers = s.readers) : CheckInv s' where
  lsns := hlsns
  commit := hnew
  readers id := by
    rw [hreaders]
    exact (h.readers id).later hcommit hmarked

theorem CheckInv.setReader (h : CheckInv s) (manager : ReadStateManager) (id : Nat)
    (hreader : s.ReaderChecked reader) :
    CheckInv (ReadSystem.setReader { s with manager } id reader) := by
  refine ⟨{ h.lsns with }, h.commit, fun id' => ?_⟩
  by_cases hid : id' = id
  · subst hid
    simp only [ReadSystem.setReader, Function.update_self]
    exact hreader.later (Nat.le_refl _) fun _ hlsn => hlsn
  · simp only [ReadSystem.setReader, Function.update_of_ne hid]
    exact (h.readers id').later (Nat.le_refl _) fun _ hlsn => hlsn

theorem CheckInv.readerStep (h : CheckInv s) {id : Nat}
    (hcond : s.ChecksBetweenCommits (.readerStep id failure))
    (hnext : s.readerNext id failure = some s') : CheckInv s' := by
  have hreader := h.readers id
  unfold readerNext at hnext
  split at hnext
  · cases hnext
    exact h.setReader s.manager id trivial
  · cases hnext
    refine h.setReader s.manager id ?_
    split <;> trivial
  · cases hnext
    exact h.setReader s.manager id trivial
  · cases hnext
    refine h.setReader s.manager id (h.lsns.published.imp_right fun hle => ?_)
    have hversion := h.lsns.version_le
    have hbaseline := h.lsns.baseline_le
    have hpersistence := h.lsns.persistence_le
    omega
  · rename_i requested snapshotLsn hphase
    cases hnext
    rw [hphase] at hreader
    exact h.setReader s.manager id ⟨hreader, h.commit⟩
  · rename_i requested snapshotLsn commitLsn hphase
    cases hnext
    rw [hphase] at hreader
    simp only [ChecksBetweenCommits, hphase] at hcond
    refine h.setReader s.manager id ?_
    have hreplication : commitLsn ≤ s.replicationLsn := by
      rcases hreader.2 with hle | ⟨c, hc, heq⟩
      · exact hle
      · exact hcond c hc heq
    have hcheck : ReadStateManager.sanityCheck snapshotLsn s.replicationLsn commitLsn = true := by
      unfold ReadStateManager.sanityCheck
      rcases hreader.1 with hnone | hle
      · simp [hnone, hreplication]
      · simp [hle, hreplication]
    rw [hcheck]
    simp only [Bool.not_true, Bool.false_eq_true, if_false]
    split <;> trivial
  · rename_i requested snapshotLsn replicationLsn commitLsn hphase
    cases hnext
    refine h.setReader _ id ?_
    unfold Reader.ofResult
    split <;> trivial
  · cases hnext

theorem CheckInv.next (h : CheckInv s) (hcond : s.ChecksBetweenCommits action)
    (hnext : s.next action = some s') : CheckInv s' := by
  have hlsns := h.lsns.next hnext
  have hquiet := h.lsns.quiet hnext
  cases action with
  | markCommit lsn =>
    simp only [ReadSystem.next] at hnext
    split at hnext
    · rename_i hcan
      cases hnext
      have hnone := (canCommit_iff hcan).1
      have hdone : ∀ l, s.Marked l → l ≤ s.replicationLsn := by
        rintro l (hle | ⟨c, hc, -⟩)
        · exact hle
        · rw [hnone] at hc
          cases hc
      refine h.later hlsns (Nat.le_max_left _ _) (fun l hl => .inl (hdone l hl)) ?_ rfl
      by_cases hle : lsn ≤ s.commitLsn
      · refine .inl ?_
        have hcommit := hdone _ h.commit
        simp only
        omega
      · exact .inr ⟨.marked lsn, rfl, (Nat.max_eq_right (Nat.le_of_not_le hle)).symm⟩
    · cases hnext
  | tryRead id requested =>
    simp only [ReadSystem.next] at hnext
    split at hnext
    · cases hnext
      exact h.setReader s.manager id trivial
    · cases hnext
  | readerStep id failure => exact h.readerStep hcond hnext
  | _ =>
    refine h.later hlsns (Nat.le_of_eq hquiet.commitLsn.symm) hquiet.marked ?_ hquiet.readers
    rw [hquiet.commitLsn]
    exact hquiet.marked _ h.commit

/-- In every run whose steps meet the condition, the sanity check never fails. -/
theorem reads_do_not_panic {loaded : LoadedSnapshot} {replicationLsn : Nat} {actions : List ReadAction}
    (hmeets : RunMeets next ChecksBetweenCommits (init loaded replicationLsn) actions)
    (hrun : (init loaded replicationLsn).run actions = some s) (id : Nat) :
    s.readers id ≠ .panicked := by
  have hinit : CheckInv (init loaded replicationLsn) :=
    ⟨LsnInv.init loaded replicationLsn, .inl (Nat.le_max_right _ _), fun _ => trivial⟩
  have hinv := hmeets.invariant (fun _ _ _ h hcond hnext => h.next hcond hnext) hrun hinit
  intro hpanicked
  have hreader := hinv.readers id
  rw [hpanicked] at hreader
  exact hreader

theorem reads_do_not_panic_betweenCommits :
    RunMeets next ChecksBetweenCommits (init emptySnapshot 0) readAcrossCommit ∧
      ∃ s, (init emptySnapshot 0).run readAcrossCommit = some s ∧ s.readers 0 ≠ .panicked := by
  have hmeets : RunMeets next ChecksBetweenCommits (init emptySnapshot 0) readAcrossCommit := by
    decide +kernel
  exact ⟨hmeets, _, rfl, reads_do_not_panic hmeets rfl 0⟩

/-- A read of the latest state while the commit at 10 is being delivered. -/
theorem read_panics_during_commit : ∃ s,
    (init emptySnapshot 0).run ([.markCommit 10, .tryRead 0 none] ++ readerSteps 0 5) = some s ∧
      s.readers 0 = .panicked :=
  ⟨_, rfl, rfl⟩

end ReadSystem

/-! ## Failed reads -/

namespace ReadStateManager

/-- The cached state shows every transaction up to the LSN it is cached under. -/
def CacheValid (xacts : List Nat) (m : ReadStateManager) : Prop :=
  m.lastReadLsn ≠ noReadLsn → ∀ lsn ∈ xacts, lsn ≤ m.lastReadLsn → lsn ∈ m.lastReadState

/-- What the fast path returns from a valid cache is as new as the snapshot. -/
theorem CacheValid.shows {xacts : List Nat} {m : ReadStateManager} (h : m.CacheValid xacts)
    {requested : Option Nat} {snapshotLsn commitLsn : Nat}
    (huse : shouldUseCache requested m.lastReadLsn snapshotLsn commitLsn = true) :
    ∀ lsn ∈ xacts, lsn ≤ snapshotLsn → lsn ∈ m.lastReadState := by
  unfold shouldUseCache at huse
  split at huse
  · cases huse
  · rename_i hcached
    have heq : m.lastReadLsn = snapshotLsn := by
      split at huse <;> simp only [Bool.and_eq_true, beq_iff_eq] at huse
      · exact huse.1.1
      · exact huse.1
    intro lsn hlsn hle
    exact h (by simpa [noCacheLsn, noReadLsn] using hcached) lsn hlsn (heq ▸ hle)

/-- A failed read leaves a valid cache exactly if it fails before the LSN is stored, or the
old state lacks no transaction up to that LSN; and from a valid cache no later read is older
than the snapshot. -/
theorem failed_read_keeps_cache_iff (xacts : List Nat) (m : ReadStateManager) (hvalid : m.CacheValid xacts)
    (tableSnapshot : ReadState) (snapshotLsn replicationLsn commitLsn : Nat) (failure : ReadFailure) :
    let m' := (m.readFromSnapshotAndUpdateCache tableSnapshot snapshotLsn replicationLsn commitLsn
      (some failure)).1
    (m'.CacheValid xacts ↔ failure = .requestRead ∨ m.needsRefresh snapshotLsn = false ∨
      m.effectiveLsn snapshotLsn replicationLsn commitLsn = noReadLsn ∨
      ∀ lsn ∈ xacts, lsn ∉ m.lastReadState → m.effectiveLsn snapshotLsn replicationLsn commitLsn < lsn) ∧
    (m'.CacheValid xacts → ∀ requested snapshotLsn commitLsn,
      shouldUseCache requested m'.lastReadLsn snapshotLsn commitLsn = true →
      ∀ lsn ∈ xacts, lsn ≤ snapshotLsn → lsn ∈ m'.lastReadState) := by
  refine ⟨?_, fun h _ _ _ huse => h.shows huse⟩
  unfold readFromSnapshotAndUpdateCache
  cases hrefresh : m.needsRefresh snapshotLsn with
  | false => simpa using hvalid
  | true =>
    cases failure with
    | requestRead => simpa using hvalid
    | takeAsReadState =>
      simp only [if_true, CacheValid, reduceCtorEq, false_or, Bool.true_eq_false]
      constructor
      · intro hcache
        by_cases hnone : m.effectiveLsn snapshotLsn replicationLsn commitLsn = noReadLsn
        · exact .inl hnone
        · refine .inr fun lsn hlsn hnot => ?_
          exact Nat.lt_of_not_le fun hle => hnot (hcache hnone lsn hlsn hle)
      · intro hlater hsome lsn hlsn hle
        by_contra hnot
        have hlt := hlater.resolve_left hsome lsn hlsn hnot
        omega

/-- The file of a transaction at 20 cannot be written. -/
theorem failed_read_keeps_cache_requestRead :
    (⟨10, [10]⟩ : ReadStateManager).CacheValid [10, 20] ∧
      ((⟨10, [10]⟩ : ReadStateManager).readFromSnapshotAndUpdateCache [10, 20] 20 20 20
        (some .requestRead)).1.CacheValid [10, 20] := by
  have hvalid : (⟨10, [10]⟩ : ReadStateManager).CacheValid [10, 20] := by
    simp [CacheValid]
  exact ⟨hvalid, (failed_read_keeps_cache_iff [10, 20] _ hvalid [10, 20] 20 20 20 .requestRead).1.mpr
    (.inl rfl)⟩

/-- A remote file of the read cannot be fetched: the next read at 20 returns the state of 10. -/
theorem failed_read_spoils_cache :
    (⟨10, [10]⟩ : ReadStateManager).CacheValid [10, 20] ∧
      ((⟨10, [10]⟩ : ReadStateManager).readFromSnapshotAndUpdateCache [10, 20] 20 20 20
        (some .takeAsReadState)).1 = ⟨20, [10]⟩ ∧
      ¬ (⟨20, [10]⟩ : ReadStateManager).CacheValid [10, 20] ∧
      shouldUseCache (some 20) 20 20 20 = true := by
  refine ⟨by simp [CacheValid], by decide, ?_, by decide⟩
  intro hvalid
  have hmem := hvalid (by decide) 20 (by decide) (by decide)
  simp at hmem

end ReadStateManager
end Moonlink.UnionRead
