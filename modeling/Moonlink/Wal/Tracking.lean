-- SUMMARY: The tracking invariant: every uncaptured transaction is tracked from a file at or below its first event.
import Moonlink.Wal.ManagerSpec

/-!
# What the trackers know

`Tracks` relates a set of trackers to the log of events that led to them. Its
heart is `covered`: whenever the transaction of a logged event is not captured by
a snapshot, there is a tracked state for that transaction which the snapshot does
not capture either, and which starts at or below the file of the event. The
trackers of the manager satisfy it for the whole log, and those of the persisted
metadata for the durable log, so the steps that both take are treated once.
-/

namespace Moonlink

open Lib

/-- A tracked state that the snapshot captures, if there is one. -/
def WalTransactionState.isCapturedBy (st : WalTransactionState) (persistenceSnapshotLsn : Option Nat) :
    Bool :=
  persistenceSnapshotLsn.any fun lsn => st.isCapturedInIcebergSnapshot lsn

theorem WalTransactionState.isCapturedBy_mono {st : WalTransactionState} {lsn lsn' : Option Nat}
    (hle : snapshotLe lsn lsn') (h : st.isCapturedBy lsn = true) : st.isCapturedBy lsn' = true := by
  cases lsn with
  | none => exact absurd h Bool.false_ne_true
  | some l =>
    cases lsn' with
    | none => exact hle.elim
    | some l' => exact isCaptured_mono hle h

/-- The tracked states of the transactions with id `k`. -/
def Tracked (active : AssocMap XactId WalTransactionState) (main : List WalTransactionState) :
    Option XactId → WalTransactionState → Prop
  | some x, st => active.lookup x = some st
  | none, st => st ∈ main

section

variable {Row : Type}

/-- The last event in the log with transaction id `k`. -/
def lastEvent (k : Option XactId) (log : WalLog Row) : Option (WalEvent Row) :=
  ((log.map (·.2)).filter fun e => e.xactId = k).getLast?

theorem lastEvent_append (k : Option XactId) (log : WalLog Row) (n : Nat) (e : WalEvent Row) :
    lastEvent k (log ++ [(n, e)]) = if e.xactId = k then some e else lastEvent k log := by
  unfold lastEvent
  by_cases h : e.xactId = k
  · simp [h, List.filter_append]
  · simp [h, List.filter_append]

/-- A tracked state tells how the last event of its transaction left it. -/
def WalTransactionState.Describes : WalTransactionState → WalEvent Row → Prop
  | .open _, e => e.isRow = true
  | .commit _ lsn _, e => e.commitLsn? = some lsn
  | .abort _ _ _, e => e.isStreamAbort = true

/-- The trackers agree with the log, for snapshots from `base` on. -/
structure Tracks (active : AssocMap XactId WalTransactionState) (main : List WalTransactionState)
    (highestCompletionLsn currFileNumber : Nat) (log : WalLog Row) (base : Option Nat) : Prop where
  ingest : ∀ p ∈ log, p.2.isIngest = true
  commitLe : ∀ p ∈ log, ∀ lsn, p.2.commitLsn? = some lsn → lsn ≤ highestCompletionLsn
  startLe : ∀ k st, Tracked active main k st → st.getStartFile ≤ currFileNumber
  mainSorted : main.Pairwise fun st st' => st.getStartFile ≤ st'.getStartFile
  describes : ∀ x st, active.lookup x = some st →
    ∃ e, lastEvent (some x) log = some e ∧ st.Describes e
  covered : ∀ pre n e post, log = pre ++ (n, e) :: post → ∀ lsn, snapshotLe base lsn →
    (fate e (post.map (·.2))).isCaptured lsn = false →
    ∃ st, Tracked active main e.xactId st ∧ st.getStartFile ≤ n ∧ st.isCapturedBy lsn = false

namespace Tracks

variable {active active' : AssocMap XactId WalTransactionState}
variable {main main' : List WalTransactionState} {hi hi' curr curr' : Nat} {log : WalLog Row}
variable {base base' : Option Nat}

theorem empty : Tracks ∅ [] 0 0 ([] : WalLog Row) none where
  ingest := by simp
  commitLe := by simp
  startLe := by
    intro k st h
    cases k with
    | none => cases h
    | some x => simp [Tracked] at h
  mainSorted := List.Pairwise.nil
  describes := by simp
  covered := by
    intro pre n e post h
    simp at h

/-- Moving on to later files and later snapshots keeps the agreement. -/
theorem mono (h : Tracks active main hi curr log base) (hcurr : curr ≤ curr')
    (hbase : snapshotLe base base') : Tracks active main hi curr' log base' :=
  { h with
    startLe := fun k st hst => Nat.le_trans (h.startLe k st hst) hcurr
    covered := fun pre n e post hlog lsn hlsn =>
      h.covered pre n e post hlog lsn (snapshotLe_trans hbase hlsn) }

/-- Dropping what a snapshot captures keeps the agreement from that snapshot on. -/
theorem retain (h : Tracks active main hi curr log base) {dropped : Option Nat}
    (hle : snapshotLe dropped base) :
    Tracks (active.retain fun _ st => !st.isCapturedBy dropped)
      (main.filter fun st => !st.isCapturedBy dropped) hi curr log base where
  ingest := h.ingest
  commitLe := h.commitLe
  startLe := by
    intro k st hst
    cases k with
    | none => exact h.startLe none st (List.mem_filter.mp hst).1
    | some x => exact h.startLe (some x) st (AssocMap.lookup_retain_eq_some_iff.mp hst).1
  mainSorted := h.mainSorted.filter _
  describes := fun x st hst => h.describes x st (AssocMap.lookup_retain_eq_some_iff.mp hst).1
  covered := by
    intro pre n e post hlog lsn hlsn hcap
    obtain ⟨st, htracked, hstart, hst⟩ := h.covered pre n e post hlog lsn hlsn hcap
    -- a state that the later snapshot misses is missed by the earlier one
    have hmiss : st.isCapturedBy dropped = false := by
      by_contra hne
      have := WalTransactionState.isCapturedBy_mono (snapshotLe_trans hle hlsn)
        (Bool.not_eq_false _ ▸ hne)
      rw [this] at hst
      cases hst
    refine ⟨st, ?_, hstart, hst⟩
    cases hk : e.xactId with
    | none =>
      rw [hk] at htracked
      exact List.mem_filter.mpr ⟨htracked, by rw [hmiss]; rfl⟩
    | some x =>
      rw [hk] at htracked
      exact AssocMap.lookup_retain_eq_some_iff.mpr ⟨htracked, by rw [hmiss]; rfl⟩

/-- No transaction is left open in the log if all tracked states of its id are closed. -/
theorem exists_open (h : Tracks active main hi curr log base) {pre post : WalLog Row} {n : Nat}
    {e : WalEvent Row} (hlog : log = pre ++ (n, e) :: post)
    (hopen : fate e (post.map (·.2)) = .open) (states : List WalTransactionState)
    (hstates : ∀ st, Tracked active main e.xactId st → st ∈ states) :
    ∃ st ∈ states, Tracked active main e.xactId st ∧ st.isClosed = false := by
  -- a snapshot above every completion LSN captures the closed states only
  let completion (st : WalTransactionState) : Nat := (st.getCompletionLsnAndFile.map (·.1)).getD 0
  let top : Nat := max ((states.map completion).max?.getD 0) (base.getD 0)
  have hbase : snapshotLe base (some top) := by
    cases base with
    | none => trivial
    | some l => exact Nat.le_max_right _ _
  obtain ⟨st, htracked, -, hst⟩ :=
    h.covered pre n e post hlog (some top) hbase (by rw [hopen]; rfl)
  have hmem := hstates st htracked
  refine ⟨st, hmem, htracked, ?_⟩
  by_contra hclosed
  have hle : completion st ≤ top :=
    Nat.le_trans (List.le_max?_getD_of_mem (List.mem_map_of_mem hmem)) (Nat.le_max_left _ _)
  cases st with
  | «open» f => exact hclosed rfl
  | commit f l g =>
    have hle' : l ≤ top := hle
    simp [WalTransactionState.isCapturedBy, hle'] at hst
  | abort f l g =>
    have hle' : l ≤ top := hle
    simp [WalTransactionState.isCapturedBy, hle'] at hst

/-! ## Pushing an event -/

/-- If the snapshot misses the transaction of an event, then it misses the state that
the event leaves, and also the state that it leaves after an earlier commit. -/
theorem nextState_uncaptured {e : WalEvent Row} {startFile : Nat} {f : XactFate} {lsn : Option Nat}
    (hcap : f.isCaptured lsn = false)
    (hf : f = (e.closes e.xactId).getD .open ∨
      ∃ l, f = .committed l ∧ l ≤ e.commitLsn?.getD hi) :
    (e.nextState startFile (e.commitLsn?.getD hi) curr).isCapturedBy lsn = false := by
  cases lsn with
  | none => rfl
  | some s =>
    have hlt : ∀ l l', f = .committed l → l ≤ l' → s < l' := by
      rintro l l' rfl hle
      have : s < l := by
        simpa [XactFate.isCaptured, WalManager.eventAlreadyCapturedInIcebergSnapshot] using hcap
      exact Nat.lt_of_lt_of_le this hle
    cases e with
    | append row x l => rfl
    | delete row l x d => rfl
    | streamFlush x => rfl
    | commit l x =>
      have hs : s < l := by
        rcases hf with hf | ⟨l₁, hf, hle⟩
        · exact hlt l l (by simpa [WalEvent.closes, WalEvent.xactId] using hf) (Nat.le_refl l)
        · exact hlt l₁ l hf hle
      simpa [WalEvent.nextState, WalTransactionState.isCapturedBy] using hs
    | streamAbort x =>
      have hs : s < hi := by
        rcases hf with hf | ⟨l₁, hf, hle⟩
        · rw [hf] at hcap
          simp [WalEvent.closes, WalEvent.xactId, XactFate.isCaptured] at hcap
        · exact hlt l₁ hi hf hle
      simpa [WalEvent.nextState, WalTransactionState.isCapturedBy, WalEvent.commitLsn?] using hs

/-- After an event, an earlier event of the same transaction id either shares the
fate of the new event or belongs to a transaction that ended before. -/
theorem fate_after {e e' : WalEvent Row} {post : List (WalEvent Row)} {lsn : Option Nat}
    (hkey : e.xactId = e'.xactId)
    (hcommits : ∀ f ∈ e :: post, ∀ l, f.commitLsn? = some l → l ≤ hi)
    (hmono : ∀ l, e'.commitLsn? = some l → hi ≤ l)
    (hcap : (fate e (post ++ [e'])).isCaptured lsn = false) :
    fate e (post ++ [e']) = (e'.closes e'.xactId).getD .open ∨
      ∃ l, fate e (post ++ [e']) = .committed l ∧ l ≤ e'.commitLsn?.getD hi := by
  rw [fate_append_singleton] at hcap ⊢
  split at hcap
  · rename_i hopen
    rw [if_pos hopen, hkey]
    exact .inl rfl
  · rename_i hclosed
    rw [if_neg hclosed]
    cases hfate : fate e post with
    | «open» => exact absurd hfate hclosed
    | aborted => rw [hfate] at hcap; cases hcap
    | committed l =>
      refine .inr ⟨l, rfl, ?_⟩
      have hle : l ≤ hi := hcommits _ (fateOf_eq_committed hfate) l rfl
      cases hlsn : e'.commitLsn? with
      | none => exact hle
      | some l' => exact Nat.le_trans hle (hmono l' hlsn)

section Push

variable {b : Build} {w w' : WalManager Row} {e : TableEvent Row} {e' : WalEvent Row}

/-- The state that an event leaves describes the event. -/
theorem nextState_describes (hingest : e'.isIngest = true) (startFile : Nat) :
    (e'.nextState startFile hi curr).Describes e' := by
  cases e' with
  | append row x l => rfl
  | delete row l x d => rfl
  | commit l x => rfl
  | streamAbort x => rfl
  | streamFlush x => cases hingest

/-- What the push does to the trackers: the new state replaces the states of its
transaction that it continues. -/
structure PushSpec (w w' : WalManager Row) (e' : WalEvent Row) (st : WalTransactionState) :
    Prop where
  tracked : Tracked w'.activeTransactions w'.mainTransactionTracker e'.xactId st
  startLe : st.getStartFile ≤ w.currFileNumber
  /-- A state that is gone was continued by the new one, or starts in the current file. -/
  kept : ∀ k st', Tracked w.activeTransactions w.mainTransactionTracker k st' →
    Tracked w'.activeTransactions w'.mainTransactionTracker k st' ∨
      k = e'.xactId ∧ st.getStartFile ≤ st'.getStartFile
  new : ∀ k st', Tracked w'.activeTransactions w'.mainTransactionTracker k st' →
    Tracked w.activeTransactions w.mainTransactionTracker k st' ∨ k = e'.xactId ∧ st' = st
  mainSorted : w'.mainTransactionTracker.Pairwise fun st st' => st.getStartFile ≤ st'.getStartFile

variable (h : Tracks w.activeTransactions w.mainTransactionTracker w.highestCompletionLsn
  w.currFileNumber log base)

include h

/-- The state that the main transaction continues from starts after all states that
stay in the tracker. -/
theorem popOpenMain_spec :
    w.popOpenMain.1.getStartFile ≤ w.currFileNumber ∧
      (w.popOpenMain.2.Pairwise fun st st' => st.getStartFile ≤ st'.getStartFile) ∧
      (∀ st ∈ w.popOpenMain.2, st ∈ w.mainTransactionTracker ∧
        st.getStartFile ≤ w.popOpenMain.1.getStartFile) ∧
      (∀ st ∈ w.mainTransactionTracker, st ∈ w.popOpenMain.2 ∨
        w.popOpenMain.1.getStartFile ≤ st.getStartFile) := by
  rcases w.popOpenMain_cases with heq | ⟨st, kept, hmain, -, heq⟩
  · rw [heq]
    exact ⟨Nat.le_refl _, h.mainSorted, fun st hst => ⟨hst, h.startLe none st hst⟩,
      fun st hst => .inl hst⟩
  · rw [heq]
    have hsorted := h.mainSorted
    rw [hmain] at hsorted
    obtain ⟨hkept, -, hcross⟩ := List.pairwise_append.mp hsorted
    refine ⟨h.startLe none st (by simp [Tracked, hmain]), hkept, ?_, ?_⟩
    · intro st' hst'
      exact ⟨by rw [hmain]; exact List.mem_append_left _ hst', hcross st' hst' st (by simp)⟩
    · intro st' hst'
      rw [hmain] at hst'
      rcases List.mem_append.mp hst' with hin | hin
      · exact .inl hin
      · rw [List.mem_singleton.mp hin]
        exact .inr (Nat.le_refl _)

variable (hpush : w.push b e = .ok w') (hnew : WalEvent.new e = .ok e')
variable (hingest : e.isIngestEvent = true)

include hpush hnew hingest

theorem pushSpec_streaming {x : XactId} (hx : e'.xactId = some x) :
    PushSpec w w' e' (e'.nextState
      ((w.activeTransactions.lookup x).getD (.open w.currFileNumber)).getStartFile
      w'.highestCompletionLsn w.currFileNumber) := by
  obtain ⟨hmain, hactive⟩ := WalManager.push_streaming hpush hnew hingest hx
  have hother : ∀ y, y ≠ x → w'.activeTransactions.lookup y = w.activeTransactions.lookup y := by
    intro y hy
    rw [hactive]
    exact AList.lookup_insert_ne hy
  have hself := AList.lookup_insert (w.activeTransactions) (a := x) (b := e'.nextState
      ((w.activeTransactions.lookup x).getD (.open w.currFileNumber)).getStartFile
      w'.highestCompletionLsn w.currFileNumber)
  rw [← hactive] at hself
  constructor
  case tracked => rw [hx]; exact hself
  case startLe =>
      rw [WalEvent.nextState_getStartFile]
      cases hlook : w.activeTransactions.lookup x with
      | none => exact Nat.le_refl _
      | some st => exact h.startLe (some x) st hlook
  case kept =>
      intro k st' hst'
      cases k with
      | none => left; unfold Tracked; rw [hmain]; exact hst'
      | some y =>
        by_cases hy : y = x
        · subst hy
          right
          have hlook : w.activeTransactions.lookup y = some st' := hst'
          rw [hlook]
          exact ⟨hx.symm, by simp⟩
        · left
          exact (hother y hy).trans hst'
  case new =>
      intro k st' hst'
      cases k with
      | none => left; unfold Tracked at hst'; rw [hmain] at hst'; exact hst'
      | some y =>
        by_cases hy : y = x
        · subst hy
          right
          have hlook : w'.activeTransactions.lookup y = some st' := hst'
          rw [hself] at hlook
          exact ⟨hx.symm, (Option.some.inj hlook).symm⟩
        · left
          exact (hother y hy).symm.trans hst'
  case mainSorted => rw [hmain]; exact h.mainSorted

theorem pushSpec_main (hx : e'.xactId = none) :
    PushSpec w w' e' (e'.nextState w.popOpenMain.1.getStartFile
      w'.highestCompletionLsn w.currFileNumber) := by
  obtain ⟨hactive, hmain⟩ := WalManager.push_main hpush hnew hingest hx
  obtain ⟨hstart, hsorted, hkept, hgone⟩ := popOpenMain_spec h
  obtain ⟨kept, hmain', hdrop⟩ := WalManager.pushMain_eq_ok hmain
  -- the tracker loses at most the last of the states that stay
  have hsub : kept.Sublist w.popOpenMain.2 := by
    rcases hdrop with rfl | ⟨f, l, g, heq, -⟩
    · exact List.Sublist.refl _
    · rw [heq]
      exact List.sublist_append_left _ _
  have hlost : ∀ st ∈ w.popOpenMain.2, st ∈ kept ∨ st.getStartFile = w.currFileNumber := by
    intro st hst
    rcases hdrop with rfl | ⟨f, l, g, heq, startFile, l', hcommit⟩
    · exact .inl hst
    · rw [heq] at hst
      rcases List.mem_append.mp hst with hin | hin
      · exact .inl hin
      · rw [List.mem_singleton.mp hin]
        right
        cases e' <;> cases hcommit
        rfl
  constructor
  case tracked => rw [hx, Tracked, hmain']; simp
  case startLe => simpa using hstart
  case kept =>
      intro k st' hst'
      cases k with
      | some y => left; unfold Tracked; rw [hactive]; exact hst'
      | none =>
        rw [WalEvent.nextState_getStartFile]
        rcases hgone st' hst' with hin | hle
        · rcases hlost st' hin with hin' | heq
          · left; rw [Tracked, hmain']; exact List.mem_append_left _ hin'
          · right; exact ⟨hx.symm, by rw [heq]; exact hstart⟩
        · right; exact ⟨hx.symm, hle⟩
  case new =>
      intro k st' hst'
      cases k with
      | some y => left; unfold Tracked at hst'; rw [hactive] at hst'; exact hst'
      | none =>
        rw [Tracked, hmain'] at hst'
        rcases List.mem_append.mp hst' with hin | hin
        · exact .inl (hkept st' (hsub.subset hin)).1
        · exact .inr ⟨hx.symm, List.mem_singleton.mp hin⟩
  case mainSorted =>
      rw [hmain', List.pairwise_append]
      refine ⟨hsorted.sublist hsub, List.pairwise_singleton _ _, ?_⟩
      intro st' hst' st'' hst''
      rw [List.mem_singleton.mp hst'', WalEvent.nextState_getStartFile]
      exact (hkept st' (hsub.subset hst')).2

/-- For every kind of event, the push leaves the state of its transaction. -/
theorem exists_pushSpec :
    ∃ startFile, PushSpec w w' e'
      (e'.nextState startFile w'.highestCompletionLsn w.currFileNumber) := by
  cases hx : e'.xactId with
  | none => exact ⟨_, pushSpec_main h hpush hnew hingest hx⟩
  | some x => exact ⟨_, pushSpec_streaming h hpush hnew hingest hx⟩

/-- Pushing an ingest event keeps the trackers in agreement with the log. -/
theorem push (hmono : ∀ lsn, e'.commitLsn? = some lsn → w.highestCompletionLsn ≤ lsn) :
    Tracks w'.activeTransactions w'.mainTransactionTracker w'.highestCompletionLsn
      w'.currFileNumber (log ++ [(w.currFileNumber, e')]) base := by
  obtain ⟨startFile, hspec⟩ := exists_pushSpec h hpush hnew hingest
  obtain ⟨-, hcurr, -, hhi⟩ := WalManager.push_frame hpush hnew
  have hhi_le : w.highestCompletionLsn ≤ w'.highestCompletionLsn := by
    rw [hhi]
    cases hlsn : e'.commitLsn? with
    | none => exact Nat.le_refl _
    | some l => exact hmono l hlsn
  constructor
  case ingest =>
      intro p hp
      rcases List.mem_append.mp hp with hin | hin
      · exact h.ingest p hin
      · rw [List.mem_singleton.mp hin]
        exact WalEvent.isIngest_of_new hnew hingest
  case commitLe =>
      intro p hp l hl
      rcases List.mem_append.mp hp with hin | hin
      · exact Nat.le_trans (h.commitLe p hin l hl) hhi_le
      · rw [List.mem_singleton.mp hin] at hl
        rw [hhi]
        simp [show e'.commitLsn? = some l from hl]
  case startLe =>
      intro k st hst
      rw [hcurr]
      rcases hspec.new k st hst with hold | ⟨-, rfl⟩
      · exact h.startLe k st hold
      · exact hspec.startLe
  case mainSorted => exact hspec.mainSorted
  case describes =>
      intro x st hst
      rw [lastEvent_append]
      by_cases hx : e'.xactId = some x
      · refine ⟨e', if_pos hx, ?_⟩
        have htracked := hspec.tracked
        rw [hx] at htracked
        have : st = _ := Option.some.inj (hst.symm.trans htracked)
        rw [this]
        exact nextState_describes (WalEvent.isIngest_of_new hnew hingest) startFile
      · rw [if_neg hx]
        rcases hspec.new (some x) st hst with hold | ⟨heq, -⟩
        · exact h.describes x st hold
        · exact absurd heq.symm hx
  case covered =>
      intro pre n e₀ post hlog lsn hlsn hcap
      rcases append_singleton_split hlog with ⟨-, heq, rfl⟩ | ⟨post', rfl, hlog'⟩
      · -- the event itself
        cases heq
        refine ⟨_, hspec.tracked, hspec.startLe, ?_⟩
        rw [hhi]
        refine nextState_uncaptured hcap (.inl ?_)
        simp [fate]
      · rw [List.map_append, List.map_singleton] at hcap
        by_cases hkey : e'.xactId = e₀.xactId
        · -- an earlier event of the same transaction id
          have hcommits : ∀ f ∈ e₀ :: post'.map (·.2), ∀ l, f.commitLsn? = some l →
              l ≤ w.highestCompletionLsn := by
            intro f hf
            have hmem : f ∈ log.map (·.2) := by
              rw [hlog', List.map_append, List.map_cons]
              exact List.mem_append_right _ hf
            obtain ⟨p, hp, rfl⟩ := List.mem_map.mp hmem
            exact h.commitLe p hp
          have hnext : (e'.nextState startFile w'.highestCompletionLsn
              w.currFileNumber).isCapturedBy lsn = false := by
            rw [hhi]
            exact nextState_uncaptured hcap (fate_after hkey.symm hcommits hmono hcap)
          have hold : ∃ st, Tracked w.activeTransactions w.mainTransactionTracker e₀.xactId st ∧
              st.getStartFile ≤ n ∧ st.isCapturedBy lsn = false := by
            refine h.covered pre n e₀ post' hlog' lsn hlsn ?_
            rw [fate_append_singleton] at hcap
            split at hcap
            · rename_i hopen
              rw [hopen]
              rfl
            · exact hcap
          obtain ⟨st, htracked, hstart, hst⟩ := hold
          rcases hspec.kept e₀.xactId st htracked with hkept | ⟨-, hle⟩
          · exact ⟨st, hkept, hstart, hst⟩
          · exact ⟨_, hkey ▸ hspec.tracked, Nat.le_trans hle hstart, hnext⟩
        · -- an event of another transaction
          rw [fate_append_of_ne hkey] at hcap
          obtain ⟨st, htracked, hstart, hst⟩ := h.covered pre n e₀ post' hlog' lsn hlsn hcap
          rcases hspec.kept e₀.xactId st htracked with hkept | ⟨heq, -⟩
          · exact ⟨st, hkept, hstart, hst⟩
          · exact absurd heq.symm hkey

end Push
end Tracks
end
end Moonlink
