-- SUMMARY: When the sanity check of a read holds beside tasks that deliver a commit before they mark it.
import Moonlink.UnionRead.DeliverFirst

/-!
# Reads beside tasks that deliver first

What readers can see has its LSN marked, or a task still has to mark it. A reader that looks at
the commit LSN when that of the snapshot is still to be marked, or at the replication LSN when
the commit LSN is still to be marked there, may fail its check; no other reader does, if no two
tasks mark the same LSN at once.
-/

namespace Moonlink.UnionRead

open Lib

/-! ## What is still to be marked -/

namespace Writer

/-- The task has still to mark the LSN. -/
def Marks (wr : Writer) (kind : LsnKind) (lsn : Nat) : Prop :=
  (∃ m ∈ wr.marking, m.kind = kind ∧ m.lsn = lsn) ∨ .mark kind lsn ∈ wr.todo

instance decidableMarks (wr : Writer) (kind : LsnKind) (lsn : Nat) : Decidable (wr.Marks kind lsn) :=
  inferInstanceAs (Decidable ((∃ m ∈ wr.marking, m.kind = kind ∧ m.lsn = lsn) ∨ _ ∈ wr.todo))

def isMarking (wr : Writer) (kind : LsnKind) : Bool := wr.marking.any (·.kind = kind)

end Writer

namespace MarkSystem

def Pending (s : MarkSystem) (kind : LsnKind) (lsn : Nat) : Prop := ∃ wr ∈ s.writers, wr.Marks kind lsn

instance decidablePending (s : MarkSystem) (kind : LsnKind) (lsn : Nat) : Decidable (s.Pending kind lsn) :=
  inferInstanceAs (Decidable (∃ wr ∈ s.writers, wr.Marks kind lsn))

/-- No two tasks mark an LSN at once, no reader looks at an LSN while the one it saw before is still to be
marked there, and no table is added twice. -/
def Orderly (s : MarkSystem) : MarkAction → Prop
  | .start _ (.addTable duplicate) => duplicate = false
  | .writerStep i =>
    match s.writers[i]? with
    | some ⟨none, .mark kind _ :: _⟩ => ∀ wr ∈ s.writers, wr.isMarking kind = false
    | _ => True
  | .readerStep id =>
    match s.readers id with
    | .loopSnapshot _ snapshotLsn => s.commit.watched = noCommitLsn ∨ ¬ s.Pending .commit snapshotLsn
    | .loopCommit _ _ commitLsn => ¬ s.Pending .replication commitLsn
    | _ => True
  | _ => True

instance decidableOrderly (s : MarkSystem) : (a : MarkAction) → Decidable (s.Orderly a)
  | .start _ (.addTable duplicate) => inferInstanceAs (Decidable (duplicate = false))
  | .start _ (.restCommit _) | .start _ (.initialCopy _) | .start _ (.cdcCommit _) | .start _ (.other _) => isTrue trivial
  | .writerStep i => by
    unfold Orderly
    dsimp only
    split <;> infer_instance
  | .readerStep id => by
    unfold Orderly
    dsimp only
    split <;> infer_instance
  | .processCommit | .createSnapshot | .notifySnapshotReader | .tryRead _ _ => isTrue trivial

/-! ## The invariant -/

/-- The LSN of a commit that the table has. -/
def Known (s : MarkSystem) (lsn : Nat) : Prop :=
  lsn ≤ s.commit.watched ∨ s.Pending .commit lsn ∨
    s.isAdded = false ∧ s.persistLsn = some lsn ∧ s.commit.watched = 0

/-- A commit LSN that was seen. -/
def Replicated (s : MarkSystem) (lsn : Nat) : Prop :=
  lsn = 0 ∨ lsn ≤ s.replication.watched ∨ s.Pending .replication lsn

/-- After the mark of a commit LSN comes that of the replication LSN. -/
def Ordered : List WriterOp → Prop
  | .mark .commit lsn :: rest => .mark .replication lsn ∈ rest ∧ Ordered rest
  | _ :: rest => Ordered rest
  | [] => True

/-- What a task has still to do, next to what the readers see. -/
structure WriterOk (s : MarkSystem) (wr : Writer) : Prop where
  ordered : Ordered wr.todo
  markingOrdered : ∀ m ∈ wr.marking, m.kind = .commit → .mark .replication m.lsn ∈ wr.todo
  deliver : ∀ lsn, .deliver lsn ∈ wr.todo → wr.Marks .commit lsn ∨ lsn ≤ s.commit.watched
  added : .added ∈ wr.todo → ∀ lsn ∈ s.persistLsn, wr.Marks .commit lsn ∨ lsn ≤ s.commit.watched
  adding : s.isAdded = false → ∀ lsn, wr.Marks .commit lsn → s.persistLsn = some lsn
  stored : ∀ m ∈ wr.marking, (s.lsnState m.kind).current = (if m.stored then m.lsn else (s.lsnState m.kind).watched) ∧
    (s.lsnState m.kind).watched ≤ m.lsn

structure WritersInv (s : MarkSystem) : Prop where
  ok : ∀ wr ∈ s.writers, s.WriterOk wr
  one : ∀ (kind : LsnKind) (i j : Nat) (wr wr' : Writer), s.writers[i]? = some wr → s.writers[j]? = some wr' →
    wr.isMarking kind = true → wr'.isMarking kind = true → i = j
  idle : ∀ kind, (∀ wr ∈ s.writers, wr.isMarking kind = false) →
    (s.lsnState kind).current = (s.lsnState kind).watched

def ReaderOk (s : MarkSystem) : Reader → Prop
  | .loopSnapshot _ snapshotLsn => snapshotLsn = noSnapshotLsn ∨ s.Known snapshotLsn
  | .loopCommit _ snapshotLsn commitLsn =>
    (snapshotLsn = noSnapshotLsn ∨ commitLsn = 0 ∨ snapshotLsn ≤ commitLsn) ∧ s.Replicated commitLsn
  | .panicked => False
  | _ => True

structure TableInv (s : MarkSystem) : Prop where
  queue : ∀ lsn ∈ s.queue, s.Known lsn
  baseline : s.Known s.commitLsnBaseline
  version : s.Known s.snapshotVersion
  snapshot : s.snapshotLsn = noSnapshotLsn ∨ s.Known s.snapshotLsn
  readers : ∀ id, s.ReaderOk (s.readers id)

structure MarkInv (s : MarkSystem) : Prop where
  writers : s.WritersInv
  commit : s.Replicated s.commit.watched
  table : s.TableInv

/-! ## What is known stays known -/

/-- What readers see does not go back, and what was to be marked is marked or still to be marked. -/
structure Advances (s s' : MarkSystem) : Prop where
  watched : ∀ kind, (s.lsnState kind).watched ≤ (s'.lsnState kind).watched
  pending : ∀ kind lsn, s.Pending kind lsn → lsn ≤ (s'.lsnState kind).watched ∨ s'.Pending kind lsn
  unadded : ∀ lsn, s.isAdded = false → s.persistLsn = some lsn → s.commit.watched = 0 → s'.Known lsn

variable {s s' : MarkSystem}

theorem Known.advance {lsn : Nat} (h : s.Known lsn) (hadv : s.Advances s') : s'.Known lsn := by
  obtain hwatched | hpending | ⟨hadded, hpersist, hzero⟩ := h
  · exact .inl (hwatched.trans (hadv.watched .commit))
  · obtain hmarked | hpending := hadv.pending .commit lsn hpending
    · exact .inl hmarked
    · exact .inr (.inl hpending)
  · exact hadv.unadded lsn hadded hpersist hzero

theorem Replicated.advance {lsn : Nat} (h : s.Replicated lsn) (hadv : s.Advances s') : s'.Replicated lsn := by
  obtain hzero | hwatched | hpending := h
  · exact .inl hzero
  · exact .inr (.inl (hwatched.trans (hadv.watched .replication)))
  · exact .inr (hadv.pending .replication lsn hpending)

theorem ReaderOk.advance {reader : Reader} (h : s.ReaderOk reader) (hadv : s.Advances s') :
    s'.ReaderOk reader := by
  cases reader with
  | loopSnapshot requested snapshotLsn => exact h.imp id (·.advance hadv)
  | loopCommit requested snapshotLsn commitLsn => exact ⟨h.1, h.2.advance hadv⟩
  | panicked => exact h
  | idle | loadedCache | sawSnapshot | useCache | looping | refreshing | returned | failed => trivial

theorem TableInv.advance (h : s.TableInv) (hadv : s.Advances s') (hqueue : ∀ lsn ∈ s'.queue, s'.Known lsn)
    (hbaseline : s'.commitLsnBaseline = s.commitLsnBaseline) (hversion : s'.snapshotVersion = s.snapshotVersion)
    (hsnapshot : s'.snapshotLsn = s.snapshotLsn) (hreaders : s'.readers = s.readers) : s'.TableInv where
  queue := hqueue
  baseline := by
    rw [hbaseline]
    exact h.baseline.advance hadv
  version := by
    rw [hversion]
    exact h.version.advance hadv
  snapshot := by
    rw [hsnapshot]
    exact h.snapshot.imp id (·.advance hadv)
  readers id := by
    rw [hreaders]
    exact (h.readers id).advance hadv

/-- The readers see the same, and the same is to be marked. -/
theorem Advances.of_eq (hstate : ∀ kind, s'.lsnState kind = s.lsnState kind)
    (hwriters : s'.writers = s.writers) (hpersist : s'.persistLsn = s.persistLsn)
    (hadded : s'.isAdded = s.isAdded) : s.Advances s' where
  watched kind := (congrArg LsnState.watched (hstate kind)).ge
  pending kind lsn hpending := by
    unfold Pending
    rw [hwriters]
    exact .inr hpending
  unadded lsn hfalse hlsn hzero :=
    .inr (.inr ⟨hadded.trans hfalse, hpersist.trans hlsn, (congrArg LsnState.watched (hstate .commit)).trans hzero⟩)

theorem WriterOk.of_eq {wr : Writer} (h : s.WriterOk wr) (hstate : ∀ m ∈ wr.marking, s'.lsnState m.kind = s.lsnState m.kind)
    (hcommit : s.commit.watched ≤ s'.commit.watched) (hpersist : s'.persistLsn = s.persistLsn)
    (hadded : s'.isAdded = false → s.isAdded = false) : s'.WriterOk wr where
  ordered := h.ordered
  markingOrdered := h.markingOrdered
  deliver lsn hlsn := (h.deliver lsn hlsn).imp id (·.trans hcommit)
  added htodo lsn hlsn := by
    rw [hpersist] at hlsn
    exact (h.added htodo lsn hlsn).imp id (·.trans hcommit)
  adding hfalse lsn hmarks := by
    rw [hpersist]
    exact h.adding (hadded hfalse) lsn hmarks
  stored m hm := by
    rw [hstate m hm]
    exact h.stored m hm

/-! ## Steps of a task -/

@[simp] theorem lsnState_setLsnState (kind kind' : LsnKind) (state : LsnState) :
    (s.setLsnState kind state).lsnState kind' = if kind' = kind then state else s.lsnState kind' := by
  cases kind <;> cases kind' <;> rfl

@[simp] theorem lsnState_setWriter (i : Nat) (wr : Writer) (kind : LsnKind) :
    (s.setWriter i wr).lsnState kind = s.lsnState kind := by
  cases kind <;> rfl

/-- The task at `i` makes a step, and what it had to mark is marked or still to be marked. -/
structure TaskStep (s s' : MarkSystem) (i : Nat) (wr wr' : Writer) : Prop where
  get : s.writers[i]? = some wr
  set : s'.writers = s.writers.set i wr'
  persistLsn : s'.persistLsn = s.persistLsn
  isAdded : s'.isAdded = false → s.isAdded = false
  table : s'.commitLsnBaseline = s.commitLsnBaseline ∧ s'.snapshotVersion = s.snapshotVersion ∧
    s'.snapshotLsn = s.snapshotLsn ∧ s'.readers = s.readers
  watched : ∀ kind, (s.lsnState kind).watched ≤ (s'.lsnState kind).watched
  marks : ∀ kind lsn, wr.Marks kind lsn → lsn ≤ (s'.lsnState kind).watched ∨ wr'.Marks kind lsn
  unadded : ∀ lsn, s.isAdded = false → s.persistLsn = some lsn → s.commit.watched = 0 → s'.Known lsn
  others : ∀ (j : Nat) (w : Writer), j ≠ i → s.writers[j]? = some w → ∀ m ∈ w.marking,
    s'.lsnState m.kind = s.lsnState m.kind
  one : ∀ kind, wr'.isMarking kind = true → ∀ (j : Nat) (w : Writer), j ≠ i → s.writers[j]? = some w →
    w.isMarking kind = false
  idle : ∀ kind, wr'.isMarking kind = false →
    (∀ (j : Nat) (w : Writer), j ≠ i → s.writers[j]? = some w → w.isMarking kind = false) →
    (s'.lsnState kind).current = (s'.lsnState kind).watched

variable {i : Nat} {wr wr' : Writer}

theorem TaskStep.pending (h : TaskStep s s' i wr wr') (kind : LsnKind) (lsn : Nat) (hpending : s.Pending kind lsn) :
    lsn ≤ (s'.lsnState kind).watched ∨ s'.Pending kind lsn := by
  obtain ⟨w, hw, hwMarks⟩ := hpending
  obtain ⟨j, hj⟩ := List.getElem?_of_mem hw
  have hlt : i < s.writers.length := (List.getElem?_eq_some_iff.mp h.get).1
  unfold Pending
  rw [h.set]
  by_cases hij : i = j
  · subst hij
    cases h.get.symm.trans hj
    exact (h.marks kind lsn hwMarks).imp id fun h' => ⟨wr', List.mem_set hlt wr', h'⟩
  · have hmem : (s.writers.set i wr')[j]? = some w := by rw [List.getElem?_set_ne hij, hj]
    exact .inr ⟨w, List.mem_of_getElem? hmem, hwMarks⟩

theorem TaskStep.advances (h : TaskStep s s' i wr wr') : s.Advances s' := ⟨h.watched, h.pending, h.unadded⟩

theorem TaskStep.writersInv (h : TaskStep s s' i wr wr') (hinv : s.WritersInv) (hok : s'.WriterOk wr') :
    s'.WritersInv := by
  have hlt : i < s.writers.length := (List.getElem?_eq_some_iff.mp h.get).1
  have hself : (s.writers.set i wr')[i]? = some wr' := List.getElem?_set_self hlt
  have hother (j : Nat) (hj : j ≠ i) : (s.writers.set i wr')[j]? = s.writers[j]? :=
    List.getElem?_set_ne hj.symm
  refine ⟨?_, ?_, ?_⟩
  · intro w hw
    rw [h.set] at hw
    obtain ⟨j, hj⟩ := List.getElem?_of_mem hw
    by_cases hij : j = i
    · subst hij
      cases hself.symm.trans hj
      exact hok
    · rw [hother j hij] at hj
      exact (hinv.ok w (List.mem_of_getElem? hj)).of_eq (h.others j w hij hj) (h.watched .commit) h.persistLsn
        h.isAdded
  · intro kind j k w w' hj hk hw hw'
    rw [h.set] at hj hk
    by_cases hji : j = i <;> by_cases hki : k = i
    · exact hji.trans hki.symm
    · subst hji
      cases hself.symm.trans hj
      rw [hother k hki] at hk
      exact absurd hw' (by simp [h.one kind hw k w' hki hk])
    · subst hki
      cases hself.symm.trans hk
      rw [hother j hji] at hj
      exact absurd hw (by simp [h.one kind hw' j w hji hj])
    · rw [hother j hji] at hj
      rw [hother k hki] at hk
      exact hinv.one kind j k w w' hj hk hw hw'
  · intro kind hnone
    rw [h.set] at hnone
    refine h.idle kind (hnone wr' (List.mem_set hlt wr')) fun j w hj hw => ?_
    rw [← hother j hj] at hw
    exact hnone w (List.mem_of_getElem? hw)

/-- What a step of a task leaves to show. -/
theorem TaskStep.markInv (h : TaskStep s s' i wr wr') (hinv : s.MarkInv) (hok : s'.WriterOk wr')
    (hcommit : s'.Replicated s'.commit.watched) (hqueue : ∀ lsn ∈ s'.queue, s'.Known lsn) : s'.MarkInv where
  writers := h.writersInv hinv.writers hok
  commit := hcommit
  table := hinv.table.advance h.advances hqueue h.table.1 h.table.2.1 h.table.2.2.1 h.table.2.2.2

/-- No task marks an LSN, the one at `i` aside, which does not either. -/
theorem WritersInv.idle_of_others {kind : LsnKind} (h : s.WritersInv)
    (hget : s.writers[i]? = some wr) (hwr : wr.isMarking kind = false)
    (hothers : ∀ (j : Nat) (w : Writer), j ≠ i → s.writers[j]? = some w → w.isMarking kind = false) :
    (s.lsnState kind).current = (s.lsnState kind).watched := by
  refine h.idle kind fun w hw => ?_
  obtain ⟨j, hj⟩ := List.getElem?_of_mem hw
  by_cases hij : j = i
  · subst hij
    cases hget.symm.trans hj
    exact hwr
  · exact hothers j w hij hj

/-- While one task marks an LSN, no other does. -/
theorem WritersInv.others_idle {kind : LsnKind} (h : s.WritersInv)
    (hget : s.writers[i]? = some wr) (hwr : wr.isMarking kind = true) (j : Nat) (w : Writer) (hj : j ≠ i)
    (hw : s.writers[j]? = some w) : w.isMarking kind = false := by
  rw [Bool.eq_false_iff]
  intro hmarking
  exact hj (h.one kind j i w wr hw hget hmarking hwr)

theorem kind_ne_of_not_marking {kind : LsnKind} {m : Marking} (hwr : wr.isMarking kind = false)
    (hm : m ∈ wr.marking) : m.kind ≠ kind := by
  rintro rfl
  rw [Option.mem_def] at hm
  simp [Writer.isMarking, hm] at hwr

variable {kind : LsnKind} {lsn : Nat} {todo : List WriterOp}

/-- The task that marks an LSN changes it. -/
theorem taskStep_setLsnState {state : LsnState} (h : s.WritersInv) (hget : s.writers[i]? = some wr)
    (hmarking : wr.isMarking kind = true) (hwatched : (s.lsnState kind).watched ≤ state.watched)
    (hmarks : ∀ k lsn, wr.Marks k lsn → k = kind ∧ lsn ≤ state.watched ∨ wr'.Marks k lsn)
    (hone : ∀ k, wr'.isMarking k = true → wr.isMarking k = true)
    (hidle : wr'.isMarking kind = false → state.current = state.watched)
    (hother : ∀ k, k ≠ kind → wr'.isMarking k = false → wr.isMarking k = false)
    (hunadded : kind = .commit → ∀ lsn, s.isAdded = false → s.persistLsn = some lsn → s.commit.watched = 0 →
      state.watched = 0 ∨ lsn ≤ state.watched) :
    TaskStep s ((s.setWriter i wr').setLsnState kind state) i wr wr' where
  get := hget
  set := by cases kind <;> rfl
  persistLsn := by cases kind <;> rfl
  isAdded := by cases kind <;> exact id
  table := by cases kind <;> exact ⟨rfl, rfl, rfl, rfl⟩
  watched k := by
    rw [lsnState_setLsnState, lsnState_setWriter]
    split
    · next heq => rwa [heq]
    · exact le_rfl
  marks k lsn hm := by
    obtain ⟨rfl, hle⟩ | hm := hmarks k lsn hm
    · rw [lsnState_setLsnState, if_pos rfl]
      exact .inl hle
    · exact .inr hm
  unadded lsn hfalse hlsn hzero := by
    cases kind with
    | commit =>
      obtain hzero' | hle := hunadded rfl lsn hfalse hlsn hzero
      · exact .inr (.inr ⟨hfalse, hlsn, hzero'⟩)
      · exact .inl hle
    | replication => exact .inr (.inr ⟨hfalse, hlsn, hzero⟩)
  others j w hj hw m hm := by
    rw [lsnState_setLsnState, if_neg (kind_ne_of_not_marking (h.others_idle hget hmarking j w hj hw) hm),
      lsnState_setWriter]
  one k hk j w hj hw := h.others_idle hget (hone k hk) j w hj hw
  idle k hk hothers := by
    rw [lsnState_setLsnState, lsnState_setWriter]
    split
    · next heq =>
        rw [heq] at hk
        exact hidle hk
    · next hne => exact h.idle_of_others hget (hother k hne hk) hothers

/-- A task that has less to do, and marks nothing that it did not have to mark. -/
theorem WriterOk.step (h : s.WriterOk wr) (hstep : TaskStep s s' i wr wr') (htodo : ∀ op ∈ wr'.todo, op ∈ wr.todo)
    (hordered : Ordered wr'.todo)
    (hmarkingOrdered : ∀ m ∈ wr'.marking, m.kind = .commit → .mark .replication m.lsn ∈ wr'.todo)
    (hmarks : ∀ lsn, wr'.Marks .commit lsn → wr.Marks .commit lsn)
    (hstored : ∀ m ∈ wr'.marking, (s'.lsnState m.kind).current =
      (if m.stored then m.lsn else (s'.lsnState m.kind).watched) ∧ (s'.lsnState m.kind).watched ≤ m.lsn) :
    s'.WriterOk wr' := by
  have hkeep (lsn : Nat) (hlsn : wr.Marks .commit lsn ∨ lsn ≤ s.commit.watched) :
      wr'.Marks .commit lsn ∨ lsn ≤ s'.commit.watched := by
    obtain hm | hle := hlsn
    · exact (hstep.marks .commit lsn hm).symm
    · exact .inr (hle.trans (hstep.watched .commit))
  refine ⟨hordered, hmarkingOrdered, ?_, ?_, ?_, hstored⟩
  · exact fun lsn hlsn => hkeep lsn (h.deliver lsn (htodo _ hlsn))
  · intro hadded lsn hlsn
    rw [hstep.persistLsn] at hlsn
    exact hkeep lsn (h.added (htodo _ hadded) lsn hlsn)
  · intro hfalse lsn hm
    rw [hstep.persistLsn]
    exact h.adding (hstep.isAdded hfalse) lsn (hmarks lsn hm)

theorem Ordered.tail {op : WriterOp} {rest : List WriterOp} (h : Ordered (op :: rest)) : Ordered rest := by
  cases op with
  | mark kind lsn =>
    cases kind with
    | commit => exact h.2
    | replication => exact h
  | deliver lsn => exact h
  | added => exact h

/-- The greater LSN is stored. -/
theorem MarkInv.store (h : s.MarkInv) (hget : s.writers[i]? = some ⟨some ⟨kind, lsn, false⟩, todo⟩) :
    ((s.setWriter i ⟨some ⟨kind, lsn, true⟩, todo⟩).setLsnState kind
      { s.lsnState kind with current := lsn }).MarkInv := by
  have hwr := h.writers.ok _ (List.mem_of_getElem? hget)
  obtain ⟨-, hle⟩ := hwr.stored _ rfl
  have hmarks (k : LsnKind) (l : Nat) :
      Writer.Marks ⟨some ⟨kind, lsn, false⟩, todo⟩ k l ↔ Writer.Marks ⟨some ⟨kind, lsn, true⟩, todo⟩ k l := by
    simp [Writer.Marks]
  have hstep : TaskStep s ((s.setWriter i ⟨some ⟨kind, lsn, true⟩, todo⟩).setLsnState kind
      { s.lsnState kind with current := lsn }) i ⟨some ⟨kind, lsn, false⟩, todo⟩ ⟨some ⟨kind, lsn, true⟩, todo⟩ := by
    refine taskStep_setLsnState h.writers hget (by simp [Writer.isMarking]) le_rfl ?_ ?_ ?_ ?_ ?_
    · exact fun k l hm => .inr ((hmarks k l).mp hm)
    · exact fun k hk => hk
    · exact fun hk => by simp [Writer.isMarking] at hk
    · exact fun k _ hk => hk
    · rintro rfl l - - hzero
      exact .inl hzero
  refine hstep.markInv h (hwr.step hstep (fun _ hop => hop) hwr.ordered ?_ ?_ ?_) ?_ ?_
  · intro m hm hkind
    cases hm
    exact hwr.markingOrdered ⟨kind, lsn, false⟩ rfl hkind
  · exact fun l hm => (hmarks .commit l).mpr hm
  · intro m hm
    cases hm
    simpa using hle
  · have hsame : ((s.setWriter i ⟨some ⟨kind, lsn, true⟩, todo⟩).setLsnState kind
        { s.lsnState kind with current := lsn }).commit.watched = s.commit.watched := by cases kind <;> rfl
    rw [hsame]
    exact h.commit.advance hstep.advances
  · intro l hl
    have hqueue : l ∈ s.queue := by cases kind <;> exact hl
    exact (h.table.queue l hqueue).advance hstep.advances

/-- The stored LSN is sent to the readers. -/
theorem MarkInv.send (h : s.MarkInv) (hget : s.writers[i]? = some ⟨some ⟨kind, lsn, true⟩, todo⟩) :
    ((s.setWriter i ⟨none, todo⟩).setLsnState kind { s.lsnState kind with watched := lsn }).MarkInv := by
  have hwr := h.writers.ok _ (List.mem_of_getElem? hget)
  obtain ⟨hcurrent, hle⟩ := hwr.stored _ rfl
  have hstep : TaskStep s ((s.setWriter i ⟨none, todo⟩).setLsnState kind { s.lsnState kind with watched := lsn }) i
      ⟨some ⟨kind, lsn, true⟩, todo⟩ ⟨none, todo⟩ := by
    refine taskStep_setLsnState h.writers hget (by simp [Writer.isMarking]) hle ?_ ?_ ?_ ?_ ?_
    · rintro k l (⟨m, hm, rfl, rfl⟩ | htodo)
      · cases hm
        exact .inl ⟨rfl, le_rfl⟩
      · exact .inr (.inr htodo)
    · exact fun k hk => by simp [Writer.isMarking] at hk
    · exact fun _ => hcurrent
    · intro k hk _
      simpa [Writer.isMarking] using hk.symm
    · rintro rfl l hfalse hl -
      have hlsn := hwr.adding hfalse lsn (.inl ⟨_, rfl, rfl, rfl⟩)
      cases hl.symm.trans hlsn
      exact .inr le_rfl
  refine hstep.markInv h (hwr.step hstep (fun _ hop => hop) hwr.ordered ?_ ?_ ?_) ?_ ?_
  · exact fun m hm => by cases hm
  · rintro l (⟨m, hm, -⟩ | htodo)
    · cases hm
    · exact .inr htodo
  · exact fun m hm => by cases hm
  · cases kind with
    | commit =>
      -- The same task marks the replication LSN later.
      have hlt : i < s.writers.length := (List.getElem?_eq_some_iff.mp hget).1
      exact .inr (.inr ⟨⟨none, todo⟩, List.mem_set hlt _, .inr (hwr.markingOrdered _ rfl rfl)⟩)
    | replication => exact h.commit.advance hstep.advances
  · intro l hl
    have hqueue : l ∈ s.queue := by cases kind <;> exact hl
    exact (h.table.queue l hqueue).advance hstep.advances

/-- A task that marks nothing goes on, and the readers see the same. -/
theorem taskStep_of_lsnState {ops : List WriterOp} (h : s.WritersInv) (hget : s.writers[i]? = some ⟨none, ops⟩)
    (hset : s'.writers = s.writers.set i wr') (hpersist : s'.persistLsn = s.persistLsn)
    (hadded : s'.isAdded = false → s.isAdded = false)
    (htable : s'.commitLsnBaseline = s.commitLsnBaseline ∧ s'.snapshotVersion = s.snapshotVersion ∧
      s'.snapshotLsn = s.snapshotLsn ∧ s'.readers = s.readers)
    (hstate : ∀ kind, s'.lsnState kind = s.lsnState kind)
    (hmarks : ∀ kind lsn, .mark kind lsn ∈ ops → lsn ≤ (s.lsnState kind).watched ∨ wr'.Marks kind lsn)
    (hunadded : ∀ lsn, s.isAdded = false → s.persistLsn = some lsn → s.commit.watched = 0 → s'.Known lsn)
    (hone : ∀ kind, wr'.isMarking kind = true → ∀ (j : Nat) (w : Writer), j ≠ i → s.writers[j]? = some w →
      w.isMarking kind = false) :
    TaskStep s s' i ⟨none, ops⟩ wr' where
  get := hget
  set := hset
  persistLsn := hpersist
  isAdded := hadded
  table := htable
  watched kind := (congrArg LsnState.watched (hstate kind)).ge
  marks := by
    rintro kind lsn (⟨m, hm, -⟩ | hop)
    · cases hm
    · rw [hstate]
      exact hmarks kind lsn hop
  unadded := hunadded
  others j w _ _ m _ := hstate m.kind
  one := hone
  idle kind _ hothers := by
    rw [hstate]
    exact h.idle_of_others hget rfl hothers

theorem MarkInv.deliver (h : s.MarkInv) (hget : s.writers[i]? = some ⟨none, .deliver lsn :: todo⟩) :
    MarkInv { s.setWriter i ⟨none, todo⟩ with queue := s.queue ++ [lsn] } := by
  have hwr := h.writers.ok _ (List.mem_of_getElem? hget)
  have hstep : TaskStep s { s.setWriter i ⟨none, todo⟩ with queue := s.queue ++ [lsn] } i
      ⟨none, .deliver lsn :: todo⟩ ⟨none, todo⟩ := by
    refine taskStep_of_lsnState h.writers hget rfl rfl id ⟨rfl, rfl, rfl, rfl⟩ ?_ ?_ ?_ ?_
    · rintro (_ | _) <;> rfl
    · exact fun k l hop => .inr (.inr (by simpa using hop))
    · exact fun l hfalse hl hzero => .inr (.inr ⟨hfalse, hl, hzero⟩)
    · exact fun k hk => by cases hk
  refine hstep.markInv h (hwr.step hstep (fun _ hop => .tail _ hop) hwr.ordered.tail nofun ?_ nofun) ?_ ?_
  · rintro l (⟨m, hm, -⟩ | hop)
    · cases hm
    · exact .inr (.tail _ hop)
  · exact h.commit.advance hstep.advances
  · intro l hl
    obtain hl | hl := List.mem_append.mp hl
    · exact (h.table.queue l hl).advance hstep.advances
    · cases List.mem_singleton.mp hl
      obtain hm | hle := hwr.deliver lsn List.mem_cons_self
      · obtain hle | hpending := hstep.pending .commit lsn ⟨_, List.mem_of_getElem? hget, hm⟩
        · exact .inl hle
        · exact .inr (.inl hpending)
      · exact .inl hle

theorem MarkInv.added (h : s.MarkInv) (hget : s.writers[i]? = some ⟨none, .added :: todo⟩) :
    MarkInv { s.setWriter i ⟨none, todo⟩ with isAdded := true } := by
  have hwr := h.writers.ok _ (List.mem_of_getElem? hget)
  have hmarks (k : LsnKind) (l : Nat) (hop : .mark k l ∈ WriterOp.added :: todo) :
      Writer.Marks ⟨none, todo⟩ k l := .inr (by simpa using hop)
  have hlt : i < s.writers.length := (List.getElem?_eq_some_iff.mp hget).1
  have hstep : TaskStep s { s.setWriter i ⟨none, todo⟩ with isAdded := true } i
      ⟨none, .added :: todo⟩ ⟨none, todo⟩ := by
    refine taskStep_of_lsnState h.writers hget rfl rfl nofun ⟨rfl, rfl, rfl, rfl⟩ ?_ ?_ ?_ ?_
    · rintro (_ | _) <;> rfl
    · exact fun k l hop => .inr (hmarks k l hop)
    · rintro l - hl -
      obtain (⟨m, hm, -⟩ | hop) | hle := hwr.added List.mem_cons_self l hl
      · cases hm
      · exact .inr (.inl ⟨⟨none, todo⟩, List.mem_set hlt _, hmarks .commit l hop⟩)
      · exact .inl hle
    · exact fun k hk => by cases hk
  refine hstep.markInv h (hwr.step hstep (fun _ hop => .tail _ hop) hwr.ordered.tail nofun ?_ nofun) ?_ ?_
  · rintro l (⟨m, hm, -⟩ | hop)
    · cases hm
    · exact .inr (.tail _ hop)
  · exact h.commit.advance hstep.advances
  · exact fun l hl => (h.table.queue l hl).advance hstep.advances

/-- A mark begins, which is all of it if the LSN is not greater than the current one. -/
theorem MarkInv.mark (h : s.MarkInv) (hget : s.writers[i]? = some ⟨none, .mark kind lsn :: todo⟩)
    (hnone : ∀ w ∈ s.writers, w.isMarking kind = false) :
    (s.setWriter i ⟨if (s.lsnState kind).current < lsn then some ⟨kind, lsn, false⟩ else none, todo⟩).MarkInv := by
  have hwr := h.writers.ok _ (List.mem_of_getElem? hget)
  have hcurrent := h.writers.idle kind hnone
  generalize hmarking : (if (s.lsnState kind).current < lsn then some ⟨kind, lsn, false⟩ else none : Option Marking) =
    marking
  have hm (m : Marking) (hm : m ∈ marking) : m = ⟨kind, lsn, false⟩ ∧ (s.lsnState kind).current < lsn := by
    subst hmarking
    split at hm
    · next hlt => exact ⟨(Option.mem_some_iff.mp hm).symm, hlt⟩
    · cases hm
  have hstep : TaskStep s (s.setWriter i ⟨marking, todo⟩) i ⟨none, .mark kind lsn :: todo⟩ ⟨marking, todo⟩ := by
    refine taskStep_of_lsnState h.writers hget rfl rfl id ⟨rfl, rfl, rfl, rfl⟩ (lsnState_setWriter i _) ?_ ?_ ?_
    · intro k l hop
      obtain heq | hop := List.mem_cons.mp hop
      · cases heq
        by_cases hlt : (s.lsnState kind).current < lsn
        · rw [if_pos hlt] at hmarking
          exact .inr (.inl ⟨_, hmarking.symm, rfl, rfl⟩)
        · exact .inl (hcurrent ▸ Nat.le_of_not_lt hlt)
      · exact .inr (.inr hop)
    · exact fun l hfalse hl hzero => .inr (.inr ⟨hfalse, hl, hzero⟩)
    · intro k hk j w _ hw
      obtain ⟨m, hmem, hkind⟩ := (Option.any_eq_true _ _).mp hk
      obtain ⟨rfl, -⟩ := hm m hmem
      cases of_decide_eq_true hkind
      exact hnone w (List.mem_of_getElem? hw)
  refine hstep.markInv h (hwr.step hstep (fun _ hop => .tail _ hop) hwr.ordered.tail ?_ ?_ ?_) ?_ ?_
  · intro m hmem hkind
    obtain ⟨rfl, -⟩ := hm m hmem
    cases hkind
    exact hwr.ordered.1
  · rintro l (⟨m, hmem, hkind, rfl⟩ | hop)
    · obtain ⟨rfl, -⟩ := hm m hmem
      cases hkind
      exact .inr List.mem_cons_self
    · exact .inr (.tail _ hop)
  · intro m hmem
    obtain ⟨rfl, hlt⟩ := hm m hmem
    rw [lsnState_setWriter]
    exact ⟨hcurrent, (hcurrent ▸ hlt).le⟩
  · exact h.commit.advance hstep.advances
  · exact fun l hl => (h.table.queue l hl).advance hstep.advances

theorem MarkInv.perform (h : s.MarkInv) (hget : s.writers[i]? = some wr) (horderly : s.Orderly (.writerStep i))
    (hperform : s.perform i wr = some s') : s'.MarkInv := by
  obtain ⟨marking, todo⟩ := wr
  cases marking with
  | some m =>
    obtain ⟨kind, lsn, stored⟩ := m
    cases stored with
    | false =>
      cases hperform
      exact h.store hget
    | true =>
      cases hperform
      exact h.send hget
  | none =>
    cases todo with
    | nil => cases hperform
    | cons op todo =>
      cases op with
      | deliver lsn =>
        cases hperform
        exact h.deliver hget
      | mark kind lsn =>
        cases hperform
        simp only [Orderly, hget] at horderly
        exact h.mark hget horderly
      | added =>
        cases hperform
        exact h.added hget

/-! ## Steps of the system -/

theorem start_markInv {task : Task} {adding : Bool} (h : s.MarkInv) (hget : s.writers[i]? = some ⟨none, []⟩)
    (hof : task.isOfTable = true → s.isAdded = true) (horderly : s.Orderly (.start i task)) :
    MarkInv { s.setWriter i ⟨none, task.ops s.persistLsn⟩ with isAdding := adding } := by
  have hstep : TaskStep s { s.setWriter i ⟨none, task.ops s.persistLsn⟩ with isAdding := adding } i ⟨none, []⟩
      ⟨none, task.ops s.persistLsn⟩ := by
    refine taskStep_of_lsnState h.writers hget rfl rfl id ⟨rfl, rfl, rfl, rfl⟩ ?_ nofun ?_ ?_
    · rintro (_ | _) <;> rfl
    · exact fun l hfalse hl hzero => .inr (.inr ⟨hfalse, hl, hzero⟩)
    · exact fun k hk => by cases hk
  refine hstep.markInv h ?_ (h.commit.advance hstep.advances) fun l hl =>
    (h.table.queue l hl).advance hstep.advances
  cases task with
  | restCommit lsn | initialCopy lsn | cdcCommit lsn =>
    have hadded := hof rfl
    refine ⟨by simp [Task.ops, Ordered], nofun, ?_, by simp [Task.ops], ?_, nofun⟩
    · simp [Task.ops, Writer.Marks]
    · exact fun hfalse => by cases hadded.symm.trans hfalse
  | other lsn =>
    refine ⟨by simp [Task.ops, Ordered], nofun, by simp [Task.ops], by simp [Task.ops], ?_, nofun⟩
    simp [Task.ops, Writer.Marks]
  | addTable duplicate =>
    cases duplicate with
    | true => cases horderly
    | false =>
      cases hpersist : s.persistLsn <;> refine ⟨?_, nofun, ?_, ?_, ?_, nofun⟩ <;>
        simp [Task.ops, Ordered, Writer.Marks, setWriter, hpersist]

/-- The tasks stand still, and the readers see the same LSNs marked. -/
theorem MarkInv.of_eq (h : s.MarkInv) (hstate : ∀ kind, s'.lsnState kind = s.lsnState kind)
    (hwriters : s'.writers = s.writers) (hpersist : s'.persistLsn = s.persistLsn)
    (hadded : s'.isAdded = s.isAdded) (htable : s.Advances s' → s'.TableInv) : s'.MarkInv := by
  have hadv := Advances.of_eq hstate hwriters hpersist hadded
  have hcommit : s'.commit = s.commit := hstate .commit
  refine ⟨⟨fun w hw => ?_, ?_, fun kind hnone => ?_⟩, ?_, htable hadv⟩
  · rw [hwriters] at hw
    exact (h.writers.ok w hw).of_eq (fun m _ => hstate m.kind) (by rw [hcommit]) hpersist (hadded ▸ ·)
  · rw [hwriters]
    exact h.writers.one
  · rw [hwriters] at hnone
    rw [hstate]
    exact h.writers.idle kind hnone
  · rw [hcommit]
    exact h.commit.advance hadv

/-- A reader goes on. -/
theorem MarkInv.setReader {id : Nat} {reader : Reader} (h : s.MarkInv) (hreader : s.ReaderOk reader) :
    (s.setReader id reader).MarkInv := by
  refine h.of_eq (by rintro (_ | _) <;> rfl) rfl rfl rfl fun hadv => ?_
  refine ⟨fun l hl => (h.table.queue l hl).advance hadv, h.table.baseline.advance hadv,
    h.table.version.advance hadv, h.table.snapshot.imp (·) (·.advance hadv), fun id' => ?_⟩
  by_cases hid : id' = id
  · subst hid
    simpa [MarkSystem.setReader] using hreader.advance hadv
  · simpa [MarkSystem.setReader, hid] using (h.table.readers id').advance hadv

theorem sanityCheck_of_le {snapshotLsn replicationLsn commitLsn : Nat}
    (hsnapshot : snapshotLsn = noSnapshotLsn ∨ commitLsn = 0 ∨ snapshotLsn ≤ commitLsn)
    (hcommit : commitLsn ≤ replicationLsn) :
    ReadStateManager.sanityCheck snapshotLsn replicationLsn commitLsn = true := by
  unfold ReadStateManager.sanityCheck noCommitLsn
  obtain rfl | rfl | hle := hsnapshot
  · simpa using hcommit
  · simp
  · simp [hle, hcommit]

theorem MarkInv.readerNext {id : Nat} (h : s.MarkInv) (horderly : s.Orderly (.readerStep id))
    (hnext : s.readerNext id = some s') : s'.MarkInv := by
  have hreader := h.table.readers id
  unfold MarkSystem.readerNext at hnext
  simp only [Orderly] at horderly
  cases hr : s.readers id with
  | looping requested =>
    rw [hr] at hnext
    cases hnext
    exact h.setReader h.table.snapshot
  | loopSnapshot requested snapshotLsn =>
    rw [hr] at hnext horderly hreader
    cases hnext
    refine h.setReader ⟨hreader.imp (·) fun hknown => ?_, h.commit⟩
    obtain hzero | hnot := horderly
    · exact .inl hzero
    · obtain hle | hpending | ⟨-, -, hzero⟩ := hknown
      · exact .inr hle
      · exact absurd hpending hnot
      · exact .inl hzero
  | loopCommit requested snapshotLsn commitLsn =>
    rw [hr] at hnext horderly hreader
    obtain ⟨hsnapshot, hreplicated⟩ := hreader
    have hle : commitLsn ≤ s.replication.watched := by
      obtain rfl | hle | hpending := hreplicated
      · exact Nat.zero_le _
      · exact hle
      · exact absurd hpending horderly
    simp only [sanityCheck_of_le hsnapshot hle, Bool.not_true, Bool.false_eq_true, if_false] at hnext
    cases hnext
    refine h.setReader ?_
    split <;> trivial
  | refreshing requested snapshotLsn replicationLsn commitLsn =>
    rw [hr] at hnext
    cases hnext
    exact h.setReader trivial
  | panicked =>
    rw [hr] at hreader
    exact hreader.elim
  | idle | loadedCache | sawSnapshot | useCache | returned | failed =>
    rw [hr] at hnext
    cases hnext

theorem MarkInv.next {a : MarkAction} (h : s.MarkInv) (horderly : s.Orderly a) (hnext : s.next a = some s') :
    s'.MarkInv := by
  cases a with
  | start i task =>
    simp only [MarkSystem.next] at hnext
    split at hnext
    · next hguard =>
        cases hnext
        exact start_markInv h hguard.1 hguard.2.1 horderly
    · cases hnext
  | writerStep i =>
    obtain ⟨wr, hget, hperform⟩ := Option.bind_eq_some_iff.mp hnext
    exact h.perform hget horderly hperform
  | processCommit =>
    simp only [MarkSystem.next] at hnext
    split at hnext
    · cases hnext
    · next lsn queue hqueue =>
        have hlsn := h.table.queue lsn (hqueue ▸ List.mem_cons_self)
        have hrest (l : Nat) (hl : l ∈ queue) : s.Known l := h.table.queue l (hqueue ▸ List.mem_cons_of_mem _ hl)
        split at hnext
        all_goals
          cases hnext
          refine h.of_eq (by rintro (_ | _) <;> rfl) rfl rfl rfl fun hadv => ?_
          refine ⟨fun l hl => (hrest l hl).advance hadv, ?_, h.table.version.advance hadv,
            h.table.snapshot.imp (·) (·.advance hadv), fun id => (h.table.readers id).advance hadv⟩
        · exact h.table.baseline.advance hadv
        · exact hlsn.advance hadv
  | createSnapshot =>
    simp only [MarkSystem.next] at hnext
    split at hnext
    · cases hnext
    · cases hnext
      have hversion : s.Known (if s.commitLsnBaseline != 0 then s.commitLsnBaseline else s.snapshotVersion) := by
        split
        · exact h.table.baseline
        · exact h.table.version
      refine h.of_eq (by rintro (_ | _) <;> rfl) rfl rfl rfl fun hadv => ?_
      exact ⟨fun l hl => (h.table.queue l hl).advance hadv, h.table.baseline.advance hadv,
        hversion.advance hadv, h.table.snapshot.imp (·) (·.advance hadv),
        fun id => (h.table.readers id).advance hadv⟩
  | notifySnapshotReader =>
    simp only [MarkSystem.next] at hnext
    split at hnext
    · cases hnext
      refine h.of_eq (by rintro (_ | _) <;> rfl) rfl rfl rfl fun hadv => ?_
      exact ⟨fun l hl => (h.table.queue l hl).advance hadv, h.table.baseline.advance hadv,
        h.table.version.advance hadv, .inr (h.table.version.advance hadv),
        fun id => (h.table.readers id).advance hadv⟩
    · cases hnext
  | tryRead id requested =>
    simp only [MarkSystem.next] at hnext
    split at hnext
    · cases hnext
      exact h.setReader trivial
    · cases hnext
  | readerStep id => exact h.readerNext horderly hnext

theorem init_markInv (persistLsn : Option Nat) (replicationLsn numWriters : Nat) :
    (init persistLsn replicationLsn numWriters).MarkInv := by
  have hpersisted : (init persistLsn replicationLsn numWriters).Known (persistLsn.getD 0) := by
    cases persistLsn with
    | none => exact .inl (Nat.zero_le _)
    | some lsn => exact .inr (.inr ⟨rfl, rfl, rfl⟩)
  have hwriters (w : Writer) (hw : w ∈ (init persistLsn replicationLsn numWriters).writers) : w = ⟨none, []⟩ :=
    List.eq_of_mem_replicate hw
  refine ⟨⟨?_, ?_, ?_⟩, .inl rfl, ⟨nofun, .inl (Nat.zero_le _), hpersisted, ?_, fun _ => trivial⟩⟩
  · intro w hw
    rw [hwriters w hw]
    exact ⟨trivial, nofun, nofun, nofun, by simp [Writer.Marks], nofun⟩
  · intro kind i j w w' hw _ hmarking
    rw [hwriters w (List.mem_of_getElem? hw)] at hmarking
    cases hmarking
  · rintro (_ | _) - <;> rfl
  · cases persistLsn with
    | none => exact .inl rfl
    | some lsn => exact .inr hpersisted

/-- The sanity check holds in every read of an orderly run. -/
theorem reader_not_panicked {persistLsn : Option Nat} {replicationLsn numWriters : Nat} {actions : List MarkAction}
    (hmeets : RunMeets MarkSystem.next Orderly (init persistLsn replicationLsn numWriters) actions)
    (hrun : (init persistLsn replicationLsn numWriters).run actions = some s) (id : Nat) :
    s.readers id ≠ .panicked := by
  have hinv : s.MarkInv := RunMeets.invariant (fun _ _ _ h horderly hnext => h.next horderly hnext) hmeets hrun
    (init_markInv persistLsn replicationLsn numWriters)
  intro hpanicked
  have hreader := hinv.table.readers id
  rw [hpanicked] at hreader
  exact hreader

/-- A table is added again, and a commit is delivered, marked and read. -/
def restRun : List MarkAction :=
  [.start 0 (.addTable false)] ++ List.replicate 7 (.writerStep 0) ++ [.start 0 (.restCommit 9)] ++
    List.replicate 7 (.writerStep 0) ++
    [.processCommit, .createSnapshot, .notifySnapshotReader, .tryRead 0 (some 9)] ++
    List.replicate 4 (.readerStep 0)

theorem reader_not_panicked_restRun :
    ∃ s, (init (some 5) 0 1).run restRun = some s ∧ s.snapshotLsn = 9 ∧ s.readers 0 ≠ .panicked := by
  obtain ⟨s, hs⟩ : ∃ s, (init (some 5) 0 1).run restRun = some s := Option.isSome_iff_exists.mp (by decide +kernel)
  have hsnapshot : ((init (some 5) 0 1).run restRun).map (·.snapshotLsn) = some 9 := by decide +kernel
  rw [hs] at hsnapshot
  exact ⟨s, hs, Option.some.inj hsnapshot, reader_not_panicked (by decide +kernel) hs 0⟩

/-- A reader comes between the delivery and the mark, or between the two marks. -/
theorem reader_panicked_before_marks :
    ((init (some 5) 0 1).run ([.start 0 (.addTable false)] ++ List.replicate 7 (.writerStep 0) ++
      [.start 0 (.restCommit 9), .writerStep 0, .processCommit, .createSnapshot, .notifySnapshotReader,
        .tryRead 0 none] ++ List.replicate 3 (.readerStep 0))).map (·.readers 0) = some .panicked ∧
    ((init none 0 1).run ([.start 0 (.addTable false), .writerStep 0, .start 0 (.initialCopy 9)] ++
      List.replicate 4 (.writerStep 0) ++ [.tryRead 0 none] ++ List.replicate 3 (.readerStep 0))).map (·.readers 0) =
      some .panicked ∧
    ((init (some 5) 0 1).run ([.start 0 (.addTable false)] ++ List.replicate 3 (.writerStep 0) ++
      [.tryRead 0 none] ++ List.replicate 3 (.readerStep 0))).map (·.readers 0) = some .panicked := by
  decide +kernel

end MarkSystem

end Moonlink.UnionRead
