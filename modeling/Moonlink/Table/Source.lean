-- SUMMARY: The change stream of one table as the sink emits it, and what a table should hold after it.
import Moonlink.Lib.TransitionSystem
import Moonlink.Table.Mooncake

/-!
# The change stream of a table

Main transactions are emitted as one block, at their commit. Their rows carry the
`final_lsn` of the transaction and their commit its `end_lsn`, which is larger; the
`final_lsn` is not below the `end_lsn` of the transaction before. Streaming
transactions are emitted in blocks between main transactions while they run; they
have an id of their own, and only their commit carries an LSN. A table sees the end
of a transaction only if it saw a row of it.
-/

namespace Moonlink

open Lib

namespace RowOp

variable {Row : Type}

/-- The event of a row change. -/
def event (x : Option XactId) (lsn : Nat) : RowOp Row → TableEvent Row
  | .append row => .append row x lsn false
  | .delete row d => .delete row lsn x d false

/-- A table without an identity is append only, so the source has no deletes for it. -/
def isEmitted (appendOnly : Bool) : RowOp Row → Bool
  | .append _ => true
  | .delete _ d => !appendOnly && !d

end RowOp

/-- The parts of which a change stream is made. -/
inductive SourceItem (Row : Type) where
  | main (finalLsn endLsn : Nat) (ops : List (RowOp Row))
  | streamRows (xactId : XactId) (ops : List (RowOp Row))
  | streamCommit (xactId : XactId) (endLsn : Nat)
  | streamAbort (xactId : XactId)

namespace SourceItem

variable {Row : Type}

/-- Rows of a streaming transaction are emitted before its LSN is known. -/
def events : SourceItem Row → List (TableEvent Row)
  | main finalLsn endLsn ops => ops.map (RowOp.event none finalLsn) ++ [.commit endLsn none false]
  | streamRows x ops => ops.map (RowOp.event (some x) 0)
  | streamCommit x endLsn => [.commit endLsn (some x) false]
  | streamAbort x => [.streamAbort x false false]

/-- The item is a main transaction whose rows are at or below the LSN `p` while its
commit is above. -/
def splitBy (p : Nat) : SourceItem Row → Bool
  | main finalLsn endLsn _ => finalLsn ≤ p && p < endLsn
  | _ => false

theorem commit_mem_events {i : SourceItem Row} {lsn : Nat} {x : XactId} {r : Bool} :
    .commit lsn (some x) r ∈ i.events ↔ r = false ∧ i = .streamCommit x lsn := by
  have hrow : ∀ (y : Option XactId) (n : Nat) (ops : List (RowOp Row)),
      .commit lsn (some x) r ∉ ops.map (RowOp.event y n) := by
    intro y n ops hmem
    obtain ⟨op, -, hop⟩ := List.mem_map.mp hmem
    cases op <;> cases hop
  cases i with
  | main f l ops => simp [events, hrow]
  | streamRows y ops => simp [events, hrow]
  | streamCommit y l =>
    simp only [events, List.mem_singleton, TableEvent.commit.injEq, Option.some.injEq,
      streamCommit.injEq]
    exact ⟨fun ⟨hl, hx, hr⟩ => ⟨hr, hx.symm, hl.symm⟩, fun ⟨hr, hx, hl⟩ => ⟨hl.symm, hx.symm, hr⟩⟩
  | streamAbort y => simp [events]

end SourceItem

/-! ## Well-formed streams -/

/-- How far a change stream has got. -/
structure Source where
  /-- The `end_lsn` of the last transaction. -/
  lastEnd : Nat
  /-- The `final_lsn` of the main transaction that is being emitted. -/
  openMain : Option Nat
  /-- The `end_lsn` of the last committed transaction, if it was a main transaction. -/
  lastMain : Option Nat
  openStreams : List XactId
  endedStreams : List XactId

namespace Source

variable {Row : Type} {appendOnly : Bool} {s s' : Source}

def init : Source := ⟨0, none, none, [], []⟩

/-- The streaming transaction `x` is over. -/
def endStream (s : Source) (x : XactId) : Source :=
  { s with openStreams := s.openStreams.filter (· != x), endedStreams := x :: s.endedStreams }

/-- The events that can come next. -/
inductive Step (appendOnly : Bool) (s : Source) : TableEvent Row → Source → Prop where
  | mainRow {op : RowOp Row} {finalLsn : Nat} (hop : op.isEmitted appendOnly = true)
      (hmain : s.openMain = some finalLsn ∨ s.openMain = none ∧ s.lastEnd ≤ finalLsn) :
      Step appendOnly s (op.event none finalLsn) { s with openMain := some finalLsn }
  | mainCommit {finalLsn endLsn : Nat} (hmain : s.openMain = some finalLsn)
      (hlt : finalLsn < endLsn) :
      Step appendOnly s (.commit endLsn none false)
        { s with lastEnd := endLsn, openMain := none, lastMain := some endLsn }
  | streamRow {op : RowOp Row} {x : XactId} (hop : op.isEmitted appendOnly = true)
      (hmain : s.openMain = none) (hnew : x ∉ s.endedStreams) :
      Step appendOnly s (op.event (some x) 0)
        { s with openStreams := x :: s.openStreams.filter (· != x) }
  | streamCommit {x : XactId} {endLsn : Nat} (hmain : s.openMain = none)
      (hopen : x ∈ s.openStreams) (hlt : s.lastEnd < endLsn) :
      Step appendOnly s (.commit endLsn (some x) false)
        { s.endStream x with lastEnd := endLsn, lastMain := none }
  | streamAbort {x : XactId} (hmain : s.openMain = none) (hopen : x ∈ s.openStreams) :
      Step appendOnly s (.streamAbort x false false) (s.endStream x)

theorem Step.streamCommit_inv {lsn : Nat} {x : XactId} {r : Bool}
    (h : Step appendOnly s (.commit lsn (some x) r : TableEvent Row) s') :
    r = false ∧ s.lastEnd < lsn := by
  generalize he : (.commit lsn (some x) r : TableEvent Row) = e at h
  cases h with
  | mainRow => rename_i op _ _ _; cases op <;> cases he
  | mainCommit => cases he
  | streamRow => rename_i op _ _ _ _; cases op <;> cases he
  | streamCommit hmain hopen hlt =>
    cases he
    exact ⟨rfl, hlt⟩
  | streamAbort => cases he

/-- A stream of events. -/
abbrev Steps (appendOnly : Bool) : Source → List (TableEvent Row) → Source → Prop :=
  Trace (Step appendOnly)

/-- An open main transaction does not begin before the end of the last one. -/
def MainAfterLast (s : Source) : Prop := ∀ finalLsn, s.openMain = some finalLsn → s.lastEnd ≤ finalLsn

/-- The items that can come next. A table is only told of transactions with rows for it. -/
inductive ItemStep (appendOnly : Bool) (s : Source) : SourceItem Row → Source → Prop where
  | main {finalLsn endLsn : Nat} {ops : List (RowOp Row)} (hops : ops ≠ [])
      (hemit : ∀ op ∈ ops, op.isEmitted appendOnly = true) (hmain : s.openMain = none)
      (hle : s.lastEnd ≤ finalLsn) (hlt : finalLsn < endLsn) :
      ItemStep appendOnly s (.main finalLsn endLsn ops)
        { s with lastEnd := endLsn, lastMain := some endLsn }
  | streamRows {x : XactId} {ops : List (RowOp Row)} (hops : ops ≠ [])
      (hemit : ∀ op ∈ ops, op.isEmitted appendOnly = true) (hmain : s.openMain = none)
      (hnew : x ∉ s.endedStreams) :
      ItemStep appendOnly s (.streamRows x ops)
        { s with openStreams := x :: s.openStreams.filter (· != x) }
  | streamCommit {x : XactId} {endLsn : Nat} (hmain : s.openMain = none)
      (hopen : x ∈ s.openStreams) (hlt : s.lastEnd < endLsn) :
      ItemStep appendOnly s (.streamCommit x endLsn)
        { s.endStream x with lastEnd := endLsn, lastMain := none }
  | streamAbort {x : XactId} (hmain : s.openMain = none) (hopen : x ∈ s.openStreams) :
      ItemStep appendOnly s (.streamAbort x) (s.endStream x)

/-- Rows of a main transaction that has begun. -/
theorem Steps_mainRows {finalLsn : Nat} {ops : List (RowOp Row)}
    (hemit : ∀ op ∈ ops, op.isEmitted appendOnly = true) (hmain : s.openMain = some finalLsn) :
    Steps appendOnly s (ops.map (RowOp.event none finalLsn)) s := by
  induction ops with
  | nil => exact .nil
  | cons op rest ih =>
    have hstep := Step.mainRow (s := s) (hemit op List.mem_cons_self) (.inl hmain)
    have hsame : { s with openMain := some finalLsn } = s := by rw [← hmain]
    rw [hsame] at hstep
    exact .cons hstep (ih fun op' hop' => hemit op' (List.mem_cons_of_mem _ hop'))

/-- Rows of a streaming transaction that has begun. -/
theorem Steps_streamRows {x : XactId} {ops : List (RowOp Row)} {streams : List XactId}
    (hemit : ∀ op ∈ ops, op.isEmitted appendOnly = true) (hmain : s.openMain = none)
    (hnew : x ∉ s.endedStreams) (hstreams : s.openStreams = x :: streams.filter (· != x)) :
    Steps appendOnly s (ops.map (RowOp.event (some x) 0)) s := by
  induction ops with
  | nil => exact .nil
  | cons op rest ih =>
    have hstep := Step.streamRow (s := s) (hemit op List.mem_cons_self) hmain hnew
    have hsame : { s with openStreams := x :: s.openStreams.filter (· != x) } = s := by
      have : x :: s.openStreams.filter (· != x) = s.openStreams := by
        rw [hstreams]
        simp [List.filter_filter]
      rw [this]
    rw [hsame] at hstep
    exact .cons hstep (ih fun op' hop' => hemit op' (List.mem_cons_of_mem _ hop'))

/-- The events of an item are a part of the stream. -/
theorem ItemStep.events {i : SourceItem Row} (h : ItemStep appendOnly s i s') :
    Steps appendOnly s i.events s' := by
  cases h with
  | main hops hemit hmain hle hlt =>
    rename_i finalLsn endLsn ops
    obtain ⟨op, rest, rfl⟩ := List.exists_cons_of_ne_nil hops
    have hcommit : Step appendOnly { s with openMain := some finalLsn }
        (.commit endLsn none false : TableEvent Row)
        { s with lastEnd := endLsn, openMain := none, lastMain := some endLsn } :=
      .mainCommit rfl hlt
    have hclosed : { s with lastEnd := endLsn, openMain := none, lastMain := some endLsn } =
        { s with lastEnd := endLsn, lastMain := some endLsn } := by rw [hmain]
    rw [hclosed] at hcommit
    refine .cons (.mainRow (hemit op List.mem_cons_self) (.inr ⟨hmain, hle⟩)) ?_
    exact (Steps_mainRows (fun op' hop' => hemit op' (List.mem_cons_of_mem _ hop')) rfl).append
      (.cons hcommit .nil)
  | streamRows hops hemit hmain hnew =>
    obtain ⟨op, rest, rfl⟩ := List.exists_cons_of_ne_nil hops
    exact .cons (.streamRow (hemit op List.mem_cons_self) hmain hnew)
      (Steps_streamRows (fun op' hop' => hemit op' (List.mem_cons_of_mem _ hop')) hmain hnew rfl)
  | streamCommit hmain hopen hlt => exact .cons (.streamCommit hmain hopen hlt) .nil
  | streamAbort hmain hopen => exact .cons (.streamAbort hmain hopen) .nil

theorem Steps_of_items {items : List (SourceItem Row)} (h : Trace (ItemStep appendOnly) s items s') :
    Steps appendOnly s (items.flatMap (·.events)) s' := by
  induction h with
  | nil => exact .nil
  | cons hstep _ ih => exact hstep.events.append ih

end Source

/-! ## What a table should hold -/

/-- The contents of a table: applied transactions and changes of open ones. -/
structure TableView (Row : Type) where
  applied : List (AppliedXact Row)
  openMain : List (RowOp Row)
  openStreams : XactId → Option (List (RowOp Row))

namespace TableView

variable {Row : Type}

def empty : TableView Row := ⟨[], [], fun _ => none⟩

def streamRows (v : TableView Row) (x : XactId) (ops : List (RowOp Row)) : TableView Row :=
  { v with openStreams := Function.update v.openStreams x (some ((v.openStreams x).getD [] ++ ops)) }

def endStream (v : TableView Row) (x : XactId) : TableView Row :=
  { v with openStreams := Function.update v.openStreams x none }

def applyXact (v : TableView Row) (origin : XactOrigin) (lsn : Nat) (ops : List (RowOp Row)) :
    TableView Row :=
  { v with applied := v.applied ++ [⟨origin, lsn, ops⟩] }

/-- Apply each transaction whose commit is above `p`, as a whole and at its commit. -/
def receive (p : Option Nat) (v : TableView Row) : SourceItem Row → TableView Row
  | .main _ endLsn ops => if p.any (endLsn ≤ ·) then v else v.applyXact .main endLsn ops
  | .streamRows x ops => v.streamRows x ops
  | .streamCommit x endLsn =>
    if p.any (endLsn ≤ ·) then v.endStream x
    else (v.endStream x).applyXact (.stream x) endLsn ((v.openStreams x).getD [])
  | .streamAbort x => v.endStream x

/-- What a table should hold after the change stream, given what it held before. -/
def receiveAll (p : Option Nat) (v : TableView Row) (items : List (SourceItem Row)) :
    TableView Row :=
  items.foldl (receive p) v

/-- What the handler makes of an event. It decides on the rows and the commit of a main
transaction separately, each by its own LSN. -/
def keep (p : Option Nat) (v : TableView Row) : TableEvent Row → TableView Row
  | .append row none lsn _ =>
    if p.any (lsn ≤ ·) then v else { v with openMain := v.openMain ++ [.append row] }
  | .delete row lsn none d _ =>
    if p.any (lsn ≤ ·) then v else { v with openMain := v.openMain ++ [.delete row d] }
  | .commit lsn none _ =>
    if p.any (lsn ≤ ·) then v else { v with openMain := [] }.applyXact .main lsn v.openMain
  | .append row (some x) _ _ => v.streamRows x [.append row]
  | .delete row _ (some x) d _ => v.streamRows x [.delete row d]
  | .commit lsn (some x) _ =>
    if p.any (lsn ≤ ·) then v.endStream x
    else (v.endStream x).applyXact (.stream x) lsn ((v.openStreams x).getD [])
  | .streamAbort x _ _ => v.endStream x
  | _ => v

def keepAll (p : Option Nat) (v : TableView Row) (events : List (TableEvent Row)) : TableView Row :=
  events.foldl (keep p) v

/-! ### Kept and received -/

section

variable {q : Nat} {v : TableView Row}

theorem keepAll_append (p : Option Nat) (v : TableView Row) (events events' : List (TableEvent Row)) :
    v.keepAll p (events ++ events') = (v.keepAll p events).keepAll p events' :=
  List.foldl_append

theorem keepAll_mainRows (p : Option Nat) (v : TableView Row) (finalLsn : Nat)
    (ops : List (RowOp Row)) :
    v.keepAll p (ops.map (RowOp.event none finalLsn)) =
      if p.any (finalLsn ≤ ·) then v else { v with openMain := v.openMain ++ ops } := by
  induction ops generalizing v with
  | nil => simp [keepAll]
  | cons op rest ih =>
    have hrow : v.keep p (op.event none finalLsn) =
        if p.any (finalLsn ≤ ·) then v else { v with openMain := v.openMain ++ [op] } := by
      cases op <;> rfl
    change (v.keep p (op.event none finalLsn)).keepAll p _ = _
    rw [ih, hrow]
    split
    · rfl
    · simp

theorem keepAll_streamRows (p : Option Nat) (v : TableView Row) (x : XactId)
    {ops : List (RowOp Row)} (hops : ops ≠ []) :
    v.keepAll p (ops.map (RowOp.event (some x) 0)) = v.streamRows x ops := by
  induction ops generalizing v with
  | nil => exact absurd rfl hops
  | cons op rest ih =>
    have hrow : v.keep p (op.event (some x) 0) = v.streamRows x [op] := by cases op <;> rfl
    change (v.keep p (op.event (some x) 0)).keepAll p _ = _
    rw [hrow]
    cases rest with
    | nil => rfl
    | cons op' rest' =>
      rw [ih _ (List.cons_ne_nil _ _)]
      simp [streamRows]

/-- What the handler makes of an item: the rows of a split main transaction are lost, and
its commit is applied without them. -/
theorem keepAll_item {appendOnly : Bool} {s s' : Source} {i : SourceItem Row}
    (hstep : Source.ItemStep appendOnly s i s') (hv : v.openMain = []) :
    v.keepAll (some q) i.events =
      match i with
      | .main _ endLsn _ =>
        if i.splitBy q then v.applyXact .main endLsn [] else v.receive (some q) i
      | _ => v.receive (some q) i := by
  cases hstep with
  | main hops hemit hmain hle hlt =>
    rename_i finalLsn endLsn ops
    have hempty : { v with openMain := [] } = v := by rw [← hv]
    rw [SourceItem.events, keepAll_append, keepAll_mainRows]
    simp only [Option.any_some, SourceItem.splitBy, receive]
    by_cases hend : endLsn ≤ q
    · have hfinal : finalLsn ≤ q := by omega
      have hsplit : ¬ q < endLsn := by omega
      simp [hend, hfinal, hsplit, keepAll, keep]
    · have hsplit : q < endLsn := by omega
      by_cases hfinal : finalLsn ≤ q
      · simp [hend, hfinal, hsplit, keepAll, keep, hv, hempty]
      · simp [hend, hfinal, hsplit, keepAll, keep, hv, hempty]
  | streamRows hops hemit hmain hnew => exact keepAll_streamRows _ v _ hops
  | streamCommit hmain hopen hlt => rfl
  | streamAbort hmain hopen => rfl

end

end TableView
end Moonlink
