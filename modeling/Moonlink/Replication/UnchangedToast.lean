-- SUMMARY: Updates that leave out unchanged TOAST columns, and when the row that is appended is the new row.
import Moonlink.Lib.TransitionSystem
import Moonlink.Replication.Cells

/-!
# Unchanged TOAST columns

An update is a delete of the old row and an append of the new one. Each column of the new tuple
is null, a text, or reported as unchanged; an unchanged column becomes the default of its type
and not the value of the old tuple.

How a text is parsed is a parameter. Rows of the source have an identifier by which the row that
was appended for one and those that are deleted later are related.
-/

namespace Moonlink.Replication

open Lib Row Schema

inductive TupleData where
  | null
  | unchangedToast
  | text (bytes : ByteArray)

/-- Why a message is not converted. -/
inductive CdcFailure (E : Type) where
  | fromBytes (e : E)
  | invalidStr
  /-- `tuple_data[i]`. -/
  | indexOutOfBounds
  /-- `old_table_row.unwrap()`. -/
  | missingOldTuple
  | cell (p : CellPanic)

/-- A row of the source: the texts of its values. -/
abbrev SourceRow : Type := List (Option ByteArray)

/-- A value of the source as it stands in a tuple. -/
def dataOf : Option ByteArray → TupleData
  | none => .null
  | some bytes => .text bytes

/-- A tuple that carries all values. -/
def fullTuple (row : SourceRow) : List TupleData := row.map dataOf

section
variable {E : Type} (tryFromStr : PgType → String → Except E Cell)

def cellOfData (typ : PgType) : TupleData → Except (CdcFailure E) Cell
  | .null => .ok .null
  | .unchangedToast => .ok (defaultValue typ)
  | .text bytes =>
    match String.fromUTF8? bytes with
    | none => .error .invalidStr
    | some str => (tryFromStr typ str).mapError .fromBytes

def tryFromTupleDataSlice : List PgType → List TupleData → Except (CdcFailure E) (List Cell)
  | [], _ => .ok []
  | _ :: _, [] => .error .indexOutOfBounds
  | typ :: types, data :: tuple => do
    let cell ← cellOfData tryFromStr typ data
    let values ← tryFromTupleDataSlice types tuple
    return cell :: values

/-- The messages for the rows of a table. -/
inductive RowMessage where
  | insert (tuple : List TupleData)
  | update (oldTuple : Option (List TupleData)) (newTuple : List TupleData)
  | delete (oldTuple : List TupleData)

inductive CdcEvent where
  | insert (row : List Cell)
  | update (oldRow : Option (List Cell)) (newRow : List Cell)
  | delete (row : List Cell)

/-- `try_from_insert_body`, `try_from_update_body` and `try_from_delete_body`. -/
def tryFromMessage (types : List PgType) : RowMessage → Except (CdcFailure E) CdcEvent
  | .insert tuple => do
    let row ← tryFromTupleDataSlice tryFromStr types tuple
    return .insert row
  | .update none newTuple => do
    let newRow ← tryFromTupleDataSlice tryFromStr types newTuple
    return .update none newRow
  | .update (some oldTuple) newTuple => do
    let oldRow ← tryFromTupleDataSlice tryFromStr types oldTuple
    let newRow ← tryFromTupleDataSlice tryFromStr types newTuple
    return .update (some oldRow) newRow
  | .delete oldTuple => do
    let row ← tryFromTupleDataSlice tryFromStr types oldTuple
    return .delete row

inductive RowEvent where
  | append (row : List RowValue)
  | delete (row : List RowValue)

/-- `From<PostgresTableRow>`. -/
def moonlinkRow (row : List Cell) : Except (CdcFailure E) (List RowValue) :=
  (cellsToRowValues row).mapError .cell

/-- `process_cdc_event`, the events that are sent to the table. -/
def processCdcEvent : CdcEvent → Except (CdcFailure E) (List RowEvent)
  | .insert row => do
    let row ← moonlinkRow row
    return [.append row]
  | .update none _ => .error .missingOldTuple
  | .update (some oldRow) newRow => do
    let oldRow ← moonlinkRow oldRow
    let newRow ← moonlinkRow newRow
    return [.delete oldRow, .append newRow]
  | .delete row => do
    let row ← moonlinkRow row
    return [.delete row]

def sentEvents (types : List PgType) (message : RowMessage) : Except (CdcFailure E) (List RowEvent) := do
  let event ← tryFromMessage tryFromStr types message
  processCdcEvent event

/-- The row that a tuple becomes. -/
def rowOfTuple (types : List PgType) (tuple : List TupleData) : Except (CdcFailure E) (List RowValue) := do
  let row ← tryFromTupleDataSlice tryFromStr types tuple
  moonlinkRow row

/-! ## Runs -/

/-- What happens in the source. The new tuple of an update says which columns are unchanged. -/
inductive SourceOp (Id : Type) where
  | insert (id : Id) (row : SourceRow)
  | update (id : Id) (newTuple : List TupleData)
  | delete (id : Id)

/-- The new row of an update: the columns that are unchanged have the values of the old row. -/
def newRow : SourceRow → List TupleData → SourceRow
  | old :: row, data :: tuple =>
    (match data with
      | .null => none
      | .unchangedToast => old
      | .text bytes => some bytes) :: newRow row tuple
  | _, _ => []

/-- The rows of the source, and the row that is there for each of them. -/
structure Mirrored (Id : Type) where
  source : Id → Option SourceRow
  mirror : Id → Option (List RowValue)

def Mirrored.start {Id : Type} : Mirrored Id := ⟨fun _ => none, fun _ => none⟩

/-- The row for an identifier after the events that are sent for it. -/
def applyEvents (row? : Option (List RowValue)) (events : List RowEvent) : Option (List RowValue) :=
  events.foldl (fun _ event =>
    match event with
    | .append row => some row
    | .delete _ => none) row?

variable {Id : Type} (types : List PgType)

/-- The message for an operation, and the row of the source afterwards. With full replica identity the old
tuple carries all values. -/
def SourceOp.message (s : Mirrored Id) : SourceOp Id → Option (Id × RowMessage × Option SourceRow)
  | .insert id row =>
    match s.source id with
    | none => if row.length = types.length then some (id, .insert (fullTuple row), some row) else none
    | some _ => none
  | .update id newTuple =>
    match s.source id with
    | none => none
    | some old =>
      if newTuple.length = types.length then
        some (id, .update (some (fullTuple old)) newTuple, some (newRow old newTuple))
      else none
  | .delete id =>
    match s.source id with
    | none => none
    | some old => some (id, .delete (fullTuple old), none)

/-- A step of the source and of the replication. A message that is not converted ends the replication. -/
def Mirrored.next [DecidableEq Id] (s : Mirrored Id) (op : SourceOp Id) : Option (Mirrored Id) :=
  match op.message types s with
  | none => none
  | some (id, message, row?) =>
    match sentEvents tryFromStr types message with
    | .error _ => none
    | .ok events =>
      some ⟨Function.update s.source id row?, Function.update s.mirror id (applyEvents (s.mirror id) events)⟩

/-- The row that is appended for an update is the new row of the source, and the row that is deleted for an
update or a delete is the one that is there. -/
def Mirrored.Faithful (s : Mirrored Id) (op : SourceOp Id) : Prop :=
  ∀ id message row? events, op.message types s = some (id, message, row?) →
    sentEvents tryFromStr types message = .ok events →
    (∀ row, .append row ∈ events → ∃ new, row? = some new ∧ rowOfTuple tryFromStr types (fullTuple new) = .ok row) ∧
    ∀ row, .delete row ∈ events → s.mirror id = some row

/-! ## Rows column by column -/

/-- The value of one column. -/
def valueOfData (typ : PgType) (data : TupleData) : Except (CdcFailure E) RowValue := do
  let cell ← cellOfData tryFromStr typ data
  cell.toRowValue.mapError .cell

/-- The columns that are unchanged have the default of their type as their value in the old row. -/
def UnchangedDefaults : List PgType → SourceRow → List TupleData → Prop
  | typ :: types, old :: row, .unchangedToast :: tuple =>
    valueOfData tryFromStr typ (dataOf old) = valueOfData tryFromStr typ .unchangedToast ∧
      UnchangedDefaults types row tuple
  | _ :: types, _ :: row, _ :: tuple => UnchangedDefaults types row tuple
  | _, _, _ => True

variable {tryFromStr} {types} {typ : PgType} {data : TupleData} {tuple : List TupleData} {row : List RowValue}

theorem mapError_eq_ok_iff {ε ε' α : Type} {f : ε → ε'} {x : Except ε α} {a : α} :
    x.mapError f = .ok a ↔ x = .ok a := by
  cases x with
  | error e => simp [Except.mapError]
  | ok b => simp [Except.mapError]

theorem rowOfTuple_cons : rowOfTuple tryFromStr (typ :: types) (data :: tuple) = .ok row ↔
    ∃ value rest, valueOfData tryFromStr typ data = .ok value ∧ rowOfTuple tryFromStr types tuple = .ok rest ∧
      row = value :: rest := by
  unfold rowOfTuple valueOfData moonlinkRow
  rw [tryFromTupleDataSlice]
  constructor
  · intro h
    obtain ⟨cells, hcells, hrow⟩ := bind_eq_ok.mp h
    obtain ⟨cell, hcell, hcells⟩ := bind_eq_ok.mp hcells
    obtain ⟨rest, hrest, heq⟩ := bind_eq_ok.mp hcells
    cases heq
    rw [mapError_eq_ok_iff, cellsToRowValues] at hrow
    obtain ⟨value, hvalue, hrow⟩ := bind_eq_ok.mp hrow
    obtain ⟨values, hvalues, heq⟩ := bind_eq_ok.mp hrow
    cases heq
    refine ⟨value, values, bind_eq_ok.mpr ⟨cell, hcell, mapError_eq_ok_iff.mpr hvalue⟩, ?_, rfl⟩
    exact bind_eq_ok.mpr ⟨rest, hrest, mapError_eq_ok_iff.mpr hvalues⟩
  · rintro ⟨value, values, hvalue, hvalues, rfl⟩
    obtain ⟨cell, hcell, hvalue⟩ := bind_eq_ok.mp hvalue
    obtain ⟨rest, hrest, hvalues⟩ := bind_eq_ok.mp hvalues
    refine bind_eq_ok.mpr ⟨cell :: rest, bind_eq_ok.mpr ⟨cell, hcell, bind_eq_ok.mpr ⟨rest, hrest, rfl⟩⟩, ?_⟩
    rw [mapError_eq_ok_iff, cellsToRowValues, mapError_eq_ok_iff.mp hvalue, ok_bind, mapError_eq_ok_iff.mp hvalues]
    rfl

/-- A tuple becomes the new row exactly if the columns that it leaves out have the default of their type. -/
theorem rowOfTuple_newRow_iff {old : SourceRow} {oldRow : List RowValue} (htuple : tuple.length = types.length)
    (hlength : old.length = types.length) (hold : rowOfTuple tryFromStr types (fullTuple old) = .ok oldRow)
    (hrow : rowOfTuple tryFromStr types tuple = .ok row) :
    rowOfTuple tryFromStr types (fullTuple (newRow old tuple)) = .ok row ↔
      UnchangedDefaults tryFromStr types old tuple := by
  induction types generalizing tuple old oldRow row with
  | nil =>
    obtain rfl := List.eq_nil_of_length_eq_zero htuple
    cases hrow
    exact iff_of_true rfl (by cases old <;> trivial)
  | cons typ types ih =>
    obtain ⟨data, tuple, rfl⟩ := List.exists_cons_of_length_eq_add_one htuple
    obtain ⟨value?, old, rfl⟩ := List.exists_cons_of_length_eq_add_one hlength
    obtain ⟨oldValue, oldRest, hvalue?, holdRest, rfl⟩ := rowOfTuple_cons.mp hold
    obtain ⟨value, rest, hvalue, hrest, rfl⟩ := rowOfTuple_cons.mp hrow
    have hrec := ih (Nat.succ.inj htuple) (Nat.succ.inj hlength) holdRest hrest
    -- The rest of the row is that of the rest of the tuple, whatever its first value is.
    have hcons : ∀ first, rowOfTuple tryFromStr (typ :: types) (first :: fullTuple (newRow old tuple)) =
        .ok (value :: rest) ↔ valueOfData tryFromStr typ first = .ok value ∧
          UnchangedDefaults tryFromStr types old tuple := by
      intro first
      rw [rowOfTuple_cons, ← hrec]
      constructor
      · rintro ⟨_, _, hfirst, hothers, heq⟩
        cases heq
        exact ⟨hfirst, hothers⟩
      · exact fun h => ⟨value, rest, h.1, h.2, rfl⟩
    cases data with
    | null => exact (hcons .null).trans (and_iff_right hvalue)
    | text bytes => exact (hcons (.text bytes)).trans (and_iff_right hvalue)
    | unchangedToast =>
      refine (hcons (dataOf value?)).trans ?_
      rw [UnchangedDefaults, hvalue]

/-! ## Events -/

variable {events : List RowEvent}

theorem sentEvents_insert : sentEvents tryFromStr types (.insert tuple) = .ok events ↔
    ∃ row, rowOfTuple tryFromStr types tuple = .ok row ∧ events = [.append row] := by
  have hsent : sentEvents tryFromStr types (.insert tuple) =
      (rowOfTuple tryFromStr types tuple >>= fun row => .ok [.append row]) := by
    simp only [sentEvents, rowOfTuple, tryFromMessage, bind_assoc]
    rfl
  simp only [hsent, bind_eq_ok, Except.ok.injEq, eq_comm (a := events)]

theorem sentEvents_delete : sentEvents tryFromStr types (.delete tuple) = .ok events ↔
    ∃ row, rowOfTuple tryFromStr types tuple = .ok row ∧ events = [.delete row] := by
  have hsent : sentEvents tryFromStr types (.delete tuple) =
      (rowOfTuple tryFromStr types tuple >>= fun row => .ok [.delete row]) := by
    simp only [sentEvents, rowOfTuple, tryFromMessage, bind_assoc]
    rfl
  simp only [hsent, bind_eq_ok, Except.ok.injEq, eq_comm (a := events)]

theorem sentEvents_update {oldTuple newTuple : List TupleData} :
    sentEvents tryFromStr types (.update (some oldTuple) newTuple) = .ok events ↔
      ∃ oldRow row, rowOfTuple tryFromStr types oldTuple = .ok oldRow ∧
        rowOfTuple tryFromStr types newTuple = .ok row ∧ events = [.delete oldRow, .append row] := by
  unfold sentEvents rowOfTuple
  simp only [tryFromMessage, bind_eq_ok, pure_eq_ok_iff]
  constructor
  · rintro ⟨_, ⟨oldCells, holdCells, cells, hcells, rfl⟩, hevents⟩
    obtain ⟨oldRow, holdRow, hevents⟩ := bind_eq_ok.mp hevents
    obtain ⟨row, hrow, heq⟩ := bind_eq_ok.mp hevents
    cases heq
    exact ⟨oldRow, row, ⟨oldCells, holdCells, holdRow⟩, ⟨cells, hcells, hrow⟩, rfl⟩
  · rintro ⟨oldRow, row, ⟨oldCells, holdCells, holdRow⟩, ⟨cells, hcells, hrow⟩, rfl⟩
    exact ⟨_, ⟨oldCells, holdCells, cells, hcells, rfl⟩, bind_eq_ok.mpr ⟨oldRow, holdRow, bind_eq_ok.mpr ⟨row, hrow, rfl⟩⟩⟩

/-! ## Runs -/

namespace Mirrored

variable {s s' : Mirrored Id} {op : SourceOp Id}

/-- The three operations that are possible, with their messages. -/
theorem message_cases {id : Id} {message : RowMessage} {row? : Option SourceRow}
    (h : op.message types s = some (id, message, row?)) :
    (∃ row, op = .insert id row ∧ row.length = types.length ∧ message = .insert (fullTuple row) ∧ row? = some row) ∨
    (∃ tuple old, op = .update id tuple ∧ s.source id = some old ∧ tuple.length = types.length ∧
      message = .update (some (fullTuple old)) tuple ∧ row? = some (newRow old tuple)) ∨
    ∃ old, op = .delete id ∧ s.source id = some old ∧ message = .delete (fullTuple old) ∧ row? = none := by
  cases op with
  | insert id' row =>
    simp only [SourceOp.message] at h
    split at h
    · split at h
      · next hlength =>
          cases h
          exact .inl ⟨row, rfl, hlength, rfl, rfl⟩
      · cases h
    · cases h
  | update id' tuple =>
    simp only [SourceOp.message] at h
    split at h
    · cases h
    · next old hsource =>
        split at h
        · next hlength =>
            cases h
            exact .inr (.inl ⟨tuple, old, rfl, hsource, hlength, rfl, rfl⟩)
        · cases h
  | delete id' =>
    simp only [SourceOp.message] at h
    split at h
    · cases h
    · next old hsource =>
        cases h
        exact .inr (.inr ⟨old, rfl, hsource, rfl, rfl⟩)

variable [DecidableEq Id]

/-- An update that is converted only leaves out columns that have the default of their type. -/
def LeavesOutDefaults (tryFromStr : PgType → String → Except E Cell) (types : List PgType) (s : Mirrored Id)
    (op : SourceOp Id) : Prop :=
  ∀ id newTuple old, op = .update id newTuple → s.source id = some old → (s.next tryFromStr types op).isSome = true →
    UnchangedDefaults tryFromStr types old newTuple

/-- The mirror has the rows of the source. -/
def Agrees (tryFromStr : PgType → String → Except E Cell) (types : List PgType) (s : Mirrored Id) : Prop :=
  ∀ id old, s.source id = some old → old.length = types.length ∧
    ∃ row, s.mirror id = some row ∧ rowOfTuple tryFromStr types (fullTuple old) = .ok row

theorem next_eq_some_iff : s.next tryFromStr types op = some s' ↔ ∃ id message row? events,
    op.message types s = some (id, message, row?) ∧ sentEvents tryFromStr types message = .ok events ∧
    s' = ⟨Function.update s.source id row?, Function.update s.mirror id (applyEvents (s.mirror id) events)⟩ := by
  unfold next
  cases op.message types s with
  | none => simp
  | some sent =>
    obtain ⟨id, message, row?⟩ := sent
    cases hevents : sentEvents tryFromStr types message with
    | error e => simp [hevents]
    | ok events => simp [hevents, eq_comm]

theorem length_newRow {old : SourceRow} (hlength : old.length = tuple.length) :
    (newRow old tuple).length = tuple.length := by
  induction old generalizing tuple with
  | nil => cases tuple <;> simp_all [newRow]
  | cons value? old ih =>
    obtain ⟨data, tuple, rfl⟩ := List.exists_cons_of_length_eq_add_one hlength.symm
    simpa [newRow] using ih (Nat.succ.inj hlength)

/-- Where the mirror agrees, a step is faithful exactly if it leaves out defaults only. -/
theorem faithful_iff (hagrees : s.Agrees tryFromStr types) :
    s.Faithful tryFromStr types op ↔ s.LeavesOutDefaults tryFromStr types op := by
  constructor
  · rintro h id tuple old rfl hsource hnext
    obtain ⟨s', hs'⟩ := Option.isSome_iff_exists.mp hnext
    obtain ⟨id', message, row?, events, hmessage, hevents, -⟩ := next_eq_some_iff.mp hs'
    have happended := (h id' message row? events hmessage hevents).1
    obtain ⟨row, hop, -, -, -⟩ | ⟨tuple', old', hop, hsource', hlength, rfl, rfl⟩ | ⟨old', hop, -, -, -⟩ :=
      message_cases hmessage <;> cases hop
    rw [hsource] at hsource'
    cases hsource'
    obtain ⟨oldRow, row, hold, hrow, rfl⟩ := sentEvents_update.mp hevents
    obtain ⟨new, hnew, hfull⟩ := happended row (by simp)
    cases hnew
    exact (rowOfTuple_newRow_iff hlength (hagrees id old hsource).1 hold hrow).mp hfull
  · intro h id message row? events hmessage hevents
    obtain ⟨row, rfl, hlength, rfl, rfl⟩ | ⟨tuple, old, rfl, hsource, hlength, rfl, rfl⟩ | ⟨old, rfl, hsource, rfl, rfl⟩ :=
      message_cases hmessage
    · obtain ⟨inserted, hinserted, rfl⟩ := sentEvents_insert.mp hevents
      refine ⟨fun appended happended => ⟨row, rfl, ?_⟩, fun deleted hdeleted => by simp at hdeleted⟩
      obtain rfl : appended = inserted := by simpa using happended
      exact hinserted
    · obtain ⟨oldRow, row, hold, hrow, rfl⟩ := sentEvents_update.mp hevents
      have hdefaults := h id tuple old rfl hsource
        (Option.isSome_iff_exists.mpr ⟨_, next_eq_some_iff.mpr ⟨id, _, _, _, hmessage, hevents, rfl⟩⟩)
      obtain ⟨holdLength, there, hthere, hfull⟩ := hagrees id old hsource
      refine ⟨fun appended happended => ⟨_, rfl, ?_⟩, fun deleted hdeleted => ?_⟩
      · obtain rfl : appended = row := by simpa using happended
        exact (rowOfTuple_newRow_iff hlength holdLength hold hrow).mpr hdefaults
      · obtain rfl : deleted = oldRow := by simpa using hdeleted
        rw [hfull] at hold
        cases hold
        exact hthere
    · obtain ⟨oldRow, hold, rfl⟩ := sentEvents_delete.mp hevents
      obtain ⟨-, there, hthere, hfull⟩ := hagrees id old hsource
      refine ⟨fun appended happended => by simp at happended, fun deleted hdeleted => ?_⟩
      obtain rfl : deleted = oldRow := by simpa using hdeleted
      rw [hfull] at hold
      cases hold
      exact hthere

theorem Agrees.next (hagrees : s.Agrees tryFromStr types) (hdefaults : s.LeavesOutDefaults tryFromStr types op)
    (hnext : s.next tryFromStr types op = some s') : s'.Agrees tryFromStr types := by
  obtain ⟨id, message, row?, events, hmessage, hevents, rfl⟩ := next_eq_some_iff.mp hnext
  have hfaithful := (faithful_iff hagrees).mpr hdefaults id message row? events hmessage hevents
  intro id' old' hsource'
  dsimp only at hsource' ⊢
  by_cases heq : id' = id
  · subst heq
    rw [Function.update_self] at hsource' ⊢
    obtain ⟨row, rfl, hlength, rfl, rfl⟩ | ⟨tuple, old, rfl, hsource, hlength, rfl, rfl⟩ | ⟨old, rfl, hsource, rfl, rfl⟩ :=
      message_cases hmessage
    · cases hsource'
      obtain ⟨inserted, hinserted, rfl⟩ := sentEvents_insert.mp hevents
      exact ⟨hlength, inserted, rfl, hinserted⟩
    · cases hsource'
      obtain ⟨oldRow, row, hold, hrow, rfl⟩ := sentEvents_update.mp hevents
      obtain ⟨new, hnew, hfull⟩ := hfaithful.1 row (by simp)
      cases hnew
      have holdLength := (hagrees id' old hsource).1
      exact ⟨(length_newRow (holdLength.trans hlength.symm)).trans hlength, row, rfl, hfull⟩
    · cases hsource'
  · rw [Function.update_of_ne heq] at hsource' ⊢
    exact hagrees id' old' hsource'

/-- In a run of inserts, updates and deletes, every row that is appended is the row of the source, and every
delete finds it, exactly if no update leaves out a column whose value is not the default of its type. -/
theorem run_faithful_iff (tryFromStr : PgType → String → Except E Cell) (types : List PgType)
    (ops : List (SourceOp Id)) :
    RunMeets (Mirrored.next tryFromStr types) (Mirrored.Faithful tryFromStr types) Mirrored.start ops ↔
      RunMeets (Mirrored.next tryFromStr types) (Mirrored.LeavesOutDefaults tryFromStr types) Mirrored.start ops := by
  have hstart : (Mirrored.start : Mirrored Id).Agrees tryFromStr types := by
    intro id old hsource
    simp [Mirrored.start] at hsource
  apply RunMeets.iff_of_invariant ?_ ?_ hstart
  · exact fun _ _ hagrees => faithful_iff hagrees
  · exact fun _ _ _ hagrees hdefaults hnext => hagrees.next hdefaults hnext

/-- What a value of a text type is parsed into. -/
def textCell (_ : PgType) (text : String) : Except Empty Cell := .ok (.scalar (.string text))

/-- A text that is inserted and then reported as unchanged: the row that is appended for the update has the
empty text. -/
theorem unchanged_text_lost :
    ¬ RunMeets (Mirrored.next textCell [.simple .text]) (Mirrored.Faithful textCell [.simple .text])
      (Mirrored.start : Mirrored Nat) [.insert 0 [some "a".toByteArray], .update 0 [.unchangedToast]] := by
  have hold : rowOfTuple textCell [.simple .text] [.text "a".toByteArray] = .ok [.byteArray "a".toByteArray] :=
    rowOfTuple_cons.mpr ⟨_, _, rfl, rfl, rfl⟩
  have hnew : rowOfTuple textCell [.simple .text] [.unchangedToast] = .ok [.byteArray "".toByteArray] :=
    rowOfTuple_cons.mpr ⟨_, _, rfl, rfl, rfl⟩
  rintro ⟨-, h⟩
  obtain ⟨hfaithful, -⟩ := h _ (next_eq_some_iff.mpr ⟨_, _, _, _, rfl, sentEvents_insert.mpr ⟨_, hold, rfl⟩, rfl⟩)
  obtain ⟨happended, -⟩ := hfaithful 0 _ _ _ rfl (sentEvents_update.mpr ⟨_, _, hold, hnew, rfl⟩)
  obtain ⟨new, heq, hrow⟩ := happended _ (.tail _ (.head _))
  cases heq
  have hbytes : "a".toByteArray = "".toByteArray := by simpa using hold.symm.trans hrow
  exact absurd hbytes (by decide +kernel)

end Mirrored

end

end Moonlink.Replication
