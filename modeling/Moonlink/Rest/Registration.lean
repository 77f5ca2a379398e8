-- SUMMARY: Commands on the tables of the REST sink and source, which both keep, and when both stay the same set of tables.
import Moonlink.Rest.Acknowledge

/-!
# REST tables

A command changes the sink first and the source after it. Each of them inserts before it
looks whether there was an entry, and what one has done stays when the other one reports an
error.
-/

namespace Moonlink.Rest

open Lib

variable {Schema AvroSchema Json Row : Type}

inductive CommandError where
  | sink (e : RestSinkError)
  | source (e : RestSourceError)
  deriving DecidableEq, Repr

/-- Where the tables of the event loop are registered. -/
structure RestTables (Schema AvroSchema Row : Type) where
  sink : RestSink Row
  source : RestSource Schema AvroSchema

namespace RestTables

def init : RestTables Schema AvroSchema Row := ⟨.new, .new⟩

/-- The rest of a command in the source. -/
def finish (sink : RestSink Row)
    (outcome : RestSource Schema AvroSchema × Except RestPanic (Except RestSourceError Unit)) :
    Except RestPanic (RestTables Schema AvroSchema Row × Except CommandError Unit) :=
  match outcome with
  | (_, .error p) => .error p
  | (source, .ok (.error e)) => .ok (⟨sink, source⟩, .error (.source e))
  | (source, .ok (.ok ())) => .ok (⟨sink, source⟩, .ok ())

/-- A command, with the error that the loop logs for it. -/
def execute [DecidableEq Schema] (c : Converters Schema AvroSchema Json Row) (s : RestTables Schema AvroSchema Row)
    (cmd : RestCommand Schema AvroSchema) :
    Except RestPanic (RestTables Schema AvroSchema Row × Except CommandError Unit) :=
  match cmd with
  | .addTable name id schema persistLsn =>
    match s.sink.addTable id persistLsn with
    | (sink, .error e) => .ok (⟨sink, s.source⟩, .error (.sink e))
    | (sink, .ok ()) => finish sink ((s.source.storePersistLsn s.source.lsnGenerator persistLsn).insertTable name id schema)
  | .setAvroSchema name avroSchema => finish s.sink (s.source.setAvroSchema c name avroSchema)
  | .dropTable name id =>
    match s.sink.dropTable id with
    | (sink, .error e) => .ok (⟨sink, s.source⟩, .error (.sink e))
    | (sink, .ok ()) => finish sink (s.source.removeTable name)
  | .shutdown => .ok (s, .ok ())

/-- The tables after a command. -/
def next [DecidableEq Schema] (c : Converters Schema AvroSchema Json Row) (s : RestTables Schema AvroSchema Row)
    (cmd : RestCommand Schema AvroSchema) : Except RestPanic (RestTables Schema AvroSchema Row) :=
  (·.1) <$> execute c s cmd

def run [DecidableEq Schema] (c : Converters Schema AvroSchema Json Row) (s : RestTables Schema AvroSchema Row)
    (commands : List (RestCommand Schema AvroSchema)) : Except RestPanic (RestTables Schema AvroSchema Row) :=
  commands.foldlM (next c) s

/-- Both know the same tables: the names of the source have schemas, and their ids, each of
one name, are those of the sink. -/
structure SameTables (s : RestTables Schema AvroSchema Row) : Prop where
  ids : ∀ id, s.sink.tableStatus.lookup id ≠ none ↔ ∃ name, s.source.srcTableNameToSrcId.lookup name = some id
  names : ∀ name, s.source.tableSchemas.lookup name ≠ none ↔ s.source.srcTableNameToSrcId.lookup name ≠ none
  injective : ∀ name name' id, s.source.srcTableNameToSrcId.lookup name = some id →
    s.source.srcTableNameToSrcId.lookup name' = some id → name = name'

/-- New tables have a new name and a new id. A table is dropped by its name and its id, unless the
sink does not know the id. An Avro schema has the schema of the table, if there is one. -/
def Fitting (c : Converters Schema AvroSchema Json Row) (s : RestTables Schema AvroSchema Row) :
    RestCommand Schema AvroSchema → Prop
  | .addTable name id _ _ => s.sink.tableStatus.lookup id = none ∧ s.source.tableSchemas.lookup name = none
  | .setAvroSchema name avroSchema => ∀ e ∈ s.source.tableSchemas.lookup name, c.arrowSchema avroSchema = some e.1
  | .dropTable name id => s.sink.tableStatus.lookup id = none ∨ s.source.srcTableNameToSrcId.lookup name = some id
  | .shutdown => True

instance [DecidableEq Schema] (c : Converters Schema AvroSchema Json Row) (s : RestTables Schema AvroSchema Row)
    (cmd : RestCommand Schema AvroSchema) : Decidable (Fitting c s cmd) :=
  match cmd with
  | .addTable .. => inferInstanceAs (Decidable (_ = none ∧ _ = none))
  | .setAvroSchema name avroSchema =>
    inferInstanceAs (Decidable (∀ e ∈ s.source.tableSchemas.lookup name, c.arrowSchema avroSchema = some e.1))
  | .dropTable .. => inferInstanceAs (Decidable (_ = none ∨ _ = some _))
  | .shutdown => isTrue trivial

variable {c : Converters Schema AvroSchema Json Row} {s : RestTables Schema AvroSchema Row}

/-! ## What a command does -/

theorem SameTables.init : SameTables (init : RestTables Schema AvroSchema Row) where
  ids id := ⟨fun h => absurd rfl h, fun ⟨_, h⟩ => by cases h⟩
  names name := iff_of_false (fun h => h rfl) (fun h => h rfl)
  injective name name' id h := by cases h

/-- A new name and a new id come to both sides. -/
theorem SameTables.insert (h : SameTables s) {name : String} {id : SrcTableId} (status : TableStatus)
    (schema : Schema × Option AvroSchema) (replicationLsn lsnGenerator : Nat)
    (hid : s.sink.tableStatus.lookup id = none) (hname : s.source.tableSchemas.lookup name = none) :
    SameTables ⟨{ s.sink with tableStatus := s.sink.tableStatus.insert id status, replicationLsn },
      ⟨s.source.tableSchemas.insert name schema, s.source.srcTableNameToSrcId.insert name id, lsnGenerator⟩⟩ := by
  have hnoName : s.source.srcTableNameToSrcId.lookup name = none :=
    not_not.mp (mt (h.names name).mpr (not_not_intro hname))
  have hnoId : ∀ name', s.source.srcTableNameToSrcId.lookup name' ≠ some id :=
    fun name' hname' => (h.ids id).mpr ⟨name', hname'⟩ hid
  refine ⟨fun id' => ?_, fun name' => ?_, fun name₁ name₂ id' h₁ h₂ => ?_⟩
  · dsimp only
    rw [AssocMap.lookup_insert_ite]
    split
    · rename_i heq
      subst heq
      exact ⟨fun _ => ⟨name, AList.lookup_insert _⟩, fun _ => nofun⟩
    · rename_i hne
      rw [h.ids id']
      constructor
      · rintro ⟨name', hname'⟩
        refine ⟨name', ?_⟩
        rw [AssocMap.lookup_insert_ite, if_neg, hname']
        rintro rfl
        rw [hnoName] at hname'
        cases hname'
      · rintro ⟨name', hname'⟩
        rw [AssocMap.lookup_insert_ite] at hname'
        split at hname'
        · exact absurd (Option.some.inj hname').symm hne
        · exact ⟨name', hname'⟩
  · dsimp only
    rw [AssocMap.lookup_insert_ite, AssocMap.lookup_insert_ite]
    split
    · exact ⟨fun _ => nofun, fun _ => nofun⟩
    · exact h.names name'
  · dsimp only at h₁ h₂
    rw [AssocMap.lookup_insert_ite] at h₁ h₂
    split at h₁ <;> split at h₂
    · rename_i heq₁ heq₂
      exact heq₁.trans heq₂.symm
    · exact absurd ((Option.some.inj h₁) ▸ h₂) (hnoId name₂)
    · exact absurd ((Option.some.inj h₂) ▸ h₁) (hnoId name₁)
    · exact h.injective name₁ name₂ id' h₁ h₂

/-- A table goes from both sides. -/
theorem SameTables.erase (h : SameTables s) {name : String} {id : SrcTableId}
    (hname : s.source.srcTableNameToSrcId.lookup name = some id) :
    SameTables ⟨{ s.sink with tableStatus := s.sink.tableStatus.erase id },
      { s.source with
        tableSchemas := s.source.tableSchemas.erase name
        srcTableNameToSrcId := s.source.srcTableNameToSrcId.erase name }⟩ := by
  refine ⟨fun id' => ?_, fun name' => ?_, fun name₁ name₂ id' h₁ h₂ => ?_⟩
  · dsimp only
    rw [AssocMap.lookup_erase_ite]
    split
    · rename_i heq
      subst heq
      refine ⟨fun hne => absurd rfl hne, ?_⟩
      rintro ⟨name', hname'⟩
      rw [AssocMap.lookup_erase_ite] at hname'
      split at hname'
      · cases hname'
      · rename_i hne
        exact absurd (h.injective _ _ _ hname hname').symm hne
    · rename_i hne
      rw [h.ids id']
      constructor
      · rintro ⟨name', hname'⟩
        refine ⟨name', ?_⟩
        rw [AssocMap.lookup_erase_ite, if_neg, hname']
        rintro rfl
        exact hne (Option.some.inj (hname'.symm.trans hname))
      · rintro ⟨name', hname'⟩
        rw [AssocMap.lookup_erase_ite] at hname'
        split at hname'
        · cases hname'
        · exact ⟨name', hname'⟩
  · dsimp only
    rw [AssocMap.lookup_erase_ite, AssocMap.lookup_erase_ite]
    split
    · exact iff_of_false (fun h => h rfl) (fun h => h rfl)
    · exact h.names name'
  · dsimp only at h₁ h₂
    rw [AssocMap.lookup_erase_ite] at h₁ h₂
    split at h₁
    · cases h₁
    · split at h₂
      · cases h₂
      · exact h.injective name₁ name₂ id' h₁ h₂

/-- A schema is replaced. -/
theorem SameTables.setSchema (h : SameTables s) {name : String} {old : Schema × Option AvroSchema}
    (schema : Schema × Option AvroSchema)
    (hname : s.source.tableSchemas.lookup name = some old) :
    SameTables ⟨s.sink, { s.source with tableSchemas := s.source.tableSchemas.insert name schema }⟩ := by
  refine ⟨h.ids, fun name' => ?_, h.injective⟩
  dsimp only
  rw [AssocMap.lookup_insert_ite]
  split
  · rename_i heq
    subst heq
    rw [← h.names, hname]
    exact ⟨fun _ => nofun, fun _ => nofun⟩
  · exact h.names name'

theorem execute_returns [DecidableEq Schema] {cmd : RestCommand Schema AvroSchema} (h : SameTables s)
    (hfitting : Fitting c s cmd) :
    Returns (execute c s cmd) fun r => SameTables r.1 ∧ ∀ e, r.2 = .error e → r.1 = s := by
  cases cmd with
  | addTable name id schema persistLsn =>
    obtain ⟨hid, hname⟩ := hfitting
    have hnoName : s.source.srcTableNameToSrcId.lookup name = none :=
      not_not.mp (mt (h.names name).mpr (not_not_intro hname))
    have hsource : ∀ oldLsn, ∃ lsnGenerator,
        (s.source.storePersistLsn oldLsn persistLsn).insertTable name id schema =
          (⟨s.source.tableSchemas.insert name (schema, none), s.source.srcTableNameToSrcId.insert name id, lsnGenerator⟩,
            .ok (.ok ())) := by
      intro oldLsn
      have htables : ∃ lsnGenerator, s.source.storePersistLsn oldLsn persistLsn = { s.source with lsnGenerator } := by
        unfold RestSource.storePersistLsn
        split
        · exact ⟨_, rfl⟩
        · split
          · exact ⟨_, rfl⟩
          · exact ⟨_, rfl⟩
      obtain ⟨lsnGenerator, heq⟩ := htables
      refine ⟨lsnGenerator, ?_⟩
      rw [heq]
      simp only [RestSource.insertTable, hname, hnoName, Option.isSome_none, Bool.false_eq_true, if_false]
    obtain ⟨lsnGenerator, heq⟩ := hsource s.source.lsnGenerator
    refine ⟨(_, .ok ()), ?_, h.insert ⟨true, persistLsn.getD 0⟩ (schema, none)
      (max s.sink.replicationLsn (persistLsn.getD 0)) lsnGenerator hid hname, by rintro e ⟨⟩⟩
    simp only [execute, RestSink.addTable, hid, heq, Option.isSome_none, Bool.false_eq_true, if_false, finish]
  | setAvroSchema name avroSchema =>
    cases hname : s.source.tableSchemas.lookup name with
    | none =>
      refine ⟨(s, .error (.source (.unknownTable name))), ?_, h, fun _ _ => rfl⟩
      simp only [execute, RestSource.setAvroSchema, hname, finish]
    | some e =>
      obtain ⟨schema, old⟩ := e
      have hschema : c.arrowSchema avroSchema = some schema := hfitting _ hname
      refine ⟨(_, .ok ()), ?_, h.setSchema (schema, some avroSchema) hname, by rintro e ⟨⟩⟩
      simp only [execute, RestSource.setAvroSchema, hname, hschema, if_true, finish]
  | dropTable name id =>
    cases hid : s.sink.tableStatus.lookup id with
    | none =>
      refine ⟨(s, .error (.sink (.nonExistentTable id))), ?_, h, fun _ _ => rfl⟩
      simp only [execute, RestSink.dropTable, hid, Option.isNone_none, if_true]
    | some status =>
      have hname : s.source.srcTableNameToSrcId.lookup name = some id := by
        rcases hfitting with hnone | hname
        · rw [hid] at hnone
          cases hnone
        · exact hname
      obtain ⟨schema, hschema⟩ := Option.ne_none_iff_exists'.mp ((h.names name).mpr (by rw [hname]; exact nofun))
      refine ⟨(_, .ok ()), ?_, h.erase hname, by rintro e ⟨⟩⟩
      simp only [execute, RestSink.dropTable, RestSource.removeTable, hid, hname, hschema, Option.isNone_some,
        Bool.false_eq_true, if_false, finish]
  | shutdown => exact ⟨(s, .ok ()), rfl, h, by rintro e ⟨⟩⟩

/-! ## Commands in a sequence -/

/-- In every sequence of fitting commands, none panics, both sides know the same tables all the time, and a
command that reports an error leaves both as they were. -/
theorem commands_atomic_of_fitting [DecidableEq Schema] {commands : List (RestCommand Schema AvroSchema)}
    (hmeets : RunMeets (fun s cmd => (next c s cmd).toOption) (Fitting c) init commands) :
    Returns (run c init commands) SameTables ∧
      ∀ before cmd after, commands = before ++ cmd :: after → ∀ s, run c init before = .ok s →
        SameTables s ∧ ∀ s' e, execute c s cmd = .ok (s', .error e) → s' = s := by
  have hall : ∀ (commands : List (RestCommand Schema AvroSchema)) (s₀ : RestTables Schema AvroSchema Row), SameTables s₀ →
      RunMeets (fun s cmd => (next c s cmd).toOption) (Fitting c) s₀ commands →
        Returns (run c s₀ commands) SameTables ∧
          ∀ before cmd after, commands = before ++ cmd :: after → ∀ s, run c s₀ before = .ok s →
            SameTables s ∧ ∀ s' e, execute c s cmd = .ok (s', .error e) → s' = s := by
    intro commands
    induction commands with
    | nil =>
      refine fun s₀ h₀ _ => ⟨.pure h₀, fun before cmd after heq => ?_⟩
      cases before <;> cases heq
    | cons first rest ih =>
      intro s₀ h₀ hmeets
      obtain ⟨⟨s₁, result⟩, hexecute, h₁, herror⟩ := execute_returns h₀ hmeets.1
      have hnext : next c s₀ first = .ok s₁ := by
        unfold next
        rw [hexecute]
        rfl
      have hsome : (next c s₀ first).toOption = some s₁ := by
        rw [hnext]
        rfl
      obtain ⟨hrun, hsplit⟩ := ih s₁ h₁ (hmeets.2 s₁ hsome)
      have hcons : ∀ tail, run c s₀ (first :: tail) = run c s₁ tail := fun tail => by
        unfold run
        rw [List.foldlM_cons, hnext]
        rfl
      refine ⟨by rw [hcons]; exact hrun, fun before cmd after heq s hs => ?_⟩
      cases before with
      | nil =>
        cases heq
        cases hs
        refine ⟨h₀, fun s' e hfails => ?_⟩
        rw [hexecute] at hfails
        cases hfails
        exact herror e rfl
      | cons _ before =>
        cases heq
        rw [hcons] at hs
        exact hsplit before cmd after rfl s hs
  exact hall commands init .init hmeets

/-- Converters for tables with named columns. -/
def columnConverters : Converters (List String) (List String) Unit Unit where
  json _ _ := some ()
  protobuf _ := some ()
  avro _ _ := some ()
  arrowSchema columns := some columns

def fittingCommands : List (RestCommand (List String) (List String)) :=
  [.addTable "orders" 1 ["id"] none, .setAvroSchema "orders" ["id"], .setAvroSchema "items" ["id"], .dropTable "items" 2,
    .addTable "items" 2 ["id", "name"] (some 5), .dropTable "orders" 1]

theorem commands_atomic_fittingCommands :
    Returns (run columnConverters init fittingCommands) SameTables ∧
      ∀ before cmd after, fittingCommands = before ++ cmd :: after → ∀ s, run columnConverters init before = .ok s →
        SameTables s ∧ ∀ s' e, execute columnConverters s cmd = .ok (s', .error e) → s' = s :=
  commands_atomic_of_fitting (by decide)

/-- A table with the name of another one comes to the sink and gets the other one's schema replaced.
A table that is dropped under a wrong name stays in the source. An Avro schema with other columns
panics. -/
theorem failed_commands_leave_traces :
    (∃ s s' e, run columnConverters init [.addTable "orders" 1 ["id"] none] = .ok s ∧
        execute columnConverters s (.addTable "orders" 2 ["id", "name"] none) = .ok (s', .error e) ∧
        s'.sink.tableStatus.lookup 2 ≠ none ∧ s'.source.srcTableNameToSrcId.lookup "orders" = some 1 ∧
        s'.source.tableSchemas.lookup "orders" = some (["id", "name"], none) ∧ ¬ SameTables s') ∧
      (∃ s s' e, run columnConverters init [.addTable "orders" 1 ["id"] none] = .ok s ∧
        execute columnConverters s (.dropTable "items" 1) = .ok (s', .error e) ∧
        s'.sink.tableStatus.lookup 1 = none ∧ s'.source.srcTableNameToSrcId.lookup "orders" = some 1) ∧
      run columnConverters init [.addTable "orders" 1 ["id"] none, .setAvroSchema "orders" ["name"]] =
        .error .avroSchemaMismatch := by
  refine ⟨⟨_, _, _, rfl, rfl, nofun, rfl, rfl, fun h => ?_⟩, ⟨_, _, _, rfl, rfl, rfl, rfl⟩, rfl⟩
  obtain ⟨name, hname⟩ := (h.ids 2).mp nofun
  change ((∅ : AssocMap String SrcTableId).insert "orders" 1).lookup name = some 2 at hname
  rw [AssocMap.lookup_insert_ite] at hname
  split at hname <;> cases hname

end RestTables

namespace RestLoop

def tables (s : RestLoop Schema AvroSchema Row) : RestTables Schema AvroSchema Row := ⟨s.sink, s.source⟩

/-- The event loop handles a command, with nothing in between. -/
def runCommand [DecidableEq Schema] (c : Converters Schema AvroSchema Json Row) (s : RestLoop Schema AvroSchema Row)
    (cmd : RestCommand Schema AvroSchema) : Option (RestLoop Schema AvroSchema Row) :=
  let s := s.handleCommand cmd
  match s.loop with
  | .writing (.addTable ..) => (s.acquireWrite c).bind finishAddTable
  | .writing _ => s.acquireWrite c
  | _ => some s

/-- The tables are as after `RestTables.next`, which panics if the loop does. -/
theorem runCommand_tables [DecidableEq Schema] {c : Converters Schema AvroSchema Json Row}
    {s : RestLoop Schema AvroSchema Row} (hloop : s.loop = .selecting) (hreaders : s.readers = 0)
    (cmd : RestCommand Schema AvroSchema) : ∃ s', s.runCommand c cmd = some s' ∧ s.tables.next c cmd =
      match s'.loop with
      | .panicked p => .error p
      | _ => .ok s'.tables := by
  have hfinish (s₁ : RestLoop Schema AvroSchema Row)
      (outcome : RestSource Schema AvroSchema × Except RestPanic (Except RestSourceError Unit)) :
      (·.1) <$> RestTables.finish s₁.sink outcome =
        match (s₁.finishCommand outcome).loop with
        | .panicked p => .error p
        | _ => .ok (s₁.finishCommand outcome).tables := by
    obtain ⟨source, _ | _ | _⟩ := outcome <;> rfl
  obtain ⟨source, readers, stream, closed, pending, nextTask, sink, loop, responses⟩ := s
  cases hloop
  cases hreaders
  cases cmd with
  | addTable name id schema persistLsn =>
    simp only [runCommand, handleCommand, tables, RestTables.next, RestTables.execute]
    cases sink.addTable id persistLsn with
    | mk sink result =>
      cases result with
      | error e => exact ⟨_, rfl, rfl⟩
      | ok _ => exact ⟨_, rfl, hfinish ⟨source, 0, stream, closed, pending, nextTask, sink, _, responses⟩ _⟩
  | setAvroSchema name avroSchema =>
    exact ⟨_, rfl, hfinish ⟨source, 0, stream, closed, pending, nextTask, sink, _, responses⟩ _⟩
  | dropTable name id =>
    simp only [runCommand, handleCommand, tables, RestTables.next, RestTables.execute]
    cases sink.dropTable id with
    | mk sink result =>
      cases result with
      | error e => exact ⟨_, rfl, rfl⟩
      | ok _ => exact ⟨_, rfl, hfinish ⟨source, 0, stream, closed, pending, nextTask, sink, _, responses⟩ _⟩
  | shutdown => exact ⟨_, rfl, rfl⟩

end RestLoop
end Moonlink.Rest
