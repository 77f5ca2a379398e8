-- SUMMARY: What requests do to the registration of tables, and when the registry stays consistent over a run of them.
import Moonlink.Replication.Registry

namespace Moonlink.Registry

open Lib

def SourceType.isPostgres : SourceType → Bool
  | .postgres => true
  | .restApi _ => false

/-! ## Connections -/

namespace ReplicationConnection

variable {c : ReplicationConnection} {r : CreateRequest} {fails : Option CreateStep}

/-- A new table state is the only difference between the connections. -/
theorem addTableReplication_cases (c : ReplicationConnection) (r : CreateRequest)
    (fails : Option CreateStep) :
    (∃ e, c.addTableReplication r fails = (c, .error e)) ∨
      (fails ≠ some .addToSource ∧ c.source.isPostgres = true ∧
        c.addTableReplication r fails = (c.insertTableState r r.srcTableId, .ok r.srcTableId)) := by
  unfold addTableReplication
  cases hsource : c.source with
  | restApi next => exact .inl ⟨_, rfl⟩
  | postgres =>
    dsimp only
    split
    · exact .inl ⟨_, rfl⟩
    · rename_i hfails
      exact .inr ⟨hfails, rfl, rfl⟩

/-- An id is taken from the source in any case. -/
theorem addTableApi_cases (c : ReplicationConnection) (r : CreateRequest) (fails : Option CreateStep) :
    ∃ c', c'.tableStates = c.tableStates ∧ c'.source.isPostgres = c.source.isPostgres ∧
      ((∃ e, c.addTableApi r fails = (c', .error e)) ∨
        (fails ≠ some .addToSource ∧ c.source.isPostgres = false ∧
          ∃ srcTableId, c.addTableApi r fails = (c'.insertTableState r srcTableId, .ok srcTableId))) := by
  unfold addTableApi
  cases hsource : c.source with
  | postgres =>
    refine ⟨c, rfl, by rw [hsource], .inl ⟨_, rfl⟩⟩
  | restApi next =>
    refine ⟨{ c with source := .restApi (next + 1) }, rfl, rfl, ?_⟩
    dsimp only
    split
    · exact .inl ⟨_, rfl⟩
    · rename_i hfails
      exact .inr ⟨hfails, rfl, next, rfl⟩

end ReplicationConnection

/-! ## Adding a table to the manager -/

namespace ReplicationManager

variable {m m' : ReplicationManager} {r : CreateRequest} {id : MooncakeTableId} {uri : String}

/-- The connection of a source, or the one that would be opened. -/
def connectionAt (m : ReplicationManager) (uri : String) : ReplicationConnection :=
  (m.connections.lookup uri).getD (.new uri)

variable {c : ReplicationConnection}

theorem connectionAt_of_lookup (h : m.connections.lookup uri = some c) :
    m.connectionAt uri = c := by
  unfold connectionAt
  rw [h]
  rfl

theorem connectionAt_of_none (h : m.connections.lookup uri = none) : m.connectionAt uri = .new uri := by
  unfold connectionAt
  rw [h]
  rfl

theorem connectionAt_setConnection (m : ReplicationManager) (uri uri' : String)
    (c : ReplicationConnection) :
    (m.setConnection uri c).connectionAt uri' = if uri' = uri then c else m.connectionAt uri' := by
  unfold connectionAt setConnection
  rw [AssocMap.lookup_insert_ite]
  split <;> rfl

/-- The table state that a connection holds for a table under a source id. -/
def stateAt (m : ReplicationManager) (uri : String) (uid : UniqueTableId) : Option String :=
  (m.connectionAt uri).tableStates.lookup uid

/-- Nothing about the registration of tables is different, nor about the kinds of the sources. -/
structure SameTables (m m' : ReplicationManager) : Prop where
  tableInfo : m'.tableInfo = m.tableInfo
  stateAt : ∀ uri uid, m'.stateAt uri uid = m.stateAt uri uid
  isPostgres : ∀ uri, (m'.connectionAt uri).source.isPostgres = (m.connectionAt uri).source.isPostgres
  hasRest : (m'.connections.lookup restApiUri).isSome = (m.connections.lookup restApiUri).isSome
  droppedSlots : m'.droppedSlots = m.droppedSlots

theorem SameTables.refl (m : ReplicationManager) : SameTables m m :=
  ⟨rfl, fun _ _ => rfl, fun _ => rfl, rfl, rfl⟩

theorem SameTables.setConnection (hstates : c.tableStates = (m.connectionAt uri).tableStates)
    (hsource : c.source.isPostgres = (m.connectionAt uri).source.isPostgres)
    (hrest : uri = restApiUri → (m.connections.lookup uri).isSome = true) :
    SameTables m (m.setConnection uri c) where
  tableInfo := rfl
  stateAt uri' uid := by
    unfold ReplicationManager.stateAt
    rw [connectionAt_setConnection]
    split
    · rename_i heq
      rw [hstates, heq]
    · rfl
  isPostgres uri' := by
    rw [connectionAt_setConnection]
    split
    · rename_i heq
      rw [hsource, heq]
    · rfl
  hasRest := by
    unfold ReplicationManager.setConnection
    rw [AssocMap.lookup_insert_ite]
    split
    · rename_i heq
      rw [heq, hrest heq.symm]
      rfl
    · rfl
  droppedSlots := rfl

/-- The table of the request is registered, with its table state, and is the only difference. -/
structure Registered (m : ReplicationManager) (r : CreateRequest) (m' : ReplicationManager) : Prop where
  isNew : m.tableInfo.lookup r.id = none
  entry : ∃ srcTableId, m'.tableInfo = m.tableInfo.insert r.id (r.srcUri, srcTableId) ∧
    ∀ uri uid, m'.stateAt uri uid =
      if uri = r.srcUri ∧ uid = ⟨r.id, srcTableId⟩ then some r.srcTableName else m.stateAt uri uid
  droppedSlots : m'.droppedSlots = m.droppedSlots

theorem Registered.setConnection (hnew : m.tableInfo.lookup r.id = none)
    (hstates : c.tableStates = (m.connectionAt r.srcUri).tableStates) (srcTableId : Nat) :
    Registered m r
      ((m.setConnection r.srcUri (c.insertTableState r srcTableId)).register r srcTableId) where
  isNew := hnew
  entry := by
    refine ⟨srcTableId, rfl, fun uri uid => ?_⟩
    change (m.setConnection r.srcUri (c.insertTableState r srcTableId)).stateAt uri uid = _
    unfold stateAt
    rw [connectionAt_setConnection]
    by_cases heq : uri = r.srcUri
    · rw [if_pos heq, heq, ← hstates]
      unfold ReplicationConnection.insertTableState
      rw [AssocMap.lookup_insert_ite]
      simp
    · rw [if_neg heq, if_neg fun h => heq h.1]
  droppedSlots := rfl

theorem getOrCreateConnection_eq {fails : Option CreateStep}
    (h : m.getOrCreateConnection uri fails = .ok c) :
    c = m.connectionAt uri ∧ ((m.connections.lookup uri).isSome = true ∨ fails ≠ some .connect) := by
  unfold getOrCreateConnection at h
  split at h
  · rename_i hlook
    cases h
    refine ⟨(connectionAt_of_lookup hlook).symm, .inl ?_⟩
    rw [hlook]
    rfl
  · rename_i hlook
    split at h
    · cases h
    · rename_i hfails
      cases h
      exact ⟨(connectionAt_of_none hlook).symm, .inr hfails⟩

/-- The request gets as far as the source of the table, and the source takes it. -/
def Adds (m : ReplicationManager) (r : CreateRequest) (fails : Option CreateStep) : Prop :=
  fails ≠ some .addToSource ∧
    (m.connectionAt r.srcUri).source.isPostgres = decide (r.srcUri ≠ restApiUri) ∧
    ((m.connections.lookup r.srcUri).isSome = true ∨ (r.srcUri ≠ restApiUri ∧ fails ≠ some .connect))

instance {r : CreateRequest} {fails : Option CreateStep} : Decidable (m.Adds r fails) :=
  inferInstanceAs (Decidable (_ ∧ _))

/-- A Postgres table is registered, or nothing is. -/
theorem addTable_cases (m : ReplicationManager) (r : CreateRequest) (fails : Option CreateStep)
    (hrest : r.srcUri ≠ restApiUri) :
    ((m.addTable r fails).2 = .ok () ∧ m.Adds r fails ∧ Registered m r (m.addTable r fails).1) ∨
      (∃ e, (m.addTable r fails).2 = .error e) ∧ SameTables m (m.addTable r fails).1 := by
  unfold addTable
  split
  · exact .inr ⟨⟨_, rfl⟩, .refl m⟩
  · rename_i hnew
    split
    · exact .inr ⟨⟨_, rfl⟩, .refl m⟩
    · rename_i c hc
      obtain ⟨rfl, hreach⟩ := getOrCreateConnection_eq hc
      obtain ⟨e, heq⟩ | ⟨hsource, hkind, heq⟩ :=
        ReplicationConnection.addTableReplication_cases (m.connectionAt r.srcUri) r fails
      · rw [heq]
        exact .inr ⟨⟨e, rfl⟩, .setConnection rfl rfl fun h => absurd h hrest⟩
      · rw [heq]
        refine .inl ⟨rfl, ⟨hsource, ?_, hreach.imp id fun h => ⟨hrest, h⟩⟩, ?_⟩
        · rw [hkind, decide_eq_true hrest]
        · exact .setConnection (Option.not_isSome_iff_eq_none.mp hnew) rfl _

/-- A REST table is registered, or nothing is, or it was registered before. -/
theorem addRestTable_cases (m : ReplicationManager) (r : CreateRequest) (fails : Option CreateStep)
    (hrest : r.srcUri = restApiUri) :
    ((m.addRestTable r fails).2 = .ok () ∧ m.Adds r fails ∧ Registered m r (m.addRestTable r fails).1) ∨
      ((∃ e, (m.addRestTable r fails).2 = .error e) ∧
        ((m.Adds r fails → m.tableInfo.lookup r.id = none) → SameTables m (m.addRestTable r fails).1)) := by
  unfold addRestTable
  split
  · exact .inr ⟨⟨_, rfl⟩, fun _ => .refl m⟩
  · rename_i c hc
    have hsome : (m.connections.lookup r.srcUri).isSome = true := by
      rw [hc]
      rfl
    obtain ⟨c', hstates, hsource, ⟨e, heq⟩ | ⟨hfails, hkind, srcTableId, heq⟩⟩ :=
      ReplicationConnection.addTableApi_cases c r fails
    · rw [heq]
      rw [← connectionAt_of_lookup hc] at hstates hsource
      exact .inr ⟨⟨e, rfl⟩, fun _ => .setConnection hstates hsource fun _ => hsome⟩
    · rw [heq]
      rw [← connectionAt_of_lookup hc] at hstates hkind
      have hadds : m.Adds r fails := by
        refine ⟨hfails, ?_, .inl hsome⟩
        rw [hkind, decide_eq_false (not_not_intro hrest)]
      dsimp only
      split
      · rename_i hold
        refine .inr ⟨⟨_, rfl⟩, fun hnew => ?_⟩
        change (m.tableInfo.lookup r.id).isSome = true at hold
        rw [hnew hadds] at hold
        cases hold
      · rename_i hnew
        change ¬ (m.tableInfo.lookup r.id).isSome = true at hnew
        exact .inl ⟨rfl, hadds, .setConnection (Option.not_isSome_iff_eq_none.mp hnew) hstates srcTableId⟩

/-- What a creation in which no step fails is answered depends on the tables and the kinds of
the sources only. -/
theorem SameTables.addTable_answer (h : SameTables m m') (r : CreateRequest) :
    (m'.addTable r none).2 = (m.addTable r none).2 := by
  have hanswer : ∀ m : ReplicationManager, (m.addTable r none).2 =
      if (m.tableInfo.lookup r.id).isSome then .error .duplicateTable
      else if (m.connectionAt r.srcUri).source.isPostgres then .ok () else .error .unsupportedSource := by
    intro m
    have hconn : m.getOrCreateConnection r.srcUri none = .ok (m.connectionAt r.srcUri) := by
      unfold getOrCreateConnection connectionAt
      cases m.connections.lookup r.srcUri <;> rfl
    unfold addTable
    rw [hconn]
    split
    · rfl
    · generalize m.connectionAt r.srcUri = c
      obtain ⟨source, tableStates⟩ := c
      cases source <;> rfl
  rw [hanswer, hanswer, h.tableInfo, h.isPostgres]

theorem SameTables.addRestTable_answer (h : SameTables m m') (r : CreateRequest)
    (hrest : r.srcUri = restApiUri) : (m'.addRestTable r none).2 = (m.addRestTable r none).2 := by
  have hanswer : ∀ m : ReplicationManager, (m.addRestTable r none).2 =
      if (m.connections.lookup r.srcUri).isSome then
        if (m.connectionAt r.srcUri).source.isPostgres then .error .unsupportedSource
        else if (m.tableInfo.lookup r.id).isSome then .error .duplicateTable else .ok ()
      else .error (.restApiNotFound r.srcUri) := by
    intro m
    unfold addRestTable connectionAt
    cases m.connections.lookup r.srcUri with
    | none => rfl
    | some c =>
      obtain ⟨source, tableStates⟩ := c
      cases source with
      | postgres => rfl
      | restApi next =>
        change (if (m.tableInfo.lookup r.id).isSome = true then (_, _) else (_, _)).2 =
          if (m.tableInfo.lookup r.id).isSome then _ else _
        split <;> rfl
  rw [hanswer, hanswer, h.tableInfo, h.isPostgres, hrest, h.hasRest]

/-! ## Dropping a table and shutting a connection down -/

theorem connectionAt_shutdownConnection (m : ReplicationManager) (uri uri' : String)
    (postgresDropAll : Bool) :
    (m.shutdownConnection uri postgresDropAll).connectionAt uri' =
      if uri' = uri then .new uri else m.connectionAt uri' := by
  unfold shutdownConnection
  split
  · rename_i hnone
    split
    · rename_i heq
      rw [heq, connectionAt_of_none hnone]
    · rfl
  · unfold connectionAt
    dsimp only
    rw [AssocMap.lookup_erase_ite]
    split
    · rename_i heq
      rw [heq]
      rfl
    · rfl

/-- The table states are those of the registered tables. -/
def Agree (m : ReplicationManager) : Prop :=
  ∀ uri id srcTableId, (m.stateAt uri ⟨id, srcTableId⟩).isSome = true ↔
    m.tableInfo.lookup id = some (uri, srcTableId)

theorem Agree.new : Agree .new := fun _ _ _ => ⟨nofun, nofun⟩

theorem Agree.sameTables (h : Agree m) (hsame : SameTables m m') : Agree m' := by
  intro uri id srcTableId
  rw [hsame.stateAt, hsame.tableInfo]
  exact h uri id srcTableId

theorem Agree.registered (h : Agree m) (hreg : Registered m r m') : Agree m' := by
  obtain ⟨srcTableId, hinfo, hstate⟩ := hreg.entry
  intro uri id srcTableId'
  rw [hstate, hinfo, AssocMap.lookup_insert_ite]
  by_cases hid : id = r.id
  · subst hid
    have hold : (m.stateAt uri ⟨r.id, srcTableId'⟩).isSome = false := by
      rw [Bool.eq_false_iff, ne_eq, h, hreg.isNew]
      exact nofun
    rw [if_pos rfl]
    split
    · rename_i heq
      obtain ⟨rfl, heq⟩ := heq
      cases heq
      simp
    · rename_i hne
      rw [hold]
      refine ⟨nofun, fun heq => ?_⟩
      cases heq
      exact absurd ⟨rfl, rfl⟩ hne
  · rw [if_neg hid, if_neg]
    · exact h uri id srcTableId'
    · rintro ⟨-, heq⟩
      cases heq
      exact hid rfl

theorem lookup_shutdownConnection {postgresDropAll : Bool} {info : String × Nat}
    (h : (m.shutdownConnection uri postgresDropAll).tableInfo.lookup id = some info) :
    m.tableInfo.lookup id = some info := by
  unfold shutdownConnection at h
  split at h
  · exact h
  · exact (AssocMap.lookup_retain_eq_some_iff.mp h).1

theorem Agree.shutdownConnection (h : Agree m) (uri : String) (postgresDropAll : Bool) :
    Agree (m.shutdownConnection uri postgresDropAll) := by
  cases hc : m.connections.lookup uri with
  | none =>
    have hsame : m.shutdownConnection uri postgresDropAll = m := by
      unfold ReplicationManager.shutdownConnection
      rw [hc]
    rw [hsame]
    exact h
  | some c =>
    intro uri' id srcTableId
    unfold stateAt
    rw [connectionAt_shutdownConnection]
    unfold ReplicationManager.shutdownConnection
    rw [hc]
    dsimp only
    rw [AssocMap.lookup_retain_eq_some_iff]
    by_cases huri : uri' = uri
    · rw [if_pos huri]
      refine ⟨fun hstate => ?_, fun ⟨_, hne⟩ => ?_⟩
      · rw [show (ReplicationConnection.new uri).tableStates = ∅ from rfl, AList.lookup_empty] at hstate
        cases hstate
      · exact absurd huri (of_decide_eq_true hne)
    · rw [if_neg huri]
      refine (h uri' id srcTableId).trans ⟨fun hlook => ⟨hlook, decide_eq_true huri⟩, fun hlook => hlook.1⟩

/-- The manager without one of its tables. -/
def unregister (m : ReplicationManager) (id : MooncakeTableId) (uri : String) (srcTableId : Nat) :
    ReplicationManager :=
  let c := m.connectionAt uri
  { m.setConnection uri { c with tableStates := c.tableStates.erase ⟨id, srcTableId⟩ } with
    tableInfo := m.tableInfo.erase id }

variable {srcTableId : Nat}

theorem Agree.unregister (h : Agree m)
    (hinfo : m.tableInfo.lookup id = some (uri, srcTableId)) : Agree (m.unregister id uri srcTableId) := by
  intro uri' id' srcTableId'
  have hstate : (m.unregister id uri srcTableId).stateAt uri' ⟨id', srcTableId'⟩ =
      if uri' = uri ∧ id' = id ∧ srcTableId' = srcTableId then none
      else m.stateAt uri' ⟨id', srcTableId'⟩ := by
    change ((m.setConnection uri _).connectionAt uri').tableStates.lookup _ = _
    rw [connectionAt_setConnection]
    by_cases huri : uri' = uri
    · rw [if_pos huri, huri]
      dsimp only
      rw [AssocMap.lookup_erase_ite]
      simp [stateAt]
    · rw [if_neg huri, if_neg fun heq => huri heq.1]
      rfl
  change _ ↔ (m.tableInfo.erase id).lookup id' = _
  rw [hstate, AssocMap.lookup_erase_ite]
  have hold := h uri' id' srcTableId'
  by_cases hid : id' = id
  · subst hid
    rw [if_pos rfl]
    split
    · simp
    · rename_i hne
      rw [hold, hinfo]
      refine ⟨fun heq => ?_, nofun⟩
      cases heq
      exact absurd ⟨rfl, rfl, rfl⟩ hne
  · rw [if_neg hid, if_neg fun heq => hid heq.2.1]
    exact hold

/-- No table of an agreeing manager is registered at a connection without table states. -/
theorem Agree.unused (h : Agree m) (hcount : (m.connectionAt uri).tableCount = 0)
    (srcTableId : Nat) : m.tableInfo.lookup id ≠ some (uri, srcTableId) := by
  intro hinfo
  have hstate := (h uri id srcTableId).mpr hinfo
  unfold stateAt at hstate
  rw [AList.lookup_isSome] at hstate
  unfold ReplicationConnection.tableCount at hcount
  rw [List.length_eq_zero_iff] at hcount
  rw [AList.mem_keys, hcount] at hstate
  cases hstate

/-- A registered table is dropped if no step fails. -/
theorem Agree.dropTable_eq (h : Agree m) (hinfo : m.tableInfo.lookup id = some (uri, srcTableId)) :
    m.dropTable id none =
      ((m.unregister id uri srcTableId).shutdownIfUnused uri
        ((m.unregister id uri srcTableId).connectionAt uri), .ok true) := by
  have hstate := (h uri id srcTableId).mpr hinfo
  cases hc : m.connections.lookup uri with
  | none =>
    unfold stateAt at hstate
    rw [connectionAt_of_none hc] at hstate
    cases hstate
  | some c =>
    unfold stateAt at hstate
    rw [connectionAt_of_lookup hc] at hstate
    obtain ⟨name, hname⟩ := Option.isSome_iff_exists.mp hstate
    have hat : (m.unregister id uri srcTableId).connectionAt uri =
        { c with tableStates := c.tableStates.erase ⟨id, srcTableId⟩ } := by
      change (m.setConnection uri _).connectionAt uri = _
      rw [connectionAt_setConnection, if_pos rfl, connectionAt_of_lookup hc]
    rw [hat]
    unfold dropTable ReplicationConnection.dropTable ReplicationManager.unregister
    rw [hinfo, connectionAt_of_lookup hc]
    simp only [hc, hname]
    rfl

/-! ## Reading the registry -/

/-- Every registered table has its connection and its table state, and no getter panics. -/
structure Consistent (m : ReplicationManager) : Prop where
  entries : ∀ id uri srcTableId, m.tableInfo.lookup id = some (uri, srcTableId) →
    ∃ c, m.connections.lookup uri = some c ∧ (c.tableStates.lookup ⟨id, srcTableId⟩).isSome = true
  getTableState : ∀ id e, m.getTableState id = .error e → e = .tableNotFound
  getTableStatusReaders : ∃ readers, m.getTableStatusReaders = .ok readers

theorem Agree.entries (h : Agree m) (hinfo : m.tableInfo.lookup id = some (uri, srcTableId)) :
    ∃ c, m.connections.lookup uri = some c ∧ (c.tableStates.lookup ⟨id, srcTableId⟩).isSome = true := by
  have hstate := (h uri id srcTableId).mpr hinfo
  unfold stateAt at hstate
  cases hc : m.connections.lookup uri with
  | none =>
    rw [connectionAt_of_none hc] at hstate
    cases hstate
  | some c =>
    rw [connectionAt_of_lookup hc] at hstate
    exact ⟨c, rfl, hstate⟩

theorem Agree.consistent (h : Agree m) : Consistent m where
  entries _ _ _ hinfo := h.entries hinfo
  getTableState id e he := by
    unfold ReplicationManager.getTableState at he
    split at he
    · cases he
      rfl
    · rename_i hinfo
      obtain ⟨c, hc, hstate⟩ := h.entries hinfo
      obtain ⟨name, hname⟩ := Option.isSome_iff_exists.mp hstate
      rw [hc] at he
      simp only [hname] at he
      cases he
  getTableStatusReaders := by
    refine ⟨_, mapM_eq_ok (g := fun e => (m.connectionAt e.2.1).tableStates.entries) fun e he => ?_⟩
    obtain ⟨c, hc, -⟩ := h.entries (AssocMap.lookup_eq_some_iff.mpr he)
    rw [connectionAt_of_lookup hc, hc]

/-- The slot of a connection is dropped only if no table but `dropped` is registered at it. -/
def DropsUnusedSlots (m m' : ReplicationManager) (dropped : Option MooncakeTableId) : Prop :=
  m'.droppedSlots = m.droppedSlots ∨ ∃ uri, m'.droppedSlots = m.droppedSlots ++ [uri] ∧
    ∀ id srcTableId, m.tableInfo.lookup id = some (uri, srcTableId) → dropped = some id

theorem shutdownConnection_droppedSlots (m : ReplicationManager) (uri : String) (postgresDropAll : Bool) :
    (m.shutdownConnection uri postgresDropAll).droppedSlots = m.droppedSlots ∨
      (postgresDropAll = true ∧ (m.connectionAt uri).source.isPostgres = true ∧
        (m.shutdownConnection uri postgresDropAll).droppedSlots = m.droppedSlots ++ [uri]) := by
  unfold shutdownConnection
  split
  · exact .inl rfl
  · rename_i c hc
    rw [connectionAt_of_lookup hc]
    by_cases hdrop : postgresDropAll = true ∧ c.source = .postgres
    · refine .inr ⟨hdrop.1, ?_, if_pos hdrop⟩
      rw [hdrop.2]
      rfl
    · exact .inl (if_neg hdrop)

theorem lookup_unregister {id' : MooncakeTableId} :
    (m.unregister id uri srcTableId).tableInfo.lookup id' =
      if id' = id then none else m.tableInfo.lookup id' := AssocMap.lookup_erase_ite _ _ _

/-- The last table of a connection takes the slot along. -/
theorem Agree.shutdownIfUnused_spec (h : Agree m) (uri : String) :
    Agree (m.shutdownIfUnused uri (m.connectionAt uri)) ∧
      DropsUnusedSlots m (m.shutdownIfUnused uri (m.connectionAt uri)) none ∧
      ∀ id info, (m.shutdownIfUnused uri (m.connectionAt uri)).tableInfo.lookup id = some info →
        m.tableInfo.lookup id = some info := by
  unfold shutdownIfUnused
  split
  · rename_i hunused
    refine ⟨h.shutdownConnection uri true, ?_, fun _ _ => lookup_shutdownConnection⟩
    obtain hsame | ⟨-, -, hmore⟩ := shutdownConnection_droppedSlots m uri true
    · exact .inl hsame
    · exact .inr ⟨uri, hmore, fun id srcTableId hinfo => absurd hinfo (h.unused hunused.1 srcTableId)⟩
  · exact ⟨h, .inl rfl, fun _ _ hinfo => hinfo⟩

end ReplicationManager

/-! ## Requests -/

/-- The table that a request drops. -/
def RegistryAction.dropped : RegistryAction → Option MooncakeTableId
  | .dropTable id _ => some id
  | _ => none

namespace MoonlinkBackend

variable {b b' : MoonlinkBackend} {r : CreateRequest} {id : MooncakeTableId}

/-- The places that register tables agree, and every registered table has its metadata row. -/
structure Inv (b : MoonlinkBackend) : Prop where
  agree : b.replicationManager.Agree
  stored : ∀ id info, b.replicationManager.tableInfo.lookup id = some info →
    (b.metadataStore.lookup id).isSome = true

theorem Inv.new : Inv .new := ⟨.new, nofun⟩

/-- Nothing is left of a creation, so a further attempt is answered as if it were the first. -/
structure LeavesNothing (b : MoonlinkBackend) (r : CreateRequest) (b' : MoonlinkBackend) : Prop where
  sameTables : b.replicationManager.SameTables b'.replicationManager
  metadataStore : b'.metadataStore = b.metadataStore
  retry : (b'.createTable r none).2 = (b.createTable r none).2

/-- The table can be read, or another drop removes it from every place. -/
def UsableOrDroppable (b : MoonlinkBackend) (id : MooncakeTableId) : Prop :=
  (∃ name, b.replicationManager.getTableState id = .ok name) ∨
    ((b.dropTable id none).2 = .ok () ∧
      (b.dropTable id none).1.replicationManager.tableInfo.lookup id = none ∧
      (b.dropTable id none).1.metadataStore.lookup id = none)

/-- What is promised of a request, above all if it is answered with an error. -/
structure Behaves (b : MoonlinkBackend) (a : RegistryAction) : Prop where
  create : ∀ r fails e, a = .createTable r fails → (b.handle a).2 = .error e →
    b.LeavesNothing r (b.handle a).1
  drop : ∀ id fails e, a = .dropTable id fails → (b.handle a).2 = .error e →
    (b.replicationManager.tableInfo.lookup id).isSome = true → (b.handle a).1.UsableOrDroppable id
  slots : b.replicationManager.DropsUnusedSlots (b.handle a).1.replicationManager
    a.dropped

/-- No inner step fails once another has taken effect, no REST table is created while it is
registered, and no slot is dropped at the user's request while its tables are registered. -/
def Clean (b : MoonlinkBackend) : RegistryAction → Prop
  | .initializeEventApi => True
  | .createTable r fails => (checkCreate r fails).isOk = true → b.replicationManager.Adds r fails →
      if (b.replicationManager.tableInfo.lookup r.id).isSome then r.srcUri ≠ restApiUri
      else fails ≠ some .storeMetadata ∧ b.metadataStore.lookup r.id = none
  | .dropTable id fails => (b.replicationManager.tableInfo.lookup id).isSome = true → fails = none
  | .shutdownConnection uri postgresDropAll => postgresDropAll = true →
      (b.replicationManager.connectionAt uri).source.isPostgres = true →
        ∀ info ∈ AssocMap.values b.replicationManager.tableInfo, info.1 ≠ uri

instance (b : MoonlinkBackend) : (a : RegistryAction) → Decidable (b.Clean a)
  | .initializeEventApi => isTrue trivial
  | .createTable _ _ => inferInstanceAs (Decidable (_ → _))
  | .dropTable _ _ => inferInstanceAs (Decidable (_ → _))
  | .shutdownConnection _ _ => inferInstanceAs (Decidable (_ → _))

theorem LeavesNothing.of_sameTables
    (hsame : b.replicationManager.SameTables b'.replicationManager)
    (hstore : b'.metadataStore = b.metadataStore) : b.LeavesNothing r b' where
  sameTables := hsame
  metadataStore := hstore
  retry := by
    have hadd : (b'.addToManager r none).2 = (b.addToManager r none).2 := by
      unfold addToManager
      split
      · rename_i hrest
        exact hsame.addRestTable_answer r hrest
      · exact hsame.addTable_answer r
    unfold createTable
    cases checkCreate r none with
    | error e => rfl
    | ok =>
      -- The answers agree; what is registered is not part of them.
      revert hadd
      obtain ⟨m', answer'⟩ := b'.addToManager r none
      obtain ⟨m, answer⟩ := b.addToManager r none
      rintro ⟨⟩
      cases answer' with
      | error e => rfl
      | ok =>
        unfold storeTableMetadata
        simp only [reduceCtorEq, false_or, hstore]
        split <;> rfl

/-- The table is registered, or nothing is, or it is a REST table that was registered before. -/
theorem addToManager_cases (b : MoonlinkBackend) (r : CreateRequest) (fails : Option CreateStep) :
    ((b.addToManager r fails).2 = .ok () ∧ b.replicationManager.Adds r fails ∧
        b.replicationManager.Registered r (b.addToManager r fails).1) ∨
      ((∃ e, (b.addToManager r fails).2 = .error e) ∧
        ((b.replicationManager.Adds r fails → r.srcUri = restApiUri →
            b.replicationManager.tableInfo.lookup r.id = none) →
          b.replicationManager.SameTables (b.addToManager r fails).1)) := by
  unfold addToManager
  split
  · rename_i hrest
    obtain hok | ⟨herror, hsame⟩ := b.replicationManager.addRestTable_cases r fails hrest
    · exact .inl hok
    · exact .inr ⟨herror, fun hnew => hsame fun hadds => hnew hadds hrest⟩
  · rename_i hrest
    obtain hok | ⟨herror, hsame⟩ := b.replicationManager.addTable_cases r fails hrest
    · exact .inl hok
    · exact .inr ⟨herror, fun _ => hsame⟩

/-- What a creation does: nothing at all, or it registers the table in every place. -/
theorem createTable_cases {fails : Option CreateStep} (hclean : b.Clean (.createTable r fails)) :
    ((∃ e, (b.createTable r fails).2 = .error e) ∧
        b.replicationManager.SameTables (b.createTable r fails).1.replicationManager ∧
        (b.createTable r fails).1.metadataStore = b.metadataStore) ∨
      ((b.createTable r fails).2 = .ok () ∧
        b.replicationManager.Registered r (b.createTable r fails).1.replicationManager ∧
        (b.createTable r fails).1.metadataStore =
          b.metadataStore.insert r.id (r.srcTableName, r.srcUri)) := by
  change _ → _ → _ at hclean
  unfold createTable
  cases hcheck : checkCreate r fails with
  | error e => exact .inl ⟨⟨e, rfl⟩, .refl _, rfl⟩
  | ok =>
    rw [hcheck] at hclean
    have hadd := b.addToManager_cases r fails
    generalize b.addToManager r fails = outcome at hadd ⊢
    obtain ⟨m, answer⟩ := outcome
    obtain ⟨rfl, hadds, hregistered⟩ | ⟨⟨e, rfl⟩, hsame⟩ := hadd
    · have hstore := hclean rfl hadds
      rw [hregistered.isNew] at hstore
      obtain ⟨hfails, hrow⟩ := hstore
      dsimp only
      unfold storeTableMetadata
      rw [if_neg (by simp [hfails, hrow])]
      exact .inr ⟨rfl, hregistered, rfl⟩
    · refine .inl ⟨⟨e, rfl⟩, hsame fun hadds hrest => ?_, rfl⟩
      -- A REST table that is registered is not created again.
      have hstore := hclean rfl hadds
      split at hstore
      · exact absurd hrest hstore
      · rename_i hnew
        exact Option.not_isSome_iff_eq_none.mp hnew

theorem Inv.createTable {fails : Option CreateStep} (h : Inv b)
    (hclean : b.Clean (.createTable r fails)) : Inv (b.createTable r fails).1 := by
  obtain ⟨-, hsame, hstore⟩ | ⟨-, hregistered, hstore⟩ := createTable_cases hclean
  · refine ⟨h.agree.sameTables hsame, fun id info hinfo => ?_⟩
    rw [hsame.tableInfo] at hinfo
    rw [hstore]
    exact h.stored id info hinfo
  · refine ⟨h.agree.registered hregistered, fun id info hinfo => ?_⟩
    obtain ⟨srcTableId, hnew, -⟩ := hregistered.entry
    rw [hnew, AssocMap.lookup_insert_ite] at hinfo
    rw [hstore, AssocMap.lookup_insert_ite]
    split
    · rfl
    · rename_i hid
      rw [if_neg hid] at hinfo
      exact h.stored id info hinfo

variable {fails : Option DropStep}

/-- What a drop without failing steps does: nothing, or it removes a registered table from
every place. -/
theorem dropTable_cases (h : Inv b) (hclean : b.Clean (.dropTable id fails)) :
    (b.dropTable id fails).1 = b ∧ ((∃ e, (b.dropTable id fails).2 = .error e) ∨
        b.replicationManager.tableInfo.lookup id = none) ∨
      ((b.dropTable id fails).2 = .ok () ∧
        (b.dropTable id fails).1.metadataStore = b.metadataStore.erase id ∧
        ∃ uri srcTableId, b.replicationManager.tableInfo.lookup id = some (uri, srcTableId) ∧
          (b.dropTable id fails).1.replicationManager =
            (b.replicationManager.unregister id uri srcTableId).shutdownIfUnused uri
              ((b.replicationManager.unregister id uri srcTableId).connectionAt uri)) := by
  change _ → _ at hclean
  unfold dropTable
  cases id.validate with
  | error e => exact .inl ⟨rfl, .inl ⟨e, rfl⟩⟩
  | ok =>
    cases hinfo : b.replicationManager.tableInfo.lookup id with
    | none =>
      have hdrop : b.replicationManager.dropTable id fails = (b.replicationManager, .ok false) := by
        unfold ReplicationManager.dropTable
        rw [hinfo]
      rw [hdrop]
      exact .inl ⟨rfl, .inr rfl⟩
    | some info =>
      obtain ⟨uri, srcTableId⟩ := info
      rw [hinfo] at hclean
      cases hclean rfl
      rw [h.agree.dropTable_eq hinfo]
      have hrow := h.stored id _ hinfo
      dsimp only
      unfold deleteTableMetadata
      rw [if_neg (by simpa using Option.isSome_iff_ne_none.mp hrow)]
      exact .inr ⟨rfl, rfl, uri, srcTableId, rfl, rfl⟩

theorem Inv.dropTable (h : Inv b) (hclean : b.Clean (.dropTable id fails)) :
    Inv (b.dropTable id fails).1 := by
  obtain ⟨hsame, -⟩ | ⟨-, hstore, uri, srcTableId, hinfo, hmanager⟩ := dropTable_cases h hclean
  · rw [hsame]
    exact h
  · obtain ⟨hagree, -, hlook⟩ := (h.agree.unregister hinfo).shutdownIfUnused_spec uri
    rw [← hmanager] at hagree hlook
    refine ⟨hagree, fun id' info hinfo' => ?_⟩
    have hold := hlook id' info hinfo'
    rw [ReplicationManager.lookup_unregister] at hold
    rw [hstore, AssocMap.lookup_erase_ite]
    split
    · rename_i hid
      rw [if_pos hid] at hold
      cases hold
    · rename_i hid
      rw [if_neg hid] at hold
      exact h.stored id' info hold

theorem Inv.initializeEventApi (h : Inv b) : Inv (b.handle .initializeEventApi).1 := by
  change Inv { b with replicationManager := b.replicationManager.initializeEventApiForOnce }
  unfold ReplicationManager.initializeEventApiForOnce
  split
  · exact h
  · rename_i hnone
    refine ⟨fun uri id srcTableId => ?_, h.stored⟩
    refine Iff.trans ?_ (h.agree uri id srcTableId)
    unfold ReplicationManager.stateAt
    rw [ReplicationManager.connectionAt_setConnection]
    split
    · rename_i heq
      rw [heq, ReplicationManager.connectionAt_of_none hnone]
    · rfl

theorem Inv.handle (h : Inv b) {a : RegistryAction} (hclean : b.Clean a) : Inv (b.handle a).1 := by
  cases a with
  | initializeEventApi => exact h.initializeEventApi
  | createTable r fails => exact h.createTable hclean
  | dropTable id fails => exact h.dropTable hclean
  | shutdownConnection uri postgresDropAll =>
    exact ⟨h.agree.shutdownConnection uri postgresDropAll, fun id info hinfo =>
      h.stored id info (ReplicationManager.lookup_shutdownConnection hinfo)⟩

theorem Inv.dropsUnusedSlots (h : Inv b)
    (hclean : b.Clean (.dropTable id fails)) :
    b.replicationManager.DropsUnusedSlots (b.dropTable id fails).1.replicationManager (some id) := by
  obtain ⟨hsame, -⟩ | ⟨-, -, uri, srcTableId, hinfo, hmanager⟩ := dropTable_cases h hclean
  · rw [hsame]
    exact .inl rfl
  · obtain ⟨-, hslots, -⟩ := (h.agree.unregister hinfo).shutdownIfUnused_spec uri
    rw [hmanager]
    obtain hkept | ⟨uri', hmore, hunused⟩ := hslots
    · exact .inl hkept
    · refine .inr ⟨uri', hmore, fun id' srcTableId' hinfo' => ?_⟩
      by_contra hid
      have hother : id' ≠ id := fun heq => hid (by rw [heq])
      cases hunused id' srcTableId' (by rw [ReplicationManager.lookup_unregister, if_neg hother, hinfo'])

theorem Inv.behaves (h : Inv b) {a : RegistryAction} (hclean : b.Clean a) : Behaves b a where
  create r fails e ha herror := by
    subst ha
    obtain ⟨-, hsame, hstore⟩ | ⟨hok, -, -⟩ := createTable_cases hclean
    · exact .of_sameTables hsame hstore
    · change (b.createTable r fails).2 = _ at herror
      rw [hok] at herror
      cases herror
  drop id fails e ha herror hregistered := by
    subst ha
    change (b.dropTable id fails).2 = _ at herror
    obtain ⟨hsame, -⟩ | ⟨hok, -, -⟩ := dropTable_cases h hclean
    · change UsableOrDroppable (b.dropTable id fails).1 id
      rw [hsame]
      obtain ⟨⟨uri, srcTableId⟩, hinfo⟩ := Option.isSome_iff_exists.mp hregistered
      cases hget : b.replicationManager.getTableState id with
      | ok name => exact .inl ⟨name, hget⟩
      | error e' =>
        obtain ⟨c, hc, hstate⟩ := h.agree.entries hinfo
        obtain ⟨name, hname⟩ := Option.isSome_iff_exists.mp hstate
        unfold ReplicationManager.getTableState at hget
        simp only [hinfo, hc, hname] at hget
        cases hget
    · rw [hok] at herror
      cases herror
  slots := by
    cases a with
    | initializeEventApi =>
      change ReplicationManager.DropsUnusedSlots _
        b.replicationManager.initializeEventApiForOnce none
      unfold ReplicationManager.initializeEventApiForOnce
      split <;> exact .inl rfl
    | createTable r fails =>
      obtain ⟨-, hsame, -⟩ | ⟨-, hregistered, -⟩ := createTable_cases hclean
      · exact .inl hsame.droppedSlots
      · exact .inl hregistered.droppedSlots
    | dropTable id fails => exact h.dropsUnusedSlots hclean
    | shutdownConnection uri postgresDropAll =>
      obtain hkept | ⟨hdrop, hsource, hmore⟩ :=
        b.replicationManager.shutdownConnection_droppedSlots uri postgresDropAll
      · exact .inl hkept
      · refine .inr ⟨uri, hmore, fun id srcTableId hinfo => ?_⟩
        exact absurd rfl (hclean hdrop hsource _ (AssocMap.mem_values_iff.mpr ⟨id, hinfo⟩))

/-- In a run of clean requests the registry is consistent in every state, and every further
clean request behaves. -/
theorem registry_consistent_of_clean {actions : List RegistryAction}
    (hmeets : RunMeets next Clean .new actions) (hrun : run .new actions = some b) :
    b.replicationManager.Consistent ∧ ∀ a, b.Clean a → b.Behaves a := by
  have hinv : Inv b := by
    refine hmeets.invariant (I := Inv) ?_ hrun .new
    rintro b a _ hb hclean ⟨⟩
    exact hb.handle hclean
  exact ⟨hinv.agree.consistent, fun a hclean => hinv.behaves hclean⟩

/-! ## Runs -/

def ordersRequest : CreateRequest := ⟨⟨"db", "orders"⟩, "public.orders", "postgresql://source", false, 16400⟩

def itemsRequest : CreateRequest := ⟨⟨"db", "items"⟩, "public.items", "postgresql://source", false, 16401⟩

/-- A creation fails at the source and is repeated; the second table is dropped, then the first. -/
def retriedRun : List RegistryAction :=
  [.createTable ordersRequest (some .addToSource), .createTable ordersRequest none,
    .createTable itemsRequest none, .dropTable itemsRequest.id none, .dropTable ordersRequest.id none]

theorem registry_consistent_of_clean_retriedRun :
    ∃ b, run .new retriedRun = some b ∧ b.replicationManager.droppedSlots = ["postgresql://source"] ∧
      b.replicationManager.Consistent ∧ ∀ a, b.Clean a → b.Behaves a := by
  have happly : ∀ b, run .new retriedRun = some b →
      b.replicationManager.Consistent ∧ ∀ a, b.Clean a → b.Behaves a := fun b hrun =>
    registry_consistent_of_clean (by decide +kernel) hrun
  exact ⟨_, rfl, by decide +kernel, happly _ rfl⟩

/-- The first table cannot be dropped from its handler. -/
def failedDropRun : List RegistryAction :=
  [.createTable ordersRequest none, .createTable itemsRequest none,
    .dropTable ordersRequest.id (some .dropFromHandler)]

/-- The getters panic on a table whose drop failed, it cannot be dropped again, and the drop of
the other table takes the slot along while it is still registered. A table whose metadata
cannot be stored stays registered. -/
theorem failed_steps_break_registry :
    (∃ b, run .new failedDropRun = some b ∧ ¬ b.replicationManager.Consistent ∧
      b.replicationManager.getTableState ordersRequest.id = .error .tableStateMissing ∧
      (b.dropTable ordersRequest.id none).2 = .error .tableNotFound ∧
      ¬ b.Behaves (.dropTable itemsRequest.id none)) ∧
    (new.createTable ordersRequest (some .storeMetadata)).2 = .error .metadataStoreFailed ∧
      ¬ new.Behaves (.createTable ordersRequest (some .storeMetadata)) := by
  refine ⟨⟨_, rfl, fun hcons => ?_, by decide +kernel, by decide +kernel, fun hbehaves => ?_⟩,
    by decide +kernel, fun hbehaves => ?_⟩
  · cases hcons.getTableState ordersRequest.id .tableStateMissing (by decide +kernel)
  · have hafter := hbehaves.slots
    rw [ReplicationManager.DropsUnusedSlots, show (MoonlinkBackend.handle _ _).1.replicationManager.droppedSlots =
      ["postgresql://source"] by decide +kernel, show ReplicationManager.droppedSlots _ = [] by decide +kernel] at hafter
    obtain hkept | ⟨uri, hmore, hunused⟩ := hafter
    · cases hkept
    · cases hmore
      exact absurd (hunused ordersRequest.id 16400 (by decide +kernel)) (by decide +kernel)
  · have htables := (hbehaves.create _ _ .metadataStoreFailed rfl (by decide +kernel)).sameTables.tableInfo
    have hentry := congrArg (AList.lookup ordersRequest.id) htables
    exact absurd hentry (by decide +kernel)

end MoonlinkBackend
end Moonlink.Registry
