-- SUMMARY: When the identity check may be skipped: matching by identity strands no deletion exactly if the check is an equivalence on the stored rows.
import Moonlink.Storage.DeletionMatching

namespace Moonlink.Storage

open Lib

/-- Where a row is stored. -/
inductive Place where
  | inBatch (batch : Row.RecordBatch) (offset : Nat)
  | inFile (file : Row.ParquetFile) (position : Nat)

/-- The check of an identity against the row at a place. -/
def Place.check (identity : Row.IdentityProp) (values : List Row.RowValue) : Place → Except Row.ComparePanic Bool
  | inBatch batch offset => Row.equalsRecordBatchAtOffset values batch offset identity
  | inFile file position => Row.equalsParquetAtOffset values file position identity

/-- A place with the row that was put there. -/
structure Target where
  place : Place
  row : List Row.RowValue

/-- The identity of the row `row` is found at `place`. -/
def Identifies (identity : Row.IdentityProp) (row : List Row.RowValue) (place : Place) : Prop :=
  ∃ values, identity.extractIdentityColumns row = .ok (some values) ∧ place.check identity values = .ok true

/-- The deletions of the rows carry an identity, and the check is an equivalence of the places. -/
structure DecidesIdentity (identity : Row.IdentityProp) (S : Set Target) : Prop where
  carried : ∀ t ∈ S, ∃ values, identity.extractIdentityColumns t.row = .ok (some values)
  returns : ∀ t ∈ S, ∀ t' ∈ S, ∀ values, identity.extractIdentityColumns t.row = .ok (some values) →
    ∃ b, t'.place.check identity values = .ok b
  equivalence : Equivalence fun t t' : S => Identifies identity t.1.row t'.1.place

namespace StoredRows

variable {s : StoredRows}

/-- The row at a location is stored at a place. -/
def PlaceAt (s : StoredRows) : RecordLocation → Place → Prop
  | .memoryBatch batchId rowIdx, .inBatch batch offset =>
    ∃ deletions, s.batches.lookup batchId = some ⟨some batch, deletions⟩ ∧ rowIdx = offset
  | .diskFile fileId rowIdx, .inFile file position =>
    ∃ deletions, s.diskFiles.lookup fileId = some ⟨file, deletions⟩ ∧ rowIdx = position
  | _, _ => False

variable {loc : RecordLocation}

theorem matchesIdentity_eq {place : Place} (h : s.PlaceAt loc place)
    (values : List Row.RowValue) :
    s.matchesIdentity values loc = (place.check s.rowIdentity values).mapError .compare := by
  cases loc <;> cases place
  case memoryBatch.inBatch =>
    obtain ⟨deletions, hlook, rfl⟩ := h
    simp only [matchesIdentity, hlook]
    rfl
  case diskFile.inFile =>
    obtain ⟨deletions, hlook, rfl⟩ := h
    simp only [matchesIdentity, hlook]
    rfl
  all_goals cases h

/-- Deletions with one key and LSN, and candidates at different places of `S`, among which each
deletion has the place of its row for its own. -/
structure Situation (s : StoredRows) (S : Set Target) (deletions : List RowDeletion)
    (candidates : List RecordLocation) : Prop where
  nonempty : deletions ≠ []
  alike : ∀ d ∈ deletions, ∀ d' ∈ deletions, d.lookupKey = d'.lookupKey ∧ d.lsn = d'.lsn
  distinct : candidates.Nodup
  targets : ∃ targets rows, (∀ t ∈ targets, t ∈ S) ∧
    List.Forall₂ (fun loc (t : Target) => s.PlaceAt loc t.place) candidates targets ∧
    List.Forall₂ (fun (d : RowDeletion) row => s.rowIdentity.extractIdentityColumns row = .ok d.rowIdentity)
      deletions rows ∧ rows.Subperm (targets.map Target.row)

/-- In every such situation the matching by identity returns, and the deletions are assigned to the same
positions by the code, which skips it where the numbers are equal. -/
def SkippingIsSound (identity : Row.IdentityProp) (S : Set Target) : Prop :=
  ∀ (s : StoredRows) (deletions : List RowDeletion) (indexLookupResult candidates : List RecordLocation)
    (fileIdToLsn batchIdToLsn : AssocMap Nat Nat), s.rowIdentity = identity →
    s.activeCandidates deletions fileIdToLsn batchIdToLsn indexLookupResult = .ok candidates →
    s.Situation S deletions candidates →
    Returns (s.disambiguate candidates deletions) fun matched =>
      Returns (s.matchDeletionsWithIdenticalKeyAndLsn deletions indexLookupResult fileIdToLsn batchIdToLsn false)
        fun processed => (processed.map (·.pos)).Perm (matched.map (·.pos))

/-! ## Matching by identity as a greedy assignment -/

/-- The check of a deletion, which needs its identity. -/
def checkDeletion (s : StoredRows) (deletion : RowDeletion) (loc : RecordLocation) : Except MatchPanic Bool :=
  match deletion.rowIdentity with
  | none => .error .missingIdentity
  | some values => s.matchesIdentity values loc

theorem checkDeletion_eq {deletion : RowDeletion} {values : List Row.RowValue}
    (h : deletion.rowIdentity = some values) : s.checkDeletion deletion = s.matchesIdentity values := by
  funext loc
  unfold checkDeletion
  rw [h]

/-- The positions are those of the greedy assignment. -/
theorem disambiguate_eq (s : StoredRows) (candidates : List RecordLocation) {deletions : List RowDeletion}
    (h : ∀ d ∈ deletions, ∃ values, d.rowIdentity = some values) :
    (do let matched ← s.disambiguate candidates deletions; return matched.map (·.pos)) =
      Greedy.assign s.checkDeletion .noMatch candidates deletions := by
  induction deletions generalizing candidates with
  | nil => rfl
  | cons d rest ih =>
    obtain ⟨⟨values, hvalues⟩, hrest⟩ := List.forall_mem_cons.mp h
    unfold disambiguate Greedy.assign
    rw [checkDeletion_eq hvalues, hvalues]
    simp only [bind_assoc]
    refine bind_congr fun idx => ?_
    cases idx with
    | none => rfl
    | some idx =>
      cases hget : candidates[idx]? with
      | none =>
        simp only [hget]
        rfl
      | some loc =>
        simp only [hget]
        rw [← ih (Greedy.swapRemove candidates idx) hrest]
        simp only [bind_assoc]
        rfl

/-! ## The check decides the identity -/

/-- The places where the row is found. -/
def foundAt (identity : Row.IdentityProp) (S : Set Target) (row : List Row.RowValue) : Set Target :=
  {t | t ∈ S ∧ Identifies identity row t.place}

variable {identity : Row.IdentityProp} {S : Set Target} {t t' : Target}

/-- A row is found at the places of its class. -/
theorem identifies_iff (h : DecidesIdentity identity S) (ht : t ∈ S) (ht' : t' ∈ S) :
    Identifies identity t.row t'.place ↔ foundAt identity S t'.row = foundAt identity S t.row := by
  constructor
  · intro hmatch
    ext x
    constructor
    · rintro ⟨hx, hfound⟩
      exact ⟨hx, h.equivalence.trans (x := ⟨t, ht⟩) (y := ⟨t', ht'⟩) (z := ⟨x, hx⟩) hmatch hfound⟩
    · rintro ⟨hx, hfound⟩
      have hback := h.equivalence.symm (x := ⟨t, ht⟩) (y := ⟨t', ht'⟩) hmatch
      exact ⟨hx, h.equivalence.trans (x := ⟨t', ht'⟩) (y := ⟨t, ht⟩) (z := ⟨x, hx⟩) hback hfound⟩
  · intro heq
    have hself : t' ∈ foundAt identity S t'.row := ⟨ht', h.equivalence.refl ⟨t', ht'⟩⟩
    rw [heq] at hself
    exact hself.2

/-- The class of a deletion, by the identity that it carries. -/
def demand (identity : Row.IdentityProp) (S : Set Target) (d : RowDeletion) : Set Target :=
  {x | x ∈ S ∧ ∃ values, d.rowIdentity = some values ∧ x.place.check identity values = .ok true}

/-- The class of the row that is stored at a location. -/
def supply (s : StoredRows) (S : Set Target) (loc : RecordLocation) : Set Target :=
  {x | ∃ t ∈ S, s.PlaceAt loc t.place ∧ x ∈ foundAt s.rowIdentity S t.row}

theorem demand_eq {d : RowDeletion} {row : List Row.RowValue}
    (h : identity.extractIdentityColumns row = .ok d.rowIdentity) : demand identity S d = foundAt identity S row := by
  ext x
  unfold demand foundAt Identifies
  rw [h]
  simp only [Except.ok.injEq]

theorem PlaceAt.unique {place place' : Place} (h : s.PlaceAt loc place)
    (h' : s.PlaceAt loc place') : place = place' := by
  cases loc with
  | memoryBatch batchId rowIdx =>
    cases place with
    | inFile file position => cases h
    | inBatch batch offset =>
      cases place' with
      | inFile file position => cases h'
      | inBatch batch' offset' =>
        obtain ⟨deletions, hlook, rfl⟩ := h
        obtain ⟨deletions', hlook', rfl⟩ := h'
        rw [hlook] at hlook'
        cases hlook'
        rfl
  | diskFile fileId rowIdx =>
    cases place with
    | inBatch batch offset => cases h
    | inFile file position =>
      cases place' with
      | inBatch batch offset => cases h'
      | inFile file' position' =>
        obtain ⟨deletions, hlook, rfl⟩ := h
        obtain ⟨deletions', hlook', rfl⟩ := h'
        rw [hlook] at hlook'
        cases hlook'
        rfl

theorem supply_eq (h : DecidesIdentity s.rowIdentity S) (ht : t ∈ S)
    (hplace : s.PlaceAt loc t.place) : s.supply S loc = foundAt s.rowIdentity S t.row := by
  ext x
  constructor
  · rintro ⟨t', ht', hplace', hx⟩
    have hmatch : Identifies s.rowIdentity t'.row t.place := by
      rw [hplace.unique hplace']
      exact h.equivalence.refl ⟨t', ht'⟩
    rwa [(identifies_iff h ht' ht).mp hmatch]
  · intro hx
    exact ⟨t, ht, hplace, hx⟩

theorem map_eq_of_forall₂ {α β γ : Type} {R : α → β → Prop} {f : α → γ} {g : β → γ} {as : List α} {bs : List β}
    (h : List.Forall₂ R as bs) (hfg : ∀ a ∈ as, ∀ b ∈ bs, R a b → f a = g b) : as.map f = bs.map g := by
  induction h with
  | nil => rfl
  | cons hhead htail ih =>
    rw [List.map_cons, List.map_cons, hfg _ List.mem_cons_self _ List.mem_cons_self hhead,
      ih fun a ha b hb => hfg a (List.mem_cons_of_mem _ ha) b (List.mem_cons_of_mem _ hb)]

/-- Every deletion gets a candidate of its own. -/
theorem Situation.assigned (h : DecidesIdentity s.rowIdentity S) {deletions : List RowDeletion}
    {candidates : List RecordLocation} (hsituation : s.Situation S deletions candidates) :
    Returns (Greedy.assign s.checkDeletion .noMatch candidates deletions) fun taken =>
      taken.length = deletions.length ∧ taken.Subperm candidates := by
  obtain ⟨targets, rows, hS, hplaces, hrows, hsub⟩ := hsituation.targets
  refine Greedy.assign_returns (s.supply S) (demand s.rowIdentity S) ?_ ?_
  · intro d hd loc hloc
    obtain ⟨row, hrow, hextract⟩ := exists_of_mem_left hrows hd
    obtain ⟨t, ht, hplace⟩ := exists_of_mem_left hplaces hloc
    obtain ⟨t₀, ht₀, rfl⟩ := List.mem_map.mp (hsub.subset hrow)
    obtain ⟨values, hvalues⟩ := h.carried t₀ (hS t₀ ht₀)
    obtain ⟨b, hb⟩ := h.returns t₀ (hS t₀ ht₀) t (hS t ht) values hvalues
    rw [hvalues, Except.ok.injEq] at hextract
    refine ⟨b, ?_, ?_⟩
    · rw [checkDeletion_eq hextract.symm, matchesIdentity_eq hplace, hb]
      rfl
    · rw [demand_eq (by rw [hvalues, hextract]), supply_eq h (hS t ht) hplace, ← identifies_iff h (hS t₀ ht₀) (hS t ht)]
      constructor
      · rintro rfl
        exact ⟨values, hvalues, hb⟩
      · rintro ⟨values', hvalues', htrue⟩
        rw [hvalues] at hvalues'
        cases hvalues'
        exact Except.ok.inj (hb.symm.trans htrue)
  · have hdemand : deletions.map (demand s.rowIdentity S) = rows.map (foundAt s.rowIdentity S) :=
      map_eq_of_forall₂ hrows fun d _ row _ hextract => demand_eq hextract
    have hsupply : candidates.map (s.supply S) = targets.map fun t => foundAt s.rowIdentity S t.row :=
      map_eq_of_forall₂ hplaces fun loc _ t ht hplace => supply_eq h (hS t ht) hplace
    rw [hdemand, hsupply]
    have hclasses := Greedy.subperm_map (foundAt s.rowIdentity S) hsub
    rwa [List.map_map] at hclasses

theorem sound_of_decides (h : DecidesIdentity identity S) : SkippingIsSound identity S := by
  rintro s deletions indexLookupResult candidates fileIdToLsn batchIdToLsn rfl hactive hsituation
  obtain ⟨targets, rows, hS, hplaces, hrows, hsub⟩ := hsituation.targets
  have hcarried : ∀ d ∈ deletions, ∃ values, d.rowIdentity = some values := by
    intro d hd
    obtain ⟨row, hrow, hextract⟩ := exists_of_mem_left hrows hd
    obtain ⟨t, ht, rfl⟩ := List.mem_map.mp (hsub.subset hrow)
    obtain ⟨values, hvalues⟩ := h.carried t (hS t ht)
    exact ⟨values, Except.ok.inj (hextract.symm.trans hvalues)⟩
  obtain ⟨taken, htaken, hlen, hown⟩ := hsituation.assigned h
  rw [← disambiguate_eq s candidates hcarried] at htaken
  obtain ⟨matched, hmatched, hpos⟩ := bind_eq_ok.mp htaken
  rw [pure_eq_ok_iff] at hpos
  refine ⟨matched, hmatched, ?_⟩
  have hle : deletions.length ≤ candidates.length := hlen ▸ hown.length_le
  unfold matchDeletionsWithIdenticalKeyAndLsn
  rw [hactive, ok_bind, if_neg Bool.false_ne_true]
  by_cases hequal : candidates.length = deletions.length
  · rw [if_pos hequal]
    refine .pure ?_
    have hall : ((candidates.zip deletions).map fun c => SnapshotTableState.buildProcessedDeletion c.2 c.1).map (·.pos) =
        candidates := by
      rw [List.map_map]
      exact List.map_fst_zip (Nat.le_of_eq hequal)
    rw [hall, hpos]
    exact (Greedy.perm_of_taken hown (hequal.trans hlen.symm)).symm
  · rw [if_neg hequal, if_neg (Nat.not_lt_of_le hle), hmatched]
    exact .ok (List.Perm.refl _)

/-! ## Copies of a place -/

def location (i : Nat) (t : Target) : RecordLocation :=
  match t.place with
  | .inBatch _ offset => .memoryBatch i offset
  | .inFile _ position => .diskFile i position

def batchesOf (start : Nat) : List Target → AssocMap Nat StoredBatch
  | [] => ∅
  | t :: rest =>
    match t.place with
    | .inBatch batch _ => (batchesOf (start + 1) rest).insert start ⟨some batch, .new batch.numRows⟩
    | .inFile _ _ => batchesOf (start + 1) rest

def filesOf (start : Nat) : List Target → AssocMap FileId StoredFile
  | [] => ∅
  | t :: rest =>
    match t.place with
    | .inBatch _ _ => filesOf (start + 1) rest
    | .inFile file _ => (filesOf (start + 1) rest).insert start ⟨file, .new file.rowGroups.sum⟩

/-- Every place is in a batch or a file of its own, where no row is deleted. -/
def copies (identity : Row.IdentityProp) (targets : List Target) : StoredRows :=
  ⟨batchesOf 0 targets, filesOf 0 targets, identity⟩

variable {targets : List Target}

theorem lookup_batchesOf {n i offset : Nat} {batch : Row.RecordBatch}
    (h : targets[i]? = some t) (hplace : t.place = .inBatch batch offset) :
    (batchesOf n targets).lookup (n + i) = some ⟨some batch, .new batch.numRows⟩ := by
  induction targets generalizing n i with
  | nil => cases h
  | cons t' rest ih =>
    unfold batchesOf
    cases i with
    | zero =>
      cases h
      rw [hplace]
      exact AList.lookup_insert _
    | succ i =>
      have hrest := ih (n := n + 1) h
      rw [Nat.add_assoc, Nat.add_comm 1] at hrest
      split
      · rw [AList.lookup_insert_ne (by omega)]
        exact hrest
      · exact hrest

theorem lookup_filesOf {n i position : Nat} {file : Row.ParquetFile}
    (h : targets[i]? = some t) (hplace : t.place = .inFile file position) :
    (filesOf n targets).lookup (n + i) = some ⟨file, .new file.rowGroups.sum⟩ := by
  induction targets generalizing n i with
  | nil => cases h
  | cons t' rest ih =>
    unfold filesOf
    cases i with
    | zero =>
      cases h
      rw [hplace]
      exact AList.lookup_insert _
    | succ i =>
      have hrest := ih (n := n + 1) h
      rw [Nat.add_assoc, Nat.add_comm 1] at hrest
      split
      · exact hrest
      · rw [AList.lookup_insert_ne (by omega)]
        exact hrest

theorem copies_placeAt {i : Nat} (h : targets[i]? = some t) :
    (copies identity targets).PlaceAt (location i t) t.place ∧
      (copies identity targets).isDeleted (location i t) = .ok false := by
  unfold location
  cases hplace : t.place with
  | inBatch batch offset =>
    have hlook := lookup_batchesOf (n := 0) h hplace
    rw [Nat.zero_add] at hlook
    refine ⟨⟨_, hlook, rfl⟩, ?_⟩
    simp only [isDeleted, copies, hlook]
    rfl
  | inFile file position =>
    have hlook := lookup_filesOf (n := 0) h hplace
    rw [Nat.zero_add] at hlook
    refine ⟨⟨_, hlook, rfl⟩, ?_⟩
    simp only [isDeleted, copies, hlook]
    rfl

/-- The deletion of the row of a place. -/
def deletionOf (identity : Row.IdentityProp) (t : Target) : RowDeletion where
  lookupKey := 0
  rowIdentity := (identity.extractIdentityColumns t.row).toOption.join
  pos := none
  lsn := 0
  deleteIfExists := false

theorem extract_deletionOf (h : ∃ i, identity.extractIdentityColumns t.row = .ok i) :
    identity.extractIdentityColumns t.row = .ok (deletionOf identity t).rowIdentity := by
  obtain ⟨i, hi⟩ := h
  unfold deletionOf
  rw [hi]
  cases i <;> rfl

def index : RecordLocation → Nat
  | .memoryBatch batchId _ => batchId
  | .diskFile fileId _ => fileId

theorem index_location (i : Nat) (t : Target) : index (location i t) = i := by
  unfold location
  cases t.place <;> rfl

/-- Where the copies are. -/
def locations (targets : List Target) : List RecordLocation := targets.mapIdx location

theorem locations_nodup (targets : List Target) : (locations targets).Nodup := by
  refine List.Nodup.of_map index ?_
  have hindices : (locations targets).map index = List.range targets.length := by
    refine List.ext_getElem (by simp [locations]) fun i hi hi' => ?_
    simp [locations, index_location]
  rw [hindices]
  exact List.nodup_range

theorem forall₂_locations {R : RecordLocation → Target → Prop}
    (h : ∀ i t, targets[i]? = some t → R (location i t) t) : List.Forall₂ R (locations targets) targets := by
  refine List.forall₂_iff_get.mpr ⟨by simp [locations], fun i hi hi' => ?_⟩
  have hget := h i targets[i] (List.getElem?_eq_getElem hi')
  simpa [locations] using hget

theorem activeCandidates_copies (targets : List Target) (d : RowDeletion) (deletions : List RowDeletion) :
    (copies identity targets).activeCandidates (d :: deletions) ∅ ∅ (locations targets) = .ok (locations targets) := by
  have hactive : ∀ loc ∈ locations targets, (copies identity targets).isDeleted loc = .ok false := by
    intro loc hloc
    obtain ⟨t, -, ht⟩ := exists_of_mem_left (forall₂_locations (R := fun loc _ =>
      (copies identity targets).isDeleted loc = .ok false) fun i t h => (copies_placeAt h).2) hloc
    exact ht
  generalize locations targets = locs at hactive ⊢
  induction locs with
  | nil => rfl
  | cons loc rest ih =>
    obtain ⟨hfirst, hrest⟩ := List.forall_mem_cons.mp hactive
    have hvisible : SnapshotTableState.isVisible ∅ ∅ d.lsn loc = true := by cases loc <;> rfl
    unfold activeCandidates
    rw [hfirst, ok_bind, ih hrest]
    simp only [List.head?_cons, hvisible, Bool.false_eq_true, if_false]
    rfl

variable {targets deleted : List Target}

theorem situation_copies (hextract : ∀ t ∈ S, ∃ i, identity.extractIdentityColumns t.row = .ok i)
    (htargets : ∀ t ∈ targets, t ∈ S) (hdeleted : ∀ t ∈ deleted, t ∈ S)
    (hne : deleted ≠ []) (hsub : deleted.Subperm targets) :
    (copies identity targets).Situation S (deleted.map (deletionOf identity)) (locations targets) where
  nonempty := by simpa using hne
  alike := by
    intro d hd d' hd'
    obtain ⟨t, -, rfl⟩ := List.mem_map.mp hd
    obtain ⟨t', -, rfl⟩ := List.mem_map.mp hd'
    exact ⟨rfl, rfl⟩
  distinct := locations_nodup targets
  targets := by
    refine ⟨targets, deleted.map Target.row, htargets, ?_, ?_, Greedy.subperm_map _ hsub⟩
    · exact forall₂_locations fun i t h => (copies_placeAt h).1
    · rw [List.forall₂_map_left_iff, List.forall₂_map_right_iff, List.forall₂_same]
      exact fun t ht => extract_deletionOf (hextract t (hdeleted t ht))

/-- The deletions of some of the copies are matched. -/
theorem disambiguate_copies (hextract : ∀ t ∈ S, ∃ i, identity.extractIdentityColumns t.row = .ok i)
    (hsound : SkippingIsSound identity S) (htargets : ∀ t ∈ targets, t ∈ S)
    (hsub : deleted.Subperm targets) (hne : deleted ≠ []) :
    ∃ matched, (copies identity targets).disambiguate (locations targets) (deleted.map (deletionOf identity)) =
      .ok matched := by
  have hdeleted : ∀ t ∈ deleted, t ∈ S := fun t ht => htargets t (hsub.subset ht)
  have hsituation := situation_copies hextract htargets hdeleted hne hsub
  obtain ⟨t, rest, rfl⟩ := List.exists_cons_of_ne_nil hne
  obtain ⟨matched, hmatched, -⟩ := hsound _ _ (locations targets) _ ∅ ∅ rfl
    (activeCandidates_copies targets (deletionOf identity t) (rest.map (deletionOf identity))) hsituation
  exact ⟨matched, hmatched⟩

theorem assign_copies (hextract : ∀ t ∈ S, ∃ values, identity.extractIdentityColumns t.row = .ok (some values))
    (hsound : SkippingIsSound identity S) (htargets : ∀ t ∈ targets, t ∈ S)
    (hsub : deleted.Subperm targets) (hne : deleted ≠ []) :
    ∃ taken, Greedy.assign (copies identity targets).checkDeletion .noMatch (locations targets)
      (deleted.map (deletionOf identity)) = .ok taken := by
  have hsome : ∀ t ∈ S, ∃ i, identity.extractIdentityColumns t.row = .ok i := fun t ht => by
    obtain ⟨values, hvalues⟩ := hextract t ht
    exact ⟨some values, hvalues⟩
  obtain ⟨matched, hmatched⟩ := disambiguate_copies hsome hsound htargets hsub hne
  have hcarried : ∀ d ∈ deleted.map (deletionOf identity), ∃ values, d.rowIdentity = some values := by
    intro d hd
    obtain ⟨t, ht, rfl⟩ := List.mem_map.mp hd
    obtain ⟨values, hvalues⟩ := hextract t (htargets t (hsub.subset ht))
    have hcarries := extract_deletionOf (hsome t (htargets t (hsub.subset ht)))
    exact ⟨values, Except.ok.inj (hcarries.symm.trans hvalues)⟩
  rw [← disambiguate_eq _ _ hcarried, hmatched]
  exact ⟨_, rfl⟩

theorem check_copies {i : Nat} {values : List Row.RowValue}
    (h : targets[i]? = some t') (hvalues : identity.extractIdentityColumns t.row = .ok (some values)) :
    (copies identity targets).checkDeletion (deletionOf identity t) (location i t') =
      (t'.place.check identity values).mapError .compare := by
  have hcarries : (deletionOf identity t).rowIdentity = some values :=
    Except.ok.inj ((extract_deletionOf ⟨_, hvalues⟩).symm.trans hvalues)
  rw [checkDeletion_eq hcarries, matchesIdentity_eq (copies_placeAt h).1]
  rfl

theorem mapError_eq_ok {α ε ε' : Type} {f : ε → ε'} {x : Except ε α} {a : α} : x.mapError f = .ok a ↔ x = .ok a := by
  cases x <;> simp [Except.mapError]

/-- Each part of the condition is needed: for one deletion with another place before its own, for one with
two copies of its place, and for deletions that can take away each other's places. -/
theorem decides_of_sound (hextract : ∀ t ∈ S, ∃ i, identity.extractIdentityColumns t.row = .ok i)
    (hsound : SkippingIsSound identity S) : DecidesIdentity identity S := by
  have hcarried : ∀ t ∈ S, ∃ values, identity.extractIdentityColumns t.row = .ok (some values) := by
    intro t ht
    have htargets : ∀ t' ∈ [t], t' ∈ S := by simpa using ht
    obtain ⟨matched, hmatched⟩ :=
      disambiguate_copies hextract hsound htargets (List.Subperm.refl [t]) (List.cons_ne_nil t [])
    have hcarries := extract_deletionOf (hextract t ht)
    cases hidentity : (deletionOf identity t).rowIdentity with
    | none =>
      rw [List.map_singleton, disambiguate, hidentity] at hmatched
      cases hmatched
    | some values => exact ⟨values, hcarries.trans (congrArg _ hidentity)⟩
  have hidentifies : ∀ {targets : List Target} {i : Nat} {t t' : Target}, t ∈ S → targets[i]? = some t' →
      ((copies identity targets).checkDeletion (deletionOf identity t) (location i t') = .ok true ↔
        Identifies identity t.row t'.place) := by
    intro targets i t t' ht hget
    obtain ⟨values, hvalues⟩ := hcarried t ht
    rw [check_copies hget hvalues, mapError_eq_ok]
    constructor
    · exact fun hcheck => ⟨values, hvalues, hcheck⟩
    · rintro ⟨values', hvalues', hcheck⟩
      rw [hvalues] at hvalues'
      cases hvalues'
      exact hcheck
  have hrefl : ∀ t ∈ S, Identifies identity t.row t.place := by
    intro t ht
    obtain ⟨values, hvalues⟩ := hcarried t ht
    have htargets : ∀ t' ∈ [t, t], t' ∈ S := by simpa using ht
    have hassign := assign_copies hcarried hsound htargets (List.sublist_cons_self t [t]).subperm (List.cons_ne_nil t [])
    have halike : (copies identity [t, t]).checkDeletion (deletionOf identity t) (location 1 t) =
        (copies identity [t, t]).checkDeletion (deletionOf identity t) (location 0 t) := by
      rw [check_copies rfl hvalues, check_copies rfl hvalues]
    exact (hidentifies ht rfl).mp (Greedy.check_alike_of_assign halike hassign)
  have hsymm : ∀ t ∈ S, ∀ t' ∈ S, Identifies identity t.row t'.place → Identifies identity t'.row t.place := by
    intro t ht t' ht' hmatch
    obtain ⟨values, hvalues⟩ := hcarried t' ht'
    have htargets : ∀ x ∈ [t', t, t], x ∈ S := by simp [ht, ht']
    have hsub : [t, t'].Subperm [t', t, t] :=
      (List.Perm.swap t' t []).subperm.trans (List.sublist_append_left [t', t] [t]).subperm
    have hassign := assign_copies hcarried hsound htargets hsub (List.cons_ne_nil t [t'])
    have hlater := Greedy.assign_of_first [location 1 t] ((hidentifies ht rfl).mpr hmatch) hassign
    have halike : (copies identity [t', t, t]).checkDeletion (deletionOf identity t') (location 1 t) =
        (copies identity [t', t, t]).checkDeletion (deletionOf identity t') (location 2 t) := by
      rw [check_copies rfl hvalues, check_copies rfl hvalues]
    exact (hidentifies ht' rfl).mp (Greedy.check_alike_of_assign halike hlater)
  have htrans : ∀ a ∈ S, ∀ b ∈ S, ∀ c ∈ S, Identifies identity a.row b.place → Identifies identity b.row c.place →
      Identifies identity a.row c.place := by
    intro a ha b hb c hc hab hbc
    obtain ⟨values, hvalues⟩ := hcarried c hc
    have htargets : ∀ x ∈ [b, a, a, c], x ∈ S := by simp [ha, hb, hc]
    have hsub : [a, b, c].Subperm [b, a, a, c] :=
      (List.Perm.swap b a [c]).subperm.trans (((List.sublist_cons_self a [a, c]).cons_cons b).subperm)
    have hassign := assign_copies hcarried hsound htargets hsub (List.cons_ne_nil a [b, c])
    -- The first deletion takes the place of the second one, and this takes the place of the third.
    have hsecond := Greedy.assign_of_first [location 1 a, location 2 a] ((hidentifies ha rfl).mpr hab) hassign
    have hthird := Greedy.assign_of_first [location 1 a] ((hidentifies hb rfl).mpr hbc) hsecond
    have halike : (copies identity [b, a, a, c]).checkDeletion (deletionOf identity c) (location 1 a) =
        (copies identity [b, a, a, c]).checkDeletion (deletionOf identity c) (location 2 a) := by
      rw [check_copies rfl hvalues, check_copies rfl hvalues]
    exact hsymm c hc a ha ((hidentifies hc rfl).mp (Greedy.check_alike_of_assign halike hthird))
  refine ⟨hcarried, ?_, ⟨fun t => hrefl t.1 t.2, fun {t t'} => hsymm t.1 t.2 t'.1 t'.2,
    fun {a b c} => htrans a.1 a.2 b.1 b.2 c.1 c.2⟩⟩
  intro t ht t' ht' values hvalues
  have htargets : ∀ x ∈ [t', t], x ∈ S := by simp [ht, ht']
  have hassign := assign_copies hcarried hsound htargets (List.sublist_cons_self t' [t]).subperm (List.cons_ne_nil t [])
  obtain ⟨b, hb⟩ := Greedy.check_of_assign hassign
  rw [check_copies rfl hvalues, mapError_eq_ok] at hb
  exact ⟨b, hb⟩

end StoredRows

/-- Matching by identity strands no deletion of rows of `S`, and skipping it deletes the same rows, exactly if
the check of the rows at their places is an equivalence. -/
theorem skippingIsSound_iff {identity : Row.IdentityProp} {S : Set Target}
    (hextract : ∀ t ∈ S, ∃ i, identity.extractIdentityColumns t.row = .ok i) :
    StoredRows.SkippingIsSound identity S ↔ DecidesIdentity identity S :=
  ⟨StoredRows.decides_of_sound hextract, StoredRows.sound_of_decides⟩

/-- Two rows of a batch with a 64-bit number. -/
def numbersBatch : Row.RecordBatch :=
  { columns := [.leaf .int64 [⟨true, .int64 7⟩, ⟨true, .int64 8⟩]], numRows := 2 }

def numberTargets : Set Target := {t | t = ⟨.inBatch numbersBatch 0, [.int64 7]⟩ ∨ t = ⟨.inBatch numbersBatch 1, [.int64 8]⟩}

theorem skippingIsSound_iff_numbers : StoredRows.SkippingIsSound .fullRow numberTargets := by
  have hother : ∀ {row : List Row.RowValue} {place : Place}, place.check .fullRow row = .ok false →
      ¬ Identifies .fullRow row place := by
    rintro row place hfalse ⟨values, hvalues, htrue⟩
    cases hvalues
    exact absurd (Except.ok.inj (hfalse.symm.trans htrue)) Bool.false_ne_true
  have hiff : ∀ t ∈ numberTargets, ∀ t' ∈ numberTargets, (Identifies .fullRow t.row t'.place ↔ t.row = t'.row) := by
    rintro _ (rfl | rfl) _ (rfl | rfl)
    · exact iff_of_true ⟨_, rfl, rfl⟩ rfl
    · exact iff_of_false (hother rfl) (by simp)
    · exact iff_of_false (hother rfl) (by simp)
    · exact iff_of_true ⟨_, rfl, rfl⟩ rfl
  refine (skippingIsSound_iff fun t _ => ⟨some t.row, rfl⟩).mpr ⟨fun t _ => ⟨t.row, rfl⟩, ?_, ?_⟩
  · rintro _ (rfl | rfl) _ (rfl | rfl) _ ⟨⟩
    all_goals exact ⟨_, rfl⟩
  · refine ⟨fun t => (hiff t.1 t.2 t.1 t.2).mpr rfl, fun {t t'} h => ?_, fun {t t' t''} h h' => ?_⟩
    · exact (hiff t'.1 t'.2 t.1 t.2).mpr ((hiff t.1 t.2 t'.1 t'.2).mp h).symm
    · exact (hiff t.1 t.2 t''.1 t''.2).mpr
        (((hiff t.1 t.2 t'.1 t'.2).mp h).trans ((hiff t'.1 t'.2 t''.1 t''.2).mp h'))

/-- Two equal rows of a batch with a 16-bit number. -/
def shortsBatch : Row.RecordBatch :=
  { columns := [.leaf .int16 [⟨true, .int32 5⟩, ⟨true, .int32 5⟩]], numRows := 2 }

def shortRows : StoredRows where
  batches := (∅ : AssocMap Nat StoredBatch).insert 0 ⟨some shortsBatch, .new 2⟩
  diskFiles := ∅
  rowIdentity := .fullRow

/-- The deletion of one of the rows. -/
def shortDeletion : RowDeletion := ⟨7, some [.int32 5], none, 3, false⟩

def shortTargets : Set Target := {t | ∃ offset, t = ⟨.inBatch shortsBatch offset, [.int32 5]⟩}

/-- One of two equal rows cannot be deleted, as a 16-bit number is never found. -/
theorem short_duplicate_stranded :
    shortRows.Situation shortTargets [shortDeletion] [.memoryBatch 0 0, .memoryBatch 0 1] ∧
    shortRows.activeCandidates [shortDeletion] ∅ ∅ [.memoryBatch 0 0, .memoryBatch 0 1] =
      .ok [.memoryBatch 0 0, .memoryBatch 0 1] ∧
    shortRows.matchDeletionsWithIdenticalKeyAndLsn [shortDeletion] [.memoryBatch 0 0, .memoryBatch 0 1] ∅ ∅ false =
      .error .noMatch := by
  refine ⟨⟨List.cons_ne_nil _ _, ?_, by decide, ?_⟩, rfl, rfl⟩
  · intro d hd d' hd'
    rw [List.mem_singleton.mp hd, List.mem_singleton.mp hd']
    exact ⟨rfl, rfl⟩
  · refine ⟨[⟨.inBatch shortsBatch 0, [.int32 5]⟩, ⟨.inBatch shortsBatch 1, [.int32 5]⟩], [[.int32 5]], ?_, ?_, ?_, ?_⟩
    · intro t ht
      rcases List.mem_pair.mp ht with rfl | rfl
      · exact ⟨0, rfl⟩
      · exact ⟨1, rfl⟩
    · exact .cons ⟨_, rfl, rfl⟩ (.cons ⟨_, rfl, rfl⟩ .nil)
    · exact .cons rfl .nil
    · exact (List.sublist_cons_self _ [_]).subperm

end Moonlink.Storage
