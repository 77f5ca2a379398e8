-- SUMMARY: What a column builder holds after its values, and the columns that are read back as they were.
import Moonlink.Row.ColumnArray

namespace Moonlink.Row

open Lib

namespace RowValue

def firstField : RowValue → RowValue
  | struct (v :: _) => v
  | _ => null

def restFields : RowValue → RowValue
  | struct (_ :: vals) => struct vals
  | v => v

/-- A null list has the offset of the list before it, which is where the items of that list start. -/
def NullAfterItems (v w : RowValue) : Prop := w.isValid = false ∧ v.items ≠ []

end RowValue

/-- The offsets of lists, after a list at the offset `last` and `n` items. -/
def starts (last : Int) (n : Nat) : List RowValue → List Int
  | [] => []
  | .null :: vs => last :: starts last n vs
  | v :: vs => toI32 n :: starts (toI32 n) (n + v.items.length) vs

mutual
/-- The builder that has the values `vs`. -/
def built : Field → List RowValue → ColumnArrayBuilder
  | .leaf _ type, vs => .leaf type.builder vs
  | .list kind _ item, vs =>
    .list kind item (starts 0 0 vs) (vs.map RowValue.isValid) (built item (vs.flatMap RowValue.items)) vs.length
  | .struct _ fields, vs => .struct fields (builtFields fields vs) (vs.map RowValue.isValid) vs.length
def builtFields : List Field → List RowValue → List ColumnArrayBuilder
  | [], _ => []
  | f :: fs, vs => built f (vs.map RowValue.firstField) :: builtFields fs (vs.map RowValue.restFields)
end

mutual
/-- At every level, no null list follows a list with items, and the items can be counted. -/
def Field.Readable : Field → List RowValue → Prop
  | .leaf _ _, _ => True
  | .list _ _ item, vs => vs.IsChain (fun v w => ¬ RowValue.NullAfterItems v w) ∧
      (vs.flatMap RowValue.items).length < 2 ^ 31 ∧ item.Readable (vs.flatMap RowValue.items)
  | .struct _ fields, vs => Field.AllReadable fields vs
def Field.AllReadable : List Field → List RowValue → Prop
  | [], _ => True
  | f :: fs, vs => f.Readable (vs.map RowValue.firstField) ∧ Field.AllReadable fs (vs.map RowValue.restFields)
end

/-! ## Appending -/

theorem len_built (f : Field) (vs : List RowValue) : (built f vs).len = vs.length := by
  cases f <;> simp [built, ColumnArrayBuilder.len]

variable {v : RowValue}

theorem starts_cons (hv : v.isValid = true) (last : Int) (n : Nat) (vs : List RowValue) :
    starts last n (v :: vs) = toI32 n :: starts (toI32 n) (n + v.items.length) vs := by
  cases v with
  | null => cases hv
  | _ => rfl

theorem eq_null_of_not_isValid (hv : ¬ v.isValid = true) : v = .null := by
  cases v with
  | null => rfl
  | _ => exact absurd rfl hv

theorem starts_append (last : Int) (n : Nat) (vs ws : List RowValue) : starts last n (vs ++ ws) =
    starts last n vs ++ starts ((starts last n vs).getLast?.getD last) (n + (vs.flatMap RowValue.items).length) ws := by
  induction vs generalizing last n with
  | nil => rfl
  | cons v vs ih =>
    by_cases hv : v.isValid = true
    · rw [List.cons_append, starts_cons hv, starts_cons hv, ih, List.flatMap_cons, List.length_append,
        List.getLast?_cons, Option.getD_some, ← Nat.add_assoc]
      rfl
    · rw [eq_null_of_not_isValid hv, List.cons_append, starts, starts, ih, List.getLast?_cons, Option.getD_some]
      rfl

theorem starts_snoc_null (vs : List RowValue) :
    starts 0 0 (vs ++ [.null]) = starts 0 0 vs ++ [(starts 0 0 vs).getLast?.getD 0] := by
  rw [starts_append]
  rfl

theorem starts_snoc_array (vs items : List RowValue) :
    starts 0 0 (vs ++ [.array items]) = starts 0 0 vs ++ [toI32 (vs.flatMap RowValue.items).length] := by
  rw [starts_append, Nat.zero_add]
  rfl

mutual
theorem appendNull_built (f : Field) (vs : List RowValue) : (built f vs).appendNull = built f (vs ++ [.null]) :=
  match f with
  | .leaf _ _ => by simp [built, ColumnArrayBuilder.appendNull]
  | .list _ _ _ => by
    simp only [built, ColumnArrayBuilder.appendNull, starts_snoc_null]
    simp [RowValue.isValid, RowValue.items]
  | .struct _ fields => by
    simp only [built, ColumnArrayBuilder.appendNull, appendNulls_builtFields fields vs]
    simp [RowValue.isValid]
theorem appendNulls_builtFields (fs : List Field) (vs : List RowValue) :
    ColumnArrayBuilder.appendNulls (builtFields fs vs) = builtFields fs (vs ++ [.null]) :=
  match fs with
  | [] => rfl
  | f :: fs => by
    simp only [builtFields, ColumnArrayBuilder.appendNulls, appendNull_built f, appendNulls_builtFields fs]
    simp [RowValue.firstField, RowValue.restFields]
end

variable {type : LeafType}

theorem accept_eq (h : type.Has v) : type.builder.accept v = .ok v := by
  cases type with
  | utf8 =>
    cases v with
    | byteArray bytes =>
      have hutf8 : bytes.IsValidUTF8 := h
      simp only [LeafType.builder, LeafBuilder.accept, String.fromUTF8?, dif_pos hutf8]
      rfl
    | _ => cases h
  | fixedSizeBinary n =>
    cases v with
    | fixedLenByteArray bytes => exact if_pos h
    | _ => cases h
  | _ =>
    cases v with
    | _ => first | rfl | cases h

theorem appendValue_leaf {b : LeafBuilder} {values : List RowValue} {v w : RowValue} (hv : v ≠ .null)
    (h : b.accept v = .ok w) :
    (ColumnArrayBuilder.leaf b values).appendValue v = .ok (.leaf b (values ++ [w])) := by
  cases v with
  | null => exact absurd rfl hv
  | _ =>
    simp only [ColumnArrayBuilder.appendValue, h]
    rfl

variable {f : Field}

theorem appendItems_built
    (happend : ∀ vs v, f.Has v → (built f vs).appendValue v = .ok (built f (vs ++ [v]))) (vs : List RowValue)
    {ws : List RowValue} (hws : ∀ w ∈ ws, f.Has w) :
    (built f vs).appendItems ws = .ok (built f (vs ++ ws)) := by
  induction ws generalizing vs with
  | nil => rw [List.append_nil, ColumnArrayBuilder.appendItems]
  | cons w ws ih =>
    obtain ⟨hw, hws⟩ := List.forall_mem_cons.mp hws
    rw [ColumnArrayBuilder.appendItems, happend vs w hw, ok_bind, ih _ hws, List.append_assoc]
    rfl

mutual
theorem appendValue_built (f : Field) (vs : List RowValue) (v : RowValue) (h : f.Has v) :
    (built f vs).appendValue v = .ok (built f (vs ++ [v])) :=
  match f with
  | .leaf _ type => by
    rcases h with rfl | h
    · rw [ColumnArrayBuilder.appendValue, appendNull_built]
    · have hv : v ≠ .null := by
        rintro rfl
        cases type <;> cases h
      rw [built, appendValue_leaf hv (accept_eq h)]
      rfl
  | .list kind nullable item => by
    rcases h with rfl | ⟨items, rfl, hitems⟩
    · rw [ColumnArrayBuilder.appendValue, appendNull_built]
    · have happend := appendItems_built (fun ws w => appendValue_built item ws w)
        (vs.flatMap RowValue.items) fun w hw => (hitems w hw).1
      simp only [built, ColumnArrayBuilder.appendValue, happend, ok_bind, len_built, starts_snoc_array]
      simp [RowValue.items, RowValue.isValid]
  | .struct nullable fields => by
    rcases h with rfl | ⟨vals, rfl, hvals⟩
    · rw [ColumnArrayBuilder.appendValue, appendNull_built]
    · obtain ⟨hlen, happend⟩ := appendFields_builtFields fields vs vals hvals
      simp only [built, ColumnArrayBuilder.appendValue, if_pos hlen, happend, ok_bind]
      simp [RowValue.isValid]
theorem appendFields_builtFields (fs : List Field) (vs vals : List RowValue) (h : Field.AllHave fs vals) :
    vals.length = fs.length ∧
      ColumnArrayBuilder.appendFields (builtFields fs vs) vals = .ok (builtFields fs (vs ++ [.struct vals])) :=
  match fs with
  | [] => by
    cases h
    exact ⟨rfl, rfl⟩
  | f :: fs => by
    obtain ⟨v, rest, rfl, hv, -, hrest⟩ := h
    obtain ⟨hlen, happend⟩ := appendFields_builtFields fs (vs.map RowValue.restFields) rest hrest
    refine ⟨congrArg Nat.succ hlen, ?_⟩
    simp only [builtFields, ColumnArrayBuilder.appendFields, appendValue_built f _ v hv, ok_bind, happend]
    simp [RowValue.firstField, RowValue.restFields]
end

mutual
theorem new_eq (f : Field) (h : f.Supported) : ColumnArrayBuilder.new f = .ok (built f []) :=
  match f with
  | .leaf _ _ => rfl
  | .list kind _ item => by
    obtain ⟨hmap, hitem⟩ := h
    have hassert : (decide (kind = .list) || item.isEntries) = true := by
      cases kind with
      | list => rfl
      | map => exact hmap rfl
    simp only [ColumnArrayBuilder.new, ArrayPanic.assert, if_pos hassert, ok_bind, new_eq item hitem]
    rfl
  | .struct _ fields => by
    simp only [ColumnArrayBuilder.new, newChildren_eq fields h, ok_bind]
    rfl
theorem newChildren_eq (fs : List Field) (h : Field.AllSupported fs) :
    ColumnArrayBuilder.newChildren fs = .ok (builtFields fs []) :=
  match fs with
  | [] => rfl
  | f :: fs => by
    simp only [ColumnArrayBuilder.newChildren, new_eq f h.1, newChildren_eq fs h.2, ok_bind]
    rfl
end

/-! ## Offsets -/

/-- The offsets that split the items by the lists they belong to. -/
def prefixSums (n : Nat) : List RowValue → List Int
  | [] => [(n : Int)]
  | v :: vs => (n : Int) :: prefixSums (n + v.items.length) vs

/-- The items, split by the lists they belong to. -/
def splits (items : List RowValue) : List RowValue → List (List RowValue)
  | [] => []
  | v :: vs => items.take v.items.length :: splits (items.drop v.items.length) vs

theorem toI32_of_lt {n : Nat} (h : n < 2 ^ 31) : toI32 n = (n : Int) := by
  unfold toI32
  exact Int.bmod_eq_of_le (by omega) (by omega)

theorem toI32_lt (n : Nat) : toI32 n < 2 ^ 31 := by
  unfold toI32
  have h := Int.bmod_lt (x := (n : Int)) (m := 2 ^ 32) (by decide)
  omega

theorem length_starts (last : Int) (n : Nat) (vs : List RowValue) : (starts last n vs).length = vs.length := by
  induction vs generalizing last n with
  | nil => rfl
  | cons v vs ih =>
    by_cases hv : v.isValid = true
    · rw [starts_cons hv, List.length_cons, ih, List.length_cons]
    · rw [eq_null_of_not_isValid hv, starts, List.length_cons, ih, List.length_cons]

theorem length_slices (values : List RowValue) (offsets : List Int) :
    (slices values offsets).length = offsets.length - 1 := by
  induction offsets with
  | nil => rfl
  | cons a rest ih =>
    cases rest with
    | nil => rfl
    | cons b rest =>
      rw [slices, List.length_cons, ih]
      simp

variable {vs : List RowValue}

/-- If no null list follows one with items, the offsets are those of the lists. -/
theorem starts_eq_prefixSums (last : Int) (n : Nat)
    (hchain : vs.IsChain fun v w => ¬ RowValue.NullAfterItems v w)
    (hlast : ∀ w ∈ vs.head?, w.isValid = false → last = (n : Int))
    (hbound : n + (vs.flatMap RowValue.items).length < 2 ^ 31) :
    starts last n vs ++ [toI32 (n + (vs.flatMap RowValue.items).length)] = prefixSums n vs := by
  induction vs generalizing last n with
  | nil => exact congrArg ([·]) (toI32_of_lt hbound)
  | cons v vs ih =>
    rw [List.flatMap_cons, List.length_append] at hbound ⊢
    have hbound' : n + v.items.length + (vs.flatMap RowValue.items).length < 2 ^ 31 := by omega
    have hhead : ∀ w ∈ vs.head?, w.isValid = false → v.items = [] := by
      intro w hw hnull
      by_contra hitems
      exact (List.isChain_cons.mp hchain).1 w hw ⟨hnull, hitems⟩
    rw [← Nat.add_assoc, prefixSums]
    by_cases hv : v.isValid = true
    · have hn : toI32 n = (n : Int) := toI32_of_lt (by omega)
      rw [starts_cons hv, hn, List.cons_append, ih _ _ (List.isChain_cons.mp hchain).2 _ hbound']
      intro w hw hnull
      rw [hhead w hw hnull]
      rfl
    · rw [eq_null_of_not_isValid hv] at hlast hbound' ⊢
      have heq : last = (n : Int) := hlast _ rfl rfl
      rw [starts, heq, List.cons_append]
      exact congrArg _ (ih _ _ (List.isChain_cons.mp hchain).2 (fun w _ _ => rfl) hbound')

theorem slices_prefixSums (values : List RowValue) (n : Nat) (vs : List RowValue) :
    slices values (prefixSums n vs) = splits (values.drop n) vs := by
  induction vs generalizing n with
  | nil => rfl
  | cons v vs ih =>
    have hcons : prefixSums n (v :: vs) = (n : Int) :: prefixSums (n + v.items.length) vs := rfl
    obtain ⟨tail, htail⟩ : ∃ tail, prefixSums (n + v.items.length) vs = ((n + v.items.length : Nat) : Int) :: tail := by
      cases vs with
      | nil => exact ⟨_, rfl⟩
      | cons w vs => exact ⟨_, rfl⟩
    rw [hcons, htail, slices, ← htail, ih, splits, List.drop_drop, Int.toNat_natCast, Int.toNat_natCast,
      Nat.add_sub_cancel_left]

theorem isChain_prefixSums (n : Nat) (vs : List RowValue) : (prefixSums n vs).IsChain (· ≤ ·) := by
  induction vs generalizing n with
  | nil => exact List.isChain_singleton _
  | cons v vs ih =>
    refine List.isChain_cons.mpr ⟨fun o ho => ?_, ih _⟩
    have hle : (n : Int) ≤ ((n + v.items.length : Nat) : Int) := Int.ofNat_le.mpr (Nat.le_add_right _ _)
    cases vs <;> cases ho <;> exact hle

theorem getLastD_prefixSums (n : Nat) (vs : List RowValue) (d : Int) :
    (prefixSums n vs).getLastD d = ((n + (vs.flatMap RowValue.items).length : Nat) : Int) := by
  induction vs generalizing n d with
  | nil => rfl
  | cons v vs ih => rw [prefixSums, List.getLastD_cons, ih, List.flatMap_cons, List.length_append, Nat.add_assoc]

theorem splits_flatMap (vs : List RowValue) : splits (vs.flatMap RowValue.items) vs = vs.map RowValue.items := by
  induction vs with
  | nil => rfl
  | cons v vs ih => rw [splits, List.flatMap_cons, List.take_left, List.drop_left, ih, List.map_cons]

/-! ## Reading lists -/

/-- A null or a list, as the values of a list column are. -/
def IsList (v : RowValue) : Prop := v = .null ∨ ∃ items, v = .array items

theorem ofItems_items (h : IsList v) : RowValue.ofItems v.isValid v.items = v := by
  rcases h with rfl | ⟨items, rfl⟩
  · rfl
  · rfl

theorem zipWith_ofItems (h : ∀ v ∈ vs, IsList v) :
    List.zipWith RowValue.ofItems (vs.map RowValue.isValid) (vs.map RowValue.items) = vs := by
  induction vs with
  | nil => rfl
  | cons v vs ih =>
    obtain ⟨hv, hvs⟩ := List.forall_mem_cons.mp h
    rw [List.map_cons, List.map_cons, List.zipWith_cons_cons, ofItems_items hv, ih hvs]

variable {nulls : List Bool}

theorem map_isValid_zipWith_ofItems {lists : List (List RowValue)}
    (h : nulls.length = lists.length) :
    (List.zipWith RowValue.ofItems nulls lists).map RowValue.isValid = nulls := by
  induction nulls generalizing lists with
  | nil => rfl
  | cons valid nulls ih =>
    cases lists with
    | nil => cases h
    | cons items lists =>
      rw [List.zipWith_cons_cons, List.map_cons, ih (Nat.succ.inj h)]
      cases valid <;> rfl

variable {values vs : List RowValue}

/-- A null list after one with items takes them away from it. -/
theorem isChain_of_read {last closing : Int} {n : Nat}
    (hread : List.zipWith RowValue.ofItems (vs.map RowValue.isValid) (slices values (starts last n vs ++ [closing])) =
      vs) : vs.IsChain fun v w => ¬ RowValue.NullAfterItems v w := by
  induction vs generalizing last n with
  | nil => exact .nil
  | cons v vs ih =>
    obtain ⟨start, last', n', hstarts, hstart⟩ : ∃ start last' n',
        starts last n (v :: vs) = start :: starts last' n' vs ∧ (v.isValid = true → start = last') := by
      by_cases hv : v.isValid = true
      · exact ⟨_, _, _, starts_cons hv last n vs, fun _ => rfl⟩
      · rw [eq_null_of_not_isValid hv]
        exact ⟨_, _, _, rfl, nofun⟩
    rw [hstarts, List.cons_append] at hread
    cases vs with
    | nil => exact List.isChain_singleton _
    | cons w rest =>
      obtain ⟨start', tail, htail, hnull⟩ : ∃ start' tail, starts last' n' (w :: rest) = start' :: tail ∧
          (w.isValid = false → start' = last') := by
        by_cases hw : w.isValid = true
        · exact ⟨_, _, starts_cons hw last' n' rest, fun h => absurd (hw.symm.trans h) Bool.noConfusion⟩
        · rw [eq_null_of_not_isValid hw]
          exact ⟨_, _, rfl, fun _ => rfl⟩
      rw [htail, List.cons_append, slices, List.map_cons, List.zipWith_cons_cons] at hread
      obtain ⟨hhead, hrest⟩ := List.cons.inj hread
      refine List.isChain_cons_cons.mpr ⟨?_, @ih last' n' ?_⟩
      · rintro ⟨hw, hitems⟩
        have hv : v.isValid = true := by
          by_contra hv
          exact hitems (by rw [eq_null_of_not_isValid hv]; rfl)
        rw [hnull hw, ← hstart hv, Nat.sub_self, List.take_zero, hv] at hhead
        exact hitems (by rw [← hhead]; rfl)
      · rw [htail, List.cons_append]
        exact hrest

theorem sum_length_slices_le (values : List RowValue) {first : Int} {offsets : List Int}
    (h : (first :: offsets).IsChain (· ≤ ·)) :
    ((slices values (first :: offsets)).map List.length).sum ≤
      ((first :: offsets).getLastD 0).toNat - first.toNat := by
  induction offsets generalizing first with
  | nil => simp [slices]
  | cons o rest ih =>
    obtain ⟨hle, hrest⟩ := List.isChain_cons_cons.mp h
    have ih := ih hrest
    have hlast : o.toNat ≤ ((o :: rest).getLastD 0).toNat := by
      have hmem : (o :: rest).getLastD 0 ∈ o :: rest := by
        rw [List.getLastD_eq_getLast?, List.getLast?_eq_some_getLast (List.cons_ne_nil _ _)]
        exact List.getLast_mem _
      rcases List.mem_cons.mp hmem with heq | hmem
      · rw [heq]
      · exact Int.toNat_le_toNat (List.rel_of_pairwise_cons (List.isChain_iff_pairwise.mp hrest) hmem)
    rw [slices, List.map_cons, List.sum_cons, List.getLastD_cons]
    have hslice : ((values.drop first.toNat).take (o.toNat - first.toNat)).length ≤ o.toNat - first.toNat :=
      List.length_take_le _ _
    have heq : (o :: rest).getLastD 0 = (o :: rest).getLastD first := by
      rw [List.getLastD_cons, List.getLastD_cons]
    have hle' : first.toNat ≤ o.toNat := Int.toNat_le_toNat hle
    rw [← heq]
    omega

theorem length_items_le {lists : List (List RowValue)}
    (h : List.zipWith RowValue.ofItems nulls lists = vs) :
    (vs.flatMap RowValue.items).length ≤ (lists.map List.length).sum := by
  induction nulls generalizing lists vs with
  | nil =>
    cases h
    exact Nat.zero_le _
  | cons valid nulls ih =>
    cases lists with
    | nil =>
      cases h
      exact Nat.zero_le _
    | cons items lists =>
      cases h
      rw [List.zipWith_cons_cons, List.flatMap_cons, List.length_append, List.map_cons, List.sum_cons]
      have hitems : (RowValue.ofItems valid items).items.length ≤ items.length := by
        cases valid
        · exact Nat.zero_le _
        · exact Nat.le_refl _
      exact Nat.add_le_add hitems (ih rfl)

/-- The items are those of the lists that are read. -/
theorem eq_flatMap_of_read (hlists : ∀ v ∈ vs, IsList v)
    (hlength : values.length = (vs.flatMap RowValue.items).length)
    (hread : List.zipWith RowValue.ofItems (vs.map RowValue.isValid) (splits values vs) = vs) :
    values = vs.flatMap RowValue.items := by
  induction vs generalizing values with
  | nil => exact List.eq_nil_of_length_eq_zero hlength
  | cons v vs ih =>
    obtain ⟨hv, hvs⟩ := List.forall_mem_cons.mp hlists
    rw [List.map_cons, splits, List.zipWith_cons_cons] at hread
    obtain ⟨hhead, hrest⟩ := List.cons.inj hread
    rw [List.flatMap_cons, List.length_append] at hlength
    have hdrop := ih hvs (by rw [List.length_drop]; omega) hrest
    have htake : values.take v.items.length = v.items := by
      rcases hv with rfl | ⟨items, rfl⟩
      · rfl
      · exact congrArg RowValue.items hhead
    rw [List.flatMap_cons, ← hdrop]
    calc values = values.take v.items.length ++ values.drop v.items.length := (List.take_append_drop _ _).symm
      _ = v.items ++ values.drop v.items.length := by rw [htake]

/-! ## Reading structs -/

/-- A null or a struct with these fields, as the values of a struct column are. -/
def IsRow (fs : List Field) (v : RowValue) : Prop := v = .null ∨ ∃ vals, v = .struct vals ∧ Field.AllHave fs vals

theorem Field.Has_null (f : Field) : f.Has .null := by
  cases f <;> exact .inl rfl

variable {fs : List Field}

theorem IsRow.firstField (h : IsRow (f :: fs) v) :
    f.Has v.firstField ∧ (v.firstField = .null → v.isValid = true → f.isNullable = true) := by
  rcases h with rfl | ⟨_, rfl, x, rest, rfl, hx, hnull, -⟩
  · exact ⟨f.Has_null, nofun⟩
  · exact ⟨hx, fun h _ => hnull h⟩

theorem IsRow.restFields (h : IsRow (f :: fs) v) :
    IsRow fs v.restFields ∧ v.restFields.isValid = v.isValid := by
  rcases h with rfl | ⟨_, rfl, x, rest, rfl, -, -, hrest⟩
  · exact ⟨.inl rfl, rfl⟩
  · exact ⟨.inr ⟨rest, rfl, hrest⟩, rfl⟩

theorem has_firstField (h : ∀ v ∈ vs, IsRow (f :: fs) v) : ∀ v ∈ vs.map RowValue.firstField, f.Has v := by
  rw [List.forall_mem_map]
  exact fun v hv => (h v hv).firstField.1

theorem isRow_restFields (h : ∀ v ∈ vs, IsRow (f :: fs) v) :
    ∀ v ∈ vs.map RowValue.restFields, IsRow fs v := by
  rw [List.forall_mem_map]
  exact fun v hv => (h v hv).restFields.1

theorem map_isValid_restFields (h : ∀ v ∈ vs, IsRow (f :: fs) v) :
    (vs.map RowValue.restFields).map RowValue.isValid = vs.map RowValue.isValid := by
  rw [List.map_map]
  exact List.map_congr_left fun v hv => (h v hv).restFields.2

theorem consField_fields (h : IsRow (f :: fs) v) :
    RowValue.consField v.firstField v.restFields = v := by
  rcases h with rfl | ⟨_, rfl, x, rest, rfl, -⟩
  · rfl
  · rfl

theorem isValid_consField (v row : RowValue) : (RowValue.consField v row).isValid = row.isValid := by
  cases row <;> rfl

theorem zipWith_consField (h : ∀ v ∈ vs, IsRow (f :: fs) v) :
    List.zipWith RowValue.consField (vs.map RowValue.firstField) (vs.map RowValue.restFields) = vs := by
  induction vs with
  | nil => rfl
  | cons v vs ih =>
    obtain ⟨hv, hvs⟩ := List.forall_mem_cons.mp h
    rw [List.map_cons, List.map_cons, List.zipWith_cons_cons, consField_fields hv, ih hvs]

theorem map_isValid_zipWith_consField {column rows : List RowValue} (h : column.length = rows.length) :
    (List.zipWith RowValue.consField column rows).map RowValue.isValid = rows.map RowValue.isValid := by
  induction rows generalizing column with
  | nil => rw [List.zipWith_nil_right]
  | cons row rows ih =>
    cases column with
    | nil => cases h
    | cons v column =>
      rw [List.zipWith_cons_cons, List.map_cons, isValid_consField, ih (Nat.succ.inj h), List.map_cons]

/-- A row that is read has the values of its fields. -/
theorem eq_fields_of_consField {v x row : RowValue} (h : IsRow (f :: fs) v)
    (hnull : x.isValid = v.firstField.isValid) (heq : RowValue.consField x row = v) :
    x = v.firstField ∧ row = v.restFields := by
  rcases h with rfl | ⟨_, rfl, y, rest, rfl, -⟩
  · refine ⟨eq_null_of_not_isValid (by rw [hnull]; decide), ?_⟩
    cases row with
    | struct vals => cases heq
    | _ => exact heq
  · cases row with
    | struct vals =>
      cases heq
      exact ⟨rfl, rfl⟩
    | _ => cases heq

theorem eq_fields_of_read {vs column rows : List RowValue} (h : ∀ v ∈ vs, IsRow (f :: fs) v)
    (hnulls : column.map RowValue.isValid = (vs.map RowValue.firstField).map RowValue.isValid)
    (hrows : rows.length = vs.length) (hread : List.zipWith RowValue.consField column rows = vs) :
    column = vs.map RowValue.firstField ∧ rows = vs.map RowValue.restFields := by
  induction vs generalizing column rows with
  | nil => exact ⟨List.map_eq_nil_iff.mp hnulls, List.eq_nil_of_length_eq_zero hrows⟩
  | cons v vs ih =>
    obtain ⟨hv, hvs⟩ := List.forall_mem_cons.mp h
    cases column with
    | nil => cases hnulls
    | cons x column =>
      cases rows with
      | nil => cases hrows
      | cons row rows =>
        obtain ⟨hnull, htail⟩ := List.cons.inj hnulls
        obtain ⟨hhead, hrest⟩ := List.cons.inj hread
        obtain ⟨rfl, rfl⟩ := ih hvs htail (Nat.succ.inj hrows) hrest
        obtain ⟨rfl, rfl⟩ := eq_fields_of_consField hv hnull hhead
        exact ⟨rfl, rfl⟩

/-! ## Finishing -/

variable {kind : ListKind}

theorem newList_ensures {field : Field} {offsets : List Int} {values : ColumnArray}
    : Ensures (ColumnArray.newList kind field offsets values nulls) fun a =>
      a = .list offsets nulls values ∧ offsets.IsChain (· ≤ ·) := by
  unfold ColumnArray.newList ArrayPanic.assert
  by_cases hoffsets : (decide (0 ≤ offsets.headD 0) && decide (offsets.IsChain (· ≤ ·))) = true
  · rw [if_pos hoffsets, ok_bind]
    have hchain := of_decide_eq_true (Bool.and_eq_true_iff.mp hoffsets).2
    exact .bind_any fun _ => .bind_any fun _ => .bind_any fun _ => .pure ⟨rfl, hchain⟩
  · rw [if_neg hoffsets]
    exact .error

theorem cast_eq (h : v = .null ∨ type.Has v) : type.cast v = v := by
  rcases h with rfl | h
  · cases type <;> rfl
  · cases type with
    | int16 =>
      cases v with
      | int32 x => exact if_pos h
      | _ => cases h
    | _ => rfl

theorem finish_leaf {nullable : Bool}
    (h : ∀ v ∈ vs, (Field.leaf nullable type).Has v) :
    (built (.leaf nullable type) vs).finish (.leaf nullable type) = .ok (.leaf vs) := by
  have hcast : vs.map type.cast = vs := by
    conv_rhs => rw [← List.map_id vs]
    exact List.map_congr_left fun v hv => cast_eq (h v hv)
  rw [built, ColumnArrayBuilder.finish, hcast]

/-- The values of a list column, and their items. -/
theorem Field.Has_list {nullable : Bool} {item : Field}
    (h : ∀ v ∈ vs, (Field.list kind nullable item).Has v) :
    (∀ v ∈ vs, IsList v) ∧ ∀ w ∈ vs.flatMap RowValue.items,
      item.Has w ∧ (w = .null → item.isNullable = true ∧ kind = .list) := by
  constructor
  · intro v hv
    exact (h v hv).imp_right fun ⟨items, heq, _⟩ => ⟨items, heq⟩
  · intro w hw
    obtain ⟨v, hv, hw⟩ := List.mem_flatMap.mp hw
    rcases h v hv with rfl | ⟨items, rfl, hitems⟩
    · cases hw
    · exact hitems w hw

mutual
/-- The nulls are right in any case. -/
theorem finish_nulls (f : Field) (vs : List RowValue) (h : ∀ v ∈ vs, f.Has v) :
    Ensures ((built f vs).finish f) fun a =>
      a.nulls = vs.map RowValue.isValid ∧ a.read.map RowValue.isValid = vs.map RowValue.isValid :=
  match f with
  | .leaf _ _ => by
    rw [finish_leaf h]
    exact .ok ⟨rfl, rfl⟩
  | .list _ _ item => by
    rw [built, ColumnArrayBuilder.finish]
    refine .bind_any fun values => newList_ensures.mono ?_
    rintro _ ⟨rfl, -⟩
    refine ⟨rfl, map_isValid_zipWith_ofItems ?_⟩
    rw [length_slices, List.length_append, length_starts, List.length_map]
    rfl
  | .struct _ fields => by
    rw [built, ColumnArrayBuilder.finish]
    refine .bind (finishFields_nulls fields vs h) fun as has => ?_
    exact .bind_any fun _ => .bind_any fun _ => .pure ⟨rfl, has⟩
theorem finishFields_nulls (fs : List Field) (vs : List RowValue) (h : ∀ v ∈ vs, IsRow fs v) :
    Ensures (ColumnArrayBuilder.finishFields (builtFields fs vs) fs) fun as =>
      (ColumnArray.readRows as (vs.map RowValue.isValid)).map RowValue.isValid = vs.map RowValue.isValid :=
  match fs with
  | [] => by
    refine .ok ?_
    rw [ColumnArray.readRows, List.map_map]
    conv_rhs => rw [← List.map_id (vs.map RowValue.isValid)]
    exact List.map_congr_left fun valid _ => by cases valid <;> rfl
  | f :: fs => by
    rw [builtFields, ColumnArrayBuilder.finishFields]
    have hfirst := has_firstField h
    have hrest := isRow_restFields h
    refine .bind (finish_nulls f _ hfirst) fun a ha => .bind (finishFields_nulls fs _ hrest) fun as has => .pure ?_
    rw [map_isValid_restFields h] at has
    have hlength : a.read.length = (ColumnArray.readRows as (vs.map RowValue.isValid)).length := by
      have ha' := congrArg List.length ha.2
      have has' := congrArg List.length has
      simp only [List.length_map] at ha' has'
      rw [ha', has']
    rw [ColumnArray.readRows, map_isValid_zipWith_consField hlength, has]
end

/-! ## Reading back -/

/-- The offsets are counted as they are if the lists are read back. -/
theorem length_lt_of_read {n : Nat}
    (hchain : (starts 0 0 vs ++ [toI32 n]).IsChain (· ≤ ·))
    (hread : List.zipWith RowValue.ofItems (vs.map RowValue.isValid) (slices values (starts 0 0 vs ++ [toI32 n])) =
      vs) : (vs.flatMap RowValue.items).length < 2 ^ 31 := by
  have hle := length_items_le hread
  have hlast : (starts 0 0 vs ++ [toI32 n]).getLastD 0 = toI32 n := by
    rw [List.getLastD_eq_getLast?, List.getLast?_concat, Option.getD_some]
  obtain ⟨first, offsets, heq⟩ : ∃ first offsets, starts 0 0 vs ++ [toI32 n] = first :: offsets :=
    List.exists_cons_of_ne_nil (by simp)
  rw [heq] at hchain hle hlast
  have hsum := sum_length_slices_le values hchain
  rw [hlast] at hsum
  have hlt := toI32_lt n
  omega

mutual
theorem readable_of_read (f : Field) (vs : List RowValue) (h : ∀ v ∈ vs, f.Has v) :
    Ensures ((built f vs).finish f) fun a => a.read = vs → f.Readable vs :=
  match f with
  | .leaf _ _ => fun _ _ _ => trivial
  | .list _ _ item => by
    obtain ⟨hlists, hitems⟩ := Field.Has_list h
    have hitems' := fun w hw => (hitems w hw).1
    rw [built, ColumnArrayBuilder.finish]
    refine .bind ((finish_nulls item _ hitems').and (readable_of_read item _ hitems')) ?_
    rintro values ⟨⟨hnulls, hvalid⟩, hreadable⟩
    refine newList_ensures.mono ?_
    rintro _ ⟨rfl, hchain⟩ hread
    rw [ColumnArray.read] at hread
    have hlen : values.len = (vs.flatMap RowValue.items).length := by
      rw [ColumnArray.len, hnulls, List.length_map]
    have hbound := length_lt_of_read hchain hread
    have hordered := isChain_of_read hread
    -- The offsets are those of the lists, so the items are those that are read.
    have hoffsets := starts_eq_prefixSums 0 0 hordered (fun _ _ _ => rfl) (by omega)
    rw [hlen] at hread
    rw [Nat.zero_add] at hoffsets
    rw [hoffsets, slices_prefixSums, List.drop_zero] at hread
    have hlength : values.read.length = (vs.flatMap RowValue.items).length := by
      have hlength := congrArg List.length hvalid
      rw [List.length_map, List.length_map] at hlength
      exact hlength
    exact ⟨hordered, hbound, hreadable (eq_flatMap_of_read hlists hlength hread)⟩
  | .struct _ fields => by
    rw [built, ColumnArrayBuilder.finish]
    refine .bind (allReadable_of_read fields vs h) fun as has => ?_
    exact .bind_any fun _ => .bind_any fun _ => .pure has
theorem allReadable_of_read (fs : List Field) (vs : List RowValue) (h : ∀ v ∈ vs, IsRow fs v) :
    Ensures (ColumnArrayBuilder.finishFields (builtFields fs vs) fs) fun as =>
      ColumnArray.readRows as (vs.map RowValue.isValid) = vs → Field.AllReadable fs vs :=
  match fs with
  | [] => fun _ _ _ => trivial
  | f :: fs => by
    have hfirst := has_firstField h
    have hrest := isRow_restFields h
    rw [builtFields, ColumnArrayBuilder.finishFields]
    refine .bind ((finish_nulls f _ hfirst).and (readable_of_read f _ hfirst)) ?_
    rintro a ⟨⟨-, hnulls⟩, hreadable⟩
    refine .bind ((finishFields_nulls fs _ hrest).and (allReadable_of_read fs _ hrest)) ?_
    rintro as ⟨hrows, hall⟩
    refine .pure fun hread => ?_
    rw [map_isValid_restFields h] at hrows hall
    rw [ColumnArray.readRows] at hread
    have hlength : (ColumnArray.readRows as (vs.map RowValue.isValid)).length = vs.length := by
      have hlength := congrArg List.length hrows
      rw [List.length_map, List.length_map] at hlength
      exact hlength
    obtain ⟨hcolumn, hrest⟩ := eq_fields_of_read h hnulls hlength hread
    exact ⟨hreadable hcolumn, hall hrest⟩
end

theorem newList_eq_ok {field : Field} {values : ColumnArray}
    (hbound : (vs.flatMap RowValue.items).length < 2 ^ 31)
    (hchain : vs.IsChain fun v w => ¬ RowValue.NullAfterItems v w)
    (hnulls : values.nulls = (vs.flatMap RowValue.items).map RowValue.isValid)
    (hitems : ∀ w ∈ vs.flatMap RowValue.items, w = .null → field.isNullable = true ∧ kind = .list) :
    ColumnArray.newList kind field (starts 0 0 vs ++ [toI32 values.len]) values (vs.map RowValue.isValid) =
      .ok (.list (prefixSums 0 vs) (vs.map RowValue.isValid) values) := by
  have hlen : values.len = (vs.flatMap RowValue.items).length := by
    rw [ColumnArray.len, hnulls, List.length_map]
  have hoffsets := starts_eq_prefixSums 0 0 hchain (fun _ _ _ => rfl) (by omega)
  rw [Nat.zero_add] at hoffsets
  have hfirst : 0 ≤ (prefixSums 0 vs).headD 0 := by
    cases vs with
    | nil => exact Int.le_refl _
    | cons v vs => exact Int.le_refl _
  have hlast : ((prefixSums 0 vs).getLastD 0).toNat ≤ values.len := by
    rw [getLastD_prefixSums, Nat.zero_add, Int.toNat_natCast, hlen]
  have hlength : (vs.map RowValue.isValid).length = (prefixSums 0 vs).length - 1 := by
    rw [← hoffsets, List.length_append, length_starts, List.length_map]
    rfl
  have hcheck : ColumnArray.checkItems field values kind = .ok () := by
    have hvalid : field.isNullable = false ∨ kind = .map → values.nulls.all id = true := by
      intro hcase
      rw [hnulls, List.all_eq_true]
      intro valid hvalid
      obtain ⟨w, hw, rfl⟩ := List.mem_map.mp hvalid
      by_contra hnull
      obtain ⟨hnullable, hkind⟩ := hitems w hw (eq_null_of_not_isValid hnull)
      rcases hcase with hcase | hcase
      · rw [hcase] at hnullable
        cases hnullable
      · rw [hcase] at hkind
        cases hkind
    cases kind with
    | list =>
      refine if_pos (Bool.or_eq_true_iff.mpr ?_)
      cases hnullable : field.isNullable with
      | true => exact .inl rfl
      | false => exact .inr (hvalid (.inl hnullable))
    | map => exact if_pos (hvalid (.inr rfl))
  unfold ColumnArray.newList ArrayPanic.assert
  rw [hlen, hoffsets, hcheck, ← hlen]
  rw [if_pos (Bool.and_eq_true_iff.mpr ⟨decide_eq_true hfirst, decide_eq_true (isChain_prefixSums 0 vs)⟩), ok_bind,
    if_pos (decide_eq_true hlast), ok_bind, if_pos (decide_eq_true hlength), ok_bind, ok_bind]
  rfl

mutual
theorem read_of_readable (f : Field) (vs : List RowValue) (h : ∀ v ∈ vs, f.Has v) (hr : f.Readable vs) :
    Returns ((built f vs).finish f) fun a => a.nulls = vs.map RowValue.isValid ∧ a.read = vs :=
  match f with
  | .leaf _ _ => by
    rw [finish_leaf h]
    exact .ok ⟨rfl, rfl⟩
  | .list _ _ item => by
    obtain ⟨hlists, hitems⟩ := Field.Has_list h
    obtain ⟨hchain, hbound, hr⟩ := hr
    rw [built, ColumnArrayBuilder.finish]
    refine (read_of_readable item _ (fun w hw => (hitems w hw).1) hr).bind ?_
    rintro values ⟨hnulls, hread⟩
    rw [newList_eq_ok hbound hchain hnulls fun w hw => (hitems w hw).2]
    refine .ok ⟨rfl, ?_⟩
    rw [ColumnArray.read, hread, slices_prefixSums, List.drop_zero, splits_flatMap, zipWith_ofItems hlists]
  | .struct _ fields => by
    rw [built, ColumnArrayBuilder.finish]
    refine (readRows_of_readable fields vs h hr).bind fun as ⟨hcheck, hread⟩ => ?_
    unfold ArrayPanic.assert
    rw [if_pos (by simp), ok_bind, hcheck, ok_bind]
    exact .pure ⟨rfl, hread⟩
theorem readRows_of_readable (fs : List Field) (vs : List RowValue) (h : ∀ v ∈ vs, IsRow fs v)
    (hr : Field.AllReadable fs vs) :
    Returns (ColumnArrayBuilder.finishFields (builtFields fs vs) fs) fun as =>
      ColumnArray.checkFields (vs.map RowValue.isValid) fs as = .ok () ∧
        ColumnArray.readRows as (vs.map RowValue.isValid) = vs :=
  match fs with
  | [] => by
    refine .ok ⟨rfl, ?_⟩
    rw [ColumnArray.readRows, List.map_map]
    conv_rhs => rw [← List.map_id vs]
    refine List.map_congr_left fun v hv => ?_
    rcases h v hv with rfl | ⟨vals, rfl, hvals⟩
    · rfl
    · cases hvals
      rfl
  | f :: fs => by
    have hfirst := has_firstField h
    have hrest := isRow_restFields h
    rw [builtFields, ColumnArrayBuilder.finishFields]
    refine (read_of_readable f _ hfirst hr.1).bind fun a ⟨hnulls, hread⟩ => ?_
    refine (readRows_of_readable fs _ hrest hr.2).bind fun as ⟨hcheck, hrows⟩ => .pure ⟨?_, ?_⟩
    · rw [map_isValid_restFields h] at hcheck
      have hlen : a.len = (vs.map RowValue.isValid).length := by
        rw [ColumnArray.len, hnulls]
        simp
      have hmasked : f.isNullable = true ∨
          ((vs.map RowValue.isValid).zip a.nulls).all (fun v => !v.1 || v.2) = true := by
        by_cases hnullable : f.isNullable = true
        · exact .inl hnullable
        · refine .inr (List.all_eq_true.mpr fun valid hvalid => ?_)
          rw [hnulls, List.map_map, List.zip_map', List.mem_map] at hvalid
          obtain ⟨v, hv, rfl⟩ := hvalid
          change (!v.isValid || v.firstField.isValid) = true
          by_contra hnull
          rw [Bool.or_eq_true, not_or] at hnull
          have hvalid : v.isValid = true := by simpa using hnull.1
          exact hnullable ((h v hv).firstField.2 (eq_null_of_not_isValid hnull.2) hvalid)
      unfold ColumnArray.checkFields ArrayPanic.assert
      rw [if_pos (by simp [hlen]), ok_bind, if_pos (Bool.or_eq_true_iff.mpr hmasked), ok_bind]
      exact hcheck
    · rw [ColumnArray.readRows, hread, ← map_isValid_restFields h, hrows, zipWith_consField h]
end

end Moonlink.Row
