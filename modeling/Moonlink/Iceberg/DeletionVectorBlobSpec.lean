-- SUMMARY: Deletion vector blobs: the layout of the bytes, what deserializing rejects, and exactly when the rows come back.
import Moonlink.Iceberg.DeletionVectorBlob
import Moonlink.Lib.RoaringFormat

namespace Moonlink.Iceberg

open Lib
open UnionRead (ByteOrder)

variable {data : List UInt8}

/-! ## Slices -/

theorem slice_eq_ok {start stop : Nat} (hle : start ≤ stop) (hstop : stop ≤ data.length) :
    slice data start stop = .ok ((data.drop start).take (stop - start)) := if_pos ⟨hle, hstop⟩

/-- A part of the data is the slice at its position. -/
theorem slice_append (before part after : List UInt8) {start stop : Nat}
    (hdata : data = before ++ (part ++ after)) (hstart : before.length = start)
    (hstop : start + part.length = stop) : slice data start stop = .ok part := by
  have hlen : data.length = start + (part.length + after.length) := by
    rw [hdata, List.length_append, List.length_append, hstart]
  have hpart : stop - start = part.length := by omega
  rw [slice_eq_ok (by omega) (by omega), hdata, List.drop_left' hstart, hpart, List.take_left]

@[simp] theorem toBeBytes_length (value : UInt32) : (toBeBytes value).length = 4 :=
  ByteOrder.toNeBytes_length .big value

@[simp] theorem fromBeBytes_toBeBytes (value : UInt32) : fromBeBytes (toBeBytes value) = value :=
  ByteOrder.fromNeBytes_toNeBytes .big value

/-! ## Numbers -/

theorem parseUsize_toString {n : Nat} (h : n < 2 ^ 64) : parseUsize (toString n) = some n := by
  have hchars : (toString n).toList = Nat.toDigits 10 n := by
    rw [Nat.toString_eq_ofList_toDigits, String.toList_ofList]
  have hdigit : ∀ c ∈ Nat.toDigits 10 n, c.isDigit = true := fun c hc =>
    Nat.isDigit_of_mem_toDigits (by decide) (by decide) hc
  have hne : Nat.toDigits 10 n ≠ [] := Nat.toDigits_ne_nil
  have hsign : withoutSign (Nat.toDigits 10 n) = Nat.toDigits 10 n := by
    unfold withoutSign
    split
    · rename_i rest hplus
      exact absurd (hdigit '+' (hplus ▸ List.mem_cons_self)) (by decide)
    · rfl
  have hempty : ((Nat.toDigits 10 n).isEmpty || !(Nat.toDigits 10 n).all Char.isDigit) = false := by
    rw [List.all_eq_true.mpr hdigit, Bool.not_true, Bool.or_false]
    exact Bool.eq_false_iff.mpr fun hnil => hne (List.isEmpty_iff.mp hnil)
  unfold parseUsize
  simp only [hchars, hsign, hempty, Nat.ofDigitChars_ten_toDigits, h, Bool.false_eq_true, if_false, if_true]

/-- The three properties are set. -/
theorem lookup_blobProperties (dataFile : String) (n maxRows : Nat) :
    (DeletionVector.blobProperties dataFile n maxRows).lookup mooncakeDeletionVectorNumRows =
      some (toString maxRows) := AList.lookup_insert _

theorem checkProperties_blobProperties (dataFile : String) (n maxRows : Nat) :
    DeletionVector.checkProperties (DeletionVector.blobProperties dataFile n maxRows) = .ok () := by
  have hmax : deletionVectorCardinality ≠ mooncakeDeletionVectorNumRows := by decide
  have hmax' : deletionVectorReferencedDataFile ≠ mooncakeDeletionVectorNumRows := by decide
  have hfirst : deletionVectorReferencedDataFile ≠ deletionVectorCardinality := by decide
  have hcardinality : (DeletionVector.blobProperties dataFile n maxRows).lookup deletionVectorCardinality =
      some (toString n) := by
    exact (AList.lookup_insert_ne hmax).trans (AList.lookup_insert _)
  have hfile : (DeletionVector.blobProperties dataFile n maxRows).lookup deletionVectorReferencedDataFile =
      some dataFile := by
    refine (AList.lookup_insert_ne hmax').trans ?_
    exact (AList.lookup_insert_ne hfirst).trans (AList.lookup_insert _)
  unfold DeletionVector.checkProperties
  rw [hcardinality, hfile]
  rfl

theorem readMaxNumRows_blobProperties (dataFile : String) (n : Nat) {maxRows : Nat} (h : maxRows < 2 ^ 64) :
    DeletionVector.readMaxNumRows (DeletionVector.blobProperties dataFile n maxRows) = .ok maxRows := by
  unfold DeletionVector.readMaxNumRows
  rw [lookup_blobProperties]
  simp only [parseUsize_toString h]

/-! ## Reading -/

section Blobs

variable {Bitmap Failure : Type} (lib : RoaringLibrary Bitmap Failure) (crc32 : List UInt8 → UInt32)

/-- The magic bytes, the length field or the checksum of some bytes is not there or does not match. -/
structure Matching (crc32 : List UInt8 → UInt32) (data : List UInt8) : Prop where
  length : 12 ≤ data.length
  magic : (data.drop 4).take 4 = deletionVectorMagicBytes
  combined : 4 + (fromBeBytes (data.take 4)).toNat + 4 = data.length
  checksum : crc32 (deletionVectorMagicBytes ++ (data.drop 8).take (data.length - 12)) =
    fromBeBytes (data.drop (data.length - 4))

/-- What does not match is an error, whatever the properties are. -/
theorem deserialize_of_not_matching {blob : Blob} (h : ¬ Matching crc32 blob.data) :
    Returns (DeletionVector.deserialize lib crc32 blob) fun r => ∃ e, r = .error e := by
  unfold DeletionVector.deserialize
  by_cases hlength : blob.data.length < minSerializedDeletionVectorBlob
  · rw [if_pos hlength]
    exact .pure ⟨_, rfl⟩
  · have hle : 12 ≤ blob.data.length := Nat.le_of_not_lt hlength
    rw [if_neg hlength, slice_eq_ok (by omega) (by omega), ok_bind]
    by_cases hmagic : (blob.data.drop 4).take (8 - 4) = deletionVectorMagicBytes
    · rw [if_neg (not_not_intro hmagic), slice_eq_ok (by omega) (by omega), ok_bind]
      by_cases hcombined : 4 + (fromBeBytes ((blob.data.drop 0).take (4 - 0))).toNat + 4 = blob.data.length
      · rw [if_neg (not_not_intro hcombined), slice_eq_ok (by omega) (by omega), ok_bind,
          slice_eq_ok (by omega) (by omega), ok_bind]
        have hchecksum : crc32 (deletionVectorMagicBytes ++
            (blob.data.drop 8).take (blob.data.length - 4 - 8)) ≠
            fromBeBytes ((blob.data.drop (blob.data.length - 4)).take (blob.data.length - (blob.data.length - 4))) := by
          intro heq
          have hrest : blob.data.length - 4 - 8 = blob.data.length - 12 := by omega
          have hlast : (blob.data.drop (blob.data.length - 4)).take (blob.data.length - (blob.data.length - 4)) =
              blob.data.drop (blob.data.length - 4) := List.take_of_length_le (by rw [List.length_drop])
          rw [hrest, hlast] at heq
          exact h ⟨hle, hmagic, hcombined, heq⟩
        rw [if_pos hchecksum]
        exact .pure ⟨_, rfl⟩
      · rw [if_pos hcombined]
        exact .pure ⟨_, rfl⟩
    · rw [if_pos hmagic]
      exact .pure ⟨_, rfl⟩

/-- A blob whose bitmap fits is read up to the library. -/
theorem deserialize_written {bitmap : List UInt8} {combinedLength : UInt32} {blob : Blob} {maxNumRows : Nat}
    (hdata : blob.data = toBeBytes combinedLength ++ deletionVectorMagicBytes ++ bitmap ++
      toBeBytes (crc32 (deletionVectorMagicBytes ++ bitmap)))
    (hcombined : combinedLength.toNat = 4 + bitmap.length)
    (hmax : DeletionVector.readMaxNumRows blob.properties = .ok maxNumRows) :
    DeletionVector.deserialize lib crc32 blob =
      .ok (DeletionVector.deserializeRoaringMap lib bitmap maxNumRows) := by
  have hlen : blob.data.length = 4 + (4 + (bitmap.length + 4)) := by
    rw [hdata]
    simp only [List.length_append, toBeBytes_length]
    show 4 + 4 + bitmap.length + 4 = _
    omega
  have hmagic : slice blob.data 4 8 = .ok deletionVectorMagicBytes :=
    slice_append _ _ _ (by rw [hdata, List.append_assoc, List.append_assoc]) (toBeBytes_length _) rfl
  have hlength : slice blob.data 0 4 = .ok (toBeBytes combinedLength) := by
    refine slice_append [] _ (deletionVectorMagicBytes ++
      (bitmap ++ toBeBytes (crc32 (deletionVectorMagicBytes ++ bitmap)))) ?_ rfl ?_
    · rw [hdata, List.append_assoc, List.append_assoc]
      rfl
    · rw [toBeBytes_length]
  have hbitmap : slice blob.data 8 (blob.data.length - 4) = .ok bitmap := by
    refine slice_append _ _ _ (by rw [hdata, List.append_assoc (_ ++ _)]) ?_ ?_
    · rw [List.length_append, toBeBytes_length]
      rfl
    · omega
  have hcrc : slice blob.data (blob.data.length - 4) blob.data.length =
      .ok (toBeBytes (crc32 (deletionVectorMagicBytes ++ bitmap))) := by
    refine slice_append _ _ [] (by rw [List.append_nil]; exact hdata) ?_ ?_
    · rw [hlen]
      simp only [List.length_append, toBeBytes_length]
      show 4 + 4 + bitmap.length = _
      omega
    · rw [toBeBytes_length]
      omega
  have hmin : minSerializedDeletionVectorBlob = 12 := rfl
  unfold DeletionVector.deserialize
  rw [if_neg (by omega), hmagic, ok_bind, if_neg (not_not_intro rfl), hlength, ok_bind, fromBeBytes_toBeBytes,
    if_neg (by omega), hbitmap, ok_bind, hcrc, ok_bind, fromBeBytes_toBeBytes, if_neg (not_not_intro rfl), hmax,
    ok_bind]
  rfl

/-! ## The vector -/

/-- Different rows below the number of rows are deleted one after the other. -/
theorem takeAsBatchDeleteVector_returns {bitmap : Bitmap} {rows : List Nat} {maxRows : Nat}
    (hiter : lib.iter bitmap = rows) (hsorted : rows.Pairwise (· < ·)) (hrows : ∀ r ∈ rows, r < maxRows) :
    Returns (DeletionVector.takeAsBatchDeleteVector lib ⟨bitmap, some maxRows⟩) fun v =>
      v.maxRows = maxRows ∧ v.collectDeletedRows = rows := by
  have hloop : Returns (rows.foldlM BatchDeletionVector.deleteActiveRow (.new maxRows)) fun v =>
      v.maxRows = maxRows ∧ ∀ r, r ∈ v.collectDeletedRows ↔ r ∈ rows := by
    refine Returns.foldlM (I := fun done (v : BatchDeletionVector) =>
      v.maxRows = maxRows ∧ ∀ r, r ∈ v.collectDeletedRows ↔ r ∈ done) ?_ ?_
    · exact ⟨rfl, fun r => by rw [BatchDeletionVector.collectDeletedRows_new]⟩
    · intro done row rest v heq hv
      have hlt : row < v.maxRows := by
        rw [hv.1]
        exact hrows row (heq ▸ List.mem_append_right _ List.mem_cons_self)
      have hnew : row ∉ v.collectDeletedRows := by
        rw [hv.2]
        intro hmem
        rw [heq, List.pairwise_append] at hsorted
        exact Nat.lt_irrefl row (hsorted.2.2 row hmem row List.mem_cons_self)
      refine (BatchDeletionVector.deleteActiveRow_returns hlt hnew).mono fun v' hv' => ?_
      refine ⟨hv'.maxRows.trans hv.1, fun r => ?_⟩
      rw [hv'.mem, hv.2, List.mem_append, List.mem_singleton]
  obtain ⟨v, hv, hmax, hmem⟩ := hloop
  unfold DeletionVector.takeAsBatchDeleteVector
  simp only [hiter, hv]
  refine .ok ⟨hmax, ?_⟩
  refine List.Pairwise.eq_of_mem_iff (r := (· < ·)) ?_ hsorted hmem
  rw [BatchDeletionVector.collectDeletedRows_eq]
  exact List.pairwise_lt_range.filter _

/-! ## Round trip -/

/-- The blob of the rows is written, and the vector that is read from it has these rows. -/
def RoundTrips (lib : RoaringLibrary Bitmap Failure) (crc32 : List UInt8 → UInt32) (dataFile : String)
    (rows : List Nat) (maxRows : Nat) : Prop :=
  Returns (DeletionVector.writeBlob lib crc32 dataFile rows maxRows) fun blob =>
    Returns (DeletionVector.readBlob lib crc32 blob) fun r =>
      ∃ v, r = .ok v ∧ v.maxRows = maxRows ∧ v.collectDeletedRows = rows

variable {lib} {rows : List Nat} {bitmap : Bitmap}

/-- The blob that is written. -/
structure Written (lib : RoaringLibrary Bitmap Failure) (crc32 : List UInt8 → UInt32) (bitmap : Bitmap)
    (properties : AssocMap String String) (blob : Blob) : Prop where
  properties : blob.properties = properties
  data : blob.data = toBeBytes (UInt32.ofNat (4 + lib.serializedSize bitmap)) ++ deletionVectorMagicBytes ++
    lib.serializeInto bitmap ++ toBeBytes (crc32 (deletionVectorMagicBytes ++ lib.serializeInto bitmap))

theorem writeBlob_returns (hkeeps : lib.Keeps rows bitmap) (dataFile : String) (maxRows : Nat) :
    Returns (DeletionVector.writeBlob lib crc32 dataFile rows maxRows)
      (Written lib crc32 bitmap (DeletionVector.blobProperties dataFile rows.length maxRows)) := by
  have hmark : (DeletionVector.new lib).markRowsDeleted lib rows = .ok ⟨bitmap, none⟩ := by
    unfold DeletionVector.markRowsDeleted DeletionVector.new
    simp only [hkeeps.append, BlobPanic.assert, decide_true, if_true, ok_bind]
    rfl
  unfold DeletionVector.writeBlob DeletionVector.serialize
  rw [hmark, ok_bind, checkProperties_blobProperties, ok_bind]
  simp only [BlobPanic.assert_pos (decide_eq_true hkeeps.size), ok_bind]
  exact .pure ⟨rfl, rfl⟩

theorem roundTrips_of_fits (hkeeps : lib.Keeps rows bitmap) (hsorted : rows.Pairwise (· < ·)) {maxRows : Nat}
    (hrows : ∀ r ∈ rows, r < maxRows) (hmax : maxRows < 2 ^ 64) (dataFile : String)
    (hfits : 4 + lib.serializedSize bitmap < 2 ^ 32) : RoundTrips lib crc32 dataFile rows maxRows := by
  refine (writeBlob_returns crc32 hkeeps dataFile maxRows).mono fun blob hblob => ?_
  obtain ⟨bitmap', hread, hiter⟩ := hkeeps.roundTrip
  have hproperties : DeletionVector.readMaxNumRows blob.properties = .ok maxRows := by
    rw [hblob.properties]
    exact readMaxNumRows_blobProperties dataFile _ hmax
  have hcombined : (UInt32.ofNat (4 + lib.serializedSize bitmap)).toNat = 4 + (lib.serializeInto bitmap).length := by
    rw [UInt32.toNat_ofNat', Nat.mod_eq_of_lt hfits, hkeeps.size]
  have hdeserialize := deserialize_written lib crc32 hblob.data hcombined hproperties
  obtain ⟨v, hv, hvector⟩ := takeAsBatchDeleteVector_returns lib hiter hsorted hrows
  refine ⟨.ok v, ?_, v, rfl, hvector⟩
  unfold DeletionVector.readBlob
  rw [hdeserialize, DeletionVector.deserializeRoaringMap, hread, ok_bind]
  simp only [hv]
  rfl

/-- A length field that overflows does not match the length of the data. -/
theorem not_roundTrips_of_overflow (hkeeps : lib.Keeps rows bitmap) (dataFile : String) (maxRows : Nat)
    (hoverflow : 2 ^ 32 ≤ 4 + lib.serializedSize bitmap) : ¬ RoundTrips lib crc32 dataFile rows maxRows := by
  rintro ⟨blob, hwrite, r, hread, v, rfl, -⟩
  obtain ⟨blob', hwrite', hblob⟩ := writeBlob_returns crc32 hkeeps dataFile maxRows
  obtain rfl : blob = blob' := Except.ok.inj (hwrite.symm.trans hwrite')
  have hmatching : ¬ Matching crc32 blob.data := by
    intro h
    have hcombined := h.combined
    have hlt := Nat.mod_lt (4 + lib.serializedSize bitmap) (Nat.two_pow_pos 32)
    rw [hblob.data, List.append_assoc, List.append_assoc, List.take_left' (toBeBytes_length _),
      fromBeBytes_toBeBytes, UInt32.toNat_ofNat'] at hcombined
    simp only [List.length_append, toBeBytes_length, hkeeps.size] at hcombined
    have hmagic : deletionVectorMagicBytes.length = 4 := rfl
    omega
  obtain ⟨_, hdeserialize, e, rfl⟩ := deserialize_of_not_matching lib crc32 hmatching
  unfold DeletionVector.readBlob at hread
  rw [hdeserialize] at hread
  cases hread

/-- The rows of a blob come back exactly if the length field holds the length of the magic bytes and the
bitmap, and bytes that do not match are an error. -/
theorem roundTrips_iff (hkeeps : lib.Keeps rows bitmap) (hsorted : rows.Pairwise (· < ·)) {maxRows : Nat}
    (hrows : ∀ r ∈ rows, r < maxRows) (hmax : maxRows < 2 ^ 64) (dataFile : String) :
    (RoundTrips lib crc32 dataFile rows maxRows ↔ 4 + lib.serializedSize bitmap < 2 ^ 32) ∧
      ∀ blob, ¬ Matching crc32 blob.data →
        Returns (DeletionVector.deserialize lib crc32 blob) fun r => ∃ e, r = .error e := by
  refine ⟨⟨fun hround => ?_, roundTrips_of_fits crc32 hkeeps hsorted hrows hmax dataFile⟩, fun blob => deserialize_of_not_matching lib crc32⟩
  by_contra hoverflow
  exact not_roundTrips_of_overflow crc32 hkeeps dataFile maxRows (Nat.le_of_not_lt hoverflow) hround

end Blobs

/-! ## The libraries at given rows -/

/-- The bitmap library, with a reader that knows the format of the given rows only. -/
def roaringFor (known : List Nat) : RoaringLibrary (List Nat) Unit where
  new := []
  append bitmap rows :=
    if (bitmap ++ rows).Pairwise (· < ·) then some (bitmap ++ rows, rows.length) else none
  iter := id
  serializedSize bitmap := (Roaring.treemapBytes bitmap).length
  serializeInto := Roaring.treemapBytes
  deserializeFrom data := if data = Roaring.treemapBytes known then .ok known else .error ()

theorem roaringFor_keeps {rows : List Nat} (hsorted : rows.Pairwise (· < ·)) : (roaringFor rows).Keeps rows rows where
  append := if_pos hsorted
  size := rfl
  roundTrip := ⟨rows, if_pos rfl, rfl⟩

/-- The checksum of `crc32fast`, bit by bit. -/
def crc32Ieee (data : List UInt8) : UInt32 :=
  let shift (crc : UInt32) : UInt32 := if crc &&& 1 = 1 then (crc >>> 1) ^^^ 0xEDB88320 else crc >>> 1
  ~~~ data.foldl (fun crc byte => (List.range 8).foldl (fun crc _ => shift crc) (crc ^^^ byte.toUInt32)) 0xFFFFFFFF

theorem roundTrips_iff_fiveRows :
    RoundTrips (roaringFor [1, 3, 5, 7, 1000]) crc32Ieee "/tmp/iceberg/data/filename" [1, 3, 5, 7, 1000] 2000 :=
  (roundTrips_iff crc32Ieee (roaringFor_keeps (by decide)) (by decide) (by decide) (by decide) _).1.mpr
    (by decide +kernel)

/-- The even rows below `2 * n`. -/
def evenRows (n : Nat) : List Nat := (List.range n).map (2 * ·)

theorem mem_evenRows {n r : Nat} : r ∈ evenRows n ↔ ∃ i < n, 2 * i = r := by
  simp [evenRows]

theorem evenRows_sorted (n : Nat) : (evenRows n).Pairwise (· < ·) := by
  refine List.pairwise_map.mpr (List.pairwise_lt_range.imp fun hlt => ?_)
  omega

/-- Every container of the even rows below `2 ^ 35` is a bit set. -/
theorem le_length_evenRows {n : Nat} (hn : 2 ^ 34 ≤ n) : 2 ^ 32 ≤ (Roaring.treemapBytes (evenRows n)).length := by
  have hmem : ∀ h < 8, ∀ k < 2 ^ 16, ∀ i < 5000, h * 2 ^ 32 + (k * 2 ^ 16 + 2 * i) ∈ evenRows n := by
    intro h hh k hk i hi
    exact mem_evenRows.mpr ⟨h * 2 ^ 31 + (k * 2 ^ 15 + i), by omega, by omega⟩
  have hgroup : ∀ h < 8, ∀ k < 2 ^ 16, ∀ i < 5000, k * 2 ^ 16 + 2 * i ∈ Roaring.group (2 ^ 32) (evenRows n) h := by
    intro h hh k hk i hi
    exact (Roaring.mem_group (by omega)).mpr (hmem h hh k hk i hi)
  have hcontainer : ∀ h < 8, ∀ k < 2 ^ 16,
      4096 < (Roaring.group (2 ^ 16) (Roaring.group (2 ^ 32) (evenRows n) h) k).length := by
    intro h hh k hk
    have hinj : Function.Injective fun i : Nat => 2 * i := fun i j hij => Nat.eq_of_mul_eq_mul_left Nat.two_pos hij
    refine Nat.lt_of_lt_of_le (by decide : 4096 < 5000) (Roaring.le_length_of_injective hinj fun i hi => ?_)
    exact (Roaring.mem_group (by omega)).mpr (hgroup h hh k hk i hi)
  have hbitmap : ∀ h < 8, 2 ^ 16 * 8192 ≤ (Roaring.bitmapBytes (Roaring.group (2 ^ 32) (evenRows n) h)).length := by
    intro h hh
    refine Roaring.le_length_bitmapBytes (fun k hk => ?_) (hcontainer h hh)
    exact Roaring.mem_keys_of_mem (by omega : 2 * 0 < 2 ^ 16) (hgroup h hh k hk 0 (by omega))
  have hkeys : ∀ h < 8, h ∈ Roaring.keys (2 ^ 32) (evenRows n) := by
    intro h hh
    have hzero : h * 2 ^ 32 + 0 ∈ evenRows n := mem_evenRows.mpr ⟨h * 2 ^ 31, by omega, by omega⟩
    exact Roaring.mem_keys_of_mem (Nat.two_pow_pos 32) hzero
  have hsize := Roaring.le_length_treemapBytes hkeys hbitmap
  omega

theorem not_roundTrips_evenRows {n : Nat} (hn : 2 ^ 34 ≤ n) (dataFile : String) (maxRows : Nat) :
    ¬ RoundTrips (roaringFor (evenRows n)) crc32Ieee dataFile (evenRows n) maxRows := by
  have hsize : (roaringFor (evenRows n)).serializedSize (evenRows n) = (Roaring.treemapBytes (evenRows n)).length := rfl
  have hoverflow := le_length_evenRows hn
  refine not_roundTrips_of_overflow crc32Ieee (roaringFor_keeps (evenRows_sorted n)) dataFile maxRows ?_
  rw [hsize]
  omega

/-- So many rows do not come back from their blob. -/
theorem overflowing_blob_rejected :
    (evenRows (2 ^ 34)).Pairwise (· < ·) ∧ (∀ r ∈ evenRows (2 ^ 34), r < 2 ^ 35) ∧
      ¬ RoundTrips (roaringFor (evenRows (2 ^ 34))) crc32Ieee "/tmp/iceberg/data/filename" (evenRows (2 ^ 34)) (2 ^ 35) := by
  refine ⟨evenRows_sorted _, fun r hr => ?_, not_roundTrips_evenRows (Nat.le_refl _) _ _⟩
  obtain ⟨i, hi, rfl⟩ := mem_evenRows.mp hr
  omega

end Moonlink.Iceberg
