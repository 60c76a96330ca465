import NfcStack.Protocols.Emv.Bounds
import NfcStack.Protocols.Emv.Poller

/-!
# Storing an EMV card image

`emv_serialize` writes a header of 83 bytes and the records, each behind its length. Both sides
count the header as 84 bytes, so the reader refuses a header alone (`roundTrips_iff`).
-/

namespace NfcStack.Emv

open List Option CArray

variable {cfg : Config} {image : Image cfg}

structure Image.Storable (image : Image cfg) : Prop where
  appAidLen_pos : 0 < image.appAidLen.toNat
  appAidLen_le : image.appAidLen.toNat ≤ appAidMaxBytes
  recordCount : image.recordCount.toNat ≤ cfg.maxRecords
  recordLen : ∀ i < image.recordCount.toNat, ∀ len, image.recordLen.get? i = some len →
    len.toNat ≤ cfg.recordSize

structure Image.SameHeader (image image' : Image cfg) : Prop where
  pan : image'.pan = image.pan
  panLen : image'.panLen = image.panLen
  expiry : image'.expiry = image.expiry
  name : image'.name = image.name
  track2 : image'.track2 = image.track2
  track2Len : image'.track2Len = image.track2Len
  aip : image'.aip = image.aip
  afl : image'.afl = image.afl
  appAid : image'.appAid = image.appAid
  appAidLen : image'.appAidLen = image.appAidLen
  recordCount : image'.recordCount = image.recordCount

theorem Image.SameHeader.refl (image : Image cfg) : image.SameHeader image :=
  ⟨rfl, rfl, rfl, rfl, rfl, rfl, rfl, rfl, rfl, rfl, rfl⟩

theorem Image.SameHeader.trans {a b c : Image cfg} (h : a.SameHeader b) (h' : b.SameHeader c) :
    a.SameHeader c :=
  ⟨h'.1.trans h.1, h'.2.trans h.2, h'.3.trans h.3, h'.4.trans h.4, h'.5.trans h.5, h'.6.trans h.6,
    h'.7.trans h.7, h'.8.trans h.8, h'.9.trans h.9, h'.10.trans h.10, h'.11.trans h.11⟩

/-- The same card: all fields agree, and every record with its length. What an array holds behind a
record is no part of the card. -/
structure Image.Same (image image' : Image cfg) : Prop extends image.SameHeader image' where
  recordLen : ∀ i < image.recordCount.toNat, image'.recordLen.get? i = image.recordLen.get? i
  record : ∀ i < image.recordCount.toNat, image'.record? i = image.record? i

def Image.RoundTrips (image : Image cfg) (outMax : ℕ) : Prop :=
  ∃ bytes, serialize image outMax = some (.ok bytes) ∧
    ∀ before : Image cfg, ∃ image', (deserialize before bytes).2 = some (image', .ok ()) ∧
      image.Same image'

def Image.room (image : Image cfg) : ℕ :=
  84 + ((List.range image.recordCount.toNat).map fun i =>
    1 + (image.recordLen.get? i).elim 0 UInt8.toNat).sum

def frame (r : Bytes) : Bytes := UInt8.ofNat r.length :: r

def storedHeader (image : Image cfg) : Bytes :=
  [formatVersion, image.panLen] ++ image.pan.toList ++ image.expiry.toList ++ image.name.toList ++
    [image.track2Len] ++ image.track2.toList ++ image.aip.toList ++ image.afl.toList ++
    [image.appAidLen] ++ image.appAid.toList ++ [image.recordCount]

theorem length_storedHeader (image : Image cfg) : (storedHeader image).length = recordsOffset := by
  simp [storedHeader, recordsOffset, appAidMaxBytes]

theorem Image.recordLen_of_record? {i : ℕ} {r : Bytes} (h : image.record? i = some r) :
    image.recordLen.get? i = some (UInt8.ofNat r.length) := by
  obtain ⟨len, hlen, hread⟩ := (image.record?_eq_some_iff i r).mp h
  obtain ⟨hin, hslice⟩ := (read?_eq_some_iff _ _ _ _).mp hread
  rw [hlen, hslice, length_slice _ hin, UInt8.ofNat_toNat]

theorem Image.Storable.exists_records (h : image.Storable) :
    ∃ rs : List Bytes, rs.length = image.recordCount.toNat ∧ image.Holds rs := by
  have hrecord : ∀ i < image.recordCount.toNat, ∃ r : Bytes, r.length ≤ cfg.recordSize ∧
      image.record? i = some r := by
    intro i hi
    have hslot : i < cfg.maxRecords := lt_of_lt_of_le hi h.recordCount
    obtain ⟨len, hlen⟩ := (image.recordLen.get?_eq_some_iff i).mpr hslot
    have hin := slot_end_le hslot (h.recordLen i hi len hlen)
    refine ⟨image.recordData.slice (i * cfg.recordSize) len.toNat, ?_, ?_⟩
    · rw [length_slice _ hin]
      exact h.recordLen i hi len hlen
    · exact (image.record?_eq_some_iff i _).mpr ⟨len, hlen, read?_of_le _ hin⟩
  refine ⟨(List.range image.recordCount.toNat).map fun i => (image.record? i).getD [], by simp, ?_⟩
  intro i r hr
  obtain ⟨hi, rfl⟩ := List.getElem?_eq_some_iff.mp hr
  rw [List.length_map, List.length_range] at hi
  obtain ⟨r, hlen, hr⟩ := hrecord i hi
  simp only [List.getElem_map, List.getElem_range, hr, Option.getD_some]
  exact ⟨hlen, trivial⟩

variable {rs : List Bytes}

theorem serializeRecords_eq {k : ℕ} (h : ∀ i r, rs[i]? = some r → image.record? (k + i) = some r)
    (hfit : ∀ r ∈ rs, r.length ≤ cfg.recordSize) :
    serializeRecords image rs.length k = some (rs.flatMap frame) ∧
      serializedSize image rs.length k = some (84 + (rs.flatMap frame).length) := by
  induction rs generalizing k with
  | nil => exact ⟨rfl, rfl⟩
  | cons r rs ih =>
    have hhead : image.record? k = some r := h 0 r rfl
    have htail : ∀ i r', rs[i]? = some r' → image.record? (k + 1 + i) = some r' := by
      intro i r' hr
      rw [Nat.add_assoc, Nat.add_comm 1 i]
      exact h (i + 1) r' hr
    obtain ⟨hrecords, hsize⟩ := ih htail fun r' hr => hfit r' (mem_cons_of_mem _ hr)
    rw [length_cons, serializeRecords, serializedSize, hhead, Image.recordLen_of_record? hhead,
      hrecords, hsize]
    simp only [toNat_length_of_le (hfit r mem_cons_self), flatMap_cons, length_append, frame,
      length_cons, some.injEq]
    exact ⟨trivial, by omega⟩

theorem Image.Holds.fit (h : image.Holds rs) (r : Bytes) (hr : r ∈ rs) :
    r.length ≤ cfg.recordSize := by
  obtain ⟨i, hi⟩ := getElem?_of_mem hr
  exact (h i r hi).1

variable (hcount : rs.length = image.recordCount.toNat) (h : image.Holds rs)

include hcount h

theorem room_eq : image.room = 84 + (rs.flatMap frame).length := by
  have hlens : ((List.range image.recordCount.toNat).map fun i =>
      1 + (image.recordLen.get? i).elim 0 UInt8.toNat) = rs.map (List.length ∘ frame) := by
    apply ext_getElem
    · simp [hcount]
    · -- each record takes the byte of its length and its own bytes
      intro i hi hi'
      rw [length_map] at hi'
      obtain ⟨hfit, hrec⟩ := h i rs[i] (getElem?_eq_getElem hi')
      simp only [getElem_map, getElem_range, Image.recordLen_of_record? hrec,
        elim_some, toNat_length_of_le hfit, Function.comp_apply, frame, length_cons]
      omega
  rw [Image.room, hlens, length_flatMap]
  rfl

theorem serialize_eq (outMax : ℕ) :
    serialize image outMax = some (if outMax < image.room then .error .enospc
      else .ok (storedHeader image ++ rs.flatMap frame)) := by
  have hrec : ∀ i r, rs[i]? = some r → image.record? (0 + i) = some r := by
    intro i r hr
    rw [Nat.zero_add]
    exact (h i r hr).2
  obtain ⟨hrecords, hsize⟩ := serializeRecords_eq hrec h.fit
  rw [serialize, ← hcount, hsize, hrecords, room_eq hcount h]
  simp only [storedHeader, map_some]
  split
  · rfl
  · rfl

omit hcount h

theorem deserializeRecords_frames {done : List Bytes} {base : Image cfg}
    (h : base.Holds done) (hslots : done.length + rs.length ≤ cfg.maxRecords)
    (hfit : ∀ r ∈ rs, r.length ≤ cfg.recordSize) (rest : Bytes) :
    ∃ base', (deserializeRecords rs.length done.length base (rs.flatMap frame ++ rest)).2 =
        some (base', .ok rest) ∧ base'.Holds (done ++ rs) ∧ base.SameHeader base' := by
  -- the records that were read move from the input to `done`
  induction rs generalizing done base with
  | nil =>
    rw [append_nil]
    exact ⟨base, rfl, h, .refl base⟩
  | cons r rs ih =>
    rw [length_cons] at hslots
    have hslot : done.length < cfg.maxRecords := by omega
    have hr := hfit r mem_cons_self
    have hlen := toNat_length_of_le hr
    have hend := slot_end_le hslot hr
    obtain ⟨base', hread, hholds, hsame⟩ := ih (h.write hslot hr)
      (by rw [length_append, length_singleton]; omega)
      (fun r' hr' => hfit r' (mem_cons_of_mem _ hr'))
    refine ⟨base', ?_, ?_, ⟨hsame.1, hsame.2, hsame.3, hsame.4, hsame.5, hsame.6, hsame.7,
      hsame.8, hsame.9, hsame.10, hsame.11⟩⟩
    · rw [length_append] at hread
      rw [length_cons, flatMap_cons, frame, append_assoc, cons_append,
        deserializeRecords, if_pos hslot]
      simp only [hlen, take_left, drop_left]
      rw [if_neg (by simp), write?_of_le _ hend]
      exact hread
    · rw [append_assoc] at hholds
      exact hholds

theorem sameHeader_readHeader {l rest : Bytes} (hl : l = storedHeader image ++ rest) :
    image.SameHeader { (readHeader l : Image cfg) with recordCount := byteAt l 82 } := by
  have hbytes : l = formatVersion :: image.panLen :: (image.pan.toList ++
      (image.expiry.toList ++ (image.name.toList ++ (image.track2Len :: (image.track2.toList ++
        (image.aip.toList ++ (image.afl.toList ++ (image.appAidLen :: (image.appAid.toList ++
          image.recordCount :: rest))))))))) := by
    rw [hl]
    simp [storedHeader]
  -- what is left of the input at each field
  have version : l.drop 0 = _ := hbytes
  have panLen : l.drop 1 = _ := drop_of_cons version
  have pan : l.drop 2 = _ := drop_of_cons panLen
  have expiry : l.drop 10 = _ := drop_of_append pan image.pan.length_toList
  have name : l.drop 13 = _ := drop_of_append expiry image.expiry.length_toList
  have track2Len : l.drop 39 = _ := drop_of_append name image.name.length_toList
  have track2 : l.drop 40 = _ := drop_of_cons track2Len
  have aip : l.drop 59 = _ := drop_of_append track2 image.track2.length_toList
  have afl : l.drop 61 = _ := drop_of_append aip image.aip.length_toList
  have aidLen : l.drop 65 = _ := drop_of_append afl image.afl.length_toList
  have aid : l.drop 66 = _ := drop_of_cons aidLen
  have count : l.drop 82 = _ := drop_of_append aid image.appAid.length_toList
  exact ⟨ofList_of_append pan, byteAt_of_cons panLen, ofList_of_append expiry,
    ofList_of_append name, ofList_of_append track2, byteAt_of_cons track2Len,
    ofList_of_append aip, ofList_of_append afl, ofList_of_append aid, byteAt_of_cons aidLen,
    byteAt_of_cons count⟩

theorem Image.SameHeader.same {image' : Image cfg}
    (h : image.SameHeader image') (hcount : rs.length = image.recordCount.toNat)
    (hrecs : image.Holds rs) (hrecs' : image'.Holds rs) : image.Same image' := by
  have hrecord : ∀ i < image.recordCount.toNat, ∃ r, image.record? i = some r ∧
      image'.record? i = some r := by
    intro i hi
    rw [← hcount] at hi
    exact ⟨rs[i], (hrecs i _ (getElem?_eq_getElem hi)).2, (hrecs' i _ (getElem?_eq_getElem hi)).2⟩
  refine ⟨h, ?_, ?_⟩
  · intro i hi
    obtain ⟨r, hr, hr'⟩ := hrecord i hi
    rw [Image.recordLen_of_record? hr, Image.recordLen_of_record? hr']
  · intro i hi
    obtain ⟨r, hr, hr'⟩ := hrecord i hi
    rw [hr, hr']

section Stored

variable {rs : List Bytes} {l : Bytes}

theorem readRecords_stored (h : image.Storable) (hcount : rs.length = image.recordCount.toNat)
    (hrecs : image.Holds rs) (hl : l = storedHeader image ++ rs.flatMap frame) :
    ∃ image', (readRecords cfg l).2 = some (image', .ok []) ∧ image.Same image' := by
  have hhead := sameHeader_readHeader hl
  have hdrop : l.drop recordsOffset = rs.flatMap frame := by
    rw [hl]
    exact drop_left' (length_storedHeader image)
  have hnum : (byteAt l 82).toNat = rs.length := by
    rw [hcount]
    exact congrArg UInt8.toNat hhead.recordCount
  have hslots : ([] : List Bytes).length + rs.length ≤ cfg.maxRecords := by
    have := h.recordCount
    rw [length_nil]
    omega
  have hstart : Image.Holds { (readHeader l : Image cfg) with recordCount := byteAt l 82 } [] := by
    intro i r hr
    cases hr
  obtain ⟨image', hread, hholds, hsame⟩ := deserializeRecords_frames hstart hslots hrecs.fit []
  rw [append_nil] at hread
  refine ⟨image', ?_, (hhead.trans hsame).same hcount hrecs hholds⟩
  rw [readRecords, hdrop, hnum]
  exact hread

theorem Image.Storable.rebuildCaches_eq (h : image.Storable) : rebuildCaches image = .ok () := by
  rw [rebuildCaches, if_neg]
  rintro (hzero | hbig)
  · have := h.appAidLen_pos
    rw [hzero] at this
    exact Nat.lt_irrefl 0 this
  · exact Nat.not_lt.mpr h.appAidLen_le hbig

theorem deserialize_stored (h : image.Storable) (hcount : rs.length = image.recordCount.toNat)
    (hrecs : image.Holds rs) (hl : l = storedHeader image ++ rs.flatMap frame)
    (hpos : 0 < rs.length) (before : Image cfg) :
    ∃ image', (deserialize before l).2 = some (image', .ok ()) ∧ image.Same image' := by
  obtain ⟨image', hread, hsame⟩ := readRecords_stored h hcount hrecs hl
  -- the length byte of the first record is the 84th byte
  have hlong : ¬ l.length < 84 := by
    obtain ⟨r, rs, rfl⟩ := exists_cons_of_length_pos hpos
    simp only [hl, length_append, length_storedHeader, recordsOffset, flatMap_cons,
      frame, length_cons]
    omega
  have hversion : byteAt l 0 = formatVersion := by
    rw [hl]
    rfl
  have haid : byteAt l 65 = image.appAidLen := (sameHeader_readHeader hl).appAidLen
  have hcaches : rebuildCaches image' = .ok () := by
    rw [rebuildCaches, hsame.appAidLen]
    exact h.rebuildCaches_eq
  refine ⟨image', ?_, hsame⟩
  rw [deserialize, if_neg hlong, if_neg (not_not_intro hversion),
    if_neg (by rw [haid]; exact Nat.not_lt.mpr h.appAidLen_le)]
  simp only [hread, map_some, finishDeserialize, if_true, hcaches]

end Stored

theorem deserialize_storedHeader (before : Image cfg) :
    (deserialize before (storedHeader image)).2 = some (before, .error .einval) := by
  rw [deserialize, if_pos (by rw [length_storedHeader]; decide)]

theorem roundTrips_iff (h : image.Storable) (outMax : ℕ) :
    image.RoundTrips outMax ↔ 0 < image.recordCount.toNat ∧ image.room ≤ outMax := by
  obtain ⟨rs, hcount, hrecs⟩ := h.exists_records
  have hserialize := serialize_eq hcount hrecs outMax
  rw [← hcount]
  constructor
  · rintro ⟨bytes, hbytes, hread⟩
    rw [hserialize, some.injEq] at hbytes
    have hroom : ¬ outMax < image.room := by
      intro hsmall
      rw [if_pos hsmall] at hbytes
      cases hbytes
    rw [if_neg hroom, Except.ok.injEq] at hbytes
    -- without a record nothing follows the header
    by_contra hnone
    obtain rfl : rs = [] := eq_nil_of_length_eq_zero (by omega)
    rw [flatMap_nil, append_nil] at hbytes
    obtain ⟨image', hok, -⟩ := hread .reset
    rw [← hbytes, deserialize_storedHeader] at hok
    cases hok
  · rintro ⟨hpos, hroom⟩
    rw [if_neg (Nat.not_lt.mpr hroom)] at hserialize
    exact ⟨_, hserialize, deserialize_stored h hcount hrecs rfl hpos⟩

theorem loadDefault_storable : (loadDefault : Image .default).Storable where
  appAidLen_pos := by decide
  appAidLen_le := by decide
  recordCount := by decide
  recordLen := by
    intro i hi len hlen
    obtain rfl : i = 0 := Nat.lt_one_iff.mp hi
    obtain rfl : (30 : UInt8) = len := some.inj hlen
    decide

theorem roundTrips_default_card :
    (loadDefault : Image .default).Storable ∧ (loadDefault : Image .default).room = 115 ∧
      (loadDefault : Image .default).RoundTrips 115 :=
  ⟨loadDefault_storable, by decide,
    (roundTrips_iff loadDefault_storable 115).mpr ⟨by decide, by decide⟩⟩

def noRecords : Image .default := storeAid serviceAppAid

theorem no_records_refused :
    noRecords.Storable ∧ ∃ bytes, serialize noRecords 512 = some (.ok bytes) ∧ bytes.length = 83 ∧
      (deserialize .reset bytes : _ × Option (Image .default × Ret)).2 =
        some (.reset, .error .einval) := by
  refine ⟨⟨by decide, by decide, by decide, ?_⟩, storedHeader noRecords, rfl,
    length_storedHeader _, deserialize_storedHeader _⟩
  intro i hi
  exact absurd hi (Nat.not_lt_zero i)

end NfcStack.Emv
