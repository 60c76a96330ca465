import NfcStack.Protocols.Classic.Stored
import NfcStack.Protocols.Classic.Stream

/-!
# The stored form of a MIFARE Classic card

`classic_serialize` and `classic_deserialize` are inverse to each other. The two meet at the content of
a card: an identifier and the blocks of its type, and fields of fixed size.
-/

namespace NfcStack.Classic

open List CArray

variable {cfg : Config}

def CardType.toByte : CardType → UInt8
  | .mini => 0
  | .type1k => 1
  | .type4k => 2
  | .unknown => 0xFF

def leBytes {w : ℕ} (k : ℕ) (n : BitVec w) : Bytes :=
  (List.range k).map fun i => UInt8.ofBitVec ((n >>> (8 * i)).setWidth 8)

def CardData.serialize (data : CardData cfg) (outMax : ℕ) : Option (Except Errno Bytes) :=
  let total := getTotalBlocks data.type
  if data.type = .unknown ∨ data.uidLen = 0 then some (.error .einval)
  else if total = 0 then some (.error .einval)
  else if outMax < 3 + data.uidLen.toNat + 3 + (32 + 16 + total * blockSize) then
    some (.error .enospc)
  else
    (data.uid.read? 0 data.uidLen.toNat).bind fun uid =>
      (data.blocks.read? 0 (total * blockSize)).map fun blocks =>
        .ok ([formatVersion, data.type.toByte, data.uidLen] ++ uid ++ [data.sak] ++
          data.atqa.toList ++ (data.blockReadMask.toList.flatMap (leBytes 4) ++
            leBytes 8 data.keyAMask ++ leBytes 8 data.keyBMask ++ blocks))

variable (k : ℕ)

theorem length_leBytes {w : ℕ} (n : BitVec w) : (leBytes k n).length = k := by
  rw [leBytes, length_map, length_range]

theorem byteAt_leBytes {w k i : ℕ} (n : BitVec w) (hi : i < k) :
    byteAt (leBytes k n) i = UInt8.ofBitVec ((n >>> (8 * i)).setWidth 8) := by
  apply byteAt_eq
  rw [leBytes, getElem?_map, getElem?_range hi]
  rfl

theorem getLsbD_leNum {w : ℕ} (bytes : Bytes) {i : ℕ} (hi : i < w) :
    (leNum w bytes).getLsbD i = (byteAt bytes (i / 8)).toBitVec.getLsbD (i % 8) := by
  rw [leNum, getLsbD_beNum _ hi, reverse_reverse]

theorem leNum_leBytes {k : ℕ} (n : BitVec (8 * k)) : leNum (8 * k) (leBytes k n) = n := by
  apply BitVec.eq_of_getLsbD_eq
  intro i hi
  rw [getLsbD_leNum _ hi, byteAt_leBytes n (by omega)]
  rw [BitVec.getLsbD_setWidth, BitVec.getLsbD_ushiftRight, Nat.div_add_mod,
    decide_eq_true (Nat.mod_lt i (by decide)), Bool.true_and]

variable {bytes : Bytes}

theorem leBytes_leNum {k : ℕ} (h : bytes.length = k) : leBytes k (leNum (8 * k) bytes) = bytes := by
  apply ext_getElem?
  intro i
  by_cases hi : i < k
  · have hbyte : UInt8.ofBitVec ((leNum (8 * k) bytes >>> (8 * i)).setWidth 8) = byteAt bytes i := by
      apply UInt8.toBitVec_inj.mp
      apply BitVec.eq_of_getLsbD_eq
      intro j hj
      rw [BitVec.getLsbD_setWidth, BitVec.getLsbD_ushiftRight, getLsbD_leNum _ (by omega),
        decide_eq_true hj, Bool.true_and, Nat.mul_add_div (by decide), Nat.div_eq_of_lt hj,
        Nat.mul_add_mod, Nat.mod_eq_of_lt hj, Nat.add_zero]
    rw [leBytes, getElem?_map, getElem?_range hi, Option.map_some, hbyte, byteAt,
      getD_eq_getElem?_getD, getElem?_eq_getElem (by omega)]
    rfl
  · rw [getElem?_eq_none (by rw [length_leBytes]; omega), getElem?_eq_none (by omega)]

def wordsOf (k : ℕ) (bytes : Bytes) : List (BitVec 32) :=
  (List.range k).map fun i => leNum 32 ((bytes.drop (4 * i)).take 4)

theorem wordsOf_succ (bytes : Bytes) :
    wordsOf (k + 1) bytes = leNum 32 (bytes.take 4) :: wordsOf k (bytes.drop 4) := by
  rw [wordsOf, range_succ_eq_map, map_cons, map_map]
  congr 1
  apply map_congr_left
  intro i _
  show leNum 32 ((bytes.drop (4 * (i + 1))).take 4) = leNum 32 (((bytes.drop 4).drop (4 * i)).take 4)
  rw [drop_drop, Nat.mul_succ, Nat.add_comm]

theorem wordsOf_flatMap (words : List (BitVec 32)) (rest : Bytes) :
    wordsOf words.length (words.flatMap (leBytes 4) ++ rest) = words := by
  induction words with
  | nil => rfl
  | cons word words ih =>
    have hlen : (leBytes 4 word).length = 4 := length_leBytes 4 word
    rw [length_cons, wordsOf_succ, flatMap_cons, append_assoc,
      take_left' hlen, drop_left' hlen, ih, leNum_leBytes (k := 4) word]

theorem flatMap_wordsOf {k : ℕ} (h : 4 * k ≤ bytes.length) :
    (wordsOf k bytes).flatMap (leBytes 4) = bytes.take (4 * k) := by
  induction k generalizing bytes with
  | zero => rfl
  | succ k ih =>
    have htake : (bytes.take 4).length = 4 := by
      rw [length_take]
      omega
    rw [wordsOf_succ, flatMap_cons, ih (by rw [length_drop]; omega),
      leBytes_leNum (k := 4) htake, Nat.mul_succ, Nat.add_comm (4 * k), take_add]

structure Content (cfg : Config) where
  type : CardType
  uid : Bytes
  sak : UInt8
  atqa : CArray UInt8 2
  blockReadMask : CArray (BitVec 32) 8
  keyAMask : BitVec 64
  keyBMask : BitVec 64
  blocks : Bytes
  known : type ≠ .unknown
  uid_pos : 0 < uid.length
  uid_le : uid.length ≤ 10
  fits : getTotalBlocks type ≤ cfg.blockCount
  length_blocks : blocks.length = getTotalBlocks type * blockSize

variable (c : Content cfg)

def Content.data : CardData cfg where
  type := c.type
  uid := (CArray.fill _ 0).write 0 c.uid
  uidLen := UInt8.ofNat c.uid.length
  blocks := (CArray.fill _ 0).write 0 c.blocks
  sak := c.sak
  atqa := c.atqa
  blockReadMask := c.blockReadMask
  keyAMask := c.keyAMask
  keyBMask := c.keyBMask

def Content.encodeTail : Bytes :=
  c.blockReadMask.toList.flatMap (leBytes 4) ++ leBytes 8 c.keyAMask ++ leBytes 8 c.keyBMask ++
    c.blocks

def Content.encode : Bytes :=
  [formatVersion, c.type.toByte, UInt8.ofNat c.uid.length] ++ c.uid ++ [c.sak] ++ c.atqa.toList ++
    c.encodeTail

structure CardData.Storable (data : CardData cfg) : Prop where
  known : data.type ≠ .unknown
  uid_pos : 0 < data.uidLen.toNat
  uid_le : data.uidLen.toNat ≤ 10
  fits : getTotalBlocks data.type ≤ cfg.blockCount

variable {data : CardData cfg}

theorem CardData.Storable.blocks_le (h : data.Storable) :
    getTotalBlocks data.type * blockSize ≤ cfg.blockCount * blockSize :=
  Nat.mul_le_mul_right blockSize h.fits

def CardData.content (data : CardData cfg) (h : data.Storable) : Content cfg where
  type := data.type
  uid := data.uid.slice 0 data.uidLen.toNat
  sak := data.sak
  atqa := data.atqa
  blockReadMask := data.blockReadMask
  keyAMask := data.keyAMask
  keyBMask := data.keyBMask
  blocks := data.blocks.slice 0 (getTotalBlocks data.type * blockSize)
  known := h.known
  uid_pos := by
    rw [length_slice _ (by have := h.uid_le; omega)]
    exact h.uid_pos
  uid_le := by
    rw [length_slice _ (by have := h.uid_le; omega)]
    exact h.uid_le
  fits := h.fits
  length_blocks := length_slice _ (by rw [Nat.zero_add]; exact h.blocks_le)

def CardData.trimmed (data : CardData cfg) : CardData cfg :=
  { data with
    uid := data.uid.keep data.uidLen.toNat 0
    blocks := data.blocks.keep (getTotalBlocks data.type * blockSize) 0 }

theorem CardData.Storable.length_uid (h : data.Storable) :
    (data.content h).uid.length = data.uidLen.toNat :=
  length_slice _ (by have := h.uid_le; omega)

theorem CardData.Storable.data_content (h : data.Storable) :
    (data.content h).data = data.trimmed := by
  rw [Content.data, h.length_uid, UInt8.ofNat_toNat]
  rfl

theorem CardData.Storable.trimmed_eq_self (h : data.Storable)
    (huid : data.uid.ConstFrom data.uidLen.toNat 0)
    (hblocks : data.blocks.ConstFrom (getTotalBlocks data.type * blockSize) 0) :
    data.trimmed = data := by
  rw [CardData.trimmed, keep_eq_self h.uid_le huid, keep_eq_self h.blocks_le hblocks]

theorem getTotalBlocks_pos {type : CardType} (h : type ≠ .unknown) : 0 < getTotalBlocks type := by
  cases type with
  | unknown => exact absurd rfl h
  | mini | type1k | type4k => decide

variable (c : Content cfg)

theorem Content.toNat_length_uid : (UInt8.ofNat c.uid.length).toNat = c.uid.length := by
  have hle := c.uid_le
  rw [UInt8.toNat_ofNat']
  omega

theorem Content.storable_data : c.data.Storable where
  known := c.known
  uid_pos := by
    have h := c.uid_pos
    rwa [← c.toNat_length_uid] at h
  uid_le := by
    have h := c.uid_le
    rwa [← c.toNat_length_uid] at h
  fits := c.fits

theorem length_flatMap_leBytes (mask : CArray (BitVec 32) 8) :
    (mask.toList.flatMap (leBytes 4)).length = 32 := by
  rw [length_flatMap, map_congr_left (fun word _ => length_leBytes 4 word),
    map_const', mask.length_toList]
  rfl

theorem Content.length_encodeTail :
    c.encodeTail.length = 48 + getTotalBlocks c.type * blockSize := by
  simp only [encodeTail, length_append, length_flatMap_leBytes, length_leBytes, c.length_blocks]

theorem Content.length_encode :
    c.encode.length = 3 + c.uid.length + 3 + (48 + getTotalBlocks c.type * blockSize) := by
  simp only [encode, length_append, c.length_encodeTail, length_toList, length_cons, length_nil]

theorem CardData.Storable.serialize_eq (h : data.Storable) {outMax : ℕ}
    (hroom : (data.content h).encode.length ≤ outMax) :
    data.serialize outMax = some (.ok (data.content h).encode) := by
  have huid := h.uid_le
  have hblocks := h.blocks_le
  rw [Content.length_encode, h.length_uid] at hroom
  have hhead : ¬ (data.type = .unknown ∨ data.uidLen = 0) := by
    rintro (hunknown | hzero)
    · exact h.known hunknown
    · have := h.uid_pos
      rw [hzero] at this
      exact absurd this (by decide)
  have htotal : getTotalBlocks data.type ≠ 0 := (getTotalBlocks_pos h.known).ne'
  have hfull : ¬ outMax < 3 + data.uidLen.toNat + 3 +
      (32 + 16 + getTotalBlocks data.type * blockSize) := Nat.not_lt.mpr hroom
  simp only [CardData.serialize]
  rw [if_neg hhead, if_neg htotal, if_neg hfull, read?_of_le _ (by omega),
    read?_of_le _ (by omega), Content.encode, h.length_uid, UInt8.ofNat_toNat]
  rfl

theorem Content.content_data : c.data.content c.storable_data = c := by
  have huid : c.data.uid.slice 0 c.data.uidLen.toNat = c.uid := by
    rw [show c.data.uidLen.toNat = c.uid.length from c.toNat_length_uid]
    exact slice_write_self _ (by have := c.uid_le; omega)
  have hblocks : c.data.blocks.slice 0 (getTotalBlocks c.data.type * blockSize) = c.blocks := by
    rw [show getTotalBlocks c.data.type * blockSize = c.blocks.length from c.length_blocks.symm]
    refine slice_write_self _ ?_
    rw [c.length_blocks, Nat.zero_add]
    exact Nat.mul_le_mul_right blockSize c.fits
  cases c
  simp only [CardData.content, Content.mk.injEq]
  exact ⟨rfl, huid, rfl, rfl, rfl, rfl, rfl, hblocks⟩

theorem CardType.ofByte_toByte (type : CardType) : CardType.ofByte type.toByte = type := by
  cases type <;> rfl

theorem CardType.toByte_ofByte {b : UInt8} (h : CardType.ofByte b ≠ .unknown) :
    (CardType.ofByte b).toByte = b := by
  rw [CardType.ofByte] at h ⊢
  split
  · exact (‹b = 0›).symm
  split
  · exact (‹b = 1›).symm
  split
  · exact (‹b = 2›).symm
  · rw [if_neg ‹_›, if_neg ‹_›, if_neg ‹_›] at h
    exact absurd rfl h

theorem maskWords_encodeTail : CArray.ofList 8 0 (maskWords c.encodeTail) = c.blockReadMask := by
  have hwords : maskWords c.encodeTail = c.blockReadMask.toList := by
    have h := wordsOf_flatMap c.blockReadMask.toList
      (leBytes 8 c.keyAMask ++ leBytes 8 c.keyBMask ++ c.blocks)
    rw [c.blockReadMask.length_toList] at h
    rw [Content.encodeTail, append_assoc, append_assoc]
    exact h
  rw [hwords, ofList_toList]

theorem deserializeTail_encodeTail (htype : data.type = c.type) :
    data.deserializeTail c.encodeTail =
      ({ data with
          blockReadMask := c.blockReadMask
          keyAMask := c.keyAMask
          keyBMask := c.keyBMask
          blocks := data.blocks.write 0 c.blocks }, .ok ()) := by
  have hlength := c.length_encodeTail
  have hwords := maskWords_encodeTail c
  have h0 : c.encodeTail.drop 0 = c.blockReadMask.toList.flatMap (leBytes 4) ++
      (leBytes 8 c.keyAMask ++ (leBytes 8 c.keyBMask ++ c.blocks)) := by
    simp [Content.encodeTail]
  generalize c.encodeTail = l at *
  have h32 := drop_of_append h0 (length_flatMap_leBytes _)
  have h40 := drop_of_append h32 (length_leBytes 8 _)
  have h48 := drop_of_append h40 (length_leBytes 8 _)
  have hkeyA : leNum 64 ((l.drop 32).take 8) = c.keyAMask := by
    rw [h32]
    exact leNum_leBytes (k := 8) _
  have hkeyB : leNum 64 ((l.drop 40).take 8) = c.keyBMask := by
    rw [h40]
    exact leNum_leBytes (k := 8) _
  have hshort : ¬ l.length < 48 := by omega
  have hfits : ¬ cfg.blockCount < getTotalBlocks c.type := Nat.not_lt.mpr c.fits
  have hexact : ¬ l.length ≠ 48 + getTotalBlocks c.type * blockSize := not_not.mpr hlength
  rw [CardData.deserializeTail, if_neg hshort]
  simp only [htype, hwords, hkeyA, hkeyB]
  rw [if_neg hfits, if_neg hexact, h48]

theorem Content.deserialize_encode : CardData.deserialize c.encode = (c.data, .ok ()) := by
  have hpos := c.uid_pos
  have hle := c.uid_le
  have hlength := c.length_encode
  have hlen := c.toNat_length_uid
  have h0 : c.encode.drop 0 = formatVersion :: c.type.toByte :: UInt8.ofNat c.uid.length ::
      (c.uid ++ (c.sak :: (c.atqa.toList ++ c.encodeTail))) := by
    simp [encode]
  generalize c.encode = l at *
  have h1 := drop_of_cons h0
  have h2 := drop_of_cons h1
  have h3 := drop_of_cons h2
  -- from here on the offsets count from the identifier
  have hsak : (l.drop 3).drop c.uid.length = c.sak :: (c.atqa.toList ++ c.encodeTail) := by
    rw [h3]
    exact drop_left' rfl
  have hatqa := drop_of_cons hsak
  have htail : (l.drop 3).drop (c.uid.length + 3) = c.encodeTail :=
    drop_of_append (k := c.uid.length + 1) hatqa c.atqa.length_toList
  have huid : (l.drop 3).take c.uid.length = c.uid := by
    rw [h3]
    exact take_left' rfl
  have hhead : ¬ (l.length < 4 ∨ byteAt l 0 ≠ formatVersion) := by
    rintro (hshort | hversion)
    · omega
    · exact hversion (byteAt_of_cons h0)
  have hroom : ¬ (c.uid.length = 0 ∨ 10 < c.uid.length ∨ l.length < 3 + c.uid.length + 3) := by
    omega
  simp only [CardData.deserialize]
  rw [if_neg hhead]
  simp only [byteAt_of_cons h1, byteAt_of_cons h2, CardType.ofByte_toByte, hlen]
  rw [if_neg c.known, if_neg hroom]
  simp only [huid, htail, byteAt_of_cons hsak, ofList_of_append hatqa]
  exact deserializeTail_encodeTail c rfl

theorem tail_of_deserializeTail {data' : CardData cfg} {rest : Bytes}
    (h : data.deserializeTail rest = (data', .ok ())) :
    getTotalBlocks data.type ≤ cfg.blockCount ∧
      rest.length = 48 + getTotalBlocks data.type * blockSize ∧
      rest = (CArray.ofList 8 0 (maskWords rest)).toList.flatMap (leBytes 4) ++
        leBytes 8 (leNum 64 ((rest.drop 32).take 8)) ++
        leBytes 8 (leNum 64 ((rest.drop 40).take 8)) ++ rest.drop 48 := by
  rw [CardData.deserializeTail] at h
  split at h
  · cases h
  simp only at h
  split at h
  · cases h
  next hfits =>
  split at h
  · cases h
  next hexact =>
  refine ⟨Nat.not_lt.mp hfits, not_not.mp hexact, ?_⟩
  have hword : (maskWords rest).length = 8 := by
    rw [maskWords, length_map, length_range]
  have htake : ∀ k, k + 8 ≤ 48 → ((rest.drop k).take 8).length = 8 := by
    intro k hk
    rw [length_take, length_drop]
    omega
  rw [toList_ofList_of_length 0 hword, leBytes_leNum (k := 8) (htake 32 (by decide)),
    leBytes_leNum (k := 8) (htake 40 (by decide)),
    show maskWords rest = wordsOf 8 rest from rfl, flatMap_wordsOf (by omega)]
  have hsplit : ∀ k, rest.drop k = (rest.drop k).take 8 ++ rest.drop (k + 8) := by
    intro k
    rw [← drop_drop, take_append_drop]
  calc rest = rest.take 32 ++ rest.drop 32 := (take_append_drop 32 rest).symm
    _ = rest.take 32 ++ ((rest.drop 32).take 8 ++ ((rest.drop 40).take 8 ++ rest.drop 48)) := by
      rw [← hsplit 40, ← hsplit 32]
    _ = _ := by simp

structure Accepted (cfg : Config) (bytes : Bytes) (n : ℕ) : Prop where
  version : byteAt bytes 0 = formatVersion
  known : CardType.ofByte (byteAt bytes 1) ≠ .unknown
  uidLen : (byteAt bytes 2).toNat = n
  uid_pos : 0 < n
  uid_le : n ≤ 10
  fits : getTotalBlocks (.ofByte (byteAt bytes 1)) ≤ cfg.blockCount
  length_eq : bytes.length =
    3 + n + 3 + (48 + getTotalBlocks (.ofByte (byteAt bytes 1)) * blockSize)
  tail : (bytes.drop 3).drop (n + 3) =
    (CArray.ofList 8 0 (maskWords ((bytes.drop 3).drop (n + 3)))).toList.flatMap (leBytes 4) ++
      leBytes 8 (leNum 64 ((((bytes.drop 3).drop (n + 3)).drop 32).take 8)) ++
      leBytes 8 (leNum 64 ((((bytes.drop 3).drop (n + 3)).drop 40).take 8)) ++
      ((bytes.drop 3).drop (n + 3)).drop 48

theorem accepted_of_deserialize (h : CardData.deserialize bytes = (data, .ok ())) :
    Accepted cfg bytes (byteAt bytes 2).toNat := by
  simp only [CardData.deserialize] at h
  split at h
  · cases h
  next hhead =>
  split at h
  · cases h
  next hknown =>
  split at h
  · cases h
  next hroom =>
  push Not at hhead hroom
  obtain ⟨hfits, hexact, htail⟩ := tail_of_deserializeTail h
  simp only [length_drop] at hexact
  exact ⟨hhead.2, hknown, rfl, by omega, by omega, hfits, by omega, htail⟩

def Accepted.content {bytes : Bytes} {n : ℕ} (h : Accepted cfg bytes n) : Content cfg where
  type := .ofByte (byteAt bytes 1)
  uid := (bytes.drop 3).take n
  sak := byteAt (bytes.drop 3) n
  atqa := .ofList 2 0 ((bytes.drop 3).drop (n + 1))
  blockReadMask := .ofList 8 0 (maskWords ((bytes.drop 3).drop (n + 3)))
  keyAMask := leNum 64 ((((bytes.drop 3).drop (n + 3)).drop 32).take 8)
  keyBMask := leNum 64 ((((bytes.drop 3).drop (n + 3)).drop 40).take 8)
  blocks := ((bytes.drop 3).drop (n + 3)).drop 48
  known := h.known
  uid_pos := by
    have hpos := h.uid_pos
    have hlen := h.length_eq
    rw [length_take, length_drop]
    omega
  uid_le := by
    have hle := h.uid_le
    rw [length_take]
    omega
  fits := h.fits
  length_blocks := by
    have hlen := h.length_eq
    simp only [length_drop]
    omega

theorem Accepted.length_uid {n : ℕ} (h : Accepted cfg bytes n) : h.content.uid.length = n := by
  have hlen := h.length_eq
  rw [Accepted.content, length_take, length_drop]
  omega

theorem Accepted.eq_encode {n : ℕ} (h : Accepted cfg bytes n) : bytes = h.content.encode := by
  have hlen := h.length_eq
  have hdrop : (bytes.drop 3).length = bytes.length - 3 := length_drop
  calc bytes = byteAt bytes 0 :: byteAt bytes 1 :: byteAt bytes 2 :: bytes.drop 3 := by
        rw [← drop_eq_cons (k := 2) (by omega), ← drop_eq_cons (k := 1) (by omega),
          ← drop_eq_cons (k := 0) (by omega), drop_zero]
    _ = formatVersion :: h.content.type.toByte :: UInt8.ofNat h.content.uid.length ::
          bytes.drop 3 := by
        have hcount : UInt8.ofNat n = byteAt bytes 2 := by
          rw [← h.uidLen, UInt8.ofNat_toNat]
        have htype : h.content.type.toByte = byteAt bytes 1 := CardType.toByte_ofByte h.known
        rw [h.version, h.length_uid, hcount, htype]
    _ = formatVersion :: h.content.type.toByte :: UInt8.ofNat h.content.uid.length ::
          (h.content.uid ++ (h.content.sak :: (h.content.atqa.toList ++ h.content.encodeTail))) := by
        rw [show h.content.encodeTail = (bytes.drop 3).drop (n + 1 + 2) from h.tail.symm,
          show h.content.atqa.toList ++ (bytes.drop 3).drop (n + 1 + 2) =
            (bytes.drop 3).drop (n + 1) from (drop_eq_ofList_append (by omega)).symm,
          show h.content.sak :: (bytes.drop 3).drop (n + 1) = (bytes.drop 3).drop n from
            (drop_eq_cons (by omega)).symm,
          show h.content.uid ++ (bytes.drop 3).drop n = bytes.drop 3 from take_append_drop _ _]
    _ = h.content.encode := by
        simp [Content.encode]

theorem exists_content (h : CardData.deserialize bytes = (data, .ok ())) :
    ∃ c : Content cfg, bytes = c.encode ∧ data = c.data := by
  have hbytes := (accepted_of_deserialize h).eq_encode
  refine ⟨_, hbytes, ?_⟩
  rw [hbytes, Content.deserialize_encode] at h
  exact (congrArg Prod.fst h).symm

/-- Storing a card and reading it gives the card, without what was behind its identifier and its
blocks; and a string that is accepted is what its card is stored as. -/
theorem classicCodec_inverse (cfg : Config) :
    (∀ (data : CardData cfg) (outMax : ℕ), data.Storable →
      3 + data.uidLen.toNat + 3 + (48 + getTotalBlocks data.type * blockSize) ≤ outMax →
      (∃ bytes, data.serialize outMax = some (.ok bytes) ∧
        CardData.deserialize bytes = (data.trimmed, .ok ())) ∧
      (data.uid.ConstFrom data.uidLen.toNat 0 →
        data.blocks.ConstFrom (getTotalBlocks data.type * blockSize) 0 → data.trimmed = data)) ∧
    ∀ (bytes : Bytes) (data : CardData cfg) (outMax : ℕ),
      CardData.deserialize bytes = (data, .ok ()) → bytes.length ≤ outMax →
      data.serialize outMax = some (.ok bytes) := by
  constructor
  · intro data outMax h hroom
    have hfull : (data.content h).encode.length ≤ outMax := by
      rw [Content.length_encode, h.length_uid]
      exact hroom
    refine ⟨⟨(data.content h).encode, h.serialize_eq hfull, ?_⟩, h.trimmed_eq_self⟩
    rw [Content.deserialize_encode, h.data_content]
  · intro bytes data outMax h hroom
    obtain ⟨c, rfl, rfl⟩ := exists_content h
    rw [c.storable_data.serialize_eq (by rw [c.content_data]; exact hroom), c.content_data]

def fourByteCard : CardData .default :=
  { (CardData.reset : CardData .default) with
    type := .type4k
    uid := (CArray.fill _ 0).write 0 [0x01, 0x02, 0x03, 0x04]
    uidLen := 4
    sak := 0x18 }

theorem storable_fourByteCard : fourByteCard.Storable := by
  refine ⟨?_, ?_, ?_, ?_⟩ <;> decide

def storedMiniCard : Bytes :=
  [0x01, 0x00, 0x01, 0xAA, 0x09, 0x04, 0x00] ++ List.replicate 48 0 ++ List.replicate 320 0x5A

theorem deserialize_storedMiniCard :
    ∃ data : CardData .default, CardData.deserialize storedMiniCard = (data, .ok ()) := by
  have hok : (CardData.deserialize storedMiniCard : CardData .default × Ret).2 = .ok () := by
    decide +kernel
  generalize CardData.deserialize storedMiniCard = r at hok ⊢
  exact ⟨r.1, Prod.ext rfl hok⟩

theorem classicCodec_inverse_fourByteCard :
    (∃ bytes, fourByteCard.serialize 4154 = some (.ok bytes) ∧
      CardData.deserialize bytes = (fourByteCard.trimmed, .ok ())) ∧
    ∃ data : CardData .default, data.serialize 375 = some (.ok storedMiniCard) := by
  obtain ⟨hread, hwrite⟩ := classicCodec_inverse .default
  refine ⟨(hread fourByteCard 4154 storable_fourByteCard (by decide)).1, ?_⟩
  obtain ⟨data, hdata⟩ := deserialize_storedMiniCard
  exact ⟨data, hwrite storedMiniCard data 375 hdata (by decide +kernel)⟩

end NfcStack.Classic
