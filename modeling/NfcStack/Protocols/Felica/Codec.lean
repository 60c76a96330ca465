import NfcStack.Protocols.Felica.ReadBack

/-!
# The stored form of a FeliCa card

A string that is accepted starts with the stored form of the card that is read from it, but bytes may
follow, and the number of blocks that were read is taken as it is.
-/

namespace NfcStack.Felica

open List CArray

def formatVersion : UInt8 := 0x02

def headerSize : ℕ := 1 + 8 + 8 + 4

def blockSize : ℕ := 2 + blockDataSize

variable (data : CardData)

def CardData.blockBytes (i : ℕ) : Bytes :=
  data.sf1.slice i 1 ++ data.sf2.slice i 1 ++ data.blocks.slice (i * blockDataSize) blockDataSize

def serialize (outMax : ℕ) : Except Errno Bytes :=
  let total := data.blocksTotal.toNat
  if data.blocksTotal = 0 ∨ blocksMax < total then .error .einval
  else if outMax < headerSize + total * blockSize then .error .enospc
  else .ok ([formatVersion] ++ data.idm.toList ++ data.pmm.toList ++ le16Bytes data.blocksTotal ++
    le16Bytes data.blocksRead ++ (List.range total).flatMap data.blockBytes)

def CardData.loadBlock (bytes : Bytes) (data : CardData) (i : ℕ) : CardData :=
  let off := headerSize + i * blockSize
  { data with
    sf1 := data.sf1.write i [byteAt bytes off]
    sf2 := data.sf2.write i [byteAt bytes (off + 1)]
    blocks := data.blocks.write (i * blockDataSize) ((bytes.drop (off + 2)).take blockDataSize) }

def deserialize (bytes : Bytes) : CardData × Ret :=
  if bytes.length < headerSize ∨ byteAt bytes 0 ≠ formatVersion then (.reset, .error .ebadmsg)
  else
    let header : CardData :=
      { CardData.reset with
        idm := .ofList _ 0 (bytes.drop 1)
        pmm := .ofList _ 0 (bytes.drop 9)
        blocksRead := le16 (byteAt bytes 19) (byteAt bytes 20) }
    let blocksTotal := le16 (byteAt bytes 17) (byteAt bytes 18)
    let total := blocksTotal.toNat
    if blocksTotal = 0 ∨ blocksMax < total ∨ bytes.length < headerSize + total * blockSize then
      (header, .error .ebadmsg)
    else
      ((List.range total).foldl (CardData.loadBlock bytes) { header with blocksTotal }, .ok ())

theorem block_end_le {i : ℕ} (hi : i < blocksMax) :
    i * blockDataSize + blockDataSize ≤ blocksMax * blockDataSize := by
  rw [← Nat.succ_mul]
  exact Nat.mul_le_mul_right _ hi

theorem length_blockBytes {i : ℕ} (hi : i < blocksMax) :
    (data.blockBytes i).length = blockSize := by
  rw [CardData.blockBytes, length_append, length_append,
    length_slice _ (by omega), length_slice _ (by omega),
    length_slice _ (block_end_le hi), blockSize]

structure CardData.Loaded (bytes : Bytes) (k : ℕ) (data : CardData) : Prop where
  blockBytes : ∀ j < k, data.blockBytes j = (bytes.drop (headerSize + j * blockSize)).take blockSize
  sf1 : data.sf1.ConstFrom k 0
  sf2 : data.sf2.ConstFrom k 0
  blocks : data.blocks.ConstFrom (k * blockDataSize) 0

structure BlockAt (bytes : Bytes) (k : ℕ) : Prop where
  lt_blocksMax : k < blocksMax
  end_le : headerSize + k * blockSize + blockSize ≤ bytes.length

variable {bytes : Bytes}

theorem BlockAt.length_data {k : ℕ} (h : BlockAt bytes k) :
    ((bytes.drop (headerSize + k * blockSize + 2)).take blockDataSize).length = blockDataSize := by
  have hend := h.end_le
  rw [blockSize] at hend
  rw [length_take, length_drop, blockSize]
  omega

theorem BlockAt.data_end_le {k : ℕ} (h : BlockAt bytes k) :
    k * blockDataSize +
        ((bytes.drop (headerSize + k * blockSize + 2)).take blockDataSize).length ≤
      blocksMax * blockDataSize := by
  rw [h.length_data]
  exact block_end_le h.lt_blocksMax

theorem blockBytes_loadBlock_self (data : CardData) {k : ℕ} (h : BlockAt bytes k) :
    (data.loadBlock bytes k).blockBytes k =
      (bytes.drop (headerSize + k * blockSize)).take blockSize := by
  have hk := h.lt_blocksMax
  have hend := h.end_le
  rw [show blockSize = blockDataSize + 1 + 1 from rfl] at hend ⊢
  have hdata : ((data.loadBlock bytes k).blocks).slice (k * blockDataSize) blockDataSize =
      (bytes.drop (headerSize + k * blockSize + 2)).take blockDataSize := by
    have hwritten := slice_write_self data.blocks h.data_end_le
    rwa [h.length_data] at hwritten
  rw [drop_eq_cons (by omega), drop_eq_cons (by omega), CardData.blockBytes, hdata]
  simp only [CardData.loadBlock]
  rw [slice_write_one _ hk, slice_write_one _ hk]
  rfl

theorem blockBytes_loadBlock_of_lt (data : CardData) {j k : ℕ} (hk : BlockAt bytes k)
    (hjk : j < k) : (data.loadBlock bytes k).blockBytes j = data.blockBytes j := by
  have hend : j * blockDataSize + blockDataSize ≤ k * blockDataSize := by
    rw [← Nat.succ_mul]
    exact Nat.mul_le_mul_right _ hjk
  have hlt := hk.lt_blocksMax
  simp only [CardData.blockBytes, CardData.loadBlock]
  rw [slice_write_of_disjoint _ (by simpa using hlt) (.inl (by omega)),
    slice_write_of_disjoint _ (by simpa using hlt) (.inl (by omega)),
    slice_write_of_disjoint _ hk.data_end_le (.inl hend)]

variable {data : CardData}

theorem CardData.Loaded.loadBlock {k : ℕ} (h : data.Loaded bytes k) (hk : BlockAt bytes k) :
    (data.loadBlock bytes k).Loaded bytes (k + 1) := by
  have hlt := hk.lt_blocksMax
  refine ⟨?_, h.sf1.write_one hlt _, h.sf2.write_one hlt _, ?_⟩
  · intro j hj
    rcases Nat.lt_succ_iff_lt_or_eq.mp hj with hold | rfl
    · rw [blockBytes_loadBlock_of_lt data hk hold, h.blockBytes j hold]
    · exact blockBytes_loadBlock_self data hk
  · have hblocks := h.blocks.write hk.data_end_le
    rwa [hk.length_data, ← Nat.succ_mul] at hblocks

theorem loaded_foldl (h : data.Loaded bytes 0) {n : ℕ}
    (hn : n ≤ blocksMax) (hlen : headerSize + n * blockSize ≤ bytes.length) :
    ((List.range n).foldl (CardData.loadBlock bytes) data).Loaded bytes n := by
  induction n with
  | zero => exact h
  | succ n ih =>
    rw [Nat.succ_mul] at hlen
    rw [range_succ, foldl_append]
    exact (ih (by omega) (by omega)).loadBlock ⟨hn, by omega⟩

theorem foldl_loadBlock_fields (bytes : Bytes) (data : CardData) (l : List ℕ) :
    let out := l.foldl (CardData.loadBlock bytes) data
    out.idm = data.idm ∧ out.pmm = data.pmm ∧ out.blocksTotal = data.blocksTotal ∧
      out.blocksRead = data.blocksRead := by
  induction l generalizing data with
  | nil => exact ⟨rfl, rfl, rfl, rfl⟩
  | cons i l ih => exact ih (data.loadBlock bytes i)

def CardData.Storable (data : CardData) : Prop :=
  0 < data.blocksTotal.toNat ∧ data.blocksTotal.toNat ≤ blocksMax

instance (data : CardData) : Decidable data.Storable := inferInstanceAs (Decidable (_ ∧ _))

def CardData.storedSize (data : CardData) : ℕ := headerSize + data.blocksTotal.toNat * blockSize

def CardData.headerBytes (data : CardData) : Bytes :=
  formatVersion :: (data.idm.toList ++ (data.pmm.toList ++ (le16Bytes data.blocksTotal ++
    le16Bytes data.blocksRead)))

def CardData.encode (data : CardData) : Bytes :=
  data.headerBytes ++ (List.range data.blocksTotal.toNat).flatMap data.blockBytes

def CardData.trimmed (data : CardData) : CardData :=
  { data with
    sf1 := data.sf1.keep data.blocksTotal.toNat 0
    sf2 := data.sf2.keep data.blocksTotal.toNat 0
    blocks := data.blocks.keep (data.blocksTotal.toNat * blockDataSize) 0 }

theorem toNat_pos_iff {x : UInt16} : 0 < x.toNat ↔ x ≠ 0 := by
  rw [Nat.pos_iff_ne_zero, ne_eq, ne_eq, ← UInt16.toNat_inj]
  rfl

theorem CardData.Storable.serialize_eq (h : data.Storable) {outMax : ℕ}
    (hroom : data.storedSize ≤ outMax) : serialize data outMax = .ok data.encode := by
  have hcount : ¬ (data.blocksTotal = 0 ∨ blocksMax < data.blocksTotal.toNat) := by
    rintro (hzero | hmax)
    · exact toNat_pos_iff.mp h.1 hzero
    · exact absurd h.2 (Nat.not_le.mpr hmax)
  have hsize : ¬ outMax < headerSize + data.blocksTotal.toNat * blockSize := Nat.not_lt.mpr hroom
  rw [serialize]
  simp only [if_neg hcount, if_neg hsize]
  simp only [CardData.encode, CardData.headerBytes, append_assoc, cons_append, nil_append]

theorem CardData.length_headerBytes (data : CardData) : data.headerBytes.length = headerSize := by
  simp only [headerBytes, length_cons, length_append, length_toList]
  rfl

theorem CardData.Storable.length_encode (h : data.Storable) :
    data.encode.length = data.storedSize := by
  have hblocks : ((List.range data.blocksTotal.toNat).flatMap data.blockBytes).length =
      data.blocksTotal.toNat * blockSize :=
    length_flatMap_range fun j hj => length_blockBytes data (hj.trans_le h.2)
  rw [CardData.encode, length_append, CardData.length_headerBytes, hblocks, CardData.storedSize]

def headerOf (bytes : Bytes) : CardData :=
  { CardData.reset with
    idm := .ofList _ 0 (bytes.drop 1)
    pmm := .ofList _ 0 (bytes.drop 9)
    blocksTotal := le16 (byteAt bytes 17) (byteAt bytes 18)
    blocksRead := le16 (byteAt bytes 19) (byteAt bytes 20) }

structure Accepts (bytes : Bytes) : Prop where
  headerSize_le : headerSize ≤ bytes.length
  version : byteAt bytes 0 = formatVersion
  storable : (headerOf bytes).Storable
  storedSize_le : (headerOf bytes).storedSize ≤ bytes.length

theorem accepts_of_deserialize (h : deserialize bytes = (data, .ok ())) : Accepts bytes := by
  by_cases hhead : bytes.length < headerSize ∨ byteAt bytes 0 ≠ formatVersion
  · rw [deserialize, if_pos hhead] at h
    cases h
  rw [deserialize, if_neg hhead] at h
  simp only at h
  split at h
  · cases h
  next htail =>
  push Not at hhead htail
  exact ⟨hhead.1, hhead.2, ⟨toNat_pos_iff.mpr htail.1, htail.2.1⟩, htail.2.2⟩

theorem Accepts.deserialize_eq (h : Accepts bytes) :
    deserialize bytes = ((List.range (headerOf bytes).blocksTotal.toNat).foldl
      (CardData.loadBlock bytes) (headerOf bytes), .ok ()) := by
  have hhead : ¬ (bytes.length < headerSize ∨ byteAt bytes 0 ≠ formatVersion) := by
    rintro (hshort | hversion)
    · exact absurd h.headerSize_le (Nat.not_le.mpr hshort)
    · exact hversion h.version
  have htail : ¬ ((headerOf bytes).blocksTotal = 0 ∨
      blocksMax < (headerOf bytes).blocksTotal.toNat ∨
      bytes.length < (headerOf bytes).storedSize) := by
    rintro (hzero | hmax | hshort)
    · exact toNat_pos_iff.mp h.storable.1 hzero
    · exact absurd h.storable.2 (Nat.not_le.mpr hmax)
    · exact absurd h.storedSize_le (Nat.not_le.mpr hshort)
  rw [deserialize, if_neg hhead]
  exact if_neg htail

theorem loaded_headerOf (bytes : Bytes) : (headerOf bytes).Loaded bytes 0 where
  blockBytes j hj := absurd hj (Nat.not_lt_zero j)
  sf1 := constFrom_fill _ _ _
  sf2 := constFrom_fill _ _ _
  blocks := constFrom_fill _ _ _

theorem Accepts.exists_loaded (h : Accepts bytes) :
    ∃ data, deserialize bytes = (data, .ok ()) ∧
      data.Loaded bytes (headerOf bytes).blocksTotal.toNat ∧
      data.idm = (headerOf bytes).idm ∧ data.pmm = (headerOf bytes).pmm ∧
      data.blocksTotal = (headerOf bytes).blocksTotal ∧
      data.blocksRead = (headerOf bytes).blocksRead :=
  ⟨_, h.deserialize_eq, loaded_foldl (loaded_headerOf bytes) h.storable.2 h.storedSize_le,
    foldl_loadBlock_fields bytes (headerOf bytes) _⟩

theorem Accepts.eq_header_append (h : Accepts bytes) :
    bytes = (headerOf bytes).headerBytes ++ bytes.drop headerSize := by
  have hlen : 21 ≤ bytes.length := h.headerSize_le
  calc bytes = byteAt bytes 0 :: bytes.drop 1 := drop_eq_cons (k := 0) (by omega)
    _ = formatVersion :: ((headerOf bytes).idm.toList ++ bytes.drop 9) := by
      rw [h.version, drop_eq_ofList_append (k := 1) (n := 8) (by omega)]
      rfl
    _ = formatVersion :: ((headerOf bytes).idm.toList ++ ((headerOf bytes).pmm.toList ++
          bytes.drop 17)) := by
      rw [drop_eq_ofList_append (k := 9) (n := 8) (by omega)]
      rfl
    _ = (headerOf bytes).headerBytes ++ bytes.drop headerSize := by
      rw [drop_eq_le16Bytes_append (k := 17) (by omega),
        drop_eq_le16Bytes_append (k := 19) (by omega)]
      simp only [CardData.headerBytes, append_assoc, cons_append]
      rfl

theorem take_eq_encode_of_deserialize
    (h : deserialize bytes = (data, .ok ())) : bytes.take data.storedSize = data.encode := by
  have haccepts := accepts_of_deserialize h
  obtain ⟨data', hdata, hloaded, hidm, hpmm, htotal, hread⟩ := haccepts.exists_loaded
  obtain rfl : data' = data := (Prod.mk.inj (hdata.symm.trans h)).1
  have hheader : data'.headerBytes = (headerOf bytes).headerBytes := by
    rw [CardData.headerBytes, hidm, hpmm, htotal, hread]
    rfl
  have hblocks : (List.range data'.blocksTotal.toNat).flatMap data'.blockBytes =
      (bytes.drop headerSize).take (data'.blocksTotal.toNat * blockSize) := by
    rw [← flatMap_range_rows]
    refine flatMap_congr fun j hj => ?_
    rw [htotal, mem_range] at hj
    rw [hloaded.blockBytes j hj, drop_drop]
  have hfront : bytes.take headerSize = (headerOf bytes).headerBytes := by
    conv_lhs => rw [haccepts.eq_header_append]
    exact take_left' (CardData.length_headerBytes _)
  rw [CardData.encode, hblocks, hheader, ← hfront, CardData.storedSize, take_add]

theorem slices_eq_of_blockBytes {a b : CardData} {n : ℕ} (hn : n ≤ blocksMax)
    (h : ∀ j < n, a.blockBytes j = b.blockBytes j) :
    a.sf1.slice 0 n = b.sf1.slice 0 n ∧ a.sf2.slice 0 n = b.sf2.slice 0 n ∧
      a.blocks.slice 0 (n * blockDataSize) = b.blocks.slice 0 (n * blockDataSize) := by
  have hfields : ∀ j < n, (a.sf1.slice j 1 = b.sf1.slice j 1 ∧ a.sf2.slice j 1 = b.sf2.slice j 1) ∧
      a.blocks.slice (j * blockDataSize) blockDataSize =
        b.blocks.slice (j * blockDataSize) blockDataSize := by
    intro j hj
    have hlt : j + 1 ≤ blocksMax := by omega
    have hlen1 : (a.sf1.slice j 1).length = (b.sf1.slice j 1).length := by
      rw [length_slice _ hlt, length_slice _ hlt]
    have hlen2 : (a.sf2.slice j 1).length = (b.sf2.slice j 1).length := by
      rw [length_slice _ hlt, length_slice _ hlt]
    obtain ⟨hflags, hdata⟩ := append_inj (h j hj) (by
      rw [length_append, length_append, hlen1, hlen2])
    exact ⟨append_inj hflags hlen1, hdata⟩
  have hrow1 := fun c : CArray UInt8 blocksMax => slice_rows c 1 n
  simp only [Nat.mul_one] at hrow1
  refine ⟨?_, ?_, ?_⟩
  · rw [← hrow1, ← hrow1]
    exact flatMap_congr fun j hj => (hfields j (mem_range.mp hj)).1.1
  · rw [← hrow1, ← hrow1]
    exact flatMap_congr fun j hj => (hfields j (mem_range.mp hj)).1.2
  · rw [← slice_rows, ← slice_rows]
    exact flatMap_congr fun j hj => (hfields j (mem_range.mp hj)).2

theorem headerOf_encode_append (data : CardData) (rest : Bytes) :
    headerOf (data.encode ++ rest) =
      { CardData.reset with
        idm := data.idm
        pmm := data.pmm
        blocksTotal := data.blocksTotal
        blocksRead := data.blocksRead } := by
  obtain ⟨l, hl⟩ : ∃ l, l = data.encode ++ rest := ⟨_, rfl⟩
  have h0 : l.drop 0 = data.encode ++ rest := hl
  simp only [CardData.encode, CardData.headerBytes, append_assoc, cons_append] at h0
  have h1 := drop_of_cons h0
  have h9 := drop_of_append h1 (m := 8) data.idm.length_toList
  have h17 := drop_of_append h9 (m := 8) data.pmm.length_toList
  have h19 := drop_of_append h17 (m := 2) rfl
  have htotal : le16 (byteAt l 17) (byteAt l 18) = data.blocksTotal := le16_of_append h17
  have hread : le16 (byteAt l 19) (byteAt l 20) = data.blocksRead := le16_of_append h19
  rw [← hl, headerOf, htotal, hread, ofList_of_append h1, ofList_of_append h9]

theorem CardData.Storable.deserialize_encode_append (h : data.Storable)
    (rest : Bytes) : deserialize (data.encode ++ rest) = (data.trimmed, .ok ()) := by
  have hheader := headerOf_encode_append data rest
  have haccepts : Accepts (data.encode ++ rest) := by
    have hlen : data.storedSize ≤ (data.encode ++ rest).length := by
      rw [length_append, h.length_encode]
      exact Nat.le_add_right _ _
    refine ⟨(Nat.le_add_right _ _).trans hlen, rfl, ?_, ?_⟩
    · rw [hheader]
      exact h
    · rw [hheader]
      exact hlen
  obtain ⟨out, hout, hloaded, hidm, hpmm, htotal, hread⟩ := haccepts.exists_loaded
  rw [hheader] at hidm hpmm htotal hread hloaded
  have hblocks : ∀ j < data.blocksTotal.toNat, out.blockBytes j = data.blockBytes j := by
    intro j hj
    rw [hloaded.blockBytes j hj, ← drop_drop, CardData.encode, append_assoc,
      drop_left' (CardData.length_headerBytes data)]
    exact row_flatMap_range
      (fun i hi => length_blockBytes data (hi.trans_le h.2)) hj rest
  obtain ⟨hsf1, hsf2, hdata⟩ := slices_eq_of_blockBytes h.2 hblocks
  have hkeep1 := eq_keep h.2 hloaded.sf1 hsf1
  have hkeep2 := eq_keep h.2 hloaded.sf2 hsf2
  have hkeep := eq_keep (Nat.mul_le_mul_right _ h.2) hloaded.blocks hdata
  rw [hout]
  obtain ⟨⟨idm, pmm, total, blocks⟩, read, sf1, sf2⟩ := out
  simp only at hidm hpmm htotal hread hkeep1 hkeep2 hkeep
  rw [hidm, hpmm, htotal, hread, hkeep1, hkeep2, hkeep, CardData.trimmed]

structure CardData.Trimmed (data : CardData) : Prop where
  sf1 : data.sf1.ConstFrom data.blocksTotal.toNat 0
  sf2 : data.sf2.ConstFrom data.blocksTotal.toNat 0
  blocks : data.blocks.ConstFrom (data.blocksTotal.toNat * blockDataSize) 0

theorem CardData.Trimmed.trimmed_eq_self (h : data.Trimmed)
    (hstorable : data.Storable) : data.trimmed = data := by
  have hfit := hstorable.2
  rw [CardData.trimmed, keep_eq_self hfit h.sf1, keep_eq_self hfit h.sf2,
    keep_eq_self (Nat.mul_le_mul_right _ hfit) h.blocks]

def Canonical (bytes : Bytes) : Prop :=
  bytes.length = (headerOf bytes).storedSize ∧
    (headerOf bytes).blocksRead ≤ (headerOf bytes).blocksTotal

instance (bytes : Bytes) : Decidable (Canonical bytes) := inferInstanceAs (Decidable (_ ∧ _))

/-- A card that was read from a string is stored as the front of the string. It is stored as the whole
string, with a count of blocks read that is no larger than that of the blocks, exactly if the string is
canonical. And every card is read back from its stored form, without what was behind its blocks. -/
theorem felicaCodec_canonical_iff (bytes : Bytes) (data : CardData) (outMax : ℕ) :
    (deserialize bytes = (data, .ok ()) → bytes.length ≤ outMax →
      data.blocksTotal.toNat ≤ blocksMax ∧
      serialize data outMax = .ok (bytes.take data.storedSize) ∧
      (data.blocksRead ≤ data.blocksTotal ∧ serialize data outMax = .ok bytes ↔ Canonical bytes)) ∧
    (data.Storable → data.storedSize ≤ outMax → (∃ stored, serialize data outMax = .ok stored ∧
        deserialize stored = (data.trimmed, .ok ())) ∧ (data.Trimmed → data.trimmed = data)) := by
  constructor
  · intro h hroom
    have haccepts := accepts_of_deserialize h
    obtain ⟨data', hdata, -, -, -, htotal, hread⟩ := haccepts.exists_loaded
    obtain rfl : data' = data := (Prod.mk.inj (hdata.symm.trans h)).1
    have hsize : data'.storedSize = (headerOf bytes).storedSize := by
      rw [CardData.storedSize, htotal]
      rfl
    have hstorable : data'.Storable := by
      rw [CardData.Storable, htotal]
      exact haccepts.storable
    have hle : data'.storedSize ≤ bytes.length := hsize.trans_le haccepts.storedSize_le
    have hstored : serialize data' outMax = .ok (bytes.take data'.storedSize) := by
      rw [take_eq_encode_of_deserialize h]
      exact hstorable.serialize_eq (hle.trans hroom)
    refine ⟨hstorable.2, hstored, ?_⟩
    rw [hstored, Except.ok.injEq, take_eq_self_iff, hread, htotal, Canonical, ← hsize]
    constructor
    · rintro ⟨hcounts, hshort⟩
      exact ⟨Nat.le_antisymm hshort hle, hcounts⟩
    · rintro ⟨hlen, hcounts⟩
      exact ⟨hcounts, hlen.le⟩
  · intro h hroom
    refine ⟨⟨_, h.serialize_eq hroom, ?_⟩, fun htrimmed => htrimmed.trimmed_eq_self h⟩
    have hback := h.deserialize_encode_append []
    rwa [append_nil] at hback

def oneBlockBytes : Bytes :=
  [0x02] ++ List.replicate 16 0 ++ [1, 0, 0, 0] ++ List.replicate 18 0

theorem felicaCodec_canonical_oneBlock :
    ∃ data, deserialize oneBlockBytes = (data, .ok ()) ∧ serialize data 39 = .ok oneBlockBytes := by
  have h : deserialize oneBlockBytes = ((deserialize oneBlockBytes).1, .ok ()) := by decide +kernel
  have hcanonical : Canonical oneBlockBytes := by decide +kernel
  exact ⟨_, h, (((felicaCodec_canonical_iff _ _ 39).1 h (by decide)).2.2.mpr hcanonical).2⟩

/-- A card with one block of which 65535 are said to have been read is accepted, and so is one with a
byte behind its stored form, which is stored without it. -/
theorem deserialize_accepts_more :
    (deserialize ([0x02] ++ List.replicate 16 0 ++ [1, 0, 0xFF, 0xFF] ++ List.replicate 18 0)).2 =
        .ok () ∧
      (deserialize ([0x02] ++ List.replicate 16 0 ++ [1, 0, 0xFF, 0xFF] ++
        List.replicate 18 0)).1.blocksRead = 0xFFFF ∧
      (deserialize (oneBlockBytes ++ [0xAA])).2 = .ok () ∧
      serialize (deserialize (oneBlockBytes ++ [0xAA])).1 40 = .ok oneBlockBytes := by
  refine ⟨?_, ?_, ?_, ?_⟩ <;> decide +kernel

end NfcStack.Felica
