import NfcStack.Protocols.Classic.Authentication
import NfcStack.Lib.Hoare

/-!
# Reading an emulated Classic card back

The poller takes the identifier anew from the first block, which decides whether it keeps the one of
the session, and with it the way into the next sectors.
-/

namespace NfcStack.Classic

open List Option CArray Reader Hoare Poll UInt8

variable {cfg : Config}

theorem block_of_sector : ∀ sector < 40, ∀ i < 16,
    i < (getBlocksInSector (UInt8.ofNat sector)).toNat →
    let first := getFirstBlockOfSector (UInt8.ofNat sector)
    (first + UInt8.ofNat i).toNat = first.toNat + i ∧
      getSectorByBlock (first + UInt8.ofNat i) = UInt8.ofNat sector := by
  decide +kernel

theorem block_in_sector (b : UInt8) :
    (b - getFirstBlockOfSector (getSectorByBlock b)).toNat <
        (getBlocksInSector (getSectorByBlock b)).toNat ∧ (getSectorByBlock b).toNat < 40 := by
  obtain ⟨⟨b⟩⟩ := b
  revert b
  decide +kernel

def trailerOf (b : UInt8) : UInt8 :=
  getFirstBlockOfSector (getSectorByBlock b) + getBlocksInSector (getSectorByBlock b) - 1

variable {b : UInt8} {type : CardType}

theorem isSectorTrailer_trailerOf (b : UInt8) : isSectorTrailer (trailerOf b) = true := by
  obtain ⟨⟨b⟩⟩ := b
  revert b
  decide +kernel

theorem trailerOf_lt (h : b.toNat < getTotalBlocks type) :
    (trailerOf b).toNat < getTotalBlocks type := by
  obtain ⟨⟨b⟩⟩ := b
  revert b
  cases type <;> decide +kernel

theorem sector_lt_iff (type : CardType) (b : UInt8) :
    (getSectorByBlock b).toNat < getTotalSectors type ↔ b.toNat < getTotalBlocks type := by
  obtain ⟨⟨b⟩⟩ := b
  revert b
  cases type <;> decide +kernel

theorem type_eq (h : type ≠ .unknown) :
    type = if (254 : UInt8).toNat < getTotalBlocks type then .type4k
      else if (62 : UInt8).toNat < getTotalBlocks type then .type1k else .mini := by
  cases type with
  | unknown => exact absurd rfl h
  | mini | type1k | type4k => rfl

theorem getTotalBlocks_ge (h : type ≠ .unknown) : 20 ≤ getTotalBlocks type := by
  cases type with
  | unknown => exact absurd rfl h
  | mini | type1k | type4k => decide

theorem getTotalSectors_le (type : CardType) : getTotalSectors type ≤ 40 := by
  cases type <;> decide

variable (data : CardData cfg)

def CardData.stored (block : UInt8) (bytes : Bytes) : CardData cfg :=
  { data with
    blocks := data.blocks.write (block.toNat * blockSize) bytes
    blockReadMask := data.blockReadMask.set (maskWord block)
      (data.blockReadMask.get (maskWord block) ||| maskBit block) }

theorem block_end_le (h : b.toNat < cfg.blockCount) :
    b.toNat * blockSize + blockSize ≤ cfg.blockCount * blockSize := by
  have := Nat.mul_le_mul_right blockSize (Nat.succ_le_of_lt h)
  rwa [Nat.succ_mul] at this

variable {bytes : Bytes}

theorem setBlockRead_eq (hb : b.toNat < cfg.blockCount)
    (hlen : bytes.length = blockSize) : data.setBlockRead b bytes = some (data.stored b bytes) := by
  rw [CardData.setBlockRead, write?_of_le _ (by rw [hlen]; exact block_end_le hb)]
  rfl

theorem and_maskBit (w : BitVec 32) (b : UInt8) :
    (w &&& maskBit b != 0) = w.getLsbD (b.toNat % 32) :=
  and_bit_ne_zero w (Nat.mod_lt _ (by decide))

theorem isBlockRead_stored (b b' : UInt8) (bytes : Bytes) :
    (data.stored b bytes).isBlockRead b' = (decide (b = b') || data.isBlockRead b') := by
  rw [CardData.isBlockRead, CardData.isBlockRead, and_maskBit, and_maskBit]
  by_cases hword : maskWord b = maskWord b'
  · have hget : (data.stored b bytes).blockReadMask.get (maskWord b') =
        data.blockReadMask.get (maskWord b') ||| maskBit b := by
      rw [← hword]
      exact get_set_self _ _ _
    have hdiv : b.toNat / 32 = b'.toNat / 32 := congrArg Fin.val hword
    have hbit : (maskBit b).getLsbD (b'.toNat % 32) = decide (b = b') := by
      rw [maskBit, ← BitVec.twoPow_eq]
      have hlt : b.toNat % 32 < 32 := Nat.mod_lt _ (by decide)
      by_cases heq : b = b'
      · subst heq
        simp [hlt]
      · have hne : b.toNat ≠ b'.toNat := fun h => heq (UInt8.toNat_inj.mp h)
        have hmod : b.toNat % 32 ≠ b'.toNat % 32 := by omega
        simp [heq, hmod]
    rw [hget, BitVec.getLsbD_or, hbit, Bool.or_comm]
  · have hget : (data.stored b bytes).blockReadMask.get (maskWord b') =
        data.blockReadMask.get (maskWord b') :=
      get_set_ne _ (fun h => hword (Fin.ext h)) _
    have hne : b ≠ b' := fun h => hword (h ▸ rfl)
    rw [hget, decide_eq_false hne, Bool.false_or]

theorem block_stored (hb : b.toNat < cfg.blockCount) (hlen : bytes.length = blockSize)
    (b' : UInt8) : (data.stored b bytes).block b' = if b = b' then bytes else data.block b' := by
  have hend := block_end_le hb
  split
  · next heq =>
    subst heq
    have hself : (data.blocks.write (b.toNat * blockSize) bytes).slice (b.toNat * blockSize)
        bytes.length = bytes := slice_write_self _ (by rw [hlen]; exact hend)
    rw [hlen] at hself
    exact hself
  · next hne =>
    have hnat : b.toNat ≠ b'.toNat := fun h => hne (UInt8.toNat_inj.mp h)
    refine slice_write_of_disjoint data.blocks (by rw [hlen]; exact hend) ?_
    rw [hlen]
    simp only [blockSize]
    omega

variable {n : ℕ}

theorem get?_eq_byteAt (a : CArray UInt8 n) {i : ℕ} (h : i < n) :
    a.get? i = some (byteAt a.toList i) := by
  simp [CArray.get?, byteAt, h]

structure Data.SameUid (model data : Data cfg) : Prop where
  len : data.uidLen = model.uidLen
  bytes : ∀ i < model.uidLen.toNat, byteAt data.uid.toList i = byteAt model.uid.toList i

variable {model : Data cfg}

theorem Data.SameUid.cuid {data : Data cfg} (h : model.SameUid data)
    (hlen : model.uidLen = 4 ∨ model.uidLen = 7) :
    cuidFromUid data.uid data.uidLen = cuidFromUid model.uid model.uidLen := by
  have hend : (if model.uidLen = 7 then 3 else 0) + 4 = model.uidLen.toNat ∧
      model.uidLen.toNat ≤ 10 := by
    rcases hlen with hlen | hlen <;> rw [hlen] <;> decide
  rw [cuidFromUid, h.len]
  congr 1
  apply slice_congr
  intro i hi
  rw [get?_eq_byteAt _ (by omega), get?_eq_byteAt _ (by omega), h.bytes _ (by omega)]

/-- A card of a known type whose blocks are all in the model, with an identifier of four bytes that
does not start with 88 or of seven bytes, at the start of block 0, and the default key A in every
sector. -/
structure Data.Genuine (model : Data cfg) : Prop where
  type : model.type ≠ .unknown
  full : getTotalBlocks model.type ≤ cfg.blockCount
  uidLen : (model.uidLen = 4 ∧ byteAt model.uid.toList 0 ≠ 0x88) ∨ model.uidLen = 7
  block0 : ∀ i < model.uidLen.toNat, byteAt (model.block 0) i = byteAt model.uid.toList i
  keys : ∀ b : UInt8, b.toNat < getTotalBlocks model.type → isSectorTrailer b →
    (model.block b).take keySize = List.replicate keySize 0xFF

def Data.UidKept (model : Data cfg) : Prop :=
  model.uidLen = 4 ∨
    ((∀ i < 3, byteAt (model.block 1) i = byteAt model.uid.toList (4 + i)) ∧
      (byteAt model.uid.toList 0 = 0 ∨ ∀ i < 5, byteAt model.uid.toList i = 0x88))

namespace Data.Genuine

variable {model : Data cfg} (h : model.Genuine)

include h

theorem uidLen_cases : model.uidLen = 4 ∨ model.uidLen = 7 :=
  h.uidLen.imp And.left id

theorem length_block (hb : b.toNat < getTotalBlocks model.type) :
    (model.block b).length = blockSize :=
  length_slice _ (block_end_le (Nat.lt_of_lt_of_le hb h.full))

theorem blockValid : Classic.blockValid model b = true ↔ b.toNat < getTotalBlocks model.type := by
  simp [Classic.blockValid, h.type]

theorem keyAForBlock (hb : b.toNat < getTotalBlocks model.type) :
    Classic.keyAForBlock model b = some defaultKey := by
  have htrailer := trailerOf_lt hb
  have hend : (trailerOf b).toNat * blockSize + blockSize ≤ cfg.blockCount * blockSize :=
    block_end_le (Nat.lt_of_lt_of_le htrailer h.full)
  have hkey := h.keys _ htrailer (isSectorTrailer_trailerOf b)
  have hslice : model.blocks.slice ((trailerOf b).toNat * blockSize) keySize =
      (model.block (trailerOf b)).take keySize := by
    rw [Data.block, CArray.slice, CArray.slice, take_take]
    rfl
  show (model.blocks.read? ((trailerOf b).toNat * blockSize) keySize).map (beNum 64) = _
  rw [read?_of_le _ (by simp only [blockSize, keySize] at hend ⊢; omega), hslice, hkey]
  rfl

end Data.Genuine

structure State.Emulates (st : State cfg) (model : Data cfg) : Prop where
  initialized : st.initialized = true
  model : st.model = model

section Exchange

variable (silence : Errno) {st : State cfg} {model : Data cfg} {b : UInt8} (hst : st.Emulates model)
  (hmodel : model.Genuine)

include hst hmodel

theorem onTagCmd_authFirst (hb : b.toNat < getTotalBlocks model.type) :
    ∃ st', onTagCmd st [0x60, b] = some (st', some (be32Bytes st'.nt)) ∧
      st'.Challenged defaultKey (cuidFromUid model.uid model.uidLen) ∧ st'.Emulates model ∧
      st'.authBlock = b := by
  obtain ⟨hinit, rfl⟩ := hst
  have hkey : keyAForBlock (resetAuth st).model b = some defaultKey := hmodel.keyAForBlock hb
  have hvalid : blockValid (resetAuth st).model b = true := hmodel.blockValid.mpr hb
  rw [onTagCmd_authFrame hinit, handleAuthFirst, if_neg (not_not_intro hvalid), hkey]
  exact ⟨_, rfl, ⟨hinit, rfl, rfl⟩, ⟨hinit, rfl⟩, rfl⟩

theorem pollerGetNt_ok (hb : b.toNat < getTotalBlocks model.type) :
    ∃ st', pollerGetNt (listenerSession silence) b st = some (.ok (be32Bytes st'.nt), st') ∧
      st'.Challenged defaultKey (cuidFromUid model.uid model.uidLen) ∧ st'.Emulates model ∧
      st'.authBlock = b := by
  obtain ⟨st', hcmd, hrest⟩ := onTagCmd_authFirst hst hmodel hb
  refine ⟨st', ?_, hrest⟩
  rw [pollerGetNt, bind_of_eq (transceive_answered silence hcmd (show 4 ≤ 255 by decide))]
  rfl

theorem pollerGetNt_refused (hb : ¬ b.toNat < getTotalBlocks model.type) :
    ∃ st', pollerGetNt (listenerSession silence) b st = some (.error silence, st') ∧
      st'.Emulates model := by
  obtain ⟨hinit, rfl⟩ := hst
  have hcmd : onTagCmd st [0x60, b] = some (resetAuth st, none) := by
    rw [onTagCmd_authFrame hinit]
    exact if_pos fun h => hb (hmodel.blockValid.mp h)
  have hx : (listenerSession silence).transceive maxResponseLen [0x60, b] st =
      some (.error silence, resetAuth st) := by
    simp only [Session.transceive, listenerSession, hcmd, if_true, map_some]
  refine ⟨resetAuth st, ?_, ⟨hinit, rfl⟩⟩
  rw [pollerGetNt, bind_of_eq hx]
  rfl

theorem pollerDetectType_eq :
    ∃ st', pollerDetectType (listenerSession silence) st = some (model.type, st') ∧
      st'.Emulates model := by
  rw [type_eq hmodel.type]
  by_cases h4k : (254 : UInt8).toNat < getTotalBlocks model.type
  · obtain ⟨st', hnt, -, hst', -⟩ := pollerGetNt_ok silence hst hmodel h4k
    rw [if_pos h4k]
    exact ⟨st', bind_of_eq hnt _, hst'⟩
  · obtain ⟨st₁, hnt, hst₁⟩ := pollerGetNt_refused silence hst hmodel h4k
    rw [if_neg h4k, pollerDetectType, bind_of_eq hnt]
    by_cases h1k : (62 : UInt8).toNat < getTotalBlocks model.type
    · obtain ⟨st', hnt', -, hst', -⟩ := pollerGetNt_ok silence hst₁ hmodel h1k
      rw [if_pos h1k]
      exact ⟨st', bind_of_eq hnt' _, hst'⟩
    · obtain ⟨st', hnt', hst'⟩ := pollerGetNt_refused silence hst₁ hmodel h1k
      rw [if_neg h1k]
      exact ⟨st', bind_of_eq hnt' _, hst'⟩

theorem pollerAuth_ok {data : CardData cfg} (huid : model.SameUid data.toData)
    (hb : b.toNat < getTotalBlocks model.type) (nr : CArray UInt8 4) :
    ∃ c st', pollerAuth (listenerSession silence) data b defaultKey nr st = some (.ok c, st') ∧
      st'.Shares c ∧ st'.model = model ∧ st'.authBlock = b := by
  obtain ⟨st₁, hnt, hchallenged, hst₁, hblock⟩ := pollerGetNt_ok silence hst hmodel hb
  obtain ⟨c, st', hanswer, hshares, hsame⟩ := pollerAnswer_shares silence hchallenged nr
  refine ⟨c, st', ?_, hshares, hsame.model.trans hst₁.model, hsame.authBlock.trans hblock⟩
  rw [pollerAuth, bind_of_eq hnt]
  simp only
  rw [huid.cuid hmodel.uidLen_cases, hanswer]

omit hst hmodel

end Exchange

def fillBlock (model : Data cfg) (sector b : UInt8) (data : CardData cfg) : CardData cfg :=
  let data := (data.stored b (model.block b)).noteUid b (model.block b)
  if isSectorTrailer b then data.setKeyFound sector true else data

def fillBlocks (model : Data cfg) (sector first : UInt8) :
    (n : ℕ) → UInt8 → CardData cfg → CardData cfg
  | 0, _, data => data
  | n + 1, i, data =>
    fillBlocks model sector first n (i + 1) (fillBlock model sector (first + i) data)

theorem next_place (i : UInt8) (k : ℕ) : i + 1 + UInt8.ofNat k = i + UInt8.ofNat (k + 1) := by
  rw [UInt8.ofNat_add, UInt8.add_assoc, UInt8.add_comm 1]
  rfl

theorem readSectorBlocks_eq (silence : Errno) {st : State cfg} {c : Crypto1} (h : st.Shares c)
    (total : ℕ) (sector first i : UInt8) (n : ℕ)
    (hblocks : ∀ k < n, st.Reads (first + (i + UInt8.ofNat k)) ∧
      (first + (i + UInt8.ofNat k)).toNat < total) (data : CardData cfg) :
    ∃ st', readSectorBlocks (listenerSession silence) total sector first n i c data st =
        some ((fillBlocks st.model sector first n i data, .ok ()), st') ∧
      st'.initialized = true ∧ st'.model = st.model := by
  induction n generalizing st c i data with
  | zero => exact ⟨st, rfl, h.initialized, rfl⟩
  | succ n ih =>
    obtain ⟨hread, hlt⟩ := hblocks 0 (Nat.succ_pos n)
    rw [show i + UInt8.ofNat 0 = i from UInt8.add_zero i] at hread hlt
    obtain ⟨c₁, st₁, hblock, hshares, hsame⟩ := pollerReadBlock_shares silence h hread
    obtain ⟨st', hrest, hinit, hmodel⟩ := ih hshares (i + 1) (fun k hk => by
      rw [next_place]
      obtain ⟨hread', hlt'⟩ := hblocks (k + 1) (Nat.succ_lt_succ hk)
      exact ⟨hread'.of_sameCard hsame, hlt'⟩) (fillBlock st.model sector (first + i) data)
    refine ⟨st', ?_, hinit, hmodel.trans hsame.model⟩
    rw [readSectorBlocks]
    simp only [Nat.not_le.mpr hlt, if_false]
    rw [bind_of_eq hblock]
    simp only [setBlockRead_eq data hread.stored hread.read.2]
    rw [hsame.model] at hrest
    exact hrest

theorem setKeyFound_fields (data : CardData cfg) (sector : UInt8) (keyB : Bool) :
    (data.setKeyFound sector keyB).toData = data.toData ∧
      (data.setKeyFound sector keyB).blockReadMask = data.blockReadMask := by
  unfold CardData.setKeyFound
  split_ifs <;> exact ⟨rfl, rfl⟩

theorem noteUid_fields (data : CardData cfg) (b : UInt8) (bytes : Bytes) :
    (data.noteUid b bytes).type = data.type ∧ (data.noteUid b bytes).blocks = data.blocks ∧
      (data.noteUid b bytes).blockReadMask = data.blockReadMask := by
  unfold CardData.noteUid
  split_ifs <;> exact ⟨rfl, rfl, rfl⟩

theorem byteAt_write_take (a : CArray UInt8 n) {off len : ℕ} {src : Bytes}
    (hsrc : len ≤ src.length) (hfit : off + len ≤ n) (i : ℕ) :
    byteAt (a.write off (src.take len)).toList i =
      if off ≤ i ∧ i < off + len then byteAt src (i - off) else byteAt a.toList i := by
  have hlen : (src.take len).length = len := length_take_of_le hsrc
  rw [byteAt_write _ (by rwa [hlen]), hlen]
  split
  · have : i - off < len := by omega
    simp [byteAt, this]
  · rfl

theorem noteUid_of_ne (h0 : b ≠ 0) (h1 : b ≠ 1) (data : CardData cfg)
    (bytes : Bytes) : data.noteUid b bytes = data := by
  rw [CardData.noteUid, if_neg h0, if_neg fun h => h1 h.1]

section NoteUid

variable (data : CardData cfg) {bytes : Bytes} (hlen : bytes.length = blockSize)

include hlen

theorem noteUid_cascade (h : byteAt bytes 0 = 0x88) :
    (data.noteUid 0 bytes).uidLen = 7 ∧ ∀ i, byteAt (data.noteUid 0 bytes).uid.toList i =
      if i < 4 then byteAt bytes (1 + i) else byteAt data.uid.toList i := by
  have hrest : 4 ≤ (bytes.drop 1).length := by rw [length_drop, hlen]; decide
  rw [CardData.noteUid, if_pos h]
  refine ⟨rfl, fun i => (byteAt_write_take _ hrest (by decide) i).trans ?_⟩
  simp [byteAt, Nat.add_comm 1]

theorem noteUid_short (h88 : byteAt bytes 0 ≠ 0x88) (h0 : byteAt bytes 0 ≠ 0) :
    (data.noteUid 0 bytes).uidLen = 4 ∧ ∀ i, byteAt (data.noteUid 0 bytes).uid.toList i =
      if i < 4 then byteAt bytes i else byteAt data.uid.toList i := by
  rw [CardData.noteUid, if_neg h88, if_pos h0]
  refine ⟨rfl, fun i => (byteAt_write_take _ (by rw [hlen]; decide) (by decide) i).trans ?_⟩
  simp

theorem noteUid_second (h7 : data.uidLen = 7) :
    (data.noteUid 1 bytes).uidLen = 7 ∧ ∀ i, byteAt (data.noteUid 1 bytes).uid.toList i =
      if 4 ≤ i ∧ i < 7 then byteAt bytes (i - 4) else byteAt data.uid.toList i := by
  rw [CardData.noteUid, if_neg (by decide), if_pos ⟨rfl, h7⟩]
  exact ⟨h7, byteAt_write_take _ (by rw [hlen]; decide) (by decide)⟩

end NoteUid

theorem noteUid_zero {data : CardData cfg} (h : byteAt bytes 0 = 0) :
    data.noteUid 0 bytes = data := by
  rw [CardData.noteUid, if_pos rfl, if_neg (by rw [h]; decide), if_neg (by simp [h])]

theorem noteUid_second_short {data : CardData cfg} (h7 : data.uidLen ≠ 7) (bytes : Bytes) :
    data.noteUid 1 bytes = data := by
  rw [CardData.noteUid, if_neg (by decide), if_neg fun h => h7 h.2]

theorem toData_fillBlock (model : Data cfg) (sector b : UInt8) (data : CardData cfg) :
    (fillBlock model sector b data).toData =
        ((data.stored b (model.block b)).noteUid b (model.block b)).toData ∧
      (fillBlock model sector b data).blockReadMask =
        (data.stored b (model.block b)).blockReadMask := by
  have hnote := noteUid_fields (data.stored b (model.block b)) b (model.block b)
  rw [fillBlock]
  split
  · obtain ⟨h1, h2⟩ := setKeyFound_fields
      ((data.stored b (model.block b)).noteUid b (model.block b)) sector true
    exact ⟨h1, h2.trans hnote.2.2⟩
  · exact ⟨rfl, hnote.2.2⟩

structure CardData.Has (data : CardData cfg) (model : Data cfg) (b : UInt8) : Prop where
  marked : data.isBlockRead b = true
  bytes : data.block b = model.block b

theorem CardData.Has.of_eq {data data' : CardData cfg}
    (h : data.Has model b) (hblocks : data'.blocks = data.blocks)
    (hmask : data'.blockReadMask = data.blockReadMask) : data'.Has model b := by
  refine ⟨?_, ?_⟩
  · rw [CardData.isBlockRead, hmask]
    exact h.marked
  · rw [Data.block, hblocks]
    exact h.bytes

section Fill

variable {model : Data cfg} (hmodel : model.Genuine) {b : UInt8}
  (hb : b.toNat < getTotalBlocks model.type) (sector : UInt8)

include hmodel hb

theorem fillBlock_has {data : CardData cfg} {b' : UInt8} (h : b = b' ∨ data.Has model b') :
    (fillBlock model sector b data).Has model b' := by
  have hlen := hmodel.length_block hb
  have hstored : (data.stored b (model.block b)).Has model b' := by
    refine ⟨?_, ?_⟩
    · rw [isBlockRead_stored]
      rcases h with h | h
      · rw [decide_eq_true h, Bool.true_or]
      · rw [h.marked, Bool.or_true]
    · rw [block_stored data (Nat.lt_of_lt_of_le hb hmodel.full) hlen]
      split
      · next heq => rw [heq]
      · next hne => exact (h.resolve_left hne).bytes
  obtain ⟨hdata, hmask⟩ := toData_fillBlock model sector b data
  obtain ⟨-, hblocks, -⟩ := noteUid_fields (data.stored b (model.block b)) b (model.block b)
  refine hstored.of_eq ?_ hmask
  rw [hdata, hblocks]

end Fill

section Uid

variable {model : Data cfg} (hmodel : model.Genuine)

include hmodel

theorem Data.Genuine.lt_total (hb : b.toNat < 20) : b.toNat < getTotalBlocks model.type :=
  Nat.lt_of_lt_of_le hb (getTotalBlocks_ge hmodel.type)

theorem Data.Genuine.length_first (b : UInt8) (hb : b.toNat < 20) :
    (model.block b).length = blockSize :=
  hmodel.length_block (hmodel.lt_total hb)

theorem Data.Genuine.toNat_uidLen : 4 ≤ model.uidLen.toNat ∧ model.uidLen.toNat ≤ 7 := by
  rcases hmodel.uidLen_cases with h | h <;> rw [h] <;> decide

theorem Data.Genuine.first_byte : byteAt (model.block 0) 0 = byteAt model.uid.toList 0 :=
  hmodel.block0 0 (by have := hmodel.toNat_uidLen; omega)

variable {data : CardData cfg} (hkept : model.UidKept) (h : model.SameUid data.toData)

include hkept h

theorem noteUid_block0_sameUid : model.SameUid (data.noteUid 0 (model.block 0)).toData := by
  have hfirst := hmodel.first_byte
  by_cases h88 : byteAt (model.block 0) 0 = 0x88
  · -- the identifier starts with 88, so it is a long one and starts with 88 five times
    have h7 : model.uidLen = 7 := by
      rcases hmodel.uidLen with ⟨-, hne⟩ | h7
      · exact absurd (hfirst.symm.trans h88) hne
      · exact h7
    have hfive : ∀ i < 5, byteAt model.uid.toList i = 0x88 := by
      rcases hkept with h4 | ⟨-, hzero | hfive⟩
      · rw [h7] at h4
        cases h4
      · rw [hfirst, hzero] at h88
        cases h88
      · exact hfive
    obtain ⟨hlen, hbytes⟩ := noteUid_cascade data (hmodel.length_first 0 (by decide)) h88
    refine ⟨hlen.trans h7.symm, fun i hi => ?_⟩
    rw [hbytes i]
    split
    · next hi4 =>
      rw [hmodel.block0 (1 + i) (by rw [h7]; show _ < 7; omega), hfive (1 + i) (by omega),
        hfive i (by omega)]
    · exact h.bytes i hi
  by_cases h0 : byteAt (model.block 0) 0 = 0
  · rw [noteUid_zero h0]
    exact h
  · -- any other first byte is that of a short identifier
    have h4 : model.uidLen = 4 := by
      rcases hkept with h4 | ⟨-, hzero | hfive⟩
      · exact h4
      · exact absurd (hfirst.trans hzero) h0
      · exact absurd (hfirst.trans (hfive 0 (by decide))) h88
    obtain ⟨hlen, hbytes⟩ := noteUid_short data (hmodel.length_first 0 (by decide)) h88 h0
    refine ⟨hlen.trans h4.symm, fun i hi => ?_⟩
    rw [hbytes i]
    split
    · exact hmodel.block0 i hi
    · exact h.bytes i hi

theorem noteUid_block1_sameUid : model.SameUid (data.noteUid 1 (model.block 1)).toData := by
  by_cases h7 : data.uidLen = 7
  · have hlast : ∀ i < 3, byteAt (model.block 1) i = byteAt model.uid.toList (4 + i) := by
      rcases hkept with h4 | ⟨hlast, -⟩
      · rw [← h.len, h7] at h4
        cases h4
      · exact hlast
    obtain ⟨hlen, hbytes⟩ := noteUid_second data (hmodel.length_first 1 (by decide)) h7
    refine ⟨(hlen.trans h7.symm).trans h.len, fun i hi => ?_⟩
    rw [hbytes i]
    split
    · next hi4 =>
      rw [hlast (i - 4) (by omega)]
      congr 1
      omega
    · exact h.bytes i hi
  · rw [noteUid_second_short h7]
    exact h

theorem noteUid_sameUid (b : UInt8) : model.SameUid (data.noteUid b (model.block b)).toData := by
  by_cases hb0 : b = 0
  · subst hb0
    exact noteUid_block0_sameUid hmodel hkept h
  by_cases hb1 : b = 1
  · subst hb1
    exact noteUid_block1_sameUid hmodel hkept h
  · rw [noteUid_of_ne hb0 hb1]
    exact h

omit hkept h

theorem uidKept_of_noteUid (data data' : CardData cfg)
    (huid : data'.uid = (data.noteUid 0 (model.block 0)).uid)
    (huidLen : data'.uidLen = (data.noteUid 0 (model.block 0)).uidLen)
    (hafter : model.SameUid (data'.noteUid 1 (model.block 1)).toData) : model.UidKept := by
  have hfirst := hmodel.first_byte
  rcases hmodel.uidLen_cases with h4 | h7
  · exact .inl h4
  refine .inr ?_
  -- a long identifier that comes out of the second block as it was
  have hlong : data'.uidLen = 7 := by
    by_contra hne
    rw [noteUid_second_short hne] at hafter
    exact hne (hafter.len.trans h7)
  obtain ⟨-, hsecond⟩ := noteUid_second data' (hmodel.length_first 1 (by decide)) hlong
  have hlast : ∀ i < 3, byteAt (model.block 1) i = byteAt model.uid.toList (4 + i) := by
    intro i hi
    rw [← hafter.bytes (4 + i) (by rw [h7]; show _ < 7; omega), hsecond, if_pos (by omega),
      Nat.add_sub_cancel_left]
  have hhead : ∀ i < 4, byteAt (data.noteUid 0 (model.block 0)).uid.toList i =
      byteAt model.uid.toList i := by
    intro i hi
    rw [← hafter.bytes i (by rw [h7]; show _ < 7; omega), hsecond, if_neg (by omega), huid]
  refine ⟨hlast, ?_⟩
  by_cases h88 : byteAt (model.block 0) 0 = 0x88
  · right
    obtain ⟨-, hbytes⟩ := noteUid_cascade data (hmodel.length_first 0 (by decide)) h88
    -- each byte is the one before it
    have hnext : ∀ i < 4, byteAt model.uid.toList (1 + i) = byteAt model.uid.toList i := by
      intro i hi
      rw [← hhead i hi, hbytes, if_pos hi, hmodel.block0 (1 + i) (by rw [h7]; show _ < 7; omega)]
    intro i hi
    induction i with
    | zero => rw [← hfirst, h88]
    | succ i ih => rw [Nat.add_comm i 1, hnext i (by omega), ih (by omega)]
  · left
    by_contra hne
    have h0 : byteAt (model.block 0) 0 ≠ 0 := by rwa [hfirst]
    obtain ⟨hshort, -⟩ := noteUid_short data (hmodel.length_first 0 (by decide)) h88 h0
    rw [huidLen, hshort] at hlong
    cases hlong

end Uid

def fillSector (model : Data cfg) (sector : UInt8) (data : CardData cfg) : CardData cfg :=
  fillBlocks model sector (getFirstBlockOfSector sector) (getBlocksInSector sector).toNat 0
    (data.setKeyFound sector false)

theorem toNat_getBlocksInSector_le (sector : UInt8) : (getBlocksInSector sector).toNat ≤ 16 := by
  unfold getBlocksInSector
  split <;> decide

variable {k : ℕ}

theorem sector_block (hk : k < getTotalSectors type) {j : ℕ}
    (hj : j < (getBlocksInSector (UInt8.ofNat k)).toNat) :
    (getFirstBlockOfSector (UInt8.ofNat k) + UInt8.ofNat j).toNat < getTotalBlocks type ∧
      getSectorByBlock (getFirstBlockOfSector (UInt8.ofNat k) + UInt8.ofNat j) = UInt8.ofNat k := by
  have h40 := getTotalSectors_le type
  have h16 := toNat_getBlocksInSector_le (UInt8.ofNat k)
  obtain ⟨-, hsector⟩ := block_of_sector k (by omega) j (by omega) hj
  refine ⟨(sector_lt_iff _ _).mp ?_, hsector⟩
  rw [hsector, toNat_ofNat', Nat.mod_eq_of_lt (by omega)]
  exact hk

section Sectors

variable {model : Data cfg} (hmodel : model.Genuine)

include hmodel

variable {data : CardData cfg}

theorem fillBlocks_has {sector first i : UInt8}
    (hblocks : ∀ k < n, (first + (i + UInt8.ofNat k)).toNat < getTotalBlocks model.type)
    (h : (∃ k < n, b = first + (i + UInt8.ofNat k)) ∨ data.Has model b) :
    (fillBlocks model sector first n i data).Has model b := by
  induction n generalizing i data with
  | zero =>
    rcases h with ⟨k, hk, -⟩ | h
    · exact absurd hk (Nat.not_lt_zero k)
    · exact h
  | succ n ih =>
    have hb : (first + i).toNat < getTotalBlocks model.type := by
      have := hblocks 0 (Nat.succ_pos n)
      rwa [show i + UInt8.ofNat 0 = i from UInt8.add_zero i] at this
    refine ih (fun k hk => ?_) ?_
    · rw [next_place]
      exact hblocks (k + 1) (Nat.succ_lt_succ hk)
    · rcases h with ⟨k, hk, rfl⟩ | h
      · cases k with
        | zero =>
          refine .inr (fillBlock_has hmodel hb sector (.inl ?_))
          rw [show i + UInt8.ofNat 0 = i from UInt8.add_zero i]
        | succ k =>
          refine .inl ⟨k, Nat.lt_of_succ_lt_succ hk, ?_⟩
          rw [next_place]
      · exact .inr (fillBlock_has hmodel hb sector (.inr h))

theorem fillSector_has (hk : k < getTotalSectors model.type)
    (h : getSectorByBlock b = UInt8.ofNat k ∨ data.Has model b) :
    (fillSector model (UInt8.ofNat k) data).Has model b := by
  refine fillBlocks_has hmodel (fun j hj => ?_) ?_
  · rw [UInt8.zero_add]
    exact (sector_block hk hj).1
  · rcases h with h | h
    · obtain ⟨hplace, -⟩ := block_in_sector b
      rw [h] at hplace
      refine .inl ⟨_, hplace, ?_⟩
      rw [UInt8.ofNat_toNat, UInt8.zero_add, UInt8.add_comm, UInt8.sub_add_cancel]
    · obtain ⟨hdata, hmask⟩ := setKeyFound_fields data (UInt8.ofNat k) false
      exact .inr (h.of_eq (by rw [hdata]) hmask)

theorem fillBlocks_sameUid (hkept : model.UidKept) {sector first i : UInt8}
    (h : model.SameUid data.toData) :
    model.SameUid (fillBlocks model sector first n i data).toData := by
  induction n generalizing i data with
  | zero => exact h
  | succ n ih =>
    have hstored : model.SameUid (data.stored (first + i) (model.block (first + i))).toData :=
      ⟨h.len, h.bytes⟩
    refine ih ?_
    rw [(toData_fillBlock model sector (first + i) data).1]
    exact noteUid_sameUid hmodel hkept hstored (first + i)

omit hmodel in
theorem fillBlocks_type (sector first i : UInt8) (n : ℕ) (data : CardData cfg) :
    (fillBlocks model sector first n i data).type = data.type := by
  induction n generalizing i data with
  | zero => rfl
  | succ n ih =>
    rw [fillBlocks, ih, (toData_fillBlock model sector (first + i) data).1]
    exact (noteUid_fields _ _ _).1

variable (silence : Errno) (nr : UInt8 → CArray UInt8 4)

theorem readSectors_step {st : State cfg} (hst : st.Emulates model)
    (huid : model.SameUid data.toData) (hk : k < getTotalSectors model.type) (n : ℕ) :
    ∃ st', st'.Emulates model ∧
      readSectors (listenerSession silence) nr (getTotalBlocks model.type) (n + 1)
          (UInt8.ofNat k) data st =
        readSectors (listenerSession silence) nr (getTotalBlocks model.type) n
          (UInt8.ofNat (k + 1)) (fillSector model (UInt8.ofNat k) data) st' := by
  have hpos : 0 < (getBlocksInSector (UInt8.ofNat k)).toNat := by
    unfold getBlocksInSector
    split <;> decide
  obtain ⟨hfirst, hsector⟩ := sector_block hk hpos
  rw [show getFirstBlockOfSector (UInt8.ofNat k) + UInt8.ofNat 0 =
    getFirstBlockOfSector (UInt8.ofNat k) from UInt8.add_zero _] at hfirst hsector
  obtain ⟨c, st₁, hauth, hshares, hcard, hblock⟩ :=
    pollerAuth_ok silence hst hmodel huid hfirst (nr (UInt8.ofNat k))
  obtain ⟨st', hread, hinit, hmodel'⟩ := readSectorBlocks_eq silence hshares
    (getTotalBlocks model.type) (UInt8.ofNat k) (getFirstBlockOfSector (UInt8.ofNat k)) 0
    (getBlocksInSector (UInt8.ofNat k)).toNat
    (fun j hj => by
      obtain ⟨hlt, hsec⟩ := sector_block hk hj
      rw [UInt8.zero_add]
      refine ⟨⟨?_, ?_, Nat.lt_of_lt_of_le hlt hmodel.full⟩, hlt⟩
      · rw [hcard]
        exact hmodel.blockValid.mpr hlt
      · rw [hsec, hblock, hsector])
    (data.setKeyFound (UInt8.ofNat k) false)
  refine ⟨st', ⟨hinit, hmodel'.trans hcard⟩, ?_⟩
  rw [readSectors]
  rw [bind_of_eq hauth]
  simp only
  rw [bind_of_eq hread, hcard]
  rw [show UInt8.ofNat k + 1 = UInt8.ofNat (k + 1) from (ofNat_add k 1).symm]
  rfl

theorem readSectors_complete (hkept : model.UidKept) (hk : k + n = getTotalSectors model.type)
    {st : State cfg} (hst : st.Emulates model) (huid : model.SameUid data.toData)
    (hdone : ∀ b, (getSectorByBlock b).toNat < k → data.Has model b) :
    ∃ data' st', readSectors (listenerSession silence) nr (getTotalBlocks model.type) n
        (UInt8.ofNat k) data st = some ((data', .ok ()), st') ∧
      data'.type = data.type ∧ model.SameUid data'.toData ∧
      ∀ b, (getSectorByBlock b).toNat < k + n → data'.Has model b := by
  induction n generalizing k st data with
  | zero => exact ⟨data, st, rfl, rfl, huid, hdone⟩
  | succ n ih =>
    have h40 := getTotalSectors_le model.type
    obtain ⟨hdata, -⟩ := setKeyFound_fields data (UInt8.ofNat k) false
    have huid' : model.SameUid (fillSector model (UInt8.ofNat k) data).toData :=
      fillBlocks_sameUid hmodel hkept (by rw [hdata]; exact huid)
    obtain ⟨st₁, hst₁, hstep⟩ :=
      readSectors_step hmodel silence nr hst huid (show k < _ by omega) n
    obtain ⟨data', st', hrest, htype, huid'', hblocks⟩ := ih (k := k + 1) (by omega) hst₁ huid' (by
      intro b hb
      refine fillSector_has hmodel (by omega) ?_
      rcases Nat.lt_succ_iff_lt_or_eq.mp hb with hb | hb
      · exact .inr (hdone b hb)
      · refine .inl (UInt8.toNat_inj.mp ?_)
        rw [hb, UInt8.toNat_ofNat', Nat.mod_eq_of_lt (by omega)])
    refine ⟨data', st', hstep.trans hrest, ?_, huid'', fun b hb => hblocks b (by omega)⟩
    rw [htype, fillSector, fillBlocks_type, hdata]

end Sectors

section Later

variable {τ : Type}

theorem ensures_readSectorBlocks_uid (s : Session τ) {total : ℕ} {sector first i : UInt8}
    (hfirst : 4 ≤ first.toNat) (hwrap : first.toNat + i.toNat + n ≤ 256) (c : Crypto1)
    (data : CardData cfg) :
    Ensures (readSectorBlocks s total sector first n i c data) fun r =>
      r.1.uid = data.uid ∧ r.1.uidLen = data.uidLen := by
  induction n generalizing i c data with
  | zero => exact .pure ⟨rfl, rfl⟩
  | succ n ih =>
    have hblock : (first + i).toNat = first.toNat + i.toNat := by
      rw [UInt8.toNat_add]
      omega
    have hnext : (i + 1).toNat = i.toNat + 1 := by
      rw [UInt8.toNat_add, show (1 : UInt8).toNat = 1 from rfl]
      omega
    have hne : ∀ b : UInt8, b.toNat < 4 → first + i ≠ b := by
      rintro b hb rfl
      omega
    rw [readSectorBlocks]
    split
    · exact .pure ⟨rfl, rfl⟩
    refine (Ensures.trivial _).bind ?_
    rintro ⟨c', r⟩ -
    cases r with
    | error e => exact .pure ⟨rfl, rfl⟩
    | ok bytes =>
      simp only
      split
      · exact .of_none (fun _ => rfl) _
      · next data₁ hset =>
        obtain ⟨blocks, -, rfl⟩ := map_eq_some_iff.mp hset
        simp only [noteUid_of_ne (hne 0 (by decide)) (hne 1 (by decide))]
        refine (ih (by omega) c' _).mono fun r hr => ?_
        split at hr
        · rwa [(setKeyFound_fields _ sector true).1] at hr
        · exact hr

theorem first_of_later : ∀ k < 40, 1 ≤ k →
    4 ≤ (getFirstBlockOfSector (UInt8.ofNat k)).toNat ∧
      (getFirstBlockOfSector (UInt8.ofNat k)).toNat + (getBlocksInSector (UInt8.ofNat k)).toNat ≤
        256 := by
  decide +kernel

theorem ensures_readSectors_uid (s : Session τ) (nr : UInt8 → CArray UInt8 4) (total : ℕ)
    (hk : 1 ≤ k) (hend : k + n ≤ 40) (data : CardData cfg) :
    Ensures (readSectors s nr total n (UInt8.ofNat k) data) fun r =>
      r.1.uid = data.uid ∧ r.1.uidLen = data.uidLen := by
  induction n generalizing k data with
  | zero => exact .pure ⟨rfl, rfl⟩
  | succ n ih =>
    have hnext : UInt8.ofNat k + 1 = UInt8.ofNat (k + 1) := (ofNat_add k 1).symm
    obtain ⟨hfirst, hwrap⟩ := first_of_later k (by omega) hk
    refine (Ensures.trivial _).bind fun r _ => ?_
    cases r with
    | error e => exact hnext ▸ ih (by omega) (by omega) data
    | ok c =>
      refine (ensures_readSectorBlocks_uid s hfirst hwrap c _).bind ?_
      rintro ⟨data₁, ret⟩ hsector
      rw [(setKeyFound_fields data (UInt8.ofNat k) false).1] at hsector
      simp only
      split
      · exact .pure hsector
      · rw [hnext]
        exact (ih (by omega) (by omega) data₁).mono fun r hr =>
          ⟨hr.1.trans hsector.1, hr.2.trans hsector.2⟩

end Later

theorem sameUid_pollerStart (hmodel : model.Genuine) (type : CardType) :
    model.SameUid
      (pollerStart (model.uid.slice 0 model.uidLen.toNat) type : CardData cfg).toData := by
  have hle := hmodel.toNat_uidLen
  have hlen : (model.uid.slice 0 model.uidLen.toNat).length = model.uidLen.toNat :=
    length_slice _ (by omega)
  have htake : (model.uid.slice 0 model.uidLen.toNat).take 10 =
      model.uid.slice 0 model.uidLen.toNat := take_of_length_le (by omega)
  refine ⟨?_, fun i hi => ?_⟩
  · show UInt8.ofNat ((model.uid.slice 0 model.uidLen.toNat).take 10).length = _
    rw [htake, hlen, UInt8.ofNat_toNat]
  · show byteAt (CArray.write _ 0 ((model.uid.slice 0 model.uidLen.toNat).take 10)).toList i = _
    rw [htake, byteAt_write _ (by rw [hlen]; omega), hlen]
    simp [byteAt, CArray.slice, hi]

theorem uidKept_of_fillSector (hmodel : model.Genuine) (data : CardData cfg)
    (h : model.SameUid (fillSector model 0 data).toData) : model.UidKept := by
  have hsector : fillSector model 0 data = fillBlock model 0 3 (fillBlock model 0 2
      (fillBlock model 0 1 (fillBlock model 0 0 (data.setKeyFound 0 false)))) := rfl
  generalize data.setKeyFound 0 false = data₀ at hsector
  have hfirst := (toData_fillBlock model 0 0 data₀).1
  have hafter : model.SameUid (fillBlock model 0 1 (fillBlock model 0 0 data₀)).toData := by
    have hlen := h.len
    have hbytes := h.bytes
    rw [hsector] at hlen hbytes
    exact ⟨hlen, hbytes⟩
  refine uidKept_of_noteUid hmodel (data₀.stored 0 (model.block 0))
    ((fillBlock model 0 0 data₀).stored 1 (model.block 1)) ?_ ?_ hafter
  · show (fillBlock model 0 0 data₀).uid = _
    rw [hfirst]
  · show (fillBlock model 0 0 data₀).uidLen = _
    rw [hfirst]

/-- A genuine card is read back with its type, its identifier and all its blocks if and only if the
identifier has four bytes, or its last three are the first of block 1 and its first is 0 or its first
five are 88. -/
theorem pollerRead_card_iff (model : Data cfg) (hmodel : model.Genuine) (x : State cfg)
    (silence : Errno) (nr : UInt8 → CArray UInt8 4) (out : CardData cfg) :
    (∃ data st', pollerRead (listenerSession silence) (model.uid.slice 0 model.uidLen.toNat) nr out
        (listenerInit x (some model)) = some ((data, .ok ()), st') ∧
      data.type = model.type ∧ model.SameUid data.toData ∧
      ∀ b : UInt8, b.toNat < getTotalBlocks model.type → data.Has model b) ↔ model.UidKept := by
  have hinit : (listenerInit x (some model)).Emulates model := ⟨rfl, rfl⟩
  obtain ⟨st₁, htype, hst₁⟩ := pollerDetectType_eq silence hinit hmodel
  have hstart := sameUid_pollerStart hmodel model.type
  rw [pollerRead, if_neg (by simp [listenerSession]), bind_of_eq htype]
  simp only
  constructor
  · rintro ⟨data, st', hread, -, huid, -⟩
    obtain ⟨⟨data₁, ret⟩, st₂, hsectors, hend⟩ := bind_eq_some hread
    obtain rfl : data₁ = data := by
      split at hend <;> exact congrArg (fun r => r.1.1) (some.inj hend)
    -- the first sector is read with the right identifier, and no later one changes it
    have h40 := getTotalSectors_le model.type
    obtain ⟨n, hn⟩ : ∃ n, getTotalSectors model.type = n + 1 :=
      ⟨getTotalSectors model.type - 1, by
        have := (sector_lt_iff model.type 0).mpr
          (hmodel.lt_total (by decide))
        omega⟩
    obtain ⟨st₃, -, hstep⟩ :=
      readSectors_step hmodel silence nr hst₁ hstart (show 0 < _ by omega) n
    rw [hn] at hsectors
    obtain ⟨huid₁, huidLen₁⟩ := ensures_readSectors_uid _ nr _ (Nat.le_refl 1) (by omega) _ _ _ _
      (hstep.symm.trans hsectors)
    refine uidKept_of_fillSector hmodel
      (pollerStart (model.uid.slice 0 model.uidLen.toNat) model.type) ⟨?_, fun i hi => ?_⟩
    · exact huidLen₁.symm.trans huid.len
    · rw [← huid.bytes i hi, huid₁]
      rfl
  · intro hkept
    obtain ⟨data, st', hsectors, htype', huid, hblocks⟩ := readSectors_complete hmodel silence nr
      hkept (Nat.zero_add _) hst₁ hstart (fun b hb => absurd hb (Nat.not_lt_zero _))
    have hall : ∀ b : UInt8, b.toNat < getTotalBlocks model.type → data.Has model b := by
      intro b hb
      refine hblocks b ?_
      rw [Nat.zero_add]
      exact (sector_lt_iff _ b).mpr hb
    refine ⟨data, st', ?_, htype', huid, hall⟩
    have hzero := (hall 0 (hmodel.lt_total (by decide))).marked
    show (readSectors _ _ _ _ (UInt8.ofNat 0) _ >>= _) st₁ = _
    rw [bind_of_eq hsectors]
    simp only [ne_eq, not_true_eq_false, if_false, hzero, if_true]
    rfl

def blankCard (uid : Bytes) : Data Config.default where
  type := .mini
  uid := .ofList 10 0 uid
  uidLen := UInt8.ofNat uid.length
  blocks := (CArray.fill _ 0xFF).write 0 uid

def shortUid : Bytes := [0xDE, 0xAD, 0xBE, 0xEF]

def longUid : Bytes := [0x04, 0x12, 0x34, 0x56, 0x78, 0x9A, 0xBC]

theorem blankCard_genuine {uid : Bytes} (h : uid = shortUid ∨ uid = longUid) :
    (blankCard uid).Genuine := by
  rcases h with rfl | rfl
  all_goals
    refine ⟨by decide, by decide, by decide +kernel, by decide +kernel, ?_⟩
    rintro ⟨⟨b⟩⟩
    revert b
    decide +kernel

theorem pollerRead_short_uid : (blankCard shortUid).Genuine ∧
      ∃ data st', pollerRead (listenerSession .etimedout) ((blankCard shortUid).uid.slice 0 4)
          (fun _ => .fill 4 0x5A) (.reset : CardData Config.default)
          (listenerInit .boot (some (blankCard shortUid))) = some ((data, .ok ()), st') ∧
        data.type = .mini ∧ (blankCard shortUid).SameUid data.toData ∧
        ∀ b : UInt8, b.toNat < 20 → data.Has (blankCard shortUid) b := by
  have hcard := blankCard_genuine (.inl rfl : shortUid = shortUid ∨ shortUid = longUid)
  exact ⟨hcard, (pollerRead_card_iff (blankCard shortUid) hcard .boot .etimedout
    (fun _ => .fill 4 0x5A) .reset).mpr (.inl rfl)⟩

theorem pollerRead_long_uid :
    (pollerRead (listenerSession .etimedout) longUid (fun _ => .fill 4 0x5A)
      (.reset : CardData Config.default) (listenerInit .boot (some (blankCard longUid)))).map
        (fun r => (r.1.2.isOk, (r.1.1 : CardData Config.default).uidLen, r.1.1.isBlockRead 4)) =
      some (true, 4, false) := by
  decide +kernel

/-- The poller takes the first four bytes of an identifier of seven for a short one, and returns 0
without the blocks of the second sector. -/
theorem long_uid_cut : (blankCard longUid).Genuine ∧
      ∃ data st', pollerRead (listenerSession .etimedout) longUid (fun _ => .fill 4 0x5A)
          (.reset : CardData Config.default)
          (listenerInit .boot (some (blankCard longUid))) = some ((data, .ok ()), st') ∧
        data.uidLen = 4 ∧ data.isBlockRead 4 = false := by
  obtain ⟨⟨⟨data, ret⟩, st'⟩, hread, hrun⟩ := map_eq_some_iff.mp pollerRead_long_uid
  simp only [Prod.mk.injEq] at hrun
  obtain ⟨hok, hlen, hblock⟩ := hrun
  cases ret with
  | error e => cases hok
  | ok u => exact ⟨blankCard_genuine (.inr rfl), data, st', hread, hlen, hblock⟩

end NfcStack.Classic
