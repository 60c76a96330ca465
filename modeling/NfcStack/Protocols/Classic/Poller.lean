import NfcStack.Protocols.Classic.Listener
import NfcStack.Reader.Session

/-!
# The MIFARE Classic poller

The reader side of `protocols/classic/classic_poller.c`: the type from the blocks that answer,
then sector by sector an authentication with the default key and encrypted reads of all blocks.
-/

namespace NfcStack.Classic

open NfcStack.Reader

structure CardData (cfg : Config) extends Data cfg where
  sak : UInt8
  atqa : CArray UInt8 2
  blockReadMask : CArray (BitVec 32) 8
  keyAMask : BitVec 64
  keyBMask : BitVec 64

variable {cfg : Config}

def CardData.reset : CardData cfg where
  toData := .reset
  sak := 0
  atqa := .fill _ 0
  blockReadMask := .fill _ 0
  keyAMask := 0
  keyBMask := 0

def getTotalSectors : CardType → ℕ
  | .mini => 5
  | .type1k => 16
  | .type4k => 40
  | .unknown => 0

variable (block : UInt8)

def isSectorTrailer : Bool :=
  if block < 128 then block &&& 0x03 == 0x03 else block &&& 0x0F == 0x0F

def maskWord : Fin 8 :=
  ⟨block.toNat / 32, by have := block.toNat_lt; omega⟩

def maskBit : BitVec 32 := 1#32 <<< (block.toNat % 32)

theorem and_bit_ne_zero {w n : ℕ} (mask : BitVec w) (hn : n < w) :
    (mask &&& (1#w <<< n) != 0) = mask.getLsbD n := by
  rw [← BitVec.twoPow_eq, BitVec.and_twoPow]
  cases mask.getLsbD n with
  | false => simp
  | true =>
    rw [bne_iff_ne]
    intro hzero
    have := congrArg (·.getLsbD n) hzero
    simp [hn] at this

def CardData.isBlockRead (data : CardData cfg) (block : UInt8) : Bool :=
  data.blockReadMask.get (maskWord block) &&& maskBit block != 0

def CardData.setBlockRead (data : CardData cfg) (block : UInt8) (bytes : Bytes) :
    Option (CardData cfg) :=
  (data.blocks.write? (block.toNat * blockSize) bytes).map fun blocks =>
    { data with
      blocks
      blockReadMask := data.blockReadMask.set (maskWord block)
        (data.blockReadMask.get (maskWord block) ||| maskBit block) }

def CardData.setKeyFound (data : CardData cfg) (sector : UInt8) (keyB : Bool) : CardData cfg :=
  if 40 ≤ sector then data
  else if keyB then { data with keyBMask := data.keyBMask ||| (1#64 <<< sector.toNat) }
  else { data with keyAMask := data.keyAMask ||| (1#64 <<< sector.toNat) }

/-- What `classic_poller_read` takes from the first two blocks: a first byte of 88 for a cascade
tag, and any other but 0 for the first byte of a short identifier. -/
def CardData.noteUid (data : CardData cfg) (block : UInt8) (bytes : Bytes) : CardData cfg :=
  if block = 0 then
    if byteAt bytes 0 = 0x88 then
      -- the three bytes that are missing are expected in block 1
      { data with
        uidLen := 7
        uid := data.uid.write 0 ((bytes.drop 1).take 4)
        sak := byteAt bytes 6
        atqa := .ofList 2 0 (bytes.drop 7) }
    else if byteAt bytes 0 ≠ 0 then
      { data with
        uidLen := 4
        uid := data.uid.write 0 (bytes.take 4)
        sak := byteAt bytes 5
        atqa := .ofList 2 0 (bytes.drop 6) }
    else data
  else if block = 1 ∧ data.uidLen = 7 then { data with uid := data.uid.write 4 (bytes.take 3) }
  else data

def defaultKey : BitVec 64 := 0xFFFFFFFFFFFF#64

def encryptNonce : Crypto1 → Bytes → Crypto1 × Bytes
  | c, [] => (c, [])
  | c, b :: bs =>
    let r := byte Crypto1.bit c b.toBitVec false
    let rest := encryptNonce r.1 bs
    (rest.1, UInt8.ofBitVec (r.2 ^^^ b.toBitVec) :: rest.2)

def encryptAnswer : (n : ℕ) → Crypto1 → BitVec 32 → Crypto1 × Bytes
  | 0, c, _ => (c, [])
  | n + 1, c, nt =>
    let nt := prngSuccessor nt 8
    let r := byte Crypto1.bit c 0 false
    let rest := encryptAnswer n r.1 nt
    (rest.1, UInt8.ofBitVec (r.2 ^^^ nt.setWidth 8) :: rest.2)

def encryptReaderNonce (key : BitVec 64) (cuid : BitVec 32) (nt nr : Bytes) : Crypto1 × Bytes :=
  let ntNum := beNum 32 nt
  let c := (word Crypto1.bit (Crypto1.init key) (ntNum ^^^ cuid) false).1
  let first := encryptNonce c nr
  let second := encryptAnswer 4 first.1 (prngSuccessor ntNum 32)
  (second.1, first.2 ++ second.2)

/-- The register that `classic_poller_auth` builds anew after the answer of the tag, which it does
not look at. -/
def sessionCrypto (key : BitVec 64) (cuid : BitVec 32) (nt nr : Bytes) : Crypto1 :=
  let c := (word Crypto1.bit (Crypto1.init key) (beNum 32 nt ^^^ cuid) false).1
  let c := nr.foldl (fun c b => (byte Crypto1.bit c b.toBitVec false).1) c
  let c := (List.range 4).foldl (fun c _ => (byte Crypto1.bit c 0 false).1) c
  (word Crypto1.bit c 0 false).1

variable {τ : Type} (s : Session τ)

def pollerGetNt (blockNum : UInt8) : Poll τ (Except Errno Bytes) := do
  match ← s.transceive maxResponseLen [0x60, blockNum] with
  | .error e => return .error e
  | .ok rx => return if rx.length ≠ 4 then .error .eio else .ok rx

def pollerAnswer (key : BitVec 64) (cuid : BitVec 32) (nt : Bytes) (nr : CArray UInt8 4) :
    Poll τ (Except Errno Crypto1) := do
  match ← s.transceive maxResponseLen (encryptReaderNonce key cuid nt nr.toList).2 with
  | .error e => return .error e
  | .ok rx =>
    return if rx.length ≠ 4 then .error .eio else .ok (sessionCrypto key cuid nt nr.toList)

def pollerAuth (data : CardData cfg) (blockNum : UInt8) (key : BitVec 64) (nr : CArray UInt8 4) :
    Poll τ (Except Errno Crypto1) := do
  match ← pollerGetNt s blockNum with
  | .error e => return .error e
  | .ok nt => pollerAnswer s key (cuidFromUid data.uid data.uidLen) nt nr

def pollerReadBlock (c : Crypto1) (blockNum : UInt8) : Poll τ (Crypto1 × Except Errno Bytes) := do
  let enc := crypt c (Framing.crcFrame crcA [0x30, blockNum])
  match ← s.transceive maxResponseLen enc.2 with
  | .error e => return (enc.1, .error e)
  | .ok rx =>
    -- a frame that is too short is not decrypted, so the register has not moved over it
    if rx.length < blockSize + 2 then return (enc.1, .error .eio)
    let dec := crypt enc.1 rx
    if ¬ Framing.crcCheck crcA dec.2 then return (dec.1, .error .eio)
    let plain := Framing.crcTrim dec.2
    return (dec.1, if plain.length ≠ blockSize then .error .eio else .ok plain)

def readSectorBlocks (total : ℕ) (sector first : UInt8) :
    (n : ℕ) → UInt8 → Crypto1 → CardData cfg → Poll τ (CardData cfg × Ret)
  | 0, _, _, data => return (data, .ok ())
  | n + 1, i, c, data => do
    let blockNum := first + i
    if total ≤ blockNum.toNat then return (data, .ok ())
    let (c, r) ← pollerReadBlock s c blockNum
    match r with
    | .error e => return (data, .error e)
    | .ok bytes =>
      match data.setBlockRead blockNum bytes with
      | none => Poll.undefined
      | some data =>
        let data := data.noteUid blockNum bytes
        -- the trailer was read under key A, but key B is noted as found
        let data := if isSectorTrailer blockNum then data.setKeyFound sector true else data
        readSectorBlocks total sector first n (i + 1) c data

/-- The sector loop of `classic_poller_read`, with `n` sectors to go. A sector that cannot be
authenticated is left out; `nr` gives the reader's nonces. -/
def readSectors (nr : UInt8 → CArray UInt8 4) (total : ℕ) :
    (n : ℕ) → UInt8 → CardData cfg → Poll τ (CardData cfg × Ret)
  | 0, _, data => return (data, .ok ())
  | n + 1, sector, data => do
    let first := getFirstBlockOfSector sector
    match ← pollerAuth s data first defaultKey (nr sector) with
    | .error _ => readSectors nr total n (sector + 1) data
    | .ok c =>
      let (data, ret) ← readSectorBlocks s total sector first (getBlocksInSector sector).toNat 0 c
        (data.setKeyFound sector false)
      if ret ≠ .ok () then return (data, ret)
      readSectors nr total n (sector + 1) data

def pollerDetectType : Poll τ CardType := do
  match ← pollerGetNt s 254 with
  | .ok _ => return .type4k
  | .error _ =>
    match ← pollerGetNt s 62 with
    | .ok _ => return .type1k
    | .error _ => return .mini

def pollerStart (tagUid : Bytes) (type : CardType) : CardData cfg :=
  let uid := tagUid.take 10
  { (CardData.reset : CardData cfg) with
    type
    uidLen := UInt8.ofNat uid.length
    uid := (CArray.fill 10 0).write 0 uid }

def pollerRead (tagUid : Bytes) (nr : UInt8 → CArray UInt8 4) (out : CardData cfg) :
    Poll τ (CardData cfg × Ret) := do
  if s.active = false then return (out, .error .einval)
  let type ← pollerDetectType s
  let (data, ret) ← readSectors s nr (getTotalBlocks type) (getTotalSectors type) 0
    (pollerStart tagUid type)
  if ret ≠ .ok () then return (data, ret)
  -- only block 0 is asked for: sectors that were left out are no error
  return (data, if data.isBlockRead 0 then .ok () else .error .eio)

end NfcStack.Classic
