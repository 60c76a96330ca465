import NfcStack.Framing.Crc
import NfcStack.Protocols.Classic.Crypto1

/-!
# The MIFARE Classic listener

The emulated card of `protocols/classic/classic_listener.c`: the three-pass
authentication with key A of a sector, and encrypted reads of the blocks of this
sector.
-/

namespace NfcStack.Classic

structure Config where
  /-- `CONFIG_NFC_CLASSIC_BLOCK_COUNT`. -/
  blockCount : ℕ
  blockCount_range : 64 ≤ blockCount ∧ blockCount ≤ 256

def Config.default : Config where
  blockCount := 256
  blockCount_range := by decide

inductive CardType
  | mini | type1k | type4k | unknown
deriving DecidableEq, Repr

def blockSize : ℕ := 16

def keySize : ℕ := 6

structure Data (cfg : Config) where
  type : CardType
  uid : CArray UInt8 10
  uidLen : UInt8
  blocks : CArray UInt8 (cfg.blockCount * blockSize)
deriving DecidableEq

variable {cfg : Config}

def Data.reset : Data cfg := ⟨.unknown, .fill _ 0, 0, .fill _ 0⟩

def getTotalBlocks : CardType → ℕ
  | .mini => 20
  | .type1k => 64
  | .type4k => 256
  | .unknown => 0

def getSectorByBlock (block : UInt8) : UInt8 :=
  if block < 128 then (block ||| 0x03) / 4 else 32 + ((block ||| 0x0F) - 32 * 4) / 16

def getFirstBlockOfSector (sector : UInt8) : UInt8 :=
  if sector < 32 then sector * 4 else 32 * 4 + (sector - 32) * 16

def getBlocksInSector (sector : UInt8) : UInt8 := if sector < 32 then 4 else 16

def beNum (w : ℕ) (bytes : Bytes) : BitVec w :=
  bytes.foldl (fun n b => (n <<< 8) ||| b.toBitVec.setWidth w) 0

def be32Bytes (n : BitVec 32) : Bytes :=
  [24, 16, 8, 0].map fun shift => UInt8.ofBitVec ((n >>> shift).setWidth 8)

def cuidFromUid (uid : CArray UInt8 10) (uidLen : UInt8) : BitVec 32 :=
  beNum 32 (uid.slice (if uidLen = 7 then 3 else 0) 4)

def crcAByte (crc : UInt16) (b : UInt8) : UInt16 :=
  let b := b ^^^ crc.toUInt8
  let b := (b ^^^ (b <<< 4)).toUInt16
  (crc >>> 8) ^^^ (b <<< 8) ^^^ (b <<< 3) ^^^ (b >>> 4)

def crcA (bytes : Bytes) : UInt16 := bytes.foldl crcAByte 0x6363

def crypt : Crypto1 → Bytes → Crypto1 × Bytes
  | c, [] => (c, [])
  | c, b :: bs =>
    let r := byte Crypto1.bit c 0 false
    let rest := crypt r.1 bs
    (rest.1, UInt8.ofBitVec (r.2 ^^^ b.toBitVec) :: rest.2)

def swapEndian (x : BitVec 32) : BitVec 32 :=
  let x := ((x >>> 8) &&& 0x00FF00FF#32) ||| ((x &&& 0x00FF00FF#32) <<< 8)
  (x >>> 16) ||| (x <<< 16)

def prngSuccessor (x : BitVec 32) (n : ℕ) : BitVec 32 :=
  swapEndian ((fun x : BitVec 32 => (x >>> 1) |||
    (((x >>> 16) ^^^ (x >>> 18) ^^^ (x >>> 19) ^^^ (x >>> 21)) <<< 31))^[n] (swapEndian x))

structure State (cfg : Config) where
  model : Data cfg
  initialized : Bool
  crypto : Crypto1
  nt : BitVec 32
  authBlock : UInt8
  pendingAuth2 : Bool
  authComplete : Bool
deriving DecidableEq

def State.boot : State cfg :=
  ⟨⟨.mini, .fill _ 0, 0, .fill _ 0⟩, false, ⟨0, 0⟩, 0, 0, false, false⟩

variable (st : State cfg)

def resetAuth : State cfg :=
  { st with crypto := ⟨0, 0⟩, pendingAuth2 := false, authComplete := false, authBlock := 0 }

variable (model : Data cfg) (blockNum : UInt8)

def keyAForBlock : Option (BitVec 64) :=
  let sector := getSectorByBlock blockNum
  let trailer := getFirstBlockOfSector sector + getBlocksInSector sector - 1
  (model.blocks.read? (trailer.toNat * blockSize) keySize).map (beNum 64)

def makeNt (sector : UInt8) : BitVec 32 := 0x10000000#32 + sector.toBitVec.setWidth 32

def blockValid : Bool :=
  model.type != .unknown && decide (blockNum.toNat < getTotalBlocks model.type)

/-- `classic_listener_handle_auth_first`, which takes key A for both commands. -/
def handleAuthFirst (blockNum : UInt8) : Option (State cfg × Option Bytes) :=
  let st := resetAuth st
  if ¬ blockValid st.model blockNum then some (st, none)
  else
    (keyAForBlock st.model blockNum).map fun key =>
      let nt := makeNt (getSectorByBlock blockNum)
      let cuid := cuidFromUid st.model.uid st.model.uidLen
      ({ st with
        nt
        authBlock := blockNum
        crypto := (word Crypto1.bit (Crypto1.init key) (nt ^^^ cuid) false).1
        pendingAuth2 := true
        authComplete := false }, some (be32Bytes nt))

def handleAuthSecond (tx : Bytes) : State cfg × Option Bytes :=
  if tx.length ≠ 8 ∨ ¬ st.pendingAuth2 then (st, none)
  else
    let nr := beNum 32 (tx.take 4)
    let ar := beNum 32 ((tx.drop 4).take 4)
    let r := word Crypto1.bit (word Crypto1.bit st.crypto nr true).1 0 false
    if ar ^^^ r.2 ≠ prngSuccessor st.nt 64 then (resetAuth { st with crypto := r.1 }, none)
    else
      let enc := crypt r.1 (be32Bytes (prngSuccessor st.nt 96))
      ({ st with crypto := enc.1, pendingAuth2 := false, authComplete := true }, some enc.2)

/-- `classic_listener_handle_read`. The register moves on with a command that is not answered. -/
def handleRead (tx : Bytes) : Option (State cfg × Option Bytes) :=
  if ¬ st.authComplete ∨ tx.length ≠ 4 then some (st, none)
  else
    let r := crypt st.crypto tx
    let st := { st with crypto := r.1 }
    if ¬ Framing.crcCheck crcA r.2 then some (st, none)
    else
      match Framing.crcTrim r.2 with
      | [command, blockNum] =>
        if command ≠ 0x30 ∨ ¬ blockValid st.model blockNum ∨
            getSectorByBlock st.authBlock ≠ getSectorByBlock blockNum then some (st, none)
        else
          (st.model.blocks.read? (blockNum.toNat * blockSize) blockSize).map fun block =>
            let enc := crypt st.crypto (Framing.crcFrame crcA block)
            ({ st with crypto := enc.1 }, some enc.2)
      | _ => some (st, none)

/-- `classic_listener_on_tag_cmd`: the response to a frame, or `none` where the listener keeps
silent. -/
def onTagCmd (tx : Bytes) : Option (State cfg × Option Bytes) :=
  if ¬ st.initialized ∨ tx.length = 0 then some (st, none)
  else if st.pendingAuth2 ∧ tx.length = 8 then some (handleAuthSecond st tx)
  else if tx.length = 2 then
    if byteAt tx 0 = 0x60 ∨ byteAt tx 0 = 0x61 then handleAuthFirst st (byteAt tx 1)
    else some (st, none)
  else if st.authComplete ∧ tx.length = 4 then handleRead st tx
  else some (st, none)

def listenerInit (model : Option (Data cfg)) : State cfg :=
  { resetAuth { st with model := model.getD .reset } with initialized := true }

def listenerShutdown : State cfg :=
  { resetAuth { st with model := .reset } with initialized := false }

theorem blockValid_zero {model : Data cfg} (h : model.type ≠ .unknown) :
    blockValid model 0 = true := by
  cases htype : model.type with
  | unknown => exact absurd htype h
  | mini => simp [blockValid, htype, getTotalBlocks]
  | type1k => simp [blockValid, htype, getTotalBlocks]
  | type4k => simp [blockValid, htype, getTotalBlocks]

theorem keyAForBlock_zero (model : Data cfg) : ∃ key, keyAForBlock model 0 = some key := by
  have hrange := cfg.blockCount_range
  have hread : model.blocks.read? (3 * blockSize) keySize =
      some (model.blocks.slice (3 * blockSize) keySize) :=
    CArray.read?_of_le _ (by simp only [blockSize, keySize]; omega)
  exact ⟨_, congrArg (Option.map (beNum 64)) hread⟩

theorem onTagCmd_authFrame {st : State cfg} (hinit : st.initialized = true) (b : UInt8) :
    onTagCmd st [0x60, b] = handleAuthFirst st b := by
  rw [onTagCmd, if_neg (by simp [hinit]), if_neg (by simp)]
  rfl

theorem onTagCmd_auth {st : State cfg} (hinit : st.initialized = true)
    (htype : st.model.type ≠ .unknown) :
    ∃ st', onTagCmd st [0x60, 0x00] = some (st', some [0x10, 0x00, 0x00, 0x00]) := by
  obtain ⟨key, hkey⟩ := keyAForBlock_zero st.model
  have hvalid : blockValid (resetAuth st).model 0 = true := blockValid_zero htype
  rw [onTagCmd_authFrame hinit, handleAuthFirst, if_neg (by simp [hvalid])]
  simp only [resetAuth, hkey, Option.map_some]
  exact ⟨_, rfl⟩

end NfcStack.Classic
