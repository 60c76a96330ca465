import NfcStack.Framing.Crc

/-!
# The FeliCa listener

The emulated FeliCa Lite card of `protocols/felica/felica_listener.c`. A command never
changes the model, so the answer to a frame is a function of the state.
-/

namespace NfcStack.Felica

def blocksMax : ℕ := 64

def blockDataSize : ℕ := 16

def maxBufferSize : ℕ := 256

structure Data where
  idm : CArray UInt8 8
  pmm : CArray UInt8 8
  blocksTotal : UInt16
  blocks : CArray UInt8 (blocksMax * blockDataSize)
deriving DecidableEq

def Data.reset : Data := ⟨.fill _ 0, .fill _ 0, 0, .fill _ 0⟩

def crcBit (crc : UInt16) : UInt16 :=
  if crc &&& 0x8000 ≠ 0 then (crc <<< 1) ^^^ 0x1021 else crc <<< 1

def crcByte (crc : UInt16) (b : UInt8) : UInt16 :=
  let high : UInt16 := b.toUInt16 <<< 8
  crcBit^[8] (crc ^^^ high)

/-- `felica_crc_calculate`; the bytes of the result are swapped. -/
def crcCalculate (data : Bytes) : UInt16 :=
  let crc := data.foldl crcByte 0
  (crc <<< 8) ||| (crc >>> 8)

def crcAppend (payload : Bytes) : Bytes := Framing.crcFrame crcCalculate payload

def crcCheck (frame : Bytes) : Bool := Framing.crcCheck crcCalculate frame

def crcTrim (frame : Bytes) : Bytes := Framing.crcTrim frame

/-! ## Block numbers

The blocks of a FeliCa Lite card have numbers with gaps; a dump holds them one after the
other. -/

def blockExists (wireBlock : UInt8) : Bool :=
  !(0x0E < wireBlock && wireBlock < 0x80) && !(0x88 < wireBlock && wireBlock < 0x90) &&
    !(0x92 < wireBlock && wireBlock < 0xA0) && !(0xA0 < wireBlock)

def nextBlockIndex (blockIndex : UInt8) : UInt8 :=
  let next := blockIndex + 1
  if next = 0x0E + 1 then 0x80 else if next = 0x88 + 1 then 0x90
  else if next = 0x92 + 1 then 0xA0 else next

def dumpIndexLoop (wireBlock : UInt8) : (n : ℕ) → (dumpIdx wire : UInt8) → UInt8
  | 0, _, _ => wireBlock
  | n + 1, dumpIdx, wire =>
    if wire = wireBlock then dumpIdx
    else dumpIndexLoop wireBlock n (dumpIdx + 1) (nextBlockIndex wire)

def wireToDumpIndex (wireBlock : UInt8) : UInt8 := dumpIndexLoop wireBlock 28 0 0

structure State where
  model : Data
  initialized : Bool
deriving DecidableEq

def State.boot : State := ⟨.reset, false⟩

variable (model : Data)

def handlePoll : Bytes :=
  crcAppend ([18, 0x01] ++ model.idm.toList ++ model.pmm.toList)

def readBlock (blockNumber : UInt8) : Option (Option Bytes) :=
  if blockNumber = 0x80 then some (some (List.replicate blockDataSize 0))
  else
    let dumpIdx := (wireToDumpIndex blockNumber).toNat
    if model.blocksTotal.toNat ≤ dumpIdx then some none
    else (model.blocks.read? (dumpIdx * blockDataSize) blockDataSize).map some

/-- `felica_listener_handle_read`: one block of the service with read-only access. Byte 14 holds the
service code, the access mode and the length flag of the block list element. -/
def handleRead (frame : Bytes) : Option (Option Bytes) :=
  if frame.length < 1 + 13 + 2 ∨ (frame.drop 2).take 8 ≠ model.idm.toList ∨
      byteAt frame 10 ≠ 1 ∨ byteAt frame 13 ≠ 1 ∨
      le16 (byteAt frame 11) (byteAt frame 12) ≠ 0x000B ∨ byteAt frame 14 ≠ 0x80 ∨
      ¬ blockExists (byteAt frame 15) then some none
  else
    (readBlock model (byteAt frame 15)).map fun block =>
      block.map fun data => crcAppend ([29, 0x07] ++ model.idm.toList ++ [0, 0, 1] ++ data)

def onTagCmd (st : State) (tx : Bytes) : Option (Option Bytes) :=
  if ¬ st.initialized ∨ tx.length < 1 + 2 ∨ ¬ crcCheck tx ∨ maxBufferSize < tx.length then some none
  else
    let frame := crcTrim tx
    if frame.length < 2 then some none
    else if byteAt frame 1 = 0x00 then some (some (handlePoll st.model))
    else if byteAt frame 1 = 0x06 then handleRead st.model frame
    else some none

def listenerInit (_st : State) (model : Option Data) : State := ⟨model.getD .reset, true⟩

def listenerShutdown (_st : State) : State := ⟨.reset, false⟩

theorem onTagCmd_of_crcCheck (st : State) {tx : Bytes} (h : crcCheck tx = false) :
    onTagCmd st tx = some none := by
  rw [onTagCmd, if_pos (by simp [h])]

def pollingFrame : Bytes := crcAppend [6, 0x00, 0xFF, 0xFF, 0x00, 0x00]

theorem onTagCmd_polling {st : State} (hinit : st.initialized = true) :
    onTagCmd st pollingFrame = some (some (handlePoll st.model)) := by
  have hcheck : crcCheck pollingFrame = true := Framing.crcCheck_crcFrame _ (by simp)
  have hlen : pollingFrame.length = 8 := Framing.length_crcFrame _ _
  rw [onTagCmd, if_neg (by simp [hinit, hlen, hcheck, maxBufferSize])]
  rfl

theorem length_handlePoll : (handlePoll model).length = 20 := by
  simp [handlePoll, crcAppend]

end NfcStack.Felica
