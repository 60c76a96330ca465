import NfcStack.Protocols.Iso15693.Model
import NfcStack.Reader.Session

/-!
# The ISO15693-3 listener

The emulated card of `protocols/iso15693_3/iso15693_3_listener.c`. A command never
changes the model, so the answer to a frame is a function of the state.
-/

namespace NfcStack.Iso15693

def listenerBufSize : ℕ := 256

structure State where
  model : Data
  initialized : Bool
deriving DecidableEq

namespace State

def boot : State := ⟨.reset, false⟩

def listenerInit (_st : State) (model : Option Data) : State := ⟨model.getD .reset, true⟩

def listenerShutdown (_st : State) : State := ⟨.reset, false⟩

def listenerSerialize (st : State) (outMax : ℕ) : Except Errno Bytes :=
  if st.initialized then st.model.serialize outMax else .error .enodev

def listenerDeserialize (st : State) (bytes : Bytes) : State × Ret :=
  if st.initialized then
    let r := Data.deserialize bytes
    ({ st with model := r.1 }, r.2)
  else (st, .error .enodev)

end State

/-! ## Commands

Each handler gives the payload of its response. -/

def errorPayload : Bytes := [0x01, 0x10]

variable (model : Data)

def handleInventory : Bytes := [0, model.dsfid] ++ uidReversed model.uid

def sysinfoFlags : UInt8 := 0x01 ||| 0x10 ||| 0x40 ||| 0x80

def handleGetSysInfo : Bytes :=
  [0, sysinfoFlags, model.dsfid, model.afi, (model.blockCount - 1).toUInt8,
    (model.blockSize - 1) &&& 0x1F, model.icRef]

def handleReadBlock (blockNum : UInt8) : Option Bytes :=
  if model.blockCount.toNat ≤ blockNum.toNat then some errorPayload
  else
    (model.blockData.read? (blockNum.toNat * model.blockSize.toNat) model.blockSize.toNat).map
      fun block => 0 :: block

def handleGetBlocksSecurity (first last : UInt8) : Option Bytes :=
  if model.blockCount.toNat ≤ first.toNat ∨ model.blockCount.toNat ≤ last.toNat ∨ last < first then
    some errorPayload
  else
    (model.blockSecurity.read? first.toNat (last.toNat + 1 - first.toNat)).map
      fun security => 0 :: security

def listenerSend (payload : Bytes) : Option Bytes :=
  if listenerBufSize - crcSize < payload.length then none else crcAppend listenerBufSize payload

def handleCommand (command : UInt8) (data : Bytes) : Option (Option Bytes) :=
  if command = 0x01 then some (some (handleInventory model))
  else if command = 0x2B then some (if data.length = 0 then some (handleGetSysInfo model) else none)
  else if command = 0x20 then
    if data.length < 1 then some none else (handleReadBlock model (byteAt data 0)).map some
  else if command = 0x2C then
    if data.length < 2 then some none
    else (handleGetBlocksSecurity model (byteAt data 0) (byteAt data 1)).map some
  else some none

def commandData (flags : UInt8) (data : Bytes) : Option Bytes :=
  if flags &&& (0x04 : UInt8) = 0 ∧ flags &&& (0x20 : UInt8) ≠ 0 then
    if data.length < 8 ∨ data.take 8 ≠ uidReversed model.uid then none else some (data.drop 8)
  else some data

def onTagCmd (st : State) (tx : Bytes) : Option (Option Bytes) :=
  if st.initialized = false ∨ tx.length < 1 + crcSize ∨ ¬ crcCheck tx ∨
      listenerBufSize < tx.length then some none
  else
    match crcTrim tx with
    | flags :: command :: data =>
      match commandData st.model flags data with
      | none => some none
      | some data => (handleCommand st.model command data).map (·.bind listenerSend)
    | _ => some none

def loopback (silence : Errno) : Reader.Tag State where
  step st tx := (onTagCmd st tx).map fun resp =>
    (st, match resp with
      | none => .error silence
      | some frame => .ok frame)

end NfcStack.Iso15693
