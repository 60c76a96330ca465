import NfcStack.Basic

/-!
# The NDEF listener

The card of `protocols/ndef/ndef.c`, a capability container and a file that starts with the length of the
message, and the commands of `ndef_listener.c`. An update reports the service as dirty to the stack; the
flag is part of the outcome of a command.
-/

namespace NfcStack.Ndef

structure Config where
  maxSize : ℕ
  maxSize_range : 1 ≤ maxSize ∧ maxSize ≤ 4096

def Config.default : Config := ⟨500, by decide⟩

def ccSize : ℕ := 15

def nlenFieldLen : ℕ := 2

def Config.fileSize (cfg : Config) : ℕ := nlenFieldLen + cfg.maxSize

def formatVersion : UInt8 := 0x01

structure Data (cfg : Config) where
  cc : CArray UInt8 ccSize
  ndefFile : CArray UInt8 cfg.fileSize
  ccLen : UInt16
  ndefFileLen : UInt16
deriving DecidableEq

variable {cfg : Config}

namespace Data

def reset : Data cfg := ⟨.fill _ 0, .fill _ 0, 0, 0⟩

def nlen (data : Data cfg) : UInt16 :=
  be16 (byteAt data.ndefFile.toList 0) (byteAt data.ndefFile.toList 1)

end Data

variable (data : Data cfg)

def serialize (outMax : ℕ) : Except Errno Bytes :=
  if data.ccLen.toNat ≠ ccSize ∨ cfg.fileSize < data.ndefFileLen.toNat then .error .einval
  else if outMax < 1 + ccSize + data.ndefFileLen.toNat then .error .enospc
  else .ok ([formatVersion] ++ data.cc.toList ++ data.ndefFile.slice 0 data.ndefFileLen.toNat)

def nlenFromFile : Ret :=
  if data.ndefFileLen.toNat < nlenFieldLen ∨ cfg.maxSize < data.nlen.toNat ∨
      2 + data.nlen ≠ data.ndefFileLen then .error .ebadmsg
  else .ok ()

/-- `ndef_deserialize`. Too short an input and an unknown version leave the model as it was; every
later error is found after the model has been overwritten. -/
def deserialize (bytes : Bytes) : Data cfg × Ret :=
  if bytes.length < 1 + ccSize + nlenFieldLen ∨ byteAt bytes 0 ≠ formatVersion then
    (data, .error .ebadmsg)
  else
    let header : Data cfg :=
      { (Data.reset : Data cfg) with
        cc := .ofList ccSize 0 (bytes.drop 1)
        ccLen := UInt16.ofNat ccSize
        ndefFileLen := UInt16.ofNat (bytes.length - 1 - ccSize) }
    if cfg.fileSize < header.ndefFileLen.toNat then (header, .error .ebadmsg)
    else
      let data := { header with
        ndefFile := header.ndefFile.write 0
          ((bytes.drop (1 + ccSize)).take header.ndefFileLen.toNat) }
      (data, nlenFromFile data)

inductive FileSel
  | none | cc | ndef
deriving DecidableEq, Repr

structure State (cfg : Config) where
  model : Data cfg
  writable : Bool
  initialized : Bool
  fileSel : FileSel
deriving DecidableEq

def State.boot : State cfg := ⟨.reset, false, false, .none⟩

def writeAccess (writable : Bool) : UInt8 := if writable then 0x00 else 0xFF

def buildCc (cfg : Config) (writable : Bool) : CArray UInt8 ccSize :=
  let mle := UInt16.ofNat (cfg.maxSize + nlenFieldLen)
  let maxNdef := UInt16.ofNat cfg.maxSize
  .ofList ccSize 0 [0x00, 0x0F, 0x20, (mle >>> 8).toUInt8, mle.toUInt8, (maxNdef >>> 8).toUInt8,
    maxNdef.toUInt8, 0x04, 0x06, 0xE1, 0x04, (maxNdef >>> 8).toUInt8, maxNdef.toUInt8, 0x00,
    writeAccess writable]

def syncFileLen : Data cfg :=
  if data.nlen.toNat ≤ cfg.maxSize then { data with ndefFileLen := 2 + data.nlen } else data

def padNdefFile : Data cfg :=
  { data with
    ndefFile := data.ndefFile.write data.ndefFileLen.toNat
      (List.replicate (cfg.fileSize - data.ndefFileLen.toNat) 0)
    ndefFileLen := UInt16.ofNat cfg.fileSize }

def ccIsZeroPlaceholder : Bool := data.cc.toList.all (· == 0)

/-! ## Commands

A handler gives the new state, the response and whether it reports the service as dirty. -/

variable (st : State cfg) (apdu : Apdu)

def handleSelectFile : State cfg × Bytes :=
  if apdu.p1 ≠ 0x00 ∨ ¬ (apdu.p2 = 0x00 ∨ apdu.p2 = 0x0C) then (st, StatusWord.wrongP1P2.bytes)
  else if apdu.lc ≠ 2 then (st, StatusWord.wrongLength.bytes)
  else if apdu.data = [0xE1, 0x03] then ({ st with fileSel := .cc }, StatusWord.ok.bytes)
  else if apdu.data = [0xE1, 0x04] then ({ st with fileSel := .ndef }, StatusWord.ok.bytes)
  else (st, StatusWord.fileNotFound.bytes)

def readNe (available : ℕ) : ℕ :=
  if ¬ apdu.hasLe then available
  else if apdu.le = 0 then min available (if apdu.extended then 65536 else 256)
  else apdu.le.toNat

def binaryOffset : ℕ := (be16 apdu.p1 apdu.p2).toNat

def readFile (file : Bytes) (apdu : Apdu) : Bytes :=
  let offset := binaryOffset apdu
  let available := file.length - offset
  let ne := readNe apdu available
  if file.length ≤ offset ∨ ne = 0 then StatusWord.wrongOffset.bytes
  else
    let actual := min (min ne available) (maxResponseLen - 2)
    (file.drop offset).take actual ++ StatusWord.ok.bytes

def handleReadBinary : Bytes :=
  match st.fileSel with
  | .none => StatusWord.noEf.bytes
  | .cc => readFile st.model.cc.toList apdu
  | .ndef => readFile st.model.ndefFile.toList apdu

def handleUpdateBinary : State cfg × Bytes × Bool :=
  let offset := binaryOffset apdu
  if st.fileSel = .none then (st, StatusWord.noEf.bytes, false)
  else if st.fileSel = .cc ∨ ¬ st.writable then (st, StatusWord.conditionsNotSat.bytes, false)
  else if apdu.lc = 0 ∨ cfg.fileSize < offset + apdu.lc then
    (st, StatusWord.wrongLength.bytes, false)
  else
    ({ st with
        model := { st.model with ndefFile := st.model.ndefFile.write offset apdu.data } },
      StatusWord.ok.bytes, true)

def onApdu : State cfg × Bytes × Bool :=
  if apdu.cla ≠ 0x00 then (st, StatusWord.claNotSupported.bytes, false)
  else if apdu.ins = 0xA4 then
    let r := handleSelectFile st apdu
    (r.1, r.2, false)
  else if apdu.ins = 0xB0 then (st, handleReadBinary st apdu, false)
  else if apdu.ins = 0xD6 then handleUpdateBinary st apdu
  else (st, StatusWord.insNotSupported.bytes, false)

def onSelect : State cfg × Bytes :=
  ({ st with fileSel := .none }, StatusWord.ok.bytes)

def closeFile : State cfg := { st with fileSel := .none }

def listenerSerialize (outMax : ℕ) : State cfg × Except Errno Bytes :=
  if ¬ st.initialized then (st, .error .enodev)
  else
    let model := syncFileLen st.model
    ({ st with model }, serialize model outMax)

def adoptModel (writable : Bool) (model : Data cfg) : Data cfg :=
  padNdefFile (if ccIsZeroPlaceholder model then
    { model with cc := buildCc cfg writable, ccLen := UInt16.ofNat ccSize } else model)

def listenerDeserialize (bytes : Bytes) : State cfg × Ret :=
  if ¬ st.initialized then (st, .error .enodev)
  else
    let r := deserialize st.model bytes
    match r.2 with
    | .error e => ({ st with model := r.1 }, .error e)
    | .ok () => ({ st with model := adoptModel st.writable r.1 }, .ok ())

def initModel (writable : Bool) (model : Option (Data cfg)) : Data cfg :=
  let model := model.getD .reset
  padNdefFile (if model.ccLen.toNat = ccSize then
    { model with cc := model.cc.set 14 (writeAccess writable) }
  else { model with cc := buildCc cfg writable, ccLen := UInt16.ofNat ccSize })

def listenerInit (model : Option (Data cfg)) (writable : Bool) : State cfg × Ret :=
  if st.initialized then (st, .error .ealready)
  else
    ({ model := initModel writable model, writable, initialized := true, fileSel := .none }, .ok ())

def listenerShutdown : State cfg :=
  if st.initialized then { st with initialized := false, fileSel := .none } else st

end NfcStack.Ndef
