import NfcStack.Protocols.Ndef.Listener
import NfcStack.Reader.Session

/-!
# The NDEF poller

The reader side of `protocols/ndef/ndef_poller.c`: application select, capability
container, length field, and the message in chunks no longer than the tag and the
transport allow.
-/

namespace NfcStack.Ndef

open List NfcStack.Reader

variable {τ : Type} {cfg : Config} (s : Session τ)

def selectAppV2 : Bytes :=
  [0x00, 0xA4, 0x04, 0x00, 0x07, 0xD2, 0x76, 0x00, 0x00, 0x85, 0x01, 0x01, 0x00]

def selectAppV1 : Bytes :=
  [0x00, 0xA4, 0x04, 0x00, 0x07, 0xD2, 0x76, 0x00, 0x00, 0x85, 0x01, 0x00]

def selectCc : Bytes := [0x00, 0xA4, 0x00, 0x0C, 0x02, 0xE1, 0x03]

def readCc : Bytes := [0x00, 0xB0, 0x00, 0x00, 0x0F]

def endsWith (rx sw : Bytes) : Bool := 2 ≤ rx.length && rx.drop (rx.length - 2) == sw

def swOk (rx : Bytes) : Bool := endsWith rx [0x90, 0x00]

def swNotFound (rx : Bytes) : Bool := endsWith rx [0x6A, 0x82]

def payload (rx : Bytes) : Bytes := rx.take (rx.length - 2)

variable (data : Bytes)

theorem endsWith_append {sw : Bytes} (h : sw.length = 2) (sw' : Bytes) :
    endsWith (data ++ sw) sw' = (sw == sw') := by
  rw [endsWith, length_append, h]
  simp

theorem swOk_append : swOk (data ++ [0x90, 0x00]) = true := by
  rw [swOk, endsWith_append data rfl]
  rfl

theorem payload_append : payload (data ++ [0x90, 0x00]) = data := by
  rw [payload, length_append]
  exact take_left' rfl

def pollerTransceive (tx : Bytes) : Poll τ (Except Errno Bytes) := do
  match ← s.transceive maxResponseLen tx with
  | .error e => return .error e
  | .ok rx => return if swOk rx then .ok (payload rx) else .error .eio

/-- `ndef_poller_select_app`, which gives up with `EIO`, and `ndef_poller_detect`, which tells a
missing application from other refusals. -/
def selectApp (onRefusal : Bytes → Errno) : Poll τ Ret := do
  match ← s.transceive maxResponseLen selectAppV2 with
  | .error e => return .error e
  | .ok rx =>
    if swOk rx then return .ok ()
    match ← s.transceive maxResponseLen selectAppV1 with
    | .error e => return .error e
    | .ok rx => return if swOk rx then .ok () else .error (onRefusal rx)

def pollerDetect : Poll τ Ret :=
  if s.active then selectApp s fun rx => if swNotFound rx then .enotsup else .eio
  else return .error .einval

def ccMle (cc : CArray UInt8 ccSize) : ℕ :=
  max 2 (be16 (byteAt cc.toList 3) (byteAt cc.toList 4)).toNat

def readChunkLe (remaining tagMle : ℕ) : ℕ := min (min remaining (tagMle - 1)) (maxResponseLen - 2)

def readBinary (offset len : ℕ) : Bytes :=
  [0x00, 0xB0, (UInt16.ofNat offset >>> 8).toUInt8, (UInt16.ofNat offset).toUInt8, UInt8.ofNat len]

/-- The chunk loop of `ndef_poller_read`; every pass reads at least one byte, so `fuel` passes are
enough for a message of that length. -/
def readMessage (tagMle nlen : ℕ) : (fuel bytesRead : ℕ) → Data cfg → Poll τ (Data cfg × Ret)
  | 0, _, data => return (data, .ok ())
  | fuel + 1, bytesRead, data => do
    if nlen ≤ bytesRead then return (data, .ok ())
    let chunk := readChunkLe (nlen - bytesRead) tagMle
    match ← pollerTransceive s (readBinary (nlenFieldLen + bytesRead) chunk) with
    | .error e => return (data, .error e)
    | .ok rx =>
      if rx.length < chunk then return (data, .error .eio)
      match data.ndefFile.write? (nlenFieldLen + bytesRead) (rx.take chunk) with
      | none => Poll.undefined
      | some ndefFile => readMessage tagMle nlen fuel (bytesRead + chunk) { data with ndefFile }

def readNdefFile (data : Data cfg) : Poll τ (Data cfg × Ret) := do
  let cc := data.cc.toList
  match ← pollerTransceive s [0x00, 0xA4, 0x00, 0x0C, 0x02, byteAt cc 9, byteAt cc 10] with
  | .error e => return (data, .error e)
  | .ok _ =>
    match ← pollerTransceive s (readBinary 0 nlenFieldLen) with
    | .error e => return (data, .error e)
    | .ok rx =>
      if rx.length ≠ nlenFieldLen then return (data, .error .eio)
      let nlen := be16 (byteAt rx 0) (byteAt rx 1)
      if cfg.maxSize < nlen.toNat then return (data, .error .enospc)
      let data := { data with ndefFile := data.ndefFile.write 0 rx }
      let (data, ret) ← readMessage s (ccMle data.cc) nlen.toNat nlen.toNat 0 data
      if ret ≠ .ok () then return (data, ret)
      return ({ data with ndefFileLen := 2 + nlen }, .ok ())

def pollerRead (out : Data cfg) : Poll τ (Data cfg × Ret) := do
  if s.active = false then return (out, .error .einval)
  match ← selectApp s fun _ => .eio with
  | .error e => return (.reset, .error e)
  | .ok _ =>
    match ← pollerTransceive s selectCc with
    | .error e => return (.reset, .error e)
    | .ok _ =>
      match ← pollerTransceive s readCc with
      | .error e => return (.reset, .error e)
      | .ok rx =>
        if rx.length ≠ ccSize then return (.reset, .error .eio)
        let data : Data cfg :=
          { (Data.reset : Data cfg) with cc := .ofList ccSize 0 rx, ccLen := UInt16.ofNat ccSize }
        if byteAt rx 7 ≠ 0x04 then return (data, .error .eio)
        readNdefFile s data

end NfcStack.Ndef
