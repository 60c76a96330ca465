import NfcStack.Protocols.Emv.Model
import NfcStack.Protocols.Ndef.Poller

/-!
# The EMV poller

The reader side of `protocols/emv/emv_poller.c`: the application named by the PPSE, its
processing options, and the records of the first AFL entry. The records are stored in the order
in which they arrive.
-/

namespace NfcStack.Emv

open NfcStack.Reader

variable {τ : Type} {cfg : Config} (s : Session τ)

def pollerTransceive (tx : Bytes) : Poll τ (Except Errno Bytes) := do
  match ← s.transceive maxResponseLen tx with
  | .error e => return .error e
  | .ok rx => return if Ndef.swOk rx then .ok rx else .error .eio

/-- `emv_poller_parse_ppse_aid`: the value of the first 4F in the payload that has a length of 1 to
16 and its value in the payload. -/
def parsePpseAid : Bytes → Except Errno Bytes
  | [] => .error .ebadmsg
  | tag :: rest =>
    let alen := (byteAt rest 0).toNat
    if rest.length < 2 then .error .ebadmsg
    else if tag ≠ 0x4F ∨ alen = 0 ∨ appAidMaxBytes < alen ∨ rest.length < 1 + alen then
      parsePpseAid rest
    else .ok ((rest.drop 1).take alen)

/-- The loop of `emv_poller_parse_record_tlv` over the bytes that are left. Every pass takes two
of them at least, so `fuel` passes are enough for as many bytes. A PAN that is too long is left
after its first 8 bytes, and the loop goes on in the middle of it. -/
def parseTlvs : (fuel : ℕ) → Image cfg → Bytes → Image cfg
  | fuel + 1, out, tag :: tlen :: rest =>
    if rest.length < tlen.toNat then out
    else if tag = 0x57 then
      let kept := min tlen.toNat 19
      parseTlvs fuel
        { out with track2Len := UInt8.ofNat kept, track2 := out.track2.write 0 (rest.take kept) }
        (rest.drop tlen.toNat)
    else if tag = 0x5A then
      let kept := min tlen.toNat 8
      -- the length is noted in digits, modulo 256
      parseTlvs fuel { out with panLen := tlen * 2, pan := out.pan.write 0 (rest.take kept) }
        (rest.drop kept)
    else parseTlvs fuel out (rest.drop tlen.toNat)
  | _, out, _ => out

def parseRecordTlv (out : Image cfg) (data : Bytes) : Image cfg :=
  if data.length < 2 then out
  else if byteAt data 0 = 0x70 then
    parseTlvs data.length out ((data.drop 2).take (byteAt data 1).toNat)
  else parseTlvs data.length out data

def storeRecord (out : Image cfg) (idx : ℕ) (payload : Bytes) : Image cfg :=
  parseRecordTlv
    { out with
      recordLen := out.recordLen.set idx (UInt8.ofNat payload.length)
      recordData := out.recordData.write (idx * cfg.recordSize) payload }
    payload

def readRecordCommand (sfi recNo : UInt8) : Bytes := [0x00, 0xB2, recNo, (sfi <<< 3) ||| 0x04, 0x00]

/-- The record loop of `emv_poller_read`. Its counter is a byte, so it does not end on a tag that
names 255 as its last record and answers without data; `fuel` bounds the passes. -/
def pollerReadRecords (sfi last : UInt8) :
    (fuel : ℕ) → UInt8 → ℕ → Image cfg → Poll τ (Image cfg × Ret)
  | 0, _, _, _ => Poll.undefined
  | fuel + 1, recNo, idx, out => do
    if last < recNo ∨ cfg.maxRecords ≤ idx then
      return ({ out with recordCount := UInt8.ofNat idx }, .ok ())
    match ← pollerTransceive s (readRecordCommand sfi recNo) with
    | .error e => return (out, .error e)
    | .ok rx =>
      let payload := Ndef.payload rx
      if 0 < payload.length ∧ payload.length ≤ cfg.recordSize then
        pollerReadRecords sfi last fuel (recNo + 1) (idx + 1) (storeRecord out idx payload)
      -- a record that is empty or does not fit its slot leaves no gap
      else pollerReadRecords sfi last fuel (recNo + 1) idx out

def selectPpse : Bytes := [0x00, 0xA4, 0x04, 0x00, 14] ++ ppseAid

def selectApp (aid : Bytes) : Bytes := [0x00, 0xA4, 0x04, 0x00, UInt8.ofNat aid.length] ++ aid

def getProcessingOptions : Bytes := [0x80, 0xA8, 0x00, 0x00, 0x02, 0x83, 0x00, 0x00]

def storeAid (aid : Bytes) : Image cfg :=
  { (Image.reset : Image cfg) with
    appAidLen := UInt8.ofNat aid.length
    appAid := (CArray.fill _ 0).write 0 aid }

def storeOptions (out : Image cfg) (rx : Bytes) : Image cfg :=
  if 8 ≤ rx.length then
    { out with aip := .ofList 2 0 (rx.drop 2), afl := .ofList 4 0 (rx.drop 4) }
  else out

def pollerRead (fuel : ℕ) : Poll τ (Image cfg × Ret) := do
  match ← pollerTransceive s selectPpse with
  | .error e => return (.reset, .error e)
  | .ok rx =>
    match parsePpseAid (Ndef.payload rx) with
    | .error e => return (.reset, .error e)
    | .ok aid =>
      let out : Image cfg := storeAid aid
      match ← pollerTransceive s (selectApp aid) with
      | .error e => return (out, .error e)
      | .ok _ =>
        match ← pollerTransceive s getProcessingOptions with
        | .error e => return (out, .error e)
        | .ok rx =>
          let out := storeOptions out rx
          pollerReadRecords s (out.aflSfi >>> 3) out.aflLast fuel out.aflFirst 0 out

end NfcStack.Emv
