import NfcStack.Basic

/-!
# The EMV card image

The data model and the stored format of `protocols/emv/emv.c`. `deserialize` is modelled with the log of
its writes to the record arrays.
-/

namespace NfcStack.Emv

structure Config where
  /-- `CONFIG_NFC_EMV_MAX_RECORDS`. -/
  maxRecords : ℕ
  /-- `CONFIG_NFC_EMV_RECORD_SIZE`. -/
  recordSize : ℕ
  maxRecords_range : 1 ≤ maxRecords ∧ maxRecords ≤ 4
  recordSize_range : 32 ≤ recordSize ∧ recordSize ≤ 128

def Config.default : Config where
  maxRecords := 2
  recordSize := 64
  maxRecords_range := by decide
  recordSize_range := by decide

def formatVersion : UInt8 := 0x01

def ppseAid : Bytes :=
  [0x32, 0x50, 0x41, 0x59, 0x2E, 0x53, 0x59, 0x53, 0x2E, 0x44, 0x44, 0x46, 0x30, 0x31]

def serviceAppAid : Bytes := [0xA0, 0x00, 0x00, 0x00, 0x03, 0x10, 0x10]

def appAidMaxBytes : ℕ := 16

structure Image (cfg : Config) where
  pan : CArray UInt8 8
  panLen : UInt8
  expiry : CArray UInt8 3
  name : CArray UInt8 26
  track2 : CArray UInt8 19
  track2Len : UInt8
  aip : CArray UInt8 2
  afl : CArray UInt8 4
  appAid : CArray UInt8 appAidMaxBytes
  appAidLen : UInt8
  recordCount : UInt8
  recordLen : CArray UInt8 cfg.maxRecords
  recordData : CArray UInt8 (cfg.maxRecords * cfg.recordSize)
deriving DecidableEq, Repr

variable {cfg : Config}

def Image.reset : Image cfg where
  pan := .fill _ 0
  panLen := 0
  expiry := .fill _ 0
  name := .fill _ 0
  track2 := .fill _ 0
  track2Len := 0
  aip := .fill _ 0
  afl := .fill _ 0
  appAid := .fill _ 0
  appAidLen := 0
  recordCount := 0
  recordLen := .fill _ 0
  recordData := .fill _ 0

/-! The first entry of the AFL: `afl[0]` holds the short file identifier in its upper five bits,
`afl[1]` and `afl[2]` are the first and the last record number. -/

variable (image : Image cfg)

def Image.aflSfi : UInt8 := image.afl.get 0

def Image.aflFirst : UInt8 := image.afl.get 1

def Image.aflLast : UInt8 := image.afl.get 2

structure TlvWriter where
  cap : ℕ
  out : Bytes
  error : Bool

namespace TlvWriter

def init (cap : ℕ) : TlvWriter := ⟨cap, [], false⟩

variable (w : TlvWriter)

def putU8 (v : UInt8) : TlvWriter :=
  if w.error ∨ w.cap ≤ w.out.length then { w with error := true }
  else { w with out := w.out ++ [v] }

def putBytes (data : Bytes) : TlvWriter := data.foldl putU8 w

def openTag (tag : UInt8) : TlvWriter := (w.putU8 tag).putU8 0

def close (start : ℕ) : TlvWriter :=
  let len := w.out.length - start - 1
  if w.error ∨ 0x7F < len then { w with error := true }
  else { w with out := w.out.set start (UInt8.ofNat len) }

end TlvWriter

variable (image : Image cfg)

def record0Writer : TlvWriter :=
  let panBytes := min (image.panLen.toNat / 2) 8
  let w := (TlvWriter.init cfg.recordSize).openTag 0x70
  let w :=
    if 0 < panBytes then
      ((w.putU8 0x5A).putU8 (UInt8.ofNat panBytes)).putBytes (image.pan.slice 0 panBytes)
    else w
  (((w.putU8 0x57).putU8 image.track2Len).putBytes
    (image.track2.slice 0 image.track2Len.toNat)).close 1

def buildRecord0 : Image cfg :=
  let w := record0Writer image
  let image := { image with recordData := image.recordData.write 0 w.out }
  if w.error then image
  else { image with
    recordLen := image.recordLen.set 0 (UInt8.ofNat w.out.length)
    recordCount := 1 }

def loadDefault : Image cfg :=
  buildRecord0
    { (Image.reset : Image cfg) with
      pan := .fill _ 0x99
      panLen := 16
      expiry := .ofList 3 0 [0x99, 0x12, 0x31]
      name := .ofList 26 0x20 [0x54, 0x45, 0x53, 0x54, 0x2F, 0x43, 0x41, 0x52, 0x44]
      track2 := .ofList 19 0 [0x99, 0x99, 0x99, 0x99, 0x99, 0x99, 0x99, 0x99, 0xD9, 0x12, 0x31,
        0x00, 0x00, 0x00, 0x00, 0x0F]
      track2Len := 16
      afl := .ofList 4 0 [0x08, 0x01, 0x01, 0x00]
      appAid := .ofList _ 0 serviceAppAid
      appAidLen := 7 }

def Image.record? (i : ℕ) : Option Bytes :=
  match image.recordLen.get? i with
  | none => none
  | some len => image.recordData.read? (i * cfg.recordSize) len.toNat

def serializeRecords (image : Image cfg) : (n i : ℕ) → Option Bytes
  | 0, _ => some []
  | n + 1, i =>
    match image.recordLen.get? i, image.record? i, serializeRecords image n (i + 1) with
    | some len, some data, some out => some (len :: data ++ out)
    | _, _, _ => none

def serializedSize (image : Image cfg) : (n i : ℕ) → Option ℕ
  | 0, _ => some 84
  | n + 1, i =>
    match image.recordLen.get? i, serializedSize image n (i + 1) with
    | some len, some need => some (1 + len.toNat + need)
    | _, _ => none

def serialize (image : Image cfg) (outMax : ℕ) : Option (Except Errno Bytes) :=
  match serializedSize image image.recordCount.toNat 0 with
  | none => none
  | some need =>
    if outMax < need then some (.error .enospc)
    else
      (serializeRecords image image.recordCount.toNat 0).map fun records =>
        .ok ([formatVersion, image.panLen] ++ image.pan.toList ++ image.expiry.toList ++
          image.name.toList ++ [image.track2Len] ++ image.track2.toList ++ image.aip.toList ++
          image.afl.toList ++ [image.appAidLen] ++ image.appAid.toList ++ [image.recordCount] ++
          records)

structure RecordWrite where
  slot : ℕ
  size : ℕ
deriving DecidableEq, Repr

/-- The record loop of `emv_deserialize`: the writes it makes, and the image with the bytes left
over, unless a write lies outside its array. -/
def deserializeRecords : (n i : ℕ) → Image cfg → Bytes →
    List RecordWrite × Option (Image cfg × Except Errno Bytes)
  | 0, _, image, rest => ([], some (image, .ok rest))
  | _ + 1, _, image, [] => ([], some (image, .error .ebadmsg))
  | n + 1, i, image, len :: rest =>
    if i < cfg.maxRecords then
      let image := { image with recordLen := image.recordLen.set i len }
      if rest.length < len.toNat then ([⟨i, 0⟩], some (image, .error .ebadmsg))
      else
        match image.recordData.write? (i * cfg.recordSize) (rest.take len.toNat) with
        | none => ([⟨i, 0⟩, ⟨i, len.toNat⟩], none)
        | some recordData =>
          let r := deserializeRecords n (i + 1) { image with recordData } (rest.drop len.toNat)
          (⟨i, 0⟩ :: ⟨i, len.toNat⟩ :: r.1, r.2)
    else ([⟨i, 0⟩], none)

def readHeader (bytes : Bytes) : Image cfg :=
  { (Image.reset : Image cfg) with
    panLen := byteAt bytes 1
    pan := .ofList 8 0 (bytes.drop 2)
    expiry := .ofList 3 0 (bytes.drop 10)
    name := .ofList 26 0 (bytes.drop 13)
    track2Len := byteAt bytes 39
    track2 := .ofList 19 0 (bytes.drop 40)
    aip := .ofList 2 0 (bytes.drop 59)
    afl := .ofList 4 0 (bytes.drop 61)
    appAidLen := byteAt bytes 65
    appAid := .ofList _ 0 (bytes.drop 66) }

def rebuildCaches (image : Image cfg) : Ret :=
  if image.appAidLen = 0 ∨ appAidMaxBytes < image.appAidLen.toNat then .error .ebadmsg else .ok ()

def recordsOffset : ℕ := 83

def readRecords (cfg : Config) (bytes : Bytes) :
    List RecordWrite × Option (Image cfg × Except Errno Bytes) :=
  deserializeRecords (byteAt bytes 82).toNat 0
    { (readHeader bytes : Image cfg) with recordCount := byteAt bytes 82 }
    (bytes.drop recordsOffset)

def finishDeserialize (p : Image cfg × Except Errno Bytes) : Image cfg × Ret :=
  match p.2 with
  | .error e => (p.1, .error e)
  | .ok rest => (p.1, if rest = [] then rebuildCaches p.1 else .error .ebadmsg)

def deserialize (image : Image cfg) (bytes : Bytes) : List RecordWrite × Option (Image cfg × Ret) :=
  if bytes.length < 84 then ([], some (image, .error .einval))
  else if byteAt bytes 0 ≠ formatVersion then ([], some (.reset, .error .ebadmsg))
  else if appAidMaxBytes < (byteAt bytes 65).toNat then
    ([], some (readHeader bytes, .error .ebadmsg))
  else ((readRecords cfg bytes).1, (readRecords cfg bytes).2.map finishDeserialize)

end NfcStack.Emv
