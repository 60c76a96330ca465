import NfcStack.Framing.Crc

/-!
# The ISO15693-3 card

The data model of `protocols/iso15693_3/iso15693_3.c` with its stored form, and the frames of
`iso15693_3_poller_i.c`: the CRC and the parsers of the responses.
-/

namespace NfcStack.Iso15693

def formatVersion : UInt8 := 0x01

def blocksMax : ℕ := 128

def blockSizeMax : ℕ := 4

structure Data where
  uid : CArray UInt8 8
  dsfid : UInt8
  afi : UInt8
  icRef : UInt8
  lockDsfid : UInt8
  lockAfi : UInt8
  blockCount : UInt16
  blockSize : UInt8
  blockData : CArray UInt8 (blocksMax * blockSizeMax)
  blockSecurity : CArray UInt8 blocksMax
deriving DecidableEq, Repr

namespace Data

def reset : Data where
  uid := .fill _ 0
  dsfid := 0
  afi := 0
  icRef := 0
  lockDsfid := 0
  lockAfi := 0
  blockCount := 0
  blockSize := 0
  blockData := .fill _ 0
  blockSecurity := .fill _ 0

def sizesOk (blockCount : UInt16) (blockSize : UInt8) : Bool :=
  blockCount ≠ 0 ∧ blockCount.toNat ≤ blocksMax ∧ blockSize ≠ 0 ∧ blockSize.toNat ≤ blockSizeMax

def Valid (data : Data) : Prop := sizesOk data.blockCount data.blockSize = true

instance (data : Data) : Decidable data.Valid := inferInstanceAs (Decidable (_ = true))

def dataLen (data : Data) : ℕ := data.blockCount.toNat * data.blockSize.toNat

theorem Valid.bounds {data : Data} (h : data.Valid) :
    1 ≤ data.blockCount.toNat ∧ data.blockCount.toNat ≤ 128 ∧
      1 ≤ data.blockSize.toNat ∧ data.blockSize.toNat ≤ 4 := by
  simp only [Valid, sizesOk, blocksMax, blockSizeMax, decide_eq_true_eq, ne_eq,
    ← UInt16.toNat_inj, ← UInt8.toNat_inj] at h
  obtain ⟨h1, h2, h3, h4⟩ := h
  exact ⟨Nat.pos_of_ne_zero h1, h2, Nat.pos_of_ne_zero h3, h4⟩

theorem Valid.block_end_le {data : Data} (h : data.Valid) {i : ℕ} (hi : i ≤ data.blockCount.toNat) :
    i * data.blockSize.toNat ≤ blocksMax * blockSizeMax := by
  obtain ⟨-, h2, -, h4⟩ := h.bounds
  exact Nat.mul_le_mul (hi.trans h2) h4

def serialize (data : Data) (outMax : ℕ) : Except Errno Bytes :=
  if ¬ sizesOk data.blockCount data.blockSize then .error .einval
  else if outMax < 17 + data.dataLen + data.blockCount.toNat then .error .enospc
  else .ok ([formatVersion] ++ data.uid.toList ++
    [data.dsfid, data.afi, data.icRef, data.lockDsfid, data.lockAfi] ++
    le16Bytes data.blockCount ++ [data.blockSize] ++ data.blockData.slice 0 data.dataLen ++
    data.blockSecurity.slice 0 data.blockCount.toNat)

def deserialize (bytes : Bytes) : Data × Ret :=
  if bytes.length < 17 ∨ byteAt bytes 0 ≠ formatVersion then (reset, .error .ebadmsg)
  else
    let header : Data :=
      { reset with
        uid := .ofList 8 0 (bytes.drop 1)
        dsfid := byteAt bytes 9
        afi := byteAt bytes 10
        icRef := byteAt bytes 11
        lockDsfid := byteAt bytes 12
        lockAfi := byteAt bytes 13
        blockSize := byteAt bytes 16 }
    let blockCount := le16 (byteAt bytes 14) (byteAt bytes 15)
    let len := blockCount.toNat * header.blockSize.toNat
    if ¬ sizesOk blockCount header.blockSize ∨ bytes.length < 17 + len + blockCount.toNat then
      (header, .error .ebadmsg)
    else
      ({ header with
          blockCount
          blockData := header.blockData.write 0 ((bytes.drop 17).take len)
          blockSecurity := header.blockSecurity.write 0
            ((bytes.drop (17 + len)).take blockCount.toNat) }, .ok ())

/-- `iso15693_3_compare`; the two locks are not compared. The lengths are those of the expected
card, and a comparison beyond an array has no outcome. -/
def compare (expected actual : Data) : Option Ret :=
  if expected.uid ≠ actual.uid ∨ expected.dsfid ≠ actual.dsfid ∨ expected.afi ≠ actual.afi ∨
      expected.icRef ≠ actual.icRef ∨ expected.blockCount ≠ actual.blockCount ∨
      expected.blockSize ≠ actual.blockSize then some (.error .ebadmsg)
  else
    match expected.blockData.read? 0 expected.dataLen,
      actual.blockData.read? 0 expected.dataLen with
    | some a, some b =>
      if a ≠ b then some (.error .ebadmsg)
      else
        match expected.blockSecurity.read? 0 expected.blockCount.toNat,
          actual.blockSecurity.read? 0 expected.blockCount.toNat with
        | some a, some b => some (if a ≠ b then .error .ebadmsg else .ok ())
        | _, _ => none
    | _, _ => none

end Data

def crcSize : ℕ := 2

def crcBit (crc : UInt16) : UInt16 :=
  if crc &&& 1 ≠ 0 then (crc >>> 1) ^^^ 0x8408 else crc >>> 1

def crc16 (data : Bytes) : UInt16 :=
  ~~~(data.foldl (fun crc b => crcBit^[8] (crc ^^^ b.toUInt16)) 0xFFFF)

def crcAppend (bufLen : ℕ) (payload : Bytes) : Option Bytes :=
  if bufLen < payload.length + crcSize then none else some (payload ++ le16Bytes (crc16 payload))

def crcTrim (buf : Bytes) : Bytes := buf.take (buf.length - crcSize)

def crcCheck (buf : Bytes) : Bool :=
  crcSize < buf.length &&
    crc16 (crcTrim buf) == le16 (byteAt buf (buf.length - 2)) (byteAt buf (buf.length - 1))

theorem crcAppend_of_le {bufLen : ℕ} {payload : Bytes} (h : payload.length + 2 ≤ bufLen) :
    crcAppend bufLen payload = some (Framing.crcFrame crc16 payload) :=
  if_neg (Nat.not_lt.mpr h)

@[simp] theorem crcTrim_crcFrame (payload : Bytes) :
    crcTrim (Framing.crcFrame crc16 payload) = payload :=
  Framing.crcTrim_crcFrame crc16 payload

theorem crcCheck_crcFrame {payload : Bytes} (hne : payload ≠ []) :
    crcCheck (Framing.crcFrame crc16 payload) = true :=
  Framing.crcCheck_crcFrame crc16 hne

def errorResponseParse : Bytes → Option Errno
  | [] => none
  | flags :: rest =>
    if flags &&& (0x01 : UInt8) = 0 then none
    else
      match rest with
      | [] => some .eio
      | code :: _ => some (if code = 0x01 ∨ code = 0x02 then .enotsup else .eio)

def uidReversed (uid : CArray UInt8 8) : Bytes := uid.toList.reverse

variable (rx : Bytes)

def inventoryResponseParse (data : Data) : Data × Ret :=
  match errorResponseParse rx with
  | some e => (data, .error e)
  | none =>
    if rx.length ≠ 10 then (data, .error .eio)
    else ({ data with dsfid := byteAt rx 1, uid := .ofList 8 0 (rx.drop 2).reverse }, .ok ())

/-- A field of the system information: `size` bytes if its flag is set. On a response that ends
before it, what was stored until then stays. -/
def sysInfoField (present : Bool) (size : ℕ) (store : Data → Bytes → Data) (s : Data × Bytes) :
    Except Data (Data × Bytes) :=
  if present then
    if s.2.length < size then .error s.1 else .ok (store s.1 s.2, s.2.drop size)
  else .ok s

def sysInfoFields (infoFlags : UInt8) (data : Data) (rest : Bytes) : Except Data Data := do
  let s ← sysInfoField (infoFlags &&& (0x01 : UInt8) ≠ 0) 1
    (fun d r => { d with dsfid := byteAt r 0 }) (data, rest)
  let s ← sysInfoField (infoFlags &&& (0x10 : UInt8) ≠ 0) 1
    (fun d r => { d with afi := byteAt r 0 }) s
  let s ← sysInfoField (infoFlags &&& (0x40 : UInt8) ≠ 0) 2
    (fun d r => { d with
      blockCount := (byteAt r 0).toUInt16 + 1
      blockSize := (byteAt r 1 &&& 0x1F) + 1 }) s
  let s ← sysInfoField (infoFlags &&& (0x80 : UInt8) ≠ 0) 1
    (fun d r => { d with icRef := byteAt r 0 }) s
  if s.2 ≠ [] ∨ ¬ Data.sizesOk s.1.blockCount s.1.blockSize then .error s.1 else .ok s.1

def systemInfoResponseParse (data : Data) : Data × Ret :=
  match errorResponseParse rx with
  | some e => (data, .error e)
  | none =>
    if rx.length < 2 then (data, .error .eio)
    else
      match sysInfoFields (byteAt rx 1) data (rx.drop 2) with
      | .error data => (data, .error .eio)
      | .ok data => (data, .ok ())

def payloadResponseParse (size : ℕ) : Except Errno Bytes :=
  match errorResponseParse rx with
  | some e => .error e
  | none => if rx.length ≤ 1 ∨ rx.length - 1 ≠ size then .error .eio else .ok (rx.drop 1)

def readBlockResponseParse (blockSize : UInt8) : Except Errno Bytes :=
  payloadResponseParse rx blockSize.toNat

def getBlockSecurityResponseParse (blockCount : ℕ) : Except Errno Bytes :=
  payloadResponseParse rx blockCount

def optionalStepOk : Ret → Bool
  | .ok _ => true
  | .error e => e = .enotsup ∨ e = .etimedout

theorem payloadResponseParse_ok (payload : Bytes) (hne : payload ≠ []) :
    payloadResponseParse (0 :: payload) payload.length = .ok payload := by
  have hpos := List.length_pos_of_ne_nil hne
  have herr : errorResponseParse (0 :: payload) = none := rfl
  simp [payloadResponseParse, herr, hpos.ne']

end NfcStack.Iso15693
