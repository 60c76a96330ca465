import NfcStack.Basic

/-!
# The stored envelope

The blob format of `store/nfc_store.c`: a header with magic, version and payload length, the entries
of the services, and a checksum over both. The checksum is the `crc16_ccitt` of the operating system and
a parameter `crc` of what follows; `crc16Ccitt` stands in for it where a blob is computed.
-/

namespace NfcStack.Store

open List

def hdrSize : ℕ := 6

def crcSize : ℕ := 2

def versionV1 : UInt8 := 0x01

def version : UInt8 := 0x02

/-- One step of the loop of `crc16_ccitt` in `scripts/nfc/ndef_to_card_bin.py`, a port of the function
that the firmware calls. -/
def crcByte (seed : UInt16) (b : UInt8) : UInt16 :=
  let e := seed.toUInt8 ^^^ b
  let f := (e ^^^ (e <<< 4)).toUInt16
  (seed >>> 8) ^^^ (f <<< 8) ^^^ (f <<< 3) ^^^ (f >>> 4)

def crc16Ccitt (bytes : Bytes) : UInt16 := bytes.foldl crcByte 0xFFFF

def captureFlags (persistId : UInt8) : UInt8 :=
  if persistId = 0x01 ∨ persistId = 0x02 ∨ persistId = 0x03 ∨ persistId = 0x04 ∨
      persistId = 0x05 then 0x05 else 0x01

def writeEntry (persistId : UInt8) (body : Bytes) : Bytes :=
  [persistId, captureFlags persistId] ++ le16Bytes (UInt16.ofNat body.length) ++ body

def writePayload (payload : Bytes) : Bytes :=
  [0x4E, 0x46, version, 0x00] ++ le16Bytes (UInt16.ofNat payload.length) ++ payload

def writeBlob (crc : Bytes → UInt16) (payload : Bytes) : Bytes :=
  writePayload payload ++ le16Bytes (crc (writePayload payload))

def openEnvelope (crc : Bytes → UInt16) (blob : Bytes) : Except Errno (UInt8 × Bytes) :=
  let end_ := hdrSize + (le16 (byteAt blob 4) (byteAt blob 5)).toNat
  if blob.length < hdrSize + crcSize then .error .ebadmsg
  else if byteAt blob 0 ≠ 0x4E ∨ byteAt blob 1 ≠ 0x46 then .error .ebadmsg
  else if byteAt blob 2 ≠ version ∧ byteAt blob 2 ≠ versionV1 then .error .ebadmsg
  else if end_ + crcSize ≠ blob.length then .error .ebadmsg
  else if crc (blob.take end_) ≠ le16 (byteAt blob end_) (byteAt blob (end_ + 1)) then
    .error .ebadmsg
  else .ok (byteAt blob 2, (blob.take end_).drop hdrSize)

structure Entry where
  persistId : UInt8
  body : Bytes
deriving DecidableEq, Repr

def entryOverhead (version : UInt8) : ℕ := if version = versionV1 then 3 else 4

def takeEntry (version : UInt8) (rest : Bytes) : Option (Entry × Bytes) :=
  let overhead := entryOverhead version
  let len := (le16 (byteAt rest (overhead - 2)) (byteAt rest (overhead - 1))).toNat
  if rest.length < overhead ∨ rest.length < overhead + len then none
  else some (⟨byteAt rest 0, (rest.drop overhead).take len⟩, rest.drop (overhead + len))

def entriesFrom (version : UInt8) : (fuel : ℕ) → Bytes → List Entry × Bool
  | _, [] => ([], true)
  | 0, _ :: _ => ([], false)
  | fuel + 1, b :: rest =>
    match takeEntry version (b :: rest) with
    | none => ([], false)
    | some (entry, rest) =>
      let r := entriesFrom version fuel rest
      (entry :: r.1, r.2)

def entries (version : UInt8) (payload : Bytes) : List Entry × Bool :=
  entriesFrom version payload.length payload

variable (crc : Bytes → UInt16)

theorem length_takeEntry {version : UInt8} {rest rest' : Bytes} {entry : Entry}
    (h : takeEntry version rest = some (entry, rest')) : rest'.length < rest.length := by
  simp only [takeEntry] at h
  split at h
  · cases h
  · next hlen =>
    have hover : 0 < entryOverhead version := by
      unfold entryOverhead
      split <;> omega
    obtain ⟨-, rfl⟩ := Prod.mk.inj (Option.some.inj h)
    rw [length_drop]
    omega

theorem entriesFrom_of_le {version : UInt8} {fuel : ℕ} {rest : Bytes} (h : rest.length ≤ fuel) :
    entriesFrom version fuel rest = entries version rest := by
  suffices hsucc : ∀ n fuel (rest : Bytes), rest.length ≤ n → rest.length ≤ fuel →
      entriesFrom version fuel rest = entriesFrom version n rest from
    hsucc _ _ _ le_rfl h
  intro n
  induction n with
  | zero =>
    intro fuel rest hn _
    obtain rfl : rest = [] := length_eq_zero_iff.mp (by omega)
    simp [entriesFrom]
  | succ n ih =>
    intro fuel rest hn hf
    cases rest with
    | nil => simp [entriesFrom]
    | cons b rest =>
      obtain ⟨fuel, rfl⟩ : ∃ k, fuel = k + 1 := ⟨fuel - 1, by simp at hf; omega⟩
      simp only [entriesFrom]
      cases htake : takeEntry version (b :: rest) with
      | none => rfl
      | some p =>
        have hlt := length_takeEntry htake
        simp [ih fuel p.2 (by omega) (by omega)]

theorem entries_of_takeEntry {version : UInt8} {payload rest : Bytes} {entry : Entry}
    (h : takeEntry version payload = some (entry, rest)) :
    entries version payload = (entry :: (entries version rest).1, (entries version rest).2) := by
  have hlt := length_takeEntry h
  cases payload with
  | nil => simp at hlt
  | cons b tail =>
    have hle : rest.length ≤ tail.length := by simpa [Nat.lt_succ_iff] using hlt
    show entriesFrom version (tail.length + 1) (b :: tail) = _
    simp only [entriesFrom, h, entriesFrom_of_le hle]

theorem takeEntry_writeEntry (persistId : UInt8) {body : Bytes} (h : body.length < 2 ^ 16)
    (rest : Bytes) :
    takeEntry version (writeEntry persistId body ++ rest) = some (⟨persistId, body⟩, rest) := by
  have hlen : (UInt16.ofNat body.length).toNat = body.length := by
    simpa using Nat.mod_eq_of_lt h
  have hle : le16 (byteAt (writeEntry persistId body ++ rest) 2)
      (byteAt (writeEntry persistId body ++ rest) 3) = UInt16.ofNat body.length :=
    le16_le16Bytes _
  have hover : entryOverhead version = 4 := rfl
  simp only [takeEntry, hover, show 4 - 2 = 2 from rfl, show 4 - 1 = 3 from rfl, hle, hlen]
  rw [if_neg (by simp [writeEntry, le16Bytes]; omega)]
  have hdrop : (writeEntry persistId body ++ rest).drop 4 = body ++ rest := by
    simp [writeEntry, le16Bytes]
  have hdrop' : (writeEntry persistId body ++ rest).drop (4 + body.length) = rest := by
    rw [← drop_drop, hdrop, drop_left]
  rw [hdrop, hdrop', take_left]
  rfl

theorem entries_writeEntry (persistId : UInt8) {body : Bytes} (h : body.length < 2 ^ 16) :
    entries version (writeEntry persistId body) = ([⟨persistId, body⟩], true) := by
  have htake := takeEntry_writeEntry persistId h []
  rw [append_nil] at htake
  rw [entries_of_takeEntry htake]
  rfl

theorem openEnvelope_writeBlob {payload : Bytes} (h : payload.length < 2 ^ 16) :
    openEnvelope crc (writeBlob crc payload) = .ok (version, payload) := by
  have hlen : (UInt16.ofNat payload.length).toNat = payload.length := by
    simpa using Nat.mod_eq_of_lt h
  have hle : le16 (byteAt (writeBlob crc payload) 4) (byteAt (writeBlob crc payload) 5) =
      UInt16.ofNat payload.length := le16_le16Bytes _
  have hpl : (writePayload payload).length = hdrSize + payload.length := by
    simp [writePayload, le16Bytes, hdrSize]
    omega
  have htake : (writeBlob crc payload).take (hdrSize + payload.length) = writePayload payload := by
    rw [writeBlob, ← hpl, take_left]
  have hcrc : le16 (byteAt (writeBlob crc payload) (hdrSize + payload.length))
      (byteAt (writeBlob crc payload) (hdrSize + payload.length + 1)) =
        crc (writePayload payload) := by
    apply le16_of_append
    rw [← hpl, writeBlob, drop_left, append_nil]
  have hbl : (writeBlob crc payload).length = hdrSize + payload.length + crcSize := by
    rw [writeBlob, length_append, hpl]
    rfl
  simp only [openEnvelope, hle, hlen, htake, hcrc, hbl]
  rw [if_neg (by omega), if_neg (by simp [byteAt, writeBlob, writePayload]),
    if_neg (by simp [byteAt, writeBlob, writePayload]), if_neg (by omega), if_neg (by simp)]
  rfl

end NfcStack.Store
