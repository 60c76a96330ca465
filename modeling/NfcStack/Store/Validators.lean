import NfcStack.Store.Store

/-!
# The two checks of an envelope

`store/nfc_store.c` checks a blob that is imported in the buffer of the caller, and one that is loaded
in `s_staging_buf`, behind which an older and longer blob may still be.
-/

namespace NfcStack.Store

open List CArray

variable {cfg : Config} (crc : Bytes → UInt16)

def validateBlobBuf : Option Bytes → Except Errno (UInt16 × UInt8)
  | none => .error .einval
  | some blob =>
    if blob.length < hdrSize + crcSize then .error .ebadmsg
    else if byteAt blob 0 ≠ 0x4E ∨ byteAt blob 1 ≠ 0x46 then .error .ebadmsg
    else if byteAt blob 2 ≠ version ∧ byteAt blob 2 ≠ versionV1 then .error .ebadmsg
    else
      let payloadLen := le16 (byteAt blob 4) (byteAt blob 5)
      let stop := hdrSize + payloadLen.toNat
      if stop + crcSize ≠ blob.length then .error .ebadmsg
      else if crc (blob.take stop) ≠ le16 (byteAt blob stop) (byteAt blob (stop + 1)) then
        .error .ebadmsg
      else .ok (payloadLen, byteAt blob 2)

/-- `nfc_store_read_envelope`: the length of the blob and of the payload, and the version. The load
callback fills the staging buffer from its start on. -/
def readEnvelopeBuf (loadCb : Option (TagName → Except Errno Bytes))
    (tag : TagName) (staging : CArray UInt8 cfg.blobSize) : Except Errno (ℕ × UInt16 × UInt8) :=
  match loadCb with
  | none => .error .enodev
  | some loadCb =>
    match loadCb tag with
    | .error .enoent => .error .enoent
    | .error _ => .error .eio
    | .ok blob =>
      let buf := (staging.write 0 blob).toList
      let blobLen := blob.length
      if blobLen < hdrSize + crcSize then .error .ebadmsg
      else if byteAt buf 0 ≠ 0x4E ∨ byteAt buf 1 ≠ 0x46 then .error .ebadmsg
      else if byteAt buf 2 ≠ version ∧ byteAt buf 2 ≠ versionV1 then .error .ebadmsg
      else
        let payloadLen := le16 (byteAt buf 4) (byteAt buf 5)
        let stop := hdrSize + payloadLen.toNat
        if stop + crcSize ≠ blobLen then .error .ebadmsg
        else if crc (buf.take stop) ≠ le16 (byteAt buf stop) (byteAt buf (stop + 1)) then
          .error .ebadmsg
        else .ok (blobLen, payloadLen, byteAt buf 2)

theorem validateBlobBuf_eq (blob : Bytes) :
    validateBlobBuf crc (some blob) =
      (openEnvelope crc blob).map fun r => (UInt16.ofNat r.2.length, r.1) := by
  simp only [validateBlobBuf, openEnvelope]
  split_ifs with hshort hmagic hversion hlen hcrc
  case neg =>
    simp only [Except.map, length_drop, length_take]
    rw [show min (hdrSize + (le16 (byteAt blob 4) (byteAt blob 5)).toNat) blob.length - hdrSize =
      (le16 (byteAt blob 4) (byteAt blob 5)).toNat by omega, UInt16.ofNat_toNat]
  all_goals rfl

/-- A blob that fits into the staging buffer is accepted for import exactly if it is accepted when the
backend returns it for a load, with the same payload length and version. -/
theorem validators_agree (crc : Bytes → UInt16) {blob : Bytes} (hfits : blob.length ≤ cfg.blobSize)
    {loadCb : TagName → Except Errno Bytes} {tag : TagName} (hload : loadCb tag = .ok blob)
    (staging : CArray UInt8 cfg.blobSize) (payloadLen : UInt16) (version : UInt8) :
    validateBlobBuf crc (some blob) = .ok (payloadLen, version) ↔
      readEnvelopeBuf crc (some loadCb) tag staging = .ok (blob.length, payloadLen, version) := by
  have hread : readEnvelopeBuf crc (some loadCb) tag staging =
      (validateBlobBuf crc (some blob)).map fun r => (blob.length, r) := by
    have hbyte : ∀ i < blob.length, byteAt (staging.write 0 blob).toList i = byteAt blob i := by
      intro i hi
      rw [byteAt_write _ (by omega), if_pos (by omega), Nat.sub_zero]
    simp only [readEnvelopeBuf, hload, validateBlobBuf]
    by_cases hshort : blob.length < hdrSize + crcSize
    · simp only [if_pos hshort, Except.map]
    have h8 : 8 ≤ blob.length := Nat.not_lt.mp hshort
    simp only [if_neg hshort, hbyte 0 (by omega), hbyte 1 (by omega), hbyte 2 (by omega),
      hbyte 4 (by omega), hbyte 5 (by omega)]
    generalize hstop : hdrSize + (le16 (byteAt blob 4) (byteAt blob 5)).toNat = stop
    by_cases hlen : stop + crcSize = blob.length
    · -- what the checksum is about and the checksum lie in front of what the buffer held before
      simp only [crcSize] at hlen
      rw [hbyte stop (by omega), hbyte (stop + 1) (by omega), toList_write _ (by omega),
        take_zero, nil_append, take_append_of_le_length (by omega)]
      split_ifs <;> rfl
    · split_ifs <;> rfl
  rw [hread]
  cases validateBlobBuf crc (some blob) with
  | error e => exact ⟨nofun, nofun⟩
  | ok r => simp [Except.map]

theorem validators_agree_message :
    validateBlobBuf crc16Ccitt (some (writeBlob crc16Ccitt (writeEntry 0x01 [0xD0]))) =
        .ok (5, version) ∧
      @readEnvelopeBuf .default crc16Ccitt
        (some fun _ => .ok (writeBlob crc16Ccitt (writeEntry 0x01 [0xD0]))) [0x61] (.fill _ 0xFF) =
          .ok (13, 5, version) := by
  have hvalid : validateBlobBuf crc16Ccitt (some (writeBlob crc16Ccitt (writeEntry 0x01 [0xD0]))) =
      .ok (5, version) := by decide +kernel
  exact ⟨hvalid, (validators_agree crc16Ccitt (by decide) rfl _ _ _).mp hvalid⟩

end NfcStack.Store
