import NfcStack.Protocols.Iso15693.Capture
import NfcStack.Protocols.Slix.Listener

/-!
# The stored form of a SLIX card

`slix_serialize` puts a tail of fixed size behind the ISO15693-3 card, and `slix_deserialize` finds it by
the sizes that were read there.
-/

namespace NfcStack.Slix

open List

def Capabilities.code : Capabilities → UInt8
  | .default => 0
  | .acceptAll => 1
  | .missed => 2
  | .other code _ => code

theorem Capabilities.ofCode_code (c : Capabilities) : ofCode c.code = c := by
  cases c with
  | default | acceptAll | missed => rfl
  | other b unnamed => simp [code, ofCode, unnamed]

variable (data : Data)

def Data.passwordBytes : Bytes :=
  [PasswordType.read, .write, .privacy, .easAfi, .destroy].flatMap fun type =>
    (data.passwords type).toList

def Data.tail : Bytes :=
  [0x53, 0x4C, 0x01, data.capabilities.code] ++ data.passwordBytes ++ data.signature.toList ++
    [data.privacyMode, data.protectionPointer, data.protectionCondition, data.lockEas, data.lockPpl]

def Data.serialize (outMax : ℕ) : Except Errno Bytes :=
  match data.parent.serialize outMax with
  | .error e => .error e
  | .ok parent =>
    if outMax - parent.length < extTailSize then .error .enospc else .ok (parent ++ data.tail)

def Data.storedSize : ℕ :=
  17 + data.parent.dataLen + data.parent.blockCount.toNat + extTailSize

theorem Data.serialize_eq {data : Data} (hv : data.parent.Valid) {outMax : ℕ}
    (hroom : data.storedSize ≤ outMax) :
    data.serialize outMax = .ok (data.parent.encode ++ data.tail) := by
  rw [storedSize] at hroom
  rw [serialize, Iso15693.Data.serialize_eq hv (by omega)]
  simp only [hv.length_encode]
  rw [if_neg (by omega)]

def Data.trimmed : Data := { data with parent := data.parent.trimmed }

theorem Data.length_tail : data.tail.length = extTailSize := by
  simp only [Data.tail, Data.passwordBytes, flatMap_cons, flatMap_nil, length_append,
    CArray.length_toList]
  rfl

theorem Data.deserialize_of_tail {data : Data} {bytes : Bytes}
    (hparent : Iso15693.Data.deserialize bytes = (data.parent.trimmed, .ok ()))
    (htail : bytes.drop (17 + data.parent.dataLen + data.parent.blockCount.toNat) = data.tail)
    (htype : data.type = typeFromUid data.parent.uid) :
    Data.deserialize bytes = (data.trimmed, .ok ()) := by
  obtain ⟨tail, hdef⟩ : ∃ tail, tail = data.tail := ⟨_, rfl⟩
  -- the offsets of the fields of the tail, from the magic bytes to the locks
  have h0 : tail.drop 0 = data.tail := hdef
  simp only [Data.tail, Data.passwordBytes, flatMap_cons, flatMap_nil, append_nil,
    append_assoc, cons_append, nil_append] at h0
  have h1 := drop_of_cons h0
  have h2 := drop_of_cons h1
  have h3 := drop_of_cons h2
  have h4 := drop_of_cons h3
  have h8 := drop_of_append h4 (m := 4) (data.passwords .read).length_toList
  have h12 := drop_of_append h8 (m := 4) (data.passwords .write).length_toList
  have h16 := drop_of_append h12 (m := 4) (data.passwords .privacy).length_toList
  have h20 := drop_of_append h16 (m := 4) (data.passwords .easAfi).length_toList
  have h24 := drop_of_append h20 (m := 4) (data.passwords .destroy).length_toList
  have h56 := drop_of_append h24 (m := 32) data.signature.length_toList
  have h57 := drop_of_cons h56
  have h58 := drop_of_cons h57
  have h59 := drop_of_cons h58
  have h60 := drop_of_cons h59
  have hpasswords : (fun type : PasswordType =>
      CArray.ofList passwordSize 0 (tail.drop (4 + type.index * passwordSize))) =
        data.passwords := by
    funext type
    cases type
    · exact ofList_of_append h4
    · exact ofList_of_append h8
    · exact ofList_of_append h12
    · exact ofList_of_append h16
    · exact ofList_of_append h20
  have hlen : tail.length = extTailSize := by
    rw [hdef, Data.length_tail]
  have haccept : ¬ (tail.length < extTailSize ∨ byteAt tail 0 ≠ 0x53 ∨ byteAt tail 1 ≠ 0x4C ∨
      byteAt tail 2 ≠ 0x01) := by
    rw [hlen, byteAt_of_cons h0, byteAt_of_cons h1, byteAt_of_cons h2]
    simp
  rw [← hdef] at htail
  rw [Data.deserialize, hparent]
  rw [show bytes.drop (17 + data.parent.trimmed.dataLen + data.parent.trimmed.blockCount.toNat) =
    tail from htail, if_neg haccept]
  simp only [hpasswords, ofList_of_append h24, byteAt_of_cons h3, byteAt_of_cons h56,
    byteAt_of_cons h57, byteAt_of_cons h58, byteAt_of_cons h59, byteAt_of_cons h60,
    Capabilities.ofCode_code]
  rw [show typeFromUid data.parent.trimmed.uid = data.type from htype.symm]
  rfl

/-- A card with a type that fits its identifier and a valid ISO15693-3 part is read back from its
stored form. Only what is behind the blocks in their arrays is not stored. -/
theorem slixCodec_roundTrip {data : Data} (htype : data.type = typeFromUid data.parent.uid)
    (hv : data.parent.Valid) {outMax : ℕ} (hroom : data.storedSize ≤ outMax) :
    (∃ bytes, data.serialize outMax = .ok bytes ∧ bytes.length = data.storedSize ∧
      Data.deserialize bytes = (data.trimmed, .ok ())) ∧
    (data.parent.Trimmed → data.trimmed = data) := by
  constructor
  · refine ⟨_, Data.serialize_eq hv hroom, ?_, ?_⟩
    · rw [length_append, hv.length_encode, Data.length_tail, Data.storedSize]
    · refine Data.deserialize_of_tail (Iso15693.Data.deserialize_encode_append hv _) ?_ htype
      exact drop_left' hv.length_encode
  · intro htrimmed
    rw [Data.trimmed, htrimmed.trimmed_eq_self hv]

def twoBlockCard : Data :=
  { Data.reset with
    parent := { Iso15693.Data.reset with
      uid := .ofList _ 0 [0xE0, 0x04, 0x02]
      blockCount := 2
      blockSize := 4
      blockData := (CArray.fill _ 0).write 0 [1, 2, 3, 4, 5, 6, 7, 8]
      blockSecurity := (CArray.fill _ 0).write 0 [1, 1] }
    type := .slixS
    passwords := fun type => .fill _ (UInt8.ofNat type.index)
    lockEas := 1 }

theorem slixCodec_roundTrip_twoBlockCard :
    ∃ bytes, twoBlockCard.serialize 88 = .ok bytes ∧ bytes.length = 88 ∧
      Data.deserialize bytes = (twoBlockCard.trimmed, .ok ()) :=
  (slixCodec_roundTrip (by decide) (by decide) (by decide)).1

end NfcStack.Slix
