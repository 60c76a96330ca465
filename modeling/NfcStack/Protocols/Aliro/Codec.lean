import NfcStack.Protocols.Aliro.Listener

/-!
# The stored form of an Aliro credential

`aliro_serialize` and `aliro_deserialize` meet at the content of a credential: its fields and a
transcript that fits. The strings that are accepted are the encodings of contents.
-/

namespace NfcStack.Aliro

open List CArray UInt16

variable {cfg : Config}

structure Content (cfg : Config) where
  features : UInt16
  protocolMajor : UInt8
  protocolMinor : UInt8
  credentialPubkey : CArray UInt8 publicKeySize
  transcript : Bytes
  transcript_le : transcript.length ≤ cfg.maxTranscript

def Content.data (c : Content cfg) : Data cfg where
  features := c.features
  protocolMajor := c.protocolMajor
  protocolMinor := c.protocolMinor
  credentialPubkey := c.credentialPubkey
  transcriptLen := UInt16.ofNat c.transcript.length
  transcript := (CArray.fill _ 0).write 0 c.transcript

def Content.encode (c : Content cfg) : Bytes :=
  [formatVersion] ++ le16Bytes c.features ++ [c.protocolMajor, c.protocolMinor] ++
    c.credentialPubkey.toList ++ le16Bytes (UInt16.ofNat c.transcript.length) ++ c.transcript

def Data.content (data : Data cfg) (h : data.transcriptLen.toNat ≤ cfg.maxTranscript) :
    Content cfg where
  features := data.features
  protocolMajor := data.protocolMajor
  protocolMinor := data.protocolMinor
  credentialPubkey := data.credentialPubkey
  transcript := data.transcript.slice 0 data.transcriptLen.toNat
  transcript_le := by
    rw [length_slice _ (by omega)]
    exact h

def Data.trimmed (data : Data cfg) : Data cfg :=
  { data with transcript := data.transcript.keep data.transcriptLen.toNat 0 }

variable (c : Content cfg)

theorem Content.toNat_length : (UInt16.ofNat c.transcript.length).toNat = c.transcript.length := by
  have hrange := cfg.maxTranscript_range
  have hle := c.transcript_le
  rw [toNat_ofNat']
  omega

theorem Content.length_encode : c.encode.length = headerSize + c.transcript.length := by
  simp only [encode, length_append, length_toList]
  rfl

variable {data : Data cfg}

theorem Data.trimmed_eq_self (h : data.transcriptLen.toNat ≤ cfg.maxTranscript)
    (hzero : data.transcript.ConstFrom data.transcriptLen.toNat 0) : data.trimmed = data := by
  rw [Data.trimmed, keep_eq_self h hzero]

variable (data) (h : data.transcriptLen.toNat ≤ cfg.maxTranscript)

theorem Data.length_content : (data.content h).transcript.length = data.transcriptLen.toNat :=
  length_slice _ (by omega)

theorem Data.data_content : (data.content h).data = data.trimmed := by
  rw [Content.data, data.length_content h, UInt16.ofNat_toNat]
  rfl

theorem serialize_eq_encode {outMax : ℕ} (hroom : headerSize + data.transcriptLen.toNat ≤ outMax) :
    serialize data outMax = some (.ok (data.content h).encode) := by
  rw [serialize, if_neg (Nat.not_lt.mpr hroom), read?_of_le _ (by omega), Content.encode,
    data.length_content h, UInt16.ofNat_toNat]
  rfl

variable {data}

theorem Content.serialize_data {outMax : ℕ} (hroom : c.encode.length ≤ outMax) :
    serialize c.data outMax = some (.ok c.encode) := by
  have hle := c.transcript_le
  have hlen : c.data.transcriptLen.toNat = c.transcript.length := c.toNat_length
  rw [c.length_encode] at hroom
  have hslice : c.data.transcript.slice 0 c.transcript.length = c.transcript :=
    slice_write_self _ (by omega)
  rw [serialize_eq_encode c.data (by omega) (by omega)]
  simp only [Data.content, hlen, hslice]
  rfl

theorem Content.deserialize_encode : deserialize c.encode = (c.data, .ok ()) := by
  have hle := c.transcript_le
  have hlength := c.length_encode
  have hlen := c.toNat_length
  -- the offsets of the fields, from the front of the string to the transcript
  have h0 : c.encode.drop 0 = formatVersion :: (le16Bytes c.features ++
      (c.protocolMajor :: c.protocolMinor :: (c.credentialPubkey.toList ++
        (le16Bytes (UInt16.ofNat c.transcript.length) ++ c.transcript)))) := by
    simp [encode]
  generalize c.encode = l at *
  have h1 := drop_of_cons h0
  have h3 := drop_of_append h1 (m := 2) rfl
  have h4 := drop_of_cons h3
  have h5 := drop_of_cons h4
  have h70 : l.drop 70 = le16Bytes (UInt16.ofNat c.transcript.length) ++ c.transcript :=
    drop_of_append h5 (m := publicKeySize) c.credentialPubkey.length_toList
  have h72 : l.drop headerSize = c.transcript := drop_of_append h70 (m := 2) rfl
  have hfeatures : le16 (byteAt l 1) (byteAt l 2) = c.features := le16_of_append h1
  have htlen : le16 (byteAt l 70) (byteAt l 71) = UInt16.ofNat c.transcript.length :=
    le16_of_append h70
  have hhead : ¬ (l.length < headerSize ∨ byteAt l 0 ≠ formatVersion) := by
    rintro (hshort | hversion)
    · omega
    · exact hversion (byteAt_of_cons h0)
  have htail : ¬ (cfg.maxTranscript < (UInt16.ofNat c.transcript.length).toNat ∨
      headerSize + (UInt16.ofNat c.transcript.length).toNat ≠ l.length) := by
    omega
  rw [deserialize, if_neg hhead]
  simp only [htlen, hfeatures, byteAt_of_cons h3, byteAt_of_cons h4, ofList_of_append h5]
  rw [if_neg htail, h72]
  rfl

structure Accepted (cfg : Config) (bytes : Bytes) : Prop where
  version : byteAt bytes 0 = formatVersion
  transcript_le : (le16 (byteAt bytes 70) (byteAt bytes 71)).toNat ≤ cfg.maxTranscript
  length_eq : bytes.length = headerSize + (le16 (byteAt bytes 70) (byteAt bytes 71)).toNat

variable {bytes : Bytes}

theorem accepted_of_deserialize (h : deserialize bytes = (data, .ok ())) : Accepted cfg bytes := by
  by_cases hhead : bytes.length < headerSize ∨ byteAt bytes 0 ≠ formatVersion
  · rw [deserialize, if_pos hhead] at h
    cases h
  rw [deserialize, if_neg hhead] at h
  simp only at h
  split at h
  · cases h
  next htail =>
  push Not at hhead htail
  exact ⟨hhead.2, htail.1, htail.2.symm⟩

theorem Accepted.length_drop (h : Accepted cfg bytes) :
    (bytes.drop headerSize).length = (le16 (byteAt bytes 70) (byteAt bytes 71)).toNat := by
  rw [List.length_drop, h.length_eq, Nat.add_sub_cancel_left]

def Accepted.content {bytes : Bytes} (h : Accepted cfg bytes) : Content cfg where
  features := le16 (byteAt bytes 1) (byteAt bytes 2)
  protocolMajor := byteAt bytes 3
  protocolMinor := byteAt bytes 4
  credentialPubkey := .ofList publicKeySize 0 (bytes.drop 5)
  transcript := bytes.drop headerSize
  transcript_le := by
    rw [h.length_drop]
    exact h.transcript_le

theorem Accepted.eq_encode (h : Accepted cfg bytes) : bytes = h.content.encode := by
  have hlen : 72 ≤ bytes.length := by
    rw [h.length_eq]
    exact Nat.le_add_right _ _
  calc bytes = byteAt bytes 0 :: bytes.drop 1 := drop_eq_cons (k := 0) (by omega)
    _ = formatVersion :: (le16Bytes h.content.features ++ bytes.drop 3) := by
      rw [h.version, drop_eq_le16Bytes_append (by omega)]
      rfl
    _ = formatVersion :: (le16Bytes h.content.features ++
          (h.content.protocolMajor :: h.content.protocolMinor :: bytes.drop 5)) := by
      rw [drop_eq_cons (k := 3) (by omega), drop_eq_cons (k := 4) (by omega)]
      rfl
    _ = formatVersion :: (le16Bytes h.content.features ++
          (h.content.protocolMajor :: h.content.protocolMinor ::
            (h.content.credentialPubkey.toList ++
              (le16Bytes (UInt16.ofNat (bytes.drop headerSize).length) ++
                bytes.drop headerSize)))) := by
      rw [drop_eq_ofList_append (k := 5) (n := publicKeySize) (by rw [publicKeySize]; omega),
        drop_eq_le16Bytes_append (k := 5 + publicKeySize) (by rw [publicKeySize]; omega),
        h.length_drop, UInt16.ofNat_toNat]
      rfl
    _ = h.content.encode := by
      simp only [Content.encode, append_assoc, cons_append, nil_append]
      rfl

theorem exists_content (h : deserialize bytes = (data, .ok ())) :
    ∃ c : Content cfg, bytes = c.encode ∧ data = c.data := by
  have hbytes := (accepted_of_deserialize h).eq_encode
  refine ⟨_, hbytes, ?_⟩
  rw [hbytes, Content.deserialize_encode] at h
  exact (congrArg Prod.fst h).symm

/-- Storing a credential and reading it gives the credential, without what was behind its transcript;
and a string that is accepted is what its credential is stored as. -/
theorem aliroCodec_inverse (cfg : Config) :
    (∀ (data : Data cfg) (outMax : ℕ), data.transcriptLen.toNat ≤ cfg.maxTranscript →
      headerSize + data.transcriptLen.toNat ≤ outMax →
      (∃ bytes, serialize data outMax = some (.ok bytes) ∧
        deserialize bytes = (data.trimmed, .ok ())) ∧
      (data.transcript.ConstFrom data.transcriptLen.toNat 0 → data.trimmed = data)) ∧
    ∀ (bytes : Bytes) (data : Data cfg) (outMax : ℕ), deserialize bytes = (data, .ok ()) →
      bytes.length ≤ outMax → serialize data outMax = some (.ok bytes) := by
  constructor
  · intro data outMax hlen hroom
    refine ⟨⟨(data.content hlen).encode, serialize_eq_encode data hlen hroom, ?_⟩,
      Data.trimmed_eq_self hlen⟩
    rw [Content.deserialize_encode, data.data_content hlen]
  · intro bytes data outMax h hroom
    obtain ⟨c, rfl, rfl⟩ := exists_content h
    exact c.serialize_data hroom

def twoByteCredential : Data .default :=
  { (Data.reset : Data .default) with
    protocolMajor := 1
    transcriptLen := 2
    transcript := (CArray.fill _ 0).write 0 [0xAA, 0xBB] }

theorem aliroCodec_inverse_twoByteCredential :
    (∃ bytes, serialize twoByteCredential 74 = some (.ok bytes) ∧
      deserialize bytes = (twoByteCredential.trimmed, .ok ())) ∧
    serialize (Data.reset : Data .default) 72 = some (.ok ([0x01] ++ List.replicate 71 0)) :=
  ⟨((aliroCodec_inverse .default).1 twoByteCredential 74 (by decide) (by decide)).1,
    (aliroCodec_inverse .default).2 _ .reset 72 (by decide +kernel) (by decide)⟩

end NfcStack.Aliro
