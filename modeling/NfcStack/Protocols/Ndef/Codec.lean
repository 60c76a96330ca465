import NfcStack.Protocols.Ndef.Capture

/-!
# The stored form of an NDEF card

`ndef_serialize` and `ndef_deserialize` are inverse to each other. A string that is accepted has a
version, a capability container, a length field and exactly the message that the field announces.
-/

namespace NfcStack.Ndef

open List CArray UInt16

variable {cfg : Config}

def Data.trimmed (data : Data cfg) : Data cfg :=
  { data with ndefFile := data.ndefFile.keep data.ndefFileLen.toNat 0 }

def WellFormed (cfg : Config) (bytes : Bytes) : Prop :=
  ∃ (cc : CArray UInt8 ccSize) (message : Bytes), message.length ≤ cfg.maxSize ∧
    bytes = [formatVersion] ++ cc.toList ++
      ((le16Bytes (UInt16.ofNat message.length)).reverse ++ message)

variable {data : Data cfg}

theorem Data.Captured.ndefFileLen_le (h : data.Captured) :
    data.ndefFileLen.toNat ≤ cfg.fileSize := by
  have hnlen := h.nlen_le
  rw [h.toNat_ndefFileLen, Config.fileSize, nlenFieldLen]
  omega

theorem Data.trimmed_eq_self (hlen : data.ndefFileLen.toNat ≤ cfg.fileSize)
    (h : data.ndefFile.ConstFrom data.ndefFileLen.toNat 0) : data.trimmed = data := by
  rw [Data.trimmed, keep_eq_self hlen h]

variable (h : data.Captured)

include h

theorem Data.Captured.serialize_eq {outMax : ℕ}
    (hroom : 1 + ccSize + data.ndefFileLen.toNat ≤ outMax) :
    serialize data outMax = .ok ([formatVersion] ++ data.cc.toList ++
      data.ndefFile.slice 0 data.ndefFileLen.toNat) := by
  have hlens : ¬ (data.ccLen.toNat ≠ ccSize ∨ cfg.fileSize < data.ndefFileLen.toNat) := by
    rintro (hcc | hlong)
    · exact hcc h.ccLen
    · exact absurd h.ndefFileLen_le (Nat.not_le.mpr hlong)
  rw [serialize, if_neg hlens, if_neg (Nat.not_lt.mpr hroom)]

theorem Data.Captured.ofContent_eq :
    Data.ofContent cfg data.cc (data.ndefFile.slice 0 data.ndefFileLen.toNat) = data.trimmed := by
  have hlen : (data.ndefFile.slice 0 data.ndefFileLen.toNat).length = data.ndefFileLen.toNat :=
    length_slice _ (by have := h.ndefFileLen_le; omega)
  have hcc : UInt16.ofNat ccSize = data.ccLen := by
    rw [← h.ccLen, UInt16.ofNat_toNat]
  rw [Data.ofContent, hlen, UInt16.ofNat_toNat, hcc]
  rfl

theorem nlenFromFile_trimmed : nlenFromFile data.trimmed = .ok () := by
  have hlen := h.toNat_ndefFileLen
  have hnlen : data.trimmed.nlen = data.nlen :=
    nlen_congr (show 2 ≤ data.ndefFileLen.toNat by omega)
      (slice_keep data.ndefFile h.ndefFileLen_le 0)
  have hfield : data.trimmed.ndefFileLen = data.ndefFileLen := rfl
  refine if_neg ?_
  rw [hnlen, hfield, ← h.ndefFileLen, nlenFieldLen]
  rintro (hshort | hlong | hne)
  · omega
  · exact absurd h.nlen_le (Nat.not_le.mpr hlong)
  · exact hne rfl

theorem Data.Captured.deserialize_stored (x : Data cfg) :
    deserialize x ([formatVersion] ++ data.cc.toList ++
      data.ndefFile.slice 0 data.ndefFileLen.toNat) = (data.trimmed, .ok ()) := by
  have hfile := h.ndefFileLen_le
  have htwo := h.toNat_ndefFileLen
  have hlen : (data.ndefFile.slice 0 data.ndefFileLen.toNat).length = data.ndefFileLen.toNat :=
    length_slice _ (by omega)
  rw [deserialize_content x data.cc (by omega) (by omega), h.ofContent_eq, nlenFromFile_trimmed h]

omit h

variable {bytes : Bytes}

theorem eq_content (hlen : 1 + ccSize + nlenFieldLen ≤ bytes.length)
    (hversion : byteAt bytes 0 = formatVersion) :
    bytes = [formatVersion] ++ (CArray.ofList ccSize 0 (bytes.drop 1)).toList ++
      bytes.drop (1 + ccSize) := by
  calc bytes = byteAt bytes 0 :: bytes.drop 1 := drop_eq_cons (k := 0) (by omega)
    _ = [formatVersion] ++ ((CArray.ofList ccSize 0 (bytes.drop 1)).toList ++
          bytes.drop (1 + ccSize)) := by
      rw [← drop_eq_ofList_append (by omega), hversion]
      rfl

variable {file : Bytes} (cc : CArray UInt8 ccSize) (hpos : 2 ≤ file.length)

include hpos

theorem nlen_ofContent (hle : file.length ≤ cfg.fileSize) :
    (Data.ofContent cfg cc file).nlen = be16 (byteAt file 0) (byteAt file 1) := by
  have hfit : 0 + file.length ≤ cfg.fileSize := by omega
  show be16 (byteAt ((Data.reset : Data cfg).ndefFile.write 0 file).toList 0)
    (byteAt ((Data.reset : Data cfg).ndefFile.write 0 file).toList 1) = _
  rw [byteAt_write _ hfit, byteAt_write _ hfit, if_pos (by omega), if_pos (by omega)]

theorem nlenFromFile_ofContent (hle : file.length ≤ cfg.fileSize) :
    nlenFromFile (Data.ofContent cfg cc file) = .ok () ↔
      file.length = 2 + (be16 (byteAt file 0) (byteAt file 1)).toNat := by
  have hrange := cfg.maxSize_range
  have hsize : cfg.fileSize = 2 + cfg.maxSize := rfl
  have hlen : (UInt16.ofNat file.length).toNat = file.length := by
    rw [toNat_ofNat']
    omega
  have hfield : (Data.ofContent cfg cc file).ndefFileLen = UInt16.ofNat file.length := rfl
  rw [nlenFromFile, nlen_ofContent cc hpos hle, hfield]
  generalize be16 (byteAt file 0) (byteAt file 1) = nlen
  have hsum : cfg.maxSize < nlen.toNat ∨ (2 + nlen).toNat = 2 + nlen.toNat :=
    (lt_or_ge cfg.maxSize nlen.toNat).imp_right toNat_two_add
  constructor
  · intro h
    split at h
    · cases h
    next hc =>
    push Not at hc
    have heq := congrArg UInt16.toNat hc.2.2
    omega
  · intro h
    refine if_neg ?_
    rintro (hshort | hlong | hne)
    · rw [nlenFieldLen] at hshort
      omega
    · omega
    · apply hne
      apply UInt16.toNat_inj.mp
      omega

theorem file_eq (h : file.length = 2 + (be16 (byteAt file 0) (byteAt file 1)).toNat) :
    file = (le16Bytes (UInt16.ofNat (file.drop 2).length)).reverse ++ file.drop 2 := by
  have hfield : UInt16.ofNat (file.drop 2).length = be16 (byteAt file 0) (byteAt file 1) := by
    rw [length_drop, h, Nat.add_sub_cancel_left, UInt16.ofNat_toNat]
  rw [hfield, be16_eq_le16, le16Bytes_le16]
  calc file = byteAt file 0 :: file.drop 1 := drop_eq_cons (k := 0) (by omega)
    _ = _ := by rw [drop_eq_cons (k := 1) (by omega)]; rfl

theorem wellFormed_content (hle : file.length ≤ cfg.fileSize)
    (h : file.length = 2 + (be16 (byteAt file 0) (byteAt file 1)).toNat) :
    WellFormed cfg ([formatVersion] ++ cc.toList ++ file) := by
  have hsize : cfg.fileSize = 2 + cfg.maxSize := rfl
  refine ⟨cc, file.drop 2, ?_, ?_⟩
  · rw [length_drop]
    omega
  · rw [← file_eq hpos h]

omit hpos

theorem announced {message : Bytes} (h : message.length ≤ cfg.maxSize)
    (hfile : file = (le16Bytes (UInt16.ofNat message.length)).reverse ++ message) :
    2 ≤ file.length ∧ file.length ≤ cfg.fileSize ∧
      file.length = 2 + (be16 (byteAt file 0) (byteAt file 1)).toNat := by
  have hrange := cfg.maxSize_range
  have hsize : cfg.fileSize = 2 + cfg.maxSize := rfl
  have hlen : file.length = 2 + message.length := by
    rw [hfile, length_append]
    rfl
  have hfield : be16 (byteAt file 0) (byteAt file 1) = UInt16.ofNat message.length := by
    rw [hfile, be16_eq_le16]
    exact le16_le16Bytes _
  rw [hfield, toNat_ofNat']
  omega

theorem deserialize_ok_iff (hlen : bytes.length ≤ 65535) (x : Data cfg) :
    (deserialize x bytes).2 = .ok () ↔ WellFormed cfg bytes := by
  constructor
  · intro h
    by_cases hhead : bytes.length < 1 + ccSize + nlenFieldLen ∨ byteAt bytes 0 ≠ formatVersion
    · rw [deserialize, if_pos hhead] at h
      cases h
    push Not at hhead
    have hcontent := eq_content hhead.1 hhead.2
    have hfile : (bytes.drop (1 + ccSize)).length = bytes.length - 1 - ccSize := by
      rw [length_drop, Nat.sub_sub]
    have hpos : 2 ≤ (bytes.drop (1 + ccSize)).length := by
      have := hhead.1
      rw [nlenFieldLen] at this
      omega
    by_cases hlong : cfg.fileSize < (bytes.drop (1 + ccSize)).length
    · -- the file is too long, also in 16 bits
      have hfield : (UInt16.ofNat (bytes.length - 1 - ccSize)).toNat =
          (bytes.drop (1 + ccSize)).length := by
        rw [toNat_ofNat']
        omega
      rw [deserialize, if_neg (by push Not; exact hhead), if_pos (hfield ▸ hlong)] at h
      cases h
    · rw [hcontent, deserialize_content x _ hpos (Nat.not_lt.mp hlong)] at h
      rw [hcontent]
      exact wellFormed_content _ hpos (Nat.not_lt.mp hlong)
        ((nlenFromFile_ofContent _ hpos (Nat.not_lt.mp hlong)).mp h)
  · rintro ⟨cc, message, hmax, rfl⟩
    obtain ⟨hpos, hle, hfield⟩ := announced hmax rfl
    rw [deserialize_content x cc hpos hle]
    exact (nlenFromFile_ofContent cc hpos hle).mpr hfield

theorem serialize_of_deserialize (hlen : bytes.length ≤ 65535) {x : Data cfg}
    (h : deserialize x bytes = (data, .ok ())) {outMax : ℕ} (hroom : bytes.length ≤ outMax) :
    serialize data outMax = .ok bytes := by
  obtain ⟨cc, message, hmax, rfl⟩ := (deserialize_ok_iff hlen x).mp (congrArg Prod.snd h)
  obtain ⟨hpos, hle, hfield⟩ := announced hmax rfl
  generalize hfile : (le16Bytes (UInt16.ofNat message.length)).reverse ++ message = file at *
  have hcaptured := captured_of_deserialize h
  rw [deserialize_content x cc hpos hle] at h
  obtain ⟨rfl, -⟩ := Prod.mk.inj h
  have hlength : (Data.ofContent cfg cc file).ndefFileLen.toNat = file.length := by
    show (UInt16.ofNat file.length).toNat = file.length
    rw [toNat_ofNat']
    simp only [length_append] at hlen
    omega
  have hslice : (Data.ofContent cfg cc file).ndefFile.slice 0 file.length = file :=
    slice_write_self _ (by omega)
  rw [hcaptured.serialize_eq]
  · rw [hlength, hslice]
    rfl
  · rw [hlength]
    simp only [length_append, length_cons, length_nil, cc.length_toList] at hroom
    omega

/-- Storing a complete card and reading it gives the card, without what was behind its file, over any
card that was held before; and of the strings of at most 65535 bytes those are accepted that are
well formed, and each is what its card is stored as. -/
theorem ndefCodec_inverse (cfg : Config) :
    (∀ (data x : Data cfg) (outMax : ℕ), data.Captured →
      1 + ccSize + data.ndefFileLen.toNat ≤ outMax →
      (∃ bytes, serialize data outMax = .ok bytes ∧ deserialize x bytes = (data.trimmed, .ok ())) ∧
      (data.ndefFile.ConstFrom data.ndefFileLen.toNat 0 → data.trimmed = data)) ∧
    ∀ (bytes : Bytes) (x : Data cfg), bytes.length ≤ 65535 →
      ((deserialize x bytes).2 = .ok () ↔ WellFormed cfg bytes) ∧
      ∀ data outMax, deserialize x bytes = (data, .ok ()) → bytes.length ≤ outMax →
        serialize data outMax = .ok bytes := by
  constructor
  · intro data x outMax h hroom
    exact ⟨⟨_, h.serialize_eq hroom, h.deserialize_stored x⟩, Data.trimmed_eq_self h.ndefFileLen_le⟩
  · intro bytes x hlen
    refine ⟨deserialize_ok_iff hlen x, ?_⟩
    intro data outMax h hroom
    exact serialize_of_deserialize hlen h hroom

def oneByteCard : Data .default := .ofContent .default (.fill _ 0) [0x00, 0x01, 0xD0]

theorem captured_oneByteCard : oneByteCard.Captured := by
  have hnlen : oneByteCard.nlen = 1 := nlen_ofContent _ (by decide) (by decide)
  refine ⟨rfl, ?_, ?_⟩
  · rw [hnlen]
    decide
  · rw [hnlen]
    rfl

theorem ndefCodec_inverse_oneByteCard : (∃ bytes, serialize oneByteCard 19 = .ok bytes ∧
      deserialize .reset bytes = (oneByteCard.trimmed, .ok ())) ∧
    WellFormed .default ([0x01] ++ List.replicate 15 0 ++ [0x00, 0x01, 0xD0]) :=
  ⟨((ndefCodec_inverse .default).1 oneByteCard .reset 19 captured_oneByteCard (by decide)).1,
    (((ndefCodec_inverse .default).2 _ .reset (by decide)).1).mp (by decide +kernel)⟩

end NfcStack.Ndef
