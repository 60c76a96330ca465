import NfcStack.Protocols.Ndef.Codec
import NfcStack.Protocols.Ndef.Persist

/-!
# The message of a card and its stored form

What a reader writes is seen in the stored form of the card exactly if it changes the length field or the
message that the field announces.
-/

namespace NfcStack.Ndef

open List CArray

variable {cfg : Config}

def Data.message (data : Data cfg) : Bytes := data.ndefFile.slice 0 (nlenFieldLen + data.nlen.toNat)

theorem nlen_of_slice {a b : Data cfg} {j k : ℕ} (hj : 2 ≤ j) (hk : 2 ≤ k)
    (h : a.ndefFile.slice 0 j = b.ndefFile.slice 0 k) : a.nlen = b.nlen := by
  refine nlen_congr le_rfl ?_
  have ha : a.ndefFile.slice 0 2 = (a.ndefFile.slice 0 j).take 2 :=
    (slice_slice (i := 0) a.ndefFile (by omega)).symm
  have hb : b.ndefFile.slice 0 2 = (b.ndefFile.slice 0 k).take 2 :=
    (slice_slice (i := 0) b.ndefFile (by omega)).symm
  rw [ha, hb, h]

variable {data : Data cfg}

theorem Data.Captured.message_eq (h : data.Captured) :
    data.message = data.ndefFile.slice 0 data.ndefFileLen.toNat := by
  rw [Data.message, h.toNat_ndefFileLen, nlenFieldLen]

theorem Data.Captured.message_padNdefFile (h : data.Captured) :
    (padNdefFile data).message = data.message := by
  rw [Data.message, h.nlen_padNdefFile]
  refine slice_write_of_disjoint _ h.pad_fits (.inl ?_)
  rw [h.toNat_ndefFileLen, nlenFieldLen]
  omega

variable {outMax : ℕ} {body : Bytes}

theorem serialize_ok (h : serialize data outMax = .ok body) :
    data.ndefFileLen.toNat ≤ cfg.fileSize ∧
      body = [formatVersion] ++ data.cc.toList ++ data.ndefFile.slice 0 data.ndefFileLen.toNat := by
  unfold serialize at h
  split at h
  · cases h
  next hlens =>
  split at h
  · cases h
  · push Not at hlens
    exact ⟨hlens.2, (Except.ok.inj h).symm⟩

def hasContainer (body : Bytes) : Bool := ((body.drop 1).take ccSize).any (· != 0)

theorem hasContainer_content (cc : CArray UInt8 ccSize) (file : Bytes) :
    hasContainer ([formatVersion] ++ cc.toList ++ file) = cc.toList.any (· != 0) := by
  have htake : (([formatVersion] ++ cc.toList ++ file).drop 1).take ccSize = cc.toList := by
    simp [take_left']
  rw [hasContainer, htake]

theorem content_inj {cc cc' : CArray UInt8 ccSize} {file file' : Bytes}
    (h : [formatVersion] ++ cc.toList ++ file = [formatVersion] ++ cc'.toList ++ file') :
    cc = cc' ∧ file = file' := by
  obtain ⟨hhead, hfile⟩ := append_inj h (by simp)
  exact ⟨CArray.ext (append_cancel_left hhead), hfile⟩

theorem any_buildCc (cfg : Config) (writable : Bool) :
    (buildCc cfg writable).toList.any (· != 0) = true := by
  rw [buildCc, toList_ofList_of_le _ (by simp [ccSize])]
  simp [ccSize]

theorem cc_withCc (writable : Bool) (data : Data cfg) :
    (data.withCc writable).cc =
      if data.cc.toList.any (· != 0) then data.cc else buildCc cfg writable := by
  have hzero : ccIsZeroPlaceholder data = !data.cc.toList.any (· != 0) := by
    rw [ccIsZeroPlaceholder, all_eq_not_any_not]
    rfl
  rw [Data.withCc, hzero]
  cases data.cc.toList.any (· != 0) <;> rfl

structure State.Holds (st : State cfg) (body : Bytes) : Prop where
  nlen_le : st.model.nlen.toNat ≤ cfg.maxSize
  fileLen : 2 ≤ st.model.ndefFileLen.toNat
  container : st.model.cc.toList.any (· != 0) = true
  body_eq : ∃ cc : CArray UInt8 ccSize, body = [formatVersion] ++ cc.toList ++ st.model.message ∧
    (cc.toList.any (· != 0) = true → cc = st.model.cc)

variable {st x : State cfg}

theorem holds_of_deserialize (hlen : body.length ≤ 65535)
    (h : listenerDeserialize x body = (st, .ok ())) : st.Holds body := by
  obtain ⟨hok, rfl⟩ := listenerDeserialize_ok h
  obtain ⟨data, hdata⟩ : ∃ data, deserialize x.model body = (data, .ok ()) := ⟨_, Prod.ext rfl hok⟩
  have hcaptured := captured_of_deserialize hdata
  have hwith := hcaptured.withCc x.writable
  have hbody := (serialize_ok (serialize_of_deserialize hlen hdata (le_refl body.length))).2
  rw [← hcaptured.message_eq] at hbody
  have hmodel : adoptModel x.writable (deserialize x.model body).1 =
      padNdefFile (data.withCc x.writable) := by
    rw [hdata, adoptModel_eq]
  have hfile : (data.withCc x.writable).message = data.message := by
    unfold Data.withCc
    split <;> rfl
  simp only [hmodel]
  refine ⟨?_, ?_, ?_, data.cc, ?_, ?_⟩
  · rw [hwith.nlen_padNdefFile]
    exact hwith.nlen_le
  · have hsize : cfg.fileSize = 2 + cfg.maxSize := rfl
    have hrange := cfg.maxSize_range
    show 2 ≤ (UInt16.ofNat cfg.fileSize).toNat
    rw [UInt16.toNat_ofNat']
    omega
  · show (data.withCc x.writable).cc.toList.any (· != 0) = true
    rw [cc_withCc]
    split
    · assumption
    · exact any_buildCc cfg x.writable
  · rw [hwith.message_padNdefFile, hfile]
    exact hbody
  · intro hcc
    show data.cc = (data.withCc x.writable).cc
    rw [cc_withCc, if_pos hcc]

def Data.update (data : Data cfg) (apdu : Apdu) : Data cfg :=
  { data with ndefFile := data.ndefFile.write (binaryOffset apdu) apdu.data }

theorem onApdu_dirty {apdu : Apdu} (h : (onApdu st apdu).2.2 = true) :
    (onApdu st apdu).1 = { st with model := st.model.update apdu } := by
  unfold onApdu at h ⊢
  split at h
  · cases h
  next hcla =>
  split at h
  · cases h
  next hselect =>
  split at h
  · cases h
  next hread =>
  split at h
  next hupdate =>
    rw [if_neg hcla, if_neg hselect, if_neg hread, if_pos hupdate]
    unfold handleUpdateBinary at h ⊢
    simp only at h ⊢
    split at h
    · cases h
    next hnone =>
    split at h
    · cases h
    next hro =>
    split at h
    · cases h
    next hlen =>
    rw [if_neg hnone, if_neg hro, if_neg hlen]
    rfl
  · cases h

theorem syncFileLen_syncFileLen (data : Data cfg) :
    syncFileLen (syncFileLen data) = syncFileLen data := by
  unfold syncFileLen
  split
  · next h => exact if_pos h
  · rfl

theorem two_le_syncFileLen (h : 2 ≤ data.ndefFileLen.toNat) :
    2 ≤ (syncFileLen data).ndefFileLen.toNat := by
  unfold syncFileLen
  split
  · next hnlen =>
    rw [toNat_two_add hnlen]
    exact Nat.le_add_right 2 _
  · exact h

variable {st' : State cfg}

theorem listenerSerialize_again {r : Except Errno Bytes}
    (h : listenerSerialize st outMax = (st', r)) : (listenerSerialize st' outMax).2 = r := by
  unfold listenerSerialize at h ⊢
  split at h
  · cases h
    rw [if_pos (by assumption)]
  · next hinit =>
    cases h
    rw [if_neg hinit, syncFileLen_syncFileLen]

theorem listenerSerialize_ok (h : listenerSerialize st outMax = (st', .ok body)) :
    ∃ len, len ≤ cfg.fileSize ∧
      body = [formatVersion] ++ st.model.cc.toList ++ st.model.ndefFile.slice 0 len ∧
      len = if st.model.nlen.toNat ≤ cfg.maxSize then nlenFieldLen + st.model.nlen.toNat
        else st.model.ndefFileLen.toNat := by
  unfold listenerSerialize at h
  split at h
  · cases h
  have hser : serialize (syncFileLen st.model) outMax = .ok body := congrArg Prod.snd h
  obtain ⟨hle, hbody⟩ := serialize_ok hser
  unfold syncFileLen at hle hbody
  split at hbody
  · next hnlen =>
    rw [if_pos hnlen] at hle
    have hlen : (2 + st.model.nlen).toNat = nlenFieldLen + st.model.nlen.toNat :=
      toNat_two_add hnlen
    rw [hlen] at hle hbody
    exact ⟨_, hle, hbody, (if_pos hnlen).symm⟩
  · next hnlen =>
    rw [if_neg hnlen] at hle
    exact ⟨_, hle, hbody, (if_neg hnlen).symm⟩

theorem length_message (h : data.nlen.toNat ≤ cfg.maxSize) :
    data.message.length = nlenFieldLen + data.nlen.toNat := by
  refine length_slice _ ?_
  rw [Config.fileSize]
  omega

theorem stored_message_iff {other : Data cfg} (hother : other.nlen.toNat ≤ cfg.maxSize) {len : ℕ}
    (htwo : 2 ≤ len) (hlen : data.nlen.toNat ≤ cfg.maxSize → len = nlenFieldLen + data.nlen.toNat) :
    data.ndefFile.slice 0 len = other.message ↔ data.message = other.message := by
  constructor
  · intro h
    have hnlen : data.nlen = other.nlen := nlen_of_slice htwo (by rw [nlenFieldLen]; omega) h
    rw [Data.message, ← hlen (hnlen ▸ hother)]
    exact h
  · intro h
    have hnlen : data.nlen = other.nlen :=
      nlen_of_slice (by rw [nlenFieldLen]; omega) (by rw [nlenFieldLen]; omega) h
    rw [hlen (hnlen ▸ hother)]
    exact h

theorem State.Holds.message_eq (h : st.Holds body)
    (hx : (listenerSerialize x outMax).2 = .ok body) : st.model.message = x.model.message := by
  obtain ⟨len, hle, hbody, hlen⟩ := listenerSerialize_ok (Prod.ext rfl hx)
  obtain ⟨cc, hcc, -⟩ := h.body_eq
  have hfile := (content_inj (hbody.symm.trans hcc)).2
  have htwo : 2 ≤ len := by
    have hlens := congrArg List.length hfile
    rw [length_slice _ (by omega), length_message h.nlen_le, nlenFieldLen] at hlens
    omega
  exact ((stored_message_iff h.nlen_le htwo fun hn => hlen.trans (if_pos hn)).mp hfile).symm

theorem State.Holds.stored_iff {x' : State cfg} {body' : Bytes} (h : st.Holds body)
    (hcc : x.model.cc = st.model.cc) (htwo : 2 ≤ x.model.ndefFileLen.toNat)
    (hx : listenerSerialize x outMax = (x', .ok body')) :
    body = body' ↔ hasContainer body = true ∧ x.model.message = st.model.message := by
  obtain ⟨len, hle, rfl, hlen⟩ := listenerSerialize_ok hx
  obtain ⟨cc, rfl, hown⟩ := h.body_eq
  have htwo' : 2 ≤ len := by
    rw [hlen]
    split
    · rw [nlenFieldLen]
      omega
    · exact htwo
  have hmessage := stored_message_iff h.nlen_le htwo' fun hn => hlen.trans (if_pos hn)
  rw [hasContainer_content]
  constructor
  · intro heq
    obtain ⟨hcc', hfile⟩ := content_inj heq
    refine ⟨?_, hmessage.mp hfile.symm⟩
    rw [hcc', hcc]
    exact h.container
  · rintro ⟨hany, hsame⟩
    rw [hown hany, hcc, hmessage.mpr hsame]

end NfcStack.Ndef
