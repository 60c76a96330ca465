import NfcStack.Protocols.Ndef.Listener
import NfcStack.Protocols.Ndef.Poller

/-!
# A card from the poller to the listener

The listener pads the file of a card it is given, and cuts it to the message again when it stores it, so
it stores what was read but for the write access byte.
-/

namespace NfcStack.Ndef

open List CArray NfcStack.Reader Poll

variable {τ : Type} {cfg : Config}

structure Data.Captured (data : Data cfg) : Prop where
  ccLen : data.ccLen.toNat = ccSize
  nlen_le : data.nlen.toNat ≤ cfg.maxSize
  ndefFileLen : data.ndefFileLen = 2 + data.nlen

theorem toNat_two_add {nlen : UInt16} (h : nlen.toNat ≤ cfg.maxSize) :
    (2 + nlen).toNat = 2 + nlen.toNat := by
  have hrange := cfg.maxSize_range
  exact Nat.mod_eq_of_lt (by simp; omega)

variable {data : Data cfg}

theorem Data.Captured.toNat_ndefFileLen (h : data.Captured) :
    data.ndefFileLen.toNat = 2 + data.nlen.toNat := by
  rw [h.ndefFileLen, toNat_two_add h.nlen_le]

theorem nlen_write {ndefFile : CArray UInt8 cfg.fileSize} {off : ℕ} {src : Bytes}
    (hoff : nlenFieldLen ≤ off) (h : data.ndefFile.write? off src = some ndefFile) :
    ({ data with ndefFile } : Data cfg).nlen = data.nlen := by
  have hle : off + src.length ≤ cfg.fileSize := by
    by_contra hlt
    rw [(write?_eq_none_iff _ _ _).mpr (by omega)] at h
    cases h
  rw [write?_of_le _ hle] at h
  obtain rfl := Option.some.inj h
  rw [nlenFieldLen] at hoff
  rw [Data.nlen, byteAt_write _ hle, byteAt_write _ hle, if_neg (by omega), if_neg (by omega),
    Data.nlen]

variable {data' : Data cfg} {t t' : τ} (s : Session τ)

theorem readMessage_spec (tagMle nlen : ℕ) {fuel bytesRead : ℕ} {ret : Ret}
    (h : readMessage s tagMle nlen fuel bytesRead data t = some ((data', ret), t')) :
    data'.cc = data.cc ∧ data'.ccLen = data.ccLen ∧ data'.nlen = data.nlen := by
  induction fuel generalizing bytesRead data t with
  | zero =>
    cases h
    exact ⟨rfl, rfl, rfl⟩
  | succ fuel ih =>
    simp only [readMessage] at h
    split at h
    · cases h
      exact ⟨rfl, rfl, rfl⟩
    obtain ⟨rx, t₁, -, h⟩ := bind_eq_some h
    cases rx with
    | error e =>
      cases h
      exact ⟨rfl, rfl, rfl⟩
    | ok rx =>
      simp only at h
      split at h
      · cases h
        exact ⟨rfl, rfl, rfl⟩
      cases hw : data.ndefFile.write? (nlenFieldLen + bytesRead)
          (rx.take (readChunkLe (nlen - bytesRead) tagMle)) with
      | none =>
        rw [hw] at h
        cases h
      | some ndefFile =>
        rw [hw] at h
        obtain ⟨hcc, hccLen, hnlen⟩ := ih h
        exact ⟨hcc, hccLen, hnlen.trans (nlen_write (Nat.le_add_right _ _) hw)⟩

theorem nlen_write_field (data : Data cfg) {rx : Bytes} (h : rx.length = nlenFieldLen) :
    ({ data with ndefFile := data.ndefFile.write 0 rx } : Data cfg).nlen =
      be16 (byteAt rx 0) (byteAt rx 1) := by
  have hle : 0 + rx.length ≤ cfg.fileSize := by
    rw [h]
    simp [Config.fileSize]
  rw [nlenFieldLen] at h
  rw [Data.nlen, byteAt_write _ hle, byteAt_write _ hle, if_pos (by omega), if_pos (by omega)]

theorem readNdefFile_captured (hcc : data.ccLen.toNat = ccSize)
    (h : readNdefFile s data t = some ((data', .ok ()), t')) : data'.Captured := by
  obtain ⟨sel, t₁, -, h⟩ := bind_eq_some h
  cases sel with
  | error e => cases h
  | ok _ =>
    obtain ⟨rx, t₂, -, h⟩ := bind_eq_some h
    cases rx with
    | error e => cases h
    | ok rx =>
      simp only at h
      split at h
      · cases h
      next hlen =>
      split at h
      · cases h
      obtain ⟨⟨data₁, ret⟩, t₃, hread, h⟩ := bind_eq_some h
      obtain ⟨-, hccLen, hnlen⟩ := readMessage_spec s _ _ hread
      rw [nlen_write_field data (not_not.mp hlen)] at hnlen
      split at h
      · next hret =>
        cases h
        exact absurd rfl hret
      cases h
      refine ⟨?_, ?_, ?_⟩
      · show data₁.ccLen.toNat = ccSize
        rw [hccLen]
        exact hcc
      · show data₁.nlen.toNat ≤ cfg.maxSize
        rw [hnlen]
        omega
      · show 2 + be16 (byteAt rx 0) (byteAt rx 1) = 2 + data₁.nlen
        rw [hnlen]

theorem pollerRead_captured {out : Data cfg}
    (h : pollerRead s out t = some ((data, .ok ()), t')) : data.Captured := by
  simp only [pollerRead] at h
  split at h
  · cases h
  obtain ⟨app, t₁, -, h⟩ := bind_eq_some h
  cases app with
  | error e => cases h
  | ok _ =>
    obtain ⟨sel, t₂, -, h⟩ := bind_eq_some h
    cases sel with
    | error e => cases h
    | ok _ =>
      obtain ⟨rx, t₃, -, h⟩ := bind_eq_some h
      cases rx with
      | error e => cases h
      | ok rx =>
        simp only at h
        split at h
        · cases h
        split at h
        · cases h
        · exact readNdefFile_captured s rfl h

def Data.opened (data : Data cfg) : Data cfg :=
  { data with cc := data.cc.set 14 (writeAccess true) }

theorem Data.Captured.opened (h : data.Captured) : data.opened.Captured :=
  ⟨h.ccLen, h.nlen_le, h.ndefFileLen⟩

variable {outMax : ℕ}

theorem serialize_of_lengths {body : Bytes} (h : serialize data outMax = .ok body)
    (hcc : data'.ccLen = data.ccLen) (hfile : data'.ndefFileLen = data.ndefFileLen) :
    ∃ body', serialize data' outMax = .ok body' ∧ body'.length = body.length := by
  unfold serialize at h ⊢
  rw [hcc, hfile]
  split at h
  · cases h
  next hlens =>
  split at h
  · cases h
  next hroom =>
  cases h
  refine ⟨_, (if_neg hlens).trans (if_neg hroom), ?_⟩
  simp [CArray.slice]

theorem Data.Captured.pad_fits (h : data.Captured) : data.ndefFileLen.toNat +
    (List.replicate (cfg.fileSize - data.ndefFileLen.toNat) (0 : UInt8)).length ≤ cfg.fileSize := by
  have hlen := h.toNat_ndefFileLen
  have hnlen := h.nlen_le
  simp only [length_replicate, Config.fileSize, nlenFieldLen]
  omega

theorem Data.Captured.nlen_padNdefFile (h : data.Captured) :
    (padNdefFile data).nlen = data.nlen := by
  refine nlen_write ?_ (write?_of_le _ h.pad_fits)
  rw [h.toNat_ndefFileLen, nlenFieldLen]
  omega

theorem serialize_syncFileLen_padNdefFile (h : data.Captured) (outMax : ℕ) :
    serialize (syncFileLen (padNdefFile data)) outMax = serialize data outMax := by
  have hsync : syncFileLen (padNdefFile data) =
      { data with ndefFile := (padNdefFile data).ndefFile } := by
    rw [syncFileLen, h.nlen_padNdefFile, if_pos h.nlen_le, ← h.ndefFileLen]
    rfl
  have hslice : (padNdefFile data).ndefFile.slice 0 data.ndefFileLen.toNat =
      data.ndefFile.slice 0 data.ndefFileLen.toNat :=
    slice_write_of_disjoint _ h.pad_fits (by omega)
  simp only [hsync, serialize, hslice]

theorem listenerSerialize_ne_enotsup (st : State cfg) (outMax : ℕ) :
    (listenerSerialize st outMax).2 ≠ .error .enotsup := by
  unfold listenerSerialize serialize
  split
  · nofun
  simp only
  split
  · nofun
  split
  · nofun
  · nofun

theorem listenerSerialize_listenerInit {st : State cfg}
    (hst : st.initialized = false) (h : data.Captured) (outMax : ℕ) :
    (listenerSerialize (listenerInit st (some data) true).1 outMax).2 =
      serialize data.opened outMax := by
  have hmodel : initModel true (some data) = padNdefFile data.opened := by
    rw [initModel, Option.getD_some, if_pos h.ccLen]
    rfl
  simp only [listenerInit, hst, listenerSerialize, hmodel]
  exact serialize_syncFileLen_padNdefFile h.opened outMax

variable {bytes : Bytes} {x : Data cfg}

theorem deserialize_of_ok (h : (deserialize x bytes).2 = .ok ())
    (y : Data cfg) : deserialize y bytes = deserialize x bytes := by
  unfold deserialize at h ⊢
  split at h
  · cases h
  · next hc => rw [if_neg hc, if_neg hc]

theorem listenerDeserialize_ok {x x' : State cfg} (h : listenerDeserialize x bytes = (x', .ok ())) :
    (deserialize x.model bytes).2 = .ok () ∧
      x' = ⟨adoptModel x.writable (deserialize x.model bytes).1, x.writable, true, x.fileSel⟩ := by
  unfold listenerDeserialize at h
  split at h
  · cases h
  next hinit =>
  simp only at h
  split at h
  · cases h
  · next hok =>
    cases h
    refine ⟨hok, ?_⟩
    simp only [not_not] at hinit
    rw [hinit]

theorem captured_of_deserialize (h : deserialize x bytes = (data, .ok ())) : data.Captured := by
  unfold deserialize at h
  split at h
  · cases h
  simp only at h
  split at h
  · cases h
  · obtain ⟨rfl, hnlen⟩ := Prod.mk.inj h
    unfold nlenFromFile at hnlen
    split at hnlen
    · cases hnlen
    next hc =>
    push Not at hc
    exact ⟨rfl, hc.2.1, hc.2.2.symm⟩

def Data.content (data : Data cfg) : Bytes × Bytes :=
  (data.cc.toList, data.ndefFile.slice 0 data.ndefFileLen.toNat)

theorem nlen_congr {a b : Data cfg} {k : ℕ} (hk : 2 ≤ k)
    (h : a.ndefFile.slice 0 k = b.ndefFile.slice 0 k) : a.nlen = b.nlen := by
  have hbyte : ∀ i < 2, byteAt a.ndefFile.toList i = byteAt b.ndefFile.toList i := by
    intro i hi
    have hget := congrArg (·[i]?) h
    simp only [getElem?_slice, if_pos (show i < k by omega), Nat.zero_add] at hget
    exact congrArg (·.getD 0) hget
  rw [Data.nlen, Data.nlen, hbyte 0 (by omega), hbyte 1 (by omega)]

theorem Data.Captured.eq_of_content {a b : Data cfg} (ha : a.Captured) (hb : b.Captured)
    (h : a.content = b.content) :
    a.cc = b.cc ∧ a.nlen = b.nlen ∧
      a.ndefFile.slice 0 (nlenFieldLen + b.nlen.toNat) =
        b.ndefFile.slice 0 (nlenFieldLen + b.nlen.toNat) := by
  obtain ⟨hcc, hfile⟩ := Prod.mk.inj h
  have hsize : cfg.fileSize = 2 + cfg.maxSize := rfl
  have hla := ha.toNat_ndefFileLen
  have hlb := hb.toNat_ndefFileLen
  have hma := ha.nlen_le
  have hmb := hb.nlen_le
  -- the lengths agree, because the files do
  have hlens : a.ndefFileLen.toNat = b.ndefFileLen.toNat := by
    have hcount := congrArg List.length hfile
    rwa [length_slice _ (by omega), length_slice _ (by omega)] at hcount
  rw [hlens] at hfile
  refine ⟨CArray.ext hcc, nlen_congr (by omega) hfile, ?_⟩
  rwa [hlb] at hfile

def Data.ofContent (cfg : Config) (cc : CArray UInt8 ccSize) (file : Bytes) : Data cfg :=
  { (Data.reset : Data cfg) with
    cc
    ccLen := UInt16.ofNat ccSize
    ndefFileLen := UInt16.ofNat file.length
    ndefFile := (Data.reset : Data cfg).ndefFile.write 0 file }

theorem deserialize_content (x : Data cfg) (cc : CArray UInt8 ccSize) {file : Bytes}
    (hpos : 2 ≤ file.length) (hle : file.length ≤ cfg.fileSize) :
    deserialize x ([formatVersion] ++ cc.toList ++ file) =
      (.ofContent cfg cc file, nlenFromFile (.ofContent cfg cc file)) := by
  have hrange := cfg.maxSize_range
  have hsize : cfg.fileSize = 2 + cfg.maxSize := rfl
  have hbytes : ([formatVersion] ++ cc.toList ++ file).length =
      1 + ccSize + file.length := by
    simp
    omega
  have hcc : CArray.ofList ccSize 0 (([formatVersion] ++ cc.toList ++ file).drop 1) =
      cc := by
    apply CArray.ext
    rw [toList_ofList_of_le _ (by simp)]
    simp
  have hdrop : ([formatVersion] ++ cc.toList ++ file).drop (1 + ccSize) = file :=
    drop_left' (by simp [Nat.add_comm])
  have hlen : (UInt16.ofNat file.length).toNat = file.length := by
    simp
    omega
  have hminus : 1 + ccSize + file.length - 1 - ccSize = file.length := by omega
  unfold deserialize
  rw [if_neg]
  · simp only [hbytes, hcc, hdrop, hminus, hlen]
    rw [if_neg (by omega), take_of_length_le le_rfl]
    rfl
  · rw [hbytes]
    simp [byteAt, nlenFieldLen]
    omega

theorem deserialize_serialize (h : data.Captured)
    (hs : serialize data outMax = .ok bytes) (x : Data cfg) :
    ∃ data', deserialize x bytes = (data', .ok ()) ∧ data'.ccLen.toNat = ccSize ∧
      data'.content = data.content := by
  have hlen := h.toNat_ndefFileLen
  have hnlen := h.nlen_le
  unfold serialize at hs
  split at hs
  · cases hs
  split at hs
  · cases hs
  cases hs
  have hfile : (data.ndefFile.slice 0 data.ndefFileLen.toNat).length = data.ndefFileLen.toNat :=
    length_slice _ (by omega)
  have hslice := slice_write_self (Data.reset : Data cfg).ndefFile
    (show 0 + (data.ndefFile.slice 0 data.ndefFileLen.toNat).length ≤ cfg.fileSize by omega)
  have hfileLen : (Data.ofContent cfg data.cc
      (data.ndefFile.slice 0 data.ndefFileLen.toNat)).ndefFileLen = data.ndefFileLen := by
    rw [Data.ofContent, hfile]
    exact UInt16.ofNat_toNat
  rw [hfile] at hslice
  rw [deserialize_content x data.cc (by omega) (by omega)]
  refine ⟨_, Prod.ext rfl ?_, rfl, ?_⟩
  · have hsame : (Data.ofContent cfg data.cc
        (data.ndefFile.slice 0 data.ndefFileLen.toNat)).nlen = data.nlen :=
      nlen_congr (show 2 ≤ data.ndefFileLen.toNat by omega) hslice
    rw [nlenFromFile, hsame, hfileLen]
    refine if_neg ?_
    rw [← h.ndefFileLen, nlenFieldLen]
    simp only [ne_eq, not_true_eq_false, or_false]
    omega
  · refine Prod.ext rfl ?_
    rw [Data.content, hfileLen]
    exact hslice

def Data.withCc (writable : Bool) (data : Data cfg) : Data cfg :=
  if ccIsZeroPlaceholder data then
    { data with cc := buildCc cfg writable, ccLen := UInt16.ofNat ccSize }
  else data

theorem Data.Captured.withCc (h : data.Captured) (writable : Bool) :
    (data.withCc writable).Captured := by
  unfold Data.withCc
  split
  · exact ⟨rfl, h.nlen_le, h.ndefFileLen⟩
  · exact h

end NfcStack.Ndef
