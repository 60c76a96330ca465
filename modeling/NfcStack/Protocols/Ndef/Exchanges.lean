import NfcStack.Protocols.Ndef.Codec
import NfcStack.Reader.Stream

/-!
# The NDEF poller against any tag

The poller takes at least one byte with every chunk and no more than it has asked for. So it ends, and the
card it returns has the bytes that the tag has sent for their places (`pollerRead_anyTag`).
-/

namespace NfcStack.Ndef

open List CArray NfcStack.Reader

variable {τ : Type} {cfg : Config} {s : Session τ}

def selectFile (cc : CArray UInt8 ccSize) : Bytes :=
  [0x00, 0xA4, 0x00, 0x0C, 0x02, byteAt cc.toList 9, byteAt cc.toList 10]

/-- A READ BINARY over the offset has the byte in its answer, and no SELECT comes before it. -/
def ReadAt (seg : List Exchange) (offset : ℕ) (b : UInt8) : Prop :=
  ∃ before start len rx after, seg = before ++ (readBinary start len, .ok rx) :: after ∧
    (∀ e ∈ before, byteAt e.1 1 ≠ 0xA4) ∧ start < 2 ^ 16 ∧ len < 2 ^ 8 ∧
    start ≤ offset ∧ offset < start + len ∧ (payload rx)[offset - start]? = some b

/-- The tag has returned the byte for an offset of the file that the capability container names: it
has accepted a SELECT of this file, and the byte was read while the file was the selected one. -/
def ReturnedAt (cc : CArray UInt8 ccSize) (log : List Exchange) (offset : ℕ) (b : UInt8) : Prop :=
  ∃ before ok seg, log = before ++ (selectFile cc, .ok ok) :: seg ∧ swOk ok = true ∧
    ReadAt seg offset b

theorem ReadAt.cons {seg : List Exchange} {offset : ℕ} {b : UInt8} (h : ReadAt seg offset b)
    {e : Exchange} (he : byteAt e.1 1 ≠ 0xA4) : ReadAt (e :: seg) offset b := by
  obtain ⟨before, start, len, rx, after, rfl, hbefore, hrest⟩ := h
  exact ⟨e :: before, start, len, rx, after, rfl, forall_mem_cons.mpr ⟨he, hbefore⟩, hrest⟩

theorem ReturnedAt.append_left {cc : CArray UInt8 ccSize} {log : List Exchange} {offset : ℕ}
    {b : UInt8} (h : ReturnedAt cc log offset b) (before : List Exchange) :
    ReturnedAt cc (before ++ log) offset b := by
  obtain ⟨before', ok, seg, rfl, hrest⟩ := h
  exact ⟨before ++ before', ok, seg, (append_assoc ..).symm, hrest⟩

theorem spends_pollerTransceive (hs : s.tag.Total) (tx : Bytes) :
    Spends 1 (pollerTransceive (logged s) tx)
      fun r seg => ∀ data, r = .ok data →
        ∃ rx, seg = [(tx, .ok rx)] ∧ data = payload rx ∧ swOk rx = true := by
  refine (spends_transceive hs maxResponseLen tx).bind (m := 0) fun r seg hr => ?_
  cases r with
  | error e =>
    refine .pure ?_
    rintro data ⟨⟩
  | ok rx =>
    refine .pure ?_
    intro data hdata
    by_cases hok : swOk rx = true
    · simp only [if_pos hok] at hdata
      cases hdata
      exact ⟨rx, by rw [hr rx rfl]; rfl, rfl, hok⟩
    · simp only [if_neg hok] at hdata
      cases hdata

theorem spends_selectApp (hs : s.tag.Total) (onRefusal : Bytes → Errno) :
    Spends 2 (selectApp (logged s) onRefusal) fun _ _ => True := by
  refine (spends_transceive hs _ _).bind (m := 1) fun r seg _ => ?_
  cases r with
  | error e => exact .pure trivial
  | ok rx =>
    dsimp only
    split
    · exact .pure trivial
    refine (spends_transceive hs _ _).bind (m := 0) fun r seg _ => ?_
    cases r with
    | error e => exact .pure trivial
    | ok rx => exact .pure trivial

variable {data : Data cfg}

theorem spends_refused {n : ℕ} {e : Errno} {Q : Data cfg × Ret → List Exchange → Prop} :
    Spends (τ := τ) n (pure (data, .error e)) fun r seg => r.2 = .ok () → Q r seg := by
  refine .pure ?_
  rintro ⟨⟩

variable {tagMle : ℕ}

theorem readChunkLe_pos {remaining : ℕ} (hpos : 0 < remaining) (hmle : 2 ≤ tagMle) :
    0 < readChunkLe remaining tagMle := by
  have hmax : maxResponseLen = 255 := rfl
  rw [readChunkLe]
  omega

theorem readChunkLe_le (remaining tagMle : ℕ) :
    readChunkLe remaining tagMle ≤ remaining ∧ readChunkLe remaining tagMle < 2 ^ 8 := by
  have hmax : maxResponseLen = 255 := rfl
  rw [readChunkLe]
  omega

structure MessageRead (nlen bytesRead : ℕ) (data data' : Data cfg) (seg : List Exchange) : Prop where
  cc : data'.cc = data.cc
  ccLen : data'.ccLen = data.ccLen
  outside : ∀ i, i < 2 + bytesRead ∨ 2 + nlen ≤ i → data'.ndefFile.get? i = data.ndefFile.get? i
  inside : ∀ i, 2 + bytesRead ≤ i → i < 2 + nlen →
    ∃ b, data'.ndefFile.get? i = some b ∧ ReadAt seg i b

variable {bytesRead nlen : ℕ}

theorem MessageRead.refl (h : nlen ≤ bytesRead) (data : Data cfg) :
    MessageRead nlen bytesRead data data [] := by
  refine ⟨rfl, rfl, fun _ _ => rfl, fun i hi hlt => ?_⟩
  omega

variable {seg : List Exchange} {data' : Data cfg}

theorem MessageRead.chunk {chunk : ℕ} {rx bytes : Bytes}
    (hlen : bytes.length = chunk) (hbyte : chunk < 2 ^ 8) (hbytes : bytes = (payload rx).take chunk)
    (hfits : 2 + bytesRead + bytes.length ≤ cfg.fileSize) (hchunk : bytesRead + chunk ≤ nlen)
    (h : MessageRead nlen (bytesRead + chunk)
      { data with ndefFile := data.ndefFile.write (2 + bytesRead) bytes } data' seg) :
    MessageRead nlen bytesRead data data'
      ((readBinary (2 + bytesRead) chunk, .ok rx) :: seg) := by
  refine ⟨h.cc, h.ccLen, fun i hi => ?_, fun i hi hlt => ?_⟩
  · rw [h.outside i (by omega), get?_write _ hfits, if_neg (by omega)]
  by_cases hnext : i < 2 + (bytesRead + chunk)
  · -- a byte of this chunk
    obtain ⟨b, hb⟩ : ∃ b, bytes[i - (2 + bytesRead)]? = some b :=
      ⟨_, getElem?_eq_getElem (by omega)⟩
    have hsent : (payload rx)[i - (2 + bytesRead)]? = some b := by
      rw [← hb, hbytes, getElem?_take_of_lt (by omega)]
    have hoffset : 2 + bytesRead < 2 ^ 16 := by
      have hrange := cfg.maxSize_range.2
      rw [Config.fileSize, nlenFieldLen] at hfits
      omega
    refine ⟨b, ?_, [], 2 + bytesRead, chunk, rx, seg, rfl, forall_mem_nil _, hoffset, hbyte, hi,
      by omega, hsent⟩
    rw [h.outside i (.inl hnext), get?_write _ hfits, if_pos (by omega), hb]
  · obtain ⟨b, hb, hret⟩ := h.inside i (by omega) hlt
    exact ⟨b, hb, hret.cons (show (0xB0 : UInt8) ≠ 0xA4 by decide)⟩

theorem spends_readMessage (hs : s.tag.Total) (hmle : 2 ≤ tagMle)
    (hnlen : nlen ≤ cfg.maxSize) (fuel bytesRead : ℕ) (hread : bytesRead ≤ nlen)
    (hfuel : nlen - bytesRead ≤ fuel) (data : Data cfg) :
    Spends (nlen - bytesRead) (readMessage (logged s) tagMle nlen fuel bytesRead data)
      fun r seg => r.2 = .ok () → MessageRead nlen bytesRead data r.1 seg := by
  induction fuel generalizing bytesRead data with
  | zero => exact .pure fun _ => .refl (by omega) data
  | succ fuel ih =>
    rw [readMessage]
    by_cases hend : nlen ≤ bytesRead
    · rw [if_pos hend]
      exact .pure fun _ => .refl hend data
    rw [if_neg hend]
    have hpos : 0 < readChunkLe (nlen - bytesRead) tagMle := readChunkLe_pos (by omega) hmle
    obtain ⟨hle, hbyte⟩ := readChunkLe_le (nlen - bytesRead) tagMle
    generalize readChunkLe (nlen - bytesRead) tagMle = chunk at hpos hle hbyte
    have hsplit : nlen - bytesRead = 1 + (nlen - bytesRead - 1) := by omega
    rw [hsplit]
    refine (spends_pollerTransceive hs _).bind fun r seg hr => ?_
    cases r with
    | error e => exact spends_refused
    | ok rx =>
      dsimp only
      by_cases hshort : rx.length < chunk
      · rw [if_pos hshort]
        exact spends_refused
      rw [if_neg hshort]
      obtain ⟨resp, rfl, rfl, -⟩ := hr rx rfl
      have hlen : ((payload resp).take chunk).length = chunk := by
        rw [length_take]
        omega
      have hfits : nlenFieldLen + bytesRead + ((payload resp).take chunk).length ≤ cfg.fileSize := by
        rw [Config.fileSize]
        omega
      rw [write?_of_le _ hfits]
      refine (ih (bytesRead + chunk) (by omega) (by omega) _).mono (by omega)
        fun r seg' hrest hok => ?_
      exact .chunk hlen hbyte rfl hfits (by omega) (hrest hok)

structure FileRead (nlen : UInt16) (data data' : Data cfg) (seg : List Exchange) : Prop where
  cc : data'.cc = data.cc
  ndefFileLen : data'.ndefFileLen = 2 + nlen
  behind : ∀ i, 2 + nlen.toNat ≤ i → data'.ndefFile.get? i = data.ndefFile.get? i
  message : ∀ i, 2 ≤ i → i < 2 + nlen.toNat →
    ∃ b, data'.ndefFile.get? i = some b ∧ ReturnedAt data.cc seg i b

theorem FileRead.append_left {nlen : UInt16} (h : FileRead nlen data data' seg)
    (before : List Exchange) : FileRead nlen data data' (before ++ seg) := by
  refine ⟨h.cc, h.ndefFileLen, h.behind, fun i hi hlt => ?_⟩
  obtain ⟨b, hb, hret⟩ := h.message i hi hlt
  exact ⟨b, hb, hret.append_left before⟩

theorem spends_readNdefFile (hs : s.tag.Total) (data : Data cfg) :
    Spends (2 + cfg.maxSize) (readNdefFile (logged s) data)
      fun r seg => r.2 = .ok () → ∃ nlen, FileRead nlen data r.1 seg := by
  rw [show 2 + cfg.maxSize = 1 + (1 + cfg.maxSize) by omega]
  refine (spends_pollerTransceive hs _).bind fun r seg₁ hselect => ?_
  cases r with
  | error e => exact spends_refused
  | ok _ =>
    obtain ⟨ok, rfl, -, hok⟩ := hselect _ rfl
    refine (spends_pollerTransceive hs _).bind fun r seg₂ hlength => ?_
    cases r with
    | error e => exact spends_refused
    | ok rx =>
      obtain ⟨field, rfl, -, -⟩ := hlength _ rfl
      dsimp only
      split
      · exact spends_refused
      next hlen =>
      split
      · exact spends_refused
      next hmax =>
      generalize be16 (byteAt rx 0) (byteAt rx 1) = nlen at hmax
      have hmle : 2 ≤ ccMle data.cc := Nat.le_max_left _ _
      have hloop := spends_readMessage hs hmle (Nat.not_lt.mp hmax) nlen.toNat 0 (Nat.zero_le _)
        (Nat.sub_le _ _)
        { data with ndefFile := data.ndefFile.write 0 rx }
      refine (hloop.bind (m := 0) fun r seg₃ hread => ?_).mono (by omega) fun _ _ h => h
      obtain ⟨data', ret⟩ := r
      by_cases hret : ret = .ok ()
      · subst hret
        refine .pure fun _ => ⟨nlen, ?_⟩
        have hmessage := hread rfl
        rw [append_nil]
        refine ⟨hmessage.cc, rfl, fun i hi => ?_, fun i hi hlt => ?_⟩
        · have htwo : 0 + rx.length ≤ cfg.fileSize := by
            rw [Config.fileSize]
            omega
          refine (hmessage.outside i (.inr hi)).trans ?_
          rw [get?_write _ htwo, if_neg]
          rw [not_not.mp hlen, nlenFieldLen]
          omega
        · -- the SELECT, the length field, and then the chunk that has the byte
          obtain ⟨b, hb, hread⟩ := hmessage.inside i hi hlt
          exact ⟨b, hb, [], ok, _, rfl, hok, hread.cons (show (0xB0 : UInt8) ≠ 0xA4 by decide)⟩
      · simp only [if_pos hret]
        refine .pure fun hok => ?_
        exact absurd hok hret

theorem spends_pollerRead (hs : s.tag.Total) (out : Data cfg) :
    Spends (6 + cfg.maxSize) (pollerRead (logged s) out)
      fun r seg => r.2 = .ok () → ∃ (data : Data cfg) (nlen : UInt16),
        data.ndefFile = .fill _ 0 ∧ FileRead nlen data r.1 seg := by
  rw [pollerRead]
  split
  · exact spends_refused
  rw [show 6 + cfg.maxSize = 2 + (1 + (1 + (2 + cfg.maxSize))) by omega]
  refine (spends_selectApp hs _).bind fun r seg₁ _ => ?_
  cases r with
  | error e => exact spends_refused
  | ok _ =>
    refine (spends_pollerTransceive hs _).bind fun r seg₂ _ => ?_
    cases r with
    | error e => exact spends_refused
    | ok _ =>
      refine (spends_pollerTransceive hs _).bind fun r seg₃ _ => ?_
      cases r with
      | error e => exact spends_refused
      | ok rx =>
        dsimp only
        split
        · exact spends_refused
        split
        · exact spends_refused
        refine (spends_readNdefFile hs _).mono le_rfl fun r seg₄ h hok => ?_
        obtain ⟨nlen, hfile⟩ := h hok
        refine ⟨{ (Data.reset : Data cfg) with
          cc := .ofList ccSize 0 rx, ccLen := UInt16.ofNat ccSize }, nlen, rfl, ?_⟩
        rw [← append_assoc, ← append_assoc]
        exact hfile.append_left _

/-- Whatever the tag answers, the poller ends within the bound, and a card that it returns without an
error survives the codec and has the bytes that the tag returned from the NDEF file. -/
theorem pollerRead_anyTag (hs : s.tag.Total) (out : Data cfg) (t : τ) :
    ∃ data ret t' log, pollerRead (logged s) out (t, []) = some ((data, ret), (t', log)) ∧
      log.length ≤ 6 + cfg.maxSize ∧
      (ret = .ok () →
        data.ndefFileLen.toNat ≤ 2 + cfg.maxSize ∧
        (∀ outMax x, 1 + ccSize + data.ndefFileLen.toNat ≤ outMax →
          ∃ bytes, serialize data outMax = .ok bytes ∧ deserialize x bytes = (data, .ok ())) ∧
        ∀ i < data.nlen.toNat,
          ∃ b, data.ndefFile.get? (2 + i) = some b ∧ ReturnedAt data.cc log (2 + i) b) := by
  obtain ⟨⟨data, ret⟩, ⟨t', log⟩, seg, hrun, hlog, hlen, hcard⟩ := spends_pollerRead hs out (t, [])
  obtain rfl : log = seg := hlog
  refine ⟨data, ret, t', log, hrun, hlen, ?_⟩
  rintro rfl
  have hcaptured := pollerRead_captured (logged s) hrun
  obtain ⟨base, nlen, hbase, hfile⟩ := hcard rfl
  have hnlen : nlen = data.nlen :=
    (UInt16.add_right_inj 2).mp (hfile.ndefFileLen.symm.trans hcaptured.ndefFileLen)
  subst hnlen
  have hzero : data.ndefFile.ConstFrom data.ndefFileLen.toNat 0 := by
    intro i hi hlt
    rw [hcaptured.toNat_ndefFileLen] at hi
    rw [hfile.behind i hi, hbase, get?_fill, if_pos hlt]
  have htrim := Data.trimmed_eq_self hcaptured.ndefFileLen_le hzero
  refine ⟨hcaptured.ndefFileLen_le, fun outMax x hroom => ?_, fun i hi => ?_⟩
  · refine ⟨_, hcaptured.serialize_eq hroom, ?_⟩
    rw [hcaptured.deserialize_stored x, htrim]
  · rw [hfile.cc]
    exact hfile.message (2 + i) (by omega) (by omega)

def twoByteStream : Stream := fun k =>
  if k = 2 then .ok ([0x00, 0x0F, 0x20, 0x00, 0x02, 0x00, 0xFF, 0x04, 0x06, 0xE1, 0x04, 0x00, 0x10,
    0x00, 0x00] ++ [0x90, 0x00])
  else if k = 4 then .ok [0x00, 0x02, 0x90, 0x00]
  else if k = 5 then .ok [0xD0, 0xAA, 0x90, 0x00]
  else if k = 6 then .ok [0xD1, 0x90, 0x00]
  else .ok [0x90, 0x00]

theorem pollerRead_anyTag_twoByteStream : (streamed twoByteStream).tag.Total ∧
      ∃ (data : Data .default) (t' : ℕ) (log : List Exchange),
        pollerRead (logged (streamed twoByteStream)) .reset (0, []) =
          some ((data, .ok ()), (t', log)) ∧
        log.length ≤ 506 ∧ data.nlen = 2 ∧
        ∃ b, data.ndefFile.get? 3 = some b ∧ ReturnedAt data.cc log 3 b := by
  have hrun : (pollerRead (logged (streamed twoByteStream)) (.reset : Data .default) (0, [])).map
      (fun r => (r.1.2.isOk, r.1.1.nlen)) = some (true, 2) := by decide +kernel
  obtain ⟨data, ret, t', log, hread, hlen, hok⟩ :=
    pollerRead_anyTag (streamed_total twoByteStream) (Data.reset : Data .default) 0
  rw [hread] at hrun
  obtain ⟨hret, hnlen⟩ := Prod.mk.inj (Option.some.inj hrun)
  cases ret with
  | error e => cases hret
  | ok =>
    refine ⟨streamed_total _, data, t', log, hread, hlen, hnlen, ?_⟩
    exact (hok rfl).2.2 1 (by rw [show data.nlen = 2 from hnlen]; decide)

end NfcStack.Ndef
