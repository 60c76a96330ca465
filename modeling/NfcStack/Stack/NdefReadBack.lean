import NfcStack.Protocols.Ndef.Capture
import NfcStack.Stack.Stack

/-!
# Reading an emulated NDEF card back

The commands of the NDEF poller go through the APDU parser and the router to the NDEF listener. The message
arrives whole, however many chunks it takes.
-/

namespace NfcStack.Stack

open List Option CArray Framing Reader Poll

variable {cfg : Config} (silence : Errno) {st st' : State cfg}

def stackSession (silence : Errno) : Reader.Session (State cfg) where
  active := true
  tag := ⟨fun st tx => (onApdu st tx).map fun r =>
    (r.1, match r.2 with
      | none => .error silence
      | some rx => .ok rx)⟩

structure NdefSelected (sel : Ndef.FileSel) (st : State cfg) : Prop where
  assembler : st.assembler = true
  router : st.router.initialized = true
  active : st.router.active = some .ndef
  fileSel : st.listeners.ndef.fileSel = sel

theorem transceive_of_onApdu {tx rx : Bytes} (h : onApdu st tx = some (st', some rx))
    (hlen : rx.length ≤ maxResponseLen) :
    (stackSession silence).transceive maxResponseLen tx st = some (.ok rx, st') :=
  Session.transceive_of_step rfl (by simp only [stackSession, h, map_some]) hlen

theorem pollerTransceive_of_onApdu {tx : Bytes} (data : Bytes)
    (h : onApdu st tx = some (st', some (data ++ [0x90, 0x00]))) (hlen : data.length ≤ 253) :
    Ndef.pollerTransceive (stackSession silence) tx st = some (.ok data, st') := by
  have hrx : (data ++ [0x90, 0x00]).length ≤ maxResponseLen := by
    rw [length_append]
    show _ + 2 ≤ 255
    omega
  rw [Ndef.pollerTransceive, bind_of_eq (transceive_of_onApdu silence h hrx)]
  simp only [Ndef.swOk_append, if_true, Ndef.payload_append]
  rfl

variable {sel : Ndef.FileSel}

theorem NdefSelected.onApdu (h : NdefSelected sel st) {tx : Bytes}
    (apdu : Apdu) (hparse : apduParse cfg.extendedApdu tx = some apdu)
    (hselect : Router.isSelectByAid apdu = false)
    (hclean : (Ndef.onApdu st.listeners.ndef apdu).2.2 = false) :
    Stack.onApdu st tx = some ({ st with
        listeners := { st.listeners with ndef := (Ndef.onApdu st.listeners.ndef apdu).1 } },
      some (Ndef.onApdu st.listeners.ndef apdu).2.1) := by
  have hcall : (listenService .ndef).callApdu st.listeners apdu =
      some ({ st.listeners with ndef := (Ndef.onApdu st.listeners.ndef apdu).1 },
        some (Ndef.onApdu st.listeners.ndef apdu).2.1, false) := by
    rw [← hclean]
    rfl
  unfold Stack.onApdu onApduCommit
  rw [if_neg (by simp [h.assembler]), hparse]
  simp only [Router.dispatch]
  rw [if_neg (by simp [h.router]), if_neg (by simp [hselect]), h.active]
  simp only [hcall, map_some]
  rfl

theorem selectApp_loopback (hasm : st.assembler = true) (hrouter : st.router.initialized = true)
    {entry : Router.Entry Listen} (hentry : st.router.findAid ndefAid = some entry)
    (hsvc : entry.svc = .ndef) (onRefusal : Bytes → Errno) :
    ∃ st', Ndef.selectApp (stackSession silence) onRefusal st = some (.ok (), st') ∧
      NdefSelected .none st' ∧ st'.listeners.ndef.model = st.listeners.ndef.model := by
  have hcommand : Ndef.selectAppV2 = selectCommand 0x00 ndefAid (some 0x00) := rfl
  have hleave : (Router.leave listenService st.router st.listeners .ndef).ndef =
      st.listeners.ndef := get_leave .ndef _ _
  have hstep := onApdu_select hasm hrouter 0x00 (some 0x00) (show 0 < ndefAid.length by decide)
    (show ndefAid.length < 256 by decide)
  rw [hentry] at hstep
  simp only [hsvc] at hstep
  have hcall : (listenService .ndef).callSelect
      (Router.leave listenService st.router st.listeners .ndef) ndefAid =
      some ({ Router.leave listenService st.router st.listeners .ndef with
        ndef := { st.listeners.ndef with fileSel := .none } }, some [0x90, 0x00]) := by
    rw [← hleave]
    rfl
  rw [hcall, ← hcommand] at hstep
  refine ⟨{ st with
    router := { st.router with active := some .ndef }
    listeners := { Router.leave listenService st.router st.listeners .ndef with
      ndef := { st.listeners.ndef with fileSel := .none } } }, ?_, ⟨hasm, hrouter, rfl, rfl⟩, rfl⟩
  rw [Ndef.selectApp, bind_of_eq (transceive_of_onApdu silence hstep (by decide))]
  rfl

theorem NdefSelected.selectFile (h : NdefSelected sel st) (hi lo : UInt8) (sel' : Ndef.FileSel)
    (hfile : ∀ x : Ndef.State cfg.ndef, Ndef.handleSelectFile x
      ⟨0x00, 0xA4, 0x00, 0x0C, [hi, lo], 0, false, false⟩ =
        ({ x with fileSel := sel' }, [0x90, 0x00])) :
    ∃ st', Ndef.pollerTransceive (stackSession silence) [0x00, 0xA4, 0x00, 0x0C, 0x02, hi, lo] st =
        some (.ok [], st') ∧
      NdefSelected sel' st' ∧ st'.listeners.ndef.model = st.listeners.ndef.model := by
  have hlistener : Ndef.onApdu st.listeners.ndef
      ⟨0x00, 0xA4, 0x00, 0x0C, [hi, lo], 0, false, false⟩ =
        ({ st.listeners.ndef with fileSel := sel' }, [0x90, 0x00], false) := by
    simp only [Ndef.onApdu, hfile]
    rfl
  have hparse : apduParse cfg.extendedApdu [0x00, 0xA4, 0x00, 0x0C, 0x02, hi, lo] =
      some ⟨0x00, 0xA4, 0x00, 0x0C, [hi, lo], 0, false, false⟩ := rfl
  have hstep := h.onApdu _ hparse rfl (by rw [hlistener])
  rw [hlistener] at hstep
  refine ⟨_, pollerTransceive_of_onApdu silence [] hstep (by decide), ?_, rfl⟩
  exact ⟨h.assembler, h.router, h.active, rfl⟩

theorem apduParse_readBinary (extendedOk : Bool) (offset len : ℕ) :
    apduParse extendedOk (Ndef.readBinary offset len) =
      some ⟨0x00, 0xB0, (UInt16.ofNat offset >>> 8).toUInt8, (UInt16.ofNat offset).toUInt8, [],
        (UInt8.ofNat len).toUInt16, true, false⟩ := rfl

theorem be16_offset {offset : ℕ} (h : offset < 65536) :
    (be16 (UInt16.ofNat offset >>> 8).toUInt8 (UInt16.ofNat offset).toUInt8).toNat = offset := by
  have hswap : be16 (UInt16.ofNat offset >>> 8).toUInt8 (UInt16.ofNat offset).toUInt8 =
      le16 (UInt16.ofNat offset).toUInt8 (UInt16.ofNat offset >>> 8).toUInt8 :=
    UInt16.or_comm _ _
  rw [hswap, le16_le16Bytes]
  exact Nat.mod_eq_of_lt h

theorem readFile_inside {file : Bytes} {offset len : ℕ} (hpos : 0 < len) (hlen : len ≤ 253)
    (hin : offset + len ≤ file.length) (hoff : offset < 65536) :
    Ndef.readFile file ⟨0x00, 0xB0, (UInt16.ofNat offset >>> 8).toUInt8,
        (UInt16.ofNat offset).toUInt8, [], (UInt8.ofNat len).toUInt16, true, false⟩ =
      (file.drop offset).take len ++ [0x90, 0x00] := by
  have hle : (UInt8.ofNat len).toUInt16.toNat = len := by
    exact Nat.mod_eq_of_lt (by omega)
  have hne : (UInt8.ofNat len).toUInt16 ≠ 0 := by
    intro hzero
    rw [hzero] at hle
    have : (0 : UInt16).toNat = 0 := rfl
    omega
  have hmin : min (min len (file.length - offset)) (maxResponseLen - 2) = len := by
    show min (min len (file.length - offset)) 253 = len
    omega
  simp only [Ndef.readFile, Ndef.binaryOffset, be16_offset hoff, Ndef.readNe, hne, hle,
    not_true_eq_false, if_false]
  rw [if_neg (by omega), hmin]
  rfl

def selectedBytes (sel : Ndef.FileSel) (model : Ndef.Data cfg.ndef) : Bytes :=
  match sel with
  | .none => []
  | .cc => model.cc.toList
  | .ndef => model.ndefFile.toList

theorem NdefSelected.readBinary (h : NdefSelected sel st) {offset len : ℕ}
    (hpos : 0 < len) (hlen : len ≤ 253) (hoff : offset < 65536)
    (hin : offset + len ≤ (selectedBytes sel st.listeners.ndef.model).length) :
    Ndef.pollerTransceive (stackSession silence) (Ndef.readBinary offset len) st =
      some (.ok (((selectedBytes sel st.listeners.ndef.model).drop offset).take len), st) := by
  have hread : Ndef.onApdu st.listeners.ndef ⟨0x00, 0xB0, (UInt16.ofNat offset >>> 8).toUInt8,
        (UInt16.ofNat offset).toUInt8, [], (UInt8.ofNat len).toUInt16, true, false⟩ =
      (st.listeners.ndef, ((selectedBytes sel st.listeners.ndef.model).drop offset).take len ++
        [0x90, 0x00], false) := by
    have hbinary := readFile_inside hpos hlen hin hoff
    have hsel := h.fileSel
    cases sel with
    | none =>
      -- without a file there is nothing to read
      simp [selectedBytes] at hin
      omega
    | cc =>
      simp only [Ndef.onApdu, Ndef.handleReadBinary, hsel]
      exact congrArg (fun rx => (st.listeners.ndef, rx, false)) hbinary
    | ndef =>
      simp only [Ndef.onApdu, Ndef.handleReadBinary, hsel]
      exact congrArg (fun rx => (st.listeners.ndef, rx, false)) hbinary
  have hstep := h.onApdu _ (apduParse_readBinary cfg.extendedApdu offset len) rfl (by rw [hread])
  rw [hread] at hstep
  exact pollerTransceive_of_onApdu silence _ hstep ((length_take_le _ _).trans hlen)

variable {data : Ndef.Data cfg.ndef}

theorem NdefSelected.readMessage (h : NdefSelected .ndef st) {mle nlen : ℕ} (hmle : 2 ≤ mle)
    (hnlen : nlen ≤ cfg.ndef.maxSize) {fuel k : ℕ} (hfuel : nlen - k ≤ fuel) (hk : k ≤ nlen)
    (hdata : data.ndefFile.slice 0 (2 + k) =
      st.listeners.ndef.model.ndefFile.slice 0 (2 + k)) :
    ∃ data', Ndef.readMessage (stackSession silence) mle nlen fuel k data st =
        some ((data', .ok ()), st) ∧ data'.cc = data.cc ∧
      data'.ndefFile.slice 0 (2 + nlen) = st.listeners.ndef.model.ndefFile.slice 0 (2 + nlen) := by
  have hrange := cfg.ndef.maxSize_range
  have hsize : cfg.ndef.fileSize = 2 + cfg.ndef.maxSize := rfl
  induction fuel generalizing k data with
  | zero =>
    obtain rfl : k = nlen := by omega
    exact ⟨data, rfl, rfl, hdata⟩
  | succ fuel ih =>
    by_cases hdone : nlen ≤ k
    · obtain rfl : k = nlen := by omega
      refine ⟨data, ?_, rfl, hdata⟩
      rw [Ndef.readMessage, if_pos hdone]
      rfl
    · -- One more chunk of `c` bytes, which is not empty and ends inside the message.
      obtain ⟨c, hc⟩ : ∃ c, Ndef.readChunkLe (nlen - k) mle = c := ⟨_, rfl⟩
      have hcdef : c = min (min (nlen - k) (mle - 1)) 253 := hc.symm
      have hinside : 2 + k + c ≤ (selectedBytes .ndef st.listeners.ndef.model).length := by
        show _ ≤ st.listeners.ndef.model.ndefFile.toList.length
        rw [CArray.length_toList]
        omega
      have hread : Ndef.pollerTransceive (stackSession silence) (Ndef.readBinary (2 + k) c) st =
          some (.ok (st.listeners.ndef.model.ndefFile.slice (2 + k) c), st) :=
        h.readBinary silence (by omega) (by omega) (by omega) hinside
      have hlen : (st.listeners.ndef.model.ndefFile.slice (2 + k) c).length = c :=
        length_slice _ (by omega)
      obtain ⟨ndefFile, hndefFile⟩ : ∃ f, data.ndefFile.write (2 + k)
          (st.listeners.ndef.model.ndefFile.slice (2 + k) c) = f := ⟨_, rfl⟩
      have hnext : ({ data with ndefFile } : Ndef.Data cfg.ndef).ndefFile.slice 0 (2 + (k + c)) =
          st.listeners.ndef.model.ndefFile.slice 0 (2 + (k + c)) := by
        rw [← Nat.add_assoc, ← hndefFile]
        exact slice_write_extend (by omega) hdata
      obtain ⟨data', hrest, hcc, hfile⟩ := ih (by omega) (by omega) hnext
      refine ⟨data', ?_, hcc, hfile⟩
      rw [Ndef.readMessage, if_neg hdone]
      simp only [hc, show Ndef.nlenFieldLen + k = 2 + k from rfl]
      rw [bind_of_eq hread]
      simp only [hlen, Nat.lt_irrefl, if_false, take_of_length_le hlen.le]
      have hwrite := write?_of_le data.ndefFile
        (show 2 + k + (st.listeners.ndef.model.ndefFile.slice (2 + k) c).length ≤ _ by omega)
      rw [hwrite, hndefFile]
      exact hrest

theorem NdefSelected.readNdefFile (h : NdefSelected sel st) (h9 : byteAt data.cc.toList 9 = 0xE1)
    (h10 : byteAt data.cc.toList 10 = 0x04)
    (hnlen : st.listeners.ndef.model.nlen.toNat ≤ cfg.ndef.maxSize) :
    ∃ card st', Ndef.readNdefFile (stackSession silence) data st = some ((card, .ok ()), st') ∧
      card.cc = data.cc ∧
      card.ndefFile.slice 0 (2 + st.listeners.ndef.model.nlen.toNat) =
        st.listeners.ndef.model.ndefFile.slice 0 (2 + st.listeners.ndef.model.nlen.toNat) := by
  have hsize : cfg.ndef.fileSize = 2 + cfg.ndef.maxSize := rfl
  obtain ⟨st₁, hselect, h₁, hmodel⟩ := h.selectFile silence 0xE1 0x04 .ndef (fun _ => rfl)
  rw [← hmodel] at hnlen ⊢
  have hinside : 0 + 2 ≤ (selectedBytes .ndef st₁.listeners.ndef.model).length := by
    show _ ≤ st₁.listeners.ndef.model.ndefFile.toList.length
    rw [CArray.length_toList]
    omega
  have hfield : Ndef.pollerTransceive (stackSession silence) (Ndef.readBinary 0 2) st₁ =
      some (.ok (st₁.listeners.ndef.model.ndefFile.slice 0 2), st₁) :=
    h₁.readBinary silence (by decide) (by decide) (by decide) hinside
  have hlen : (st₁.listeners.ndef.model.ndefFile.slice 0 2).length = 2 :=
    length_slice _ (by omega)
  have hvalue : be16 (byteAt (st₁.listeners.ndef.model.ndefFile.slice 0 2) 0)
      (byteAt (st₁.listeners.ndef.model.ndefFile.slice 0 2) 1) =
        st₁.listeners.ndef.model.nlen := by
    simp [Ndef.Data.nlen, CArray.slice, byteAt]
  obtain ⟨ndefFile, hndefFile⟩ : ∃ f, data.ndefFile.write 0
      (st₁.listeners.ndef.model.ndefFile.slice 0 2) = f := ⟨_, rfl⟩
  have hstart : ({ data with ndefFile } : Ndef.Data cfg.ndef).ndefFile.slice 0 (2 + 0) =
      st₁.listeners.ndef.model.ndefFile.slice 0 (2 + 0) := by
    have hself := data.ndefFile.slice_write_self
      (show 0 + (st₁.listeners.ndef.model.ndefFile.slice 0 2).length ≤ _ by omega)
    rw [hlen, hndefFile] at hself
    exact hself
  have hmle : 2 ≤ Ndef.ccMle data.cc := le_max_left _ _
  obtain ⟨card, hread, hcc, hfile⟩ := h₁.readMessage silence hmle hnlen
    (Nat.sub_le _ _) (Nat.zero_le _) hstart
  refine ⟨{ card with ndefFileLen := 2 + st₁.listeners.ndef.model.nlen }, st₁, ?_, hcc, hfile⟩
  rw [Ndef.readNdefFile, h9, h10, bind_of_eq hselect]
  simp only [show Ndef.nlenFieldLen = 2 from rfl]
  rw [bind_of_eq hfield]
  simp only [hlen, hvalue, ne_eq, not_true_eq_false, if_false, Nat.not_lt.mpr hnlen, hndefFile]
  rw [bind_of_eq hread]
  rfl

theorem model_of_load (hdata : data.Captured) (h7 : byteAt data.cc.toList 7 = 0x04) {outMax : ℕ}
    {bytes : Bytes} (hbytes : Ndef.serialize data outMax = .ok bytes) {x : Ndef.State cfg.ndef}
    (hx : x.initialized = true) :
    (Ndef.listenerDeserialize x bytes).1.model.cc = data.cc ∧
      (Ndef.listenerDeserialize x bytes).1.model.nlen = data.nlen ∧
      (Ndef.listenerDeserialize x bytes).1.model.ndefFile.slice 0 (2 + data.nlen.toNat) =
        data.ndefFile.slice 0 (2 + data.nlen.toNat) := by
  obtain ⟨copy, hread, -, hcontent⟩ := Ndef.deserialize_serialize hdata hbytes x.model
  have hcopy := Ndef.captured_of_deserialize hread
  obtain ⟨hcc, hnlen, hfile⟩ := hcopy.eq_of_content hdata hcontent
  -- byte 7 is not zero, so the container is not taken for a placeholder
  have hkept : Ndef.ccIsZeroPlaceholder copy = false := by
    rw [Ndef.ccIsZeroPlaceholder, hcc, Bool.eq_false_iff]
    intro hall
    have hmem : byteAt data.cc.toList 7 ∈ data.cc.toList := by
      rw [byteAt, List.getD_eq_getElem?_getD, List.getElem?_eq_getElem
        (show 7 < data.cc.toList.length by rw [CArray.length_toList]; decide)]
      exact List.getElem_mem _
    have hzero := List.all_eq_true.mp hall _ hmem
    rw [h7] at hzero
    cases hzero
  have hmodel : (Ndef.listenerDeserialize x bytes).1.model = Ndef.padNdefFile copy := by
    rw [Ndef.listenerDeserialize, if_neg (by simp [hx]), hread]
    simp only [Ndef.adoptModel, hkept]
    rfl
  rw [hmodel]
  refine ⟨hcc, hcopy.nlen_padNdefFile.trans hnlen, ?_⟩
  -- the padding starts behind the message
  have hlen := hcopy.toNat_ndefFileLen
  have hpad : (Ndef.padNdefFile copy).ndefFile.slice 0 (2 + data.nlen.toNat) =
      copy.ndefFile.slice 0 (2 + data.nlen.toNat) :=
    slice_write_of_disjoint _ hcopy.pad_fits (by rw [← hnlen]; omega)
  rwa [hpad]

/-- A card whose capability container has an NDEF file control TLV for the file `E104` and whose
message is not longer than the maximum, loaded into the NDEF listener, is read back through the
parser, the router and the listener: the poller returns 0 with the same capability container,
length field and message. -/
theorem pollerRead_readBack (data : Ndef.Data cfg.ndef) (hdata : data.Captured)
    (h7 : byteAt data.cc.toList 7 = 0x04) (h9 : byteAt data.cc.toList 9 = 0xE1)
    (h10 : byteAt data.cc.toList 10 = 0x04) {outMax : ℕ} {bytes : Bytes}
    (hbytes : Ndef.serialize data outMax = .ok bytes) {x : Ndef.State cfg.ndef}
    (hx : x.initialized = true) (st : State cfg)
    (hload : st.listeners.ndef = (Ndef.listenerDeserialize x bytes).1)
    (hasm : st.assembler = true) (hrouter : st.router.initialized = true)
    {entry : Router.Entry Listen} (hentry : st.router.findAid ndefAid = some entry)
    (hsvc : entry.svc = .ndef) (out : Ndef.Data cfg.ndef) :
    ∃ card st', Ndef.pollerRead (stackSession silence) out st = some ((card, .ok ()), st') ∧
      card.cc = data.cc ∧ card.nlen = data.nlen ∧
      card.ndefFile.slice 0 (2 + data.nlen.toNat) =
        data.ndefFile.slice 0 (2 + data.nlen.toNat) := by
  obtain ⟨hcc, hnlen, hfile⟩ := model_of_load hdata h7 hbytes hx
  rw [← hload] at hcc hnlen hfile
  obtain ⟨st₁, happ, h₁, hm₁⟩ := selectApp_loopback silence hasm hrouter hentry hsvc fun _ => .eio
  obtain ⟨st₂, hccFile, h₂, hm₂⟩ := h₁.selectFile silence 0xE1 0x03 .cc (fun _ => rfl)
  have hmodel : st₂.listeners.ndef.model = st.listeners.ndef.model := hm₂.trans hm₁
  have hread : Ndef.pollerTransceive (stackSession silence) Ndef.readCc st₂ =
      some (.ok data.cc.toList, st₂) := by
    have hcommand : Ndef.readCc = Ndef.readBinary 0 15 := rfl
    have hlen : (selectedBytes .cc st₂.listeners.ndef.model).length = 15 :=
      length_toList _
    have hbinary := h₂.readBinary silence (show 0 < 15 by decide) (by decide)
      (show 0 < 65536 by decide) hlen.ge
    rw [hcommand, hbinary, drop_zero, take_of_length_le hlen.le, selectedBytes, hmodel, hcc]
  obtain ⟨copy, hcopy⟩ : ∃ copy : Ndef.Data cfg.ndef, { (Ndef.Data.reset : Ndef.Data cfg.ndef) with
      cc := data.cc, ccLen := UInt16.ofNat Ndef.ccSize } = copy := ⟨_, rfl⟩
  have hcopyCc : copy.cc = data.cc := by rw [← hcopy]
  have hmax : st₂.listeners.ndef.model.nlen.toNat ≤ cfg.ndef.maxSize := by
    rw [hmodel, hnlen]
    exact hdata.nlen_le
  obtain ⟨card, st', hend, hcardCc, hcardFile⟩ := h₂.readNdefFile silence
    (by rw [hcopyCc]; exact h9) (by rw [hcopyCc]; exact h10) hmax
  rw [hmodel, hnlen, hfile] at hcardFile
  refine ⟨card, st', ?_, hcardCc.trans hcopyCc, Ndef.nlen_congr (by omega) hcardFile, hcardFile⟩
  rw [Ndef.pollerRead, if_neg (by simp [stackSession]), bind_of_eq happ]
  simp only
  rw [show Ndef.selectCc = [0x00, 0xA4, 0x00, 0x0C, 0x02, 0xE1, 0x03] from rfl, bind_of_eq hccFile]
  simp only
  rw [bind_of_eq hread]
  simp only [CArray.length_toList, ne_eq, not_true_eq_false, if_false, CArray.ofList_toList, h7,
    hcopy]
  exact hend

/-! ### A message of 300 bytes

The tag allows 16 bytes in a response. -/

def longMessage : Ndef.Data Config.default.ndef where
  cc := .ofList 15 0 [0x00, 0x0F, 0x20, 0x00, 0x10, 0x00, 0x34, 0x04, 0x06, 0xE1, 0x04, 0x01, 0xF4,
    0x00, 0xFF]
  ndefFile := .ofList _ 0 ([0x01, 0x2C] ++ List.replicate 300 0xAB)
  ccLen := 15
  ndefFileLen := 302

def longMessageStored : Bytes :=
  [Ndef.formatVersion] ++ longMessage.cc.toList ++ longMessage.ndefFile.slice 0 302

def longMessageUp : State Config.default :=
  { stackUp with
    listeners := { stackUp.listeners with
      ndef := (Ndef.listenerDeserialize stackUp.listeners.ndef longMessageStored).1 } }

theorem pollerRead_longMessage :
    longMessage.Captured ∧ Ndef.serialize longMessage 512 = .ok longMessageStored ∧
      ∃ (card : Ndef.Data Config.default.ndef) (st' : State Config.default),
        Ndef.pollerRead (stackSession .etimedout) .reset longMessageUp =
          some ((card, .ok ()), st') ∧ card.cc = longMessage.cc ∧ card.nlen = longMessage.nlen ∧
        card.ndefFile.slice 0 (2 + longMessage.nlen.toNat) =
          longMessage.ndefFile.slice 0 (2 + longMessage.nlen.toNat) := by
  have hcaptured : longMessage.Captured := ⟨rfl, by decide, by decide⟩
  have hstored : Ndef.serialize longMessage 512 = .ok longMessageStored := by decide +kernel
  have hinit : stackUp.listeners.ndef.initialized = true := by decide +kernel
  have hload : longMessageUp.listeners.ndef =
      (Ndef.listenerDeserialize stackUp.listeners.ndef longMessageStored).1 := by
    simp [longMessageUp]
  have hentry : longMessageUp.router.findAid ndefAid = some ⟨ndefAid, .ndef⟩ := by decide +kernel
  have hasm : longMessageUp.assembler = true := by decide +kernel
  have hrouter : longMessageUp.router.initialized = true := by decide +kernel
  refine ⟨hcaptured, hstored, ?_⟩
  exact pollerRead_readBack .etimedout longMessage hcaptured (by decide) (by decide) (by decide)
    hstored hinit longMessageUp hload hasm hrouter hentry rfl .reset

end NfcStack.Stack
