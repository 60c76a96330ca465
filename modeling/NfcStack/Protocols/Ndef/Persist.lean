import NfcStack.Protocols.Ndef.Capture

/-!
# Can the card of the NDEF listener be stored?

A reader may write the length field like any other bytes. The length kept beside the file follows it only
up to the maximum; beyond it `deserialize` refuses the stored form (`persistable_iff`).
-/

namespace NfcStack.Ndef

variable {cfg : Config}

def maxStored (cfg : Config) : ℕ := 1 + ccSize + cfg.fileSize

/-- The listener's card is stored in a buffer of the largest size, and what is stored is accepted
with the same capability container, length field and message, whatever was held before. -/
def State.Persistable (st : State cfg) : Prop :=
  ∃ bytes, (listenerSerialize st (maxStored cfg)).2 = .ok bytes ∧
    ∀ x : Data cfg, ∃ data, deserialize x bytes = (data, .ok ()) ∧ data.cc = st.model.cc ∧
      data.nlen = st.model.nlen ∧
      data.ndefFile.slice nlenFieldLen data.nlen.toNat =
        st.model.ndefFile.slice nlenFieldLen st.model.nlen.toNat

structure State.Running (st : State cfg) : Prop where
  initialized : st.initialized = true
  ccLen : st.model.ccLen.toNat = ccSize

variable {data : Data cfg}

theorem captured_syncFileLen (hcc : data.ccLen.toNat = ccSize)
    (hnlen : data.nlen.toNat ≤ cfg.maxSize) : (syncFileLen data).Captured := by
  rw [syncFileLen, if_pos hnlen]
  exact ⟨hcc, hnlen, rfl⟩

theorem serialize_captured (h : data.Captured) :
    serialize data (maxStored cfg) = .ok ([formatVersion] ++ data.cc.toList ++
      data.ndefFile.slice 0 data.ndefFileLen.toNat) := by
  have hlen := h.toNat_ndefFileLen
  have hnlen := h.nlen_le
  have hsize : cfg.fileSize = 2 + cfg.maxSize := rfl
  have hbounds : ¬ (data.ccLen.toNat ≠ ccSize ∨ cfg.fileSize < data.ndefFileLen.toNat) := by
    rintro (hcc | hlong)
    · exact hcc h.ccLen
    · omega
  rw [serialize, if_neg hbounds, if_neg]
  rw [maxStored]
  omega

theorem slice_message {a b : Data cfg} {k : ℕ}
    (h : a.ndefFile.slice 0 (nlenFieldLen + k) = b.ndefFile.slice 0 (nlenFieldLen + k)) :
    a.ndefFile.slice nlenFieldLen k = b.ndefFile.slice nlenFieldLen k := by
  have hpart : ∀ x : Data cfg, ((x.ndefFile.slice 0 (nlenFieldLen + k)).drop nlenFieldLen).take k =
      x.ndefFile.slice nlenFieldLen k := by
    intro x
    rw [CArray.slice_slice _ le_rfl, Nat.zero_add]
  rw [← hpart a, ← hpart b, h]

variable {st : State cfg}

theorem State.Running.persistable_iff (hst : st.Running) :
    st.Persistable ↔ st.model.nlen.toNat ≤ cfg.maxSize := by
  have hstored : listenerSerialize st (maxStored cfg) = ({ st with model := syncFileLen st.model },
      serialize (syncFileLen st.model) (maxStored cfg)) := by
    rw [listenerSerialize, if_neg (by simp [hst.initialized])]
  constructor
  · rintro ⟨bytes, -, hread⟩
    obtain ⟨data, haccept, -, hnlen, -⟩ := hread .reset
    have hcaptured := captured_of_deserialize haccept
    rw [← hnlen]
    exact hcaptured.nlen_le
  · intro hnlen
    have hcaptured := captured_syncFileLen hst.ccLen hnlen
    have hmodel : (syncFileLen st.model).ndefFile = st.model.ndefFile ∧
        (syncFileLen st.model).cc = st.model.cc := by
      rw [syncFileLen, if_pos hnlen]
      exact ⟨rfl, rfl⟩
    have hsame : (syncFileLen st.model).nlen = st.model.nlen := by
      rw [Data.nlen, hmodel.1, Data.nlen]
    have hwrite := serialize_captured hcaptured
    refine ⟨_, (congrArg Prod.snd hstored).trans hwrite, ?_⟩
    intro x
    obtain ⟨data, hread, -, hcontent⟩ := deserialize_serialize hcaptured hwrite x
    obtain ⟨hcc, hnlen, hfile⟩ :=
      (captured_of_deserialize hread).eq_of_content hcaptured hcontent
    rw [hsame] at hnlen hfile
    refine ⟨data, hread, hcc.trans hmodel.2, hnlen, ?_⟩
    rw [hnlen, ← hmodel.1]
    exact slice_message hfile

inductive Event
  | select
  | close
  | apdu (apdu : Apdu)
  | serialize (outMax : ℕ)
  | deserialize (bytes : Bytes)

def listener : Machine (State cfg) Event Unit where
  step st
    | .select => some ((onSelect st).1, ())
    | .close => some (closeFile st, ())
    | .apdu apdu => some ((onApdu st apdu).1, ())
    | .serialize outMax => some ((listenerSerialize st outMax).1, ())
    | .deserialize bytes => some ((listenerDeserialize st bytes).1, ())

def State.Updates (st : State cfg) (apdu : Apdu) : Prop :=
  apdu.cla = 0x00 ∧ apdu.ins = 0xD6 ∧ st.fileSel = .ndef ∧ st.writable = true ∧
    apdu.lc ≠ 0 ∧ binaryOffset apdu + apdu.lc ≤ cfg.fileSize

instance (st : State cfg) (apdu : Apdu) : Decidable (st.Updates apdu) :=
  inferInstanceAs (Decidable (_ ∧ _))

def State.updatedByte (st : State cfg) (apdu : Apdu) (i : ℕ) : UInt8 :=
  if binaryOffset apdu ≤ i ∧ i < binaryOffset apdu + apdu.lc then
    byteAt apdu.data (i - binaryOffset apdu)
  else byteAt st.model.ndefFile.toList i

def storedFile (bytes : Bytes) : Bytes :=
  (bytes.drop (1 + ccSize)).take (UInt16.ofNat (bytes.length - 1 - ccSize)).toNat

/-- The length field that an event leaves in the file. A stored card with too long a file is
refused once the file has been cleared. -/
def State.fieldAfter (st : State cfg) : Event → UInt16
  | .apdu apdu =>
    if st.Updates apdu then be16 (st.updatedByte apdu 0) (st.updatedByte apdu 1)
    else st.model.nlen
  | .deserialize bytes =>
    if bytes.length < 1 + ccSize + nlenFieldLen ∨ byteAt bytes 0 ≠ formatVersion then
      st.model.nlen
    else if cfg.fileSize < (UInt16.ofNat (bytes.length - 1 - ccSize)).toNat then 0
    else be16 (byteAt (storedFile bytes) 0) (byteAt (storedFile bytes) 1)
  | _ => st.model.nlen

def State.LengthKept (st : State cfg) (e : Event) : Prop := (st.fieldAfter e).toNat ≤ cfg.maxSize

theorem handleUpdateBinary_model (st : State cfg) {apdu : Apdu} (hcla : apdu.cla = 0x00)
    (hins : apdu.ins = 0xD6) :
    (handleUpdateBinary st apdu).1.model =
      if st.Updates apdu then
        { st.model with ndefFile := st.model.ndefFile.write (binaryOffset apdu) apdu.data }
      else st.model := by
  unfold handleUpdateBinary
  by_cases hsel : st.fileSel = .none
  · rw [if_pos hsel, if_neg (by rintro ⟨-, -, h, -⟩; rw [hsel] at h; cases h)]
  rw [if_neg hsel]
  by_cases hrefuse : st.fileSel = .cc ∨ ¬ st.writable
  · rw [if_pos hrefuse, if_neg]
    rintro ⟨-, -, hndef, hwritable, -⟩
    rcases hrefuse with hcc | hro
    · rw [hcc] at hndef
      cases hndef
    · exact hro hwritable
  rw [if_neg hrefuse]
  push Not at hrefuse
  -- what is left is the NDEF file of a writable listener
  have hndef : st.fileSel = .ndef := by
    cases hfile : st.fileSel with
    | none => exact absurd hfile hsel
    | cc => exact absurd hfile hrefuse.1
    | ndef => rfl
  by_cases hlength : apdu.lc = 0 ∨ cfg.fileSize < binaryOffset apdu + apdu.lc
  · rw [if_pos hlength, if_neg]
    rintro ⟨-, -, -, -, hpos, hfit⟩
    rcases hlength with hzero | hlong
    · exact hpos hzero
    · omega
  · rw [if_neg hlength, if_pos]
    push Not at hlength
    exact ⟨hcla, hins, hndef, hrefuse.2, hlength.1, hlength.2⟩

theorem onApdu_model (st : State cfg) (apdu : Apdu) :
    (onApdu st apdu).1.model =
      if st.Updates apdu then
        { st.model with ndefFile := st.model.ndefFile.write (binaryOffset apdu) apdu.data }
      else st.model := by
  unfold onApdu
  by_cases hcla : apdu.cla = 0x00
  · rw [if_neg (not_not.mpr hcla)]
    by_cases hupdate : apdu.ins = 0xD6
    · rw [if_neg (by rw [hupdate]; decide), if_neg (by rw [hupdate]; decide), if_pos hupdate]
      exact handleUpdateBinary_model st hcla hupdate
    · have hno : ¬ st.Updates apdu := fun h => hupdate h.2.1
      by_cases hselect : apdu.ins = 0xA4
      · rw [if_pos hselect]
        unfold handleSelectFile
        split_ifs <;> rfl
      · rw [if_neg hselect]
        split_ifs <;> rfl
  · have hno : ¬ st.Updates apdu := fun h => hcla h.1
    rw [if_pos hcla, if_neg hno]

theorem nlen_deserialize (x : Data cfg) {bytes : Bytes}
    (hhead : ¬ (bytes.length < 1 + ccSize + nlenFieldLen ∨ byteAt bytes 0 ≠ formatVersion)) :
    (deserialize x bytes).1.nlen =
      if cfg.fileSize < (UInt16.ofNat (bytes.length - 1 - ccSize)).toNat then 0
      else be16 (byteAt (storedFile bytes) 0) (byteAt (storedFile bytes) 1) := by
  unfold deserialize
  rw [if_neg hhead]
  have hclear : ∀ i < cfg.fileSize,
      byteAt (Data.reset : Data cfg).ndefFile.toList i = 0 := by
    intro i hi
    simp [byteAt, Data.reset, CArray.fill, hi]
  have hsize : cfg.fileSize = 2 + cfg.maxSize := rfl
  by_cases hlong : cfg.fileSize < (UInt16.ofNat (bytes.length - 1 - ccSize)).toNat
  · -- refused with the file cleared, so the field is 0
    rw [if_pos hlong, if_pos hlong, Data.nlen]
    rw [hclear 0 (by omega), hclear 1 (by omega)]
    rfl
  · rw [if_neg hlong, if_neg hlong]
    have hfit : 0 + (storedFile bytes).length ≤ cfg.fileSize := by
      have := List.length_take_le (UInt16.ofNat (bytes.length - 1 - ccSize)).toNat
        (bytes.drop (1 + ccSize))
      rw [storedFile]
      omega
    have hbyte : ∀ i < 2, byteAt ((Data.reset : Data cfg).ndefFile.write 0
        (storedFile bytes)).toList i = byteAt (storedFile bytes) i := by
      intro i hi
      rw [byteAt_write _ hfit]
      by_cases hin : i < (storedFile bytes).length
      · rw [if_pos (by omega), Nat.sub_zero]
      · rw [hclear i (by omega)]
        simp [byteAt, hin]
    show be16 (byteAt ((Data.reset : Data cfg).ndefFile.write 0 (storedFile bytes)).toList 0)
      (byteAt ((Data.reset : Data cfg).ndefFile.write 0 (storedFile bytes)).toList 1) = _
    rw [hbyte 0 (by omega), hbyte 1 (by omega)]

theorem adoptModel_eq (writable : Bool) (data : Data cfg) :
    adoptModel writable data = padNdefFile (data.withCc writable) := rfl

theorem ccLen_deserialize {x : Data cfg} (hx : x.ccLen.toNat = ccSize) (bytes : Bytes) :
    (deserialize x bytes).1.ccLen.toNat = ccSize := by
  simp only [deserialize]
  split_ifs
  · exact hx
  · rfl
  · rfl

theorem listenerDeserialize_model (hst : st.Running) (bytes : Bytes) :
    (listenerDeserialize st bytes).1.Running ∧
      (listenerDeserialize st bytes).1.model.nlen = st.fieldAfter (.deserialize bytes) := by
  have hfield : (deserialize st.model bytes).1.nlen = st.fieldAfter (.deserialize bytes) := by
    by_cases hhead : bytes.length < 1 + ccSize + nlenFieldLen ∨ byteAt bytes 0 ≠ formatVersion
    · rw [State.fieldAfter, if_pos hhead, deserialize, if_pos hhead]
    · rw [State.fieldAfter, if_neg hhead]
      exact nlen_deserialize st.model hhead
  have hcc := ccLen_deserialize hst.ccLen bytes
  rw [listenerDeserialize, if_neg (by simp [hst.initialized])]
  rcases hr : deserialize st.model bytes with ⟨data, ret⟩
  rw [hr] at hfield hcc
  cases ret with
  | error e => exact ⟨⟨hst.initialized, hcc⟩, hfield⟩
  | ok u =>
    have hcaptured := captured_of_deserialize hr
    have hwith : (data.withCc st.writable).nlen = data.nlen ∧
        (data.withCc st.writable).ccLen.toNat = ccSize := by
      unfold Data.withCc
      split_ifs
      · exact ⟨rfl, rfl⟩
      · exact ⟨rfl, hcc⟩
    refine ⟨⟨hst.initialized, hwith.2⟩, ?_⟩
    show (adoptModel st.writable data).nlen = _
    rw [adoptModel_eq, (hcaptured.withCc st.writable).nlen_padNdefFile, hwith.1]
    exact hfield

theorem listener_step {st' : State cfg} {e : Event} {o : Unit} (hst : st.Running)
    (h : listener.step st e = some (st', o)) : st'.Running ∧ st'.model.nlen = st.fieldAfter e := by
  cases e with
  | select =>
    cases h
    exact ⟨⟨hst.initialized, hst.ccLen⟩, rfl⟩
  | close =>
    cases h
    exact ⟨⟨hst.initialized, hst.ccLen⟩, rfl⟩
  | apdu apdu =>
    cases h
    have hmodel := onApdu_model st apdu
    have hinit : (onApdu st apdu).1.initialized = st.initialized := by
      simp only [onApdu, handleSelectFile, handleUpdateBinary]
      split_ifs <;> rfl
    by_cases hup : st.Updates apdu
    · rw [if_pos hup] at hmodel
      refine ⟨⟨hinit.trans hst.initialized, by rw [hmodel]; exact hst.ccLen⟩, ?_⟩
      have hfit : binaryOffset apdu + apdu.data.length ≤ cfg.fileSize := hup.2.2.2.2.2
      rw [hmodel, State.fieldAfter, if_pos hup, Data.nlen, byteAt_write _ hfit, byteAt_write _ hfit]
      rfl
    · rw [if_neg hup] at hmodel
      refine ⟨⟨hinit.trans hst.initialized, by rw [hmodel]; exact hst.ccLen⟩, ?_⟩
      rw [hmodel, State.fieldAfter, if_neg hup]
  | serialize outMax =>
    cases h
    have hmodel : (syncFileLen st.model).nlen = st.model.nlen ∧
        (syncFileLen st.model).ccLen = st.model.ccLen := by
      unfold syncFileLen
      split_ifs <;> exact ⟨rfl, rfl⟩
    rw [listenerSerialize, if_neg (by simp [hst.initialized])]
    exact ⟨⟨hst.initialized, (congrArg _ hmodel.2).trans hst.ccLen⟩, hmodel.1⟩
  | deserialize bytes =>
    cases h
    exact listenerDeserialize_model hst bytes

theorem running_listenerInit (hst : st.initialized = false)
    (model : Option (Data cfg)) (writable : Bool) :
    (listenerInit st model writable).1 =
        ⟨initModel writable model, writable, true, .none⟩ ∧
      (listenerInit st model writable).1.Running := by
  have hinit : (listenerInit st model writable).1 =
      ⟨initModel writable model, writable, true, .none⟩ := by
    rw [listenerInit, if_neg (by simp [hst])]
  refine ⟨hinit, ?_⟩
  rw [hinit]
  refine ⟨rfl, ?_⟩
  simp only [initModel, padNdefFile]
  split_ifs with hcc
  · exact hcc
  · rfl

/-- After `ndef_listener_init` the listener's card can be stored and read again in every state
that commands, storing and loading lead to, if and only if its length field is at most the
maximum at the start and every event leaves it so. -/
theorem persistable_always_iff (st : State cfg) (hst : st.initialized = false)
    (model : Option (Data cfg)) (writable : Bool) (es : List Event) :
    ((listenerInit st model writable).1.Persistable ∧
        listener.Always (fun _ _ out => ∀ st' o, out = some (st', o) → st'.Persistable)
          (listenerInit st model writable).1 es) ↔
      (initModel writable model).nlen.toNat ≤ cfg.maxSize ∧
        listener.Always (fun st e _ => st.LengthKept e) (listenerInit st model writable).1 es := by
  obtain ⟨hinit, hrunning⟩ := running_listenerInit hst model writable
  have hstep : ∀ (s : State cfg) (e : Event), s.Running →
      ((∀ st' o, listener.step s e = some (st', o) → st'.Persistable) ↔ s.LengthKept e) := by
    intro s e hs
    obtain ⟨s', o, hnext⟩ : ∃ s' o, listener.step s e = some (s', o) := by
      cases e <;> exact ⟨_, _, rfl⟩
    obtain ⟨hs', hfield⟩ := listener_step hs hnext
    rw [State.LengthKept, ← hfield, ← hs'.persistable_iff, hnext]
    constructor
    · intro hall
      exact hall s' o rfl
    · rintro hp _ _ ⟨⟩
      exact hp
  have hruns : listener.Always (fun _ _ out => ∀ st' o, out = some (st', o) → st'.Persistable)
      (listenerInit st model writable).1 es ↔
      listener.Always (fun st e _ => st.LengthKept e) (listenerInit st model writable).1 es :=
    listener.always_iff (I := State.Running) hstep
      (fun s e s' o hs _ hnext => (listener_step hs hnext).1) hrunning
  rw [hrunning.persistable_iff, hruns, hinit]

def updateLength (hi lo : UInt8) : Apdu :=
  { cla := 0x00, ins := 0xD6, p1 := 0, p2 := 0, data := [hi, lo], le := 0, hasLe := false,
    extended := false }

def selectNdefFile : Apdu :=
  { cla := 0x00, ins := 0xA4, p1 := 0, p2 := 0x0C, data := [0xE1, 0x04], le := 0, hasLe := false,
    extended := false }

def emptyListener : State .default := (listenerInit .boot none true).1

instance (st : State cfg) (e : Event) : Decidable (st.LengthKept e) :=
  inferInstanceAs (Decidable (_ ≤ _))

theorem persistable_after_update : (State.boot : State .default).initialized = false ∧
      emptyListener.Persistable ∧
      listener.Always (fun _ _ out => ∀ st' o, out = some (st', o) → st'.Persistable)
        emptyListener [.select, .apdu selectNdefFile, .apdu (updateLength 0x00 0x05)] :=
  ⟨rfl, (persistable_always_iff .boot rfl none true _).mpr ⟨by decide +kernel, by decide +kernel⟩⟩

theorem length_beyond_maximum : ∃ st o bytes, listener.run emptyListener
        [.select, .apdu selectNdefFile, .apdu (updateLength 0xFF 0xFF)] = some (st, o) ∧
      (listenerSerialize st (maxStored .default)).2 = .ok bytes ∧
      (deserialize .reset bytes : Data .default × Ret).2 = .error .ebadmsg := by
  refine ⟨_, _, _, rfl, rfl, ?_⟩
  decide +kernel

end NfcStack.Ndef
