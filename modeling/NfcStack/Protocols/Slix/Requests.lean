import NfcStack.Protocols.Slix.Listener

/-!
# What a SLIX listener is asked for

The custom commands skip the UID of an addressed frame, those that are handed to the ISO15693-3 listener
compare it. `State.request` names what a frame asks for.
-/

namespace NfcStack.Slix

open List Option CArray

open Iso15693 (listenerSend crcTrim crcCheck crcSize listenerBufSize commandData uidReversed)

inductive Part
  | inventory | sysInfo
  | readBlock (block : UInt8)
  | blocksSecurity (first last : UInt8)
  | nxpSysinfo | signature | random
deriving DecidableEq, Repr

inductive Request
  | send (part : Part)
  | setPassword (data : Bytes)
deriving DecidableEq, Repr

def Part.TooLong (card : Iso15693.Data) : Part → Prop
  | .readBlock block =>
    block.toNat < card.blockCount.toNat ∧ 253 < card.blockSize.toNat ∧
      (card.blockData.read? (block.toNat * card.blockSize.toNat) card.blockSize.toNat).isSome
  | _ => False

instance (card : Iso15693.Data) (part : Part) : Decidable (part.TooLong card) :=
  match part with
  | .readBlock _ => inferInstanceAs (Decidable (_ ∧ _))
  | .inventory | .sysInfo | .blocksSecurity _ _ | .nxpSysinfo | .signature | .random =>
    inferInstanceAs (Decidable False)

variable (command : UInt8)

def standardPart (data : Bytes) : Option Part :=
  if command = 0x01 then some .inventory
  else if command = 0x2B then if data.length = 0 then some .sysInfo else none
  else if command = 0x20 then
    if data.length < 1 then none else some (.readBlock (byteAt data 0))
  else if command = 0x2C then
    if data.length < 2 then none else some (.blocksSecurity (byteAt data 0) (byteAt data 1))
  else none

def standardRequest (card : Iso15693.Data) (command : UInt8) (data : Bytes) : Option Request :=
  (standardPart command data).bind fun part =>
    if part.TooLong card then none else some (.send part)

def nxpRequest (data : Bytes) : Option Request :=
  if command = 0xAB then some (.send .nxpSysinfo)
  else if command = 0xBD then some (.send .signature)
  else if command = 0xB2 then some (.send .random)
  else if command = 0xB3 then some (.setPassword data)
  else none

def customRequest (addressed : Bool) : Bytes → Option Request
  | [] => none
  | mfg :: data =>
    if mfg ≠ nxpMfgCode ∨ addressed ∧ data.length < 8 then none
    -- the UID is skipped, whichever it is
    else nxpRequest command (if addressed then data.drop 8 else data)

def isAddressed (flags : UInt8) : Bool :=
  flags &&& (0x20 : UInt8) ≠ 0 ∧ flags &&& (0x04 : UInt8) = 0

variable (model : Data)

def Data.request : Bytes → Option Request
  | flags :: command :: data =>
    if isSlixCustom command then customRequest command (isAddressed flags) data
    -- privacy mode is looked at for the inventory only
    else if model.privacyMode ≠ 0 ∧ command = 0x01 then none
    else (commandData model.parent flags data).bind (standardRequest model.parent command)
  | _ => none

def Taken (tx : Bytes) : Prop :=
  1 + crcSize ≤ tx.length ∧ crcCheck tx = true ∧ tx.length ≤ listenerBufSize

instance (tx : Bytes) : Decidable (Taken tx) := inferInstanceAs (Decidable (_ ∧ _))

variable (st : State)

def State.request (tx : Bytes) : Option Request :=
  if st.initialized ∧ Taken tx then st.model.request (crcTrim tx) else none

def cardRandom : UInt16 := 0x1234 + (byteAt model.parent.uid.toList 7).toUInt16

def Part.payload : Part → Option Bytes
  | .inventory => some (Iso15693.handleInventory model.parent)
  | .sysInfo => some (Iso15693.handleGetSysInfo model.parent)
  | .readBlock block => Iso15693.handleReadBlock model.parent block
  | .blocksSecurity first last => Iso15693.handleGetBlocksSecurity model.parent first last
  | .nxpSysinfo => some (handleGetNxpSysinfo model)
  | .signature => some (0 :: model.signature.toList)
  | .random => some [0, (cardRandom model).toUInt8, (cardRandom model >>> 8).toUInt8]

def State.sent : Part → State
  | .random => { st with random := cardRandom st.model }
  | _ => st

theorem State.sent_model (part : Part) : (st.sent part).model = st.model := by
  cases part <;> rfl

def Request.respond : Request → Option (State × Option Bytes)
  | .send part => (part.payload st.model).map fun payload => (st.sent part, some payload)
  | .setPassword data => some (handleSetPassword st data)

def Request.answer (r : Request) : Option (State × Option Bytes) :=
  (r.respond st).map fun p => (p.1, p.2.bind listenerSend)

variable {part : Part} {model : Data}

theorem payload_tooLong (h : part.TooLong model.parent) :
    ∃ payload, part.payload model = some payload ∧ listenerSend payload = none := by
  cases part with
  | readBlock block =>
    obtain ⟨hblock, hsize, hread⟩ := h
    obtain ⟨bytes, hbytes⟩ := isSome_iff_exists.mp hread
    have hlen : bytes.length = model.parent.blockSize.toNat := by
      obtain ⟨hend, rfl⟩ := (read?_eq_some_iff _ _ _ _).mp hbytes
      exact length_slice _ hend
    refine ⟨0 :: bytes, ?_, ?_⟩
    · rw [Part.payload, Iso15693.handleReadBlock, if_neg (by omega), hbytes]
      rfl
    · rw [listenerSend, if_pos]
      rw [length_cons, listenerBufSize, crcSize]
      omega
  | _ => cases h

theorem iso15693_handleCommand_eq (model : Data) (command : UInt8) (data : Bytes) :
    Iso15693.handleCommand model.parent command data =
      (standardPart command data).elim (some none) fun part =>
        (part.payload model).map some := by
  -- both sides go through the commands in the same order
  unfold Iso15693.handleCommand standardPart
  by_cases hinv : command = 0x01
  · rw [if_pos hinv, if_pos hinv]
    rfl
  rw [if_neg hinv, if_neg hinv]
  by_cases hsys : command = 0x2B
  · rw [if_pos hsys, if_pos hsys]
    by_cases hdata : data.length = 0
    · rw [if_pos hdata, if_pos hdata]
      rfl
    · rw [if_neg hdata, if_neg hdata]
      rfl
  rw [if_neg hsys, if_neg hsys]
  by_cases hread : command = 0x20
  · rw [if_pos hread, if_pos hread]
    by_cases hdata : data.length < 1
    · rw [if_pos hdata, if_pos hdata]
      rfl
    · rw [if_neg hdata, if_neg hdata]
      rfl
  rw [if_neg hread, if_neg hread]
  by_cases hsec : command = 0x2C
  · rw [if_pos hsec, if_pos hsec]
    by_cases hdata : data.length < 2
    · rw [if_pos hdata, if_pos hdata]
      rfl
    · rw [if_neg hdata, if_neg hdata]
      rfl
  · rw [if_neg hsec, if_neg hsec]
    rfl

variable {data : Bytes} {command : UInt8}

theorem sent_of_standardPart (h : standardPart command data = some part) : st.sent part = st := by
  unfold standardPart at h
  split_ifs at h <;> cases h <;> rfl

theorem handleCommand_eq (command : UInt8) (data : Bytes) :
    ((Iso15693.handleCommand st.model.parent command data).map (·.bind listenerSend)).map (st, ·) =
      (standardRequest st.model.parent command data).elim (some (st, none)) (·.answer st) := by
  rw [iso15693_handleCommand_eq, standardRequest]
  cases hpart : standardPart command data with
  | none => rfl
  | some part =>
    rw [elim_some, bind_some]
    by_cases hlong : part.TooLong st.model.parent
    · obtain ⟨payload, hpayload, hsend⟩ := payload_tooLong hlong
      rw [if_pos hlong, hpayload]
      simp [hsend]
    · rw [if_neg hlong]
      simp only [Request.answer, Request.respond, sent_of_standardPart st hpart, Option.map_map,
        Option.elim_some]
      rfl

theorem handleCustom_eq (command : UInt8) (addressed : Bool) (data : Bytes) :
    some (handleCustom st command addressed data) =
      (customRequest command addressed data).elim (some (st, none)) (·.answer st) := by
  cases data with
  | nil => rfl
  | cons mfg data =>
    simp only [handleCustom, customRequest]
    by_cases hskip : mfg ≠ nxpMfgCode ∨ addressed ∧ data.length < 8
    · rw [if_pos hskip, if_pos hskip]
      rfl
    · rw [if_neg hskip]
      -- from here on both see the data behind the UID only
      unfold handleCommand nxpRequest
      split_ifs <;> rfl

variable {tx : Bytes} {flags : UInt8}

theorem iso15693_onTagCmd_eq (card : Iso15693.Data)
    (htaken : Taken tx) (htrim : crcTrim tx = flags :: command :: data) :
    Iso15693.onTagCmd (Iso15693.State.boot.listenerInit (some card)) tx =
      (commandData card flags data).elim (some none) fun data =>
        (Iso15693.handleCommand card command data).map (·.bind listenerSend) := by
  obtain ⟨hlen, hcrc, hbuf⟩ := htaken
  have hinit : (Iso15693.State.boot.listenerInit (some card)).initialized = true := rfl
  have hmodel : (Iso15693.State.boot.listenerInit (some card)).model = card := rfl
  rw [Iso15693.onTagCmd, if_neg (by simp [hinit, hcrc]; omega), htrim]
  simp only [hmodel]
  cases commandData card flags data with
  | none => rfl
  | some data => rfl

theorem onTagCmd_eq (tx : Bytes) :
    onTagCmd st tx = (st.request tx).elim (some (st, none)) (·.answer st) := by
  unfold onTagCmd State.request
  by_cases htaken : st.initialized ∧ Taken tx
  · obtain ⟨hinit, htx⟩ := htaken
    have hlen := htx.1
    have hbuf := htx.2.2
    rw [if_neg (by simp [hinit, htx.2.1]; omega), if_pos ⟨hinit, htx⟩]
    match htrim : crcTrim tx with
    | [] => rfl
    | [_] => rfl
    | flags :: command :: data =>
      simp only [Data.request]
      by_cases hcustom : isSlixCustom command
      · rw [if_pos hcustom, if_pos hcustom]
        exact handleCustom_eq st command (isAddressed flags) data
      rw [if_neg hcustom, if_neg hcustom]
      by_cases hhidden : st.model.privacyMode ≠ 0 ∧ command = 0x01
      · rw [if_pos hhidden, if_pos hhidden]
        rfl
      rw [if_neg hhidden, if_neg hhidden, iso15693_onTagCmd_eq _ htx htrim]
      cases commandData st.model.parent flags data with
      | none => rfl
      | some data => exact handleCommand_eq st command data
  · -- one of the four tests at the start of the listener fails
    rw [if_neg htaken, if_pos]
    · rfl
    · by_contra hall
      apply htaken
      simp only [not_or, not_not, not_lt] at hall
      exact ⟨hall.1, hall.2.1, hall.2.2.1, hall.2.2.2⟩

variable {payload : Bytes}

theorem listenerSend_of_le (h : payload.length ≤ 254) :
    listenerSend payload = some (Framing.crcFrame Iso15693.crc16 payload) := by
  rw [listenerSend, if_neg (by rw [listenerBufSize, crcSize]; omega),
    Iso15693.crcAppend_of_le (by rw [listenerBufSize]; omega)]

theorem length_payload_le (hlong : ¬ part.TooLong model.parent)
    (h : part.payload model = some payload) : payload.length ≤ 254 := by
  cases part with
  | inventory =>
    cases h
    simp [Iso15693.handleInventory, Iso15693.uidReversed]
  | sysInfo =>
    cases h
    simp [Iso15693.handleGetSysInfo]
  | readBlock block =>
    rw [Part.payload, Iso15693.handleReadBlock] at h
    split_ifs at h with hout
    · cases h
      decide
    · obtain ⟨bytes, hbytes, rfl⟩ := map_eq_some_iff.mp h
      -- a longer block would be `TooLong`
      have hsize : model.parent.blockSize.toNat ≤ 253 := by
        by_contra hbig
        exact hlong ⟨by omega, by omega, isSome_iff_exists.mpr ⟨bytes, hbytes⟩⟩
      obtain ⟨hend, rfl⟩ := (read?_eq_some_iff _ _ _ _).mp hbytes
      rw [length_cons, length_slice _ hend]
      omega
  | blocksSecurity first last =>
    rw [Part.payload, Iso15693.handleGetBlocksSecurity] at h
    split_ifs at h
    · cases h
      decide
    · obtain ⟨bytes, hbytes, rfl⟩ := map_eq_some_iff.mp h
      obtain ⟨hend, rfl⟩ := (read?_eq_some_iff _ _ _ _).mp hbytes
      rw [length_cons, length_slice _ hend]
      rw [Iso15693.blocksMax] at hend
      omega
  | nxpSysinfo =>
    cases h
    simp [handleGetNxpSysinfo]
  | signature =>
    cases h
    simp
  | random =>
    cases h
    simp

variable {st : State}

theorem answer_send (hlong : ¬ part.TooLong st.model.parent) :
    (Request.send part).answer st = (part.payload st.model).map fun payload =>
      (st.sent part, some (Framing.crcFrame Iso15693.crc16 payload)) := by
  rw [Request.answer, Request.respond]
  cases hpayload : part.payload st.model with
  | none => rfl
  | some payload =>
    simp [listenerSend_of_le (length_payload_le hlong hpayload)]

def fromUid (command : UInt8) (data : Bytes) : Bytes :=
  if isSlixCustom command then data.drop 1 else data

def frameUid : Bytes → Option Bytes
  | flags :: command :: data =>
    if isAddressed flags ∧ 8 ≤ (fromUid command data).length then
      some ((fromUid command data).take 8)
    else none
  | _ => none

def Foreign (model : Data) (tx : Bytes) : Prop :=
  crcCheck tx = true ∧ ∃ uid, frameUid (crcTrim tx) = some uid ∧ uid ≠ uidReversed model.parent.uid

def State.Accepts (st : State) (data : Bytes) (type : PasswordType) : Prop :=
  1 + passwordSize ≤ data.length ∧ passwordTypeFromId (byteAt data 0) = some type ∧
    checkPassword st.model type (unxorPassword ((data.drop 1).take passwordSize) st.random) = true

instance (st : State) (data : Bytes) (type : PasswordType) : Decidable (st.Accepts data type) :=
  inferInstanceAs (Decidable (_ ∧ _))

def State.CarriesOut (st : State) (tx : Bytes) : Prop :=
  st.initialized = true ∧ Taken tx ∧ ∃ flags command data,
    crcTrim tx = flags :: command :: nxpMfgCode :: data ∧
    (command = 0xAB ∨ command = 0xBD ∨ command = 0xB2 ∨
      command = 0xB3 ∧ ∃ type, st.Accepts (data.drop 8) type)

theorem handleSetPassword_of_accepts {type : PasswordType}
    (h : st.Accepts data type) : handleSetPassword st data = (st.accept type, some [0]) := by
  obtain ⟨hlen, htype, hcheck⟩ := h
  rw [handleSetPassword, if_neg (by omega), htype]
  simp only [hcheck, not_true, if_false]

theorem handleSetPassword_of_refused
    (h : ∀ type, ¬ st.Accepts data type) : handleSetPassword st data = (st, none) := by
  unfold handleSetPassword
  by_cases hlen : data.length < 1 + passwordSize
  · exact if_pos hlen
  rw [if_neg hlen]
  cases htype : passwordTypeFromId (byteAt data 0) with
  | none => rfl
  | some type =>
    apply if_pos
    intro hcheck
    exact h type ⟨by omega, htype, hcheck⟩

theorem sent_ne_silent (st st' : State) (h : payload.length ≤ 254) :
    some (st', (some payload).bind listenerSend) ≠ some (st, none) := by
  rw [bind_some, listenerSend_of_le h]
  simp

theorem nxpAnswer_eq_iff (st : State) (command : UInt8) (data : Bytes) :
    (nxpRequest command data).elim (some (st, none)) (·.answer st) = some (st, none) ↔
      ¬ (command = 0xAB ∨ command = 0xBD ∨ command = 0xB2 ∨
        command = 0xB3 ∧ ∃ type, st.Accepts data type) := by
  unfold nxpRequest
  by_cases hinfo : command = 0xAB
  · rw [if_pos hinfo]
    refine iff_of_false ?_ (not_not.mpr (Or.inl hinfo))
    have hlen : (handleGetNxpSysinfo st.model).length ≤ 254 := by simp [handleGetNxpSysinfo]
    exact sent_ne_silent st st hlen
  rw [if_neg hinfo]
  by_cases hsig : command = 0xBD
  · rw [if_pos hsig]
    refine iff_of_false ?_ (not_not.mpr (Or.inr (Or.inl hsig)))
    exact sent_ne_silent st st (by simp)
  rw [if_neg hsig]
  by_cases hrandom : command = 0xB2
  · rw [if_pos hrandom]
    refine iff_of_false ?_ (not_not.mpr (Or.inr (Or.inr (Or.inl hrandom))))
    exact sent_ne_silent st _ (by simp)
  rw [if_neg hrandom]
  by_cases hset : command = 0xB3
  · rw [if_pos hset]
    show some ((handleSetPassword st data).1, (handleSetPassword st data).2.bind listenerSend) =
      some (st, none) ↔ _
    -- only an accepted password is answered
    by_cases haccepts : ∃ type, st.Accepts data type
    · refine iff_of_false ?_ (not_not.mpr (Or.inr (Or.inr (Or.inr ⟨hset, haccepts⟩))))
      obtain ⟨type, htype⟩ := haccepts
      rw [handleSetPassword_of_accepts htype]
      exact sent_ne_silent st _ (by simp)
    · refine iff_of_true ?_ (by simp [hinfo, hsig, hrandom, haccepts])
      rw [handleSetPassword_of_refused (not_exists.mp haccepts)]
      rfl
  · rw [if_neg hset]
    exact iff_of_true rfl (by simp [hinfo, hsig, hrandom, hset])

theorem commandData_foreign {card : Iso15693.Data} (haddressed : isAddressed flags = true)
    (hother : data.take 8 ≠ uidReversed card.uid) : commandData card flags data = none := by
  simp only [isAddressed, decide_eq_true_eq] at haddressed
  rw [commandData, if_pos ⟨haddressed.2, haddressed.1⟩, if_pos (Or.inr hother)]

theorem customAnswer_eq_iff (st : State) (hlen : 8 ≤ (data.drop 1).length) :
    (customRequest command true data).elim (some (st, none)) (·.answer st) = some (st, none) ↔
      ¬ ∃ rest, data = nxpMfgCode :: rest ∧ (command = 0xAB ∨ command = 0xBD ∨ command = 0xB2 ∨
        command = 0xB3 ∧ ∃ type, st.Accepts (rest.drop 8) type) := by
  cases data with
  | nil => simp at hlen
  | cons mfg rest =>
    simp only [drop_succ_cons, drop_zero] at hlen
    simp only [customRequest, true_and, if_true]
    by_cases hmfg : mfg = nxpMfgCode
    · rw [if_neg (by simp [hmfg]; omega), nxpAnswer_eq_iff]
      simp [hmfg]
    · rw [if_pos (Or.inl hmfg)]
      exact iff_of_true rfl (by simp [hmfg])

theorem onTagCmd_foreign_iff (hforeign : Foreign st.model tx) :
    onTagCmd st tx = some (st, none) ↔ ¬ st.CarriesOut tx := by
  obtain ⟨-, uid, huid, hother⟩ := hforeign
  rw [onTagCmd_eq, State.request]
  by_cases htaken : st.initialized ∧ Taken tx
  · rw [if_pos htaken]
    match htrim : crcTrim tx, huid with
    | flags :: command :: data, huid =>
      simp only [frameUid, ite_none_right_eq_some, some.injEq] at huid
      obtain ⟨⟨haddressed, hlen⟩, rfl⟩ := huid
      simp only [State.CarriesOut, htaken.1, htaken.2, htrim, true_and, List.cons.injEq,
        Data.request]
      by_cases hcustom : isSlixCustom command
      · -- the UID stands behind the code of the manufacturer and is skipped
        rw [fromUid, if_pos hcustom] at hlen
        rw [if_pos hcustom, haddressed, customAnswer_eq_iff st hlen]
        apply not_congr
        constructor
        · rintro ⟨rest, rfl, hcommand⟩
          exact ⟨flags, command, rest, ⟨rfl, rfl, rfl⟩, hcommand⟩
        · rintro ⟨_, _, rest, ⟨rfl, rfl, rfl⟩, hcommand⟩
          exact ⟨rest, rfl, hcommand⟩
      · -- the ISO15693-3 listener compares the UID
        rw [fromUid, if_neg hcustom] at hother
        rw [if_neg hcustom, commandData_foreign haddressed hother, bind_none, ite_self]
        refine iff_of_true rfl ?_
        rintro ⟨_, _, rest, ⟨rfl, rfl, rfl⟩, hcommand⟩
        apply hcustom
        rcases hcommand with rfl | rfl | rfl | ⟨rfl, -⟩ <;> decide
  · rw [if_neg htaken]
    exact iff_of_true rfl fun h => htaken ⟨h.1, h.2.1⟩

inductive Event
  | init (model : Option Data)
  | shutdown
  | deserialize (bytes : Bytes)
  | command (tx : Bytes)

def listener : Machine State Event (Option Bytes) where
  step st
    | .init model => some (listenerInit st model, none)
    | .shutdown => some (listenerShutdown st, none)
    | .deserialize bytes => some ((listenerDeserialize st bytes).1, none)
    | .command tx => onTagCmd st tx

def IgnoresForeign (st : State) (e : Event) (out : Option (State × Option Bytes)) : Prop :=
  ∀ tx, e = .command tx → Foreign st.model tx → out = some (st, none)

/-- In every run from boot the frames for other cards are ignored exactly if none of them is a
custom command that is carried out. -/
theorem ignores_foreign_iff (es : List Event) :
    listener.Always IgnoresForeign State.boot es ↔
      listener.Always (fun st e _ => ∀ tx, e = .command tx → Foreign st.model tx →
        ¬ st.CarriesOut tx) State.boot es := by
  apply listener.always_iff (I := fun _ => True) ?_ (fun _ _ _ _ _ _ _ => True.intro) True.intro
  intro st e _
  constructor
  · rintro h tx rfl hforeign
    exact (onTagCmd_foreign_iff hforeign).mp (h tx rfl hforeign)
  · rintro h tx rfl hforeign
    exact (onTagCmd_foreign_iff hforeign).mpr (h tx rfl hforeign)

def privateCard : Data := { Data.reset with privacyMode := 1 }

def foreignUnlock : Bytes :=
  Framing.crcFrame Iso15693.crc16
    ([0x22, 0xB3, nxpMfgCode] ++ List.replicate 8 0xFF ++ [0x04, 0, 0, 0, 0])

theorem foreign_unlock_answered : Foreign privateCard foreignUnlock ∧
      (onTagCmd (listenerInit .boot (some privateCard)) foreignUnlock).map
        (fun r => (r.1.model.privacyMode, r.2)) =
          some (0, some (Framing.crcFrame Iso15693.crc16 [0])) ∧
      ¬ listener.Always IgnoresForeign .boot
        [.init (some privateCard), .command foreignUnlock] := by
  have hforeign : Foreign privateCard foreignUnlock := by
    refine ⟨Iso15693.crcCheck_crcFrame (by simp), List.replicate 8 0xFF, ?_, by decide⟩
    decide
  have hanswer : (onTagCmd (listenerInit .boot (some privateCard)) foreignUnlock).map
      (fun r => (r.1.model.privacyMode, r.2)) =
        some (0, some (Framing.crcFrame Iso15693.crc16 [0])) := by
    decide +kernel
  refine ⟨hforeign, hanswer, ?_⟩
  intro h
  have hsilent : ∀ st tx, IgnoresForeign st (.command tx) (listener.step st (.command tx)) →
      Foreign st.model tx → onTagCmd st tx = some (st, none) := fun _ tx hst => hst tx rfl
  rw [hsilent _ _ (h.2 _ _ rfl).1 hforeign, map_some, some.injEq, Prod.mk.injEq] at hanswer
  exact absurd hanswer.2 (some_ne_none _).symm

end NfcStack.Slix
