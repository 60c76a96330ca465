import NfcStack.Protocols.Slix.Requests

/-!
# The password exchange of SLIX

`protocols/slix/slix_poller_i.c`: the random number arrives low byte first, and both sides lay it over the
password high byte first.
-/

namespace NfcStack.Slix

open List Option NfcStack.Reader Poll UInt8
open Iso15693 (uidReversed)

def pollerPrepareRequest (uid : Option (CArray UInt8 8)) (command : UInt8) (skipUid : Bool)
    (txMax : ℕ) : Option Bytes :=
  if txMax < 3 then none
  else if skipUid then some [0x02, command, nxpMfgCode]
  else
    match uid with
    | none => none
    | some uid =>
      if txMax < 3 + 8 then none else some ([0x22, command, nxpMfgCode] ++ uidReversed uid)

variable {τ : Type} (s : Session τ)

def pollerTransceive (payload : Bytes) : Poll τ (Except Errno Bytes) := Iso15693.sendFrame s payload

def pollerGetRandomNumber : Poll τ (Except Errno UInt16) := do
  match pollerPrepareRequest none 0xB2 true 32 with
  | none => return .error .einval
  | some tx =>
    match ← pollerTransceive s tx with
    | .error e => return .error e
    | .ok rx =>
      return if rx.length < 3 then .error .eio else .ok (le16 (byteAt rx 1) (byteAt rx 2))

def passwordId (type : PasswordType) : UInt8 := 1 <<< UInt8.ofNat type.index

def xorPassword (password : Bytes) (random : UInt16) : Bytes :=
  let rnL := (random >>> 8).toUInt8
  let rnH := random.toUInt8
  List.zipWith (· ^^^ ·) password [rnH, rnL, rnH, rnL]

/-- `slix_poller_set_password`. The privacy password is sent to whatever card is in the field. -/
def pollerSetPassword (uid : Option (CArray UInt8 8)) (type : PasswordType)
    (password : CArray UInt8 passwordSize) (random : UInt16) : Poll τ Ret := do
  match pollerPrepareRequest uid 0xB3 (type = .privacy) 32 with
  | none => return .error .einval
  | some tx =>
    if 32 < tx.length + 1 + passwordSize then return .error .einval
    match ← pollerTransceive s (tx ++ [passwordId type] ++ xorPassword password.toList random) with
    | .error e => return .error e
    | .ok _ => return .ok ()

def listenerSession (silence : Errno) : Session State where
  active := true
  tag := ⟨fun st tx => (onTagCmd st tx).map fun r =>
    (r.1, match r.2 with
      | none => .error silence
      | some rx => .ok rx)⟩

variable (silence : Errno) {st st' : State}

theorem passwordTypeFromId_passwordId (type : PasswordType) :
    passwordTypeFromId (passwordId type) = some type := by
  cases type <;> decide

variable (password : CArray UInt8 passwordSize)

theorem unxorPassword_xorPassword (random : UInt16) :
    unxorPassword (xorPassword password.toList random) random = password.toList := by
  have hlen : password.toList.length = 4 := password.length_toList
  match password.toList, hlen with
  | [p0, p1, p2, p3], _ =>
    have hcancel (x y : UInt8) : x ^^^ y ^^^ y = x := by
      rw [UInt8.xor_assoc, UInt8.xor_self, UInt8.xor_zero]
    show [p0 ^^^ _ ^^^ _, p1 ^^^ _ ^^^ _, p2 ^^^ _ ^^^ _, p3 ^^^ _ ^^^ _] = _
    rw [hcancel, hcancel, hcancel, hcancel]

theorem length_xorPassword (random : UInt16) :
    (xorPassword password.toList random).length = passwordSize := by
  simp [xorPassword, passwordSize]

variable (hinit : st.initialized = true)

include hinit

theorem request_crcFrame {payload : Bytes} (hne : payload ≠ []) (hlen : payload.length ≤ 30) :
    st.request (Framing.crcFrame Iso15693.crc16 payload) = st.model.request payload := by
  have hpos := length_pos_of_ne_nil hne
  have htaken : Taken (Framing.crcFrame Iso15693.crc16 payload) := by
    refine ⟨?_, Iso15693.crcCheck_crcFrame hne, ?_⟩
    · rw [Framing.length_crcFrame, Iso15693.crcSize]
      omega
    · rw [Framing.length_crcFrame, Iso15693.listenerBufSize]
      omega
  rw [State.request, if_pos ⟨hinit, htaken⟩, Iso15693.crcTrim_crcFrame]

theorem pollerTransceive_answered {payload resp : Bytes}
    {r : Request} (hne : payload ≠ []) (hlen : payload.length ≤ 30)
    (hrequest : st.model.request payload = some r) (hrespond : r.respond st = some (st', some resp))
    (hresp : resp ≠ []) (hrlen : resp.length ≤ 253) :
    pollerTransceive (listenerSession silence) payload st = some (.ok resp, st') := by
  apply Iso15693.sendFrame_of_transceive hlen hresp
  have hanswer : onTagCmd st (Framing.crcFrame Iso15693.crc16 payload) =
      some (st', some (Framing.crcFrame Iso15693.crc16 resp)) := by
    rw [onTagCmd_eq, request_crcFrame hinit hne hlen, hrequest, elim_some, Request.answer,
      hrespond, map_some, bind_some, listenerSend_of_le (by omega)]
  apply Session.transceive_of_step rfl
  · show (onTagCmd _ _).map _ = _
    rw [hanswer]
    rfl
  · rw [Framing.length_crcFrame, maxResponseLen]
    omega

theorem pollerTransceive_silent {payload : Bytes} {r : Request}
    (hne : payload ≠ []) (hlen : payload.length ≤ 30)
    (hrequest : st.model.request payload = some r) (hrespond : r.respond st = some (st', none)) :
    pollerTransceive (listenerSession silence) payload st = some (.error silence, st') := by
  have hsilent : onTagCmd st (Framing.crcFrame Iso15693.crc16 payload) = some (st', none) := by
    rw [onTagCmd_eq, request_crcFrame hinit hne hlen, hrequest, elim_some, Request.answer, hrespond]
    rfl
  have htransceive : (listenerSession silence).transceive maxResponseLen
      (Framing.crcFrame Iso15693.crc16 payload) st = some (.error silence, st') := by
    simp only [Session.transceive, listenerSession, if_true, hsilent, map_some]
  rw [pollerTransceive, Iso15693.sendFrame, Iso15693.crcAppend_of_le (by
    rw [Iso15693.txMax]
    omega)]
  simp only
  rw [bind_of_eq htransceive]
  rfl

theorem pollerGetRandomNumber_eq : pollerGetRandomNumber (listenerSession silence) st =
      some (.ok (cardRandom st.model), st.sent .random) := by
  have hrequest : st.model.request [0x02, 0xB2, nxpMfgCode] = some (.send .random) := rfl
  have hanswer := pollerTransceive_answered silence hinit (by simp) (by simp) hrequest
    (show Request.respond st _ = _ from rfl) (by simp) (by simp)
  have hprepare : pollerPrepareRequest none 0xB2 true 32 = some [0x02, 0xB2, nxpMfgCode] := rfl
  simp only [pollerGetRandomNumber, hprepare]
  rw [bind_of_eq hanswer]
  -- the number is sent low byte first and put together again
  have hrandom : le16 (cardRandom st.model).toUInt8 (cardRandom st.model >>> 8).toUInt8 =
      cardRandom st.model := le16_le16Bytes _
  exact congrArg (fun random => some (Except.ok random, st.sent .random)) hrandom

omit hinit

def passwordTx (uid : CArray UInt8 8) (type : PasswordType) : Bytes :=
  if type = .privacy then [0x02, 0xB3, nxpMfgCode]
  else [0x22, 0xB3, nxpMfgCode] ++ uidReversed uid

variable (uid : CArray UInt8 8)

theorem pollerPrepareRequest_password (type : PasswordType) :
    pollerPrepareRequest (some uid) 0xB3 (type = .privacy) 32 = some (passwordTx uid type) := by
  cases type <;> rfl

theorem length_passwordTx (type : PasswordType) : (passwordTx uid type).length ≤ 11 := by
  unfold passwordTx
  split_ifs <;> simp [uidReversed]

variable (model : Data)

theorem request_addressed (uid : CArray UInt8 8) {command : UInt8}
    (hcustom : isSlixCustom command = true) (data : Bytes) :
    model.request ([0x22, command, nxpMfgCode] ++ uidReversed uid ++ data) =
      nxpRequest command data := by
  have hlen : (uidReversed uid).length = 8 := by simp [uidReversed]
  have hlong : ¬ (uidReversed uid ++ data).length < 8 := by
    rw [length_append]
    omega
  have hdrop : (uidReversed uid ++ data).drop 8 = data := drop_left' hlen
  have hrequest : customRequest command true (nxpMfgCode :: (uidReversed uid ++ data)) =
      nxpRequest command data := by
    rw [customRequest, if_neg (by rintro (h | ⟨-, h⟩); exacts [h rfl, hlong h])]
    simp [hdrop]
  simp only [cons_append, nil_append, Data.request, hcustom, if_true]
  exact hrequest

theorem request_password (uid : CArray UInt8 8) (type : PasswordType)
    (data : Bytes) : model.request (passwordTx uid type ++ data) = some (.setPassword data) := by
  -- the privacy password goes without a UID, the others behind the UID of the card
  by_cases hprivacy : type = .privacy
  · rw [passwordTx, if_pos hprivacy]
    rfl
  · rw [passwordTx, if_neg hprivacy]
    exact request_addressed model uid (by decide) data

theorem accepts_iff (hcapabilities : st.model.capabilities = .default) (type : PasswordType)
    (password : CArray UInt8 passwordSize) (type' : PasswordType) :
    st.Accepts (passwordId type :: xorPassword password.toList st.random) type' ↔
      type' = type ∧ password = st.model.passwords type' := by
  have hlen := length_xorPassword password st.random
  have htake : (xorPassword password.toList st.random).take passwordSize =
      xorPassword password.toList st.random := take_of_length_le hlen.le
  have hid : passwordTypeFromId (passwordId type) = some type' ↔ type' = type := by
    rw [passwordTypeFromId_passwordId, some_inj, eq_comm]
  have hbytes : password.toList = (st.model.passwords type').toList ↔
      password = st.model.passwords type' := ⟨CArray.ext, fun h => h ▸ rfl⟩
  have hcheck : checkPassword st.model type' password.toList = true ↔
      password = st.model.passwords type' := by
    rw [checkPassword, hcapabilities, ← hbytes]
    simp
  show _ ∧ passwordTypeFromId (passwordId type) = some type' ∧ checkPassword st.model type'
    (unxorPassword ((xorPassword password.toList st.random).take passwordSize) st.random) = true ↔ _
  rw [htake, unxorPassword_xorPassword, hid, hcheck, length_cons, hlen]
  exact and_iff_right le_rfl

theorem pollerSetPassword_eq (hinit : st.initialized = true)
    (hcapabilities : st.model.capabilities = .default) (type : PasswordType)
    (password : CArray UInt8 passwordSize) :
    pollerSetPassword (listenerSession silence) (some st.model.parent.uid) type password st.random
        st =
      some (if password = st.model.passwords type then (.ok (), st.accept type)
        else (.error silence, st)) := by
  have hlen := length_passwordTx st.model.parent.uid type
  have hxor := length_xorPassword password st.random
  simp only [pollerSetPassword, pollerPrepareRequest_password]
  rw [if_neg (by show ¬ 32 < _ + 1 + 4; omega), append_assoc]
  have haccepts := accepts_iff hcapabilities type password
  -- from here on only the length of the data and what is accepted of it matter
  generalize hdata : [passwordId type] ++ xorPassword password.toList st.random = data
  rw [show passwordId type :: xorPassword password.toList st.random = data from hdata] at haccepts
  have hdlen : data.length = 5 := by
    rw [← hdata, length_append, hxor]
    rfl
  have htx : (passwordTx st.model.parent.uid type ++ data).length ≤ 30 := by
    rw [length_append]
    omega
  have hne : passwordTx st.model.parent.uid type ++ data ≠ [] := by
    apply ne_nil_of_length_pos
    rw [length_append]
    omega
  have hrequest := request_password st.model st.model.parent.uid type data
  by_cases hright : password = st.model.passwords type
  · have hrespond : (Request.setPassword data).respond st = some (st.accept type, some [0]) :=
      congrArg some (handleSetPassword_of_accepts ((haccepts type).mpr ⟨rfl, hright⟩))
    rw [bind_of_eq (pollerTransceive_answered silence hinit hne htx hrequest hrespond (by simp)
      (by simp)), if_pos hright]
    rfl
  · have hrespond : (Request.setPassword data).respond st = some (st, none) :=
      congrArg some (handleSetPassword_of_refused fun type' h => by
        obtain ⟨rfl, hpassword⟩ := (haccepts type').mp h
        exact hright hpassword)
    rw [bind_of_eq (pollerTransceive_silent silence hinit hne htx hrequest hrespond), if_neg hright]
    rfl

/-- A poller that asks the listener for its random number and sends a password under it succeeds
exactly if the password is that of the card, and the card is changed only by the privacy password,
which ends the privacy mode. -/
theorem pollerSetPassword_iff {st : State} (hinit : st.initialized = true)
    (hcapabilities : st.model.capabilities = .default) (type : PasswordType)
    (password : CArray UInt8 passwordSize) :
    ∃ random st₁ ret st₂,
      pollerGetRandomNumber (listenerSession silence) st = some (.ok random, st₁) ∧
      pollerSetPassword (listenerSession silence) (some st.model.parent.uid) type password random
        st₁ = some (ret, st₂) ∧
      (ret = .ok () ↔ password = st.model.passwords type) ∧
      st₂.model = if password = st.model.passwords type ∧ type = .privacy then
        { st.model with privacyMode := 0 } else st.model := by
  have hset := pollerSetPassword_eq silence (show (st.sent .random).initialized = true from hinit)
    hcapabilities type password
  rw [State.sent_model] at hset
  have hget := pollerGetRandomNumber_eq silence hinit
  by_cases hright : password = st.model.passwords type
  · rw [if_pos hright] at hset
    refine ⟨_, _, _, _, hget, hset, iff_of_true rfl hright, ?_⟩
    by_cases hprivacy : type = .privacy
    · rw [if_pos ⟨hright, hprivacy⟩]
      exact if_pos hprivacy
    · rw [if_neg fun h => hprivacy h.2]
      exact if_neg hprivacy
  · rw [if_neg hright] at hset
    refine ⟨_, _, _, _, hget, hset, iff_of_false nofun hright, ?_⟩
    rw [if_neg fun h => hright h.1]
    rfl

theorem pollerSetPassword_privateCard : ∃ random st₁ st₂,
      pollerGetRandomNumber (listenerSession .etimedout) (listenerInit .boot (some privateCard)) =
        some (.ok random, st₁) ∧
      pollerSetPassword (listenerSession .etimedout) (some privateCard.parent.uid) .privacy
        (.fill _ 0) random st₁ = some (.ok (), st₂) ∧ st₂.model.privacyMode = 0 := by
  obtain ⟨random, st₁, ret, st₂, hget, hset, hret, hmodel⟩ :=
    @pollerSetPassword_iff .etimedout (listenerInit .boot (some privateCard)) rfl rfl .privacy
      (.fill _ 0)
  obtain rfl := hret.mpr rfl
  refine ⟨random, st₁, st₂, hget, hset, ?_⟩
  rw [hmodel, if_pos ⟨rfl, rfl⟩]

end NfcStack.Slix
