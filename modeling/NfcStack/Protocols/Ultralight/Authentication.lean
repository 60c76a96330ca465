import NfcStack.Protocols.Ultralight.Des
import NfcStack.Protocols.Ultralight.Type2
import NfcStack.Reader.Session

/-!
# The authentication of Ultralight C

`ultralight_poller_i_authenticate` against the Type 2 listener. The initial vector of a side is the last
block the other side has sent.
-/

namespace NfcStack.Ultralight

open List Reader Poll

variable {cfg : Config} {τ : Type} (s : Session τ)

/-- `ultralight_poller_i_transceive` for a caller with a receive array of `array` bytes. The transport
is told that it may store a whole response, and one that leaves the array has no defined outcome. -/
def pollerTransceive (array : ℕ) (tx : Bytes) : Poll τ (Except Errno Bytes) := do
  match ← s.transceive maxResponseLen tx with
  | .error e => pure (.error e)
  | .ok rx => if array < rx.length then Poll.undefined else pure (.ok rx)

theorem pollerTransceive_of_le {array : ℕ} (h : maxResponseLen ≤ array)
    (tx : Bytes) : pollerTransceive s array tx = s.transceive maxResponseLen tx := by
  funext t
  cases hrun : s.transceive maxResponseLen tx t with
  | none => exact bind_of_none hrun _
  | some r =>
    obtain ⟨_ | rx, t'⟩ := r
    · exact bind_of_eq hrun _
    · refine (bind_of_eq hrun _).trans ?_
      have hlen := (Session.step_of_transceive hrun).2
      simp only [if_neg (Nat.not_lt.mpr (hlen.trans h))]
      rfl

def pollerSendAuthCmd (cmd : Bytes) (initialCmd : Bool) : Poll τ (Except Errno Bytes) := do
  match ← pollerTransceive s maxResponseLen cmd with
  | .error e => pure (.error e)
  | .ok rx =>
    let expectCode := if initialCmd then 0xAF else 0x00
    if rx.length ≠ 9 ∨ byteAt rx 0 ≠ expectCode then pure (.error .eacces) else pure (.ok rx)

def pollerAuthenticate (key : CArray UInt8 16) (rndA : CArray UInt8 8) : Poll τ (Bool × Ret) := do
  match ← pollerSendAuthCmd s [0x1A, 0x00] true with
  | .error e => pure (false, .error e)
  | .ok rx =>
    let encRndB := rx.drop 1
    let rndB := (tdesDecrypt key.toList (List.replicate 8 0) encRndB).rotate 1
    -- encrypted in place: the second half of `output` is `rnd_b` before and the vector after
    let output := tdesEncrypt key.toList encRndB (rndA.toList ++ rndB)
    match ← pollerSendAuthCmd s (0xAF :: output) false with
    | .error e => pure (false, .error e)
    | .ok rx =>
      let decodedShiftedRndA := tdesDecrypt key.toList (output.drop 8) (rx.drop 1)
      pure (decide (rndA.toList.rotate 1 = decodedShiftedRndA), .ok ())

theorem pollerSendAuthCmd_ok {s : Session τ} {cmd rx : Bytes} {t t' : τ} (initialCmd : Bool)
    (h : s.transceive maxResponseLen cmd t = some (.ok rx, t')) (hlen : rx.length = 9)
    (hcode : byteAt rx 0 = if initialCmd then 0xAF else 0x00) :
    pollerSendAuthCmd s cmd initialCmd t = some (.ok rx, t') := by
  rw [pollerSendAuthCmd, pollerTransceive_of_le s le_rfl, bind_of_eq h]
  show (if rx.length ≠ 9 ∨ byteAt rx 0 ≠ _ then _ else _ : Poll τ (Except Errno Bytes)) t' = _
  rw [if_neg (by simp [hlen, hcode])]
  rfl

namespace Type2

def tdes2 : Tdes := ⟨tdesEncrypt, tdesDecrypt⟩

def listenerSession (silence : Errno) (rndB : Bytes) : Session (State cfg) where
  active := true
  tag := ⟨fun st tx => (onTagCmd tdes2 st tx rndB).map fun r =>
    (r.1, match r.2 with
      | none => .error silence
      | some rx => .ok rx)⟩

theorem transceive_answered (silence : Errno) {rndB : Bytes} {st st' : State cfg} {tx rx : Bytes}
    (h : onTagCmd tdes2 st tx rndB = some (st', some rx)) (hlen : rx.length ≤ maxResponseLen) :
    (listenerSession silence rndB).transceive maxResponseLen tx st = some (.ok rx, st') :=
  Session.transceive_of_step rfl (by simp only [listenerSession, h, Option.map_some]) hlen

structure State.HoldsKey (st : State cfg) (key : CArray UInt8 16) : Prop where
  initialized : st.initialized = true
  type : st.model.type = .mfulC
  key : desKey? st = some key.toList

variable {key : CArray UInt8 16} {st : State cfg}

theorem onTagCmd_auth (h : st.HoldsKey key) (rndB : Bytes) :
    onTagCmd tdes2 st [0x1A, 0x00] rndB =
      some ({ st with
        rndB
        encB := tdesEncrypt key.toList (List.replicate 8 0) rndB
        auth := .waitCont }, some (0xAF :: tdesEncrypt key.toList (List.replicate 8 0) rndB)) := by
  show (if _ then _ else handleAuthStart tdes2 st rndB) = _
  rw [if_neg (by simp [h.initialized]), handleAuthStart, if_neg (by simp [h.type]), h.key]
  rfl

theorem onTagCmd_authCont (h : st.HoldsKey key) (hwait : st.auth = .waitCont) {rndA : Bytes}
    (hA : rndA.length = 8) (hB : st.rndB.length = 8) (rnd : Bytes) :
    onTagCmd tdes2 st (0xAF :: tdesEncrypt key.toList st.encB (rndA ++ st.rndB.rotate 1)) rnd =
      some ({ st with auth := .success }, some (0x00 :: tdesEncrypt key.toList
          ((tdesEncrypt key.toList st.encB (rndA ++ st.rndB.rotate 1)).drop 8)
          (rndA.rotate 1))) := by
  have hlength : (rndA ++ st.rndB.rotate 1).length = 8 * 2 := by
    rw [length_append, length_rotate, hA, hB]
  have hframe := length_tdesEncrypt key.toList st.encB hlength
  have hplain := tdesDecrypt_tdesEncrypt key.toList st.encB hlength
  generalize tdesEncrypt key.toList st.encB (rndA ++ st.rndB.rotate 1) = frame at *
  have hsecond : ((rndA ++ st.rndB.rotate 1).drop 8).take 8 = st.rndB.rotate 1 := by
    rw [drop_left' hA]
    exact take_of_length_le (by rw [length_rotate, hB])
  have hfirst : (rndA ++ st.rndB.rotate 1).take 8 = rndA := take_left' hA
  show (if _ then _ else if st.auth = AuthState.waitCont then handleAuthCont tdes2 st (0xAF :: frame)
    else _) = _
  rw [if_neg (by simp [h.initialized]), if_pos hwait, handleAuthCont,
    if_neg (by simp [h.type, hframe]), h.key]
  have hdecrypt : tdes2.decrypt key.toList st.encB ((0xAF :: frame).drop 1) =
      rndA ++ st.rndB.rotate 1 := hplain
  simp only [Option.map_some, hdecrypt, hsecond, hfirst, ne_eq, not_true_eq_false, if_false]
  rfl

/-- A poller with the key of the card is convinced, and so is the listener. -/
theorem pollerAuthenticate_success (silence : Errno) (key : CArray UInt8 16)
    (rndA rndB : CArray UInt8 8) (st : State cfg) (h : st.HoldsKey key) :
    ∃ st', pollerAuthenticate (listenerSession silence rndB.toList) key rndA st =
        some ((true, .ok ()), st') ∧ st'.auth = .success ∧ st'.model = st.model := by
  have hB : rndB.toList.length = 8 * 1 := rndB.length_toList
  have hstart := onTagCmd_auth h rndB.toList
  have hencB := length_tdesEncrypt key.toList (List.replicate 8 0) hB
  have hdecB := tdesDecrypt_tdesEncrypt key.toList (List.replicate 8 0) hB
  generalize tdesEncrypt key.toList (List.replicate 8 0) rndB.toList = encB at *
  -- the listener after its first answer, which still is the card with the key
  have hcard : State.HoldsKey
      { st with rndB := rndB.toList, encB := encB, auth := .waitCont } key :=
    ⟨h.initialized, h.type, h.key⟩
  have hcont := onTagCmd_authCont hcard rfl rndA.length_toList rndB.length_toList rndB.toList
  have hfirst := pollerSendAuthCmd_ok true (transceive_answered silence hstart
    (by rw [length_cons, hencB]; decide)) (by rw [length_cons, hencB]) rfl
  have hA : (rndA.toList.rotate 1).length = 8 * 1 := by
    rw [length_rotate, rndA.length_toList]
  have hsecond := pollerSendAuthCmd_ok false (transceive_answered silence hcont
    (by rw [length_cons, length_tdesEncrypt _ _ hA]; decide))
    (by rw [length_cons, length_tdesEncrypt _ _ hA]) rfl
  refine ⟨{ st with rndB := rndB.toList, encB := encB, auth := .success }, ?_, rfl, rfl⟩
  rw [pollerAuthenticate, bind_of_eq hfirst]
  simp only [drop_succ_cons, drop_zero, hdecB]
  rw [bind_of_eq hsecond]
  -- both sides take the second block of the frame as the vector of the last answer
  simp only [drop_succ_cons, drop_zero, tdesDecrypt_tdesEncrypt key.toList _ hA, decide_true]
  rfl

def cardKey : CArray UInt8 16 := ⟨[0x49, 0x45, 0x4D, 0x4B, 0x41, 0x45, 0x52, 0x42, 0x21, 0x4E, 0x41,
  0x43, 0x55, 0x4F, 0x59, 0x46], rfl⟩

def keyCard : State .default where
  model := { (Data.reset : Data .default) with
    type := .mfulC
    pagesTotal := 48
    pages := (CArray.fill _ 0).write 176 cardKey.toList }
  config := .zero
  initialized := true
  auth := .idle
  rndB := List.replicate 8 0
  encB := List.replicate 8 0

theorem pollerAuthenticate_keyCard : keyCard.HoldsKey cardKey ∧
    ∃ st', pollerAuthenticate (listenerSession .etimedout (List.replicate 8 0x10)) cardKey
        (.fill 8 0x20) keyCard = some ((true, .ok ()), st') ∧ st'.auth = .success ∧
      st'.model = keyCard.model := by
  have hcard : keyCard.HoldsKey cardKey := ⟨rfl, rfl, by decide +kernel⟩
  exact ⟨hcard, pollerAuthenticate_success .etimedout cardKey (.fill 8 0x20) (.fill 8 0x10) keyCard
    hcard⟩

end Type2

end NfcStack.Ultralight
