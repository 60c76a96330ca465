import NfcStack.Protocols.Aliro.Poller
import NfcStack.Protocols.Classic.Poller
import NfcStack.Protocols.Desfire.Poller
import NfcStack.Protocols.Felica.Listener
import NfcStack.Protocols.Slix.Listener
import NfcStack.Protocols.Ultralight.Authentication
import NfcStack.Reader.Registry

/-!
# Detection

The detect functions of the pollers and `nfc_reader_pollers_detect`, which names the
first poller of the registry that takes the tag for its own.
-/

namespace NfcStack

open Reader Poll

variable {τ : Type} (s : Reader.Session τ)

/-- `ultralight_poller_detect`. Its receive array has the 16 bytes of an answer to READ. -/
def Ultralight.pollerDetect : Poll τ Ret := do
  if s.active = false then return .error .einval
  match ← Ultralight.pollerTransceive s 16 [0x30, 0x00] with
  | .error e => return .error e
  | .ok rx => return if rx.length < 16 then .error .enotsup else .ok ()

def Classic.pollerDetect : Poll τ Ret := do
  if s.active = false then return .error .einval
  match ← Classic.pollerGetNt s 0 with
  | .error _ => return .error .enotsup
  | .ok _ => return .ok ()

def Felica.pollerFrameExchange (tx : Bytes) : Poll τ (Except Errno Bytes) := do
  if tx.length = 0 ∨ Felica.maxBufferSize < tx.length + 2 then return .error .einval
  match ← s.transceive Felica.maxBufferSize (Felica.crcAppend tx) with
  | .error e => return .error e
  | .ok rx => return if Felica.crcCheck rx then .ok (Felica.crcTrim rx) else .error .eio

def Felica.pollerPolling (systemCode : UInt16) (requestCode timeSlot : UInt8) :
    Poll τ (Except Errno (Bytes × Bytes)) := do
  match ← Felica.pollerFrameExchange s
      ([4 + 2, 0x00] ++ le16Bytes systemCode ++ [requestCode, timeSlot]) with
  | .error e => return .error e
  | .ok rx =>
    return if rx.length < 2 + 8 + 8 ∨ byteAt rx 1 ≠ 0x01 then .error .eio
      else .ok ((rx.drop 2).take 8, (rx.drop 10).take 8)

def Felica.pollerDetect : Poll τ Ret := do
  if s.active = false then return .error .einval
  match ← Felica.pollerPolling s 0xFFFF 0 0 with
  | .error _ => return .error .enotsup
  | .ok _ => return .ok ()

def Slix.pollerDetect : Poll τ Ret := do
  if s.active = false then return .error .einval
  match ← Iso15693.pollerInventory s .reset with
  | (_, .error _) => return .error .enotsup
  | (parent, .ok ()) =>
    if byteAt parent.uid.toList 0 ≠ 0xE0 then return .error .enotsup
    return if Slix.typeFromUid parent.uid = .unknown then .error .enotsup else .ok ()

def Emv.pollerDetect : Poll τ Ret := do
  if s.active = false then return .error .einval
  match ← s.transceive maxResponseLen ([0x00, 0xA4, 0x04, 0x00, 14] ++ Emv.ppseAid) with
  | .error _ => return .error .enotsup
  | .ok rx => return if Ndef.endsWith rx [0x90, 0x00] then .ok () else .error .eio

namespace Reader

def pollerName : Protocol → String
  | .ndef => "ndef"
  | .ultralight => "ultralight"
  | .classic => "classic"
  | .felica => "felica"
  | .slix => "slix"
  | .iso15693 => "iso15693_3"
  | .desfire => "desfire"
  | .emv => "emv"
  | .aliro => "aliro"

def detectors (cfg : Config) : OtherPollers cfg τ where
  detect
    | .ndef => Ndef.pollerDetect s
    | .ultralight => Ultralight.pollerDetect s
    | .classic => Classic.pollerDetect s
    | .felica => Felica.pollerDetect s
    | .slix => Slix.pollerDetect s
    | .iso15693 => Iso15693.pollerDetect s
    | .desfire => Desfire.pollerDetect s
    | .emv => Emv.pollerDetect s
    | .aliro => Aliro.pollerDetect s
  ultralight := Poll.undefined
  desfire := Poll.undefined
  emv := Poll.undefined
  aliro := Poll.undefined
  classic := Poll.undefined
  felica := Poll.undefined
  slix := Poll.undefined
  iso15693 := Poll.undefined

def pollersDetect (cfg : Config) : Poll τ (Except Errno String) := do
  match ← firstMatch s (detectors s cfg) (registry cfg) with
  | none => return .error .enotsup
  | some p => return .ok (pollerName p)

end Reader

/-! ## What a detect function makes of an answer

Most of the functions decide after one exchange. -/

def Ultralight.verdict : Except Errno Bytes → Option Ret
  | .error e => some (.error e)
  | .ok rx =>
    if 16 < rx.length then none else some (if rx.length < 16 then .error .enotsup else .ok ())

def Classic.verdict : Except Errno Bytes → Ret
  | .error _ => .error .enotsup
  | .ok rx => if rx.length ≠ 4 then .error .enotsup else .ok ()

def Felica.verdict : Except Errno Bytes → Ret
  | .error _ => .error .enotsup
  | .ok rx =>
    if Felica.crcCheck rx = false ∨ (Felica.crcTrim rx).length < 18 ∨
        byteAt (Felica.crcTrim rx) 1 ≠ 0x01 then .error .enotsup
    else .ok ()

def Emv.verdict : Except Errno Bytes → Ret
  | .error _ => .error .enotsup
  | .ok rx => if Ndef.endsWith rx [0x90, 0x00] then .ok () else .error .eio

def Aliro.verdict : Except Errno Bytes → Ret
  | .error _ => .error .enotsup
  | .ok rx => if Aliro.selectOk rx then .ok () else .error .enotsup

section Verdicts

variable {s} {t t' : τ} {r : Except Errno Bytes} (hactive : s.active = true)

section

include hactive

theorem Ultralight.pollerDetect_of_transceive
    (h : s.transceive maxResponseLen [0x30, 0x00] t = some (r, t')) :
    Ultralight.pollerDetect s t = (Ultralight.verdict r).map (·, t') := by
  rw [Ultralight.pollerDetect, if_neg (by simp [hactive]), Ultralight.pollerTransceive, bind_assoc,
    bind_of_eq h]
  cases r with
  | error e => rfl
  | ok rx =>
    simp only [Ultralight.verdict]
    split <;> rfl

theorem Classic.pollerDetect_of_transceive
    (h : s.transceive maxResponseLen [0x60, 0x00] t = some (r, t')) :
    Classic.pollerDetect s t = some (Classic.verdict r, t') := by
  have hnt : Classic.pollerGetNt s 0 t =
      some (r.bind fun rx => if rx.length ≠ 4 then .error .eio else .ok rx, t') := by
    rw [Classic.pollerGetNt, bind_of_eq h]
    cases r with
    | error e => rfl
    | ok rx => rfl
  rw [Classic.pollerDetect, if_neg (by simp [hactive]), bind_of_eq hnt]
  cases r with
  | error e => rfl
  | ok rx =>
    simp only [Except.bind, Classic.verdict]
    split <;> rfl

theorem Felica.pollerDetect_of_transceive
    (h : s.transceive Felica.maxBufferSize Felica.pollingFrame t = some (r, t')) :
    Felica.pollerDetect s t = some (Felica.verdict r, t') := by
  have hframe : Felica.pollerFrameExchange s [6, 0x00, 0xFF, 0xFF, 0x00, 0x00] t =
      some (r.bind fun rx =>
        if Felica.crcCheck rx then .ok (Felica.crcTrim rx) else .error .eio, t') := by
    refine (bind_of_eq h _).trans ?_
    cases r with
    | error e => rfl
    | ok rx => rfl
  rw [Felica.pollerDetect, if_neg (by simp [hactive]), Felica.pollerPolling, bind_assoc]
  refine (bind_of_eq hframe _).trans ?_
  cases r with
  | error e => rfl
  | ok rx =>
    simp only [Except.bind, Felica.verdict]
    cases Felica.crcCheck rx with
    | false => rfl
    | true =>
      simp only [if_true, Bool.true_eq_false, false_or, pure_bind]
      split <;> rfl

theorem Emv.pollerDetect_of_transceive
    (h : s.transceive maxResponseLen ([0x00, 0xA4, 0x04, 0x00, 14] ++ Emv.ppseAid) t =
      some (r, t')) : Emv.pollerDetect s t = some (Emv.verdict r, t') := by
  rw [Emv.pollerDetect, if_neg (by simp [hactive]), bind_of_eq h]
  cases r with
  | error e => rfl
  | ok rx => rfl

theorem Aliro.pollerDetect_of_transceive
    (h : s.transceive maxResponseLen Aliro.selectTx t = some (r, t')) :
    Aliro.pollerDetect s t = some (Aliro.verdict r, t') := by
  rw [Aliro.pollerDetect, if_neg (by simp [hactive]), bind_of_eq h]
  cases r with
  | error e => rfl
  | ok rx => rfl

end

/-! The inventory, with which both ISO15693 pollers start. -/

section

variable (h : s.transceive maxResponseLen (Framing.crcFrame Iso15693.crc16 [0x26, 0x01]) t =
  some (r, t')) (hr : ∀ rx, r = .ok rx → Iso15693.crcCheck rx = false)
include h hr

theorem Iso15693.pollerInventory_refused (data : Iso15693.Data) :
    ∃ e, Iso15693.pollerInventory s data t = some ((data, .error e), t') := by
  have hsend : ∃ e, Iso15693.sendFrame s [0x26, 0x01] t = some (.error e, t') := by
    rw [Iso15693.sendFrame, Iso15693.crcAppend_of_le (by simp [Iso15693.txMax])]
    simp only
    rw [bind_of_eq h]
    cases r with
    | error e => exact ⟨e, rfl⟩
    | ok rx =>
      simp only [hr rx rfl]
      exact ⟨.eio, rfl⟩
  obtain ⟨e, hsend⟩ := hsend
  exact ⟨e, bind_of_eq hsend _⟩

include hactive

theorem Slix.pollerDetect_refused : Slix.pollerDetect s t = some (.error .enotsup, t') := by
  obtain ⟨e, hinventory⟩ := Iso15693.pollerInventory_refused h hr .reset
  rw [Slix.pollerDetect, if_neg (by simp [hactive]), bind_of_eq hinventory]
  rfl

theorem Iso15693.pollerDetect_refused : Iso15693.pollerDetect s t = some (.error .enotsup, t') := by
  obtain ⟨e, hinventory⟩ := Iso15693.pollerInventory_refused h hr .reset
  rw [Iso15693.pollerDetect, if_pos hactive, bind_of_eq hinventory]
  rfl

end

include hactive

theorem Slix.pollerDetect_of_inventory {model : Iso15693.Data}
    (h : s.transceive maxResponseLen (Framing.crcFrame Iso15693.crc16 [0x26, 0x01]) t =
      some (.ok (Framing.crcFrame Iso15693.crc16 (Iso15693.handleInventory model)), t'))
    (h0 : byteAt model.uid.toList 0 = 0xE0) (h1 : byteAt model.uid.toList 1 = Slix.nxpMfgCode) :
    Slix.pollerDetect s t = some (.ok (), t') := by
  have hsend := Iso15693.sendFrame_of_transceive (by simp) (by simp [Iso15693.handleInventory]) h
  have hinventory : Iso15693.pollerInventory s .reset t =
      some (({ Iso15693.Data.reset with dsfid := model.dsfid, uid := model.uid }, .ok ()), t') := by
    rw [Iso15693.pollerInventory, bind_of_eq hsend]
    simp only [Iso15693.inventoryResponseParse_handleInventory]
    rfl
  rw [Slix.pollerDetect, if_neg (by simp [hactive]), bind_of_eq hinventory]
  simp only
  rw [if_neg (by simp [h0]), if_neg (Slix.typeFromUid_ne_unknown h0 h1)]
  rfl

/-! NDEF, with its two application identifiers, and DESFire. -/

theorem Ndef.pollerDetect_of_error {e : Errno}
    (h : s.transceive maxResponseLen Ndef.selectAppV2 t = some (.error e, t')) :
    Ndef.pollerDetect s t = some (.error e, t') := by
  rw [Ndef.pollerDetect, if_pos hactive]
  exact bind_of_eq h _

variable {rx : Bytes}

theorem Ndef.pollerDetect_of_selectV2
    (h : s.transceive maxResponseLen Ndef.selectAppV2 t = some (.ok rx, t'))
    (hsw : Ndef.swOk rx = true) : Ndef.pollerDetect s t = some (.ok (), t') := by
  rw [Ndef.pollerDetect, if_pos hactive, Ndef.selectApp, bind_of_eq h]
  simp only [hsw, if_true]
  rfl

theorem Ndef.pollerDetect_of_selectV1 {rx' : Bytes} {t₁ : τ}
    (h : s.transceive maxResponseLen Ndef.selectAppV2 t = some (.ok rx, t₁))
    (hsw : Ndef.swOk rx = false)
    (h' : s.transceive maxResponseLen Ndef.selectAppV1 t₁ = some (.ok rx', t')) :
    Ndef.pollerDetect s t =
      some (if Ndef.swOk rx' then .ok ()
        else .error (if Ndef.swNotFound rx' then .enotsup else .eio), t') := by
  rw [Ndef.pollerDetect, if_pos hactive, Ndef.selectApp, bind_of_eq h]
  simp only [hsw, Bool.false_eq_true, if_false]
  exact bind_of_eq h' _

theorem Desfire.pollerDetect_unselected
    (h : s.transceive maxResponseLen ([0x00, 0xA4, 0x04, 0x00, 7] ++ Desfire.aid) t =
      some (.ok rx, t'))
    (hsw : Ndef.endsWith rx [0x90, 0x00] = false) :
    Desfire.pollerDetect s t = some (.error .enotsup, t') := by
  have hselect : Desfire.pollerSelect s t = some (.error .eio, t') := by
    rw [Desfire.pollerSelect, bind_of_eq h]
    simp only [hsw]
    rfl
  rw [Desfire.pollerDetect, if_neg (by simp [hactive]), bind_of_eq hselect]
  rfl

end Verdicts

namespace Reader

variable {s} {cfg : Config} {t t' : τ}

def Refuses (detect : Poll τ Ret) (t : τ) : Prop := ∃ e, detect t = some (.error e, t)

variable {p : Protocol} {ps qs : List Protocol}

theorem firstMatch_of_refuses {pollers : OtherPollers cfg τ}
    (hrefuse : ∀ q ∈ ps, Refuses (pollerDetect s pollers q) t)
    (hdetect : pollerDetect s pollers p t = some (.ok (), t')) :
    firstMatch s pollers (ps ++ p :: qs) t = some (some p, t') := by
  induction ps with
  | nil => exact bind_of_eq hdetect _
  | cons q ps ih =>
    obtain ⟨e, hq⟩ := hrefuse q (by simp)
    refine (bind_of_eq hq _).trans ?_
    exact ih fun q' hq' => hrefuse q' (List.mem_cons_of_mem q hq')

theorem pollersDetect_of_refuses (henabled : ∀ p, cfg.enabled p = true)
    (hsplit : [.ndef, .ultralight, .classic, .felica, .slix, .iso15693, .desfire, .emv, .aliro] =
      ps ++ p :: qs)
    (hrefuse : ∀ q ∈ ps, Refuses (pollerDetect s (detectors s cfg) q) t)
    (hdetect : pollerDetect s (detectors s cfg) p t = some (.ok (), t')) :
    pollersDetect s cfg t = some (.ok (pollerName p), t') := by
  have hregistry : registry cfg = ps ++ p :: qs := by
    rw [← hsplit, registry, List.filter_eq_self]
    intro q _
    exact henabled q
  have hfirst : firstMatch s (detectors s cfg) (ps ++ p :: qs) t = some (some p, t') :=
    firstMatch_of_refuses hrefuse hdetect
  rw [pollersDetect, hregistry, bind_of_eq hfirst]
  rfl

end Reader

end NfcStack
