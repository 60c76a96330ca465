import NfcStack.Protocols.Slix.Requests

/-!
# Privacy mode

A listener in privacy mode keeps silent on the inventory only. Two cards can be told apart without the
password exactly if a reader asks for a part in which they differ (`outputs_eq_iff_alike`).
-/

namespace NfcStack.Slix

open Option UInt8

open Iso15693 (listenerSend crcTrim commandData)

def Part.Alike (a b : Data) : Part → Prop
  | .inventory => a.parent.dsfid = b.parent.dsfid ∧ a.parent.uid = b.parent.uid
  | .sysInfo =>
    a.parent.dsfid = b.parent.dsfid ∧ a.parent.afi = b.parent.afi ∧
      (a.parent.blockCount - 1).toUInt8 = (b.parent.blockCount - 1).toUInt8 ∧
      (a.parent.blockSize - 1) &&& 0x1F = (b.parent.blockSize - 1) &&& 0x1F ∧
      a.parent.icRef = b.parent.icRef
  | .readBlock block =>
    let out (card : Iso15693.Data) := card.blockCount.toNat ≤ block.toNat
    let bytes (card : Iso15693.Data) :=
      card.blockData.read? (block.toNat * card.blockSize.toNat) card.blockSize.toNat
    (out a.parent ↔ out b.parent) ∧ (¬ out a.parent → bytes a.parent = bytes b.parent)
  | .blocksSecurity first last =>
    let out (card : Iso15693.Data) :=
      card.blockCount.toNat ≤ first.toNat ∨ card.blockCount.toNat ≤ last.toNat ∨ last < first
    let bytes (card : Iso15693.Data) :=
      card.blockSecurity.read? first.toNat (last.toNat + 1 - first.toNat)
    (out a.parent ↔ out b.parent) ∧ (¬ out a.parent → bytes a.parent = bytes b.parent)
  | .nxpSysinfo =>
    a.protectionPointer = b.protectionPointer ∧ a.protectionCondition = b.protectionCondition ∧
      (a.parent.lockDsfid = 0 ↔ b.parent.lockDsfid = 0) ∧
      (a.parent.lockAfi = 0 ↔ b.parent.lockAfi = 0) ∧
      (a.lockEas = 0 ↔ b.lockEas = 0) ∧ (a.lockPpl = 0 ↔ b.lockPpl = 0)
  | .signature => a.signature = b.signature
  | .random => byteAt a.parent.uid.toList 7 = byteAt b.parent.uid.toList 7

theorem refusal_eq_iff {p q : Prop} [Decidable p] [Decidable q] {x y : Option Bytes} :
    ((if p then some Iso15693.errorPayload else x.map fun bytes => 0 :: bytes) =
        if q then some Iso15693.errorPayload else y.map fun bytes => 0 :: bytes) ↔
      (p ↔ q) ∧ (¬ p → x = y) := by
  have hinj : Function.Injective fun bytes : Bytes => (0 : UInt8) :: bytes :=
    fun _ _ h => (List.cons.inj h).2
  have hne : ∀ z : Option Bytes, z.map (fun bytes => (0 : UInt8) :: bytes) ≠
      some Iso15693.errorPayload := by
    intro z h
    obtain ⟨bytes, -, hbytes⟩ := map_eq_some_iff.mp h
    exact absurd (List.cons.inj hbytes).1 (by decide)
  -- a refusal and a block never look alike
  by_cases hp : p
  · by_cases hq : q
    · simp [hp, hq]
    · simp [hp, hq, (hne y).symm]
  · by_cases hq : q
    · simp [hp, hq, hne x]
    · simp [hp, hq, (map_injective hinj).eq_iff]

theorem lockBits_inj : ∀ a b c d a' b' c' d' : Bool,
    (((if a then 0x01 else 0x00) ||| (if b then 0x02 else 0x00) ||| (if c then 0x04 else 0x00) |||
        (if d then 0x08 else 0x00) : UInt8) =
      (if a' then 0x01 else 0x00) ||| (if b' then 0x02 else 0x00) ||| (if c' then 0x04 else 0x00) |||
        (if d' then 0x08 else 0x00)) ↔ a = a' ∧ b = b' ∧ c = c' ∧ d = d' := by
  decide

variable (a b : Data)

theorem handleGetNxpSysinfo_eq_iff :
    handleGetNxpSysinfo a = handleGetNxpSysinfo b ↔ Part.nxpSysinfo.Alike a b := by
  have hbits := lockBits_inj (decide (a.parent.lockDsfid ≠ 0)) (decide (a.parent.lockAfi ≠ 0))
    (decide (a.lockEas ≠ 0)) (decide (a.lockPpl ≠ 0)) (decide (b.parent.lockDsfid ≠ 0))
    (decide (b.parent.lockAfi ≠ 0)) (decide (b.lockEas ≠ 0)) (decide (b.lockPpl ≠ 0))
  simp only [decide_eq_true_eq, decide_eq_decide, not_iff_not, ne_eq] at hbits
  simp only [handleGetNxpSysinfo, List.cons.injEq, true_and, and_true, ne_eq, hbits, Part.Alike]

theorem cardRandom_low (model : Data) :
    (cardRandom model).toUInt8 = 0x34 + byteAt model.parent.uid.toList 7 := by
  apply UInt8.toNat_inj.mp
  rw [cardRandom, UInt16.toNat_toUInt8, UInt16.toNat_add, UInt8.toNat_add, UInt8.toNat_toUInt16]
  show (0x1234 + _) % 2 ^ 16 % 2 ^ 8 = (0x34 + _) % 2 ^ 8
  omega

theorem payload_eq_iff (part : Part) : part.payload a = part.payload b ↔ part.Alike a b := by
  cases part with
  | inventory =>
    have huid : Iso15693.uidReversed a.parent.uid = Iso15693.uidReversed b.parent.uid ↔
        a.parent.uid = b.parent.uid := by
      rw [Iso15693.uidReversed, Iso15693.uidReversed, List.reverse_inj]
      exact ⟨CArray.ext, fun h => h ▸ rfl⟩
    simp [Part.payload, Part.Alike, Iso15693.handleInventory, huid]
  | sysInfo => simp [Part.payload, Part.Alike, Iso15693.handleGetSysInfo]
  | readBlock block => exact refusal_eq_iff
  | blocksSecurity first last => exact refusal_eq_iff
  | nxpSysinfo =>
    rw [Part.payload, Part.payload, some_inj]
    exact handleGetNxpSysinfo_eq_iff a b
  | signature =>
    simp only [Part.payload, Part.Alike, some_inj, List.cons.injEq, true_and]
    exact ⟨CArray.ext, fun h => h ▸ rfl⟩
  | random =>
    simp only [Part.payload, Part.Alike, some_inj, List.cons.injEq, true_and, and_true]
    constructor
    · -- the low byte alone tells the last byte of the UID
      rintro ⟨hlow, -⟩
      rw [cardRandom_low, cardRandom_low] at hlow
      exact (UInt8.add_right_inj _).mp hlow
    · intro h
      simp only [cardRandom, h, and_self]

def Request.Alike : Request → Request → Prop
  | .send p, .send q => p = q ∧ p.Alike a b
  | .setPassword data, .setPassword data' => data = data'
  | _, _ => False

def AsksAlike (tx : Bytes) : Prop :=
  Taken tx → Option.Rel (Request.Alike a b) (a.request (crcTrim tx)) (b.request (crcTrim tx))

theorem commandData_eq {card : Iso15693.Data} {flags : UInt8} {data rest : Bytes}
    (h : commandData card flags data = some rest) :
    rest = if isAddressed flags then data.drop 8 else data := by
  unfold commandData at h
  by_cases haddressed : flags &&& (0x04 : UInt8) = 0 ∧ flags &&& (0x20 : UInt8) ≠ 0
  · rw [if_pos haddressed] at h
    rw [if_pos (by simp [isAddressed, haddressed])]
    split_ifs at h
    exact (some.inj h).symm
  · rw [if_neg haddressed] at h
    rw [if_neg (by simpa [isAddressed, and_comm] using haddressed)]
    exact (some.inj h).symm

theorem request_cases (frame : Bytes) :
    a.request frame = b.request frame ∨
      ∃ part, (∀ r, a.request frame = some r → r = .send part) ∧
        ∀ r, b.request frame = some r → r = .send part := by
  match frame with
  | [] => exact .inl rfl
  | [_] => exact .inl rfl
  | flags :: command :: data =>
    simp only [Data.request]
    by_cases hcustom : isSlixCustom command
    · -- a custom command is read without a look at the card
      left
      rw [if_pos hcustom, if_pos hcustom]
    right
    rw [if_neg hcustom, if_neg hcustom]
    generalize hrest : (if isAddressed flags then data.drop 8 else data) = rest
    have hpart : ∀ (model : Data) (r : Request),
        (if model.privacyMode ≠ 0 ∧ command = 0x01 then none
          else (commandData model.parent flags data).bind (standardRequest model.parent command)) =
            some r → ∃ part, standardPart command rest = some part ∧ r = .send part := by
      intro model r h
      split_ifs at h
      obtain ⟨d, hd, hr⟩ := bind_eq_some_iff.mp h
      rw [commandData_eq hd, hrest] at hr
      obtain ⟨part, hpart, hsend⟩ := bind_eq_some_iff.mp hr
      split_ifs at hsend
      exact ⟨part, hpart, (some.inj hsend).symm⟩
    -- where no card is asked for anything, any part will do
    refine ⟨(standardPart command rest).getD .inventory, ?_, ?_⟩
    · intro r h
      obtain ⟨part, hp, rfl⟩ := hpart a r h
      rw [hp, getD_some]
    · intro r h
      obtain ⟨part, hp, rfl⟩ := hpart b r h
      rw [hp, getD_some]

variable {part : Part} {model : Data}

theorem not_tooLong_of_request {frame : Bytes}
    (h : model.request frame = some (.send part)) : ¬ part.TooLong model.parent := by
  match frame, h with
  | flags :: command :: data, h =>
    simp only [Data.request] at h
    by_cases hcustom : isSlixCustom command
    · rw [if_pos hcustom] at h
      cases data with
      | nil => cases h
      | cons mfg data =>
        simp only [customRequest, nxpRequest] at h
        split_ifs at h <;> cases h <;> exact id
    · rw [if_neg hcustom] at h
      split_ifs at h
      obtain ⟨d, -, hr⟩ := bind_eq_some_iff.mp h
      obtain ⟨p, -, hsend⟩ := bind_eq_some_iff.mp hr
      split_ifs at hsend with hlong
      cases hsend
      exact hlong

theorem crcFrame_injective {p q : Bytes}
    (h : Framing.crcFrame Iso15693.crc16 p = Framing.crcFrame Iso15693.crc16 q) : p = q := by
  have htrim := congrArg crcTrim h
  rwa [Iso15693.crcTrim_crcFrame, Iso15693.crcTrim_crcFrame] at htrim

structure Hidden (a b : Data) : Prop where
  left : a.privacyMode ≠ 0
  right : b.privacyMode ≠ 0
  passwords : a.passwords = b.passwords
  capabilities : a.capabilities = b.capabilities

structure Twins (a b : Data) (s t : State) : Prop where
  left : s.model = a
  right : t.model = b
  initialized : s.initialized = true ∧ t.initialized = true
  random : s.random = t.random

def State.Unlocks (st : State) (tx : Bytes) : Prop :=
  ∃ data, st.request tx = some (.setPassword data) ∧ st.Accepts data .privacy

def frames : Machine State Bytes (Option Bytes) := ⟨onTagCmd⟩

variable {a b : Data} {s t : State}

theorem Twins.accepts_iff (hidden : Hidden a b) (h : Twins a b s t) (data : Bytes)
    (type : PasswordType) : s.Accepts data type ↔ t.Accepts data type := by
  simp only [State.Accepts, checkPassword, h.left, h.right, h.random, hidden.passwords,
    hidden.capabilities]

theorem Twins.accept (h : Twins a b s t) {type : PasswordType} (hother : type ≠ .privacy) :
    Twins a b (s.accept type) (t.accept type) where
  left := by rw [State.accept, if_neg hother]; exact h.left
  right := by rw [State.accept, if_neg hother]; exact h.right
  initialized := h.initialized
  random := h.random

theorem Twins.sent (h : Twins a b s t) (halike : part.Alike a b) :
    Twins a b (s.sent part) (t.sent part) := by
  cases part with
  | random =>
    refine ⟨h.left, h.right, h.initialized, ?_⟩
    show cardRandom s.model = cardRandom t.model
    rw [h.left, h.right, cardRandom, cardRandom, show byteAt _ 7 = _ from halike]
  | _ => exact h

variable {tx : Bytes}

theorem Twins.request (h : Twins a b s t) (htaken : Taken tx) :
    s.request tx = a.request (crcTrim tx) ∧ t.request tx = b.request (crcTrim tx) := by
  rw [State.request, State.request, if_pos ⟨h.initialized.1, htaken⟩,
    if_pos ⟨h.initialized.2, htaken⟩, h.left, h.right]
  exact ⟨rfl, rfl⟩

theorem Twins.setPassword (hidden : Hidden a b) (h : Twins a b s t) {data : Bytes}
    (hlocked : ¬ s.Accepts data .privacy) :
    Machine.Matches (Twins a b) ((Request.setPassword data).answer s)
      ((Request.setPassword data).answer t) := by
  show Machine.Matches (Twins a b)
    (some ((handleSetPassword s data).1, (handleSetPassword s data).2.bind listenerSend))
    (some ((handleSetPassword t data).1, (handleSetPassword t data).2.bind listenerSend))
  -- the passwords and the random numbers agree, so both accept it or neither does
  by_cases haccepts : ∃ type, s.Accepts data type
  · obtain ⟨type, hs⟩ := haccepts
    have hother : type ≠ .privacy := by
      rintro rfl
      exact hlocked hs
    rw [handleSetPassword_of_accepts hs,
      handleSetPassword_of_accepts ((h.accepts_iff hidden data type).mp hs)]
    exact .some _ (h.accept hother)
  · have hs := not_exists.mp haccepts
    rw [handleSetPassword_of_refused hs, handleSetPassword_of_refused fun type ht =>
      hs type ((h.accepts_iff hidden data type).mpr ht)]
    exact .some _ h

theorem Twins.step (hidden : Hidden a b) (h : Twins a b s t) (hlocked : ¬ s.Unlocks tx)
    (hask : AsksAlike a b tx) : Machine.Matches (Twins a b) (onTagCmd s tx) (onTagCmd t tx) := by
  rw [onTagCmd_eq, onTagCmd_eq]
  by_cases htaken : Taken tx
  · obtain ⟨hs, ht⟩ := h.request htaken
    have hrel := hask htaken
    rw [← hs, ← ht] at hrel
    cases hrs : s.request tx with
    | none =>
      rw [hrs] at hrel
      cases hrt : t.request tx with
      | none => exact .some _ h
      | some r => rw [hrt] at hrel; cases hrel
    | some r =>
      rw [hrs] at hrel
      cases hrt : t.request tx with
      | none => rw [hrt] at hrel; cases hrel
      | some r' =>
        rw [hrt] at hrel
        cases hrel with
        | some halike =>
          rw [elim_some, elim_some]
          match r, r', halike with
          | .setPassword data, .setPassword _, rfl =>
            exact h.setPassword hidden fun haccepts => hlocked ⟨data, hrs, haccepts⟩
          | .send part, .send _, ⟨rfl, halike⟩ =>
            have hpayload := (payload_eq_iff a b part).mpr halike
            have hs' := not_tooLong_of_request (hs.symm.trans hrs)
            have ht' := not_tooLong_of_request (ht.symm.trans hrt)
            rw [answer_send (h.left ▸ hs'), answer_send (h.right ▸ ht'), h.left, h.right,
              ← hpayload]
            cases part.payload a with
            | none => exact .none
            | some payload => exact .some _ (h.sent halike)
  · rw [State.request, State.request, if_neg fun hs => htaken hs.2, if_neg fun ht => htaken ht.2]
    exact .some _ h

variable {st : State}

theorem answer_send_ne_silent (hlong : ¬ part.TooLong st.model.parent) :
    ((Request.send part).answer st).map Prod.snd ≠ some none := by
  rw [answer_send hlong]
  cases part.payload st.model <;> simp

theorem Twins.asksAlike (h : Twins a b s t)
    (hout : (onTagCmd s tx).map Prod.snd = (onTagCmd t tx).map Prod.snd) : AsksAlike a b tx := by
  intro htaken
  obtain ⟨hs, ht⟩ := h.request htaken
  rw [onTagCmd_eq, onTagCmd_eq, hs, ht] at hout
  have hleft : ∀ part, a.request (crcTrim tx) = some (.send part) →
      ¬ part.TooLong s.model.parent := fun _ hr => h.left ▸ not_tooLong_of_request hr
  have hright : ∀ part, b.request (crcTrim tx) = some (.send part) →
      ¬ part.TooLong t.model.parent := fun _ hr => h.right ▸ not_tooLong_of_request hr
  have hsame : ∀ part, a.request (crcTrim tx) = some (.send part) →
      b.request (crcTrim tx) = some (.send part) → part.Alike a b := by
    intro part ha hb
    rw [ha, hb, elim_some, elim_some, answer_send (hleft part ha),
      answer_send (hright part hb), h.left, h.right, map_map, map_map] at hout
    apply (payload_eq_iff a b part).mp
    exact map_injective (fun p q hpq => crcFrame_injective (some.inj hpq)) hout
  rcases request_cases a b (crcTrim tx) with heq | ⟨part, ha, hb⟩
  · -- a custom command: both cards are asked for the same
    cases hr : b.request (crcTrim tx) with
    | none => rw [heq, hr]; exact .none
    | some r =>
      rw [heq, hr]
      cases r with
      | send part => exact .some ⟨rfl, hsame part (heq.trans hr) hr⟩
      | setPassword data => exact .some rfl
  · cases hra : a.request (crcTrim tx) with
    | none =>
      cases hrb : b.request (crcTrim tx) with
      | none => exact .none
      | some r =>
        obtain rfl := hb r hrb
        rw [hra, hrb] at hout
        exact absurd hout.symm (answer_send_ne_silent (hright part hrb))
    | some r =>
      obtain rfl := ha r hra
      cases hrb : b.request (crcTrim tx) with
      | none =>
        rw [hra, hrb] at hout
        exact absurd hout (answer_send_ne_silent (hleft part hra))
      | some r =>
        obtain rfl := hb r hrb
        exact .some ⟨rfl, hsame part hra hrb⟩

theorem outputs_eq_iff_alike (hidden : Hidden a b) (st : State) (txs : List Bytes)
    (hlocked : frames.Always (fun s tx _ => ¬ s.Unlocks tx) (listenerInit st (some a)) txs) :
    frames.outputs (listenerInit st (some a)) txs = frames.outputs (listenerInit st (some b)) txs ↔
      frames.Always (fun _ tx _ => AsksAlike a b tx) (listenerInit st (some a)) txs := by
  have hstart : Twins a b (listenerInit st (some a)) (listenerInit st (some b)) :=
    ⟨rfl, rfl, ⟨rfl, rfl⟩, rfl⟩
  exact Machine.outputs_eq_iff frames frames
    (fun s t tx h hs _ hask => h.step hidden hs hask) (fun s t tx h _ _ hout => h.asksAlike hout)
    hstart hlocked (Machine.Always.trivial _ _ _)

def signedCard : Data := { privateCard with signature := .fill _ 0xFF }

theorem privateCard_hidden : Hidden privateCard signedCard :=
  ⟨by decide, by decide, rfl, rfl⟩

def inventoryFrame : Bytes := Framing.crcFrame Iso15693.crc16 [0x26, 0x01]

def readSignatureFrame : Bytes := Framing.crcFrame Iso15693.crc16 [0x02, 0xBD, nxpMfgCode]

theorem not_unlocks_of_request (h : ∀ data, st.request tx ≠ some (.setPassword data)) :
    ¬ st.Unlocks tx := by
  rintro ⟨data, hdata, -⟩
  exact h data hdata

theorem inventory_request (h : model.privacyMode ≠ 0) : model.request [0x26, 0x01] = none := by
  exact if_pos ⟨h, rfl⟩

theorem outputs_eq_inventory :
    frames.outputs (listenerInit .boot (some privateCard)) [inventoryFrame] =
      frames.outputs (listenerInit .boot (some signedCard)) [inventoryFrame] := by
  have hlocked : frames.Always (fun s tx _ => ¬ s.Unlocks tx)
      (listenerInit .boot (some privateCard)) [inventoryFrame] := by
    refine ⟨?_, fun _ _ _ => True.intro⟩
    apply not_unlocks_of_request
    intro data h
    rw [State.request, inventoryFrame, Iso15693.crcTrim_crcFrame,
      inventory_request (by decide), ite_self] at h
    cases h
  apply (outputs_eq_iff_alike privateCard_hidden .boot _ hlocked).mpr
  refine ⟨?_, fun _ _ _ => True.intro⟩
  intro _
  exact .none

theorem signature_tells_apart : Hidden privateCard signedCard ∧
      frames.Always (fun s tx _ => ¬ s.Unlocks tx)
        (listenerInit .boot (some privateCard)) [readSignatureFrame] ∧
      frames.Always (fun s tx _ => ¬ s.Unlocks tx)
        (listenerInit .boot (some signedCard)) [readSignatureFrame] ∧
      frames.outputs (listenerInit .boot (some privateCard)) [readSignatureFrame] ≠
        frames.outputs (listenerInit .boot (some signedCard)) [readSignatureFrame] := by
  have hlocked : ∀ s : State, frames.Always (fun s tx _ => ¬ s.Unlocks tx) s
      [readSignatureFrame] := by
    intro s
    refine ⟨?_, fun _ _ _ => True.intro⟩
    apply not_unlocks_of_request
    intro data h
    rw [State.request] at h
    split_ifs at h
    cases h
  refine ⟨privateCard_hidden, hlocked _, hlocked _, ?_⟩
  decide +kernel

end NfcStack.Slix
