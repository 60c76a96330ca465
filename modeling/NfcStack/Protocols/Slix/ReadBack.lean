import NfcStack.Protocols.Iso15693.Capture
import NfcStack.Protocols.Slix.Poller

/-!
# Reading an emulated SLIX2 card back

The system information is taken from behind the flags of the response, but the signature is copied with
the flags in front (`pollerRead_slix2_iff`).
-/

namespace NfcStack.Slix

open List Option NfcStack.Reader Poll

def typeHasNxpSysinfo (type : CardType) : Bool := type = .slix2

def typeHasSignature (type : CardType) : Bool := type = .slix2

variable {τ : Type} (s : Session τ)

/-- The step of `slix_poller_read` for the system information of the manufacturer. -/
def readNxpSysinfo (out : Data) : Poll τ (Data × Ret) := do
  match pollerPrepareRequest (some out.parent.uid) 0xAB false Iso15693.txMax with
  | none => return (out, .error .einval)
  | some tx =>
    match ← pollerTransceive s tx with
    | .error _ => return (out, .ok ())
    | .ok rx =>
      if rx.length < 2 then return (out, .ok ())
      else if rx.length < 3 then return ({ out with protectionPointer := byteAt rx 1 }, .ok ())
      else
        return ({ out with
          protectionPointer := byteAt rx 1
          protectionCondition := byteAt rx 2 }, .ok ())

/-- The step for the signature. The response is copied from its first byte on, which holds the flags. -/
def readSignature (out : Data) : Poll τ (Data × Ret) := do
  match pollerPrepareRequest (some out.parent.uid) 0xBD false Iso15693.txMax with
  | none => return (out, .error .einval)
  | some tx =>
    match ← pollerTransceive s tx with
    | .error _ => return (out, .ok ())
    | .ok rx => return ({ out with signature := out.signature.write 0 (rx.take 32) }, .ok ())

def stepIf (has : CardType → Bool) (step : Data → Poll τ (Data × Ret)) (out : Data) :
    Poll τ (Data × Ret) :=
  if has out.type then step out else pure (out, .ok ())

def pollerRead : Poll τ (Data × Ret) := do
  let (parent, ret) ← Iso15693.pollerRead s Data.reset.parent
  if ret ≠ .ok () then return ({ Data.reset with parent }, ret)
  let out := { Data.reset with parent, type := typeFromUid parent.uid }
  if out.type = .unknown then return (out, .error .enotsup)
  let (out, ret) ← stepIf typeHasNxpSysinfo (readNxpSysinfo s) out
  if ret ≠ .ok () then return (out, ret)
  stepIf typeHasSignature (readSignature s) out

/-! ## The card of the parent protocol

The poller of the parent protocol goes the same way on two tags that answer its commands alike. -/

section

variable {σ : Type} {R : τ → σ → Prop} {s : Session τ} {s' : Session σ}

open Hoare (Sim)

def SameAnswers (R : τ → σ → Prop) (s : Session τ) (s' : Session σ) : Prop :=
  ∀ flags command data, isSlixCustom command = false →
    Sim R (Iso15693.sendFrame s (flags :: command :: data))
      (Iso15693.sendFrame s' (flags :: command :: data))

variable (h : SameAnswers R s s')

include h

variable (data : Iso15693.Data)

theorem SameAnswers.pollerInventory :
    Sim R (Iso15693.pollerInventory s data) (Iso15693.pollerInventory s' data) := by
  refine (h 0x26 0x01 [] (by decide)).bind fun answer => ?_
  cases answer <;> exact .pure _

theorem SameAnswers.pollerGetSystemInfo :
    Sim R (Iso15693.pollerGetSystemInfo s data) (Iso15693.pollerGetSystemInfo s' data) := by
  refine (h _ 0x2B [] (by decide)).bind fun answer => ?_
  cases answer <;> exact .pure _

theorem SameAnswers.pollerReadBlock (blockNum blockSize : UInt8) :
    Sim R (Iso15693.pollerReadBlock s blockNum blockSize)
      (Iso15693.pollerReadBlock s' blockNum blockSize) := by
  refine (h _ 0x20 [blockNum] (by decide)).bind fun answer => ?_
  cases answer <;> exact .pure _

theorem SameAnswers.readBlocks (n block : ℕ) (data : Iso15693.Data) :
    Sim R (Iso15693.readBlocks s n block data) (Iso15693.readBlocks s' n block data) := by
  induction n generalizing block data with
  | zero => exact .pure _
  | succ n ih =>
    refine (h.pollerReadBlock _ _).bind fun answer => ?_
    cases answer with
    | error e => exact .pure _
    | ok bytes =>
      cases hw : data.blockData.write? (block * data.blockSize.toNat) bytes with
      | none =>
        simp only [hw]
        exact .of_none (fun _ => rfl) (fun _ => rfl)
      | some blockData =>
        simp only [hw]
        exact ih _ _

theorem SameAnswers.blocksSecurityLoop (n start : ℕ) (data : Iso15693.Data) :
    Sim R (Iso15693.blocksSecurityLoop s n start data)
      (Iso15693.blocksSecurityLoop s' n start data) := by
  induction n generalizing start data with
  | zero => exact .pure _
  | succ n ih =>
    refine (h _ 0x2C _ (by decide)).bind fun answer => ?_
    cases answer with
    | error e => exact .pure _
    | ok rx =>
      cases hparse : Iso15693.getBlockSecurityResponseParse rx
          (min (data.blockCount.toNat - start) Iso15693.blocksPerQuery) with
      | error e =>
        simp only [hparse]
        exact .pure _
      | ok bytes =>
        simp only [hparse]
        cases hw : data.blockSecurity.write? start bytes with
        | none => exact .of_none (fun _ => rfl) (fun _ => rfl)
        | some blockSecurity => exact ih _ _

theorem SameAnswers.readMemory :
    Sim R (Iso15693.readMemory s data) (Iso15693.readMemory s' data) := by
  refine (h.readBlocks _ _ _).bind ?_
  rintro ⟨out, ret⟩
  by_cases hret : ¬ Iso15693.optionalStepOk ret
  · simp only [if_pos hret]
    exact .pure _
  simp only [if_neg hret]
  refine Sim.bind ?_ ?_
  · rw [Iso15693.pollerGetBlocksSecurity, Iso15693.pollerGetBlocksSecurity]
    split
    · exact .pure _
    · exact h.blocksSecurityLoop _ _ _
  · rintro ⟨out', ret'⟩
    by_cases hret' : ¬ Iso15693.optionalStepOk ret'
    · simp only [if_pos hret']
      exact .pure _
    · simp only [if_neg hret']
      exact .pure _

theorem SameAnswers.pollerRead (hs : s.active = true) (hs' : s'.active = true)
    (out : Iso15693.Data) : Sim R (Iso15693.pollerRead s out) (Iso15693.pollerRead s' out) := by
  have hactive : ¬ s.active = false := by rw [hs]; decide
  have hactive' : ¬ s'.active = false := by rw [hs']; decide
  rw [Iso15693.pollerRead, Iso15693.pollerRead, if_neg hactive, if_neg hactive']
  refine (h.pollerInventory _).bind ?_
  rintro ⟨out₁, ret₁⟩
  by_cases hret₁ : ret₁ ≠ .ok ()
  · simp only [if_pos hret₁]
    exact .pure _
  simp only [if_neg hret₁]
  refine (h.pollerGetSystemInfo _).bind ?_
  rintro ⟨out₂, ret₂⟩
  by_cases hret₂ : ¬ Iso15693.optionalStepOk ret₂
  · simp only [if_pos hret₂]
    exact .pure _
  simp only [if_neg hret₂]
  by_cases hzero : out₂.blockCount = 0 ∨ out₂.blockSize = 0
  · simp only [if_pos hzero]
    exact .pure _
  · simp only [if_neg hzero]
    exact h.readMemory _

end

variable {st : State} (silence : Errno)

def State.parent (st : State) : Iso15693.State :=
  Iso15693.State.boot.listenerInit (some st.model.parent)

variable (hinit : st.initialized = true)

include hinit

theorem onTagCmd_parent (hprivacy : st.model.privacyMode = 0)
    {tx data : Bytes} {flags command : UInt8}
    (htx : Iso15693.crcTrim tx = flags :: command :: data) (hcommand : isSlixCustom command = false) :
    onTagCmd st tx = (Iso15693.onTagCmd st.parent tx).map (st, ·) := by
  by_cases hrefused : ¬ st.initialized ∨ tx.length < 1 + Iso15693.crcSize ∨
      ¬ Iso15693.crcCheck tx ∨ Iso15693.listenerBufSize < tx.length
  · have hparent : st.parent.initialized = false ∨ tx.length < 1 + Iso15693.crcSize ∨
        ¬ Iso15693.crcCheck tx ∨ Iso15693.listenerBufSize < tx.length :=
      .inr (hrefused.resolve_left (not_not.mpr hinit))
    rw [onTagCmd, if_pos hrefused, Iso15693.onTagCmd, if_pos hparent]
    rfl
  · have hopen : ¬ (st.model.privacyMode ≠ 0 ∧ command = 0x01) := fun h => h.1 hprivacy
    have hstandard : ¬ isSlixCustom command = true := by rw [hcommand]; decide
    rw [onTagCmd, if_neg hrefused, htx]
    simp only
    rw [if_neg hstandard, if_neg hopen]
    rfl

theorem sameAnswers_listenerSession (hprivacy : st.model.privacyMode = 0) :
    SameAnswers (fun t i => t = st ∧ i = st.parent) (listenerSession silence)
      (Iso15693.listenerSession silence) := by
  intro flags command data hcommand
  rw [Iso15693.sendFrame, Iso15693.sendFrame]
  by_cases hroom : Iso15693.txMax < (flags :: command :: data).length + Iso15693.crcSize
  · rw [Iso15693.crcAppend, if_pos hroom]
    exact .pure _
  have hframe : Iso15693.crcAppend Iso15693.txMax (flags :: command :: data) =
      some (Framing.crcFrame Iso15693.crc16 (flags :: command :: data)) :=
    Iso15693.crcAppend_of_le (Nat.not_lt.mp hroom)
  rw [hframe]
  refine Hoare.Sim.bind ?_ fun answer => ?_
  · rintro t i ⟨rfl, rfl⟩
    have hanswer := onTagCmd_parent hinit hprivacy
      (Iso15693.crcTrim_crcFrame (flags :: command :: data)) hcommand
    simp only [Session.transceive, listenerSession, Iso15693.listenerSession, Iso15693.loopback,
      if_true, hanswer, Option.map_map]
    cases Iso15693.onTagCmd t.parent
        (Framing.crcFrame Iso15693.crc16 (flags :: command :: data)) with
    | none => exact .none
    | some answer =>
      refine .some ?_
      cases answer with
      | none => exact ⟨rfl, rfl, rfl⟩
      | some rx => exact ⟨rfl, rfl, rfl⟩
  · cases answer <;> exact .pure _

theorem parent_read (hprivacy : st.model.privacyMode = 0)
    {out : Iso15693.Data} {r : Iso15693.Data × Ret} {i : Iso15693.State}
    (h : Iso15693.pollerRead (Iso15693.listenerSession silence) out st.parent = some (r, i)) :
    Iso15693.pollerRead (listenerSession silence) out st = some (r, st) := by
  have hsim := (sameAnswers_listenerSession silence hinit hprivacy).pollerRead rfl rfl out
  obtain ⟨st', hread, hst, -⟩ := hsim.eq_some ⟨rfl, rfl⟩ h
  rw [hread, hst]

theorem pollerTransceive_addressed (uid : CArray UInt8 8)
    (command : UInt8) (hcustom : isSlixCustom command = true) {part : Part} {payload : Bytes}
    (hpart : nxpRequest command [] = some (.send part)) (hsent : st.sent part = st)
    (hpayload : part.payload st.model = some payload) (hne : payload ≠ [])
    (hlen : payload.length ≤ 253) :
    pollerTransceive (listenerSession silence)
      ([0x22, command, nxpMfgCode] ++ Iso15693.uidReversed uid) st = some (.ok payload, st) := by
  have hrequest : st.model.request ([0x22, command, nxpMfgCode] ++ Iso15693.uidReversed uid) =
      some (.send part) := by
    rw [← hpart, ← request_addressed st.model uid hcustom [], append_nil]
  have hrespond : (Request.send part).respond st = some (st, some payload) := by
    rw [Request.respond, hpayload, map_some, hsent]
  exact pollerTransceive_answered silence hinit (by simp) (by simp [Iso15693.uidReversed]) hrequest
    hrespond hne hlen

theorem readNxpSysinfo_eq (out : Data) :
    readNxpSysinfo (listenerSession silence) out st =
      some (({ out with
        protectionPointer := st.model.protectionPointer
        protectionCondition := st.model.protectionCondition }, .ok ()), st) := by
  have hanswer := pollerTransceive_addressed silence hinit out.parent.uid 0xAB
    (by decide) rfl rfl rfl (by simp [handleGetNxpSysinfo]) (by simp [handleGetNxpSysinfo])
  have hprepare : pollerPrepareRequest (some out.parent.uid) 0xAB false Iso15693.txMax =
      some ([0x22, 0xAB, nxpMfgCode] ++ Iso15693.uidReversed out.parent.uid) := rfl
  simp only [readNxpSysinfo, hprepare]
  rw [bind_of_eq hanswer]
  rfl

omit hinit

def shiftedSignature (signature : CArray UInt8 32) : CArray UInt8 32 :=
  (CArray.fill 32 0).write 0 ((0 :: signature.toList).take 32)

theorem readSignature_eq (hinit : st.initialized = true) {out : Data}
    (hout : out.signature = .fill _ 0) :
    readSignature (listenerSession silence) out st =
      some (({ out with signature := shiftedSignature st.model.signature }, .ok ()), st) := by
  have hanswer := pollerTransceive_addressed silence hinit out.parent.uid 0xBD
    (by decide) rfl rfl rfl (by simp) (by simp)
  have hprepare : pollerPrepareRequest (some out.parent.uid) 0xBD false Iso15693.txMax =
      some ([0x22, 0xBD, nxpMfgCode] ++ Iso15693.uidReversed out.parent.uid) := rfl
  simp only [readSignature, hprepare, hout]
  rw [bind_of_eq hanswer]
  rfl

theorem eq_replicate_of_shift {α : Type} {x : α} {l : List α}
    (h : (x :: l).take l.length = l) : l = List.replicate l.length x := by
  induction l generalizing x with
  | nil => rfl
  | cons a l ih =>
    obtain ⟨rfl, hrest⟩ := List.cons.inj h
    rw [length_cons, replicate_succ, ← ih hrest]

theorem shiftedSignature_eq_iff (signature : CArray UInt8 32) :
    shiftedSignature signature = signature ↔ signature = .fill _ 0 := by
  have hlen : ((0 :: signature.toList).take 32).length = 32 := by simp
  have hlist : (shiftedSignature signature).toList = (0 :: signature.toList).take 32 := by
    rw [shiftedSignature, CArray.toList_write _ (by omega), take_zero,
      nil_append, drop_eq_nil_of_le (by simp), append_nil]
  constructor
  · intro h
    have hshift : (0 :: signature.toList).take signature.toList.length = signature.toList := by
      rw [signature.length_toList, ← hlist, h]
    apply CArray.ext
    rw [eq_replicate_of_shift hshift, signature.length_toList]
    rfl
  · rintro rfl
    rfl

structure Data.Reproduces (model m : Data) : Prop where
  uid : m.parent.uid = model.parent.uid
  blockCount : m.parent.blockCount = model.parent.blockCount
  blockSize : m.parent.blockSize = model.parent.blockSize
  blocks : m.parent.blockData.slice 0 model.parent.dataLen =
    model.parent.blockData.slice 0 model.parent.dataLen
  signature : m.signature = model.signature
  protectionPointer : m.protectionPointer = model.protectionPointer
  protectionCondition : m.protectionCondition = model.protectionCondition

theorem typeFromUid_slix2 {uid : CArray UInt8 8} (h0 : byteAt uid.toList 0 = 0xE0)
    (h1 : byteAt uid.toList 1 = 0x04) (h2 : byteAt uid.toList 2 = 0x04) :
    typeFromUid uid = .slix2 := by
  rw [typeFromUid, if_neg (by simp [h0, h1, nxpMfgCode]), h2]
  rfl

theorem readNxpSysinfo_parent (s : Session τ) (out : Data) :
    Hoare.Ensures (readNxpSysinfo s out) fun r => r.1.parent = out.parent := by
  rw [readNxpSysinfo]
  cases pollerPrepareRequest (some out.parent.uid) 0xAB false Iso15693.txMax with
  | none => exact .pure rfl
  | some tx =>
    refine .bind_except (fun _ => .pure rfl) fun rx => ?_
    simp only
    split_ifs <;> exact .pure rfl

theorem readSignature_parent (s : Session τ) (out : Data) :
    Hoare.Ensures (readSignature s out) fun r => r.1.parent = out.parent := by
  rw [readSignature]
  cases pollerPrepareRequest (some out.parent.uid) 0xBD false Iso15693.txMax with
  | none => exact .pure rfl
  | some tx =>
    refine .bind_except (fun _ => .pure rfl) fun rx => ?_
    exact .pure rfl

theorem stepIf_parent {has : CardType → Bool} {step : Data → Poll τ (Data × Ret)}
    (h : ∀ out, Hoare.Ensures (step out) fun r => r.1.parent = out.parent) (out : Data) :
    Hoare.Ensures (stepIf has step out) fun r => r.1.parent = out.parent := by
  rw [stepIf]
  split
  · exact h out
  · exact .pure rfl

theorem parent_of_pollerRead {s : Session τ} {t t' : τ} {m : Data}
    (h : pollerRead s t = some ((m, .ok ()), t')) :
    ∃ t₁, Iso15693.pollerRead s Data.reset.parent t = some ((m.parent, .ok ()), t₁) := by
  obtain ⟨⟨parent, ret⟩, t₁, hparent, hrest⟩ := bind_eq_some h
  by_cases hret : ret ≠ .ok ()
  · simp only [if_pos hret] at hrest
    exact absurd (congrArg (fun r => r.1.2) (some.inj hrest)) hret
  simp only [if_neg hret] at hrest
  by_cases hunknown : typeFromUid parent.uid = .unknown
  · simp only [if_pos hunknown] at hrest
    cases hrest
  simp only [if_neg hunknown] at hrest
  obtain ⟨⟨out, ret'⟩, t₂, hsysinfo, hrest⟩ := bind_eq_some hrest
  have hout : out.parent = parent :=
    stepIf_parent (readNxpSysinfo_parent s) _ t₁ _ t₂ hsysinfo
  have hm : m.parent = out.parent := by
    by_cases hret' : ret' ≠ .ok ()
    · simp only [if_pos hret'] at hrest
      cases hrest
      rfl
    · simp only [if_neg hret'] at hrest
      exact stepIf_parent (readSignature_parent s) _ t₂ _ t' hrest
  rw [hparent, not_not.mp hret, hm, hout]
  exact ⟨t₁, rfl⟩

theorem pollerRead_of_parent (hinit : st.initialized = true) {parent : Iso15693.Data}
    (htype : typeFromUid parent.uid = .slix2)
    (h : Iso15693.pollerRead (listenerSession silence) Data.reset.parent st =
      some ((parent, .ok ()), st)) :
    pollerRead (listenerSession silence) st =
      some (({ Data.reset with
        parent
        type := .slix2
        protectionPointer := st.model.protectionPointer
        protectionCondition := st.model.protectionCondition
        signature := shiftedSignature st.model.signature }, .ok ()), st) := by
  have hknown : ¬ CardType.slix2 = .unknown := by decide
  have hstep : ∀ {has : CardType → Bool} {step : Data → Poll State (Data × Ret)} {out : Data},
      out.type = .slix2 → has .slix2 = true → stepIf has step out = step out := by
    intro has step out hout hhas
    rw [stepIf, hout, if_pos hhas]
  rw [pollerRead, bind_of_eq h]
  simp only [ne_eq, not_true_eq_false, if_false, htype, hknown]
  rw [hstep rfl rfl, bind_of_eq (readNxpSysinfo_eq silence hinit _)]
  simp only [not_true_eq_false, if_false]
  rw [hstep rfl rfl, readSignature_eq silence hinit rfl]

section Listener

variable {model : Data} (hprivacy : model.privacyMode = 0)
include hprivacy

theorem pollerRead_of_valid (silence : Errno) (htype : typeFromUid model.parent.uid = .slix2)
    (hcount : model.parent.blockCount.toNat ≤ 32) (hv : model.parent.Valid) :
    ∃ parent, pollerRead (listenerSession silence) (listenerInit .boot (some model)) =
        some (({ Data.reset with
          parent
          type := .slix2
          protectionPointer := model.protectionPointer
          protectionCondition := model.protectionCondition
          signature := shiftedSignature model.signature }, .ok ()), listenerInit .boot (some model)) ∧
      parent.uid = model.parent.uid ∧ parent.blockCount = model.parent.blockCount ∧
      parent.blockSize = model.parent.blockSize ∧
      parent.blockData.slice 0 model.parent.dataLen =
        model.parent.blockData.slice 0 model.parent.dataLen := by
  have hinit : (listenerInit .boot (some model)).parent.initialized = true := rfl
  have hprivacy' : (listenerInit .boot (some model)).model.privacyMode = 0 := hprivacy
  obtain ⟨blockData, blockSecurity, hparent, hdata, -⟩ :=
    Iso15693.pollerRead_of_le hinit hv silence hcount Data.reset.parent
  have hslix := parent_read silence rfl hprivacy' hparent
  refine ⟨_, pollerRead_of_parent silence rfl ?_ hslix, rfl, rfl, rfl, hdata⟩
  exact htype

theorem valid_of_reproduces {silence : Errno} {m : Data} {st' : State}
    (hm : pollerRead (listenerSession silence) (listenerInit .boot (some model)) =
      some ((m, .ok ()), st')) (hrep : model.Reproduces m) : model.parent.Valid := by
  have hinit : (listenerInit .boot (some model)).parent.initialized = true := rfl
  have hprivacy' : (listenerInit .boot (some model)).model.privacyMode = 0 := hprivacy
  obtain ⟨t₁, hparent⟩ := parent_of_pollerRead hm
  by_cases hzero : model.parent.blockCount = 0
  · -- without blocks the poller of the parent protocol fails
    obtain ⟨out, hout⟩ := Iso15693.pollerRead_no_blocks silence hinit hzero Data.reset.parent
    rw [parent_read silence rfl hprivacy' hout] at hparent
    cases hparent
  · have hsizes := Iso15693.pollerRead_sizes _ _ _ _ t₁ hparent rfl
    rw [Iso15693.Data.Valid, hrep.blockCount, hrep.blockSize] at hsizes
    exact (hsizes.resolve_left hzero).1

end Listener

theorem pollerRead_slix2_iff (model : Data) (silence : Errno)
    (h0 : byteAt model.parent.uid.toList 0 = 0xE0) (h1 : byteAt model.parent.uid.toList 1 = 0x04)
    (h2 : byteAt model.parent.uid.toList 2 = 0x04) (hcount : model.parent.blockCount.toNat ≤ 32)
    (hprivacy : model.privacyMode = 0) :
    (∃ m st', pollerRead (listenerSession silence) (listenerInit .boot (some model)) =
        some ((m, .ok ()), st') ∧ model.Reproduces m) ↔
      model.parent.Valid ∧ model.signature = .fill _ 0 := by
  have htype := typeFromUid_slix2 h0 h1 h2
  constructor
  · rintro ⟨m, st', hm, hrep⟩
    have hv := valid_of_reproduces hprivacy hm hrep
    obtain ⟨parent, hread, -⟩ := pollerRead_of_valid hprivacy silence htype hcount hv
    rw [hread] at hm
    obtain ⟨rfl, -⟩ := Prod.mk.inj (Prod.mk.inj (some.inj hm)).1
    exact ⟨hv, (shiftedSignature_eq_iff _).mp hrep.signature⟩
  · rintro ⟨hv, hsignature⟩
    obtain ⟨parent, hread, huid, hblocks, hsize, hdata⟩ :=
      pollerRead_of_valid hprivacy silence htype hcount hv
    exact ⟨_, _, hread, huid, hblocks, hsize, hdata, (shiftedSignature_eq_iff _).mpr hsignature, rfl,
      rfl⟩

def slix2Card (signature : CArray UInt8 32) : Data :=
  { Data.reset with
    parent := { Iso15693.Data.reset with
      uid := .ofList _ 0 [0xE0, 0x04, 0x04, 0x01, 0x02, 0x03, 0x04, 0x05]
      blockCount := 1
      blockSize := 4 }
    type := .slix2
    signature
    protectionPointer := 0x10 }

theorem pollerRead_slix2_zero : ∃ m st', pollerRead (listenerSession .etimedout)
        (listenerInit .boot (some (slix2Card (.fill _ 0)))) = some ((m, .ok ()), st') ∧
      (slix2Card (.fill _ 0)).Reproduces m :=
  (pollerRead_slix2_iff (slix2Card (.fill _ 0)) .etimedout (by decide) (by decide) (by decide)
    (by decide) rfl).mpr ⟨by decide, rfl⟩

theorem pollerRead_slix2_shifted : ∃ m st', pollerRead (listenerSession .etimedout)
        (listenerInit .boot (some (slix2Card (.fill _ 0x5A)))) = some ((m, .ok ()), st') ∧
      byteAt m.signature.toList 0 = 0x00 ∧ ¬ (slix2Card (.fill _ 0x5A)).Reproduces m := by
  have hread : (pollerRead (listenerSession .etimedout)
      (listenerInit .boot (some (slix2Card (.fill _ 0x5A))))).map
        (fun r => (r.1.2, r.1.1.signature.toList)) =
      some (.ok (), 0x00 :: List.replicate 31 0x5A) := by
    decide +kernel
  obtain ⟨⟨⟨m, ret⟩, st'⟩, hm, hfields⟩ := map_eq_some_iff.mp hread
  obtain ⟨rfl, hsignature⟩ := Prod.mk.inj hfields
  have hzero : byteAt m.signature.toList 0 = 0x00 := by
    rw [show m.signature.toList = _ from hsignature]
    rfl
  refine ⟨m, st', hm, hzero, ?_⟩
  intro hrep
  rw [hrep.signature] at hzero
  exact absurd hzero (by decide)

end NfcStack.Slix
