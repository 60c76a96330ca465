import NfcStack.Protocols.Desfire.Invariant
import NfcStack.Protocols.Ultralight.Password
import NfcStack.Reader.Detect
import NfcStack.Stack.EmvRouting

/-!
# Which poller takes an emulated card

The identifier of a DESFire card is also one of the NDEF application, and the NDEF poller stands first in
the registry. The cards of the other protocols are told apart (`pollersDetect_iff`).
-/

namespace NfcStack

open List Option Framing Reader

namespace Reader

variable {cfg : Config} {ccfg : Classic.Config}

/-- A card that one listener emulates. -/
inductive Card (cfg : Config) (ccfg : Classic.Config)
  | ultralight (st : Ultralight.Type2.State cfg.ultralight)
  | classic (st : Classic.State ccfg)
  | felica (st : Felica.State)
  | slix (st : Slix.State)
  | isoDep (p : Listen) (st : Stack.State cfg)

def Card.protocol : Card cfg ccfg → Protocol
  | .ultralight _ => .ultralight
  | .classic _ => .classic
  | .felica _ => .felica
  | .slix _ => .slix
  | .isoDep p _ => p.protocol

structure Surroundings where
  tdes : Ultralight.Type2.Tdes
  rnd : Bytes
  silence : Errno

def Card.answer (env : Surroundings) : Card cfg ccfg → Bytes → Option (Card cfg ccfg × Option Bytes)
  | .ultralight st, tx =>
    (Ultralight.Type2.onTagCmd env.tdes st tx env.rnd).map fun r => (.ultralight r.1, r.2)
  | .classic st, tx => (Classic.onTagCmd st tx).map fun r => (.classic r.1, r.2)
  | .felica st, tx => (Felica.onTagCmd st tx).map fun r => (.felica st, r)
  | .slix st, tx => (Slix.onTagCmd st tx).map fun r => (.slix r.1, r.2)
  | .isoDep p st, tx => (Stack.onApdu st tx).map fun r => (.isoDep p r.1, r.2)

def emulated (env : Surroundings) : Session (Card cfg ccfg) where
  active := true
  tag := ⟨fun card tx => (card.answer env tx).map fun r =>
    (r.1, match r.2 with
      | none => .error env.silence
      | some rx => .ok rx)⟩

/-- An ISO-DEP listener behind a router that has the identifiers of its protocol and no others, with
nothing selected yet. -/
structure Alone (p : Listen) (st : Stack.State cfg) : Prop where
  assembler : st.assembler = true
  router : st.router.initialized = true
  table : st.router.table = (Stack.listenProfiles cfg).filter (·.svc = p)
  active : st.router.active = none
  fresh : p = .emv → st.listeners.emv.Fresh

def Card.Valid : Card cfg ccfg → Prop
  | .ultralight st =>
    st.initialized = true ∧ st.model.pagesTotal.toNat ≤ cfg.ultralight.maxPages ∧
      ∀ page < 4, page < st.model.pagesTotal.toNat → Ultralight.Type2.pageReadable st page = true
  | .classic st => st.initialized = true ∧ st.model.type ≠ .unknown
  | .felica st => st.initialized = true
  | .slix st =>
    st.initialized = true ∧ byteAt st.model.parent.uid.toList 0 = 0xE0 ∧
      byteAt st.model.parent.uid.toList 1 = Slix.nxpMfgCode ∧ st.model.privacyMode = 0
  | .isoDep p st => Alone p st

variable {env : Surroundings} {card card' : Card cfg ccfg}

theorem transceive_silent {tx : Bytes} (h : card.answer env tx = some (card', none)) (rxMax : ℕ) :
    (emulated env).transceive rxMax tx card = some (.error env.silence, card') := by
  simp only [Session.transceive, emulated, h, if_true, map_some]

theorem transceive_answered {tx rx : Bytes} {rxMax : ℕ}
    (h : card.answer env tx = some (card', some rx)) (hlen : rx.length ≤ rxMax) :
    (emulated env).transceive rxMax tx card = some (.ok rx, card') := by
  simp only [Session.transceive, emulated, h, if_true, map_some, if_neg (Nat.not_lt.mpr hlen)]

def Named (env : Surroundings) (card : Card cfg ccfg) (p : Protocol) : Prop :=
  ∃ card', pollersDetect (emulated env) cfg card = some (.ok (pollerName p), card')

def Takes (detect : Poll (Card cfg ccfg) Ret) (card : Card cfg ccfg) : Prop :=
  ∃ card', detect card = some (.ok (), card')

section Enabled

variable (henabled : ∀ p, cfg.enabled p = true)
include henabled

theorem named_of_takes {p : Protocol} (ps : List Protocol) {qs : List Protocol}
    (hsplit : [.ndef, .ultralight, .classic, .felica, .slix, .iso15693, .desfire, .emv, .aliro] =
      ps ++ p :: qs)
    (hrefuse : ∀ q ∈ ps,
      Refuses (pollerDetect (emulated env) (detectors (emulated env) cfg) q) card)
    (htakes : Takes (pollerDetect (emulated env) (detectors (emulated env) cfg) p) card) :
    Named env card p := by
  obtain ⟨card', htakes⟩ := htakes
  exact ⟨card', pollersDetect_of_refuses henabled hsplit hrefuse htakes⟩

omit henabled in
theorem Named.unique {p q : Protocol} (hp : Named env card p) (hq : Named env card q) :
    pollerName p = pollerName q := by
  obtain ⟨card₁, hp⟩ := hp
  obtain ⟨card₂, hq⟩ := hq
  rw [hp] at hq
  exact Except.ok.inj (congrArg Prod.fst (some.inj hq))

def firstFrame : Protocol → Bytes
  | .ndef => Ndef.selectAppV2
  | .ultralight => [0x30, 0x00]
  | .classic => [0x60, 0x00]
  | .felica => Felica.pollingFrame
  | _ => crcFrame Iso15693.crc16 [0x26, 0x01]

omit henabled in
theorem refuses_of_silent {q : Protocol} (hq : q ∈ [.ndef, .ultralight, .classic, .felica])
    (h : card.answer env (firstFrame q) = some (card, none)) :
    Refuses (pollerDetect (emulated env) (detectors (emulated env) cfg) q) card := by
  have hsilent := transceive_silent h
  simp only [mem_cons, not_mem_nil, or_false] at hq
  rcases hq with rfl | rfl | rfl | rfl
  · exact ⟨_, Ndef.pollerDetect_of_error rfl (hsilent _)⟩
  · exact ⟨_, Ultralight.pollerDetect_of_transceive rfl (hsilent _)⟩
  · exact ⟨_, Classic.pollerDetect_of_transceive rfl (hsilent _)⟩
  · exact ⟨_, Felica.pollerDetect_of_transceive rfl (hsilent _)⟩

theorem named_ultralight {st : Ultralight.Type2.State cfg.ultralight}
    (hvalid : (Card.ultralight st : Card cfg ccfg).Valid) :
    Named env (Card.ultralight st : Card cfg ccfg) .ultralight := by
  obtain ⟨hinit, htotal, hpages⟩ := hvalid
  obtain ⟨out, hread, hlen⟩ : ∃ out, Ultralight.Type2.readPages st 4 0 = some (some out) ∧
      out.length = 16 := by
    refine ⟨_, Ultralight.Type2.readPages_of_readable htotal fun p _ hp => hpages p (by omega), ?_⟩
    simp [List.range', Ultralight.Type2.length_pageBytes htotal, Ultralight.pageSize]
  have hselect : (Card.ultralight st : Card cfg ccfg).answer env Ndef.selectAppV2 =
      some (.ultralight st, none) := by
    simp only [Card.answer, Ultralight.Type2.onTagCmd]
    rw [if_neg (by simp [hinit, Ndef.selectAppV2])]
    rfl
  have hanswer : (Card.ultralight st : Card cfg ccfg).answer env [0x30, 0x00] =
      some (.ultralight st, some out) := by
    have hzero : (byteAt [0x30, 0x00] 1).toNat = 0 := rfl
    simp only [Card.answer, Ultralight.Type2.onTagCmd]
    rw [if_neg (by simp [hinit])]
    show Option.map _ ((Ultralight.Type2.handleRead st [0x30, 0x00]).map (st, ·)) = _
    rw [Ultralight.Type2.handleRead, hzero, hread]
    rfl
  refine named_of_takes henabled [.ndef] rfl ?_ ?_
  · simp only [mem_singleton, forall_eq]
    exact refuses_of_silent (by simp) hselect
  · have htrans := transceive_answered hanswer (show out.length ≤ maxResponseLen by
      simp [hlen, maxResponseLen])
    refine ⟨.ultralight st, (Ultralight.pollerDetect_of_transceive rfl htrans).trans ?_⟩
    simp [Ultralight.verdict, hlen]

theorem named_classic {st : Classic.State ccfg} (hvalid : (Card.classic st : Card cfg ccfg).Valid) :
    Named env (Card.classic st : Card cfg ccfg) .classic := by
  obtain ⟨hinit, htype⟩ := hvalid
  obtain ⟨st', hauth⟩ := Classic.onTagCmd_auth hinit htype
  have hselect : (Card.classic st : Card cfg ccfg).answer env Ndef.selectAppV2 =
      some (.classic st, none) := by
    simp only [Card.answer, Classic.onTagCmd]
    rw [if_neg (by simp [hinit, Ndef.selectAppV2]), if_neg (by simp [Ndef.selectAppV2]),
      if_neg (by simp [Ndef.selectAppV2]), if_neg (by simp [Ndef.selectAppV2])]
    rfl
  have hread : (Card.classic st : Card cfg ccfg).answer env [0x30, 0x00] =
      some (.classic st, none) := by
    simp only [Card.answer, Classic.onTagCmd]
    rw [if_neg (by simp [hinit]), if_neg (by simp)]
    rfl
  have hanswer : (Card.classic st : Card cfg ccfg).answer env [0x60, 0x00] =
      some (.classic st', some [0x10, 0x00, 0x00, 0x00]) := by
    rw [Card.answer, hauth]
    rfl
  -- READ is refused before an authentication, which the Ultralight poller takes for no card
  refine named_of_takes henabled [.ndef, .ultralight] rfl ?_ ?_
  · simp only [mem_cons, not_mem_nil, or_false, forall_eq_or_imp, forall_eq]
    exact ⟨refuses_of_silent (by simp) hselect, refuses_of_silent (by simp) hread⟩
  · exact ⟨_, Classic.pollerDetect_of_transceive rfl (transceive_answered hanswer (by decide))⟩

theorem named_felica {st : Felica.State} (hvalid : (Card.felica st : Card cfg ccfg).Valid) :
    Named env (Card.felica st : Card cfg ccfg) .felica := by
  -- the frames of the pollers before do not carry the checksum of the protocol
  have hsilent : ∀ tx, Felica.crcCheck tx = false →
      (Card.felica st : Card cfg ccfg).answer env tx = some (.felica st, none) := by
    intro tx htx
    rw [Card.answer, Felica.onTagCmd_of_crcCheck st htx]
    rfl
  have hanswer : (Card.felica st : Card cfg ccfg).answer env Felica.pollingFrame =
      some (.felica st, some (Felica.handlePoll st.model)) := by
    rw [Card.answer, Felica.onTagCmd_polling hvalid]
    rfl
  have hframes : ∀ q ∈ [.ndef, .ultralight, .classic],
      Felica.crcCheck (firstFrame q) = false := by decide +kernel
  refine named_of_takes henabled [.ndef, .ultralight, .classic] rfl ?_ ?_
  · intro q hq
    exact refuses_of_silent (by revert q; decide) (hsilent _ (hframes q hq))
  · have hlen : (Felica.handlePoll st.model).length ≤ Felica.maxBufferSize := by
      simp [Felica.length_handlePoll, Felica.maxBufferSize]
    have htrans := transceive_answered hanswer hlen
    refine ⟨.felica st, (Felica.pollerDetect_of_transceive rfl htrans).trans ?_⟩
    have htrim : Felica.crcTrim (Felica.handlePoll st.model) =
        [18, 0x01] ++ st.model.idm.toList ++ st.model.pmm.toList := crcTrim_crcFrame _ _
    have hcheck : Felica.crcCheck (Felica.handlePoll st.model) = true :=
      crcCheck_crcFrame _ (by simp)
    simp [Felica.verdict, htrim, hcheck, byteAt]

theorem named_slix {st : Slix.State} (hvalid : (Card.slix st : Card cfg ccfg).Valid) :
    Named env (Card.slix st : Card cfg ccfg) .slix := by
  obtain ⟨hinit, h0, h1, hprivacy⟩ := hvalid
  have hsilent : ∀ tx, Iso15693.crcCheck tx = false →
      (Card.slix st : Card cfg ccfg).answer env tx = some (.slix st, none) := by
    intro tx htx
    rw [Card.answer, Slix.onTagCmd_of_crcCheck st htx]
    rfl
  have hanswer : (Card.slix st : Card cfg ccfg).answer env
      (crcFrame Iso15693.crc16 [0x26, 0x01]) = some (.slix st,
        some (crcFrame Iso15693.crc16 (Iso15693.handleInventory st.model.parent))) := by
    rw [Card.answer, Slix.onTagCmd_inventory hinit hprivacy]
    rfl
  have hframes : ∀ q ∈ [.ndef, .ultralight, .classic, .felica],
      Iso15693.crcCheck (firstFrame q) = false := by decide +kernel
  refine named_of_takes henabled [.ndef, .ultralight, .classic, .felica] rfl ?_ ?_
  · exact fun q hq => refuses_of_silent hq (hsilent _ (hframes q hq))
  · have hlen : (crcFrame Iso15693.crc16 (Iso15693.handleInventory st.model.parent)).length ≤
        maxResponseLen := by
      simp [Iso15693.handleInventory, Iso15693.uidReversed, maxResponseLen]
    exact ⟨_, Slix.pollerDetect_of_inventory rfl (transceive_answered hanswer hlen) h0 h1⟩

end Enabled

section IsoDep

variable {p q : Listen} {st : Stack.State cfg} {aid : Bytes}

def probedAid : Listen → Bytes
  | .ndef => Stack.ndefAid
  | .desfire => Desfire.aid
  | .emv => Emv.ppseAid
  | .aliro => Aliro.expeditedAid

theorem length_probedAid (p : Listen) : 0 < (probedAid p).length ∧ (probedAid p).length < 256 := by
  cases p <;> decide

theorem probedAid_mem (henabled : ∀ p, cfg.enabled p = true) (p : Listen) :
    ⟨probedAid p, p⟩ ∈ Stack.listenProfiles cfg := by
  cases p <;> simp [probedAid, Stack.listenProfiles, Stack.listens, henabled]

theorem listenProfiles_svc {e e' : Router.Entry Listen} (he : e ∈ Stack.listenProfiles cfg)
    (he' : e' ∈ Stack.listenProfiles cfg) (haid : e.aid = e'.aid) : e.svc = e'.svc := by
  have hall : ∀ es : List (Router.Entry Listen), es = [⟨Stack.ndefAid, .ndef⟩,
      ⟨Emv.ppseAid, .emv⟩, ⟨Emv.serviceAppAid, .emv⟩, ⟨Desfire.aid, .desfire⟩,
      ⟨Aliro.expeditedAid, .aliro⟩, ⟨Aliro.stepupAid, .aliro⟩] →
      ∀ e ∈ es, ∀ e' ∈ es, e.aid = e'.aid → e.svc = e'.svc := by
    rintro es rfl
    decide
  exact hall _ rfl e (mem_of_mem_filter he) e' (mem_of_mem_filter he') haid

theorem Alone.findAid_own (h : Alone p st) (hmem : ⟨aid, p⟩ ∈ Stack.listenProfiles cfg) :
    st.router.findAid aid = some ⟨aid, p⟩ := by
  cases hfind : st.router.findAid aid with
  | none =>
    rw [Router.State.findAid, h.table, find?_eq_none] at hfind
    exact absurd BEq.rfl (hfind ⟨aid, p⟩ (mem_filter.mpr ⟨hmem, by simp⟩))
  | some entry =>
    rw [Router.State.findAid, h.table] at hfind
    have haid : entry.aid = aid := by simpa using find?_some hfind
    have hsvc : entry.svc = p := by
      simpa using (mem_filter.mp (mem_of_find?_eq_some hfind)).2
    rw [← haid, ← hsvc]

theorem Alone.findAid_other (h : Alone p st) (hmem : ⟨aid, q⟩ ∈ Stack.listenProfiles cfg)
    (hne : q ≠ p) : st.router.findAid aid = none := by
  rw [Router.State.findAid, h.table, find?_eq_none]
  intro e he haid
  obtain ⟨hin, hsvc⟩ := mem_filter.mp he
  have hsame : q = e.svc := listenProfiles_svc hmem hin (eq_of_beq haid).symm
  exact hne (hsame.trans (by simpa using hsvc))

/-! The frames that the listener does not get to see. -/

section

variable (h : Alone p st)
include h

theorem Alone.answer_malformed {tx : Bytes} (hparse : apduParse cfg.extendedApdu tx = none) :
    (Card.isoDep p st : Card cfg ccfg).answer env tx = some (.isoDep p st, some [0x67, 0x00]) := by
  simp only [Card.answer, Stack.onApdu, Stack.onApduCommit]
  rw [if_neg (by simp [h.assembler]), hparse]
  rfl

theorem Alone.answer_inventory :
    (Card.isoDep p st : Card cfg ccfg).answer env (crcFrame Iso15693.crc16 [0x26, 0x01]) =
      some (.isoDep p st, some [0x69, 0x86]) := by
  have hframe : crcFrame Iso15693.crc16 [0x26, 0x01] = [0x26, 0x01, 0x2D, 0x69] := by
    decide +kernel
  have hparse : apduParse cfg.extendedApdu [0x26, 0x01, 0x2D, 0x69] =
      some ⟨0x26, 0x01, 0x2D, 0x69, [], 0, false, false⟩ := rfl
  simp only [Card.answer, Stack.onApdu, Stack.onApduCommit, hframe]
  rw [if_neg (by simp [h.assembler]), hparse]
  simp only [Router.dispatch]
  rw [if_neg (by simp [h.router]), h.active]
  rfl

variable (henabled : ∀ p, cfg.enabled p = true)
include henabled

theorem Alone.answer_other (hne : q ≠ p) (le : Option UInt8) :
    (Card.isoDep p st : Card cfg ccfg).answer env (selectCommand 0x00 (probedAid q) le) =
      some (.isoDep p st, some [0x6A, 0x82]) := by
  obtain ⟨hpos, hlen⟩ := length_probedAid q
  simp only [Card.answer, Stack.onApdu_select h.assembler h.router 0x00 le hpos hlen,
    h.findAid_other (probedAid_mem henabled q) hne]
  rfl

theorem Alone.answer_own (le : Option UInt8) {x : p.Own cfg} {rsp : Bytes}
    (hselect : p.ownService.callSelect (p.region.get st.listeners) (probedAid p) =
      some (x, some rsp)) :
    ∃ st', (Card.isoDep p st : Card cfg ccfg).answer env (selectCommand 0x00 (probedAid p) le) =
      some (.isoDep p st', some rsp) := by
  obtain ⟨hpos, hlen⟩ := length_probedAid p
  simp only [Card.answer, Stack.onApdu_select h.assembler h.router 0x00 le hpos hlen,
    h.findAid_own (probedAid_mem henabled p), Router.leave, h.active, listenService,
    Service.callSelect_within, hselect, map_some]
  exact ⟨_, rfl⟩

theorem Alone.refuses (hdesfire : p ≠ .desfire) {q : Protocol} (hq : q ≠ p.protocol)
    (haliro : q ≠ .aliro) :
    Refuses (pollerDetect (emulated env) (detectors (emulated env) cfg) q)
      (Card.isoDep p st : Card cfg ccfg) := by
  have hother : ∀ {q : Listen} (le : Option UInt8), q ≠ p → (emulated env).transceive maxResponseLen
      (selectCommand 0x00 (probedAid q) le) (Card.isoDep p st : Card cfg ccfg) =
        some (.ok [0x6A, 0x82], .isoDep p st) :=
    fun le hne => transceive_answered (h.answer_other henabled hne le) (by decide)
  have hmalformed : ∀ {rxMax : ℕ} (tx : Bytes), apduParse cfg.extendedApdu tx = none → 2 ≤ rxMax →
      (emulated env).transceive rxMax tx (Card.isoDep p st : Card cfg ccfg) =
        some (.ok [0x67, 0x00], .isoDep p st) :=
    fun tx hparse hmax => transceive_answered (h.answer_malformed hparse) hmax
  have hinventory : (emulated env).transceive maxResponseLen (crcFrame Iso15693.crc16 [0x26, 0x01])
      (Card.isoDep p st : Card cfg ccfg) = some (.ok [0x69, 0x86], .isoDep p st) :=
    transceive_answered h.answer_inventory (by decide)
  cases q with
  | ndef =>
    -- the identifier of the second SELECT is that of DESFire
    exact ⟨_, Ndef.pollerDetect_of_selectV1 rfl (hother (q := .ndef) (some 0) (by
      rintro rfl
      exact hq rfl)) rfl (hother (q := .desfire) none hdesfire.symm)⟩
  | ultralight => exact ⟨_, Ultralight.pollerDetect_of_transceive rfl (hmalformed _ rfl (by decide))⟩
  | classic => exact ⟨_, Classic.pollerDetect_of_transceive rfl (hmalformed _ rfl (by decide))⟩
  | felica =>
    have hparse : apduParse cfg.extendedApdu Felica.pollingFrame = none := by
      cases cfg.extendedApdu <;> decide +kernel
    exact ⟨.enotsup, Felica.pollerDetect_of_transceive rfl (hmalformed _ hparse (by decide))⟩
  | slix => exact ⟨_, Slix.pollerDetect_refused rfl hinventory (by rintro rx ⟨⟩; rfl)⟩
  | iso15693 => exact ⟨_, Iso15693.pollerDetect_refused rfl hinventory (by rintro rx ⟨⟩; rfl)⟩
  | desfire =>
    exact ⟨_, Desfire.pollerDetect_unselected rfl (hother (q := .desfire) none hdesfire.symm) rfl⟩
  | emv =>
    exact ⟨_, Emv.pollerDetect_of_transceive rfl (hother (q := .emv) none (by
      rintro rfl
      exact hq rfl))⟩
  | aliro => exact absurd rfl haliro

end

section

variable (henabled : ∀ p, cfg.enabled p = true)
include henabled

theorem named_ndef (h : Alone .ndef st) :
    Named env (Card.isoDep .ndef st : Card cfg ccfg) .ndef := by
  obtain ⟨st', hanswer⟩ : ∃ st', (Card.isoDep .ndef st : Card cfg ccfg).answer env
      Ndef.selectAppV2 = some (.isoDep .ndef st', some [0x90, 0x00]) :=
    h.answer_own henabled (some 0) rfl
  refine named_of_takes henabled [] rfl (by simp) ?_
  exact ⟨_, Ndef.pollerDetect_of_selectV2 rfl (transceive_answered hanswer (by decide)) rfl⟩

theorem desfire_named_ndef (h : Alone .desfire st) :
    Named env (Card.isoDep .desfire st : Card cfg ccfg) .ndef := by
  have hv2 : (Card.isoDep .desfire st : Card cfg ccfg).answer env Ndef.selectAppV2 =
      some (.isoDep .desfire st, some [0x6A, 0x82]) :=
    h.answer_other henabled (show Listen.ndef ≠ .desfire by decide) (some 0)
  obtain ⟨st', hv1⟩ : ∃ st', (Card.isoDep .desfire st : Card cfg ccfg).answer env
      Ndef.selectAppV1 = some (.isoDep .desfire st', some [0x90, 0x00]) :=
    h.answer_own henabled none rfl
  refine named_of_takes henabled [] rfl (by simp) ?_
  exact ⟨_, Ndef.pollerDetect_of_selectV1 rfl (transceive_answered hv2 (by decide)) rfl
    (transceive_answered hv1 (by decide))⟩

theorem named_emv (h : Alone .emv st) : Named env (Card.isoDep .emv st : Card cfg ccfg) .emv := by
  have hfresh := h.fresh rfl
  have hselect : Listen.emv.ownService.callSelect (Listen.emv.region.get st.listeners)
      (probedAid .emv) = some ({ st.listeners.emv with session := .ppseSelected },
        some (st.listeners.emv.wire.ppseFci ++ [0x90, 0x00])) := by
    show (Emv.onSelect st.listeners.emv Emv.ppseAid).map (fun r => (r.1, some r.2)) = _
    rw [Emv.onSelect, hfresh.send_ppseFci]
    rfl
  obtain ⟨st', hanswer⟩ := h.answer_own henabled none hselect
  refine named_of_takes henabled
    [.ndef, .ultralight, .classic, .felica, .slix, .iso15693, .desfire] rfl ?_ ?_
  · exact fun q hq => h.refuses henabled (by decide) (by revert q; decide) (by revert q; decide)
  · have hlen : (st.listeners.emv.wire.ppseFci ++ [0x90, 0x00]).length ≤ maxResponseLen := by
      have haid := hfresh.length_aid
      have hle := hfresh.aidLen_le
      simp only [hfresh.wire_eq.1, Emv.ppseAid, length_append, length_cons,
        length_nil, maxResponseLen, Emv.appAidMaxBytes] at hle ⊢
      omega
    refine ⟨.isoDep .emv st',
      (Emv.pollerDetect_of_transceive rfl (transceive_answered hanswer hlen)).trans ?_⟩
    simp [Emv.verdict, Ndef.endsWith]

theorem named_aliro (h : Alone .aliro st) :
    Named env (Card.isoDep .aliro st : Card cfg ccfg) .aliro := by
  obtain ⟨st', hanswer⟩ : ∃ st', (Card.isoDep .aliro st : Card cfg ccfg).answer env
      (selectCommand 0x00 (probedAid .aliro) none) =
        some (.isoDep .aliro st', some Aliro.selectRsp) :=
    h.answer_own henabled none rfl
  refine named_of_takes henabled
    [.ndef, .ultralight, .classic, .felica, .slix, .iso15693, .desfire, .emv] rfl ?_ ?_
  · exact fun q hq => h.refuses henabled (by decide) (by revert q; decide) (by revert q; decide)
  · exact ⟨_, Aliro.pollerDetect_of_transceive rfl (transceive_answered hanswer (by decide))⟩

end

end IsoDep

/-- A card is detected as one of its own protocol unless it is a DESFire card. -/
theorem pollersDetect_iff (henabled : ∀ p, cfg.enabled p = true) (env : Surroundings)
    {card : Card cfg ccfg} (hvalid : card.Valid) :
    Named env card card.protocol ↔ card.protocol ≠ .desfire := by
  cases card with
  | ultralight st => exact iff_of_true (named_ultralight henabled hvalid) (by simp [Card.protocol])
  | classic st => exact iff_of_true (named_classic henabled hvalid) (by simp [Card.protocol])
  | felica st => exact iff_of_true (named_felica henabled hvalid) (by simp [Card.protocol])
  | slix st => exact iff_of_true (named_slix henabled hvalid) (by simp [Card.protocol])
  | isoDep p st =>
    simp only [Card.protocol]
    cases p with
    | ndef => exact iff_of_true (named_ndef henabled hvalid) (by simp [Listen.protocol])
    | emv => exact iff_of_true (named_emv henabled hvalid) (by simp [Listen.protocol])
    | aliro => exact iff_of_true (named_aliro henabled hvalid) (by simp [Listen.protocol])
    | desfire =>
      refine iff_of_false ?_ (by simp [Listen.protocol])
      intro hdesfire
      have hndef : Named env (Card.isoDep .desfire st : Card cfg ccfg) .ndef :=
        desfire_named_ndef henabled hvalid
      exact absurd (hndef.unique hdesfire) (by decide)

def soleListener (p : Listen) : Stack.State Config.default :=
  { Stack.stackUp with
    router := ⟨true, (Stack.listenProfiles Config.default).filter (·.svc = p), none⟩ }

theorem soleListener_alone {p : Listen} (hp : p ≠ .emv) : Alone p (soleListener p) where
  assembler := show Stack.stackUp.assembler = true by decide +kernel
  router := rfl
  table := rfl
  active := rfl
  fresh h := absurd h hp

def plainSurroundings : Surroundings := ⟨⟨fun _ _ x => x, fun _ _ x => x⟩, [], .etimedout⟩

def soleCard (p : Listen) : Card Config.default Classic.Config.default := .isoDep p (soleListener p)

theorem aliro_card_named :
    (soleCard .aliro).Valid ∧ Named plainSurroundings (soleCard .aliro) .aliro := by
  have hvalid : (soleCard .aliro).Valid := soleListener_alone (by decide)
  exact ⟨hvalid, (pollersDetect_iff (fun _ => rfl) plainSurroundings hvalid).mpr (by decide)⟩

theorem desfire_card_misnamed : (soleListener .desfire).listeners.desfire.model.Valid ∧
      (soleCard .desfire).Valid ∧ (soleCard .desfire).protocol = .desfire ∧
      Named plainSurroundings (soleCard .desfire) .ndef ∧
      ¬ Named plainSurroundings (soleCard .desfire) .desfire := by
  have hvalid : Alone .desfire (soleListener .desfire) := soleListener_alone (by decide)
  have hndef : Named plainSurroundings (soleCard .desfire) .ndef :=
    desfire_named_ndef (fun _ => rfl) hvalid
  have hmodel : (soleListener .desfire).listeners.desfire.model.appCount = 0 := by decide +kernel
  exact ⟨(Desfire.Data.inBounds_of_no_apps hmodel).valid, hvalid, rfl, hndef,
    fun hdesfire => absurd (hndef.unique hdesfire) (by decide)⟩

end Reader

end NfcStack
