import NfcStack.Protocols.Ndef.Capture
import NfcStack.Stack.Load

/-!
# The check applet

`verify_work_handler` of `applets/nfc_applet_verify.c`. A slot without an NDEF entry leaves the card
before it in the listener.
-/

namespace NfcStack

open List Option Reader Stack Poll

namespace Applets

def copyListenerModel {cfg : Ndef.Config} (outMax : ℕ) (st : Ndef.State cfg) :
    Ndef.State cfg × Except Errno (Ndef.Data cfg) :=
  match Ndef.listenerSerialize st outMax with
  | (st, .error e) => (st, .error e)
  | (st, .ok bytes) =>
    match Ndef.deserialize .reset bytes with
    | (_, .error e) => (st, .error e)
    | (data, .ok ()) => (st, .ok data)

def verifyCompare {cfg : Ndef.Config} (expected actual : Ndef.Data cfg) : Ret :=
  if expected.ccLen ≠ actual.ccLen ∨
      expected.cc.slice 0 expected.ccLen.toNat ≠ actual.cc.slice 0 expected.ccLen.toNat then
    .error .ebadmsg
  else if expected.ndefFileLen ≠ actual.ndefFileLen ∨
      expected.ndefFile.slice 0 expected.ndefFileLen.toNat ≠
        actual.ndefFile.slice 0 expected.ndefFileLen.toNat then
    .error .ebadmsg
  else .ok ()

variable {cfg : Config} {τ : Type}

def verifySetup (stopRet : Ret) (st : State cfg) : State cfg :=
  let st := if st.phase = .started then (stop stopRet st).1 else st
  { st with
    store := (Store.init st.store).1
    listeners := { st.listeners with ndef := (Ndef.listenerInit st.listeners.ndef none true).1 } }

def verifyTag (s : Session τ) (expected : Ndef.Data cfg.ndef) : Poll τ Ret := do
  match ← Ndef.pollerDetect s with
  | .error e => return .error e
  | .ok () =>
    let actual ← Ndef.pollerRead s (.reset : Ndef.Data cfg.ndef)
    match actual.2 with
    | .error e => return .error e
    | .ok () => return verifyCompare expected actual.1

/-- `verify_work_handler`; `discover` is the result of `nfc_reader_discover_once` and `session` the
session it has opened. -/
def verifyWork (crc : Bytes → UInt16) (stopRet discover : Ret) (session : Option (Session τ))
    (st : State cfg) (slot : Store.TagName) : Poll τ (State cfg × Ret) :=
  let st := verifySetup stopRet st
  match Store.load crc (st.phase == .started) st.store [listenService .ndef] st.listeners slot with
  | none => Poll.undefined
  | some (listeners, .error e) => return ({ st with listeners }, .error e)
  | some (listeners, .ok ()) =>
    let copy := copyListenerModel cfg.store.blobSize listeners.ndef
    let st := { st with listeners := { listeners with ndef := copy.1 } }
    match copy.2, discover, session with
    | .error e, _, _ => return (st, .error e)
    | .ok _, .error e, _ => return (st, .error e)
    | .ok _, .ok (), none => return (st, .error .enodev)
    | .ok expected, .ok (), some s => do return (st, ← verifyTag s expected)

theorem copyListenerModel_content {outMax : ℕ} {x st : Ndef.State cfg.ndef} {body : Bytes}
    {expected : Ndef.Data cfg.ndef} (hst : Ndef.listenerDeserialize x body = (st, .ok ()))
    (h : (copyListenerModel outMax st).2 = .ok expected) :
    ∃ data : Ndef.Data cfg.ndef, Ndef.deserialize .reset body = (data, .ok ()) ∧
      expected.ccLen.toNat = Ndef.ccSize ∧
      expected.content = (data.withCc st.writable).content := by
  obtain ⟨hok, hst⟩ := Ndef.listenerDeserialize_ok hst
  obtain ⟨data, hdata⟩ : ∃ data, Ndef.deserialize (.reset : Ndef.Data cfg.ndef) body =
      (data, .ok ()) := ⟨_, (Ndef.deserialize_of_ok hok _).trans (Prod.ext rfl hok)⟩
  have hmodel : st.model = Ndef.padNdefFile (data.withCc st.writable) := by
    rw [hst, ← Ndef.deserialize_of_ok hok .reset, hdata]
    rfl
  have hcap := (Ndef.captured_of_deserialize hdata).withCc st.writable
  refine ⟨data, hdata, ?_⟩
  unfold copyListenerModel Ndef.listenerSerialize at h
  by_cases hinit : st.initialized = true
  swap
  · simp [hinit] at h
  simp only [hinit, not_true_eq_false, if_false, hmodel,
    Ndef.serialize_syncFileLen_padNdefFile hcap] at h
  cases hs : Ndef.serialize (data.withCc st.writable) outMax with
  | error e =>
    rw [hs] at h
    cases h
  | ok bytes =>
    rw [hs] at h
    obtain ⟨data', hdes, hcc, hcontent⟩ := Ndef.deserialize_serialize hcap hs .reset
    simp only [hdes] at h
    cases h
    exact ⟨hcc, hcontent⟩

theorem servicesOf_ndef :
    servicesOf (· == .ndef) = [(listenService .ndef : Service (Listeners cfg))] := rfl

theorem writable_dispatchAll {es : List Store.Entry} {l l' : Listeners cfg} {accepted : Bool}
    (h : Store.dispatchAll [listenService .ndef] es l = some (l', accepted)) :
    l'.ndef.writable = l.ndef.writable := by
  rw [← servicesOf_ndef] at h
  refine dispatchAll_induction (J := (·.ndef.writable = l.ndef.writable)) ?_ rfl h
  rintro entry - p - l₁ x ret hl₁ hx
  cases p with
  | ndef =>
    have hx : Ndef.listenerDeserialize l₁.ndef entry.body = (x, ret) := some.inj hx
    have hkept : (Ndef.listenerDeserialize l₁.ndef entry.body).1.writable = l₁.ndef.writable := by
      unfold Ndef.listenerDeserialize
      split
      · rfl
      · dsimp only
        split <;> rfl
    rw [hx] at hkept
    exact hkept.trans hl₁
  | desfire | emv | aliro => exact hl₁

theorem content_eq_of_verifyCompare {cfg : Ndef.Config} {expected actual : Ndef.Data cfg}
    (hcc : expected.ccLen.toNat = Ndef.ccSize) (h : verifyCompare expected actual = .ok ()) :
    expected.content = actual.content := by
  unfold verifyCompare at h
  split at h
  · cases h
  next hccs =>
  split at h
  · cases h
  next hfiles =>
  push Not at hccs hfiles
  rw [hcc, CArray.slice_all, CArray.slice_all] at hccs
  rw [Ndef.Data.content, Ndef.Data.content, hccs.2, hfiles.2, hfiles.1]

theorem ramLoad_of_load {cfg : Store.Config} {st : Store.State cfg} {tag : Store.TagName}
    {blob : Bytes} (h : Store.callLoad (Store.init st).1 tag = .ok blob) :
    Store.ramLoad st tag = .ok blob := by
  unfold Store.callLoad at h
  split at h
  · cases h
  · unfold Store.init at h
    split at h <;> exact h

theorem verifyTag_ok {s : Session τ} {expected : Ndef.Data cfg.ndef} {t t' : τ}
    (h : verifyTag s expected t = some (.ok (), t')) :
    ∃ actual t₁, Ndef.pollerDetect s t = some (.ok (), t₁) ∧
      Ndef.pollerRead s (.reset : Ndef.Data cfg.ndef) t₁ = some ((actual, .ok ()), t') ∧
      verifyCompare expected actual = .ok () := by
  obtain ⟨detected, t₁, hdetect, h⟩ := bind_eq_some h
  cases detected with
  | error e => cases h
  | ok _ =>
    obtain ⟨⟨actual, ret⟩, t₂, hread, h⟩ := bind_eq_some h
    cases ret with
    | error e => cases h
    | ok _ =>
      obtain ⟨hcompare, rfl⟩ := Prod.mk.inj (some.inj h)
      exact ⟨actual, t₁, hdetect, hread, hcompare⟩

theorem verifyWork_ok {crc : Bytes → UInt16} {stopRet discover : Ret}
    {session : Option (Session τ)} {st st' : State cfg} {slot : Store.TagName} {t t' : τ}
    (h : verifyWork crc stopRet discover session st slot t = some ((st', .ok ()), t')) :
    ∃ l s expected,
      Store.load crc ((verifySetup stopRet st).phase == .started) (verifySetup stopRet st).store
        [listenService .ndef] (verifySetup stopRet st).listeners slot = some (l, .ok ()) ∧
      (copyListenerModel cfg.store.blobSize l.ndef).2 = .ok expected ∧ session = some s ∧
      verifyTag s expected t = some (.ok (), t') := by
  unfold verifyWork at h
  cases hload : Store.load crc ((verifySetup stopRet st).phase == .started)
      (verifySetup stopRet st).store [listenService .ndef] (verifySetup stopRet st).listeners
      slot with
  | none =>
    rw [hload] at h
    cases h
  | some r =>
    obtain ⟨l, ret⟩ := r
    rw [hload] at h
    cases ret with
    | error e => cases h
    | ok _ =>
      cases hcopy : (copyListenerModel cfg.store.blobSize l.ndef).2 with
      | error e =>
        simp only [hcopy] at h
        cases h
      | ok expected =>
        cases discover with
        | error e =>
          simp only [hcopy] at h
          cases h
        | ok _ =>
          cases session with
          | none =>
            simp only [hcopy] at h
            cases h
          | some s =>
            simp only [hcopy] at h
            obtain ⟨ret, t₁, htag, h⟩ := bind_eq_some h
            cases h
            exact ⟨l, s, expected, rfl, hcopy, rfl, htag⟩

/-- The body is what the listener decodes to this capability container and file: the stored ones,
but for a container of zeros, which stands for that of the build. -/
def DecodesTo (cfg : Config) (writable : Bool) (body : Bytes) (content : Bytes × Bytes) : Prop :=
  ∃ data : Ndef.Data cfg.ndef, Ndef.deserialize .reset body = (data, .ok ()) ∧
    content = (data.withCc writable).content

/-- After a check with the result 0 the slot holds an NDEF card with the content that was read from
the tag, exactly if the stored blob has an NDEF entry at all. -/
theorem verify_sound_iff (crc : Bytes → UInt16) {stopRet discover : Ret}
    {session : Option (Session τ)} {st st' : State cfg} {slot : Store.TagName} {t t' : τ}
    (h : verifyWork crc stopRet discover session st slot t = some ((st', .ok ()), t')) :
    ∃ s actual t₁ blob es, session = some s ∧ Ndef.pollerDetect s t = some (.ok (), t₁) ∧
      Ndef.pollerRead s (.reset : Ndef.Data cfg.ndef) t₁ = some ((actual, .ok ()), t') ∧
      Store.ramLoad st.store slot = .ok blob ∧ Store.blobEntries crc blob = some es ∧
      ((∃ body, Store.lastBody Listen.ndef.code es = some body ∧
          DecodesTo cfg (verifySetup stopRet st).listeners.ndef.writable body actual.content) ↔
        ∃ entry ∈ es, entry.persistId = Listen.ndef.code) := by
  obtain ⟨l, s, expected, hload, hcopy, hsession, htag⟩ := verifyWork_ok h
  obtain ⟨actual, t₁, hdetect, hread, hcompare⟩ := verifyTag_ok htag
  obtain ⟨-, hret, -⟩ | ⟨-, -, version, payload, accepted, henv, hall, hiff⟩ :=
    Store.load_cases hload
  · exact absurd rfl hret
  obtain ⟨rfl, hwhole⟩ := hiff.mp rfl
  obtain ⟨blob, hblob, hopen⟩ := Store.readEnvelope_ok henv
  -- neither the stop nor the start of the store touches its slots
  have hstored : Store.ramLoad st.store slot = .ok blob := by
    have hphase : (verifySetup stopRet st).store = (Store.init st.store).1 := by
      unfold verifySetup
      split
      · unfold stop
        repeat' split
        all_goals rfl
      · rfl
    rw [hphase] at hblob
    exact ramLoad_of_load hblob
  have hentries : Store.blobEntries crc blob = some (Store.entries version payload).1 := by
    simp only [Store.blobEntries, hopen, hwhole, if_true]
  refine ⟨s, actual, t₁, blob, _, hsession, hdetect, hread, hstored, hentries, ?_⟩
  constructor
  · rintro ⟨body, hbody, -⟩
    obtain ⟨entry, hentry, hpid, -⟩ := Store.lastBody_mem hbody
    exact ⟨entry, hentry, hpid⟩
  · rintro ⟨entry, hentry, hpid⟩
    obtain ⟨body, hbody⟩ := ne_none_iff_exists'.mp
      fun hnone => Store.lastBody_eq_none hnone entry hentry hpid
    obtain ⟨x, hx⟩ := dispatchAll_last rfl (servicesOf_ndef.symm ▸ hall) hbody
    have hx : Ndef.listenerDeserialize x body = (l.ndef, .ok ()) := some.inj hx
    obtain ⟨data, hdata, hcc, hcontent⟩ := copyListenerModel_content hx hcopy
    refine ⟨body, hbody, data, hdata, ?_⟩
    rw [← content_eq_of_verifyCompare hcc hcompare, hcontent, writable_dispatchAll hall]

def messageTag (nlen : UInt8) : Session Unit where
  active := true
  tag.step _ tx := some ((), .ok
    (if tx = Ndef.readCc then (Ndef.buildCc .default true).toList ++ [0x90, 0x00]
    else if tx = Ndef.readBinary 0 2 then [0x00, nlen, 0x90, 0x00]
    else if tx = Ndef.readBinary 2 1 then [0xD0, 0x90, 0x00]
    else [0x90, 0x00]))

def checked (st : State Config.default) (nlen : UInt8) : Option (State Config.default × Ret) :=
  (verifyWork Store.crc16Ccitt (.ok ()) (.ok ()) (some (messageTag nlen)) st cardTag ()).map
    Prod.fst

theorem verify_sound_message :
    (checked (cardStored .ndef shortMessage) 1).map Prod.snd = some (.ok ()) ∧
    ∃ content, DecodesTo .default true shortMessage content ∧
      Store.blobEntries Store.crc16Ccitt (Store.writeBlob Store.crc16Ccitt
        (Store.writeEntry PersistId.ndef.code shortMessage)) =
          some [⟨PersistId.ndef.code, shortMessage⟩] := by
  have hret : (checked (cardStored .ndef shortMessage) 1).map Prod.snd = some (.ok ()) := by
    decide +kernel
  have hblob : Store.ramLoad (cardStored .ndef shortMessage).store cardTag =
      .ok (Store.writeBlob Store.crc16Ccitt
        (Store.writeEntry PersistId.ndef.code shortMessage)) := by decide +kernel
  have hes : Store.blobEntries Store.crc16Ccitt (Store.writeBlob Store.crc16Ccitt
      (Store.writeEntry PersistId.ndef.code shortMessage)) =
        some [⟨PersistId.ndef.code, shortMessage⟩] := by decide +kernel
  have hwritable : (verifySetup (.ok ()) (cardStored .ndef shortMessage)).listeners.ndef.writable =
      true := by decide +kernel
  obtain ⟨⟨st', _⟩, hchecked, rfl⟩ := map_eq_some_iff.mp hret
  obtain ⟨⟨r, ⟨⟩⟩, h, rfl⟩ := map_eq_some_iff.mp hchecked
  obtain ⟨s, actual, -, blob, es, -, -, -, hblob', hes', hiff⟩ :=
    verify_sound_iff Store.crc16Ccitt h
  obtain rfl := Except.ok.inj (hblob.symm.trans hblob')
  obtain rfl := some.inj (hes.symm.trans hes')
  obtain ⟨_, ⟨⟩, hdecodes⟩ := hiff.mpr ⟨_, mem_singleton_self _, rfl⟩
  rw [hwritable] at hdecodes
  exact ⟨hret, _, hdecodes, hes⟩

def emvImage : Bytes :=
  ((Emv.serialize (Emv.loadDefault : Emv.Image .default) 4096).bind Except.toOption).getD []

theorem verify_accepts_without_ndef :
    (checked (cardStored .emv emvImage) 0).map Prod.snd = some (.ok ()) ∧
    (Store.ramLoad (cardStored .emv emvImage).store cardTag).toOption.bind
        (Store.blobEntries Store.crc16Ccitt) = some [⟨PersistId.emv.code, emvImage⟩] ∧
    Store.lastBody Listen.ndef.code [⟨PersistId.emv.code, emvImage⟩] = none := by
  refine ⟨?_, ?_, ?_⟩ <;> decide +kernel

end Applets

end NfcStack
