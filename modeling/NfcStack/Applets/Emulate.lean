import NfcStack.Stack.Load

/-!
# The emulate applet

`applets/nfc_applet_emulate.c` with the policy of `applets/nfc_applet_policy.c`: the
first entry of a slot decides whether the slot may be emulated, and the stack is then
loaded and started.
-/

namespace NfcStack

variable {cfg : Config}

def Store.peekEntryMeta {cfg : Store.Config} (crc : Bytes → UInt16) (started : Bool)
    (st : Store.State cfg) (tag : Store.TagName) : Except Errno (UInt8 × UInt8) :=
  if started then .error .ebusy
  else if ¬ st.initialized then .error .enodev
  else if ¬ st.validTag tag then .error .einval
  else
    match Store.readEnvelope crc st tag with
    | .error e => .error e
    | .ok (version, payload) =>
      if payload.length = 0 ∨ payload.length < Store.entryOverhead version then .error .ebadmsg
      else .ok (byteAt payload 0, if version = Store.versionV1 then 0 else byteAt payload 1)

theorem Store.entries_head {version : UInt8} {payload : Bytes} (hne : payload ≠ [])
    (h : (Store.entries version payload).2 = true) :
    ∃ entry es, (Store.entries version payload).1 = entry :: es ∧
      entry.persistId = byteAt payload 0 := by
  cases htake : Store.takeEntry version payload with
  | none =>
    obtain ⟨b, rest, rfl⟩ := List.exists_cons_of_ne_nil hne
    simp [Store.entries, Store.entriesFrom, htake] at h
  | some p =>
    obtain ⟨entry, rest⟩ := p
    refine ⟨entry, _, by rw [Store.entries_of_takeEntry htake], ?_⟩
    unfold Store.takeEntry at htake
    simp only at htake
    split at htake
    · cases htake
    · cases htake
      rfl

namespace Applets

open Stack

def persistEmulatable (persistId : UInt8) : Bool :=
  [PersistId.ndef, .ultralight, .emv, .desfire, .aliro].any fun pid => pid.code == persistId

structure Caps where
  read : Bool
  emulate : Bool
  verify : Bool
deriving DecidableEq, Repr

variable (halListens : Bool) (persistId flags : UInt8)

def capsForCard : Caps where
  read := true
  verify := true
  emulate := flags &&& 0x04 != 0 && persistEmulatable persistId && halListens

def checkEmulate : Ret :=
  if flags &&& 0x08 ≠ 0 then .error .enotsup
  else if (capsForCard halListens persistId flags).emulate then .ok ()
  else .error .enotsup

structure Transport where
  setup : TransportSetup
  start : Ret
  listens : Bool
deriving DecidableEq

def prepare (setup : TransportSetup) (st : State cfg) : Option (State cfg × Ret) :=
  match init setup st with
  | none => none
  | some (st, ret) =>
    if ret ≠ .ok () ∧ ret ≠ .error .ealready then some (st, ret)
    else some ({ st with store := (Store.init st.store).1 }, .ok ())

def emulate (crc : Bytes → UInt16) (transport : Transport) (st : State cfg)
    (slot : Store.TagName) : Option (State cfg × Ret) :=
  match prepare transport.setup st with
  | none => none
  | some (st, .error e) => some (st, .error e)
  | some (st, .ok ()) =>
    match Store.peekEntryMeta crc (st.phase == .started) st.store slot with
    | .error e => some (st, .error e)
    | .ok (persistId, flags) =>
      match checkEmulate transport.listens persistId flags with
      | .error e => some (st, .error e)
      | .ok () =>
        match load crc st slot with
        | none => none
        | some (st, .error e) => some (st, .error e)
        | some (st, .ok ()) => some (Stack.start true transport.start st)

/-- A listener of the stack has taken the entry and gives it its state, which the entries `es` behind
it then make into `l'`. It still has this state if none of them is for it. -/
def Applied (l l' : Listeners cfg) (entry : Store.Entry) (es : List Store.Entry) : Prop :=
  ∃ p x, listens cfg p = true ∧ p.code = entry.persistId ∧
    p.ownService.callDeserialize (p.region.get l) entry.body = some (x, .ok ()) ∧
    Store.dispatchAll (listenServices cfg) es (p.region.set l x) = some (l', true) ∧
    ((∀ e ∈ es, e.persistId ≠ entry.persistId) → p.region.get l' = x)

variable {crc : Bytes → UInt16} {slot : Store.TagName} {st st' : State cfg}

theorem emulate_ok {transport : Transport}
    (h : emulate crc transport st slot = some (st', .ok ())) :
    ∃ st₀ st₁ info, prepare transport.setup st = some (st₀, .ok ()) ∧
      Store.peekEntryMeta crc (st₀.phase == .started) st₀.store slot = .ok info ∧
      checkEmulate transport.listens info.1 info.2 = .ok () ∧
      load crc st₀ slot = some (st₁, .ok ()) ∧
      Stack.start true transport.start st₁ = (st', .ok ()) := by
  unfold emulate at h
  split at h
  · cases h
  · cases h
  next st₀ hprepare =>
  split at h
  · cases h
  next persistId flags hinfo =>
  split at h
  · cases h
  next hcheck =>
  split at h
  · cases h
  · cases h
  next st₁ hload =>
  exact ⟨st₀, st₁, (persistId, flags), hprepare, hinfo, hcheck, hload, Option.some.inj h⟩

variable {info : UInt8 × UInt8} {started : Bool}

theorem peekEntryMeta_ok {cfg : Store.Config} {st : Store.State cfg} {tag : Store.TagName}
    (h : Store.peekEntryMeta crc started st tag = .ok info) :
    ∃ version payload, Store.readEnvelope crc st tag = .ok (version, payload) ∧ payload ≠ [] ∧
      info.1 = byteAt payload 0 := by
  unfold Store.peekEntryMeta at h
  split at h
  · cases h
  split at h
  · cases h
  split at h
  · cases h
  split at h
  · cases h
  next version payload henv =>
  split at h
  · cases h
  next hlen =>
  cases h
  refine ⟨version, payload, henv, ?_, rfl⟩
  rintro rfl
  exact hlen (.inl rfl)

theorem walkedEntries_head (hinfo : Store.peekEntryMeta crc started st.store slot = .ok info)
    (hload : load crc st slot = some (st', .ok ())) :
    ∃ entry es, walkedEntries crc st slot = entry :: es ∧ entry.persistId = info.1 := by
  obtain ⟨version, payload, henv, hne, hpid⟩ := peekEntryMeta_ok hinfo
  obtain ⟨l, accepted, -, ⟨hret, -⟩ |
    ⟨-, -, hloadable, hinit, hvalid, ⟨blob, hblob, hentries⟩, -⟩⟩ := load_spec hload
  · exact absurd rfl hret
  have hwalk : walkedEntries crc st slot = (Store.entries version payload).1 := by
    rw [walkedEntries, if_pos ⟨hloadable, hinit, hvalid⟩, henv]
  have hwhole : (Store.entries version payload).2 = true := by
    obtain ⟨blob', hblob', hopen⟩ := Store.readEnvelope_ok henv
    obtain rfl : blob' = blob := Except.ok.inj (hblob'.symm.trans hblob)
    simp only [Store.blobEntries, hopen] at hentries
    split at hentries
    · assumption
    · cases hentries
  obtain ⟨entry, es, hes, hentry⟩ := Store.entries_head hne hwhole
  exact ⟨entry, es, hwalk.trans hes, hentry.trans hpid.symm⟩

theorem applied_iff {entry : Store.Entry} {es : List Store.Entry}
    (hload : load crc st slot = some (st', .ok ()))
    (hwalk : walkedEntries crc st slot = entry :: es) :
    Applied st.listeners st'.listeners entry es ↔
      ∃ p, listens cfg p = true ∧ p.code = entry.persistId := by
  constructor
  · rintro ⟨p, x, hp, hcode, -⟩
    exact ⟨p, hp, hcode⟩
  rintro ⟨p, hp, hcode⟩
  obtain ⟨l, accepted, hall, ⟨hret, -⟩ | ⟨-, rfl, -, -, -, -, rfl⟩⟩ := load_spec hload
  · exact absurd rfl hret
  rw [hwalk] at hall
  obtain ⟨l₁, hd, hrest⟩ := Store.dispatchAll_cons_accepted hall
  obtain ⟨-, -, hnone⟩ | ⟨q, x, hq, hcode', hx, rfl⟩ := dispatchEntry_cases hd
  · exact absurd hcode (hnone p hp)
  refine ⟨q, x, hq, hcode', hx, hrest, fun hother => ?_⟩
  have hsame := dispatchAll_same (fun e he => hcode' ▸ hother e he) hrest
  exact hsame.trans (q.region.get_set ..)

theorem start_ok {uidValid : Bool} {transport : Ret}
    (h : Stack.start uidValid transport st = (st', .ok ())) :
    st'.phase = .started ∧ st'.listeners = st.listeners := by
  unfold Stack.start at h
  split at h
  next hstarted =>
    cases h
    exact ⟨hstarted, rfl⟩
  split at h
  · cases h
  split at h
  · cases h
  cases transport with
  | error e => cases h
  | ok _ =>
    cases h
    exact ⟨rfl, rfl⟩

/-- After an emulation that succeeds, a listener of the running stack has taken the entry that the
policy has looked at exactly if the stack has one for its persist id. -/
theorem emulate_applies_iff (crc : Bytes → UInt16) {transport : Transport} {st st' : State cfg}
    {slot : Store.TagName} (h : emulate crc transport st slot = some (st', .ok ())) :
    ∃ st₀ entry es flags, prepare transport.setup st = some (st₀, .ok ()) ∧
      walkedEntries crc st₀ slot = entry :: es ∧
      Store.peekEntryMeta crc (st₀.phase == .started) st₀.store slot =
        .ok (entry.persistId, flags) ∧
      checkEmulate transport.listens entry.persistId flags = .ok () ∧ st'.phase = .started ∧
      (Applied st₀.listeners st'.listeners entry es ↔
        ∃ p, listens cfg p = true ∧ p.code = entry.persistId) := by
  obtain ⟨st₀, st₁, ⟨pid, flags⟩, hprepare, hinfo, hcheck, hload, hstart⟩ := emulate_ok h
  obtain ⟨entry, es, hwalk, rfl⟩ := walkedEntries_head hinfo hload
  obtain ⟨hphase, hkeeps⟩ := start_ok hstart
  rw [hkeeps]
  exact ⟨st₀, entry, es, flags, hprepare, hwalk, hinfo, hcheck, hphase, applied_iff hload hwalk⟩

def Transport.accepts : Transport := ⟨⟨.ok (), .ok ()⟩, .ok (), true⟩

theorem emulate_applies_ndef :
    ∃ st' st₀ entry es, emulate Store.crc16Ccitt .accepts (cardStored .ndef shortMessage) cardTag =
        some (st', .ok ()) ∧
      prepare ⟨.ok (), .ok ()⟩ (cardStored .ndef shortMessage) = some (st₀, .ok ()) ∧
      Applied st₀.listeners st'.listeners entry es := by
  have hret : (emulate Store.crc16Ccitt .accepts (cardStored .ndef shortMessage) cardTag).map
      Prod.snd = some (.ok ()) := by decide +kernel
  have hmeta : ∀ r ∈ (prepare ⟨.ok (), .ok ()⟩ (cardStored .ndef shortMessage)),
      Store.peekEntryMeta Store.crc16Ccitt (r.1.phase == .started) r.1.store cardTag =
        .ok (Listen.ndef.code, 0x05) := by decide +kernel
  obtain ⟨⟨st', ret⟩, h, rfl⟩ := Option.map_eq_some_iff.mp hret
  obtain ⟨st₀, entry, es, flags, hprepare, -, hinfo, -, -, hiff⟩ :=
    emulate_applies_iff Store.crc16Ccitt h
  have hpid : Listen.ndef.code = entry.persistId := by
    have hsame := (hmeta _ hprepare).symm.trans hinfo
    exact (Prod.mk.inj (Except.ok.inj hsame)).1
  exact ⟨st', st₀, entry, es, h, hprepare, hiff.mpr ⟨.ndef, rfl, hpid⟩⟩

def ultralightCard : Bytes :=
  ((Ultralight.serialize { (Ultralight.Data.reset : Ultralight.Data .default) with
    pagesTotal := 16 } 4096).bind Except.toOption).getD []

theorem emulate_skips_ultralight :
    (emulate Store.crc16Ccitt .accepts (cardStored .ultralight ultralightCard) cardTag).map
        (fun r => (r.1.phase, r.2)) = some (.started, .ok ()) ∧
    walkedEntries Store.crc16Ccitt (cardStored .ultralight ultralightCard) cardTag =
      [⟨PersistId.ultralight.code, ultralightCard⟩] ∧
    ∀ l l' : Listeners Config.default,
      ¬ Applied l l' ⟨PersistId.ultralight.code, ultralightCard⟩ [] := by
  refine ⟨by decide +kernel, by decide +kernel, ?_⟩
  rintro l l' ⟨p, x, -, hcode, -⟩
  cases p <;> exact absurd hcode (by decide)

end Applets

end NfcStack
