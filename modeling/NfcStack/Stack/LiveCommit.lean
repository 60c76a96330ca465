import NfcStack.Protocols.Ndef.Update
import NfcStack.Stack.Lifecycle
import NfcStack.Stack.Load

/-!
# Commits of an emulated card

`nfc_store_default_commit` accepts and stores nothing, so a commit is true to its name exactly if the
update has left the message of the stored card in the file.
-/

namespace NfcStack.Store

open List Option

variable {pid : UInt8} {body : Bytes}

theorem length_body_of_mem_entriesFrom {version : UInt8} {fuel : ℕ} {rest : Bytes} {entry : Entry}
    (h : entry ∈ (entriesFrom version fuel rest).1) : entry.body.length ≤ 65535 := by
  induction fuel generalizing rest with
  | zero => cases rest <;> simp [entriesFrom] at h
  | succ fuel ih =>
    cases rest with
    | nil => simp [entriesFrom] at h
    | cons b rest =>
      simp only [entriesFrom] at h
      split at h
      · simp at h
      · next first tail htake =>
        rcases mem_cons.mp h with rfl | hmem
        · simp only [takeEntry] at htake
          split at htake
          · cases htake
          · obtain ⟨hentry, -⟩ := Prod.mk.inj (some.inj htake)
            rw [← hentry]
            have hlt := (le16 (byteAt (b :: rest) (entryOverhead version - 2))
              (byteAt (b :: rest) (entryOverhead version - 1))).toNat_lt
            have hle := length_take_le (le16 (byteAt (b :: rest) (entryOverhead version - 2))
              (byteAt (b :: rest) (entryOverhead version - 1))).toNat
                ((b :: rest).drop (entryOverhead version))
            simp only
            omega
        · exact ih hmem

theorem onDirty_cases {cfg : Config} {μ : Type} {st : State cfg} {svc : Service μ} {m m' : μ}
    {ret : Ret} (h : onDirty st svc m = some (m', ret)) :
    (m' = m ∧ ret ≠ .ok ()) ∨ ∃ serialize r, svc.serialize = some serialize ∧
      serialize m cfg.blobSize = some (m', r) ∧
      (ret = .ok () → r = .error .enotsup ∨ ∃ body, r = .ok body) := by
  unfold onDirty at h
  split at h
  · cases h
    exact .inl ⟨rfl, nofun⟩
  split at h
  · cases h
    exact .inl ⟨rfl, nofun⟩
  next serialize hser =>
  split at h
  · cases h
    exact .inl ⟨rfl, nofun⟩
  split at h
  · cases h
  · next hbody =>
    cases h
    exact .inr ⟨serialize, _, hser, hbody, fun _ => .inr ⟨_, rfl⟩⟩
  · next hbody =>
    cases h
    exact .inr ⟨serialize, _, hser, hbody, fun _ => .inl rfl⟩
  · next hbody =>
    cases h
    exact .inr ⟨serialize, _, hser, hbody, nofun⟩

variable {cfg : Config}

def State.NamesFit (st : State cfg) : Prop :=
  ∀ slot ∈ st.slots.toList, slot.tag.length < cfg.maxTagLen

instance (st : State cfg) : Decidable st.NamesFit :=
  inferInstanceAs (Decidable (∀ slot ∈ st.slots.toList, _))

variable {st : State cfg} {tag : TagName}

theorem length_tag_of_callLoad (hreg : Registered st) (hnames : st.NamesFit)
    {blob : Bytes} (h : callLoad st tag = .ok blob) : tag.length < cfg.maxTagLen := by
  have hram : ramLoad st tag = .ok blob := by
    rwa [callLoad, hreg.2.2] at h
  unfold ramLoad at hram
  split at hram
  · cases hram
  · next i hfind =>
    obtain ⟨hlt, hp, -⟩ := findIdx?_eq_some_iff_getElem.mp hfind
    simp only [Bool.and_eq_true, beq_iff_eq] at hp
    rw [← hp.2]
    exact hnames _ (getElem_mem hlt)

def storedBody (crc : Bytes → UInt16) (st : State cfg) (tag : TagName) (pid : UInt8) :
    Option Bytes :=
  match callLoad st tag with
  | .error _ => none
  | .ok blob => (blobEntries crc blob).bind (lastBody pid)

theorem length_of_storedBody {crc : Bytes → UInt16} (h : storedBody crc st tag pid = some body) :
    body.length ≤ 65535 := by
  unfold storedBody at h
  split at h
  · cases h
  · obtain ⟨es, hes, hlast⟩ := bind_eq_some_iff.mp h
    unfold blobEntries at hes
    split at hes
    · cases hes
    · split at hes
      · cases hes
        obtain ⟨entry, hmem, -, rfl⟩ := lastBody_mem hlast
        exact length_body_of_mem_entriesFrom hmem
      · cases hes

end NfcStack.Store

namespace NfcStack.Stack

variable {cfg : Config} {body : Bytes} {crc : Bytes → UInt16} {tag : Store.TagName}

theorem holds_of_load (hndef : listens cfg .ndef = true)
    {st st' : State cfg} (h : load crc st tag = some (st', .ok ()))
    (hbody : Store.storedBody crc st.store tag Listen.ndef.code = some body) :
    st'.listeners.ndef.Holds body := by
  obtain ⟨l, accepted, hall, ⟨hne, -⟩ | ⟨-, rfl, -, -, -, ⟨blob, hblob, hentries⟩, rfl⟩⟩ :=
    load_spec h
  · exact absurd rfl hne
  · have hlast : Store.lastBody Listen.ndef.code (walkedEntries crc st tag) = some body := by
      rw [Store.storedBody, hblob] at hbody
      simpa [hentries] using hbody
    obtain ⟨x, hx⟩ := dispatchAll_last hndef hall hlast
    exact Ndef.holds_of_deserialize (Store.length_of_storedBody hbody) (Option.some.inj hx)

theorem load_ram {st st' : State cfg}
    (hreg : Store.Registered st.store) (hnames : st.store.NamesFit)
    (h : load crc st tag = some (st', .ok ())) : st'.store = st.store ∧ st'.activeTag = tag := by
  obtain ⟨l, accepted, -, ⟨hne, -⟩ | ⟨-, -, -, -, -, ⟨blob, hblob, -⟩, rfl⟩⟩ := load_spec h
  · exact absurd rfl hne
  · have hlen := Store.length_tag_of_callLoad hreg hnames hblob
    exact ⟨rfl, List.take_of_length_le (by omega)⟩

structure NdefClosed (J : Ndef.State cfg.ndef → Prop) : Prop where
  select : ∀ x, J x → J (Ndef.onSelect x).1
  close : ∀ x, J x → J (Ndef.closeFile x)
  apdu : ∀ x apdu, J x → J (Ndef.onApdu x apdu).1
  serialize : ∀ x outMax, J x → J (Ndef.listenerSerialize x outMax).1

namespace NdefClosed

variable {J : Ndef.State cfg.ndef → Prop} {s s' : State cfg} {l l' : Listeners cfg}

theorem leave (hJ : NdefClosed J) (h : J l.ndef) (router : Router.State Listen) (svc : Listen) :
    J (Router.leave listenService router l svc).ndef := by
  refine Router.leave_induction (J := fun l : Listeners cfg => J l.ndef) router h ?_
  intro old _
  cases old with
  | ndef => exact hJ.close _ h
  | desfire | emv | aliro => trivial

theorem dispatch (hJ : NdefClosed J) (h : J l.ndef) {router router' : Router.State Listen}
    {apdu : Apdu} {rsp : Option Bytes} {dirty : Option Listen}
    (hd : Router.dispatch listenService router l apdu = some (router', l', rsp, dirty)) :
    J l'.ndef := by
  obtain ⟨-, rfl, -⟩ | ⟨-, svc, hcall⟩ | ⟨-, svc, reports, hcall, -⟩ := Router.dispatch_eq_some hd
  · exact h
  · rw [listenService, Service.callSelect_within] at hcall
    obtain ⟨⟨x, o⟩, hx, heq⟩ := Option.map_eq_some_iff.mp hcall
    cases heq
    have hleft := hJ.leave h router svc
    cases svc with
    | ndef =>
      cases hx
      exact hJ.select _ hleft
    | desfire | emv | aliro => trivial
  · rw [listenService, Service.callApdu_within] at hcall
    obtain ⟨⟨x, o⟩, hx, heq⟩ := Option.map_eq_some_iff.mp hcall
    cases heq
    cases svc with
    | ndef =>
      cases hx
      exact hJ.apdu _ apdu h
    | desfire | emv | aliro => trivial

variable (hJ : NdefClosed J) (h : J s.listeners.ndef)

include hJ h

theorem onServiceDirty {svc : Listen}
    {ret : Option Ret} (hs : Stack.onServiceDirty s svc = some (s', ret)) :
    J s'.listeners.ndef ∧ s'.store = s.store ∧ s'.activeTag = s.activeTag := by
  unfold Stack.onServiceDirty at hs
  split at hs
  · cases hs
    exact ⟨h, rfl, rfl⟩
  obtain ⟨⟨m, ret⟩, hdirty, heq⟩ := Option.map_eq_some_iff.mp hs
  cases heq
  refine ⟨?_, rfl, rfl⟩
  obtain ⟨rfl, -⟩ | ⟨serialize, r, hser, hcall, -⟩ := Store.onDirty_cases hdirty
  · exact h
  · obtain ⟨own, hown, rfl⟩ := Option.map_eq_some_iff.mp hser
    obtain ⟨⟨x, r'⟩, hx, heq⟩ := Option.map_eq_some_iff.mp hcall
    cases heq
    cases svc with
    | ndef =>
      cases hown
      have hown : Ndef.listenerSerialize s.listeners.ndef cfg.store.blobSize = (x, r') :=
        Option.some.inj hx
      have hkept := hJ.serialize _ cfg.store.blobSize h
      rw [hown] at hkept
      exact hkept
    | desfire | emv | aliro => trivial

variable {o : Option Bytes}

theorem onApdu {bytes : Bytes} (hs : Stack.onApdu s bytes = some (s', o)) :
    J s'.listeners.ndef ∧ s'.store = s.store ∧ s'.activeTag = s.activeTag := by
  obtain ⟨⟨_, _, commit⟩, hcommit, heq⟩ := Option.map_eq_some_iff.mp hs
  cases heq
  unfold onApduCommit at hcommit
  split at hcommit
  · cases hcommit
    exact ⟨h, rfl, rfl⟩
  split at hcommit
  · cases hcommit
    exact ⟨h, rfl, rfl⟩
  split at hcommit
  · cases hcommit
  next router l rsp dirty hd =>
  have hl := hJ.dispatch h hd
  split at hcommit
  · cases hcommit
    exact ⟨hl, rfl, rfl⟩
  · obtain ⟨st, hst, heq⟩ := Option.map_eq_some_iff.mp hcommit
    cases heq
    exact hJ.onServiceDirty (s := { s with router, listeners := l }) hl hst

theorem step {e : ReaderEvent} (hs : reader.step s e = some (s', o)) :
    J s'.listeners.ndef ∧ s'.store = s.store ∧ s'.activeTag = s.activeTag := by
  cases e with
  | fieldOn =>
    cases hs
    exact ⟨h, rfl, rfl⟩
  | fieldOff =>
    cases hs
    refine ⟨?_, rfl, rfl⟩
    refine Router.fieldOff_induction (J := fun l : Listeners cfg => J l.ndef) s.router h ?_
    intro svc
    cases svc with
    | ndef => exact hJ.close _ h
    | desfire | emv | aliro => trivial
  | apdu bytes => exact hJ.onApdu h hs
  | work =>
    cases hs
    exact ⟨h, rfl, rfl⟩

omit hJ h

end NdefClosed

def dirtyCall (st : State cfg) : ReaderEvent → Option (Listen × Ret)
  | .apdu bytes => (onApduCommit st bytes).bind (·.2.2)
  | .fieldOn | .fieldOff | .work => none

theorem dispatch_dirty {router router' : Router.State Listen} {l l' : Listeners cfg} {apdu : Apdu}
    {rsp : Option Bytes}
    (h : Router.dispatch listenService router l apdu = some (router', l', rsp, some .ndef)) :
    router' = router ∧
      l' = { l with ndef := { l.ndef with model := l.ndef.model.update apdu } } := by
  obtain ⟨-, -, hnone⟩ | ⟨hnone, -⟩ | ⟨rfl, svc, reports, hcall, hdirty⟩ :=
    Router.dispatch_eq_some h
  · cases hnone
  · cases hnone
  · obtain ⟨hreports, hsvc⟩ := Option.ite_none_right_eq_some.mp hdirty.symm
    obtain rfl := Option.some.inj hsvc
    rw [listenService, Service.callApdu_within] at hcall
    obtain ⟨⟨x, o, reports'⟩, hx, heq⟩ := Option.map_eq_some_iff.mp hcall
    cases heq
    cases hx
    exact ⟨rfl, congrArg (fun x => ({ l with ndef := x } : Listeners cfg))
      (Ndef.onApdu_dirty hreports)⟩

variable {e : ReaderEvent}

theorem dirtyCall_ndef {s : State cfg} (h : dirtyCall s e = some (.ndef, .ok ())) :
    ∃ bytes apdu y body, e = .apdu bytes ∧
      Framing.apduParse cfg.extendedApdu bytes = some apdu ∧
      Ndef.listenerSerialize
        { s.listeners.ndef with model := s.listeners.ndef.model.update apdu }
        cfg.store.blobSize = (y, .ok body) ∧
      ∃ o, reader.step s e = some ({ s with listeners := { s.listeners with ndef := y } }, o) := by
  cases e with
  | fieldOn | fieldOff | work => cases h
  | apdu bytes =>
    obtain ⟨⟨s', o, commit⟩, hcommit, rfl⟩ := Option.bind_eq_some_iff.mp h
    have hstep : reader.step s (.apdu bytes) = some (s', o) := congrArg (Option.map _) hcommit
    unfold onApduCommit at hcommit
    split at hcommit
    · cases hcommit
    split at hcommit
    · cases hcommit
    next apdu hparse =>
    split at hcommit
    · cases hcommit
    next router l rsp dirty hdispatch =>
    cases dirty with
    | none => cases hcommit
    | some svc =>
      obtain ⟨⟨st, ret⟩, hservice, heq⟩ := Option.map_eq_some_iff.mp hcommit
      simp only [Prod.mk.injEq] at heq
      obtain ⟨rfl, rfl, heq⟩ := heq
      unfold onServiceDirty at hservice
      split at hservice
      · cases hservice
        cases heq
      obtain ⟨⟨m, ret⟩, hdirty, heq'⟩ := Option.map_eq_some_iff.mp hservice
      cases heq'
      cases heq
      obtain ⟨rfl, rfl⟩ := dispatch_dirty hdispatch
      obtain ⟨-, hne⟩ | ⟨serialize, r, hser, hcall, hok⟩ := Store.onDirty_cases hdirty
      · exact absurd rfl hne
      · cases hser
        obtain ⟨⟨y, r'⟩, hy, heq⟩ := Option.map_eq_some_iff.mp hcall
        cases heq
        have hown : Ndef.listenerSerialize
            { s.listeners.ndef with model := s.listeners.ndef.model.update apdu }
            cfg.store.blobSize = (y, r') := Option.some.inj hy
        obtain hno | ⟨body, rfl⟩ := hok rfl
        · exact absurd (congrArg Prod.snd hown |>.trans hno) (Ndef.listenerSerialize_ne_enotsup _ _)
        · exact ⟨bytes, apdu, y, body, rfl, hparse, hown, rsp, hstep⟩

/-- What a commit for the NDEF service that returns 0 stands for: the store holds under the active tag
what the listener is serialised to, and a later load of the tag brings back its message. -/
def LiveCommit (crc : Bytes → UInt16) (s : State cfg) (e : ReaderEvent)
    (out : Option (State cfg × Option Bytes)) : Prop :=
  dirtyCall s e = some (.ndef, .ok ()) → ∀ r ∈ out,
    (∃ body, Store.storedBody crc r.1.store r.1.activeTag Listen.ndef.code = some body ∧
      (Ndef.listenerSerialize r.1.listeners.ndef cfg.store.blobSize).2 = .ok body) ∧
    ∀ st₁ st₂, st₁.store = r.1.store → load crc st₁ r.1.activeTag = some (st₂, .ok ()) →
      st₂.listeners.ndef.model.message = r.1.listeners.ndef.model.message

def writesBack (crc : Bytes → UInt16) (loaded s : State cfg) (e : ReaderEvent) : Bool :=
  (Store.storedBody crc loaded.store loaded.activeTag Listen.ndef.code).any Ndef.hasContainer &&
    match e with
    | .apdu bytes =>
      (Framing.apduParse cfg.extendedApdu bytes).any fun apdu =>
        (s.listeners.ndef.model.update apdu).message == loaded.listeners.ndef.model.message
    | .fieldOn | .fieldOff | .work => false

def FromCard (loaded x : Ndef.State cfg.ndef) : Prop :=
  x.model.cc = loaded.model.cc ∧
    (2 ≤ loaded.model.ndefFileLen.toNat → 2 ≤ x.model.ndefFileLen.toNat)

theorem fromCard_closed (loaded : Ndef.State cfg.ndef) : NdefClosed (FromCard loaded) where
  select x h := h
  close x h := h
  apdu x apdu h := by
    rw [FromCard, Ndef.onApdu_model]
    split <;> exact h
  serialize x outMax h := by
    unfold Ndef.listenerSerialize
    split
    · exact h
    · refine ⟨?_, ?_⟩
      · unfold Ndef.syncFileLen
        split <;> exact h.1
      · intro hlen
        exact Ndef.two_le_syncFileLen (h.2 hlen)

structure Follows (loaded s : State cfg) : Prop where
  store : s.store = loaded.store
  activeTag : s.activeTag = loaded.activeTag
  ndef : FromCard loaded.listeners.ndef s.listeners.ndef

theorem Follows.step {loaded s s' : State cfg} (h : Follows loaded s)
    {o : Option Bytes} (hs : reader.step s e = some (s', o)) : Follows loaded s' := by
  obtain ⟨hndef, hstore, htag⟩ := (fromCard_closed loaded.listeners.ndef).step h.ndef hs
  exact ⟨hstore.trans h.store, htag.trans h.activeTag, hndef⟩

/-- A commit in a run after a load is true to its name exactly if the command writes back the message
that was loaded. -/
theorem liveCommit_step_iff (hndef : listens cfg .ndef = true) {loaded s : State cfg}
    (hheld : ∀ body, Store.storedBody crc loaded.store loaded.activeTag Listen.ndef.code = some body →
      loaded.listeners.ndef.Holds body)
    (h : Follows loaded s) (e : ReaderEvent) :
    LiveCommit crc s e (reader.step s e) ↔
      (dirtyCall s e = some (.ndef, .ok ()) → writesBack crc loaded s e = true) := by
  refine imp_congr_right fun hdirty => ?_
  obtain ⟨bytes, apdu, y, body, rfl, hparse, hown, o, hstep⟩ := dirtyCall_ndef hdirty
  have hagain := Ndef.listenerSerialize_again hown
  have hback : writesBack crc loaded s (.apdu bytes) = true ↔
      Store.storedBody crc loaded.store loaded.activeTag Listen.ndef.code = some body := by
    simp only [writesBack, hparse, Option.any_some, Bool.and_eq_true, beq_iff_eq]
    cases hstored : Store.storedBody crc loaded.store loaded.activeTag Listen.ndef.code with
    | none => simp
    | some body₀ =>
      have hholds := hheld body₀ hstored
      rw [Option.some_inj, hholds.stored_iff
        (x := { s.listeners.ndef with model := s.listeners.ndef.model.update apdu })
        h.ndef.1 (h.ndef.2 hholds.fileLen) hown]
      rfl
  rw [hback, hstep]
  constructor
  · intro hcommit
    obtain ⟨⟨body', hstored, hser⟩, -⟩ := hcommit _ rfl
    obtain rfl : body = body' := Except.ok.inj (hagain.symm.trans hser)
    rw [← h.store, ← h.activeTag]
    exact hstored
  · rintro hstored r ⟨⟩
    rw [← h.store, ← h.activeTag] at hstored
    refine ⟨⟨body, hstored, hagain⟩, ?_⟩
    intro st₁ st₂ hstore hload
    rw [← hstore] at hstored
    exact (holds_of_load hndef hload hstored).message_eq hagain

/-- With the RAM backend and a tag loaded through it, every commit for the NDEF service that returns 0
has stored the card exactly in the runs whose updates, as far as they are committed, leave in the
file the message that was loaded, from an entry with a capability container. -/
theorem liveCommit_iff (crc : Bytes → UInt16) (hndef : listens cfg .ndef = true)
    {st loaded : State cfg} {tag : Store.TagName} (hreg : Store.Registered st.store)
    (hnames : st.store.NamesFit) (hload : load crc st tag = some (loaded, .ok ()))
    (es : List ReaderEvent) :
    reader.Always (LiveCommit crc) loaded es ↔
      reader.Always (fun s e _ => dirtyCall s e = some (.ndef, .ok ()) →
        writesBack crc loaded s e = true) loaded es := by
  obtain ⟨hstore, htag⟩ := load_ram hreg hnames hload
  have hheld : ∀ body,
      Store.storedBody crc loaded.store loaded.activeTag Listen.ndef.code = some body →
        loaded.listeners.ndef.Holds body := by
    intro body hbody
    rw [hstore, htag] at hbody
    exact holds_of_load hndef hload hbody
  refine Machine.always_iff (I := Follows loaded) _ ?_ ?_ ⟨rfl, rfl, rfl, id⟩
  · intro s e hs
    exact liveCommit_step_iff hndef hheld hs e
  · intro s e s' o hs _ hstep
    exact hs.step hstep

/-! A card with a message of one byte, to which a reader writes one byte. -/

def oneByteBody (b : UInt8) : Bytes :=
  [0x01, 0x00, 0x0F, 0x20, 0x01, 0xF6, 0x01, 0xF4, 0x04, 0x06, 0xE1, 0x04, 0x01, 0xF4, 0x00, 0x00,
    0x00, 0x01, b]

def oneByteStored : State Config.default := cardStored .ndef (oneByteBody 0xD0)

def oneByteLoaded : State Config.default := after (load Store.crc16Ccitt oneByteStored cardTag)

def openNdef : List ReaderEvent :=
  [.apdu (Framing.selectCommand 0x00 ndefAid (some 0x00)),
    .apdu [0x00, 0xA4, 0x00, 0x0C, 0x02, 0xE1, 0x04]]

def writeByte (b : UInt8) : ReaderEvent := .apdu [0x00, 0xD6, 0x00, 0x02, 0x01, b]

theorem load_oneByteStored :
    load Store.crc16Ccitt oneByteStored cardTag = some (oneByteLoaded, .ok ()) :=
  eq_after (by decide +kernel)

theorem liveCommit_iff_sameByte :
    Store.Registered oneByteStored.store ∧ oneByteStored.store.NamesFit ∧
      reader.Always (LiveCommit Store.crc16Ccitt) oneByteLoaded (openNdef ++ [writeByte 0xD0]) := by
  have hreg : Store.Registered oneByteStored.store := by decide +kernel
  have hnames : oneByteStored.store.NamesFit := by decide +kernel
  refine ⟨hreg, hnames, ?_⟩
  refine (liveCommit_iff Store.crc16Ccitt rfl hreg hnames load_oneByteStored _).mpr ?_
  decide +kernel

theorem liveCommit_otherByte :
    (reader.run oneByteLoaded openNdef).map (fun r => dirtyCall r.1 (writeByte 0xD1)) =
        some (some (.ndef, .ok ())) ∧
      (reader.run oneByteLoaded (openNdef ++ [writeByte 0xD1])).map (fun r =>
        (Store.storedBody Store.crc16Ccitt r.1.store r.1.activeTag Listen.ndef.code,
          (Ndef.listenerSerialize r.1.listeners.ndef Config.default.store.blobSize).2,
          (load Store.crc16Ccitt { r.1 with phase := .stopped } r.1.activeTag).map
            (·.1.listeners.ndef.model.message))) =
        some (some (oneByteBody 0xD0), .ok (oneByteBody 0xD1), some [0x00, 0x01, 0xD0]) := by
  decide +kernel

end NfcStack.Stack
