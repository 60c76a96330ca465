import NfcStack.Protocols.Ndef.Capture
import NfcStack.Reader.Pollers
import NfcStack.Store.Correct

/-!
# What a clone stores

A clone that succeeds has stored one entry, and its body is the card that the poller
has read; an NDEF card is opened for writing first, and only goes into a listener
that was not there before.
-/

namespace NfcStack

open Option

/-! ## No serialiser declines

The store skips a service that answers `ENOTSUP`; a clone of such a service would store
nothing. -/

variable {cfg : Desfire.Config}

theorem Desfire.serializeFiles_ne_enotsup (app : Desfire.Application cfg)
    (outMax n fi : ℕ) (h : fi + n ≤ cfg.maxFiles) (out : Bytes) :
    Desfire.serializeFiles app outMax n fi h out ≠ .error .enotsup := by
  induction n generalizing fi out with
  | zero => simp [Desfire.serializeFiles]
  | succ n ih =>
    simp only [Desfire.serializeFiles]
    split
    · simp
    split
    · simp
    · exact ih _ _ _

theorem Desfire.serializeApps_ne_enotsup (data : Desfire.Data cfg)
    (outMax n ai : ℕ) (h : ai + n ≤ cfg.maxApps) (out : Bytes) :
    Desfire.serializeApps data outMax n ai h out ≠ .error .enotsup := by
  induction n generalizing ai out with
  | zero => simp [Desfire.serializeApps]
  | succ n ih =>
    simp only [Desfire.serializeApps]
    split
    · split
      · simp
      split
      · simp
      · intro herr
        -- the error of an application is the one of its files or of the applications behind it
        cases hf : Desfire.serializeFiles _ outMax _ 0 _ _ with
        | error e =>
          rw [hf] at herr
          exact Desfire.serializeFiles_ne_enotsup _ _ _ _ _ _ (hf.trans herr)
        | ok out' =>
          rw [hf] at herr
          exact ih _ _ _ herr
    · simp

theorem Desfire.serialize_ne_enotsup (data : Desfire.Data cfg)
    (outMax : ℕ) : Desfire.serialize data outMax ≠ .error .enotsup := by
  unfold Desfire.serialize
  split
  · split
    · simp
    · exact Desfire.serializeApps_ne_enotsup _ _ _ _ _ _
  · simp

theorem Emv.serialize_ne_enotsup {cfg : Emv.Config} (image : Emv.Image cfg) (outMax : ℕ) :
    Emv.serialize image outMax ≠ some (.error .enotsup) := by
  unfold Emv.serialize
  split
  · simp
  split <;> simp

theorem Aliro.serialize_ne_enotsup {cfg : Aliro.Config} (data : Aliro.Data cfg) (outMax : ℕ) :
    Aliro.serialize data outMax ≠ some (.error .enotsup) := by
  unfold Aliro.serialize
  split <;> simp

theorem Ultralight.listenerSerialize_ne_enotsup {cfg : Ultralight.Config}
    (st : Ultralight.State cfg) (outMax : ℕ) :
    Ultralight.listenerSerialize st outMax ≠ some (.error .enotsup) := by
  unfold Ultralight.listenerSerialize
  split
  · unfold Ultralight.serialize
    split
    · simp
    simp only
    split
    · simp
    split <;> simp
  · simp

namespace Reader

variable {cfg : Config}

def CardModel.serialize (outMax : ℕ) : CardModel cfg → Option (Except Errno Bytes)
  | .ndef data => some (Ndef.serialize data outMax)
  | .ultralight data => Ultralight.serialize data outMax
  | .desfire data => some (Desfire.serialize data outMax)
  | .emv image => Emv.serialize image outMax
  | .aliro data => Aliro.serialize data outMax
  | _ => none

def CardModel.opened : CardModel cfg → CardModel cfg
  | .ndef data => .ndef data.opened
  | model => model

def Stores (crc : Bytes → UInt16) (st : Stack.State cfg) (tag : Store.TagName) (pid : PersistId)
    (body : Bytes) : Prop :=
  ∃ blob, Store.ramLoad st.store tag = .ok blob ∧
    Store.blobEntries crc blob = some [⟨pid.code, body⟩]

variable {crc : Bytes → UInt16} {tag : Store.TagName} {st st' : Stack.State cfg}

theorem saveService_stores {svc : Service (Listeners cfg)} {pid : PersistId}
    {serialize : Listeners cfg → ℕ → Option (Listeners cfg × Except Errno Bytes)}
    {stored : Option (Except Errno Bytes)} (h : saveService crc st svc tag = some (st', .ok ()))
    (hram : st.store.saveCb = .ram) (hser : svc.serialize = some serialize)
    (hpid : svc.persistId = pid.code)
    (hstored : (serialize st.listeners cfg.store.blobSize).map Prod.snd = stored)
    (hnotsup : stored ≠ some (.error .enotsup)) :
    ∃ body, stored = some (.ok body) ∧ Store.EntryFits cfg.store body ∧
      Stores crc st' tag pid body := by
  obtain ⟨⟨store, l, ret⟩, hs, heq⟩ := map_eq_some_iff.mp h
  obtain ⟨rfl, rfl⟩ := Prod.mk.inj heq
  have hne : svc.persistId ≠ 0 := by
    rw [hpid]
    cases pid <;> decide
  have hnot : ∀ m, serialize st.listeners cfg.store.blobSize ≠ some (m, .error .enotsup) := by
    intro m hm
    rw [hm] at hstored
    exact hnotsup hstored.symm
  obtain ⟨body, blob, hbody, hfit, hload, hentries⟩ := Store.save_single hser hne hram hnot hs
  rw [hbody] at hstored
  exact ⟨body, hstored.symm, hfit, blob, hload, hpid ▸ hentries⟩

theorem saveService_unbound (p : Protocol) (hram : st.store.saveCb = .ram) :
    saveService crc st (unboundService p) tag ≠ some (st', .ok ()) := by
  intro h
  have hnot : (some (.error .einval) : Option (Except Errno Bytes)) ≠ some (.error .enotsup) := by
    simp
  obtain ⟨body, hbody, -⟩ := saveService_stores h hram rfl (rfl : _ = p.persistId.code) rfl hnot
  cases hbody

variable {residue : ℕ → UInt8}

theorem cloneUltralight_stores {data : Ultralight.Data cfg.ultralight}
    (hram : st.store.saveCb = .ram)
    (h : cloneUltralight crc residue st data tag = some (st', .ok ())) :
    ∃ body, Ultralight.serialize data cfg.store.blobSize = some (.ok body) ∧
      Store.EntryFits cfg.store body ∧ Stores crc st' tag .ultralight body := by
  simp only [cloneUltralight] at h
  split at h
  · cases h
  next ultralight ndef ret hload =>
  cases ret with
  | error e => cases h
  | ok _ =>
    have hup : (Ultralight.listenerInit st.listeners.ultralight).1.initialized = true := by
      unfold Ultralight.listenerInit
      split <;> simp_all
    simp only [Ultralight.listenerLoad, hup, not_true, if_false] at hload
    obtain ⟨r, -, heq⟩ := map_eq_some_iff.mp hload
    obtain ⟨rfl, -⟩ := Prod.mk.inj heq
    have hadapter := Ultralight.listenerSerialize_ne_enotsup
      { (Ultralight.listenerInit st.listeners.ultralight).1 with model := data }
      cfg.store.blobSize
    simp only [Ultralight.listenerSerialize, hup, if_true] at hadapter
    refine saveService_stores h hram rfl rfl ?_ hadapter
    simp [Ultralight.listenerSerialize, Function.comp_def]

theorem map_snd_map_pair {α β γ : Type} (x : Option γ) (a : α) (f : α → β) :
    ((x.map fun r => (a, r)).map fun y => (f y.1, y.2)).map Prod.snd = x := by
  cases x <;> rfl

variable {model : CardModel cfg}

theorem cloneModel_stores (hram : st.store.saveCb = .ram)
    (hndef : ∀ data, model = .ndef data → data.Captured ∧ st.listeners.ndef.initialized = false)
    (h : cloneModel crc residue st model tag = some (st', .ok ())) :
    ∃ body, model.opened.serialize cfg.store.blobSize = some (.ok body) ∧
      Store.EntryFits cfg.store body ∧ Stores crc st' tag model.protocol.persistId body := by
  cases model with
  | ndef data =>
    obtain ⟨hcap, hfresh⟩ := hndef data rfl
    have hser := Ndef.listenerSerialize_listenerInit hfresh hcap cfg.store.blobSize
    have hnot := Ndef.listenerSerialize_ne_enotsup
      (Ndef.listenerInit st.listeners.ndef (some data) true).1 cfg.store.blobSize
    rw [hser] at hnot
    exact saveService_stores h hram rfl rfl (congrArg some hser)
      (fun heq => hnot (some.inj heq))
  | ultralight data => exact cloneUltralight_stores hram h
  | desfire data =>
    have hnot := Desfire.serialize_ne_enotsup data cfg.store.blobSize
    exact saveService_stores h hram rfl rfl rfl (fun heq => hnot (some.inj heq))
  | emv image =>
    simp only [cloneModel] at h
    split at h
    · cases h
    next emv hinit =>
    obtain ⟨wire, -, rfl⟩ := map_eq_some_iff.mp hinit
    have hnot := Emv.serialize_ne_enotsup image cfg.store.blobSize
    exact saveService_stores h hram rfl rfl (map_snd_map_pair _ _ _) hnot
  | aliro data =>
    have hnot := Aliro.serialize_ne_enotsup data cfg.store.blobSize
    exact saveService_stores h hram rfl rfl (map_snd_map_pair _ _ _) hnot
  | classic => exact absurd h (saveService_unbound .classic hram)
  | felica => exact absurd h (saveService_unbound .felica hram)
  | slix => exact absurd h (saveService_unbound .slix hram)
  | iso15693 => exact absurd h (saveService_unbound .iso15693 hram)

variable {τ : Type} (s : Session τ) (pollers : OtherPollers cfg τ)

theorem pollerRead_spec {p : Protocol} {t t' : τ}
    (h : pollerRead s pollers p t = some (.ok model, t')) :
    model.protocol = p ∧ ∀ data, model = .ndef data → data.Captured := by
  cases p with
  | ndef =>
    obtain ⟨⟨data, ret⟩, t₁, hread, h⟩ := Poll.bind_eq_some h
    cases ret with
    | error e => cases h
    | ok _ =>
      cases h
      refine ⟨rfl, ?_⟩
      rintro _ ⟨⟩
      exact Ndef.pollerRead_captured s hread
  | _ =>
    obtain ⟨ret, t₁, -, h⟩ := Poll.bind_eq_some h
    cases ret with
    | error e => cases h
    | ok _ =>
      cases h
      exact ⟨rfl, fun _ hm => by cases hm⟩

theorem pollersRead_cases {t t' : τ} (h : pollersRead s pollers t = some (.ok model, t')) :
    ∃ p t₁, firstMatch s pollers (registry cfg) t = some (some p, t₁) ∧
      pollerRead s pollers p t₁ = some (.ok model, t') := by
  unfold pollersRead at h
  split at h
  · cases h
  obtain ⟨found, t₁, hfound, h⟩ := Poll.bind_eq_some h
  cases found with
  | none => cases h
  | some p => exact ⟨p, t₁, hfound, h⟩

/-! A card with a message of one byte, in front of the pollers of the source. -/

def cardCc (writeAccess : UInt8) : Bytes :=
  [0x00, 0x0F, 0x20, 0x00, 0xFF, 0x00, 0xFF, 0x04, 0x06, 0xE1, 0x04, 0x00, 0xFF, 0x00, writeAccess]

def messageCard (writeAccess : UInt8) : Session Unit where
  active := true
  tag.step _ tx := some ((), .ok
    (if tx = Ndef.readCc then cardCc writeAccess ++ [0x90, 0x00]
    else if tx = Ndef.readBinary 0 2 then [0x00, 0x01, 0x90, 0x00]
    else if tx = Ndef.readBinary 2 1 then [0xD0, 0x90, 0x00]
    else [0x90, 0x00]))

def ambient : Ambient :=
  ⟨.fill _ 0, .default, [], fun _ => .fill _ 0, 16, fun _ _ => ⟨⟨0, 0, 0, 0⟩, 0⟩⟩

def pollersOf {τ : Type} (s : Session τ) : OtherPollers Config.default τ :=
  cardPollers s ambient .default

def readerOnly : Stack.State Config.default :=
  { Stack.State.boot with store := (Store.ramInit (Store.init .boot).1).1 }

def clonedBy {τ : Type} (s : Session τ) (st : Stack.State Config.default) (t : τ) :
    Option (Ret × Option (List Store.Entry)) :=
  (pollersRun s (pollersOf s) Store.crc16Ccitt (fun _ => 0) st Stack.cardTag t).map fun r =>
    (r.1.2, (Store.ramLoad r.1.1.store Stack.cardTag).toOption.bind
      (Store.blobEntries Store.crc16Ccitt))

end Reader

end NfcStack
