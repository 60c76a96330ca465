import NfcStack.Protocols.Iso15693.ReadBack
import NfcStack.Reader.Clone
import NfcStack.Stack.Lifecycle

/-!
# Which cards a clone can store

A card that fits is stored by the five protocols that have a listener to hold it; the other four read it
into a variable that their service does not see.
-/

namespace NfcStack

open Option

namespace Store

variable {cfg : Config} {μ : Type}

structure Writable (st : State cfg) (tag : TagName) : Prop where
  initialized : st.initialized = true
  ram : st.saveCb = .ram
  valid : st.validTag tag = true
  short : tag.length < cfg.maxTagLen
  slot : ((findTag st.slots tag).or (findFree st.slots)).isSome = true

structure Room (st : State cfg) (tag : TagName) : Prop extends Writable st tag where
  loads : st.loadCb = .ram

variable {tag : TagName} {st : State cfg} {svcs : List (Service μ)}

theorem save_of_writable (crc : Bytes → UInt16) (hst : Writable st tag) {m m' : μ} {payload : Bytes}
    (hentries : saveEntries cfg svcs [] m = some (m', .ok payload))
    (hsize : hdrSize + payload.length + crcSize ≤ cfg.blobSize) :
    ∃ st', save crc false st svcs m tag = some (st', m', .ok ()) := by
  have hpos : 0 < tag.length := by
    have hvalid := hst.valid
    simp only [State.validTag, Bool.and_eq_true, decide_eq_true_eq] at hvalid
    exact hvalid.1
  have hblob : (writeBlob crc payload).length ≤ cfg.blobSize := by
    rw [length_writeBlob]
    exact hsize
  obtain ⟨slots, hslots⟩ := ramSave_of_slot _ hpos hst.short hblob hst.slot
  refine ⟨{ st with slots }, ?_⟩
  unfold save
  simp only [Bool.false_eq_true, if_false, hst.initialized, not_true_eq_false, hst.valid,
    hentries, if_neg (Nat.not_lt.mpr hsize), callSave, hst.ram, hslots]

theorem writable_of_save {crc : Bytes → UInt16} {started : Bool} {st' : State cfg} {m m' : μ}
    (h : save crc started st svcs m tag = some (st', m', .ok ())) :
    started = false ∧ Writable st tag := by
  obtain ⟨hvalid, payload, -, -, hcall⟩ := save_ok h
  unfold save at h
  split at h
  · cases h
  next hstarted =>
  split at h
  · cases h
  next hinit =>
  cases hcb : st.saveCb with
  | inert =>
    simp only [callSave, hcb] at hcall
    cases hcall
  | ram =>
    simp only [callSave, hcb] at hcall
    obtain ⟨e, herr⟩ | ⟨i, hshort, -, hslot, -⟩ := ramSave_cases st tag (writeBlob crc payload)
    · rw [hcall] at herr
      cases herr
    · exact ⟨by simpa using hstarted, by simpa using hinit, hcb, hvalid, hshort,
        isSome_iff_exists.mpr ⟨i, hslot⟩⟩

theorem save_single_iff (crc : Bytes → UInt16) (hst : Writable st tag) {svc : Service μ}
    {serialize : μ → ℕ → Option (μ × Except Errno Bytes)} {m : μ}
    (hser : svc.serialize = some serialize) (hpid : svc.persistId ≠ 0)
    (hnotsup : ∀ m₁, serialize m cfg.blobSize ≠ some (m₁, .error .enotsup)) :
    (∃ st' m', save crc false st [svc] m tag = some (st', m', .ok ()) ∧
        ∃ blob, ramLoad st' tag = .ok blob) ↔
      ∃ m' body, serialize m cfg.blobSize = some (m', .ok body) ∧ EntryFits cfg body := by
  constructor
  · rintro ⟨st', m', hsave, -⟩
    obtain ⟨body, -, hbody, hfit, -⟩ := save_single hser hpid hst.ram hnotsup hsave
    exact ⟨m', body, hbody, hfit⟩
  · rintro ⟨m', body, hbody, hfit⟩
    have hentries : saveEntries cfg [svc] [] m =
        some (m', .ok (writeEntry svc.persistId body)) := by
      simp only [EntryFits] at hfit
      simp only [saveEntries, hser, if_neg hpid, hbody]
      rw [if_neg (by simp only [List.length_nil]; omega), List.nil_append]
    have hsize : hdrSize + (writeEntry svc.persistId body).length + crcSize ≤ cfg.blobSize := by
      have hlen : (writeEntry svc.persistId body).length = 4 + body.length := by
        simp [writeEntry, le16Bytes]
        omega
      rw [hlen]
      exact hfit
    obtain ⟨st', hsave⟩ := save_of_writable crc hst hentries hsize
    obtain ⟨-, blob, -, -, hload, -⟩ := save_single hser hpid hst.ram hnotsup hsave
    exact ⟨st', m', hsave, blob, hload⟩

end Store

namespace Ultralight

variable {cfg : Config} {ndefCfg : Ndef.Config} {data : Data cfg}

theorem pagesTotal_le_of_serialize {outMax : ℕ} {body : Bytes}
    (h : serialize data outMax = some (.ok body)) : data.pagesTotal.toNat ≤ cfg.maxPages := by
  unfold serialize at h
  split at h
  · cases h
  next hpages =>
  push Not at hpages
  exact hpages.2

theorem extractNdef_isSome (h : data.pagesTotal.toNat ≤ cfg.maxPages) :
    (extractNdef data).isSome = true := by
  unfold extractNdef
  split
  · rfl
  next hc =>
  have hpages : 3 < data.pagesTotal.toNat := by
    rw [not_or, UInt16.not_le] at hc
    exact UInt16.lt_iff_toNat_lt.mp hc.1
  have hend : 16 + min ((data.pagesTotal.toNat - 4) * pageSize) 564 ≤ cfg.maxPages * pageSize := by
    simp only [pageSize]
    omega
  rw [CArray.read?_of_le _ hend]
  simp only
  split <;> rfl

theorem bindNdef_ok_iff (residue : ℕ → UInt8) {model : Data cfg} {ndef : Ndef.State ndefCfg}
    (hndef : ndef.initialized = false) (h : (extractNdef model).isSome = true) :
    (∃ ndef', bindNdef residue model ndef = some (ndef', .ok ())) ↔
      ∀ msg, extractNdef model = some (some msg) → msg.length ≤ ndefCfg.maxSize := by
  have hinit : ∀ data, ∃ ndef', Ndef.listenerInit ndef (some data) false = (ndef', .ok ()) := by
    intro data
    unfold Ndef.listenerInit
    rw [if_neg (by simp [hndef])]
    exact ⟨_, rfl⟩
  obtain ⟨msg?, hmsg⟩ := isSome_iff_exists.mp h
  cases msg? with
  | none =>
    simp only [bindNdef, hmsg, some.injEq]
    simpa using hinit _
  | some msg =>
    simp only [bindNdef, hmsg, some.injEq]
    by_cases hlen : ndefCfg.maxSize < msg.length
    · simp [hlen]
    · rw [if_neg hlen]
      simp only [some.injEq, forall_eq']
      exact iff_of_true (hinit _) (Nat.not_lt.mp hlen)

end Ultralight

namespace Reader

variable {cfg : Config}

/-- The stored form of the card fits into a blob. -/
def CardModel.Fits : CardModel cfg → Prop
  | .classic | .felica | .slix | .iso15693 => True
  | model => ∃ body, model.serialize cfg.store.blobSize = some (.ok body) ∧
      Store.EntryFits cfg.store body

/-- The cards that a clone can store. An NDEF listener that is already there stores the card it
has, and the EMV listener copies an AID of the length that the image gives. -/
def Clonable (st : Stack.State cfg) : CardModel cfg → Prop
  | .ndef _ => st.listeners.ndef.initialized = true →
      ∃ body, (Ndef.listenerSerialize st.listeners.ndef cfg.store.blobSize).2 = .ok body ∧
        Store.EntryFits cfg.store body
  | .ultralight data =>
      ∀ msg, Ultralight.extractNdef data = some (some msg) → msg.length ≤ cfg.ndef.maxSize
  | .emv image => image.appAidLen.toNat ≤ Emv.appAidMaxBytes
  | .desfire _ | .aliro _ => True
  | .classic | .felica | .slix | .iso15693 => False

def Saved (tag : Store.TagName) (r : Option (Stack.State cfg × Ret)) : Prop :=
  ∃ st', r = some (st', .ok ()) ∧ ∃ blob, Store.ramLoad st'.store tag = .ok blob

variable {tag : Store.TagName} {st : Stack.State cfg} (crc : Bytes → UInt16) (residue : ℕ → UInt8)
  (hst : Store.Writable st.store tag) (hquiet : st.phase ≠ .started)

include hst hquiet

theorem saveService_iff (pid : PersistId) {l : Listeners cfg} {svc : Service (Listeners cfg)}
    {serialize : Listeners cfg → ℕ → Option (Listeners cfg × Except Errno Bytes)}
    {stored : Option (Except Errno Bytes)} (hser : svc.serialize = some serialize)
    (hpid : svc.persistId = pid.code)
    (hstored : (serialize l cfg.store.blobSize).map Prod.snd = stored)
    (hnotsup : stored ≠ some (.error .enotsup)) :
    Saved tag (saveService crc { st with listeners := l } svc tag) ↔
      ∃ body, stored = some (.ok body) ∧ Store.EntryFits cfg.store body := by
  have hnot : ∀ m, serialize l cfg.store.blobSize ≠ some (m, .error .enotsup) := by
    intro m hm
    rw [hm] at hstored
    exact hnotsup hstored.symm
  have hne : svc.persistId ≠ 0 := by
    rw [hpid]
    cases pid <;> decide
  have hiff := Store.save_single_iff crc hst hser hne hnot
  have hphase : (st.phase == .started) = false := by simpa using hquiet
  constructor
  · rintro ⟨st', h, hblob⟩
    obtain ⟨⟨store, l', ret⟩, hs, heq⟩ := map_eq_some_iff.mp h
    obtain ⟨rfl, rfl⟩ := Prod.mk.inj heq
    rw [hphase] at hs
    obtain ⟨m', body, hbody, hfit⟩ := hiff.mp ⟨store, l', hs, hblob⟩
    rw [hbody] at hstored
    exact ⟨body, hstored.symm, hfit⟩
  · rintro ⟨body, rfl, hfit⟩
    obtain ⟨⟨l', r⟩, hl, rfl⟩ := map_eq_some_iff.mp hstored
    obtain ⟨store, m', hs, hblob⟩ := hiff.mpr ⟨l', body, hl, hfit⟩
    refine ⟨{ st with store, listeners := m' }, ?_, hblob⟩
    rw [saveService]
    simp only [hphase, hs]
    rfl

variable {body : Bytes}

theorem cloneUltralight_iff {data : Ultralight.Data cfg.ultralight}
    (hser : Ultralight.serialize data cfg.store.blobSize = some (.ok body))
    (hfit : Store.EntryFits cfg.store body) :
    Saved tag (cloneUltralight crc residue st data tag) ↔ Clonable st (.ultralight data) := by
  have hup : (Ultralight.listenerInit st.listeners.ultralight).1.initialized = true := by
    unfold Ultralight.listenerInit
    split <;> simp_all
  have hdown : (Ndef.listenerShutdown st.listeners.ndef).initialized = false := by
    unfold Ndef.listenerShutdown
    split <;> simp_all
  have hbind := Ultralight.bindNdef_ok_iff residue hdown
    (Ultralight.extractNdef_isSome (Ultralight.pagesTotal_le_of_serialize hser))
  refine Iff.trans ?_ hbind
  simp only [cloneUltralight, Ultralight.listenerLoad, hup, not_true, if_false]
  -- the clone ends at a binding that fails, before anything is saved
  cases hb : Ultralight.bindNdef residue data (Ndef.listenerShutdown st.listeners.ndef) with
  | none => simp [Saved]
  | some r =>
    obtain ⟨ndef, ret⟩ := r
    cases ret with
    | error e => simp [Saved]
    | ok _ =>
      refine iff_of_true ?_ ⟨ndef, rfl⟩
      refine Iff.mpr (saveService_iff crc hst hquiet .ultralight rfl rfl ?_ ?_) ⟨body, rfl, hfit⟩
      · rw [map_map]
        simp [Ultralight.listenerSerialize, hser]
      · simp

theorem cloneNdef_iff {data : Ndef.Data cfg.ndef} (hcap : data.Captured)
    (hser : Ndef.serialize data cfg.store.blobSize = .ok body)
    (hfit : Store.EntryFits cfg.store body) :
    Saved tag (cloneModel crc residue st (.ndef data) tag) ↔ Clonable st (.ndef data) := by
  have hnot := Ndef.listenerSerialize_ne_enotsup
    (Ndef.listenerInit st.listeners.ndef (some data) true).1 cfg.store.blobSize
  refine Iff.trans (saveService_iff crc hst hquiet .ndef rfl rfl rfl
    (fun heq => hnot (some.inj heq))) ?_
  show (∃ body, some (Ndef.listenerSerialize
    (Ndef.listenerInit st.listeners.ndef (some data) true).1 cfg.store.blobSize).2 =
      some (.ok body) ∧ _) ↔ _
  simp only [some.injEq]
  by_cases hup : st.listeners.ndef.initialized = true
  · -- a listener that is there keeps its card
    have hkeep : (Ndef.listenerInit st.listeners.ndef (some data) true).1 = st.listeners.ndef := by
      rw [Ndef.listenerInit, if_pos hup]
    rw [hkeep]
    exact ⟨fun h _ => h, fun h => h hup⟩
  · obtain ⟨body', hser', hlen⟩ : ∃ body', Ndef.serialize data.opened cfg.store.blobSize =
        .ok body' ∧ body'.length = body.length := Ndef.serialize_of_lengths hser rfl rfl
    refine iff_of_true ⟨body', ?_, ?_⟩ (fun h => absurd h hup)
    · rw [Ndef.listenerSerialize_listenerInit (by simpa using hup) hcap]
      exact hser'
    · rw [Store.EntryFits, hlen]
      exact hfit

variable {model : CardModel cfg}

theorem cloneModel_iff (hfits : model.Fits) (hcap : ∀ data, model = .ndef data → data.Captured) :
    Saved tag (cloneModel crc residue st model tag) ↔ Clonable st model := by
  have hunbound : ∀ p, Saved tag (saveService crc st (unboundService p) tag) ↔ False := by
    intro p
    refine iff_of_false ?_ id
    rintro ⟨st', h, -⟩
    exact saveService_unbound p hst.ram h
  cases model with
  | ndef data =>
    obtain ⟨body, hser, hfit⟩ := hfits
    exact cloneNdef_iff crc residue hst hquiet (hcap data rfl) (some.inj hser) hfit
  | ultralight data =>
    obtain ⟨body, hser, hfit⟩ := hfits
    exact cloneUltralight_iff crc residue hst hquiet hser hfit
  | desfire data =>
    have hnot := Desfire.serialize_ne_enotsup data cfg.store.blobSize
    refine iff_of_true ?_ trivial
    exact Iff.mpr (saveService_iff crc hst hquiet .desfire rfl rfl rfl
      (fun heq => hnot (some.inj heq))) hfits
  | emv image =>
    have hnot := Emv.serialize_ne_enotsup image cfg.store.blobSize
    simp only [cloneModel]
    split
    · -- the responses are built only from an identifier within its array
      next hinit =>
      refine iff_of_false (by simp [Saved]) ?_
      intro hlen
      have hread := image.appAid.read?_of_le (show 0 + image.appAidLen.toNat ≤ _ by
        rw [Nat.zero_add]
        exact hlen)
      simp [Emv.listenerInit, Emv.rebuildWire, hread] at hinit
    · next emv hinit =>
      obtain ⟨wire, hwire, rfl⟩ := map_eq_some_iff.mp hinit
      refine iff_of_true ?_ ?_
      · exact Iff.mpr (saveService_iff crc hst hquiet .emv rfl rfl
          (map_snd_map_pair _ _ _) hnot) hfits
      · obtain ⟨aid, haid, -⟩ := map_eq_some_iff.mp hwire
        obtain ⟨hlen, -⟩ := (CArray.read?_eq_some_iff _ _ _ _).mp haid
        rw [Nat.zero_add] at hlen
        exact hlen
  | aliro data =>
    have hnot := Aliro.serialize_ne_enotsup data cfg.store.blobSize
    refine iff_of_true ?_ trivial
    exact Iff.mpr (saveService_iff crc hst hquiet .aliro rfl rfl
      (map_snd_map_pair _ _ _) hnot) hfits
  | classic => exact hunbound .classic
  | felica => exact hunbound .felica
  | slix => exact hunbound .slix
  | iso15693 => exact hunbound .iso15693

omit hst hquiet

variable {crc residue}

variable {st' : Stack.State cfg}

theorem cloneModel_save (h : cloneModel crc residue st model tag = some (st', .ok ())) :
    ∃ l svc, saveService crc { st with listeners := l } svc tag = some (st', .ok ()) := by
  cases model with
  | ndef data => exact ⟨_, _, h⟩
  | ultralight data =>
    simp only [cloneModel, cloneUltralight] at h
    split at h
    · cases h
    · split at h
      · cases h
      · exact ⟨_, _, h⟩
  | desfire data => exact ⟨_, _, h⟩
  | emv image =>
    simp only [cloneModel] at h
    split at h
    · cases h
    · exact ⟨_, _, h⟩
  | aliro data => exact ⟨_, _, h⟩
  | classic | felica | slix | iso15693 => exact ⟨st.listeners, _, h⟩

theorem writable_of_cloneModel (h : cloneModel crc residue st model tag = some (st', .ok ())) :
    st.phase ≠ .started ∧ Store.Writable st.store tag := by
  obtain ⟨l, svc, hsave⟩ := cloneModel_save h
  obtain ⟨⟨store, l', ret⟩, hs, heq⟩ := map_eq_some_iff.mp hsave
  obtain ⟨-, rfl⟩ := Prod.mk.inj heq
  obtain ⟨hquiet, hst⟩ := Store.writable_of_save hs
  exact ⟨by simpa using hquiet, hst⟩

theorem Stores.body_eq {pid : PersistId} {body' : Bytes} (h : Stores crc st tag pid body)
    (h' : Stores crc st tag pid body') : body = body' := by
  obtain ⟨blob, hblob, hes⟩ := h
  obtain ⟨blob', hblob', hes'⟩ := h'
  obtain rfl := Except.ok.inj (hblob.symm.trans hblob')
  have hlist := some.inj (hes.symm.trans hes')
  simpa using hlist

def KeepsCard (st : Stack.State cfg) (model : CardModel cfg) : Prop :=
  ∀ data, model = .ndef data → st.listeners.ndef.initialized = true →
    (Ndef.listenerSerialize st.listeners.ndef cfg.store.blobSize).2 =
      Ndef.serialize data.opened cfg.store.blobSize

def StoresCard (crc : Bytes → UInt16) (st : Stack.State cfg) (tag : Store.TagName)
    (model : CardModel cfg) : Prop :=
  ∃ body, model.opened.serialize cfg.store.blobSize = some (.ok body) ∧
    Store.EntryFits cfg.store body ∧ Stores crc st tag model.protocol.persistId body

variable (hcap : ∀ data, model = .ndef data → data.Captured)
  (h : cloneModel crc residue st model tag = some (st', .ok ()))

include hcap h

/-- A clone that succeeds leaves one entry, with the identifier of the card's protocol. -/
theorem cloneModel_entry :
    ∃ body, Store.EntryFits cfg.store body ∧ Stores crc st' tag model.protocol.persistId body ∧
      (model.opened.serialize cfg.store.blobSize = some (.ok body) ↔ KeepsCard st model) := by
  have hram := (writable_of_cloneModel h).2.ram
  by_cases hup : ∃ data, model = .ndef data ∧ st.listeners.ndef.initialized = true
  · obtain ⟨data, rfl, hinit⟩ := hup
    -- the listener keeps its card, and that is what is saved
    have hkeep : (Ndef.listenerInit st.listeners.ndef (some data) true).1 = st.listeners.ndef := by
      rw [Ndef.listenerInit, if_pos hinit]
    have hnot := Ndef.listenerSerialize_ne_enotsup st.listeners.ndef cfg.store.blobSize
    simp only [cloneModel, hkeep] at h
    obtain ⟨kept, hkept, hfit, hstores⟩ := saveService_stores h hram rfl
      (rfl : _ = PersistId.ndef.code) rfl (fun heq => hnot (some.inj heq))
    have hkept : (Ndef.listenerSerialize st.listeners.ndef cfg.store.blobSize).2 = .ok kept :=
      some.inj hkept
    refine ⟨kept, hfit, hstores, ?_, fun hsame => ?_⟩
    · rintro hser data' heq -
      cases heq
      rw [hkept]
      exact (some.inj hser).symm
    · exact congrArg some ((hsame data rfl hinit).symm.trans hkept)
  · have hfresh : ∀ data, model = .ndef data → st.listeners.ndef.initialized = false := by
      intro data hdata
      by_contra hinit
      exact hup ⟨data, hdata, by simpa using hinit⟩
    obtain ⟨body, hser, hfit, hstores⟩ :=
      cloneModel_stores hram (fun data hdata => ⟨hcap data hdata, hfresh data hdata⟩) h
    exact ⟨body, hfit, hstores,
      iff_of_true hser fun data hdata hinit => absurd ⟨data, hdata, hinit⟩ hup⟩

theorem cloneModel_stores_iff : StoresCard crc st' tag model ↔ KeepsCard st model := by
  obtain ⟨body, hfit, hstores, hiff⟩ := cloneModel_entry hcap h
  constructor
  · rintro ⟨body', hser, -, hstores'⟩
    rw [hstores'.body_eq hstores] at hser
    exact hiff.mp hser
  · intro hkeeps
    exact ⟨body, hiff.mpr hkeeps, hfit, hstores⟩

omit hcap h

theorem CardModel.fits_of_opened
    (hser : model.opened.serialize cfg.store.blobSize = some (.ok body))
    (hfit : Store.EntryFits cfg.store body) : model.Fits := by
  cases model with
  | ndef data =>
    obtain ⟨body', hser', hlen⟩ : ∃ body', Ndef.serialize data cfg.store.blobSize =
        .ok body' ∧ body'.length = body.length :=
      Ndef.serialize_of_lengths (some.inj hser) rfl rfl
    refine ⟨body', congrArg some hser', ?_⟩
    rw [Store.EntryFits, hlen]
    exact hfit
  | ultralight | desfire | emv | aliro => exact ⟨body, hser, hfit⟩
  | classic | felica | slix | iso15693 => trivial

structure Storable (st : Stack.State cfg) (tag : Store.TagName) (model : CardModel cfg) : Prop where
  quiet : st.phase ≠ .started
  writable : Store.Writable st.store tag
  fits : model.Fits
  clonable : Clonable st model
  keeps : KeepsCard st model

theorem cloneModel_storable_iff (crc : Bytes → UInt16) (residue : ℕ → UInt8)
    (hcap : ∀ data, model = .ndef data → data.Captured) :
    (∃ st', cloneModel crc residue st model tag = some (st', .ok ()) ∧
        StoresCard crc st' tag model) ↔ Storable st tag model := by
  constructor
  · rintro ⟨st', h, hcard⟩
    obtain ⟨hquiet, hst⟩ := writable_of_cloneModel h
    obtain ⟨body, hser, hfit, blob, hload, -⟩ := id hcard
    have hfits := CardModel.fits_of_opened hser hfit
    have hsaved : Saved tag (cloneModel crc residue st model tag) := ⟨st', h, blob, hload⟩
    exact ⟨hquiet, hst, hfits, (cloneModel_iff crc residue hst hquiet hfits hcap).mp hsaved,
      (cloneModel_stores_iff hcap h).mp hcard⟩
  · intro h
    obtain ⟨st', hclone, -⟩ :=
      (cloneModel_iff crc residue h.writable h.quiet h.fits hcap).mpr h.clonable
    exact ⟨st', hclone, (cloneModel_stores_iff hcap hclone).mpr h.keeps⟩

variable {τ : Type} (s : Session τ) (pollers : OtherPollers cfg τ)

theorem pollersRun_of_read (crc : Bytes → UInt16) (residue : ℕ → UInt8) (st st₁ : Stack.State cfg)
    (tag : Store.TagName) {t t₁ : τ} (h : pollersRead s pollers t = some (.ok model, t₁)) :
    pollersRun s pollers crc residue st tag t = some ((st₁, .ok ()), t₁) ↔
      cloneModel crc residue st model tag = some (st₁, .ok ()) := by
  rw [pollersRun, Poll.bind_of_eq h]
  cases hclone : cloneModel crc residue st model tag with
  | none => simp [hclone, Poll.undefined]
  | some r =>
    simp only [hclone]
    constructor
    · intro h
      cases h
      rfl
    · intro h
      cases h
      rfl

/-- A run that succeeds has stored one entry, with the identifier of the poller that matched. It is
the card that this poller has read, opened for writing if it is an NDEF card, exactly if an NDEF
listener that was there before holds no other one. -/
theorem pollersRun_stores_iff (crc : Bytes → UInt16) (residue : ℕ → UInt8)
    {st st' : Stack.State cfg} {tag : Store.TagName} {t t' : τ}
    (h : pollersRun s pollers crc residue st tag t = some ((st', .ok ()), t')) :
    ∃ p t₁ model body, firstMatch s pollers (registry cfg) t = some (some p, t₁) ∧
      pollerRead s pollers p t₁ = some (.ok model, t') ∧ Stores crc st' tag p.persistId body ∧
      (model.opened.serialize cfg.store.blobSize = some (.ok body) ↔ KeepsCard st model) := by
  obtain ⟨read, t₁, hread, h⟩ := Poll.bind_eq_some h
  cases read with
  | error e => cases h
  | ok model =>
    cases hclone : cloneModel crc residue st model tag with
    | none =>
      simp only [hclone] at h
      cases h
    | some r =>
      simp only [hclone] at h
      cases h
      obtain ⟨p, t₂, hmatch, hpoll⟩ := pollersRead_cases s pollers hread
      obtain ⟨rfl, hcap⟩ := pollerRead_spec s pollers hpoll
      obtain ⟨body, -, hstores, hiff⟩ := cloneModel_entry hcap hclone
      exact ⟨model.protocol, t₂, model, body, hmatch, hpoll, hstores, hiff⟩

theorem pollersRun_stores_message :
    ∃ st', pollersRun (messageCard 0x00) (pollersOf (messageCard 0x00)) Store.crc16Ccitt
        (fun _ => 0) readerOnly Stack.cardTag () = some ((st', .ok ()), ()) ∧
      ∃ p t₁ model body,
        firstMatch (messageCard 0x00) (pollersOf (messageCard 0x00)) (registry .default) () =
          some (some p, t₁) ∧
        pollerRead (messageCard 0x00) (pollersOf (messageCard 0x00)) p t₁ = some (.ok model, ()) ∧
        Stores Store.crc16Ccitt st' Stack.cardTag p.persistId body ∧
        model.opened.serialize Config.default.store.blobSize = some (.ok body) := by
  have hret : (pollersRun (messageCard 0x00) (pollersOf (messageCard 0x00)) Store.crc16Ccitt
      (fun _ => 0) readerOnly Stack.cardTag ()).map (·.1.2) = some (.ok ()) := by decide +kernel
  obtain ⟨⟨⟨st', ret⟩, ⟨⟩⟩, h, rfl⟩ := map_eq_some_iff.mp hret
  obtain ⟨p, t₁, model, body, hmatch, hread, hstores, hiff⟩ :=
    pollersRun_stores_iff (messageCard 0x00) _ Store.crc16Ccitt (fun _ => 0) h
  have hkeeps : KeepsCard readerOnly model := fun _ _ hup => by cases hup
  exact ⟨st', h, p, t₁, model, body, hmatch, hread, hstores, hiff.mpr hkeeps⟩

/-- A device that has set up its stack stores its own empty message in the place of the card. -/
theorem cloned_empty_message :
    (pollersRead (messageCard 0x00) (pollersOf (messageCard 0x00)) ()).map
        (fun r => r.1.toOption.bind (CardModel.serialize Config.default.store.blobSize)) =
      some (some (.ok ([0x01] ++ cardCc 0x00 ++ [0x00, 0x01, 0xD0]))) ∧
    clonedBy (messageCard 0x00) readerOnly () =
      some (.ok (), some [⟨0x01, [0x01] ++ cardCc 0x00 ++ [0x00, 0x01, 0xD0]⟩]) ∧
    clonedBy (messageCard 0x00) Stack.stackUp () =
      some (.ok (),
        some [⟨0x01, [0x01] ++ (Ndef.buildCc .default true).toList ++ [0x00, 0x00]⟩]) := by
  decide +kernel

/-- A card that its poller has read, that fits, and for which the store has room, is stored by the
run exactly if it is one that a clone can store. The transport does not let a reader session and a
started stack exist at once. -/
theorem pollersRun_saves_iff (crc : Bytes → UInt16) (residue : ℕ → UInt8) {st : Stack.State cfg}
    {tag : Store.TagName} {p : Protocol} {model : CardModel cfg} {t t₁ t' : τ}
    (hactive : s.active = true) (hquiet : st.phase ≠ .started)
    (hmatch : firstMatch s pollers (registry cfg) t = some (some p, t₁))
    (hread : pollerRead s pollers p t₁ = some (.ok model, t')) (hfits : model.Fits)
    (hroom : Store.Room st.store tag) :
    (∃ st', pollersRun s pollers crc residue st tag t = some ((st', .ok ()), t') ∧
        ∃ blob, Store.ramLoad st'.store tag = .ok blob) ↔ Clonable st model := by
  have hcap := (pollerRead_spec s pollers hread).2
  rw [← cloneModel_iff crc residue hroom.toWritable hquiet hfits hcap]
  have hgot : pollersRead s pollers t = some (.ok model, t') := by
    rw [pollersRead, if_neg (by simp [hactive]), Poll.bind_of_eq hmatch]
    exact hread
  simp only [pollersRun_of_read s pollers crc residue st _ tag hgot]
  exact Iff.rfl

theorem room_readerOnly : Store.Room readerOnly.store Stack.cardTag :=
  ⟨⟨by decide, by decide, by decide, by decide, by decide⟩, by decide⟩

theorem pollersRun_saves_message :
    ∃ st', pollersRun (messageCard 0x00) (pollersOf (messageCard 0x00)) Store.crc16Ccitt (fun _ => 0) readerOnly
        Stack.cardTag () = some ((st', .ok ()), ()) ∧
      ∃ blob, Store.ramLoad st'.store Stack.cardTag = .ok blob := by
  have hmatch : firstMatch (messageCard 0x00) (pollersOf (messageCard 0x00)) (registry .default) () =
      some (some .ndef, ()) := by decide +kernel
  have hser : (pollerRead (messageCard 0x00) (pollersOf (messageCard 0x00)) .ndef ()).map (fun r =>
      r.1.toOption.bind (CardModel.serialize Config.default.store.blobSize)) =
        some (some (.ok ([0x01] ++ cardCc 0x00 ++ [0x00, 0x01, 0xD0]))) := by decide +kernel
  obtain ⟨⟨read, ⟨⟩⟩, hread, hbody⟩ := map_eq_some_iff.mp hser
  cases read with
  | error e => cases hbody
  | ok model =>
    have hp := (pollerRead_spec _ _ hread).1
    cases model with
    | ndef data =>
      have hfits : (CardModel.ndef data : CardModel .default).Fits :=
        ⟨_, hbody, Nat.le_of_ble_eq_true rfl⟩
      exact (pollersRun_saves_iff (messageCard 0x00) (pollersOf (messageCard 0x00)) Store.crc16Ccitt (fun _ => 0) rfl
        (by decide) hmatch hread hfits room_readerOnly).mpr (fun h => by cases h)
    | _ => cases hp

/-! Two cards that fit and are not stored: an ISO 15693 card with two blocks, and an Ultralight
card with a message of 512 bytes. -/

def isoTag : Session Iso15693.State := Iso15693.listenerSession .etimedout

def isoCard : Iso15693.State := Iso15693.State.boot.listenerInit (some (Iso15693.zeroCard 2))

def longMessageTag : Session Unit where
  active := true
  tag.step _ tx := some ((),
    if tx = [0x60] then .ok [0x00, 0x04, 0x04, 0x02, 0x01, 0x00, 0x13, 0x03]
    else if tx = [0x30, 0] then .ok (List.replicate 12 0x00 ++ [0xE1, 0x10, 0x6D, 0x00])
    else if tx = [0x30, 4] then .ok ([0x03, 0xFF, 0x02, 0x00] ++ List.replicate 12 0x00)
    else if byteAt tx 0 = 0x30 then .ok (List.replicate 16 0x00)
    else .error .etimedout)

theorem clone_drops_cards :
    (firstMatch isoTag (pollersOf isoTag) (registry .default) isoCard).map Prod.fst =
      some (some .iso15693) ∧
    (Iso15693.pollerRead isoTag .reset isoCard).map
        (fun r => (r.1.2, (r.1.1.serialize 4096).toOption.map List.length)) =
      some (.ok (), some 21) ∧
    clonedBy isoTag readerOnly isoCard = some (.error .eio, none) ∧
    (firstMatch longMessageTag (pollersOf longMessageTag) (registry .default) ()).map Prod.fst =
      some (some .ultralight) ∧
    (Ultralight.pollerRead longMessageTag ambient.rndA
        (.reset : Ultralight.Data Config.default.ultralight) ()).map
        (fun r => (r.1.2, (Ultralight.serialize r.1.1 4096).map (·.toOption.map List.length))) =
      some (.ok (), some (some 940)) ∧
    clonedBy longMessageTag readerOnly () = some (.error .ebadmsg, none) := by
  refine ⟨?_, ?_, ?_, ?_, ?_, ?_⟩ <;> decide +kernel

end Reader

end NfcStack
