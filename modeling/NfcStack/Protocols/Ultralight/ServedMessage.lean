import NfcStack.Protocols.Ndef.Codec
import NfcStack.Protocols.Ultralight.Adapter
import NfcStack.Protocols.Ultralight.NdefTlv

/-!
# The message that the Ultralight adapter serves

The NDEF listener answers from its file whether it is shut down or not, so the message of a card may
outlive it; and one that does not end in the scan buffer is served as an empty one.
-/

namespace NfcStack.Ndef

open List Option CArray UInt16

variable {cfg : Config}

def Data.ndefMessage (data : Data cfg) : Bytes := data.ndefFile.slice nlenFieldLen data.nlen.toNat

def State.message (st : State cfg) : Bytes := st.model.ndefMessage

variable (st : State cfg)

theorem message_listenerShutdown : (listenerShutdown st).message = st.message := by
  unfold listenerShutdown
  split <;> rfl

theorem initialized_listenerShutdown : (listenerShutdown st).initialized = false := by
  unfold listenerShutdown
  split
  · rfl
  · next h => simpa using h

variable {file : Bytes} (cc : CArray UInt8 ccSize)

theorem captured_ofContent (hpos : 2 ≤ file.length) (hle : file.length ≤ cfg.fileSize)
    (hfield : file.length = 2 + (be16 (byteAt file 0) (byteAt file 1)).toNat) :
    (Data.ofContent cfg cc file).Captured := by
  have hsize : cfg.fileSize = 2 + cfg.maxSize := rfl
  have hnlen := nlen_ofContent cc hpos hle
  refine ⟨rfl, by rw [hnlen]; omega, ?_⟩
  rw [hnlen]
  show UInt16.ofNat file.length = _
  rw [hfield, UInt16.ofNat_add, UInt16.ofNat_toNat]
  rfl

theorem slice_ofContent (hle : file.length ≤ cfg.fileSize) :
    (Data.ofContent cfg cc file).ndefFile.slice 0 file.length = file :=
  slice_write_self _ (by omega)

theorem message_padNdefFile {msg : Bytes} (h : msg.length ≤ cfg.maxSize)
    (hfile : file = (le16Bytes (UInt16.ofNat msg.length)).reverse ++ msg) :
    (padNdefFile (.ofContent cfg cc file)).ndefMessage = msg := by
  obtain ⟨hpos, hle, hfield⟩ := announced h hfile
  have hcaptured := captured_ofContent cc hpos hle hfield
  have hslice := slice_ofContent cc hle
  have hlen : file.length = 2 + msg.length := by
    rw [hfile, length_append]
    rfl
  have hmsg : (Data.ofContent cfg cc file).nlen.toNat = msg.length := by
    rw [nlen_ofContent cc hpos hle]
    omega
  have hkept : (padNdefFile (.ofContent cfg cc file)).ndefFile.slice nlenFieldLen msg.length =
      (Data.ofContent cfg cc file).ndefFile.slice nlenFieldLen msg.length := by
    refine slice_write_of_disjoint _ hcaptured.pad_fits (.inl ?_)
    rw [hcaptured.toNat_ndefFileLen, hmsg, nlenFieldLen]
  rw [hlen] at hslice
  rw [Data.ndefMessage, hcaptured.nlen_padNdefFile, hmsg, hkept, nlenFieldLen, ← Nat.zero_add 2,
    ← slice_slice _ le_rfl, hslice, hfile]
  exact take_length

theorem byteAt_zeros (n i : ℕ) : byteAt (List.replicate n (0 : UInt8)) i = 0 := by
  simp only [byteAt, getD_eq_getElem?_getD, getElem?_replicate]
  split <;> rfl

theorem message_of_zeros {data : Data cfg} (h0 : byteAt data.ndefFile.toList 0 = 0)
    (h1 : byteAt data.ndefFile.toList 1 = 0) : data.ndefMessage = [] := by
  rw [Data.ndefMessage, Data.nlen, h0, h1]
  exact slice_zero _ _

theorem message_boot : (.boot : State cfg).message = [] :=
  message_of_zeros (byteAt_zeros _ 0) (byteAt_zeros _ 1)

variable (writable : Bool)

theorem message_initModel_reset :
    (initModel writable (some (.reset : Data cfg))).ndefMessage = [] := by
  have hle : 0 + (List.replicate (cfg.fileSize - 0) (0 : UInt8)).length ≤ cfg.fileSize := by simp
  have hzero : ∀ i, byteAt ((CArray.fill cfg.fileSize 0).write 0
      (List.replicate (cfg.fileSize - 0) 0)).toList i = 0 := by
    intro i
    rw [byteAt_write _ hle]
    split
    · exact byteAt_zeros _ _
    · exact byteAt_zeros _ i
  exact message_of_zeros (hzero 0) (hzero 1)

theorem initModel_of_file {len : UInt16} (hlen : len = UInt16.ofNat file.length) :
    initModel writable (some { (Data.reset : Data cfg) with
      ndefFile := (Data.reset : Data cfg).ndefFile.write 0 file, ndefFileLen := len }) =
      padNdefFile (.ofContent cfg (buildCc cfg writable) file) := by
  subst hlen
  rfl

end NfcStack.Ndef

namespace NfcStack.Ultralight

variable {cfg : Config} {ndefCfg : Ndef.Config}

def Data.area (data : Data cfg) : Bytes :=
  data.pages.slice 16 ((data.pagesTotal.toNat - 4) * pageSize)

structure Data.IsMessage (data : Data cfg) (msg : Bytes) : Prop where
  value : data.pages.get? 12 = some 0xE1 → ∀ value, FirstNdef data.area value → msg = value
  empty : data.pages.get? 12 ≠ some 0xE1 ∨ (¬ ∃ value, FirstNdef data.area value) → msg = []

theorem isMessage_nil_iff (data : Data cfg) : data.IsMessage [] ↔
    (data.pages.get? 12 = some 0xE1 → ∀ value, FirstNdef data.area value → value = []) :=
  ⟨fun h hcc value hvalue => (h.value hcc value hvalue).symm,
    fun h => ⟨fun hcc value hvalue => (h hcc value hvalue).symm, fun _ => rfl⟩⟩

variable {data : Data cfg}

theorem extractNdef_inv {msg : Option Bytes} (h : extractNdef data = some msg) :
    (msg = none ∧ (data.pages.get? 12 = some 0xE1 → data.area = [])) ∨
      data.pages.get? 12 = some 0xE1 ∧
        (msg = none ∨ ∃ value, msg = some value ∧ FirstNdef (data.area.take 564) value) := by
  unfold extractNdef at h
  split at h
  · next hc =>
    cases h
    refine .inl ⟨rfl, fun hcc => ?_⟩
    have htotal := hc.resolve_right (not_not_intro hcc)
    rw [UInt16.le_iff_toNat_le] at htotal
    have h3 : (3 : UInt16).toNat = 3 := rfl
    rw [Data.area, show data.pagesTotal.toNat - 4 = 0 by omega, Nat.zero_mul, CArray.slice_zero]
  · next hc =>
    push Not at hc
    refine .inr ⟨hc.2, ?_⟩
    split at h
    · cases h
    · next flat hflat =>
      obtain ⟨-, hslice⟩ := (CArray.read?_eq_some_iff _ _ _ _).mp hflat
      have harea : flat = data.area.take 564 := by
        rw [hslice, Data.area, CArray.slice, CArray.slice, List.take_take, Nat.min_comm]
      split at h
      · next msg' hscan =>
        cases h
        cases msg with
        | none => exact .inl rfl
        | some value => exact .inr ⟨value, rfl, harea ▸ firstNdef_of_scan hscan⟩
      · cases h
        exact .inl rfl

theorem isMessage_of_firstNdef {msg : Bytes} (hcc : data.pages.get? 12 = some 0xE1)
    (h : FirstNdef (data.area.take 564) msg) : data.IsMessage msg := by
  have harea : FirstNdef data.area msg := by
    have := h.append (data.area.drop 564)
    rwa [List.take_append_drop] at this
  refine ⟨fun _ value hvalue => ?_, fun hnone => ?_⟩
  · have hscan := (scanNdefTlv_eq_some_iff le_rfl).mpr harea
    cases hscan.symm.trans ((scanNdefTlv_eq_some_iff le_rfl).mpr hvalue)
    rfl
  · rcases hnone with hcc' | hnone
    · exact absurd hcc hcc'
    · exact absurd ⟨msg, harea⟩ hnone

def Data.cutOff (data : Data cfg) : Bool :=
  data.pages.get? 12 == some 0xE1 && decide (extractNdef data = some none) &&
    match scanNdefTlv data.area.length data.area with
    | .ok (some value) => value != []
    | _ => false

theorem isMessage_nil_iff_cutOff (h : extractNdef data = some none) :
    data.IsMessage [] ↔ data.cutOff = false := by
  rw [isMessage_nil_iff, Data.cutOff]
  by_cases hcc : data.pages.get? 12 = some 0xE1
  swap
  · simp [hcc]
  simp only [hcc, h, beq_self_eq_true, decide_true, Bool.true_and, forall_const,
    ← scanNdefTlv_eq_some_iff (le_refl data.area.length)]
  cases scanNdefTlv data.area.length data.area with
  | error e => simp
  | ok msg => cases msg <;> simp

theorem cutOff_of_isMessage (h : data.IsMessage []) : data.cutOff = false := by
  by_cases hextract : extractNdef data = some none
  · exact (isMessage_nil_iff_cutOff hextract).mp h
  · simp [Data.cutOff, hextract]

def found (model : Data cfg) (i : ℕ) : UInt8 :=
  match extractNdef model with
  | some (some msg) => byteAt msg i
  | _ => 0

def bindDiverges (ndef : Ndef.State ndefCfg) (model : Data cfg) : Bool :=
  match extractNdef model with
  | some (some msg) => decide (ndefCfg.maxSize < msg.length) && ndef.message != []
  | _ => model.cutOff

def Serves (model : Data cfg) (ndef : Ndef.State ndefCfg) (ret : Ret) : Prop :=
  match ret with
  | .ok () => model.IsMessage ndef.message
  | .error _ => ndef.message = []

variable {model : Data cfg}

theorem bindNdef_serves_iff {ndef ndef' : Ndef.State ndefCfg} {ret : Ret}
    (hndef : ndef.initialized = false) (h : bindNdef (found model) model ndef = some (ndef', ret)) :
    Serves model ndef' ret ↔ bindDiverges ndef model = false := by
  unfold bindNdef at h
  unfold bindDiverges
  cases hextract : extractNdef model with
  | none =>
    rw [hextract] at h
    cases h
  | some msg =>
    rw [hextract] at h
    cases msg with
    | none =>
      simp only [Ndef.listenerInit, hndef, Bool.false_eq_true, if_false] at h
      cases h
      show model.IsMessage (Ndef.initModel false (some (.reset : Ndef.Data ndefCfg))).ndefMessage ↔ _
      rw [Ndef.message_initModel_reset]
      exact isMessage_nil_iff_cutOff hextract
    | some msg =>
      simp only at h ⊢
      by_cases hlong : ndefCfg.maxSize < msg.length
      · rw [if_pos hlong] at h
        cases h
        simp [Serves, hlong]
      rw [if_neg hlong] at h
      simp only [Ndef.listenerInit, hndef, Bool.false_eq_true, if_false] at h
      cases h
      have hmap : (List.range msg.length).map (found model) = msg := by
        apply List.ext_getElem?
        intro i
        by_cases hi : i < msg.length
        · simp [found, hextract, byteAt, hi]
        · simp [Nat.not_lt.mp hi]
      have hlen : 2 + UInt16.ofNat msg.length =
          UInt16.ofNat ((le16Bytes (UInt16.ofNat msg.length)).reverse ++ msg).length := by
        rw [List.length_append, UInt16.ofNat_add]
        rfl
      refine iff_of_true ?_ (by simp [hlong])
      show model.IsMessage (Ndef.initModel false (some { (Ndef.Data.reset : Ndef.Data ndefCfg) with
        ndefFile := (Ndef.Data.reset : Ndef.Data ndefCfg).ndefFile.write 0
          ((le16Bytes (UInt16.ofNat msg.length)).reverse ++ (List.range msg.length).map (found model))
        ndefFileLen := 2 + UInt16.ofNat msg.length })).ndefMessage
      rw [hmap, Ndef.initModel_of_file false hlen,
        Ndef.message_padNdefFile _ (Nat.not_lt.mp hlong) rfl]
      rcases extractNdef_inv hextract with ⟨hnone, -⟩ | ⟨hcc, hnone | ⟨value, hvalue, hfirst⟩⟩
      · cases hnone
      · cases hnone
      · cases hvalue
        exact isMessage_of_firstNdef hcc hfirst

structure Adapter (cfg : Config) (ndefCfg : Ndef.Config) where
  card : State cfg
  ndef : Ndef.State ndefCfg
  last : Option Ret

def Adapter.boot : Adapter cfg ndefCfg := ⟨.boot, .boot, none⟩

inductive AdapterEvent (cfg : Config)
  | init
  | load (model : Data cfg)
  | deserialize (bytes : Bytes)
  | shutdown

def adapter : Machine (Adapter cfg ndefCfg) (AdapterEvent cfg) Ret where
  step a
    | .init => some ({ a with card := (listenerInit a.card).1 }, (listenerInit a.card).2)
    | .load model => (listenerLoad (found model) a.card a.ndef model).map
        fun r => (⟨r.1, r.2.1, some r.2.2⟩, r.2.2)
    | .deserialize bytes =>
      (listenerDeserialize (found (deserialize a.card.model bytes).1) a.card a.ndef bytes).map
        fun r => (⟨r.1, r.2.1, some r.2.2⟩, r.2.2)
    | .shutdown =>
      let r := listenerShutdown a.card a.ndef
      some (⟨r.1, r.2.1, a.last⟩, r.2.2)

def Adapter.Consistent (a : Adapter cfg ndefCfg) : Prop :=
  ∀ ret, a.last = some ret → Serves a.card.model a.ndef ret

def Adapter.diverges (a : Adapter cfg ndefCfg) : AdapterEvent cfg → Bool
  | .init => false
  | .load model => a.card.initialized && bindDiverges a.ndef model
  | .deserialize bytes => a.card.initialized &&
      match deserialize a.card.model bytes with
      | (_, .error _) => a.ndef.message != []
      | (model, .ok ()) => bindDiverges a.ndef model
  | .shutdown => a.card.initialized && a.ndef.message != []

structure Adapter.Idle (a : Adapter cfg ndefCfg) : Prop where
  consistent : a.Consistent
  first : a.last = none → a.ndef.message = []
  shutdown : a.card.initialized = false → a.ndef.message = []

theorem isMessage_reset (msg : Bytes) : (.reset : Data cfg).IsMessage msg ↔ msg = [] := by
  have hcc : (.reset : Data cfg).pages.get? 12 ≠ some 0xE1 := by
    intro h
    rw [Data.reset, CArray.get?_fill] at h
    split at h
    · cases h
    · cases h
  exact ⟨fun h => h.empty (.inl hcc), fun h => ⟨fun h' => absurd h' hcc, fun _ => h⟩⟩

theorem bindDiverges_listenerShutdown (ndef : Ndef.State ndefCfg) (model : Data cfg) :
    bindDiverges (Ndef.listenerShutdown ndef) model = bindDiverges ndef model := by
  simp only [bindDiverges, Ndef.message_listenerShutdown]

theorem consistent_iff (card : State cfg) (ndef : Ndef.State ndefCfg) (ret : Ret) :
    (⟨card, ndef, some ret⟩ : Adapter cfg ndefCfg).Consistent ↔ Serves card.model ndef ret := by
  refine ⟨fun h => h ret rfl, ?_⟩
  rintro h ret' ⟨⟩
  exact h

theorem Adapter.Idle.of_message {a : Adapter cfg ndefCfg} (hmodel : a.card.model = .reset)
    (h : a.ndef.message = []) : a.Idle := by
  refine ⟨?_, fun _ => h, fun _ => h⟩
  rintro (e | _) -
  · exact h
  · rw [Serves, hmodel, isMessage_reset]
    exact h

variable {a : Adapter cfg ndefCfg} {e : AdapterEvent cfg} {r : Adapter cfg ndefCfg × Ret}

theorem bound_iff {p : State cfg × Ndef.State ndefCfg × Ret}
    (h : (bindNdef (found model) model (Ndef.listenerShutdown a.ndef)).map
      (fun r => ((⟨model, true⟩ : State cfg), r)) = some p) :
    ((⟨p.1, p.2.1, some p.2.2⟩ : Adapter cfg ndefCfg).Consistent ↔
      bindDiverges a.ndef model = false) ∧ p.1.initialized = true := by
  obtain ⟨⟨ndef, ret⟩, hbind, rfl⟩ := Option.map_eq_some_iff.mp h
  have hiff := bindNdef_serves_iff (Ndef.initialized_listenerShutdown a.ndef) hbind
  rw [bindDiverges_listenerShutdown] at hiff
  exact ⟨(consistent_iff _ _ _).trans hiff, rfl⟩

/-- Of the state before, a step needs to know only that nothing is served in secret. -/
theorem adapter_step_iff (ha : a.Idle) (h : adapter.step a e = some r) :
    (r.1.Consistent ↔ a.diverges e = false) ∧ (r.1.Consistent → r.1.Idle) := by
  cases hinit : a.card.initialized with
  | false =>
    have hnil := ha.shutdown hinit
    -- only `init` does anything, and a call that fails finds nothing that is served
    have hidle : r.1.Idle := by
      cases e with
      | init =>
        cases h
        exact .of_message (by simp [listenerInit, hinit]) hnil
      | load model =>
        simp only [adapter, listenerLoad, hinit] at h
        cases h
        exact ⟨(consistent_iff _ _ _).mpr hnil, fun _ => hnil, fun _ => hnil⟩
      | deserialize bytes =>
        simp only [adapter, listenerDeserialize, hinit] at h
        cases h
        exact ⟨(consistent_iff _ _ _).mpr hnil, fun _ => hnil, fun _ => hnil⟩
      | shutdown =>
        simp only [adapter, listenerShutdown, hinit] at h
        cases h
        exact ha
    refine ⟨iff_of_true hidle.consistent ?_, fun _ => hidle⟩
    cases e <;> simp [Adapter.diverges, hinit]
  | true =>
    cases e with
    | init =>
      simp only [adapter, listenerInit, hinit] at h
      cases h
      exact ⟨iff_of_true ha.consistent rfl, fun _ => ha⟩
    | load model =>
      simp only [adapter, listenerLoad, hinit, not_true_eq_false, if_false] at h
      obtain ⟨p, hp, rfl⟩ := Option.map_eq_some_iff.mp h
      obtain ⟨hiff, hcard⟩ := bound_iff hp
      refine ⟨by simpa [Adapter.diverges, hinit] using hiff, fun hc => ⟨hc, fun h => ?_, fun h => ?_⟩⟩
      · cases h
      · cases hcard.symm.trans h
    | deserialize bytes =>
      simp only [adapter, listenerDeserialize, hinit, not_true_eq_false, if_false] at h
      obtain ⟨p, hp, rfl⟩ := Option.map_eq_some_iff.mp h
      simp only [Adapter.diverges, hinit, Bool.true_and]
      cases hd : deserialize a.card.model bytes with
      | mk model ret =>
        rw [hd] at hp
        cases ret with
        | error e =>
          cases hp
          refine ⟨(consistent_iff _ _ _).trans ?_, fun hc => ⟨hc, fun h => ?_, fun h => ?_⟩⟩
          · simp [Serves, Ndef.message_listenerShutdown]
          · cases h
          · cases h
        | ok _ =>
          obtain ⟨hiff, hcard⟩ := bound_iff hp
          refine ⟨hiff, fun hc => ⟨hc, fun h => ?_, fun h => ?_⟩⟩
          · cases h
          · cases hcard.symm.trans h
    | shutdown =>
      simp only [adapter, listenerShutdown, hinit, not_true_eq_false, if_false] at h
      cases h
      have hmsg := Ndef.message_listenerShutdown a.ndef
      simp only [Adapter.diverges, hinit, Bool.true_and, bne_eq_false_iff_eq]
      by_cases hnil : a.ndef.message = []
      · have hidle : Adapter.Idle ⟨(⟨.reset, false⟩ : State cfg), Ndef.listenerShutdown a.ndef, a.last⟩ :=
          .of_message rfl (hmsg.trans hnil)
        exact ⟨iff_of_true hidle.consistent hnil, fun _ => hidle⟩
      · have hnot : ¬ Adapter.Consistent
            ⟨(⟨.reset, false⟩ : State cfg), Ndef.listenerShutdown a.ndef, a.last⟩ := by
          intro hc
          cases hlast : a.last with
          | none => exact hnil (ha.first hlast)
          | some ret =>
            rw [hlast, consistent_iff] at hc
            cases ret with
            | error e => exact hnil (hmsg.symm.trans hc)
            | ok _ => exact hnil (hmsg.symm.trans ((isMessage_reset _).mp hc))
        exact ⟨iff_of_false hnot hnil, fun hc => absurd hc hnot⟩

/-- From the start on, the adapter serves the message of its card and none after a failure exactly in
the runs in which no step leaves another message to be served. -/
theorem consistent_always_iff (es : List (AdapterEvent cfg)) :
    adapter.Always (fun _ _ out => ∀ r ∈ out, r.1.Consistent)
        (.boot : Adapter cfg ndefCfg) es ↔
      adapter.Always (fun a e out => out.isSome = true → a.diverges e = false)
        (.boot : Adapter cfg ndefCfg) es := by
  refine adapter.always_iff_of_fails (I := Adapter.Idle) ?_ ?_ ?_
  · intro a e r ha hstep hf
    obtain ⟨hiff, hidle⟩ := adapter_step_iff ha hstep
    exact ⟨hidle (hiff.mpr hf), hiff.mpr hf⟩
  · intro a e r ha hstep hf hr
    rw [(adapter_step_iff ha hstep).1.mp hr] at hf
    cases hf
  · exact ⟨nofun, fun _ => Ndef.message_boot, fun _ => Ndef.message_boot⟩

def formatted (total : UInt16) (area : Bytes) : Data .default :=
  { (Data.reset : Data .default) with
    pagesTotal := total
    pages := (Data.reset : Data .default).pages.write 12 ([0xE1, 0x10, 0x6D, 0x00] ++ area) }

theorem loaded_consistent : adapter.Always (fun _ _ out => ∀ r ∈ out, r.1.Consistent)
      (.boot : Adapter .default .default)
      [.init, .load (formatted 45 [0x03, 0x02, 0xD0, 0x00, 0xFE]), .load (formatted 45 [])] :=
  (consistent_always_iff _).mpr (by decide +kernel)

theorem other_message_served :
    (¬ adapter.Always (fun _ _ out => ∀ r ∈ out, r.1.Consistent) (.boot : Adapter .default .default)
      [.init, .load (formatted 45 [0x03, 0x02, 0xD0, 0x00, 0xFE]), .deserialize []]) ∧
    ¬ adapter.Always (fun _ _ out => ∀ r ∈ out, r.1.Consistent)
      (.boot : Adapter .default .default)
      [.init, .load (formatted 231 (List.replicate 564 0x00 ++ [0x03, 0x02, 0xD0, 0x00, 0xFE]))] := by
  constructor
  · intro h
    have hfailed := Machine.Always.imp adapter (I := fun _ => True)
      (P := fun _ _ out => ∀ r ∈ out, r.1.last = some (.error .ebadmsg) → r.1.ndef.message = [])
      (fun _ _ _ hc r hr hlast => hc r hr _ hlast) (fun _ _ _ _ _ _ _ => True.intro) True.intro h
    exact absurd hfailed (by decide +kernel)
  · intro h
    have hloaded := Machine.Always.imp adapter (I := fun _ => True)
      (P := fun _ _ out => ∀ r ∈ out, r.1.last = some (.ok ()) ∧ r.1.ndef.message = [] →
        r.1.card.model.cutOff = false)
      (fun _ _ _ hc r hr ⟨hlast, hnil⟩ => cutOff_of_isMessage (hnil ▸ hc r hr _ hlast))
      (fun _ _ _ _ _ _ _ => True.intro) True.intro h
    exact absurd hloaded (by decide +kernel)

end NfcStack.Ultralight
