import NfcStack.Stack.Stack
import NfcStack.Store.RoundTrip

/-!
# The life cycle of the store

The calls that set up and take down the store, the RAM backend and the stack, in any
order. The store and its RAM backend keep a flag each, and a shutdown of the store
clears only its own.
-/

namespace NfcStack.Store

variable {cfg : Config} {μ : Type}

def initWith (maxTagLen : UInt8) (st : State cfg) : State cfg × Ret :=
  if st.initialized then (st, .error .ealready)
  else
    ({ st with
        initialized := true
        resolvedMaxTagLen := if maxTagLen = 0 then cfg.maxTagLen else maxTagLen.toNat
        saveCb := .inert
        loadCb := .inert }, .ok ())

def Registered (st : State cfg) : Prop :=
  st.initialized = true ∧ st.saveCb = .ram ∧ st.loadCb = .ram

instance instDecidableRegistered (st : State cfg) : Decidable (Registered st) :=
  inferInstanceAs (Decidable (_ ∧ _ ∧ _))

theorem registered_ramInit_iff (st : State cfg) :
    Registered (ramInit st).1 ↔ st.ramReady = false ∨ Registered st := by
  unfold ramInit
  by_cases hready : st.ramReady = true
  · simp [hready]
  · rw [if_neg hready]
    have hinit : (init st).1.initialized = true := by
      unfold init
      split
      · assumption
      · rfl
    simp [Registered, hready, hinit]

variable {st : State cfg}

theorem registered_init (h : st.ramReady = false ∨ Registered st) :
    (init st).1.ramReady = false ∨ Registered (init st).1 := by
  unfold init
  split
  · exact h
  · next hinit =>
    rcases h with h | h
    · exact .inl h
    · exact absurd h.1 hinit

theorem Registered.initWith (h : Registered st) (maxTagLen : UInt8) :
    Registered (initWith maxTagLen st).1 := by
  rw [Store.initWith, if_pos h.1]
  exact h

structure Fits (st : State cfg) (svcs : List (Service μ)) (m : μ) (tag : TagName) (m' : μ)
    (payload : Bytes) : Prop where
  entries : saveEntries cfg svcs [] m = some (m', .ok payload)
  size : hdrSize + payload.length + crcSize ≤ cfg.blobSize
  valid : st.validTag tag = true
  short : tag.length < cfg.maxTagLen
  slot : ((findTag st.slots tag).or (findFree st.slots)).isSome = true

variable {tag : TagName}

theorem ramSave_of_slot (blob : Bytes) (hpos : 0 < tag.length)
    (hlen : tag.length < cfg.maxTagLen) (hblob : blob.length ≤ cfg.blobSize)
    (hslot : ((findTag st.slots tag).or (findFree st.slots)).isSome = true) :
    ∃ slots, ramSave st tag blob = ({ st with slots }, .ok ()) := by
  obtain ⟨i, hi⟩ := Option.isSome_iff_exists.mp hslot
  unfold ramSave
  rw [if_neg (by omega), if_neg (by omega)]
  simp only [hi]
  exact ⟨_, rfl⟩

theorem length_writeBlob (crc : Bytes → UInt16) (payload : Bytes) :
    (writeBlob crc payload).length = hdrSize + payload.length + crcSize := by
  simp [writeBlob, writePayload, le16Bytes, hdrSize, crcSize]
  omega

theorem save_of_registered (crc : Bytes → UInt16) (hst : Registered st)
    {svcs : List (Service μ)} (hids : (svcs.map (·.persistId)).Nodup) {m m' : μ}
    {payload : Bytes} (h : Fits st svcs m tag m' payload) :
    ∃ st', save crc false st svcs m tag = some (st', m', .ok ()) ∧ Registered st' ∧
      ∀ m₂, load crc false st' svcs m₂ tag =
        (deliver (collect cfg.blobSize svcs m) m₂).map fun r => (r.1, verdict r.2) := by
  have hvalid := h.valid
  simp only [State.validTag, Bool.and_eq_true, decide_eq_true_eq] at hvalid
  have hblob : (writeBlob crc payload).length ≤ cfg.blobSize := by
    rw [length_writeBlob]
    exact h.size
  obtain ⟨slots, hslots⟩ := ramSave_of_slot _ hvalid.1 h.short hblob h.slot
  have hsave : save crc false st svcs m tag = some ({ st with slots }, m', .ok ()) := by
    unfold save
    simp only [Bool.false_eq_true, if_false, hst.1, not_true_eq_false, h.valid, h.entries,
      if_neg (Nat.not_lt.mpr h.size), callSave, hst.2.1, hslots]
  obtain ⟨-, hpos, hfit, hkept⟩ := save_stores hst.2.1 hsave
  have hmem : ∀ call ∈ collect cfg.blobSize svcs m, call.1 ∈ svcs := fun call hcall =>
    (collect_sublist cfg.blobSize svcs m).subset (List.mem_map_of_mem hcall)
  refine ⟨{ st with slots }, hsave, hst, ?_⟩
  intro m₂
  exact load_of_kept crc hids hmem hpos hfit hkept hst.1 hst.2.2 m₂

end NfcStack.Store

namespace NfcStack.Stack

variable {cfg : Config}

inductive LifeCall
  | storeInit (maxTagLen : UInt8)
  | storeShutdown
  | ramInit
  | stackInit (transport : TransportSetup)
  | stackShutdown
deriving DecidableEq

structure Life (cfg : Config) where
  st : State cfg
  up : Bool

def Life.boot : Life cfg := ⟨.boot, false⟩

/-- A build without the RAM backend has a `nfc_store_ram_init` that refuses, and its
`nfc_stack_init` registers nothing. -/
def lifecycle : Machine (Life cfg) LifeCall Ret where
  step s
    | .storeInit maxTagLen =>
      let r := Store.initWith maxTagLen s.st.store
      some (⟨{ s.st with store := r.1 }, s.up⟩, r.2)
    | .storeShutdown =>
      some (⟨{ s.st with store := Store.shutdown s.st.store }, false⟩, .ok ())
    | .ramInit =>
      if cfg.storeRam then
        let r := Store.ramInit s.st.store
        some (⟨{ s.st with store := r.1 }, r.2 == .ok ()⟩, r.2)
      else some (⟨s.st, false⟩, .error .enotsup)
    | .stackInit transport =>
      (init transport s.st).map fun r =>
        (⟨r.1, if cfg.storeRam then r.2 == .ok () else s.up⟩, r.2)
    | .stackShutdown => some (⟨shutdown s.st, false⟩, .ok ())

/-- A call that registers the RAM backend finds its flag clear, or the callbacks in place. -/
def Registers (s : Life cfg) : LifeCall → Prop
  | .ramInit | .stackInit _ => s.st.store.ramReady = false ∨ Store.Registered s.st.store
  | _ => True

instance instDecidableRegisters (s : Life cfg) : (e : LifeCall) → Decidable (Registers s e)
  | .ramInit | .stackInit _ => inferInstanceAs (Decidable (_ ∨ _))
  | .storeInit _ | .storeShutdown | .stackShutdown => .isTrue trivial

variable {transport : TransportSetup} {ret : Ret}

theorem initTransport_store {st st' : State cfg}
    (h : initTransport transport st = some (st', ret)) :
    st'.phase ≠ .started ∧ (ret = .ok () → st'.store = st.store) := by
  unfold initTransport at h
  split at h
  · cases h
    exact ⟨by simp [unwindStore], by simp⟩
  split at h
  · cases h
  simp only at h
  split at h
  · cases h
    exact ⟨by simp [unwindListeners, unwindStore], by simp⟩
  split at h
  · cases h
    exact ⟨by simp, fun _ => rfl⟩
  · cases h
    exact ⟨by simp [unwindListeners, unwindStore], by simp⟩

theorem init_store {st st' : State cfg}
    (h : init transport st = some (st', ret)) (hphase : st.phase ≠ .started) :
    st'.phase ≠ .started ∧
      (ret = .ok () → cfg.storeRam = true →
        st'.store = (Store.ramInit (Store.init st.store).1).1) := by
  unfold init at h
  split at h
  · cases h
    exact ⟨hphase, by simp⟩
  split at h
  · cases h
    exact ⟨hphase, by simp⟩
  split at h
  · cases h
    exact ⟨hphase, by simp⟩
  obtain ⟨hphase', hstore⟩ := initTransport_store h
  refine ⟨hphase', ?_⟩
  intro hret hram
  rw [hstore hret]
  exact if_pos hram

structure Life.Inv (s : Life cfg) : Prop where
  phase : s.st.phase ≠ .started
  registered : s.up = true → Store.Registered s.st.store
  ramBuild : s.up = true → cfg.storeRam = true

theorem Life.Inv.step {s s' : Life cfg} {e : LifeCall} (h : s.Inv)
    (hreg : Registers s e) (hstep : lifecycle.step s e = some (s', ret)) : s'.Inv := by
  cases e with
  | storeInit maxTagLen =>
    cases hstep
    exact ⟨h.phase, fun hup => (h.registered hup).initWith maxTagLen, h.ramBuild⟩
  | storeShutdown =>
    cases hstep
    exact ⟨h.phase, by simp, by simp⟩
  | ramInit =>
    simp only [lifecycle] at hstep
    split at hstep
    · next hram =>
      cases hstep
      exact ⟨h.phase, fun _ => (Store.registered_ramInit_iff _).mpr hreg, fun _ => hram⟩
    · cases hstep
      exact ⟨h.phase, by simp, by simp⟩
  | stackInit transport =>
    simp only [lifecycle, Option.map_eq_some_iff] at hstep
    obtain ⟨⟨st', ret'⟩, hinit, heq⟩ := hstep
    cases heq
    obtain ⟨hphase, hstore⟩ := init_store hinit h.phase
    by_cases hram : cfg.storeRam = true
    · refine ⟨hphase, ?_, fun _ => hram⟩
      -- the store is initialised first, which keeps what `Registers` says of the flag
      intro hup
      simp only [hram, if_true, beq_iff_eq] at hup
      rw [hstore hup hram, Store.registered_ramInit_iff]
      exact Store.registered_init hreg
    · -- without the backend nothing has ever counted as its registration
      have hdown : s.up = false := by
        by_contra hup
        exact hram (h.ramBuild (by simpa using hup))
      exact ⟨hphase, by simp [hram, hdown], by simp [hram, hdown]⟩
  | stackShutdown =>
    cases hstep
    refine ⟨?_, by simp, by simp⟩
    unfold shutdown
    split
    · exact h.phase
    · simp [unwindListeners, unwindStore]

/-- After a run whose registering calls all find the flag of the RAM backend clear or its callbacks
in place, a last such call that returned 0 has left the callbacks in place, and what fits is saved
and loaded back. -/
theorem registered_of_run (crc : Bytes → UInt16) {calls : List LifeCall} {s : Life cfg}
    {rets : List Ret}
    (hreg : lifecycle.Always (fun (s : Life cfg) e _ => Registers s e) .boot calls)
    (hrun : lifecycle.run .boot calls = some (s, rets)) (hup : s.up = true) :
    Store.Registered s.st.store ∧
      ∀ (μ : Type) (svcs : List (Service μ)) (m m' : μ) (tag : Store.TagName) (payload : Bytes),
        (svcs.map (·.persistId)).Nodup → Store.Fits s.st.store svcs m tag m' payload →
        ∃ store, Store.save crc (s.st.phase == .started) s.st.store svcs m tag =
            some (store, m', .ok ()) ∧
          ∀ m₂, Store.load crc (s.st.phase == .started) store svcs m₂ tag =
            (Store.deliver (Store.collect cfg.store.blobSize svcs m) m₂).map
              fun r => (r.1, Store.verdict r.2) := by
  have hboot : (Life.boot : Life cfg).Inv := ⟨by simp [Life.boot, State.boot], by simp [Life.boot],
    by simp [Life.boot]⟩
  have hinv : s.Inv := Machine.Always.inv_of_run lifecycle
    (fun _ _ _ _ h hr hstep => h.step hr hstep) hboot hreg hrun
  have hst := hinv.registered hup
  have hquiet : (s.st.phase == .started) = false := by
    simpa using hinv.phase
  refine ⟨hst, ?_⟩
  intro μ svcs m m' tag payload hids hfits
  obtain ⟨store, hsave, -, hload⟩ := Store.save_of_registered crc hst hids hfits
  rw [hquiet]
  exact ⟨store, hsave, hload⟩

def TransportSetup.accepts : TransportSetup := ⟨.ok (), .ok ()⟩

def lifeAfter (calls : List LifeCall) : Life Config.default :=
  (lifecycle.run .boot calls).elim .boot Prod.fst

def lifeUp : Life Config.default := lifeAfter [.ramInit, .stackInit .accepts, .ramInit]

theorem registered_of_run_stackInit : lifeUp.up = true ∧ Store.Registered lifeUp.st.store ∧
    ∃ store, Store.save Store.crc16Ccitt (lifeUp.st.phase == .started) lifeUp.st.store
        Store.loggingServices [] [0x61] = some (store, [], .ok ()) := by
  have hrun : lifecycle.run (.boot : Life Config.default)
      [.ramInit, .stackInit .accepts, .ramInit] = some (lifeUp, [.ok (), .ok (), .ok ()]) := rfl
  have hup : lifeUp.up = true := by decide +kernel
  have hfits : Store.Fits lifeUp.st.store Store.loggingServices [] [0x61] []
      (Store.writeEntry 7 [7, 7] ++ Store.writeEntry 1 [1, 1]) :=
    ⟨by decide +kernel, by decide, by decide +kernel, by decide, by decide +kernel⟩
  obtain ⟨hst, hsave⟩ := registered_of_run Store.crc16Ccitt (by decide +kernel) hrun hup
  obtain ⟨store, hstore, -⟩ := hsave _ _ _ _ _ _ (by decide) hfits
  exact ⟨hup, hst, store, hstore⟩

/-- After a shutdown the RAM backend is not registered again: `nfc_store_ram_init` returns 0 on a
store that is not initialised, and `nfc_stack_init` returns 0 on one that saves nothing. -/
theorem ramInit_after_shutdown :
    (lifecycle.run (.boot : Life Config.default) [.ramInit, .storeShutdown, .ramInit]).map
        (fun r => (r.2, r.1.up, r.1.st.store.initialized)) =
      some ([.ok (), .ok (), .ok ()], true, false) ∧
    (lifecycle.run (.boot : Life Config.default)
        [.stackInit .accepts, .stackShutdown, .stackInit .accepts]).map
        (fun r => (r.2, r.1.up, r.1.st.store.saveCb, r.1.st.store.loadCb)) =
      some ([.ok (), .ok (), .ok ()], true, .inert, .inert) ∧
    (Store.save Store.crc16Ccitt false
        (lifeAfter [.stackInit .accepts, .stackShutdown, .stackInit .accepts]).st.store
        Store.loggingServices [] [0x61]).map (·.2.2) = some (.error .eio) := by
  refine ⟨?_, ?_, ?_⟩ <;> decide +kernel

end NfcStack.Stack
