import NfcStack.Reader.PollSession
import NfcStack.Stack.Lifecycle

/-!
# A failed initialisation of the stack

`nfc_stack_init` passes over a store and a transport that are there already, and takes them down with
the others if a later step fails. The RAM backend keeps its flag.
-/

namespace NfcStack.Stack

variable {cfg : Config}

theorem initListeners_isSome (l : Listeners cfg) : (initListeners l).isSome = true := by
  rw [initListeners, Option.isSome_map]
  split
  · have hlen : (Emv.loadDefault : Emv.Image cfg.emv).appAidLen = 7 := by
      simp only [Emv.loadDefault, Emv.buildRecord0]
      split <;> rfl
    simp only [Emv.listenerInit, Emv.rebuildWire, Option.isSome_map, Option.getD_none, hlen]
    rw [CArray.read?_of_le _ (by decide), Option.isSome_some]
  · rfl

def profilesFit (cfg : Config) : Prop :=
  (registerProfiles cfg.routerMaxAids (listenProfiles cfg) ⟨true, [], none⟩).2 = .ok ()

def TransportSetup.Fails (transport : TransportSetup) : Prop :=
  transport.init ≠ .ok () ∧ transport.init ≠ .error .ealready

def TransportSetup.Passes (cfg : Config) (transport : TransportSetup) : Prop :=
  ¬transport.Fails ∧ transport.registerCallbacks = .ok () ∧ profilesFit cfg

theorem init_of_callsTransport {st : State cfg} (hcalls : st.callsTransport = true)
    (transport : TransportSetup) :
    (transport.Passes cfg → ∃ st', init transport st = some (st', .ok ()) ∧
        st'.store = storeUp st.store) ∧
      (¬transport.Passes cfg → ∃ st', init transport st = some (st', .error .eio) ∧
        st'.callsTransport = true ∧ st'.store = Store.shutdown (storeUp st.store)) := by
  simp only [State.callsTransport, Bool.and_eq_true, beq_iff_eq, Bool.not_eq_true'] at hcalls
  obtain ⟨⟨hphase, hassembler⟩, hrouter⟩ := hcalls
  obtain ⟨l, hl⟩ := Option.isSome_iff_exists.mp (initListeners_isSome st.listeners)
  rw [init_eq_initTransport hphase hassembler hrouter, initTransport]
  by_cases hfails : transport.init ≠ .ok () ∧ transport.init ≠ .error .ealready
  · rw [if_pos hfails]
    exact ⟨fun h => absurd hfails h.1, fun _ => ⟨_, rfl, rfl, rfl⟩⟩
  rw [if_neg hfails]
  simp only [hl]
  by_cases hregister : transport.registerCallbacks = .ok ()
  · rw [if_neg (not_not.mpr hregister)]
    cases hprofiles : registerProfiles cfg.routerMaxAids (listenProfiles cfg) ⟨true, [], none⟩ with
    | mk router ret =>
      cases ret with
      | ok _ => exact ⟨fun _ => ⟨_, rfl, rfl⟩,
          fun h => absurd ⟨hfails, hregister, congrArg Prod.snd hprofiles⟩ h⟩
      | error e =>
        refine ⟨fun h => ?_, fun _ => ⟨_, rfl, rfl, rfl⟩⟩
        cases (congrArg Prod.snd hprofiles).symm.trans h.2.2
  · rw [if_pos hregister]
    exact ⟨fun h => absurd h.2.1 hregister, fun _ => ⟨_, rfl, rfl, rfl⟩⟩

theorem init_of_not_callsTransport {st : State cfg} (hphase : st.phase = .uninitialized)
    (hcalls : st.callsTransport = false) (transport : TransportSetup) :
    ∃ st', init transport st = some (st', .error .eio) ∧ st'.callsTransport = false ∧
      st'.assembler = st.assembler ∧ st'.router = st.router ∧ st'.store = st.store := by
  simp only [State.callsTransport, hphase, beq_self_eq_true, Bool.true_and] at hcalls
  by_cases hassembler : st.assembler = true
  · exact ⟨{ st with activeTag := [] }, by rw [init, if_neg (not_not.mpr hphase), if_pos hassembler],
      by simp [State.callsTransport, hassembler], rfl, rfl, rfl⟩
  · have hrouter : st.router.initialized = true := by simpa [hassembler] using hcalls
    refine ⟨{ st with activeTag := [], assembler := false }, ?_,
      by simp [State.callsTransport, hrouter], by simpa using hassembler, rfl, rfl⟩
    rw [init, if_neg (not_not.mpr hphase), if_neg hassembler, Router.init, if_pos hrouter]

theorem not_registered_again (store : Store.State cfg.store) :
    ¬Store.Registered (storeUp (Store.shutdown (storeUp store))) := by
  unfold storeUp
  split
  · have hready : (Store.ramInit (Store.init store).1).1.ramReady = true := by
      unfold Store.ramInit
      split
      · assumption
      · rfl
    generalize (Store.ramInit (Store.init store).1).1 = up at hready ⊢
    rw [Store.registered_ramInit_iff]
    simp [Store.Registered, Store.init, Store.shutdown, hready]
  · simp [Store.Registered, Store.init, Store.shutdown]

end NfcStack.Stack

namespace NfcStack.Reader

open Hal.Pn7160 (Driver Transport)

variable {cfg : Config}

/-- The submodules are as before: those that were up with their callbacks, the others down. -/
structure Device.Restored (d d' : Device cfg) : Prop where
  assembler : d'.stack.assembler = d.stack.assembler
  router : d'.stack.router.initialized = d.stack.router.initialized ∧
    (d.stack.router.initialized = true → d'.stack.router = d.stack.router)
  store : d'.stack.store.initialized = d.stack.store.initialized ∧
    (d.stack.store.initialized = true →
      d'.stack.store.saveCb = d.stack.store.saveCb ∧ d'.stack.store.loadCb = d.stack.store.loadCb)
  transport : (d'.transport.state = .uninitialized ↔ d.transport.state = .uninitialized) ∧
    (d.transport.state ≠ .uninitialized → d'.transport.registered = d.transport.registered)

variable (drv : Driver) (d : Device cfg)

def Device.Initializes : Prop :=
  d.stack.callsTransport = true ∧ (d.transportSetup drv).Passes cfg

/-- A failed call leaves the submodules as they were, and a later one without a failure brings up a
stack whose store has its backend. -/
def Device.RollsBack : Prop :=
  ∀ d' e, d.stackInit drv = some (d', .error e) → d.Restored d' ∧
    ∀ drv', d'.Initializes drv' →
      ∃ d₂, d'.stackInit drv' = some (d₂, .ok ()) ∧ Store.Registered d₂.stack.store

theorem passes_works {t : Transport} (h : t.state ≠ .started) :
    ((t.init .works).2 = .ok () ∨ (t.init .works).2 = .error .ealready) ∧
      ((t.init .works).1.registerCallbacks true).2 = .ok () := by
  unfold Transport.init
  split
  · next hstate => exact ⟨.inr rfl, by rw [Transport.registerCallbacks, if_neg hstate.1, if_neg h]⟩
  · exact ⟨.inl rfl, rfl⟩

theorem init_failed {drv : Driver} {t : Transport}
    (h : (t.init drv).2 ≠ .ok () ∧ (t.init drv).2 ≠ .error .ealready) :
    t.state ≠ .started ∧ (t.init drv).1.state = t.state ∧
      (t.init drv).1.registered = t.registered := by
  unfold Transport.init at h ⊢
  split at h
  · exact absurd rfl h.2
  · next hstate =>
    refine ⟨by rintro hs; simp [hs] at hstate, ?_⟩
    rw [if_neg hstate]
    split at h
    · next hready => simp [hready]
    next hready =>
    rw [if_neg hready]
    split at h
    · simp
    split at h
    · simp
    · exact absurd rfl h.1

theorem transportAfterInit_failed (drv : Driver) {d : Device cfg}
    (hcalls : d.stack.callsTransport = true) (e : Errno) :
    (d.transportAfterInit drv (.error e)).state ≠ .started ∧
      ((d.transportSetup drv).Fails ∧
          (d.transportAfterInit drv (.error e)).state = d.transport.state ∧
          (d.transportAfterInit drv (.error e)).registered = d.transport.registered ∨
        ¬(d.transportSetup drv).Fails ∧
          (d.transportAfterInit drv (.error e)).state = .uninitialized) := by
  simp only [Device.transportAfterInit, hcalls, Bool.not_true, Bool.false_eq_true, if_false]
  by_cases hfails : (d.transport.init drv).2 ≠ .ok () ∧ (d.transport.init drv).2 ≠ .error .ealready
  · obtain ⟨hstate, hkept, hregistered⟩ := init_failed hfails
    rw [if_pos hfails]
    exact ⟨hkept ▸ hstate, .inl ⟨hfails, hkept, hregistered⟩⟩
  · rw [if_neg hfails, if_neg (by simp)]
    exact ⟨Hal.TransportState.noConfusion, .inr ⟨hfails, rfl⟩⟩

/-- The rollback is complete exactly if the call fails at the assembler or the router or not at all.
Behind them a store that was there is gone, and the flag of the RAM backend stays set. Only if the
router has too little room is there no later call without a failure. -/
theorem rollsBack_iff (drv : Driver) {d : Device cfg} (hphase : d.stack.phase = .uninitialized) :
    d.RollsBack drv ↔ d.stack.callsTransport = false ∨ (d.transportSetup drv).Passes cfg ∨
      ¬Stack.profilesFit cfg ∧ d.stack.store.initialized = false ∧
        ((d.transportSetup drv).Fails ∨ d.transport.state = .uninitialized) := by
  cases hcalls : d.stack.callsTransport with
  | false =>
    obtain ⟨st', hinit, hcalls', hassembler, hrouter, hstore⟩ :=
      Stack.init_of_not_callsTransport hphase hcalls (d.transportSetup drv)
    refine ⟨fun _ => .inl rfl, fun _ d' e h => ?_⟩
    rw [Device.stackInit, hinit] at h
    cases h
    refine ⟨⟨hassembler, by simp [hrouter], by simp [hstore], ?_⟩, fun drv' h => ?_⟩
    · simp [Device.transportAfterInit, hcalls]
    · cases hcalls'.symm.trans h.1
  | true =>
    obtain ⟨hpass, hfail⟩ := Stack.init_of_callsTransport hcalls (d.transportSetup drv)
    by_cases hpasses : (d.transportSetup drv).Passes cfg
    · obtain ⟨st', hinit, -⟩ := hpass hpasses
      refine ⟨fun _ => .inr (.inl hpasses), fun _ d' e h => ?_⟩
      rw [Device.stackInit, hinit] at h
      cases h
    obtain ⟨st', hinit, hcalls', hstore⟩ := hfail hpasses
    have hdown : st'.store.initialized = false := by
      rw [hstore]
      rfl
    have hd : d.stackInit drv = some ({ d with
        stack := st', transport := d.transportAfterInit drv (.error .eio) }, .error .eio) := by
      rw [Device.stackInit, hinit, Option.map_some]
    obtain ⟨hstate, htransport⟩ := transportAfterInit_failed drv hcalls .eio
    constructor
    · intro h
      obtain ⟨hkept, hlater⟩ := h _ _ hd
      refine .inr (.inr ⟨fun hfit => ?_, hkept.store.1.symm.trans hdown, ?_⟩)
      · -- a driver that works makes the later call pass, on a store that stays without its callbacks
        obtain ⟨hworks, hregister⟩ := passes_works hstate
        have hpasses' : Stack.TransportSetup.Passes cfg ⟨_, _⟩ :=
          ⟨fun hf => hworks.elim hf.1 hf.2, hregister, hfit⟩
        obtain ⟨d₂, hd₂, hreg⟩ := hlater .works ⟨hcalls', hpasses'⟩
        obtain ⟨st₂, hinit₂, hstore₂⟩ := (Stack.init_of_callsTransport hcalls' _).1 hpasses'
        obtain ⟨_, hinit', heq⟩ := Option.map_eq_some_iff.mp hd₂
        cases hinit₂.symm.trans hinit'
        cases heq
        rw [hstore₂, hstore] at hreg
        exact Stack.not_registered_again _ hreg
      · exact htransport.imp (·.1) fun h => hkept.transport.1.mp h.2
    · rintro (h | h | ⟨hfit, hstore₀, ht⟩)
      · cases h
      · exact absurd h hpasses
      intro d' e h
      cases hd.symm.trans h
      simp only [Stack.State.callsTransport, Bool.and_eq_true, Bool.not_eq_true'] at hcalls hcalls'
      refine ⟨⟨hcalls'.1.2.trans hcalls.1.2.symm, ?_, ?_, ?_⟩, fun _ h => absurd h.2.2.2 hfit⟩
      · simp [hcalls.2, hcalls'.2]
      · simp [hdown, hstore₀]
      · rcases htransport with ⟨-, hkept, hregistered⟩ | ⟨hok, hgone⟩
        · exact ⟨by rw [hkept], fun _ => hregistered⟩
        · have ht₀ := ht.resolve_left hok
          exact ⟨iff_of_true hgone ht₀, fun h => absurd ht₀ h⟩

def routerReady : Device .default :=
  { (.boot : Device .default) with
    stack := { (.boot : Stack.State .default) with
      router := ⟨true, [], none⟩
      store := (Store.ramInit .boot).1 } }

theorem rollsBack_routerReady :
    (routerReady.stackInit .works).map (·.2) = some (.error .eio) ∧ routerReady.RollsBack .works :=
  ⟨rfl, (rollsBack_iff .works rfl).mpr (.inl rfl)⟩

def storeReady : Device .default :=
  { (.boot : Device .default) with
    stack := { (.boot : Stack.State .default) with store := (Store.ramInit .boot).1 } }

def notReady : Driver := { Driver.works with ready := false }

theorem store_taken_down : storeReady.stack.store.initialized = true ∧
    (storeReady.stackInit notReady).map (fun r => (r.2, r.1.stack.store.initialized)) =
      some (.error .eio, false) ∧ ¬storeReady.RollsBack notReady := by
  have hrun : (storeReady.stackInit notReady).map (fun r => (r.2, r.1.stack.store.initialized)) =
      some (.error .eio, false) := by
    decide +kernel
  refine ⟨rfl, hrun, fun h => ?_⟩
  obtain ⟨⟨d', ret⟩, hd, heq⟩ := Option.map_eq_some_iff.mp hrun
  obtain ⟨rfl, hdown⟩ := Prod.mk.inj heq
  cases hdown.symm.trans (h d' .eio hd).1.store.1

end NfcStack.Reader
