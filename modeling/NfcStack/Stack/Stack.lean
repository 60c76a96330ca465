import NfcStack.Framing.Assembler
import NfcStack.Router.AidRouter
import NfcStack.Stack.Listeners

/-!
# The stack

`nfc_stack/nfc_stack.c`: the life cycle of the listen stack, loading and saving cards,
and the way of a command from the transport through the router to a service. What the
transport answers to the stack is an input of each operation.
-/

namespace NfcStack.Stack

inductive Phase
  | uninitialized | initialized | started | stopped | error
deriving DecidableEq, Repr

structure State (cfg : Config) where
  phase : Phase
  activeTag : Store.TagName
  /-- `APDU_ASSEMBLER_STATE_INITIALIZED`. -/
  assembler : Bool
  router : Router.State Listen
  store : Store.State cfg.store
  listeners : Listeners cfg
  /-- `s_store_ready` of the reader engine. -/
  readerStoreReady : Bool

variable {cfg : Config}

def State.boot : State cfg :=
  ⟨.uninitialized, [], false, .down, .boot, .boot, false⟩

def ndefAid : Bytes := [0xD2, 0x76, 0x00, 0x00, 0x85, 0x01, 0x01]

def listens (cfg : Config) (p : Listen) : Bool := cfg.enabled p.protocol

def listenProfiles (cfg : Config) : List (Router.Entry Listen) :=
  [⟨ndefAid, .ndef⟩, ⟨Emv.ppseAid, .emv⟩, ⟨Emv.serviceAppAid, .emv⟩, ⟨Desfire.aid, .desfire⟩,
    ⟨Aliro.expeditedAid, .aliro⟩, ⟨Aliro.stepupAid, .aliro⟩].filter fun e => listens cfg e.svc

def registerProfiles (maxAids : ℕ) : List (Router.Entry Listen) → Router.State Listen →
    Router.State Listen × Ret
  | [], router => (router, .ok ())
  | entry :: es, router =>
    match Router.register maxAids router entry with
    | (router, .ok ()) => registerProfiles maxAids es router
    | (router, .error e) => (router, .error e)

/-- `stack_init_protocol_listeners`. An NDEF listener that is already there stays as it is. -/
def initListeners (l : Listeners cfg) : Option (Listeners cfg) :=
  (if listens cfg .emv then Emv.listenerInit l.emv none else some l.emv).map fun emv =>
    { l with
      ndef := if listens cfg .ndef then (Ndef.listenerInit l.ndef none true).1 else l.ndef
      desfire := if listens cfg .desfire then Desfire.listenerInit l.desfire none else l.desfire
      emv
      aliro := if listens cfg .aliro then Aliro.listenerInit none else l.aliro }

def shutdownListeners (l : Listeners cfg) : Listeners cfg :=
  { l with
    ndef := if listens cfg .ndef then Ndef.listenerShutdown l.ndef else l.ndef
    desfire := if listens cfg .desfire then Desfire.listenerShutdown l.desfire else l.desfire
    emv := if listens cfg .emv then Emv.listenerShutdown l.emv else l.emv
    aliro := if listens cfg .aliro then Aliro.listenerShutdown l.aliro else l.aliro }

structure TransportSetup where
  init : Ret
  registerCallbacks : Ret
deriving DecidableEq

variable (st : State cfg)

def unwindStore : State cfg :=
  { st with
    phase := .uninitialized
    store := Store.shutdown st.store
    router := .down
    assembler := false }

def unwindListeners : State cfg :=
  unwindStore { st with listeners := shutdownListeners st.listeners }

def initTransport (transport : TransportSetup) (st : State cfg) : Option (State cfg × Ret) :=
  if transport.init ≠ .ok () ∧ transport.init ≠ .error .ealready then
    some (unwindStore st, .error .eio)
  else
    match initListeners st.listeners with
    | none => none
    | some listeners =>
      let st := { st with listeners }
      if transport.registerCallbacks ≠ .ok () then some (unwindListeners st, .error .eio)
      else
        match registerProfiles cfg.routerMaxAids (listenProfiles cfg) st.router with
        | (router, .ok ()) => some ({ st with phase := .initialized, router }, .ok ())
        | (router, .error _) => some (unwindListeners { st with router }, .error .eio)

def init (transport : TransportSetup) (st : State cfg) : Option (State cfg × Ret) :=
  if st.phase ≠ .uninitialized then some (st, .error .ealready)
  else if st.assembler then some ({ st with activeTag := [] }, .error .eio)
  else
    match Router.init st.router with
    | (_, .error _) => some ({ st with activeTag := [], assembler := false }, .error .eio)
    | (router, .ok ()) =>
      let store := (Store.init st.store).1
      initTransport transport
        { st with
          activeTag := []
          assembler := true
          router
          store := if cfg.storeRam then (Store.ramInit store).1 else store }

def start (uidValid : Bool) (transport : Ret) (st : State cfg) : State cfg × Ret :=
  if st.phase = .started then (st, .ok ())
  else if st.phase ≠ .initialized ∧ st.phase ≠ .stopped then (st, .error .enodev)
  else if ¬ uidValid then (st, .error .einval)
  else
    match transport with
    | .ok () => ({ st with phase := .started }, .ok ())
    | .error _ => ({ st with phase := .error }, .error .eio)

def stop (transport : Ret) (st : State cfg) : State cfg × Ret :=
  if st.phase = .uninitialized then (st, .error .enodev)
  else if st.phase = .initialized ∨ st.phase = .stopped then (st, .ok ())
  else
    match transport with
    | .ok () => ({ st with phase := .stopped }, .ok ())
    | .error _ => ({ st with phase := .error }, .error .eio)

def shutdown : State cfg :=
  if st.phase = .uninitialized then st else unwindListeners st

def listenServices (cfg : Config) : List (Service (Listeners cfg)) :=
  ([.ndef, .desfire, .emv, .aliro].filter (listens cfg)).map listenService

def truncateTag (cfg : Config) (tag : Store.TagName) : Store.TagName :=
  tag.take (cfg.store.maxTagLen - 1)

def load (crc : Bytes → UInt16) (st : State cfg) (tag : Store.TagName) : Option (State cfg × Ret) :=
  if st.phase = .started then some (st, .error .ebusy)
  else if st.phase ≠ .initialized ∧ st.phase ≠ .stopped then some (st, .error .enodev)
  else if listenServices cfg = [] then some (st, .error .enodev)
  else
    match Store.load crc (st.phase == .started) st.store (listenServices cfg) st.listeners tag with
    | none => none
    | some (listeners, .error e) => some ({ st with listeners }, .error e)
    | some (listeners, .ok ()) =>
      some ({ st with listeners, activeTag := truncateTag cfg tag }, .ok ())

def save (crc : Bytes → UInt16) (st : State cfg) (tag : Store.TagName) : Option (State cfg × Ret) :=
  if st.phase = .started then some (st, .error .ebusy)
  else if st.phase ≠ .initialized ∧ st.phase ≠ .stopped then some (st, .error .enodev)
  else if listenServices cfg = [] then some (st, .error .enodev)
  else
    match Store.save crc (st.phase == .started) st.store (listenServices cfg) st.listeners tag with
    | none => none
    | some (store, listeners, .error e) => some ({ st with store, listeners }, .error e)
    | some (store, listeners, .ok ()) =>
      some ({ st with store, listeners, activeTag := truncateTag cfg tag }, .ok ())

def importBlob (crc : Bytes → UInt16) (st : State cfg) (tag : Store.TagName) (blob : Bytes) :
    State cfg × Ret :=
  let r := Store.ramImport crc st.store tag blob
  ({ st with store := r.1 }, r.2)

/-- `nfc_stack_on_service_dirty`, with the result of `nfc_store_on_dirty`, which the source drops. -/
def onServiceDirty (svc : Listen) : Option (State cfg × Option Ret) :=
  if st.activeTag = [] then some (st, none)
  else
    (Store.onDirty st.store (listenService svc) st.listeners).map fun r =>
      ({ st with listeners := r.1 }, some r.2)

/-- A command, with the service that reports a change in it and what came of its commit. -/
def onApduCommit (bytes : Bytes) : Option (State cfg × Option Bytes × Option (Listen × Ret)) :=
  if ¬ st.assembler then some (st, none, none)
  else
    match Framing.apduParse cfg.extendedApdu bytes with
    | none => some (st, some StatusWord.wrongLength.bytes, none)
    | some apdu =>
      match Router.dispatch listenService st.router st.listeners apdu with
      | none => none
      | some (router, listeners, rsp, dirty) =>
        let st := { st with router, listeners }
        match dirty with
        | none => some (st, rsp, none)
        | some svc => (onServiceDirty st svc).map fun r => (r.1, rsp, r.2.map (svc, ·))

def onApdu (bytes : Bytes) : Option (State cfg × Option Bytes) :=
  (onApduCommit st bytes).map fun r => (r.1, r.2.1)

def onFieldOff : State cfg :=
  let r := Router.fieldOff listenService st.router st.listeners
  { st with router := r.1, listeners := r.2 }

def onWork : State cfg × Option Bytes :=
  let r := Aliro.runWork st.listeners.aliro
  ({ st with listeners := { st.listeners with aliro := r.1 } }, r.2)

inductive ReaderEvent
  | fieldOn
  | fieldOff
  | apdu (bytes : Bytes)
  | work
deriving DecidableEq, Repr

def reader : Machine (State cfg) ReaderEvent (Option Bytes) where
  step st
    | .fieldOn => some (st, none)
    | .fieldOff => some (onFieldOff st, none)
    | .apdu bytes => onApdu st bytes
    | .work => some (onWork st)

theorem onApdu_select {st : State cfg} (hasm : st.assembler = true)
    (hrouter : st.router.initialized = true) (p2 : UInt8) {aid : Bytes} (le : Option UInt8)
    (hpos : 0 < aid.length) (hlen : aid.length < 256) :
    onApdu st (Framing.selectCommand p2 aid le) =
      match st.router.findAid aid with
      | none => some (st, some StatusWord.fileNotFound.bytes)
      | some entry =>
        ((listenService entry.svc).callSelect
          (Router.leave listenService st.router st.listeners entry.svc) aid).map fun r =>
            ({ st with
              router := { st.router with active := some entry.svc }
              listeners := r.1 }, r.2) := by
  unfold onApdu onApduCommit
  rw [if_neg (by simp [hasm]), Framing.apduParse_selectCommand _ _ _ hpos hlen]
  have hsel : Router.isSelectByAid
      ⟨0x00, 0xA4, 0x04, p2, aid, (le.getD 0).toUInt16, le.isSome, false⟩ = true := by
    simp [Router.isSelectByAid, Apdu.lc, hpos]
  have haid : Router.selectedAid
      ⟨0x00, 0xA4, 0x04, p2, aid, (le.getD 0).toUInt16, le.isSome, false⟩ = aid :=
    Router.selectedAid_of_lt hlen
  simp only [Router.dispatch, haid]
  rw [if_neg (by simp [hrouter]), if_pos hsel]
  cases st.router.findAid aid with
  | none => rfl
  | some entry =>
    simp only [Router.select]
    cases (listenService entry.svc).callSelect
        (Router.leave listenService st.router st.listeners entry.svc) aid with
    | none => rfl
    | some r => rfl

theorem get_leave (p : Listen) (router : Router.State Listen) (l : Listeners cfg) :
    p.region.get (Router.leave listenService router l p) = p.region.get l := by
  refine Router.leave_induction (J := fun l' => p.region.get l' = p.region.get l) router rfl ?_
  intro old hne
  rw [listenService, Service.callDeselect_within]
  exact Listen.get_set_of_ne (Ne.symm hne) _ _

def after (x : Option (State Config.default × Ret)) : State Config.default := x.elim .boot Prod.fst

theorem eq_after {x : Option (State Config.default × Ret)} {ret : Ret}
    (h : x.map Prod.snd = some ret) : x = some (after x, ret) := by
  obtain ⟨⟨st, _⟩, rfl, rfl⟩ := Option.map_eq_some_iff.mp h
  rfl

def stackUp : State Config.default := after (init ⟨.ok (), .ok ()⟩ .boot)

def cardTag : Store.TagName := [0x63, 0x61, 0x72, 0x64]

def cardStored (pid : PersistId) (body : Bytes) : State Config.default :=
  (importBlob Store.crc16Ccitt stackUp cardTag
    (Store.writeBlob Store.crc16Ccitt (Store.writeEntry pid.code body))).1

end NfcStack.Stack
