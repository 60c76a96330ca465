import NfcStack.Protocols.Ndef.Poller
import NfcStack.Stack.Stack

/-!
# The poller registry

`reader/nfc_reader_poller_registry.c`: the first poller that detects the tag reads it
and saves the card.
-/

namespace NfcStack.Reader

variable {cfg : Config}

def storeEnsure (st : Stack.State cfg) : Stack.State cfg :=
  if st.readerStoreReady then st
  else
    let store := (Store.init st.store).1
    { st with
      store := if cfg.storeRam then (Store.ramInit store).1 else store
      readerStoreReady := true }

/-- The model that a poller has read. The cards of the last four protocols are read into a local
variable that nothing uses. -/
inductive CardModel (cfg : Config)
  | ndef (data : Ndef.Data cfg.ndef)
  | ultralight (data : Ultralight.Data cfg.ultralight)
  | desfire (data : Desfire.Data cfg.desfire)
  | emv (image : Emv.Image cfg.emv)
  | aliro (data : Aliro.Data cfg.aliro)
  | classic
  | felica
  | slix
  | iso15693

def CardModel.protocol : CardModel cfg → Protocol
  | .ndef _ => .ndef
  | .ultralight _ => .ultralight
  | .desfire _ => .desfire
  | .emv _ => .emv
  | .aliro _ => .aliro
  | .classic => .classic
  | .felica => .felica
  | .slix => .slix
  | .iso15693 => .iso15693

def saveService (crc : Bytes → UInt16) (st : Stack.State cfg) (svc : Service (Listeners cfg))
    (tag : Store.TagName) : Option (Stack.State cfg × Ret) :=
  (Store.save crc (st.phase == .started) st.store [svc] st.listeners tag).map fun r =>
    ({ st with store := r.1, listeners := r.2.1 }, r.2.2)

variable (crc : Bytes → UInt16) (residue : ℕ → UInt8) (st : Stack.State cfg)

/-- The end of `ultralight_poller_clone`. The adapter is given the card only if it can bind its
message. -/
def cloneUltralight (data : Ultralight.Data cfg.ultralight) (tag : Store.TagName) :
    Option (Stack.State cfg × Ret) :=
  let l := st.listeners
  match Ultralight.listenerLoad residue (Ultralight.listenerInit l.ultralight).1 l.ndef data with
  | none => none
  | some (ultralight, ndef, ret) =>
    let st := { st with listeners := { l with ultralight, ndef } }
    match ret with
    | .error e => some (st, .error e)
    | .ok () => saveService crc st (ultralightService residue) tag

/-- The clone hooks after the poller has read the card: the listener is given the model, unless it
is an NDEF listener that is already there, and the service of the protocol is saved. -/
def cloneModel (model : CardModel cfg) (tag : Store.TagName) : Option (Stack.State cfg × Ret) :=
  let l := st.listeners
  match model with
  | .ndef data =>
    let ndef := (Ndef.listenerInit l.ndef (some data) true).1
    saveService crc { st with listeners := { l with ndef } } (listenService .ndef) tag
  | .ultralight data => cloneUltralight crc residue st data tag
  | .desfire data =>
    let desfire := Desfire.listenerInit l.desfire (some data)
    saveService crc { st with listeners := { l with desfire } } (listenService .desfire) tag
  | .emv image =>
    match Emv.listenerInit l.emv (some image) with
    | none => none
    | some emv => saveService crc { st with listeners := { l with emv } } (listenService .emv) tag
  | .aliro data =>
    let aliro := Aliro.listenerInit (some data)
    saveService crc { st with listeners := { l with aliro } } (listenService .aliro) tag
  | .classic => saveService crc st (unboundService .classic) tag
  | .felica => saveService crc st (unboundService .felica) tag
  | .slix => saveService crc st (unboundService .slix) tag
  | .iso15693 => saveService crc st (unboundService .iso15693) tag

/-- The pollers of the table other than NDEF. What is shown of the registry holds for any; those of the
source are `cardPollers`. -/
structure OtherPollers (cfg : Config) (τ : Type) where
  detect : Protocol → Poll τ Ret
  ultralight : Poll τ (Except Errno (Ultralight.Data cfg.ultralight))
  desfire : Poll τ (Except Errno (Desfire.Data cfg.desfire))
  emv : Poll τ (Except Errno (Emv.Image cfg.emv))
  aliro : Poll τ (Except Errno (Aliro.Data cfg.aliro))
  classic : Poll τ Ret
  felica : Poll τ Ret
  slix : Poll τ Ret
  iso15693 : Poll τ Ret

variable {τ : Type} (s : Session τ) (pollers : OtherPollers cfg τ)

def pollerDetect : Protocol → Poll τ Ret
  | .ndef => Ndef.pollerDetect s
  | p => pollers.detect p

def pollerRead : Protocol → Poll τ (Except Errno (CardModel cfg))
  | .ndef => do
    let r ← Ndef.pollerRead s .reset
    return r.2.map fun _ => .ndef r.1
  | .ultralight => return (← pollers.ultralight).map .ultralight
  | .desfire => return (← pollers.desfire).map .desfire
  | .emv => return (← pollers.emv).map .emv
  | .aliro => return (← pollers.aliro).map .aliro
  | .classic => return (← pollers.classic).map fun _ => .classic
  | .felica => return (← pollers.felica).map fun _ => .felica
  | .slix => return (← pollers.slix).map fun _ => .slix
  | .iso15693 => return (← pollers.iso15693).map fun _ => .iso15693

def registry (cfg : Config) : List Protocol :=
  [.ndef, .ultralight, .classic, .felica, .slix, .iso15693, .desfire, .emv, .aliro].filter
    cfg.enabled

def firstMatch : List Protocol → Poll τ (Option Protocol)
  | [] => return none
  | p :: ps => do
    match ← pollerDetect s pollers p with
    | .ok () => return some p
    | .error _ => firstMatch ps

def pollersRead : Poll τ (Except Errno (CardModel cfg)) := do
  if s.active = false then return .error .enodev
  match ← firstMatch s pollers (registry cfg) with
  | none => return .error .enotsup
  | some p => pollerRead s pollers p

/-- `nfc_reader_pollers_run`. -/
def pollersRun (crc : Bytes → UInt16) (residue : ℕ → UInt8) (st : Stack.State cfg)
    (tag : Store.TagName) : Poll τ (Stack.State cfg × Ret) := do
  match ← pollersRead s pollers with
  | .error e => return (st, .error e)
  | .ok model =>
    match cloneModel crc residue st model tag with
    | none => Poll.undefined
    | some r => return r

end NfcStack.Reader
