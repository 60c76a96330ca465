import NfcStack.Protocols.Aliro.Listener
import NfcStack.Protocols.Desfire.Listener
import NfcStack.Protocols.Emv.Listener
import NfcStack.Protocols.Ultralight.Adapter
import NfcStack.Store.Store

/-!
# The services of the stack

The build configuration, the static variables of all listeners, and the service table
of each protocol over them.
-/

namespace NfcStack

inductive Protocol
  | ndef | ultralight | classic | felica | slix | iso15693 | desfire | emv | aliro
deriving DecidableEq, Repr

def Protocol.persistId : Protocol → PersistId
  | .ndef => .ndef
  | .ultralight => .ultralight
  | .classic => .classic
  | .felica => .felica
  | .slix => .slix
  | .iso15693 => .iso15693
  | .desfire => .desfire
  | .emv => .emv
  | .aliro => .aliro

inductive Listen
  | ndef | desfire | emv | aliro
deriving DecidableEq, Repr

def Listen.protocol : Listen → Protocol
  | .ndef => .ndef
  | .desfire => .desfire
  | .emv => .emv
  | .aliro => .aliro

def Listen.code (p : Listen) : UInt8 := p.protocol.persistId.code

theorem Listen.code_injective : Function.Injective Listen.code := by
  intro p q h
  cases p <;> cases q <;> first | rfl | exact absurd h (by decide)

structure Config where
  ndef : Ndef.Config
  ultralight : Ultralight.Config
  desfire : Desfire.Config
  emv : Emv.Config
  aliro : Aliro.Config
  store : Store.Config
  /-- `CONFIG_NFC_ROUTER_MAX_AIDS`. -/
  routerMaxAids : ℕ
  routerMaxAids_range : 1 ≤ routerMaxAids ∧ routerMaxAids ≤ 32
  /-- `CONFIG_NFC_APDU_EXTENDED_SUPPORT`. -/
  extendedApdu : Bool
  /-- `CONFIG_NFC_STORE_RAM`. -/
  storeRam : Bool
  /-- `CONFIG_NFC_PROTOCOL_*`. -/
  enabled : Protocol → Bool

def Config.default : Config where
  ndef := .default
  ultralight := .default
  desfire := .default
  emv := .default
  aliro := .default
  store := .default
  routerMaxAids := 8
  routerMaxAids_range := by decide
  extendedApdu := false
  storeRam := true
  enabled := fun _ => true

structure Listeners (cfg : Config) where
  ndef : Ndef.State cfg.ndef
  ultralight : Ultralight.State cfg.ultralight
  desfire : Desfire.State cfg.desfire
  emv : Emv.State cfg.emv
  aliro : Aliro.State cfg.aliro

variable {cfg : Config}

def Listeners.boot : Listeners cfg := ⟨.boot, .boot, .boot, .boot, .boot⟩

def Ndef.service {cfg : Ndef.Config} : Service (Ndef.State cfg) where
  persistId := PersistId.ndef.code
  onSelect := some fun st _ => some ((Ndef.onSelect st).1, some (Ndef.onSelect st).2)
  onApdu := some fun st apdu =>
    let r := Ndef.onApdu st apdu
    some (r.1, some r.2.1, r.2.2)
  onDeselect := some Ndef.closeFile
  onFieldOff := some Ndef.closeFile
  serialize := some fun st outMax => some (Ndef.listenerSerialize st outMax)
  deserialize := some fun st bytes => some (Ndef.listenerDeserialize st bytes)

def Desfire.service {cfg : Desfire.Config} : Service (Desfire.State cfg) where
  persistId := PersistId.desfire.code
  onSelect := some fun st _ => some ((Desfire.onSelect st).1, some (Desfire.onSelect st).2)
  onApdu := some fun st apdu => (Desfire.onApdu st apdu).map fun r => (r.1, some r.2, false)
  onDeselect := some Desfire.onDeselect
  onFieldOff := some Desfire.onFieldOff
  serialize := some fun st outMax => some (st, Desfire.listenerSerialize st outMax)
  deserialize := some fun st bytes => some (Desfire.listenerDeserialize st bytes)

def Emv.service {cfg : Emv.Config} : Service (Emv.State cfg) where
  persistId := PersistId.emv.code
  onSelect := some fun st aid => (Emv.onSelect st aid).map fun r => (r.1, some r.2)
  onApdu := some fun st apdu => (Emv.onApdu st apdu).map fun r => (r.1, some r.2, false)
  onDeselect := some Emv.onDeselect
  onFieldOff := some Emv.onFieldOff
  serialize := some fun st outMax => (Emv.listenerSerialize st outMax).map fun r => (st, r)
  deserialize := some fun st bytes => Emv.listenerDeserialize st bytes

def Aliro.service {cfg : Aliro.Config} : Service (Aliro.State cfg) where
  persistId := PersistId.aliro.code
  onSelect := some fun st aid => some ((Aliro.onSelect st aid).1, some (Aliro.onSelect st aid).2)
  onApdu := some fun st apdu => some ((Aliro.onApdu st apdu).1, (Aliro.onApdu st apdu).2, false)
  onDeselect := some Aliro.endSession
  onFieldOff := some Aliro.endSession
  serialize := some fun st outMax => (Aliro.listenerSerialize st outMax).map fun r => (st, r)
  deserialize := some fun st bytes => some (Aliro.listenerDeserialize st bytes)

def Listen.Own (cfg : Config) : Listen → Type
  | .ndef => Ndef.State cfg.ndef
  | .desfire => Desfire.State cfg.desfire
  | .emv => Emv.State cfg.emv
  | .aliro => Aliro.State cfg.aliro

def Listen.region : (p : Listen) → Region (Listeners cfg) (p.Own cfg)
  | .ndef => ⟨fun l => l.ndef, fun l ndef => { l with ndef }, fun _ _ => rfl, fun _ => rfl⟩
  | .desfire =>
    ⟨fun l => l.desfire, fun l desfire => { l with desfire }, fun _ _ => rfl, fun _ => rfl⟩
  | .emv => ⟨fun l => l.emv, fun l emv => { l with emv }, fun _ _ => rfl, fun _ => rfl⟩
  | .aliro => ⟨fun l => l.aliro, fun l aliro => { l with aliro }, fun _ _ => rfl, fun _ => rfl⟩

theorem Listen.get_set_of_ne {p q : Listen} (h : p ≠ q) (l : Listeners cfg) (x : q.Own cfg) :
    p.region.get (q.region.set l x) = p.region.get l := by
  cases p <;> cases q <;> first | rfl | exact absurd rfl h

def Listen.Same (p : Listen) (l l' : Listeners cfg) : Prop := p.region.get l' = p.region.get l

def Listen.ownService : (p : Listen) → Service (p.Own cfg)
  | .ndef => Ndef.service
  | .desfire => Desfire.service
  | .emv => Emv.service
  | .aliro => Aliro.service

def listenService (p : Listen) : Service (Listeners cfg) := p.ownService.within p.region

theorem listenService_persistId (p : Listen) :
    (listenService p : Service (Listeners cfg)).persistId = p.code := by
  cases p <;> rfl

def ultralightService (residue : ℕ → UInt8) : Service (Listeners cfg) where
  persistId := PersistId.ultralight.code
  onSelect := (listenService .ndef).onSelect
  onApdu := (listenService .ndef).onApdu
  onDeselect := (listenService .ndef).onDeselect
  onFieldOff := (listenService .ndef).onFieldOff
  serialize := some fun l outMax =>
    (Ultralight.listenerSerialize l.ultralight outMax).map fun r => (l, r)
  deserialize := some fun l bytes =>
    (Ultralight.listenerDeserialize residue l.ultralight l.ndef bytes).map fun r =>
      ({ l with ultralight := r.1, ndef := r.2.1 }, r.2.2)

/-- The services of the protocols without a listener. -/
def unboundService (p : Protocol) : Service (Listeners cfg) where
  persistId := p.persistId.code
  serialize := some fun l _ => some (l, .error .einval)
  deserialize := some fun l _ => some (l, .error .einval)

end NfcStack
