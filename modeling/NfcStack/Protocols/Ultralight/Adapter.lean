import NfcStack.Protocols.Ndef.Listener
import NfcStack.Protocols.Ultralight.Model

/-!
# The Ultralight adapter

`protocols/ultralight/ultralight_listener.c` keeps the pages of a card and hands their NDEF message to the
NDEF listener, which it sets up anew, read-only, for every card.
-/

namespace NfcStack.Ultralight

structure State (cfg : Config) where
  model : Data cfg
  initialized : Bool
deriving DecidableEq

variable {cfg : Config} {ndefCfg : Ndef.Config}

def State.boot : State cfg :=
  ⟨⟨.fill _ 0, 0, 0, .origin, .origin, .fill _ 0, false, .fill _ 0, false, .fill _ 0, 0,
    .fill _ 0, 0⟩, false⟩

/-- `ultralight_listener_bind_ndef`. The message lies in a local buffer of
`ultralight_extract_ndef`, which is gone when it is copied: `residue` is what the memory holds
there by then. -/
def bindNdef (residue : ℕ → UInt8) (model : Data cfg) (ndef : Ndef.State ndefCfg) :
    Option (Ndef.State ndefCfg × Ret) :=
  match extractNdef model with
  | none => none
  | some none => some (Ndef.listenerInit ndef (some .reset) false)
  | some (some msg) =>
    if ndefCfg.maxSize < msg.length then some (ndef, .error .ebadmsg)
    else
      let len := UInt16.ofNat msg.length
      let file := [(len >>> 8).toUInt8, len.toUInt8] ++ (List.range msg.length).map residue
      some (Ndef.listenerInit ndef (some { (Ndef.Data.reset : Ndef.Data ndefCfg) with
        ndefFile := (Ndef.Data.reset : Ndef.Data ndefCfg).ndefFile.write 0 file
        ndefFileLen := 2 + len }) false)

def listenerInit (st : State cfg) : State cfg × Ret :=
  if st.initialized then (st, .error .ealready) else (⟨.reset, true⟩, .ok ())

variable (residue : ℕ → UInt8) (st : State cfg) (ndef : Ndef.State ndefCfg)

def listenerLoad (model : Data cfg) : Option (State cfg × Ndef.State ndefCfg × Ret) :=
  if ¬ st.initialized then some (st, ndef, .error .enodev)
  else
    (bindNdef residue model (Ndef.listenerShutdown ndef)).map fun r => ({ st with model }, r)

def listenerSerialize (st : State cfg) (outMax : ℕ) : Option (Except Errno Bytes) :=
  if st.initialized then serialize st.model outMax else some (.error .enodev)

def listenerDeserialize (bytes : Bytes) : Option (State cfg × Ndef.State ndefCfg × Ret) :=
  if ¬ st.initialized then some (st, ndef, .error .enodev)
  else
    match deserialize st.model bytes with
    | (model, .error e) => some ({ st with model }, Ndef.listenerShutdown ndef, .error e)
    | (model, .ok ()) =>
      (bindNdef residue model (Ndef.listenerShutdown ndef)).map fun r => ({ st with model }, r)

def listenerShutdown (st : State cfg) (ndef : Ndef.State ndefCfg) :
    State cfg × Ndef.State ndefCfg × Ret :=
  if ¬ st.initialized then (st, ndef, .ok ())
  else (⟨.reset, false⟩, Ndef.listenerShutdown ndef, .ok ())

end NfcStack.Ultralight
