import NfcStack.Protocols.Emv.Poller
import NfcStack.Protocols.Felica.ReadBack
import NfcStack.Protocols.Slix.ReadBack
import NfcStack.Protocols.Ultralight.Poller

/-!
# The pollers of the registry

The entries of `s_pollers` other than NDEF, with the poller of each protocol.
-/

namespace NfcStack.Reader

/-- What the pollers take from elsewhere than the tag: the challenges of the two authentications,
the identifier that the transport has noted, a bound on the loops that a tag can keep going, and
what is in the arrays of the DESFire poller before it writes to them. -/
structure Ambient where
  rndA : CArray UInt8 8
  classic : Classic.Config
  tagUid : Bytes
  nr : UInt8 → CArray UInt8 4
  fuel : ℕ
  stale : ℕ → ℕ → Desfire.Stale

variable {τ : Type} {α : Type}

def modelRead (r : α × Ret) : Except Errno α := r.2.map fun _ => r.1

def cardPollers (s : Session τ) (env : Ambient) (cfg : Config) : OtherPollers cfg τ :=
  { detectors s cfg with
    ultralight := modelRead <$> Ultralight.pollerRead s env.rndA .reset
    desfire := modelRead <$> Desfire.pollerRead s cfg.desfire env.fuel env.stale
    emv := modelRead <$> Emv.pollerRead s env.fuel
    aliro := modelRead <$> Aliro.pollerRead s
    classic := Prod.snd <$> Classic.pollerRead s env.tagUid env.nr
      (.reset : Classic.CardData env.classic)
    felica := Prod.snd <$> Felica.pollerRead s .reset
    slix := Prod.snd <$> Slix.pollerRead s
    iso15693 := Prod.snd <$> Iso15693.pollerRead s .reset }

end NfcStack.Reader
