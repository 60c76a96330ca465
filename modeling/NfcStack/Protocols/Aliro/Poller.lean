import NfcStack.Protocols.Aliro.Listener
import NfcStack.Protocols.Ndef.Poller

/-!
# The Aliro poller

The reader side of `protocols/aliro/aliro_poller.c`: a SELECT and AUTH0, which must be answered, then AUTH1 and
EXCHANGE, which need not be. What the tag has answered is kept as the transcript.
-/

namespace NfcStack.Aliro

open NfcStack.Reader

variable {τ : Type} {cfg : Config} (s : Reader.Session τ)

def selectOk (rx : Bytes) : Bool :=
  (2 + 16 ≤ rx.length && byteAt rx 0 == 0x00 && byteAt rx 1 == 0x00) ||
    Ndef.endsWith rx [0x90, 0x00]

def selectTx : Bytes := [0x00, 0xA4, 0x04, 0x00, 9] ++ expeditedAid

def pollerDetect : Poll τ Ret := do
  if s.active = false then return .error .einval
  match ← s.transceive maxResponseLen selectTx with
  | .error _ => return .error .enotsup
  | .ok rx => return if selectOk rx then .ok () else .error .enotsup

/-! The commands of `aliro_vectors.h`. -/

def auth0Tx : Bytes :=
  [0x80, 0x80, 0x00, 0x00, 81] ++ List.replicate 16 0x22 ++ [0x04] ++
    List.replicate (publicKeySize - 1) 0x33

def auth1Tx : Bytes := [0x80, 0x81, 0x00, 0x00, 64] ++ List.replicate signatureSize 0x44

def exchangeTx : Bytes := [0x80, 0x82, 0x00, 0x00, 29] ++ List.replicate exchangeDataSize 0x66

/-- `aliro_poller_auth0_ok`, `aliro_poller_auth1_ok` and `aliro_poller_exchange_ok`, with the size
of the response. -/
def responseOk (size : ℕ) (rx : Bytes) : Bool :=
  size ≤ rx.length && byteAt rx 0 == 0x00 && byteAt rx 1 == 0x00

def appendTranscript (out : Data cfg) (rx : Bytes) : Data cfg × Ret :=
  if rx.length = 0 then (out, .ok ())
  else if cfg.maxTranscript < out.transcriptLen.toNat + rx.length then (out, .error .enospc)
  else
    ({ out with
        transcript := out.transcript.write out.transcriptLen.toNat rx
        transcriptLen := UInt16.ofNat (out.transcriptLen.toNat + rx.length) }, .ok ())

/-- The exchanges after AUTH0: an answer that fails or is no response is passed over. -/
def pollerOptional (tx : Bytes) (size : ℕ) (out : Data cfg) : Poll τ (Data cfg × Ret) := do
  match ← s.transceive maxResponseLen tx with
  | .error _ => return (out, .ok ())
  | .ok rx => return if responseOk size rx then appendTranscript out rx else (out, .ok ())

def pollerAuth0 (out : Data cfg) : Poll τ (Data cfg × Ret) := do
  match ← s.transceive maxResponseLen auth0Tx with
  | .error e => return (out, .error e)
  | .ok rx =>
    if ¬ responseOk (2 + 16 + publicKeySize) rx then return (out, .error .eio)
    return appendTranscript
      { out with credentialPubkey := .ofList publicKeySize 0 (rx.drop (2 + 16)) } rx

def pollerRead : Poll τ (Data cfg × Ret) := do
  match ← s.transceive maxResponseLen selectTx with
  | .error e => return (.reset, .error e)
  | .ok rx =>
    if ¬ selectOk rx then return (.reset, .error .eio)
    let (out, ret) := appendTranscript { (Data.reset : Data cfg) with protocolMinor := 0x09 } rx
    if ret ≠ .ok () then return (out, ret)
    let (out, ret) ← pollerAuth0 s out
    if ret ≠ .ok () then return (out, ret)
    let (out, ret) ← pollerOptional s auth1Tx (2 + signatureSize) out
    if ret ≠ .ok () then return (out, ret)
    pollerOptional s exchangeTx (2 + exchangeDataSize) out

end NfcStack.Aliro
