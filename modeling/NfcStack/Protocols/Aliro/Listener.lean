import NfcStack.Basic

/-!
# The Aliro listener

The credential of `protocols/aliro/aliro.c` with its stored format, and the expedited exchange of
`aliro_listener.c`, each command of which is answered by work that is submitted to the work queue of the
transport.
-/

namespace NfcStack.Aliro

structure Config where
  /-- `CONFIG_NFC_ALIRO_MAX_TRANSCRIPT`. -/
  maxTranscript : ℕ
  maxTranscript_range : 128 ≤ maxTranscript ∧ maxTranscript ≤ 1024
  /-- `CONFIG_NFC_ALIRO_PROTOCOL_VERIFIED`. -/
  protocolVerified : Bool

def Config.default : Config := ⟨512, by decide, false⟩

def formatVersion : UInt8 := 0x01

def publicKeySize : ℕ := 65

def expeditedAid : Bytes := [0xA0, 0x00, 0x00, 0x08, 0x58, 0x01, 0x01, 0x01, 0x00]

def stepupAid : Bytes := [0xA0, 0x00, 0x00, 0x08, 0x58, 0x01, 0x01, 0x02, 0x00]

structure Data (cfg : Config) where
  features : UInt16
  protocolMajor : UInt8
  protocolMinor : UInt8
  credentialPubkey : CArray UInt8 publicKeySize
  transcriptLen : UInt16
  transcript : CArray UInt8 cfg.maxTranscript
deriving DecidableEq

variable {cfg : Config}

def Data.reset : Data cfg := ⟨0, 0, 0, .fill _ 0, 0, .fill _ 0⟩

def headerSize : ℕ := 1 + 2 + 2 + publicKeySize + 2

def serialize (data : Data cfg) (outMax : ℕ) : Option (Except Errno Bytes) :=
  if outMax < headerSize + data.transcriptLen.toNat then some (.error .enospc)
  else
    (data.transcript.read? 0 data.transcriptLen.toNat).map fun transcript =>
      .ok ([formatVersion] ++ le16Bytes data.features ++
        [data.protocolMajor, data.protocolMinor] ++ data.credentialPubkey.toList ++
        le16Bytes data.transcriptLen ++ transcript)

def deserialize (bytes : Bytes) : Data cfg × Ret :=
  if bytes.length < headerSize ∨ byteAt bytes 0 ≠ formatVersion then (.reset, .error .ebadmsg)
  else
    let data := { (Data.reset : Data cfg) with
      features := le16 (byteAt bytes 1) (byteAt bytes 2)
      protocolMajor := byteAt bytes 3
      protocolMinor := byteAt bytes 4
      credentialPubkey := .ofList publicKeySize 0 (bytes.drop 5) }
    let tlen := le16 (byteAt bytes 70) (byteAt bytes 71)
    if cfg.maxTranscript < tlen.toNat ∨ headerSize + tlen.toNat ≠ bytes.length then
      (data, .error .ebadmsg)
    else
      ({ data with
          transcriptLen := tlen
          transcript := data.transcript.write 0 (bytes.drop headerSize) }, .ok ())

inductive Phase
  | idle | awaitAuth0 | awaitAuth1 | awaitExchange | done | error
deriving DecidableEq, Repr

def signatureSize : ℕ := 64

def exchangeDataSize : ℕ := 29

structure Session where
  phase : Phase
  cryptoInflight : Bool
  auth1Sig : CArray UInt8 signatureSize
  exchangeData : CArray UInt8 exchangeDataSize
  exchangeDataLen : ℕ
deriving DecidableEq, Repr

/-- All static variables but the response buffer; `workPending` says that `s_crypto_work` is
queued. -/
structure State (cfg : Config) where
  model : Data cfg
  session : Session
  workPending : Bool
deriving DecidableEq

def Session.reset : Session := ⟨.idle, false, .fill _ 0, .fill _ 0, 0⟩

def State.boot : State cfg := ⟨.reset, .reset, false⟩

/-! The responses of `aliro_vectors.h`. -/

def selectRsp : Bytes := [0x00, 0x00] ++ List.replicate 16 0x11

def auth0Rsp : Bytes :=
  [0x00, 0x00] ++ List.replicate 16 0xCC ++ [0x04] ++ List.replicate (publicKeySize - 1) 0xDD

def auth1Rsp : Bytes := [0x00, 0x00] ++ List.replicate signatureSize 0x55

def exchangeRsp : Bytes := [0x00, 0x00] ++ List.replicate exchangeDataSize 0x77

def securityNotSat : Bytes := [0x69, 0x82]

def Session.finish (s : Session) (phase : Phase) (rsp : Bytes) : Session × Bytes :=
  ({ s with phase, cryptoInflight := false }, rsp)

def cryptoHandler (cfg : Config) (s : Session) : Session × Bytes :=
  match s.phase with
  | .awaitAuth0 =>
    if cfg.protocolVerified then s.finish .error StatusWord.conditionsNotSat.bytes
    else s.finish .awaitAuth1 auth0Rsp
  | .awaitAuth1 =>
    if cfg.protocolVerified then s.finish .error StatusWord.conditionsNotSat.bytes
    else if s.auth1Sig.toList ≠ List.replicate signatureSize 0x44 then
      s.finish .error securityNotSat
    else s.finish .awaitExchange auth1Rsp
  | .awaitExchange =>
    if cfg.protocolVerified then s.finish .error StatusWord.conditionsNotSat.bytes
    else if s.exchangeDataLen < exchangeDataSize ∨
        s.exchangeData.toList ≠ List.replicate exchangeDataSize 0x66 then
      s.finish .error securityNotSat
    else s.finish .done exchangeRsp
  | _ => s.finish .error StatusWord.conditionsNotSat.bytes

variable (st : State cfg)

def runWork : State cfg × Option Bytes :=
  if st.workPending then
    let r := cryptoHandler cfg st.session
    ({ st with session := r.1, workPending := false }, some r.2)
  else (st, none)

def onSelect (aid : Bytes) : State cfg × Bytes :=
  if aid = expeditedAid then
    ({ st with session := { Session.reset with phase := .awaitAuth0 } }, selectRsp)
  else if aid = stepupAid then ({ st with session := .reset }, [0x6A, 0x81])
  else ({ st with session := .reset }, StatusWord.fileNotFound.bytes)

def refuse (sw : Bytes) : State cfg × Option Bytes :=
  ({ st with session := { st.session with phase := .error } }, some sw)

def submit : State cfg × Option Bytes :=
  ({ st with session := { st.session with cryptoInflight := true }, workPending := true }, none)

variable (apdu : Apdu)

/-- AUTH1; too short a signature leaves the one from before. -/
def auth1 : State cfg × Option Bytes :=
  if st.session.phase ≠ .awaitAuth1 then refuse st StatusWord.conditionsNotSat.bytes
  else if signatureSize ≤ apdu.lc then
    submit { st with session := { st.session with auth1Sig := .ofList _ 0 apdu.data } }
  else submit st

def exchange : State cfg × Option Bytes :=
  if st.session.phase ≠ .awaitExchange then refuse st StatusWord.conditionsNotSat.bytes
  else if apdu.lc < exchangeDataSize then refuse st StatusWord.wrongLength.bytes
  else
    submit { st with session := { st.session with
      exchangeData := .ofList _ 0 apdu.data
      exchangeDataLen := exchangeDataSize } }

def onApdu : State cfg × Option Bytes :=
  if st.session.phase = .error ∨ st.session.phase = .done then
    (st, some StatusWord.conditionsNotSat.bytes)
  else if apdu.cla ≠ 0x80 then refuse st StatusWord.claNotSupported.bytes
  else if st.session.cryptoInflight then refuse st StatusWord.conditionsNotSat.bytes
  else if apdu.ins = 0x80 ∧ st.session.phase = .awaitAuth0 then submit st
  else if apdu.ins = 0x81 then auth1 st apdu
  else if apdu.ins = 0x82 then exchange st apdu
  else refuse st StatusWord.insNotSupported.bytes

def endSession : State cfg := { st with session := .reset }

def listenerSerialize (outMax : ℕ) : Option (Except Errno Bytes) :=
  serialize st.model outMax

def listenerDeserialize (bytes : Bytes) : State cfg × Ret :=
  let r := deserialize bytes
  ({ st with session := .reset, model := r.1 }, r.2)

def defaultModel : Data cfg :=
  { (Data.reset : Data cfg) with
    protocolMinor := 0x09
    credentialPubkey := (Data.reset : Data cfg).credentialPubkey.set 0 0x04 }

/-- `aliro_listener_init`. The work item is initialised again, so it counts as not queued. -/
def listenerInit (model : Option (Data cfg)) : State cfg :=
  { model := model.getD defaultModel, session := .reset, workPending := false }

def listenerShutdown : State cfg := { st with session := .reset }

end NfcStack.Aliro
