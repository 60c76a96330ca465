import NfcStack.Lib.Machine
import NfcStack.Protocols.Emv.Model

/-!
# The EMV listener

The card emulation of `protocols/emv/emv_listener.c`. All responses but the one to READ RECORD are
cached when an image is loaded. A handler answers `none` where the source indexes outside an array
of the image.
-/

namespace NfcStack.Emv

inductive SessionState
  | idle | ppseSelected | appSelected | gpoDone
deriving DecidableEq, Repr

structure Wire where
  ppseFci : Bytes
  appFci : Bytes
  gpo : Bytes
deriving DecidableEq, Repr

structure State (cfg : Config) where
  image : Image cfg
  session : SessionState
  initialized : Bool
  wire : Wire
deriving DecidableEq, Repr

variable {cfg : Config}

def State.boot : State cfg := ⟨.reset, .idle, false, ⟨[], [], []⟩⟩

def rebuildWire (image : Image cfg) : Option Wire :=
  (image.appAid.read? 0 image.appAidLen.toNat).map fun aid =>
    { ppseFci := [0x6F, 0x1E, 0x84, 0x0E] ++ ppseAid ++
        [0xA5, 0x10, 0xBF, 0x0C, 0x0E, 0x61, 0x0C, 0x4F, image.appAidLen] ++ aid ++
        [0x87, 0x01, 0x01]
      appFci := [0x6F, 0x12, 0x84, image.appAidLen] ++ aid ++
        [0xA5, 0x07, 0x50, 0x04, 0x56, 0x49, 0x53, 0x41, 0x87, 0x01, 0x01]
      gpo := [0x80, 0x06] ++ image.aip.toList ++ image.afl.toList }

def send (data sw : Bytes) : Bytes :=
  if maxResponseLen < data.length + 2 then StatusWord.conditionsNotSat.bytes else data ++ sw

def recordNotFound : Bytes := [0x6A, 0x83]

variable (st : State cfg)

def onSelect (aid : Bytes) : Option (State cfg × Bytes) :=
  if aid = ppseAid then
    some ({ st with session := .ppseSelected }, send st.wire.ppseFci StatusWord.ok.bytes)
  else if aid.length = st.image.appAidLen.toNat then
    match st.image.appAid.read? 0 aid.length with
    | none => none
    | some appAid =>
      if aid = appAid then
        some ({ st with session := .appSelected }, send st.wire.appFci StatusWord.ok.bytes)
      else some ({ st with session := .idle }, send [] StatusWord.fileNotFound.bytes)
  else some ({ st with session := .idle }, send [] StatusWord.fileNotFound.bytes)

variable (apdu : Apdu)

def isGpo : Bool := apdu.cla == 0x80 && apdu.ins == 0xA8

def isReadRecord : Bool := apdu.cla == 0x00 && apdu.ins == 0xB2

def readRecordRequest : Except Bytes UInt8 :=
  if st.session ≠ .gpoDone then .error StatusWord.conditionsNotSat.bytes
  else if apdu.p2 &&& (0x07 : UInt8) ≠ 0x04 then .error StatusWord.wrongP1P2.bytes
  else if (apdu.p2 >>> 3) &&& (0x1F : UInt8) ≠ st.image.aflSfi >>> 3 ∨
      apdu.p1 < st.image.aflFirst ∨ st.image.aflLast < apdu.p1 then .error recordNotFound
  else .ok apdu.p1

/-- `emv_listener_on_apdu`. -/
def onApdu : Option (State cfg × Bytes) :=
  if isGpo apdu then
    if st.session ≠ .appSelected then some (st, send [] StatusWord.conditionsNotSat.bytes)
    else some ({ st with session := .gpoDone }, send st.wire.gpo StatusWord.ok.bytes)
  else if isReadRecord apdu then
    match readRecordRequest st apdu with
    | .error sw => some (st, send [] sw)
    | .ok recNo =>
      if recNo = 0 then none
      else
        (st.image.record? (recNo.toNat - 1)).map fun data =>
          (st, send data StatusWord.ok.bytes)
  else some (st, send [] StatusWord.insNotSupported.bytes)

def onDeselect : State cfg := { st with session := .idle }

def onFieldOff : State cfg := { st with session := .idle }

def listenerSerialize (outMax : ℕ) : Option (Except Errno Bytes) :=
  serialize st.image outMax

def listenerDeserialize (bytes : Bytes) : Option (State cfg × Ret) :=
  match (deserialize st.image bytes).2 with
  | none => none
  | some (image, .error e) => some ({ st with image }, .error e)
  | some (image, .ok ()) =>
    (rebuildWire image).map fun wire => ({ st with image, wire, session := .idle }, .ok ())

def listenerInit (st : State cfg) (image : Option (Image cfg)) : Option (State cfg) :=
  let image := image.getD loadDefault
  (rebuildWire image).map fun wire =>
    { st with image, wire, session := .idle, initialized := true }

def listenerShutdown : State cfg :=
  { st with session := .idle, initialized := false }

inductive ReaderEvent
  | select (aid : Bytes)
  | apdu (a : Apdu)
  | deselect
  | fieldOff
deriving DecidableEq, Repr

def reader : Machine (State cfg) ReaderEvent (Option Bytes) where
  step st
    | .select aid => (onSelect st aid).map fun r => (r.1, some r.2)
    | .apdu a => (onApdu st a).map fun r => (r.1, some r.2)
    | .deselect => some (onDeselect st, none)
    | .fieldOff => some (onFieldOff st, none)

end NfcStack.Emv
