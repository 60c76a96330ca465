import NfcStack.Lib.Machine
import NfcStack.Protocols.Desfire.Model

/-!
# The DESFire listener

The card emulation of `protocols/desfire/desfire_listener.c`: the card model, the flag
`s_initialized` and the session. A handler answers `none` where the source indexes outside an
array of the model or of the session.
-/

namespace NfcStack.Desfire

inductive AuthState
  | idle | step1 | step2 | authenticated
deriving DecidableEq, Repr

inductive PendingCmd
  | none | getVersion | readData | readRecords
deriving DecidableEq, Repr

structure Session where
  authState : AuthState
  selectedApp : Int8
  pendingCmd : PendingCmd
  pendingFrame : UInt8
  pendingFileId : UInt8
  pendingOffset : UInt16
  versionBuf : CArray UInt8 28
deriving DecidableEq, Repr

structure State (cfg : Config) where
  model : Data cfg
  initialized : Bool
  session : Session
deriving DecidableEq, Repr

variable {cfg : Config}

def State.boot : State cfg where
  model := .reset
  initialized := false
  session := ⟨.idle, 0, .none, 0, 0, 0, .fill _ 0⟩

def Session.reset (s : Session) : Session :=
  { s with authState := .idle, selectedApp := -1, pendingCmd := .none, pendingFrame := 0 }

def sw1 : UInt8 := 0x91

/-! The second status bytes, `DESFIRE_STATUS_*`. -/
namespace Status

def ok : UInt8 := 0x00
def illegalCmd : UInt8 := 0x1C
def lengthError : UInt8 := 0x7E
def noSuchKey : UInt8 := 0x40
def permissionDenied : UInt8 := 0x9D
def boundaryError : UInt8 := 0xBE
def authError : UInt8 := 0xAE
def additionalFrame : UInt8 := 0xAF
def appNotFound : UInt8 := 0xA0
def fileNotFound : UInt8 := 0xF0

end Status

def maxChunk : ℕ := maxResponseLen - 2

def sendStatus (sw2 : UInt8) : Bytes := [sw1, sw2]

def sendDataStatus (data : Bytes) (sw2 : UInt8) : Bytes :=
  if maxChunk < data.length then sendStatus Status.lengthError else data ++ [sw1, sw2]

def selectedApp (m : Data cfg) (s : Session) : Option (Option (Application cfg)) :=
  if s.selectedApp < 0 ∨ m.appCount.toInt8 ≤ s.selectedApp then some none
  else (m.apps.get? s.selectedApp.toInt.toNat).map some

def findFile (app : Application cfg) (fileId : UInt8) : Option (Option ℕ) :=
  app.fileIds.findFrom (· == fileId) app.fileCount.toNat 0

structure FileRef (cfg : Config) where
  app : Application cfg
  idx : Fin cfg.maxFiles

namespace FileRef

def settings (f : FileRef cfg) : FileSettings := f.app.fileSettings.get f.idx

def dataLen (f : FileRef cfg) : UInt16 := f.app.fileDataLen.get f.idx

def read? (f : FileRef cfg) (off len : ℕ) : Option Bytes :=
  f.app.fileData.read? (f.idx * cfg.maxFileSize + off) len

def contents (f : FileRef cfg) : Bytes :=
  f.app.fileData.slice (f.idx * cfg.maxFileSize) f.dataLen.toNat

end FileRef

def addressedFile (noApp : UInt8) (minLc : ℕ) (m : Data cfg) (s : Session) (apdu : Apdu) :
    Option (Except UInt8 (FileRef cfg)) :=
  match selectedApp m s with
  | none => none
  | some none => some (.error noApp)
  | some (some app) =>
    if apdu.lc < minLc then some (.error Status.lengthError)
    else
      match findFile app (byteAt apdu.data 0) with
      | none => none
      | some none => some (.error Status.fileNotFound)
      | some (some i) => if h : i < cfg.maxFiles then some (.ok ⟨app, i, h⟩) else none

def checkFileAuth (s : Session) (fs : FileSettings) : Bool :=
  fs.comm == .plain || s.authState == .authenticated

def hasMasterKey (m : Data cfg) : Bool := m.masterKey.toList.any (· != 0)

variable (m : Data cfg) (s : Session)

def startVersion : Session :=
  if s.pendingCmd ≠ .getVersion then
    { s with
      versionBuf := buildVersionBytes m
      pendingCmd := .getVersion
      pendingFrame := 0 }
  else s

def sendVersionFrame (s : Session) : Option (Session × Bytes) :=
  let more : Bool := s.pendingFrame == 0 || s.pendingFrame == 1
  match s.versionBuf.read? (s.pendingFrame.toNat * 7) (if more then 7 else 14) with
  | none => none
  | some frame =>
    if more then
      some ({ s with pendingFrame := s.pendingFrame + 1 },
        sendDataStatus frame Status.additionalFrame)
    else some ({ s with pendingCmd := .none }, sendDataStatus frame Status.ok)

def cmdGetVersion : Option (Session × Bytes) :=
  sendVersionFrame (startVersion m s)

def cmdGetFreeMemory : Option (Session × Bytes) :=
  some (s, sendDataStatus (le32Bytes m.freeMemory) Status.ok)

def cmdGetKeySettings : Option (Session × Bytes) :=
  match selectedApp m s with
  | none => none
  | some (some app) => some (s, sendDataStatus [app.keySettings, app.keyCount] Status.ok)
  | some none => some (s, sendDataStatus [m.masterKeySettings, 0x0F] Status.ok)

def collectIds (size : ℕ) (item : ℕ → Option Bytes) :
    (n i : ℕ) → Bytes → Option (Except UInt8 Bytes)
  | 0, _, out => some (.ok out)
  | n + 1, i, out =>
    if maxChunk < out.length + size then some (.error Status.lengthError)
    else
      match item i with
      | none => none
      | some id => collectIds size item n (i + 1) (out ++ id)

def sendIds (ids : Except UInt8 Bytes) : Bytes :=
  match ids with
  | .error sw2 => sendStatus sw2
  | .ok out => sendDataStatus out Status.ok

def cmdGetApplicationIds : Option (Session × Bytes) :=
  (collectIds 3 (fun i => (m.apps.get? i).map (·.appId.toList)) m.appCount.toNat 0 []).map
    fun ids => (s, sendIds ids)

def cmdGetFileIds : Option (Session × Bytes) :=
  match selectedApp m s with
  | none => none
  | some none => some (s, sendStatus Status.appNotFound)
  | some (some app) =>
    (collectIds 1 (fun i => (app.fileIds.get? i).map ([·])) app.fileCount.toNat 0 []).map
      fun ids => (s, sendIds ids)

/-- The eight bytes that describe a file, or `none` for a type the command does not know.
Unlike the stored format, record files show three bytes of the record size. -/
def fileSettingsBytes (fs : FileSettings) : Option Bytes :=
  let head := [fs.type.code, fs.comm.code] ++ le16Bytes fs.accessRights
  let word := fs.settings.word0
  if fs.type = .standard ∨ fs.type = .backup then some (head ++ (le32Bytes word).take 3 ++ [0])
  else if fs.type = .value then some (head ++ le32Bytes word)
  else if fs.type = .linearRec ∨ fs.type = .cyclicRec then
    some (head ++ (le32Bytes word).take 3 ++ [0])
  else none

def cmdGetFileSettings (apdu : Apdu) : Option (Session × Bytes) :=
  match addressedFile Status.appNotFound 1 m s apdu with
  | none => none
  | some (.error sw2) => some (s, sendStatus sw2)
  | some (.ok f) =>
    match fileSettingsBytes f.settings with
    | none => some (s, sendStatus Status.illegalCmd)
    | some buf => some (s, sendDataStatus buf Status.ok)

def cmdGetKeyVersion (s : Session) (apdu : Apdu) : Option (Session × Bytes) :=
  if apdu.lc < 1 then some (s, sendStatus Status.lengthError)
  else if byteAt apdu.data 0 ≠ 0 then some (s, sendStatus Status.noSuchKey)
  else some (s, sendDataStatus [0x00] Status.ok)

def cmdSelectApplication (apdu : Apdu) : Option (Session × Bytes) :=
  if apdu.lc < 3 then some (s, sendStatus Status.lengthError)
  else
    let s := s.reset
    match m.apps.findFrom (fun app => apdu.data.take 3 == app.appId.toList)
      m.appCount.toNat 0 with
    | none => none
    | some none => some (s, sendStatus Status.appNotFound)
    | some (some i) =>
      some ({ s with selectedApp := (UInt8.ofNat i).toInt8 }, sendStatus Status.ok)

inductive ReadKind
  | data | records
deriving DecidableEq, Repr

namespace ReadKind

def pending : ReadKind → PendingCmd
  | data => .readData
  | records => .readRecords

def allows : ReadKind → FileType → Bool
  | data, _ => true
  | records, t => t == .linearRec || t == .cyclicRec

end ReadKind

def readOffset (apdu : Apdu) : UInt32 :=
  le24 (byteAt apdu.data 1) (byteAt apdu.data 2) (byteAt apdu.data 3)

def readLength (apdu : Apdu) : UInt32 :=
  le24 (byteAt apdu.data 4) (byteAt apdu.data 5) (byteAt apdu.data 6)

def readRequest (kind : ReadKind) (m : Data cfg) (s : Session) (apdu : Apdu) :
    Option (Except UInt8 (FileRef cfg)) :=
  match addressedFile Status.permissionDenied 7 m s apdu with
  | none => none
  | some (.error sw2) => some (.error sw2)
  | some (.ok f) =>
    if ¬ kind.allows f.settings.type then some (.error Status.illegalCmd)
    else if ¬ checkFileAuth s f.settings then some (.error Status.authError)
    else if f.dataLen.toUInt32 < readOffset apdu + readLength apdu then
      some (.error Status.boundaryError)
    else some (.ok f)

/-- The variables `offset` and `length` from which the data are taken. A command that finds a
read of its own kind pending goes on at the pending offset, to the end of the file it names. -/
def readWindow (kind : ReadKind) (s : Session) (f : FileRef cfg) (apdu : Apdu) : UInt32 × UInt32 :=
  if s.pendingCmd = kind.pending then
    (s.pendingOffset.toUInt32, f.dataLen.toUInt32 - s.pendingOffset.toUInt32)
  else (readOffset apdu, readLength apdu)

def afterRead (kind : ReadKind) (s : Session) (apdu : Apdu) (window : UInt32 × UInt32) : Session :=
  let s :=
    if s.pendingCmd = kind.pending then s
    else { s with
      pendingFileId := byteAt apdu.data 0
      pendingOffset := (readOffset apdu).toUInt16 }
  if maxChunk < window.2.toNat then
    { s with
      pendingCmd := kind.pending
      pendingOffset := (window.1 + UInt32.ofNat maxChunk).toUInt16 }
  else { s with pendingCmd := .none }

def cmdReadFile (kind : ReadKind) (m : Data cfg) (s : Session) (apdu : Apdu) :
    Option (Session × Bytes) :=
  match readRequest kind m s apdu with
  | none => none
  | some (.error sw2) => some (s, sendStatus sw2)
  | some (.ok f) =>
    let window := readWindow kind s f apdu
    let more := maxChunk < window.2.toNat
    let chunk := if more then maxChunk else window.2.toNat
    (f.read? window.1.toNat chunk).map fun data =>
      (afterRead kind s apdu window,
        sendDataStatus data (if more then Status.additionalFrame else Status.ok))

variable (m : Data cfg) (s : Session)

def cmdReadData (apdu : Apdu) : Option (Session × Bytes) :=
  cmdReadFile .data m s apdu

def cmdReadRecords (apdu : Apdu) : Option (Session × Bytes) :=
  cmdReadFile .records m s apdu

def cmdGetValue (apdu : Apdu) : Option (Session × Bytes) :=
  match addressedFile Status.permissionDenied 1 m s apdu with
  | none => none
  | some (.error sw2) => some (s, sendStatus sw2)
  | some (.ok f) =>
    if f.settings.type ≠ .value then some (s, sendStatus Status.illegalCmd)
    else if ¬ checkFileAuth s f.settings then some (s, sendStatus Status.authError)
    else if f.dataLen < 4 then some (s, sendStatus Status.boundaryError)
    else (f.read? 0 4).map fun data => (s, sendDataStatus data Status.ok)

def cmdAuthenticate : Option (Session × Bytes) :=
  if ¬ hasMasterKey m then some (s, sendStatus Status.authError)
  else some ({ s with authState := .step1 },
    sendDataStatus [0xAA, 0xBB, 0xCC, 0xDD] Status.additionalFrame)

def claNative : UInt8 := 0x90

inductive Command
  | getVersion | getFreeMemory | getKeySettings | getApplicationIds | getFileIds
  | getFileSettings | getKeyVersion | selectApplication | readData | getValue | readRecords
  | authenticate | additionalFrame
deriving DecidableEq, Repr

def Command.ofIns (ins : UInt8) : Option Command :=
  if ins = 0x60 then some .getVersion
  else if ins = 0x6E then some .getFreeMemory
  else if ins = 0x45 then some .getKeySettings
  else if ins = 0x6A then some .getApplicationIds
  else if ins = 0x6F then some .getFileIds
  else if ins = 0xF5 then some .getFileSettings
  else if ins = 0x64 then some .getKeyVersion
  else if ins = 0x5A then some .selectApplication
  else if ins = 0xBD then some .readData
  else if ins = 0x6C then some .getValue
  else if ins = 0xBB then some .readRecords
  else if ins = 0xAA ∨ ins = 0x71 then some .authenticate
  else if ins = 0xAF then some .additionalFrame
  else none

def command (c : Command) (m : Data cfg) (s : Session) (apdu : Apdu) : Option (Session × Bytes) :=
  match c with
  | .getVersion => cmdGetVersion m s
  | .getFreeMemory => cmdGetFreeMemory m s
  | .getKeySettings => cmdGetKeySettings m s
  | .getApplicationIds => cmdGetApplicationIds m s
  | .getFileIds => cmdGetFileIds m s
  | .getFileSettings => cmdGetFileSettings m s apdu
  | .getKeyVersion => cmdGetKeyVersion s apdu
  | .selectApplication => cmdSelectApplication m s apdu
  | .readData => cmdReadData m s apdu
  | .getValue => cmdGetValue m s apdu
  | .readRecords => cmdReadRecords m s apdu
  | .authenticate => cmdAuthenticate m s
  | .additionalFrame =>
    match s.pendingCmd with
    | .getVersion => cmdGetVersion m s
    | .readData => cmdReadData m s apdu
    | .readRecords => cmdReadRecords m s apdu
    | .none => some (s, sendStatus Status.illegalCmd)

variable (st : State cfg)

def onApdu (apdu : Apdu) : Option (State cfg × Bytes) :=
  if ¬ st.initialized ∨ apdu.cla ≠ claNative then some (st, sendStatus Status.illegalCmd)
  else
    match Command.ofIns apdu.ins with
    | none => some (st, sendStatus Status.illegalCmd)
    | some c =>
      (command c st.model st.session apdu).map fun r => ({ st with session := r.1 }, r.2)

def State.resetSession : State cfg := { st with session := st.session.reset }

def onSelect : State cfg × Bytes := (st.resetSession, StatusWord.ok.bytes)

def onDeselect : State cfg := st.resetSession

def onFieldOff : State cfg := st.resetSession

def listenerSerialize (outMax : ℕ) : Except Errno Bytes :=
  serialize st.model outMax

def listenerDeserialize (bytes : Bytes) : State cfg × Ret :=
  let r := deserialize bytes
  ({ st.resetSession with model := r.1 }, r.2)

def listenerInit (model : Option (Data cfg)) : State cfg :=
  { st.resetSession with
    model := model.getD { (Data.reset : Data cfg) with freeMemory := cfg.freeMemory }
    initialized := true }

def listenerShutdown : State cfg := { st.resetSession with initialized := false }

inductive ReaderEvent
  | select
  | apdu (a : Apdu)
  | deselect
  | fieldOff
deriving DecidableEq, Repr

def reader : Machine (State cfg) ReaderEvent (Option Bytes) where
  step st
    | .select => some ((onSelect st).1, some (onSelect st).2)
    | .apdu a => (onApdu st a).map fun r => (r.1, some r.2)
    | .deselect => some (onDeselect st, none)
    | .fieldOff => some (onFieldOff st, none)

inductive Event (cfg : Config)
  | init (model : Option (Data cfg))
  | shutdown
  | deserialize (bytes : Bytes)
  | reader (e : ReaderEvent)

def listener : Machine (State cfg) (Event cfg) (Option Bytes) where
  step st
    | .init model => some (listenerInit st model, none)
    | .shutdown => some (listenerShutdown st, none)
    | .deserialize bytes => some ((listenerDeserialize st bytes).1, none)
    | .reader e => reader.step st e

end NfcStack.Desfire
