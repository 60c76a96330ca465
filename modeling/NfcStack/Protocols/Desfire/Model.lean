import NfcStack.Basic

/-!
# The DESFire card model

The data model and the stored format of `protocols/desfire/desfire.c`. `deserialize` works in place, and
an error leaves behind what was stored before it. The input is passed on as the bytes still unread.
-/

namespace NfcStack.Desfire

structure Config where
  /-- `CONFIG_NFC_DESFIRE_MAX_APPS`. -/
  maxApps : ℕ
  /-- `CONFIG_NFC_DESFIRE_MAX_FILES_PER_APP`. -/
  maxFiles : ℕ
  /-- `CONFIG_NFC_DESFIRE_MAX_FILE_SIZE`. -/
  maxFileSize : ℕ
  /-- `CONFIG_NFC_DESFIRE_FREE_MEMORY`. -/
  freeMemory : UInt32
  maxApps_range : 1 ≤ maxApps ∧ maxApps ≤ 4
  maxFiles_range : 1 ≤ maxFiles ∧ maxFiles ≤ 8
  maxFileSize_range : 16 ≤ maxFileSize ∧ maxFileSize ≤ 256

def Config.default : Config where
  maxApps := 4
  maxFiles := 8
  maxFileSize := 256
  freeMemory := 7520
  maxApps_range := by decide
  maxFiles_range := by decide
  maxFileSize_range := by decide

def formatVersion : UInt8 := 0x01

def maxKeys : ℕ := 14

def aesKeySize : ℕ := 16

def headerSize : ℕ := 51

def aid : Bytes := [0xD2, 0x76, 0x00, 0x00, 0x85, 0x01, 0x00]

structure FileType where
  code : UInt8
deriving DecidableEq, Repr

namespace FileType

def standard : FileType := ⟨0⟩
def backup : FileType := ⟨1⟩
def value : FileType := ⟨2⟩
def linearRec : FileType := ⟨3⟩
def cyclicRec : FileType := ⟨4⟩

end FileType

structure Comm where
  code : UInt8
deriving DecidableEq, Repr

namespace Comm

def plain : Comm := ⟨0⟩
def mac : Comm := ⟨1⟩
def encrypted : Comm := ⟨3⟩

end Comm

/-- `desfire_file_settings_union_t`: one storage of three words and a byte. The first word is
`data.size`, `value.lo_limit` and `record.record_size` at once. -/
structure SettingsUnion where
  word0 : UInt32
  word1 : UInt32
  word2 : UInt32
  byte12 : UInt8
deriving DecidableEq, Repr

structure FileSettings where
  type : FileType
  comm : Comm
  accessRights : UInt16
  settings : SettingsUnion
deriving DecidableEq, Repr

/-- `desfire_application_t`. -/
structure Application (cfg : Config) where
  appId : CArray UInt8 3
  keySettings : UInt8
  keyCount : UInt8
  fileCount : UInt8
  keys : CArray UInt8 (maxKeys * aesKeySize)
  fileIds : CArray UInt8 cfg.maxFiles
  fileSettings : CArray FileSettings cfg.maxFiles
  fileDataLen : CArray UInt16 cfg.maxFiles
  fileData : CArray UInt8 (cfg.maxFiles * cfg.maxFileSize)
deriving DecidableEq, Repr

structure Data (cfg : Config) where
  hwVersion : CArray UInt8 7
  swVersion : CArray UInt8 7
  uid : CArray UInt8 7
  batch : CArray UInt8 5
  prodWeek : UInt8
  prodYear : UInt8
  freeMemory : UInt32
  masterKey : CArray UInt8 aesKeySize
  masterKeySettings : UInt8
  appCount : UInt8
  apps : CArray (Application cfg) cfg.maxApps
deriving DecidableEq, Repr

variable {cfg : Config}

def FileSettings.reset : FileSettings := ⟨.standard, .plain, 0, ⟨0, 0, 0, 0⟩⟩

def Application.reset : Application cfg where
  appId := .fill _ 0
  keySettings := 0
  keyCount := 0
  fileCount := 0
  keys := .fill _ 0
  fileIds := .fill _ 0
  fileSettings := .fill _ .reset
  fileDataLen := .fill _ 0
  fileData := .fill _ 0

def Data.reset : Data cfg where
  hwVersion := .fill _ 0
  swVersion := .fill _ 0
  uid := .fill _ 0
  batch := .fill _ 0
  prodWeek := 0
  prodYear := 0
  freeMemory := 0
  masterKey := .fill _ 0
  masterKeySettings := 0
  appCount := 0
  apps := .fill _ .reset

def accessFreeRead (accessRights : UInt16) : Bool :=
  let readNibble := accessRights &&& 0x0F
  let rwNibble := (accessRights >>> 4) &&& 0x0F
  readNibble == 0x0E || rwNibble == 0x0E

def buildVersionBytes (data : Data cfg) : CArray UInt8 28 :=
  ⟨data.hwVersion.toList ++ data.swVersion.toList ++ data.uid.toList ++ data.batch.toList ++
    [data.prodWeek, data.prodYear], by simp⟩

def writeFileSettings (fs : FileSettings) : Bytes :=
  let word := fs.settings.word0
  [fs.type.code, fs.comm.code] ++ le16Bytes fs.accessRights ++
    (if fs.type = .standard ∨ fs.type = .backup then (le32Bytes word).take 3 ++ [0]
    else if fs.type = .value then le32Bytes word
    else (le32Bytes word).take 2 ++ [0, 0])

def readFileSettings (bytes : Bytes) (fs : FileSettings) : FileSettings :=
  let b := byteAt bytes
  let type : FileType := ⟨b 0⟩
  let word0 : UInt32 :=
    if type = .standard ∨ type = .backup then le24 (b 4) (b 5) (b 6)
    else if type = .value then le32 (b 4) (b 5) (b 6) (b 7)
    else (le16 (b 4) (b 5)).toUInt32
  { type
    comm := ⟨b 1⟩
    accessRights := le16 (b 2) (b 3)
    settings := { fs.settings with word0 } }

/-- The files of one application: the inner loop of `desfire_serialize`. The room asked for
is that of 15 bytes and the contents, four more than are written. -/
def serializeFiles (app : Application cfg) (outMax : ℕ) :
    (n fi : ℕ) → fi + n ≤ cfg.maxFiles → Bytes → Except Errno Bytes
  | 0, _, _, out => .ok out
  | n + 1, fi, h, out =>
    let len := app.fileDataLen.get ⟨fi, by omega⟩
    if outMax < out.length + (15 + len.toNat) then .error .enospc
    else if cfg.maxFileSize < len.toNat then .error .einval
    else
      serializeFiles app outMax n (fi + 1) (by omega)
        (out ++ [app.fileIds.get ⟨fi, by omega⟩] ++
          writeFileSettings (app.fileSettings.get ⟨fi, by omega⟩) ++ le16Bytes len ++
          app.fileData.slice (fi * cfg.maxFileSize) len.toNat)

def serializeApps (data : Data cfg) (outMax : ℕ) :
    (n ai : ℕ) → ai + n ≤ cfg.maxApps → Bytes → Except Errno Bytes
  | 0, _, _, out => .ok out
  | n + 1, ai, h, out =>
    let app := data.apps.get ⟨ai, by omega⟩
    if hf : app.fileCount.toNat ≤ cfg.maxFiles then
      if maxKeys < app.keyCount.toNat then .error .einval
      else if outMax < out.length + (6 + app.keyCount.toNat * aesKeySize) then .error .enospc
      else do
        let out := out ++ app.appId.toList ++ [app.keySettings, app.keyCount, app.fileCount] ++
          app.keys.slice 0 (app.keyCount.toNat * aesKeySize)
        let out ← serializeFiles app outMax app.fileCount.toNat 0 (by omega) out
        serializeApps data outMax n (ai + 1) (by omega) out
    else .error .einval

def serialize (data : Data cfg) (outMax : ℕ) : Except Errno Bytes :=
  if h : data.appCount.toNat ≤ cfg.maxApps then
    if outMax < headerSize then .error .enospc
    else
      serializeApps data outMax data.appCount.toNat 0 (by omega)
        ([formatVersion] ++ data.hwVersion.toList ++ data.swVersion.toList ++ data.uid.toList ++
          data.batch.toList ++ [data.prodWeek, data.prodYear] ++ le32Bytes data.freeMemory ++
          data.masterKey.toList ++ [data.masterKeySettings, data.appCount])
  else .error .einval

/-- The files of one application: the inner loop of `desfire_deserialize`. Twelve bytes are
asked for where a file's description has eleven. -/
def deserializeFiles : (n fi : ℕ) → fi + n ≤ cfg.maxFiles → Application cfg → Bytes →
    Application cfg × Except Errno Bytes
  | 0, _, _, app, rest => (app, .ok rest)
  | n + 1, fi, h, app, rest =>
    if rest.length < 12 then (app, .error .ebadmsg)
    else
      let settings := readFileSettings (rest.drop 1) (app.fileSettings.get ⟨fi, by omega⟩)
      let app := { app with
        fileIds := app.fileIds.set fi (byteAt rest 0)
        fileSettings := app.fileSettings.set fi settings }
      let dataLen := le16 (byteAt rest 9) (byteAt rest 10)
      let rest := rest.drop 11
      if cfg.maxFileSize < dataLen.toNat then (app, .error .ebadmsg)
      else if rest.length < dataLen.toNat then (app, .error .ebadmsg)
      else
        let app := { app with
          fileDataLen := app.fileDataLen.set fi dataLen
          fileData := app.fileData.write (fi * cfg.maxFileSize) (rest.take dataLen.toNat) }
        deserializeFiles n (fi + 1) (by omega) app (rest.drop dataLen.toNat)

/-- One application: the body of the outer loop of `desfire_deserialize`. Both counts are
stored before they are checked; the rows of `keys` are filled one after the other. -/
def deserializeApp (app : Application cfg) (rest : Bytes) : Application cfg × Except Errno Bytes :=
  if rest.length < 6 then (app, .error .ebadmsg)
  else
    let keyCount := byteAt rest 4
    let fileCount := byteAt rest 5
    let app := { app with
      appId := .ofList 3 0 rest
      keySettings := byteAt rest 3
      keyCount
      fileCount }
    let rest := rest.drop 6
    if maxKeys < keyCount.toNat then (app, .error .ebadmsg)
    else if h : fileCount.toNat ≤ cfg.maxFiles then
      if rest.length < keyCount.toNat * aesKeySize then (app, .error .ebadmsg)
      else
        let app := { app with
          keys := app.keys.write 0 (rest.take (keyCount.toNat * aesKeySize)) }
        deserializeFiles fileCount.toNat 0 (by omega) app
          (rest.drop (keyCount.toNat * aesKeySize))
    else (app, .error .ebadmsg)

def deserializeApps : (n ai : ℕ) → ai + n ≤ cfg.maxApps → Data cfg → Bytes →
    Data cfg × Except Errno Bytes
  | 0, _, _, data, rest => (data, .ok rest)
  | n + 1, ai, h, data, rest =>
    match deserializeApp (data.apps.get ⟨ai, by omega⟩) rest with
    | (app, .error e) => ({ data with apps := data.apps.set ai app }, .error e)
    | (app, .ok rest) =>
      deserializeApps n (ai + 1) (by omega) { data with apps := data.apps.set ai app } rest

def readHeader (bytes : Bytes) : Data cfg :=
  { (Data.reset : Data cfg) with
    hwVersion := .ofList 7 0 (bytes.drop 1)
    swVersion := .ofList 7 0 (bytes.drop 8)
    uid := .ofList 7 0 (bytes.drop 15)
    batch := .ofList 5 0 (bytes.drop 22)
    prodWeek := byteAt bytes 27
    prodYear := byteAt bytes 28
    freeMemory := le32 (byteAt bytes 29) (byteAt bytes 30) (byteAt bytes 31) (byteAt bytes 32)
    masterKey := .ofList aesKeySize 0 (bytes.drop 33)
    masterKeySettings := byteAt bytes 49
    appCount := byteAt bytes 50 }

/-- `desfire_deserialize`: the model it leaves and its result. -/
def deserialize (bytes : Bytes) : Data cfg × Ret :=
  if bytes.length < headerSize then (.reset, .error .ebadmsg)
  else if byteAt bytes 0 ≠ formatVersion then (.reset, .error .ebadmsg)
  else
    let data := readHeader bytes
    -- The count is already in the model when it is found to be too large.
    if h : data.appCount.toNat ≤ cfg.maxApps then
      match deserializeApps data.appCount.toNat 0 (by omega) data (bytes.drop headerSize) with
      | (data, .error e) => (data, .error e)
      | (data, .ok rest) => (data, if rest = [] then .ok () else .error .ebadmsg)
    else (data, .error .ebadmsg)

end NfcStack.Desfire
