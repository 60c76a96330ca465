import NfcStack.Protocols.Desfire.Model
import NfcStack.Protocols.Ndef.Poller

/-!
# The DESFire poller

`protocols/desfire/desfire_poller.c` and `desfire_poller_i.c`. A tag that always announces another empty
frame keeps the loop that collects them running; `fuel` bounds its passes.
-/

namespace NfcStack.Desfire

open NfcStack.Reader

variable {τ : Type} {cfg : Config} (s : Reader.Session τ)

def statusOk (rx : Bytes) (sw2 : UInt8) : Bool := Ndef.endsWith rx [0x91, sw2]

def statusToErrno (rx : Bytes) : Errno :=
  if rx.length < 2 then .eio else if byteAt rx (rx.length - 1) = 0xAE then .eacces else .eio

def additionalFrame : Bytes := [0x90, 0xAF, 0x00, 0x00, 0x00]

def collectChunks (outMax : ℕ) : (fuel : ℕ) → (rx out : Bytes) → Poll τ (Except Errno Bytes)
  | 0, _, _ => Poll.undefined
  | fuel + 1, rx, out => do
    if rx.length < 2 then return .error .eio
    -- the room is looked at before the status, so an error with data may come out as `ENOSPC`
    if outMax < out.length + (Ndef.payload rx).length then return .error .enospc
    if statusOk rx 0x00 then return .ok (out ++ Ndef.payload rx)
    if ¬ statusOk rx 0xAF then return .error (statusToErrno rx)
    match ← s.transceive maxResponseLen additionalFrame with
    | .error e => return .error e
    | .ok rx' => collectChunks outMax fuel rx' (out ++ Ndef.payload rx)

def sendChunks (fuel outMax : ℕ) (tx : Bytes) : Poll τ (Except Errno Bytes) := do
  match ← s.transceive maxResponseLen tx with
  | .error e => return .error e
  | .ok rx => collectChunks s outMax fuel rx []

section Frames

variable {s} {t t' : τ} {outMax fuel : ℕ} {data out : Bytes}

theorem statusOk_append (data : Bytes) (sw2 sw2' : UInt8) :
    statusOk (data ++ [0x91, sw2]) sw2' = (sw2 == sw2') := by
  rw [statusOk, Ndef.endsWith_append data rfl]
  simp [BEq.beq, List.beq]

theorem payload_append_status (data : Bytes) (sw2 : UInt8) :
    Ndef.payload (data ++ [0x91, sw2]) = data := by
  rw [Ndef.payload, List.length_append]
  exact List.take_left' rfl

theorem collectChunks_status (sw2 : UInt8) :
    collectChunks s outMax (fuel + 1) (data ++ [0x91, sw2]) out = (do
      if outMax < out.length + data.length then return .error .enospc
      if sw2 = 0x00 then return .ok (out ++ data)
      if sw2 ≠ 0xAF then return .error (statusToErrno (data ++ [0x91, sw2]))
      match ← s.transceive maxResponseLen additionalFrame with
      | .error e => return .error e
      | .ok rx' => collectChunks s outMax fuel rx' (out ++ data)) := by
  rw [collectChunks, if_neg (by simp)]
  simp only [payload_append_status, statusOk_append, beq_iff_eq]

theorem collectChunks_last (h : out.length + data.length ≤ outMax) :
    collectChunks s outMax (fuel + 1) (data ++ [0x91, 0x00]) out t =
      some (.ok (out ++ data), t) := by
  rw [collectChunks_status, if_neg (Nat.not_lt.mpr h)]
  rfl

theorem collectChunks_more (h : out.length + data.length ≤ outMax) :
    collectChunks s outMax (fuel + 1) (data ++ [0x91, 0xAF]) out =
      (do match ← s.transceive maxResponseLen additionalFrame with
        | .error e => return .error e
        | .ok rx' => collectChunks s outMax fuel rx' (out ++ data)) := by
  rw [collectChunks_status, if_neg (Nat.not_lt.mpr h)]
  rfl

theorem collectChunks_refused {sw2 : UInt8} (hok : sw2 ≠ 0x00) (hmore : sw2 ≠ 0xAF) :
    ∃ e, collectChunks s outMax (fuel + 1) (data ++ [0x91, sw2]) out t = some (.error e, t) := by
  rw [collectChunks_status]
  split <;> exact ⟨_, rfl⟩

theorem sendChunks_of_transceive {tx rx : Bytes}
    (h : s.transceive maxResponseLen tx t = some (.ok rx, t')) :
    sendChunks s fuel outMax tx t = collectChunks s outMax fuel rx [] t' := by
  rw [sendChunks, Poll.bind_of_eq h]

end Frames

def pollerReadApplicationIds (cfg : Config) (fuel : ℕ) : Poll τ (Except Errno (Bytes × UInt8)) := do
  match ← sendChunks s fuel maxResponseLen [0x90, 0x6A, 0x00, 0x00, 0x00] with
  | .error e => return .error e
  | .ok buf =>
    if buf.length = 0 ∨ buf.length % 3 ≠ 0 then return .error .ebadmsg
    -- the list is refused here when it is too long, so the count below is never cut
    if cfg.maxApps * 3 < buf.length then return .error .enospc
    return .ok (buf, UInt8.ofNat (min (buf.length / 3) cfg.maxApps))

def pollerSelectApplication (appId : Bytes) : Poll τ Ret := do
  match ← s.transceive maxResponseLen ([0x90, 0x5A, 0x00, 0x00, 3] ++ appId) with
  | .error e => return .error e
  | .ok rx => return if statusOk rx 0x00 then .ok () else .error (statusToErrno rx)

def getKeySettings : Bytes := [0x90, 0x45, 0x00, 0x00, 0x00]

def pollerReadKeySettings (fuel : ℕ) : Poll τ (Except Errno (UInt8 × UInt8)) := do
  match ← sendChunks s fuel maxResponseLen getKeySettings with
  | .error e => return .error e
  | .ok buf =>
    -- the second byte is not compared with the number of keys of the model
    return if buf.length < 2 then .error .ebadmsg else .ok (byteAt buf 0, byteAt buf 1)

def pollerReadFileIds (cfg : Config) (fuel : ℕ) : Poll τ (Except Errno Bytes) := do
  match ← sendChunks s fuel maxResponseLen [0x90, 0x6F, 0x00, 0x00, 0x00] with
  | .error e => return .error e
  | .ok buf => return if cfg.maxFiles < buf.length then .error .enospc else .ok buf

structure Stale where
  settings : SettingsUnion
  byte7 : UInt8

/-- `desfire_poller_i_parse_file_settings`: the settings and the size of the file. A response of
seven bytes is long enough, also for a value file, whose lower limit has one byte more. -/
def parseFileSettings (stale : Stale) (bytes : Bytes) : Except Errno (FileSettings × UInt32) :=
  let b := byteAt bytes
  let type : FileType := ⟨b 0⟩
  let size := le24 (b 4) (b 5) (b 6)
  let fs (settings : SettingsUnion) : FileSettings := ⟨type, ⟨b 1⟩, le16 (b 2) (b 3), settings⟩
  if bytes.length < 7 then .error .ebadmsg
  else if type = .standard ∨ type = .backup then
    .ok (fs { stale.settings with word0 := size }, size)
  else if type = .value then
    let byte7 := if bytes.length = 7 then stale.byte7 else b 7
    .ok (fs { stale.settings with word0 := le32 (b 4) (b 5) (b 6) byte7 }, 4)
  else if type = .linearRec ∨ type = .cyclicRec then
    -- the numbers of records are not read from the answer
    .ok (fs { stale.settings with word0 := size, word1 := 1, word2 := 1 }, size)
  else .error .enotsup

def pollerReadFileSettings (fuel : ℕ) (stale : Stale) (fileId : UInt8) :
    Poll τ (Except Errno (FileSettings × UInt32)) := do
  match ← sendChunks s fuel maxResponseLen [0x90, 0xF5, 0x00, 0x00, 0x01, fileId] with
  | .error e => return .error e
  | .ok buf => return parseFileSettings stale buf

/-! ## The contents of a file

The contents go to the row of the file as they arrive, so an error leaves a part of them there. -/

def chunkSize (remaining : UInt32) : UInt32 := if 253 < remaining then 253 else remaining

def readChunk (cmd fileId : UInt8) (offset size : UInt32) : Bytes :=
  [0x90, cmd, 0x00, 0x00, 0x07, fileId] ++ (le32Bytes offset).take 3 ++ (le32Bytes size).take 3

/-- The loop that `desfire_poller_i_read_file_data` and `desfire_poller_i_read_file_records` share,
with what was written before. -/
def readFileChunks (cmd fileId : UInt8) (outMax fuel : ℕ) :
    (n : ℕ) → (offset remaining : UInt32) → (out : Bytes) → Poll τ (Bytes × Ret)
  | 0, _, _, out => return (out, .ok ())
  | n + 1, offset, remaining, out => do
    if remaining = 0 then return (out, .ok ())
    if outMax < out.length + (chunkSize remaining).toNat then return (out, .error .enospc)
    match ← sendChunks s fuel maxResponseLen
        (readChunk cmd fileId offset (chunkSize remaining)) with
    | .error e => return (out, .error e)
    | .ok chunk =>
      if remaining.toNat < chunk.length then return (out, .error .ebadmsg)
      -- a short chunk is the last one, and no error
      if chunk.length < (chunkSize remaining).toNat then return (out ++ chunk, .ok ())
      readFileChunks cmd fileId outMax fuel n (offset + UInt32.ofNat chunk.length)
        (remaining - UInt32.ofNat chunk.length) (out ++ chunk)

variable (fuel : ℕ) (fileId : UInt8) (offset length : UInt32) (outMax : ℕ)

def pollerReadFileData : Poll τ (Bytes × Ret) :=
  readFileChunks s 0xBD fileId outMax fuel length.toNat offset length []

def pollerReadFileRecords : Poll τ (Bytes × Ret) :=
  readFileChunks s 0xBB fileId outMax fuel length.toNat offset length []

def pollerReadFileValue (outMax : ℕ) : Poll τ (Bytes × Ret) := do
  match ← sendChunks s fuel maxResponseLen [0x90, 0x6C, 0x00, 0x00, 0x01, fileId] with
  | .error e => return ([], .error e)
  | .ok buf => return if outMax < buf.length then ([], .error .enospc) else (buf, .ok ())

def pollerReadContents (type : FileType) (size : UInt32) (outMax : ℕ) : Poll τ (Bytes × Ret) :=
  if type = .value then pollerReadFileValue s fuel fileId outMax
  else if type = .linearRec ∨ type = .cyclicRec then
    pollerReadFileRecords s fuel fileId 0 size outMax
  else pollerReadFileData s fuel fileId 0 size outMax

variable (app : Application cfg)

def Application.enterFile (fileId : UInt8) (fs : FileSettings) (size : UInt32) : Application cfg :=
  { app with
    fileIds := app.fileIds.set app.fileCount.toNat fileId
    fileSettings := app.fileSettings.set app.fileCount.toNat fs
    fileDataLen := app.fileDataLen.set app.fileCount.toNat size.toUInt16 }

def Application.putContents (bytes : Bytes) : Application cfg :=
  { app with fileData := app.fileData.write (app.fileCount.toNat * cfg.maxFileSize) bytes }

def Application.keepFile : Application cfg :=
  { app with fileCount := app.fileCount + 1 }

def Application.setDataLen (len : ℕ) : Application cfg :=
  { app with fileDataLen := app.fileDataLen.set app.fileCount.toNat (UInt16.ofNat len) }

/-- The contents of a file whose settings are in the slot. A file that cannot be read leaves the
slot free; contents that run out of their row have no defined outcome. -/
def pollerStoreContents (type : FileType) (size : UInt32)
    (app : Application cfg) : Poll τ (Application cfg) := do
  match ← pollerReadContents s fuel fileId type size cfg.maxFileSize with
  | (bytes, .error _) =>
    if cfg.maxFileSize < bytes.length then Poll.undefined else return app.putContents bytes
  | (bytes, .ok ()) =>
    if cfg.maxFileSize < bytes.length then Poll.undefined
    else return ((app.putContents bytes).setDataLen bytes.length).keepFile

def pollerReadFile (fuel : ℕ) (stale : Stale) (fileId : UInt8) (app : Application cfg) :
    Poll τ (Application cfg) := do
  match ← pollerReadFileSettings s fuel stale fileId with
  | .error _ => return app
  | .ok (fs, size) =>
    if fs.type ≠ .standard ∧ fs.type ≠ .backup ∧ fs.type ≠ .value ∧ fs.type ≠ .linearRec ∧
        fs.type ≠ .cyclicRec then return app
    if ¬ accessFreeRead fs.accessRights then return app
    if cfg.maxFileSize < size.toNat then return app
    if size = 0 then return (app.enterFile fileId fs size).keepFile
    pollerStoreContents s fuel fileId fs.type size (app.enterFile fileId fs size)

def pollerReadFiles (fuel : ℕ) (stale : ℕ → Stale) :
    (fileIds : Bytes) → (fi : ℕ) → Application cfg → Poll τ (Application cfg)
  | [], _, app => return app
  | fileId :: fileIds, fi, app => do
    if cfg.maxFiles ≤ app.fileCount.toNat then return app
    let app' ← pollerReadFile s fuel (stale fi) fileId app
    pollerReadFiles fuel stale fileIds (fi + 1) app'

/-- `desfire_poller_read_application`. -/
def pollerReadApplication (fuel : ℕ) (stale : ℕ → Stale) (app : Application cfg) :
    Poll τ (Application cfg × Ret) := do
  match ← pollerReadKeySettings s fuel with
  | .error e =>
    return if e = .eacces then
        ({ app with keySettings := 0, keyCount := 0, fileCount := 0 }, .ok ())
      else (app, .error e)
  | .ok (keySettings, keyCount) =>
    match ← pollerReadFileIds s cfg fuel with
    | .error e => return ({ app with keySettings, keyCount }, .error e)
    | .ok fileIds =>
      (·, .ok ()) <$> pollerReadFiles s fuel stale fileIds 0
        { app with keySettings, keyCount, fileCount := 0 }

def pollerSelect : Poll τ Ret := do
  match ← s.transceive maxResponseLen ([0x00, 0xA4, 0x04, 0x00, 7] ++ aid) with
  | .error e => return .error e
  | .ok rx => return if Ndef.endsWith rx [0x90, 0x00] then .ok () else .error .eio

def pollerDetect : Poll τ Ret := do
  if s.active = false then return .error .einval
  match ← pollerSelect s with
  | .error _ => return .error .enotsup
  | .ok () =>
    match ← s.transceive maxResponseLen [0x90, 0x64, 0x00, 0x00, 0x01, 0x00] with
    | .error _ => return .error .enotsup
    | .ok rx =>
      if ¬ Ndef.endsWith rx [0x91, 0x00] then return .error .enotsup
      match ← s.transceive maxResponseLen [0x90, 0x60, 0x00, 0x00, 0x00] with
      | .error _ => return .error .enotsup
      | .ok rx =>
        return if ¬ Ndef.endsWith rx [0x91, 0x00] ∧ ¬ Ndef.endsWith rx [0x91, 0xAF] then
          .error .enotsup else .ok ()

def parseVersion (buf : Bytes) (data : Data cfg) : Data cfg :=
  { data with
    hwVersion := .ofList 7 0 buf
    swVersion := .ofList 7 0 (buf.drop 7)
    uid := .ofList 7 0 (buf.drop 14)
    batch := .ofList 5 0 (buf.drop 21)
    prodWeek := byteAt buf 26
    prodYear := byteAt buf 27 }

def pollerReadFreeMemory (data : Data cfg) : Poll τ (Data cfg) := do
  match ← s.transceive maxResponseLen [0x90, 0x6E, 0x00, 0x00, 0x00] with
  | .error _ => return data
  | .ok rx =>
    -- four bytes of data and the status; a shorter answer is passed over
    return if statusOk rx 0x00 ∧ 6 ≤ rx.length then
        { data with freeMemory := le32 (byteAt rx 0) (byteAt rx 1) (byteAt rx 2) (byteAt rx 3) }
      else data

def pollerReadMasterKeySettings (data : Data cfg) : Poll τ (Data cfg × Except Errno Bool) := do
  match ← s.transceive maxResponseLen getKeySettings with
  | .error e => return (data, .error e)
  | .ok rx =>
    return if statusOk rx 0x00 ∧ 3 ≤ rx.length then
        ({ data with masterKeySettings := byteAt rx 0 }, .ok (byteAt rx 0 &&& 0x08 != 0))
      else if 2 ≤ rx.length ∧ byteAt rx (rx.length - 1) = 0xAE then
        ({ data with masterKeySettings := 0 }, .ok false)
      else (data, .ok false)

def pollerReadPicc (cfg : Config) (fuel : ℕ) : Poll τ (Data cfg × Except Errno Bool) := do
  match ← pollerSelect s with
  | .error e => return (.reset, .error e)
  | .ok () =>
    match ← s.transceive maxResponseLen [0x90, 0x64, 0x00, 0x00, 0x01, 0x00] with
    | .error _ => return (.reset, .error .eio)
    | .ok rx =>
      if ¬ statusOk rx 0x00 then return (.reset, .error .eio)
      match ← sendChunks s fuel 28 [0x90, 0x60, 0x00, 0x00, 0x00] with
      | .error e => return (.reset, .error e)
      | .ok version =>
        if version.length < 28 then return (.reset, .error .ebadmsg)
        let data ← pollerReadFreeMemory s (parseVersion version .reset)
        pollerReadMasterKeySettings s data

def appIdAt (appIds : Bytes) (ai : ℕ) : Bytes := (appIds.drop (ai * 3)).take 3

def Data.nextApp (data : Data cfg) (h : data.appCount.toNat < cfg.maxApps) (appId : Bytes) :
    Application cfg :=
  { data.apps.get ⟨data.appCount.toNat, h⟩ with appId := .ofList 3 0 appId }

variable (data : Data cfg) (app : Application cfg)

def Data.putApp : Data cfg :=
  { data with apps := data.apps.set data.appCount.toNat app }

def Data.keepApp : Data cfg :=
  { data.putApp app with appCount := data.appCount + 1 }

def pollerReadApplications (fuel : ℕ) (stale : ℕ → ℕ → Stale) (appIds : Bytes) :
    (n ai : ℕ) → Data cfg → Poll τ (Data cfg)
  | 0, _, data => return data
  | n + 1, ai, data => do
    if h : data.appCount.toNat < cfg.maxApps then
      match ← pollerSelectApplication s (appIdAt appIds ai) with
      | .error _ => pollerReadApplications fuel stale appIds n (ai + 1) data
      | .ok () =>
        match ← pollerReadApplication s fuel (stale ai) (data.nextApp h (appIdAt appIds ai)) with
        | (app, .error _) =>
          pollerReadApplications fuel stale appIds n (ai + 1) (data.putApp app)
        | (app, .ok ()) =>
          pollerReadApplications fuel stale appIds n (ai + 1) (data.keepApp app)
    else return data

def pollerRead (cfg : Config) (fuel : ℕ) (stale : ℕ → ℕ → Stale) : Poll τ (Data cfg × Ret) := do
  match ← pollerReadPicc s cfg fuel with
  | (data, .error e) => return (data, .error e)
  | (data, .ok false) => return (data, .ok ())
  | (data, .ok true) =>
    match ← pollerReadApplicationIds s cfg fuel with
    -- a list that asks for a key is left out, and the card is kept without applications
    | .error e => return (data, if e = .eacces then .ok () else .error e)
    | .ok (appIds, count) =>
      (·, .ok ()) <$> pollerReadApplications s fuel stale appIds count.toNat 0
        { data with appCount := 0 }

end NfcStack.Desfire
