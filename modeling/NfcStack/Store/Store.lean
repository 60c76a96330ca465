import NfcStack.Router.AidRouter
import NfcStack.Store.Envelope

/-!
# The card store

`store/nfc_store.c` and its RAM backend. The callbacks are the inert defaults or those of the RAM backend;
the commit callback is always the default. `started` is the state STARTED of the stack.
-/

namespace NfcStack.Store

structure Config where
  /-- `CONFIG_NFC_STORE_BLOB_SIZE`. -/
  blobSize : ℕ
  /-- `CONFIG_NFC_STORE_MAX_TAG_LEN`, with the terminating NUL. -/
  maxTagLen : ℕ
  /-- `CONFIG_NFC_STORE_RAM_SLOT_COUNT`. -/
  ramSlots : ℕ
  blobSize_range : 512 ≤ blobSize ∧ blobSize ≤ 16384
  maxTagLen_range : 8 ≤ maxTagLen ∧ maxTagLen ≤ 32
  ramSlots_range : 1 ≤ ramSlots ∧ ramSlots ≤ 16

def Config.default : Config where
  blobSize := 4096
  maxTagLen := 16
  ramSlots := 4
  blobSize_range := by decide
  maxTagLen_range := by decide
  ramSlots_range := by decide

abbrev TagName := Bytes

structure Slot where
  tag : TagName
  blob : Bytes
  occupied : Bool
deriving DecidableEq, Repr

inductive Backend
  | inert | ram
deriving DecidableEq, Repr

/-- The static variables of the store and of the RAM backend but the staging buffers, which are
filled before every use. -/
structure State (cfg : Config) where
  initialized : Bool
  resolvedMaxTagLen : ℕ
  saveCb : Backend
  loadCb : Backend
  slots : CArray Slot cfg.ramSlots
  ramReady : Bool
deriving DecidableEq

variable {cfg : Config}

def State.boot : State cfg := ⟨false, 0, .inert, .inert, .fill _ ⟨[], [], false⟩, false⟩

def init (st : State cfg) : State cfg × Ret :=
  if st.initialized then (st, .error .ealready)
  else
    ({ st with
        initialized := true
        resolvedMaxTagLen := cfg.maxTagLen
        saveCb := .inert
        loadCb := .inert }, .ok ())

def shutdown (st : State cfg) : State cfg :=
  { st with initialized := false, saveCb := .inert, loadCb := .inert }

variable (st : State cfg) (tag : TagName)

def State.validTag : Bool :=
  0 < tag.length && tag.length < st.resolvedMaxTagLen

variable (slots : CArray Slot cfg.ramSlots)

def findTag (tag : TagName) : Option ℕ :=
  slots.toList.findIdx? fun s => s.occupied && s.tag == tag

def findFree : Option ℕ :=
  slots.toList.findIdx? fun s => !s.occupied

def ramSave (blob : Bytes) : State cfg × Ret :=
  if tag.length = 0 ∨ cfg.maxTagLen ≤ tag.length then (st, .error .einval)
  else if cfg.blobSize < blob.length then (st, .error .enospc)
  else
    match (findTag st.slots tag).or (findFree st.slots) with
    | none => (st, .error .enospc)
    | some i =>
      ({ st with slots := st.slots.set i ⟨tag.take (cfg.maxTagLen - 1), blob, true⟩ }, .ok ())

def ramLoad : Except Errno Bytes :=
  match findTag st.slots tag with
  | none => .error .enoent
  | some i =>
    match st.slots.get? i with
    | none => .error .enoent
    | some s => if cfg.blobSize < s.blob.length then .error .enospc else .ok s.blob

/-- `nfc_store_ram_init`. The flag `s_ready` survives a shutdown of the store, after which the
callbacks are not registered again. -/
def ramInit (st : State cfg) : State cfg × Ret :=
  if st.ramReady then (st, .ok ())
  else ({ (init st).1 with saveCb := .ram, loadCb := .ram, ramReady := true }, .ok ())

def ramImport (crc : Bytes → UInt16) (st : State cfg) (tag : TagName) (blob : Bytes) :
    State cfg × Ret :=
  match openEnvelope crc blob with
  | .error e => (st, .error e)
  | .ok _ => ramSave (ramInit st).1 tag blob

def callSave (blob : Bytes) : State cfg × Ret :=
  match st.saveCb with
  | .inert => (st, .error .enodev)
  | .ram => ramSave st tag blob

def callLoad : Except Errno Bytes :=
  match st.loadCb with
  | .inert => .error .enoent
  | .ram => ramLoad st tag

def readEnvelope (crc : Bytes → UInt16) (st : State cfg) (tag : TagName) :
    Except Errno (UInt8 × Bytes) :=
  match callLoad st tag with
  | .error .enoent => .error .enoent
  | .error _ => .error .eio
  | .ok blob => openEnvelope crc blob

section Services

variable {μ : Type}

def saveEntries (cfg : Config) : List (Service μ) → Bytes → μ → Option (μ × Except Errno Bytes)
  | [], payload, m => some (m, .ok payload)
  | svc :: svcs, payload, m =>
    match svc.serialize with
    | none => saveEntries cfg svcs payload m
    | some serialize =>
      if svc.persistId = 0 then saveEntries cfg svcs payload m
      else
        match serialize m cfg.blobSize with
        | none => none
        | some (m, .error .enotsup) => saveEntries cfg svcs payload m
        | some (m, .error _) => some (m, .error .eio)
        | some (m, .ok body) =>
          if cfg.blobSize < hdrSize + payload.length + (4 + body.length) + crcSize then
            some (m, .error .enomem)
          else saveEntries cfg svcs (payload ++ writeEntry svc.persistId body) m

variable (crc : Bytes → UInt16) (started : Bool) (st : State cfg) (svcs : List (Service μ))

def save (m : μ) (tag : TagName) : Option (State cfg × μ × Ret) :=
  if started then some (st, m, .error .ebusy)
  else if ¬ st.initialized then some (st, m, .error .enodev)
  else if ¬ st.validTag tag then some (st, m, .error .einval)
  else
    match saveEntries cfg svcs [] m with
    | none => none
    | some (m, .error e) => some (st, m, .error e)
    | some (m, .ok payload) =>
      if cfg.blobSize < hdrSize + payload.length + crcSize then some (st, m, .error .enomem)
      else
        match callSave st tag (writeBlob crc payload) with
        | (st, .ok ()) => some (st, m, .ok ())
        | (st, .error _) => some (st, m, .error .eio)

def dispatchEntry (svcs : List (Service μ)) (m : μ) (entry : Entry) : Option (μ × Ret) :=
  match svcs.find? (·.persistId == entry.persistId) with
  | none => some (m, .ok ())
  | some svc => svc.callDeserialize m entry.body

/-- The loop of `nfc_store_load` on the rest of the payload. An entry that its service refuses is
remembered in `failed` and the loop goes on; one that is cut off ends it. -/
def loadEntries (svcs : List (Service μ)) (version : UInt8) :
    (fuel : ℕ) → Bytes → μ → (failed : Bool) → Option (μ × Ret)
  | _, [], m, failed => some (m, if failed then .error .ebadmsg else .ok ())
  | 0, _ :: _, m, _ => some (m, .error .ebadmsg)
  | fuel + 1, b :: rest, m, failed =>
    match takeEntry version (b :: rest) with
    | none => some (m, .error .ebadmsg)
    | some (entry, rest) =>
      match dispatchEntry svcs m entry with
      | none => none
      | some (m, ret) => loadEntries svcs version fuel rest m (failed || ret != .ok ())

def load (m : μ) (tag : TagName) : Option (μ × Ret) :=
  if started then some (m, .error .ebusy)
  else if ¬ st.initialized then some (m, .error .enodev)
  else if ¬ st.validTag tag then some (m, .error .einval)
  else
    match readEnvelope crc st tag with
    | .error e => some (m, .error e)
    | .ok (version, payload) => loadEntries svcs version payload.length payload m false

def onDirty (st : State cfg) (svc : Service μ) (m : μ) : Option (μ × Ret) :=
  if ¬ st.initialized then some (m, .error .enodev)
  else
    match svc.serialize with
    | none => some (m, .error .einval)
    | some serialize =>
      if svc.persistId = 0 then some (m, .error .einval)
      else
        match serialize m cfg.blobSize with
        | none => none
        | some (m, .ok _) => some (m, .ok ())
        | some (m, .error .enotsup) => some (m, .ok ())
        | some (m, .error _) => some (m, .error .eio)

end Services

end NfcStack.Store
