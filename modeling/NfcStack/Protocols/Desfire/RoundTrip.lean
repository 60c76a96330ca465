import NfcStack.Protocols.Desfire.Invariant

/-!
# Storing a DESFire card and reading it back

A file's description has eleven bytes, but twelve are asked for on reading, so an empty file at the end
is refused; and of the settings only one number is stored (`deserialize_serialize_iff`).
-/

namespace NfcStack.Desfire

open List Option CArray UInt16

variable {cfg : Config} (fs : FileSettings)

/-- The settings without the storage that has no meaning for the file type: `data` has one
member, `value` has four, and `record` three. -/
def FileSettings.fields : FileSettings :=
  if fs.type = .standard ∨ fs.type = .backup then
    { fs with settings := ⟨fs.settings.word0, 0, 0, 0⟩ }
  else if fs.type = .value then fs
  else { fs with settings := { fs.settings with byte12 := 0 } }

structure File where
  id : UInt8
  settings : FileSettings
  contents : Bytes
deriving DecidableEq, Repr

def Application.file (app : Application cfg) (fi : Fin cfg.maxFiles) : File where
  id := app.fileIds.get fi
  settings := app.fileSettings.get fi
  contents := app.fileData.slice (fi * cfg.maxFileSize) (app.fileDataLen.get fi).toNat

def Application.keyBytes (app : Application cfg) : Bytes :=
  app.keys.slice 0 (app.keyCount.toNat * aesKeySize)

structure Application.SameHead (a b : Application cfg) : Prop where
  appId : b.appId = a.appId
  keySettings : b.keySettings = a.keySettings
  keyCount : b.keyCount = a.keyCount
  fileCount : b.fileCount = a.fileCount
  keys : b.keyBytes = a.keyBytes

structure Application.Agree (same : FileSettings → FileSettings → Prop)
    (a b : Application cfg) : Prop extends a.SameHead b where
  ids : ∀ fi : Fin cfg.maxFiles, fi < a.fileCount.toNat → (b.file fi).id = (a.file fi).id
  settings : ∀ fi : Fin cfg.maxFiles, fi < a.fileCount.toNat →
    same (a.file fi).settings (b.file fi).settings
  contents : ∀ fi : Fin cfg.maxFiles, fi < a.fileCount.toNat →
    (b.file fi).contents = (a.file fi).contents

structure Data.SameHeader (a b : Data cfg) : Prop where
  hwVersion : b.hwVersion = a.hwVersion
  swVersion : b.swVersion = a.swVersion
  uid : b.uid = a.uid
  batch : b.batch = a.batch
  prodWeek : b.prodWeek = a.prodWeek
  prodYear : b.prodYear = a.prodYear
  freeMemory : b.freeMemory = a.freeMemory
  masterKey : b.masterKey = a.masterKey
  masterKeySettings : b.masterKeySettings = a.masterKeySettings
  appCount : b.appCount = a.appCount

structure Data.Agree (same : FileSettings → FileSettings → Prop) (a b : Data cfg) : Prop
    extends a.SameHeader b where
  apps : ∀ ai : Fin cfg.maxApps, ai < a.appCount.toNat →
    (a.apps.get ai).Agree same (b.apps.get ai)

def Data.Same (a b : Data cfg) : Prop := a.Agree (fun x y => y.fields = x.fields) b

def FileSettings.storedWord : UInt32 :=
  if fs.type = .standard ∨ fs.type = .backup then UInt32.ofNat (fs.settings.word0.toNat % 2 ^ 24)
  else if fs.type = .value then fs.settings.word0
  else UInt32.ofNat (fs.settings.word0.toNat % 2 ^ 16)

def FileSettings.readBack : FileSettings :=
  { fs with settings := ⟨fs.storedWord, 0, 0, 0⟩ }

def FileSettings.Fits : Prop :=
  if fs.type = .standard ∨ fs.type = .backup then fs.settings.word0.toNat < 2 ^ 24
  else if fs.type = .value then
    fs.settings.word1 = 0 ∧ fs.settings.word2 = 0 ∧ fs.settings.byte12 = 0
  else fs.settings.word0.toNat < 2 ^ 16 ∧ fs.settings.word1 = 0 ∧ fs.settings.word2 = 0

theorem ofNat_mod_eq_iff (x : UInt32) {k : ℕ} (hk : k ≤ 32) :
    UInt32.ofNat (x.toNat % 2 ^ k) = x ↔ x.toNat < 2 ^ k := by
  have hpow : 2 ^ k ≤ 2 ^ 32 := Nat.pow_le_pow_right (by decide) hk
  rw [← UInt32.toNat_inj, UInt32.toNat_ofNat', Nat.mod_eq_of_lt (by omega)]
  constructor
  · intro h
    omega
  · intro h
    exact Nat.mod_eq_of_lt h

variable (fs : FileSettings)

theorem FileSettings.fields_readBack_iff : fs.readBack.fields = fs.fields ↔ fs.Fits := by
  obtain ⟨type, comm, rights, ⟨w0, w1, w2, b⟩⟩ := fs
  by_cases hdata : type = .standard ∨ type = .backup
  · simp only [fields, readBack, Fits, storedWord, if_pos hdata, ← ofNat_mod_eq_iff w0
      (show 24 ≤ 32 by decide)]
    simp
  · by_cases hvalue : type = .value
    · simp only [fields, readBack, Fits, storedWord, if_neg hdata, if_pos hvalue]
      simp [eq_comm]
    · simp only [fields, readBack, Fits, storedWord, if_neg hdata, if_neg hvalue,
        ← ofNat_mod_eq_iff w0 (show 16 ≤ 32 by decide)]
      simp [eq_comm]

theorem length_writeFileSettings : (writeFileSettings fs).length = 8 := by
  simp only [writeFileSettings]
  split_ifs <;> rfl

theorem readFileSettings_write (rest : Bytes) :
    readFileSettings (writeFileSettings fs ++ rest) .reset = fs.readBack := by
  obtain ⟨type, comm, rights, ⟨w0, w1, w2, b⟩⟩ := fs
  by_cases hdata : type = .standard ∨ type = .backup
  · have hword : le24 w0.toUInt8 (w0 >>> 8).toUInt8 (w0 >>> 16).toUInt8 =
        UInt32.ofNat (w0.toNat % 2 ^ 24) := by
      apply UInt32.toNat_inj.mp
      rw [toNat_le24, UInt32.toNat_toUInt8, show (8 : UInt32) = UInt32.ofNat 8 from rfl,
        show (16 : UInt32) = UInt32.ofNat 16 from rfl, toNat_byte_shiftRight w0 (by decide),
        toNat_byte_shiftRight w0 (by decide), UInt32.toNat_ofNat']
      omega
    simp [readFileSettings, writeFileSettings, FileSettings.readBack, FileSettings.storedWord,
      FileSettings.reset, hdata, le16Bytes, le32Bytes, byteAt, le16_le16Bytes, hword]
  · by_cases hvalue : type = .value
    · subst hvalue
      simp [readFileSettings, writeFileSettings, FileSettings.readBack, FileSettings.storedWord,
        FileSettings.reset, FileType.value, FileType.standard, FileType.backup, le16Bytes,
        le32Bytes, byteAt, le16_le16Bytes, le32_le32Bytes]
    · have hword : (le16 w0.toUInt8 (w0 >>> 8).toUInt8).toUInt32 =
          UInt32.ofNat (w0.toNat % 2 ^ 16) := by
        apply UInt32.toNat_inj.mp
        rw [toNat_toUInt32, toNat_le16, UInt32.toNat_toUInt8,
          show (8 : UInt32) = UInt32.ofNat 8 from rfl, toNat_byte_shiftRight w0 (by decide),
          UInt32.toNat_ofNat']
        omega
      simp [readFileSettings, writeFileSettings, FileSettings.readBack, FileSettings.storedWord,
        FileSettings.reset, hdata, hvalue, le16Bytes, le32Bytes, byteAt, le16_le16Bytes, hword]

def storedFile (app : Application cfg) (fi : Fin cfg.maxFiles) : Bytes :=
  [app.fileIds.get fi] ++ writeFileSettings (app.fileSettings.get fi) ++
    le16Bytes (app.fileDataLen.get fi) ++ (app.file fi).contents

variable {n : ℕ}

theorem Config.first_file_lt {fi : ℕ} (h : fi + (n + 1) ≤ cfg.maxFiles) : fi < cfg.maxFiles := by
  omega

theorem Config.later_files_le {fi : ℕ} (h : fi + (n + 1) ≤ cfg.maxFiles) :
    fi + 1 + n ≤ cfg.maxFiles := by
  omega

def storedFiles (app : Application cfg) : (n fi : ℕ) → fi + n ≤ cfg.maxFiles → Bytes
  | 0, _, _ => []
  | n + 1, fi, h =>
    storedFile app ⟨fi, Config.first_file_lt h⟩ ++
      storedFiles app n (fi + 1) (Config.later_files_le h)

def storedApp (app : Application cfg) (hb : app.InBounds) : Bytes :=
  app.appId.toList ++ [app.keySettings, app.keyCount, app.fileCount] ++ app.keyBytes ++
    storedFiles app app.fileCount.toNat 0 (by have := hb.fileCount; omega)

theorem Data.InBounds.app {data : Data cfg} (hb : data.InBounds) {ai : Fin cfg.maxApps}
    (h : ai < data.appCount.toNat) : (data.apps.get ai).InBounds :=
  hb.apps ai _ h (data.apps.get?_coe ai)

def storedApps (data : Data cfg) (hb : data.InBounds) :
    (n ai : ℕ) → ai + n ≤ data.appCount.toNat → Bytes
  | 0, _, _ => []
  | n + 1, ai, h =>
    have hai : ai < cfg.maxApps := by have := hb.appCount; omega
    storedApp (data.apps.get ⟨ai, hai⟩) (hb.app (show ai < data.appCount.toNat by omega)) ++
      storedApps data hb n (ai + 1) (by omega)

def storedHeader (data : Data cfg) : Bytes :=
  [formatVersion] ++ data.hwVersion.toList ++ data.swVersion.toList ++ data.uid.toList ++
    data.batch.toList ++ [data.prodWeek, data.prodYear] ++ le32Bytes data.freeMemory ++
    data.masterKey.toList ++ [data.masterKeySettings, data.appCount]

def stored (data : Data cfg) (hb : data.InBounds) : Bytes :=
  storedHeader data ++ storedApps data hb data.appCount.toNat 0 (by omega)

section Writing

variable {app : Application cfg} {data : Data cfg} {outMax : ℕ}

theorem Application.InBounds.row (hb : app.InBounds) {fi : ℕ} (hfi : fi < cfg.maxFiles)
    (h : fi < app.fileCount.toNat) : (app.fileDataLen.get ⟨fi, hfi⟩).toNat ≤ cfg.maxFileSize :=
  hb.dataLen fi _ h (app.fileDataLen.get?_coe ⟨fi, hfi⟩)

theorem row_end_le (fi : Fin cfg.maxFiles) {len : ℕ} (h : len ≤ cfg.maxFileSize) :
    fi * cfg.maxFileSize + len ≤ cfg.maxFiles * cfg.maxFileSize := by
  have hrow := Nat.mul_le_mul_right cfg.maxFileSize fi.isLt
  rw [Nat.succ_mul] at hrow
  omega

variable {fi : Fin cfg.maxFiles} (h : (app.fileDataLen.get fi).toNat ≤ cfg.maxFileSize)

include h

theorem length_contents : (app.file fi).contents.length = (app.fileDataLen.get fi).toNat :=
  length_slice _ (row_end_le fi h)

theorem length_storedFile : (storedFile app fi).length = 11 + (app.fileDataLen.get fi).toNat := by
  simp only [storedFile, length_append, length_writeFileSettings, length_contents h]
  simp [le16Bytes]

omit h

theorem serializeFiles_stored (hb : app.InBounds) (n fi : ℕ) (h : fi + n ≤ cfg.maxFiles)
    (hn : fi + n ≤ app.fileCount.toNat) (out : Bytes)
    (hroom : out.length + (storedFiles app n fi h).length + 4 ≤ outMax) :
    serializeFiles app outMax n fi h out = .ok (out ++ storedFiles app n fi h) := by
  -- the checks before each file ask for up to four bytes more than are written
  induction n generalizing fi out with
  | zero => simp [serializeFiles, storedFiles]
  | succ n ih =>
    have hrow := hb.row (Config.first_file_lt h) (by omega)
    simp only [storedFiles, length_append, length_storedFile hrow] at hroom
    rw [serializeFiles, if_neg (by omega), if_neg (by omega)]
    have happ : out ++ [app.fileIds.get ⟨fi, by omega⟩] ++
          writeFileSettings (app.fileSettings.get ⟨fi, by omega⟩) ++
          le16Bytes (app.fileDataLen.get ⟨fi, by omega⟩) ++
          app.fileData.slice (fi * cfg.maxFileSize)
            (app.fileDataLen.get ⟨fi, by omega⟩).toNat =
        out ++ storedFile app ⟨fi, by omega⟩ := by
      simp [storedFile, Application.file]
    rw [happ, ih (fi + 1) (by omega) (by omega), storedFiles, append_assoc]
    rw [length_append, length_storedFile hrow]
    omega

theorem length_keyBytes (hb : app.InBounds) :
    app.keyBytes.length = app.keyCount.toNat * aesKeySize := by
  apply length_slice
  rw [Nat.zero_add]
  exact Nat.mul_le_mul_right _ hb.keyCount

theorem length_storedApp (hb : app.InBounds) (h : 0 + app.fileCount.toNat ≤ cfg.maxFiles) :
    (storedApp app hb).length = 6 + app.keyCount.toNat * aesKeySize +
      (storedFiles app app.fileCount.toNat 0 h).length := by
  simp only [storedApp, length_append, length_keyBytes hb, app.appId.length_toList]
  simp

theorem serializeApps_stored (hb : data.InBounds) (n ai : ℕ) (h : ai + n ≤ cfg.maxApps)
    (hn : ai + n ≤ data.appCount.toNat) (out : Bytes)
    (hroom : out.length + (storedApps data hb n ai hn).length + 4 ≤ outMax) :
    serializeApps data outMax n ai h out = .ok (out ++ storedApps data hb n ai hn) := by
  induction n generalizing ai out with
  | zero => simp [serializeApps, storedApps]
  | succ n ih =>
    have happ := hb.app (show ((⟨ai, by omega⟩ : Fin cfg.maxApps) : ℕ) < data.appCount.toNat by
      show ai < _
      omega)
    have hfiles := happ.fileCount
    have hkeys := happ.keyCount
    simp only [storedApps, length_append, length_storedApp happ (show 0 + _ ≤ _ by omega)] at hroom
    rw [serializeApps]
    simp only [hfiles, ↓reduceDIte]
    rw [if_neg (by omega), if_neg (by omega)]
    have hfront : (out ++ (data.apps.get ⟨ai, by omega⟩).appId.toList ++
        [(data.apps.get ⟨ai, by omega⟩).keySettings, (data.apps.get ⟨ai, by omega⟩).keyCount,
          (data.apps.get ⟨ai, by omega⟩).fileCount] ++ (data.apps.get ⟨ai, by omega⟩).keys.slice 0
          ((data.apps.get ⟨ai, by omega⟩).keyCount.toNat * aesKeySize)).length =
        out.length + 6 + (data.apps.get ⟨ai, by omega⟩).keyCount.toNat * aesKeySize := by
      have hkeyLen := length_keyBytes happ
      rw [Application.keyBytes] at hkeyLen
      simp only [List.length_append, CArray.length_toList, hkeyLen]
      simp
    rw [serializeFiles_stored happ _ 0 (by omega) (by omega) _ (by rw [hfront]; omega)]
    show serializeApps data outMax n (ai + 1) _ _ = _
    rw [ih (ai + 1) (by omega) (by omega)]
    · simp [storedApps, storedApp, Application.keyBytes]
    · rw [length_append]
      omega

theorem length_storedHeader (data : Data cfg) : (storedHeader data).length = headerSize := by
  simp [storedHeader, le32Bytes, headerSize, aesKeySize]

theorem serialize_stored (hb : data.InBounds) (hroom : (stored data hb).length + 4 ≤ outMax) :
    serialize data outMax = .ok (stored data hb) := by
  have hheader := length_storedHeader data
  rw [stored, length_append] at hroom
  rw [serialize, dif_pos hb.appCount, if_neg (by omega)]
  exact serializeApps_stored hb _ 0 (by have := hb.appCount; omega) (by omega) _ hroom

end Writing

def Application.putFile (app : Application cfg) (fi : ℕ) (f : File) : Application cfg :=
  { app with
    fileIds := app.fileIds.set fi f.id
    fileSettings := app.fileSettings.set fi f.settings
    fileDataLen := app.fileDataLen.set fi (UInt16.ofNat f.contents.length)
    fileData := app.fileData.write (fi * cfg.maxFileSize) f.contents }

def File.readBack (f : File) : File := { f with settings := f.settings.readBack }

def Application.EmptyAt (app : Application cfg) (k : ℕ) : Prop := app.fileDataLen.get? k = some 0

instance (app : Application cfg) (k : ℕ) : Decidable (app.EmptyAt k) :=
  inferInstanceAs (Decidable (_ = _))

section Files

variable {a b : Application cfg} {f : File}

theorem toNat_ofNat_contents (h : f.contents.length ≤ cfg.maxFileSize) :
    (UInt16.ofNat f.contents.length).toNat = f.contents.length := by
  have := cfg.maxFileSize_range.2
  exact Nat.mod_eq_of_lt (by omega)

theorem file_putFile_self (fi : Fin cfg.maxFiles)
    (h : f.contents.length ≤ cfg.maxFileSize) : (b.putFile fi f).file fi = f := by
  simp only [Application.file, Application.putFile, get_set_self,
    toNat_ofNat_contents h, slice_write_self _ (row_end_le fi h)]

variable {fi : Fin cfg.maxFiles}

theorem file_putFile_of_ne {fj : Fin cfg.maxFiles} (hne : fi ≠ fj)
    (h : f.contents.length ≤ cfg.maxFileSize)
    (hj : (b.fileDataLen.get fj).toNat ≤ cfg.maxFileSize) :
    (b.putFile fi f).file fj = b.file fj := by
  have hval : (fi : ℕ) ≠ fj := fun heq => hne (Fin.ext heq)
  -- The rows of two different files do not meet.
  have hdisjoint : fj * cfg.maxFileSize + (b.fileDataLen.get fj).toNat ≤ fi * cfg.maxFileSize ∨
      fi * cfg.maxFileSize + f.contents.length ≤ fj * cfg.maxFileSize := by
    rcases Nat.lt_or_gt_of_ne hval with hlt | hgt
    · right
      have := Nat.mul_le_mul_right cfg.maxFileSize hlt
      rw [Nat.succ_mul] at this
      omega
    · left
      have := Nat.mul_le_mul_right cfg.maxFileSize hgt
      rw [Nat.succ_mul] at this
      omega
  simp only [Application.file, Application.putFile, get_set_ne _ hval,
    slice_write_of_disjoint _ (row_end_le fi h) hdisjoint]

theorem contents_eq_nil_iff (h : (a.fileDataLen.get fi).toNat ≤ cfg.maxFileSize) :
    (a.file fi).contents = [] ↔ a.EmptyAt fi := by
  rw [← length_eq_zero_iff, length_contents h, Application.EmptyAt, get?_coe,
    some_inj, ← UInt16.toNat_inj]
  rfl

/-- One turn of the loop over the files. The twelfth byte that is asked for is missing when the
file is empty and nothing follows it. -/
theorem deserializeFiles_storedFile (fi : Fin cfg.maxFiles) (h : fi + (n + 1) ≤ cfg.maxFiles)
    (hrow : (a.fileDataLen.get fi).toNat ≤ cfg.maxFileSize)
    (hclear : b.fileSettings.get fi = .reset) (rest : Bytes) :
    deserializeFiles (n + 1) fi h b (storedFile a fi ++ rest) =
      if a.EmptyAt fi ∧ rest = [] then (b, .error .ebadmsg)
      else deserializeFiles n (fi + 1) (by omega) (b.putFile fi (a.file fi).readBack) rest := by
  have hlen := length_storedFile hrow
  have hcontents := length_contents hrow
  have hempty := contents_eq_nil_iff hrow
  rw [deserializeFiles, length_append, hlen]
  by_cases hend : a.EmptyAt fi ∧ rest = []
  · have hzero : (a.fileDataLen.get fi).toNat = 0 := by
      rw [← hcontents, hempty.mpr hend.1]
      rfl
    rw [if_pos hend, if_pos (by rw [hend.2, hzero]; decide)]
  · have hmore : 0 < (a.fileDataLen.get fi).toNat + rest.length := by
      by_contra hnone
      apply hend
      constructor
      · apply hempty.mp
        apply length_eq_zero_iff.mp
        omega
      · apply length_eq_zero_iff.mp
        omega
    rw [if_neg hend, if_neg (by omega)]
    have h0 : (storedFile a fi ++ rest).drop 0 = a.fileIds.get fi ::
        (writeFileSettings (a.fileSettings.get fi) ++ (le16Bytes (a.fileDataLen.get fi) ++
          ((a.file fi).contents ++ rest))) := by
      simp [storedFile]
    generalize storedFile a fi ++ rest = l at h0 ⊢
    have h1 : l.drop 1 = _ := drop_of_cons h0
    have h9 : l.drop 9 = _ := drop_of_append h1 (length_writeFileSettings _)
    have h11 : l.drop 11 = _ := drop_of_append h9 rfl
    have hlen16 : le16 (byteAt l 9) (byteAt l 10) = a.fileDataLen.get fi := le16_of_append h9
    simp only [hclear, h1, readFileSettings_write, hlen16, h11, byteAt_of_cons h0]
    rw [if_neg (by omega), if_neg (by rw [length_append]; omega),
      take_left' hcontents, drop_left' hcontents]
    have hofNat : a.fileDataLen.get fi = UInt16.ofNat (a.file fi).contents.length := by
      rw [hcontents, UInt16.ofNat_toNat]
    rw [hofNat]
    rfl

structure Application.Copied (a b : Application cfg) (k : ℕ) : Prop extends a.SameHead b where
  files : ∀ fi : Fin cfg.maxFiles, fi < k → b.file fi = (a.file fi).readBack
  rows : ∀ fi : Fin cfg.maxFiles, fi < k → (b.fileDataLen.get fi).toNat ≤ cfg.maxFileSize
  clear : ∀ fi : Fin cfg.maxFiles, k ≤ fi → b.fileSettings.get fi = .reset

theorem Application.Copied.putFile (fi : Fin cfg.maxFiles) (hc : a.Copied b fi)
    (hrow : (a.fileDataLen.get fi).toNat ≤ cfg.maxFileSize) :
    a.Copied (b.putFile fi (a.file fi).readBack) (fi + 1) := by
  have hlen : (a.file fi).readBack.contents.length ≤ cfg.maxFileSize := by
    show (a.file fi).contents.length ≤ _
    rw [length_contents hrow]
    exact hrow
  refine ⟨⟨hc.appId, hc.keySettings, hc.keyCount, hc.fileCount, hc.keys⟩, ?_, ?_, ?_⟩
  · intro fj hj
    by_cases heq : fi = fj
    · subst heq
      exact file_putFile_self fi hlen
    · have hlt : (fj : ℕ) < fi := by
        omega
      rw [file_putFile_of_ne heq hlen (hc.rows fj hlt)]
      exact hc.files fj hlt
  · intro fj hj
    show ((b.fileDataLen.set fi (UInt16.ofNat _)).get fj).toNat ≤ _
    by_cases heq : fi = fj
    · subst heq
      rw [get_set_self, toNat_ofNat_contents hlen]
      exact hlen
    · have hval : (fi : ℕ) ≠ fj := fun h => heq (Fin.ext h)
      rw [get_set_ne _ hval]
      exact hc.rows fj (by omega)
  · intro fj hj
    show (b.fileSettings.set fi _).get fj = _
    rw [get_set_ne _ (show (fi : ℕ) ≠ fj by omega)]
    exact hc.clear fj (by omega)

theorem storedFile_ne_nil (fi : Fin cfg.maxFiles) : storedFile a fi ≠ [] := by
  simp [storedFile]

theorem storedFiles_ne_nil {fi : ℕ} (h : fi + (n + 1) ≤ cfg.maxFiles) :
    storedFiles a (n + 1) fi h ≠ [] := by
  exact append_ne_nil_of_left_ne_nil (storedFile_ne_nil _) _

theorem deserializeFiles_stored (hb : a.InBounds) (n fi : ℕ) (h : fi + n ≤ cfg.maxFiles)
    (hn : fi + n ≤ a.fileCount.toNat) (hc : a.Copied b fi) (rest : Bytes) :
    ∃ b' r, deserializeFiles n fi h b (storedFiles a n fi h ++ rest) = (b', r) ∧
      (0 < n ∧ a.EmptyAt (fi + n - 1) ∧ rest = [] → r = .error .ebadmsg) ∧
      (¬ (0 < n ∧ a.EmptyAt (fi + n - 1) ∧ rest = []) → r = .ok rest ∧ a.Copied b' (fi + n)) := by
  induction n generalizing fi b with
  | zero => exact ⟨b, _, rfl, by simp, fun _ => ⟨rfl, hc⟩⟩
  | succ n ih =>
    have hfi : fi < cfg.maxFiles := by omega
    have hrow := hb.row hfi (by omega)
    have hnext := hc.putFile ⟨fi, hfi⟩ hrow
    rw [storedFiles, append_assoc,
      deserializeFiles_storedFile ⟨fi, hfi⟩ h hrow (hc.clear ⟨fi, hfi⟩ le_rfl)]
    cases n with
    | zero =>
      by_cases hend : a.EmptyAt fi ∧ rest = []
      · exact ⟨b, _, if_pos hend, fun _ => rfl, fun hgo => absurd ⟨Nat.one_pos, hend⟩ hgo⟩
      · exact ⟨_, _, if_neg hend, fun h => absurd h.2 hend, fun _ => ⟨rfl, hnext⟩⟩
    | succ n =>
      -- an empty file is read as long as another one follows it
      rw [if_neg fun hend => storedFiles_ne_nil _ (append_eq_nil_iff.mp hend.2).1]
      have := ih (fi + 1) (by omega) (by omega) hnext
      simpa only [Nat.add_right_comm fi 1, ← Nat.add_assoc, Nat.succ_pos, true_and] using this

end Files

section Apps

variable {a : Application cfg}

def Application.EndsEmpty (app : Application cfg) : Prop :=
  0 < app.fileCount.toNat ∧ app.EmptyAt (app.fileCount.toNat - 1)

def Application.ReadBack (a b : Application cfg) : Prop := a.Agree (fun x y => y = x.readBack) b

theorem Application.Copied.readBack {b : Application cfg} (hc : a.Copied b a.fileCount.toNat) :
    a.ReadBack b where
  toSameHead := hc.toSameHead
  ids fi hfi := by rw [hc.files fi hfi]; rfl
  settings fi hfi := by rw [hc.files fi hfi]; rfl
  contents fi hfi := by rw [hc.files fi hfi]; rfl

def Application.withHead (a : Application cfg) : Application cfg :=
  { (Application.reset : Application cfg) with
    appId := a.appId
    keySettings := a.keySettings
    keyCount := a.keyCount
    fileCount := a.fileCount
    keys := (Application.reset : Application cfg).keys.write 0 a.keyBytes }

theorem Application.copied_withHead (hb : a.InBounds) : a.Copied a.withHead 0 where
  appId := rfl
  keySettings := rfl
  keyCount := rfl
  fileCount := rfl
  keys := by
    have hlen := length_keyBytes hb
    have hend : 0 + a.keyBytes.length ≤ maxKeys * aesKeySize := by
      rw [Nat.zero_add, hlen]
      exact Nat.mul_le_mul_right _ hb.keyCount
    have hself := (CArray.fill (maxKeys * aesKeySize) (0 : UInt8)).slice_write_self hend
    rwa [hlen] at hself
  files fi hfi := absurd hfi (Nat.not_lt_zero _)
  rows fi hfi := absurd hfi (Nat.not_lt_zero _)
  clear fi _ := by
    simp [withHead, reset, CArray.fill, CArray.get]

theorem deserializeApp_storedApp (hb : a.InBounds) (h : 0 + a.fileCount.toNat ≤ cfg.maxFiles)
    (rest : Bytes) :
    deserializeApp .reset (storedApp a hb ++ rest) =
      deserializeFiles a.fileCount.toNat 0 h a.withHead
        (storedFiles a a.fileCount.toNat 0 h ++ rest) := by
  have hkeyLen := length_keyBytes hb
  have hkeys := hb.keyCount
  have hlen : (storedApp a hb ++ rest).length = 6 + a.keyCount.toNat * aesKeySize +
      ((storedFiles a a.fileCount.toNat 0 h).length + rest.length) := by
    rw [length_append, length_storedApp hb h]
    omega
  have h0 : (storedApp a hb ++ rest).drop 0 = a.appId.toList ++ (a.keySettings :: a.keyCount ::
      a.fileCount :: (a.keyBytes ++ (storedFiles a a.fileCount.toNat 0 h ++ rest))) := by
    simp [storedApp]
  generalize storedApp a hb ++ rest = l at hlen h0 ⊢
  have h3 : l.drop 3 = _ := drop_of_append h0 a.appId.length_toList
  have h4 : l.drop 4 = _ := drop_of_cons h3
  have h5 : l.drop 5 = _ := drop_of_cons h4
  have h6 : l.drop 6 = _ := drop_of_cons h5
  have hid : CArray.ofList 3 0 l = a.appId := ofList_of_append h0
  rw [deserializeApp, if_neg (by omega)]
  simp only [byteAt_of_cons h3, byteAt_of_cons h4, byteAt_of_cons h5, h6, hid]
  rw [if_neg (by omega), dif_pos hb.fileCount,
    if_neg (by rw [length_append]; omega), take_left' hkeyLen, drop_left' hkeyLen]
  rfl

theorem deserializeApp_stored (hb : a.InBounds) (rest : Bytes) :
    ∃ b r, deserializeApp .reset (storedApp a hb ++ rest) = (b, r) ∧
      (a.EndsEmpty ∧ rest = [] → r = .error .ebadmsg) ∧
      (¬ (a.EndsEmpty ∧ rest = []) → r = .ok rest ∧ a.ReadBack b) := by
  have hfiles : 0 + a.fileCount.toNat ≤ cfg.maxFiles := by
    have := hb.fileCount
    omega
  obtain ⟨b, r, hread, hrefused, hcopied⟩ := deserializeFiles_stored hb _ 0 hfiles (by omega)
    (Application.copied_withHead hb) rest
  rw [Nat.zero_add, ← and_assoc] at hrefused hcopied
  exact ⟨b, r, (deserializeApp_storedApp hb hfiles rest).trans hread, hrefused,
    fun hgo => (hcopied hgo).imp_right (·.readBack)⟩

end Apps

section Cards

variable {a b : Data cfg}

def Data.EndsEmpty (data : Data cfg) : Prop :=
  ∃ app, 0 < data.appCount.toNat ∧ data.apps.get? (data.appCount.toNat - 1) = some app ∧
    app.EndsEmpty

def Data.SettingsFit (data : Data cfg) : Prop :=
  ∀ ai : Fin cfg.maxApps, ai < data.appCount.toNat → ∀ fi : Fin cfg.maxFiles,
    fi < (data.apps.get ai).fileCount.toNat → ((data.apps.get ai).file fi).settings.Fits

structure Data.Copied (a b : Data cfg) (k : ℕ) : Prop extends a.SameHeader b where
  apps : ∀ ai : Fin cfg.maxApps, ai < k → (a.apps.get ai).ReadBack (b.apps.get ai)
  clear : ∀ ai : Fin cfg.maxApps, k ≤ ai → b.apps.get ai = .reset

variable {app : Application cfg}

theorem Data.Copied.set (ai : Fin cfg.maxApps) (hc : a.Copied b ai)
    (happ : (a.apps.get ai).ReadBack app) :
    a.Copied { b with apps := b.apps.set ai app } (ai + 1) := by
  refine ⟨⟨hc.hwVersion, hc.swVersion, hc.uid, hc.batch, hc.prodWeek, hc.prodYear, hc.freeMemory,
    hc.masterKey, hc.masterKeySettings, hc.appCount⟩, ?_, ?_⟩
  · intro aj hj
    by_cases heq : ai = aj
    · subst heq
      rwa [get_set_self]
    · have hval : (ai : ℕ) ≠ aj := fun h => heq (Fin.ext h)
      rw [get_set_ne _ hval]
      exact hc.apps aj (by omega)
  · intro aj hj
    rw [get_set_ne _ (show (ai : ℕ) ≠ aj by omega)]
    exact hc.clear aj (by omega)

theorem storedApp_ne_nil (hb : app.InBounds) : storedApp app hb ≠ [] := by
  simp [storedApp]

variable (hb : a.InBounds)

theorem storedApps_ne_nil {ai : ℕ} (h : ai + (n + 1) ≤ a.appCount.toNat) :
    storedApps a hb (n + 1) ai h ≠ [] := by
  exact append_ne_nil_of_left_ne_nil (storedApp_ne_nil _) _

theorem deserializeApps_stored (n ai : ℕ) (h : ai + n ≤ cfg.maxApps)
    (hn : ai + n = a.appCount.toNat) (hc : a.Copied b ai) :
    ∃ b' r, deserializeApps n ai h b (storedApps a hb n ai (by omega)) = (b', r) ∧
      (0 < n ∧ a.EndsEmpty → r = .error .ebadmsg) ∧
      (¬ (0 < n ∧ a.EndsEmpty) → r = .ok [] ∧ a.Copied b' a.appCount.toNat) := by
  induction n generalizing ai b with
  | zero => exact ⟨b, _, rfl, by simp, fun _ => ⟨rfl, hn ▸ hc⟩⟩
  | succ n ih =>
    have hlt : ai < cfg.maxApps := by omega
    have hslot : b.apps.get ⟨ai, hlt⟩ = .reset := hc.clear ⟨ai, hlt⟩ le_rfl
    obtain ⟨app, r, hread, hrefused, hok⟩ := deserializeApp_stored
      (@Data.InBounds.app _ _ hb ⟨ai, hlt⟩ (show ai < _ by omega)) (storedApps a hb n (ai + 1) (by omega))
    -- only the last application has nothing behind it
    have hlast : (a.apps.get ⟨ai, hlt⟩).EndsEmpty ∧ storedApps a hb n (ai + 1) (by omega) = [] ↔
        n = 0 ∧ a.EndsEmpty := by
      cases n with
      | zero =>
        have hget : a.apps.get? ai = some (a.apps.get ⟨ai, hlt⟩) := a.apps.get?_coe ⟨ai, hlt⟩
        simp [storedApps, Data.EndsEmpty, hget, ← hn]
      | succ n => simp [storedApps_ne_nil hb]
    rw [hlast] at hrefused hok
    rw [storedApps, deserializeApps, hslot, hread]
    by_cases hend : n = 0 ∧ a.EndsEmpty
    · rw [hrefused hend]
      exact ⟨_, _, rfl, fun _ => rfl, fun hgo => absurd ⟨Nat.succ_pos n, hend.2⟩ hgo⟩
    · obtain ⟨rfl, happ⟩ := hok hend
      obtain ⟨b', r, hrest, hrefused', hok'⟩ := ih (ai + 1) (by omega) (by omega)
        (hc.set ⟨ai, hlt⟩ happ)
      refine ⟨b', r, hrest, fun h => hrefused' ⟨?_, h.2⟩, fun h => hok' fun h' => h ⟨?_, h'.2⟩⟩
      · exact Nat.pos_of_ne_zero fun h0 => hend ⟨h0, h.2⟩
      · exact Nat.succ_pos n

theorem copied_readHeader (a : Data cfg) (rest : Bytes) :
    a.Copied (readHeader (storedHeader a ++ rest)) 0 := by
  have hbytes : storedHeader a ++ rest = [formatVersion] ++ (a.hwVersion.toList ++
      (a.swVersion.toList ++ (a.uid.toList ++ (a.batch.toList ++ (a.prodWeek :: a.prodYear ::
        (le32Bytes a.freeMemory ++ (a.masterKey.toList ++
          (a.masterKeySettings :: a.appCount :: rest)))))))) := by
    simp [storedHeader]
  generalize storedHeader a ++ rest = l at hbytes
  -- What is left of the input at each field.
  have version : l.drop 0 = _ := hbytes
  have hw : l.drop 1 = _ := drop_of_append version rfl
  have sw : l.drop 8 = _ := drop_of_append hw a.hwVersion.length_toList
  have uid : l.drop 15 = _ := drop_of_append sw a.swVersion.length_toList
  have batch : l.drop 22 = _ := drop_of_append uid a.uid.length_toList
  have week : l.drop 27 = _ := drop_of_append batch a.batch.length_toList
  have year : l.drop 28 = _ := drop_of_cons week
  have free : l.drop 29 = _ := drop_of_cons year
  have key : l.drop 33 = _ := drop_of_append free rfl
  have setting : l.drop 49 = _ := drop_of_append key a.masterKey.length_toList
  have count : l.drop 50 = _ := drop_of_cons setting
  have hfree : (readHeader l : Data cfg).freeMemory = a.freeMemory := by
    show le32 (byteAt l (29 + 0)) (byteAt l (29 + 1)) (byteAt l (29 + 2)) (byteAt l (29 + 3)) = _
    rw [byteAt_of_append free, byteAt_of_append free, byteAt_of_append free, byteAt_of_append free]
    exact le32_le32Bytes _
  refine ⟨⟨ofList_of_append hw, ofList_of_append sw, ofList_of_append uid, ofList_of_append batch,
    byteAt_of_cons week, byteAt_of_cons year, hfree, ofList_of_append key,
    byteAt_of_cons setting, byteAt_of_cons count⟩, ?_, ?_⟩
  · intro ai hai
    exact absurd hai (Nat.not_lt_zero _)
  · intro ai _
    simp [readHeader, Data.reset, CArray.fill, CArray.get]

theorem deserialize_stored_eq (h : 0 + a.appCount.toNat ≤ cfg.maxApps)
    {run : Data cfg × Except Errno Bytes}
    (hrun : deserializeApps a.appCount.toNat 0 h (readHeader (stored a hb))
      (storedApps a hb a.appCount.toNat 0 (by omega)) = run) :
    deserialize (stored a hb) =
      (run.1, run.2.bind fun rest => if rest = [] then .ok () else .error .ebadmsg) := by
  have hcount : (readHeader (stored a hb) : Data cfg).appCount = a.appCount :=
    (copied_readHeader a _).appCount
  have hlen : headerSize ≤ (stored a hb).length := by
    rw [stored, length_append, length_storedHeader]
    omega
  have hdrop : (stored a hb).drop headerSize = storedApps a hb a.appCount.toNat 0 (by omega) :=
    drop_left' (length_storedHeader a)
  rw [deserialize, if_neg (by omega)]
  simp only [hcount, hb.appCount, ↓reduceDIte, hdrop, hrun]
  obtain ⟨data, e | rest⟩ := run <;> rfl

theorem deserialize_stored :
    ∃ b r, deserialize (stored a hb) = (b, r) ∧ (a.EndsEmpty → r = .error .ebadmsg) ∧
      (¬ a.EndsEmpty → r = .ok () ∧ a.Copied b a.appCount.toNat) := by
  have happs : 0 + a.appCount.toNat ≤ cfg.maxApps := by
    have := hb.appCount
    omega
  obtain ⟨b, r, hread, hrefused, hok⟩ := deserializeApps_stored hb a.appCount.toNat 0 happs (by omega)
    (copied_readHeader a _ : a.Copied (readHeader (stored a hb)) 0)
  refine ⟨b, _, deserialize_stored_eq hb happs hread, fun hend => ?_, fun hend => ?_⟩
  · obtain ⟨-, hpos, -⟩ := id hend
    rw [hrefused ⟨hpos, hend⟩]
    rfl
  · obtain ⟨rfl, hcopied⟩ := hok fun h => hend h.2
    exact ⟨rfl, hcopied⟩

theorem Data.Copied.same_iff (hc : a.Copied b a.appCount.toNat) : a.Same b ↔ a.SettingsFit := by
  constructor
  · intro hsame ai hai fi hfi
    have hequal := (hsame.apps ai hai).settings fi hfi
    rw [(hc.apps ai hai).settings fi hfi] at hequal
    exact (FileSettings.fields_readBack_iff _).mp hequal
  · intro hfit
    refine ⟨hc.toSameHeader, ?_⟩
    intro ai hai
    have happ := hc.apps ai hai
    refine ⟨happ.toSameHead, happ.ids, ?_, happ.contents⟩
    intro fi hfi
    rw [happ.settings fi hfi]
    exact (FileSettings.fields_readBack_iff _).mpr (hfit ai hai fi hfi)

end Cards

theorem deserialize_serialize_iff (data : Data cfg) (hb : data.InBounds) {outMax : ℕ}
    (hroom : (stored data hb).length + 4 ≤ outMax) :
    (∃ bytes copy, serialize data outMax = .ok bytes ∧ deserialize bytes = (copy, .ok ()) ∧
        data.Same copy) ↔ ¬ data.EndsEmpty ∧ data.SettingsFit := by
  have hwrite := serialize_stored hb hroom
  obtain ⟨b, r, hcopy, hrefused, hok⟩ := deserialize_stored hb
  constructor
  · rintro ⟨bytes, copy, hbytes, hread, hsame⟩
    obtain rfl := Except.ok.inj (hwrite.symm.trans hbytes)
    obtain ⟨rfl, rfl⟩ := Prod.mk.inj (hread.symm.trans hcopy)
    have hend : ¬ data.EndsEmpty := fun hempty => nomatch hrefused hempty
    exact ⟨hend, (hok hend).2.same_iff.mp hsame⟩
  · rintro ⟨hend, hfit⟩
    obtain ⟨rfl, hcopied⟩ := hok hend
    exact ⟨_, b, hwrite, hcopy, hcopied.same_iff.mpr hfit⟩

/-! ### Cards with one file

The settings are those the poller leaves: a file readable by everyone, and for a record file one
record. -/

variable (settings : FileSettings)

def oneFileApp (contents : Bytes) : Application .default :=
  { (Application.reset : Application .default) with
    fileCount := 1
    fileIds := .ofList 8 0 [1]
    fileSettings := .ofList 8 .reset [settings]
    fileDataLen := .ofList 8 0 [UInt16.ofNat contents.length]
    fileData := .ofList _ 0 contents }

def oneFileCard (contents : Bytes) : Data .default :=
  { (Data.reset : Data .default) with
    appCount := 1
    apps := .ofList 4 .reset [oneFileApp settings contents] }

def standardFile (size : UInt32) : FileSettings := ⟨.standard, .plain, 0xEEEE, ⟨size, 0, 0, 0⟩⟩

def recordFile (size : UInt32) : FileSettings := ⟨.linearRec, .plain, 0xEEEE, ⟨size, 1, 1, 0⟩⟩

theorem oneFileCard_inBounds {contents : Bytes}
    (h : contents.length ≤ 256) : (oneFileCard settings contents).InBounds where
  appCount := show 1 ≤ 4 by decide
  apps i app hi happ := by
    obtain rfl : i = 0 := Nat.lt_one_iff.mp hi
    obtain rfl : oneFileApp settings contents = app := some.inj happ
    refine ⟨⟨show 1 ≤ 8 by decide, ?_⟩, show 0 ≤ 14 by decide⟩
    intro j len hj hlen
    obtain rfl : j = 0 := Nat.lt_one_iff.mp hj
    obtain rfl : UInt16.ofNat contents.length = len := some.inj hlen
    rw [toNat_ofNat']
    exact (Nat.mod_le _ _).trans h

def twoByteCard : Data .default := oneFileCard (standardFile 2) [0x11, 0x22]

def emptyFileCard : Data .default := oneFileCard (standardFile 0) []

def recordFileCard : Data .default := oneFileCard (recordFile 2) [0x11, 0x22]

theorem twoByteCard_inBounds : twoByteCard.InBounds := oneFileCard_inBounds _ (by decide)

theorem emptyFileCard_inBounds : emptyFileCard.InBounds := oneFileCard_inBounds _ (by decide)

theorem recordFileCard_inBounds : recordFileCard.InBounds := oneFileCard_inBounds _ (by decide)

theorem deserialize_serialize_two_bytes :
    twoByteCard.InBounds ∧ ∃ bytes copy, serialize twoByteCard 1024 = .ok bytes ∧
      deserialize bytes = (copy, .ok ()) ∧ twoByteCard.Same copy := by
  have hroom : (stored twoByteCard twoByteCard_inBounds).length + 4 ≤ 1024 := by decide +kernel
  refine ⟨twoByteCard_inBounds,
    (deserialize_serialize_iff _ twoByteCard_inBounds hroom).mpr ⟨?_, ?_⟩⟩
  · rintro ⟨app, -, happ, -, hempty⟩
    obtain rfl : oneFileApp (standardFile 2) [0x11, 0x22] = app := some.inj happ
    revert hempty
    decide
  · intro ai hai fi hfi
    obtain rfl : ai = ⟨0, by decide⟩ := Fin.ext (Nat.lt_one_iff.mp hai)
    obtain rfl : fi = ⟨0, by decide⟩ := Fin.ext (Nat.lt_one_iff.mp hfi)
    rw [FileSettings.Fits]
    decide

/-- A card with an empty file is written, but what was written is refused; and a card with a
record file comes back without its number of records. -/
theorem stored_card_not_equal :
    (emptyFileCard.InBounds ∧ ∃ bytes, serialize emptyFileCard 1024 = .ok bytes ∧
        (deserialize bytes : Data .default × Ret).2 = .error .ebadmsg) ∧
      recordFileCard.InBounds ∧ ∃ bytes copy, serialize recordFileCard 1024 = .ok bytes ∧
        deserialize bytes = (copy, .ok ()) ∧ ¬ recordFileCard.Same copy := by
  have hempty := serialize_stored emptyFileCard_inBounds
    (show _ + 4 ≤ 1024 by decide +kernel)
  have hrefused : (deserialize (stored emptyFileCard emptyFileCard_inBounds) :
      Data .default × Ret).2 = .error .ebadmsg := by decide +kernel
  have hrecord := serialize_stored recordFileCard_inBounds
    (show _ + 4 ≤ 1024 by decide +kernel)
  refine ⟨⟨emptyFileCard_inBounds, _, hempty, hrefused⟩, recordFileCard_inBounds, ?_⟩
  have hend : ¬ recordFileCard.EndsEmpty := by
    rintro ⟨app, -, happ, -, hempty⟩
    obtain rfl : oneFileApp (recordFile 2) [0x11, 0x22] = app := some.inj happ
    revert hempty
    decide
  obtain ⟨copy, r, hread, -, hok⟩ := deserialize_stored recordFileCard_inBounds
  obtain ⟨rfl, hcopied⟩ := hok hend
  refine ⟨_, copy, hrecord, hread, ?_⟩
  intro hsame
  have hfits := hcopied.same_iff.mp hsame ⟨0, by decide⟩ (by decide) ⟨0, by decide⟩ (by decide)
  have hone : (1 : UInt32) = 0 := hfits.2.1
  exact absurd hone (by decide)

end NfcStack.Desfire
