import NfcStack.Lib.Hoare
import NfcStack.Protocols.Desfire.Poller
import NfcStack.Protocols.Desfire.RoundTrip

/-!
# Storing what the DESFire poller has read

The number of keys is taken from the tag as it is, so `desfire_serialize` accepts the card exactly if no
application that is kept names more than 14 of them (`pollerRead_storable_iff`).
-/

namespace NfcStack.Desfire

open List CArray NfcStack.Reader Hoare Poll UInt8

variable {τ : Type} {cfg : Config} (s : Reader.Session τ)

theorem ensures_readFileChunks (cmd fileId : UInt8) (outMax fuel n : ℕ)
    (offset remaining : UInt32) (out : Bytes) :
    Ensures (readFileChunks s cmd fileId outMax fuel n offset remaining out)
      fun r => r.1.length ≤ out.length + remaining.toNat := by
  induction n generalizing offset remaining out with
  | zero => exact .pure (Nat.le_add_right _ _)
  | succ n ih =>
    rw [readFileChunks]
    split
    · exact .pure (Nat.le_add_right _ _)
    split
    · exact .pure (Nat.le_add_right _ _)
    refine .bind_except (fun _ => .pure (Nat.le_add_right _ _)) fun chunk => ?_
    dsimp only
    split
    · exact .pure (Nat.le_add_right _ _)
    split
    · refine .pure ?_
      rw [length_append]
      omega
    · -- what was taken and what remains are together what was asked for
      refine (ih _ _ _).mono fun r hr => ?_
      have hwide := remaining.toNat_lt
      have hlen : (UInt32.ofNat chunk.length).toNat = chunk.length := by
        rw [UInt32.toNat_ofNat']
        omega
      have hleft : (remaining - UInt32.ofNat chunk.length).toNat =
          remaining.toNat - chunk.length := by
        rw [UInt32.toNat_sub_of_le _ _ (by rw [UInt32.le_iff_toNat_le]; omega), hlen]
      rw [length_append] at hr
      omega

variable (fuel : ℕ)

theorem ensures_pollerReadContents (fileId : UInt8) (type : FileType) {size : UInt32}
    {outMax : ℕ} (hsize : size.toNat ≤ outMax) :
    Ensures (pollerReadContents s fuel fileId type size outMax) fun r => r.1.length ≤ outMax := by
  rw [pollerReadContents]
  split
  · refine .bind (.trivial _) fun r _ => ?_
    cases r with
    | error e => exact .pure (Nat.zero_le _)
    | ok buf =>
      refine .pure ?_
      split
      · exact Nat.zero_le _
      · next hfit => exact Nat.not_lt.mp hfit
  -- READ DATA and READ RECORDS are the same loop
  have hread (cmd : UInt8) : Ensures
      (readFileChunks s cmd fileId outMax fuel size.toNat 0 size []) fun r => r.1.length ≤ outMax :=
    (ensures_readFileChunks s cmd fileId outMax fuel size.toNat 0 size []).mono fun r hr => by
      rw [length_nil, Nat.zero_add] at hr
      exact hr.trans hsize
  split
  · exact hread 0xBB
  · exact hread 0xBD

/-! ## Properties that the parts of the poller share

All loops but the one over the frames of an answer run over a list or a size, so a property of the
exchanges and of the answers is one of the whole read. -/

structure Exchanging (P : ∀ {α : Type}, (ℕ → Poll τ α) → Prop) : Prop extends Compositional P where
  exchange rxMax tx : P fun _ => s.transceive rxMax tx
  answer outMax tx : P fun fuel => sendChunks s fuel outMax tx

section Exchanging

variable {s} {P : ∀ {α : Type}, (ℕ → Poll τ α) → Prop} (h : Exchanging s P)
include h

theorem Exchanging.pollerReadApplicationIds (cfg : Config) :
    P fun fuel => pollerReadApplicationIds s cfg fuel := by
  refine h.bind (h.answer _ _) fun r => ?_
  cases r with
  | error e => exact h.pure _
  | ok buf =>
    dsimp only
    split_ifs <;> exact h.pure _

variable (stale : Stale) (fileId : UInt8)

theorem Exchanging.pollerReadFileSettings :
    P fun fuel => pollerReadFileSettings s fuel stale fileId := by
  refine h.bind (h.answer _ _) fun r => ?_
  cases r <;> exact h.pure _

theorem Exchanging.readFileChunks (cmd fileId : UInt8) (outMax n : ℕ) (offset remaining : UInt32)
    (out : Bytes) :
    P fun fuel => readFileChunks s cmd fileId outMax fuel n offset remaining out := by
  induction n generalizing offset remaining out with
  | zero => exact h.pure _
  | succ n ih =>
    simp only [Desfire.readFileChunks]
    split
    · exact h.pure _
    split
    · exact h.pure _
    refine h.bind (h.answer _ _) fun r => ?_
    cases r with
    | error e => exact h.pure _
    | ok chunk =>
      dsimp only
      split
      · exact h.pure _
      split
      · exact h.pure _
      · exact ih _ _ _

theorem Exchanging.pollerReadContents (fileId : UInt8) (type : FileType) (size : UInt32)
    (outMax : ℕ) : P fun fuel => pollerReadContents s fuel fileId type size outMax := by
  simp only [Desfire.pollerReadContents]
  split
  · refine h.bind (h.answer _ _) fun r => ?_
    cases r <;> exact h.pure _
  split <;> exact h.readFileChunks _ _ _ _ _ _ _

theorem Exchanging.pollerReadFile (app : Application cfg) :
    P fun fuel => pollerReadFile s fuel stale fileId app := by
  refine h.bind (h.pollerReadFileSettings stale fileId) fun r => ?_
  cases r with
  | error e => exact h.pure _
  | ok x =>
    dsimp only
    split
    · exact h.pure _
    split
    · exact h.pure _
    split
    · exact h.pure _
    next hsize =>
    split
    · exact h.pure _
    refine h.bindEnsures (h.pollerReadContents fileId x.1.type x.2 cfg.maxFileSize)
      (fun fuel => ensures_pollerReadContents s fuel fileId _ (Nat.not_lt.mp hsize)) fun r hr => ?_
    -- the contents do not leave their row
    obtain ⟨bytes, _ | _⟩ := r <;> simp only [if_neg (Nat.not_lt.mpr hr)] <;> exact h.pure _

variable (stale : ℕ → Stale)

theorem Exchanging.pollerReadFiles (fileIds : Bytes) (fi : ℕ)
    (app : Application cfg) : P fun fuel => pollerReadFiles s fuel stale fileIds fi app := by
  induction fileIds generalizing fi app with
  | nil => exact h.pure _
  | cons fileId fileIds ih =>
    simp only [Desfire.pollerReadFiles]
    split
    · exact h.pure _
    · exact h.bind (h.pollerReadFile _ _ _) fun app' => ih _ app'

theorem Exchanging.pollerReadApplication (app : Application cfg) :
    P fun fuel => pollerReadApplication s fuel stale app := by
  have hkeys : P fun fuel => pollerReadKeySettings s fuel := by
    refine h.bind (h.answer _ _) fun r => ?_
    cases r <;> exact h.pure _
  have hids : P fun fuel => pollerReadFileIds s cfg fuel := by
    refine h.bind (h.answer _ _) fun r => ?_
    cases r <;> exact h.pure _
  refine h.bind hkeys fun r => ?_
  cases r with
  | error e => exact h.pure _
  | ok ks =>
    refine h.bind hids fun r => ?_
    cases r with
    | error e => exact h.pure _
    | ok fileIds => exact h.map (h.pollerReadFiles stale fileIds 0 _) _

theorem Exchanging.pollerSelectApplication (appId : Bytes) :
    P fun _ => pollerSelectApplication s appId := by
  refine h.bind (h.exchange _ _) fun r => ?_
  cases r <;> exact h.pure _

theorem Exchanging.pollerReadApplications (stale : ℕ → ℕ → Stale) (appIds : Bytes) (n ai : ℕ)
    (data : Data cfg) : P fun fuel => pollerReadApplications s fuel stale appIds n ai data := by
  induction n generalizing ai data with
  | zero => exact h.pure _
  | succ n ih =>
    simp only [Desfire.pollerReadApplications]
    split
    · refine h.bind (h.pollerSelectApplication _) fun r => ?_
      cases r with
      | error e => exact ih _ _
      | ok =>
        refine h.bind (h.pollerReadApplication _ _) fun r => ?_
        obtain ⟨app, _ | _⟩ := r <;> exact ih _ _
    · exact h.pure _

theorem Exchanging.pollerReadPicc (cfg : Config) : P fun fuel => pollerReadPicc s cfg fuel := by
  have hselect : P fun _ => pollerSelect s := by
    refine h.bind (h.exchange _ _) fun r => ?_
    cases r <;> exact h.pure _
  refine h.bind hselect fun r => ?_
  cases r with
  | error e => exact h.pure _
  | ok =>
    refine h.bind (h.exchange _ _) fun r => ?_
    cases r with
    | error e => exact h.pure _
    | ok rx =>
      dsimp only
      split
      · exact h.pure _
      refine h.bind (h.answer _ _) fun r => ?_
      cases r with
      | error e => exact h.pure _
      | ok version =>
        dsimp only
        split
        · exact h.pure _
        refine h.bind (h.bind (h.exchange _ _) fun r => ?_) fun data => h.bind (h.exchange _ _) fun r => ?_
        all_goals cases r <;> exact h.pure _

theorem Exchanging.pollerRead (cfg : Config) (stale : ℕ → ℕ → Stale) :
    P fun fuel => pollerRead s cfg fuel stale := by
  refine h.bind (h.pollerReadPicc cfg) fun r => ?_
  obtain ⟨data, e | free⟩ := r
  · exact h.pure _
  cases free with
  | false => exact h.pure _
  | true =>
    refine h.bind (h.pollerReadApplicationIds cfg) fun r => ?_
    cases r with
    | error e => exact h.pure _
    | ok ids => exact h.map (h.pollerReadApplications stale ids.1 _ 0 _) _

end Exchanging

section Files

variable {app app' : Application cfg}

theorem Application.FilesInBounds.of_empty (h : app.fileCount = 0) : app.FilesInBounds := by
  refine ⟨by rw [h]; exact Nat.zero_le _, ?_⟩
  intro j len hj
  rw [h] at hj
  exact absurd hj (Nat.not_lt_zero j)

theorem Application.FilesInBounds.of_slot (h : app.FilesInBounds) {len : UInt16}
    (hcount : app'.fileCount = app.fileCount)
    (hlens : app'.fileDataLen = app.fileDataLen.set app.fileCount.toNat len) :
    app'.FilesInBounds := by
  refine ⟨hcount ▸ h.fileCount, ?_⟩
  intro j l hj hl
  rw [hcount] at hj
  rw [hlens, get?_set_ne _ (Nat.ne_of_gt hj)] at hl
  exact h.dataLen j l hj hl

theorem toNat_fileCount_succ (hslot : app.fileCount.toNat < cfg.maxFiles) :
    (app.fileCount + 1).toNat = app.fileCount.toNat + 1 := by
  have := cfg.maxFiles_range.2
  rw [UInt8.toNat_add]
  simp only [UInt8.toNat_one]
  omega

theorem Application.FilesInBounds.keep (h : app.FilesInBounds)
    (hslot : app.fileCount.toNat < cfg.maxFiles) {len : UInt16} (hlen : len.toNat ≤ cfg.maxFileSize)
    (hcount : app'.fileCount = app.fileCount + 1)
    (hlens : app'.fileDataLen = app.fileDataLen.set app.fileCount.toNat len) :
    app'.FilesInBounds := by
  have hnext := toNat_fileCount_succ hslot
  rw [← hcount] at hnext
  refine ⟨by omega, ?_⟩
  intro j l hj hl
  rw [hlens] at hl
  rcases Nat.lt_or_ge j app.fileCount.toNat with hlt | hge
  · rw [get?_set_ne _ (Nat.ne_of_gt hlt)] at hl
    exact h.dataLen j l hlt hl
  · obtain rfl : app.fileCount.toNat = j := by omega
    rw [get?_set_self _ hslot] at hl
    cases hl
    exact hlen

def FilesRead (app app' : Application cfg) : Prop :=
  app'.FilesInBounds ∧ app'.keyCount = app.keyCount

theorem ensures_pollerStoreContents (fileId : UInt8) (type : FileType) {size : UInt32}
    (h : app.FilesInBounds) (hslot : app.fileCount.toNat < cfg.maxFiles)
    (hsize : size.toNat ≤ cfg.maxFileSize) :
    Ensures (pollerStoreContents s fuel fileId type size app) (FilesRead app) := by
  refine .bind (ensures_pollerReadContents s fuel fileId type hsize) fun r hr => ?_
  obtain ⟨bytes, ret⟩ := r
  have hrow : ¬ cfg.maxFileSize < bytes.length := Nat.not_lt.mpr hr
  cases ret with
  | error e =>
    -- the row is written, but the slot is not in use
    simp only [if_neg hrow]
    exact .pure ⟨⟨h.fileCount, h.dataLen⟩, rfl⟩
  | ok =>
    simp only [if_neg hrow]
    have hlen : (UInt16.ofNat bytes.length).toNat ≤ cfg.maxFileSize := by
      exact (Nat.mod_le _ _).trans hr
    exact .pure ⟨h.keep hslot hlen rfl rfl, rfl⟩

theorem ensures_pollerReadFile (stale : Stale) (fileId : UInt8)
    (h : app.FilesInBounds) (hslot : app.fileCount.toNat < cfg.maxFiles) :
    Ensures (pollerReadFile s fuel stale fileId app) (FilesRead app) := by
  have hsame : FilesRead app app := ⟨h, rfl⟩
  refine .bind_except (fun _ => .pure hsame) fun x => ?_
  obtain ⟨fs, size⟩ := x
  dsimp only
  split
  · exact .pure hsame
  split
  · exact .pure hsame
  split
  · exact .pure hsame
  next hfit =>
  have hsize : size.toNat ≤ cfg.maxFileSize := Nat.not_lt.mp hfit
  split
  · next hempty =>
    subst hempty
    exact .pure ⟨h.keep hslot (Nat.zero_le _) rfl rfl, rfl⟩
  · have hentered : (app.enterFile fileId fs size).FilesInBounds := h.of_slot rfl rfl
    exact ensures_pollerStoreContents s fuel fileId fs.type hentered hslot hsize

theorem ensures_pollerReadFiles (stale : ℕ → Stale) (fileIds : Bytes) (fi : ℕ)
    (h : app.FilesInBounds) :
    Ensures (pollerReadFiles s fuel stale fileIds fi app) (FilesRead app) := by
  induction fileIds generalizing fi app with
  | nil => exact .pure ⟨h, rfl⟩
  | cons fileId fileIds ih =>
    rw [pollerReadFiles]
    split
    · exact .pure ⟨h, rfl⟩
    next hslot =>
    refine .bind (ensures_pollerReadFile s fuel (stale fi) fileId h (Nat.not_le.mp hslot))
      fun app₁ h₁ => ?_
    refine (ih (fi + 1) h₁.1).mono fun app₂ h₂ => ?_
    exact ⟨h₂.1, h₂.2.trans h₁.2⟩

theorem ensures_pollerReadApplication (stale : ℕ → Stale) (app : Application cfg) :
    Ensures (pollerReadApplication s fuel stale app) fun r => r.2 = .ok () → r.1.FilesInBounds := by
  refine .bind (.trivial _) fun r _ => ?_
  cases r with
  | error e =>
    refine .pure ?_
    split
    · exact fun _ => .of_empty rfl
    · exact fun hok => by cases hok
  | ok x =>
    refine .bind_except (fun _ => .pure fun hok => by cases hok) fun fileIds => ?_
    exact .map (ensures_pollerReadFiles s fuel stale fileIds 0 (.of_empty rfl))
      fun app' h _ => h.1

end Files

section Apps

variable {data : Data cfg} {app : Application cfg}

def Data.KeysFit (data : Data cfg) : Prop :=
  ∀ i app, i < data.appCount.toNat → data.apps.get? i = some app → app.keyCount.toNat ≤ maxKeys

theorem Data.inBounds_iff : data.InBounds ↔ data.Valid ∧ data.KeysFit := by
  constructor
  · intro h
    exact ⟨h.valid, fun i app hi ha => (h.apps i app hi ha).keyCount⟩
  · rintro ⟨hvalid, hkeys⟩
    exact ⟨hvalid.appCount, fun i app hi ha => ⟨hvalid.files i app hi ha, hkeys i app hi ha⟩⟩

theorem Data.forall_putApp_iff (app : Application cfg) (P : Application cfg → Prop) :
    (∀ i app', i < (data.putApp app).appCount.toNat →
        (data.putApp app).apps.get? i = some app' → P app') ↔
      ∀ i app', i < data.appCount.toNat → data.apps.get? i = some app' → P app' := by
  refine forall_congr' fun i => forall_congr' fun app' => imp_congr_right fun hi => ?_
  have hi' : i < data.appCount.toNat := hi
  rw [Data.putApp, get?_set_ne _ (Nat.ne_of_gt hi')]

theorem Data.toNat_appCount_keepApp (hslot : data.appCount.toNat < cfg.maxApps) :
    (data.keepApp app).appCount.toNat = data.appCount.toNat + 1 := by
  have := cfg.maxApps_range.2
  show (data.appCount + 1).toNat = _
  rw [UInt8.toNat_add]
  simp only [UInt8.toNat_one]
  omega

theorem Data.forall_keepApp_iff (hslot : data.appCount.toNat < cfg.maxApps)
    (P : Application cfg → Prop) :
    (∀ i app', i < (data.keepApp app).appCount.toNat →
        (data.keepApp app).apps.get? i = some app' → P app') ↔
      (∀ i app', i < data.appCount.toNat → data.apps.get? i = some app' → P app') ∧ P app := by
  have hput := @Data.forall_putApp_iff cfg data app P
  have hself : (data.keepApp app).apps.get? data.appCount.toNat = some app :=
    get?_set_self _ hslot _
  rw [Data.toNat_appCount_keepApp hslot, ← hput]
  constructor
  · intro h
    exact ⟨fun i app' hi => h i app' (Nat.lt_succ_of_lt hi), h _ app (Nat.lt_succ_self _) hself⟩
  · rintro ⟨h, hp⟩ i app' hi ha
    rcases Nat.lt_succ_iff_lt_or_eq.mp hi with hlt | rfl
    · exact h i app' hlt ha
    · rw [hself] at ha
      cases ha
      exact hp

variable (stale : ℕ → ℕ → Stale) (appIds : Bytes)

theorem ensures_pollerReadApplications (n ai : ℕ) (h : data.Valid) :
    Ensures (pollerReadApplications s fuel stale appIds n ai data) Data.Valid := by
  induction n generalizing ai data with
  | zero => exact .pure h
  | succ n ih =>
    rw [pollerReadApplications]
    split
    · next hslot =>
      refine .bind (.trivial _) fun r _ => ?_
      cases r with
      | error e => exact ih (ai + 1) h
      | ok =>
        refine .bind (ensures_pollerReadApplication s fuel (stale ai) _) fun r hr => ?_
        obtain ⟨app, ret⟩ := r
        cases ret with
        | error e => exact ih (ai + 1) ⟨h.appCount, (Data.forall_putApp_iff app _).mpr h.files⟩
        | ok =>
          refine ih (ai + 1) ⟨?_, (Data.forall_keepApp_iff hslot _).mpr ⟨h.files, hr rfl⟩⟩
          rw [Data.toNat_appCount_keepApp hslot]
          exact hslot
    · exact .pure h

def keySettingsFit (fuel : ℕ) (t : τ) : Bool :=
  match sendChunks s fuel maxResponseLen getKeySettings t with
  | some (.ok answer, _) => (byteAt answer 1).toNat ≤ maxKeys
  | _ => true

theorem keyCount_pollerReadApplication_iff (stale : ℕ → Stale) {app app' : Application cfg}
    {t t' : τ} (hrun : pollerReadApplication s fuel stale app t = some ((app', .ok ()), t')) :
    app'.keyCount.toNat ≤ maxKeys ↔ keySettingsFit s fuel t = true := by
  obtain ⟨r, t₁, hsettings, hrest⟩ := bind_eq_some hrun
  obtain ⟨answer, t₂, hanswer, hr⟩ := bind_eq_some hsettings
  rw [keySettingsFit, hanswer]
  cases answer with
  | error e =>
    -- the settings ask for a key, and the application is kept without keys
    cases hr
    by_cases hauth : e = .eacces
    · subst hauth
      cases hrest
      exact iff_of_true (Nat.zero_le _) rfl
    · simp only [if_neg hauth] at hrest
      cases hrest
  | ok buf =>
    by_cases hshort : buf.length < 2
    · simp only [if_pos hshort] at hr
      cases hr
      cases hrest
    · simp only [if_neg hshort] at hr
      cases hr
      obtain ⟨ids, t₃, hids, hfiles⟩ := bind_eq_some hrest
      cases ids with
      | error e => cases hfiles
      | ok fileIds =>
        obtain ⟨app₁, hloop, heq⟩ := map_eq_some hfiles
        cases heq
        obtain ⟨-, hcount⟩ := ensures_pollerReadFiles s fuel stale fileIds 0 (.of_empty rfl)
          _ _ _ hloop
        rw [hcount, decide_eq_true_eq]

def appsKeysFit (fuel : ℕ) (stale : ℕ → ℕ → Stale) (appIds : Bytes) :
    (n ai : ℕ) → Data cfg → τ → Bool
  | 0, _, _, _ => true
  | n + 1, ai, data, t =>
    if h : data.appCount.toNat < cfg.maxApps then
      match pollerSelectApplication s (appIdAt appIds ai) t with
      | none => true
      | some (.error _, t₁) => appsKeysFit fuel stale appIds n (ai + 1) data t₁
      | some (.ok (), t₁) =>
        match pollerReadApplication s fuel (stale ai) (data.nextApp h (appIdAt appIds ai)) t₁ with
        | none => true
        | some ((app, .error _), t₂) =>
          appsKeysFit fuel stale appIds n (ai + 1) (data.putApp app) t₂
        | some ((app, .ok ()), t₂) =>
          keySettingsFit s fuel t₁ &&
            appsKeysFit fuel stale appIds n (ai + 1) (data.keepApp app) t₂
    else true

theorem keysFit_pollerReadApplications_iff (n ai : ℕ) {data' : Data cfg} {t t' : τ}
    (hrun : pollerReadApplications s fuel stale appIds n ai data t = some (data', t')) :
    data'.KeysFit ↔ data.KeysFit ∧ appsKeysFit s fuel stale appIds n ai data t = true := by
  induction n generalizing ai data t with
  | zero =>
    cases hrun
    exact (and_iff_left rfl).symm
  | succ n ih =>
    rw [pollerReadApplications] at hrun
    rw [appsKeysFit]
    by_cases hslot : data.appCount.toNat < cfg.maxApps
    · rw [dif_pos hslot] at hrun ⊢
      obtain ⟨r, t₁, hselect, hrest⟩ := bind_eq_some hrun
      rw [hselect]
      cases r with
      | error e => exact ih (ai + 1) hrest
      | ok =>
        obtain ⟨⟨app, ret⟩, t₂, hread, hloop⟩ := bind_eq_some hrest
        simp only [hread]
        cases ret with
        | error e =>
          -- the application is left out, and the next one takes its slot
          rw [ih (ai + 1) hloop]
          exact and_congr_left' (Data.forall_putApp_iff app _)
        | ok =>
          have hkeep : (data.keepApp app).KeysFit ↔
              data.KeysFit ∧ app.keyCount.toNat ≤ maxKeys := Data.forall_keepApp_iff hslot _
          rw [ih (ai + 1) hloop, hkeep, keyCount_pollerReadApplication_iff s fuel _ hread,
            Bool.and_eq_true, and_assoc]
    · rw [dif_neg hslot] at hrun ⊢
      cases hrun
      exact (and_iff_left rfl).symm

end Apps

def keyCountsFit (cfg : Config) (fuel : ℕ) (stale : ℕ → ℕ → Stale) (t : τ) : Bool :=
  match pollerReadPicc s cfg fuel t with
  | some ((data, .ok true), t₁) =>
    match pollerReadApplicationIds s cfg fuel t₁ with
    | some (.ok (appIds, count), t₂) =>
      appsKeysFit s fuel stale appIds count.toNat 0 { data with appCount := 0 } t₂
    | _ => true
  | _ => true

theorem Data.forall_of_empty {data : Data cfg} (h : data.appCount = 0)
    {P : Application cfg → Prop} :
    ∀ i app, i < data.appCount.toNat → data.apps.get? i = some app → P app := by
  intro i app hi
  rw [h] at hi
  exact absurd hi (Nat.not_lt_zero i)

theorem Data.valid_of_empty {data : Data cfg} (h : data.appCount = 0) : data.Valid :=
  ⟨by rw [h]; exact Nat.zero_le _, Data.forall_of_empty h⟩

theorem ensures_pollerReadFreeMemory (data : Data cfg) :
    Ensures (pollerReadFreeMemory s data) fun data' =>
      data'.appCount = data.appCount ∧ data'.apps = data.apps := by
  refine .bind_except (fun _ => .pure ⟨rfl, rfl⟩) fun rx => ?_
  refine .pure ?_
  split <;> exact ⟨rfl, rfl⟩

theorem ensures_pollerReadMasterKeySettings (data : Data cfg) :
    Ensures (pollerReadMasterKeySettings s data) fun r =>
      r.1.appCount = data.appCount ∧ r.1.apps = data.apps := by
  refine .bind_except (fun _ => .pure ⟨rfl, rfl⟩) fun rx => ?_
  refine .pure ?_
  split_ifs <;> exact ⟨rfl, rfl⟩

theorem ensures_pollerReadPicc : Ensures (pollerReadPicc s cfg fuel) fun r =>
      r.1.appCount = 0 ∧ r.1.apps = .fill _ .reset := by
  refine .bind_except (fun _ => .pure ⟨rfl, rfl⟩) fun _ => ?_
  refine .bind_except (fun _ => .pure ⟨rfl, rfl⟩) fun rx => ?_
  dsimp only
  split
  · exact .pure ⟨rfl, rfl⟩
  refine .bind_except (fun _ => .pure ⟨rfl, rfl⟩) fun version => ?_
  dsimp only
  split
  · exact .pure ⟨rfl, rfl⟩
  refine .bind (ensures_pollerReadFreeMemory s _) fun data hdata => ?_
  refine (ensures_pollerReadMasterKeySettings s data).mono fun r hr => ?_
  exact ⟨hr.1.trans hdata.1, hr.2.trans hdata.2⟩

theorem valid_pollerRead (stale : ℕ → ℕ → Stale) {data : Data cfg} {ret : Ret}
    {t t' : τ} (hread : pollerRead s cfg fuel stale t = some ((data, ret), t')) :
    data.Valid ∧ (data.KeysFit ↔ keyCountsFit s cfg fuel stale t = true) := by
  obtain ⟨⟨data₁, r⟩, t₁, hpicc, hrest⟩ := bind_eq_some hread
  have hempty : data₁.appCount = 0 := (ensures_pollerReadPicc s fuel _ _ _ hpicc).1
  have hnone : data₁.Valid ∧ (data₁.KeysFit ↔ true = true) :=
    ⟨Data.valid_of_empty hempty, iff_of_true (Data.forall_of_empty hempty) rfl⟩
  rw [keyCountsFit, hpicc]
  -- an error, a directory that is not free, and one that is
  rcases r with e | ⟨_ | _⟩
  · cases hrest
    exact hnone
  · cases hrest
    exact hnone
  · obtain ⟨ids, t₂, hids, happs⟩ := bind_eq_some hrest
    simp only [hids]
    cases ids with
    | error e =>
      cases happs
      exact hnone
    | ok x =>
      obtain ⟨appIds, count⟩ := x
      obtain ⟨data₂, hloop, heq⟩ := map_eq_some happs
      cases heq
      refine ⟨ensures_pollerReadApplications s fuel stale appIds _ 0
        (Data.valid_of_empty rfl) _ _ _ hloop, ?_⟩
      rw [keysFit_pollerReadApplications_iff s fuel stale appIds _ 0 hloop]
      exact and_iff_right (Data.forall_of_empty rfl)

def Config.maxStored (cfg : Config) : ℕ :=
  headerSize +
    cfg.maxApps * (6 + maxKeys * aesKeySize + cfg.maxFiles * (15 + cfg.maxFileSize))

section Storing

variable {data : Data cfg} {app : Application cfg} {outMax : ℕ}

theorem length_storedFiles_le (hb : app.InBounds) (n fi : ℕ) (h : fi + n ≤ cfg.maxFiles)
    (hn : fi + n ≤ app.fileCount.toNat) :
    (storedFiles app n fi h).length ≤ n * (11 + cfg.maxFileSize) := by
  induction n generalizing fi with
  | zero => simp [storedFiles]
  | succ n ih =>
    have hrow := hb.row (Config.first_file_lt h) (by omega)
    have htail := ih (fi + 1) (Config.later_files_le h) (by omega)
    rw [storedFiles, length_append, length_storedFile hrow, Nat.succ_mul]
    omega

theorem length_storedApp_le (hb : app.InBounds) :
    (storedApp app hb).length ≤
      6 + maxKeys * aesKeySize + cfg.maxFiles * (11 + cfg.maxFileSize) := by
  have hcount : 0 + app.fileCount.toNat ≤ cfg.maxFiles := by
    rw [Nat.zero_add]
    exact hb.fileCount
  have hfiles := length_storedFiles_le hb _ 0 hcount (Nat.zero_add _).le
  have hrows := Nat.mul_le_mul_right (11 + cfg.maxFileSize) hb.fileCount
  have hkeys := Nat.mul_le_mul_right aesKeySize hb.keyCount
  rw [length_storedApp hb hcount]
  omega

theorem length_storedApps_le (hb : data.InBounds) (n ai : ℕ) (h : ai + n ≤ data.appCount.toNat) :
    (storedApps data hb n ai h).length ≤
      n * (6 + maxKeys * aesKeySize + cfg.maxFiles * (11 + cfg.maxFileSize)) := by
  induction n generalizing ai with
  | zero => simp [storedApps]
  | succ n ih =>
    have htail := ih (ai + 1) (by omega)
    have hlt : ai < cfg.maxApps := by
      have := hb.appCount
      omega
    have hhead := length_storedApp_le (hb.app
      (show ((⟨ai, hlt⟩ : Fin cfg.maxApps) : ℕ) < data.appCount.toNat by
        show ai < _
        omega))
    rw [storedApps, length_append, Nat.succ_mul]
    omega

theorem length_stored_le (hb : data.InBounds) : (stored data hb).length + 4 ≤ cfg.maxStored := by
  have happs := length_storedApps_le hb data.appCount.toNat 0 (Nat.zero_add _).le
  have hcount := Nat.mul_le_mul_right
    (6 + maxKeys * aesKeySize + cfg.maxFiles * (11 + cfg.maxFileSize)) hb.appCount
  -- the four bytes that are asked for and not written, once for a file at least
  have hfour : 4 ≤ cfg.maxApps * (cfg.maxFiles * 4) :=
    Nat.mul_le_mul cfg.maxApps_range.1 (Nat.mul_le_mul_right 4 cfg.maxFiles_range.1)
  have hsplit : cfg.maxApps * (6 + maxKeys * aesKeySize + cfg.maxFiles * (15 + cfg.maxFileSize)) =
      cfg.maxApps * (6 + maxKeys * aesKeySize + cfg.maxFiles * (11 + cfg.maxFileSize)) +
        cfg.maxApps * (cfg.maxFiles * 4) := by ring
  rw [stored, length_append, length_storedHeader, Config.maxStored]
  omega

theorem keyCount_of_serializeApps (n ai : ℕ) (h : ai + n ≤ cfg.maxApps) {out bytes : Bytes}
    (hok : serializeApps data outMax n ai h out = .ok bytes) {i : ℕ} (hlo : ai ≤ i)
    (hhi : i < ai + n) (happ : data.apps.get? i = some app) : app.keyCount.toNat ≤ maxKeys := by
  induction n generalizing ai out with
  | zero => omega
  | succ n ih =>
    have hslot : ai < cfg.maxApps := by omega
    rw [serializeApps] at hok
    dsimp only at hok
    split at hok
    · split at hok
      · cases hok
      next hkeys =>
      split at hok
      · cases hok
      cases hfiles : serializeFiles _ outMax _ 0 _ _ with
      | error e =>
        rw [hfiles] at hok
        cases hok
      | ok out' =>
      rw [hfiles] at hok
      have hrest : serializeApps data outMax n (ai + 1) (by omega) out' = .ok bytes := hok
      rcases Nat.eq_or_lt_of_le hlo with rfl | hlt
      · have hget := data.apps.get?_coe ⟨ai, hslot⟩
        rw [show data.apps.get? ((⟨ai, hslot⟩ : Fin cfg.maxApps) : ℕ) = some app from happ] at hget
        cases hget
        exact Nat.not_lt.mp hkeys
      · exact ih (ai + 1) _ hrest hlt (by omega)
    · cases hok

end Storing

theorem pollerRead_storable_iff (fuel : ℕ) (stale : ℕ → ℕ → Stale) {data : Data cfg} {t t' : τ}
    (hread : pollerRead s cfg fuel stale t = some ((data, .ok ()), t')) {outMax : ℕ}
    (hroom : cfg.maxStored ≤ outMax) :
    (∃ bytes, serialize data outMax = .ok bytes) ↔ keyCountsFit s cfg fuel stale t = true := by
  obtain ⟨hvalid, hkeys⟩ := valid_pollerRead s fuel stale hread
  rw [← hkeys]
  constructor
  · rintro ⟨bytes, hok⟩ i app hi happ
    rw [serialize, dif_pos hvalid.appCount] at hok
    split at hok
    · cases hok
    · exact keyCount_of_serializeApps _ 0 _ hok (Nat.zero_le i) (by omega) happ
  · intro hfit
    have hb : data.InBounds := Data.inBounds_iff.mpr ⟨hvalid, hfit⟩
    exact ⟨stored data hb, serialize_stored hb ((length_stored_le hb).trans hroom)⟩

def piccTag (keys : UInt8) (appIds : Bytes) (more : Bytes → Bytes) : Reader.Session Unit where
  active := true
  tag := ⟨fun _ tx => some ((), .ok (
    if byteAt tx 0 = 0x00 then [0x90, 0x00]
    else if byteAt tx 1 = 0x60 then List.replicate 28 0x04 ++ [0x91, 0x00]
    else if byteAt tx 1 = 0x45 then [0x0F, keys, 0x91, 0x00]
    else if byteAt tx 1 = 0x6A then appIds ++ [0x91, 0x00]
    else more tx))⟩

def oneAppTag (keys : UInt8) : Reader.Session Unit := piccTag keys [1, 2, 3] fun _ => [0x91, 0x00]

def noStale : ℕ → ℕ → Stale := fun _ _ => ⟨⟨0, 0, 0, 0⟩, 0⟩

theorem pollerRead_one_key : ∃ data : Data .default,
      pollerRead (oneAppTag 1) .default 1 noStale () = some ((data, .ok ()), ()) ∧
        data.appCount = 1 ∧ ∃ bytes, serialize data Config.default.maxStored = .ok bytes := by
  have hrun : (pollerRead (oneAppTag 1) .default 1 noStale ()).map
      (fun r => (r.1.2.isOk, r.1.1.appCount)) = some (true, 1) := by decide +kernel
  obtain ⟨⟨⟨data, ret⟩, t'⟩, hread, heq⟩ := Option.map_eq_some_iff.mp hrun
  simp only [Prod.mk.injEq] at heq
  obtain ⟨hok, hcount⟩ := heq
  cases ret with
  | error e => cases hok
  | ok =>
    refine ⟨data, hread, hcount, ?_⟩
    exact (pollerRead_storable_iff (oneAppTag 1) 1 noStale hread le_rfl).mpr (by decide +kernel)

theorem aes_key_refused : ∃ data : Data .default,
      pollerRead (oneAppTag 0x81) .default 1 noStale () = some ((data, .ok ()), ()) ∧
        serialize data Config.default.maxStored = .error .einval := by
  have hrun : (pollerRead (oneAppTag 0x81) .default 1 noStale ()).map
      (fun r => (r.1.2.isOk, serialize r.1.1 Config.default.maxStored)) =
        some (true, .error .einval) := by decide +kernel
  obtain ⟨⟨⟨data, ret⟩, t'⟩, hread, heq⟩ := Option.map_eq_some_iff.mp hrun
  simp only [Prod.mk.injEq] at heq
  obtain ⟨hok, hser⟩ := heq
  cases ret with
  | error e => cases hok
  | ok => exact ⟨data, hread, hser⟩

end NfcStack.Desfire
