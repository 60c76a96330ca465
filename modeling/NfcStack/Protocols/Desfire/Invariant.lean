import NfcStack.Protocols.Desfire.Confinement

/-!
# The counts of the DESFire model

The handlers index the arrays of the model with the counts stored in it. `deserialize` stores a count
before it checks it; `countsInRange` describes the inputs that leave none out of range.
-/

namespace NfcStack.Desfire

open List CArray

variable {cfg : Config}

structure Application.InBounds (app : Application cfg) : Prop extends app.FilesInBounds where
  keyCount : app.keyCount.toNat ≤ maxKeys

structure Data.InBounds (m : Data cfg) : Prop where
  appCount : m.appCount.toNat ≤ cfg.maxApps
  apps : ∀ i app, i < m.appCount.toNat → m.apps.get? i = some app → app.InBounds

variable {m : Data cfg}

theorem Data.InBounds.valid (h : m.InBounds) : m.Valid where
  appCount := h.appCount
  files i app hi ha := (h.apps i app hi ha).toFilesInBounds

def skipFiles (cfg : Config) : ℕ → Bytes → Option Bytes
  | 0, rest => some rest
  | n + 1, rest =>
    if rest.length < 12 then none
    else
      let len := (le16 (byteAt rest 9) (byteAt rest 10)).toNat
      if cfg.maxFileSize < len ∨ rest.length < 11 + len then none
      else skipFiles cfg n (rest.drop (11 + len))

def appInRange (cfg : Config) (rest : Bytes) : Bool :=
  rest.length < 6 ||
    ((byteAt rest 4).toNat ≤ maxKeys && (byteAt rest 5).toNat ≤ cfg.maxFiles)

def skipApp (cfg : Config) (rest : Bytes) : Option Bytes :=
  if rest.length < 6 ∨ ¬ appInRange cfg rest then none
  else
    let keys := (byteAt rest 4).toNat * aesKeySize
    if rest.length < 6 + keys then none
    else skipFiles cfg (byteAt rest 5).toNat (rest.drop (6 + keys))

def appsInRange (cfg : Config) : ℕ → Bytes → Bool
  | 0, _ => true
  | n + 1, rest =>
    appInRange cfg rest &&
      match skipApp cfg rest with
      | none => true
      | some rest => appsInRange cfg n rest

def countsInRange (cfg : Config) (bytes : Bytes) : Bool :=
  bytes.length < headerSize || byteAt bytes 0 != formatVersion ||
    ((byteAt bytes 50).toNat ≤ cfg.maxApps &&
      appsInRange cfg (byteAt bytes 50).toNat (bytes.drop headerSize))

variable (app : Application cfg)

def Application.LensInRow : Prop :=
  ∀ j len, app.fileDataLen.get? j = some len → len.toNat ≤ cfg.maxFileSize

def Application.CountsOk : Prop :=
  app.keyCount.toNat ≤ maxKeys ∧ app.fileCount.toNat ≤ cfg.maxFiles

theorem Application.LensInRow.inBounds_iff {app : Application cfg} (h : app.LensInRow) :
    app.InBounds ↔ app.CountsOk :=
  ⟨fun hb => ⟨hb.keyCount, hb.fileCount⟩, fun hc => ⟨⟨hc.2, fun j len _ hl => h j len hl⟩, hc.1⟩⟩

theorem Application.lensInRow_reset : (Application.reset : Application cfg).LensInRow := by
  intro j len h
  have hlen := mem_of_getElem? h
  rw [eq_of_mem_replicate hlen]
  exact Nat.zero_le _

theorem Application.countsOk_reset : (Application.reset : Application cfg).CountsOk :=
  ⟨Nat.zero_le _, Nat.zero_le _⟩

theorem deserializeFiles_spec (n fi : ℕ) (h : fi + n ≤ cfg.maxFiles) (app : Application cfg)
    (rest : Bytes) (hl : app.LensInRow) :
    (deserializeFiles n fi h app rest).1.keyCount = app.keyCount ∧
      (deserializeFiles n fi h app rest).1.fileCount = app.fileCount ∧
      (deserializeFiles n fi h app rest).1.LensInRow ∧
      (deserializeFiles n fi h app rest).2.toOption = skipFiles cfg n rest := by
  induction n generalizing fi app rest with
  | zero => exact ⟨rfl, rfl, hl, rfl⟩
  | succ n ih =>
    simp only [deserializeFiles, skipFiles, length_drop, drop_drop]
    split
    · exact ⟨rfl, rfl, hl, rfl⟩
    · next h12 =>
      split
      · next hbig =>
        rw [if_pos (.inl hbig)]
        exact ⟨rfl, rfl, hl, rfl⟩
      · next hbig =>
        split
        · next hshort =>
          rw [if_pos (.inr (by omega))]
          exact ⟨rfl, rfl, hl, rfl⟩
        · next hshort =>
          rw [if_neg (by omega)]
          refine ih _ _ _ _ ?_
          intro j len hlen
          rcases get?_set_cases hlen with ⟨-, rfl⟩ | ⟨-, hold⟩
          · omega
          · exact hl j len hold

theorem deserializeApp_spec (rest : Bytes) (hl : app.LensInRow) (hc : app.CountsOk) :
    (deserializeApp app rest).1.LensInRow ∧
      ((deserializeApp app rest).1.CountsOk ↔ appInRange cfg rest) ∧
      (deserializeApp app rest).2.toOption = skipApp cfg rest := by
  unfold deserializeApp skipApp
  by_cases h6 : rest.length < 6
  · rw [if_pos h6, if_pos (.inl h6)]
    exact ⟨hl, by simp [hc, appInRange, h6], rfl⟩
  rw [if_neg h6]
  by_cases hk : maxKeys < (byteAt rest 4).toNat
  · have hr : ¬ appInRange cfg rest := by simp [appInRange, h6, Nat.not_le.mpr hk]
    rw [if_pos hk, if_pos (.inr hr)]
    refine ⟨hl, iff_of_false (fun h => ?_) hr, rfl⟩
    exact absurd h.1 (Nat.not_le.mpr hk)
  rw [if_neg hk]
  by_cases hf : (byteAt rest 5).toNat ≤ cfg.maxFiles
  · have hr : appInRange cfg rest := by simp [appInRange, Nat.not_lt.mp hk, hf]
    have hgo : ¬ (rest.length < 6 ∨ ¬ appInRange cfg rest) := by
      rw [not_or, not_not]
      exact ⟨h6, hr⟩
    rw [dif_pos hf, if_neg hgo]
    have hcounts : ∀ a : Application cfg, a.keyCount = byteAt rest 4 →
        a.fileCount = byteAt rest 5 → (a.CountsOk ↔ appInRange cfg rest) := by
      intro a hka hfa
      refine iff_of_true ⟨?_, ?_⟩ hr
      · rw [hka]; exact Nat.not_lt.mp hk
      · rw [hfa]; exact hf
    rw [length_drop]
    by_cases hs : rest.length - 6 < (byteAt rest 4).toNat * aesKeySize
    · rw [if_pos hs, if_pos (by omega)]
      exact ⟨hl, hcounts _ rfl rfl, rfl⟩
    · rw [if_neg hs, if_neg (by omega), drop_drop]
      obtain ⟨h1, h2, h3, h4⟩ := deserializeFiles_spec (byteAt rest 5).toNat 0 (by omega)
        { app with
          appId := .ofList 3 0 rest
          keySettings := byteAt rest 3
          keyCount := byteAt rest 4
          fileCount := byteAt rest 5
          keys := app.keys.write 0
            ((rest.drop 6).take ((byteAt rest 4).toNat * aesKeySize)) }
        (rest.drop (6 + (byteAt rest 4).toNat * aesKeySize)) hl
      exact ⟨h3, hcounts _ h1 h2, h4⟩
  · have hr : ¬ appInRange cfg rest := by simp [appInRange, h6, hf]
    rw [dif_neg hf, if_pos (.inr hr)]
    exact ⟨hl, iff_of_false (fun h => hf h.2) hr, rfl⟩

def Data.Tame (m : Data cfg) : Prop :=
  ∀ i app, m.apps.get? i = some app → app.LensInRow ∧ app.CountsOk

theorem Data.tame_set (h : m.Tame) {ai : ℕ} {app : Application cfg}
    (hl : app.LensInRow) (hc : app.CountsOk) : Data.Tame { m with apps := m.apps.set ai app } := by
  intro i a ha
  rcases get?_set_cases ha with ⟨-, rfl⟩ | ⟨-, hold⟩
  · exact ⟨hl, hc⟩
  · exact h i a hold

theorem deserializeApps_spec (n ai : ℕ) (h : ai + n ≤ cfg.maxApps) (m : Data cfg) (rest : Bytes)
    (hm : m.Tame) :
    (deserializeApps n ai h m rest).1.appCount = m.appCount ∧
      (appsInRange cfg n rest → (deserializeApps n ai h m rest).1.Tame) ∧
      (¬ appsInRange cfg n rest → ∃ i < ai + n, ∃ app,
        (deserializeApps n ai h m rest).1.apps.get? i = some app ∧ ¬ app.CountsOk) := by
  induction n generalizing ai m rest with
  | zero => exact ⟨rfl, fun _ => hm, fun hn => absurd rfl hn⟩
  | succ n ih =>
    obtain ⟨hl, hc⟩ := hm ai _ (m.apps.get?_coe ⟨ai, by omega⟩)
    obtain ⟨hl', hc', hskip⟩ := deserializeApp_spec _ rest hl hc
    simp only [deserializeApps, appsInRange, Bool.and_eq_true]
    rcases hread : deserializeApp (m.apps.get ⟨ai, by omega⟩) rest with ⟨app, r⟩
    rw [hread] at hl' hc' hskip
    cases r with
    | error e =>
      rw [← hskip]
      refine ⟨rfl, fun hr => Data.tame_set hm hl' (hc'.mpr hr.1), fun hr => ?_⟩
      refine ⟨ai, by omega, app, get?_set_self _ (by omega) _, fun hok => ?_⟩
      exact hr ⟨hc'.mp hok, rfl⟩
    | ok rest' =>
      -- reading went on, so the counts of this application were in range
      have hr : appInRange cfg rest := by
        by_contra hn
        simp [skipApp, hn, Except.toOption] at hskip
      rw [← hskip]
      obtain ⟨h1, h2, h3⟩ := ih (ai + 1) (by omega) { m with apps := m.apps.set ai app } rest'
        (Data.tame_set hm hl' (hc'.mpr hr))
      refine ⟨h1, fun hall => h2 hall.2, fun hn => ?_⟩
      obtain ⟨i, hi, a, ha⟩ := h3 fun hall => hn ⟨hr, hall⟩
      exact ⟨i, by omega, a, ha⟩

theorem Data.tame_of_apps_reset (h : m.apps = .fill _ .reset) : m.Tame := by
  intro i app ha
  rw [h] at ha
  rw [eq_of_mem_replicate (mem_of_getElem? ha)]
  exact ⟨Application.lensInRow_reset, Application.countsOk_reset⟩

theorem Data.Tame.inBounds (h : m.Tame) (hc : m.appCount.toNat ≤ cfg.maxApps) : m.InBounds :=
  ⟨hc, fun i app _ ha => (h i app ha).1.inBounds_iff.mpr (h i app ha).2⟩

theorem deserialize_inBounds_iff (bytes : Bytes) :
    (deserialize bytes : Data cfg × Ret).1.InBounds ↔ countsInRange cfg bytes := by
  have hreset : (Data.reset : Data cfg).InBounds :=
    (Data.tame_of_apps_reset rfl).inBounds (Nat.zero_le _)
  unfold deserialize countsInRange
  by_cases hlen : bytes.length < headerSize
  · simp [hlen, hreset]
  by_cases hver : byteAt bytes 0 ≠ formatVersion
  · simp [hlen, hver, hreset]
  have hcount : (readHeader bytes : Data cfg).appCount = byteAt bytes 50 := rfl
  rw [if_neg hlen, if_neg hver]
  simp only [hcount]
  by_cases happ : (byteAt bytes 50).toNat ≤ cfg.maxApps
  · rw [dif_pos happ]
    obtain ⟨h1, h2, h3⟩ := deserializeApps_spec (byteAt bytes 50).toNat 0 (by omega)
      (readHeader bytes : Data cfg) (bytes.drop headerSize) (Data.tame_of_apps_reset rfl)
    rw [hcount] at h1
    have key : (deserializeApps (byteAt bytes 50).toNat 0 (by omega)
        (readHeader bytes : Data cfg) (bytes.drop headerSize)).1.InBounds ↔
          appsInRange cfg (byteAt bytes 50).toNat (bytes.drop headerSize) := by
      refine ⟨fun hb => ?_, fun hr => (h2 hr).inBounds ?_⟩
      · by_contra hr
        obtain ⟨i, hi, app, ha, hbad⟩ := h3 hr
        have := hb.apps i app (by rw [h1]; omega) ha
        exact hbad ⟨this.keyCount, this.fileCount⟩
      · rw [h1]
        exact happ
    split <;> simp_all
  · rw [dif_neg happ]
    simp only [ne_eq, not_not] at hver
    simp only [hlen, hver, happ, bne_self_eq_false, decide_false, Bool.or_false, Bool.false_and]
    exact iff_of_false (fun hb => happ hb.appCount) Bool.false_ne_true

structure Session.Ok (s : Session) : Prop where
  frame : s.pendingCmd = .getVersion → s.pendingFrame.toNat ≤ 2
  offset : ∀ kind : ReadKind, s.pendingCmd = kind.pending → maxChunk ≤ s.pendingOffset.toNat

theorem Session.ok_of_pending_none {s : Session} (h : s.pendingCmd = .none) : s.Ok where
  frame hp := by rw [h] at hp; cases hp
  offset kind hp := by rw [h] at hp; cases kind <;> cases hp

theorem Session.ok_reset (s : Session) : s.reset.Ok := ok_of_pending_none rfl

section Commands

variable {m : Data cfg} {s : Session}

theorem collectIds_isSome (size : ℕ) (item : ℕ → Option Bytes) (n i : ℕ) (out : Bytes)
    (h : ∀ j < i + n, ∃ id, item j = some id) : ∃ r, collectIds size item n i out = some r := by
  induction n generalizing i out with
  | zero => exact ⟨_, rfl⟩
  | succ n ih =>
    obtain ⟨id, hid⟩ := h i (by omega)
    simp only [collectIds, hid]
    split
    · exact ⟨_, rfl⟩
    · exact ih (i + 1) _ fun j hj => h j (by omega)

theorem sendVersionFrame_ok (hp : s.pendingCmd = .getVersion) (hf : s.pendingFrame.toNat ≤ 2) :
    ∃ s' resp, sendVersionFrame s = some (s', resp) ∧ s'.Ok := by
  unfold sendVersionFrame
  by_cases hmore : (s.pendingFrame == 0 || s.pendingFrame == 1) = true
  · have hlt : s.pendingFrame.toNat ≤ 1 := by
      rcases Bool.or_eq_true _ _ ▸ hmore with h | h <;> rw [eq_of_beq h] <;> decide
    simp only [hmore, if_true]
    rw [read?_of_le _ (by omega)]
    refine ⟨_, _, rfl, fun _ => ?_, fun kind hk => ?_⟩
    · have : (1 : UInt8).toNat = 1 := rfl
      rw [UInt8.toNat_add]
      omega
    · rw [hp] at hk
      cases kind <;> cases hk
  · simp only [hmore, Bool.false_eq_true, if_false]
    rw [read?_of_le _ (by omega)]
    exact ⟨_, _, rfl, Session.ok_of_pending_none rfl⟩

theorem cmdGetVersion_ok (m : Data cfg) (hs : s.Ok) :
    ∃ s' resp, cmdGetVersion m s = some (s', resp) ∧ s'.Ok := by
  unfold cmdGetVersion startVersion
  split
  · exact sendVersionFrame_ok rfl (Nat.zero_le _)
  · next hp => exact sendVersionFrame_ok (not_not.mp hp) (hs.frame (not_not.mp hp))

theorem command_isSome (hm : m.Valid) (hs : s.Ok) (c : Command) (apdu : Apdu)
    (hc : c.readKind? s = none) : ∃ r, command c m s apdu = some r := by
  have hversion : ∃ r, cmdGetVersion m s = some r := by
    obtain ⟨s', resp, h, -⟩ := cmdGetVersion_ok m hs
    exact ⟨_, h⟩
  cases c with
  | getVersion => exact hversion
  | getFreeMemory => exact ⟨_, rfl⟩
  | getKeySettings =>
    obtain ⟨r, hr⟩ := selectedApp_isSome (s := s) hm.appCount
    simp only [command, cmdGetKeySettings, hr]
    cases r <;> exact ⟨_, rfl⟩
  | getApplicationIds =>
    obtain ⟨r, hr⟩ := collectIds_isSome 3 (fun i => (m.apps.get? i).map (·.appId.toList))
      m.appCount.toNat 0 [] (by
        intro j hj
        obtain ⟨app, happ⟩ := (m.apps.get?_eq_some_iff j).mpr (by have := hm.appCount; omega)
        exact ⟨_, by rw [happ]; rfl⟩)
    simp only [command, cmdGetApplicationIds, hr]
    exact ⟨_, rfl⟩
  | getFileIds =>
    obtain ⟨r, hr⟩ := selectedApp_isSome (s := s) hm.appCount
    simp only [command, cmdGetFileIds, hr]
    cases r with
    | none => exact ⟨_, rfl⟩
    | some app =>
      obtain ⟨i, hi, happ⟩ := selectedApp_eq_some hr
      have hf := (hm.files i app hi happ).fileCount
      obtain ⟨q, hq⟩ := collectIds_isSome 1 (fun i => (app.fileIds.get? i).map ([·]))
        app.fileCount.toNat 0 [] (by
          intro j hj
          obtain ⟨id, hid⟩ := (app.fileIds.get?_eq_some_iff j).mpr (by omega)
          exact ⟨_, by rw [hid]; rfl⟩)
      simp only [hq]
      exact ⟨_, rfl⟩
  | getFileSettings =>
    obtain ⟨r, hr⟩ := addressedFile_isSome hm Status.appNotFound 1 s apdu
    simp only [command, cmdGetFileSettings, hr]
    cases r with
    | error sw2 => exact ⟨_, rfl⟩
    | ok f =>
      dsimp only
      split <;> exact ⟨_, rfl⟩
  | getKeyVersion =>
    simp only [command, cmdGetKeyVersion]
    repeat' split
    all_goals exact ⟨_, rfl⟩
  | selectApplication =>
    obtain ⟨r, hr⟩ := m.apps.findFrom_isSome (fun app => apdu.data.take 3 == app.appId.toList)
      m.appCount.toNat 0 (by have := hm.appCount; omega)
    simp only [command, cmdSelectApplication, hr]
    split
    · exact ⟨_, rfl⟩
    · cases r <;> exact ⟨_, rfl⟩
  | getValue =>
    obtain ⟨r, hr⟩ := addressedFile_isSome hm Status.permissionDenied 1 s apdu
    simp only [command, cmdGetValue, hr]
    cases r with
    | error sw2 => exact ⟨_, rfl⟩
    | ok f =>
      dsimp only
      repeat' split
      · exact ⟨_, rfl⟩
      · exact ⟨_, rfl⟩
      · exact ⟨_, rfl⟩
      · next h4 =>
        have hrow := dataLen_le_of_addressed hm hr
        have h4 : 4 ≤ f.dataLen.toNat := by
          exact Nat.not_lt.mp h4
        exact ⟨_, by rw [read?_eq_contents hrow (by omega)]; rfl⟩
  | authenticate =>
    simp only [command, cmdAuthenticate]
    split <;> exact ⟨_, rfl⟩
  | additionalFrame =>
    simp only [command]
    split
    · exact hversion
    · next hp => simp [Command.readKind?, hp] at hc
    · next hp => simp [Command.readKind?, hp] at hc
    · exact ⟨_, rfl⟩
  | readData | readRecords => simp [Command.readKind?] at hc

theorem SessionStep.ok {c : Command} {apdu : Apdu} {s' : Session} (h : SessionStep c m s apdu s')
    (hs : s.Ok) (hc : c.readKind? s = none) : s'.Ok := by
  cases h with
  | same => exact hs
  | version hv =>
    obtain ⟨s₁, resp, heq, hok⟩ := cmdGetVersion_ok m hs
    cases hv.symm.trans heq
    exact hok
  | select i => exact Session.ok_of_pending_none rfl
  | authenticate => exact ⟨hs.frame, hs.offset⟩
  | read hk => cases hc.symm.trans hk

theorem afterRead_ok {kind : ReadKind} {apdu : Apdu} {f : FileRef cfg} (hm : m.Valid)
    (h : readRequest kind m s apdu = some (.ok f))
    (hw : WindowInside f (readWindow kind s f apdu)) :
    (afterRead kind s apdu (readWindow kind s f apdu)).Ok := by
  have hrow := dataLen_le_of_addressed hm (readRequest_eq_ok h).1
  have hsize := cfg.maxFileSize_range.2
  unfold WindowInside at hw
  simp only [afterRead]
  split
  · refine ⟨fun hp => ?_, fun _ _ => ?_⟩
    · cases kind <;> cases hp
    · -- the offset is at most 256, so neither the sum nor the cast loses bits
      have h253 : (UInt32.ofNat maxChunk).toNat = maxChunk := rfl
      simp only [UInt32.toNat_toUInt16, UInt32.toNat_add, h253]
      omega
  · exact Session.ok_of_pending_none rfl

end Commands

variable (st : State cfg)

def ReadsInRow (e : ReaderEvent) : Prop :=
  ∀ apdu kind f, e = .apdu apdu → st.readKind? apdu = some kind →
    readRequest kind st.model st.session apdu = some (.ok f) →
    (readWindow kind st.session f apdu).1.toNat + chunkLen (readWindow kind st.session f apdu) ≤
      cfg.maxFileSize

def StaysInModel (e : Event cfg) (out : Option (State cfg × Option Bytes)) : Prop :=
  (∃ st' o, out = some (st', o) ∧ st'.model.InBounds) ∧ ∀ re, e = .reader re → ReadsInRow st re

def EventInRange (e : Event cfg) (_out : Option (State cfg × Option Bytes)) : Prop :=
  match e with
  | .init model => ∀ m, model = some m → m.InBounds
  | .shutdown => True
  | .deserialize bytes => countsInRange cfg bytes
  | .reader re => ResumesInside st re none

structure State.Ok (st : State cfg) : Prop where
  model : st.model.InBounds
  session : st.session.Ok

theorem Data.inBounds_of_no_apps (h : m.appCount = 0) : m.InBounds where
  appCount := by rw [h]; exact Nat.zero_le _
  apps i app hi := by
    rw [h] at hi
    exact absurd hi (Nat.not_lt_zero i)

theorem State.ok_boot : (State.boot : State cfg).Ok where
  model := Data.inBounds_of_no_apps rfl
  session := Session.ok_of_pending_none rfl

variable {st : State cfg}

theorem readsInRow_iff (hst : st.Ok) (e : ReaderEvent) :
    ReadsInRow st e ↔ ResumesInside st e none := by
  have hmax : maxChunk = 253 := rfl
  have hsize := cfg.maxFileSize_range.2
  constructor
  · intro h apdu kind f he hk hf hp
    by_contra hlt
    have hrow := h apdu kind f he hk hf
    have hoff := hst.session.offset kind hp
    have hwrap := resumedLength_toNat st.session.pendingOffset f.dataLen (by
      rw [UInt16.lt_iff_toNat_lt]
      omega)
    rw [readWindow, if_pos hp, chunkLen, hwrap, UInt16.toNat_toUInt32] at hrow
    omega
  · intro h apdu kind f he hk hf
    have hw := (windowInside_iff hf).mpr (h apdu kind f he hk hf)
    have hle := dataLen_le_of_addressed hst.model.valid (readRequest_eq_ok hf).1
    unfold WindowInside at hw
    unfold chunkLen
    omega

theorem reader_step_ok (hst : st.Ok) {e : ReaderEvent} (h : ResumesInside st e none) :
    ∃ st' o, reader.step st e = some (st', o) ∧ st'.Ok := by
  have hv := hst.model.valid
  cases e with
  | select | deselect | fieldOff => exact ⟨_, _, rfl, hst.model, st.session.ok_reset⟩
  | apdu a =>
    suffices ∃ st' resp, onApdu st a = some (st', resp) ∧ st'.Ok by
      obtain ⟨st', resp, hr, hok⟩ := this
      exact ⟨st', some resp, by simp only [reader, hr, Option.map_some], hok⟩
    cases hc : st.command? a with
    | none => exact ⟨st, _, onApdu_of_command?_none hc, hst⟩
    | some c =>
      rw [onApdu_of_command? hc]
      cases hk : c.readKind? st.session with
      | none =>
        obtain ⟨r, hr⟩ := command_isSome hv hst.session c a hk
        have hok := (command_cases hr).1.ok hst.session hk
        exact ⟨{ st with session := r.1 }, r.2, by rw [hr]; rfl, hst.model, hok⟩
      | some kind =>
        have hkind : st.readKind? a = some kind := by simp [State.readKind?, hc, hk]
        obtain ⟨r, hr⟩ := readRequest_isSome hv kind st.session a
        rw [command_of_readKind? a hk]
        cases r with
        | error sw2 => exact ⟨st, _, by simp only [cmdReadFile, hr]; rfl, hst⟩
        | ok f =>
          have hw := (windowInside_iff hr).mpr (h a kind f rfl hkind hr)
          rw [cmdReadFile_of_inside hv hr hw]
          exact ⟨_, _, rfl, hst.model, afterRead_ok hv hr hw⟩

theorem listener_step_ok (hst : st.Ok) {e : Event cfg}
    (h : EventInRange st e none) : ∃ st' o, listener.step st e = some (st', o) ∧ st'.Ok := by
  cases e with
  | init model =>
    refine ⟨_, _, rfl, ?_, st.session.ok_reset⟩
    cases model with
    | none => exact Data.inBounds_of_no_apps rfl
    | some m => exact h m rfl
  | shutdown => exact ⟨_, _, rfl, hst.model, st.session.ok_reset⟩
  | deserialize bytes =>
    exact ⟨_, _, rfl, (deserialize_inBounds_iff bytes).mpr h, st.session.ok_reset⟩
  | reader re => exact reader_step_ok hst h

theorem staysInModel_iff (hst : st.Ok) (e : Event cfg) :
    StaysInModel st e (listener.step st e) ↔ EventInRange st e (listener.step st e) := by
  constructor
  · rintro ⟨⟨st', o, hstep, hb⟩, hrow⟩
    cases e with
    | init model =>
      rintro m rfl
      cases hstep
      exact hb
    | shutdown => trivial
    | deserialize bytes =>
      cases hstep
      exact (deserialize_inBounds_iff bytes).mp hb
    | reader re => exact (readsInRow_iff hst re).mp (hrow re rfl)
  · intro h
    obtain ⟨st', o, hstep, hok⟩ := listener_step_ok hst h
    refine ⟨⟨st', o, hstep, hok.model⟩, ?_⟩
    rintro re rfl
    exact (readsInRow_iff hst re).mpr h

/-- From boot, the listener keeps the counts of its model within their maxima and no command
indexes outside the arrays of the model, if and only if every model given to it is within its
maxima, every stored card given to it has its counts in range as far as it is read, and no read
takes up an offset greater than `file_data_len` of the file it names. -/
theorem listener_safe_iff (es : List (Event cfg)) :
    listener.Always StaysInModel .boot es ↔ listener.Always EventInRange .boot es :=
  listener.always_iff (fun _ e hst => staysInModel_iff hst e)
    (fun st e st' o hst h hstep => by
      obtain ⟨t, o', ht, hok⟩ := listener_step_ok hst h
      rw [hstep] at ht
      cases ht
      exact hok) State.ok_boot

def fiveAppsHeader : Bytes := [formatVersion] ++ List.replicate 49 0 ++ [5]

/-- `deserialize` rejects the header but the count stays in the model, and the next
GET_APPLICATION_IDS indexes the application array outside its bounds. -/
theorem rejected_count_stays :
    (deserialize fiveAppsHeader : Data .default × Ret).2 = .error .ebadmsg ∧
      ¬ listener.Always StaysInModel (.boot : State .default)
        [.init none, .deserialize fiveAppsHeader, .reader (.apdu (nativeApdu 0x6A []))] ∧
      listener.run (.boot : State .default)
        [.init none, .deserialize fiveAppsHeader, .reader (.apdu (nativeApdu 0x6A []))] = none := by
  refine ⟨by decide +kernel, fun h => ?_, by decide +kernel⟩
  obtain ⟨⟨st', o, hstep, hb⟩, -⟩ := (h.2 _ _ rfl).1
  have hcount := hb.appCount
  cases hstep
  revert hcount
  decide +kernel

end NfcStack.Desfire
