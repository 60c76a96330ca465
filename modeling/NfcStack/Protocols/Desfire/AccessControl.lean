import NfcStack.Protocols.Desfire.Invariant

/-!
# Which file contents a DESFire session reveals

Two cards that agree except for the contents of some files, under the same reader session. A file is
protected by its communication mode alone.
-/

namespace NfcStack.Desfire

open CArray

variable {cfg : Config}

/-- The file is not to be read without authentication: its access rights do not grant free read,
or its communication mode is not plain. -/
def FileSettings.Protected (fs : FileSettings) : Prop :=
  accessFreeRead fs.accessRights = false ∨ fs.comm ≠ .plain

structure Application.AgreeOutside (P : FileSettings → Prop) (a b : Application cfg) : Prop where
  others : b = { a with fileData := b.fileData }
  rows : ∀ j : Fin cfg.maxFiles, ¬ P (a.fileSettings.get j) →
    a.fileData.slice (j * cfg.maxFileSize) cfg.maxFileSize =
      b.fileData.slice (j * cfg.maxFileSize) cfg.maxFileSize

structure Data.AgreeOutside (P : FileSettings → Prop) (m n : Data cfg) : Prop where
  others : n = { m with apps := n.apps }
  apps : ∀ i : Fin cfg.maxApps, (m.apps.get i).AgreeOutside P (n.apps.get i)

section Agree

variable {P : FileSettings → Prop} {m n : Data cfg} {s : Session} {apdu : Apdu}
  (h : m.AgreeOutside P n)

include h

theorem Data.AgreeOutside.get? (i : ℕ) :
    (m.apps.get? i = none ∧ n.apps.get? i = none) ∨
      ∃ a b, m.apps.get? i = some a ∧ n.apps.get? i = some b ∧ a.AgreeOutside P b := by
  by_cases hi : i < cfg.maxApps
  · exact .inr ⟨_, _, m.apps.get?_coe ⟨i, hi⟩, n.apps.get?_coe ⟨i, hi⟩, h.apps ⟨i, hi⟩⟩
  · refine .inl ⟨?_, ?_⟩ <;> exact List.getElem?_eq_none (by simpa using hi)

theorem Data.AgreeOutside.map_get? {β : Type} {g : Application cfg → β}
    (hg : ∀ a d, g { a with fileData := d } = g a) (i : ℕ) :
    (m.apps.get? i).map g = (n.apps.get? i).map g := by
  rcases h.get? i with ⟨hm, hn⟩ | ⟨a, b, hm, hn, hab⟩
  · rw [hm, hn]
  · rw [hm, hn, hab.others]
    exact congrArg some (hg a _).symm

theorem Data.AgreeOutside.selectedApp (s : Session) :
    (Desfire.selectedApp m s = none ∧ Desfire.selectedApp n s = none) ∨
      (Desfire.selectedApp m s = some none ∧ Desfire.selectedApp n s = some none) ∨
      ∃ a b, Desfire.selectedApp m s = some (some a) ∧ Desfire.selectedApp n s = some (some b) ∧
        a.AgreeOutside P b := by
  have hcount : n.appCount = m.appCount := by rw [h.others]
  unfold Desfire.selectedApp
  rw [hcount]
  split
  · exact .inr (.inl ⟨rfl, rfl⟩)
  · rcases h.get? s.selectedApp.toInt.toNat with ⟨hm, hn⟩ | ⟨a, b, hm, hn, hab⟩
    · exact .inl ⟨by rw [hm]; rfl, by rw [hn]; rfl⟩
    · exact .inr (.inr ⟨a, b, by rw [hm]; rfl, by rw [hn]; rfl, hab⟩)

theorem Data.AgreeOutside.addressedFile (s : Session) (apdu : Apdu) (noApp : UInt8) (minLc : ℕ) :
    Desfire.addressedFile noApp minLc m s apdu = Desfire.addressedFile noApp minLc n s apdu ∨
      ∃ a b i, Desfire.addressedFile noApp minLc m s apdu = some (.ok ⟨a, i⟩) ∧
        Desfire.addressedFile noApp minLc n s apdu = some (.ok ⟨b, i⟩) ∧ a.AgreeOutside P b := by
  unfold Desfire.addressedFile
  rcases h.selectedApp s with ⟨hm, hn⟩ | ⟨hm, hn⟩ | ⟨a, b, hm, hn, hab⟩
  · exact .inl (by rw [hm, hn])
  · exact .inl (by rw [hm, hn])
  · have hfind : findFile b (byteAt apdu.data 0) = findFile a (byteAt apdu.data 0) := by
      rw [hab.others]
      rfl
    rw [hm, hn]
    simp only [hfind]
    split
    · exact .inl rfl
    · cases hf : findFile a (byteAt apdu.data 0) with
      | none => exact .inl rfl
      | some r =>
        cases r with
        | none => exact .inl rfl
        | some i =>
          by_cases hi : i < cfg.maxFiles
          · simp only [hi, dif_pos]
            exact .inr ⟨a, b, ⟨i, hi⟩, rfl, rfl, hab⟩
          · exact .inl (by simp [hi])

omit h

theorem Application.AgreeOutside.settings {a b : Application cfg} (h : a.AgreeOutside P b)
    (i : Fin cfg.maxFiles) :
    (FileRef.mk b i).settings = (FileRef.mk a i).settings ∧
      (FileRef.mk b i).dataLen = (FileRef.mk a i).dataLen := by
  rw [h.others]
  exact ⟨rfl, rfl⟩

theorem Application.AgreeOutside.read? {a b : Application cfg} (h : a.AgreeOutside P b)
    {i : Fin cfg.maxFiles} (hP : ¬ P (FileRef.mk a i).settings) {off len : ℕ}
    (hrow : off + len ≤ cfg.maxFileSize) :
    (FileRef.mk a i).read? off len = (FileRef.mk b i).read? off len := by
  have heq := h.rows i hP
  simp only [FileRef.read?, CArray.read?]
  rw [← slice_slice a.fileData hrow, ← slice_slice b.fileData hrow, heq]

end Agree

def FileSettings.ProtectedNotPlain (fs : FileSettings) : Prop := fs.Protected ∧ fs.comm ≠ .plain

section TwoCards

variable {m n : Data cfg} {s : Session}

theorem not_protectedNotPlain_of_auth (hs : s.authState ≠ .authenticated) {fs : FileSettings}
    (h : checkFileAuth s fs) : ¬ fs.ProtectedNotPlain := by
  intro hp
  simp only [checkFileAuth, Bool.or_eq_true, beq_iff_eq] at h
  exact h.elim hp.2 hs

variable (h : m.AgreeOutside FileSettings.ProtectedNotPlain n)

include h

theorem readRequest_agree (kind : ReadKind) (s : Session) (apdu : Apdu) :
    readRequest kind m s apdu = readRequest kind n s apdu ∨
      ∃ a b i, readRequest kind m s apdu = some (.ok ⟨a, i⟩) ∧
        readRequest kind n s apdu = some (.ok ⟨b, i⟩) ∧
        a.AgreeOutside FileSettings.ProtectedNotPlain b := by
  unfold readRequest
  rcases h.addressedFile s apdu Status.permissionDenied 7 with heq | ⟨a, b, i, hm, hn, hab⟩
  · exact .inl (by rw [heq])
  · rw [hm, hn]
    simp only [(hab.settings i).1, (hab.settings i).2]
    split
    · exact .inl rfl
    · split
      · exact .inl rfl
      · split
        · exact .inl rfl
        · exact .inr ⟨a, b, i, rfl, rfl, hab⟩

theorem cmdReadFile_agree (hs : s.authState ≠ .authenticated) {kind : ReadKind} {apdu : Apdu}
    (hrow : ∀ f, readRequest kind m s apdu = some (.ok f) →
      (readWindow kind s f apdu).1.toNat + chunkLen (readWindow kind s f apdu) ≤
        cfg.maxFileSize) : cmdReadFile kind m s apdu = cmdReadFile kind n s apdu := by
  unfold cmdReadFile
  rcases readRequest_agree h kind s apdu with heq | ⟨a, b, i, hm, hn, hab⟩
  · rcases hm : readRequest kind m s apdu with _ | r
    · rw [← heq, hm]
    · cases r with
      | error sw2 => rw [← heq, hm]
      | ok f => rw [← heq, hm]
  · have hauth := (readRequest_eq_ok hm).2.2.1
    have hle := hrow _ hm
    rw [hm, hn]
    have hw : readWindow kind s ⟨b, i⟩ apdu = readWindow kind s ⟨a, i⟩ apdu := by
      rw [readWindow, readWindow, (hab.settings i).2]
    simp only [hw]
    generalize readWindow kind s ⟨a, i⟩ apdu = w at hle ⊢
    have hchunk : (if maxChunk < w.2.toNat then maxChunk else w.2.toNat) = chunkLen w := by
      unfold chunkLen
      split <;> omega
    rw [hchunk, hab.read? (not_protectedNotPlain_of_auth hs hauth) hle]

theorem command_agree (hs : s.authState ≠ .authenticated) (c : Command) (apdu : Apdu)
    (hrow : ∀ kind f, c.readKind? s = some kind → readRequest kind m s apdu = some (.ok f) →
      (readWindow kind s f apdu).1.toNat + chunkLen (readWindow kind s f apdu) ≤
        cfg.maxFileSize) : command c m s apdu = command c n s apdu := by
  have hread : ∀ kind, c.readKind? s = some kind →
      cmdReadFile kind m s apdu = cmdReadFile kind n s apdu :=
    fun kind hk => cmdReadFile_agree h hs fun f => hrow kind f hk
  have hver : cmdGetVersion m s = cmdGetVersion n s := by
    rw [h.others]
    rfl
  cases c with
  | getVersion => exact hver
  | getFreeMemory =>
    rw [h.others]
    rfl
  | getKeySettings =>
    simp only [command, cmdGetKeySettings]
    rcases h.selectedApp s with ⟨hm, hn⟩ | ⟨hm, hn⟩ | ⟨a, b, hm, hn, hab⟩
    · rw [hm, hn]
    · rw [hm, hn, h.others]
    · rw [hm, hn, hab.others]
  | getApplicationIds =>
    have hcount : n.appCount = m.appCount := by rw [h.others]
    have hids : (fun i => (m.apps.get? i).map (·.appId.toList)) =
        fun i => (n.apps.get? i).map (·.appId.toList) :=
      funext fun i => h.map_get? (fun _ _ => rfl) i
    simp only [command, cmdGetApplicationIds, hids, hcount]
  | getFileIds =>
    simp only [command, cmdGetFileIds]
    rcases h.selectedApp s with ⟨hm, hn⟩ | ⟨hm, hn⟩ | ⟨a, b, hm, hn, hab⟩
    · rw [hm, hn]
    · rw [hm, hn]
    · rw [hm, hn, hab.others]
  | getFileSettings =>
    simp only [command, cmdGetFileSettings]
    rcases h.addressedFile s apdu Status.appNotFound 1 with heq | ⟨a, b, i, hm, hn, hab⟩
    · rw [heq]
    · rw [hm, hn]
      simp only [(hab.settings i).1]
  | getKeyVersion => rfl
  | selectApplication =>
    have hcount : n.appCount = m.appCount := by rw [h.others]
    have hfind := findFrom_congr
      (h.map_get? (g := fun app => apdu.data.take 3 == app.appId.toList) fun _ _ => rfl)
      m.appCount.toNat 0
    simp only [command, cmdSelectApplication, hfind, hcount]
  | readData => exact hread .data rfl
  | getValue =>
    have hsize := cfg.maxFileSize_range.1
    simp only [command, cmdGetValue]
    rcases h.addressedFile s apdu Status.permissionDenied 1 with heq | ⟨a, b, i, hm, hn, hab⟩
    · rw [heq]
    · rw [hm, hn]
      simp only [(hab.settings i).1, (hab.settings i).2]
      by_cases hauth : checkFileAuth s (FileRef.mk a i).settings = true
      · rw [hab.read? (not_protectedNotPlain_of_auth hs hauth) (by omega)]
      · simp only [hauth, Bool.false_eq_true, not_false_eq_true, if_true]
  | readRecords => exact hread .records rfl
  | authenticate =>
    rw [h.others]
    rfl
  | additionalFrame =>
    simp only [command]
    cases hp : s.pendingCmd with
    | none => rfl
    | getVersion => exact hver
    | readData => exact hread .data (by simp [Command.readKind?, hp])
    | readRecords => exact hread .records (by simp [Command.readKind?, hp])

omit h

end TwoCards

theorem sendVersionFrame_authState {s s' : Session} {resp : Bytes}
    (h : sendVersionFrame s = some (s', resp)) : s'.authState = s.authState := by
  unfold sendVersionFrame at h
  dsimp only at h
  split at h
  · cases h
  · split at h <;> cases h <;> rfl

theorem cmdGetVersion_authState {m : Data cfg} {s s' : Session} {resp : Bytes}
    (h : cmdGetVersion m s = some (s', resp)) : s'.authState = s.authState := by
  rw [sendVersionFrame_authState h]
  unfold startVersion
  split <;> rfl

theorem afterRead_authState (kind : ReadKind) (s : Session) (apdu : Apdu)
    (window : UInt32 × UInt32) : (afterRead kind s apdu window).authState = s.authState := by
  simp only [afterRead]
  split <;> split <;> rfl

theorem SessionStep.authState {c : Command} {m : Data cfg} {s s' : Session} {apdu : Apdu}
    (h : SessionStep c m s apdu s') (hs : s.authState ≠ .authenticated) :
    s'.authState ≠ .authenticated := by
  cases h with
  | same => exact hs
  | version hv =>
    rw [cmdGetVersion_authState hv]
    exact hs
  | select i => exact AuthState.noConfusion
  | authenticate => exact AuthState.noConfusion
  | read hk hr =>
    rw [afterRead_authState]
    exact hs

/-- Two listeners in the same session, without authentication, that emulate cards which differ
at most in the contents of files with the property `P`. -/
structure State.AgreeOutside (P : FileSettings → Prop) (st tt : State cfg) : Prop where
  model : st.model.AgreeOutside P tt.model
  initialized : tt.initialized = st.initialized
  session : tt.session = st.session
  authState : st.session.authState ≠ .authenticated

theorem onApdu_agree {st tt : State cfg} (h : st.AgreeOutside FileSettings.ProtectedNotPlain tt)
    {apdu : Apdu} (hrow : ReadsInRow st (.apdu apdu)) :
    Machine.Matches (State.AgreeOutside FileSettings.ProtectedNotPlain) (onApdu st apdu)
      (onApdu tt apdu) := by
  have hcmd : tt.command? apdu = st.command? apdu := by
    rw [State.command?, State.command?, h.initialized]
  cases hc : st.command? apdu with
  | none =>
    rw [onApdu_of_command?_none hc, onApdu_of_command?_none (hcmd.trans hc)]
    exact Machine.Matches.some _ h
  | some c =>
    rw [onApdu_of_command? hc, onApdu_of_command? (hcmd.trans hc), h.session,
      ← command_agree h.model h.authState c apdu fun kind f hk hf =>
        hrow apdu kind f rfl (by simp [State.readKind?, hc, hk]) hf]
    cases hr : command c st.model st.session apdu with
    | none => exact Machine.Matches.none
    | some r =>
      exact Machine.Matches.some r.2
        ⟨h.model, h.initialized, rfl, (command_cases hr).1.authState h.authState⟩

theorem reader_step_agree {st tt : State cfg} {e : ReaderEvent}
    (h : st.AgreeOutside FileSettings.ProtectedNotPlain tt) (hrow : ReadsInRow st e) :
    Machine.Matches (State.AgreeOutside FileSettings.ProtectedNotPlain) (reader.step st e)
      (reader.step tt e) := by
  have hreset : State.AgreeOutside FileSettings.ProtectedNotPlain st.resetSession
      tt.resetSession := by
    refine ⟨h.model, h.initialized, ?_, AuthState.noConfusion⟩
    rw [State.resetSession, State.resetSession, h.session]
  cases e with
  | select => exact Machine.Matches.some _ hreset
  | deselect => exact Machine.Matches.some _ hreset
  | fieldOff => exact Machine.Matches.some _ hreset
  | apdu a => exact (onApdu_agree h hrow).map fun resp => some resp

/-- Two cards that differ only in the contents of protected files whose communication mode is
not plain give the same responses to every unauthenticated reader session in which every read
takes its data from the row of the file it names. -/
theorem outputs_eq_of_agreeOutside (st : State cfg) (n : Data cfg)
    (hd : st.model.AgreeOutside FileSettings.ProtectedNotPlain n)
    (hauth : st.session.authState ≠ .authenticated) (es : List ReaderEvent)
    (hrow : reader.Always (fun st e _ => ReadsInRow st e) st es) :
    reader.outputs st es = reader.outputs { st with model := n } es :=
  reader.outputs_eq reader (fun _ _ _ h hrow => reader_step_agree h hrow)
    ⟨hd, rfl, rfl, hauth⟩ hrow

/-! ### A file that nobody may read without authentication

The only file of the card has no free-read nibble in its access rights and holds one byte. -/

variable (comm : Comm)

def secretSettings : FileSettings := { FileSettings.reset with comm }

def secretApp (b : UInt8) : Application .default :=
  { (Application.reset : Application .default) with
    fileCount := 1
    fileIds := .ofList 8 0 [1]
    fileSettings := .ofList 8 .reset [secretSettings comm]
    fileDataLen := .ofList 8 0 [1]
    fileData := .ofList _ 0 [b] }

def secretCard (b : UInt8) : Data .default :=
  { (Data.reset : Data .default) with
    appCount := 1
    apps := .ofList 4 .reset [secretApp comm b] }

def secretState (b : UInt8) : State .default :=
  listenerInit .boot (some (secretCard comm b))

def readSecret : List ReaderEvent :=
  [.apdu (nativeApdu 0x5A [0, 0, 0]), .apdu (nativeApdu 0xBD [1, 0, 0, 0, 1, 0, 0])]

theorem secretCard_others (b b' : UInt8) :
    ∀ i : Fin 4, (secretCard comm b').apps.get i =
      { (secretCard comm b).apps.get i with
        fileData := ((secretCard comm b').apps.get i).fileData } := by
  intro i
  match i with
  | 0 | 1 | 2 | 3 => rfl

theorem outputs_eq_of_encrypted_secret : reader.outputs (secretState .encrypted 0x11) readSecret =
      reader.outputs (secretState .encrypted 0x22) readSecret := by
  refine outputs_eq_of_agreeOutside _ (secretCard .encrypted 0x22)
    ⟨rfl, fun i => ⟨secretCard_others _ _ _ i, fun j hj => ?_⟩⟩ (by decide) _ ⟨?_, ?_⟩
  · -- only the first file of the first application differs, and that one may
    have hsame : ∀ (i : Fin 4) (j : Fin 8), (i = 0 ∧ j = 0) ∨
        ((secretCard .encrypted 0x11).apps.get i).fileData.slice (j * 256) 256 =
          ((secretCard .encrypted 0x22).apps.get i).fileData.slice (j * 256) 256 := by
      decide +kernel
    rcases hsame i j with ⟨rfl, rfl⟩ | heq
    · have hprot : (secretSettings .encrypted).ProtectedNotPlain := ⟨.inl rfl, by decide⟩
      exact absurd hprot hj
    · exact heq
  · rintro _ kind f ⟨⟩ hk
    cases hk
  · intro st o hst
    cases hst
    refine ⟨?_, fun _ _ _ => trivial⟩
    rintro _ kind f ⟨⟩ hk hf
    cases hk
    cases hf

theorem plain_secret_is_sent :
    (secretCard .plain 0x11).AgreeOutside FileSettings.Protected (secretCard .plain 0x22) ∧
      reader.outputs (secretState .plain 0x11) readSecret ≠
        reader.outputs (secretState .plain 0x22) readSecret := by
  refine ⟨⟨rfl, fun i => ⟨secretCard_others _ _ _ i, fun j hj => ?_⟩⟩, by decide +kernel⟩
  have hrights : ∀ (i : Fin 4) (j : Fin 8), accessFreeRead
      (((secretCard .plain 0x11).apps.get i).fileSettings.get j).accessRights = false := by
    decide +kernel
  exact absurd (.inl (hrights i j)) hj

end NfcStack.Desfire
