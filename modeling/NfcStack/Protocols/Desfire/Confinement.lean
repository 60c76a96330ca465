import NfcStack.Protocols.Desfire.Listener

/-!
# Which bytes a DESFire read sends

A read command checks the offset and length it carries, but with a read of its own kind pending it goes
on at the pending offset, possibly one of another file.
-/

namespace NfcStack.Desfire

open List Option UInt16

variable {cfg : Config}

structure Application.FilesInBounds (app : Application cfg) : Prop where
  fileCount : app.fileCount.toNat ≤ cfg.maxFiles
  dataLen : ∀ j len, j < app.fileCount.toNat → app.fileDataLen.get? j = some len →
    len.toNat ≤ cfg.maxFileSize

structure Data.Valid (m : Data cfg) : Prop where
  appCount : m.appCount.toNat ≤ cfg.maxApps
  files : ∀ i app, i < m.appCount.toNat → m.apps.get? i = some app → app.FilesInBounds

theorem toNat_lt_of_selected {x : Int8} {c : UInt8} (h0 : ¬ x < 0) (hc : ¬ c.toInt8 ≤ x) :
    x.toInt.toNat < c.toNat := by
  rw [Int8.lt_iff_toInt_lt] at h0
  rw [Int8.le_iff_toInt_le] at hc
  have hb : c.toInt8.toInt ≤ c.toNat := by
    have : c.toInt8.toInt = (c.toNat : ℤ).bmod (2 ^ 8) := by
      rw [Int8.toInt, BitVec.toInt_eq_toNat_bmod]
      rfl
    rw [this, Int.bmod_def]
    split <;> omega
  have hz : (0 : Int8).toInt = 0 := rfl
  omega

section Addressing

variable {m : Data cfg} {s : Session} {apdu : Apdu} {noApp : UInt8} {minLc : ℕ}

theorem selectedApp_isSome (h : m.appCount.toNat ≤ cfg.maxApps) :
    ∃ r, selectedApp m s = some r := by
  unfold selectedApp
  split
  · exact ⟨none, rfl⟩
  · next hs =>
    rw [not_or] at hs
    have hlt := toNat_lt_of_selected hs.1 hs.2
    obtain ⟨app, happ⟩ := (m.apps.get?_eq_some_iff _).mpr (hlt.trans_le h)
    exact ⟨some app, by rw [happ]; rfl⟩

theorem selectedApp_eq_some {app : Application cfg} (h : selectedApp m s = some (some app)) :
    ∃ i < m.appCount.toNat, m.apps.get? i = some app := by
  unfold selectedApp at h
  split at h
  · simp at h
  · next hs =>
    rw [not_or] at hs
    obtain ⟨a, ha, haa⟩ := map_eq_some_iff.mp h
    exact ⟨_, toNat_lt_of_selected hs.1 hs.2, by rw [ha, some.inj haa]⟩

theorem addressedFile_isSome (hm : m.Valid) (noApp : UInt8) (minLc : ℕ) (s : Session)
    (apdu : Apdu) : ∃ r, addressedFile noApp minLc m s apdu = some r := by
  obtain ⟨r, hr⟩ := selectedApp_isSome (s := s) hm.appCount
  cases r with
  | none => exact ⟨.error noApp, by simp only [addressedFile, hr]⟩
  | some app =>
    obtain ⟨i, hi, happ⟩ := selectedApp_eq_some hr
    have hf := (hm.files i app hi happ).fileCount
    obtain ⟨q, hq⟩ := app.fileIds.findFrom_isSome (· == byteAt apdu.data 0)
      app.fileCount.toNat 0 (by omega)
    simp only [addressedFile, hr, findFile, hq]
    split
    · exact ⟨_, rfl⟩
    · cases q with
      | none => exact ⟨_, rfl⟩
      | some j =>
        have hj := (app.fileIds.findFrom_eq_some hq).1
        exact ⟨_, dif_pos (by omega)⟩

variable {f : FileRef cfg}

theorem addressedFile_eq_ok (h : addressedFile noApp minLc m s apdu = some (.ok f)) :
    selectedApp m s = some (some f.app) ∧ f.idx < f.app.fileCount.toNat := by
  unfold addressedFile at h
  split at h
  · simp at h
  · simp at h
  · next app happ =>
    split at h
    · simp at h
    · split at h
      · simp at h
      · simp at h
      · next i hi =>
        split at h
        · obtain rfl : FileRef.mk app ⟨i, _⟩ = f := by simpa using h
          have := (app.fileIds.findFrom_eq_some hi).1
          exact ⟨happ, by simpa using this⟩
        · cases h

theorem dataLen_le_of_addressed (hm : m.Valid)
    (h : addressedFile noApp minLc m s apdu = some (.ok f)) :
    f.dataLen.toNat ≤ cfg.maxFileSize := by
  obtain ⟨hs, hidx⟩ := addressedFile_eq_ok h
  obtain ⟨i, hi, happ⟩ := selectedApp_eq_some hs
  exact (hm.files i _ hi happ).dataLen f.idx _ hidx (f.app.fileDataLen.get?_coe f.idx)

end Addressing

section Window

variable {m : Data cfg} {s : Session} {apdu : Apdu} {kind : ReadKind} {f : FileRef cfg}

theorem readRequest_eq_ok (h : readRequest kind m s apdu = some (.ok f)) :
    addressedFile Status.permissionDenied 7 m s apdu = some (.ok f) ∧
      kind.allows f.settings.type ∧ checkFileAuth s f.settings ∧
      (readOffset apdu).toNat + (readLength apdu).toNat ≤ f.dataLen.toNat := by
  unfold readRequest at h
  split at h
  · simp at h
  · simp at h
  · next f' hf =>
    split at h
    · simp at h
    · split at h
      · simp at h
      · split at h
        · simp at h
        · next ht ha hb =>
          obtain rfl : f' = f := by simpa using h
          refine ⟨hf, by simpa using ht, by simpa using ha, ?_⟩
          -- both fields have 24 bits, so their 32-bit sum is the true one
          have ho : (readOffset apdu).toNat < 2 ^ 24 := toNat_le24_lt _ _ _
          have hl : (readLength apdu).toNat < 2 ^ 24 := toNat_le24_lt _ _ _
          rw [UInt32.lt_iff_toNat_lt, UInt32.toNat_add, toNat_toUInt32] at hb
          omega

theorem readRequest_isSome (hm : m.Valid) (kind : ReadKind) (s : Session) (apdu : Apdu) :
    ∃ r, readRequest kind m s apdu = some r := by
  obtain ⟨r, hr⟩ := addressedFile_isSome hm Status.permissionDenied 7 s apdu
  unfold readRequest
  rw [hr]
  cases r with
  | error sw2 => exact ⟨_, rfl⟩
  | ok f =>
    dsimp only
    repeat' split
    all_goals exact ⟨_, rfl⟩

def WindowInside (f : FileRef cfg) (window : UInt32 × UInt32) : Prop :=
  window.1.toNat + window.2.toNat ≤ f.dataLen.toNat

def chunkLen (window : UInt32 × UInt32) : ℕ := min window.2.toNat maxChunk

/-- The length of a resumed read that starts beyond the end of its file wraps around. -/
theorem resumedLength_toNat (off len : UInt16) (h : len < off) :
    (len.toUInt32 - off.toUInt32).toNat = 2 ^ 32 - (off.toNat - len.toNat) := by
  have h1 := off.toNat_lt
  rw [lt_iff_toNat_lt] at h
  rw [UInt32.toNat_sub, toNat_toUInt32, toNat_toUInt32]
  omega

/-- The window of an accepted read lies inside the file if and only if a pending read of the
same kind has not gone past the end of this file. -/
theorem windowInside_iff (h : readRequest kind m s apdu = some (.ok f)) :
    WindowInside f (readWindow kind s f apdu) ↔
      (s.pendingCmd = kind.pending → s.pendingOffset.toNat ≤ f.dataLen.toNat) := by
  unfold WindowInside readWindow
  split
  · next hp =>
    simp only [hp, forall_const, toNat_toUInt32]
    by_cases hlt : f.dataLen < s.pendingOffset
    · have := resumedLength_toNat _ _ hlt
      rw [lt_iff_toNat_lt] at hlt
      omega
    · have hle : s.pendingOffset.toUInt32 ≤ f.dataLen.toUInt32 := by
        rw [lt_iff_toNat_lt] at hlt
        rw [UInt32.le_iff_toNat_le, toNat_toUInt32, toNat_toUInt32]
        omega
      rw [UInt32.toNat_sub_of_le _ _ hle, toNat_toUInt32, toNat_toUInt32]
      omega
  · next hp =>
    simpa [hp] using (readRequest_eq_ok h).2.2.2

theorem read?_eq_contents {off len : ℕ} (hrow : f.dataLen.toNat ≤ cfg.maxFileSize)
    (h : off + len ≤ f.dataLen.toNat) :
    f.read? off len = some ((f.contents.drop off).take len) := by
  have hidx : (f.idx + 1) * cfg.maxFileSize ≤ cfg.maxFiles * cfg.maxFileSize :=
    Nat.mul_le_mul_right _ f.idx.isLt
  rw [Nat.succ_mul] at hidx
  rw [FileRef.read?, CArray.read?_of_le _ (by omega), FileRef.contents, CArray.slice_slice _ h]

end Window

def Command.readKind? (c : Command) (s : Session) : Option ReadKind :=
  match c, s.pendingCmd with
  | .readData, _ => some .data
  | .readRecords, _ => some .records
  | .additionalFrame, .readData => some .data
  | .additionalFrame, .readRecords => some .records
  | _, _ => none

variable {kind : ReadKind}

theorem command_of_readKind? {c : Command} {m : Data cfg} {s : Session} (apdu : Apdu)
    (h : c.readKind? s = some kind) : command c m s apdu = cmdReadFile kind m s apdu := by
  unfold Command.readKind? at h
  split at h <;> cases h <;> simp_all [command, cmdReadData, cmdReadRecords]

inductive SessionStep (c : Command) (m : Data cfg) (s : Session) (apdu : Apdu) : Session → Prop
  | same : SessionStep c m s apdu s
  | version {s' : Session} {resp : Bytes} :
      cmdGetVersion m s = some (s', resp) → SessionStep c m s apdu s'
  | select (i : Int8) : SessionStep c m s apdu { s.reset with selectedApp := i }
  | authenticate : SessionStep c m s apdu { s with authState := .step1 }
  | read {kind : ReadKind} {f : FileRef cfg} :
      c.readKind? s = some kind → readRequest kind m s apdu = some (.ok f) →
      SessionStep c m s apdu (afterRead kind s apdu (readWindow kind s f apdu))

inductive Response : Bytes → Prop
  | status (sw2 : UInt8) : Response (sendStatus sw2)
  | data (data : Bytes) (sw2 : UInt8) : Response (sendDataStatus data sw2)

section Commands

variable {c : Command} {m : Data cfg} {s s' : Session} {apdu : Apdu} {resp : Bytes}

theorem sendIds_response (ids : Except UInt8 Bytes) : Response (sendIds ids) := by
  cases ids with
  | error sw2 => exact .status sw2
  | ok out => exact .data out _

theorem cmdGetVersion_cases (h : cmdGetVersion m s = some (s', resp)) :
    SessionStep c m s apdu s' ∧ Response resp := by
  refine ⟨.version h, ?_⟩
  simp only [cmdGetVersion, sendVersionFrame] at h
  split at h
  · cases h
  · split at h <;> cases h <;> exact .data _ _

theorem cmdReadFile_cases (hk : c.readKind? s = some kind)
    (h : cmdReadFile kind m s apdu = some (s', resp)) :
    SessionStep c m s apdu s' ∧ Response resp := by
  unfold cmdReadFile at h
  split at h
  · cases h
  · cases h
    exact ⟨.same, .status _⟩
  · next hr =>
    obtain ⟨d, -, hd⟩ := map_eq_some_iff.mp h
    cases hd
    exact ⟨.read hk hr, .data d _⟩

theorem command_cases (h : command c m s apdu = some (s', resp)) :
    SessionStep c m s apdu s' ∧ Response resp := by
  cases c with
  | getVersion => exact cmdGetVersion_cases h
  -- the getters hand the session back as it is
  | getFreeMemory =>
    cases h
    exact ⟨.same, .data _ _⟩
  | getKeySettings =>
    simp only [command, cmdGetKeySettings] at h
    split at h <;> cases h <;> exact ⟨.same, .data _ _⟩
  | getApplicationIds =>
    obtain ⟨ids, -, hids⟩ := map_eq_some_iff.mp h
    cases hids
    exact ⟨.same, sendIds_response ids⟩
  | getFileIds =>
    simp only [command, cmdGetFileIds] at h
    split at h
    · cases h
    · cases h
      exact ⟨.same, .status _⟩
    · obtain ⟨ids, -, hids⟩ := map_eq_some_iff.mp h
      cases hids
      exact ⟨.same, sendIds_response ids⟩
  | getFileSettings =>
    simp only [command, cmdGetFileSettings] at h
    split at h
    · cases h
    · cases h
      exact ⟨.same, .status _⟩
    · split at h <;> cases h
      · exact ⟨.same, .status _⟩
      · exact ⟨.same, .data _ _⟩
  | getKeyVersion =>
    simp only [command, cmdGetKeyVersion] at h
    split_ifs at h <;> cases h
    · exact ⟨.same, .status _⟩
    · exact ⟨.same, .status _⟩
    · exact ⟨.same, .data _ _⟩
  | selectApplication =>
    simp only [command, cmdSelectApplication] at h
    repeat' split at h
    all_goals cases h
    · exact ⟨.same, .status _⟩
    all_goals exact ⟨.select _, .status _⟩
  | readData => exact cmdReadFile_cases rfl h
  | getValue =>
    simp only [command, cmdGetValue] at h
    split at h
    · cases h
    · cases h
      exact ⟨.same, .status _⟩
    -- the file is refused for its rights, its type or its length, or its value is sent
    · split at h
      · cases h
        exact ⟨.same, .status _⟩
      split at h
      · cases h
        exact ⟨.same, .status _⟩
      split at h
      · cases h
        exact ⟨.same, .status _⟩
      · obtain ⟨d, -, hd⟩ := map_eq_some_iff.mp h
        cases hd
        exact ⟨.same, .data d _⟩
  | readRecords => exact cmdReadFile_cases rfl h
  | authenticate =>
    simp only [command, cmdAuthenticate] at h
    split at h <;> cases h
    · exact ⟨.same, .status _⟩
    · exact ⟨.authenticate, .data _ _⟩
  | additionalFrame =>
    simp only [command] at h
    split at h
    · exact cmdGetVersion_cases h
    · next hp =>
      have hk : Command.additionalFrame.readKind? s = some .data := by
        simp [Command.readKind?, hp]
      exact cmdReadFile_cases hk h
    · next hp =>
      have hk : Command.additionalFrame.readKind? s = some .records := by
        simp [Command.readKind?, hp]
      exact cmdReadFile_cases hk h
    · cases h
      exact ⟨.same, .status _⟩

end Commands

variable (st : State cfg) (apdu : Apdu)

def State.command? : Option Command :=
  if ¬ st.initialized ∨ apdu.cla ≠ claNative then none else Command.ofIns apdu.ins

def State.readKind? : Option ReadKind :=
  (st.command? apdu).bind (·.readKind? st.session)

variable {st : State cfg} {apdu : Apdu}

theorem onApdu_of_command? {c : Command} (h : st.command? apdu = some c) :
    onApdu st apdu = (command c st.model st.session apdu).map
      fun r => ({ st with session := r.1 }, r.2) := by
  unfold State.command? at h
  split at h
  · cases h
  · next hc => rw [onApdu, if_neg hc, h]

theorem onApdu_of_command?_none (h : st.command? apdu = none) :
    onApdu st apdu = some (st, sendStatus Status.illegalCmd) := by
  unfold State.command? at h
  split at h
  · next hc => rw [onApdu, if_pos hc]
  · next hc => rw [onApdu, if_neg hc, h]

theorem onApdu_of_readKind? (h : st.readKind? apdu = some kind) :
    onApdu st apdu = (cmdReadFile kind st.model st.session apdu).map
      fun r => ({ st with session := r.1 }, r.2) := by
  obtain ⟨c, hc, hk⟩ := bind_eq_some_iff.mp h
  rw [onApdu_of_command? hc, command_of_readKind? apdu hk]

/-- The data bytes in the response to a read command are a range of the file it addresses, and the
computed window lies inside the file without wrap-around. -/
def ReadConfined (st : State cfg) (e : ReaderEvent)
    (out : Option (State cfg × Option Bytes)) : Prop :=
  ∀ apdu kind, e = .apdu apdu → st.readKind? apdu = some kind →
    match readRequest kind st.model st.session apdu with
    | none => False
    | some (.error sw2) => ∃ st', out = some (st', some [sw1, sw2])
    | some (.ok f) =>
      let window := readWindow kind st.session f apdu
      WindowInside f window ∧ ∃ st' sw2, out = some (st', some
        ((f.contents.drop window.1.toNat).take (chunkLen window) ++ [sw1, sw2]))

/-- A read that takes up a pending one has a pending offset of at most `file_data_len` of the file it
names. -/
def ResumesInside (st : State cfg) (e : ReaderEvent)
    (_out : Option (State cfg × Option Bytes)) : Prop :=
  ∀ apdu kind f, e = .apdu apdu → st.readKind? apdu = some kind →
    readRequest kind st.model st.session apdu = some (.ok f) →
    st.session.pendingCmd = kind.pending → st.session.pendingOffset.toNat ≤ f.dataLen.toNat

theorem cmdReadFile_of_inside {m : Data cfg} {s : Session}
    {f : FileRef cfg} (hm : m.Valid) (h : readRequest kind m s apdu = some (.ok f))
    (hw : WindowInside f (readWindow kind s f apdu)) :
    cmdReadFile kind m s apdu = some (afterRead kind s apdu (readWindow kind s f apdu),
      (f.contents.drop (readWindow kind s f apdu).1.toNat).take
        (chunkLen (readWindow kind s f apdu)) ++
      [sw1, if maxChunk < (readWindow kind s f apdu).2.toNat then Status.additionalFrame
        else Status.ok]) := by
  have hrow := dataLen_le_of_addressed hm (readRequest_eq_ok h).1
  unfold WindowInside at hw
  simp only [cmdReadFile, h]
  generalize readWindow kind s f apdu = w at hw ⊢
  have hchunk : (if maxChunk < w.2.toNat then maxChunk else w.2.toNat) = chunkLen w := by
    unfold chunkLen
    split <;> omega
  have hle : chunkLen w ≤ w.2.toNat := Nat.min_le_left _ _
  rw [hchunk, read?_eq_contents hrow (by omega), map_some, sendDataStatus, if_neg]
  have := length_take_le (chunkLen w) (f.contents.drop w.1.toNat)
  have : chunkLen w ≤ maxChunk := Nat.min_le_right _ _
  omega

theorem readConfined_iff (hv : st.model.Valid) (e : ReaderEvent) :
    ReadConfined st e (reader.step st e) ↔ ResumesInside st e (reader.step st e) := by
  constructor
  · intro h apdu kind f he hk hf
    have := h apdu kind he hk
    rw [hf] at this
    exact (windowInside_iff hf).mp this.1
  · rintro h apdu kind rfl hk
    obtain ⟨r, hr⟩ := readRequest_isSome hv kind st.session apdu
    have hstep : reader.step st (.apdu apdu) =
        (cmdReadFile kind st.model st.session apdu).map
          fun r => ({ st with session := r.1 }, some r.2) := by
      simp only [reader, onApdu_of_readKind? hk, Option.map_map]
      rfl
    rw [hstep, hr]
    cases r with
    | error sw2 => exact ⟨{ st with session := st.session }, by simp [cmdReadFile, hr, sendStatus]⟩
    | ok f =>
      have hw := (windowInside_iff hr).mpr (h apdu kind f rfl hk hr)
      exact ⟨hw, _, _, by rw [cmdReadFile_of_inside hv hr hw]; rfl⟩

variable {st' : State cfg}

theorem onApdu_model {resp : Bytes}
    (h : onApdu st apdu = some (st', resp)) : st'.model = st.model := by
  unfold onApdu at h
  split at h
  · simp_all
  · split at h
    · simp_all
    · obtain ⟨r, -, hr⟩ := map_eq_some_iff.mp h
      cases hr
      rfl

theorem reader_step_model {e : ReaderEvent} {o : Option Bytes}
    (h : reader.step st e = some (st', o)) : st'.model = st.model := by
  cases e with
  | apdu a =>
    obtain ⟨r, hr, hp⟩ := map_eq_some_iff.mp h
    cases hp
    exact onApdu_model hr
  | select | deselect | fieldOff =>
    cases h
    rfl

/-- From any state with a valid model, every read of a reader session is confined to the file it
addresses if and only if no read takes up an offset greater than `file_data_len` of the file it
names. -/
theorem reader_confined_iff (st : State cfg) (hv : st.model.Valid) (es : List ReaderEvent) :
    reader.Always ReadConfined st es ↔ reader.Always ResumesInside st es :=
  reader.always_iff (I := fun st => st.model.Valid) (fun _ e hs => readConfined_iff hs e)
    (fun _ _ _ _ hs _ h => (reader_step_model h).symm ▸ hs) hv

/-! ### A read that leaves its file

File 1 has 256 bytes and file 2 has 16. The first READ_DATA sends 253 bytes of file 1 and
leaves the offset 253 pending; the second one names file 2 and goes on there. -/

def twoFileApp : Application .default :=
  { (Application.reset : Application .default) with
    fileCount := 2
    fileIds := .ofList 8 0 [1, 2]
    fileDataLen := .ofList 8 0 [256, 16] }

def twoFileCard : Data .default :=
  { (Data.reset : Data .default) with appCount := 1, apps := .ofList 4 .reset [twoFileApp] }

theorem twoFileCard_valid : twoFileCard.Valid where
  appCount := by decide
  files i app hi happ := by
    obtain rfl : i = 0 := Nat.lt_one_iff.mp hi
    obtain rfl : twoFileApp = app := some.inj happ
    have hall : twoFileApp.fileDataLen.toList.all (·.toNat ≤ 256) := by decide
    exact ⟨by decide, fun j len _ hlen =>
      of_decide_eq_true (all_eq_true.mp hall len (mem_of_getElem? hlen))⟩

def nativeApdu (ins : UInt8) (data : Bytes) : Apdu :=
  { cla := claNative, ins, p1 := 0, p2 := 0, data, le := 0, hasLe := true, extended := false }

def twoFileState : State .default := listenerInit .boot (some twoFileCard)

def pendingSession : Session :=
  { (State.boot : State .default).session.reset with
    selectedApp := 0
    pendingCmd := .readData
    pendingFileId := 1
    pendingOffset := 253 }

theorem twoFileState_run : (reader.run twoFileState [.apdu (nativeApdu 0x5A [0, 0, 0]),
      .apdu (nativeApdu 0xBD [1, 0, 0, 0, 0, 1, 0])]).map (·.1) =
      some { twoFileState with session := pendingSession } := by
  decide +kernel

theorem reader_confined_first_frame : twoFileState.model.Valid ∧
      reader.Always ReadConfined twoFileState [.apdu (nativeApdu 0x5A [0, 0, 0]),
        .apdu (nativeApdu 0xBD [1, 0, 0, 0, 0, 1, 0])] := by
  refine ⟨twoFileCard_valid, (reader_confined_iff _ twoFileCard_valid _).mpr ⟨?_, ?_⟩⟩
  · rintro _ kind f ⟨⟩ hk
    cases hk
  · intro st o hst
    refine ⟨?_, fun _ _ _ => trivial⟩
    rintro _ kind f ⟨⟩ - - hp
    cases hst
    cases kind <;> cases hp

theorem resumed_read_escapes : twoFileState.model.Valid ∧
      ¬ reader.Always ReadConfined twoFileState [.apdu (nativeApdu 0x5A [0, 0, 0]),
        .apdu (nativeApdu 0xBD [1, 0, 0, 0, 0, 1, 0]),
        .apdu (nativeApdu 0xBD [2, 0, 0, 0, 0, 0, 0])] := by
  refine ⟨twoFileCard_valid, fun h => ?_⟩
  obtain ⟨⟨st, os⟩, hrun, hst⟩ := map_eq_some_iff.mp twoFileState_run
  obtain rfl : st = { twoFileState with session := pendingSession } := hst
  have hlast := (Machine.Always.of_run reader [_] h hrun).1
  have hin := (readConfined_iff twoFileCard_valid _).mp hlast
  have hfile : readRequest .data twoFileCard pendingSession
      (nativeApdu 0xBD [2, 0, 0, 0, 0, 0, 0]) = some (.ok ⟨twoFileApp, 1, by decide⟩) := rfl
  have := hin _ .data _ rfl (by decide) hfile rfl
  revert this
  decide

end NfcStack.Desfire
