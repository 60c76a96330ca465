import NfcStack.Protocols.Ndef.Persist

/-!
# The files of the NDEF listener

A reader sees two byte arrays, determined by the file that was selected last with `9000` and by the updates
that had this answer.
-/

namespace NfcStack.Ndef

open Option

variable {cfg : Config}

inductive Access
  | select
  | close
  | apdu (apdu : Apdu)
  | serialize (outMax : ℕ)

def fileListener : Machine (State cfg) Access Bytes where
  step st
    | .select => some (onSelect st)
    | .close => some (closeFile st, [])
    | .apdu apdu => some ((onApdu st apdu).1, (onApdu st apdu).2.1)
    | .serialize outMax => some ((listenerSerialize st outMax).1, [])

structure Files (cfg : Config) where
  selected : FileSel
  cc : CArray UInt8 ccSize
  ndef : CArray UInt8 cfg.fileSize
deriving DecidableEq

def Files.current (files : Files cfg) : Bytes :=
  match files.selected with
  | .none => []
  | .cc => files.cc.toList
  | .ndef => files.ndef.toList

/-- The files after an access and the answer to it. -/
def Files.after (files : Files cfg) : Access × Bytes → Files cfg
  | (.select, _) => { files with selected := .none }
  | (.close, _) => { files with selected := .none }
  | (.serialize _, _) => files
  | (.apdu apdu, answer) =>
    if answer ≠ StatusWord.ok.bytes then files
    else if apdu.ins = 0xA4 then
      { files with selected := if apdu.data = [0xE1, 0x03] then .cc else .ndef }
    else if apdu.ins = 0xD6 then
      { files with ndef := files.ndef.write (binaryOffset apdu) apdu.data }
    else files

def expectedLength (apdu : Apdu) : Option ℕ :=
  if ¬ apdu.hasLe then none
  else if apdu.le = 0 then some (if apdu.extended then 65536 else 256)
  else some apdu.le.toNat

def Files.bytesRead (files : Files cfg) (apdu : Apdu) : Bytes :=
  let rest := files.current.drop (binaryOffset apdu)
  rest.take (min (min ((expectedLength apdu).getD rest.length) rest.length) 253)

def State.files (st : State cfg) : Files cfg := ⟨st.fileSel, st.model.cc, st.model.ndefFile⟩

theorem bytes_ne_ok (sw : StatusWord) (h : sw ≠ .ok) : sw.bytes ≠ StatusWord.ok.bytes := by
  cases sw with
  | ok => exact absurd rfl h
  | _ => decide

variable (st : State cfg)

theorem handleSelectFile_cases (apdu : Apdu) :
    (handleSelectFile st apdu).1 = st ∧ (handleSelectFile st apdu).2 ≠ StatusWord.ok.bytes ∨
    (handleSelectFile st apdu).1 =
      { st with fileSel := if apdu.data = [0xE1, 0x03] then .cc else .ndef } ∧
      (handleSelectFile st apdu).2 = StatusWord.ok.bytes := by
  by_cases hp : apdu.p1 ≠ 0x00 ∨ ¬ (apdu.p2 = 0x00 ∨ apdu.p2 = 0x0C)
  · rw [handleSelectFile, if_pos hp]
    exact .inl ⟨rfl, bytes_ne_ok .wrongP1P2 (by decide)⟩
  by_cases hlc : apdu.lc ≠ 2
  · rw [handleSelectFile, if_neg hp, if_pos hlc]
    exact .inl ⟨rfl, bytes_ne_ok .wrongLength (by decide)⟩
  by_cases hcc : apdu.data = [0xE1, 0x03]
  · rw [handleSelectFile, if_neg hp, if_neg hlc, if_pos hcc, if_pos hcc]
    exact .inr ⟨rfl, rfl⟩
  by_cases hndef : apdu.data = [0xE1, 0x04]
  · rw [handleSelectFile, if_neg hp, if_neg hlc, if_neg hcc, if_pos hndef, if_neg hcc]
    exact .inr ⟨rfl, rfl⟩
  · rw [handleSelectFile, if_neg hp, if_neg hlc, if_neg hcc, if_neg hndef]
    exact .inl ⟨rfl, bytes_ne_ok .fileNotFound (by decide)⟩

theorem handleUpdateBinary_cases (apdu : Apdu) :
    (handleUpdateBinary st apdu).1 = st ∧ (handleUpdateBinary st apdu).2.1 ≠ StatusWord.ok.bytes ∨
    (handleUpdateBinary st apdu).1 = { st with
        model := { st.model with ndefFile := st.model.ndefFile.write (binaryOffset apdu) apdu.data } } ∧
      (handleUpdateBinary st apdu).2.1 = StatusWord.ok.bytes ∧ st.fileSel = .ndef := by
  by_cases hnone : st.fileSel = .none
  · rw [handleUpdateBinary, if_pos hnone]
    exact .inl ⟨rfl, bytes_ne_ok .noEf (by decide)⟩
  by_cases hrefuse : st.fileSel = .cc ∨ ¬ st.writable
  · rw [handleUpdateBinary, if_neg hnone, if_pos hrefuse]
    exact .inl ⟨rfl, bytes_ne_ok .conditionsNotSat (by decide)⟩
  by_cases hlength : apdu.lc = 0 ∨ cfg.fileSize < binaryOffset apdu + apdu.lc
  · rw [handleUpdateBinary, if_neg hnone, if_neg hrefuse, if_pos hlength]
    exact .inl ⟨rfl, bytes_ne_ok .wrongLength (by decide)⟩
  · rw [handleUpdateBinary, if_neg hnone, if_neg hrefuse, if_neg hlength]
    refine .inr ⟨rfl, rfl, ?_⟩
    push Not at hrefuse
    cases hsel : st.fileSel with
    | none => exact absurd hsel hnone
    | cc => exact absurd hsel hrefuse.1
    | ndef => rfl

variable (files : Files cfg)

theorem Files.after_refused (apdu : Apdu) {answer : Bytes}
    (h : answer ≠ StatusWord.ok.bytes) : files.after (.apdu apdu, answer) = files := if_pos h

theorem Files.after_ok (apdu : Apdu) :
    files.after (.apdu apdu, StatusWord.ok.bytes) =
      if apdu.ins = 0xA4 then
        { files with selected := if apdu.data = [0xE1, 0x03] then .cc else .ndef }
      else if apdu.ins = 0xD6 then
        { files with ndef := files.ndef.write (binaryOffset apdu) apdu.data }
      else files := by
  rw [Files.after, if_neg (not_not.mpr rfl)]

theorem files_onApdu (apdu : Apdu) :
    (onApdu st apdu).1.files = st.files.after (.apdu apdu, (onApdu st apdu).2.1) := by
  by_cases hcla : apdu.cla ≠ 0x00
  · rw [onApdu, if_pos hcla]
    exact (Files.after_refused _ _ (bytes_ne_ok .claNotSupported (by decide))).symm
  by_cases hselect : apdu.ins = 0xA4
  · rw [onApdu, if_neg hcla, if_pos hselect]
    rcases handleSelectFile_cases st apdu with ⟨hst, hanswer⟩ | ⟨hst, hanswer⟩
    · simp only
      rw [Files.after_refused _ _ hanswer, hst]
    · simp only
      rw [hanswer, Files.after_ok, if_pos hselect, hst]
      rfl
  by_cases hread : apdu.ins = 0xB0
  · rw [onApdu, if_neg hcla, if_neg hselect, if_pos hread]
    by_cases hanswer : handleReadBinary st apdu = StatusWord.ok.bytes
    · simp only
      rw [hanswer, Files.after_ok, if_neg hselect, if_neg (by rw [hread]; decide)]
    · exact (Files.after_refused _ _ hanswer).symm
  by_cases hupdate : apdu.ins = 0xD6
  · rw [onApdu, if_neg hcla, if_neg hselect, if_neg hread, if_pos hupdate]
    rcases handleUpdateBinary_cases st apdu with ⟨hst, hanswer⟩ | ⟨hst, hanswer, -⟩
    · rw [Files.after_refused _ _ hanswer, hst]
    · rw [hanswer, Files.after_ok, if_neg hselect, if_pos hupdate, hst]
      rfl
  · rw [onApdu, if_neg hcla, if_neg hselect, if_neg hread, if_neg hupdate]
    exact (Files.after_refused _ _ (bytes_ne_ok .insNotSupported (by decide))).symm

theorem files_listenerSerialize (outMax : ℕ) :
    (listenerSerialize st outMax).1.files = st.files := by
  rw [listenerSerialize]
  split
  · rfl
  · simp only [State.files, syncFileLen]
    split <;> rfl

theorem min_readNe (apdu : Apdu) (available : ℕ) :
    min (readNe apdu available) available =
      min ((expectedLength apdu).getD available) available := by
  rw [readNe, expectedLength]
  split
  · rfl
  split
  · rw [getD_some, Nat.min_comm available, Nat.min_assoc, Nat.min_self]
  · rfl

theorem readFile_of_ok {file : Bytes} {apdu : Apdu}
    (h : StatusWord.ok.bytes <:+ readFile file apdu) :
    readFile file apdu = (file.drop (binaryOffset apdu)).take
      (min (min (readNe apdu (file.length - binaryOffset apdu)) (file.length - binaryOffset apdu))
        253) ++ StatusWord.ok.bytes := by
  simp only [readFile] at h ⊢
  split at h
  · exact absurd (List.IsSuffix.eq_of_length h rfl) (by decide)
  next hrange =>
  rw [if_neg hrange]
  rfl

theorem handleReadBinary_of_ok {st : State cfg} {apdu : Apdu}
    (h : StatusWord.ok.bytes <:+ handleReadBinary st apdu) :
    handleReadBinary st apdu = st.files.bytesRead apdu ++ StatusWord.ok.bytes := by
  have hfile : handleReadBinary st apdu = readFile st.files.current apdu := by
    cases hsel : st.fileSel with
    | none =>
      rw [handleReadBinary, hsel] at h
      exact absurd (List.IsSuffix.eq_of_length h rfl).symm (bytes_ne_ok .noEf (by decide))
    | cc => simp only [handleReadBinary, Files.current, State.files, hsel]
    | ndef => simp only [handleReadBinary, Files.current, State.files, hsel]
  rw [hfile] at h ⊢
  rw [readFile_of_ok h, min_readNe, ← List.length_drop]
  rfl

theorem files_of_run {st st' : State cfg} {history : List Access} {answers : List Bytes}
    (h : fileListener.run st history = some (st', answers)) :
    st'.files = (history.zip answers).foldl Files.after st.files := by
  refine (Machine.view_of_run fileListener (I := fun _ => True) State.files Files.after ?_
    True.intro h).2
  intro s access s' answer _ hstep
  refine ⟨True.intro, ?_⟩
  cases access with
  | select | close =>
    cases hstep
    rfl
  | apdu apdu =>
    cases hstep
    exact files_onApdu s apdu
  | serialize outMax =>
    cases hstep
    exact files_listenerSerialize s outMax

/-- After any accesses, the next command meets the files that follow from the answers before it: what
is read with the answer `9000` are bytes of the selected file, and an update that is refused, or that
meets the capability container, leaves both files as they are. -/
theorem files_of_history (st : State cfg) (history : List Access) :
    ∃ st' answers, fileListener.run st history = some (st', answers) ∧
      ∀ files, files = (history.zip answers).foldl Files.after st.files →
        st'.files = files ∧
        ∀ apdu : Apdu, apdu.cla = 0x00 →
          (apdu.ins = 0xB0 → StatusWord.ok.bytes <:+ (onApdu st' apdu).2.1 →
            (onApdu st' apdu).2.1 = files.bytesRead apdu ++ StatusWord.ok.bytes) ∧
          (apdu.ins = 0xD6 → (onApdu st' apdu).2.1 ≠ StatusWord.ok.bytes ∨ files.selected = .cc →
            (onApdu st' apdu).1.files = files) := by
  have htotal : ∀ (s : State cfg) access, ∃ r, fileListener.step s access = some r := by
    intro s access
    cases access <;> exact ⟨_, rfl⟩
  obtain ⟨st', answers, hrun⟩ := Machine.exists_run fileListener htotal st history
  refine ⟨st', answers, hrun, ?_⟩
  rintro files rfl
  have hfiles := files_of_run hrun
  refine ⟨hfiles, ?_⟩
  rw [← hfiles]
  intro apdu hcla
  constructor
  · intro hread hok
    have hanswer : (onApdu st' apdu).2.1 = handleReadBinary st' apdu := by
      rw [onApdu, if_neg (not_not.mpr hcla), if_neg (by rw [hread]; decide), if_pos hread]
    rw [hanswer] at hok ⊢
    exact handleReadBinary_of_ok hok
  · intro hupdate hrefused
    have hcommand : onApdu st' apdu = handleUpdateBinary st' apdu := by
      rw [onApdu, if_neg (not_not.mpr hcla), if_neg (by rw [hupdate]; decide),
        if_neg (by rw [hupdate]; decide), if_pos hupdate]
    rw [hcommand] at hrefused ⊢
    rcases handleUpdateBinary_cases st' apdu with ⟨hst, -⟩ | ⟨-, hanswer, hndef⟩
    · rw [hst]
    · rcases hrefused with hne | hcc
      · exact absurd hanswer hne
      · rw [show st'.files.selected = st'.fileSel from rfl, hndef] at hcc
        cases hcc

def updateHistory : List Access :=
  [.apdu selectNdefFile, .apdu ⟨0x00, 0xD6, 0x00, 0x02, [0xD0, 0x5A], 0, false, false⟩]

def readAtOne : Apdu := ⟨0x00, 0xB0, 0x00, 0x01, [], 4, true, false⟩

theorem files_of_history_readAtOne :
    ∃ st' answers, fileListener.run emptyListener updateHistory = some (st', answers) ∧
      (onApdu st' readAtOne).2.1 =
        ((updateHistory.zip answers).foldl Files.after emptyListener.files).bytesRead readAtOne ++
          StatusWord.ok.bytes := by
  obtain ⟨st', answers, hrun, h⟩ := files_of_history emptyListener updateHistory
  have hanswer : (fileListener.run emptyListener updateHistory).map
      (fun r => (onApdu r.1 readAtOne).2.1) = some [0x00, 0xD0, 0x5A, 0x00, 0x90, 0x00] := by
    decide +kernel
  rw [hrun, map_some, some.injEq] at hanswer
  refine ⟨st', answers, hrun, ((h _ rfl).2 readAtOne rfl).1 rfl ?_⟩
  rw [hanswer]
  decide

end NfcStack.Ndef
