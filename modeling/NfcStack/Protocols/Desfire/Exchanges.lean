import NfcStack.Framing.Assembler
import NfcStack.Protocols.Desfire.Confinement
import NfcStack.Protocols.Desfire.Poller

/-!
# Answers in several frames

The listener hands ADDITIONAL_FRAME to the handler of the pending command, which cannot tell it from a
new one. So GET_VERSION goes on with an exchange that was left pending, and READ_DATA checks fields that
an additional frame has not (`readsRange_iff`).
-/

namespace NfcStack.Desfire

variable {cfg : Config}

section Version

variable {m : Data cfg} {s s' : Session}

theorem sendDataStatus_of_le {data : Bytes} (h : data.length ≤ maxChunk) (sw2 : UInt8) :
    sendDataStatus data sw2 = data ++ [sw1, sw2] := if_neg (Nat.not_lt.mpr h)

theorem sendVersionFrame_more (h : s.pendingFrame = 0 ∨ s.pendingFrame = 1) :
    sendVersionFrame s = some ({ s with pendingFrame := s.pendingFrame + 1 },
      s.versionBuf.slice (s.pendingFrame.toNat * 7) 7 ++ [sw1, Status.additionalFrame]) := by
  have hmore : (s.pendingFrame == 0 || s.pendingFrame == 1) = true := by simpa using h
  have hle : s.pendingFrame.toNat * 7 + 7 ≤ 28 := by
    rcases h with h | h <;> rw [h] <;> decide
  have hlen : (s.versionBuf.slice (s.pendingFrame.toNat * 7) 7).length ≤ maxChunk := by
    rw [CArray.length_slice _ hle]
    decide
  simp only [sendVersionFrame, hmore, if_true, CArray.read?_of_le _ hle, sendDataStatus_of_le hlen]

theorem sendVersionFrame_last (h : s.pendingFrame = 2) :
    sendVersionFrame s = some ({ s with pendingCmd := .none },
      s.versionBuf.slice 14 14 ++ [sw1, Status.ok]) := by
  have hle : 14 + 14 ≤ 28 := by decide
  have hlen : (s.versionBuf.slice 14 14).length ≤ maxChunk := by
    rw [CArray.length_slice _ hle]
    decide
  have hoff : (2 : UInt8).toNat * 7 = 14 := rfl
  have hmore : ((2 : UInt8) == 0 || (2 : UInt8) == 1) = false := rfl
  simp only [sendVersionFrame, h, hmore, Bool.false_eq_true, if_false, hoff,
    CArray.read?_of_le _ hle, sendDataStatus_of_le hlen]

def Session.Started (s : Session) : Prop :=
  s.pendingCmd = .getVersion → s.pendingFrame = 1 ∨ s.pendingFrame = 2

theorem Session.started_of_ne (h : s.pendingCmd ≠ .getVersion) : s.Started :=
  fun hp => absurd hp h

theorem startVersion_of_pending (h : s.pendingCmd = .getVersion) : startVersion m s = s :=
  if_neg (not_not.mpr h)

theorem startVersion_of_ne (h : s.pendingCmd ≠ .getVersion) :
    startVersion m s =
      { s with versionBuf := buildVersionBytes m, pendingCmd := .getVersion, pendingFrame := 0 } :=
  if_pos h

variable {resp : Bytes}

theorem Session.Started.getVersion (hs : s.Started)
    (h : cmdGetVersion m s = some (s', resp)) : s'.Started := by
  rw [cmdGetVersion] at h
  by_cases hp : s.pendingCmd = .getVersion
  · rw [startVersion_of_pending hp] at h
    rcases hs hp with hf | hf
    · rw [sendVersionFrame_more (.inr hf)] at h
      cases h
      exact fun _ => .inr (by rw [hf]; rfl)
    · rw [sendVersionFrame_last hf] at h
      cases h
      exact started_of_ne (by simp)
  · rw [startVersion_of_ne hp] at h
    cases h
    exact fun _ => .inl rfl

theorem afterRead_pendingCmd (kind : ReadKind) (s : Session) (apdu : Apdu)
    (window : UInt32 × UInt32) :
    (afterRead kind s apdu window).pendingCmd =
      if maxChunk < window.2.toNat then kind.pending else .none := by
  simp only [afterRead]
  split <;> rfl

theorem afterRead_selectedApp (kind : ReadKind) (s : Session) (apdu : Apdu)
    (window : UInt32 × UInt32) : (afterRead kind s apdu window).selectedApp = s.selectedApp := by
  simp only [afterRead]
  split <;> split <;> rfl

theorem selectedApp_congr (h : s.selectedApp = s'.selectedApp) :
    selectedApp m s = selectedApp m s' := by
  rw [selectedApp, selectedApp, h]

variable {apdu : Apdu}

theorem SessionStep.started {c : Command} (h : SessionStep c m s apdu s')
    (hs : s.Started) : s'.Started := by
  cases h with
  | same => exact hs
  | version hv => exact hs.getVersion hv
  | select i => exact Session.started_of_ne (by simp [Session.reset])
  | authenticate => exact hs
  | @read kind f _ _ =>
    refine Session.started_of_ne ?_
    rw [afterRead_pendingCmd]
    split
    · cases kind <;> simp [ReadKind.pending]
    · simp

variable {st st' : State cfg}

theorem onApdu_started
    (hs : st.session.Started) (h : onApdu st apdu = some (st', resp)) : st'.session.Started := by
  cases hc : st.command? apdu with
  | none =>
    rw [onApdu_of_command?_none hc] at h
    cases h
    exact hs
  | some c =>
    rw [onApdu_of_command? hc] at h
    obtain ⟨r, hr, hst⟩ := Option.map_eq_some_iff.mp h
    cases hst
    exact (command_cases hr).1.started hs

theorem listener_step_started {e : Event cfg} {o : Option Bytes}
    (hs : st.session.Started) (h : listener.step st e = some (st', o)) : st'.session.Started := by
  have hreset : st.session.reset.Started := Session.started_of_ne (by simp [Session.reset])
  cases e with
  | init model | shutdown | deserialize bytes =>
    cases h
    exact hreset
  | reader re =>
    cases re with
    | apdu a =>
      obtain ⟨r, hr, hst⟩ := Option.map_eq_some_iff.mp h
      cases hst
      exact onApdu_started hs hr
    | select | deselect | fieldOff =>
      cases h
      exact hreset

theorem listener_run_started {es : List (Event cfg)} {os : List (Option Bytes)}
    (h : listener.run .boot es = some (st, os)) : st.session.Started :=
  listener.run_induction (P := fun _ _ st => st.session.Started)
    (Session.started_of_ne (by simp [State.boot]))
    (fun _ _ _ _ _ _ _ hs hstep => listener_step_started hs hstep) h

end Version

def versionCommands : List ReaderEvent :=
  [.apdu (nativeApdu 0x60 []), .apdu (nativeApdu 0xAF []), .apdu (nativeApdu 0xAF [])]

def VersionExchange (st : State cfg) : Prop :=
  ∃ st' a b c, reader.run st versionCommands =
      some (st', [some (a ++ [0x91, 0xAF]), some (b ++ [0x91, 0xAF]), some (c ++ [0x91, 0x00])]) ∧
    a.length = 7 ∧ b.length = 7 ∧ c.length = 14 ∧
    a ++ b ++ c = (buildVersionBytes st.model).toList

section

variable {st st' : State cfg} {r : Session × Bytes}

theorem reader_getVersion (hst : st.initialized = true)
    (h : cmdGetVersion st.model st.session = some r) :
    reader.step st (.apdu (nativeApdu 0x60 [])) = some ({ st with session := r.1 }, some r.2) := by
  have hc : st.command? (nativeApdu 0x60 []) = some .getVersion := by
    rw [State.command?, if_neg (by simp [hst, nativeApdu])]
    rfl
  simp only [reader, onApdu_of_command? hc, command, h, Option.map_some]

theorem command?_additionalFrame (hst : st.initialized = true) :
    st.command? (nativeApdu 0xAF []) = some .additionalFrame := by
  rw [State.command?, if_neg (by simp [hst, nativeApdu])]
  rfl

theorem reader_nextVersion (st : State cfg) (hst : st.initialized = true)
    (hp : st.session.pendingCmd = .getVersion) (h : sendVersionFrame st.session = some r) :
    reader.step st (.apdu (nativeApdu 0xAF [])) = some ({ st with session := r.1 }, some r.2) := by
  have hv : cmdGetVersion st.model st.session = some r := by
    rw [cmdGetVersion, startVersion_of_pending hp, h]
  simp only [reader, onApdu_of_command? (command?_additionalFrame hst), command, hp, hv,
    Option.map_some]

theorem reader_noFrame (st : State cfg) (hst : st.initialized = true)
    (hp : st.session.pendingCmd = .none) :
    reader.step st (.apdu (nativeApdu 0xAF [])) =
      some (st, some (sendStatus Status.illegalCmd)) := by
  simp only [reader, onApdu_of_command? (command?_additionalFrame hst), command, hp,
    Option.map_some]

theorem versionExchange_of_ne (hst : st.initialized = true)
    (hp : st.session.pendingCmd ≠ .getVersion) : VersionExchange st := by
  obtain ⟨s₁, hs₁⟩ : ∃ s₁, s₁ = { st.session with
      versionBuf := buildVersionBytes st.model
      pendingCmd := .getVersion
      pendingFrame := 1 } := ⟨_, rfl⟩
  have h₁ : cmdGetVersion st.model st.session =
      some (s₁, (buildVersionBytes st.model).slice 0 7 ++ [sw1, Status.additionalFrame]) := by
    rw [cmdGetVersion, startVersion_of_ne hp, sendVersionFrame_more (.inl rfl), hs₁]
    rfl
  have h₂ : sendVersionFrame s₁ = some ({ s₁ with pendingFrame := 2 },
      (buildVersionBytes st.model).slice 7 7 ++ [sw1, Status.additionalFrame]) := by
    rw [sendVersionFrame_more (.inr (by rw [hs₁])), hs₁]
    rfl
  have h₃ : sendVersionFrame { s₁ with pendingFrame := 2 } =
      some ({ s₁ with pendingFrame := 2, pendingCmd := .none },
        (buildVersionBytes st.model).slice 14 14 ++ [sw1, Status.ok]) := by
    rw [sendVersionFrame_last rfl, hs₁]
  have hp₁ : s₁.pendingCmd = .getVersion := by rw [hs₁]
  refine ⟨{ st with session := { s₁ with pendingFrame := 2, pendingCmd := .none } },
    (buildVersionBytes st.model).slice 0 7, (buildVersionBytes st.model).slice 7 7,
    (buildVersionBytes st.model).slice 14 14, ?_, CArray.length_slice _ (by decide),
    CArray.length_slice _ (by decide), CArray.length_slice _ (by decide), ?_⟩
  · rw [versionCommands, reader.run_cons _ (reader_getVersion hst h₁),
      reader.run_cons _ (reader_nextVersion { st with session := s₁ } hst hp₁ h₂),
      reader.run_cons _ (reader_nextVersion
        { st with session := { s₁ with pendingFrame := 2 } } hst hp₁ h₃)]
    rfl
  · rw [← CArray.slice_all, CArray.slice_append _ 0 7 7, CArray.slice_append _ 0 14 14]

theorem not_versionExchange_of_pending (hst : st.initialized = true)
    (hp : st.session.pendingCmd = .getVersion)
    (hf : st.session.pendingFrame = 1 ∨ st.session.pendingFrame = 2) : ¬ VersionExchange st := by
  rintro ⟨st', a, b, c, hrun, ha, -, hc, -⟩
  have hv : cmdGetVersion st.model st.session = sendVersionFrame st.session := by
    rw [cmdGetVersion, startVersion_of_pending hp]
  rcases hf with hf | hf
  · have h₁ := reader_getVersion hst (hv.trans (sendVersionFrame_more (.inr hf)))
    have h₂ := reader_nextVersion { st with session :=
      { st.session with pendingFrame := st.session.pendingFrame + 1 } } hst hp
      (sendVersionFrame_last (by simp only [hf]; rfl))
    have h₃ := reader_noFrame { st with session :=
      { st.session with
        pendingFrame := st.session.pendingFrame + 1
        pendingCmd := .none } } hst rfl
    rw [versionCommands, reader.run_cons _ h₁, reader.run_cons _ h₂, reader.run_cons _ h₃] at hrun
    have hlast : sendStatus Status.illegalCmd = c ++ [0x91, 0x00] := by
      simp only [Machine.run, Option.map_some, Option.some.injEq, Prod.mk.injEq,
        List.cons.injEq] at hrun
      exact hrun.2.2.2.1
    have hlen := congrArg List.length hlast
    rw [List.length_append, hc] at hlen
    cases hlen
  · have h₁ := reader_getVersion hst (hv.trans (sendVersionFrame_last hf))
    obtain ⟨t, o, us, hstep, -, hos⟩ := reader.run_cons_inv hrun
    cases h₁.symm.trans hstep
    have hfirst := Option.some.inj (List.cons.inj hos).1
    have hlen := congrArg List.length hfirst
    rw [List.length_append, List.length_append, ha, CArray.length_slice _ (by decide)] at hlen
    cases hlen

theorem not_versionExchange_of_uninitialized (hst : st.initialized = false) :
    ¬ VersionExchange st := by
  rintro ⟨st', a, b, c, hrun, ha, -, -, -⟩
  have hno : st.command? (nativeApdu 0x60 []) = none := by
    rw [State.command?, if_pos (.inl (by simp [hst]))]
  obtain ⟨t, o, us, hstep, -, hos⟩ := reader.run_cons_inv hrun
  simp only [reader, onApdu_of_command?_none hno, Option.map_some] at hstep
  cases hstep
  have hlen := congrArg List.length (Option.some.inj (List.cons.inj hos).1)
  rw [List.length_append, ha] at hlen
  cases hlen

end

/-- In every state that the listener reaches from boot, the version exchange gives the version
bytes of the model if and only if the listener is initialised and no version exchange is pending. -/
theorem versionExchange_iff {st : State cfg} {es : List (Event cfg)} {os : List (Option Bytes)}
    (h : listener.run .boot es = some (st, os)) :
    VersionExchange st ↔ st.initialized = true ∧ st.session.pendingCmd ≠ .getVersion := by
  constructor
  · intro hv
    cases hst : st.initialized with
    | false => exact absurd hv (not_versionExchange_of_uninitialized hst)
    | true =>
      refine ⟨rfl, fun hp => ?_⟩
      exact not_versionExchange_of_pending hst hp (listener_run_started h hp) hv
  · rintro ⟨hst, hp⟩
    exact versionExchange_of_ne hst hp

theorem versionExchange_fresh : VersionExchange (listenerInit .boot none : State .default) := by
  have hrun : listener.run (.boot : State .default) [.init none] =
      some (listenerInit .boot none, [none]) := rfl
  exact (versionExchange_iff hrun).mpr ⟨rfl, by decide⟩

/-- A reader that was interrupted after the first frame starts anew, without a field event or a
selection in between: the exchange ends with the second frame, and its last command is refused. -/
theorem versionExchange_abandoned : ∃ (st : State .default) (os : List (Option Bytes)),
      listener.run .boot [.init none, .reader (.apdu (nativeApdu 0x60 []))] = some (st, os) ∧
      ¬ VersionExchange st ∧
      (reader.run st versionCommands).map (fun r => r.2.map (·.map List.length)) =
        some [some 9, some 16, some 2] := by
  refine ⟨_, _, rfl, ?_, by decide⟩
  exact not_versionExchange_of_pending rfl rfl (.inl rfl)

open List Option CArray Framing Reader UInt16

def cardSession (extendedOk : Bool) : Reader.Session (State cfg) where
  active := true
  tag := ⟨fun st tx =>
    match apduParse extendedOk tx with
    | none => some (st, .error .enotsup)
    | some apdu => (onApdu st apdu).map fun r => (r.1, .ok r.2)⟩

def ReadsRange (extendedOk : Bool) (st : State cfg) (f : FileRef cfg) (fileId : UInt8)
    (offset length : UInt32) (outMax : ℕ) : Prop :=
  ∃ fuel st', sendChunks (cardSession extendedOk) fuel outMax
      (readChunk 0xBD fileId offset length) st =
    some (.ok ((f.contents.drop offset.toNat).take length.toNat), st')

structure Readable (st : State cfg) (fileId : UInt8) (f : FileRef cfg) : Prop where
  initialized : st.initialized = true
  model : st.model.Valid
  selected : selectedApp st.model st.session = some (some f.app)
  file : findFile f.app fileId = some (some f.idx.val)
  auth : checkFileAuth st.session f.settings = true

section Read

variable {extendedOk : Bool} {st st' : State cfg} {f : FileRef cfg} {fileId : UInt8}
  {offset length : UInt32} {outMax : ℕ}

def readApdu (fileId : UInt8) (offset length : UInt32) : Apdu :=
  ⟨claNative, 0xBD, 0, 0, fileId :: ((le32Bytes offset).take 3 ++ (le32Bytes length).take 3), 0,
    false, false⟩

theorem apduParse_readChunk (extendedOk : Bool) (fileId : UInt8) (offset length : UInt32) :
    apduParse extendedOk (readChunk 0xBD fileId offset length) =
      some (readApdu fileId offset length) :=
  apduParse_data extendedOk 0x90 0xBD 0 0 none
    (show 0 < (fileId :: ((le32Bytes offset).take 3 ++ (le32Bytes length).take 3)).length by simp)
    (by simp [le32Bytes])

theorem apduParse_additionalFrame :
    apduParse extendedOk additionalFrame = some (nativeApdu 0xAF []) := by
  cases extendedOk <;> rfl

theorem le24_le32Bytes {x : UInt32} (h : x.toNat < 2 ^ 24) :
    le24 x.toUInt8 (x >>> 8).toUInt8 (x >>> 16).toUInt8 = x := by
  apply UInt32.toNat_inj.mp
  rw [toNat_le24, UInt32.toNat_toUInt8, show (8 : UInt32) = UInt32.ofNat 8 from rfl,
    show (16 : UInt32) = UInt32.ofNat 16 from rfl, toNat_byte_shiftRight x (by decide),
    toNat_byte_shiftRight x (by decide)]
  omega

variable {tx : Bytes}

theorem transceive_card {resp : Bytes} {apdu : Apdu}
    (hparse : apduParse extendedOk tx = some apdu) (h : onApdu st apdu = some (st', resp))
    (hlen : resp.length ≤ maxResponseLen) :
    (cardSession extendedOk).transceive maxResponseLen tx st = some (.ok resp, st') :=
  Session.transceive_of_step rfl (by simp only [cardSession, hparse, h, map_some]) hlen

theorem onApdu_readApdu (hst : st.initialized = true) (fileId : UInt8) (offset length : UInt32) :
    onApdu st (readApdu fileId offset length) =
      (cmdReadFile .data st.model st.session (readApdu fileId offset length)).map
        fun r => ({ st with session := r.1 }, r.2) := by
  have hc : st.command? (readApdu fileId offset length) = some .readData := by
    rw [State.command?, if_neg (by simp [hst, readApdu])]
    rfl
  rw [onApdu_of_command? hc]
  rfl

theorem onApdu_additionalFrame (hst : st.initialized = true)
    (hp : st.session.pendingCmd = .readData) {app : Application cfg}
    (hsel : selectedApp st.model st.session = some (some app)) :
    onApdu st (nativeApdu 0xAF []) = some (st, [0x91, 0x7E]) := by
  have hlc : (nativeApdu 0xAF []).lc < 7 := by decide
  have hreq : readRequest .data st.model st.session (nativeApdu 0xAF []) =
      some (.error Status.lengthError) := by
    simp only [readRequest, addressedFile, hsel, if_pos hlc]
  simp only [onApdu_of_command? (command?_additionalFrame hst), command, hp, cmdReadData,
    cmdReadFile, hreq, map_some]
  rfl

variable {bytes : Bytes}

theorem sendChunks_of_pending (hst : st'.initialized = true)
    (hp : st'.session.pendingCmd = .readData) (app : Application cfg)
    (hsel : selectedApp st'.model st'.session = some (some app)) {data : Bytes}
    (h : (cardSession extendedOk).transceive maxResponseLen tx st =
      some (.ok (data ++ [0x91, 0xAF]), st')) (fuel : ℕ) {st'' : State cfg} :
    sendChunks (cardSession extendedOk) fuel outMax tx st ≠ some (.ok bytes, st'') := by
  rw [sendChunks_of_transceive h]
  cases fuel with
  | zero => exact fun hx => by cases hx
  | succ fuel =>
    by_cases hfit : outMax < data.length
    · rw [collectChunks_status, if_pos (by simpa using hfit)]
      exact fun hx => by cases hx
    rw [collectChunks_more (by simpa using hfit), Poll.bind_of_eq
      (transceive_card apduParse_additionalFrame (onApdu_additionalFrame hst hp hsel) (by decide))]
    cases fuel with
    | zero => exact fun hx => by cases hx
    | succ fuel =>
      obtain ⟨e, he⟩ : ∃ e, collectChunks (cardSession extendedOk) outMax (fuel + 1)
          ([] ++ [0x91, 0x7E]) ([] ++ data) st' = some (.error e, st') :=
        collectChunks_refused (by decide) (by decide)
      exact fun hx => by cases he.symm.trans hx

theorem sendChunks_oneFrame_iff {data : Bytes}
    (h : (cardSession extendedOk).transceive maxResponseLen tx st =
      some (.ok (data ++ [0x91, 0x00]), st')) :
    (∃ fuel st'', sendChunks (cardSession extendedOk) fuel outMax tx st =
      some (.ok bytes, st'')) ↔ data.length ≤ outMax ∧ bytes = data := by
  simp only [sendChunks_of_transceive h]
  constructor
  · rintro ⟨fuel, st'', hx⟩
    cases fuel with
    | zero => cases hx
    | succ fuel =>
      by_cases hfit : data.length ≤ outMax
      · rw [collectChunks_last (by simpa using hfit)] at hx
        cases hx
        exact ⟨hfit, rfl⟩
      · rw [collectChunks_status, if_pos (by simpa using hfit)] at hx
        cases hx
  · rintro ⟨hfit, rfl⟩
    exact ⟨1, st', collectChunks_last (by simpa using hfit)⟩

theorem FileRef.length_contents (f : FileRef cfg) (hrow : f.dataLen.toNat ≤ cfg.maxFileSize) :
    f.contents.length = f.dataLen.toNat := by
  have hidx : (f.idx + 1) * cfg.maxFileSize ≤ cfg.maxFiles * cfg.maxFileSize :=
    Nat.mul_le_mul_right _ f.idx.isLt
  rw [Nat.succ_mul] at hidx
  exact length_slice _ (by omega)

section Range

variable (h : Readable st fileId f) (hin : offset.toNat + length.toNat ≤ f.dataLen.toNat)
include h hin

theorem readRequest_readApdu : readOffset (readApdu fileId offset length) = offset ∧
      readLength (readApdu fileId offset length) = length ∧
      readRequest .data st.model st.session (readApdu fileId offset length) = some (.ok f) := by
  have hlen := f.dataLen.toNat_lt
  have ho : readOffset (readApdu fileId offset length) = offset :=
    le24_le32Bytes (by omega)
  have hl : readLength (readApdu fileId offset length) = length :=
    le24_le32Bytes (by omega)
  refine ⟨ho, hl, ?_⟩
  have haddr : addressedFile Status.permissionDenied 7 st.model st.session
      (readApdu fileId offset length) = some (.ok f) := by
    have hlc : ¬ (readApdu fileId offset length).lc < 7 := by
      simp [Apdu.lc, readApdu, le32Bytes]
    have hid : byteAt (readApdu fileId offset length).data 0 = fileId := rfl
    simp only [addressedFile, h.selected, if_neg hlc, hid, h.file, f.idx.isLt, dif_pos]
  have hbound : ¬ f.dataLen.toUInt32 < offset + length := by
    rw [UInt32.lt_iff_toNat_lt, UInt32.toNat_add, toNat_toUInt32]
    omega
  simp only [readRequest, haddr, ReadKind.allows, not_true_eq_false, if_false, h.auth, ho, hl,
    if_neg hbound]

theorem readsRange_of_oneFrame {off len : ℕ}
    (hoff : (readWindow .data st.session f (readApdu fileId offset length)).1.toNat = off)
    (hlen : (readWindow .data st.session f (readApdu fileId offset length)).2.toNat = len)
    (hinside : off + len ≤ f.dataLen.toNat) (hone : len ≤ maxChunk) :
    ReadsRange extendedOk st f fileId offset length outMax ↔ len ≤ outMax ∧
      (f.contents.drop offset.toNat).take length.toNat = (f.contents.drop off).take len := by
  obtain ⟨-, -, hreq⟩ := readRequest_readApdu h hin
  have hrow := dataLen_le_of_addressed h.model (readRequest_eq_ok hreq).1
  have hchunk : ((f.contents.drop off).take len).length = len := by
    rw [length_take, length_drop, f.length_contents hrow]
    omega
  have hread := cmdReadFile_of_inside h.model hreq (by rw [WindowInside, hoff, hlen]; exact hinside)
  rw [chunkLen, hoff, hlen, if_neg (Nat.not_lt.mpr hone), Nat.min_eq_left hone] at hread
  have happ := onApdu_readApdu h.initialized fileId offset length
  rw [hread] at happ
  have hx := transceive_card (apduParse_readChunk extendedOk fileId offset length)
    happ (by
      rw [length_append, hchunk]
      exact Nat.add_le_add_right hone 2)
  rw [ReadsRange, sendChunks_oneFrame_iff hx, hchunk]

theorem not_readsRange_of_more
    (hmore : maxChunk < (readWindow .data st.session f (readApdu fileId offset length)).2.toNat) :
    ¬ ReadsRange extendedOk st f fileId offset length outMax := by
  rintro ⟨fuel, st'', hx⟩
  obtain ⟨-, -, hreq⟩ := readRequest_readApdu h hin
  have happ := onApdu_readApdu h.initialized fileId offset length
  simp only [cmdReadFile, hreq, if_pos hmore] at happ
  cases hread : f.read? (readWindow .data st.session f
      (readApdu fileId offset length)).1.toNat maxChunk with
  | none =>
    -- a window beyond the file may leave the array of the model
    rw [hread] at happ
    have hnone : (cardSession extendedOk).transceive maxResponseLen
        (readChunk 0xBD fileId offset length) st = none := by
      simp only [Session.transceive, cardSession, if_true, apduParse_readChunk, happ]
      rfl
    rw [sendChunks, Poll.bind_of_none hnone] at hx
    cases hx
  | some data =>
    rw [hread] at happ
    have hdata : data.length ≤ maxChunk := by
      obtain ⟨-, rfl⟩ := (read?_eq_some_iff _ _ _ _).mp hread
      exact length_slice_le _ _ _
    simp only [map_some, sendDataStatus_of_le hdata] at happ
    refine sendChunks_of_pending ?_ ?_ f.app ?_
      (transceive_card (apduParse_readChunk extendedOk fileId offset length) happ ?_) fuel hx
    · exact h.initialized
    · exact (afterRead_pendingCmd _ _ _ _).trans (if_pos hmore)
    · rw [selectedApp_congr (afterRead_selectedApp _ _ _ _)]
      exact h.selected
    · rw [length_append]
      exact Nat.add_le_add_right hdata 2

/-- With a READ_DATA pending the offset and the length of the command are not looked at: the rest of
the file is sent. -/
theorem readsRange_iff_resumed (extendedOk : Bool) (hout : length.toNat ≤ outMax)
    (hp : st.session.pendingCmd = .readData) :
    ReadsRange extendedOk st f fileId offset length outMax ↔ length.toNat ≤ 253 ∧
      st.session.pendingOffset.toNat ≤ f.dataLen.toNat ∧
      f.contents.drop st.session.pendingOffset.toNat =
        (f.contents.drop offset.toNat).take length.toNat := by
  have hmax : maxChunk = 253 := rfl
  obtain ⟨-, -, hreq⟩ := readRequest_readApdu h hin
  have hcontents := f.length_contents (dataLen_le_of_addressed h.model (readRequest_eq_ok hreq).1)
  have hw : readWindow .data st.session f (readApdu fileId offset length) =
      (st.session.pendingOffset.toUInt32,
        f.dataLen.toUInt32 - st.session.pendingOffset.toUInt32) := if_pos hp
  have hrange : ((f.contents.drop offset.toNat).take length.toNat).length = length.toNat := by
    rw [length_take, length_drop]
    omega
  have hpoff := st.session.pendingOffset.toNat_lt
  by_cases hpast : f.dataLen < st.session.pendingOffset
  · -- the length wraps around, so the read never ends
    have hwrap := resumedLength_toNat _ _ hpast
    refine iff_of_false (not_readsRange_of_more h hin ?_) fun hr => ?_
    · rw [hw, hwrap]
      omega
    · exact absurd hr.2.1 (Nat.not_le.mpr hpast)
  rw [lt_iff_toNat_lt, Nat.not_lt] at hpast
  have hlen : (f.dataLen.toUInt32 - st.session.pendingOffset.toUInt32).toNat =
      f.dataLen.toNat - st.session.pendingOffset.toNat := by
    rw [UInt32.toNat_sub_of_le, toNat_toUInt32, toNat_toUInt32]
    exact hpast
  have hrest : (f.contents.drop st.session.pendingOffset.toNat).length =
      f.dataLen.toNat - st.session.pendingOffset.toNat := by
    rw [length_drop, hcontents]
  -- equal lists have equal lengths, so the rest of the file is then as long as the range
  have hlens (heq : f.contents.drop st.session.pendingOffset.toNat =
      (f.contents.drop offset.toNat).take length.toNat) :
      f.dataLen.toNat - st.session.pendingOffset.toNat = length.toNat := by
    rw [← hrest, heq, hrange]
  by_cases hone : f.dataLen.toNat - st.session.pendingOffset.toNat ≤ maxChunk
  · rw [readsRange_of_oneFrame h hin (by rw [hw, toNat_toUInt32]) (by rw [hw, hlen])
      (by omega) hone, take_of_length_le hrest.le]
    constructor
    · rintro ⟨-, heq⟩
      have hsame := hlens heq.symm
      exact ⟨by omega, hpast, heq.symm⟩
    · rintro ⟨-, -, heq⟩
      have hsame := hlens heq
      exact ⟨by omega, heq.symm⟩
  · refine iff_of_false (not_readsRange_of_more h hin ?_) fun hr => ?_
    · rw [hw, hlen]
      exact Nat.not_le.mp hone
    · have hsame := hlens hr.2.2
      omega

theorem readsRange_iff_started (extendedOk : Bool) (hout : length.toNat ≤ outMax)
    (hp : st.session.pendingCmd ≠ .readData) :
    ReadsRange extendedOk st f fileId offset length outMax ↔ length.toNat ≤ 253 := by
  obtain ⟨ho, hl, -⟩ := readRequest_readApdu h hin
  have hw : readWindow .data st.session f (readApdu fileId offset length) = (offset, length) := by
    rw [readWindow, if_neg (show ¬ _ = ReadKind.data.pending from hp), ho, hl]
  by_cases hone : length.toNat ≤ maxChunk
  · rw [readsRange_of_oneFrame h hin (by rw [hw]) (by rw [hw]) hin hone]
    exact iff_of_true ⟨hout, rfl⟩ hone
  · refine iff_of_false (not_readsRange_of_more h hin ?_) hone
    rw [hw]
    exact Nat.not_le.mp hone

end Range

theorem readsRange_iff (extendedOk : Bool) (h : Readable st fileId f)
    (hin : offset.toNat + length.toNat ≤ f.dataLen.toNat) (hout : length.toNat ≤ outMax) :
    ReadsRange extendedOk st f fileId offset length outMax ↔ length.toNat ≤ 253 ∧
      (st.session.pendingCmd = .readData →
        st.session.pendingOffset.toNat ≤ f.dataLen.toNat ∧
        f.contents.drop st.session.pendingOffset.toNat =
          (f.contents.drop offset.toNat).take length.toNat) := by
  by_cases hp : st.session.pendingCmd = .readData
  · rw [readsRange_iff_resumed h hin extendedOk hout hp]
    exact and_congr_right fun _ => ⟨fun hrest _ => hrest, fun hrest => hrest hp⟩
  · rw [readsRange_iff_started h hin extendedOk hout hp]
    exact ⟨fun hlen => ⟨hlen, fun hp' => absurd hp' hp⟩, fun hr => hr.1⟩

end Read

def selectedState : State .default :=
  { twoFileState with session := { twoFileState.session with selectedApp := 0 } }

theorem selectedState_run : listener.run .boot [.init (some twoFileCard),
    .reader (.apdu (nativeApdu 0x5A [0, 0, 0]))] =
      some (selectedState, [none, some [0x91, 0x00]]) := by
  decide +kernel

theorem readable_firstFile : Readable selectedState 1 ⟨twoFileApp, 0, by decide⟩ where
  initialized := rfl
  model := twoFileCard_valid
  selected := rfl
  file := rfl
  auth := rfl

theorem readsRange_shortRange :
    ReadsRange false selectedState ⟨twoFileApp, 0, by decide⟩ 1 3 253 255 :=
  (readsRange_iff false readable_firstFile (by decide) (by decide)).mpr
    ⟨by decide, fun hp => by cases hp⟩

/-- The first file of 256 bytes in a reachable session without anything pending: a range of 254
bytes is announced to go on, and the additional frame is refused with 917E. -/
theorem readsRange_longRange :
    listener.run .boot [.init (some twoFileCard), .reader (.apdu (nativeApdu 0x5A [0, 0, 0]))] =
        some (selectedState, [none, some [0x91, 0x00]]) ∧
      Readable selectedState 1 ⟨twoFileApp, 0, by decide⟩ ∧
      ¬ ReadsRange false selectedState ⟨twoFileApp, 0, by decide⟩ 1 0 254 255 ∧
      (sendChunks (cardSession false) 2 255 (readChunk 0xBD 1 0 254) selectedState).map (·.1) =
        some (.error .eio) := by
  refine ⟨selectedState_run, readable_firstFile, ?_, by decide +kernel⟩
  refine not_readsRange_of_more readable_firstFile (by decide) (by decide)

end NfcStack.Desfire
