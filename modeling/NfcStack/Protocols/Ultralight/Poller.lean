import NfcStack.Protocols.Ultralight.Authentication
import NfcStack.Protocols.Ultralight.Password

/-!
# The Ultralight poller

`protocols/ultralight/ultralight_poller.c`: the type of the card, the pages in groups of four, with the
password where the configuration that was read so far asks for it, and last the signature, the counters
and the tearing flags. A page that is not answered ends the reading without an error.
-/

namespace NfcStack.Ultralight

open List Reader Poll

variable {cfg : Config} {τ : Type} (s : Session τ)

/-- The commands of `ultralight_poller_i.c` that check nothing but the length of the answer, with the
size of their receive array: the first `size` bytes. -/
def pollerCommand (array : ℕ) (tx : Bytes) (size : ℕ) : Poll τ (Except Errno Bytes) := do
  match ← pollerTransceive s array tx with
  | .error e => return .error e
  | .ok rx => return if rx.length < size then .error .eio else .ok (rx.take size)

def pollerReadPage (page : UInt8) : Poll τ (Except Errno Bytes) :=
  pollerCommand s maxResponseLen [0x30, page] 16

def pollerGetVersion : Poll τ (Except Errno Bytes) := pollerCommand s maxResponseLen [0x60] 8

def pollerReadSignature : Poll τ (Except Errno Bytes) :=
  pollerCommand s maxResponseLen [0x3C, 0x00] 32

def pollerReadCounter (index : UInt8) : Poll τ (Except Errno Bytes) :=
  pollerCommand s maxResponseLen [0x39, index] 3

def pollerReadTearing (index : UInt8) : Poll τ (Except Errno Bytes) :=
  pollerCommand s maxResponseLen [0x3E, index] 1

def pollerPwdAuth (pwd : Bytes) : Poll τ Ret := do
  match ← pollerCommand s maxResponseLen (0x1B :: pwd) 2 with
  | .error e => return .error e
  | .ok _ => return .ok ()

def pollerAuthenticationTest : Poll τ Ret := do
  match ← pollerSendAuthCmd s [0x1A, 0x00] true with
  | .error e => return .error e
  | .ok _ => return .ok ()

def versionIsZero (version : Bytes) : Bool := version.all (· == 0)

def CardType.ofVersion (version : Bytes) : CardType :=
  if versionIsZero version then .unknown
  else if byteAt version 6 = 0x0B then .ul11
  else if byteAt version 6 = 0x0E then .ul21
  else if byteAt version 6 = 0x0F then .ntag213
  else if byteAt version 6 = 0x11 then .ntag215
  else if byteAt version 6 = 0x13 then .ntag216
  else .unknown

def pagesTotalForType : CardType → UInt16
  | .origin => 16
  | .ul11 => 20
  | .ul21 => 41
  | .ntag203 => 42
  | .ntag213 => 45
  | .ntag215 => 135
  | .ntag216 => 231
  | .mfulC => 48
  | .unknown => 0

def identifyUnversioned : Poll τ CardType := do
  match ← pollerAuthenticationTest s with
  | .ok () => return .mfulC
  | .error _ =>
    -- the last page of an NTAG203, and far behind the end of a first Ultralight
    match ← pollerReadPage s 41 with
    | .error _ => return .origin
    | .ok _ => return .ntag203

def identifyType : Poll τ (CardType × Option Bytes) := do
  match ← pollerGetVersion s with
  | .error _ => return (← identifyUnversioned s, none)
  | .ok version =>
    -- the version is kept also where the type is not known by it
    let kept := if versionIsZero version then none else some version
    if CardType.ofVersion version ≠ .unknown then return (.ofVersion version, kept)
    return (← identifyUnversioned s, kept)

variable (config : ConfigBlock) (authenticated : Bool)

def tryPwdAuth : Poll τ (Bool × Ret) := do
  if authenticated then return (true, .error .einval)
  if ¬ config.valid then return (false, .error .enotsup)
  match ← pollerPwdAuth s config.pwd with
  | .ok () => return (true, .ok ())
  | .error e =>
    if config.authlim ≠ 0 then return (false, .error e)
    -- the number of attempts is not limited, so the password of a new card is tried, too
    match ← pollerPwdAuth s [0xFF, 0xFF, 0xFF, 0xFF] with
    | .ok () => return (true, .ok ())
    | .error e => return (false, .error e)

def readOrAuth (start : ℕ) : Poll τ (Bool × Option Bytes) := do
  match ← pollerReadPage s (UInt8.ofNat start) with
  | .ok bytes => return (authenticated, some bytes)
  | .error _ =>
    if authenticated ∨ ¬ config.valid then return (authenticated, none)
    let r ← tryPwdAuth s config authenticated
    if r.1 then return (true, (← pollerReadPage s (UInt8.ofNat start)).toOption)
    return (false, none)

def configStart (pagesTotal : UInt16) : ℕ := if pagesTotal < 5 then 0 else pagesTotal.toNat - 4

variable (data : Data cfg) (config : ConfigBlock) (authenticated : Bool) (start : ℕ)

def authBeforeConfig : Poll τ Bool :=
  if data.type.hasPasswordConfig ∧ config.valid ∧ ¬ authenticated ∧
      readProtectionEnabled config ∧ configStart data.pagesTotal ≤ start then
    Prod.fst <$> tryPwdAuth s config authenticated
  else pure authenticated

def readChunk : Poll τ (Bool × Option Bytes) := do
  let authenticated ← authBeforeConfig s data config authenticated start
  if pageNeedsAuth config start ∧ ¬ authenticated then
    -- a page that is known to be protected is not asked for without the password
    let r ← tryPwdAuth s config authenticated
    if r.2 ≠ .ok () then return (r.1, none)
    readOrAuth s config r.1 start
  else readOrAuth s config authenticated start

def copyReadChunk (data : Data cfg) (start : ℕ) (bytes : Bytes) : Option (Data cfg) :=
  let total := data.pagesTotal.toNat
  -- the last read may run past the last page
  (data.pages.write? (start * pageSize) (bytes.take ((total - start) * pageSize))).map fun pages =>
    { data with
      pages
      pagesRead := if start + 4 < total then UInt16.ofNat (start + 4) else data.pagesTotal }

/-- The loop of `ultralight_poller_read_pages`, with `n` reads to go. -/
def readPagesFrom : (n start : ℕ) → Bool → Data cfg → Poll τ (Data cfg)
  | 0, _, _, data => return data
  | n + 1, start, authenticated, data =>
    match parseConfig data with
    | none => Poll.undefined
    | some config => do
      match ← readChunk s data config authenticated start with
      | (_, none) => return data
      | (authenticated, some bytes) =>
        match copyReadChunk data start bytes with
        | none => Poll.undefined
        | some data => readPagesFrom n (start + 4) authenticated data

def Data.chunks (data : Data cfg) : ℕ := (data.pagesTotal.toNat + 3) / 4

def pollerReadPages (data : Data cfg) : Poll τ (Data cfg) :=
  readPagesFrom s data.chunks 0 false { data with pagesRead := 0 }

variable (rndA : CArray UInt8 8)

/-- `ultralight_poller_auth_ultralight_c` with the bytes `rndA` it draws: the data with the key if it
was right, `*authenticated` and the result. -/
def authUltralightC (data : Data cfg) : Poll τ (Data cfg × Bool × Ret) :=
  match (if 48 ≤ data.pagesRead then data.pages.read? (44 * pageSize) 16
    else some (List.replicate 16 0)) with
  | none => Poll.undefined
  | some key => do
    let r ← pollerAuthenticate s (.ofList 16 0 key) rndA
    if r = (true, .ok ()) then
      match data.pages.write? (44 * pageSize) key with
      | none => Poll.undefined
      | some pages => return ({ data with pages }, r)
    return (data, r)

/-- The loops of `ultralight_poller_read` over the counters and the tearing flags, with `n` items to
go. -/
def readItems (read : UInt8 → Poll τ (Except Errno Bytes))
    (store : Data cfg → ℕ → Bytes → Data cfg) : (n i : ℕ) → Data cfg → Poll τ (Data cfg)
  | 0, _, data => return data
  | n + 1, i, data => do
    match ← read (UInt8.ofNat i) with
    | .ok bytes => readItems read store n (i + 1) (store data i bytes)
    | .error _ => readItems read store n (i + 1) data

def Data.storeCounter (data : Data cfg) (i : ℕ) (bytes : Bytes) : Data cfg :=
  { data with
    counters := data.counters.write (i * 3) bytes
    counterCount := UInt8.ofNat (i + 1) }

def Data.storeTearing (data : Data cfg) (i : ℕ) (bytes : Bytes) : Data cfg :=
  { data with
    tearingFlags := data.tearingFlags.write i bytes
    tearingFlagCount := UInt8.ofNat (i + 1) }

def readSignature (data : Data cfg) : Poll τ (Data cfg) := do
  match ← pollerReadSignature s with
  | .ok bytes => return { data with signature := .ofList 32 0 bytes, hasSignature := true }
  | .error _ => return data

def readExtras (data : Data cfg) : Poll τ (Data cfg) := do
  let data ← readSignature s data
  let data ← readItems (pollerReadCounter s) Data.storeCounter 3 0 data
  readItems (pollerReadTearing s) Data.storeTearing 3 0 data

def identified (type : CardType) (version : Option Bytes) : Data cfg :=
  { (Data.reset : Data cfg) with
    type
    variant := .ofType type
    pagesTotal := pagesTotalForType type
    hasVersion := version.isSome
    version := .ofList 8 0 (version.getD []) }

/-- The authentication ahead of the pages, for the cards that have one. Its result is not looked
at. -/
def authBeforePages (data : Data cfg) : Poll τ (Data cfg) :=
  if data.type = .mfulC then Prod.fst <$> authUltralightC s rndA data else pure data

theorem authBeforePages_of_ne {data : Data cfg} (h : data.type ≠ .mfulC) :
    authBeforePages s rndA data = pure data := if_neg h

def pollerRead (out : Data cfg) : Poll τ (Data cfg × Ret) := do
  if ¬ s.active then return (out, .error .einval)
  let (type, version) ← identifyType s
  if pagesTotalForType type = 0 then return (.reset, .error .enotsup)
  let data ← authBeforePages s rndA (identified type version)
  let data ← pollerReadPages s data
  -- a card that was read in part is no error, and the fields behind its pages are left out
  if data.pagesRead < data.pagesTotal ∨ version = none then return (data, .ok ())
  return (← readExtras s data, .ok ())

def CardType.hasVersionCommand : CardType → Bool
  | .ul11 | .ul21 | .ntag213 | .ntag215 | .ntag216 => true
  | .origin | .ntag203 | .mfulC | .unknown => false

structure Data.Complete (data : Data cfg) : Prop where
  supported : data.type ≠ .unknown
  total : data.pagesTotal = pagesTotalForType data.type
  read : data.pagesRead = data.pagesTotal
  fits : data.pagesTotal.toNat ≤ cfg.maxPages
  hasVersion : data.hasVersion = data.type.hasVersionCommand
  version : data.hasVersion = true → CardType.ofVersion data.version.toList = data.type

namespace Type2

variable (silence : Errno) {rndB : Bytes} {st st' : State cfg}

theorem transceive_unanswered {tx : Bytes} (h : onTagCmd tdes2 st tx rndB = some (st', none)) :
    (listenerSession silence rndB).transceive maxResponseLen tx st =
      some (.error silence, st') := by
  simp only [Session.transceive, listenerSession, h, if_true, Option.map_some]

theorem pollerCommand_answered {tx rx : Bytes}
    (h : onTagCmd tdes2 st tx rndB = some (st', some rx)) (hlen : rx.length ≤ maxResponseLen) :
    pollerCommand (listenerSession silence rndB) maxResponseLen tx rx.length st = some (.ok rx, st') := by
  rw [pollerCommand, pollerTransceive_of_le _ le_rfl,
    bind_of_eq (transceive_answered silence h hlen)]
  show some (if rx.length < rx.length then _ else _, st') = _
  rw [if_neg (Nat.lt_irrefl _), take_length]

theorem pollerCommand_unanswered {tx : Bytes} (size : ℕ)
    (h : onTagCmd tdes2 st tx rndB = some (st', none)) :
    pollerCommand (listenerSession silence rndB) maxResponseLen tx size st = some (.error silence, st') := by
  rw [pollerCommand, pollerTransceive_of_le _ le_rfl, bind_of_eq (transceive_unanswered silence h)]
  rfl

theorem onTagCmd_getVersion (hinit : st.initialized = true) (tdes : Tdes) (rnd : Bytes) :
    onTagCmd tdes st [0x60] rnd =
      some (st, if st.model.hasVersion then some st.model.version.toList else none) := by
  show (if _ then _ else some (st, _)) = _
  rw [if_neg (by simp [hinit])]

theorem onTagCmd_read (hinit : st.initialized = true)
    (hfits : st.model.pagesTotal.toNat ≤ cfg.maxPages) (page : UInt8)
    (hread : ∀ p, page.toNat ≤ p → p < page.toNat + 4 → p < st.model.pagesTotal.toNat →
      pageReadable st p = true) (tdes : Tdes) (rnd : Bytes) :
    onTagCmd tdes st [0x30, page] rnd =
      some (st, some ((List.range' page.toNat 4).flatMap (pageBytes st))) := by
  show (if _ then _ else (handleRead st [0x30, page]).map (st, ·)) = _
  have hpage : byteAt [0x30, page] 1 = page := rfl
  rw [if_neg (by simp [hinit]), handleRead, hpage, readPages_of_readable hfits hread]
  rfl

theorem length_flatMap_pageBytes (hfits : st.model.pagesTotal.toNat ≤ cfg.maxPages) (page : ℕ) :
    ((List.range' page 4).flatMap (pageBytes st)).length = 16 := by
  simp [List.range', length_pageBytes hfits, pageSize]

variable (hinit : st.initialized = true)

include hinit

theorem identifyType_versioned (hcard : st.model.Complete)
    (hversion : st.model.type.hasVersionCommand = true) :
    identifyType (listenerSession silence rndB) st =
      some ((st.model.type, some st.model.version.toList), st) := by
  have hhas : st.model.hasVersion = true := hcard.hasVersion.trans hversion
  have htype := hcard.version hhas
  have hlength : st.model.version.toList.length = 8 := st.model.version.length_toList
  have hanswer : onTagCmd tdes2 st [0x60] rndB = some (st, some st.model.version.toList) := by
    rw [onTagCmd_getVersion hinit, if_pos hhas]
  have hget : pollerGetVersion (listenerSession silence rndB) st =
      some (.ok st.model.version.toList, st) := by
    have h := pollerCommand_answered silence hanswer (by rw [hlength]; decide)
    rwa [hlength] at h
  have hzero : versionIsZero st.model.version.toList = false := by
    by_contra hz
    rw [Bool.not_eq_false] at hz
    rw [CardType.ofVersion, if_pos hz] at htype
    exact hcard.supported htype.symm
  rw [identifyType, bind_of_eq hget]
  simp only [htype, hzero]
  rw [if_pos hcard.supported]
  rfl

theorem pollerAuthenticationTest_answered
    (htype : st.model.type = .mfulC) (hfits : 48 ≤ cfg.maxPages) (hB : rndB.length = 8) :
    ∃ st', pollerAuthenticationTest (listenerSession silence rndB) st = some (.ok (), st') := by
  have hkey : 44 * pageSize + 16 ≤ cfg.maxPages * pageSize := by
    simp only [pageSize]
    omega
  have hcard : st.HoldsKey ⟨st.model.pages.slice (44 * pageSize) 16,
      CArray.length_slice _ hkey⟩ := ⟨hinit, htype, CArray.read?_of_le _ hkey⟩
  have hanswer := onTagCmd_auth hcard rndB
  have hlength := length_tdesEncrypt (st.model.pages.slice (44 * pageSize) 16)
    (List.replicate 8 0) (show rndB.length = 8 * 1 from hB)
  have hsend := pollerSendAuthCmd_ok true (transceive_answered silence hanswer
    (by rw [length_cons, hlength]; decide)) (by rw [length_cons, hlength]) rfl
  rw [pollerAuthenticationTest, bind_of_eq hsend]
  exact ⟨_, rfl⟩

theorem pollerAuthenticationTest_unanswered (htype : st.model.type ≠ .mfulC) :
    pollerAuthenticationTest (listenerSession silence rndB) st = some (.error silence, st) := by
  have hanswer : onTagCmd tdes2 st [0x1A, 0x00] rndB = some (st, none) := by
    show (if _ then _ else handleAuthStart tdes2 st rndB) = _
    rw [if_neg (by simp [hinit]), handleAuthStart, if_pos htype]
  have hsend : pollerSendAuthCmd (listenerSession silence rndB) [0x1A, 0x00] true st =
      some (.error silence, st) := by
    rw [pollerSendAuthCmd, pollerTransceive_of_le _ le_rfl,
      bind_of_eq (transceive_unanswered silence hanswer)]
    rfl
  rw [pollerAuthenticationTest, bind_of_eq hsend]
  rfl

variable (hcard : st.model.Complete) (hversion : st.model.type.hasVersionCommand = false)
  (hB : rndB.length = 8)

include hcard hversion hB

theorem identifyUnversioned_eq : ∃ st', identifyUnversioned (listenerSession silence rndB) st =
      some (if st.model.type = .origin then .ntag203 else st.model.type, st') := by
  by_cases htype : st.model.type = .mfulC
  · have hfits := hcard.fits
    rw [hcard.total, htype] at hfits
    obtain ⟨st', htest⟩ := pollerAuthenticationTest_answered silence hinit htype hfits hB
    refine ⟨st', ?_⟩
    rw [identifyUnversioned, bind_of_eq htest, htype]
    rfl
  · have hpwd : st.model.type.hasPasswordConfig = false := by
      cases ht : st.model.type <;> simp_all [CardType.hasVersionCommand, CardType.hasPasswordConfig]
    have hanswer := onTagCmd_read hinit hcard.fits 41
      (fun p _ _ hp => pageReadable_of_type hpwd hp) tdes2 rndB
    have hlength := length_flatMap_pageBytes hcard.fits (41 : UInt8).toNat
    have hread := pollerCommand_answered silence hanswer (by rw [hlength]; decide)
    rw [hlength] at hread
    refine ⟨st, ?_⟩
    rw [identifyUnversioned, bind_of_eq (pollerAuthenticationTest_unanswered silence hinit htype)]
    simp only [pollerReadPage]
    rw [bind_of_eq hread]
    cases ht : st.model.type with
    | origin | ntag203 => rfl
    | mfulC => exact absurd ht htype
    | unknown => exact absurd ht hcard.supported
    | ul11 | ul21 | ntag213 | ntag215 | ntag216 =>
      rw [ht] at hversion
      cases hversion

theorem identifyType_unversioned : ∃ st', identifyType (listenerSession silence rndB) st =
      some ((if st.model.type = .origin then .ntag203 else st.model.type, none), st') := by
  have hhas : st.model.hasVersion = false := hcard.hasVersion.trans hversion
  have hanswer : onTagCmd tdes2 st [0x60] rndB = some (st, none) := by
    rw [onTagCmd_getVersion hinit, hhas]
    rfl
  have hget : pollerGetVersion (listenerSession silence rndB) st = some (.error silence, st) :=
    pollerCommand_unanswered silence 8 hanswer
  obtain ⟨st', hprobe⟩ := identifyUnversioned_eq silence hinit hcard hversion hB
  refine ⟨st', ?_⟩
  rw [identifyType, bind_of_eq hget]
  show (identifyUnversioned _ >>= _) st = _
  rw [bind_of_eq hprobe]
  rfl

omit hcard hversion hB

omit hinit

/-- The poller finds the type of a complete card of the listener exactly if the card is not a first
Ultralight. -/
theorem identifyType_iff (rndB : CArray UInt8 8) (hinit : st.initialized = true)
    (hcard : st.model.Complete) :
    (∃ version st', identifyType (listenerSession silence rndB.toList) st =
      some ((st.model.type, version), st')) ↔ st.model.type ≠ .origin := by
  cases hversion : st.model.type.hasVersionCommand with
  | true =>
    refine iff_of_true ⟨_, _, identifyType_versioned silence hinit hcard hversion⟩ ?_
    intro htype
    rw [htype] at hversion
    cases hversion
  | false =>
    obtain ⟨st', hid⟩ :=
      identifyType_unversioned silence hinit hcard hversion rndB.length_toList
    rw [hid]
    constructor
    · rintro ⟨version, st'', heq⟩ htype
      simp only [htype, if_true, Option.some.injEq, Prod.mk.injEq] at heq
      cases heq.1.1
    · intro htype
      exact ⟨none, st', by rw [if_neg htype]⟩

def blankCard (type : CardType) (version : Option (CArray UInt8 8)) : State .default where
  model := { (Data.reset : Data .default) with
    type
    variant := .ofType type
    pagesTotal := pagesTotalForType type
    pagesRead := pagesTotalForType type
    hasVersion := version.isSome
    version := version.getD (.fill _ 0) }
  config := .zero
  initialized := true
  auth := .idle
  rndB := List.replicate 8 0
  encB := List.replicate 8 0

theorem identifyType_ntag203 :
    ∃ version st', identifyType (listenerSession .etimedout (List.replicate 8 0))
      (blankCard .ntag203 none) = some ((.ntag203, version), st') := by
  have hcard : (blankCard .ntag203 none).model.Complete :=
    ⟨by decide, rfl, rfl, by decide, rfl, fun h => by cases h⟩
  exact (identifyType_iff .etimedout (.fill 8 0) rfl hcard).mpr (by decide)

def originFound : Option CardType :=
  (identifyType (listenerSession .etimedout (List.replicate 8 0)) (blankCard .origin none)).map
    fun r => r.1.1

theorem origin_taken_for_ntag203 :
    (blankCard .origin none).initialized = true ∧ (blankCard .origin none).model.Complete ∧
    originFound = some .ntag203 ∧ originFound ≠ some (blankCard .origin none).model.type := by
  have hfound : originFound = some .ntag203 := by decide +kernel
  refine ⟨rfl, ⟨by decide, rfl, rfl, by decide, rfl, fun h => by cases h⟩, hfound, ?_⟩
  decide

end Type2

end NfcStack.Ultralight
