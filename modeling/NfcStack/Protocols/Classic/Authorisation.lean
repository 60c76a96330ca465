import NfcStack.Protocols.Classic.Authentication
import NfcStack.Protocols.Classic.Stored

/-!
# Reads and authentications of the Classic listener

A load leaves the authentication of the card before it, and with it the right to read the same sector
of the new card. Otherwise every block that is sent is in a sector that was authenticated.
-/

namespace NfcStack.Classic

open Option

variable {cfg : Config}

inductive Event (cfg : Config)
  | init (model : Option (Data cfg))
  | shutdown
  | load (bytes : Bytes)
  | command (tx : Bytes)

def Data.acceptsAnswer (model : Data cfg) (blockNum : UInt8) (tx : Bytes) : Bool :=
  match keyAForBlock model blockNum with
  | none => false
  | some key =>
    let nt := makeNt (getSectorByBlock blockNum)
    let c := challengeCrypto key (cuidFromUid model.uid model.uidLen) nt
    let nr := beNum 32 (tx.take 4)
    let ar := beNum 32 ((tx.drop 4).take 4)
    decide (ar ^^^ (word Crypto1.bit (word Crypto1.bit c nr true).1 0 false).2 =
      prngSuccessor nt 64)

/-- The listener, the block of an authentication that was begun with the card that is loaded, and
the block of one that was completed since, with no other begun after it. -/
structure Run (cfg : Config) where
  st : State cfg
  begun : Option UInt8
  authed : Option UInt8

def Run.boot : Run cfg := ⟨.boot, none, none⟩

def isAuthCommand (tx : Bytes) : Bool :=
  tx.length == 2 && (byteAt tx 0 == 0x60 || byteAt tx 0 == 0x61)

def Run.note (r : Run cfg) (tx : Bytes) (st' : State cfg) (resp : Option Bytes) : Run cfg :=
  if ¬ r.st.initialized then ⟨st', r.begun, r.authed⟩
  -- a new authentication ends the one before it, also when it gets no nonce
  else if isAuthCommand tx then ⟨st', resp.map fun _ => byteAt tx 1, none⟩
  else if tx.length = 8 ∧ r.begun.isSome then
    ⟨st', none, r.begun.filter fun blockNum => r.st.model.acceptsAnswer blockNum tx && resp.isSome⟩
  else ⟨st', r.begun, r.authed⟩

def listener : Machine (Run cfg) (Event cfg) (Option Bytes) where
  step r
    | .init model => some (⟨listenerInit r.st model, none, none⟩, none)
    | .shutdown => some (⟨listenerShutdown r.st, none, none⟩, none)
    | .load bytes =>
      let st' := (listenerDeserialize r.st bytes).1
      -- another card, so nothing that was begun or completed counts any more
      if r.st.initialized then some (⟨st', none, none⟩, none)
      else some (⟨st', r.begun, r.authed⟩, none)
    | .command tx => (onTagCmd r.st tx).map fun x => (r.note tx x.1 x.2, x.2)

def State.requested (st : State cfg) (tx : Bytes) : Option UInt8 :=
  match Framing.crcTrim (crypt st.crypto tx).2 with
  | [_, blockNum] => some blockNum
  | _ => none

def ReadAuthorised (r : Run cfg) : Event cfg → Option (Run cfg × Option Bytes) → Prop
  | .command tx, some (_, some resp) => resp.length = blockSize + 2 →
      (r.st.requested tx).isSome = true ∧
        r.authed.map getSectorByBlock = (r.st.requested tx).map getSectorByBlock
  | _, _ => True

instance instDecidableReadAuthorised (r : Run cfg) :
    (e : Event cfg) → (out : Option (Run cfg × Option Bytes)) → Decidable (ReadAuthorised r e out)
  | .command _, some (_, some resp) => inferInstanceAs (Decidable (resp.length = _ → _ ∧ _))
  | .command _, some (_, none) | .command _, none => .isTrue trivial
  | .init _, _ | .shutdown, _ | .load _, _ => .isTrue trivial

def LoadIdle (st : State cfg) : Event cfg → Prop
  | .load _ => st.initialized = true → st.pendingAuth2 = false ∧ st.authComplete = false
  | _ => True

instance instDecidableLoadIdle (st : State cfg) : (e : Event cfg) → Decidable (LoadIdle st e)
  | .load _ => inferInstanceAs (Decidable (_ → _ ∧ _))
  | .init _ | .shutdown | .command _ => .isTrue trivial

structure State.Waits (st : State cfg) (blockNum : UInt8) : Prop where
  block : st.authBlock = blockNum
  nt : st.nt = makeNt (getSectorByBlock blockNum)
  crypto : ∃ key, keyAForBlock st.model blockNum = some key ∧
    st.crypto = challengeCrypto key (cuidFromUid st.model.uid st.model.uidLen) st.nt

structure Run.Inv (r : Run cfg) : Prop where
  begun : r.begun.isSome = r.st.pendingAuth2
  waits : ∀ blockNum, r.begun = some blockNum → r.st.Waits blockNum ∧ r.st.authComplete = false
  complete : r.st.authComplete = true → r.authed = some r.st.authBlock

variable {st st' : State cfg} {tx : Bytes} {resp : Option Bytes} {blockNum : UInt8}

theorem handleAuthFirst_cases (h : handleAuthFirst st blockNum = some (st', resp)) :
    st'.authComplete = false ∧ st'.pendingAuth2 = resp.isSome ∧
      (∀ rx, resp = some rx → rx.length = 4 ∧ st'.Waits blockNum) := by
  rw [handleAuthFirst] at h
  split at h
  · cases h
    exact ⟨rfl, rfl, by rintro _ ⟨⟩⟩
  · obtain ⟨key, hkey, heq⟩ := map_eq_some_iff.mp h
    cases heq
    refine ⟨rfl, rfl, ?_⟩
    rintro rx ⟨rfl⟩
    exact ⟨rfl, rfl, rfl, key, hkey, rfl⟩

theorem handleAuthSecond_cases (hwaits : st.Waits blockNum)
    (hpending : st.pendingAuth2 = true) (hlen : tx.length = 8) :
    (handleAuthSecond st tx).1.pendingAuth2 = false ∧
      (∀ rx, (handleAuthSecond st tx).2 = some rx → rx.length = 4) ∧
      ((handleAuthSecond st tx).1.authComplete = true →
        (st.model.acceptsAnswer blockNum tx && (handleAuthSecond st tx).2.isSome) = true ∧
          (handleAuthSecond st tx).1.authBlock = blockNum) := by
  -- the register is the one that the nonce was sent with
  obtain ⟨key, hkey, hcrypto⟩ := hwaits.crypto
  rw [handleAuthSecond, if_neg (by simp [hlen, hpending])]
  simp only
  split
  · exact ⟨rfl, by rintro _ ⟨⟩, by rintro ⟨⟩⟩
  next haccept =>
  refine ⟨rfl, ?_, ?_⟩
  · rintro rx ⟨rfl⟩
    exact length_crypt _ _
  · intro _
    refine ⟨?_, hwaits.block⟩
    rw [not_not, hcrypto, hwaits.nt] at haccept
    have haccepts : st.model.acceptsAnswer blockNum tx = true := by
      rw [Data.acceptsAnswer, hkey]
      exact decide_eq_true haccept
    rw [haccepts]
    rfl

theorem handleRead_cases (h : handleRead st tx = some (st', resp)) :
    (∃ c, st' = { st with crypto := c }) ∧
      (∀ rx, resp = some rx → st.authComplete = true ∧ (st.requested tx).isSome = true ∧
        some (getSectorByBlock st.authBlock) = (st.requested tx).map getSectorByBlock) := by
  rw [handleRead] at h
  split at h
  · cases h
    exact ⟨⟨st.crypto, rfl⟩, by rintro _ ⟨⟩⟩
  next hcomplete =>
  simp only at h
  split at h
  · cases h
    exact ⟨⟨_, rfl⟩, by rintro _ ⟨⟩⟩
  split at h
  · next command blockNum hplain =>
    split at h
    · cases h
      exact ⟨⟨_, rfl⟩, by rintro _ ⟨⟩⟩
    next hsector =>
    obtain ⟨block, -, heq⟩ := map_eq_some_iff.mp h
    cases heq
    refine ⟨⟨_, rfl⟩, ?_⟩
    intro rx _
    push Not at hcomplete hsector
    have hrequested : st.requested tx = some blockNum := by
      rw [State.requested, hplain]
    rw [hrequested]
    exact ⟨hcomplete.1, rfl, congrArg some hsector.2.2⟩
  · cases h
    exact ⟨⟨_, rfl⟩, by rintro _ ⟨⟩⟩

theorem onTagCmd_cases (hinit : st.initialized = true) (h : onTagCmd st tx = some (st', resp)) :
    (isAuthCommand tx = true ∧ handleAuthFirst st (byteAt tx 1) = some (st', resp)) ∨
    (st.pendingAuth2 = true ∧ tx.length = 8 ∧ handleAuthSecond st tx = (st', resp)) ∨
    (st.authComplete = true ∧ tx.length = 4 ∧ handleRead st tx = some (st', resp)) ∨
    (isAuthCommand tx = false ∧ (tx.length = 8 → st.pendingAuth2 = false) ∧ st' = st ∧
      resp = none) := by
  rw [onTagCmd] at h
  split at h
  · next hsilent =>
    cases h
    have hlen : tx.length = 0 := hsilent.resolve_left (by simp [hinit])
    exact .inr (.inr (.inr ⟨by simp [isAuthCommand, hlen], by omega, rfl, rfl⟩))
  split at h
  · next hanswer => exact .inr (.inl ⟨hanswer.1, hanswer.2, some.inj h⟩)
  next hanswer =>
  have hpending : tx.length = 8 → st.pendingAuth2 = false :=
    fun hlen => Bool.not_eq_true _ ▸ fun hp => hanswer ⟨hp, hlen⟩
  split at h
  · next hlen =>
    split at h
    · next hauth => exact .inl ⟨by simpa [isAuthCommand, hlen] using hauth, h⟩
    · next hauth =>
      cases h
      exact .inr (.inr (.inr ⟨by simpa [isAuthCommand, hlen] using hauth, hpending, rfl, rfl⟩))
  next hlen =>
  split at h
  · next hread => exact .inr (.inr (.inl ⟨hread.1, hread.2, h⟩))
  · cases h
    exact .inr (.inr (.inr ⟨by simp [isAuthCommand, hlen], hpending, rfl, rfl⟩))

theorem onTagCmd_of_not_initialized (hinit : st.initialized = false) :
    onTagCmd st tx = some (st, none) := if_pos (.inl (by simp [hinit]))

theorem Run.note_of_other {r : Run cfg} (hauth : isAuthCommand tx = false)
    (hlen : tx.length = 8 → r.begun = none) (st' : State cfg) (resp : Option Bytes) :
    r.note tx st' resp = ⟨st', r.begun, r.authed⟩ := by
  rw [Run.note, hauth]
  split
  · rfl
  · rw [if_neg (by decide), if_neg]
    rintro ⟨h8, hsome⟩
    rw [hlen h8] at hsome
    cases hsome

section Note

variable {r : Run cfg}

theorem Run.Inv.note_first (hinit : r.st.initialized = true) (hauth : isAuthCommand tx = true)
    (hfirst : handleAuthFirst r.st (byteAt tx 1) = some (st', resp)) :
    (r.note tx st' resp).Inv := by
  obtain ⟨hcomplete, hpending, hwaits⟩ := handleAuthFirst_cases hfirst
  rw [Run.note, if_neg (by simp [hinit]), if_pos hauth]
  refine ⟨?_, ?_, ?_⟩
  · rw [hpending]
    exact isSome_map
  · intro blockNum hblock
    obtain ⟨rx, hrx, rfl⟩ := map_eq_some_iff.mp hblock
    exact ⟨(hwaits rx hrx).2, hcomplete⟩
  · intro hc
    rw [show st'.authComplete = true from hc] at hcomplete
    cases hcomplete

theorem Run.Inv.note_second (h : r.Inv) (hinit : r.st.initialized = true)
    (hpending : r.st.pendingAuth2 = true) (hlen : tx.length = 8)
    (hsecond : handleAuthSecond r.st tx = (st', resp)) : (r.note tx st' resp).Inv := by
  obtain ⟨blockNum, hblock⟩ := isSome_iff_exists.mp (h.begun.trans hpending)
  obtain ⟨hdone, -, haccept⟩ := handleAuthSecond_cases (h.waits blockNum hblock).1 hpending hlen
  rw [hsecond] at hdone haccept
  rw [Run.note, if_neg (by simp [hinit]), if_neg (by simp [isAuthCommand, hlen]),
    if_pos ⟨hlen, by rw [hblock]; rfl⟩, hblock]
  refine ⟨hdone.symm, by rintro _ ⟨⟩, ?_⟩
  intro hc
  obtain ⟨hok, hsame⟩ := haccept hc
  simp only [Option.filter, hok, if_true]
  rw [hsame]

theorem Run.Inv.begun_of_complete (h : r.Inv) (hcomplete : r.st.authComplete = true) :
    r.begun = none := by
  by_contra hbegun
  obtain ⟨blockNum, hblock⟩ := ne_none_iff_exists'.mp hbegun
  rw [(h.waits blockNum hblock).2] at hcomplete
  cases hcomplete

theorem Run.Inv.note (h : r.Inv) (hcmd : onTagCmd r.st tx = some (st', resp)) :
    (r.note tx st' resp).Inv := by
  cases hinit : r.st.initialized with
  | false =>
    rw [onTagCmd_of_not_initialized hinit] at hcmd
    cases hcmd
    rw [Run.note, if_pos (by simp [hinit])]
    exact ⟨h.begun, h.waits, h.complete⟩
  | true =>
  rcases onTagCmd_cases hinit hcmd with ⟨hauth, hfirst⟩ | ⟨hpending, hlen, hsecond⟩ |
    ⟨hcomplete, hlen, hread⟩ | ⟨hauth, hpending, rfl, rfl⟩
  · exact note_first hinit hauth hfirst
  · exact h.note_second hinit hpending hlen hsecond
  · -- a read, which comes after a complete authentication
    have hnone := h.begun_of_complete hcomplete
    obtain ⟨⟨c, rfl⟩, -⟩ := handleRead_cases hread
    rw [Run.note_of_other (by simp [isAuthCommand, hlen]) (fun _ => hnone)]
    refine ⟨h.begun, ?_, h.complete⟩
    intro blockNum hblock
    rw [hnone] at hblock
    cases hblock
  · rw [Run.note_of_other hauth]
    · exact ⟨h.begun, h.waits, h.complete⟩
    · intro hlen
      have hnone := h.begun.trans (hpending hlen)
      exact not_isSome_iff_eq_none.mp (by simp [hnone])

end Note

theorem Run.Inv.authorised {r : Run cfg} (h : r.Inv) (e : Event cfg) :
    ReadAuthorised r e (listener.step r e) := by
  cases e with
  | init | shutdown => trivial
  | load bytes =>
    trivial
  | command tx =>
    cases hcmd : onTagCmd r.st tx with
    | none =>
      simp only [listener, hcmd, map_none]
      trivial
    | some x =>
      obtain ⟨st', resp⟩ := x
      simp only [listener, hcmd, map_some]
      cases resp with
      | none => trivial
      | some rx =>
        intro hlong
        cases hinit : r.st.initialized with
        | false =>
          rw [onTagCmd_of_not_initialized hinit] at hcmd
          cases hcmd
        | true =>
        rcases onTagCmd_cases hinit hcmd with ⟨hauth, hfirst⟩ | ⟨hpending, hlen, hsecond⟩ |
          ⟨hcomplete, hlen, hread⟩ | ⟨-, -, -, hsilent⟩
        · -- the nonce is shorter than a block
          have hshort := ((handleAuthFirst_cases hfirst).2.2 rx rfl).1
          rw [hshort] at hlong
          cases hlong
        · obtain ⟨blockNum, hblock⟩ := isSome_iff_exists.mp (h.begun.trans hpending)
          have hshort := (handleAuthSecond_cases (h.waits blockNum hblock).1 hpending hlen).2.1 rx
            (by rw [hsecond])
          rw [hshort] at hlong
          cases hlong
        · obtain ⟨-, hsome, hsector⟩ := (handleRead_cases hread).2 rx rfl
          rw [h.complete hcomplete]
          exact ⟨hsome, hsector⟩
        · cases hsilent

theorem Run.Inv.of_idle {st : State cfg} (hpending : st.pendingAuth2 = false)
    (hcomplete : st.authComplete = false) : Run.Inv ⟨st, none, none⟩ := by
  refine ⟨hpending.symm, by rintro _ ⟨⟩, ?_⟩
  intro hc
  rw [show st.authComplete = true from hc] at hcomplete
  cases hcomplete

theorem Run.Inv.step {r r' : Run cfg} {e : Event cfg} {out : Option Bytes} (h : r.Inv)
    (hidle : LoadIdle r.st e) (hstep : listener.step r e = some (r', out)) : r'.Inv := by
  cases e with
  | init model =>
    cases hstep
    exact .of_idle rfl rfl
  | shutdown =>
    cases hstep
    exact .of_idle rfl rfl
  | load bytes =>
    simp only [listener] at hstep
    cases hinit : r.st.initialized with
    | true =>
      obtain ⟨hpending, hcomplete⟩ := hidle hinit
      have hload : listenerDeserialize r.st bytes =
          ({ r.st with model := (CardData.deserialize bytes).1.toData },
            (CardData.deserialize bytes : CardData cfg × Ret).2) := if_neg (not_not_intro hinit)
      rw [if_pos hinit, hload] at hstep
      cases hstep
      exact .of_idle hpending hcomplete
    | false =>
      have hnone : ¬ r.st.initialized = true := by simp [hinit]
      have hload : listenerDeserialize r.st bytes = (r.st, .error .enodev) := if_pos hnone
      rw [if_neg hnone, hload] at hstep
      cases hstep
      exact h
  | command tx =>
    obtain ⟨x, hx, heq⟩ := map_eq_some_iff.mp hstep
    cases heq
    exact h.note hx

/-- As long as cards are loaded while no authentication is under way or complete, every block that is
sent is in a sector for which an authentication with key A of the card was completed since the card
is loaded, with no other begun after it. -/
theorem reads_authorised {events : List (Event cfg)}
    (h : listener.Always (fun r e _ => LoadIdle r.st e) Run.boot events) :
    listener.Always (fun r e out => ReadAuthorised r e out) Run.boot events := by
  have hboot : (Run.boot : Run cfg).Inv := .of_idle rfl rfl
  exact Machine.Always.imp listener (fun _ e hinv _ => hinv.authorised e)
    (fun _ _ _ _ hinv hidle hstep => hinv.step hidle hstep) hboot h

def oldCard : Data .default where
  type := .mini
  uid := .ofList 10 0 [0xDE, 0xAD, 0xBE, 0xEF]
  uidLen := 4
  blocks := (CArray.fill _ 0).write 48 [0xFF, 0xFF, 0xFF, 0xFF, 0xFF, 0xFF]

def newEntry : Bytes :=
  [0x01, 0x00, 4, 1, 2, 3, 4, 0x09, 0x04, 0x00] ++ List.replicate 48 0 ++
    (List.replicate 48 0x5A ++ [0xA0, 0xA1, 0xA2, 0xA3, 0xA4, 0xA5] ++ List.replicate 266 0x5A)

def oldCuid : BitVec 32 := 0xDEADBEEF#32

def readerNonce : Bytes := [1, 2, 3, 4]

def oldAnswer : Bytes :=
  (encryptReaderNonce defaultKey oldCuid (be32Bytes (makeNt 0)) readerNonce).2

def oldRead : Bytes :=
  (crypt (sessionCrypto defaultKey oldCuid (be32Bytes (makeNt 0)) readerNonce)
    (Framing.crcFrame crcA [0x30, 0])).2

theorem reads_authorised_oldCard : listener.Always (fun r e _ => LoadIdle r.st e) Run.boot
      [.init (some oldCard), .command [0x60, 0], .command oldAnswer, .command oldRead] ∧
    listener.Always (fun r e out => ReadAuthorised r e out) Run.boot
      [.init (some oldCard), .command [0x60, 0], .command oldAnswer, .command oldRead] := by
  have h : listener.Always (fun r e _ => LoadIdle r.st e) Run.boot
      [.init (some oldCard), .command [0x60, 0], .command oldAnswer, .command oldRead] := by
    decide +kernel
  exact ⟨h, reads_authorised h⟩

def afterLoad : Option (Run .default) :=
  (listener.run Run.boot [.init (some oldCard), .command [0x60, 0], .command oldAnswer,
    .load newEntry]).map Prod.fst

theorem new_card_is_read :
    (afterLoad.map fun r => (r.st.model.uidLen, r.st.model.block 0, r.authed)) =
      some (4, List.replicate 16 0x5A, none) ∧
    (afterLoad.bind fun r => (listener.step r (.command oldRead)).map fun x => x.2.map List.length) =
      some (some 18) ∧
    ¬ listener.Always (fun r e out => ReadAuthorised r e out) Run.boot
      [.init (some oldCard), .command [0x60, 0], .command oldAnswer, .load newEntry,
        .command oldRead] := by
  refine ⟨?_, ?_, ?_⟩ <;> decide +kernel

end NfcStack.Classic
