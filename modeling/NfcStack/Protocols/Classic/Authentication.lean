import NfcStack.Protocols.Classic.Poller
import NfcStack.Protocols.Classic.Stream

/-!
# The authentication between Classic poller and listener

The poller feeds its nonce into the cipher in plain bytes, the listener takes the encrypted nonce as a
word. After the exchange both registers are the same (`mutual_authentication`).
-/

namespace NfcStack.Classic

open List Reader

variable {cfg : Config}

theorem ofBitVec_xor (k : BitVec 8) (b : UInt8) :
    UInt8.ofBitVec (k ^^^ b.toBitVec) = b ^^^ UInt8.ofBitVec k := by
  apply UInt8.toBitVec_inj.mp
  rw [UInt8.toBitVec_xor, BitVec.xor_comm]

variable (c : Crypto1)

theorem encryptNonce_eq (nr : Bytes) :
    encryptNonce c nr = ((feed false c nr).1, List.zipWith (· ^^^ ·) nr (feed false c nr).2) := by
  induction nr generalizing c with
  | nil => rfl
  | cons b bs ih => simp only [encryptNonce, ih, feed, zipWith_cons_cons, ofBitVec_xor]

def answerBytes (nt : BitVec 32) : Bytes :=
  [lowByte (prngSuccessor nt 40), lowByte (prngSuccessor nt 48), lowByte (prngSuccessor nt 56),
    lowByte (prngSuccessor nt 64)]

theorem encryptAnswer_eq (nt : BitVec 32) :
    encryptAnswer 4 c (prngSuccessor nt 32) =
      ((feed false c [0, 0, 0, 0]).1,
        List.zipWith (· ^^^ ·) (answerBytes nt) (feed false c [0, 0, 0, 0]).2) := by
  have hlow : ∀ (k : BitVec 8) (n : BitVec 32),
      UInt8.ofBitVec (k ^^^ n.setWidth 8) = lowByte n ^^^ UInt8.ofBitVec k :=
    fun k n => ofBitVec_xor k (lowByte n)
  simp only [encryptAnswer, prngSuccessor_add, hlow]
  rfl

theorem foldl_byte (bs : Bytes) :
    bs.foldl (fun c b => (byte Crypto1.bit c b.toBitVec false).1) c = (feed false c bs).1 := by
  induction bs generalizing c with
  | nil => rfl
  | cons b bs ih => exact ih _

theorem word_of_length {bs : Bytes} (h : bs.length = 4) (c : Crypto1) (enc : Bool) :
    word Crypto1.bit c (beNum 32 bs) enc = ((feed enc c bs).1, beNum 32 (feed enc c bs).2) := by
  match bs, h with
  | [b0, b1, b2, b3], _ => exact word_beNum c b0 b1 b2 b3 enc

theorem word_zero : word Crypto1.bit c 0 false =
      ((feed false c [0, 0, 0, 0]).1, beNum 32 (feed false c [0, 0, 0, 0]).2) :=
  word_beNum c 0 0 0 0 false

variable (key : BitVec 64) (cuid nt : BitVec 32)

def challengeCrypto : Crypto1 :=
  (word Crypto1.bit (Crypto1.init key) (nt ^^^ cuid) false).1

theorem encryptReaderNonce_eq (nr : Bytes) :
    (encryptReaderNonce key cuid (be32Bytes nt) nr).2 =
      List.zipWith (· ^^^ ·) nr (feed false (challengeCrypto key cuid nt) nr).2 ++
        List.zipWith (· ^^^ ·) (answerBytes nt)
          (feed false (feed false (challengeCrypto key cuid nt) nr).1 [0, 0, 0, 0]).2 := by
  simp only [encryptReaderNonce, beNum_be32Bytes, encryptNonce_eq, encryptAnswer_eq,
    challengeCrypto]

theorem sessionCrypto_eq (nr : Bytes) :
    sessionCrypto key cuid (be32Bytes nt) nr =
      (feed false (feed false (feed false (challengeCrypto key cuid nt) nr).1 [0, 0, 0, 0]).1
        [0, 0, 0, 0]).1 := by
  simp only [sessionCrypto, beNum_be32Bytes, foldl_byte, word_zero, challengeCrypto]
  rfl

def listenerSession (silence : Errno) : Session (State cfg) where
  active := true
  tag := ⟨fun st tx => (onTagCmd st tx).map fun r =>
    (r.1, match r.2 with
      | none => .error silence
      | some rx => .ok rx)⟩

variable {st st' : State cfg} (silence : Errno)

theorem transceive_answered {tx rx : Bytes}
    (h : onTagCmd st tx = some (st', some rx)) (hlen : rx.length ≤ maxResponseLen) :
    (listenerSession silence).transceive maxResponseLen tx st = some (.ok rx, st') :=
  Session.transceive_of_step rfl (by simp only [listenerSession, h, Option.map_some]) hlen

structure State.Challenged (st : State cfg) (key : BitVec 64) (cuid : BitVec 32) : Prop where
  initialized : st.initialized = true
  pending : st.pendingAuth2 = true
  crypto : st.crypto = challengeCrypto key cuid st.nt

structure State.Shares (st : State cfg) (c : Crypto1) : Prop where
  initialized : st.initialized = true
  complete : st.authComplete = true
  pending : st.pendingAuth2 = false
  crypto : st.crypto = c

structure State.SameCard (st st' : State cfg) : Prop where
  model : st'.model = st.model
  authBlock : st'.authBlock = st.authBlock

variable {cuid : BitVec 32} {key : BitVec 64}

theorem handleAuthSecond_answer (h : st.Challenged key cuid) {nr : Bytes} (hnr : nr.length = 4) :
    ∃ rx, handleAuthSecond st (encryptReaderNonce key cuid (be32Bytes st.nt) nr).2 =
        ({ st with
          crypto := sessionCrypto key cuid (be32Bytes st.nt) nr
          pendingAuth2 := false
          authComplete := true }, some rx) ∧ rx.length = 4 := by
  have hfirst : (List.zipWith (· ^^^ ·) nr
      (feed false (challengeCrypto key cuid st.nt) nr).2).length = 4 := by
    rw [length_zipWith, length_feed, hnr]
    rfl
  have hsecond : (List.zipWith (· ^^^ ·) (answerBytes st.nt)
      (feed false (feed false (challengeCrypto key cuid st.nt) nr).1 [0, 0, 0, 0]).2).length = 4 := by
    rfl
  -- the listener decrypts the answer with the keystream the poller has encrypted it with
  have hsecret : beNum 32 (List.zipWith (· ^^^ ·) (answerBytes st.nt)
      (feed false (feed false (challengeCrypto key cuid st.nt) nr).1 [0, 0, 0, 0]).2) ^^^
        beNum 32 (feed false (feed false (challengeCrypto key cuid st.nt) nr).1 [0, 0, 0, 0]).2 =
          prngSuccessor st.nt 64 := by
    rw [beNum_xor 32 (by rw [length_feed]; rfl), BitVec.xor_assoc, BitVec.xor_self, BitVec.xor_zero]
    exact beNum_lowBytes st.nt 40
  rw [encryptReaderNonce_eq, handleAuthSecond, if_neg (by
    rw [length_append, hfirst, hsecond]
    simp [h.pending]), take_left' hfirst, drop_left' hfirst,
    take_of_length_le (Nat.le_of_eq hsecond), h.crypto]
  simp only [word_of_length hfirst, feed_encrypted, word_zero, hsecret, ne_eq, not_true_eq_false,
    if_false]
  refine ⟨_, Prod.ext ?_ rfl, length_crypt _ _⟩
  rw [sessionCrypto_eq]
  rfl

theorem pollerAnswer_shares (h : st.Challenged key cuid) (nr : CArray UInt8 4) :
    ∃ c st', pollerAnswer (listenerSession silence) key cuid (be32Bytes st.nt) nr st =
        some (.ok c, st') ∧ st'.Shares c ∧ st.SameCard st' := by
  obtain ⟨rx, hstep, hlen⟩ := handleAuthSecond_answer h nr.length_toList
  have hlength : (encryptReaderNonce key cuid (be32Bytes st.nt) nr.toList).2.length = 8 := by
    rw [encryptReaderNonce_eq, length_append, length_zipWith, length_feed, nr.length_toList]
    rfl
  have hcmd : onTagCmd st (encryptReaderNonce key cuid (be32Bytes st.nt) nr.toList).2 =
      some ({ st with
        crypto := sessionCrypto key cuid (be32Bytes st.nt) nr.toList
        pendingAuth2 := false
        authComplete := true }, some rx) := by
    rw [onTagCmd, if_neg (by simp [h.initialized, hlength]), if_pos ⟨h.pending, hlength⟩, hstep]
  refine ⟨sessionCrypto key cuid (be32Bytes st.nt) nr.toList, { st with
      crypto := sessionCrypto key cuid (be32Bytes st.nt) nr.toList
      pendingAuth2 := false
      authComplete := true }, ?_, ⟨h.initialized, rfl, rfl, rfl⟩, ⟨rfl, rfl⟩⟩
  rw [pollerAnswer, Poll.bind_of_eq (transceive_answered silence hcmd (by rw [hlen]; decide))]
  simp only [hlen, ne_eq, not_true_eq_false, if_false]
  rfl

def Data.block (model : Data cfg) (blockNum : UInt8) : Bytes :=
  model.blocks.slice (blockNum.toNat * blockSize) blockSize

structure State.Reads (st : State cfg) (blockNum : UInt8) : Prop where
  valid : blockValid st.model blockNum = true
  sector : getSectorByBlock blockNum = getSectorByBlock st.authBlock
  stored : blockNum.toNat < cfg.blockCount

theorem State.Reads.read {blockNum : UInt8} (h : st.Reads blockNum) :
    st.model.blocks.read? (blockNum.toNat * blockSize) blockSize =
        some (st.model.block blockNum) ∧ (st.model.block blockNum).length = blockSize := by
  have hend : blockNum.toNat * blockSize + blockSize ≤ cfg.blockCount * blockSize := by
    have := Nat.mul_le_mul_right blockSize (Nat.succ_le_of_lt h.stored)
    rwa [Nat.succ_mul] at this
  exact ⟨CArray.read?_of_le _ hend, CArray.length_slice _ hend⟩

variable {blockNum : UInt8} {c : Crypto1}

theorem onTagCmd_read (h : st.Shares c) (hread : st.Reads blockNum) :
    let sent := crypt c (Framing.crcFrame crcA [0x30, blockNum])
    let answer := crypt sent.1 (Framing.crcFrame crcA (st.model.block blockNum))
    onTagCmd st sent.2 = some ({ st with crypto := answer.1 }, some answer.2) := by
  intro sent answer
  have hlen : sent.2.length = 4 := length_crypt _ _
  have hplain : crypt c sent.2 = (sent.1, Framing.crcFrame crcA [0x30, blockNum]) :=
    crypt_crypt c _
  rw [onTagCmd, if_neg (by simp [h.initialized, hlen]), if_neg (by simp [h.pending]),
    if_neg (by simp [hlen]), if_pos ⟨h.complete, hlen⟩, handleRead,
    if_neg (by simp [h.complete, hlen]), h.crypto, hplain]
  simp only [Framing.crcCheck_crcFrame crcA (cons_ne_nil _ _), Framing.crcTrim_crcFrame,
    not_true_eq_false, if_false, hread.valid, hread.sector, ne_eq, or_self, hread.read.1,
    Option.map_some]
  rfl

def readCrypto (c : Crypto1) (blockNum : UInt8) (block : Bytes) : Crypto1 :=
  (crypt (crypt c (Framing.crcFrame crcA [0x30, blockNum])).1 (Framing.crcFrame crcA block)).1

theorem pollerReadBlock_shares (h : st.Shares c) (hread : st.Reads blockNum) :
    ∃ c' st', pollerReadBlock (listenerSession silence) c blockNum st =
        some ((c', .ok (st.model.block blockNum)), st') ∧ st'.Shares c' ∧ st.SameCard st' := by
  have hblock := hread.read.2
  have hanswer := onTagCmd_read h hread
  have hlen : (crypt (crypt c (Framing.crcFrame crcA [0x30, blockNum])).1
      (Framing.crcFrame crcA (st.model.block blockNum))).2.length = blockSize + 2 := by
    rw [length_crypt, Framing.length_crcFrame, hblock]
  have hne : st.model.block blockNum ≠ [] := by
    intro hnil
    rw [hnil] at hblock
    cases hblock
  refine ⟨readCrypto c blockNum (st.model.block blockNum),
    { st with crypto := readCrypto c blockNum (st.model.block blockNum) }, ?_,
    ⟨h.initialized, h.complete, h.pending, rfl⟩, ⟨rfl, rfl⟩⟩
  rw [pollerReadBlock]
  rw [Poll.bind_of_eq (transceive_answered silence hanswer (by rw [hlen]; decide))]
  simp only [hlen, Nat.lt_irrefl, if_false, crypt_crypt,
    Framing.crcCheck_crcFrame crcA hne, Framing.crcTrim_crcFrame, hblock, ne_eq, not_true_eq_false]
  rfl

def pollerReadBlocks {τ : Type} (s : Session τ) :
    Crypto1 → List UInt8 → Poll τ (Crypto1 × List (Except Errno Bytes))
  | c, [] => return (c, [])
  | c, blockNum :: blocks => do
    let (c, r) ← pollerReadBlock s c blockNum
    let (c, rs) ← pollerReadBlocks s c blocks
    return (c, r :: rs)

theorem State.Reads.of_sameCard (h : st.SameCard st')
    (hread : st.Reads blockNum) : st'.Reads blockNum := by
  refine ⟨?_, ?_, hread.stored⟩
  · rw [h.model]
    exact hread.valid
  · rw [h.authBlock]
    exact hread.sector

theorem pollerReadBlocks_shares
    (h : st.Shares c) {blocks : List UInt8} (hread : ∀ b ∈ blocks, st.Reads b) :
    ∃ c' st', pollerReadBlocks (listenerSession silence) c blocks st =
        some ((c', blocks.map fun b => .ok (st.model.block b)), st') ∧ st'.Shares c' := by
  induction blocks generalizing st c with
  | nil => exact ⟨c, st, rfl, h⟩
  | cons b blocks ih =>
    obtain ⟨c₁, st₁, hfirst, hshares, hsame⟩ :=
      pollerReadBlock_shares silence h (hread b mem_cons_self)
    obtain ⟨c₂, st₂, hrest, hend⟩ := ih hshares fun b' hb' =>
      (hread b' (mem_cons_of_mem _ hb')).of_sameCard hsame
    refine ⟨c₂, st₂, ?_, hend⟩
    rw [pollerReadBlocks, Poll.bind_of_eq hfirst]
    simp only
    rw [Poll.bind_of_eq hrest, hsame.model]
    rfl

theorem mutual_authentication (silence : Errno) (key : BitVec 64) (cuid : BitVec 32)
    (nr : CArray UInt8 4) (st : State cfg) (h : st.Challenged key cuid) :
    ∃ c st', pollerAnswer (listenerSession silence) key cuid (be32Bytes st.nt) nr st =
        some (.ok c, st') ∧ st'.authComplete = true ∧ st'.crypto = c ∧
      ∀ blocks : List UInt8, (∀ b ∈ blocks, st.Reads b) →
        ∃ c' st'', pollerReadBlocks (listenerSession silence) c blocks st' =
          some ((c', blocks.map fun b => .ok (st.model.block b)), st'') ∧ st''.crypto = c' := by
  obtain ⟨c, st', hanswer, hshares, hsame⟩ := pollerAnswer_shares silence h nr
  refine ⟨c, st', hanswer, hshares.complete, hshares.crypto, fun blocks hblocks => ?_⟩
  obtain ⟨c', st'', hread, hend⟩ := pollerReadBlocks_shares silence hshares fun b hb =>
    (hblocks b hb).of_sameCard hsame
  rw [hsame.model] at hread
  exact ⟨c', st'', hread, hend.crypto⟩

def challengedCard : State Config.default :=
  { (State.boot : State Config.default) with
    model := { (Data.reset : Data Config.default) with type := .type1k }
    initialized := true
    crypto := challengeCrypto 0xA0A1A2A3A4A5#64 0xDEADBEEF#32 0x01020304#32
    nt := 0x01020304#32
    authBlock := 1
    pendingAuth2 := true }

theorem mutual_authentication_blocks :
    ∃ c st', pollerAnswer (listenerSession .etimedout) 0xA0A1A2A3A4A5#64 0xDEADBEEF#32
        (be32Bytes 0x01020304#32) (.fill 4 0x5A) challengedCard = some (.ok c, st') ∧
      st'.authComplete = true ∧ st'.crypto = c ∧
      ∃ c' st'', pollerReadBlocks (listenerSession .etimedout) c [0, 3, 0] st' =
        some ((c', [0, 3, 0].map fun b => .ok (challengedCard.model.block b)), st'') ∧
          st''.crypto = c' := by
  obtain ⟨c, st', hanswer, hcomplete, hcrypto, hreads⟩ := mutual_authentication .etimedout
    0xA0A1A2A3A4A5#64 0xDEADBEEF#32 (.fill 4 0x5A) challengedCard ⟨rfl, rfl, rfl⟩
  refine ⟨c, st', hanswer, hcomplete, hcrypto, hreads [0, 3, 0] fun b hb => ?_⟩
  simp only [mem_cons, not_mem_nil, or_false] at hb
  rcases hb with rfl | rfl | rfl
  · exact ⟨by decide +kernel, by decide +kernel, by decide⟩
  · exact ⟨by decide +kernel, by decide +kernel, by decide⟩
  · exact ⟨by decide +kernel, by decide +kernel, by decide⟩

end NfcStack.Classic
