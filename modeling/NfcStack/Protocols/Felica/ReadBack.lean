import NfcStack.Reader.Detect

/-!
# Reading an emulated FeliCa Lite card back

The poller walks the block numbers from one to the next, and the listener finds the place of a number by
the same walk. The two are inverse on the 28 blocks of a card.
-/

namespace NfcStack.Felica

open List CArray NfcStack.Reader Poll

def blocksLiteTotal : ℕ := 28

structure CardData extends Data where
  blocksRead : UInt16
  sf1 : CArray UInt8 blocksMax
  sf2 : CArray UInt8 blocksMax
deriving DecidableEq

def CardData.reset : CardData := ⟨.reset, 0, .fill _ 0, .fill _ 0⟩

inductive WorkflowType
  | unknown
  | standard
  | lite
deriving DecidableEq

def getWorkflowType (pmm : CArray UInt8 8) : WorkflowType :=
  let ic := byteAt pmm.toList 1
  if ic = 0xF0 ∨ ic = 0xF1 ∨ ic = 0xF2 then .lite
  else if ic = 0xA2 then .standard
  else if ic ≤ 0x48 then .standard
  else .unknown

def compareBlocks (expected actual : CardData) : (n i : ℕ) → Option Ret
  | 0, _ => some (.ok ())
  | n + 1, i => do
    if (← expected.sf1.get? i) ≠ (← actual.sf1.get? i) then return .error .ebadmsg
    if (← expected.sf2.get? i) ≠ (← actual.sf2.get? i) then return .error .ebadmsg
    if (← expected.blocks.read? (i * blockDataSize) blockDataSize) ≠
        (← actual.blocks.read? (i * blockDataSize) blockDataSize) then return .error .ebadmsg
    compareBlocks expected actual n (i + 1)

def compare (expected actual : CardData) : Option Ret :=
  if expected.idm ≠ actual.idm ∨ expected.pmm ≠ actual.pmm ∨
      expected.blocksTotal ≠ actual.blocksTotal ∨ expected.blocksRead ≠ actual.blocksRead then
    some (.error .ebadmsg)
  else compareBlocks expected actual expected.blocksTotal.toNat 0

structure ReadResponse where
  length : UInt8
  responseCode : UInt8
  idm : CArray UInt8 8
  sf1 : UInt8
  sf2 : UInt8
  blockCount : UInt8
  data : CArray UInt8 blockDataSize

/-- `felica_poller_prepare_tx_buffer`: the header of the command and one element for each block. -/
def prepareTxBuffer (idm : CArray UInt8 8) (command : UInt8) (serviceCode : UInt16)
    (blockNumbers : Bytes) : Bytes :=
  let blockList := blockNumbers.flatMap fun blockNumber => [0x80, blockNumber]
  [UInt8.ofNat (13 + 1 + blockList.length), command] ++ idm.toList ++
    ([1] ++ le16Bytes serviceCode ++ [UInt8.ofNat blockNumbers.length] ++ blockList)

def ReadResponse.parse (rx : Bytes) : ReadResponse where
  length := byteAt rx 0
  responseCode := byteAt rx 1
  idm := .ofList _ 0 (rx.drop 2)
  sf1 := byteAt rx 10
  sf2 := byteAt rx 11
  blockCount := byteAt rx 12
  data := .ofList _ 0 (rx.drop 13)

def CardData.storeBlock (data : CardData) (response : ReadResponse) : Option CardData := do
  let i := data.blocksTotal.toNat
  let sf1 ← data.sf1.write? i [response.sf1]
  let sf2 ← data.sf2.write? i [response.sf2]
  let blocks ← data.blocks.write? (i * blockDataSize)
    (if response.sf1 = 0 then response.data.toList else List.replicate blockDataSize 0)
  return { data with
    sf1
    sf2
    blocks
    blocksRead := if response.sf1 = 0 then data.blocksRead + 1 else data.blocksRead
    blocksTotal := data.blocksTotal + 1 }

section Poller

variable {τ : Type} (s : Session τ)

def pollerPoll (data : CardData) : Poll τ (CardData × Ret) := do
  match ← pollerPolling s 0xFFFF 0 0 with
  | .error e => return (data, .error e)
  | .ok (idm, pmm) =>
    return ({ data with
      idm := .ofList _ 0 idm
      pmm := .ofList _ 0 pmm }, .ok ())

def pollerReadBlocks (idm : CArray UInt8 8) (blockNumbers : Bytes) (serviceCode : UInt16) :
    Poll τ (Except Errno ReadResponse) := do
  if blockNumbers.length = 0 ∨ 4 < blockNumbers.length then return .error .einval
  match ← pollerFrameExchange s (prepareTxBuffer idm 0x06 serviceCode blockNumbers) with
  | .error e => return .error e
  | .ok rx =>
    return if rx.length < 2 + 8 + 3 + blockDataSize ∨ byteAt rx 1 ≠ 0x07 then .error .eio
      else .ok (.parse rx)

def readLiteLoop : (n : ℕ) → (blockIndex : UInt8) → CardData → Poll τ (CardData × Ret)
  | 0, _, data => return (data, .ok ())
  | n + 1, blockIndex, data => do
    match ← pollerReadBlocks s data.idm [blockIndex] 0x000B with
    | .error e => return (data, .error e)
    | .ok response =>
      match data.storeBlock response with
      | none => Poll.undefined
      | some data => readLiteLoop n (nextBlockIndex blockIndex) data

def readLiteBlocks (data : CardData) : Poll τ (CardData × Ret) :=
  readLiteLoop s (blocksLiteTotal - data.blocksTotal.toNat) 0 data

def pollerRead (out : CardData) : Poll τ (CardData × Ret) := do
  if s.active = false then return (out, .error .einval)
  let (out, ret) ← pollerPoll s .reset
  if ret ≠ .ok () then return (out, ret)
  if getWorkflowType out.pmm ≠ .lite then return (out, .error .enotsup)
  let (out, ret) ← readLiteBlocks s out
  if ret ≠ .ok () then return (out, ret)
  if out.blocksTotal = 0 then return (out, .error .eio)
  return (out, .ok ())

end Poller

def wireBlock (k : ℕ) : UInt8 := nextBlockIndex^[k] 0

theorem nextBlockIndex_wireBlock (k : ℕ) : nextBlockIndex (wireBlock k) = wireBlock (k + 1) :=
  (Function.iterate_succ_apply' nextBlockIndex k 0).symm

theorem blockExists_wireBlock : ∀ k < blocksLiteTotal, blockExists (wireBlock k) = true := by
  decide +kernel

theorem wireToDumpIndex_wireBlock :
    ∀ k < blocksLiteTotal, (wireToDumpIndex (wireBlock k)).toNat = k := by
  decide +kernel

theorem wireBlock_eq_rc_iff : ∀ k < blocksLiteTotal, wireBlock k = 0x80 ↔ k = 15 := by
  decide +kernel

section Exchanges

variable {τ : Type} {s : Session τ} {t t' : τ}

theorem pollerFrameExchange_of_step (hactive : s.active = true) {payload resp : Bytes}
    (hpos : 0 < payload.length) (hlen : payload.length ≤ 254) (hne : resp ≠ [])
    (hresp : resp.length ≤ 254)
    (h : s.tag.step t (crcAppend payload) = some (t', .ok (crcAppend resp))) :
    pollerFrameExchange s payload t = some (.ok resp, t') := by
  have hrx : (crcAppend resp).length ≤ maxBufferSize := by
    rw [crcAppend, Framing.length_crcFrame, maxBufferSize]
    omega
  have hsend := Session.transceive_of_step hactive h hrx
  have hcheck : crcCheck (crcAppend resp) = true := Framing.crcCheck_crcFrame _ hne
  rw [pollerFrameExchange, if_neg (by simp only [maxBufferSize]; omega)]
  refine (bind_of_eq hsend _).trans ?_
  simp only [hcheck, if_true]
  rw [crcTrim, crcAppend, Framing.crcTrim_crcFrame]
  rfl

variable {idm : CArray UInt8 8}

theorem pollerPoll_of_step (hactive : s.active = true) {pmm : CArray UInt8 8}
    (h : s.tag.step t (crcAppend [6, 0x00, 0xFF, 0xFF, 0x00, 0x00]) =
      some (t', .ok (crcAppend ([18, 0x01] ++ idm.toList ++ pmm.toList)))) (data : CardData) :
    pollerPoll s data t = some (({ data with idm := idm, pmm := pmm }, .ok ()), t') := by
  obtain ⟨resp, hresp⟩ : ∃ resp : Bytes, resp = [18, 0x01] ++ (idm.toList ++ pmm.toList) := ⟨_, rfl⟩
  have hlen : resp.length = 18 := by simp [hresp]
  have hcode : byteAt resp 1 = 0x01 := by
    rw [hresp]
    rfl
  have hidm : resp.drop 2 = idm.toList ++ pmm.toList := by
    rw [hresp]
    rfl
  have hpmm : resp.drop 10 = pmm.toList := drop_of_append hidm idm.length_toList
  rw [append_assoc, ← hresp] at h
  have hframe : pollerFrameExchange s ([4 + 2, 0x00] ++ le16Bytes 0xFFFF ++ [0, 0]) t =
      some (.ok resp, t') :=
    pollerFrameExchange_of_step hactive (by decide) (by decide)
      (ne_nil_of_length_pos (by omega)) (by omega) h
  have hpoll : pollerPolling s 0xFFFF 0 0 t = some (.ok (idm.toList, pmm.toList), t') := by
    rw [pollerPolling, bind_of_eq hframe]
    simp only [hlen, hcode, hidm, hpmm]
    rw [take_left' (by simp), take_of_length_le (by simp)]
    rfl
  rw [pollerPoll, bind_of_eq hpoll]
  simp only [ofList_toList]
  rfl

theorem pollerReadBlocks_of_step (hactive : s.active = true)
    {blockIndex : UInt8} {bytes : Bytes} (hbytes : bytes.length = blockDataSize)
    (h : s.tag.step t (crcAppend (prepareTxBuffer idm 0x06 0x000B [blockIndex])) =
      some (t', .ok (crcAppend ([29, 0x07] ++ idm.toList ++ [0, 0, 1] ++ bytes)))) :
    ∃ response, pollerReadBlocks s idm [blockIndex] 0x000B t = some (.ok response, t') ∧
      response.sf1 = 0 ∧ response.sf2 = 0 ∧ response.data.toList = bytes := by
  obtain ⟨resp, hresp⟩ : ∃ resp, resp = [29, 0x07] ++ idm.toList ++ [0, 0, 1] ++ bytes := ⟨_, rfl⟩
  have hidm : resp.drop 2 = idm.toList ++ ([0, 0, 1] ++ bytes) := by
    rw [hresp, append_assoc]
    rfl
  have hflags : resp.drop 10 = [0, 0, 1] ++ bytes := drop_of_append hidm idm.length_toList
  have hdata : resp.drop 13 = bytes := drop_of_append hflags rfl
  have hlen : resp.length = 29 := by simp [hresp, hbytes, blockDataSize]
  have hcode : byteAt resp 1 = 0x07 := by
    rw [hresp]
    rfl
  rw [← hresp] at h
  have hframe := pollerFrameExchange_of_step hactive (by simp [prepareTxBuffer])
    (by simp [prepareTxBuffer, le16Bytes]) (ne_nil_of_length_pos (by omega)) (by omega) h
  refine ⟨.parse resp, ?_, ?_, ?_, ?_⟩
  · rw [pollerReadBlocks, if_neg (by simp), bind_of_eq hframe]
    simp only [hlen, hcode]
    rfl
  · exact byteAt_of_append hflags 0
  · exact byteAt_of_append hflags 1
  · rw [ReadResponse.parse, hdata, toList_ofList_of_length _ hbytes]

end Exchanges

variable {st : State} {silence : Errno}

def loopback (silence : Errno) : Reader.Tag State where
  step st tx := (onTagCmd st tx).map fun resp =>
    (st, match resp with
      | none => .error silence
      | some frame => .ok frame)

def listenerSession (silence : Errno) : Session State := ⟨true, loopback silence⟩

theorem listenerSession_step {frame resp : Bytes} (h : onTagCmd st frame = some (some resp)) :
    (listenerSession silence).tag.step st frame = some (st, .ok resp) := by
  simp only [listenerSession, loopback, h, Option.map_some]

theorem onTagCmd_read (hst : st.initialized = true) {payload : Bytes}
    (hlen : 2 ≤ payload.length) (hmax : payload.length ≤ 254) (hcode : byteAt payload 1 = 0x06) :
    onTagCmd st (crcAppend payload) = handleRead st.model payload := by
  have hcheck : crcCheck (crcAppend payload) = true :=
    Framing.crcCheck_crcFrame _ (ne_nil_of_length_pos (by omega))
  have htrim : crcTrim (crcAppend payload) = payload := Framing.crcTrim_crcFrame _ _
  have hframe : (crcAppend payload).length = payload.length + 2 := Framing.length_crcFrame _ _
  rw [onTagCmd, if_neg, htrim]
  · simp only
    rw [if_neg (by omega), hcode, if_neg (by decide), if_pos rfl]
  · simp only [hst, hcheck, hframe, maxBufferSize]
    simp
    omega

theorem pollerPoll_loopback (hst : st.initialized = true) (data : CardData) :
    pollerPoll (listenerSession silence) data st =
      some (({ data with idm := st.model.idm, pmm := st.model.pmm }, .ok ()), st) :=
  pollerPoll_of_step rfl (listenerSession_step (onTagCmd_polling hst)) data

structure CardData.Lite (card : CardData) : Prop where
  workflow : getWorkflowType card.pmm = .lite
  total : card.blocksTotal = 28
  read : card.blocksRead = 28
  status : ∀ i < blocksLiteTotal, card.sf1.get? i = some 0 ∧ card.sf2.get? i = some 0
  challenge : card.blocks.slice (15 * blockDataSize) blockDataSize =
    List.replicate blockDataSize 0

variable (data : Data)

def Data.block (k : ℕ) : Bytes :=
  data.blocks.slice (k * blockDataSize) blockDataSize

variable {k : ℕ}

theorem Data.length_block (hk : k < blocksMax) : (data.block k).length = blockDataSize :=
  length_slice _ (by simp only [blockDataSize, blocksMax] at *; omega)

variable {card : CardData}

theorem readBlock_wireBlock (hcard : card.Lite) (hk : k < blocksLiteTotal) :
    readBlock card.toData (wireBlock k) = some (some (card.block k)) := by
  simp only [readBlock, wireToDumpIndex_wireBlock k hk, wireBlock_eq_rc_iff k hk]
  by_cases hrc : k = 15
  · rw [if_pos hrc, hrc, Data.block, hcard.challenge]
  · have htotal : card.blocksTotal.toNat = 28 := by rw [hcard.total]; rfl
    have hk28 : k < 28 := hk
    rw [if_neg hrc, if_neg (by omega), read?_of_le _ (by
      simp only [blocksMax, blockDataSize]
      omega)]
    rfl

def readResponse (k : ℕ) : Bytes :=
  [29, 0x07] ++ data.idm.toList ++ [0, 0, 1] ++ data.block k

theorem handleRead_prepareTxBuffer (hcard : card.Lite) (hk : k < blocksLiteTotal) :
    handleRead card.toData (prepareTxBuffer card.idm 0x06 0x000B [wireBlock k]) =
      some (some (crcAppend (readResponse card.toData k))) := by
  obtain ⟨frame, hframe⟩ : ∃ frame, frame = prepareTxBuffer card.idm 0x06 0x000B [wireBlock k] :=
    ⟨_, rfl⟩
  have hidm : frame.drop 2 = card.idm.toList ++ [1, 0x0B, 0x00, 1, 0x80, wireBlock k] := by
    rw [hframe]
    rfl
  have htail : frame.drop 10 = [1, 0x0B, 0x00, 1, 0x80, wireBlock k] :=
    drop_of_append hidm card.idm.length_toList
  have hbyte : ∀ i, byteAt frame (10 + i) = byteAt [1, 0x0B, 0x00, 1, 0x80, wireBlock k] i :=
    byteAt_of_append htail
  have hlen : frame.length = 16 := by
    rw [hframe]
    simp [prepareTxBuffer, le16Bytes]
  have hblock : byteAt frame 15 = wireBlock k := hbyte 5
  rw [← hframe, handleRead, if_neg, hblock, readBlock_wireBlock hcard hk]
  · rfl
  · rw [hidm, hlen, hblock, blockExists_wireBlock k hk,
      show byteAt frame 10 = 1 from hbyte 0, show byteAt frame 11 = 0x0B from hbyte 1,
      show byteAt frame 12 = 0x00 from hbyte 2, show byteAt frame 13 = 1 from hbyte 3,
      show byteAt frame 14 = 0x80 from hbyte 4]
    simp
    decide

theorem pollerReadBlocks_loopback (hcard : card.Lite) (hk : k < blocksLiteTotal) :
    ∃ response, pollerReadBlocks (listenerSession silence) card.idm [wireBlock k] 0x000B
        ⟨card.toData, true⟩ = some (.ok response, ⟨card.toData, true⟩) ∧
      response.sf1 = 0 ∧ response.sf2 = 0 ∧ response.data.toList = card.block k := by
  have hanswer : onTagCmd ⟨card.toData, true⟩
      (crcAppend (prepareTxBuffer card.idm 0x06 0x000B [wireBlock k])) =
        some (some (crcAppend (readResponse card.toData k))) := by
    rw [← handleRead_prepareTxBuffer hcard hk]
    exact onTagCmd_read rfl (by simp [prepareTxBuffer]) (by simp [prepareTxBuffer, le16Bytes]) rfl
  exact pollerReadBlocks_of_step rfl (card.length_block (Nat.lt_trans hk (by decide)))
    (listenerSession_step hanswer)

def CardData.SameBlocks (a b : CardData) (k : ℕ) : Prop :=
  ∀ i < k, a.sf1.get? i = b.sf1.get? i ∧ a.sf2.get? i = b.sf2.get? i ∧ a.block i = b.block i

structure CardData.ReadTo (card data : CardData) (k : ℕ) : Prop where
  idm : data.idm = card.idm
  pmm : data.pmm = card.pmm
  total : data.blocksTotal.toNat = k
  read : data.blocksRead.toNat = k
  same : card.SameBlocks data k

variable {n : ℕ}

theorem get?_write_singleton {a : CArray UInt8 n} {f : ℕ → Option UInt8} {x : UInt8}
    (hk : k < n) (hf : ∀ i < k, f i = a.get? i) (hx : f k = some x) :
    ∀ i < k + 1, f i = (a.write k [x]).get? i := by
  intro i hi
  rw [get?_write a (by rw [length_singleton]; omega), length_singleton]
  by_cases hik : i = k
  · rw [if_pos (by omega), hik, hx, Nat.sub_self]
    rfl
  · rw [if_neg (by omega)]
    exact hf i (by omega)

theorem slice_write_block (blocks : CArray UInt8 (blocksMax * blockDataSize))
    (hk : k < blocksMax) {bytes : Bytes} (hbytes : bytes.length = blockDataSize) (i : ℕ) :
    (blocks.write (k * blockDataSize) bytes).slice (i * blockDataSize) blockDataSize =
      if i = k then bytes else blocks.slice (i * blockDataSize) blockDataSize := by
  have hfit : k * blockDataSize + bytes.length ≤ blocksMax * blockDataSize := by
    rw [hbytes, ← Nat.succ_mul]
    exact Nat.mul_le_mul_right _ hk
  by_cases hik : i = k
  · have hself := slice_write_self blocks hfit
    rw [hbytes] at hself
    rw [if_pos hik, hik, hself]
  · rw [if_neg hik, slice_write_of_disjoint _ hfit]
    rw [hbytes]
    simp only [blockDataSize]
    omega

variable {data : CardData} {response : ReadResponse}

theorem CardData.storeBlock_eq (htotal : data.blocksTotal.toNat = k)
    (hk : k < blocksMax) (hsf1 : response.sf1 = 0) (hsf2 : response.sf2 = 0) :
    data.storeBlock response = some { data with
      sf1 := data.sf1.write k [0]
      sf2 := data.sf2.write k [0]
      blocks := data.blocks.write (k * blockDataSize) response.data.toList
      blocksRead := data.blocksRead + 1
      blocksTotal := data.blocksTotal + 1 } := by
  have hfit : k * blockDataSize + response.data.toList.length ≤ blocksMax * blockDataSize := by
    rw [response.data.length_toList, ← Nat.succ_mul]
    exact Nat.mul_le_mul_right _ hk
  simp only [CardData.storeBlock, htotal, hsf1, hsf2, if_true,
    write?_of_le _ (show k + [(0 : UInt8)].length ≤ blocksMax from hk), write?_of_le _ hfit]
  rfl

theorem toNat_add_one {x : UInt16} (hx : x.toNat = k) (hk : k < blocksMax) :
    (x + 1).toNat = k + 1 := by
  rw [blocksMax] at hk
  simp
  omega

theorem CardData.storeBlock_extends {flag₁ flag₂ : ℕ → Option UInt8}
    {block : ℕ → Bytes} (htotal : data.blocksTotal.toNat = k) (hk : k < blocksMax)
    (hsf1 : response.sf1 = 0) (hsf2 : response.sf2 = 0)
    (hold : ∀ i < k, flag₁ i = data.sf1.get? i ∧ flag₂ i = data.sf2.get? i ∧
      block i = data.block i)
    (hflag₁ : flag₁ k = some 0) (hflag₂ : flag₂ k = some 0)
    (hblock : response.data.toList = block k) :
    ∃ data', data.storeBlock response = some data' ∧ data'.idm = data.idm ∧
      data'.pmm = data.pmm ∧ data'.blocksTotal.toNat = k + 1 ∧
      data'.blocksRead = data.blocksRead + 1 ∧
      ∀ i < k + 1, flag₁ i = data'.sf1.get? i ∧ flag₂ i = data'.sf2.get? i ∧
        block i = data'.block i := by
  have hnew₁ := get?_write_singleton hk (fun i hi => (hold i hi).1) hflag₁
  have hnew₂ := get?_write_singleton hk (fun i hi => (hold i hi).2.1) hflag₂
  refine ⟨_, storeBlock_eq htotal hk hsf1 hsf2, rfl, rfl, toNat_add_one htotal hk, rfl, ?_⟩
  intro i hi
  refine ⟨hnew₁ i hi, hnew₂ i hi, ?_⟩
  refine Eq.trans ?_ (slice_write_block data.blocks hk response.data.length_toList i).symm
  by_cases hik : i = k
  · rw [if_pos hik, hik, hblock]
  · rw [if_neg hik]
    exact (hold i (by omega)).2.2

theorem CardData.ReadTo.storeBlock (h : card.ReadTo data k) (hcard : card.Lite)
    (hk : k < blocksLiteTotal) (hsf1 : response.sf1 = 0) (hsf2 : response.sf2 = 0)
    (hdata : response.data.toList = card.block k) :
    ∃ data', data.storeBlock response = some data' ∧ card.ReadTo data' (k + 1) := by
  have hmax : k < blocksMax := Nat.lt_trans hk (by decide)
  obtain ⟨hcard1, hcard2⟩ := hcard.status k hk
  obtain ⟨data', hstore, hidm, hpmm, htotal, hread, hsame⟩ :=
    storeBlock_extends h.total hmax hsf1 hsf2 h.same hcard1 hcard2 hdata
  exact ⟨data', hstore, hidm.trans h.idm, hpmm.trans h.pmm, htotal,
    hread ▸ toNat_add_one h.read hmax, hsame⟩

theorem readLiteLoop_loopback (silence : Errno) (hcard : card.Lite)
    (hn : k + n = blocksLiteTotal) (h : card.ReadTo data k) :
    ∃ m, readLiteLoop (listenerSession silence) n (wireBlock k) data ⟨card.toData, true⟩ =
        some ((m, .ok ()), ⟨card.toData, true⟩) ∧ card.ReadTo m blocksLiteTotal := by
  induction n generalizing k data with
  | zero =>
    obtain rfl : k = blocksLiteTotal := hn
    exact ⟨data, rfl, h⟩
  | succ n ih =>
    have hk : k < blocksLiteTotal := by omega
    obtain ⟨response, hread, hsf1, hsf2, hdata⟩ := pollerReadBlocks_loopback hcard hk
    obtain ⟨data', hstore, h'⟩ := h.storeBlock hcard hk hsf1 hsf2 hdata
    rw [readLiteLoop, h.idm, bind_of_eq hread]
    simp only [hstore, nextBlockIndex_wireBlock]
    exact ih (by omega) h'

theorem compareBlocks_of_same {expected actual : CardData} {i : ℕ} (hmax : i + n ≤ blocksMax)
    (h : expected.SameBlocks actual (i + n)) :
    compareBlocks expected actual n i = some (.ok ()) := by
  induction n generalizing i with
  | zero => rfl
  | succ n ih =>
    obtain ⟨hsf1, hsf2, hblock⟩ := h i (by omega)
    obtain ⟨x, hx⟩ := (actual.sf1.get?_eq_some_iff i).mpr (by omega)
    obtain ⟨y, hy⟩ := (actual.sf2.get?_eq_some_iff i).mpr (by omega)
    have hend : i * blockDataSize + blockDataSize ≤ blocksMax * blockDataSize := by
      rw [← Nat.succ_mul]
      exact Nat.mul_le_mul_right _ (by omega)
    have hrest := ih (i := i + 1) (by omega) (by rwa [Nat.add_right_comm])
    simp only [Data.block] at hblock
    simp [compareBlocks, hsf1, hsf2, hx, hy, read?_of_le _ hend, hblock, hrest]

theorem CardData.ReadTo.compare_eq_ok {m : CardData} (h : card.ReadTo m blocksLiteTotal)
    (hcard : card.Lite) : compare card m = some (.ok ()) := by
  have htotal : card.blocksTotal = m.blocksTotal := by
    rw [hcard.total]
    exact UInt16.toNat_inj.mp h.total.symm
  have hread : card.blocksRead = m.blocksRead := by
    rw [hcard.read]
    exact UInt16.toNat_inj.mp h.read.symm
  have hcount : m.blocksTotal.toNat = blocksLiteTotal := h.total
  rw [compare, if_neg (by simp [h.idm, h.pmm, htotal, hread]), htotal, hcount]
  exact compareBlocks_of_same (by decide) (by rw [Nat.zero_add]; exact h.same)

/-- Every FeliCa Lite card is read back from the listener that emulates it. -/
theorem pollerRead_lite (card out : CardData) (hcard : card.Lite) (st : State) (silence : Errno) :
    ∃ m st', pollerRead (listenerSession silence) out (listenerInit st (some card.toData)) =
        some ((m, .ok ()), st') ∧ compare card m = some (.ok ()) := by
  have hpoll := @pollerPoll_loopback ⟨card.toData, true⟩ silence rfl .reset
  have hstart : card.ReadTo { CardData.reset with idm := card.idm, pmm := card.pmm } 0 :=
    ⟨rfl, rfl, rfl, rfl, fun i hi => absurd hi (Nat.not_lt_zero i)⟩
  obtain ⟨m, hloop, hm⟩ := readLiteLoop_loopback silence hcard (Nat.zero_add _) hstart
  have htotal : m.blocksTotal ≠ 0 := by
    intro hzero
    have := hm.total
    rw [hzero] at this
    exact absurd this (by decide)
  refine ⟨m, ⟨card.toData, true⟩, ?_, hm.compare_eq_ok hcard⟩
  refine (bind_of_eq hpoll _).trans ?_
  simp only [hcard.workflow]
  refine (bind_of_eq hloop _).trans ?_
  simp only [htotal]
  rfl

def liteCard : CardData :=
  { CardData.reset with
    idm := .ofList _ 0 [0x01, 0x2E, 0x4C, 0xD0, 0x12, 0x34, 0x56, 0x78]
    pmm := .ofList _ 0 [0x00, 0xF1, 0x00, 0x00, 0x00, 0x01, 0x43, 0x00]
    blocksTotal := 28
    blocksRead := 28
    blocks := .ofList _ 0 [0x46, 0x65, 0x6C, 0x69, 0x43, 0x61] }

theorem pollerRead_lite_liteCard : ∃ m st', pollerRead (listenerSession .etimedout) .reset
        (listenerInit .boot (some liteCard.toData)) = some ((m, .ok ()), st') ∧
      compare liteCard m = some (.ok ()) :=
  pollerRead_lite liteCard .reset ⟨by decide, rfl, rfl, by decide, by decide⟩ .boot .etimedout

end NfcStack.Felica
