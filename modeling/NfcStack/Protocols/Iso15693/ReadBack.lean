import NfcStack.Protocols.Iso15693.Listener
import NfcStack.Protocols.Iso15693.Poller

/-!
# Reading an emulated ISO15693-3 card back

The last byte of GET MULTIPLE BLOCK SECURITY STATUS is the number of blocks less one for the poller and
the number of the last block for the listener (`pollerRead_iff`).
-/

namespace NfcStack.Iso15693

open List Option CArray NfcStack.Reader Poll UInt8

variable {st : State} {silence : Errno}

def listenerSession (silence : Errno) : Session State := ⟨true, loopback silence⟩

theorem onTagCmd_crcFrame (hst : st.initialized = true) {flags command : UInt8}
    {data data' resp : Bytes} (hlen : data.length ≤ 28)
    (hdata : commandData st.model flags data = some data')
    (hresp : handleCommand st.model command data' = some (some resp)) (hrlen : resp.length ≤ 253) :
    onTagCmd st (Framing.crcFrame crc16 (flags :: command :: data)) =
      some (some (Framing.crcFrame crc16 resp)) := by
  have hsend : listenerSend resp = some (Framing.crcFrame crc16 resp) := by
    rw [listenerSend, if_neg (by simp [listenerBufSize, crcSize]; omega)]
    exact crcAppend_of_le (by simp [listenerBufSize]; omega)
  have hcheck := crcCheck_crcFrame (cons_ne_nil flags (command :: data))
  rw [onTagCmd, if_neg, crcTrim_crcFrame]
  · simp only [hdata, hresp, map_some, bind_some, hsend]
  · simp only [hst, hcheck, Framing.length_crcFrame, length_cons, crcSize, listenerBufSize]
    simp
    omega

theorem sendFrame_of_transceive {τ : Type} {s : Session τ} {t t' : τ} {payload resp : Bytes}
    (hlen : payload.length ≤ 30) (hne : resp ≠ [])
    (h : s.transceive maxResponseLen (Framing.crcFrame crc16 payload) t =
      some (.ok (Framing.crcFrame crc16 resp), t')) :
    sendFrame s payload t = some (.ok resp, t') := by
  rw [sendFrame, crcAppend_of_le (by simp [txMax]; omega)]
  simp only
  rw [bind_of_eq h]
  simp only [crcCheck_crcFrame hne, if_true, crcTrim_crcFrame]
  rfl

theorem sendFrame_loopback (hst : st.initialized = true) {flags command : UInt8}
    {data data' resp : Bytes} (hlen : data.length ≤ 28)
    (hdata : commandData st.model flags data = some data')
    (hresp : handleCommand st.model command data' = some (some resp)) (hne : resp ≠ [])
    (hrlen : resp.length ≤ 253) :
    sendFrame (listenerSession silence) (flags :: command :: data) st = some (.ok resp, st) := by
  refine sendFrame_of_transceive (by simp; omega) hne ?_
  simp only [Session.transceive, listenerSession, loopback, if_true,
    onTagCmd_crcFrame hst hlen hdata hresp hrlen, map_some, Framing.length_crcFrame, maxResponseLen]
  rw [if_neg (by omega)]

theorem commandData_cmdFlags (model : Data) (data : Bytes) :
    commandData model cmdFlags data = some data := if_neg (by decide)

theorem ofList_uidReversed (uid : CArray UInt8 8) :
    CArray.ofList 8 0 (uidReversed uid).reverse = uid := by
  rw [uidReversed, reverse_reverse, ofList_toList]

theorem inventoryResponseParse_handleInventory (model data : Data) :
    inventoryResponseParse (handleInventory model) data =
      ({ data with dsfid := model.dsfid, uid := model.uid }, .ok ()) := by
  rw [inventoryResponseParse]
  rw [if_neg (by simp [handleInventory, uidReversed])]
  have huid : (handleInventory model).drop 2 = uidReversed model.uid := rfl
  rw [huid, ofList_uidReversed]
  rfl

theorem pollerInventory_loopback (hst : st.initialized = true) (data : Data) :
    pollerInventory (listenerSession silence) data st =
      some (({ data with dsfid := st.model.dsfid, uid := st.model.uid }, .ok ()), st) := by
  have hsend : sendFrame (listenerSession silence) [0x26, 0x01] st =
      some (.ok (handleInventory st.model), st) :=
    sendFrame_loopback hst (by simp) (if_neg (by decide)) rfl (by simp [handleInventory])
      (by simp [handleInventory, uidReversed])
  rw [pollerInventory, bind_of_eq hsend]
  simp only [inventoryResponseParse_handleInventory]
  rfl

theorem sizes_read_back {blockCount : UInt16} {blockSize : UInt8}
    (hc : 1 ≤ blockCount.toNat ∧ blockCount.toNat ≤ 128)
    (hs : 1 ≤ blockSize.toNat ∧ blockSize.toNat ≤ 4) :
    (blockCount - 1).toUInt8.toUInt16 + 1 = blockCount ∧
      (((blockSize - 1) &&& 0x1F) &&& 0x1F) + 1 = blockSize := by
  constructor
  · apply UInt16.toNat_inj.mp
    have h1 : (blockCount - 1).toNat = blockCount.toNat - 1 :=
      UInt16.toNat_sub_of_le _ _ (UInt16.le_iff_toNat_le.mpr hc.1)
    simp only [UInt16.toNat_add, toNat_toUInt16, UInt16.toNat_toUInt8, h1]
    simp
    omega
  · obtain ⟨h1, h4⟩ := hs
    have hcases : blockSize = 1 ∨ blockSize = 2 ∨ blockSize = 3 ∨ blockSize = 4 := by
      simp only [← UInt8.toNat_inj]
      simp
      omega
    rcases hcases with rfl | rfl | rfl | rfl <;> decide

theorem sysInfoFields_all (data : Data) (dsfid afi count size icRef : UInt8) :
    sysInfoFields sysinfoFlags data [dsfid, afi, count, size, icRef] =
      let card := { data with
        dsfid
        afi
        blockCount := count.toUInt16 + 1
        blockSize := (size &&& 0x1F) + 1
        icRef }
      if ¬ Data.sizesOk card.blockCount card.blockSize then .error card else .ok card := by
  have hend : ∀ c : Data, (if ([] : Bytes) ≠ [] ∨ ¬ Data.sizesOk c.blockCount c.blockSize then
      (.error c : Except Data Data) else .ok c) =
        if ¬ Data.sizesOk c.blockCount c.blockSize then .error c else .ok c := by
    simp
  exact hend _

theorem systemInfoResponseParse_loopback {model : Data} (hv : model.Valid) (data : Data) :
    systemInfoResponseParse (handleGetSysInfo model) data =
      ({ data with
          dsfid := model.dsfid
          afi := model.afi
          blockCount := model.blockCount
          blockSize := model.blockSize
          icRef := model.icRef }, .ok ()) := by
  obtain ⟨h1, h2, h3, h4⟩ := hv.bounds
  obtain ⟨hcount, hsize⟩ := sizes_read_back ⟨h1, h2⟩ ⟨h3, h4⟩
  have hfields : sysInfoFields sysinfoFlags data ((handleGetSysInfo model).drop 2) =
      .ok { data with
        dsfid := model.dsfid
        afi := model.afi
        blockCount := model.blockCount
        blockSize := model.blockSize
        icRef := model.icRef } := by
    rw [handleGetSysInfo, drop_succ_cons, drop_succ_cons, drop_zero,
      sysInfoFields_all, hcount, hsize]
    exact if_neg (not_not.mpr hv)
  have herr : errorResponseParse (handleGetSysInfo model) = none := rfl
  have hflags : byteAt (handleGetSysInfo model) 1 = sysinfoFlags := rfl
  rw [systemInfoResponseParse, herr]
  rw [if_neg (by simp [handleGetSysInfo]), hflags, hfields]

theorem not_refused (hv : st.model.Valid) {data : Data} (hcount : data.blockCount = st.model.blockCount) :
    ¬ (data.blockCount = 0 ∨ blocksMax < data.blockCount.toNat) := by
  obtain ⟨h1, h128, -, -⟩ := hv.bounds
  rw [hcount, ← UInt16.toNat_inj]
  simp only [blocksMax, UInt16.toNat_zero]
  omega

def identifiedCard (model : Data) : Data :=
  { Data.reset with
    uid := model.uid
    dsfid := model.dsfid
    afi := model.afi
    blockCount := model.blockCount
    blockSize := model.blockSize
    icRef := model.icRef }

theorem compare_identifiedCard {model : Data} (hv : model.Valid)
    {blockData : CArray UInt8 (blocksMax * blockSizeMax)} {blockSecurity : CArray UInt8 blocksMax}
    (hdata : blockData.slice 0 model.dataLen = model.blockData.slice 0 model.dataLen)
    (hsec : blockSecurity.slice 0 model.blockCount.toNat =
      model.blockSecurity.slice 0 model.blockCount.toNat) :
    model.compare { identifiedCard model with blockData, blockSecurity } = some (.ok ()) := by
  have hlen : 0 + model.dataLen ≤ blocksMax * blockSizeMax := by
    rw [Nat.zero_add]
    exact hv.block_end_le le_rfl
  have hcount : 0 + model.blockCount.toNat ≤ blocksMax := by
    rw [Nat.zero_add]
    exact hv.bounds.2.1
  rw [Data.compare, if_neg (by simp [identifiedCard]), read?_of_le _ hlen, read?_of_le _ hlen]
  simp only [hdata, ne_eq, not_true_eq_false, if_false]
  rw [read?_of_le _ hcount, read?_of_le _ hcount]
  simp [hsec]

theorem sendFrame_getSysInfo (silence : Errno) (hst : st.initialized = true) :
    sendFrame (listenerSession silence) [cmdFlags, 0x2B] st =
      some (.ok (handleGetSysInfo st.model), st) :=
  sendFrame_loopback hst (by simp) (commandData_cmdFlags _ _) rfl (by simp [handleGetSysInfo])
    (by simp [handleGetSysInfo])

section Loopback

variable (hst : st.initialized = true) (hv : st.model.Valid)

include hst hv

theorem pollerGetSystemInfo_loopback (data : Data) :
    pollerGetSystemInfo (listenerSession silence) data st =
      some (({ data with
          dsfid := st.model.dsfid
          afi := st.model.afi
          blockCount := st.model.blockCount
          blockSize := st.model.blockSize
          icRef := st.model.icRef }, .ok ()), st) := by
  rw [pollerGetSystemInfo, bind_of_eq (sendFrame_getSysInfo silence hst)]
  simp only [systemInfoResponseParse_loopback hv]
  rfl

theorem pollerReadBlock_loopback {block : ℕ} (hblock : block < st.model.blockCount.toNat) :
    pollerReadBlock (listenerSession silence) (UInt8.ofNat block) st.model.blockSize st =
      some (.ok (st.model.blockData.slice (block * st.model.blockSize.toNat)
        st.model.blockSize.toNat), st) := by
  obtain ⟨-, hcount, hsize, hsize4⟩ := hv.bounds
  have hnum : (UInt8.ofNat block).toNat = block := by
    simp [toNat_ofNat']
    omega
  have hend : block * st.model.blockSize.toNat + st.model.blockSize.toNat ≤
      blocksMax * blockSizeMax := by
    rw [← Nat.succ_mul]
    exact hv.block_end_le hblock
  have hlen := st.model.blockData.length_slice hend
  have hanswer : handleReadBlock st.model (UInt8.ofNat block) =
      some (0 :: st.model.blockData.slice (block * st.model.blockSize.toNat)
        st.model.blockSize.toNat) := by
    rw [handleReadBlock, hnum, if_neg (by omega), read?_of_le _ hend]
    rfl
  have hsend : sendFrame (listenerSession silence) [cmdFlags, 0x20, UInt8.ofNat block] st =
      some (.ok (0 :: st.model.blockData.slice (block * st.model.blockSize.toNat)
        st.model.blockSize.toNat), st) :=
    sendFrame_loopback hst (by simp) (commandData_cmdFlags _ _)
      (by simp [handleCommand, byteAt, hanswer]) (by simp) (by simp [hlen]; omega)
  have hparse := payloadResponseParse_ok (st.model.blockData.slice
    (block * st.model.blockSize.toNat) st.model.blockSize.toNat)
    (ne_nil_of_length_pos (by omega))
  rw [hlen] at hparse
  rw [pollerReadBlock, bind_of_eq hsend]
  simp only [readBlockResponseParse, hparse]
  rfl

theorem readBlocks_loopback {n block : ℕ}
    {data : Data} (hn : block + n = st.model.blockCount.toNat)
    (hsize : data.blockSize = st.model.blockSize)
    (hdata : data.blockData.slice 0 (block * st.model.blockSize.toNat) =
      st.model.blockData.slice 0 (block * st.model.blockSize.toNat)) :
    ∃ blockData, readBlocks (listenerSession silence) n block data st =
        some (({ data with blockData }, .ok ()), st) ∧
      blockData.slice 0 st.model.dataLen = st.model.blockData.slice 0 st.model.dataLen := by
  induction n generalizing block data with
  | zero =>
    obtain rfl : block = st.model.blockCount.toNat := hn
    exact ⟨data.blockData, rfl, hdata⟩
  | succ n ih =>
    have hlen := hv.block_end_le (show block + 1 ≤ st.model.blockCount.toNat by omega)
    rw [Nat.add_mul, Nat.one_mul] at hlen
    have hslice := st.model.blockData.length_slice hlen
    have hread : pollerReadBlock (listenerSession silence) (UInt8.ofNat block) data.blockSize st =
        some (.ok (st.model.blockData.slice (block * st.model.blockSize.toNat)
          st.model.blockSize.toNat), st) := by
      rw [hsize]
      exact pollerReadBlock_loopback hst hv (by omega)
    have hwrite := write?_of_le data.blockData (show block * st.model.blockSize.toNat +
      (st.model.blockData.slice (block * st.model.blockSize.toNat)
        st.model.blockSize.toNat).length ≤ _ by rw [hslice]; exact hlen)
    rw [← hsize] at hwrite
    rw [readBlocks, bind_of_eq hread]
    simp only [← hsize, hwrite]
    refine ih (by omega) hsize ?_
    rw [Nat.add_mul, Nat.one_mul]
    simp only [hsize]
    exact slice_write_extend hlen hdata

theorem sendFrame_blocksSecurity (silence : Errno) {first last : ℕ} (hf : first < 256)
    (hl : last < st.model.blockCount.toNat) :
    sendFrame (listenerSession silence)
        [cmdFlags, 0x2C, UInt8.ofNat first, UInt8.ofNat last] st =
      some (.ok (if last < first then errorPayload
        else 0 :: st.model.blockSecurity.slice first (last + 1 - first)), st) := by
  obtain ⟨-, hcount, -, -⟩ := hv.bounds
  have hfn : (UInt8.ofNat first).toNat = first := by simp [toNat_ofNat']; omega
  have hln : (UInt8.ofNat last).toNat = last := by simp [toNat_ofNat']; omega
  have hanswer : handleGetBlocksSecurity st.model (UInt8.ofNat first) (UInt8.ofNat last) =
      some (if last < first then errorPayload
        else 0 :: st.model.blockSecurity.slice first (last + 1 - first)) := by
    have hiff : UInt8.ofNat last < UInt8.ofNat first ↔ last < first := by
      rw [lt_iff_toNat_lt, hfn, hln]
    simp only [handleGetBlocksSecurity, hfn, hln, hiff]
    by_cases hlt : last < first
    · rw [if_pos (.inr (.inr hlt)), if_pos hlt]
    · rw [if_neg (by omega), if_neg hlt, read?_of_le _ (by simp [blocksMax]; omega)]
      rfl
  have hslice := st.model.blockSecurity.length_slice_le first (last + 1 - first)
  refine sendFrame_loopback hst (by simp) (commandData_cmdFlags _ _)
    (by simp [handleCommand, byteAt, hanswer]) ?_ ?_
  · split <;> simp [errorPayload]
  · split
    · simp [errorPayload]
    · simp only [length_cons]
      omega

theorem blocksSecurityLoop_first (n : ℕ) {data : Data}
    (hcount : data.blockCount = st.model.blockCount) {batch : ℕ}
    (hbatch : batch = min st.model.blockCount.toNat blocksPerQuery) :
    blocksSecurityLoop (listenerSession silence) (n + 1) 0 data st =
      blocksSecurityLoop (listenerSession silence) n blocksPerQuery
        { data with blockSecurity := data.blockSecurity.write 0 (st.model.blockSecurity.slice 0 batch) } st := by
  obtain ⟨h1, h128, -, -⟩ := hv.bounds
  have hpos : 0 < batch ∧ batch ≤ st.model.blockCount.toNat := by
    simp only [hbatch, blocksPerQuery]
    omega
  have hmin : min (data.blockCount.toNat - 0) blocksPerQuery = batch := by
    rw [hcount, hbatch, Nat.sub_zero]
  have hfit : 0 + batch ≤ blocksMax := by
    simp only [blocksMax]
    omega
  have hslice := st.model.blockSecurity.length_slice hfit
  have hsend : sendFrame (listenerSession silence)
      [cmdFlags, 0x2C, UInt8.ofNat 0, UInt8.ofNat (batch - 1)] st =
        some (.ok (0 :: st.model.blockSecurity.slice 0 batch), st) := by
    have := sendFrame_blocksSecurity hst hv silence (show 0 < 256 by decide)
      (show batch - 1 < st.model.blockCount.toNat by omega)
    rwa [show batch - 1 + 1 - 0 = batch by omega] at this
  have hparse := payloadResponseParse_ok (st.model.blockSecurity.slice 0 batch)
    (ne_nil_of_length_pos (by omega))
  rw [hslice] at hparse
  simp only [blocksSecurityLoop, hmin]
  rw [bind_of_eq hsend]
  simp only [getBlockSecurityResponseParse, hparse]
  rw [write?_of_le _ (by rw [hslice]; exact hfit), Nat.zero_add]

/-- Every later query asks the listener for blocks from `start` down to a smaller number. -/
theorem blocksSecurityLoop_later (n : ℕ) {data : Data}
    (hcount : data.blockCount = st.model.blockCount) {start : ℕ}
    (hlo : blocksPerQuery ≤ start) (hhi : start < st.model.blockCount.toNat) :
    blocksSecurityLoop (listenerSession silence) (n + 1) start data st =
      some ((data, .error .eio), st) := by
  obtain ⟨-, h128, -, -⟩ := hv.bounds
  have hbatch : min (st.model.blockCount.toNat - start) blocksPerQuery - 1 < start ∧
      min (st.model.blockCount.toNat - start) blocksPerQuery - 1 < st.model.blockCount.toNat := by
    simp only [blocksPerQuery] at hlo ⊢
    omega
  have hsend := sendFrame_blocksSecurity hst hv silence (show start < 256 by omega)
    hbatch.2
  rw [if_pos hbatch.1] at hsend
  simp only [blocksSecurityLoop, hcount]
  rw [bind_of_eq hsend]
  rfl

variable (silence : Errno) (data : Data) (hcount : data.blockCount = st.model.blockCount)

include hcount

theorem pollerGetBlocksSecurity_of_le (hle : st.model.blockCount.toNat ≤ blocksPerQuery) :
    pollerGetBlocksSecurity (listenerSession silence) data st =
      some (({ data with
        blockSecurity := data.blockSecurity.write 0
          (st.model.blockSecurity.slice 0 st.model.blockCount.toNat) }, .ok ()), st) := by
  obtain ⟨h1, -⟩ := hv.bounds
  have hqueries : (data.blockCount.toNat + blocksPerQuery - 1) / blocksPerQuery = 0 + 1 := by
    rw [hcount]
    simp only [blocksPerQuery] at hle ⊢
    omega
  rw [pollerGetBlocksSecurity, if_neg (not_refused hv hcount), hqueries,
    blocksSecurityLoop_first hst hv 0 hcount (Nat.min_eq_left hle).symm]
  rfl

theorem pollerGetBlocksSecurity_of_gt (hgt : blocksPerQuery < st.model.blockCount.toNat) :
    ∃ data', pollerGetBlocksSecurity (listenerSession silence) data st =
      some ((data', .error .eio), st) := by
  obtain ⟨n, hqueries⟩ : ∃ n, (data.blockCount.toNat + blocksPerQuery - 1) / blocksPerQuery =
      n + 1 + 1 := by
    refine ⟨(data.blockCount.toNat + blocksPerQuery - 1) / blocksPerQuery - 2, ?_⟩
    rw [hcount]
    simp only [blocksPerQuery] at hgt ⊢
    omega
  rw [pollerGetBlocksSecurity, if_neg (not_refused hv hcount), hqueries,
    blocksSecurityLoop_first hst hv (n + 1) hcount rfl]
  exact ⟨_, blocksSecurityLoop_later hst hv n (by exact hcount) le_rfl hgt⟩

omit hcount

theorem pollerRead_loopback (out : Data) :
    pollerRead (listenerSession silence) out st =
      readMemory (listenerSession silence) (identifiedCard st.model) st := by
  obtain ⟨h1, -, h3, -⟩ := hv.bounds
  have hne : ¬ (st.model.blockCount = 0 ∨ st.model.blockSize = 0) := by
    rw [← UInt16.toNat_inj, ← UInt8.toNat_inj]
    simp only [UInt16.toNat_zero, UInt8.toNat_zero]
    omega
  have hsys : pollerGetSystemInfo (listenerSession silence)
      { Data.reset with dsfid := st.model.dsfid, uid := st.model.uid } st =
        some ((identifiedCard st.model, .ok ()), st) := pollerGetSystemInfo_loopback hst hv _
  have hactive : ¬ (listenerSession silence).active = false := Bool.true_eq_false.mp
  rw [pollerRead, if_neg hactive, bind_of_eq (pollerInventory_loopback hst _)]
  simp only [ne_eq, not_true_eq_false, if_false]
  rw [bind_of_eq hsys]
  simp only [optionalStepOk, not_true_eq_false, if_false]
  have hne' : ¬ ((identifiedCard st.model).blockCount = 0 ∨
      (identifiedCard st.model).blockSize = 0) := hne
  rw [if_neg hne']

theorem readMemory_loopback : ∃ blockData, blockData.slice 0 st.model.dataLen =
        st.model.blockData.slice 0 st.model.dataLen ∧
      ∀ out ret, pollerGetBlocksSecurity (listenerSession silence)
          { identifiedCard st.model with blockData } st = some ((out, ret), st) →
        optionalStepOk ret = decide (ret = .ok ()) →
        readMemory (listenerSession silence) (identifiedCard st.model) st =
          some ((out, ret), st) := by
  obtain ⟨blockData, hblocks, hdata⟩ : ∃ blockData, readBlocks (listenerSession silence)
      st.model.blockCount.toNat 0 (identifiedCard st.model) st =
        some (({ identifiedCard st.model with blockData }, .ok ()), st) ∧
      blockData.slice 0 st.model.dataLen = st.model.blockData.slice 0 st.model.dataLen :=
    readBlocks_loopback hst hv (Nat.zero_add _) rfl (by simp)
  refine ⟨blockData, hdata, fun out ret hsec hret => ?_⟩
  generalize ({ identifiedCard st.model with blockData } : Data) = card at hblocks hsec
  have hblocks' : readBlocks (listenerSession silence) (identifiedCard st.model).blockCount.toNat 0
      (identifiedCard st.model) st = some ((card, .ok ()), st) := hblocks
  have hok : optionalStepOk (.ok ()) = true := rfl
  rw [readMemory, bind_of_eq hblocks']
  simp only [hok, not_true_eq_false, if_false]
  rw [bind_of_eq hsec]
  simp only [hret, decide_eq_true_eq]
  by_cases hz : ret = .ok ()
  · rw [hz]
    rfl
  · rw [if_pos hz]
    rfl

theorem pollerRead_of_le (hle : st.model.blockCount.toNat ≤ blocksPerQuery) (out : Data) :
    ∃ blockData blockSecurity, pollerRead (listenerSession silence) out st =
        some (({ identifiedCard st.model with blockData, blockSecurity }, .ok ()), st) ∧
      blockData.slice 0 st.model.dataLen = st.model.blockData.slice 0 st.model.dataLen ∧
      blockSecurity.slice 0 st.model.blockCount.toNat =
        st.model.blockSecurity.slice 0 st.model.blockCount.toNat := by
  obtain ⟨blockData, hdata, hmem⟩ := readMemory_loopback hst hv silence
  have hsec := pollerGetBlocksSecurity_of_le hst hv silence
    { identifiedCard st.model with blockData } rfl hle
  have hfit : 0 + st.model.blockCount.toNat ≤ blocksMax := by
    rw [Nat.zero_add]
    exact hv.bounds.2.1
  have hslice := slice_write_extend (a := (identifiedCard st.model).blockSecurity)
    (b := st.model.blockSecurity) hfit (by simp)
  rw [Nat.zero_add] at hslice
  refine ⟨blockData, _, ?_, hdata, hslice⟩
  rw [pollerRead_loopback hst hv silence out]
  exact hmem _ _ hsec rfl

end Loopback

theorem pollerRead_no_blocks (silence : Errno) (hst : st.initialized = true)
    (h : st.model.blockCount = 0) (out : Data) :
    ∃ m, pollerRead (listenerSession silence) out st = some ((m, .error .eio), st) := by
  have hcount : (st.model.blockCount - 1).toUInt8.toUInt16 + 1 = 256 := by
    rw [h]
    decide
  have hparse : ∀ data, ∃ m, systemInfoResponseParse (handleGetSysInfo st.model) data =
      (m, .error .eio) := by
    intro data
    have hflags : byteAt (handleGetSysInfo st.model) 1 = sysinfoFlags := rfl
    rw [systemInfoResponseParse]
    rw [hflags, handleGetSysInfo, drop_succ_cons, drop_succ_cons, drop_zero, sysInfoFields_all]
    rw [hcount]
    exact ⟨_, rfl⟩
  have hactive : ¬ (listenerSession silence).active = false := Bool.true_eq_false.mp
  obtain ⟨m, hm⟩ := hparse { Data.reset with dsfid := st.model.dsfid, uid := st.model.uid }
  have hsys : pollerGetSystemInfo (listenerSession silence)
      { Data.reset with dsfid := st.model.dsfid, uid := st.model.uid } st =
        some ((m, .error .eio), st) := by
    rw [pollerGetSystemInfo, bind_of_eq (sendFrame_getSysInfo silence hst)]
    exact congrArg (fun r => some (r, st)) hm
  refine ⟨m, ?_⟩
  rw [pollerRead, if_neg hactive, bind_of_eq (pollerInventory_loopback hst _)]
  simp only [ne_eq, not_true_eq_false, if_false]
  rw [bind_of_eq hsys]
  rfl

/-- A valid card comes back through the listener and the poller exactly if it has no more blocks than
the poller asks for at once. -/
theorem pollerRead_iff (model : Data) (hv : model.Valid) (silence : Errno) (out : Data) :
    (∃ m st', pollerRead (listenerSession silence) out (State.boot.listenerInit (some model)) =
        some ((m, .ok ()), st') ∧ model.compare m = some (.ok ())) ↔
      model.blockCount.toNat ≤ blocksPerQuery := by
  have hst : (State.boot.listenerInit (some model)).initialized = true := rfl
  have hv' : (State.boot.listenerInit (some model)).model.Valid := hv
  constructor
  · rintro ⟨m, st', hread, -⟩
    by_contra hgt
    obtain ⟨blockData, -, hmem⟩ := readMemory_loopback hst hv' silence
    obtain ⟨out', hsec⟩ := pollerGetBlocksSecurity_of_gt hst hv' silence
      { identifiedCard model with blockData } rfl (Nat.lt_of_not_le hgt)
    rw [pollerRead_loopback hst hv' silence out, hmem _ _ hsec rfl] at hread
    cases hread
  · intro hle
    obtain ⟨blockData, blockSecurity, hread, hdata, hsec⟩ :=
      pollerRead_of_le hst hv' silence hle out
    exact ⟨_, _, hread, compare_identifiedCard hv hdata hsec⟩

def zeroCard (blockCount : UInt16) : Data := { Data.reset with blockCount, blockSize := 1 }

theorem pollerRead_two_blocks : (zeroCard 2).Valid ∧
    ∃ m st', pollerRead (listenerSession .etimedout) .reset
        (State.boot.listenerInit (some (zeroCard 2))) = some ((m, .ok ()), st') ∧
      (zeroCard 2).compare m = some (.ok ()) :=
  ⟨by decide, (pollerRead_iff _ (by decide) _ _).mpr (by decide)⟩

theorem pollerRead_33_blocks : (zeroCard 33).Valid ∧
    ¬ ∃ m st', pollerRead (listenerSession .etimedout) .reset
        (State.boot.listenerInit (some (zeroCard 33))) = some ((m, .ok ()), st') ∧
      (zeroCard 33).compare m = some (.ok ()) := by
  refine ⟨by decide, ?_⟩
  rintro ⟨m, st', hread, -⟩
  have hret : (pollerRead (listenerSession .etimedout) .reset
      (State.boot.listenerInit (some (zeroCard 33)))).map (·.1.2) = some (.error .eio) := by
    decide +kernel
  rw [hread] at hret
  cases hret

end NfcStack.Iso15693
