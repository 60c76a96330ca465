import NfcStack.Lib.Hoare
import NfcStack.Protocols.Iso15693.Poller

/-!
# Is what was read from an ISO15693-3 tag stored?

A tag that does not answer GET SYSTEM INFORMATION is read without its memory, and a card without blocks
has no stored form. Every other card that is read is stored and comes back.
-/

namespace NfcStack.Iso15693

open List CArray NfcStack.Reader

variable {τ : Type} (s : Session τ)

structure Data.Trimmed (data : Data) : Prop where
  blockData : data.blockData.ConstFrom data.dataLen 0
  blockSecurity : data.blockSecurity.ConstFrom data.blockCount.toNat 0

variable {data : Data}

theorem Data.Valid.not_refused (hv : data.Valid) :
    ¬ ¬ sizesOk data.blockCount data.blockSize = true := not_not.mpr hv

def Data.encode (data : Data) : Bytes :=
  formatVersion :: (data.uid.toList ++ (data.dsfid :: data.afi :: data.icRef :: data.lockDsfid ::
    data.lockAfi :: (le16Bytes data.blockCount ++ (data.blockSize ::
      (data.blockData.slice 0 data.dataLen ++ data.blockSecurity.slice 0 data.blockCount.toNat)))))

theorem Data.serialize_eq (hv : data.Valid) {outMax : ℕ}
    (hroom : 17 + data.dataLen + data.blockCount.toNat ≤ outMax) :
    data.serialize outMax = .ok data.encode := by
  rw [Data.serialize, if_neg hv.not_refused, if_neg (Nat.not_lt.mpr hroom)]
  simp [Data.encode]

theorem Data.serialize_of_blockCount_zero (h : data.blockCount = 0) (outMax : ℕ) :
    data.serialize outMax = .error .einval := by
  refine if_pos ?_
  simp [Data.sizesOk, h]

theorem Data.Valid.length_blockData (hv : data.Valid) :
    (data.blockData.slice 0 data.dataLen).length = data.dataLen := by
  have hfit : data.dataLen ≤ blocksMax * blockSizeMax := hv.block_end_le le_rfl
  exact length_slice _ (by omega)

theorem Data.Valid.length_blockSecurity (hv : data.Valid) :
    (data.blockSecurity.slice 0 data.blockCount.toNat).length = data.blockCount.toNat := by
  obtain ⟨-, hcount, -, -⟩ := hv.bounds
  exact length_slice _ (by rw [blocksMax]; omega)

theorem Data.Valid.length_encode (hv : data.Valid) :
    data.encode.length = 17 + data.dataLen + data.blockCount.toNat := by
  simp only [Data.encode, length_cons, length_append, length_toList,
    hv.length_blockData, hv.length_blockSecurity, le16Bytes, length_nil]
  omega

def Data.trimmed (data : Data) : Data :=
  { data with
    blockData := data.blockData.keep data.dataLen 0
    blockSecurity := data.blockSecurity.keep data.blockCount.toNat 0 }

theorem Data.Trimmed.trimmed_eq_self (h : data.Trimmed) (hv : data.Valid) :
    data.trimmed = data := by
  obtain ⟨-, hcount, -, -⟩ := hv.bounds
  have hfit : data.dataLen ≤ blocksMax * blockSizeMax := hv.block_end_le le_rfl
  rw [Data.trimmed, keep_eq_self hfit h.blockData,
    keep_eq_self (by rw [blocksMax]; omega) h.blockSecurity]

theorem Data.deserialize_encode_append (hv : data.Valid) (rest : Bytes) :
    Data.deserialize (data.encode ++ rest) = (data.trimmed, .ok ()) := by
  have hlen : (data.encode ++ rest).length =
      17 + data.dataLen + data.blockCount.toNat + rest.length := by
    rw [length_append, hv.length_encode]
  obtain ⟨bytes, hbytes⟩ : ∃ bytes, bytes = data.encode ++ rest := ⟨_, rfl⟩
  rw [← hbytes] at hlen ⊢
  have h0 : bytes.drop 0 = data.encode ++ rest := hbytes
  simp only [Data.encode, cons_append, append_assoc] at h0
  -- the offsets of the fields, from the front of the string to the security bytes
  have h1 := drop_of_cons h0
  have h9 := drop_of_append h1 (m := 8) data.uid.length_toList
  have h10 := drop_of_cons h9
  have h11 := drop_of_cons h10
  have h12 := drop_of_cons h11
  have h13 := drop_of_cons h12
  have h14 := drop_of_cons h13
  have h16 := drop_of_append h14 (m := 2) rfl
  have h17 := drop_of_cons h16
  have hsecurity := drop_of_append h17 (m := data.dataLen) hv.length_blockData
  have hle : le16 (byteAt bytes 14) (byteAt bytes 15) = data.blockCount := le16_of_append h14
  have hhead : ¬ (bytes.length < 17 ∨ byteAt bytes 0 ≠ formatVersion) := by
    rintro (hshort | hversion)
    · omega
    · exact hversion (byteAt_of_cons h0)
  have hrest : ¬ (¬ sizesOk data.blockCount data.blockSize ∨
      bytes.length < 17 + data.blockCount.toNat * data.blockSize.toNat +
        data.blockCount.toNat) := by
    rintro (hsizes | hshort)
    · exact hsizes hv
    · rw [show data.blockCount.toNat * data.blockSize.toNat = data.dataLen from rfl] at hshort
      omega
  have hdata : (bytes.drop 17).take (data.blockCount.toNat * data.blockSize.toNat) =
      data.blockData.slice 0 data.dataLen := by
    rw [h17]
    exact take_left' hv.length_blockData
  have htail : (bytes.drop (17 + data.blockCount.toNat * data.blockSize.toNat)).take
      data.blockCount.toNat = data.blockSecurity.slice 0 data.blockCount.toNat := by
    rw [show bytes.drop (17 + data.blockCount.toNat * data.blockSize.toNat) =
      data.blockSecurity.slice 0 data.blockCount.toNat ++ rest from hsecurity]
    exact take_left' hv.length_blockSecurity
  rw [Data.deserialize, if_neg hhead]
  simp only [hle, byteAt_of_cons h16, byteAt_of_cons h9, byteAt_of_cons h10, byteAt_of_cons h11,
    byteAt_of_cons h12, byteAt_of_cons h13, ofList_of_append h1]
  rw [if_neg hrest, hdata, htail]
  rfl

theorem Data.deserialize_encode (hv : data.Valid) (h : data.Trimmed) :
    Data.deserialize data.encode = (data, .ok ()) := by
  have hdeserialize := Data.deserialize_encode_append hv []
  rwa [append_nil, h.trimmed_eq_self hv] at hdeserialize

theorem payloadResponseParse_length {rx bytes : Bytes} {size : ℕ}
    (h : payloadResponseParse rx size = .ok bytes) : bytes.length = size ∧ 0 < size := by
  rw [payloadResponseParse] at h
  split at h
  · cases h
  split at h
  · cases h
  obtain rfl := Except.ok.inj h
  rw [length_drop]
  omega

def KeepsSizes (data data' : Data) : Prop :=
  data'.blockCount = data.blockCount ∧ data'.blockSize = data.blockSize ∧ data'.Trimmed

theorem Data.Trimmed.keepsSizes (h : data.Trimmed) : KeepsSizes data data :=
  ⟨rfl, rfl, h⟩

theorem KeepsSizes.trans {a b c : Data} (hab : KeepsSizes a b) (hbc : KeepsSizes b c) :
    KeepsSizes a c :=
  ⟨hbc.1.trans hab.1, hbc.2.1.trans hab.2.1, hbc.2.2⟩

theorem readBlocks_keepsSizes (n block : ℕ) (h : data.Trimmed)
    (hn : block + n ≤ data.blockCount.toNat) :
    Hoare.Ensures (readBlocks s n block data) fun r => KeepsSizes data r.1 := by
  induction n generalizing block data with
  | zero => exact .pure h.keepsSizes
  | succ n ih =>
    refine .bind (Q := fun r => ∀ bytes, r = .ok bytes → bytes.length = data.blockSize.toNat) ?_ ?_
    · -- a block that is read has the size of a block
      refine .bind_except (fun _ => .pure nofun) fun rx => ?_
      exact .pure fun bytes hbytes => (payloadResponseParse_length hbytes).1
    · intro answer hlen
      cases answer with
      | error e => exact .pure h.keepsSizes
      | ok bytes =>
        have hblock : block * data.blockSize.toNat + bytes.length ≤ data.dataLen := by
          rw [hlen bytes rfl, ← Nat.succ_mul]
          exact Nat.mul_le_mul_right _ (by omega)
        cases hw : data.blockData.write? (block * data.blockSize.toNat) bytes with
        | none =>
          simp only [hw]
          exact .of_none (fun _ => rfl) _
        | some blockData =>
          simp only [hw]
          have hstored : KeepsSizes data { data with blockData } :=
            ⟨rfl, rfl, h.blockData.of_write? hblock hw, h.blockSecurity⟩
          exact (ih (block + 1) hstored.2.2 (by show _ ≤ data.blockCount.toNat; omega)).mono
            fun r hr => hstored.trans hr

theorem blocksSecurityLoop_keepsSizes (n start : ℕ) (h : data.Trimmed) :
    Hoare.Ensures (blocksSecurityLoop s n start data) fun r => KeepsSizes data r.1 := by
  induction n generalizing start data with
  | zero => exact .pure h.keepsSizes
  | succ n ih =>
    refine .bind_except (fun _ => .pure h.keepsSizes) fun rx => ?_
    cases hparse : getBlockSecurityResponseParse rx
        (min (data.blockCount.toNat - start) blocksPerQuery) with
    | error e =>
      simp only [hparse]
      exact .pure h.keepsSizes
    | ok bytes =>
      -- an answer with security bytes is not empty, so the query began among them
      obtain ⟨hlen, hpos⟩ := payloadResponseParse_length hparse
      simp only [hparse]
      cases hw : data.blockSecurity.write? start bytes with
      | none =>
        exact .of_none (fun _ => rfl) _
      | some blockSecurity =>
        have hstored : KeepsSizes data { data with blockSecurity } :=
          ⟨rfl, rfl, h.blockData, h.blockSecurity.of_write? (by omega) hw⟩
        exact (ih (start + blocksPerQuery) hstored.2.2).mono fun r hr => hstored.trans hr

theorem pollerGetBlocksSecurity_keepsSizes (h : data.Trimmed) :
    Hoare.Ensures (pollerGetBlocksSecurity s data) fun r => KeepsSizes data r.1 := by
  rw [pollerGetBlocksSecurity]
  split
  · exact .pure h.keepsSizes
  · exact blocksSecurityLoop_keepsSizes s _ 0 h

theorem readMemory_keepsSizes (h : data.Trimmed) :
    Hoare.Ensures (readMemory s data) fun r => KeepsSizes data r.1 := by
  refine .bind (readBlocks_keepsSizes s _ 0 h (Nat.zero_add _).le) ?_
  rintro ⟨out, ret⟩ hblocks
  by_cases hret : ¬ optionalStepOk ret
  · simp only [if_pos hret]
    exact .pure hblocks
  simp only [if_neg hret]
  refine .bind (pollerGetBlocksSecurity_keepsSizes s hblocks.2.2) ?_
  rintro ⟨out', ret'⟩ hsecurity
  by_cases hret' : ¬ optionalStepOk ret'
  · simp only [if_pos hret']
    exact .pure (hblocks.trans hsecurity)
  · simp only [if_neg hret']
    exact .pure (hblocks.trans hsecurity)

def SameMemory (data data' : Data) : Prop :=
  data'.blockData = data.blockData ∧ data'.blockSecurity = data.blockSecurity

theorem sysInfoField_sameMemory {present : Bool} {size : ℕ} {store : Data → Bytes → Data}
    {s s' : Data × Bytes} (h : sysInfoField present size store s = .ok s')
    (hstore : ∀ d r, SameMemory d (store d r)) : SameMemory s.1 s'.1 := by
  rw [sysInfoField] at h
  split at h
  · split at h
    · cases h
    · obtain rfl := Except.ok.inj h
      exact hstore _ _
  · obtain rfl := Except.ok.inj h
    exact ⟨rfl, rfl⟩

theorem sysInfoFields_ok {infoFlags : UInt8} {data' : Data} {rest : Bytes}
    (h : sysInfoFields infoFlags data rest = .ok data') : data'.Valid ∧ SameMemory data data' := by
  have hbind : ∀ {α β : Type} {x : Except Data α} {f : α → Except Data β} {b : β},
      (x >>= f) = .ok b → ∃ a, x = .ok a ∧ f a = .ok b := by
    intro α β x f b hb
    cases x with
    | error e => cases hb
    | ok a => exact ⟨a, rfl, hb⟩
  obtain ⟨s₁, h₁, h⟩ := hbind h
  obtain ⟨s₂, h₂, h⟩ := hbind h
  obtain ⟨s₃, h₃, h⟩ := hbind h
  obtain ⟨s₄, h₄, h⟩ := hbind h
  have m₁ := sysInfoField_sameMemory h₁ fun _ _ => ⟨rfl, rfl⟩
  have m₂ := sysInfoField_sameMemory h₂ fun _ _ => ⟨rfl, rfl⟩
  have m₃ := sysInfoField_sameMemory h₃ fun _ _ => ⟨rfl, rfl⟩
  have m₄ := sysInfoField_sameMemory h₄ fun _ _ => ⟨rfl, rfl⟩
  split at h
  · cases h
  next hend =>
  push Not at hend
  obtain rfl := Except.ok.inj h
  refine ⟨hend.2, ?_, ?_⟩
  · rw [m₄.1, m₃.1, m₂.1, m₁.1]
  · rw [m₄.2, m₃.2, m₂.2, m₁.2]

structure Data.Blank (data : Data) : Prop where
  blockCount : data.blockCount = 0
  blockData : data.blockData = .fill _ 0
  blockSecurity : data.blockSecurity = .fill _ 0

theorem blank_reset : Data.reset.Blank := ⟨rfl, rfl, rfl⟩

theorem Data.Blank.trimmed {data' : Data} (h : data.Blank) (hm : SameMemory data data') :
    data'.Trimmed := by
  constructor
  · rw [hm.1, h.blockData]
    exact constFrom_fill _ _ _
  · rw [hm.2, h.blockSecurity]
    exact constFrom_fill _ _ _

theorem pollerInventory_blank (h : data.Blank) :
    Hoare.Ensures (pollerInventory s data) fun r => r.1.Blank := by
  refine .bind_except (fun _ => .pure h) fun rx => ?_
  refine .pure ?_
  rw [inventoryResponseParse]
  split
  · exact h
  split
  · exact h
  · exact ⟨h.blockCount, h.blockData, h.blockSecurity⟩

theorem pollerGetSystemInfo_sizes (h : data.Blank) :
    Hoare.Ensures (pollerGetSystemInfo s data) fun r =>
      optionalStepOk r.2 → r.1.blockCount = 0 ∨ r.1.Valid ∧ r.1.Trimmed := by
  refine .bind_except (fun _ => .pure fun _ => .inl h.blockCount) fun rx => ?_
  refine .pure ?_
  rw [systemInfoResponseParse]
  split
  · exact fun _ => .inl h.blockCount
  have hio : ¬ optionalStepOk (.error .eio) := by decide
  split
  · exact fun hok => absurd hok hio
  split
  · exact fun hok => absurd hok hio
  next data' hfields =>
  obtain ⟨hv, hm⟩ := sysInfoFields_ok hfields
  exact fun _ => .inr ⟨hv, h.trimmed hm⟩

theorem pollerRead_sizes (out : Data) :
    Hoare.Ensures (pollerRead s out) fun r =>
      r.2 = .ok () → r.1.blockCount = 0 ∨ r.1.Valid ∧ r.1.Trimmed := by
  by_cases hactive : s.active = false
  · rw [pollerRead, if_pos hactive]
    exact .pure nofun
  rw [pollerRead, if_neg hactive]
  refine .bind (pollerInventory_blank s blank_reset) ?_
  rintro ⟨out₁, ret₁⟩ hblank
  by_cases hret₁ : ret₁ ≠ .ok ()
  · simp only [if_pos hret₁]
    exact .pure fun hok => absurd hok hret₁
  simp only [if_neg hret₁]
  refine .bind (pollerGetSystemInfo_sizes s hblank) ?_
  rintro ⟨out₂, ret₂⟩ hsizes
  by_cases hret₂ : ¬ optionalStepOk ret₂
  · simp only [if_pos hret₂]
    refine .pure fun (hok : ret₂ = .ok ()) => absurd ?_ hret₂
    rw [hok]
    rfl
  simp only [if_neg hret₂]
  have hsizes := hsizes (not_not.mp hret₂)
  by_cases hzero : out₂.blockCount = 0 ∨ out₂.blockSize = 0
  · simp only [if_pos hzero]
    exact .pure fun _ => hsizes
  simp only [if_neg hzero]
  push Not at hzero
  obtain ⟨hv, ht⟩ := hsizes.resolve_left hzero.1
  refine (readMemory_keepsSizes s ht).mono ?_
  intro r hr _
  refine .inr ⟨?_, hr.2.2⟩
  rw [Data.Valid, hr.1, hr.2.1]
  exact hv

/-- What becomes of a card that was read: with blocks it is stored in any buffer that has room for it,
and its stored form is read as this card; without blocks it is refused. -/
theorem pollerRead_storable (s : Session τ) (out data : Data) (t t' : τ)
    (h : pollerRead s out t = some ((data, .ok ()), t')) :
    (data.blockCount ≠ 0 → ∀ outMax, 17 + data.dataLen + data.blockCount.toNat ≤ outMax →
      ∃ bytes, data.serialize outMax = .ok bytes ∧ Data.deserialize bytes = (data, .ok ())) ∧
    (data.blockCount = 0 → ∀ outMax, data.serialize outMax = .error .einval) := by
  refine ⟨?_, Data.serialize_of_blockCount_zero⟩
  intro hne outMax hroom
  obtain ⟨hv, ht⟩ := (pollerRead_sizes s out t _ t' h rfl).resolve_left hne
  exact ⟨_, Data.serialize_eq hv hroom, Data.deserialize_encode hv ht⟩

def smallTag (informs : Bool) : Tag Unit where
  step _ tx :=
    if tx.take 2 = [0x26, 0x01] then
      some ((), .ok (Framing.crcFrame crc16 [0x00, 0x00, 1, 2, 3, 4, 5, 6, 7, 8]))
    else if informs = true ∧ tx.take 2 = [0x02, 0x2B] then
      some ((), .ok (Framing.crcFrame crc16 [0x00, 0x40, 0x00, 0x00]))
    else if informs = true ∧ tx.take 2 = [0x02, 0x20] then
      some ((), .ok (Framing.crcFrame crc16 [0x00, 0x5A]))
    else some ((), .error .etimedout)

theorem exists_pollerRead {tag : Tag Unit} {count : UInt16} {size : UInt8}
    (h : (pollerRead ⟨true, tag⟩ .reset ()).map
      (fun r => (r.1.2, r.1.1.blockCount, r.1.1.blockSize)) = some (.ok (), count, size)) :
    ∃ data t', pollerRead ⟨true, tag⟩ .reset () = some ((data, .ok ()), t') ∧
      data.blockCount = count ∧ data.blockSize = size := by
  obtain ⟨⟨⟨data, ret⟩, t'⟩, hread, hfields⟩ := Option.map_eq_some_iff.mp h
  obtain ⟨rfl, hsizes⟩ := Prod.mk.inj hfields
  obtain ⟨rfl, rfl⟩ := Prod.mk.inj hsizes
  exact ⟨data, t', hread, rfl, rfl⟩

theorem pollerRead_storable_smallTag :
    ∃ data t', pollerRead ⟨true, smallTag true⟩ .reset () = some ((data, .ok ()), t') ∧
      data.blockCount = 1 ∧
      ∃ bytes, data.serialize 19 = .ok bytes ∧ Data.deserialize bytes = (data, .ok ()) := by
  have hfields : (pollerRead ⟨true, smallTag true⟩ .reset ()).map
      (fun r => (r.1.2, r.1.1.blockCount, r.1.1.blockSize)) = some (.ok (), 1, 1) := by
    decide +kernel
  obtain ⟨data, t', hread, hcount, hsize⟩ := exists_pollerRead hfields
  refine ⟨data, t', hread, hcount, (pollerRead_storable _ _ data () t' hread).1 ?_ 19 ?_⟩
  · rw [hcount]
    decide
  · rw [Data.dataLen, hcount, hsize]
    decide

theorem pollerRead_inventory_only :
    ∃ data t', pollerRead ⟨true, smallTag false⟩ .reset () = some ((data, .ok ()), t') ∧
      ∀ outMax, data.serialize outMax = .error .einval := by
  have hfields : (pollerRead ⟨true, smallTag false⟩ .reset ()).map
      (fun r => (r.1.2, r.1.1.blockCount, r.1.1.blockSize)) = some (.ok (), 0, 0) := by
    decide +kernel
  obtain ⟨data, t', hread, hcount, -⟩ := exists_pollerRead hfields
  exact ⟨data, t', hread, Data.serialize_of_blockCount_zero hcount⟩

end NfcStack.Iso15693
