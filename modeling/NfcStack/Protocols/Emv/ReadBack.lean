import NfcStack.Framing.Assembler
import NfcStack.Protocols.Emv.Poller
import NfcStack.Protocols.Emv.Wire
import NfcStack.Router.AidRouter

/-!
# Reading an emulated EMV card back

The listener takes the number in READ RECORD as an index into the records of the image, the
poller stores what it reads by order of arrival. The two agree on a card whose AFL starts at
record 1.
-/

namespace NfcStack.Emv

open Framing Reader Poll UInt8

variable {cfg : Config}

def deliver (st : State cfg) (apdu : Apdu) : Option (State cfg × Bytes) :=
  if Router.isSelectByAid apdu then onSelect st apdu.data else onApdu st apdu

def cardSession (extendedOk : Bool) : Session (State cfg) where
  active := true
  tag := ⟨fun st tx =>
    match apduParse extendedOk tx with
    | none => some (st, .error .enotsup)
    | some apdu => (deliver st apdu).map fun r => (r.1, .ok r.2)⟩

section Exchange

variable {extendedOk : Bool} {st st' : State cfg} {tx : Bytes} (apdu : Apdu)

theorem pollerTransceive_deliver (hparse : apduParse extendedOk tx = some apdu) :
    pollerTransceive (cardSession extendedOk) tx st = (deliver st apdu).map fun r =>
      (if maxResponseLen < r.2.length then .error .enospc
        else if Ndef.swOk r.2 then .ok r.2 else .error .eio, r.1) := by
  show ((cardSession extendedOk).transceive maxResponseLen tx st).bind _ = _
  simp only [Session.transceive, cardSession, if_true, hparse]
  cases deliver st apdu with
  | none => rfl
  | some r =>
    simp only [Option.map_some, Option.bind_some]
    split <;> rfl

theorem pollerTransceive_ok {data : Bytes} (hparse : apduParse extendedOk tx = some apdu)
    (hstep : deliver st apdu = some (st', data ++ [0x90, 0x00])) (hlen : data.length ≤ 253) :
    pollerTransceive (cardSession extendedOk) tx st = some (.ok (data ++ [0x90, 0x00]), st') := by
  have hrx : ¬ maxResponseLen < (data ++ [0x90, 0x00]).length := by
    rw [List.length_append]
    show ¬ 255 < _ + 2
    omega
  simp only [pollerTransceive_deliver apdu hparse, hstep, Option.map_some, if_neg hrx,
    Ndef.swOk_append, if_true]

end Exchange

variable {x : State cfg}

theorem parsePpseAid_ppseFci (h : x.Fresh) : parsePpseAid x.wire.ppseFci = .ok x.image.aid := by
  have hlen := h.length_aid
  have hpos := h.aidLen_pos
  have hle := h.aidLen_le
  -- the 25 bytes before the tag
  have hskip : ∀ before after : Bytes, (∀ b ∈ before, b ≠ 0x4F) → 2 < after.length →
      parsePpseAid (before ++ after) = parsePpseAid after := by
    intro before after hb ha
    induction before with
    | nil => rfl
    | cons b before ih =>
      rw [List.cons_append, parsePpseAid, if_neg (by rw [List.length_append]; omega),
        if_pos (.inl (hb b List.mem_cons_self))]
      exact ih fun c hc => hb c (List.mem_cons_of_mem _ hc)
  have hsplit : x.wire.ppseFci =
      ([0x6F, 0x1E, 0x84, 0x0E] ++ ppseAid ++ [0xA5, 0x10, 0xBF, 0x0C, 0x0E, 0x61, 0x0C]) ++
        0x4F :: x.image.appAidLen :: (x.image.aid ++ [0x87, 0x01, 0x01]) := by
    rw [h.wire_eq.1]
    simp
  rw [hsplit, hskip _ _ (by decide +kernel) (by simp), parsePpseAid]
  simp only [byteAt, List.getD_cons_zero, List.length_cons, List.length_append, List.length_nil]
  rw [if_neg (by omega), if_neg]
  · rw [List.drop_one, List.tail_cons, ← hlen, List.take_left]
  · push Not
    exact ⟨rfl, by omega, hle, by omega⟩

def readHead (image : Image cfg) : Image cfg :=
  { (storeAid image.aid : Image cfg) with aip := image.aip, afl := image.afl }

theorem storeOptions_gpo (h : x.Fresh) :
    storeOptions (storeAid x.image.aid) (x.wire.gpo ++ [0x90, 0x00]) = readHead x.image := by
  have hlong : 8 ≤ (x.wire.gpo ++ [0x90, 0x00]).length := by simp [h.wire_eq.2.2]
  have haip : CArray.ofList 2 0 ((x.wire.gpo ++ [0x90, 0x00]).drop 2) = x.image.aip := by
    apply CArray.ext
    rw [CArray.toList_ofList_of_le _ (by simp [h.wire_eq.2.2]), h.wire_eq.2.2]
    simp
  have hafl : CArray.ofList 4 0 ((x.wire.gpo ++ [0x90, 0x00]).drop 4) = x.image.afl := by
    apply CArray.ext
    rw [CArray.toList_ofList_of_le _ (by simp [h.wire_eq.2.2]), h.wire_eq.2.2]
    simp
  rw [storeOptions, if_pos hlong, haip, hafl, readHead]

theorem apduParse_selectApp (extendedOk : Bool) {aid : Bytes} (hpos : 0 < aid.length)
    (hlen : aid.length < 256) :
    apduParse extendedOk (selectApp aid) = some ⟨0x00, 0xA4, 0x04, 0x00, aid, 0, false, false⟩ := by
  have h := apduParse_selectCommand extendedOk 0x00 none hpos hlen
  rw [selectCommand, Option.toList_none, List.append_nil] at h
  exact h

variable {st : State cfg} (h : st.Fresh)

include h

theorem transceive_selectPpse (extendedOk : Bool) :
    pollerTransceive (cardSession extendedOk) selectPpse st =
      some (.ok (st.wire.ppseFci ++ [0x90, 0x00]), { st with session := .ppseSelected }) := by
  refine pollerTransceive_ok ⟨0x00, 0xA4, 0x04, 0x00, ppseAid, 0, false, false⟩ rfl ?_
    h.length_ppseFci_le
  rw [← h.send_ppseFci]
  rfl

theorem transceive_selectApp (haid : st.image.aid ≠ ppseAid) (extendedOk : Bool) :
    pollerTransceive (cardSession extendedOk) (selectApp st.image.aid) st =
      some (.ok (st.wire.appFci ++ [0x90, 0x00]), { st with session := .appSelected }) := by
  have hlen := h.length_aid
  have hpos := h.aidLen_pos
  have hle : st.image.appAidLen.toNat ≤ 16 := h.aidLen_le
  refine pollerTransceive_ok _ (apduParse_selectApp extendedOk (by omega) (by omega)) ?_
    h.length_appFci_le
  have hsel : Router.isSelectByAid ⟨0x00, 0xA4, 0x04, 0x00, st.image.aid, 0, false, false⟩ =
      true := by
    have hlc : 0 < st.image.aid.length := by omega
    simp only [Router.isSelectByAid, Apdu.lc, hlc, decide_true]
    rfl
  rw [deliver, if_pos hsel, ← h.send_appFci, onSelect, if_neg haid, hlen, h.read]
  simp

theorem transceive_gpo (hs : st.session = .appSelected) (extendedOk : Bool) :
    pollerTransceive (cardSession extendedOk) getProcessingOptions st =
      some (.ok (st.wire.gpo ++ [0x90, 0x00]), { st with session := .gpoDone }) := by
  refine pollerTransceive_ok ⟨0x80, 0xA8, 0x00, 0x00, [0x83, 0x00], 0, true, false⟩ rfl ?_
    h.length_gpo_le
  rw [deliver, if_neg (by decide), ← h.send_gpo, onApdu, if_pos (by decide),
    if_neg (not_not.mpr hs)]

theorem State.Fresh.session (session : SessionState) :
    ({ st with session } : State cfg).Fresh := ⟨h.wire, h.aidLen_pos, h.aidLen_le⟩

theorem pollerRead_app (haid : st.image.aid ≠ ppseAid) (extendedOk : Bool) (fuel : ℕ) :
    pollerRead (cardSession extendedOk) fuel st =
      pollerReadRecords (cardSession extendedOk) (st.image.aflSfi >>> 3) st.image.aflLast fuel
        st.image.aflFirst 0 (readHead st.image) { st with session := .gpoDone } := by
  rw [pollerRead, bind_of_eq (transceive_selectPpse h extendedOk)]
  simp only [Ndef.payload_append, parsePpseAid_ppseFci h]
  rw [bind_of_eq (transceive_selectApp (h.session .ppseSelected) haid extendedOk)]
  simp only
  rw [bind_of_eq (transceive_gpo (h.session .appSelected) rfl extendedOk)]
  simp only [storeOptions_gpo h]
  rfl

theorem pollerRead_ppse (haid : st.image.aid = ppseAid) (extendedOk : Bool) (fuel : ℕ) :
    ∃ (out : Image cfg) (st' : State cfg), pollerRead (cardSession extendedOk) fuel st =
      some ((out, .error .eio), st') := by
  have hagain : selectApp st.image.aid = selectPpse := by rw [haid]; rfl
  refine ⟨storeAid st.image.aid, { st with session := .ppseSelected }, ?_⟩
  rw [pollerRead, bind_of_eq (transceive_selectPpse h extendedOk)]
  simp only [Ndef.payload_append, parsePpseAid_ppseFci h, hagain]
  rw [bind_of_eq (transceive_selectPpse (h.session .ppseSelected) extendedOk)]
  rfl

omit h

structure Image.SameHead (out out' : Image cfg) : Prop where
  appAid : out'.appAid = out.appAid
  appAidLen : out'.appAidLen = out.appAidLen
  aip : out'.aip = out.aip
  afl : out'.afl = out.afl

theorem parseTlvs_fields (fuel : ℕ) (out : Image cfg) (data : Bytes) :
    ∃ pan panLen track2 track2Len,
      parseTlvs fuel out data = { out with pan, panLen, track2, track2Len } := by
  induction fuel generalizing out data with
  | zero => exact ⟨out.pan, out.panLen, out.track2, out.track2Len, rfl⟩
  | succ fuel ih =>
    match data with
    | [] | [_] => exact ⟨out.pan, out.panLen, out.track2, out.track2Len, rfl⟩
    | tag :: tlen :: rest =>
      rw [parseTlvs]
      by_cases hend : rest.length < tlen.toNat
      · rw [if_pos hend]
        exact ⟨out.pan, out.panLen, out.track2, out.track2Len, rfl⟩
      rw [if_neg hend]
      -- each of the three cases goes on behind the value
      by_cases htrack : tag = 0x57
      · rw [if_pos htrack]
        obtain ⟨pan, panLen, track2, track2Len, h⟩ := ih _ _
        exact ⟨pan, panLen, track2, track2Len, h⟩
      rw [if_neg htrack]
      by_cases hpan : tag = 0x5A
      · rw [if_pos hpan]
        obtain ⟨pan, panLen, track2, track2Len, h⟩ := ih _ _
        exact ⟨pan, panLen, track2, track2Len, h⟩
      · rw [if_neg hpan]
        exact ih _ _

theorem parseRecordTlv_fields (out : Image cfg) (data : Bytes) :
    ∃ pan panLen track2 track2Len,
      parseRecordTlv out data = { out with pan, panLen, track2, track2Len } := by
  unfold parseRecordTlv
  split
  · exact ⟨out.pan, out.panLen, out.track2, out.track2Len, rfl⟩
  · split
    · exact parseTlvs_fields _ _ _
    · exact parseTlvs_fields _ _ _

theorem sameHead_storeRecord (out : Image cfg) (idx : ℕ) (payload : Bytes) :
    out.SameHead (storeRecord out idx payload) := by
  obtain ⟨pan, panLen, track2, track2Len, h⟩ := parseRecordTlv_fields
    { out with
      recordLen := out.recordLen.set idx (UInt8.ofNat payload.length)
      recordData := out.recordData.write (idx * cfg.recordSize) payload } payload
  rw [storeRecord, h]
  exact ⟨rfl, rfl, rfl, rfl⟩

variable {out : Image cfg}

theorem Image.Holds.storeRecord {rs : List Bytes} (h : out.Holds rs) {payload : Bytes}
    (hslot : rs.length < cfg.maxRecords) (hsize : payload.length ≤ cfg.recordSize) :
    (storeRecord out rs.length payload).Holds (rs ++ [payload]) := by
  obtain ⟨pan, panLen, track2, track2Len, hfields⟩ := parseRecordTlv_fields
    { out with
      recordLen := out.recordLen.set rs.length (UInt8.ofNat payload.length)
      recordData := out.recordData.write (rs.length * cfg.recordSize) payload } payload
  rw [Emv.storeRecord, hfields]
  exact h.write hslot hsize

theorem sfi_of_poller (x : UInt8) :
    (((x >>> 3) <<< 3) ||| 0x04) &&& (0x07 : UInt8) = 0x04 ∧
      ((((x >>> 3) <<< 3) ||| 0x04) >>> 3) &&& (0x1F : UInt8) = x >>> 3 := by
  obtain ⟨⟨x⟩⟩ := x
  revert x
  decide +kernel

section Loop

variable {st st' : State cfg} {recNo : UInt8} (extendedOk : Bool)

def readFrom (fuel : ℕ) (recNo : UInt8) (idx : ℕ) (out : Image cfg) (st : State cfg) :
    Option ((Image cfg × Ret) × State cfg) :=
  pollerReadRecords (cardSession extendedOk) (st.image.aflSfi >>> 3) st.image.aflLast fuel recNo idx
    out st

section Pass

variable (hs : st.session = .gpoDone) (hlo : st.image.aflFirst ≤ recNo)
  (hhi : recNo ≤ st.image.aflLast)
include hs hlo hhi

theorem deliver_readRecord :
    deliver st ⟨0x00, 0xB2, recNo, ((st.image.aflSfi >>> 3) <<< 3) ||| 0x04, [], 0, true, false⟩ =
      if recNo = 0 then none
      else (st.image.record? (recNo.toNat - 1)).map fun data =>
        (st, send data StatusWord.ok.bytes) := by
  obtain ⟨h4, hsfi⟩ := sfi_of_poller st.image.aflSfi
  have hreq : readRecordRequest st
      ⟨0x00, 0xB2, recNo, ((st.image.aflSfi >>> 3) <<< 3) ||| 0x04, [], 0, true, false⟩ =
        .ok recNo := by
    simp only [readRecordRequest, hs, h4, hsfi, UInt8.not_lt.mpr hlo, UInt8.not_lt.mpr hhi, ne_eq,
      not_true_eq_false, or_self, if_false]
  rw [deliver, if_neg (by simp [Router.isSelectByAid]), onApdu, if_neg (by simp [isGpo]),
    if_pos (by simp [isReadRecord]), hreq]

variable {idx : ℕ} {data : Bytes}

theorem readFrom_pass (hidx : idx < cfg.maxRecords) (hne : recNo ≠ 0)
    (hdata : st.image.record? (recNo.toNat - 1) = some data)
    (hlen : data.length ≤ 253) (fuel : ℕ) (out : Image cfg) :
    readFrom extendedOk (fuel + 1) recNo idx out st =
      if 0 < data.length ∧ data.length ≤ cfg.recordSize then
        readFrom extendedOk fuel (recNo + 1) (idx + 1) (storeRecord out idx data) st
      else readFrom extendedOk fuel (recNo + 1) idx out st := by
  have hx : pollerTransceive (cardSession extendedOk)
      (readRecordCommand (st.image.aflSfi >>> 3) recNo) st =
        some (.ok (data ++ [0x90, 0x00]), st) := by
    refine pollerTransceive_ok _ rfl ?_ hlen
    refine (deliver_readRecord hs hlo hhi).trans ?_
    rw [if_neg hne, hdata, Option.map_some, send_of_le hlen]
    rfl
  rw [readFrom, pollerReadRecords, if_neg (by
    rw [not_or, UInt8.not_lt, Nat.not_le]
    exact ⟨hhi, hidx⟩), Poll.bind_of_eq hx]
  simp only [Ndef.payload_append]
  split
  · rfl
  · rfl

variable {fuel : ℕ}

theorem record_of_readFrom (hidx : idx < cfg.maxRecords) {out' : Image cfg}
    (h : readFrom extendedOk (fuel + 1) recNo idx out st = some ((out', .ok ()), st')) :
    recNo ≠ 0 ∧ ∃ data, st.image.record? (recNo.toNat - 1) = some data ∧ data.length ≤ 253 := by
  rw [readFrom, pollerReadRecords, if_neg (by
    rw [not_or, UInt8.not_lt, Nat.not_le]
    exact ⟨hhi, hidx⟩)] at h
  obtain ⟨rx, st₁, hx, hrest⟩ := Poll.bind_eq_some h
  have hstep := deliver_readRecord hs hlo hhi
  rw [pollerTransceive_deliver ⟨0x00, 0xB2, recNo, ((st.image.aflSfi >>> 3) <<< 3) ||| 0x04, [], 0,
    true, false⟩ rfl, hstep] at hx
  by_cases hzero : recNo = 0
  · -- record 0 would be in the slot before the first
    rw [if_pos hzero] at hx
    cases hx
  rw [if_neg hzero] at hx
  cases hdata : st.image.record? (recNo.toNat - 1) with
  | none =>
    rw [hdata] at hx
    cases hx
  | some data =>
    refine ⟨hzero, data, rfl, ?_⟩
    by_contra hlong
    -- the transport has no room for the status word, so the listener refuses
    have hsend : send data StatusWord.ok.bytes = StatusWord.conditionsNotSat.bytes :=
      if_pos (by show 255 < data.length + 2; omega)
    rw [hdata, Option.map_some, hsend] at hx
    cases hx
    cases hrest

end Pass

theorem readFrom_done (h : st.image.aflLast < recNo) :
    readFrom extendedOk (fuel + 1) recNo idx out st =
      some (({ out with recordCount := UInt8.ofNat idx }, .ok ()), st) := by
  rw [readFrom, pollerReadRecords, if_pos (.inl h)]
  rfl

theorem toNat_next (hdata : st.image.record? (recNo.toNat - 1) = some data) :
    (recNo + 1).toNat = recNo.toNat + 1 := by
  have := Image.lt_of_record? hdata
  have := cfg.maxRecords_range.2
  rw [UInt8.toNat_add, show (1 : UInt8).toNat = 1 from rfl]
  omega

/-- What `n` passes to the end of the AFL range leave in the image: the records that came with
data, behind those that were there. If that is one record for each pass, they are the records of
the card in the slots from `recNo - 1` on. -/
theorem readFrom_sound (st : State cfg) (n : ℕ) (rs : List Bytes) {out' : Image cfg}
    (hs : st.session = .gpoDone) (hlo : st.image.aflFirst ≤ recNo)
    (hn : recNo.toNat + n = st.image.aflLast.toNat + 1) (hroom : rs.length + n ≤ cfg.maxRecords)
    (hout : out.Holds rs)
    (h : readFrom extendedOk fuel recNo rs.length out st = some ((out', .ok ()), st')) :
    out.SameHead out' ∧ ∃ got, out'.Holds (rs ++ got) ∧
      out'.recordCount.toNat = rs.length + got.length ∧ got.length ≤ n ∧
      (got.length = n → (0 < n → recNo ≠ 0) ∧
        ∀ i < n, st.image.record? (recNo.toNat - 1 + i) = got[i]?) := by
  -- `n` counts the passes that are left, and `rs` are the records stored so far
  induction n generalizing fuel recNo rs out with
  | zero =>
    have hmax := cfg.maxRecords_range.2
    cases fuel with
    | zero => cases h
    | succ fuel =>
      rw [readFrom_done extendedOk (lt_iff_toNat_lt.mpr (by omega))] at h
      cases h
      have hcount : (UInt8.ofNat rs.length).toNat = rs.length := by
        rw [toNat_ofNat']
        omega
      refine ⟨⟨rfl, rfl, rfl, rfl⟩, [], ?_, hcount, Nat.le_refl 0, fun _ => ⟨?_, ?_⟩⟩
      · rw [List.append_nil]
        exact hout
      · exact fun h0 => absurd h0 (Nat.lt_irrefl 0)
      · exact fun i hi => absurd hi (Nat.not_lt_zero i)
  | succ n ih =>
    cases fuel with
    | zero => cases h
    | succ fuel =>
      have hhi : recNo ≤ st.image.aflLast := le_iff_toNat_le.mpr (by omega)
      obtain ⟨hne, data, hdata, hlen⟩ := record_of_readFrom extendedOk hs hlo hhi (by omega) h
      have hpos : recNo.toNat ≠ 0 := fun h0 => hne (UInt8.toNat_inj.mp h0)
      have hnext := toNat_next hdata
      have hlo' : st.image.aflFirst ≤ recNo + 1 := by
        rw [UInt8.le_iff_toNat_le] at hlo ⊢
        omega
      rw [readFrom_pass extendedOk hs hlo hhi (by omega) hne hdata hlen] at h
      split at h
      · next hfit =>
        have hlength : (rs ++ [data]).length = rs.length + 1 := by simp
        rw [← hlength] at h
        obtain ⟨hhead, got, hholds, hcount, hle, hall⟩ := ih (rs ++ [data]) hlo' (by omega)
          (by omega) (hout.storeRecord (by omega) hfit.2) h
        have hstore := sameHead_storeRecord out rs.length data
        refine ⟨⟨hhead.1.trans hstore.1, hhead.2.trans hstore.2, hhead.3.trans hstore.3,
          hhead.4.trans hstore.4⟩, data :: got, ?_, ?_, Nat.succ_le_succ hle, ?_⟩
        · rwa [List.append_assoc] at hholds
        · rw [List.length_cons]
          omega
        · intro hfull
          obtain ⟨-, hslots⟩ := hall (Nat.succ.inj hfull)
          refine ⟨fun _ => hne, fun i hi => ?_⟩
          cases i with
          | zero => exact hdata
          | succ i =>
            rw [List.getElem?_cons_succ, ← hslots i (by omega)]
            congr 1
            omega
      · -- the data was not stored, so there is a record less than passes
        obtain ⟨hhead, got, hholds, hcount, hle, -⟩ := ih rs hlo' (by omega) (by omega) hout h
        exact ⟨hhead, got, hholds, hcount, by omega, fun hfull => by omega⟩

theorem readFrom_complete (st : State cfg) {n : ℕ} (idx : ℕ)
    (hs : st.session = .gpoDone) (hlo : st.image.aflFirst ≤ recNo)
    (hn : recNo.toNat + n = st.image.aflLast.toNat + 1) (hroom : idx + n ≤ cfg.maxRecords)
    (hne : recNo ≠ 0)
    (hdata : ∀ i < n, ∃ data, st.image.record? (recNo.toNat - 1 + i) = some data ∧
      0 < data.length ∧ data.length ≤ cfg.recordSize) (hfuel : n < fuel) :
    ∃ out', readFrom extendedOk fuel recNo idx out st = some ((out', .ok ()), st) ∧
      out'.recordCount.toNat = idx + n := by
  induction n generalizing fuel recNo idx out with
  | zero =>
    have hmax := cfg.maxRecords_range.2
    obtain ⟨fuel, rfl⟩ : ∃ k, fuel = k + 1 := ⟨fuel - 1, by omega⟩
    refine ⟨_, readFrom_done extendedOk (lt_iff_toNat_lt.mpr (by omega)), ?_⟩
    rw [toNat_ofNat']
    omega
  | succ n ih =>
    obtain ⟨fuel, rfl⟩ : ∃ k, fuel = k + 1 := ⟨fuel - 1, by omega⟩
    have hpos : recNo.toNat ≠ 0 := fun h0 => hne (UInt8.toNat_inj.mp h0)
    obtain ⟨data, hrec, hfit⟩ := hdata 0 (Nat.succ_pos n)
    have hnext := toNat_next hrec
    have hsize := cfg.recordSize_range.2
    rw [readFrom_pass extendedOk hs hlo (le_iff_toNat_le.mpr (by omega))
      (by omega) hne hrec (by omega), if_pos hfit, show idx + (n + 1) = idx + 1 + n by omega]
    apply ih
    · rw [le_iff_toNat_le] at hlo ⊢
      omega
    · omega
    · omega
    · intro hzero
      rw [hzero] at hnext
      exact absurd hnext.symm (Nat.succ_ne_zero _)
    · intro i hi
      obtain ⟨d, hd⟩ := hdata (i + 1) (by omega)
      refine ⟨d, ?_⟩
      rwa [hnext, show recNo.toNat + 1 - 1 + i = recNo.toNat - 1 + (i + 1) by omega]
    · omega

end Loop

structure Image.Readable (image : Image cfg) : Prop where
  aidLen : 5 ≤ image.appAidLen.toNat ∧ image.appAidLen.toNat ≤ 16
  range : image.aflLast.toNat + 1 = image.aflFirst.toNat + image.recordCount.toNat
  count : image.recordCount.toNat ≤ cfg.maxRecords
  recordLen : ∀ i < image.recordCount.toNat, ∃ len, image.recordLen.get? i = some len ∧
    1 ≤ len.toNat ∧ len.toNat ≤ cfg.recordSize

structure Image.SameCard (image copy : Image cfg) : Prop where
  aidLen : copy.appAidLen = image.appAidLen
  aid : copy.aid = image.aid
  aip : copy.aip = image.aip
  afl : copy.afl = image.afl
  recordCount : copy.recordCount = image.recordCount
  record : ∀ i < image.recordCount.toNat, copy.record? i = image.record? i

def Image.RecordsInPlace (image : Image cfg) : Prop :=
  1 ≤ image.aflFirst ∧
    ∀ i < image.recordCount.toNat, image.record? (image.aflFirst.toNat - 1 + i) = image.record? i

variable {image : Image cfg}

theorem Image.recordsInPlace_of_first (h : image.aflFirst = 1) : image.RecordsInPlace := by
  refine ⟨h ▸ UInt8.le_refl 1, fun i _ => ?_⟩
  rw [h, show (1 : UInt8).toNat - 1 + i = i by simp]

theorem Image.Readable.record (h : image.Readable) {i : ℕ} (hi : i < image.recordCount.toNat) :
    ∃ data, image.record? i = some data ∧ 0 < data.length ∧ data.length ≤ cfg.recordSize := by
  obtain ⟨len, hlen, hpos, hle⟩ := h.recordLen i hi
  have hread := CArray.read?_of_le image.recordData (slot_end_le (CArray.lt_of_get? hlen) hle)
  have hlength := CArray.length_slice image.recordData (slot_end_le (CArray.lt_of_get? hlen) hle)
  exact ⟨_, (image.record?_eq_some_iff i _).mpr ⟨len, hlen, hread⟩, by omega, by omega⟩

theorem aid_readHead (h : image.appAidLen.toNat ≤ appAidMaxBytes) :
    (readHead image).appAidLen = image.appAidLen ∧ (readHead image).aid = image.aid := by
  have hlen : image.aid.length = image.appAidLen.toNat := CArray.length_slice _ (by simpa using h)
  have hbyte : UInt8.ofNat image.aid.length = image.appAidLen := by
    rw [hlen, UInt8.ofNat_toNat]
  refine ⟨hbyte, ?_⟩
  show CArray.slice (CArray.write _ 0 image.aid) 0 (UInt8.ofNat image.aid.length).toNat = image.aid
  rw [hbyte, ← hlen]
  exact CArray.slice_write_self _ (by rw [hlen]; simpa using h)

theorem fresh_of_init (hcard : image.Readable)
    (hinit : listenerInit x (some image) = some st) : st.image = image ∧ st.Fresh := by
  obtain ⟨wire, hwire, rfl⟩ := Option.map_eq_some_iff.mp hinit
  refine ⟨rfl, hwire, ?_, hcard.aidLen.2⟩
  exact Nat.lt_of_lt_of_le (by decide) hcard.aidLen.1

theorem pollerRead_sound {st' : State cfg} (hfresh : st.Fresh) (hcard : st.image.Readable)
    (hne : st.image.aid ≠ ppseAid) {extendedOk : Bool} {fuel : ℕ} {copy : Image cfg}
    (h : pollerRead (cardSession extendedOk) fuel st = some ((copy, .ok ()), st')) :
    (readHead st.image).SameHead copy ∧ ∃ got, copy.Holds got ∧
      copy.recordCount.toNat = got.length ∧
      (got.length = st.image.recordCount.toNat →
        (0 < st.image.recordCount.toNat → st.image.aflFirst ≠ 0) ∧
        ∀ i < st.image.recordCount.toNat,
          st.image.record? (st.image.aflFirst.toNat - 1 + i) = got[i]?) := by
  rw [pollerRead_app hfresh hne] at h
  obtain ⟨hhead, got, hgot, hcount, -, hfull⟩ :=
    readFrom_sound extendedOk { st with session := .gpoDone } st.image.recordCount.toNat
      [] rfl (UInt8.le_refl _) hcard.range.symm (by simpa using hcard.count)
      (fun i r hr => by cases hr) h
  rw [List.length_nil, Nat.zero_add] at hcount
  exact ⟨hhead, got, hgot, hcount, hfull⟩

/-- An emulated card is read back with its identifier, AIP, AFL and records if and only if the
identifier is not the one of the PPSE and the slots from the first record number of the AFL less one on
hold the records in order, as they do when that number is 1. -/
theorem pollerRead_readBack_iff (image : Image cfg) (hcard : image.Readable) (x st : State cfg)
    (hinit : listenerInit x (some image) = some st) (extendedOk : Bool) {fuel : ℕ}
    (hfuel : cfg.maxRecords < fuel) :
    (∃ copy st', pollerRead (cardSession extendedOk) fuel st = some ((copy, .ok ()), st') ∧
      image.SameCard copy) ↔ image.aid ≠ ppseAid ∧ image.RecordsInPlace := by
  obtain ⟨rfl, hfresh⟩ := fresh_of_init hcard hinit
  have hrange := hcard.range
  have hcount := hcard.count
  constructor
  · rintro ⟨copy, st', hread, hsame⟩
    have hne : st.image.aid ≠ ppseAid := by
      intro hppse
      obtain ⟨out, st₁, hrefused⟩ := pollerRead_ppse hfresh hppse extendedOk fuel
      rw [hrefused] at hread
      cases hread
    obtain ⟨-, got, hgot, hlength, hfull⟩ := pollerRead_sound hfresh hcard hne hread
    -- the copy has as many records as the card, so every pass has stored one
    rw [hsame.recordCount] at hlength
    obtain ⟨hfirst, hslots⟩ := hfull hlength.symm
    refine ⟨hne, ?_, fun i hi => ?_⟩
    · rcases Nat.eq_zero_or_pos st.image.recordCount.toNat with h0 | h0
      · rw [le_iff_toNat_le, show (1 : UInt8).toNat = 1 from rfl]
        omega
      · have hpos : st.image.aflFirst.toNat ≠ 0 := fun hz => hfirst h0 (UInt8.toNat_inj.mp hz)
        rw [UInt8.le_iff_toNat_le, show (1 : UInt8).toNat = 1 from rfl]
        omega
    · have hr : got[i]? = some (got.get ⟨i, by omega⟩) := List.getElem?_eq_getElem (by omega)
      rw [hslots i hi, ← hsame.record i hi, hr, (hgot i _ hr).2]
  · rintro ⟨hne, hfirst, hslots⟩
    have hzero : st.image.aflFirst ≠ 0 := by
      intro hz
      rw [hz] at hfirst
      exact absurd hfirst (by decide)
    obtain ⟨copy, hloop, hlength⟩ := readFrom_complete extendedOk
      { st with session := .gpoDone } 0 rfl (UInt8.le_refl _) hrange.symm
      (by simpa using hcount) hzero
      (fun i hi => by
        rw [hslots i hi]
        exact hcard.record hi) (Nat.lt_of_le_of_lt hcount hfuel)
    rw [readFrom, ← pollerRead_app hfresh hne] at hloop
    rw [Nat.zero_add] at hlength
    obtain ⟨hhead, got, hgot, hcopied, hfull⟩ := pollerRead_sound hfresh hcard hne hloop
    obtain ⟨-, hread⟩ := hfull (by rw [← hcopied, hlength])
    obtain ⟨haidLen, haid⟩ := aid_readHead hfresh.aidLen_le
    refine ⟨copy, _, hloop, hhead.appAidLen.trans haidLen, ?_, hhead.aip, hhead.afl,
      UInt8.toNat_inj.mp hlength, fun i hi => ?_⟩
    · rw [← haid, Image.aid, Image.aid, hhead.appAid, hhead.appAidLen]
    · have hr : got[i]? = some (got.get ⟨i, by omega⟩) := List.getElem?_eq_getElem (by omega)
      rw [← hslots i hi, hread i hi, hr, (hgot i _ hr).2]

def recordCard (recNo : UInt8) : Image Config.default :=
  { (loadDefault : Image Config.default) with afl := .ofList 4 0 [0x08, recNo, recNo, 0x00] }

theorem recordCard_readable (recNo : UInt8) : (recordCard recNo).Readable := by
  have hdefault : let image : Image Config.default := loadDefault
      (5 ≤ image.appAidLen.toNat ∧ image.appAidLen.toNat ≤ 16) ∧ image.recordCount.toNat = 1 ∧
        image.recordLen.get? 0 = some 30 := by decide +kernel
  obtain ⟨haid, hcount, hlen⟩ := hdefault
  replace hcount : (recordCard recNo).recordCount.toNat = 1 := hcount
  refine ⟨haid, ?_, ?_, fun i hi => ?_⟩
  · rw [hcount]
    rfl
  · rw [hcount]
    decide
  · obtain rfl : i = 0 := by omega
    exact ⟨30, hlen, by decide, by decide⟩

theorem pollerRead_default_card : ∃ st, listenerInit State.boot (some (recordCard 1)) = some st ∧
      ∃ copy st', pollerRead (cardSession true) 3 st = some ((copy, .ok ()), st') ∧
        (recordCard 1).SameCard copy := by
  obtain ⟨st, hst⟩ := Option.isSome_iff_exists.mp
    (show (listenerInit State.boot (some (recordCard 1))).isSome by decide +kernel)
  refine ⟨st, hst, (pollerRead_readBack_iff (recordCard 1) (recordCard_readable 1) _ st hst
    true (by decide)).mpr ⟨?_, Image.recordsInPlace_of_first rfl⟩⟩
  decide +kernel

/-- A card with one record, at number 2. Its listener answers READ RECORD 2 from the empty second
slot, and the poller returns 0 with a copy without records. -/
theorem second_record_read_empty : (recordCard 2).Readable ∧ (recordCard 2).recordCount = 1 ∧
      ∃ st, listenerInit State.boot (some (recordCard 2)) = some st ∧
        ∃ copy st', pollerRead (cardSession true) 3 st = some ((copy, .ok ()), st') ∧
          copy.recordCount = 0 ∧ ¬ (recordCard 2).SameCard copy := by
  have hcount : (recordCard 2).recordCount = 1 := by decide +kernel
  obtain ⟨st, hst⟩ := Option.isSome_iff_exists.mp
    (show (listenerInit State.boot (some (recordCard 2))).isSome by decide +kernel)
  have hrun : ((listenerInit State.boot (some (recordCard 2))).bind fun st =>
      (pollerRead (cardSession true) 3 st).map fun r =>
        ((r.1.1 : Image Config.default).recordCount, r.1.2.isOk)) = some (0, true) := by
    decide +kernel
  rw [hst] at hrun
  obtain ⟨⟨⟨copy, ret⟩, st'⟩, hread, hr⟩ := Option.map_eq_some_iff.mp hrun
  obtain ⟨hzero, hok⟩ := Prod.mk.inj hr
  cases ret with
  | error e => cases hok
  | ok u =>
    refine ⟨recordCard_readable 2, hcount, st, hst, copy, st', hread, hzero, fun hsame => ?_⟩
    have hboth := hzero.symm.trans (hsame.recordCount.trans hcount)
    exact absurd hboth (by decide)

end NfcStack.Emv
