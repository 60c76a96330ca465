import NfcStack.Protocols.Emv.Bounds
import NfcStack.Protocols.Emv.Listener

/-!
# Which records an EMV session reads

READ RECORD compares the record number with the range in the AFL and with nothing else. The reads
stay inside the records exactly for the images of `Image.AflInRange` (`readRecord_confined_iff`).
-/

namespace NfcStack.Emv

variable {cfg : Config} {image image' : Image cfg}

theorem deserializeRecords_records {n i : ℕ} {rest rest' : Bytes}
    (h : (deserializeRecords n i image rest).2 = some (image', .ok rest'))
    (hi : ∀ j < i, ∃ data, image.record? j = some data) :
    image'.recordCount = image.recordCount ∧ ∀ j < i + n, ∃ data, image'.record? j = some data := by
  induction n generalizing i image rest with
  | zero =>
    cases h
    exact ⟨rfl, hi⟩
  | succ n ih =>
    cases rest with
    | nil => cases h
    | cons len rest =>
      simp only [deserializeRecords] at h
      split at h
      · next hslot =>
        split at h
        · cases h
        · next hlen =>
          split at h
          · cases h
          · next recordData hw =>
            have hend : i * cfg.recordSize + len.toNat ≤ cfg.maxRecords * cfg.recordSize := by
              by_contra hlt
              rw [(image.recordData.write?_eq_none_iff _ _).mpr
                (by rw [List.length_take]; omega)] at hw
              cases hw
            obtain ⟨h1, h2⟩ := ih h (by
              intro j hj
              rcases Nat.lt_succ_iff_lt_or_eq.mp hj with hj | rfl
              · -- an earlier record keeps its length
                obtain ⟨data, hdata⟩ := hi j hj
                have hget := CArray.get?_set_ne image.recordLen (Nat.ne_of_gt hj) len
                unfold Image.record? at hdata ⊢
                simp only [hget]
                split at hdata
                · cases hdata
                · exact ⟨_, CArray.read?_of_le _
                    ((CArray.read?_eq_some_iff _ _ _ _).mp hdata).1⟩
              · unfold Image.record?
                simp only [CArray.get?_set_self image.recordLen hslot len]
                exact ⟨_, CArray.read?_of_le _ hend⟩)
            exact ⟨h1, fun j hj => h2 j (by omega)⟩
      · cases h

variable {bytes : Bytes}

theorem deserialize_accepted (h : (deserialize image bytes).2 = some (image', .ok ())) :
    0 < image'.appAidLen.toNat ∧ image'.appAidLen.toNat ≤ appAidMaxBytes ∧
      ∀ i < image'.recordCount.toNat, ∃ data, image'.record? i = some data := by
  unfold deserialize at h
  split at h
  · cases h
  split at h
  · cases h
  split at h
  · cases h
  obtain ⟨⟨im, r⟩, hr, hfin⟩ := Option.map_eq_some_iff.mp h
  cases r with
  | error e => cases hfin
  | ok rest =>
    simp only [finishDeserialize, rebuildCaches, Prod.mk.injEq] at hfin
    obtain ⟨rfl, hfin⟩ := hfin
    obtain ⟨hcount, hrec⟩ := deserializeRecords_records hr (by simp)
    split at hfin
    · split at hfin
      · cases hfin
      · next haid =>
        push Not at haid
        have hpos : im.appAidLen.toNat ≠ 0 := fun h0 => haid.1 (UInt8.toNat_inj.mp h0)
        exact ⟨by omega, by omega, fun i hi => hrec i (by rw [hcount] at hi; simpa using hi)⟩
    · cases hfin

variable {st st' : State cfg}

theorem listenerDeserialize_accepted (h : listenerDeserialize st bytes = some (st', .ok ())) :
    (deserialize st.image bytes).2 = some (st'.image, .ok ()) ∧ st'.session = .idle := by
  unfold listenerDeserialize at h
  split at h
  · cases h
  · cases h
  · next image hd =>
    obtain ⟨wire, -, hw⟩ := Option.map_eq_some_iff.mp h
    cases hw
    exact ⟨hd, rfl⟩

def Image.aid (image : Image cfg) : Bytes := image.appAid.slice 0 image.appAidLen.toNat

def Image.AflInRange (image : Image cfg) : Prop :=
  image.aid = ppseAid ∨ image.aflLast < image.aflFirst ∨
    (1 ≤ image.aflFirst ∧ image.aflLast ≤ image.recordCount)

def ReadRecordConfined (st : State cfg) (e : ReaderEvent)
    (out : Option (State cfg × Option Bytes)) : Prop :=
  ∀ apdu, e = .apdu apdu → isReadRecord apdu →
    (∀ recNo, readRecordRequest st apdu = .ok recNo → 1 ≤ recNo ∧ recNo ≤ st.image.recordCount) ∧
    ∃ st' resp, out = some (st', some resp) ∧ ∀ data, resp = data ++ [0x90, 0x00] →
      ∃ i < st.image.recordCount.toNat, st.image.record? i = some data

def State.SessionOk (st : State cfg) : Prop :=
  st.session = .appSelected ∨ st.session = .gpoDone → st.image.aid ≠ ppseAid

variable {apdu : Apdu}

theorem isGpo_of_isReadRecord (h : isReadRecord apdu) : isGpo apdu = false := by
  simp only [isReadRecord, isGpo, Bool.and_eq_true, beq_iff_eq] at h ⊢
  simp [h.1]

variable {sw : Bytes}

theorem send_error_ne_ok {data : Bytes} (hlen : sw.length = 2) (hsw : sw ≠ [0x90, 0x00]) :
    send [] sw ≠ data ++ [0x90, 0x00] := by
  intro h
  have hs : send [] sw = sw := by simp [send, maxResponseLen]
  rw [hs] at h
  have hd : data = [] := by
    have := congrArg List.length h
    simp only [List.length_append, List.length_cons, List.length_nil] at this
    exact List.length_eq_zero_iff.mp (by omega)
  exact hsw (by rw [h, hd]; rfl)

theorem readRecordRequest_error
    (h : readRecordRequest st apdu = .error sw) : sw.length = 2 ∧ sw ≠ [0x90, 0x00] := by
  unfold readRecordRequest at h
  split at h
  · cases h
    decide
  · split at h
    · cases h
      decide
    · split at h
      · cases h
        decide
      · cases h

theorem readRecordRequest_ok {recNo : UInt8} (h : readRecordRequest st apdu = .ok recNo) :
    st.session = .gpoDone ∧ st.image.aflFirst ≤ recNo ∧ recNo ≤ st.image.aflLast := by
  unfold readRecordRequest at h
  split at h
  · cases h
  · next hs =>
    split at h
    · cases h
    · split at h
      · cases h
      · next hr =>
        cases h
        simp only [not_or, UInt8.not_lt] at hr
        exact ⟨not_not.mp hs, hr.2⟩

theorem readRecordConfined_of_inRange (hs : st.SessionOk) (hafl : st.image.AflInRange)
    (hrec : ∀ i < st.image.recordCount.toNat, ∃ data, st.image.record? i = some data)
    (e : ReaderEvent) : ReadRecordConfined st e (reader.step st e) := by
  rintro apdu rfl hread
  have hrange : ∀ recNo, readRecordRequest st apdu = .ok recNo →
      1 ≤ recNo ∧ recNo ≤ st.image.recordCount := by
    intro recNo hr
    obtain ⟨hsess, h1, h2⟩ := readRecordRequest_ok hr
    rcases hafl with hppse | hempty | ⟨hlo, hhi⟩
    · exact absurd hppse (hs (.inr hsess))
    · exact absurd (UInt8.le_trans h1 h2) (UInt8.not_le.mpr hempty)
    · exact ⟨UInt8.le_trans hlo h1, UInt8.le_trans h2 hhi⟩
  refine ⟨hrange, ?_⟩
  simp only [reader, onApdu, isGpo_of_isReadRecord hread, hread, if_true, Bool.false_eq_true,
    if_false]
  cases hr : readRecordRequest st apdu with
  | error sw =>
    obtain ⟨hlen, hsw⟩ := readRecordRequest_error hr
    exact ⟨st, _, rfl, fun data hd => absurd hd (send_error_ne_ok hlen hsw)⟩
  | ok recNo =>
    obtain ⟨hlo, hhi⟩ := hrange recNo hr
    rw [UInt8.le_iff_toNat_le] at hlo hhi
    have hone : (1 : UInt8).toNat = 1 := rfl
    have hne : recNo ≠ 0 := by
      rintro rfl
      exact absurd hlo (by decide)
    obtain ⟨data, hdata⟩ := hrec (recNo.toNat - 1) (by omega)
    simp only [hne, if_false, hdata, Option.map_some]
    refine ⟨st, _, rfl, fun d hd => ⟨recNo.toNat - 1, by omega, ?_⟩⟩
    unfold send at hd
    split at hd
    · exact absurd hd (@send_error_ne_ok StatusWord.conditionsNotSat.bytes _ rfl (by decide))
    · rw [hdata, List.append_cancel_right hd]

variable {resp : Bytes}

theorem onSelect_cases {aid : Bytes} (h : onSelect st aid = some (st', resp)) :
    ∃ session, st' = { st with session } ∧ session ≠ .gpoDone ∧
      (session = .appSelected → aid = st.image.aid ∧ aid ≠ ppseAid) := by
  unfold onSelect at h
  split at h
  · cases h
    exact ⟨_, rfl, by decide, fun hs => by cases hs⟩
  next hppse =>
  split at h
  · next hlen =>
    split at h
    · cases h
    next appAid hread =>
    split at h
    · next haid =>
      cases h
      rw [CArray.read?_eq_some_iff] at hread
      exact ⟨_, rfl, by decide, fun _ => ⟨by rw [haid, hread.2, hlen]; rfl, hppse⟩⟩
    · cases h
      exact ⟨_, rfl, by decide, fun hs => by cases hs⟩
  · cases h
    exact ⟨_, rfl, by decide, fun hs => by cases hs⟩

theorem onApdu_cases (h : onApdu st apdu = some (st', resp)) :
    st' = st ∨ (st' = { st with session := .gpoDone } ∧ isGpo apdu ∧
      st.session = .appSelected ∧ resp = send st.wire.gpo StatusWord.ok.bytes) := by
  unfold onApdu at h
  split at h
  · next hgpo =>
    split at h
    · cases h
      exact .inl rfl
    · next hs =>
      cases h
      exact .inr ⟨rfl, hgpo, not_not.mp hs, rfl⟩
  split at h
  · split at h
    · cases h
      exact .inl rfl
    split at h
    · cases h
    · obtain ⟨d, -, hd⟩ := Option.map_eq_some_iff.mp h
      cases hd
      exact .inl rfl
  · cases h
    exact .inl rfl

theorem reader_step_image {e : ReaderEvent} {o : Option Bytes}
    (h : reader.step st e = some (st', o)) :
    st'.image = st.image ∧ st'.wire = st.wire ∧ (st.SessionOk → st'.SessionOk) := by
  cases e with
  | select aid =>
    obtain ⟨⟨st'', r⟩, hr, hp⟩ := Option.map_eq_some_iff.mp h
    cases hp
    obtain ⟨session, rfl, hgpo, happ⟩ := onSelect_cases hr
    refine ⟨rfl, rfl, fun _ hs heq => ?_⟩
    obtain ⟨haid, hppse⟩ := happ (hs.resolve_right hgpo)
    exact hppse (haid.trans heq)
  | apdu a =>
    obtain ⟨⟨st'', r⟩, hr, hp⟩ := Option.map_eq_some_iff.mp h
    cases hp
    obtain rfl | ⟨rfl, -, hs, -⟩ := onApdu_cases hr
    · exact ⟨rfl, rfl, id⟩
    · -- GET PROCESSING OPTIONS needs the application selected
      exact ⟨rfl, rfl, fun hok _ => hok (.inl hs)⟩
  | deselect | fieldOff =>
    cases h
    exact ⟨rfl, rfl, fun _ hs => by simp [onDeselect, onFieldOff] at hs⟩

def readRecordTrace (image : Image cfg) (recNo : UInt8) : List ReaderEvent :=
  [.select image.aid, .apdu ⟨0x80, 0xA8, 0, 0, [], 0, false, false⟩,
    .apdu ⟨0x00, 0xB2, recNo, (image.aflSfi &&& 0xF8) ||| 0x04, [], 0, false, false⟩]

theorem sfi_of_afl (x : UInt8) :
    ((x &&& 0xF8) ||| 0x04) &&& (0x07 : UInt8) = 0x04 ∧
      (((x &&& 0xF8) ||| 0x04) >>> 3) &&& (0x1F : UInt8) = x >>> 3 := by
  obtain ⟨⟨x⟩⟩ := x
  revert x
  decide +kernel

theorem range_of_always (st : State cfg) (recNo : UInt8) (haid : st.image.aid ≠ ppseAid)
    (hlen : st.image.appAidLen.toNat ≤ appAidMaxBytes)
    (hlo : st.image.aflFirst ≤ recNo) (hhi : recNo ≤ st.image.aflLast)
    (h : reader.Always ReadRecordConfined st (readRecordTrace st.image recNo)) :
    1 ≤ recNo ∧ recNo ≤ st.image.recordCount := by
  have hlength : st.image.aid.length = st.image.appAidLen.toNat :=
    CArray.length_slice _ (by omega)
  have hsel : reader.step st (.select st.image.aid) =
      some ({ st with session := .appSelected }, some (send st.wire.appFci [0x90, 0x00])) := by
    have hread : st.image.appAid.read? 0 st.image.appAidLen.toNat = some st.image.aid :=
      CArray.read?_of_le _ (by omega)
    simp only [reader, onSelect, haid, if_false, hlength, hread, if_true]
    rfl
  have hlast := (((h.2 _ _ hsel).2 _ _ rfl).1 _ rfl rfl).1 recNo
  refine hlast ?_
  obtain ⟨h4, hsfi⟩ := sfi_of_afl (st.image.aflSfi)
  simp only [readRecordRequest, h4, hsfi, UInt8.not_lt.mpr hlo, UInt8.not_lt.mpr hhi, ne_eq,
    not_true_eq_false, or_self, if_false]

theorem readRecord_confined_iff (st st' : State cfg) (bytes : Bytes)
    (hload : listenerDeserialize st bytes = some (st', .ok ())) :
    (∀ es, reader.Always ReadRecordConfined st' es) ↔ st'.image.AflInRange := by
  obtain ⟨hd, hidle⟩ := listenerDeserialize_accepted hload
  obtain ⟨-, haidLen, hrec⟩ := deserialize_accepted hd
  constructor
  · intro h
    unfold Image.AflInRange
    by_contra hn
    simp only [not_or, UInt8.not_lt] at hn
    obtain ⟨haid, hle, hout⟩ := hn
    -- the first and the last record number of the range would both have to be records
    have h1 := range_of_always _ _ haid haidLen (UInt8.le_refl _) hle (h _)
    have h2 := range_of_always _ _ haid haidLen hle (UInt8.le_refl _) (h _)
    exact hout ⟨h1.1, h2.2⟩
  · intro hafl es
    refine Machine.Always.imp reader
      (I := fun t => t.image = st'.image ∧ t.SessionOk) (Q := fun _ _ _ => True)
      (fun t e ht _ => ?_) (fun t e t' o ht _ hstep => ?_)
      ⟨rfl, fun hs => by simp [hidle] at hs⟩ (Machine.Always.trivial reader _ _)
    · obtain ⟨himg, hs⟩ := ht
      exact readRecordConfined_of_inRange hs (himg ▸ hafl) (himg ▸ hrec) e
    · obtain ⟨himg, -, hs⟩ := reader_step_image hstep
      exact ⟨himg.trans ht.1, hs ht.2⟩

def oneRecordCard (first last : UInt8) : Bytes :=
  [formatVersion] ++ List.replicate 60 0 ++ [0x08, first, last, 0x00] ++ [1, 0xA0] ++
    List.replicate 15 0 ++ [1, 2, 0x70, 0x00]

def oneRecordState (first last : UInt8) : State .default :=
  ((listenerDeserialize .boot (oneRecordCard first last)).getD (.boot, .ok ())).1

theorem readRecord_confined_one_record :
    listenerDeserialize .boot (oneRecordCard 1 1) = some (oneRecordState 1 1, .ok ()) ∧
      ∀ es, reader.Always ReadRecordConfined (oneRecordState 1 1) es := by
  have hload : listenerDeserialize .boot (oneRecordCard 1 1) =
      some (oneRecordState 1 1, .ok ()) := by decide +kernel
  exact ⟨hload, (readRecord_confined_iff _ _ _ hload).mpr
    (.inr (.inr ⟨by decide +kernel, by decide +kernel⟩))⟩

theorem second_record_is_read :
    listenerDeserialize .boot (oneRecordCard 1 2) = some (oneRecordState 1 2, .ok ()) ∧
      ¬ ∀ es, reader.Always ReadRecordConfined (oneRecordState 1 2) es := by
  refine ⟨by decide +kernel, fun h => ?_⟩
  have := range_of_always (oneRecordState 1 2) 2 (by decide +kernel)
    (by decide +kernel) (by decide +kernel) (by decide +kernel) (h _)
  revert this
  decide +kernel

end NfcStack.Emv
