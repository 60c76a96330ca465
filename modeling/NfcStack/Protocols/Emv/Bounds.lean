import NfcStack.Protocols.Emv.Model

/-!
# Record bounds of a stored EMV card

Neither the record count nor the record lengths of a stored card are compared with the sizes of the
arrays they fill.
-/

namespace NfcStack.Emv

open List CArray

variable {cfg : Config}

def recordsFit (cfg : Config) : (n i : ℕ) → Bytes → Bool
  | 0, _, _ => true
  | _ + 1, _, [] => true
  | n + 1, i, len :: rest =>
    i < cfg.maxRecords && (rest.length < len.toNat ||
      (len.toNat ≤ cfg.recordSize && recordsFit cfg n (i + 1) (rest.drop len.toNat)))

def recordsInRange (cfg : Config) (bytes : Bytes) : Bool :=
  bytes.length < 84 || byteAt bytes 0 != formatVersion ||
    appAidMaxBytes < (byteAt bytes 65).toNat ||
    recordsFit cfg (byteAt bytes 82).toNat 0 (bytes.drop recordsOffset)

structure Image.InBounds (image : Image cfg) : Prop where
  recordCount : image.recordCount.toNat ≤ cfg.maxRecords
  recordLen : ∀ len ∈ image.recordLen.toList, len.toNat ≤ cfg.recordSize

structure DeserializeSafe (image : Image cfg) (bytes : Bytes) : Prop where
  writes : ∀ w ∈ (deserialize image bytes).1, w.slot < cfg.maxRecords ∧ w.size ≤ cfg.recordSize
  outcome : ∃ image' ret, (deserialize image bytes).2 = some (image', ret) ∧
    (ret = .ok () → image'.InBounds)

theorem slot_end_le {i len : ℕ} (hi : i < cfg.maxRecords) (hlen : len ≤ cfg.recordSize) :
    i * cfg.recordSize + len ≤ cfg.maxRecords * cfg.recordSize := by
  have := Nat.mul_le_mul_right cfg.recordSize (Nat.succ_le_of_lt hi)
  rw [Nat.succ_mul] at this
  omega

theorem Image.record?_eq_some_iff (image : Image cfg) (i : ℕ) (r : Bytes) :
    image.record? i = some r ↔ ∃ len, image.recordLen.get? i = some len ∧
      image.recordData.read? (i * cfg.recordSize) len.toNat = some r := by
  unfold Image.record?
  cases image.recordLen.get? i with
  | none => simp
  | some len => simp

theorem Image.lt_of_record? {image : Image cfg} {i : ℕ} {r : Bytes}
    (h : image.record? i = some r) : i < cfg.maxRecords := by
  obtain ⟨len, hlen, -⟩ := (image.record?_eq_some_iff i r).mp h
  exact lt_of_get? hlen

def Image.Holds (image : Image cfg) (rs : List Bytes) : Prop :=
  ∀ i r, rs[i]? = some r → r.length ≤ cfg.recordSize ∧ image.record? i = some r

theorem toNat_length_of_le {r : Bytes} (h : r.length ≤ cfg.recordSize) :
    (UInt8.ofNat r.length).toNat = r.length := by
  have := cfg.recordSize_range.2
  rw [UInt8.toNat_ofNat']
  omega

theorem Image.Holds.write {out : Image cfg} {rs : List Bytes} (h : out.Holds rs) {r : Bytes}
    (hslot : rs.length < cfg.maxRecords) (hsize : r.length ≤ cfg.recordSize) :
    Image.Holds { out with
      recordLen := out.recordLen.set rs.length (UInt8.ofNat r.length)
      recordData := out.recordData.write (rs.length * cfg.recordSize) r } (rs ++ [r]) := by
  have hend : rs.length * cfg.recordSize + r.length ≤ cfg.maxRecords * cfg.recordSize :=
    slot_end_le hslot hsize
  intro i r' hr
  rcases Nat.lt_or_ge i rs.length with hi | hi
  · -- an earlier record lies in a slot before the one written
    rw [getElem?_append_left hi] at hr
    obtain ⟨hfit, hrec⟩ := h i r' hr
    obtain ⟨len, hlen, hread⟩ := (out.record?_eq_some_iff i r').mp hrec
    obtain ⟨hin, hslice⟩ := (read?_eq_some_iff _ _ _ _).mp hread
    have hlength : r'.length = len.toNat := by rw [hslice, length_slice _ hin]
    refine ⟨hfit, (Image.record?_eq_some_iff _ _ _).mpr ⟨len, ?_, ?_⟩⟩
    · exact (get?_set_ne _ (Nat.ne_of_gt hi) _).trans hlen
    · have hrow : i * cfg.recordSize + cfg.recordSize ≤ rs.length * cfg.recordSize := by
        have := Nat.mul_le_mul_right cfg.recordSize (Nat.succ_le_of_lt hi)
        rwa [Nat.succ_mul] at this
      rw [read?_of_le _ hin, slice_write_of_disjoint _ hend (.inl (by omega)), hslice]
  · -- the record written
    obtain rfl : i = rs.length := by
      have := (List.getElem?_eq_some_iff.mp hr).1
      rw [List.length_append, List.length_singleton] at this
      omega
    obtain rfl : r = r' := by simpa using hr
    refine ⟨hsize, (Image.record?_eq_some_iff _ _ _).mpr
      ⟨UInt8.ofNat r.length, get?_set_self _ hslot _, ?_⟩⟩
    rw [toNat_length_of_le hsize, read?_of_le _ hend, slice_write_self _ hend]

theorem deserializeRecords_writes_iff (n i : ℕ) (image : Image cfg) (rest : Bytes) :
    (∀ w ∈ (deserializeRecords n i image rest).1,
      w.slot < cfg.maxRecords ∧ w.size ≤ cfg.recordSize) ↔ recordsFit cfg n i rest := by
  induction n generalizing i image rest with
  | zero => simp [deserializeRecords, recordsFit]
  | succ n ih =>
    cases rest with
    | nil => simp [deserializeRecords, recordsFit]
    | cons len rest =>
      simp only [deserializeRecords, recordsFit, Bool.and_eq_true, Bool.or_eq_true,
        decide_eq_true_eq]
      by_cases hi : i < cfg.maxRecords
      · by_cases hshort : rest.length < len.toNat
        · simp [hi, hshort]
        · simp only [hi, hshort, if_true, if_false, true_and, false_or]
          cases hw : image.recordData.write? (i * cfg.recordSize) (rest.take len.toNat) with
          | none =>
            -- the data run past the end of the array, so they do not fit into the slot
            rw [write?_eq_none_iff, length_take] at hw
            have hbig : ¬ len.toNat ≤ cfg.recordSize := fun hle => by
              have := slot_end_le hi hle
              omega
            simp [hbig]
          | some recordData =>
            simp only [mem_cons, forall_eq_or_imp, hi, Nat.zero_le, true_and, ih]
      · simp [hi]

theorem deserializeRecords_of_fit {n i : ℕ} (image : Image cfg) {rest : Bytes}
    (h : recordsFit cfg n i rest) (hi : i ≤ cfg.maxRecords)
    (hlen : ∀ len ∈ image.recordLen.toList, len.toNat ≤ cfg.recordSize) :
    ∃ image' r, (deserializeRecords n i image rest).2 = some (image', r) ∧
      image'.recordCount = image.recordCount ∧
      ∀ rest', r = .ok rest' → i + n ≤ cfg.maxRecords ∧
        ∀ len ∈ image'.recordLen.toList, len.toNat ≤ cfg.recordSize := by
  induction n generalizing i image rest with
  | zero => exact ⟨image, _, rfl, rfl, fun _ _ => ⟨hi, hlen⟩⟩
  | succ n ih =>
    cases rest with
    | nil => exact ⟨image, _, rfl, rfl, by simp⟩
    | cons len rest =>
      simp only [recordsFit, Bool.and_eq_true, Bool.or_eq_true, decide_eq_true_eq] at h
      obtain ⟨hslot, h⟩ := h
      simp only [deserializeRecords, hslot, if_true]
      by_cases hshort : rest.length < len.toNat
      · simp only [hshort, if_true]
        exact ⟨_, _, rfl, rfl, by simp⟩
      · obtain ⟨hfit, h⟩ := h.resolve_left hshort
        have hend := slot_end_le hslot hfit
        simp only [hshort, if_false]
        rw [write?_of_le _ (by rw [length_take]; omega)]
        obtain ⟨image', r, hr, hcount, hok⟩ := ih { image with
            recordLen := image.recordLen.set i len
            recordData := image.recordData.write (i * cfg.recordSize) (rest.take len.toNat) }
          h hslot (by
            intro l hl
            rcases mem_or_eq_of_mem_set hl with hl | rfl
            · exact hlen l hl
            · exact hfit)
        refine ⟨image', r, hr, hcount, fun rest' hr' => ?_⟩
        obtain ⟨h1, h2⟩ := hok rest' hr'
        exact ⟨by omega, h2⟩

theorem Image.recordLen_reset_le (len : UInt8)
    (h : len ∈ (Image.reset : Image cfg).recordLen.toList) : len.toNat ≤ cfg.recordSize := by
  rw [eq_of_mem_replicate h]
  exact Nat.zero_le _

/-- For every configuration, every image held before and every input: `deserialize` stays inside
the record arrays and accepts only images within their maxima if and only if the records of the
input, as far as they are read, have slots and fit into them. -/
theorem deserialize_safe_iff (image : Image cfg) (bytes : Bytes) :
    DeserializeSafe image bytes ↔ recordsInRange cfg bytes := by
  by_cases hshort : bytes.length < 84
  · have hd : deserialize image bytes = ([], some (image, .error .einval)) := by
      simp [deserialize, hshort]
    refine iff_of_true ⟨by simp [hd], image, .error .einval, by rw [hd], by simp⟩ ?_
    simp [recordsInRange, hshort]
  by_cases hver : byteAt bytes 0 ≠ formatVersion
  · have hd : deserialize image bytes = ([], some (.reset, .error .ebadmsg)) := by
      simp [deserialize, hshort, hver]
    refine iff_of_true ⟨by simp [hd], .reset, .error .ebadmsg, by rw [hd], by simp⟩ ?_
    simp [recordsInRange, hver]
  by_cases hlong : appAidMaxBytes < (byteAt bytes 65).toNat
  · have hd : deserialize image bytes = ([], some (readHeader bytes, .error .ebadmsg)) := by
      simp [deserialize, hshort, hver, hlong]
    refine iff_of_true ⟨by simp [hd], readHeader bytes, .error .ebadmsg, by rw [hd], by simp⟩ ?_
    simp [recordsInRange, hlong]
  -- the records are read
  have hrange : recordsInRange cfg bytes =
      recordsFit cfg (byteAt bytes 82).toNat 0 (bytes.drop recordsOffset) := by
    simp only [recordsInRange, hshort, hlong, not_not.mp hver, bne_self_eq_false, decide_false,
      Bool.or_false, Bool.false_or]
  have hd : deserialize image bytes =
      ((readRecords cfg bytes).1, (readRecords cfg bytes).2.map finishDeserialize) := by
    rw [deserialize, if_neg hshort, if_neg hver, if_neg hlong]
  have hwrites : (∀ w ∈ (deserialize image bytes).1,
      w.slot < cfg.maxRecords ∧ w.size ≤ cfg.recordSize) ↔
        recordsFit cfg (byteAt bytes 82).toNat 0 (bytes.drop recordsOffset) := by
    rw [hd]
    exact deserializeRecords_writes_iff _ _ _ _
  rw [hrange]
  constructor
  · exact fun h => hwrites.mp h.writes
  · intro h
    obtain ⟨image', r, hr, hcount, hok⟩ := deserializeRecords_of_fit
      { (readHeader bytes : Image cfg) with recordCount := byteAt bytes 82 } h
      (Nat.zero_le _) Image.recordLen_reset_le
    refine ⟨hwrites.mpr h, ?_⟩
    rw [hd, readRecords, hr]
    cases r with
    | error e => exact ⟨image', .error e, rfl, by simp⟩
    | ok rest =>
      refine ⟨image', _, rfl, fun _ => ?_⟩
      obtain ⟨h1, h2⟩ := hok rest rfl
      exact ⟨by rw [hcount]; simpa using h1, h2⟩

def threeRecords : Bytes :=
  [formatVersion] ++ List.replicate 64 0 ++ [1] ++ List.replicate 16 0xA0 ++
    [3, 1, 0x70, 1, 0x70, 1, 0x70]

theorem third_record_has_no_slot :
    (deserialize (Image.reset : Image .default) threeRecords).2 = none ∧
      ¬ DeserializeSafe (Image.reset : Image .default) threeRecords := by
  refine ⟨by decide +kernel, fun h => ?_⟩
  have hw := h.writes ⟨2, 0⟩ (by decide +kernel)
  exact absurd hw.1 (by decide)

end NfcStack.Emv
