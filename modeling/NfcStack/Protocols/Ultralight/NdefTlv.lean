import NfcStack.Protocols.Ultralight.Model

/-!
# The scan for the NDEF message

`ultralight_scan_ndef_tlv` as the loop over an offset that it is. It stays inside the buffer and finds the
value of the first NDEF TLV.
-/

namespace NfcStack.Ultralight

open List

inductive Scan
  | done (result : Except Errno (Option (ℕ × ℕ)))
  | outside
  | running
deriving DecidableEq

def Scan.load (data : Bytes) (i : ℕ) (k : UInt8 → Scan) : Scan :=
  match data[i]? with
  | none => .outside
  | some b => k b

def scanFrom (data : Bytes) : (fuel offset : ℕ) → Scan
  | 0, _ => .running
  | fuel + 1, offset =>
    let value (tag : UInt8) (offset len : ℕ) : Scan :=
      if data.length < offset + len then .done (.error .enodata)
      else if tag = 0x03 then .done (.ok (some (offset, len)))
      else scanFrom data fuel (offset + len)
    if offset < data.length then
      Scan.load data offset fun tag =>
        if tag = 0x00 then scanFrom data fuel (offset + 1)
        else if tag = 0xFE then .done (.ok none)
        else if data.length ≤ offset + 1 then .done (.error .enodata)
        else Scan.load data (offset + 1) fun len =>
          if len = 0xFF then
            if data.length ≤ offset + 3 then .done (.error .enodata)
            else Scan.load data (offset + 2) fun hi => Scan.load data (offset + 3) fun lo =>
              value tag (offset + 4) (be16 hi lo).toNat
          else value tag (offset + 2) len.toNat
    else .done (.ok none)

theorem Scan.load_of_lt {data : Bytes} {i : ℕ} (h : i < data.length) (k : UInt8 → Scan) :
    Scan.load data i k = k (byteAt data i) := by
  rw [Scan.load, getElem?_eq_getElem h, byteAt_eq (getElem?_eq_getElem h)]

def takeLength : Bytes → Option (ℕ × Bytes)
  | [] => none
  | 0xFF :: hi :: lo :: rest => some ((be16 hi lo).toNat, rest)
  | 0xFF :: _ => none
  | len :: rest => some (len.toNat, rest)

theorem takeLength_short {len : UInt8} (h : len ≠ 0xFF) (rest : Bytes) :
    takeLength (len :: rest) = some (len.toNat, rest) := by
  unfold takeLength
  split <;> simp_all

theorem takeLength_cut {rest : Bytes} (h : rest.length < 2) : takeLength (0xFF :: rest) = none := by
  match rest, h with
  | [], _ => rfl
  | [_], _ => rfl

def scanValue (fuel : ℕ) (tag : UInt8) (len : ℕ) (rest : Bytes) : Except Errno (Option Bytes) :=
  if rest.length < len then .error .enodata
  else if tag = 0x03 then .ok (some (rest.take len))
  else scanNdefTlv fuel (rest.drop len)

variable {tag : UInt8}

theorem scanNdefTlv_cons (fuel : ℕ) (h0 : tag ≠ 0x00) (hfe : tag ≠ 0xFE) (rest : Bytes) :
    scanNdefTlv (fuel + 1) (tag :: rest) =
      (takeLength rest).elim (.error .enodata) fun p => scanValue fuel tag p.1 p.2 := by
  refine (if_neg h0).trans ((if_neg hfe).trans ?_)
  show (match takeLength rest with
    | none => Except.error Errno.enodata
    | some (len, rest) => scanValue fuel tag len rest) = _
  cases takeLength rest <;> rfl

theorem scanNdefTlv_nil (fuel : ℕ) : scanNdefTlv fuel [] = .ok none := by
  cases fuel <;> rfl

variable (data : Bytes)

def messageAt (r : Except Errno (Option (ℕ × ℕ))) : Except Errno (Option Bytes) :=
  r.map (·.map fun p => (data.drop p.1).take p.2)

variable {fuel : ℕ}

theorem scanFrom_eq {offset : ℕ} (hle : offset ≤ data.length)
    (hfuel : data.length < fuel + offset) :
    ∃ r, scanFrom data fuel offset = .done r ∧
      messageAt data r = scanNdefTlv fuel (data.drop offset) := by
  induction fuel generalizing offset with
  | zero => omega
  | succ fuel ih =>
    by_cases hlt : offset < data.length
    swap
    · rw [drop_eq_nil_of_le (by omega), scanFrom, if_neg hlt]
      exact ⟨_, rfl, rfl⟩
    -- the value of a TLV, from the offset behind its length field on
    have hvalue : ∀ tag : UInt8, ∀ o len, offset < o → o ≤ data.length →
        ∃ r, (if data.length < o + len then Scan.done (.error .enodata)
          else if tag = 0x03 then .done (.ok (some (o, len)))
          else scanFrom data fuel (o + len)) = .done r ∧
          messageAt data r = scanValue fuel tag len (data.drop o) := by
      intro tag o len ho hole
      have hcut : (data.drop o).length < len ↔ data.length < o + len := by
        rw [length_drop]
        omega
      rw [scanValue]
      by_cases hlen : data.length < o + len
      · rw [if_pos hlen, if_pos (hcut.mpr hlen)]
        exact ⟨_, rfl, rfl⟩
      rw [if_neg hlen, if_neg (hcut.not.mpr hlen)]
      by_cases h3 : tag = 0x03
      · rw [if_pos h3, if_pos h3]
        exact ⟨_, rfl, rfl⟩
      · rw [if_neg h3, if_neg h3, drop_drop]
        exact ih (by omega) (by omega)
    rw [drop_eq_cons hlt, scanFrom, if_pos hlt, Scan.load_of_lt hlt]
    generalize byteAt data offset = tag
    by_cases h0 : tag = 0x00
    · rw [h0]
      exact ih (by omega) (by omega)
    by_cases hfe : tag = 0xFE
    · rw [hfe]
      exact ⟨_, rfl, rfl⟩
    rw [if_neg h0, if_neg hfe, scanNdefTlv_cons fuel h0 hfe]
    by_cases h1 : offset + 1 < data.length
    swap
    · rw [if_pos (by omega), drop_eq_nil_of_le (by omega)]
      exact ⟨_, rfl, rfl⟩
    rw [if_neg (by omega), Scan.load_of_lt h1, drop_eq_cons h1]
    generalize byteAt data (offset + 1) = len
    by_cases hlong : len = 0xFF
    swap
    · rw [if_neg hlong, takeLength_short hlong]
      exact hvalue tag _ _ (by omega) (by omega)
    rw [if_pos hlong, hlong]
    by_cases h3 : offset + 3 < data.length
    · rw [if_neg (by omega), Scan.load_of_lt (by omega), Scan.load_of_lt h3,
        drop_eq_cons (show offset + 1 + 1 < data.length by omega),
        drop_eq_cons (show offset + 1 + 1 + 1 < data.length by omega)]
      exact hvalue tag _ _ (by omega) (by omega)
    · rw [if_pos (by omega), takeLength_cut (by rw [length_drop]; omega)]
      exact ⟨_, rfl, rfl⟩

inductive IsTlv (tag : UInt8) (value : Bytes) : Bytes → Prop
  | short (len : UInt8) : len ≠ 0xFF → len.toNat = value.length →
    IsTlv tag value (tag :: len :: value)
  | long (hi lo : UInt8) : (be16 hi lo).toNat = value.length →
    IsTlv tag value (tag :: 0xFF :: hi :: lo :: value)

inductive Skipped : Bytes → Prop
  | nil : Skipped []
  | null {l : Bytes} : Skipped l → Skipped (0x00 :: l)
  | tlv {tag : UInt8} {value b l : Bytes} : tag ≠ 0x00 → tag ≠ 0x03 → tag ≠ 0xFE →
    IsTlv tag value b → Skipped l → Skipped (b ++ l)

variable {value : Bytes}

theorem IsTlv.scan {b : Bytes} (h : IsTlv tag value b) (h0 : tag ≠ 0x00)
    (hfe : tag ≠ 0xFE) (fuel : ℕ) (tail : Bytes) :
    scanNdefTlv (fuel + 1) (b ++ tail) =
      if tag = 0x03 then .ok (some value) else scanNdefTlv fuel tail := by
  have hvalue : scanValue fuel tag value.length (value ++ tail) =
      if tag = 0x03 then .ok (some value) else scanNdefTlv fuel tail := by
    rw [scanValue, if_neg (by simp), take_left, drop_left]
  cases h with
  | short len hlen hl =>
    rw [← hvalue, ← hl]
    refine (scanNdefTlv_cons fuel h0 hfe (len :: (value ++ tail))).trans ?_
    rw [takeLength_short hlen]
    rfl
  | long hi lo hl =>
    rw [← hvalue, ← hl]
    exact scanNdefTlv_cons fuel h0 hfe _

theorem IsTlv.length_pos {b : Bytes} (h : IsTlv tag value b) : 0 < b.length := by
  cases h <;> simp

variable {pre tail : Bytes}

theorem Skipped.scan (h : Skipped pre) {r : Except Errno (Option Bytes)}
    (htail : ∀ fuel, tail.length ≤ fuel → scanNdefTlv fuel tail = r)
    (hfuel : (pre ++ tail).length ≤ fuel) : scanNdefTlv fuel (pre ++ tail) = r := by
  induction h generalizing fuel with
  | nil => exact htail fuel hfuel
  | null _ ih =>
    simp only [cons_append, length_cons] at hfuel
    obtain ⟨fuel, rfl⟩ : ∃ k, fuel = k + 1 := ⟨fuel - 1, by omega⟩
    exact ih (by omega)
  | tlv h0 h3 hfe hb _ ih =>
    have hpos := hb.length_pos
    simp only [length_append] at hfuel
    obtain ⟨fuel, rfl⟩ : ∃ k, fuel = k + 1 := ⟨fuel - 1, by omega⟩
    rw [append_assoc, hb.scan h0 hfe, if_neg h3]
    exact ih (by simp only [length_append]; omega)

def ScanReturns (msg : Option Bytes) : Prop :=
  ∀ fuel, data.length < fuel → ∃ r, scanFrom data fuel 0 = .done r ∧ messageAt data r = .ok msg

theorem Skipped.scanReturns (h : Skipped pre) {msg : Option Bytes}
    (htail : ∀ fuel, tail.length ≤ fuel → scanNdefTlv fuel tail = .ok msg) :
    ScanReturns (pre ++ tail) msg := by
  intro fuel hfuel
  obtain ⟨r, hr, hmsg⟩ := scanFrom_eq (pre ++ tail) (Nat.zero_le _) hfuel
  exact ⟨r, hr, hmsg.trans (h.scan htail hfuel.le)⟩

theorem IsTlv.scan_ndef {b : Bytes} (h : IsTlv 0x03 value b) (tail : Bytes) (fuel : ℕ)
    (hfuel : (b ++ tail).length ≤ fuel) : scanNdefTlv fuel (b ++ tail) = .ok (some value) := by
  have hpos := h.length_pos
  rw [length_append] at hfuel
  obtain ⟨fuel, rfl⟩ : ∃ k, fuel = k + 1 := ⟨fuel - 1, by omega⟩
  rw [h.scan (by decide) (by decide), if_pos rfl]

/-- On every buffer the scan returns, and reads inside the buffer only. Behind any TLVs that it
skips, it finds the value of the first NDEF TLV, and none at a terminator or the end. -/
theorem scanFrom_correct :
    (∀ (data : Bytes) fuel, data.length < fuel → ∃ r, scanFrom data fuel 0 = .done r) ∧
    ∀ pre, Skipped pre →
      (∀ value b tail, IsTlv 0x03 value b → ScanReturns (pre ++ (b ++ tail)) (some value)) ∧
      (∀ tail, ScanReturns (pre ++ 0xFE :: tail) none) ∧ ScanReturns pre none := by
  refine ⟨?_, fun pre hpre => ⟨?_, ?_, ?_⟩⟩
  · intro data fuel hfuel
    obtain ⟨r, hr, -⟩ := scanFrom_eq data (Nat.zero_le _) hfuel
    exact ⟨r, hr⟩
  · intro value b tail hb
    exact hpre.scanReturns (hb.scan_ndef tail)
  · intro tail
    refine hpre.scanReturns fun fuel hfuel => ?_
    rw [length_cons] at hfuel
    obtain ⟨fuel, rfl⟩ : ∃ k, fuel = k + 1 := ⟨fuel - 1, by omega⟩
    rfl
  · rw [← append_nil pre]
    exact hpre.scanReturns fun fuel _ => scanNdefTlv_nil fuel

theorem scanFrom_correct_behind_lock_control :
    ScanReturns [0x01, 0x03, 0xA0, 0x10, 0x44, 0x00, 0x03, 0xFF, 0x00, 0x02, 0xD0, 0x00, 0xFE]
      (some [0xD0, 0x00]) := by
  have hlock : IsTlv 0x01 [0xA0, 0x10, 0x44] [0x01, 0x03, 0xA0, 0x10, 0x44] :=
    .short 0x03 (by decide) rfl
  have hskipped : Skipped [0x01, 0x03, 0xA0, 0x10, 0x44, 0x00] :=
    .tlv (by decide) (by decide) (by decide) hlock (.null .nil)
  exact (scanFrom_correct.2 _ hskipped).1 [0xD0, 0x00] _ [0xFE] (.long 0x00 0x02 rfl)

def FirstNdef (area value : Bytes) : Prop :=
  ∃ pre b tail, Skipped pre ∧ IsTlv 0x03 value b ∧ area = pre ++ (b ++ tail)

variable {area : Bytes}

theorem FirstNdef.append (h : FirstNdef area value) (more : Bytes) :
    FirstNdef (area ++ more) value := by
  obtain ⟨pre, b, tail, hpre, hb, rfl⟩ := h
  exact ⟨pre, b, tail ++ more, hpre, hb, by simp⟩

theorem takeLength_isTlv {rest rest' : Bytes} {len : ℕ}
    (h : takeLength rest = some (len, rest')) (hlen : len ≤ rest'.length) :
    ∃ b, IsTlv tag (rest'.take len) b ∧ tag :: rest = b ++ rest'.drop len := by
  have hvalue : (rest'.take len).length = len := length_take_of_le hlen
  unfold takeLength at h
  split at h
  · cases h
  · cases h
    refine ⟨_, .long _ _ hvalue.symm, ?_⟩
    simp
  · cases h
  · next len' rest'' hlong hcut =>
    cases h
    refine ⟨_, .short len' ?_ hvalue.symm, by simp⟩
    rintro rfl
    exact hcut rfl

theorem firstNdef_of_scan (h : scanNdefTlv fuel area = .ok (some value)) :
    FirstNdef area value := by
  induction fuel generalizing area with
  | zero => cases h
  | succ fuel ih =>
    match area with
    | tag :: rest =>
      by_cases h0 : tag = 0x00
      · subst h0
        obtain ⟨pre, b, tail, hpre, hb, rfl⟩ := @ih rest h
        exact ⟨0x00 :: pre, b, tail, .null hpre, hb, rfl⟩
      by_cases hfe : tag = 0xFE
      · subst hfe
        cases h
      rw [scanNdefTlv_cons fuel h0 hfe] at h
      cases hlen : takeLength rest with
      | none =>
        rw [hlen] at h
        cases h
      | some p =>
        rw [hlen] at h
        simp only [Option.elim_some, scanValue] at h
        split at h
        · cases h
        next hfit =>
        obtain ⟨b, hb, hsplit⟩ := @takeLength_isTlv tag _ _ _ hlen (Nat.not_lt.mp hfit)
        split at h
        · next h3 =>
          cases h
          subst h3
          exact ⟨[], b, _, .nil, hb, hsplit⟩
        · next h3 =>
          obtain ⟨pre, b', tail, hpre, hb', hrest⟩ := ih h
          refine ⟨b ++ pre, b', tail, .tlv h0 h3 hfe hb hpre, hb', ?_⟩
          rw [hsplit, hrest, append_assoc]

theorem scanNdefTlv_eq_some_iff (hfuel : area.length ≤ fuel) :
    scanNdefTlv fuel area = .ok (some value) ↔ FirstNdef area value := by
  refine ⟨firstNdef_of_scan, ?_⟩
  rintro ⟨pre, b, tail, hpre, hb, rfl⟩
  exact hpre.scan (hb.scan_ndef tail) hfuel

end NfcStack.Ultralight
