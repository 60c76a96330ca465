import NfcStack.Lib.Tlv
import NfcStack.Protocols.Emv.Poller

/-!
# The fields of an EMV record

`emv_poller_parse_record_tlv` cuts a PAN of more than 8 bytes before it moves on by its length, so the
walk goes on in the middle of it.
-/

namespace NfcStack.Emv

open List Option UInt8

open Tlv (Element)

variable {cfg : Config}

def record (es : List Element) : Bytes :=
  0x70 :: UInt8.ofNat (Tlv.encode es).length :: Tlv.encode es

def longestPan (es : List Element) : ℕ :=
  es.foldr (fun e n => if e.tag = 0x5A then max e.value.length n else n) 0

structure FieldsFound (es : List Element) (out out' : Image cfg) : Prop where
  pan : ∀ v, Tlv.lastValue 0x5A es = some v → out'.pan.slice 0 (min v.length 8) = v.take 8
  noPan : Tlv.lastValue 0x5A es = none → out'.pan = out.pan ∧ out'.panLen = out.panLen
  track2 : ∀ v, Tlv.lastValue 0x57 es = some v → out'.track2Len.toNat = min v.length 19 ∧
    out'.track2.slice 0 (min v.length 19) = v.take 19
  noTrack2 : Tlv.lastValue 0x57 es = none →
    out'.track2 = out.track2 ∧ out'.track2Len = out.track2Len

def storeElement (out : Image cfg) (e : Element) : Image cfg :=
  if e.tag = 0x57 then
    { out with
      track2Len := UInt8.ofNat (min e.value.length 19)
      track2 := out.track2.write 0 (e.value.take 19) }
  else if e.tag = 0x5A then
    { out with
      panLen := UInt8.ofNat e.value.length * 2
      pan := out.pan.write 0 (e.value.take 8) }
  else out

section Walk

variable {out : Image cfg} {fuel : ℕ}

theorem parseTlvs_nil (fuel : ℕ) (out : Image cfg) : parseTlvs fuel out [] = out := by
  cases fuel <;> rfl

theorem parseTlvs_element (e : Element) (rest : Bytes) :
    parseTlvs (fuel + 1) out (e.encode ++ rest) = parseTlvs fuel (storeElement out e)
      ((e.value ++ rest).drop (if e.tag = 0x5A then min e.value.length 8 else e.value.length)) := by
  have hroom : ¬ (e.value ++ rest).length < e.value.length := by simp
  have htake (n : ℕ) : (e.value ++ rest).take (min e.value.length n) = e.value.take n := by
    rw [take_append_of_le_length (Nat.min_le_left _ _), Nat.min_comm, ← take_take, take_length]
  rw [Element.encode, cons_append, cons_append, parseTlvs, e.toNat_length, if_neg hroom]
  by_cases htrack : e.tag = 0x57
  · have hpan : e.tag ≠ 0x5A := by
      rw [htrack]
      decide
    rw [if_pos htrack, storeElement, if_pos htrack, if_neg hpan]
    simp [htake]
  · by_cases hpan : e.tag = 0x5A
    · rw [if_neg htrack, if_pos hpan, storeElement, if_neg htrack, if_pos hpan, if_pos hpan]
      simp [htake]
    · rw [if_neg htrack, if_neg hpan, storeElement, if_neg htrack, if_neg hpan, if_neg hpan]

theorem parseTlvs_encode {es : List Element} (hpan : longestPan es ≤ 8)
    (hfuel : (Tlv.encode es).length ≤ fuel) :
    parseTlvs fuel out (Tlv.encode es) = es.foldl storeElement out := by
  induction es generalizing fuel out with
  | nil => exact parseTlvs_nil fuel out
  | cons e es ih =>
    have hencode : Tlv.encode (e :: es) = e.encode ++ Tlv.encode es := flatMap_cons
    rw [hencode, length_append, Element.encode, length_cons] at hfuel
    obtain ⟨fuel, rfl⟩ : ∃ n, fuel = n + 1 := ⟨fuel - 1, by omega⟩
    have hrest : longestPan es ≤ 8 ∧
        (if e.tag = 0x5A then min e.value.length 8 else e.value.length) = e.value.length := by
      rw [longestPan, foldr_cons] at hpan
      split at hpan
      · next htag => exact ⟨by rw [longestPan]; omega, by rw [if_pos htag]; omega⟩
      · next htag => exact ⟨hpan, if_neg htag⟩
    rw [hencode, parseTlvs_element, hrest.2, drop_left, ih hrest.1 (by omega), foldl_cons]

theorem parseRecordTlv_record {es : List Element} (hshort : (Tlv.encode es).length < 128)
    (out : Image cfg) :
    parseRecordTlv out (record es) = parseTlvs (record es).length out (Tlv.encode es) := by
  have hlen : (UInt8.ofNat (Tlv.encode es).length).toNat = (Tlv.encode es).length := by
    rw [toNat_ofNat']
    omega
  have hbody : ((record es).drop 2).take (byteAt (record es) 1).toNat = Tlv.encode es := by
    show (Tlv.encode es).take (UInt8.ofNat (Tlv.encode es).length).toNat = _
    rw [hlen, take_length]
  have htag : byteAt (record es) 0 = 0x70 := rfl
  rw [parseRecordTlv, if_neg (by simp [record]), if_pos htag, hbody]

theorem slice_write_take {n : ℕ} (a : CArray UInt8 n) (v : Bytes) :
    (a.write 0 (v.take n)).slice 0 (min v.length n) = v.take n := by
  have hlen : (v.take n).length = min v.length n := by rw [length_take, Nat.min_comm]
  rw [← hlen]
  exact CArray.slice_write_self a (by omega)

theorem fieldsFound_foldl (es : List Element) (out : Image cfg) :
    FieldsFound es out (es.foldl storeElement out) := by
  -- by induction from the right, so that the last element decides
  induction es using List.reverseRecOn with
  | nil => exact ⟨nofun, fun _ => ⟨rfl, rfl⟩, nofun, fun _ => ⟨rfl, rfl⟩⟩
  | append_singleton es e ih =>
    rw [foldl_append, foldl_cons, foldl_nil]
    have hpan := Tlv.lastValue_concat 0x5A es e
    have htrack := Tlv.lastValue_concat 0x57 es e
    by_cases h57 : e.tag = 0x57
    · rw [if_neg (by rw [h57]; decide)] at hpan
      rw [if_pos h57] at htrack
      rw [storeElement, if_pos h57]
      refine ⟨fun v hv => ih.pan v (hpan.symm.trans hv), fun hv => ih.noPan (hpan.symm.trans hv),
        fun v hv => ?_, fun hv => ?_⟩
      · obtain rfl : e.value = v := some.inj (htrack.symm.trans hv)
        refine ⟨?_, slice_write_take _ _⟩
        rw [toNat_ofNat']
        omega
      · exact absurd (htrack.symm.trans hv) (some_ne_none _)
    rw [if_neg h57] at htrack
    by_cases h5A : e.tag = 0x5A
    · rw [if_pos h5A] at hpan
      rw [storeElement, if_neg h57, if_pos h5A]
      refine ⟨fun v hv => ?_, fun hv => ?_, fun v hv => ih.track2 v (htrack.symm.trans hv),
        fun hv => ih.noTrack2 (htrack.symm.trans hv)⟩
      · obtain rfl : e.value = v := some.inj (hpan.symm.trans hv)
        exact slice_write_take _ _
      · exact absurd (hpan.symm.trans hv) (some_ne_none _)
    · rw [if_neg h5A] at hpan
      rw [storeElement, if_neg h57, if_neg h5A]
      exact ⟨fun v hv => ih.pan v (hpan.symm.trans hv), fun hv => ih.noPan (hpan.symm.trans hv),
        fun v hv => ih.track2 v (htrack.symm.trans hv), fun hv => ih.noTrack2 (htrack.symm.trans hv)⟩

end Walk

def panOfNine : List Element :=
  [⟨0x5A, List.replicate 9 0x00, by decide⟩, ⟨0x57, [0x01], by decide⟩]

theorem not_fieldsFound_panOfNine :
    ¬ FieldsFound panOfNine .reset (parseRecordTlv (.reset : Image cfg) (record panOfNine)) := by
  intro h
  cases (h.track2 [0x01] rfl).1

section Hidden

variable {n : ℕ} (hn : n ≤ 115)

def hiddenTrack2 : Element := ⟨0x57, List.replicate n 0x00, by rw [length_replicate]; omega⟩

theorem length_encode_hiddenTrack2 : (hiddenTrack2 hn).encode.length = n + 2 := by
  simp [hiddenTrack2, Element.encode]

def panAround : Element where
  tag := 0x5A
  value := List.replicate 8 0x00 ++ (hiddenTrack2 hn).encode
  short := by
    rw [length_append, length_replicate, length_encode_hiddenTrack2]
    omega

theorem length_panAround : (panAround hn).value.length = n + 10 := by
  rw [panAround, length_append, length_replicate, length_encode_hiddenTrack2]
  omega

theorem length_encode_panAround : (Tlv.encode [panAround hn]).length = n + 12 := by
  have hencode : Tlv.encode [panAround hn] = (panAround hn).encode ++ [] := flatMap_cons
  rw [hencode, append_nil, Element.encode, length_cons, length_cons, length_panAround]

theorem parseRecordTlv_panAround (out : Image cfg) :
    parseRecordTlv out (record [panAround hn]) =
      storeElement (storeElement out (panAround hn)) (hiddenTrack2 hn) := by
  have hlen := length_panAround hn
  have hencode : Tlv.encode [panAround hn] = (panAround hn).encode ++ [] := flatMap_cons
  have hshort := length_encode_panAround hn
  have hrest : ((panAround hn).value ++ []).drop
      (if (panAround hn).tag = 0x5A then min (panAround hn).value.length 8
        else (panAround hn).value.length) = Tlv.encode [hiddenTrack2 hn] := by
    rw [append_nil]
    exact (append_nil _).symm
  have hhidden : (Tlv.encode [hiddenTrack2 hn]).length = n + 2 := by
    rw [← length_encode_hiddenTrack2 hn]
    exact congrArg List.length (append_nil _)
  rw [parseRecordTlv_record (by omega), record, length_cons, hencode, parseTlvs_element, hrest]
  refine parseTlvs_encode (Nat.zero_le 8) ?_
  rw [length_cons, ← hencode]
  omega

theorem not_fieldsFound_panAround : ∃ out : Image cfg, ¬ FieldsFound [panAround hn] out
      (parseRecordTlv out (record [panAround hn])) := by
  refine ⟨{ (.reset : Image cfg) with track2Len := 0xFF }, fun h => ?_⟩
  have hsame := (h.noTrack2 rfl).2
  rw [parseRecordTlv_panAround] at hsame
  have hnat : (UInt8.ofNat (min (List.replicate n (0x00 : UInt8)).length 19)).toNat = 255 :=
    congrArg UInt8.toNat hsame
  rw [toNat_ofNat'] at hnat
  omega

end Hidden

/-- For a length of the longest PAN, every record in which it has this length is read as a walk over
the elements finds them, if and only if the length is at most 8. A PAN of a record has at most 125
bytes. -/
theorem parseRecordTlv_iff {n : ℕ} (hn : n ≤ 125) :
    (∀ (out : Image cfg) (es : List Element), (Tlv.encode es).length < 128 → longestPan es = n →
      FieldsFound es out (parseRecordTlv out (record es))) ↔ n ≤ 8 := by
  constructor
  · intro h
    by_contra hlong
    rcases Nat.eq_or_lt_of_le (Nat.not_le.mp hlong) with hnine | hmore
    · exact not_fieldsFound_panOfNine (h .reset panOfNine (by decide) hnine)
    · obtain ⟨m, rfl⟩ : ∃ m, n = m + 10 := ⟨n - 10, by omega⟩
      have hm : m ≤ 115 := by omega
      obtain ⟨out, hout⟩ := @not_fieldsFound_panAround cfg m hm
      refine hout (h out [panAround hm] ?_ ?_)
      · rw [length_encode_panAround]
        omega
      · show max (panAround hm).value.length 0 = m + 10
        rw [length_panAround, Nat.max_zero]
  · rintro hle out es hshort rfl
    rw [parseRecordTlv_record hshort, parseTlvs_encode hle]
    · exact fieldsFound_foldl es out
    · rw [record, length_cons, length_cons]
      omega

def shortPan : List Element :=
  [⟨0x5A, [0x41, 0x11, 0x11, 0x11, 0x11, 0x11, 0x11, 0x11], by decide⟩,
    ⟨0x57, [0x41, 0x11, 0x11, 0x11, 0x11, 0x11, 0x11, 0x11, 0xD2, 0x51, 0x2F], by decide⟩]

theorem parseRecordTlv_shortPan : (Tlv.encode shortPan).length < 128 ∧ longestPan shortPan = 8 ∧
      FieldsFound shortPan .reset (parseRecordTlv (.reset : Image .default) (record shortPan)) :=
  ⟨by decide, by decide,
    (parseRecordTlv_iff (by decide)).mpr le_rfl .reset shortPan (by decide) (by decide)⟩

def longPan : List Element :=
  [⟨0x5A, [0x62, 0x17, 0x00, 0x12, 0x34, 0x56, 0x78, 0x90, 0x12, 0x3F], by decide⟩,
    ⟨0x57, [0x62, 0x17, 0x00, 0x12, 0x34, 0x56, 0x78, 0x90, 0x12, 0x3D, 0x25, 0x12], by decide⟩]

theorem parseRecordTlv_longPan : (Tlv.encode longPan).length < 128 ∧ longestPan longPan = 10 ∧
      (parseRecordTlv (.reset : Image .default) (record longPan)).track2Len = 0 ∧
      ¬ FieldsFound longPan .reset (parseRecordTlv (.reset : Image .default) (record longPan)) := by
  have hlen : (parseRecordTlv (.reset : Image .default) (record longPan)).track2Len = 0 := by
    decide +kernel
  refine ⟨by decide, by decide, hlen, fun h => ?_⟩
  have htrack := (h.track2 _ rfl).1
  exact absurd htrack (by decide)

end NfcStack.Emv
