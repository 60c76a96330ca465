import NfcStack.Basic

/-!
# Command APDUs

`apdu_parse` of `framing/apdu_assembler.c`.
-/

namespace NfcStack.Framing

def headerApdu (data : Bytes) : Apdu :=
  ⟨byteAt data 0, byteAt data 1, byteAt data 2, byteAt data 3, [], 0, false, false⟩

variable (extendedOk : Bool)

/-- `apdu_parse`; a rejected command has no parse. The only extended form that is accepted is the
one with a length expected and no data. -/
def apduParse (data : Bytes) : Option Apdu :=
  let lc := (byteAt data 4).toNat
  if data.length < 4 then none
  else if data.length = 4 then some (headerApdu data)
  else if data.length = 5 then
    some { headerApdu data with hasLe := true, le := (byteAt data 4).toUInt16 }
  else if lc ≠ 0 then
    if data.length = 5 + lc then some { headerApdu data with data := data.drop 5 }
    else if data.length = 6 + lc then
      some { headerApdu data with
        data := (data.drop 5).take lc
        hasLe := true
        le := (byteAt data (5 + lc)).toUInt16 }
    else none
  else if extendedOk ∧ data.length = 7 then
    some { headerApdu data with
      extended := true
      hasLe := true
      le := be16 (byteAt data 5) (byteAt data 6) }
  else none

theorem lc_lt_of_apduParse {extendedOk : Bool} {data : Bytes} {apdu : Apdu}
    (h : apduParse extendedOk data = some apdu) : apdu.lc < 256 := by
  have hlc := (byteAt data 4).toNat_lt
  unfold apduParse at h
  simp only at h
  split_ifs at h with _ _ _ _ _ hle
  · cases h
    simp [Apdu.lc, headerApdu]
  · cases h
    simp [Apdu.lc, headerApdu]
  · cases h
    simp only [Apdu.lc, List.length_drop]
    omega
  · cases h
    simp only [Apdu.lc, List.length_take]
    omega
  · cases h
    simp [Apdu.lc, headerApdu]

theorem apduParse_data (cla ins p1 p2 : UInt8) {data : Bytes}
    (le : Option UInt8) (hpos : 0 < data.length) (hlen : data.length < 256) :
    apduParse extendedOk ([cla, ins, p1, p2, UInt8.ofNat data.length] ++ data ++ le.toList) =
      some ⟨cla, ins, p1, p2, data, (le.getD 0).toUInt16, le.isSome, false⟩ := by
  generalize hl : [cla, ins, p1, p2, UInt8.ofNat data.length] ++ data ++ le.toList = l
  have hlc : (byteAt l 4).toNat = data.length := by
    rw [← hl]
    simp [byteAt]
    omega
  have hhead : headerApdu l = ⟨cla, ins, p1, p2, [], 0, false, false⟩ := by
    rw [← hl]
    rfl
  have hdrop : l.drop 5 = data ++ le.toList := by
    rw [← hl]
    rfl
  have htotal : l.length = 5 + data.length + le.toList.length := by
    rw [← hl]
    simp
    omega
  unfold apduParse
  simp only [hlc, hhead, hdrop, htotal]
  cases le with
  | none =>
    rw [if_neg (by omega), if_neg (by omega), if_neg (by omega), if_pos (by omega)]
    simp
  | some b =>
    have hone : (some b).toList.length = 1 := rfl
    have hle : byteAt l (5 + data.length) = b := by
      rw [← byteAt_drop, hdrop]
      simp [byteAt]
    rw [if_neg (by omega), if_neg (by omega), if_neg (by omega), if_pos (by omega),
      if_neg (by omega), if_pos (by omega), hle]
    simp

def selectCommand (p2 : UInt8) (aid : Bytes) (le : Option UInt8) : Bytes :=
  [0x00, 0xA4, 0x04, p2, UInt8.ofNat aid.length] ++ aid ++ le.toList

theorem apduParse_selectCommand (p2 : UInt8) {aid : Bytes} (le : Option UInt8)
    (hpos : 0 < aid.length) (hlen : aid.length < 256) :
    apduParse extendedOk (selectCommand p2 aid le) =
      some ⟨0x00, 0xA4, 0x04, p2, aid, (le.getD 0).toUInt16, le.isSome, false⟩ :=
  apduParse_data extendedOk 0x00 0xA4 0x04 p2 le hpos hlen

end NfcStack.Framing
