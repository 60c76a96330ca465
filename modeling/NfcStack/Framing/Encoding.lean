import NfcStack.Framing.Assembler

/-!
# Command APDUs and their encodings

The commands of ISO 7816-4 that the stack takes. `apdu_parse` accepts their encodings and nothing else.
-/

namespace NfcStack.Framing

open List UInt8

structure Header where
  cla : UInt8
  ins : UInt8
  p1 : UInt8
  p2 : UInt8
deriving DecidableEq

structure ShortData where
  bytes : Bytes
  pos : 0 < bytes.length
  lt : bytes.length < 256

inductive Command
  | case1 (header : Header)
  | case2 (header : Header) (le : UInt8)
  | case3 (header : Header) (data : ShortData)
  | case4 (header : Header) (data : ShortData) (le : UInt8)
  | extended2 (header : Header) (le : UInt16)

def Header.bytes (h : Header) : Bytes := [h.cla, h.ins, h.p1, h.p2]

namespace Command

def encode : Command → Bytes
  | case1 h => h.bytes
  | case2 h le => h.bytes ++ [le]
  | case3 h data => h.bytes ++ [UInt8.ofNat data.bytes.length] ++ data.bytes
  | case4 h data le => h.bytes ++ [UInt8.ofNat data.bytes.length] ++ data.bytes ++ [le]
  | extended2 h le => h.bytes ++ [0x00] ++ (le16Bytes le).reverse

def fields : Command → Apdu
  | case1 h => ⟨h.cla, h.ins, h.p1, h.p2, [], 0, false, false⟩
  | case2 h le => ⟨h.cla, h.ins, h.p1, h.p2, [], le.toUInt16, true, false⟩
  | case3 h data => ⟨h.cla, h.ins, h.p1, h.p2, data.bytes, 0, false, false⟩
  | case4 h data le => ⟨h.cla, h.ins, h.p1, h.p2, data.bytes, le.toUInt16, true, false⟩
  | extended2 h le => ⟨h.cla, h.ins, h.p1, h.p2, [], le, true, true⟩

def Enabled (extendedOk : Bool) : Command → Prop
  | extended2 _ _ => extendedOk = true
  | _ => True

theorem apduParse_encode {extendedOk : Bool} {c : Command} (h : c.Enabled extendedOk) :
    apduParse extendedOk c.encode = some c.fields := by
  cases c with
  | case1 header => rfl
  | case2 header le => rfl
  | case3 header data =>
    have hparse := apduParse_data extendedOk header.cla header.ins header.p1 header.p2 none
      data.pos data.lt
    simpa [encode, fields, Header.bytes] using hparse
  | case4 header data le =>
    have hparse := apduParse_data extendedOk header.cla header.ins header.p1 header.p2 (some le)
      data.pos data.lt
    simpa [encode, fields, Header.bytes] using hparse
  | extended2 header le =>
    obtain rfl : extendedOk = true := h
    have hle : be16 (le >>> 8).toUInt8 le.toUInt8 = le := by
      rw [be16_eq_le16, le16_le16Bytes]
    show some (⟨_, _, _, _, [], be16 (le >>> 8).toUInt8 le.toUInt8, true, true⟩ : Apdu) = _
    rw [hle]
    rfl

theorem exists_header {l : Bytes} (h : 4 ≤ l.length) :
    ∃ header : Header, l = header.bytes ++ l.drop 4 ∧
      headerApdu l = ⟨header.cla, header.ins, header.p1, header.p2, [], 0, false, false⟩ := by
  match l, h with
  | cla :: ins :: p1 :: p2 :: rest, _ => exact ⟨⟨cla, ins, p1, p2⟩, rfl, rfl⟩

theorem length_append_data {l : Bytes} (h : l.length = 5 + (byteAt l 4).toNat) :
    [UInt8.ofNat (l.drop 5).length] ++ l.drop 5 = l.drop 4 := by
  rw [length_drop, h, Nat.add_sub_cancel_left, UInt8.ofNat_toNat, drop_eq_cons (k := 4) (by omega)]
  rfl

theorem length_append_data_le {l data : Bytes} (hdata : data = (l.drop 5).take (byteAt l 4).toNat)
    (h : l.length = 5 + (byteAt l 4).toNat + 1) :
    [UInt8.ofNat data.length] ++ (data ++ [byteAt l (5 + (byteAt l 4).toNat)]) = l.drop 4 := by
  have hlen : data.length = (byteAt l 4).toNat := by
    rw [hdata, length_take, length_drop]
    omega
  have hlast : [byteAt l (5 + (byteAt l 4).toNat)] = (l.drop 5).drop (byteAt l 4).toNat := by
    rw [drop_drop, drop_eq_cons (by omega), drop_eq_nil_of_le (by omega)]
  rw [hlen, UInt8.ofNat_toNat, hlast, hdata, take_append_drop, drop_eq_cons (k := 4) (by omega)]
  rfl

theorem exists_of_apduParse {extendedOk : Bool} {l : Bytes} {apdu : Apdu}
    (h : apduParse extendedOk l = some apdu) :
    ∃ c : Command, c.Enabled extendedOk ∧ c.encode = l ∧ c.fields = apdu := by
  have hlt := (byteAt l 4).toNat_lt
  simp only [apduParse] at h
  split_ifs at h with hshort hfour hfive hlc hcase3 hcase4 hext
  all_goals
    obtain ⟨header, hl, hheader⟩ := exists_header (Nat.not_lt.mp hshort)
    rw [hheader] at h
    cases h
  · -- only the header
    refine ⟨.case1 header, True.intro, ?_, rfl⟩
    rw [hl, drop_eq_nil_of_le hfour.le]
    rfl
  · refine ⟨.case2 header (byteAt l 4), True.intro, ?_, rfl⟩
    have hrest : [byteAt l 4] = l.drop 4 := by
      rw [drop_eq_cons (by omega), drop_eq_nil_of_le hfive.le]
    rw [encode, hrest, ← hl]
  · -- all that follows the length is data
    have hdata : (l.drop 5).length = (byteAt l 4).toNat := by
      rw [length_drop]
      omega
    refine ⟨.case3 header ⟨l.drop 5, by omega, by omega⟩, True.intro, ?_, rfl⟩
    rw [encode, append_assoc, length_append_data (by omega), ← hl]
  · -- one byte follows the data
    have hdata : ((l.drop 5).take (byteAt l 4).toNat).length = (byteAt l 4).toNat := by
      rw [length_take, length_drop]
      omega
    refine ⟨.case4 header ⟨(l.drop 5).take (byteAt l 4).toNat, by omega, by omega⟩ _, True.intro,
      ?_, rfl⟩
    rw [encode, append_assoc, append_assoc, length_append_data_le rfl (by omega), ← hl]
  · -- a length of 0 is followed by the two bytes of an extended one
    have hzero : byteAt l 4 = 0x00 := UInt8.toNat_inj.mp (not_not.mp hlc)
    have hrest : [0x00] ++ [byteAt l 5, byteAt l 6] = l.drop 4 := by
      rw [drop_eq_cons (k := 4) (by omega), drop_eq_cons (k := 5) (by omega),
        drop_eq_cons (k := 6) (by omega), drop_eq_nil_of_le (by omega), hzero]
      rfl
    refine ⟨.extended2 header (be16 (byteAt l 5) (byteAt l 6)), hext.1, ?_, rfl⟩
    rw [encode, be16_eq_le16, le16Bytes_le16]
    exact (congrArg (header.bytes ++ ·) hrest).trans hl.symm

end Command

/-- `apdu_parse` is the inverse of the encoding: it accepts a string exactly if it is the encoding of
a command that is enabled, with the fields of this command, and no other fields have this
encoding. -/
theorem apduParse_iff_encode (extendedOk : Bool) (l : Bytes) :
    (∀ apdu, apduParse extendedOk l = some apdu ↔
      ∃ c : Command, c.Enabled extendedOk ∧ c.encode = l ∧ c.fields = apdu) ∧
    ∀ c c' : Command, c.encode = l → c'.encode = l → c.fields = c'.fields := by
  refine ⟨fun apdu => ⟨Command.exists_of_apduParse, ?_⟩, ?_⟩
  · rintro ⟨c, henabled, rfl, rfl⟩
    exact Command.apduParse_encode henabled
  · -- with extended lengths enabled, both are what the parser finds in the string
    intro c c' h h'
    have henabled : ∀ x : Command, x.Enabled true := by
      intro x
      cases x with
      | extended2 header le => rfl
      | _ => exact True.intro
    have hc := Command.apduParse_encode (henabled c)
    have hc' := Command.apduParse_encode (henabled c')
    rw [h] at hc
    rw [h'] at hc'
    exact Option.some.inj (hc.symm.trans hc')

example : apduParse false [0x00, 0xB0, 0x00, 0x00, 0x00] =
    some ⟨0x00, 0xB0, 0x00, 0x00, [], 0, true, false⟩ := by decide

end NfcStack.Framing
