import NfcStack.Lib.Tlv
import NfcStack.Protocols.Emv.Confinement

/-!
# The cached responses of an EMV card

While the cached responses are those of the image, the PPSE names its application. The lengths of the
templates are constants that fit no identifier, so neither response to SELECT is a data object.
-/

namespace NfcStack.Emv

open List Option CArray

variable {cfg : Config}

structure State.Fresh (x : State cfg) : Prop where
  wire : rebuildWire x.image = some x.wire
  aidLen_pos : 0 < x.image.appAidLen.toNat
  aidLen_le : x.image.appAidLen.toNat ≤ appAidMaxBytes

theorem send_of_le {data : Bytes} (h : data.length ≤ 253) (sw : Bytes) :
    send data sw = data ++ sw :=
  if_neg (by show ¬ 255 < data.length + 2; omega)

def advertisedAid (rsp : Bytes) : Bytes := (rsp.drop 27).take (byteAt rsp 26).toNat

namespace State.Fresh

variable {x : State cfg} (h : x.Fresh)

include h

theorem length_aid : x.image.aid.length = x.image.appAidLen.toNat :=
  length_slice _ (by simpa using h.aidLen_le)

theorem read : x.image.appAid.read? 0 x.image.appAidLen.toNat = some x.image.aid :=
  read?_of_le _ (by simpa using h.aidLen_le)

theorem wire_eq : x.wire.ppseFci = [0x6F, 0x1E, 0x84, 0x0E] ++ ppseAid ++
        [0xA5, 0x10, 0xBF, 0x0C, 0x0E, 0x61, 0x0C, 0x4F, x.image.appAidLen] ++ x.image.aid ++
        [0x87, 0x01, 0x01] ∧
      x.wire.appFci = [0x6F, 0x12, 0x84, x.image.appAidLen] ++ x.image.aid ++
        [0xA5, 0x07, 0x50, 0x04, 0x56, 0x49, 0x53, 0x41, 0x87, 0x01, 0x01] ∧
      x.wire.gpo = [0x80, 0x06] ++ x.image.aip.toList ++ x.image.afl.toList := by
  have hwire := h.wire
  simp only [rebuildWire, h.read, map_some, some.injEq] at hwire
  rw [← hwire]
  exact ⟨rfl, rfl, rfl⟩

theorem length_ppseFci_le : x.wire.ppseFci.length ≤ 253 := by
  have hlen := h.length_aid
  have hle := h.aidLen_le
  simp only [h.wire_eq.1, ppseAid, length_append, length_cons, length_nil, appAidMaxBytes] at hle ⊢
  omega

theorem length_appFci_le : x.wire.appFci.length ≤ 253 := by
  have hlen := h.length_aid
  have hle := h.aidLen_le
  simp only [h.wire_eq.2.1, length_append, length_cons, length_nil, appAidMaxBytes] at hle ⊢
  omega

theorem length_gpo_le : x.wire.gpo.length ≤ 253 := by
  simp [h.wire_eq.2.2]

theorem send_ppseFci : send x.wire.ppseFci StatusWord.ok.bytes = x.wire.ppseFci ++ [0x90, 0x00] :=
  send_of_le h.length_ppseFci_le _

theorem send_appFci : send x.wire.appFci StatusWord.ok.bytes = x.wire.appFci ++ [0x90, 0x00] :=
  send_of_le h.length_appFci_le _

theorem send_gpo : send x.wire.gpo StatusWord.ok.bytes = x.wire.gpo ++ [0x90, 0x00] :=
  send_of_le h.length_gpo_le _

theorem advertisedAid : Emv.advertisedAid (x.wire.ppseFci ++ [0x90, 0x00]) = x.image.aid := by
  have hdrop : (x.wire.ppseFci ++ [0x90, 0x00]).drop 27 =
      x.image.aid ++ [0x87, 0x01, 0x01, 0x90, 0x00] := by
    rw [h.wire_eq.1]
    simp [ppseAid]
  have hbyte : byteAt (x.wire.ppseFci ++ [0x90, 0x00]) 26 = x.image.appAidLen := by
    rw [h.wire_eq.1]
    simp [ppseAid, byteAt]
  rw [Emv.advertisedAid, hdrop, hbyte, ← h.length_aid, take_left]

end State.Fresh

/-- The outer length of the PPSE response fits an identifier of two bytes, and then the one of A5
goes beyond it. -/
theorem not_isObject_ppseFci (aidLen : UInt8) (aid : Bytes) :
    ¬ Tlv.IsObject ([0x6F, 0x1E, 0x84, 0x0E] ++ ppseAid ++
      [0xA5, 0x10, 0xBF, 0x0C, 0x0E, 0x61, 0x0C, 0x4F, aidLen] ++ aid ++ [0x87, 0x01, 0x01]) := by
  intro h
  obtain ⟨hlen, hrest⟩ := h.rest (by decide) (by decide)
  obtain ⟨a, b, rfl⟩ : ∃ a b, aid = [a, b] := length_eq_two.mp (by
    simpa [ppseAid] using hlen)
  cases hrest (by decide)

/-- The outer length of the application's response fits an identifier of five bytes, and the one of
its A5 is two too small. -/
theorem not_isObject_appFci {aidLen : UInt8} {aid : Bytes} (haid : aid.length = aidLen.toNat) :
    ¬ Tlv.IsObject ([0x6F, 0x12, 0x84, aidLen] ++ aid ++
      [0xA5, 0x07, 0x50, 0x04, 0x56, 0x49, 0x53, 0x41, 0x87, 0x01, 0x01]) := by
  intro h
  obtain ⟨hlen, hrest⟩ := h.rest (by decide) (by decide)
  have hfive : aid.length = 5 := by simpa using hlen
  obtain rfl : aidLen = 5 := UInt8.toNat_inj.mp (haid.symm.trans hfive)
  match aid, hfive with
  | [a, b, c, d, e], _ => cases hrest (by decide)

/-- For no application identifier is the response to SELECT PPSE or the one to the SELECT of the
application a data object. -/
theorem rebuildWire_not_isObject (image : Image cfg)
    (hle : image.appAidLen.toNat ≤ appAidMaxBytes) :
    ∃ wire, rebuildWire image = some wire ∧ ¬ Tlv.IsObject wire.ppseFci ∧
      ¬ Tlv.IsObject wire.appFci := by
  have hread : image.appAid.read? 0 image.appAidLen.toNat = some image.aid :=
    read?_of_le _ (by simpa using hle)
  have hlen : image.aid.length = image.appAidLen.toNat :=
    length_slice _ (by simpa using hle)
  refine ⟨_, by rw [rebuildWire, hread, map_some], ?_, ?_⟩
  · exact not_isObject_ppseFci image.appAidLen image.aid
  · exact not_isObject_appFci hlen

theorem rebuildWire_not_isObject_loadDefault :
    ∃ wire, rebuildWire (loadDefault : Image .default) = some wire ∧
      ¬ Tlv.IsObject wire.ppseFci ∧ ¬ Tlv.IsObject wire.appFci :=
  rebuildWire_not_isObject _ (by decide +kernel)

/-- The default card, with an identifier of seven bytes: the outer length of the PPSE response is 30
and 35 bytes follow it, and that of the application's response is 18 and 20 bytes follow it. -/
theorem rebuildWire_loadDefault : ∃ wire, rebuildWire (loadDefault : Image .default) = some wire ∧
      (loadDefault : Image .default).aid = serviceAppAid ∧
      wire.ppseFci.take 2 = [0x6F, 30] ∧ (wire.ppseFci.drop 2).length = 35 ∧
      wire.appFci.take 2 = [0x6F, 18] ∧ (wire.appFci.drop 2).length = 20 ∧
      ¬ (Tlv.IsObject wire.ppseFci ∧ Tlv.IsObject wire.appFci) := by
  refine ⟨_, rfl, by decide +kernel, rfl, rfl, rfl, rfl, fun h => ?_⟩
  exact not_isObject_ppseFci _ _ h.1

end NfcStack.Emv
