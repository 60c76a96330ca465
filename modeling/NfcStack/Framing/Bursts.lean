import NfcStack.Lib.Crc
import NfcStack.Protocols.Classic.Listener
import NfcStack.Protocols.Felica.Listener
import NfcStack.Protocols.Iso15693.Model
import NfcStack.Store.Store

/-!
# Bursts that the checksums see

The checksums as bitwise ones: ISO14443-A, ISO15693 and the store take the low bit of a byte first,
FeliCa the high bit.
-/

namespace NfcStack.Framing

open Cyclic

def lsbBits (b : UInt8) : List Bool := (List.range 8).map b.toBitVec.getLsbD

def msbBits (b : UInt8) : List Bool := (lsbBits b).reverse

def reflectedCrc (poly init : UInt16) (bytes : Bytes) : UInt16 :=
  feed (lsbStep (.ofBitVec poly.toBitVec.reverse)) lsbDig init (bytes.flatMap lsbBits)

structure Detects (bitsOf : UInt8 → List Bool) (check : Bytes → Bool) (frame : Bytes) : Prop where
  accepted : check frame = true
  rejected : ∀ frame', Burst 16 (frame.flatMap bitsOf) (frame'.flatMap bitsOf) → check frame' = false

variable (b0 b1 : UInt8)

theorem le16_eq_xor : le16 b0 b1 = b0.toUInt16 ^^^ (b1.toUInt16 <<< 8) := by
  rw [le16, ← UInt16.toBitVec_inj]
  ext i hi
  rcases Nat.lt_or_ge i 8 with hlow | hhigh
  · simp [hlow]
  · simp [BitVec.getLsbD_of_ge _ _ hhigh]

theorem le16_shiftRight : le16 b0 b1 >>> 8 = b1.toUInt16 := by
  rw [← UInt16.toNat_inj, UInt16.toNat_shiftRight, toNat_le16]
  have := b0.toNat_lt
  simp [Nat.shiftRight_eq_div_pow]
  omega

theorem le16_toUInt8 : (le16 b0 b1).toUInt8 = b0 := by
  have h := le16Bytes_le16 b0 b1
  injection h

theorem le16_shiftLeft : le16 b0 b1 <<< 8 = b0.toUInt16 <<< 8 := by
  rw [← UInt16.toNat_inj, UInt16.toNat_shiftLeft, toNat_le16]
  simp [Nat.shiftLeft_eq]
  omega

theorem word_lsbBits : ∀ b : UInt8,
    word lsbDig 0 (lsbBits b) = b.toUInt16 ∧ word lsbDig 8 (lsbBits b) = b.toUInt16 <<< 8 :=
  forall_uint8 (by decide +kernel)

theorem word_msbBits : ∀ b : UInt8,
    word msbDig 0 (msbBits b) = b.toUInt16 <<< 8 ∧ word msbDig 8 (msbBits b) = b.toUInt16 :=
  forall_uint8 (by decide +kernel)

theorem shifts_crcBit : Shifts Iso15693.crcBit lsbDig := lsbStep_shifts (by decide)

theorem shifts_felica : Shifts Felica.crcBit msbDig := msbStep_shifts (by decide)

theorem feed_lsbBits (r : UInt16) (b : UInt8) :
    feed Iso15693.crcBit lsbDig r (lsbBits b) = Iso15693.crcBit^[8] (r ^^^ b.toUInt16) := by
  rw [shifts_crcBit.feed_eq (by simp [lsbBits]), (word_lsbBits b).1]
  rfl

theorem feed_msbBits (r : UInt16) (b : UInt8) :
    feed Felica.crcBit msbDig r (msbBits b) = Felica.crcByte r b := by
  rw [shifts_felica.feed_eq (by simp [msbBits, lsbBits]), (word_msbBits b).1]
  rfl

theorem foldl_crcByte {payload : Bytes} {b0 b1 : UInt8} (h : Felica.crcCalculate payload = le16 b0 b1) :
    payload.foldl Felica.crcByte 0 = le16 b1 b0 := by
  rw [Felica.crcCalculate] at h
  generalize payload.foldl Felica.crcByte 0 = r at h ⊢
  rw [← le16_le16Bytes r] at h ⊢
  generalize r.toUInt8 = r0, (r >>> 8).toUInt8 = r1 at h ⊢
  rw [le16_shiftLeft, le16_shiftRight, UInt16.or_comm] at h
  have hbytes := congrArg le16Bytes (show le16 r1 r0 = le16 b0 b1 from h)
  rw [le16Bytes_le16, le16Bytes_le16] at hbytes
  cases hbytes
  rfl

theorem crcAByte_zero : ∀ b : UInt8, Iso15693.crcBit^[8] b.toUInt16 = Classic.crcAByte 0 b ∧
    Iso15693.crcBit^[8] (b.toUInt16 <<< 8) = b.toUInt16 :=
  forall_uint8 (by decide +kernel)

theorem crcAByte_eq (r : UInt16) (b : UInt8) :
    Classic.crcAByte r b = Iso15693.crcBit^[8] (r ^^^ b.toUInt16) := by
  rw [← le16_le16Bytes r]
  generalize r.toUInt8 = r0, (r >>> 8).toUInt8 = r1
  have hxor : le16 r0 r1 ^^^ b.toUInt16 = (b ^^^ r0).toUInt16 ^^^ (r1.toUInt16 <<< 8) := by
    rw [le16_eq_xor, UInt8.toUInt16_xor]
    ac_rfl
  rw [hxor, shifts_crcBit.iterate_xor, (crcAByte_zero _).1, (crcAByte_zero _).2, Classic.crcAByte,
    le16_toUInt8, le16_shiftRight, Classic.crcAByte]
  simp
  ac_rfl

section

variable {step : UInt16 → UInt16} {dig : ℕ → UInt16} {bitsOf : UInt8 → List Bool}
  (init d : UInt16)

theorem foldl_eq_feed {f : UInt16 → UInt8 → UInt16} (hf : ∀ r b, f r b = feed step dig r (bitsOf b))
    (payload : Bytes) (r : UInt16) :
    payload.foldl f r = feed step dig r (payload.flatMap bitsOf) := by
  induction payload generalizing r with
  | nil => rfl
  | cons b payload ih => rw [List.foldl_cons, ih, List.flatMap_cons, feed_append, hf]

variable (h : Shifts step dig) (hbits : ∀ b, (bitsOf b).length = 8) {crc : Bytes → UInt16}
  (hcrc : ∀ payload b0 b1, crc payload = le16 b0 b1 → feed step dig init (payload.flatMap bitsOf) ^^^
    (word dig 0 (bitsOf b0) ^^^ word dig 8 (bitsOf b1)) = d)

include h hbits hcrc

theorem feed_of_crcCheck {frame : Bytes} (hcheck : crcCheck crc frame = true) :
    feed step dig init (frame.flatMap bitsOf) = step^[16] d := by
  rw [crcCheck, Bool.and_eq_true, decide_eq_true_iff, beq_iff_eq] at hcheck
  obtain ⟨hlen, hcheck⟩ := hcheck
  have hframe := frame.take_append_drop (frame.length - 2)
  rw [drop_eq_le16Bytes_append (by omega), le16Bytes_le16, List.drop_eq_nil_of_le (by omega)] at hframe
  have hword : ∀ b0 b1 : UInt8, ([b0, b1].flatMap bitsOf).length = 16 := by simp [hbits]
  rw [← hframe, List.append_nil, List.flatMap_append, feed_append, h.feed_eq (hword _ _).le, hword,
    ← hcrc _ _ _ hcheck]
  rw [show frame.length - 2 + 1 = frame.length - 1 by omega]
  simp [word_append, hbits, crcTrim]

theorem detects {payload : Bytes} (hne : payload ≠ []) :
    Detects bitsOf (crcCheck crc) (crcFrame crc payload) := by
  have hok := crcCheck_crcFrame crc hne
  refine ⟨hok, fun frame' hburst => Bool.eq_false_iff.mpr fun hok' => ?_⟩
  apply h.feed_ne_of_burst hburst init
  rw [feed_of_crcCheck _ d h hbits hcrc hok', feed_of_crcCheck _ d h hbits hcrc hok]

end

theorem lsbBits_length (b : UInt8) : (lsbBits b).length = 8 := by simp [lsbBits]

theorem foldl_crcAByte (init : UInt16) (payload : Bytes) : payload.foldl Classic.crcAByte init =
    feed Iso15693.crcBit lsbDig init (payload.flatMap lsbBits) :=
  foldl_eq_feed (fun r b => (crcAByte_eq r b).trans (feed_lsbBits r b).symm) payload init

theorem detects_foldl (init : UInt16) {payload : Bytes} (hne : payload ≠ []) :
    Detects lsbBits (crcCheck (List.foldl Classic.crcAByte init))
      (crcFrame (List.foldl Classic.crcAByte init) payload) := by
  refine detects init 0 shifts_crcBit lsbBits_length (fun payload b0 b1 hcrc => ?_) hne
  rw [← foldl_crcAByte, hcrc, (word_lsbBits _).1, (word_lsbBits _).2, le16_eq_xor, UInt16.xor_self]

theorem detects_bursts (payload : Bytes) (hne : payload ≠ []) (bufLen : ℕ)
    (hlen : payload.length + 2 ≤ bufLen) :
    Classic.crcA payload = reflectedCrc 0x1021 0x6363 payload ∧
    Detects lsbBits (crcCheck Classic.crcA) (crcFrame Classic.crcA payload) ∧
    Detects msbBits Felica.crcCheck (Felica.crcAppend payload) ∧
    ∃ frame, Iso15693.crcAppend bufLen payload = some frame ∧ Detects lsbBits Iso15693.crcCheck frame := by
  have hmsb : ∀ b, (msbBits b).length = 8 := fun b => by simp [msbBits, lsbBits]
  refine ⟨foldl_crcAByte _ payload, detects_foldl _ hne, ?_, _, Iso15693.crcAppend_of_le hlen, ?_⟩
  · refine detects 0 0 shifts_felica hmsb (fun payload b0 b1 hcrc => ?_) hne
    rw [← foldl_eq_feed fun r b => (feed_msbBits r b).symm, (word_msbBits _).1, (word_msbBits _).2]
    rw [foldl_crcByte hcrc, UInt16.xor_comm (b0.toUInt16 <<< 8), ← le16_eq_xor, UInt16.xor_self]
  · refine detects 0xFFFF 0xFFFF shifts_crcBit lsbBits_length (fun payload b0 b1 hcrc => ?_) hne
    rw [Iso15693.crc16, foldl_eq_feed fun r b => (feed_lsbBits r b).symm] at hcrc
    rw [(word_lsbBits _).1, (word_lsbBits _).2, ← le16_eq_xor, ← hcrc, UInt16.xor_not, UInt16.xor_self]
    rfl

theorem detects_bursts_halt : Detects lsbBits (crcCheck Classic.crcA) (crcFrame Classic.crcA [0x50, 0x00]) :=
  (detects_bursts [0x50, 0x00] (by simp) 4 (by simp)).2.1

theorem openEnvelope_of_crcCheck {crc : Bytes → UInt16} {blob : Bytes} (h : crcCheck crc blob = false) :
    Store.openEnvelope crc blob = .error .ebadmsg := by
  simp only [Store.openEnvelope]
  generalize hstop : Store.hdrSize + (le16 (byteAt blob 4) (byteAt blob 5)).toNat = stop
  split_ifs with _ _ _ hlen hcrc
  case neg =>
    -- the checksum is the last two bytes of a blob of the length that the header gives
    obtain rfl : stop = blob.length - 2 := by
      simp only [Store.crcSize] at hlen
      omega
    rw [crcCheck, crcTrim, not_not.mp hcrc] at h
    simp only [Store.hdrSize] at hstop
    simp [show blob.length - 2 + 1 = blob.length - 1 by omega] at h
    omega
  all_goals rfl

variable {cfg : Store.Config} {μ : Type}

/-- `crc16_ccitt` of the operating system with the seed of the store, as its documentation has it: the
polynomial 0x1021 with the bits of every byte taken from the low end. -/
def IsCrc16Ccitt (crc : Bytes → UInt16) : Prop := ∀ bytes, crc bytes = reflectedCrc 0x1021 0xFFFF bytes

theorem isCrc16Ccitt_crc16Ccitt : IsCrc16Ccitt Store.crc16Ccitt := by
  intro bytes
  refine Eq.trans (congrArg (List.foldl · _ bytes) ?_) (foldl_crcAByte 0xFFFF bytes)
  funext seed b
  rw [Store.crcByte, UInt8.xor_comm seed.toUInt8]
  rfl

/-- A blob in which a burst of at most sixteen bits has been changed since it was written is refused.
The store cannot be made to keep it, and a load of it calls no service. -/
theorem stored_burst_refused {crc : Bytes → UInt16} (hcrc : IsCrc16Ccitt crc) {payload blob : Bytes}
    (hburst : Burst 16 ((Store.writeBlob crc payload).flatMap lsbBits) (blob.flatMap lsbBits))
    (st : Store.State cfg) (tag : Store.TagName) :
    Store.ramImport crc st tag blob = (st, .error .ebadmsg) ∧
      (Store.callLoad st tag = .ok blob → ∀ started (svcs : List (Service μ)) m, ∃ e,
        Store.load crc started st svcs m tag = some (m, .error e)) := by
  obtain rfl : crc = List.foldl Classic.crcAByte 0xFFFF :=
    funext fun bytes => (hcrc bytes).trans (foldl_crcAByte 0xFFFF bytes).symm
  have hbad : Store.openEnvelope _ blob = .error .ebadmsg :=
    openEnvelope_of_crcCheck ((detects_foldl _ (List.cons_ne_nil _ _)).rejected blob hburst)
  refine ⟨by rw [Store.ramImport, hbad], fun hload started svcs m => ?_⟩
  simp only [Store.load, Store.readEnvelope, hload, hbad]
  split_ifs <;> exact ⟨_, rfl⟩

def messageBlob : Bytes := Store.writeBlob Store.crc16Ccitt (Store.writeEntry 0x01 [0xD0])

theorem stored_burst_refused_message :
    Store.ramImport Store.crc16Ccitt (.boot : Store.State .default) [0x61] (messageBlob.set 10 0xD1) =
      (.boot, .error .ebadmsg) :=
  (@stored_burst_refused .default Unit _ isCrc16Ccitt_crc16Ccitt (Store.writeEntry 0x01 [0xD0]) _
    ⟨80, [true], 23, by decide, by decide, by decide +kernel, by decide +kernel⟩ .boot [0x61]).1

end NfcStack.Framing
