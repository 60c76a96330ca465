import NfcStack.Basic

/-!
# Frames that end in a checksum

A checksum of sixteen bits follows the payload, low byte first. The protocols differ in
the function that computes it.
-/

namespace NfcStack.Framing

variable (crc : Bytes → UInt16) (payload : Bytes)

def crcFrame : Bytes := payload ++ le16Bytes (crc payload)

def crcTrim (frame : Bytes) : Bytes := frame.take (frame.length - 2)

def crcCheck (frame : Bytes) : Bool :=
  2 < frame.length &&
    crc (crcTrim frame) == le16 (byteAt frame (frame.length - 2)) (byteAt frame (frame.length - 1))

@[simp] theorem length_crcFrame :
    (crcFrame crc payload).length = payload.length + 2 := by
  simp [crcFrame, le16Bytes]

@[simp] theorem crcTrim_crcFrame : crcTrim (crcFrame crc payload) = payload := by
  rw [crcTrim, length_crcFrame, Nat.add_sub_cancel, crcFrame, List.take_left]

theorem crcCheck_crcFrame {payload : Bytes} (hne : payload ≠ []) :
    crcCheck crc (crcFrame crc payload) = true := by
  have hpos : 0 < payload.length := List.length_pos_of_ne_nil hne
  have hdrop : (crcFrame crc payload).drop payload.length = le16Bytes (crc payload) ++ [] := by
    simp [crcFrame]
  have hcrc : le16 (byteAt (crcFrame crc payload) (payload.length + 2 - 2))
      (byteAt (crcFrame crc payload) (payload.length + 2 - 1)) = crc payload := le16_of_append hdrop
  rw [crcCheck, length_crcFrame, hcrc]
  simp [hpos]

end NfcStack.Framing
