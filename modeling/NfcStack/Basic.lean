import NfcStack.Lib.CArray

/-!
# Vocabulary shared by the protocol stack

Error codes, byte strings with their multi-byte fields, the parsed C-APDU and the persist ids.
-/

namespace NfcStack

open List CArray UInt8

/-- A byte string: a buffer together with its length argument. -/
abbrev Bytes := List UInt8

inductive Errno
  | einval | enospc | ebadmsg | enodev | eio | enoent | ealready | enotsup | etimedout
  | ebusy | enomem | enodata | eacces | einprogress
deriving DecidableEq, Repr

abbrev Ret := Except Errno Unit

def byteAt (l : Bytes) (i : ℕ) : UInt8 := l.getD i 0

variable {l : Bytes} {b : UInt8}

theorem byteAt_eq {i : ℕ} (h : l[i]? = some b) : byteAt l i = b := by
  simp [byteAt, h]

theorem byteAt_drop (l : Bytes) (k i : ℕ) : byteAt (l.drop k) i = byteAt l (k + i) := by
  simp [byteAt]

variable {n : ℕ}

theorem byteAt_write (a : CArray UInt8 n) {off : ℕ} {src : Bytes}
    (h : off + src.length ≤ n) (i : ℕ) :
    byteAt (a.write off src).toList i =
      if off ≤ i ∧ i < off + src.length then byteAt src (i - off) else byteAt a.toList i := by
  have hget := get?_write a h i
  refine (congrArg (·.getD 0) hget).trans ?_
  split
  · rfl
  · rfl

/-! What is left of an input behind each of its fields. -/

variable {k : ℕ} {t x : Bytes} {m : ℕ}

theorem drop_of_append (h : l.drop k = x ++ t) (hx : x.length = m) : l.drop (k + m) = t := by
  rw [← drop_drop, h, drop_left' hx]

theorem drop_of_cons (h : l.drop k = b :: t) : l.drop (k + 1) = t := by
  rw [← drop_drop, h, drop_succ_cons, drop_zero]

theorem ofList_of_append {x : CArray UInt8 m}
    (h : l.drop k = x.toList ++ t) : CArray.ofList m 0 (l.drop k) = x := by
  apply CArray.ext
  rw [h, toList_ofList_of_le _ (by simp), take_left' x.length_toList]

theorem byteAt_of_append (h : l.drop k = x) (i : ℕ) : byteAt l (k + i) = byteAt x i := by
  rw [← byteAt_drop, h]

theorem byteAt_of_cons (h : l.drop k = b :: t) : byteAt l k = b :=
  byteAt_of_append h 0

/-! An input as its first field and what is left behind it. -/

theorem drop_eq_cons (h : k < l.length) : l.drop k = byteAt l k :: l.drop (k + 1) := by
  rw [drop_eq_getElem_cons h, byteAt_eq (getElem?_eq_getElem h)]

theorem drop_eq_ofList_append (h : k + n ≤ l.length) :
    l.drop k = (CArray.ofList n 0 (l.drop k)).toList ++ l.drop (k + n) := by
  have hn : n ≤ (l.drop k).length := by
    rw [length_drop]
    omega
  rw [toList_ofList_of_le _ hn, ← drop_drop, take_append_drop]

variable (b0 b1 : UInt8)

def le16 : UInt16 := b0.toUInt16 ||| (b1.toUInt16 <<< 8)

def le24 (b0 b1 b2 : UInt8) : UInt32 :=
  b0.toUInt32 ||| (b1.toUInt32 <<< 8) ||| (b2.toUInt32 <<< 16)

def le32 (b0 b1 b2 b3 : UInt8) : UInt32 :=
  le24 b0 b1 b2 ||| (b3.toUInt32 <<< 24)

def be16 : UInt16 := (b0.toUInt16 <<< 8) ||| b1.toUInt16

def le16Bytes (x : UInt16) : Bytes := [x.toUInt8, (x >>> 8).toUInt8]

def le32Bytes (x : UInt32) : Bytes :=
  [x.toUInt8, (x >>> 8).toUInt8, (x >>> 16).toUInt8, (x >>> 24).toUInt8]

theorem toNat_toUInt32_shiftLeft (b : UInt8) (hk : k ≤ 24) :
    (b.toUInt32 <<< UInt32.ofNat k).toNat = b.toNat <<< k := by
  have hb := b.toNat_lt
  have hle : b.toNat * 2 ^ k ≤ b.toNat * 2 ^ 24 :=
    Nat.mul_le_mul_left _ (Nat.pow_le_pow_right (by decide) hk)
  have hmod : (UInt32.ofNat k).toNat % 32 = k := by
    rw [UInt32.toNat_ofNat']
    omega
  rw [UInt32.toNat_shiftLeft, toNat_toUInt32, hmod]
  omega

theorem toNat_le24 (b0 b1 b2 : UInt8) :
    (le24 b0 b1 b2).toNat = b0.toNat + 2 ^ 8 * (b1.toNat + 2 ^ 8 * b2.toNat) := by
  have h0 := b0.toNat_lt
  have h1 := b1.toNat_lt
  have hlow : b1.toNat <<< 8 + b0.toNat < 2 ^ 16 := by
    omega
  rw [le24, UInt32.toNat_or, UInt32.toNat_or,
    show (8 : UInt32) = UInt32.ofNat 8 from rfl, show (16 : UInt32) = UInt32.ofNat 16 from rfl,
    toNat_toUInt32_shiftLeft b1 (by decide), toNat_toUInt32_shiftLeft b2 (by decide),
    toNat_toUInt32, Nat.or_comm b0.toNat, ← Nat.shiftLeft_add_eq_or_of_lt h0, Nat.or_comm,
    ← Nat.shiftLeft_add_eq_or_of_lt hlow]
  omega

theorem toNat_le24_lt (b0 b1 b2 : UInt8) : (le24 b0 b1 b2).toNat < 2 ^ 24 := by
  have h0 := b0.toNat_lt
  have h1 := b1.toNat_lt
  have h2 := b2.toNat_lt
  rw [toNat_le24]
  omega

theorem toNat_le32 (b0 b1 b2 b3 : UInt8) :
    (le32 b0 b1 b2 b3).toNat =
      b0.toNat + 2 ^ 8 * (b1.toNat + 2 ^ 8 * (b2.toNat + 2 ^ 8 * b3.toNat)) := by
  rw [le32, UInt32.toNat_or, show (24 : UInt32) = UInt32.ofNat 24 from rfl,
    toNat_toUInt32_shiftLeft b3 (by decide), Nat.or_comm,
    ← Nat.shiftLeft_add_eq_or_of_lt (toNat_le24_lt b0 b1 b2), toNat_le24]
  omega

theorem toNat_le16 : (le16 b0 b1).toNat = b0.toNat + 2 ^ 8 * b1.toNat := by
  have h0 := b0.toNat_lt
  have h1 := b1.toNat_lt
  have hhigh : (b1.toUInt16 <<< 8).toNat = b1.toNat <<< 8 := by
    rw [UInt16.toNat_shiftLeft, toNat_toUInt16, show UInt16.toNat 8 % 16 = 8 from rfl]
    omega
  rw [le16, UInt16.toNat_or, hhigh, toNat_toUInt16, Nat.or_comm, ← Nat.shiftLeft_add_eq_or_of_lt h0]
  omega

theorem toNat_byte_shiftRight (x : UInt32) (hk : k < 32) :
    (x >>> UInt32.ofNat k).toUInt8.toNat = x.toNat / 2 ^ k % 2 ^ 8 := by
  have hmod : (UInt32.ofNat k).toNat % 32 = k := by
    rw [UInt32.toNat_ofNat']
    omega
  rw [UInt32.toNat_toUInt8, UInt32.toNat_shiftRight, hmod, Nat.shiftRight_eq_div_pow]

theorem le16_le16Bytes (x : UInt16) : le16 x.toUInt8 (x >>> 8).toUInt8 = x := by
  have hx := x.toNat_lt
  apply UInt16.toNat_inj.mp
  rw [toNat_le16, UInt16.toNat_toUInt8, UInt16.toNat_toUInt8, UInt16.toNat_shiftRight,
    show UInt16.toNat 8 % 16 = 8 from rfl]
  omega

theorem le16Bytes_le16 : le16Bytes (le16 b0 b1) = [b0, b1] := by
  have h0 := b0.toNat_lt
  have h1 := b1.toNat_lt
  have hlow : (le16 b0 b1).toUInt8 = b0 := by
    apply UInt8.toNat_inj.mp
    rw [UInt16.toNat_toUInt8, toNat_le16]
    omega
  have hhigh : (le16 b0 b1 >>> 8).toUInt8 = b1 := by
    apply UInt8.toNat_inj.mp
    rw [UInt16.toNat_toUInt8, UInt16.toNat_shiftRight, show UInt16.toNat 8 % 16 = 8 from rfl, toNat_le16]
    omega
  rw [le16Bytes, hlow, hhigh]

theorem drop_eq_le16Bytes_append (h : k + 1 < l.length) :
    l.drop k = le16Bytes (le16 (byteAt l k) (byteAt l (k + 1))) ++ l.drop (k + 2) := by
  rw [le16Bytes_le16, drop_eq_cons (by omega), drop_eq_cons h]
  rfl

theorem forall_uint8 {P : UInt8 → Prop} (h : ∀ b : Fin 256, P (.ofFin b)) (b : UInt8) : P b := h b.toFin

theorem le16_of_append {x : UInt16} (h : l.drop k = le16Bytes x ++ t) :
    le16 (byteAt l k) (byteAt l (k + 1)) = x := by
  rw [byteAt_of_cons h, byteAt_of_append h 1]
  exact le16_le16Bytes x

theorem be16_eq_le16 : be16 b0 b1 = le16 b1 b0 := UInt16.or_comm _ _

theorem le32_le32Bytes (x : UInt32) :
    le32 x.toUInt8 (x >>> 8).toUInt8 (x >>> 16).toUInt8 (x >>> 24).toUInt8 = x := by
  have hx := x.toNat_lt
  apply UInt32.toNat_inj.mp
  rw [toNat_le32, UInt32.toNat_toUInt8, show (8 : UInt32) = UInt32.ofNat 8 from rfl,
    show (16 : UInt32) = UInt32.ofNat 16 from rfl, show (24 : UInt32) = UInt32.ofNat 24 from rfl,
    toNat_byte_shiftRight x (by decide), toNat_byte_shiftRight x (by decide),
    toNat_byte_shiftRight x (by decide)]
  omega

/-- `nfc_apdu_t`. The data pointer is NULL exactly when `lc` is 0, so the pair of them is
the list of data bytes. -/
structure Apdu where
  cla : UInt8
  ins : UInt8
  p1 : UInt8
  p2 : UInt8
  data : Bytes
  le : UInt16
  hasLe : Bool
  extended : Bool
deriving DecidableEq, Repr

def Apdu.lc (a : Apdu) : ℕ := a.data.length

def maxResponseLen : ℕ := 255

inductive PersistId
  | ndef | desfire | ultralight | emv | aliro | classic | felica | iso15693 | slix | st25tb
deriving DecidableEq, Repr

def PersistId.code : PersistId → UInt8
  | .ndef => 0x01
  | .desfire => 0x02
  | .ultralight => 0x03
  | .emv => 0x04
  | .aliro => 0x05
  | .classic => 0x06
  | .felica => 0x07
  | .iso15693 => 0x08
  | .slix => 0x09
  | .st25tb => 0x0A

inductive StatusWord
  | ok | wrongLength | claNotSupported | insNotSupported | wrongP1P2 | fileNotFound
  | wrongOffset | noEf | conditionsNotSat
deriving DecidableEq, Repr

def StatusWord.bytes : StatusWord → Bytes
  | .ok => [0x90, 0x00]
  | .wrongLength => [0x67, 0x00]
  | .claNotSupported => [0x6E, 0x00]
  | .insNotSupported => [0x6D, 0x00]
  | .wrongP1P2 => [0x6A, 0x86]
  | .fileNotFound => [0x6A, 0x82]
  | .wrongOffset => [0x6B, 0x00]
  | .noEf => [0x69, 0x86]
  | .conditionsNotSat => [0x69, 0x85]

end NfcStack
