import NfcStack.Lib.BlockCipher
import NfcStack.Basic

/-!
# The block cipher of Ultralight C

`ultralight_des.c` is single DES, and `ultralight_3des.c` chains the triple cipher of it. The rounds are a
Feistel network, so what was encrypted is decrypted, whatever the tables hold.
-/

namespace NfcStack.Ultralight

open List BlockCipher UInt8 BitVec

abbrev Word := BitVec 32

def sb1 : List Word := [ 0x01010400, 0x00000000, 0x00010000, 0x01010404, 0x01010004, 0x00010404,
    0x00000004, 0x00010000, 0x00000400, 0x01010400, 0x01010404, 0x00000400,
    0x01000404, 0x01010004, 0x01000000, 0x00000004, 0x00000404, 0x01000400,
    0x01000400, 0x00010400, 0x00010400, 0x01010000, 0x01010000, 0x01000404,
    0x00010004, 0x01000004, 0x01000004, 0x00010004, 0x00000000, 0x00000404,
    0x00010404, 0x01000000, 0x00010000, 0x01010404, 0x00000004, 0x01010000,
    0x01010400, 0x01000000, 0x01000000, 0x00000400, 0x01010004, 0x00010000,
    0x00010400, 0x01000004, 0x00000400, 0x00000004, 0x01000404, 0x00010404,
    0x01010404, 0x00010004, 0x01010000, 0x01000404, 0x01000004, 0x00000404,
    0x00010404, 0x01010400, 0x00000404, 0x01000400, 0x01000400, 0x00000000,
    0x00010004, 0x00010400, 0x00000000, 0x01010004]

def sb2 : List Word := [ 0x80108020, 0x80008000, 0x00008000, 0x00108020, 0x00100000, 0x00000020,
    0x80100020, 0x80008020, 0x80000020, 0x80108020, 0x80108000, 0x80000000,
    0x80008000, 0x00100000, 0x00000020, 0x80100020, 0x00108000, 0x00100020,
    0x80008020, 0x00000000, 0x80000000, 0x00008000, 0x00108020, 0x80100000,
    0x00100020, 0x80000020, 0x00000000, 0x00108000, 0x00008020, 0x80108000,
    0x80100000, 0x00008020, 0x00000000, 0x00108020, 0x80100020, 0x00100000,
    0x80008020, 0x80100000, 0x80108000, 0x00008000, 0x80100000, 0x80008000,
    0x00000020, 0x80108020, 0x00108020, 0x00000020, 0x00008000, 0x80000000,
    0x00008020, 0x80108000, 0x00100000, 0x80000020, 0x00100020, 0x80008020,
    0x80000020, 0x00100020, 0x00108000, 0x00000000, 0x80008000, 0x00008020,
    0x80000000, 0x80100020, 0x80108020, 0x00108000]

def sb3 : List Word := [ 0x00000208, 0x08020200, 0x00000000, 0x08020008, 0x08000200, 0x00000000,
    0x00020208, 0x08000200, 0x00020008, 0x08000008, 0x08000008, 0x00020000,
    0x08020208, 0x00020008, 0x08020000, 0x00000208, 0x08000000, 0x00000008,
    0x08020200, 0x00000200, 0x00020200, 0x08020000, 0x08020008, 0x00020208,
    0x08000208, 0x00020200, 0x00020000, 0x08000208, 0x00000008, 0x08020208,
    0x00000200, 0x08000000, 0x08020200, 0x08000000, 0x00020008, 0x00000208,
    0x00020000, 0x08020200, 0x08000200, 0x00000000, 0x00000200, 0x00020008,
    0x08020208, 0x08000200, 0x08000008, 0x00000200, 0x00000000, 0x08020008,
    0x08000208, 0x00020000, 0x08000000, 0x08020208, 0x00000008, 0x00020208,
    0x00020200, 0x08000008, 0x08020000, 0x08000208, 0x00000208, 0x08020000,
    0x00020208, 0x00000008, 0x08020008, 0x00020200]

def sb4 : List Word := [ 0x00802001, 0x00002081, 0x00002081, 0x00000080, 0x00802080, 0x00800081,
    0x00800001, 0x00002001, 0x00000000, 0x00802000, 0x00802000, 0x00802081,
    0x00000081, 0x00000000, 0x00800080, 0x00800001, 0x00000001, 0x00002000,
    0x00800000, 0x00802001, 0x00000080, 0x00800000, 0x00002001, 0x00002080,
    0x00800081, 0x00000001, 0x00002080, 0x00800080, 0x00002000, 0x00802080,
    0x00802081, 0x00000081, 0x00800080, 0x00800001, 0x00802000, 0x00802081,
    0x00000081, 0x00000000, 0x00000000, 0x00802000, 0x00002080, 0x00800080,
    0x00800081, 0x00000001, 0x00802001, 0x00002081, 0x00002081, 0x00000080,
    0x00802081, 0x00000081, 0x00000001, 0x00002000, 0x00800001, 0x00002001,
    0x00802080, 0x00800081, 0x00002001, 0x00002080, 0x00800000, 0x00802001,
    0x00000080, 0x00800000, 0x00002000, 0x00802080]

def sb5 : List Word := [ 0x00000100, 0x02080100, 0x02080000, 0x42000100, 0x00080000, 0x00000100,
    0x40000000, 0x02080000, 0x40080100, 0x00080000, 0x02000100, 0x40080100,
    0x42000100, 0x42080000, 0x00080100, 0x40000000, 0x02000000, 0x40080000,
    0x40080000, 0x00000000, 0x40000100, 0x42080100, 0x42080100, 0x02000100,
    0x42080000, 0x40000100, 0x00000000, 0x42000000, 0x02080100, 0x02000000,
    0x42000000, 0x00080100, 0x00080000, 0x42000100, 0x00000100, 0x02000000,
    0x40000000, 0x02080000, 0x42000100, 0x40080100, 0x02000100, 0x40000000,
    0x42080000, 0x02080100, 0x40080100, 0x00000100, 0x02000000, 0x42080000,
    0x42080100, 0x00080100, 0x42000000, 0x42080100, 0x02080000, 0x00000000,
    0x40080000, 0x42000000, 0x00080100, 0x02000100, 0x40000100, 0x00080000,
    0x00000000, 0x40080000, 0x02080100, 0x40000100]

def sb6 : List Word := [ 0x20000010, 0x20400000, 0x00004000, 0x20404010, 0x20400000, 0x00000010,
    0x20404010, 0x00400000, 0x20004000, 0x00404010, 0x00400000, 0x20000010,
    0x00400010, 0x20004000, 0x20000000, 0x00004010, 0x00000000, 0x00400010,
    0x20004010, 0x00004000, 0x00404000, 0x20004010, 0x00000010, 0x20400010,
    0x20400010, 0x00000000, 0x00404010, 0x20404000, 0x00004010, 0x00404000,
    0x20404000, 0x20000000, 0x20004000, 0x00000010, 0x20400010, 0x00404000,
    0x20404010, 0x00400000, 0x00004010, 0x20000010, 0x00400000, 0x20004000,
    0x20000000, 0x00004010, 0x20000010, 0x20404010, 0x00404000, 0x20400000,
    0x00404010, 0x20404000, 0x00000000, 0x20400010, 0x00000010, 0x00004000,
    0x20400000, 0x00404010, 0x00004000, 0x00400010, 0x20004010, 0x00000000,
    0x20404000, 0x20000000, 0x00400010, 0x20004010]

def sb7 : List Word := [ 0x00200000, 0x04200002, 0x04000802, 0x00000000, 0x00000800, 0x04000802,
    0x00200802, 0x04200800, 0x04200802, 0x00200000, 0x00000000, 0x04000002,
    0x00000002, 0x04000000, 0x04200002, 0x00000802, 0x04000800, 0x00200802,
    0x00200002, 0x04000800, 0x04000002, 0x04200000, 0x04200800, 0x00200002,
    0x04200000, 0x00000800, 0x00000802, 0x04200802, 0x00200800, 0x00000002,
    0x04000000, 0x00200800, 0x04000000, 0x00200800, 0x00200000, 0x04000802,
    0x04000802, 0x04200002, 0x04200002, 0x00000002, 0x00200002, 0x04000000,
    0x04000800, 0x00200000, 0x04200800, 0x00000802, 0x00200802, 0x04200800,
    0x00000802, 0x04000002, 0x04200802, 0x04200000, 0x00200800, 0x00000000,
    0x00000002, 0x04200802, 0x00000000, 0x00200802, 0x04200000, 0x00000800,
    0x04000002, 0x04000800, 0x00000800, 0x00200002]

def sb8 : List Word := [ 0x10001040, 0x00001000, 0x00040000, 0x10041040, 0x10000000, 0x10001040,
    0x00000040, 0x10000000, 0x00040040, 0x10040000, 0x10041040, 0x00041000,
    0x10041000, 0x00041040, 0x00001000, 0x00000040, 0x10040000, 0x10000040,
    0x10001000, 0x00001040, 0x00041000, 0x00040040, 0x10040040, 0x10041000,
    0x00001040, 0x00000000, 0x00000000, 0x10040040, 0x10000040, 0x10001000,
    0x00041040, 0x00040000, 0x00041040, 0x00040000, 0x10041000, 0x00001000,
    0x00000040, 0x10040040, 0x00001000, 0x00041040, 0x10001000, 0x00000040,
    0x10000040, 0x10040000, 0x10040040, 0x10000000, 0x00040000, 0x10001040,
    0x00000000, 0x10041040, 0x00040040, 0x10000040, 0x10040000, 0x10001000,
    0x10001040, 0x00000000, 0x10041040, 0x00041000, 0x00041000, 0x00001040,
    0x00001040, 0x00040040, 0x10000000, 0x10041000]

def lhs : List Word := [ 0x00000000, 0x00000001, 0x00000100, 0x00000101, 0x00010000, 0x00010001,
    0x00010100, 0x00010101, 0x01000000, 0x01000001, 0x01000100, 0x01000101,
    0x01010000, 0x01010001, 0x01010100, 0x01010101]

def rhs : List Word := [ 0x00000000, 0x01000000, 0x00010000, 0x01010000, 0x00000100, 0x01000100,
    0x00010100, 0x01010100, 0x00000001, 0x01000001, 0x00010001, 0x01010001,
    0x00000101, 0x01000101, 0x00010101, 0x01010101]

variable (table : List Word) (t : Word)

def sb : Word := table.getD (t &&& 0x3F).toNat 0

def hs : Word := table.getD (t &&& 0xF).toNat 0

def getUint32Be (b : Bytes) (i : ℕ) : Word :=
  ((byteAt b i).toBitVec.setWidth 32 <<< 24) |||
    ((byteAt b (i + 1)).toBitVec.setWidth 32 <<< 16) |||
    ((byteAt b (i + 2)).toBitVec.setWidth 32 <<< 8) ||| (byteAt b (i + 3)).toBitVec.setWidth 32

def putUint32Be (n : Word) : Bytes :=
  [UInt8.ofBitVec ((n >>> 24).setWidth 8), UInt8.ofBitVec ((n >>> 16).setWidth 8),
    UInt8.ofBitVec ((n >>> 8).setWidth 8), UInt8.ofBitVec (n.setWidth 8)]

def rotateKey (k : ℕ) (x : Word) : Word := ((x <<< k) ||| (x >>> (28 - k))) &&& 0x0FFFFFFF

def subkeyFirst (x y : Word) : Word :=
  ((x <<< 4) &&& 0x24000000) ||| ((x <<< 28) &&& 0x10000000) ||| ((x <<< 14) &&& 0x08000000) |||
    ((x <<< 18) &&& 0x02080000) ||| ((x <<< 6) &&& 0x01000000) ||| ((x <<< 9) &&& 0x00200000) |||
    ((x >>> 1) &&& 0x00100000) ||| ((x <<< 10) &&& 0x00040000) ||| ((x <<< 2) &&& 0x00020000) |||
    ((x >>> 10) &&& 0x00010000) ||| ((y >>> 13) &&& 0x00002000) |||
    ((y >>> 4) &&& 0x00001000) ||| ((y <<< 6) &&& 0x00000800) ||| ((y >>> 1) &&& 0x00000400) |||
    ((y >>> 14) &&& 0x00000200) ||| (y &&& 0x00000100) ||| ((y >>> 5) &&& 0x00000020) |||
    ((y >>> 10) &&& 0x00000010) ||| ((y >>> 3) &&& 0x00000008) |||
    ((y >>> 18) &&& 0x00000004) ||| ((y >>> 26) &&& 0x00000002) ||| ((y >>> 24) &&& 0x00000001)

def subkeySecond (x y : Word) : Word :=
  ((x <<< 15) &&& 0x20000000) ||| ((x <<< 17) &&& 0x10000000) ||| ((x <<< 10) &&& 0x08000000) |||
    ((x <<< 22) &&& 0x04000000) ||| ((x >>> 2) &&& 0x02000000) ||| ((x <<< 1) &&& 0x01000000) |||
    ((x <<< 16) &&& 0x00200000) ||| ((x <<< 11) &&& 0x00100000) |||
    ((x <<< 3) &&& 0x00080000) ||| ((x >>> 6) &&& 0x00040000) ||| ((x <<< 15) &&& 0x00020000) |||
    ((x >>> 4) &&& 0x00010000) ||| ((y >>> 2) &&& 0x00002000) ||| ((y <<< 8) &&& 0x00001000) |||
    ((y >>> 14) &&& 0x00000808) ||| ((y >>> 9) &&& 0x00000400) ||| (y &&& 0x00000200) |||
    ((y <<< 7) &&& 0x00000100) ||| ((y >>> 7) &&& 0x00000020) ||| ((y >>> 3) &&& 0x00000011) |||
    ((y <<< 2) &&& 0x00000004) ||| ((y >>> 21) &&& 0x00000002)

def setkeyLoop : (n i : ℕ) → (x y : Word) → List (Word × Word)
  | 0, _, _, _ => []
  | n + 1, i, x, y =>
    let k := if i < 2 ∨ i = 8 ∨ i = 15 then 1 else 2
    let x := rotateKey k x
    let y := rotateKey k y
    (subkeyFirst x y, subkeySecond x y) :: setkeyLoop n (i + 1) x y

def leftHalf (x : Word) : Word :=
  (hs lhs x <<< 3) ||| (hs lhs (x >>> 8) <<< 2) ||| (hs lhs (x >>> 16) <<< 1) |||
    hs lhs (x >>> 24) ||| (hs lhs (x >>> 5) <<< 7) ||| (hs lhs (x >>> 13) <<< 6) |||
    (hs lhs (x >>> 21) <<< 5) ||| (hs lhs (x >>> 29) <<< 4)

def rightHalf (y : Word) : Word :=
  (hs rhs (y >>> 1) <<< 3) ||| (hs rhs (y >>> 9) <<< 2) ||| (hs rhs (y >>> 17) <<< 1) |||
    hs rhs (y >>> 25) ||| (hs rhs (y >>> 4) <<< 7) ||| (hs rhs (y >>> 12) <<< 6) |||
    (hs rhs (y >>> 20) <<< 5) ||| (hs rhs (y >>> 28) <<< 4)

variable (key : Bytes)

/-- `ultralight_des_setkey`. -/
def desSetkey : List (Word × Word) :=
  -- the two words of the key as `Y` and `X`
  let b := swapMove 4 0x0F0F0F0F (getUint32Be key 4, getUint32Be key 0)
  let b := swapMove 0 0x10101010 b
  setkeyLoop 16 0 (leftHalf b.2 &&& 0x0FFFFFFF) (rightHalf b.1 &&& 0x0FFFFFFF)

def swapSubkeys (sk : List (Word × Word)) (i j : ℕ) : List (Word × Word) :=
  (sk.set i (sk.getD j (0, 0))).set j (sk.getD i (0, 0))

def desSetkeyEnc : List (Word × Word) := desSetkey key

def desSetkeyDec : List (Word × Word) :=
  (List.range 8).foldl (fun sk i => swapSubkeys sk i (15 - i)) (desSetkey key)

def desIp (b : Word × Word) : Word × Word :=
  let b := swapMove 4 0x0F0F0F0F b
  let b := swapMove 16 0x0000FFFF b
  let b := (swapMove 2 0x33333333 b.swap).swap
  let b := (swapMove 8 0x00FF00FF b.swap).swap
  let b := b.map id (rotate 1 31)
  let b := swapMove 0 0xAAAAAAAA b
  b.map (rotate 1 31) id

def desFp (b : Word × Word) : Word × Word :=
  let b := b.map (rotate 31 1) id
  let b := swapMove 0 0xAAAAAAAA b
  let b := b.map id (rotate 31 1)
  let b := (swapMove 8 0x00FF00FF b.swap).swap
  let b := (swapMove 2 0x33333333 b.swap).swap
  let b := swapMove 16 0x0000FFFF b
  swapMove 4 0x0F0F0F0F b

def desRound (sk : Word × Word) (x y : Word) : Word :=
  let t := sk.1 ^^^ x
  let y := y ^^^ (sb sb8 t ^^^ sb sb6 (t >>> 8) ^^^ sb sb4 (t >>> 16) ^^^ sb sb2 (t >>> 24))
  let t := sk.2 ^^^ rotate 28 4 x
  y ^^^ (sb sb7 t ^^^ sb sb5 (t >>> 8) ^^^ sb sb3 (t >>> 16) ^^^ sb sb1 (t >>> 24))

def cryptLoop : List (Word × Word) → Word × Word → Word × Word
  | k :: k' :: sk, (x, y) =>
    let x := desRound k y x
    let y := desRound k' x y
    cryptLoop sk (x, y)
  | _, b => b

abbrev Block := CArray UInt8 8

/-- `ultralight_des_crypt_ecb`. The input is read before the output is written, so they may be the
same block. -/
def desCryptEcb (sk : List (Word × Word)) (input : Block) : Block :=
  let b := desIp (getUint32Be input.toList 0, getUint32Be input.toList 4)
  let b := desFp (cryptLoop sk b).swap
  ⟨putUint32Be b.1 ++ putUint32Be b.2, rfl⟩

def tdes2Block (input : Block) (decrypt : Bool) : Block :=
  if decrypt = false then
    let tmp := desCryptEcb (desSetkeyEnc key) input
    let tmp := desCryptEcb (desSetkeyDec (key.drop 8)) tmp
    desCryptEcb (desSetkeyEnc key) tmp
  else
    let tmp := desCryptEcb (desSetkeyDec key) input
    let tmp := desCryptEcb (desSetkeyEnc (key.drop 8)) tmp
    desCryptEcb (desSetkeyDec key) tmp

def xorBlock (a b : Block) : Block := ⟨List.zipWith (· ^^^ ·) a.toList b.toList, by simp⟩

def blocks : Bytes → List Block
  | b0 :: b1 :: b2 :: b3 :: b4 :: b5 :: b6 :: b7 :: rest =>
    ⟨[b0, b1, b2, b3, b4, b5, b6, b7], rfl⟩ :: blocks rest
  | _ => []

/-- `ultralight_3des_encrypt`. -/
def tdesEncrypt (key iv input : Bytes) : Bytes :=
  (cbcEncrypt xorBlock (tdes2Block key · false) (.ofList 8 0 iv) (blocks input)).flatMap
    CArray.toList

def tdesDecrypt (key iv input : Bytes) : Bytes :=
  (cbcDecrypt xorBlock (tdes2Block key · true) (.ofList 8 0 iv) (blocks input)).flatMap
    CArray.toList

example : (desCryptEcb (desSetkeyEnc [0x13, 0x34, 0x57, 0x79, 0x9B, 0xBC, 0xDF, 0xF1])
    ⟨[0x01, 0x23, 0x45, 0x67, 0x89, 0xAB, 0xCD, 0xEF], rfl⟩).toList =
      [0x85, 0xE8, 0x13, 0x54, 0x0F, 0x0A, 0xB4, 0x05] := by decide +kernel

theorem getLsbD_shiftLeft_byte (x : UInt8) (k : ℕ) {q j : ℕ} (hq : q < 4) (hj : j < 8) :
    (x.toBitVec.setWidth 32 <<< (8 * k)).getLsbD (8 * q + j) =
      (decide (q = k) && x.toBitVec.getLsbD j) := by
  rw [getLsbD_shiftLeft, getLsbD_setWidth]
  rcases Nat.lt_trichotomy q k with h | rfl | h
  · rw [decide_eq_true (show 8 * q + j < 8 * k by omega), decide_eq_false (show q ≠ k by omega)]
    simp
  · rw [Nat.add_sub_cancel_left, decide_eq_true (show 8 * q + j < 32 by omega),
      decide_eq_true (show j < 32 by omega)]
    simp
  · rw [getLsbD_of_ge x.toBitVec _ (by omega), decide_eq_false (show q ≠ k by omega)]
    simp

theorem getLsbD_getUint32Be (b : Bytes) (i : ℕ) {q j : ℕ} (hq : q < 4) (hj : j < 8) :
    (getUint32Be b i).getLsbD (8 * q + j) = (byteAt b (i + (3 - q))).toBitVec.getLsbD j := by
  have hword : getUint32Be b i = ((byteAt b i).toBitVec.setWidth 32 <<< (8 * 3)) |||
      ((byteAt b (i + 1)).toBitVec.setWidth 32 <<< (8 * 2)) |||
      ((byteAt b (i + 2)).toBitVec.setWidth 32 <<< (8 * 1)) |||
      ((byteAt b (i + 3)).toBitVec.setWidth 32 <<< (8 * 0)) := by
    rw [BitVec.shiftLeft_zero]
    rfl
  simp only [hword, BitVec.getLsbD_or, getLsbD_shiftLeft_byte _ _ hq hj]
  interval_cases q <;> simp

theorem getLsbD_putUint32Be (n : Word) {q j : ℕ} (hq : q < 4) (hj : j < 8) :
    (byteAt (putUint32Be n) (3 - q)).toBitVec.getLsbD j = n.getLsbD (8 * q + j) := by
  interval_cases q <;> simp [putUint32Be, byteAt, hj]

theorem getUint32Be_eq {b : Bytes} {i : ℕ} {n : Word}
    (h : ∀ k < 4, byteAt b (i + k) = byteAt (putUint32Be n) k) : getUint32Be b i = n := by
  apply eq_of_getLsbD_eq
  intro p hp
  have hj : p % 8 < 8 := Nat.mod_lt _ (by decide)
  have hq : p / 8 < 4 := by omega
  rw [← Nat.div_add_mod p 8, getLsbD_getUint32Be b i hq hj, h _ (by omega),
    getLsbD_putUint32Be n hq hj]

theorem putUint32Be_getUint32Be (b : Bytes) (i : ℕ) :
    putUint32Be (getUint32Be b i) =
      [byteAt b i, byteAt b (i + 1), byteAt b (i + 2), byteAt b (i + 3)] := by
  have hbyte : ∀ q < 4, byteAt (putUint32Be (getUint32Be b i)) (3 - q) = byteAt b (i + (3 - q)) := by
    intro q hq
    apply UInt8.toBitVec_inj.mp
    apply BitVec.eq_of_getLsbD_eq
    intro j hj
    rw [getLsbD_putUint32Be _ hq hj, getLsbD_getUint32Be b i hq hj]
  exact congrArg₂ _ (hbyte 3 (by decide)) (congrArg₂ _ (hbyte 2 (by decide))
    (congrArg₂ _ (hbyte 1 (by decide)) (congrArg (fun x => [x]) (hbyte 0 (by decide)))))

def words (b : Block) : Word × Word := (getUint32Be b.toList 0, getUint32Be b.toList 4)

def ofWords (b : Word × Word) : Block := ⟨putUint32Be b.1 ++ putUint32Be b.2, rfl⟩

variable (b : Word × Word)

theorem words_ofWords : words (ofWords b) = b := by
  apply Prod.ext
  · apply getUint32Be_eq
    intro k hk
    interval_cases k <;> rfl
  · apply getUint32Be_eq
    intro k hk
    interval_cases k <;> rfl

theorem ofWords_words (b : Block) : ofWords (words b) = b := by
  obtain ⟨l, hl⟩ := b
  match l, hl with
  | [b0, b1, b2, b3, b4, b5, b6, b7], hl =>
    simp only [ofWords, words, putUint32Be_getUint32Be]
    rfl

def desMix (sk : Word × Word) (x : Word) : Word := desRound sk x 0#32

theorem desRound_eq (sk : Word × Word) (x y : Word) : desRound sk x y = y ^^^ desMix sk x := by
  simp only [desMix, desRound, zero_xor, xor_assoc]

theorem cryptLoop_eq : ∀ {sk : List (Word × Word)}, sk.length % 2 = 0 → ∀ b : Word × Word,
    cryptLoop sk b = feistel (· ^^^ ·) desMix sk b
  | [], _, _ => rfl
  | [_], h, _ => absurd h (by simp)
  | k :: k' :: sk, h, (x, y) => by
    have hlen : sk.length % 2 = 0 := by
      simp only [length_cons] at h
      omega
    rw [cryptLoop, cryptLoop_eq hlen]
    simp only [feistel, feistelRound, desRound_eq]

theorem desFp_desIp : desFp (desIp b) = b := by
  simp (disch := decide) only [desFp, desIp, Prod.map_map, rotate_comp_rotate, swapMove_swapMove,
    Prod.swap_swap, Function.id_comp, Prod.map_id, id]

theorem desIp_desFp : desIp (desFp b) = b := by
  simp (disch := decide) only [desFp, desIp, Prod.map_map, rotate_comp_rotate, swapMove_swapMove,
    Prod.swap_swap, Function.id_comp, Prod.map_id, id]

theorem length_setkeyLoop (n i : ℕ) (x y : Word) : (setkeyLoop n i x y).length = n := by
  induction n generalizing i x y with
  | zero => rfl
  | succ n ih => simp only [setkeyLoop, length_cons, ih]

variable (key : Bytes)

theorem length_desSetkey : (desSetkey key).length = 16 :=
  length_setkeyLoop 16 0 _ _

theorem desSetkeyDec_eq : desSetkeyDec key = (desSetkeyEnc key).reverse := by
  have hsixteen : ∀ sk : List (Word × Word), sk.length = 16 →
      (List.range 8).foldl (fun sk i => swapSubkeys sk i (15 - i)) sk = sk.reverse := by
    intro sk h
    match sk, h with
    | [_, _, _, _, _, _, _, _, _, _, _, _, _, _, _, _], _ =>
      simp [range_succ, swapSubkeys]
  exact hsixteen _ (length_desSetkey key)

variable {sk : List (Word × Word)}

theorem desCryptEcb_eq (h : sk.length = 16) (b : Block) :
    desCryptEcb sk b = ofWords (desFp (feistel (· ^^^ ·) desMix sk (desIp (words b))).swap) := by
  rw [← cryptLoop_eq (by rw [h])]
  rfl

theorem desCryptEcb_reverse (h : sk.length = 16) (b : Block) :
    desCryptEcb sk.reverse (desCryptEcb sk b) = b := by
  have hcancel : ∀ x y : Word, (x ^^^ y) ^^^ y = x := by
    intro x y
    rw [BitVec.xor_assoc, BitVec.xor_self, BitVec.xor_zero]
  rw [desCryptEcb_eq h, desCryptEcb_eq (by rw [length_reverse, h]), words_ofWords,
    desIp_desFp, feistel_reverse desMix hcancel, Prod.swap_swap, desFp_desIp, ofWords_words]

theorem desCryptEcb_dec_enc (b : Block) :
    desCryptEcb (desSetkeyDec key) (desCryptEcb (desSetkeyEnc key) b) = b := by
  rw [desSetkeyDec_eq]
  exact desCryptEcb_reverse (length_desSetkey key) b

theorem desCryptEcb_enc_dec (b : Block) :
    desCryptEcb (desSetkeyEnc key) (desCryptEcb (desSetkeyDec key) b) = b := by
  have hlen : (desSetkeyDec key).length = 16 := by
    rw [desSetkeyDec_eq]
    exact length_desSetkey key
  have h := desCryptEcb_reverse hlen b
  rwa [desSetkeyDec_eq, reverse_reverse, ← desSetkeyDec_eq] at h

theorem tdes2Block_decrypt (b : Block) : tdes2Block key (tdes2Block key b false) true = b := by
  show desCryptEcb (desSetkeyDec key) (desCryptEcb (desSetkeyEnc (key.drop 8))
    (desCryptEcb (desSetkeyDec key) (desCryptEcb (desSetkeyEnc key)
      (desCryptEcb (desSetkeyDec (key.drop 8)) (desCryptEcb (desSetkeyEnc key) b))))) = b
  rw [desCryptEcb_dec_enc, desCryptEcb_enc_dec, desCryptEcb_dec_enc]

theorem tdes2Block_encrypt (b : Block) : tdes2Block key (tdes2Block key b true) false = b := by
  show desCryptEcb (desSetkeyEnc key) (desCryptEcb (desSetkeyDec (key.drop 8))
    (desCryptEcb (desSetkeyEnc key) (desCryptEcb (desSetkeyDec key)
      (desCryptEcb (desSetkeyEnc (key.drop 8)) (desCryptEcb (desSetkeyDec key) b))))) = b
  rw [desCryptEcb_enc_dec, desCryptEcb_dec_enc, desCryptEcb_enc_dec]

theorem xorBlock_xorBlock (a b : Block) : xorBlock (xorBlock a b) b = a := by
  apply CArray.ext
  apply ext_getElem (by simp)
  intro i h _
  simp only [xorBlock, getElem_zipWith]
  rw [UInt8.xor_assoc, UInt8.xor_self, UInt8.xor_zero]

theorem blocks_append (b : Block) (rest : Bytes) :
    blocks (b.toList ++ rest) = b :: blocks rest := by
  obtain ⟨l, hl⟩ := b
  match l, hl with
  | [_, _, _, _, _, _, _, _], _ => rfl

variable (bs : List Block)

theorem blocks_flatMap : blocks (bs.flatMap CArray.toList) = bs := by
  induction bs with
  | nil => rfl
  | cons b bs ih => rw [flatMap_cons, blocks_append, ih]

variable {input : Bytes} {n : ℕ}

theorem exists_blocks (h : input.length = 8 * n) :
    ∃ bs : List Block, bs.length = n ∧ input = bs.flatMap CArray.toList := by
  induction n generalizing input with
  | zero => exact ⟨[], rfl, eq_nil_of_length_eq_zero h⟩
  | succ n ih =>
    obtain ⟨bs, hn, hrest⟩ := ih (show (input.drop 8).length = 8 * n by
      rw [length_drop]
      omega)
    have hfirst : (input.take 8).length = 8 := by
      rw [length_take]
      omega
    refine ⟨⟨input.take 8, hfirst⟩ :: bs, by rw [length_cons, hn], ?_⟩
    rw [flatMap_cons, ← hrest, take_append_drop]

theorem length_flatMap_blocks : (bs.flatMap CArray.toList).length = 8 * bs.length := by
  induction bs with
  | nil => rfl
  | cons b bs ih =>
    rw [flatMap_cons, length_append, b.length_toList, length_cons]
    omega

theorem length_tdesEncrypt (key iv : Bytes) (h : input.length = 8 * n) :
    (tdesEncrypt key iv input).length = 8 * n := by
  obtain ⟨bs, hn, rfl⟩ := exists_blocks h
  rw [tdesEncrypt, length_flatMap_blocks, length_cbcEncrypt, blocks_flatMap, hn]

theorem tdesDecrypt_tdesEncrypt (key iv : Bytes) (h : input.length = 8 * n) : tdesDecrypt key iv
    (tdesEncrypt key iv input) = input := by
  obtain ⟨bs, -, rfl⟩ := exists_blocks h
  rw [tdesDecrypt, tdesEncrypt, blocks_flatMap, blocks_flatMap,
    cbcDecrypt_cbcEncrypt xorBlock_xorBlock (tdes2Block_decrypt key)]

theorem tdesEncrypt_tdesDecrypt (key iv : Bytes) (h : input.length = 8 * n) : tdesEncrypt key iv
    (tdesDecrypt key iv input) = input := by
  obtain ⟨bs, -, rfl⟩ := exists_blocks h
  rw [tdesDecrypt, tdesEncrypt, blocks_flatMap, blocks_flatMap,
    cbcEncrypt_cbcDecrypt xorBlock_xorBlock (tdes2Block_encrypt key)]

end NfcStack.Ultralight
