import NfcStack.Protocols.Classic.Crypto1Refinement
import NfcStack.Protocols.Classic.Listener

/-!
# Crypto1 byte by byte

The cipher is fed with bits, bytes and words, in plain text and encrypted. A word is its four bytes,
the highest first (`word_beNum`), and bytes fed in encrypted have the effect of the plain ones
(`feed_encrypted`).
-/

namespace NfcStack.Classic

open List

theorem getLsbD_beNum {w : ℕ} (bytes : Bytes) {i : ℕ} (hi : i < w) :
    (beNum w bytes).getLsbD i = (byteAt bytes.reverse (i / 8)).toBitVec.getLsbD (i % 8) := by
  -- the number is built by shifting, so bytes are taken off its low end
  induction bytes using List.reverseRecOn generalizing i with
  | nil => simp [beNum, byteAt]
  | append_singleton bytes b ih =>
    rw [beNum, foldl_append]
    show (((beNum w bytes) <<< 8) ||| b.toBitVec.setWidth w).getLsbD i = _
    rw [BitVec.getLsbD_or, BitVec.getLsbD_shiftLeft]
    by_cases h8 : i < 8
    · rw [Nat.div_eq_of_lt h8, Nat.mod_eq_of_lt h8]
      simp [h8, hi, byteAt]
    · obtain ⟨k, rfl⟩ : ∃ k, i = k + 8 := ⟨i - 8, by omega⟩
      rw [ih (by omega)]
      simp [hi, byteAt]

theorem beNum_be32Bytes (n : BitVec 32) : beNum 32 (be32Bytes n) = n := by
  apply BitVec.eq_of_getLsbD_eq
  intro i hi
  rw [getLsbD_beNum _ hi]
  have hj : i % 8 < 8 := Nat.mod_lt _ (by decide)
  have hq : i / 8 < 4 := by omega
  have hi' : i = 8 * (i / 8) + i % 8 := (Nat.div_add_mod i 8).symm
  generalize i / 8 = q at *
  generalize i % 8 = j at *
  subst hi'
  interval_cases q <;> simp [be32Bytes, byteAt, hj]

theorem byteAt_zipWith_xor {as bs : Bytes} (h : as.length = bs.length) (i : ℕ) :
    byteAt (List.zipWith (· ^^^ ·) as bs) i = byteAt as i ^^^ byteAt bs i := by
  by_cases hi : i < as.length
  · have hi' : i < bs.length := by omega
    simp [byteAt, hi, hi']
  · have hi' : bs.length ≤ i := by omega
    simp [byteAt, Nat.not_lt.mp hi, hi']

theorem beNum_xor (w : ℕ) {as bs : Bytes} (h : as.length = bs.length) :
    beNum w (List.zipWith (· ^^^ ·) as bs) = beNum w as ^^^ beNum w bs := by
  apply BitVec.eq_of_getLsbD_eq
  intro i hi
  rw [BitVec.getLsbD_xor, getLsbD_beNum _ hi, getLsbD_beNum _ hi, getLsbD_beNum _ hi,
    reverse_zipWith h, byteAt_zipWith_xor (by simpa using h), UInt8.toBitVec_xor,
    BitVec.getLsbD_xor]

section Loops

variable {σ : Type} (step : BitStep σ)

theorem bitLoop_append (inBit : ℕ → BitVec 8) (shift : ℕ → ℕ) (enc : Bool) (n m i : ℕ) (s : σ)
    (out : BitVec 32) :
    bitLoop step inBit shift enc (n + m) i s out =
      bitLoop step inBit shift enc m (i + n) (bitLoop step inBit shift enc n i s out).1
        (bitLoop step inBit shift enc n i s out).2 := by
  induction n generalizing i s out with
  | zero =>
    rw [Nat.zero_add]
    rfl
  | succ n ih =>
    rw [Nat.succ_add, bitLoop, ih, Nat.add_right_comm i 1 n]
    rfl

theorem bitLoop_shift {inBit : ℕ → BitVec 8} {shift : ℕ → ℕ} (inBit' : ℕ → BitVec 8)
    (shift' : ℕ → ℕ) {n i : ℕ} (i' k : ℕ) (hin : ∀ j < n, inBit (i + j) = inBit' (i' + j))
    (hshift : ∀ j < n, shift (i + j) = shift' (i' + j) + k) (enc : Bool) (s : σ)
    (high out : BitVec 32) :
    bitLoop step inBit shift enc n i s (high ||| (out <<< k)) =
      ((bitLoop step inBit' shift' enc n i' s out).1,
        high ||| ((bitLoop step inBit' shift' enc n i' s out).2 <<< k)) := by
  induction n generalizing i i' s out with
  | zero => rfl
  | succ n ih =>
    have hin0 : inBit i = inBit' i' := hin 0 (Nat.succ_pos n)
    have hshift0 : shift i = shift' i' + k := hshift 0 (Nat.succ_pos n)
    rw [bitLoop, hin0, hshift0, BitVec.or_assoc, BitVec.shiftLeft_add,
      ← BitVec.shiftLeft_or_distrib]
    apply ih
    · intro j hj
      have := hin (j + 1) (by omega)
      rwa [← Nat.add_assoc, ← Nat.add_assoc, Nat.add_right_comm i, Nat.add_right_comm i'] at this
    · intro j hj
      have := hshift (j + 1) (by omega)
      rwa [← Nat.add_assoc, ← Nat.add_assoc, Nat.add_right_comm i, Nat.add_right_comm i'] at this

end Loops

theorem byteBit_eq (input : BitVec 8) (i : ℕ) :
    byteBit input i = (BitVec.ofBool (input.getLsbD i)).setWidth 8 := by
  rw [byteBit, BitVec.and_one_eq_setWidth_ofBool_getLsbD, BitVec.getLsbD_ushiftRight, Nat.add_zero]

theorem wordBit_eq (input : BitVec 32) (i : ℕ) :
    wordBit input i = (BitVec.ofBool (input.getLsbD (i ^^^ 24))).setWidth 8 := by
  rw [wordBit, BitVec.and_one_eq_setWidth_ofBool_getLsbD, BitVec.getLsbD_ushiftRight]
  cases input.getLsbD (i ^^^ 24) <;> rfl

variable (c : Crypto1)

theorem getLsbD_bit_shiftLeft (input : BitVec 8) (enc : Bool) {i j : ℕ} (hi : i < 32) :
    ((c.bit input enc).2.setWidth 32 <<< i).getLsbD j =
      (decide (i = j) && (filter c.odd).getLsbD 0) := by
  rw [bit_new]
  generalize (filter c.odd).getLsbD 0 = b
  by_cases hij : i = j
  · subst hij
    cases b <;> simp [hi]
  · cases b with
    | false => simp [hij]
    | true =>
      simp [hij]
      omega

variable (inBit : ℕ → BitVec 8)

theorem getLsbD_bitLoop_outside (enc : Bool) {n i j : ℕ} (c : Crypto1)
    (out : BitVec 32) (hn : i + n ≤ 32) (hj : j < i ∨ i + n ≤ j) :
    (bitLoop Crypto1.bit inBit id enc n i c out).2.getLsbD j = out.getLsbD j := by
  induction n generalizing i c out with
  | zero => rfl
  | succ n ih =>
    rw [bitLoop, ih _ _ (by omega) (by omega), BitVec.getLsbD_or, id,
      getLsbD_bit_shiftLeft _ _ _ (by omega), decide_eq_false (by omega), Bool.false_and,
      Bool.or_false]

theorem setWidth_bitLoop (enc : Bool) (c : Crypto1) :
    ((bitLoop Crypto1.bit inBit id enc 8 0 c 0).2.setWidth 8).setWidth 32 =
      (bitLoop Crypto1.bit inBit id enc 8 0 c 0).2 := by
  apply BitVec.eq_of_getLsbD_eq
  intro j hj
  by_cases h8 : j < 8
  · simp [h8, hj]
  · rw [getLsbD_bitLoop_outside _ _ _ _ (by omega) (by omega)]
    simp [h8]

/-- Bits that are fed in encrypted have the effect of the plain ones: the keystream that the
cipher adds to an encrypted bit is the one that the bit was encrypted with. -/
theorem bitLoop_encrypted {x y : BitVec 8} {n i : ℕ} {c : Crypto1} {out : BitVec 32}
    (hn : i + n ≤ 32) (hout : ∀ j, i ≤ j → out.getLsbD j = false)
    (hy : ∀ j, i ≤ j → j < i + n → y.getLsbD j =
      (x.getLsbD j ^^ (bitLoop Crypto1.bit (byteBit x) id false n i c out).2.getLsbD j)) :
    bitLoop Crypto1.bit (byteBit y) id true n i c out =
      bitLoop Crypto1.bit (byteBit x) id false n i c out := by
  induction n generalizing i c out with
  | zero => rfl
  | succ n ih =>
    have hnonzero : ∀ z : BitVec 8, (byteBit z i != 0) = z.getLsbD i := by
      intro z
      rw [byteBit_eq]
      cases z.getLsbD i <;> rfl
    -- bit `i` of the output is the keystream bit of this pass
    have hbit : (bitLoop Crypto1.bit (byteBit x) id false (n + 1) i c out).2.getLsbD i =
        (filter c.odd).getLsbD 0 := by
      rw [bitLoop, getLsbD_bitLoop_outside _ _ _ _ (by omega) (by omega), BitVec.getLsbD_or,
        hout i (Nat.le_refl i), id, getLsbD_bit_shiftLeft _ _ _ (by omega)]
      simp
    have hstep : c.bit (byteBit y i) true = c.bit (byteBit x i) false := by
      rw [bit_new, bit_new, hnonzero, hnonzero, hy i (Nat.le_refl i) (by omega), hbit]
      simp
    rw [bitLoop, hstep]
    apply ih (by omega)
    · intro j hj
      rw [BitVec.getLsbD_or, hout j (by omega), id, getLsbD_bit_shiftLeft _ _ _ (by omega),
        decide_eq_false (by omega)]
      rfl
    · intro j h1 h2
      exact hy j (by omega) (by omega)

theorem byte_encrypted (x : BitVec 8) :
    byte Crypto1.bit c (x ^^^ (byte Crypto1.bit c x false).2) true =
      byte Crypto1.bit c x false := by
  have hloop : bitLoop Crypto1.bit (byteBit (x ^^^ (byte Crypto1.bit c x false).2)) id true 8 0 c
      0 = bitLoop Crypto1.bit (byteBit x) id false 8 0 c 0 := by
    apply bitLoop_encrypted (by omega)
    · intro j _
      simp
    · intro j _ hj
      rw [BitVec.getLsbD_xor, byte, BitVec.getLsbD_setWidth, decide_eq_true (by omega),
        Bool.true_and]
  rw [byte, hloop]
  rfl

def feed (enc : Bool) : Crypto1 → Bytes → Crypto1 × Bytes
  | c, [] => (c, [])
  | c, b :: bs =>
    let r := byte Crypto1.bit c b.toBitVec enc
    let rest := feed enc r.1 bs
    (rest.1, UInt8.ofBitVec r.2 :: rest.2)

theorem length_feed (enc : Bool) (c : Crypto1) (bs : Bytes) :
    (feed enc c bs).2.length = bs.length := by
  induction bs generalizing c with
  | nil => rfl
  | cons b bs ih => simp only [feed, length_cons, ih]

theorem feed_encrypted (bs : Bytes) :
    feed true c (List.zipWith (· ^^^ ·) bs (feed false c bs).2) = feed false c bs := by
  induction bs generalizing c with
  | nil => rfl
  | cons b bs ih =>
    simp only [feed, zipWith_cons_cons, UInt8.toBitVec_xor, byte_encrypted, ih]

theorem length_crypt (bs : Bytes) : (crypt c bs).2.length = bs.length := by
  induction bs generalizing c with
  | nil => rfl
  | cons b bs ih => simp only [crypt, length_cons, ih]

theorem crypt_crypt (bs : Bytes) : crypt c (crypt c bs).2 = ((crypt c bs).1, bs) := by
  induction bs generalizing c with
  | nil => rfl
  | cons b bs ih =>
    simp only [crypt, ih, ← BitVec.xor_assoc, BitVec.xor_self, BitVec.zero_xor,
      UInt8.ofBitVec_toBitVec]

theorem bitLoop_word {input : BitVec 32} {b : UInt8} {i k : ℕ}
    (hin : ∀ j < 8, input.getLsbD ((i + j) ^^^ 24) = b.toBitVec.getLsbD j)
    (hshift : ∀ j < 8, 24 ^^^ (i + j) = j + k) (enc : Bool) (c : Crypto1) (high : BitVec 32) :
    bitLoop Crypto1.bit (wordBit input) (24 ^^^ ·) enc 8 i c high =
      ((byte Crypto1.bit c b.toBitVec enc).1,
        high ||| ((byte Crypto1.bit c b.toBitVec enc).2.setWidth 32 <<< k)) := by
  have hbits : ∀ j < 8, wordBit input (i + j) = byteBit b.toBitVec (0 + j) := by
    intro j hj
    rw [wordBit_eq, byteBit_eq, hin j hj, Nat.zero_add]
  have hplaces : ∀ j < 8, 24 ^^^ (i + j) = id (0 + j) + k := by
    intro j hj
    rw [hshift j hj, Nat.zero_add, id]
  have hzero : high ||| ((0 : BitVec 32) <<< k) = high := by simp
  have hloop := bitLoop_shift Crypto1.bit (byteBit b.toBitVec) id 0 k hbits hplaces enc c high 0
  rw [hzero] at hloop
  rw [hloop, byte, setWidth_bitLoop]

theorem getLsbD_beNum_four (b0 b1 b2 b3 : UInt8) {i k : ℕ} (hk : k < 4)
    (hx : ∀ j < 8, (i + j) ^^^ 24 = 8 * (3 - k) + j) {j : ℕ} (hj : j < 8) :
    (beNum 32 [b0, b1, b2, b3]).getLsbD ((i + j) ^^^ 24) =
      (byteAt [b0, b1, b2, b3] k).toBitVec.getLsbD j := by
  rw [hx j hj, getLsbD_beNum _ (by omega), Nat.mul_add_div (by decide), Nat.div_eq_of_lt hj,
    Nat.mul_add_mod, Nat.mod_eq_of_lt hj]
  interval_cases k <;> rfl

theorem beNum_four (o0 o1 o2 o3 : BitVec 8) :
    beNum 32 [UInt8.ofBitVec o0, UInt8.ofBitVec o1, UInt8.ofBitVec o2, UInt8.ofBitVec o3] =
      (0 : BitVec 32) ||| o0.setWidth 32 <<< 24 ||| o1.setWidth 32 <<< 16 |||
        o2.setWidth 32 <<< 8 ||| o3.setWidth 32 <<< 0 := by
  have hzero : (0 : BitVec 32) <<< 8 = 0 := rfl
  simp only [beNum, foldl_cons, foldl_nil, hzero, BitVec.shiftLeft_or_distrib,
    ← BitVec.shiftLeft_add, BitVec.shiftLeft_zero]

theorem word_beNum (b0 b1 b2 b3 : UInt8) (enc : Bool) :
    word Crypto1.bit c (beNum 32 [b0, b1, b2, b3]) enc =
      ((feed enc c [b0, b1, b2, b3]).1, beNum 32 (feed enc c [b0, b1, b2, b3]).2) := by
  have h0 : ∀ j < 8, (beNum 32 [b0, b1, b2, b3]).getLsbD ((0 + j) ^^^ 24) =
      b0.toBitVec.getLsbD j :=
    fun j hj => getLsbD_beNum_four b0 b1 b2 b3 (k := 0) (by decide) (by decide) hj
  have h1 : ∀ j < 8, (beNum 32 [b0, b1, b2, b3]).getLsbD ((0 + 8 + j) ^^^ 24) =
      b1.toBitVec.getLsbD j :=
    fun j hj => getLsbD_beNum_four b0 b1 b2 b3 (k := 1) (by decide) (by decide) hj
  have h2 : ∀ j < 8, (beNum 32 [b0, b1, b2, b3]).getLsbD ((0 + 8 + 8 + j) ^^^ 24) =
      b2.toBitVec.getLsbD j :=
    fun j hj => getLsbD_beNum_four b0 b1 b2 b3 (k := 2) (by decide) (by decide) hj
  have h3 : ∀ j < 8, (beNum 32 [b0, b1, b2, b3]).getLsbD ((0 + 8 + 8 + 8 + j) ^^^ 24) =
      b3.toBitVec.getLsbD j :=
    fun j hj => getLsbD_beNum_four b0 b1 b2 b3 (k := 3) (by decide) (by decide) hj
  -- the 32 passes, cut into the four bytes
  have hword : word Crypto1.bit c (beNum 32 [b0, b1, b2, b3]) enc =
      bitLoop Crypto1.bit (wordBit (beNum 32 [b0, b1, b2, b3])) (24 ^^^ ·) enc
        (8 + (8 + (8 + 8))) 0 c 0 := rfl
  rw [hword, bitLoop_append, bitLoop_append, bitLoop_append,
    bitLoop_word (k := 24) h0 (by decide), bitLoop_word (k := 16) h1 (by decide),
    bitLoop_word (k := 8) h2 (by decide), bitLoop_word (k := 0) h3 (by decide)]
  simp only [feed, beNum_four]

variable (x : BitVec 32)

theorem getLsbD_swapEndian {i : ℕ} (hi : i < 32) :
    (swapEndian x).getLsbD i = x.getLsbD (i ^^^ 24) := by
  interval_cases i <;> simp [swapEndian]

theorem swapEndian_swapEndian : swapEndian (swapEndian x) = x := by
  apply BitVec.eq_of_getLsbD_eq
  intro i hi
  have hlt : i ^^^ 24 < 32 := Nat.xor_lt_two_pow (n := 5) hi (by decide)
  rw [getLsbD_swapEndian _ hi, getLsbD_swapEndian _ hlt, Nat.xor_assoc, Nat.xor_self, Nat.xor_zero]

theorem prngSuccessor_add (m n : ℕ) :
    prngSuccessor (prngSuccessor x m) n = prngSuccessor x (m + n) := by
  rw [prngSuccessor, prngSuccessor, swapEndian_swapEndian, prngSuccessor, Nat.add_comm,
    Function.iterate_add_apply]

theorem getLsbD_prng_iterate {m i : ℕ} (h : i + m < 32) :
    ((fun x : BitVec 32 => (x >>> 1) |||
      (((x >>> 16) ^^^ (x >>> 18) ^^^ (x >>> 19) ^^^ (x >>> 21)) <<< 31))^[m] x).getLsbD i =
        x.getLsbD (i + m) := by
  induction m generalizing i with
  | zero => rfl
  | succ m ih =>
    rw [Function.iterate_succ_apply', BitVec.getLsbD_or, BitVec.getLsbD_ushiftRight,
      BitVec.getLsbD_shiftLeft, decide_eq_true (show i < 31 by omega), ih (by omega)]
    simp [Nat.add_comm, Nat.add_left_comm]

theorem getLsbD_prngSuccessor (n : ℕ) {q j : ℕ} (hq : q < 4) (hj : j < 8) :
    (prngSuccessor x (n + 8 * q)).getLsbD (8 * q + j) = (prngSuccessor x n).getLsbD j := by
  have hflip : ∀ q < 4, ∀ j < 8, (8 * q + j) ^^^ 24 = 8 * (3 - q) + j := by decide
  have hflip0 : j ^^^ 24 = 24 + j := by simpa using hflip 0 (by decide) j hj
  rw [prngSuccessor, prngSuccessor, getLsbD_swapEndian _ (by omega),
    getLsbD_swapEndian _ (by omega), hflip q hq j hj, Nat.add_comm n,
    Function.iterate_add_apply, getLsbD_prng_iterate _ (by omega)]
  congr 1
  omega

def lowByte (x : BitVec 32) : UInt8 := UInt8.ofBitVec (x.setWidth 8)

theorem beNum_lowBytes (n : ℕ) :
    beNum 32 [lowByte (prngSuccessor x n), lowByte (prngSuccessor x (n + 8)),
      lowByte (prngSuccessor x (n + 16)), lowByte (prngSuccessor x (n + 24))] =
        prngSuccessor x (n + 24) := by
  apply BitVec.eq_of_getLsbD_eq
  intro i hi
  have hj : i % 8 < 8 := Nat.mod_lt _ (by decide)
  have hq : i / 8 < 4 := by omega
  -- byte `q` from the low end was the lowest `8 * q` steps before
  have hshift := getLsbD_prngSuccessor x (n + 8 * (3 - i / 8)) hq hj
  rw [show n + 8 * (3 - i / 8) + 8 * (i / 8) = n + 24 by omega, Nat.div_add_mod] at hshift
  rw [getLsbD_beNum _ hi, hshift]
  generalize i / 8 = q at *
  generalize i % 8 = j at *
  have hlow : ∀ y : BitVec 32, (lowByte y).toBitVec.getLsbD j = y.getLsbD j := by
    simp [lowByte, hj]
  interval_cases q <;> exact hlow _

/-- The steps add up, and the low byte after `32 + 8 * k` steps is byte `k` from the top after 64: the
reader answers a nonce byte by byte, and the card compares a word. -/
theorem prngSuccessor_laws : (∀ n m, prngSuccessor x (n + m) = prngSuccessor (prngSuccessor x n) m) ∧
    ∀ k : Fin 4, lowByte (prngSuccessor x (32 + 8 * (k + 1))) =
      lowByte (prngSuccessor x 64 >>> (32 - 8 * (k + 1 : ℕ))) := by
  refine ⟨fun n m => (prngSuccessor_add x n m).symm, fun k => ?_⟩
  apply UInt8.toBitVec_inj.mp
  apply BitVec.eq_of_getLsbD_eq
  intro j hj
  have hshift := getLsbD_prngSuccessor x (32 + 8 * (k + 1)) (show 3 - k.val < 4 by omega) hj
  rw [show 32 + 8 * (k.val + 1) + 8 * (3 - k) = 64 by omega,
    show 8 * (3 - k.val) = 32 - 8 * (k + 1) by omega] at hshift
  simp [lowByte, hj, hshift]

end NfcStack.Classic
