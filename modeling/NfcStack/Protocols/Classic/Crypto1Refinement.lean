import NfcStack.Protocols.Classic.Crypto1

/-!
# The split cipher and its shift register

`Split` relates the two halves of the implementation to the 48-bit register of the reference. The
parity fold leaves out every second nibble, so a step keeps the relation exactly if these taps cancel.
-/

namespace NfcStack.Classic

open List BitVec

def Split (c : Crypto1) (r : Register) : Prop :=
  ∀ j < 24, c.odd.getLsbD j = r.getLsbD (2 * j) ∧ c.even.getLsbD j = r.getLsbD (2 * j + 1)

variable (key : BitVec 64)

theorem shiftRight_and_one (a : ℕ) :
    ((key >>> a) &&& 1#64).setWidth 32 = (BitVec.ofBool (key.getLsbD a)).setWidth 32 := by
  rw [and_one_eq_setWidth_ofBool_getLsbD, getLsbD_ushiftRight, Nat.add_zero,
    setWidth_setWidth_of_le _ (by omega)]

theorem init_eq_pushBits :
    Crypto1.init key = ⟨pushBits 32 24 fun n => key.getLsbD ((47 - 2 * n - 1) ^^^ 7),
      pushBits 32 24 fun n => key.getLsbD ((47 - 2 * n) ^^^ 7)⟩ := by
  unfold Crypto1.init
  generalize 24 = n
  induction n with
  | zero => rfl
  | succ n ih =>
    rw [range_succ, foldl_append, ih]
    simp only [foldl_cons, foldl_nil, shiftRight_and_one, pushBits, shiftIn]

theorem init_split : Split (Crypto1.init key) (Register.ofKey key) := by
  intro j hj
  rw [init_eq_pushBits, Register.ofKey, getLsbD_pushBits _ hj (by omega),
    getLsbD_pushBits _ hj (by omega), getLsbD_pushBits _ (by omega) (by omega),
    getLsbD_pushBits _ (by omega) (by omega)]
  constructor
  · congr 2
    omega
  · congr 2
    omega

theorem nibble_congr {x y : BitVec 32} (h : ∀ j < 24, x.getLsbD j = y.getLsbD j) {k : ℕ}
    (hk : k + 4 ≤ 24) : (x >>> k) &&& 0xF#32 = (y >>> k) &&& 0xF#32 := by
  apply eq_of_getLsbD_eq
  intro i _
  rw [getLsbD_and, getLsbD_and, getLsbD_ushiftRight, getLsbD_ushiftRight]
  by_cases hi : i < 4
  · rw [h (k + i) (by omega)]
  · have hF : (0xF#32).getLsbD i = false := by
      have : (0xF#32).getLsbD i = Nat.testBit (2 ^ 4 - 1) i := rfl
      rw [this, Nat.testBit_two_pow_sub_one]
      simpa using hi
    rw [hF, Bool.and_false, Bool.and_false]

theorem filter_congr {x y : BitVec 32} (h : ∀ j < 24, x.getLsbD j = y.getLsbD j) :
    filter x = filter y := by
  have h0 : x &&& 0xF#32 = y &&& 0xF#32 := nibble_congr (k := 0) h (by omega)
  simp only [filter, h0, nibble_congr (k := 4) h (by omega), nibble_congr (k := 8) h (by omega),
    nibble_congr (k := 12) h (by omega), nibble_congr (k := 16) h (by omega)]

variable (x : BitVec 32)

theorem filter_eq_ofBool : filter x = (BitVec.ofBool ((filter x).getLsbD 0)).setWidth 32 := by
  unfold filter
  rw [and_one_eq_setWidth_ofBool_getLsbD]
  simp

variable {r : Register} {c : Crypto1}

theorem filter_oddHalf (h : Split c r) : filter r.oddHalf = filter c.odd := by
  apply filter_congr
  intro j hj
  rw [Register.oddHalf, getLsbD_pushBits _ hj (by omega), (h j hj).1]
  congr 2
  omega

def maskParity (mask x : BitVec 32) : Bool := xorBelow 32 fun b => x.getLsbD b && mask.getLsbD b

def foldedNibbles : BitVec 32 := 0x0F0F0F0F#32

def droppedNibbles : BitVec 32 := 0xF0F0F0F0#32

theorem maskParity_xor (mask x y : BitVec 32) :
    maskParity mask (x ^^^ y) = (maskParity mask x ^^ maskParity mask y) := by
  rw [maskParity, maskParity, maskParity, ← xorBelow_xor]
  apply xorBelow_congr
  intro b _
  rw [getLsbD_xor, Bool.and_xor_distrib_right]

theorem parity_table (v : BitVec 4) :
    ((0x6996#32 >>> v.setWidth 32) &&& 1#32).setWidth 8 =
      (BitVec.ofBool (v.getLsbD 0 ^^ v.getLsbD 1 ^^ v.getLsbD 2 ^^ v.getLsbD 3)).setWidth 8 := by
  revert v
  decide

theorem and_low_nibble : x &&& 0x0F#32 = (x.setWidth 4).setWidth 32 := by
  apply eq_of_getLsbD_eq
  intro i hi
  have hF : (0x0F#32).getLsbD i = decide (i < 4) := by
    have : (0x0F#32).getLsbD i = Nat.testBit (2 ^ 4 - 1) i := rfl
    rw [this, Nat.testBit_two_pow_sub_one]
  simp only [getLsbD_and, hF, getLsbD_setWidth, hi, decide_true, Bool.true_and]
  exact Bool.and_comm _ _

/-- The fold is the parity of every second nibble, not of all of them. -/
theorem evenParity32_eq :
    evenParity32 x = (BitVec.ofBool (maskParity foldedNibbles x)).setWidth 8 := by
  simp only [evenParity32]
  rw [and_low_nibble, parity_table]
  have : Std.Commutative (bne (α := Bool)) := ⟨by decide⟩
  simp [maskParity, xorBelow, foldedNibbles]
  ac_rfl

theorem maskParity_ofBool (b : Bool) :
    maskParity foldedNibbles ((BitVec.ofBool b).setWidth 32) = b := by
  cases b <;> decide

theorem folded_xor_dropped : (maskParity foldedNibbles x ^^ maskParity droppedNibbles x) =
      xorBelow 32 fun b => x.getLsbD b := by
  rw [maskParity, maskParity, ← xorBelow_xor]
  apply xorBelow_congr
  have hmask : ∀ b < 32, foldedNibbles.getLsbD b = !droppedNibbles.getLsbD b := by decide
  intro b hb
  rw [hmask b hb]
  cases x.getLsbD b <;> cases droppedNibbles.getLsbD b <;> rfl

def Crypto1.taps (c : Crypto1) : BitVec 32 := (lfPolyOdd &&& c.odd) ^^^ (lfPolyEven &&& c.even)

def Crypto1.droppedTaps (c : Crypto1) : Bool := maskParity droppedNibbles c.taps

theorem bit_new (c : Crypto1) (input : BitVec 8) (enc : Bool) :
    c.bit input enc =
      (⟨shiftIn c.even ((input != 0) ^^ (enc && (filter c.odd).getLsbD 0) ^^
          maskParity foldedNibbles c.taps), c.odd⟩,
        (BitVec.ofBool ((filter c.odd).getLsbD 0)).setWidth 8) := by
  have hout : (filter c.odd).setWidth 8 =
      (BitVec.ofBool ((filter c.odd).getLsbD 0)).setWidth 8 := by
    rw [filter_eq_ofBool]
    generalize (filter c.odd).getLsbD 0 = b
    cases b <;> rfl
  have hfeed : ((BitVec.ofBool ((filter c.odd).getLsbD 0)).setWidth 8 &&&
      (BitVec.ofBool enc).setWidth 8).setWidth 32 =
        (BitVec.ofBool (enc && (filter c.odd).getLsbD 0)).setWidth 32 := by
    generalize (filter c.odd).getLsbD 0 = b
    cases b <;> cases enc <;> rfl
  simp only [Crypto1.bit, hout, hfeed, evenParity32_eq, maskParity_xor, maskParity_ofBool,
    Crypto1.taps, shiftIn]
  generalize (filter c.odd).getLsbD 0 = b
  generalize maskParity foldedNibbles (lfPolyOdd &&& c.odd) = t
  generalize maskParity foldedNibbles (lfPolyEven &&& c.even) = u
  generalize (input != 0) = i
  cases b <;> cases enc <;> cases i <;> cases t <;> cases u <;> rfl

theorem tapSum_eq (h : Split c r) :
    r.tapSum = (maskParity foldedNibbles c.taps ^^ c.droppedTaps) := by
  have hclear : ∀ b, 24 ≤ b → b < 32 →
      lfPolyOdd.getLsbD b = false ∧ lfPolyEven.getLsbD b = false := by decide
  rw [Crypto1.droppedTaps, folded_xor_dropped,
    xorBelow_of_clear (n := 24) (by omega) fun b h1 h2 => by
    rw [Crypto1.taps, getLsbD_xor, getLsbD_and, getLsbD_and,
      (hclear b h1 h2).1, (hclear b h1 h2).2]
    rfl]
  apply xorBelow_congr
  intro j hj
  rw [Crypto1.taps, getLsbD_xor, getLsbD_and, getLsbD_and, (h j hj).1, (h j hj).2]

/-- Both sides give the same bit, and they stay related exactly if the taps that the fold leaves
out cancel. -/
theorem bit_split_iff (h : Split c r) (input : BitVec 8) (enc : Bool) :
    (c.bit input enc).2 = (r.bit input enc).2 ∧
      (Split (c.bit input enc).1 (r.bit input enc).1 ↔ c.droppedTaps = false) := by
  rw [bit_new, Register.bit, filter_oddHalf h, tapSum_eq h]
  refine ⟨rfl, ?_⟩
  generalize ((input != 0) ^^ (enc && (filter c.odd).getLsbD 0)) = x
  generalize maskParity foldedNibbles c.taps = t
  constructor
  · intro hs
    have h0 := (hs 0 (by omega)).1
    rw [getLsbD_shiftIn _ _ (by omega), getLsbD_shiftIn _ _ (by omega)]
      at h0
    revert h0
    cases x <;> cases t <;> cases c.droppedTaps <;> simp
  · intro hd j hj
    rw [hd, Bool.xor_false, getLsbD_shiftIn _ _ (by omega), getLsbD_shiftIn _ _ (by omega),
      getLsbD_shiftIn _ _ (by omega)]
    refine ⟨?_, by simpa using (h j hj).1⟩
    rcases j with _ | j
    · rfl
    · rw [if_neg (by omega)]
      exact (h j (by omega)).2

def pair : Machine (Crypto1 × Register) (BitVec 8 × Bool) (BitVec 8 × BitVec 8) where
  step s e :=
    let c := s.1.bit e.1 e.2
    let r := s.2.bit e.1 e.2
    some ((c.1, r.1), (c.2, r.2))

def StepAgrees (_s : Crypto1 × Register) (_e : BitVec 8 × Bool)
    (out : Option ((Crypto1 × Register) × (BitVec 8 × BitVec 8))) : Prop :=
  ∃ s' o, out = some (s', o) ∧ o.1 = o.2 ∧ Split s'.1 s'.2

def DroppedTapsCancel (s : Crypto1 × Register) (_e : BitVec 8 × Bool)
    (_out : Option ((Crypto1 × Register) × (BitVec 8 × BitVec 8))) : Prop :=
  s.1.droppedTaps = false

theorem stepAgrees_iff {s : Crypto1 × Register} (hs : Split s.1 s.2) (e : BitVec 8 × Bool) :
    StepAgrees s e (pair.step s e) ↔ DroppedTapsCancel s e (pair.step s e) := by
  obtain ⟨hout, hiff⟩ := bit_split_iff hs e.1 e.2
  constructor
  · rintro ⟨s', o, hstep, -, hsplit⟩
    cases hstep
    exact hiff.mp hsplit
  · exact fun h => ⟨_, _, rfl, hout, hiff.mpr h⟩

def loopEvents (inBit : ℕ → BitVec 8) (isEncrypted : Bool) (n i : ℕ) : List (BitVec 8 × Bool) :=
  (List.range' i n).map fun k => (inBit k, isEncrypted)

def Op.events : Op → List (BitVec 8 × Bool)
  | .bit input isEncrypted => [(input, isEncrypted)]
  | .byte input isEncrypted => loopEvents (byteBit input) isEncrypted 8 0
  | .word input isEncrypted => loopEvents (wordBit input) isEncrypted 32 0

theorem bitLoop_agree (shift : ℕ → ℕ) (out : BitVec 32) {inBit : ℕ → BitVec 8} {enc : Bool}
    {n i : ℕ} {es : List (BitVec 8 × Bool)}
    (h : pair.Always StepAgrees (c, r) (loopEvents inBit enc n i ++ es)) :
    (bitLoop Crypto1.bit inBit shift enc n i c out).2 =
        (bitLoop Register.bit inBit shift enc n i r out).2 ∧
      pair.Always StepAgrees ((bitLoop Crypto1.bit inBit shift enc n i c out).1,
        (bitLoop Register.bit inBit shift enc n i r out).1) es := by
  induction n generalizing i c r out with
  | zero => exact ⟨rfl, h⟩
  | succ n ih =>
    obtain ⟨⟨s', o, hstep, hout, -⟩, hrest⟩ := h
    cases hstep
    simp only [bitLoop]
    rw [show (r.bit (inBit i) enc).2 = (c.bit (inBit i) enc).2 from hout.symm]
    exact ih _ (hrest _ _ rfl)

theorem runOp_agree {op : Op} {es : List (BitVec 8 × Bool)}
    (h : pair.Always StepAgrees (c, r) (op.events ++ es)) :
    (runOp Crypto1.bit c op).2 = (runOp Register.bit r op).2 ∧
      pair.Always StepAgrees ((runOp Crypto1.bit c op).1, (runOp Register.bit r op).1) es := by
  cases op with
  | bit input enc =>
    obtain ⟨⟨s', o, hstep, hout, -⟩, hrest⟩ := h
    cases hstep
    exact ⟨congrArg (BitVec.setWidth 32) hout, hrest _ _ rfl⟩
  | byte input enc =>
    obtain ⟨hout, hrest⟩ := bitLoop_agree id 0 h
    exact ⟨congrArg (fun x => (BitVec.setWidth 8 x).setWidth 32) hout, hrest⟩
  | word input enc => exact bitLoop_agree (24 ^^^ ·) 0 h

theorem keystream_agree {ops : List Op}
    (h : pair.Always StepAgrees (c, r) (ops.flatMap Op.events)) :
    keystream Crypto1.bit c ops = keystream Register.bit r ops := by
  induction ops generalizing c r with
  | nil => rfl
  | cons op ops ih =>
    obtain ⟨hout, hrest⟩ := runOp_agree h
    rw [keystream, keystream, hout, ih hrest]

/-- For every key and every sequence of calls: the implementation follows the reference register
bit by bit if and only if at every bit the taps that the parity fold leaves out cancel, and then
the keystreams are equal. -/
theorem crypto1_refines_iff (key : BitVec 64) (ops : List Op) :
    (pair.Always StepAgrees (Crypto1.init key, Register.ofKey key) (ops.flatMap Op.events) ↔
      pair.Always DroppedTapsCancel (Crypto1.init key, Register.ofKey key)
        (ops.flatMap Op.events)) ∧
    (pair.Always DroppedTapsCancel (Crypto1.init key, Register.ofKey key) (ops.flatMap Op.events) →
      keystream Crypto1.bit (Crypto1.init key) ops =
        keystream Register.bit (Register.ofKey key) ops) := by
  have hiff : pair.Always StepAgrees (Crypto1.init key, Register.ofKey key)
      (ops.flatMap Op.events) ↔ pair.Always DroppedTapsCancel
        (Crypto1.init key, Register.ofKey key) (ops.flatMap Op.events) := by
    refine pair.always_iff (I := fun s => Split s.1 s.2) (fun _ e hs => stepAgrees_iff hs e)
      (fun s e s' o hs h hstep => ?_) (init_split key)
    cases hstep
    exact (bit_split_iff hs e.1 e.2).2.mpr h
  exact ⟨hiff, fun h => keystream_agree (hiff.mpr h)⟩

instance (s : Crypto1 × Register) (e : BitVec 8 × Bool)
    (out : Option ((Crypto1 × Register) × (BitVec 8 × BitVec 8))) :
    Decidable (DroppedTapsCancel s e out) :=
  inferInstanceAs (Decidable (s.1.droppedTaps = false))

theorem crypto1_refines_first_byte : pair.Always DroppedTapsCancel (Crypto1.init 0x0E03110E030E#64,
        Register.ofKey 0x0E03110E030E#64) ([Op.byte 0x5A#8 true].flatMap Op.events) ∧
      keystream Crypto1.bit (Crypto1.init 0x0E03110E030E#64) [.byte 0x5A#8 true] =
        keystream Register.bit (Register.ofKey 0x0E03110E030E#64) [.byte 0x5A#8 true] := by
  have hcancel : pair.Always DroppedTapsCancel (Crypto1.init 0x0E03110E030E#64,
      Register.ofKey 0x0E03110E030E#64) ([Op.byte 0x5A#8 true].flatMap Op.events) := by
    decide +kernel
  exact ⟨hcancel, (crypto1_refines_iff _ _).2 hcancel⟩

theorem keystream_differs : keystream Crypto1.bit (Crypto1.init 0xA0A1A2A3A4A5#64) [.byte 0 false] ≠
      keystream Register.bit (Register.ofKey 0xA0A1A2A3A4A5#64) [.byte 0 false] := by
  decide +kernel

end NfcStack.Classic
