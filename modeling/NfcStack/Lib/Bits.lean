import Mathlib.Tactic

/-!
# Bits shifted into a register, and sums of bits

`pushBits w n f` is a register of `w` bits after `f 0, …, f (n - 1)` were shifted in from the right,
`xorBelow n f` the parity of these bits.
-/

def shiftIn {w : ℕ} (x : BitVec w) (b : Bool) : BitVec w :=
  (x <<< 1) ||| (BitVec.ofBool b).setWidth w

def pushBits (w : ℕ) : ℕ → (ℕ → Bool) → BitVec w
  | 0, _ => 0
  | n + 1, f => shiftIn (pushBits w n f) (f n)

def xorBelow : ℕ → (ℕ → Bool) → Bool
  | 0, _ => false
  | n + 1, f => xorBelow n f ^^ f n

theorem getLsbD_shiftIn {w : ℕ} (x : BitVec w) (b : Bool) {i : ℕ} (hi : i < w) :
    (shiftIn x b).getLsbD i = if i = 0 then b else x.getLsbD (i - 1) := by
  simp only [shiftIn, BitVec.getLsbD_or, BitVec.getLsbD_shiftLeft, BitVec.getLsbD_setWidth,
    BitVec.getLsbD_ofBool, hi, decide_true, Bool.true_and]
  rcases i with _ | i
  · simp
  · simp

theorem getLsbD_pushBits {w n : ℕ} (f : ℕ → Bool) {i : ℕ} (hi : i < n) (hn : n ≤ w) :
    (pushBits w n f).getLsbD i = f (n - 1 - i) := by
  induction n generalizing i with
  | zero => omega
  | succ n ih =>
    rw [pushBits, getLsbD_shiftIn _ _ (by omega)]
    split
    · next h => simp [h]
    · rw [ih (by omega) (by omega)]
      congr 1
      omega

theorem xorBelow_congr {n : ℕ} {f g : ℕ → Bool} (h : ∀ i < n, f i = g i) :
    xorBelow n f = xorBelow n g := by
  induction n with
  | zero => rfl
  | succ n ih =>
    rw [xorBelow, xorBelow, ih fun i hi => h i (by omega), h n (by omega)]

theorem xorBelow_xor (n : ℕ) (f g : ℕ → Bool) :
    xorBelow n (fun i => f i ^^ g i) = (xorBelow n f ^^ xorBelow n g) := by
  induction n with
  | zero => rfl
  | succ n ih =>
    rw [xorBelow, ih, xorBelow, xorBelow, Bool.xor_assoc, Bool.xor_assoc,
      Bool.xor_left_comm (xorBelow n g)]

theorem xorBelow_of_clear {n m : ℕ} {f : ℕ → Bool} (hnm : n ≤ m)
    (h : ∀ i, n ≤ i → i < m → f i = false) : xorBelow m f = xorBelow n f := by
  induction m, hnm using Nat.le_induction with
  | base => rfl
  | succ m hle ih =>
    rw [xorBelow, ih fun i h1 h2 => h i h1 (by omega), h m hle (by omega), Bool.xor_false]
