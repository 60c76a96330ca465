import Mathlib.Data.Nat.Bitwise
import Mathlib.Tactic

/-!
# Cyclic checks of sixteen bits

A register is shifted once for every bit, which goes in at the place `dig 0`. A shift is linear and loses
nothing, so a burst that is no longer than the register is always seen.
-/

namespace Cyclic

open List

variable {step : UInt16 → UInt16} {dig : ℕ → UInt16}

def bit (dig : ℕ → UInt16) (k : ℕ) (b : Bool) : UInt16 := if b then dig k else 0

def feed (step : UInt16 → UInt16) (dig : ℕ → UInt16) (r : UInt16) (bits : List Bool) : UInt16 :=
  bits.foldl (fun r b => step (r ^^^ bit dig 0 b)) r

/-- The register that holds the bits in the places from `dig k` on. -/
def word (dig : ℕ → UInt16) : ℕ → List Bool → UInt16
  | _, [] => 0
  | k, b :: bits => bit dig k b ^^^ word dig (k + 1) bits

structure Shifts (step : UInt16 → UInt16) (dig : ℕ → UInt16) : Prop where
  xor : ∀ x y, step (x ^^^ y) = step x ^^^ step y
  eq_zero : ∀ x, step x = 0 → x = 0
  step_dig : ∀ k < 15, step (dig (k + 1)) = dig k
  place : ∃ pos : ℕ → ℕ, ∀ j < 16, ∀ k < 16, (dig k).toBitVec.getLsbD (pos j) = decide (j = k)

def lsbStep (poly crc : UInt16) : UInt16 :=
  if crc &&& 1 ≠ 0 then (crc >>> 1) ^^^ poly else crc >>> 1

def msbStep (poly crc : UInt16) : UInt16 :=
  if crc &&& 0x8000 ≠ 0 then (crc <<< 1) ^^^ poly else crc <<< 1

variable (k : ℕ)

def lsbDig : UInt16 := 1 <<< UInt16.ofNat k

def msbDig : UInt16 := 0x8000 >>> UInt16.ofNat k

/-- The bits differ in a burst of at most `n` consecutive ones. -/
def Burst (n : ℕ) (bits bits' : List Bool) : Prop :=
  ∃ before burst behind, burst.length ≤ n ∧ true ∈ burst ∧
    bits.length = before + burst.length + behind ∧
    bits' = zipWith Bool.xor bits (replicate before false ++ burst ++ replicate behind false)

theorem bit_xor (x y : Bool) : bit dig k (x ^^ y) = bit dig k x ^^^ bit dig k y := by
  cases x <;> cases y <;> simp [bit]

theorem word_append (xs ys : List Bool) :
    word dig k (xs ++ ys) = word dig k xs ^^^ word dig (k + xs.length) ys := by
  induction xs generalizing k with
  | nil => simp [word]
  | cons x xs ih => simp only [cons_append, word, ih, length_cons, UInt16.xor_assoc, Nat.add_assoc,
      Nat.add_comm 1]

theorem feed_append (r : UInt16) (xs ys : List Bool) :
    feed step dig r (xs ++ ys) = feed step dig (feed step dig r xs) ys :=
  foldl_append

theorem feed_replicate (n : ℕ) (r : UInt16) : feed step dig r (replicate n false) = step^[n] r := by
  induction n generalizing r with
  | zero => rfl
  | succ n ih => exact (congrArg (feed step dig · _) (congrArg step r.xor_zero)).trans (ih (step r))

theorem getLsbD_word {pos : ℕ → ℕ}
    (hpos : ∀ j < 16, ∀ k < 16, (dig k).toBitVec.getLsbD (pos j) = decide (j = k))
    {bits : List Bool} {k j : ℕ} (hlen : k + bits.length ≤ 16) (hj : j < 16) :
    (word dig k bits).toBitVec.getLsbD (pos j) = (decide (k ≤ j) && bits[j - k]?.getD false) := by
  induction bits generalizing k with
  | nil => simp [word]
  | cons b bits ih =>
    rw [length_cons] at hlen
    have hbit : (bit dig k b).toBitVec.getLsbD (pos j) = (decide (j = k) && b) := by
      cases b <;> simp [bit, hpos j hj k (by omega)]
    rw [word, UInt16.toBitVec_xor, BitVec.getLsbD_xor, hbit, ih (by omega)]
    rcases Nat.lt_trichotomy k j with hlt | rfl | hlt
    · rw [show j - k = j - (k + 1) + 1 by omega, getElem?_cons_succ]
      simp [show ¬ j = k by omega, show k + 1 ≤ j by omega, show k ≤ j by omega]
    · simp
    · simp [show ¬ j = k by omega, show ¬ k + 1 ≤ j by omega, show ¬ k ≤ j by omega]

namespace Shifts

variable (h : Shifts step dig)

include h

theorem step_zero : step 0 = 0 := by
  have hzero := h.xor 0 0
  rwa [UInt16.xor_self, UInt16.xor_self] at hzero

theorem iterate_xor (n : ℕ) (x y : UInt16) : step^[n] (x ^^^ y) = step^[n] x ^^^ step^[n] y := by
  induction n generalizing x y with
  | zero => rfl
  | succ n ih => simp only [Function.iterate_succ_apply, h.xor, ih]

theorem iterate_eq_zero {n : ℕ} {x : UInt16} (hx : step^[n] x = 0) : x = 0 := by
  induction n generalizing x with
  | zero => exact hx
  | succ n ih => exact h.eq_zero x (ih hx)

theorem step_word {bits : List Bool} {k : ℕ} (hk : k + bits.length ≤ 15) :
    step (word dig (k + 1) bits) = word dig k bits := by
  induction bits generalizing k with
  | nil => exact h.step_zero
  | cons b bits ih =>
    rw [length_cons] at hk
    have hbit : step (bit dig (k + 1) b) = bit dig k b := by
      cases b
      · exact h.step_zero
      · exact h.step_dig k (by omega)
    rw [word, h.xor, ih (by omega), word, hbit]

/-- Up to sixteen bits may as well be there before the first shift. -/
theorem feed_eq {bits : List Bool} (hlen : bits.length ≤ 16) (r : UInt16) :
    feed step dig r bits = step^[bits.length] (r ^^^ word dig 0 bits) := by
  induction bits generalizing r with
  | nil => simp [feed, word]
  | cons b bits ih =>
    rw [length_cons] at hlen
    have hstep : step (word dig 1 bits) = word dig 0 bits := h.step_word (by omega)
    rw [feed, foldl_cons, ← feed, ih (by omega), length_cons, Function.iterate_succ_apply, word,
      ← hstep, ← h.xor, UInt16.xor_assoc]

theorem feed_xor {xs ys : List Bool} (hlen : xs.length = ys.length) (r s : UInt16) :
    feed step dig (r ^^^ s) (zipWith Bool.xor xs ys) = feed step dig r xs ^^^ feed step dig s ys := by
  induction xs generalizing ys r s with
  | nil => cases ys <;> simp_all [feed]
  | cons x xs ih =>
    cases ys with
    | nil => simp at hlen
    | cons y ys =>
      have hstep : step (r ^^^ s ^^^ bit dig 0 (x ^^ y)) =
          step (r ^^^ bit dig 0 x) ^^^ step (s ^^^ bit dig 0 y) := by
        rw [bit_xor, ← h.xor]
        ac_rfl
      exact (congrArg (feed step dig · _) hstep).trans (ih (by simpa using hlen) _ _)

theorem not_mem_of_word {bits : List Bool} (hlen : bits.length ≤ 16) (hword : word dig 0 bits = 0) :
    true ∉ bits := by
  intro hmem
  obtain ⟨j, hj, hbit⟩ := getElem_of_mem hmem
  obtain ⟨pos, hpos⟩ := h.place
  have hplace := getLsbD_word hpos (k := 0) (by omega : 0 + bits.length ≤ 16) (hj.trans_le hlen)
  simp [hword, hj, hbit] at hplace

/-- The registers of two inputs differ by what the difference alone leaves. -/
theorem feed_ne_of_burst {bits bits' : List Bool} (hb : Burst 16 bits bits') (r : UInt16) :
    feed step dig r bits' ≠ feed step dig r bits := by
  obtain ⟨before, burst, behind, hlen, hmem, hbits, rfl⟩ := hb
  intro hfeed
  have hlen' : bits.length = (replicate before false ++ burst ++ replicate behind false).length := by
    simpa [Nat.add_assoc] using hbits
  have hsum := h.feed_xor hlen' r 0
  rw [UInt16.xor_zero, hfeed, feed_append, feed_append, feed_replicate, feed_replicate,
    Function.iterate_fixed h.step_zero, h.feed_eq hlen, UInt16.zero_xor] at hsum
  have hzero := (UInt16.xor_right_inj _).mp (UInt16.xor_zero.trans hsum)
  exact h.not_mem_of_word hlen (h.iterate_eq_zero (h.iterate_eq_zero hzero.symm)) hmem

end Shifts

theorem getLsbD_eq (x : UInt16) (i : ℕ) : x.toBitVec.getLsbD i = decide (x.toNat / 2 ^ i % 2 = 1) :=
  Nat.testBit_eq_decide_div_mod_eq

theorem and_eq_zero {x m : UInt16} {i : ℕ} (hm : m.toNat = 2 ^ i) :
    x &&& m = 0 ↔ x.toBitVec.getLsbD i = false := by
  rw [← UInt16.toNat_inj, UInt16.toNat_and, hm, Nat.and_two_pow, UInt16.toNat_zero, Nat.mul_eq_zero,
    Bool.toNat_eq_zero, or_iff_left (by positivity)]
  rfl

theorem lsbStep_eq (poly x : UInt16) :
    lsbStep poly x = (x >>> 1) ^^^ bit (fun _ => poly) 0 (x.toBitVec.getLsbD 0) := by
  simp only [lsbStep, ne_eq, and_eq_zero (show UInt16.toNat 1 = 2 ^ 0 from rfl)]
  cases x.toBitVec.getLsbD 0 <;> simp [bit]

theorem msbStep_eq (poly x : UInt16) :
    msbStep poly x = (x <<< 1) ^^^ bit (fun _ => poly) 0 (x.toBitVec.getLsbD 15) := by
  simp only [msbStep, ne_eq, and_eq_zero (show UInt16.toNat 0x8000 = 2 ^ 15 from rfl)]
  cases x.toBitVec.getLsbD 15 <;> simp [bit]

theorem lsbStep_shifts {poly : UInt16} (hpoly : 0x8000 ≤ poly) : Shifts (lsbStep poly) lsbDig where
  xor x y := by
    simp only [lsbStep_eq, UInt16.toBitVec_xor, BitVec.getLsbD_xor, bit_xor, UInt16.shiftRight_xor]
    ac_rfl
  eq_zero x hx := by
    rw [lsbStep_eq, UInt16.xor_eq_zero_iff, ← UInt16.toNat_inj, UInt16.toNat_shiftRight, getLsbD_eq,
      bit] at hx
    have hlt := x.toNat_lt
    rw [UInt16.le_iff_toNat_le] at hpoly
    rw [← UInt16.toNat_inj]
    split at hx <;> simp_all [Nat.shiftRight_eq_div_pow] <;> omega
  step_dig k hk := by
    have hdig : ∀ k < 15, (lsbDig (k + 1)).toBitVec.getLsbD 0 = false ∧
        lsbDig (k + 1) >>> 1 = lsbDig k := by decide
    rw [lsbStep_eq, (hdig k hk).1, (hdig k hk).2]
    exact UInt16.xor_zero
  place := ⟨id, by decide⟩

theorem msbStep_shifts {poly : UInt16} (hpoly : poly.toNat % 2 = 1) :
    Shifts (msbStep poly) msbDig where
  xor x y := by
    simp only [msbStep_eq, UInt16.toBitVec_xor, BitVec.getLsbD_xor, bit_xor, UInt16.shiftLeft_xor]
    ac_rfl
  eq_zero x hx := by
    rw [msbStep_eq, UInt16.xor_eq_zero_iff, ← UInt16.toNat_inj, UInt16.toNat_shiftLeft, getLsbD_eq,
      bit] at hx
    have hlt := x.toNat_lt
    rw [← UInt16.toNat_inj]
    split at hx <;> simp_all [Nat.shiftLeft_eq] <;> omega
  step_dig k hk := by
    have hdig : ∀ k < 15, (msbDig (k + 1)).toBitVec.getLsbD 15 = false ∧
        msbDig (k + 1) <<< 1 = msbDig k := by decide
    rw [msbStep_eq, (hdig k hk).1, (hdig k hk).2]
    exact UInt16.xor_zero
  place := ⟨(15 - ·), by decide⟩

end Cyclic
