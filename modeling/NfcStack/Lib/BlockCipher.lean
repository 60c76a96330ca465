import Mathlib.Tactic

/-!
# Block ciphers

Feistel networks, chaining, rotations and swap-moves, each with the theorem that undoes it.
-/

namespace BlockCipher

open BitVec

section Feistel

variable {α κ : Type*} (combine : α → α → α) (f : κ → α → α)

def feistelRound (k : κ) (b : α × α) : α × α := (b.2, combine b.1 (f k b.2))

def feistel : List κ → α × α → α × α
  | [], b => b
  | k :: ks, b => feistel ks (feistelRound combine f k b)

theorem feistel_append (ks ks' : List κ) (b : α × α) :
    feistel combine f (ks ++ ks') b = feistel combine f ks' (feistel combine f ks b) := by
  induction ks generalizing b with
  | nil => rfl
  | cons k ks ih => exact ih _

variable {combine}

theorem feistelRound_swap (cancel : ∀ a b, combine (combine a b) b = a) (k : κ) (b : α × α) :
    feistelRound combine f k (feistelRound combine f k b).swap = b.swap := by
  show (b.2, combine (combine b.1 (f k b.2)) (f k b.2)) = b.swap
  rw [cancel]
  rfl

theorem feistel_reverse (cancel : ∀ a b, combine (combine a b) b = a) (ks : List κ) (b : α × α) :
    feistel combine f ks.reverse (feistel combine f ks b).swap = b.swap := by
  induction ks generalizing b with
  | nil => rfl
  | cons k ks ih =>
    rw [List.reverse_cons, feistel_append]
    show feistelRound combine f k (feistel combine f ks.reverse
      (feistel combine f ks (feistelRound combine f k b)).swap) = b.swap
    rw [ih, feistelRound_swap f cancel]

end Feistel

section Chaining

variable {β : Type*} (combine : β → β → β)

def cbcEncrypt (enc : β → β) : β → List β → List β
  | _, [] => []
  | iv, p :: ps => enc (combine p iv) :: cbcEncrypt enc (enc (combine p iv)) ps

def cbcDecrypt (dec : β → β) : β → List β → List β
  | _, [] => []
  | iv, c :: cs => combine (dec c) iv :: cbcDecrypt dec c cs

theorem length_cbcEncrypt (enc : β → β) (iv : β) (ps : List β) :
    (cbcEncrypt combine enc iv ps).length = ps.length := by
  induction ps generalizing iv with
  | nil => rfl
  | cons p ps ih => simp only [cbcEncrypt, List.length_cons, ih]

variable {combine}

variable {dec enc : β → β}

theorem cbcDecrypt_cbcEncrypt (cancel : ∀ a b, combine (combine a b) b = a)
    (hdec : ∀ b, dec (enc b) = b) (iv : β) (ps : List β) :
    cbcDecrypt combine dec iv (cbcEncrypt combine enc iv ps) = ps := by
  induction ps generalizing iv with
  | nil => rfl
  | cons p ps ih => rw [cbcEncrypt, cbcDecrypt, hdec, cancel, ih]

theorem cbcEncrypt_cbcDecrypt (cancel : ∀ a b, combine (combine a b) b = a)
    (henc : ∀ b, enc (dec b) = b) (iv : β) (cs : List β) :
    cbcEncrypt combine enc iv (cbcDecrypt combine dec iv cs) = cs := by
  induction cs generalizing iv with
  | nil => rfl
  | cons c cs ih => rw [cbcDecrypt, cbcEncrypt, cancel, henc, ih]

def chain (step : β → β → β × β) : β → List β → List β
  | _, [] => []
  | iv, b :: bs => (step iv b).1 :: chain step (step iv b).2 bs

theorem chain_encrypt (enc : β → β) (iv : β) (ps : List β) :
    chain (fun iv p => (enc (combine p iv), enc (combine p iv))) iv ps =
      cbcEncrypt combine enc iv ps := by
  induction ps generalizing iv with
  | nil => rfl
  | cons p ps ih => rw [chain, ih, cbcEncrypt]

theorem chain_decrypt (dec : β → β) (iv : β) (cs : List β) :
    chain (fun iv c => (combine (dec c) iv, c)) iv cs = cbcDecrypt combine dec iv cs := by
  induction cs generalizing iv with
  | nil => rfl
  | cons c cs ih => rw [chain, ih, cbcDecrypt]

end Chaining

section Words

variable {w : ℕ}

def rotate (k l : ℕ) (x : BitVec w) : BitVec w := (x <<< k) ||| (x >>> l)

variable {k l : ℕ}

theorem getLsbD_rotate (hw : k + l = w) (x : BitVec w) {i : ℕ} (hi : i < w) :
    (rotate k l x).getLsbD i = if i < k then x.getLsbD (i + l) else x.getLsbD (i - k) := by
  rw [rotate, getLsbD_or, getLsbD_shiftLeft]
  split
  · next hk => simp [hk, Nat.add_comm]
  · next hk => simp [hk, hi, getLsbD_of_ge x (l + i) (by omega)]

theorem rotate_rotate (hw : k + l = w) (x : BitVec w) : rotate l k (rotate k l x) = x := by
  apply eq_of_getLsbD_eq
  intro i hi
  rw [getLsbD_rotate (by omega) _ hi]
  split
  · rw [getLsbD_rotate hw _ (by omega), if_neg (by omega), Nat.add_sub_cancel]
  · rw [getLsbD_rotate hw _ (by omega), if_pos (by omega), Nat.sub_add_cancel (by omega)]

theorem rotate_comp_rotate (hw : k + l = w) :
    rotate l k ∘ rotate k l = (id : BitVec w → BitVec w) :=
  funext (rotate_rotate hw)

/-- The bits of the second word under `mask` change places with those of the first word `k` places
higher. -/
def swapMove (k : ℕ) (mask : BitVec w) (b : BitVec w × BitVec w) : BitVec w × BitVec w :=
  let t := ((b.1 >>> k) ^^^ b.2) &&& mask
  (b.1 ^^^ (t <<< k), b.2 ^^^ t)

variable {mask : BitVec w}

theorem shiftLeft_shiftRight_and (h : mask <<< k >>> k = mask)
    (x : BitVec w) : (x &&& mask) <<< k >>> k = x &&& mask := by
  apply eq_of_getLsbD_eq
  intro i hi
  have hbit := congrArg (·.getLsbD i) h
  simp only [getLsbD_ushiftRight, getLsbD_shiftLeft, Nat.add_sub_cancel_left, getLsbD_and] at hbit ⊢
  generalize mask.getLsbD i = m at *
  cases m with
  | false => simp
  | true =>
    have hlt : k + i < w := by simpa using hbit
    simp [hlt]

theorem swapMove_swapMove (h : mask <<< k >>> k = mask)
    (b : BitVec w × BitVec w) : swapMove k mask (swapMove k mask b) = b := by
  obtain ⟨x, y⟩ := b
  -- the second pass moves the same bits as the first
  have hsame : (((x ^^^ ((((x >>> k) ^^^ y) &&& mask) <<< k)) >>> k) ^^^
      (y ^^^ (((x >>> k) ^^^ y) &&& mask))) &&& mask = ((x >>> k) ^^^ y) &&& mask := by
    have hcancel : ∀ a t : BitVec w, (a ^^^ t) ^^^ (y ^^^ t) = a ^^^ y := by
      intro a t
      rw [BitVec.xor_comm y, BitVec.xor_assoc, ← BitVec.xor_assoc t, BitVec.xor_self,
        BitVec.zero_xor]
    rw [BitVec.ushiftRight_xor_distrib, shiftLeft_shiftRight_and h, hcancel]
  simp only [swapMove, hsame, BitVec.xor_assoc, BitVec.xor_self, BitVec.xor_zero]

end Words

end BlockCipher
