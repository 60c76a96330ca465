import NfcStack.Protocols.Ultralight.Des

/-!
# The cipher in memory

Each block is read before it is written, so the loops compute the same in place as on two buffers that do
not overlap (`cbcLoop_spec`).
-/

namespace NfcStack.Ultralight

open CArray BlockCipher

variable {size : ℕ}

def cbcLoop (step : Block → Block → Block × Block) (src dst : ℕ) :
    (n off : ℕ) → Block → CArray UInt8 size → Option (CArray UInt8 size)
  | 0, _, _, mem => some mem
  | n + 1, off, iv, mem =>
    match mem.read? (src + off) 8 with
    | none => none
    | some input =>
      let r := step iv (.ofList 8 0 input)
      match mem.write? (dst + off) r.1.toList with
      | none => none
      | some mem => cbcLoop step src dst n (off + 8) r.2 mem

def encryptStep (key : Bytes) (iv input : Block) : Block × Block :=
  let block := tdes2Block key (xorBlock input iv) false
  (block, block)

def decryptStep (key : Bytes) (iv block : Block) : Block × Block :=
  (xorBlock (tdes2Block key block true) iv, block)

variable (key : CArray UInt8 16) (iv : Block) (input length out : ℕ) (mem : CArray UInt8 size)

def tdesEncryptAt : Option (CArray UInt8 size) :=
  cbcLoop (encryptStep key.toList) input out ((length + 7) / 8) 0 iv mem

def tdesDecryptAt : Option (CArray UInt8 size) :=
  cbcLoop (decryptStep key.toList) input out ((length + 7) / 8) 0 iv mem

def SameOrApart (src dst len : ℕ) : Prop := src = dst ∨ src + len ≤ dst ∨ dst + len ≤ src

theorem cbcLoop_spec (step : Block → Block → Block × Block) {src dst n off len : ℕ} (iv : Block)
    (mem : CArray UInt8 size) (hlen : off + 8 * n = len) (hsrc : src + len ≤ size)
    (hdst : dst + len ≤ size) (hapart : SameOrApart src dst len) :
    ∃ mem', cbcLoop step src dst n off iv mem = some mem' ∧
      mem'.slice (dst + off) (8 * n) =
        (chain step iv (blocks (mem.slice (src + off) (8 * n)))).flatMap CArray.toList ∧
      ∀ k l, k + l ≤ dst + off → mem'.slice k l = mem.slice k l := by
  induction n generalizing off iv mem with
  | zero => exact ⟨mem, rfl, by simp [blocks, chain], fun _ _ _ => rfl⟩
  | succ n ih =>
    have hread : mem.read? (src + off) 8 = some (mem.slice (src + off) 8) :=
      read?_of_le _ (by omega)
    have hblock : (mem.slice (src + off) 8).length = 8 := length_slice _ (by omega)
    set b : Block := .ofList 8 0 (mem.slice (src + off) 8) with hb
    have htoList : b.toList = mem.slice (src + off) 8 :=
      toList_ofList_of_length 0 hblock
    have hfit : dst + off + (step iv b).1.toList.length ≤ size := by simp; omega
    have hnext : off + 8 + 8 * n = len := by omega
    obtain ⟨mem', hloop, hout, hframe⟩ := ih (step iv b).2
      (mem.write (dst + off) (step iv b).1.toList) hnext
    -- the blocks that are still to be read are not the one that was written
    have hrest : (mem.write (dst + off) (step iv b).1.toList).slice (src + (off + 8)) (8 * n) =
        mem.slice (src + off + 8) (8 * n) := by
      unfold SameOrApart at hapart
      exact slice_write_of_disjoint _ hfit (by simp; omega)
    refine ⟨mem', ?_, ?_, ?_⟩
    · simp only [cbcLoop, hread, ← hb, write?_of_le _ hfit, hloop]
    · have hfirst : mem'.slice (dst + off) 8 = (step iv b).1.toList := by
        rw [hframe _ _ (by omega)]
        simpa using slice_write_self mem hfit
      rw [show 8 * (n + 1) = 8 + 8 * n by omega, ← slice_append, ← slice_append,
        hfirst, Nat.add_assoc dst, hout, hrest, ← htoList, blocks_append]
      rfl
    · intro k l hkl
      rw [hframe k l (by omega), slice_write_of_disjoint _ hfit (by omega)]

variable {x y len : ℕ}

section

variable (key : CArray UInt8 16) (iv : Block) (mem : CArray UInt8 size) (h8 : 8 ∣ len)
  (hx : x + len ≤ size) (hy : y + len ≤ size) (hxy : SameOrApart x y len)

include h8 hx hy hxy

theorem cbcLoop_eq (step : Block → Block → Block × Block) :
    ∃ mem', cbcLoop step x y ((len + 7) / 8) 0 iv mem = some mem' ∧
      mem'.slice y len = (chain step iv (blocks (mem.slice x len))).flatMap CArray.toList := by
  obtain ⟨n, rfl⟩ := h8
  rw [show (8 * n + 7) / 8 = n by omega]
  obtain ⟨mem', hloop, hout, -⟩ := cbcLoop_spec step iv mem (Nat.zero_add (8 * n)) hx hy hxy
  exact ⟨mem', hloop, hout⟩

theorem tdesEncryptAt_eq : ∃ mem', tdesEncryptAt key iv x len y mem = some mem' ∧
    mem'.slice y len = tdesEncrypt key.toList iv.toList (mem.slice x len) := by
  rw [tdesEncrypt, ofList_toList, ← chain_encrypt]
  exact cbcLoop_eq iv mem h8 hx hy hxy _

theorem tdesDecryptAt_eq : ∃ mem', tdesDecryptAt key iv x len y mem = some mem' ∧
    mem'.slice y len = tdesDecrypt key.toList iv.toList (mem.slice x len) := by
  rw [tdesDecrypt, ofList_toList, ← chain_decrypt]
  exact cbcLoop_eq iv mem h8 hx hy hxy _

end

/-- From `x` over `y` to `z`, encryption and decryption undo each other in both orders. The buffers
may be one and the same. -/
theorem tdes_inverse (key : CArray UInt8 16) (iv : Block) (mem : CArray UInt8 size) {z : ℕ}
    (h8 : 8 ∣ len) (hx : x + len ≤ size) (hy : y + len ≤ size) (hz : z + len ≤ size)
    (hxy : SameOrApart x y len) (hyz : SameOrApart y z len) :
    (∃ mem₁ mem₂, tdesEncryptAt key iv x len y mem = some mem₁ ∧
      tdesDecryptAt key iv y len z mem₁ = some mem₂ ∧ mem₂.slice z len = mem.slice x len) ∧
    ∃ mem₁ mem₂, tdesDecryptAt key iv x len y mem = some mem₁ ∧
      tdesEncryptAt key iv y len z mem₁ = some mem₂ ∧ mem₂.slice z len = mem.slice x len := by
  have hlen : (mem.slice x len).length = 8 * (len / 8) := by
    rw [length_slice _ hx, Nat.mul_div_cancel' h8]
  constructor
  · obtain ⟨mem₁, hrun₁, hout₁⟩ := tdesEncryptAt_eq key iv mem h8 hx hy hxy
    obtain ⟨mem₂, hrun₂, hout₂⟩ := tdesDecryptAt_eq key iv mem₁ h8 hy hz hyz
    refine ⟨mem₁, mem₂, hrun₁, hrun₂, ?_⟩
    rw [hout₂, hout₁, tdesDecrypt_tdesEncrypt _ _ hlen]
  · obtain ⟨mem₁, hrun₁, hout₁⟩ := tdesDecryptAt_eq key iv mem h8 hx hy hxy
    obtain ⟨mem₂, hrun₂, hout₂⟩ := tdesEncryptAt_eq key iv mem₁ h8 hy hz hyz
    refine ⟨mem₁, mem₂, hrun₁, hrun₂, ?_⟩
    rw [hout₂, hout₁, tdesEncrypt_tdesDecrypt _ _ hlen]

theorem tdes_inverse_in_place :
    ∃ mem₁ mem₂, tdesEncryptAt (.fill 16 0x49) (.fill 8 0) 0 16 0 (.fill 16 0x2A) = some mem₁ ∧
      tdesDecryptAt (.fill 16 0x49) (.fill 8 0) 0 16 0 mem₁ = some mem₂ ∧
      mem₂.slice 0 16 = (CArray.fill 16 (0x2A : UInt8)).slice 0 16 :=
  (tdes_inverse (.fill 16 0x49) (.fill 8 0) (.fill 16 0x2A) (x := 0) (y := 0) (z := 0)
    (by decide) (by decide) (by decide) (by decide) (.inl rfl) (.inl rfl)).1

end NfcStack.Ultralight
