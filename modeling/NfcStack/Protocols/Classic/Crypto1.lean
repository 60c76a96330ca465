import NfcStack.Lib.Bits
import NfcStack.Lib.Machine
import NfcStack.Basic

/-!
# The Crypto1 stream cipher

The cipher of `protocols/classic/crypto1.c`, with the register split into its odd
and even half, and the 48-bit shift register it stands for.
-/

namespace NfcStack.Classic

structure Crypto1 where
  odd : BitVec 32
  even : BitVec 32
deriving DecidableEq, Repr

def lfPolyOdd : BitVec 32 := 0x29CE5C#32

def lfPolyEven : BitVec 32 := 0x870804#32

def evenParity32 (data : BitVec 32) : BitVec 8 :=
  let data := data ^^^ (data >>> 16)
  let data := data ^^^ (data >>> 8)
  ((0x6996#32 >>> (data &&& 0x0F#32)) &&& 1#32).setWidth 8

def filter (x : BitVec 32) : BitVec 32 :=
  let out := (0xF22C0#32 >>> (x &&& 0xF#32)) &&& 16#32
  let out := out ||| ((0x6C9C0#32 >>> ((x >>> 4) &&& 0xF#32)) &&& 8#32)
  let out := out ||| ((0x3C8B0#32 >>> ((x >>> 8) &&& 0xF#32)) &&& 4#32)
  let out := out ||| ((0x1E458#32 >>> ((x >>> 12) &&& 0xF#32)) &&& 2#32)
  let out := out ||| ((0x0D938#32 >>> ((x >>> 16) &&& 0xF#32)) &&& 1#32)
  (0xEC57E80A#32 >>> out) &&& 1#32

namespace Crypto1

/-- `crypto1_init`: the loop index runs through 47, 45, …, 1. -/
def init (key : BitVec 64) : Crypto1 :=
  (List.range 24).foldl (fun c n =>
    let i := 47 - 2 * n
    { odd := (c.odd <<< 1) ||| ((key >>> ((i - 1) ^^^ 7)) &&& 1#64).setWidth 32
      even := (c.even <<< 1) ||| ((key >>> (i ^^^ 7)) &&& 1#64).setWidth 32 }) ⟨0, 0⟩

def bit (c : Crypto1) (input : BitVec 8) (isEncrypted : Bool) : Crypto1 × BitVec 8 :=
  let out := (filter c.odd).setWidth 8
  let feed := (out &&& (BitVec.ofBool isEncrypted).setWidth 8).setWidth 32
  let feed := feed ^^^ (BitVec.ofBool (input != 0)).setWidth 32
  let feed := feed ^^^ (lfPolyOdd &&& c.odd)
  let feed := feed ^^^ (lfPolyEven &&& c.even)
  let even := (c.even <<< 1) ||| (evenParity32 feed).setWidth 32
  ({ odd := even, even := c.odd }, out)

end Crypto1

/-! ## Bytes and words

A byte is fed in and put together from its lowest bit on, a word byte by byte from its highest
byte on (`BEBIT`). -/

section Ciphers

variable {σ τ : Type}

abbrev BitStep (σ : Type) := σ → BitVec 8 → Bool → σ × BitVec 8

/-- The loop of `crypto1_byte` and `crypto1_word`: bit `i` of the input is `inBit i`, and the
output bit goes to position `shift i`. -/
def bitLoop (step : BitStep σ) (inBit : ℕ → BitVec 8) (shift : ℕ → ℕ) (isEncrypted : Bool) :
    (n i : ℕ) → σ → BitVec 32 → σ × BitVec 32
  | 0, _, s, out => (s, out)
  | n + 1, i, s, out =>
    let r := step s (inBit i) isEncrypted
    bitLoop step inBit shift isEncrypted n (i + 1) r.1 (out ||| (r.2.setWidth 32 <<< shift i))

inductive Op
  | bit (input : BitVec 8) (isEncrypted : Bool)
  | byte (input : BitVec 8) (isEncrypted : Bool)
  | word (input : BitVec 32) (isEncrypted : Bool)
deriving DecidableEq, Repr

def byteBit (input : BitVec 8) (i : ℕ) : BitVec 8 := (input >>> i) &&& 1#8

def wordBit (input : BitVec 32) (i : ℕ) : BitVec 8 :=
  ((input >>> (i ^^^ 24)) &&& 1#32).setWidth 8

variable (step : BitStep σ) (s : σ)

def byte (input : BitVec 8) (isEncrypted : Bool) : σ × BitVec 8 :=
  let r := bitLoop step (byteBit input) id isEncrypted 8 0 s 0
  (r.1, r.2.setWidth 8)

def word (input : BitVec 32) (isEncrypted : Bool) : σ × BitVec 32 :=
  bitLoop step (wordBit input) (24 ^^^ ·) isEncrypted 32 0 s 0

def runOp : Op → σ × BitVec 32
  | .bit input isEncrypted =>
    let r := step s input isEncrypted
    (r.1, r.2.setWidth 32)
  | .byte input isEncrypted =>
    let r := byte step s input isEncrypted
    (r.1, r.2.setWidth 32)
  | .word input isEncrypted => word step s input isEncrypted

def keystream (step : BitStep σ) : σ → List Op → List (BitVec 32)
  | _, [] => []
  | s, op :: ops => (runOp step s op).2 :: keystream step (runOp step s op).1 ops

end Ciphers

abbrev Register := BitVec 48

namespace Register

variable (r : Register)

def oddHalf : BitVec 32 := pushBits 32 24 fun k => r.getLsbD (2 * (23 - k))

def tapSum : Bool :=
  xorBelow 24 fun j => (lfPolyOdd.getLsbD j && r.getLsbD (2 * j)) ^^
    (lfPolyEven.getLsbD j && r.getLsbD (2 * j + 1))

def ofKey (key : BitVec 64) : Register := pushBits 48 48 fun k => key.getLsbD ((47 - k) ^^^ 7)

/-- One bit of the reference cipher. -/
def bit (input : BitVec 8) (isEncrypted : Bool) : Register × BitVec 8 :=
  let out := (filter r.oddHalf).getLsbD 0
  let new := (input != 0) ^^ (isEncrypted && out) ^^ r.tapSum
  (shiftIn r new, (BitVec.ofBool out).setWidth 8)

end Register

end NfcStack.Classic
