import NfcStack.Protocols.Iso15693.Model
import NfcStack.Reader.Session

/-!
# The ISO15693-3 poller

The reader side of `protocols/iso15693_3/iso15693_3_poller.c`. A function that fills
a card in place returns the card together with its result, since the steps that
may be missing on a tag leave what they had filled in.
-/

namespace NfcStack.Iso15693

open NfcStack.Reader

def txMax : ℕ := 32

def blocksPerQuery : ℕ := 32

def cmdFlags : UInt8 := 0x02

variable {τ : Type} (s : Session τ)

def sendFrame (payload : Bytes) : Poll τ (Except Errno Bytes) := do
  match crcAppend txMax payload with
  | none => return .error .einval
  | some tx =>
    match ← s.transceive maxResponseLen tx with
    | .error e => return .error e
    | .ok rx => return if crcCheck rx then .ok (crcTrim rx) else .error .eio

def pollerInventory (data : Data) : Poll τ (Data × Ret) := do
  match ← sendFrame s [0x26, 0x01] with
  | .error e => return (data, .error e)
  | .ok rx => return inventoryResponseParse rx data

def pollerGetSystemInfo (data : Data) : Poll τ (Data × Ret) := do
  match ← sendFrame s [cmdFlags, 0x2B] with
  | .error e => return (data, .error e)
  | .ok rx => return systemInfoResponseParse rx data

def pollerReadBlock (blockNum blockSize : UInt8) : Poll τ (Except Errno Bytes) := do
  match ← sendFrame s [cmdFlags, 0x20, blockNum] with
  | .error e => return .error e
  | .ok rx => return readBlockResponseParse rx blockSize

def readBlocks : (n block : ℕ) → Data → Poll τ (Data × Ret)
  | 0, _, data => return (data, .ok ())
  | n + 1, block, data => do
    match ← pollerReadBlock s (UInt8.ofNat block) data.blockSize with
    | .error e => return (data, .error e)
    | .ok bytes =>
      match data.blockData.write? (block * data.blockSize.toNat) bytes with
      | none => Poll.undefined
      | some blockData => readBlocks n (block + 1) { data with blockData }

/-- The loop of `iso15693_3_poller_get_blocks_security`, with `n` queries to go. The last byte of
a query is the number of blocks less one. -/
def blocksSecurityLoop : (n start : ℕ) → Data → Poll τ (Data × Ret)
  | 0, _, data => return (data, .ok ())
  | n + 1, start, data => do
    let batch := min (data.blockCount.toNat - start) blocksPerQuery
    match ← sendFrame s [cmdFlags, 0x2C, UInt8.ofNat start, UInt8.ofNat (batch - 1)] with
    | .error e => return (data, .error e)
    | .ok rx =>
      match getBlockSecurityResponseParse rx batch with
      | .error e => return (data, .error e)
      | .ok bytes =>
        match data.blockSecurity.write? start bytes with
        | none => Poll.undefined
        | some blockSecurity =>
          blocksSecurityLoop n (start + blocksPerQuery) { data with blockSecurity }

def pollerGetBlocksSecurity (data : Data) : Poll τ (Data × Ret) :=
  if data.blockCount = 0 ∨ blocksMax < data.blockCount.toNat then
    return (data, .error .einval)
  else
    -- one query for every `start` below the block count
    blocksSecurityLoop s ((data.blockCount.toNat + blocksPerQuery - 1) / blocksPerQuery) 0 data

def pollerDetect : Poll τ Ret :=
  if s.active then do
    match ← pollerInventory s .reset with
    | (_, .ok _) => return .ok ()
    | (_, .error _) => return .error .enotsup
  else return .error .einval

def readMemory (out : Data) : Poll τ (Data × Ret) := do
  let (out, ret) ← readBlocks s out.blockCount.toNat 0 out
  if ¬ optionalStepOk ret then return (out, ret)
  let (out, ret) ← pollerGetBlocksSecurity s out
  if ¬ optionalStepOk ret then return (out, ret)
  return (out, .ok ())

def pollerRead (out : Data) : Poll τ (Data × Ret) := do
  if s.active = false then return (out, .error .einval)
  let (out, ret) ← pollerInventory s .reset
  if ret ≠ .ok () then return (out, ret)
  let (out, ret) ← pollerGetSystemInfo s out
  if ¬ optionalStepOk ret then return (out, ret)
  if out.blockCount = 0 ∨ out.blockSize = 0 then return (out, .ok ())
  readMemory s out

end NfcStack.Iso15693
