import NfcStack.Protocols.Classic.Poller

/-!
# Stored MIFARE Classic cards

`classic_deserialize` of `protocols/classic/classic.c` and the load of a stored card. A load that fails
leaves what it has read by then.
-/

namespace NfcStack.Classic

variable {cfg : Config}

def formatVersion : UInt8 := 0x01

def CardType.ofByte (b : UInt8) : CardType :=
  if b = 0 then .mini else if b = 1 then .type1k else if b = 2 then .type4k else .unknown

def leNum (w : ℕ) (bytes : Bytes) : BitVec w := beNum w bytes.reverse

def maskWords (bytes : Bytes) : List (BitVec 32) :=
  (List.range 8).map fun i => leNum 32 ((bytes.drop (4 * i)).take 4)

def CardData.deserializeTail (data : CardData cfg) (rest : Bytes) : CardData cfg × Ret :=
  if rest.length < 48 then (data, .error .ebadmsg)
  else
    let data := { data with
      blockReadMask := .ofList 8 0 (maskWords rest)
      keyAMask := leNum 64 ((rest.drop 32).take 8)
      keyBMask := leNum 64 ((rest.drop 40).take 8) }
    let total := getTotalBlocks data.type
    if cfg.blockCount < total then (data, .error .enospc)
    -- exactly the blocks of the type, none missing and nothing behind them
    else if rest.length ≠ 48 + total * blockSize then (data, .error .ebadmsg)
    else ({ data with blocks := data.blocks.write 0 (rest.drop 48) }, .ok ())

def CardData.deserialize (bytes : Bytes) : CardData cfg × Ret :=
  let data : CardData cfg := .reset
  if bytes.length < 4 ∨ byteAt bytes 0 ≠ formatVersion then (data, .error .ebadmsg)
  else
    -- type and length are stored before they are looked at
    let data := { data with type := .ofByte (byteAt bytes 1) }
    if data.type = .unknown then (data, .error .ebadmsg)
    else
      let data := { data with uidLen := byteAt bytes 2 }
      let len := (byteAt bytes 2).toNat
      if len = 0 ∨ 10 < len ∨ bytes.length < 3 + len + 3 then (data, .error .ebadmsg)
      else
        let rest := bytes.drop 3
        let data := { data with
          uid := data.uid.write 0 (rest.take len)
          sak := byteAt rest len
          atqa := .ofList 2 0 (rest.drop (len + 1)) }
        data.deserializeTail (rest.drop (len + 3))

def listenerDeserialize (st : State cfg) (bytes : Bytes) : State cfg × Ret :=
  if ¬ st.initialized then (st, .error .enodev)
  else
    let r : CardData cfg × Ret := CardData.deserialize bytes
    ({ st with model := r.1.toData }, r.2)

end NfcStack.Classic
