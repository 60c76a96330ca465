import NfcStack.Basic

/-!
# The MIFARE Ultralight card

The data model of `protocols/ultralight/ultralight.c` with its stored form, and the
search for the NDEF message in the data pages.
-/

namespace NfcStack.Ultralight

structure Config where
  maxPages : ℕ
  le_maxPages : 16 ≤ maxPages
  maxPages_le : maxPages ≤ 256

def Config.default : Config := ⟨256, by decide, by decide⟩

def formatVersion : UInt8 := 0x01

def pageSize : ℕ := 4

inductive CardType
  | origin | ul11 | ul21 | ntag203 | ntag213 | ntag215 | ntag216 | mfulC | unknown
deriving DecidableEq, Repr

structure Variant where
  code : UInt8
deriving DecidableEq, Repr

namespace Variant

def origin : Variant := ⟨0⟩
def ul11 : Variant := ⟨1⟩
def ul21 : Variant := ⟨2⟩
def unknown : Variant := ⟨0xFF⟩

end Variant

structure Data (cfg : Config) where
  pages : CArray UInt8 (cfg.maxPages * pageSize)
  pagesTotal : UInt16
  pagesRead : UInt16
  type : CardType
  variant : Variant
  version : CArray UInt8 8
  hasVersion : Bool
  signature : CArray UInt8 32
  hasSignature : Bool
  counters : CArray UInt8 9
  counterCount : UInt8
  tearingFlags : CArray UInt8 3
  tearingFlagCount : UInt8
deriving DecidableEq

variable {cfg : Config}

def Data.reset : Data cfg where
  pages := .fill _ 0
  pagesTotal := 0
  pagesRead := 0
  type := .unknown
  variant := .unknown
  version := .fill _ 0
  hasVersion := false
  signature := .fill _ 0
  hasSignature := false
  counters := .fill _ 0
  counterCount := 0
  tearingFlags := .fill _ 0
  tearingFlagCount := 0

def CardType.ofPagesTotal (pagesTotal : UInt16) : CardType :=
  if pagesTotal = 16 then .origin
  else if pagesTotal = 20 then .ul11
  else if pagesTotal = 41 then .ul21
  else if pagesTotal = 42 then .ntag203
  else if pagesTotal = 45 then .ntag213
  else if pagesTotal = 48 then .mfulC
  else if pagesTotal = 135 then .ntag215
  else if pagesTotal = 231 then .ntag216
  else .unknown

def Variant.ofType : CardType → Variant
  | .ul11 => .ul11
  | .ul21 => .ul21
  | .origin => .origin
  | _ => .unknown

def optionalField (present : Bool) (field : Bytes) : Bytes := if present then 1 :: field else [0]

variable (data : Data cfg)

/-- `ultralight_serialize`. The two counts are not checked, so the loops over the counters and the
tearing flags may leave their arrays. -/
def serialize (outMax : ℕ) : Option (Except Errno Bytes) :=
  if data.pagesTotal = 0 ∨ cfg.maxPages < data.pagesTotal.toNat then some (.error .einval)
  else
    let pages := data.pages.slice 0 (data.pagesTotal.toNat * pageSize)
    let need := 4 + pages.length + (optionalField data.hasVersion data.version.toList).length +
      (optionalField data.hasSignature data.signature.toList).length +
      (1 + data.counterCount.toNat * 3) + (1 + data.tearingFlagCount.toNat)
    if outMax < need then some (.error .enospc)
    else
      match data.counters.read? 0 (data.counterCount.toNat * 3),
        data.tearingFlags.read? 0 data.tearingFlagCount.toNat with
      | some counters, some tearingFlags =>
        some (.ok ([formatVersion, data.variant.code] ++ le16Bytes data.pagesTotal ++ pages ++
          optionalField data.hasVersion data.version.toList ++
          optionalField data.hasSignature data.signature.toList ++
          [data.counterCount] ++ counters ++ [data.tearingFlagCount] ++ tearingFlags))
      | _, _ => none

def takeOptional (size : ℕ) : Bytes → Option (Option Bytes × Bytes)
  | [] => none
  | present :: rest =>
    if present = 0 then some (none, rest)
    else if rest.length < size then none
    else some (some (rest.take size), rest.drop size)

def takeCounted (max size : ℕ) : Bytes → Option (UInt8 × Bytes × Bytes)
  | [] => none
  | count :: rest =>
    if max < count.toNat ∨ rest.length < count.toNat * size then none
    else some (count, rest.take (count.toNat * size), rest.drop (count.toNat * size))

def deserializeTail (rest : Bytes) : Data cfg × Ret :=
  match takeOptional 8 rest with
  | none => (data, .error .ebadmsg)
  | some (version, rest) =>
    let data := match version with
      | none => data
      | some v => { data with hasVersion := true, version := .ofList 8 0 v }
    match takeOptional 32 rest with
    | none => (data, .error .ebadmsg)
    | some (signature, rest) =>
      let data := match signature with
        | none => data
        | some v => { data with hasSignature := true, signature := .ofList 32 0 v }
      match takeCounted 3 3 rest with
      | none => (data, .error .ebadmsg)
      | some (counterCount, counters, rest) =>
        let data := { data with counterCount, counters := data.counters.write 0 counters }
        match takeCounted 3 1 rest with
        | none => (data, .error .ebadmsg)
        | some (tearingFlagCount, flags, _) =>
          ({ data with
              tearingFlagCount
              tearingFlags := data.tearingFlags.write 0 flags
              pagesRead := data.pagesTotal }, .ok ())

def deserialize (bytes : Bytes) : Data cfg × Ret :=
  if bytes.length < 4 ∨ byteAt bytes 0 ≠ formatVersion then (data, .error .ebadmsg)
  else
    let variant : Variant := ⟨byteAt bytes 1⟩
    let pagesTotal := le16 (byteAt bytes 2) (byteAt bytes 3)
    let len := pagesTotal.toNat * pageSize
    if pagesTotal = 0 ∨ cfg.maxPages < pagesTotal.toNat ∨ bytes.length < 4 + len then
      ({ (Data.reset : Data cfg) with variant }, .error .ebadmsg)
    else
      let type := CardType.ofPagesTotal pagesTotal
      let data := { (Data.reset : Data cfg) with
        pagesTotal
        type
        variant := if variant = .unknown then .ofType type else variant
        pages := (Data.reset : Data cfg).pages.write 0 ((bytes.drop 4).take len) }
      deserializeTail data (bytes.drop (4 + len))

/-- `ultralight_scan_ndef_tlv` on the bytes left: the value of the first NDEF TLV, none before a
terminator or the end, `ENODATA` for a TLV that is cut off. -/
def scanNdefTlv : (fuel : ℕ) → Bytes → Except Errno (Option Bytes)
  | 0, _ => .ok none
  | _ + 1, [] => .ok none
  | fuel + 1, tag :: rest =>
    if tag = 0x00 then scanNdefTlv fuel rest
    else if tag = 0xFE then .ok none
    else
      match (match rest with
        | [] => none
        | 0xFF :: hi :: lo :: rest => some ((be16 hi lo).toNat, rest)
        | 0xFF :: _ => none
        | len :: rest => some (len.toNat, rest)) with
      | none => .error .enodata
      | some (len, rest) =>
        if rest.length < len then .error .enodata
        else if tag = 0x03 then .ok (some (rest.take len))
        else scanNdefTlv fuel (rest.drop len)

/-- `ultralight_extract_ndef`: the message in the data pages, as far as the scan buffer of 564
bytes holds them. The page count is not checked against the array. -/
def extractNdef : Option (Option Bytes) :=
  if data.pagesTotal ≤ 3 ∨ data.pages.get? 12 ≠ some 0xE1 then some none
  else
    match data.pages.read? 16 (min ((data.pagesTotal.toNat - 4) * pageSize) 564) with
    | none => none
    | some flat =>
      match scanNdefTlv flat.length flat with
      | .ok msg => some msg
      | .error _ => some none

end NfcStack.Ultralight
