import NfcStack.Protocols.Iso15693.ReadBack

/-!
# The SLIX listener

The emulated card of `protocols/slix/slix_listener.c`: the custom commands of the
manufacturer, and an ISO15693-3 listener for the rest. A card in privacy mode does not
answer the inventory.
-/

namespace NfcStack.Slix

/-- `slix_capabilities_t`. A stored card may hold any byte in its place. -/
inductive Capabilities
  | default | acceptAll | missed
  | other (code : UInt8) (unnamed : code ≠ 0 ∧ code ≠ 1 ∧ code ≠ 2)
deriving DecidableEq, Repr

def Capabilities.ofCode (code : UInt8) : Capabilities :=
  if h₀ : code = 0 then .default
  else if h₁ : code = 1 then .acceptAll
  else if h₂ : code = 2 then .missed
  else .other code ⟨h₀, h₁, h₂⟩

inductive PasswordType
  | read | write | privacy | easAfi | destroy
deriving DecidableEq, Repr

def PasswordType.index : PasswordType → ℕ
  | .read => 0
  | .write => 1
  | .privacy => 2
  | .easAfi => 3
  | .destroy => 4

def passwordSize : ℕ := 4

def nxpMfgCode : UInt8 := 0x04

inductive CardType
  | slix | slixS | slixL | slix2 | unknown
deriving DecidableEq, Repr

structure Data where
  parent : Iso15693.Data
  capabilities : Capabilities
  type : CardType
  passwords : PasswordType → CArray UInt8 passwordSize
  signature : CArray UInt8 32
  privacyMode : UInt8
  protectionPointer : UInt8
  protectionCondition : UInt8
  lockEas : UInt8
  lockPpl : UInt8

def Data.reset : Data :=
  ⟨.reset, .default, .unknown, fun _ => .fill _ 0, .fill _ 0, 0, 0, 0, 0, 0⟩

def typeFromUid (uid : CArray UInt8 8) : CardType :=
  if byteAt uid.toList 0 ≠ 0xE0 ∨ byteAt uid.toList 1 ≠ nxpMfgCode then .unknown
  else if byteAt uid.toList 2 = 0x01 then .slix
  else if byteAt uid.toList 2 = 0x02 then .slixS
  else if byteAt uid.toList 2 = 0x03 then .slixL
  else if byteAt uid.toList 2 = 0x04 then .slix2
  else .slix

theorem typeFromUid_ne_unknown {uid : CArray UInt8 8} (h0 : byteAt uid.toList 0 = 0xE0)
    (h1 : byteAt uid.toList 1 = nxpMfgCode) : typeFromUid uid ≠ .unknown := by
  unfold typeFromUid
  rw [if_neg (by simp [h0, h1])]
  split_ifs <;> simp

def extTailSize : ℕ := 2 + 1 + 1 + 5 * passwordSize + 32 + 5

/-- `slix_deserialize`: the stored form of the ISO15693-3 card with a tail. The model is reset
before the input is looked at, and keeps its parent if only the tail is refused. -/
def Data.deserialize (bytes : Bytes) : Data × Ret :=
  let r := Iso15693.Data.deserialize bytes
  let data := { reset with parent := r.1 }
  match r.2 with
  | .error e => (data, .error e)
  | .ok () =>
    let tail := bytes.drop (17 + r.1.dataLen + r.1.blockCount.toNat)
    if tail.length < extTailSize ∨ byteAt tail 0 ≠ 0x53 ∨ byteAt tail 1 ≠ 0x4C ∨
        byteAt tail 2 ≠ 0x01 then (data, .error .ebadmsg)
    else
      ({ data with
          capabilities := .ofCode (byteAt tail 3)
          type := typeFromUid r.1.uid
          passwords := fun type => .ofList _ 0 (tail.drop (4 + type.index * passwordSize))
          signature := .ofList _ 0 (tail.drop 24)
          privacyMode := byteAt tail 56
          protectionPointer := byteAt tail 57
          protectionCondition := byteAt tail 58
          lockEas := byteAt tail 59
          lockPpl := byteAt tail 60 }, .ok ())

structure State where
  model : Data
  initialized : Bool
  passwordMatch : PasswordType → Bool
  random : UInt16

def State.boot : State := ⟨.reset, false, fun _ => false, 0⟩

def passwordTypeFromId (id : UInt8) : Option PasswordType :=
  if id = 0x01 then some .read else if id = 0x02 then some .write
  else if id = 0x04 then some .privacy else if id = 0x08 then some .easAfi
  else if id = 0x10 then some .destroy else none

def unxorPassword (xored : Bytes) (random : UInt16) : Bytes :=
  let rnL := (random >>> 8).toUInt8
  let rnH := random.toUInt8
  List.zipWith (· ^^^ ·) xored [rnH, rnL, rnH, rnL]

def checkPassword (model : Data) (type : PasswordType) (password : Bytes) : Bool :=
  model.capabilities == .acceptAll || password == (model.passwords type).toList

def handleGetNxpSysinfo (model : Data) : Bytes :=
  let lockBits := (if model.parent.lockDsfid ≠ 0 then 0x01 else 0x00) |||
    (if model.parent.lockAfi ≠ 0 then 0x02 else 0x00) |||
    (if model.lockEas ≠ 0 then 0x04 else 0x00) ||| (if model.lockPpl ≠ 0 then 0x08 else 0x00)
  [0, model.protectionPointer, model.protectionCondition, lockBits, 0x02, 0x00, 0x00, 0x00]

variable (st : State)

def State.accept (type : PasswordType) : State :=
  { st with
    passwordMatch := Function.update st.passwordMatch type true
    model := if type = .privacy then { st.model with privacyMode := 0 } else st.model }

def handleSetPassword (data : Bytes) : State × Option Bytes :=
  if data.length < 1 + passwordSize then (st, none)
  else
    match passwordTypeFromId (byteAt data 0) with
    | none => (st, none)
    | some type =>
      if ¬ checkPassword st.model type
          (unxorPassword ((data.drop 1).take passwordSize) st.random) then (st, none)
      else (st.accept type, some [0])

variable (command : UInt8)

def handleCommand (data : Bytes) : State × Option Bytes :=
  if command = 0xAB then (st, some (handleGetNxpSysinfo st.model))
  else if command = 0xBD then (st, some (0 :: st.model.signature.toList))
  else if command = 0xB2 then
    -- the number is the same every time, and the reader learns a byte of the UID from it
    let random := 0x1234 + (byteAt st.model.parent.uid.toList 7).toUInt16
    ({ st with random }, some [0, random.toUInt8, (random >>> 8).toUInt8])
  else if command = 0xB3 then handleSetPassword st data
  else (st, none)

/-- `slix_listener_handle_custom`. The UID of an addressed command is skipped, not compared. -/
def handleCustom (addressed : Bool) :
    Bytes → State × Option Bytes
  | [] => (st, none)
  | mfg :: data =>
    if mfg ≠ nxpMfgCode ∨ addressed ∧ data.length < 8 then (st, none)
    else
      let r := handleCommand st command (if addressed then data.drop 8 else data)
      (r.1, r.2.bind Iso15693.listenerSend)

def isSlixCustom : Bool := 0xA0 ≤ command && command < 0xC0

def onTagCmd (st : State) (tx : Bytes) : Option (State × Option Bytes) :=
  if ¬ st.initialized ∨ tx.length < 1 + Iso15693.crcSize ∨ ¬ Iso15693.crcCheck tx ∨
      Iso15693.listenerBufSize < tx.length then some (st, none)
  else
    match Iso15693.crcTrim tx with
    | flags :: command :: data =>
      if isSlixCustom command then
        some (handleCustom st command
          (flags &&& (0x20 : UInt8) ≠ 0 ∧ flags &&& (0x04 : UInt8) = 0) data)
      else if st.model.privacyMode ≠ 0 ∧ command = 0x01 then some (st, none)
      else
        -- the ISO15693-3 listener is started anew with the parent card for each command
        (Iso15693.onTagCmd (Iso15693.State.boot.listenerInit (some st.model.parent)) tx).map (st, ·)
    | _ => some (st, none)

def listenerInit (_st : State) (model : Option Data) : State :=
  ⟨model.getD .reset, true, fun _ => false, 0⟩

def listenerShutdown (_st : State) : State := ⟨.reset, false, fun _ => false, 0⟩

def listenerDeserialize (st : State) (bytes : Bytes) : State × Ret :=
  if st.initialized then
    let r := Data.deserialize bytes
    ({ st with model := r.1 }, r.2)
  else (st, .error .enodev)

theorem onTagCmd_of_crcCheck (st : State) {tx : Bytes} (h : Iso15693.crcCheck tx = false) :
    onTagCmd st tx = some (st, none) := by
  rw [onTagCmd, if_pos (by simp [h])]

theorem onTagCmd_inventory {st : State} (hinit : st.initialized = true)
    (hprivacy : st.model.privacyMode = 0) :
    onTagCmd st (Framing.crcFrame Iso15693.crc16 [0x26, 0x01]) =
      some (st, some (Framing.crcFrame Iso15693.crc16
        (Iso15693.handleInventory st.model.parent))) := by
  have hcheck : Iso15693.crcCheck (Framing.crcFrame Iso15693.crc16 [0x26, 0x01]) = true :=
    Iso15693.crcCheck_crcFrame (by simp)
  have hparent : Iso15693.onTagCmd (Iso15693.State.boot.listenerInit (some st.model.parent))
      (Framing.crcFrame Iso15693.crc16 [0x26, 0x01]) =
        some (some (Framing.crcFrame Iso15693.crc16 (Iso15693.handleInventory st.model.parent))) :=
    Iso15693.onTagCmd_crcFrame rfl (by simp) (if_neg (by decide)) rfl
      (by simp [Iso15693.handleInventory, Iso15693.uidReversed])
  rw [onTagCmd, if_neg (by simp [hinit, hcheck, Iso15693.crcSize, Iso15693.listenerBufSize]),
    Iso15693.crcTrim_crcFrame]
  simp only [hparent, Option.map_some]
  rw [if_neg (by decide), if_neg (by simp [hprivacy])]

end NfcStack.Slix
