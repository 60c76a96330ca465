import NfcStack.Protocols.Ultralight.Model

/-!
# The Type 2 listener

`protocols/ultralight/ultralight_listener_t2.c` answers the commands of an Ultralight card itself.
The block cipher of Ultralight C is a parameter; so are the random bytes of each command.
-/

namespace NfcStack.Ultralight

variable {cfg : Config}

structure ConfigBlock where
  auth0 : UInt8
  prot : Bool
  authlim : UInt8
  pwd : Bytes
  pack : Bytes
  valid : Bool
deriving DecidableEq, Repr

def ConfigBlock.zero : ConfigBlock := ⟨0, false, 0, [0, 0, 0, 0], [0, 0], false⟩

def CardType.hasPasswordConfig : CardType → Bool
  | .ntag213 | .ntag215 | .ntag216 => true
  | _ => false

variable (data : Data cfg)

def Data.page? (page : ℕ) : Option Bytes :=
  data.pages.read? (page * pageSize) pageSize

/-- `ultralight_parse_config` with the pages of `ultralight_config_page_indices`: AUTH0, ACCESS, PWD
and PACK are the last four. -/
def parseConfig : Option ConfigBlock :=
  if ¬ data.type.hasPasswordConfig ∨ data.pagesTotal < 5 ∨ data.pagesRead ≤ data.pagesTotal - 4 then
    some .zero
  else
    let total := data.pagesTotal.toNat
    match data.page? (total - 4), data.page? (total - 3), data.page? (total - 2),
      data.page? (total - 1) with
    | some auth0, some access, some pwd, some pack =>
      some {
        auth0 := byteAt auth0 3
        prot := byteAt access 0 &&& 0x80 ≠ 0
        authlim := byteAt access 0 &&& 0x07
        pwd
        pack := pack.take 2
        valid := true }
    | _, _, _, _ => none

def ConfigBlock.ofPages (auth0 access pwd pack : Bytes) : ConfigBlock where
  auth0 := byteAt auth0 3
  prot := byteAt access 0 &&& 0x80 ≠ 0
  authlim := byteAt access 0 &&& 0x07
  pwd
  pack := pack.take 2
  valid := true

def Data.HasConfig : Prop :=
  data.type.hasPasswordConfig = true ∧ 5 ≤ data.pagesTotal.toNat ∧
    data.pagesTotal.toNat - 4 < data.pagesRead.toNat

theorem Data.hasConfig_iff :
    data.HasConfig ↔ ¬ (¬ data.type.hasPasswordConfig ∨ data.pagesTotal < 5 ∨
      data.pagesRead ≤ data.pagesTotal - 4) := by
  have hle : 5 ≤ data.pagesTotal.toNat → (data.pagesTotal - 4).toNat = data.pagesTotal.toNat - 4 :=
    fun h => UInt16.toNat_sub_of_le _ _ (UInt16.le_iff_toNat_le.mpr (by simp; omega))
  simp only [Data.HasConfig, not_or, not_not, UInt16.lt_iff_toNat_lt, UInt16.le_iff_toNat_le,
    not_lt, not_le]
  constructor
  · rintro ⟨htype, htotal, hread⟩
    exact ⟨htype, htotal, by rw [hle htotal]; exact hread⟩
  · rintro ⟨htype, htotal, hread⟩
    rw [hle htotal] at hread
    exact ⟨htype, htotal, hread⟩

variable {data : Data cfg}

theorem parseConfig_eq_of_hasConfig (h : data.HasConfig) {auth0 access pwd pack : Bytes}
    (hauth0 : data.page? (data.pagesTotal.toNat - 4) = some auth0)
    (haccess : data.page? (data.pagesTotal.toNat - 3) = some access)
    (hpwd : data.page? (data.pagesTotal.toNat - 2) = some pwd)
    (hpack : data.page? (data.pagesTotal.toNat - 1) = some pack) :
    parseConfig data = some (.ofPages auth0 access pwd pack) := by
  rw [parseConfig, if_neg (data.hasConfig_iff.mp h)]
  simp only [hauth0, haccess, hpwd, hpack]
  rfl

theorem parseConfig_isSome (hfits : data.pagesTotal.toNat ≤ cfg.maxPages) :
    ∃ config, parseConfig data = some config := by
  by_cases h : data.HasConfig
  · have hfive := h.2.1
    have hpages : ∀ k, 0 < k → k ≤ 4 → data.page? (data.pagesTotal.toNat - k) =
        some (data.pages.slice ((data.pagesTotal.toNat - k) * pageSize) pageSize) := by
      intro k _ _
      exact CArray.read?_of_le _ (by simp only [pageSize]; omega)
    exact ⟨_, parseConfig_eq_of_hasConfig h (hpages 4 (by decide) (by decide))
      (hpages 3 (by decide) (by decide)) (hpages 2 (by decide) (by decide))
      (hpages 1 (by decide) (by decide))⟩
  · rw [data.hasConfig_iff, not_not] at h
    exact ⟨_, if_pos h⟩

variable {config : ConfigBlock}

theorem parseConfig_inv (h : parseConfig data = some config) (hvalid : config.valid = true) :
    data.HasConfig ∧ ∃ auth0 access pwd pack,
      data.page? (data.pagesTotal.toNat - 4) = some auth0 ∧
      data.page? (data.pagesTotal.toNat - 3) = some access ∧
      data.page? (data.pagesTotal.toNat - 2) = some pwd ∧
      config = .ofPages auth0 access pwd pack := by
  rw [parseConfig] at h
  split at h
  · cases h
    cases hvalid
  next hconfig =>
  refine ⟨data.hasConfig_iff.mpr hconfig, ?_⟩
  simp only at h
  split at h
  · next hauth0 haccess hpwd hpack =>
    cases h
    exact ⟨_, _, _, _, hauth0, haccess, hpwd, rfl⟩
  · cases h

def readProtectionEnabled (config : ConfigBlock) : Bool := config.valid && config.auth0 != 0xFF

def pageNeedsAuth (config : ConfigBlock) (page : ℕ) : Bool :=
  readProtectionEnabled config && config.prot && decide (config.auth0.toNat ≤ page)

namespace Type2

inductive AuthState
  | idle | waitCont | success
deriving DecidableEq, Repr

structure State (cfg : Config) where
  model : Data cfg
  config : ConfigBlock
  initialized : Bool
  auth : AuthState
  rndB : Bytes
  encB : Bytes
deriving DecidableEq

structure Tdes where
  encrypt : Bytes → Bytes → Bytes → Bytes
  decrypt : Bytes → Bytes → Bytes → Bytes

def pageReadable (st : State cfg) (page : ℕ) : Bool :=
  decide (page < st.model.pagesTotal.toNat) &&
    !(st.model.type.hasPasswordConfig && st.auth != .success && st.config.valid &&
      pageNeedsAuth st.config page)

/-- The page loop of `ultralight_t2_handle_read`, with `n` pages to go: the bytes of the pages, or
none if one of them is refused. Pages behind the last one are zeros. -/
def readPages (st : State cfg) : (n page : ℕ) → Option (Option Bytes)
  | 0, _ => some (some [])
  | n + 1, page =>
    if st.model.pagesTotal.toNat ≤ page then
      (readPages st n (page + 1)).map (·.map ([0, 0, 0, 0] ++ ·))
    else if ¬ pageReadable st page then some none
    else
      match st.model.page? page with
      | none => none
      | some bytes => (readPages st n (page + 1)).map (·.map (bytes ++ ·))

variable (st : State cfg) (tx : Bytes)

def handleRead : Option (Option Bytes) :=
  if tx.length < 2 then some none
  else (readPages st 4 (byteAt tx 1).toNat).map fun r => some (r.getD [0x00])

def handleReadCnt : Option (Option Bytes) :=
  if tx.length < 2 ∨ st.model.counterCount ≤ byteAt tx 1 then some none
  else (st.model.counters.read? ((byteAt tx 1).toNat * 3) 3).map some

def handleTearing : Option (Option Bytes) :=
  if tx.length < 2 ∨ st.model.tearingFlagCount ≤ byteAt tx 1 then some none
  else (st.model.tearingFlags.get? (byteAt tx 1).toNat).map fun b => some [b]

def handlePwdAuth : State cfg × Option Bytes :=
  if ¬ st.model.type.hasPasswordConfig ∨ tx.length < 5 ∨ ¬ st.config.valid ∨
      (tx.drop 1).take 4 ≠ st.config.pwd then (st, none)
  else ({ st with auth := .success }, some st.config.pack)

def desKey? : Option Bytes := st.model.pages.read? (44 * pageSize) 16

def handleAuthStart (tdes : Tdes) (st : State cfg) (rnd : Bytes) :
    Option (State cfg × Option Bytes) :=
  if st.model.type ≠ .mfulC then some (st, none)
  else
    (desKey? st).map fun key =>
      let encB := tdes.encrypt key (List.replicate 8 0) rnd
      ({ st with rndB := rnd, encB, auth := .waitCont }, some (0xAF :: encB))

/-- `ultralight_t2_handle_auth_cont`. -/
def handleAuthCont (tdes : Tdes) (st : State cfg) (tx : Bytes) :
    Option (State cfg × Option Bytes) :=
  if st.model.type ≠ .mfulC ∨ tx.length ≠ 17 then some (st, none)
  else
    (desKey? st).map fun key =>
      let plain := tdes.decrypt key st.encB (tx.drop 1)
      if (plain.drop 8).take 8 ≠ st.rndB.rotate 1 then ({ st with auth := .idle }, none)
      else
        let shiftedA := (plain.take 8).rotate 1
        ({ st with auth := .success }, some (0x00 :: tdes.encrypt key (tx.drop 9) shiftedA))

inductive Command
  | read | getVersion | readSig | readCnt | checkTearing | pwdAuth | auth | authCont
deriving DecidableEq, Repr

def Command.ofByte (b : UInt8) : Option Command :=
  if b = 0x30 then some .read
  else if b = 0x60 then some .getVersion
  else if b = 0x3C then some .readSig
  else if b = 0x39 then some .readCnt
  else if b = 0x3E then some .checkTearing
  else if b = 0x1B then some .pwdAuth
  else if b = 0x1A then some .auth
  else if b = 0xAF then some .authCont
  else none

def handleCommand (tdes : Tdes) (st : State cfg) (tx rnd : Bytes) :
    Option Command → Option (State cfg × Option Bytes)
  | some .read => (handleRead st tx).map (st, ·)
  | some .getVersion =>
    some (st, if st.model.hasVersion then some st.model.version.toList else none)
  | some .readSig =>
    some (st, if st.model.hasSignature then some st.model.signature.toList else none)
  | some .readCnt => (handleReadCnt st tx).map (st, ·)
  | some .checkTearing => (handleTearing st tx).map (st, ·)
  | some .pwdAuth => some (handlePwdAuth st tx)
  | some .auth => handleAuthStart tdes st rnd
  | some .authCont => if st.auth = .waitCont then handleAuthCont tdes st tx else some (st, none)
  | none => some (st, none)

def onTagCmd (tdes : Tdes) (st : State cfg) (tx rnd : Bytes) : Option (State cfg × Option Bytes) :=
  if tx = [] ∨ ¬ st.initialized then some (st, none)
  else handleCommand tdes st tx rnd (Command.ofByte (byteAt tx 0))

def authAfterLoad (model : Data cfg) (config : ConfigBlock) : AuthState :=
  if model.type.hasPasswordConfig ∧ model.pagesTotal ≤ model.pagesRead ∧ config.valid ∧
      (¬ readProtectionEnabled config ∨ ¬ config.prot) then .success
  else .idle

/-- `ultralight_listener_t2_deserialize`. A card that is refused stays as far as it was stored,
under the configuration and the authentication of the one before. -/
def listenerDeserialize (bytes : Bytes) : Option (State cfg × Ret) :=
  if ¬ st.initialized then some (st, .error .enodev)
  else
    match deserialize st.model bytes with
    | (model, .error e) => some ({ st with model }, .error e)
    | (model, .ok ()) =>
      (parseConfig model).map fun config =>
        ({ st with model, config, auth := authAfterLoad model config }, .ok ())

def State.boot : State cfg :=
  ⟨⟨.fill _ 0, 0, 0, .origin, .origin, .fill _ 0, false, .fill _ 0, false, .fill _ 0, 0,
    .fill _ 0, 0⟩, .zero, false, .idle, List.replicate 8 0, List.replicate 8 0⟩

def listenerInit : State cfg :=
  if st.initialized then st
  else { st with model := .reset, auth := .idle, initialized := true }

def listenerShutdown : State cfg :=
  if st.initialized then { st with model := .reset, auth := .idle, initialized := false } else st

end Type2

end NfcStack.Ultralight
