import NfcStack.Protocols.Classic.KeyEvidence
import NfcStack.Protocols.Ultralight.Provenance
import NfcStack.Protocols.Ultralight.ReadBack
import NfcStack.Reader.Detect

/-!
# The arrays of the models in every build

The pollers do not compare the sizes of their arrays, options of the build, with anything. So every tag is
read within them exactly in the builds with room for the largest type (`pollerReads_inBounds_iff`).
-/

namespace NfcStack

open List Option Reader Hoare Poll

section Tags

variable {τ : Type} {s : Session τ}

theorem Reader.runs_transceive (h : s.tag.Total) (rxMax : ℕ) (tx : Bytes) :
    Runs (fun _ => True) (s.transceive rxMax tx) fun _ => True := by
  intro t _
  by_cases hactive : s.active = true
  · obtain ⟨⟨t', r⟩, hstep⟩ := h t tx
    rw [Session.transceive, if_pos hactive, hstep]
    cases r with
    | error e => exact ⟨_, t', rfl, trivial, trivial⟩
    | ok rx => exact ⟨_, t', rfl, trivial, trivial⟩
  · rw [Session.transceive, if_neg hactive]
    exact ⟨_, t, rfl, trivial, trivial⟩

theorem Reader.talks_runs (h : s.tag.Total) (F : Bytes → Prop) :
    Talks s F fun x => Runs (fun _ => True) x fun _ => True where
  pure _ := .pure trivial
  bindEnsures hx hq hf := (hx.of_ensures hq).bind hf
  exchange rxMax tx _ := runs_transceive h rxMax tx

def Reader.scripted : Session (List (Except Errno Bytes)) where
  active := true
  tag := ⟨fun script _ => some (script.tail, script.headD (.error .etimedout))⟩

theorem Reader.scripted_total : scripted.tag.Total := fun _ _ => ⟨_, rfl⟩

theorem Reader.transceive_scripted {rxMax : ℕ} {tx rx : Bytes} (h : rx.length ≤ rxMax)
    (script : List (Except Errno Bytes)) :
    scripted.transceive rxMax tx (.ok rx :: script) = some (.ok rx, script) :=
  Session.transceive_of_step rfl rfl h

end Tags

namespace Classic

variable {cfg : Config}

def ReadsInBounds (cfg : Config) : Prop :=
  ∀ (τ : Type) (s : Session τ), s.tag.Total → ∀ tagUid nr (out : CardData cfg) t,
    ∃ r, pollerRead s tagUid nr out t = some r

section Defined

variable {τ : Type} {s : Session τ}

theorem getTotalBlocks_le (type : CardType) : getTotalBlocks type ≤ 256 := by
  cases type <;> decide

theorem readsInBounds_of_eq (hcfg : cfg.blockCount = 256) : ReadsInBounds cfg := by
  intro τ s h tagUid nr out t
  have hrun : Runs (fun _ => True) (pollerRead s tagUid nr out) fun _ => True := by
    rw [pollerRead]
    by_cases hactive : s.active = false
    · rw [if_pos hactive]
      exact .pure trivial
    rw [if_neg hactive]
    refine (talks_pollerDetectType (talks_runs h _)).bind fun type _ => ?_
    have hfits : getTotalBlocks type ≤ cfg.blockCount := by
      rw [hcfg]
      exact getTotalBlocks_le type
    refine (talks_readSectors (talks_runs h _) (.inl hfits) _ _ _ _).bind fun r _ => ?_
    obtain ⟨data, ret⟩ := r
    by_cases hret : ret ≠ .ok ()
    · simp only [if_pos hret]
      exact .pure trivial
    · simp only [if_neg hret]
      exact .pure trivial
  obtain ⟨a, t', ha, -⟩ := hrun t trivial
  exact ⟨_, ha⟩

end Defined

/-! A tag that answers the authentication of block 254 is taken for a 4K card. It need not let the
poller into any sector but the last. -/

section Undefined

theorem pollerGetNt_scripted (blockNum : UInt8) {nt : Bytes} (h : nt.length = 4)
    (script : List (Except Errno Bytes)) :
    pollerGetNt scripted blockNum (.ok nt :: script) = some (.ok nt, script) := by
  rw [pollerGetNt, bind_of_eq (transceive_scripted (by rw [h]; decide) script)]
  simp only [if_neg (not_not.mpr h)]
  rfl

theorem pollerAuth_scripted (data : CardData cfg) (blockNum : UInt8) (key : BitVec 64)
    (nr : CArray UInt8 4) {nt answer : Bytes} (hnt : nt.length = 4) (hanswer : answer.length = 4) :
    ∃ c, ∀ script, pollerAuth scripted data blockNum key nr (.ok nt :: .ok answer :: script) =
      some (.ok c, script) := by
  refine ⟨sessionCrypto key (cuidFromUid data.uid data.uidLen) nt nr.toList, ?_⟩
  intro script
  rw [pollerAuth, bind_of_eq (pollerGetNt_scripted blockNum hnt _)]
  simp only
  rw [pollerAnswer, bind_of_eq (transceive_scripted (by rw [hanswer]; decide) script)]
  simp only [if_neg (not_not.mpr hanswer)]
  rfl

theorem exists_blockAnswer (c : Crypto1) (blockNum : UInt8) :
    ∃ rx c' bytes, bytes.length = blockSize ∧ ∀ script,
      pollerReadBlock scripted c blockNum (.ok rx :: script) = some ((c', .ok bytes), script) := by
  generalize henc : (crypt c (Framing.crcFrame crcA [0x30, blockNum])).1 = enc
  have hlen : (crypt enc (Framing.crcFrame crcA (List.replicate blockSize 0))).2.length = 18 := by
    rfl
  refine ⟨(crypt enc (Framing.crcFrame crcA (List.replicate blockSize 0))).2,
    (crypt enc (Framing.crcFrame crcA (List.replicate blockSize 0))).1,
    List.replicate blockSize 0, length_replicate, ?_⟩
  intro script
  rw [pollerReadBlock, bind_of_eq (transceive_scripted (by rw [hlen]; decide) script)]
  simp only [henc, crypt_crypt, Framing.crcTrim_crcFrame]
  rfl

theorem toNat_lastSectorBlock {i : UInt8} (hi : i.toNat < 16) :
    (240 + i).toNat = 240 + i.toNat := by
  simp
  omega

theorem readSectorBlocks_outside {i : UInt8} (hi : i.toNat < 16)
    (hout : cfg.blockCount ≤ 240 + i.toNat) (n : ℕ) (c : Crypto1) (data : CardData cfg) :
    ∃ script, readSectorBlocks scripted 256 39 240 (n + 1) i c data script = none := by
  obtain ⟨rx, c', bytes, hlen, hread⟩ := exists_blockAnswer c (240 + i)
  have hnum := toNat_lastSectorBlock hi
  have hnone : data.setBlockRead (240 + i) bytes = none := by
    rw [setBlockRead_eq_none_iff data hlen, hnum]
    exact hout
  refine ⟨[.ok rx], ?_⟩
  rw [readSectorBlocks]
  rw [if_neg (by omega), bind_of_eq (hread [])]
  simp only [hnone]
  rfl

variable (hcfg : cfg.blockCount < 256)

include hcfg

theorem readSectorBlocks_undefined {n : ℕ} {i : UInt8}
    (hn : i.toNat + (n + 1) = 16) (c : Crypto1) (data : CardData cfg) :
    ∃ script, readSectorBlocks scripted 256 39 240 (n + 1) i c data script = none := by
  induction n generalizing i c data with
  | zero => exact readSectorBlocks_outside (by omega) (by omega) 0 c data
  | succ n ih =>
    by_cases hout : cfg.blockCount ≤ 240 + i.toNat
    · exact readSectorBlocks_outside (by omega) hout (n + 1) c data
    obtain ⟨rx, c', bytes, hlen, hread⟩ := exists_blockAnswer c (240 + i)
    have hnum := toNat_lastSectorBlock (show i.toNat < 16 by omega)
    obtain ⟨data', hdata⟩ : ∃ data', data.setBlockRead (240 + i) bytes = some data' := by
      apply ne_none_iff_exists'.mp
      rw [Ne, setBlockRead_eq_none_iff data hlen, hnum]
      exact hout
    have hnext : (i + 1).toNat + (n + 1) = 16 := by
      simp
      omega
    obtain ⟨script, hscript⟩ := ih hnext c'
      (if isSectorTrailer (240 + i) then (data'.noteUid (240 + i) bytes).setKeyFound 39 true
        else data'.noteUid (240 + i) bytes)
    refine ⟨.ok rx :: script, ?_⟩
    rw [readSectorBlocks]
    rw [if_neg (by omega), bind_of_eq (hread script)]
    simp only [hdata]
    exact hscript

theorem readSectors_undefined (nr : UInt8 → CArray UInt8 4) {n : ℕ}
    {sector : UInt8} (hn : sector.toNat + (n + 1) = 40) (data : CardData cfg) :
    ∃ script, readSectors scripted nr 256 (n + 1) sector data script = none := by
  induction n generalizing sector data with
  | zero =>
    obtain rfl : sector = 39 := UInt8.toNat_inj.mp (by simp; omega)
    have hfour : (List.replicate 4 (0 : UInt8)).length = 4 := length_replicate
    obtain ⟨c, hauth⟩ := pollerAuth_scripted data (getFirstBlockOfSector 39) defaultKey (nr 39)
      hfour hfour
    obtain ⟨script, hscript⟩ := readSectorBlocks_undefined hcfg (show (0 : UInt8).toNat + (15 + 1) = 16
      from rfl) c (data.setKeyFound 39 false)
    refine ⟨.ok (List.replicate 4 0) :: .ok (List.replicate 4 0) :: script, ?_⟩
    rw [readSectors, bind_of_eq (hauth script)]
    exact bind_of_none hscript _
  | succ n ih =>
    -- the authentication of this sector is not answered
    have hnext : (sector + 1).toNat + (n + 1) = 40 := by
      simp
      omega
    obtain ⟨script, hscript⟩ := ih hnext data
    refine ⟨.error .etimedout :: script, ?_⟩
    exact hscript

theorem not_readsInBounds : ¬ ReadsInBounds cfg := by
  intro h
  obtain ⟨script, hscript⟩ := readSectors_undefined hcfg (fun _ => .fill 4 0)
    (show (0 : UInt8).toNat + (39 + 1) = 40 from rfl) (pollerStart [] .type4k : CardData cfg)
  obtain ⟨r, hr⟩ := h _ scripted scripted_total [] (fun _ => .fill 4 0) .reset
    (.ok (List.replicate 4 0) :: script)
  have htype : pollerDetectType scripted (.ok (List.replicate 4 0) :: script) =
      some (.type4k, script) := by
    rfl
  have hnone : pollerRead scripted [] (fun _ => .fill 4 0) (.reset : CardData cfg)
      (.ok (List.replicate 4 0) :: script) = none := by
    rw [pollerRead, if_neg (by decide), bind_of_eq htype]
    exact bind_of_none hscript _
  rw [hnone] at hr
  cases hr

omit hcfg

end Undefined

end Classic

namespace Ultralight

variable {cfg : Config}

def ReadsInBounds (cfg : Config) : Prop :=
  ∀ (τ : Type) (s : Session τ), s.tag.Total → ∀ rndA (out : Data cfg) t,
    ∃ r, pollerRead s rndA out t = some r

theorem copyReadChunk_isSome {data : Data cfg} (hfits : data.pagesTotal.toNat ≤ cfg.maxPages)
    {start : ℕ} (hstart : start < data.pagesTotal.toNat) (bytes : Bytes) :
    ∃ data', copyReadChunk data start bytes = some data' ∧ data'.pagesTotal = data.pagesTotal := by
  have hlen : start * pageSize +
      (bytes.take ((data.pagesTotal.toNat - start) * pageSize)).length ≤ cfg.maxPages * pageSize := by
    rw [length_take]
    simp only [pageSize]
    omega
  have hcopy : copyReadChunk data start bytes = (some _).map _ :=
    congrArg (Option.map _) (CArray.write?_of_le _ hlen)
  exact ⟨_, hcopy, rfl⟩

theorem pagesTotalForType_le (type : CardType) : (pagesTotalForType type).toNat ≤ 231 := by
  cases type <;> decide

section Defined

variable {τ : Type} {s : Session τ} (h : s.tag.Total)

include h

theorem runs_pollerCommand (tx : Bytes) (size : ℕ) :
    Runs (fun _ => True) (pollerCommand s maxResponseLen tx size) fun _ => True := by
  rw [pollerCommand, pollerTransceive_of_le s le_rfl]
  refine (runs_transceive h _ _).bind fun r _ => ?_
  cases r with
  | error e => exact .pure trivial
  | ok rx => exact .pure trivial

theorem runs_pollerPwdAuth (pwd : Bytes) :
    Runs (fun _ => True) (pollerPwdAuth s pwd) fun _ => True := by
  refine (runs_pollerCommand h _ _).bind fun r _ => ?_
  cases r with
  | error e => exact .pure trivial
  | ok rx => exact .pure trivial

variable (config : ConfigBlock) (authenticated : Bool)

theorem runs_tryPwdAuth :
    Runs (fun _ => True) (tryPwdAuth s config authenticated) fun _ => True := by
  rw [tryPwdAuth]
  split
  · exact .pure trivial
  split
  · exact .pure trivial
  refine (runs_pollerPwdAuth h _).bind fun r _ => ?_
  cases r with
  | ok _ => exact .pure trivial
  | error e =>
    simp only
    split
    · exact .pure trivial
    refine (runs_pollerPwdAuth h _).bind fun r _ => ?_
    cases r with
    | ok _ => exact .pure trivial
    | error e => exact .pure trivial

theorem runs_readOrAuth
    (start : ℕ) : Runs (fun _ => True) (readOrAuth s config authenticated start) fun _ => True := by
  refine (runs_pollerCommand h _ _).bind fun r _ => ?_
  cases r with
  | ok bytes => exact .pure trivial
  | error e =>
    simp only
    split
    · exact .pure trivial
    refine (runs_tryPwdAuth h _ _).bind fun r _ => ?_
    split
    · exact (runs_pollerCommand h _ _).bind fun r _ => .pure trivial
    · exact .pure trivial

theorem runs_readChunk (data : Data cfg) (config : ConfigBlock) (authenticated : Bool) (start : ℕ) :
    Runs (fun _ => True) (readChunk s data config authenticated start)
      fun r => ∀ bytes, r.2 = some bytes → bytes.length = 16 := by
  refine Runs.of_ensures (Q := fun _ => True) ?_ (ensures_readChunk s data config authenticated start)
  have hbefore : Runs (fun _ => True) (authBeforeConfig s data config authenticated start)
      fun _ => True := by
    rw [authBeforeConfig]
    split
    · exact (runs_tryPwdAuth h _ _).map fun _ _ => trivial
    · exact .pure trivial
  refine hbefore.bind fun authenticated _ => ?_
  split
  · refine (runs_tryPwdAuth h _ _).bind fun r _ => ?_
    split
    · exact .pure trivial
    · exact runs_readOrAuth h _ _ _
  · exact runs_readOrAuth h _ _ _

theorem runs_readPagesFrom {n start : ℕ} (authenticated : Bool) {data : Data cfg}
    (hfits : data.pagesTotal.toNat ≤ cfg.maxPages)
    (hn : n = (data.pagesTotal.toNat - start + 3) / 4) :
    Runs (fun _ => True) (readPagesFrom s n start authenticated data) fun _ => True := by
  induction n generalizing start authenticated data with
  | zero => exact .pure trivial
  | succ n ih =>
    obtain ⟨config, hconfig⟩ := parseConfig_isSome hfits
    rw [readPagesFrom, hconfig]
    refine (runs_readChunk h data config authenticated start).bind fun r _ => ?_
    obtain ⟨authenticated, bytes⟩ := r
    cases bytes with
    | none => exact .pure trivial
    | some bytes =>
      obtain ⟨data', hdata, htotal⟩ :=
        copyReadChunk_isSome hfits (show start < data.pagesTotal.toNat by omega) bytes
      simp only [hdata]
      exact ih _ (by rw [htotal]; exact hfits) (by rw [htotal]; omega)

theorem runs_authBeforePages (hcfg : 231 ≤ cfg.maxPages) (rndA : CArray UInt8 8)
    (type : CardType) (version : Option Bytes) :
    Runs (fun _ => True) (authBeforePages s rndA (identified type version : Data cfg))
      fun data => data.pagesTotal = pagesTotalForType type := by
  have hkey : 44 * pageSize + (List.replicate 16 (0 : UInt8)).length ≤ cfg.maxPages * pageSize := by
    rw [length_replicate]
    simp only [pageSize]
    omega
  rw [authBeforePages]
  split
  swap
  · exact .pure rfl
  refine Runs.map (Q := fun r => r.1.pagesTotal = pagesTotalForType type) ?_ fun _ hr => hr
  refine (talks_pollerAuthenticate (talks_runs h _) _ _).bind fun r _ => ?_
  split
  · simp only [CArray.write?_of_le _ hkey]
    exact .pure rfl
  · exact .pure rfl

end Defined

theorem readsInBounds_of_le (hcfg : 231 ≤ cfg.maxPages) : ReadsInBounds cfg := by
  intro τ s h rndA out t
  have hrun : Runs (fun _ => True) (pollerRead s rndA out) fun _ => True := by
    rw [pollerRead]
    split
    · exact .pure trivial
    refine (talks_identifyType (talks_runs h _)).bind fun r _ => ?_
    obtain ⟨type, version⟩ := r
    simp only
    split
    · exact .pure trivial
    refine (runs_authBeforePages h hcfg rndA type version).bind fun data htotal => ?_
    have hfits : data.pagesTotal.toNat ≤ cfg.maxPages := by
      rw [htotal]
      exact (pagesTotalForType_le type).trans hcfg
    have hpages : Runs (fun _ => True) (pollerReadPages s data) fun _ => True :=
      runs_readPagesFrom h false hfits rfl
    refine hpages.bind fun data _ => ?_
    split
    · exact .pure trivial
    · exact (talks_readExtras (talks_runs h _) data).bind fun data _ => .pure trivial
  obtain ⟨a, t', ha, -⟩ := hrun t trivial
  exact ⟨_, ha⟩

/-! A tag that answers with the version of an NTAG216 and then every READ is read until it leaves the
model. -/

section Undefined

def ntag216Version : Bytes := [0x00, 0x04, 0x04, 0x02, 0x01, 0x00, 0x13, 0x03]

def zeroPages : Bytes := List.replicate 16 0

theorem readChunk_scripted (data : Data cfg) (start : ℕ) (script : List (Except Errno Bytes)) :
    readChunk scripted data .zero false start (.ok zeroPages :: script) =
      some ((false, some zeroPages), script) := by
  have hbefore : authBeforeConfig scripted data .zero false start = pure false :=
    if_neg (by simp [ConfigBlock.zero])
  rw [readChunk, hbefore]
  rfl

structure ReadNtag216 (data : Data cfg) (start : ℕ) : Prop where
  type : data.type = .ntag216
  total : data.pagesTotal = 231
  read : data.pagesRead.toNat = start

variable {data : Data cfg} {start : ℕ} (h : ReadNtag216 data start)

include h

theorem ReadNtag216.hasConfig_iff : data.HasConfig ↔ 227 < start := by
  have htotal : data.pagesTotal.toNat = 231 := by
    rw [h.total]
    rfl
  rw [Data.HasConfig, h.type, htotal, h.read]
  simp [CardType.hasPasswordConfig]

theorem ReadNtag216.parseConfig_eq_none
    (hcfg : cfg.maxPages < 231) (hstart : 227 < start) : parseConfig data = none := by
  have hpack : data.page? (data.pagesTotal.toNat - 1) = none := by
    rw [h.total]
    refine if_neg ?_
    simp only [pageSize, UInt16.reduceToNat]
    omega
  rw [parseConfig, if_neg (data.hasConfig_iff.mp (h.hasConfig_iff.mpr hstart))]
  simp only
  split
  · next hsome =>
    rw [hpack] at hsome
    cases hsome
  · rfl

theorem ReadNtag216.parseConfig_eq_zero (hstart : start ≤ 227) : parseConfig data = some .zero := by
  have hnot : ¬ data.HasConfig := by
    rw [h.hasConfig_iff]
    omega
  rw [data.hasConfig_iff, not_not] at hnot
  exact if_pos hnot

omit h

theorem ReadNtag216.copyReadChunk {data' : Data cfg} (h : ReadNtag216 data start)
    (hstart : start ≤ 224) {bytes : Bytes} (hcopy : copyReadChunk data start bytes = some data') :
    ReadNtag216 data' (start + 4) := by
  obtain ⟨pages, -, rfl⟩ := map_eq_some_iff.mp hcopy
  refine ⟨h.type, h.total, ?_⟩
  simp only [h.total]
  rw [if_pos (by simp; omega), UInt16.toNat_ofNat']
  omega

theorem readPagesFrom_undefined (hcfg : cfg.maxPages < 231) {n : ℕ}
    (h : ReadNtag216 data start) (hn : start + 4 * n = 228) :
    readPagesFrom scripted (n + 1) start false data (List.replicate (n + 1) (.ok zeroPages)) =
      none := by
  induction n generalizing start data with
  | zero =>
    rw [readPagesFrom, h.parseConfig_eq_none hcfg (by omega)]
    rfl
  | succ n ih =>
    rw [readPagesFrom, h.parseConfig_eq_zero (by omega), replicate_succ]
    simp only
    rw [bind_of_eq (readChunk_scripted data start _)]
    cases hcopy : Ultralight.copyReadChunk data start zeroPages with
    | none => simp only [hcopy]; rfl
    | some data' =>
      simp only [hcopy]
      exact ih (h.copyReadChunk (by omega) hcopy) (by omega)

theorem not_readsInBounds (hcfg : cfg.maxPages < 231) : ¬ ReadsInBounds cfg := by
  intro h
  obtain ⟨r, hr⟩ := h _ scripted scripted_total (.fill 8 0) .reset
    (.ok ntag216Version :: List.replicate 58 (.ok zeroPages))
  have htype : identifyType scripted (.ok ntag216Version :: List.replicate 58 (.ok zeroPages)) =
      some ((.ntag216, some ntag216Version), List.replicate 58 (.ok zeroPages)) := rfl
  have hauth : authBeforePages scripted (.fill 8 0)
      (identified .ntag216 (some ntag216Version) : Data cfg) = pure _ :=
    authBeforePages_of_ne _ _ (by simp [identified])
  have hchunks : (identified .ntag216 (some ntag216Version) : Data cfg).chunks = 57 + 1 := by
    simp [Data.chunks, identified, pagesTotalForType]
  have hstart : ReadNtag216 { (identified .ntag216 (some ntag216Version) : Data cfg) with
      pagesRead := 0 } 0 := ⟨rfl, rfl, rfl⟩
  have hpages : pollerReadPages scripted (identified .ntag216 (some ntag216Version) : Data cfg)
      (List.replicate 58 (.ok zeroPages)) = none := by
    rw [pollerReadPages, hchunks]
    exact readPagesFrom_undefined hcfg hstart rfl
  have hnone : pollerRead scripted (.fill 8 0) (.reset : Data cfg)
      (.ok ntag216Version :: List.replicate 58 (.ok zeroPages)) = none := by
    rw [pollerRead, if_neg (by decide), bind_of_eq htype]
    simp only
    rw [hauth, pure_bind]
    exact bind_of_none hpages _
  rw [hnone] at hr
  cases hr

end Undefined

end Ultralight

theorem pollerReads_inBounds_iff (classic : Classic.Config) (ultralight : Ultralight.Config) :
    (Classic.ReadsInBounds classic ↔ classic.blockCount = 256) ∧
      (Ultralight.ReadsInBounds ultralight ↔ 231 ≤ ultralight.maxPages) := by
  refine ⟨⟨?_, Classic.readsInBounds_of_eq⟩, ⟨?_, Ultralight.readsInBounds_of_le⟩⟩
  · intro h
    by_contra hsmall
    have hrange := classic.blockCount_range
    exact Classic.not_readsInBounds (by omega) h
  · intro h
    by_contra hsmall
    exact Ultralight.not_readsInBounds (by omega) h

def Classic.smallConfig : Classic.Config := ⟨64, by decide⟩

def Classic.fourKScript : List (Except Errno Bytes) :=
  .ok [0x00, 0x00, 0x00, 0x00] :: (List.replicate 16 (.error .etimedout) ++
    [.ok [0x00, 0x00, 0x00, 0x00], .ok [0x00, 0x00, 0x00, 0x00],
      .ok [0x5B, 0x20, 0xD3, 0xA5, 0x55, 0x10, 0xD9, 0x8E, 0xD2, 0x7B, 0xA3, 0xF6, 0x5D, 0x85, 0x38,
        0x5E, 0x8A, 0x54]])

def Ultralight.smallConfig : Ultralight.Config :=
  ⟨16, by decide, Ultralight.Config.default.le_maxPages⟩

def Ultralight.ul11Script : List (Except Errno Bytes) :=
  .ok [0x00, 0x04, 0x03, 0x01, 0x01, 0x00, 0x0B, 0x03] ::
    List.replicate 5 (.ok Ultralight.zeroPages)

/-- Block 64 of a 4K card and page 16 of an Ultralight EV1 are written behind the end of the model in
the small builds, and inside it in the default build. -/
theorem pollerReads_outside_model : Classic.pollerRead scripted [] (fun _ => .fill 4 0)
        (.reset : Classic.CardData Classic.smallConfig) Classic.fourKScript = none ∧
      (Classic.pollerRead scripted [] (fun _ => .fill 4 0)
        (.reset : Classic.CardData .default) Classic.fourKScript).isSome = true ∧
      Ultralight.pollerRead scripted (.fill 8 0)
        (.reset : Ultralight.Data Ultralight.smallConfig) Ultralight.ul11Script = none ∧
      (Ultralight.pollerRead scripted (.fill 8 0)
        (.reset : Ultralight.Data .default) Ultralight.ul11Script).isSome = true := by
  refine ⟨?_, ?_, ?_, ?_⟩
  · exact isNone_iff_eq_none.mp (by decide +kernel)
  · decide +kernel
  · exact isNone_iff_eq_none.mp (by decide +kernel)
  · decide +kernel

namespace Ultralight

section ReceiveArrays

variable {α : Type}

/-- No tag makes the function store behind the end of a receive array: it has an outcome whatever the
tag answers, up to the capacity that the transport is told. -/
def ReceivesFit (active : Bool) (f : ∀ {τ : Type}, Session τ → Poll τ α) : Prop :=
  ∀ (τ : Type) (s : Session τ), s.active = active → s.tag.Total → ∀ t, ∃ r, f s t = some r

/-- The capacity, a whole response, must not exceed the array. -/
theorem receivesFit_pollerTransceive_iff (array : ℕ) (tx : Bytes) :
    ReceivesFit true (pollerTransceive · array tx) ↔ maxResponseLen ≤ array := by
  constructor
  · intro h
    by_contra hsmall
    let s : Session Unit := ⟨true, ⟨fun _ _ => some ((), .ok (List.replicate maxResponseLen 0))⟩⟩
    obtain ⟨r, hr⟩ := h Unit s rfl (fun _ _ => ⟨_, rfl⟩) ()
    have hrx : s.transceive maxResponseLen tx () =
        some (.ok (List.replicate maxResponseLen 0), ()) :=
      Session.transceive_of_step rfl rfl (length_replicate ..).le
    replace hr : pollerTransceive s array tx () = some r := hr
    rw [pollerTransceive, bind_of_eq hrx] at hr
    simp only [length_replicate, if_pos (Nat.not_le.mp hsmall)] at hr
    cases hr
  · intro h τ s _ htotal t
    show ∃ r, pollerTransceive s array tx t = some r
    rw [pollerTransceive_of_le s h]
    obtain ⟨a, t', ha, -⟩ := runs_transceive htotal maxResponseLen tx t trivial
    exact ⟨_, ha⟩

theorem receivesFit_of_runs {active : Bool} {f : ∀ {τ : Type}, Session τ → Poll τ α}
    (h : ∀ {τ : Type} {s : Session τ}, s.tag.Total → Runs (fun _ => True) (f s) fun _ => True) :
    ReceivesFit active f := by
  intro τ s _ htotal t
  obtain ⟨a, t', ha, -⟩ := h htotal t trivial
  exact ⟨_, ha⟩

/-- The functions that `ultralight_poller_read` calls have arrays for a whole response, so no answer
leaves them. In `ultralight_poller_detect` one can, unless no command is issued. -/
theorem receives_fit_iff (active : Bool) :
    (∀ page, ReceivesFit active (pollerReadPage · page)) ∧
    ReceivesFit active pollerGetVersion ∧
    ReceivesFit active pollerReadSignature ∧
    (∀ index, ReceivesFit active (pollerReadCounter · index)) ∧
    (∀ index, ReceivesFit active (pollerReadTearing · index)) ∧
    (∀ pwd, ReceivesFit active (pollerPwdAuth · pwd)) ∧
    (∀ cmd initialCmd, ReceivesFit active (pollerSendAuthCmd · cmd initialCmd)) ∧
    (∀ cfg : Config, 231 ≤ cfg.maxPages → ∀ rndA (out : Data cfg),
      ReceivesFit active (pollerRead · rndA out)) ∧
    (ReceivesFit active pollerDetect ↔ active = false) := by
  have hcommand : ∀ tx size, ReceivesFit active (pollerCommand · maxResponseLen tx size) :=
    fun tx size => receivesFit_of_runs fun h => runs_pollerCommand h tx size
  refine ⟨fun _ => hcommand _ _, hcommand _ _, hcommand _ _, fun _ => hcommand _ _,
    fun _ => hcommand _ _, fun pwd => receivesFit_of_runs fun h => runs_pollerPwdAuth h pwd,
    fun cmd initialCmd => receivesFit_of_runs fun h => ?_,
    fun cfg hcfg rndA out τ s _ h t => readsInBounds_of_le hcfg τ s h rndA out t, ?_⟩
  · rw [pollerSendAuthCmd, pollerTransceive_of_le _ le_rfl]
    refine (runs_transceive h _ _).bind fun r _ => ?_
    cases r with
    | error e => exact .pure trivial
    | ok rx =>
      simp only
      split_ifs <;> exact .pure trivial
  · constructor
    · intro h
      cases active with
      | false => rfl
      | true =>
        have hcall : ReceivesFit true (pollerTransceive · 16 [0x30, 0x00]) := by
          intro τ s hs htotal t
          obtain ⟨r, hr⟩ := h τ s hs htotal t
          replace hr : pollerDetect s t = some r := hr
          rw [pollerDetect, if_neg (by simp [hs])] at hr
          obtain ⟨a, t', ha, -⟩ := bind_eq_some hr
          exact ⟨_, ha⟩
        exact absurd ((receivesFit_pollerTransceive_iff 16 _).mp hcall) (by decide)
    · rintro rfl τ s hs _ t
      refine ⟨(.error .einval, t), ?_⟩
      show pollerDetect s t = _
      rw [pollerDetect, if_pos hs]
      rfl

def longAnswers : Session Unit := ⟨true, ⟨fun _ _ => some ((), .ok (List.replicate 17 0))⟩⟩

theorem detect_stores_behind_array :
    longAnswers.tag.Total ∧ pollerDetect longAnswers () = none ∧ ¬ ReceivesFit true pollerDetect := by
  have hnone : pollerDetect longAnswers () = none := by decide +kernel
  refine ⟨fun _ _ => ⟨_, rfl⟩, hnone, fun h => ?_⟩
  obtain ⟨r, hr⟩ := h Unit longAnswers rfl (fun _ _ => ⟨_, rfl⟩) ()
  cases hnone.symm.trans hr

end ReceiveArrays

end Ultralight

end NfcStack
