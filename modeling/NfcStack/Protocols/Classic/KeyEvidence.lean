import NfcStack.Protocols.Classic.Poller
import NfcStack.Protocols.Classic.Stream
import NfcStack.Reader.Stream

/-!
# The keys that a Classic capture takes for found

`classic_poller_auth` takes any four bytes for the answer of a tag that knows the key, and
`classic_poller_read` notes key B for a sector whose trailer it has read under key A.
-/

namespace NfcStack.Classic

open List Option Reader Hoare Poll UInt8

variable {cfg : Config} {τ : Type}

def CardData.isKeyFound (data : CardData cfg) (sector : UInt8) (keyB : Bool) : Bool :=
  if 40 ≤ sector then false
  else (if keyB then data.keyBMask else data.keyAMask) &&& (1#64 <<< sector.toNat) != 0

variable {sector : UInt8}

theorem isKeyFound_setKeyFound (data : CardData cfg) (h : sector.toNat < 40)
    (keyB : Bool) (sector' : UInt8) (keyB' : Bool) :
    (data.setKeyFound sector keyB).isKeyFound sector' keyB' =
      (data.isKeyFound sector' keyB' || (sector == sector' && keyB == keyB')) := by
  have hset : ¬ 40 ≤ sector := by
    exact Nat.not_le.mpr h
  by_cases hout : 40 ≤ sector'
  · have hne : sector ≠ sector' := fun heq => hset (heq ▸ hout)
    simp [CardData.isKeyFound, hout, hne]
  have hlt : sector'.toNat < 64 := by
    rw [le_iff_toNat_le, Nat.not_le] at hout
    exact Nat.lt_trans hout (by decide)
  have hbit : (1#64 <<< sector.toNat).getLsbD sector'.toNat = (sector == sector') := by
    rw [← BitVec.twoPow_eq, BitVec.getLsbD_twoPow, Bool.eq_iff_iff]
    simp only [Bool.and_eq_true, decide_eq_true_eq, beq_iff_eq, UInt8.toNat_inj]
    exact ⟨fun hb => hb.2, fun hb => ⟨by omega, hb⟩⟩
  simp only [CardData.isKeyFound, CardData.setKeyFound, if_neg hset, if_neg hout,
    and_bit_ne_zero _ hlt]
  cases keyB <;> cases keyB' <;> simp [hbit]

variable {block : UInt8} {bytes : Bytes}

theorem isKeyFound_setBlockRead {data data' : CardData cfg}
    (h : data.setBlockRead block bytes = some data') (sector : UInt8) (keyB : Bool) :
    (data'.noteUid block bytes).isKeyFound sector keyB = data.isKeyFound sector keyB := by
  obtain ⟨blocks, -, rfl⟩ := map_eq_some_iff.mp h
  unfold CardData.noteUid
  split_ifs <;> rfl

theorem sector_blocks (type : CardType) : ∀ k < getTotalSectors type,
    ∀ m < (getBlocksInSector (UInt8.ofNat k)).toNat,
      (getFirstBlockOfSector (UInt8.ofNat k) + UInt8.ofNat m).toNat < getTotalBlocks type ∧
      isSectorTrailer (getFirstBlockOfSector (UInt8.ofNat k) + UInt8.ofNat m) =
        decide (m + 1 = (getBlocksInSector (UInt8.ofNat k)).toNat) := by
  cases type <;> decide +kernel

variable {s : Session τ} {k : ℕ}

theorem toNat_sector_lt {type : CardType} (hk : k < getTotalSectors type) :
    (UInt8.ofNat k).toNat < 40 := by
  have : getTotalSectors type ≤ 40 := by cases type <;> decide
  rw [toNat_ofNat']
  omega

theorem ensures_readSectorBlocks_found {type : CardType} (hk : k < getTotalSectors type)
    {n m : ℕ} (hn : m + (n + 1) = (getBlocksInSector (UInt8.ofNat k)).toNat) (c : Crypto1)
    (data : CardData cfg) :
    Ensures (readSectorBlocks s (getTotalBlocks type) (UInt8.ofNat k)
        (getFirstBlockOfSector (UInt8.ofNat k)) (n + 1) (UInt8.ofNat m) c data)
      fun r => ∀ sector keyB, r.1.isKeyFound sector keyB =
        (data.isKeyFound sector keyB ||
          (decide (r.2 = .ok ()) && (UInt8.ofNat k == sector && keyB))) := by
  have h40 := toNat_sector_lt hk
  induction n generalizing m c data
  all_goals
    obtain ⟨hin, htrailer⟩ := sector_blocks type k hk m (by omega)
    rw [readSectorBlocks]
    simp only [if_neg (Nat.not_le.mpr hin)]
    refine (Ensures.trivial _).bind ?_
    rintro ⟨c', e | bytes⟩ -
    · exact .pure (by simp)
  · simp only [htrailer, hn]
    split
    · exact .of_none (fun _ => rfl) _
    · next data' hdata =>
      refine .pure fun sector keyB => ?_
      simp [isKeyFound_setKeyFound _ h40, isKeyFound_setBlockRead hdata]
  · next n ih =>
    have hmiddle : decide (m + 1 = (getBlocksInSector (UInt8.ofNat k)).toNat) = false :=
      decide_eq_false (by omega)
    simp only [htrailer, hmiddle]
    split
    · exact .of_none (fun _ => rfl) _
    · next data' hdata =>
      have hnext : UInt8.ofNat m + 1 = UInt8.ofNat (m + 1) := (ofNat_add m 1).symm
      rw [hnext]
      refine (ih (by omega) c' _).mono fun r hr sector keyB => ?_
      rw [hr, if_neg Bool.false_ne_true, isKeyFound_setBlockRead hdata]

theorem count_eq_succ (k : ℕ) : ∃ n, (getBlocksInSector (UInt8.ofNat k)).toNat = n + 1 := by
  unfold getBlocksInSector
  split
  · exact ⟨3, rfl⟩
  · exact ⟨15, rfl⟩

theorem ensures_sector_found {type : CardType} (hk : k < getTotalSectors type) (c : Crypto1)
    (data : CardData cfg) :
    Ensures (readSectorBlocks s (getTotalBlocks type) (UInt8.ofNat k)
        (getFirstBlockOfSector (UInt8.ofNat k)) (getBlocksInSector (UInt8.ofNat k)).toNat 0 c data)
      fun r => ∀ sector keyB, r.1.isKeyFound sector keyB =
        (data.isKeyFound sector keyB ||
          (decide (r.2 = .ok ()) && (UInt8.ofNat k == sector && keyB))) := by
  obtain ⟨n, hn⟩ := count_eq_succ k
  rw [hn]
  exact ensures_readSectorBlocks_found hk (m := 0) (by omega) c data

theorem ensures_readSectors_found (nr : UInt8 → CArray UInt8 4) {type : CardType} {n : ℕ}
    (hn : k + n = getTotalSectors type) (data : CardData cfg) :
    Ensures (readSectors s nr (getTotalBlocks type) n (UInt8.ofNat k) data) fun r =>
      ∀ sector keyB, data.isKeyFound sector keyB = true → r.1.isKeyFound sector keyB = true := by
  induction n generalizing k data with
  | zero => exact .pure fun _ _ h => h
  | succ n ih =>
    have hnext : UInt8.ofNat k + 1 = UInt8.ofNat (k + 1) := (ofNat_add k 1).symm
    have h40 : (UInt8.ofNat k).toNat < 40 := toNat_sector_lt (by omega : k < getTotalSectors type)
    refine (Ensures.trivial _).bind fun r _ => ?_
    cases r with
    | error e =>
      rw [hnext]
      exact ih (by omega) data
    | ok c =>
      refine (ensures_sector_found (by omega) c _).bind ?_
      rintro ⟨data', ret⟩ hdata
      have hkeep : ∀ sector keyB, data.isKeyFound sector keyB = true →
          data'.isKeyFound sector keyB = true := by
        intro sector keyB h
        rw [hdata, isKeyFound_setKeyFound _ h40, h]
        rfl
      simp only
      split
      · exact .pure hkeep
      · rw [hnext]
        exact (ih (by omega) data').mono fun r hr sector keyB h => hr sector keyB (hkeep sector keyB h)

def proves (key : BitVec 64) (cuid : BitVec 32) (nt nr answer : Bytes) : Bool :=
  beNum 32 (crypt (encryptReaderNonce key cuid nt nr).1 answer).2 == prngSuccessor (beNum 32 nt) 96

def Authenticated (cmd block : UInt8) (key : BitVec 64) (cuid : BitVec 32) (nr : Bytes)
    (seg : List Exchange) : Prop :=
  ∃ nt answer, seg = [([cmd, block], .ok nt), ((encryptReaderNonce key cuid nt nr).2, .ok answer)] ∧
    answer.length = 4 ∧ proves key cuid nt nr answer = true

section Reads

variable (s) (nr : UInt8 → CArray UInt8 4) (tagUid : Bytes)

def AtSector (t : τ) (k : ℕ) (data : CardData cfg) (st : τ × List Exchange) : Prop :=
  ∃ type st₁, pollerDetectType (logged s) (t, []) = some (type, st₁) ∧
    readSectors (logged s) nr (getTotalBlocks type) k 0 (pollerStart tagUid type) st₁ =
      some ((data, .ok ()), st)

/-- The bit of key A is set for a sector only if its authentication is one with the right answer, and
the bit of key B only if there was such an authentication with key B. -/
def KeyEvidence (t : τ) (data : CardData cfg) (log : List Exchange) : Prop :=
  ∀ k < 40,
    (data.isKeyFound (UInt8.ofNat k) false = true →
      ∃ (before : CardData cfg) (st : τ × List Exchange) (seg post : List Exchange),
        AtSector s nr tagUid t k before st ∧ log = st.2 ++ seg ++ post ∧
        Authenticated 0x60 (getFirstBlockOfSector (UInt8.ofNat k)) defaultKey
          (cuidFromUid before.uid before.uidLen) (nr (UInt8.ofNat k)).toList seg) ∧
    (data.isKeyFound (UInt8.ofNat k) true = true →
      ∃ pre seg post block key cuid nr, log = pre ++ seg ++ post ∧
        Authenticated 0x61 block key cuid nr seg)

def authProved (data : CardData cfg) (block : UInt8) (nr : Bytes) (t : τ) : Bool :=
  match s.tag.step t [0x60, block] with
  | some (t, .ok nt) =>
    let cuid := cuidFromUid data.uid data.uidLen
    match s.tag.step t (encryptReaderNonce defaultKey cuid nt nr).2 with
    | some (_, .ok answer) => proves defaultKey cuid nt nr answer
    | _ => false
  | _ => false

def keysProved (total : ℕ) : (n : ℕ) → UInt8 → CardData cfg → τ → Bool
  | 0, _, _, _ => true
  | n + 1, sector, data, t =>
    let first := getFirstBlockOfSector sector
    match pollerAuth s data first defaultKey (nr sector) t with
    | none => true
    | some (.error _, t) => keysProved total n (sector + 1) data t
    | some (.ok c, t') =>
      authProved s data first (nr sector).toList t &&
        !(readSectorBlocks s total sector first (getBlocksInSector sector).toNat 0 c
          (data.setKeyFound sector false) t').any fun r => r.1.2 = .ok ()

def readProved (out : CardData cfg) (t : τ) : Bool :=
  if s.active = false then
    (List.range 40).all fun k => !out.isKeyFound (UInt8.ofNat k) false &&
      !out.isKeyFound (UInt8.ofNat k) true
  else
    match pollerDetectType s t with
    | none => true
    | some (type, t) => keysProved s nr (getTotalBlocks type) (getTotalSectors type) 0
        (pollerStart tagUid type : CardData cfg) t

end Reads

def NotKeyB (tx : Bytes) : Prop := ∀ block, tx ≠ [0x61, block]

theorem notKeyB_of_length {tx : Bytes} (h : tx.length ≠ 2) : NotKeyB tx := by
  rintro block rfl
  exact h rfl

theorem ensures_pollerReadBlock (s : Session τ) (c : Crypto1) (block : UInt8) :
    Ensures (pollerReadBlock s c block)
      fun r => ∀ bytes, r.2 = .ok bytes → bytes.length = blockSize := by
  refine .bind_except (fun _ => .pure nofun) fun rx => ?_
  simp only
  split
  · exact .pure nofun
  split
  · exact .pure nofun
  · refine .pure fun bytes hbytes => ?_
    split at hbytes
    · cases hbytes
    · next hlen =>
      cases hbytes
      exact not_not.mp hlen

theorem setBlockRead_eq_none_iff (data : CardData cfg) (hlen : bytes.length = blockSize) :
    data.setBlockRead block bytes = none ↔ cfg.blockCount ≤ block.toNat := by
  rw [CardData.setBlockRead, map_eq_none_iff, CArray.write?_eq_none_iff, hlen]
  simp only [blockSize]
  omega

section Talks

variable {P : ∀ {α : Type}, Poll τ α → Prop} (h : Talks s NotKeyB P)
include h

theorem talks_pollerGetNt (block : UInt8) : P (pollerGetNt s block) := by
  have hframe : NotKeyB [0x60, block] := fun _ h => absurd (List.cons.inj h).1 (by decide)
  refine h.bind (h.exchange _ hframe) fun r => ?_
  cases r <;> exact h.pure _

theorem talks_pollerDetectType : P (pollerDetectType s) := by
  refine h.bind (talks_pollerGetNt h _) fun r => ?_
  cases r with
  | ok _ => exact h.pure _
  | error e =>
    refine h.bind (talks_pollerGetNt h _) fun r => ?_
    cases r <;> exact h.pure _

theorem talks_pollerAuth (data : CardData cfg) (block : UInt8) (key : BitVec 64)
    (nr : CArray UInt8 4) : P (pollerAuth s data block key nr) := by
  refine h.bind (talks_pollerGetNt h _) fun r => ?_
  cases r with
  | error e => exact h.pure _
  | ok nt =>
    refine h.bind (h.exchange _ (notKeyB_of_length ?_)) fun r => ?_
    · simp [encryptReaderNonce, encryptAnswer]
    · cases r <;> exact h.pure _

theorem talks_pollerReadBlock (c : Crypto1) (block : UInt8) : P (pollerReadBlock s c block) := by
  refine h.bind (h.exchange _ (notKeyB_of_length ?_)) fun r => ?_
  · rw [length_crypt]
    simp [Framing.crcFrame, le16Bytes]
  · cases r with
    | error e => exact h.pure _
    | ok rx =>
      simp only
      split_ifs <;> exact h.pure _

variable {total : ℕ} (hroom : total ≤ cfg.blockCount ∨ ∀ α, P (Poll.undefined : Poll τ α))
include hroom

theorem talks_readSectorBlocks (sector first : UInt8) (n : ℕ) (i : UInt8) (c : Crypto1)
    (data : CardData cfg) : P (readSectorBlocks s total sector first n i c data) := by
  induction n generalizing i c data with
  | zero => exact h.pure _
  | succ n ih =>
    rw [readSectorBlocks]
    split
    · exact h.pure _
    refine h.bindEnsures (talks_pollerReadBlock h _ _) (ensures_pollerReadBlock s _ _) ?_
    rintro ⟨c', r⟩ hlen
    cases r with
    | error e => exact h.pure _
    | ok bytes =>
      simp only
      split
      · next hnone =>
        rw [setBlockRead_eq_none_iff data (hlen bytes rfl)] at hnone
        exact hroom.elim (fun hle => by omega) fun hundefined => hundefined _
      · exact ih _ _ _

theorem talks_readSectors (nr : UInt8 → CArray UInt8 4) (n : ℕ) (sector : UInt8)
    (data : CardData cfg) : P (readSectors s nr total n sector data) := by
  induction n generalizing sector data with
  | zero => exact h.pure _
  | succ n ih =>
    refine h.bind (talks_pollerAuth h _ _ _ _) fun r => ?_
    cases r with
    | error e => exact ih _ _
    | ok c =>
      refine h.bind (talks_readSectorBlocks h hroom _ _ _ _ _ _) ?_
      rintro ⟨data', ret⟩
      simp only
      split
      · exact h.pure _
      · exact ih _ _

end Talks

theorem pollerAuth_log {data : CardData cfg} {nr : CArray UInt8 4} {st st' : τ × List Exchange}
    {c : Crypto1} (h : pollerAuth (logged s) data block defaultKey nr st = some (.ok c, st')) :
    ∃ nt answer, st'.2 = st.2 ++ [([0x60, block], .ok nt),
        ((encryptReaderNonce defaultKey (cuidFromUid data.uid data.uidLen) nt nr.toList).2,
          .ok answer)] ∧
      answer.length = 4 ∧ authProved (logged s) data block nr.toList st =
        proves defaultKey (cuidFromUid data.uid data.uidLen) nt nr.toList answer := by
  obtain ⟨r, st₁, hnt, h⟩ := bind_eq_some h
  obtain ⟨x, st₂, hx, hr⟩ := bind_eq_some hnt
  cases x with
  | error e =>
    cases hr
    cases h
  | ok nt =>
    by_cases hlen : nt.length ≠ 4
    · simp only [if_pos hlen] at hr
      cases hr
      cases h
    simp only [if_neg hlen] at hr
    cases hr
    obtain ⟨y, st₃, hy, hr⟩ := bind_eq_some h
    cases y with
    | error e => cases hr
    | ok answer =>
      by_cases hlen' : answer.length ≠ 4
      · simp only [if_pos hlen'] at hr
        cases hr
      simp only [if_neg hlen'] at hr
      cases hr
      refine ⟨nt, answer, ?_, not_not.mp hlen', ?_⟩
      · rw [(transceive_logged_ok s hy).1, (transceive_logged_ok s hx).1, append_assoc]
        rfl
      · simp only [authProved, (Session.step_of_transceive hx).1, (Session.step_of_transceive hy).1]

theorem readSectors_snoc {nr : UInt8 → CArray UInt8 4} {total : ℕ}
    {start data : CardData cfg} {t t₁ t₂ : τ} {e : Errno}
    (h : readSectors s nr total k sector start t = some ((data, .ok ()), t₁))
    (hauth : pollerAuth s data (getFirstBlockOfSector (sector + UInt8.ofNat k)) defaultKey
      (nr (sector + UInt8.ofNat k)) t₁ = some (.error e, t₂)) :
    readSectors s nr total (k + 1) sector start t = some ((data, .ok ()), t₂) := by
  induction k generalizing sector start t with
  | zero =>
    cases h
    rw [show sector + UInt8.ofNat 0 = sector from UInt8.add_zero sector] at hauth
    rw [readSectors, Poll.bind_of_eq hauth]
    rfl
  | succ k ih =>
    have hnext : sector + UInt8.ofNat (k + 1) = sector + 1 + UInt8.ofNat k := by
      rw [UInt8.ofNat_add, UInt8.add_assoc, UInt8.add_comm 1]
      rfl
    rw [hnext] at hauth
    rw [readSectors] at h ⊢
    obtain ⟨r, t₃, hr, h⟩ := bind_eq_some h
    rw [bind_of_eq hr]
    cases r with
    | error e' => exact ih h hauth
    | ok c =>
      obtain ⟨⟨data', ret⟩, t₄, hblocks, h⟩ := bind_eq_some h
      refine (bind_of_eq hblocks _).trans ?_
      simp only at h ⊢
      by_cases hret : ret ≠ .ok ()
      · rw [if_pos hret] at h
        cases h
        exact absurd rfl hret
      · rw [if_neg hret] at h ⊢
        exact ih h hauth

section Proofs

variable {nr : UInt8 → CArray UInt8 4} {type : CardType} {start data : CardData cfg}
  {tagUid : Bytes} {t : τ} {st₀ st st' : τ × List Exchange} {ret : Ret}

/-- Up to the first sector that is entered the data is the one from before. A bit that tells nothing
is kept behind it, or the read ends there. -/
theorem keyEvidence_sectors (hs : s.active = true)
    (hdetect : pollerDetectType (logged s) (t, []) = some (type, st₀))
    (hstart : start = pollerStart tagUid type) {n : ℕ}
    (hbefore : readSectors (logged s) nr (getTotalBlocks type) k 0 start st₀ =
      some ((start, .ok ()), st))
    (hn : k + n = getTotalSectors type) (hlog : ∀ e ∈ st'.2, NotKeyB e.1)
    (hrun : readSectors (logged s) nr (getTotalBlocks type) n (UInt8.ofNat k) start st =
      some ((data, ret), st')) :
    KeyEvidence s nr tagUid t data st'.2 ↔
      keysProved (logged s) nr (getTotalBlocks type) n (UInt8.ofNat k) start st = true := by
  have hclear : ∀ sector keyB, start.isKeyFound sector keyB = false := by
    simp [hstart, CardData.isKeyFound, pollerStart, CardData.reset]
  induction n generalizing k st with
  | zero =>
    cases hrun
    refine iff_of_true (fun k _ => ⟨fun h => ?_, fun h => ?_⟩) rfl
    · cases (hclear _ _).symm.trans h
    · cases (hclear _ _).symm.trans h
  | succ n ih =>
    have hk : k < getTotalSectors type := by omega
    have hnext : UInt8.ofNat k + 1 = UInt8.ofNat (k + 1) := (ofNat_add k 1).symm
    obtain ⟨r, st₁, hauth, hrun⟩ := bind_eq_some hrun
    rw [keysProved]
    simp only [hauth]
    cases r with
    | error e =>
      simp only [hnext] at hrun ⊢
      have hauth₀ : pollerAuth (logged s) start (getFirstBlockOfSector (0 + UInt8.ofNat k)) defaultKey
          (nr (0 + UInt8.ofNat k)) st = some (.error e, st₁) := by
        rw [UInt8.zero_add]
        exact hauth
      exact ih (readSectors_snoc hbefore hauth₀) (by omega) hrun
    | ok c =>
      obtain ⟨⟨data₁, ret₁⟩, st₂, hblocks, hrun⟩ := bind_eq_some hrun
      have hfound := ensures_sector_found hk c _ _ _ _ hblocks
      simp only [isKeyFound_setKeyFound _ (toNat_sector_lt hk), hclear, Bool.false_or] at hfound
      obtain ⟨nt, answer, hseg, hlen, hproved⟩ := pollerAuth_log hauth
      have h40 : k < 40 := by
        have : getTotalSectors type ≤ 40 := by cases type <;> decide
        omega
      simp only [hblocks, hproved, any_some]
      by_cases hret : ret₁ = .ok ()
      · -- the trailer was read, and no key B was ever sent
        refine iff_of_false (fun h => ?_) (by simp [hret])
        have hkeyB : data.isKeyFound (UInt8.ofNat k) true = true := by
          simp only [hret, ne_eq, not_true_eq_false, if_false, hnext] at hrun
          refine ensures_readSectors_found nr (by omega) data₁ _ _ _ hrun _ _ ?_
          rw [hfound, hret]
          simp
        obtain ⟨pre, seg, post, block, key, cuid, nr', hl, nt', answer', rfl, -⟩ := (h k h40).2 hkeyB
        exact hlog ([0x61, block], .ok nt') (by rw [hl]; simp) block rfl
      · simp only [ne_eq, hret, not_false_eq_true, if_true] at hrun
        cases hrun
        obtain ⟨more, hmore, -⟩ := talks_readSectorBlocks (talks_sends hs) (.inr fun _ => Adds.undefined)
          _ _ _ _ _ _ _ _ _ hblocks
        rw [hseg] at hmore
        simp only [hret, decide_false, Bool.false_and, Bool.or_false, Bool.not_false,
          Bool.and_true] at hfound ⊢
        constructor
        · intro h
          have hkeyA : data.isKeyFound (UInt8.ofNat k) false = true := by rw [hfound]; simp
          obtain ⟨before, st₃, seg, post, ⟨type', st₀', hdetect', hbefore'⟩, hl, nt', answer', rfl,
            -, hp⟩ := (h k h40).1 hkeyA
          cases hdetect.symm.trans hdetect'
          rw [← hstart] at hbefore'
          cases hbefore.symm.trans hbefore'
          rw [hmore, append_assoc, append_assoc] at hl
          have hl := append_cancel_left hl
          obtain ⟨rfl, ⟨-, rfl⟩, -⟩ := hl
          exact hp
        · intro hp k' hk'
          have hkk : UInt8.ofNat k = UInt8.ofNat k' → k = k' := by
            intro h
            have h := congrArg UInt8.toNat h
            rwa [toNat_ofNat', toNat_ofNat', Nat.mod_eq_of_lt (by omega),
              Nat.mod_eq_of_lt (by omega)] at h
          constructor
          · intro h
            rw [hfound] at h
            simp only [beq_self_eq_true, Bool.and_true, beq_iff_eq] at h
            obtain rfl := hkk h
            exact ⟨start, st, _, more, ⟨type, st₀, hdetect, hstart ▸ hbefore⟩, hmore, nt, answer,
              rfl, hlen, hp⟩
          · intro h
            rw [hfound] at h
            simp at h

theorem keyEvidence_of_active (hs : s.active = true) {out : CardData cfg} {t' : τ}
    {log : List Exchange}
    (h : pollerRead (logged s) tagUid nr out (t, []) = some ((data, ret), (t', log))) :
    KeyEvidence s nr tagUid t data log ↔ readProved (logged s) nr tagUid out (t, []) = true := by
  have hactive : ¬ (logged s).active = false := by simp [logged, hs]
  rw [pollerRead, if_neg hactive] at h
  rw [readProved, if_neg hactive]
  obtain ⟨type, st₁, hdetect, h⟩ := bind_eq_some h
  obtain ⟨⟨data', ret'⟩, st₂, hread, h⟩ := bind_eq_some h
  -- the return value is no matter
  have hout : data' = data ∧ st₂ = (t', log) := by
    simp only at h
    split at h <;> cases h <;> exact ⟨rfl, rfl⟩
  obtain ⟨rfl, rfl⟩ := hout
  have hsent : ∀ e ∈ log, NotKeyB e.1 := by
    obtain ⟨seg₁, hseg₁, hquiet₁⟩ := talks_pollerDetectType (talks_sends hs) _ _ _ hdetect
    obtain ⟨seg₂, hseg₂, hquiet₂⟩ := talks_readSectors (talks_sends hs)
      (.inr fun _ => Adds.undefined) _ _ _ _ _ _ _ hread
    intro e he
    simp only at hseg₂
    rw [hseg₂, hseg₁] at he
    exact (mem_append.mp he).elim (hquiet₁ e) (hquiet₂ e)
  rw [hdetect]
  exact keyEvidence_sectors hs hdetect rfl rfl (Nat.zero_add _) hsent hread

/-- The bits of a capture are evidence for the keys exactly if the tag has given the right answer in
the first sector that is entered, and that sector is not read to its end. -/
theorem keyEvidence_iff {out : CardData cfg} {t' : τ} {log : List Exchange}
    (h : pollerRead (logged s) tagUid nr out (t, []) = some ((data, ret), (t', log))) :
    KeyEvidence s nr tagUid t data log ↔ readProved (logged s) nr tagUid out (t, []) = true := by
  by_cases hs : s.active = true
  · exact keyEvidence_of_active hs h
  have hactive : (logged s).active = false := by simpa [logged] using hs
  rw [pollerRead, if_pos hactive] at h
  cases h
  rw [readProved, if_pos hactive]
  simp only [List.all_eq_true, List.mem_range, Bool.and_eq_true, Bool.not_eq_true']
  constructor
  · intro h k hk
    constructor
    · by_contra hfound
      obtain ⟨_, _, seg, _, -, hl, nt, answer, rfl, -⟩ := (h k hk).1 (by simpa using hfound)
      simp at hl
    · by_contra hfound
      obtain ⟨_, seg, _, _, _, _, _, hl, nt, answer, rfl, -⟩ := (h k hk).2 (by simpa using hfound)
      simp at hl
  · intro h k hk
    simp [h k hk]

end Proofs

def entered (answer : Bytes) : Session ℕ :=
  streamed fun k => match k with
    | 2 => .ok [0x01, 0x02, 0x03, 0x04]
    | 3 => .ok answer
    | _ => .error .etimedout

def readEntered (answer : Bytes) : Option ((CardData .default × Ret) × ℕ × List Exchange) :=
  pollerRead (logged (entered answer)) [] (fun _ => .fill 4 0) .reset (0, [])

def rightAnswer : Bytes :=
  (crypt (encryptReaderNonce defaultKey 0 [0x01, 0x02, 0x03, 0x04] [0, 0, 0, 0]).1
    (be32Bytes (prngSuccessor (beNum 32 [0x01, 0x02, 0x03, 0x04]) 96))).2

theorem entered_keyEvidence : ∃ r, readEntered rightAnswer = some r ∧
    r.1.1.isKeyFound 0 false = true ∧
      KeyEvidence (entered rightAnswer) (fun _ => .fill 4 0) [] 0 r.1.1 r.2.2 := by
  have hrun : (readEntered rightAnswer).any (fun r => r.1.1.isKeyFound 0 false) = true := by
    decide +kernel
  obtain ⟨r, hread, hfound⟩ := (any_eq_true _ _).mp hrun
  exact ⟨r, hread, hfound, (keyEvidence_iff hread).mpr (by decide +kernel)⟩

theorem entered_without_key : ∃ r, readEntered [0, 0, 0, 0] = some r ∧
    r.1.1.isKeyFound 0 false = true ∧
      ¬ KeyEvidence (entered [0, 0, 0, 0]) (fun _ => .fill 4 0) [] 0 r.1.1 r.2.2 := by
  have hrun : (readEntered [0, 0, 0, 0]).any (fun r => r.1.1.isKeyFound 0 false) = true := by
    decide +kernel
  obtain ⟨r, hread, hfound⟩ := (any_eq_true _ _).mp hrun
  refine ⟨r, hread, hfound, fun h => ?_⟩
  exact absurd ((keyEvidence_of_active rfl hread).mp h) (by decide +kernel)

end NfcStack.Classic
