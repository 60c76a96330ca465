import NfcStack.Protocols.Emv.Poller
import NfcStack.Reader.Stream

/-!
# The record loop of the EMV poller

The record loop of `emv_poller_read` counts in a byte. If the last record is 255 the loop ends only with
a record that is refused or an array that is full.
-/

namespace NfcStack.Emv

open List Option NfcStack.Reader Poll UInt8

variable {cfg : Config}

section Exchanges

variable {σ : Stream} {k : ℕ}

def accepted : Except Errno Bytes → Option Bytes
  | .error _ => none
  | .ok rx => if rx.length ≤ maxResponseLen ∧ Ndef.swOk rx = true then some rx else none

def isRecord (cfg : Config) (answer : Except Errno Bytes) : Bool :=
  match accepted answer with
  | none => false
  | some rx => 0 < (Ndef.payload rx).length ∧ (Ndef.payload rx).length ≤ cfg.recordSize

def recordsIn (cfg : Config) (σ : Stream) (k n : ℕ) : ℕ :=
  (List.range n).countP fun i => isRecord cfg (σ (k + i))

def lastRecord (σ : Stream) : Option UInt8 := do
  let ppse ← accepted (σ 0)
  let _ ← (parsePpseAid (Ndef.payload ppse)).toOption
  let _ ← accepted (σ 1)
  let options ← accepted (σ 2)
  return if 8 ≤ options.length then byteAt options 6 else 0

theorem recordsIn_succ (cfg : Config) (σ : Stream) (k n : ℕ) :
    recordsIn cfg σ k (n + 1) =
      recordsIn cfg σ (k + 1) n + if isRecord cfg (σ k) then 1 else 0 := by
  rw [recordsIn, range_succ_eq_map, countP_cons, countP_map]
  simp only [recordsIn, Function.comp_def, Nat.succ_eq_add_one, Nat.add_zero, Nat.add_assoc,
    Nat.add_comm 1]

theorem pollerTransceive_accepted (tx : Bytes) {rx : Bytes} (h : accepted (σ k) = some rx) :
    pollerTransceive (streamed σ) tx k = some (.ok rx, k + 1) := by
  cases hk : σ k with
  | error e => simp [hk, accepted] at h
  | ok rx' =>
    simp only [hk, accepted, ite_none_right_eq_some, some.injEq] at h
    obtain ⟨⟨hlen, hok⟩, rfl⟩ := h
    rw [pollerTransceive, bind_of_eq (transceive_streamed_of_le hk hlen)]
    simp only [hok, if_true]
    rfl

theorem pollerTransceive_unaccepted (tx : Bytes) (h : accepted (σ k) = none) :
    ∃ e, pollerTransceive (streamed σ) tx k = some (.error e, k + 1) := by
  rw [pollerTransceive, bind_of_eq (transceive_streamed σ maxResponseLen tx k)]
  cases hk : σ k with
  | error e => exact ⟨e, rfl⟩
  | ok rx =>
    simp only [hk, accepted, ite_eq_right_iff, reduceCtorEq, imp_false, not_and] at h
    by_cases hlen : maxResponseLen < rx.length
    · refine ⟨.enospc, ?_⟩
      simp only [Except.bind, if_pos hlen]
      rfl
    · refine ⟨.eio, ?_⟩
      have hok := h (Nat.not_lt.mp hlen)
      simp only [Except.bind, if_neg hlen, if_neg hok]
      rfl

variable {sfi last recNo : UInt8} {idx n : ℕ}

theorem pollerReadRecords_turn (σ : Stream) (sfi last recNo : UInt8) (idx k : ℕ) (out : Image cfg) :
    ((last < recNo ∨ cfg.maxRecords ≤ idx) ∧ ∃ r, ∀ fuel,
        pollerReadRecords (streamed σ) sfi last (fuel + 1) recNo idx out k = some (r, k)) ∨
      (accepted (σ k) = none ∧ ∃ r, ∀ fuel,
        pollerReadRecords (streamed σ) sfi last (fuel + 1) recNo idx out k = some (r, k + 1)) ∨
      ((¬ last < recNo ∧ accepted (σ k) ≠ none) ∧ ∃ out', ∀ fuel,
        pollerReadRecords (streamed σ) sfi last (fuel + 1) recNo idx out k =
          pollerReadRecords (streamed σ) sfi last fuel (recNo + 1)
            (idx + if isRecord cfg (σ k) then 1 else 0) out' (k + 1)) := by
  simp only [pollerReadRecords]
  by_cases hdone : last < recNo ∨ cfg.maxRecords ≤ idx
  · refine .inl ⟨hdone, ({ out with recordCount := UInt8.ofNat idx }, .ok ()), fun fuel => ?_⟩
    rw [if_pos hdone]
    rfl
  simp only [if_neg hdone]
  cases hk : accepted (σ k) with
  | none =>
    obtain ⟨e, he⟩ := pollerTransceive_unaccepted (readRecordCommand sfi recNo) hk
    refine .inr (.inl ⟨rfl, (out, .error e), fun fuel => ?_⟩)
    rw [bind_of_eq he]
    rfl
  | some rx =>
    have hx := pollerTransceive_accepted (readRecordCommand sfi recNo) hk
    refine .inr (.inr ⟨⟨fun hlt => hdone (.inl hlt), some_ne_none rx⟩, ?_⟩)
    by_cases hfit : 0 < (Ndef.payload rx).length ∧ (Ndef.payload rx).length ≤ cfg.recordSize
    · refine ⟨storeRecord out idx (Ndef.payload rx), fun fuel => ?_⟩
      rw [bind_of_eq hx]
      simp only [isRecord, hk, hfit]
      rfl
    · refine ⟨out, fun fuel => ?_⟩
      rw [bind_of_eq hx]
      simp only [isRecord, hk, hfit]
      rfl

def EndsIn (cfg : Config) (σ : Stream) (last recNo : UInt8) (idx k n : ℕ) : Prop :=
  (∃ i < n, accepted (σ (k + i)) = none) ∨ cfg.maxRecords ≤ idx + recordsIn cfg σ k n ∨
    (last ≠ 255 ∧ last.toNat < recNo.toNat + n)

theorem EndsIn.next (h : EndsIn cfg σ last recNo idx k (n + 1)) (hlast : ¬ last < recNo)
    (hk : accepted (σ k) ≠ none) :
    EndsIn cfg σ last (recNo + 1) (idx + if isRecord cfg (σ k) then 1 else 0) (k + 1) n := by
  rcases h with ⟨i, hi, hnone⟩ | hrecords | ⟨hne, hlt⟩
  · cases i with
    | zero => exact absurd hnone hk
    | succ i =>
      refine .inl ⟨i, by omega, ?_⟩
      rwa [Nat.add_assoc, Nat.add_comm 1]
  · rw [recordsIn_succ] at hrecords
    exact .inr (.inl (by omega))
  · -- the counter is not above the last record, so it does not wrap around
    refine .inr (.inr ⟨hne, ?_⟩)
    have hmax : last.toNat ≠ 255 := fun h => hne (UInt8.toNat_inj.mp h)
    have hbyte := last.toNat_lt
    rw [UInt8.lt_iff_toNat_lt] at hlast
    rw [UInt8.toNat_add, UInt8.toNat_one]
    omega

theorem EndsIn.of_next
    (h : EndsIn cfg σ 255 (recNo + 1) (idx + if isRecord cfg (σ k) then 1 else 0) (k + 1) n) :
    EndsIn cfg σ 255 recNo idx k (n + 1) := by
  rcases h with ⟨i, hi, hnone⟩ | hrecords | ⟨hne, -⟩
  · refine .inl ⟨i + 1, by omega, ?_⟩
    rwa [Nat.add_comm i, ← Nat.add_assoc]
  · refine .inr (.inl ?_)
    rw [recordsIn_succ]
    omega
  · exact absurd rfl hne

theorem pollerReadRecords_ends (h : EndsIn cfg σ last recNo idx k n) (sfi : UInt8)
    (out : Image cfg) :
    ∃ r k', k' ≤ k + n ∧ ∀ m,
      pollerReadRecords (streamed σ) sfi last (m + n + 1) recNo idx out k = some (r, k') := by
  induction n generalizing recNo idx k out with
  | zero =>
    have hdone : last < recNo ∨ cfg.maxRecords ≤ idx := by
      rcases h with ⟨i, hi, -⟩ | hrecords | ⟨-, hlt⟩
      · omega
      · exact .inr hrecords
      · exact .inl (lt_iff_toNat_lt.mpr hlt)
    refine ⟨({ out with recordCount := UInt8.ofNat idx }, .ok ()), k, Nat.le_refl k, fun m => ?_⟩
    rw [pollerReadRecords, if_pos hdone]
    rfl
  | succ n ih =>
    rcases pollerReadRecords_turn σ sfi last recNo idx k out with
      ⟨-, r, hr⟩ | ⟨-, r, hr⟩ | ⟨⟨hlast, hk⟩, out', hnext⟩
    · exact ⟨r, k, Nat.le_add_right _ _, fun m => hr _⟩
    · exact ⟨r, k + 1, by omega, fun m => hr _⟩
    · obtain ⟨r, k', hle, hr⟩ := ih (h.next hlast hk) out'
      exact ⟨r, k', by omega, fun m => (hnext _).trans (hr m)⟩

variable {r : Image cfg × Ret} {out : Image cfg} {fuel k' : ℕ}

theorem le_of_pollerReadRecords
    (hr : pollerReadRecords (streamed σ) sfi last fuel recNo idx out k = some (r, k')) :
    k ≤ k' := by
  induction fuel generalizing recNo idx out k with
  | zero => cases hr
  | succ fuel ih =>
    rcases pollerReadRecords_turn σ sfi last recNo idx k out with
      ⟨-, r', hr'⟩ | ⟨-, r', hr'⟩ | ⟨-, out', hnext⟩
    · cases (hr' fuel).symm.trans hr
      exact Nat.le_refl _
    · cases (hr' fuel).symm.trans hr
      exact Nat.le_succ k
    · exact Nat.le_of_succ_le (ih ((hnext fuel).symm.trans hr))

theorem lt_of_pollerReadRecords (h : ¬ EndsIn cfg σ 255 recNo idx k n)
    (hr : pollerReadRecords (streamed σ) sfi 255 fuel recNo idx out k = some (r, k')) :
    k + n < k' := by
  induction fuel generalizing recNo idx out k n with
  | zero => cases hr
  | succ fuel ih =>
    rcases pollerReadRecords_turn σ sfi 255 recNo idx k out with
      ⟨hlast | hfull, -⟩ | ⟨hnone, r', hr'⟩ | ⟨-, out', hnext⟩
    · rw [lt_iff_toNat_lt] at hlast
      exact absurd recNo.toNat_lt (Nat.not_lt.mpr hlast)
    · exact absurd (.inr (.inl (Nat.le_add_right_of_le hfull))) h
    · cases (hr' fuel).symm.trans hr
      cases n with
      | zero => exact Nat.lt_succ_self k
      | succ n => exact absurd (.inl ⟨0, Nat.succ_pos n, hnone⟩) h
    · have hrest := (hnext fuel).symm.trans hr
      cases n with
      | zero => exact le_of_pollerReadRecords hrest
      | succ n =>
        have := ih (fun hends => h hends.of_next) hrest
        omega

def ReadEnds (cfg : Config) (σ : Stream) : Prop :=
  ∃ (r : Image cfg × Ret) (k' : ℕ), k' ≤ 3 + 256 ∧
    ∀ fuel ≥ 257, pollerRead (streamed σ) fuel 0 = some (r, k')

theorem aflLast_storeOptions (aid rx : Bytes) :
    (storeOptions (storeAid aid : Image cfg) rx).aflLast =
      if 8 ≤ rx.length then byteAt rx 6 else 0 := by
  by_cases hlen : 8 ≤ rx.length
  · have hafl : (CArray.ofList 4 (0 : UInt8) (rx.drop 4)).toList = (rx.drop 4).take 4 :=
      CArray.toList_ofList_of_le _ (by rw [length_drop]; omega)
    have hlast := (CArray.ofList 4 (0 : UInt8) (rx.drop 4)).get?_coe 2
    rw [CArray.get?, hafl, getElem?_take_of_lt (by decide), getElem?_drop] at hlast
    rw [storeOptions, if_pos hlen, if_pos hlen]
    exact (byteAt_eq hlast).symm
  · rw [storeOptions, if_neg hlen, if_neg hlen]
    rfl

theorem pollerRead_cases (cfg : Config) (σ : Stream) :
    (lastRecord σ = none ∧ ∃ (r : Image cfg × Ret) (k' : ℕ), k' ≤ 3 ∧
        ∀ fuel, pollerRead (streamed σ) fuel 0 = some (r, k')) ∨
      ∃ out : Image cfg, lastRecord σ = some out.aflLast ∧
        ∀ fuel, pollerRead (streamed σ) fuel 0 =
          pollerReadRecords (streamed σ) (out.aflSfi >>> 3) out.aflLast fuel out.aflFirst 0 out 3 := by
  simp only [pollerRead]
  cases h₀ : accepted (σ 0) with
  | none =>
    obtain ⟨e, he⟩ := pollerTransceive_unaccepted selectPpse h₀
    refine .inl ⟨by simp [lastRecord, h₀], (.reset, .error e), 1, by decide, fun fuel => ?_⟩
    rw [bind_of_eq he]
    rfl
  | some ppse =>
    simp only [bind_of_eq (pollerTransceive_accepted selectPpse h₀)]
    cases haid : parsePpseAid (Ndef.payload ppse) with
    | error e =>
      refine .inl ⟨by simp [lastRecord, h₀, haid, Except.toOption], (.reset, .error e), 1, by decide,
        fun fuel => rfl⟩
    | ok aid =>
      dsimp only
      cases h₁ : accepted (σ 1) with
      | none =>
        obtain ⟨e, he⟩ := pollerTransceive_unaccepted (selectApp aid) h₁
        refine .inl ⟨by simp [lastRecord, h₀, h₁], (storeAid aid, .error e), 2, by decide,
          fun fuel => ?_⟩
        rw [bind_of_eq he]
        rfl
      | some rx =>
        simp only [bind_of_eq (pollerTransceive_accepted (selectApp aid) h₁)]
        cases h₂ : accepted (σ 2) with
        | none =>
          obtain ⟨e, he⟩ := pollerTransceive_unaccepted getProcessingOptions h₂
          refine .inl ⟨by simp [lastRecord, h₀, h₁, h₂], (storeAid aid, .error e), 3, by decide,
            fun fuel => ?_⟩
          rw [bind_of_eq he]
          rfl
        | some options =>
          refine .inr ⟨storeOptions (storeAid aid) options, ?_, fun fuel => ?_⟩
          · rw [aflLast_storeOptions]
            simp [lastRecord, h₀, h₁, h₂, haid, Except.toOption]
          · rw [bind_of_eq (pollerTransceive_accepted getProcessingOptions h₂)]

/-- A card is read within 256 exchanges of the record loop if and only if it does not name 255 as its
last record, or refuses one of the 256 reads, or sends as many records as there is room for. -/
theorem pollerRead_ends_iff (cfg : Config) (σ : Stream) :
    ReadEnds cfg σ ↔ lastRecord σ ≠ some 255 ∨ (∃ i < 256, accepted (σ (3 + i)) = none) ∨
      cfg.maxRecords ≤ recordsIn cfg σ 3 256 := by
  rcases pollerRead_cases cfg σ with ⟨hnone, r, k', hle, hr⟩ | ⟨out, hlast, hread⟩
  · refine iff_of_true ⟨r, k', by omega, fun fuel _ => hr fuel⟩ (.inl ?_)
    rw [hnone]
    exact (some_ne_none 255).symm
  constructor
  · rintro ⟨r, k', hle, hr⟩
    by_contra hcond
    push Not at hcond
    obtain ⟨hmax, hanswers, hrecords⟩ := hcond
    have hmax' : out.aflLast = 255 := some.inj (hlast.symm.trans hmax)
    rw [hmax'] at hread
    have hends : ¬ EndsIn cfg σ 255 out.aflFirst 0 3 256 := by
      rintro (⟨i, hi, hnone⟩ | hfull | ⟨hne, -⟩)
      · exact hanswers i hi hnone
      · rw [Nat.zero_add] at hfull
        exact absurd hfull (Nat.not_le.mpr hrecords)
      · exact hne rfl
    have := lt_of_pollerReadRecords hends ((hread 257).symm.trans (hr 257 le_rfl))
    omega
  · intro hcond
    have hends : EndsIn cfg σ out.aflLast out.aflFirst 0 3 256 := by
      rcases hcond with hne | hnone | hfull
      · have hbyte := out.aflLast.toNat_lt
        refine .inr (.inr ⟨fun hmax => hne (hlast.trans (congrArg some hmax)), ?_⟩)
        omega
      · exact .inl hnone
      · exact .inr (.inl (by rwa [Nat.zero_add]))
    obtain ⟨r, k', hle, hr⟩ := pollerReadRecords_ends hends (out.aflSfi >>> 3) out
    refine ⟨r, k', hle, fun fuel hfuel => ?_⟩
    obtain ⟨m, rfl⟩ : ∃ m, fuel = m + 256 + 1 := ⟨fuel - 257, by omega⟩
    rw [hread, hr m]

def emptyRecords : Stream := fun k =>
  if k = 0 then .ok [0x4F, 0x01, 0xA0, 0x90, 0x00]
  else if k = 2 then .ok [0x80, 0x06, 0x00, 0x00, 0x08, 0x01, 0xFF, 0x00, 0x90, 0x00]
  else .ok [0x90, 0x00]

theorem not_endsIn_emptyRecords (recNo : UInt8) (n : ℕ) :
    ¬ EndsIn .default emptyRecords 255 recNo 0 3 n := by
  have hanswer (i : ℕ) : emptyRecords (3 + i) = .ok [0x90, 0x00] := by
    rw [emptyRecords, if_neg (by omega), if_neg (by omega)]
  have hnone : recordsIn .default emptyRecords 3 n = 0 := by
    rw [recordsIn, countP_eq_zero]
    intro i _
    rw [hanswer]
    decide
  rintro (⟨i, -, hi⟩ | hfull | ⟨hne, -⟩)
  · rw [hanswer] at hi
    exact absurd hi (by decide)
  · rw [hnone] at hfull
    exact absurd hfull (by decide)
  · exact hne rfl

theorem pollerRead_emptyRecords : ¬ ReadEnds .default emptyRecords ∧
      ∀ fuel, pollerRead (streamed emptyRecords) fuel 0 =
        (none : Option ((Image .default × Ret) × ℕ)) := by
  have hnever (fuel : ℕ) : pollerRead (streamed emptyRecords) fuel 0 =
      (none : Option ((Image .default × Ret) × ℕ)) := by
    rcases pollerRead_cases .default emptyRecords with ⟨hnone, -⟩ | ⟨out, hlast, hread⟩
    · exact absurd hnone (by decide)
    have hmax : out.aflLast = 255 :=
      some.inj (hlast.symm.trans (show lastRecord emptyRecords = some 255 by decide))
    rw [hmax] at hread
    rw [eq_none_iff_forall_ne_some]
    rintro ⟨r, k'⟩ hr
    have := lt_of_pollerReadRecords (not_endsIn_emptyRecords _ k') hr
    omega
  refine ⟨?_, hnever⟩
  rintro ⟨r, k', -, hr⟩
  exact absurd ((hnever 257).symm.trans (hr 257 le_rfl)) (some_ne_none _).symm

end Exchanges

end NfcStack.Emv
