import NfcStack.Protocols.Ndef.Files

/-!
# Write access to the NDEF file

Whether the file may be written is kept in a flag that `ndef_listener_init` sets, and in byte 14 of the
capability container, which a load replaces (`writeConsistent_always_iff`).
-/

namespace NfcStack.Ndef

open CArray

variable {cfg : Config} {st : State cfg} {bytes : Bytes}

inductive Lifecycle (cfg : Config)
  | init (model : Option (Data cfg)) (writable : Bool)
  | shutdown
  | event (e : Event)

def lifecycle : Machine (State cfg) (Lifecycle cfg) Unit where
  step st
    | .init model writable => some ((listenerInit st model writable).1, ())
    | .shutdown => some (listenerShutdown st, ())
    | .event e => listener.step st e

def ccWriteAccess (st : State cfg) : UInt8 := byteAt st.model.cc.toList 14

/-- With the NDEF file selected, an UPDATE BINARY in its range is accepted exactly if the capability
container announces open write access. -/
def State.WriteConsistent (st : State cfg) : Prop :=
  ∀ apdu : Apdu, apdu.cla = 0x00 → apdu.ins = 0xD6 → apdu.lc ≠ 0 →
    binaryOffset apdu + apdu.lc ≤ cfg.fileSize →
    ((onApdu { st with fileSel := .ndef } apdu).2.1 = StatusWord.ok.bytes ↔ ccWriteAccess st = 0x00)

theorem writeConsistent_iff :
    st.WriteConsistent ↔ (st.writable = true ↔ ccWriteAccess st = 0x00) := by
  have hanswer : ∀ apdu : Apdu, apdu.cla = 0x00 → apdu.ins = 0xD6 → apdu.lc ≠ 0 →
      binaryOffset apdu + apdu.lc ≤ cfg.fileSize →
      ((onApdu { st with fileSel := .ndef } apdu).2.1 = StatusWord.ok.bytes ↔
        st.writable = true) := by
    intro apdu hcla hins hlc hfit
    have hlength : ¬ (apdu.lc = 0 ∨ cfg.fileSize < binaryOffset apdu + apdu.lc) := by omega
    cases hw : st.writable <;>
      simp [onApdu, hcla, hins, handleUpdateBinary, hlength,
        bytes_ne_ok .conditionsNotSat (by decide)]
  constructor
  · intro h
    rw [← h (updateLength 0 0) rfl rfl (by decide) (Nat.le_add_right 2 _),
      hanswer (updateLength 0 0) rfl rfl (by decide) (Nat.le_add_right 2 _)]
  · intro h apdu hcla hins hlc hfit
    rw [hanswer apdu hcla hins hlc hfit, h]

def isStoredCard (cfg : Config) (bytes : Bytes) : Bool :=
  (deserialize (.reset : Data cfg) bytes).2 == .ok ()

def hasZeroContainer (bytes : Bytes) : Bool :=
  (CArray.ofList ccSize 0 (bytes.drop 1)).toList.all (· == 0)

/-- A load that puts the container of the bytes in place, and that container contradicts the flag.
-/
def State.mismatched (st : State cfg) : Lifecycle cfg → Bool
  | .event (.deserialize bytes) =>
    st.initialized && decide (1 + ccSize + nlenFieldLen ≤ bytes.length) &&
      byteAt bytes 0 == formatVersion && !(isStoredCard cfg bytes && hasZeroContainer bytes) &&
      decide (byteAt bytes 15 = 0x00) != st.writable
  | _ => false

theorem deserialize_cc {x : Data cfg} (hlen : 1 + ccSize + nlenFieldLen ≤ bytes.length)
    (hversion : byteAt bytes 0 = formatVersion) :
    (deserialize x bytes).1.cc = .ofList ccSize 0 (bytes.drop 1) ∧
      (deserialize x bytes).2 = (deserialize .reset bytes : Data cfg × Ret).2 := by
  have hhead : ¬ (bytes.length < 1 + ccSize + nlenFieldLen ∨ byteAt bytes 0 ≠ formatVersion) := by
    rintro (h | h)
    · omega
    · exact h hversion
  simp only [deserialize, if_neg hhead]
  split <;> exact ⟨rfl, trivial⟩

variable (writable : Bool)

theorem writeAccess_eq_zero : writeAccess writable = 0x00 ↔ writable = true := by
  cases writable <;> decide

theorem byteAt_buildCc : byteAt (buildCc cfg writable).toList 14 = writeAccess writable := by
  rfl

theorem listenerDeserialize_writeAccess (hst : st.initialized = true)
    (hlen : 1 + ccSize + nlenFieldLen ≤ bytes.length) (hversion : byteAt bytes 0 = formatVersion) :
    ccWriteAccess (listenerDeserialize st bytes).1 =
      if isStoredCard cfg bytes ∧ hasZeroContainer bytes then writeAccess st.writable
      else byteAt bytes 15 := by
  obtain ⟨hcc, hret⟩ := deserialize_cc (x := st.model) hlen hversion
  have hbyte : byteAt (CArray.ofList ccSize 0 (bytes.drop 1)).toList 14 = byteAt bytes 15 := by
    rw [toList_ofList_of_le _ (by rw [List.length_drop]; omega)]
    simp [byteAt, ccSize]
  rw [isStoredCard, ← hret, listenerDeserialize, if_neg (by simp [hst])]
  rcases hr : deserialize st.model bytes with ⟨data, ret⟩
  rw [hr] at hcc
  cases ret with
  | error e =>
    exact (congrArg (fun cc : CArray UInt8 ccSize => byteAt cc.toList 14) hcc).trans hbyte
  | ok _ =>
    have hzero : ccIsZeroPlaceholder data = hasZeroContainer bytes := by
      rw [ccIsZeroPlaceholder, hcc]
      rfl
    show byteAt (adoptModel st.writable data).cc.toList 14 = _
    rw [adoptModel, hzero]
    cases hasZeroContainer bytes with
    | true => exact byteAt_buildCc st.writable
    | false =>
      rw [← hbyte, ← hcc]
      rfl

theorem onApdu_writeAccess (apdu : Apdu) :
    (onApdu st apdu).1.writable = st.writable ∧
      ccWriteAccess (onApdu st apdu).1 = ccWriteAccess st := by
  simp only [onApdu, handleSelectFile, handleUpdateBinary]
  split_ifs <;> exact ⟨rfl, rfl⟩

variable (model : Option (Data cfg))

theorem initModel_writeAccess (writable : Bool) :
    byteAt (initModel writable model).cc.toList 14 = writeAccess writable := by
  simp only [initModel, padNdefFile]
  split_ifs
  · exact byteAt_eq (get?_set_self _ (by decide) _)
  · exact byteAt_buildCc writable

theorem initialised_consistent (writable : Bool) :
    (⟨initModel writable model, writable, true, .none⟩ : State cfg).WriteConsistent := by
  rw [writeConsistent_iff, ← writeAccess_eq_zero, ← initModel_writeAccess model]
  rfl

theorem listenerDeserialize_consistent_iff (hst : st.WriteConsistent) (bytes : Bytes) :
    (listenerDeserialize st bytes).1.WriteConsistent ↔
      st.mismatched (.event (.deserialize bytes)) = false := by
  by_cases hi : st.initialized = true
  swap
  · rw [listenerDeserialize, if_pos hi]
    exact iff_of_true hst (by simp [State.mismatched, hi])
  by_cases hhead : bytes.length < 1 + ccSize + nlenFieldLen ∨ byteAt bytes 0 ≠ formatVersion
  · have hd : deserialize st.model bytes = (st.model, .error .ebadmsg) := if_pos hhead
    rw [listenerDeserialize, if_neg (by simp [hi]), hd]
    refine iff_of_true hst ?_
    rcases hhead with hlen | hversion
    · simp [State.mismatched, Nat.not_le.mpr hlen]
    · simp [State.mismatched, hversion]
  push Not at hhead
  have hw : (listenerDeserialize st bytes).1.writable = st.writable := by
    rw [listenerDeserialize, if_neg (by simp [hi])]
    rcases deserialize st.model bytes with ⟨data, _ | _⟩ <;> rfl
  rw [writeConsistent_iff, hw, listenerDeserialize_writeAccess hi hhead.1 hhead.2]
  by_cases hzero : isStoredCard cfg bytes ∧ hasZeroContainer bytes
  · rw [if_pos hzero, writeAccess_eq_zero]
    exact iff_of_true Iff.rfl (by simp [State.mismatched, hzero.1, hzero.2])
  · have hzero' : (isStoredCard cfg bytes && hasZeroContainer bytes) = false := by
      simpa using hzero
    rw [if_neg hzero]
    by_cases hopen : byteAt bytes 15 = 0x00 <;> cases hwr : st.writable <;>
      simp [State.mismatched, hi, hhead, hzero', hopen, hwr]

theorem lifecycle_step_iff {e : Lifecycle cfg} {r : State cfg × Unit} (hst : st.WriteConsistent)
    (h : lifecycle.step st e = some r) : r.1.WriteConsistent ↔ st.mismatched e = false := by
  have hkept : ∀ st' : State cfg, st'.writable = st.writable →
      ccWriteAccess st' = ccWriteAccess st → st'.WriteConsistent := by
    intro st' hw hcc
    rwa [writeConsistent_iff, hw, hcc, ← writeConsistent_iff]
  cases e with
  | init model writable =>
    cases h
    refine iff_of_true ?_ rfl
    rw [listenerInit]
    split
    · exact hst
    · exact initialised_consistent model writable
  | shutdown =>
    cases h
    refine iff_of_true ?_ rfl
    rw [listenerShutdown]
    split <;> exact hkept _ rfl rfl
  | event e =>
    cases e with
    | select | close =>
      cases h
      exact iff_of_true (hkept _ rfl rfl) rfl
    | apdu apdu =>
      cases h
      exact iff_of_true (hkept _ (onApdu_writeAccess apdu).1 (onApdu_writeAccess apdu).2) rfl
    | serialize outMax =>
      cases h
      refine iff_of_true ?_ rfl
      rw [listenerSerialize]
      split
      · exact hst
      · refine hkept _ rfl ?_
        rw [syncFileLen]
        split <;> rfl
    | deserialize bytes =>
      cases h
      exact listenerDeserialize_consistent_iff hst bytes

theorem writeConsistent_always_iff {st₀ : State cfg} (h₀ : st₀.initialized = false)
    (model : Option (Data cfg)) (writable : Bool) (es : List (Lifecycle cfg)) :
    (listenerInit st₀ model writable).1.WriteConsistent ∧
      (lifecycle.Always (fun _ _ out => ∀ r ∈ out, r.1.WriteConsistent)
          (listenerInit st₀ model writable).1 es ↔
        lifecycle.Always (fun st e _ => st.mismatched e = false)
          (listenerInit st₀ model writable).1 es) := by
  have hstart : (listenerInit st₀ model writable).1.WriteConsistent := by
    rw [(running_listenerInit h₀ model writable).1]
    exact initialised_consistent model writable
  have htotal : (lifecycle : Machine (State cfg) (Lifecycle cfg) Unit).Total := by
    intro st e
    cases e with
    | event e => cases e <;> exact ⟨_, rfl⟩
    | _ => exact ⟨_, rfl⟩
  refine ⟨hstart, htotal.always_iff_of_fails (I := State.WriteConsistent) ?_ ?_ hstart⟩
  · intro st e r hst hstep hf
    have := (lifecycle_step_iff hst hstep).mpr hf
    exact ⟨this, this⟩
  · intro st e r hst hstep hf hr
    rw [(lifecycle_step_iff hst hstep).mp hr] at hf
    cases hf

def readOnlyCard : Bytes := [formatVersion] ++ (buildCc .default false).toList ++ [0x00, 0x00]

theorem default_writeConsistent : lifecycle.Always (fun _ _ out => ∀ r ∈ out, r.1.WriteConsistent)
      (listenerInit (.boot : State .default) none false).1
      [.event .select, .event (.deserialize readOnlyCard)] := by
  have hboot : (.boot : State .default).initialized = false := rfl
  exact (writeConsistent_always_iff hboot none false _).2.mpr (by decide +kernel)

theorem writable_behind_read_only_container :
    ¬ lifecycle.Always (fun _ _ out => ∀ r ∈ out, r.1.WriteConsistent)
      (listenerInit (.boot : State .default) none true).1 [.event (.deserialize readOnlyCard)] := by
  intro h
  exact absurd (writeConsistent_iff.mp (h.1 _ rfl)) (by decide +kernel)

end NfcStack.Ndef
