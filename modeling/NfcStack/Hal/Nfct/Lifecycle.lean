import NfcStack.Hal.Transport
import NfcStack.Lib.Machine

/-!
# Lifecycle of the NFCT backend

The calls of `hal/nfc_transport_nrfx.c` that start and stop the emulation, with the outcomes of the
calls of the T4T library as parameters.
-/

namespace NfcStack.Hal.Nfct

open Option

structure Life where
  state : TransportState
  /-- `s_session` is `NFC_SESSION_LISTEN`. -/
  listening : Bool
  /-- `s_pending_uid`, if it is valid. -/
  pendingUid : Option Uid
  registered : Bool
  uidRotationCount : UInt32
  errorCount : UInt32
  lastError : Option Errno
  emulating : Bool
deriving DecidableEq

namespace Life

def boot : Life := ⟨.uninitialized, false, none, false, 0, 0, none, false⟩

def error (s : Life) : Life := { s with errorCount := s.errorCount + 1, lastError := some .eio }

def nrfToErrno (ok : Bool) : Ret := if ok then .ok () else .error .eio

def emulationStart (ok : Bool) (s : Life) : Life := if ok then { s with emulating := true } else s

def emulationStop (ok : Bool) (s : Life) : Life := if ok then { s with emulating := false } else s

def applyNfcid1 (uid : Uid) (paramOk : Bool) (s : Life) : Life × Ret :=
  if paramOk then ({ s with pendingUid := some uid }, .ok ()) else (s.error, .error .eio)

def init (setup fwi : Bool) (s : Life) : Life × Ret :=
  if s.state ≠ .uninitialized ∧ s.state ≠ .stopped then (s, .error .ealready)
  else
    let s₁ := { s with uidRotationCount := 0, errorCount := 0, lastError := none }
    if setup && fwi then ({ s₁ with listening := false, state := .initialized }, .ok ())
    else (s₁.error, .error .eio)

def registerCallbacks (ops : Bool) (s : Life) : Life × Ret :=
  match s.state with
  | .uninitialized => (s, .error .enodev)
  | .started => (s, .error .ebusy)
  | .initialized | .stopped => ({ s with registered := ops }, .ok ())

def startEmulation (startOk : Bool) (s : Life) : Life × Ret :=
  let s₁ := s.emulationStart startOk
  if startOk then ({ s₁ with listening := true, state := .started }, .ok ())
  else (s₁.error, .error .eio)

def start (uid : Option Uid) (paramOk startOk : Bool) (s : Life) : Life × Ret :=
  if s.state = .uninitialized then (s, .error .enodev)
  else if s.listening then (s, .error .ebusy)
  else if uid.any (!uidLenValid ·.len) then (s, .error .einval)
  else
    match uid <|> s.pendingUid with
    | none => s.startEmulation startOk
    | some u =>
      match s.applyNfcid1 u paramOk with
      | (s₁, .error e) => (s₁, .error e)
      | (s₁, .ok ()) => s₁.startEmulation startOk

def stop (stopOk : Bool) (s : Life) : Life × Ret :=
  if s.state = .uninitialized then (s, .error .enodev)
  else if !s.listening then (s, .ok ())
  else
    let s₁ := s.emulationStop stopOk
    let s₂ := if stopOk then s₁ else s₁.error
    ({ s₂ with listening := false, state := .stopped }, nrfToErrno stopOk)

/-- `nfc_transport_set_uid`. In a session the emulation is stopped and started again; if the UID
cannot be set, whether it starts again is not looked at. -/
def setUid (uid : Option Uid) (stopOk paramOk startOk : Bool) (s : Life) : Life × Ret :=
  match uid with
  | none => (s, .error .einval)
  | some u =>
    if !uidLenValid u.len then (s, .error .einval)
    else if s.state = .uninitialized then (s, .error .enodev)
    else if !s.listening then
      ({ s with pendingUid := some u, uidRotationCount := s.uidRotationCount + 1 }, .ok ())
    else if !stopOk then (s.error, .error .eio)
    else
      match (s.emulationStop stopOk).applyNfcid1 u paramOk with
      | (s₁, .error e) => (s₁.emulationStart startOk, .error e)
      | (s₁, .ok ()) =>
        let s₂ := s₁.emulationStart startOk
        if startOk then ({ s₂ with uidRotationCount := s₂.uidRotationCount + 1 }, .ok ())
        else (error { s₂ with state := .stopped, listening := false }, .error .eio)

def shutdown (stopOk : Bool) (s : Life) : Life × Ret :=
  let s₁ := if s.listening then (s.stop stopOk).1 else s
  ({ s₁ with listening := false, state := .uninitialized, registered := false, pendingUid := none },
    .ok ())

end Life

inductive Call
  | init (setup fwi : Bool)
  | registerCallbacks (ops : Bool)
  | start (uid : Option Uid) (paramOk startOk : Bool)
  | stop (stopOk : Bool)
  | setUid (uid : Option Uid) (stopOk paramOk startOk : Bool)
  | shutdown (stopOk : Bool)
deriving DecidableEq

def lifecycle : Machine Life Call Ret where
  step s
    | .init setup fwi => some (s.init setup fwi)
    | .registerCallbacks ops => some (s.registerCallbacks ops)
    | .start uid paramOk startOk => some (s.start uid paramOk startOk)
    | .stop stopOk => some (s.stop stopOk)
    | .setUid uid stopOk paramOk startOk => some (s.setUid uid stopOk paramOk startOk)
    | .shutdown stopOk => some (s.shutdown stopOk)

def Life.Consistent (s : Life) : Prop := s.state = .started ↔ s.emulating = true

instance (s : Life) : Decidable s.Consistent := inferInstanceAs (Decidable (_ ↔ _))

/-- The calls of the library fail in a way that the backend does not take note of: the emulation of
the session is not stopped, or it is not started again with the old UID. -/
def Call.unnoticed (s : Life) : Call → Bool
  | .stop stopOk | .shutdown stopOk => s.listening && !stopOk
  | .setUid (some u) stopOk paramOk startOk =>
    s.listening && uidLenValid u.len && stopOk && !paramOk && !startOk
  | _ => false

structure Life.Inv (s : Life) : Prop where
  state : s.state = .started ↔ s.listening = true
  emulating : s.emulating = s.listening

namespace Life.Inv

variable {s : Life} (h : s.Inv)

include h

theorem consistent : s.Consistent := by
  rw [Consistent, h.state, h.emulating]

theorem init (setup fwi : Bool) : (s.init setup fwi).1.Inv := by
  unfold Life.init
  split
  · exact h
  · next hstate =>
    have hnot : s.state ≠ .started := by
      rintro hst
      simp [hst] at hstate
    have hlisten : s.listening = false := by simpa using mt h.state.mpr hnot
    split
    · exact ⟨by simp, h.emulating.trans hlisten⟩
    · exact ⟨h.state, h.emulating⟩

theorem registerCallbacks (ops : Bool) : (s.registerCallbacks ops).1.Inv := by
  unfold Life.registerCallbacks
  split
  · exact h
  · exact h
  · exact ⟨h.state, h.emulating⟩
  · exact ⟨h.state, h.emulating⟩

theorem startEmulation (startOk : Bool) : (s.startEmulation startOk).1.Inv := by
  cases startOk with
  | true => exact ⟨by simp [Life.startEmulation], rfl⟩
  | false => exact ⟨h.state, h.emulating⟩

theorem start (uid : Option Uid) (paramOk startOk : Bool) :
    (s.start uid paramOk startOk).1.Inv := by
  unfold Life.start
  split
  · exact h
  · split
    · exact h
    · split
      · exact h
      · split
        · exact h.startEmulation startOk
        · next u _ =>
          cases paramOk with
          | true =>
            have hset : Life.Inv { s with pendingUid := some u } := ⟨h.state, h.emulating⟩
            exact hset.startEmulation startOk
          | false => exact ⟨h.state, h.emulating⟩

theorem stop_listening (hlisten : s.listening = true) (stopOk : Bool) :
    (s.stop stopOk).1.listening = false ∧ (s.stop stopOk).1.state = .stopped ∧
      (s.stop stopOk).1.emulating = !stopOk := by
  have hstarted := h.state.mpr hlisten
  have hemu := h.emulating.trans hlisten
  cases stopOk with
  | true => simp [Life.stop, hstarted, hlisten, emulationStop]
  | false => simp [Life.stop, hstarted, hlisten, emulationStop, error, hemu]

omit h

theorem stop_idle (hlisten : s.listening = false) (stopOk : Bool) : (s.stop stopOk).1 = s := by
  simp [Life.stop, hlisten, apply_ite Prod.fst]

theorem stop (h : s.Inv) (stopOk : Bool) :
    ((s.listening && !stopOk) = false → (s.stop stopOk).1.Inv) ∧
      ((s.listening && !stopOk) = true → ¬(s.stop stopOk).1.Consistent) := by
  cases hlisten : s.listening with
  | false =>
    rw [stop_idle hlisten]
    exact ⟨fun _ => h, by simp⟩
  | true =>
    obtain ⟨hno, hstopped, hemu⟩ := h.stop_listening hlisten stopOk
    cases stopOk with
    | true => exact ⟨fun _ => ⟨by simp [hno, hstopped], hemu.trans hno.symm⟩, by simp⟩
    | false => exact ⟨by simp, fun _ => by simp [Consistent, hstopped, hemu]⟩

theorem shutdown (h : s.Inv) (stopOk : Bool) :
    ((s.listening && !stopOk) = false → (s.shutdown stopOk).1.Inv) ∧
      ((s.listening && !stopOk) = true → ¬(s.shutdown stopOk).1.Consistent) := by
  have hemu : (s.shutdown stopOk).1.emulating = (s.listening && !stopOk) := by
    cases hlisten : s.listening with
    | false => simp [Life.shutdown, hlisten, h.emulating]
    | true => simp [Life.shutdown, hlisten, (h.stop_listening hlisten stopOk).2.2]
  refine ⟨?_, ?_⟩
  · intro hnoticed
    exact ⟨by simp [Life.shutdown], hemu.trans hnoticed⟩
  · intro hlost hcons
    have hstarted := hcons.mpr (hemu.trans hlost)
    cases hstarted

theorem setUid_listening (h : s.Inv) (hlisten : s.listening = true) {u : Uid}
    (hu : uidLenValid u.len = true) (stopOk paramOk startOk : Bool) :
    let s' := (s.setUid (some u) stopOk paramOk startOk).1
    s'.emulating = (!stopOk || startOk) ∧ s'.listening = (!stopOk || !paramOk || startOk) ∧
      (s'.state = .started ↔ s'.listening = true) := by
  have hstarted := h.state.mpr hlisten
  have hemu := h.emulating.trans hlisten
  cases stopOk with
  | false => simp [Life.setUid, hu, hstarted, hlisten, hemu, error]
  | true =>
    cases paramOk with
    | false =>
      cases startOk <;>
        simp [Life.setUid, hu, hstarted, hlisten, emulationStop, applyNfcid1, error, emulationStart]
    | true =>
      cases startOk <;>
        simp [Life.setUid, hu, hstarted, hlisten, emulationStop, applyNfcid1, error, emulationStart]

theorem setUid (h : s.Inv) (uid : Option Uid) (stopOk paramOk startOk : Bool) :
    let c := Call.setUid uid stopOk paramOk startOk
    let s' := (s.setUid uid stopOk paramOk startOk).1
    (c.unnoticed s = false → s'.Inv) ∧ (c.unnoticed s = true → ¬s'.Consistent) := by
  cases uid with
  | none => exact ⟨fun _ => h, by simp [Call.unnoticed]⟩
  | some u =>
    cases hu : uidLenValid u.len with
    | false =>
      have hsame : (s.setUid (some u) stopOk paramOk startOk).1 = s := by simp [Life.setUid, hu]
      simp only [hsame, Call.unnoticed, hu]
      exact ⟨fun _ => h, by simp⟩
    | true =>
      cases hlisten : s.listening with
      | false =>
        -- the UID is kept for the next session
        simp only [Life.setUid, hu, Call.unnoticed, hlisten]
        refine ⟨fun _ => ?_, by simp⟩
        simp only [Bool.not_true, Bool.false_eq_true, if_false, Bool.not_false, if_true]
        split
        · exact h
        · exact ⟨by simpa [hlisten] using h.state, h.emulating.trans hlisten⟩
      | true =>
        obtain ⟨hemu, hses, hst⟩ := h.setUid_listening hlisten hu stopOk paramOk startOk
        simp only [Call.unnoticed, hu, hlisten, Bool.true_and]
        refine ⟨?_, ?_⟩
        · intro hnoticed
          refine ⟨hst, hemu.trans (Eq.trans ?_ hses.symm)⟩
          revert hnoticed
          cases stopOk <;> cases paramOk <;> cases startOk <;> decide
        · intro hlost hcons
          rw [Consistent, hst, hemu, hses] at hcons
          revert hlost hcons
          cases stopOk <;> cases paramOk <;> cases startOk <;> decide

end Life.Inv

theorem Life.Inv.step {s : Life} (h : s.Inv) (c : Call) {s' : Life} {r : Ret}
    (hs : lifecycle.step s c = some (s', r)) :
    (c.unnoticed s = false → s'.Inv) ∧ (c.unnoticed s = true → ¬s'.Consistent) := by
  have hkept : ∀ {t : Life × Ret}, some t = some (s', r) → t.1.Inv → s'.Inv := by
    rintro t ht hinv
    obtain rfl := some.inj ht
    exact hinv
  cases c with
  | init setup fwi => exact ⟨fun _ => hkept hs (h.init setup fwi), by simp [Call.unnoticed]⟩
  | registerCallbacks ops =>
    exact ⟨fun _ => hkept hs (h.registerCallbacks ops), by simp [Call.unnoticed]⟩
  | start uid paramOk startOk =>
    exact ⟨fun _ => hkept hs (h.start uid paramOk startOk), by simp [Call.unnoticed]⟩
  | stop stopOk =>
    obtain rfl := congrArg Prod.fst (some.inj hs)
    exact h.stop stopOk
  | setUid uid stopOk paramOk startOk =>
    obtain rfl := congrArg Prod.fst (some.inj hs)
    exact h.setUid uid stopOk paramOk startOk
  | shutdown stopOk =>
    obtain rfl := congrArg Prod.fst (some.inj hs)
    exact h.shutdown stopOk

theorem lifecycle_total : lifecycle.Total := by
  intro s c
  cases c <;> exact ⟨_, rfl⟩

/-- Along every sequence of calls the transport is started if and only if the library is emulating,
exactly if no failure of the library goes unnoticed. -/
theorem lifecycle_consistent_iff (calls : List Call) :
    lifecycle.Always (fun _ _ out => ∀ r ∈ out, r.1.Consistent) .boot calls ↔
      lifecycle.Always (fun s c _ => c.unnoticed s = false) .boot calls := by
  refine lifecycle_total.always_iff_of_fails (I := Life.Inv) ?_ ?_ ⟨by decide, rfl⟩
  · intro s c r hi hs hnoticed
    have hkept := (hi.step c hs).1 hnoticed
    exact ⟨hkept, hkept.consistent⟩
  · intro s c r hi hs hlost
    exact (hi.step c hs).2 hlost

theorem stop_unnoticed : ¬lifecycle.Always (fun _ _ out => ∀ r ∈ out, r.1.Consistent) .boot
      [.init true true, .start none true true, .stop false] := by
  decide

end NfcStack.Hal.Nfct
