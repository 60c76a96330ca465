import NfcStack.Applets.Emulate
import NfcStack.Applets.Verify
import NfcStack.Reader.Completeness

/-!
# The loop applet

`applets/nfc_applet_loop.c`: a tag is read into a slot, the slot is emulated and checked. The results
of the read stage are dropped.
-/

namespace NfcStack.Applets

open Option Reader Stack

variable {cfg : Config} {τ : Type}

/-- What the read stage meets: the busy flags, the work queue, the discovery of a tag, and whether
the wait for the work item ends first. -/
structure ReadStage (cfg : Config) (τ : Type) where
  busy : Bool
  submit : Ret
  discover : Ret
  session : Session τ
  pollers : OtherPollers cfg τ
  timedOut : Bool

structure VerifyStage (τ : Type) where
  busy : Bool
  submit : Ret
  stopRet : Ret
  discover : Ret
  session : Option (Session τ)
  timedOut : Bool

def wait (timedOut : Bool) : Ret :=
  if timedOut then .error .etimedout else .ok ()

def submitWork (cfg : Store.Config) (busy : Bool) (submit : Ret) (slot : Store.TagName) : Ret :=
  if slot.length = 0 ∨ cfg.maxTagLen ≤ slot.length then .error .einval
  else if busy then .error .ebusy
  else submit

def readStart (stage : ReadStage cfg τ) (st : State cfg) (slot : Store.TagName) : State cfg × Ret :=
  (storeEnsure st, submitWork cfg.store stage.busy stage.submit slot)

def verifyStart (cfg : Config) (stage : VerifyStage τ) (slot : Store.TagName) : Ret :=
  submitWork cfg.store stage.busy stage.submit slot

variable (crc : Bytes → UInt16)

/-- `read_work_handler` of `reader/nfc_reader_engine.c`. -/
def readWork (residue : ℕ → UInt8) (stage : ReadStage cfg τ)
    (st : State cfg) (slot : Store.TagName) : Poll τ (State cfg) :=
  match stage.discover with
  | .error _ => return st
  | .ok () => do
    let r ← pollersRun stage.session stage.pollers crc residue st slot
    return r.1

inductive LoopStage
  | read | emulate | verify | done
deriving DecidableEq, Repr

structure LoopResult where
  failedStage : LoopStage
  verifyResult : Ret
deriving DecidableEq

structure LoopOutcome (cfg : Config) where
  state : State cfg
  ret : Ret
  out : Option LoopResult
  log : List (String × Ret)

/-- A return before the result of the check is known: the stage in the record and the one in the log
are written apart from each other. -/
def loopFail (st : State cfg) (failedStage : LoopStage) (stage : String) (e : Errno)
    (log : List (String × Ret)) : LoopOutcome cfg where
  state := st
  ret := .error e
  out := some ⟨failedStage, .error .einprogress⟩
  log := log ++ [(stage, .error e)]

/-- The end of `nfc_applet_loop_run`, from the check on. -/
def loopVerify (verify : VerifyStage τ) (st : State cfg)
    (slot : Store.TagName) (log : List (String × Ret)) : Poll τ (LoopOutcome cfg) :=
  let log := log ++ [("verify", .ok ())]
  match verifyStart cfg verify slot with
  | .error e => return loopFail st .verify "verify" e log
  | .ok () =>
    match wait verify.timedOut with
    | .error e => return loopFail st .verify "verify" e log
    | .ok () => do
      -- the result of the check is the only one that a work item leaves behind
      let r ← verifyWork crc verify.stopRet verify.discover verify.session st slot
      return {
        state := r.1
        ret := r.2
        out := some ⟨.done, r.2⟩
        log := if r.2 = .ok () then log else log ++ [("verify", r.2)] }

def loopEmulate (transport : Transport) (verify : VerifyStage τ) (st : State cfg)
    (slot : Store.TagName) (log : List (String × Ret)) : Poll τ (LoopOutcome cfg) :=
  let log := log ++ [("emulate", .ok ())]
  match emulate crc transport st slot with
  | none => Poll.undefined
  | some (st, .error e) => return loopFail st .emulate "emulate" e log
  | some (st, .ok ()) => loopVerify crc verify st slot log

def loopRun (residue : ℕ → UInt8) (read : ReadStage cfg τ)
    (transport : Transport) (verify : VerifyStage τ) (st : State cfg)
    (slot : Option Store.TagName) (out : Option LoopResult) : Poll τ (LoopOutcome cfg) :=
  match slot, out with
  | some slot, some _ =>
    let log := [("read", .ok ())]
    let start := readStart read { st with store := (Store.init st.store).1 } slot
    match start.2 with
    | .error e => return loopFail start.1 .read "read" e log
    | .ok () =>
      match wait read.timedOut with
      | .error e => return loopFail start.1 .read "read" e log
      | .ok () => do
        -- the busy flag is clear, whatever has come of the work
        let st ← readWork crc residue read start.1 slot
        loopEmulate crc transport verify st slot log
  | _, _ => return ⟨st, .error .einval, out, []⟩

variable {verify : VerifyStage τ} {crc : Bytes → UInt16} {r : LoopOutcome cfg} {st : State cfg}
  {log : List (String × Ret)} {slot : Store.TagName} {t t' : τ}

section

variable (hret : r.ret = .ok ())
include hret

theorem loopVerify_ok (h : loopVerify crc verify st slot log t = some (r, t')) :
    verifyWork crc verify.stopRet verify.discover verify.session st slot t =
      some ((r.state, .ok ()), t') := by
  unfold loopVerify at h
  cases hstart : verifyStart cfg verify slot with
  | error e =>
    simp only [hstart] at h
    cases h
    cases hret
  | ok _ =>
    cases hwait : wait verify.timedOut with
    | error e =>
      simp only [hstart, hwait] at h
      cases h
      cases hret
    | ok _ =>
      simp only [hstart, hwait] at h
      obtain ⟨⟨st', ret⟩, t₁, hwork, h⟩ := Poll.bind_eq_some h
      cases h
      cases hret
      exact hwork

variable {transport : Transport}

theorem loopEmulate_ok (h : loopEmulate crc transport verify st slot log t = some (r, t')) :
    ∃ st₁, emulate crc transport st slot = some (st₁, .ok ()) ∧
      verifyWork crc verify.stopRet verify.discover verify.session st₁ slot t =
        some ((r.state, .ok ()), t') := by
  unfold loopEmulate at h
  cases hemulate : emulate crc transport st slot with
  | none =>
    simp only [hemulate] at h
    cases h
  | some r₁ =>
    obtain ⟨st₁, ret⟩ := r₁
    simp only [hemulate] at h
    cases ret with
    | error e =>
      cases h
      cases hret
    | ok _ => exact ⟨st₁, rfl, loopVerify_ok hret h⟩

end

def atRead (st : State cfg) : State cfg :=
  storeEnsure { st with store := (Store.init st.store).1 }

/-- The read stage has discovered a tag, a poller has read its card, and the clone of this card has
returned 0 and has stored it in the slot. -/
def ReadStored (crc : Bytes → UInt16) (residue : ℕ → UInt8) (read : ReadStage cfg τ)
    (st : State cfg) (tag : Store.TagName) (t : τ) : Prop :=
  read.discover = .ok () ∧ ∃ model st₁ t₁,
    pollersRead read.session read.pollers t = some (.ok model, t₁) ∧
    pollersRun read.session read.pollers crc residue st tag t = some ((st₁, .ok ()), t₁) ∧
    StoresCard crc st₁ tag model

def ReadSucceeds (read : ReadStage cfg τ) (st : State cfg) (tag : Store.TagName) (t : τ) : Prop :=
  read.discover = .ok () ∧ ∃ model t₁,
    pollersRead read.session read.pollers t = some (.ok model, t₁) ∧ Storable st tag model

theorem readStored_iff (crc : Bytes → UInt16) (residue : ℕ → UInt8) (read : ReadStage cfg τ)
    (st : State cfg) (tag : Store.TagName) (t : τ) :
    ReadStored crc residue read st tag t ↔ ReadSucceeds read st tag t := by
  have hcap : ∀ {model : CardModel cfg} {t₁ : τ},
      pollersRead read.session read.pollers t = some (.ok model, t₁) →
        ∀ data, model = .ndef data → data.Captured := by
    intro model t₁ hread
    obtain ⟨p, t₂, -, hpoll⟩ := pollersRead_cases _ _ hread
    exact (pollerRead_spec _ _ hpoll).2
  constructor
  · rintro ⟨hdiscover, model, st₁, t₁, hread, hrun, hcard⟩
    have hclone := (pollersRun_of_read _ _ crc residue st st₁ tag hread).mp hrun
    exact ⟨hdiscover, model, t₁, hread,
      (cloneModel_storable_iff crc residue (hcap hread)).mp ⟨st₁, hclone, hcard⟩⟩
  · rintro ⟨hdiscover, model, t₁, hread, hready⟩
    obtain ⟨st₁, hclone, hcard⟩ :=
      (cloneModel_storable_iff crc residue (hcap hread)).mpr hready
    exact ⟨hdiscover, model, st₁, t₁, hread,
      (pollersRun_of_read _ _ crc residue st st₁ tag hread).mpr hclone, hcard⟩

/-- A call that returns 0 has stored the tag of its read stage in the slot exactly if there was a
tag, a poller has read it and the device was ready to store its card. Whatever came of the read
stage, the slot was emulated and has passed the check. -/
theorem loopRun_sound_iff (crc : Bytes → UInt16) (residue : ℕ → UInt8) {read : ReadStage cfg τ}
    {transport : Transport} {verify : VerifyStage τ} {st : State cfg}
    {slot : Option Store.TagName} {out : Option LoopResult} {r : LoopOutcome cfg} {t t' : τ}
    (h : loopRun crc residue read transport verify st slot out t = some (r, t'))
    (hret : r.ret = .ok ()) :
    ∃ tag st₁ t₁ st₂, slot = some tag ∧
      readWork crc residue read (atRead st) tag t = some (st₁, t₁) ∧
      emulate crc transport st₁ tag = some (st₂, .ok ()) ∧
      verifyWork crc verify.stopRet verify.discover verify.session st₂ tag t₁ =
        some ((r.state, .ok ()), t') ∧
      (ReadStored crc residue read (atRead st) tag t ↔ ReadSucceeds read (atRead st) tag t) := by
  unfold loopRun at h
  split at h
  next tag _ =>
    simp only [readStart] at h
    cases hstart : submitWork cfg.store read.busy read.submit tag with
    | error e =>
      simp only [hstart] at h
      cases h
      cases hret
    | ok _ =>
      cases hwait : wait read.timedOut with
      | error e =>
        simp only [hstart, hwait] at h
        cases h
        cases hret
      | ok _ =>
        simp only [hstart, hwait] at h
        obtain ⟨st₁, t₁, hwork, h⟩ := Poll.bind_eq_some h
        obtain ⟨st₂, hemulate, hverify⟩ := loopEmulate_ok hret h
        exact ⟨tag, st₁, t₁, st₂, rfl, hwork, hemulate, hverify, readStored_iff ..⟩
  · cases h
    cases hret

/-! Loops over one slot, with a tag of one message in front of the reader at the check. -/

def messageRead (discover : Ret) : ReadStage Config.default Unit :=
  ⟨false, .ok (), discover, messageTag 1, pollersOf (messageTag 1), false⟩

def messageVerify : VerifyStage Unit :=
  ⟨false, .ok (), .ok (), .ok (), some (messageTag 1), false⟩

def looped (discover : Ret) (st : State Config.default) :
    Option (LoopOutcome Config.default × Unit) :=
  loopRun Store.crc16Ccitt (fun _ => 0) (messageRead discover) .accepts messageVerify st
    (some cardTag) (some ⟨.read, .ok ()⟩) ()

theorem writable_boot : Store.Writable (atRead (.boot : State Config.default)).store cardTag :=
  ⟨by decide, by decide, by decide, by decide, by decide⟩

theorem loopRun_sound_boot : ∃ r, looped (.ok ()) .boot = some (r, ()) ∧ r.ret = .ok () ∧
      ReadStored Store.crc16Ccitt (fun _ => 0) (messageRead (.ok ())) (atRead .boot) cardTag () := by
  have hret : (looped (.ok ()) .boot).map (·.1.ret) = some (.ok ()) := by decide +kernel
  obtain ⟨⟨r, ⟨⟩⟩, h, hr⟩ := map_eq_some_iff.mp hret
  obtain ⟨tag, -, -, -, hslot, -, -, -, hiff⟩ := loopRun_sound_iff _ _ h hr
  obtain rfl := some.inj hslot
  refine ⟨r, h, hr, hiff.mpr ⟨rfl, ?_⟩⟩
  have hser : (pollersRead (messageTag 1) (pollersOf (messageTag 1)) ()).map (fun r =>
      r.1.toOption.bind (CardModel.serialize Config.default.store.blobSize)) =
        some (some (.ok ([0x01] ++ (Ndef.buildCc .default true).toList ++ [0x00, 0x01, 0xD0]))) := by
    decide +kernel
  have hfirst : (firstMatch (messageTag 1) (pollersOf (messageTag 1)) (registry .default) ()).map Prod.fst =
      some (some .ndef) := by decide +kernel
  obtain ⟨⟨read, ⟨⟩⟩, hread, hbody⟩ := map_eq_some_iff.mp hser
  cases read with
  | error e => cases hbody
  | ok model =>
    obtain ⟨p, ⟨⟩, hmatch, hpoll⟩ := pollersRead_cases _ _ hread
    have hp := (pollerRead_spec _ _ hpoll).1
    rw [hmatch] at hfirst
    cases hfirst
    cases model with
    | ndef data =>
      refine ⟨.ndef data, (), hread, by decide, writable_boot, ⟨_, hbody, ?_⟩, ?_, ?_⟩
      · exact Nat.le_of_ble_eq_true rfl
      · intro hup
        cases hup
      · intro _ _ hup
        cases hup
    | _ => cases hp

theorem loopRun_without_tag : (looped (.error .etimedout) (cardStored .ndef shortMessage)).map
        (fun r => (r.1.ret, r.1.out, r.1.log)) =
      some (.ok (), some ⟨.done, .ok ()⟩,
        [("read", .ok ()), ("emulate", .ok ()), ("verify", .ok ())]) ∧
    ¬ ReadStored Store.crc16Ccitt (fun _ => 0) (messageRead (.error .etimedout))
      (atRead (cardStored .ndef shortMessage)) cardTag () := by
  refine ⟨by decide +kernel, ?_⟩
  rintro ⟨hdiscover, -⟩
  cases hdiscover

end NfcStack.Applets
