import NfcStack.Applets.Emulate
import NfcStack.Hal.Pn7160.Transport

/-!
# The reader session and the poll session

The engine notes in `s_session.active` that a tag has been found, and the PN7160 backend in its own
`s_session` that it polls. `nfc_stack_init` and `nfc_stack_shutdown` take down the transport without a
word to the engine. A work item is split where it waits for the driver.
-/

namespace NfcStack.Stack

open Option

variable {cfg : Config}

def State.callsTransport (st : State cfg) : Bool :=
  st.phase == .uninitialized && !st.assembler && !st.router.initialized

def State.Down (st : State cfg) : Prop :=
  st.phase = .uninitialized → st.assembler = false ∧ st.router.initialized = false

variable {st : State cfg}

theorem State.Down.callsTransport (h : st.Down)
    (hphase : st.phase = .uninitialized) : st.callsTransport = true := by
  simp [State.callsTransport, hphase, h hphase]

theorem down_unwindListeners (st : State cfg) : (unwindListeners st).Down := fun _ => ⟨rfl, rfl⟩

variable {st' : State cfg} {transport : TransportSetup} {ret : Ret}

theorem initTransport_spec (h : initTransport transport st = some (st', ret)) :
    st'.Down ∧ (ret = .ok () → transport.registerCallbacks = .ok ()) := by
  unfold initTransport at h
  split at h
  · cases h
    exact ⟨fun _ => ⟨rfl, rfl⟩, nofun⟩
  split at h
  · cases h
  simp only at h
  split at h
  · cases h
    exact ⟨down_unwindListeners _, nofun⟩
  next hregister =>
  split at h
  · cases h
    exact ⟨nofun, fun _ => not_not.mp hregister⟩
  · cases h
    exact ⟨down_unwindListeners _, nofun⟩

def storeUp (store : Store.State cfg.store) : Store.State cfg.store :=
  if cfg.storeRam then (Store.ramInit (Store.init store).1).1 else (Store.init store).1

theorem init_eq_initTransport (hphase : st.phase = .uninitialized) (hassembler : st.assembler = false)
    (hrouter : st.router.initialized = false) (transport : TransportSetup) :
    init transport st = initTransport transport
      { st with
        activeTag := []
        assembler := true
        router := ⟨true, [], none⟩
        store := storeUp st.store } := by
  simp [init, hphase, hassembler, Router.init, hrouter, storeUp]

theorem init_spec (hdown : st.Down)
    (hphase : st.phase = .uninitialized) (h : init transport st = some (st', ret)) :
    st'.Down ∧ (ret = .ok () → transport.registerCallbacks = .ok ()) := by
  obtain ⟨hassembler, hrouter⟩ := hdown hphase
  exact initTransport_spec ((init_eq_initTransport hphase hassembler hrouter transport).symm.trans h)

theorem init_of_phase (transport : TransportSetup)
    (hphase : st.phase ≠ .uninitialized) : init transport st = some (st, .error .ealready) :=
  if_pos hphase

theorem State.Down.load {crc : Bytes → UInt16} {tag : Store.TagName}
    (h : st.Down) (hload : load crc st tag = some (st', ret)) : st'.Down := by
  obtain ⟨l, accepted, -, ⟨-, rfl⟩ | ⟨-, -, -, -, -, -, rfl⟩⟩ := load_spec hload
  · exact h
  · exact h

theorem State.Down.start (h : st.Down) (uidValid : Bool) (transport : Ret) :
    (start uidValid transport st).1.Down := by
  unfold Stack.start
  split
  · exact h
  split
  · exact h
  split
  · exact h
  split
  · nofun
  · nofun

end NfcStack.Stack

namespace NfcStack.Reader

open Hal.Pn7160 (Driver Transport)

variable {cfg : Config}

inductive Search
  | scan | read | discover
deriving DecidableEq, Repr

inductive Stage
  /-- Between two work items. -/
  | idle
  /-- In `nfc_transport_discover_wait`. -/
  | waiting (search : Search)
  /-- In `nfc_reader_pollers_run`. -/
  | polling
deriving DecidableEq, Repr

structure Device (cfg : Config) where
  stack : Stack.State cfg
  transport : Transport
  /-- `s_session.active`. -/
  active : Bool
  /-- `s_discover_run`. -/
  discoverRun : Bool
  stage : Stage

namespace Device

def boot : Device cfg := ⟨.boot, .boot, false, false, .idle⟩

variable (drv : Driver) (d : Device cfg)

def sessionEnd : Device cfg :=
  if d.active then { d with transport := (d.transport.discoverStop drv).1, active := false } else d

/-- `nfc_reader_discover_once` until it waits for a tag; if it fails, the work item is over. The
checks of `nfc_transport_discover_wait` pass in the session that has just been started. -/
def discoverOnce (drv : Driver) (search : Search) (d : Device cfg) : Device cfg :=
  let r :=
    if d.transport.state = .uninitialized ∨ d.transport.state = .stopped then d.transport.init drv
    else (d.transport, .ok ())
  if r.2 ≠ .ok () ∧ r.2 ≠ .error .ealready then { d with transport := r.1 }
  else
    match r.1.discoverStart drv with
    | (transport, .error _) => { d with transport }
    | (transport, .ok ()) => { d with transport, stage := .waiting search }

def pollersRun (d : Device cfg) : Device cfg :=
  { d with stage := if d.active then .polling else .idle }

def waited (tag : Ret) (drv : Driver) (search : Search) (d : Device cfg) : Device cfg :=
  match tag with
  | .error _ =>
    { d with transport := (d.transport.discoverStop drv).1, active := false, stage := .idle }
  | .ok () =>
    let d₁ := { d with active := true }
    match search with
    | .scan => { d₁ with stage := .idle }
    | .read => d₁.pollersRun
    | .discover => { d₁.sessionEnd drv with stage := .idle }

def pollersEnd (store : Store.State cfg.store) (listeners : Listeners cfg) (drv : Driver)
    (d : Device cfg) : Device cfg :=
  { d.sessionEnd drv with
    stack := { d.stack with store, listeners }
    stage := .idle }

def discoverStart (refused : Option Errno) (d : Device cfg) : Device cfg × Ret :=
  if d.discoverRun then (d, .error .ebusy)
  else
    match refused with
    | some e => (d, .error e)
    | none => ({ d with discoverRun := true }, .ok ())

def discoverStop : Device cfg × Ret :=
  if !d.discoverRun then (d, .error .ealready)
  else (sessionEnd drv { d with discoverRun := false }, .ok ())

def transportSetup : Stack.TransportSetup where
  init := (d.transport.init drv).2
  registerCallbacks := ((d.transport.init drv).1.registerCallbacks true).2

/-- The transport after `nfc_stack_init` has returned `ret`. If the stack fails behind
`nfc_transport_init` it shuts the transport down. -/
def transportAfterInit (drv : Driver) (ret : Ret) (d : Device cfg) : Transport :=
  let r := d.transport.init drv
  if !d.stack.callsTransport then d.transport
  else if r.2 ≠ .ok () ∧ r.2 ≠ .error .ealready then r.1
  else if ret = .ok () then (r.1.registerCallbacks true).1
  else (r.1.registerCallbacks true).1.shutdown.1

def stackInit : Option (Device cfg × Ret) :=
  (Stack.init (d.transportSetup drv) d.stack).map fun r =>
    ({ d with stack := r.1, transport := d.transportAfterInit drv r.2 }, r.2)

def stackStart : Device cfg × Ret :=
  let (t₁, startRet) := d.transport.start none drv
  let (stack, ret) := Stack.start true startRet d.stack
  let transport :=
    if d.stack.phase = .initialized ∨ d.stack.phase = .stopped then t₁ else d.transport
  ({ d with stack, transport }, ret)

def stackShutdown : Device cfg :=
  if d.stack.phase = .uninitialized then d
  else
    let t₁ := if d.stack.phase = .started then (d.transport.stop drv).1 else d.transport
    { d with stack := Stack.shutdown d.stack, transport := t₁.shutdown.1 }

variable (crc : Bytes → UInt16) (listens : Bool)

def emulateSlot (slot : Store.TagName) (drv : Driver)
    (d : Device cfg) : Option (Device cfg × Ret) :=
  match Store.peekEntryMeta crc (d.stack.phase == .started) d.stack.store slot with
  | .error e => some (d, .error e)
  | .ok (persistId, flags) =>
    match Applets.checkEmulate listens persistId flags with
    | .error e => some (d, .error e)
    | .ok () =>
      match Stack.load crc d.stack slot with
      | none => none
      | some (stack, .error e) => some ({ d with stack }, .error e)
      | some (stack, .ok ()) => some (stackStart drv { d with stack })

def emulate (slot : Option Store.TagName) (drv : Driver)
    (d : Device cfg) : Option (Device cfg × Ret) :=
  match slot with
  | none => some (d, .error .einval)
  | some slot =>
    match (d.sessionEnd drv).stackInit drv with
    | none => none
    | some (d₁, ret) =>
      if ret ≠ .ok () ∧ ret ≠ .error .ealready then some (d₁, ret)
      else
        emulateSlot crc listens slot drv
          { d₁ with stack.store := (Store.init d₁.stack.store).1 }

end Device

inductive SessionEvent (cfg : Config)
  | scan (drv : Driver)
  | read (drv : Driver)
  | clone
  /-- A slice of the continuous discovery. -/
  | discover (drv : Driver)
  | waited (tag : Ret) (drv : Driver)
  | pollersEnd (store : Store.State cfg.store) (listeners : Listeners cfg) (drv : Driver)
  | sessionEnd (drv : Driver)
  | discoverStart (refused : Option Errno)
  | discoverStop (drv : Driver)
  | emulate (slot : Option Store.TagName) (drv : Driver)
  | stackInit (drv : Driver)
  | stackShutdown (drv : Driver)

def sessions (crc : Bytes → UInt16) (listens : Bool) :
    Machine (Device cfg) (SessionEvent cfg) Ret where
  step d
    | .scan drv => if d.stage = .idle then some (d.discoverOnce drv .scan, .ok ()) else none
    | .read drv => if d.stage = .idle then some (d.discoverOnce drv .read, .ok ()) else none
    | .clone => if d.stage = .idle then some (d.pollersRun, .ok ()) else none
    | .discover drv =>
      if d.stage = .idle then
        some (if d.discoverRun then d.discoverOnce drv .discover else d, .ok ())
      else none
    | .waited tag drv =>
      match d.stage with
      | .waiting search => some (d.waited tag drv search, tag)
      | _ => none
    | .pollersEnd store listeners drv =>
      if d.stage = .polling then some (d.pollersEnd store listeners drv, .ok ()) else none
    | .sessionEnd drv => some (d.sessionEnd drv, .ok ())
    | .discoverStart refused => some (d.discoverStart refused)
    | .discoverStop drv => some (d.discoverStop drv)
    | .emulate slot drv => d.emulate crc listens slot drv
    | .stackInit drv => d.stackInit drv
    | .stackShutdown drv => some (d.stackShutdown drv, .ok ())

def Device.Consistent (d : Device cfg) : Prop :=
  d.stage = .idle → (d.active = true ↔ d.transport.session = .poll)

instance (d : Device cfg) : Decidable d.Consistent := inferInstanceAs (Decidable (_ → _))

def SessionEvent.tearsDown (d : Device cfg) : SessionEvent cfg → Bool
  | .stackInit _ => d.stage == .idle && d.active && d.stack.phase == .uninitialized
  | .stackShutdown _ => d.stage == .idle && d.active && d.stack.phase != .uninitialized
  | .waited (.ok ()) _ => d.stage == .waiting .scan && d.transport.session != .poll
  | _ => false

/-- What the two variables have to do with each other at each point of a work item. -/
def Stage.Agrees : Stage → Bool → Prop → Prop
  | .idle, active, polls => active = true ↔ polls
  | .waiting _, active, _ => active = false
  | .polling, active, polls => polls → active = true

variable {polls : Prop}

theorem Stage.agrees_closed (stage : Stage) (h : ¬polls) : stage.Agrees false polls := by
  cases stage with
  | idle => simp [Agrees, h]
  | waiting search => rfl
  | polling => exact fun hp => absurd hp h

theorem Stage.Agrees.not_polls {stage : Stage} (h : stage.Agrees false polls)
    (hstage : ∀ search, stage ≠ .waiting search) : ¬polls := by
  cases stage with
  | idle => simpa [Agrees] using h
  | waiting search => exact absurd rfl (hstage search)
  | polling => exact fun hp => absurd (h hp) Bool.false_ne_true

structure Device.Inv (d : Device cfg) : Prop where
  agrees : d.stage.Agrees d.active (d.transport.session = .poll)
  down : d.stack.Down

namespace Device

variable {d d' : Device cfg} {ret : Ret}

theorem inv_boot : (boot : Device cfg).Inv :=
  ⟨by simp [boot, Stage.Agrees, Transport.boot], fun _ => ⟨rfl, rfl⟩⟩

theorem Inv.consistent (h : d.Inv) : d.Consistent := by
  intro hidle
  have hagrees := h.agrees
  rwa [hidle] at hagrees

theorem active_sessionEnd (drv : Driver) (d : Device cfg) : (d.sessionEnd drv).active = false := by
  unfold sessionEnd
  split
  · rfl
  · simpa using ‹¬d.active = true›

variable (h : d.Inv)

include h

theorem Inv.sessionEnd (drv : Driver) : (d.sessionEnd drv).Inv := by
  unfold Device.sessionEnd
  split
  · exact ⟨Stage.agrees_closed _ (Transport.session_discoverStop drv _), h.down⟩
  · exact h

theorem Inv.sessionEnd_not_polls (hstage : ∀ search, d.stage ≠ .waiting search)
    (drv : Driver) : (d.sessionEnd drv).transport.session ≠ .poll := by
  unfold Device.sessionEnd
  split
  · exact Transport.session_discoverStop drv _
  · next hactive =>
    have hagrees := h.agrees
    rw [Bool.eq_false_iff.mpr hactive] at hagrees
    exact hagrees.not_polls hstage

theorem Inv.discoverOnce (hidle : d.stage = .idle) (drv : Driver) (search : Search) :
    (d.discoverOnce drv search).Inv := by
  obtain ⟨r, hr⟩ : ∃ r, r = (if d.transport.state = .uninitialized ∨ d.transport.state = .stopped
    then d.transport.init drv else (d.transport, .ok ())) := ⟨_, rfl⟩
  have hsession : r.1.session = d.transport.session := by
    rw [hr]
    split
    · exact Transport.session_init drv _
    · rfl
  have hkept : Device.Inv { d with transport := r.1 } := ⟨by simpa [hsession] using h.agrees, h.down⟩
  unfold Device.discoverOnce
  simp only [← hr]
  split
  · exact hkept
  · rcases Transport.discoverStart_cases drv r.1 with ⟨hok, hnone, hpoll⟩ | ⟨e, he⟩
    · -- there was no session, so the reader session is not active during the wait
      have hactive : d.active = false := by
        have hagrees := h.consistent hidle
        rw [← hsession, hnone] at hagrees
        simpa using hagrees
      have hstart : r.1.discoverStart drv = ((r.1.discoverStart drv).1, .ok ()) := Prod.ext rfl hok
      rw [hstart]
      exact ⟨hactive, h.down⟩
    · rw [he]
      exact hkept

theorem Inv.pollersRun (hstage : ∀ search, d.stage ≠ .waiting search) : d.pollersRun.Inv := by
  refine ⟨?_, h.down⟩
  unfold Device.pollersRun
  cases hactive : d.active with
  | false =>
    have hagrees := h.agrees
    rw [hactive] at hagrees
    simp [Stage.Agrees, hagrees.not_polls hstage]
  | true => exact fun _ => rfl

theorem Inv.pollersEnd (hstage : d.stage = .polling) (store : Store.State cfg.store)
    (listeners : Listeners cfg) (drv : Driver) : (d.pollersEnd store listeners drv).Inv := by
  have hclosed := h.sessionEnd_not_polls (by simp [hstage]) drv
  refine ⟨?_, h.down⟩
  have hactive := active_sessionEnd drv d
  simp only [Device.pollersEnd, hactive]
  exact Stage.agrees_closed _ hclosed

theorem Inv.discoverStart (refused : Option Errno) : (d.discoverStart refused).1.Inv := by
  unfold Device.discoverStart
  split
  · exact h
  split
  · exact h
  · exact ⟨h.agrees, h.down⟩

theorem Inv.discoverStop (drv : Driver) : (d.discoverStop drv).1.Inv := by
  unfold Device.discoverStop
  split
  · exact h
  · have hrun : Device.Inv { d with discoverRun := false } := ⟨h.agrees, h.down⟩
    exact hrun.sessionEnd drv

omit h

theorem waited_agrees (d : Device cfg) (tag : Ret) (drv : Driver) (search : Search)
    (h : tag = .ok () → search = .scan → d.transport.session = .poll) :
    (d.waited tag drv search).stage.Agrees (d.waited tag drv search).active
      ((d.waited tag drv search).transport.session = .poll) := by
  cases tag with
  | error e => exact Stage.agrees_closed _ (Transport.session_discoverStop drv _)
  | ok u =>
    cases search with
    | scan => simp [Device.waited, Stage.Agrees, h rfl rfl]
    | read => exact fun _ => rfl
    | discover => exact Stage.agrees_closed _ (Transport.session_discoverStop drv _)

theorem Inv.waited (h : d.Inv) (tag : Ret) (drv : Driver) (search : Search)
    (hscan : tag = .ok () → search = .scan → d.transport.session = .poll) :
    (d.waited tag drv search).Inv := by
  refine ⟨waited_agrees d tag drv search hscan, ?_⟩
  cases tag with
  | error e => exact h.down
  | ok u =>
    cases search with
    | scan | read | discover => exact h.down

variable {drv : Driver}

theorem session_transportAfterInit (hcalls : d.stack.callsTransport = true)
    (hret : ret = .ok () → (d.transportSetup drv).registerCallbacks = .ok ()) :
    (d.transportAfterInit drv ret).session ≠ .poll := by
  simp only [transportAfterInit, hcalls, Bool.not_true, Bool.false_eq_true, if_false]
  by_cases hpoll : d.transport.session = .poll
  · -- the callbacks are refused during a session
    have hsession : d.transport.session ≠ .none := by simp [hpoll]
    rw [transportSetup, Transport.init_of_session drv hsession,
      Transport.registerCallbacks_of_session true hsession] at hret
    have hfail : ret ≠ .ok () := by
      intro hok
      cases hret hok
    rw [Transport.init_of_session drv hsession]
    simp [hfail, Transport.shutdown, Transport.boot]
  · have hinit : (d.transport.init drv).1.session ≠ .poll := by rwa [Transport.session_init]
    split
    · exact hinit
    split
    · rwa [Transport.session_registerCallbacks]
    · simp [Transport.shutdown, Transport.boot]

theorem stackInit_spec (hdown : d.stack.Down) (h : d.stackInit drv = some (d', ret)) :
    d'.active = d.active ∧ d'.stage = d.stage ∧ d'.stack.Down ∧
      (d'.transport.session = .poll ↔
        d.transport.session = .poll ∧ d.stack.phase ≠ .uninitialized) := by
  obtain ⟨⟨stack, ret'⟩, hinit, hd⟩ := Option.map_eq_some_iff.mp h
  obtain ⟨rfl, rfl⟩ := Prod.mk.inj hd
  by_cases hphase : d.stack.phase = .uninitialized
  · obtain ⟨hdown', hret⟩ := Stack.init_spec hdown hphase hinit
    have hclosed := session_transportAfterInit (hdown.callsTransport hphase) hret
    exact ⟨rfl, rfl, hdown', by simp [hclosed, hphase]⟩
  · rw [Stack.init_of_phase _ hphase] at hinit
    obtain ⟨rfl, rfl⟩ := Prod.mk.inj (Option.some.inj hinit)
    have hcalls : d.stack.callsTransport = false := by simp [Stack.State.callsTransport, hphase]
    exact ⟨rfl, rfl, hdown, by simp [transportAfterInit, hcalls, hphase]⟩

theorem Inv.stackInit (h : d.Inv) (hd : d.stackInit drv = some (d', ret))
    (hkept : d.stage = .idle → d.active = true → d.stack.phase ≠ .uninitialized) : d'.Inv := by
  obtain ⟨hactive, hstage, hdown, hpoll⟩ := stackInit_spec h.down hd
  refine ⟨?_, hdown⟩
  have hagrees := h.agrees
  rw [hactive, hstage, hpoll]
  cases hs : d.stage with
  | idle =>
    rw [hs] at hagrees
    exact ⟨fun ha => ⟨hagrees.mp ha, hkept hs ha⟩, fun hp => hagrees.mpr hp.1⟩
  | waiting search =>
    rw [hs] at hagrees
    exact hagrees
  | polling =>
    rw [hs] at hagrees
    exact fun hp => hagrees hp.1

theorem Inv.stackStart (h : d.Inv) (drv : Driver) : (d.stackStart drv).1.Inv := by
  refine ⟨?_, h.down.start _ _⟩
  have hsession : (d.stackStart drv).1.transport.session = .poll ↔ d.transport.session = .poll := by
    simp only [Device.stackStart]
    split
    · exact Transport.session_start none drv _
    · rfl
  rw [hsession]
  exact h.agrees

theorem Inv.stackShutdown (h : d.Inv) (drv : Driver)
    (hkept : d.stage = .idle → d.active = true → d.stack.phase = .uninitialized) :
    (d.stackShutdown drv).Inv := by
  unfold Device.stackShutdown
  split
  · exact h
  · next hphase =>
    refine ⟨?_, ?_⟩
    · have hagrees := h.agrees
      cases hs : d.stage with
      | idle =>
        have hactive : d.active = false := by
          rw [Bool.eq_false_iff]
          exact fun ha => hphase (hkept hs ha)
        simp [Stage.Agrees, hactive, Transport.shutdown, Transport.boot]
      | waiting search => simpa [Stage.Agrees, hs] using hagrees
      | polling => simp [Stage.Agrees, Transport.shutdown, Transport.boot]
    · rw [Stack.shutdown, if_neg hphase]
      exact Stack.down_unwindListeners _

variable {crc : Bytes → UInt16} {listens : Bool}

theorem Inv.emulateSlot {slot : Store.TagName}
    (h : d.Inv) (hd : d.emulateSlot crc listens slot drv = some (d', ret)) : d'.Inv := by
  unfold Device.emulateSlot at hd
  split at hd
  · cases hd
    exact h
  split at hd
  · cases hd
    exact h
  split at hd
  · cases hd
  · next hload =>
    cases hd
    exact ⟨h.agrees, h.down.load hload⟩
  · next stack hload =>
    have hloaded : Device.Inv { d with stack } := ⟨h.agrees, h.down.load hload⟩
    obtain rfl := congrArg Prod.fst (Option.some.inj hd)
    exact hloaded.stackStart drv

theorem Inv.emulate {slot : Option Store.TagName} (h : d.Inv)
    (hd : d.emulate crc listens slot drv = some (d', ret)) : d'.Inv := by
  unfold Device.emulate at hd
  split at hd
  · cases hd
    exact h
  split at hd
  · cases hd
  next d₁ ret₁ hinit =>
  have hinv : d₁.Inv :=
    (h.sessionEnd drv).stackInit hinit fun _ ha => by simp [active_sessionEnd] at ha
  split at hd
  · cases hd
    exact hinv
  · have hstore : Device.Inv { d₁ with stack.store := (Store.init d₁.stack.store).1 } :=
      ⟨hinv.agrees, hinv.down⟩
    exact hstore.emulateSlot hd

variable {e : SessionEvent cfg} (h : d.Inv)
  (hstep : (sessions crc listens).step d e = some (d', ret))

include h hstep

theorem Inv.step (hkept : e.tearsDown d = false) : d'.Inv := by
  cases e with
  | scan drv | read drv =>
    obtain ⟨hidle, hd⟩ := Option.ite_none_right_eq_some.mp hstep
    obtain rfl := congrArg Prod.fst (Option.some.inj hd)
    exact h.discoverOnce hidle drv _
  | clone =>
    obtain ⟨hidle, hd⟩ := Option.ite_none_right_eq_some.mp hstep
    obtain rfl := congrArg Prod.fst (Option.some.inj hd)
    exact h.pollersRun (by simp [hidle])
  | discover drv =>
    obtain ⟨hidle, hd⟩ := Option.ite_none_right_eq_some.mp hstep
    obtain rfl := congrArg Prod.fst (Option.some.inj hd)
    split
    · exact h.discoverOnce hidle drv _
    · exact h
  | waited tag drv =>
    cases hs : d.stage with
    | idle | polling => simp [sessions, hs] at hstep
    | waiting search =>
      simp only [sessions, hs] at hstep
      obtain rfl := congrArg Prod.fst (Option.some.inj hstep)
      refine h.waited tag drv search ?_
      rintro rfl rfl
      simpa [SessionEvent.tearsDown, hs] using hkept
  | pollersEnd store listeners drv =>
    obtain ⟨hstage, hd⟩ := Option.ite_none_right_eq_some.mp hstep
    obtain rfl := congrArg Prod.fst (Option.some.inj hd)
    exact h.pollersEnd hstage store listeners drv
  | sessionEnd drv =>
    obtain rfl := congrArg Prod.fst (Option.some.inj hstep)
    exact h.sessionEnd drv
  | discoverStart refused =>
    obtain rfl := congrArg Prod.fst (Option.some.inj hstep)
    exact h.discoverStart refused
  | discoverStop drv =>
    obtain rfl := congrArg Prod.fst (Option.some.inj hstep)
    exact h.discoverStop drv
  | emulate slot drv => exact h.emulate hstep
  | stackInit drv =>
    refine h.stackInit hstep ?_
    intro hidle hactive
    simpa [SessionEvent.tearsDown, hidle, hactive] using hkept
  | stackShutdown drv =>
    obtain rfl := congrArg Prod.fst (Option.some.inj hstep)
    refine h.stackShutdown drv ?_
    intro hidle hactive
    simpa [SessionEvent.tearsDown, hidle, hactive] using hkept

theorem Inv.not_consistent (hdown : e.tearsDown d = true) : ¬d'.Consistent := by
  cases e with
  | stackInit drv =>
    obtain ⟨⟨hidle, hactive⟩, hphase⟩ : (d.stage = .idle ∧ d.active = true) ∧
        d.stack.phase = .uninitialized := by
      simpa [SessionEvent.tearsDown] using hdown
    obtain ⟨hactive', hstage', -, hpoll⟩ := stackInit_spec h.down hstep
    intro hcons
    have hboth := hpoll.mp ((hcons (hstage'.trans hidle)).mp (hactive'.trans hactive))
    exact hboth.2 hphase
  | stackShutdown drv =>
    obtain ⟨⟨hidle, hactive⟩, hphase⟩ : (d.stage = .idle ∧ d.active = true) ∧
        d.stack.phase ≠ .uninitialized := by
      simpa [SessionEvent.tearsDown] using hdown
    obtain rfl := congrArg Prod.fst (Option.some.inj hstep)
    simp [Consistent, Device.stackShutdown, hphase, hidle, hactive, Transport.shutdown,
      Transport.boot]
  | waited tag drv =>
    cases tag with
    | error e => simp [SessionEvent.tearsDown] at hdown
    | ok u =>
      obtain ⟨hs, hpoll⟩ : d.stage = .waiting .scan ∧ d.transport.session ≠ .poll := by
        simpa [SessionEvent.tearsDown] using hdown
      simp only [sessions, hs] at hstep
      obtain rfl := congrArg Prod.fst (Option.some.inj hstep)
      simp [Consistent, Device.waited, hpoll]
  | scan | read | clone | discover | pollersEnd | sessionEnd | discoverStart | discoverStop
  | emulate => simp [SessionEvent.tearsDown] at hdown

omit h hstep

end Device

/-- Between two work items the reader session is active exactly while the transport polls, in the
runs in which the stack neither sets up nor takes down the transport of a reader session, and no
scan finds its tag on a transport that has been taken down meanwhile. -/
theorem readerSession_iff (crc : Bytes → UInt16) (listens : Bool) (es : List (SessionEvent cfg)) :
    (sessions crc listens).Always (fun _ _ out => ∀ r ∈ out, r.1.Consistent) .boot es ↔
      (sessions crc listens).Always (fun d e out => out.isSome = true → e.tearsDown d = false)
        .boot es := by
  refine Machine.always_iff_of_fails _ (I := Device.Inv) ?_ ?_ Device.inv_boot
  · intro d e r h hstep hkept
    have hinv := h.step hstep hkept
    exact ⟨hinv, hinv.consistent⟩
  · intro d e r h hstep hdown
    exact h.not_consistent hstep hdown

def sessionsAfter (es : List (SessionEvent Config.default)) :
    Option (Stage × Bool × Hal.Pn7160.Session) :=
  ((sessions Store.crc16Ccitt true).run .boot es).map fun r =>
    (r.1.stage, r.1.active, r.1.transport.session)

theorem readerSession_outlives :
    sessionsAfter [.scan .works, .waited (.ok ()) .works, .stackInit .works] =
        some (.idle, true, .none) ∧
      sessionsAfter [.scan .works, .stackInit .works, .waited (.ok ()) .works] =
        some (.idle, true, .none) ∧
      sessionsAfter [.stackInit .works, .scan .works, .waited (.ok ()) .works,
        .stackShutdown .works] = some (.idle, true, .none) := by
  decide +kernel

end NfcStack.Reader
