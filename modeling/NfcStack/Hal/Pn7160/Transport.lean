import NfcStack.Hal.Transport

/-!
# Sessions of the PN7160 backend

The life cycle of `hal/nfc_transport_pn7160.c`; what the driver answers is an input of each function.
-/

namespace NfcStack.Hal.Pn7160

inductive Session
  | none | poll | listen
deriving DecidableEq, Repr

structure Driver where
  ready : Bool
  connect : Ret
  configureSettings : Ret
  discoveryStart : Ret
  discoveryStop : Ret
  listenStart : Ret
  listenStop : Ret
deriving DecidableEq

def Driver.works : Driver := ⟨true, .ok (), .ok (), .ok (), .ok (), .ok (), .ok ()⟩

/-- The static variables of the backend. The state is started during a session and only then, and
a session has a device. -/
structure Transport where
  /-- `s_dev` is not NULL. -/
  dev : Bool
  state : TransportState
  session : Session
  /-- `s_ops_registered`. -/
  registered : Bool
  started_iff : state = .started ↔ session ≠ .none
  dev_of_session : session ≠ .none → dev = true

namespace Transport

variable {t t' : Transport}

theorem uninitialized_ne_started : TransportState.uninitialized ≠ .started := nofun

theorem initialized_ne_started : TransportState.initialized ≠ .started := nofun

theorem stopped_ne_started : TransportState.stopped ≠ .started := nofun

theorem poll_ne_none : Session.poll ≠ .none := nofun

theorem listen_ne_none : Session.listen ≠ .none := nofun

theorem started_iff_idle {state : TransportState} (h : state ≠ .started) :
    state = .started ↔ Session.none ≠ .none :=
  ⟨fun hs => absurd hs h, fun hs => absurd rfl hs⟩

theorem started_iff_begin {session : Session} (h : session ≠ .none) :
    TransportState.started = .started ↔ session ≠ .none :=
  ⟨fun _ => h, fun _ => rfl⟩

def idle (t : Transport) (state : TransportState) (h : state ≠ .started) : Transport where
  dev := t.dev
  state := state
  session := .none
  registered := t.registered
  started_iff := started_iff_idle h
  dev_of_session hs := absurd rfl hs

def begin (t : Transport) (hdev : t.dev = true) (session : Session) (h : session ≠ .none) :
    Transport where
  dev := t.dev
  state := .started
  session := session
  registered := t.registered
  started_iff := started_iff_begin h
  dev_of_session _ := hdev

def boot : Transport where
  dev := false
  state := .uninitialized
  session := .none
  registered := false
  started_iff := started_iff_idle uninitialized_ne_started
  dev_of_session hs := absurd rfl hs

def init (drv : Driver) (t : Transport) : Transport × Ret :=
  if t.state ≠ .uninitialized ∧ t.state ≠ .stopped then (t, .error .ealready)
  else
    let t₁ : Transport := { t with dev := true, dev_of_session := fun _ => rfl }
    if !drv.ready then (t₁, .error .enodev)
    else
      match drv.connect with
      | .error e => (t₁, .error e)
      | .ok () =>
        match drv.configureSettings with
        | .error e => (t₁, .error e)
        | .ok () => (t₁.idle .initialized initialized_ne_started, .ok ())

def registerCallbacks (ops : Bool) (t : Transport) : Transport × Ret :=
  if t.state = .uninitialized then (t, .error .enodev)
  else if t.state = .started then (t, .error .ebusy)
  else ({ t with registered := ops }, .ok ())

def discoverStart (drv : Driver) (t : Transport) : Transport × Ret :=
  if hdev : t.dev = true ∧ t.state ≠ .uninitialized then
    if t.session ≠ .none then (t, .error .ebusy)
    else
      match drv.discoveryStart with
      | .error e => (t, .error e)
      | .ok () => (t.begin hdev.1 .poll poll_ne_none, .ok ())
  else (t, .error .enodev)

/-- `nfc_transport_discover_stop`. -/
def discoverStop (drv : Driver) (t : Transport) : Transport × Ret :=
  if !t.dev then (t, .error .enodev)
  else if t.session ≠ .poll then (t, .ok ())
  else (t.idle .stopped stopped_ne_started, drv.discoveryStop)

def start (uid : Option Uid) (drv : Driver) (t : Transport) : Transport × Ret :=
  if hdev : t.dev = true ∧ t.state ≠ .uninitialized then
    if t.session ≠ .none then (t, .error .ebusy)
    else if uid.any fun u => !uidLenValid u.len then (t, .error .einval)
    else
      match drv.listenStart with
      | .error e => (t, .error e)
      | .ok () => (t.begin hdev.1 .listen listen_ne_none, .ok ())
  else (t, .error .enodev)

def stop (drv : Driver) (t : Transport) : Transport × Ret :=
  if !t.dev then (t, .error .enodev)
  else if t.session ≠ .listen then (t, .ok ())
  else (t.idle .stopped stopped_ne_started, drv.listenStop)

def shutdown (_ : Transport) : Transport × Ret := (boot, .ok ())

variable (drv : Driver)

theorem session_init (t : Transport) : (t.init drv).1.session = t.session := by
  unfold init
  split
  · rfl
  · next hstate =>
    -- a transport that may be set up has no session
    have hnone : t.session = .none := by
      by_contra hs
      have hstarted := t.started_iff.mpr hs
      simp [hstarted] at hstate
    split
    · rfl
    split
    · rfl
    split
    · rfl
    · exact hnone.symm

theorem init_of_session (h : t.session ≠ .none) : t.init drv = (t, .error .ealready) := by
  simp [init, t.started_iff.mpr h]

variable (ops : Bool)

theorem session_registerCallbacks (t : Transport) :
    (t.registerCallbacks ops).1.session = t.session := by
  unfold registerCallbacks
  split
  · rfl
  split <;> rfl

theorem registerCallbacks_of_session (h : t.session ≠ .none) :
    t.registerCallbacks ops = (t, .error .ebusy) := by
  simp [registerCallbacks, t.started_iff.mpr h]

theorem discoverStart_cases (t : Transport) :
    ((t.discoverStart drv).2 = .ok () ∧ t.session = .none ∧
        (t.discoverStart drv).1.session = .poll) ∨ ∃ e, t.discoverStart drv = (t, .error e) := by
  unfold discoverStart
  split
  · split
    · exact .inr ⟨_, rfl⟩
    · next hnone =>
      split
      · exact .inr ⟨_, rfl⟩
      · exact .inl ⟨rfl, by simpa using hnone, rfl⟩
  · exact .inr ⟨_, rfl⟩

theorem session_discoverStop (t : Transport) : (t.discoverStop drv).1.session ≠ .poll := by
  unfold discoverStop
  split
  · next hdev =>
    intro (hpoll : t.session = .poll)
    simp [t.dev_of_session (by simp [hpoll])] at hdev
  split
  · assumption
  · nofun

theorem session_start (uid : Option Uid) (drv : Driver) (t : Transport) :
    (t.start uid drv).1.session = .poll ↔ t.session = .poll := by
  unfold start
  split
  · split
    · rfl
    · next hnone =>
      have hs : t.session = .none := by simpa using hnone
      split
      · rfl
      split
      · rfl
      · simp [begin, hs]
  · rfl

end Transport

end NfcStack.Hal.Pn7160
