import NfcStack.Hal.Transport
import NfcStack.Lib.Machine

/-!
# The NFCT backend

The receive path of `hal/nfc_transport_nrfx.c` as a machine whose events are the interrupts of the
T4T library, the turns of the work queue and the steps of a call of `nfc_transport_stop`. The queue
and the call are two threads, so each of their steps is an event of its own.
-/

namespace NfcStack.Hal.Nfct

open Option

variable {cfg : Config}

structure Assembly (cfg : Config) where
  cur : Option (Buf cfg)
  drop : AsmDrop
deriving DecidableEq, Repr

def Assembly.clear : Assembly cfg := ⟨none, .ok⟩

variable (a : Assembly cfg)

def Assembly.takes : Bool := a.cur.isNone && a.drop == .ok

def Assembly.take (alloc : Option (BufId cfg)) : Assembly cfg :=
  if a.takes then
    match alloc with
    | none => { a with drop := .nobuf }
    | some id => { a with cur := some (.empty id) }
  else a

def Assembly.add (frag : Fragment cfg) : Assembly cfg × Option (BufId cfg) :=
  match a.drop, a.cur with
  | .ok, some buf =>
    if h : apduAsmOnFrag .ok buf.data.length frag.data.length cfg.bufSize = .oversize then
      (⟨none, .oversize⟩, some buf.id)
    else ({ a with cur := some (buf.add frag h) }, none)
  | _, _ => (a, none)

structure FragResult (cfg : Config) where
  asm : Assembly cfg
  /-- The buffer that was taken from the pool. -/
  taken : Option (BufId cfg)
  /-- The buffer that was given back. -/
  released : Option (BufId cfg)
  enqueueBuf : Option (Buf cfg)
  sendWrongLength : Bool
  droppedNobuf : Bool
  oversized : Bool
  assembled : Bool

def onFragment (frag : Fragment cfg) (alloc : Option (BufId cfg)) :
    FragResult cfg :=
  let (a₂, released) := (a.take alloc).add frag
  let r : FragResult cfg :=
    { asm := a₂
      taken := if a.takes then alloc else none
      released
      enqueueBuf := none
      sendWrongLength := false
      droppedNobuf := a.takes && alloc.isNone
      oversized := released.isSome
      assembled := false }
  if frag.more then r
  else
    match a₂.drop with
    | .ok =>
      { r with asm := ⟨none, .ok⟩, enqueueBuf := a₂.cur, assembled := a₂.cur.isSome }
    | .oversize =>
      { r with asm := { a₂ with drop := .ok }, sendWrongLength := true, oversized := true }
    | .nobuf => { r with asm := { a₂ with drop := .ok } }

def statsOnFragment (droppedNobuf oversized assembled : Bool) (st : Stats) : Stats :=
  { st with
    fragDroppedNoBuffer := st.fragDroppedNoBuffer + if droppedNobuf then 1 else 0
    apduOversizedCount := st.apduOversizedCount + if oversized then 1 else 0
    apduAssembledCount := st.apduAssembledCount + if assembled then 1 else 0
    fragmentRxCount := st.fragmentRxCount + 1 }

inductive Task
  | fieldOn | fieldOff | apdu
deriving DecidableEq, Repr

inductive StopStep
  | cancel (t : Task)
  | drain
deriving DecidableEq, Repr

structure State (cfg : Config) extends Inbox cfg where
  asm : Assembly cfg
  wq : WorkQueue Task
  /-- `s_session` is `NFC_SESSION_LISTEN`. -/
  listening : Bool
  /-- The call of `nfc_transport_stop` in progress. -/
  stopping : Option StopStep
  /-- `s_ops_registered`, and the callback of the work item is not NULL. -/
  consumer : Task → Bool
  assembler : Assembler

def State.initialized (consumer : Task → Bool) (assembler : Assembler) : State cfg :=
  { Inbox.empty with
    asm := .clear
    wq := .idle
    listening := false
    stopping := none
    consumer
    assembler }

variable (s : State cfg)

def State.emulating : Bool := s.listening && s.stopping.isNone

def State.unref (id : Option (BufId cfg)) : State cfg × List (Effect cfg) :=
  match id with
  | none => (s, [])
  | some id => ({ s with used := s.used.erase id }, [.release id])

def State.discardCurBuf : State cfg × List (Effect cfg) :=
  State.unref { s with asm := .clear } (s.asm.cur.map Buf.id)

/-- The effect of submitting a work item whose handler calls `c`: only an item that does not wait
already leads to a call of its own. -/
def request (wq : WorkQueue Task) (t : Task) (c : Callback) : List (Effect cfg) :=
  if t ∈ wq.queue then [] else [.requested c]

def State.onField (t : Task) (c : Callback) (count : Stats → Stats) (s : State cfg) :
    State cfg × List (Effect cfg) :=
  let (s₁, effects) := s.discardCurBuf
  ({ s₁ with stats := count s₁.stats, wq := s₁.wq.submit t }, effects ++ request s₁.wq t c)

def State.onFieldOn : State cfg × List (Effect cfg) :=
  s.onField .fieldOn .fieldOn fun st => { st with fieldOnCount := st.fieldOnCount + 1 }

def State.onFieldOff : State cfg × List (Effect cfg) :=
  s.onField .fieldOff .fieldOff fun st => { st with fieldOffCount := st.fieldOffCount + 1 }

def State.afterFragment (r : FragResult cfg) : State cfg × List (Effect cfg) :=
  let s₁ := { s with
    stats := statsOnFragment r.droppedNobuf r.oversized r.assembled s.stats }
  match r.enqueueBuf with
  | some buf =>
    ({ s₁ with fifo := s₁.fifo ++ [buf], wq := s₁.wq.submit .apdu }, [.requested (.apdu buf.data)])
  | none => (s₁, if r.sendWrongLength then [.wrongLength] else [])

/-- `nfc_hal_on_fragment`; the pool does not hand out a buffer that is in use. -/
def State.onFragment (frag : Fragment cfg) (alloc : Option (BufId cfg)) :
    Option (State cfg × List (Effect cfg)) :=
  let r := Nfct.onFragment s.asm frag alloc
  if r.taken.any (· ∈ s.used) then none
  else
    let s₁ := { s with asm := r.asm, used := s.used ∪ r.taken.toFinset }
    let (s₂, given) := s₁.unref r.released
    let (s₃, answer) := s₂.afterFragment r
    some (s₃, r.taken.toList.map .alloc ++ given ++ answer)

def Task.callback : Task → List Callback
  | .fieldOn => [.fieldOn]
  | .fieldOff => [.fieldOff]
  | .apdu => []

/-- A turn of the thread of the work queue: it starts the next item, or the handler of the current
one goes on. -/
def State.work : State cfg × List (Effect cfg) :=
  match s.wq.running with
  | none =>
    match s.wq.start with
    | none => (s, [])
    | some (t, wq) =>
      ({ s with wq }, if s.consumer t then t.callback.map .invoked else [])
  | some .apdu =>
    let (inbox, effects, done) := s.toInbox.turn (s.consumer .apdu) s.assembler
    ({ s with toInbox := inbox, wq := if done then s.wq.finish else s.wq }, effects)
  | some .fieldOn | some .fieldOff => ({ s with wq := s.wq.finish }, [])

def State.start : State cfg :=
  if s.listening then s else { s with listening := true }

def State.stop : State cfg × List (Effect cfg) :=
  if s.listening then
    let (s₁, effects) := s.discardCurBuf
    ({ s₁ with stopping := some (.cancel .fieldOn) }, effects)
  else (s, [])

def StopStep.next : Task → StopStep
  | .fieldOn => .cancel .fieldOff
  | .fieldOff => .cancel .apdu
  | .apdu => .drain

/-- The progress of a call of `nfc_transport_stop`. `k_work_cancel_sync` takes an item out of the
queue and waits for its handler. -/
def State.stopTurn : State cfg × List (Effect cfg) :=
  match s.stopping with
  | none => (s, [])
  | some (.cancel t) =>
    ({ s with
        wq := s.wq.cancel t
        stopping := if s.wq.running = some t then s.stopping else some (.next t) }, [])
  | some .drain =>
    match s.fifo with
    | [] => ({ s with listening := false, stopping := none }, [])
    | buf :: rest => State.unref { s with fifo := rest } (some buf.id)

inductive Event (cfg : Config)
  | fieldOn | fieldOff
  | dataInd (frag : Fragment cfg) (alloc : Option (BufId cfg))
  | work
  | start | stop | stopTurn
deriving DecidableEq, Repr

def Event.isInterrupt : Event cfg → Bool
  | .fieldOn | .fieldOff | .dataInd .. => true
  | _ => false

def machine (cfg : Config) : Machine (State cfg) (Event cfg) (List (Effect cfg)) where
  step s e :=
    if e.isInterrupt && !s.emulating then none
    else
      match e with
      | .fieldOn => some s.onFieldOn
      | .fieldOff => some s.onFieldOff
      | .dataInd frag alloc => s.onFragment frag alloc
      | .work => some s.work
      | .start => some (s.start, [])
      | .stop => if s.stopping.isSome then none else some s.stop
      | .stopTurn => some s.stopTurn

section

variable {s s' : State cfg} {o : List (Effect cfg)}

theorem emulating_of_step {e : Event cfg} (he : e.isInterrupt)
    (h : (machine cfg).step s e = some (s', o)) : s.emulating := by
  cases hemu : s.emulating with
  | false => simp [machine, he, hemu] at h
  | true => rfl

theorem step_fieldOn (h : (machine cfg).step s .fieldOn = some (s', o)) : s.onFieldOn =
    (s', o) := by
  simpa [machine, emulating_of_step rfl h] using h

theorem step_fieldOff (h : (machine cfg).step s .fieldOff = some (s', o)) :
    s.onFieldOff = (s', o) := by
  simpa [machine, emulating_of_step rfl h] using h

variable {alloc : Option (BufId cfg)} {frag : Fragment cfg}

theorem step_dataInd (h : (machine cfg).step s (.dataInd frag alloc) = some (s', o)) :
    s.onFragment frag alloc = some (s', o) := by
  simpa [machine, emulating_of_step rfl h] using h

theorem step_start (h : (machine cfg).step s .start = some (s', o)) :
    (s' = s ∨ s.listening = false ∧ s' = { s with listening := true }) ∧ o = [] := by
  obtain ⟨rfl, rfl⟩ := Prod.mk.inj (some.inj h)
  rw [State.start]
  cases hlisten : s.listening with
  | true => exact ⟨.inl rfl, rfl⟩
  | false => exact ⟨.inr ⟨rfl, rfl⟩, rfl⟩

theorem State.unref_eq (s : State cfg) (id : Option (BufId cfg)) :
    s.unref id = ({ s with used := s.used \ id.toFinset }, id.toList.map .release) := by
  cases id with
  | none => simp [unref]
  | some id => simp [unref, Finset.sdiff_singleton_eq_erase]

theorem State.discardCurBuf_eq (s : State cfg) :
    s.discardCurBuf =
      ({ s with asm := .clear, used := s.used \ (s.asm.cur.map Buf.id).toFinset },
        (s.asm.cur.map Buf.id).toList.map .release) := by
  rw [discardCurBuf, unref_eq]

theorem step_stop (h : (machine cfg).step s .stop = some (s', o)) :
    (s.listening = false ∧ s' = s ∧ o = []) ∨ (s' = { s with
          asm := .clear
          used := s.used \ (s.asm.cur.map Buf.id).toFinset
          stopping := some (.cancel .fieldOn) } ∧
        o = (s.asm.cur.map Buf.id).toList.map .release) := by
  cases hstop : s.stopping with
  | some p => simp [machine, Event.isInterrupt, hstop] at h
  | none =>
    have hs : s.stop = (s', o) := by simpa [machine, Event.isInterrupt, hstop] using h
    rw [State.stop, State.discardCurBuf_eq] at hs
    split at hs
    · obtain ⟨rfl, rfl⟩ := Prod.mk.inj hs
      exact .inr ⟨rfl, rfl⟩
    · next hnot =>
      obtain ⟨rfl, rfl⟩ := Prod.mk.inj hs
      exact .inl ⟨by simpa using hnot, rfl, rfl⟩

theorem State.onField_eq (s : State cfg) (t : Task) (c : Callback) (count : Stats → Stats) :
    s.onField t c count =
      ({ s with
          asm := .clear
          used := s.used \ (s.asm.cur.map Buf.id).toFinset
          stats := count s.stats
          wq := s.wq.submit t },
        (s.asm.cur.map Buf.id).toList.map .release ++ request s.wq t c) := by
  rw [onField, discardCurBuf_eq]

def FragResult.answer (r : FragResult cfg) : List (Effect cfg) :=
  match r.enqueueBuf with
  | some buf => [.requested (.apdu buf.data)]
  | none => if r.sendWrongLength then [.wrongLength] else []

theorem State.afterFragment_eq (s : State cfg) (r : FragResult cfg) :
    s.afterFragment r =
      ({ s with
          stats := statsOnFragment r.droppedNobuf r.oversized r.assembled s.stats
          fifo := s.fifo ++ r.enqueueBuf.toList
          wq := if r.enqueueBuf.isSome then s.wq.submit .apdu else s.wq }, r.answer) := by
  rw [afterFragment, FragResult.answer]
  cases r.enqueueBuf with
  | none => simp
  | some buf => rfl

theorem State.onFragment_eq_some (h : s.onFragment frag alloc = some (s', o)) :
    let r := Nfct.onFragment s.asm frag alloc
    (∀ id ∈ r.taken, id ∉ s.used) ∧
      s' =
        { s with
          asm := r.asm
          used := (s.used ∪ r.taken.toFinset) \ r.released.toFinset
          stats := statsOnFragment r.droppedNobuf r.oversized r.assembled s.stats
          fifo := s.fifo ++ r.enqueueBuf.toList
          wq := if r.enqueueBuf.isSome then s.wq.submit .apdu else s.wq } ∧
      o = r.taken.toList.map .alloc ++ r.released.toList.map .release ++ r.answer := by
  rw [State.onFragment] at h
  split at h
  · cases h
  · next hfresh =>
    simp only [unref_eq, afterFragment_eq] at h
    obtain ⟨rfl, rfl⟩ := Prod.mk.inj (some.inj h)
    refine ⟨?_, rfl, rfl⟩
    intro id hid hused
    exact hfresh (by rw [show (Nfct.onFragment s.asm frag alloc).taken = some id from hid]; simpa)

end

inductive WorkTurn (s : State cfg) : State cfg → List (Effect cfg) → Prop
  /-- Nothing waits. -/
  | idle (hrun : s.wq.running = none) (hqueue : s.wq.queue = []) : WorkTurn s s []
  /-- The thread takes the next item. -/
  | started {t : Task} {wq : WorkQueue Task} (h : s.wq.start = some (t, wq)) :
    WorkTurn s { s with wq } (if s.consumer t then t.callback.map .invoked else [])
  /-- The handler of a field event returns. -/
  | fieldDone {t : Task} (hrun : s.wq.running = some t) (ht : t ≠ .apdu) :
    WorkTurn s { s with wq := s.wq.finish } []
  /-- The callback for an APDU returns. -/
  | returned {buf : Buf cfg} (hrun : s.wq.running = some .apdu) (hheld : s.held = some buf) :
    WorkTurn s { s with held := none, used := s.used.erase buf.id } (onApduHandler s.assembler buf)
  /-- The next APDU is passed to its callback. -/
  | passed {buf : Buf cfg} {rest : List (Buf cfg)} (hrun : s.wq.running = some .apdu)
    (hheld : s.held = none) (hfifo : s.fifo = buf :: rest) (hconsumer : s.consumer .apdu) :
    WorkTurn s { s with fifo := rest, held := some buf } [.invoked (.apdu buf.data)]
  /-- There is no callback for the next APDU. -/
  | dropped {buf : Buf cfg} {rest : List (Buf cfg)} (hrun : s.wq.running = some .apdu)
    (hheld : s.held = none) (hfifo : s.fifo = buf :: rest) (hconsumer : s.consumer .apdu = false) :
    WorkTurn s
      { s with
        fifo := rest
        used := s.used.erase buf.id
        stats.apduDroppedNoConsumer := s.stats.apduDroppedNoConsumer + 1 }
      [.release buf.id]
  /-- The FIFO is empty. -/
  | apduDone (hrun : s.wq.running = some .apdu) (hheld : s.held = none) (hfifo : s.fifo = []) :
    WorkTurn s { s with wq := s.wq.finish } []

theorem State.work_turn (s : State cfg) : WorkTurn s s.work.1 s.work.2 := by
  unfold State.work
  split
  · next hrun =>
    split
    · next hstart => exact .idle hrun (WorkQueue.queue_eq_nil hrun hstart)
    · next t wq hstart => exact .started hstart
  · next hrun =>
    simp only [Inbox.turn]
    split
    · next buf _ hheld => exact .returned hrun hheld
    · next hheld hfifo => exact .apduDone hrun hheld hfifo
    · next buf rest hheld hfifo =>
      cases hconsumer : s.consumer .apdu with
      | true => exact .passed hrun hheld hfifo hconsumer
      | false => exact .dropped hrun hheld hfifo hconsumer
  · next hrun => exact .fieldDone hrun (by decide)
  · next hrun => exact .fieldDone hrun (by decide)

inductive StopTurn (s : State cfg) : State cfg → List (Effect cfg) → Prop
  | idle (h : s.stopping = none) : StopTurn s s []
  | cancelled {t : Task} {p : StopStep} (h : s.stopping = some (.cancel t)) :
    StopTurn s { s with wq := s.wq.cancel t, stopping := some p } []
  | drained {buf : Buf cfg} {rest : List (Buf cfg)} (h : s.stopping = some .drain)
    (hfifo : s.fifo = buf :: rest) :
    StopTurn s { s with fifo := rest, used := s.used.erase buf.id } [.release buf.id]
  | stopped (h : s.stopping = some .drain) (hfifo : s.fifo = []) :
    StopTurn s { s with listening := false, stopping := none } []

theorem State.stopTurn_turn (s : State cfg) : StopTurn s s.stopTurn.1 s.stopTurn.2 := by
  unfold State.stopTurn
  split
  · next h => exact .idle h
  · next t h =>
    rw [h, ← apply_ite some]
    exact .cancelled h
  · next h =>
    split
    · next hfifo => exact .stopped h hfifo
    · next buf rest hfifo => exact .drained h hfifo

theorem step_work {s s' : State cfg} {o : List (Effect cfg)}
    (h : (machine cfg).step s .work = some (s', o)) : WorkTurn s s' o := by
  obtain ⟨rfl, rfl⟩ := Prod.mk.inj (some.inj h)
  exact s.work_turn

theorem step_stopTurn {s s' : State cfg} {o : List (Effect cfg)}
    (h : (machine cfg).step s .stopTurn = some (s', o)) : StopTurn s s' o := by
  obtain ⟨rfl, rfl⟩ := Prod.mk.inj (some.inj h)
  exact s.stopTurn_turn

end NfcStack.Hal.Nfct
