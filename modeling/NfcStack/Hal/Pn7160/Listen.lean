import NfcStack.Hal.Transport
import NfcStack.Lib.Machine

/-!
# Receiving in a listen session on the PN7160

`listen_recv_work_handler` of `hal/nfc_transport_pn7160.c` and the handler that passes the frames on
run on one work queue: when the loop waits again, the frames accepted before are still in the FIFO.
-/

namespace NfcStack.Hal.Pn7160

open List Option

variable {cfg : Config}

def maxFrame : ℕ := maxResponseLen

structure Frame where
  data : Bytes
  length_le : data.length ≤ maxFrame
deriving DecidableEq

inductive Task
  | recv | apdu
  | other (n : ℕ)
deriving DecidableEq, Repr

inductive Received
  | timeout | error
  | frame (f : Frame)
deriving DecidableEq

structure State (cfg : Config) extends Inbox cfg where
  wq : WorkQueue Task
  /-- `s_session` is `NFC_SESSION_LISTEN`. -/
  listening : Bool
  /-- `s_listen_recv_stop`. -/
  recvStop : Bool
  /-- The receive handler is inside of `pn7160_nci_card_mode_recv`. -/
  waiting : Bool
  errorCount : UInt32
  /-- `s_ops_registered`, and `on_apdu` is not NULL. -/
  consumer : Bool
  assembler : Assembler

def State.starting (assembler : Assembler) : State cfg :=
  { Inbox.empty with
    wq := WorkQueue.idle.submit .recv
    listening := false
    recvStop := false
    waiting := false
    errorCount := 0
    consumer := true
    assembler }

variable {f : Frame}

theorem Frame.length_le_bufSize
    (h : apduFragFits 0 f.data.length cfg.bufSize = true) : f.data.length ≤ cfg.bufSize := by
  have hlen := f.length_le
  have hfit := of_decide_eq_true h
  rwa [Nat.zero_add, Nat.mod_eq_of_lt (by simp [maxFrame, maxResponseLen] at hlen; omega)] at hfit

variable (s : State cfg)

def State.listenOnApduFragment (f : Frame) (alloc : Option (BufId cfg)) :
    Option (State cfg × List (Effect cfg)) :=
  match alloc with
  | none =>
    some ({ s with stats.fragDroppedNoBuffer := s.stats.fragDroppedNoBuffer + 1 }, [])
  | some id =>
    if id ∈ s.used then none
    else if h : apduFragFits 0 f.data.length cfg.bufSize = true then
      some
        ({ s with
            used := insert id s.used
            fifo := s.fifo ++ [⟨id, f.data, Frame.length_le_bufSize h⟩]
            wq := s.wq.submit .apdu
            stats.apduAssembledCount := s.stats.apduAssembledCount + 1
            stats.fragmentRxCount := s.stats.fragmentRxCount + 1 },
          [.alloc id, .requested (.apdu f.data)])
    else
      some
        ({ s with stats.apduOversizedCount := s.stats.apduOversizedCount + 1 },
          [.alloc id, .release id, .wrongLength])

def State.received (r : Received) (alloc : Option (BufId cfg)) :
    Option (State cfg × List (Effect cfg)) :=
  let s₁ := { s with waiting := false }
  match r with
  | .timeout => some (s₁, [])
  | .error => some ({ s₁ with errorCount := s₁.errorCount + 1, wq := s₁.wq.finish }, [])
  | .frame f => s₁.listenOnApduFragment f alloc

def State.apduWork : State cfg × List (Effect cfg) :=
  let (inbox, effects, done) := s.toInbox.turn s.consumer s.assembler
  ({ s with toInbox := inbox, wq := if done then s.wq.finish else s.wq }, effects)

/-- A turn of the thread of the work queue. -/
def State.work : State cfg × List (Effect cfg) :=
  match s.wq.running with
  | none =>
    match s.wq.start with
    | none => (s, [])
    | some (_, wq) => ({ s with wq }, [])
  | some .recv =>
    if s.waiting then (s, [])
    else if !s.recvStop && s.listening then ({ s with waiting := true }, [.waits])
    else ({ s with wq := s.wq.finish }, [])
  | some .apdu => s.apduWork
  | some (.other _) => ({ s with wq := s.wq.finish }, [])

inductive Event (cfg : Config)
  /-- `nfc_transport_start` sets the session. -/
  | listen
  /-- `nfc_transport_stop` sets `s_listen_recv_stop`. -/
  | requestStop
  /-- Another work item is submitted. -/
  | submit (n : ℕ)
  | work
  | received (r : Received) (alloc : Option (BufId cfg))
deriving DecidableEq

def machine (cfg : Config) : Machine (State cfg) (Event cfg) (List (Effect cfg)) where
  step s
    | .listen => some ({ s with listening := true }, [])
    | .requestStop => some ({ s with recvStop := true }, [])
    | .submit n => some ({ s with wq := s.wq.submit (.other n) }, [])
    | .work => some s.work
    | .received r alloc => if s.waiting then s.received r alloc else none

structure Running (s : State cfg) : Prop where
  running : s.wq.running = some .recv
  queue : .recv ∉ s.wq.queue

structure Queued (s : State cfg) : Prop where
  queue : .recv ∈ s.wq.queue
  noApdu : .apdu ∉ s.wq.queue
  running : s.wq.running ≠ some .apdu ∧ s.wq.running ≠ some .recv
  waiting : s.waiting = false

structure Returned (s : State cfg) : Prop where
  queue : .recv ∉ s.wq.queue
  running : s.wq.running ≠ some .recv
  waiting : s.waiting = false

structure Undelivered (os : List (List (Effect cfg))) (s : State cfg) : Prop where
  fifo : s.fifo.map (fun buf => .apdu buf.data) = requested os.flatten
  invoked : invoked os.flatten = []

inductive Inv (os : List (List (Effect cfg))) (s : State cfg) : Prop
  | queued (h : Queued s) (hu : Undelivered os s)
  | running (h : Running s) (hu : Undelivered os s)
  | returned (h : Returned s)

section

variable {s s' : State cfg} {os : List (List (Effect cfg))} {o : List (Effect cfg)}

theorem Undelivered.same (hu : Undelivered os s) (hfifo : s'.fifo = s.fifo)
    (hreq : requested o = []) (hinv : Hal.invoked o = []) : Undelivered (os ++ [o]) s' := by
  refine ⟨?_, ?_⟩
  · rw [hfifo, hu.fifo, flatten_append, flatten_singleton, requested_append, hreq, append_nil]
  · rw [flatten_append, flatten_singleton, invoked_append, hu.invoked, hinv]
    rfl

theorem inv_starting (assembler : Assembler) : Inv [] (State.starting assembler : State cfg) := by
  refine .queued ⟨?_, ?_, ?_, rfl⟩ ⟨rfl, rfl⟩
  · simp [State.starting, WorkQueue.mem_queue_submit]
  · simp [State.starting, WorkQueue.mem_queue_submit, WorkQueue.idle]
  · simp [State.starting, WorkQueue.idle]

theorem Inv.flags (hi : Inv os s) (hwq : s'.wq = s.wq) (hwait : s'.waiting = s.waiting)
    (hfifo : s'.fifo = s.fifo) : Inv (os ++ [[]]) s' := by
  cases hi with
  | queued h hu =>
    exact .queued ⟨hwq ▸ h.queue, hwq ▸ h.noApdu, hwq ▸ h.running, hwait.trans h.waiting⟩
      (hu.same hfifo rfl rfl)
  | running h hu => exact .running ⟨hwq ▸ h.running, hwq ▸ h.queue⟩ (hu.same hfifo rfl rfl)
  | returned h => exact .returned ⟨hwq ▸ h.queue, hwq ▸ h.running, hwait.trans h.waiting⟩

theorem Inv.submit (hi : Inv os s) (n : ℕ) :
    Inv (os ++ [[]]) { s with wq := s.wq.submit (.other n) } := by
  cases hi with
  | queued h hu =>
    refine .queued ⟨?_, ?_, ?_, h.waiting⟩ (hu.same rfl rfl rfl)
    · simp [WorkQueue.mem_queue_submit, h.queue]
    · simp [WorkQueue.mem_queue_submit, h.noApdu]
    · simpa using h.running
  | running h hu =>
    refine .running ⟨?_, ?_⟩ (hu.same rfl rfl rfl)
    · simpa using h.running
    · simp [WorkQueue.mem_queue_submit, h.queue]
  | returned h =>
    refine .returned ⟨?_, ?_, h.waiting⟩
    · simp [WorkQueue.mem_queue_submit, h.queue]
    · simpa using h.running

variable {alloc : Option (BufId cfg)}

theorem inv_listenOnApduFragment (h : Running s) (hu : Undelivered os s)
    (hs : s.listenOnApduFragment f alloc = some (s', o)) : Inv (os ++ [o]) s' := by
  unfold State.listenOnApduFragment at hs
  split at hs
  · obtain ⟨rfl, rfl⟩ := Prod.mk.inj (some.inj hs)
    exact .running ⟨h.running, h.queue⟩ (hu.same rfl rfl rfl)
  · split at hs
    · cases hs
    · split at hs
      · obtain ⟨rfl, rfl⟩ := Prod.mk.inj (some.inj hs)
        refine .running ⟨?_, ?_⟩ ⟨?_, ?_⟩
        · simpa using h.running
        · simp [WorkQueue.mem_queue_submit, h.queue]
        · simp [hu.fifo, requested]
        · rw [flatten_append, invoked_append, hu.invoked]
          rfl
      · obtain ⟨rfl, rfl⟩ := Prod.mk.inj (some.inj hs)
        exact .running ⟨h.running, h.queue⟩ (hu.same rfl rfl rfl)

variable {r : Received}

theorem Inv.received (hi : Inv os s) (hwait : s.waiting = true)
    (hs : s.received r alloc = some (s', o)) : Inv (os ++ [o]) s' := by
  cases hi with
  | queued h => exact absurd (h.waiting.symm.trans hwait) (by decide)
  | returned h => exact absurd (h.waiting.symm.trans hwait) (by decide)
  | running h hu =>
    cases r with
    | timeout =>
      obtain ⟨rfl, rfl⟩ := Prod.mk.inj (some.inj hs)
      exact .running ⟨h.running, h.queue⟩ (hu.same rfl rfl rfl)
    | error =>
      obtain ⟨rfl, rfl⟩ := Prod.mk.inj (some.inj hs)
      exact .returned ⟨h.queue, by simp [WorkQueue.finish], rfl⟩
    | frame f =>
      exact inv_listenOnApduFragment (s := { s with waiting := false }) ⟨h.running, h.queue⟩
        ⟨hu.fifo, hu.invoked⟩ hs

theorem Queued.work (h : Queued s) (hu : Undelivered os s) : Inv (os ++ [s.work.2]) s.work.1 := by
  unfold State.work
  split
  · split
    · exact .queued h (hu.same rfl rfl rfl)
    · next t wq hstart =>
      obtain ⟨-, hqueue, hrun⟩ := WorkQueue.start_eq_some hstart
      have hnodup := s.wq.nodup
      have hrecv := h.queue
      have hapdu := h.noApdu
      rw [hqueue] at hnodup hrecv hapdu
      cases t with
      | recv =>
        exact .running ⟨hrun, (nodup_cons.mp hnodup).1⟩ (hu.same rfl rfl rfl)
      | apdu => exact absurd mem_cons_self hapdu
      | other n =>
        refine .queued ⟨?_, ?_, ?_, h.waiting⟩ (hu.same rfl rfl rfl)
        · simpa using hrecv
        · simpa using hapdu
        · simp [hrun]
  · next hrun => exact absurd hrun h.running.2
  · next hrun => exact absurd hrun h.running.1
  · exact .queued ⟨h.queue, h.noApdu, by simp [WorkQueue.finish], h.waiting⟩ (hu.same rfl rfl rfl)

theorem Running.work (h : Running s) (hu : Undelivered os s) : Inv (os ++ [s.work.2]) s.work.1 := by
  unfold State.work
  simp only [h.running]
  split
  · exact .running h (hu.same rfl rfl rfl)
  · next hwait =>
    split
    · exact .running ⟨h.running, h.queue⟩ (hu.same rfl rfl rfl)
    · exact .returned ⟨h.queue, by simp [WorkQueue.finish], by simpa using hwait⟩

theorem Returned.work (h : Returned s) : Returned s.work.1 := by
  unfold State.work
  split
  · split
    · exact h
    · next t wq hstart =>
      obtain ⟨-, hqueue, hrun⟩ := WorkQueue.start_eq_some hstart
      have hrecv := h.queue
      rw [hqueue] at hrecv
      refine ⟨fun hmem => hrecv (mem_cons_of_mem t hmem), ?_, h.waiting⟩
      rw [hrun]
      rintro ⟨rfl⟩
      exact hrecv mem_cons_self
  · next hrun => exact absurd hrun h.running
  · -- the handler that passes the frames on returns, or goes on
    unfold State.apduWork
    obtain ⟨inbox, effects, _ | _⟩ := s.toInbox.turn s.consumer s.assembler
    · exact ⟨h.queue, h.running, h.waiting⟩
    · exact ⟨h.queue, by simp [WorkQueue.finish], h.waiting⟩
  · exact ⟨h.queue, by simp [WorkQueue.finish], h.waiting⟩

variable {e : Event cfg}

theorem Inv.step (hi : Inv os s) (hs : (machine cfg).step s e = some (s', o)) :
    Inv (os ++ [o]) s' := by
  cases e with
  | listen | requestStop =>
    obtain ⟨rfl, rfl⟩ := Prod.mk.inj (some.inj hs)
    exact hi.flags rfl rfl rfl
  | submit n =>
    obtain ⟨rfl, rfl⟩ := Prod.mk.inj (some.inj hs)
    exact hi.submit n
  | work =>
    obtain ⟨rfl, rfl⟩ := Prod.mk.inj (some.inj hs)
    cases hi with
    | queued h hu => exact h.work hu
    | running h hu => exact h.work hu
    | returned h => exact .returned h.work
  | received r alloc =>
    simp only [machine] at hs
    split at hs
    · next hwait => exact hi.received hwait hs
    · cases hs

theorem inv_run {assembler : Assembler} {es : List (Event cfg)}
    (h : (machine cfg).run (.starting assembler) es = some (s, os)) : Inv os s :=
  Machine.run_induction _ (P := fun _ os s => Inv os s) (inv_starting assembler)
    (fun _ _ _ _ _ _ _ hi hs => hi.step hs) h

theorem waits_notMem_onApduHandler (a : Assembler) (buf : Buf cfg) :
    .waits ∉ onApduHandler a buf := by
  unfold onApduHandler
  split
  · simp
  · split
    · simp
    · simp

theorem waits_notMem_turn (consumer : Bool) (a : Assembler) (b : Inbox cfg) :
    .waits ∉ (b.turn consumer a).2.1 := by
  unfold Inbox.turn
  split
  · exact waits_notMem_onApduHandler _ _
  · simp
  · split
    · simp
    · simp

theorem running_of_waits_work (hw : .waits ∈ s.work.2) : s.wq.running = some .recv := by
  unfold State.work at hw
  split at hw
  · split at hw <;> cases hw
  · next hrun => exact hrun
  · exact absurd hw (waits_notMem_turn s.consumer s.assembler s.toInbox)
  · cases hw

theorem waits_notMem_received (hs : s.received r alloc = some (s', o)) : .waits ∉ o := by
  cases r with
  | timeout | error =>
    obtain ⟨-, rfl⟩ := Prod.mk.inj (some.inj hs)
    simp
  | frame f =>
    simp only [State.received, State.listenOnApduFragment] at hs
    split at hs
    · obtain ⟨-, rfl⟩ := Prod.mk.inj (some.inj hs)
      simp
    · split at hs
      · cases hs
      · split at hs
        · obtain ⟨-, rfl⟩ := Prod.mk.inj (some.inj hs)
          simp
        · obtain ⟨-, rfl⟩ := Prod.mk.inj (some.inj hs)
          simp

theorem running_of_waits (hs : (machine cfg).step s e = some (s', o))
    (hw : .waits ∈ o) : s.wq.running = some .recv := by
  cases e with
  | listen | requestStop | submit =>
    obtain ⟨rfl, rfl⟩ := Prod.mk.inj (some.inj hs)
    cases hw
  | work =>
    obtain ⟨-, rfl⟩ := Prod.mk.inj (some.inj hs)
    exact running_of_waits_work hw
  | received r alloc =>
    simp only [machine] at hs
    split at hs
    · exact absurd hw (waits_notMem_received hs)
    · cases hs

end

/-- Whenever the receive handler waits for a frame, the frames that it has accepted before have been
passed on exactly if there are none: no schedule lets the handler that passes them on run in
between. -/
theorem waits_delivered_iff (assembler : Assembler) {es : List (Event cfg)}
    {os : List (List (Effect cfg))} {s s' : State cfg} {e : Event cfg} {o : List (Effect cfg)}
    (h : (machine cfg).run (.starting assembler) es = some (s, os))
    (hs : (machine cfg).step s e = some (s', o)) (hw : .waits ∈ o) :
    (∀ c ∈ requested os.flatten, c ∈ invoked os.flatten) ↔ requested os.flatten = [] := by
  have hrun := running_of_waits hs hw
  cases inv_run h with
  | queued hq => exact absurd hrun hq.running.2
  | returned hr => exact absurd hrun hr.running
  | running hr hu =>
    rw [hu.invoked, eq_nil_iff_forall_not_mem]
    simp

theorem selectFrame_length : ([0x00, 0xA4, 0x04, 0x00] : Bytes).length ≤ maxFrame := by decide

def selectFrame : Frame := ⟨[0x00, 0xA4, 0x04, 0x00], selectFrame_length⟩

theorem run_firstWait : ∃ s os s' o,
    (machine .default).run (.starting ⟨true, false⟩) [.listen, .work] = some (s, os) ∧
      (machine .default).step s .work = some (s', o) ∧ .waits ∈ o ∧ requested os.flatten = [] :=
  ⟨_, _, _, _, rfl, rfl, by decide, rfl⟩

theorem waits_delivered_firstWait : ∃ s os s' o,
    (machine .default).run (.starting ⟨true, false⟩) [.listen, .work] = some (s, os) ∧
      (machine .default).step s .work = some (s', o) ∧ .waits ∈ o ∧
      ∀ c ∈ requested os.flatten, c ∈ invoked os.flatten := by
  obtain ⟨s, os, s', o, hrun, hstep, hwaits, hreq⟩ := run_firstWait
  exact ⟨s, os, s', o, hrun, hstep, hwaits, (waits_delivered_iff _ hrun hstep hwaits).mpr hreq⟩

theorem waits_undelivered : ∃ s os s' o, (machine .default).run (.starting ⟨true, false⟩)
        [.listen, .work, .work, .received (.frame selectFrame) (some firstBuf)] = some (s, os) ∧
      (machine .default).step s .work = some (s', o) ∧ .waits ∈ o ∧
      requested os.flatten = [.apdu selectFrame.data] ∧ invoked os.flatten = [] :=
  ⟨_, _, _, _, rfl, rfl, by decide, rfl, rfl⟩

end NfcStack.Hal.Pn7160
