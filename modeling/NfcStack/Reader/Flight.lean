import NfcStack.Lib.WorkQueue
import NfcStack.Reader.Registry

/-!
# Jobs of the reader engine

The calls of `reader/nfc_reader_engine.c` that submit a work item set a flag. A scan does not look at the
flag of a clone before, nor a clone at that of a scan.
-/

namespace NfcStack.Reader

open Option

variable {cfg : Config}

inductive Job
  | scan | read | clone
deriving DecidableEq, Repr

structure Engine (cfg : Config) where
  scanBusy : Bool
  readBusy : Bool
  cloneBusy : Bool
  scanTimeout : ℕ
  readTimeout : ℕ
  readTag : Store.TagName
  cloneTag : Store.TagName
  /-- `s_session.active`. -/
  session : Bool
  /-- The store and `s_store_ready`. -/
  stack : Stack.State cfg
  wq : WorkQueue Job

namespace Engine

def boot : Engine cfg := ⟨false, false, false, 0, 0, [], [], false, .boot, .idle⟩

def busy (s : Engine cfg) : Job → Bool
  | .scan => s.scanBusy
  | .read => s.readBusy
  | .clone => s.cloneBusy

def setBusy (s : Engine cfg) (j : Job) (b : Bool) : Engine cfg :=
  match j with
  | .scan => { s with scanBusy := b }
  | .read => { s with readBusy := b }
  | .clone => { s with cloneBusy := b }

/-- The flag is set and the work item is submitted. A new item is refused only by a queue that does
not run; then the flag is cleared again. -/
def submit (s : Engine cfg) (j : Job) (accepted : Bool) : Engine cfg × Ret :=
  let s₁ := s.setBusy j true
  if accepted then ({ s₁ with wq := s₁.wq.submit j }, .ok ())
  else (s₁.setBusy j false, .error .enodev)

variable (s : Engine cfg)

def ensure : Engine cfg := { s with stack := storeEnsure s.stack }

def validTag (cfg : Config) (tag : Option Store.TagName) : Option Store.TagName :=
  tag.filter fun t => 0 < t.length && t.length < cfg.store.maxTagLen

def scanStart (timeout : ℕ) (accepted : Bool) : Engine cfg × Ret :=
  if s.scanBusy || s.readBusy then (s, .error .ebusy)
  else submit { s with scanTimeout := timeout } .scan accepted

variable (tag : Option Store.TagName)

def readStart (timeout : ℕ) (accepted : Bool) : Engine cfg × Ret :=
  let s₁ := s.ensure
  match validTag cfg tag with
  | none => (s₁, .error .einval)
  | some t =>
    if s₁.readBusy || s₁.scanBusy || s₁.cloneBusy then (s₁, .error .ebusy)
    else submit { s₁ with readTag := t, readTimeout := timeout } .read accepted

def cloneStart (accepted : Bool) : Engine cfg × Ret :=
  let s₁ := s.ensure
  match validTag cfg tag with
  | none => (s₁, .error .einval)
  | some t =>
    if s₁.cloneBusy || s₁.readBusy then (s₁, .error .ebusy)
    else if !s₁.session then (s₁, .error .enodev)
    else submit { s₁ with cloneTag := t } .clone accepted

def begin : Engine cfg :=
  match s.wq.start with
  | none => s
  | some (_, wq) => { s with wq }

def complete (session : Bool) (store : Store.State cfg.store) : Engine cfg :=
  match s.wq.running with
  | none => s
  | some j =>
    setBusy { s with session, stack.store := store, wq := s.wq.finish } j false

end Engine

inductive FlightEvent (cfg : Config)
  | scanStart (timeout : ℕ) (accepted : Bool)
  | readStart (tag : Option Store.TagName) (timeout : ℕ) (accepted : Bool)
  | cloneStart (tag : Option Store.TagName) (accepted : Bool)
  | sessionEnd
  | begin
  | complete (session : Bool) (store : Store.State cfg.store)

def flight (cfg : Config) : Machine (Engine cfg) (FlightEvent cfg) Ret where
  step s
    | .scanStart timeout accepted => some (s.scanStart timeout accepted)
    | .readStart tag timeout accepted => some (s.readStart tag timeout accepted)
    | .cloneStart tag accepted => some (s.cloneStart tag accepted)
    | .sessionEnd => some ({ s with session := false }, .ok ())
    | .begin => some (s.begin, .ok ())
    | .complete session store => some (s.complete session store, .ok ())

variable (s : Engine cfg)

def Engine.inFlight : List Job := s.wq.running.toList ++ s.wq.queue

def FlightEvent.collides : FlightEvent cfg → Bool
  | .scanStart .. => !s.inFlight.isEmpty
  | .readStart tag .. => !s.inFlight.isEmpty && (Engine.validTag cfg tag).isSome
  | .cloneStart tag _ => !s.inFlight.isEmpty && (Engine.validTag cfg tag).isSome && s.session
  | .sessionEnd | .begin | .complete .. => false

def SingleFlight (e : FlightEvent cfg) (out : Option (Engine cfg × Ret)) : Prop :=
  ∀ r ∈ out, r.1.inFlight.length ≤ 1 ∧
    (e.collides s = true → r.2 = .error .ebusy ∧ r.1 = s)

def FlightEvent.slips (e : FlightEvent cfg) : Bool :=
  e.collides s &&
    match e with
    | .scanStart .. => s.cloneBusy
    | .readStart .. => !s.stack.readerStoreReady
    | .cloneStart .. => s.scanBusy || !s.stack.readerStoreReady
    | .sessionEnd | .begin | .complete .. => false

structure Engine.Inv (s : Engine cfg) : Prop where
  busy : ∀ j, s.busy j = true ↔ j ∈ s.inFlight
  single : s.inFlight.length ≤ 1

namespace Engine

variable {s s' : Engine cfg}

theorem busy_setBusy (s : Engine cfg) (j k : Job) (b : Bool) :
    (s.setBusy j b).busy k = if k = j then b else s.busy k := by
  cases j <;> cases k <;> rfl

theorem inFlight_setBusy (s : Engine cfg) (j : Job) (b : Bool) :
    (s.setBusy j b).inFlight = s.inFlight := by
  cases j <;> rfl

theorem Inv.of_same (h : s.Inv) (hbusy : ∀ j, s'.busy j = s.busy j)
    (hflight : s'.inFlight = s.inFlight) : s'.Inv := by
  refine ⟨?_, ?_⟩
  · intro j
    rw [hbusy, hflight]
    exact h.busy j
  · rw [hflight]
    exact h.single

theorem Inv.ensure (h : s.Inv) : s.ensure.Inv := h.of_same (fun j => by cases j <;> rfl) rfl

theorem inv_boot : (boot : Engine cfg).Inv := by
  refine ⟨?_, Nat.zero_le _⟩
  intro j
  cases j <;> simp [boot, busy, inFlight, WorkQueue.idle]

theorem Inv.cases (h : s.Inv) : s.inFlight = [] ∨ ∃ j, s.inFlight = [j] := by
  match hf : s.inFlight, h.single with
  | [], _ => exact .inl rfl
  | [j], _ => exact .inr ⟨j, rfl⟩

theorem Inv.busy_eq (h : s.Inv) (j : Job) : s.busy j = decide (j ∈ s.inFlight) := by
  rw [Bool.eq_iff_iff, h.busy j, decide_eq_true_iff]

theorem Inv.submit (h : s.Inv) (hfree : s.inFlight = []) (j : Job) (accepted : Bool) :
    (s.submit j accepted).1.Inv := by
  obtain ⟨hrun, hqueue⟩ : s.wq.running = none ∧ s.wq.queue = [] := by simpa [inFlight] using hfree
  have hbusy : ∀ k, s.busy k = false := by
    simp [h.busy_eq, hfree]
  cases accepted with
  | false =>
    refine h.of_same ?_ ?_
    · intro k
      simp [Engine.submit, busy_setBusy, hbusy]
    · simp [Engine.submit, inFlight_setBusy]
  | true =>
    have hflight : (s.submit j true).1.inFlight = [j] := by
      cases j <;>
        simp [Engine.submit, setBusy, inFlight, hrun, WorkQueue.queue_submit_of_notMem, hqueue]
    refine ⟨?_, by simp [hflight]⟩
    intro k
    have hset : (s.submit j true).1.busy k = (s.setBusy j true).busy k := by cases k <;> rfl
    rw [hset, busy_setBusy]
    split
    · simp [*]
    · simp [*]

theorem submit_ne_ebusy (s : Engine cfg) (j : Job) (accepted : Bool) :
    (s.submit j accepted).2 ≠ .error .ebusy := by
  cases accepted <;> simp [Engine.submit]

theorem ensure_ne (h : s.stack.readerStoreReady = false) : s.ensure ≠ s := by
  intro heq
  have hready := congrArg (fun s => s.stack.readerStoreReady) heq
  simp [ensure, storeEnsure, h] at hready

theorem ensure_of_ready (h : s.stack.readerStoreReady = true) : s.ensure = s := by
  simp [ensure, storeEnsure, h]

structure Guards (s : Engine cfg) (e : FlightEvent cfg) (r : Engine cfg × Ret) : Prop where
  kept : e.slips s = false → r.1.Inv ∧ (e.collides s = true → r.2 = .error .ebusy ∧ r.1 = s)
  broken : e.slips s = true → ¬(r.2 = .error .ebusy ∧ r.1 = s)

variable {e : FlightEvent cfg} {r : Engine cfg × Ret}

theorem collides_of_free (hfree : s.inFlight = []) (e : FlightEvent cfg) :
    e.collides s = false := by
  cases e <;> simp [FlightEvent.collides, hfree]

theorem Guards.of_not_collides (hcollides : e.collides s = false) (hinv : r.1.Inv) : Guards s e r :=
  ⟨fun _ => ⟨hinv, by simp [hcollides]⟩, by simp [FlightEvent.slips, hcollides]⟩

theorem Guards.of_refused (h : s.Inv) (hslips : e.slips s = !s.stack.readerStoreReady) :
    Guards s e (s.ensure, .error .ebusy) := by
  cases hready : s.stack.readerStoreReady with
  | false => exact ⟨by simp [hslips, hready], fun _ hsame => ensure_ne hready hsame.2⟩
  | true =>
    refine ⟨fun _ => ⟨h.ensure, fun _ => ⟨rfl, ensure_of_ready hready⟩⟩, ?_⟩
    simp [hslips, hready]

theorem Guards.of_slips (hslips : e.slips s = true) (hr : r.2 ≠ .error .ebusy) : Guards s e r :=
  ⟨by simp [hslips], fun _ hsame => hr hsame.1⟩

variable (h : s.Inv)

include h

theorem Inv.guards_scanStart (timeout : ℕ) (accepted : Bool) :
    Guards s (.scanStart timeout accepted) (s.scanStart timeout accepted) := by
  have hscan : s.scanBusy = _ := h.busy_eq .scan
  have hread : s.readBusy = _ := h.busy_eq .read
  have hclone : s.cloneBusy = _ := h.busy_eq .clone
  unfold Engine.scanStart
  rcases h.cases with hfree | ⟨j, hj⟩
  · rw [if_neg (by simp [hscan, hread, hfree])]
    have hset : Engine.Inv { s with scanTimeout := timeout } :=
      h.of_same (fun j => by cases j <;> rfl) rfl
    exact .of_not_collides (collides_of_free hfree _) (hset.submit hfree .scan accepted)
  · cases j with
    | scan | read =>
      rw [if_pos (by simp [hscan, hread, hj])]
      exact ⟨fun _ => ⟨h, fun _ => ⟨rfl, rfl⟩⟩, by simp [FlightEvent.slips, hclone, hj]⟩
    | clone =>
      -- its flag is not looked at
      rw [if_neg (by simp [hscan, hread, hj])]
      exact .of_slips (by simp [FlightEvent.slips, FlightEvent.collides, hclone, hj])
        (submit_ne_ebusy _ _ _)

variable (tag : Option Store.TagName)

theorem Inv.guards_readStart (timeout : ℕ) (accepted : Bool) :
    Guards s (.readStart tag timeout accepted) (s.readStart tag timeout accepted) := by
  have hscan : s.ensure.scanBusy = _ := h.busy_eq .scan
  have hread : s.ensure.readBusy = _ := h.busy_eq .read
  have hclone : s.ensure.cloneBusy = _ := h.busy_eq .clone
  unfold Engine.readStart
  cases htag : validTag cfg tag with
  | none => exact .of_not_collides (by simp [FlightEvent.collides, htag]) h.ensure
  | some t =>
    simp only
    rcases h.cases with hfree | ⟨j, hj⟩
    · rw [if_neg (by simp [hscan, hread, hclone, hfree])]
      have hset : Engine.Inv { s.ensure with readTag := t, readTimeout := timeout } :=
        h.of_same (fun j => by cases j <;> rfl) rfl
      exact .of_not_collides (collides_of_free hfree _) (hset.submit hfree .read accepted)
    · rw [if_pos (by cases j <;> simp [hscan, hread, hclone, hj])]
      exact .of_refused h (by simp [FlightEvent.slips, FlightEvent.collides, hj, htag])

theorem Inv.guards_cloneStart (accepted : Bool) :
    Guards s (.cloneStart tag accepted) (s.cloneStart tag accepted) := by
  have hscan : s.scanBusy = _ := h.busy_eq .scan
  have hread : s.ensure.readBusy = _ := h.busy_eq .read
  have hclone : s.ensure.cloneBusy = _ := h.busy_eq .clone
  have hsession : s.ensure.session = s.session := rfl
  unfold Engine.cloneStart
  cases htag : validTag cfg tag with
  | none => exact .of_not_collides (by simp [FlightEvent.collides, htag]) h.ensure
  | some t =>
    simp only
    cases hactive : s.session with
    | false =>
      -- without a session there is nothing to clone from
      refine .of_not_collides (by simp [FlightEvent.collides, hactive]) ?_
      split
      · exact h.ensure
      · rw [if_pos (by simp [hsession, hactive])]
        exact h.ensure
    | true =>
      have hset : Engine.Inv { s.ensure with cloneTag := t } :=
        h.of_same (fun j => by cases j <;> rfl) rfl
      rcases h.cases with hfree | ⟨j, hj⟩
      · rw [if_neg (by simp [hread, hclone, hfree]), if_neg (by simp [hsession, hactive])]
        exact .of_not_collides (collides_of_free hfree _) (hset.submit hfree .clone accepted)
      · cases j with
        | read | clone =>
          rw [if_pos (by simp [hread, hclone, hj])]
          exact .of_refused h
            (by simp [FlightEvent.slips, FlightEvent.collides, hj, htag, hactive, hscan])
        | scan =>
          rw [if_neg (by simp [hread, hclone, hj]), if_neg (by simp [hsession, hactive])]
          exact .of_slips
            (by simp [FlightEvent.slips, FlightEvent.collides, hj, htag, hactive, hscan])
            (submit_ne_ebusy _ _ _)

theorem Inv.begin : s.begin.Inv := by
  unfold Engine.begin
  cases hstart : s.wq.start with
  | none => exact h
  | some r =>
    have hflight : Engine.inFlight { s with wq := r.2 } = s.inFlight := by
      obtain ⟨hrun, hqueue, hrun'⟩ := WorkQueue.start_eq_some hstart
      simp [inFlight, hrun, hqueue, hrun']
    exact h.of_same (fun j => by cases j <;> rfl) hflight

theorem Inv.complete (session : Bool) (store : Store.State cfg.store) :
    (s.complete session store).Inv := by
  unfold Engine.complete
  cases hrun : s.wq.running with
  | none => exact h
  | some j =>
    -- the job that ends was the only one
    have hqueue : s.wq.queue = [] := by
      simpa [inFlight, hrun] using h.single
    have hflight : s.inFlight = [j] := by simp [inFlight, hrun, hqueue]
    obtain ⟨s₁, hs₁⟩ : ∃ s₁ : Engine cfg,
        s₁ = { s with session, stack.store := store, wq := s.wq.finish } := ⟨_, rfl⟩
    have hbusy₁ (k : Job) : s₁.busy k = decide (k = j) := by
      have hk : s.busy k = decide (k = j) := by simp [h.busy_eq, hflight]
      rw [← hk, hs₁]
      cases k <;> rfl
    have hflight₁ : s₁.inFlight = [] := by
      rw [hs₁]
      exact hqueue
    simp only [← hs₁]
    refine ⟨?_, by simp [inFlight_setBusy, hflight₁]⟩
    simp [busy_setBusy, inFlight_setBusy, hflight₁, hbusy₁]

theorem Inv.guards (hstep : (flight cfg).step s e = some r) : Guards s e r := by
  cases e with
  | scanStart timeout accepted =>
    obtain rfl := some.inj hstep
    exact h.guards_scanStart timeout accepted
  | readStart tag timeout accepted =>
    obtain rfl := some.inj hstep
    exact h.guards_readStart tag timeout accepted
  | cloneStart tag accepted =>
    obtain rfl := some.inj hstep
    exact h.guards_cloneStart tag accepted
  | sessionEnd =>
    obtain rfl := some.inj hstep
    exact .of_not_collides rfl (h.of_same (fun j => by cases j <;> rfl) rfl)
  | begin =>
    obtain rfl := some.inj hstep
    exact .of_not_collides rfl h.begin
  | complete session store =>
    obtain rfl := some.inj hstep
    exact .of_not_collides rfl (h.complete session store)

omit h

end Engine

theorem flight_total : (flight cfg).Total := by
  intro s e
  cases e <;> exact ⟨_, rfl⟩

/-- The engine runs one job at a time, and refuses what would break this without a trace, exactly in
the runs in which no scan is started during a clone, no clone during a scan, and no read or clone
during another job before the store is set up. -/
theorem singleFlight_iff (es : List (FlightEvent cfg)) :
    (flight cfg).Always SingleFlight .boot es ↔
      (flight cfg).Always (fun s e _ => e.slips s = false) .boot es := by
  refine flight_total.always_iff_of_fails (I := Engine.Inv) ?_ ?_ Engine.inv_boot
  · intro s e r h hstep hslips
    obtain ⟨hinv, hrefused⟩ := (h.guards hstep).kept hslips
    exact ⟨hinv, hinv.single, hrefused⟩
  · intro s e r h hstep hslips hsingle
    have hcollides : e.collides s = true := (Bool.and_eq_true_iff.mp hslips).1
    exact (h.guards hstep).broken hslips (hsingle.2 hcollides)

theorem scan_and_clone : ∃ s os, (flight .default).run .boot
        [.scanStart 0 true, .begin, .complete true .boot, .scanStart 0 true,
          .cloneStart (some [1]) true] = some (s, os) ∧
      os = [.ok (), .ok (), .ok (), .ok (), .ok ()] ∧ s.inFlight = [.scan, .clone] :=
  ⟨_, _, rfl, rfl, rfl⟩

end NfcStack.Reader
