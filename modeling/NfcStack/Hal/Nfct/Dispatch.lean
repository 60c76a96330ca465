import NfcStack.Hal.Nfct.Ownership

/-!
# The order of the callbacks

A field event queues a work item of its own, an APDU goes to the FIFO that one work item empties as a
whole. So an APDU may overtake a field event.
-/

namespace NfcStack.Hal.Nfct

open List Option

variable {cfg : Config}

def callbacks (fifo : List Bytes) : List Task → List Callback
  | [] => []
  | .apdu :: rest => fifo.map .apdu ++ callbacks [] rest
  | .fieldOn :: rest => .fieldOn :: callbacks fifo rest
  | .fieldOff :: rest => .fieldOff :: callbacks fifo rest

def behindApdu : List Task → List Task
  | [] => []
  | .apdu :: rest => rest
  | .fieldOn :: rest | .fieldOff :: rest => behindApdu rest

def tasks (wq : WorkQueue Task) : List Task :=
  (if wq.running = some .apdu then [.apdu] else []) ++ wq.queue

def State.backlog (s : State cfg) : List Callback := callbacks (s.fifo.map Buf.data) (tasks s.wq)

def State.overtaken (s : State cfg) : List Callback :=
  (behindApdu (tasks s.wq)).flatMap Task.callback

theorem callbacks_nil (tasks : List Task) : callbacks [] tasks = tasks.flatMap Task.callback := by
  induction tasks with
  | nil => rfl
  | cons t tasks ih => cases t <;> simp [callbacks, ih, Task.callback]

theorem callbacks_concat_field (fifo : List Bytes) (tasks : List Task) {t : Task} (ht : t ≠ .apdu) :
    callbacks fifo (tasks ++ [t]) = callbacks fifo tasks ++ t.callback := by
  induction tasks generalizing fifo with
  | nil => cases t <;> first | rfl | exact absurd rfl ht
  | cons u tasks ih => cases u <;> simp [callbacks, ih]

/-- An APDU is added to the end of those before it, hence before the field events behind the item
that empties the FIFO. -/
theorem callbacks_split {tasks : List Task} (h : .apdu ∈ tasks) : ∃ front, ∀ fifo,
    callbacks fifo tasks = front ++ fifo.map .apdu ++ (behindApdu tasks).flatMap Task.callback := by
  induction tasks with
  | nil => cases h
  | cons t tasks ih =>
    cases t with
    | apdu => exact ⟨[], fun fifo => by simp [callbacks, behindApdu, callbacks_nil]⟩
    | fieldOn =>
      obtain ⟨front, hfront⟩ := ih (by simpa using h)
      exact ⟨.fieldOn :: front, fun fifo => by simp [callbacks, behindApdu, hfront]⟩
    | fieldOff =>
      obtain ⟨front, hfront⟩ := ih (by simpa using h)
      exact ⟨.fieldOff :: front, fun fifo => by simp [callbacks, behindApdu, hfront]⟩

theorem behindApdu_of_notMem {tasks : List Task} (h : .apdu ∉ tasks) : behindApdu tasks = [] := by
  induction tasks with
  | nil => rfl
  | cons t tasks ih => cases t <;> simp_all [behindApdu]

theorem callbacks_concat_apdu_of_mem {tasks : List Task} (h : .apdu ∈ tasks) (fifo : List Bytes) :
    callbacks fifo (tasks ++ [.apdu]) = callbacks fifo tasks := by
  induction tasks generalizing fifo with
  | nil => cases h
  | cons t tasks ih =>
    cases t with
    | apdu => simp [callbacks, callbacks_nil, Task.callback]
    | fieldOn => simp [callbacks, ih (by simpa using h)]
    | fieldOff => simp [callbacks, ih (by simpa using h)]

theorem callbacks_concat_apdu_of_notMem {tasks : List Task} (h : .apdu ∉ tasks)
    (fifo : List Bytes) :
    callbacks fifo (tasks ++ [.apdu]) = callbacks [] tasks ++ fifo.map .apdu := by
  induction tasks with
  | nil => simp [callbacks]
  | cons t tasks ih => cases t <;> simp_all [callbacks]

structure Dispatching (s : State cfg) : Prop where
  consumer : ∀ t, s.consumer t = true
  fifo : s.fifo ≠ [] → .apdu ∈ tasks s.wq

inductive Served (s s' : State cfg) (o : List (Effect cfg)) : Prop
  /-- The backlog is worked off. -/
  | work (hreq : requested o = []) (hlog : s.backlog = invoked o ++ s'.backlog)
  /-- A field event. -/
  | field {c : Callback} (hc : c.isApdu = false) (hreq : requested o = [c]) (hinv : invoked o = [])
    (hlog : s'.backlog = s.backlog ++ [c])
  /-- An APDU. -/
  | apdu {data : Bytes} {front : List Callback} (hreq : requested o = [.apdu data])
    (hinv : invoked o = []) (hlog : s.backlog = front ++ s.overtaken)
    (hlog' : s'.backlog = front ++ [.apdu data] ++ s.overtaken)

section

variable {s s' : State cfg} {o : List (Effect cfg)}

theorem tasks_submit {wq : WorkQueue Task} {t : Task} (h : t ∉ wq.queue) :
    tasks (wq.submit t) = tasks wq ++ [t] := by
  rw [tasks, WorkQueue.running_submit, WorkQueue.queue_submit_of_notMem h, tasks, append_assoc]

theorem Dispatching.onField (hd : Dispatching s) {t : Task} {c : Callback} {count : Stats → Stats}
    (h : s.onField t c count = (s', o)) (ht : t ≠ .apdu) (hc : c.isApdu = false)
    (htc : t.callback = [c]) : Dispatching s' ∧ Served s s' o := by
  rw [State.onField_eq] at h
  obtain ⟨rfl, rfl⟩ := Prod.mk.inj h
  by_cases hmem : t ∈ s.wq.queue
  · -- the item waits already
    rw [WorkQueue.submit_of_mem hmem, request, if_pos hmem, append_nil]
    refine ⟨⟨hd.consumer, hd.fifo⟩, .work (requested_release _) ?_⟩
    rw [invoked_release]
    rfl
  · rw [request, if_neg hmem]
    refine ⟨⟨hd.consumer, ?_⟩, .field hc ?_ ?_ ?_⟩
    · intro hfifo
      rw [tasks_submit hmem]
      exact mem_append_left _ (hd.fifo hfifo)
    · rw [requested_append, requested_release]
      rfl
    · rw [invoked_append, invoked_release]
      rfl
    · rw [State.backlog, tasks_submit hmem, callbacks_concat_field _ _ ht, htc]
      rfl

theorem backlog_apdu {wq : WorkQueue Task} {fifo : List Bytes}
    (hfifo : fifo ≠ [] → .apdu ∈ tasks wq) (data : Bytes) : ∃ front,
      callbacks fifo (tasks wq) = front ++ (behindApdu (tasks wq)).flatMap Task.callback ∧
      callbacks (fifo ++ [data]) (tasks (wq.submit .apdu)) =
        front ++ [.apdu data] ++ (behindApdu (tasks wq)).flatMap Task.callback := by
  by_cases hmem : .apdu ∈ tasks wq
  · obtain ⟨front, hfront⟩ := callbacks_split hmem
    refine ⟨front ++ fifo.map .apdu, hfront fifo, ?_⟩
    by_cases hqueue : .apdu ∈ wq.queue
    · simp [WorkQueue.submit_of_mem hqueue, hfront]
    · -- the handler is running, and its item is queued again
      rw [tasks_submit hqueue, callbacks_concat_apdu_of_mem hmem, hfront]
      simp
  · obtain rfl : fifo = [] := by
      by_contra hne
      exact hmem (hfifo hne)
    have hqueue : .apdu ∉ wq.queue := fun h => hmem (mem_append_right _ h)
    refine ⟨callbacks [] (tasks wq), ?_, ?_⟩
    · simp [behindApdu_of_notMem hmem]
    · simp [tasks_submit hqueue, callbacks_concat_apdu_of_notMem hmem, behindApdu_of_notMem hmem]

theorem Dispatching.onFragment (hd : Dispatching s) {frag : Fragment cfg}
    {alloc : Option (BufId cfg)} (h : s.onFragment frag alloc = some (s', o)) :
    Dispatching s' ∧ Served s s' o := by
  obtain ⟨-, rfl, rfl⟩ := State.onFragment_eq_some h
  obtain ⟨r, hr⟩ : ∃ r, r = onFragment s.asm frag alloc := ⟨_, rfl⟩
  rw [← hr]
  have hreq : requested (r.taken.toList.map Effect.alloc ++ r.released.toList.map Effect.release ++
      r.answer) = requested r.answer := by
    rw [requested_append, requested_append, requested_alloc, requested_release]
    rfl
  have hinv : invoked (r.taken.toList.map Effect.alloc ++ r.released.toList.map Effect.release ++
      r.answer) = invoked r.answer := by
    rw [invoked_append, invoked_append, invoked_alloc, invoked_release]
    rfl
  cases hbuf : r.enqueueBuf with
  | none =>
    have hanswer : requested r.answer = [] ∧ invoked r.answer = [] := by
      simp only [FragResult.answer, hbuf]
      split <;> exact ⟨rfl, rfl⟩
    simp only [toList_none, append_nil, isSome_none, Bool.false_eq_true, if_false]
    refine ⟨⟨hd.consumer, hd.fifo⟩, .work (hreq.trans hanswer.1) ?_⟩
    rw [hinv, hanswer.2]
    rfl
  | some buf =>
    have hanswer : requested r.answer = [.apdu buf.data] ∧ invoked r.answer = [] := by
      simp only [FragResult.answer, hbuf]
      exact ⟨rfl, rfl⟩
    have hfifo : s.fifo.map Buf.data ≠ [] → .apdu ∈ tasks s.wq := by
      intro hne
      exact hd.fifo (mt map_eq_nil_iff.mpr hne)
    obtain ⟨front, hlog, hlog'⟩ := backlog_apdu hfifo buf.data
    simp only [toList_some, isSome_some, if_true]
    refine ⟨⟨hd.consumer, ?_⟩, .apdu (hreq.trans hanswer.1) (hinv.trans hanswer.2) hlog ?_⟩
    · intro _
      exact mem_append_right _ ((WorkQueue.mem_queue_submit _ _ _).mpr (.inr rfl))
    · rw [State.backlog, map_append]
      exact hlog'

theorem Dispatching.of_same (hd : Dispatching s) (hconsumer : s'.consumer = s.consumer)
    (hfifo : s'.fifo = s.fifo) (htasks : tasks s'.wq = tasks s.wq) (hreq : requested o = [])
    (hinv : invoked o = []) : Dispatching s' ∧ Served s s' o := by
  refine ⟨⟨?_, ?_⟩, .work hreq ?_⟩
  · rw [hconsumer]
    exact hd.consumer
  · rw [hfifo, htasks]
    exact hd.fifo
  · rw [hinv, State.backlog, State.backlog, hfifo, htasks]
    rfl

theorem callbacks_cons_field (fifo : List Bytes) (rest : List Task) {t : Task} (ht : t ≠ .apdu) :
    callbacks fifo (t :: rest) = t.callback ++ callbacks fifo rest := by
  cases t with
  | apdu => exact absurd rfl ht
  | fieldOn => rfl
  | fieldOff => rfl

theorem Dispatching.started (hd : Dispatching s) {t : Task} {wq : WorkQueue Task}
    (h : s.wq.start = some (t, wq)) :
    Dispatching { s with wq } ∧
      Served s { s with wq } (if s.consumer t then t.callback.map .invoked else []) := by
  obtain ⟨hidle, hqueue, hrun⟩ := WorkQueue.start_eq_some h
  have hbefore : tasks s.wq = t :: wq.queue := by simp [tasks, hidle, hqueue]
  rw [if_pos (hd.consumer t)]
  by_cases ht : t = .apdu
  · subst ht
    exact hd.of_same rfl rfl (by rw [hbefore]; simp [tasks, hrun]) rfl rfl
  · have hafter : tasks wq = wq.queue := by simp [tasks, hrun, ht]
    refine ⟨⟨hd.consumer, ?_⟩, .work ?_ ?_⟩
    · intro hne
      have hmem := hd.fifo hne
      rw [hbefore] at hmem
      simp only [hafter]
      exact (mem_cons.mp hmem).resolve_left (Ne.symm ht)
    · simp [requested]
    · rw [State.backlog, State.backlog, hbefore, hafter, callbacks_cons_field _ _ ht]
      simp [invoked, filterMap_map]

theorem Dispatching.work (hd : Dispatching s) (h : WorkTurn s s' o) :
    Dispatching s' ∧ Served s s' o := by
  cases h with
  | idle => exact hd.of_same rfl rfl rfl rfl rfl
  | started hstart => exact hd.started hstart
  | @fieldDone t hrun ht =>
    exact hd.of_same rfl rfl (by simp [tasks, WorkQueue.finish, hrun, ht]) rfl rfl
  | @returned buf =>
    obtain ⟨hreq, hinv⟩ := callbacks_onApduHandler s.assembler buf
    exact hd.of_same rfl rfl rfl hreq hinv
  | passed hrun hheld hfifo =>
    have htasks : tasks s.wq = .apdu :: s.wq.queue := by simp [tasks, hrun]
    refine ⟨⟨hd.consumer, ?_⟩, .work rfl ?_⟩
    · intro _
      simp [htasks]
    · rw [State.backlog, State.backlog, htasks, hfifo]
      rfl
  | dropped _ _ _ hconsumer => exact absurd (hconsumer.symm.trans (hd.consumer .apdu)) (by decide)
  | apduDone hrun hheld hfifo =>
    refine ⟨⟨hd.consumer, fun hne => absurd hfifo hne⟩, .work rfl ?_⟩
    simp [State.backlog, tasks, WorkQueue.finish, hrun, hfifo, callbacks, invoked]

theorem Dispatching.step (hd : Dispatching s) {e : Event cfg} (he : e.isInterrupt ∨ e = .work)
    (h : (machine cfg).step s e = some (s', o)) : Dispatching s' ∧ Served s s' o := by
  cases e with
  | fieldOn => exact hd.onField (step_fieldOn h) (by decide) rfl rfl
  | fieldOff => exact hd.onField (step_fieldOff h) (by decide) rfl rfl
  | dataInd frag alloc => exact hd.onFragment (step_dataInd h)
  | work => exact hd.work (step_work h)
  | start | stop | stopTurn => simp [Event.isInterrupt] at he

end

def overtakes (s : State cfg) (out : Option (State cfg × List (Effect cfg))) : Bool :=
  match out with
  | none => false
  | some (_, o) => (requested o).any Callback.isApdu && !s.overtaken.isEmpty

theorem isApdu_overtaken {s : State cfg} {c : Callback} (h : c ∈ s.overtaken) :
    c.isApdu = false := by
  obtain ⟨t, -, hc⟩ := mem_flatMap.mp h
  cases t with
  | apdu => cases hc
  | fieldOn =>
    obtain rfl := mem_singleton.mp hc
    rfl
  | fieldOff =>
    obtain rfl := mem_singleton.mp hc
    rfl

/-- The callbacks called so far and those of the backlog, compared with the events so far: the same,
and in the same order as long as no APDU has overtaken a field event. -/
structure InOrder (s₀ : State cfg) (es : List (Event cfg)) (os : List (List (Effect cfg)))
    (s : State cfg) : Prop where
  dispatching : Dispatching s
  order : List.OrderedIff Callback.isApdu
    ((machine cfg).Always (fun s _ out => overtakes s out = false) s₀ es)
    (invoked os.flatten ++ s.backlog) (requested os.flatten)

theorem InOrder.step {s₀ s s' : State cfg} {es : List (Event cfg)} {os : List (List (Effect cfg))}
    {e : Event cfg} {o : List (Effect cfg)} (hi : InOrder s₀ es os s)
    (hrun : (machine cfg).run s₀ es = some (s, os)) (he : e.isInterrupt ∨ e = .work)
    (h : (machine cfg).step s e = some (s', o)) : InOrder s₀ (es ++ [e]) (os ++ [o]) s' := by
  obtain ⟨hd, hserved⟩ := hi.dispatching.step he h
  refine ⟨hd, ?_⟩
  rw [Machine.always_concat_iff _ e hrun, h, flatten_append, flatten_singleton,
    invoked_append, requested_append, append_assoc]
  cases hserved with
  | work hreq hlog =>
    rw [hreq, append_nil, ← hlog]
    refine hi.order.congr ?_
    simp [overtakes, hreq]
  | field hc hreq hinv hlog =>
    rw [hreq, hinv, hlog, nil_append, ← append_assoc]
    refine (hi.order.concat hc).congr ?_
    simp [overtakes, hreq, hc]
  | @apdu data front hreq hinv hlog hlog' =>
    have horder := hi.order
    rw [hlog, ← append_assoc] at horder
    rw [hreq, hinv, hlog', nil_append, ← append_assoc, ← append_assoc]
    refine (horder.insert rfl fun c => isApdu_overtaken).congr ?_
    simp [overtakes, hreq, Callback.isApdu]

theorem inOrder_run {s₀ s : State cfg} (hd : Dispatching s₀) (hlog : s₀.backlog = [])
    {es : List (Event cfg)} (hes : ∀ e ∈ es, e.isInterrupt ∨ e = .work)
    {os : List (List (Effect cfg))} (h : (machine cfg).run s₀ es = some (s, os)) :
    InOrder s₀ es os s := by
  have hrun : (∀ e ∈ es, e.isInterrupt ∨ e = .work) → InOrder s₀ es os s := by
    refine Machine.run_induction (machine cfg)
      (P := fun es os s => (∀ e ∈ es, e.isInterrupt ∨ e = .work) → InOrder s₀ es os s) ?_ ?_ h
    · intro _
      refine ⟨hd, ?_⟩
      rw [hlog]
      exact .nil True.intro
    · intro es os t e u o hrun ih hstep hall
      have hbefore := ih fun e' he' => hall e' (mem_append_left _ he')
      exact hbefore.step hrun (hall e (by simp)) hstep
  exact hrun hes

def State.listen (assembler : Assembler) : State cfg :=
  (State.initialized (fun _ => true) assembler).start

/-- Unless an APDU overtakes a field event, the callbacks are called in the order of the events; when
the work queue has done its work they have been called in this order exactly if none has. -/
theorem callbacks_inOrder_iff (assembler : Assembler) {es : List (Event cfg)}
    (hes : ∀ e ∈ es, e.isInterrupt ∨ e = .work) {os : List (List (Effect cfg))} {s : State cfg}
    (h : (machine cfg).run (.listen assembler) es = some (s, os)) :
    ((machine cfg).Always (fun s _ out => overtakes s out = false) (.listen assembler) es →
      invoked os.flatten <+: requested os.flatten) ∧
    (s.wq = .idle → (invoked os.flatten = requested os.flatten ↔
      (machine cfg).Always (fun s _ out => overtakes s out = false) (.listen assembler) es)) := by
  have horder := (inOrder_run ⟨fun _ => rfl, fun hne => absurd rfl hne⟩ rfl hes h).order
  refine ⟨?_, ?_⟩
  · intro hnone
    exact ⟨s.backlog, horder.eq_of hnone⟩
  · intro hidle
    have hlog : s.backlog = [] := by
      rw [State.backlog, hidle]
      rfl
    rw [hlog, append_nil] at horder
    exact horder.eq_iff

def oneReader : List (Event .default) :=
  [.fieldOn, .work, .work, .dataInd (shortFragment false) (some firstBuf)] ++
    List.replicate 4 .work ++ [.fieldOff, .work, .work]

theorem run_oneReader : ∃ s os,
    (machine .default).run (.listen ⟨true, false⟩) oneReader = some (s, os) ∧ s.wq = .idle ∧
      requested os.flatten = [.fieldOn, .apdu [0x00, 0xA4], .fieldOff] :=
  ⟨_, _, rfl, rfl, rfl⟩

theorem callbacks_inOrder_oneReader : ∃ s os,
    (machine .default).run (.listen ⟨true, false⟩) oneReader = some (s, os) ∧
      requested os.flatten = [.fieldOn, .apdu [0x00, 0xA4], .fieldOff] ∧
      invoked os.flatten = requested os.flatten := by
  obtain ⟨s, os, hrun, hidle, hreq⟩ := run_oneReader
  have hiff := (callbacks_inOrder_iff ⟨true, false⟩ (by decide) hrun).2 hidle
  exact ⟨s, os, hrun, hreq, hiff.mpr (by decide)⟩

theorem one_lt_poolCount : 1 < Config.default.poolCount := by decide

def twoReaders : List (Event .default) :=
  [.dataInd (shortFragment false) (some firstBuf), .fieldOff,
    .dataInd (shortFragment false) (some ⟨1, one_lt_poolCount⟩)] ++ List.replicate 8 .work

theorem twoReaders_outOfOrder : ∃ s os,
    (machine .default).run (.listen ⟨true, false⟩) twoReaders = some (s, os) ∧ s.wq = .idle ∧
      requested os.flatten = [.apdu [0x00, 0xA4], .fieldOff, .apdu [0x00, 0xA4]] ∧
      invoked os.flatten = [.apdu [0x00, 0xA4], .apdu [0x00, 0xA4], .fieldOff] :=
  ⟨_, _, rfl, rfl, rfl, rfl⟩

end NfcStack.Hal.Nfct
