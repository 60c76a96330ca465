import NfcStack.Hal.Nfct.Reassembly
import NfcStack.Lib.Ledger

/-!
# Ownership of the buffers

A buffer that has been taken from the pool is the current one, in the FIFO or in the hands of the
callback. Every step of the backend hands buffers on as `Ledger.Moves` demands.
-/

namespace NfcStack.Hal.Nfct

open List Option

variable {cfg : Config}

def State.places (s : State cfg) : List (BufId cfg) :=
  s.asm.cur.toList.map Buf.id ++ s.fifo.map Buf.id ++ s.held.toList.map Buf.id

def Moves (s s' : State cfg) (o : List (Effect cfg)) : Prop :=
  Ledger.Moves s.used s.places (allocs o) (releases o) s'.used s'.places

variable {s s' : State cfg} {o : List (Effect cfg)}

theorem Moves.of_release (ids : List (BufId cfg)) (ha : allocs o = []) (hr : releases o = ids)
    (hused : s'.used = s.used \ ids.toFinset) (hplaces : s.places.Perm (ids ++ s'.places)) :
    Moves s s' o where
  perm := by rwa [ha, hr]
  used_eq := by rw [ha, hr, hused, toFinset_nil, Finset.union_empty]
  fresh := by simp [ha]
  nodup := by simp [ha]

theorem moves_discardCurBuf (h : s.discardCurBuf = (s', o)) : Moves s s' o := by
  rw [State.discardCurBuf_eq] at h
  obtain ⟨rfl, rfl⟩ := Prod.mk.inj h
  refine .of_release _ (allocs_map_release _) (releases_map_release _) ?_ ?_
  · cases s.asm.cur <;> simp
  · cases hcur : s.asm.cur <;> simp [State.places, hcur, Assembly.clear]

theorem ledger_request (wq : WorkQueue Task) (t : Task) (c : Callback) :
    allocs (request wq t c : List (Effect cfg)) = [] ∧
      releases (request wq t c : List (Effect cfg)) = [] := by
  rw [request]
  split
  · exact ⟨rfl, rfl⟩
  · exact ⟨rfl, rfl⟩

variable {count : Stats → Stats} {c : Callback}

theorem moves_onField {t : Task} (h : s.onField t c count = (s', o)) : Moves s s' o := by
  have hdiscard := moves_discardCurBuf s.discardCurBuf_eq
  obtain ⟨ha, hr⟩ := @ledger_request cfg s.wq t c
  rw [State.onField_eq] at h
  obtain ⟨rfl, rfl⟩ := Prod.mk.inj h
  rw [Moves, allocs_append, releases_append, ha, hr, append_nil, append_nil]
  exact hdiscard

variable (a : Assembly cfg)

theorem cur_take (alloc : Option (BufId cfg)) :
    (a.take alloc).cur.toList.map Buf.id =
      (if a.takes then alloc else none).toList ++ a.cur.toList.map Buf.id := by
  unfold Assembly.take
  split
  · next htakes =>
    have hnone : a.cur = none := by
      simp only [Assembly.takes, Bool.and_eq_true, isNone_iff_eq_none] at htakes
      exact htakes.1
    cases alloc <;> simp [hnone, Buf.empty]
  · simp

theorem cur_add (frag : Fragment cfg) :
    (a.add frag).2.toList ++ (a.add frag).1.cur.toList.map Buf.id = a.cur.toList.map Buf.id := by
  unfold Assembly.add
  split
  · next buf hdrop hcur =>
    split
    · simp [hcur]
    · simp [hcur, Buf.add]
  · rfl

theorem cur_onFragment (frag : Fragment cfg) (alloc : Option (BufId cfg)) :
    let r := onFragment a frag alloc
    r.taken.toList ++ a.cur.toList.map Buf.id =
      r.released.toList ++ r.asm.cur.toList.map Buf.id ++ r.enqueueBuf.toList.map Buf.id := by
  have hadd := cur_add (a.take alloc) frag
  rw [cur_take] at hadd
  simp only [onFragment]
  split
  · simp [hadd]
  · split
    · simp [← hadd]
    · simp [← hadd]
    · simp [← hadd]

theorem ledger_answer (r : FragResult cfg) : allocs r.answer = [] ∧ releases r.answer = [] := by
  rw [FragResult.answer]
  split
  · exact ⟨rfl, rfl⟩
  · split
    · exact ⟨rfl, rfl⟩
    · exact ⟨rfl, rfl⟩

variable {alloc : Option (BufId cfg)} {frag : Fragment cfg}

theorem moves_onFragment (h : s.onFragment frag alloc = some (s', o)) : Moves s s' o := by
  have hcur := cur_onFragment s.asm frag alloc
  obtain ⟨hfresh, rfl, rfl⟩ := State.onFragment_eq_some h
  obtain ⟨r, hr⟩ : ∃ r, r = onFragment s.asm frag alloc := ⟨_, rfl⟩
  rw [← hr] at hcur hfresh ⊢
  obtain ⟨ha, hrel⟩ := ledger_answer r
  have hallocs : allocs (r.taken.toList.map Effect.alloc ++ r.released.toList.map Effect.release ++
      r.answer) = r.taken.toList := by
    simp only [allocs_append, allocs_map_alloc, allocs_map_release, ha, append_nil]
  have hreleases : releases (r.taken.toList.map Effect.alloc ++
      r.released.toList.map Effect.release ++ r.answer) = r.released.toList := by
    simp only [releases_append, releases_map_alloc, releases_map_release, hrel, append_nil,
      nil_append]
  refine ⟨?_, ?_, ?_, ?_⟩
  · -- the other buffers of the FIFO stay where they are
    rw [hallocs, hreleases]
    rw [perm_iff_count]
    intro id
    have hcount := congrArg (List.count id) hcur
    simp only [State.places, count_append, map_append] at hcount ⊢
    omega
  · rw [hallocs, hreleases]
    cases r.taken <;> cases r.released <;> simp
  · rw [hallocs]
    intro id hid
    exact hfresh id (mem_toList.mp hid)
  · rw [hallocs]
    cases r.taken <;> simp

theorem Moves.of_eq (ha : allocs o = []) (hr : releases o = []) (hused : s'.used = s.used)
    (hplaces : s.places = s'.places) : Moves s s' o :=
  .of_release [] ha hr (by simp [hused]) (.of_eq hplaces)

theorem moves_work (h : WorkTurn s s' o) : Moves s s' o := by
  cases h with
  | idle | fieldDone | apduDone => exact .of_eq rfl rfl rfl rfl
  | @started t wq hstart =>
    refine .of_eq ?_ ?_ rfl rfl
    · split
      · cases t <;> rfl
      · rfl
    · split
      · cases t <;> rfl
      · rfl
  | @returned buf hrun hheld =>
    obtain ⟨ha, hr⟩ := ledger_onApduHandler s.assembler buf
    refine .of_release [buf.id] ha hr (by simp [Finset.sdiff_singleton_eq_erase]) ?_
    simp only [State.places, hheld, toList_some, toList_none, map_cons, map_nil, append_nil]
    exact perm_append_comm
  | @passed buf rest hrun hheld hfifo =>
    -- from the head of the FIFO to the callback
    refine .of_release [] rfl rfl (by simp) ?_
    simp only [State.places, hheld, hfifo, toList_some, toList_none, map_cons,
      map_nil, append_nil, nil_append, append_assoc]
    exact (perm_append_singleton buf.id _).symm.append_left _
  | @dropped buf rest hrun hheld hfifo =>
    refine .of_release [buf.id] rfl rfl (by simp [Finset.sdiff_singleton_eq_erase]) ?_
    simp only [State.places, hheld, hfifo, toList_none, map_cons, map_nil, append_nil]
    exact perm_middle

theorem moves_stop (h : (machine cfg).step s .stop = some (s', o)) : Moves s s' o := by
  obtain ⟨-, rfl, rfl⟩ | ⟨rfl, rfl⟩ := step_stop h
  · exact .of_eq rfl rfl rfl rfl
  · have hdiscard := moves_discardCurBuf s.discardCurBuf_eq
    exact hdiscard

theorem moves_stopTurn (h : StopTurn s s' o) : Moves s s' o := by
  cases h with
  | idle | cancelled | stopped => exact .of_eq rfl rfl rfl rfl
  | @drained buf rest hstop hfifo =>
    refine .of_release [buf.id] rfl rfl (by simp [Finset.sdiff_singleton_eq_erase]) ?_
    simp only [State.places, hfifo, map_cons, append_assoc]
    exact perm_middle

theorem moves_start (h : (machine cfg).step s .start = some (s', o)) : Moves s s' o := by
  obtain ⟨rfl | ⟨-, rfl⟩, rfl⟩ := step_start h
  · exact .of_eq rfl rfl rfl rfl
  · exact .of_eq rfl rfl rfl rfl

variable {e : Event cfg}

theorem moves_step (h : (machine cfg).step s e = some (s', o)) : Moves s s' o := by
  cases e with
  | fieldOn => exact moves_onField (step_fieldOn h)
  | fieldOff => exact moves_onField (step_fieldOff h)
  | dataInd frag alloc => exact moves_onFragment (step_dataInd h)
  | work => exact moves_work (step_work h)
  | start => exact moves_start h
  | stop => exact moves_stop h
  | stopTurn => exact moves_stopTurn (step_stopTurn h)

/-- What is kept along a run: the assembly state is that of the open command, every buffer in use is
in one place, and every buffer was given back as often as it was taken, except for those in use. -/
structure Inv (es : List (Event cfg)) (os : List (List (Effect cfg))) (s : State cfg) : Prop where
  tracks : Tracks s (.of es)
  owned : Ledger.Owned s.used s.places
  ledger : ∀ id, (allocs os.flatten).count id =
    (releases os.flatten).count id + s.places.count id

variable {os : List (List (Effect cfg))} {es : List (Event cfg)}

theorem Inv.step (hi : Inv es os s) (h : (machine cfg).step s e = some (s', o)) :
    Inv (es ++ [e]) (os ++ [o]) s' := by
  have hmoves := moves_step h
  refine ⟨?_, hi.owned.moves hmoves, ?_⟩
  · rw [History.of_concat]
    exact (hi.tracks.step h).1
  · intro id
    have hcount := hmoves.count id
    have hledger := hi.ledger id
    simp only [flatten_append, flatten_singleton, allocs_append, releases_append, count_append]
    omega

theorem inv_run {consumer : Task → Bool} {assembler : Assembler}
    (h : (machine cfg).run (.initialized consumer assembler) es = some (s, os)) : Inv es os s :=
  Machine.run_induction _
    ⟨⟨rfl, fun _ => rfl⟩, Ledger.owned_empty, fun _ => rfl⟩
    (fun _ _ _ _ _ _ _ hi hs => hi.step hs) h

theorem fifo_onFragment (h : s.onFragment frag alloc = some (s', o)) :
    s'.fifo.map Buf.data = s.fifo.map Buf.data ++ apdus o := by
  obtain ⟨-, rfl, rfl⟩ := State.onFragment_eq_some h
  obtain ⟨r, hr⟩ : ∃ r, r = onFragment s.asm frag alloc := ⟨_, rfl⟩
  have hother : apdus (r.taken.toList.map Effect.alloc ++ r.released.toList.map Effect.release) =
      [] := by
    cases r.taken <;> cases r.released <;> rfl
  rw [← hr, map_append, apdus_append, hother, FragResult.answer]
  cases r.enqueueBuf with
  | some buf => rfl
  | none => cases r.sendWrongLength <;> rfl

theorem fifo_onField {t : Task} (h : s.onField t c count = (s', o)) (hc : c.isApdu = false) :
    s'.fifo.map Buf.data = s.fifo.map Buf.data ++ apdus o := by
  have hrequest : apdus (request s.wq t c : List (Effect cfg)) = [] := by
    rw [← apdus_filter_isAnswer, filter_isAnswer_request _ _ hc]
    rfl
  rw [State.onField_eq] at h
  obtain ⟨rfl, rfl⟩ := Prod.mk.inj h
  rw [apdus_append, hrequest]
  cases s.asm.cur <;> simp [apdus]

/-- A last fragment is answered by passing on the whole command, by one 6700 or not at all, as the
command demands, and no other event is; every buffer taken from the pool is in exactly one place, and
is given back exactly once. -/
theorem fragments_reassembled (consumer : Task → Bool) (assembler : Assembler)
    (es : List (Event cfg)) {os : List (List (Effect cfg))}
    (h : (machine cfg).run (.initialized consumer assembler) es = some (s, os)) :
    (∀ e s' o, (machine cfg).step s e = some (s', o) →
      o.filter Effect.isAnswer = ((History.of es).completed e).elim [] Command.answer ∧
      (e.isInterrupt → s'.fifo.map Buf.data = s.fifo.map Buf.data ++ apdus o)) ∧
    (s.places.Nodup ∧ ∀ id, id ∈ s.places ↔ id ∈ s.used) ∧
    ∀ id, (allocs os.flatten).count id = (releases os.flatten).count id + s.places.count id := by
  have hinv := inv_run h
  refine ⟨?_, ⟨hinv.owned.nodup, hinv.owned.mem_iff⟩, hinv.ledger⟩
  intro e s' o hs
  refine ⟨(hinv.tracks.step hs).2, ?_⟩
  intro hinterrupt
  cases e with
  | dataInd frag alloc => exact fifo_onFragment (step_dataInd hs)
  | fieldOn => exact fifo_onField (step_fieldOn hs) rfl
  | fieldOff => exact fifo_onField (step_fieldOff hs) rfl
  | work | start | stop | stopTurn => cases hinterrupt

theorem addressable_of_le {data : Bytes} (h : data.length ≤ 65) :
    cfg.bufSize + data.length < 2 ^ 32 := by
  have hsize := cfg.bufSize_range.2
  omega

def shortFragment (more : Bool) : Fragment cfg :=
  ⟨[0x00, 0xA4], more, addressable_of_le (Nat.le_add_left 2 63)⟩

def twoFragments : List (Event .default) :=
  [.start, .dataInd (shortFragment true) (some firstBuf), .dataInd (shortFragment false) none]

theorem run_twoFragments : ∃ s os,
    (machine .default).run (.initialized (fun _ => true) ⟨true, false⟩) twoFragments =
      some (s, os) ∧ s.fifo.map Buf.data = [[0x00, 0xA4, 0x00, 0xA4]] :=
  ⟨_, _, rfl, rfl⟩

theorem fragments_reassembled_twoFragments : ∃ s os,
    (machine .default).run (.initialized (fun _ => true) ⟨true, false⟩) twoFragments =
      some (s, os) ∧
    s.fifo.map Buf.data = [[0x00, 0xA4, 0x00, 0xA4]] ∧
    (s.places.Nodup ∧ ∀ id, id ∈ s.places ↔ id ∈ s.used) ∧
    ∀ id, (allocs os.flatten).count id = (releases os.flatten).count id + s.places.count id := by
  obtain ⟨s, os, hrun, hfifo⟩ := run_twoFragments
  exact ⟨s, os, hrun, hfifo, (fragments_reassembled _ _ _ hrun).2⟩

end NfcStack.Hal.Nfct
