import NfcStack.Hal.Nfct.Ownership

/-!
# The counters of the receive path

The counters as functions of the history. A command that is too long is counted by the fragment that
makes it so and, if that was not its last one, by its last one again.
-/

namespace NfcStack.Hal.Nfct

open List Option

variable {cfg : Config}

def Event.isFragment : Event cfg → Bool
  | .dataInd .. => true
  | _ => false

def fragmentStats (st : Stats) : UInt32 × UInt32 × UInt32 × UInt32 :=
  (st.fragmentRxCount, st.apduAssembledCount, st.fragDroppedNoBuffer, st.apduOversizedCount)

namespace History

variable (h : History cfg)

theorem commands_interrupted : h.interrupted.commands = h.commands := by
  simp [commands, interrupted, Function.comp_def]

theorem late_interrupted : h.interrupted.late = h.late := by
  simp [late, interrupted]

theorem counts_next {e : Event cfg} (he : e.isFragment = false) :
    (h.next e).commands = h.commands ∧ (h.next e).late = h.late := by
  cases e with
  | dataInd => cases he
  | fieldOn | fieldOff | stop => exact ⟨h.commands_interrupted, h.late_interrupted⟩
  | work | start | stopTurn => exact ⟨rfl, rfl⟩

theorem exceeds_opened (alloc : Option (BufId cfg)) :
    (h.opened alloc).exceeds = h.current.any Command.exceeds := by
  cases hcur : h.current with
  | none => simp [opened, hcur, Command.exceeds, Command.bytes]
  | some c => simp [opened, hcur]

variable (frag : Fragment cfg) (alloc : Option (BufId cfg))

theorem countP_commands_next (p : Command cfg → Bool) :
    (h.next (.dataInd frag alloc)).commands.countP p + h.current.toList.countP p =
      h.commands.countP p + if p ((h.opened alloc).add frag) then 1 else 0 := by
  simp only [next, commands]
  split
  · simp only [countP_append, toList_some, countP_singleton]
    omega
  · simp only [countP_append, map_append, map_cons, map_nil, toList_none,
      append_nil, countP_singleton]
    omega

theorem late_next : (h.next (.dataInd frag alloc)).late =
      h.late + if !frag.more && (h.opened alloc).exceeds then 1 else 0 := by
  cases hmore : frag.more with
  | true => simp [next, late, hmore]
  | false => simp [next, late, hmore, countP_append, Command.exceedsEarly_add]

end History

theorem Command.exceeds_of_add {c : Command cfg} (frag : Fragment cfg) (h : c.exceeds) :
    (c.add frag).exceeds := by
  simp only [exceeds, Bool.and_eq_true, decide_eq_true_eq] at h
  simp only [exceeds_add, h.1, Bool.true_and, decide_eq_true_eq]
  omega

variable (h : History cfg) (frag : Fragment cfg) (alloc : Option (BufId cfg))

theorem History.oversized_next : (h.next (.dataInd frag alloc)).commands.countP Command.exceeds +
        (h.next (.dataInd frag alloc)).late =
      h.commands.countP Command.exceeds + h.late +
        if ((h.opened alloc).add frag).exceeds && (!frag.more || !(h.opened alloc).exceeds) then 1
        else 0 := by
  have hcount := h.countP_commands_next frag alloc Command.exceeds
  have hopen : h.current.toList.countP Command.exceeds =
      if (h.opened alloc).exceeds then 1 else 0 := by
    rw [h.exceeds_opened]
    cases h.current <;> simp
  rw [hopen] at hcount
  rw [h.late_next]
  cases hold : (h.opened alloc).exceeds with
  | true =>
    -- it was counted before, and is counted again if this is its last fragment
    simp only [hold, (h.opened alloc).exceeds_of_add frag hold, if_true, Bool.and_true,
      Bool.true_and, Bool.not_true, Bool.or_false] at hcount ⊢
    omega
  | false =>
    simp only [hold, Bool.false_eq_true, if_false, Bool.and_false, Bool.not_false, Bool.or_true,
      Bool.and_true] at hcount ⊢
    omega

theorem History.dropped_next : (h.next (.dataInd frag alloc)).commands.countP (·.alloc.isNone) =
      h.commands.countP (·.alloc.isNone) + if h.current.isNone && alloc.isNone then 1 else 0 := by
  have hcount := h.countP_commands_next frag alloc (·.alloc.isNone)
  cases hcur : h.current with
  | none => simpa [hcur, opened, Command.add] using hcount
  | some c =>
    simp only [hcur, opened, Command.add, toList_some, countP_singleton, getD_some] at hcount
    simp only [isNone_some, Bool.false_and, Bool.false_eq_true, if_false]
    omega

theorem ofNat_add_ite (n : ℕ) (b : Bool) :
    UInt32.ofNat n + (if b then 1 else 0) = UInt32.ofNat (n + if b then 1 else 0) := by
  cases b with
  | false => simp
  | true => simp [UInt32.ofNat_add]

structure Counted (es : List (Event cfg)) (os : List (List (Effect cfg))) (s : State cfg) : Prop where
  tracks : Tracks s (.of es)
  fragments : s.stats.fragmentRxCount = UInt32.ofNat (es.countP Event.isFragment)
  assembled : s.stats.apduAssembledCount = UInt32.ofNat (apdus os.flatten).length
  dropped : s.stats.fragDroppedNoBuffer =
    UInt32.ofNat ((History.of es).commands.countP (·.alloc.isNone))
  oversized : s.stats.apduOversizedCount =
    UInt32.ofNat ((History.of es).commands.countP Command.exceeds + (History.of es).late)

section

variable {es : List (Event cfg)} {os : List (List (Effect cfg))} {s s' : State cfg}
  {o : List (Effect cfg)} {e : Event cfg}

theorem fragmentStats_step (h : (machine cfg).step s e = some (s', o))
    (he : e.isFragment = false) : fragmentStats s'.stats = fragmentStats s.stats := by
  cases e with
  | dataInd => cases he
  | fieldOn =>
    have hs := step_fieldOn h
    rw [State.onFieldOn, State.onField_eq] at hs
    obtain ⟨rfl, -⟩ := Prod.mk.inj hs
    rfl
  | fieldOff =>
    have hs := step_fieldOff h
    rw [State.onFieldOff, State.onField_eq] at hs
    obtain ⟨rfl, -⟩ := Prod.mk.inj hs
    rfl
  | work => cases step_work h <;> rfl
  | start => obtain ⟨rfl | ⟨-, rfl⟩, rfl⟩ := step_start h <;> rfl
  | stop => obtain ⟨-, rfl, rfl⟩ | ⟨rfl, rfl⟩ := step_stop h <;> rfl
  | stopTurn => cases step_stopTurn h <;> rfl

theorem Counted.other (hc : Counted es os s) (h : (machine cfg).step s e = some (s', o))
    (he : e.isFragment = false) : Counted (es ++ [e]) (os ++ [o]) s' := by
  obtain ⟨htracks, hanswer⟩ := hc.tracks.step h
  have hnone : apdus o = [] := by
    rw [← apdus_filter_isAnswer, hanswer]
    cases e with
    | dataInd => cases he
    | _ => rfl
  have hstats := fragmentStats_step h he
  simp only [fragmentStats, Prod.mk.injEq] at hstats
  obtain ⟨hrx, hasm, hdrop, hover⟩ := hstats
  obtain ⟨hcommands, hlate⟩ := (History.of es).counts_next he
  rw [← History.of_concat] at htracks hcommands hlate
  refine ⟨htracks, ?_, ?_, ?_, ?_⟩
  · simp [hrx, hc.fragments, he]
  · rw [hasm, hc.assembled, flatten_append, flatten_singleton, apdus_append, hnone, append_nil]
  · rw [hdrop, hc.dropped, hcommands]
  · rw [hover, hc.oversized, hcommands, hlate]

theorem assembled_onFragment (a : Assembly cfg) (frag : Fragment cfg) (alloc : Option (BufId cfg)) :
    (onFragment a frag alloc).assembled = (onFragment a frag alloc).enqueueBuf.isSome := by
  simp only [onFragment]
  split
  · rfl
  · split <;> rfl

variable {alloc : Option (BufId cfg)} {frag : Fragment cfg}

theorem length_apdus_onFragment (h : s.onFragment frag alloc = some (s', o)) :
    (apdus o).length = if (onFragment s.asm frag alloc).assembled then 1 else 0 := by
  have hfifo := congrArg List.length (fifo_onFragment h)
  obtain ⟨-, rfl, -⟩ := State.onFragment_eq_some h
  rw [assembled_onFragment]
  simp only [map_append, length_append, length_map] at hfifo
  rw [← Nat.add_left_cancel hfifo]
  cases (onFragment s.asm frag alloc).enqueueBuf <;> rfl

theorem Counted.fragment (hc : Counted es os s)
    (h : (machine cfg).step s (.dataInd frag alloc) = some (s', o)) :
    Counted (es ++ [.dataInd frag alloc]) (os ++ [o]) s' := by
  obtain ⟨htracks, -⟩ := hc.tracks.step h
  rw [← History.of_concat] at htracks
  have hapdus := length_apdus_onFragment (step_dataInd h)
  obtain ⟨-, rfl, -⟩ := State.onFragment_eq_some (step_dataInd h)
  have hr := onFragment_assemblyOf (History.of es) frag alloc
  rw [← hc.tracks.asm] at hr
  refine ⟨htracks, ?_, ?_, ?_, ?_⟩
  · simp [statsOnFragment, hc.fragments, Event.isFragment, UInt32.ofNat_add]
  · rw [flatten_append, flatten_singleton, apdus_append, length_append, hapdus,
      ← ofNat_add_ite, ← hc.assembled]
    rfl
  · rw [History.of_concat, History.dropped_next, ← ofNat_add_ite, ← hc.dropped]
    simp only [statsOnFragment, hr]
  · rw [History.of_concat, History.oversized_next, ← ofNat_add_ite, ← hc.oversized]
    simp only [statsOnFragment, hr]

theorem Counted.step (hc : Counted es os s)
    (h : (machine cfg).step s e = some (s', o)) : Counted (es ++ [e]) (os ++ [o]) s' := by
  cases e with
  | dataInd frag alloc => exact hc.fragment h
  | _ => exact hc.other h rfl

theorem counted_run {consumer : Task → Bool} {assembler : Assembler}
    (h : (machine cfg).run (.initialized consumer assembler) es = some (s, os)) : Counted es os s :=
  Machine.run_induction _ ⟨⟨rfl, fun _ => rfl⟩, rfl, rfl, rfl, rfl⟩
    (fun _ _ _ _ _ _ _ hc hs => hc.step hs) h

end

theorem ofNat_add_eq_left_iff (n k : ℕ) : UInt32.ofNat (n + k) = UInt32.ofNat n ↔ 2 ^ 32 ∣ k := by
  rw [← UInt32.toNat_inj, UInt32.toNat_ofNat', UInt32.toNat_ofNat']
  omega

/-- The counters after every run. -/
theorem fragmentCounters (consumer : Task → Bool) (assembler : Assembler) (es : List (Event cfg))
    {os : List (List (Effect cfg))} {s : State cfg}
    (h : (machine cfg).run (.initialized consumer assembler) es = some (s, os)) :
    s.stats.fragmentRxCount = UInt32.ofNat (es.countP Event.isFragment) ∧
    s.stats.apduAssembledCount = UInt32.ofNat (apdus os.flatten).length ∧
    s.stats.fragDroppedNoBuffer =
      UInt32.ofNat ((History.of es).commands.countP (·.alloc.isNone)) ∧
    s.stats.apduOversizedCount =
      UInt32.ofNat ((History.of es).commands.countP Command.exceeds + (History.of es).late) ∧
    (s.stats.apduOversizedCount = UInt32.ofNat ((History.of es).commands.countP Command.exceeds) ↔
      2 ^ 32 ∣ (History.of es).late) := by
  have hc := counted_run h
  refine ⟨hc.fragments, hc.assembled, hc.dropped, hc.oversized, ?_⟩
  rw [hc.oversized]
  exact ofNat_add_eq_left_iff _ _

theorem fragmentCounters_twoFragments : ∃ s os,
    (machine .default).run (.initialized (fun _ => true) ⟨true, false⟩) twoFragments =
      some (s, os) ∧
    s.stats.apduAssembledCount = UInt32.ofNat (apdus os.flatten).length ∧
    s.stats.apduOversizedCount =
      UInt32.ofNat ((History.of twoFragments).commands.countP Command.exceeds) := by
  obtain ⟨s, os, hrun, -⟩ := run_twoFragments
  obtain ⟨-, hasm, -, -, hover⟩ := fragmentCounters _ _ _ hrun
  exact ⟨s, os, hrun, hasm, hover.mpr (by decide)⟩

theorem minimal_bufSize_range : 64 ≤ 64 ∧ 64 ≤ 512 := by decide

theorem minimal_poolCount_range : 1 ≤ 1 ∧ 1 ≤ 16 := by decide

def minimalConfig : Config := ⟨64, 1, minimal_bufSize_range, minimal_poolCount_range⟩

def longFragment : Fragment minimalConfig :=
  ⟨List.replicate 65 0, true, addressable_of_le length_replicate.le⟩

def longCommand : List (Event minimalConfig) :=
  [.start, .dataInd longFragment (some firstBuf), .dataInd (shortFragment false) none]

theorem longCommand_countedTwice : ∃ s os,
    (machine _).run (.initialized (fun _ => true) ⟨true, false⟩) longCommand = some (s, os) ∧
    (History.of longCommand).commands.countP Command.exceeds = 1 ∧
    os.flatten.filter Effect.isAnswer = [.wrongLength] ∧ s.stats.apduOversizedCount = 2 :=
  ⟨_, _, rfl, by decide, by decide, by decide⟩

end NfcStack.Hal.Nfct
