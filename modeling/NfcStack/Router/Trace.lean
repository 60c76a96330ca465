import NfcStack.Lib.Machine
import NfcStack.Router.AidRouter

/-!
# What the router calls, over whole histories

The router runs with services that write down how they are called. `Agrees` says that its variables are
what the history of calls says, and `trace_law` what follows.
-/

namespace NfcStack.Router

open List Option

variable {ι μ : Type}

inductive Call (ι : Type)
  | init
  | register (entry : Entry ι)
  | clear
  | shutdown
  | fieldOff
  | dispatch (apdu : Apdu)
deriving DecidableEq, Repr

inductive Callback (ι : Type)
  | select (svc : ι) (aid : Bytes)
  | apdu (svc : ι) (apdu : Apdu)
  | deselect (svc : ι)
  | fieldOff (svc : ι)
deriving DecidableEq, Repr

structure Handlers where
  select : Bool
  apdu : Bool
  deselect : Bool
  fieldOff : Bool
deriving DecidableEq, Repr

def logging (handlers : ι → Handlers) (svc : ι) : Service (List (Callback ι)) where
  persistId := 0
  onSelect := if (handlers svc).select then
    some fun log aid => some (log ++ [.select svc aid], none) else none
  onApdu := if (handlers svc).apdu then
    some fun log apdu => some (log ++ [.apdu svc apdu], none, false) else none
  onDeselect := if (handlers svc).deselect then
    some fun log => log ++ [.deselect svc] else none
  onFieldOff := if (handlers svc).fieldOff then
    some fun log => log ++ [.fieldOff svc] else none
  serialize := none
  deserialize := none

def called (present : Bool) (c : Callback ι) : List (Callback ι) := if present then [c] else []

section Logging

variable (handlers : ι → Handlers) (svc : ι) (log : List (Callback ι))

theorem callSelect_logging (aid : Bytes) :
    (logging handlers svc).callSelect log aid =
      some (log ++ called (handlers svc).select (.select svc aid), none) := by
  cases h : (handlers svc).select <;> simp [Service.callSelect, logging, called, h]

theorem callApdu_logging (apdu : Apdu) :
    (logging handlers svc).callApdu log apdu =
      some (log ++ called (handlers svc).apdu (.apdu svc apdu), none, false) := by
  cases h : (handlers svc).apdu <;> simp [Service.callApdu, logging, called, h]

theorem callDeselect_logging : (logging handlers svc).callDeselect log =
      log ++ called (handlers svc).deselect (.deselect svc) := by
  cases h : (handlers svc).deselect <;> simp [Service.callDeselect, logging, called, h]

theorem callFieldOff_logging : (logging handlers svc).callFieldOff log =
      log ++ called (handlers svc).fieldOff (.fieldOff svc) := by
  cases h : (handlers svc).fieldOff <;> simp [Service.callFieldOff, logging, called, h]

end Logging

variable (services : ι → Service μ)

def handlersOf (svc : ι) : Handlers where
  select := (services svc).onSelect.isSome
  apdu := (services svc).onApdu.isSome
  deselect := (services svc).onDeselect.isSome
  fieldOff := (services svc).onFieldOff.isSome

def Callback.perform (m : μ) : Callback ι → Option μ
  | .select svc aid => ((services svc).callSelect m aid).map (·.1)
  | .apdu svc command => ((services svc).callApdu m command).map (·.1)
  | .deselect svc => some ((services svc).callDeselect m)
  | .fieldOff svc => some ((services svc).callFieldOff m)

def perform (services : ι → Service μ) (m : μ) (cs : List (Callback ι)) : Option μ :=
  cs.foldlM (Callback.perform services) m

section Performing

variable (services : ι → Service μ) (m : μ)

theorem perform_called (present : Bool) (c : Callback ι) :
    perform services m (called present c) = if present then c.perform services m else some m := by
  cases present
  · rfl
  · exact bind_pure _

theorem perform_append (cs ds : List (Callback ι)) :
    perform services m (cs ++ ds) = (perform services m cs).bind (perform services · ds) :=
  foldlM_append

variable (svc : ι)

theorem perform_select (aid : Bytes) :
    perform services m (called (handlersOf services svc).select (.select svc aid)) =
      ((services svc).callSelect m aid).map (·.1) := by
  rw [perform_called]
  cases h : (services svc).onSelect <;> simp [handlersOf, Callback.perform, Service.callSelect, h]

theorem perform_apdu (apdu : Apdu) :
    perform services m (called (handlersOf services svc).apdu (.apdu svc apdu)) =
      ((services svc).callApdu m apdu).map (·.1) := by
  rw [perform_called]
  cases h : (services svc).onApdu <;> simp [handlersOf, Callback.perform, Service.callApdu, h]

theorem perform_deselect :
    perform services m (called (handlersOf services svc).deselect (.deselect svc)) =
      some ((services svc).callDeselect m) := by
  rw [perform_called]
  cases h : (services svc).onDeselect <;> simp [handlersOf, Callback.perform, Service.callDeselect, h]

theorem perform_fieldOff :
    perform services m (called (handlersOf services svc).fieldOff (.fieldOff svc)) =
      some ((services svc).callFieldOff m) := by
  rw [perform_called]
  cases h : (services svc).onFieldOff <;> simp [handlersOf, Callback.perform, Service.callFieldOff, h]

variable (st : State ι)

theorem leave_performs [DecidableEq ι] (svc : ι) :
    perform services m (leave (logging (handlersOf services)) st [] svc) =
      some (leave services st m svc) := by
  unfold leave
  cases st.active with
  | none => rfl
  | some old =>
    by_cases hne : old = svc
    · simp only [hne, ne_eq, not_true_eq_false, if_false]
      rfl
    · simp only [ne_eq, hne, not_false_eq_true, if_true, callDeselect_logging, nil_append]
      exact perform_deselect services m old

theorem dispatch_performs [DecidableEq ι] (apdu : Apdu) :
    (dispatch services st m apdu).map (fun r => (r.1, r.2.1)) =
      (dispatch (logging (handlersOf services)) st [] apdu).bind fun r =>
        (perform services m r.2.1).map (r.1, ·) := by
  unfold dispatch
  by_cases hup : st.initialized = true
  · rw [if_neg (not_not.mpr hup), if_neg (not_not.mpr hup)]
    by_cases hsel : isSelectByAid apdu = true
    · rw [if_pos hsel, if_pos hsel]
      cases st.findAid (selectedAid apdu) with
      | none => rfl
      | some entry =>
        simp only [select, callSelect_logging, Option.map_some, Option.bind_some,
          perform_append, leave_performs, perform_select, Option.map_map]
        rfl
    · rw [if_neg hsel, if_neg hsel]
      cases st.active with
      | none => rfl
      | some svc =>
        simp only [callApdu_logging, Option.map_some, Option.bind_some, List.nil_append,
          perform_apdu, Option.map_map]
        rfl
  · rw [if_pos hup, if_pos hup]
    rfl

theorem fieldOff_performs : perform services m (fieldOff (logging (handlersOf services)) st []).2 =
      some (fieldOff services st m).2 := by
  unfold fieldOff
  cases st.active with
  | none => rfl
  | some svc =>
    simp only [callFieldOff_logging, nil_append]
    exact perform_fieldOff services m svc

end Performing

abbrev History (ι : Type) := List (Call ι × Ret)

def registered : History ι → List (Entry ι)
  | [] => []
  | (.init, .ok ()) :: _ => []
  | (.clear, _) :: _ => []
  | (.shutdown, _) :: _ => []
  | (.register entry, .ok ()) :: h => registered h ++ [entry]
  | _ :: h => registered h

def matching (h : History ι) (apdu : Apdu) : Option ι :=
  if isSelectByAid apdu then ((registered h).find? (·.aid == selectedAid apdu)).map (·.svc)
  else none

def lastSelected : History ι → Option ι
  | [] => none
  | (.fieldOff, _) :: _ => none
  | (.clear, _) :: _ => none
  | (.shutdown, _) :: _ => none
  | (.dispatch apdu, _) :: h => (matching h apdu).or (lastSelected h)
  | _ :: h => lastSelected h

structure Logged (ι : Type) where
  state : State ι
  history : History ι

def runCall [DecidableEq ι] (maxAids : ℕ) (handlers : ι → Handlers) (st : State ι) :
    Call ι → Option (State ι × Ret × List (Callback ι))
  | .init => some ((init st).1, (init st).2, [])
  | .register entry => some ((register maxAids st entry).1, (register maxAids st entry).2, [])
  | .clear => some (clear st, .ok (), [])
  | .shutdown => some (.down, .ok (), [])
  | .fieldOff =>
    let r := fieldOff (logging handlers) st []
    some (r.1, .ok (), r.2)
  | .dispatch apdu => (dispatch (logging handlers) st [] apdu).map fun r => (r.1, .ok (), r.2.1)

def router [DecidableEq ι] (maxAids : ℕ) (handlers : ι → Handlers) :
    Machine (Logged ι) (Call ι) (List (Callback ι)) where
  step s c := (runCall maxAids handlers s.state c).map fun r =>
    (⟨r.1, (c, r.2.1) :: s.history⟩, r.2.2)

def Logged.boot : Logged ι := ⟨.down, []⟩

/-- The router with services of its own and the memory they share. -/
def served [DecidableEq ι] (maxAids : ℕ) (services : ι → Service μ) :
    Machine (State ι × μ) (Call ι) (Option Bytes) where
  step s
    | .init => some (((init s.1).1, s.2), none)
    | .register entry => some (((register maxAids s.1 entry).1, s.2), none)
    | .clear => some ((clear s.1, s.2), none)
    | .shutdown => some ((.down, s.2), none)
    | .fieldOff => some (fieldOff services s.1 s.2, none)
    | .dispatch apdu => (dispatch services s.1 s.2 apdu).map fun r => ((r.1, r.2.1), r.2.2.1)

theorem step_performs [DecidableEq ι] (maxAids : ℕ) (services : ι → Service μ) (m : μ)
    (s : Logged ι) (c : Call ι) :
    ((served maxAids services).step (s.state, m) c).map Prod.fst =
      ((router maxAids (handlersOf services)).step s c).bind fun r =>
        (perform services m r.2).map (r.1.state, ·) := by
  cases c with
  | init | register | clear | shutdown => rfl
  | fieldOff => exact congrArg (Option.map _) (fieldOff_performs services m s.state).symm
  | dispatch apdu =>
    have h := dispatch_performs services m s.state apdu
    simp only [served, router, runCall, Option.map_map, Option.bind_map] at h ⊢
    exact h

/-- Whatever the services do, a run leaves them as the callbacks that the logging services write down
for the same calls, one after the other, and the router as it is with those. -/
theorem run_performs [DecidableEq ι] (maxAids : ℕ) (services : ι → Service μ) (m : μ)
    (s : Logged ι) (cs : List (Call ι)) :
    ((served maxAids services).run (s.state, m) cs).map Prod.fst =
      ((router maxAids (handlersOf services)).run s cs).bind fun r =>
        (perform services m r.2.flatten).map (r.1.state, ·) := by
  induction cs generalizing m s with
  | nil => rfl
  | cons c cs ih =>
    have hstep := step_performs maxAids services m s c
    cases hlog : (router maxAids (handlersOf services)).step s c with
    | none =>
      rw [hlog, bind_none, map_eq_none_iff] at hstep
      simp only [Machine.run, hlog, hstep, map_none, bind_none]
    | some r =>
      obtain ⟨s', cbs⟩ := r
      rw [hlog, bind_some] at hstep
      rw [Machine.run_cons _ cs hlog, bind_map]
      simp only [Function.comp_def, flatten_cons, perform_append]
      cases hperform : perform services m cbs with
      | none =>
        rw [hperform, map_none, map_eq_none_iff] at hstep
        simp [Machine.run, hstep]
      | some m' =>
        obtain ⟨⟨st, out⟩, hserved, rfl⟩ := map_eq_some_iff.mp (hperform ▸ hstep)
        rw [Machine.run_cons _ cs hserved, Option.map_map]
        exact ih m' s'

structure Agrees (s : Logged ι) : Prop where
  table : s.state.table = registered s.history
  active : s.state.active = lastSelected s.history
  down : s.state.initialized = false → registered s.history = []
  selected : ∀ svc, lastSelected s.history = some svc → ∃ e ∈ registered s.history, e.svc = svc

theorem agrees_boot : Agrees (Logged.boot : Logged ι) where
  table := rfl
  active := rfl
  down _ := rfl
  selected _ h := by cases h

theorem Agrees.lastSelected_down {s : Logged ι} (h : Agrees s)
    (hdown : s.state.initialized = false) : lastSelected s.history = none := by
  cases hsel : lastSelected s.history with
  | none => rfl
  | some svc =>
    obtain ⟨e, he, -⟩ := h.selected svc hsel
    rw [h.down hdown] at he
    cases he

variable {apdu : Apdu}

theorem registered_of_matching {h : History ι} {svc : ι}
    (hm : matching h apdu = some svc) : ∃ e ∈ registered h, e.svc = svc := by
  unfold matching at hm
  split at hm
  · obtain ⟨e, hfind, rfl⟩ := map_eq_some_iff.mp hm
    exact ⟨e, mem_of_find?_eq_some hfind, rfl⟩
  · cases hm

theorem register_cases (maxAids : ℕ) (st : State ι) (entry : Entry ι) :
    (∃ e, register maxAids st entry = (st, .error e)) ∨ (st.initialized = true ∧
        register maxAids st entry = ({ st with table := st.table ++ [entry] }, .ok ())) := by
  unfold register
  by_cases hup : st.initialized = true
  · rw [if_neg (not_not.mpr hup)]
    split_ifs
    · exact .inl ⟨_, rfl⟩
    · exact .inl ⟨_, rfl⟩
    · exact .inr ⟨hup, rfl⟩
  · rw [if_pos hup]
    exact .inl ⟨_, rfl⟩

theorem apdu_not_mem_called {present : Bool} {c : Callback ι} {svc : ι}
    (hc : c ≠ .apdu svc apdu) : .apdu svc apdu ∉ called present c := by
  intro hmem
  unfold called at hmem
  split at hmem
  · exact hc (mem_singleton.mp hmem).symm
  · cases hmem

section Dispatch

variable [DecidableEq ι] (handlers : ι → Handlers) {s : Logged ι}

theorem dispatch_down (h : s.state.initialized = false) (apdu : Apdu) :
    dispatch (logging handlers) s.state [] apdu = some (s.state, [], none, none) := by
  rw [dispatch, if_pos (by simp [h])]

theorem dispatch_matching (ha : Agrees s) (hup : s.state.initialized = true) {svc : ι}
    (hm : matching s.history apdu = some svc) :
    dispatch (logging handlers) s.state [] apdu = some ({ s.state with active := some svc },
      leave (logging handlers) s.state [] svc ++
        called (handlers svc).select (.select svc apdu.data), none, none) := by
  unfold matching at hm
  split at hm
  · next hsel =>
    obtain ⟨e, hfind, rfl⟩ := map_eq_some_iff.mp hm
    rw [← ha.table] at hfind
    rw [dispatch, if_neg (by simp [hup]), if_pos hsel, State.findAid, hfind]
    simp only [select, callSelect_logging, map_some]
  · cases hm

theorem dispatch_unmatched (ha : Agrees s) (hup : s.state.initialized = true)
    (hsel : isSelectByAid apdu = true) (hm : matching s.history apdu = none) :
    dispatch (logging handlers) s.state [] apdu =
      some (s.state, [], some StatusWord.fileNotFound.bytes, none) := by
  rw [matching, if_pos hsel, map_eq_none_iff, ← ha.table] at hm
  rw [dispatch, if_neg (by simp [hup]), if_pos hsel, State.findAid, hm]

def handedOn (active : Option ι) (apdu : Apdu) : List (Callback ι) :=
  active.elim [] fun svc => called (handlers svc).apdu (.apdu svc apdu)

theorem dispatch_other (hup : s.state.initialized = true) (hsel : isSelectByAid apdu = false) :
    ∃ rsp, dispatch (logging handlers) s.state [] apdu =
      some (s.state, handedOn handlers s.state.active apdu, rsp, none) := by
  rw [dispatch, if_neg (by simp [hup]), if_neg (by simp [hsel])]
  cases s.state.active with
  | none => exact ⟨_, rfl⟩
  | some svc =>
    simp only [callApdu_logging, map_some, nil_append]
    exact ⟨_, rfl⟩

theorem dispatch_cases (ha : Agrees s) (apdu : Apdu) {st' : State ι} {cbs : List (Callback ι)}
    {rsp : Option Bytes} {dirty : Option ι}
    (h : dispatch (logging handlers) s.state [] apdu = some (st', cbs, rsp, dirty)) :
    (∃ svc, matching s.history apdu = some svc ∧ st' = { s.state with active := some svc } ∧
        cbs = leave (logging handlers) s.state [] svc ++
          called (handlers svc).select (.select svc apdu.data)) ∨
      (matching s.history apdu = none ∧ st' = s.state ∧
        (cbs = [] ∨ cbs = handedOn handlers s.state.active apdu)) := by
  by_cases hup : s.state.initialized = true
  · cases hm : matching s.history apdu with
    | some svc =>
      rw [dispatch_matching handlers ha hup hm] at h
      cases h
      exact .inl ⟨svc, rfl, rfl, rfl⟩
    | none =>
      by_cases hsel : isSelectByAid apdu = true
      · rw [dispatch_unmatched handlers ha hup hsel hm] at h
        cases h
        exact .inr ⟨rfl, rfl, .inl rfl⟩
      · obtain ⟨rsp', hother⟩ := dispatch_other handlers hup (Bool.eq_false_iff.mpr hsel)
        rw [hother] at h
        cases h
        exact .inr ⟨rfl, rfl, .inr rfl⟩
  · -- a router that is down has no entries, so nothing matches
    have hdown : s.state.initialized = false := Bool.eq_false_iff.mpr hup
    have hm : matching s.history apdu = none := by
      unfold matching
      rw [ha.down hdown]
      split <;> rfl
    rw [dispatch_down handlers hdown] at h
    cases h
    exact .inr ⟨hm, rfl, .inl rfl⟩

end Dispatch

section Law

variable [DecidableEq ι] {maxAids : ℕ} {handlers : ι → Handlers} {s s' : Logged ι}
  {cbs : List (Callback ι)}

theorem router_step_dispatch
    (h : (router maxAids handlers).step s (.dispatch apdu) = some (s', cbs)) :
    ∃ rsp dirty, dispatch (logging handlers) s.state [] apdu = some (s'.state, cbs, rsp, dirty) ∧
      s'.history = (.dispatch apdu, .ok ()) :: s.history := by
  obtain ⟨⟨st', ret, cs⟩, hrun, heq⟩ := map_eq_some_iff.mp h
  obtain ⟨⟨st'', cs', rsp, dirty⟩, hd, hr⟩ := map_eq_some_iff.mp hrun
  cases hr
  cases heq
  exact ⟨rsp, dirty, hd, rfl⟩

theorem Agrees.dispatch (ha : Agrees s)
    (h : (router maxAids handlers).step s (.dispatch apdu) = some (s', cbs)) : Agrees s' := by
  obtain ⟨rsp, dirty, hd, hhist⟩ := router_step_dispatch h
  have hlast : lastSelected s'.history = (matching s.history apdu).or (lastSelected s.history) := by
    rw [hhist]
    rfl
  have hreg : registered s'.history = registered s.history := by
    rw [hhist]
    rfl
  obtain ⟨svc, hm, hst, -⟩ | ⟨hm, hst, -⟩ := dispatch_cases handlers ha apdu hd
  · rw [hm, some_or] at hlast
    refine ⟨?_, ?_, ?_, ?_⟩
    · rw [hst, hreg]
      exact ha.table
    · rw [hst, hlast]
    · rw [hst, hreg]
      exact ha.down
    · intro svc' hsvc'
      rw [hlast, some_inj] at hsvc'
      rw [hreg, ← hsvc']
      exact registered_of_matching hm
  · rw [hm] at hlast
    refine ⟨?_, ?_, ?_, ?_⟩
    · rw [hst, hreg]
      exact ha.table
    · rw [hst, hlast]
      exact ha.active
    · rw [hst, hreg]
      exact ha.down
    · rw [hlast, hreg]
      exact ha.selected

variable {c : Call ι}

theorem Agrees.step (ha : Agrees s)
    (h : (router maxAids handlers).step s c = some (s', cbs)) : Agrees s' := by
  cases c with
  | init =>
    cases h
    by_cases hup : s.state.initialized = true
    · -- already initialised: nothing changes
      simp only [init, hup, if_true]
      exact ⟨ha.table, ha.active, ha.down, ha.selected⟩
    · -- the table starts anew; nothing can have been selected while the router was down
      have hdown : s.state.initialized = false := Bool.eq_false_iff.mpr hup
      have hnone := ha.lastSelected_down hdown
      simp only [init, hdown, Bool.false_eq_true, if_false]
      refine ⟨rfl, hnone.symm, fun _ => rfl, ?_⟩
      intro svc hsvc
      have hlast : lastSelected s.history = some svc := hsvc
      rw [hnone] at hlast
      cases hlast
  | register entry =>
    cases h
    obtain ⟨e, hreg⟩ | ⟨hup, hreg⟩ := register_cases maxAids s.state entry
    · rw [hreg]
      exact ⟨ha.table, ha.active, ha.down, ha.selected⟩
    · rw [hreg]
      refine ⟨?_, ha.active, ?_, ?_⟩
      · show s.state.table ++ [entry] = registered s.history ++ [entry]
        rw [ha.table]
      · intro hdown
        have hup' : s.state.initialized = false := hdown
        rw [hup] at hup'
        cases hup'
      · intro svc hsvc
        obtain ⟨e, he, hesvc⟩ := ha.selected svc hsvc
        exact ⟨e, mem_append_left _ he, hesvc⟩
  | clear =>
    cases h
    exact ⟨rfl, rfl, fun _ => rfl, fun _ hsvc => by cases hsvc⟩
  | shutdown =>
    cases h
    exact ⟨rfl, rfl, fun _ => rfl, fun _ hsvc => by cases hsvc⟩
  | fieldOff =>
    cases h
    exact ⟨ha.table, rfl, ha.down, fun _ hsvc => by cases hsvc⟩
  | dispatch apdu => exact ha.dispatch h

/-- What holds of a call to the router, of the handlers it calls, and of the router after it. -/
structure Lawful (handlers : ι → Handlers) (s : Logged ι) (c : Call ι) (s' : Logged ι)
    (cbs : List (Callback ι)) : Prop where
  /-- The active service is none or that of a registered entry. -/
  active_registered : ∀ svc, s'.state.active = some svc → ∃ e ∈ registered s'.history, e.svc = svc
  /-- `on_apdu` is called on the service of the most recent matching SELECT only. -/
  apdu_selected : ∀ svc apdu, .apdu svc apdu ∈ cbs → lastSelected s.history = some svc
  /-- A SELECT that moves to another service: first `on_deselect`, then `on_select`. -/
  deselect_first : ∀ apdu old new, c = .dispatch apdu → matching s.history apdu = some new →
    s.state.active = some old → old ≠ new →
    cbs = called (handlers old).deselect (.deselect old) ++
        called (handlers new).select (.select new apdu.data) ∧
      s'.state.active = some new
  /-- A SELECT without a match leaves the active service as it is. -/
  unmatched_keeps : ∀ apdu, c = .dispatch apdu → isSelectByAid apdu = true →
    matching s.history apdu = none → s'.state.active = s.state.active
  /-- Among entries with the same identifier the first one wins. -/
  first_wins : ∀ apdu before e after, c = .dispatch apdu → isSelectByAid apdu = true →
    registered s.history = before ++ e :: after → e.aid = selectedAid apdu →
    (∀ e' ∈ before, e'.aid ≠ selectedAid apdu) → s'.state.active = some e.svc

variable (st : State ι)

theorem leave_logging (svc : ι) :
    leave (logging handlers) st [] svc = st.active.elim [] fun old =>
      if old ≠ svc then called (handlers old).deselect (.deselect old) else [] := by
  unfold leave
  cases st.active with
  | none => rfl
  | some old => simp [callDeselect_logging]

theorem apdu_not_mem_leave (next svc : ι) (apdu : Apdu) :
    .apdu svc apdu ∉ leave (logging handlers) st [] next := by
  rw [leave_logging]
  cases st.active with
  | none => exact not_mem_nil
  | some old =>
    rw [elim_some]
    split
    · exact apdu_not_mem_called (by simp)
    · exact not_mem_nil

theorem apdu_active (ha : Agrees s) (h : (router maxAids handlers).step s c = some (s', cbs))
    {svc : ι} (hmem : .apdu svc apdu ∈ cbs) : s.state.active = some svc := by
  cases c with
  | init => cases h; cases hmem
  | register entry => cases h; cases hmem
  | clear => cases h; cases hmem
  | shutdown => cases h; cases hmem
  | fieldOff =>
    -- only `on_field_off` is called
    cases h
    exfalso
    simp only [fieldOff] at hmem
    cases hactive : s.state.active with
    | none =>
      rw [hactive] at hmem
      cases hmem
    | some old =>
      rw [hactive] at hmem
      simp only [callFieldOff_logging, nil_append] at hmem
      exact apdu_not_mem_called (by simp) hmem
  | dispatch command =>
    obtain ⟨rsp, dirty, hd, -⟩ := router_step_dispatch h
    obtain ⟨next, -, -, hcbs⟩ | ⟨-, -, hcbs⟩ := dispatch_cases handlers ha command hd
    · rw [hcbs] at hmem
      rcases mem_append.mp hmem with hmem | hmem
      · exact absurd hmem (apdu_not_mem_leave _ _ _ _)
      · exact absurd hmem (apdu_not_mem_called (by simp))
    · rcases hcbs with rfl | rfl
      · cases hmem
      · unfold handedOn at hmem
        cases hactive : s.state.active with
        | none =>
          rw [hactive] at hmem
          cases hmem
        | some old =>
          rw [hactive, elim_some, called] at hmem
          split at hmem
          · cases mem_singleton.mp hmem
            rfl
          · cases hmem

theorem step_of_matching (ha : Agrees s) {svc : ι}
    (h : (router maxAids handlers).step s (.dispatch apdu) = some (s', cbs))
    (hm : matching s.history apdu = some svc) : s'.state = { s.state with active := some svc } ∧
      cbs = leave (logging handlers) s.state [] svc ++
        called (handlers svc).select (.select svc apdu.data) := by
  obtain ⟨rsp, dirty, hd, -⟩ := router_step_dispatch h
  obtain ⟨svc', hm', hst, hcbs⟩ | ⟨hm', -, -⟩ := dispatch_cases handlers ha apdu hd
  · obtain rfl : svc = svc' := some.inj (hm.symm.trans hm')
    exact ⟨hst, hcbs⟩
  · cases hm.symm.trans hm'

theorem step_of_unmatched (ha : Agrees s)
    (h : (router maxAids handlers).step s (.dispatch apdu) = some (s', cbs))
    (hm : matching s.history apdu = none) : s'.state = s.state := by
  obtain ⟨rsp, dirty, hd, -⟩ := router_step_dispatch h
  obtain ⟨svc, hm', -, -⟩ | ⟨-, hst, -⟩ := dispatch_cases handlers ha apdu hd
  · cases hm.symm.trans hm'
  · exact hst

theorem Agrees.lawful (ha : Agrees s)
    (h : (router maxAids handlers).step s c = some (s', cbs)) : Lawful handlers s c s' cbs := by
  have ha' := ha.step h
  refine ⟨?_, ?_, ?_, ?_, ?_⟩
  · intro svc hsvc
    rw [ha'.active] at hsvc
    exact ha'.selected svc hsvc
  · intro svc apdu hmem
    rw [← ha.active]
    exact apdu_active ha h hmem
  · rintro apdu old new rfl hm hold hne
    obtain ⟨hst, hcbs⟩ := step_of_matching ha h hm
    rw [hcbs, hst, leave_logging, hold, elim_some, if_pos hne]
    exact ⟨rfl, rfl⟩
  · rintro apdu rfl - hm
    rw [step_of_unmatched ha h hm]
  · rintro apdu before e after rfl hsel hreg haid hbefore
    -- the table is searched from its start, so the entries before `e` are passed over
    have hfirst : before.find? (·.aid == selectedAid apdu) = none := by
      rw [find?_eq_none]
      intro e' he'
      simpa using hbefore e' he'
    have hm : matching s.history apdu = some e.svc := by
      rw [matching, if_pos hsel, hreg, find?_append, hfirst, find?_cons_of_pos (by simp [haid])]
      rfl
    rw [(step_of_matching ha h hm).1]

theorem router_step_defined (maxAids : ℕ) (handlers : ι → Handlers) (s : Logged ι) (c : Call ι) :
    ∃ s' cbs, (router maxAids handlers).step s c = some (s', cbs) := by
  cases c with
  | dispatch apdu =>
    have hdefined : ∃ r, dispatch (logging handlers) s.state [] apdu = some r := by
      unfold dispatch select
      split
      · exact ⟨_, rfl⟩
      split
      · split
        · exact ⟨_, rfl⟩
        · rw [callSelect_logging]
          exact ⟨_, rfl⟩
      · split
        · exact ⟨_, rfl⟩
        · rw [callApdu_logging]
          exact ⟨_, rfl⟩
    obtain ⟨r, hr⟩ := hdefined
    refine ⟨⟨r.1, (.dispatch apdu, .ok ()) :: s.history⟩, r.2.1, ?_⟩
    simp only [router, runCall, hr, map_some]
  | _ => exact ⟨_, _, rfl⟩

end Law

/-- Every call of every history is lawful, whatever handlers the services have. -/
theorem trace_law [DecidableEq ι] (maxAids : ℕ) (handlers : ι → Handlers) (cs : List (Call ι)) :
    (router maxAids handlers).Always
      (fun s c out => ∃ s' cbs, out = some (s', cbs) ∧ Lawful handlers s c s' cbs)
      Logged.boot cs := by
  have hstep : ∀ (s : Logged ι) (c : Call ι), Agrees s → True →
      ∃ s' cbs, (router maxAids handlers).step s c = some (s', cbs) ∧
        Lawful handlers s c s' cbs := by
    intro s c ha _
    obtain ⟨s', cbs, hnext⟩ := router_step_defined maxAids handlers s c
    exact ⟨s', cbs, hnext, ha.lawful hnext⟩
  exact Machine.Always.imp _ hstep (fun s c s' cbs ha _ hnext => ha.step hnext) agrees_boot
    (Machine.Always.trivial _ _ _)

end NfcStack.Router
