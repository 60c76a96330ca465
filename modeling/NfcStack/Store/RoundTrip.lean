import NfcStack.Store.Correct

/-!
# Saving and loading services

A save writes one entry for every service that gives a stored form; a load of the same
slot hands these bytes back to the same services in the same order. In between the
slot is left alone by everything but a save under its own name.
-/

namespace NfcStack.Store

open List

variable {cfg : Config} {μ : Type}

/-- The services that a save takes an entry from, in order, each with the bytes that its serialiser
gives. A service without a serialiser or a persist id, or one that answers ENOTSUP, is skipped. -/
def collect (outMax : ℕ) : List (Service μ) → μ → List (Service μ × Bytes)
  | [], _ => []
  | svc :: svcs, m =>
    match svc.serialize with
    | none => collect outMax svcs m
    | some serialize =>
      if svc.persistId = 0 then collect outMax svcs m
      else
        match serialize m outMax with
        | some (m, .ok body) => (svc, body) :: collect outMax svcs m
        | some (m, .error .enotsup) => collect outMax svcs m
        | _ => []

def deliver : List (Service μ × Bytes) → μ → Option (μ × Bool)
  | [], m => some (m, true)
  | (svc, body) :: calls, m =>
    match svc.callDeserialize m body with
    | none => none
    | some (m, ret) => (deliver calls m).map fun r => (r.1, ret == .ok () && r.2)

def entryOf (call : Service μ × Bytes) : Entry := ⟨call.1.persistId, call.2⟩

def payloadOf (calls : List (Service μ × Bytes)) : Bytes :=
  calls.flatMap fun call => writeEntry call.1.persistId call.2

theorem collect_sublist (outMax : ℕ) (svcs : List (Service μ)) (m : μ) :
    ((collect outMax svcs m).map Prod.fst).Sublist svcs := by
  induction svcs generalizing m with
  | nil => exact .slnil
  | cons svc svcs ih =>
    simp only [collect]
    split
    · exact (ih m).cons svc
    split
    · exact (ih m).cons svc
    split
    · next m₁ body _ => exact (ih m₁).cons_cons svc
    · next m₁ _ => exact (ih m₁).cons svc
    · exact nil_sublist _

variable {svcs : List (Service μ)} {m m' : μ}

theorem saveEntries_payload {payload payload' : Bytes}
    (h : saveEntries cfg svcs payload m = some (m', .ok payload')) :
    payload' = payload ++ payloadOf (collect cfg.blobSize svcs m) := by
  induction svcs generalizing payload m with
  | nil =>
    cases h
    simp [collect, payloadOf]
  | cons svc svcs ih =>
    -- `collect` skips and stops where `saveEntries` does
    simp only [saveEntries] at h
    simp only [collect]
    cases hser : svc.serialize with
    | none =>
      simp only [hser] at h
      exact ih h
    | some serialize =>
      simp only [hser] at h
      by_cases hpid : svc.persistId = 0
      · simp only [if_pos hpid] at h ⊢
        exact ih h
      · simp only [if_neg hpid] at h ⊢
        cases hm : serialize m cfg.blobSize with
        | none => simp [hm] at h
        | some r =>
          obtain ⟨m₁, r⟩ := r
          cases r with
          | error e =>
            cases e <;> simp [hm] at h
            exact ih h
          | ok body =>
            simp only [hm] at h
            split at h
            · simp at h
            · rw [ih h]
              simp [payloadOf]

variable {calls : List (Service μ × Bytes)}

theorem length_of_mem_collect {call : Service μ × Bytes}
    (h : call ∈ calls) : call.2.length ≤ (payloadOf calls).length := by
  induction calls with
  | nil => cases h
  | cons first calls ih =>
    have hcons : (payloadOf (first :: calls)).length =
        (writeEntry first.1.persistId first.2).length + (payloadOf calls).length := by
      simp [payloadOf]
    rcases mem_cons.mp h with rfl | h
    · rw [hcons]
      simp only [writeEntry, length_append]
      omega
    · have := ih h
      omega

theorem entries_payloadOf (h : (payloadOf calls).length < 2 ^ 16) :
    entries version (payloadOf calls) = (calls.map entryOf, true) := by
  induction calls with
  | nil => rfl
  | cons call calls ih =>
    have hbody : call.2.length < 2 ^ 16 :=
      (length_of_mem_collect mem_cons_self).trans_lt h
    have hrest : (payloadOf calls).length < 2 ^ 16 := by
      simp only [payloadOf, flatMap_cons, length_append] at h ⊢
      omega
    have htake := takeEntry_writeEntry call.1.persistId hbody (payloadOf calls)
    show entries version (writeEntry call.1.persistId call.2 ++ payloadOf calls) = _
    rw [entries_of_takeEntry htake, ih hrest]
    rfl

theorem find_service (hids : (svcs.map (·.persistId)).Nodup) {svc : Service μ} (h : svc ∈ svcs) :
    svcs.find? (·.persistId == svc.persistId) = some svc := by
  induction svcs with
  | nil => cases h
  | cons first svcs ih =>
    obtain ⟨hfirst, hids⟩ := nodup_cons.mp hids
    rcases mem_cons.mp h with rfl | h
    · simp
    · have hne : first.persistId ≠ svc.persistId := by
        intro heq
        apply hfirst
        show first.persistId ∈ svcs.map (·.persistId)
        rw [heq]
        exact mem_map_of_mem h
      rw [find?_cons_of_neg (by simpa using hne)]
      exact ih hids h

theorem dispatchAll_entryOf (hids : (svcs.map (·.persistId)).Nodup)
    (hmem : ∀ call ∈ calls, call.1 ∈ svcs) (m : μ) :
    dispatchAll svcs (calls.map entryOf) m = deliver calls m := by
  induction calls generalizing m with
  | nil => rfl
  | cons call calls ih =>
    have hfind := find_service hids (hmem call mem_cons_self)
    have hrest := ih fun c hc => hmem c (mem_cons_of_mem call hc)
    have hentry : dispatchEntry svcs m (entryOf call) = call.1.callDeserialize m call.2 := by
      simp only [dispatchEntry, entryOf, hfind]
    simp only [map_cons, dispatchAll, deliver, hentry]
    cases call.1.callDeserialize m call.2 with
    | none => rfl
    | some r => simp [hrest]

inductive Later (crc : Bytes → UInt16) (tag : TagName) (st : State cfg) : State cfg → Prop
  | refl : Later crc tag st st
  | save {st₁ st₂ : State cfg} {ν : Type} (started : Bool) (svcs : List (Service ν)) (m m' : ν)
      (other : TagName) (ret : Ret) : Later crc tag st st₁ → other ≠ tag →
      Store.save crc started st₁ svcs m other = some (st₂, m', ret) → Later crc tag st st₂
  | ramImport {st₁ : State cfg} (other : TagName) (blob : Bytes) : Later crc tag st st₁ →
      other ≠ tag → Later crc tag st (ramImport crc st₁ other blob).1
  | init {st₁ : State cfg} : Later crc tag st st₁ → Later crc tag st (init st₁).1
  | ramInit {st₁ : State cfg} : Later crc tag st st₁ → Later crc tag st (ramInit st₁).1
  | shutdown {st₁ : State cfg} : Later crc tag st st₁ → Later crc tag st (shutdown st₁)

theorem findIdx?_set_of_eq {α : Type} (p : α → Bool) {l : List α} {i : ℕ} {x : α}
    (h : ∀ y, l[i]? = some y → p x = p y) : (l.set i x).findIdx? p = l.findIdx? p := by
  have hmap : (l.set i x).map p = l.map p := by
    apply ext_getElem?
    intro j
    rw [getElem?_map, getElem?_map, getElem?_set]
    split
    · next hij =>
      subst hij
      split
      · next hi =>
        rw [getElem?_eq_getElem hi]
        exact congrArg some (h _ (getElem?_eq_getElem hi))
      · next hi => rw [getElem?_eq_none (Nat.not_lt.mp hi)]
    · rfl
  have hid : ∀ l : List α, l.findIdx? p = (l.map p).findIdx? id := by
    intro l
    rw [findIdx?_map]
    rfl
  rw [hid, hid, hmap]

variable {tag : TagName} {st : State cfg} {blob : Bytes} {other : TagName}

theorem ramLoad_ramSave_of_ne
    (hne : other ≠ tag) : ramLoad (ramSave st other blob).1 tag = ramLoad st tag := by
  obtain ⟨e, herr⟩ | ⟨i, -, -, hi, hsave⟩ := ramSave_cases st other blob
  · rw [herr]
  rw [hsave]
  obtain ⟨⟨old, hold, htag⟩, -⟩ := slot_spec hi
  -- neither what was in the slot nor what is there now has the name
  have hother : (old.occupied && old.tag == tag) = false := by
    cases hocc : old.occupied with
    | false => rfl
    | true => simp [htag hocc, hne]
  have hfind : findTag (st.slots.set i ⟨other, blob, true⟩) tag = findTag st.slots tag := by
    apply findIdx?_set_of_eq
    intro s hs
    obtain rfl : old = s := Option.some.inj (hold.symm.trans hs)
    rw [hother]
    simpa using hne
  simp only [ramLoad, hfind]
  cases hj : findTag st.slots tag with
  | none => rfl
  | some j =>
    have hij : i ≠ j := by
      rintro rfl
      obtain ⟨hlt, hp, -⟩ := findIdx?_eq_some_iff_getElem.mp hj
      obtain rfl : old = _ := Option.some.inj (hold.symm.trans (getElem?_eq_getElem hlt))
      rw [hother] at hp
      cases hp
    simp [CArray.get?_set_ne _ hij]

variable {crc : Bytes → UInt16} {st' : State cfg} {started : Bool}

theorem save_state {ret : Ret} (h : save crc started st svcs m tag = some (st', m', ret)) :
    st' = st ∨ ∃ blob, st' = (ramSave st tag blob).1 := by
  obtain ⟨rfl, -⟩ | ⟨-, r, -, ⟨rfl, -⟩ | ⟨payload, -, -, rfl, -⟩⟩ := save_cases h
  · exact .inl rfl
  · exact .inl rfl
  · cases hcb : st.saveCb with
    | inert => exact .inl (by simp only [callSave, hcb])
    | ram => exact .inr ⟨writeBlob crc payload, by simp only [callSave, hcb]⟩

theorem resolvedMaxTagLen_ramSave (st : State cfg) (tag : TagName) (blob : Bytes) :
    (ramSave st tag blob).1.resolvedMaxTagLen = st.resolvedMaxTagLen := by
  obtain ⟨e, herr⟩ | ⟨i, -, -, -, hsave⟩ := ramSave_cases st tag blob
  · rw [herr]
  · rw [hsave]

structure Kept (tag : TagName) (blob : Bytes) (st : State cfg) : Prop where
  stored : ramLoad st tag = .ok blob
  short : tag.length < st.resolvedMaxTagLen

variable (h : Kept tag blob st) (hlen : tag.length < cfg.maxTagLen)

include h hlen

theorem Kept.init : Kept tag blob (init st).1 := by
  unfold Store.init
  split
  · exact h
  · exact ⟨h.stored, hlen⟩

theorem Kept.ramInit : Kept tag blob (ramInit st).1 := by
  have hinit := h.init hlen
  unfold Store.ramInit
  split
  · exact h
  · exact ⟨hinit.stored, hinit.short⟩

omit h hlen

theorem Kept.ramSave (h : Kept tag blob st) (hne : other ≠ tag) (blob' : Bytes) :
    Kept tag blob (ramSave st other blob').1 := by
  refine ⟨?_, ?_⟩
  · rw [ramLoad_ramSave_of_ne hne]
    exact h.stored
  · rw [resolvedMaxTagLen_ramSave]
    exact h.short

theorem Later.kept (hlater : Later crc tag st st') (hlen : tag.length < cfg.maxTagLen)
    (h : Kept tag blob st) : Kept tag blob st' := by
  induction hlater with
  | refl => exact h
  | save started svcs m m' other ret _ hne hsave ih =>
    rcases save_state hsave with rfl | ⟨blob', rfl⟩
    · exact ih
    · exact ih.ramSave hne blob'
  | ramImport other blob' _ hne ih =>
    unfold Store.ramImport
    split
    · exact ih
    · exact (ih.ramInit hlen).ramSave hne blob'
  | init _ ih => exact ih.init hlen
  | ramInit _ ih => exact ih.ramInit hlen
  | shutdown _ ih => exact ⟨ih.stored, ih.short⟩

theorem save_stores (hram : st.saveCb = .ram)
    (h : save crc started st svcs m tag = some (st', m', .ok ())) :
    tag.length < cfg.maxTagLen ∧ 0 < tag.length ∧
      (payloadOf (collect cfg.blobSize svcs m)).length < 2 ^ 16 ∧
      Kept tag (writeBlob crc (payloadOf (collect cfg.blobSize svcs m))) st' := by
  obtain ⟨hvalid, payload, hentries, hsize, hcall⟩ := save_ok h
  obtain rfl : payload = payloadOf (collect cfg.blobSize svcs m) := by
    simpa using saveEntries_payload hentries
  have hrange := cfg.blobSize_range
  simp only [State.validTag, Bool.and_eq_true, decide_eq_true_eq] at hvalid
  simp only [callSave, hram] at hcall
  have hstored := ramLoad_ramSave hcall
  obtain ⟨e, herr⟩ | ⟨i, hlen, -, -, hsave⟩ := ramSave_cases st tag
    (writeBlob crc (payloadOf (collect cfg.blobSize svcs m)))
  · rw [herr] at hcall
    cases hcall
  · obtain ⟨rfl, -⟩ := Prod.mk.inj (hsave.symm.trans hcall)
    exact ⟨hlen, hvalid.1, by omega, hstored, hvalid.2⟩

theorem load_of_kept (crc : Bytes → UInt16) (hids : (svcs.map (·.persistId)).Nodup)
    (hmem : ∀ call ∈ calls, call.1 ∈ svcs) (hpos : 0 < tag.length)
    (hfit : (payloadOf calls).length < 2 ^ 16)
    (hkept : Kept tag (writeBlob crc (payloadOf calls)) st) (hup : st.initialized = true)
    (hram : st.loadCb = .ram) (m : μ) :
    load crc false st svcs m tag = (deliver calls m).map fun r => (r.1, verdict r.2) := by
  have hvalid : st.validTag tag = true := by
    simp [State.validTag, hpos, hkept.short]
  have henv : readEnvelope crc st tag = .ok (version, payloadOf calls) := by
    simp only [readEnvelope, callLoad, hram, hkept.stored, openEnvelope_writeBlob crc hfit]
  unfold load
  simp only [Bool.false_eq_true, if_false, hup, hvalid, not_true_eq_false, henv]
  rw [loadEntries_eq]
  show (dispatchAll svcs (entries version (payloadOf calls)).1 m).map
    (fun r => (r.1, verdict (!false && r.2 && (entries version (payloadOf calls)).2))) = _
  rw [entries_payloadOf hfit, dispatchAll_entryOf hids hmem]
  simp

/-- A load after a save of the same services under the same name hands every service that was saved its
bytes, once and in the order of the save, and calls nothing else. While the stack is started it is
refused. -/
theorem load_of_save (crc : Bytes → UInt16) {started started' : Bool} {st st₁ st₂ : State cfg}
    {svcs : List (Service μ)} {m m₁ : μ} {tag : TagName}
    (hids : (svcs.map (·.persistId)).Nodup) (hram : st.saveCb = .ram)
    (hsave : save crc started st svcs m tag = some (st₁, m₁, .ok ()))
    (hlater : Later crc tag st₁ st₂) (hup : st₂.initialized = true) (hram' : st₂.loadCb = .ram)
    (m₂ : μ) :
    ((collect cfg.blobSize svcs m).map Prod.fst).Sublist svcs ∧
      load crc started' st₂ svcs m₂ tag =
        if started' then some (m₂, .error .ebusy)
        else (deliver (collect cfg.blobSize svcs m) m₂).map fun r => (r.1, verdict r.2) := by
  obtain ⟨hlen, hpos, hfit, hkept⟩ := save_stores hram hsave
  have hsub := collect_sublist cfg.blobSize svcs m
  refine ⟨hsub, ?_⟩
  cases started' with
  | true => rfl
  | false =>
    have hmem : ∀ call ∈ collect cfg.blobSize svcs m, call.1 ∈ svcs := fun call hcall =>
      hsub.subset (mem_map_of_mem hcall)
    exact load_of_kept crc hids hmem hpos hfit (hlater.kept hlen hkept) hup hram' m₂

/-! Three services that keep a log of the calls; the one in the middle has nothing to save. -/

def loggingService (persistId : UInt8) (stored : Bool) : Service (List (UInt8 × Bytes)) where
  persistId
  serialize := some fun log _ =>
    some (log, if stored then .ok [persistId, persistId] else .error .enotsup)
  deserialize := some fun log bytes => some (log ++ [(persistId, bytes)], .ok ())

def loggingServices : List (Service (List (UInt8 × Bytes))) :=
  [loggingService 7 true, loggingService 2 false, loggingService 1 true]

def ramUp : State Config.default := (ramInit .boot).1

def savedLog : State Config.default :=
  (save crc16Ccitt false ramUp loggingServices [] [0x61]).elim .boot Prod.fst

def savedOther : State Config.default :=
  (save crc16Ccitt false savedLog loggingServices.tail [] [0x62]).elim .boot Prod.fst

theorem load_of_save_logging :
    save crc16Ccitt false ramUp loggingServices [] [0x61] = some (savedLog, [], .ok ()) ∧
    save crc16Ccitt false savedLog loggingServices.tail [] [0x62] =
      some (savedOther, [], .ok ()) ∧
    load crc16Ccitt false savedOther loggingServices [] [0x61] =
      some ([(7, [7, 7]), (1, [1, 1])], .ok ()) := by
  have hsave : save crc16Ccitt false ramUp loggingServices [] [0x61] =
      some (savedLog, [], .ok ()) := by decide +kernel
  have hother : save crc16Ccitt false savedLog loggingServices.tail [] [0x62] =
      some (savedOther, [], .ok ()) := by decide +kernel
  have hlater : Later crc16Ccitt [0x61] savedLog savedOther :=
    .save false loggingServices.tail [] [] [0x62] (.ok ()) .refl (by decide) hother
  refine ⟨hsave, hother, ?_⟩
  exact (load_of_save crc16Ccitt (by decide) rfl hsave hlater (by decide +kernel)
    (by decide +kernel) []).2

end NfcStack.Store
