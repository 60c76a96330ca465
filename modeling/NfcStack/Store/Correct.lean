import NfcStack.Store.Store

/-!
# What the store does

A load hands the entries of the payload to their services, in order and up to the first that is cut off. A
save of one service that succeeds leaves a blob with one entry.
-/

namespace NfcStack.Store

open List Option

variable {cfg : Config} {μ : Type}

theorem ramSave_cases (st : State cfg) (tag : TagName) (blob : Bytes) :
    (∃ e, ramSave st tag blob = (st, .error e)) ∨
      ∃ i, tag.length < cfg.maxTagLen ∧ blob.length ≤ cfg.blobSize ∧
        (findTag st.slots tag).or (findFree st.slots) = some i ∧
        ramSave st tag blob = ({ st with slots := st.slots.set i ⟨tag, blob, true⟩ }, .ok ()) := by
  by_cases htag : tag.length = 0 ∨ cfg.maxTagLen ≤ tag.length
  · exact .inl ⟨_, if_pos htag⟩
  by_cases hblob : cfg.blobSize < blob.length
  · exact .inl ⟨.enospc, by rw [ramSave, if_neg htag, if_pos hblob]⟩
  have htake : tag.take (cfg.maxTagLen - 1) = tag := take_of_length_le (by omega)
  cases hi : (findTag st.slots tag).or (findFree st.slots) with
  | none =>
    rw [ramSave, if_neg htag]
    simp [hi]
  | some i =>
    refine .inr ⟨i, by omega, by omega, rfl, ?_⟩
    rw [ramSave, if_neg htag, if_neg hblob]
    simp only [hi, htake]

variable {tag : TagName}

theorem slot_spec {slots : CArray Slot cfg.ramSlots} {i : ℕ}
    (h : (findTag slots tag).or (findFree slots) = some i) :
    (∃ s, slots.get? i = some s ∧ (s.occupied = true → s.tag = tag)) ∧
      ∀ j < i, ∀ s, slots.get? j = some s → (s.occupied && s.tag == tag) = false := by
  rcases or_eq_some_iff.mp h with hi | ⟨hnone, hi⟩
  · obtain ⟨hlt, hp, hall⟩ := findIdx?_eq_some_iff_getElem.mp hi
    simp only [Bool.and_eq_true, beq_iff_eq] at hp
    refine ⟨⟨_, getElem?_eq_getElem hlt, fun _ => hp.2⟩, ?_⟩
    intro j hj s hs
    obtain ⟨hjl, rfl⟩ := List.getElem?_eq_some_iff.mp hs
    simpa using hall j hj
  · obtain ⟨hlt, hp, -⟩ := List.findIdx?_eq_some_iff_getElem.mp hi
    simp only [Bool.not_eq_true'] at hp
    refine ⟨⟨_, getElem?_eq_getElem hlt, fun hocc => by simp [hp] at hocc⟩, ?_⟩
    intro j _ s hs
    simpa using findIdx?_eq_none_iff.mp hnone s (mem_of_getElem? hs)

variable {st st' : State cfg}

theorem ramLoad_ramSave {blob : Bytes}
    (h : ramSave st tag blob = (st', .ok ())) : ramLoad st' tag = .ok blob := by
  obtain ⟨e, herr⟩ | ⟨i, -, hblob, hi, hsave⟩ := ramSave_cases st tag blob
  · rw [herr] at h
    cases h
  obtain ⟨rfl, -⟩ := Prod.mk.inj (hsave.symm.trans h)
  obtain ⟨⟨s, hs, -⟩, hbefore⟩ := slot_spec hi
  have hlt := CArray.lt_of_get? hs
  have hfind : findTag (st.slots.set i ⟨tag, blob, true⟩) tag = some i := by
    apply findIdx?_eq_some_iff_getElem.mpr
    refine ⟨by simpa using hlt, by simp, ?_⟩
    intro j hj
    have hjl : j < st.slots.toList.length := by simp; omega
    have := hbefore j hj (st.slots.toList[j]) (getElem?_eq_getElem hjl)
    simpa [getElem_set, show i ≠ j by omega] using this
  simp only [ramLoad, hfind, CArray.get?_set_self _ hlt, if_neg (Nat.not_lt.mpr hblob)]

def dispatchAll (svcs : List (Service μ)) : List Entry → μ → Option (μ × Bool)
  | [], m => some (m, true)
  | entry :: es, m =>
    match dispatchEntry svcs m entry with
    | none => none
    | some (m, ret) => (dispatchAll svcs es m).map fun r => (r.1, ret == .ok () && r.2)

variable {svcs : List (Service μ)} {m m' : μ} {es : List Entry} {entry : Entry}

theorem dispatchAll_cons_inv {accepted : Bool}
    (h : dispatchAll svcs (entry :: es) m = some (m', accepted)) :
    ∃ m₁ ret rest, dispatchEntry svcs m entry = some (m₁, ret) ∧
      dispatchAll svcs es m₁ = some (m', rest) ∧ accepted = (ret == .ok () && rest) := by
  simp only [dispatchAll] at h
  split at h
  · cases h
  next m₁ ret hd =>
  obtain ⟨⟨m₂, rest⟩, hall, heq⟩ := map_eq_some_iff.mp h
  obtain ⟨rfl, rfl⟩ := Prod.mk.inj heq
  exact ⟨m₁, ret, rest, hd, hall, rfl⟩

theorem dispatchAll_cons_accepted (h : dispatchAll svcs (entry :: es) m = some (m', true)) :
    ∃ m₁, dispatchEntry svcs m entry = some (m₁, .ok ()) ∧
      dispatchAll svcs es m₁ = some (m', true) := by
  obtain ⟨m₁, ret, rest, hd, hall, hboth⟩ := dispatchAll_cons_inv h
  obtain ⟨hret, rfl⟩ := Bool.and_eq_true_iff.mp hboth.symm
  obtain rfl := eq_of_beq hret
  exact ⟨m₁, hd, hall⟩

def verdict (accepted : Bool) : Ret := if accepted then .ok () else .error .ebadmsg

@[simp] theorem verdict_eq_ok (accepted : Bool) : verdict accepted = .ok () ↔ accepted = true := by
  cases accepted <;> simp [verdict]

theorem loadEntries_eq (svcs : List (Service μ)) (version : UInt8) (fuel : ℕ) (rest : Bytes)
    (m : μ) (failed : Bool) :
    loadEntries svcs version fuel rest m failed =
      (dispatchAll svcs (entriesFrom version fuel rest).1 m).map fun r =>
        (r.1, verdict (!failed && r.2 && (entriesFrom version fuel rest).2)) := by
  induction fuel generalizing rest m failed with
  | zero =>
    cases rest with
    | nil => cases failed <;> rfl
    | cons b rest => simp [loadEntries, entriesFrom, dispatchAll, verdict]
  | succ fuel ih =>
    cases rest with
    | nil => cases failed <;> rfl
    | cons b rest =>
      simp only [loadEntries, entriesFrom]
      cases htake : takeEntry version (b :: rest) with
      | none => simp [dispatchAll, verdict]
      | some p =>
        simp only [dispatchAll]
        cases hd : dispatchEntry svcs m p.1 with
        | none => rfl
        | some q =>
          obtain ⟨m', ret⟩ := q
          simp only [ih, Option.map_map]
          congr 1
          funext r
          simp only [Function.comp_apply, bne]
          cases failed <;> cases ret == Except.ok () <;> rfl

variable {crc : Bytes → UInt16} {started : Bool} {ret : Ret}

theorem load_cases (h : load crc started st svcs m tag = some (m', ret)) :
    (m' = m ∧ ret ≠ .ok () ∧ (started ∨ st.initialized = false ∨ st.validTag tag = false ∨
        ∃ e, readEnvelope crc st tag = .error e)) ∨
    (st.initialized = true ∧ st.validTag tag = true ∧ ∃ version payload accepted,
      readEnvelope crc st tag = .ok (version, payload) ∧
      dispatchAll svcs (entries version payload).1 m = some (m', accepted) ∧
      (ret = .ok () ↔ accepted = true ∧ (entries version payload).2 = true)) := by
  unfold load at h
  split at h
  · next hs => cases h; exact .inl ⟨rfl, by simp, .inl hs⟩
  split at h
  · next hi => cases h; exact .inl ⟨rfl, by simp, .inr (.inl (by simpa using hi))⟩
  next hi =>
  split at h
  · next hv => cases h; exact .inl ⟨rfl, by simp, .inr (.inr (.inl (by simpa using hv)))⟩
  next hv =>
  split at h
  · next e he => cases h; exact .inl ⟨rfl, by simp, .inr (.inr (.inr ⟨e, he⟩))⟩
  next version payload he =>
  rw [loadEntries_eq] at h
  obtain ⟨⟨m₁, accepted⟩, hd, hp⟩ := map_eq_some_iff.mp h
  obtain ⟨rfl, rfl⟩ := Prod.mk.inj hp
  refine .inr ⟨by simpa using hi, by simpa using hv, version, payload, accepted, he, hd, ?_⟩
  show verdict (!false && accepted && (entries version payload).2) = _ ↔ _
  simp

def blobEntries (crc : Bytes → UInt16) (blob : Bytes) : Option (List Entry) :=
  match openEnvelope crc blob with
  | .error _ => none
  | .ok (version, payload) =>
    if (entries version payload).2 then some (entries version payload).1 else none

def lastBody (pid : UInt8) (es : List Entry) : Option Bytes :=
  (es.reverse.find? (·.persistId == pid)).map (·.body)

theorem lastBody_cons (pid : UInt8) (entry : Entry) (es : List Entry) :
    lastBody pid (entry :: es) =
      (lastBody pid es).or (if entry.persistId = pid then some entry.body else none) := by
  rw [lastBody, reverse_cons, find?_append, lastBody]
  cases es.reverse.find? (·.persistId == pid) with
  | some e => rfl
  | none =>
    by_cases hpid : entry.persistId = pid
    · simp [hpid]
    · simp [hpid]

variable {pid : UInt8} {es : List Entry}

theorem lastBody_eq_none (h : lastBody pid es = none) : ∀ entry ∈ es, entry.persistId ≠ pid := by
  intro entry hentry
  have hnone := find?_eq_none.mp (map_eq_none_iff.mp h) entry (by simpa using hentry)
  simpa using hnone

variable {body : Bytes}

theorem lastBody_mem (h : lastBody pid es = some body) :
    ∃ entry ∈ es, entry.persistId = pid ∧ entry.body = body := by
  obtain ⟨entry, hfind, hbody⟩ := map_eq_some_iff.mp h
  exact ⟨entry, by simpa using mem_of_find?_eq_some hfind, by simpa using find?_some hfind, hbody⟩

variable {payload : Bytes}

theorem readEnvelope_ok {version : UInt8} (h : readEnvelope crc st tag = .ok (version, payload)) :
    ∃ blob, callLoad st tag = .ok blob ∧ openEnvelope crc blob = .ok (version, payload) := by
  unfold readEnvelope at h
  split at h
  · cases h
  · cases h
  · next blob hblob => exact ⟨blob, hblob, h⟩

theorem blobEntries_writeBlob (crc : Bytes → UInt16) (persistId : UInt8) {body : Bytes}
    (h : (writeEntry persistId body).length < 2 ^ 16) :
    blobEntries crc (writeBlob crc (writeEntry persistId body)) = some [⟨persistId, body⟩] := by
  have hlen : body.length < 2 ^ 16 := by
    simp only [writeEntry, length_append] at h
    omega
  simp only [blobEntries, openEnvelope_writeBlob crc h, entries_writeEntry _ hlen, if_true]

variable {serialize : μ → ℕ → Option (μ × Except Errno Bytes)} {svc : Service μ}

theorem saveEntries_single (hser : svc.serialize = some serialize) (hpid : svc.persistId ≠ 0)
    (hnotsup : ∀ m₁, serialize m cfg.blobSize ≠ some (m₁, .error .enotsup))
    (h : saveEntries cfg [svc] [] m = some (m', .ok payload)) :
    ∃ body, serialize m cfg.blobSize = some (m', .ok body) ∧
      payload = writeEntry svc.persistId body := by
  simp only [saveEntries, hser, if_neg hpid, nil_append] at h
  cases hm : serialize m cfg.blobSize with
  | none => simp [hm] at h
  | some p =>
    obtain ⟨m₁, r⟩ := p
    cases r with
    | error e =>
      cases e <;> simp [hm] at h
      exact absurd hm (hnotsup m₁)
    | ok body =>
      simp only [hm] at h
      split at h
      · simp at h
      obtain ⟨rfl, hp⟩ := Prod.mk.inj (some.inj h)
      exact ⟨body, rfl, (Except.ok.inj hp).symm⟩

variable {R : μ → μ → Prop}

theorem saveEntries_rel (hrefl : ∀ m, R m m) (htrans : ∀ a b c, R a b → R b c → R a c)
    (hsvc : ∀ svc ∈ svcs, ∀ serialize, svc.serialize = some serialize →
      ∀ m outMax m' r, serialize m outMax = some (m', r) → R m m')
    {r : Except Errno Bytes} (h : saveEntries cfg svcs payload m = some (m', r)) : R m m' := by
  induction svcs generalizing payload m with
  | nil =>
    cases h
    exact hrefl _
  | cons svc svcs ih =>
    have hrest := fun s hs => hsvc s (mem_cons_of_mem svc hs)
    simp only [saveEntries] at h
    split at h
    · exact ih hrest h
    next serialize hser =>
    split at h
    · exact ih hrest h
    have hstep := hsvc svc mem_cons_self serialize hser m cfg.blobSize
    split at h
    · cases h
    · next m₁ hm => exact htrans _ _ _ (hstep m₁ _ hm) (ih hrest h)
    · next m₁ e _ hm =>
      cases h
      exact hstep _ _ hm
    · next m₁ body hm =>
      split at h
      · cases h
        exact hstep _ _ hm
      · exact htrans _ _ _ (hstep m₁ _ hm) (ih hrest h)

theorem save_cases (h : save crc started st svcs m tag = some (st', m', ret)) :
    (st' = st ∧ m' = m ∧ ret ≠ .ok ()) ∨
      (st.validTag tag = true ∧ ∃ r, saveEntries cfg svcs [] m = some (m', r) ∧
        ((st' = st ∧ ret ≠ .ok ()) ∨
          ∃ payload, r = .ok payload ∧ hdrSize + payload.length + crcSize ≤ cfg.blobSize ∧
            st' = (callSave st tag (writeBlob crc payload)).1 ∧
            (ret = .ok () → (callSave st tag (writeBlob crc payload)).2 = .ok ()))) := by
  unfold save at h
  split at h
  · cases h
    exact .inl ⟨rfl, rfl, by simp⟩
  split at h
  · cases h
    exact .inl ⟨rfl, rfl, by simp⟩
  split at h
  · cases h
    exact .inl ⟨rfl, rfl, by simp⟩
  next hvalid =>
  refine .inr ⟨by simpa using hvalid, ?_⟩
  split at h
  · cases h
  · next hentries =>
    cases h
    exact ⟨_, hentries, .inl ⟨rfl, by simp⟩⟩
  next m₁ payload hentries =>
  split at h
  · cases h
    exact ⟨_, hentries, .inl ⟨rfl, by simp⟩⟩
  next hsize =>
  split at h
  · next hcall =>
    cases h
    exact ⟨_, hentries, .inr ⟨payload, rfl, Nat.not_lt.mp hsize, by rw [hcall], by simp [hcall]⟩⟩
  · next hcall =>
    cases h
    exact ⟨_, hentries, .inr ⟨payload, rfl, Nat.not_lt.mp hsize, by rw [hcall], by simp⟩⟩

theorem save_ok (h : save crc started st svcs m tag = some (st', m', .ok ())) :
    st.validTag tag = true ∧ ∃ payload, saveEntries cfg svcs [] m = some (m', .ok payload) ∧
      hdrSize + payload.length + crcSize ≤ cfg.blobSize ∧
      callSave st tag (writeBlob crc payload) = (st', .ok ()) := by
  obtain ⟨-, -, hret⟩ | ⟨hvalid, r, hentries, ⟨-, hret⟩ | ⟨payload, rfl, hsize, rfl, hret⟩⟩ :=
    save_cases h
  · exact absurd rfl hret
  · exact absurd rfl hret
  · exact ⟨hvalid, payload, hentries, hsize, Prod.ext rfl (hret rfl)⟩

theorem save_rel (hrefl : ∀ m, R m m) (htrans : ∀ a b c, R a b → R b c → R a c)
    (hsvc : ∀ svc ∈ svcs, ∀ serialize, svc.serialize = some serialize →
      ∀ m outMax m' r, serialize m outMax = some (m', r) → R m m')
    (h : save crc started st svcs m tag = some (st', m', ret)) : R m m' := by
  obtain ⟨-, rfl, -⟩ | ⟨-, r, hentries, -⟩ := save_cases h
  · exact hrefl _
  · exact saveEntries_rel hrefl htrans hsvc hentries

def EntryFits (cfg : Config) (body : Bytes) : Prop :=
  hdrSize + (4 + body.length) + crcSize ≤ cfg.blobSize

theorem save_single (hser : svc.serialize = some serialize) (hpid : svc.persistId ≠ 0)
    (hram : st.saveCb = .ram)
    (hnotsup : ∀ m₁, serialize m cfg.blobSize ≠ some (m₁, .error .enotsup))
    (h : save crc started st [svc] m tag = some (st', m', .ok ())) :
    ∃ body blob, serialize m cfg.blobSize = some (m', .ok body) ∧ EntryFits cfg body ∧
      ramLoad st' tag = .ok blob ∧ blobEntries crc blob = some [⟨svc.persistId, body⟩] := by
  obtain ⟨-, payload, hentries, hsize, hcall⟩ := save_ok h
  obtain ⟨body, hbody, rfl⟩ := saveEntries_single hser hpid hnotsup hentries
  have hlen : (writeEntry svc.persistId body).length = 4 + body.length := by
    simp [writeEntry, le16Bytes]
    omega
  have hrange := cfg.blobSize_range
  simp only [callSave, hram] at hcall
  rw [hlen] at hsize
  exact ⟨body, _, hbody, hsize, ramLoad_ramSave hcall, blobEntries_writeBlob crc _ (by omega)⟩

end NfcStack.Store
