import NfcStack.Stack.Stack
import NfcStack.Store.Correct

/-!
# Loading a card

A load hands the entries of a blob to the listeners one after the other and does not
take back what it has done when a later entry fails. What it does leave alone is
everything but the listeners for which the blob has an entry.
-/

namespace NfcStack.Stack

open List Option

variable {cfg : Config}

/-- The listen services of a build, with `listens cfg`, or the one that an applet loads alone. -/
def servicesOf (serve : Listen → Bool) : List (Service (Listeners cfg)) :=
  ([.ndef, .desfire, .emv, .aliro].filter serve).map listenService

variable {serve : Listen → Bool} {p : Listen} {ret : Ret} {l l' : Listeners cfg}

theorem dispatchEntry_cases {entry : Store.Entry}
    (h : Store.dispatchEntry (servicesOf serve) l entry = some (l', ret)) :
    (l' = l ∧ ret = .ok () ∧ ∀ p, serve p = true → p.code ≠ entry.persistId) ∨
    ∃ p x, serve p = true ∧ p.code = entry.persistId ∧
      p.ownService.callDeserialize (p.region.get l) entry.body = some (x, ret) ∧
      l' = p.region.set l x := by
  unfold Store.dispatchEntry at h
  split at h
  · next hnone =>
    obtain ⟨rfl, rfl⟩ := Prod.mk.inj (some.inj h)
    refine .inl ⟨rfl, rfl, ?_⟩
    intro p hp
    have hmem : (listenService p : Service (Listeners cfg)) ∈ servicesOf serve :=
      mem_map_of_mem (mem_filter.mpr ⟨by cases p <;> simp, hp⟩)
    simpa [listenService_persistId] using find?_eq_none.mp hnone _ hmem
  · next svc hsome =>
    obtain ⟨p, hp, rfl⟩ := mem_map.mp (mem_of_find?_eq_some hsome)
    have hcode : p.code = entry.persistId := by
      rw [← @listenService_persistId cfg]
      simpa using find?_some hsome
    rw [listenService, Service.callDeserialize_within] at h
    obtain ⟨⟨x, ret'⟩, hx, heq⟩ := map_eq_some_iff.mp h
    obtain ⟨rfl, rfl⟩ := Prod.mk.inj heq
    exact .inr ⟨p, x, (mem_filter.mp hp).2, hcode, hx, rfl⟩

variable {es : List Store.Entry} {accepted : Bool}

theorem dispatchAll_induction {J : Listeners cfg → Prop}
    (hJ : ∀ entry ∈ es, ∀ p : Listen, p.code = entry.persistId → ∀ l x ret, J l →
      p.ownService.callDeserialize (p.region.get l) entry.body = some (x, ret) →
        J (p.region.set l x))
    (hl : J l) (h : Store.dispatchAll (servicesOf serve) es l = some (l', accepted)) : J l' := by
  induction es generalizing l accepted with
  | nil =>
    obtain ⟨rfl, -⟩ := Prod.mk.inj (some.inj h)
    exact hl
  | cons entry es ih =>
    obtain ⟨l₁, ret, rest, hd, hall, -⟩ := Store.dispatchAll_cons_inv h
    refine ih (fun e he => hJ e (mem_cons_of_mem _ he)) ?_ hall
    obtain ⟨rfl, -, -⟩ | ⟨p, x, -, hcode, hx, rfl⟩ := dispatchEntry_cases hd
    · exact hl
    · exact hJ entry mem_cons_self p hcode l x ret hl hx

theorem dispatchAll_same (hne : ∀ entry ∈ es, entry.persistId ≠ p.code)
    (h : Store.dispatchAll (servicesOf serve) es l = some (l', accepted)) : p.Same l l' := by
  refine dispatchAll_induction (J := p.Same l) ?_ rfl h
  rintro entry hentry q hq l₁ x - hl₁ -
  refine (Listen.get_set_of_ne ?_ l₁ x).trans hl₁
  rintro rfl
  exact hne entry hentry hq.symm

theorem dispatchAll_last {body : Bytes} (hp : serve p = true)
    (h : Store.dispatchAll (servicesOf serve) es l = some (l', true))
    (hlast : Store.lastBody p.code es = some body) :
    ∃ x, p.ownService.callDeserialize x body = some (p.region.get l', .ok ()) := by
  induction es generalizing l with
  | nil => simp [Store.lastBody] at hlast
  | cons entry es ih =>
    obtain ⟨l₁, hd, hall⟩ := Store.dispatchAll_cons_accepted h
    rw [Store.lastBody_cons] at hlast
    cases hrest : Store.lastBody p.code es with
    | some body' =>
      rw [hrest] at hlast
      exact ih hall (hrest.trans hlast)
    | none =>
      -- the entry at the head is the last one, and the others go elsewhere
      rw [hrest] at hlast
      split at hlast
      · next hcode =>
        obtain rfl := Option.some.inj hlast
        have hsame : p.region.get l' = p.region.get l₁ :=
          dispatchAll_same (Store.lastBody_eq_none hrest) hall
        obtain ⟨-, -, hnone⟩ | ⟨q, x, -, hq, hx, rfl⟩ := dispatchEntry_cases hd
        · exact absurd hcode.symm (hnone p hp)
        · obtain rfl : q = p := Listen.code_injective (hq.trans hcode)
          rw [Region.get_set] at hsame
          exact ⟨_, hsame ▸ hx⟩
      · cases hlast

theorem dispatchAll_ultralight
    (h : Store.dispatchAll (listenServices cfg) es l = some (l', accepted)) :
    l'.ultralight = l.ultralight := by
  refine dispatchAll_induction (J := (·.ultralight = l.ultralight)) ?_ rfl h
  rintro entry - p - l₁ x - hl₁ -
  cases p <;> exact hl₁

def Loadable (st : State cfg) : Prop :=
  (st.phase = .initialized ∨ st.phase = .stopped) ∧ listenServices cfg ≠ []

instance (st : State cfg) : Decidable (Loadable st) := inferInstanceAs (Decidable (_ ∧ _))

def walkedEntries (crc : Bytes → UInt16) (st : State cfg) (tag : Store.TagName) :
    List Store.Entry :=
  if Loadable st ∧ st.store.initialized ∧ st.store.validTag tag then
    match Store.readEnvelope crc st.store tag with
    | .error _ => []
    | .ok (version, payload) => (Store.entries version payload).1
  else []

variable {crc : Bytes → UInt16} {tag : Store.TagName} {st st' : State cfg}

theorem load_of_not_loadable (hst : ¬ Loadable st)
    (h : load crc st tag = some (st', ret)) : st' = st ∧ ret ≠ .ok () := by
  unfold load at h
  split at h
  · cases h
    exact ⟨rfl, by simp⟩
  split at h
  · cases h
    exact ⟨rfl, by simp⟩
  split at h
  · cases h
    exact ⟨rfl, by simp⟩
  · next hsvcs => exact absurd ⟨by tauto, hsvcs⟩ hst

theorem load_of_loadable (hst : Loadable st) (h : load crc st tag = some (st', ret)) :
    ∃ l, Store.load crc false st.store (listenServices cfg) st.listeners tag = some (l, ret) ∧
      st' = { st with
        listeners := l
        activeTag := if ret = .ok () then truncateTag cfg tag else st.activeTag } := by
  obtain ⟨hphase, hsvcs⟩ := hst
  have hstarted : st.phase ≠ .started := by rcases hphase with h | h <;> simp [h]
  have hbool : (st.phase == .started) = false := by simpa using hstarted
  unfold load at h
  rw [if_neg hstarted, if_neg (by tauto), if_neg hsvcs, hbool] at h
  split at h
  · cases h
  · next l e hl =>
    cases h
    exact ⟨l, hl, by simp⟩
  · next l hl =>
    cases h
    exact ⟨l, hl, by simp⟩

theorem load_spec (h : load crc st tag = some (st', ret)) :
    ∃ l accepted,
      Store.dispatchAll (listenServices cfg) (walkedEntries crc st tag) st.listeners =
        some (l, accepted) ∧
      ((ret ≠ .ok () ∧ st' = { st with listeners := l }) ∨
        (ret = .ok () ∧ accepted = true ∧ Loadable st ∧ st.store.initialized = true ∧
          st.store.validTag tag = true ∧ (∃ blob, Store.callLoad st.store tag = .ok blob ∧
            Store.blobEntries crc blob = some (walkedEntries crc st tag)) ∧
          st' = { st with listeners := l, activeTag := truncateTag cfg tag })) := by
  by_cases hst : Loadable st
  · obtain ⟨l, hl, rfl⟩ := load_of_loadable hst h
    obtain ⟨rfl, hret, hwhy⟩ | ⟨hinit, hvalid, version, payload, accepted, henv, hall, hiff⟩ :=
      Store.load_cases hl
    · have hnone : walkedEntries crc st tag = [] := by
        unfold walkedEntries
        split
        · next hcond =>
          obtain hs | hi | hv | ⟨e, he⟩ := hwhy
          · cases hs
          · simp [hi] at hcond
          · simp [hv] at hcond
          · rw [he]
        · rfl
      rw [hnone]
      exact ⟨st.listeners, true, rfl, .inl ⟨hret, by simp [hret]⟩⟩
    · have hwalk : walkedEntries crc st tag = (Store.entries version payload).1 := by
        rw [walkedEntries, if_pos ⟨hst, hinit, hvalid⟩, henv]
      rw [hwalk]
      refine ⟨l, accepted, hall, ?_⟩
      by_cases hret : ret = .ok ()
      · obtain ⟨haccepted, hwhole⟩ := hiff.mp hret
        obtain ⟨blob, hblob, hopen⟩ := Store.readEnvelope_ok henv
        have hentries : Store.blobEntries crc blob = some (Store.entries version payload).1 := by
          simp only [Store.blobEntries, hopen, hwhole, if_true]
        exact .inr ⟨hret, haccepted, hst, hinit, hvalid, ⟨blob, hblob, hentries⟩, by simp [hret]⟩
      · exact .inl ⟨hret, by simp [hret]⟩
  · obtain ⟨rfl, hret⟩ := load_of_not_loadable hst h
    have hnone : walkedEntries crc st' tag = [] := by
      rw [walkedEntries, if_neg (fun hc => hst hc.1)]
    rw [hnone]
    exact ⟨st'.listeners, true, rfl, .inl ⟨hret, rfl⟩⟩

/-- A load that fails leaves everything as it was but the listeners that an entry of the blob has
gone to. -/
theorem load_error_unchanged (crc : Bytes → UInt16) {st st' : State cfg} {tag : Store.TagName}
    {e : Errno} (h : load crc st tag = some (st', .error e)) :
    st'.activeTag = st.activeTag ∧ st'.listeners.ultralight = st.listeners.ultralight ∧
      ∀ p : Listen, (∀ entry ∈ walkedEntries crc st tag, entry.persistId ≠ p.code) →
        p.Same st.listeners st'.listeners := by
  obtain ⟨l, accepted, hall, ⟨-, rfl⟩ | ⟨hok, -⟩⟩ := load_spec h
  · exact ⟨rfl, dispatchAll_ultralight hall, fun p hp => dispatchAll_same hp hall⟩
  · cases hok

/-! A blob with an NDEF entry and the first byte of another entry. -/

def shortMessage : Bytes := [0x01] ++ List.replicate 15 0x00 ++ [0x00, 0x01, 0xD0]

def cutOffStack : State Config.default :=
  (importBlob Store.crc16Ccitt stackUp cardTag (Store.writeBlob Store.crc16Ccitt
    (Store.writeEntry PersistId.ndef.code shortMessage ++ [0x02]))).1

theorem load_error_unchanged_desfire :
    ∃ st', load Store.crc16Ccitt cutOffStack cardTag = some (st', .error .ebadmsg) ∧
      st'.activeTag = cutOffStack.activeTag ∧
      Listen.desfire.Same cutOffStack.listeners st'.listeners := by
  have hret : (load Store.crc16Ccitt cutOffStack cardTag).map (·.2) =
      some (.error .ebadmsg) := by decide +kernel
  have hwalk : (walkedEntries Store.crc16Ccitt cutOffStack cardTag).all
      (·.persistId ≠ Listen.desfire.code) = true := by decide +kernel
  obtain ⟨⟨st', ret⟩, h, rfl⟩ := map_eq_some_iff.mp hret
  obtain ⟨htag, -, hsame⟩ := load_error_unchanged Store.crc16Ccitt h
  exact ⟨st', h, htag, hsame .desfire (by simpa using hwalk)⟩

theorem load_error_changes_ndef :
    ∃ st', load Store.crc16Ccitt cutOffStack cardTag = some (st', .error .ebadmsg) ∧
      st'.listeners.ndef.model ≠ cutOffStack.listeners.ndef.model := by
  have hnlen : (load Store.crc16Ccitt cutOffStack cardTag).map
      (fun r => (r.2, r.1.listeners.ndef.model.nlen)) = some (.error .ebadmsg, 1) := by
    decide +kernel
  have hbefore : cutOffStack.listeners.ndef.model.nlen = 0 := by decide +kernel
  obtain ⟨⟨st', ret⟩, h, heq⟩ := map_eq_some_iff.mp hnlen
  obtain ⟨rfl, hafter⟩ := Prod.mk.inj heq
  refine ⟨st', h, ?_⟩
  intro hsame
  rw [hsame, hbefore] at hafter
  exact absurd hafter (by decide)

end NfcStack.Stack
