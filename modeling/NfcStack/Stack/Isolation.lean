import NfcStack.Protocols.Ndef.Capture
import NfcStack.Stack.History

/-!
# What a loaded card depends on

Two devices that load the same blob after different histories answer a reader alike, as
far as it selects applications that the blob has an entry for. A listener without an
entry still holds the card from before.
-/

namespace NfcStack

open List Option

variable {cfg : Config}

def Listen.Alike : (p : Listen) → p.Own cfg → p.Own cfg → Prop
  | .ndef, (x : Ndef.State cfg.ndef), (y : Ndef.State cfg.ndef) =>
    x.writable = y.writable ∧ x.fileSel = y.fileSel
  | .desfire, (x : Desfire.State cfg.desfire), (y : Desfire.State cfg.desfire) =>
    x.initialized = y.initialized ∧ x.session.reset = y.session.reset
  | .emv, (x : Emv.State cfg.emv), (y : Emv.State cfg.emv) => x.initialized = y.initialized
  | .aliro, (x : Aliro.State cfg.aliro), (y : Aliro.State cfg.aliro) =>
    x.workPending = y.workPending

theorem Listen.Alike.of_eq {p : Listen} {x y : p.Own cfg} (h : x = y) : p.Alike x y := by
  subst h
  cases p with
  | ndef => exact ⟨rfl, rfl⟩
  | desfire => exact ⟨rfl, rfl⟩
  | emv => exact rfl
  | aliro => exact rfl

variable {bytes : Bytes}

theorem Emv.deserialize_of_ok {cfg : Emv.Config} {x image : Emv.Image cfg}
    (h : (Emv.deserialize x bytes).2 = some (image, .ok ())) (y : Emv.Image cfg) :
    (Emv.deserialize y bytes).2 = some (image, .ok ()) := by
  unfold Emv.deserialize at h ⊢
  split at h
  · cases h
  · next hc => rwa [if_neg hc]

theorem Emv.listenerDeserialize_ok {cfg : Emv.Config} {x x' : Emv.State cfg}
    (h : Emv.listenerDeserialize x bytes = some (x', .ok ())) :
    ∃ image wire, (Emv.deserialize x.image bytes).2 = some (image, .ok ()) ∧
      Emv.rebuildWire image = some wire ∧ x' = ⟨image, .idle, x.initialized, wire⟩ := by
  unfold Emv.listenerDeserialize at h
  split at h
  · cases h
  · cases h
  · next image hd =>
    obtain ⟨wire, hwire, heq⟩ := map_eq_some_iff.mp h
    cases heq
    exact ⟨image, wire, hd, hwire, rfl⟩

theorem Listen.eq_of_deserialize {p : Listen} {x y x' y' : p.Own cfg}
    (h : p.Alike x y) (hx : p.ownService.callDeserialize x bytes = some (x', .ok ()))
    (hy : p.ownService.callDeserialize y bytes = some (y', .ok ())) : x' = y' := by
  cases p with
  | ndef =>
    obtain ⟨hw, hf⟩ := h
    obtain ⟨hokx, rfl⟩ := Ndef.listenerDeserialize_ok (some.inj hx)
    obtain ⟨-, rfl⟩ := Ndef.listenerDeserialize_ok (some.inj hy)
    have hmodel := Ndef.deserialize_of_ok hokx (Ndef.State.model y)
    rw [hmodel, hw, hf]
  | desfire =>
    obtain ⟨hi, hs⟩ := h
    have hx : (Desfire.listenerDeserialize x bytes).1 = x' :=
      congrArg Prod.fst (some.inj hx)
    have hy : (Desfire.listenerDeserialize y bytes).1 = y' :=
      congrArg Prod.fst (some.inj hy)
    rw [← hx, ← hy]
    simp only [Desfire.listenerDeserialize, Desfire.State.resetSession, hi, hs]
    rfl
  | emv =>
    obtain ⟨image, wire, hdx, hwx, rfl⟩ := Emv.listenerDeserialize_ok hx
    obtain ⟨image', wire', hdy, hwy, rfl⟩ := Emv.listenerDeserialize_ok hy
    rw [Emv.deserialize_of_ok hdx] at hdy
    cases hdy
    rw [hwx] at hwy
    cases hwy
    exact congrArg (Emv.State.mk image .idle · wire) h
  | aliro =>
    have hx : (Aliro.listenerDeserialize x bytes).1 = x' :=
      congrArg Prod.fst (some.inj hx)
    have hy : (Aliro.listenerDeserialize y bytes).1 = y' :=
      congrArg Prod.fst (some.inj hy)
    have hw : Aliro.State.workPending x = Aliro.State.workPending y := h
    rw [← hx, ← hy]
    simp only [Aliro.listenerDeserialize, hw]
    rfl

namespace Stack

variable {p : Listen}

/-- One entry that both devices accept: listeners stay alike, and the one that reads it, as well as
one that is the same already, is the same afterwards. -/
theorem dispatchEntry_alike {l₁ l₂ l₁' l₂' : Listeners cfg} {entry : Store.Entry}
    (h : p.Alike (p.region.get l₁) (p.region.get l₂))
    (h₁ : Store.dispatchEntry (listenServices cfg) l₁ entry = some (l₁', .ok ()))
    (h₂ : Store.dispatchEntry (listenServices cfg) l₂ entry = some (l₂', .ok ())) :
    p.Alike (p.region.get l₁') (p.region.get l₂') ∧
      ((listens cfg p = true ∧ entry.persistId = p.code) ∨ p.Same l₁ l₂ → p.Same l₁' l₂') := by
  by_cases hp : listens cfg p = true ∧ entry.persistId = p.code
  · have hread : ∀ {l l' : Listeners cfg},
        Store.dispatchEntry (listenServices cfg) l entry = some (l', .ok ()) →
        p.ownService.callDeserialize (p.region.get l) entry.body =
          some (p.region.get l', .ok ()) := by
      intro l l' hd
      obtain ⟨-, -, hnone⟩ | ⟨q, x, -, hq, hx, rfl⟩ := dispatchEntry_cases hd
      · exact absurd hp.2.symm (hnone p hp.1)
      · obtain rfl : q = p := Listen.code_injective (hq.trans hp.2)
        rw [Region.get_set]
        exact hx
    have heq := Listen.eq_of_deserialize h (hread h₁) (hread h₂)
    exact ⟨.of_eq heq, fun _ => heq.symm⟩
  · have hkeep : ∀ {l l' : Listeners cfg},
        Store.dispatchEntry (listenServices cfg) l entry = some (l', .ok ()) →
        p.region.get l' = p.region.get l := by
      intro l l' hd
      obtain ⟨rfl, -, -⟩ | ⟨q, x, hq, hcode, -, rfl⟩ := dispatchEntry_cases hd
      · rfl
      · apply Listen.get_set_of_ne
        rintro rfl
        exact hp ⟨hq, hcode.symm⟩
    rw [Listen.Same, Listen.Same, hkeep h₁, hkeep h₂]
    exact ⟨h, fun hsame => hsame.resolve_left hp⟩

theorem dispatchAll_alike {es : List Store.Entry} {l₁ l₂ l₁' l₂' : Listeners cfg}
    (h : p.Alike (p.region.get l₁) (p.region.get l₂))
    (h₁ : Store.dispatchAll (listenServices cfg) es l₁ = some (l₁', true))
    (h₂ : Store.dispatchAll (listenServices cfg) es l₂ = some (l₂', true))
    (hp : (listens cfg p = true ∧ ∃ entry ∈ es, entry.persistId = p.code) ∨ p.Same l₁ l₂) :
    p.Same l₁' l₂' := by
  induction es generalizing l₁ l₂ with
  | nil =>
    cases h₁
    cases h₂
    obtain ⟨-, entry, hmem, -⟩ | hsame := hp
    · cases hmem
    · exact hsame
  | cons entry es ih =>
    obtain ⟨m₁, hd₁, ha₁⟩ := Store.dispatchAll_cons_accepted h₁
    obtain ⟨m₂, hd₂, ha₂⟩ := Store.dispatchAll_cons_accepted h₂
    obtain ⟨halike, hsame⟩ := dispatchEntry_alike h hd₁ hd₂
    refine ih halike ha₁ ha₂ ?_
    obtain ⟨hl, e, hmem, hcode⟩ | heq := hp
    · rcases mem_cons.mp hmem with rfl | hmem
      · exact .inr (hsame (.inl ⟨hl, hcode⟩))
      · exact .inl ⟨hl, e, hmem, hcode⟩
    · exact .inr (hsame (.inr heq))

structure SameOn (E : Listen → Prop) (l l' : Listeners cfg) : Prop where
  same : ∀ p, E p → p.Same l l'
  work : ¬ E .aliro → l.aliro.workPending = false ∧ l'.aliro.workPending = false

variable {E : Listen → Prop} {l l' : Listeners cfg}

theorem SameOn.set (h : SameOn E l l') (hp : E p)
    (x : p.Own cfg) : SameOn E (p.region.set l x) (p.region.set l' x) where
  same q hq := by
    by_cases hqp : q = p
    · subst hqp
      rw [Listen.Same, Region.get_set, Region.get_set]
    · rw [Listen.Same, Listen.get_set_of_ne hqp, Listen.get_set_of_ne hqp]
      exact h.same q hq
  work ha := by
    have hne : Listen.aliro ≠ p := by
      rintro rfl
      exact ha hp
    have hl : (p.region.set l x).aliro = l.aliro := Listen.get_set_of_ne hne l x
    have hl' : (p.region.set l' x).aliro = l'.aliro := Listen.get_set_of_ne hne l' x
    rw [hl, hl']
    exact h.work ha

variable {α : Type}

theorem SameOn.call (h : SameOn E l l') (hp : E p) (f : p.Own cfg → Option (p.Own cfg × α)) :
    Machine.Matches (SameOn E) ((f (p.region.get l)).map fun x => (p.region.set l x.1, x.2))
      ((f (p.region.get l')).map fun x => (p.region.set l' x.1, x.2)) := by
  rw [h.same p hp]
  cases f (p.region.get l) with
  | none => exact .none
  | some x => exact .some x.2 (h.set hp x.1)

structure Twin (E : Listen → Prop) (s t : State cfg) : Prop where
  assembler : t.assembler = s.assembler
  router : t.router = s.router
  table : s.router.table = listenProfiles cfg
  active : ∀ p, s.router.active = some p → E p
  listeners : SameOn E s.listeners t.listeners
  live : s.activeTag ≠ [] ∧ s.store.initialized = true
  live' : t.activeTag ≠ [] ∧ t.store.initialized = true

def selects (cfg : Config) : ReaderEvent → Option Listen
  | .apdu bytes =>
    match Framing.apduParse cfg.extendedApdu bytes with
    | none => none
    | some apdu =>
      if Router.isSelectByAid apdu then
        ((listenProfiles cfg).find? (·.aid == apdu.data)).map (·.svc)
      else none
  | _ => none

structure TwinOutcome (E : Listen → Prop) (a b : Router.Outcome Listen (Listeners cfg)) : Prop where
  router : b.1 = a.1
  table : a.1.table = listenProfiles cfg
  active : ∀ p, a.1.active = some p → E p
  listeners : SameOn E a.2.1 b.2.1
  response : b.2.2 = a.2.2
  dirty : ∀ p, a.2.2.2 = some p → E p

theorem TwinOutcome.of_matches {x y : Option (Listeners cfg × α)}
    {f g : Listeners cfg × α → Router.Outcome Listen (Listeners cfg)}
    (h : Machine.Matches (SameOn E) x y)
    (hfg : ∀ l l' a, SameOn E l l' → TwinOutcome E (f (l, a)) (g (l', a))) :
    Option.Rel (TwinOutcome E) (x.map f) (y.map g) := by
  cases h with
  | none => exact .none
  | @some p q h =>
    obtain ⟨l, a⟩ := p
    obtain ⟨l', a'⟩ := q
    obtain ⟨rfl, hl⟩ := h
    exact .some (hfg l l' a hl)

variable {r : Router.State Listen}

theorem leave_twin (hactive : ∀ q, r.active = some q → E q) (hl : SameOn E l l') (p : Listen) :
    SameOn E (Router.leave listenService r l p) (Router.leave listenService r l' p) := by
  unfold Router.leave
  cases hr : r.active with
  | none => exact hl
  | some old =>
    have hold := hactive old hr
    simp only
    split
    · rw [listenService, Service.callDeselect_within, Service.callDeselect_within, hl.same old hold]
      exact hl.set hold _
    · exact hl

theorem select_twin (htable : r.table = listenProfiles cfg) (hactive : ∀ q, r.active = some q → E q)
    (hl : SameOn E l l') (hp : E p) (aid : Bytes) :
    Option.Rel (TwinOutcome E) (Router.select listenService r l aid p)
      (Router.select listenService r l' aid p) := by
  have hleave := leave_twin hactive hl p
  unfold Router.select
  rw [listenService, Service.callSelect_within, Service.callSelect_within]
  refine TwinOutcome.of_matches (hleave.call hp (p.ownService.callSelect · aid)) ?_
  intro m m' rsp hm
  refine ⟨rfl, htable, ?_, hm, rfl, by simp⟩
  rintro q ⟨⟩
  exact hp

theorem dispatch_twin {apdu : Apdu}
    (htable : r.table = listenProfiles cfg) (hactive : ∀ q, r.active = some q → E q)
    (hl : SameOn E l l')
    (hsel : ∀ p, Router.isSelectByAid apdu = true →
      ((listenProfiles cfg).find? (·.aid == Router.selectedAid apdu)).map (·.svc) = some p → E p) :
    Option.Rel (TwinOutcome E) (Router.dispatch listenService r l apdu)
      (Router.dispatch listenService r l' apdu) := by
  unfold Router.dispatch
  split
  · exact .some ⟨rfl, htable, hactive, hl, rfl, by simp⟩
  split
  · next hs =>
    split
    · exact .some ⟨rfl, htable, hactive, hl, rfl, by simp⟩
    · next entry hfind =>
      rw [Router.State.findAid, htable] at hfind
      exact select_twin htable hactive hl (hsel entry.svc hs (by rw [hfind]; rfl)) apdu.data
  · split
    · exact .some ⟨rfl, htable, hactive, hl, rfl, by simp⟩
    · next svc hsvc =>
      have hE := hactive svc hsvc
      rw [listenService, Service.callApdu_within, Service.callApdu_within]
      refine TwinOutcome.of_matches (hl.call hE (svc.ownService.callApdu · apdu)) ?_
      intro m m' out hm
      refine ⟨rfl, htable, hactive, hm, rfl, ?_⟩
      intro p hp
      split at hp
      · cases hp
        exact hE
      · cases hp

theorem onDirty_within (p : Listen) :
    ∃ f : p.Own cfg → Option (p.Own cfg × Unit),
      ∀ (store : Store.State cfg.store) (l : Listeners cfg), store.initialized = true →
        (Store.onDirty store (listenService p) l).map (fun r => (r.1, ())) =
          (f (p.region.get l)).map fun x => (p.region.set l x.1, x.2) := by
  obtain ⟨serialize, hser⟩ : ∃ f, (p.ownService : Service (p.Own cfg)).serialize = some f := by
    cases p <;> exact ⟨_, rfl⟩
  have hserialize : (listenService p : Service (Listeners cfg)).serialize =
      some fun l outMax => (serialize (p.region.get l) outMax).map fun x =>
        (p.region.set l x.1, x.2) := by
    rw [listenService, Service.within, hser]
    rfl
  have hcode : (listenService p : Service (Listeners cfg)).persistId ≠ 0 := by
    rw [listenService_persistId]
    cases p <;> decide
  refine ⟨fun x => (serialize x cfg.store.blobSize).map fun r => (r.1, ()), ?_⟩
  intro store l hinit
  unfold Store.onDirty
  rw [if_neg (not_not.mpr hinit), hserialize]
  simp only
  rw [if_neg hcode]
  cases serialize (p.region.get l) cfg.store.blobSize with
  | none => rfl
  | some x =>
    obtain ⟨x, r⟩ := x
    cases r with
    | ok bytes => rfl
    | error e => cases e <;> rfl

variable {s t : State cfg} (h : Twin E s t)

include h

theorem onServiceDirty_twin (hp : E p) (rsp : Option Bytes) :
    Machine.Matches (Twin E) ((onServiceDirty s p).map fun r => (r.1, rsp))
      ((onServiceDirty t p).map fun r => (r.1, rsp)) := by
  obtain ⟨f, hf⟩ := @onDirty_within cfg p
  have hmatch := h.listeners.call hp f
  rw [← hf s.store s.listeners h.live.2, ← hf t.store t.listeners h.live'.2] at hmatch
  unfold onServiceDirty
  rw [if_neg h.live.1, if_neg h.live'.1]
  generalize Store.onDirty s.store (listenService p) s.listeners = x at hmatch ⊢
  generalize Store.onDirty t.store (listenService p) t.listeners = y at hmatch ⊢
  cases x with
  | none =>
    cases y with
    | none => exact .none
    | some y => cases hmatch
  | some x =>
    cases y with
    | none => cases hmatch
    | some y =>
      cases hmatch with
      | some hl =>
        exact .some rsp ⟨h.assembler, h.router, h.table, h.active, hl.2, h.live, h.live'⟩

theorem onApdu_twin (hsel : ∀ p, selects cfg (.apdu bytes) = some p → E p) :
    Machine.Matches (Twin E) (onApdu s bytes) (onApdu t bytes) := by
  have hassembler : (¬ t.assembler = true) = ¬ s.assembler = true := by rw [h.assembler]
  unfold onApdu onApduCommit
  simp only [hassembler]
  split
  · exact .some none h
  cases hparse : Framing.apduParse cfg.extendedApdu bytes with
  | none => exact .some _ h
  | some apdu =>
    have hselect : ∀ p, Router.isSelectByAid apdu = true →
        ((listenProfiles cfg).find? (·.aid == Router.selectedAid apdu)).map (·.svc) = some p →
          E p := by
      intro p hs hfind
      rw [Router.selectedAid_of_lt (Framing.lc_lt_of_apduParse hparse)] at hfind
      apply hsel
      simp only [selects, hparse, hs, if_true, hfind]
    have hrel := dispatch_twin h.table h.active h.listeners hselect
    rw [h.router]
    simp only
    generalize Router.dispatch listenService s.router s.listeners apdu = x at hrel ⊢
    generalize Router.dispatch listenService s.router t.listeners apdu = y at hrel ⊢
    cases hrel with
    | none => exact .none
    | @some a b hab =>
      obtain ⟨router, l, rsp, dirty⟩ := a
      obtain ⟨_, l', _, _⟩ := b
      obtain ⟨hrouter, htable, hactive, hl, hrsp, hdirty⟩ := hab
      cases hrouter
      cases hrsp
      have htwin : Twin E { s with router, listeners := l }
          { t with router, listeners := l' } :=
        ⟨h.assembler, rfl, htable, hactive, hl, h.live, h.live'⟩
      cases dirty with
      | none => exact .some rsp htwin
      | some svc =>
        simp only [Option.map_map]
        exact onServiceDirty_twin htwin (hdirty svc rfl) rsp

theorem onFieldOff_twin : Twin E (onFieldOff s) (onFieldOff t) := by
  refine ⟨h.assembler, ?_, h.table, ?_, ?_, h.live, h.live'⟩
  · show { t.router with active := none } = { s.router with active := none }
    rw [h.router]
  · rintro p ⟨⟩
  · simp only [onFieldOff, Router.fieldOff, h.router]
    cases hr : s.router.active with
    | none => exact h.listeners
    | some svc =>
      have hE := h.active svc hr
      simp only
      rw [listenService, Service.callFieldOff_within, Service.callFieldOff_within,
        h.listeners.same svc hE]
      exact h.listeners.set hE _

theorem onWork_twin : Machine.Matches (Twin E) (some (onWork s)) (some (onWork t)) := by
  by_cases hE : E .aliro
  · have hsame : t.listeners.aliro = s.listeners.aliro := h.listeners.same .aliro hE
    unfold onWork
    rw [hsame]
    have hl := h.listeners.set hE (Aliro.runWork s.listeners.aliro).1
    exact .some _ ⟨h.assembler, h.router, h.table, h.active, hl, h.live, h.live'⟩
  · have hidle : ∀ {u : State cfg}, u.listeners.aliro.workPending = false →
        onWork u = (u, none) := by
      intro u hu
      simp [onWork, Aliro.runWork, hu]
    obtain ⟨hs, ht⟩ := h.listeners.work hE
    rw [hidle hs, hidle ht]
    exact .some none h

variable {e : ReaderEvent}

theorem reader_twin (hsel : ∀ p, selects cfg e = some p → E p) :
    Machine.Matches (Twin E) (reader.step s e) (reader.step t e) := by
  cases e with
  | fieldOn => exact .some none h
  | fieldOff => exact .some none (onFieldOff_twin h)
  | apdu bytes => exact onApdu_twin h hsel
  | work => exact onWork_twin h

omit h

def hasEntry (crc : Bytes → UInt16) (blob : Bytes) (p : Listen) : Bool :=
  ((Store.blobEntries crc blob).getD []).any (·.persistId == p.code)

/-- In two devices that have handled no command, a listener differs by its card only. The write flag
of the NDEF listener is not part of a card. -/
theorem State.Quiet.alike {st₁ st₂ : State cfg} (h₁ : st₁.Quiet) (h₂ : st₂.Quiet)
    (hp₁ : st₁.phase ≠ .uninitialized) (hp₂ : st₂.phase ≠ .uninitialized)
    (hl : listens cfg p = true)
    (hwrite : p = .ndef → st₁.listeners.ndef.writable = st₂.listeners.ndef.writable) :
    p.Alike (p.region.get st₁.listeners) (p.region.get st₂.listeners) := by
  obtain ⟨-, -, hup₁⟩ := h₁.up hp₁
  obtain ⟨-, -, hup₂⟩ := h₂.up hp₂
  have hu₁ := hup₁ p hl
  have hu₂ := hup₂ p hl
  have hi₁ := h₁.idle p
  have hi₂ := h₂.idle p
  cases p with
  | ndef => exact ⟨hwrite rfl, hi₁.trans hi₂.symm⟩
  | desfire => exact ⟨hu₁.trans hu₂.symm, hi₁.trans hi₂.symm⟩
  | emv => exact hu₁.trans hu₂.symm
  | aliro => exact hi₁.trans hi₂.symm

theorem Loadable.phase_ne {st : State cfg} (h : Loadable st) : st.phase ≠ .uninitialized := by
  rcases h.1 with hp | hp <;> simp [hp]

variable {tag : Store.TagName}

theorem truncateTag_ne_nil {st : Store.State cfg.store}
    (h : st.validTag tag = true) : truncateTag cfg tag ≠ [] := by
  simp only [Store.State.validTag, Bool.and_eq_true, decide_eq_true_eq] at h
  have hlen : 8 ≤ cfg.store.maxTagLen := cfg.store.maxTagLen_range.1
  intro hnil
  have := congrArg List.length hnil
  simp only [truncateTag, length_take, length_nil] at this
  omega

theorem load_twin {crc : Bytes → UInt16} {st₁ st₂ st₁' st₂' : State cfg}
    {tag₁ tag₂ : Store.TagName} {blob : Bytes} (h₁ : st₁.Quiet) (h₂ : st₂.Quiet)
    (hload₁ : load crc st₁ tag₁ = some (st₁', .ok ()))
    (hload₂ : load crc st₂ tag₂ = some (st₂', .ok ()))
    (hblob₁ : Store.callLoad st₁.store tag₁ = .ok blob)
    (hblob₂ : Store.callLoad st₂.store tag₂ = .ok blob)
    (hwrite : hasEntry crc blob .ndef = true →
      st₁.listeners.ndef.writable = st₂.listeners.ndef.writable) :
    Twin (fun p => listens cfg p = true ∧ hasEntry crc blob p = true) st₁' st₂' := by
  obtain ⟨l₁, _, hall₁, ⟨hne, -⟩ | ⟨-, rfl, hst₁, hinit₁, htag₁, ⟨b₁, hb₁, hes₁⟩, rfl⟩⟩ :=
    load_spec hload₁
  · exact absurd rfl hne
  obtain ⟨l₂, _, hall₂, ⟨hne, -⟩ | ⟨-, rfl, hst₂, hinit₂, htag₂, ⟨b₂, hb₂, hes₂⟩, rfl⟩⟩ :=
    load_spec hload₂
  · exact absurd rfl hne
  cases hblob₁.symm.trans hb₁
  cases hblob₂.symm.trans hb₂
  obtain ⟨ha₁, hr₁, -⟩ := h₁.up hst₁.phase_ne
  obtain ⟨ha₂, hr₂, -⟩ := h₂.up hst₂.phase_ne
  rw [some.inj (hes₂.symm.trans hes₁)] at hall₂
  have hsame : ∀ p, listens cfg p = true ∧ hasEntry crc blob p = true → p.Same l₁ l₂ := by
    rintro p ⟨hl, hentry⟩
    have halike := h₁.alike h₂ hst₁.phase_ne hst₂.phase_ne hl
      (by rintro rfl; exact hwrite hentry)
    refine dispatchAll_alike halike hall₁ hall₂ (.inl ⟨hl, ?_⟩)
    simpa [hasEntry, hes₁] using hentry
  refine ⟨ha₂.trans ha₁.symm, hr₂.trans hr₁.symm, ?_, ?_, ⟨hsame, ?_⟩, ?_, ?_⟩
  · show st₁.router.table = _
    rw [hr₁]
  · intro p hp
    rw [hr₁] at hp
    cases hp
  · intro _
    exact ⟨(dispatchAll_steady hall₁ .aliro).1 (h₁.idle .aliro),
      (dispatchAll_steady hall₂ .aliro).1 (h₂.idle .aliro)⟩
  · exact ⟨truncateTag_ne_nil htag₁, hinit₁⟩
  · exact ⟨truncateTag_ne_nil htag₂, hinit₂⟩

theorem start_eq (uidValid : Bool) (transport : Ret) (st : State cfg) :
    (start uidValid transport st).1 =
      { st with phase := (start uidValid transport st).1.phase } := by
  unfold start
  repeat' split
  all_goals rfl

theorem Twin.start (h : Twin E s t) (uidValid : Bool) (transport : Ret) :
    Twin E (start uidValid transport s).1 (start uidValid transport t).1 := by
  rw [start_eq uidValid transport s, start_eq uidValid transport t]
  exact ⟨h.assembler, h.router, h.table, h.active, h.listeners, h.live, h.live'⟩

theorem listens_of_selects (h : selects cfg e = some p) : listens cfg p = true := by
  cases e with
  | apdu bytes =>
    simp only [selects] at h
    split at h
    · cases h
    split at h
    · obtain ⟨entry, hfind, rfl⟩ := map_eq_some_iff.mp h
      have hmem := mem_of_find?_eq_some hfind
      exact (mem_filter.mp hmem).2
    · cases h
  | _ => cases h

/-- After two histories that end with a load of the same blob, a reader that selects no application
but those that the blob has an entry for gets the same responses. If the blob has an NDEF entry, the
histories must have left the same write flag. -/
theorem load_isolation (crc : Bytes → UInt16) {st₁ st₂ st₁' st₂' : State cfg}
    {tag₁ tag₂ : Store.TagName} {blob : Bytes} (h₁ : History crc st₁) (h₂ : History crc st₂)
    (hload₁ : load crc st₁ tag₁ = some (st₁', .ok ()))
    (hload₂ : load crc st₂ tag₂ = some (st₂', .ok ()))
    (hblob₁ : Store.callLoad st₁.store tag₁ = .ok blob)
    (hblob₂ : Store.callLoad st₂.store tag₂ = .ok blob)
    (hwrite : hasEntry crc blob .ndef = true →
      st₁.listeners.ndef.writable = st₂.listeners.ndef.writable)
    {es : List ReaderEvent}
    (hsel : ∀ e ∈ es, ∀ p, selects cfg e = some p → hasEntry crc blob p = true) :
    reader.outputs (start true (.ok ()) st₁').1 es =
      reader.outputs (start true (.ok ()) st₂').1 es := by
  have htwin := load_twin h₁.quiet h₂.quiet hload₁ hload₂ hblob₁ hblob₂ hwrite
  refine Machine.outputs_eq reader reader (fun s t e hst hq => reader_twin hst hq)
    (htwin.start true (.ok ())) (Machine.Always.of_forall reader _ ?_)
  intro e he p hp
  exact ⟨listens_of_selects hp, hsel e he p hp⟩

/-! Devices in which a DESFire card, or all listeners as they are at first, are stored. In one of
each kind another card has been in between. -/

def oldTag : Store.TagName := [0x6F, 0x6C, 0x64]

def silentTag : Reader.Session Unit := ⟨true, ⟨fun _ _ => some ((), .error .eio)⟩⟩

def onlyPoller (p : Protocol) : Reader.OtherPollers Config.default Unit where
  detect q := pure (if q = p then .ok () else .error .enotsup)
  ultralight := pure (.ok { (Ultralight.Data.reset : Ultralight.Data .default) with
    pagesTotal := 16 })
  desfire := pure (.ok .reset)
  emv := pure (.ok { Emv.loadDefault with aip := .fill _ 0x55 })
  aliro := pure (.error .enotsup)
  classic := pure (.error .enotsup)
  felica := pure (.error .enotsup)
  slix := pure (.error .enotsup)
  iso15693 := pure (.error .enotsup)

def cloneOnly (p : Protocol) (st : State Config.default) (tag : Store.TagName) :
    Option (State Config.default × Ret) :=
  (Reader.pollersRun silentTag (onlyPoller p) Store.crc16Ccitt (fun _ => 0) st tag ()).map Prod.fst

theorem cloneOnly_history {p : Protocol} {st : State Config.default} {ret : Ret}
    (hst : History Store.crc16Ccitt st) (h : (cloneOnly p st tag).map Prod.snd = some ret) :
    History Store.crc16Ccitt (after (cloneOnly p st tag)) := by
  have hclone := eq_after h
  obtain ⟨⟨_, ⟨⟩⟩, hrun, rfl⟩ := map_eq_some_iff.mp hclone
  exact hst.clone silentTag (onlyPoller p) (fun _ => 0) tag hrun

theorem stackUp_history : History Store.crc16Ccitt stackUp := by
  have hinit : (init ⟨.ok (), .ok ()⟩ (.boot : State .default)).map Prod.snd = some (.ok ()) := by
    decide +kernel
  exact History.boot.init _ (eq_after hinit)

def desfireCloned : State Config.default := after (cloneOnly .desfire stackUp cardTag)

def emvLoaded : State Config.default :=
  after (load Store.crc16Ccitt (after (cloneOnly .emv desfireCloned oldTag)) oldTag)

def allSaved : State Config.default := after (save Store.crc16Ccitt stackUp cardTag)

def ultralightCloned : State Config.default := after (cloneOnly .ultralight allSaved oldTag)

theorem desfireCloned_history : History Store.crc16Ccitt desfireCloned := by
  have hclone : (cloneOnly .desfire stackUp cardTag).map Prod.snd = some (.ok ()) := by
    decide +kernel
  exact cloneOnly_history stackUp_history hclone

theorem emvLoaded_history : History Store.crc16Ccitt emvLoaded := by
  have hclone : (cloneOnly .emv desfireCloned oldTag).map Prod.snd = some (.ok ()) := by
    decide +kernel
  have hload : (load Store.crc16Ccitt (after (cloneOnly .emv desfireCloned oldTag)) oldTag).map
      Prod.snd = some (.ok ()) := by decide +kernel
  exact (cloneOnly_history desfireCloned_history hclone).load oldTag (eq_after hload)

theorem allSaved_history : History Store.crc16Ccitt allSaved := by
  have hsave : (save Store.crc16Ccitt stackUp cardTag).map Prod.snd = some (.ok ()) := by
    decide +kernel
  exact stackUp_history.save cardTag (eq_after hsave)

theorem ultralightCloned_history : History Store.crc16Ccitt ultralightCloned := by
  have hclone : (cloneOnly .ultralight allSaved oldTag).map Prod.snd = some (.ok ()) := by
    decide +kernel
  exact cloneOnly_history allSaved_history hclone

variable (st : State Config.default)

def cardBlob : Bytes :=
  (Store.callLoad st.store cardTag).toOption.getD []

def cardStarted : State Config.default :=
  (start true (.ok ()) (after (load Store.crc16Ccitt st cardTag))).1

def listDesfire : List ReaderEvent :=
  [.apdu ([0x00, 0xA4, 0x04, 0x00, 0x07] ++ Desfire.aid), .apdu [0x90, 0x6A, 0x00, 0x00, 0x00]]

theorem load_isolation_desfire : load Store.crc16Ccitt desfireCloned cardTag =
      some (after (load Store.crc16Ccitt desfireCloned cardTag), .ok ()) ∧
    load Store.crc16Ccitt emvLoaded cardTag =
      some (after (load Store.crc16Ccitt emvLoaded cardTag), .ok ()) ∧
    reader.outputs (cardStarted desfireCloned) listDesfire =
      reader.outputs (cardStarted emvLoaded) listDesfire := by
  have hret₁ : (load Store.crc16Ccitt desfireCloned cardTag).map Prod.snd = some (.ok ()) := by
    decide +kernel
  have hret₂ : (load Store.crc16Ccitt emvLoaded cardTag).map Prod.snd = some (.ok ()) := by
    decide +kernel
  have hblob₁ : Store.callLoad desfireCloned.store cardTag = .ok (cardBlob desfireCloned) := by
    decide +kernel
  have hblob₂ : Store.callLoad emvLoaded.store cardTag = .ok (cardBlob desfireCloned) := by
    decide +kernel
  have hndef : hasEntry Store.crc16Ccitt (cardBlob desfireCloned) .ndef = false := by
    decide +kernel
  have hsel : ∀ e ∈ listDesfire, ∀ p ∈ selects .default e,
      hasEntry Store.crc16Ccitt (cardBlob desfireCloned) p = true := by decide +kernel
  refine ⟨eq_after hret₁, eq_after hret₂, load_isolation Store.crc16Ccitt desfireCloned_history
    emvLoaded_history (eq_after hret₁) (eq_after hret₂) hblob₁ hblob₂ ?_ hsel⟩
  intro h
  rw [hndef] at h
  cases h

def readEmv : List ReaderEvent :=
  [.apdu ([0x00, 0xA4, 0x04, 0x00, 0x07] ++ Emv.serviceAppAid),
    .apdu [0x80, 0xA8, 0x00, 0x00, 0x02, 0x83, 0x00]]

def writeNdef : List ReaderEvent :=
  [.apdu ([0x00, 0xA4, 0x04, 0x00, 0x07] ++ ndefAid),
    .apdu [0x00, 0xA4, 0x00, 0x0C, 0x02, 0xE1, 0x04],
    .apdu [0x00, 0xD6, 0x00, 0x00, 0x02, 0x00, 0x01]]

def ToldApart (st₁ st₂ : State Config.default) (es : List ReaderEvent) : Prop :=
  History Store.crc16Ccitt st₁ ∧ History Store.crc16Ccitt st₂ ∧
    Store.callLoad st₁.store cardTag = .ok (cardBlob st₁) ∧
    Store.callLoad st₂.store cardTag = .ok (cardBlob st₁) ∧
    (load Store.crc16Ccitt st₁ cardTag).map Prod.snd = some (.ok ()) ∧
    (load Store.crc16Ccitt st₂ cardTag).map Prod.snd = some (.ok ()) ∧
    reader.outputs (cardStarted st₁) es ≠ reader.outputs (cardStarted st₂) es

/-- The EMV card still answers after the load of a DESFire card, and the Ultralight card leaves the
NDEF listener read-only even where the blob has an entry for it. -/
theorem load_leaves_remains :
    ToldApart desfireCloned emvLoaded readEmv ∧ ToldApart allSaved ultralightCloned writeNdef := by
  refine ⟨⟨desfireCloned_history, emvLoaded_history, ?_⟩,
    ⟨allSaved_history, ultralightCloned_history, ?_⟩⟩
  · decide +kernel
  · decide +kernel

end Stack

end NfcStack
