import NfcStack.Reader.Registry
import NfcStack.Stack.Load

/-!
# Histories of the device

All that the application does before a reader comes to the emulated card. In such a history no command has
been handled, so every listener is as idle as after its initialisation.
-/

namespace NfcStack

variable {cfg : Config}

def Desfire.Session.untouched : Desfire.Session := ⟨.idle, -1, .none, 0, 0, 0, .fill _ 0⟩

/-- No command has left a trace in the variables of a protocol. The session of the DESFire listener
is compared after a reset, with which every use of it starts. -/
def Listen.Idle : (p : Listen) → p.Own cfg → Prop
  | .ndef, (st : Ndef.State cfg.ndef) => st.fileSel = .none
  | .desfire, (st : Desfire.State cfg.desfire) => st.session.reset = .untouched
  | .emv, _ => True
  | .aliro, (st : Aliro.State cfg.aliro) => st.workPending = false

def Listen.Up : (p : Listen) → p.Own cfg → Prop
  | .ndef, _ => True
  | .desfire, (st : Desfire.State cfg.desfire) => st.initialized = true
  | .emv, (st : Emv.State cfg.emv) => st.initialized = true
  | .aliro, _ => True

def Listen.Steady (p : Listen) (x y : p.Own cfg) : Prop :=
  (p.Idle x → p.Idle y) ∧ (p.Up x → p.Up y)

variable {p : Listen}

theorem Listen.steady_of_deserialize {x y : p.Own cfg} {bytes : Bytes} {ret : Ret}
    (h : p.ownService.callDeserialize x bytes = some (y, ret)) : p.Steady x y := by
  cases p with
  | ndef =>
    have h : Ndef.listenerDeserialize x bytes = (y, ret) := Option.some.inj h
    unfold Ndef.listenerDeserialize at h
    split at h
    · cases h
      exact ⟨id, id⟩
    simp only at h
    split at h <;> (cases h; exact ⟨id, id⟩)
  | desfire =>
    cases h
    exact ⟨id, id⟩
  | emv =>
    have h : Emv.listenerDeserialize x bytes = some (y, ret) := h
    unfold Emv.listenerDeserialize at h
    split at h
    · cases h
    · cases h
      exact ⟨id, id⟩
    · obtain ⟨wire, -, heq⟩ := Option.map_eq_some_iff.mp h
      cases heq
      exact ⟨id, id⟩
  | aliro =>
    cases h
    exact ⟨id, id⟩

theorem Listen.steady_of_serialize {x y : p.Own cfg} {outMax : ℕ}
    {serialize : p.Own cfg → ℕ → Option (p.Own cfg × Except Errno Bytes)}
    {r : Except Errno Bytes} (hser : p.ownService.serialize = some serialize)
    (h : serialize x outMax = some (y, r)) : p.Steady x y := by
  cases p with
  | ndef =>
    cases hser
    have h : Ndef.listenerSerialize x outMax = (y, r) := Option.some.inj h
    unfold Ndef.listenerSerialize at h
    split at h <;> (cases h; exact ⟨id, id⟩)
  | desfire =>
    cases hser
    cases h
    exact ⟨id, id⟩
  | emv =>
    cases hser
    obtain ⟨r, -, heq⟩ := Option.map_eq_some_iff.mp h
    cases heq
    exact ⟨id, id⟩
  | aliro =>
    cases hser
    obtain ⟨r, -, heq⟩ := Option.map_eq_some_iff.mp h
    cases heq
    exact ⟨id, id⟩

def Listeners.Steady (l l' : Listeners cfg) : Prop :=
  ∀ p : Listen, p.Steady (p.region.get l) (p.region.get l')

theorem Listeners.Steady.refl (l : Listeners cfg) : l.Steady l := fun _ => ⟨id, id⟩

theorem Listeners.Steady.trans (a b c : Listeners cfg) (hab : a.Steady b) (hbc : b.Steady c) :
    a.Steady c :=
  fun p => ⟨(hbc p).1 ∘ (hab p).1, (hbc p).2 ∘ (hab p).2⟩

variable {l : Listeners cfg}

theorem Listeners.steady_set {x : p.Own cfg}
    (h : p.Steady (p.region.get l) x) : l.Steady (p.region.set l x) := by
  intro q
  by_cases hq : q = p
  · subst hq
    rw [Region.get_set]
    exact h
  · rw [Listen.get_set_of_ne hq]
    exact ⟨id, id⟩

theorem listenService_steady (p : Listen) (serialize : Listeners cfg → ℕ →
    Option (Listeners cfg × Except Errno Bytes))
    (hser : (listenService p).serialize = some serialize) (l : Listeners cfg) (outMax : ℕ)
    (l' : Listeners cfg) (r : Except Errno Bytes) (h : serialize l outMax = some (l', r)) :
    l.Steady l' := by
  obtain ⟨own, hown, rfl⟩ := Option.map_eq_some_iff.mp hser
  obtain ⟨⟨y, r'⟩, hy, heq⟩ := Option.map_eq_some_iff.mp h
  cases heq
  exact Listeners.steady_set (Listen.steady_of_serialize hown hy)

namespace Stack

theorem dispatchAll_steady {es : List Store.Entry} {l' : Listeners cfg} {accepted : Bool}
    (h : Store.dispatchAll (listenServices cfg) es l = some (l', accepted)) : l.Steady l' := by
  refine dispatchAll_induction (J := l.Steady) ?_ (.refl _) h
  rintro entry - p - l₁ x ret hl₁ hx
  exact hl₁.trans _ _ _ (Listeners.steady_set (Listen.steady_of_deserialize hx))

structure State.Quiet (st : State cfg) : Prop where
  idle : ∀ p : Listen, p.Idle (p.region.get st.listeners)
  up : st.phase ≠ .uninitialized →
    st.assembler = true ∧ st.router = ⟨true, listenProfiles cfg, none⟩ ∧
      ∀ p : Listen, listens cfg p = true → p.Up (p.region.get st.listeners)

variable {st st' : State cfg}

theorem State.Quiet.of_steady (h : st.Quiet) (hl : st.listeners.Steady st'.listeners)
    (hphase : st'.phase ≠ .uninitialized → st.phase ≠ .uninitialized)
    (hassembler : st'.assembler = st.assembler) (hrouter : st'.router = st.router) :
    st'.Quiet where
  idle p := (hl p).1 (h.idle p)
  up hp := by
    obtain ⟨ha, hr, hu⟩ := h.up (hphase hp)
    exact ⟨hassembler ▸ ha, hrouter ▸ hr, fun p hlp => (hl p).2 (hu p hlp)⟩

variable {crc : Bytes → UInt16} {tag : Store.TagName} {ret : Ret}

theorem load_quiet (hst : st.Quiet) (h : load crc st tag = some (st', ret)) : st'.Quiet := by
  obtain ⟨l, accepted, hall, ⟨-, rfl⟩ | ⟨-, -, -, -, -, -, rfl⟩⟩ := load_spec h
  · exact hst.of_steady (dispatchAll_steady hall) id rfl rfl
  · exact hst.of_steady (dispatchAll_steady hall) id rfl rfl

theorem save_quiet (hst : st.Quiet) (h : save crc st tag = some (st', ret)) : st'.Quiet := by
  have hsteady : ∀ {store : Store.State cfg.store} {l : Listeners cfg} {r : Ret},
      Store.save crc (st.phase == .started) st.store (listenServices cfg) st.listeners tag =
        some (store, l, r) → st.listeners.Steady l := by
    intro store l r hs
    refine Store.save_rel .refl .trans ?_ hs
    intro svc hsvc
    obtain ⟨p, -, rfl⟩ := List.mem_map.mp hsvc
    exact listenService_steady p
  unfold save at h
  split at h
  · cases h
    exact hst
  split at h
  · cases h
    exact hst
  split at h
  · cases h
    exact hst
  split at h
  · cases h
  · next hs =>
    cases h
    exact hst.of_steady (hsteady hs) id rfl rfl
  · next hs =>
    cases h
    exact hst.of_steady (hsteady hs) id rfl rfl

theorem shutdownListeners_idle (h : ∀ p : Listen, p.Idle (p.region.get l))
    (p : Listen) : p.Idle (p.region.get (shutdownListeners l)) := by
  cases p with
  | ndef =>
    show (if listens cfg .ndef then Ndef.listenerShutdown l.ndef else l.ndef).fileSel = .none
    have hl : l.ndef.fileSel = .none := h .ndef
    split
    · unfold Ndef.listenerShutdown
      split
      · rfl
      · exact hl
    · exact hl
  | desfire =>
    show (if listens cfg .desfire then Desfire.listenerShutdown l.desfire
      else l.desfire).session.reset = .untouched
    split <;> exact h .desfire
  | emv => trivial
  | aliro =>
    show (if listens cfg .aliro then Aliro.listenerShutdown l.aliro
      else l.aliro).workPending = false
    split <;> exact h .aliro

theorem initListeners_spec {l' : Listeners cfg} (h : ∀ p : Listen, p.Idle (p.region.get l))
    (hinit : initListeners l = some l') :
    (∀ p : Listen, p.Idle (p.region.get l')) ∧
      ∀ p : Listen, listens cfg p = true → p.Up (p.region.get l') := by
  obtain ⟨emv, hemv, rfl⟩ := Option.map_eq_some_iff.mp hinit
  refine ⟨fun p => ?_, fun p hp => ?_⟩
  · cases p with
    | ndef =>
      have hl : l.ndef.fileSel = .none := h .ndef
      split
      · unfold Ndef.listenerInit
        split
        · exact hl
        · rfl
      · exact hl
    | desfire =>
      show (if listens cfg .desfire then Desfire.listenerInit l.desfire none
        else l.desfire).session.reset = .untouched
      split <;> exact h .desfire
    | emv => trivial
    | aliro =>
      show (if listens cfg .aliro then Aliro.listenerInit none else l.aliro).workPending = false
      split
      · rfl
      · exact h .aliro
  · cases p with
    | ndef => trivial
    | desfire =>
      rw [if_pos hp]
      rfl
    | emv =>
      rw [if_pos hp] at hemv
      obtain ⟨wire, -, rfl⟩ := Option.map_eq_some_iff.mp hemv
      rfl
    | aliro => trivial

theorem registerProfiles_ok {maxAids : ℕ} {es : List (Router.Entry Listen)}
    {router router' : Router.State Listen}
    (h : registerProfiles maxAids es router = (router', .ok ())) :
    router' = { router with table := router.table ++ es } := by
  induction es generalizing router with
  | nil =>
    cases h
    simp
  | cons entry es ih =>
    simp only [registerProfiles] at h
    split at h
    · next router₁ hreg =>
      have hstep : router₁ = { router with table := router.table ++ [entry] } := by
        unfold Router.register at hreg
        split at hreg
        · cases hreg
        split at hreg
        · cases hreg
        split at hreg
        · cases hreg
        · cases hreg
          rfl
      rw [ih h, hstep]
      simp
    · cases h

theorem quiet_of_uninitialized (hphase : st.phase = .uninitialized)
    (h : ∀ p : Listen, p.Idle (p.region.get st.listeners)) : st.Quiet :=
  ⟨h, fun hp => absurd hphase hp⟩

variable {transport : TransportSetup}

theorem initTransport_quiet (hidle : ∀ p : Listen, p.Idle (p.region.get st.listeners))
    (hassembler : st.assembler = true) (hrouter : st.router = ⟨true, [], none⟩)
    (h : initTransport transport st = some (st', ret)) : st'.Quiet := by
  unfold initTransport at h
  split at h
  · cases h
    exact quiet_of_uninitialized rfl hidle
  split at h
  · cases h
  next l hl =>
  obtain ⟨hidle', hup⟩ := initListeners_spec hidle hl
  simp only at h
  split at h
  · cases h
    exact quiet_of_uninitialized rfl (shutdownListeners_idle hidle')
  split at h
  · next router hreg =>
    cases h
    refine ⟨hidle', fun _ => ⟨hassembler, ?_, hup⟩⟩
    rw [registerProfiles_ok hreg, hrouter]
    simp
  · cases h
    exact quiet_of_uninitialized rfl (shutdownListeners_idle hidle')

variable (hst : st.Quiet)

include hst

theorem init_quiet (h : init transport st = some (st', ret)) : st'.Quiet := by
  unfold init at h
  split at h
  · cases h
    exact hst
  next hphase =>
  split at h
  · cases h
    exact quiet_of_uninitialized (not_not.mp hphase) hst.idle
  split at h
  · cases h
    exact quiet_of_uninitialized (not_not.mp hphase) hst.idle
  next router hr =>
  have hrouter : router = ⟨true, [], none⟩ := by
    unfold Router.init at hr
    split at hr
    · cases hr
    · cases hr
      rfl
  refine initTransport_quiet ?_ ?_ ?_ h
  · exact hst.idle
  · rfl
  · exact hrouter

theorem shutdown_quiet : (shutdown st).Quiet := by
  unfold shutdown
  split
  · exact hst
  · exact quiet_of_uninitialized rfl (shutdownListeners_idle hst.idle)

theorem start_quiet (uidValid : Bool) (transport : Ret) :
    (start uidValid transport st).1.Quiet := by
  have hphase : ¬ (st.phase ≠ .initialized ∧ st.phase ≠ .stopped) → st.phase ≠ .uninitialized := by
    intro hp hu
    simp [hu] at hp
  unfold start
  split
  · exact hst
  split
  · exact hst
  next hp =>
  split
  · exact hst
  split
  · exact hst.of_steady (.refl _) (fun _ => hphase hp) rfl rfl
  · exact hst.of_steady (.refl _) (fun _ => hphase hp) rfl rfl

theorem stop_quiet (transport : Ret) : (stop transport st).1.Quiet := by
  unfold stop
  split
  · exact hst
  next hp =>
  split
  · exact hst
  split
  · exact hst.of_steady (.refl _) (fun _ => hp) rfl rfl
  · exact hst.of_steady (.refl _) (fun _ => hp) rfl rfl

omit hst

open Option NfcStack.Reader

theorem saveService_quiet
    {svc : Service (Listeners cfg)} (hst : st.Quiet)
    (hsvc : ∀ serialize, svc.serialize = some serialize → ∀ l outMax l' r,
      serialize l outMax = some (l', r) → l.Steady l')
    (h : saveService crc st svc tag = some (st', ret)) : st'.Quiet := by
  obtain ⟨⟨store, l, ret'⟩, hs, heq⟩ := map_eq_some_iff.mp h
  cases heq
  refine hst.of_steady (Store.save_rel .refl .trans ?_ hs) id rfl rfl
  rintro s hs
  rw [List.mem_singleton.mp hs]
  exact hsvc

theorem setSave_quiet (p : Listen) {x : p.Own cfg} (hst : st.Quiet)
    (h : saveService crc { st with listeners := p.region.set st.listeners x } (listenService p)
      tag = some (st', ret)) (hx : p.Steady (p.region.get st.listeners) x) : st'.Quiet := by
  refine saveService_quiet ?_ (listenService_steady p) h
  exact hst.of_steady (Listeners.steady_set hx) id rfl rfl

theorem unbound_quiet (p : Protocol) (hst : st.Quiet)
    (h : saveService crc st (unboundService p) tag = some (st', ret)) : st'.Quiet := by
  refine saveService_quiet hst ?_ h
  rintro _ ⟨⟩ l outMax l' r hl
  cases hl
  exact .refl _

theorem listenerInit_steady (x : Ndef.State cfg.ndef) (model : Option (Ndef.Data cfg.ndef))
    (writable : Bool) : Listen.ndef.Steady x (Ndef.listenerInit x model writable).1 := by
  refine ⟨fun hx => ?_, id⟩
  unfold Ndef.listenerInit
  split
  · exact hx
  · rfl

theorem listenerShutdown_steady (x : Ndef.State cfg.ndef) :
    Listen.ndef.Steady x (Ndef.listenerShutdown x) := by
  refine ⟨fun hx => ?_, id⟩
  unfold Ndef.listenerShutdown
  split
  · rfl
  · exact hx

variable {residue : ℕ → UInt8} {data : Ultralight.Data cfg.ultralight}

theorem listenerLoad_steady {ul ul' : Ultralight.State cfg.ultralight}
    {ndef ndef' : Ndef.State cfg.ndef}
    (h : Ultralight.listenerLoad residue ul ndef data = some (ul', ndef', ret)) :
    Listen.ndef.Steady ndef ndef' := by
  have hdown := listenerShutdown_steady ndef
  unfold Ultralight.listenerLoad at h
  split at h
  · cases h
    exact ⟨id, id⟩
  obtain ⟨⟨ndef₁, ret₁⟩, hbind, heq⟩ := map_eq_some_iff.mp h
  cases heq
  unfold Ultralight.bindNdef at hbind
  split at hbind
  · cases hbind
  · have heq := congrArg Prod.fst (some.inj hbind)
    have hup := listenerInit_steady (Ndef.listenerShutdown ndef) (some .reset) false
    rw [show ndef' = _ from heq.symm]
    exact ⟨hup.1 ∘ hdown.1, id⟩
  · split at hbind
    · cases hbind
      exact hdown
    · have heq := congrArg Prod.fst (some.inj hbind)
      have hup := listenerInit_steady (Ndef.listenerShutdown ndef)
      rw [show ndef' = _ from heq.symm]
      exact ⟨(hup _ _).1 ∘ hdown.1, id⟩

theorem cloneUltralight_quiet (hst : st.Quiet)
    (h : cloneUltralight crc residue st data tag = some (st', ret)) : st'.Quiet := by
  simp only [cloneUltralight] at h
  split at h
  · cases h
  next ul ndef ret₁ hload =>
  have hbound : State.Quiet
      { st with listeners := { st.listeners with ultralight := ul, ndef } } := by
    refine hst.of_steady ?_ id rfl rfl
    intro p
    cases p with
    | ndef => exact listenerLoad_steady hload
    | _ => exact ⟨id, id⟩
  cases ret₁ with
  | error e =>
    cases h
    exact hbound
  | ok _ =>
    refine saveService_quiet hbound ?_ h
    rintro _ ⟨⟩ l outMax l' r hl
    obtain ⟨r', -, heq⟩ := map_eq_some_iff.mp hl
    cases heq
    exact .refl _

theorem cloneModel_quiet {model : CardModel cfg} (hst : st.Quiet)
    (h : cloneModel crc residue st model tag = some (st', ret)) : st'.Quiet := by
  cases model with
  | ndef data => exact setSave_quiet .ndef hst h (listenerInit_steady _ _ _)
  | ultralight data => exact cloneUltralight_quiet hst h
  | desfire data => exact setSave_quiet .desfire hst h ⟨id, fun _ => rfl⟩
  | emv image =>
    simp only [cloneModel] at h
    split at h
    · cases h
    next emv hinit =>
    obtain ⟨wire, -, rfl⟩ := map_eq_some_iff.mp hinit
    exact setSave_quiet .emv hst h ⟨id, fun _ => rfl⟩
  | aliro data => exact setSave_quiet .aliro hst h ⟨fun _ => rfl, id⟩
  | classic => exact unbound_quiet .classic hst h
  | felica => exact unbound_quiet .felica hst h
  | slix => exact unbound_quiet .slix hst h
  | iso15693 => exact unbound_quiet .iso15693 hst h

theorem pollersRun_quiet {τ : Type} {s : Session τ} {pollers : OtherPollers cfg τ}
    {t t' : τ} (hst : st.Quiet)
    (h : pollersRun s pollers crc residue st tag t = some ((st', ret), t')) : st'.Quiet := by
  obtain ⟨read, t₁, -, h⟩ := Poll.bind_eq_some h
  cases read with
  | error e =>
    cases h
    exact hst
  | ok model =>
    cases hclone : cloneModel crc residue st model tag with
    | none =>
      simp only [hclone] at h
      cases h
    | some r =>
      simp only [hclone] at h
      cases h
      exact cloneModel_quiet hst hclone

/-- The states of the device before a reader comes: what initialisations, loads, saves, clones and
imports lead to, with whatever the transport, the tags and the other pollers answer. -/
inductive History (crc : Bytes → UInt16) : State cfg → Prop
  | boot : History crc .boot
  | init {st st' : State cfg} (transport : TransportSetup) {ret : Ret} : History crc st →
      init transport st = some (st', ret) → History crc st'
  | shutdown {st : State cfg} : History crc st → History crc (shutdown st)
  | start {st : State cfg} (uidValid : Bool) (transport : Ret) : History crc st →
      History crc (start uidValid transport st).1
  | stop {st : State cfg} (transport : Ret) : History crc st → History crc (stop transport st).1
  | load {st st' : State cfg} (tag : Store.TagName) {ret : Ret} : History crc st →
      load crc st tag = some (st', ret) → History crc st'
  | save {st st' : State cfg} (tag : Store.TagName) {ret : Ret} : History crc st →
      save crc st tag = some (st', ret) → History crc st'
  | storeEnsure {st : State cfg} : History crc st → History crc (storeEnsure st)
  | importBlob {st : State cfg} (tag : Store.TagName) (blob : Bytes) : History crc st →
      History crc (importBlob crc st tag blob).1
  | clone {st st' : State cfg} {τ : Type} (s : Session τ) (pollers : OtherPollers cfg τ)
      (residue : ℕ → UInt8) (tag : Store.TagName) {ret : Ret} {t t' : τ} : History crc st →
      pollersRun s pollers crc residue st tag t = some ((st', ret), t') → History crc st'

theorem boot_quiet : (State.boot : State cfg).Quiet := by
  refine quiet_of_uninitialized rfl ?_
  intro p
  cases p with
  | emv => trivial
  | _ => rfl

theorem History.quiet (h : History crc st) : st.Quiet := by
  induction h with
  | boot => exact boot_quiet
  | init transport _ hop ih => exact init_quiet ih hop
  | shutdown _ ih => exact shutdown_quiet ih
  | start uidValid transport _ ih => exact start_quiet ih uidValid transport
  | stop transport _ ih => exact stop_quiet ih transport
  | load tag _ hop ih => exact load_quiet ih hop
  | save tag _ hop ih => exact save_quiet ih hop
  | storeEnsure _ ih =>
    unfold Reader.storeEnsure
    split
    · exact ih
    · exact ih.of_steady (.refl _) id rfl rfl
  | importBlob tag blob _ ih => exact ih.of_steady (.refl _) id rfl rfl
  | clone s pollers residue tag _ hop ih => exact pollersRun_quiet ih hop

end Stack

end NfcStack
