import NfcStack.Lib.Machine
import NfcStack.Protocols.Ultralight.Type2

/-!
# Password protection of Type 2 cards

A protected page is sent only after the password of the card, if the configuration that was parsed is the
one of the card. A load that fails behind the pages has stored them without it.
-/

namespace NfcStack.Ultralight

open List Option CArray

variable {cfg : Config} (data : Data cfg)

def Data.configPages : Option ConfigBlock :=
  parseConfig { data with pagesRead := data.pagesTotal }

def Data.protects (page : ℕ) : Bool :=
  decide (page < data.pagesTotal.toNat) && data.configPages.elim false (pageNeedsAuth · page)

def Data.password : Option Bytes := data.configPages.map (·.pwd)

theorem Data.protects_iff (page : ℕ) :
    data.protects page = true ↔ page < data.pagesTotal.toNat ∧
      ∃ config, data.configPages = some config ∧ pageNeedsAuth config page = true := by
  cases h : data.configPages <;> simp [Data.protects, h]

variable {page : ℕ}

theorem valid_of_pageNeedsAuth {config : ConfigBlock} (h : pageNeedsAuth config page = true) :
    config.valid = true ∧ readProtectionEnabled config = true ∧ config.prot = true := by
  simp only [pageNeedsAuth, readProtectionEnabled, Bool.and_eq_true] at h ⊢
  exact ⟨h.1.1.1, h.1.1, h.1.2⟩

variable {data : Data cfg}

theorem Data.hasPasswordConfig_of_protects (h : data.protects page = true) :
    data.type.hasPasswordConfig = true := by
  obtain ⟨-, config, hconfig, hneeds⟩ := (data.protects_iff page).mp h
  by_contra htype
  have hzero : data.configPages = some .zero := if_pos (.inl htype)
  obtain rfl := some.inj (hconfig.symm.trans hzero)
  cases (valid_of_pageNeedsAuth hneeds).1

def headerOk (bytes : Bytes) : Bool := decide (4 ≤ bytes.length) && byteAt bytes 0 == formatVersion

variable {bytes : Bytes}

theorem deserialize_of_not_headerOk (h : headerOk bytes = false) (data : Data cfg) :
    deserialize data bytes = (data, .error .ebadmsg) := by
  refine if_pos ?_
  by_contra hc
  rw [not_or] at hc
  simp [headerOk, hc.1, hc.2] at h

theorem deserializeTail_pagesRead {data' : Data cfg} {rest : Bytes}
    (h : deserializeTail data rest = (data', .ok ())) : data'.pagesRead = data'.pagesTotal := by
  unfold deserializeTail at h
  split at h
  · cases h
  simp only at h
  split at h
  · cases h
  split at h
  · cases h
  split at h
  · cases h
  · cases h
    rfl

theorem configPages_of_deserialize {data' : Data cfg}
    (h : deserialize data bytes = (data', .ok ())) : data'.configPages = parseConfig data' := by
  have hread : data'.pagesRead = data'.pagesTotal := by
    unfold deserialize at h
    split at h
    · cases h
    simp only at h
    split at h
    · cases h
    · exact deserializeTail_pagesRead h
  cases data'
  cases hread
  rfl

namespace Type2

inductive Event
  | init
  | shutdown
  | load (bytes : Bytes)
  | command (tx rnd : Bytes)

structure Run (cfg : Config) where
  st : State cfg
  authed : Bool

def Run.boot : Run cfg := ⟨.boot, false⟩

variable (st : State cfg)

def acceptsPassword (tx : Bytes) (resp : Option Bytes) : Bool :=
  Command.ofByte (byteAt tx 0) == some .pwdAuth && resp.isSome &&
    st.model.password == some ((tx.drop 1).take 4)

def listener (tdes : Tdes) : Machine (Run cfg) Event (Option Bytes) where
  step r
    | .init => some (⟨listenerInit r.st, r.authed && r.st.initialized⟩, none)
    | .shutdown => some (⟨listenerShutdown r.st, r.authed && !r.st.initialized⟩, none)
    | .load bytes => (listenerDeserialize r.st bytes).map fun x =>
        (⟨x.1, r.authed && !(r.st.initialized && headerOk bytes)⟩, none)
    | .command tx rnd => (onTagCmd tdes r.st tx rnd).map fun x =>
        (⟨x.1, r.authed || acceptsPassword r.st tx x.2⟩, x.2)

def disclosed (tx resp : Bytes) : List ℕ :=
  if Command.ofByte (byteAt tx 0) = some .read ∧ resp.length = 16 then
    (List.range' (byteAt tx 1).toNat 4).filter (· < st.model.pagesTotal.toNat)
  else []

def ReadAllowed (r : Run cfg) : Event → Option (Run cfg × Option Bytes) → Prop
  | .command tx _, some (_, some resp) =>
    ∀ page ∈ disclosed r.st tx resp, r.st.model.protects page = true → r.authed = true
  | _, _ => True

instance instDecidableReadAllowed (r : Run cfg) :
    (e : Event) → (out : Option (Run cfg × Option Bytes)) → Decidable (ReadAllowed r e out)
  | .command tx _, some (_, some resp) =>
    inferInstanceAs (Decidable (∀ page ∈ disclosed r.st tx resp, _ → _))
  | .command _ _, some (_, none) | .command _ _, none => .isTrue trivial
  | .init, _ | .shutdown, _ | .load _, _ => .isTrue trivial

def Covered (card : Data cfg) : Prop :=
  (∀ page < card.pagesTotal.toNat, card.protects page = false) ∨
    (st.auth ≠ .success ∧ card.password = some st.config.pwd ∧
      ∀ page < card.pagesTotal.toNat, card.protects page = true →
        pageNeedsAuth st.config page = true)

def LoadCovered : Event → Prop
  | .load bytes => st.initialized = true → headerOk bytes = true →
      (deserialize st.model bytes).2 ≠ .ok () → Covered st (deserialize st.model bytes).1
  | _ => True

instance instDecidableCovered (st : State cfg) (card : Data cfg) : Decidable (Covered st card) :=
  inferInstanceAs (Decidable (_ ∨ _))

instance instDecidableLoadCovered (st : State cfg) : (e : Event) → Decidable (LoadCovered st e)
  | .load _ => inferInstanceAs (Decidable (_ → _ → _ → _))
  | .init | .shutdown | .command _ _ => .isTrue trivial

def Run.Inv (r : Run cfg) : Prop :=
  ∀ page, r.st.model.protects page = true →
    pageNeedsAuth r.st.config page = true ∧ r.st.model.password = some r.st.config.pwd ∧
      (r.st.auth = .success → r.authed = true)

def pageBytes (st : State cfg) (page : ℕ) : Bytes :=
  if page < st.model.pagesTotal.toNat then st.model.pages.slice (page * pageSize) pageSize
  else [0, 0, 0, 0]

variable {st : State cfg}

theorem readPages_spec {n : ℕ} {out : Bytes} (h : readPages st n page = some (some out)) :
    out = (List.range' page n).flatMap (pageBytes st) ∧
      ∀ p ∈ List.range' page n, p < st.model.pagesTotal.toNat → pageReadable st p = true := by
  induction n generalizing page out with
  | zero =>
    cases h
    simp
  | succ n ih =>
    simp only [readPages] at h
    split at h
    · -- behind the last page there are zeros
      obtain ⟨x, hx, hy⟩ := map_eq_some_iff.mp h
      obtain ⟨out', rfl, rfl⟩ := map_eq_some_iff.mp hy
      obtain ⟨rfl, hall⟩ := ih hx
      rw [range'_succ, flatMap_cons, pageBytes, if_neg (by omega)]
      refine ⟨rfl, ?_⟩
      rw [forall_mem_cons]
      exact ⟨fun hlt => by omega, hall⟩
    split at h
    · cases h
    next hread =>
    split at h
    · cases h
    next bytes hbytes =>
    obtain ⟨x, hx, hy⟩ := map_eq_some_iff.mp h
    obtain ⟨out', rfl, rfl⟩ := map_eq_some_iff.mp hy
    obtain ⟨rfl, hall⟩ := ih hx
    obtain ⟨-, rfl⟩ := (read?_eq_some_iff _ _ _ _).mp hbytes
    rw [range'_succ, flatMap_cons, pageBytes, if_pos (by omega)]
    refine ⟨rfl, ?_⟩
    rw [forall_mem_cons]
    exact ⟨fun _ => by simpa using hread, hall⟩

theorem length_pageBytes (htotal : st.model.pagesTotal.toNat ≤ cfg.maxPages)
    (page : ℕ) : (pageBytes st page).length = pageSize := by
  unfold pageBytes
  split
  · exact length_slice _ (by simp only [pageSize]; omega)
  · rfl

theorem pageReadable_of_type (htype : st.model.type.hasPasswordConfig = false)
    (hpage : page < st.model.pagesTotal.toNat) : pageReadable st page = true := by
  simp [pageReadable, htype, hpage]

theorem readPages_of_readable (htotal : st.model.pagesTotal.toNat ≤ cfg.maxPages)
    {n : ℕ} (hread : ∀ p, page ≤ p → p < page + n → p < st.model.pagesTotal.toNat →
      pageReadable st p = true) :
    readPages st n page = some (some ((List.range' page n).flatMap (pageBytes st))) := by
  induction n generalizing page with
  | zero => rfl
  | succ n ih =>
    have hrest : readPages st n (page + 1) =
        some (some ((List.range' (page + 1) n).flatMap (pageBytes st))) :=
      ih fun p hp hlt => hread p (by omega) (by omega)
    rw [range'_succ, flatMap_cons, readPages, hrest]
    by_cases hend : st.model.pagesTotal.toNat ≤ page
    · rw [if_pos hend, pageBytes, if_neg (by omega)]
      rfl
    · have hpage : st.model.page? page = some (st.model.pages.slice (page * pageSize) pageSize) :=
        read?_of_le _ (by simp only [pageSize]; omega)
      rw [if_neg hend, if_neg (by simp [hread page le_rfl (by omega) (by omega)]), hpage, pageBytes,
        if_pos (by omega)]
      rfl

variable {tdes : Tdes}

theorem pageReadable_of_disclosed {st' : State cfg} {tx rnd resp : Bytes}
    (h : onTagCmd tdes st tx rnd = some (st', some resp))
    (hpage : page ∈ disclosed st tx resp) : pageReadable st page = true := by
  unfold disclosed at hpage
  split at hpage
  · next hread =>
    unfold onTagCmd at h
    split at h
    · cases h
    rw [hread.1] at h
    obtain ⟨out, hout, heq⟩ := map_eq_some_iff.mp h
    obtain ⟨rfl, rfl⟩ := Prod.mk.inj heq
    unfold handleRead at hout
    split at hout
    · cases hout
    obtain ⟨r, hr, hresp⟩ := map_eq_some_iff.mp hout
    obtain rfl := some.inj hresp
    simp only [mem_filter, decide_eq_true_eq] at hpage
    cases r with
    | none => cases hread.2
    | some out => exact (readPages_spec hr).2 page hpage.1 hpage.2
  · cases hpage

/-- What a command may change. On a card with a password only the password authenticates. -/
structure Effect (st st' : State cfg) (tx : Bytes) (resp : Option Bytes) : Prop where
  model : st'.model = st.model
  config : st'.config = st.config
  auth : st.model.type.hasPasswordConfig = true → st'.auth = st.auth ∨
    (Command.ofByte (byteAt tx 0) = some .pwdAuth ∧ resp.isSome = true ∧
      (tx.drop 1).take 4 = st.config.pwd)

section Effects

variable {tdes : Tdes} {st st' : State cfg} {tx rnd : Bytes} {resp : Option Bytes}

theorem Effect.refl (st : State cfg) (tx : Bytes) (resp : Option Bytes) : Effect st st tx resp :=
  ⟨rfl, rfl, fun _ => .inl rfl⟩

theorem Effect.of_map {x : Option (Option Bytes)} (h : x.map (st, ·) = some (st', resp)) :
    Effect st st' tx resp := by
  obtain ⟨y, -, hy⟩ := map_eq_some_iff.mp h
  obtain ⟨rfl, rfl⟩ := Prod.mk.inj hy
  exact .refl _ _ _

theorem Effect.pwdAuth (hc : Command.ofByte (byteAt tx 0) = some .pwdAuth) :
    Effect st (handlePwdAuth st tx).1 tx (handlePwdAuth st tx).2 := by
  rw [handlePwdAuth]
  split
  · exact .refl _ _ _
  · next hpwd =>
    push Not at hpwd
    exact ⟨rfl, rfl, fun _ => .inr ⟨hc, rfl, hpwd.2.2.2⟩⟩

theorem Effect.of_mfulC (hmodel : st'.model = st.model) (hconfig : st'.config = st.config)
    (htype : st.model.type = .mfulC) : Effect st st' tx resp := by
  refine ⟨hmodel, hconfig, ?_⟩
  intro hpwd
  rw [htype] at hpwd
  cases hpwd

theorem Effect.authStart (h : handleAuthStart tdes st rnd = some (st', resp)) :
    Effect st st' tx resp := by
  rw [handleAuthStart] at h
  split at h
  · cases h
    exact .refl _ _ _
  · next htype =>
    obtain ⟨key, -, hkey⟩ := map_eq_some_iff.mp h
    cases hkey
    exact .of_mfulC rfl rfl (not_not.mp htype)

theorem Effect.authCont (h : handleAuthCont tdes st tx = some (st', resp)) :
    Effect st st' tx resp := by
  rw [handleAuthCont] at h
  split at h
  · cases h
    exact .refl _ _ _
  · next htype =>
    push Not at htype
    obtain ⟨key, -, hkey⟩ := map_eq_some_iff.mp h
    -- the answer of the reader is wrong, or it is right
    simp only at hkey
    split at hkey
    · cases hkey
      exact .of_mfulC rfl rfl htype.1
    · cases hkey
      exact .of_mfulC rfl rfl htype.1

theorem onTagCmd_effect (h : onTagCmd tdes st tx rnd = some (st', resp)) :
    Effect st st' tx resp := by
  rw [onTagCmd] at h
  split at h
  · cases h
    exact .refl _ _ _
  cases hc : Command.ofByte (byteAt tx 0) with
  | none =>
    rw [hc] at h
    cases h
    exact .refl _ _ _
  | some c =>
    rw [hc] at h
    cases c with
    | getVersion | readSig =>
      cases h
      exact .refl _ _ _
    | read | readCnt | checkTearing => exact .of_map h
    | pwdAuth =>
      have heq : handlePwdAuth st tx = (st', resp) := some.inj h
      have heffect : Effect st (handlePwdAuth st tx).1 tx (handlePwdAuth st tx).2 := .pwdAuth hc
      rw [heq] at heffect
      exact heffect
    | auth => exact .authStart h
    | authCont =>
      simp only [handleCommand] at h
      split at h
      · exact .authCont h
      · cases h
        exact .refl _ _ _

end Effects

variable {r : Run cfg}

theorem Run.Inv.of_empty (h : r.st.model.pagesTotal = 0) : r.Inv := by
  intro page hpage
  have hlt := ((Data.protects_iff _ _).mp hpage).1
  rw [h] at hlt
  cases hlt

theorem Run.Inv.command (h : r.Inv) {tx rnd : Bytes} {st' : State cfg}
    {resp : Option Bytes} (hcmd : onTagCmd tdes r.st tx rnd = some (st', resp)) :
    (⟨st', r.authed || acceptsPassword r.st tx resp⟩ : Run cfg).Inv := by
  obtain ⟨hmodel, hconfig, hauth⟩ := onTagCmd_effect hcmd
  intro page hpage
  rw [hmodel] at hpage
  obtain ⟨hneeds, hpwd, hauthed⟩ := h page hpage
  refine ⟨by rw [hconfig]; exact hneeds, by rw [hmodel, hconfig]; exact hpwd, ?_⟩
  intro hsuccess
  rw [Bool.or_eq_true]
  rcases hauth (Data.hasPasswordConfig_of_protects hpage) with hsame | ⟨hins, hresp, htx⟩
  · exact .inl (hauthed (hsame.symm.trans hsuccess))
  · right
    simp only [acceptsPassword, hins, hresp, hpwd, htx, beq_self_eq_true, Bool.and_self]

theorem Run.Inv.load (h : r.Inv) (hcovered : LoadCovered r.st (.load bytes)) {st' : State cfg}
    {ret : Ret} (hload : listenerDeserialize r.st bytes = some (st', ret)) :
    (⟨st', r.authed && !(r.st.initialized && headerOk bytes)⟩ : Run cfg).Inv := by
  unfold listenerDeserialize at hload
  split at hload
  · -- a listener that is down refuses
    next hdown =>
    cases hload
    rw [Bool.not_eq_true] at hdown
    rw [hdown]
    simpa using h
  next hup =>
  rw [not_not] at hup
  cases hheader : headerOk bytes with
  | false =>
    rw [deserialize_of_not_headerOk hheader] at hload
    cases hload
    simpa using h
  | true =>
    cases hd : deserialize r.st.model bytes with
    | mk model ret' =>
      rw [hd] at hload
      cases ret' with
      | error e =>
        -- the card is replaced in part, under the configuration and the state of the one before
        cases hload
        have hc := hcovered hup hheader (by rw [hd]; simp)
        rw [hd] at hc
        intro page hpage
        have hlt := (Data.protects_iff _ _).mp hpage |>.1
        rcases hc with hnone | ⟨hauth, hpwd, hcover⟩
        · rw [hnone page hlt] at hpage
          cases hpage
        · exact ⟨hcover page hlt hpage, hpwd, fun hs => absurd hs hauth⟩
      | ok _ =>
        -- the configuration is read from the new pages
        obtain ⟨config, hconfig, heq⟩ := map_eq_some_iff.mp hload
        cases heq
        have hpages := (configPages_of_deserialize hd).trans hconfig
        intro page hpage
        obtain ⟨-, config', hconfig', hneeds⟩ := (Data.protects_iff _ _).mp hpage
        obtain rfl := some.inj (hpages.symm.trans hconfig')
        refine ⟨hneeds, by simp [Data.password, hpages], ?_⟩
        intro hsuccess
        obtain ⟨-, henabled, hprot⟩ := valid_of_pageNeedsAuth hneeds
        simp [authAfterLoad, henabled, hprot] at hsuccess

theorem Run.Inv.step {r' : Run cfg} {e : Event} {out : Option Bytes} (h : r.Inv)
    (hcovered : LoadCovered r.st e) (hstep : (listener tdes).step r e = some (r', out)) :
    r'.Inv := by
  cases e with
  | init =>
    cases hstep
    by_cases hup : r.st.initialized = true
    · rw [hup, Bool.and_true, listenerInit, if_pos hup]
      exact h
    · apply Run.Inv.of_empty
      rw [listenerInit, if_neg hup]
      rfl
  | shutdown =>
    cases hstep
    by_cases hup : r.st.initialized = true
    · apply Run.Inv.of_empty
      rw [listenerShutdown, if_pos hup]
      rfl
    · rw [Bool.eq_false_iff.mpr hup, Bool.not_false, Bool.and_true, listenerShutdown, if_neg hup]
      exact h
  | load bytes =>
    obtain ⟨⟨st', ret⟩, hload, heq⟩ := map_eq_some_iff.mp hstep
    cases heq
    exact h.load hcovered hload
  | command tx rnd =>
    obtain ⟨⟨st', resp⟩, hcmd, heq⟩ := map_eq_some_iff.mp hstep
    cases heq
    exact h.command hcmd

theorem inv_boot : (Run.boot : Run cfg).Inv := .of_empty rfl

theorem Run.Inv.readAllowed (h : r.Inv) (e : Event) :
    ReadAllowed r e ((listener tdes).step r e) := by
  cases e with
  | command tx rnd =>
    cases hcmd : onTagCmd tdes r.st tx rnd with
    | none => simp [listener, hcmd, ReadAllowed]
    | some x =>
      obtain ⟨st', resp⟩ := x
      cases resp with
      | none => simp [listener, hcmd, ReadAllowed]
      | some resp =>
        simp only [listener, hcmd, map_some, ReadAllowed]
        intro page hpage hprotects
        obtain ⟨hneeds, -, hauthed⟩ := h page hprotects
        have hread := pageReadable_of_disclosed hcmd hpage
        have htype := Data.hasPasswordConfig_of_protects hprotects
        apply hauthed
        by_contra hauth
        simp [pageReadable, htype, hneeds, (valid_of_pageNeedsAuth hneeds).1, hauth] at hread
  | _ => trivial

/-- In a run whose loads all succeed, fail early or leave a covered card, a READ gives the bytes of
a protected page only after its password was accepted. -/
theorem read_needs_password (tdes : Tdes) {events : List Event}
    (h : (listener tdes).Always (fun (r : Run cfg) e _ => LoadCovered r.st e) .boot events) :
    (listener tdes).Always (fun (r : Run cfg) e out => ReadAllowed r e out) .boot events :=
  Machine.Always.imp (listener tdes) (fun _ e hinv _ => hinv.readAllowed e)
    (fun _ _ _ _ hinv hcovered hstep => hinv.step hcovered hstep) inv_boot h

/-! An NTAG213 whose pages from 4 on are protected by the password `01 02 03 04`. -/

def lockedEntry : Bytes :=
  [0x01, 0xFF, 45, 0x00] ++ List.replicate 164 0xAA ++
    [0, 0, 0, 4, 0x80, 0, 0, 0, 1, 2, 3, 4, 5, 6, 0, 0] ++ [0, 0, 0, 0]

def cutEntry : Bytes := lockedEntry.take 184

def noTdes : Tdes := ⟨fun _ _ input => input, fun _ _ input => input⟩

def readPage10 : Event := .command [0x30, 10] []

def lockedEvents : List Event :=
  [.init, .load lockedEntry, .load cutEntry, readPage10, .command [0x1B, 1, 2, 3, 4] [], readPage10]

theorem read_needs_password_locked :
    (listener noTdes).Always (fun (r : Run .default) e _ => LoadCovered r.st e) .boot lockedEvents ∧
    (listener noTdes).Always (fun (r : Run .default) e out => ReadAllowed r e out) .boot
      lockedEvents := by
  have h : (listener noTdes).Always (fun (r : Run .default) e _ => LoadCovered r.st e) .boot
      lockedEvents := by decide +kernel
  exact ⟨h, read_needs_password noTdes h⟩

example : (listener noTdes).outputs (Run.boot : Run .default) lockedEvents =
    [some none, some none, some none, some (some [0x00]), some (some [5, 6]),
      some (some (List.replicate 16 0xAA))] := by decide +kernel

def afterCut : Option (Run .default) :=
  ((listener noTdes).run (Run.boot : Run .default) [.init, .load cutEntry]).map Prod.fst

theorem cut_card_is_read :
    (afterCut.map fun r => (r.st.model.protects 10, r.authed)) = some (true, false) ∧
    (afterCut.bind fun r => ((listener noTdes).step r readPage10).map Prod.snd) =
      some (some (List.replicate 16 0xAA)) ∧
    ¬ (listener noTdes).Always (fun (r : Run .default) e out => ReadAllowed r e out) .boot
      [.init, .load cutEntry, readPage10] := by
  refine ⟨?_, ?_, ?_⟩ <;> decide +kernel

end Type2

end NfcStack.Ultralight
