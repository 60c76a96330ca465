import NfcStack.Protocols.Ultralight.Authentication
import NfcStack.Protocols.Ultralight.Password

/-!
# The key pages of Ultralight C

The pages 44 to 47 of an Ultralight C card, which hold its key, are read like any other
(`outputs_eq_iff_untouched`).
-/

namespace NfcStack.Ultralight

open List Option CArray

variable {cfg : Config}

structure Data.IsUltralightC (data : Data cfg) : Prop where
  type : data.type = .mfulC
  fits : data.pagesTotal.toNat ≤ cfg.maxPages
  keyFits : 48 ≤ cfg.maxPages

structure SameButKey (a b : Data cfg) : Prop where
  fields : b = { a with pages := b.pages }
  pages : ∀ i, i < 44 * pageSize ∨ 48 * pageSize ≤ i → b.pages.get? i = a.pages.get? i

theorem SameButKey.isUltralightC {a b : Data cfg} (h : SameButKey a b) (ha : a.IsUltralightC) :
    b.IsUltralightC := by
  rw [h.fields]
  exact ⟨ha.type, ha.fits, ha.keyFits⟩

theorem SameButKey.page?_eq {a b : Data cfg} (h : SameButKey a b) {page : ℕ}
    (hpage : page ∉ List.range' 44 4) : a.page? page = b.page? page := by
  have hslice : a.pages.slice (page * pageSize) pageSize =
      b.pages.slice (page * pageSize) pageSize := by
    apply slice_congr
    intro i hi
    apply (h.pages _ _).symm
    -- a page that is not one of the four lies in front of them or behind them
    simp only [mem_range'_1, pageSize] at hpage hi ⊢
    omega
  simp only [Data.page?, CArray.read?, hslice]

theorem flatMap_eq_iff {α : Type} {l : List α} {f g : α → Bytes}
    (h : ∀ x ∈ l, (f x).length = (g x).length) :
    l.flatMap f = l.flatMap g ↔ ∀ x ∈ l, f x = g x := by
  induction l with
  | nil => simp
  | cons x l ih =>
    have hx := h x mem_cons_self
    have hl := ih fun y hy => h y (mem_cons_of_mem x hy)
    rw [flatMap_cons, flatMap_cons, forall_mem_cons, ← hl]
    constructor
    · -- the lengths say where the first part ends
      intro heq
      exact append_inj heq hx
    · rintro ⟨hfirst, hrest⟩
      rw [hfirst, hrest]

namespace Type2

def isReading (tx : Bytes) : Bool :=
  match Command.ofByte (byteAt tx 0) with
  | some .read | some .getVersion | some .readSig | some .readCnt | some .checkTearing => true
  | some .pwdAuth | some .auth | some .authCont | none => false

/-- The listener as the commands that only read show it. Each command comes with the random bytes
that an authentication would draw; the responses of the authentication are left out. -/
def readings (tdes : Tdes) : Machine (State cfg) (Bytes × Bytes) (Option Bytes) :=
  ⟨fun st cmd => (onTagCmd tdes st cmd.1 cmd.2).map fun r =>
    (r.1, if isReading cmd.1 then r.2 else none)⟩

def KeyUntouched (a b : Data cfg) (tx : Bytes) : Prop :=
  Command.ofByte (byteAt tx 0) = some .read → 2 ≤ tx.length →
    ∀ page ∈ List.range' (byteAt tx 1).toNat 4, page ∈ List.range' 44 4 →
      page < a.pagesTotal.toNat → a.page? page = b.page? page

variable {a b : Data cfg} {s t st : State cfg}

theorem readPages_of_isUltralightC (h : st.model.IsUltralightC) (n page : ℕ) :
    readPages st n page = some (some ((List.range' page n).flatMap (pageBytes st))) := by
  have htype : st.model.type.hasPasswordConfig = false := by
    rw [h.type]
    rfl
  exact readPages_of_readable h.fits fun _ _ _ hp => pageReadable_of_type htype hp

theorem desKey?_of_isUltralightC (h : st.model.IsUltralightC) : ∃ key, desKey? st = some key := by
  have hfits := h.keyFits
  exact ⟨_, read?_of_le _ (by simp only [pageSize]; omega)⟩

variable {tx : Bytes}

theorem onTagCmd_of_not_isReading (h : st.model.IsUltralightC) (tdes : Tdes)
    (htx : isReading tx = false) (rnd : Bytes) : ∃ r, onTagCmd tdes st tx rnd = some r := by
  obtain ⟨key, hkey⟩ := desKey?_of_isUltralightC h
  rw [onTagCmd]
  split
  · exact ⟨_, rfl⟩
  unfold isReading at htx
  cases hc : Command.ofByte (byteAt tx 0) with
  | none => exact ⟨_, rfl⟩
  | some c =>
    rw [hc] at htx
    cases c with
    | read | getVersion | readSig | readCnt | checkTearing => cases htx
    | pwdAuth => exact ⟨_, rfl⟩
    | auth =>
      simp only [handleCommand, handleAuthStart, hkey]
      split <;> exact ⟨_, rfl⟩
    | authCont =>
      simp only [handleCommand, handleAuthCont, hkey]
      split_ifs <;> exact ⟨_, rfl⟩

structure Holding (a b : Data cfg) (s t : State cfg) : Prop where
  left : s.model = a
  right : t.model = b
  initialized : s.initialized = true ∧ t.initialized = true

section

variable (ha : a.IsUltralightC) (hsame : SameButKey a b) (h : Holding a b s t)
include ha hsame h

theorem Holding.pageBytes_eq_iff (page : ℕ) :
    pageBytes s page = pageBytes t page ↔
      (page ∈ List.range' 44 4 → page < a.pagesTotal.toNat → a.page? page = b.page? page) := by
  have htotal : b.pagesTotal = a.pagesTotal := by rw [hsame.fields]
  have hfits := ha.fits
  rw [pageBytes, pageBytes, h.left, h.right, htotal]
  by_cases hpage : page < a.pagesTotal.toNat
  · have hread : ∀ data : Data cfg, data.page? page =
        some (data.pages.slice (page * pageSize) pageSize) := by
      intro data
      exact read?_of_le _ (by simp only [pageSize]; omega)
    rw [if_pos hpage, if_pos hpage, ← some_inj, ← hread, ← hread]
    constructor
    · intro heq _ _
      exact heq
    · intro hkey
      by_cases hmem : page ∈ List.range' 44 4
      · exact hkey hmem hpage
      · exact hsame.page?_eq hmem
  · -- behind the last page both cards show zeros
    rw [if_neg hpage, if_neg hpage]
    exact iff_of_true rfl fun _ hlt => absurd hlt hpage

theorem Holding.handleRead_eq_iff (hread : Command.ofByte (byteAt tx 0) = some .read) :
    handleRead s tx = handleRead t tx ↔ KeyUntouched a b tx := by
  have hsC : s.model.IsUltralightC := h.left ▸ ha
  have htC : t.model.IsUltralightC := h.right ▸ hsame.isUltralightC ha
  by_cases hshort : tx.length < 2
  · rw [handleRead, handleRead, if_pos hshort, if_pos hshort]
    exact iff_of_true rfl fun _ hlen => by omega
  rw [handleRead, handleRead, if_neg hshort, if_neg hshort, readPages_of_isUltralightC hsC,
    readPages_of_isUltralightC htC]
  simp only [map_some, getD_some, some_inj]
  rw [flatMap_eq_iff fun page _ =>
    (length_pageBytes hsC.fits page).trans (length_pageBytes htC.fits page).symm]
  simp only [h.pageBytes_eq_iff ha hsame]
  constructor
  · intro hpages _ _
    exact hpages
  · intro hkey
    exact hkey hread (by omega)

omit ha in
theorem Holding.handleCommand_eq (tdes : Tdes) (rnd : Bytes)
    (htx : isReading tx = true) (hread : Command.ofByte (byteAt tx 0) ≠ some .read) :
    (handleCommand tdes s tx rnd (Command.ofByte (byteAt tx 0))).map Prod.snd =
      (handleCommand tdes t tx rnd (Command.ofByte (byteAt tx 0))).map Prod.snd := by
  have hfields : t.model = { s.model with pages := t.model.pages } := by
    rw [h.left, h.right]
    exact hsame.fields
  unfold isReading at htx
  cases hc : Command.ofByte (byteAt tx 0) with
  | none =>
    rw [hc] at htx
    cases htx
  | some c =>
    rw [hc] at htx hread
    cases c with
    | read => exact absurd rfl hread
    | pwdAuth | auth | authCont => cases htx
    | getVersion | readSig | readCnt | checkTearing =>
      -- none of these looks at the pages
      simp only [handleCommand, handleReadCnt, handleTearing]
      rw [hfields]
      simp

theorem Holding.response_eq_iff (tdes : Tdes) (cmd : Bytes × Bytes) :
    ((readings tdes).step s cmd).map Prod.snd = ((readings tdes).step t cmd).map Prod.snd ↔
      KeyUntouched a b cmd.1 := by
  obtain ⟨tx, rnd⟩ := cmd
  cases htx : isReading tx with
  | false =>
    -- the response is left out on both sides, so it is enough that there is an outcome
    obtain ⟨r, hr⟩ := onTagCmd_of_not_isReading (h.left ▸ ha) tdes htx rnd
    obtain ⟨q, hq⟩ := onTagCmd_of_not_isReading (h.right ▸ hsame.isUltralightC ha) tdes htx rnd
    refine iff_of_true ?_ ?_
    · simp [readings, hr, hq, htx]
    · intro hread
      rw [isReading, hread] at htx
      cases htx
  | true =>
    have hne : tx ≠ [] := by
      rintro rfl
      cases htx
    have hstep : ∀ {st : State cfg}, st.initialized = true →
        ((readings tdes).step st (tx, rnd)).map Prod.snd =
          (handleCommand tdes st tx rnd (Command.ofByte (byteAt tx 0))).map Prod.snd := by
      intro st hst
      simp [readings, onTagCmd, hne, hst, htx]
    rw [hstep h.initialized.1, hstep h.initialized.2]
    by_cases hread : Command.ofByte (byteAt tx 0) = some .read
    · rw [hread, ← h.handleRead_eq_iff ha hsame hread]
      simp [handleCommand, Function.comp_def]
    · exact iff_of_true (h.handleCommand_eq hsame tdes rnd htx hread)
        fun hr => absurd hr hread

end

theorem onTagCmd_initialized {tdes : Tdes} {st' : State cfg} {rnd : Bytes} {resp : Option Bytes}
    (h : onTagCmd tdes st tx rnd = some (st', resp)) : st'.initialized = st.initialized := by
  rw [onTagCmd] at h
  split at h
  · cases h
    rfl
  cases hc : Command.ofByte (byteAt tx 0) with
  | none =>
    rw [hc] at h
    cases h
    rfl
  | some c =>
    rw [hc] at h
    cases c with
    | getVersion | readSig =>
      cases h
      rfl
    | read | readCnt | checkTearing =>
      obtain ⟨_, -, heq⟩ := map_eq_some_iff.mp h
      cases heq
      rfl
    | pwdAuth =>
      simp only [handleCommand, handlePwdAuth] at h
      split at h <;> cases h <;> rfl
    | auth =>
      simp only [handleCommand, handleAuthStart] at h
      split at h
      · cases h
        rfl
      · obtain ⟨_, -, heq⟩ := map_eq_some_iff.mp h
        cases heq
        rfl
    | authCont =>
      simp only [handleCommand, handleAuthCont] at h
      split_ifs at h
      · cases h
        rfl
      · obtain ⟨_, -, heq⟩ := map_eq_some_iff.mp h
        split at heq <;> cases heq <;> rfl
      · cases h
        rfl

theorem Holding.step (h : Holding a b s t) (tdes : Tdes) {cmd : Bytes × Bytes}
    {p q : State cfg × Option Bytes} (hs : (readings tdes).step s cmd = some p)
    (ht : (readings tdes).step t cmd = some q) : Holding a b p.1 q.1 := by
  obtain ⟨x, hx, rfl⟩ := map_eq_some_iff.mp hs
  obtain ⟨y, hy, rfl⟩ := map_eq_some_iff.mp ht
  exact {
    left := (onTagCmd_effect hx).model.trans h.left
    right := (onTagCmd_effect hy).model.trans h.right
    initialized := ⟨(onTagCmd_initialized hx).trans h.initialized.1,
      (onTagCmd_initialized hy).trans h.initialized.2⟩ }

theorem outputs_eq_iff_untouched (tdes : Tdes) (ha : a.IsUltralightC) (hsame : SameButKey a b)
    (h : Holding a b s t) (cmds : List (Bytes × Bytes)) :
    (readings tdes).outputs s cmds = (readings tdes).outputs t cmds ↔
      (readings tdes).Always (fun _ cmd _ => KeyUntouched a b cmd.1) s cmds := by
  apply Machine.outputs_eq_iff (readings tdes) (readings tdes)
    (fun s t cmd hst _ _ hkey => ?_) (fun s t cmd hst _ _ hout => ?_) h
    (Machine.Always.trivial _ _ _) (Machine.Always.trivial _ _ _)
  · apply Machine.Matches.of_snd_eq ((hst.response_eq_iff ha hsame tdes cmd).mpr hkey)
    intro p q hp hq
    exact hst.step tdes hp hq
  · exact (hst.response_eq_iff ha hsame tdes cmd).mp hout

def zeroKeyCard : State .default :=
  { keyCard with model := { keyCard.model with pages := .fill _ 0 } }

theorem keyCard_isUltralightC : keyCard.model.IsUltralightC := ⟨rfl, by decide, by decide⟩

theorem keyCard_sameButKey : SameButKey keyCard.model zeroKeyCard.model := by
  refine ⟨rfl, ?_⟩
  intro i hi
  have hwrite := get?_write (CArray.fill (Config.default.maxPages * pageSize) (0 : UInt8))
    (show 176 + cardKey.toList.length ≤ _ by decide) i
  refine (hwrite.trans (if_neg ?_)).symm
  rw [cardKey.length_toList]
  simp only [pageSize] at hi
  omega

theorem keyCard_holding : Holding keyCard.model zeroKeyCard.model keyCard zeroKeyCard :=
  ⟨rfl, rfl, rfl, rfl⟩

theorem outputs_eq_before_key :
    (readings tdes2).outputs keyCard [([0x30, 40], []), ([0x1A, 0x00], List.replicate 8 1)] =
      (readings tdes2).outputs zeroKeyCard
        [([0x30, 40], []), ([0x1A, 0x00], List.replicate 8 1)] := by
  apply (outputs_eq_iff_untouched tdes2 keyCard_isUltralightC keyCard_sameButKey
    keyCard_holding _).mpr
  apply Machine.Always.of_forall
  intro cmd hcmd
  simp only [mem_cons, not_mem_nil, or_false] at hcmd
  rcases hcmd with rfl | rfl
  · intro _ _ page hread hkey
    simp [byteAt] at hread hkey
    omega
  · intro hread
    cases hread

theorem key_is_read : SameButKey keyCard.model zeroKeyCard.model ∧
    Holding keyCard.model zeroKeyCard.model keyCard zeroKeyCard ∧
    keyCard.auth = .idle ∧ zeroKeyCard.auth = .idle ∧
    (readings tdes2).outputs keyCard [([0x30, 44], [])] = [some (some cardKey.toList)] ∧
    (readings tdes2).outputs keyCard [([0x30, 44], [])] ≠
      (readings tdes2).outputs zeroKeyCard [([0x30, 44], [])] := by
  refine ⟨keyCard_sameButKey, keyCard_holding, rfl, rfl, ?_, ?_⟩ <;> decide +kernel

end Type2

end NfcStack.Ultralight
