import NfcStack.Protocols.Ultralight.Capture
import NfcStack.Reader.Stream

/-!
# What the Ultralight poller took from the tag

The configuration pages are taken for read once the first of them is. On an NTAG215 and an NTAG216 the
others are in the next group, so the password is tried before it was read (`pwdAuth_provenance_iff`).
-/

namespace NfcStack.Ultralight

open List Option CArray Reader Hoare

variable {cfg : Config} {τ : Type} {s : Session τ}

def taken (size : ℕ) : Except Errno Bytes → Option Bytes
  | .error _ => none
  | .ok rx => if rx.length < size ∨ maxResponseLen < rx.length then none else some (rx.take size)

def readFrame (start : ℕ) : Bytes := [0x30, UInt8.ofNat start]

def ReadAt (log : List Exchange) (start : ℕ) (bytes : Bytes) : Prop :=
  ∃ x, (readFrame start, x) ∈ log ∧ taken 16 x = some bytes

def pageIn (bytes : Bytes) (page : ℕ) : Bytes := (bytes.drop (page % 4 * pageSize)).take pageSize

def ReceivedPage (log : List Exchange) (page : ℕ) (bytes : Bytes) : Prop :=
  ∃ group, ReadAt log (4 * (page / 4)) group ∧ bytes = pageIn group page

variable {log' : List Exchange}

theorem readAt_append {log : List Exchange} {start : ℕ} {bytes : Bytes} :
    ReadAt (log ++ log') start bytes ↔ ReadAt log start bytes ∨ ReadAt log' start bytes := by
  simp only [ReadAt, mem_append, or_and_right, exists_or]

theorem adds_pollerCommand (hs : s.active = true) (tx : Bytes) (size : ℕ) :
    Adds (pollerCommand (logged s) maxResponseLen tx size) fun r seg =>
      ∃ x, seg = [(tx, x)] ∧ r.toOption = taken size x := by
  rw [pollerCommand, pollerTransceive_of_le _ le_rfl]
  refine (adds_transceive hs maxResponseLen tx).bind ?_
  rintro r seg ⟨x, rfl, rfl⟩
  cases x with
  | error e => exact .pure ⟨_, rfl, rfl⟩
  | ok rx =>
    by_cases hlen : maxResponseLen < rx.length
    · simp only [Except.bind, if_pos hlen]
      exact .pure ⟨_, rfl, by simp [taken, hlen, Except.toOption]⟩
    · simp only [Except.bind, if_neg hlen]
      refine .pure ⟨_, rfl, ?_⟩
      by_cases hshort : rx.length < size <;> simp [taken, hlen, hshort, Except.toOption]

def IsGuess (config : ConfigBlock) (tx : Bytes) : Prop :=
  ∃ pwd, tx = 0x1B :: pwd ∧ config.valid = true ∧
    (pwd = config.pwd ∨ pwd = [0xFF, 0xFF, 0xFF, 0xFF] ∧ config.authlim = 0)

variable {config : ConfigBlock} {start : ℕ} {seg : List Exchange} {tx : Bytes}

theorem IsGuess.ne_readFrame (h : IsGuess config tx) (start : ℕ) : tx ≠ readFrame start := by
  rintro rfl
  obtain ⟨pwd, hpwd, -⟩ := h
  cases hpwd

theorem not_readAt_guesses (h : ∀ e ∈ seg, IsGuess config e.1) (start : ℕ) (bytes : Bytes) :
    ¬ ReadAt seg start bytes :=
  fun ⟨_, hx, _⟩ => (h _ hx).ne_readFrame start rfl

theorem adds_pollerPwdAuth (hs : s.active = true) (pwd : Bytes) :
    Adds (pollerPwdAuth (logged s) pwd) fun _ seg => ∃ x, seg = [(0x1B :: pwd, x)] := by
  refine (adds_pollerCommand hs _ 2).bind ?_
  rintro r seg ⟨x, rfl, -⟩
  cases r <;> exact .pure ⟨x, rfl⟩

def Tried (config : ConfigBlock) (seg : List Exchange) : Prop :=
  ∃ x rest, seg = (0x1B :: config.pwd, x) :: rest ∧ ∀ e ∈ seg, IsGuess config e.1

theorem adds_tryPwdAuth (hs : s.active = true) (hvalid : config.valid = true) :
    Adds (tryPwdAuth (logged s) config false) fun _ => Tried config := by
  have hguess : IsGuess config (0x1B :: config.pwd) := ⟨_, rfl, hvalid, .inl rfl⟩
  rw [tryPwdAuth, if_neg (by decide), if_neg (by simp [hvalid])]
  refine (adds_pollerPwdAuth hs _).bind ?_
  rintro r seg ⟨x, rfl⟩
  cases r with
  | ok _ => exact .done ⟨x, [], rfl, by simpa using hguess⟩
  | error e =>
    by_cases hlim : config.authlim = 0
    swap
    · simp only [if_pos hlim]
      exact .done ⟨x, [], rfl, by simpa using hguess⟩
    simp only [if_neg (not_not.mpr hlim)]
    refine (adds_pollerPwdAuth hs _).bind ?_
    rintro r seg ⟨y, rfl⟩
    have hboth : ∀ e ∈ [((0x1B : UInt8) :: config.pwd, x)] ++
        [([0x1B, 0xFF, 0xFF, 0xFF, 0xFF], y)], IsGuess config e.1 := by
      simp only [mem_append, mem_singleton]
      rintro e (rfl | rfl)
      · exact hguess
      · exact ⟨_, rfl, hvalid, .inr ⟨rfl, hlim⟩⟩
    cases r <;> exact .done ⟨x, _, rfl, hboth⟩

/-- One pass over the group at `start`: what it sends, and what its READ was answered with. -/
structure Pass (config : ConfigBlock) (start : ℕ) (r : Bool × Option Bytes)
    (seg : List Exchange) : Prop where
  frames : ∀ e ∈ seg, e.1 = readFrame start ∨ IsGuess config e.1
  read : ∀ bytes, ReadAt seg start bytes ↔ r.2 = some bytes

def ReadFailed (seg : List Exchange) (start : ℕ) : Prop :=
  ∃ x, (readFrame start, x) ∈ seg ∧ taken 16 x = none

def Guessed (config : ConfigBlock) (start : ℕ) (seg : List Exchange) : Prop :=
  ∃ pre x post, seg = pre ++ (0x1B :: config.pwd, x) :: post ∧ ∀ bytes, ¬ ReadAt pre start bytes

variable {x : Except Errno Bytes}

theorem readAt_singleton {bytes : Bytes} :
    ReadAt [(readFrame start, x)] start bytes ↔ taken 16 x = some bytes := by
  constructor
  · rintro ⟨y, hy, hbytes⟩
    cases mem_singleton.mp hy
    exact hbytes
  · intro h
    exact ⟨x, mem_singleton_self _, h⟩

theorem adds_readOrAuth (hs : s.active = true) (authenticated : Bool) :
    Adds (readOrAuth (logged s) config authenticated start) fun r seg => Pass config start r seg ∧
      (config.valid = false → r.1 = authenticated) ∧
      (authenticated = false → config.valid = true → ReadFailed seg start →
        Guessed config start seg) ∧
      (¬ ReadFailed seg start → ∀ e ∈ seg, e.1 = readFrame start) := by
  refine (adds_pollerCommand hs _ 16).bind ?_
  rintro r seg ⟨x, rfl, hr⟩
  have hframe : ∀ e ∈ [(readFrame start, x)], e.1 = readFrame start := by simp
  cases r with
  | ok bytes =>
    have hx : taken 16 x = some bytes := hr.symm
    refine .done ⟨⟨fun e he => .inl (hframe e he), fun b => readAt_singleton.trans (by rw [hx])⟩,
      fun _ => rfl, ?_, fun _ => hframe⟩
    · rintro - - ⟨y, hy, hnone⟩
      cases mem_singleton.mp hy
      cases hx.symm.trans hnone
  | error e =>
    have hx : taken 16 x = none := hr.symm
    have hfirst : ∀ bytes, ¬ ReadAt [(readFrame start, x)] start bytes := by
      intro bytes h
      cases hx.symm.trans (readAt_singleton.mp h)
    have hfailed : ∀ seg', ReadFailed ([(readFrame start, x)] ++ seg') start := by
      intro seg'
      exact ⟨x, by simp, hx⟩
    by_cases hstop : authenticated = true ∨ ¬ config.valid = true
    · simp only [if_pos hstop]
      exact .done ⟨⟨fun e he => .inl (hframe e he), fun b => iff_of_false (hfirst b) nofun⟩,
        fun _ => rfl, fun ha hv => by simp [ha, hv] at hstop, fun _ => hframe⟩
    simp only [if_neg hstop]
    rw [not_or, not_not, Bool.not_eq_true] at hstop
    obtain ⟨rfl, hvalid⟩ := hstop
    refine (adds_tryPwdAuth hs hvalid).bind ?_
    rintro ⟨b, ret⟩ seg ⟨y, rest, rfl, hguess⟩
    have hno := not_readAt_guesses hguess start
    have hinvalid : ¬ config.valid = false := by simp [hvalid]
    have hguessed : ∀ seg', Guessed config start ([(readFrame start, x)] ++
        ((0x1B :: config.pwd, y) :: rest ++ seg')) := by
      intro seg'
      exact ⟨_, y, rest ++ seg', rfl, hfirst⟩
    cases b with
    | false =>
      refine .pure ⟨⟨?_, fun bytes => ?_⟩, fun h => absurd h hinvalid, fun _ _ _ => hguessed [],
        fun h => absurd (hfailed _) h⟩ <;> simp only [append_nil]
      · exact fun e he => (mem_append.mp he).imp (hframe e) (hguess e)
      · rw [readAt_append]
        exact iff_of_false (by rintro (h | h); exacts [hfirst _ h, hno _ h]) nofun
    | true =>
      refine (adds_pollerCommand hs _ 16).bind ?_
      rintro r seg ⟨z, rfl, hr⟩
      refine .done ⟨⟨?_, fun bytes => ?_⟩, fun h => absurd h hinvalid, fun _ _ _ => hguessed _,
        fun h => absurd (hfailed _) h⟩
      · intro e he
        simp only [mem_append, mem_singleton] at he
        rcases he with rfl | he | rfl
        · exact .inl rfl
        · exact .inr (hguess e he)
        · exact .inl rfl
      · rw [readAt_append, readAt_append, hr]
        refine ⟨?_, fun h => .inr (.inr (readAt_singleton.mpr h))⟩
        rintro (h | h | h)
        · exact absurd h (hfirst _)
        · exact absurd h (hno _)
        · exact readAt_singleton.mp h

theorem Pass.of_guesses (h : ∀ e ∈ seg, IsGuess config e.1) (b : Bool) :
    Pass config start (b, none) seg :=
  ⟨fun e he => .inr (h e he), fun bytes => iff_of_false (not_readAt_guesses h start bytes) nofun⟩

variable {pre : List Exchange}

theorem Pass.prepend {r : Bool × Option Bytes} (h : Pass config start r seg)
    (hpre : ∀ e ∈ pre, IsGuess config e.1) : Pass config start r (pre ++ seg) where
  frames e he := (mem_append.mp he).elim (fun h' => .inr (hpre e h')) (h.frames e)
  read bytes := by
    rw [readAt_append, ← h.read, or_iff_right (not_readAt_guesses hpre start bytes)]

structure Chunk (config : ConfigBlock) (start : ℕ) (r : Bool × Option Bytes)
    (seg : List Exchange) : Prop extends Pass config start r seg where
  unauthenticated : config.valid = false → r.1 = false
  guessed : config.valid = true → readProtectionEnabled config = true ∨ ReadFailed seg start →
    Guessed config start seg
  quiet : readProtectionEnabled config = false → ¬ ReadFailed seg start →
    ∀ e ∈ seg, e.1 = readFrame start

theorem adds_readChunk (hs : s.active = true) {data : Data cfg}
    (hconfig : config.valid = true →
      data.type.hasPasswordConfig = true ∧ configStart data.pagesTotal ≤ start) :
    Adds (readChunk (logged s) data config false start) (Chunk config start) := by
  by_cases hprot : readProtectionEnabled config = true
  swap
  · have hread : readChunk (logged s) data config false start =
        readOrAuth (logged s) config false start := by
      simp [readChunk, authBeforeConfig, pageNeedsAuth, hprot]
    rw [hread]
    refine (adds_readOrAuth hs false).mono ?_
    rintro r seg ⟨hpass, hunauth, hguessed, hquiet⟩
    exact ⟨hpass, hunauth, fun hv h => hguessed rfl hv (h.resolve_left hprot), fun _ => hquiet⟩
  have hvalid : config.valid = true := by
    simp only [readProtectionEnabled, Bool.and_eq_true] at hprot
    exact hprot.1
  -- the password goes first, so that nothing is left to show but the frames and the READ
  have hchunk : ∀ r x rest seg', (∀ e ∈ (0x1B :: config.pwd, x) :: rest, IsGuess config e.1) →
      Pass config start r seg' →
        Chunk config start r ((0x1B :: config.pwd, x) :: rest ++ seg') := by
    intro r x rest seg' hguess hpass
    refine ⟨hpass.prepend hguess, fun h => ?_, fun _ _ => ⟨[], x, rest ++ seg', rfl, ?_⟩,
      fun h => ?_⟩
    · simp [hvalid] at h
    · rintro bytes ⟨y, hy, -⟩
      cases hy
    · simp [hprot] at h
  obtain ⟨htype, hstart⟩ := hconfig hvalid
  rw [readChunk, authBeforeConfig, if_pos ⟨htype, hvalid, by decide, hprot, hstart⟩]
  refine ((adds_tryPwdAuth hs hvalid).map (R := fun _ => Tried config) fun _ _ h => h).bind ?_
  rintro authenticated seg ⟨x, rest, rfl, hguess⟩
  by_cases hneeds : pageNeedsAuth config start = true ∧ ¬ authenticated = true
  · simp only [if_pos hneeds]
    obtain rfl : authenticated = false := by simpa using hneeds.2
    refine (adds_tryPwdAuth hs hvalid).bind ?_
    rintro ⟨b, ret⟩ seg₂ ⟨y, rest₂, rfl, hguess₂⟩
    by_cases hret : ret = .ok ()
    · simp only [hret, ne_eq, not_true_eq_false, if_false]
      refine (adds_readOrAuth hs b).mono ?_
      rintro r seg₃ ⟨hpass, -⟩
      exact hchunk r x rest _ hguess (hpass.prepend hguess₂)
    · simp only [ne_eq, hret, not_false_eq_true, if_true]
      exact .done (hchunk _ x rest _ hguess (.of_guesses hguess₂ b))
  · simp only [if_neg hneeds]
    exact (adds_readOrAuth hs authenticated).mono fun r seg₂ h => hchunk r x rest seg₂ hguess h.1

variable {k : ℕ}

theorem readFrame_inj (hk : k < 256) (hstart : start < 256)
    (h : readFrame k = readFrame start) : k = start := by
  have h := congrArg UInt8.toNat (List.cons.inj (List.cons.inj h).2).1
  rwa [UInt8.toNat_ofNat', UInt8.toNat_ofNat', Nat.mod_eq_of_lt hk, Nat.mod_eq_of_lt hstart] at h

def IsPwdAuth (tx : Bytes) : Prop := ∃ pwd, tx = 0x1B :: pwd

/-- What the log and the pages have in common before the pass over the group at `start`. -/
structure Loop (start : ℕ) (data : Data cfg) (log : List Exchange) : Prop where
  aligned : start % 4 = 0
  count : data.pagesRead.toNat = min start data.pagesTotal.toNat
  received : ∀ p < data.pagesRead.toNat, ∃ group, ReadAt log (4 * (p / 4)) group ∧
    data.page? p = some (pageIn group p)
  unique : ∀ k, 4 * k < 256 → ∀ group group', ReadAt log (4 * k) group →
    ReadAt log (4 * k) group' → group = group'
  fresh : ∀ e ∈ log, ∀ k, start ≤ 4 * k → 4 * k < 256 → e.1 ≠ readFrame (4 * k)
  zeros : data.type.hasPasswordConfig = true → ZeroFrom data.pages (start * pageSize)

variable {size : ℕ}

theorem length_of_taken {bytes : Bytes} (h : taken size x = some bytes) : bytes.length = size := by
  cases x with
  | error e => cases h
  | ok rx =>
    simp only [taken] at h
    split at h
    · cases h
    · cases h
      rw [length_take]
      omega

variable {data data' : Data cfg} {bytes : Bytes} {log : List Exchange}

theorem copyReadChunk_fields (h : copyReadChunk data start bytes = some data') :
    data'.type = data.type ∧ data'.pagesTotal = data.pagesTotal := by
  obtain ⟨pages, -, rfl⟩ := map_eq_some_iff.mp h
  exact ⟨rfl, rfl⟩

theorem copyReadChunk_page? (h : copyReadChunk data start bytes = some data')
    (hstart : start % 4 = 0) (hlen : bytes.length = 16) {p : ℕ} (hp : p < start + 4)
    (htotal : p < data.pagesTotal.toNat) :
    data'.page? p = if p < start then data.page? p else some (pageIn bytes p) := by
  obtain ⟨pages, hwrite, rfl⟩ := map_eq_some_iff.mp h
  have hfit := le_of_write? hwrite
  rw [write?_of_le _ hfit, some.injEq] at hwrite
  subst hwrite
  have hroom : start * 4 + min ((data.pagesTotal.toNat - start) * 4) 16 ≤ cfg.maxPages * 4 := by
    simpa [hlen, pageSize] using hfit
  show CArray.read? _ _ _ = _
  rw [read?_of_le _ (by simp only [pageSize]; omega)]
  by_cases hold : p < start
  · rw [if_pos hold, slice_write_of_disjoint _ hfit (.inl (by simp only [pageSize]; omega))]
    exact (read?_of_le _ (by simp only [pageSize]; omega)).symm
  · rw [if_neg hold, some.injEq]
    apply ext_getElem?
    intro i
    rw [getElem?_slice, get?_write _ hfit, pageIn, getElem?_take, getElem?_take]
    by_cases hi : i < pageSize
    swap
    · rw [if_neg hi, if_neg hi]
    have hoff : p * pageSize + i - start * pageSize = p % 4 * pageSize + i ∧
        p % 4 * pageSize + i < (data.pagesTotal.toNat - start) * pageSize ∧
        p % 4 * pageSize + i < 16 ∧ start * pageSize ≤ p * pageSize + i := by
      simp only [pageSize] at hi ⊢
      omega
    rw [if_pos hi, if_pos hi, if_pos ⟨hoff.2.2.2, by rw [length_take]; omega⟩, hoff.1,
      if_pos hoff.2.1, getElem?_drop]

theorem Pass.readAt_ne {r : Bool × Option Bytes} (h : Pass config start r seg)
    (hk : k < 256) (hstart : start < 256) (hne : k ≠ start) (group : Bytes) : ¬ ReadAt seg k group := by
  rintro ⟨x, hx, -⟩
  rcases h.frames _ hx with hread | hguess
  · exact hne (readFrame_inj hk hstart hread)
  · exact hguess.ne_readFrame k rfl

theorem Loop.not_readAt (h : Loop start data log) (hk : start ≤ 4 * k)
    (hsmall : 4 * k < 256) (group : Bytes) : ¬ ReadAt log (4 * k) group := by
  rintro ⟨x, hx, -⟩
  exact h.fresh _ hx k hk hsmall rfl

theorem Loop.step {r : Bool × Option Bytes} (h : Loop start data log)
    (hlt : start < data.pagesTotal.toNat) (hsmall : data.pagesTotal.toNat ≤ 256)
    (hpass : Pass config start r seg) (hr : r.2 = some bytes)
    (hcopy : copyReadChunk data start bytes = some data') :
    Loop (start + 4) data' (log ++ seg) := by
  have hstart : start < 256 := by omega
  have hread := (hpass.read bytes).mpr hr
  have hlen : bytes.length = 16 := by
    obtain ⟨x, -, hx⟩ := hread
    exact length_of_taken hx
  obtain ⟨htype, htotal⟩ := copyReadChunk_fields hcopy
  have hcount := pagesRead_of_copyReadChunk hcopy
  have haligned := h.aligned
  refine ⟨by omega, by rw [hcount, htotal], ?_, ?_, ?_, ?_⟩
  · intro p hp
    rw [copyReadChunk_page? hcopy h.aligned hlen (by omega) (by omega)]
    by_cases hold : p < start
    · obtain ⟨group, hgroup, hpage⟩ := h.received p (by rw [h.count]; omega)
      exact ⟨group, readAt_append.mpr (.inl hgroup), by rw [if_pos hold, hpage]⟩
    · refine ⟨bytes, readAt_append.mpr (.inr ?_), by rw [if_neg hold]⟩
      rwa [show 4 * (p / 4) = start by omega]
  · intro k hk group group' hg hg'
    rw [readAt_append] at hg hg'
    by_cases hks : 4 * k = start
    · -- the group of this pass is not in the log before it
      have hnot := h.not_readAt (Nat.le_of_eq hks.symm) hk
      have hg := hg.resolve_left (hnot group)
      have hg' := hg'.resolve_left (hnot group')
      rw [hks, hpass.read] at hg hg'
      exact some.inj (hg.symm.trans hg')
    · have hnot := hpass.readAt_ne hk hstart hks
      exact h.unique k hk group group' (hg.resolve_right (hnot _)) (hg'.resolve_right (hnot _))
  · intro e he k hk hk'
    rcases mem_append.mp he with he | he
    · exact h.fresh e he k (by omega) hk'
    · rcases hpass.frames e he with hread | hguess
      · intro heq
        have := readFrame_inj hk' hstart (heq.symm.trans hread)
        omega
      · exact hguess.ne_readFrame _
  · intro hpwd
    obtain ⟨pages, hwrite, rfl⟩ := map_eq_some_iff.mp hcopy
    rw [write?_of_le _ (le_of_write? hwrite), some.injEq] at hwrite
    subst hwrite
    refine (h.zeros hpwd).write (by simp only [pageSize]; omega) ?_
    rw [length_take]
    simp only [pageSize]
    omega

theorem Data.HasConfig.configStart (h : data.HasConfig) :
    Ultralight.configStart data.pagesTotal = data.pagesTotal.toNat - 4 :=
  if_neg fun hlt => absurd h.2.1 (Nat.not_le.mpr hlt)

theorem Loop.last (h : Loop start data log) (hconfig : parseConfig data = some config)
    (hvalid : config.valid = true) : data.pagesTotal.toNat < start + 4 := by
  have hread := (parseConfig_inv hconfig hvalid).1.2.2
  rw [h.count] at hread
  omega

/-- The pass that ends the loop: its READ has failed, or the group is the last one. -/
inductive LastPass (data' : Data cfg) : List Exchange → Prop
  | intro (start : ℕ) (data : Data cfg) (log seg : List Exchange) (config : ConfigBlock)
      (r : Bool × Option Bytes) (loop : Loop start data log) (lt : start < data.pagesTotal.toNat)
      (known : data.pagesTotal = pagesTotalForType data.type)
      (silent : ∀ e ∈ log, ¬ IsPwdAuth e.1) (parsed : parseConfig data = some config)
      (chunk : Chunk config start r seg)
      (ended : r.2 = none ∧ data' = data ∨ ∃ bytes, r.2 = some bytes ∧
        copyReadChunk data start bytes = some data' ∧ data.pagesTotal.toNat ≤ start + 4) :
      LastPass data' (log ++ seg)

theorem pagesTotal_le (hfor : data.pagesTotal = pagesTotalForType data.type) :
    data.pagesTotal.toNat ≤ 256 := by
  rw [hfor]
  cases data.type <;> decide

theorem lastPass_of_readPagesFrom (hs : s.active = true) {n : ℕ} {t t' : τ}
    (h : Loop start data log) (hlt : start < data.pagesTotal.toNat)
    (hfor : data.pagesTotal = pagesTotalForType data.type)
    (hn : n = (data.pagesTotal.toNat - start + 3) / 4) (hpwd : ∀ e ∈ log, ¬ IsPwdAuth e.1)
    (hrun : readPagesFrom (logged s) n start false data (t, log) = some (data', (t', log'))) :
    LastPass data' log' := by
  induction n generalizing start data t log with
  | zero => omega
  | succ n ih =>
    rw [readPagesFrom] at hrun
    cases hconfig : parseConfig data with
    | none =>
      rw [hconfig] at hrun
      cases hrun
    | some config =>
      rw [hconfig] at hrun
      obtain ⟨r, ⟨t₁, log₁⟩, hchunk, hrest⟩ := Poll.bind_eq_some hrun
      have hstart : config.valid = true →
          data.type.hasPasswordConfig = true ∧ configStart data.pagesTotal ≤ start := by
        intro hv
        obtain ⟨hhas, -⟩ := parseConfig_inv hconfig hv
        have := h.last hconfig hv
        exact ⟨hhas.1, by rw [hhas.configStart]; omega⟩
      obtain ⟨seg, rfl, hseg⟩ := adds_readChunk hs hstart _ _ _ hchunk
      obtain ⟨authenticated, _ | bytes⟩ := r
      · cases hrest
        exact ⟨start, _, log, seg, config, _, h, hlt, hfor, hpwd, hconfig, hseg, .inl ⟨rfl, rfl⟩⟩
      simp only at hrest
      cases hcopy : copyReadChunk data start bytes with
      | none =>
        rw [hcopy] at hrest
        cases hrest
      | some data₁ =>
        rw [hcopy] at hrest
        by_cases hend : data.pagesTotal.toNat ≤ start + 4
        · obtain rfl : n = 0 := by omega
          cases hrest
          exact ⟨start, data, log, seg, config, _, h, hlt, hfor, hpwd, hconfig, hseg,
            .inr ⟨bytes, rfl, hcopy, hend⟩⟩
        -- the configuration is not complete yet, so that no password was tried
        have hinvalid : config.valid = false := by
          by_contra hv
          have := h.last hconfig (by simpa using hv)
          omega
        obtain rfl : authenticated = false := hseg.unauthenticated hinvalid
        obtain ⟨htype, htotal⟩ := copyReadChunk_fields hcopy
        have hnext := h.step hlt (pagesTotal_le hfor) hseg.toPass rfl hcopy
        have hlog₁ : ∀ e ∈ log ++ seg, ¬ IsPwdAuth e.1 := by
          intro e he
          rcases mem_append.mp he with he | he
          · exact hpwd e he
          · rcases hseg.frames e he with hread | ⟨pwd, -, hv, -⟩
            · rintro ⟨pwd, hp⟩
              cases hread.symm.trans hp
            · rw [hinvalid] at hv
              cases hv
        rw [← htype, ← htotal] at hfor
        rw [← htotal] at hn hend
        exact ih hnext (by omega) hfor (by omega) hlog₁ hrest

def Quiet (tx : Bytes) : Prop := ¬ IsPwdAuth tx ∧ ∀ k, 4 * k < 256 → tx ≠ readFrame (4 * k)

variable {b : UInt8}

theorem quiet_cons (rest : Bytes) (hpwd : b ≠ 0x1B) (hread : b ≠ 0x30) : Quiet (b :: rest) := by
  refine ⟨?_, fun k _ h => hread (List.cons.inj h).1⟩
  rintro ⟨pwd, h⟩
  exact hpwd (List.cons.inj h).1

theorem quiet_authenticate : Quiet [0x1A, 0x00] := quiet_cons _ (by decide) (by decide)

section Talks

variable {P : ∀ {α : Type}, Poll τ α → Prop} (h : Talks s Quiet P)
include h

theorem talks_pollerCommand (htx : Quiet tx) (size : ℕ) : P (pollerCommand s maxResponseLen tx size) := by
  rw [pollerCommand, pollerTransceive_of_le s le_rfl]
  refine h.bind (h.exchange _ htx) fun r => ?_
  cases r <;> exact h.pure _

theorem talks_pollerSendAuthCmd (htx : Quiet tx) (initial : Bool) :
    P (pollerSendAuthCmd s tx initial) := by
  rw [pollerSendAuthCmd, pollerTransceive_of_le s le_rfl]
  refine h.bind (h.exchange _ htx) fun r => ?_
  cases r with
  | error e => exact h.pure _
  | ok rx =>
    simp only
    split_ifs <;> exact h.pure _

theorem talks_identifyType : P (identifyType s) := by
  have hprobe : P (identifyUnversioned s) := by
    have htest : P (pollerAuthenticationTest s) := by
      refine h.bind (talks_pollerSendAuthCmd h quiet_authenticate true) fun r => ?_
      cases r <;> exact h.pure _
    have hlast : Quiet [0x30, 41] := by
      refine ⟨by rintro ⟨pwd, ⟨⟩⟩, fun k hk h => ?_⟩
      have h := congrArg UInt8.toNat (List.cons.inj (List.cons.inj h).2).1
      rw [UInt8.toNat_ofNat'] at h
      have : (41 : UInt8).toNat = 41 := rfl
      omega
    refine h.bind htest fun r => ?_
    cases r with
    | ok _ => exact h.pure _
    | error e =>
      refine h.bind (talks_pollerCommand h hlast 16) fun r => ?_
      cases r <;> exact h.pure _
  refine h.bind (talks_pollerCommand h (quiet_cons _ (by decide) (by decide)) 8) fun r => ?_
  cases r with
  | error e => exact h.bind hprobe fun _ => h.pure _
  | ok version =>
    simp only
    split
    · exact h.pure _
    · exact h.bind hprobe fun _ => h.pure _

theorem talks_pollerAuthenticate (key : CArray UInt8 16) (rndA : CArray UInt8 8) :
    P (pollerAuthenticate s key rndA) := by
  refine h.bind (talks_pollerSendAuthCmd h quiet_authenticate true) fun r => ?_
  cases r with
  | error e => exact h.pure _
  | ok rx =>
    refine h.bind (talks_pollerSendAuthCmd h (quiet_cons _ (by decide) (by decide)) false) fun r => ?_
    cases r <;> exact h.pure _

theorem talks_readItems (hb : b ≠ 0x1B ∧ b ≠ 0x30)
    (store : Data cfg → ℕ → Bytes → Data cfg) (n i : ℕ) (data : Data cfg) :
    P (readItems (fun i => pollerCommand s maxResponseLen [b, i] size) store n i data) := by
  induction n generalizing i data with
  | zero => exact h.pure _
  | succ n ih =>
    refine h.bind (talks_pollerCommand h (quiet_cons _ hb.1 hb.2) size) fun r => ?_
    cases r <;> exact ih _ _

theorem talks_readExtras (data : Data cfg) : P (readExtras s data) := by
  refine h.bind ?_ fun data => ?_
  · refine h.bind (talks_pollerCommand h (quiet_cons _ (by decide) (by decide)) 32) fun r => ?_
    cases r <;> exact h.pure _
  · refine h.bind (talks_readItems h (by decide) _ 3 0 data) fun data => ?_
    exact talks_readItems h (by decide) _ 3 0 data

end Talks

theorem sends_authBeforePages (hs : s.active = true) (rndA : CArray UInt8 8) (data : Data cfg) :
    Sends Quiet (authBeforePages (logged s) rndA data) := by
  have h := talks_sends (F := Quiet) hs
  unfold authBeforePages
  split
  swap
  · exact h.pure _
  refine h.map ?_ _
  unfold authUltralightC
  split
  · exact Adds.undefined
  refine h.bind (talks_pollerAuthenticate h _ _) fun r => ?_
  split
  · split
    · exact Adds.undefined
    · exact h.pure _
  · exact h.pure _

def SamePages (data out : Data cfg) : Prop :=
  out.pages = data.pages ∧ out.pagesRead = data.pagesRead ∧ out.pagesTotal = data.pagesTotal ∧
    out.type = data.type

theorem ensures_readExtras_pages (s : Session τ) (data : Data cfg) :
    Ensures (readExtras s data) (SamePages data) := by
  refine Ensures.bind (Q := SamePages data) ?_ fun d hd => ?_
  · refine (Ensures.trivial _).bind fun r _ => ?_
    cases r <;> exact .pure ⟨rfl, rfl, rfl, rfl⟩
  refine Ensures.bind (ensures_readItems (fun i => ensures_pollerCommand s [0x39, i] 3)
    (P := fun _ => SamePages data) ?_ (fun _ _ h => h) rfl hd) fun d hd => ?_
  · exact fun _ _ _ _ h _ => h
  refine ensures_readItems (fun i => ensures_pollerCommand s [0x3E, i] 1)
    (P := fun _ => SamePages data) ?_ (fun _ _ h => h) rfl hd
  exact fun _ _ _ _ h _ => h

theorem not_readAt_quiet (h : ∀ e ∈ seg, Quiet e.1) (hk : 4 * k < 256) (group : Bytes) :
    ¬ ReadAt seg (4 * k) group := by
  rintro ⟨x, hx, -⟩
  exact (h _ hx).2 k hk rfl

variable {rndA : CArray UInt8 8} {old : Data cfg}

theorem LastPass.of_pollerRead {t t' : τ}
    (h : pollerRead (logged s) rndA old (t, []) = some ((data, .ok ()), (t', log))) :
    ∃ (data₁ : Data cfg) (log₁ tail : _), LastPass data₁ log₁ ∧ log = log₁ ++ tail ∧
      (∀ e ∈ tail, Quiet e.1) ∧ SamePages data₁ data := by
  have hs : s.active = true := by
    by_contra hs
    rw [pollerRead, if_pos (show ¬ (logged s).active = true from hs)] at h
    cases h
  obtain ⟨type, version, data₁, data₂, ⟨t₁, log₁⟩, ⟨t₂, log₂⟩, ⟨t₃, log₃⟩, hidentify, htotal, hauth,
    hpages, hextras⟩ := pollerRead_inv (logged s) rndA old h
  have hbegun := ensures_authBeforePages (logged s) rndA (begun_identified type version) _ _ _ hauth
  have htype : data₁.type = type := by
    rw [hbegun.stored.type, hbegun.pagesTotal]
    cases type <;> rfl
  obtain ⟨seg₁, hlog₁, hquiet₁⟩ := talks_identifyType (talks_sends hs) _ _ _ hidentify
  obtain ⟨seg₂, hlog₂, hquiet₂⟩ := sends_authBeforePages hs rndA _ _ _ _ hauth
  have hquiet : ∀ e ∈ log₂, Quiet e.1 := by
    intro e he
    obtain rfl : log₂ = [] ++ seg₁ ++ seg₂ := hlog₂.trans (congrArg (· ++ seg₂) hlog₁)
    exact (mem_append.mp he).elim (hquiet₁ e) (hquiet₂ e)
  have hzeros : data₁.type.hasPasswordConfig = true → ZeroFrom data₁.pages 0 := by
    intro hpwd
    have hne : (identified type version : Data cfg).type ≠ .mfulC := by
      rintro rfl
      rw [htype] at hpwd
      cases hpwd
    rw [authBeforePages_of_ne _ _ hne] at hauth
    cases hauth
    exact zeroFrom_fill _ _
  have hloop : Loop 0 { data₁ with pagesRead := 0 } log₂ :=
    { aligned := rfl
      count := (Nat.zero_min _).symm
      received := fun p hp => absurd hp (Nat.not_lt_zero p)
      unique := fun k hk group _ hgroup => absurd hgroup (not_readAt_quiet hquiet hk group)
      fresh := fun e he k _ hk => (hquiet e he).2 k hk
      zeros := hzeros }
  have hpos : 0 < data₁.pagesTotal.toNat := by
    rw [hbegun.pagesTotal]
    cases type <;> first | decide | exact absurd rfl htotal
  have hlast := lastPass_of_readPagesFrom hs hloop hpos (by rw [htype, hbegun.pagesTotal]) rfl
    (fun e he => (hquiet e he).1) hpages
  refine ⟨data₂, log₃, ?_⟩
  rcases hextras with ⟨rfl, ht⟩ | hextras
  · cases ht
    exact ⟨[], hlast, (append_nil _).symm, by simp, rfl, rfl, rfl, rfl⟩
  · obtain ⟨tail, htail, hquiet⟩ := talks_readExtras (talks_sends hs) data₂ _ _ _ hextras
    exact ⟨tail, hlast, htail, hquiet, ensures_readExtras_pages _ _ _ _ _ hextras⟩

/-- No more pages are read than the card has, and each one is as it was returned in the answer to
the READ of its group. There is one such answer in the log. -/
def Faithful (data : Data cfg) (log : List Exchange) : Prop :=
  data.pagesRead ≤ data.pagesTotal ∧ ∀ p < data.pagesRead.toNat,
    (∃ group, ReadAt log (4 * (p / 4)) group) ∧
      ∀ group, ReadAt log (4 * (p / 4)) group → data.page? p = some (pageIn group p)

theorem Loop.faithful (h : Loop start data log) (hsmall : data.pagesTotal.toNat ≤ 256) :
    Faithful data log := by
  refine ⟨UInt16.le_iff_toNat_le.mpr (by rw [h.count]; omega), fun p hp => ?_⟩
  obtain ⟨group, hgroup, hpage⟩ := h.received p hp
  refine ⟨⟨group, hgroup⟩, fun group' hgroup' => ?_⟩
  rw [h.count] at hp
  rw [h.unique (p / 4) (by omega) group' group hgroup' hgroup, hpage]

theorem Faithful.append (h : Faithful data log)
    (hseg : ∀ p < data.pagesRead.toNat, ∀ group, ¬ ReadAt seg (4 * (p / 4)) group) :
    Faithful data (log ++ seg) := by
  refine ⟨h.1, fun p hp => ?_⟩
  simp only [readAt_append, or_iff_left (hseg p hp _)]
  exact h.2 p hp

theorem Faithful.congr {out : Data cfg} (h : Faithful data log) (hsame : SamePages data out) :
    Faithful out log := by
  obtain ⟨hpages, hread, htotal, -⟩ := hsame
  refine ⟨by rw [hread, htotal]; exact h.1, fun p hp => ?_⟩
  rw [hread] at hp
  simp only [Data.page?, hpages]
  exact h.2 p hp

section PollerRead

variable {t t' : τ} (h : pollerRead (logged s) rndA old (t, []) = some ((data, .ok ()), (t', log)))
include h

theorem Faithful.of_pollerRead : Faithful data log := by
  obtain ⟨data₁, _, tail, ⟨start, data₀, log₀, seg, config, r, hloop, hlt, hfor, -, -, hseg, hend⟩,
    rfl, hquiet, hsame⟩ := LastPass.of_pollerRead h
  have hsmall := pagesTotal_le hfor
  have hfaithful : Faithful data₁ (log₀ ++ seg) := by
    rcases hend with ⟨hr, rfl⟩ | ⟨bytes, hr, hcopy, -⟩
    · refine (hloop.faithful hsmall).append fun p hp group => ?_
      rw [hloop.count] at hp
      by_cases hps : 4 * (p / 4) = start
      · rw [hps, hseg.read, hr]
        nofun
      · exact hseg.readAt_ne (by omega) (by omega) hps group
    · have hnext := hloop.step hlt hsmall hseg.toPass hr hcopy
      exact hnext.faithful (by rw [(copyReadChunk_fields hcopy).2]; exact hsmall)
  have hle : data₁.pagesRead.toNat ≤ 256 := by
    refine le_trans (UInt16.le_iff_toNat_le.mp hfaithful.1) ?_
    rcases hend with ⟨-, rfl⟩ | ⟨bytes, -, hcopy, -⟩
    · exact hsmall
    · rwa [(copyReadChunk_fields hcopy).2]
  refine Faithful.congr (hfaithful.append fun p hp => ?_) hsame
  exact not_readAt_quiet hquiet (by omega)

/-- The loop has read all pages exactly if the tag has answered the READ of every group. -/
theorem pagesRead_eq_iff : data.pagesRead = data.pagesTotal ↔
    ∀ p < data.pagesTotal.toNat, ∃ group, ReadAt log (4 * (p / 4)) group := by
  refine ⟨fun hall p hp => ((Faithful.of_pollerRead h).2 p (hall ▸ hp)).1, fun hall => ?_⟩
  obtain ⟨data₁, _, tail, ⟨start, data₀, log₀, seg, config, r, hloop, hlt, hfor, -, -, hseg, hend⟩,
    rfl, hquiet, -, hread, htotal, -⟩ := LastPass.of_pollerRead h
  rw [hread, htotal]
  rw [htotal] at hall
  rcases hend with ⟨hr, rfl⟩ | ⟨bytes, -, hcopy, hend⟩
  · -- the loop has stopped at a group that was asked for here and nowhere else
    have hsmall := pagesTotal_le hfor
    obtain ⟨group, hgroup⟩ := hall start hlt
    have haligned := hloop.aligned
    have hstart : 4 * (start / 4) = start := by omega
    rw [readAt_append, readAt_append,
      or_iff_left (not_readAt_quiet hquiet (by omega) group),
      or_iff_right (hloop.not_readAt (by omega) (by omega) group), hstart, hseg.read, hr] at hgroup
    cases hgroup
  · apply UInt16.toNat_inj.mp
    rw [pagesRead_of_copyReadChunk hcopy, (copyReadChunk_fields hcopy).2]
    omega

end PollerRead

/-- Every page that was read is as the tag has returned it. -/
theorem pollerRead_faithful {rndA : CArray UInt8 8} {old : Data cfg} {t t' : τ}
    (h : pollerRead (logged s) rndA old (t, []) = some ((data, .ok ()), (t', log))) :
    Faithful data log := .of_pollerRead h

/-- The card comes back from its stored form exactly if the tag has answered the READ of every group
of its pages. -/
theorem pollerRead_roundTrips_iff {rndA : CArray UInt8 8} {old : Data cfg} {t t' : τ}
    (h : pollerRead (logged s) rndA old (t, []) = some ((data, .ok ()), (t', log))) :
    data.RoundTrips ↔ ∀ p < data.pagesTotal.toNat, ∃ group, ReadAt log (4 * (p / 4)) group := by
  obtain ⟨hstored, htotal, hroom⟩ := pollerRead_stored (logged s) rndA old h
  rw [roundTrips_iff_of_stored hstored htotal, ← pagesRead_eq_iff h]
  exact and_iff_right_of_imp fun hall => hall ▸ hroom

def zerosFor (frames : Bytes → Bool) : Session Unit where
  active := true
  tag := ⟨fun _ tx => some ((), if frames tx then .ok (List.replicate 16 0) else .error .etimedout)⟩

def zeroCapture (pagesRead : UInt16) : Data .default := { identified .ntag203 none with pagesRead }

theorem pollerRead_roundTrips_zeros :
    ∃ log, pollerRead (logged (zerosFor fun _ => true)) (.fill 8 0) .reset ((), []) =
      some ((zeroCapture 42, .ok ()), ((), log)) ∧ (zeroCapture 42).RoundTrips := by
  have hrun : (pollerRead (logged (zerosFor fun _ => true)) (.fill 8 0) .reset ((), [])).any
      (fun r => r.1 = (zeroCapture 42, .ok ()) ∧
        ∀ k < 11, (readFrame (4 * k), .ok (List.replicate 16 0)) ∈ r.2.2) = true := by
    decide +kernel
  obtain ⟨⟨⟨data, ret⟩, ⟨⟩, log⟩, hread, hr⟩ := (any_eq_true _ _).mp hrun
  obtain ⟨heq, hall⟩ := of_decide_eq_true hr
  cases heq
  refine ⟨log, hread, (pollerRead_roundTrips_iff hread).mpr fun p hp => ?_⟩
  have hp : p < 42 := hp
  exact ⟨_, _, hall (p / 4) (by omega), rfl⟩

def cutTag : Session Unit := zerosFor fun tx => tx = [0x30, 0] || tx = [0x30, 41]

def restoredPagesRead (data : Data .default) : Option UInt16 :=
  match serialize data (maxSerialized .default) with
  | some (.ok bytes) => some (deserialize data bytes).1.pagesRead
  | _ => none

theorem partial_capture_restored_complete :
    pollerRead cutTag (.fill 8 0) .reset () = some ((zeroCapture 4, .ok ()), ()) ∧
    restoredPagesRead (zeroCapture 4) = some 42 ∧ ¬ (zeroCapture 4).RoundTrips := by
  have hrestored : restoredPagesRead (zeroCapture 4) = some 42 := by decide +kernel
  refine ⟨by decide +kernel, hrestored, ?_⟩
  intro hround
  obtain ⟨bytes, hserialize, hdeserialize⟩ := hround _ le_rfl
  rw [restoredPagesRead, hserialize] at hrestored
  simp only [hdeserialize] at hrestored
  exact absurd hrestored (by decide)

def protectedTag (size : UInt8) : Session Unit where
  active := true
  tag := ⟨fun _ tx => some ((), match tx with
    | [0x60] => .ok [0, 4, 4, 2, 1, 0, size, 3]
    | [0x30, _] => .ok (List.replicate 16 0x11)
    | _ => .error .etimedout)⟩

def readProtected (size : UInt8) : Option ((Data .default × Ret) × Unit × List Exchange) :=
  pollerRead (logged (protectedTag size)) (.fill 8 0) .reset ((), [])

theorem protected_pollerRead_faithful :
    ∃ data log, readProtected 0x0F = some ((data, .ok ()), ((), log)) ∧ data.pagesRead = 45 ∧
      Faithful data log := by
  have hrun : (readProtected 0x0F).any (fun r => r.1.1.pagesRead = 45 ∧ r.1.2 = .ok ()) = true := by
    decide +kernel
  obtain ⟨⟨⟨data, ret⟩, ⟨⟩, log⟩, hread, hr⟩ := (any_eq_true _ _).mp hrun
  obtain ⟨hpages, rfl⟩ : data.pagesRead = 45 ∧ ret = .ok () := of_decide_eq_true hr
  exact ⟨data, log, hread, hpages, pollerRead_faithful hread⟩

/-- The password was returned for the password page, or it is the one of a new card and the access
configuration that was returned sets no limit. -/
def Justified (total : ℕ) (log : List Exchange) (pwd : Bytes) : Prop :=
  ReceivedPage log (total - 2) pwd ∨ pwd = [0xFF, 0xFF, 0xFF, 0xFF] ∧
    ∃ access, ReceivedPage log (total - 3) access ∧ byteAt access 0 &&& 0x07 = 0

def Provenance (total : ℕ) (log : List Exchange) : Prop :=
  ∀ pre pwd x post, log = pre ++ (0x1B :: pwd, x) :: post → Justified total pre pwd

/-- If the first configuration page of an NTAG215 or NTAG216 was read, it protects nothing and the
group of the others is returned whenever it is asked for. -/
def ConfigGuarded (data : Data cfg) (log : List Exchange) : Prop :=
  data.type = .ntag215 ∨ data.type = .ntag216 →
    ∀ group, ReadAt log (data.pagesTotal.toNat - 7) group →
      byteAt group 15 = 0xFF ∧ ¬ ReadFailed log (data.pagesTotal.toNat - 3)

theorem provenance_of_not_pwdAuth (total : ℕ) (h : ∀ e ∈ log, ¬ IsPwdAuth e.1) :
    Provenance total log := by
  rintro pre pwd x post rfl
  exact absurd ⟨pwd, rfl⟩ (h (0x1B :: pwd, x) (by simp))

theorem append_eq_append_cons {α : Type} {ws xs ys zs : List α} {z : α}
    (h : ws ++ xs = ys ++ z :: zs) :
    (∃ as, ys = ws ++ as ∧ xs = as ++ z :: zs) ∨ ∃ bs, ws = ys ++ z :: bs := by
  rcases append_eq_append_iff.mp h with hxs | ⟨bs, hws, hz⟩
  · exact .inl hxs
  · rcases cons_eq_append_iff.mp hz with ⟨rfl, hxs⟩ | ⟨as, rfl, -⟩
    · exact .inl ⟨[], by simpa using hws.symm, hxs⟩
    · exact .inr ⟨as, hws⟩

theorem provenance_append_iff {total : ℕ} {tail : List Exchange} (hlog : ∀ e ∈ log, ¬ IsPwdAuth e.1)
    (htail : ∀ e ∈ tail, ¬ IsPwdAuth e.1) :
    Provenance total (log ++ seg ++ tail) ↔ ∀ pre pwd x post,
      seg = pre ++ (0x1B :: pwd, x) :: post → Justified total (log ++ pre) pwd := by
  constructor
  · rintro h pre pwd x post rfl
    exact h (log ++ pre) pwd x (post ++ tail) (by simp)
  · intro h pre pwd x post heq
    have hx : IsPwdAuth (((0x1B : UInt8) :: pwd, x) : Exchange).1 := ⟨pwd, rfl⟩
    rcases append_eq_append_cons heq with ⟨m, rfl, hm⟩ | ⟨m, hm⟩
    · exact absurd hx (htail _ (by rw [hm]; simp))
    rcases append_eq_append_cons hm with ⟨m', rfl, hm'⟩ | ⟨m', hm'⟩
    · exact h m' pwd x m hm'
    · exact absurd hx (hlog _ (by rw [hm']; simp))

variable {r : Bool × Option Bytes} {tail : List Exchange}

theorem ReceivedPage.append {page : ℕ} (h : ReceivedPage log page bytes) (seg : List Exchange) :
    ReceivedPage (log ++ seg) page bytes := by
  obtain ⟨group, hgroup, hbytes⟩ := h
  exact ⟨group, readAt_append.mpr (.inl hgroup), hbytes⟩

theorem Loop.receivedPage (h : Loop start data log) {p : ℕ} (hp : p < data.pagesRead.toNat)
    (hpage : data.page? p = some bytes) : ReceivedPage log p bytes := by
  obtain ⟨group, hgroup, hpage'⟩ := h.received p hp
  exact ⟨group, hgroup, some.inj (hpage.symm.trans hpage')⟩

variable (h : Loop start data log) (hconfig : parseConfig data = some config)

include h hconfig

theorem Loop.justified (hread : data.pagesTotal.toNat - 2 < data.pagesRead.toNat) {pwd : Bytes}
    (hguess : IsGuess config (0x1B :: pwd)) (pre : List Exchange) :
    Justified data.pagesTotal.toNat (log ++ pre) pwd := by
  obtain ⟨pwd', hpwd, hvalid, hguess⟩ := hguess
  cases hpwd
  obtain ⟨-, auth0, access, _, pack, -, haccess, hpage, rfl⟩ := parseConfig_inv hconfig hvalid
  rcases hguess with rfl | ⟨hff, h0⟩
  · exact .inl ((h.receivedPage hread hpage).append pre)
  · exact .inr ⟨hff, access, (h.receivedPage (by omega) haccess).append pre, h0⟩

theorem Loop.not_justified (hvalid : config.valid = true)
    (hstart : start = data.pagesTotal.toNat - 3) (hsmall : data.pagesTotal.toNat ≤ 256)
    (hmod : data.pagesTotal.toNat % 4 = 3) (hpre : ∀ bytes, ¬ ReadAt pre start bytes) :
    ¬ Justified data.pagesTotal.toNat (log ++ pre) config.pwd := by
  obtain ⟨⟨htype, -⟩, auth0, access, pwd, pack, -, -, hpage, rfl⟩ := parseConfig_inv hconfig hvalid
  have hzero : pwd = List.replicate pageSize 0 := by
    obtain ⟨hroom, hpwd⟩ := (read?_eq_some_iff _ _ _ _).mp hpage
    rw [hpwd, slice_congr (b := .fill _ 0) fun i _ =>
      h.zeros htype _ (by rw [hstart]; simp only [pageSize]; omega)]
    simp only [CArray.slice, CArray.fill, drop_replicate, take_replicate]
    congr 1
    omega
  rintro (⟨group, hgroup, -⟩ | ⟨hff, -⟩)
  · rw [readAt_append] at hgroup
    have hdiv : 4 * ((data.pagesTotal.toNat - 2) / 4) = start := by omega
    rcases hgroup with hgroup | hgroup
    · exact h.not_readAt (by omega) (by omega) group hgroup
    · exact hpre group (hdiv ▸ hgroup)
  · rw [hzero] at hff
    cases hff

omit h hconfig

theorem parseConfig_invalid (h : parseConfig data = some config) (hvalid : config.valid = false)
    (htype : data.type.hasPasswordConfig = true) (hfive : 5 ≤ data.pagesTotal.toNat) :
    data.pagesRead.toNat ≤ data.pagesTotal.toNat - 4 := by
  by_contra hread
  rw [parseConfig, if_neg (data.hasConfig_iff.mp ⟨htype, hfive, by omega⟩)] at h
  simp only at h
  split at h
  · cases h
    cases hvalid
  · cases h

theorem Loop.provenance_iff (h : Loop start data log) (hconfig : parseConfig data = some config)
    (hvalid : config.valid = true) (hstart : start = data.pagesTotal.toNat - 3)
    (hsmall : data.pagesTotal.toNat ≤ 256) (hseven : 7 ≤ data.pagesTotal.toNat)
    (hmod : data.pagesTotal.toNat % 4 = 3) (hpwd : ∀ e ∈ log, ¬ IsPwdAuth e.1)
    (hseg : Chunk config start r seg) (htail : ∀ e ∈ tail, Quiet e.1) :
    Provenance data.pagesTotal.toNat (log ++ seg ++ tail) ↔
      ∀ group, ReadAt (log ++ seg ++ tail) (data.pagesTotal.toNat - 7) group →
        byteAt group 15 = 0xFF ∧ ¬ ReadFailed (log ++ seg ++ tail) (data.pagesTotal.toNat - 3) := by
  obtain ⟨-, page, access, pwd, pack, hpage, -, -, hof⟩ := parseConfig_inv hconfig hvalid
  obtain ⟨group₀, hgroup₀, hpage₀⟩ :=
    h.received (data.pagesTotal.toNat - 4) (by rw [h.count]; omega)
  have hk : data.pagesTotal.toNat - 7 = 4 * ((data.pagesTotal.toNat - 4) / 4) := by omega
  -- the protection of the configuration is in the answer to the READ before the last
  have hprot : readProtectionEnabled config = false ↔ byteAt group₀ 15 = 0xFF := by
    have hbyte : config.auth0 = byteAt group₀ 15 := by
      rw [hof, ConfigBlock.ofPages, some.inj (hpage.symm.trans hpage₀), pageIn,
        show (data.pagesTotal.toNat - 4) % 4 = 3 by omega]
      simp [byteAt, pageSize]
    simp [readProtectionEnabled, hvalid, hbyte]
  have hunique : ∀ group, ReadAt (log ++ seg ++ tail) (data.pagesTotal.toNat - 7) group →
      group = group₀ := by
    intro group hgroup
    rw [hk, readAt_append, readAt_append, or_iff_left (not_readAt_quiet htail (by omega) group),
      or_iff_left (hseg.readAt_ne (by omega) (by omega) (by omega) group)] at hgroup
    exact h.unique _ (by omega) group group₀ hgroup hgroup₀
  have hfailed : ReadFailed (log ++ seg ++ tail) (data.pagesTotal.toNat - 3) ↔
      ReadFailed seg start := by
    have hk : start = 4 * (start / 4) := by have := h.aligned; omega
    rw [← hstart]
    refine ⟨?_, Exists.imp fun x => And.imp_left fun hx => by simp [hx]⟩
    rintro ⟨x, hx, hnone⟩
    simp only [mem_append] at hx
    rcases hx with (hx | hx) | hx
    · exact absurd (hk ▸ rfl) (h.fresh _ hx (start / 4) (by omega) (by omega))
    · exact ⟨x, hx, hnone⟩
    · exact absurd (hk ▸ rfl) ((htail _ hx).2 (start / 4) (by omega))
  rw [provenance_append_iff hpwd fun e he => (htail e he).1]
  constructor
  · intro hall group hgroup
    rw [hunique group hgroup, hfailed, ← hprot]
    have hnot : ¬ (readProtectionEnabled config = true ∨ ReadFailed seg start) := by
      intro hor
      obtain ⟨pre, x, post, rfl, hpre⟩ := hseg.guessed hvalid hor
      exact h.not_justified hconfig hvalid hstart hsmall hmod hpre (hall pre _ x post rfl)
    rw [not_or] at hnot
    exact ⟨by simpa using hnot.1, hnot.2⟩
  · intro hguard pre pwd x post heq
    obtain ⟨hff, hok⟩ := hguard group₀ (by
      rw [hk, readAt_append, readAt_append]
      exact .inl (.inl hgroup₀))
    have hframe := hseg.quiet (hprot.mpr hff) (hfailed.not.mp hok) (0x1B :: pwd, x) (by simp [heq])
    cases hframe

theorem pagesTotal_of_card (hfor : data.pagesTotal = pagesTotalForType data.type)
    (h : data.type = .ntag215 ∨ data.type = .ntag216) :
    data.pagesTotal.toNat = 135 ∨ data.pagesTotal.toNat = 231 := by
  rw [hfor]
  rcases h with h | h <;> rw [h]
  · exact .inl rfl
  · exact .inr rfl

theorem Loop.provenance_of_invalid (h : Loop start data log)
    (hconfig : parseConfig data = some config) (hvalid : config.valid = false)
    (hfor : data.pagesTotal = pagesTotalForType data.type)
    (hpwd : ∀ e ∈ log, ¬ IsPwdAuth e.1) (hseg : Chunk config start r seg)
    (hend : r.2 = none ∨ data.pagesTotal.toNat ≤ start + 4) (htail : ∀ e ∈ tail, Quiet e.1) :
    Provenance data.pagesTotal.toNat (log ++ seg ++ tail) ∧
      ConfigGuarded data (log ++ seg ++ tail) := by
  constructor
  · rw [provenance_append_iff hpwd fun e he => (htail e he).1]
    rintro pre pwd x post rfl
    rcases hseg.frames (0x1B :: pwd, x) (by simp) with hread | ⟨-, -, hv, -⟩
    · cases hread
    · rw [hvalid] at hv
      cases hv
  · intro htype group hgroup
    exfalso
    have hpassword : data.type.hasPasswordConfig = true := by
      rcases htype with h | h <;> rw [h] <;> rfl
    have htotal := pagesTotal_of_card hfor htype
    have hread := parseConfig_invalid hconfig hvalid hpassword (by omega)
    rw [h.count] at hread
    have haligned := h.aligned
    have hk : data.pagesTotal.toNat - 7 = 4 * ((data.pagesTotal.toNat - 4) / 4) := by omega
    rw [hk, readAt_append, readAt_append] at hgroup
    rcases hgroup with (hgroup | hgroup) | hgroup
    · exact h.not_readAt (by omega) (by omega) group hgroup
    · by_cases hlast : 4 * ((data.pagesTotal.toNat - 4) / 4) = start
      · rw [hlast, hseg.read, hend.resolve_right (by omega)] at hgroup
        cases hgroup
      · exact hseg.readAt_ne (by omega) (by omega) hlast group hgroup
    · exact not_readAt_quiet htail (by omega) group hgroup

theorem LastPass.provenance_iff (h : LastPass data log) (htail : ∀ e ∈ tail, Quiet e.1) :
    Provenance data.pagesTotal.toNat (log ++ tail) ↔ ConfigGuarded data (log ++ tail) := by
  obtain ⟨start, data₀, log₀, seg, config, r, hloop, hlt, hfor, hpwd, hconfig, hseg, hend⟩ := h
  have hfields : data.type = data₀.type ∧ data.pagesTotal = data₀.pagesTotal := by
    rcases hend with ⟨-, rfl⟩ | ⟨bytes, -, hcopy, -⟩
    · exact ⟨rfl, rfl⟩
    · exact copyReadChunk_fields hcopy
  have hend : r.2 = none ∨ data₀.pagesTotal.toNat ≤ start + 4 :=
    hend.imp (·.1) fun ⟨_, _, _, h⟩ => h
  rw [ConfigGuarded, hfields.1, hfields.2]
  cases hvalid : config.valid with
  | false =>
    have hboth := hloop.provenance_of_invalid hconfig hvalid hfor hpwd hseg hend htail
    exact iff_of_true hboth.1 hboth.2
  | true =>
    obtain ⟨⟨hpassword, -, hread⟩, -⟩ := parseConfig_inv hconfig hvalid
    have haligned := hloop.aligned
    rw [hloop.count] at hread
    have hcard : data₀.type = .ntag213 ∨ data₀.type = .ntag215 ∨ data₀.type = .ntag216 := by
      revert hpassword
      cases data₀.type <;> simp [CardType.hasPasswordConfig]
    rcases hcard with hcard | hcard
    · -- all of the configuration is in one group, and the loop is behind it
      have h45 : data₀.pagesTotal.toNat = 45 := by rw [hfor, hcard]; rfl
      refine iff_of_true ?_ (by rw [hcard]; rintro (h | h) <;> cases h)
      rw [provenance_append_iff hpwd fun e he => (htail e he).1]
      rintro pre pwd x post rfl
      rcases hseg.frames (0x1B :: pwd, x) (by simp) with hframe | hguess
      · cases hframe
      · exact hloop.justified hconfig (by rw [hloop.count]; omega) hguess pre
    · have hodd := pagesTotal_of_card hfor hcard
      rw [imp_iff_right hcard]
      exact hloop.provenance_iff hconfig hvalid (by omega) (by omega) (by omega) (by omega) hpwd
        hseg htail

theorem quiet_of_pollerRead_error {t t' : τ} {e : Errno}
    (h : pollerRead (logged s) rndA old (t, []) = some ((data, .error e), (t', log))) :
    log = [] ∨ data.type = .unknown ∧ ∀ e ∈ log, Quiet e.1 := by
  rw [pollerRead] at h
  by_cases hs : s.active = true
  swap
  · rw [if_pos (show ¬ (logged s).active = true from hs)] at h
    cases h
    exact .inl rfl
  rw [if_neg (show ¬ ¬ (logged s).active = true from not_not_intro hs)] at h
  obtain ⟨⟨type, version⟩, ⟨t₁, log₁⟩, hidentify, h⟩ := Poll.bind_eq_some h
  simp only at h
  by_cases htotal : pagesTotalForType type = 0
  · rw [if_pos htotal] at h
    cases h
    obtain ⟨seg, rfl, hquiet⟩ := talks_identifyType (talks_sends hs) _ _ _ hidentify
    exact .inr ⟨rfl, hquiet⟩
  rw [if_neg htotal] at h
  obtain ⟨data₁, t₂, hauth, h⟩ := Poll.bind_eq_some h
  obtain ⟨data₂, t₃, hpages, h⟩ := Poll.bind_eq_some h
  split at h
  · cases h
  · obtain ⟨data₃, t₄, hextras, hpure⟩ := Poll.bind_eq_some h
    cases hpure

theorem pwdAuth_provenance_iff {rndA : CArray UInt8 8} {old : Data cfg} {t t' : τ} {ret : Ret}
    (h : pollerRead (logged s) rndA old (t, []) = some ((data, ret), (t', log))) :
    Provenance data.pagesTotal.toNat log ↔ ConfigGuarded data log := by
  cases ret with
  | error e =>
    rcases quiet_of_pollerRead_error h with rfl | ⟨htype, hquiet⟩
    · refine iff_of_true (provenance_of_not_pwdAuth _ (by simp)) ?_
      rintro - group ⟨x, hx, -⟩
      cases hx
    · refine iff_of_true (provenance_of_not_pwdAuth _ fun e he => (hquiet e he).1) ?_
      rintro (hcard | hcard) <;> cases htype.symm.trans hcard
  | ok _ =>
    obtain ⟨data₁, log₁, tail, hlast, rfl, htail, -, -, htotal, htype⟩ := LastPass.of_pollerRead h
    rw [ConfigGuarded, htype, htotal]
    exact hlast.provenance_iff htail

theorem received_password_provenance : ∃ r, readProtected 0x0F = some r ∧
      ([0x1B, 0x11, 0x11, 0x11, 0x11], .error .etimedout) ∈ r.2.2 ∧
      Provenance r.1.1.pagesTotal.toNat r.2.2 := by
  have hrun : (readProtected 0x0F).any (fun r => r.1.1.type = .ntag213 ∧
      ([0x1B, 0x11, 0x11, 0x11, 0x11], .error .etimedout) ∈ r.2.2) = true := by
    decide +kernel
  obtain ⟨r, hread, hr⟩ := (any_eq_true _ _).mp hrun
  obtain ⟨htype, hsent⟩ := of_decide_eq_true hr
  refine ⟨r, hread, hsent, (pwdAuth_provenance_iff hread).mpr ?_⟩
  rw [ConfigGuarded, htype]
  rintro (h | h) <;> cases h

theorem unread_password_sent : ∃ r, readProtected 0x11 = some r ∧ r.1.1.type = .ntag215 ∧
      ([0x1B, 0, 0, 0, 0], .error .etimedout) ∈ r.2.2 ∧
      ¬ Provenance r.1.1.pagesTotal.toNat r.2.2 := by
  have hrun : (readProtected 0x11).any (fun r => r.1.1.type = .ntag215 ∧ r.1.1.pagesTotal = 135 ∧
      (∀ e ∈ r.2.2.take 34, e.1 ≠ readFrame 132) ∧
      (r.2.2.drop 34).head? = some ([0x1B, 0, 0, 0, 0], .error .etimedout)) = true := by
    decide +kernel
  obtain ⟨r, hread, hr⟩ := (any_eq_true _ _).mp hrun
  obtain ⟨htype, htotal, hbefore, hsent⟩ := of_decide_eq_true hr
  obtain ⟨post, hpost⟩ := head?_eq_some_iff.mp hsent
  have hlog : r.2.2 = r.2.2.take 34 ++ ([0x1B, 0, 0, 0, 0], .error .etimedout) :: post := by
    rw [← hpost, take_append_drop]
  refine ⟨r, hread, htype, by rw [hlog]; simp, fun h => ?_⟩
  rw [htotal] at h
  rcases h _ _ _ _ hlog with ⟨group, ⟨x, hx, -⟩, -⟩ | ⟨hff, -⟩
  · exact hbefore _ hx rfl
  · cases hff

end NfcStack.Ultralight
