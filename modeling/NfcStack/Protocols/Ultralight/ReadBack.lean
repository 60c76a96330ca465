import NfcStack.Lib.Hoare
import NfcStack.Protocols.Ultralight.KeySecrecy
import NfcStack.Protocols.Ultralight.Poller

/-!
# Reading an emulated Ultralight card back

The poller parses the configuration again and again from the pages that it has. It never takes a page for
protected that the card does not protect, and so it reads the whole card.
-/

namespace NfcStack.Ultralight

open List Option CArray Reader Hoare

variable {cfg : Config} {data : Data cfg} {config : ConfigBlock}

namespace Type2

structure Open (card : Data cfg) : Prop where
  complete : card.Complete
  versioned : card.type.hasVersionCommand = true
  unprotected : ∀ page, card.protects page = false
  counters : card.counterCount ≤ 3
  tearingFlags : card.tearingFlagCount ≤ 3

structure Serving (card : Data cfg) (st : State cfg) : Prop where
  initialized : st.initialized = true
  model : st.model = card
  config : parseConfig card = some st.config

variable {card : Data cfg} (silence : Errno) (rndB : Bytes) {st : State cfg} {tx : Bytes}

theorem Serving.of_onTagCmd (h : Serving card st) {tdes : Tdes} {st' : State cfg}
    {rnd : Bytes} {resp : Option Bytes} (hcmd : onTagCmd tdes st tx rnd = some (st', resp)) :
    Serving card st' where
  initialized := (onTagCmd_initialized hcmd).trans h.initialized
  model := (onTagCmd_effect hcmd).model.trans h.model
  config := by rw [(onTagCmd_effect hcmd).config, h.config]

theorem runs_pollerCommand {rx : Bytes} {size : ℕ}
    (h : ∀ st, Serving card st → onTagCmd tdes2 st tx rndB = some (st, some rx))
    (hsize : rx.length = size) (hlen : size ≤ maxResponseLen) :
    Runs (Serving card) (pollerCommand (listenerSession silence rndB) maxResponseLen tx size)
      (fun r => r = .ok rx) := by
  intro st hst
  subst hsize
  exact ⟨_, st, pollerCommand_answered silence (h st hst) hlen, rfl, hst⟩

theorem runs_pollerCommand_unanswered (size : ℕ)
    (h : ∀ st, Serving card st → onTagCmd tdes2 st tx rndB = some (st, none)) :
    Runs (Serving card) (pollerCommand (listenerSession silence rndB) maxResponseLen tx size)
      (fun r => r = .error silence) := by
  intro st hst
  exact ⟨_, st, pollerCommand_unanswered silence size (h st hst), rfl, hst⟩

theorem runs_pollerPwdAuth (pwd : Bytes) :
    Runs (Serving card) (pollerPwdAuth (listenerSession silence rndB) pwd) (fun _ => True) := by
  have htrans : Runs (Serving card)
      ((listenerSession silence rndB).transceive maxResponseLen (0x1B :: pwd))
      (fun _ => True) := by
    intro st hst
    have hcmd : onTagCmd tdes2 st (0x1B :: pwd) rndB =
        some (handlePwdAuth st (0x1B :: pwd)) := by
      show (if _ then _ else some (handlePwdAuth st (0x1B :: pwd))) = _
      rw [if_neg (by simp [hst.initialized])]
    have hserving := hst.of_onTagCmd (show _ = some (_, _) from hcmd)
    simp only [Session.transceive, listenerSession, if_true, hcmd, map_some]
    -- the answer and its absence both leave the card loaded
    split <;> exact ⟨_, _, rfl, True.intro, hserving⟩
  have hcommand : Runs (Serving card)
      (pollerCommand (listenerSession silence rndB) maxResponseLen (0x1B :: pwd) 2) (fun _ => True) := by
    rw [pollerCommand, pollerTransceive_of_le _ le_rfl]
    refine htrans.bind fun r _ => ?_
    split <;> exact .pure True.intro
  refine hcommand.bind fun r _ => ?_
  split <;> exact .pure True.intro

theorem runs_tryPwdAuth (config : ConfigBlock) (authenticated : Bool) :
    Runs (Serving card) (tryPwdAuth (listenerSession silence rndB) config authenticated)
      (fun _ => True) := by
  unfold tryPwdAuth
  split
  · exact .pure True.intro
  split
  · exact .pure True.intro
  refine (runs_pollerPwdAuth silence rndB config.pwd).bind fun r _ => ?_
  split
  · exact .pure True.intro
  split
  · exact .pure True.intro
  refine (runs_pollerPwdAuth silence rndB _).bind fun r _ => ?_
  split <;> exact .pure True.intro

variable {page n : ℕ}

theorem flatMap_pageBytes (h : page + n ≤ st.model.pagesTotal.toNat) :
    (List.range' page n).flatMap (pageBytes st) =
      st.model.pages.slice (page * pageSize) (n * pageSize) := by
  induction n generalizing page with
  | zero => simp
  | succ n ih =>
    have hpage : pageBytes st page = st.model.pages.slice (page * pageSize) pageSize :=
      if_pos (by omega)
    rw [range'_succ, flatMap_cons, ih (by omega), hpage, Nat.succ_mul page,
      slice_append, Nat.succ_mul, Nat.add_comm pageSize]

theorem take_flatMap_pageBytes (hfits : st.model.pagesTotal.toNat ≤ cfg.maxPages) {start : ℕ}
    (hstart : start ≤ st.model.pagesTotal.toNat) :
    ((List.range' start 4).flatMap (pageBytes st)).take
        ((st.model.pagesTotal.toNat - start) * pageSize) =
      st.model.pages.slice (start * pageSize)
        (min 4 (st.model.pagesTotal.toNat - start) * pageSize) := by
  by_cases hfull : start + 4 ≤ st.model.pagesTotal.toNat
  · rw [Nat.min_eq_left (by omega), ← flatMap_pageBytes hfull]
    apply take_of_length_le
    rw [length_flatMap_pageBytes hfits, pageSize]
    omega
  · -- the end of the card is inside the answer, which goes on with zeros
    have hleft : start + (st.model.pagesTotal.toNat - start) = st.model.pagesTotal.toNat := by
      omega
    have hcount : 4 = (st.model.pagesTotal.toNat - start) +
        (4 - (st.model.pagesTotal.toNat - start)) := by omega
    have hpages := flatMap_pageBytes hleft.le
    have hlength : (st.model.pages.slice (start * pageSize)
        ((st.model.pagesTotal.toNat - start) * pageSize)).length =
          (st.model.pagesTotal.toNat - start) * pageSize := by
      apply length_slice
      simp only [pageSize]
      omega
    rw [Nat.min_eq_right (by omega), hcount, ← range'_append_1, flatMap_append, hpages]
    exact take_left' hlength

theorem configPages_of_complete (h : card.Complete) : card.configPages = parseConfig card := by
  have hread := h.read
  cases card
  cases hread
  rfl

theorem Serving.pageReadable (h : Serving card st) (hopen : Open card)
    (hpage : page < st.model.pagesTotal.toNat) : pageReadable st page = true := by
  have hneeds : pageNeedsAuth st.config page = false := by
    by_contra hc
    have hprotects := (card.protects_iff page).mpr ⟨h.model ▸ hpage, st.config,
      (configPages_of_complete hopen.complete).trans h.config, Bool.not_eq_false _ ▸ hc⟩
    rw [hopen.unprotected page] at hprotects
    cases hprotects
  simp [Type2.pageReadable, hneeds, hpage]

structure Filled (card : Data cfg) (start : ℕ) (data : Data cfg) : Prop where
  fields : data = { (identified card.type (some card.version.toList) : Data cfg) with
    pages := data.pages
    pagesRead := data.pagesRead }
  pagesRead : data.pagesRead.toNat = min start card.pagesTotal.toNat
  pages : ∀ i, data.pages.get? i =
    if i < min start card.pagesTotal.toNat * pageSize then card.pages.get? i
    else (CArray.fill (cfg.maxPages * pageSize) 0).get? i

variable {start : ℕ} (h : Filled card start data)

include h

theorem Filled.pagesTotal (hcard : card.Complete) : data.pagesTotal = card.pagesTotal := by
  rw [h.fields, hcard.total]
  rfl

theorem Filled.fits (hcard : card.Complete) : data.pagesTotal.toNat ≤ cfg.maxPages := by
  rw [h.pagesTotal hcard]
  exact hcard.fits

theorem Filled.page?_eq
    (hpage : page < data.pagesRead.toNat) : data.page? page = card.page? page := by
  have hslice : data.pages.slice (page * pageSize) pageSize =
      card.pages.slice (page * pageSize) pageSize := by
    apply slice_congr
    intro i hi
    rw [h.pages, if_pos]
    rw [h.pagesRead] at hpage
    simp only [pageSize] at hi ⊢
    omega
  simp only [Data.page?, CArray.read?, hslice]

variable {bytes : Bytes}

theorem Filled.byteAt_page? (hpage : data.pagesRead.toNat ≤ page)
    (hbytes : data.page? page = some bytes) : byteAt bytes 0 = 0 := by
  obtain ⟨hle, rfl⟩ := (read?_eq_some_iff _ _ _ _).mp hbytes
  have hfirst : (data.pages.slice (page * pageSize) pageSize)[0]? = some 0 := by
    rw [getElem?_slice, if_pos (by decide), h.pages, if_neg]
    · rw [CArray.get?, CArray.fill, getElem?_replicate, if_pos]
      simp only [pageSize] at hle ⊢
      omega
    · rw [h.pagesRead] at hpage
      simp only [pageSize]
      omega
  simp [byteAt, hfirst]

theorem Filled.not_pageNeedsAuth (hopen : Open card) (hconfig : parseConfig data = some config)
    (hpage : page < card.pagesTotal.toNat) : pageNeedsAuth config page = false := by
  by_contra hneeds
  rw [Bool.not_eq_false] at hneeds
  have htype : data.type = card.type := by rw [h.fields]; rfl
  have htotal := h.pagesTotal hopen.complete
  obtain ⟨⟨hpwd, hfive, hread⟩, auth0, access, pwd, pack, hauth0, haccess, -, rfl⟩ :=
    parseConfig_inv hconfig (valid_of_pageNeedsAuth hneeds).1
  rw [htype] at hpwd
  rw [htotal] at hfive hread hauth0 haccess
  have hfits := hopen.complete.fits
  have hpages : ∀ p < card.pagesTotal.toNat, ∃ bytes, card.page? p = some bytes :=
    fun p hp => ⟨_, read?_of_le _ (by simp only [pageSize]; omega)⟩
  -- the page of AUTH0 was read; that of the protection was read, or protects nothing
  rw [h.page?_eq hread] at hauth0
  have haccess' : card.page? (card.pagesTotal.toNat - 3) = some access := by
    by_cases hlt : card.pagesTotal.toNat - 3 < data.pagesRead.toNat
    · rw [← h.page?_eq hlt, haccess]
    · have hzero := h.byteAt_page? (Nat.not_lt.mp hlt) haccess
      have hprot := (valid_of_pageNeedsAuth hneeds).2.2
      rw [ConfigBlock.ofPages] at hprot
      simp [hzero] at hprot
  obtain ⟨pwd', hpwd'⟩ := hpages (card.pagesTotal.toNat - 2) (by omega)
  obtain ⟨pack', hpack'⟩ := hpages (card.pagesTotal.toNat - 1) (by omega)
  have hcard : card.HasConfig := ⟨hpwd, hfive, by rw [hopen.complete.read]; omega⟩
  have hprotects := (card.protects_iff page).mpr ⟨hpage, _,
    (configPages_of_complete hopen.complete).trans
      (parseConfig_eq_of_hasConfig hcard hauth0 haccess' hpwd' hpack'), hneeds⟩
  rw [hopen.unprotected page] at hprotects
  cases hprotects

omit h

def CoversFrom (card : Data cfg) (start : ℕ) (bytes : Bytes) : Prop :=
  bytes.take ((card.pagesTotal.toNat - start) * pageSize) =
    card.pages.slice (start * pageSize) (min 4 (card.pagesTotal.toNat - start) * pageSize)

theorem runs_pollerReadPage (hopen : Open card) (hstart : start < card.pagesTotal.toNat) :
    Runs (Serving card) (pollerReadPage (listenerSession silence rndB) (UInt8.ofNat start))
      (fun r => ∃ bytes, r = .ok bytes ∧ CoversFrom card start bytes) := by
  intro st hst
  obtain rfl := hst.model
  have hfits := hopen.complete.fits
  have hbyte : (UInt8.ofNat start).toNat = start := by
    have hmax := cfg.maxPages_le
    rw [UInt8.toNat_ofNat']
    omega
  have hread := onTagCmd_read hst.initialized hfits (UInt8.ofNat start)
    (fun p _ _ hp => hst.pageReadable hopen hp) tdes2 rndB
  rw [hbyte] at hread
  have hlength := length_flatMap_pageBytes hfits start
  have hcommand := pollerCommand_answered silence hread (by rw [hlength]; decide)
  rw [hlength] at hcommand
  exact ⟨_, st, hcommand, ⟨_, rfl, take_flatMap_pageBytes hfits hstart.le⟩, hst⟩

theorem runs_readChunk (hopen : Open card) (hdata : Filled card start data)
    (hstart : start < card.pagesTotal.toNat)
    (hconfig : parseConfig data = some config) (authenticated : Bool) :
    Runs (Serving card)
      (readChunk (listenerSession silence rndB) data config authenticated start)
      (fun r => ∃ bytes, r.2 = some bytes ∧ CoversFrom card start bytes) := by
  have hauth : ∀ authenticated, Runs (Serving card)
      (readOrAuth (listenerSession silence rndB) config authenticated start)
      (fun r => ∃ bytes, r.2 = some bytes ∧ CoversFrom card start bytes) := by
    intro authenticated
    refine (runs_pollerReadPage silence rndB hopen hstart).bind ?_
    rintro r ⟨bytes, rfl, hbytes⟩
    exact .pure ⟨bytes, rfl, hbytes⟩
  have hneeds := hdata.not_pageNeedsAuth hopen hconfig hstart
  refine Runs.bind (Q := fun _ => True) ?_ fun authenticated _ => ?_
  · unfold authBeforeConfig
    split
    · exact (runs_tryPwdAuth silence rndB config authenticated).map fun _ _ => True.intro
    · exact .pure True.intro
  · rw [if_neg (by simp [hneeds])]
    exact hauth authenticated

theorem Filled.withPages (h : Filled card start data) {start' : ℕ}
    {pages : CArray UInt8 (cfg.maxPages * pageSize)} {pagesRead : UInt16}
    (hread : pagesRead.toNat = min start' card.pagesTotal.toNat)
    (hpages : ∀ i, pages.get? i =
      if i < min start' card.pagesTotal.toNat * pageSize then card.pages.get? i
      else (CArray.fill (cfg.maxPages * pageSize) 0).get? i) :
    Filled card start' { data with pages, pagesRead } :=
  ⟨congrArg (fun d : Data cfg => { d with pages, pagesRead }) h.fields, hread, hpages⟩

theorem Filled.copyReadChunk (h : Filled card start data) (hcard : card.Complete)
    (hstart : start < card.pagesTotal.toNat) (hbytes : CoversFrom card start bytes) :
    ∃ data', copyReadChunk data start bytes = some data' ∧ Filled card (start + 4) data' := by
  have hfits := hcard.fits
  have hwide := card.pagesTotal.toNat_lt
  have htotal := h.pagesTotal hcard
  have hroom : start * pageSize + min 4 (card.pagesTotal.toNat - start) * pageSize ≤
      cfg.maxPages * pageSize := by
    simp only [pageSize]
    omega
  have hend : min (start + 4) card.pagesTotal.toNat * pageSize =
      start * pageSize + min 4 (card.pagesTotal.toNat - start) * pageSize := by
    simp only [pageSize]
    omega
  have hpages := h.pages
  rw [Nat.min_eq_left hstart.le] at hpages
  have hwrite := data.pages.write?_of_le ((card.pages.length_slice hroom).symm ▸ hroom)
  have hcopy : Ultralight.copyReadChunk data start bytes = some { data with
      pages := data.pages.write (start * pageSize) (card.pages.slice (start * pageSize)
        (min 4 (card.pagesTotal.toNat - start) * pageSize))
      pagesRead := if start + 4 < card.pagesTotal.toNat then UInt16.ofNat (start + 4)
        else card.pagesTotal } := by
    rw [CoversFrom] at hbytes
    rw [Ultralight.copyReadChunk]
    simp only [htotal, hbytes, hwrite, map_some]
  refine ⟨_, hcopy, h.withPages ?_ ?_⟩
  · split
    · rw [UInt16.toNat_ofNat']
      omega
    · omega
  · rw [hend]
    exact get?_write_extend hroom hpages

theorem runs_readPagesFrom (hopen : Open card) (hn : n = (card.pagesTotal.toNat - start + 3) / 4)
    (authenticated : Bool) (hdata : Filled card start data) :
    Runs (Serving card) (readPagesFrom (listenerSession silence rndB) n start authenticated data)
      (Filled card card.pagesTotal.toNat) := by
  induction n generalizing start authenticated data with
  | zero =>
    apply Runs.pure
    have hend : card.pagesTotal.toNat ≤ start := by omega
    refine ⟨hdata.fields, ?_, ?_⟩
    · rw [hdata.pagesRead]
      omega
    · intro i
      rw [hdata.pages, Nat.min_eq_right hend, Nat.min_self]
  | succ n ih =>
    have hstart : start < card.pagesTotal.toNat := by omega
    obtain ⟨config, hconfig⟩ := parseConfig_isSome (hdata.fits hopen.complete)
    rw [readPagesFrom, hconfig]
    refine (runs_readChunk silence rndB hopen hdata hstart hconfig authenticated).bind ?_
    rintro ⟨authenticated, chunk⟩ ⟨bytes, hchunk, hbytes⟩
    obtain rfl : chunk = some bytes := hchunk
    obtain ⟨data', hcopy, hfilled⟩ := hdata.copyReadChunk hopen.complete hstart hbytes
    simp only [hcopy]
    exact ih (by omega) authenticated hfilled

theorem runs_readSignature (hdata : data.hasSignature = false) :
    Runs (Serving card) (readSignature (listenerSession silence rndB) data)
      (fun out => ∃ signature, out = { data with signature, hasSignature := card.hasSignature } ∧
        (card.hasSignature = true → signature = card.signature)) := by
  have hcmd : ∀ st, Serving card st → onTagCmd tdes2 st [0x3C, 0x00] rndB =
      some (st, if card.hasSignature then some card.signature.toList else none) := by
    rintro st hst
    obtain rfl := hst.model
    show (if _ then _ else some (st, _)) = _
    rw [if_neg (by simp [hst.initialized])]
  cases hhas : card.hasSignature with
  | true =>
    simp only [hhas, if_true] at hcmd
    refine (runs_pollerCommand silence rndB hcmd card.signature.length_toList (by decide)).bind ?_
    rintro _ rfl
    exact .pure ⟨card.signature, by rw [ofList_toList], fun _ => rfl⟩
  | false =>
    simp only [hhas] at hcmd
    refine (runs_pollerCommand_unanswered silence rndB 32 hcmd).bind ?_
    rintro _ rfl
    refine .pure ⟨data.signature, ?_, fun h => by cases h⟩
    rw [← hdata]

variable {store : Data cfg → ℕ → Bytes → Data cfg} {i : ℕ}

theorem runs_readItems {read : UInt8 → Poll (State cfg) (Except Errno Bytes)}
    {P : ℕ → Data cfg → Prop} {last : ℕ}
    (hstep : ∀ i < last, ∀ data, P i data → Runs (Serving card) (read (UInt8.ofNat i)) (fun r =>
      (∀ bytes, r = .ok bytes → P (i + 1) (store data i bytes)) ∧
        (∀ e, r = .error e → P (i + 1) data))) (hn : i + n = last) (hdata : P i data) :
    Runs (Serving card) (readItems read store n i data) (P last) := by
  induction n generalizing i data with
  | zero =>
    obtain rfl : i = last := hn
    exact .pure hdata
  | succ n ih =>
    refine (hstep i (by omega) data hdata).bind ?_
    rintro r ⟨hok, herror⟩
    cases r with
    | ok bytes => exact ih (by omega) (hok bytes rfl)
    | error e => exact ih (by omega) (herror e rfl)

def GivesItems (card : Data cfg) (cmd : UInt8) (count : ℕ) {len : ℕ} (items : CArray UInt8 len)
    (size : ℕ) : Prop :=
  ∀ st, Serving card st → ∀ i < 3, onTagCmd tdes2 st [cmd, UInt8.ofNat i] rndB =
    some (st, if i < count then some (items.slice (i * size) size) else none)

variable {rndB} {cmd : UInt8} {len size count : ℕ} {items : CArray UInt8 len}

theorem item_fits (hroom : 3 * size ≤ len) (hi : i < 3) : i * size + size ≤ len := by
  rw [← Nat.succ_mul]
  exact (Nat.mul_le_mul_right size hi).trans hroom

theorem runs_item (h : GivesItems rndB card cmd count items size) (hroom : 3 * size ≤ len)
    (hsize : size ≤ maxResponseLen) (hi : i < 3) :
    Runs (Serving card) (pollerCommand (listenerSession silence rndB) maxResponseLen [cmd, UInt8.ofNat i] size)
      (fun r => r = if i < count then .ok (items.slice (i * size) size) else .error silence) := by
  have hcmd := fun st hst => h st hst i hi
  by_cases hlt : i < count
  · simp only [if_pos hlt] at hcmd ⊢
    exact runs_pollerCommand silence rndB hcmd (length_slice _ (item_fits hroom hi)) hsize
  · simp only [if_neg hlt] at hcmd ⊢
    exact runs_pollerCommand_unanswered silence rndB size hcmd

theorem runs_readItems_copy (h : GivesItems rndB card cmd count items size) (hroom : 3 * size ≤ len)
    (hsize : size ≤ maxResponseLen) (hcount : count ≤ 3) {set : CArray UInt8 len → UInt8 → Data cfg}
    (hstore : ∀ a c i bytes, store (set a c) i bytes =
      set (a.write (i * size) bytes) (UInt8.ofNat (i + 1))) {old : CArray UInt8 len}
    (hdata : data = set old 0) :
    Runs (Serving card)
      (readItems (fun i => pollerCommand (listenerSession silence rndB) maxResponseLen [cmd, i] size) store 3 0 data)
      (fun out => ∃ a, out = set a (UInt8.ofNat count) ∧
        a.slice 0 (count * size) = items.slice 0 (count * size)) := by
  -- after the item `i` the first `min i count` items are there
  have hrun : Runs (Serving card)
      (readItems (fun i => pollerCommand (listenerSession silence rndB) maxResponseLen [cmd, i] size) store 3 0 data)
      (fun out => ∃ a, out = set a (UInt8.ofNat (min 3 count)) ∧
        a.slice 0 (min 3 count * size) = items.slice 0 (min 3 count * size)) := by
    refine runs_readItems (P := fun i out => ∃ a, out = set a (UInt8.ofNat (min i count)) ∧
      a.slice 0 (min i count * size) = items.slice 0 (min i count * size)) ?_ rfl
      ⟨old, by simpa using hdata, by simp⟩
    rintro i hi _ ⟨a, rfl, ha⟩
    refine (runs_item silence h hroom hsize hi).mono ?_
    rintro _ rfl
    by_cases hlt : i < count
    · rw [if_pos hlt]
      refine ⟨?_, fun e he => (by cases he)⟩
      rintro _ ⟨rfl⟩
      rw [Nat.min_eq_left hlt.le] at ha
      rw [Nat.min_eq_left hlt]
      refine ⟨_, hstore a _ i _, ?_⟩
      rw [Nat.succ_mul]
      exact slice_write_extend (item_fits hroom hi) ha
    · -- the card has no such item, and nothing is stored
      rw [if_neg hlt]
      rw [Nat.min_eq_right (by omega)] at ha ⊢
      refine ⟨fun bytes hb => (by cases hb), ?_⟩
      intro e _
      rw [Nat.min_eq_right (by omega)]
      exact ⟨a, rfl, ha⟩
  rwa [Nat.min_eq_right hcount] at hrun

theorem toNat_index (hi : i < 3) : (UInt8.ofNat i).toNat = i := by
  rw [UInt8.toNat_ofNat']
  omega

theorem le_index_iff {n : UInt8} (hi : i < 3) : n ≤ UInt8.ofNat i ↔ ¬ i < n.toNat := by
  rw [UInt8.le_iff_toNat_le, toNat_index hi, Nat.not_lt]

theorem givesItems_counters (rndB : Bytes) (card : Data cfg) :
    GivesItems rndB card 0x39 card.counterCount.toNat card.counters 3 := by
  intro st hst i hi
  obtain rfl := hst.model
  have hindex : byteAt [0x39, UInt8.ofNat i] 1 = UInt8.ofNat i := rfl
  show (if _ then _ else (handleReadCnt st [0x39, UInt8.ofNat i]).map (st, ·)) = _
  rw [if_neg (by simp [hst.initialized]), handleReadCnt, hindex, toNat_index hi,
    read?_of_le _ (by omega)]
  by_cases hlt : i < st.model.counterCount.toNat <;> simp [le_index_iff hi, hlt]

theorem runs_readCounters (hcard : card.counterCount ≤ 3) (hdata : data.counterCount = 0) :
    Runs (Serving card)
      (readItems (pollerReadCounter (listenerSession silence rndB)) Data.storeCounter 3 0 data)
      (fun out => ∃ counters, out = { data with counters, counterCount := card.counterCount } ∧
        counters.slice 0 (card.counterCount.toNat * 3) =
          card.counters.slice 0 (card.counterCount.toNat * 3)) := by
  have hstore : ∀ counters counterCount i bytes,
      Data.storeCounter { data with counters, counterCount } i bytes =
        { data with
          counters := counters.write (i * 3) bytes
          counterCount := UInt8.ofNat (i + 1) } := fun _ _ _ _ => rfl
  have hstart : data = { data with counters := data.counters, counterCount := 0 } := by
    rw [← hdata]
  have hrun := runs_readItems_copy silence (givesItems_counters rndB card) (by decide) (by decide)
    (UInt8.le_iff_toNat_le.mp hcard) hstore hstart
  rwa [UInt8.ofNat_toNat] at hrun

theorem givesItems_tearingFlags (rndB : Bytes) (card : Data cfg) :
    GivesItems rndB card 0x3E card.tearingFlagCount.toNat card.tearingFlags 1 := by
  intro st hst i hi
  obtain rfl := hst.model
  have hindex : byteAt [0x3E, UInt8.ofNat i] 1 = UInt8.ofNat i := rfl
  obtain ⟨b, hb⟩ := (st.model.tearingFlags.get?_eq_some_iff i).mpr hi
  have hslice : st.model.tearingFlags.slice (i * 1) 1 = [b] := by
    apply ext_getElem?
    rintro (_ | j)
    · rw [getElem?_slice, Nat.mul_one, Nat.add_zero, hb]
      rfl
    · rw [getElem?_slice]
      rfl
  show (if _ then _ else (handleTearing st [0x3E, UInt8.ofNat i]).map (st, ·)) = _
  rw [if_neg (by simp [hst.initialized]), handleTearing, hindex, toNat_index hi, hb, hslice]
  by_cases hlt : i < st.model.tearingFlagCount.toNat <;> simp [le_index_iff hi, hlt]

theorem runs_readTearingFlags (hcard : card.tearingFlagCount ≤ 3)
    (hdata : data.tearingFlagCount = 0) :
    Runs (Serving card)
      (readItems (pollerReadTearing (listenerSession silence rndB)) Data.storeTearing 3 0 data)
      (fun out => ∃ tearingFlags,
        out = { data with tearingFlags, tearingFlagCount := card.tearingFlagCount } ∧
        tearingFlags.slice 0 card.tearingFlagCount.toNat =
          card.tearingFlags.slice 0 card.tearingFlagCount.toNat) := by
  have hstore : ∀ tearingFlags tearingFlagCount i bytes,
      Data.storeTearing { data with tearingFlags, tearingFlagCount } i bytes =
        { data with
          tearingFlags := tearingFlags.write (i * 1) bytes
          tearingFlagCount := UInt8.ofNat (i + 1) } := by
    intro _ _ i _
    rw [Nat.mul_one]
    rfl
  have hstart : data = { data with tearingFlags := data.tearingFlags, tearingFlagCount := 0 } := by
    rw [← hdata]
  have hrun := runs_readItems_copy silence (givesItems_tearingFlags rndB card) (by decide)
    (by decide) (UInt8.le_iff_toNat_le.mp hcard) hstore hstart
  simp only [UInt8.ofNat_toNat, Nat.mul_one] at hrun
  exact hrun

structure Reproduces (card out : Data cfg) : Prop where
  type : out.type = card.type
  pagesTotal : out.pagesTotal = card.pagesTotal
  pagesRead : out.pagesRead = card.pagesTotal
  pages : out.pages.slice 0 (card.pagesTotal.toNat * pageSize) =
    card.pages.slice 0 (card.pagesTotal.toNat * pageSize)
  hasVersion : out.hasVersion = card.hasVersion
  version : out.version = card.version
  hasSignature : out.hasSignature = card.hasSignature
  signature : card.hasSignature = true → out.signature = card.signature
  counterCount : out.counterCount = card.counterCount
  counters : out.counters.slice 0 (card.counterCount.toNat * 3) =
    card.counters.slice 0 (card.counterCount.toNat * 3)
  tearingFlagCount : out.tearingFlagCount = card.tearingFlagCount
  tearingFlags : out.tearingFlags.slice 0 card.tearingFlagCount.toNat =
    card.tearingFlags.slice 0 card.tearingFlagCount.toNat

theorem Filled.pages_eq (h : Filled card card.pagesTotal.toNat data) :
    data.pages.slice 0 (card.pagesTotal.toNat * pageSize) =
      card.pages.slice 0 (card.pagesTotal.toNat * pageSize) := by
  apply slice_congr
  intro i hi
  rw [h.pages, if_pos (by rw [Nat.min_self, Nat.zero_add]; exact hi)]

theorem runs_readExtras (hopen : Open card) (hdata : Filled card card.pagesTotal.toNat data) :
    Runs (Serving card) (readExtras (listenerSession silence rndB) data) (Reproduces card) := by
  have hfields := hdata.fields
  refine (runs_readSignature silence rndB (by rw [hfields]; rfl)).bind ?_
  rintro _ ⟨signature, rfl, hsignature⟩
  refine (runs_readCounters silence hopen.counters (by rw [hfields]; rfl)).bind ?_
  rintro _ ⟨counters, rfl, hcounters⟩
  refine (runs_readTearingFlags silence hopen.tearingFlags (by rw [hfields]; rfl)).mono ?_
  rintro _ ⟨tearingFlags, rfl, htearingFlags⟩
  exact {
    type := by rw [hfields]; rfl
    pagesTotal := hdata.pagesTotal hopen.complete
    pagesRead := by
      apply UInt16.toNat_inj.mp
      exact hdata.pagesRead.trans (Nat.min_self _)
    pages := hdata.pages_eq
    hasVersion := by rw [hfields, hopen.complete.hasVersion, hopen.versioned]; rfl
    version := by rw [hfields]; exact ofList_toList _ _
    hasSignature := rfl
    signature := hsignature
    counterCount := rfl
    counters := hcounters
    tearingFlagCount := rfl
    tearingFlags := htearingFlags }

theorem filled_identified (card : Data cfg) :
    Filled card 0 { identified card.type (some card.version.toList) with pagesRead := 0 } := by
  refine ⟨rfl, by simp, ?_⟩
  intro i
  rfl

theorem runs_pollerRead (hopen : Open card) (rndA : CArray UInt8 8) (out : Data cfg) :
    Runs (Serving card) (pollerRead (listenerSession silence rndB) rndA out)
      (fun r => r.2 = .ok () ∧ Reproduces card r.1) := by
  have hidentify : Runs (Serving card) (identifyType (listenerSession silence rndB))
      (fun r => r = (card.type, some card.version.toList)) := by
    intro st hst
    obtain rfl := hst.model
    exact ⟨_, st, identifyType_versioned silence hst.initialized hopen.complete hopen.versioned,
      rfl, hst⟩
  have htotal : pagesTotalForType card.type ≠ 0 := by
    have hsupported := hopen.complete.supported
    cases htype : card.type <;> simp_all [pagesTotalForType]
  have htype : (identified card.type (some card.version.toList) : Data cfg).type ≠ .mfulC := by
    intro htype
    have hversioned := hopen.versioned
    rw [show card.type = .mfulC from htype] at hversioned
    cases hversioned
  have hchunks : (identified card.type (some card.version.toList) : Data cfg).chunks =
      (card.pagesTotal.toNat - 0 + 3) / 4 := by
    rw [hopen.complete.total]
    rfl
  refine hidentify.bind ?_
  rintro _ rfl
  simp only [if_neg htotal]
  rw [authBeforePages_of_ne _ _ htype, pure_bind]
  refine (runs_readPagesFrom silence rndB hopen hchunks false (filled_identified card)).bind ?_
  intro data hdata
  have hread : data.pagesRead = data.pagesTotal := by
    apply UInt16.toNat_inj.mp
    rw [hdata.pagesRead, hdata.pagesTotal hopen.complete, Nat.min_self]
  rw [if_neg (by simp [hread])]
  refine (runs_readExtras silence hopen hdata).bind ?_
  intro out hout
  exact .pure ⟨rfl, hout⟩

/-- A complete card with a version that needs no password is read back through the listener. -/
theorem pollerRead_reproduces (rndB rndA : CArray UInt8 8) (out : Data cfg) {st : State cfg}
    (hopen : Open card) (hst : Serving card st) :
    ∃ data st', pollerRead (listenerSession silence rndB.toList) rndA out st =
      some ((data, .ok ()), st') ∧ Reproduces card data := by
  obtain ⟨⟨data, ret⟩, st', hread, ⟨rfl, hdata⟩, -⟩ := runs_pollerRead silence hopen rndA out st hst
  exact ⟨data, st', hread, hdata⟩

def ntagCard : State .default :=
  let blank := blankCard .ntag213 (some ⟨[0x00, 0x04, 0x04, 0x02, 0x01, 0x00, 0x0F, 0x03], rfl⟩)
  { blank with
    model := { blank.model with
      pages := (CArray.fill _ 0xA5).write 164 [0, 0, 0, 4, 0, 0, 0, 0, 1, 2, 3, 4]
      hasSignature := true
      counterCount := 1 }
    config := .ofPages [0, 0, 0, 4] [0, 0, 0, 0] [1, 2, 3, 4] [0xA5, 0xA5, 0xA5, 0xA5] }

theorem ntagCard_open : Open ntagCard.model where
  complete := ⟨by decide, rfl, rfl, by decide, rfl, fun _ => by decide⟩
  versioned := rfl
  unprotected := by
    intro page
    have hconfig : ntagCard.model.configPages = some ntagCard.config := by decide +kernel
    by_contra hprotects
    obtain ⟨-, config, hparsed, hneeds⟩ :=
      (ntagCard.model.protects_iff page).mp (Bool.not_eq_false _ ▸ hprotects)
    obtain rfl := some.inj (hconfig.symm.trans hparsed)
    exact absurd (valid_of_pageNeedsAuth hneeds).2.2 (by decide)
  counters := by decide
  tearingFlags := by decide

theorem ntagCard_serving : Serving ntagCard.model ntagCard :=
  ⟨rfl, rfl, by decide +kernel⟩

theorem pollerRead_ntagCard : Open ntagCard.model ∧ Serving ntagCard.model ntagCard ∧
    ∃ data st', pollerRead (listenerSession .etimedout (List.replicate 8 0)) (.fill 8 0) .reset
        ntagCard = some ((data, .ok ()), st') ∧ Reproduces ntagCard.model data :=
  ⟨ntagCard_open, ntagCard_serving,
    pollerRead_reproduces .etimedout (.fill 8 0) (.fill 8 0) .reset ntagCard_open ntagCard_serving⟩

end Type2

end NfcStack.Ultralight
