import NfcStack.Lib.Hoare
import NfcStack.Protocols.Ultralight.Poller

/-!
# Captured Ultralight cards and their stored form

The stored form has no field for the number of pages that were read, so a card that the poller has left
in the middle comes back as a complete one (`roundTrips_iff_of_stored`).
-/

namespace NfcStack.Ultralight

open List Option CArray Reader Hoare Poll

variable {cfg : Config} {τ : Type}

def maxSerialized (cfg : Config) : ℕ := 4 + cfg.maxPages * pageSize + 1 + 8 + 1 + 32 + 1 + 9 + 1 + 3

def Data.RoundTrips (data : Data cfg) : Prop :=
  ∀ outMax, maxSerialized cfg ≤ outMax → ∃ bytes, serialize data outMax = some (.ok bytes) ∧
    ∀ old, deserialize old bytes = (data, .ok ())

def ZeroFrom {n : ℕ} (a : CArray UInt8 n) (k : ℕ) : Prop :=
  ∀ i, k ≤ i → a.get? i = (CArray.fill n 0).get? i

structure Data.Stored (data : Data cfg) : Prop where
  type : data.type = .ofPagesTotal data.pagesTotal
  variant : data.variant = .ofType data.type
  pages : ZeroFrom data.pages (data.pagesTotal.toNat * pageSize)
  version : data.hasVersion = false → data.version = .fill _ 0
  signature : data.hasSignature = false → data.signature = .fill _ 0
  counterCount : data.counterCount.toNat ≤ 3
  counters : ZeroFrom data.counters (data.counterCount.toNat * 3)
  tearingFlagCount : data.tearingFlagCount.toNat ≤ 3
  tearingFlags : ZeroFrom data.tearingFlags data.tearingFlagCount.toNat

variable {size : ℕ}

theorem takeOptional_optionalField (present : Bool) {field : Bytes}
    (hsize : field.length = size) (rest : Bytes) :
    takeOptional size (optionalField present field ++ rest) =
      some (if present then some field else none, rest) := by
  subst hsize
  cases present with
  | false => rfl
  | true =>
    show takeOptional field.length (1 :: (field ++ rest)) = _
    rw [takeOptional, if_neg (by decide), if_neg (by simp), take_left, drop_left]
    rfl

theorem takeCounted_cons {max : ℕ} {count : UInt8} {items : Bytes}
    (hmax : count.toNat ≤ max) (hitems : items.length = count.toNat * size) (rest : Bytes) :
    takeCounted max size (count :: (items ++ rest)) = some (count, items, rest) := by
  rw [takeCounted, if_neg (by simp [hitems]; omega), take_left' hitems, drop_left' hitems]

def Data.tail (data : Data cfg) : Bytes :=
  optionalField data.hasVersion data.version.toList ++
    (optionalField data.hasSignature data.signature.toList ++
      (data.counterCount :: (data.counters.slice 0 (data.counterCount.toNat * 3) ++
        (data.tearingFlagCount :: data.tearingFlags.slice 0 data.tearingFlagCount.toNat))))

theorem serialize_of_stored {data : Data cfg} (h : data.Stored) (hpos : data.pagesTotal ≠ 0)
    (hfits : data.pagesTotal.toNat ≤ cfg.maxPages) {outMax : ℕ} (hmax : maxSerialized cfg ≤ outMax) :
    serialize data outMax = some (.ok ([formatVersion, data.variant.code] ++
      le16Bytes data.pagesTotal ++ data.pages.slice 0 (data.pagesTotal.toNat * pageSize) ++
        data.tail)) := by
  have hcounters : 0 + data.counterCount.toNat * 3 ≤ 9 := by have := h.counterCount; omega
  have hflags : 0 + data.tearingFlagCount.toNat ≤ 3 := by have := h.tearingFlagCount; omega
  have hpages : (data.pages.slice 0 (data.pagesTotal.toNat * pageSize)).length =
      data.pagesTotal.toNat * pageSize := by
    apply length_slice
    simp only [pageSize]
    omega
  have hoptional : ∀ (present : Bool) (field : Bytes),
      (optionalField present field).length ≤ 1 + field.length := by
    intro present field
    cases present <;> simp [optionalField, Nat.add_comm]
  have hversion := hoptional data.hasVersion data.version.toList
  have hsignature := hoptional data.hasSignature data.signature.toList
  rw [data.version.length_toList] at hversion
  rw [data.signature.length_toList] at hsignature
  rw [serialize, if_neg (by simp [hpos]; omega)]
  -- what is left is that there is room
  rw [if_neg, read?_of_le _ hcounters, read?_of_le _ hflags]
  · simp only [Data.tail, append_assoc, cons_append, nil_append]
  · rw [hpages]
    simp only [maxSerialized, pageSize] at hmax ⊢
    omega

theorem deserializeTail_tail {card : Data cfg} (h : card.Stored) :
    deserializeTail
        { (Data.reset : Data cfg) with
          pagesTotal := card.pagesTotal
          type := card.type
          variant := card.variant
          pages := card.pages } card.tail =
      ({ card with pagesRead := card.pagesTotal }, .ok ()) := by
  have hcounters : (card.counters.slice 0 (card.counterCount.toNat * 3)).length =
      card.counterCount.toNat * 3 := length_slice _ (by have := h.counterCount; omega)
  have hflags : (card.tearingFlags.slice 0 card.tearingFlagCount.toNat).length =
      card.tearingFlagCount.toNat * 1 := by
    rw [Nat.mul_one]
    exact length_slice _ (by have := h.tearingFlagCount; omega)
  have hlast := takeCounted_cons h.tearingFlagCount hflags []
  rw [append_nil] at hlast
  have hcounters' : (CArray.fill 9 0).write 0 (card.counters.slice 0 (card.counterCount.toNat * 3)) =
      card.counters := write_slice_of_eq (by have := h.counterCount; omega) h.counters
  have hflags' : (CArray.fill 3 0).write 0 (card.tearingFlags.slice 0 card.tearingFlagCount.toNat) =
      card.tearingFlags := write_slice_of_eq h.tearingFlagCount h.tearingFlags
  have hversion := h.version
  have hsignature := h.signature
  rw [deserializeTail, Data.tail, takeOptional_optionalField _ card.version.length_toList]
  simp only [takeOptional_optionalField _ card.signature.length_toList,
    takeCounted_cons h.counterCount hcounters, hlast]
  clear h hcounters hflags hlast
  obtain ⟨pages, pagesTotal, pagesRead, type, variant, version, hasVersion, signature, hasSignature,
    counters, counterCount, tearingFlags, tearingFlagCount⟩ := card
  -- an optional field that is not there is zero
  cases hasVersion <;> cases hasSignature <;>
    simp_all [Data.reset, ofList_toList]

theorem deserialize_of_stored {data : Data cfg} (h : data.Stored) (hpos : data.pagesTotal ≠ 0)
    (hfits : data.pagesTotal.toNat ≤ cfg.maxPages) (old : Data cfg) :
    deserialize old ([formatVersion, data.variant.code] ++ le16Bytes data.pagesTotal ++
        data.pages.slice 0 (data.pagesTotal.toNat * pageSize) ++ data.tail) =
      ({ data with pagesRead := data.pagesTotal }, .ok ()) := by
  have hroom : data.pagesTotal.toNat * pageSize ≤ cfg.maxPages * pageSize :=
    Nat.mul_le_mul_right _ hfits
  have hpages : (data.pages.slice 0 (data.pagesTotal.toNat * pageSize)).length =
      data.pagesTotal.toNat * pageSize := length_slice _ (by omega)
  have hwrite : (Data.reset : Data cfg).pages.write 0
      (data.pages.slice 0 (data.pagesTotal.toNat * pageSize)) = data.pages :=
    write_slice_of_eq hroom h.pages
  have hvariant : (if (⟨data.variant.code⟩ : Variant) = .unknown then
      Variant.ofType data.type else ⟨data.variant.code⟩) = data.variant := by
    split
    · exact h.variant.symm
    · rfl
  obtain ⟨l, hl⟩ : ∃ l, l = [formatVersion, data.variant.code] ++ le16Bytes data.pagesTotal ++
    data.pages.slice 0 (data.pagesTotal.toNat * pageSize) ++ data.tail := ⟨_, rfl⟩
  -- four bytes of header, the pages and the rest
  have h0 : l.drop 0 = formatVersion :: data.variant.code :: (le16Bytes data.pagesTotal ++
      (data.pages.slice 0 (data.pagesTotal.toNat * pageSize) ++ data.tail)) := by
    simp [hl]
  have hlen : l.length = 4 + (data.pagesTotal.toNat * pageSize + data.tail.length) := by
    simp [hl, hpages, le16Bytes]
    omega
  have h1 : l.drop 1 = _ := drop_of_cons h0
  have h2 : l.drop 2 = _ := drop_of_cons h1
  have h4 : l.drop 4 = _ := drop_of_append h2 rfl
  have htotal : le16 (byteAt l 2) (byteAt l 3) = data.pagesTotal := le16_of_append h2
  rw [← hl, deserialize, if_neg (by rw [hlen, byteAt_of_cons h0]; simp)]
  simp only [htotal, byteAt_of_cons h1, hvariant, h4, take_left' hpages, drop_of_append h4 hpages,
    hwrite, ← h.type]
  rw [if_neg (by push Not; exact ⟨hpos, hfits, by omega⟩)]
  exact deserializeTail_tail h

theorem roundTrips_iff_of_stored {data : Data cfg} (h : data.Stored) (hpos : data.pagesTotal ≠ 0) :
    data.RoundTrips ↔ data.pagesTotal.toNat ≤ cfg.maxPages ∧ data.pagesRead = data.pagesTotal := by
  constructor
  · intro hround
    obtain ⟨bytes, hser, hdes⟩ := hround _ le_rfl
    have hfits : data.pagesTotal.toNat ≤ cfg.maxPages := by
      by_contra hlarge
      rw [serialize, if_pos (.inr (by omega))] at hser
      cases hser
    rw [serialize_of_stored h hpos hfits le_rfl] at hser
    cases hser
    -- what comes back has `pagesRead` set to the number of pages
    have heq := (deserialize_of_stored h hpos hfits data).symm.trans (hdes data)
    exact ⟨hfits, (congrArg (fun r => r.1.pagesRead) heq).symm⟩
  · rintro ⟨hfits, hread⟩ outMax hmax
    have hdata : { data with pagesRead := data.pagesTotal } = data := by
      cases data
      cases hread
      rfl
    refine ⟨_, serialize_of_stored h hpos hfits hmax, ?_⟩
    intro old
    rw [deserialize_of_stored h hpos hfits old, hdata]

variable (s : Session τ)

theorem ensures_pollerCommand (tx : Bytes) (size : ℕ) :
    Ensures (pollerCommand s maxResponseLen tx size) (fun r => ∀ bytes, r = .ok bytes → bytes.length = size) := by
  refine (Ensures.trivial _).bind fun r _ => ?_
  cases r with
  | error e =>
    refine .pure ?_
    rintro bytes ⟨⟩
  | ok rx =>
    refine .pure ?_
    intro bytes hbytes
    split at hbytes
    · cases hbytes
    · cases hbytes
      rw [length_take]
      omega

variable {n : ℕ} {src : Bytes}

theorem ZeroFrom.write {k k' off : ℕ} {a : CArray UInt8 n} (h : ZeroFrom a k)
    (hk : k ≤ k') (hsrc : off + src.length ≤ k') : ZeroFrom (a.write off src) k' := by
  intro i hi
  by_cases hroom : off + src.length ≤ n
  · rw [get?_write a hroom, if_neg (by omega), h i (by omega)]
  · have hsame : a.write off src = a := by
      simp [CArray.write, (write?_eq_none_iff a off src).mpr (by omega)]
    rw [hsame, h i (by omega)]

theorem zeroFrom_fill (n k : ℕ) : ZeroFrom (CArray.fill n 0) k := fun _ _ => rfl

variable (type : CardType)

theorem stored_identified (version : Option Bytes) :
    (identified type version : Data cfg).Stored where
  type := by cases type <;> rfl
  variant := rfl
  pages := zeroFrom_fill _ _
  version := by
    intro h
    cases version with
    | none => rfl
    | some v => cases h
  signature := fun _ => rfl
  counterCount := Nat.zero_le _
  counters := zeroFrom_fill _ _
  tearingFlagCount := Nat.zero_le _
  tearingFlags := zeroFrom_fill _ _

structure Begun (total : UInt16) (data : Data cfg) : Prop where
  stored : data.Stored
  pagesTotal : data.pagesTotal = total
  counterCount : data.counterCount = 0
  tearingFlagCount : data.tearingFlagCount = 0

theorem begun_identified (version : Option Bytes) :
    Begun (pagesTotalForType type) (identified type version : Data cfg) :=
  ⟨stored_identified type version, rfl, rfl, rfl⟩

variable {total : UInt16} {data : Data cfg}

theorem Begun.withPages (h : Begun total data) {off : ℕ}
    {pages : CArray UInt8 (cfg.maxPages * pageSize)} (hwrite : data.pages.write? off src = some pages)
    (hsrc : off + src.length ≤ total.toNat * pageSize) (pagesRead : UInt16) :
    Begun total { data with pages, pagesRead } := by
  have hpages : pages = data.pages.write off src := by
    rw [CArray.write, hwrite]
    rfl
  rw [← h.pagesTotal] at hsrc
  have hzero := h.stored.pages.write le_rfl hsrc
  rw [← hpages] at hzero
  exact ⟨{ h.stored with pages := hzero }, h.pagesTotal, h.counterCount, h.tearingFlagCount⟩

theorem ofPagesTotal_eq_mfulC {pagesTotal : UInt16}
    (h : CardType.ofPagesTotal pagesTotal = .mfulC) : pagesTotal = 48 := by
  unfold CardType.ofPagesTotal at h
  split_ifs at h with _ _ _ _ _ h48
  exact h48

variable (rndA : CArray UInt8 8)

theorem ensures_authBeforePages (h : Begun total data) :
    Ensures (authBeforePages s rndA data) (Begun total) := by
  unfold authBeforePages
  split
  swap
  · exact .pure h
  next htype =>
  -- the key is written to the pages 44 to 47, which the card has
  have htotal : data.pagesTotal = 48 := ofPagesTotal_eq_mfulC (h.stored.type.symm.trans htype)
  refine Ensures.map (Q := fun r => Begun total r.1) ?_ fun _ hr => hr
  unfold authUltralightC
  split
  · exact .of_none (fun _ => rfl) _
  next key hkey =>
  have hlength : key.length = 16 := by
    split at hkey
    · obtain ⟨hle, rfl⟩ := (read?_eq_some_iff _ _ _ _).mp hkey
      exact length_slice _ hle
    · cases hkey
      rfl
  refine (Ensures.trivial _).bind fun r _ => ?_
  split
  · split
    · exact .of_none (fun _ => rfl) _
    · next pages hpages =>
      refine .pure (h.withPages hpages ?_ data.pagesRead)
      rw [hlength, ← h.pagesTotal, htotal]
      decide
  · exact .pure h

variable {bytes : Bytes} {start : ℕ} {data' : Data cfg}

theorem Begun.copyReadChunk (h : Begun total data) (hstart : start ≤ total.toNat)
    (hcopy : copyReadChunk data start bytes = some data') : Begun total data' := by
  obtain ⟨pages, hpages, rfl⟩ := map_eq_some_iff.mp hcopy
  refine h.withPages hpages ?_ _
  rw [length_take, h.pagesTotal]
  simp only [pageSize]
  omega

theorem ensures_readChunk (data : Data cfg) (config : ConfigBlock) (authenticated : Bool)
    (start : ℕ) : Ensures (readChunk s data config authenticated start)
      (fun r => ∀ bytes, r.2 = some bytes → bytes.length = 16) := by
  have hnone : ∀ a : Bool, ∀ bytes : Bytes, (a, (none : Option Bytes)).2 = some bytes →
      bytes.length = 16 := by
    rintro _ _ ⟨⟩
  have hread : ∀ authenticated, Ensures (readOrAuth s config authenticated start)
      (fun r => ∀ bytes, r.2 = some bytes → bytes.length = 16) := by
    intro authenticated
    refine (ensures_pollerCommand s _ 16).bind fun r hr => ?_
    split
    · refine .pure ?_
      rintro _ ⟨rfl⟩
      exact hr _ rfl
    split
    · exact .pure (hnone _)
    refine (Ensures.trivial _).bind fun a _ => ?_
    split
    · refine (ensures_pollerCommand s _ 16).bind fun r hr => .pure ?_
      intro bytes hbytes
      cases r with
      | error e => cases hbytes
      | ok rx =>
        cases hbytes
        exact hr _ rfl
    · exact .pure (hnone _)
  refine (Ensures.trivial _).bind fun a _ => ?_
  split
  · refine (Ensures.trivial _).bind fun r _ => ?_
    split
    · exact .pure (hnone _)
    · exact hread _
  · exact hread _

theorem ensures_pageLoop {P : ℕ → ℕ → Data cfg → Prop} {Q : Data cfg → Prop}
    (hdone : ∀ n start data, P n start data → Q data)
    (hcopy : ∀ n start data bytes data', P (n + 1) start data → bytes.length = 16 →
      copyReadChunk data start bytes = some data' → P n (start + 4) data')
    (authenticated : Bool) (h : P n start data) :
    Ensures (readPagesFrom s n start authenticated data) Q := by
  induction n generalizing start authenticated data with
  | zero => exact .pure (hdone _ _ _ h)
  | succ n ih =>
    rw [readPagesFrom]
    split
    · exact .of_none (fun _ => rfl) _
    refine (ensures_readChunk s _ _ _ _).bind fun r hr => ?_
    split
    · exact .pure (hdone _ _ _ h)
    split
    · exact .of_none (fun _ => rfl) _
    next hstored => exact ih _ (hcopy _ _ _ _ _ h (hr _ rfl) hstored)

variable (authenticated : Bool)

theorem ensures_readPagesFrom (h : Begun total data) (hn : n = (total.toNat - start + 3) / 4) :
    Ensures (readPagesFrom s n start authenticated data) (Begun total) := by
  refine ensures_pageLoop s (P := fun n start data => Begun total data ∧
    n = (total.toNat - start + 3) / 4) ?_ ?_ authenticated ⟨h, hn⟩
  · rintro _ _ _ ⟨hbegun, -⟩
    exact hbegun
  · rintro n start data bytes data' ⟨hbegun, hn⟩ - hcopy
    exact ⟨hbegun.copyReadChunk (by omega) hcopy, by omega⟩

theorem ensures_readSignature (h : Begun total data) :
    Ensures (readSignature s data)
      (fun out => Begun total out ∧ out.pagesRead = data.pagesRead) := by
  refine (Ensures.trivial _).bind fun r _ => ?_
  split
  · refine .pure ⟨⟨{ h.stored with signature := ?_ }, h.pagesTotal, h.counterCount,
      h.tearingFlagCount⟩, rfl⟩
    rintro ⟨⟩
  · exact .pure ⟨h, rfl⟩

variable {i : ℕ}

theorem ensures_readItems {read : UInt8 → Poll τ (Except Errno Bytes)} {last : ℕ}
    (hread : ∀ i, Ensures (read i) (fun r => ∀ bytes, r = .ok bytes → bytes.length = size))
    {store : Data cfg → ℕ → Bytes → Data cfg} {P : ℕ → Data cfg → Prop}
    (hstore : ∀ i < last, ∀ data bytes, P i data → bytes.length = size →
      P (i + 1) (store data i bytes))
    (hskip : ∀ i data, P i data → P (i + 1) data) (hn : i + n = last) (hdata : P i data) :
    Ensures (readItems read store n i data) (P last) := by
  induction n generalizing i data with
  | zero =>
    obtain rfl : i = last := hn
    exact .pure hdata
  | succ n ih =>
    refine (hread (UInt8.ofNat i)).bind fun r hr => ?_
    cases r with
    | ok bytes =>
      exact ih (by omega) (hstore i (by omega) data bytes hdata (hr bytes rfl))
    | error e => exact ih (by omega) (hskip i data hdata)

theorem toNat_count (hi : i < 3) : (UInt8.ofNat (i + 1)).toNat = i + 1 := by
  rw [UInt8.toNat_ofNat']
  omega

theorem Data.Stored.storeCounter (h : data.Stored) (hi : i < 3)
    (hcount : data.counterCount.toNat ≤ i) (hbytes : bytes.length = 3) :
    (data.storeCounter i bytes).Stored where
  __ := h
  counterCount := by
    show (UInt8.ofNat (i + 1)).toNat ≤ 3
    rw [toNat_count hi]
    omega
  counters := by
    show ZeroFrom (data.counters.write (i * 3) bytes) ((UInt8.ofNat (i + 1)).toNat * 3)
    rw [toNat_count hi]
    exact h.counters.write (by omega) (by omega)

theorem Data.Stored.storeTearing (h : data.Stored) (hi : i < 3)
    (hcount : data.tearingFlagCount.toNat ≤ i) (hbytes : bytes.length = 1) :
    (data.storeTearing i bytes).Stored where
  __ := h
  tearingFlagCount := by
    show (UInt8.ofNat (i + 1)).toNat ≤ 3
    rw [toNat_count hi]
    omega
  tearingFlags := by
    show ZeroFrom (data.tearingFlags.write i bytes) (UInt8.ofNat (i + 1)).toNat
    rw [toNat_count hi]
    exact h.tearingFlags.write (by omega) (by omega)

theorem ensures_readExtras (h : Begun total data) :
    Ensures (readExtras s data) (fun out => out.Stored ∧ out.pagesTotal = total ∧
      out.pagesRead = data.pagesRead) := by
  refine (ensures_readSignature s h).bind ?_
  rintro d ⟨hd, hread⟩
  refine Ensures.bind (ensures_readItems (fun i => ensures_pollerCommand s [0x39, i] 3)
    (P := fun i out => out.Stored ∧ out.pagesTotal = total ∧ out.pagesRead = data.pagesRead ∧
      out.tearingFlagCount = 0 ∧ out.counterCount.toNat ≤ i) ?_ ?_ rfl
    ⟨hd.stored, hd.pagesTotal, hread, hd.tearingFlagCount, by rw [hd.counterCount]; decide⟩) ?_
  -- the counters, with the tearing flags still to come
  · rintro i hi out bytes ⟨hs, ht, hr, hf, hc⟩ hbytes
    exact ⟨hs.storeCounter hi hc hbytes, ht, hr, hf, (toNat_count hi).le⟩
  · rintro i out ⟨hs, ht, hr, hf, hc⟩
    exact ⟨hs, ht, hr, hf, by omega⟩
  rintro d ⟨hs, ht, hr, hf, -⟩
  refine (ensures_readItems (fun i => ensures_pollerCommand s [0x3E, i] 1)
    (P := fun i out => out.Stored ∧ out.pagesTotal = total ∧ out.pagesRead = data.pagesRead ∧
      out.tearingFlagCount.toNat ≤ i) ?_ ?_ rfl ⟨hs, ht, hr, by rw [hf]; decide⟩).mono ?_
  · rintro i hi out bytes ⟨hs, ht, hr, hc⟩ hbytes
    exact ⟨hs.storeTearing hi hc hbytes, ht, hr, (toNat_count hi).le⟩
  · rintro i out ⟨hs, ht, hr, hc⟩
    exact ⟨hs, ht, hr, by omega⟩
  · rintro out ⟨hs, ht, hr, -⟩
    exact ⟨hs, ht, hr⟩

theorem pagesRead_of_copyReadChunk (hcopy : copyReadChunk data start bytes = some data') :
    data'.pagesRead.toNat = min (start + 4) data.pagesTotal.toNat := by
  have hwide := data.pagesTotal.toNat_lt
  obtain ⟨pages, -, rfl⟩ := map_eq_some_iff.mp hcopy
  show (if _ then _ else _ : UInt16).toNat = _
  split
  · rw [UInt16.toNat_ofNat']
    omega
  · omega

theorem ensures_pagesRead_le (h : data.pagesRead.toNat ≤ cfg.maxPages) :
    Ensures (readPagesFrom s n start authenticated data)
      (fun out => out.pagesRead.toNat ≤ cfg.maxPages) := by
  refine ensures_pageLoop s (P := fun _ _ data => data.pagesRead.toNat ≤ cfg.maxPages)
    (fun _ _ _ h => h) ?_ authenticated h
  intro _ start data bytes data' _ hlength hcopy
  rw [pagesRead_of_copyReadChunk hcopy]
  obtain ⟨pages, hpages, -⟩ := map_eq_some_iff.mp hcopy
  have hroom := le_of_write? hpages
  rw [length_take] at hroom
  simp only [pageSize] at hroom
  omega

theorem pollerRead_inv (old : Data cfg) {t t' : τ}
    (hread : pollerRead s rndA old t = some ((data, .ok ()), t')) :
    ∃ type version data₁ data₂ t₁ t₂ t₃, identifyType s t = some ((type, version), t₁) ∧
      pagesTotalForType type ≠ 0 ∧
      authBeforePages s rndA (identified type version) t₁ = some (data₁, t₂) ∧
      pollerReadPages s data₁ t₂ = some (data₂, t₃) ∧
      (data = data₂ ∧ t' = t₃ ∨ readExtras s data₂ t₃ = some (data, t')) := by
  rw [pollerRead] at hread
  by_cases hactive : s.active = true
  swap
  · rw [if_pos (by simpa using hactive)] at hread
    cases hread
  rw [if_neg (by simpa using hactive)] at hread
  obtain ⟨⟨type, version⟩, t₁, hidentify, hread⟩ := bind_eq_some hread
  simp only at hread
  by_cases htotal : pagesTotalForType type = 0
  · rw [if_pos htotal] at hread
    cases hread
  rw [if_neg htotal] at hread
  obtain ⟨data₁, t₂, hauth, hread⟩ := bind_eq_some hread
  obtain ⟨data₂, t₃, hpages, hread⟩ := bind_eq_some hread
  refine ⟨type, version, data₁, data₂, t₁, t₂, t₃, hidentify, htotal, hauth, hpages, ?_⟩
  by_cases hend : data₂.pagesRead < data₂.pagesTotal ∨ version = none
  · rw [if_pos hend] at hread
    cases hread
    exact .inl ⟨rfl, rfl⟩
  · rw [if_neg hend] at hread
    obtain ⟨data₃, t₄, hextras, hpure⟩ := bind_eq_some hread
    cases hpure
    exact .inr hextras

theorem pollerRead_stored (old : Data cfg) {t t' : τ}
    (hread : pollerRead s rndA old t = some ((data, .ok ()), t')) :
    data.Stored ∧ data.pagesTotal ≠ 0 ∧ data.pagesRead.toNat ≤ cfg.maxPages := by
  obtain ⟨type, version, data₁, data₂, t₁, t₂, t₃, hidentify, htotal, hauth, hpages, hdata⟩ :=
    pollerRead_inv s rndA old hread
  have hbegun₁ := ensures_authBeforePages s rndA (begun_identified type version) _ _ _ hauth
  have hbegun : Begun (pagesTotalForType type) { data₁ with pagesRead := 0 } :=
    ⟨{ hbegun₁.stored with }, hbegun₁.pagesTotal, hbegun₁.counterCount, hbegun₁.tearingFlagCount⟩
  have hchunks : data₁.chunks = ((pagesTotalForType type).toNat - 0 + 3) / 4 := by
    rw [Data.chunks, hbegun₁.pagesTotal]
    rfl
  have hbegun₂ := ensures_readPagesFrom s false hbegun hchunks _ _ _ hpages
  have hroom := ensures_pagesRead_le s false (Nat.zero_le _) _ _ _ hpages
  -- the fields behind the pages change nothing of this
  rcases hdata with ⟨rfl, -⟩ | hextras
  · exact ⟨hbegun₂.stored, hbegun₂.pagesTotal ▸ htotal, hroom⟩
  · obtain ⟨hstored, htot, hread⟩ := ensures_readExtras s hbegun₂ _ _ _ hextras
    exact ⟨hstored, htot ▸ htotal, hread ▸ hroom⟩

end NfcStack.Ultralight
