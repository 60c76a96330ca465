import NfcStack.Store.Correct

/-!
# The walk over a stored blob

The loop of `nfc_store_load` over positions in `s_staging_buf`, with every slice it passes on. It refines
the loop over the remaining payload, stays below its end, and comes to an end.
-/

namespace NfcStack.Store

open List

variable {cfg : Config} {μ : Type}

structure Visit where
  start : ℕ
  header : ℕ
  len : ℕ
deriving DecidableEq, Repr

def Visit.stop (v : Visit) : ℕ := v.start + v.header + v.len

structure Trace where
  /-- The positions of the bytes that were read. -/
  reads : List ℕ
  /-- The slices that were passed to services, as position and length. -/
  slices : List (ℕ × ℕ)
  visits : List Visit
deriving DecidableEq, Repr

def Trace.empty : Trace := ⟨[], [], []⟩

def Trace.append (t u : Trace) : Trace :=
  ⟨t.reads ++ u.reads, t.slices ++ u.slices, t.visits ++ u.visits⟩

inductive WalkEnd (μ : Type)
  | returns (m : μ) (ret : Ret)
  | undefined
  | unfinished

def passSlice (svcs : List (Service μ)) (buf : Bytes) (m : μ) (persistId : UInt8)
    (pos len : ℕ) : List (ℕ × ℕ) × Option (μ × Ret) :=
  match svcs.find? (·.persistId == persistId) with
  | none => ([], some (m, .ok ()))
  | some svc =>
    match svc.deserialize with
    | none => ([], some (m, .ok ()))
    | some deserialize => ([(pos, len)], deserialize m ((buf.drop pos).take len))

def entryLen (version : UInt8) (buf : Bytes) (pos : ℕ) : ℕ :=
  (le16 (byteAt buf (pos + entryOverhead version - 2))
    (byteAt buf (pos + entryOverhead version - 1))).toNat

/-- The loop of `nfc_store_load` from position `pos` on, where the payload ends at `stop`. -/
def walk (svcs : List (Service μ)) (version : UInt8) (buf : Bytes) (stop : ℕ) :
    (fuel pos : ℕ) → μ → (failed : Bool) → Trace × WalkEnd μ
  | fuel, pos, m, failed =>
    if stop ≤ pos then (.empty, .returns m (if failed then .error .ebadmsg else .ok ()))
    else
      match fuel with
      | 0 => (.empty, .unfinished)
      | fuel + 1 =>
        let overhead := entryOverhead version
        let body := pos + overhead
        if stop < body then (.empty, .returns m (.error .ebadmsg))
        else
          let len := entryLen version buf pos
          let reads := List.range' pos overhead
          if stop < body + len then (⟨reads, [], []⟩, .returns m (.error .ebadmsg))
          else
            let call := passSlice svcs buf m (byteAt buf pos) body len
            let here : Trace := ⟨reads, call.1, [⟨pos, overhead, len⟩]⟩
            match call.2 with
            | none => (here, .undefined)
            | some (m, ret) =>
              let r := walk svcs version buf stop fuel (body + len) m (failed || ret != .ok ())
              (here.append r.1, r.2)

def staged (blob old : Bytes) : Bytes := blob ++ old.drop blob.length

def payloadLen (blob : Bytes) : ℕ := (le16 (byteAt blob 4) (byteAt blob 5)).toNat

variable (crc : Bytes → UInt16) (started : Bool) (st : State cfg)

/-- `nfc_store_load` with the trace of its walk; `old` is what the staging buffer held before. -/
def loadWalk (svcs : List (Service μ)) (m : μ) (tag : TagName) (old : Bytes) : Trace × WalkEnd μ :=
  if started then (.empty, .returns m (.error .ebusy))
  else if ¬ st.initialized then (.empty, .returns m (.error .enodev))
  else if ¬ st.validTag tag then (.empty, .returns m (.error .einval))
  else
    match callLoad st tag with
    | .error .enoent => (.empty, .returns m (.error .enoent))
    | .error _ => (.empty, .returns m (.error .eio))
    | .ok blob =>
      match openEnvelope crc blob with
      | .error e => (.empty, .returns m (.error e))
      | .ok (version, _) =>
        walk svcs version (staged blob old) (hdrSize + payloadLen blob) (payloadLen blob) hdrSize m
          false

def Tiles : (pos stop : ℕ) → List Visit → Prop
  | pos, stop, [] => pos = stop
  | pos, stop, v :: vs => v.start = pos ∧ Tiles v.stop stop vs

structure Trace.Sound (pos stop : ℕ) (t : Trace) : Prop where
  reads : ∀ i ∈ t.reads, pos ≤ i ∧ i < stop
  slices : ∀ s ∈ t.slices, pos ≤ s.1 ∧ s.1 + s.2 ≤ stop
  ordered : t.slices.Pairwise fun s s' => s.1 + s.2 ≤ s'.1
  visits : ∃ last, last ≤ stop ∧ Tiles pos last t.visits

variable {stop pos : ℕ}

theorem Trace.sound_empty (h : pos ≤ stop) : Trace.empty.Sound pos stop where
  reads := by simp [Trace.empty]
  slices := by simp [Trace.empty]
  ordered := .nil
  visits := ⟨pos, h, rfl⟩

theorem entryOverhead_pos (version : UInt8) : 0 < entryOverhead version := by
  unfold entryOverhead
  split <;> omega

variable (svcs : List (Service μ))

theorem passSlice_slices (buf : Bytes) (m : μ) (persistId : UInt8) (pos len : ℕ) :
    (passSlice svcs buf m persistId pos len).1 = [] ∨
      (passSlice svcs buf m persistId pos len).1 = [(pos, len)] := by
  unfold passSlice
  split
  · exact .inl rfl
  split
  · exact .inl rfl
  · exact .inr rfl

theorem Trace.Sound.cons {header len : ℕ} {slices : List (ℕ × ℕ)} {t : Trace}
    (hstop : pos + header + len ≤ stop) (hslices : slices = [] ∨ slices = [(pos + header, len)])
    (h : t.Sound (pos + header + len) stop) :
    (Trace.append ⟨List.range' pos header, slices, [⟨pos, header, len⟩]⟩ t).Sound pos stop where
  reads := by
    intro i hi
    rcases mem_append.mp hi with hi | hi
    · rw [mem_range'_1] at hi
      omega
    · have := h.reads i hi
      omega
  slices := by
    intro s hs
    rcases mem_append.mp hs with hs | hs
    · rcases hslices with rfl | rfl
      · cases hs
      · rw [mem_singleton] at hs
        subst hs
        exact ⟨Nat.le_add_right _ _, hstop⟩
    · have := h.slices s hs
      omega
  ordered := by
    rcases hslices with rfl | rfl
    · exact h.ordered
    · refine pairwise_cons.mpr ⟨?_, h.ordered⟩
      intro s hs
      exact (h.slices s hs).1
  visits := by
    obtain ⟨last, hlast, htiles⟩ := h.visits
    exact ⟨last, hlast, rfl, htiles⟩

theorem walk_sound (version : UInt8) (buf : Bytes) (fuel : ℕ) (m : μ) (failed : Bool)
    (hpos : pos ≤ stop) : (walk svcs version buf stop fuel pos m failed).1.Sound pos stop := by
  induction fuel generalizing pos m failed with
  | zero =>
    unfold walk
    split <;> exact Trace.sound_empty hpos
  | succ fuel ih =>
    unfold walk
    split
    · exact Trace.sound_empty hpos
    simp only
    split
    · exact Trace.sound_empty hpos
    split
    · -- the header was read, but the body is cut off
      refine ⟨?_, by simp, .nil, pos, hpos, rfl⟩
      intro i hi
      rw [mem_range'_1] at hi
      omega
    next hlen =>
    have hslices := passSlice_slices svcs buf m (byteAt buf pos) (pos + entryOverhead version)
      (entryLen version buf pos)
    have hle := Nat.not_lt.mp hlen
    split
    · have hone := (Trace.sound_empty hle).cons hle hslices
      simpa [Trace.append, Trace.empty] using hone
    · exact (ih _ _ hle).cons hle hslices

variable {version : UInt8} {buf : Bytes} {fuel : ℕ}

theorem walk_tiles {svcs : List (Service μ)} {m m' : μ} {failed : Bool} (hpos : pos ≤ stop)
    (h : (walk svcs version buf stop fuel pos m failed).2 = .returns m' (.ok ())) :
    Tiles pos stop (walk svcs version buf stop fuel pos m failed).1.visits := by
  induction fuel generalizing pos m failed with
  | zero =>
    unfold walk at h ⊢
    split
    · next hstop => exact le_antisymm hpos hstop
    · next hstop => simp [hstop] at h
  | succ fuel ih =>
    unfold walk at h ⊢
    by_cases hstop : stop ≤ pos
    · rw [if_pos hstop]
      exact le_antisymm hpos hstop
    rw [if_neg hstop] at h ⊢
    simp only at h ⊢
    by_cases hbody : stop < pos + entryOverhead version
    · rw [if_pos hbody] at h
      cases h
    rw [if_neg hbody] at h ⊢
    -- an entry that is cut off, or a callback that is not defined, does not return 0
    split at h
    · cases h
    next hlen =>
    rw [if_neg hlen]
    split at h
    · cases h
    exact ⟨rfl, ih (Nat.not_lt.mp hlen) h⟩

theorem walk_finishes (version : UInt8) (buf : Bytes)
    (m : μ) (failed : Bool) (hfuel : stop - pos ≤ fuel) :
    (walk svcs version buf stop fuel pos m failed).2 ≠ .unfinished := by
  induction fuel generalizing pos m failed with
  | zero =>
    unfold walk
    rw [if_pos (by omega)]
    simp
  | succ fuel ih =>
    have hover := entryOverhead_pos version
    unfold walk
    split
    · simp
    simp only
    split
    · simp
    split
    · simp
    split
    · simp
    · -- the position moves by the overhead at least
      exact ih _ _ (by omega)

def WalkEnd.ofLoad : Option (μ × Ret) → WalkEnd μ
  | none => .undefined
  | some (m, ret) => .returns m ret

theorem passSlice_call (buf : Bytes) (m : μ) (persistId : UInt8) (pos len : ℕ) :
    (passSlice svcs buf m persistId pos len).2 =
      dispatchEntry svcs m ⟨persistId, (buf.drop pos).take len⟩ := by
  unfold passSlice dispatchEntry
  cases svcs.find? (·.persistId == persistId) with
  | none => rfl
  | some svc =>
    simp only [Service.callDeserialize]
    cases svc.deserialize <;> rfl

def restFrom (buf : Bytes) (stop pos : ℕ) : Bytes := (buf.take stop).drop pos

theorem length_restFrom (h : stop ≤ buf.length) (pos : ℕ) :
    (restFrom buf stop pos).length = stop - pos := by
  simp [restFrom, h]

theorem byteAt_restFrom (buf : Bytes) {i : ℕ} (h : pos + i < stop) :
    byteAt (restFrom buf stop pos) i = byteAt buf (pos + i) := by
  simp [byteAt, restFrom, h]

theorem entryLen_restFrom (buf : Bytes) (h : pos + entryOverhead version ≤ stop) :
    entryLen version (restFrom buf stop pos) 0 = entryLen version buf pos := by
  have hover : 2 < entryOverhead version := by
    unfold entryOverhead
    split <;> omega
  unfold entryLen
  rw [byteAt_restFrom buf (by omega), byteAt_restFrom buf (by omega)]
  congr 4 <;> omega

theorem takeEntry_restFrom
    (hstop : stop ≤ buf.length) (hbody : pos + entryOverhead version ≤ stop) :
    takeEntry version (restFrom buf stop pos) =
      if stop < pos + entryOverhead version + entryLen version buf pos then none
      else
        some (⟨byteAt buf pos,
            (buf.drop (pos + entryOverhead version)).take (entryLen version buf pos)⟩,
          restFrom buf stop (pos + entryOverhead version + entryLen version buf pos)) := by
  have hover := entryOverhead_pos version
  have hlen := length_restFrom hstop pos
  have hfield := entryLen_restFrom buf hbody
  have hpid : byteAt (restFrom buf stop pos) 0 = byteAt buf pos :=
    byteAt_restFrom buf (by omega)
  have hle : (le16 (byteAt (restFrom buf stop pos) (entryOverhead version - 2))
      (byteAt (restFrom buf stop pos) (entryOverhead version - 1))).toNat =
        entryLen version buf pos := by
    simpa [entryLen] using hfield
  simp only [takeEntry, hle, hlen, hpid]
  by_cases hcut : stop < pos + entryOverhead version + entryLen version buf pos
  · rw [if_pos (by omega), if_pos hcut]
  · rw [if_neg (by omega), if_neg hcut]
    -- the body ends before `stop`, where the payload was cut
    have hbodyBytes : ((restFrom buf stop pos).drop (entryOverhead version)).take
        (entryLen version buf pos) =
          (buf.drop (pos + entryOverhead version)).take (entryLen version buf pos) := by
      rw [restFrom, drop_drop, drop_take, take_take]
      congr 1
      omega
    have hrest : (restFrom buf stop pos).drop (entryOverhead version + entryLen version buf pos) =
        restFrom buf stop (pos + entryOverhead version + entryLen version buf pos) := by
      rw [restFrom, drop_drop, ← Nat.add_assoc]
      rfl
    rw [hbodyBytes, hrest]

theorem walk_eq_loadEntries (version : UInt8)
    (m : μ) (failed : Bool) (hstop : stop ≤ buf.length) (hfuel : stop - pos ≤ fuel) :
    (walk svcs version buf stop fuel pos m failed).2 =
      .ofLoad (loadEntries svcs version fuel (restFrom buf stop pos) m failed) := by
  induction fuel generalizing pos m failed with
  | zero =>
    have hnil : restFrom buf stop pos = [] :=
      length_eq_zero_iff.mp (by rw [length_restFrom hstop]; omega)
    rw [hnil, walk, if_pos (by omega), loadEntries, WalkEnd.ofLoad]
  | succ fuel ih =>
    by_cases hend : stop ≤ pos
    · have hnil : restFrom buf stop pos = [] :=
        length_eq_zero_iff.mp (by rw [length_restFrom hstop]; omega)
      rw [hnil, walk, if_pos hend, loadEntries, WalkEnd.ofLoad]
    have hlen := length_restFrom hstop pos
    obtain ⟨b, rest, hrest⟩ : ∃ b rest, restFrom buf stop pos = b :: rest :=
      exists_cons_of_length_pos (by omega)
    -- the two checks of the source are one `none` of `takeEntry`
    rw [walk, if_neg hend, hrest, loadEntries, ← hrest]
    by_cases hbody : stop < pos + entryOverhead version
    · have hnone : takeEntry version (restFrom buf stop pos) = none := by
        exact if_pos (.inl (by omega))
      simp only [if_pos hbody, hnone, WalkEnd.ofLoad]
    simp only [if_neg hbody, takeEntry_restFrom hstop (Nat.not_lt.mp hbody)]
    by_cases hcut : stop < pos + entryOverhead version + entryLen version buf pos
    · simp only [if_pos hcut, WalkEnd.ofLoad]
    simp only [if_neg hcut, passSlice_call]
    have hover := entryOverhead_pos version
    cases dispatchEntry svcs m ⟨byteAt buf pos,
        (buf.drop (pos + entryOverhead version)).take (entryLen version buf pos)⟩ with
    | none => rfl
    | some r => exact ih r.1 _ (by omega)

theorem openEnvelope_ok {crc : Bytes → UInt16} {blob payload : Bytes}
    (h : openEnvelope crc blob = .ok (version, payload)) :
    hdrSize + payloadLen blob + crcSize = blob.length ∧
      payload = restFrom blob (hdrSize + payloadLen blob) hdrSize := by
  unfold openEnvelope at h
  simp only at h
  split_ifs at h with _ _ _ hlen
  push Not at hlen
  cases h
  exact ⟨hlen, rfl⟩

theorem restFrom_staged {blob : Bytes} (h : stop ≤ blob.length) (old : Bytes)
    (pos : ℕ) : restFrom (staged blob old) stop pos = restFrom blob stop pos := by
  rw [restFrom, staged, take_append_of_le_length h, restFrom]

theorem length_staged (blob old : Bytes) : blob.length ≤ (staged blob old).length := by
  simp [staged]

theorem loadWalk_cases (svcs : List (Service μ)) (m : μ) (tag : TagName) (old : Bytes) :
    (∃ e, loadWalk crc started st svcs m tag old = (.empty, .returns m (.error e)) ∧
        load crc started st svcs m tag = some (m, .error e)) ∨
      ∃ blob version payload, callLoad st tag = .ok blob ∧
        openEnvelope crc blob = .ok (version, payload) ∧
        loadWalk crc started st svcs m tag old =
          walk svcs version (staged blob old) (hdrSize + payloadLen blob) (payloadLen blob) hdrSize
            m false ∧
        load crc started st svcs m tag =
          loadEntries svcs version payload.length payload m false := by
  unfold loadWalk load readEnvelope
  by_cases hstarted : started
  · exact .inl ⟨.ebusy, by simp [hstarted]⟩
  by_cases hinit : st.initialized
  swap
  · exact .inl ⟨.enodev, by simp [hstarted, hinit]⟩
  by_cases htag : st.validTag tag
  swap
  · exact .inl ⟨.einval, by simp [hstarted, hinit, htag]⟩
  simp only [hstarted, hinit, htag, not_true_eq_false, if_false, Bool.false_eq_true]
  cases hload : callLoad st tag with
  | error e => cases e <;> exact .inl ⟨_, rfl, rfl⟩
  | ok blob =>
    cases hopen : openEnvelope crc blob with
    | error e => exact .inl ⟨e, by simp only [hopen, and_self]⟩
    | ok p => exact .inr ⟨blob, p.1, p.2, rfl, hopen, by simp only [hopen], by simp only [hopen]⟩

structure Walked (blob : Bytes) (w : Trace × WalkEnd μ) : Prop where
  sound : w.1.Sound hdrSize (hdrSize + payloadLen blob)
  tiles : ∀ m, w.2 = .returns m (.ok ()) → Tiles hdrSize (hdrSize + payloadLen blob) w.1.visits

/-- A load comes to its end and is the load over the payload, whatever is stored. The walk over the
entries stays between the header and the end of the payload. -/
theorem load_walks_payload (crc : Bytes → UInt16) (started : Bool) (st : State cfg)
    (svcs : List (Service μ)) (m : μ) (tag : TagName) (old : Bytes) :
    (loadWalk crc started st svcs m tag old).2 = .ofLoad (load crc started st svcs m tag) ∧
      (loadWalk crc started st svcs m tag old).2 ≠ .unfinished ∧
      (((loadWalk crc started st svcs m tag old).1 = .empty ∧
          ∀ m', (loadWalk crc started st svcs m tag old).2 ≠ .returns m' (.ok ())) ∨
        ∃ blob, callLoad st tag = .ok blob ∧
          Walked blob (loadWalk crc started st svcs m tag old)) := by
  rcases loadWalk_cases crc started st svcs m tag old with
    ⟨e, hwalk, hload⟩ | ⟨blob, version, payload, hblob, hopen, hwalk, hload⟩
  · rw [hwalk, hload]
    exact ⟨rfl, by simp, .inl ⟨rfl, by simp⟩⟩
  · obtain ⟨hlen, hpayload⟩ := openEnvelope_ok hopen
    have hstop : hdrSize + payloadLen blob ≤ blob.length := by omega
    have hpl : payload.length = payloadLen blob := by
      rw [hpayload, length_restFrom hstop]
      omega
    rw [hwalk, hload, hpl]
    refine ⟨?_, walk_finishes _ _ _ _ _ (by omega), .inr ⟨blob, hblob, ?_⟩⟩
    · rw [walk_eq_loadEntries _ _ _ _ (hstop.trans (length_staged blob old)) (by omega),
        restFrom_staged hstop, ← hpayload]
    · exact ⟨walk_sound _ _ _ _ _ _ (by omega), fun m' h => walk_tiles (by omega) h⟩

end NfcStack.Store
