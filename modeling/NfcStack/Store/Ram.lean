import NfcStack.Lib.CString
import NfcStack.Lib.Machine
import NfcStack.Lib.SlotTable
import NfcStack.Store.Correct

/-!
# The slots of the RAM backend

`store/nfc_store_ram.c` down to the bytes of its slots. The slots are a finite map from names to blobs,
determined by the saves that succeeded since the last reset.
-/

namespace NfcStack.Store

open List Option CArray

variable {cfg : Config}

structure RamSlot (cfg : Config) where
  tag : CArray UInt8 cfg.maxTagLen
  blob : CArray UInt8 cfg.blobSize
  len : ℕ
  occupied : Bool
deriving DecidableEq

abbrev RamTable (cfg : Config) := CArray (RamSlot cfg) cfg.ramSlots

def RamTable.boot : RamTable cfg := .fill _ ⟨.fill _ 0, .fill _ 0, 0, false⟩

def ramFindTag (tag : CString) : List (RamSlot cfg) → Option (Option ℕ)
  | [] => some none
  | s :: slots =>
    match if s.occupied then CString.strcmpEq s.tag.toList tag.chars else some false with
    | none => none
    | some true => some (some 0)
    | some false => (ramFindTag tag slots).map (Option.map (· + 1))

variable (slots : RamTable cfg)

def ramFindFree : Option ℕ := slots.toList.findIdx? fun s => !s.occupied

def ramReset : RamTable cfg :=
  slots.map fun s => { s with occupied := false, len := 0, tag := s.tag.set 0 0 }

def RamSlot.fill (s : RamSlot cfg) (tag : CString) (blob : Bytes) : RamSlot cfg where
  tag := (CString.strncpy s.tag tag (cfg.maxTagLen - 1)).set (cfg.maxTagLen - 1) 0
  blob := s.blob.write 0 blob
  len := blob.length
  occupied := true

def ramSaveCb (tag : CString) (blob : Bytes) : Option (RamTable cfg × Ret) :=
  if tag.chars.length = 0 ∨ cfg.maxTagLen ≤ tag.chars.length then some (slots, .error .einval)
  else if cfg.blobSize < blob.length then some (slots, .error .enospc)
  else
    (ramFindTag tag slots.toList).bind fun found =>
      match found.or (ramFindFree slots) with
      | none => some (slots, .error .enospc)
      | some i => (slots.get? i).map fun s => (slots.set i (s.fill tag blob), .ok ())

def ramLoadCb (tag : CString) (max : ℕ) : Option (Except Errno Bytes) :=
  (ramFindTag tag slots.toList).bind fun found =>
    match found with
    | none => some (.error .enoent)
    | some i =>
      (slots.get? i).bind fun s =>
        if max < s.len then some (.error .enospc) else (s.blob.read? 0 s.len).map .ok

def RamSlot.entry (s : RamSlot cfg) : Option (TagName × Bytes) :=
  if s.occupied then some (CString.read s.tag, s.blob.slice 0 s.len) else none

def RamTable.entries : SlotTable TagName Bytes cfg.ramSlots :=
  slots.map RamSlot.entry

structure RamSlot.WellFormed (s : RamSlot cfg) : Prop where
  terminated : CString.Terminated s.tag
  len_le : s.len ≤ cfg.blobSize

def RamTable.WellFormed : Prop := ∀ s ∈ slots.toList, s.WellFormed

theorem wellFormed_boot : (RamTable.boot : RamTable cfg).WellFormed := by
  intro s hs
  obtain ⟨-, rfl⟩ := mem_replicate.mp hs
  have hpos := cfg.maxTagLen_range
  exact ⟨mem_replicate.mpr ⟨by omega, rfl⟩, Nat.zero_le _⟩

theorem entries_boot : (RamTable.boot : RamTable cfg).entries = .fill _ none := map_fill _ _

variable {s : RamSlot cfg} {i : ℕ}

theorem RamTable.WellFormed.of_get? {slots : RamTable cfg} (h : slots.WellFormed)
    (hs : slots.get? i = some s) : s.WellFormed :=
  h s (mem_of_getElem? hs)

theorem RamSlot.WellFormed.strcmpEq_eq (h : s.WellFormed) (tag : CString) :
    (if s.occupied then CString.strcmpEq s.tag.toList tag.chars else some false) =
      some (decide (s.entry.map Prod.fst = some tag.chars)) := by
  rw [RamSlot.entry]
  by_cases hocc : s.occupied = true
  · rw [if_pos hocc, if_pos hocc, CString.strcmpEq_eq h.terminated tag.noNul, map_some]
    simp only [some.injEq]
    rfl
  · rw [if_neg hocc, if_neg hocc]
    rfl

theorem ramFindTag_eq {slots : List (RamSlot cfg)} (h : ∀ s ∈ slots, s.WellFormed) (tag : CString) :
    ramFindTag tag slots = some ((slots.map RamSlot.entry).findIdx? fun e =>
      decide (e.map Prod.fst = some tag.chars)) := by
  induction slots with
  | nil => rfl
  | cons s slots ih =>
    have hs := (h s mem_cons_self).strcmpEq_eq tag
    have hrest := ih fun s' hs' => h s' (mem_cons_of_mem s hs')
    rw [map_cons, findIdx?_cons, ramFindTag, hs]
    by_cases hkey : s.entry.map Prod.fst = some tag.chars
    · simp only [hkey, decide_true]
      rfl
    · simp only [hkey, decide_false, hrest]
      rfl

theorem RamTable.WellFormed.ramFindTag_eq {slots : RamTable cfg} (h : slots.WellFormed)
    (tag : CString) : ramFindTag tag slots.toList = some (slots.entries.find tag.chars) :=
  Store.ramFindTag_eq h tag

theorem ramFindFree_eq : ramFindFree slots = slots.entries.free := by
  show _ = (slots.toList.map RamSlot.entry).findIdx? Option.isNone
  rw [findIdx?_map, ramFindFree]
  congr 1
  funext s
  rw [Function.comp_apply, RamSlot.entry]
  cases s.occupied <;> rfl

section

variable {slots slots' : RamTable cfg} {tag : CString} {blob : Bytes}

theorem wellFormed_fill (htag : tag.chars.length < cfg.maxTagLen)
    (hblob : blob.length ≤ cfg.blobSize) : (s.fill tag blob).WellFormed :=
  ⟨CString.terminated_strncpy _ _ htag, hblob⟩

theorem entry_fill (s : RamSlot cfg) (htag : tag.chars.length < cfg.maxTagLen)
    (hblob : blob.length ≤ cfg.blobSize) : (s.fill tag blob).entry = some (tag.chars, blob) := by
  have hname : CString.read (s.fill tag blob).tag = tag.chars := CString.read_strncpy _ _ htag
  have hbytes : (s.fill tag blob).blob.slice 0 blob.length = blob :=
    slice_write_self _ (by omega)
  show some (CString.read (s.fill tag blob).tag, (s.fill tag blob).blob.slice 0 blob.length) = _
  rw [hname, hbytes]

theorem wellFormed_set (h : slots.WellFormed) (hs : s.WellFormed) :
    RamTable.WellFormed (slots.set i s) := by
  intro s' hs'
  rcases mem_or_eq_of_mem_set hs' with hold | rfl
  · exact h s' hold
  · exact hs

def saveErrno (cfg : Config) (tag : TagName) : Errno :=
  if tag.length = 0 ∨ cfg.maxTagLen ≤ tag.length then .einval else .enospc

theorem RamTable.WellFormed.ramSaveCb_cases (h : slots.WellFormed) (tag : CString) (blob : Bytes) :
    (ramSaveCb slots tag blob = some (slots, .error (saveErrno cfg tag.chars)) ∧
      ¬ (0 < tag.chars.length ∧ tag.chars.length < cfg.maxTagLen ∧ blob.length ≤ cfg.blobSize ∧
        (slots.entries.store tag.chars blob).isSome)) ∨
    ∃ slots', ramSaveCb slots tag blob = some (slots', .ok ()) ∧ slots'.WellFormed ∧
      0 < tag.chars.length ∧ tag.chars.length < cfg.maxTagLen ∧ blob.length ≤ cfg.blobSize ∧
      slots.entries.store tag.chars blob = some slots'.entries := by
  by_cases htag : tag.chars.length = 0 ∨ cfg.maxTagLen ≤ tag.chars.length
  · refine .inl ⟨by rw [ramSaveCb, if_pos htag, saveErrno, if_pos htag], ?_⟩
    omega
  have herrno : saveErrno cfg tag.chars = .enospc := if_neg htag
  by_cases hblob : cfg.blobSize < blob.length
  · refine .inl ⟨by rw [ramSaveCb, if_neg htag, if_pos hblob, herrno], ?_⟩
    omega
  have hlt : tag.chars.length < cfg.maxTagLen := by omega
  cases hslot : (slots.entries.find tag.chars).or slots.entries.free with
  | none =>
    refine .inl ⟨?_, ?_⟩
    · rw [ramSaveCb, if_neg htag, if_neg hblob, h.ramFindTag_eq, bind_some, ramFindFree_eq,
        hslot, herrno]
    · rintro ⟨-, -, -, hsome⟩
      rw [SlotTable.store, hslot] at hsome
      cases hsome
  | some i =>
    have hstore : slots.entries.store tag.chars blob =
        some (slots.entries.set i (some (tag.chars, blob))) := by
      rw [SlotTable.store, hslot, map_some]
    obtain ⟨i', hi', hin, -⟩ := SlotTable.store_eq_some hstore
    obtain rfl : i = i' := some.inj (hslot.symm.trans hi')
    obtain ⟨s, hs⟩ := (slots.get?_eq_some_iff i).mpr hin
    refine .inr ⟨slots.set i (s.fill tag blob), ?_, ?_, by omega, hlt, by omega, ?_⟩
    · rw [ramSaveCb, if_neg htag, if_neg hblob, h.ramFindTag_eq, bind_some, ramFindFree_eq, hslot]
      simp [hs]
    · exact wellFormed_set h (wellFormed_fill hlt (by omega))
    · rw [hstore, RamTable.entries, RamTable.entries, CArray.map_set, entry_fill s hlt (by omega)]

theorem RamTable.WellFormed.ramLoadCb_eq (h : slots.WellFormed) (tag : CString) (max : ℕ) :
    ramLoadCb slots tag max = some (match slots.entries.lookup tag.chars with
      | none => .error .enoent
      | some blob => if max < blob.length then .error .enospc else .ok blob) := by
  rw [ramLoadCb, h.ramFindTag_eq, bind_some]
  cases hfind : slots.entries.find tag.chars with
  | none => rw [SlotTable.lookup, hfind, bind_none]
  | some i =>
    obtain ⟨blob, hi⟩ := SlotTable.find_eq_some hfind
    have hlookup := SlotTable.lookup_of_find hfind hi
    rw [RamTable.entries, get?_map] at hi
    obtain ⟨s, hs, hentry⟩ := map_eq_some_iff.mp hi
    have hlen := (h.of_get? hs).len_le
    have hblob : s.blob.slice 0 s.len = blob := by
      rw [RamSlot.entry] at hentry
      split at hentry
      · exact (Prod.mk.inj (some.inj hentry)).2
      · cases hentry
    have hsize : blob.length = s.len := by
      rw [← hblob, length_slice _ (by omega)]
    rw [hlookup]
    simp only [hs, bind_some, hsize]
    split
    · rfl
    · rw [read?_of_le _ (by omega), hblob]
      rfl

theorem wellFormed_ramReset (slots : RamTable cfg) : (ramReset slots).WellFormed := by
  intro s hs
  obtain ⟨s', -, rfl⟩ := mem_map.mp hs
  have hpos := cfg.maxTagLen_range
  refine ⟨?_, Nat.zero_le _⟩
  refine mem_iff_getElem?.mpr ⟨0, ?_⟩
  exact get?_set_self s'.tag (by omega) 0

theorem entries_ramReset (slots : RamTable cfg) : (ramReset slots).entries = .fill _ none := by
  apply CArray.ext
  show (slots.toList.map _).map RamSlot.entry = List.replicate cfg.ramSlots none
  rw [List.map_map, List.eq_replicate_iff, List.length_map, slots.length_toList]
  refine ⟨rfl, ?_⟩
  intro e he
  obtain ⟨s, -, rfl⟩ := List.mem_map.mp he
  rfl

end

/-! ## The slots of the store

The store's own slots hold names and blobs as lists. -/

def Slot.entry (s : Slot) : Option (TagName × Bytes) :=
  if s.occupied then some (s.tag, s.blob) else none

variable (slots : CArray Slot cfg.ramSlots)

theorem findTag_eq (tag : TagName) :
    findTag slots tag = SlotTable.find (slots.map Slot.entry) tag := by
  show _ = (slots.toList.map Slot.entry).findIdx? _
  rw [findIdx?_map, findTag]
  congr 1
  funext s
  rw [Function.comp_apply, Slot.entry]
  cases s.occupied with
  | false => rfl
  | true =>
    simp only [Bool.true_and, if_true, map_some, some.injEq]
    exact Bool.beq_eq_decide_eq s.tag tag

theorem findFree_eq : findFree slots = SlotTable.free (slots.map Slot.entry) := by
  show _ = (slots.toList.map Slot.entry).findIdx? Option.isNone
  rw [findIdx?_map, findFree]
  congr 1
  funext s
  rw [Function.comp_apply, Slot.entry]
  cases s.occupied <;> rfl

variable {st : State cfg}

theorem RamTable.WellFormed.ramSave_eq {slots : RamTable cfg} (h : slots.WellFormed)
    (hst : st.slots.map Slot.entry = slots.entries) (tag : CString) (blob : Bytes) :
    ∃ slots', ramSaveCb slots tag blob = some (slots', (ramSave st tag.chars blob).2) ∧
      slots'.WellFormed ∧ (ramSave st tag.chars blob).1.slots.map Slot.entry = slots'.entries := by
  have hslot : (findTag st.slots tag.chars).or (findFree st.slots) =
      (slots.entries.find tag.chars).or slots.entries.free := by
    rw [findTag_eq, findFree_eq, hst]
  rcases h.ramSaveCb_cases tag blob with ⟨hsave, hnot⟩ | ⟨slots', hsave, hwf, hpos, hlt, hle, hstore⟩
  · have hrefused : ramSave st tag.chars blob = (st, .error (saveErrno cfg tag.chars)) := by
      by_cases htag : tag.chars.length = 0 ∨ cfg.maxTagLen ≤ tag.chars.length
      · rw [ramSave, if_pos htag, saveErrno, if_pos htag]
      by_cases hblob : cfg.blobSize < blob.length
      · rw [ramSave, if_neg htag, if_pos hblob, saveErrno, if_neg htag]
      have hnone : (slots.entries.find tag.chars).or slots.entries.free = none := by
        by_contra hsome
        refine hnot ⟨by omega, by omega, by omega, ?_⟩
        rw [SlotTable.store, isSome_map]
        exact isSome_iff_ne_none.mpr hsome
      rw [ramSave, if_neg htag, if_neg hblob, hslot, hnone, saveErrno, if_neg htag]
    rw [hrefused]
    exact ⟨slots, hsave, h, hst⟩
  · obtain ⟨i, hi, -, hset⟩ := SlotTable.store_eq_some hstore
    obtain ⟨e, herr⟩ | ⟨i', -, -, hi', hstored⟩ := ramSave_cases st tag.chars blob
    · -- a slot was found, so the save of the store is not refused either
      rw [ramSave, if_neg (by omega), if_neg (by omega), hslot, hi] at herr
      cases congrArg Prod.snd herr
    · obtain rfl : i = i' := some.inj (hi.symm.trans (hslot.symm.trans hi'))
      rw [hstored]
      refine ⟨slots', hsave, hwf, ?_⟩
      rw [hset, CArray.map_set, hst]
      rfl

theorem RamTable.WellFormed.ramLoad_eq {slots : RamTable cfg} (h : slots.WellFormed)
    (hst : st.slots.map Slot.entry = slots.entries) (tag : CString) :
    ramLoadCb slots tag cfg.blobSize = some (ramLoad st tag.chars) := by
  rw [h.ramLoadCb_eq, ramLoad, findTag_eq, hst]
  cases hfind : slots.entries.find tag.chars with
  | none => rw [SlotTable.lookup, hfind, bind_none]
  | some i =>
    obtain ⟨blob, hi⟩ := SlotTable.find_eq_some hfind
    have hlookup := SlotTable.lookup_of_find hfind hi
    rw [← hst, get?_map] at hi
    obtain ⟨s, hs, hentry⟩ := map_eq_some_iff.mp hi
    have hblob : s.blob = blob := by
      rw [Slot.entry] at hentry
      split at hentry
      · exact (Prod.mk.inj (some.inj hentry)).2
      · cases hentry
    simp only [hlookup, hs, hblob]

inductive RamCall
  | save (tag : CString) (blob : Bytes)
  | load (tag : CString) (max : ℕ)
  | reset

def ramBackend : Machine (RamTable cfg) RamCall (Except Errno Bytes) where
  step slots
    | .save tag blob => (ramSaveCb slots tag blob).map fun r => (r.1, r.2.map fun _ => [])
    | .load tag max => (ramLoadCb slots tag max).map fun r => (slots, r)
    | .reset => some (ramReset slots, .ok [])

/-- The calls of the store: a save of a blob, or a load into a buffer for a whole one. -/
def byteBackend : Machine (RamTable cfg) (CString × Option Bytes) (Except Errno Bytes) where
  step slots
    | (tag, some blob) => ramBackend.step slots (.save tag blob)
    | (tag, none) => ramBackend.step slots (.load tag cfg.blobSize)

def slotBackend : Machine (State cfg) (CString × Option Bytes) (Except Errno Bytes) where
  step st
    | (tag, some blob) =>
      let r := ramSave st tag.chars blob
      some (r.1, r.2.map fun _ => [])
    | (tag, none) => some (st, ramLoad st tag.chars)

/-- In every run, slots of names and blobs give the answers that the bytes of the slots give. -/
theorem byteBackend_outputs (calls : List (CString × Option Bytes)) :
    byteBackend.outputs (.boot : RamTable cfg) calls = slotBackend.outputs (.boot : State cfg) calls := by
  let Same (slots : RamTable cfg) (st : State cfg) :=
    slots.WellFormed ∧ st.slots.map Slot.entry = slots.entries
  have hboot : Same .boot .boot := ⟨wellFormed_boot, (map_fill _ _).trans entries_boot.symm⟩
  refine Machine.outputs_eq _ _ (fun slots st call h _ => ?_) hboot (Machine.Always.trivial _ _ _)
  obtain ⟨tag, _ | blob⟩ := call
  · simp only [byteBackend, ramBackend, slotBackend, h.1.ramLoad_eq h.2, map_some]
    exact .some _ h
  · obtain ⟨slots', hsave, h'⟩ := h.1.ramSave_eq h.2 tag blob
    simp only [byteBackend, ramBackend, slotBackend, hsave, map_some]
    exact .some _ h'

abbrev Contents := Finmap fun _ : TagName => Bytes

def Contents.after (contents : Contents) : RamCall × Except Errno Bytes → Contents
  | (.save tag blob, .ok _) => contents.insert tag.chars blob
  | (.save _ _, .error _) => contents
  | (.load _ _, _) => contents
  | (.reset, _) => ∅

def Contents.load (contents : Contents) (tag : TagName) (max : ℕ) : Except Errno Bytes :=
  match contents.lookup tag with
  | none => .error .enoent
  | some blob => if max < blob.length then .error .enospc else .ok blob

structure RamTable.Holds (slots : RamTable cfg) (contents : Contents) : Prop where
  wellFormed : slots.WellFormed
  represents : slots.entries.Represents contents

section

variable {slots slots' : RamTable cfg} {contents : Contents} (h : slots.Holds contents)

include h

theorem RamTable.Holds.ramLoadCb_eq (tag : CString) (max : ℕ) :
    ramLoadCb slots tag max = some (contents.load tag.chars max) := by
  rw [h.wellFormed.ramLoadCb_eq, h.represents.lookup_eq]
  rfl

theorem RamTable.Holds.ramSaveCb_spec (tag : CString) (blob : Bytes) :
    ∃ slots' ret, ramSaveCb slots tag blob = some (slots', ret) ∧
      (ret = .ok () ↔ 0 < tag.chars.length ∧ tag.chars.length < cfg.maxTagLen ∧
        blob.length ≤ cfg.blobSize ∧
        (tag.chars ∈ contents ∨ contents.keys.card < cfg.ramSlots)) ∧
      slots'.Holds (contents.after (.save tag blob, ret.map fun _ => [])) := by
  rw [← h.represents.store_isSome tag.chars blob]
  rcases h.wellFormed.ramSaveCb_cases tag blob with
    ⟨hsave, hnot⟩ | ⟨slots', hsave, hwf, hpos, hlt, hle, hstore⟩
  · exact ⟨slots, _, hsave, iff_of_false nofun hnot, h⟩
  · refine ⟨slots', .ok (), hsave, iff_of_true rfl ⟨hpos, hlt, hle, by rw [hstore]; rfl⟩, hwf, ?_⟩
    exact h.represents.store hstore

theorem RamTable.Holds.step (call : RamCall) :
    ∃ slots' out, ramBackend.step slots call = some (slots', out) ∧
      slots'.Holds (contents.after (call, out)) := by
  cases call with
  | save tag blob =>
    obtain ⟨slots', ret, hsave, -, hholds⟩ := h.ramSaveCb_spec tag blob
    exact ⟨slots', _, by simp only [ramBackend, hsave, map_some], hholds⟩
  | load tag max =>
    exact ⟨slots, contents.load tag.chars max,
      by simp only [ramBackend, h.ramLoadCb_eq, map_some], h⟩
  | reset =>
    refine ⟨ramReset slots, .ok [], rfl, wellFormed_ramReset slots, ?_⟩
    rw [entries_ramReset]
    exact SlotTable.represents_fill _

theorem RamTable.Holds.run (calls : List RamCall) :
    ∃ slots' outs, ramBackend.run slots calls = some (slots', outs) ∧
      slots'.Holds ((calls.zip outs).foldl Contents.after contents) := by
  induction calls generalizing slots contents with
  | nil => exact ⟨slots, [], rfl, h⟩
  | cons call calls ih =>
    obtain ⟨slots₁, out, hstep, h₁⟩ := h.step call
    obtain ⟨slots', outs, hrun, h'⟩ := ih h₁
    exact ⟨slots', out :: outs, by rw [Machine.run_cons _ _ hstep, hrun]; rfl, h'⟩

omit h

end

theorem holds_boot : (RamTable.boot : RamTable cfg).Holds ∅ := by
  refine ⟨wellFormed_boot, ?_⟩
  rw [entries_boot]
  exact SlotTable.represents_fill _

/-- After any calls the slots are the finite map that the successful saves since the last reset make,
and a load gives what was saved last under its name. A save fails exactly if the name or the blob does
not fit or there is no slot for a new name; then, and under every other name, what is loaded stays the
same. -/
theorem ramBackend_finiteMap (cfg : Config) (calls : List RamCall) :
    ∃ (slots : RamTable cfg) (outs : List (Except Errno Bytes)) (contents : Contents),
      ramBackend.run RamTable.boot calls = some (slots, outs) ∧
      contents = (calls.zip outs).foldl Contents.after ∅ ∧
      slots.entries.Unique ∧ contents.keys.card ≤ cfg.ramSlots ∧
      (∀ tag max, ramLoadCb slots tag max = some (contents.load tag.chars max)) ∧
      ∀ tag blob, ∃ slots' ret, ramSaveCb slots tag blob = some (slots', ret) ∧
        (ret = .ok () ↔ 0 < tag.chars.length ∧ tag.chars.length < cfg.maxTagLen ∧
          blob.length ≤ cfg.blobSize ∧
          (tag.chars ∈ contents ∨ contents.keys.card < cfg.ramSlots)) ∧
        ∀ other max, ret ≠ .ok () ∨ other ≠ tag →
          ramLoadCb slots' other max = ramLoadCb slots other max := by
  obtain ⟨slots, outs, hrun, h⟩ := (@holds_boot cfg).run calls
  refine ⟨slots, outs, _, hrun, rfl, h.represents.unique, h.represents.card_le, h.ramLoadCb_eq, ?_⟩
  intro tag blob
  obtain ⟨slots', ret, hsave, hok, h'⟩ := h.ramSaveCb_spec tag blob
  refine ⟨slots', ret, hsave, hok, ?_⟩
  intro other max hother
  rw [h'.ramLoadCb_eq, h.ramLoadCb_eq]
  cases ret with
  | error e => rfl
  | ok _ =>
    have hne : other.chars ≠ tag.chars := by
      intro heq
      rcases hother with hret | htag
      · exact hret rfl
      · exact htag (CString.ext heq)
    simp only [Contents.load, Contents.after, Except.map, Finmap.lookup_insert_of_ne _ hne]

end NfcStack.Store
