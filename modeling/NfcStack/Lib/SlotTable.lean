import Mathlib.Data.Finmap
import NfcStack.Lib.CArray

/-!
# Tables of slots as finite maps

Each slot is free or holds a key with a value. As long as no key is in two slots the table is a finite
map, and storing is insertion, refused exactly for a new key in a full table.
-/

abbrev SlotTable (α β : Type) (n : ℕ) := CArray (Option (α × β)) n

namespace SlotTable

open List Option CArray

variable {α β : Type} {n : ℕ} (t : SlotTable α β n)

def free : Option ℕ := t.toList.findIdx? Option.isNone

def Unique : Prop :=
  ∀ i j x y, t.get? i = some (some x) → t.get? j = some (some y) → x.1 = y.1 → i = j

def names : List α := t.toList.filterMap (Option.map Prod.fst)

variable {t t' : SlotTable α β n} {m : Finmap fun _ : α => β} {a : α} {b : β} {i : ℕ}

theorem free_eq_some (h : t.free = some i) : t.get? i = some none := by
  obtain ⟨hlt, hfree, -⟩ := findIdx?_eq_some_iff_getElem.mp h
  rw [CArray.get?, getElem?_eq_getElem hlt, isNone_iff_eq_none.mp hfree]

theorem mem_names : a ∈ t.names ↔ ∃ i b, t.get? i = some (some (a, b)) := by
  constructor
  · intro h
    obtain ⟨s, hs, hkey⟩ := mem_filterMap.mp h
    obtain ⟨⟨a', b⟩, rfl, rfl⟩ := map_eq_some_iff.mp hkey
    obtain ⟨i, hi⟩ := mem_iff_getElem?.mp hs
    exact ⟨i, b, hi⟩
  · rintro ⟨i, b, hi⟩
    exact mem_filterMap.mpr ⟨some (a, b), mem_of_getElem? hi, rfl⟩

theorem Unique.nodup_names (h : t.Unique) : t.names.Nodup := by
  refine pairwise_filterMap.mpr (pairwise_iff_getElem.mpr ?_)
  intro i j hi hj hij a ha a' ha' heq
  obtain ⟨x, hx, rfl⟩ := map_eq_some_iff.mp ha
  obtain ⟨y, hy, rfl⟩ := map_eq_some_iff.mp ha'
  have hslot : ∀ {k : ℕ} (hk : k < t.toList.length) {z : α × β}, t.toList[k] = some z →
      t.get? k = some (some z) := by
    intro k hk z hz
    rw [CArray.get?, getElem?_eq_getElem hk, hz]
  exact hij.ne (h i j x y (hslot hi hx) (hslot hj hy) heq)

theorem length_names_le : t.names.length ≤ n := by
  have h := length_filterMap_le (Option.map Prod.fst) t.toList
  rwa [t.length_toList] at h

theorem free_eq_none_iff : t.free = none ↔ t.names.length = n := by
  have hcount : t.names.length = t.toList.countP Option.isSome := by
    rw [names, length_filterMap_eq_countP]
    congr 1
    funext s
    exact isSome_map
  have hall : t.names.length = n ↔ ∀ s ∈ t.toList, s.isSome := by
    rw [hcount, ← countP_eq_length, t.length_toList]
  rw [hall, free, findIdx?_eq_none_iff]
  refine forall₂_congr fun s _ => ?_
  cases s <;> simp

variable [DecidableEq α]

def find (t : SlotTable α β n) (a : α) : Option ℕ :=
  t.toList.findIdx? fun s => decide (s.map Prod.fst = some a)

def lookup (t : SlotTable α β n) (a : α) : Option β :=
  (t.find a).bind fun i => (t.get? i).join.map Prod.snd

def store (t : SlotTable α β n) (a : α) (b : β) : Option (SlotTable α β n) :=
  ((t.find a).or t.free).map fun i => t.set i (some (a, b))

theorem find_eq_some (h : t.find a = some i) : ∃ b, t.get? i = some (some (a, b)) := by
  obtain ⟨hlt, hkey, -⟩ := findIdx?_eq_some_iff_getElem.mp h
  obtain ⟨⟨a', b⟩, hs, rfl⟩ := map_eq_some_iff.mp (of_decide_eq_true hkey)
  exact ⟨b, by rw [CArray.get?, getElem?_eq_getElem hlt, hs]⟩

theorem find_eq_none (h : t.find a = none) (i : ℕ) (b : β) : t.get? i ≠ some (some (a, b)) := by
  intro hi
  have hkey := findIdx?_eq_none_iff.mp h _ (mem_of_getElem? hi)
  exact absurd rfl (of_decide_eq_false hkey)

theorem lookup_of_find (hfind : t.find a = some i) (hi : t.get? i = some (some (a, b))) :
    t.lookup a = some b := by
  rw [lookup, hfind, bind_some, hi]
  rfl

theorem slot_cases (h : (t.find a).or t.free = some i) :
    (∃ b, t.get? i = some (some (a, b))) ∨
      t.get? i = some none ∧ ∀ j b, t.get? j ≠ some (some (a, b)) := by
  rcases or_eq_some_iff.mp h with hfind | ⟨hnone, hfree⟩
  · exact .inl (find_eq_some hfind)
  · exact .inr ⟨free_eq_some hfree, find_eq_none hnone⟩

theorem ne_of_slot (hunique : t.Unique) (h : (t.find a).or t.free = some i) {j : ℕ} {x : α × β}
    (hj : t.get? j = some (some x)) (hij : i ≠ j) : x.1 ≠ a := by
  rintro rfl
  rcases slot_cases h with ⟨b, hi⟩ | ⟨-, hnone⟩
  · exact hij (hunique i j _ x hi hj rfl)
  · exact hnone j x.2 hj

theorem store_eq_some (h : t.store a b = some t') :
    ∃ i, (t.find a).or t.free = some i ∧ i < n ∧ t' = t.set i (some (a, b)) := by
  obtain ⟨i, hi, rfl⟩ := map_eq_some_iff.mp h
  refine ⟨i, hi, ?_, rfl⟩
  rcases slot_cases hi with ⟨b', hslot⟩ | ⟨hslot, -⟩
  · exact lt_of_get? hslot
  · exact lt_of_get? hslot

structure Represents (t : SlotTable α β n) (m : Finmap fun _ : α => β) : Prop where
  unique : t.Unique
  lookup_iff : ∀ a b, m.lookup a = some b ↔ ∃ i, t.get? i = some (some (a, b))

theorem represents_fill (n : ℕ) : Represents (CArray.fill n none : SlotTable α β n) ∅ := by
  have hfree : ∀ i x, (CArray.fill n none : SlotTable α β n).get? i ≠ some (some x) := by
    intro i x hi
    rw [get?_fill] at hi
    split at hi <;> cases hi
  refine ⟨fun i _ x _ hi => absurd hi (hfree i x), ?_⟩
  intro a b
  refine iff_of_false (some_ne_none b).symm ?_
  rintro ⟨i, hi⟩
  exact hfree i _ hi

variable (h : Represents t m)

include h

theorem Represents.mem_iff : a ∈ m ↔ a ∈ t.names := by
  rw [Finmap.mem_iff, mem_names, exists_comm]
  exact exists_congr fun b => h.lookup_iff a b

theorem Represents.card_keys : m.keys.card = t.names.length := by
  have hkeys : m.keys = t.names.toFinset := by
    ext a
    rw [Finmap.mem_keys, List.mem_toFinset, h.mem_iff]
  rw [hkeys, List.toFinset_card_of_nodup h.unique.nodup_names]

theorem Represents.card_le : m.keys.card ≤ n := by
  rw [h.card_keys]
  exact length_names_le

theorem Represents.lookup_eq (a : α) : t.lookup a = m.lookup a := by
  cases hfind : t.find a with
  | none =>
    have hnone : m.lookup a = none := by
      rw [eq_none_iff_forall_ne_some]
      intro b hb
      obtain ⟨i, hi⟩ := (h.lookup_iff a b).mp hb
      exact find_eq_none hfind i b hi
    rw [lookup, hfind, hnone]
    rfl
  | some i =>
    obtain ⟨b, hi⟩ := find_eq_some hfind
    rw [lookup_of_find hfind hi, (h.lookup_iff a b).mpr ⟨i, hi⟩]

theorem Represents.store_isSome (a : α) (b : β) :
    (t.store a b).isSome ↔ a ∈ m ∨ m.keys.card < n := by
  have hfull : t.free = none ↔ ¬ m.keys.card < n := by
    have hle := h.card_le
    rw [free_eq_none_iff, ← h.card_keys]
    omega
  rw [store, isSome_map]
  cases hfind : t.find a with
  | some i =>
    obtain ⟨b', hi⟩ := find_eq_some hfind
    have hmem : a ∈ m := h.mem_iff.mpr (mem_names.mpr ⟨i, b', hi⟩)
    exact ⟨fun _ => .inl hmem, fun _ => rfl⟩
  | none =>
    have hnot : a ∉ m := by
      intro hmem
      obtain ⟨i, b', hi⟩ := mem_names.mp (h.mem_iff.mp hmem)
      exact find_eq_none hfind i b' hi
    rw [none_or]
    cases hfree : t.free with
    | none => exact ⟨nofun, fun hor => absurd (hor.resolve_left hnot) (hfull.mp hfree)⟩
    | some j =>
      refine ⟨fun _ => .inr ?_, fun _ => rfl⟩
      by_contra hlt
      rw [hfull.mpr hlt] at hfree
      cases hfree

omit h

theorem get?_set_slot (hunique : t.Unique) (hi : (t.find a).or t.free = some i) (hlt : i < n)
    {j : ℕ} {x : α × β} (hj : (t.set i (some (a, b))).get? j = some (some x)) :
    j = i ∧ x = (a, b) ∨ j ≠ i ∧ t.get? j = some (some x) ∧ x.1 ≠ a := by
  by_cases hij : j = i
  · subst hij
    rw [get?_set_self t hlt] at hj
    exact .inl ⟨rfl, (some.inj (some.inj hj)).symm⟩
  · rw [get?_set_ne t (Ne.symm hij)] at hj
    exact .inr ⟨hij, hj, ne_of_slot hunique hi hj (Ne.symm hij)⟩

theorem Unique.set_slot (h : t.Unique) (hi : (t.find a).or t.free = some i) (hlt : i < n) :
    Unique (t.set i (some (a, b))) := by
  intro j k x y hj hk hxy
  rcases get?_set_slot h hi hlt hj with ⟨rfl, rfl⟩ | ⟨-, hj', hx⟩
  · rcases get?_set_slot h hi hlt hk with ⟨rfl, -⟩ | ⟨-, -, hy⟩
    · rfl
    · exact absurd hxy.symm hy
  · rcases get?_set_slot h hi hlt hk with ⟨rfl, rfl⟩ | ⟨-, hk', -⟩
    · exact absurd hxy hx
    · exact h j k x y hj' hk' hxy

theorem Represents.store (h : Represents t m) (hstore : t.store a b = some t') :
    Represents t' (m.insert a b) := by
  obtain ⟨i, hi, hlt, rfl⟩ := store_eq_some hstore
  have hself : (t.set i (some (a, b))).get? i = some (some (a, b)) :=
    get?_set_self t hlt _
  refine ⟨h.unique.set_slot hi hlt, ?_⟩
  intro a' b'
  by_cases ha : a' = a
  · subst ha
    rw [Finmap.lookup_insert]
    constructor
    · intro hb
      exact ⟨i, by rw [hself, some.inj hb]⟩
    · rintro ⟨j, hj⟩
      rcases get?_set_slot h.unique hi hlt hj with ⟨-, heq⟩ | ⟨-, -, hne⟩
      · rw [(Prod.mk.inj heq).2]
      · exact absurd rfl hne
  · rw [Finmap.lookup_insert_of_ne _ ha, h.lookup_iff]
    constructor
    · -- the slot had the stored key or none
      rintro ⟨j, hj⟩
      refine ⟨j, ?_⟩
      rw [get?_set_ne t ?_, hj]
      rintro rfl
      rcases slot_cases hi with ⟨b₀, hslot⟩ | ⟨hslot, -⟩
      · rw [hslot] at hj
        exact ha (Prod.mk.inj (some.inj (some.inj hj))).1.symm
      · rw [hslot] at hj
        cases hj
    · rintro ⟨j, hj⟩
      rcases get?_set_slot h.unique hi hlt hj with ⟨-, heq⟩ | ⟨-, hj', -⟩
      · exact absurd (Prod.mk.inj heq).1 ha
      · exact ⟨j, hj'⟩

end SlotTable
