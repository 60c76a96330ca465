import Mathlib.Tactic

/-!
# Array objects of fixed size

A `CArray α n` is an object of exactly `n` elements, as a C declaration `T a[n]` makes one. `get?`,
`read?` and `write?` answer `none` outside the object. A two-dimensional array is one object of
`rows * width` elements.
-/

structure CArray (α : Type) (n : ℕ) where
  /-- The elements in index order. -/
  toList : List α
  /-- The object has the declared size. -/
  length_toList : toList.length = n
deriving DecidableEq, Repr

namespace CArray

open List

variable {α : Type} {n : ℕ}

attribute [simp] length_toList

variable {a b : CArray α n}

@[ext] theorem ext (h : a.toList = b.toList) : a = b := by
  cases a
  cases b
  simpa using h

def fill (n : ℕ) (x : α) : CArray α n := ⟨List.replicate n x, by simp⟩

def ofList (n : ℕ) (x : α) (l : List α) : CArray α n :=
  ⟨(l ++ List.replicate n x).take n, by simp⟩

def get (a : CArray α n) (i : Fin n) : α := a.toList.get ⟨i, by simp⟩

def get? (a : CArray α n) (i : ℕ) : Option α := a.toList[i]?

def slice (a : CArray α n) (off len : ℕ) : List α := (a.toList.drop off).take len

def read? (a : CArray α n) (off len : ℕ) : Option (List α) :=
  if off + len ≤ n then some (a.slice off len) else none

def set (a : CArray α n) (i : ℕ) (x : α) : CArray α n := ⟨a.toList.set i x, by simp⟩

def write? (a : CArray α n) (off : ℕ) (src : List α) : Option (CArray α n) :=
  if h : off + src.length ≤ n then
    some ⟨a.toList.take off ++ src ++ a.toList.drop (off + src.length), by simp; omega⟩
  else none

def write (a : CArray α n) (off : ℕ) (src : List α) : CArray α n := (a.write? off src).getD a

def findFrom (a : CArray α n) (p : α → Bool) : (count i : ℕ) → Option (Option ℕ)
  | 0, _ => some none
  | count + 1, i =>
    match a.get? i with
    | none => none
    | some x => if p x then some (some i) else a.findFrom p count (i + 1)

variable (a)

@[simp] theorem toList_set (i : ℕ) (x : α) : (a.set i x).toList = a.toList.set i x := rfl

variable {l : List α}

theorem toList_ofList_of_length (x : α) (h : l.length = n) : (ofList n x l).toList = l := by
  simp [ofList, ← h]

theorem toList_ofList_of_le (x : α) (h : n ≤ l.length) : (ofList n x l).toList = l.take n :=
  take_append_of_le_length h

theorem ofList_toList (x : α) : ofList n x a.toList = a :=
  ext (toList_ofList_of_length x a.length_toList)

theorem get?_eq_some_iff (i : ℕ) : (∃ x, a.get? i = some x) ↔ i < n := by
  constructor
  · rintro ⟨x, hx⟩
    simpa using (List.getElem?_eq_some_iff.mp hx).1
  · intro h
    exact ⟨_, List.getElem?_eq_getElem (by simpa using h)⟩

variable {i : ℕ} {x : α}

theorem lt_of_get? {a : CArray α n} (h : a.get? i = some x) : i < n :=
  (a.get?_eq_some_iff i).mp ⟨x, h⟩

theorem get?_coe (i : Fin n) : a.get? i = some (a.get i) := by
  simp [get?, get]

theorem get_set_self (i : Fin n) (x : α) : (a.set i x).get i = x := by
  simp [get]

theorem get_set_ne {j : Fin n} (h : i ≠ j) (x : α) : (a.set i x).get j = a.get j := by
  simp [get, h]

theorem get?_set_self (h : i < n) (x : α) : (a.set i x).get? i = some x := by
  simp [get?, h]

variable {j : ℕ}

theorem get?_set_ne (h : i ≠ j) (x : α) : (a.set i x).get? j = a.get? j := by
  simp [get?, h]

theorem get?_set_cases {a : CArray α n} {y : α}
    (h : (a.set i x).get? j = some y) : (i = j ∧ x = y) ∨ (i ≠ j ∧ a.get? j = some y) := by
  rcases eq_or_ne i j with rfl | hij
  · have hi := lt_of_get? h
    rw [get?_set_self a hi] at h
    exact .inl ⟨rfl, Option.some.inj h⟩
  · rw [get?_set_ne a hij] at h
    exact .inr ⟨hij, h⟩

variable {off len : ℕ}

theorem read?_of_le (h : off + len ≤ n) : a.read? off len = some (a.slice off len) := if_pos h

theorem read?_eq_some_iff (off len : ℕ) (l : List α) :
    a.read? off len = some l ↔ off + len ≤ n ∧ l = a.slice off len := by
  unfold read?
  split
  · simp_all [eq_comm]
  · simp_all

theorem length_slice (h : off + len ≤ n) : (a.slice off len).length = len := by
  simp [slice]
  omega

theorem length_slice_le (off len : ℕ) : (a.slice off len).length ≤ len := by
  simp [slice]

@[simp] theorem slice_zero (off : ℕ) : a.slice off 0 = [] := by
  simp [slice]

theorem slice_all : a.slice 0 n = a.toList := by
  simp [slice]

theorem getElem?_slice (off len i : ℕ) :
    (a.slice off len)[i]? = if i < len then a.get? (off + i) else none := by
  by_cases h : i < len
  · simp [slice, get?, h]
  · simp [slice, h]

theorem slice_append (off k len : ℕ) :
    a.slice off k ++ a.slice (off + k) len = a.slice off (k + len) := by
  rw [slice, slice, slice, take_add, drop_drop]

variable {k : ℕ}

theorem slice_slice (h : i + k ≤ len) :
    ((a.slice off len).drop i).take k = a.slice (off + i) k := by
  rw [slice, slice, drop_take, take_take, drop_drop, Nat.min_eq_left (by omega)]

theorem slice_congr {a : CArray α n} {m : ℕ} {b : CArray α m} {off' : ℕ}
    (h : ∀ i < len, a.get? (off + i) = b.get? (off' + i)) : a.slice off len = b.slice off' len := by
  apply ext_getElem?
  intro i
  rw [getElem?_slice, getElem?_slice]
  split
  · exact h i ‹_›
  · rfl

/-! Rows of equal length, one after the other. -/

theorem flatMap_range_rows (l : List α) (k rows : ℕ) :
    (List.range rows).flatMap (fun j => (l.drop (j * k)).take k) = l.take (rows * k) := by
  induction rows with
  | zero => simp
  | succ rows ih =>
    rw [range_succ, flatMap_append, ih, flatMap_singleton, Nat.succ_mul, take_add]

theorem slice_rows (k rows : ℕ) :
    (List.range rows).flatMap (fun j => a.slice (j * k) k) = a.slice 0 (rows * k) :=
  flatMap_range_rows a.toList k rows

variable {f : ℕ → List α}

theorem length_flatMap_range {rows : ℕ} (hf : ∀ j < rows, (f j).length = k) :
    ((List.range rows).flatMap f).length = rows * k := by
  induction rows with
  | zero => simp
  | succ rows ih =>
    have hrest := ih fun j hj => hf j (by omega)
    rw [range_succ, flatMap_append, length_append, flatMap_singleton, hrest,
      hf rows (by omega), Nat.succ_mul]

theorem row_flatMap_range {rows : ℕ} (hf : ∀ j < rows, (f j).length = k) (hj : j < rows)
    (rest : List α) : (((List.range rows).flatMap f ++ rest).drop (j * k)).take k = f j := by
  have hsplit : List.range rows = List.range j ++ (j :: List.range' (j + 1) (rows - j - 1)) := by
    have hadd : List.range' 0 j ++ List.range' (0 + j) (rows - j) = _ := range'_append_1
    rw [Nat.zero_add, Nat.add_sub_cancel' hj.le] at hadd
    rw [← range'_succ, Nat.sub_add_cancel (by omega), range_eq_range', range_eq_range', hadd]
  rw [hsplit, flatMap_append, flatMap_cons, append_assoc, append_assoc,
    drop_left' (length_flatMap_range fun i hi => hf i (by omega)), take_left' (hf j hj)]

variable {src : List α}

theorem write?_of_le (h : off + src.length ≤ n) : a.write? off src = some (a.write off src) := by
  simp [write, write?, h]

theorem write?_eq_none_iff (off : ℕ) (src : List α) :
    a.write? off src = none ↔ n < off + src.length := by
  unfold write?
  split <;> simp_all

theorem le_of_write? {a : CArray α n} (h : a.write? off src = some b) : off + src.length ≤ n := by
  by_contra hlt
  rw [(write?_eq_none_iff a off src).mpr (by omega)] at h
  cases h

variable (h : off + src.length ≤ n)

include h

theorem toList_write :
    (a.write off src).toList = a.toList.take off ++ src ++ a.toList.drop (off + src.length) := by
  simp [write, write?, h]

theorem get?_write (i : ℕ) :
    (a.write off src).get? i =
      if off ≤ i ∧ i < off + src.length then src[i - off]? else a.get? i := by
  rw [get?, toList_write a h, get?, append_assoc]
  have hoff : (a.toList.take off).length = off := by simp; omega
  by_cases h1 : i < off
  · rw [getElem?_append_left (by omega)]
    simp [h1, Nat.not_le.mpr h1]
  · rw [getElem?_append_right (by omega), hoff]
    by_cases h2 : i < off + src.length
    · rw [getElem?_append_left (by omega)]
      simp [Nat.not_lt.mp h1, h2]
    · rw [getElem?_append_right (by omega)]
      have : off + src.length + (i - off - src.length) = i := by omega
      simp [this, h2]

theorem slice_write_self : (a.write off src).slice off src.length = src := by
  apply ext_getElem?
  intro i
  rw [getElem?_slice]
  by_cases hi : i < src.length
  · rw [if_pos hi, get?_write a h, if_pos (by omega)]
    congr 1
    omega
  · rw [if_neg hi, getElem?_eq_none (by omega)]

omit h

theorem set_set (i : ℕ) (x y : α) : (a.set i x).set i y = a.set i y := by
  ext
  rw [toList_set, toList_set, toList_set, List.set_set]

theorem write_nil (off : ℕ) : a.write off [] = a := by
  by_cases h : off ≤ n
  · ext
    rw [toList_write a (show off + ([] : List α).length ≤ n from h)]
    simp
  · rw [write, (write?_eq_none_iff a off []).mpr (by simpa using h)]
    rfl

theorem slice_set_of_le (h : k ≤ i) (x : α) : (a.set i x).slice 0 k = a.slice 0 k := by
  rw [slice, slice, toList_set, drop_zero, drop_zero, take_set_of_le h]

theorem slice_set_succ (h : i < n) (x : α) : (a.set i x).slice 0 (i + 1) = a.slice 0 i ++ [x] := by
  have hlen : i < (a.set i x).toList.length := by simpa using h
  rw [← slice_set_of_le a le_rfl x, slice, slice, drop_zero, take_succ_eq_append_getElem hlen]
  simp

theorem slice_write_one (hi : i < n) (x : α) : (a.write i [x]).slice i 1 = [x] :=
  slice_write_self a (by simpa using hi)

theorem slice_write_of_disjoint (h : off + src.length ≤ n) {off' : ℕ}
    (hd : off' + len ≤ off ∨ off + src.length ≤ off') :
    (a.write off src).slice off' len = a.slice off' len := by
  apply slice_congr
  intro i hi
  rw [get?_write a h, if_neg (by omega)]

variable {a}

theorem slice_write_extend (h : k + len ≤ n) (hab : a.slice 0 k = b.slice 0 k) :
    (a.write k (b.slice k len)).slice 0 (k + len) = b.slice 0 (k + len) := by
  have hlen : (b.slice k len).length = len := length_slice b h
  apply slice_congr
  intro i hi
  rw [get?_write a (by rw [hlen]; exact h)]
  split
  · rw [getElem?_slice, if_pos (by omega)]
    congr 1
    omega
  · have := congrArg (·[i]?) hab
    simpa [getElem?_slice, show i < k by omega] using this

variable {z : CArray α n}

/-- An object with the first `k` elements of `b` and the others of `z` has the first `k + len` of `b`
once the next `len` elements have been copied. -/
theorem get?_write_extend (h : k + len ≤ n)
    (hab : ∀ i, a.get? i = if i < k then b.get? i else z.get? i) (i : ℕ) :
    (a.write k (b.slice k len)).get? i = if i < k + len then b.get? i else z.get? i := by
  have hlen : (b.slice k len).length = len := length_slice b h
  rw [get?_write a (by rw [hlen]; exact h), hlen, getElem?_slice, hab]
  by_cases hnew : k ≤ i ∧ i < k + len
  · rw [if_pos hnew, if_pos (by omega), if_pos hnew.2, Nat.add_sub_cancel' hnew.1]
  · rw [if_neg hnew]
    by_cases hold : i < k
    · rw [if_pos hold, if_pos (by omega)]
    · rw [if_neg hold, if_neg (by omega)]

theorem write_slice_of_eq (hk : k ≤ n)
    (h : ∀ i, k ≤ i → a.get? i = z.get? i) : z.write 0 (a.slice 0 k) = a := by
  have hlen : (a.slice 0 k).length = k := length_slice a (by omega)
  apply CArray.ext
  apply ext_getElem?
  intro i
  show (z.write 0 (a.slice 0 k)).get? i = a.get? i
  rw [get?_write z (by omega), getElem?_slice]
  by_cases hi : i < k
  · rw [if_pos (by omega), if_pos (by omega), Nat.zero_add, Nat.sub_zero]
  · rw [if_neg (by omega), h i (Nat.not_lt.mp hi)]

def map {β : Type} (f : α → β) (a : CArray α n) : CArray β n := ⟨a.toList.map f, by simp⟩

variable {β : Type}

theorem get?_map (f : α → β) (a : CArray α n) (i : ℕ) :
    (a.map f).get? i = (a.get? i).map f := getElem?_map

theorem map_set (f : α → β) (a : CArray α n) (i : ℕ) (x : α) :
    (a.set i x).map f = (a.map f).set i (f x) := by
  apply CArray.ext
  exact List.map_set

theorem map_fill (f : α → β) (x : α) : (fill n x).map f = fill n (f x) := by
  apply CArray.ext
  exact map_replicate

def keep (a : CArray α n) (k : ℕ) (x : α) : CArray α n := (fill n x).write 0 (a.slice 0 k)

def ConstFrom (a : CArray α n) (k : ℕ) (x : α) : Prop := ∀ i, k ≤ i → i < n → a.get? i = some x

theorem get?_fill (n : ℕ) (x : α) (i : ℕ) : (fill n x).get? i = if i < n then some x else none := by
  rw [get?, fill, getElem?_replicate]

theorem slice_keep (a : CArray α n) (hk : k ≤ n) (x : α) :
    (a.keep k x).slice 0 k = a.slice 0 k := by
  have hlen : (a.slice 0 k).length = k := length_slice a (by omega)
  have hself := slice_write_self (fill n x) (show 0 + (a.slice 0 k).length ≤ n by omega)
  rwa [hlen] at hself

theorem keep_eq_self (hk : k ≤ n) (h : a.ConstFrom k x) : a.keep k x = a := by
  apply write_slice_of_eq hk
  intro i hi
  rw [get?_fill]
  split
  · exact h i hi ‹_›
  · exact getElem?_eq_none (by simp; omega)

theorem eq_keep (hk : k ≤ n) (h : a.ConstFrom k x)
    (hslice : a.slice 0 k = b.slice 0 k) : a = b.keep k x :=
  calc a = a.keep k x := (keep_eq_self hk h).symm
    _ = b.keep k x := by rw [keep, keep, hslice]

theorem ConstFrom.of_write? (h : a.ConstFrom k x) (hk : off + src.length ≤ k)
    (hw : a.write? off src = some b) : b.ConstFrom k x := by
  have hle := le_of_write? hw
  rw [write?_of_le a hle] at hw
  obtain rfl := Option.some.inj hw
  intro i hi hn
  rw [get?_write a hle, if_neg (by omega)]
  exact h i hi hn

theorem ConstFrom.write (h : a.ConstFrom k x)
    (hle : k + src.length ≤ n) : (a.write k src).ConstFrom (k + src.length) x := by
  have hlater : a.ConstFrom (k + src.length) x := fun i hi hn => h i (by omega) hn
  exact hlater.of_write? le_rfl (write?_of_le a hle)

theorem ConstFrom.write_one (h : a.ConstFrom k x) (hk : k < n)
    (y : α) : (a.write k [y]).ConstFrom (k + 1) x :=
  h.write (by simpa using hk)

theorem constFrom_fill (n : ℕ) (x : α) (k : ℕ) : (fill n x).ConstFrom k x := by
  intro i _ hi
  rw [get?_fill, if_pos hi]

theorem findFrom_isSome (a : CArray α n) (p : α → Bool) (count i : ℕ) (h : i + count ≤ n) :
    ∃ r, a.findFrom p count i = some r := by
  induction count generalizing i with
  | zero => exact ⟨none, rfl⟩
  | succ count ih =>
    obtain ⟨x, hx⟩ := (a.get?_eq_some_iff i).mpr (by omega)
    simp only [findFrom, hx]
    split
    · exact ⟨_, rfl⟩
    · exact ih (i + 1) (by omega)

variable {p : α → Bool}

theorem findFrom_eq_some (a : CArray α n) {count : ℕ}
    (h : a.findFrom p count i = some (some j)) : j < i + count ∧ ∃ x, a.get? j = some x ∧ p x := by
  induction count generalizing i with
  | zero => simp [findFrom] at h
  | succ count ih =>
    simp only [findFrom] at h
    split at h
    · cases h
    · next x hx =>
      split at h
      · obtain rfl : i = j := by simpa using h
        exact ⟨by omega, x, hx, ‹_›⟩
      · obtain ⟨hj, hx⟩ := ih h
        exact ⟨by omega, hx⟩

theorem findFrom_congr (h : ∀ i, (a.get? i).map p = (b.get? i).map p) (count i : ℕ) :
    a.findFrom p count i = b.findFrom p count i := by
  induction count generalizing i with
  | zero => rfl
  | succ count ih =>
    have hi := h i
    simp only [findFrom]
    cases ha : a.get? i <;> cases hb : b.get? i <;> simp_all

end CArray
