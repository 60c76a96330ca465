import NfcStack.Lib.CArray

/-!
# Strings that end with a NUL

A string is the bytes of an object up to the first NUL. A comparison leaves the object if there is no
NUL in it and the strings do not differ before its end.
-/

@[ext] structure CString where
  chars : List UInt8
  noNul : 0 ∉ chars
deriving DecidableEq

namespace CString

open List

/-- Whether `strcmp` of an object with these bytes and of a string is 0; `none` if the comparison
leaves the object. -/
def strcmpEq : (object chars : List UInt8) → Option Bool
  | [], _ => none
  | b :: _, [] => some (b == 0)
  | b :: object, c :: chars => if b = c then strcmpEq object chars else some false

def strncpy {n : ℕ} (dst : CArray UInt8 n) (s : CString) (k : ℕ) : CArray UInt8 n :=
  dst.write 0 ((s.chars ++ List.replicate (k - s.chars.length) 0).take k)

def read {n : ℕ} (a : CArray UInt8 n) : List UInt8 := a.toList.takeWhile (· != 0)

def Terminated {n : ℕ} (a : CArray UInt8 n) : Prop := 0 ∈ a.toList

theorem strcmpEq_eq {object : List UInt8} (h : 0 ∈ object) {chars : List UInt8}
    (hchars : 0 ∉ chars) :
    strcmpEq object chars = some (decide (object.takeWhile (· != 0) = chars)) := by
  induction object generalizing chars with
  | nil => cases h
  | cons b object ih =>
    cases chars with
    | nil =>
      by_cases hb : b = 0
      · simp [strcmpEq, hb]
      · simp [strcmpEq, hb]
    | cons c chars =>
      have hc : c ≠ 0 := fun h => hchars (h ▸ mem_cons_self)
      by_cases hbc : b = c
      · subst hbc
        have hrest : 0 ∈ object := (mem_cons.mp h).resolve_left (Ne.symm hc)
        have hword : 0 ∉ chars := fun h => hchars (mem_cons_of_mem b h)
        rw [strcmpEq, ih hrest hword, takeWhile_cons_of_pos (by simpa using hc)]
        simp
      · rw [strcmpEq, if_neg hbc]
        by_cases hb : b = 0
        · simp [hb]
        · simp [hb, hbc]

theorem takeWhile_append_replicate (s : CString) (k : ℕ) :
    (s.chars ++ List.replicate k 0).takeWhile (· != 0) = s.chars := by
  have hchars : ∀ c ∈ s.chars, (c != 0) = true := by
    intro c hc
    rw [bne_iff_ne]
    exact fun h => s.noNul (h ▸ hc)
  have htail : (List.replicate k (0 : UInt8)).takeWhile (· != 0) = [] := by
    cases k with
    | zero => rfl
    | succ k => rfl
  rw [takeWhile_append_of_pos hchars, htail, append_nil]

theorem toList_strncpy {n : ℕ} (dst : CArray UInt8 n) (s : CString) (h : s.chars.length < n) :
    ((strncpy dst s (n - 1)).set (n - 1) 0).toList =
      s.chars ++ List.replicate (n - s.chars.length) 0 := by
  have hlen : (s.chars ++ List.replicate (n - 1 - s.chars.length) (0 : UInt8)).length = n - 1 := by
    rw [length_append, length_replicate]
    omega
  have hsrc : (s.chars ++ List.replicate (n - 1 - s.chars.length) 0).take (n - 1) =
      s.chars ++ List.replicate (n - 1 - s.chars.length) 0 := take_of_length_le (by omega)
  obtain ⟨last, hlast⟩ : ∃ last, dst.toList.drop (n - 1) = [last] := by
    apply length_eq_one_iff.mp
    rw [length_drop, dst.length_toList]
    omega
  have hcopied : (strncpy dst s (n - 1)).toList =
      s.chars ++ List.replicate (n - 1 - s.chars.length) 0 ++ [last] := by
    rw [strncpy, hsrc, CArray.toList_write dst (by omega), take_zero, nil_append,
      Nat.zero_add, hlen, hlast]
  show (strncpy dst s (n - 1)).toList.set (n - 1) 0 = _
  rw [hcopied, set_append_right _ _ hlen.le, hlen, Nat.sub_self, append_assoc,
    show n - s.chars.length = n - 1 - s.chars.length + 1 by omega, replicate_succ']
  rfl

theorem read_strncpy {n : ℕ} (dst : CArray UInt8 n) (s : CString) (h : s.chars.length < n) :
    read ((strncpy dst s (n - 1)).set (n - 1) 0) = s.chars := by
  rw [read, toList_strncpy dst s h, takeWhile_append_replicate]

theorem terminated_strncpy {n : ℕ} (dst : CArray UInt8 n) (s : CString) (h : s.chars.length < n) :
    Terminated ((strncpy dst s (n - 1)).set (n - 1) 0) := by
  rw [Terminated, toList_strncpy dst s h]
  exact mem_append_right _ (mem_replicate.mpr ⟨by omega, rfl⟩)

end CString
