import Mathlib.Data.Finset.Basic
import Mathlib.Data.List.Perm.Basic
import Mathlib.Tactic

/-!
# Tokens that are handed around

Tokens are taken from a pool, passed from place to place and given back. A step of the kind `Moves`
keeps the tokens in use in one place each.
-/

namespace Ledger

open List

variable {ι : Type} [DecidableEq ι]

def Owned (used : Finset ι) (places : List ι) : Prop :=
  ∀ i, places.count i = if i ∈ used then 1 else 0

structure Moves (used : Finset ι) (places taken released : List ι) (used' : Finset ι)
    (places' : List ι) : Prop where
  perm : (taken ++ places).Perm (released ++ places')
  used_eq : used' = (used ∪ taken.toFinset) \ released.toFinset
  fresh : ∀ i ∈ taken, i ∉ used
  nodup : taken.Nodup

variable {used used' : Finset ι} {places places' taken released : List ι}

theorem owned_empty : Owned (∅ : Finset ι) [] := by
  intro i
  simp

theorem Owned.nodup (h : Owned used places) : places.Nodup := by
  rw [nodup_iff_count_le_one]
  intro i
  rw [h i]
  split <;> simp

theorem Owned.mem_iff (h : Owned used places) (i : ι) : i ∈ places ↔ i ∈ used := by
  rw [← count_pos_iff, h i]
  split <;> simp_all

theorem Moves.count (h : Moves used places taken released used' places') (i : ι) :
    taken.count i + places.count i = released.count i + places'.count i := by
  have hcount := h.perm.count_eq i
  rwa [count_append, count_append] at hcount

theorem Owned.moves (ho : Owned used places)
    (h : Moves used places taken released used' places') : Owned used' places' := by
  intro i
  have hcount := h.count i
  rw [ho i] at hcount
  have htaken := nodup_iff_count_le_one.mp h.nodup i
  rw [h.used_eq]
  simp only [Finset.mem_sdiff, Finset.mem_union, mem_toFinset, ← count_pos_iff]
  by_cases hi : i ∈ used
  · -- a token in use is not taken again
    have hzero : taken.count i = 0 := count_eq_zero.mpr fun hmem => h.fresh i hmem hi
    simp only [hi, if_true, true_or, true_and] at hcount ⊢
    split <;> omega
  · simp only [hi, if_false, false_or] at hcount ⊢
    split <;> omega

end Ledger
