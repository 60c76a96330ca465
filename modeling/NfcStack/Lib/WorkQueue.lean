import Mathlib.Tactic

/-!
# Work queues

Items are run one at a time in the order in which they were queued, and wait at most once. The second
part counts the pairs of elements of two sorts in order: lists that differ in it differ in order.
-/

structure WorkQueue (τ : Type) where
  running : Option τ
  queue : List τ
  nodup : queue.Nodup
deriving DecidableEq, Repr

namespace WorkQueue

variable {τ : Type} {q q' : WorkQueue τ} {t : τ}

def idle : WorkQueue τ := ⟨none, [], List.nodup_nil⟩

def start (q : WorkQueue τ) : Option (τ × WorkQueue τ) :=
  match q with
  | ⟨none, t :: rest, h⟩ => some (t, ⟨some t, rest, h.of_cons⟩)
  | _ => none

def finish (q : WorkQueue τ) : WorkQueue τ := { q with running := none }

theorem start_eq_some (h : q.start = some (t, q')) :
    q.running = none ∧ q.queue = t :: q'.queue ∧ q'.running = some t := by
  obtain ⟨_ | r, _ | ⟨u, rest⟩, hq⟩ := q <;> simp only [start, reduceCtorEq] at h
  obtain ⟨rfl, rfl⟩ := Prod.mk.inj (Option.some.inj h)
  exact ⟨rfl, rfl, rfl⟩

theorem queue_eq_nil (hrun : q.running = none) (h : q.start = none) : q.queue = [] := by
  obtain ⟨r, _ | ⟨u, rest⟩, hq⟩ := q
  · rfl
  · obtain rfl : r = none := hrun
    cases h

theorem nodup_queue_append (h : t ∉ q.queue) : (q.queue ++ [t]).Nodup :=
  q.nodup.append (List.nodup_singleton t) (by simpa using h)

variable [DecidableEq τ]

def submit (q : WorkQueue τ) (t : τ) : WorkQueue τ :=
  if h : t ∈ q.queue then q else ⟨q.running, q.queue ++ [t], nodup_queue_append h⟩

def cancel (q : WorkQueue τ) (t : τ) : WorkQueue τ :=
  { q with queue := q.queue.erase t, nodup := q.nodup.erase t }

theorem submit_of_mem (h : t ∈ q.queue) : q.submit t = q := dif_pos h

theorem queue_submit_of_notMem (h : t ∉ q.queue) : (q.submit t).queue = q.queue ++ [t] := by
  rw [submit, dif_neg h]

@[simp] theorem running_submit (q : WorkQueue τ) (t : τ) : (q.submit t).running = q.running := by
  by_cases h : t ∈ q.queue
  · rw [submit_of_mem h]
  · rw [submit, dif_neg h]

theorem mem_queue_submit (q : WorkQueue τ) (t u : τ) :
    u ∈ (q.submit t).queue ↔ u ∈ q.queue ∨ u = t := by
  by_cases h : t ∈ q.queue
  · rw [submit_of_mem h]
    exact ⟨.inl, fun hu => hu.elim id fun heq => heq ▸ h⟩
  · simp [queue_submit_of_notMem h]

end WorkQueue

namespace List

variable {α : Type} (p : α → Bool)

def pairsInOrder : List α → ℕ
  | [] => 0
  | x :: l => (if p x then 0 else l.countP p) + pairsInOrder l

theorem pairsInOrder_append (l m : List α) :
    pairsInOrder p (l ++ m) = pairsInOrder p l + pairsInOrder p m + l.countP (!p ·) * m.countP p := by
  induction l with
  | nil => simp [pairsInOrder]
  | cons x l ih =>
    cases hx : p x with
    | false =>
      simp only [cons_append, pairsInOrder, hx, ih, countP_append, countP_cons, Bool.not_false, if_true,
        Bool.false_eq_true, if_false]
      ring
    | true =>
      simp only [cons_append, pairsInOrder, hx, ih, countP_cons, Bool.not_true, if_true,
        Bool.false_eq_true, if_false]
      ring

theorem pairsInOrder_eq_zero {l : List α} (h : ∀ x ∈ l, p x = false) : pairsInOrder p l = 0 := by
  induction l with
  | nil => rfl
  | cons x l ih =>
    have hzero : l.countP p = 0 :=
      countP_eq_zero.mpr fun y hy => by simp [h y (mem_cons_of_mem x hy)]
    rw [pairsInOrder, hzero, ih fun y hy => h y (mem_cons_of_mem x hy), ite_self]

variable {p}

theorem pairsInOrder_concat_of_not {x : α} (l : List α) (hx : p x = false) :
    pairsInOrder p (l ++ [x]) = pairsInOrder p l := by
  simp [pairsInOrder_append, pairsInOrder, hx]

/-- An element with `p` is added to the end of one list and put before elements without `p` in the
other: it comes to stand before so many of them in fewer pairs. -/
theorem pairsInOrder_insert {front back l : List α} {x : α} (hx : p x)
    (hback : ∀ y ∈ back, p y = false) (hperm : (front ++ back).Perm l) :
    pairsInOrder p (front ++ [x] ++ back) + back.length + pairsInOrder p l =
      pairsInOrder p (l ++ [x]) + pairsInOrder p (front ++ back) := by
  have hnot : back.countP (!p ·) = back.length :=
    countP_eq_length.mpr fun y hy => by simp [hback y hy]
  have hnone : back.countP p = 0 := countP_eq_zero.mpr fun y hy => by simp [hback y hy]
  have hcount := hperm.countP_eq (!p ·)
  rw [countP_append, hnot] at hcount
  simp only [pairsInOrder_append, pairsInOrder_eq_zero p hback, hnone, pairsInOrder, countP_cons, hx,
    countP_nil, if_true, ← hcount]
  ring

variable {A B : Prop} {l m front back : List α} {x : α}

/-- Two lists with the same elements that are equal if `A` holds, and that have a different number of
pairs in order if it does not. -/
structure OrderedIff (p : α → Bool) (A : Prop) (l m : List α) : Prop where
  perm : l.Perm m
  eq_of : A → l = m
  lt_of_not : ¬A → pairsInOrder p l < pairsInOrder p m

theorem OrderedIff.nil (hA : A) : OrderedIff p A ([] : List α) [] :=
  ⟨.nil, fun _ => rfl, fun hn => absurd hA hn⟩

variable (h : OrderedIff p A l m)

include h

theorem OrderedIff.eq_iff : l = m ↔ A := by
  refine ⟨fun heq => ?_, h.eq_of⟩
  by_contra hn
  have hlt := h.lt_of_not hn
  rw [heq] at hlt
  exact lt_irrefl _ hlt

theorem OrderedIff.congr (hAB : A ↔ B) : OrderedIff p B l m :=
  ⟨h.perm, fun hB => h.eq_of (hAB.mpr hB), fun hB => h.lt_of_not fun hA => hB (hAB.mp hA)⟩

theorem OrderedIff.concat (hx : p x = false) :
    OrderedIff p A (l ++ [x]) (m ++ [x]) where
  perm := h.perm.append_right [x]
  eq_of hA := by rw [h.eq_of hA]
  lt_of_not hA := by
    rw [pairsInOrder_concat_of_not _ hx, pairsInOrder_concat_of_not _ hx]
    exact h.lt_of_not hA

omit h

theorem OrderedIff.insert (h : OrderedIff p A (front ++ back) m) (hx : p x)
    (hback : ∀ y ∈ back, p y = false) :
    OrderedIff p (A ∧ back = []) (front ++ [x] ++ back) (m ++ [x]) where
  perm := by
    have hmove : (front ++ [x] ++ back).Perm (front ++ back ++ [x]) := by
      rw [append_assoc, append_assoc]
      exact perm_append_comm.append_left front
    exact hmove.trans (h.perm.append_right [x])
  eq_of hA := by
    obtain ⟨hA, rfl⟩ := hA
    rw [← h.eq_of hA, append_nil, append_nil]
  lt_of_not hA := by
    have hpairs := pairsInOrder_insert hx hback h.perm
    by_cases hold : A
    · -- the lists were equal so far
      have hlen : back.length ≠ 0 := fun hzero => hA ⟨hold, length_eq_zero_iff.mp hzero⟩
      rw [h.eq_of hold] at hpairs
      omega
    · have hlt := h.lt_of_not hold
      omega

end List
