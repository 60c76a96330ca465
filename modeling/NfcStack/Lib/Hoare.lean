import Mathlib.Tactic

/-!
# Specifications of stateful computations

Rules for computations of type `StateT σ Option α`. `Runs` says that there is an outcome, `Ensures` is
about every outcome, `Sim` compares two computations, and `Settles` is about a bound on the passes.
-/

namespace Hoare

variable {σ α β : Type} {I : σ → Prop}

def Runs (I : σ → Prop) (x : StateT σ Option α) (Q : α → Prop) : Prop :=
  ∀ s, I s → ∃ a s', x s = some (a, s') ∧ Q a ∧ I s'

def Ensures (x : StateT σ Option α) (Q : α → Prop) : Prop :=
  ∀ s a s', x s = some (a, s') → Q a

variable {Q : α → Prop} {a : α}

theorem Runs.pure (h : Q a) : Runs I (Pure.pure a : StateT σ Option α) Q :=
  fun s hs => ⟨a, s, rfl, h, hs⟩

variable {x : StateT σ Option α} {Q' : α → Prop}

theorem Runs.mono (h : Runs I x Q) (hq : ∀ a, Q a → Q' a) : Runs I x Q' := by
  intro s hs
  obtain ⟨a, s', hx, ha, hs'⟩ := h s hs
  exact ⟨a, s', hx, hq a ha, hs'⟩

variable {R : β → Prop} {f : α → StateT σ Option β}

theorem Runs.bind (hx : Runs I x Q) (hf : ∀ a, Q a → Runs I (f a) R) : Runs I (x >>= f) R := by
  intro s hs
  obtain ⟨a, s', hxs, ha, hs'⟩ := hx s hs
  obtain ⟨b, s'', hfs, hb, hs''⟩ := hf a ha s' hs'
  refine ⟨b, s'', ?_, hb, hs''⟩
  show (x s).bind _ = _
  rw [hxs]
  exact hfs

theorem Runs.map {f : α → β} (hx : Runs I x Q) (hf : ∀ a, Q a → R (f a)) : Runs I (f <$> x) R := by
  exact hx.bind fun a ha => .pure (hf a ha)

theorem Runs.of_ensures (h : Runs I x Q) (hx : Ensures x Q') : Runs I x Q' := by
  intro s hs
  obtain ⟨a, s', ha, -, hs'⟩ := h s hs
  exact ⟨a, s', ha, hx s a s' ha, hs'⟩

theorem Ensures.pure (h : Q a) : Ensures (Pure.pure a : StateT σ Option α) Q := by
  intro s b s' hb
  cases hb
  exact h

theorem Ensures.of_none (h : ∀ s, x s = none) (Q : α → Prop) : Ensures x Q := by
  intro s a s' ha
  rw [h s] at ha
  cases ha

theorem Ensures.trivial (x : StateT σ Option α) : Ensures x fun _ => True :=
  fun _ _ _ _ => True.intro

theorem Ensures.mono (h : Ensures x Q) (hq : ∀ a, Q a → Q' a) : Ensures x Q' :=
  fun s a s' ha => hq a (h s a s' ha)

theorem Ensures.bind (hx : Ensures x Q)
    (hf : ∀ a, Q a → Ensures (f a) R) : Ensures (x >>= f) R := by
  intro s b s'' hb
  obtain ⟨⟨a, s'⟩, ha, hfa⟩ := Option.bind_eq_some_iff.mp (show (x s).bind _ = _ from hb)
  exact hf a (hx s a s' ha) s' b s'' hfa

/-- The result of the first part is not looked into: it may have failed. -/
theorem Ensures.bind_except {ε : Type} {x : StateT σ Option (Except ε α)}
    {f : Except ε α → StateT σ Option β} (herror : ∀ e, Ensures (f (.error e)) R)
    (hok : ∀ a, Ensures (f (.ok a)) R) : Ensures (x >>= f) R := by
  refine (Ensures.trivial x).bind fun r _ => ?_
  cases r with
  | error e => exact herror e
  | ok a => exact hok a

theorem Ensures.map {f : α → β}
    (hx : Ensures x Q) (hf : ∀ a, Q a → R (f a)) : Ensures (f <$> x) R := by
  exact hx.bind fun a ha => .pure (hf a ha)

section Fuel

def Settles (x : ℕ → StateT σ Option α) (Q : α → Prop) : Prop :=
  ∀ s, ∃ a s' N, Q a ∧ ∀ n ≥ N, x n s = some (a, s')

/-- A property of computations with a parameter that `pure` has and `bind` keeps, with what is known
of the first value. -/
structure Compositional {ι : Type} (P : ∀ {α : Type}, (ι → StateT σ Option α) → Prop) : Prop where
  pure {α : Type} (a : α) : P fun _ => Pure.pure a
  bindEnsures {α β : Type} {x : ι → StateT σ Option α} {f : ι → α → StateT σ Option β}
    {Q : α → Prop} : P x → (∀ i, Ensures (x i) Q) → (∀ a, Q a → P fun i => f i a) →
      P fun i => x i >>= f i

section

variable {ι : Type} {P : ∀ {α : Type}, (ι → StateT σ Option α) → Prop} (hP : Compositional P)
include hP

theorem Compositional.bind {x : ι → StateT σ Option α} {f : ι → α → StateT σ Option β} (hx : P x)
    (hf : ∀ a, P fun i => f i a) : P fun i => x i >>= f i :=
  hP.bindEnsures hx (fun _ => .trivial _) fun a _ => hf a

theorem Compositional.map {x : ι → StateT σ Option α} (hx : P x) (f : α → β) :
    P fun i => f <$> x i := by
  exact hP.bind hx fun a => hP.pure (f a)

end

theorem Settles.compositional :
    Compositional fun {α} (x : ℕ → StateT σ Option α) => Settles x fun _ => True where
  pure a s := ⟨a, s, 0, trivial, fun _ _ => rfl⟩
  bindEnsures {_ _ x _ _} hx hq hf s := by
    obtain ⟨a, s', N, -, hN⟩ := hx s
    obtain ⟨b, s'', M, -, hM⟩ := hf a (hq N s a s' (hN N le_rfl)) s'
    refine ⟨b, s'', max N M, trivial, fun n hn => ?_⟩
    show (x n s).bind _ = _
    rw [hN n (le_trans (le_max_left N M) hn)]
    exact hM n (le_trans (le_max_right N M) hn)

end Fuel

section

variable {τ : Type} {R : σ → τ → Prop}

def Sim (R : σ → τ → Prop) (x : StateT σ Option α) (y : StateT τ Option α) : Prop :=
  ∀ s t, R s t → Option.Rel (fun p q => p.1 = q.1 ∧ R p.2 q.2) (x s) (y t)

theorem Sim.pure (a : α) : Sim R (Pure.pure a : StateT σ Option α) (Pure.pure a) :=
  fun _ _ h => .some ⟨rfl, h⟩

variable {x : StateT σ Option α} {y : StateT τ Option α}

theorem Sim.of_none (hx : ∀ s, x s = none) (hy : ∀ t, y t = none) : Sim R x y := by
  intro s t _
  rw [hx s, hy t]
  exact .none

theorem Sim.bind {g : α → StateT τ Option β} (hx : Sim R x y) (hf : ∀ a, Sim R (f a) (g a)) :
    Sim R (x >>= f) (y >>= g) := by
  intro s t h
  show Option.Rel _ ((x s).bind _) ((y t).bind _)
  have hst := hx s t h
  generalize x s = xs, y t = yt at hst
  cases hst with
  | none => exact .none
  | @some p q hpq =>
    obtain ⟨a, s'⟩ := p
    obtain ⟨b, t'⟩ := q
    obtain ⟨rfl, h'⟩ := hpq
    exact hf a s' t' h'

theorem Sim.eq_some (h : Sim R x y) {s : σ} {t t' : τ}
    (hR : R s t) (hy : y t = some (a, t')) : ∃ s', x s = some (a, s') ∧ R s' t' := by
  have hst := h s t hR
  rw [hy] at hst
  generalize x s = xs at hst
  cases hst with
  | @some p _ hp =>
    obtain ⟨b, s'⟩ := p
    obtain ⟨rfl, h'⟩ := hp
    exact ⟨s', rfl, h'⟩

end

end Hoare
