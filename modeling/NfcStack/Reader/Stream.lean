import NfcStack.Lib.Hoare
import NfcStack.Reader.Session

/-!
# Streams of answers and logs of exchanges

What a tag may do to a poller is a stream of answers: the poller is deterministic, so a tag that looks at
the frames can do nothing that a stream cannot.
-/

namespace NfcStack.Reader

open List Option Hoare Poll

abbrev Stream := ℕ → Except Errno Bytes

variable {σ : Stream} {rxMax : ℕ} {tx : Bytes} {k : ℕ}

def streamed (σ : Stream) : Session ℕ where
  active := true
  tag := ⟨fun k _ => some (k + 1, σ k)⟩

theorem streamed_total (σ : Stream) : (streamed σ).tag.Total := fun _ _ => ⟨_, rfl⟩

theorem transceive_streamed (σ : Stream) (rxMax : ℕ) (tx : Bytes) (k : ℕ) :
    (streamed σ).transceive rxMax tx k =
      some ((σ k).bind fun rx => if rxMax < rx.length then .error .enospc else .ok rx, k + 1) := by
  simp only [Session.transceive, streamed, if_true, map_some]
  cases σ k with
  | error e => rfl
  | ok rx => rfl

variable {rx : Bytes}

theorem transceive_streamed_of_le (h : σ k = .ok rx) (hlen : rx.length ≤ rxMax) :
    (streamed σ).transceive rxMax tx k = some (.ok rx, k + 1) := by
  rw [transceive_streamed, h, Except.bind, if_neg (Nat.not_lt.mpr hlen)]

abbrev Exchange := Bytes × Except Errno Bytes

section Logs

variable {τ α β : Type} (s : Session τ)

def logged : Session (τ × List Exchange) where
  active := s.active
  tag := ⟨fun st tx => (s.tag.step st.1 tx).map fun r => ((r.1, st.2 ++ [(tx, r.2)]), r.2)⟩

theorem transceive_logged_ok {st st' : τ × List Exchange}
    (h : (logged s).transceive rxMax tx st = some (.ok rx, st')) :
    st'.2 = st.2 ++ [(tx, .ok rx)] ∧ rx.length ≤ rxMax := by
  obtain ⟨hstep, hlen⟩ := Session.step_of_transceive h
  obtain ⟨r, -, hr⟩ := map_eq_some_iff.mp hstep
  obtain ⟨rfl, hx⟩ := Prod.mk.inj hr
  exact ⟨by rw [hx], hlen⟩

variable {x : Poll (τ × List Exchange) α} {f : α → Poll (τ × List Exchange) β}

def Spends (n : ℕ) (x : Poll (τ × List Exchange) α) (Q : α → List Exchange → Prop) : Prop :=
  ∀ st, ∃ a st' seg, x st = some (a, st') ∧ st'.2 = st.2 ++ seg ∧ seg.length ≤ n ∧ Q a seg

variable {n m : ℕ} {Q : α → List Exchange → Prop}

theorem Spends.pure {a : α} (h : Q a []) : Spends n (Pure.pure a : Poll (τ × List Exchange) α) Q :=
  fun st => ⟨a, st, [], rfl, (append_nil _).symm, Nat.zero_le _, h⟩

variable {Q' : α → List Exchange → Prop}

theorem Spends.mono (h : Spends n x Q) (hnm : n ≤ m)
    (hq : ∀ a seg, Q a seg → Q' a seg) : Spends m x Q' := by
  intro st
  obtain ⟨a, st', seg, hx, hseg, hlen, ha⟩ := h st
  exact ⟨a, st', seg, hx, hseg, hlen.trans hnm, hq a seg ha⟩

variable {R : β → List Exchange → Prop}

theorem Spends.bind (hx : Spends n x Q)
    (hf : ∀ a seg, Q a seg → Spends m (f a) fun b seg' => R b (seg ++ seg')) :
    Spends (n + m) (x >>= f) R := by
  intro st
  obtain ⟨a, st₁, seg, ha, hseg, hlen, hQ⟩ := hx st
  obtain ⟨b, st₂, seg', hb, hseg', hlen', hR⟩ := hf a seg hQ st₁
  refine ⟨b, st₂, seg ++ seg', (bind_of_eq ha f).trans hb, ?_, ?_, hR⟩
  · rw [hseg', hseg, append_assoc]
  · rw [length_append]
    omega

theorem spends_transceive {s : Session τ} (hs : s.tag.Total) (rxMax : ℕ) (tx : Bytes) :
    Spends 1 ((logged s).transceive rxMax tx)
      fun r seg => ∀ rx, r = .ok rx → seg = [(tx, .ok rx)] := by
  intro st
  by_cases hactive : s.active = true
  · obtain ⟨⟨t, r⟩, hstep⟩ := hs st.1 tx
    have hrun : (logged s).transceive rxMax tx st =
        some (r.bind fun rx => if rxMax < rx.length then .error .enospc else .ok rx,
          (t, st.2 ++ [(tx, r)])) := by
      simp only [Session.transceive, logged, hactive, if_true, hstep, map_some]
      cases r <;> rfl
    refine ⟨_, _, [(tx, r)], hrun, rfl, le_rfl, fun rx hrx => ?_⟩
    rw [hrx] at hrun
    exact append_cancel_left (transceive_logged_ok s hrun).1
  · refine ⟨.error .enodev, st, [], if_neg hactive, (append_nil _).symm, Nat.zero_le _, ?_⟩
    intro rx hrx
    cases hrx

def Adds (x : Poll (τ × List Exchange) α) (Q : α → List Exchange → Prop) : Prop :=
  ∀ st a st', x st = some (a, st') → ∃ seg, st'.2 = st.2 ++ seg ∧ Q a seg

theorem Adds.pure {a : α} (h : Q a []) : Adds (Pure.pure a : Poll (τ × List Exchange) α) Q := by
  intro st b st' hb
  cases hb
  exact ⟨[], (append_nil _).symm, h⟩

/-- What the rest of a run has to add when `seg` has been exchanged already. -/
abbrev Rest (R : β → List Exchange → Prop) (seg : List Exchange) : β → List Exchange → Prop :=
  fun b seg' => R b (seg ++ seg')

theorem Adds.done {b : β} {seg : List Exchange} (h : R b seg) :
    Adds (Pure.pure b : Poll (τ × List Exchange) β) (Rest R seg) :=
  .pure (by rwa [Rest, append_nil])

theorem Adds.undefined : Adds (Poll.undefined : Poll (τ × List Exchange) α) Q := by
  intro st a st' h
  cases h

theorem Adds.mono (h : Adds x Q) (hq : ∀ a seg, Q a seg → Q' a seg) : Adds x Q' := by
  intro st a st' ha
  obtain ⟨seg, hseg, hQ⟩ := h st a st' ha
  exact ⟨seg, hseg, hq a seg hQ⟩

theorem Adds.bind (hx : Adds x Q)
    (hf : ∀ a seg, Q a seg → Adds (f a) (Rest R seg)) : Adds (x >>= f) R := by
  intro st b st' h
  obtain ⟨a, st₁, ha, hb⟩ := bind_eq_some h
  obtain ⟨seg, hseg, hQ⟩ := hx st a st₁ ha
  obtain ⟨seg', hseg', hR⟩ := hf a seg hQ st₁ b st' hb
  exact ⟨seg ++ seg', by rw [hseg', hseg, append_assoc], hR⟩

theorem Adds.ensures (hx : Adds x Q) {P : α → Prop} (h : Ensures x P) :
    Adds x fun a seg => Q a seg ∧ P a := by
  intro st a st' ha
  obtain ⟨seg, hseg, hQ⟩ := hx st a st' ha
  exact ⟨seg, hseg, hQ, h st a st' ha⟩

theorem Adds.map {f : α → β} (hx : Adds x Q)
    (hf : ∀ a seg, Q a seg → R (f a) seg) : Adds (f <$> x) R := by
  intro st b st' h
  obtain ⟨a, ha, rfl⟩ := map_eq_some h
  obtain ⟨seg, hseg, hQ⟩ := hx st a st' ha
  exact ⟨seg, hseg, hf a seg hQ⟩

theorem adds_transceive {s : Session τ} (hs : s.active = true) (rxMax : ℕ) (tx : Bytes) :
    Adds ((logged s).transceive rxMax tx) fun r seg => ∃ x, seg = [(tx, x)] ∧
      r = x.bind fun rx => if rxMax < rx.length then .error .enospc else .ok rx := by
  intro st a st' h
  simp only [Session.transceive, logged, hs, if_true, Option.map_map] at h
  obtain ⟨⟨t, x⟩, -, hp⟩ := Option.map_eq_some_iff.mp h
  cases x with
  | error e =>
    cases hp
    exact ⟨_, rfl, _, rfl, rfl⟩
  | ok rx =>
    cases hp
    exact ⟨_, rfl, _, rfl, rfl⟩

def Sends (F : Bytes → Prop) (x : Poll (τ × List Exchange) α) : Prop :=
  Adds x fun _ seg => ∀ e ∈ seg, F e.1

variable {F : Bytes → Prop}

structure Talks {σ : Type} (s : Session σ) (F : Bytes → Prop) (P : ∀ {α : Type}, Poll σ α → Prop) :
    Prop where
  pure {α : Type} (a : α) : P (Pure.pure a : Poll σ α)
  bindEnsures {α β : Type} {x : Poll σ α} {f : α → Poll σ β} {Q : α → Prop} :
    P x → Ensures x Q → (∀ a, Q a → P (f a)) → P (x >>= f)
  exchange (rxMax : ℕ) {tx : Bytes} : F tx → P (s.transceive rxMax tx)

variable {P : ∀ {α : Type}, Poll τ α → Prop}

theorem Talks.bind {s : Session τ} (h : Talks s F P)
    {x : Poll τ α} {f : α → Poll τ β} (hx : P x) (hf : ∀ a, P (f a)) : P (x >>= f) :=
  h.bindEnsures hx (.trivial x) fun a _ => hf a

theorem Talks.map {s : Session τ} (h : Talks s F P)
    {x : Poll τ α} (hx : P x) (f : α → β) : P (f <$> x) := by
  exact h.bind hx fun a => h.pure (f a)

theorem talks_sends {s : Session τ} (hs : s.active = true) : Talks (logged s) F (Sends F) where
  pure a := Adds.pure (by simp)
  bindEnsures hx hq hf st b st' h := by
    obtain ⟨a, st₁, ha, hb⟩ := bind_eq_some h
    obtain ⟨seg, hseg, hF⟩ := hx st a st₁ ha
    obtain ⟨seg', hseg', hF'⟩ := hf a (hq st a st₁ ha) st₁ b st' hb
    refine ⟨seg ++ seg', by rw [hseg', hseg, append_assoc], fun e he => ?_⟩
    exact (mem_append.mp he).elim (hF e) (hF' e)
  exchange rxMax tx htx := by
    refine (adds_transceive hs rxMax tx).mono ?_
    rintro r seg ⟨x, rfl, -⟩ e he
    rw [mem_singleton.mp he]
    exact htx

end Logs

end NfcStack.Reader
