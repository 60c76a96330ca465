import NfcStack.Lib.Machine
import NfcStack.Basic

/-!
# Exchanges with a tag

A poller talks to the tag through `nfc_reader_session_transceive`. The tag is a machine with states of any
type, so it stands for every tag.
-/

namespace NfcStack.Reader

open Option

abbrev Tag (τ : Type) := Machine τ Bytes (Except Errno Bytes)

abbrev Poll (τ : Type) := StateT τ Option

structure Session (τ : Type) where
  active : Bool
  tag : Tag τ

variable {τ : Type}

def Poll.undefined {α : Type} : Poll τ α := fun _ => none

variable {t t' : τ} {α β : Type} {x : Poll τ α} {a : α}

theorem Poll.bind_of_eq (h : x t = some (a, t')) (f : α → Poll τ β) : (x >>= f) t = f a t' := by
  show (x t).bind _ = _
  rw [h]
  rfl

theorem Poll.bind_of_none (h : x t = none) (f : α → Poll τ β) : (x >>= f) t = none := by
  show (x t).bind _ = _
  rw [h]
  rfl

variable {b : β}

theorem Poll.bind_eq_some {f : α → Poll τ β}
    (h : (x >>= f) t = some (b, t')) : ∃ a t₁, x t = some (a, t₁) ∧ f a t₁ = some (b, t') := by
  obtain ⟨⟨a, t₁⟩, ha, hf⟩ := bind_eq_some_iff.mp (show (x t).bind _ = _ from h)
  exact ⟨a, t₁, ha, hf⟩

theorem Poll.map_of_eq (h : x t = some (a, t')) (f : α → β) : (f <$> x) t = some (f a, t') := by
  rw [map_eq_pure_bind, Poll.bind_of_eq h]
  rfl

theorem Poll.map_of_none (h : x t = none) (f : α → β) : (f <$> x) t = none := by
  rw [map_eq_pure_bind, Poll.bind_of_none h]

theorem Poll.map_eq_some {f : α → β}
    (h : (f <$> x) t = some (b, t')) : ∃ a, x t = some (a, t') ∧ f a = b := by
  rw [map_eq_pure_bind] at h
  obtain ⟨a, t₁, ha, hf⟩ := Poll.bind_eq_some h
  cases hf
  exact ⟨a, ha, rfl⟩

/-- `nfc_reader_session_transceive`. An answer that does not fit into the receive buffer of the
caller is an error. -/
def Session.transceive (s : Session τ) (rxMax : ℕ) (tx : Bytes) : Poll τ (Except Errno Bytes) :=
  fun t =>
    if s.active then
      (s.tag.step t tx).map fun r =>
        match r.2 with
        | .error e => (.error e, r.1)
        | .ok rx => (if rxMax < rx.length then .error .enospc else .ok rx, r.1)
    else some (.error .enodev, t)

variable {s : Session τ} {rxMax : ℕ}

theorem Session.transceive_of_step {tx rx : Bytes}
    (hactive : s.active = true) (h : s.tag.step t tx = some (t', .ok rx))
    (hlen : rx.length ≤ rxMax) : s.transceive rxMax tx t = some (.ok rx, t') := by
  simp only [Session.transceive, hactive, h, if_true, map_some, if_neg (Nat.not_lt.mpr hlen)]

theorem Session.step_of_transceive {tx rx : Bytes}
    (h : s.transceive rxMax tx t = some (.ok rx, t')) :
    s.tag.step t tx = some (t', .ok rx) ∧ rx.length ≤ rxMax := by
  unfold Session.transceive at h
  split at h
  · obtain ⟨⟨t₁, r⟩, hstep, hr⟩ := map_eq_some_iff.mp h
    cases r with
    | error e => cases hr
    | ok rx' =>
      by_cases hlen : rxMax < rx'.length
      · simp only [if_pos hlen] at hr
        cases hr
      · simp only [if_neg hlen] at hr
        cases hr
        exact ⟨hstep, Nat.not_lt.mp hlen⟩
  · cases h

end NfcStack.Reader
