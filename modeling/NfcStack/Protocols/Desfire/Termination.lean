import NfcStack.Protocols.Desfire.Capture
import NfcStack.Reader.Stream

/-!
# When the DESFire poller comes to an end

A frame without data uses up no room, so the number of exchanges is bounded exactly for the tags that
send a bounded number of empty frames in a row (`sendChunks_bounded_iff`).
-/

namespace NfcStack.Desfire

open List NfcStack.Reader Hoare Poll

def emptyFrame : Bytes := [0x91, 0xAF]

def receive {τ : Type} (s : Reader.Session τ) (outMax fuel : ℕ) (tx out : Bytes) :
    Poll τ (Except Errno Bytes) := do
  match ← s.transceive maxResponseLen tx with
  | .error e => return .error e
  | .ok rx => collectChunks s outMax fuel rx out

theorem eq_append_of_statusOk {rx : Bytes} {sw2 : UInt8} (h : statusOk rx sw2 = true) :
    rx = Ndef.payload rx ++ [0x91, sw2] := by
  rw [statusOk, Ndef.endsWith, Bool.and_eq_true] at h
  rw [← eq_of_beq h.2, Ndef.payload, take_append_drop]

theorem collectChunks_cases {τ : Type} (s : Reader.Session τ) (outMax : ℕ) (rx out : Bytes) :
    (∃ r, ∀ fuel t, collectChunks s outMax (fuel + 1) rx out t = some (r, t)) ∨
      (∃ data, rx = data ++ emptyFrame ∧ out.length + data.length ≤ outMax) := by
  by_cases hshort : rx.length < 2
  · refine .inl ⟨.error .eio, fun fuel t => ?_⟩
    rw [collectChunks, if_pos hshort]
    rfl
  by_cases hroom : outMax < out.length + (Ndef.payload rx).length
  · refine .inl ⟨.error .enospc, fun fuel t => ?_⟩
    rw [collectChunks, if_neg hshort, if_pos hroom]
    rfl
  by_cases hok : statusOk rx 0x00 = true
  · refine .inl ⟨.ok (out ++ Ndef.payload rx), fun fuel t => ?_⟩
    rw [collectChunks, if_neg hshort, if_neg hroom, if_pos hok]
    rfl
  by_cases hmore : statusOk rx 0xAF = true
  · exact .inr ⟨_, eq_append_of_statusOk hmore, Nat.not_lt.mp hroom⟩
  · refine .inl ⟨.error (statusToErrno rx), fun fuel t => ?_⟩
    rw [collectChunks, if_neg hshort, if_neg hroom, if_neg hok, if_pos hmore]
    rfl

section Streams

variable {σ : Stream} {outMax fuel k : ℕ} {tx out : Bytes}

theorem receive_empty (h : σ k = .ok emptyFrame) (hout : out.length ≤ outMax) :
    receive (streamed σ) outMax (fuel + 1) tx out k =
      receive (streamed σ) outMax fuel additionalFrame out (k + 1) := by
  rw [receive, bind_of_eq (transceive_streamed_of_le h (by decide))]
  have hmore : collectChunks (streamed σ) outMax (fuel + 1) ([] ++ emptyFrame) out =
      receive (streamed σ) outMax fuel additionalFrame (out ++ []) := collectChunks_more hout
  rw [append_nil] at hmore
  exact congrFun hmore (k + 1)

theorem receive_empties {j : ℕ} (h : ∀ i < j, σ (k + i) = .ok emptyFrame)
    (hout : out.length ≤ outMax) (fuel : ℕ) (tx : Bytes) :
    ∃ tx', receive (streamed σ) outMax (fuel + j) tx out k =
      receive (streamed σ) outMax fuel tx' out (k + j) := by
  induction j generalizing k tx with
  | zero => exact ⟨tx, rfl⟩
  | succ j ih =>
    have hrest : ∀ i < j, σ (k + 1 + i) = .ok emptyFrame := by
      intro i hi
      rw [Nat.add_right_comm]
      exact h (i + 1) (by omega)
    obtain ⟨tx', htx'⟩ := ih hrest additionalFrame
    refine ⟨tx', ?_⟩
    have hfirst : σ k = .ok emptyFrame := h 0 (by omega)
    rw [← Nat.add_assoc, receive_empty hfirst hout, htx', Nat.add_right_comm, Nat.add_assoc]

theorem receive_cases (h : σ k ≠ .ok emptyFrame) (outMax : ℕ) (out : Bytes) :
    (∃ r, ∀ fuel tx, receive (streamed σ) outMax (fuel + 1) tx out k = some (r, k + 1)) ∨
      ∃ data, data ≠ [] ∧ out.length + data.length ≤ outMax ∧
        ∀ fuel tx, receive (streamed σ) outMax (fuel + 1) tx out k =
          receive (streamed σ) outMax fuel additionalFrame (out ++ data) (k + 1) := by
  simp only [receive]
  cases hk : σ k with
  | error e =>
    refine .inl ⟨.error e, fun fuel tx => ?_⟩
    rw [bind_of_eq (transceive_streamed σ maxResponseLen tx k), hk]
    rfl
  | ok rx =>
    by_cases hlen : maxResponseLen < rx.length
    · refine .inl ⟨.error .enospc, fun fuel tx => ?_⟩
      rw [bind_of_eq (transceive_streamed σ maxResponseLen tx k), hk, Except.bind, if_pos hlen]
      rfl
    have hx (tx : Bytes) : (streamed σ).transceive maxResponseLen tx k = some (.ok rx, k + 1) :=
      transceive_streamed_of_le hk (Nat.not_lt.mp hlen)
    rcases collectChunks_cases (streamed σ) outMax rx out with ⟨r, hr⟩ | ⟨data, rfl, hroom⟩
    · refine .inl ⟨r, fun fuel tx => ?_⟩
      rw [bind_of_eq (hx tx)]
      exact hr fuel (k + 1)
    · refine .inr ⟨data, ?_, hroom, fun fuel tx => ?_⟩
      · rintro rfl
        exact h hk
      · rw [bind_of_eq (hx tx)]
        exact congrFun (collectChunks_more hroom) (k + 1)

def EmptyRuns (σ : Stream) (run : ℕ) : Prop := ∀ k, ∃ j < run, σ (k + j) ≠ .ok emptyFrame

def EmptiesEnd (σ : Stream) : Prop := ∀ k, ∃ j, σ (k + j) ≠ .ok emptyFrame

theorem EmptyRuns.emptiesEnd {run : ℕ} (h : EmptyRuns σ run) : EmptiesEnd σ := by
  intro k
  obtain ⟨j, -, hj⟩ := h k
  exact ⟨j, hj⟩

/-- If the empty frames end, so does the answer, whatever it says. Every frame with data takes a byte
of the room at least, so there are at most as many runs of empty frames as bytes, and one more. -/
theorem receive_ends (hσ : EmptiesEnd σ) (outMax : ℕ) (tx out : Bytes) (k : ℕ)
    (hout : out.length ≤ outMax) :
    ∃ r k' N, (∀ fuel ≥ N, receive (streamed σ) outMax fuel tx out k = some (r, k')) ∧
      ∀ run, EmptyRuns σ run → k' ≤ k + (outMax - out.length + 1) * run := by
  -- by induction on the room, from one answer with data to the next
  induction hroom : outMax - out.length using Nat.strong_induction_on generalizing tx out k with
  | _ room ih =>
    obtain ⟨j, hj, hmin⟩ : ∃ j, σ (k + j) ≠ .ok emptyFrame ∧ ∀ i < j, σ (k + i) = .ok emptyFrame :=
      ⟨Nat.find (hσ k), Nat.find_spec (hσ k), fun i hi => not_not.mp (Nat.find_min (hσ k) hi)⟩
    have hrun : ∀ run, EmptyRuns σ run → j < run := by
      intro run hr
      obtain ⟨i, hi, hne⟩ := hr k
      by_contra hlt
      exact hne (hmin i (by omega))
    have hskip (fuel : ℕ) := receive_empties hmin hout fuel tx
    rcases receive_cases hj outMax out with ⟨r, hr⟩ | ⟨data, hne, hfit, hnext⟩
    · refine ⟨r, k + j + 1, j + 1, fun fuel hfuel => ?_, fun run hr => ?_⟩
      · obtain ⟨m, rfl⟩ : ∃ m, fuel = m + 1 + j := ⟨fuel - (j + 1), by omega⟩
        obtain ⟨tx', htx'⟩ := hskip (m + 1)
        rw [htx', hr]
      · have := hrun run hr
        have : run ≤ (room + 1) * run := Nat.le_mul_of_pos_left _ (by omega)
        omega
    · have hpos : 0 < data.length := length_pos_iff.mpr hne
      have hlen : (out ++ data).length = out.length + data.length := length_append
      obtain ⟨r, k', N, hr, hbound⟩ := ih (outMax - (out ++ data).length) (by omega)
        additionalFrame (out ++ data) (k + j + 1) (by omega) rfl
      refine ⟨r, k', N + 1 + j, fun fuel hfuel => ?_, fun run hruns => ?_⟩
      · obtain ⟨m, rfl⟩ : ∃ m, fuel = m + 1 + j := ⟨fuel - (j + 1), by omega⟩
        obtain ⟨tx', htx'⟩ := hskip (m + 1)
        rw [htx', hnext, hr m (by omega)]
      · have hk := hbound run hruns
        have := hrun run hruns
        have hle : (outMax - (out ++ data).length + 1) * run ≤ room * run :=
          Nat.mul_le_mul_right _ (by omega)
        rw [Nat.succ_mul]
        omega

theorem settles_sendChunks (hσ : EmptiesEnd σ) (outMax : ℕ) (tx : Bytes) :
    Settles (fun fuel => sendChunks (streamed σ) fuel outMax tx) fun _ => True := by
  intro k
  obtain ⟨r, k', N, hN, -⟩ := receive_ends hσ outMax tx [] k (Nat.zero_le _)
  exact ⟨r, k', N, trivial, hN⟩

theorem lt_of_receive {k' : ℕ} {r : Except Errno Bytes}
    (h : receive (streamed σ) outMax fuel tx out k = some (r, k')) : k < k' := by
  induction fuel generalizing k tx out with
  | zero =>
    rw [receive, bind_of_eq (transceive_streamed σ maxResponseLen tx k)] at h
    cases hk : (σ k).bind fun rx => if maxResponseLen < rx.length then
      (.error .enospc : Except Errno Bytes) else .ok rx with
    | error e =>
      rw [hk] at h
      cases h
      exact Nat.lt_succ_self k
    | ok rx =>
      rw [hk] at h
      cases h
  | succ fuel ih =>
    by_cases hk : σ k = .ok emptyFrame
    · by_cases hout : out.length ≤ outMax
      · rw [receive_empty hk hout] at h
        exact Nat.lt_of_succ_lt (ih h)
      · rw [receive, bind_of_eq (transceive_streamed_of_le hk (by decide))] at h
        rcases collectChunks_cases (streamed σ) outMax emptyFrame out with ⟨r', hr⟩ | ⟨data, -, hle⟩
        · cases (hr fuel (k + 1)).symm.trans h
          exact Nat.lt_succ_self k
        · omega
    · rcases receive_cases hk outMax out with ⟨r', hr⟩ | ⟨data, -, -, hnext⟩
      · cases (hr fuel tx).symm.trans h
        exact Nat.lt_succ_self k
      · rw [hnext] at h
        exact Nat.lt_of_succ_lt (ih h)

theorem lt_of_receive_empties {j k' : ℕ} {r : Except Errno Bytes}
    (h : ∀ i < j, σ (k + i) = .ok emptyFrame) (hout : out.length ≤ outMax)
    (hr : receive (streamed σ) outMax fuel tx out k = some (r, k')) : k + j < k' := by
  induction j generalizing fuel k tx with
  | zero => exact lt_of_receive hr
  | succ j ih =>
    have hfirst : σ k = .ok emptyFrame := h 0 (by omega)
    cases fuel with
    | zero =>
      rw [receive, bind_of_eq (transceive_streamed_of_le hfirst (by decide))] at hr
      cases hr
    | succ fuel =>
      rw [receive_empty hfirst hout] at hr
      have hlt := ih (fun i hi => by
        rw [Nat.add_right_comm]
        exact h (i + 1) (by omega)) hr
      omega

end Streams

def EndsWithin (σ : Stream) (outMax : ℕ) (tx : Bytes) (k n : ℕ) : Prop :=
  ∃ r k' N, (∀ fuel ≥ N, sendChunks (streamed σ) fuel outMax tx k = some (r, k')) ∧ k' ≤ k + n

def ReadReturns (σ : Stream) : Prop :=
  ∀ (cfg : Config) (stale : ℕ → ℕ → Stale) (k : ℕ),
    ∃ r k' N, ∀ fuel ≥ N, pollerRead (streamed σ) cfg fuel stale k = some (r, k')

theorem EmptiesEnd.exchanging {σ : Stream} (h : EmptiesEnd σ) :
    Exchanging (streamed σ) fun {α} (x : ℕ → Poll ℕ α) => Settles x fun _ => True where
  toCompositional := Settles.compositional
  exchange rxMax tx k := ⟨_, _, 0, trivial, fun _ _ => transceive_streamed σ rxMax tx k⟩
  answer := settles_sendChunks h

theorem EmptiesEnd.readReturns {σ : Stream} (h : EmptiesEnd σ) : ReadReturns σ := by
  intro cfg stale k
  obtain ⟨r, k', N, -, hN⟩ := h.exchanging.pollerRead cfg stale k
  exact ⟨r, k', N, hN⟩

theorem EmptyRuns.endsWithin {σ : Stream} {run : ℕ} (h : EmptyRuns σ run) (outMax : ℕ)
    (tx : Bytes) (k : ℕ) : EndsWithin σ outMax tx k ((outMax + 1) * run) := by
  obtain ⟨r, k', N, hN, hbound⟩ := receive_ends h.emptiesEnd outMax tx [] k (Nat.zero_le _)
  exact ⟨r, k', N, hN, hbound run h⟩

theorem sendChunks_bounded_iff (σ : Stream) :
    ((∃ f : ℕ → ℕ, ∀ outMax tx k, EndsWithin σ outMax tx k (f outMax)) ∧ ReadReturns σ ↔
        ∃ run, EmptyRuns σ run) ∧
      ∀ run, EmptyRuns σ run → ∀ outMax tx k, EndsWithin σ outMax tx k ((outMax + 1) * run) := by
  refine ⟨⟨?_, ?_⟩, fun run h => h.endsWithin⟩
  · rintro ⟨⟨f, hf⟩, -⟩
    -- a longer run than is allowed without room would take too many exchanges
    refine ⟨f 0 + 1, fun k => ?_⟩
    by_contra hrun
    push Not at hrun
    obtain ⟨r, k', N, hN, hle⟩ := hf 0 additionalFrame k
    have hlt := lt_of_receive_empties hrun (length_nil.le) (hN N le_rfl)
    omega
  · rintro ⟨run, h⟩
    exact ⟨⟨fun outMax => (outMax + 1) * run, h.endsWithin⟩, h.emptiesEnd.readReturns⟩

def endlessStream : Stream := fun k =>
  if k = 0 then .ok [0x90, 0x00] else if k = 1 then .ok [0x91, 0x00] else .ok emptyFrame

theorem endlessStream_diverges :
    (∀ fuel, sendChunks (streamed endlessStream) fuel 28 [0x90, 0x60, 0x00, 0x00, 0x00] 2 = none) ∧
      ∀ fuel, pollerRead (streamed endlessStream) .default fuel noStale 0 = none := by
  have hversion : ∀ fuel,
      sendChunks (streamed endlessStream) fuel 28 [0x90, 0x60, 0x00, 0x00, 0x00] 2 = none := by
    intro fuel
    rw [Option.eq_none_iff_forall_ne_some]
    rintro ⟨r, k'⟩ hr
    have hempty : ∀ i < k', endlessStream (2 + i) = .ok emptyFrame := by
      intro i _
      rw [endlessStream, if_neg (by omega), if_neg (by omega)]
    have hlt := lt_of_receive_empties hempty (Nat.zero_le _) hr
    omega
  refine ⟨hversion, fun fuel => ?_⟩
  have hselect : pollerSelect (streamed endlessStream) 0 = some (.ok (), 1) := by decide
  have hkey : (streamed endlessStream).transceive maxResponseLen
      [0x90, 0x64, 0x00, 0x00, 0x01, 0x00] 1 = some (.ok [0x91, 0x00], 2) := by decide
  have hpicc : pollerReadPicc (streamed endlessStream) .default fuel 0 = none := by
    rw [pollerReadPicc, bind_of_eq hselect]
    dsimp only
    rw [bind_of_eq hkey]
    exact bind_of_none (hversion fuel) _
  exact bind_of_none hpicc _

end NfcStack.Desfire
