import NfcStack.Lib.Machine
import NfcStack.Protocols.Aliro.Listener

/-!
# The order of an Aliro session

The listener and the work queue in any interleaving. A reset of the session clears the in-flight flag
but leaves the work item in the queue.
-/

namespace NfcStack.Aliro

open List

variable {cfg : Config}

def Received (ps : List (Apdu → Prop)) (log : List Apdu) : Prop :=
  ∃ cmds, cmds.Sublist log ∧ List.Forall₂ (fun p cmd => p cmd) ps cmds

variable {ps : List (Apdu → Prop)} {log : List Apdu}

theorem Received.append (h : Received ps log) (later : List Apdu) : Received ps (log ++ later) := by
  obtain ⟨cmds, hsub, hps⟩ := h
  exact ⟨cmds, hsub.trans (sublist_append_left log later), hps⟩

theorem Received.snoc (h : Received ps log)
    {p : Apdu → Prop} {cmd : Apdu} (hp : p cmd) : Received (ps ++ [p]) (log ++ [cmd]) := by
  obtain ⟨cmds, hsub, hps⟩ := h
  exact ⟨cmds ++ [cmd], hsub.append (.refl _), rel_append hps (.cons hp .nil)⟩

def IsAuth0 (cmd : Apdu) : Prop := cmd.cla = 0x80 ∧ cmd.ins = 0x80

def IsAuth1 (cmd : Apdu) : Prop :=
  cmd.cla = 0x80 ∧ cmd.ins = 0x81 ∧ cmd.data.take signatureSize = List.replicate signatureSize 0x44

def IsExchange (cmd : Apdu) : Prop :=
  cmd.cla = 0x80 ∧ cmd.ins = 0x82 ∧
    cmd.data.take exchangeDataSize = List.replicate exchangeDataSize 0x66

inductive Event
  | select (aid : Bytes)
  | apdu (cmd : Apdu)
  | deselect
  | fieldOff
  | work
deriving DecidableEq, Repr

/-- The listener, the commands that it received since the most recent SELECT, and the last of them
that it has not answered yet. -/
structure Run (cfg : Config) where
  st : State cfg
  log : List Apdu
  unanswered : Option Apdu
deriving DecidableEq

def Run.start (st : State cfg) : Run cfg := ⟨st, [], none⟩

def interleaving : Machine (Run cfg) Event (Option Bytes) where
  step s
    | .select aid =>
      let r := onSelect s.st aid
      some (⟨r.1, [], none⟩, some r.2)
    | .apdu cmd =>
      let r := onApdu s.st cmd
      some (⟨r.1, s.log ++ [cmd], if r.2.isNone then some cmd else s.unanswered⟩, r.2)
    | .deselect | .fieldOff => some ({ s with st := endSession s.st }, none)
    | .work =>
      let r := runWork s.st
      some (⟨r.1, s.log, if r.2.isSome then none else s.unanswered⟩, r.2)

structure Run.InOrder (s : Run cfg) : Prop where
  auth1 : s.st.session.phase = .awaitAuth1 → Received [IsAuth0] s.log
  exchange : s.st.session.phase = .awaitExchange → Received [IsAuth0, IsAuth1] s.log
  done : s.st.session.phase = .done → Received [IsAuth0, IsAuth1, IsExchange] s.log

/-- The state after a step is in order, and a response of the crypto handler is for a command that
was received since the most recent SELECT. -/
def Orderly (s : Run cfg) (e : Event) (out : Option (Run cfg × Option Bytes)) : Prop :=
  ∀ s' rsp, out = some (s', rsp) →
    s'.InOrder ∧ (e = .work → rsp.isSome = true → ∃ cmd ∈ s.log, s.unanswered = some cmd)

def Unqueued (s : Run cfg) (e : Event) : Prop :=
  match e with
  | .select _ => s.st.workPending = false
  | _ => True

instance instDecidableUnqueued (s : Run cfg) : (e : Event) → Decidable (Unqueued s e)
  | .select _ => inferInstanceAs (Decidable (_ = _))
  | .apdu _ | .deselect | .fieldOff | .work => .isTrue trivial

structure Run.Inv (s : Run cfg) : Prop where
  order : s.InOrder
  /-- What was kept of AUTH1 and of EXCHANGE was received in its turn. -/
  sig : s.st.session.auth1Sig.toList = List.replicate signatureSize 0x44 →
    Received [IsAuth0, IsAuth1] s.log
  data : s.st.session.exchangeData.toList = List.replicate exchangeDataSize 0x66 →
    Received [IsAuth0, IsAuth1, IsExchange] s.log
  /-- The work item was submitted in this session. -/
  pending : s.st.workPending = true → ∃ cmd ∈ s.log, s.unanswered = some cmd
  auth0 : s.st.workPending = true → s.st.session.phase = .awaitAuth0 → Received [IsAuth0] s.log

variable {s : Run cfg}

theorem InOrder.of_phase (h₁ : s.st.session.phase ≠ .awaitAuth1)
    (h₂ : s.st.session.phase ≠ .awaitExchange) (h₃ : s.st.session.phase ≠ .done) : s.InOrder :=
  ⟨fun h => absurd h h₁, fun h => absurd h h₂, fun h => absurd h h₃⟩

theorem reset_sig : Session.reset.auth1Sig.toList ≠ List.replicate signatureSize 0x44 := by
  decide

theorem reset_data : Session.reset.exchangeData.toList ≠ List.replicate exchangeDataSize 0x66 := by
  decide

inductive Handled (st : State cfg) (cmd : Apdu) : State cfg × Option Bytes → Prop
  | answered (sw : Bytes) : Handled st cmd (st, some sw)
  | refused (sw : Bytes) : Handled st cmd (refuse st sw)
  | auth0 : IsAuth0 cmd → st.session.phase = .awaitAuth0 → Handled st cmd (submit st)
  | auth1 : cmd.cla = 0x80 → cmd.ins = 0x81 → st.session.phase = .awaitAuth1 →
      signatureSize ≤ cmd.lc →
      Handled st cmd
        (submit { st with session := { st.session with auth1Sig := .ofList _ 0 cmd.data } })
  | auth1Short : st.session.phase = .awaitAuth1 → Handled st cmd (submit st)
  | exchange : cmd.cla = 0x80 → cmd.ins = 0x82 → st.session.phase = .awaitExchange →
      exchangeDataSize ≤ cmd.lc →
      Handled st cmd
        (submit { st with session := { st.session with
          exchangeData := .ofList _ 0 cmd.data
          exchangeDataLen := exchangeDataSize } })

theorem onApdu_handled (st : State cfg) (cmd : Apdu) : Handled st cmd (onApdu st cmd) := by
  unfold onApdu
  split
  · exact .answered _
  split
  · exact .refused _
  next hcla =>
  have hcla := not_not.mp hcla
  split
  · exact .refused _
  split
  · next h => exact .auth0 ⟨hcla, h.1⟩ h.2
  split
  · next hins =>
    unfold auth1
    split
    · exact .refused _
    next hphase =>
    split
    · next hlc => exact .auth1 hcla hins (not_not.mp hphase) hlc
    · exact .auth1Short (not_not.mp hphase)
  split
  · next hins =>
    unfold exchange
    split
    · exact .refused _
    next hphase =>
    split
    · exact .refused _
    · next hlc => exact .exchange hcla hins (not_not.mp hphase) (Nat.not_lt.mp hlc)
  · exact .refused _

theorem Run.InOrder.append {s' : Run cfg} (h : s.InOrder)
    (hphase : s'.st.session.phase = s.st.session.phase) {later : List Apdu}
    (hlog : s'.log = s.log ++ later) : s'.InOrder := by
  refine ⟨?_, ?_, ?_⟩ <;> rw [hphase, hlog]
  · exact fun hp => (h.auth1 hp).append later
  · exact fun hp => (h.exchange hp).append later
  · exact fun hp => (h.done hp).append later

theorem Run.Inv.apdu (h : s.Inv) (cmd : Apdu) {r : State cfg × Option Bytes}
    (hr : Handled s.st cmd r) :
    Run.Inv ⟨r.1, s.log ++ [cmd], if r.2.isNone then some cmd else s.unanswered⟩ := by
  have hmem : cmd ∈ s.log ++ [cmd] := by simp
  -- a response from the listener itself leaves the queue as it is
  have hpending : s.st.workPending = true →
      ∃ c ∈ s.log ++ [cmd], s.unanswered = some c := by
    intro hp
    obtain ⟨c, hc, hu⟩ := h.pending hp
    exact ⟨c, mem_append_left _ hc, hu⟩
  cases hr with
  | answered sw =>
    exact ⟨h.order.append rfl rfl, fun hs => (h.sig hs).append _, fun hd => (h.data hd).append _,
      hpending, fun hp hphase => (h.auth0 hp hphase).append _⟩
  | refused sw =>
    exact ⟨InOrder.of_phase (by simp [refuse]) (by simp [refuse]) (by simp [refuse]),
      fun hs => (h.sig hs).append _, fun hd => (h.data hd).append _, hpending,
      fun _ hphase => by simp [refuse] at hphase⟩
  | auth0 hcmd hphase =>
    have hauth0 : Received [IsAuth0] (s.log ++ [cmd]) :=
      Received.snoc ⟨[], nil_sublist _, .nil⟩ hcmd
    exact ⟨h.order.append rfl rfl, fun hs => (h.sig hs).append _, fun hd => (h.data hd).append _,
      fun _ => ⟨cmd, hmem, rfl⟩, fun _ _ => hauth0⟩
  | auth1 hcla hins hphase hlc =>
    refine ⟨h.order.append rfl rfl, ?_, fun hd => (h.data hd).append _,
      fun _ => ⟨cmd, hmem, rfl⟩, fun _ hp => ?_⟩
    · -- the phase says that AUTH0 was there before
      intro hsig
      have htake := CArray.toList_ofList_of_le (0 : UInt8) hlc
      exact (h.order.auth1 hphase).snoc ⟨hcla, hins, htake.symm.trans hsig⟩
    · cases hphase.symm.trans hp
  | auth1Short hphase =>
    refine ⟨h.order.append rfl rfl, fun hs => (h.sig hs).append _,
      fun hd => (h.data hd).append _, fun _ => ⟨cmd, hmem, rfl⟩, fun _ hp => ?_⟩
    cases hphase.symm.trans hp
  | exchange hcla hins hphase hlc =>
    refine ⟨h.order.append rfl rfl, fun hs => (h.sig hs).append _, ?_,
      fun _ => ⟨cmd, hmem, rfl⟩, fun _ hp => ?_⟩
    · intro hdata
      have htake := CArray.toList_ofList_of_le (0 : UInt8) hlc
      exact (h.order.exchange hphase).snoc ⟨hcla, hins, htake.symm.trans hdata⟩
    · cases hphase.symm.trans hp

theorem Run.Inv.finish (h : s.Inv) (phase : Phase) (rsp : Bytes)
    (horder : Run.InOrder ⟨{ s.st with
      session := (s.st.session.finish phase rsp).1, workPending := false }, s.log, none⟩) :
    Run.Inv ⟨{ s.st with
      session := (s.st.session.finish phase rsp).1, workPending := false }, s.log, none⟩ :=
  ⟨horder, h.sig, h.data, nofun, nofun⟩

theorem Run.Inv.cryptoHandler (h : s.Inv) (hp : s.st.workPending = true) :
    Run.Inv ⟨{ s.st with
      session := (cryptoHandler cfg s.st.session).1, workPending := false }, s.log, none⟩ := by
  have herror : ∀ rsp, Run.Inv ⟨{ s.st with
      session := (s.st.session.finish .error rsp).1, workPending := false }, s.log, none⟩ := by
    intro rsp
    exact h.finish _ _ (InOrder.of_phase (by simp [Session.finish]) (by simp [Session.finish])
      (by simp [Session.finish]))
  unfold Aliro.cryptoHandler
  split
  · -- AUTH0 keeps no data: that it was received follows from the queue
    next hphase =>
    split
    · exact herror _
    · exact h.finish _ _ ⟨fun _ => h.auth0 hp hphase, nofun, nofun⟩
  · split
    · exact herror _
    split
    · exact herror _
    next hsig =>
    exact h.finish _ _ ⟨nofun, fun _ => h.sig (not_not.mp hsig), nofun⟩
  · split
    · exact herror _
    split
    · exact herror _
    next hdata =>
    push Not at hdata
    exact h.finish _ _ ⟨nofun, nofun, fun _ => h.data hdata.2⟩
  · exact herror _

theorem Run.Inv.endSession (h : s.Inv) : Run.Inv { s with st := endSession s.st } where
  order := InOrder.of_phase (by simp [Aliro.endSession, Session.reset])
    (by simp [Aliro.endSession, Session.reset]) (by simp [Aliro.endSession, Session.reset])
  sig hs := absurd hs reset_sig
  data hd := absurd hd reset_data
  pending := h.pending
  auth0 _ hphase := by cases hphase

theorem inv_start (st : State cfg) (hsession : st.session = .reset)
    (hpending : st.workPending = false) : (Run.start st).Inv := by
  have hphase : st.session.phase = .idle := by rw [hsession]; rfl
  refine ⟨InOrder.of_phase ?_ ?_ ?_, ?_, ?_, ?_, ?_⟩
  · simp [Run.start, hphase]
  · simp [Run.start, hphase]
  · simp [Run.start, hphase]
  · intro hs
    exact absurd (hsession ▸ hs) reset_sig
  · intro hd
    exact absurd (hsession ▸ hd) reset_data
  · intro hp
    cases hpending.symm.trans hp
  · intro hp
    cases hpending.symm.trans hp

theorem inv_select (st : State cfg) (aid : Bytes) (hpending : st.workPending = false) :
    Run.Inv ⟨(onSelect st aid).1, [], none⟩ := by
  unfold onSelect
  split
  · refine ⟨InOrder.of_phase (by simp) (by simp) (by simp), ?_, ?_, ?_, ?_⟩
    · exact fun hs => absurd hs reset_sig
    · exact fun hd => absurd hd reset_data
    · intro hp
      cases hpending.symm.trans hp
    · intro hp
      cases hpending.symm.trans hp
  split
  · exact inv_start { st with session := .reset } rfl hpending
  · exact inv_start { st with session := .reset } rfl hpending

theorem Run.Inv.step {s' : Run cfg} {e : Event} {rsp : Option Bytes} (h : s.Inv)
    (hq : Unqueued s e) (hstep : interleaving.step s e = some (s', rsp)) :
    s'.Inv ∧ (e = .work → rsp.isSome = true → ∃ cmd ∈ s.log, s.unanswered = some cmd) := by
  cases e with
  | select aid =>
    cases hstep
    exact ⟨inv_select s.st aid hq, by simp⟩
  | apdu cmd =>
    cases hstep
    exact ⟨h.apdu cmd (onApdu_handled s.st cmd), by simp⟩
  | deselect =>
    cases hstep
    exact ⟨h.endSession, by simp⟩
  | fieldOff =>
    cases hstep
    exact ⟨h.endSession, by simp⟩
  | work =>
    -- the item runs only if it is queued
    cases hstep
    by_cases hp : s.st.workPending = true
    · simp only [runWork, if_pos hp]
      exact ⟨h.cryptoHandler hp, fun _ _ => h.pending hp⟩
    · simp only [runWork, if_neg hp]
      exact ⟨h, by simp⟩

/-- As long as no SELECT finds the work item queued, the exchange goes in order, from a listener
with any credential. -/
theorem session_in_order (model : Option (Data cfg)) {es : List Event}
    (h : interleaving.Always (fun s e _ => Unqueued s e) (.start (listenerInit model)) es) :
    interleaving.Always Orderly (.start (listenerInit model)) es := by
  refine Machine.Always.imp interleaving (I := Run.Inv) ?_ ?_ (inv_start _ rfl rfl) h
  · intro s e hs hq s' rsp hstep
    obtain ⟨hinv, hrsp⟩ := hs.step hq hstep
    exact ⟨hinv.order, hrsp⟩
  · intro s e s' rsp hs hq hstep
    exact (hs.step hq hstep).1

def command (ins : UInt8) (data : Bytes) : Apdu := ⟨0x80, ins, 0, 0, data, 0, false, false⟩

def wholeExchange : List Event :=
  [.select expeditedAid, .apdu (command 0x80 []), .work,
    .apdu (command 0x81 (List.replicate signatureSize 0x44)), .work,
    .apdu (command 0x82 (List.replicate exchangeDataSize 0x66)), .work]

theorem session_in_order_wholeExchange :
    (interleaving.run (.start (listenerInit none : State Config.default)) wholeExchange).map
        (fun r => r.1.st.session.phase) = some .done ∧
      interleaving.Always Orderly (.start (listenerInit none : State Config.default))
        wholeExchange :=
  ⟨by decide +kernel, session_in_order none (by decide +kernel)⟩

def staleWork : List Event :=
  [.select expeditedAid, .apdu (command 0x80 []), .select expeditedAid, .work]

theorem not_received_nil (p : Apdu → Prop) (ps : List (Apdu → Prop)) : ¬ Received (p :: ps) [] := by
  rintro ⟨cmds, hsub, hps⟩
  rw [sublist_nil.mp hsub] at hps
  cases hps

theorem stale_work_reaches_awaitAuth1 :
    (interleaving.run (.start (listenerInit none : State Config.default)) staleWork).map
        (fun r => (r.1.st.session.phase, r.1.log, r.2.getLast?)) =
      some (.awaitAuth1, [], some (some auth0Rsp)) ∧
    ¬ interleaving.Always Orderly (.start (listenerInit none : State Config.default))
      staleWork := by
  refine ⟨by decide +kernel, ?_⟩
  intro h
  obtain ⟨-, h⟩ := h
  obtain ⟨-, h⟩ := h _ _ rfl
  obtain ⟨-, h⟩ := h _ _ rfl
  obtain ⟨h, -⟩ := h _ _ rfl
  have horder := (h _ _ rfl).1
  exact not_received_nil _ _ (horder.auth1 rfl)

end NfcStack.Aliro
