import NfcStack.Hal.Nfct.Backend

/-!
# Reassembly of commands

`History` cuts a list of events into commands without reference to the backend, and `assemblyOf` says
what the backend holds of the command that is open.
-/

namespace NfcStack.Hal.Nfct

open List Option

variable {cfg : Config}

structure Command (cfg : Config) where
  alloc : Option (BufId cfg)
  frags : List Bytes
deriving DecidableEq, Repr

namespace Command

variable (c : Command cfg)

def bytes : Bytes := c.frags.flatten

def add (frag : Fragment cfg) : Command cfg :=
  { c with frags := c.frags ++ [frag.data] }

def exceeds : Bool := c.alloc.isSome && decide (cfg.bufSize < c.bytes.length)

def exceedsEarly : Bool :=
  c.alloc.isSome && decide (cfg.bufSize < c.frags.dropLast.flatten.length)

def answer : List (Effect cfg) :=
  match c.alloc with
  | none => []
  | some _ =>
    if c.bytes.length ≤ cfg.bufSize then [.requested (.apdu c.bytes)] else [.wrongLength]

variable (c : Command cfg) (frag : Fragment cfg)

theorem bytes_add : (c.add frag).bytes = c.bytes ++ frag.data := by
  simp [bytes, add]

theorem length_bytes_add : (c.add frag).bytes.length = c.bytes.length + frag.data.length := by
  rw [bytes_add, length_append]

theorem exceeds_add : (c.add frag).exceeds =
      (c.alloc.isSome && decide (cfg.bufSize < c.bytes.length + frag.data.length)) := by
  rw [exceeds, length_bytes_add]
  rfl

theorem exceedsEarly_add : (c.add frag).exceedsEarly = c.exceeds := by
  simp [exceedsEarly, exceeds, add, bytes]

end Command

structure History (cfg : Config) where
  current : Option (Command cfg)
  ended : List (Command cfg × Bool)

namespace History

variable (h : History cfg)

def opened (alloc : Option (BufId cfg)) : Command cfg :=
  h.current.getD ⟨alloc, []⟩

def interrupted : History cfg :=
  ⟨none, h.ended ++ h.current.toList.map (·, false)⟩

def next : Event cfg → History cfg
  | .dataInd frag alloc =>
    if frag.more then { h with current := some ((h.opened alloc).add frag) }
    else ⟨none, h.ended ++ [((h.opened alloc).add frag, true)]⟩
  | .fieldOn | .fieldOff | .stop => h.interrupted
  | .work | .start | .stopTurn => h

def completed : Event cfg → Option (Command cfg)
  | .dataInd frag alloc => if frag.more then none else some ((h.opened alloc).add frag)
  | _ => none

def of (es : List (Event cfg)) : History cfg := es.foldl next ⟨none, []⟩

def commands : List (Command cfg) := h.ended.map Prod.fst ++ h.current.toList

def late : ℕ := h.ended.countP fun c => c.2 && c.1.exceedsEarly

theorem of_concat (es : List (Event cfg)) (e : Event cfg) : of (es ++ [e]) = (of es).next e := by
  simp [of]

end History

def assemblyOf : Option (Command cfg) → Assembly cfg
  | none => .clear
  | some c =>
    match c.alloc with
    | none => ⟨none, .nobuf⟩
    | some id =>
      if h : c.bytes.length ≤ cfg.bufSize then ⟨some ⟨id, c.bytes, h⟩, .ok⟩ else ⟨none, .oversize⟩

theorem assemblyOf_none : assemblyOf (none : Option (Command cfg)) = ⟨none, .ok⟩ := rfl

theorem assemblyOf_noBuffer {c : Command cfg} (h : c.alloc = none) :
    assemblyOf (some c) = ⟨none, .nobuf⟩ := by
  simp only [assemblyOf, h]

theorem assemblyOf_fits {c : Command cfg} {id : BufId cfg} (h : c.alloc = some id)
    (hfit : c.bytes.length ≤ cfg.bufSize) :
    assemblyOf (some c) = ⟨some ⟨id, c.bytes, hfit⟩, .ok⟩ := by
  simp only [assemblyOf, h, dif_pos hfit]

theorem assemblyOf_exceeds {c : Command cfg} (h : c.exceeds) :
    assemblyOf (some c) = ⟨none, .oversize⟩ := by
  obtain ⟨hsome, hlen⟩ := (Bool.and_eq_true _ _).mp h
  obtain ⟨id, hid⟩ := isSome_iff_exists.mp hsome
  simp only [assemblyOf, hid, dif_neg (not_le.mpr (of_decide_eq_true hlen))]

theorem Command.cases (c : Command cfg) :
    (c.alloc = none ∧ c.exceeds = false) ∨
      (∃ id, c.alloc = some id ∧ c.bytes.length ≤ cfg.bufSize ∧ c.exceeds = false) ∨
      (∃ id, c.alloc = some id ∧ cfg.bufSize < c.bytes.length ∧ c.exceeds = true) := by
  cases h : c.alloc with
  | none => exact .inl ⟨rfl, by simp [exceeds, h]⟩
  | some id =>
    rcases le_or_gt c.bytes.length cfg.bufSize with hfit | hlong
    · exact .inr (.inl ⟨id, rfl, hfit, by simp [exceeds, h, hfit]⟩)
    · exact .inr (.inr ⟨id, rfl, hlong, by simp [exceeds, h, hlong]⟩)

theorem takes_assemblyOf (c : Option (Command cfg)) : (assemblyOf c).takes = c.isNone := by
  cases c with
  | none => rfl
  | some c =>
    obtain ⟨h, -⟩ | ⟨id, h, hfit, -⟩ | ⟨-, -, -, h⟩ := c.cases
    · rw [assemblyOf_noBuffer h]
      rfl
    · rw [assemblyOf_fits h hfit]
      rfl
    · rw [assemblyOf_exceeds h]
      rfl

theorem take_assemblyOf (h : History cfg) (alloc : Option (BufId cfg)) :
    (assemblyOf h.current).take alloc = assemblyOf (some (h.opened alloc)) := by
  obtain ⟨_ | c, ended⟩ := h
  · cases alloc with
    | none => rfl
    | some id => rfl
  · exact if_neg (by simp [takes_assemblyOf])

variable (c : Command cfg) (frag : Fragment cfg)

theorem add_assemblyOf : (assemblyOf (some c)).add frag = (assemblyOf (some (c.add frag)),
        if (c.add frag).exceeds && !c.exceeds then c.alloc else none) := by
  obtain ⟨h, hexc⟩ | ⟨id, h, hfit, hexc⟩ | ⟨id, h, hlong, hexc⟩ := c.cases
  · rw [assemblyOf_noBuffer h, assemblyOf_noBuffer (c := c.add frag) h, h, ite_self]
    rfl
  · rw [assemblyOf_fits h hfit, h, hexc]
    have hiff := apduAsmOnFrag_eq_oversize ⟨id, c.bytes, hfit⟩ frag
    rcases le_or_gt (c.bytes.length + frag.data.length) cfg.bufSize with hle | hgt
    · -- the fragment fits behind the others
      have hadd : (c.add frag).exceeds = false := by simp [c.exceeds_add, hle]
      rw [assemblyOf_fits (c := c.add frag) h ((c.length_bytes_add frag).trans_le hle), hadd,
        Assembly.add]
      simp only [dif_neg (mt hiff.mp (not_lt.mpr hle)), Buf.add, c.bytes_add]
      rfl
    · have hadd : (c.add frag).exceeds := by simp [c.exceeds_add, h, hgt]
      rw [assemblyOf_exceeds hadd, hadd, Assembly.add]
      simp only [dif_pos (hiff.mpr hgt)]
      rfl
  · have hadd : (c.add frag).exceeds := by
      have hgt : cfg.bufSize < c.bytes.length + frag.data.length := by omega
      simp [c.exceeds_add, h, hgt]
    rw [assemblyOf_exceeds hexc, assemblyOf_exceeds hadd, hexc]
    simp [Assembly.add]

theorem isSome_released : (if (c.add frag).exceeds && !c.exceeds then c.alloc else none).isSome =
      ((c.add frag).exceeds && !c.exceeds) := by
  cases h : (c.add frag).exceeds && !c.exceeds with
  | false => rfl
  | true =>
    rw [c.exceeds_add, Bool.and_assoc, Bool.and_eq_true] at h
    exact h.1

theorem onFragment_assemblyOf (h : History cfg) (frag : Fragment cfg) (alloc : Option (BufId cfg)) :
    let c := (h.opened alloc).add frag
    onFragment (assemblyOf h.current) frag alloc =
      { asm := assemblyOf (h.next (.dataInd frag alloc)).current
        taken := if h.current.isNone then alloc else none
        released := if c.exceeds && !(h.opened alloc).exceeds then (h.opened alloc).alloc else none
        enqueueBuf := if frag.more then none else (assemblyOf (some c)).cur
        sendWrongLength := !frag.more && c.exceeds
        droppedNobuf := h.current.isNone && alloc.isNone
        oversized := c.exceeds && (!frag.more || !(h.opened alloc).exceeds)
        assembled := !frag.more && (assemblyOf (some c)).cur.isSome } := by
  intro c
  simp only [onFragment, take_assemblyOf, add_assemblyOf, takes_assemblyOf, isSome_released,
    History.next]
  cases frag.more with
  | true => simp [c]
  | false =>
    -- the last fragment: the drop state says which kind of command it was
    obtain ⟨h, hexc⟩ | ⟨id, h, hfit, hexc⟩ | ⟨id, h, hlong, hexc⟩ := c.cases
    · simp only [c] at h hexc
      simp [c, assemblyOf_none, assemblyOf_noBuffer h, hexc]
    · simp only [c] at h hfit hexc
      simp [c, assemblyOf_none, assemblyOf_fits h hfit, hexc]
    · simp only [c] at hexc
      simp [c, assemblyOf_none, assemblyOf_exceeds hexc, hexc]

def Effect.isAnswer : Effect cfg → Bool
  | .requested (.apdu _) | .wrongLength => true
  | _ => false

theorem apdus_filter_isAnswer (o : List (Effect cfg)) :
    apdus (o.filter Effect.isAnswer) = apdus o := by
  rw [apdus, filterMap_filter]
  congr 1
  funext x
  rcases x with _ | _ | (_ | _ | _) | _ | _ | _ | _ | _ <;> rfl

theorem answer_assemblyOf (c : Command cfg) (r : FragResult cfg)
    (hbuf : r.enqueueBuf = (assemblyOf (some c)).cur) (hsend : r.sendWrongLength = c.exceeds) :
    r.answer = c.answer := by
  rw [FragResult.answer, hbuf, hsend, Command.answer]
  obtain ⟨h, hexc⟩ | ⟨id, h, hfit, hexc⟩ | ⟨id, h, hlong, hexc⟩ := c.cases
  · simp [assemblyOf_noBuffer h, h, hexc]
  · simp [assemblyOf_fits h hfit, h, hfit]
  · simp [assemblyOf_exceeds hexc, h, hexc, hlong]

theorem answer_onFragment (h : History cfg) (frag : Fragment cfg) (alloc : Option (BufId cfg)) :
    (onFragment (assemblyOf h.current) frag alloc).answer =
      (h.completed (.dataInd frag alloc)).elim [] Command.answer := by
  have hr := onFragment_assemblyOf h frag alloc
  cases hmore : frag.more with
  | true => simp [hr, FragResult.answer, History.completed, hmore]
  | false =>
    simp only [History.completed, hmore, Bool.false_eq_true, if_false, elim_some]
    exact answer_assemblyOf _ _ (by simp [hr, hmore]) (by simp [hr, hmore])

theorem filter_isAnswer_completed (c : Option (Command cfg)) :
    (c.elim [] Command.answer).filter Effect.isAnswer = c.elim [] Command.answer := by
  cases c with
  | none => rfl
  | some c =>
    simp only [elim_some, Command.answer]
    split
    · rfl
    · split
      · rfl
      · rfl

variable (ids : List (BufId cfg))

theorem filter_isAnswer_alloc : (ids.map Effect.alloc).filter Effect.isAnswer = [] := by
  simp [Effect.isAnswer]

theorem filter_isAnswer_release : (ids.map Effect.release).filter Effect.isAnswer = [] := by
  simp [Effect.isAnswer]

theorem filter_isAnswer_request (wq : WorkQueue Task) (t : Task) {c : Callback}
    (hc : c.isApdu = false) : (request wq t c : List (Effect cfg)).filter Effect.isAnswer = [] := by
  rw [request]
  split
  · rfl
  · cases c with
    | apdu => cases hc
    | fieldOn => rfl
    | fieldOff => rfl

structure Tracks (s : State cfg) (h : History cfg) : Prop where
  asm : s.asm = assemblyOf h.current
  closed : s.emulating = false → h.current = none

section

variable {s s' : State cfg} {h : History cfg} {o : List (Effect cfg)}

theorem tracks_onField (h : History cfg) {t : Task} {c : Callback} {count : Stats → Stats}
    (hs : s.onField t c count = (s', o)) (hc : c.isApdu = false) :
    Tracks s' h.interrupted ∧ o.filter Effect.isAnswer = [] := by
  rw [State.onField_eq] at hs
  obtain ⟨rfl, rfl⟩ := Prod.mk.inj hs
  refine ⟨⟨rfl, fun _ => rfl⟩, ?_⟩
  rw [filter_append, filter_isAnswer_release, filter_isAnswer_request _ _ hc]
  rfl

theorem Tracks.onFragment (ht : Tracks s h) (hemu : s.emulating) {frag : Fragment cfg}
    {alloc : Option (BufId cfg)} (hs : s.onFragment frag alloc = some (s', o)) :
    Tracks s' (h.next (.dataInd frag alloc)) ∧
      o.filter Effect.isAnswer = (h.completed (.dataInd frag alloc)).elim [] Command.answer := by
  obtain ⟨-, rfl, rfl⟩ := State.onFragment_eq_some hs
  rw [ht.asm, filter_append, filter_append, filter_isAnswer_alloc,
    filter_isAnswer_release, answer_onFragment, filter_isAnswer_completed]
  refine ⟨⟨congrArg FragResult.asm (onFragment_assemblyOf h frag alloc), ?_⟩, rfl⟩
  intro hnot
  exact absurd (hnot.symm.trans hemu) (by decide)

theorem filter_isAnswer_onApduHandler (a : Assembler) (buf : Buf cfg) :
    (onApduHandler a buf).filter Effect.isAnswer = [] := by
  unfold onApduHandler
  split
  · rfl
  · split
    · rfl
    · rfl

variable (ht : Tracks s h)

include ht

theorem Tracks.work (hw : WorkTurn s s' o) : Tracks s' h ∧ o.filter Effect.isAnswer = [] := by
  have hsame : s'.asm = s.asm ∧ s'.emulating = s.emulating := by
    cases hw <;> exact ⟨rfl, rfl⟩
  refine ⟨⟨hsame.1.trans ht.asm, fun hn => ht.closed (hsame.2.symm.trans hn)⟩, ?_⟩
  cases hw with
  | idle | fieldDone | passed | dropped | apduDone => rfl
  | returned => exact filter_isAnswer_onApduHandler _ _
  | @started t wq hstart =>
    split
    · cases t <;> rfl
    · rfl

theorem Tracks.stop (hs : (machine cfg).step s .stop = some (s', o)) :
    Tracks s' h.interrupted ∧ o.filter Effect.isAnswer = [] := by
  obtain ⟨hnot, rfl, rfl⟩ | ⟨rfl, rfl⟩ := step_stop hs
  · -- outside a session no command is open
    refine ⟨⟨?_, fun _ => rfl⟩, rfl⟩
    rw [ht.asm, ht.closed (by simp [State.emulating, hnot])]
    rfl
  · exact ⟨⟨rfl, fun _ => rfl⟩, filter_isAnswer_release _⟩

theorem Tracks.stopTurn (hw : StopTurn s s' o) : Tracks s' h ∧ o.filter Effect.isAnswer = [] := by
  cases hw with
  | idle => exact ⟨ht, rfl⟩
  | cancelled hstop | drained hstop | stopped hstop =>
    exact ⟨⟨ht.asm, fun _ => ht.closed (by simp [State.emulating, hstop])⟩, rfl⟩

theorem Tracks.start (hs : (machine cfg).step s .start = some (s', o)) :
    Tracks s' h ∧ o.filter Effect.isAnswer = [] := by
  obtain ⟨rfl | ⟨hnot, rfl⟩, rfl⟩ := step_start hs
  · exact ⟨ht, rfl⟩
  · exact ⟨⟨ht.asm, fun _ => ht.closed (by simp [State.emulating, hnot])⟩, rfl⟩

theorem Tracks.step {e : Event cfg} (hs : (machine cfg).step s e = some (s', o)) :
    Tracks s' (h.next e) ∧ o.filter Effect.isAnswer = (h.completed e).elim [] Command.answer := by
  cases e with
  | fieldOn => exact tracks_onField h (step_fieldOn hs) rfl
  | fieldOff => exact tracks_onField h (step_fieldOff hs) rfl
  | dataInd frag alloc => exact ht.onFragment (emulating_of_step rfl hs) (step_dataInd hs)
  | work => exact ht.work (step_work hs)
  | start => exact ht.start hs
  | stop => exact ht.stop hs
  | stopTurn => exact ht.stopTurn (step_stopTurn hs)

omit ht

end

end NfcStack.Hal.Nfct
