import NfcStack.Protocols.Emv.Wire
import NfcStack.Stack.Isolation

/-!
# The way to an EMV application

The PPSE names the application of the image that is loaded, while the router was filled with the
identifiers of the build. A reader gets to the application only if the two agree.
-/

namespace NfcStack

open List Option Framing

variable {cfg : Config}

theorem Emv.fresh_of_deserialize {cfg : Emv.Config} {x x' : Emv.State cfg} {bytes : Bytes}
    (h : Emv.listenerDeserialize x bytes = some (x', .ok ())) : x'.Fresh := by
  obtain ⟨image, wire, hd, hwire, rfl⟩ := Emv.listenerDeserialize_ok h
  obtain ⟨hpos, hle, -⟩ := Emv.deserialize_accepted hd
  exact ⟨hwire, hpos, hle⟩

namespace Stack

theorem dispatchAll_fresh {es : List Store.Entry} {l l' : Listeners cfg}
    (hemv : listens cfg .emv = true)
    (hentry : (∃ entry ∈ es, entry.persistId = Listen.emv.code) ∨ l.emv.Fresh)
    (h : Store.dispatchAll (listenServices cfg) es l = some (l', true)) : l'.emv.Fresh := by
  induction es generalizing l with
  | nil =>
    cases h
    simpa using hentry
  | cons entry es ih =>
    obtain ⟨l₁, hd, hall⟩ := Store.dispatchAll_cons_accepted h
    refine ih ?_ hall
    obtain ⟨rfl, -, hnone⟩ | ⟨p, x, -, hcode, hx, rfl⟩ := dispatchEntry_cases hd
    · -- the entry is not one of an EMV card
      rcases hentry with ⟨e, he, hpid⟩ | hfresh
      · rcases mem_cons.mp he with rfl | he
        · exact absurd hpid.symm (hnone .emv hemv)
        · exact .inl ⟨e, he, hpid⟩
      · exact .inr hfresh
    · -- every EMV entry builds the responses anew, and no other entry touches them
      by_cases hp : p = .emv
      · subst hp
        exact .inr (Emv.fresh_of_deserialize hx)
      · rcases hentry with ⟨e, he, hpid⟩ | hfresh
        · rcases mem_cons.mp he with rfl | he
          · exact absurd (Listen.code_injective (hcode.trans hpid)) hp
          · exact .inl ⟨e, he, hpid⟩
        · refine .inr ?_
          have hkeep : (p.region.set l x).emv = l.emv :=
            Listen.get_set_of_ne (p := .emv) (Ne.symm hp) l x
          rw [hkeep]
          exact hfresh

theorem findAid_emv_iff (hemv : listens cfg .emv = true) (aid : Bytes) :
    (∃ entry, (listenProfiles cfg).find? (·.aid == aid) = some entry ∧ entry.svc = .emv) ↔
      aid = Emv.ppseAid ∨ aid = Emv.serviceAppAid := by
  unfold listenProfiles
  rw [find?_filter]
  constructor
  · rintro ⟨entry, hfind, hsvc⟩
    have hmem := mem_of_find?_eq_some hfind
    have haid := find?_some hfind
    simp only [beq_iff_eq, decide_eq_true_eq] at haid
    simp only [mem_cons, not_mem_nil, or_false] at hmem
    -- two rows of the table are those of EMV
    rcases hmem with rfl | rfl | rfl | rfl | rfl | rfl
    · cases hsvc
    · exact .inl haid.2.symm
    · exact .inr haid.2.symm
    · cases hsvc
    · cases hsvc
    · cases hsvc
  · rintro (rfl | rfl)
    · refine ⟨⟨Emv.ppseAid, .emv⟩, ?_, rfl⟩
      rw [find?_cons_of_neg (by simp [ndefAid, Emv.ppseAid]), find?_cons_of_pos (by simp [hemv])]
    · refine ⟨⟨Emv.serviceAppAid, .emv⟩, ?_, rfl⟩
      rw [find?_cons_of_neg (by simp [ndefAid, Emv.serviceAppAid]),
        find?_cons_of_neg (by simp [Emv.ppseAid, Emv.serviceAppAid]),
        find?_cons_of_pos (by simp [hemv])]

theorem emv_leave (router : Router.State Listen) (l : Listeners cfg) :
    (Router.leave listenService router l .emv).emv = l.emv := get_leave .emv router l

theorem callSelect_emv (l : Listeners cfg) (aid : Bytes) :
    (listenService .emv).callSelect l aid =
      (Emv.onSelect l.emv aid).map fun r => ({ l with emv := r.1 }, some r.2) := by
  show ((Emv.onSelect l.emv aid).map fun r => (r.1, some r.2)).map
    (fun x => (Listen.emv.region.set l x.1, x.2)) = _
  rw [Option.map_map]
  rfl

structure EmvServed (st : State cfg) : Prop where
  assembler : st.assembler = true
  router : st.router.initialized = true
  table : st.router.table = listenProfiles cfg
  fresh : st.listeners.emv.Fresh

def Answered (st : State cfg) (command : Bytes) : Prop :=
  ∃ st' fci, onApdu st command = some (st', some (fci ++ [0x90, 0x00])) ∧
    st'.router.active = some .emv

theorem EmvServed.ppse {st : State cfg} (h : EmvServed st) (hemv : listens cfg .emv = true)
    (p2 : UInt8) (le : Option UInt8) :
    ∃ st', onApdu st (selectCommand p2 Emv.ppseAid le) =
        some (st', some (st.listeners.emv.wire.ppseFci ++ [0x90, 0x00])) ∧
      EmvServed st' ∧ st'.router.active = some .emv ∧
      st'.listeners.emv.image = st.listeners.emv.image := by
  obtain ⟨entry, hfind, hsvc⟩ := (findAid_emv_iff hemv Emv.ppseAid).mpr (.inl rfl)
  rw [onApdu_select h.assembler h.router p2 le (by decide) (by decide), Router.State.findAid,
    h.table, hfind]
  simp only [hsvc, callSelect_emv, emv_leave, Emv.onSelect, if_true, map_some, h.fresh.send_ppseFci]
  exact ⟨_, rfl, ⟨h.assembler, h.router, h.table, h.fresh.1, h.fresh.2, h.fresh.3⟩, rfl, rfl⟩

theorem EmvServed.answered_iff {st : State cfg} (h : EmvServed st) (hemv : listens cfg .emv = true)
    (p2 : UInt8) (le : Option UInt8) :
    Answered st (selectCommand p2 st.listeners.emv.image.aid le) ↔
      st.listeners.emv.image.aid = Emv.ppseAid ∨
        st.listeners.emv.image.aid = Emv.serviceAppAid := by
  have hlen := h.fresh.length_aid
  have hpos := h.fresh.aidLen_pos
  have hle : st.listeners.emv.image.appAidLen.toNat ≤ 16 := h.fresh.aidLen_le
  rw [← findAid_emv_iff hemv]
  unfold Answered
  rw [onApdu_select h.assembler h.router p2 le (by omega) (by omega), Router.State.findAid, h.table]
  constructor
  · rintro ⟨st', fci, hstep, hactive⟩
    cases hfind : (listenProfiles cfg).find? (·.aid == st.listeners.emv.image.aid) with
    | none =>
      -- the router refuses with 6A82
      rw [hfind] at hstep
      simp only [some.injEq, Prod.mk.injEq] at hstep
      have hend := congrArg List.getLast? hstep.2
      simp [StatusWord.bytes] at hend
    | some entry =>
      rw [hfind] at hstep
      obtain ⟨r, -, heq⟩ := map_eq_some_iff.mp hstep
      obtain ⟨rfl, -⟩ := Prod.mk.inj heq
      exact ⟨entry, rfl, some.inj hactive⟩
  · rintro ⟨entry, hfind, hsvc⟩
    rw [hfind]
    simp only [hsvc, callSelect_emv, emv_leave, Emv.onSelect, hlen, if_true, h.fresh.read]
    split
    · rw [h.fresh.send_ppseFci]
      exact ⟨_, _, rfl, rfl⟩
    · rw [h.fresh.send_appFci]
      exact ⟨_, _, rfl, rfl⟩

/-- After a load of a blob with an EMV card, a reader that selects the PPSE is told the application
of the card. Its SELECT of that application is answered with 9000 by the EMV listener exactly if the
application is the one that the router knows, or has the name of the PPSE. -/
theorem emv_routable_iff (crc : Bytes → UInt16) {st st' : State cfg} {tag : Store.TagName}
    (hst : History crc st) (hload : load crc st tag = some (st', .ok ()))
    (hemv : listens cfg .emv = true)
    (hentry : ∃ entry ∈ walkedEntries crc st tag, entry.persistId = Listen.emv.code)
    (p2 p2' : UInt8) (le le' : Option UInt8) :
    ∃ st₁ rsp, onApdu (start true (.ok ()) st').1 (selectCommand p2 Emv.ppseAid le) =
        some (st₁, some rsp) ∧
      rsp.drop (rsp.length - 2) = [0x90, 0x00] ∧ st₁.router.active = some .emv ∧
      Emv.advertisedAid rsp = st'.listeners.emv.image.aid ∧
      (Answered st₁ (selectCommand p2' (Emv.advertisedAid rsp) le') ↔
        st'.listeners.emv.image.aid = Emv.ppseAid ∨
          st'.listeners.emv.image.aid = Emv.serviceAppAid) := by
  have hquiet := load_quiet hst.quiet hload
  obtain ⟨l, accepted, hall, ⟨hret, -⟩ | ⟨-, rfl, hloadable, -, -, -, rfl⟩⟩ := load_spec hload
  · exact absurd rfl hret
  obtain ⟨hasm, hrouter, -⟩ := hquiet.up hloadable.phase_ne
  have hserved : EmvServed (start true (.ok ())
      { st with listeners := l, activeTag := truncateTag cfg tag }).1 := by
    rw [start_eq]
    exact ⟨hasm, by rw [hrouter], by rw [hrouter], dispatchAll_fresh hemv (.inl hentry) hall⟩
  have hlisteners : (start true (.ok ())
      { st with listeners := l, activeTag := truncateTag cfg tag }).1.listeners = l := by
    rw [start_eq]
  obtain ⟨st₁, hppse, hserved₁, hactive, himage⟩ := hserved.ppse hemv p2 le
  rw [hlisteners] at hppse himage
  have hfresh := hserved.fresh
  rw [hlisteners] at hfresh
  refine ⟨st₁, _, hppse, by simp, hactive, hfresh.advertisedAid, ?_⟩
  have hiff := hserved₁.answered_iff hemv p2' le'
  rw [himage] at hiff
  rw [hfresh.advertisedAid]
  exact hiff

variable (aid : Bytes)

def emvCard : Bytes :=
  [Emv.formatVersion] ++ List.replicate 64 0 ++ [UInt8.ofNat aid.length] ++ aid ++
    List.replicate (16 - aid.length) 0 ++ [1, 0]

def emvStored : State Config.default := cardStored .emv (emvCard aid)

theorem emvStored_history : History Store.crc16Ccitt (emvStored aid) :=
  stackUp_history.importBlob _ _

def mastercardAid : Bytes := [0xA0, 0x00, 0x00, 0x00, 0x04, 0x10, 0x10]

theorem emv_routable_visa : ∃ st₁ rsp, onApdu (cardStarted (emvStored Emv.serviceAppAid))
        (selectCommand 0 Emv.ppseAid (some 0)) = some (st₁, some rsp) ∧
      Answered st₁ (selectCommand 0 (Emv.advertisedAid rsp) (some 0)) := by
  have hret : (load Store.crc16Ccitt (emvStored Emv.serviceAppAid) cardTag).map Prod.snd =
      some (.ok ()) := by decide +kernel
  have hentry : ∃ entry ∈ walkedEntries Store.crc16Ccitt (emvStored Emv.serviceAppAid) cardTag,
      entry.persistId = Listen.emv.code := by decide +kernel
  have haid : (after (load Store.crc16Ccitt (emvStored Emv.serviceAppAid)
      cardTag)).listeners.emv.image.aid = Emv.serviceAppAid := by decide +kernel
  obtain ⟨st₁, rsp, hppse, -, -, -, hiff⟩ := emv_routable_iff Store.crc16Ccitt
    (emvStored_history _) (eq_after hret) rfl hentry 0 0 (some 0) (some 0)
  exact ⟨st₁, rsp, hppse, hiff.mpr (.inr haid)⟩

theorem mastercard_not_routed :
    (load Store.crc16Ccitt (emvStored mastercardAid) cardTag).map Prod.snd = some (.ok ()) ∧
    (reader.outputs (cardStarted (emvStored mastercardAid))
        [.apdu (selectCommand 0 Emv.ppseAid (some 0)),
          .apdu (selectCommand 0 mastercardAid (some 0))]).map
        (Option.map (Option.map fun rsp => (Emv.advertisedAid rsp, rsp.drop (rsp.length - 2)))) =
      [some (some (mastercardAid, [0x90, 0x00])), some (some ([], [0x6A, 0x82]))] := by
  constructor <;> decide +kernel

end Stack

end NfcStack
