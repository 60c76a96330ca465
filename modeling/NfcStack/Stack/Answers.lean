import NfcStack.Protocols.Desfire.Invariant
import NfcStack.Protocols.Emv.Confinement
import NfcStack.Stack.Stack

/-!
# One answer to every command

Every command that reaches the assembler is answered once (`reader_answers`), but for a DESFire read that
resumes beyond the end of the file it names.
-/

namespace NfcStack

open List Option UInt8

def Sendable (rsp : Bytes) : Prop := 2 ≤ rsp.length ∧ rsp.length ≤ maxResponseLen

theorem StatusWord.sendable (sw : StatusWord) : Sendable sw.bytes := by
  cases sw <;> exact ⟨by decide, by decide⟩

theorem Sendable.of_append {data sw : Bytes} (hdata : data.length + 2 ≤ maxResponseLen)
    (hsw : sw.length = 2) : Sendable (data ++ sw) := by
  rw [Sendable, length_append]
  omega

namespace Ndef

variable {cfg : Config}

theorem readFile_sendable (file : Bytes) (apdu : Apdu) : Sendable (readFile file apdu) := by
  simp only [readFile]
  split
  · exact StatusWord.wrongOffset.sendable
  · apply Sendable.of_append _ rfl
    have hmax : maxResponseLen = 255 := rfl
    rw [length_take]
    omega

variable (st : State cfg) (apdu : Apdu)

theorem handleSelectFile_sendable : Sendable (handleSelectFile st apdu).2 := by
  unfold handleSelectFile
  split_ifs
  · exact StatusWord.wrongP1P2.sendable
  · exact StatusWord.wrongLength.sendable
  · exact StatusWord.ok.sendable
  · exact StatusWord.ok.sendable
  · exact StatusWord.fileNotFound.sendable

theorem handleReadBinary_sendable : Sendable (handleReadBinary st apdu) := by
  unfold handleReadBinary
  split
  · exact StatusWord.noEf.sendable
  · exact readFile_sendable _ apdu
  · exact readFile_sendable _ apdu

theorem handleUpdateBinary_sendable : Sendable (handleUpdateBinary st apdu).2.1 := by
  simp only [handleUpdateBinary]
  split_ifs
  · exact StatusWord.noEf.sendable
  · exact StatusWord.conditionsNotSat.sendable
  · exact StatusWord.wrongLength.sendable
  · exact StatusWord.ok.sendable

theorem onApdu_sendable : Sendable (onApdu st apdu).2.1 := by
  unfold onApdu
  split_ifs
  · exact StatusWord.claNotSupported.sendable
  · exact handleSelectFile_sendable st apdu
  · exact handleReadBinary_sendable st apdu
  · exact handleUpdateBinary_sendable st apdu
  · exact StatusWord.insNotSupported.sendable

end Ndef

namespace Desfire

variable {cfg : Config} {m : Data cfg} {s s' : Session} {apdu : Apdu} {resp : Bytes}

theorem sendStatus_sendable (sw2 : UInt8) : Sendable (sendStatus sw2) :=
  ⟨le_rfl, show 2 ≤ maxResponseLen by decide⟩

theorem sendDataStatus_sendable (data : Bytes) (sw2 : UInt8) :
    Sendable (sendDataStatus data sw2) := by
  unfold sendDataStatus
  split
  · exact sendStatus_sendable _
  · next h =>
    apply Sendable.of_append _ rfl
    have hmax : maxChunk = maxResponseLen - 2 := rfl
    have h255 : maxResponseLen = 255 := rfl
    omega

theorem Response.sendable (h : Response resp) : Sendable resp := by
  cases h with
  | status sw2 => exact sendStatus_sendable sw2
  | data data sw2 => exact sendDataStatus_sendable data sw2

theorem onApdu_sendable {st st' : State cfg} (h : onApdu st apdu = some (st', resp)) :
    Sendable resp := by
  cases hc : st.command? apdu with
  | none =>
    rw [onApdu_of_command?_none hc] at h
    cases h
    exact sendStatus_sendable _
  | some c =>
    rw [onApdu_of_command? hc] at h
    obtain ⟨r, hr, heq⟩ := map_eq_some_iff.mp h
    cases heq
    exact (command_cases hr).2.sendable

theorem onApdu_answers {st : State cfg} (hst : st.Ok) (h : ResumesInside st (.apdu apdu) none) :
    ∃ st' resp, onApdu st apdu = some (st', resp) ∧ Sendable resp ∧ st'.Ok := by
  obtain ⟨st', o, hstep, hok⟩ := reader_step_ok hst h
  obtain ⟨r, hr, heq⟩ := map_eq_some_iff.mp hstep
  cases heq
  exact ⟨r.1, r.2, hr, onApdu_sendable hr, hok⟩

end Desfire

namespace Emv

variable {cfg : Config}

structure Image.Served (image : Image cfg) : Prop extends image.InBounds where
  aidLen : image.appAidLen.toNat ≤ appAidMaxBytes
  afl : 1 ≤ image.aflFirst ∧ image.aflLast ≤ image.recordCount

theorem Image.Served.record {image : Image cfg} (h : image.Served) {i : ℕ}
    (hi : i < image.recordCount.toNat) : ∃ data, image.record? i = some data := by
  have hslot : i < cfg.maxRecords := lt_of_lt_of_le hi h.recordCount
  obtain ⟨len, hlen⟩ := (image.recordLen.get?_eq_some_iff i).mpr hslot
  have hle := h.recordLen len (mem_of_getElem? hlen)
  simp only [Image.record?, hlen]
  exact ⟨_, CArray.read?_of_le _ (slot_end_le hslot hle)⟩

theorem send_sendable (data : Bytes) {sw : Bytes} (hsw : sw.length = 2) :
    Sendable (send data sw) := by
  unfold send
  split
  · exact StatusWord.conditionsNotSat.sendable
  · next h => exact Sendable.of_append (by omega) hsw

theorem onSelect_answers {st : State cfg} (h : st.image.Served) (aid : Bytes) :
    ∃ st' resp, onSelect st aid = some (st', resp) ∧ Sendable resp ∧ st'.image = st.image := by
  have hread : st.image.appAid.read? 0 st.image.appAidLen.toNat = some st.image.aid :=
    CArray.read?_of_le _ (by simpa using h.aidLen)
  unfold onSelect
  split
  · exact ⟨_, _, rfl, send_sendable _ rfl, rfl⟩
  · split
    · next hlen =>
      simp only [hlen, hread]
      split
      · exact ⟨_, _, rfl, send_sendable _ rfl, rfl⟩
      · exact ⟨_, _, rfl, send_sendable _ rfl, rfl⟩
    · exact ⟨_, _, rfl, send_sendable _ rfl, rfl⟩

theorem onApdu_answers {st : State cfg} (h : st.image.Served) (apdu : Apdu) :
    ∃ st' resp, onApdu st apdu = some (st', resp) ∧ Sendable resp ∧ st'.image = st.image := by
  unfold onApdu
  split
  · split
    · exact ⟨_, _, rfl, send_sendable _ rfl, rfl⟩
    · exact ⟨_, _, rfl, send_sendable _ rfl, rfl⟩
  split
  · cases hr : readRecordRequest st apdu with
    | error sw => exact ⟨_, _, rfl, send_sendable _ (readRecordRequest_error hr).1, rfl⟩
    | ok recNo =>
      -- the AFL names records of the card only, so the record has a slot
      obtain ⟨-, hlo, hhi⟩ := readRecordRequest_ok hr
      have hone := UInt8.le_iff_toNat_le.mp (UInt8.le_trans h.afl.1 hlo)
      have hcount := UInt8.le_iff_toNat_le.mp (UInt8.le_trans hhi h.afl.2)
      have h1 : (1 : UInt8).toNat = 1 := rfl
      obtain ⟨data, hdata⟩ := h.record (show recNo.toNat - 1 < st.image.recordCount.toNat by omega)
      have hne : recNo ≠ 0 := by
        rintro rfl
        exact absurd hone (by decide)
      simp only [if_neg hne, hdata, map_some]
      exact ⟨_, _, rfl, send_sendable _ rfl, rfl⟩
  · exact ⟨_, _, rfl, send_sendable _ rfl, rfl⟩

end Emv

variable {cfg : Config}

/-- The variables of a listener that answers each command when it gets it. The Aliro listener does
not: its work queue may answer later. -/
def Listen.Ready : (p : Listen) → p.Own cfg → Prop
  | .ndef, _ => True
  | .desfire, (x : Desfire.State cfg.desfire) => x.Ok
  | .emv, (x : Emv.State cfg.emv) => x.image.Served
  | .aliro, _ => False

def Listen.Confined : (p : Listen) → p.Own cfg → Apdu → Prop
  | .desfire, (x : Desfire.State cfg.desfire), apdu => Desfire.ResumesInside x (.apdu apdu) none
  | _, _, _ => True

section OneService

variable {p : Listen} {x : p.Own cfg} (h : p.Ready x)

include h

theorem Listen.Ready.select (aid : Bytes) :
    ∃ x' rsp, p.ownService.callSelect x aid = some (x', some rsp) ∧ Sendable rsp ∧ p.Ready x' := by
  cases p with
  | ndef => exact ⟨_, _, rfl, StatusWord.ok.sendable, trivial⟩
  | desfire =>
    have hok : (x : Desfire.State cfg.desfire).Ok := h
    exact ⟨_, _, rfl, StatusWord.ok.sendable, hok.model, Desfire.Session.ok_reset _⟩
  | emv =>
    obtain ⟨x', rsp, hx', hrsp, himage⟩ := Emv.onSelect_answers h aid
    refine ⟨x', rsp, ?_, hrsp, ?_⟩
    · show (Emv.onSelect x aid).map _ = _
      rw [hx']
      rfl
    · show x'.image.Served
      exact himage ▸ h
  | aliro => exact h.elim

theorem Listen.Ready.apdu {apdu : Apdu} (hconf : p.Confined x apdu) :
    ∃ x' rsp dirty, p.ownService.callApdu x apdu = some (x', some rsp, dirty) ∧ Sendable rsp ∧
      p.Ready x' ∧ (dirty = true → p = .ndef) := by
  cases p with
  | ndef => exact ⟨_, _, _, rfl, Ndef.onApdu_sendable x apdu, trivial, fun _ => rfl⟩
  | desfire =>
    obtain ⟨x', rsp, hx', hrsp, hok⟩ := Desfire.onApdu_answers h hconf
    refine ⟨x', rsp, false, ?_, hrsp, hok, fun hd => by cases hd⟩
    show (Desfire.onApdu x apdu).map _ = _
    rw [hx']
    rfl
  | emv =>
    obtain ⟨x', rsp, hx', hrsp, himage⟩ := Emv.onApdu_answers h apdu
    refine ⟨x', rsp, false, ?_, hrsp, ?_, fun hd => by cases hd⟩
    · show (Emv.onApdu x apdu).map _ = _
      rw [hx']
      rfl
    · show x'.image.Served
      exact himage ▸ h
  | aliro => exact h.elim

theorem Listen.Ready.deselect : p.Ready (p.ownService.callDeselect x) := by
  cases p with
  | ndef => trivial
  | desfire =>
    have hok : (x : Desfire.State cfg.desfire).Ok := h
    exact ⟨hok.model, Desfire.Session.ok_reset _⟩
  | emv => exact h
  | aliro => exact h.elim

theorem Listen.Ready.fieldOff : p.Ready (p.ownService.callFieldOff x) := by
  cases p with
  | ndef => trivial
  | desfire =>
    have hok : (x : Desfire.State cfg.desfire).Ok := h
    exact ⟨hok.model, Desfire.Session.ok_reset _⟩
  | emv => exact h
  | aliro => exact h.elim

omit h

end OneService

def Listeners.Ready (l : Listeners cfg) : Prop := ∀ p ≠ Listen.aliro, p.Ready (p.region.get l)

theorem Listeners.Ready.set {l : Listeners cfg} (h : l.Ready) {p : Listen} {x : p.Own cfg}
    (hx : p ≠ .aliro → p.Ready x) : (p.region.set l x).Ready := by
  intro q hq
  by_cases hqp : q = p
  · subst hqp
    rw [Region.get_set]
    exact hx hq
  · rw [Listen.get_set_of_ne hqp]
    exact h q hq

namespace Stack

structure State.Serves (st : State cfg) : Prop where
  assembler : st.assembler = true
  router : st.router.initialized = true
  table : ∀ entry ∈ st.router.table, entry.svc ≠ .aliro
  active : st.router.active ≠ some .aliro
  listeners : st.listeners.Ready

def ResumesInside (st : State cfg) (e : ReaderEvent) (_out : Option (State cfg × Option Bytes)) :
    Prop :=
  ∀ bytes apdu, e = .apdu bytes → Framing.apduParse cfg.extendedApdu bytes = some apdu →
    Router.isSelectByAid apdu = false → st.router.active = some .desfire →
    Desfire.ResumesInside st.listeners.desfire (.apdu apdu) none

def AnsweredOnce (_st : State cfg) (e : ReaderEvent) (out : Option (State cfg × Option Bytes)) :
    Prop :=
  ∀ bytes, e = .apdu bytes → ∃ st' rsp, out = some (st', some rsp) ∧ Sendable rsp

theorem leave_ready {l : Listeners cfg} (h : l.Ready) (router : Router.State Listen)
    (svc : Listen) : (Router.leave listenService router l svc).Ready := by
  refine Router.leave_induction router h ?_
  intro old _
  rw [listenService, Service.callDeselect_within]
  apply h.set
  intro hne
  exact (h old hne).deselect

theorem select_answers {l : Listeners cfg} (h : l.Ready) (router : Router.State Listen)
    {svc : Listen} (hsvc : svc ≠ .aliro) (aid : Bytes) :
    ∃ l' rsp, Router.select listenService router l aid svc =
        some ({ router with active := some svc }, l', some rsp, none) ∧ Sendable rsp ∧
      l'.Ready := by
  have hleave := leave_ready h router svc
  obtain ⟨x, rsp, hx, hrsp, hready⟩ := (hleave svc hsvc).select aid
  have hcall : (listenService svc).callSelect (Router.leave listenService router l svc) aid =
      some (svc.region.set (Router.leave listenService router l svc) x, some rsp) := by
    rw [listenService, Service.callSelect_within, hx]
    rfl
  refine ⟨_, rsp, ?_, hrsp, hleave.set fun _ => hready⟩
  rw [Router.select, hcall]
  rfl

variable {st : State cfg} (h : st.Serves)

include h

theorem dispatch_answers {apdu : Apdu}
    (hconf : Router.isSelectByAid apdu = false → ∀ p, st.router.active = some p →
      p.Confined (p.region.get st.listeners) apdu) :
    ∃ router l rsp dirty, Router.dispatch listenService st.router st.listeners apdu =
        some (router, l, some rsp, dirty) ∧ Sendable rsp ∧
      { st with router, listeners := l }.Serves ∧ (∀ p, dirty = some p → p = .ndef) := by
  unfold Router.dispatch
  rw [if_neg (not_not.mpr h.router)]
  cases hsel : Router.isSelectByAid apdu with
  | true =>
    cases hfind : st.router.findAid (Router.selectedAid apdu) with
    | none => exact ⟨_, _, _, _, rfl, StatusWord.fileNotFound.sendable, h, fun p hp => by cases hp⟩
    | some entry =>
      have hsvc := h.table entry (mem_of_find?_eq_some hfind)
      obtain ⟨l, rsp, hl, hrsp, hready⟩ := select_answers h.listeners st.router hsvc apdu.data
      refine ⟨_, l, rsp, none, hl, hrsp, ?_, fun p hp => by cases hp⟩
      exact ⟨h.assembler, h.router, h.table, fun heq => hsvc (some.inj heq), hready⟩
  | false =>
    rw [if_neg Bool.false_ne_true]
    cases hact : st.router.active with
    | none => exact ⟨_, _, _, _, rfl, StatusWord.noEf.sendable, h, fun p hp => by cases hp⟩
    | some svc =>
      -- only here may a read resume, so the condition is asked for here only
      have hsvc : svc ≠ .aliro := fun heq => h.active (heq ▸ hact)
      obtain ⟨x, rsp, dirty, hx, hrsp, hready, hdirty⟩ :=
        (h.listeners svc hsvc).apdu (hconf hsel svc hact)
      have hcall : (listenService svc).callApdu st.listeners apdu =
          some (svc.region.set st.listeners x, some rsp, dirty) := by
        rw [listenService, Service.callApdu_within, hx]
        rfl
      refine ⟨st.router, svc.region.set st.listeners x, rsp, if dirty then some svc else none,
        ?_, hrsp, ?_, ?_⟩
      · simp only [hcall, map_some]
      · exact ⟨h.assembler, h.router, h.table, h.active, h.listeners.set fun _ => hready⟩
      · intro p hp
        split at hp
        · next hd => exact some.inj hp ▸ hdirty hd
        · cases hp

theorem onServiceDirty_serves :
    ∃ st' ret, onServiceDirty st .ndef = some (st', ret) ∧ st'.Serves := by
  have hset : ∀ x : Ndef.State cfg.ndef,
      ({ st with listeners := { st.listeners with ndef := x } } : State cfg).Serves := by
    intro x
    refine ⟨h.assembler, h.router, h.table, h.active, ?_⟩
    exact h.listeners.set (p := .ndef) fun _ => trivial
  unfold onServiceDirty
  split
  · exact ⟨st, none, rfl, h⟩
  have hserialize : (listenService .ndef : Service (Listeners cfg)).serialize =
      some fun l outMax => some ({ l with ndef := (Ndef.listenerSerialize l.ndef outMax).1 },
        (Ndef.listenerSerialize l.ndef outMax).2) := rfl
  have hcode : (listenService .ndef : Service (Listeners cfg)).persistId ≠ 0 := by
    rw [listenService_persistId]
    decide
  unfold Store.onDirty
  simp only [hserialize, if_neg hcode]
  split
  · exact ⟨_, _, rfl, h⟩
  -- whatever comes of the commit, the listener has been serialised and the result is dropped
  · cases (Ndef.listenerSerialize st.listeners.ndef cfg.store.blobSize).2 with
    | ok bytes => exact ⟨_, _, rfl, hset _⟩
    | error e => cases e <;> exact ⟨_, _, rfl, hset _⟩

theorem onApdu_answers {bytes : Bytes} (hinside : ResumesInside st (.apdu bytes) none) :
    ∃ st' rsp, onApdu st bytes = some (st', some rsp) ∧ Sendable rsp ∧ st'.Serves := by
  unfold onApdu onApduCommit
  rw [if_neg (not_not.mpr h.assembler)]
  cases hparse : Framing.apduParse cfg.extendedApdu bytes with
  | none => exact ⟨st, _, rfl, StatusWord.wrongLength.sendable, h⟩
  | some apdu =>
    obtain ⟨router, l, rsp, dirty, hout, hrsp, hserves, hdirty⟩ := dispatch_answers h (by
      intro hsel p hact
      cases p with
      | desfire => exact hinside bytes apdu rfl hparse hsel hact
      | ndef | emv | aliro => trivial)
    simp only [hout]
    cases dirty with
    | none => exact ⟨_, rsp, rfl, hrsp, hserves⟩
    | some p =>
      -- the listener commits before it sends the response, and drops what came of it
      obtain rfl := hdirty p rfl
      obtain ⟨st', ret, hst', hserves'⟩ := onServiceDirty_serves hserves
      exact ⟨st', rsp, by simp only [hst', map_some], hrsp, hserves'⟩

theorem onFieldOff_serves : (onFieldOff st).Serves := by
  refine ⟨h.assembler, h.router, h.table, fun heq => (by cases heq), ?_⟩
  refine Router.fieldOff_induction st.router h.listeners ?_
  intro svc
  rw [listenService, Service.callFieldOff_within]
  apply h.listeners.set
  intro hne
  exact (h.listeners svc hne).fieldOff

omit h

theorem reader_step_serves {st' : State cfg} (h : st.Serves) {e : ReaderEvent}
    {out : Option Bytes} (hinside : ResumesInside st e none)
    (hstep : reader.step st e = some (st', out)) : st'.Serves := by
  cases e with
  | fieldOn =>
    cases hstep
    exact h
  | fieldOff =>
    cases hstep
    exact onFieldOff_serves h
  | apdu bytes =>
    obtain ⟨st₁, rsp, hout, -, hserves⟩ := onApdu_answers h hinside
    cases hout.symm.trans hstep
    exact hserves
  | work =>
    -- the work queue runs handlers of Aliro only
    cases hstep
    refine ⟨h.assembler, h.router, h.table, h.active, ?_⟩
    exact h.listeners.set (p := .aliro) fun hne => absurd rfl hne

/-- In a run in which no DESFire read goes on behind the file it names, every command gets one response,
and one that the transport can send. -/
theorem reader_answers (st : State cfg) (h : st.Serves) (events : List ReaderEvent)
    (hinside : reader.Always ResumesInside st events) : reader.Always AnsweredOnce st events := by
  refine Machine.Always.imp reader (I := State.Serves) ?_ ?_ h hinside
  · rintro s e hs hq bytes rfl
    obtain ⟨st', rsp, hout, hrsp, -⟩ := onApdu_answers hs hq
    exact ⟨st', rsp, hout, hrsp⟩
  · intro s e s' o hs hq hstep
    exact reader_step_serves hs hq hstep

/-! An application has a file of 256 bytes and, in the last row of its array, one of 16. The second
READ_DATA names the last one and goes on at offset 253 of its row, behind the array. -/

def eightFileApp : Desfire.Application .default :=
  { (Desfire.Application.reset : Desfire.Application .default) with
    appId := ⟨[1, 0, 0], rfl⟩
    fileCount := 8
    fileIds := ⟨[1, 2, 3, 4, 5, 6, 7, 8], rfl⟩
    fileDataLen := ⟨[256, 0, 0, 0, 0, 0, 0, 16], rfl⟩ }

def eightFileCard : Desfire.Data .default :=
  { (Desfire.Data.reset : Desfire.Data .default) with
    appCount := 1
    apps := .ofList 4 .reset [eightFileApp] }

theorem eightFileCard_inBounds : eightFileCard.InBounds where
  appCount := by decide
  apps i app hi happ := by
    obtain rfl : i = 0 := Nat.lt_one_iff.mp hi
    obtain rfl : eightFileApp = app := some.inj happ
    have hall : eightFileApp.fileDataLen.toList.all (·.toNat ≤ 256) := by decide
    exact ⟨⟨by decide, fun j len _ hlen =>
      of_decide_eq_true (all_eq_true.mp hall len (mem_of_getElem? hlen))⟩, by decide⟩

def plainConfig : Config := { Config.default with enabled := (· != .aliro) }

def eightFileStack : State plainConfig :=
  (init ⟨.ok (), .ok ()⟩ (.boot : State plainConfig)).elim .boot fun r =>
    { r.1 with listeners := { r.1.listeners with
      desfire := Desfire.listenerInit r.1.listeners.desfire (some eightFileCard) } }

theorem eightFileStack_serves : eightFileStack.Serves where
  assembler := by decide +kernel
  router := by decide +kernel
  table := by decide +kernel
  active := by decide +kernel
  listeners p hp := by
    cases p with
    | ndef => trivial
    | desfire => exact ⟨eightFileCard_inBounds, Desfire.Session.ok_of_pending_none rfl⟩
    | emv =>
      exact ⟨⟨by decide +kernel, by decide +kernel⟩, by decide +kernel, by decide +kernel⟩
    | aliro => exact absurd rfl hp

def readFirstFile : List ReaderEvent :=
  [.apdu (Framing.selectCommand 0x00 Desfire.aid none),
    .apdu [0x90, 0x5A, 0x00, 0x00, 0x03, 0x01, 0x00, 0x00, 0x00],
    .apdu [0x90, 0xBD, 0x00, 0x00, 0x07, 0x01, 0x00, 0x00, 0x00, 0x00, 0x01, 0x00, 0x00]]

def readLastFile : ReaderEvent :=
  .apdu [0x90, 0xBD, 0x00, 0x00, 0x07, 0x08, 0x00, 0x00, 0x00, 0x10, 0x00, 0x00, 0x00]

theorem resumesInside_of_idle (h : st.listeners.desfire.session.pendingCmd = .none)
    (e : ReaderEvent) (out : Option (State cfg × Option Bytes)) : ResumesInside st e out := by
  rintro bytes apdu - - - - a kind f - - - hpending
  rw [h] at hpending
  cases kind <;> cases hpending

theorem reader_answers_first_file :
    eightFileStack.Serves ∧ reader.Always ResumesInside eightFileStack readFirstFile ∧
      reader.Always AnsweredOnce eightFileStack readFirstFile := by
  have hidle : reader.Always
      (fun st _ _ => st.listeners.desfire.session.pendingCmd = .none) eightFileStack
        readFirstFile := by decide +kernel
  have hinside : reader.Always ResumesInside eightFileStack readFirstFile :=
    Machine.Always.imp reader (I := fun _ => True)
      (fun _ e _ h => resumesInside_of_idle h e _) (fun _ _ _ _ _ _ _ => trivial) trivial hidle
  exact ⟨eightFileStack_serves, hinside,
    reader_answers eightFileStack eightFileStack_serves readFirstFile hinside⟩

theorem resumed_read_unanswered : eightFileStack.Serves ∧
      ¬ reader.Always AnsweredOnce eightFileStack (readFirstFile ++ [readLastFile]) := by
  refine ⟨eightFileStack_serves, fun h => ?_⟩
  have hlast : (reader.run eightFileStack readFirstFile).any fun r =>
      (reader.step r.1 readLastFile).isNone := by decide +kernel
  cases hrun : reader.run eightFileStack readFirstFile with
  | none =>
    rw [hrun] at hlast
    cases hlast
  | some r =>
    obtain ⟨st', rsp, hout, -⟩ := (Machine.Always.of_run reader [readLastFile] h hrun).1 _ rfl
    rw [hrun] at hlast
    have hnone := isNone_iff_eq_none.mp hlast
    cases hnone.symm.trans hout

end Stack

end NfcStack
