import NfcStack.Basic

/-!
# Services and the AID router

`nfc_service_t` of `router/service.h`: the handlers work on a memory `μ`, a region of which a service
owns, and answer `none` where the source leaves an array of it. `router/aid_router.c` has a table from
application identifiers to services, which are named by `ι`.
-/

namespace NfcStack

structure Service (μ : Type) where
  persistId : UInt8
  /-- The AID and the response. -/
  onSelect : Option (μ → Bytes → Option (μ × Option Bytes)) := none
  /-- The response, and whether the handler reports its service as dirty. -/
  onApdu : Option (μ → Apdu → Option (μ × Option Bytes × Bool)) := none
  onDeselect : Option (μ → μ) := none
  onFieldOff : Option (μ → μ) := none
  /-- The stored form, if it fits into so many bytes. -/
  serialize : Option (μ → ℕ → Option (μ × Except Errno Bytes))
  deserialize : Option (μ → Bytes → Option (μ × Ret))

variable {μ σ τ : Type}

namespace Service

variable (svc : Service μ) (m : μ)

def callSelect (aid : Bytes) : Option (μ × Option Bytes) :=
  match svc.onSelect with
  | none => some (m, none)
  | some f => f m aid

def callApdu (apdu : Apdu) : Option (μ × Option Bytes × Bool) :=
  match svc.onApdu with
  | none => some (m, none, false)
  | some f => f m apdu

def callDeselect : μ :=
  match svc.onDeselect with
  | none => m
  | some f => f m

def callFieldOff : μ :=
  match svc.onFieldOff with
  | none => m
  | some f => f m

def callDeserialize (bytes : Bytes) : Option (μ × Ret) :=
  match svc.deserialize with
  | none => some (m, .ok ())
  | some f => f m bytes

end Service

structure Region (μ σ : Type) where
  get : μ → σ
  set : μ → σ → μ
  get_set : ∀ m s, get (set m s) = s
  set_get : ∀ m, set m (get m) = m

namespace Service

def within (r : Region μ σ) (svc : Service σ) : Service μ where
  persistId := svc.persistId
  onSelect := svc.onSelect.map fun f m aid => (f (r.get m) aid).map fun x => (r.set m x.1, x.2)
  onApdu := svc.onApdu.map fun f m apdu => (f (r.get m) apdu).map fun x => (r.set m x.1, x.2)
  onDeselect := svc.onDeselect.map fun f m => r.set m (f (r.get m))
  onFieldOff := svc.onFieldOff.map fun f m => r.set m (f (r.get m))
  serialize := svc.serialize.map fun f m outMax =>
    (f (r.get m) outMax).map fun x => (r.set m x.1, x.2)
  deserialize := svc.deserialize.map fun f m bytes =>
    (f (r.get m) bytes).map fun x => (r.set m x.1, x.2)

variable (r : Region μ σ) (svc : Service σ) (m : μ)

theorem callSelect_within (aid : Bytes) :
    (svc.within r).callSelect m aid =
      (svc.callSelect (r.get m) aid).map fun x => (r.set m x.1, x.2) := by
  unfold callSelect within
  cases svc.onSelect with
  | none => simp [r.set_get]
  | some f => rfl

theorem callApdu_within (apdu : Apdu) :
    (svc.within r).callApdu m apdu =
      (svc.callApdu (r.get m) apdu).map fun x => (r.set m x.1, x.2) := by
  unfold callApdu within
  cases svc.onApdu with
  | none => simp [r.set_get]
  | some f => rfl

theorem callDeselect_within :
    (svc.within r).callDeselect m = r.set m (svc.callDeselect (r.get m)) := by
  unfold callDeselect within
  cases svc.onDeselect with
  | none => simp [r.set_get]
  | some f => rfl

theorem callFieldOff_within :
    (svc.within r).callFieldOff m = r.set m (svc.callFieldOff (r.get m)) := by
  unfold callFieldOff within
  cases svc.onFieldOff with
  | none => simp [r.set_get]
  | some f => rfl

theorem callDeserialize_within (bytes : Bytes) :
    (svc.within r).callDeserialize m bytes =
      (svc.callDeserialize (r.get m) bytes).map fun x => (r.set m x.1, x.2) := by
  unfold callDeserialize within
  cases svc.deserialize with
  | none => simp [r.set_get]
  | some f => rfl

end Service

end NfcStack

namespace NfcStack.Router

def aidMaxLen : ℕ := 16

structure Entry (ι : Type) where
  aid : Bytes
  svc : ι
deriving DecidableEq, Repr

structure State (ι : Type) where
  initialized : Bool
  table : List (Entry ι)
  active : Option ι
deriving DecidableEq, Repr

variable {ι μ : Type}

def State.down : State ι := ⟨false, [], none⟩

variable (st : State ι)

def init : State ι × Ret :=
  if st.initialized then (st, .error .ealready) else (⟨true, [], none⟩, .ok ())

def register (maxAids : ℕ) (st : State ι) (entry : Entry ι) : State ι × Ret :=
  if ¬ st.initialized then (st, .error .enodev)
  else if entry.aid.length = 0 ∨ aidMaxLen < entry.aid.length then (st, .error .einval)
  else if maxAids ≤ st.table.length then (st, .error .enomem)
  else ({ st with table := st.table ++ [entry] }, .ok ())

def clear : State ι := { st with table := [], active := none }

abbrev Outcome (ι μ : Type) := State ι × μ × Option Bytes × Option ι

def isSelectByAid (apdu : Apdu) : Bool :=
  apdu.cla == 0x00 && apdu.ins == 0xA4 && apdu.p1 == 0x04 && decide (0 < apdu.lc)

def State.findAid (aid : Bytes) : Option (Entry ι) :=
  st.table.find? (·.aid == aid)

/-- The identifier that `find_aid` compares: it takes the 16-bit length of the command as a
`uint8_t`. -/
def selectedAid (apdu : Apdu) : Bytes := apdu.data.take (apdu.lc % 256)

theorem selectedAid_of_lt {apdu : Apdu} (h : apdu.lc < 256) : selectedAid apdu = apdu.data := by
  rw [selectedAid, Nat.mod_eq_of_lt h]
  exact List.take_of_length_le le_rfl

def leave [DecidableEq ι] (services : ι → Service μ) (st : State ι) (m : μ) (svc : ι) : μ :=
  match st.active with
  | none => m
  | some old => if old ≠ svc then (services old).callDeselect m else m

def select [DecidableEq ι] (services : ι → Service μ) (st : State ι) (m : μ) (aid : Bytes)
    (svc : ι) : Option (Outcome ι μ) :=
  ((services svc).callSelect (leave services st m svc) aid).map fun r =>
    ({ st with active := some svc }, r.1, r.2, none)

def dispatch [DecidableEq ι] (services : ι → Service μ) (st : State ι) (m : μ) (apdu : Apdu) :
    Option (Outcome ι μ) :=
  if ¬ st.initialized then some (st, m, none, none)
  else if isSelectByAid apdu then
    match st.findAid (selectedAid apdu) with
    | none => some (st, m, some StatusWord.fileNotFound.bytes, none)
    | some entry => select services st m apdu.data entry.svc
  else
    match st.active with
    | none => some (st, m, some StatusWord.noEf.bytes, none)
    | some svc =>
      ((services svc).callApdu m apdu).map fun r =>
        (st, r.1, r.2.1, if r.2.2 then some svc else none)

def fieldOff (services : ι → Service μ) (st : State ι) (m : μ) : State ι × μ :=
  ({ st with active := none },
    match st.active with
    | none => m
    | some svc => (services svc).callFieldOff m)

section Memory

variable {services : ι → Service μ} {m m' : μ} {J : μ → Prop}

theorem leave_induction [DecidableEq ι] (st : State ι) {svc : ι} (h : J m)
    (hdeselect : ∀ old, old ≠ svc → J ((services old).callDeselect m)) :
    J (leave services st m svc) := by
  rw [leave]
  split
  · exact h
  · split
    · next hne => exact hdeselect _ hne
    · exact h

theorem fieldOff_induction (st : State ι) (h : J m)
    (hoff : ∀ svc, J ((services svc).callFieldOff m)) : J (fieldOff services st m).2 := by
  rw [fieldOff]
  cases st.active with
  | none => exact h
  | some svc => exact hoff svc

theorem dispatch_eq_some [DecidableEq ι] {st st' : State ι} {apdu : Apdu} {rsp : Option Bytes}
    {dirty : Option ι} (h : dispatch services st m apdu = some (st', m', rsp, dirty)) :
    (st' = st ∧ m' = m ∧ dirty = none) ∨ (dirty = none ∧
        ∃ svc, (services svc).callSelect (leave services st m svc) apdu.data = some (m', rsp)) ∨
      (st' = st ∧ ∃ svc reports, (services svc).callApdu m apdu = some (m', rsp, reports) ∧
        dirty = if reports then some svc else none) := by
  rw [dispatch] at h
  split at h
  · cases h
    exact .inl ⟨rfl, rfl, rfl⟩
  split at h
  · split at h
    · cases h
      exact .inl ⟨rfl, rfl, rfl⟩
    · next entry _ =>
      obtain ⟨⟨m₁, rsp₁⟩, hcall, heq⟩ := Option.map_eq_some_iff.mp h
      cases heq
      exact .inr (.inl ⟨rfl, entry.svc, hcall⟩)
  · split at h
    · cases h
      exact .inl ⟨rfl, rfl, rfl⟩
    · next svc _ =>
      obtain ⟨⟨m₁, rsp₁, reports⟩, hcall, heq⟩ := Option.map_eq_some_iff.mp h
      cases heq
      exact .inr (.inr ⟨rfl, svc, reports, hcall, rfl⟩)

end Memory

end NfcStack.Router
