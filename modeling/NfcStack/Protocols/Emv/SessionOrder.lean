import NfcStack.Protocols.Emv.RoundTrip
import NfcStack.Protocols.Emv.Wire

/-!
# Runs of the EMV listener

READ RECORD is answered only behind SELECT and GET PROCESSING OPTIONS. The cached responses are rebuilt
by an accepted load only, so one that is refused can leave them to describe another image.
-/

namespace NfcStack.Emv

open List Option CArray

inductive LifeEvent (cfg : Config)
  | init (image : Option (Image cfg))
  | load (bytes : Bytes)
  | reader (e : ReaderEvent)

variable {cfg : Config}

def life : Machine (State cfg) (LifeEvent cfg) (Ret × Option Bytes) where
  step st
    | .init image => (listenerInit st image).map fun st' => (st', .ok (), none)
    | .load bytes => (listenerDeserialize st bytes).map fun r => (r.1, r.2, none)
    | .reader e => (reader.step st e).map fun r => (r.1, .ok (), r.2)

def State.Current (st : State cfg) : Prop := rebuildWire st.image = some st.wire

instance (st : State cfg) : Decidable st.Current := inferInstanceAs (Decidable (_ = _))

variable {st st₀ t u : State cfg} {e : LifeEvent cfg} {r : Option Bytes}

theorem listenerInit_current {image : Option (Image cfg)} (h : listenerInit st₀ image = some st) :
    st.Current ∧ st.session = .idle := by
  obtain ⟨wire, hwire, rfl⟩ := map_eq_some_iff.mp h
  exact ⟨hwire, rfl⟩

variable {bytes : Bytes}

theorem listenerDeserialize_current
    (h : listenerDeserialize t bytes = some (u, .ok ())) : u.Current := by
  unfold listenerDeserialize at h
  split at h
  · cases h
  · cases h
  · obtain ⟨wire, hwire, hw⟩ := map_eq_some_iff.mp h
    cases hw
    exact hwire

theorem life_step_current (h : life.step t e = some (u, .ok (), r)) (ht : t.Current) :
    u.Current := by
  cases e with
  | init image =>
    obtain ⟨st', hinit, hp⟩ := map_eq_some_iff.mp h
    cases hp
    exact (listenerInit_current hinit).1
  | load bytes =>
    obtain ⟨⟨st', ret⟩, hload, hp⟩ := map_eq_some_iff.mp h
    cases hp
    exact listenerDeserialize_current hload
  | reader e =>
    obtain ⟨⟨st', r⟩, hstep, hp⟩ := map_eq_some_iff.mp h
    cases hp
    obtain ⟨himage, hwire, -⟩ := reader_step_image hstep
    rw [State.Current, himage, hwire]
    exact ht

def LifeEvent.IsApdu (e : LifeEvent cfg) : Prop := ∃ a, e = .reader (.apdu a)

def Selected (aid : Bytes) (log : List (LifeEvent cfg × Ret × Option Bytes)) : Prop :=
  ∃ before o since, log = before ++ (.reader (.select aid), o) :: since ∧
    ∀ p ∈ since, p.1.IsApdu

def Processed (aid : Bytes) (log : List (LifeEvent cfg × Ret × Option Bytes)) : Prop :=
  ∃ before a o since data, log = before ++ (.reader (.apdu a), o) :: since ∧ isGpo a ∧
    o.2 = some (data ++ [0x90, 0x00]) ∧ Selected aid before ∧ ∀ p ∈ since, p.1.IsApdu

structure State.Ordered (st : State cfg) (log : List (LifeEvent cfg × Ret × Option Bytes)) :
    Prop where
  selected : st.session = .appSelected → Selected st.image.aid log
  processed : st.session = .gpoDone → Processed st.image.aid log

variable {log : List (LifeEvent cfg × Ret × Option Bytes)}

theorem State.Ordered.of_idle (h : st.session = .idle) : st.Ordered log :=
  ⟨fun hs => by simp [hs] at h, fun hs => by simp [hs] at h⟩

variable {a : Apdu}

theorem State.Ordered.apdu (h : st.Ordered log) {o : Ret × Option Bytes} :
    st.Ordered (log ++ [(.reader (.apdu a), o)]) := by
  have hconcat : ∀ since : List (LifeEvent cfg × Ret × Option Bytes), (∀ p ∈ since, p.1.IsApdu) →
      ∀ p ∈ since ++ [(LifeEvent.reader (.apdu a), o)], p.1.IsApdu := by
    intro since hsince p hp
    rcases mem_append.mp hp with hp | hp
    · exact hsince p hp
    · rw [mem_singleton.mp hp]
      exact ⟨a, rfl⟩
  constructor
  · intro hsel
    obtain ⟨before, o', since, hlog, hsince⟩ := h.selected hsel
    exact ⟨before, o', _, by rw [hlog, append_assoc]; rfl, hconcat since hsince⟩
  · intro hgpo
    obtain ⟨before, a', o', since, data, hlog, ha, ho, hbefore, hsince⟩ := h.processed hgpo
    exact ⟨before, a', o', _, data, by rw [hlog, append_assoc]; rfl, ha, ho, hbefore,
      hconcat since hsince⟩

theorem onApdu_ordered {resp : Bytes} (h : onApdu t a = some (u, resp)) (ht : t.Current)
    (hlog : t.Ordered log) : u.Ordered (log ++ [(.reader (.apdu a), .ok (), some resp)]) := by
  obtain rfl | ⟨rfl, hgpo, hs, rfl⟩ := onApdu_cases h
  · exact hlog.apdu
  · have hlen : t.wire.gpo.length ≤ 253 := by
      obtain ⟨aid, -, hwire⟩ := map_eq_some_iff.mp ht
      simp [← hwire]
    exact ⟨nofun, fun _ => ⟨log, a, _, [], t.wire.gpo, rfl, hgpo,
      congrArg some (send_of_le hlen _), hlog.selected hs, by simp⟩⟩

theorem life_step_ordered (h : life.step t e = some (u, .ok (), r)) (ht : t.Current)
    (hlog : t.Ordered log) : u.Ordered (log ++ [(e, .ok (), r)]) := by
  cases e with
  | init image =>
    obtain ⟨st', hinit, hp⟩ := map_eq_some_iff.mp h
    cases hp
    exact .of_idle (listenerInit_current hinit).2
  | load bytes =>
    obtain ⟨⟨st', ret⟩, hload, hp⟩ := map_eq_some_iff.mp h
    cases hp
    exact .of_idle (listenerDeserialize_accepted hload).2
  | reader e =>
    obtain ⟨⟨st', r⟩, hstep, hp⟩ := map_eq_some_iff.mp h
    cases hp
    cases e with
    | select aid =>
      obtain ⟨⟨st', resp⟩, hsel, hp⟩ := map_eq_some_iff.mp hstep
      cases hp
      obtain ⟨session, rfl, hgpo, happ⟩ := onSelect_cases hsel
      exact ⟨fun hs => ⟨log, _, [], by rw [(happ hs).1], by simp⟩, fun hs => absurd hs hgpo⟩
    | apdu a =>
      obtain ⟨⟨st', resp⟩, hapdu, hp⟩ := map_eq_some_iff.mp hstep
      cases hp
      exact onApdu_ordered hapdu ht hlog
    | deselect | fieldOff =>
      cases hstep
      exact .of_idle rfl

theorem ordered_of_run {es : List (LifeEvent cfg)} {os : List (Ret × Option Bytes)}
    (hst : st.Current) (hidle : st.session = .idle) (hrun : life.run st es = some (t, os))
    (hok : ∀ o ∈ os, o.1 = .ok ()) : t.Current ∧ t.Ordered (es.zip os) := by
  -- there are as many outputs as events, so that the log grows at its end
  suffices h : es.length = os.length ∧
      ((∀ o ∈ os, o.1 = .ok ()) → t.Current ∧ t.Ordered (es.zip os)) from h.2 hok
  refine life.run_induction (P := fun es os t => es.length = os.length ∧
    ((∀ o ∈ os, o.1 = .ok ()) → t.Current ∧ t.Ordered (es.zip os))) ?_ ?_ hrun
  · exact ⟨rfl, fun _ => ⟨hst, .of_idle hidle⟩⟩
  · rintro es os t e u ⟨ret, r⟩ - ⟨hlen, ih⟩ hstep
    refine ⟨by simp [hlen], fun hok => ?_⟩
    obtain ⟨hcur, hlog⟩ := ih fun o ho => hok o (mem_append_left _ ho)
    obtain rfl : ret = .ok () := hok (ret, r) (by simp)
    rw [zip_append hlen]
    exact ⟨life_step_current hstep hcur, life_step_ordered hstep hcur hlog⟩

/-- In a run whose loads were all accepted, a READ RECORD that is answered with 9000 comes behind a
SELECT of the image's identifier and a GET PROCESSING OPTIONS answered with 9000, with nothing but
APDUs since the SELECT. -/
theorem readRecord_in_order {image : Option (Image cfg)} {es : List (LifeEvent cfg)}
    {os : List (Ret × Option Bytes)} {a : Apdu} {data : Bytes}
    (hinit : listenerInit st₀ image = some st) (hrun : life.run st es = some (t, os))
    (hok : ∀ o ∈ os, o.1 = .ok ()) (ha : isReadRecord a)
    (hstep : life.step t (.reader (.apdu a)) = some (u, .ok (), some (data ++ [0x90, 0x00]))) :
    Processed t.image.aid (es.zip os) := by
  obtain ⟨hcur, hidle⟩ := listenerInit_current hinit
  refine (ordered_of_run hcur hidle hrun hok).2.processed ?_
  obtain ⟨⟨st', resp⟩, hr, hp⟩ := map_eq_some_iff.mp hstep
  cases hp
  obtain ⟨⟨st', resp⟩, hapdu, hp⟩ := map_eq_some_iff.mp hr
  cases hp
  unfold onApdu at hapdu
  rw [if_neg (by simp [isGpo_of_isReadRecord ha]), if_pos ha] at hapdu
  cases hreq : readRecordRequest t a with
  | error sw =>
    -- a refusal is no 9000
    rw [hreq] at hapdu
    obtain ⟨hlen, hsw⟩ := readRecordRequest_error hreq
    exact absurd (Prod.mk.inj (some.inj hapdu)).2 (send_error_ne_ok hlen hsw)
  | ok recNo => exact (readRecordRequest_ok hreq).1

def defaultListener : State .default := (listenerInit .boot none).getD .boot

def defaultSession : List (LifeEvent .default) :=
  (readRecordTrace defaultListener.image 1).map .reader

theorem default_readRecord_in_order :
    ∃ t os, life.run defaultListener (defaultSession.take 2) = some (t, os) ∧
      Processed t.image.aid ((defaultSession.take 2).zip os) := by
  have hsome : (life.run defaultListener (defaultSession.take 2)).isSome := by decide +kernel
  obtain ⟨⟨t, os⟩, hrun⟩ := isSome_iff_exists.mp hsome
  have hall : ∀ r ∈ life.run defaultListener (defaultSession.take 2), (∀ o ∈ r.2, o.1 = .ok ()) ∧
      life.step r.1 (.reader (.apdu ⟨0x00, 0xB2, 1, 0x0C, [], 0, false, false⟩)) =
        some (r.1, .ok (), some ((r.1.image.record? 0).getD [] ++ [0x90, 0x00])) := by
    decide +kernel
  obtain ⟨hok, hstep⟩ := hall _ hrun
  have hinit : listenerInit .boot none = some defaultListener := by decide +kernel
  exact ⟨t, os, hrun, readRecord_in_order hinit hrun hok (by decide) hstep⟩

def recordsEnd : ℕ → Bytes → Option Bytes
  | 0, rest => some rest
  | _ + 1, [] => none
  | n + 1, len :: rest =>
    if rest.length < len.toNat then none else recordsEnd n (rest.drop len.toNat)

def isStoredImage (bytes : Bytes) : Bool :=
  byteAt bytes 0 == formatVersion && byteAt bytes 65 != 0 &&
    decide ((byteAt bytes 65).toNat ≤ appAidMaxBytes) &&
    recordsEnd (byteAt bytes 82).toNat (bytes.drop recordsOffset) == some []

def headerImage (cfg : Config) (bytes : Bytes) : Image cfg :=
  if byteAt bytes 0 = formatVersion then readHeader bytes else .reset

structure Image.SameWire (image image' : Image cfg) : Prop where
  appAidLen : image.appAidLen = image'.appAidLen
  aid : image.aid = image'.aid
  aip : image.aip = image'.aip
  afl : image.afl = image'.afl

instance (image image' : Image cfg) : Decidable (image.SameWire image') :=
  decidable_of_iff (image.appAidLen = image'.appAidLen ∧ image.aid = image'.aid ∧
    image.aip = image'.aip ∧ image.afl = image'.afl)
    ⟨fun h => ⟨h.1, h.2.1, h.2.2.1, h.2.2.2⟩, fun h => ⟨h.1, h.2, h.3, h.4⟩⟩

def staleLoad (st : State cfg) : LifeEvent cfg → Bool
  | .load bytes => decide (84 ≤ bytes.length) && !isStoredImage bytes &&
      !decide ((headerImage cfg bytes).SameWire st.image)
  | _ => false

theorem deserializeRecords_header {n i : ℕ} {image image' : Image cfg} {rest : Bytes}
    {r : Except Errno Bytes} (h : (deserializeRecords n i image rest).2 = some (image', r)) :
    image.SameHeader image' ∧ r.toOption = recordsEnd n rest := by
  induction n generalizing i image rest with
  | zero =>
    cases h
    exact ⟨.refl _, rfl⟩
  | succ n ih =>
    cases rest with
    | nil =>
      cases h
      exact ⟨.refl _, rfl⟩
    | cons len rest =>
      simp only [deserializeRecords] at h
      split at h
      · split at h
        · next hlen =>
          cases h
          exact ⟨⟨rfl, rfl, rfl, rfl, rfl, rfl, rfl, rfl, rfl, rfl, rfl⟩,
            by simp [recordsEnd, hlen, Except.toOption]⟩
        next hlen =>
        split at h
        · cases h
        · obtain ⟨hsame, hend⟩ := ih h
          rw [hend, recordsEnd, if_neg hlen]
          exact ⟨⟨hsame.1, hsame.2, hsame.3, hsame.4, hsame.5, hsame.6, hsame.7, hsame.8, hsame.9,
            hsame.10, hsame.11⟩, rfl⟩
      · cases h

variable {ret : Ret}

theorem deserialize_header {image image' : Image cfg}
    (hlen : 84 ≤ bytes.length) (h : (deserialize image bytes).2 = some (image', ret)) :
    image'.SameWire (headerImage cfg bytes) ∧ (ret = .ok () ↔ isStoredImage bytes) := by
  unfold deserialize at h
  rw [if_neg (by omega)] at h
  split at h
  · next hv =>
    cases h
    rw [headerImage, if_neg hv]
    exact ⟨⟨rfl, rfl, rfl, rfl⟩, by simp [isStoredImage, hv]⟩
  next hv =>
  have hv := not_not.mp hv
  rw [headerImage, if_pos hv]
  split at h
  · next haid =>
    cases h
    exact ⟨⟨rfl, rfl, rfl, rfl⟩, by simp [isStoredImage, haid]⟩
  next haid =>
  obtain ⟨⟨im, r⟩, hr, hfin⟩ := map_eq_some_iff.mp h
  obtain ⟨hsame, hend⟩ := deserializeRecords_header hr
  have hwire : im.SameWire (readHeader bytes) :=
    ⟨hsame.appAidLen, by rw [Image.aid, hsame.appAidLen, hsame.appAid]; rfl, hsame.aip, hsame.afl⟩
  have hpos : im.appAidLen = byteAt bytes 65 := hsame.appAidLen
  cases r with
  | error e =>
    cases hfin
    exact ⟨hwire, by simp [isStoredImage, ← hend, Except.toOption]⟩
  | ok rest =>
    obtain ⟨rfl, rfl⟩ := Prod.mk.inj hfin
    refine ⟨hwire, ?_⟩
    by_cases hrest : rest = [] <;> by_cases h0 : byteAt bytes 65 = 0 <;>
      simp [isStoredImage, ← hend, hrest, h0, rebuildCaches, hpos, hv, haid, Nat.le_of_not_lt haid,
        Except.toOption]

variable {image image' : Image cfg} {wire : Wire}

theorem Image.read?_aid (h : image.appAidLen.toNat ≤ appAidMaxBytes) :
    image.appAid.read? 0 image.appAidLen.toNat = some image.aid :=
  read?_of_le _ (by simpa using h)

theorem rebuildWire_aid (h : rebuildWire image = some wire) :
    image.appAid.read? 0 image.appAidLen.toNat = some image.aid := by
  obtain ⟨aid, hread, -⟩ := map_eq_some_iff.mp h
  exact Image.read?_aid (by simpa using ((read?_eq_some_iff _ _ _ _).mp hread).1)

theorem rebuildWire_eq_iff (h : rebuildWire image' = some wire) :
    rebuildWire image = some wire ↔ image.SameWire image' := by
  have hread' := rebuildWire_aid h
  constructor
  · intro h₀
    have hread := rebuildWire_aid h₀
    rw [← h, rebuildWire, rebuildWire, hread, hread'] at h₀
    simp only [map_some, some.injEq, Wire.mk.injEq] at h₀
    obtain ⟨-, happ, hgpo⟩ := h₀
    obtain ⟨hlen, haid⟩ : image.appAidLen = image'.appAidLen ∧ image.aid = image'.aid := by
      simpa using happ
    have hgpo : image.aip.toList ++ image.afl.toList =
        image'.aip.toList ++ image'.afl.toList := by simpa using hgpo
    obtain ⟨haip, hafl⟩ := append_inj hgpo (by simp)
    exact ⟨hlen, haid, CArray.ext haip, CArray.ext hafl⟩
  · rintro ⟨hlen, haid, haip, hafl⟩
    have hle := ((read?_eq_some_iff _ _ _ _).mp hread').1
    rw [← h, rebuildWire, rebuildWire, hread', Image.read?_aid (by simpa [hlen] using hle), hlen,
      haid, haip, hafl]

theorem listenerDeserialize_refused {err : Errno}
    (h : listenerDeserialize t bytes = some (u, .error err)) :
    (deserialize t.image bytes).2 = some (u.image, .error err) ∧ u.wire = t.wire := by
  unfold listenerDeserialize at h
  split at h
  · cases h
  · next hd =>
    cases h
    exact ⟨hd, rfl⟩
  · obtain ⟨wire, -, hw⟩ := map_eq_some_iff.mp h
    cases hw

theorem load_current_iff (ht : t.Current) (h : listenerDeserialize t bytes = some (u, ret)) :
    u.Current ↔ staleLoad t (.load bytes) = false := by
  cases ret with
  | ok _ =>
    have hstored := (listenerDeserialize_accepted h).1
    refine iff_of_true (listenerDeserialize_current h) ?_
    by_cases hlen : 84 ≤ bytes.length
    · simp [staleLoad, (deserialize_header hlen hstored).2.mp rfl]
    · simp [staleLoad, hlen]
  | error err =>
    obtain ⟨hd, hwire⟩ := listenerDeserialize_refused h
    rw [State.Current, hwire, rebuildWire_eq_iff ht]
    by_cases hlen : 84 ≤ bytes.length
    · obtain ⟨hsame, hok⟩ := deserialize_header hlen hd
      have hok : isStoredImage bytes = false := by simpa using hok
      have hsame : u.image.SameWire t.image ↔ (headerImage cfg bytes).SameWire t.image :=
        ⟨fun h => ⟨hsame.1.symm.trans h.1, hsame.2.symm.trans h.2, hsame.3.symm.trans h.3,
          hsame.4.symm.trans h.4⟩, fun h => ⟨hsame.1.trans h.1, hsame.2.trans h.2,
          hsame.3.trans h.3, hsame.4.trans h.4⟩⟩
      simp [staleLoad, hlen, hok, hsame]
    · have hd' : deserialize t.image bytes = ([], some (t.image, .error .einval)) :=
        if_pos (by omega)
      rw [hd'] at hd
      obtain ⟨himage, -⟩ := Prod.mk.inj (some.inj hd)
      exact iff_of_true (himage ▸ ⟨rfl, rfl, rfl, rfl⟩) (by simp [staleLoad, hlen])

/-- From an initialised listener on, the cached responses stay those of the image exactly in the
runs without a stale load. -/
theorem wire_current_iff {image : Option (Image cfg)} (h : listenerInit st₀ image = some st)
    (es : List (LifeEvent cfg)) :
    st.Current ∧ (life.Always (fun _ _ out => ∀ r ∈ out, r.1.Current) st es ↔
      life.Always (fun st e out => out.isSome = true → staleLoad st e = false) st es) := by
  obtain ⟨hcur, -⟩ := listenerInit_current h
  -- of all events only a load can leave other responses behind
  have hload : ∀ t e (r : State cfg × Ret × Option Bytes), t.Current → life.step t e = some r →
      (r.1.Current ↔ staleLoad t e = false) := by
    rintro t e ⟨u, ret, resp⟩ ht hstep
    cases e with
    | load bytes =>
      obtain ⟨⟨u', ret'⟩, hl, hp⟩ := map_eq_some_iff.mp hstep
      cases hp
      exact load_current_iff ht hl
    | init image =>
      obtain ⟨u', -, hp⟩ := map_eq_some_iff.mp hstep
      cases hp
      exact iff_of_true (life_step_current hstep ht) rfl
    | reader e =>
      obtain ⟨p, -, hp⟩ := map_eq_some_iff.mp hstep
      cases hp
      exact iff_of_true (life_step_current hstep ht) rfl
  refine ⟨hcur, life.always_iff_of_fails ?_ ?_ hcur⟩
  · intro t e r ht hstep hf
    have := (hload t e r ht hstep).mpr hf
    exact ⟨this, this⟩
  · intro t e r ht hstep hf hr
    rw [(hload t e r ht hstep).mp hr] at hf
    cases hf

def overlongImage : Bytes :=
  [formatVersion] ++ List.replicate 64 0 ++ [1] ++ List.replicate 16 0xA0 ++ [0, 0]

def recordImage : Bytes := overlongImage.take 82 ++ [1, 2, 0x70, 0x00]

theorem loaded_wire_current :
    (life.step defaultListener (.load recordImage)).map (·.2.1) = some (.ok ()) ∧
      life.Always (fun _ _ out => ∀ r ∈ out, r.1.Current) defaultListener [.load recordImage] := by
  have hinit : listenerInit .boot none = some defaultListener := by decide +kernel
  exact ⟨by decide +kernel, (wire_current_iff hinit _).2.mpr (by decide +kernel)⟩

theorem stale_wire : listenerInit .boot none = some defaultListener ∧
    ¬ life.Always (fun _ _ out => ∀ r ∈ out, r.1.Current) defaultListener
      [.load overlongImage] := by
  decide +kernel

end NfcStack.Emv
