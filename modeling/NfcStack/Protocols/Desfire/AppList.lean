import NfcStack.Protocols.Desfire.Capture

/-!
# The list of applications

`desfire_poller_i_read_application_ids` cuts the number of identifiers to the size of the model, but
first it refuses a list that is empty or does not fit.
-/

namespace NfcStack.Desfire

open List CArray NfcStack.Reader Hoare Poll

variable {τ : Type} {cfg : Config} (s : Reader.Session τ)

def Application.unread (appId : CArray UInt8 3) : Application cfg :=
  { (Application.reset : Application cfg) with appId }

def readableApps (cfg : Config) (fuel : ℕ) (stale : ℕ → ℕ → Stale) :
    (ids : List (CArray UInt8 3)) → (ai : ℕ) → Poll τ (List (Application cfg))
  | [], _ => return []
  | id :: ids, ai => do
    match ← pollerSelectApplication s id.toList with
    | .error _ => readableApps cfg fuel stale ids (ai + 1)
    | .ok () =>
      match ← pollerReadApplication s fuel (stale ai) (Application.unread id) with
      | (_, .error _) => readableApps cfg fuel stale ids (ai + 1)
      | (app, .ok ()) => (app :: ·) <$> readableApps cfg fuel stale ids (ai + 1)

def Data.kept (data : Data cfg) : List (Application cfg) :=
  data.apps.slice 0 data.appCount.toNat

def Application.Blank (app : Application cfg) : Prop :=
  ∃ keySettings keyCount, app = { Application.unread app.appId with keySettings, keyCount }

def Data.Spare (data : Data cfg) : Prop :=
  ∀ i app, data.appCount.toNat ≤ i → data.apps.get? i = some app → app.Blank

section Slots

variable {data : Data cfg} {app : Application cfg}

theorem Data.kept_putApp (app : Application cfg) : (data.putApp app).kept = data.kept :=
  slice_set_of_le _ le_rfl _

theorem Data.kept_keepApp (h : data.appCount.toNat < cfg.maxApps) (app : Application cfg) :
    (data.keepApp app).kept = data.kept ++ [app] := by
  rw [Data.kept, Data.toNat_appCount_keepApp h]
  exact slice_set_succ _ h _

theorem Data.Spare.putApp (h : data.Spare) (happ : app.Blank) : (data.putApp app).Spare := by
  intro i a hi ha
  rcases get?_set_cases ha with ⟨-, rfl⟩ | ⟨-, hold⟩
  · exact happ
  · exact h i a hi hold

theorem Data.Spare.keepApp (h : data.Spare) (hslot : data.appCount.toNat < cfg.maxApps) :
    (data.keepApp app).Spare := by
  intro i a hi ha
  rw [Data.toNat_appCount_keepApp hslot] at hi
  have hne : data.appCount.toNat ≠ i := by omega
  have hold : data.apps.get? i = some a := by
    rw [← ha]
    exact (get?_set_ne _ hne _).symm
  exact h i a (by omega) hold

end Slots

section Reading

variable (fuel : ℕ)

/-- In a blank slot an application is read as if it were alone: it fails in the same way and leaves
the slot blank, or the slot has what is read of it. -/
theorem pollerReadApplication_blank {app : Application cfg} (h : app.Blank) (stale : ℕ → Stale)
    (t : τ) :
    (pollerReadApplication s fuel stale app t = none ∧
      pollerReadApplication s fuel stale (Application.unread app.appId : Application cfg) t = none) ∨
    (∃ (a a' : Application cfg) (e : Errno) (t' : τ), a.Blank ∧
      pollerReadApplication s fuel stale app t = some ((a, .error e), t') ∧
      pollerReadApplication s fuel stale (Application.unread app.appId) t =
        some ((a', .error e), t')) ∨
    ∃ a t', pollerReadApplication s fuel stale app t = some ((a, .ok ()), t') ∧
      pollerReadApplication s fuel stale (Application.unread app.appId) t =
        some ((a, .ok ()), t') := by
  obtain ⟨keySettings, keyCount, happ⟩ := h
  simp only [pollerReadApplication]
  cases hkeys : pollerReadKeySettings s fuel t with
  | none => exact .inl ⟨bind_of_none hkeys _, bind_of_none hkeys _⟩
  | some r =>
    obtain ⟨r, t₁⟩ := r
    rw [bind_of_eq hkeys, bind_of_eq hkeys]
    cases r with
    | error e =>
      by_cases he : e = .eacces
      · simp only [if_pos he]
        refine .inr (.inr ⟨{ Application.unread app.appId with
          keySettings := 0, keyCount := 0, fileCount := 0 }, t₁, ?_, rfl⟩)
        rw [happ]
        rfl
      · simp only [if_neg he]
        exact .inr (.inl ⟨app, _, e, t₁, ⟨keySettings, keyCount, happ⟩, rfl, rfl⟩)
    | ok ks =>
      dsimp only
      cases hids : pollerReadFileIds s cfg fuel t₁ with
      | none => exact .inl ⟨bind_of_none hids _, bind_of_none hids _⟩
      | some r =>
        obtain ⟨r, t₂⟩ := r
        rw [bind_of_eq hids, bind_of_eq hids]
        cases r with
        | error e =>
          refine .inr (.inl ⟨{ app with keySettings := ks.1, keyCount := ks.2 }, _, e, t₂, ?_, rfl,
            rfl⟩)
          refine ⟨ks.1, ks.2, ?_⟩
          rw [happ]
          rfl
        | ok fileIds =>
          have hsame : { app with keySettings := ks.1, keyCount := ks.2, fileCount := 0 } =
              { (Application.unread app.appId : Application cfg) with
                keySettings := ks.1, keyCount := ks.2, fileCount := 0 } := by
            rw [happ]
            rfl
          rw [hsame]
          cases hfiles : pollerReadFiles s fuel stale fileIds 0
              { (Application.unread app.appId : Application cfg) with
                keySettings := ks.1, keyCount := ks.2, fileCount := 0 } t₂ with
          | none => exact .inl ⟨map_of_none hfiles _, map_of_none hfiles _⟩
          | some r =>
            obtain ⟨a, t₃⟩ := r
            exact .inr (.inr ⟨a, t₃, map_of_eq hfiles _, map_of_eq hfiles _⟩)

theorem Data.Spare.nextApp {data : Data cfg} (h : data.Spare)
    (hslot : data.appCount.toNat < cfg.maxApps) (appId : Bytes) :
    (data.nextApp hslot appId).Blank := by
  obtain ⟨keySettings, keyCount, happ⟩ := h _ _ le_rfl (data.apps.get?_coe ⟨_, hslot⟩)
  refine ⟨keySettings, keyCount, ?_⟩
  rw [Data.nextApp, happ]
  rfl

theorem Data.appId_nextApp {data : Data cfg} (hslot : data.appCount.toNat < cfg.maxApps)
    (id : CArray UInt8 3) : (data.nextApp hslot id.toList).appId = id :=
  ofList_toList id 0

theorem pollerReadApplications_rel (stale : ℕ → ℕ → Stale) {appIds : Bytes}
    (ids : List (CArray UInt8 3)) (ai : ℕ) (data : Data cfg)
    (hroom : data.appCount.toNat + ids.length ≤ cfg.maxApps) (hspare : data.Spare)
    (hids : ∀ j id, ids[j]? = some id → appIdAt appIds (ai + j) = id.toList) (t : τ) :
    (pollerReadApplications s fuel stale appIds ids.length ai data t = none ∧
      readableApps s cfg fuel stale ids ai t = none) ∨
    ∃ data' apps t', pollerReadApplications s fuel stale appIds ids.length ai data t =
        some (data', t') ∧
      readableApps s cfg fuel stale ids ai t = some (apps, t') ∧
      data'.kept = data.kept ++ apps := by
  induction ids generalizing ai data t with
  | nil => exact .inr ⟨data, [], t, rfl, rfl, (append_nil _).symm⟩
  | cons id ids ih =>
    rw [length_cons] at hroom
    have hslot : data.appCount.toNat < cfg.maxApps := by omega
    have hid : appIdAt appIds ai = id.toList := hids 0 id rfl
    have hrest : ∀ j id, ids[j]? = some id → appIdAt appIds (ai + 1 + j) = id.toList := by
      intro j id' hj
      rw [Nat.add_right_comm]
      exact hids (j + 1) id' hj
    simp only [length_cons, pollerReadApplications, dif_pos hslot, readableApps, hid]
    cases hsel : pollerSelectApplication s id.toList t with
    | none => exact .inl ⟨bind_of_none hsel _, bind_of_none hsel _⟩
    | some r =>
      obtain ⟨r, t₁⟩ := r
      rw [bind_of_eq hsel, bind_of_eq hsel]
      cases r with
      | error e => exact ih (ai + 1) data (by omega) hspare hrest t₁
      | ok =>
        have hread := pollerReadApplication_blank s fuel (hspare.nextApp hslot id.toList) (stale ai) t₁
        rw [Data.appId_nextApp hslot id] at hread
        rcases hread with ⟨hx, hy⟩ | ⟨a, a', e, t₂, hblank, hx, hy⟩ | ⟨a, t₂, hx, hy⟩
        · exact .inl ⟨bind_of_none hx _, bind_of_none hy _⟩
        · -- the application failed, and its slot is used for the next one
          dsimp only
          rw [bind_of_eq hx, bind_of_eq hy]
          have hput : (data.putApp a).appCount.toNat + ids.length ≤ cfg.maxApps := by
            show data.appCount.toNat + ids.length ≤ cfg.maxApps
            omega
          have hnext := ih (ai + 1) (data.putApp a) hput (hspare.putApp hblank) hrest t₂
          rw [Data.kept_putApp] at hnext
          exact hnext
        · dsimp only
          rw [bind_of_eq hx, bind_of_eq hy]
          have hcount : (data.keepApp a).appCount.toNat = data.appCount.toNat + 1 :=
            Data.toNat_appCount_keepApp hslot
          have hnext := ih (ai + 1) (data.keepApp a) (by omega) (hspare.keepApp hslot)
            hrest t₂
          rw [Data.kept_keepApp hslot] at hnext
          rcases hnext with ⟨hx, hy⟩ | ⟨data', apps, t', hx, hy, hkept⟩
          · exact .inl ⟨hx, map_of_none hy _⟩
          · exact .inr ⟨data', a :: apps, t', hx, map_of_eq hy _, by rw [hkept]; simp⟩

end Reading

def getApplicationIds : Bytes := [0x90, 0x6A, 0x00, 0x00, 0x00]

/-- The card is read, and the applications of the model are those that can be read of the first ones
in the list, as many as the model has room for. -/
def ReadsApplications (cfg : Config) (fuel : ℕ) (stale : ℕ → ℕ → Stale) (t t₂ : τ)
    (ids : List (CArray UInt8 3)) : Prop :=
  ∃ (data : Data cfg) (apps : List (Application cfg)) (t' : τ),
    pollerRead s cfg fuel stale t = some ((data, .ok ()), t') ∧
    readableApps s cfg fuel stale (ids.take cfg.maxApps) 0 t₂ = some (apps, t') ∧
    data.appCount.toNat = apps.length ∧ data.kept = apps

section Card

variable {s} {fuel : ℕ} {stale : ℕ → ℕ → Stale} {t t₁ t₂ : τ} {picc : Data cfg}
  {ids : List (CArray UInt8 3)} {r : Except Errno (Bytes × UInt8) × τ}

theorem appIdAt_flatMap {j : ℕ} {id : CArray UInt8 3} (h : ids[j]? = some id) :
    appIdAt (ids.flatMap (·.toList)) j = id.toList := by
  induction ids generalizing j with
  | nil => cases h
  | cons head ids ih =>
    rw [appIdAt, flatMap_cons]
    cases j with
    | zero =>
      cases h
      exact take_left' id.length_toList
    | succ j =>
      rw [Nat.succ_mul, Nat.add_comm, ← drop_drop, drop_left' head.length_toList]
      exact ih h

theorem length_flatMap_ids (ids : List (CArray UInt8 3)) :
    (ids.flatMap (·.toList)).length = ids.length * 3 := by
  induction ids with
  | nil => rfl
  | cons id ids ih =>
    rw [flatMap_cons, length_append, id.length_toList, length_cons]
    omega

theorem pollerReadApplicationIds_of_list (cfg : Config)
    (hids : sendChunks s fuel maxResponseLen getApplicationIds t₁ =
      some (.ok (ids.flatMap (·.toList)), t₂)) :
    pollerReadApplicationIds s cfg fuel t₁ = some
      (if ids = [] then .error .ebadmsg else if cfg.maxApps < ids.length then .error .enospc
        else .ok (ids.flatMap (·.toList), UInt8.ofNat ids.length), t₂) := by
  have hlen := length_flatMap_ids ids
  rw [getApplicationIds] at hids
  rw [pollerReadApplicationIds, bind_of_eq hids]
  dsimp only
  by_cases hnil : ids = []
  · rw [if_pos (.inl (by rw [hnil]; rfl)), if_pos hnil]
    rfl
  have hpos : 0 < ids.length := length_pos_iff.mpr hnil
  rw [if_neg (by omega), if_neg hnil]
  by_cases hfit : cfg.maxApps < ids.length
  · rw [if_pos (by omega), if_pos hfit]
    rfl
  · have hmin : min ((ids.flatMap (·.toList)).length / 3) cfg.maxApps = ids.length := by
      omega
    rw [if_neg (by omega), if_neg hfit, hmin]
    rfl

theorem not_readsApplications_of_error {e : Errno}
    (h : (pollerRead s cfg fuel stale t).map (fun r => r.1.2) = some (.error e)) :
    ¬ ReadsApplications s cfg fuel stale t t₂ ids := by
  rintro ⟨data, apps, t', hread, -⟩
  rw [hread] at h
  cases h

theorem pollerRead_of_picc (hpicc : pollerReadPicc s cfg fuel t = some ((picc, .ok true), t₁))
    (hlist : pollerReadApplicationIds s cfg fuel t₁ = some r) :
    pollerRead s cfg fuel stale t =
      (match r.1 with
      | .error e => pure (picc, if e = .eacces then .ok () else .error e)
      | .ok (appIds, count) => (·, .ok ()) <$>
          pollerReadApplications s fuel stale appIds count.toNat 0
            { picc with appCount := 0 } : Poll τ _) r.2 := by
  rw [pollerRead, bind_of_eq hpicc]
  refine (bind_of_eq hlist _).trans ?_
  rcases r with ⟨e | ok, t₂⟩ <;> rfl

theorem spare_of_pollerReadPicc {r : Except Errno Bool}
    (hpicc : pollerReadPicc s cfg fuel t = some ((picc, r), t₁)) :
    ({ picc with appCount := 0 } : Data cfg).Spare := by
  intro i app _ happ
  have hclear : picc.apps = .fill _ .reset := (ensures_pollerReadPicc s fuel _ _ _ hpicc).2
  rw [show ({ picc with appCount := 0 } : Data cfg).apps = .fill _ .reset from hclear] at happ
  rw [eq_of_mem_replicate (mem_of_getElem? happ)]
  exact ⟨0, 0, rfl⟩

/-- The card may be read without a key (its directory is free) and lists these applications. It is
read with the applications that can be read of the first ones, as many as there is room for, if and
only if there is at least one and no more than there is room for, and the tag's answers about them
come to an end. -/
theorem pollerRead_applications_iff
    (hpicc : pollerReadPicc s cfg fuel t = some ((picc, .ok true), t₁))
    (hids : sendChunks s fuel maxResponseLen getApplicationIds t₁ =
      some (.ok (ids.flatMap (·.toList)), t₂)) :
    ReadsApplications s cfg fuel stale t t₂ ids ↔ (1 ≤ ids.length ∧ ids.length ≤ cfg.maxApps) ∧
      ∃ r, readableApps s cfg fuel stale ids 0 t₂ = some r := by
  have hlist := pollerReadApplicationIds_of_list cfg hids
  have hrange := cfg.maxApps_range.2
  by_cases hnil : ids = []
  · rw [if_pos hnil] at hlist
    refine iff_of_false (not_readsApplications_of_error (e := .ebadmsg) ?_) (by simp [hnil])
    rw [pollerRead_of_picc hpicc hlist]
    rfl
  rw [if_neg hnil] at hlist
  have hpos : 0 < ids.length := length_pos_iff.mpr hnil
  by_cases hfit : cfg.maxApps < ids.length
  · rw [if_pos hfit] at hlist
    refine iff_of_false (not_readsApplications_of_error (e := .enospc) ?_) (by omega)
    rw [pollerRead_of_picc hpicc hlist]
    rfl
  rw [if_neg hfit] at hlist
  have hcount : (UInt8.ofNat ids.length).toNat = ids.length := by
    rw [UInt8.toNat_ofNat']
    omega
  have htake : ids.take cfg.maxApps = ids := take_of_length_le (Nat.not_lt.mp hfit)
  have hread : pollerRead s cfg fuel stale t = ((·, .ok ()) <$>
      pollerReadApplications s fuel stale (ids.flatMap (·.toList)) ids.length 0
        { picc with appCount := 0 }) t₂ := by
    rw [pollerRead_of_picc hpicc hlist]
    simp [hcount]
  have hrel := pollerReadApplications_rel s fuel stale ids 0 { picc with appCount := 0 }
    (by simpa using Nat.not_lt.mp hfit) (spare_of_pollerReadPicc hpicc)
    (fun j id hj => by rw [Nat.zero_add]; exact appIdAt_flatMap hj) t₂
  rcases hrel with ⟨hx, hy⟩ | ⟨data', apps, t', hx, hy, hkept⟩
  · refine iff_of_false ?_ ?_
    · rintro ⟨data, apps, t', hdata, -⟩
      rw [hread, map_of_none hx] at hdata
      cases hdata
    · rintro ⟨-, r, hr⟩
      rw [hy] at hr
      cases hr
  · refine iff_of_true ?_ ⟨⟨hpos, Nat.not_lt.mp hfit⟩, _, hy⟩
    have hdata : pollerRead s cfg fuel stale t = some ((data', .ok ()), t') := by
      rw [hread, map_of_eq hx]
    have hempty : ({ picc with appCount := 0 } : Data cfg).kept = [] := slice_zero _ _
    rw [hempty, nil_append] at hkept
    refine ⟨data', apps, t', hdata, by rw [htake]; exact hy, ?_, hkept⟩
    have hle := (valid_pollerRead s fuel stale hdata).1.appCount
    rw [← hkept, Data.kept, length_slice _ (by omega)]

end Card

def directoryTag (appIds : Bytes) : Reader.Session Unit := piccTag 1 appIds fun _ => [0x91, 0x00]

def directoryPicc : Data .default :=
  { (parseVersion (List.replicate 28 0x04) .reset : Data .default) with masterKeySettings := 0x0F }

theorem pollerRead_two_applications :
    ReadsApplications (directoryTag [1, 2, 3, 4, 5, 6]) .default 1 noStale () ()
      [.ofList 3 0 [1, 2, 3], .ofList 3 0 [4, 5, 6]] := by
  have hpicc : pollerReadPicc (directoryTag [1, 2, 3, 4, 5, 6]) .default 1 () =
      some ((directoryPicc, .ok true), ()) := by decide +kernel
  exact (pollerRead_applications_iff hpicc (by decide +kernel)).mpr
    ⟨by decide, Option.isSome_iff_exists.mp (by decide +kernel)⟩

/-- A card without applications ends the read with `EBADMSG`, and one with five of them with
`ENOSPC`. -/
theorem pollerRead_no_or_five_applications :
    ¬ ReadsApplications (directoryTag []) .default 1 noStale () () [] ∧
      (pollerRead (directoryTag []) .default 1 noStale ()).map (fun r => r.1.2) =
        some (.error .ebadmsg) ∧
      ¬ ReadsApplications (directoryTag (List.replicate 15 1)) .default 1 noStale () ()
        (List.replicate 5 (.fill 3 1)) ∧
      (pollerRead (directoryTag (List.replicate 15 1)) .default 1 noStale ()).map
        (fun r => r.1.2) = some (.error .enospc) := by
  have hnone : (pollerRead (directoryTag []) .default 1 noStale ()).map (fun r => r.1.2) =
      some (.error .ebadmsg) := by decide +kernel
  have hfive : (pollerRead (directoryTag (List.replicate 15 1)) .default 1 noStale ()).map
      (fun r => r.1.2) = some (.error .enospc) := by decide +kernel
  exact ⟨not_readsApplications_of_error hnone, hnone, not_readsApplications_of_error hfive, hfive⟩

end NfcStack.Desfire
