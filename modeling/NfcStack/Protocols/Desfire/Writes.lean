import NfcStack.Protocols.Desfire.Capture
import NfcStack.Reader.Stream

/-!
# What the DESFire poller writes

The poller compares the room with the size of the chunk it asks for. A longer chunk is compared with what
remains of the file, so the bytes stay in its row, and they were received for it (`pollerRead_writes`).
-/

namespace NfcStack.Desfire

open List CArray NfcStack.Reader Hoare Poll

variable {τ : Type} {cfg : Config} (s : Reader.Session τ)

def payloads (seg : List Exchange) : Bytes :=
  seg.flatMap fun e =>
    match e.2 with
    | .error _ => []
    | .ok rx => Ndef.payload rx

theorem payloads_append (seg seg' : List Exchange) :
    payloads (seg ++ seg') = payloads seg ++ payloads seg' := flatMap_append

/-! ## Frames -/

def selectApplication (appId : Bytes) : Bytes := [0x90, 0x5A, 0x00, 0x00, 3] ++ appId

def getFileSettings (fileId : UInt8) : Bytes := [0x90, 0xF5, 0x00, 0x00, 0x01, fileId]

/-- The commands for the contents of a file: GET VALUE, READ RECORDS or READ DATA. -/
def ReadsFile (fileId : UInt8) (type : FileType) (tx : Bytes) : Prop :=
  if type = .value then tx = [0x90, 0x6C, 0x00, 0x00, 0x01, fileId]
  else if type = .linearRec ∨ type = .cyclicRec then
    ∃ offset size, tx = readChunk 0xBB fileId offset size
  else ∃ offset size, tx = readChunk 0xBD fileId offset size

def Selects (tx : Bytes) : Prop := byteAt tx 1 = 0x5A ∨ byteAt tx 1 = 0xA4

/-- Commands for contents of a file, and the frame that asks for the rest of an answer. -/
def Continues (tx : Bytes) : Prop := byteAt tx 1 ∈ [0x6C, 0xBB, 0xBD, 0xAF]

def Opens (seg : List Exchange) : Prop := ∀ e ∈ seg.head?, ¬ Continues e.1

/-- Commands of one kind, each with the frames that ask for the rest of its answer. -/
structure Commands (F : Bytes → Prop) (seg : List Exchange) : Prop where
  first : ∀ e ∈ seg.head?, F e.1
  frames : ∀ e ∈ seg, F e.1 ∨ e.1 = additionalFrame

/-- The tag has accepted the SELECT of the application and was sent no other one since. -/
def Selected (appId : Bytes) (log : List Exchange) : Prop :=
  ∃ before ok after, log = before ++ (selectApplication appId, .ok ok) :: after ∧
    statusOk ok 0x00 = true ∧ ∀ e ∈ after, ¬ Selects e.1

/-- With its application selected, the settings of the file were asked for, and its contents are all
that the tag has sent for the commands that came next, up to a command of another kind. -/
def Received (appId : Bytes) (log : List Exchange) (f : File) : Prop :=
  ∃ before settings reads after, log = before ++ (settings ++ (reads ++ after)) ∧
    Selected appId before ∧ settings ≠ [] ∧ Commands (· = getFileSettings f.id) settings ∧
    Commands (ReadsFile f.id f.settings.type) reads ∧ f.contents = payloads reads ∧ Opens after

section Frames

variable {F F' : Bytes → Prop} {seg seg' : List Exchange}

theorem Opens.append (h : Opens seg) (h' : Opens seg') : Opens (seg ++ seg') := by
  cases seg with
  | nil => exact h'
  | cons e seg => exact h

theorem Opens.append_of_ne_nil (h : Opens seg) (hne : seg ≠ []) (seg' : List Exchange) :
    Opens (seg ++ seg') := by
  cases seg with
  | nil => exact absurd rfl hne
  | cons e seg => exact h

theorem Commands.nil : Commands F [] := ⟨by simp, by simp⟩

theorem Commands.cons {tx : Bytes} (hF : F tx) (x : Except Errno Bytes)
    (hrest : ∀ e ∈ seg, e.1 = additionalFrame) : Commands F ((tx, x) :: seg) := by
  refine ⟨?_, forall_mem_cons.mpr ⟨.inl hF, fun e he => .inr (hrest e he)⟩⟩
  rintro e ⟨⟩
  exact hF

variable (h : Commands F seg)

include h

theorem Commands.append (h' : Commands F seg') : Commands F (seg ++ seg') := by
  refine ⟨?_, fun e he => (mem_append.mp he).elim (h.frames e) (h'.frames e)⟩
  cases seg with
  | nil => exact h'.first
  | cons e seg => exact h.first

theorem Commands.mono (hF : ∀ tx, F tx → F' tx) : Commands F' seg :=
  ⟨fun e he => hF _ (h.first e he), fun e he => (h.frames e he).imp_left (hF _)⟩

theorem Commands.opens (hF : ∀ tx, F tx → ¬ Continues tx) : Opens seg :=
  fun e he => hF _ (h.first e he)

theorem Commands.not_selects (hF : ∀ tx, F tx → ¬ Selects tx) : ∀ e ∈ seg, ¬ Selects e.1 := by
  intro e he
  rcases h.frames e he with hcmd | hmore
  · exact hF _ hcmd
  · simp [hmore, additionalFrame, Selects, byteAt]

omit h

theorem Selected.append {appId : Bytes} (h : Selected appId seg)
    (hseg : ∀ e ∈ seg', ¬ Selects e.1) : Selected appId (seg ++ seg') := by
  obtain ⟨before, ok, after, rfl, hok, hafter⟩ := h
  exact ⟨before, ok, after ++ seg', by simp, hok, forall_mem_append.mpr ⟨hafter, hseg⟩⟩

theorem Received.append {appId : Bytes} {f : File} (h : Received appId seg f)
    (hnext : Opens seg') : Received appId (seg ++ seg') f := by
  obtain ⟨before, settings, reads, after, rfl, hselected, hne, hset, hreads, hbytes, hafter⟩ := h
  exact ⟨before, settings, reads, after ++ seg', by simp only [append_assoc], hselected, hne, hset,
    hreads, hbytes, hafter.append hnext⟩

end Frames

section Answers

variable {s}

theorem adds_exchange (rxMax : ℕ) (tx : Bytes) :
    Adds ((logged s).transceive rxMax tx) fun r seg =>
      Commands (· = tx) seg ∧ ∀ rx, r = .ok rx → seg = [(tx, .ok rx)] := by
  intro st r st' h
  by_cases hs : s.active = true
  · obtain ⟨seg, hseg, x, rfl, -⟩ := adds_transceive hs rxMax tx st r st' h
    refine ⟨_, hseg, .cons (F := (· = tx)) rfl x (forall_mem_nil _), ?_⟩
    rintro rx rfl
    exact append_cancel_left (hseg.symm.trans (transceive_logged_ok s h).1)
  · rw [Session.transceive, if_neg (by simpa [logged] using hs)] at h
    cases h
    exact ⟨[], (append_nil _).symm, .nil, fun rx hrx => by cases hrx⟩

theorem adds_collectChunks (outMax fuel : ℕ) (rx out : Bytes) :
    Adds (collectChunks (logged s) outMax fuel rx out) fun r seg =>
      (∀ e ∈ seg, e.1 = additionalFrame) ∧
        ∀ bytes, r = .ok bytes → bytes = out ++ Ndef.payload rx ++ payloads seg := by
  have hstop : ∀ e : Errno, Adds (τ := τ) (pure (.error e)) fun (r : Except Errno Bytes) seg =>
      (∀ e ∈ seg, e.1 = additionalFrame) ∧
        ∀ bytes, r = .ok bytes → bytes = out ++ Ndef.payload rx ++ payloads seg :=
    fun e => .pure ⟨forall_mem_nil _, fun _ h => by cases h⟩
  induction fuel generalizing rx out with
  | zero => exact .undefined
  | succ fuel ih =>
    rw [collectChunks]
    split
    · exact hstop _
    split
    · exact hstop _
    split
    · refine .pure ⟨forall_mem_nil _, fun bytes h => ?_⟩
      cases h
      exact (append_nil _).symm
    split
    · exact hstop _
    refine (adds_exchange _ _).bind fun r seg hr => ?_
    cases r with
    | error e =>
      exact .done ⟨fun e he => (hr.1.frames e he).elim id id, fun _ h => by cases h⟩
    | ok rx' =>
      obtain rfl := hr.2 rx' rfl
      refine (ih rx' _ fun e => .pure ⟨forall_mem_nil _, fun _ h => by cases h⟩).mono ?_
      rintro r seg' ⟨hmore, hbytes⟩
      refine ⟨forall_mem_cons.mpr ⟨rfl, hmore⟩, fun bytes h => ?_⟩
      rw [hbytes bytes h, append_assoc _ (Ndef.payload rx')]
      rfl

theorem adds_sendChunks (fuel outMax : ℕ) (tx : Bytes) :
    Adds (sendChunks (logged s) fuel outMax tx) fun r seg =>
      Commands (· = tx) seg ∧ ∀ bytes, r = .ok bytes → seg ≠ [] ∧ bytes = payloads seg := by
  refine (adds_exchange _ _).bind fun r seg hr => ?_
  cases r with
  | error e => exact .done ⟨hr.1, fun _ h => by cases h⟩
  | ok rx =>
    obtain rfl := hr.2 rx rfl
    refine (adds_collectChunks _ _ _ _).mono ?_
    rintro r seg' ⟨hmore, hbytes⟩
    exact ⟨.cons (F := (· = tx)) rfl _ hmore, fun bytes h => ⟨cons_ne_nil _ _, hbytes bytes h⟩⟩

/-- What a read of contents adds to the log, behind what was read before. -/
def ContentsRead (F : Bytes → Prop) (out : Bytes) (r : Bytes × Ret) (seg : List Exchange) : Prop :=
  Commands F seg ∧ (r.2 = .ok () → r.1 = out ++ payloads seg)

theorem adds_readFileChunks (cmd fileId : UInt8) (outMax fuel n : ℕ) (offset remaining : UInt32)
    (out : Bytes) :
    Adds (readFileChunks (logged s) cmd fileId outMax fuel n offset remaining out)
      (ContentsRead (fun tx => ∃ offset size, tx = readChunk cmd fileId offset size) out) := by
  have hend : ContentsRead (fun tx => ∃ offset size, tx = readChunk cmd fileId offset size) out
      (out, .ok ()) [] := ⟨.nil, fun _ => (append_nil _).symm⟩
  induction n generalizing offset remaining out with
  | zero => exact .pure hend
  | succ n ih =>
    rw [readFileChunks]
    split
    · exact .pure hend
    split
    · exact .pure ⟨.nil, fun h => by cases h⟩
    refine (adds_sendChunks _ _ _).bind fun r seg hr => ?_
    have hcmd := hr.1.mono fun tx htx => (⟨_, _, htx⟩ : ∃ offset size, tx = readChunk _ _ offset size)
    cases r with
    | error e => exact .done ⟨hcmd, fun h => by cases h⟩
    | ok chunk =>
      obtain ⟨-, rfl⟩ := hr.2 chunk rfl
      dsimp only
      split
      · exact .done ⟨hcmd, fun h => by cases h⟩
      split
      · exact .done ⟨hcmd, fun _ => rfl⟩
      · refine (ih _ _ _ ⟨.nil, fun _ => (append_nil _).symm⟩).mono ?_
        rintro r seg' ⟨hcmd', hbytes⟩
        refine ⟨hcmd.append hcmd', fun h => ?_⟩
        rw [hbytes h, payloads_append, append_assoc]

theorem adds_pollerReadContents (fuel : ℕ) (fileId : UInt8) (type : FileType) (size : UInt32)
    (outMax : ℕ) :
    Adds (pollerReadContents (logged s) fuel fileId type size outMax)
      (ContentsRead (ReadsFile fileId type) []) := by
  unfold pollerReadContents ReadsFile
  split
  · refine (adds_sendChunks _ _ _).bind fun r seg hr => ?_
    cases r with
    | error e => exact .done ⟨hr.1, fun h => by cases h⟩
    | ok buf =>
      obtain ⟨-, rfl⟩ := hr.2 buf rfl
      dsimp only
      split
      · exact .done ⟨hr.1, fun h => by cases h⟩
      · exact .done ⟨hr.1, fun _ => rfl⟩
  split <;> exact adds_readFileChunks _ _ _ _ _ _ _ _

end Answers

section Files

variable {s} {app app' app'' : Application cfg} {seg seg' : List Exchange} {fuel : ℕ}

structure Application.FilesReceived (log : List Exchange) (app : Application cfg) :
    Prop extends app.FilesInBounds where
  received : ∀ j : Fin cfg.maxFiles, j.val < app.fileCount.toNat →
    Received app.appId.toList log (app.file j)

theorem Application.FilesReceived.append (h : app.FilesReceived seg) (hnext : Opens seg') :
    app.FilesReceived (seg ++ seg') :=
  ⟨h.toFilesInBounds, fun j hj => (h.received j hj).append hnext⟩

theorem Application.FilesReceived.of_empty (h : app.fileCount = 0) : app.FilesReceived seg := by
  refine ⟨.of_empty h, fun j hj => ?_⟩
  rw [h] at hj
  exact absurd hj (Nat.not_lt_zero j)

variable (h : app.FilesReceived seg) (hslot : app.fileCount.toNat < cfg.maxFiles)

include h hslot

theorem Application.FilesReceived.keepFile {f : File}
    (hlen : f.contents.length ≤ cfg.maxFileSize) (hf : Received app.appId.toList seg f) :
    (app.putFile app.fileCount.toNat f).keepFile.FilesReceived seg := by
  have hbounds : (app.putFile app.fileCount.toNat f).keepFile.FilesInBounds :=
    h.toFilesInBounds.keep hslot (by rw [toNat_ofNat_contents hlen]; exact hlen) rfl rfl
  have hcount : (app.putFile app.fileCount.toNat f).keepFile.fileCount.toNat =
      app.fileCount.toNat + 1 := toNat_fileCount_succ hslot
  refine ⟨hbounds, fun j hj => ?_⟩
  show Received app.appId.toList seg ((app.putFile app.fileCount.toNat f).file j)
  by_cases hlast : j.val = app.fileCount.toNat
  · obtain rfl : j = ⟨app.fileCount.toNat, hslot⟩ := Fin.ext hlast
    rw [file_putFile_self ⟨app.fileCount.toNat, hslot⟩ hlen]
    exact hf
  · have hold : j.val < app.fileCount.toNat := by omega
    have hne : (⟨app.fileCount.toNat, hslot⟩ : Fin cfg.maxFiles) ≠ j :=
      fun heq => hlast (congrArg Fin.val heq).symm
    rw [file_putFile_of_ne hne hlen (h.dataLen j _ hold (app.fileDataLen.get?_coe j))]
    exact h.received j hold

theorem Application.FilesReceived.putContents (fileId : UInt8) (fs : FileSettings)
    (size : UInt32) {bytes : Bytes} (hlen : bytes.length ≤ cfg.maxFileSize) :
    ((app.enterFile fileId fs size).putContents bytes).FilesReceived seg := by
  refine ⟨h.toFilesInBounds.of_slot rfl rfl, fun j hj => ?_⟩
  have hne : (⟨app.fileCount.toNat, hslot⟩ : Fin cfg.maxFiles) ≠ j :=
    fun heq => Nat.ne_of_gt hj (congrArg Fin.val heq)
  have hsame := file_putFile_of_ne (b := app) (f := ⟨fileId, fs, bytes⟩) hne hlen
    (h.dataLen j _ hj (app.fileDataLen.get?_coe j))
  have hval : app.fileCount.toNat ≠ j.val := Nat.ne_of_gt hj
  -- the two differ in the length of the slot that is not in use
  have hfile : ((app.enterFile fileId fs size).putContents bytes).file j =
      (app.putFile app.fileCount.toNat ⟨fileId, fs, bytes⟩).file j := by
    simp only [Application.file, Application.putContents, Application.enterFile,
      Application.putFile, get_set_ne _ hval]
  rw [hfile, hsame]
  exact h.received j hj

omit h hslot

/-- What the exchanges for files of a selected application make of it. -/
structure ReadsFiles (app app' : Application cfg) (seg : List Exchange) : Prop where
  appId : app'.appId = app.appId
  opens : Opens seg
  inside : ∀ e ∈ seg, ¬ Selects e.1
  files : ∀ log, Selected app.appId.toList log → app.FilesReceived log →
    app'.FilesReceived (log ++ seg)

theorem ReadsFiles.same (hopens : Opens seg) (hinside : ∀ e ∈ seg, ¬ Selects e.1) :
    ReadsFiles app app seg := ⟨rfl, hopens, hinside, fun _ _ h => h.append hopens⟩

theorem ReadsFiles.trans (h : ReadsFiles app app' seg) (h' : ReadsFiles app' app'' seg') :
    ReadsFiles app app'' (seg ++ seg') := by
  refine ⟨h'.appId.trans h.appId, h.opens.append h'.opens,
    forall_mem_append.mpr ⟨h.inside, h'.inside⟩, fun log hlog hfiles => ?_⟩
  rw [← append_assoc]
  exact h'.files _ (h.appId ▸ hlog.append h.inside) (h.files log hlog hfiles)

theorem not_selects_of_readsFile {fileId : UInt8} {type : FileType} {tx : Bytes}
    (h : ReadsFile fileId type tx) : ¬ Selects tx := by
  unfold ReadsFile at h
  split at h
  · rw [h]
    simp [Selects, byteAt]
  split at h <;>
  · obtain ⟨offset, size, rfl⟩ := h
    simp [Selects, byteAt, readChunk]

theorem adds_pollerStoreContents (fuel : ℕ) {fileId : UInt8} {fs : FileSettings} {size : UInt32}
    (hslot : app.fileCount.toNat < cfg.maxFiles) (hsize : size.toNat ≤ cfg.maxFileSize)
    (hne : seg ≠ []) (hset : Commands (· = getFileSettings fileId) seg) (hopens : Opens seg)
    (hinside : ∀ e ∈ seg, ¬ Selects e.1) :
    Adds (pollerStoreContents (logged s) fuel fileId fs.type size (app.enterFile fileId fs size))
      fun app' seg' => ReadsFiles app app' (seg ++ seg') := by
  have hread := adds_pollerReadContents (s := s) fuel fileId fs.type size cfg.maxFileSize
  have hrow := ensures_pollerReadContents (logged s) fuel fileId fs.type hsize
  refine (hread.ensures hrow).bind ?_
  rintro ⟨bytes, ret⟩ seg' ⟨⟨hcmd, hbytes⟩, hlen⟩
  have hopens' : Opens (seg ++ seg') := hopens.append_of_ne_nil hne seg'
  have hinside' : ∀ e ∈ seg ++ seg', ¬ Selects e.1 := forall_mem_append.mpr
    ⟨hinside, hcmd.not_selects fun _ => not_selects_of_readsFile⟩
  cases ret with
  | error e =>
    simp only [if_neg (Nat.not_lt.mpr hlen)]
    exact .done ⟨rfl, hopens', hinside', fun log _ h =>
      (h.append hopens').putContents hslot fileId fs size hlen⟩
  | ok =>
    simp only [if_neg (Nat.not_lt.mpr hlen)]
    refine .done ⟨rfl, hopens', hinside', fun log hlog h => ?_⟩
    have hput : ((app.enterFile fileId fs size).putContents bytes).setDataLen bytes.length =
        app.putFile app.fileCount.toNat ⟨fileId, fs, bytes⟩ := by
      simp only [Application.setDataLen, Application.putContents, Application.enterFile,
        Application.putFile, CArray.set_set]
    rw [hput]
    exact (h.append hopens').keepFile hslot hlen ⟨log, seg, seg', [], by rw [append_nil], hlog, hne,
      hset, hcmd, hbytes rfl, by simp [Opens]⟩

theorem adds_pollerReadFile (fuel : ℕ) (stale : Stale) (fileId : UInt8)
    (hslot : app.fileCount.toNat < cfg.maxFiles) :
    Adds (pollerReadFile (logged s) fuel stale fileId app) (ReadsFiles app) := by
  unfold pollerReadFile pollerReadFileSettings
  rw [bind_assoc]
  refine (adds_sendChunks _ _ _).bind fun r seg hr => ?_
  have hopens : Opens seg := hr.1.opens fun tx htx => by simp [htx, Continues, byteAt]
  have hinside : ∀ e ∈ seg, ¬ Selects e.1 :=
    hr.1.not_selects fun tx htx => by simp [htx, Selects, byteAt]
  have hsame : ReadsFiles app app seg := .same hopens hinside
  cases r with
  | error e => exact .done hsame
  | ok buf =>
    obtain ⟨hne, -⟩ := hr.2 buf rfl
    rw [pure_bind]
    cases parseFileSettings stale buf with
    | error e => exact .done hsame
    | ok x =>
      obtain ⟨fs, size⟩ := x
      dsimp only
      split
      · exact .done hsame
      split
      · exact .done hsame
      split
      · exact .done hsame
      next hfit =>
      split
      · next hempty =>
        subst hempty
        have hput : app.enterFile fileId fs 0 =
            app.putFile app.fileCount.toNat ⟨fileId, fs, []⟩ := by
          simp only [Application.enterFile, Application.putFile, write_nil]
          rfl
        refine .done ⟨rfl, hopens, hinside, fun log hlog h => ?_⟩
        rw [hput]
        exact (h.append hopens).keepFile hslot (Nat.zero_le _)
          ⟨log, seg, [], [], by simp, hlog, hne, hr.1, .nil, rfl, by simp [Opens]⟩
      · exact adds_pollerStoreContents fuel hslot (Nat.not_lt.mp hfit) hne hr.1 hopens hinside

theorem adds_pollerReadFiles (fuel : ℕ) (stale : ℕ → Stale) (fileIds : Bytes) (fi : ℕ) :
    Adds (pollerReadFiles (logged s) fuel stale fileIds fi app) (ReadsFiles app) := by
  have hend : ∀ app : Application cfg, ReadsFiles app app [] :=
    fun _ => .same (by simp [Opens]) (by simp)
  induction fileIds generalizing fi app with
  | nil => exact .pure (hend app)
  | cons fileId fileIds ih =>
    rw [pollerReadFiles]
    split
    · exact .pure (hend app)
    next hslot =>
    exact (adds_pollerReadFile fuel (stale fi) fileId (Nat.not_le.mp hslot)).bind
      fun app₁ seg h => (ih _).mono fun app₂ seg' h' => h.trans h'

theorem adds_pollerReadApplication (fuel : ℕ) (stale : ℕ → Stale) (app : Application cfg) :
    Adds (pollerReadApplication (logged s) fuel stale app) fun r seg =>
      r.2 = .ok () →
        ∀ log, Selected app.appId.toList log → r.1.FilesReceived (log ++ seg) := by
  have hkeys : Adds (pollerReadKeySettings (logged s) fuel) fun _ seg => ∀ e ∈ seg, ¬ Selects e.1 := by
    refine (adds_sendChunks _ _ _).bind fun r seg hr => ?_
    have hinside := hr.1.not_selects fun tx htx => by simp [htx, Selects, byteAt, getKeySettings]
    cases r <;> exact .done hinside
  have hids : Adds (pollerReadFileIds (logged s) cfg fuel) fun _ seg =>
      ∀ e ∈ seg, ¬ Selects e.1 := by
    refine (adds_sendChunks _ _ _).bind fun r seg hr => ?_
    have hinside := hr.1.not_selects fun tx htx => by simp [htx, Selects, byteAt]
    cases r <;> exact .done hinside
  refine hkeys.bind fun r seg₁ h₁ => ?_
  cases r with
  | error e =>
    refine .pure ?_
    split
    · exact fun _ _ _ => .of_empty rfl
    · exact fun hok => by cases hok
  | ok ks =>
    refine hids.bind fun r seg₂ h₂ => ?_
    cases r with
    | error e => exact .pure fun hok => by cases hok
    | ok fileIds =>
      refine (adds_pollerReadFiles fuel stale fileIds 0).map fun app' seg₃ h₃ _ log hlog => ?_
      rw [← append_assoc, ← append_assoc]
      exact h₃.files _ ((hlog.append h₁).append h₂) (.of_empty rfl)

end Files

section Apps

variable {s} {data : Data cfg} {log seg : List Exchange}

def Data.AllReceived (log : List Exchange) (data : Data cfg) : Prop :=
  ∀ i app, i < data.appCount.toNat → data.apps.get? i = some app → app.FilesReceived log

theorem Data.AllReceived.append (h : data.AllReceived log) (hnext : Opens seg) :
    data.AllReceived (log ++ seg) := by
  intro i app hi happ
  exact (h i app hi happ).append hnext

theorem adds_pollerSelectApplication (appId : Bytes) :
    Adds (pollerSelectApplication (logged s) appId) fun r seg => Opens seg ∧
      (r = .ok () → ∃ ok, seg = [(selectApplication appId, .ok ok)] ∧ statusOk ok 0x00 = true) := by
  refine (adds_exchange _ _).bind fun r seg hr => ?_
  have hopens : Opens seg := hr.1.opens fun tx htx => by simp [htx, Continues, byteAt]
  cases r with
  | error e => exact .done ⟨hopens, fun h => by cases h⟩
  | ok rx =>
    refine .done ⟨hopens, fun h => ⟨rx, hr.2 rx rfl, ?_⟩⟩
    by_cases hok : statusOk rx 0x00 = true
    · exact hok
    · simp only [if_neg hok] at h
      cases h

theorem ensures_pollerReadApplicationIds (fuel : ℕ) :
    Ensures (pollerReadApplicationIds s cfg fuel) fun r =>
      ∀ appIds count, r = .ok (appIds, count) → count.toNat * 3 ≤ appIds.length := by
  refine .bind_except (fun _ => .pure fun _ _ h => by cases h) fun buf => ?_
  dsimp only
  split_ifs
  · exact .pure fun _ _ h => by cases h
  · exact .pure fun _ _ h => by cases h
  · refine .pure ?_
    rintro _ _ ⟨⟩
    have hcut := Nat.mod_le (min (buf.length / 3) cfg.maxApps) (2 ^ 8)
    rw [UInt8.toNat_ofNat']
    omega

theorem adds_pollerReadApplications (fuel : ℕ) (stale : ℕ → ℕ → Stale) {appIds : Bytes} {n ai : ℕ}
    (hids : (ai + n) * 3 ≤ appIds.length) (data : Data cfg) :
    Adds (pollerReadApplications (logged s) fuel stale appIds n ai data) fun data' seg =>
      Opens seg ∧ ∀ log, data.AllReceived log → data'.AllReceived (log ++ seg) := by
  have hend : ∀ data : Data cfg, Opens [] ∧
      ∀ log, data.AllReceived log → data.AllReceived (log ++ []) :=
    fun _ => ⟨by simp [Opens], fun log h => by rwa [append_nil]⟩
  induction n generalizing ai data with
  | zero => exact .pure (hend data)
  | succ n ih =>
    have ih := fun data => @ih (ai + 1) (by omega) data
    rw [pollerReadApplications]
    split
    · next hslot =>
      refine (adds_pollerSelectApplication _).bind ?_
      rintro r seg₁ ⟨hopens, hok⟩
      cases r with
      | error e =>
        refine (ih data).mono fun data' seg₂ h => ⟨hopens.append h.1, fun log hlog => ?_⟩
        rw [← append_assoc]
        exact h.2 _ (hlog.append hopens)
      | ok =>
        obtain ⟨ok, rfl, hstatus⟩ := hok rfl
        refine (adds_pollerReadApplication _ _ _).bind fun r seg₂ happ => ?_
        obtain ⟨app, ret⟩ := r
        have hnext : Opens ([(selectApplication (appIdAt appIds ai), .ok ok)] ++ seg₂) :=
          hopens.append_of_ne_nil (cons_ne_nil _ _) _
        cases ret with
        | error e =>
          refine (ih _).mono fun data' seg₃ h =>
            ⟨hopens.append_of_ne_nil (cons_ne_nil _ _) _, fun log hlog => ?_⟩
          rw [← append_assoc, ← append_assoc, append_assoc log]
          exact h.2 _ ((Data.forall_putApp_iff app _).mpr (hlog.append hnext))
        | ok =>
          refine (ih _).mono fun data' seg₃ h =>
            ⟨hopens.append_of_ne_nil (cons_ne_nil _ _) _, fun log hlog => ?_⟩
          rw [← append_assoc, ← append_assoc, append_assoc log]
          refine h.2 _ ((Data.forall_keepApp_iff hslot _).mpr ⟨hlog.append hnext, ?_⟩)
          have hid : (data.nextApp hslot (appIdAt appIds ai)).appId.toList = appIdAt appIds ai := by
            refine toList_ofList_of_length _ ?_
            rw [appIdAt, length_take, length_drop]
            omega
          rw [← append_assoc]
          exact happ rfl _ ⟨log, ok, [], by rw [hid], hstatus, forall_mem_nil _⟩
    · exact .pure (hend data)

end Apps

/-- Whatever the tag answers, what the poller keeps is within its arrays, and the contents of a file
are what the tag has sent for it. -/
theorem pollerRead_writes (fuel : ℕ) (stale : ℕ → ℕ → Stale) {t : τ} {data : Data cfg} {ret : Ret}
    {st : τ × List Exchange}
    (h : pollerRead (logged s) cfg fuel stale (t, []) = some ((data, ret), st)) :
    data.appCount.toNat ≤ cfg.maxApps ∧
      (∀ i app, i < data.appCount.toNat → data.apps.get? i = some app →
        app.fileCount.toNat ≤ cfg.maxFiles ∧
        ∀ j : Fin cfg.maxFiles, j.val < app.fileCount.toNat →
          (app.fileDataLen.get j).toNat ≤ cfg.maxFileSize ∧
          (app.file j).contents.length = (app.fileDataLen.get j).toNat ∧
          Received app.appId.toList st.2 (app.file j)) ∧
      ∀ fileId type (size : UInt32), size.toNat ≤ cfg.maxFileSize →
        Ensures (pollerReadContents (logged s) fuel fileId type size cfg.maxFileSize)
          fun r => r.1.length ≤ cfg.maxFileSize := by
  have hall : data.AllReceived st.2 := by
    obtain ⟨⟨data₁, r⟩, st₁, hpicc, hrest⟩ := bind_eq_some h
    have hnone := (ensures_pollerReadPicc (logged s) fuel _ _ _ hpicc).1
    rcases r with e | ⟨_ | _⟩
    · cases hrest
      exact Data.forall_of_empty hnone
    · cases hrest
      exact Data.forall_of_empty hnone
    · obtain ⟨ids, st₂, hids, happs⟩ := bind_eq_some hrest
      cases ids with
      | error e =>
        cases happs
        exact Data.forall_of_empty hnone
      | ok x =>
        obtain ⟨data₂, hloop, heq⟩ := map_eq_some happs
        cases heq
        have hcount := ensures_pollerReadApplicationIds fuel _ _ _ hids x.1 x.2 rfl
        obtain ⟨seg, hseg, -, hreceived⟩ :=
          adds_pollerReadApplications fuel stale (by rwa [Nat.zero_add]) _ _ _ _ hloop
        rw [hseg]
        exact hreceived _ (Data.forall_of_empty rfl)
  refine ⟨(valid_pollerRead (logged s) fuel stale h).1.appCount, fun i app hi happ => ?_,
    fun fileId type size hsize => ensures_pollerReadContents (logged s) fuel fileId type hsize⟩
  have hfiles := hall i app hi happ
  refine ⟨hfiles.fileCount, fun j hj => ?_⟩
  have hrow := hfiles.dataLen j _ hj (app.fileDataLen.get?_coe j)
  exact ⟨hrow, length_contents hrow, hfiles.received j hj⟩

def generousTag : Reader.Session Unit :=
  piccTag 1 [1, 2, 3] fun tx =>
    if byteAt tx 1 = 0x6F then [0x05, 0x91, 0x00]
    else if byteAt tx 1 = 0xF5 then [0x00, 0x00, 0xEE, 0xEE, 0x00, 0x01, 0x00, 0x91, 0x00]
    else if byteAt tx 1 = 0xAF then List.replicate 127 0xB2 ++ [0x91, 0x00]
    else if byteAt tx 1 = 0xBD then
      if byteAt tx 6 = 0 then List.replicate 128 0xB1 ++ [0x91, 0xAF] else [0xB3, 0x91, 0x00]
    else [0x91, 0x00]

theorem pollerRead_writes_generousTag :
    ∃ (data : Data .default) (st : Unit × List Exchange) (app : Application .default),
      pollerRead (logged generousTag) .default 2 noStale ((), []) = some ((data, .ok ()), st) ∧
      data.apps.get? 0 = some app ∧ app.fileDataLen.get? 0 = some 256 ∧
      Received app.appId.toList st.2 (app.file ⟨0, by decide⟩) := by
  have hrun : (pollerRead (logged generousTag) .default 2 noStale ((), [])).map
      (fun r => (r.1.2.isOk, r.1.1.appCount, (r.1.1.apps.get? 0).map (·.fileCount),
        (r.1.1.apps.get? 0).bind (·.fileDataLen.get? 0))) = some (true, 1, some 1, some 256) := by
    decide +kernel
  obtain ⟨⟨⟨data, ret⟩, st⟩, hread, heq⟩ := Option.map_eq_some_iff.mp hrun
  simp only [Prod.mk.injEq] at heq
  obtain ⟨hok, happs, hfiles, hlen⟩ := heq
  obtain ⟨app, happ, hfiles⟩ := Option.map_eq_some_iff.mp hfiles
  rw [happ] at hlen
  cases ret with
  | error e => cases hok
  | ok =>
    have hwrites := (pollerRead_writes generousTag 2 noStale hread).2.1 0 app
      (by rw [happs]; decide) happ
    exact ⟨data, st, app, hread, happ, hlen,
      (hwrites.2 ⟨0, by decide⟩ (by rw [hfiles]; decide)).2.2⟩

end NfcStack.Desfire
