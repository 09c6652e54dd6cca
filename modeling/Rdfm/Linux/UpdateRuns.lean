import Rdfm.Lib.Transition
import Rdfm.Linux.InstallEnd

/-!
# Installs, commits and rollbacks of single files, over whole runs

After a rollback the files should be as they were after the last commit, and after a commit as they
were last installed, with nothing left of the update (`Restores`). The undo information is one backup
file and one record, rewritten by every install, so a run keeps this when each install finds them
free or its own, and each rollback comes after a single install over an existing file (`StepOk`,
`rollback_returns_to_commit`).
-/

namespace Rdfm.Linux

open Rdfm.Lib

/-! ## Single-file artifacts -/

/-- The names the artifact tool keeps for the settings of a payload. -/
def reservedNames : List Text :=
  ["dest_dir".toList, "filename".toList, "permissions".toList, "rollback_support".toList]

/-- A single-file payload with rollback support, as the artifact tool writes it. -/
structure FileUpdate where
  destDir : Bytes
  filename : Bytes
  permissions : Bytes
  rollbackSupport : Bytes
  data : Bytes
  dest_ne : SingleFileData.readPayloadFile destDir ≠ []
  no_slash : '/' ∉ SingleFileData.readPayloadFile filename
  not_reserved : SingleFileData.readPayloadFile filename ∉ reservedNames
  rollback : SingleFileData.readPayloadFile rollbackSupport = "true".toList

namespace FileUpdate

variable (u : FileUpdate)

def payload : Payload where
  type := .singleFile
  files :=
    [⟨"dest_dir".toList, u.destDir⟩, ⟨"filename".toList, u.filename⟩,
      ⟨"permissions".toList, u.permissions⟩, ⟨"rollback_support".toList, u.rollbackSupport⟩,
      ⟨SingleFileData.readPayloadFile u.filename, u.data⟩]

/-- The settings of the payload. -/
def settings : SingleFileData where
  destDirectory := SingleFileData.readPayloadFile u.destDir
  filename := SingleFileData.readPayloadFile u.filename
  permissions := SingleFileData.parsePermissions (SingleFileData.readPayloadFile u.permissions)
  rollbackFileName := []
  rollbackSupport := true

def destPath : Text := u.settings.destPath

def backupPath : Text := u.settings.backupPath

/-- The handler once its file is installed. -/
def handler : SingleFileData := { u.settings with rollbackFileName := u.backupPath }

theorem destPath_ne_backupPath : u.destPath ≠ u.backupPath :=
  joinPath_ne_append u.dest_ne u.no_slash (by decide) (by decide)

theorem destPath_ne_nil : u.destPath ≠ [] := joinPath_ne_nil u.dest_ne _

theorem backupPath_ne_nil : u.backupPath ≠ [] := joinPath_ne_nil u.dest_ne _

/-- The files with the destination directory made. -/
def withDir (fs : FileSys) : FileSys :=
  if fs.dirs u.settings.destDirectory then fs else fs.mkdirAll u.settings.destDirectory

/-- The files with the backup made. -/
def backUp (fs : FileSys) : FileSys :=
  let fs := fs.write u.backupPath u.settings.permissions []
  match fs.read u.destPath with
  | some orig => fs.write u.backupPath u.settings.permissions orig.content
  | none => fs

/-- The files after the payload is stored. -/
def installOn (fs : FileSys) : FileSys :=
  (u.backUp (u.withDir fs)).write u.destPath u.settings.permissions u.data

theorem updateFile_settings (fs : FileSys) :
    u.settings.updateFile u.data fs = (u.handler, u.installOn fs) :=
  if_neg u.dest_ne

theorem withDir_files (fs : FileSys) : (u.withDir fs).files = fs.files := by
  unfold withDir
  split <;> rfl

theorem withDir_creationMode (fs : FileSys) : (u.withDir fs).creationMode = fs.creationMode := by
  unfold withDir
  split <;> rfl

theorem backUp_of_ne (fs : FileSys) {p : Text} (h : p ≠ u.backupPath) :
    (u.backUp fs).files p = fs.files p := by
  unfold backUp
  dsimp only
  split
  · rw [FileSys.write_of_ne h, FileSys.write_of_ne h]
  · rw [FileSys.write_of_ne h]

theorem backUp_self (fs : FileSys) :
    (u.backUp fs).files u.backupPath =
      some ⟨((fs.files u.destPath).map RegularFile.content).getD [],
        ((fs.files u.backupPath).map RegularFile.mode).getD
          (fs.creationMode u.settings.permissions)⟩ := by
  have hread : (fs.write u.backupPath u.settings.permissions []).read u.destPath =
      fs.files u.destPath := by
    rw [FileSys.read_of_ne_empty u.destPath_ne_nil, FileSys.write_of_ne u.destPath_ne_backupPath]
  unfold backUp
  dsimp only
  rw [hread]
  cases fs.files u.destPath with
  | none => simp
  | some orig => simp

theorem backUp_creationMode (fs : FileSys) : (u.backUp fs).creationMode = fs.creationMode := by
  unfold backUp
  dsimp only
  split <;> rfl

/-- The new file, with the mode of the one it replaces. -/
theorem installOn_dest (fs : FileSys) :
    (u.installOn fs).files u.destPath =
      some ⟨u.data, ((fs.files u.destPath).map RegularFile.mode).getD
        (fs.creationMode u.settings.permissions)⟩ := by
  unfold installOn
  rw [FileSys.write_self, backUp_of_ne u _ u.destPath_ne_backupPath, withDir_files,
    backUp_creationMode, withDir_creationMode]

/-- The backup of what was there. -/
theorem installOn_backup (fs : FileSys) :
    (u.installOn fs).files u.backupPath =
      some ⟨((fs.files u.destPath).map RegularFile.content).getD [],
        ((fs.files u.backupPath).map RegularFile.mode).getD
          (fs.creationMode u.settings.permissions)⟩ := by
  unfold installOn
  rw [FileSys.write_of_ne u.destPath_ne_backupPath.symm, backUp_self, withDir_files,
    withDir_creationMode]

theorem installOn_of_ne (fs : FileSys) {p : Text} (hd : p ≠ u.destPath) (hb : p ≠ u.backupPath) :
    (u.installOn fs).files p = fs.files p := by
  unfold installOn
  rw [FileSys.write_of_ne hd, backUp_of_ne u _ hb, withDir_files]

/-- The settings as the handler reads them. -/
theorem settings_eq : u.settings =
    ⟨SingleFileData.readPayloadFile u.destDir, SingleFileData.readPayloadFile u.filename,
      SingleFileData.parsePermissions (SingleFileData.readPayloadFile u.permissions), [],
      decide (SingleFileData.readPayloadFile u.rollbackSupport = "true".toList)⟩ := by
  rw [decide_eq_true u.rollback]
  rfl

theorem storeUpdate_data (fs : FileSys) :
    u.settings.storeUpdate ⟨SingleFileData.readPayloadFile u.filename, u.data⟩ fs =
      (u.handler, u.installOn fs) := by
  have hres := u.not_reserved
  simp only [reservedNames, List.mem_cons, List.not_mem_nil, or_false, not_or] at hres
  unfold SingleFileData.storeUpdate
  rw [if_neg hres.1, if_neg hres.2.1, if_neg hres.2.2.1, if_neg hres.2.2.2]
  exact (if_pos rfl).trans (u.updateFile_settings fs)

/-- The five files of a payload, one after the other. -/
theorem storeFiles_payload {R : Type} (dev : DeviceManager R) (w : DeviceState R) :
    storeFiles dev none u.payload.files (.singleFile newSingleFileUpdater) w =
      (false, none, .singleFile u.handler, { w with fs := u.installOn w.fs }) := by
  have hlast : storeFiles dev none u.payload.files (.singleFile newSingleFileUpdater) w =
      storeFiles dev none [⟨SingleFileData.readPayloadFile u.filename, u.data⟩]
        (.singleFile u.settings) w := by
    rw [settings_eq]
    rfl
  rw [hlast, storeFiles]
  · simp only [storeFile, u.storeUpdate_data]
    rw [Option.map_none, storeFiles]
  · simp

end FileUpdate

/-- An artifact of single-file payloads with rollback support. -/
structure FileArtifact where
  art : Artifact
  updates : List FileUpdate
  payloads_eq : art.payloads = updates.map FileUpdate.payload

/-! ## Runs -/

variable {R : Type} (dev : DeviceManager R)

/-- The headers can be read and the dependencies are met: payload data will be passed on. -/
def accepts (art : Artifact) (w : DeviceState R) : Bool :=
  art.headersOk &&
    match dev.loadProvides w.artifactData with
    | none => false
    | some provides =>
      (verifyDependencies dev.elemInSlice (injectProvides provides) art.depends).isNone

inductive UpdateEvent where
  | install (a : FileArtifact)
  | restart
  | commit
  | rollback

/-- A device, with what its history says about it. -/
structure Tracked (R : Type) where
  state : DeviceState R
  /-- The files right after the last commit, or at the start. -/
  base : Text → Option RegularFile
  /-- The files right after the last install, commit or rollback. -/
  last : Text → Option RegularFile
  /-- The backup files made since the last commit or rollback. -/
  backups : List Text
  /-- Since the last commit or rollback there was at most one install, over existing files. -/
  undoable : Bool

def Tracked.start (w : DeviceState R) : Tracked R := ⟨w, w.fs.files, w.fs.files, [], true⟩

/-- One event. A restart keeps nothing but the files and the database, which is all there is. -/
def next (t : Tracked R) : UpdateEvent → Tracked R
  | .install a =>
    let w := (doInstallStates dev noCallFaults a.art t.state).state
    if accepts dev a.art t.state then
      { t with
        state := w
        last := w.fs.files
        backups := t.backups ++ a.updates.map FileUpdate.backupPath
        undoable := decide (t.state.standaloneState = .absent) &&
          a.updates.all fun u => (t.state.fs.files u.destPath).isSome }
    else { t with state := w }
  | .restart => t
  | .commit =>
    let w := (doCommit dev noCallFaults t.state).state
    { state := w, base := w.fs.files, last := w.fs.files, backups := [], undoable := true }
  | .rollback =>
    let w := (doRollback dev noCallFaults t.state).state
    { t with state := w, last := w.fs.files, backups := [], undoable := true }

/-- No saved state of an update. -/
structure NoSavedState (w : DeviceState R) : Prop where
  standaloneState : w.standaloneState = .absent
  singleFileData : w.singleFileData = .absent

/-- What an event should do: a rollback returns to the last commit, and a commit keeps what was last
installed, without the backups; neither leaves saved state. -/
def Restores (t : Tracked R) : UpdateEvent → Prop
  | .rollback => (next dev t .rollback).state.fs.files = t.base ∧
      NoSavedState (next dev t .rollback).state
  | .commit => (∀ p ∉ t.backups, (next dev t .commit).state.fs.files p = t.last p) ∧
      (∀ b ∈ t.backups, (next dev t .commit).state.fs.files b = none) ∧
      NoSavedState (next dev t .commit).state
  | _ => True

/-- An event that the one backup and the one record can undo: an install that passes the checks has
one payload, provides that can be saved and paths in valid UTF-8, and its backup is a new file or, while
an update waits for its end, that of the same destination; a rollback ends at most one install, over an existing
file. -/
def StepOk (t : Tracked R) : UpdateEvent → Prop
  | .install a => accepts dev a.art t.state = true → a.art.provides ≠ none ∧
      ∃ u, a.updates = [u] ∧ u.handler.Recordable ∧
        match t.state.singleFileData with
        | .value s => u.destPath = s.destPath ∧ u.backupPath = s.rollbackFileName
        | _ => t.state.fs.files u.backupPath = none
  | .rollback => t.undoable = true
  | _ => True

/-! ## One install -/

variable {dev} {a : FileArtifact} {u : FileUpdate} {w : DeviceState R} {s : SingleFileData}

theorem doInstallStates_refused (h : accepts dev a.art w = false) :
    (doInstallStates dev noCallFaults a.art w).state = w := by
  unfold doInstallStates
  split
  · rfl
  · next hinit =>
    have hheaders : a.art.headersOk = true := by
      simpa [initializeArtifactHandlers, readArtifactHeaders] using hinit
    unfold accepts at h
    rw [hheaders, Bool.true_and] at h
    split
    · rfl
    · next provides hload =>
      rw [hload] at h
      dsimp only at h
      split
      · rfl
      · next hverify =>
        rw [hverify] at h
        cases h

/-- The saved update of an artifact. -/
def savedState (art : Artifact) (provides : List (Text × Text)) : StateData where
  version := standaloneStateDataVersion
  artifactName := art.name
  artifactGroup := []
  artifactTypeInfoProvides := provides
  artifactClearsProvides := art.clearsProvides
  payloadTypes := [PayloadType.singleFile.name]

/-- An accepted install of one file. -/
theorem doInstallStates_single (h : accepts dev a.art w = true) (hu : a.updates = [u])
    (hrecord : u.handler.Recordable) {provides : List (Text × Text)} (hp : a.art.provides = some provides) :
    (doInstallStates dev noCallFaults a.art w).state =
      { w with
        fs := u.installOn w.fs
        standaloneState := .value (savedState a.art provides)
        singleFileData := .value u.handler } := by
  have hpayloads : a.art.payloads = [u.payload] := by rw [a.payloads_eq, hu]; rfl
  have hheaders : a.art.headersOk = true := by
    unfold accepts at h
    exact (Bool.and_eq_true_iff.mp h).1
  have hinit : ¬ initializeArtifactHandlers a.art = false := by
    simp [initializeArtifactHandlers, readArtifactHeaders, hheaders]
  unfold accepts at h
  rw [hheaders, Bool.true_and] at h
  unfold doInstallStates
  rw [if_neg hinit]
  split
  · next hload =>
    rw [hload] at h
    cases h
  · next currentProvides hload =>
    rw [hload] at h
    dsimp only at h
    rw [Option.isNone_iff_eq_none.mp h]
    have hstore : storePayloads dev noCallFaults.data a.art.payloads w =
        (false, [.singleFile u.handler], { w with fs := u.installOn w.fs }) := by
      have hfiles : storeFiles dev noCallFaults.data u.payload.files
          (newInstaller dev u.payload.type) w =
          (false, none, .singleFile u.handler, { w with fs := u.installOn w.fs }) :=
        u.storeFiles_payload dev w
      rw [hpayloads]
      simp only [storePayloads]
      rw [hfiles]
    have hsave : ∀ w' : DeviceState R, saveStates (performers [.singleFile u.handler]) w' =
        { w' with singleFileData := .value u.handler } := by
      intro w'
      change { w' with singleFileData := Stored.value u.handler.recorded } = _
      rw [hrecord.recorded_eq]
    dsimp only
    rw [hstore]
    simp only [saveUpdateToStore, hp, hsave]
    rfl

/-! ## One ending -/

/-- One single-file update is saved, with its record. -/
structure SavedSingle (w : DeviceState R) (s : SingleFileData) : Prop where
  state : ∃ stateData, w.standaloneState = .value stateData ∧
    stateData.version = standaloneStateDataVersion ∧
    stateData.payloadTypes = [PayloadType.singleFile.name]
  record : w.singleFileData = .value s

/-- The files after the handler of the update has ended it. -/
def endFile (e : Ending) (s : SingleFileData) (fs : FileSys) : FileSys :=
  match e with
  | .commit => s.commitUpdate false fs
  | .rollback => if s.rollbackSupport then (s.rollback false fs).2 else fs

theorem storeUpdateInDB_clears (hdb : ∀ a d, dev.commitArtifactData a d ≠ none) (stateData : StateData)
    (w : DeviceState R) :
    ∃ artifactData, (storeUpdateInDB dev noCallFaults stateData w).2 =
      { w with standaloneState := .absent, artifactData } := by
  have htxn : ¬ noCallFaults.txn = true := Bool.false_ne_true
  unfold storeUpdateInDB
  rw [if_neg htxn]
  split
  · split
    · next h => exact absurd h (hdb _ _)
    · next artifactData _ => exact ⟨artifactData, rfl⟩
  · exact ⟨w.artifactData, rfl⟩

/-- An ending calls the one handler and clears what was saved. -/
theorem doEnd_single (hdb : ∀ a d, dev.commitArtifactData a d ≠ none) (h : SavedSingle w s)
    (e : Ending) : ∃ artifactData, (doEnd dev noCallFaults e w).state =
      ⟨endFile e s w.fs, w.rootfs, .absent, .absent, artifactData⟩ := by
  rcases h.state with ⟨stateData, hstate, hversion, htypes⟩
  have hrestore : restoreHandlerData dev noCallFaults w =
      .ok (stateData, [⟨some (.singleFile s), false⟩], { w with singleFileData := .absent }) := by
    have hread : restoreState false w = (false, s, { w with singleFileData := .absent }) := by
      unfold restoreState
      rw [h.record]
      rfl
    have hrestore : noCallFaults.restore 0 = false := rfl
    unfold restoreHandlerData
    rw [hstate]
    dsimp only
    rw [if_neg (not_not.mpr hversion), htypes, restore_singleFile, hrestore, hread, ← hstate]
    rfl
  have hend : ∀ w₁ : DeviceState R,
      (endHandlers dev noCallFaults e 0 [⟨some (.singleFile s), false⟩] w₁).2 =
        { w₁ with fs := endFile e s w₁.fs } := by
    intro w₁
    cases e with
    | commit => rfl
    | rollback =>
      have hsupports : supportsRollback dev (.singleFile s) = s.rollbackSupport := rfl
      unfold endFile endHandlers endInstaller
      dsimp only
      rw [hsupports]
      split <;> rfl
  unfold doEnd
  rw [hrestore]
  dsimp only
  rw [hend]
  exact storeUpdateInDB_clears hdb _ _

/-- Nothing is saved, so nothing is ended. -/
theorem doEnd_noState (h : w.standaloneState = .absent) (e : Ending) :
    (doEnd dev noCallFaults e w).state = w := by
  unfold doEnd restoreHandlerData
  rw [h]

theorem endFile_commit_of_ne {fs : FileSys} {p : Text} (hp : p ≠ s.rollbackFileName) :
    (endFile .commit s fs).files p = fs.files p :=
  FileSys.remove_of_ne hp

theorem endFile_commit_self {fs : FileSys} :
    (endFile .commit s fs).files s.rollbackFileName = none :=
  FileSys.remove_self

section Rollback

variable {fs : FileSys} {backup : RegularFile} (hsupport : s.rollbackSupport = true)
  (hne : s.destPath ≠ s.rollbackFileName) (hnil : s.rollbackFileName ≠ [])
  (hbackup : fs.files s.rollbackFileName = some backup)

include hsupport hne hnil hbackup

theorem endFile_rollback_eq :
    endFile .rollback s fs = ((fs.write s.destPath s.permissions []).write s.destPath s.permissions
      backup.content).remove s.rollbackFileName := by
  have hread : fs.read s.rollbackFileName = some backup := by
    rw [FileSys.read_of_ne_empty hnil, hbackup]
  have hagain : (fs.write s.destPath s.permissions []).read s.rollbackFileName = some backup := by
    rw [FileSys.read_of_ne_empty hnil, FileSys.write_of_ne hne.symm, hbackup]
  unfold endFile SingleFileData.rollback
  dsimp only
  rw [if_pos hsupport, hread]
  dsimp only
  rw [if_neg Bool.false_ne_true, hagain]
  rfl

/-- The destination gets the content of the backup, and keeps its mode. -/
theorem endFile_rollback_dest {installed : RegularFile}
    (hdest : fs.files s.destPath = some installed) :
    (endFile .rollback s fs).files s.destPath = some ⟨backup.content, installed.mode⟩ := by
  rw [endFile_rollback_eq hsupport hne hnil hbackup, FileSys.remove_of_ne hne, FileSys.write_self,
    FileSys.write_self, hdest]
  rfl

theorem endFile_rollback_self : (endFile .rollback s fs).files s.rollbackFileName = none := by
  rw [endFile_rollback_eq hsupport hne hnil hbackup, FileSys.remove_self]

theorem endFile_rollback_of_ne {p : Text} (hd : p ≠ s.destPath) (hb : p ≠ s.rollbackFileName) :
    (endFile .rollback s fs).files p = fs.files p := by
  rw [endFile_rollback_eq hsupport hne hnil hbackup, FileSys.remove_of_ne hb,
    FileSys.write_of_ne hd, FileSys.write_of_ne hd]

end Rollback

/-! ## The invariant -/

/-- Nothing waits for its end. -/
structure Idle (t : Tracked R) : Prop where
  saved : NoSavedState t.state
  base : t.base = t.state.fs.files
  last : t.last = t.state.fs.files
  backups : t.backups = []

/-- The update with record `s` waits for its end. -/
structure Pending (t : Tracked R) (s : SingleFileData) : Prop where
  saved : SavedSingle t.state s
  support : s.rollbackSupport = true
  dest_ne : s.destPath ≠ s.rollbackFileName
  backup_ne : s.rollbackFileName ≠ []
  last : t.last = t.state.fs.files
  backups : ∀ b, b ∈ t.backups ↔ b = s.rollbackFileName
  base_backup : t.base s.rollbackFileName = none
  frame : ∀ p, p ≠ s.destPath → p ≠ s.rollbackFileName → t.state.fs.files p = t.base p
  backup : ∃ backup installed, t.state.fs.files s.rollbackFileName = some backup ∧
    t.state.fs.files s.destPath = some installed ∧
    (t.undoable = true → t.base s.destPath = some ⟨backup.content, installed.mode⟩)

/-- What every undoable run keeps. -/
def RunInv (t : Tracked R) : Prop := Idle t ∨ ∃ s, Pending t s

variable {t : Tracked R}

/-- An accepted install of one file waits for its end. -/
theorem pending_of_install (haccepts : accepts dev a.art t.state = true) (hu : a.updates = [u])
    (hprovides : a.art.provides ≠ none) (hrecord : u.handler.Recordable) (hbackups : ∀ b ∈ t.backups, b = u.backupPath)
    (hbase : t.base u.backupPath = none)
    (hframe : ∀ p, p ≠ u.destPath → p ≠ u.backupPath → t.state.fs.files p = t.base p)
    (hundo : t.state.standaloneState = .absent → t.state.fs.files u.destPath = t.base u.destPath) :
    Pending (next dev t (.install a)) u.handler := by
  rcases Option.ne_none_iff_exists'.mp hprovides with ⟨provides, hp⟩
  have hnext : next dev t (.install a) =
      { state :=
          { t.state with
            fs := u.installOn t.state.fs
            standaloneState := .value (savedState a.art provides)
            singleFileData := .value u.handler }
        base := t.base
        last := (u.installOn t.state.fs).files
        backups := t.backups ++ [u.backupPath]
        undoable := decide (t.state.standaloneState = .absent) &&
          (t.state.fs.files u.destPath).isSome } := by
    unfold next
    dsimp only
    rw [haccepts, if_pos rfl, doInstallStates_single haccepts hu hrecord hp, hu]
    simp
  rw [hnext]
  refine
    { saved := ⟨⟨_, rfl, rfl, rfl⟩, rfl⟩
      support := rfl
      dest_ne := u.destPath_ne_backupPath
      backup_ne := u.backupPath_ne_nil
      last := rfl
      backups := ?_
      base_backup := hbase
      frame := fun p hd hb => (u.installOn_of_ne t.state.fs hd hb).trans (hframe p hd hb)
      backup := ⟨_, _, u.installOn_backup t.state.fs, u.installOn_dest t.state.fs, ?_⟩ }
  · intro b
    rw [List.mem_append, List.mem_singleton]
    exact ⟨fun hb => hb.elim (hbackups b) id, .inr⟩
  · intro hundoable
    rcases Bool.and_eq_true_iff.mp hundoable with ⟨hfirst, hsome⟩
    rcases Option.isSome_iff_exists.mp hsome with ⟨f, hf⟩
    have hdest := hundo (of_decide_eq_true hfirst)
    change t.base u.destPath = _
    rw [← hdest, hf]
    rfl

theorem runInv_install (h : RunInv t) (hok : StepOk dev t (.install a)) :
    RunInv (next dev t (.install a)) := by
  cases haccepts : accepts dev a.art t.state with
  | false =>
    have hsame : next dev t (.install a) = t := by
      unfold next
      dsimp only
      rw [haccepts, doInstallStates_refused haccepts]
      rfl
    rw [hsame]
    exact h
  | true =>
    rcases hok haccepts with ⟨hprovides, u, hu, hrecord, hplace⟩
    right
    refine ⟨u.handler, ?_⟩
    rcases h with h | ⟨s, h⟩
    · rw [h.saved.singleFileData] at hplace
      apply pending_of_install haccepts hu hprovides hrecord
      · rw [h.backups]
        exact fun b hb => absurd hb List.not_mem_nil
      · rw [h.base]
        exact hplace
      · exact fun p _ _ => by rw [h.base]
      · exact fun _ => by rw [h.base]
    · rw [h.saved.record] at hplace
      rcases hplace with ⟨hdest, hbackup⟩
      apply pending_of_install haccepts hu hprovides hrecord
      · exact fun b hb => ((h.backups b).mp hb).trans hbackup.symm
      · rw [hbackup]
        exact h.base_backup
      · rw [hdest, hbackup]
        exact h.frame
      · -- a saved update is there, so this install cannot be undone
        intro habsent
        rcases h.saved.state with ⟨stateData, hstate, -⟩
        rw [hstate] at habsent
        cases habsent

theorem next_commit_noState (h : t.state.standaloneState = .absent) :
    next dev t .commit = Tracked.start t.state := by
  unfold next doCommit
  dsimp only
  rw [doEnd_noState h]
  rfl

theorem runInv_commit (hdb : ∀ a d, dev.commitArtifactData a d ≠ none) (h : RunInv t) :
    RunInv (next dev t .commit) ∧ Restores dev t .commit := by
  rcases h with h | ⟨s, h⟩
  · have hstate : (next dev t .commit).state = t.state := by
      rw [next_commit_noState h.saved.standaloneState]
      rfl
    refine ⟨.inl ⟨hstate ▸ h.saved, rfl, rfl, rfl⟩, ?_, ?_, hstate ▸ h.saved⟩
    · intro p _
      rw [hstate, h.last]
    · rw [h.backups]
      exact fun b hb => absurd hb List.not_mem_nil
  · rcases doEnd_single hdb h.saved .commit with ⟨artifactData, hend⟩
    have hstate : (next dev t .commit).state =
        ⟨endFile .commit s t.state.fs, t.state.rootfs, .absent, .absent, artifactData⟩ := hend
    have hsaved : NoSavedState (next dev t .commit).state := by
      rw [hstate]
      exact ⟨rfl, rfl⟩
    refine ⟨.inl ⟨hsaved, rfl, rfl, rfl⟩, ?_, ?_, hsaved⟩
    · intro p hp
      rw [hstate, h.last]
      exact endFile_commit_of_ne fun hb => hp ((h.backups p).mpr hb)
    · intro b hb
      rw [hstate, (h.backups b).mp hb]
      exact endFile_commit_self

theorem runInv_rollback (hdb : ∀ a d, dev.commitArtifactData a d ≠ none) (h : RunInv t)
    (hundo : t.undoable = true) :
    RunInv (next dev t .rollback) ∧ Restores dev t .rollback := by
  rcases h with h | ⟨s, h⟩
  · have hstate : (next dev t .rollback).state = t.state := by
      unfold next doRollback
      dsimp only
      rw [doEnd_noState h.saved.standaloneState]
    have hbase : (next dev t .rollback).state.fs.files = t.base := by
      rw [hstate, h.base]
    exact ⟨.inl ⟨hstate ▸ h.saved, hbase.symm, rfl, rfl⟩, hbase, hstate ▸ h.saved⟩
  · rcases doEnd_single hdb h.saved .rollback with ⟨artifactData, hend⟩
    have hstate : (next dev t .rollback).state =
        ⟨endFile .rollback s t.state.fs, t.state.rootfs, .absent, .absent, artifactData⟩ := hend
    have hsaved : NoSavedState (next dev t .rollback).state := by
      rw [hstate]
      exact ⟨rfl, rfl⟩
    rcases h.backup with ⟨backup, installed, hbackup, hdest, hcontent⟩
    have hbase : (next dev t .rollback).state.fs.files = t.base := by
      rw [hstate]
      funext p
      by_cases hd : p = s.destPath
      · rw [hd, hcontent hundo]
        exact endFile_rollback_dest h.support h.dest_ne h.backup_ne hbackup hdest
      · by_cases hb : p = s.rollbackFileName
        · rw [hb, h.base_backup]
          exact endFile_rollback_self h.support h.dest_ne h.backup_ne hbackup
        · rw [← h.frame p hd hb]
          exact endFile_rollback_of_ne h.support h.dest_ne h.backup_ne hbackup hd hb
    exact ⟨.inl ⟨hsaved, hbase.symm, rfl, rfl⟩, hbase, hsaved⟩

/-! ## Runs that can be undone -/

/-- **A rollback returns to the last commit** in every run whose installs and rollbacks the one backup
and the one record can undo; a commit keeps what was last installed. -/
theorem rollback_returns_to_commit (hdb : ∀ a d, dev.commitArtifactData a d ≠ none)
    (hstart : NoSavedState w) {events : List UpdateEvent}
    (hrun : Along (next dev) (StepOk dev) (.start w) events) :
    Along (next dev) (Restores dev) (.start w) events := by
  have hinv : RunInv (.start w) := .inl ⟨hstart, rfl, rfl, rfl⟩
  refine Along.of_invariant ?_ hinv hrun
  intro t event h hok
  cases event with
  | install a => exact ⟨runInv_install h hok, trivial⟩
  | restart => exact ⟨h, trivial⟩
  | commit => exact runInv_commit hdb h
  | rollback => exact runInv_rollback hdb h hok

/-! ### Two runs on one file -/

/-- An update of `/etc/c`. -/
def confUpdate (data : Bytes) : FileUpdate where
  destDir := [47, 101, 116, 99]
  filename := [99]
  permissions := [54, 52, 52]
  rollbackSupport := [116, 114, 117, 101]
  data := data
  dest_ne := by decide
  no_slash := by decide
  not_reserved := by decide
  rollback := by decide

def confArtifact (data : Bytes) : FileArtifact where
  art := ⟨true, ["rpi".toList], some [], some [], [], "v2".toList, [(confUpdate data).payload]⟩
  updates := [confUpdate data]
  payloads_eq := rfl

/-- `/etc/c` holds the byte 1, and nothing waits for its end. -/
def confDevice : DeviceState Unit where
  fs := ⟨fun p => if p = "/etc/c".toList then some ⟨[1], 420⟩ else none, fun _ => true, id⟩
  rootfs := ()
  standaloneState := .absent
  singleFileData := .absent
  artifactData := ⟨"v1".toList, [], []⟩

/-- An install and its rollback. -/
theorem rollback_returns_once :
    Along (next rootfsDevice) (Restores rootfsDevice) (.start confDevice)
      [.install (confArtifact [2]), .restart, .rollback] := by
  apply rollback_returns_to_commit (fun _ _ => Option.some_ne_none _) ⟨rfl, rfl⟩
  refine ⟨fun _ => ⟨nofun, confUpdate [2], rfl, ⟨by decide, by decide, by decide⟩, ?_⟩, trivial, ?_,
    trivial⟩
  · change confDevice.fs.files (confUpdate [2]).backupPath = none
    decide
  · change (next rootfsDevice _ _).undoable = true
    decide

/-- The update check installs again before the first update is committed: the backup then holds what
the first update wrote, and the rollback leaves that. -/
theorem rollback_misses_commit :
    ¬ Along (next rootfsDevice) (Restores rootfsDevice) (.start confDevice)
      [.install (confArtifact [2]), .install (confArtifact [3]), .rollback] := by
  intro h
  have hfiles := congrFun h.2.2.1.1 "/etc/c".toList
  revert hfiles
  decide

end Rdfm.Linux
