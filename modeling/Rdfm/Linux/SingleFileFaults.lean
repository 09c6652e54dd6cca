import Rdfm.Linux.UpdateRuns

/-!
# Failures of a single-file update

An update of a single file can fail between any two files of its payload, while one of them arrives,
and at any file operation. `updateFile` and `rollback` are given here with the operations that fail;
without failures they are those of `SingleFileData` (`updateFileFaulty_none`, `rollbackFaulty_none`).
The error of `updateFile` is dropped, and `Rollback` overwrites the destination before it knows that
there is a backup: `failed_update_iff` says exactly when the payload is not taken for stored, and when
a failed update leaves everything as it was.
-/

namespace Rdfm.Linux

open Rdfm.Lib

/-! ## File operations that fail -/

/-- The operations of `updateFile` that fail. A copy fails after a number of bytes. -/
structure UpdateFaults where
  /-- `Stat` fails, with another error than that the directory does not exist. -/
  stat : Bool
  mkdirAll : Bool
  createBackup : Bool
  openOriginal : Bool
  copyOriginal : Option Nat
  createDestination : Bool
  copyPayload : Option Nat
deriving DecidableEq, Repr

/-- The operations of `Rollback` that fail. -/
structure RollbackFaults where
  openBackup : Bool
  createDestination : Bool
  copyBackup : Option Nat
  removeBackup : Bool
deriving DecidableEq, Repr

def noUpdateFaults : UpdateFaults := ⟨false, false, false, false, none, false, none⟩

def noRollbackFaults : RollbackFaults := ⟨false, false, none, false⟩

/-- The error of `updateFile`. -/
inductive UpdateFileError where
  /-- `The destination directory path cannot be empty`. -/
  | emptyDirectory
  | mkdirAll
  | createBackup
  /-- The destination cannot be opened, or the copy ends early. -/
  | copy
deriving DecidableEq, Repr

/-- What arrives of a file of the payload, and how many of its bytes do not. -/
structure ArrivedFile where
  name : Text
  data : Bytes
  missing : Nat
deriving DecidableEq, Repr

/-- What a buffer of the declared size holds after one `Read` of all that arrives. -/
def ArrivedFile.buffer (f : ArrivedFile) : Bytes := f.data ++ List.replicate f.missing 0

namespace SingleFileData

variable (s : SingleFileData)

/-- The destination directory, made if it does not exist. -/
def makeDirectory (io : UpdateFaults) (fs : FileSys) : Option FileSys :=
  if fs.dirs s.destDirectory || io.stat then some fs
  else if io.mkdirAll then none
  else some (fs.mkdirAll s.destDirectory)

/-- The copy of the original to the open backup. -/
def copyOriginal (io : UpdateFaults) (fs : FileSys) : FileSys :=
  match fs.read s.destPath with
  | some orig =>
    if io.openOriginal then fs
    else fs.write s.backupPath s.permissions (FileSys.copied io.copyOriginal orig.content)
  | none => fs

/-- The copy of the payload to the destination. -/
def overwrite (io : UpdateFaults) (f : ArrivedFile) (fs : FileSys) :
    Option UpdateFileError × SingleFileData × FileSys :=
  match fs.create s.destPath s.destDirectory s.permissions io.createDestination with
  | none => (some .copy, s, fs)
  | some fs =>
    (if f.missing = 0 ∧ io.copyPayload = none then none else some .copy, s,
      fs.write s.destPath s.permissions (FileSys.copied io.copyPayload f.data))

/-- The handler when the name of the backup is set. -/
def withBackup : SingleFileData := { s with rollbackFileName := s.backupPath }

/-- `updateFile`. -/
def updateFileFaulty (io : UpdateFaults) (f : ArrivedFile) (fs : FileSys) :
    Option UpdateFileError × SingleFileData × FileSys :=
  if s.destDirectory = [] then (some .emptyDirectory, s, fs)
  else
    match s.makeDirectory io fs with
    | none => (some .mkdirAll, s, fs)
    | some fs =>
      if s.rollbackSupport then
        let s := s.withBackup
        match fs.create s.backupPath s.destDirectory s.permissions io.createBackup with
        | none => (some .createBackup, s, fs)
        | some fs => s.overwrite io f (s.copyOriginal io fs)
      else s.overwrite io f fs

/-- `StoreUpdate`, and what it returns. -/
def storeUpdateFaulty (io : UpdateFaults) (f : ArrivedFile) (fs : FileSys) :
    Option UpdateFileError × SingleFileData × FileSys :=
  let text := readPayloadFile f.buffer
  if f.name = "dest_dir".toList then (none, { s with destDirectory := text }, fs)
  else if f.name = "filename".toList then (none, { s with filename := text }, fs)
  else if f.name = "permissions".toList then
    (none, { s with permissions := parsePermissions text }, fs)
  else if f.name = "rollback_support".toList then
    (none, { s with rollbackSupport := decide (text = "true".toList) }, fs)
  else if f.name = s.filename then
    -- the error is dropped
    let (_, s, fs) := s.updateFileFaulty io f fs
    (none, s, fs)
  else (none, s, fs)

/-- `Rollback`: whether it returns an error, and the files. -/
def rollbackFaulty (io : RollbackFaults) (fs : FileSys) : Bool × FileSys :=
  let rollbackFile := if io.openBackup then none else fs.read s.rollbackFileName
  match fs.create s.destPath s.destDirectory s.permissions io.createDestination, rollbackFile with
  | none, _ => (true, fs)
  | some fs, none => (true, fs)
  | some fs, some backup =>
    -- the backup may be the destination itself
    let content := ((fs.read s.rollbackFileName).map RegularFile.content).getD backup.content
    let fs := fs.write s.destPath s.permissions (FileSys.copied io.copyBackup content)
    if io.copyBackup.isSome then (true, fs)
    else (false, if io.removeBackup then fs else fs.remove s.rollbackFileName)

/-- `handleFailure` of an artifact with this payload. -/
def handleFailure (io : RollbackFaults) (fs : FileSys) : FileSys :=
  if s.rollbackSupport then (s.rollbackFaulty io fs).2 else fs

/-! ## Without failures -/

section NoFaults

variable {s} {fs : FileSys}

theorem makeDirectory_none (s : SingleFileData) (fs : FileSys) :
    s.makeDirectory noUpdateFaults fs =
      some (if fs.dirs s.destDirectory then fs else fs.mkdirAll s.destDirectory) := by
  unfold makeDirectory noUpdateFaults
  cases fs.dirs s.destDirectory <;> rfl

theorem dirs_of_makeDirectory {io : UpdateFaults} {fs' : FileSys} (hstat : io.stat = false)
    (h : s.makeDirectory io fs = some fs') : fs'.dirs s.destDirectory = true := by
  unfold makeDirectory at h
  rw [hstat, Bool.or_false] at h
  split at h
  · next hdir =>
    cases h
    exact hdir
  · split at h
    · cases h
    · cases h
      exact if_pos rfl

theorem create_none {path : Text} {mode : Nat} (h : fs.dirs s.destDirectory = true) :
    fs.create path s.destDirectory mode false = some (fs.write path mode []) :=
  (FileSys.create_eq _ _ _).trans (if_pos ⟨rfl, h⟩)

theorem overwrite_none {name : Text} {data : Bytes} (h : fs.dirs s.destDirectory = true) :
    s.overwrite noUpdateFaults ⟨name, data, 0⟩ fs =
      (none, s, fs.write s.destPath s.permissions data) := by
  have hcreate : fs.create s.destPath s.destDirectory s.permissions
      noUpdateFaults.createDestination = some (fs.write s.destPath s.permissions []) := create_none h
  unfold overwrite
  rw [hcreate]
  dsimp only
  rw [FileSys.write_write]
  rfl

@[simp] theorem dirs_copyOriginal (io : UpdateFaults) : (s.copyOriginal io fs).dirs = fs.dirs := by
  unfold copyOriginal
  split
  · split <;> rfl
  · rfl

/-- Without failures, `updateFile` is the one that has no failures. -/
theorem updateFileFaulty_none (name : Text) (data : Bytes) :
    s.updateFileFaulty noUpdateFaults ⟨name, data, 0⟩ fs =
      (if s.destDirectory = [] then some .emptyDirectory else none, s.updateFile data fs) := by
  unfold updateFileFaulty updateFile
  split
  · rfl
  · have hmake := makeDirectory_none s fs
    have hdirs := dirs_of_makeDirectory rfl hmake
    rw [hmake]
    generalize (if fs.dirs s.destDirectory then fs else fs.mkdirAll s.destDirectory) = fs' at hdirs
    dsimp only
    split
    · have hcreate : fs'.create s.withBackup.backupPath s.withBackup.destDirectory
          s.withBackup.permissions noUpdateFaults.createBackup =
            some (fs'.write s.backupPath s.permissions []) := create_none hdirs
      rw [hcreate]
      exact overwrite_none (by rw [dirs_copyOriginal]; exact hdirs)
    · exact overwrite_none hdirs

theorem rollbackFaulty_none (h : fs.dirs s.destDirectory = true) :
    s.rollbackFaulty noRollbackFaults fs = s.rollback false fs := by
  have hcreate : fs.create s.destPath s.destDirectory s.permissions
      noRollbackFaults.createDestination = some (fs.write s.destPath s.permissions []) :=
    create_none h
  unfold rollbackFaulty rollback
  rw [hcreate]
  cases fs.read s.rollbackFileName with
  | none => rfl
  | some backup => rfl

end NoFaults

end SingleFileData

/-! ## A failed update -/

/-- A single-file payload as the artifact tool writes it, with or without rollback support. -/
structure SingleFilePayload where
  destDir : Bytes
  filename : Bytes
  permissions : Bytes
  rollbackSupport : Bytes
  data : Bytes
  no_slash : '/' ∉ SingleFileData.readPayloadFile filename
  not_reserved : SingleFileData.readPayloadFile filename ∉ reservedNames

namespace SingleFilePayload

variable (p : SingleFilePayload)

def fileName : Text := SingleFileData.readPayloadFile p.filename

def files : List DataFile :=
  [⟨"dest_dir".toList, p.destDir⟩, ⟨"filename".toList, p.filename⟩,
    ⟨"permissions".toList, p.permissions⟩, ⟨"rollback_support".toList, p.rollbackSupport⟩,
    ⟨p.fileName, p.data⟩]

/-- The artifact asked for rollback support. -/
def asksForRollback : Bool :=
  decide (SingleFileData.readPayloadFile p.rollbackSupport = "true".toList)

/-- The settings of the payload. -/
def settings : SingleFileData where
  destDirectory := SingleFileData.readPayloadFile p.destDir
  filename := p.fileName
  permissions := SingleFileData.parsePermissions (SingleFileData.readPayloadFile p.permissions)
  rollbackFileName := []
  rollbackSupport := p.asksForRollback

def destPath : Text := p.settings.destPath

def backupPath : Text := p.settings.backupPath

/-- The files that arrive when the stream fails after `k` files, or in the next one: then the first
`cut` bytes of it arrive. -/
def arrived (k : Nat) (cut : Option Nat) : List ArrivedFile :=
  (p.files.take k).map (fun f => ⟨f.name, f.data, 0⟩) ++
    match cut with
    | none => []
    | some n => p.files[k]?.toList.map fun f => ⟨f.name, f.data.take n, f.data.length - n⟩

/-- The store phase, until it fails. -/
def storePhase (k : Nat) (cut : Option Nat) (io : UpdateFaults) (fs : FileSys) :
    SingleFileData × FileSys :=
  (p.arrived k cut).foldl (fun (s, fs) f => (s.storeUpdateFaulty io f fs).2)
    (newSingleFileUpdater, fs)

/-- The files after an update whose store phase failed. -/
def failedUpdate (k : Nat) (cut : Option Nat) (io : UpdateFaults) (rio : RollbackFaults)
    (fs : FileSys) : FileSys :=
  (p.storePhase k cut io fs).1.handleFailure rio (p.storePhase k cut io fs).2

/-- `StoreUpdate` for the file of the payload, of which `n` bytes arrive. -/
def storePayload (n : Nat) (io : UpdateFaults) (fs : FileSys) :
    Option UpdateFileError × SingleFileData × FileSys :=
  p.settings.storeUpdateFaulty io ⟨p.fileName, p.data.take n, p.data.length - n⟩ fs

/-! ## What is promised -/

/-- The content of the destination file. -/
def content (fs : FileSys) : Option Bytes := (fs.files p.destPath).map RegularFile.content

/-- The payload is not taken for stored unless the destination holds all of it. -/
def StoredIfNil (n : Nat) (io : UpdateFaults) (fs : FileSys) : Prop :=
  (p.storePayload n io fs).1 = none → p.content (p.storePayload n io fs).2.2 = some p.data

/-- The destination is as it was, and there is no backup. -/
structure Undone (fs fs' : FileSys) : Prop where
  destination : fs'.files p.destPath = fs.files p.destPath
  backup : fs'.files p.backupPath = none

/-! ## When it is kept -/

/-- The directory exists when files are opened in it. -/
def DirectoryReady (io : UpdateFaults) (fs : FileSys) : Prop :=
  fs.dirs p.settings.destDirectory = true ∨ io.stat = false ∧ io.mkdirAll = false

/-- The destination is opened for the payload. -/
structure Overwritten (io : UpdateFaults) (fs : FileSys) : Prop where
  dest_ne : p.settings.destDirectory ≠ []
  directory : p.DirectoryReady io fs
  backup : p.asksForRollback = true → io.createBackup = false
  destination : io.createDestination = false

/-- A copy gets to the end of the data. -/
def CopiesAll (fails : Option Nat) (data : Bytes) : Prop := ∀ n, fails = some n → data.length ≤ n

/-- The destination is overwritten with all of the payload, or it held it before. -/
def Delivers (n : Nat) (io : UpdateFaults) (fs : FileSys) : Prop :=
  (p.Overwritten io fs → p.data.length ≤ n ∧ CopiesAll io.copyPayload p.data) ∧
    (¬ p.Overwritten io fs → p.content fs = some p.data)

/-- Whether rollback support is asked for is read before the failure. -/
def RollbackRead (k : Nat) (cut : Option Nat) : Prop :=
  4 ≤ k ∨ k = 3 ∧ ∃ n, cut = some n ∧ p.rollbackSupport.length ≤ n

/-- The file of the payload begins to arrive before the failure. -/
def PayloadArrives (k : Nat) (cut : Option Nat) : Prop := 5 ≤ k ∨ k = 4 ∧ cut ≠ none

/-- The name of a backup is set. -/
def NamesBackup (io : UpdateFaults) (fs : FileSys) : Prop :=
  p.settings.destDirectory ≠ [] ∧
    (fs.dirs p.settings.destDirectory = true ∨ io.stat = true ∨ io.mkdirAll = false)

/-- The backup is a copy of the original. -/
def BacksUp (io : UpdateFaults) (original : Bytes) : Prop :=
  original = [] ∨ io.openOriginal = false ∧ CopiesAll io.copyOriginal original

/-- The ways in which a failed update leaves everything as it was. -/
inductive Undoable (k : Nat) (cut : Option Nat) (io : UpdateFaults) (rio : RollbackFaults)
    (fs : FileSys) : Prop where
  /-- The handler does not know that it supports rollback. -/
  | unread (hread : ¬ p.RollbackRead k cut) (hfree : fs.files p.backupPath = none)
  /-- `Rollback` has no backup, and cannot open the destination, or it was empty before. -/
  | unnamed (hread : p.RollbackRead k cut) (hname : ¬ (PayloadArrives k cut ∧ p.NamesBackup io fs))
      (hfree : fs.files p.backupPath = none)
      (hkept : rio.createDestination = false → fs.dirs p.settings.destDirectory = true →
        p.content fs = some [])
  /-- The same, if the backup could not be created. -/
  | uncreated (harrives : PayloadArrives k cut) (hname : p.NamesBackup io fs)
      (hcreate : ¬ (p.DirectoryReady io fs ∧ io.createBackup = false))
      (hfree : fs.files p.backupPath = none)
      (hkept : rio.createDestination = false → p.DirectoryReady io fs → p.content fs = some [])
  /-- A backup of an earlier update is still there, and it is the same. -/
  | old (harrives : PayloadArrives k cut) (hname : p.NamesBackup io fs)
      (hcreate : ¬ (p.DirectoryReady io fs ∧ io.createBackup = false)) (hrio : rio = noRollbackFaults)
      (hready : p.DirectoryReady io fs) (backup : RegularFile)
      (hbackup : fs.files p.backupPath = some backup) (hsame : p.content fs = some backup.content)
  /-- The destination existed, it is backed up as a whole, and `Rollback` does not fail. -/
  | backedUp (harrives : PayloadArrives k cut) (hname : p.NamesBackup io fs)
      (hcreate : p.DirectoryReady io fs ∧ io.createBackup = false) (hrio : rio = noRollbackFaults)
      (original : RegularFile) (hexists : fs.files p.destPath = some original)
      (hbackup : BacksUp io original.content)

/-! ## The store phase -/

variable {p} {k n : Nat} {cut : Option Nat} {io : UpdateFaults} {rio : RollbackFaults} {fs : FileSys}

theorem storeUpdateFaulty_payload (f : ArrivedFile) (hf : f.name = p.fileName) :
    p.settings.storeUpdateFaulty io f fs = (none, (p.settings.updateFileFaulty io f fs).2) := by
  have hres := p.not_reserved
  simp only [reservedNames, List.mem_cons, List.not_mem_nil, or_false, not_or] at hres
  obtain ⟨hdest, hname, hpermissions, hrollback⟩ := hres
  unfold SingleFileData.storeUpdateFaulty
  rw [hf]
  exact (if_neg hdest).trans ((if_neg hname).trans ((if_neg hpermissions).trans
    ((if_neg hrollback).trans (if_pos rfl))))

/-- The handler after three files, without what it has read of the fourth. -/
theorem rollbackSupport_cut (hn : n < p.rollbackSupport.length) :
    decide (SingleFileData.readPayloadFile (p.rollbackSupport.take n ++
      List.replicate (p.rollbackSupport.length - n) 0) = "true".toList) = false := by
  rw [decide_eq_false_iff_not]
  intro heq
  have hzero : '\x00' ∈ SingleFileData.readPayloadFile (p.rollbackSupport.take n ++
      List.replicate (p.rollbackSupport.length - n) 0) := by
    apply SingleFileData.zero_mem_trimSpace
    refine List.mem_map.mpr ⟨0, List.mem_append_right _ (List.mem_replicate.mpr ⟨?_, rfl⟩), rfl⟩
    omega
  rw [heq] at hzero
  exact absurd hzero (by decide)

theorem storePhase_settings (p : SingleFilePayload) (io : UpdateFaults) (fs : FileSys) :
    p.storePhase 4 none io fs = (p.settings, fs) := by
  have hread : p.storePhase 4 none io fs =
      (⟨SingleFileData.readPayloadFile (p.destDir ++ []),
        SingleFileData.readPayloadFile (p.filename ++ []),
        SingleFileData.parsePermissions (SingleFileData.readPayloadFile (p.permissions ++ [])), [],
        decide (SingleFileData.readPayloadFile (p.rollbackSupport ++ []) = "true".toList)⟩, fs) := rfl
  rw [hread]
  simp only [List.append_nil]
  rfl

/-- The files behind the settings find them read. -/
theorem storePhase_arrived {f : ArrivedFile} (hf : f.name = p.fileName)
    (h : p.arrived k cut = p.arrived 4 none ++ [f]) :
    p.storePhase k cut io fs = (p.settings.updateFileFaulty io f fs).2 := by
  have hsettings := storePhase_settings p io fs
  unfold storePhase at hsettings ⊢
  rw [h, List.foldl_append, hsettings]
  have hlast : (p.settings.storeUpdateFaulty io f fs).2 =
      (p.settings.updateFileFaulty io f fs).2 := by
    rw [storeUpdateFaulty_payload f hf]
  exact hlast

/-- What the store phase has done when it fails. -/
theorem storePhase_cases (k : Nat) (cut : Option Nat) (io : UpdateFaults) (fs : FileSys) :
    (¬ p.RollbackRead k cut ∧ (p.storePhase k cut io fs).1.rollbackSupport = false ∧
        (p.storePhase k cut io fs).2 = fs) ∨
      (p.RollbackRead k cut ∧ ¬ PayloadArrives k cut ∧
        p.storePhase k cut io fs = (p.settings, fs)) ∨
      (PayloadArrives k cut ∧
        ∃ f, p.storePhase k cut io fs = (p.settings.updateFileFaulty io f fs).2) := by
  unfold RollbackRead PayloadArrives
  match k, cut with
  | 0, none => exact .inl ⟨by omega, rfl, rfl⟩
  | 0, some n => exact .inl ⟨by omega, rfl, rfl⟩
  | 1, none => exact .inl ⟨by omega, rfl, rfl⟩
  | 1, some n => exact .inl ⟨by omega, rfl, rfl⟩
  | 2, none => exact .inl ⟨by omega, rfl, rfl⟩
  | 2, some n => exact .inl ⟨by omega, rfl, rfl⟩
  | 3, none => exact .inl ⟨by simp, rfl, rfl⟩
  | 3, some n =>
    by_cases hn : p.rollbackSupport.length ≤ n
    · have harrived : p.arrived 3 (some n) = p.arrived 4 none := by
        have hwhole : (⟨"rollback_support".toList, p.rollbackSupport.take n,
            p.rollbackSupport.length - n⟩ : ArrivedFile) =
              ⟨"rollback_support".toList, p.rollbackSupport, 0⟩ := by
          rw [List.take_of_length_le hn, Nat.sub_eq_zero_of_le hn]
        exact congrArg (_ :: _ :: _ :: [·]) hwhole
      refine .inr (.inl ⟨.inr ⟨rfl, n, rfl, hn⟩, by simp, ?_⟩)
      rw [← storePhase_settings p io fs]
      unfold storePhase
      rw [harrived]
    · have hlt := Nat.lt_of_not_le hn
      refine .inl ⟨?_, rollbackSupport_cut hlt, rfl⟩
      rintro (h | ⟨-, m, hm, hle⟩)
      · omega
      · cases hm
        exact hn hle
  | 4, none => exact .inr (.inl ⟨by simp, by simp, storePhase_settings p io fs⟩)
  | 4, some n => exact .inr (.inr ⟨by simp, _, storePhase_arrived rfl rfl⟩)
  | k + 5, cut =>
    refine .inr (.inr ⟨by omega, ⟨p.fileName, p.data, 0⟩, storePhase_arrived rfl ?_⟩)
    have hall : p.files.take (k + 5) = p.files := List.take_of_length_le (Nat.le_add_left 5 k)
    unfold arrived
    rw [hall]
    cases cut <;> rfl

/-! ## The payload -/

theorem destPath_ne_backupPath (p : SingleFilePayload) : p.destPath ≠ p.backupPath := by
  by_cases hdir : p.settings.destDirectory = []
  · unfold destPath backupPath SingleFileData.destPath SingleFileData.backupPath
    rw [hdir]
    exact joinPath_nil_ne_append p.no_slash (by decide) (by decide)
  · exact joinPath_ne_append hdir p.no_slash (by decide) (by decide)

theorem makeDirectory_cases (p : SingleFilePayload) (io : UpdateFaults) (fs : FileSys) :
    (p.settings.makeDirectory io fs = none ∧ ¬ p.NamesBackup io fs) ∨
      ∃ fs', p.settings.makeDirectory io fs = some fs' ∧ fs'.files = fs.files ∧
        (p.settings.destDirectory ≠ [] → p.NamesBackup io fs) ∧
        (fs'.dirs p.settings.destDirectory = true ↔ p.DirectoryReady io fs) := by
  unfold SingleFileData.makeDirectory NamesBackup DirectoryReady
  cases hdirs : fs.dirs p.settings.destDirectory with
  | true => exact .inr ⟨fs, rfl, rfl, fun hne => ⟨hne, .inl rfl⟩, iff_of_true hdirs (.inl rfl)⟩
  | false =>
    cases hstat : io.stat with
    | true =>
      refine .inr ⟨fs, rfl, rfl, fun hne => ⟨hne, .inr (.inl rfl)⟩, ?_⟩
      simp [hdirs]
    | false =>
      cases hmkdir : io.mkdirAll with
      | true => exact .inl ⟨rfl, by simp⟩
      | false =>
        exact .inr ⟨_, rfl, rfl, fun hne => ⟨hne, .inr (.inr rfl)⟩,
          iff_of_true (if_pos rfl) (.inr ⟨rfl, rfl⟩)⟩

/-- The handler and the files when the payload has been copied, or the destination was not
opened. -/
theorem overwrite_snd (s : SingleFileData) (io : UpdateFaults) (f : ArrivedFile) (fs : FileSys) :
    (s.overwrite io f fs).2 =
      (s, if io.createDestination = false ∧ fs.dirs s.destDirectory = true then
        fs.write s.destPath s.permissions (FileSys.copied io.copyPayload f.data) else fs) := by
  unfold SingleFileData.overwrite
  rw [FileSys.create_eq]
  by_cases hopens : io.createDestination = false ∧ fs.dirs s.destDirectory = true
  · rw [if_pos hopens, if_pos hopens]
    dsimp only
    rw [FileSys.write_write]
  · rw [if_neg hopens, if_neg hopens]

/-- What `updateFile` does, with the directory made. -/
theorem updateFile_cases (p : SingleFilePayload) (io : UpdateFaults) (f : ArrivedFile)
    (fs : FileSys) :
    (¬ p.NamesBackup io fs ∧ (p.settings.updateFileFaulty io f fs).2 = (p.settings, fs)) ∨
      (p.NamesBackup io fs ∧ ∃ fs', fs'.files = fs.files ∧
        (fs'.dirs p.settings.destDirectory = true ↔ p.DirectoryReady io fs) ∧
        (p.settings.updateFileFaulty io f fs).2 =
          if p.asksForRollback then
            if fs'.dirs p.settings.destDirectory = true ∧ io.createBackup = false then
              (p.settings.withBackup.overwrite io f (p.settings.withBackup.copyOriginal io
                (fs'.write p.backupPath p.settings.permissions []))).2
            else (p.settings.withBackup, fs')
          else (p.settings.overwrite io f fs').2) := by
  unfold SingleFileData.updateFileFaulty
  by_cases hdir : p.settings.destDirectory = []
  · rw [if_pos hdir]
    exact .inl ⟨fun h => h.1 hdir, rfl⟩
  · rw [if_neg hdir]
    rcases p.makeDirectory_cases io fs with ⟨hmake, hname⟩ | ⟨fs', hmake, hfiles, hname, hready⟩
    · rw [hmake]
      exact .inl ⟨hname, rfl⟩
    · rw [hmake]
      refine .inr ⟨hname hdir, fs', hfiles, hready, ?_⟩
      dsimp only
      have hasks : p.settings.rollbackSupport = p.asksForRollback := rfl
      rw [hasks]
      split
      · rw [FileSys.create_eq]
        have hdirectory : p.settings.withBackup.destDirectory = p.settings.destDirectory := rfl
        rw [hdirectory]
        by_cases hopens : fs'.dirs p.settings.destDirectory = true ∧ io.createBackup = false
        · rw [if_pos hopens.symm, if_pos hopens]
          rfl
        · rw [if_neg fun h => hopens h.symm, if_neg hopens]
      · rfl

theorem copyOriginal_of_ne (s : SingleFileData) (io : UpdateFaults) (fs : FileSys) {path : Text}
    (h : path ≠ s.backupPath) : (s.copyOriginal io fs).files path = fs.files path := by
  unfold SingleFileData.copyOriginal
  split
  · split
    · rfl
    · exact FileSys.write_of_ne h
  · rfl

theorem content_write {mode : Nat} {data : Bytes} :
    p.content (fs.write p.destPath mode data) = some data :=
  congrArg (Option.map RegularFile.content) FileSys.write_self

/-- The content of the destination after an overwriting, by whichever handler. -/
theorem content_overwrite {s : SingleFileData} {fs' : FileSys} (f : ArrivedFile)
    (hpath : s.destPath = p.destPath) (hcontent : p.content fs' = p.content fs) :
    p.content (s.overwrite io f fs').2.2 =
      if io.createDestination = false ∧ fs'.dirs s.destDirectory = true then
        some (FileSys.copied io.copyPayload f.data) else p.content fs := by
  rw [overwrite_snd]
  dsimp only
  split
  · rw [hpath, content_write]
  · exact hcontent

theorem content_updateFile (p : SingleFilePayload) (io : UpdateFaults) (f : ArrivedFile)
    (fs : FileSys) :
    (p.Overwritten io fs → p.content (p.settings.updateFileFaulty io f fs).2.2 =
        some (FileSys.copied io.copyPayload f.data)) ∧
      (¬ p.Overwritten io fs →
        p.content (p.settings.updateFileFaulty io f fs).2.2 = p.content fs) := by
  rcases p.updateFile_cases io f fs with ⟨hname, hupdate⟩ | ⟨hname, fs', hfiles, hready, hupdate⟩
  · rw [hupdate]
    refine ⟨fun h => absurd ⟨h.dest_ne, ?_⟩ hname, fun _ => rfl⟩
    exact h.directory.imp_right fun hmade => .inr hmade.2
  · rw [hupdate]
    have hcontent : p.content fs' = p.content fs := by
      unfold content
      rw [hfiles]
    by_cases hasks : p.asksForRollback = true
    · rw [if_pos hasks]
      by_cases hcreate : fs'.dirs p.settings.destDirectory = true ∧ io.createBackup = false
      · rw [if_pos hcreate]
        have hbackedUp : p.content (p.settings.withBackup.copyOriginal io
            (fs'.write p.backupPath p.settings.permissions [])) = p.content fs := by
          have hne : p.destPath ≠ p.settings.withBackup.backupPath := p.destPath_ne_backupPath
          rw [← hcontent]
          unfold content
          rw [copyOriginal_of_ne _ _ _ hne, FileSys.write_of_ne p.destPath_ne_backupPath]
        rw [content_overwrite (s := p.settings.withBackup) f rfl hbackedUp,
          SingleFileData.dirs_copyOriginal]
        constructor
        · intro h
          exact if_pos ⟨h.destination, hcreate.1⟩
        · intro h
          exact if_neg fun hopens =>
            h ⟨hname.1, hready.mp hcreate.1, fun _ => hcreate.2, hopens.1⟩
      · rw [if_neg hcreate]
        exact ⟨fun h => absurd ⟨hready.mpr h.directory, h.backup hasks⟩ hcreate, fun _ => hcontent⟩
    · rw [if_neg hasks, content_overwrite f rfl hcontent]
      constructor
      · intro h
        exact if_pos ⟨h.destination, hready.mpr h.directory⟩
      · intro h
        exact if_neg fun hopens =>
          h ⟨hname.1, hready.mp hopens.2, fun hask => absurd hask hasks, hopens.1⟩

theorem take_eq_self_iff {data : Bytes} : data.take n = data ↔ data.length ≤ n := by
  refine ⟨fun h => ?_, List.take_of_length_le⟩
  have hlength := congrArg List.length h
  rw [List.length_take] at hlength
  omega

theorem copied_eq_self_iff {fails : Option Nat} {data : Bytes} :
    FileSys.copied fails data = data ↔ CopiesAll fails data := by
  unfold CopiesAll
  cases fails with
  | none => exact iff_of_true rfl fun _ => nofun
  | some m =>
    simp only [FileSys.copied, Option.some.injEq, forall_eq']
    exact take_eq_self_iff

theorem copied_take_eq_iff {fails : Option Nat} {data : Bytes} :
    FileSys.copied fails (data.take n) = data ↔ data.length ≤ n ∧ CopiesAll fails data := by
  unfold CopiesAll
  cases fails with
  | none => exact take_eq_self_iff.trans ⟨fun h => ⟨h, fun _ => nofun⟩, And.left⟩
  | some m =>
    simp only [FileSys.copied, List.take_take, take_eq_self_iff, Option.some.injEq, forall_eq']
    omega

theorem storedIfNil_iff (p : SingleFilePayload) (n : Nat) (io : UpdateFaults) (fs : FileSys) :
    p.StoredIfNil n io fs ↔ p.Delivers n io fs := by
  obtain ⟨hoverwritten, hkept⟩ :=
    p.content_updateFile io ⟨p.fileName, p.data.take n, p.data.length - n⟩ fs
  unfold StoredIfNil storePayload Delivers
  rw [storeUpdateFaulty_payload _ rfl]
  by_cases h : p.Overwritten io fs
  · rw [hoverwritten h, Option.some.injEq, copied_take_eq_iff]
    exact ⟨fun hnil => ⟨fun _ => hnil rfl, absurd h⟩, fun hdelivers _ => hdelivers.1 h⟩
  · rw [hkept h]
    exact ⟨fun hnil => ⟨fun h' => absurd h' h, fun _ => hnil rfl⟩, fun hdelivers _ => hdelivers.2 h⟩

/-! ## The rollback -/

section Rollback

variable {s : SingleFileData} {fs' : FileSys}

/-- Writing brings a file back, as its mode is kept. -/
theorem write_restores_iff {mode : Nat} {data : Bytes}
    (hmode : ∀ f, fs.files p.destPath = some f →
      ∃ f', fs'.files p.destPath = some f' ∧ f'.mode = f.mode) :
    (fs'.write p.destPath mode data).files p.destPath = fs.files p.destPath ↔
      p.content fs = some data := by
  unfold content
  rw [FileSys.write_self]
  constructor
  · intro heq
    rw [← heq]
    rfl
  · intro hcontent
    obtain ⟨f, hf, rfl⟩ := Option.map_eq_some_iff.mp hcontent
    obtain ⟨f', hf', hmode'⟩ := hmode f hf
    rw [hf, hf', Option.map_some, Option.getD_some, hmode']

/-- A rollback without a backup leaves the destination, or empties it. -/
theorem undone_without_iff (hpath : s.destPath = p.destPath)
    (hdirectory : s.destDirectory = p.settings.destDirectory) (hfiles : fs'.files = fs.files)
    (hread : fs'.read s.rollbackFileName = none) :
    p.Undone fs (s.rollbackFaulty rio fs').2 ↔
      fs.files p.backupPath = none ∧
        (rio.createDestination = false → fs'.dirs p.settings.destDirectory = true →
          p.content fs = some []) := by
  have hresult : (s.rollbackFaulty rio fs').2 =
      if rio.createDestination = false ∧ fs'.dirs p.settings.destDirectory = true then
        fs'.write p.destPath s.permissions [] else fs' := by
    unfold SingleFileData.rollbackFaulty
    rw [hread, ite_self, FileSys.create_eq, hpath, hdirectory]
    split_ifs <;> rfl
  have hmode : ∀ f, fs.files p.destPath = some f →
      ∃ f', fs'.files p.destPath = some f' ∧ f'.mode = f.mode := by
    intro f hf
    exact ⟨f, by rw [hfiles, hf], rfl⟩
  rw [hresult]
  split
  · next hopens =>
    constructor
    · rintro ⟨hdest, hbackup⟩
      rw [FileSys.write_of_ne p.destPath_ne_backupPath.symm, hfiles] at hbackup
      exact ⟨hbackup, fun _ _ => (write_restores_iff hmode).mp hdest⟩
    · rintro ⟨hfree, hkept⟩
      refine ⟨(write_restores_iff hmode).mpr (hkept hopens.1 hopens.2), ?_⟩
      rw [FileSys.write_of_ne p.destPath_ne_backupPath.symm, hfiles, hfree]
  · next hopens =>
    constructor
    · rintro ⟨-, hbackup⟩
      rw [hfiles] at hbackup
      exact ⟨hbackup, fun hcreate hdirs => absurd ⟨hcreate, hdirs⟩ hopens⟩
    · rintro ⟨hfree, -⟩
      exact ⟨by rw [hfiles], by rw [hfiles, hfree]⟩

/-- A rollback with a backup brings it back, and removes it, if nothing fails. -/
theorem undone_with_iff {backup : RegularFile} (hpath : s.destPath = p.destPath)
    (hdirectory : s.destDirectory = p.settings.destDirectory)
    (hname : s.rollbackFileName = p.backupPath) (hne : p.backupPath ≠ [])
    (hbackup : fs'.files p.backupPath = some backup)
    (hmode : ∀ f, fs.files p.destPath = some f →
      ∃ f', fs'.files p.destPath = some f' ∧ f'.mode = f.mode) :
    p.Undone fs (s.rollbackFaulty rio fs').2 ↔
      rio = noRollbackFaults ∧ fs'.dirs p.settings.destDirectory = true ∧
        p.content fs = some backup.content := by
  have hwritten : ∀ mode data, (fs'.write p.destPath mode data).files p.backupPath = some backup := by
    intro mode data
    rw [FileSys.write_of_ne p.destPath_ne_backupPath.symm, hbackup]
  have hread : fs'.read p.backupPath = some backup := by
    rw [FileSys.read_of_ne_empty hne, hbackup]
  have hreread : ∀ mode data, (fs'.write p.destPath mode data).read p.backupPath = some backup := by
    intro mode data
    rw [FileSys.read_of_ne_empty hne, hwritten]
  -- while a backup is there, nothing is undone
  have hleft : ∀ fs'' : FileSys, fs''.files p.backupPath = some backup → ¬ p.Undone fs fs'' := by
    intro fs'' hthere hundone
    rw [hundone.backup] at hthere
    cases hthere
  unfold SingleFileData.rollbackFaulty
  rw [FileSys.create_eq, hpath, hdirectory, hname, hread]
  obtain ⟨openBackup, createDestination, copyBackup, removeBackup⟩ := rio
  dsimp only
  by_cases hopens : createDestination = false ∧ fs'.dirs p.settings.destDirectory = true
  · rw [if_pos hopens]
    obtain ⟨rfl, hdirs⟩ := hopens
    cases openBackup with
    | true =>
      refine iff_of_false (hleft _ (hwritten _ _)) ?_
      rintro ⟨hrio, -⟩
      cases hrio
    | false =>
      rw [if_neg Bool.false_ne_true]
      dsimp only
      rw [hreread, Option.map_some, Option.getD_some, FileSys.write_write]
      cases copyBackup with
      | some m =>
        refine iff_of_false (hleft _ (hwritten _ _)) ?_
        rintro ⟨hrio, -⟩
        cases hrio
      | none =>
        cases removeBackup with
        | true =>
          refine iff_of_false (hleft _ (hwritten _ _)) ?_
          rintro ⟨hrio, -⟩
          cases hrio
        | false =>
          have hdest : ((fs'.write p.destPath s.permissions backup.content).remove
              p.backupPath).files p.destPath =
                (fs'.write p.destPath s.permissions backup.content).files p.destPath :=
            FileSys.remove_of_ne p.destPath_ne_backupPath
          constructor
          · rintro ⟨hrestored, -⟩
            exact ⟨rfl, hdirs, (write_restores_iff hmode).mp (hdest.symm.trans hrestored)⟩
          · rintro ⟨-, -, hcontent⟩
            exact ⟨hdest.trans ((write_restores_iff hmode).mpr hcontent), FileSys.remove_self⟩
  · rw [if_neg hopens]
    refine iff_of_false (hleft _ hbackup) ?_
    rintro ⟨hrio, hdirs, -⟩
    cases hrio
    exact hopens ⟨rfl, hdirs⟩

end Rollback

/-! ## The whole update -/

theorem rollbackRead_of_arrives (h : PayloadArrives k cut) : p.RollbackRead k cut := by
  unfold RollbackRead
  unfold PayloadArrives at h
  omega

/-- The content of a new backup. -/
def backedUp (p : SingleFilePayload) (io : UpdateFaults) (fs : FileSys) : Bytes :=
  match fs.files p.destPath with
  | none => []
  | some original =>
    if io.openOriginal then [] else FileSys.copied io.copyOriginal original.content

theorem backedUp_eq_iff {original : RegularFile} (h : fs.files p.destPath = some original) :
    original.content = p.backedUp io fs ↔ BacksUp io original.content := by
  unfold backedUp BacksUp
  rw [h]
  dsimp only
  cases io.openOriginal with
  | true => simp
  | false =>
    rw [if_neg Bool.false_ne_true, eq_comm, copied_eq_self_iff]
    constructor
    · exact fun hall => .inr ⟨rfl, hall⟩
    · rintro (hnil | ⟨-, hall⟩)
      · rw [hnil]
        exact fun _ _ => Nat.zero_le _
      · exact hall

theorem copyOriginal_self (io : UpdateFaults) {fs' : FileSys} (hne : p.settings.destDirectory ≠ [])
    (hfiles : fs'.files = fs.files) :
    ∃ mode, (p.settings.withBackup.copyOriginal io
        (fs'.write p.backupPath p.settings.permissions [])).files p.backupPath =
      some ⟨p.backedUp io fs, mode⟩ := by
  have hread : (fs'.write p.backupPath p.settings.permissions []).read
      p.settings.withBackup.destPath = fs.files p.destPath := by
    have hpath : p.settings.withBackup.destPath ≠ [] := joinPath_ne_nil hne _
    rw [FileSys.read_of_ne_empty hpath]
    exact (FileSys.write_of_ne p.destPath_ne_backupPath).trans (by rw [hfiles])
  unfold SingleFileData.copyOriginal backedUp
  rw [hread]
  cases fs.files p.destPath with
  | none => exact ⟨_, FileSys.write_self⟩
  | some original =>
    cases io.openOriginal with
    | true => exact ⟨_, FileSys.write_self⟩
    | false => exact ⟨_, FileSys.write_self⟩

/-- The update fails after the payload was handed over, and a backup was created. -/
theorem undone_created_iff {fs' : FileSys} (f : ArrivedFile) (hne : p.settings.destDirectory ≠ [])
    (hfiles : fs'.files = fs.files) (hdirs : fs'.dirs p.settings.destDirectory = true) :
    p.Undone fs (p.settings.withBackup.rollbackFaulty rio
        (p.settings.withBackup.overwrite io f (p.settings.withBackup.copyOriginal io
          (fs'.write p.backupPath p.settings.permissions []))).2.2).2 ↔
      rio = noRollbackFaults ∧ ∃ original, fs.files p.destPath = some original ∧
        BacksUp io original.content := by
  obtain ⟨mode, hbackup⟩ := copyOriginal_self io hne hfiles
  have hdest : ∀ f, fs.files p.destPath = some f →
      (p.settings.withBackup.copyOriginal io
        (fs'.write p.backupPath p.settings.permissions [])).files p.destPath = some f := by
    intro f hf
    have hpath : p.destPath ≠ p.settings.withBackup.backupPath := p.destPath_ne_backupPath
    rw [copyOriginal_of_ne _ _ _ hpath, FileSys.write_of_ne p.destPath_ne_backupPath, hfiles, hf]
  have hready : (p.settings.withBackup.copyOriginal io
      (fs'.write p.backupPath p.settings.permissions [])).dirs p.settings.destDirectory = true := by
    rw [SingleFileData.dirs_copyOriginal]
    exact hdirs
  rw [overwrite_snd]
  generalize p.settings.withBackup.copyOriginal io
    (fs'.write p.backupPath p.settings.permissions []) = fs₂ at hbackup hdest hready ⊢
  dsimp only
  have hstored : ∀ fs₃ : FileSys, fs₃.files p.backupPath = some ⟨p.backedUp io fs, mode⟩ →
      (∀ f, fs.files p.destPath = some f →
        ∃ f', fs₃.files p.destPath = some f' ∧ f'.mode = f.mode) →
      fs₃.dirs p.settings.destDirectory = true →
      (p.Undone fs (p.settings.withBackup.rollbackFaulty rio fs₃).2 ↔
        rio = noRollbackFaults ∧ ∃ original, fs.files p.destPath = some original ∧
          BacksUp io original.content) := by
    intro fs₃ hbackup₃ hmode₃ hdirs₃
    rw [undone_with_iff (s := p.settings.withBackup) rfl rfl rfl (joinPath_ne_nil hne _) hbackup₃
      hmode₃]
    refine and_congr_right fun _ => ?_
    constructor
    · rintro ⟨-, hcontent⟩
      obtain ⟨original, horiginal, hsame⟩ := Option.map_eq_some_iff.mp hcontent
      exact ⟨original, horiginal, (backedUp_eq_iff horiginal).mp hsame⟩
    · rintro ⟨original, horiginal, hbacksUp⟩
      refine ⟨hdirs₃, ?_⟩
      unfold content
      rw [horiginal]
      exact congrArg some ((backedUp_eq_iff horiginal).mpr hbacksUp)
  split
  · refine hstored _ ?_ ?_ hready
    · exact (FileSys.write_of_ne p.destPath_ne_backupPath.symm).trans hbackup
    · intro f hf
      refine ⟨_, FileSys.write_self, ?_⟩
      have hsame : fs₂.files p.settings.withBackup.destPath = some f := hdest f hf
      rw [hsame, Option.map_some, Option.getD_some]
  · exact hstored _ hbackup (fun f hf => ⟨f, hdest f hf, rfl⟩) hready

theorem undone_iff (hasks : p.asksForRollback = true) (k : Nat) (cut : Option Nat)
    (io : UpdateFaults) (rio : RollbackFaults) (fs : FileSys) :
    p.Undone fs (p.failedUpdate k cut io rio fs) ↔ p.Undoable k cut io rio fs := by
  have hsettings : p.settings.rollbackSupport = true := hasks
  have hwithBackup : p.settings.withBackup.rollbackSupport = true := hasks
  -- no backup has been named: only the destination can be touched
  have hunnamed : p.Undone fs (p.settings.rollbackFaulty rio fs).2 ↔
      fs.files p.backupPath = none ∧ (rio.createDestination = false →
        fs.dirs p.settings.destDirectory = true → p.content fs = some []) :=
    undone_without_iff rfl rfl rfl rfl
  unfold failedUpdate SingleFileData.handleFailure
  rcases p.storePhase_cases k cut io fs with
    ⟨hread, hrollback, hsame⟩ | ⟨hread, harrives, hphase⟩ | ⟨harrives, f, hphase⟩
  · rw [hrollback, hsame, if_neg Bool.false_ne_true]
    constructor
    · exact fun h => .unread hread h.backup
    · rintro (⟨-, hfree⟩ | ⟨hread', -, -, -⟩ | ⟨harrives, -, -, -, -⟩ |
        ⟨harrives, -, -, -, -, -, -, -⟩ | ⟨harrives, -, -, -, -, -, -⟩)
      · exact ⟨rfl, hfree⟩
      · exact absurd hread' hread
      · exact absurd (rollbackRead_of_arrives harrives) hread
      · exact absurd (rollbackRead_of_arrives harrives) hread
      · exact absurd (rollbackRead_of_arrives harrives) hread
  · rw [hphase, if_pos hsettings, hunnamed]
    constructor
    · exact fun h => .unnamed hread (fun hname => harrives hname.1) h.1 h.2
    · rintro (⟨hread', -⟩ | ⟨-, -, hfree, hkept⟩ | ⟨harrives', -, -, -, -⟩ |
        ⟨harrives', -, -, -, -, -, -, -⟩ | ⟨harrives', -, -, -, -, -, -⟩)
      · exact absurd hread hread'
      · exact ⟨hfree, hkept⟩
      · exact absurd harrives' harrives
      · exact absurd harrives' harrives
      · exact absurd harrives' harrives
  · have hread := rollbackRead_of_arrives (p := p) harrives
    rw [hphase]
    rcases p.updateFile_cases io f fs with ⟨hname, hupdate⟩ | ⟨hname, fs', hfiles, hready, hupdate⟩
    · rw [hupdate, if_pos hsettings, hunnamed]
      constructor
      · exact fun h => .unnamed hread (fun hname' => hname hname'.2) h.1 h.2
      · rintro (⟨hread', -⟩ | ⟨-, -, hfree, hkept⟩ | ⟨-, hname', -, -, -⟩ |
          ⟨-, hname', -, -, -, -, -, -⟩ | ⟨-, hname', -, -, -, -, -⟩)
        · exact absurd hread hread'
        · exact ⟨hfree, hkept⟩
        · exact absurd hname' hname
        · exact absurd hname' hname
        · exact absurd hname' hname
    · rw [hupdate, if_pos hasks]
      by_cases hcreate : fs'.dirs p.settings.destDirectory = true ∧ io.createBackup = false
      · have hcreate' : p.DirectoryReady io fs ∧ io.createBackup = false :=
          ⟨hready.mp hcreate.1, hcreate.2⟩
        have hhandler : (p.settings.withBackup.overwrite io f (p.settings.withBackup.copyOriginal io
            (fs'.write p.backupPath p.settings.permissions []))).2.1 = p.settings.withBackup := by
          rw [overwrite_snd]
        rw [if_pos hcreate, hhandler, if_pos hwithBackup,
          undone_created_iff f hname.1 hfiles hcreate.1]
        constructor
        · rintro ⟨hrio, original, hexists, hbackup⟩
          exact .backedUp harrives hname hcreate' hrio original hexists hbackup
        · rintro (⟨hread', -⟩ | ⟨-, hname', -, -⟩ | ⟨-, -, hnot, -, -⟩ |
            ⟨-, -, hnot, -, -, -, -, -⟩ | ⟨-, -, -, hrio, original, hexists, hbackup⟩)
          · exact absurd hread hread'
          · exact absurd ⟨harrives, hname⟩ hname'
          · exact absurd hcreate' hnot
          · exact absurd hcreate' hnot
          · exact ⟨hrio, original, hexists, hbackup⟩
      · have hcreate' : ¬ (p.DirectoryReady io fs ∧ io.createBackup = false) :=
          fun h => hcreate ⟨hready.mpr h.1, h.2⟩
        have hbackupPath : p.backupPath ≠ [] := joinPath_ne_nil hname.1 _
        rw [if_neg hcreate, if_pos hwithBackup]
        cases hold : fs.files p.backupPath with
        | none =>
          have hnothing : fs'.read p.settings.withBackup.rollbackFileName = none :=
            (FileSys.read_of_ne_empty hbackupPath).trans (by rw [hfiles]; exact hold)
          rw [undone_without_iff (s := p.settings.withBackup) rfl rfl hfiles hnothing, hready]
          constructor
          · exact fun h => .uncreated harrives hname hcreate' h.1 h.2
          · rintro (⟨hread', -⟩ | ⟨-, hname', -, -⟩ | ⟨-, -, -, hfree, hkept⟩ |
              ⟨-, -, -, -, -, backup, hbackup, -⟩ | ⟨-, -, hcreated, -, -, -, -⟩)
            · exact absurd hread hread'
            · exact absurd ⟨harrives, hname⟩ hname'
            · exact ⟨hfree, hkept⟩
            · rw [hold] at hbackup
              cases hbackup
            · exact absurd hcreated hcreate'
        | some old =>
          have hmode : ∀ f, fs.files p.destPath = some f →
              ∃ f', fs'.files p.destPath = some f' ∧ f'.mode = f.mode :=
            fun f hf => ⟨f, by rw [hfiles, hf], rfl⟩
          rw [undone_with_iff (s := p.settings.withBackup) rfl rfl rfl hbackupPath
            (by rw [hfiles, hold]) hmode, hready]
          constructor
          · exact fun h => .old harrives hname hcreate' h.1 h.2.1 old hold h.2.2
          · rintro (⟨hread', -⟩ | ⟨-, hname', -, -⟩ | ⟨-, -, -, hfree, -⟩ |
              ⟨-, -, -, hrio, hdirs, backup, hbackup, hsame⟩ | ⟨-, -, hcreated, -, -, -, -⟩)
            · exact absurd hread hread'
            · exact absurd ⟨harrives, hname⟩ hname'
            · rw [hold] at hfree
              cases hfree
            · cases hold.symm.trans hbackup
              exact ⟨hrio, hdirs, hsame⟩
            · exact absurd hcreated hcreate'

/-- **A failed single-file update.** When `StoreUpdate` returns nil for the payload, the destination
holds it exactly if it was opened and the copy came to the end, or held the same content before. And
when the store phase fails for an artifact that asked for rollback support, everything is as it was
exactly in the ways of `Undoable`: before the handler knows of the rollback, or with a whole backup of
a destination that existed and a rollback that does not fail, or with a destination that was empty or
could not be opened. -/
theorem failed_update_iff (p : SingleFilePayload) (io : UpdateFaults) (fs : FileSys) :
    (∀ n, p.StoredIfNil n io fs ↔ p.Delivers n io fs) ∧
      (p.asksForRollback = true → ∀ k cut rio,
        p.Undone fs (p.failedUpdate k cut io rio fs) ↔ p.Undoable k cut io rio fs) :=
  ⟨fun n => p.storedIfNil_iff n io fs, fun hasks k cut rio => undone_iff hasks k cut io rio fs⟩

end SingleFilePayload

namespace FailedUpdateRun

def text (s : String) : Bytes := s.toList.map fun c => UInt8.ofNat c.toNat

/-- `/etc/app.ini`, with rollback support. -/
def payload : SingleFilePayload where
  destDir := text "/etc\n"
  filename := text "app.ini\n"
  permissions := text "644\n"
  rollbackSupport := text "true\n"
  data := [1, 2, 3]
  no_slash := by decide +kernel
  not_reserved := by decide +kernel

/-- The directory with these files at `/etc/app.ini`. -/
def etc (file : Option RegularFile) : FileSys where
  files path := if path = "/etc/app.ini".toList then file else none
  dirs path := decide (path = "/etc".toList)
  creationMode := id

end FailedUpdateRun

open FailedUpdateRun

/-- An existing file is brought back when the stream breaks in the middle of the payload. -/
theorem failed_update_undone :
    payload.asksForRollback = true ∧
      payload.Undone (etc (some ⟨[9], 420⟩)) (payload.failedUpdate 4 (some 1) noUpdateFaults
        noRollbackFaults (etc (some ⟨[9], 420⟩))) := by
  have hasks : payload.asksForRollback = true := by decide +kernel
  refine ⟨hasks, ((SingleFilePayload.failed_update_iff payload noUpdateFaults
    (etc (some ⟨[9], 420⟩))).2 hasks 4 (some 1) noRollbackFaults).mpr ?_⟩
  have hdirectory : payload.settings.destDirectory = "/etc".toList := by decide +kernel
  have hdest : payload.destPath = "/etc/app.ini".toList := by decide +kernel
  refine .backedUp (.inr ⟨rfl, nofun⟩) ⟨?_, .inl ?_⟩ ⟨.inl ?_, rfl⟩ rfl ⟨[9], 420⟩ ?_
    (.inr ⟨rfl, fun _ => nofun⟩)
  · rw [hdirectory]
    decide
  · rw [hdirectory]
    rfl
  · rw [hdirectory]
    rfl
  · rw [hdest]
    rfl

/-- When the stream breaks in the middle of the payload, `StoreUpdate` returns nil with a part of it
stored, and where there was no file, there is an empty one after the rollback. When it breaks right
before the payload, the rollback empties the file that was there. -/
theorem failed_update_changes :
    ¬ payload.StoredIfNil 1 noUpdateFaults (etc none) ∧
      ¬ payload.Undone (etc none) (payload.failedUpdate 4 (some 1) noUpdateFaults noRollbackFaults
        (etc none)) ∧
      ¬ payload.Undone (etc (some ⟨[9], 420⟩)) (payload.failedUpdate 4 none noUpdateFaults
        noRollbackFaults (etc (some ⟨[9], 420⟩))) := by
  have hstored : payload.content (payload.storePayload 1 noUpdateFaults (etc none)).2.2 =
      some [1] := by decide +kernel
  have hcreated : (payload.failedUpdate 4 (some 1) noUpdateFaults noRollbackFaults
      (etc none)).files payload.destPath = some ⟨[], 420⟩ := by decide +kernel
  have hemptied : (payload.failedUpdate 4 none noUpdateFaults noRollbackFaults
      (etc (some ⟨[9], 420⟩))).files payload.destPath = some ⟨[], 420⟩ := by decide +kernel
  refine ⟨fun h => ?_, fun h => ?_, fun h => ?_⟩
  · have hall := h (by decide +kernel)
    rw [hstored] at hall
    revert hall
    decide
  · have hkept := h.destination
    rw [hcreated] at hkept
    revert hkept
    decide +kernel
  · have hkept := h.destination
    rw [hemptied] at hkept
    revert hkept
    decide +kernel

end Rdfm.Linux
