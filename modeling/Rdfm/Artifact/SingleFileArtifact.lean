import Rdfm.Artifact.Writer
import Rdfm.Linux.SingleFile

/-!
# Single-file artifacts

The artifact tool writes the settings of a single-file update to four small files, each a line of
text, and the file itself behind them; the Linux client reads them back in this order. The client
reads a setting with one `Read` into a buffer of the declared size, and trims it: a reader that
returns less leaves zero bytes behind the text, and white space at the ends of a name is lost, with
which the file is not recognised any more. `single_file_roundTrip_iff` says exactly when everything
arrives.
-/

namespace Rdfm.Artifact

open Rdfm.Lib
open Rdfm.Linux (SingleFileData newSingleFileUpdater)

/-! ## Writing -/

def destDirFilename : Text := "dest_dir".toList

def filenameFilename : Text := "filename".toList

def permissionsFilename : Text := "permissions".toList

def rollbackSupportFilename : Text := "rollback_support".toList

def settingNames : List Text :=
  [destDirFilename, filenameFilename, permissionsFilename, rollbackSupportFilename]

/-- The flags of the command. -/
structure SingleFileFlags extends CommonFlags where
  artifactName : Text
  deviceTypes : List Text
  inputFile : Text
  destDir : Text
  rollbackSupport : Bool

namespace SingleFileFlags

variable (flags : SingleFileFlags)

/-- `parseInputFileName`. -/
def inputFileName : Text := pathBase flags.inputFile

/-- The permission bits of the input file, from its mode; `0644` if it has none. -/
def permissions (mode : Option Nat) : Nat := (mode.map (· % 512)).getD 420

/-- `parsePermissions`, with the mode of the input file. -/
def parsePermissions (mode : Option Nat) : Text :=
  match mode with
  | none => "0644".toList
  | some mode => Nat.toDigits 8 (mode % 512)

def parseRollbackSupport : Text := if flags.rollbackSupport then "true".toList else "false".toList

/-- `filename_to_parse`, in the order in which the files are written. -/
def settings (mode : Option Nat) : List (Text × Text) :=
  [(destDirFilename, flags.destDir), (filenameFilename, flags.inputFileName),
    (permissionsFilename, parsePermissions mode),
    (rollbackSupportFilename, flags.parseRollbackSupport)]

end SingleFileFlags

/-- The bytes of a Go string. -/
def textBytes (text : Text) : Bytes := text.map fun c => UInt8.ofNat c.toNat

/-- The files with the settings, in the directory `dir`. -/
def temporaryFiles (flags : SingleFileFlags) (mode : Option Nat) (dir : Text) :
    List (Text × Bytes) :=
  (flags.settings mode).map fun (file, value) => (dir ++ '/' :: file, textBytes (value ++ ['\n']))

/-- `dataFiles`: the settings, and behind them the input file. -/
def dataFiles (flags : SingleFileFlags) (mode : Option Nat) (dir : Text) : List DataFile :=
  (temporaryFiles flags mode dir).map (fun f => ⟨f.1, []⟩) ++ [⟨flags.inputFile, []⟩]

/-- The files, when the temporary ones have been created. -/
def withTemporary (files : Files) (flags : SingleFileFlags) (mode : Option Nat) (dir : Text) :
    Files :=
  fun path => ((temporaryFiles flags mode dir).lookup path).or (files path)

/-- `writeSingleFile`, with the mode of the input file and the temporary directory. -/
def writeSingleFile {α : Type} (lib : MenderArtifact α) (files : Files) (mode : Option Nat)
    (dir : Text) (flags : SingleFileFlags) : Except WriteError α := do
  if settingNames.contains flags.inputFileName then .error (.reservedName flags.inputFileName)
  else
    let payloadProvides ← parseKeyValuePairs flags.provides
    let payloadDepends ← parseKeyValuePairs flags.depends
    let w := ArtifactWriter.new flags.parseOutputPath
    let w := { w with args.updates := [⟨"single-file".toList, dataFiles flags mode dir⟩] }
    let w := w.withArtifactProvides flags.artifactName flags.providesGroup
    let w := w.withArtifactDepends flags.dependsArtifacts flags.deviceTypes flags.dependsGroups
    let w := w.withPayloadProvides payloadProvides
    let w := w.withPayloadDepends payloadDepends
    let w := w.withPayloadClearsProvides flags.clearsProvides
    w.write lib (withTemporary files flags mode dir)

/-! ## Reading -/

/-- What one `Read` leaves in a buffer of the declared size, of a stream that comes in chunks. -/
def firstRead (chunks : List Bytes) : Bytes :=
  let got := chunks.head?.getD []
  got ++ List.replicate (chunks.flatten.length - got.length) 0

/-- `StoreUpdate` for a stream: a setting is read once, the file is copied. -/
def storeStream (s : SingleFileData) (name : Text) (chunks : List Bytes) (fs : FileSys) :
    SingleFileData × FileSys :=
  s.storeUpdate ⟨name, if settingNames.contains name then firstRead chunks else chunks.flatten⟩ fs

/-- The files of a payload, one after the other. -/
def receive (chunks : Text → Bytes → List Bytes) (files : List (Text × Bytes)) (fs : FileSys) :
    SingleFileData × FileSys :=
  files.foldl (fun (s, fs) f => storeStream s f.1 (chunks f.1 f.2) fs) (newSingleFileUpdater, fs)

/-- The device has the settings that were given to the writer, and the content in the destination
file. -/
structure Received (flags : SingleFileFlags) (mode : Option Nat) (content : Bytes)
    (s : SingleFileData) (fs : FileSys) : Prop where
  destDirectory : s.destDirectory = flags.destDir
  filename : s.filename = flags.inputFileName
  permissions : s.permissions = SingleFileFlags.permissions mode
  rollbackSupport : s.rollbackSupport = flags.rollbackSupport
  content : (fs.files (joinPath flags.destDir flags.inputFileName)).map RegularFile.content =
    some content

/-- The first `Read` returns all of the stream. -/
def Whole (chunks : List Bytes) : Prop := chunks.head?.getD [] = chunks.flatten

/-- The settings survive: there is a destination, nothing is trimmed, and the settings are read at
once, as far as they are not those of an empty reading anyway. -/
structure Survives (flags : SingleFileFlags) (mode : Option Nat)
    (chunks : Text → Bytes → List Bytes) : Prop where
  dest_ne : flags.destDir ≠ []
  dest_trimmed : SingleFileData.trimSpace flags.destDir = flags.destDir
  name_trimmed : SingleFileData.trimSpace flags.inputFileName = flags.inputFileName
  dest_whole : Whole (chunks destDirFilename (textBytes (flags.destDir ++ ['\n'])))
  name_whole : Whole (chunks filenameFilename (textBytes (flags.inputFileName ++ ['\n'])))
  permissions_whole : SingleFileFlags.permissions mode = 0 ∨
    Whole (chunks permissionsFilename (textBytes (SingleFileFlags.parsePermissions mode ++ ['\n'])))
  rollback_whole : flags.rollbackSupport = false ∨
    Whole (chunks rollbackSupportFilename (textBytes (flags.parseRollbackSupport ++ ['\n'])))

/-- An argument of a command: bytes, none of them zero. -/
def IsArgument (text : Text) : Prop := ∀ c ∈ text, 0 < c.toNat ∧ c.toNat < 256

/-! ## Settings -/

section Settings

variable {chunks : List Bytes} {value : Text}

theorem bytesText_textBytes {text : Text} (h : IsArgument text) :
    SingleFileData.bytesText (textBytes text) = text := by
  unfold SingleFileData.bytesText textBytes
  rw [List.map_map]
  refine (List.map_congr_left fun c hc => ?_).trans (List.map_id text)
  have hlt : (UInt8.ofNat c.toNat).toNat = c.toNat := by
    rw [UInt8.toNat_ofNat']
    exact Nat.mod_eq_of_lt (h c hc).2
  change Char.ofNat (UInt8.ofNat c.toNat).toNat = c
  rw [hlt, Char.ofNat_toNat]

theorem alone_newline : Alone SingleFileData.spaces '\n' := ⟨by decide, by decide⟩

/-- A setting that is read at once arrives without the white space around it. -/
theorem readPayloadFile_whole (hvalue : IsArgument value)
    (hchunks : chunks.flatten = textBytes (value ++ ['\n'])) (hwhole : Whole chunks) :
    SingleFileData.readPayloadFile (firstRead chunks) = SingleFileData.trimSpace value := by
  have hline : IsArgument (value ++ ['\n']) := by
    intro c hc
    rcases List.mem_append.mp hc with hc | hc
    · exact hvalue c hc
    · rw [List.mem_singleton.mp hc]
      decide
  unfold Whole at hwhole
  unfold firstRead SingleFileData.readPayloadFile
  dsimp only
  rw [hwhole, Nat.sub_self, List.replicate_zero, List.append_nil, hchunks, bytesText_textBytes hline]
  exact trim_concat (by decide) alone_newline value

/-- The rest of a setting that is not read at once arrives as zero bytes. -/
theorem zero_mem_readPayloadFile (hwhole : ¬ Whole chunks) :
    '\x00' ∈ SingleFileData.readPayloadFile (firstRead chunks) := by
  have hlength : (chunks.head?.getD []).length < chunks.flatten.length := by
    cases chunks with
    | nil => exact absurd rfl hwhole
    | cons first rest =>
      have hrest : rest.flatten ≠ [] := by
        intro hnil
        apply hwhole
        unfold Whole
        rw [List.head?_cons, Option.getD_some, List.flatten_cons, hnil, List.append_nil]
      rw [List.head?_cons, Option.getD_some, List.flatten_cons, List.length_append]
      have hpos := List.length_pos_iff.mpr hrest
      omega
  apply SingleFileData.zero_mem_trimSpace
  refine List.mem_map.mpr ⟨0, ?_, rfl⟩
  unfold firstRead
  refine List.mem_append_right _ (List.mem_replicate.mpr ⟨?_, rfl⟩)
  omega

theorem readPayloadFile_eq_iff (hvalue : IsArgument value)
    (hchunks : chunks.flatten = textBytes (value ++ ['\n'])) :
    SingleFileData.readPayloadFile (firstRead chunks) = value ↔
      Whole chunks ∧ SingleFileData.trimSpace value = value := by
  by_cases hwhole : Whole chunks
  · rw [readPayloadFile_whole hvalue hchunks hwhole]
    exact ⟨fun h => ⟨hwhole, h⟩, And.right⟩
  · refine iff_of_false (fun heq => ?_) fun h => hwhole h.1
    have hzero := zero_mem_readPayloadFile hwhole
    rw [heq] at hzero
    exact absurd (hvalue _ hzero).1 (by decide)

theorem parseUint_of_zero {text : Text} (h : '\x00' ∈ text) : parseUint 8 text = none := by
  unfold parseUint
  rw [if_neg]
  rintro ⟨-, hall⟩
  have hdigit := List.all_eq_true.mp hall _ h
  revert hdigit
  decide

/-- What is not read at once is no number. -/
theorem parsePermissions_of_zero {text : Text} (h : '\x00' ∈ text) :
    SingleFileData.parsePermissions text = 0 := by
  have hnone : parseSigned 8 text = none := by
    unfold parseSigned
    split
    · rw [parseUint_of_zero, Option.map_none]
      exact (List.mem_cons.mp h).resolve_left (by decide)
    · rw [parseUint_of_zero, Option.map_none]
      exact (List.mem_cons.mp h).resolve_left (by decide)
    · rw [parseUint_of_zero h, Option.map_none]
  unfold SingleFileData.parsePermissions
  rw [hnone]

theorem isDigit_of_mem_permissions {mode : Option Nat} {c : Char}
    (h : c ∈ SingleFileFlags.parsePermissions mode) : c.isDigit = true := by
  cases mode with
  | none =>
    have hall : (SingleFileFlags.parsePermissions none).all Char.isDigit = true := by decide
    exact List.all_eq_true.mp hall c h
  | some mode => exact Nat.isDigit_of_mem_toDigits (by decide) (by decide) h

theorem isArgument_permissions (mode : Option Nat) :
    IsArgument (SingleFileFlags.parsePermissions mode) := by
  intro c hc
  have hdigit := isDigit_of_mem_permissions hc
  simp only [Char.isDigit, ge_iff_le, Bool.and_eq_true, decide_eq_true_eq] at hdigit
  have hlow : 48 ≤ c.toNat := hdigit.1
  have hhigh : c.toNat ≤ 57 := hdigit.2
  omega

theorem no_digit_in_space : SingleFileData.spaces.all (·.all fun c => !c.isDigit) = true := by
  decide

theorem trimSpace_permissions (mode : Option Nat) :
    SingleFileData.trimSpace (SingleFileFlags.parsePermissions mode) =
      SingleFileFlags.parsePermissions mode := by
  apply trim_eq_self (by decide)
  intro c hc word hword hmem
  have hnot := List.all_eq_true.mp (List.all_eq_true.mp no_digit_in_space word hword) c hmem
  rw [isDigit_of_mem_permissions hc] at hnot
  cases hnot

theorem parsePermissions_octal : ∀ n < 512,
    SingleFileData.parsePermissions (Nat.toDigits 8 n) = n := by
  decide +kernel

theorem parsePermissions_permissions (mode : Option Nat) :
    SingleFileData.parsePermissions (SingleFileFlags.parsePermissions mode) =
      SingleFileFlags.permissions mode := by
  cases mode with
  | none => decide
  | some mode => exact parsePermissions_octal _ (Nat.mod_lt _ (by decide))

theorem parsePermissions_eq_iff {mode : Option Nat}
    (hchunks : chunks.flatten = textBytes (SingleFileFlags.parsePermissions mode ++ ['\n'])) :
    SingleFileData.parsePermissions (SingleFileData.readPayloadFile (firstRead chunks)) =
        SingleFileFlags.permissions mode ↔
      SingleFileFlags.permissions mode = 0 ∨ Whole chunks := by
  by_cases hwhole : Whole chunks
  · rw [readPayloadFile_whole (isArgument_permissions mode) hchunks hwhole,
      trimSpace_permissions, parsePermissions_permissions]
    exact iff_of_true rfl (.inr hwhole)
  · rw [parsePermissions_of_zero (zero_mem_readPayloadFile hwhole)]
    exact ⟨fun h => .inl h.symm, fun h => (h.resolve_right hwhole).symm⟩

theorem rollbackSupport_eq_iff {flags : SingleFileFlags}
    (hchunks : chunks.flatten = textBytes (flags.parseRollbackSupport ++ ['\n'])) :
    decide (SingleFileData.readPayloadFile (firstRead chunks) = "true".toList) =
        flags.rollbackSupport ↔
      flags.rollbackSupport = false ∨ Whole chunks := by
  have hvalue : IsArgument flags.parseRollbackSupport := by
    unfold SingleFileFlags.parseRollbackSupport
    split <;> exact List.forall_iff_forall_mem.mp (by decide)
  by_cases hwhole : Whole chunks
  · rw [readPayloadFile_whole hvalue hchunks hwhole]
    refine iff_of_true ?_ (.inr hwhole)
    unfold SingleFileFlags.parseRollbackSupport
    cases flags.rollbackSupport <;> decide
  · have hne : SingleFileData.readPayloadFile (firstRead chunks) ≠ "true".toList := by
      intro heq
      have hzero := zero_mem_readPayloadFile hwhole
      rw [heq] at hzero
      exact absurd hzero (by decide)
    rw [decide_eq_false hne]
    exact ⟨fun h => .inl h.symm, fun h => (h.resolve_right hwhole).symm⟩

end Settings

/-! ## The files of the artifact -/

section Written

variable {flags : SingleFileFlags} {mode : Option Nat} {dir : Text}

/-- The names and the contents of the settings in the artifact. -/
def settingFiles (flags : SingleFileFlags) (mode : Option Nat) : List (Text × Bytes) :=
  (flags.settings mode).map fun (file, value) => (file, textBytes (value ++ ['\n']))

theorem lookup_temporaryFiles (dir : Text) {file : Text} {data : Bytes}
    (h : (settingFiles flags mode).lookup file = some data) :
    (temporaryFiles flags mode dir).lookup (dir ++ '/' :: file) = some data := by
  have hmap : ∀ l : List (Text × Text),
      (l.map fun (n, v) => (dir ++ '/' :: n, textBytes (v ++ ['\n']))).lookup (dir ++ '/' :: file) =
        (l.map fun (n, v) => (n, textBytes (v ++ ['\n']))).lookup file := by
    intro l
    induction l with
    | nil => rfl
    | cons entry l ih =>
      have hkey : (dir ++ '/' :: file == dir ++ '/' :: entry.1) = (file == entry.1) := by
        rw [Bool.eq_iff_iff]
        simp
      rw [List.map_cons, List.map_cons, List.lookup_cons, List.lookup_cons, ih, hkey]
  exact (hmap _).trans h

theorem noSlash_settingNames {file : Text} (h : file ∈ settingNames) : '/' ∉ file := by
  have hall : settingNames.Forall ('/' ∉ ·) := by decide
  exact List.forall_iff_forall_mem.mp hall file h

theorem lookup_temporaryFiles_none {path : Text} (h : pathBase path ∉ settingNames) :
    (temporaryFiles flags mode dir).lookup path = none := by
  rw [List.lookup_eq_none_iff]
  intro entry hentry
  rcases List.mem_map.mp hentry with ⟨⟨file, value⟩, hfile, rfl⟩
  have hname : file ∈ settingNames := List.mem_map_of_mem (f := Prod.fst) hfile
  rw [bne_iff_ne]
  rintro rfl
  rw [pathBase_append (noSlash_settingNames hname)] at h
  exact h hname

theorem lookup_settingFiles {file value : Text} (h : (file, value) ∈ flags.settings mode) :
    (settingFiles flags mode).lookup file = some (textBytes (value ++ ['\n'])) := by
  simp only [SingleFileFlags.settings, List.mem_cons, Prod.mk.injEq, List.not_mem_nil,
    or_false] at h
  rcases h with ⟨rfl, rfl⟩ | ⟨rfl, rfl⟩ | ⟨rfl, rfl⟩ | ⟨rfl, rfl⟩ <;> rfl

/-- The files that are given to the library, by the names in the artifact. -/
theorem dataFiles_contents (files : Files) (h : flags.inputFileName ∉ settingNames) :
    (dataFiles flags mode dir).map
        (fun f => (pathBase f.name, withTemporary files flags mode dir f.name)) =
      (settingFiles flags mode).map (fun f => (f.1, some f.2)) ++
        [(flags.inputFileName, files flags.inputFile)] := by
  have hsettings : ∀ setting ∈ flags.settings mode,
      (pathBase (dir ++ '/' :: setting.1),
        withTemporary files flags mode dir (dir ++ '/' :: setting.1)) =
      (setting.1, some (textBytes (setting.2 ++ ['\n']))) := by
    intro setting hsetting
    have hname : setting.1 ∈ settingNames := List.mem_map_of_mem (f := Prod.fst) hsetting
    unfold withTemporary
    rw [pathBase_append (noSlash_settingNames hname),
      lookup_temporaryFiles dir (lookup_settingFiles hsetting), Option.some_or]
  unfold dataFiles
  rw [List.map_append, List.map_singleton]
  congr 1
  · unfold temporaryFiles settingFiles
    simp only [List.map_map]
    exact List.map_congr_left hsettings
  · unfold withTemporary
    rw [lookup_temporaryFiles_none h, Option.none_or]
    rfl

theorem some_snd_injective :
    Function.Injective fun f : Text × Bytes => (f.1, some f.2) := by
  rintro ⟨name, data⟩ ⟨name', data'⟩ heq
  cases heq
  rfl

/-- What is read of a written artifact: the settings, and the content of the input file. -/
theorem writeSingleFile_ok {α : Type} {lib : MenderArtifact α} (hlib : lib.RoundTrip)
    {files : Files} {artifact : α} (h : writeSingleFile lib files mode dir flags = .ok artifact) :
    flags.inputFileName ∉ settingNames ∧
      ∃ content view payload, files flags.inputFile = some content ∧
        lib.readArtifact artifact = some view ∧ view.payloads = [payload] ∧
        payload.files = settingFiles flags mode ++ [(flags.inputFileName, content)] := by
  unfold writeSingleFile at h
  split at h
  · cases h
  · next hcontains =>
    have hname : flags.inputFileName ∉ settingNames :=
      fun hmem => hcontains (List.elem_eq_true_of_mem hmem)
    obtain ⟨payloadProvides, -, h⟩ := bind_ok_iff.mp h
    obtain ⟨payloadDepends, -, h⟩ := bind_ok_iff.mp h
    obtain ⟨view, hview, hread⟩ := hlib.read _ _ _ (ArtifactWriter.write_ok h)
    obtain ⟨payload, rest, hpayload, hnil, hsingle⟩ := List.forall₂_cons_left_iff.mp hread.payloads
    cases List.forall₂_nil_left_iff.mp hnil
    have hfiles := hpayload.files.trans (dataFiles_contents files hname)
    obtain ⟨settings, input, happend, hsettings, hinput⟩ := List.map_eq_append_iff.mp hfiles
    obtain ⟨⟨name, content⟩, rfl, hpair⟩ := List.map_eq_singleton_iff.mp hinput
    obtain ⟨rfl, hcontent⟩ := Prod.mk.inj hpair
    refine ⟨hname, content, view, payload, hcontent.symm, hview, hsingle, ?_⟩
    rw [happend, List.map_injective_iff.mpr some_snd_injective hsettings]

end Written

/-! ## The files on the device -/

section Device

variable {flags : SingleFileFlags} {mode : Option Nat} {chunks : Text → Bytes → List Bytes}
  {content : Bytes} {fs : FileSys}

/-- The chunks of a setting. -/
def settingChunks (chunks : Text → Bytes → List Bytes) (file value : Text) : List Bytes :=
  chunks file (textBytes (value ++ ['\n']))

/-- The settings that the device has when it comes to the file. -/
def receivedSettings (flags : SingleFileFlags) (mode : Option Nat)
    (chunks : Text → Bytes → List Bytes) : SingleFileData :=
  let read file value := SingleFileData.readPayloadFile (firstRead (settingChunks chunks file value))
  { destDirectory := read destDirFilename flags.destDir
    filename := read filenameFilename flags.inputFileName
    permissions := SingleFileData.parsePermissions
      (read permissionsFilename (SingleFileFlags.parsePermissions mode))
    rollbackFileName := []
    rollbackSupport :=
      decide (read rollbackSupportFilename flags.parseRollbackSupport = "true".toList) }

theorem receive_settings (flags : SingleFileFlags) (mode : Option Nat)
    (chunks : Text → Bytes → List Bytes) (fs : FileSys) :
    receive chunks (settingFiles flags mode) fs = (receivedSettings flags mode chunks, fs) := rfl

theorem storeStream_input {s : SingleFileData} {name : Text} {stream : List Bytes}
    (h : name ∉ settingNames) :
    storeStream s name stream fs =
      if name = s.filename then s.updateFile stream.flatten fs else (s, fs) := by
  have hnot := h
  simp only [settingNames, List.mem_cons, List.not_mem_nil, or_false, not_or] at hnot
  obtain ⟨hdest, hname, hpermissions, hrollback⟩ := hnot
  unfold storeStream
  rw [if_neg fun hcontains => h (List.mem_of_elem_eq_true hcontains)]
  exact (if_neg hdest).trans ((if_neg hname).trans ((if_neg hpermissions).trans (if_neg hrollback)))

/-- Only the path of the backup is set while the file is stored. -/
theorem updateFile_settings (s : SingleFileData) (data : Bytes) :
    ∃ rollbackFileName,
      (s.updateFile data fs).1 = { s with rollbackFileName := rollbackFileName } := by
  unfold SingleFileData.updateFile
  split
  · exact ⟨_, rfl⟩
  · dsimp only
    split <;> exact ⟨_, rfl⟩

theorem updateFile_content {s : SingleFileData} {data : Bytes} (h : s.destDirectory ≠ []) :
    ((s.updateFile data fs).2.files s.destPath).map RegularFile.content = some data := by
  unfold SingleFileData.updateFile
  rw [if_neg h]
  dsimp only
  split
  · exact congrArg (Option.map _) FileSys.write_self
  · exact congrArg (Option.map _) FileSys.write_self

theorem updateFile_no_destination {s : SingleFileData} {data : Bytes} (h : s.destDirectory = []) :
    s.updateFile data fs = (s, fs) := if_pos h

theorem receive_input :
    receive chunks (settingFiles flags mode ++ [(flags.inputFileName, content)]) fs =
      storeStream (receivedSettings flags mode chunks) flags.inputFileName
        (chunks flags.inputFileName content) fs := by
  have hsettings := receive_settings flags mode chunks fs
  unfold receive at hsettings ⊢
  rw [List.foldl_append, hsettings]
  rfl

theorem receive_settings_kept (hname : flags.inputFileName ∉ settingNames) (mode : Option Nat)
    (chunks : Text → Bytes → List Bytes) (content : Bytes) (fs : FileSys) :
    ∃ rollbackFileName,
      (receive chunks (settingFiles flags mode ++ [(flags.inputFileName, content)]) fs).1 =
        { receivedSettings flags mode chunks with rollbackFileName := rollbackFileName } := by
  rw [receive_input, storeStream_input hname]
  split
  · exact updateFile_settings _ _
  · exact ⟨_, rfl⟩

/-- The settings arrive exactly when nothing is trimmed, and each is read at once or is what an
empty reading gives. -/
theorem receivedSettings_iff (hchunks : ∀ file data, (chunks file data).flatten = data)
    (hdest : IsArgument flags.destDir) (hname : IsArgument flags.inputFileName) :
    (receivedSettings flags mode chunks).destDirectory = flags.destDir ∧
        (receivedSettings flags mode chunks).filename = flags.inputFileName ∧
        (receivedSettings flags mode chunks).permissions = SingleFileFlags.permissions mode ∧
        (receivedSettings flags mode chunks).rollbackSupport = flags.rollbackSupport ∧
        flags.destDir ≠ [] ↔
      Survives flags mode chunks := by
  have hd := readPayloadFile_eq_iff hdest (hchunks destDirFilename _)
  have hn := readPayloadFile_eq_iff hname (hchunks filenameFilename _)
  have hp := parsePermissions_eq_iff (hchunks permissionsFilename (textBytes
    (SingleFileFlags.parsePermissions mode ++ ['\n'])))
  have hr := rollbackSupport_eq_iff (hchunks rollbackSupportFilename (textBytes
    (flags.parseRollbackSupport ++ ['\n'])))
  constructor
  · rintro ⟨hd', hn', hp', hr', hne⟩
    exact ⟨hne, (hd.mp hd').2, (hn.mp hn').2, (hd.mp hd').1, (hn.mp hn').1, hp.mp hp', hr.mp hr'⟩
  · intro h
    exact ⟨hd.mpr ⟨h.dest_whole, h.dest_trimmed⟩, hn.mpr ⟨h.name_whole, h.name_trimmed⟩,
      hp.mpr h.permissions_whole, hr.mpr h.rollback_whole, h.dest_ne⟩

/-- A file system without any files. -/
def emptyFiles : FileSys := ⟨fun _ => none, fun _ => true, id⟩

theorem received_iff (hchunks : ∀ file data, (chunks file data).flatten = data)
    (hdest : IsArgument flags.destDir) (hargument : IsArgument flags.inputFileName)
    (hname : flags.inputFileName ∉ settingNames) :
    (∀ fs, Received flags mode content
        (receive chunks (settingFiles flags mode ++ [(flags.inputFileName, content)]) fs).1
        (receive chunks (settingFiles flags mode ++ [(flags.inputFileName, content)]) fs).2) ↔
      Survives flags mode chunks := by
  rw [← receivedSettings_iff hchunks hdest hargument]
  constructor
  · intro h
    have hreceived := h emptyFiles
    obtain ⟨rollbackFileName, hkept⟩ :=
      receive_settings_kept hname mode chunks content emptyFiles
    rw [hkept] at hreceived
    have hdir : (receivedSettings flags mode chunks).destDirectory = flags.destDir :=
      hreceived.destDirectory
    refine ⟨hdir, hreceived.filename, hreceived.permissions, hreceived.rollbackSupport,
      fun hnil => ?_⟩
    have hcontent := hreceived.content
    rw [receive_input, storeStream_input hname] at hcontent
    split at hcontent
    · rw [updateFile_no_destination (hdir.trans hnil)] at hcontent
      cases hcontent
    · cases hcontent
  · rintro ⟨hd, hn, hp, hr, hne⟩ fs
    obtain ⟨rollbackFileName, hkept⟩ := receive_settings_kept hname mode chunks content fs
    rw [hkept]
    refine ⟨hd, hn, hp, hr, ?_⟩
    rw [receive_input, storeStream_input hname, if_pos hn.symm, hchunks, ← hd, ← hn]
    exact updateFile_content (hd ▸ hne)

end Device

/-- **The round trip of a single file.** Of every artifact that the tool writes, and in whatever
chunks its files come, the device has the settings and the file, exactly when there is a
destination, the names have no white space around them, and the settings that matter are read at
once. -/
theorem single_file_roundTrip_iff {α : Type} (lib : MenderArtifact α) (hlib : lib.RoundTrip)
    (files : Files) (mode : Option Nat) (dir : Text) (flags : SingleFileFlags) (artifact : α)
    (hwrite : writeSingleFile lib files mode dir flags = .ok artifact)
    (hdest : IsArgument flags.destDir) (hname : IsArgument flags.inputFileName)
    (chunks : Text → Bytes → List Bytes) (hchunks : ∀ file data, (chunks file data).flatten = data) :
    ∃ content view payload, files flags.inputFile = some content ∧
      lib.readArtifact artifact = some view ∧ view.payloads = [payload] ∧
      ((∀ fs, Received flags mode content (receive chunks payload.files fs).1
          (receive chunks payload.files fs).2) ↔
        Survives flags mode chunks) := by
  obtain ⟨hreserved, content, view, payload, hcontent, hview, hpayload, hfiles⟩ :=
    writeSingleFile_ok hlib hwrite
  refine ⟨content, view, payload, hcontent, hview, hpayload, ?_⟩
  rw [hfiles]
  exact received_iff hchunks hdest hname hreserved

namespace SingleFileRun

def files (path : Text) : Option Bytes :=
  if path = "conf/app.ini".toList then some [1, 2, 3]
  else if path = "conf/app.ini ".toList then some [1, 2, 3]
  else none

def flags (inputFile : Text) : SingleFileFlags where
  outputPath := []
  dependsArtifacts := []
  dependsGroups := []
  providesGroup := []
  clearsProvides := []
  provides := []
  depends := []
  artifactName := "v1".toList
  deviceTypes := ["dummy".toList]
  inputFile := inputFile
  destDir := "/etc/app".toList
  rollbackSupport := true

def mode : Option Nat := some 420

def dir : Text := "/tmp/rdfm1".toList

/-- The whole of a file at once. -/
def whole (_ : Text) (data : Bytes) : List Bytes := [data]

/-- One byte after the other. -/
def bytewise (_ : Text) (data : Bytes) : List Bytes := data.map fun b => [b]

theorem flatten_bytewise (file : Text) (data : Bytes) : (bytewise file data).flatten = data := by
  unfold bytewise
  induction data with
  | nil => rfl
  | cons b data ih => rw [List.map_cons, List.flatten_cons, ih, List.singleton_append]

end SingleFileRun

open SingleFileRun

theorem single_file_roundTrip_whole :
    ∃ artifact, writeSingleFile MenderArtifact.inMemory files mode SingleFileRun.dir
        (flags "conf/app.ini".toList) = .ok artifact ∧
      ∃ content view payload, files "conf/app.ini".toList = some content ∧
        MenderArtifact.inMemory.readArtifact artifact = some view ∧ view.payloads = [payload] ∧
        ∀ fs, Received (flags "conf/app.ini".toList) mode content
          (receive whole payload.files fs).1 (receive whole payload.files fs).2 := by
  have hwrite : ∃ artifact, writeSingleFile MenderArtifact.inMemory files mode SingleFileRun.dir
      (flags "conf/app.ini".toList) = .ok artifact := ⟨_, rfl⟩
  obtain ⟨artifact, hwrite⟩ := hwrite
  obtain ⟨content, view, payload, hcontent, hview, hpayload, hiff⟩ :=
    single_file_roundTrip_iff MenderArtifact.inMemory MenderArtifact.inMemory_roundTrip files mode
      SingleFileRun.dir (flags "conf/app.ini".toList) artifact hwrite
      (List.forall_iff_forall_mem.mp (by decide)) (List.forall_iff_forall_mem.mp (by decide)) whole
      fun _ _ => List.flatten_singleton
  refine ⟨artifact, hwrite, content, view, payload, hcontent, hview, hpayload, hiff.mpr ?_⟩
  have hwhole : ∀ data : Bytes, Whole [data] := fun data => (List.flatten_singleton).symm
  exact ⟨by decide, by decide +kernel, by decide +kernel, hwhole _, hwhole _, .inr (hwhole _),
    .inr (hwhole _)⟩

/-- A blank at the end of the name is trimmed, and the file is not recognised any more; of settings
that come byte by byte, only the first byte is read. -/
theorem single_file_lost :
    (∃ artifact payload, writeSingleFile MenderArtifact.inMemory files mode SingleFileRun.dir
        (flags "conf/app.ini ".toList) = .ok artifact ∧ artifact.payloads = [payload] ∧
      (receive whole payload.files emptyFiles).1.filename = "app.ini".toList ∧
      ¬ Received (flags "conf/app.ini ".toList) mode [1, 2, 3]
        (receive whole payload.files emptyFiles).1 (receive whole payload.files emptyFiles).2) ∧
    (∃ artifact payload, writeSingleFile MenderArtifact.inMemory files mode SingleFileRun.dir
        (flags "conf/app.ini".toList) = .ok artifact ∧ artifact.payloads = [payload] ∧
      (∀ file data, (bytewise file data).flatten = data) ∧
      (receive bytewise payload.files emptyFiles).1.destDirectory = '/' :: List.replicate 8 '\x00' ∧
      ¬ Received (flags "conf/app.ini".toList) mode [1, 2, 3]
        (receive bytewise payload.files emptyFiles).1
        (receive bytewise payload.files emptyFiles).2) := by
  constructor
  · refine ⟨_, _, rfl, rfl, ?_, fun h => absurd h.content ?_⟩
    · decide +kernel
    · decide +kernel
  · refine ⟨_, _, rfl, rfl, flatten_bytewise, ?_, fun h => absurd h.content ?_⟩
    · decide +kernel
    · decide +kernel

end Rdfm.Artifact
