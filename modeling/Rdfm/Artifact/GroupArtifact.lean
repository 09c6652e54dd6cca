import Rdfm.Artifact.Writer
import Rdfm.Lib.Decimal
import Rdfm.Lib.Except

/-!
# Artifacts for groups

The tool writes a group artifact from MCUboot images (`withGroupPayload`), and the client reads it
(`extractArtifact`). They share no code: they agree on the keys of the provides, which have the
names of the devices in them, on the checksums of the images, and on the names of the files. What
is written is read again as it was, and images of different versions, or without the magic number
of MCUboot, are not written (`group_artifact_codec`).
-/

namespace Rdfm.Artifact

open Rdfm.Lib

/-! ## Images -/

/-- An open file. -/
structure FileHandle where
  content : Bytes
  pos : Nat

namespace FileHandle

variable (h : FileHandle)

/-- `Seek(offset, 0)`. -/
def seek (offset : Nat) : FileHandle := { h with pos := offset }

/-- The number with these bytes, the least significant first. -/
def littleEndian (bytes : Bytes) : Nat := bytes.foldr (fun b n => b.toNat + 256 * n) 0

/-- `binary.Read` of an unsigned number. -/
def readUint (size : Nat) : Except WriteError (Nat × FileHandle) :=
  let bytes := (h.content.drop h.pos).take size
  if bytes.length = size then .ok (littleEndian bytes, { h with pos := h.pos + size })
  else .error .io

/-- What `io.Copy` reads. -/
def rest : Bytes := h.content.drop h.pos

end FileHandle

def imageMagic : Nat := 0x96f3b83d

/-- `validateImageMagic`. -/
def validateImageMagic (image : FileHandle) : Except WriteError FileHandle := do
  let (value, image) ← (image.seek 0).readUint 4
  if value ≠ imageMagic then .error (.badMagic value) else .ok image

/-- The version in the header of an image. -/
structure ImageVersion where
  major : Nat
  minor : Nat
  revision : Nat
  buildNum : Nat
deriving DecidableEq, Repr

def ImageVersion.text (v : ImageVersion) : Text :=
  let version := itoa v.major ++ '.' :: (itoa v.minor ++ '.' :: itoa v.revision)
  if v.buildNum = 0 then version else version ++ '+' :: itoa v.buildNum

/-- `imgVersion`, and `getImageVersion` of an open file. -/
def imgVersion (image : FileHandle) : Except WriteError (ImageVersion × FileHandle) := do
  let (major, image) ← (image.seek 20).readUint 1
  let (minor, image) ← image.readUint 1
  let (revision, image) ← image.readUint 2
  let (buildNum, image) ← image.readUint 4
  return (⟨major, minor, revision, buildNum⟩, image)

/-- The text of a checksum, by `%x`. -/
def hexText (bytes : Bytes) : Text :=
  bytes.flatMap fun b => [Nat.digitChar (b.toNat / 16), Nat.digitChar (b.toNat % 16)]

/-! ## Writing -/

def groupProvidesTarget : Text := "zephyr-group-image.target".toList

def groupProvidesVersion : Text := "zephyr-group-image.version".toList

/-- The key of the checksum of a device's image. -/
def targetKey (target dev : Text) : Text := target ++ '.' :: dev

/-- What the loop of `WithGroupPayload` has done: the copies of the images, the provides, and the
files of the payload. -/
structure GroupPayload where
  files : Files
  provides : StringMap
  updateFiles : List DataFile

section Writing

variable (sha256 : Bytes → Bytes)

/-- `makeUnique`: the copy is open at its end. -/
def makeUnique (files : Files) (src dst : Text) : Except WriteError (FileHandle × Files) :=
  match files src with
  | none => .error .io
  | some content => .ok (⟨content, content.length⟩, Function.update files dst (some content))

/-- One turn of the loop of `WithGroupPayload`. -/
def addTarget (tmpDir targetVersion : Text) (payload : GroupPayload) (target : Text × Text) :
    Except WriteError GroupPayload := do
  let file := joinPath tmpDir target.1
  let (handle, files) ← makeUnique payload.files target.2 file
  let handle ← validateImageMagic handle
  let (version, handle) ← imgVersion handle
  if version.text ≠ targetVersion then
    .error (.versionMismatch targetVersion file version.text)
  else
    let checksum := sha256 (handle.seek 0).rest
    .ok
      { files := files
        provides := payload.provides.insert (targetKey groupProvidesTarget target.1)
          (hexText checksum)
        updateFiles := payload.updateFiles ++ [⟨file, checksum⟩] }

/-- `setProvidesVersion`. -/
def setProvidesVersion (w : ArtifactWriter) (version : Text) : ArtifactWriter :=
  match w.args.typeInfo.artifactProvides with
  | none => w.withPayloadProvides ((∅ : StringMap).insert groupProvidesVersion version)
  | some provides => w.withPayloadProvides (provides.insert groupProvidesVersion version)

/-- `WithGroupPayload`, with the images in the order in which the loop takes them. The directory is
the one that `MkdirTemp` makes. -/
def withGroupPayload {α : Type} (lib : MenderArtifact α) (files : Files) (tmpDir : Text)
    (w : ArtifactWriter) (devFileMap : List (Text × Text)) (targetVersion : Text) :
    Except WriteError (ArtifactWriter × Files) := do
  let w := setProvidesVersion w targetVersion
  let payload ← devFileMap.foldlM (addTarget sha256 tmpDir targetVersion)
    ⟨files, w.args.typeInfo.artifactProvides.getD ∅, []⟩
  if lib.setUpdateFiles payload.updateFiles then
    let w := w.withPayloadProvides payload.provides
    .ok ({ w with args.updates := [⟨"zephyr-group-image".toList, payload.updateFiles⟩] },
      payload.files)
  else .error .library

/-- The writer before the payload is added, as the command sets it up. -/
def groupWriter (outputPath : Text) (payloadProvides payloadDepends : StringMap)
    (payloadClearsProvides : List Text) (artifactName artifactGroup : Text)
    (compatArtifacts groupTypes compatGroups : List Text) : ArtifactWriter :=
  let w := ArtifactWriter.new outputPath
  let w := w.withArtifactProvides artifactName artifactGroup
  let w := w.withArtifactDepends compatArtifacts groupTypes compatGroups
  let w := w.withPayloadProvides payloadProvides
  let w := w.withPayloadDepends payloadDepends
  w.withPayloadClearsProvides payloadClearsProvides

/-- The flags of the command. At least one group type and one target are required. -/
structure GroupFlags extends CommonFlags where
  groupTypes : List Text
  targets : List Text
  groupTypes_ne : groupTypes ≠ []
  targets_ne : targets ≠ []

/-- The targets by their devices. -/
def parseTargets (targets : List Text) : Except WriteError StringMap :=
  targets.foldlM (fun devFileMap target =>
    match target.splitOn ':' with
    | [dev, path] => .ok (devFileMap.insert dev path)
    | _ => .error (.invalidTarget target)) ∅

/-- `getImageVersion`. That the file cannot be opened is not reported. -/
def getImageVersion (files : Files) (pathToImage : Text) : Except WriteError Text :=
  match files pathToImage with
  | none => .ok []
  | some content => do
    let (version, _) ← imgVersion ⟨content, 0⟩
    return version.text

/-- The version of the image that is taken first. -/
def firstVersion (files : Files) : List (Text × Text) → Except WriteError Text
  | [] => .ok []
  | target :: _ => getImageVersion files target.2

/-- `writeGroupZephyr`. A map is taken by its two loops in the orders that `range₁` and `range₂`
give. -/
def writeGroupZephyr {α : Type} (lib : MenderArtifact α) (files : Files) (tmpDir : Text)
    (range₁ range₂ : StringMap → List (Text × Text)) (flags : GroupFlags) :
    Except WriteError α := do
  let payloadProvides ← parseKeyValuePairs flags.provides
  let payloadDepends ← parseKeyValuePairs flags.depends
  let devFileMap ← parseTargets flags.targets
  let artifactVersion ← firstVersion files (range₁ devFileMap)
  let w := groupWriter flags.parseOutputPath payloadProvides payloadDepends flags.clearsProvides
    artifactVersion flags.providesGroup flags.dependsArtifacts flags.groupTypes flags.dependsGroups
  let (w, files) ← withGroupPayload sha256 lib files tmpDir w (range₂ devFileMap) artifactVersion
  w.write lib files

end Writing

/-! ## Reading -/

inductive ExtractError where
  /-- An error of the library. -/
  | library
  /-- `Artifact provides no updates`. -/
  | noUpdates
  /-- `Unknown artifact type '...'`. -/
  | unknownType (type : Text)
  /-- `Artifact should contain list of compatible devices`. -/
  | noCompatible
  /-- `Unknown image '...' in artifact`. -/
  | unknownImage (name : Text)
  /-- `Checksum mismatch for '...' image`. -/
  | checksumMismatch (name : Text)
  /-- `Artifact should contain image version`. -/
  | noVersion
  /-- `Artifact should contain image checksum`. -/
  | noChecksum
  /-- `Unexpected file count in artifact (expected 1, got ...)`. -/
  | fileCount (count : Nat)
  /-- `Artifact contents malformed`. -/
  | malformed
deriving DecidableEq, Repr

/-- `artifact.AFile`. -/
structure AFile where
  data : Bytes
  hash : Bytes
deriving DecidableEq, Repr

/-- `artifact.GroupArtifact`. -/
structure GroupArtifact where
  images : AList fun _ : Text => AFile
  version : Text
  compatible : List Text

/-- `artifact.ZephyrArtifact`. -/
structure ZephyrArtifact where
  image : Bytes
  version : Text
  compatible : List Text

/-- `artifact.Artifact`. -/
inductive Extracted where
  | zephyr (artifact : ZephyrArtifact)
  | group (artifact : GroupArtifact)

def zephyrArtifactPrefix : Text := "zephyr-image".toList

def groupArtifactPrefix : Text := "zephyr-group-image".toList

def groupArtifactVersion : Text := groupArtifactPrefix ++ ".version".toList

def groupArtifactTarget : Text := groupArtifactPrefix ++ ".target".toList

section Reading

variable {α : Type} (lib : MenderArtifact α) (sha256 : Bytes → Bytes)

/-- `ReadArtifactToMem`: the files of all payloads by their names. -/
def readArtifactToMem (view : ArtifactView) : AList fun _ : Text => Bytes :=
  putAll ∅ ((view.payloads.flatMap Payload.files).map fun f => ⟨f.1, f.2⟩)

/-- `ExtractArtifactCommon`. -/
def extractArtifactCommon (view : ArtifactView) :
    Except ExtractError (List Text × StringMap) :=
  match lib.mergeArtifactDepends view with
  | none => .error .library
  | some depends =>
    match depends.lookup deviceTypeKey with
    | some (.list compatible) =>
      match lib.mergeArtifactProvides view with
      | none => .error .library
      | some provides => .ok (compatible, provides)
    | _ => .error .noCompatible

/-- One turn of the loop of `ExtractGroupArtifact`. -/
def checkImage (provides : StringMap) (devImgMap : AList fun _ : Text => AFile)
    (file : (_ : Text) × Bytes) : Except ExtractError (AList fun _ : Text => AFile) :=
  let hash := sha256 file.2
  match provides.lookup (targetKey groupArtifactTarget file.1) with
  | none => .error (.unknownImage file.1)
  | some expectedHash =>
    if expectedHash ≠ hexText hash then .error (.checksumMismatch file.1)
    else .ok (devImgMap.insert file.1 ⟨file.2, hash⟩)

/-- `ExtractGroupArtifact`. -/
def extractGroupArtifact (view : ArtifactView) : Except ExtractError GroupArtifact := do
  let store := readArtifactToMem view
  let (compatible, provides) ← extractArtifactCommon lib view
  let devImgMap ← store.entries.foldlM (checkImage sha256 provides) ∅
  match provides.lookup groupArtifactVersion with
  | none => .error .noVersion
  | some version => .ok ⟨devImgMap, version, compatible⟩

/-- `ExtractZephyrArtifact`. -/
def extractZephyrArtifact (view : ArtifactView) : Except ExtractError ZephyrArtifact := do
  match (readArtifactToMem view).entries with
  | [file] =>
    let (compatible, provides) ← extractArtifactCommon lib view
    match provides.lookup (zephyrArtifactPrefix ++ ".checksum".toList) with
    | none => .error .noChecksum
    | some expectedHash =>
      if hexText (sha256 file.2) ≠ expectedHash.map Char.toLower then .error .malformed
      else
        match provides.lookup (zephyrArtifactPrefix ++ ".version".toList) with
        | none => .error .noVersion
        | some version => .ok ⟨file.2, version, compatible⟩
  | files => .error (.fileCount files.length)

/-- `ExtractArtifact`. -/
def extractArtifact (artifact : α) : Except ExtractError Extracted :=
  match lib.readArtifact artifact with
  | none => .error .library
  | some view =>
    match view.payloads with
    | [] => .error .noUpdates
    | payload :: _ =>
      if payload.type = zephyrArtifactPrefix then
        .zephyr <$> extractZephyrArtifact lib sha256 view
      else if payload.type = groupArtifactPrefix then
        .group <$> extractGroupArtifact lib sha256 view
      else .error (.unknownType payload.type)

end Reading

/-! ## What an image holds -/

/-- Bytes of an image. -/
def slice (content : Bytes) (offset size : Nat) : Bytes := (content.drop offset).take size

/-- The image begins with the magic number. -/
def HasMagic (content : Bytes) : Prop :=
  4 ≤ content.length ∧ FileHandle.littleEndian (slice content 0 4) = imageMagic

instance (content : Bytes) : Decidable (HasMagic content) :=
  inferInstanceAs (Decidable (_ ∧ _))

/-- The version in the header of an image. -/
def imageVersion (content : Bytes) : Option ImageVersion :=
  if 28 ≤ content.length then
    some
      { major := FileHandle.littleEndian (slice content 20 1)
        minor := FileHandle.littleEndian (slice content 21 1)
        revision := FileHandle.littleEndian (slice content 22 2)
        buildNum := FileHandle.littleEndian (slice content 24 4) }
  else none

section Images

variable {h h' : FileHandle}

theorem readUint_ok_iff {size x : Nat} :
    h.readUint size = .ok (x, h') ↔ size ≤ h.content.length - h.pos ∧
      x = FileHandle.littleEndian (slice h.content h.pos size) ∧
      h' = ⟨h.content, h.pos + size⟩ := by
  have hlength : ((h.content.drop h.pos).take size).length = size ↔
      size ≤ h.content.length - h.pos := by
    rw [List.length_take, List.length_drop]
    omega
  unfold FileHandle.readUint
  dsimp only
  split
  · next hle =>
    constructor
    · intro heq
      cases heq
      exact ⟨hlength.mp hle, rfl, rfl⟩
    · rintro ⟨-, rfl, rfl⟩
      rfl
  · next hle => exact iff_of_false nofun fun hok => hle (hlength.mpr hok.1)

/-- The check of the magic number leaves the content as it is. -/
theorem validateImageMagic_ok_iff :
    validateImageMagic h = .ok h' ↔ HasMagic h.content ∧ h' = ⟨h.content, 4⟩ := by
  unfold validateImageMagic HasMagic
  rw [bind_ok_iff]
  constructor
  · rintro ⟨⟨x, image⟩, hread, hcheck⟩
    obtain ⟨hle, rfl, rfl⟩ := readUint_ok_iff.mp hread
    dsimp only at hcheck
    split at hcheck
    · cases hcheck
    · next hmagic =>
      cases hcheck
      exact ⟨⟨hle, not_not.mp hmagic⟩, rfl⟩
  · rintro ⟨⟨hle, hmagic⟩, rfl⟩
    refine ⟨_, readUint_ok_iff.mpr ⟨hle, rfl, rfl⟩, ?_⟩
    exact if_neg (not_not_intro hmagic)

/-- Wherever the handle stands, the version is the one in the header. -/
theorem imgVersion_ok_iff {v : ImageVersion} :
    imgVersion h = .ok (v, h') ↔ imageVersion h.content = some v ∧ h' = ⟨h.content, 28⟩ := by
  unfold imgVersion imageVersion
  simp only [bind_ok_iff, Prod.exists, readUint_ok_iff, FileHandle.seek]
  constructor
  · rintro ⟨_, _, ⟨hmajor, rfl, rfl⟩, _, _, ⟨hminor, rfl, rfl⟩, _, _, ⟨hrevision, rfl, rfl⟩, _, _,
      ⟨hbuild, rfl, rfl⟩, hv⟩
    cases hv
    dsimp only at hbuild
    rw [if_pos (by omega)]
    exact ⟨rfl, rfl⟩
  · rintro ⟨hv, rfl⟩
    split at hv
    · next hlength =>
      cases hv
      exact ⟨_, _, ⟨by omega, rfl, rfl⟩, _, _, ⟨by dsimp only; omega, rfl, rfl⟩, _, _,
        ⟨by dsimp only; omega, rfl, rfl⟩, _, _, ⟨by dsimp only; omega, rfl, rfl⟩, rfl⟩
    · cases hv

/-! ### Texts of versions -/

theorem eq_of_append_sep {c : Char} {a a' b b' : Text} (ha : c ∉ a) (ha' : c ∉ a')
    (heq : a ++ c :: b = a' ++ c :: b') : a = a' ∧ b = b' := by
  induction a generalizing a' with
  | nil =>
    cases a' with
    | nil => exact ⟨rfl, List.cons.inj heq |>.2⟩
    | cons x a' =>
      obtain ⟨rfl, -⟩ := List.cons.inj heq
      exact absurd List.mem_cons_self ha'
  | cons x a ih =>
    cases a' with
    | nil =>
      obtain ⟨rfl, -⟩ := List.cons.inj heq
      exact absurd List.mem_cons_self ha
    | cons x' a' =>
      obtain ⟨rfl, htail⟩ := List.cons.inj heq
      obtain ⟨rfl, rfl⟩ := ih (fun hmem => ha (List.mem_cons_of_mem _ hmem))
        (fun hmem => ha' (List.mem_cons_of_mem _ hmem)) htail
      exact ⟨rfl, rfl⟩

/-- Images with the same text have the same version. -/
theorem ImageVersion.text_injective : Function.Injective ImageVersion.text := by
  rintro ⟨major, minor, revision, buildNum⟩ ⟨major', minor', revision', buildNum'⟩ htext
  have hdot (n : Nat) : '.' ∉ itoa n := not_mem_itoa rfl
  have hplus (n : Nat) : '+' ∉ itoa n := not_mem_itoa rfl
  -- the revision, and the build number if there is one
  have hsplit (a b c d : Nat) : ImageVersion.text ⟨a, b, c, d⟩ =
      itoa a ++ '.' :: (itoa b ++ '.' :: (itoa c ++ if d = 0 then [] else '+' :: itoa d)) := by
    unfold ImageVersion.text
    dsimp only
    split <;> simp
  rw [hsplit, hsplit] at htext
  obtain ⟨hmajor, hminors⟩ := eq_of_append_sep (hdot major) (hdot major') htext
  obtain ⟨hminor, hrest⟩ := eq_of_append_sep (hdot minor) (hdot minor') hminors
  cases itoa_injective hmajor
  cases itoa_injective hminor
  by_cases hzero : buildNum = 0
  · by_cases hzero' : buildNum' = 0
    · rw [if_pos hzero, if_pos hzero', List.append_nil, List.append_nil] at hrest
      cases itoa_injective hrest
      rw [hzero, hzero']
    · rw [if_pos hzero, if_neg hzero', List.append_nil] at hrest
      have hmem : '+' ∈ itoa revision := by
        rw [hrest]
        exact List.mem_append_right _ List.mem_cons_self
      exact absurd hmem (hplus revision)
  · by_cases hzero' : buildNum' = 0
    · rw [if_neg hzero, if_pos hzero', List.append_nil] at hrest
      have hmem : '+' ∈ itoa revision' := by
        rw [← hrest]
        exact List.mem_append_right _ List.mem_cons_self
      exact absurd hmem (hplus revision')
    · rw [if_neg hzero, if_neg hzero'] at hrest
      obtain ⟨hrevision, hbuild⟩ := eq_of_append_sep (hplus revision) (hplus revision') hrest
      cases itoa_injective hrevision
      cases itoa_injective hbuild
      rfl

end Images

/-! ## Names and keys -/

/-- A name of a file, not a path. -/
structure IsFileName (name : Text) : Prop where
  ne_nil : name ≠ []
  ne_dot : name ≠ ['.']
  ne_dots : name ≠ ['.', '.']
  no_slash : '/' ∉ name

/-- The last name of a path that was joined. -/
theorem pathBase_joinPath {dir name : Text} (hdir : dir ≠ []) (h : IsFileName name) :
    pathBase (joinPath dir name) = name := by
  obtain ⟨rooted, before, hclean⟩ := cleanPath_of_split hdir h.no_slash
  have hpath := hclean [] List.not_mem_nil
  rw [List.append_nil] at hpath
  have hsegment : cleanSegment rooted before name = name :: before := by
    unfold cleanSegment
    rw [if_neg (not_or.mpr ⟨h.ne_nil, h.ne_dot⟩), if_neg h.ne_dots]
  rw [hsegment] at hpath
  have hlast : ∀ front : Text, (front = [] ∨ ∃ a, front = a ++ ['/']) →
      pathBase (front ++ name) = name := by
    rintro front (rfl | ⟨a, rfl⟩)
    · rw [List.nil_append, pathBase, List.splitOn_eq_singleton h.no_slash]
      rfl
    · rw [List.append_assoc, List.singleton_append, pathBase_append h.no_slash]
  have hsegments : ∃ front : Text, joinSegments (name :: before) = front ++ name ∧
      (front = [] ∨ ∃ a, front = a ++ ['/']) := by
    unfold joinSegments
    rw [List.reverse_cons]
    induction before.reverse with
    | nil => exact ⟨[], by simp [List.intercalate], .inl rfl⟩
    | cons segment segments ih =>
      obtain ⟨front, heq, hfront⟩ := ih
      refine ⟨segment ++ '/' :: front, ?_, .inr ?_⟩
      · rw [List.cons_append]
        cases hsegments : segments ++ [name] with
        | nil => simp at hsegments
        | cons x xs =>
          rw [List.intercalate_cons_cons, ← hsegments, heq]
          simp
      · rcases hfront with rfl | ⟨a, rfl⟩
        · exact ⟨segment, rfl⟩
        · exact ⟨segment ++ '/' :: a, by simp⟩
  obtain ⟨front, hjoin, hfront⟩ := hsegments
  unfold joinPath
  rw [if_neg fun hnil => hdir hnil.1, if_neg hdir, if_neg h.ne_nil, hpath, hjoin]
  dsimp only
  split
  · refine hlast ('/' :: front) (.inr ?_)
    rcases hfront with rfl | ⟨a, rfl⟩
    · exact ⟨[], rfl⟩
    · exact ⟨'/' :: a, rfl⟩
  · rw [if_neg (List.append_ne_nil_of_right_ne_nil _ h.ne_nil)]
    exact hlast front hfront

theorem joinPath_injective {dir name name' : Text} (hdir : dir ≠ []) (h : IsFileName name)
    (h' : IsFileName name') (heq : joinPath dir name = joinPath dir name') : name = name' := by
  rw [← pathBase_joinPath hdir h, heq, pathBase_joinPath hdir h']

theorem targetKey_injective {target dev dev' : Text}
    (h : targetKey target dev = targetKey target dev') : dev = dev' := by
  unfold targetKey at h
  rw [List.append_cancel_left_eq] at h
  exact (List.cons.inj h).2

/-- The key of the version is no key of a device. -/
theorem targetKey_ne_version (dev : Text) :
    targetKey groupProvidesTarget dev ≠ groupProvidesVersion := by
  intro h
  have hchar : some 't' = some 'v' := congrArg (fun key => key[19]?) h
  cases hchar

/-! ## What is written -/

section Write

variable {sha256 : Bytes → Bytes} {tmpDir targetVersion : Text} {files : Files}
  {provides : StringMap}

/-- An image of the version. -/
structure IsImage (targetVersion : Text) (content : Bytes) : Prop where
  magic : HasMagic content
  version : ∃ v, imageVersion content = some v ∧ v.text = targetVersion

theorem addTarget_ok_iff {payload payload' : GroupPayload} {target : Text × Text} :
    addTarget sha256 tmpDir targetVersion payload target = .ok payload' ↔
      ∃ content, payload.files target.2 = some content ∧ IsImage targetVersion content ∧
        payload' =
          { files := Function.update payload.files (joinPath tmpDir target.1) (some content)
            provides := payload.provides.insert (targetKey groupProvidesTarget target.1)
              (hexText (sha256 content))
            updateFiles := payload.updateFiles ++
              [⟨joinPath tmpDir target.1, sha256 content⟩] } := by
  unfold addTarget makeUnique
  dsimp only
  cases hsource : payload.files target.2 with
  | none => exact iff_of_false nofun nofun
  | some content =>
    constructor
    · intro h
      obtain ⟨⟨handle, files'⟩, hcopy, h⟩ := bind_ok_iff.mp h
      cases hcopy
      obtain ⟨handle, hvalidate, h⟩ := bind_ok_iff.mp h
      obtain ⟨hmagic, rfl⟩ := validateImageMagic_ok_iff.mp hvalidate
      obtain ⟨⟨v, handle⟩, hread, h⟩ := bind_ok_iff.mp h
      obtain ⟨hversion, rfl⟩ := imgVersion_ok_iff.mp hread
      dsimp only at h
      split at h
      · cases h
      · next htext =>
        cases h
        exact ⟨content, rfl, ⟨hmagic, v, hversion, not_not.mp htext⟩, rfl⟩
    · rintro ⟨_, hcontent, himage, rfl⟩
      cases hcontent
      obtain ⟨v, hversion, htext⟩ := himage.version
      refine bind_ok_iff.mpr ⟨_, rfl, bind_ok_iff.mpr
        ⟨_, validateImageMagic_ok_iff.mpr ⟨himage.magic, rfl⟩, bind_ok_iff.mpr
          ⟨(v, _), imgVersion_ok_iff.mpr ⟨hversion, rfl⟩, ?_⟩⟩⟩
      dsimp only
      rw [if_neg (not_not_intro htext)]
      rfl

/-- What the loop has done for the targets it has taken. -/
structure Added (sha256 : Bytes → Bytes) (tmpDir targetVersion : Text) (files : Files)
    (provides : StringMap) (done : List (Text × Text)) (payload : GroupPayload) : Prop where
  images : ∀ t ∈ done, ∃ content, files t.2 = some content ∧ IsImage targetVersion content ∧
    payload.files (joinPath tmpDir t.1) = some content ∧
    payload.provides.lookup (targetKey groupProvidesTarget t.1) = some (hexText (sha256 content))
  updateFiles : payload.updateFiles.map DataFile.name = done.map fun t => joinPath tmpDir t.1
  others : ∀ path, (∀ t ∈ done, path ≠ joinPath tmpDir t.1) → payload.files path = files path
  keys : ∀ k, (∀ t ∈ done, k ≠ targetKey groupProvidesTarget t.1) →
    payload.provides.lookup k = provides.lookup k

/-- The names of the devices are names of files, each of its own, and the images are not in the
directory that was just made. -/
structure Targets (tmpDir : Text) (devFileMap : List (Text × Text)) : Prop where
  dir_ne : tmpDir ≠ []
  names : ∀ t ∈ devFileMap, IsFileName t.1
  nodup : (devFileMap.map Prod.fst).Nodup
  fresh : ∀ t ∈ devFileMap, ∀ t' ∈ devFileMap, t.2 ≠ joinPath tmpDir t'.1

theorem Added.step {done : List (Text × Text)} {target : Text × Text}
    {payload payload' : GroupPayload}
    (h : Added sha256 tmpDir targetVersion files provides done payload)
    (htargets : Targets tmpDir (done ++ [target]))
    (hadd : addTarget sha256 tmpDir targetVersion payload target = .ok payload') :
    Added sha256 tmpDir targetVersion files provides (done ++ [target]) payload' := by
  obtain ⟨content, hsource, himage, rfl⟩ := addTarget_ok_iff.mp hadd
  have hlast : target ∈ done ++ [target] := List.mem_append_right _ (List.mem_singleton_self _)
  have hne : ∀ t ∈ done, t.1 ≠ target.1 := by
    intro t ht heq
    have hnodup := htargets.nodup
    rw [List.map_append, List.nodup_append] at hnodup
    exact hnodup.2.2 t.1 (List.mem_map_of_mem ht) target.1 (List.mem_singleton_self _) heq
  have hcontent : files target.2 = some content := by
    rw [← hsource]
    exact (h.others target.2 fun t ht =>
      htargets.fresh target hlast t (List.mem_append_left _ ht)).symm
  refine ⟨fun t ht => ?_, ?_, fun path hpath => ?_, fun k hk => ?_⟩
  · rcases List.mem_append.mp ht with ht | ht
    · obtain ⟨content', hfile, himage', hcopy, hkey⟩ := h.images t ht
      have hpath : joinPath tmpDir t.1 ≠ joinPath tmpDir target.1 := fun heq =>
        hne t ht (joinPath_injective htargets.dir_ne
          (htargets.names t (List.mem_append_left _ ht)) (htargets.names target hlast) heq)
      have hkeys : targetKey groupProvidesTarget t.1 ≠ targetKey groupProvidesTarget target.1 :=
        fun heq => hne t ht (targetKey_injective heq)
      refine ⟨content', hfile, himage', ?_, ?_⟩
      · dsimp only
        rw [Function.update_of_ne hpath, hcopy]
      · dsimp only
        rw [AList.lookup_insert_ne hkeys, hkey]
    · rw [List.mem_singleton.mp ht]
      exact ⟨content, hcontent, himage, Function.update_self .., AList.lookup_insert _⟩
  · rw [List.map_append, List.map_append, h.updateFiles]
    rfl
  · dsimp only
    rw [Function.update_of_ne (hpath target hlast)]
    exact h.others path fun t ht => hpath t (List.mem_append_left _ ht)
  · dsimp only
    rw [AList.lookup_insert_ne (hk target hlast)]
    exact h.keys k fun t ht => hk t (List.mem_append_left _ ht)

theorem Added.run {done rest : List (Text × Text)} {payload payload' : GroupPayload}
    (h : Added sha256 tmpDir targetVersion files provides done payload)
    (htargets : Targets tmpDir (done ++ rest))
    (hrun : rest.foldlM (addTarget sha256 tmpDir targetVersion) payload = .ok payload') :
    Added sha256 tmpDir targetVersion files provides (done ++ rest) payload' := by
  induction rest generalizing done payload with
  | nil =>
    cases hrun
    rwa [List.append_nil]
  | cons target rest ih =>
    rw [List.foldlM_cons] at hrun
    obtain ⟨payload₁, hadd, hrun⟩ := bind_ok_iff.mp hrun
    have happend : done ++ target :: rest = done ++ [target] ++ rest := by simp
    rw [happend] at htargets ⊢
    have hpart : Targets tmpDir (done ++ [target]) :=
      { dir_ne := htargets.dir_ne
        names := fun t ht => htargets.names t (List.mem_append_left _ ht)
        nodup := by
          have hnodup := htargets.nodup
          rw [List.map_append] at hnodup
          exact (List.nodup_append.mp hnodup).1
        fresh := fun t ht t' ht' => htargets.fresh t (List.mem_append_left _ ht) t'
          (List.mem_append_left _ ht') }
    exact ih (h.step hpart hadd) htargets hrun

variable {α : Type} {lib : MenderArtifact α} {w : ArtifactWriter} {devFileMap : List (Text × Text)}

theorem setProvidesVersion_provides (w : ArtifactWriter) (version : Text) :
    ∃ provides, (setProvidesVersion w version).args.typeInfo.artifactProvides = some provides ∧
      provides.lookup groupProvidesVersion = some version := by
  unfold setProvidesVersion
  split
  · exact ⟨_, rfl, AList.lookup_insert _⟩
  · exact ⟨_, rfl, AList.lookup_insert _⟩

theorem setProvidesVersion_depends (w : ArtifactWriter) (version : Text) :
    (setProvidesVersion w version).args.depends = w.args.depends := by
  unfold setProvidesVersion
  split
  · rfl
  · rfl

/-- The fields that a group payload is written with. -/
structure GroupWritten (sha256 : Bytes → Bytes) (tmpDir targetVersion : Text) (files : Files)
    (w : ArtifactWriter) (devFileMap : List (Text × Text)) (w' : ArtifactWriter)
    (files' : Files) : Prop where
  depends : w'.args.depends = w.args.depends
  payload : ∃ provides payload,
    Added sha256 tmpDir targetVersion files provides devFileMap payload ∧
    provides.lookup groupProvidesVersion = some targetVersion ∧ files' = payload.files ∧
    w'.args.typeInfo.artifactProvides = some payload.provides ∧
    w'.args.updates = [⟨"zephyr-group-image".toList, payload.updateFiles⟩]

theorem withGroupPayload_ok (htargets : Targets tmpDir devFileMap) {w' : ArtifactWriter}
    {files' : Files}
    (h : withGroupPayload sha256 lib files tmpDir w devFileMap targetVersion = .ok (w', files')) :
    GroupWritten sha256 tmpDir targetVersion files w devFileMap w' files' := by
  unfold withGroupPayload at h
  obtain ⟨provides, hprovides, hversion⟩ := setProvidesVersion_provides w targetVersion
  obtain ⟨payload, hrun, h⟩ := bind_ok_iff.mp h
  rw [hprovides, Option.getD_some] at hrun
  have hstart : Added sha256 tmpDir targetVersion files provides [] ⟨files, provides, []⟩ :=
    ⟨nofun, rfl, fun _ _ => rfl, fun _ _ => rfl⟩
  have hadded := hstart.run htargets hrun
  split at h
  · cases h
    exact ⟨setProvidesVersion_depends w targetVersion, provides, payload, hadded, hversion, rfl,
      rfl, rfl⟩
  · cases h

end Write

/-! ## What is read -/

section Read

variable {α : Type} {lib : MenderArtifact α} {sha256 : Bytes → Bytes}

/-- Files with the checksums that the artifact provides are all taken. -/
theorem foldlM_checkImage {provides : StringMap} {entries : List ((_ : Text) × Bytes)}
    (h : ∀ f ∈ entries, provides.lookup (targetKey groupArtifactTarget f.1) =
      some (hexText (sha256 f.2))) (devImgMap : AList fun _ : Text => AFile) :
    entries.foldlM (checkImage sha256 provides) devImgMap =
      .ok (putAll devImgMap (entries.map fun f => ⟨f.1, ⟨f.2, sha256 f.2⟩⟩)) := by
  induction entries generalizing devImgMap with
  | nil => rfl
  | cons f entries ih =>
    have hcheck : checkImage sha256 provides devImgMap f =
        .ok (devImgMap.insert f.1 ⟨f.2, sha256 f.2⟩) := by
      unfold checkImage
      rw [h f List.mem_cons_self]
      exact if_neg (not_not_intro rfl)
    rw [List.foldlM_cons, hcheck]
    exact ih (fun f' hf' => h f' (List.mem_cons_of_mem _ hf')) _

/-- The files that are read are the images by the names of their devices. -/
theorem GroupWritten.files {tmpDir targetVersion : Text} {files files' : Files}
    {w w' : ArtifactWriter} {devFileMap : List (Text × Text)} {update : Composer}
    {payload : Payload}
    (h : GroupWritten sha256 tmpDir targetVersion files w devFileMap w' files')
    (htargets : Targets tmpDir devFileMap) (hupdate : w'.args.updates = [update])
    (hread : update.Read w'.args.typeInfo files' payload) :
    payload.files.map (fun f => (f.1, some f.2)) = devFileMap.map fun t => (t.1, files t.2) := by
  obtain ⟨_, written, hadded, _, rfl, _, hupdates⟩ := h.payload
  cases hupdate.symm.trans hupdates
  have hnames : written.updateFiles.map (fun f => (pathBase f.name, written.files f.name)) =
      (written.updateFiles.map DataFile.name).map fun name =>
        (pathBase name, written.files name) := by
    rw [List.map_map]
    rfl
  rw [hread.files, hnames, hadded.updateFiles, List.map_map]
  refine List.map_congr_left fun t ht => ?_
  obtain ⟨content, hsource, -, hcopy, -⟩ := hadded.images t ht
  dsimp only [Function.comp_apply]
  rw [hcopy, hsource, pathBase_joinPath htargets.dir_ne (htargets.names t ht)]

/-- The files of a single payload, by their names. -/
theorem readArtifactToMem_lookup {files : Files} {devFileMap : List (Text × Text)}
    (hnodup : (devFileMap.map Prod.fst).Nodup) {view : ArtifactView} {payload : Payload}
    (hpayloads : view.payloads = [payload])
    (hfiles : payload.files.map (fun f => (f.1, some f.2)) =
      devFileMap.map fun t => (t.1, files t.2)) {dev : Text} {data : Bytes} :
    (readArtifactToMem view).lookup dev = some data ↔
      ∃ file, (dev, file) ∈ devFileMap ∧ files file = some data := by
  have hnames : payload.files.map Prod.fst = devFileMap.map Prod.fst := by
    have h := congrArg (List.map Prod.fst) hfiles
    rwa [List.map_map, List.map_map] at h
  unfold readArtifactToMem
  rw [hpayloads, List.flatMap_singleton, lookup_putAll_iff rfl]
  · constructor
    · intro hmem
      obtain ⟨f, hf, heq⟩ := List.mem_map.mp hmem
      cases heq
      have hmem : (f.1, some f.2) ∈ devFileMap.map fun t => (t.1, files t.2) := by
        rw [← hfiles]
        exact List.mem_map_of_mem hf
      obtain ⟨t, ht, heq⟩ := List.mem_map.mp hmem
      obtain ⟨hdev, hdata⟩ := Prod.mk.inj heq
      exact ⟨t.2, hdev ▸ ht, hdata⟩
    · rintro ⟨file, hmem, hdata⟩
      have hmem : (dev, files file) ∈ payload.files.map fun f => (f.1, some f.2) := by
        rw [hfiles]
        exact List.mem_map_of_mem hmem
      obtain ⟨f, hf, heq⟩ := List.mem_map.mp hmem
      obtain ⟨rfl, hsome⟩ := Prod.mk.inj heq
      rw [hdata, Option.some.injEq] at hsome
      exact List.mem_map.mpr ⟨f, hf, by rw [hsome]⟩
  · rw [List.map_map]
    exact hnames ▸ hnodup

/-- The images of files, by the same names. -/
theorem lookup_images {files : AList fun _ : Text => Bytes} {name : Text} :
    (putAll ∅ (files.entries.map fun f => (⟨f.1, ⟨f.2, sha256 f.2⟩⟩ : (_ : Text) × AFile))).lookup
        name = (files.lookup name).map fun data => ⟨data, sha256 data⟩ := by
  have hnodup : ((files.entries.map fun f =>
      (⟨f.1, ⟨f.2, sha256 f.2⟩⟩ : (_ : Text) × AFile)).map Sigma.fst).Nodup := by
    rw [List.map_map]
    exact files.nodupKeys
  apply Option.ext
  intro image
  rw [lookup_putAll_iff rfl hnodup, Option.map_eq_some_iff, List.mem_map]
  constructor
  · rintro ⟨f, hf, heq⟩
    cases heq
    exact ⟨f.2, AList.mem_lookup_iff.mpr hf, rfl⟩
  · rintro ⟨data, hlookup, rfl⟩
    exact ⟨⟨name, data⟩, AList.mem_lookup_iff.mp hlookup, rfl⟩

/-- An artifact whose provides have the checksums of its files and a version is read. -/
theorem extractGroupArtifact_ok {view : ArtifactView} {compatible : List Text}
    {provides : StringMap} (hcommon : extractArtifactCommon lib view = .ok (compatible, provides))
    (hchecksums : ∀ dev data, (readArtifactToMem view).lookup dev = some data →
      provides.lookup (targetKey groupArtifactTarget dev) = some (hexText (sha256 data)))
    {version : Text} (hversion : provides.lookup groupArtifactVersion = some version) :
    ∃ images, extractGroupArtifact lib sha256 view = .ok ⟨images, version, compatible⟩ ∧
      ∀ dev data, (∃ hash, images.lookup dev = some ⟨data, hash⟩) ↔
        (readArtifactToMem view).lookup dev = some data := by
  have hentries : ∀ f ∈ (readArtifactToMem view).entries,
      provides.lookup (targetKey groupArtifactTarget f.1) = some (hexText (sha256 f.2)) :=
    fun f hf => hchecksums f.1 f.2 (AList.mem_lookup_iff.mpr hf)
  refine ⟨putAll ∅ ((readArtifactToMem view).entries.map fun f => ⟨f.1, ⟨f.2, sha256 f.2⟩⟩),
    bind_ok_iff.mpr ⟨_, hcommon, bind_ok_iff.mpr ⟨_, foldlM_checkImage hentries ∅, ?_⟩⟩,
    fun dev data => ?_⟩
  · rw [hversion]
  · rw [lookup_images]
    constructor
    · rintro ⟨hash, hlookup⟩
      obtain ⟨data', hdata, heq⟩ := Option.map_eq_some_iff.mp hlookup
      cases heq
      exact hdata
    · intro hlookup
      exact ⟨sha256 data, by rw [hlookup, Option.map_some]⟩

end Read

/-- A group artifact that is read: the images of the devices, their version and the group types. -/
structure ReadsBack (files : Files) (devFileMap : List (Text × Text)) (groupTypes : List Text)
    (artifact : GroupArtifact) : Prop where
  images : ∀ dev data, (∃ hash, artifact.images.lookup dev = some ⟨data, hash⟩) ↔
    ∃ file, (dev, file) ∈ devFileMap ∧ files file = some data
  version : ∀ t ∈ devFileMap, ∃ content v, files t.2 = some content ∧
    imageVersion content = some v ∧ artifact.version = v.text
  compatible : artifact.compatible = groupTypes

/-- Two images have different versions, or an image has no magic number. -/
def Unfit (files : Files) (devFileMap : List (Text × Text)) : Prop :=
  (∃ t ∈ devFileMap, ∃ t' ∈ devFileMap, ∃ content content', files t.2 = some content ∧
    files t'.2 = some content' ∧ imageVersion content ≠ imageVersion content') ∨
  ∃ t ∈ devFileMap, ∃ content, files t.2 = some content ∧ ¬ HasMagic content

section Codec

variable {α : Type} {lib : MenderArtifact α} {sha256 : Bytes → Bytes}
  {tmpDir targetVersion : Text} {files files' : Files} {w w' : ArtifactWriter}
  {devFileMap : List (Text × Text)} {groupTypes : List Text}

theorem GroupWritten.fit
    (h : GroupWritten sha256 tmpDir targetVersion files w devFileMap w' files') :
    ¬ Unfit files devFileMap := by
  obtain ⟨_, _, hadded, _⟩ := h.payload
  rintro (⟨t, ht, t', ht', content, content', hcontent, hcontent', hne⟩ | ⟨t, ht, content, hcontent,
    hmagic⟩)
  · obtain ⟨_, hsource, himage, -⟩ := hadded.images t ht
    obtain ⟨_, hsource', himage', -⟩ := hadded.images t' ht'
    cases hcontent.symm.trans hsource
    cases hcontent'.symm.trans hsource'
    obtain ⟨v, hv, htext⟩ := himage.version
    obtain ⟨v', hv', htext'⟩ := himage'.version
    rw [hv, hv', ImageVersion.text_injective (htext.trans htext'.symm)] at hne
    exact hne rfl
  · obtain ⟨_, hsource, himage, -⟩ := hadded.images t ht
    cases hcontent.symm.trans hsource
    exact hmagic himage.magic

/-- What was written is read back. -/
theorem GroupWritten.extract
    (h : GroupWritten sha256 tmpDir targetVersion files w devFileMap w' files')
    (htargets : Targets tmpDir devFileMap) (hlib : lib.RoundTrip) {depends : ArtifactDepends}
    (hdepends : w.args.depends = some depends) (hgroups : depends.compatibleDevices ≠ [])
    {artifact : α} (hwrite : lib.writeArtifact w'.args files' = some artifact) :
    ∃ ga, extractArtifact lib sha256 artifact = .ok (.group ga) ∧
      ReadsBack files devFileMap depends.compatibleDevices ga := by
  obtain ⟨view, hview, hread⟩ := hlib.read _ _ _ hwrite
  obtain ⟨base, written, hadded, hversion, hfiles', hprovides, hupdates⟩ := h.payload
  have hpayloads := hread.payloads
  rw [hupdates] at hpayloads
  obtain ⟨payload, rest, hpayload, hnil, hsingle⟩ := List.forall₂_cons_left_iff.mp hpayloads
  cases List.forall₂_nil_left_iff.mp hnil
  have hstore := @readArtifactToMem_lookup files devFileMap htargets.nodup view payload hsingle
    (h.files htargets hupdates hpayload)
  have hdevices : view.depends = depends :=
    Option.some.inj (hread.depends.symm.trans (h.depends.trans hdepends))
  obtain ⟨provides, hmerge, hlookup⟩ := hlib.provides view payload hsingle
  obtain ⟨mergedDepends, hmergeDepends, hdeviceType⟩ := hlib.depends view payload hsingle
    (hdevices ▸ hgroups)
  rw [hdevices] at hdeviceType
  have hpayloadProvides : payload.provides = written.provides := by
    rw [hpayload.provides, hprovides, Option.getD_some]
  have hcommon : extractArtifactCommon lib view = .ok (depends.compatibleDevices, provides) := by
    simp only [extractArtifactCommon, hmergeDepends, hdeviceType, hmerge]
  have hchecksums : ∀ dev data, (readArtifactToMem view).lookup dev = some data →
      provides.lookup (targetKey groupArtifactTarget dev) = some (hexText (sha256 data)) := by
    intro dev data hdata
    obtain ⟨file, hmem, hfile⟩ := hstore.mp hdata
    obtain ⟨content, hsource, -, -, hkey⟩ := hadded.images _ hmem
    cases hfile.symm.trans hsource
    exact hlookup _ _ (hpayloadProvides ▸ hkey)
  have hwritten : written.provides.lookup groupProvidesVersion = some targetVersion := by
    rw [← hversion]
    exact hadded.keys _ fun t _ => (targetKey_ne_version t.1).symm
  obtain ⟨images, hextract, himages⟩ := extractGroupArtifact_ok hcommon hchecksums
    (hlookup _ _ (hpayloadProvides ▸ hwritten))
  have htype : payload.type = groupArtifactPrefix := hpayload.type
  have hother : payload.type ≠ zephyrArtifactPrefix := by
    rw [htype]
    decide
  refine ⟨⟨images, targetVersion, depends.compatibleDevices⟩, ?_, ?_, ?_, rfl⟩
  · unfold extractArtifact
    rw [hview]
    dsimp only
    rw [hsingle]
    dsimp only
    rw [if_neg hother, if_pos htype, hextract]
    rfl
  · exact fun dev data => (himages dev data).trans hstore
  · intro t ht
    obtain ⟨content, hsource, himage, -⟩ := hadded.images t ht
    obtain ⟨v, hv, htext⟩ := himage.version
    exact ⟨content, v, hsource, hv, htext.symm⟩

end Codec

/-- **The group artifact codec.** An artifact that is written is read again with the images of all
devices, their common version and the group types, and no artifact is written from images that do
not fit, whatever the order in which the map of the devices is taken. -/
theorem group_artifact_codec {α : Type} (lib : MenderArtifact α) (hlib : lib.RoundTrip)
    (sha256 : Bytes → Bytes) (files : Files) (tmpDir : Text) (devFileMap : List (Text × Text))
    (htargets : Targets tmpDir devFileMap) (outputPath : Text)
    (payloadProvides payloadDepends : StringMap) (payloadClearsProvides : List Text)
    (artifactName artifactGroup : Text) (compatArtifacts groupTypes compatGroups : List Text)
    (hgroups : groupTypes ≠ []) (targetVersion : Text) :
    (∀ w files', withGroupPayload sha256 lib files tmpDir
        (groupWriter outputPath payloadProvides payloadDepends payloadClearsProvides artifactName
          artifactGroup compatArtifacts groupTypes compatGroups)
        devFileMap targetVersion = .ok (w, files') →
      ∀ artifact, w.write lib files' = .ok artifact →
        ∃ ga, extractArtifact lib sha256 artifact = .ok (.group ga) ∧
          ReadsBack files devFileMap groupTypes ga) ∧
    (Unfit files devFileMap →
      ∃ e, withGroupPayload sha256 lib files tmpDir
        (groupWriter outputPath payloadProvides payloadDepends payloadClearsProvides artifactName
          artifactGroup compatArtifacts groupTypes compatGroups)
        devFileMap targetVersion = .error e) := by
  constructor
  · intro w files' hpayload artifact hwrite
    have hwritten := withGroupPayload_ok htargets hpayload
    exact hwritten.extract htargets hlib rfl hgroups (ArtifactWriter.write_ok hwrite)
  · intro hunfit
    cases hresult : withGroupPayload sha256 lib files tmpDir
        (groupWriter outputPath payloadProvides payloadDepends payloadClearsProvides artifactName
          artifactGroup compatArtifacts groupTypes compatGroups) devFileMap targetVersion with
    | error e => exact ⟨e, rfl⟩
    | ok result =>
      obtain ⟨w, files'⟩ := result
      exact absurd hunfit (withGroupPayload_ok htargets hresult).fit

/-- The command writes what it has given to `withGroupPayload`. -/
theorem writeGroupZephyr_ok {α : Type} {lib : MenderArtifact α} {sha256 : Bytes → Bytes}
    {files : Files} {tmpDir : Text} {range₁ range₂ : StringMap → List (Text × Text)}
    {flags : GroupFlags} {artifact : α}
    (h : writeGroupZephyr sha256 lib files tmpDir range₁ range₂ flags = .ok artifact) :
    ∃ payloadProvides payloadDepends devFileMap targetVersion w files',
      parseKeyValuePairs flags.provides = .ok payloadProvides ∧
      parseKeyValuePairs flags.depends = .ok payloadDepends ∧
      parseTargets flags.targets = .ok devFileMap ∧
      withGroupPayload sha256 lib files tmpDir
        (groupWriter flags.parseOutputPath payloadProvides payloadDepends flags.clearsProvides
          targetVersion flags.providesGroup flags.dependsArtifacts flags.groupTypes
          flags.dependsGroups) (range₂ devFileMap) targetVersion = .ok (w, files') ∧
      w.write lib files' = .ok artifact := by
  unfold writeGroupZephyr at h
  obtain ⟨payloadProvides, hprovides, h⟩ := bind_ok_iff.mp h
  obtain ⟨payloadDepends, hdepends, h⟩ := bind_ok_iff.mp h
  obtain ⟨devFileMap, htargets, h⟩ := bind_ok_iff.mp h
  obtain ⟨targetVersion, -, h⟩ := bind_ok_iff.mp h
  obtain ⟨⟨w, files'⟩, hpayload, h⟩ := bind_ok_iff.mp h
  exact ⟨payloadProvides, payloadDepends, devFileMap, targetVersion, w, files', hprovides, hdepends,
    htargets, hpayload, h⟩

namespace GroupArtifactRun

/-- The header of an image of version 0.1.2+3. -/
def image (last : UInt8) : Bytes :=
  [0x3d, 0xb8, 0xf3, 0x96] ++ List.replicate 16 0 ++ [0, 1, 2, 0, 3, 0, 0, 0, last]

def files (path : Text) : Option Bytes :=
  if path = "a.img".toList then some (image 1)
  else if path = "b.img".toList then some (image 2)
  else none

def tmpDir : Text := "/tmp/rdfm-group1".toList

def devFileMap : List (Text × Text) :=
  [("one".toList, "a.img".toList), ("two".toList, "b.img".toList)]

def targetVersion : Text := "0.1.2+3".toList

/-- The user gives a version of his own, too. -/
def writer : ArtifactWriter :=
  groupWriter "out.rdfm".toList ((∅ : StringMap).insert groupProvidesVersion "9".toList) ∅ []
    targetVersion [] [] ["dummy".toList] []

theorem targets : Targets tmpDir devFileMap where
  dir_ne := by decide
  names := by
    simp only [devFileMap, List.forall_mem_cons, List.not_mem_nil, false_implies, implies_true,
      and_true]
    exact ⟨⟨by decide, by decide, by decide, by decide⟩, by decide, by decide, by decide, by decide⟩
  nodup := by decide
  fresh := by decide

end GroupArtifactRun

open GroupArtifactRun

theorem group_artifact_codec_pair :
    ∃ w files' artifact ga,
      withGroupPayload id MenderArtifact.inMemory files tmpDir writer devFileMap targetVersion =
        .ok (w, files') ∧
      w.write MenderArtifact.inMemory files' = .ok artifact ∧
      extractArtifact MenderArtifact.inMemory id artifact = .ok (.group ga) ∧
      ReadsBack files devFileMap ["dummy".toList] ga := by
  have hpayload : ∃ r, withGroupPayload id MenderArtifact.inMemory files tmpDir writer devFileMap
      targetVersion = .ok r := ⟨_, rfl⟩
  obtain ⟨⟨w, files'⟩, hpayload⟩ := hpayload
  have hwrite : ∃ artifact, w.write MenderArtifact.inMemory files' = .ok artifact := by
    cases hpayload
    exact ⟨_, rfl⟩
  obtain ⟨artifact, hwrite⟩ := hwrite
  obtain ⟨ga, hextract, hback⟩ := (group_artifact_codec MenderArtifact.inMemory
    MenderArtifact.inMemory_roundTrip id files tmpDir devFileMap targets _ _ ∅ [] _ [] []
    ["dummy".toList] [] (by decide) targetVersion).1 w files' hpayload artifact hwrite
  exact ⟨w, files', artifact, ga, hpayload, hwrite, hextract, hback⟩

end Rdfm.Artifact
