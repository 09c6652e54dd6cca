import Rdfm.Lib.Except
import Rdfm.Lib.FileSys
import Rdfm.Lib.MapMerge

/-!
# Writing artifacts

The artifact tool sets the fields of an artifact one after another and gives them to the
`mender-artifact` library. The library is a parameter (`MenderArtifact`); what is relied on is that
its reader returns what its writer was given (`RoundTrip`).
-/

namespace Rdfm.Artifact

open Rdfm.Lib

abbrev StringMap := AList fun _ : Text => Text

/-- The value of a dependency, a string or a list of strings. -/
inductive DependsValue where
  | str (s : Text)
  | list (items : List Text)
deriving DecidableEq, Repr

abbrev DependsMap := AList fun _ : Text => DependsValue

/-- `artifact.ArtifactDepends`. -/
structure ArtifactDepends where
  artifactName : List Text
  compatibleDevices : List Text
  artifactGroup : List Text
deriving DecidableEq, Repr

/-- `artifact.ArtifactProvides`. -/
structure ArtifactProvides where
  artifactName : Text
  artifactGroup : Text
deriving DecidableEq, Repr

/-- `artifact.TypeInfoV3`. -/
structure TypeInfo where
  artifactProvides : Option StringMap
  artifactDepends : Option DependsMap
  clearsArtifactProvides : List Text

/-- `handlers.DataFile`. -/
structure DataFile where
  name : Text
  checksum : Bytes

/-- `handlers.Composer`: a payload that is to be written. -/
structure Composer where
  type : Text
  files : List DataFile

/-- `awriter.WriteArtifactArgs`. The format and its version are the same for all artifacts. -/
structure WriteArtifactArgs where
  depends : Option ArtifactDepends
  provides : Option ArtifactProvides
  typeInfo : TypeInfo
  updates : List Composer

structure ArtifactWriter where
  pathToDeltas : Text
  outputPath : Text
  args : WriteArtifactArgs

inductive WriteError where
  /-- A file cannot be opened, made, read or written. -/
  | io
  /-- An error of the library. -/
  | library
  /-- `malformed key-value pair: ...`. -/
  | malformedPair (pair : Text)
  /-- `Invalid target format (expected 'device:path', got '...')`. -/
  | invalidTarget (target : Text)
  /-- `Bad image (incorrect magic value: expected ..., found ...)`. -/
  | badMagic (found : Nat)
  /-- `Version mismatch between images (target version is ..., while '...' has ...)`. -/
  | versionMismatch (target file version : Text)
  /-- `invalid delta algorithm ...; want "rsync" or "xdelta"`. -/
  | invalidAlgorithm (name : Text)
  /-- `artifact does not contain a payload`. -/
  | noPayload
  /-- `input filename '...' is a reserved name. List of reserved names: ...`. -/
  | reservedName (name : Text)
deriving DecidableEq, Repr

/-! ## Setters -/

namespace ArtifactWriter

/-- `NewRootfsArtifactWriter`, `NewGroupArtifactWriter`, `NewSingleFileArtifactWriter`. -/
def new (outputPath : Text) : ArtifactWriter where
  pathToDeltas := []
  outputPath := outputPath
  args := ⟨none, none, ⟨none, none, []⟩, []⟩

variable (d : ArtifactWriter)

def withArtifactDepends (compatibleArtifacts compatibleDevices compatibleGroups : List Text) :
    ArtifactWriter :=
  { d with args.depends := some ⟨compatibleArtifacts, compatibleDevices, compatibleGroups⟩ }

def withArtifactProvides (artifactName artifactGroup : Text) : ArtifactWriter :=
  { d with args.provides := some ⟨artifactName, artifactGroup⟩ }

def withPayloadDependsTypeErased (payloadDepends : DependsMap) : ArtifactWriter :=
  { d with args.typeInfo.artifactDepends := some payloadDepends }

/-- Strings as values of dependencies. -/
def stringDepends (payloadDepends : StringMap) : DependsMap :=
  putAll ∅ (payloadDepends.entries.map fun e => ⟨e.1, .str e.2⟩)

def withPayloadDepends (payloadDepends : StringMap) : ArtifactWriter :=
  d.withPayloadDependsTypeErased (stringDepends payloadDepends)

def withPayloadProvides (payloadProvides : StringMap) : ArtifactWriter :=
  { d with args.typeInfo.artifactProvides := some payloadProvides }

def withPayloadClearsProvides (payloadClearsProvides : List Text) : ArtifactWriter :=
  { d with args.typeInfo.clearsArtifactProvides := payloadClearsProvides }

end ArtifactWriter

/-! ## Flags -/

/-- `parseKeyValuePairs`. -/
def parseKeyValuePairs (pairs : List Text) : Except WriteError StringMap :=
  pairs.foldlM (fun dict pair =>
    match pair.splitOn ':' with
    | [key, value] => .ok (dict.insert key value)
    | _ => .error (.malformedPair pair)) ∅

/-- The flags that all commands have. -/
structure CommonFlags where
  outputPath : Text
  dependsArtifacts : List Text
  dependsGroups : List Text
  providesGroup : Text
  clearsProvides : List Text
  provides : List Text
  depends : List Text

/-- `parseOutputPath`. -/
def CommonFlags.parseOutputPath (flags : CommonFlags) : Text :=
  if flags.outputPath = [] then "artifact.rdfm".toList else flags.outputPath

/-! ## The library -/

/-- The contents of files. -/
abbrev Files := Text → Option Bytes

/-- A payload as it is read, with the names and the contents of its files. -/
structure Payload where
  type : Text
  provides : StringMap
  depends : DependsMap
  clearsProvides : List Text
  files : List (Text × Bytes)

/-- An artifact as it is read. -/
structure ArtifactView where
  provides : ArtifactProvides
  depends : ArtifactDepends
  payloads : List Payload

/-- The `mender-artifact` library, for artifacts of the type `α`. -/
structure MenderArtifact (α : Type) where
  /-- `WriteArtifact`; `none` is an error. -/
  writeArtifact : WriteArtifactArgs → Files → Option α
  /-- `ReadArtifactHeaders` and `ReadArtifactData`. -/
  readArtifact : α → Option ArtifactView
  mergeArtifactProvides : ArtifactView → Option StringMap
  mergeArtifactDepends : ArtifactView → Option DependsMap
  mergeArtifactClearsProvides : ArtifactView → List Text
  /-- `SetUpdateFiles` returns no error. -/
  setUpdateFiles : List DataFile → Bool

/-- `filepath.Base` of a path that ends with a name. -/
def pathBase (path : Text) : Text := ((path.splitOn '/').getLast?).getD []

theorem pathBase_append {dir name : Text} (h : '/' ∉ name) : pathBase (dir ++ '/' :: name) = name := by
  unfold pathBase
  rw [List.splitOn_append_cons_self, List.splitOn_eq_singleton h, List.getLast?_concat,
    Option.getD_some]

/-- The payload that is read for one that was written. -/
structure Composer.Read (typeInfo : TypeInfo) (files : Files) (update : Composer)
    (payload : Payload) : Prop where
  type : payload.type = update.type
  provides : payload.provides = typeInfo.artifactProvides.getD ∅
  depends : payload.depends = typeInfo.artifactDepends.getD ∅
  clearsProvides : payload.clearsProvides = typeInfo.clearsArtifactProvides
  files : payload.files.map (fun f => (f.1, some f.2)) =
    update.files.map fun f => (pathBase f.name, files f.name)

/-- What is read of an artifact is what was written. -/
structure WriteArtifactArgs.Read (args : WriteArtifactArgs) (files : Files)
    (view : ArtifactView) : Prop where
  provides : args.provides = some view.provides
  depends : args.depends = some view.depends
  payloads : args.updates.Forall₂ (Composer.Read args.typeInfo files) view.payloads

/-- The key of the compatible devices in the dependencies of an artifact. -/
def deviceTypeKey : Text := "device_type".toList

namespace MenderArtifact

variable {α : Type} (lib : MenderArtifact α)

/-- The reader returns what the writer was given. The merged provides of an artifact with one
payload have those of the payload, and the merged dependencies have the compatible devices of the
header. -/
structure RoundTrip : Prop where
  read : ∀ args files artifact, lib.writeArtifact args files = some artifact →
    ∃ view, lib.readArtifact artifact = some view ∧ args.Read files view
  provides : ∀ view payload, view.payloads = [payload] →
    ∃ merged, lib.mergeArtifactProvides view = some merged ∧
      ∀ k v, payload.provides.lookup k = some v → merged.lookup k = some v
  depends : ∀ view payload, view.payloads = [payload] → view.depends.compatibleDevices ≠ [] →
    ∃ merged, lib.mergeArtifactDepends view = some merged ∧
      merged.lookup deviceTypeKey = some (.list view.depends.compatibleDevices)

/-- A payload as it will be read, if its files are there. -/
def readPayload (typeInfo : TypeInfo) (files : Files) (update : Composer) : Option Payload := do
  let contents ← update.files.mapM fun f => (files f.name).map (pathBase f.name, ·)
  return {
    type := update.type
    provides := typeInfo.artifactProvides.getD ∅
    depends := typeInfo.artifactDepends.getD ∅
    clearsProvides := typeInfo.clearsArtifactProvides
    files := contents }

/-- The library for artifacts that stay in memory. -/
def inMemory : MenderArtifact ArtifactView where
  writeArtifact args files := do
    let provides ← args.provides
    let depends ← args.depends
    let payloads ← args.updates.mapM (readPayload args.typeInfo files)
    return ⟨provides, depends, payloads⟩
  readArtifact := some
  mergeArtifactProvides view :=
    some (mergeAll ((∅ : StringMap).insert "artifact_name".toList view.provides.artifactName ::
      view.payloads.map Payload.provides))
  mergeArtifactDepends view :=
    some ((mergeAll (view.payloads.map Payload.depends)).insert deviceTypeKey
      (.list view.depends.compatibleDevices))
  mergeArtifactClearsProvides view := view.payloads.flatMap Payload.clearsProvides
  setUpdateFiles _ := true

theorem readPayload_read {typeInfo : TypeInfo} {files : Files} {update : Composer}
    {payload : Payload} (h : readPayload typeInfo files update = some payload) :
    update.Read typeInfo files payload := by
  obtain ⟨contents, hcontents, h⟩ := Option.bind_eq_some_iff.mp h
  cases h
  refine ⟨rfl, rfl, rfl, rfl, ?_⟩
  have hread := forall₂_of_mapM_some hcontents
  clear hcontents h
  dsimp only
  generalize update.files = updateFiles at hread
  induction hread with
  | nil => rfl
  | cons hf _ ih =>
    obtain ⟨data, hdata, rfl⟩ := Option.map_eq_some_iff.mp hf
    rw [List.map_cons, List.map_cons, hdata, ih]

theorem inMemory_roundTrip : inMemory.RoundTrip where
  read args files artifact h := by
    obtain ⟨provides, hprovides, h⟩ := Option.bind_eq_some_iff.mp h
    obtain ⟨depends, hdepends, h⟩ := Option.bind_eq_some_iff.mp h
    obtain ⟨payloads, hpayloads, h⟩ := Option.bind_eq_some_iff.mp h
    cases h
    exact ⟨_, rfl, hprovides, hdepends,
      (forall₂_of_mapM_some hpayloads).imp fun _ _ hread => readPayload_read hread⟩
  provides view payload h := by
    refine ⟨_, rfl, fun k v hv => ?_⟩
    rw [h]
    exact lookup_putAll_entries hv
  depends view payload _ _ := ⟨_, rfl, AList.lookup_insert _⟩

end MenderArtifact

/-- `ArtifactWriter.Write`: the artifact in the output file. -/
def ArtifactWriter.write {α : Type} (lib : MenderArtifact α) (files : Files) (d : ArtifactWriter) :
    Except WriteError α :=
  match lib.writeArtifact d.args files with
  | some artifact => .ok artifact
  | none => .error .library

theorem ArtifactWriter.write_ok {α : Type} {lib : MenderArtifact α} {files : Files}
    {d : ArtifactWriter} {artifact : α} (h : d.write lib files = .ok artifact) :
    lib.writeArtifact d.args files = some artifact := by
  unfold write at h
  split at h
  · next hwrite =>
    cases h
    exact hwrite
  · cases h

end Rdfm.Artifact
