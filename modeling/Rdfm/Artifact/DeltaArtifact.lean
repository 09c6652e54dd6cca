import Rdfm.Artifact.Writer

/-!
# Delta artifacts

The command `delta-rootfs-image` sets the metadata of its flags, and then makes a delta of the
rootfs image of a base artifact and a target artifact. For this the metadata of the target is cloned
into the writer, in the place of all that was set before. The checksum that the base provides, and
support of the delta engine, become dependencies; a base without a checksum gives an empty one.

So a flag takes effect only if the target has the same metadata anyway (`delta_drops_depends`). The
delta has all that it should have exactly if the base has a checksum, no key is required with two
values, and every value of a flag is one that the delta gets without it (`delta_metadata_iff`).
-/

namespace Rdfm.Artifact

open Rdfm.Lib

/-! ## Delta engines -/

inductive DeltaEngine where
  | rsync
  | xdelta
deriving DecidableEq, Repr

namespace DeltaEngine

def name : DeltaEngine → Text
  | rsync => "rsync".toList
  | xdelta => "xdelta".toList

/-- `ParseDeltaEngine`. -/
def parse (algo : Text) : Except WriteError DeltaEngine :=
  if algo = "rsync".toList then .ok rsync
  else if algo = "xdelta".toList then .ok xdelta
  else .error (.invalidAlgorithm algo)

def supportsKey (engine : DeltaEngine) : Text := "rdfm.software.supports_".toList ++ engine.name

def metadata (engine : DeltaEngine) : StringMap :=
  (∅ : StringMap).insert ("requires:".toList ++ engine.supportsKey) "true".toList

end DeltaEngine

/-! ## Writing -/

def rootfsProvidesChecksum : Text := "rootfs-image.checksum".toList

/-- What the command rests on. -/
structure DeltaEnv (α : Type) where
  lib : MenderArtifact α
  /-- The artifacts by their paths. -/
  artifacts : Text → Option α
  /-- The orders in which the handlers of an artifact are taken, as a map has no order: when the
  target is cloned, and when the base is read. -/
  targetHandlers : List Payload → List Payload
  baseHandlers : List Payload → List Payload
  targetHandlers_perm : ∀ payloads, (targetHandlers payloads).Perm payloads
  /-- `ArtifactDelta.Delta`: the path and the content of the delta file. -/
  delta : Text → Text → DeltaEngine → Option (Text × Bytes)
  files : Files

structure DeltaFlags extends CommonFlags where
  artifactName : Text
  deviceTypes : List Text
  baseArtifact : Text
  targetArtifact : Text
  deltaAlgorithm : Text

namespace DeltaEnv

variable {α : Type} (env : DeltaEnv α)

/-- Open an artifact and read its headers. -/
def readHeaders (path : Text) : Except WriteError ArtifactView :=
  match env.artifacts path with
  | none => .error .io
  | some artifact =>
    match env.lib.readArtifact artifact with
    | none => .error .library
    | some view => .ok view

/-- `cloneMetaFromArtifact`. -/
def cloneMetaFromArtifact (d : ArtifactWriter) (path : Text) :
    Except WriteError ArtifactWriter := do
  let reader ← env.readHeaders path
  let d := d.withArtifactProvides reader.provides.artifactName reader.provides.artifactGroup
  let d := d.withArtifactDepends reader.depends.artifactName reader.depends.compatibleDevices
    reader.depends.artifactGroup
  let handlers := env.targetHandlers reader.payloads
  let d := d.withPayloadProvides (mergeAll (handlers.map Payload.provides))
  let d := d.withPayloadDependsTypeErased (mergeAll (handlers.map Payload.depends))
  return d.withPayloadClearsProvides (env.lib.mergeArtifactClearsProvides reader)

/-- `readArtifactPayloadProvides`. -/
def readArtifactPayloadProvides (path : Text) : Except WriteError StringMap := do
  let reader ← env.readHeaders path
  match env.baseHandlers reader.payloads with
  | [] => .error .noPayload
  | handler :: _ => .ok handler.provides

end DeltaEnv

/-- Set a dependency of the payload. -/
def setPayloadDepends (d : ArtifactWriter) (key value : Text) : ArtifactWriter :=
  match d.args.typeInfo.artifactDepends with
  | none => d.withPayloadDepends ((∅ : StringMap).insert key value)
  | some depends => d.withPayloadDependsTypeErased (depends.insert key (.str value))

/-- Set a value that the payload provides. -/
def setPayloadProvides (d : ArtifactWriter) (key value : Text) : ArtifactWriter :=
  match d.args.typeInfo.artifactProvides with
  | none => d.withPayloadProvides ((∅ : StringMap).insert key value)
  | some provides => d.withPayloadProvides (provides.insert key value)

def requiresText : Text := "requires:".toList

def providesText : Text := "provides:".toList

/-- One entry of the metadata of an engine, by what its key begins with. -/
def addEngineMetadata (d : ArtifactWriter) (entry : (_ : Text) × Text) : ArtifactWriter :=
  if requiresText <+: entry.1 then
    setPayloadDepends d (entry.1.drop requiresText.length) entry.2
  else if providesText <+: entry.1 then
    setPayloadProvides d (entry.1.drop providesText.length) entry.2
  else d

namespace DeltaEnv

variable {α : Type} (env : DeltaEnv α)

/-- `WithDeltaRootfsPayload`. -/
def withDeltaRootfsPayload (d : ArtifactWriter) (baseArtifactPath targetArtifactPath : Text)
    (deltaEngine : DeltaEngine) : Except WriteError (ArtifactWriter × Files) := do
  let d ← env.cloneMetaFromArtifact d targetArtifactPath
  let provides ← env.readArtifactPayloadProvides baseArtifactPath
  -- a key that is missing has the empty string for its value
  let d := setPayloadDepends d rootfsProvidesChecksum
    ((provides.lookup rootfsProvidesChecksum).getD [])
  let d := deltaEngine.metadata.entries.foldl addEngineMetadata d
  match env.delta baseArtifactPath targetArtifactPath deltaEngine with
  | none => .error .io
  | some (deltaFilename, content) =>
    .ok ({ d with
        pathToDeltas := deltaFilename
        args.updates := [⟨"rootfs-image".toList, [⟨deltaFilename, []⟩]⟩] },
      Function.update env.files deltaFilename (some content))

/-- `writeDeltaRootfs`. -/
def writeDeltaRootfs (flags : DeltaFlags) : Except WriteError α := do
  let deltaEngine ← DeltaEngine.parse flags.deltaAlgorithm
  let payloadProvides ← parseKeyValuePairs flags.provides
  let payloadDepends ← parseKeyValuePairs flags.depends
  let writer := ArtifactWriter.new flags.parseOutputPath
  let writer := writer.withArtifactProvides flags.artifactName flags.providesGroup
  let writer := writer.withArtifactDepends flags.dependsArtifacts flags.deviceTypes
    flags.dependsGroups
  let writer := writer.withPayloadProvides payloadProvides
  let writer := writer.withPayloadDepends payloadDepends
  let writer := writer.withPayloadClearsProvides flags.clearsProvides
  let (writer, files) ← env.withDeltaRootfsPayload writer flags.baseArtifact flags.targetArtifact
    deltaEngine
  writer.write env.lib files

end DeltaEnv

/-! ## What a delta should have -/

/-- The target provides a value. -/
def TargetProvides (target : ArtifactView) (k v : Text) : Prop :=
  ∃ q ∈ target.payloads, q.provides.lookup k = some v

/-- What a delta has to depend on: all that the target depends on, the checksum that the base
provides, and support of the engine. -/
inductive Requires (engine : DeltaEngine) (base : StringMap) (target : ArtifactView) :
    Text → DependsValue → Prop where
  | target {q : Payload} {k : Text} {v : DependsValue} (hq : q ∈ target.payloads)
      (hv : q.depends.lookup k = some v) : Requires engine base target k v
  | checksum {c : Text} (hc : base.lookup rootfsProvidesChecksum = some c) :
      Requires engine base target rootfsProvidesChecksum (.str c)
  | support : Requires engine base target engine.supportsKey (.str "true".toList)

/-- A pair is given with a flag. -/
def GivenPair (pairs : List Text) (k v : Text) : Prop := ∃ pair ∈ pairs, pair.splitOn ':' = [k, v]

/-- The metadata that is given with the flags. -/
structure ContainsFlags (flags : DeltaFlags) (view : ArtifactView) (payload : Payload) : Prop where
  artifactName : flags.artifactName ≠ [] → view.provides.artifactName = flags.artifactName
  providesGroup : flags.providesGroup ≠ [] → view.provides.artifactGroup = flags.providesGroup
  deviceTypes : flags.deviceTypes ⊆ view.depends.compatibleDevices
  dependsArtifacts : flags.dependsArtifacts ⊆ view.depends.artifactName
  dependsGroups : flags.dependsGroups ⊆ view.depends.artifactGroup
  provides : ∀ k v, GivenPair flags.provides k v → payload.provides.lookup k = some v
  depends : ∀ k v, GivenPair flags.depends k v → payload.depends.lookup k = some (.str v)
  clearsProvides : flags.clearsProvides ⊆ payload.clearsProvides

/-- The metadata of a delta artifact is complete: it provides what the target provides, depends on
all that it has to, on a checksum that is not empty among this, and has what the flags say. -/
structure Complete (engine : DeltaEngine) (flags : DeltaFlags) (base : StringMap)
    (target view : ArtifactView) (payload : Payload) : Prop where
  headerProvides : view.provides = target.provides
  headerDepends : view.depends = target.depends
  provides : ∀ k v, TargetProvides target k v → payload.provides.lookup k = some v
  depends : ∀ k v, Requires engine base target k v → payload.depends.lookup k = some v
  checksum : ∃ c, c ≠ [] ∧ base.lookup rootfsProvidesChecksum = some c ∧
    payload.depends.lookup rootfsProvidesChecksum = some (.str c)
  flags : ContainsFlags flags view payload

/-- The flags say nothing that the delta does not get from the target, the base and the engine. -/
structure Redundant (engine : DeltaEngine) (flags : DeltaFlags) (base : StringMap)
    (target : ArtifactView) (clearsProvides : List Text) : Prop where
  artifactName : flags.artifactName ≠ [] → target.provides.artifactName = flags.artifactName
  providesGroup : flags.providesGroup ≠ [] → target.provides.artifactGroup = flags.providesGroup
  deviceTypes : flags.deviceTypes ⊆ target.depends.compatibleDevices
  dependsArtifacts : flags.dependsArtifacts ⊆ target.depends.artifactName
  dependsGroups : flags.dependsGroups ⊆ target.depends.artifactGroup
  provides : ∀ k v, GivenPair flags.provides k v → TargetProvides target k v
  depends : ∀ k v, GivenPair flags.depends k v → Requires engine base target k (.str v)
  clearsProvides : flags.clearsProvides ⊆ clearsProvides

/-- The inputs of the command go together. -/
structure Consistent (engine : DeltaEngine) (flags : DeltaFlags) (base : StringMap)
    (target : ArtifactView) (clearsProvides : List Text) : Prop where
  checksum : ∃ c, c ≠ [] ∧ base.lookup rootfsProvidesChecksum = some c
  provides : ∀ k v w, TargetProvides target k v → TargetProvides target k w → v = w
  depends : ∀ k v w, Requires engine base target k v → Requires engine base target k w → v = w
  flags : Redundant engine flags base target clearsProvides

/-! ## What is written -/

section Written

variable {α : Type} {env : DeltaEnv α} {flags : DeltaFlags} {engine : DeltaEngine}
  {base : StringMap} {target : ArtifactView} {k : Text}

/-- The engines have one key, which is required. -/
theorem foldl_addEngineMetadata (d : ArtifactWriter) (engine : DeltaEngine) :
    engine.metadata.entries.foldl addEngineMetadata d =
      setPayloadDepends d engine.supportsKey "true".toList := by
  cases engine with
  | rsync => rfl
  | xdelta => rfl

/-- The dependencies that are written. -/
def deltaDepends (engine : DeltaEngine) (base : StringMap) (handlers : List Payload) : DependsMap :=
  ((mergeAll (handlers.map Payload.depends)).insert rootfsProvidesChecksum
    (.str ((base.lookup rootfsProvidesChecksum).getD []))).insert engine.supportsKey
      (.str "true".toList)

/-- The fields that a delta is written with: nothing that was set before is left. -/
structure DeltaArgs (env : DeltaEnv α) (engine : DeltaEngine) (base : StringMap)
    (target : ArtifactView) (args : WriteArtifactArgs) : Prop where
  provides : args.provides = some target.provides
  depends : args.depends = some target.depends
  payloadProvides : args.typeInfo.artifactProvides =
    some (mergeAll ((env.targetHandlers target.payloads).map Payload.provides))
  payloadDepends : args.typeInfo.artifactDepends =
    some (deltaDepends engine base (env.targetHandlers target.payloads))
  clearsProvides : args.typeInfo.clearsArtifactProvides =
    env.lib.mergeArtifactClearsProvides target
  updates : ∃ update, args.updates = [update]

theorem withDeltaRootfsPayload_ok {d d' : ArtifactWriter} {files : Files}
    (h : env.withDeltaRootfsPayload d flags.baseArtifact flags.targetArtifact engine =
      .ok (d', files)) :
    ∃ base target, env.readArtifactPayloadProvides flags.baseArtifact = .ok base ∧
      env.readHeaders flags.targetArtifact = .ok target ∧
      DeltaArgs env engine base target d'.args := by
  unfold DeltaEnv.withDeltaRootfsPayload DeltaEnv.cloneMetaFromArtifact at h
  obtain ⟨cloned, hclone, h⟩ := bind_ok_iff.mp h
  obtain ⟨target, htarget, hclone⟩ := bind_ok_iff.mp hclone
  cases hclone
  obtain ⟨base, hbase, hrest⟩ := bind_ok_iff.mp h
  simp only [foldl_addEngineMetadata] at hrest
  split at hrest
  · cases hrest
  · cases hrest
    exact ⟨base, target, hbase, htarget, rfl, rfl, rfl, rfl, rfl, _, rfl⟩

theorem writeDeltaRootfs_ok {artifact : α} (h : env.writeDeltaRootfs flags = .ok artifact) :
    ∃ engine base target args files, DeltaEngine.parse flags.deltaAlgorithm = .ok engine ∧
      env.readArtifactPayloadProvides flags.baseArtifact = .ok base ∧
      env.readHeaders flags.targetArtifact = .ok target ∧ DeltaArgs env engine base target args ∧
      env.lib.writeArtifact args files = some artifact := by
  unfold DeltaEnv.writeDeltaRootfs at h
  obtain ⟨engine, hengine, h⟩ := bind_ok_iff.mp h
  obtain ⟨payloadProvides, -, h⟩ := bind_ok_iff.mp h
  obtain ⟨payloadDepends, -, h⟩ := bind_ok_iff.mp h
  obtain ⟨⟨writer, files⟩, hdelta, h⟩ := bind_ok_iff.mp h
  obtain ⟨base, target, hbase, htarget, hargs⟩ := withDeltaRootfsPayload_ok hdelta
  dsimp only [ArtifactWriter.write] at h
  split at h
  · next hwrite =>
    cases h
    exact ⟨engine, base, target, writer.args, files, hengine, hbase, htarget, hargs, hwrite⟩
  · cases h

/-- Every dependency that is written is required, if the base has a checksum. -/
theorem requires_of_lookup {c : Text} (hc : base.lookup rootfsProvidesChecksum = some c)
    {handlers : List Payload} (hhandlers : ∀ q ∈ handlers, q ∈ target.payloads) {v : DependsValue}
    (h : (deltaDepends engine base handlers).lookup k = some v) :
    Requires engine base target k v := by
  unfold deltaDepends at h
  by_cases hsupport : k = engine.supportsKey
  · subst hsupport
    rw [AList.lookup_insert] at h
    cases h
    exact .support
  · rw [AList.lookup_insert_ne hsupport] at h
    by_cases hchecksum : k = rootfsProvidesChecksum
    · subst hchecksum
      rw [AList.lookup_insert, hc] at h
      cases h
      exact .checksum hc
    · rw [AList.lookup_insert_ne hchecksum] at h
      obtain ⟨m, hm, hv⟩ := lookup_mergeAll_cases h
      obtain ⟨q, hq, rfl⟩ := List.mem_map.mp hm
      exact .target (hhandlers q hq) hv

/-- Every key that is required is written. -/
theorem lookup_of_requires {handlers : List Payload}
    (hhandlers : ∀ q ∈ target.payloads, q ∈ handlers) {v : DependsValue}
    (h : Requires engine base target k v) :
    ∃ w, (deltaDepends engine base handlers).lookup k = some w := by
  unfold deltaDepends
  by_cases hsupport : k = engine.supportsKey
  · subst hsupport
    exact ⟨_, AList.lookup_insert _⟩
  · rw [AList.lookup_insert_ne hsupport]
    by_cases hchecksum : k = rootfsProvidesChecksum
    · subst hchecksum
      exact ⟨_, AList.lookup_insert _⟩
    · rw [AList.lookup_insert_ne hchecksum]
      cases h with
      | target hq hv => exact lookup_mergeAll_isSome (List.mem_map_of_mem (hhandlers _ hq)) hv
      | checksum hc => exact absurd rfl hchecksum
      | support => exact absurd rfl hsupport

end Written

/-! ## Exactly the consistent inputs -/

section Exactly

variable {α : Type} {env : DeltaEnv α} {flags : DeltaFlags} {engine : DeltaEngine}
  {base : StringMap} {target view : ArtifactView} {payload : Payload}

/-- What is read of a delta. -/
structure DeltaView (env : DeltaEnv α) (engine : DeltaEngine) (base : StringMap)
    (target view : ArtifactView) (payload : Payload) : Prop where
  provides : view.provides = target.provides
  depends : view.depends = target.depends
  payloadProvides :
    payload.provides = mergeAll ((env.targetHandlers target.payloads).map Payload.provides)
  payloadDepends :
    payload.depends = deltaDepends engine base (env.targetHandlers target.payloads)
  clearsProvides : payload.clearsProvides = env.lib.mergeArtifactClearsProvides target

theorem DeltaArgs.readBack {args : WriteArtifactArgs} {files : Files}
    (h : DeltaArgs env engine base target args) (hread : args.Read files view) :
    ∃ payload, view.payloads = [payload] ∧ DeltaView env engine base target view payload := by
  obtain ⟨update, hupdate⟩ := h.updates
  have hpayloads := hread.payloads
  rw [hupdate] at hpayloads
  obtain ⟨payload, rest, hpayload, hnil, hsingle⟩ := List.forall₂_cons_left_iff.mp hpayloads
  cases List.forall₂_nil_left_iff.mp hnil
  refine ⟨payload, hsingle, ?_, ?_, ?_, ?_, ?_⟩
  · exact Option.some.inj (hread.provides.symm.trans h.provides)
  · exact Option.some.inj (hread.depends.symm.trans h.depends)
  · rw [hpayload.provides, h.payloadProvides, Option.getD_some]
  · rw [hpayload.depends, h.payloadDepends, Option.getD_some]
  · rw [hpayload.clearsProvides, h.clearsProvides]

theorem DeltaEnv.mem_targetHandlers {q : Payload} {payloads : List Payload} :
    q ∈ env.targetHandlers payloads ↔ q ∈ payloads := (env.targetHandlers_perm payloads).mem_iff

namespace DeltaView

variable (h : DeltaView env engine base target view payload)
include h

theorem targetProvides_of_lookup {k v : Text} (hv : payload.provides.lookup k = some v) :
    TargetProvides target k v := by
  rw [h.payloadProvides] at hv
  obtain ⟨m, hm, hv⟩ := lookup_mergeAll_cases hv
  obtain ⟨q, hq, rfl⟩ := List.mem_map.mp hm
  exact ⟨q, DeltaEnv.mem_targetHandlers.mp hq, hv⟩

/-- Where the payloads of the target agree, the delta provides what they provide. -/
theorem lookup_provides_iff
    (hagree : ∀ k v w, TargetProvides target k v → TargetProvides target k w → v = w)
    {k v : Text} : payload.provides.lookup k = some v ↔ TargetProvides target k v := by
  have hmaps : Agree ((env.targetHandlers target.payloads).map Payload.provides) := by
    intro m hm m' hm' k v w hv hw
    obtain ⟨q, hq, rfl⟩ := List.mem_map.mp hm
    obtain ⟨q', hq', rfl⟩ := List.mem_map.mp hm'
    exact hagree k v w ⟨q, DeltaEnv.mem_targetHandlers.mp hq, hv⟩
      ⟨q', DeltaEnv.mem_targetHandlers.mp hq', hw⟩
  constructor
  · exact h.targetProvides_of_lookup
  · rintro ⟨q, hq, hv⟩
    rw [h.payloadProvides, lookup_mergeAll_iff hmaps]
    exact ⟨q.provides, List.mem_map_of_mem (DeltaEnv.mem_targetHandlers.mpr hq), hv⟩

/-- The metadata is complete exactly if the inputs go together. -/
theorem complete_iff :
    Complete engine flags base target view payload ↔
      Consistent engine flags base target (env.lib.mergeArtifactClearsProvides target) := by
  have hrequires {c : Text} (hc : base.lookup rootfsProvidesChecksum = some c) {k : Text}
      {v : DependsValue} (hv : payload.depends.lookup k = some v) :
      Requires engine base target k v := by
    rw [h.payloadDepends] at hv
    exact requires_of_lookup hc (fun q hq => DeltaEnv.mem_targetHandlers.mp hq) hv
  constructor
  · intro hcomplete
    obtain ⟨c, hne, hc, -⟩ := hcomplete.checksum
    refine ⟨⟨c, hne, hc⟩, ?_, ?_, ?_⟩
    · intro k v w hv hw
      exact Option.some.inj ((hcomplete.provides k v hv).symm.trans (hcomplete.provides k w hw))
    · intro k v w hv hw
      exact Option.some.inj ((hcomplete.depends k v hv).symm.trans (hcomplete.depends k w hw))
    · have hflags := hcomplete.flags
      exact
        { artifactName := h.provides ▸ hflags.artifactName
          providesGroup := h.provides ▸ hflags.providesGroup
          deviceTypes := h.depends ▸ hflags.deviceTypes
          dependsArtifacts := h.depends ▸ hflags.dependsArtifacts
          dependsGroups := h.depends ▸ hflags.dependsGroups
          provides := fun k v hgiven => h.targetProvides_of_lookup (hflags.provides k v hgiven)
          depends := fun k v hgiven => hrequires hc (hflags.depends k v hgiven)
          clearsProvides := h.clearsProvides ▸ hflags.clearsProvides }
  · intro hconsistent
    obtain ⟨c, hne, hc⟩ := hconsistent.checksum
    have hprovides : ∀ k v, TargetProvides target k v → payload.provides.lookup k = some v :=
      fun k v hv => (h.lookup_provides_iff hconsistent.provides).mpr hv
    have hdepends : ∀ k v, Requires engine base target k v → payload.depends.lookup k = some v := by
      intro k v hv
      obtain ⟨w, hw⟩ := lookup_of_requires (fun q hq => DeltaEnv.mem_targetHandlers.mpr hq) hv
      rw [← h.payloadDepends] at hw
      rw [hw, hconsistent.depends k v w hv (hrequires hc hw)]
    have hflags := hconsistent.flags
    have hchecksum := hdepends _ _ (.checksum hc)
    refine ⟨h.provides, h.depends, hprovides, hdepends, ⟨c, hne, hc, hchecksum⟩, ?_⟩
    exact
      { artifactName := h.provides.symm ▸ hflags.artifactName
        providesGroup := h.provides.symm ▸ hflags.providesGroup
        deviceTypes := h.depends.symm ▸ hflags.deviceTypes
        dependsArtifacts := h.depends.symm ▸ hflags.dependsArtifacts
        dependsGroups := h.depends.symm ▸ hflags.dependsGroups
        provides := fun k v hgiven => hprovides k v (hflags.provides k v hgiven)
        depends := fun k v hgiven => hdepends k (.str v) (hflags.depends k v hgiven)
        clearsProvides := h.clearsProvides.symm ▸ hflags.clearsProvides }

end DeltaView

end Exactly

/-- A delta artifact that the command writes has complete metadata exactly if the base has a
checksum, nothing is required or provided with two values, and the flags say nothing that the delta
does not get without them. -/
theorem delta_metadata_iff {α : Type} (env : DeltaEnv α) (hlib : env.lib.RoundTrip)
    (flags : DeltaFlags) (artifact : α) (h : env.writeDeltaRootfs flags = .ok artifact) :
    ∃ engine base target view payload, DeltaEngine.parse flags.deltaAlgorithm = .ok engine ∧
      env.readArtifactPayloadProvides flags.baseArtifact = .ok base ∧
      env.readHeaders flags.targetArtifact = .ok target ∧
      env.lib.readArtifact artifact = some view ∧ view.payloads = [payload] ∧
      (Complete engine flags base target view payload ↔
        Consistent engine flags base target (env.lib.mergeArtifactClearsProvides target)) := by
  obtain ⟨engine, base, target, args, files, hengine, hbase, htarget, hargs, hwrite⟩ :=
    writeDeltaRootfs_ok h
  obtain ⟨view, hview, hread⟩ := hlib.read _ _ _ hwrite
  obtain ⟨payload, hsingle, hdelta⟩ := hargs.readBack hread
  exact ⟨engine, base, target, view, payload, hengine, hbase, htarget, hview, hsingle,
    hdelta.complete_iff⟩

namespace DeltaArtifactRun

def checksums (checksum : String) : StringMap :=
  (∅ : StringMap).insert rootfsProvidesChecksum checksum.toList

def artifactOf (name : String) (provides : StringMap) (depends : DependsMap) : ArtifactView where
  provides := ⟨name.toList, []⟩
  depends := ⟨[], ["some-device-type".toList], []⟩
  payloads := [⟨"rootfs-image".toList, provides, depends, [], [("rootfs.img".toList, [1])]⟩]

def target : ArtifactView :=
  artifactOf "delta-target" (checksums "6e0632c4")
    ((∅ : DependsMap).insert "BBBBBBBB".toList (.str "22222222".toList))

/-- A base artifact and the target, each with its path. -/
def env (baseProvides : StringMap) : DeltaEnv ArtifactView where
  lib := MenderArtifact.inMemory
  artifacts path :=
    if path = "base.rdfm".toList then some (artifactOf "delta-base" baseProvides ∅)
    else if path = "target.rdfm".toList then some target
    else none
  targetHandlers := id
  baseHandlers := id
  targetHandlers_perm _ := .refl _
  delta _ _ engine := some ("/tmp/rootfs-image-delta-1.1.".toList ++ engine.name, [7])
  files _ := none

def flags (depends : List Text) : DeltaFlags where
  outputPath := []
  dependsArtifacts := []
  dependsGroups := []
  providesGroup := []
  clearsProvides := []
  provides := []
  depends := depends
  artifactName := []
  deviceTypes := []
  baseArtifact := "base.rdfm".toList
  targetArtifact := "target.rdfm".toList
  deltaAlgorithm := "rsync".toList

theorem consistent :
    Consistent .rsync (flags []) (checksums "f0f37130") target
      (MenderArtifact.inMemory.mergeArtifactClearsProvides target) where
  checksum := ⟨"f0f37130".toList, by decide, by decide⟩
  provides := by
    rintro k v w ⟨q, hq, hv⟩ ⟨q', hq', hw⟩
    cases List.mem_singleton.mp hq
    cases List.mem_singleton.mp hq'
    exact Option.some.inj (hv.symm.trans hw)
  depends := by
    -- the target depends on neither of the two keys that are added
    have hother {q : Payload} {k : Text} {v : DependsValue} (hq : q ∈ target.payloads)
        (hv : q.depends.lookup k = some v) :
        k ≠ rootfsProvidesChecksum ∧ k ≠ DeltaEngine.rsync.supportsKey := by
      cases List.mem_singleton.mp hq
      constructor
      · rintro rfl
        cases hv
      · rintro rfl
        cases hv
    intro k v w hv hw
    cases hv with
    | target hq hv =>
      cases hw with
      | target hq' hw =>
        cases List.mem_singleton.mp hq
        cases List.mem_singleton.mp hq'
        exact Option.some.inj (hv.symm.trans hw)
      | checksum hc => exact absurd rfl (hother hq hv).1
      | support => exact absurd rfl (hother hq hv).2
    | checksum hc =>
      generalize hk : rootfsProvidesChecksum = k at hw
      cases hw with
      | target hq hw => exact absurd hk.symm (hother hq hw).1
      | checksum hc' => rw [Option.some.inj (hc.symm.trans hc')]
      | support => exact absurd hk (by decide)
    | support =>
      generalize hk : DeltaEngine.rsync.supportsKey = k at hw
      cases hw with
      | target hq hw => exact absurd hk.symm (hother hq hw).2
      | checksum hc => exact absurd hk (by decide)
      | support => rfl
  flags :=
    { artifactName := fun h => absurd rfl h
      providesGroup := fun h => absurd rfl h
      deviceTypes := List.nil_subset _
      dependsArtifacts := List.nil_subset _
      dependsGroups := List.nil_subset _
      provides := by
        rintro k v ⟨pair, hpair, -⟩
        cases hpair
      depends := by
        rintro k v ⟨pair, hpair, -⟩
        cases hpair
      clearsProvides := List.nil_subset _ }

end DeltaArtifactRun

open DeltaArtifactRun

theorem delta_metadata_complete :
    ∃ artifact view payload,
      (env (checksums "f0f37130")).writeDeltaRootfs (flags []) = .ok artifact ∧
      MenderArtifact.inMemory.readArtifact artifact = some view ∧ view.payloads = [payload] ∧
      Complete .rsync (flags []) (checksums "f0f37130") target view payload := by
  have hwrite : ∃ artifact,
      (env (checksums "f0f37130")).writeDeltaRootfs (flags []) = .ok artifact := ⟨_, rfl⟩
  obtain ⟨artifact, hwrite⟩ := hwrite
  obtain ⟨engine, base, target', view, payload, hengine, hbase, htarget, hview, hsingle, hiff⟩ :=
    delta_metadata_iff (env (checksums "f0f37130")) MenderArtifact.inMemory_roundTrip (flags [])
      artifact hwrite
  cases hengine
  cases hbase
  cases htarget
  exact ⟨artifact, view, payload, hwrite, hview, hsingle, hiff.mpr consistent⟩

/-- A dependency that is given with a flag is not written, and neither is a base without a checksum
refused: the delta then depends on the empty checksum. -/
theorem delta_drops_depends :
    (∃ artifact payload, (env (checksums "f0f37130")).writeDeltaRootfs
        (flags ["region:eu".toList]) = .ok artifact ∧ artifact.payloads = [payload] ∧
      GivenPair (flags ["region:eu".toList]).depends "region".toList "eu".toList ∧
      payload.depends.lookup "region".toList = none ∧
      ¬ Complete .rsync (flags ["region:eu".toList]) (checksums "f0f37130") target artifact
        payload) ∧
    ∃ artifact payload, (env ∅).writeDeltaRootfs (flags []) = .ok artifact ∧
      artifact.payloads = [payload] ∧
      payload.depends.lookup rootfsProvidesChecksum = some (.str []) ∧
      ¬ Complete .rsync (flags []) ∅ target artifact payload := by
  refine ⟨⟨_, _, rfl, rfl, ⟨_, List.mem_singleton_self _, by decide⟩, by decide, fun h => ?_⟩,
    _, _, rfl, rfl, by decide, fun h => ?_⟩
  · have hregion := h.flags.depends "region".toList "eu".toList
      ⟨_, List.mem_singleton_self _, by decide⟩
    exact absurd hregion (by decide)
  · obtain ⟨c, -, hc, -⟩ := h.checksum
    cases hc

end Rdfm.Artifact
