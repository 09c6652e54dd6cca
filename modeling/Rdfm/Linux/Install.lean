import Rdfm.Linux.SingleFile

/-!
# Installing, committing and rolling back an artifact

The Linux client's `DoInstallStates`, `DoCommit` and `DoRollback` with the handlers behind them. The
device is one state: files, the dual-rootfs device, and the three kinds of keys of the database. The
artifact reader, the dual-rootfs device and the database are other people's code and are parameters;
which of their calls fail is given from outside. Errors that the code drops are dropped here.
-/

namespace Rdfm.Linux

open Rdfm.Lib

/-! ## Artifacts -/

/-- The value of a `depends` entry: a string, a list of strings, a list decoded from JSON (`none`
for what is no string), or anything else. -/
inductive DependsValue where
  | str (s : Text)
  | strs (l : List Text)
  | anys (l : List (Option Text))
  | other
deriving DecidableEq, Repr

inductive PayloadType where
  | rootfsImage
  | singleFile
deriving DecidableEq, Repr

def PayloadType.name : PayloadType → Text
  | .rootfsImage => "rootfs-image".toList
  | .singleFile => "single-file".toList

structure Payload where
  type : PayloadType
  files : List DataFile
deriving DecidableEq, Repr

/-- What the artifact reader returns of an artifact. -/
structure Artifact where
  /-- Whether the headers can be read and every payload has a handler. -/
  headersOk : Bool
  compatibleDevices : List Text
  /-- The merged depends, in the order the map is walked; `none` if they cannot be merged. -/
  depends : Option (List (Text × DependsValue))
  /-- The merged provides. -/
  provides : Option (List (Text × Text))
  clearsProvides : List Text
  name : Text
  payloads : List Payload
deriving DecidableEq, Repr

/-! ## The device -/

/-- `StandaloneStateData`, of version 1. -/
structure StateData where
  version : Nat
  artifactName : Text
  artifactGroup : Text
  artifactTypeInfoProvides : List (Text × Text)
  artifactClearsProvides : List Text
  payloadTypes : List Text
deriving DecidableEq, Repr

def standaloneStateDataVersion : Nat := 1

/-- The keys of the installed artifact. -/
structure ArtifactData where
  artifactName : Text
  artifactGroup : Text
  provides : List (Text × Text)
deriving DecidableEq, Repr

/-- A value of the database: absent, not decodable, or decoded. -/
inductive Stored (α : Type) where
  | absent
  | garbage
  | value (a : α)
deriving DecidableEq, Repr

/-- All that an update can change; `R` is the state of the dual-rootfs device. -/
structure DeviceState (R : Type) where
  fs : FileSys
  rootfs : R
  /-- The key of the saved update. -/
  standaloneState : Stored StateData
  /-- The key `single-file-data-store`. -/
  singleFileData : Stored SingleFileData
  artifactData : ArtifactData

/-- The dual-rootfs device. -/
structure DualRootfs (R : Type) where
  storeUpdate : DataFile → R → R
  installUpdate : R → R
  commitUpdate : R → R
  rollback : R → R
  cleanup : R → R
  supportsRollback : Bool

structure DeviceManager (R : Type) where
  deviceType : Text
  dualRootfs : Option (DualRootfs R)
  /-- `datastore.LoadProvides`; `none` is an error, with a nil map. -/
  loadProvides : ArtifactData → Option (List (Text × Text))
  /-- `datastore.CommitArtifactData` in a transaction; `none` is an error. -/
  commitArtifactData : ArtifactData → StateData → Option ArtifactData
  /-- `utils.ElemInSlice`, and whether it answered `ErrInvalidType`. -/
  elemInSlice : List (Option Text) → Text → Bool × Bool

/-- `ElemInSlice`, as membership. -/
def memSlice (l : List (Option Text)) (p : Text) : Bool × Bool := (decide (some p ∈ l), false)

/-- Which calls fail: `RestoreState`, `CommitUpdate`, `Rollback` and `InstallUpdate` of each payload,
the database transaction, and the reading of payload data (before the given file). -/
structure CallFaults where
  restore : Nat → Bool
  commit : Nat → Bool
  rollback : Nat → Bool
  install : Nat → Bool
  txn : Bool
  data : Option Nat

def noCallFaults : CallFaults := ⟨fun _ => false, fun _ => false, fun _ => false, fun _ => false, false, none⟩

inductive InstallFailure where
  | headers
  /-- `Artifact dependency ... not satisfied by currently installed artifact`. -/
  | dependency (key : Text) (depend : DependsValue) (provided : Option Text)
  /-- `invalid type ... for dependency with name`. -/
  | dependsType (key : Text) (depend : DependsValue)
  | mergeDepends
  | payloadData
  | installUpdate
  | noState
  | decodeState
  /-- `Incompatible version stored in database.` -/
  | stateVersion
  | transaction
deriving DecidableEq, Repr

/-! ## Dependencies -/

section Dependencies

variable (elemInSlice : List (Option Text) → Text → Bool × Bool)

/-- One entry of the depends against the provides. -/
def verifyDependency (provides : List (Text × Text)) (key : Text) (depend : DependsValue) :
    Option InstallFailure :=
  if key = "device_type".toList then none
  else
    match provides.lookup key with
    | none => some (.dependency key depend none)
    | some p =>
      match depend with
      | .anys l =>
        if (elemInSlice l p).1 then none
        else if (elemInSlice l p).2 then some (.dependsType key depend)
        else some (.dependency key depend (some p))
      | .strs l =>
        if (elemInSlice (l.map some) p).1 then none else some (.dependency key depend (some p))
      | .str s => if p = s then none else some (.dependency key depend (some p))
      | .other => some (.dependsType key depend)

/-- The loop of `VerifyDependencies`: the first failure. -/
def verifyDependencies (provides : List (Text × Text)) :
    Option (List (Text × DependsValue)) → Option InstallFailure
  | none => some .mergeDepends
  | some depends => depends.findSome? fun (key, depend) => verifyDependency elemInSlice provides key depend

end Dependencies

/-- The provides with the delta engines added. -/
def injectProvides (provides : List (Text × Text)) : List (Text × Text) :=
  ("rdfm.software.supports_xdelta".toList, "true".toList) ::
    ("rdfm.software.supports_rsync".toList, "true".toList) :: provides

/-! ## Payload handlers -/

/-- A handler of a payload, with its state. -/
inductive Installer where
  | rootfs
  | singleFile (s : SingleFileData)
  /-- A reader that drops its data, in place of a missing dual-rootfs device. -/
  | discard
deriving DecidableEq, Repr

variable {R : Type} (dev : DeviceManager R) (io : CallFaults)

def newInstaller : PayloadType → Installer
  | .rootfsImage => if dev.dualRootfs.isSome then .rootfs else .discard
  | .singleFile => .singleFile newSingleFileUpdater

/-- The dual-rootfs device moves by one of its operations. -/
def onRootfs (f : DualRootfs R → R → R) (w : DeviceState R) : DeviceState R :=
  match dev.dualRootfs with
  | none => w
  | some d => { w with rootfs := f d w.rootfs }

/-- A file of payload data reaches its handler. -/
def storeFile (f : DataFile) : Installer → DeviceState R → Installer × DeviceState R
  | .rootfs, w => (.rootfs, onRootfs dev (fun d => d.storeUpdate f) w)
  | .singleFile s, w =>
    let (s, fs) := s.storeUpdate f w.fs
    (.singleFile s, { w with fs })
  | .discard, w => (.discard, w)

/-- The files of one payload, with the number of files that can still be read. -/
def storeFiles : Option Nat → List DataFile → Installer → DeviceState R →
    Bool × Option Nat × Installer × DeviceState R
  | some 0, _ :: _, inst, w => (true, some 0, inst, w)
  | budget, [], inst, w => (false, budget, inst, w)
  | budget, f :: files, inst, w =>
    let (inst, w) := storeFile dev f inst w
    storeFiles (budget.map (· - 1)) files inst w

/-- `StorePayloads`: whether reading failed, and every handler. -/
def storePayloads : Option Nat → List Payload → DeviceState R →
    Bool × List Installer × DeviceState R
  | _, [], w => (false, [], w)
  | budget, p :: payloads, w =>
    match storeFiles dev budget p.files (newInstaller dev p.type) w with
    | (true, _, inst, w) => (true, inst :: payloads.map (fun p => newInstaller dev p.type), w)
    | (false, budget, inst, w) =>
      let (failed, insts, w) := storePayloads budget payloads w
      (failed, inst :: insts, w)

/-- The handlers that can install: not the discarding ones. -/
def performers (insts : List Installer) : List Installer := insts.filter (· ≠ .discard)

def supportsRollback : Installer → Bool
  | .rootfs => (dev.dualRootfs.map DualRootfs.supportsRollback).getD false
  | .singleFile s => s.rollbackSupport
  | .discard => false

def isRollbackSupported (insts : List Installer) : Bool := insts.any (supportsRollback dev)

/-- `Rollback` of one handler: whether it failed. -/
def rollbackInstaller (fails : Bool) : Installer → DeviceState R → Bool × DeviceState R
  | .rootfs, w => (fails, onRootfs dev DualRootfs.rollback w)
  | .singleFile s, w =>
    let (failed, fs) := s.rollback fails w.fs
    (failed, { w with fs })
  | .discard, w => (false, w)

/-- `CommitUpdate` of one handler: whether it failed. -/
def commitInstaller (fails : Bool) : Installer → DeviceState R → Bool × DeviceState R
  | .rootfs, w => (fails, onRootfs dev DualRootfs.commitUpdate w)
  | .singleFile s, w => (false, { w with fs := s.commitUpdate fails w.fs })
  | .discard, w => (false, w)

/-- `Handler.Rollback`: it stops at the first error. -/
def rollbackHandlers : Nat → List Installer → DeviceState R → DeviceState R
  | _, [], w => w
  | i, inst :: insts, w =>
    if supportsRollback dev inst then
      match rollbackInstaller dev (io.rollback i) inst w with
      | (true, w) => w
      | (false, w) => rollbackHandlers (i + 1) insts w
    else rollbackHandlers (i + 1) insts w

/-- `Handler.Cleanup`. -/
def cleanupHandlers (insts : List Installer) (w : DeviceState R) : DeviceState R :=
  insts.foldl (fun w inst => if inst = .rootfs then onRootfs dev DualRootfs.cleanup w else w) w

def handleFailure (insts : List Installer) (w : DeviceState R) : DeviceState R :=
  cleanupHandlers dev insts
    (if isRollbackSupported dev insts then rollbackHandlers dev io 0 insts w else w)

/-- `Handler.InstallUpdate`: whether it failed. -/
def installHandlers : Nat → List Installer → DeviceState R → Bool × DeviceState R
  | _, [], w => (false, w)
  | i, .rootfs :: insts, w =>
    if io.install i then (true, onRootfs dev DualRootfs.installUpdate w)
    else installHandlers (i + 1) insts (onRootfs dev DualRootfs.installUpdate w)
  | i, _ :: insts, w => installHandlers (i + 1) insts w

/-- `SaveState` of every handler that has one. The strings of the other record come from JSON, so they
are valid UTF-8. -/
def saveStates (insts : List Installer) (w : DeviceState R) : DeviceState R :=
  insts.foldl (fun w inst =>
    match inst with
    | .singleFile s => { w with singleFileData := .value s.recorded }
    | _ => w) w

def typeName : Installer → Text
  | .rootfs => PayloadType.rootfsImage.name
  | .singleFile _ => PayloadType.singleFile.name
  | .discard => []

/-- `SaveUpdateToStore`: nothing but the handlers' records when the provides cannot be merged. -/
def saveUpdateToStore (art : Artifact) (insts : List Installer) (w : DeviceState R) :
    DeviceState R :=
  let w := saveStates insts w
  match art.provides with
  | none => w
  | some provides =>
    let stateData : StateData :=
      { version := standaloneStateDataVersion
        artifactName := art.name
        artifactGroup := []
        artifactTypeInfoProvides := provides
        artifactClearsProvides := art.clearsProvides
        payloadTypes := insts.map typeName }
    { w with standaloneState := .value stateData }

/-! ## Commit and rollback -/

/-- `RestoreState`: whether the record could not be read or decoded. The code drops an error of
decoding, and the record is removed once it is read. -/
def restoreState (fails : Bool) (w : DeviceState R) : Bool × SingleFileData × DeviceState R :=
  if fails then (true, newSingleFileUpdater, w)
  else
    match w.singleFileData with
    | .absent => (true, newSingleFileUpdater, w)
    | .garbage => (true, newSingleFileUpdater, { w with singleFileData := .absent })
    | .value s => (false, s, { w with singleFileData := .absent })

/-- A payload of the saved update: the handler restored for it, if any, and whether its
`RestoreState` failed. -/
structure Restored where
  installer : Option Installer
  failed : Bool
deriving DecidableEq, Repr

/-- `RestoreHandlersFromStore`. A type without a handler is skipped. -/
def restoreHandlersFromStore : Nat → List Text → DeviceState R → List Restored × DeviceState R
  | _, [], w => ([], w)
  | i, payType :: types, w =>
    let (r, w) : Restored × DeviceState R :=
      if payType = PayloadType.rootfsImage.name ∧ dev.dualRootfs.isSome then
        (⟨some .rootfs, false⟩, w)
      else if payType = PayloadType.singleFile.name then
        let (failed, s, w) := restoreState (io.restore i) w
        (⟨some (.singleFile s), failed⟩, w)
      else (⟨none, false⟩, w)
    let (rs, w) := restoreHandlersFromStore (i + 1) types w
    (r :: rs, w)

def restoreHandlerData (w : DeviceState R) :
    Except InstallFailure (StateData × List Restored × DeviceState R) :=
  match w.standaloneState with
  | .absent => .error .noState
  | .garbage => .error .decodeState
  | .value stateData =>
    if stateData.version ≠ standaloneStateDataVersion then .error .stateVersion
    else
      let (rs, w) := restoreHandlersFromStore dev io 0 stateData.payloadTypes w
      .ok (stateData, rs, w)

/-- `storeUpdateInDB`: all of the transaction, or nothing. -/
def storeUpdateInDB (stateData : StateData) (w : DeviceState R) :
    Option InstallFailure × DeviceState R :=
  if io.txn then (some .transaction, w)
  else if stateData.artifactName ≠ [] then
    match dev.commitArtifactData w.artifactData stateData with
    | none => (some .transaction, w)
    | some artifactData => (none, { w with standaloneState := .absent, artifactData })
  else (none, { w with standaloneState := .absent })

/-- The two ways an installed update ends. -/
inductive Ending where
  | commit
  | rollback
deriving DecidableEq, Repr

/-- The call of one handler at the end: whether it failed. -/
def endInstaller (e : Ending) (i : Nat) (inst : Installer) (w : DeviceState R) :
    Bool × DeviceState R :=
  match e with
  | .commit => commitInstaller dev (io.commit i) inst w
  | .rollback =>
    if supportsRollback dev inst then rollbackInstaller dev (io.rollback i) inst w else (false, w)

/-- The loop over the restored handlers: which of the payloads failed. No answer stops it. -/
def endHandlers (e : Ending) : Nat → List Restored → DeviceState R → List Bool × DeviceState R
  | _, [], w => ([], w)
  | i, r :: rs, w =>
    let (failed, w) : Bool × DeviceState R :=
      match r.installer with
      | none => (true, w)
      | some inst => endInstaller dev io e i inst w
    let (fs, w) := endHandlers e (i + 1) rs w
    ((r.failed || failed) :: fs, w)

/-- What an ending returns, with the payloads that failed on the way. -/
structure Ended (R : Type) where
  err : Option InstallFailure
  failed : List Bool
  state : DeviceState R

/-- `DoCommit` and `DoRollback`. -/
def doEnd (e : Ending) (w : DeviceState R) : Ended R :=
  match restoreHandlerData dev io w with
  | .error err => ⟨some err, [], w⟩
  | .ok (stateData, rs, w) =>
    let (failed, w) := endHandlers dev io e 0 rs w
    -- a rollback keeps the installed name by clearing that of the update
    let stateData := if e = .rollback then { stateData with artifactName := [] } else stateData
    let (err, w) := storeUpdateInDB dev io stateData w
    ⟨err, failed, w⟩

def doCommit (w : DeviceState R) : Ended R := doEnd dev io .commit w

def doRollback (w : DeviceState R) : Ended R := doEnd dev io .rollback w

/-! ## Installation -/

inductive InstallOutcome where
  | ok
  | error (e : InstallFailure)
  | panic
deriving DecidableEq, Repr

/-- Whether any file of payload data is passed to a handler. -/
def passesData (art : Artifact) : Bool :=
  decide (io.data ≠ some 0) && art.payloads.any fun p => !p.files.isEmpty

/-- What an installation returns, and whether payload data was passed on. -/
structure Installed (R : Type) where
  outcome : InstallOutcome
  dataPassed : Bool
  state : DeviceState R

/-- `InitializeArtifactHandlers`: the reader checks the compatible devices only if it was given a
callback for it, and it is given none. -/
def readArtifactHeaders (compatibleDevicesCallback : Option (List Text → Bool)) (art : Artifact) :
    Bool :=
  art.headersOk && match compatibleDevicesCallback with
    | none => true
    | some accepts => accepts art.compatibleDevices

def initializeArtifactHandlers (art : Artifact) : Bool := readArtifactHeaders none art

/-- `DoInstallStates`. -/
def doInstallStates (art : Artifact) (w : DeviceState R) : Installed R :=
  if initializeArtifactHandlers art = false then ⟨.error .headers, false, w⟩
  else
    match dev.loadProvides w.artifactData with
    -- the error is dropped, and the map to add to is nil
    | none => ⟨.panic, false, w⟩
    | some currentProvides =>
      match verifyDependencies dev.elemInSlice (injectProvides currentProvides) art.depends with
      | some e => ⟨.error e, false, w⟩
      | none =>
        let passed := passesData io art
        let (failed, insts, w) := storePayloads dev io.data art.payloads w
        let insts := performers insts
        if failed then ⟨.error .payloadData, passed, handleFailure dev io insts w⟩
        else
          let (failed, w) := installHandlers dev io 0 insts w
          if failed then ⟨.error .installUpdate, passed, handleFailure dev io insts w⟩
          else
            let w := saveUpdateToStore art insts w
            if isRollbackSupported dev insts then ⟨.ok, passed, w⟩
            else ⟨.ok, passed, (doCommit dev io w).state⟩

end Rdfm.Linux
