import Rdfm.Mcumgr.Session

/-!
# Updates of a single device

`InitSingle` and `Single.RunUpdate` of the mcumgr client. An update is a sequence of session calls, and
the device may act between any two of them, during an update and after it: it may confirm the image
that it runs, and it may be reset. So an update is given by the call that it makes next, and a run is
any sequence of calls and of the device's own acts. `Single.called` is one call: what it does on the
device, and where the update goes on.
-/

namespace Rdfm.Mcumgr

open Rdfm.Lib

/-- `appcfg.DeviceConfig`, less its transport and key. -/
structure DeviceConfig where
  id : Text
  devType : Text
  selfConfirm : Bool
deriving DecidableEq, Repr

/-- `api.DeviceMetadata`. -/
structure DeviceMetadata where
  deviceType : Text
  softwareVersion : Text
  macAddress : Text
deriving DecidableEq, Repr

structure Single where
  cfg : DeviceConfig
  dev : Device
deriving DecidableEq, Repr

namespace Single

variable (s : Single)

def version : Text := s.dev.primaryImage.version

def metadata : DeviceMetadata := ⟨s.cfg.devType, s.dev.primaryImage.version, s.cfg.id⟩

end Single

/-- `InitSingle` on a device with these slots. -/
def initSingle (cfg : DeviceConfig) (c : Conduct) (slots : BootSlots Image) : Except UpdateError Single :=
  match (initDevice c).run.exec ⟨⟨⟨[], [], false⟩, slots⟩, 0⟩ with
  | (l, .ok image) => .ok ⟨cfg, ⟨image, l.device.slots⟩⟩
  | (_, .error e) => .error e

/-! ## The calls of an update -/

/-- `artifact.Artifact`. -/
inductive Artifact where
  | zephyr (image : Image) (compatible : List Text)
  /-- An artifact of another type. -/
  | other

inductive SingleError where
  /-- `Unsupported artifact type`. -/
  | unsupported
  /-- `Artifact doesn't support ... device type`. -/
  | incompatible (devType : Text)
  | update (e : UpdateError)
deriving DecidableEq, Repr

/-- The next call of `flashUpdate`. -/
inductive FlashPoint where
  | acqSession (image : Image)
  | writeImage (image : Image)
  | readImages
  | setPendingImage (hash : Bytes)
  | resetDevice
deriving DecidableEq, Repr

/-- The next call of `loopWithSession(finishReboot)`. -/
inductive RebootPoint where
  | acqSession
  | ping
deriving DecidableEq, Repr

/-- The next call of `loopWithSession(deviceFinalize)`. -/
inductive DevicePoint where
  | acqSession
  | readImages
deriving DecidableEq, Repr

/-- The next call of `manualFinalize`. -/
inductive ManualPoint where
  | acqSession
  | readImages
  | confirmImage (primary : ImageStateEntry)
deriving DecidableEq, Repr

/-- The next call of `RunUpdate`. -/
inductive Point where
  | flash (p : FlashPoint)
  | reboot (p : RebootPoint)
  | device (p : DevicePoint)
  | manual (p : ManualPoint)
deriving DecidableEq, Repr

/-- What a call does on the device. -/
def Point.effect (o : Outcome) (leftover : Option Image) (s : BootSlots Image) :
    Point → BootSlots Image
  | flash (.writeImage image) =>
    if o = .ok then { s with secondary := some image, swap := none }
    else { s with secondary := leftover }
  | flash (.setPendingImage hash) => if o = .refused then s else (requestImage .test hash s).getD s
  | flash .resetDevice => if o = .refused then s else s.reset
  | manual (.confirmImage primary) =>
    if o = .refused then s else (requestImage .permanent primary.hash s).getD s
  | _ => s

/-- Where a function goes on after a call: with another, or it returns. -/
inductive Next (π : Type) where
  | call (p : π)
  | done (r : Except UpdateError Unit)
deriving DecidableEq, Repr

section Calls

variable (dev : Device) (o : Outcome)

/-- The answer of `readImages`. -/
def imagesAnswer : Except UpdateError (ImageStateEntry × ImageStateEntry) :=
  if o = .ok then
    match deviceImages dev.slots with
    | primary :: secondary :: _ => .ok (primary, secondary)
    | images => .error (.imageCount images.length)
  else .error .readImages

/-- A call that asks for the image with this hash is answered without an error. -/
def requestAnswer (kind : Swap) (hash : Bytes) : Bool :=
  o = .ok ∧ (requestImage kind hash dev.slots).isSome

def flashUpdate : FlashPoint → Next FlashPoint
  | .acqSession image => if o = .ok then .call (.writeImage image) else .done (.error .acqSession)
  | .writeImage _ => if o = .ok then .call .readImages else .done (.error .writeImage)
  | .readImages =>
    match imagesAnswer dev o with
    | .error e => .done (.error e)
    | .ok (primary, secondary) =>
      if primary.hash = secondary.hash then .done (.error .sameImage)
      else .call (.setPendingImage secondary.hash)
  | .setPendingImage hash =>
    if requestAnswer dev o .test hash then .call .resetDevice else .done (.error .setPendingImage)
  | .resetDevice => .done (o.answer .resetDevice)

def finishRebootLoop : RebootPoint → Next RebootPoint
  | .acqSession => if o = .ok then .call .ping else .done (.error .acqSession)
  | .ping => if o = .ok then .done (.ok ()) else .call .acqSession

/-- The loop with `deviceFinalize`, and what is then recorded. -/
def deviceFinalizeLoop : DevicePoint → Next DevicePoint × ImageStateEntry
  | .acqSession =>
    (if o = .ok then .call .readImages else .done (.error .acqSession), dev.primaryImage)
  | .readImages =>
    match imagesAnswer dev o with
    | .error e => (.done (.error e), dev.primaryImage)
    | .ok (primary, _) =>
      if primary.confirmed = false then (.call .acqSession, dev.primaryImage)
      else if primary.hash = dev.primaryImage.hash then (.done (.error .rejected), dev.primaryImage)
      else (.done (.ok ()), primary)

def manualFinalize : ManualPoint → Next ManualPoint × ImageStateEntry
  | .acqSession =>
    (if o = .ok then .call .readImages else .done (.error .acqSession), dev.primaryImage)
  | .readImages =>
    match imagesAnswer dev o with
    | .error e => (.done (.error e), dev.primaryImage)
    | .ok (primary, _) =>
      if primary.hash = dev.primaryImage.hash then (.done (.error .rejected), dev.primaryImage)
      else (.call (.confirmImage primary), dev.primaryImage)
  | .confirmImage primary =>
    if requestAnswer dev o .permanent primary.hash then (.done (.ok ()), primary)
    else (.done (.error .notConfirmed), dev.primaryImage)

end Calls

namespace Single

variable (s : Single)

/-- The start of `RunUpdate`. -/
def runUpdate : Artifact → Except SingleError Point
  | .other => .error .unsupported
  | .zephyr image compatible =>
    if s.cfg.devType ∈ compatible then .ok (.flash (.acqSession image))
    else .error (.incompatible s.cfg.devType)

/-- The function that confirms the image. -/
def finalize : Point := if s.cfg.selfConfirm then .device .acqSession else .manual .acqSession

/-- Where `RunUpdate` goes on after a call, and what is then recorded. -/
def resume (o : Outcome) : Point → (Point ⊕ Except SingleError Unit) × ImageStateEntry
  | .flash p =>
    match flashUpdate s.dev o p with
    | .call p => (.inl (.flash p), s.dev.primaryImage)
    | .done (.error e) => (.inr (.error (.update e)), s.dev.primaryImage)
    | .done (.ok _) => (.inl (.reboot .acqSession), s.dev.primaryImage)
  | .reboot p =>
    match finishRebootLoop o p with
    | .call p => (.inl (.reboot p), s.dev.primaryImage)
    -- The error of this loop is not looked at.
    | .done _ => (.inl s.finalize, s.dev.primaryImage)
  | .device p =>
    match deviceFinalizeLoop s.dev o p with
    | (.call p, entry) => (.inl (.device p), entry)
    | (.done r, entry) => (.inr (r.mapError .update), entry)
  | .manual p =>
    match manualFinalize s.dev o p with
    | (.call p, entry) => (.inl (.manual p), entry)
    | (.done r, entry) => (.inr (r.mapError .update), entry)

end Single

/-! ## Runs -/

/-- What the device does of its own. An image under test that does not boot is reset twice. -/
inductive Own where
  | confirm
  | reset
deriving DecidableEq, Repr

def Own.apply : Own → BootSlots Image → BootSlots Image
  | confirm, s => s.confirm
  | reset, s => s.reset

/-- The client of one device: with a `RunUpdate` under way, or between two of them. -/
structure Client where
  single : Single
  point : Option Point
  /-- The result of the last update. -/
  last : Option (Except SingleError Unit)

inductive SingleEvent where
  | own (act : Own)
  /-- `RunUpdate` is called. -/
  | update (a : Artifact)
  /-- The update makes its next call. A failed upload leaves `leftover` in the secondary slot. -/
  | call (o : Outcome) (leftover : Option Image)

namespace Client

variable (w : Client)

abbrev dev : Device := w.single.dev

abbrev slots : BootSlots Image := w.single.dev.slots

abbrev primaryImage : ImageStateEntry := w.single.dev.primaryImage

def withDevice (dev : Device) : Client := { w with single.dev := dev }

def called (p : Point) (o : Outcome) (leftover : Option Image) : Client :=
  let w' := w.withDevice ⟨(w.single.resume o p).2, p.effect o leftover w.slots⟩
  match (w.single.resume o p).1 with
  | .inl p => { w' with point := some p }
  | .inr r => { w' with point := none, last := some r }

def step : SingleEvent → Client
  | .own act => w.withDevice ⟨w.primaryImage, act.apply w.slots⟩
  | .update a =>
    match w.point with
    | some _ => w
    | none =>
      match w.single.runUpdate a with
      | .error e => { w with last := some (.error e) }
      | .ok p => { w with point := some p }
  | .call o leftover =>
    match w.point with
    | none => w
    | some p => w.called p o leftover

end Client

end Rdfm.Mcumgr
