import Rdfm.Lib.BootSlots
import Rdfm.Lib.FileSys
import Rdfm.Lib.Routine

/-!
# Sessions with a device

The mcumgr client reaches a device through a session: it acquires one, makes calls on it and closes
it. Every call is one turn of a routine on the device and on what the client has recorded of it. How
a call turns out, and what the device does of its own, is given from outside (`Conduct`).
-/

namespace Rdfm.Mcumgr

open Rdfm.Lib

/-- An image, by what the boot loader reports of it. -/
structure Image where
  hash : Bytes
  version : Text
deriving DecidableEq, Repr

/-- `nmp.ImageStateEntry`. -/
structure ImageStateEntry where
  hash : Bytes
  version : Text
  confirmed : Bool
deriving DecidableEq, Repr

def Image.entry (image : Image) (confirmed : Bool) : ImageStateEntry :=
  ⟨image.hash, image.version, confirmed⟩

@[simp] theorem Image.entry_hash (image : Image) (confirmed : Bool) :
    (image.entry confirmed).hash = image.hash := rfl

@[simp] theorem Image.entry_confirmed (image : Image) (confirmed : Bool) :
    (image.entry confirmed).confirmed = confirmed := rfl

/-- `mcumgr.Device`, with the slots of the device behind its transport. -/
structure Device where
  primaryImage : ImageStateEntry
  slots : BootSlots Image
deriving DecidableEq, Repr

inductive UpdateError where
  | acqSession
  | ping
  | readImages
  /-- `Unexpected number of images (expected min 2, got ...)`. -/
  | imageCount (got : Nat)
  | writeImage
  | setPendingImage
  | confirmImage
  | resetDevice
  /-- `Version mismatch between group members`. -/
  | versionMismatch (first other : Text)
  /-- `Device should have at least one image`. -/
  | noImages
  /-- `Artifact doesn't contain an image for member ...`. -/
  | noImage (target : Text)
  /-- `Can't update using currently running version`. -/
  | sameImage
  /-- `Update rejected`. -/
  | rejected
  /-- `Failed to confirm new image`. -/
  | notConfirmed
  /-- `Unknown image in secondary slot`. -/
  | unknownSecondary
deriving DecidableEq, Repr

/-- How a call turns out: it succeeds, it fails without effect, or its answer is lost. -/
inductive Outcome where
  | ok
  | refused
  | lost
deriving DecidableEq, Repr

/-- A device during one phase of an update. -/
structure Conduct where
  /-- The outcome of the calls, by their number. -/
  outcome : Nat → Outcome
  /-- Whether the device boots an image under test and keeps running it; else it is back at the old
  one before the client sees it again. -/
  accepts : Bool
  /-- The call by which the device has confirmed the running image of its own. -/
  confirmsAt : Option Nat
  /-- What a failed upload leaves in the secondary slot. -/
  leftover : Option Image

/-- A device as a routine of the client sees it, with the number of calls made. -/
structure Link where
  device : Device
  calls : Nat
deriving DecidableEq, Repr

section Calls

variable (c : Conduct)

/-- The slots at the time of the next call. -/
def Link.slots (l : Link) : BootSlots Image :=
  match c.confirmsAt with
  | none => l.device.slots
  | some n => if n ≤ l.calls then l.device.slots.confirm else l.device.slots

/-- The link after a call that leaves these slots. -/
def Link.called (l : Link) (slots : BootSlots Image) : Link :=
  ⟨{ l.device with slots }, l.calls + 1⟩

/-- One call: its effect on the slots, and its answer. -/
def sessionCall {α : Type} (effect : Outcome → BootSlots Image → BootSlots Image)
    (answer : Outcome → BootSlots Image → Except UpdateError α) :
    ExceptT UpdateError (Routine Link) α :=
  .mk (.call (fun l => l.called (effect (c.outcome l.calls) (l.slots c)))
    (fun l => .ret (answer (c.outcome l.calls) (l.slots c))))

/-- The answer of a call that returns nothing but an error. -/
def Outcome.answer (err : UpdateError) (o : Outcome) : Except UpdateError Unit :=
  if o = .ok then .ok () else .error err

def acqSession : ExceptT UpdateError (Routine Link) Unit :=
  sessionCall c (fun _ s => s) (fun o _ => o.answer .acqSession)

def ping : ExceptT UpdateError (Routine Link) Unit :=
  sessionCall c (fun _ s => s) (fun o _ => o.answer .ping)

def deviceImages (s : BootSlots Image) : List ImageStateEntry :=
  s.primary.entry s.confirmed :: s.secondary.toList.map fun image => image.entry false

def readDeviceImages : ExceptT UpdateError (Routine Link) (List ImageStateEntry) :=
  sessionCall c (fun _ s => s)
    (fun o s => if o = .ok then .ok (deviceImages s) else .error .readImages)

def readImages : ExceptT UpdateError (Routine Link) (ImageStateEntry × ImageStateEntry) := do
  match ← readDeviceImages c with
  | primary :: secondary :: _ => return (primary, secondary)
  | images => throw (.imageCount images.length)

/-- `WriteImage`: an upload erases the slot, and with it any request for a swap. -/
def writeImage (image : Image) : ExceptT UpdateError (Routine Link) Unit :=
  sessionCall c
    (fun o s => if o = .ok then { s with secondary := some image, swap := none }
      else { s with secondary := c.leftover })
    (fun o _ => o.answer .writeImage)

/-- A request for a swap of the image with this hash, or the confirmation of the running one. -/
def requestImage (kind : Swap) (hash : Bytes) (s : BootSlots Image) : Option (BootSlots Image) :=
  if s.primary.hash = hash then some (if kind = .permanent then s.confirm else s)
  else if s.secondary.map Image.hash = some hash then some { s with swap := some kind }
  else none

/-- A write of the image state. -/
def writeImageState (err : UpdateError) (kind : Swap) (hash : Bytes) :
    ExceptT UpdateError (Routine Link) Unit :=
  sessionCall c (fun o s => if o = .refused then s else (requestImage kind hash s).getD s)
    (fun o s => if (requestImage kind hash s).isSome then o.answer err else .error err)

def setPendingImage (hash : Bytes) : ExceptT UpdateError (Routine Link) Unit :=
  writeImageState c .setPendingImage .test hash

def confirmImage (hash : Bytes) : ExceptT UpdateError (Routine Link) Unit :=
  writeImageState c .confirmImage .permanent hash

/-- A reset of the device. An image under test that does not boot is swapped back at once. -/
def boot (accepts : Bool) (s : BootSlots Image) : BootSlots Image :=
  if s.swap = some .test ∧ accepts = false then s.reset.reset else s.reset

def resetDevice : ExceptT UpdateError (Routine Link) Unit :=
  sessionCall c (fun o s => if o = .refused then s else boot c.accepts s)
    (fun o _ => o.answer .resetDevice)

variable {c} {l : Link}

theorem Link.slots_none (h : c.confirmsAt = none) : l.slots c = l.device.slots := by
  unfold Link.slots
  rw [h]

variable (c l) in
theorem Link.slots_primary : (l.slots c).primary = l.device.slots.primary := by
  unfold Link.slots
  split
  · rfl
  · split <;> rfl

theorem exec_sessionCall {α : Type} (effect : Outcome → BootSlots Image → BootSlots Image)
    (answer : Outcome → BootSlots Image → Except UpdateError α) (l : Link) :
    (sessionCall c effect answer).run.exec l =
      (l.called (effect (c.outcome l.calls) (l.slots c)),
        answer (c.outcome l.calls) (l.slots c)) := rfl

/-- A reading of two images. -/
theorem exec_readImages {image : Image} (h : (l.slots c).secondary = some image) :
    (readImages c).run.exec l = (l.called (l.slots c),
      if c.outcome l.calls = .ok then
        .ok ((l.slots c).primary.entry (l.slots c).confirmed, image.entry false)
      else .error .readImages) := by
  unfold readImages readDeviceImages
  rw [Routine.exec_run_bind, exec_sessionCall]
  by_cases ho : c.outcome l.calls = .ok
  · simp only [ho, if_true, deviceImages, h, Option.toList_some, List.map_cons]
    rfl
  · simp only [ho, if_false]

/-! ### Calls on a device that does nothing of its own -/

section Calm

variable (hc : c.confirmsAt = none) {α : Type} {err : UpdateError} {dev : Device} {k : Nat}

include hc

/-- A call that returns nothing but an error, and the rest. -/
theorem exec_unitCall_bind (effect : Outcome → BootSlots Image → BootSlots Image)
    (g : Unit → ExceptT UpdateError (Routine Link) α) :
    (sessionCall c effect (fun o _ => o.answer err) >>= g).run.exec ⟨dev, k⟩ =
      if c.outcome k = .ok then
        (g ()).run.exec ⟨{ dev with slots := effect .ok dev.slots }, k + 1⟩
      else (⟨{ dev with slots := effect (c.outcome k) dev.slots }, k + 1⟩, .error err) := by
  rw [Routine.exec_run_bind, exec_sessionCall, Link.slots_none hc]
  dsimp only
  by_cases ho : c.outcome k = .ok
  · simp only [ho, Outcome.answer, if_true]
    rfl
  · simp only [ho, Outcome.answer, if_false]
    rfl

theorem exec_readImages_bind {image : Image} (h : dev.slots.secondary = some image)
    (g : ImageStateEntry × ImageStateEntry → ExceptT UpdateError (Routine Link) α) :
    (readImages c >>= g).run.exec ⟨dev, k⟩ =
      if c.outcome k = .ok then
        (g (dev.slots.primary.entry dev.slots.confirmed, image.entry false)).run.exec ⟨dev, k + 1⟩
      else (⟨dev, k + 1⟩, .error .readImages) := by
  have hsec : (Link.slots c ⟨dev, k⟩).secondary = some image := by
    rw [Link.slots_none hc]
    exact h
  rw [Routine.exec_run_bind, exec_readImages hsec, Link.slots_none hc]
  dsimp only
  by_cases ho : c.outcome k = .ok
  · simp only [ho, if_true]
    rfl
  · simp only [ho, if_false]
    rfl

/-- A write of the image state that finds its image. -/
theorem exec_writeImageState {kind : Swap} {hash : Bytes} {s : BootSlots Image}
    (h : requestImage kind hash dev.slots = some s) :
    (writeImageState c err kind hash).run.exec ⟨dev, k⟩ =
      (⟨{ dev with slots := if c.outcome k = .refused then dev.slots else s }, k + 1⟩,
        (c.outcome k).answer err) := by
  unfold writeImageState
  rw [exec_sessionCall, Link.slots_none hc]
  simp only [h, Option.getD_some, Option.isSome_some, if_true]
  rfl

theorem exec_writeImageState_bind {kind : Swap} {hash : Bytes} {s : BootSlots Image}
    (h : requestImage kind hash dev.slots = some s)
    (g : Unit → ExceptT UpdateError (Routine Link) α) :
    (writeImageState c err kind hash >>= g).run.exec ⟨dev, k⟩ =
      if c.outcome k = .ok then (g ()).run.exec ⟨{ dev with slots := s }, k + 1⟩
      else (⟨{ dev with slots := if c.outcome k = .refused then dev.slots else s }, k + 1⟩,
        .error err) := by
  rw [Routine.exec_run_bind, exec_writeImageState hc h]
  by_cases ho : c.outcome k = .ok
  · simp only [ho, Outcome.answer, if_true]
    rfl
  · simp only [ho, Outcome.answer, if_false]

theorem exec_resetDevice :
    (resetDevice c).run.exec ⟨dev, k⟩ =
      (⟨{ dev with slots := if c.outcome k = .refused then dev.slots else boot c.accepts dev.slots },
        k + 1⟩, (c.outcome k).answer .resetDevice) := by
  unfold resetDevice
  rw [exec_sessionCall, Link.slots_none hc]
  rfl

end Calm

/-! ### Requests -/

theorem requestImage_primary (s : BootSlots Image) :
    requestImage .permanent s.primary.hash s = some s.confirm := if_pos rfl

theorem requestImage_secondary {s : BootSlots Image} {image : Image} (kind : Swap)
    (hs : s.secondary = some image) (hne : s.primary.hash ≠ image.hash) :
    requestImage kind image.hash s = some { s with swap := some kind } := by
  unfold requestImage
  rw [if_neg hne, if_pos (by rw [hs]; rfl)]

/-- The confirmation of the running image. -/
theorem exec_confirmImage_primary {hash : Bytes} (h : hash = l.device.slots.primary.hash) :
    (confirmImage c hash).run.exec l =
      (l.called (if c.outcome l.calls = .refused then l.slots c else (l.slots c).confirm),
        (c.outcome l.calls).answer .confirmImage) := by
  have hrequest : requestImage .permanent hash (l.slots c) = some (l.slots c).confirm := by
    rw [h, ← Link.slots_primary c]
    exact requestImage_primary _
  unfold confirmImage writeImageState
  rw [exec_sessionCall, hrequest]
  rfl

end Calls

/-- `InitDevice`: the image it reads first, confirmed if it was not. -/
def initDevice (c : Conduct) : ExceptT UpdateError (Routine Link) ImageStateEntry := do
  acqSession c
  match ← readDeviceImages c with
  | [] => throw .noImages
  | image :: _ =>
    if image.confirmed = false then confirmImage c image.hash
    return image

/-- An opened device runs a confirmed image, and it is the recorded one. -/
theorem initDevice_spec {c : Conduct} {l l' : Link} {image : ImageStateEntry}
    (h : (initDevice c).run.exec l = (l', .ok image)) :
    l'.device.slots.confirmed = true ∧ image.hash = l'.device.slots.primary.hash ∧
      image.version = l'.device.slots.primary.version := by
  unfold initDevice acqSession readDeviceImages at h
  rw [Routine.exec_run_bind, exec_sessionCall] at h
  dsimp only at h
  split at h
  · rw [Routine.exec_run_bind, exec_sessionCall] at h
    generalize l.called (l.slots c) = l₁ at h
    by_cases hread : c.outcome l₁.calls = .ok
    · simp only [hread, if_true, deviceImages] at h
      cases hconfirmed : (l₁.slots c).confirmed with
      | true =>
        simp only [Image.entry_confirmed, hconfirmed, Bool.true_eq_false, if_false] at h
        cases h
        exact ⟨hconfirmed, rfl, rfl⟩
      | false =>
        simp only [Image.entry_confirmed, hconfirmed, if_true] at h
        have hhash : ((l₁.slots c).primary.entry false).hash =
            (l₁.called (l₁.slots c)).device.slots.primary.hash := rfl
        rw [Routine.exec_run_bind, exec_confirmImage_primary hhash] at h
        by_cases hconfirm : c.outcome (l₁.called (l₁.slots c)).calls = .ok
        · simp only [hconfirm, Outcome.answer, if_true] at h
          cases h
          refine ⟨rfl, congrArg Image.hash ?_, congrArg Image.version ?_⟩
          all_goals exact (Link.slots_primary c (l₁.called (l₁.slots c))).symm
        · simp only [hconfirm, Outcome.answer, if_false] at h
          cases h
    · simp only [hread, if_false] at h
      cases h
  · cases h

/-- The client's own view of the device. -/
def getDevice : Routine Link Device := .call id fun l => .ret l.device

/-- An assignment to `dev.PrimaryImage`. -/
def setPrimaryImage (entry : ImageStateEntry) : Routine Link Unit :=
  .call (fun l => { l with device.primaryImage := entry }) fun _ => .ret ()

@[simp] theorem exec_getDevice (l : Link) : getDevice.exec l = (l, l.device) := rfl

@[simp] theorem exec_setPrimaryImage (entry : ImageStateEntry) (l : Link) :
    (setPrimaryImage entry).exec l = ({ l with device.primaryImage := entry }, ()) := rfl

end Rdfm.Mcumgr
