import Rdfm.Mcumgr.Session

/-!
# Group updates

`InitGroup` and `Group.RunUpdate` of the mcumgr client. Each phase of an update runs a callback for
every member in a goroutine of its own, in any order (`fork`); the next phase starts when all have
answered. A goroutine works on a copy of the member, but its `dev` is shared, so what a callback
writes to `dev.PrimaryImage` stays, and what is written to the copy does not.
-/

namespace Rdfm.Mcumgr

open Rdfm.Lib

structure Member where
  target : Text
  selfConfirm : Bool
  rollbackHash : Bytes
  dev : Device
deriving DecidableEq, Repr

/-- A group of `n + 1` members: `InitGroup` refuses an empty one. -/
structure Group (n : Nat) where
  currVersion : Text
  members : Fin (n + 1) → Member

/-! ## InitGroup -/

structure MemberConfig where
  device : Text
  selfConfirm : Bool
deriving DecidableEq, Repr

section Init

variable {n : Nat} (cfgs : Fin (n + 1) → MemberConfig) (cs : Fin (n + 1) → Conduct)
  (slots : Fin (n + 1) → BootSlots Image)

/-- A member's device, opened. -/
def openDevice (i : Fin (n + 1)) : Link × Except UpdateError ImageStateEntry :=
  (initDevice (cs i)).run.exec ⟨⟨⟨[], [], false⟩, slots i⟩, 0⟩

def openVersion (i : Fin (n + 1)) : Text :=
  match (openDevice cs slots i).2 with
  | .ok image => image.version
  | .error _ => []

/-- Why the loop of `InitGroup` stops at a member. -/
def openFailure (i : Fin (n + 1)) : Option UpdateError :=
  match (openDevice cs slots i).2 with
  | .error e => some e
  | .ok image =>
    if openVersion cs slots 0 ≠ image.version then
      some (.versionMismatch (openVersion cs slots 0) image.version)
    else none

/-- The group of the opened devices. -/
def openedGroup : Group n where
  currVersion := openVersion cs slots 0
  members i :=
    match openDevice cs slots i with
    | (l, .ok image) => ⟨(cfgs i).device, (cfgs i).selfConfirm, image.hash, ⟨image, l.device.slots⟩⟩
    -- the loop has stopped before
    | (l, .error _) => ⟨(cfgs i).device, (cfgs i).selfConfirm, [], l.device⟩

/-- `InitGroup`, with the slots of the members' devices and how the calls on them turn out. -/
def initGroup : Except UpdateError (Group n) :=
  match (List.finRange (n + 1)).findSome? (openFailure cs slots) with
  | some e => .error e
  | none => .ok (openedGroup cfgs cs slots)

end Init

/-- `artifact.GroupArtifact`, by the images that its files hold. -/
structure GroupArtifact where
  images : Text → Option Image

/-- The image of a target; a name that is not in the map gives the zero value. -/
def GroupArtifact.image (art : GroupArtifact) (target : Text) : Image :=
  (art.images target).getD ⟨[], []⟩

/-- The runs over all members that an update makes. -/
inductive Phase where
  | write
  | setPending
  | reboot
  | finishReboot
  | confirm
  | rollback
  | finishRollback
deriving DecidableEq, Repr

/-- A member's device during one update. -/
structure Surroundings where
  outcome : Phase → Nat → Outcome
  accepts : Bool
  /-- The call of the confirm phase by which a self-confirming device that accepts the image has
  confirmed it. -/
  confirmsAt : Nat
  leftover : Option Image

/-- The device confirms the images it runs by itself. -/
def Member.keeps (m : Member) (env : Surroundings) : Bool := m.selfConfirm && env.accepts

def Member.conduct (m : Member) (env : Surroundings) (phase : Phase) : Conduct where
  outcome := env.outcome phase
  accepts := env.accepts
  confirmsAt := if phase = .confirm ∧ m.keeps env = true then some env.confirmsAt else none
  leftover := env.leftover

/-! ## Callbacks -/

section Callbacks

variable (c : Conduct) (m : Member)

/-- The first callback: it uploads the image. -/
def writeNewImage (image : Image) : ExceptT UpdateError (Routine Link) Unit := do
  writeImage c image
  let (primary, secondary) ← readImages c
  if primary.hash = secondary.hash then throw .sameImage

def setPending : ExceptT UpdateError (Routine Link) Unit := do
  let (_, secondary) ← readImages c
  setPendingImage c secondary.hash

def reboot : ExceptT UpdateError (Routine Link) Unit := resetDevice c

/-- Whether the loop ends, and with which error. -/
abbrev LoopResult := Bool × Option UpdateError

def finishReboot : Routine Link LoopResult := do
  match ← (ping c).run with
  | .error _ => return (false, none)
  | .ok _ => return (true, none)

def deviceConfirm : Routine Link LoopResult := do
  match ← (readImages c).run with
  | .error _ => return (false, none)
  | .ok (primary, _) =>
    if primary.confirmed = false then return (false, none)
    else if primary.hash = (← getDevice).primaryImage.hash then return (true, some .rejected)
    else
      setPrimaryImage primary
      return (true, none)

def manualConfirm : Routine Link LoopResult := do
  match ← (readImages c).run with
  | .error e => return (true, some e)
  | .ok (primary, _) =>
    if primary.hash = (← getDevice).primaryImage.hash then return (true, some .rejected)
    else
      match ← (confirmImage c primary.hash).run with
      | .error _ => return (true, some .notConfirmed)
      | .ok _ =>
        setPrimaryImage primary
        return (true, none)

def confirm : Routine Link LoopResult := if m.selfConfirm then deviceConfirm c else manualConfirm c

def rollback : ExceptT UpdateError (Routine Link) Unit := do
  let (primary, secondary) ← readImages c
  if primary.hash = m.rollbackHash then setPrimaryImage primary
  else if secondary.hash ≠ m.rollbackHash then throw .unknownSecondary
  else
    confirmImage c secondary.hash
    setPrimaryImage primary
    resetDevice c

end Callbacks

/-! ## Goroutines -/

/-- The goroutine of `runWithSession`: one session, one call of the callback. -/
def sessionJob (c : Conduct) (cb : ExceptT UpdateError (Routine Link) Unit) :
    Job Link (Except UpdateError Unit) (Option UpdateError) where
  routine := (do acqSession c; cb).run
  ends r :=
    match r with
    | .ok _ => some none
    | .error e => some (some e)

/-- The goroutine of `loopWithSession`: a session for each call, until the callback ends it. -/
def loopJob (c : Conduct) (cb : Routine Link LoopResult) :
    Job Link LoopResult (Option UpdateError) where
  routine := do
    match ← (acqSession c).run with
    | .error e => return (true, some e)
    | .ok _ => cb
  ends r := if r.1 then some r.2 else none

section Phases

variable {n : Nat}

/-- The members and the error after a phase has ended in the order of the schedule. -/
def runPhase {α : Type} (members : Fin (n + 1) → Member)
    (jobs : Fin (n + 1) → Job Link α (Option UpdateError)) (sched : List (Fin (n + 1))) :
    Option ((Fin (n + 1) → Member) × Option UpdateError) :=
  (fork jobs (fun i => ⟨(members i).dev, 0⟩) sched).map fun (links, err) =>
    (fun i => { members i with dev := (links i).device }, err)

variable (envs : Fin (n + 1) → Surroundings) (phase : Phase)

def runWithSession (cb : Fin (n + 1) → Conduct → Member → ExceptT UpdateError (Routine Link) Unit)
    (members : Fin (n + 1) → Member) (sched : List (Fin (n + 1))) :
    Option ((Fin (n + 1) → Member) × Option UpdateError) :=
  runPhase members (fun i =>
    let c := (members i).conduct (envs i) phase
    sessionJob c (cb i c (members i))) sched

def loopWithSession (cb : Conduct → Member → Routine Link LoopResult)
    (members : Fin (n + 1) → Member) (sched : List (Fin (n + 1))) :
    Option ((Fin (n + 1) → Member) × Option UpdateError) :=
  runPhase members (fun i =>
    let c := (members i).conduct (envs i) phase
    loopJob c (cb c (members i))) sched

/-! ## RunUpdate -/

/-- The rollback after a failed confirmation; it always ends with an error. -/
def rollBack (err : UpdateError) (currVersion : Text) (members : Fin (n + 1) → Member)
    (sched : Phase → List (Fin (n + 1))) : Option (Option UpdateError × Group n) := do
  let (members, rollbackErr) ←
    runWithSession envs .rollback (fun _ => rollback) members (sched .rollback)
  if rollbackErr.isSome then return (rollbackErr, ⟨currVersion, members⟩)
  let (members, _) ←
    loopWithSession envs .finishRollback (fun c _ => finishReboot c) members (sched .finishRollback)
  return (some err, ⟨currVersion, members⟩)

/-- What follows the confirmations. -/
def afterConfirmation (currVersion : Text) (out : (Fin (n + 1) → Member) × Option UpdateError)
    (sched : Phase → List (Fin (n + 1))) : Option (Option UpdateError × Group n) :=
  match out.2 with
  | some err => rollBack envs err currVersion out.1 sched
  -- the new `rollbackHash` goes to the copies that the loop ranges over
  | none => some (none, ⟨(out.1 0).dev.primaryImage.version, out.1⟩)

/-- The members after their reset: they come back, and confirm the image. -/
def confirmMembers (currVersion : Text) (members : Fin (n + 1) → Member)
    (sched : Phase → List (Fin (n + 1))) : Option (Option UpdateError × Group n) := do
  let (members, _) ←
    loopWithSession envs .finishReboot (fun c _ => finishReboot c) members (sched .finishReboot)
  let out ← loopWithSession envs .confirm confirm members (sched .confirm)
  afterConfirmation envs currVersion out sched

/-- The members with the image in their secondary slots: they are asked to test it, and reset. -/
def swapMembers (currVersion : Text) (members : Fin (n + 1) → Member)
    (sched : Phase → List (Fin (n + 1))) : Option (Option UpdateError × Group n) := do
  let (members, err) ←
    runWithSession envs .setPending (fun _ c _ => setPending c) members (sched .setPending)
  if err.isSome then return (err, ⟨currVersion, members⟩)
  let (members, err) ← runWithSession envs .reboot (fun _ c _ => reboot c) members (sched .reboot)
  if err.isSome then return (err, ⟨currVersion, members⟩)
  confirmMembers envs currVersion members sched

/-- An update with these images, once the artifact is known to have them all. -/
def updateMembers (images : Fin (n + 1) → Image) (g : Group n)
    (sched : Phase → List (Fin (n + 1))) : Option (Option UpdateError × Group n) := do
  let (members, err) ←
    runWithSession envs .write (fun i c _ => writeNewImage c (images i)) g.members (sched .write)
  if err.isSome then return (err, ⟨g.currVersion, members⟩)
  swapMembers envs g.currVersion members sched

/-- `RunUpdate`, with the order of the goroutines in each phase: the error and the group, or `none` if
some phase does not end in that order. -/
def runUpdate (art : GroupArtifact) (g : Group n) (sched : Phase → List (Fin (n + 1))) :
    Option (Option UpdateError × Group n) :=
  match (List.finRange (n + 1)).find? fun i => (art.images (g.members i).target).isNone with
  | some i => some (some (.noImage (g.members i).target), g)
  | none =>
    updateMembers envs (fun i => art.image (g.members i).target) g sched

end Phases

end Rdfm.Mcumgr
