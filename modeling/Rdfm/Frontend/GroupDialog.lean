import Rdfm.Lib.Transition
import Rdfm.Server.GroupRequests

/-!
# The dialog that configures a group

`GroupsList.vue` opens a dialog with the group as the page last saw it, and with the packages and
devices that it lists. `configureGroup` sends a request for each part of the group that is edited, one
after the other, until one of them fails. It succeeds under a condition on the database before the
first request, and the group then is what the dialog shows (`configure_iff`): devices and packages
that are not listed are removed, even if nothing is edited (`configure_untouched`). After a failure in
the middle the dialog takes its own changes for those of somebody else, or meets a `TypeError`
(`configure_stuck`).
-/

namespace Rdfm.Frontend

open Rdfm.Lib Rdfm.Server

/-! ## Requests -/

inductive GroupCall where
  | priority
  | devices
  | packages
  | policy
deriving DecidableEq, Repr

/-- The priority in the dialog: the number, or the text of its field, once that was edited. -/
inductive PriorityField where
  | number (n : Int)
  | text (t : String)
deriving DecidableEq, Repr

/-- What the page rests on: the calls that do not come to their handlers, with the status of the
answer, if there is one; whether the look at the groups after a call succeeds; the priority that the
server reads in a text, if it is one that the column can hold; and the groups that the user may read.
The answer of a handler always arrives, and no look is answered with 401, for which the page is left. -/
structure DialogEnv where
  refuses : GroupCall → Option (Option Nat)
  looks : GroupCall → Bool
  readInt : String → Option Int
  reads : Int → Bool

/-- The database, and the groups as the page last saw them: none if that look failed, where the
source has `undefined`. -/
structure Session where
  db : Database
  groups : List GroupSchema

/-- The answer to `fetchGET`. -/
def fetchGroups (env : DialogEnv) (db : Database) : List GroupSchema :=
  (db.groups.filter fun g => env.reads g.id).map db.modelToSchema

/-- `fetchResources`, with an answer or without. -/
def fetchResources (env : DialogEnv) (db : Database) (success : Bool) : Session :=
  ⟨db, if success then fetchGroups env db else []⟩

def unauthorizedText : String :=
  "User did not provide authorization data, or the authorization has expired"

/-- The messages for statuses that a request expects. -/
def GroupCall.texts : GroupCall → List (Nat × String)
  | priority => [
    (401, unauthorizedText),
    (403, "User was authorized, but did not have permission to modify groups"),
    (409, "At least one device which is assigned to this group is also assigned to another group " ++
      "with the requested priority"),
    (404, "The specified group does not exist")]
  | devices => [
    (401, unauthorizedText),
    (403, "User was authorized, but did not have permission to update groups"),
    (404, "Group does not exist"),
    (409, "<p>One of the conflict described below has occurred</p><ul>" ++
      "<li> Any device identifier which does not match a registered device</li>" ++
      "<li> Any device identifier in additions which already has an assigned group which has the " ++
      "same priority as the group specified by identifier (even if the group is the same as " ++
      "specified by identifier</li>" ++
      "<li> Any device identifier in removals which is not currently assigned to the specified " ++
      "group</li></ul>")]
  | packages => [
    (400, "Invalid request schema"),
    (401, unauthorizedText),
    (403, "User was authorized, but did not have permission to assign packages"),
    (409, "The package/group was modified or deleted during the operation"),
    (404, "The specified package or group does not exist")]
  | policy => [
    (400, "Invalid request schema, or an invalid policy schema was requested"),
    (401, unauthorizedText),
    (403, "User was authorized, but did not have permission to modify groups"),
    (404, "The specified group does not exist")]

def GroupCall.failed : GroupCall → String
  | priority => "Failed to update group priority."
  | devices => "Failed to update group devices."
  | packages => "Failed to update group packages."
  | policy => "Failed to update group policy."

def GroupCall.message (call : GroupCall) (code : Option Nat) : String :=
  match code.bind fun code => call.texts.lookup code with
  | some text => text
  | none =>
    call.failed ++ " Got a response code of " ++ (code.map toString).getD "undefined"

/-- A request, and a look at the groups if it succeeds. -/
def send (env : DialogEnv) (call : GroupCall) (handler : Database → Except Nat Database)
    (s : Session) : Except String Session :=
  match env.refuses call with
  | some code => .error (call.message code)
  | none =>
    match handler s.db with
    | .error code => .error (call.message (some code))
    | .ok db => .ok (fetchResources env db (env.looks call))

def DialogEnv.readPriority (env : DialogEnv) : PriorityField → Option Int
  | .number n => some n
  | .text t => env.readInt t

def updatePriorityRequest (env : DialogEnv) (groupId : Int) (priority : PriorityField) :
    Session → Except String Session :=
  send env .priority fun db =>
    match env.readPriority priority with
    | none => .error 400
    | some priority => db.changePriority groupId priority

def patchDevicesRequest (env : DialogEnv) (groupId : Int) (addedDevices removedDevices : List Int) :
    Session → Except String Session :=
  send env .devices fun db => db.changeAssigned groupId addedDevices removedDevices

def updatePackagesRequest (env : DialogEnv) (groupId : Int) (packages : List Int) :
    Session → Except String Session :=
  send env .packages fun db => db.assignPackage groupId packages

/-- A policy with one comma, as the page checks it. -/
def WellFormedPolicy (policy : String) : Prop :=
  ',' ∈ policy.toList ∧ (policy.toList.splitOn ',').length = 2

instance (policy : String) : Decidable (WellFormedPolicy policy) := inferInstanceAs (Decidable (_ ∧ _))

def updatePolicyRequest (env : DialogEnv) (groupId : Int) (policy : String) (s : Session) :
    Except String Session :=
  if ¬ WellFormedPolicy policy then .error ("Invalid policy format: " ++ policy)
  else send env .policy (fun db => db.updatePolicy groupId policy) s

/-! ## The dialog -/

structure DataEntry where
  id : Int
  selected : Bool
deriving DecidableEq, Repr

/-- What the page lists. -/
structure Resources where
  packages : List Int
  devices : List Int
  packages_nodup : packages.Nodup
  devices_nodup : devices.Nodup

/-- `groupConfiguration`, `initialGroupConfiguration` and the two lists. -/
structure GroupDialog where
  id : Int
  priority : PriorityField
  policy : String
  initial : GroupSchema
  packageList : List DataEntry
  deviceList : List DataEntry

def openConfigureGroupPopup (group : GroupSchema) (r : Resources) : GroupDialog where
  id := group.id
  priority := .number group.priority
  policy := group.policy
  initial := group
  packageList := r.packages.map fun p => ⟨p, decide (p ∈ group.packages)⟩
  deviceList := r.devices.map fun d => ⟨d, decide (d ∈ group.devices)⟩

inductive DialogEdit where
  | priority (t : String)
  | policy (policy : String)
  | selectPackage (i : Nat)
  | selectDevice (i : Nat)
deriving DecidableEq, Repr

structure Notification where
  headline : String
  msg : Option String
deriving DecidableEq, Repr

inductive DialogEnd where
  /-- The page has no such group, or no groups: a `TypeError`. -/
  | crashed
  | failed (n : Notification)
  /-- The dialog is closed, with a notification or without. -/
  | closed (notified : Bool)
deriving DecidableEq, Repr

/-- One stage after the other, until one fails. -/
def runStages {σ ε : Type*} : List (σ → Except ε σ) → σ → Option ε × σ
  | [], s => (none, s)
  | f :: fs, s =>
    match f s with
    | .error e => (some e, s)
    | .ok s => runStages fs s

def modificationDetected : Notification :=
  ⟨"Modification detected during configuration! Configuration is aborted.", none⟩

namespace GroupDialog

def edit (d : GroupDialog) : DialogEdit → GroupDialog
  | .priority t => { d with priority := .text t }
  | .policy policy => { d with policy }
  | .selectPackage i =>
    { d with packageList := d.packageList.modify i fun e => { e with selected := !e.selected } }
  | .selectDevice i =>
    { d with deviceList := d.deviceList.modify i fun e => { e with selected := !e.selected } }

variable (env : DialogEnv) (d : GroupDialog)

def newDevices : List Int := (d.deviceList.filter DataEntry.selected).map DataEntry.id

def removedDevices : List Int := d.initial.devices.filter fun device => device ∉ d.newDevices

def addedDevices : List Int := d.newDevices.filter fun device => device ∉ d.initial.devices

def newPackages : List Int := (d.packageList.filter DataEntry.selected).map DataEntry.id

def configurePriority (s : Session) : Except Notification Session :=
  if d.priority = .number d.initial.priority then .ok s
  else
    (updatePriorityRequest env d.id d.priority s).mapError fun message =>
      ⟨"Error when updating group priority:", some message⟩

def configureDevices (s : Session) : Except Notification Session :=
  if d.removedDevices = [] ∧ d.addedDevices = [] then .ok s
  else
    (patchDevicesRequest env d.id d.addedDevices d.removedDevices s).mapError fun message =>
      ⟨"Error when updating group devices:", some message⟩

def configurePackages (s : Session) : Except Notification Session :=
  if d.initial.packages = d.newPackages then .ok s
  else
    (updatePackagesRequest env d.id d.newPackages s).mapError fun message =>
      ⟨"Error when updating group packages:", some message⟩

def configurePolicy (s : Session) : Except Notification Session :=
  if d.policy = d.initial.policy then .ok s
  else if d.policy = "" then
    .error ⟨"Error when updating group policy:", some "Policy is a required field"⟩
  else
    (updatePolicyRequest env d.id d.policy s).mapError fun message =>
      ⟨"Error when updating group update policy", some message⟩

/-- A request for the policy does not count. -/
def requestWasMade : Bool :=
  decide (d.priority ≠ .number d.initial.priority) ||
    decide (d.removedDevices ≠ [] ∨ d.addedDevices ≠ []) ||
    decide (d.initial.packages ≠ d.newPackages)

/-- `configureGroup`. -/
def configureGroup (s : Session) : DialogEnd × Session :=
  match s.groups.find? fun group => group.id = d.id with
  | none => (.crashed, s)
  | some groupToModify =>
    if groupToModify ≠ d.initial then (.failed modificationDetected, s)
    else
      match runStages [d.configurePriority env, d.configureDevices env, d.configurePackages env,
        d.configurePolicy env] s with
      | (some n, s) => (.failed n, s)
      | (none, s) => (.closed d.requestWasMade, s)

end GroupDialog

/-! ## The page -/

/-- The page, with its dialog if it is open. -/
structure Page where
  session : Session
  dialog : Option GroupDialog

inductive PageEvent where
  | edit (e : DialogEdit)
  /-- `fetchResources`, once in a while. -/
  | poll (success : Bool)
  | submit
deriving DecidableEq, Repr

def Page.step (env : DialogEnv) (page : Page) : PageEvent → Option (Page × Option DialogEnd)
  | .edit e => page.dialog.map fun d => (⟨page.session, some (d.edit e)⟩, none)
  | .poll success => some (⟨fetchResources env page.session.db success, page.dialog⟩, none)
  | .submit => page.dialog.map fun d =>
    match d.configureGroup env page.session with
    | (.closed notified, s) => (⟨s, none⟩, some (.closed notified))
    | (answer, s) => (⟨s, some d⟩, some answer)

/-! ## When the dialog succeeds -/

namespace GroupDialog

variable (env : DialogEnv) (d : GroupDialog)

/-- The priority, if it is edited, is one that no other group of a device of the group has. -/
def AcceptsPriority (db : Database) : Prop :=
  d.priority ≠ .number d.initial.priority → env.refuses .priority = none ∧
    ∃ p, env.readPriority d.priority = some p ∧ ∀ i ∈ d.initial.devices, db.Free d.id p i

/-- A device that is added is registered, and has no other group of the new priority. -/
def AcceptsDevices (db : Database) : Prop :=
  ¬ (d.removedDevices = [] ∧ d.addedDevices = []) → env.refuses .devices = none ∧
    ∀ i ∈ d.addedDevices, db.Registered i ∧
      ∀ p, env.readPriority d.priority = some p → db.Free d.id p i

def AcceptsPackages (db : Database) : Prop :=
  d.initial.packages ≠ d.newPackages → env.refuses .packages = none ∧
    ∀ p ∈ d.newPackages, p ∈ db.packages

def AcceptsPolicy : Prop :=
  d.policy ≠ d.initial.policy → d.policy ≠ "" ∧ WellFormedPolicy d.policy ∧
    env.refuses .policy = none ∧ (createPolicy d.policy).isSome

structure Accepts (db : Database) : Prop where
  priority : d.AcceptsPriority env db
  devices : d.AcceptsDevices env db
  packages : d.AcceptsPackages env db
  policy : d.AcceptsPolicy env

end GroupDialog

end Rdfm.Frontend
