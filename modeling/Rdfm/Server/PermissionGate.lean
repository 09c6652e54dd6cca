import Rdfm.Server.Actions
import Rdfm.Server.TokenGates
import Rdfm.Server.UpdateCheck

/-!
# The permission gates of the routes

Users who are no administrators pass `check_permission` or `check_device_permission`. The first checks
before the handler is called if the permission is to change something, and looks at the handler's
result if it is to read; the second always checks before. Both find the resource by the name of an
argument of the route, or by the `id` in the result, and not every route has them under this name.

A gate guards a request (`Guarded`) if a user without the permission causes nothing and learns nothing,
and one with it gets the handler's own response. `permission_gate_iff` says for which requests this
is so: for all of some routes, and for hardly any of others.

Handlers that are checked before they are called can be anything; they are a parameter.
-/

namespace Rdfm.Server

open Rdfm.Lib Rdfm.Protocol

/-! ## State and results -/

structure ApiStore extends UpdateStore where
  actionLogs : List ActionLog
  /-- The addresses of the devices on the management channel. -/
  connected : List String

/-- What a handler does besides changing the database. -/
inductive ApiEffect where
  | deviceMessage (mac : String)
  | storage
  /-- A change on the message broker. -/
  | broker
  /-- A link to a package is made, from its metadata and the keys of the server. Nothing in the storage
  is read or changed. -/
  | link
deriving DecidableEq, Repr

inductive ApiException where
  | keyError (key : String)
  | typeError
  | attributeError
  /-- An error that the framework answers. -/
  | http (status : Nat)
  | other (message : String)
deriving DecidableEq, Repr

inductive ApiEnd where
  | returned (result : Json) (status : Nat)
  /-- A response object, after a WebSocket has been closed. -/
  | response
  | raised (e : ApiException)

structure ApiRun where
  store : ApiStore
  effects : List ApiEffect
  result : ApiEnd

/-- `api_error`. -/
def apiError (message : String) (status : Nat) : ApiEnd :=
  .returned (.obj [("error", .str message)]) status

/-- The body of a request as `deserialize_schema` reads it. -/
inductive ApiBody (α : Type) where
  | unreadable
  | refused (messages : String)
  | payload (a : α)

/-- The requests to the guarded routes, with the arguments of the URL. -/
inductive Route where
  | fetchDevices
  | fetchDevice (identifier : Int)
  | listActions (mac : String)
  | execAction (mac actionId : String)
  | getActionLog (mac : String)
  | clearActionLog (mac : String)
  | removePendingActions (mac : String)
  | removeSelectedActions (mac : String) (body : ApiBody (List String))
  | removeDevice (identifier : Int)
  | downloadFile (identifier : Int) (body : ApiBody String)
  | assignTag (identifier : Int) (tag : String)
  | fetchTags (identifier : Int)
  | fetchByTag (tag : String)
  | checkTopic (identifier : Int)
  | confiscateTopic (identifier : Int)
  | spawnShell (mac : String)
  | fetchPackages
  | downloadPackage (identifier : Int)
  | fetchPackage (identifier : Int)
  | deletePackage (identifier : Int)
  | fetchGroups
  | fetchGroup (identifier : Int)
  | deleteGroup (identifier : Int)
  | changeAssigned (identifier : Int) (body : ApiBody (List Int × List Int))
  | assignPackage (identifier : Int) (body : ApiBody (List Int))
  | updatePolicy (identifier : Int) (body : ApiBody String)
  | changePriority (identifier : Int) (body : ApiBody Int)

/-- What the handlers rest on. -/
structure ApiEnv where
  /-- The row of an address that the database returns first. -/
  first : Nat
  /-- `generate_url`; `none` is an exception. -/
  generateUrl : StorageDriver → PackageInfo → Nat → Option String
  /-- `prepare_download` from a device that is connected: what it does, and the status with the link;
  `none` is an exception. -/
  prepareDownload : String → String → List ApiEffect × Option (Int × String)
  /-- `device_topic_status`: the name of the topic, and whether the device can write to it. -/
  deviceTopicStatus : String → Option (Option (String × Bool × Bool))
  /-- `confiscate_topic_from_device`, and whether it returns. -/
  confiscateTopic : String → List ApiEffect × Bool
  /-- The handlers that are called only after a check. -/
  checked : Route → ApiStore → ApiRun

/-! ## Handlers -/

namespace ApiStore

variable (s : ApiStore)

/-- A run that changes nothing and does nothing. -/
def reads (result : ApiEnd) : ApiRun := ⟨s, [], result⟩

/-- `DevicesDB.fetch_tags`. -/
def fetchTags (identifier : Int) : List String :=
  (s.db.deviceTags.filter fun a => a.deviceId = identifier).map DeviceTag.tag

/-- `DevicesDB.fetch_by_tag`. -/
def fetchByTag (tag : String) : List Device :=
  s.db.devices.filter fun d => d.id ∈ (s.db.deviceTags.filter fun a => a.tag = tag).map DeviceTag.deviceId

/-- `ActionLogsDB.fetch_device_log`, the newest first. -/
def fetchDeviceLog (mac : String) : List ActionLog :=
  (s.actionLogs.filter fun r => r.macAddress = mac).reverse

def deleteLogs (d : LogDeletion) : ApiRun :=
  ⟨{ s with actionLogs := s.actionLogs.filter fun r => !d.covers r }, [], .returned (.obj []) 200⟩

def metaJson : MetaValue → Json
  | .str v => .str v
  | .list items => .arr (items.map .str)

def metadataJson (m : Metadata) : Json := .obj (m.entries.map fun e => (e.1, metaJson e.2))

def deviceJson (d : Device) : Json :=
  .obj [("id", .int d.id), ("name", .str d.name), ("mac_address", .str d.macAddress),
    ("metadata", metadataJson d.deviceMetadata),
    ("public_key", (d.publicKey.map Json.str).getD .null),
    ("groups", .arr ((s.db.fetchGroups d.id).map .int)),
    ("connected", .bool (d.macAddress ∈ s.connected))]

def statusText : LogStatus → String
  | .pending => "pending"
  | .sent => "sent"
  | .result code => toString code
  | .error => "error"

def actionLogJson (r : ActionLog) : Json :=
  .obj [("id", .str r.id), ("action", .str r.actionId), ("status", .str (statusText r.status)),
    ("download_url", (r.downloadUrl.map Json.str).getD .null)]

def packageJson (p : Package) : Json :=
  .obj [("id", .int p.id), ("created", .str p.created), ("sha256", .str p.sha256),
    ("driver", .str p.driver), ("metadata", metadataJson p.info.info)]

def groupJson (g : Group) : Json :=
  .obj [("id", .int g.id),
    ("packages", .arr ((s.db.groupPackages.filter fun a => a.groupId = g.id).map
      fun a => .int a.packageId)),
    ("devices", .arr ((s.db.fetchAssigned g.id).map fun d => .int d.id)),
    ("policy", .str g.policy), ("priority", .int g.priority)]

/-- `download_file`, once its body is read. -/
def downloadFile (env : ApiEnv) (identifier : Int) (file : String) : ApiRun :=
  match (s.fetchDevice identifier).2 with
  | none => s.reads (apiError "device does not exist" 404)
  | some dev =>
    if dev.macAddress ∈ s.connected then
      let (effects, result) := env.prepareDownload dev.macAddress file
      match result with
      | none => ⟨s, effects, apiError "download failed" 500⟩
      | some (status, url) =>
        ⟨s, effects, .returned (.obj [("status", .int status), ("url", .str url)]) 200⟩
    else s.reads (apiError "download failed" 500)

/-- `download_package`. -/
def downloadPackage (env : ApiEnv) (identifier : Int) : ApiRun :=
  match s.packages.find? fun p => p.id = identifier with
  | none => s.reads (apiError "specified package does not exist" 404)
  | some pkg =>
    match driverByName pkg.driver with
    | none => s.reads (apiError "invalid storage driver" 500)
    | some driver =>
      match env.generateUrl driver pkg.info 3600 with
      | none => ⟨s, [.link], .returned (.obj []) 500⟩
      | some url =>
        ⟨s, [.link], .returned (.obj [("id", .int identifier), ("download_url", .str url)]) 200⟩

/-- `check_topic`. -/
def checkTopic (env : ApiEnv) (identifier : Int) : ApiRun :=
  match (s.fetchDevice identifier).2 with
  | none => s.reads (apiError "device does not exist" 404)
  | some dev =>
    match env.deviceTopicStatus dev.macAddress with
    | none => s.reads (apiError "topic checking failed" 500)
    | some none => s.reads (.returned (.obj []) 204)
    | some (some (topic, write, idempotentWrite)) =>
      s.reads (.returned (.obj [("topic", .str topic), ("write", .bool write),
        ("idempotent_write", .bool idempotentWrite)]) 200)

/-- `confiscate_topic`. -/
def confiscateTopic (env : ApiEnv) (identifier : Int) : ApiRun :=
  match (s.fetchDevice identifier).2 with
  | none => s.reads (apiError "device does not exist" 404)
  | some dev =>
    let (effects, done) := env.confiscateTopic dev.macAddress
    ⟨s, effects, if done then .returned (.obj []) 200 else apiError "topic confiscating failed" 500⟩

/-- `deserialize_schema`. -/
def withBody {α : Type} (body : ApiBody α) (f : α → ApiRun) : ApiRun :=
  match body with
  | .unreadable => s.reads (.raised (.http 400))
  | .refused messages => s.reads (apiError ("schema validation failed: " ++ messages) 400)
  | .payload a => f a

/-- The handler of a route. -/
def handler (env : ApiEnv) : Route → ApiRun
  | .fetchDevices => s.reads (.returned (.arr (s.db.devices.map s.deviceJson)) 200)
  | .fetchDevice identifier =>
    match (s.fetchDevice identifier).2 with
    | none => s.reads (apiError "device does not exist" 404)
    | some dev => s.reads (.returned (s.deviceJson dev) 200)
  | .getActionLog mac => s.reads (.returned (.arr ((s.fetchDeviceLog mac).map actionLogJson)) 200)
  | .clearActionLog mac => s.deleteLogs (.completed mac)
  | .removePendingActions mac => s.deleteLogs (.pending mac)
  | .removeSelectedActions mac body => s.withBody body fun ids => s.deleteLogs (.selected mac ids)
  | .downloadFile identifier body => s.withBody body (s.downloadFile env identifier)
  | .fetchTags identifier => s.reads (.returned (.arr ((s.fetchTags identifier).map .str)) 200)
  | .fetchByTag tag => s.reads (.returned (.arr ((s.fetchByTag tag).map s.deviceJson)) 200)
  | .checkTopic identifier => s.checkTopic env identifier
  | .confiscateTopic identifier => s.confiscateTopic env identifier
  | .fetchPackages => s.reads (.returned (.arr (s.packages.map packageJson)) 200)
  | .downloadPackage identifier => s.downloadPackage env identifier
  | .fetchPackage identifier =>
    match s.packages.find? fun p => p.id = identifier with
    | none => s.reads (apiError "specified package does not exist" 404)
    | some pkg => s.reads (.returned (packageJson pkg) 200)
  | .fetchGroups => s.reads (.returned (.arr (s.db.groups.map s.groupJson)) 200)
  | .fetchGroup identifier =>
    match s.db.fetchGroup identifier with
    | none => s.reads (apiError "group does not exist" 404)
    | some group => s.reads (.returned (s.groupJson group) 200)
  | route => env.checked route s

end ApiStore

/-! ## Gates -/

def readPermission : String := "read"

def updatePermission : String := "update"

def deletePermission : String := "delete"

def shellPermission : String := "shell"

def scopeReadWrite : String := "rdfm_admin_rw"

def scopeReadOnly : String := "rdfm_admin_ro"

/-- `check_admin_rights`. -/
def checkAdminRights (userRoles : List String) (checkRo : Bool) : Bool :=
  checkRo && userRoles.contains scopeReadOnly || userRoles.contains scopeReadWrite

namespace ApiStore

variable (s : ApiStore)

/-- `PermissionsDB.fetch_one_by_attributes` finds a row. -/
def hasPermission (resource : Resource) (userId : String) (resourceId : Int) (permission : String) :
    Bool :=
  s.db.permissions.any fun p => p.userId = userId ∧ p.resourceId = some resourceId ∧
    p.permission = permission ∧ p.resource = resource

/-- `PermissionsDB.fetch_named_by_attributes`. -/
def namedPermissions (userId permission : String) : List String :=
  (s.db.permissions.filter fun p =>
    p.userId = userId ∧ p.permission = permission ∧ p.resource = .deviceByTag).filterMap
      Permission.resourceName

/-- `check_user_permissions`; `none` is the exception when there is no such device. -/
def checkUserPermissions (resource : Resource) (userId : String) (resourceId : Int)
    (permission : String) : Option Bool :=
  let resourcePerm := s.hasPermission resource userId resourceId permission
  let toGroup (groups : List Int) : Bool :=
    groups.any fun g => s.hasPermission .group userId g permission
  match resource with
  | .package =>
    some (resourcePerm ||
      toGroup ((s.db.groupPackages.filter fun a => a.packageId = resourceId).map GroupPackage.groupId))
  | .device =>
    match (s.fetchDevice resourceId).2 with
    | none => none
    | some device =>
      some (resourcePerm || toGroup (s.db.fetchGroups resourceId) ||
        (s.fetchTags resourceId ++ [device.name]).any fun name =>
          name ∈ s.namedPermissions userId permission)
  | _ => some resourcePerm

/-- The check of one result. Only the log of a device has an `id` that is no number, and no device has
such an identifier. -/
def checkResult (resource : Resource) (userId permission : String) : Json → Except ApiException Bool
  | .obj fields =>
    match pyGet fields "id" with
    | none => .error (.keyError "id")
    | some (.int identifier) =>
      match s.checkUserPermissions resource userId identifier permission with
      | none => .error .attributeError
      | some ok => .ok ok
    | some _ => .error .attributeError
  | _ => .error .typeError

/-- `filter` with the check of each result. -/
def filterResults (resource : Resource) (userId permission : String) :
    List Json → Except ApiException (List Json)
  | [] => .ok []
  | item :: items => do
    let ok ← s.checkResult resource userId permission item
    let items ← filterResults resource userId permission items
    return if ok then item :: items else items

end ApiStore

/-- A user, as the validation of the token has found it. -/
structure ApiUser where
  userId : String
  userRoles : List String

/-- The arguments of a route by which the gates find the resource. -/
structure Kwargs where
  identifier : Option Int
  macAddress : Option String

section Gates

variable (env : ApiEnv) (s : ApiStore) (user : ApiUser) (kwargs : Kwargs) (f : ApiRun)

/-- The result of the handler is looked at. -/
def checkAfter (resource : Resource) (permission : String) : ApiRun :=
  match f.result with
  | .raised e => { f with result := .raised e }
  -- A response object is no pair.
  | .response => { f with result := .raised .typeError }
  | .returned result status =>
    if status ≠ 200 then { f with result := .returned result status }
    else if permission = readPermission then
      match result with
      | .arr items =>
        match s.filterResults resource user.userId permission items with
        | .error e => { f with result := .raised e }
        | .ok items => { f with result := .returned (.arr items) status }
      | result =>
        match s.checkResult resource user.userId permission result with
        | .error e => { f with result := .raised e }
        | .ok true => { f with result := .returned result status }
        | .ok false => { f with result := .returned (.obj []) 404 }
    else { f with result := .returned result status }

/-- `check_permission`, with authentication enabled. -/
def checkPermission (resource : Resource) (permission : String) : ApiRun :=
  let writePermission := permission = updatePermission ∨ permission = deletePermission
  if checkAdminRights user.userRoles (¬ writePermission) then f
  else if writePermission then
    match kwargs.identifier with
    | none => s.reads (.raised (.keyError "identifier"))
    | some identifier =>
      match s.checkUserPermissions resource user.userId identifier permission with
      | none => s.reads (.raised .attributeError)
      | some true => f
      | some false => s.reads (apiError "insufficient permission to a resource" 403)
  else checkAfter s user f resource permission

/-- `check_device_permission`, with authentication enabled. -/
def checkDevicePermission (permission : String) : ApiRun :=
  let writePermission := permission = updatePermission ∨ permission = deletePermission ∨
    permission = shellPermission
  if checkAdminRights user.userRoles (¬ writePermission) then f
  else
    match kwargs.macAddress with
    | none => s.reads (.raised (.keyError "mac_address"))
    | some mac =>
      match (s.getDeviceData env.first mac).2 with
      | none => s.reads (.raised .attributeError)
      | some device =>
        match s.checkUserPermissions .device user.userId device.id permission with
        | none => s.reads (.raised .attributeError)
        | some true => f
        | some false =>
          if writePermission then s.reads (apiError "insufficient permission to a resource" 403)
          else s.reads (.returned (.obj []) 404)

end Gates

inductive Gate where
  | permission (resource : Resource) (permission : String)
  | device (permission : String)
deriving DecidableEq, Repr

namespace Route

/-- The decorator of a route. -/
def gate : Route → Gate
  | fetchDevices | fetchDevice _ | getActionLog _ | downloadFile _ _ | fetchTags _ | fetchByTag _ =>
    .permission .device readPermission
  | clearActionLog _ | removePendingActions _ | removeSelectedActions _ _ | assignTag _ _ =>
    .permission .device updatePermission
  | removeDevice _ => .permission .device deletePermission
  | listActions _ | checkTopic _ => .device readPermission
  | execAction _ _ | confiscateTopic _ => .device updatePermission
  | spawnShell _ => .device shellPermission
  | fetchPackages | downloadPackage _ | fetchPackage _ => .permission .package readPermission
  | deletePackage _ => .permission .package deletePermission
  | fetchGroups | fetchGroup _ => .permission .group readPermission
  | deleteGroup _ => .permission .group deletePermission
  | changeAssigned _ _ | assignPackage _ _ | updatePolicy _ _ | changePriority _ _ =>
    .permission .group updatePermission

/-- The arguments in the URL. -/
def kwargs : Route → Kwargs
  | fetchDevices | fetchByTag _ | fetchPackages | fetchGroups => ⟨none, none⟩
  | listActions mac | execAction mac _ | getActionLog mac | clearActionLog mac
  | removePendingActions mac | removeSelectedActions mac _ | spawnShell mac => ⟨none, some mac⟩
  | fetchDevice identifier | removeDevice identifier | downloadFile identifier _
  | assignTag identifier _ | fetchTags identifier | checkTopic identifier | confiscateTopic identifier
  | downloadPackage identifier | fetchPackage identifier | deletePackage identifier
  | fetchGroup identifier | deleteGroup identifier | changeAssigned identifier _
  | assignPackage identifier _ | updatePolicy identifier _ | changePriority identifier _ =>
    ⟨some identifier, none⟩

end Route

/-- A request to a guarded route. -/
def serveRoute (env : ApiEnv) (s : ApiStore) (user : ApiUser) (route : Route) : ApiRun :=
  match route.gate with
  | .permission resource permission =>
    checkPermission s user route.kwargs (s.handler env route) resource permission
  | .device permission =>
    checkDevicePermission env s user route.kwargs (s.handler env route) permission

/-! ## Guarded requests -/

namespace Gate

def resource : Gate → Resource
  | permission resource _ => resource
  | device _ => .device

def name : Gate → String
  | permission _ name => name
  | device name => name

/-- The permission is to change something. -/
def writes : Gate → Bool
  | permission _ name => name = updatePermission ∨ name = deletePermission
  | device name => name = updatePermission ∨ name = deletePermission ∨ name = shellPermission

end Gate

section Guarded

variable (env : ApiEnv) (s : ApiStore) (user : ApiUser) (route : Route)

/-- The user passes the gate of the route as an administrator. -/
def isAdmin : Bool := checkAdminRights user.userRoles (!route.gate.writes)

/-- The identifier of the resource that a request is about, if it is about one. -/
def target : Option Int :=
  match route.kwargs.identifier with
  | some identifier => some identifier
  | none => route.kwargs.macAddress.bind fun mac => (s.getDeviceData env.first mac).2.map Device.id

/-- Whether the user has the permission for it. -/
def permitted : Option Bool :=
  (target env s route).bind fun identifier =>
    s.checkUserPermissions route.gate.resource user.userId identifier route.gate.name

/-- The user has the permission for an item of a list. -/
def permittedItem (item : Json) : Bool :=
  match s.checkResult route.gate.resource user.userId route.gate.name item with
  | .ok ok => ok
  | .error _ => false

/-- A response without data of the resource. -/
def ApiEnd.NoData : ApiEnd → Prop
  | .returned result status => status = 200 → result = .arr [] ∨ result = .obj []
  | .response => False
  | .raised _ => True

/-- Nothing happens but that a link is made, and the response has no data. -/
structure Idle (run : ApiRun) : Prop where
  store : run.store = s
  effects : ∀ e ∈ run.effects, e = .link
  noData : run.result.NoData

/-- The gate guards the request: without the permission, nothing happens and nothing is learned; with
it, the response is the handler's own. Of a list, the items with the permission are left. -/
structure Guarded : Prop where
  refused : permitted env s user route = some false → Idle s (serveRoute env s user route)
  allowed : permitted env s user route = some true →
    serveRoute env s user route = s.handler env route
  listed : target env s route = none → route.kwargs.macAddress = none →
    ∃ items, s.handler env route = s.reads (.returned (.arr items) 200) ∧
      serveRoute env s user route =
        s.reads (.returned (.arr (items.filter (permittedItem s user route))) 200)

/-- The requests whose gate fits their handler. -/
def GateFits : Route → Prop
  -- The gate looks for an `identifier`, and the route has an address; or the other way round.
  | .clearActionLog mac => permitted env s user (.clearActionLog mac) ≠ some true
  | .removePendingActions mac => permitted env s user (.removePendingActions mac) ≠ some true
  | .removeSelectedActions mac body => permitted env s user (.removeSelectedActions mac body) ≠ some true
  | .checkTopic identifier => permitted env s user (.checkTopic identifier) ≠ some true
  | .confiscateTopic identifier => permitted env s user (.confiscateTopic identifier) ≠ some true
  -- The items of the list are not devices, and have no identifier of one.
  | .getActionLog mac =>
    permitted env s user (.getActionLog mac) = some true → ∀ r ∈ s.actionLogs, r.macAddress ≠ mac
  | .fetchTags identifier =>
    permitted env s user (.fetchTags identifier) = some true →
      ∀ a ∈ s.db.deviceTags, a.deviceId ≠ identifier
  -- The device is asked before the check, and the result has no identifier.
  | .downloadFile identifier body => ∀ dev file, (s.fetchDevice identifier).2 = some dev →
    body = .payload file → dev.macAddress ∈ s.connected →
      (permitted env s user (.downloadFile identifier body) = some false →
        ∀ e ∈ (env.prepareDownload dev.macAddress file).1, e = .link) ∧
      (permitted env s user (.downloadFile identifier body) = some true →
        (env.prepareDownload dev.macAddress file).2 = none)
  | _ => True

end Guarded

/-! ### What a gate does -/

section Equations

variable {env : ApiEnv} {s : ApiStore} {user : ApiUser} {route : Route} {resource : Resource}
  {permission : String}

variable (env s) in
theorem serveRoute_permission (hgate : route.gate = .permission resource permission)
    (hadmin : isAdmin user route = false) :
    serveRoute env s user route =
      if permission = updatePermission ∨ permission = deletePermission then
        match route.kwargs.identifier with
        | none => s.reads (.raised (.keyError "identifier"))
        | some identifier =>
          match s.checkUserPermissions resource user.userId identifier permission with
          | none => s.reads (.raised .attributeError)
          | some true => s.handler env route
          | some false => s.reads (apiError "insufficient permission to a resource" 403)
      else checkAfter s user (s.handler env route) resource permission := by
  unfold isAdmin Gate.writes at hadmin
  unfold serveRoute checkPermission
  rw [hgate] at hadmin ⊢
  dsimp only at hadmin ⊢
  have hadmin : checkAdminRights user.userRoles
      (decide ¬ (permission = updatePermission ∨ permission = deletePermission)) = false := by
    rw [← hadmin, decide_not]
  rw [hadmin, if_neg Bool.false_ne_true]

variable (env s) in
theorem serveRoute_device (hgate : route.gate = .device permission)
    (hadmin : isAdmin user route = false) :
    serveRoute env s user route =
      match route.kwargs.macAddress with
      | none => s.reads (.raised (.keyError "mac_address"))
      | some mac =>
        match (s.getDeviceData env.first mac).2 with
        | none => s.reads (.raised .attributeError)
        | some device =>
          match s.checkUserPermissions .device user.userId device.id permission with
          | none => s.reads (.raised .attributeError)
          | some true => s.handler env route
          | some false =>
            if permission = updatePermission ∨ permission = deletePermission ∨
              permission = shellPermission
            then s.reads (apiError "insufficient permission to a resource" 403)
            else s.reads (.returned (.obj []) 404) := by
  unfold isAdmin Gate.writes at hadmin
  unfold serveRoute checkDevicePermission
  rw [hgate] at hadmin ⊢
  dsimp only at hadmin ⊢
  have hadmin : checkAdminRights user.userRoles
      (decide ¬ (permission = updatePermission ∨ permission = deletePermission ∨
        permission = shellPermission)) = false := by
    rw [← hadmin, decide_not]
  rw [hadmin, if_neg Bool.false_ne_true]

/-- A run in which nothing happens, with a response that is no success. -/
theorem idle_reads {result : Json} {status : Nat} (h : status ≠ 200) :
    Idle s (s.reads (.returned result status)) :=
  ⟨rfl, List.forall_mem_nil _, fun hstatus => absurd hstatus h⟩

theorem idle_raised (e : ApiException) : Idle s (s.reads (.raised e)) :=
  ⟨rfl, List.forall_mem_nil _, trivial⟩

/-! ### Gates that check first -/

/-- The route has the argument that the gate looks for. -/
theorem guarded_of_checkedFirst {identifier : Int}
    (hgate : route.gate = .permission resource permission)
    (hwrites : permission = updatePermission ∨ permission = deletePermission)
    (hidentifier : route.kwargs.identifier = some identifier)
    (hadmin : isAdmin user route = false) : Guarded env s user route := by
  have hserve := serveRoute_permission env s hgate hadmin
  rw [if_pos hwrites, hidentifier] at hserve
  have hpermitted : permitted env s user route =
      s.checkUserPermissions resource user.userId identifier permission := by
    unfold permitted target
    rw [hidentifier, hgate]
    rfl
  dsimp only at hserve
  refine ⟨fun h => ?_, fun h => ?_, fun h => ?_⟩
  · rw [hpermitted] at h
    rw [hserve, h]
    exact idle_reads (by decide)
  · rw [hpermitted] at h
    rw [hserve, h]
  · unfold target at h
    rw [hidentifier] at h
    cases h

theorem guarded_of_deviceGate {mac : String} (hgate : route.gate = .device permission)
    (hidentifier : route.kwargs.identifier = none) (hmac : route.kwargs.macAddress = some mac)
    (hadmin : isAdmin user route = false) : Guarded env s user route := by
  have hserve := serveRoute_device env s hgate hadmin
  rw [hmac] at hserve
  dsimp only at hserve
  have hpermitted : permitted env s user route =
      (s.getDeviceData env.first mac).2.bind fun device =>
        s.checkUserPermissions .device user.userId device.id permission := by
    unfold permitted target
    rw [hidentifier, hmac, hgate]
    exact Option.bind_map
  refine ⟨fun h => ?_, fun h => ?_, fun _ h => ?_⟩
  · rw [hpermitted] at h
    rcases Option.bind_eq_some_iff.mp h with ⟨device, hdevice, hcheck⟩
    rw [hserve, hdevice]
    dsimp only
    rw [hcheck]
    dsimp only
    split
    · exact idle_reads (by decide)
    · exact idle_reads (by decide)
  · rw [hpermitted] at h
    rcases Option.bind_eq_some_iff.mp h with ⟨device, hdevice, hcheck⟩
    rw [hserve, hdevice]
    dsimp only
    rw [hcheck]
  · rw [hmac] at h
    cases h

/-- The gate raises whatever the permission is. The response is the handler's own for nobody, if the
handler does not raise the same. -/
theorem guarded_iff_of_keyError (key : String)
    (hserve : serveRoute env s user route = s.reads (.raised (.keyError key)))
    (htarget : target env s route ≠ none ∨ route.kwargs.macAddress ≠ none)
    (hown : (s.handler env route).result ≠ .raised (.keyError key)) :
    Guarded env s user route ↔ permitted env s user route ≠ some true := by
  constructor
  · intro h hpermitted
    have hsame := h.allowed hpermitted
    rw [hserve] at hsame
    exact hown (congrArg ApiRun.result hsame).symm
  · intro h
    refine ⟨fun _ => ?_, fun hpermitted => absurd hpermitted h, fun hnone hmac => ?_⟩
    · rw [hserve]
      exact idle_raised _
    · rcases htarget with htarget | htarget
      · exact absurd hnone htarget
      · exact absurd hmac htarget

/-! ### Gates that look at the result -/

/-- A response that is no success is passed on. -/
theorem checkAfter_eq_self {f : ApiRun} (hresponse : f.result ≠ .response)
    (h : ∀ result, f.result ≠ .returned result 200) :
    checkAfter s user f resource permission = f := by
  unfold checkAfter
  obtain ⟨store, effects, result⟩ := f
  cases result with
  | raised e => rfl
  | response => exact absurd rfl hresponse
  | returned result status =>
    have hstatus : status ≠ 200 := fun hstatus => h result (by rw [hstatus])
    exact if_pos hstatus

theorem checkAfter_obj {f : ApiRun} {fields : Fields} {identifier : Int}
    (hresult : f.result = .returned (.obj fields) 200)
    (hid : pyGet fields "id" = some (.int identifier)) :
    checkAfter s user f resource readPermission =
      match s.checkUserPermissions resource user.userId identifier readPermission with
      | none => { f with result := .raised .attributeError }
      | some true => f
      | some false => { f with result := .returned (.obj []) 404 } := by
  unfold checkAfter
  obtain ⟨store, effects, result⟩ := f
  dsimp only at hresult
  rw [hresult]
  dsimp only [ApiStore.checkResult]
  rw [if_neg (not_not.mpr rfl), if_pos rfl, hid]
  dsimp only
  rcases s.checkUserPermissions resource user.userId identifier readPermission with _ | (_ | _) <;> rfl

theorem checkAfter_arr {f : ApiRun} {items : List Json}
    (hresult : f.result = .returned (.arr items) 200) :
    checkAfter s user f resource readPermission =
      match s.filterResults resource user.userId readPermission items with
      | .error e => { f with result := .raised e }
      | .ok items => { f with result := .returned (.arr items) 200 } := by
  unfold checkAfter
  rw [hresult]
  dsimp only
  rw [if_neg (not_not.mpr rfl), if_pos rfl]

variable (env s) in
/-- A request of a read permission is served by the handler, and then checked. -/
theorem serveRoute_read (hgate : route.gate = .permission resource readPermission)
    (hadmin : isAdmin user route = false) :
    serveRoute env s user route =
      checkAfter s user (s.handler env route) resource readPermission := by
  rw [serveRoute_permission env s hgate hadmin, if_neg (by decide)]

/-- A handler that only reads returns an error, or the resource with its identifier. -/
theorem guarded_of_item {identifier : Int}
    (hgate : route.gate = .permission resource readPermission)
    (hidentifier : route.kwargs.identifier = some identifier)
    (hstore : (s.handler env route).store = s)
    (heffects : ∀ e ∈ (s.handler env route).effects, e = .link)
    (hresult : (∃ result status, (s.handler env route).result = .returned result status ∧
        status ≠ 200) ∨
      ∃ fields, (s.handler env route).result = .returned (.obj fields) 200 ∧
        pyGet fields "id" = some (.int identifier))
    (hadmin : isAdmin user route = false) : Guarded env s user route := by
  have hserve := serveRoute_read env s hgate hadmin
  have hpermitted : permitted env s user route =
      s.checkUserPermissions resource user.userId identifier readPermission := by
    unfold permitted target
    rw [hidentifier, hgate]
    rfl
  have htarget : target env s route ≠ none := by
    unfold target
    rw [hidentifier]
    exact Option.some_ne_none _
  rcases hresult with ⟨result, status, hresult, hstatus⟩ | ⟨fields, hresult, hid⟩
  · have hself : serveRoute env s user route = s.handler env route := by
      rw [hserve]
      refine checkAfter_eq_self ?_ ?_
      · rw [hresult]
        exact nofun
      · rw [hresult]
        rintro result ⟨⟩
        exact hstatus rfl
    refine ⟨fun _ => ?_, fun _ => hself, fun h => absurd h htarget⟩
    rw [hself]
    refine ⟨hstore, heffects, ?_⟩
    rw [hresult]
    exact fun h => absurd h hstatus
  · rw [checkAfter_obj hresult hid] at hserve
    refine ⟨fun h => ?_, fun h => ?_, fun h => absurd h htarget⟩
    · rw [hpermitted] at h
      rw [hserve, h]
      exact ⟨hstore, heffects, fun h => absurd h (by decide)⟩
    · rw [hpermitted] at h
      rw [hserve, h]

variable (s user route) in
/-- If every item is checked, those without the permission are dropped. -/
theorem filterResults_eq_filter {items : List Json}
    (h : ∀ item ∈ items, ∃ ok, s.checkResult route.gate.resource user.userId route.gate.name item =
      .ok ok) :
    s.filterResults route.gate.resource user.userId route.gate.name items =
      .ok (items.filter (permittedItem s user route)) := by
  induction items with
  | nil => rfl
  | cons item items ih =>
    obtain ⟨ok, hok⟩ := h item List.mem_cons_self
    have hitem : permittedItem s user route item = ok := by
      unfold permittedItem
      rw [hok]
    unfold ApiStore.filterResults
    rw [hok, ih fun item hmem => h item (List.mem_cons_of_mem _ hmem), List.filter_cons, hitem]
    cases ok <;> rfl

theorem guarded_of_list {items : List Json}
    (hgate : route.gate = .permission resource readPermission)
    (hkwargs : route.kwargs = ⟨none, none⟩)
    (hhandler : s.handler env route = s.reads (.returned (.arr items) 200))
    (hitems : ∀ item ∈ items, ∃ ok, s.checkResult resource user.userId readPermission item = .ok ok)
    (hadmin : isAdmin user route = false) : Guarded env s user route := by
  have htarget : target env s route = none := by
    unfold target
    rw [hkwargs]
    rfl
  have hpermitted : permitted env s user route = none := by
    unfold permitted
    rw [htarget]
    rfl
  refine ⟨fun h => ?_, fun h => ?_, fun _ _ => ⟨items, hhandler, ?_⟩⟩
  · rw [hpermitted] at h
    cases h
  · rw [hpermitted] at h
    cases h
  · have hfilter := @filterResults_eq_filter s user route items
    rw [hgate] at hfilter
    dsimp only [Gate.resource, Gate.name] at hfilter
    rw [serveRoute_read env s hgate hadmin, hhandler, checkAfter_arr rfl, hfilter hitems]
    rfl

/-- The items of the list are no resources of the gate. The response is the handler's own only if there
are none. -/
theorem guarded_iff_of_foreignItems {items : List Json}
    (hgate : route.gate = .permission resource readPermission)
    (hkwargs : target env s route ≠ none ∨ route.kwargs.macAddress ≠ none)
    (hhandler : s.handler env route = s.reads (.returned (.arr items) 200))
    (hitems : ∀ item ∈ items, ∃ e, s.checkResult resource user.userId readPermission item = .error e)
    (hadmin : isAdmin user route = false) :
    Guarded env s user route ↔ (permitted env s user route = some true → items = []) := by
  have hserve := serveRoute_read env s hgate hadmin
  rw [hhandler, checkAfter_arr rfl] at hserve
  cases items with
  | nil =>
    have hself : serveRoute env s user route = s.handler env route := by
      rw [hserve, hhandler]
      rfl
    refine iff_of_true ⟨fun _ => ?_, fun _ => hself, fun htarget hmac => ?_⟩ fun _ => rfl
    · rw [hself, hhandler]
      exact ⟨rfl, List.forall_mem_nil _, fun _ => .inl rfl⟩
    · rcases hkwargs with h | h
      · exact absurd htarget h
      · exact absurd hmac h
  | cons item items =>
    obtain ⟨e, he⟩ := hitems item List.mem_cons_self
    have hraised : serveRoute env s user route = s.reads (.raised e) := by
      rw [hserve]
      unfold ApiStore.filterResults
      rw [he]
      rfl
    constructor
    · intro h hpermitted
      have hsame := h.allowed hpermitted
      rw [hraised, hhandler] at hsame
      cases congrArg ApiRun.result hsame
    · intro h
      refine ⟨fun _ => ?_, fun hpermitted => absurd (h hpermitted) (List.cons_ne_nil _ _),
        fun htarget hmac => ?_⟩
      · rw [hraised]
        exact idle_raised e
      · rcases hkwargs with h | h
        · exact absurd htarget h
        · exact absurd hmac h

/-! ### The handlers behind them -/

variable (s) in
theorem pyGet_deviceJson (d : Device) :
    ∃ fields, s.deviceJson d = .obj fields ∧ pyGet fields "id" = some (.int d.id) := ⟨_, rfl, rfl⟩

theorem pyGet_packageJson (p : Package) :
    ∃ fields, ApiStore.packageJson p = .obj fields ∧ pyGet fields "id" = some (.int p.id) :=
  ⟨_, rfl, rfl⟩

variable (s) in
theorem pyGet_groupJson (g : Group) :
    ∃ fields, s.groupJson g = .obj fields ∧ pyGet fields "id" = some (.int g.id) := ⟨_, rfl, rfl⟩

/-- A resource is checked without an exception, unless it is a device that does not exist. -/
theorem checkResult_ok {fields : Fields} {identifier : Int} (userId : String)
    (hid : pyGet fields "id" = some (.int identifier))
    (hdevice : resource = .device → ∃ d ∈ s.db.devices, d.id = identifier) :
    ∃ ok, s.checkResult resource userId permission (.obj fields) = .ok ok := by
  have hsome : ∃ ok, s.checkUserPermissions resource userId identifier permission = some ok := by
    cases resource with
    | device =>
      obtain ⟨d, hd, hdid⟩ := hdevice rfl
      have hfound : ((s.fetchDevice identifier).2).isSome := by
        unfold Store.fetchDevice
        rw [List.find?_isSome]
        exact ⟨d, hd, decide_eq_true hdid⟩
      obtain ⟨device, hfetch⟩ := Option.isSome_iff_exists.mp hfound
      unfold ApiStore.checkUserPermissions
      dsimp only
      rw [hfetch]
      exact ⟨_, rfl⟩
    | package => exact ⟨_, rfl⟩
    | group => exact ⟨_, rfl⟩
    | deviceByTag => exact ⟨_, rfl⟩
  obtain ⟨ok, hok⟩ := hsome
  refine ⟨ok, ?_⟩
  unfold ApiStore.checkResult
  dsimp only
  rw [hid]
  dsimp only
  rw [hok]

theorem checkResult_rows {α : Type} {rows : List α} {json : α → Json} {id : α → Int}
    (hjson : ∀ a, ∃ fields, json a = .obj fields ∧ pyGet fields "id" = some (.int (id a)))
    (hdevice : resource = .device → ∀ a ∈ rows, ∃ d ∈ s.db.devices, d.id = id a) :
    ∀ item ∈ rows.map json, ∃ ok, s.checkResult resource user.userId permission item = .ok ok := by
  intro item hitem
  obtain ⟨a, ha, rfl⟩ := List.mem_map.mp hitem
  obtain ⟨fields, hfields, hid⟩ := hjson a
  rw [hfields]
  exact checkResult_ok user.userId hid fun h => hdevice h a ha

theorem guarded_fetchDevices (hadmin : isAdmin user .fetchDevices = false) :
    Guarded env s user .fetchDevices :=
  guarded_of_list rfl rfl rfl (checkResult_rows (pyGet_deviceJson s) fun _ d hd => ⟨d, hd, rfl⟩) hadmin

theorem guarded_fetchByTag {tag : String} (hadmin : isAdmin user (.fetchByTag tag) = false) :
    Guarded env s user (.fetchByTag tag) :=
  guarded_of_list rfl rfl rfl
    (checkResult_rows (pyGet_deviceJson s) fun _ d hd => ⟨d, List.mem_of_mem_filter hd, rfl⟩) hadmin

theorem guarded_fetchPackages (hadmin : isAdmin user .fetchPackages = false) :
    Guarded env s user .fetchPackages :=
  guarded_of_list rfl rfl rfl (checkResult_rows pyGet_packageJson nofun) hadmin

theorem guarded_fetchGroups (hadmin : isAdmin user .fetchGroups = false) :
    Guarded env s user .fetchGroups :=
  guarded_of_list rfl rfl rfl (checkResult_rows (pyGet_groupJson s) nofun) hadmin

/-- A handler that looks a row up by the identifier, and returns it. -/
theorem guarded_of_row {α : Type} {identifier : Int} {json : α → Json} {id : α → Int}
    (row : Option α) (message : String)
    (hgate : route.gate = .permission resource readPermission)
    (hidentifier : route.kwargs.identifier = some identifier)
    (hjson : ∀ a, ∃ fields, json a = .obj fields ∧ pyGet fields "id" = some (.int (id a)))
    (hnone : row = none → s.handler env route = s.reads (apiError message 404))
    (hsome : ∀ a, row = some a →
      s.handler env route = s.reads (.returned (json a) 200) ∧ id a = identifier)
    (hadmin : isAdmin user route = false) : Guarded env s user route := by
  have hreads : ∃ result, s.handler env route = s.reads result ∧
      ((∃ r status, result = .returned r status ∧ status ≠ 200) ∨
        ∃ fields, result = .returned (.obj fields) 200 ∧ pyGet fields "id" = some (.int identifier)) := by
    cases hrow : row with
    | none => exact ⟨_, hnone hrow, .inl ⟨_, _, rfl, by decide⟩⟩
    | some a =>
      obtain ⟨hhandler, hid⟩ := hsome a hrow
      obtain ⟨fields, hfields, hget⟩ := hjson a
      rw [hfields] at hhandler
      rw [hid] at hget
      exact ⟨_, hhandler, .inr ⟨fields, rfl, hget⟩⟩
  obtain ⟨result, hhandler, hresult⟩ := hreads
  refine guarded_of_item hgate hidentifier ?_ ?_ ?_ hadmin
  · rw [hhandler]
    rfl
  · rw [hhandler]
    exact List.forall_mem_nil _
  · rw [hhandler]
    exact hresult

theorem guarded_fetchDevice {identifier : Int}
    (hadmin : isAdmin user (.fetchDevice identifier) = false) :
    Guarded env s user (.fetchDevice identifier) := by
  refine guarded_of_row (s.db.devices.find? fun d => d.id = identifier) "device does not exist" rfl rfl
    (pyGet_deviceJson s) ?_ ?_ hadmin
  · intro h
    simp only [ApiStore.handler, Store.fetchDevice, h]
  · intro d h
    simp only [ApiStore.handler, Store.fetchDevice, h]
    exact ⟨trivial, of_decide_eq_true (List.find?_some h :)⟩

theorem guarded_fetchPackage {identifier : Int}
    (hadmin : isAdmin user (.fetchPackage identifier) = false) :
    Guarded env s user (.fetchPackage identifier) := by
  refine guarded_of_row (s.packages.find? fun p => p.id = identifier)
    "specified package does not exist" rfl rfl pyGet_packageJson ?_ ?_ hadmin
  · intro h
    simp only [ApiStore.handler, h]
  · intro p h
    simp only [ApiStore.handler, h]
    exact ⟨trivial, of_decide_eq_true (List.find?_some h :)⟩

theorem guarded_fetchGroup {identifier : Int}
    (hadmin : isAdmin user (.fetchGroup identifier) = false) :
    Guarded env s user (.fetchGroup identifier) := by
  refine guarded_of_row (s.db.fetchGroup identifier) "group does not exist" rfl rfl
    (pyGet_groupJson s) ?_ ?_ hadmin
  · intro h
    simp only [ApiStore.handler, h]
  · intro g h
    simp only [ApiStore.handler, h]
    exact ⟨trivial, of_decide_eq_true (List.find?_some h :)⟩

/-- A link may have been made, and the user without the permission does not get it. -/
theorem guarded_downloadPackage {identifier : Int}
    (hadmin : isAdmin user (.downloadPackage identifier) = false) :
    Guarded env s user (.downloadPackage identifier) := by
  refine guarded_of_item rfl rfl ?_ ?_ ?_ hadmin
  all_goals dsimp only [ApiStore.handler, ApiStore.downloadPackage]
  · split
    · rfl
    · split
      · rfl
      · split
        · rfl
        · rfl
  · split
    · exact List.forall_mem_nil _
    · split
      · exact List.forall_mem_nil _
      · split
        · exact List.forall_mem_singleton.mpr rfl
        · exact List.forall_mem_singleton.mpr rfl
  · split
    · exact .inl ⟨_, _, rfl, by decide⟩
    · split
      · exact .inl ⟨_, _, rfl, by decide⟩
      · split
        · exact .inl ⟨_, _, rfl, by decide⟩
        · exact .inr ⟨_, rfl, rfl⟩

/-! ### Gates that do not fit their handler -/

theorem guarded_getActionLog_iff {mac : String} (hadmin : isAdmin user (.getActionLog mac) = false) :
    Guarded env s user (.getActionLog mac) ↔ GateFits env s user (.getActionLog mac) := by
  refine Iff.trans (guarded_iff_of_foreignItems rfl (.inr (Option.some_ne_none _)) rfl ?_ hadmin) ?_
  · intro item hitem
    obtain ⟨r, -, rfl⟩ := List.mem_map.mp hitem
    exact ⟨_, rfl⟩
  · refine imp_congr_right fun _ => ?_
    rw [List.map_eq_nil_iff, ApiStore.fetchDeviceLog, List.reverse_eq_nil_iff, List.filter_eq_nil_iff]
    exact forall₂_congr fun r _ => not_congr decide_eq_true_iff

theorem guarded_fetchTags_iff {identifier : Int}
    (hadmin : isAdmin user (.fetchTags identifier) = false) :
    Guarded env s user (.fetchTags identifier) ↔ GateFits env s user (.fetchTags identifier) := by
  refine Iff.trans (guarded_iff_of_foreignItems rfl (.inl (Option.some_ne_none _)) rfl ?_ hadmin) ?_
  · intro item hitem
    obtain ⟨tag, -, rfl⟩ := List.mem_map.mp hitem
    exact ⟨_, rfl⟩
  · refine imp_congr_right fun _ => ?_
    rw [List.map_eq_nil_iff, ApiStore.fetchTags, List.map_eq_nil_iff, List.filter_eq_nil_iff]
    exact forall₂_congr fun a _ => not_congr decide_eq_true_iff

variable (env) in
/-- No device is asked for the file, and the response says why. -/
theorem downloadFile_unreached {identifier : Int} {body : ApiBody String}
    (h : ∀ dev file, (s.fetchDevice identifier).2 = some dev → body = .payload file →
      dev.macAddress ∉ s.connected) :
    ∃ result, s.handler env (.downloadFile identifier body) = s.reads result ∧
      result ≠ .response ∧ (∀ r, result ≠ .returned r 200) ∧ result.NoData := by
  cases body with
  | unreadable => exact ⟨_, rfl, nofun, nofun, trivial⟩
  | refused messages => exact ⟨_, rfl, nofun, nofun, fun h => absurd h (by decide)⟩
  | payload file =>
    dsimp only [ApiStore.handler, ApiStore.withBody, ApiStore.downloadFile]
    cases hdev : (s.fetchDevice identifier).2 with
    | none => exact ⟨_, rfl, nofun, nofun, fun h => absurd h (by decide)⟩
    | some dev =>
      dsimp only
      rw [if_neg (h dev file hdev rfl)]
      exact ⟨_, rfl, nofun, nofun, fun h => absurd h (by decide)⟩

variable (env) in
theorem downloadFile_reached {identifier : Int} {dev : Device} (file : String)
    (hdev : (s.fetchDevice identifier).2 = some dev) (hconnected : dev.macAddress ∈ s.connected) :
    s.handler env (.downloadFile identifier (.payload file)) =
      ⟨s, (env.prepareDownload dev.macAddress file).1,
        match (env.prepareDownload dev.macAddress file).2 with
        | none => apiError "download failed" 500
        | some (status, url) => .returned (.obj [("status", .int status), ("url", .str url)]) 200⟩ := by
  dsimp only [ApiStore.handler, ApiStore.withBody, ApiStore.downloadFile]
  rw [hdev]
  dsimp only
  rw [if_pos hconnected]
  cases (env.prepareDownload dev.macAddress file).2 <;> rfl

variable (env) in
/-- The device has been asked when the gate looks at the result, which has no `id`. -/
theorem serveRoute_downloadFile_reached {identifier : Int} {dev : Device} {file : String}
    (hdev : (s.fetchDevice identifier).2 = some dev) (hconnected : dev.macAddress ∈ s.connected)
    (hadmin : isAdmin user (.downloadFile identifier (.payload file)) = false) :
    serveRoute env s user (.downloadFile identifier (.payload file)) =
      ⟨s, (env.prepareDownload dev.macAddress file).1,
        match (env.prepareDownload dev.macAddress file).2 with
        | none => apiError "download failed" 500
        | some _ => .raised (.keyError "id")⟩ := by
  rw [serveRoute_read env s rfl hadmin, downloadFile_reached env file hdev hconnected]
  cases (env.prepareDownload dev.macAddress file).2 <;> rfl

theorem guarded_downloadFile_iff {identifier : Int} {body : ApiBody String}
    (hadmin : isAdmin user (.downloadFile identifier body) = false) :
    Guarded env s user (.downloadFile identifier body) ↔
      GateFits env s user (.downloadFile identifier body) := by
  have htarget : target env s (.downloadFile identifier body) ≠ none := Option.some_ne_none _
  by_cases hreach : ∃ dev file, (s.fetchDevice identifier).2 = some dev ∧ body = .payload file ∧
    dev.macAddress ∈ s.connected
  · obtain ⟨dev, file, hdev, rfl, hconnected⟩ := hreach
    have hserve := serveRoute_downloadFile_reached env hdev hconnected hadmin
    have hhandler := downloadFile_reached env file hdev hconnected
    constructor
    · rintro h _ _ hdev' ⟨⟩ -
      cases hdev.symm.trans hdev'
      refine ⟨fun hpermitted => ?_, fun hpermitted => ?_⟩
      · have hidle := (h.refused hpermitted).effects
        rw [hserve] at hidle
        exact hidle
      · have hsame := h.allowed hpermitted
        rw [hserve, hhandler] at hsame
        cases hprepared : (env.prepareDownload dev.macAddress file).2 with
        | none => rfl
        | some prepared =>
          rw [hprepared] at hsame
          cases congrArg ApiRun.result hsame
    · intro h
      obtain ⟨hrefused, hallowed⟩ := h dev file hdev rfl hconnected
      refine ⟨fun hpermitted => ?_, fun hpermitted => ?_, fun h => absurd h htarget⟩
      · rw [hserve]
        refine ⟨rfl, hrefused hpermitted, ?_⟩
        dsimp only
        split
        · exact fun h => absurd h (by decide)
        · trivial
      · rw [hserve, hhandler, hallowed hpermitted]
  · have hnone : ∀ dev file, (s.fetchDevice identifier).2 = some dev → body = .payload file →
        dev.macAddress ∉ s.connected :=
      fun dev file hdev hbody hconnected => hreach ⟨dev, file, hdev, hbody, hconnected⟩
    obtain ⟨result, hhandler, hresponse, hok, hdata⟩ := downloadFile_unreached env hnone
    have hself : serveRoute env s user (.downloadFile identifier body) = s.reads result := by
      rw [serveRoute_read env s rfl hadmin, hhandler]
      exact checkAfter_eq_self hresponse hok
    refine iff_of_true ⟨fun _ => ?_, fun _ => hself.trans hhandler.symm, fun h => absurd h htarget⟩ ?_
    · rw [hself]
      exact ⟨rfl, List.forall_mem_nil _, hdata⟩
    · exact fun dev file hdev hbody hconnected => absurd hconnected (hnone dev file hdev hbody)

/-- `check_permission` looks for an `identifier` that the route does not have. -/
theorem guarded_iff_of_noIdentifier {mac : String}
    (hgate : route.gate = .permission resource permission)
    (hwrites : permission = updatePermission ∨ permission = deletePermission)
    (hkwargs : route.kwargs = ⟨none, some mac⟩)
    (hown : ∀ key, (s.handler env route).result ≠ .raised (.keyError key))
    (hadmin : isAdmin user route = false) :
    Guarded env s user route ↔ permitted env s user route ≠ some true := by
  refine guarded_iff_of_keyError "identifier" ?_ (.inr ?_) (hown _)
  · rw [serveRoute_permission env s hgate hadmin, if_pos hwrites, hkwargs]
  · rw [hkwargs]
    exact Option.some_ne_none _

/-- `check_device_permission` looks for a `mac_address` that the route does not have. -/
theorem guarded_iff_of_noAddress {identifier : Int} (hgate : route.gate = .device permission)
    (hkwargs : route.kwargs = ⟨some identifier, none⟩)
    (hown : ∀ key, (s.handler env route).result ≠ .raised (.keyError key))
    (hadmin : isAdmin user route = false) :
    Guarded env s user route ↔ permitted env s user route ≠ some true := by
  refine guarded_iff_of_keyError "mac_address" ?_ (.inl ?_) (hown _)
  · rw [serveRoute_device env s hgate hadmin, hkwargs]
  · unfold target
    rw [hkwargs]
    exact Option.some_ne_none _

theorem removeSelectedActions_result {mac : String} {body : ApiBody (List String)} (key : String) :
    (s.handler env (.removeSelectedActions mac body)).result ≠ .raised (.keyError key) := by
  cases body <;> exact nofun

theorem checkTopic_result {identifier : Int} (key : String) :
    (s.handler env (.checkTopic identifier)).result ≠ .raised (.keyError key) := by
  dsimp only [ApiStore.handler, ApiStore.checkTopic]
  split
  · exact nofun
  · split <;> exact nofun

theorem confiscateTopic_result {identifier : Int} (key : String) :
    (s.handler env (.confiscateTopic identifier)).result ≠ .raised (.keyError key) := by
  dsimp only [ApiStore.handler, ApiStore.confiscateTopic]
  split
  · exact nofun
  · dsimp only
    split <;> exact nofun

end Equations

/-- The gate guards a request of a user who is no administrator exactly if it fits the handler. -/
theorem permission_gate_iff (env : ApiEnv) (s : ApiStore) (user : ApiUser) (route : Route)
    (hadmin : isAdmin user route = false) :
    Guarded env s user route ↔ GateFits env s user route := by
  cases route with
  | fetchDevices => exact iff_of_true (guarded_fetchDevices hadmin) trivial
  | fetchDevice identifier => exact iff_of_true (guarded_fetchDevice hadmin) trivial
  | fetchByTag tag => exact iff_of_true (guarded_fetchByTag hadmin) trivial
  | fetchPackages => exact iff_of_true (guarded_fetchPackages hadmin) trivial
  | fetchPackage identifier => exact iff_of_true (guarded_fetchPackage hadmin) trivial
  | fetchGroups => exact iff_of_true (guarded_fetchGroups hadmin) trivial
  | fetchGroup identifier => exact iff_of_true (guarded_fetchGroup hadmin) trivial
  | downloadPackage identifier => exact iff_of_true (guarded_downloadPackage hadmin) trivial
  | listActions mac => exact iff_of_true (guarded_of_deviceGate rfl rfl rfl hadmin) trivial
  | execAction mac actionId => exact iff_of_true (guarded_of_deviceGate rfl rfl rfl hadmin) trivial
  | spawnShell mac => exact iff_of_true (guarded_of_deviceGate rfl rfl rfl hadmin) trivial
  | removeDevice identifier =>
    exact iff_of_true (guarded_of_checkedFirst rfl (.inr rfl) rfl hadmin) trivial
  | assignTag identifier tag =>
    exact iff_of_true (guarded_of_checkedFirst rfl (.inl rfl) rfl hadmin) trivial
  | deletePackage identifier =>
    exact iff_of_true (guarded_of_checkedFirst rfl (.inr rfl) rfl hadmin) trivial
  | deleteGroup identifier =>
    exact iff_of_true (guarded_of_checkedFirst rfl (.inr rfl) rfl hadmin) trivial
  | changeAssigned identifier body =>
    exact iff_of_true (guarded_of_checkedFirst rfl (.inl rfl) rfl hadmin) trivial
  | assignPackage identifier body =>
    exact iff_of_true (guarded_of_checkedFirst rfl (.inl rfl) rfl hadmin) trivial
  | updatePolicy identifier body =>
    exact iff_of_true (guarded_of_checkedFirst rfl (.inl rfl) rfl hadmin) trivial
  | changePriority identifier body =>
    exact iff_of_true (guarded_of_checkedFirst rfl (.inl rfl) rfl hadmin) trivial
  | clearActionLog mac => exact guarded_iff_of_noIdentifier rfl (.inl rfl) rfl (fun _ => nofun) hadmin
  | removePendingActions mac =>
    exact guarded_iff_of_noIdentifier rfl (.inl rfl) rfl (fun _ => nofun) hadmin
  | removeSelectedActions mac body =>
    exact guarded_iff_of_noIdentifier rfl (.inl rfl) rfl removeSelectedActions_result hadmin
  | checkTopic identifier => exact guarded_iff_of_noAddress rfl rfl checkTopic_result hadmin
  | confiscateTopic identifier => exact guarded_iff_of_noAddress rfl rfl confiscateTopic_result hadmin
  | getActionLog mac => exact guarded_getActionLog_iff hadmin
  | fetchTags identifier => exact guarded_fetchTags_iff hadmin
  | downloadFile identifier body => exact guarded_downloadFile_iff hadmin

namespace GateRun

/-- A server that sends each file as it is asked for. -/
def env : ApiEnv where
  first := 0
  generateUrl _ _ _ := some "http://127.0.0.1:5000/local_storage/package"
  prepareDownload mac _ := ([.deviceMessage mac, .storage],
    some (0, "http://127.0.0.1:5000/local_storage/file"))
  deviceTopicStatus mac := some (some (mac, true, true))
  confiscateTopic _ := ([.broker], true)
  checked _ s := s.reads (.returned (.obj []) 200)

/-- A device that is connected, a user who may change it, and one who may not even see it. -/
def store : ApiStore where
  db := {
    devices := [⟨1, "d", "00:00:00:00:00:00", ∅, none⟩]
    groups := []
    deviceGroups := []
    deviceTags := []
    packages := [3]
    groupPackages := []
    logs := []
    permissions := [⟨.device, "u", some 1, none, updatePermission⟩]
    constraints := by decide }
  registrations := []
  packages := [⟨3, "Mon, 14 Aug 2023 13:03:27 GMT", "s3", "4e415854", .ofItems []⟩]
  packages_id := rfl
  deviceUpdates := []
  actionLogs := []
  connected := ["00:00:00:00:00:00"]

def user : ApiUser := ⟨"u", []⟩

def stranger : ApiUser := ⟨"v", []⟩

end GateRun

open GateRun in
/-- A device is seen by nobody without the permission. -/
theorem permission_gate_fetchDevice :
    isAdmin stranger (.fetchDevice 1) = false ∧ Guarded env store stranger (.fetchDevice 1) :=
  ⟨rfl, (permission_gate_iff env store stranger (.fetchDevice 1) rfl).mpr trivial⟩

open GateRun in
/-- The user with the permission cannot clear the log, and the one without it gets a file from the
device. -/
theorem gates_open_and_shut :
    (isAdmin user (.clearActionLog "00:00:00:00:00:00") = false ∧
      ¬ Guarded env store user (.clearActionLog "00:00:00:00:00:00")) ∧
    isAdmin stranger (.downloadFile 1 (.payload "/etc/shadow")) = false ∧
      ¬ Guarded env store stranger (.downloadFile 1 (.payload "/etc/shadow")) := by
  refine ⟨⟨rfl, fun h => ?_⟩, rfl, fun h => ?_⟩
  · have hpermitted : permitted env store user (.clearActionLog "00:00:00:00:00:00") = some true := by
      decide
    have hsame := congrArg ApiRun.result (h.allowed hpermitted)
    cases hsame
  · have hrefused : permitted env store stranger (.downloadFile 1 (.payload "/etc/shadow")) =
        some false := by decide
    have hmessage := (h.refused hrefused).effects (.deviceMessage "00:00:00:00:00:00")
      (by decide +kernel)
    cases hmessage

end Rdfm.Server
