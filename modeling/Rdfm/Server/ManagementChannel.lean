import Rdfm.Protocol.Messages
import Rdfm.Server.Actions
import Rdfm.Server.UpdateCheck

/-!
# The management channel

`__handle_device_message`: what a message of a connected device changes in the server. Some messages
are about the device of the connection. Others name an execution or an operation on the file system,
and the server looks it up among those of all devices. A device that names what another is to answer
answers in its place (`result_for_another`); messages that name only what was made for their sender
change nothing that belongs to other devices (`management_confined`).

Executions and operations do not know their device. The model keeps it next to them, to say whom they
belong to.
-/

namespace Rdfm.Server

open Rdfm.Lib Rdfm.Protocol

/-! ## State -/

structure DeviceRow extends Device where
  capabilities : List (String × Bool)
deriving DecidableEq

/-- An `ActionExecution`, made for the device of this address. -/
structure Execution where
  macAddress : String
  statusCode : Option Int
  output : Option String
  executionControl : List String
  executionCompleted : Bool
deriving DecidableEq, Repr

/-- A `FilesystemOperation`, made for the device of this address. -/
structure FsOperation where
  macAddress : String
  response : Option PyRequest
  completed : Bool

/-- The part of a `RemoteDevice` that its messages change. -/
structure Connection where
  deviceId : String
  capabilities : List (String × Bool)
  actions : String → Option PyAction
  updateVersion : Option String

structure ManagementServer where
  devices : List DeviceRow
  actionLogs : List ActionLog
  deviceUpdates : List DeviceUpdate
  actionExecutions : String → Option Execution
  filesystemOperations : String → Option FsOperation
  connections : Nat → Option Connection
  /-- The device of every execution there has been. -/
  made : String → Option String

/-- What the handling of a message rests on. -/
structure MessageEnv where
  /-- `add_output_to_storage`; `none` is an exception. -/
  addOutputToStorage : String → String → Option (Option String)
  /-- The event is published, or Redis is not configured. -/
  published : Bool
  /-- The row that the database returns first. -/
  first : Nat

inductive MessageEnd where
  | handled
  | webSocketException (message : String)
  | exception
deriving DecidableEq, Repr

namespace ManagementServer

variable (s : ManagementServer)

def setExecution (id : String) (e : Option Execution) : ManagementServer :=
  { s with actionExecutions := Function.update s.actionExecutions id e }

def setOperation (id : String) (o : Option FsOperation) : ManagementServer :=
  { s with filesystemOperations := Function.update s.filesystemOperations id o }

def setConnection (c : Nat) (conn : Option Connection) : ManagementServer :=
  { s with connections := Function.update s.connections c conn }

/-! ## Messages -/

/-- `execute_action_result`. -/
def executeActionResult (env : MessageEnv) (executionId : String) (statusCode : Int)
    (output : String) : ManagementServer × MessageEnd :=
  match s.actionExecutions executionId with
  | none => (s, .webSocketException ("Invalid execution " ++ executionId))
  | some execution =>
    let s := s.setExecution executionId (some { execution with
      statusCode := some statusCode, output := some output, executionCompleted := true })
    match if output = "" then some none else env.addOutputToStorage executionId output with
    | none => (s, .exception)
    | some downloadUrl =>
      ({ s with
        actionLogs := updateStatus executionId (.result statusCode) downloadUrl s.actionLogs },
        .handled)

/-- `execute_action_control`. -/
def executeActionControl (executionId status : String) : ManagementServer × MessageEnd :=
  match s.actionExecutions executionId with
  | none => (s, .webSocketException ("Invalid execution " ++ executionId))
  | some execution =>
    (s.setExecution executionId
      (some { execution with executionControl := execution.executionControl ++ [status] }), .handled)

/-- The branches for `FsFileDownloadReply` and `FsFileProbeReply`. -/
def filesystemReply (id : String) (request : PyRequest) : ManagementServer × MessageEnd :=
  match s.filesystemOperations id with
  | none => (s, .webSocketException "invalid filesystem response")
  | some operation =>
    (s.setOperation id (some { operation with response := some request, completed := true }),
      .handled)

/-- `DevicesDB.update_capabilities`. -/
def updateCapabilities (mac : String) (capabilities : List (String × Bool)) : ManagementServer :=
  { s with
    devices := updateWhere (fun d => d.macAddress = mac) (fun d => { d with capabilities }) s.devices }

/-- `DevicesDB.update_metadata`. -/
def updateMetadata (mac : String) (metadata : Metadata) : ManagementServer :=
  { s with
    devices := updateWhere (fun d => d.macAddress = mac)
      (fun d => { d with deviceMetadata := metadata }) s.devices }

/-- `DeviceUpdatesDB.get_version`. -/
def getVersion (first : Nat) (mac : String) : Option String :=
  let rows := s.deviceUpdates.filter fun u => u.macAddress = mac
  rows[first % rows.length]?.map DeviceUpdate.version

/-- `DeviceUpdatesDB.delete`. -/
def deleteUpdate (mac : String) : ManagementServer :=
  { s with deviceUpdates := s.deviceUpdates.filter fun u => u.macAddress ≠ mac }

/-- `DeviceUpdatesDB.update_progress`. -/
def updateProgress (mac : String) (progress : Int) : ManagementServer :=
  { s with
    deviceUpdates := updateWhere (fun u => u.macAddress = mac) (fun u => { u with progress })
      s.deviceUpdates }

/-- The branch for `UpdateProgress`. -/
def handleUpdateProgress (env : MessageEnv) (conn : Connection) (progress : Int) :
    ManagementServer × Connection × MessageEnd :=
  let updateVersion :=
    match conn.updateVersion with
    | none => s.getVersion env.first conn.deviceId
    | some version => if version = "" then s.getVersion env.first conn.deviceId else some version
  if env.published then
    if progress = 100 then
      (s.deleteUpdate conn.deviceId, { conn with updateVersion := none }, .handled)
    else (s.updateProgress conn.deviceId progress, { conn with updateVersion }, .handled)
  else (s, { conn with updateVersion }, .exception)

/-- The branch for `UpdateVersion`. -/
def handleUpdateVersion (env : MessageEnv) (mac version : String) : ManagementServer × MessageEnd :=
  let rows := s.devices.filter fun d => d.macAddress = mac
  match rows[env.first % rows.length]? with
  | none => (s, .exception)
  | some device =>
    (s.updateMetadata mac (device.deviceMetadata.insert metaSoftVer (.str version)), .handled)

/-- `__handle_device_message`. -/
def handleDeviceMessage (env : MessageEnv) (conn : Connection) :
    PyRequest → ManagementServer × Connection × MessageEnd
  | .capabilityReport capabilities =>
    (s.updateCapabilities conn.deviceId capabilities, { conn with capabilities }, .handled)
  | .actionExecResult executionId statusCode output =>
    let (s, e) := s.executeActionResult env executionId statusCode output
    (s, conn, e)
  | .actionExecControl executionId status =>
    let (s, e) := s.executeActionControl executionId status
    (s, conn, e)
  | .actionListUpdate actions =>
    -- A dictionary: of two actions with one id the later is kept.
    (s, { conn with actions := fun id => actions.reverse.find? fun x => x.actionId = id }, .handled)
  | .fsFileDownloadReply id status etags =>
    let (s, e) := s.filesystemReply id (.fsFileDownloadReply id status etags)
    (s, conn, e)
  | .fsFileProbeReply id status size =>
    let (s, e) := s.filesystemReply id (.fsFileProbeReply id status size)
    (s, conn, e)
  | .updateProgress progress => s.handleUpdateProgress env conn progress
  | .updateVersion version =>
    let (s, e) := s.handleUpdateVersion env conn.deviceId version
    (s, conn, e)
  | _ => (s, conn, .webSocketException "invalid request")

/-- Which messages are refused, and with which text, is what the protocol says. -/
theorem handleDeviceMessage_refused_iff (env : MessageEnv) (conn : Connection) (waiting : Waiting)
    (hexecutions : ∀ id, id ∈ waiting.executions ↔ (s.actionExecutions id).isSome)
    (hoperations : ∀ id, id ∈ waiting.filesystemOperations ↔ (s.filesystemOperations id).isSome)
    (request : PyRequest) (message : String) :
    (s.handleDeviceMessage env conn request).2.2 = .webSocketException message ↔
      Rdfm.Protocol.handleDeviceMessage waiting request = .error message := by
  have hreply (id : String) (reply : PyRequest) :
      (s.filesystemReply id reply).2 = .webSocketException message ↔
        (if id ∈ waiting.filesystemOperations then Except.ok () else
          Except.error "invalid filesystem response") = Except.error message := by
    unfold filesystemReply
    simp only [hoperations]
    cases s.filesystemOperations id <;> simp
  cases request with
  | actionExecResult executionId statusCode output =>
    simp only [handleDeviceMessage, executeActionResult, Rdfm.Protocol.handleDeviceMessage, hexecutions]
    cases s.actionExecutions executionId with
    | none => simp
    | some execution =>
      dsimp only
      split <;> simp
  | actionExecControl executionId status =>
    simp only [handleDeviceMessage, executeActionControl, Rdfm.Protocol.handleDeviceMessage,
      hexecutions]
    cases s.actionExecutions executionId <;> simp
  | fsFileDownloadReply id status etags => exact hreply id _
  | fsFileProbeReply id status size => exact hreply id _
  | updateProgress progress =>
    simp only [handleDeviceMessage, handleUpdateProgress, Rdfm.Protocol.handleDeviceMessage]
    split
    · split <;> simp
    · simp
  | updateVersion version =>
    simp only [handleDeviceMessage, handleUpdateVersion, Rdfm.Protocol.handleDeviceMessage]
    split <;> simp
  | _ => simp [handleDeviceMessage, Rdfm.Protocol.handleDeviceMessage]

end ManagementServer

/-! ## Runs -/

inductive ManagementEvent where
  | connect (c : Nat) (mac : String)
  | disconnect (c : Nat)
  /-- A message arrives on a connection. -/
  | message (c : Nat) (request : PyRequest) (env : MessageEnv)
  /-- `execute_action` stores the row of a new execution. -/
  | execute (id actionId mac : String)
  /-- An execution is added to the container, by `execute_action` or `send_action_queue`. -/
  | track (id : String)
  /-- `execute_action` ends. -/
  | untrack (id : String)
  /-- Another `update_status`, of `execute_action` or `send_action_queue`. -/
  | setStatus (id : String) (status : LogStatus)
  | deleteLogs (d : LogDeletion)
  /-- An operation on the file system of a device starts. -/
  | operate (id mac : String)
  | endOperation (id : String)
  /-- An update check offers a package. -/
  | insertUpdate (u : DeviceUpdate)
  | insertDevice (d : DeviceRow)
  | deleteDevice (id : Int)

namespace ManagementServer

variable (s : ManagementServer)

/-- A message is handled. After an exception the connection is closed. -/
def receive (c : Nat) (request : PyRequest) (env : MessageEnv) : ManagementServer :=
  match s.connections c with
  | none => s
  | some conn =>
    let (s, conn, e) := s.handleDeviceMessage env conn request
    s.setConnection c (if e = .handled then some conn else none)

/-- The identifiers of new executions are new. -/
def step : ManagementEvent → ManagementServer
  | .connect c mac => s.setConnection c (some ⟨mac, [], fun _ => none, none⟩)
  | .disconnect c => s.setConnection c none
  | .message c request env => s.receive c request env
  | .execute id actionId mac =>
    match s.made id with
    | some _ => s
    | none =>
      { s with
        actionLogs := s.actionLogs ++ [⟨id, actionId, mac, .pending, none⟩]
        made := Function.update s.made id (some mac) }
  | .track id =>
    match s.made id with
    | none => s
    | some mac => s.setExecution id (some ⟨mac, none, none, [], false⟩)
  | .untrack id => s.setExecution id none
  | .setStatus id status => { s with actionLogs := updateStatus id status none s.actionLogs }
  | .deleteLogs d => { s with actionLogs := s.actionLogs.filter fun r => !d.covers r }
  | .operate id mac => s.setOperation id (some ⟨mac, none, false⟩)
  | .endOperation id => s.setOperation id none
  | .insertUpdate u => { s with deviceUpdates := s.deviceUpdates ++ [u] }
  | .insertDevice d => { s with devices := s.devices ++ [d] }
  | .deleteDevice id => { s with devices := s.devices.filter fun d => d.id ≠ id }

/-- The rows and the executions belong to the device that they were made for. -/
structure Consistent : Prop where
  rows : ∀ r ∈ s.actionLogs, s.made r.id = some r.macAddress
  executions : ∀ id e, s.actionExecutions id = some e → s.made id = some e.macAddress

/-! ## Confinement -/

/-- Nothing that belongs to a device other than this one is different. -/
structure SameForOthers (mac : String) (s s' : ManagementServer) : Prop where
  executions : ∀ id e, e.macAddress ≠ mac →
    (s'.actionExecutions id = some e ↔ s.actionExecutions id = some e)
  operations : ∀ id o, o.macAddress ≠ mac →
    (s'.filesystemOperations id = some o ↔ s.filesystemOperations id = some o)
  actionLogs : s'.actionLogs.filter (fun r => r.macAddress ≠ mac) =
    s.actionLogs.filter fun r => r.macAddress ≠ mac
  deviceUpdates : s'.deviceUpdates.filter (fun u => u.macAddress ≠ mac) =
    s.deviceUpdates.filter fun u => u.macAddress ≠ mac
  devices : s'.devices.filter (fun d => d.macAddress ≠ mac) =
    s.devices.filter fun d => d.macAddress ≠ mac

/-- A message changes nothing that belongs to a device other than its sender. -/
def Confined : ManagementEvent → Prop
  | .message c request env => ∀ conn, s.connections c = some conn →
    SameForOthers conn.deviceId s (s.step (.message c request env))
  | _ => True

/-- The execution or the operation that a message names, if it is under way, was made for the
device. -/
def OwnTarget (mac : String) : PyRequest → Prop
  | .actionExecResult executionId _ _ | .actionExecControl executionId _ =>
    ∀ e, s.actionExecutions executionId = some e → e.macAddress = mac
  | .fsFileDownloadReply id _ _ | .fsFileProbeReply id _ _ =>
    ∀ o, s.filesystemOperations id = some o → o.macAddress = mac
  | _ => True

/-- A message names only what was made for its sender. -/
def NamesOwn : ManagementEvent → Prop
  | .message c request _ => ∀ conn, s.connections c = some conn → s.OwnTarget conn.deviceId request
  | _ => True

/-! ### One message -/

section Messages

variable {s} {s' : ManagementServer} {mac : String} {env : MessageEnv} {conn : Connection}

theorem SameForOthers.refl (mac : String) (s : ManagementServer) : SameForOthers mac s s :=
  ⟨fun _ _ _ => Iff.rfl, fun _ _ _ => Iff.rfl, rfl, rfl, rfl⟩

/-- Two executions of the device, one in the place of the other. -/
theorem update_iff_of_ne {β : Type} (owner : β → String) {f : String → Option β} {id : String}
    {old new : β} (hold : f id = some old) (hmac : owner old = mac) (hnew : owner new = mac)
    (id' : String) (b : β) (hb : owner b ≠ mac) :
    Function.update f id (some new) id' = some b ↔ f id' = some b := by
  by_cases h : id' = id
  · subst h
    rw [Function.update_self, hold]
    constructor
    · intro heq
      cases heq
      exact absurd hnew hb
    · intro heq
      cases heq
      exact absurd hmac hb
  · rw [Function.update_of_ne h]

theorem sameForOthers_setExecution {id : String} {old : Execution}
    (hold : s.actionExecutions id = some old) (hmac : old.macAddress = mac) (new : Execution)
    (hnew : new.macAddress = mac) : SameForOthers mac s (s.setExecution id (some new)) :=
  { SameForOthers.refl mac s with
    executions := update_iff_of_ne Execution.macAddress hold hmac hnew }

/-- The row of an execution is the device's, as the execution is. -/
theorem Consistent.filter_updateStatus (hs : s.Consistent) {id : String} {e : Execution}
    (he : s.actionExecutions id = some e) (status : LogStatus) (downloadUrl : Option String) :
    (updateStatus id status downloadUrl s.actionLogs).filter
      (fun r => r.macAddress ≠ e.macAddress) =
      s.actionLogs.filter fun r => r.macAddress ≠ e.macAddress := by
  have hmac : ∀ r ∈ s.actionLogs, r.id = id → r.macAddress = e.macAddress := by
    rintro r hr rfl
    have hmade := hs.rows r hr
    rw [hs.executions _ _ he] at hmade
    exact (Option.some.inj hmade).symm
  unfold updateStatus
  split
  · rfl
  · refine filter_updateWhere (fun r hr hid => ?_) fun r hr hid => ?_
    · simpa using hmac r hr (of_decide_eq_true hid)
    · simpa using hmac r hr (of_decide_eq_true hid)

theorem executeActionResult_sameForOthers (hs : s.Consistent) {id : String} {statusCode : Int}
    {output : String} (hown : ∀ e, s.actionExecutions id = some e → e.macAddress = mac) :
    SameForOthers mac s (s.executeActionResult env id statusCode output).1 := by
  unfold executeActionResult
  cases he : s.actionExecutions id with
  | none => exact .refl mac s
  | some e =>
    have hset := sameForOthers_setExecution he (hown e he) { e with
      statusCode := some statusCode, output := some output, executionCompleted := true } (hown e he)
    dsimp only
    split
    · exact hset
    · next downloadUrl _ =>
      refine { hset with actionLogs := ?_ }
      rw [← hown e he]
      exact hs.filter_updateStatus he (.result statusCode) downloadUrl

theorem executeActionControl_sameForOthers {id status : String}
    (hown : ∀ e, s.actionExecutions id = some e → e.macAddress = mac) :
    SameForOthers mac s (s.executeActionControl id status).1 := by
  unfold executeActionControl
  cases he : s.actionExecutions id with
  | none => exact .refl mac s
  | some e => exact sameForOthers_setExecution he (hown e he) _ (hown e he)

theorem filesystemReply_sameForOthers {id : String} {request : PyRequest}
    (hown : ∀ o, s.filesystemOperations id = some o → o.macAddress = mac) :
    SameForOthers mac s (s.filesystemReply id request).1 := by
  unfold filesystemReply
  cases ho : s.filesystemOperations id with
  | none => exact .refl mac s
  | some o =>
    exact { SameForOthers.refl mac s with
      operations := update_iff_of_ne FsOperation.macAddress ho (hown o ho) (hown o ho) }

/-- Statements on the rows of one address leave the others alone. -/
theorem filter_updateWhere_of_eq {α : Type} (address : α → String) {f : α → α} {rows : List α}
    (hf : ∀ r, address (f r) = address r) :
    (updateWhere (fun r => address r = mac) f rows).filter (fun r => address r ≠ mac) =
      rows.filter fun r => address r ≠ mac := by
  refine filter_updateWhere (fun r _ hr => ?_) fun r _ hr => ?_
  · simpa using hr
  · simpa [hf r] using hr

theorem handleUpdateProgress_sameForOthers {progress : Int} :
    SameForOthers conn.deviceId s (s.handleUpdateProgress env conn progress).1 := by
  unfold handleUpdateProgress
  dsimp only
  split
  · split
    · refine { SameForOthers.refl _ s with deviceUpdates := ?_ }
      simp [deleteUpdate]
    · exact { SameForOthers.refl _ s with
        deviceUpdates := filter_updateWhere_of_eq DeviceUpdate.macAddress fun _ => rfl }
  · exact .refl _ s

theorem handleUpdateVersion_sameForOthers {version : String} :
    SameForOthers mac s (s.handleUpdateVersion env mac version).1 := by
  unfold handleUpdateVersion
  dsimp only
  split
  · exact .refl _ s
  · exact { SameForOthers.refl _ s with
      devices := filter_updateWhere_of_eq (fun d : DeviceRow => d.macAddress) fun _ => rfl }

/-- A message that names only what was made for its sender. -/
theorem Consistent.handleDeviceMessage_sameForOthers (hs : s.Consistent) (env : MessageEnv)
    {request : PyRequest} (hown : s.OwnTarget conn.deviceId request) :
    SameForOthers conn.deviceId s (s.handleDeviceMessage env conn request).1 := by
  cases request with
  | capabilityReport capabilities =>
    exact { SameForOthers.refl _ s with
      devices := filter_updateWhere_of_eq (fun d : DeviceRow => d.macAddress) fun _ => rfl }
  | actionExecResult executionId statusCode output => exact executeActionResult_sameForOthers hs hown
  | actionExecControl executionId status => exact executeActionControl_sameForOthers hown
  | fsFileDownloadReply id status etags => exact filesystemReply_sameForOthers hown
  | fsFileProbeReply id status size => exact filesystemReply_sameForOthers hown
  | updateProgress progress => exact handleUpdateProgress_sameForOthers
  | updateVersion version => exact handleUpdateVersion_sameForOthers
  | _ => exact .refl _ s

end Messages

/-! ### Whole runs -/

namespace Consistent

variable {s} (hs : s.Consistent)
include hs

theorem setExecution {id : String} {e : Execution} (he : s.made id = some e.macAddress) :
    (s.setExecution id (some e)).Consistent := by
  refine ⟨hs.rows, fun id' e' he' => ?_⟩
  by_cases h : id' = id
  · subst h
    have he' : Function.update s.actionExecutions id' (some e) id' = some e' := he'
    rw [Function.update_self] at he'
    cases he'
    exact he
  · have he' : Function.update s.actionExecutions id (some e) id' = some e' := he'
    rw [Function.update_of_ne h] at he'
    exact hs.executions id' e' he'

theorem setExecution_none (id : String) : (s.setExecution id none).Consistent := by
  refine ⟨hs.rows, fun id' e' he' => ?_⟩
  have he' : Function.update s.actionExecutions id none id' = some e' := he'
  by_cases h : id' = id
  · rw [h, Function.update_self] at he'
    cases he'
  · rw [Function.update_of_ne h] at he'
    exact hs.executions id' e' he'

theorem updateStatus (id : String) (status : LogStatus) (downloadUrl : Option String) :
    ({ s with actionLogs := Rdfm.Server.updateStatus id status downloadUrl s.actionLogs } :
      ManagementServer).Consistent := by
  refine ⟨fun r hr => ?_, hs.executions⟩
  have hr : r ∈ Rdfm.Server.updateStatus id status downloadUrl s.actionLogs := hr
  unfold Rdfm.Server.updateStatus at hr
  split at hr
  · exact hs.rows r hr
  · rcases mem_updateWhere.mp hr with ⟨old, hold, rfl⟩
    split
    · exact hs.rows old hold
    · exact hs.rows old hold

theorem handleDeviceMessage (env : MessageEnv) (conn : Connection) (request : PyRequest) :
    (s.handleDeviceMessage env conn request).1.Consistent := by
  cases request with
  | actionExecResult executionId statusCode output =>
    change (s.executeActionResult env executionId statusCode output).1.Consistent
    unfold executeActionResult
    cases he : s.actionExecutions executionId with
    | none => exact hs
    | some e =>
      have hmade := hs.executions _ _ he
      have hset := hs.setExecution (e := { e with
        statusCode := some statusCode, output := some output, executionCompleted := true }) hmade
      dsimp only
      split
      · exact hset
      · next downloadUrl _ => exact hset.updateStatus executionId (.result statusCode) downloadUrl
  | actionExecControl executionId status =>
    change (s.executeActionControl executionId status).1.Consistent
    unfold executeActionControl
    cases he : s.actionExecutions executionId with
    | none => exact hs
    | some e =>
      have hmade := hs.executions _ _ he
      exact hs.setExecution hmade
  | fsFileDownloadReply id status etags =>
    change (s.filesystemReply id _).1.Consistent
    unfold filesystemReply
    split <;> exact ⟨hs.rows, hs.executions⟩
  | fsFileProbeReply id status size =>
    change (s.filesystemReply id _).1.Consistent
    unfold filesystemReply
    split <;> exact ⟨hs.rows, hs.executions⟩
  | updateProgress progress =>
    change (s.handleUpdateProgress env conn progress).1.Consistent
    unfold handleUpdateProgress
    dsimp only
    split
    · split <;> exact ⟨hs.rows, hs.executions⟩
    · exact hs
  | updateVersion version =>
    change (s.handleUpdateVersion env conn.deviceId version).1.Consistent
    unfold handleUpdateVersion
    dsimp only
    split <;> exact ⟨hs.rows, hs.executions⟩
  | _ => exact ⟨hs.rows, hs.executions⟩

/-- A new row and its execution are made for one device. -/
theorem execute {id : String} (actionId mac : String) (hid : s.made id = none) :
    ({ s with
      actionLogs := s.actionLogs ++ [⟨id, actionId, mac, .pending, none⟩]
      made := Function.update s.made id (some mac) } : ManagementServer).Consistent := by
  have hkept {id' mac' : String} (h : s.made id' = some mac') :
      Function.update s.made id (some mac) id' = some mac' := by
    have hne : id' ≠ id := by
      rintro rfl
      rw [hid] at h
      cases h
    rwa [Function.update_of_ne hne]
  refine ⟨fun r hr => ?_, fun id' e he => hkept (hs.executions id' e he)⟩
  rcases List.mem_append.mp hr with hr | hr
  · exact hkept (hs.rows r hr)
  · rw [List.mem_singleton.mp hr]
    exact Function.update_self ..

theorem step (e : ManagementEvent) : (s.step e).Consistent := by
  cases e with
  | message c request env =>
    change (s.receive c request env).Consistent
    unfold receive
    split
    · exact hs
    · next conn _ =>
      have h := hs.handleDeviceMessage env conn request
      exact ⟨h.rows, h.executions⟩
  | execute id actionId mac =>
    unfold ManagementServer.step
    dsimp only
    split
    · exact hs
    · next hid => exact hs.execute actionId mac hid
  | track id =>
    unfold ManagementServer.step
    dsimp only
    split
    · exact hs
    · next mac hmac => exact hs.setExecution hmac
  | untrack id => exact hs.setExecution_none id
  | setStatus id status => exact hs.updateStatus id status none
  | deleteLogs d => exact ⟨fun r hr => hs.rows r (List.mem_of_mem_filter hr), hs.executions⟩
  | _ => exact ⟨hs.rows, hs.executions⟩

end Consistent

end ManagementServer

/-- In a run in which every message names only executions and operations that were made for its
sender, no message changes anything that belongs to another device. -/
theorem management_confined (s : ManagementServer) (hs : s.Consistent)
    (events : List ManagementEvent)
    (hown : Along ManagementServer.step ManagementServer.NamesOwn s events) :
    Along ManagementServer.step ManagementServer.Confined s events := by
  refine Along.of_invariant (fun s e (hs : s.Consistent) hown => ⟨hs.step e, ?_⟩) hs hown
  cases e with
  | message c request env =>
    intro conn hconn
    have h := hs.handleDeviceMessage_sameForOthers env (hown conn hconn)
    change ManagementServer.SameForOthers conn.deviceId s (s.receive c request env)
    unfold ManagementServer.receive
    rw [hconn]
    exact ⟨h.executions, h.operations, h.actionLogs, h.deviceUpdates, h.devices⟩
  | _ => trivial

namespace ManagementRun

/-- No device has connected yet. -/
def start : ManagementServer where
  devices := []
  actionLogs := []
  deviceUpdates := []
  actionExecutions _ := none
  filesystemOperations _ := none
  connections _ := none
  made _ := none

def env : MessageEnv := ⟨fun _ _ => some none, true, 0⟩

/-- Two devices are connected; the second is sent an action and asked for a file. -/
def twoDevices : List ManagementEvent :=
  [.connect 0 "a", .connect 1 "b", .execute "execution" "reboot" "b", .track "execution",
    .operate "operation" "b"]

/-- The second device answers. -/
def answers : List ManagementEvent :=
  [.message 1 (.actionExecControl "execution" "ok") env,
    .message 1 (.actionExecResult "execution" 0 "") env,
    .message 1 (.fsFileProbeReply "operation" 0 1024) env]

end ManagementRun

open ManagementRun in
theorem management_confined_answers :
    Along ManagementServer.step ManagementServer.Confined start (twoDevices ++ answers) := by
  refine management_confined start ⟨nofun, nofun⟩ _ ?_
  refine ⟨trivial, trivial, trivial, trivial, trivial, ?_, ?_, ?_, trivial⟩
  · intro conn hconn e he
    cases hconn
    cases he
    rfl
  · intro conn hconn e he
    cases hconn
    cases he
    rfl
  · intro conn hconn o ho
    cases hconn
    cases ho
    rfl

open ManagementRun in
/-- The first device sends the result of the second device's action, and answers for its file. -/
theorem result_for_another :
    ¬ (twoDevices.foldl ManagementServer.step start).Confined
        (.message 0 (.actionExecResult "execution" 0 "") env) ∧
      ¬ (twoDevices.foldl ManagementServer.step start).Confined
        (.message 0 (.fsFileProbeReply "operation" 0 1024) env) := by
  constructor
  · intro h
    have hlogs := (h _ rfl).actionLogs
    have hrow : ([⟨"execution", "reboot", "b", .result 0, none⟩] : List ActionLog) =
        [⟨"execution", "reboot", "b", .pending, none⟩] := hlogs
    simp at hrow
  · intro h
    have hoperation := ((h _ rfl).operations "operation" ⟨"b", none, false⟩ (by simp)).mpr rfl
    cases hoperation

end Rdfm.Server
