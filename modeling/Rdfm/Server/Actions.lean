import Mathlib.Logic.Function.Basic
import Rdfm.Lib.Rows
import Rdfm.Lib.Transition

/-!
# Action executions

`execute_action` of a request handler, `send_action_queue` of the thread that a connection starts, and
the receivers of a device's messages work on the table `action_logs` and on the container of
executions, side by side. A step is what one of them does up to its next statement, message or wait.

Connections are not part of the state: a device may be found or not, and each message may be sent or
fail, whenever it is looked up or sent. Each connection starts a queue thread and has a receiver.
-/

namespace Rdfm.Server

open Rdfm.Lib

/-! ## The table -/

inductive LogStatus where
  | pending
  | sent
  /-- The status code of a result. -/
  | result (code : Int)
  | error
deriving DecidableEq, Repr

structure ActionLog where
  id : String
  actionId : String
  macAddress : String
  status : LogStatus
  downloadUrl : Option String
deriving DecidableEq, Repr

/-- `fetch_device_queue`; the rows are in the order of their creation. -/
def fetchDeviceQueue (macAddress : String) (rows : List ActionLog) : List ActionLog :=
  rows.filter fun r => r.macAddress = macAddress ∧ r.status = .pending

/-- `update_status`. Before it stores `sent`, it compares `pending` with the statement that would
select the old status, which never is that string. -/
def updateStatus (id : String) (status : LogStatus) (downloadUrl : Option String)
    (rows : List ActionLog) : List ActionLog :=
  if status = .sent then rows
  else updateWhere (fun r => r.id = id) (fun r => { r with status, downloadUrl }) rows

/-- `delete_device_log`, `delete_pending_actions` and `delete_selected_actions`. -/
inductive LogDeletion where
  | completed (macAddress : String)
  | pending (macAddress : String)
  | selected (macAddress : String) (ids : List String)
deriving DecidableEq, Repr

def LogDeletion.covers (r : ActionLog) : LogDeletion → Bool
  | .completed macAddress =>
    r.macAddress = macAddress ∧ (r.status = .result 0 ∨ r.status = .result (-1))
  | .pending macAddress => r.macAddress = macAddress ∧ r.status = .pending
  | .selected macAddress ids => r.macAddress = macAddress ∧ r.id ∈ ids

/-! ## The threads -/

/-- The status of an `action_exec_control` message. -/
inductive ControlStatus where
  | ok
  | full
  | other (text : String)
deriving DecidableEq, Repr

/-- Where an `execute_action` call is: it has stored its row, it is about to send, it waits for a
control message, it sleeps before it sends again, or it waits for the result. -/
inductive HandlerPhase where
  | ensuring
  | sending
  | awaiting
  | sleeping
  | queued
deriving DecidableEq, Repr

/-- An `execute_action` call, with its `ActionExecution`: the control messages put there, and whether
it is completed. -/
structure ActionHandler where
  phase : HandlerPhase
  executionControl : List ControlStatus
  executionCompleted : Bool
deriving DecidableEq, Repr

inductive QueuePhase where
  /-- Before the rows are fetched. -/
  | waiting
  /-- In the loop over the fetched rows, of which these are left. -/
  | running (rest : List ActionLog)
  /-- The execution of this row is added. -/
  | sending (action : ActionLog) (rest : List ActionLog)
deriving DecidableEq, Repr

/-- A `send_action_queue` call. -/
structure QueueThread where
  macAddress : String
  phase : QueuePhase
deriving DecidableEq, Repr

/-- The executions that the thread still may send. -/
def QueueThread.toSend (q : QueueThread) : List String :=
  match q.phase with
  | .waiting => []
  | .running rest => rest.map ActionLog.id
  | .sending action rest => action.id :: rest.map ActionLog.id

/-- A receiver in `execute_action_result`, before `update_status`. -/
structure ResultStore where
  executionId : String
  statusCode : Int
  downloadUrl : Option String
deriving DecidableEq, Repr

/-- Whose `ActionExecution` is in the container. Nobody waits at one of a queue thread. -/
inductive ExecutionOwner where
  | handler
  | queue
deriving DecidableEq, Repr

structure ActionServer where
  rows : List ActionLog
  /-- `ActionExecutions`. -/
  actionExecutions : String → Option ExecutionOwner
  /-- The `execute_action` calls, by the execution they made. -/
  handlers : String → Option ActionHandler
  queues : Nat → Option QueueThread
  receivers : Nat → Option ResultStore
  /-- The executions for which an `ok` was taken in. -/
  acknowledged : List String

/-- What becomes of the output of a result: there is none, it is not stored, it gets a link, or
decoding or storing it raises. -/
inductive OutputEnd where
  | empty
  | notStored
  | linked (url : String)
  | raises
deriving DecidableEq, Repr

def OutputEnd.downloadUrl : OutputEnd → Option String
  | .linked url => some url
  | _ => none

/-! ## Steps -/

inductive HandlerEvent where
  /-- The device is not connected, or does not list its actions in time. -/
  | refuse
  | unknownAction
  | add
  | send
  | sendFails
  | control
  /-- No control message in time. -/
  | timeout
  | wake
  | complete
  /-- No result in time. -/
  | expire
deriving DecidableEq, Repr

inductive QueueEvent where
  | refuse
  | fetch
  /-- The device does not know the action. -/
  | skip
  | add
  | send
  | sendFails
  | finish
deriving DecidableEq, Repr

inductive ActionEvent where
  | execute (id actionId macAddress : String)
  | handler (id : String) (e : HandlerEvent)
  /-- A device connects, and its thread starts. -/
  | connect (t : Nat) (macAddress : String)
  | queue (t : Nat) (e : QueueEvent)
  /-- `execute_action_control` in receiver `c`. -/
  | control (c : Nat) (id : String) (status : ControlStatus)
  /-- `execute_action_result` in receiver `c`, up to its `update_status`. -/
  | result (c : Nat) (id : String) (code : Int) (output : OutputEnd)
  | store (c : Nat)
  | delete (d : LogDeletion)
deriving DecidableEq, Repr

/-- What can be seen of a step. -/
inductive ActionOutput where
  | quiet
  /-- An execution is added to the container. -/
  | entered (id : String)
  /-- `ActionExec` is sent. -/
  | sent (id : String)
  /-- An `execute_action` call ends, and its `finally` removes the execution. -/
  | ended (id : String)
  /-- `WebSocketException` in a receiver, which closes the connection. -/
  | raised
  /-- Another exception in a receiver. -/
  | crashed
deriving DecidableEq, Repr

namespace ActionServer

def init : ActionServer := ⟨[], fun _ => none, fun _ => none, fun _ => none, fun _ => none, []⟩

variable (s : ActionServer)

def setHandler (id : String) (h : Option ActionHandler) : ActionServer :=
  { s with handlers := Function.update s.handlers id h }

def setQueue (t : Nat) (q : Option QueueThread) : ActionServer :=
  { s with queues := Function.update s.queues t q }

def setReceiver (c : Nat) (p : Option ResultStore) : ActionServer :=
  { s with receivers := Function.update s.receivers c p }

def setExecution (id : String) (owner : Option ExecutionOwner) : ActionServer :=
  { s with actionExecutions := Function.update s.actionExecutions id owner }

def setStatus (id : String) (status : LogStatus) (downloadUrl : Option String) : ActionServer :=
  { s with rows := updateStatus id status downloadUrl s.rows }

/-- The end of an `execute_action` call in its `finally` block. -/
def finish (id : String) : ActionServer := (s.setHandler id none).setExecution id none

/-- A step of an `execute_action` call. -/
def handlerStep (id : String) (h : ActionHandler) : HandlerEvent → Option (ActionServer × ActionOutput)
  | .refuse => if h.phase = .ensuring then some (s.setHandler id none, .quiet) else none
  | .unknownAction =>
    if h.phase = .ensuring then some ((s.setHandler id none).setStatus id .error none, .quiet) else none
  | .add =>
    if h.phase = .ensuring then
      some ((s.setHandler id (some { h with phase := .sending })).setExecution id (some .handler),
        .entered id)
    else none
  | .send =>
    if h.phase = .sending then some (s.setHandler id (some { h with phase := .awaiting }), .sent id)
    else none
  | .sendFails => if h.phase = .sending then some (s.finish id, .ended id) else none
  | .control =>
    if h.phase = .awaiting then
      match h.executionControl with
      | [] => none
      | .ok :: rest =>
        some ((s.setHandler id (some { h with phase := .queued, executionControl := rest })).setStatus
          id .sent none, .quiet)
      | .full :: rest =>
        some (s.setHandler id (some { h with phase := .sleeping, executionControl := rest }), .quiet)
      | .other _ :: _ => some (s.finish id, .ended id)
    else none
  | .timeout =>
    if h.phase = .awaiting ∧ h.executionControl = [] then some (s.finish id, .ended id) else none
  | .wake =>
    if h.phase = .sleeping then some (s.setHandler id (some { h with phase := .sending }), .quiet)
    else none
  | .complete =>
    if h.phase = .queued ∧ h.executionCompleted = true then some (s.finish id, .ended id) else none
  | .expire =>
    if h.phase = .queued ∧ h.executionCompleted = false then some (s.finish id, .ended id) else none

/-- A step of a `send_action_queue` call. -/
def queueStep (t : Nat) (q : QueueThread) : QueueEvent → Option (ActionServer × ActionOutput)
  | .refuse => if q.phase = .waiting then some (s.setQueue t none, .quiet) else none
  | .fetch =>
    if q.phase = .waiting then
      some (s.setQueue t (some { q with phase := .running (fetchDeviceQueue q.macAddress s.rows) }),
        .quiet)
    else none
  | .skip =>
    match q.phase with
    | .running (action :: rest) =>
      some ((s.setQueue t (some { q with phase := .running rest })).setStatus action.id .error none,
        .quiet)
    | _ => none
  | .add =>
    match q.phase with
    | .running (action :: rest) =>
      some ((s.setQueue t (some { q with phase := .sending action rest })).setExecution action.id
        (some .queue), .entered action.id)
    | _ => none
  | .send =>
    match q.phase with
    | .sending action rest =>
      some (s.setQueue t (some { q with phase := .running rest }), .sent action.id)
    | _ => none
  | .sendFails =>
    match q.phase with
    | .sending _ _ => some (s.setQueue t none, .quiet)
    | _ => none
  | .finish => if q.phase = .running [] then some (s.setQueue t none, .quiet) else none

/-- A change of the handler at whose execution a message arrives, if it is a handler's. -/
def notify (id : String) (owner : ExecutionOwner) (f : ActionHandler → ActionHandler) : ActionServer :=
  if owner = .handler then s.setHandler id ((s.handlers id).map f) else s

/-- `execute_action_control`. -/
def executeActionControl (id : String) (status : ControlStatus) : ActionServer × ActionOutput :=
  match s.actionExecutions id with
  | none => (s, .raised)
  | some owner =>
    let s := s.notify id owner fun h => { h with executionControl := h.executionControl ++ [status] }
    (if status = .ok then { s with acknowledged := id :: s.acknowledged } else s, .quiet)

/-- `execute_action_result`, up to its `update_status`. -/
def executeActionResult (c : Nat) (id : String) (code : Int) (output : OutputEnd) :
    ActionServer × ActionOutput :=
  match s.actionExecutions id with
  | none => (s, .raised)
  | some owner =>
    let s := s.notify id owner fun h => { h with executionCompleted := true }
    if output = .raises then (s, .crashed)
    else (s.setReceiver c (some ⟨id, code, output.downloadUrl⟩), .quiet)

/-- One step; `none` if it is not possible. A new execution has an id that is in use nowhere. -/
def step : ActionEvent → Option (ActionServer × ActionOutput)
  | .execute id actionId macAddress =>
    if id ∉ s.rows.map ActionLog.id ∧ id ∉ s.acknowledged ∧ s.handlers id = none ∧
        s.actionExecutions id = none then
      some ({ s.setHandler id (some ⟨.ensuring, [], false⟩) with
        rows := s.rows ++ [⟨id, actionId, macAddress, .pending, none⟩] }, .quiet)
    else none
  | .handler id e =>
    match s.handlers id with
    | none => none
    | some h => s.handlerStep id h e
  | .connect t macAddress =>
    if s.queues t = none then some (s.setQueue t (some ⟨macAddress, .waiting⟩), .quiet) else none
  | .queue t e =>
    match s.queues t with
    | none => none
    | some q => s.queueStep t q e
  | .control c id status =>
    if s.receivers c = none then some (s.executeActionControl id status) else none
  | .result c id code output =>
    if s.receivers c = none then some (s.executeActionResult c id code output) else none
  | .store c =>
    match s.receivers c with
    | none => none
    | some p =>
      some ((s.setReceiver c none).setStatus p.executionId (.result p.statusCode) p.downloadUrl, .quiet)
  | .delete d => some ({ s with rows := s.rows.filter fun r => !d.covers r }, .quiet)

/-- The state after a step; one that is not possible changes nothing. -/
def next (e : ActionEvent) : ActionServer :=
  match s.step e with
  | none => s
  | some (s', _) => s'

end ActionServer

end Rdfm.Server
