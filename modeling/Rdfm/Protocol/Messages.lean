import Mathlib.Tactic.Common

/-!
# The messages of the management protocol

The Go structs of the Linux client and the Python request models of the server, with the JSON that
goes between them. Texts of JSON and their values are not told apart: both ends read and write JSON
as it is specified. A Go string is any sequence of bytes, and the encoder replaces what is not
UTF-8; a nil slice is written as null. A floating-point number is given by the decimal that stands
for it.
-/

namespace Rdfm.Protocol

/-! ## JSON -/

/-- A number with a fraction or an exponent, as it is written. -/
structure Decimal where
  mantissa : Int
  exponent : Int
deriving DecidableEq, Repr

inductive Json where
  | null
  | bool (b : Bool)
  | int (n : Int)
  | float (d : Decimal)
  | str (s : String)
  | arr (items : List Json)
  | obj (fields : List (String × Json))

abbrev Fields := List (String × Json)

/-! ## The Linux client -/

abbrev GoString := List UInt8

/-- The text that a string is, if it is UTF-8. -/
def goText (b : GoString) : Option String := String.fromUTF8? ⟨b.toArray⟩

def goLit (s : String) : GoString := s.toUTF8.data.toList

/-- An `int` or `int64`. -/
structure GoInt where
  val : Int
  lower : -9223372036854775808 ≤ val
  upper : val < 9223372036854775808
deriving DecidableEq

/-- The timeout is the decimal that the encoder writes for it; with exponent zero it has neither
fraction nor exponent. -/
structure GoAction where
  actionId : GoString
  actionName : GoString
  description : GoString
  command : Option (List GoString)
  timeout : Decimal
deriving DecidableEq

/-- What the client sends. A slice is `none` if it is nil. -/
inductive GoMessage where
  | alert (alert : List (String × String))
  | capabilityReport (capabilities : List (String × Bool))
  | actionExecResult (executionId : GoString) (statusCode : GoInt) (output : GoString)
  | actionExecControl (executionId status : GoString)
  | actionListUpdate (actions : Option (List GoAction))
  | fsFileDownloadReply (id : GoString) (status : GoInt) (etags : Option (List GoString))
  | fsFileProbeReply (id : GoString) (status size : GoInt)
  | updateProgress (progress : GoInt)
  | updateVersion (version : GoString)
deriving DecidableEq

/-- What the client makes of a message from the server. The strings that the decoder gives are
UTF-8. -/
inductive GoRequest where
  | alert (alert : Fields)
  | deviceAttachToManager (macAddr uuid : String)
  | actionExec (executionId actionId : String)
  | actionListQuery
  | fsFileDownload (id file : String) (uploadUrls : Option (List String)) (partSize : GoInt)
  | fsFileProbe (id file : String)

section Encode

-- What the encoder makes of a string that is not UTF-8.
variable (replace : GoString → String)

/-- The text that is written for a string. -/
def encodeString (b : GoString) : Json :=
  match goText b with
  | some s => .str s
  | none => .str (replace b)

/-- A slice of strings. -/
def encodeStrings : Option (List GoString) → Json
  | none => .null
  | some l => .arr (l.map (encodeString replace))

def encodeFloat (d : Decimal) : Json := if d.exponent = 0 then .int d.mantissa else .float d

def GoAction.encode (a : GoAction) : Json :=
  .obj [("action_id", encodeString replace a.actionId),
    ("action_name", encodeString replace a.actionName),
    ("description", encodeString replace a.description),
    ("command", encodeStrings replace a.command), ("timeout", encodeFloat a.timeout)]

/-- `json.Marshal` of the client's structs and maps. -/
def GoMessage.encode : GoMessage → Fields
  | .alert entries =>
    [("method", .str "alert"), ("alert", .obj (entries.map fun (k, v) => (k, .str v)))]
  | .capabilityReport capabilities =>
    [("capabilities", .obj (capabilities.map fun (k, v) => (k, .bool v))),
      ("method", .str "capability_report")]
  | .actionExecResult executionId statusCode output =>
    [("method", .str "action_exec_result"), ("execution_id", encodeString replace executionId),
      ("status_code", .int statusCode.val), ("output", encodeString replace output)]
  | .actionExecControl executionId status =>
    [("method", .str "action_exec_control"), ("execution_id", encodeString replace executionId),
      ("status", encodeString replace status)]
  | .actionListUpdate actions =>
    [("method", .str "action_list_update"),
      ("actions", match actions with
        | none => .null
        | some l => .arr (l.map (GoAction.encode replace)))]
  | .fsFileDownloadReply id status etags =>
    [("method", .str "fs_file_download_reply"), ("id", encodeString replace id),
      ("status", .int status.val), ("etags", encodeStrings replace etags)]
  | .fsFileProbeReply id status size =>
    [("method", .str "fs_file_probe_reply"), ("id", encodeString replace id),
      ("status", .int status.val), ("size", .int size.val)]
  | .updateProgress progress =>
    [("method", .str "update_progress"), ("progress", .int progress.val)]
  | .updateVersion version =>
    [("method", .str "update_version"), ("version", encodeString replace version)]

end Encode

/-! ### What the client receives -/

def goNat (n : Nat) (h : (n : Int) < 9223372036854775808) : GoInt :=
  ⟨n, Int.le_trans (by decide) (Int.natCast_nonneg n), h⟩

/-- The number, if it fits. -/
def goInt (n : Int) : Option GoInt :=
  if h : -9223372036854775808 ≤ n ∧ n < 9223372036854775808 then some ⟨n, h.1, h.2⟩ else none

def goZero : GoInt := goNat 0 (by decide)

def goOne : GoInt := goNat 1 (by decide)

/-- A `string` field: absent and null leave it empty. -/
def unmarshalString (fields : Fields) (key : String) : Option String :=
  match fields.lookup key with
  | none => some ""
  | some .null => some ""
  | some (.str s) => some s
  | some _ => none

def unmarshalItem : Json → Option String
  | .null => some ""
  | .str s => some s
  | _ => none

/-- A `[]string` field. -/
def unmarshalStrings (fields : Fields) (key : String) : Option (Option (List String)) :=
  match fields.lookup key with
  | none => some none
  | some .null => some none
  | some (.arr items) => (items.mapM unmarshalItem).map some
  | some _ => none

/-- An `int64` field: a number that does not fit is an error. -/
def unmarshalInt (fields : Fields) (key : String) : Option GoInt :=
  match fields.lookup key with
  | none => some goZero
  | some .null => some goZero
  | some (.int n) => goInt n
  | some _ => none

/-- A `map[string]interface{}` field. -/
def unmarshalMap (fields : Fields) (key : String) : Option Fields :=
  match fields.lookup key with
  | none => some []
  | some .null => some []
  | some (.obj entries) => some entries
  | some _ => none

/-- `serverws.Parse`, where `find` is the look-up of the method: `none` for an error, and no request
for a method that it does not know. -/
def parse (find : Fields → Option Json) (fields : Fields) : Option (Option GoRequest) :=
  match find fields with
  | some (.str method) =>
    if method = "alert" then do
      some (some (.alert (← unmarshalMap fields "alert")))
    else if method = "shell_attach" then do
      some (some (.deviceAttachToManager (← unmarshalString fields "mac_addr")
        (← unmarshalString fields "uuid")))
    else if method = "action_exec" then do
      some (some (.actionExec (← unmarshalString fields "execution_id")
        (← unmarshalString fields "action_id")))
    else if method = "action_list_query" then some (some .actionListQuery)
    else if method = "fs_file_download" then do
      some (some (.fsFileDownload (← unmarshalString fields "id") (← unmarshalString fields "file")
        (← unmarshalStrings fields "upload_urls") (← unmarshalInt fields "part_size")))
    else if method = "fs_file_probe" then do
      some (some (.fsFileProbe (← unmarshalString fields "id") (← unmarshalString fields "file")))
    else some none
  | _ => some none

/-! ### The actions of the client -/

/-- An entry of the actions file. The command is absent or null if it is `none`. -/
structure CommandActionConfiguration where
  id : String
  name : String
  command : Option (List String)
  description : String
  timeout : Decimal
deriving DecidableEq

inductive RunnerAction where
  | commandAction (id name description : GoString) (command : Option (List GoString))
      (timeout : Decimal)
  | callbackAction (id name description : GoString)
deriving DecidableEq

def newCommandAction (cfg : CommandActionConfiguration) : RunnerAction :=
  .commandAction (goLit cfg.id) (goLit cfg.name) (goLit cfg.description)
    (cfg.command.map (List.map goLit)) cfg.timeout

def RunnerAction.getId : RunnerAction → GoString
  | .commandAction id _ _ _ _ => id
  | .callbackAction id _ _ => id

abbrev ActionMap := List (GoString × RunnerAction)

def registerAction (actionMap : ActionMap) (action : RunnerAction) : ActionMap :=
  (action.getId, action) :: actionMap.filter fun entry => entry.1 ≠ action.getId

def rebuildActionMap (configured : List CommandActionConfiguration) : ActionMap :=
  configured.foldl (fun actionMap cfg => registerAction actionMap (newCommandAction cfg)) []

/-- The built-in action that the daemon registers. -/
def updateAction : RunnerAction :=
  .callbackAction (goLit "rdfm.builtins.trigger_update_check") (goLit "Check updates")
    (goLit "Check for updates")

/-- The actions that the daemon's runner holds. -/
def daemonActions (configured : List CommandActionConfiguration) : List RunnerAction :=
  (registerAction (rebuildActionMap configured) updateAction).map Prod.snd

/-- The entry of an action list for one action. -/
def RunnerAction.toRequest : RunnerAction → GoAction
  | .commandAction id name description command timeout => ⟨id, name, description, command, timeout⟩
  | .callbackAction id name description => ⟨id, name, description, some [], ⟨0, 0⟩⟩

/-! ### What the client sends -/

/-- What becomes of one part of a file download. -/
inductive PartEnd where
  | readError
  /-- The request cannot be made, or the upload fails. -/
  | putError
  | uploaded (etag : GoString)
deriving DecidableEq

/-- What the handling of a request meets on the device. -/
structure Surroundings where
  configured : List CommandActionConfiguration
  /-- The order in which the map of the actions is gone through. -/
  listed : List RunnerAction
  listed_perm : listed.Perm (daemonActions configured)
  /-- Whether the runner queues the execution. -/
  queued : Bool
  /-- Whether the file is in a directory that is shared. -/
  allowed : Bool
  opened : Bool
  statted : Bool
  size : GoInt
  part : Nat → PartEnd

/-- `append` to a slice. -/
def appendSlice {α : Type} (slice : Option (List α)) (a : α) : Option (List α) :=
  some (slice.getD [] ++ [a])

/-- The loop over the upload URLs, of which `i` are done: whether it got to its end, and the tags;
`none` if a part cannot be uploaded, after which nothing is sent. -/
def uploadParts (part : Nat → PartEnd) :
    Nat → List String → Option (List GoString) → Option (Bool × Option (List GoString))
  | _, [], etags => some (true, etags)
  | i, _ :: urls, etags =>
    match part i with
    | .readError => some (false, etags)
    | .putError => none
    | .uploaded etag => uploadParts part (i + 1) urls (appendSlice etags etag)

def cantHandleRequest : GoMessage := .alert [("error", "Device cannot handle request")]

/-- The response of `handleRequest`, if there is one. -/
def handleRequest (env : Surroundings) : Option GoRequest → Option GoMessage
  | some (.alert _) => none
  | some (.actionExec executionId _) =>
    some (.actionExecControl (goLit executionId) (goLit (if env.queued then "ok" else "full")))
  | some .actionListQuery =>
    some (.actionListUpdate (env.listed.foldl (fun slice a => appendSlice slice a.toRequest) none))
  | some (.deviceAttachToManager _ _) => none
  | some (.fsFileDownload id _ uploadUrls _) =>
    if !env.allowed || !env.opened then some (.fsFileDownloadReply (goLit id) goOne none)
    else
      match uploadParts env.part 0 (uploadUrls.getD []) none with
      | none => none
      | some (completed, etags) =>
        some (.fsFileDownloadReply (goLit id) (if completed then goZero else goOne) etags)
  | some (.fsFileProbe id _) =>
    if !env.allowed || !env.opened || !env.statted then
      some (.fsFileProbeReply (goLit id) goOne goZero)
    else some (.fsFileProbeReply (goLit id) goZero env.size)
  | none => some cantHandleRequest

def base64Char (n : Nat) : Char :=
  "ABCDEFGHIJKLMNOPQRSTUVWXYZabcdefghijklmnopqrstuvwxyz0123456789+/".toList.getD n 'A'

/-- `EncodeToString` of the standard encoding. -/
def base64Chars : List UInt8 → List Char
  | [] => []
  | [a] => [base64Char (a.toNat / 4), base64Char (a.toNat % 4 * 16), '=', '=']
  | [a, b] =>
    [base64Char (a.toNat / 4), base64Char (a.toNat % 4 * 16 + b.toNat / 16),
      base64Char (b.toNat % 16 * 4), '=']
  | a :: b :: c :: rest =>
    base64Char (a.toNat / 4) :: base64Char (a.toNat % 4 * 16 + b.toNat / 16) ::
      base64Char (b.toNat % 16 * 4 + c.toNat / 64) :: base64Char (c.toNat % 64) :: base64Chars rest

/-- The occasions on which the client sends a message. -/
inductive Emission where
  | announceCapabilities (action shell filesystem progressEnabled : Bool)
  /-- A message from the server is handled. -/
  | reply (fields : Fields) (env : Surroundings)
  /-- The result of an action, with the bytes that it wrote. -/
  | actionResult (executionId : String) (statusCode : GoInt) (output : List UInt8)
  | sendUpdateProgress (progress : GoInt)
  | updateSoftwareVersion (version : GoString)

/-- The message that is sent, if any. -/
def Emission.message (find : Fields → Option Json) : Emission → Option GoMessage
  | .announceCapabilities action shell filesystem progressEnabled =>
    some (.capabilityReport [("action", action), ("filesystem", filesystem), ("shell", shell),
      ("update-progress", progressEnabled)])
  | .reply fields env => (parse find fields).bind (handleRequest env)
  | .actionResult executionId statusCode output =>
    some (.actionExecResult (goLit executionId) statusCode
      (goLit (String.ofList (base64Chars output))))
  | .sendUpdateProgress progress => some (.updateProgress progress)
  | .updateSoftwareVersion version => some (.updateVersion version)

/-! ## The server -/

structure PyAction where
  actionId : String
  actionName : String
  description : String
  command : List String
  timeout : Decimal
deriving DecidableEq, Repr

/-- The members of the union in `Container`. -/
inductive PyRequest where
  | alert (alert : Fields)
  | capabilityReport (capabilities : List (String × Bool))
  | deviceAttachToManager (macAddr uuid : String)
  | actionExecResult (executionId : String) (statusCode : Int) (output : String)
  | actionListUpdate (actions : List PyAction)
  | actionExecControl (executionId status : String)
  | action (action : PyAction)
  | fsFileDownload (id file : String) (uploadUrls : List String) (partSize : Int)
  | fsFileDownloadReply (id : String) (status : Int) (etags : List String)
  | fsFileProbe (id file : String)
  | fsFileProbeReply (id : String) (status size : Int)
  | updateProgress (progress : Int)
  | updateVersion (version : String)

/-! ### What the server receives

Of the conversions that pydantic makes, those of a string or a boolean to a number are left out: in
no message does one stand in the place of a number. -/

def validateStr : Json → Option String
  | .str s => some s
  | _ => none

def validateInt : Json → Option Int
  | .int n => some n
  | .float d =>
    if 0 ≤ d.exponent then some (d.mantissa * Nat.pow 10 d.exponent.toNat)
    else if d.mantissa % Nat.pow 10 (-d.exponent).toNat = 0 then
      some (d.mantissa / Nat.pow 10 (-d.exponent).toNat)
    else none
  | _ => none

def validateFloat : Json → Option Decimal
  | .int n => some ⟨n, 0⟩
  | .float d => some d
  | _ => none

def validateBool : Json → Option Bool
  | .bool b => some b
  | _ => none

def validateList {α : Type} (validate : Json → Option α) : Json → Option (List α)
  | .arr items => items.mapM validate
  | _ => none

def validateDict {α : Type} (validate : Json → Option α) : Json → Option (List (String × α))
  | .obj fields => fields.mapM fun (k, v) => (validate v).map (k, ·)
  | _ => none

def validateAnyDict : Json → Option Fields
  | .obj fields => some fields
  | _ => none

/-- A field without a default. -/
def required {α : Type} (fields : Fields) (key : String) (validate : Json → Option α) : Option α :=
  (fields.lookup key).bind validate

def validateAction (fields : Fields) : Option PyAction := do
  some ⟨← required fields "action_id" validateStr, ← required fields "action_name" validateStr,
    ← required fields "description" validateStr,
    ← required fields "command" (validateList validateStr),
    ← required fields "timeout" validateFloat⟩

def validateActionItem : Json → Option PyAction
  | .obj fields => validateAction fields
  | _ => none

/-- A model: the literal of its method, if it has one, and its other fields. -/
structure Model where
  method : Option String
  validate : Fields → Option PyRequest

/-- The method is a literal with a default. -/
def Model.accept (model : Model) (fields : Fields) : Option PyRequest :=
  match model.method, fields.lookup "method" with
  | none, _ => model.validate fields
  | some _, none => model.validate fields
  | some literal, some (.str method) => if method = literal then model.validate fields else none
  | some _, some _ => none

/-- The models of `Container`, in their order. -/
def models : List Model :=
  [⟨"alert", fun fields => do some (.alert (← required fields "alert" validateAnyDict))⟩,
    ⟨"capability_report", fun fields => do
      some (.capabilityReport (← required fields "capabilities" (validateDict validateBool)))⟩,
    ⟨"shell_attach", fun fields => do
      some (.deviceAttachToManager (← required fields "mac_addr" validateStr)
        (← required fields "uuid" validateStr))⟩,
    ⟨"action_exec_result", fun fields => do
      some (.actionExecResult (← required fields "execution_id" validateStr)
        (← required fields "status_code" validateInt) (← required fields "output" validateStr))⟩,
    ⟨"action_list_update", fun fields => do
      some (.actionListUpdate (← required fields "actions" (validateList validateActionItem)))⟩,
    ⟨"action_exec_control", fun fields => do
      some (.actionExecControl (← required fields "execution_id" validateStr)
        (← required fields "status" validateStr))⟩,
    ⟨none, fun fields => do some (.action (← validateAction fields))⟩,
    ⟨"fs_file_download", fun fields => do
      some (.fsFileDownload (← required fields "id" validateStr)
        (← required fields "file" validateStr)
        (← required fields "upload_urls" (validateList validateStr))
        (← required fields "part_size" validateInt))⟩,
    ⟨"fs_file_download_reply", fun fields => do
      some (.fsFileDownloadReply (← required fields "id" validateStr)
        (← required fields "status" validateInt)
        (← required fields "etags" (validateList validateStr)))⟩,
    ⟨"fs_file_probe", fun fields => do
      some (.fsFileProbe (← required fields "id" validateStr)
        (← required fields "file" validateStr))⟩,
    ⟨"fs_file_probe_reply", fun fields => do
      some (.fsFileProbeReply (← required fields "id" validateStr)
        (← required fields "status" validateInt) (← required fields "size" validateInt))⟩,
    ⟨"update_progress", fun fields => do
      some (.updateProgress (← required fields "progress" validateInt))⟩,
    ⟨"update_version", fun fields => do
      some (.updateVersion (← required fields "version" validateStr))⟩]

/-- The models that accept an object. -/
def accepting (fields : Fields) : List PyRequest :=
  models.filterMap fun model => model.accept fields

/-- `decode_json` of an object. Which model the union takes of several is left open: no message has
more than one. -/
def decodeJson (fields : Fields) : Option PyRequest :=
  match accepting fields with
  | [request] => some request
  | _ => none

/-- The ids that the server waits for. -/
structure Waiting where
  executions : List String
  filesystemOperations : List String

/-- `__handle_device_message`, with the text of the exception. -/
def handleDeviceMessage (waiting : Waiting) : PyRequest → Except String Unit
  | .capabilityReport _ => .ok ()
  | .actionExecResult executionId _ _ =>
    if executionId ∈ waiting.executions then .ok ()
    else .error ("Invalid execution " ++ executionId)
  | .actionExecControl executionId _ =>
    if executionId ∈ waiting.executions then .ok ()
    else .error ("Invalid execution " ++ executionId)
  | .actionListUpdate _ => .ok ()
  | .fsFileDownloadReply id _ _ =>
    if id ∈ waiting.filesystemOperations then .ok () else .error "invalid filesystem response"
  | .fsFileProbeReply id _ _ =>
    if id ∈ waiting.filesystemOperations then .ok () else .error "invalid filesystem response"
  | .updateProgress _ => .ok ()
  | .updateVersion _ => .ok ()
  | _ => .error "invalid request"

/-! ### What the server sends -/

def intDivCeil (a b : Int) : Int := (a + b - 1) / b

/-- `upload_part_count`: the number and the size of the parts; `none` if the file is too large. -/
def uploadPartCount (uploadSize desiredPartSize : Int) : Option (Int × Int) :=
  let minPartSize : Int := 5 * 1048576
  let maxPartSize : Int := 5 * 1073741824
  let maxPartCount : Int := 10000
  let maxUploadSize : Int := 5 * 1099511627776
  let desiredPartSize := if desiredPartSize < minPartSize then minPartSize else desiredPartSize
  let desiredPartSize := if desiredPartSize > maxPartSize then maxPartSize else desiredPartSize
  if uploadSize > maxUploadSize then none
  else if uploadSize ≤ desiredPartSize then some (1, uploadSize)
  else if intDivCeil uploadSize desiredPartSize ≤ maxPartCount then
    some (intDivCeil uploadSize desiredPartSize, desiredPartSize)
  else some (maxPartCount, intDivCeil uploadSize maxPartCount)

/-- The part size that both storage drivers ask for. -/
def desiredPartSize : Int := 10 * 1048576

/-- The requests that the server sends. -/
inductive ServerRequest where
  | alert (alert : Fields)
  | deviceAttachToManager (macAddr uuid : String)
  | actionExec (executionId actionId : String)
  | actionListQuery
  | fsFileDownload (id file : String) (uploadUrls : List String) (partSize : Int)
  | fsFileProbe (id file : String)

/-- The JSON of a request. -/
def ServerRequest.json : ServerRequest → Fields
  | .alert entries => [("method", .str "alert"), ("alert", .obj entries)]
  | .deviceAttachToManager macAddr uuid =>
    [("method", .str "shell_attach"), ("mac_addr", .str macAddr), ("uuid", .str uuid)]
  | .actionExec executionId actionId =>
    [("method", .str "action_exec"), ("execution_id", .str executionId),
      ("action_id", .str actionId)]
  | .actionListQuery => [("method", .str "action_list_query")]
  | .fsFileDownload id file uploadUrls partSize =>
    [("method", .str "fs_file_download"), ("id", .str id), ("file", .str file),
      ("upload_urls", .arr (uploadUrls.map .str)), ("part_size", .int partSize)]
  | .fsFileProbe id file => [("method", .str "fs_file_probe"), ("id", .str id), ("file", .str file)]

/-- The occasions on which the server sends a request. The size of a download is the one that the
device has reported. -/
inductive ServerSend where
  | connected
  | attachShell (macAddress uuid : String)
  | executeAction (executionId actionId : String)
  | ensureActions
  | getFileSize (id file : String)
  | prepareDownload (id file : String) (uploadUrls : List String) (fileSize : GoInt)

/-- The request that is sent, if any. -/
def ServerSend.request : ServerSend → Option ServerRequest
  | .connected => some (.alert [("message", .str "connected")])
  | .attachShell macAddress uuid => some (.deviceAttachToManager macAddress uuid)
  | .executeAction executionId actionId => some (.actionExec executionId actionId)
  | .ensureActions => some .actionListQuery
  | .getFileSize id file => some (.fsFileProbe id file)
  | .prepareDownload id file uploadUrls fileSize =>
    if fileSize.val = 0 then none
    else do
      let (_, partSize) ← uploadPartCount fileSize.val desiredPartSize
      some (.fsFileDownload id file uploadUrls partSize)

end Rdfm.Protocol
