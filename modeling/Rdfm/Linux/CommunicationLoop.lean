import Rdfm.Lib.Transition
import Rdfm.Protocol.Messages

/-!
# The communication loop of the Linux client

`communicationLoop` receives messages of the server, has each of them handled and sends the
response. An error of `handleRequest` ends the loop, and the goroutine that runs it then panics; some
requests end the process at once; and a file or a connection that does not answer keeps the loop. Two
requests leave work to other goroutines, which can end the process later: the execution of an action,
and a shell. So the client goes on along a run exactly if each message is harmless and so is each of
these tasks that comes to run (`communicationLoop_goes_on_iff`).

Here a message is any text. What the decoder makes of an object follows its rules: the name of a
field is matched in any case, a field that is there twice is decoded twice, and null leaves it as it
is.
-/

namespace Rdfm.Linux

open Rdfm.Lib Rdfm.Protocol

/-! ## Decoding -/

/-- The case folding of letters that fold to those of the field names. -/
def foldChar (c : Char) : Char :=
  if c = '\u212a' then 'k' else if c = '\u017f' then 's' else c.toLower

def foldName (s : String) : List Char := s.toList.map foldChar

/-- The values that an object has for a field of a struct, in their order. -/
def fieldValues (fields : Fields) (name : String) : List Json :=
  (fields.filter fun field => foldName field.1 = foldName name).map Prod.snd

/-- A field of a struct; `none` is an error. -/
def unmarshalField {α : Type} (decode : α → Json → Option α) (zero : α) (fields : Fields)
    (name : String) : Option α :=
  (fieldValues fields name).foldlM decode zero

def decodeString (old : String) : Json → Option String
  | .null => some old
  | .str s => some s
  | _ => none

def decodeInt (old : GoInt) : Json → Option GoInt
  | .null => some old
  | .int n => goInt n
  | _ => none

/-- The items of an array are decoded into those of the slice. -/
def decodeItems : List String → List Json → Option (List String)
  | _, [] => some []
  | old, item :: items => do
    let s ← decodeString (old.headD "") item
    let rest ← decodeItems old.tail items
    return s :: rest

def decodeStrings (old : Option (List String)) : Json → Option (Option (List String))
  | .null => some none
  | .arr items => (decodeItems (old.getD []) items).map some
  | _ => none

def decodeMap (old : Fields) : Json → Option Fields
  | .null => some []
  | .obj entries => some (old ++ entries)
  | _ => none

/-- `serverws.Parse`, where `find` is the look-up of the method: `none` for an error, and no request
for a method that it does not know. -/
def parse (find : Fields → Option Json) (fields : Fields) : Option (Option GoRequest) :=
  let string := unmarshalField decodeString "" fields
  match find fields with
  | some (.str method) =>
    if method = "alert" then do
      let _ ← string "method"
      some (some (.alert (← unmarshalField decodeMap [] fields "alert")))
    else if method = "shell_attach" then do
      let _ ← string "method"
      some (some (.deviceAttachToManager (← string "mac_addr") (← string "uuid")))
    else if method = "action_exec" then do
      let _ ← string "method"
      some (some (.actionExec (← string "execution_id") (← string "action_id")))
    else if method = "action_list_query" then do
      let _ ← string "method"
      some (some .actionListQuery)
    else if method = "fs_file_download" then do
      let _ ← string "method"
      some (some (.fsFileDownload (← string "id") (← string "file")
        (← unmarshalField decodeStrings none fields "upload_urls")
        (← unmarshalField decodeInt goZero fields "part_size")))
    else if method = "fs_file_probe" then do
      let _ ← string "method"
      some (some (.fsFileProbe (← string "id") (← string "file")))
    else some none
  | _ => some none

/-! ## Other goroutines -/

/-- The file with the key of the device. -/
inductive KeysFile where
  /-- It is missing or empty: keys are generated, if that works. -/
  | fresh (generated : Bool)
  | key
  /-- It holds no private key. -/
  | damaged
deriving DecidableEq, Repr

inductive TokenEnd where
  | token
  | failed
  | panics
deriving DecidableEq, Repr

/-- What the goroutine of a shell meets. -/
structure ShellTask where
  /-- The token is missing or malformed, or it expires. -/
  authenticates : Bool
  keys : KeysFile
  /-- Whether there is a MAC address, a device type, a software version and tags. -/
  collected : Bool
  /-- The metadata file holds `null`. -/
  metadataNull : Bool
  /-- The body of the reply 200; `none` if the requests get none, or it is no JSON object. -/
  reply : Option Fields
  /-- The shell is spawned, and its connection is there. -/
  connected : Bool
  /-- The text messages of the connection, split at their blanks. -/
  texts : List (List String)

/-- `authenticateDeviceWithServer`. -/
def ShellTask.authenticate (t : ShellTask) : TokenEnd :=
  match t.keys with
  | .fresh false => .failed
  -- `privateKeyBlock.Bytes` of a block that is nil, or the public key of no private one
  | .damaged => .panics
  | _ =>
    if !t.collected then .failed
    -- an entry of a nil map
    else if t.metadataNull then .panics
    else
      match t.reply with
      | none => .failed
      | some fields =>
        match fields.lookup "token" with
        | some (.str token) => if token = "" then .failed else .token
        -- `response["token"].(string)`
        | _ => .panics

def ShellTask.getDeviceToken (t : ShellTask) : TokenEnd :=
  if t.authenticates then t.authenticate else .token

/-- `Copy`: the text messages, of which `resize` has two arguments. -/
def resizes : List String → Bool
  | "resize" :: arguments => 2 ≤ arguments.length
  | _ => true

/-- The goroutine of a shell panics. -/
def ShellTask.panics (t : ShellTask) : Bool :=
  match t.getDeviceToken with
  | .panics => true
  | .failed => false
  | .token => t.connected && !t.texts.all resizes

/-- What a request leaves to another goroutine. -/
inductive Task where
  /-- A request in the queue of the action runner, with the action that its id names. -/
  | action (action : Option RunnerAction)
  | shell (task : ShellTask)

def Task.panics : Task → Bool
  -- `action.GetName()` of a nil interface
  | .action none => true
  -- `c.Command[0]`
  | .action (some (.commandAction _ _ _ command _)) => (command.getD []).isEmpty
  | .action (some (.callbackAction _ _ _)) => false
  | .shell task => task.panics

/-! ## Handling -/

/-- What a request waits for. -/
inductive Operation where
  | enqueue
  | certificate
  /-- `isFsAccessAllowed`. -/
  | access
  | openFile
  | stat
  /-- Reading a part of a file and uploading it. -/
  | part (k : Nat)
deriving DecidableEq, Repr

/-- What the handling of a request meets on the device, with what can end the client. -/
structure ClientEnv extends Surroundings where
  /-- Operations that do not return: the open of a FIFO without a writer, an upload that is not
  answered. -/
  blocks : Operation → Bool
  /-- The certificate of the server: `none` if no path is configured, and its contents if the file
  can be read. -/
  certificate : Option (Option (List UInt8))
  /-- The largest slice that can be allocated. -/
  memory : Nat
  /-- What the goroutine of a shell will meet. -/
  shell : ShellTask

inductive HandleEnd where
  /-- The response, if there is one, and what is left to another goroutine. -/
  | returned (response : Option GoMessage) (task : Option Task)
  /-- An error is returned. -/
  | failed
  /-- A panic, or the end of the process. -/
  | stopped
  /-- It does not return. -/
  | hangs

inductive UploadEnd where
  | done
  | failed
  | hangs
deriving DecidableEq, Repr

/-- The loop over the upload URLs, of which `i` are done. -/
def uploads (env : ClientEnv) : Nat → List String → UploadEnd
  | _, [] => .done
  | i, _ :: urls =>
    if env.blocks (.part i) then .hangs
    else
      match env.part i with
      | .readError => .done
      | .putError => .failed
      | .uploaded _ => uploads env (i + 1) urls

/-- `handleRequest`, once the request is parsed. -/
def handleRequest (env : ClientEnv) (request : Option GoRequest) : HandleEnd :=
  let response := Protocol.handleRequest env.toSurroundings request
  match request with
  | some (.actionExec _ actionId) =>
    if env.blocks .enqueue then .hangs
    else if env.queued then
      .returned response (some (.action (env.listed.find? fun a => a.getId = goLit actionId)))
    else .returned response none
  | some (.deviceAttachToManager _ _) =>
    match env.certificate with
    -- `log.Fatal`
    | none => .stopped
    | some read =>
      if env.blocks .certificate then .hangs
      else
        match read with
        | none => .stopped
        -- "certificate empty"
        | some [] => .returned response none
        | some (_ :: _) => .returned response (some (.shell env.shell))
  | some (.fsFileDownload _ _ uploadUrls partSize) =>
    if env.blocks .access then .hangs
    else if !env.allowed then .returned response none
    else if env.blocks .openFile then .hangs
    else if !env.opened then .returned response none
    -- `make` with a length out of range
    else if partSize.val < 0 ∨ partSize.val > env.memory then .stopped
    else
      match uploads env 0 (uploadUrls.getD []) with
      | .hangs => .hangs
      | .failed => .failed
      | .done => .returned response none
  | some (.fsFileProbe _ _) =>
    if env.blocks .access then .hangs
    else if !env.allowed then .returned response none
    else if env.blocks .openFile then .hangs
    else if !env.opened then .returned response none
    else if env.blocks .stat then .hangs
    else .returned response none
  | _ => .returned response none

/-- A message as the decoder finds it. -/
inductive Received where
  /-- No JSON, no object, or with a number that is out of range. -/
  | unreadable
  /-- An object, or null, which is decoded as one without fields. -/
  | object (fields : Fields)

/-- `handleRequest`. -/
def handleMessage (find : Fields → Option Json) (env : ClientEnv) : Received → HandleEnd
  | .unreadable => .failed
  | .object fields =>
    match parse find fields with
    | none => .failed
    | some request => handleRequest env request

/-! ## The loop -/

/-- What the client meets in one round. -/
inductive LoopInput where
  | cancelled
  /-- `Recv` returns nothing. -/
  | noMessage
  /-- A message; `sent` says whether its response, if there is one, is sent before the context is
  cancelled. -/
  | message (msg : Received) (env : ClientEnv) (sent : Bool)
  /-- One of the tasks that are left runs. -/
  | task (n : Nat)

inductive LoopState where
  | running
  /-- The loop is in `handleRequest`, which does not return. -/
  | blocked
  /-- The loop has returned because the context is cancelled. -/
  | cancelled
  /-- It has returned an error of `handleRequest`, on which its goroutine panics. -/
  | failed
  | stopped
deriving DecidableEq

/-- The loop, and what it has left to other goroutines. -/
structure ClientState where
  loop : LoopState
  tasks : List Task

def ClientState.start : ClientState := ⟨.running, []⟩

variable (find : Fields → Option Json)

/-- One round of `communicationLoop`, or one task beside it. -/
def communicationLoop (s : ClientState) (i : LoopInput) : ClientState :=
  match s.loop, i with
  | .running, .cancelled => { s with loop := .cancelled }
  | .running, .noMessage => s
  | .running, .message msg env sent =>
    match handleMessage find env msg with
    | .failed => { s with loop := .failed }
    | .stopped => { s with loop := .stopped }
    | .hangs => { s with loop := .blocked }
    | .returned response task =>
      ⟨if response.isSome ∧ !sent then .cancelled else .running, s.tasks ++ task.toList⟩
  | .running, .task n =>
    match s.tasks[n]? with
    | none => s
    | some task =>
      ⟨if task.panics then .stopped else .running, s.tasks.eraseIdx n⟩
  | _, _ => s

/-! ## Harmless messages -/

/-- The types of the fields that are decoded. -/
inductive FieldKind where
  | string
  | strings
  | int
  | map
deriving DecidableEq, Repr

def isString : Json → Bool
  | .null | .str _ => true
  | _ => false

def FieldKind.accepts : FieldKind → Json → Bool
  | string, v => isString v
  | strings, .null => true
  | strings, .arr items => items.all isString
  | int, .null => true
  | int, .int n => -9223372036854775808 ≤ n ∧ n < 9223372036854775808
  | map, .null | map, .obj _ => true
  | _, _ => false

section Decoding

variable {α : Type} {decode : α → Json → Option α} {kind : FieldKind}

end Decoding

section

variable {find}

/-- The names of the fields of the structs. -/
def fieldNames : List String :=
  ["method", "alert", "mac_addr", "uuid", "execution_id", "action_id", "id", "file", "upload_urls",
    "part_size"]

/-- No field is there twice, and those of the structs under their own names. -/
structure Plain (fields : Fields) : Prop where
  nodup : (fields.map Prod.fst).Nodup
  names : ∀ field ∈ fields, ∀ name ∈ fieldNames, foldName field.1 = foldName name → field.1 = name

section Plain

variable {fields : Fields} {name : String}

theorem Plain.fieldValues (h : Plain fields) (hname : name ∈ fieldNames) :
    fieldValues fields name = (fields.lookup name).toList := by
  obtain ⟨hnodup, hnames⟩ := h
  unfold Linux.fieldValues
  induction fields with
  | nil => rfl
  | cons field fields ih =>
    obtain ⟨key, v⟩ := field
    rw [List.map_cons, List.nodup_cons] at hnodup
    obtain ⟨hfirst, hnodup⟩ := hnodup
    have hrest := ih hnodup fun field hfield => hnames field (List.mem_cons_of_mem _ hfield)
    by_cases hkey : key = name
    · subst hkey
      have hnone : fields.lookup key = none := by
        rw [List.lookup_eq_none_iff]
        intro field hfield
        rw [bne_iff_ne]
        rintro rfl
        exact hfirst (List.mem_map.mpr ⟨field, hfield, rfl⟩)
      rw [hnone] at hrest
      rw [List.filter_cons_of_pos (by simp), List.map_cons, hrest, List.lookup_cons_self]
      rfl
    · have hfold : ¬ foldName key = foldName name := fun hf =>
        hkey (hnames (key, v) List.mem_cons_self name hname hf)
      rw [List.filter_cons_of_neg (by simpa using hfold), hrest, List.lookup_cons,
        beq_eq_false_iff_ne.mpr (Ne.symm hkey)]

variable (h : Plain fields) (hname : name ∈ fieldNames)

include h hname

theorem Plain.unmarshalField {α : Type} (decode : α → Json → Option α) (zero : α) :
    unmarshalField decode zero fields name =
      match fields.lookup name with
      | none => some zero
      | some v => decode zero v := by
  unfold Linux.unmarshalField
  rw [h.fieldValues hname]
  cases fields.lookup name with
  | none => rfl
  | some v => simp

theorem Plain.string :
    Linux.unmarshalField decodeString "" fields name = unmarshalString fields name := by
  rw [h.unmarshalField hname]
  unfold unmarshalString
  cases fields.lookup name with
  | none => rfl
  | some v => cases v <;> rfl

theorem Plain.int :
    Linux.unmarshalField decodeInt goZero fields name = unmarshalInt fields name := by
  rw [h.unmarshalField hname]
  unfold unmarshalInt
  cases fields.lookup name with
  | none => rfl
  | some v => cases v <;> rfl

theorem Plain.map : Linux.unmarshalField decodeMap [] fields name = unmarshalMap fields name := by
  rw [h.unmarshalField hname]
  unfold unmarshalMap
  cases fields.lookup name with
  | none => rfl
  | some v => cases v <;> rfl

omit h hname in
theorem decodeItems_nil (items : List Json) : decodeItems [] items = items.mapM unmarshalItem := by
  induction items with
  | nil => rfl
  | cons item items ih =>
    have hitem : decodeString "" item = unmarshalItem item := by
      cases item <;> rfl
    rw [decodeItems, List.mapM_cons, List.headD_nil, List.tail_nil, ih, hitem]

theorem Plain.strings :
    Linux.unmarshalField decodeStrings none fields name = unmarshalStrings fields name := by
  rw [h.unmarshalField hname]
  unfold unmarshalStrings
  cases fields.lookup name with
  | none => rfl
  | some v =>
    cases v with
    | arr items =>
      dsimp only [decodeStrings]
      rw [Option.getD_none, decodeItems_nil]
    | _ => rfl

end Plain

/-- Of a message with plain names, such as the server sends, `parse` makes what it makes in
`Rdfm.Protocol`. -/
theorem Plain.parse {fields : Fields} (h : Plain fields)
    (hfind : find fields = fields.lookup "method") :
    parse find fields = Protocol.parse find fields := by
  unfold Linux.parse Protocol.parse
  dsimp only
  cases hmethod : find fields with
  | none => rfl
  | some v =>
    cases v with
    | str method =>
      have hstring : Linux.unmarshalField decodeString "" fields "method" = some method := by
        rw [h.string (by decide), unmarshalString, ← hfind, hmethod]
      dsimp only
      rw [hstring]
      simp only [Option.bind_eq_bind, Option.bind_some]
      rw [h.map (by decide), h.strings (by decide), h.int (by decide), h.string (by decide),
        h.string (by decide), h.string (by decide), h.string (by decide), h.string (by decide),
        h.string (by decide)]
    | _ => rfl

/-! ## Handling without an end -/

variable {env : ClientEnv}

/-- The handling has ended with a response, or without one. -/
def HandleEnd.Returns (e : HandleEnd) : Prop := ∃ response task, e = .returned response task

theorem HandleEnd.returns {response : Option GoMessage} {task : Option Task} :
    (HandleEnd.returned response task).Returns := ⟨response, task, rfl⟩

end

namespace ClientRun

def findMethod (fields : Fields) : Option Json := fields.lookup "method"

/-- The token reply has no token. -/
def shellTask : ShellTask where
  authenticates := true
  keys := .key
  collected := true
  metadataNull := false
  reply := some []
  connected := false
  texts := []

/-- A device whose uploads fail. -/
def env : ClientEnv where
  configured := []
  listed := daemonActions []
  listed_perm := .refl _
  queued := true
  allowed := true
  opened := true
  statted := true
  size := goOne
  part _ := .putError
  blocks _ := false
  certificate := some (some [1])
  memory := 1048576
  shell := shellTask

def download (partSize : Int) : Received :=
  .object [("method", .str "fs_file_download"), ("id", .str "id"),
    ("file", .str "/var/log/messages"),
    ("upload_urls", .arr [.str "http://127.0.0.1:9000/bucket"]), ("part_size", .int partSize)]

def execute : Received :=
  .object [("method", .str "action_exec"), ("execution_id", .str "id"),
    ("action_id", .str "unknown")]

def attach : Received :=
  .object [("method", .str "shell_attach"), ("mac_addr", .str "02:00:00:00:00:01"),
    ("uuid", .str "uuid")]

/-- Messages, and then the first task that they have left. -/
def received (msg : Received) : List LoopInput := [.message msg env true, .task 0]

def outcome (inputs : List LoopInput) : LoopState :=
  (inputs.foldl (communicationLoop findMethod) .start).loop

end ClientRun

end Rdfm.Linux
