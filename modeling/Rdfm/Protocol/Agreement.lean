import Mathlib.Data.List.Basic
import Mathlib.Data.List.Induction
import Rdfm.Lib.Except
import Rdfm.Protocol.Messages

/-!
# Agreement of the two ends of the protocol

`GoMessage.toPy` is the request model with the same method and field values. A message agrees with
the server if `decode_json` gives that model and `__handle_device_message` has a branch that accepts
it. This is so unless a slice of the message is nil, a string of it is not UTF-8 or it is an alert
(`agrees_iff`); what this means for the occasions on which the client sends is
`Emission.Answerable`. In the other direction every request of the server is parsed as it was sent
(`parse_json`).
-/

namespace Rdfm.Protocol

open Rdfm.Lib

/-! ## Strings -/

@[simp]
theorem goText_goLit (s : String) : goText (goLit s) = some s := by
  unfold goText goLit String.fromUTF8?
  split
  next => rfl
  next h => exact absurd s.isValidUTF8 h

theorem goText_comp_goLit : goText ∘ goLit = some := funext goText_goLit

/-! ## The same message on the server -/

def GoAction.toPy (a : GoAction) : Option PyAction := do
  some ⟨← goText a.actionId, ← goText a.actionName,
    ← goText a.description, ← (a.command.getD []).mapM goText, a.timeout⟩

/-- The model of the same method with the same values; `none` if a string of the message is not a
text. -/
def GoMessage.toPy : GoMessage → Option PyRequest
  | .alert entries => some (.alert (entries.map fun (k, v) => (k, .str v)))
  | .capabilityReport capabilities => some (.capabilityReport capabilities)
  | .actionExecResult executionId statusCode output => do
    some (.actionExecResult (← goText executionId) statusCode.val (← goText output))
  | .actionExecControl executionId status => do
    some (.actionExecControl (← goText executionId) (← goText status))
  | .actionListUpdate actions => do
    some (.actionListUpdate (← (actions.getD []).mapM GoAction.toPy))
  | .fsFileDownloadReply id status etags => do
    some (.fsFileDownloadReply (← goText id) status.val
      (← (etags.getD []).mapM goText))
  | .fsFileProbeReply id status size => do
    some (.fsFileProbeReply (← goText id) status.val size.val)
  | .updateProgress progress => some (.updateProgress progress.val)
  | .updateVersion version => do some (.updateVersion (← goText version))

/-- None of the slices is nil. -/
def GoMessage.NoNil : GoMessage → Prop
  | .actionListUpdate actions => ∃ l, actions = some l ∧ ∀ a ∈ l, a.command ≠ none
  | .fsFileDownloadReply _ _ etags => etags ≠ none
  | _ => True

def GoMessage.IsAlert : GoMessage → Prop
  | .alert _ => True
  | _ => False

/-- The server waits for what the message is about. -/
def Waiting.Knows (waiting : Waiting) : PyRequest → Prop
  | .actionExecResult executionId _ _ => executionId ∈ waiting.executions
  | .actionExecControl executionId _ => executionId ∈ waiting.executions
  | .fsFileDownloadReply id _ _ => id ∈ waiting.filesystemOperations
  | .fsFileProbeReply id _ _ => id ∈ waiting.filesystemOperations
  | _ => True

/-- There is a branch for the request, which accepts it if the server waits for it. -/
def Accepted (request : PyRequest) : Prop :=
  ∀ waiting : Waiting, waiting.Knows request → handleDeviceMessage waiting request = .ok ()

/-- The server decodes the message to the model with the same values, and has a branch for it. -/
def Agrees (replace : GoString → String) (m : GoMessage) : Prop :=
  ∃ request, m.toPy = some request ∧ decodeJson (m.encode replace) = some request ∧ Accepted request

/-! ## Decoding -/

section Decode

variable {replace : GoString → String}

@[simp]
theorem validateStr_encodeString {b : GoString} {s : String} (h : goText b = some s) :
    validateStr (encodeString replace b) = some s := by
  simp [encodeString, h, validateStr]

@[simp]
theorem validateFloat_encodeFloat (d : Decimal) : validateFloat (encodeFloat d) = some d := by
  obtain ⟨mantissa, exponent⟩ := d
  unfold encodeFloat
  split
  next h => cases h; rfl
  next => rfl

theorem validateList_encodeStrings {l : List GoString} {l' : List String}
    (h : l.mapM goText = some l') :
    validateList validateStr (encodeStrings replace (some l)) = some l' :=
  mapM_map_eq_some (fun _ _ _ hb => validateStr_encodeString hb) h

theorem validateActionItem_encode {a : GoAction} {p : PyAction} (hcommand : a.command ≠ none)
    (h : a.toPy = some p) : validateActionItem (a.encode replace) = some p := by
  simp only [GoAction.toPy, Option.bind_eq_bind, Option.bind_eq_some_iff, Option.some.injEq] at h
  obtain ⟨id, hid, name, hname, description, hdescription, command, hcommands, rfl⟩ := h
  obtain ⟨l, hl⟩ := Option.ne_none_iff_exists'.mp hcommand
  rw [hl, Option.getD_some] at hcommands
  simp [validateActionItem, GoAction.encode, validateAction, required, List.lookup_cons, hid, hname,
    hdescription, hl, validateList_encodeStrings hcommands]

theorem validateActionItem_nil {a : GoAction} (hcommand : a.command = none) :
    validateActionItem (a.encode replace) = none := by
  simp [validateActionItem, GoAction.encode, validateAction, required, List.lookup_cons, hcommand,
    encodeStrings, validateList]

/-- The one model without a method is that of an action. -/
theorem validate_eq_none {fields : Fields} {model : Model} (hmem : model ∈ models)
    (hmodel : model.method = none) (haction : fields.lookup "action_id" = none) :
    model.validate fields = none := by
  simp only [models, List.mem_cons, List.not_mem_nil, or_false] at hmem
  have hnone : validateAction fields = none := by simp [validateAction, required, haction]
  obtain rfl | rfl | rfl | rfl | rfl | rfl | rfl | rfl | rfl | rfl | rfl | rfl | rfl := hmem <;>
    simp_all

/-- An object with a method and without an action's id can be accepted only by the model of its
method. -/
theorem accepting_eq {fields : Fields} {method : String}
    (hmethod : fields.lookup "method" = some (.str method))
    (haction : fields.lookup "action_id" = none) :
    accepting fields =
      models.filterMap fun model =>
        if model.method = some method then model.validate fields else none := by
  refine List.filterMap_congr fun model hmem => ?_
  cases hliteral : model.method with
  | none => simp [Model.accept, hliteral, validate_eq_none hmem hliteral haction]
  | some literal =>
    by_cases h : literal = method
    · simp [Model.accept, hmethod, hliteral, h]
    · simp [Model.accept, hmethod, hliteral, h, Ne.symm h]

def GoMessage.method : GoMessage → String
  | .alert _ => "alert"
  | .capabilityReport _ => "capability_report"
  | .actionExecResult _ _ _ => "action_exec_result"
  | .actionExecControl _ _ => "action_exec_control"
  | .actionListUpdate _ => "action_list_update"
  | .fsFileDownloadReply _ _ _ => "fs_file_download_reply"
  | .fsFileProbeReply _ _ _ => "fs_file_probe_reply"
  | .updateProgress _ => "update_progress"
  | .updateVersion _ => "update_version"

theorem accepting_encode (m : GoMessage) :
    accepting (m.encode replace) =
      models.filterMap fun model =>
        if model.method = some m.method then model.validate (m.encode replace) else none := by
  apply accepting_eq
  · cases m <;> simp [GoMessage.encode, GoMessage.method, List.lookup_cons]
  · cases m <;> simp [GoMessage.encode, List.lookup_cons]

/-- What the model of a method makes of an object. -/
def validateAs (method : String) (fields : Fields) : Option PyRequest :=
  (models.find? fun model => model.method = some method).bind fun model => model.validate fields

/-- A message is accepted by the model of its method or by none. -/
theorem accepting_encode_eq (m : GoMessage) :
    accepting (m.encode replace) = (validateAs m.method (m.encode replace)).toList := by
  rw [accepting_encode]
  cases m <;>
    simp only [models, validateAs, GoMessage.method, List.filterMap_cons, List.filterMap_nil,
      List.find?_cons, Option.some.injEq, String.reduceEq, ↓reduceIte, reduceCtorEq, decide_false,
      decide_true, Option.bind_some] <;>
    split <;> simp_all

theorem decodeJson_encode_eq (m : GoMessage) :
    decodeJson (m.encode replace) = validateAs m.method (m.encode replace) := by
  rw [decodeJson, accepting_encode_eq]
  cases validateAs m.method (m.encode replace) <;> rfl

theorem validateDict_bools (capabilities : List (String × Bool)) :
    validateDict validateBool (.obj (capabilities.map fun (k, v) => (k, .bool v))) =
      some capabilities := by
  refine mapM_map_eq_some (fun entry _ b h => ?_) (mapM_some capabilities)
  cases h
  rfl

theorem decodeJson_encode {m : GoMessage} {request : PyRequest} (hnil : m.NoNil)
    (h : m.toPy = some request) : decodeJson (m.encode replace) = some request := by
  rw [decodeJson_encode_eq]
  cases m with
  | alert entries =>
    cases h
    simp [validateAs, models, GoMessage.method, GoMessage.encode, required, List.lookup_cons,
      validateAnyDict]
  | capabilityReport capabilities =>
    cases h
    have hdict := validateDict_bools capabilities
    simp [validateAs, models, GoMessage.method, GoMessage.encode, required, hdict]
  | actionExecResult executionId statusCode output =>
    simp only [GoMessage.toPy, Option.bind_eq_bind, Option.bind_eq_some_iff, Option.some.injEq] at h
    obtain ⟨id, hid, text, htext, rfl⟩ := h
    simp [validateAs, models, GoMessage.method, GoMessage.encode, required, List.lookup_cons,
      validateInt, hid, htext]
  | actionExecControl executionId status =>
    simp only [GoMessage.toPy, Option.bind_eq_bind, Option.bind_eq_some_iff, Option.some.injEq] at h
    obtain ⟨id, hid, text, htext, rfl⟩ := h
    simp [validateAs, models, GoMessage.method, GoMessage.encode, required, List.lookup_cons,
      hid, htext]
  | actionListUpdate actions =>
    obtain ⟨l, rfl, hcommand⟩ := hnil
    simp only [GoMessage.toPy, Option.getD_some, Option.bind_eq_bind, Option.bind_eq_some_iff,
      Option.some.injEq] at h
    obtain ⟨items, hitems, rfl⟩ := h
    have hlist :
        validateList validateActionItem (.arr (l.map (GoAction.encode replace))) = some items :=
      mapM_map_eq_some (fun a ha _ hb => validateActionItem_encode (hcommand a ha) hb) hitems
    simp [validateAs, models, GoMessage.method, GoMessage.encode, required, List.lookup_cons,
      hlist]
  | fsFileDownloadReply id status etags =>
    obtain ⟨l, rfl⟩ := Option.ne_none_iff_exists'.mp hnil
    simp only [GoMessage.toPy, Option.getD_some, Option.bind_eq_bind, Option.bind_eq_some_iff,
      Option.some.injEq] at h
    obtain ⟨text, htext, tags, htags, rfl⟩ := h
    simp [validateAs, models, GoMessage.method, GoMessage.encode, required, List.lookup_cons,
      validateInt, htext, validateList_encodeStrings htags]
  | fsFileProbeReply id status size =>
    simp only [GoMessage.toPy, Option.bind_eq_bind, Option.bind_eq_some_iff, Option.some.injEq] at h
    obtain ⟨text, htext, rfl⟩ := h
    simp [validateAs, models, GoMessage.method, GoMessage.encode, required, List.lookup_cons,
      validateInt, htext]
  | updateProgress progress =>
    cases h
    simp [validateAs, models, GoMessage.method, GoMessage.encode, required, List.lookup_cons,
      validateInt]
  | updateVersion version =>
    simp only [GoMessage.toPy, Option.bind_eq_bind, Option.bind_eq_some_iff, Option.some.injEq] at h
    obtain ⟨text, htext, rfl⟩ := h
    simp [validateAs, models, GoMessage.method, GoMessage.encode, required, List.lookup_cons, htext]

/-- A nil slice is not accepted as a list. -/
theorem decodeJson_encode_nil {m : GoMessage} (hnil : ¬ m.NoNil) :
    decodeJson (m.encode replace) = none := by
  rw [decodeJson_encode_eq]
  cases m with
  | actionListUpdate actions =>
    cases actions with
    | none =>
      simp [validateAs, models, GoMessage.method, GoMessage.encode, required, List.lookup_cons,
        validateList]
    | some l =>
      simp only [GoMessage.NoNil, Option.some.injEq, exists_eq_left', not_forall,
        Decidable.not_not] at hnil
      obtain ⟨a, ha, hcommand⟩ := hnil
      have hlist :
          validateList validateActionItem (.arr (l.map (GoAction.encode replace))) = none :=
        mapM_eq_none_of_mem (List.mem_map_of_mem ha) (validateActionItem_nil hcommand)
      simp [validateAs, models, GoMessage.method, GoMessage.encode, required, List.lookup_cons,
      hlist]
  | fsFileDownloadReply id status etags =>
    simp only [GoMessage.NoNil, Decidable.not_not] at hnil
    subst hnil
    simp [validateAs, models, GoMessage.method, GoMessage.encode, required, List.lookup_cons,
      encodeStrings, validateList]
  | _ => exact absurd trivial hnil

/-- An alert is the only message without a branch. -/
theorem accepted_iff {m : GoMessage} {request : PyRequest} (h : m.toPy = some request) :
    Accepted request ↔ ¬ m.IsAlert := by
  cases m with
  | alert entries =>
    cases h
    refine iff_of_false (fun haccepted => ?_) (not_not_intro trivial)
    cases haccepted ⟨[], []⟩ trivial
  | capabilityReport capabilities => cases h; exact iff_of_true (fun _ _ => rfl) id
  | updateProgress progress => cases h; exact iff_of_true (fun _ _ => rfl) id
  | _ =>
    refine iff_of_true (fun waiting hknows => ?_) id
    simp only [GoMessage.toPy, Option.bind_eq_bind, Option.bind_eq_some_iff, Option.some.injEq] at h
    grind [handleDeviceMessage, Waiting.Knows]

/-- When a message agrees with the server. -/
theorem agrees_iff (m : GoMessage) :
    Agrees replace m ↔ m.toPy.isSome ∧ m.NoNil ∧ ¬ m.IsAlert := by
  constructor
  · rintro ⟨request, htoPy, hdecode, haccepted⟩
    refine ⟨by simp [htoPy], ?_, (accepted_iff htoPy).mp haccepted⟩
    by_contra hnil
    rw [decodeJson_encode_nil hnil] at hdecode
    cases hdecode
  · rintro ⟨htoPy, hnil, halert⟩
    obtain ⟨request, hrequest⟩ := Option.isSome_iff_exists.mp htoPy
    exact ⟨request, hrequest, decodeJson_encode hnil hrequest, (accepted_iff hrequest).mpr halert⟩

end Decode

/-! ## What the client sends -/

def RunnerAction.HasCommand : RunnerAction → Prop
  | .commandAction _ _ _ command _ => command ≠ none
  | .callbackAction _ _ _ => True

/-- The tags of the parts that are uploaded, of which `i` are done. -/
def uploadedTags (part : Nat → PartEnd) : Nat → List String → List GoString
  | _, [] => []
  | i, _ :: urls =>
    match part i with
    | .uploaded etag => etag :: uploadedTags part (i + 1) urls
    | _ => []

/-- When the response to a request agrees with the server. -/
def Surroundings.Answers (env : Surroundings) : Option GoRequest → Prop
  | none => False
  | some .actionListQuery => ∀ a ∈ daemonActions env.configured, a.HasCommand
  | some (.fsFileDownload _ _ uploadUrls _) =>
    env.allowed ∧ env.opened ∧ uploadedTags env.part 0 (uploadUrls.getD []) ≠ [] ∧
      ∀ etag ∈ uploadedTags env.part 0 (uploadUrls.getD []), (goText etag).isSome
  | _ => True

/-- When a message agrees with the server, by the occasion on which it is sent. -/
def Emission.Answerable (find : Fields → Option Json) : Emission → Prop
  | .reply fields env => ∀ request, parse find fields = some request → env.Answers request
  | .updateSoftwareVersion version => (goText version).isSome
  | _ => True

/-! ### The list of actions -/

section Actions

theorem mem_registerAction {actionMap : ActionMap} {action a : RunnerAction}
    (h : a ∈ (registerAction actionMap action).map Prod.snd) :
    a = action ∨ a ∈ actionMap.map Prod.snd := by
  rw [registerAction, List.map_cons, List.mem_cons] at h
  refine h.imp_right fun h => ?_
  obtain ⟨entry, hentry, rfl⟩ := List.mem_map.mp h
  exact List.mem_map_of_mem (List.mem_of_mem_filter hentry)

theorem mem_rebuildActionMap {configured : List CommandActionConfiguration} {a : RunnerAction}
    (h : a ∈ (rebuildActionMap configured).map Prod.snd) :
    ∃ cfg ∈ configured, a = newCommandAction cfg := by
  induction configured using List.reverseRecOn with
  | nil => cases h
  | append_singleton configured cfg ih =>
    rw [rebuildActionMap, List.foldl_append] at h
    rcases mem_registerAction h with rfl | h
    · exact ⟨cfg, by simp, rfl⟩
    · obtain ⟨cfg', hcfg', rfl⟩ := ih h
      exact ⟨cfg', by simp [hcfg'], rfl⟩

theorem mem_daemonActions {configured : List CommandActionConfiguration} {a : RunnerAction}
    (h : a ∈ daemonActions configured) :
    a = updateAction ∨ ∃ cfg ∈ configured, a = newCommandAction cfg :=
  (mem_registerAction h).imp_right mem_rebuildActionMap

/-- The names and commands of the actions are texts. -/
theorem toPy_toRequest {configured : List CommandActionConfiguration} {a : RunnerAction}
    (h : a ∈ daemonActions configured) : (a.toRequest.toPy).isSome := by
  rcases mem_daemonActions h with rfl | ⟨cfg, -, rfl⟩
  · simp [updateAction, RunnerAction.toRequest, GoAction.toPy]
  · cases hcommand : cfg.command <;>
      simp [newCommandAction, RunnerAction.toRequest, GoAction.toPy, hcommand, goText_comp_goLit,
        mapM_some]

theorem toRequest_command_ne_none (a : RunnerAction) :
    a.toRequest.command ≠ none ↔ a.HasCommand := by
  cases a <;> simp [RunnerAction.toRequest, RunnerAction.HasCommand]

theorem foldl_appendSlice {α β : Type} (f : α → β) (l : List α) (slice : Option (List β)) :
    l.foldl (fun slice a => appendSlice slice (f a)) slice =
      if l = [] then slice else some (slice.getD [] ++ l.map f) := by
  induction l generalizing slice with
  | nil => rfl
  | cons a l ih =>
    rw [List.foldl_cons, ih]
    cases l <;> simp [appendSlice]

/-- The list is never empty: the built-in action is in it. -/
theorem Surroundings.listed_ne_nil (env : Surroundings) : env.listed ≠ [] := by
  intro h
  have hperm := env.listed_perm
  rw [h] at hperm
  cases hperm.nil_eq

theorem Surroundings.actionList_eq (env : Surroundings) :
    env.listed.foldl (fun slice a => appendSlice slice a.toRequest) none =
      some (env.listed.map RunnerAction.toRequest) := by
  rw [foldl_appendSlice, if_neg env.listed_ne_nil]
  rfl

theorem Surroundings.mem_listed (env : Surroundings) {a : RunnerAction} :
    a ∈ env.listed ↔ a ∈ daemonActions env.configured :=
  env.listed_perm.mem_iff

end Actions

/-! ### The parts of a download -/

/-- The tags that the loop ends with. -/
theorem uploadParts_etags {part : Nat → PartEnd} {i : Nat} {urls : List String}
    {etags etags' : Option (List GoString)} {completed : Bool}
    (h : uploadParts part i urls etags = some (completed, etags')) :
    etags' = if uploadedTags part i urls = [] then etags
      else some (etags.getD [] ++ uploadedTags part i urls) := by
  induction urls generalizing i etags with
  | nil => cases h; rfl
  | cons url urls ih =>
    unfold uploadParts at h
    unfold uploadedTags
    cases hpart : part i with
    | readError => rw [hpart] at h; cases h; rfl
    | putError => rw [hpart] at h; cases h
    | uploaded etag =>
      rw [hpart] at h
      rw [ih h]
      by_cases htags : uploadedTags part (i + 1) urls = [] <;> simp [htags, appendSlice]

/-! ### Agreement -/

section Agreement

variable {replace : GoString → String}

/-- The reply to a download agrees if it has tags and they are texts. -/
theorem fsFileDownloadReply_agrees_iff {id : String} {status : GoInt}
    {etags : Option (List GoString)} :
    Agrees replace (.fsFileDownloadReply (goLit id) status etags) ↔
      ∃ tags, etags = some tags ∧ ∀ etag ∈ tags, (goText etag).isSome := by
  rw [agrees_iff]
  cases etags with
  | none => simp [GoMessage.NoNil]
  | some tags =>
    have htoPy : (GoMessage.fsFileDownloadReply (goLit id) status (some tags)).toPy.isSome ↔
        (tags.mapM goText).isSome := by
      cases hl : tags.mapM goText <;> simp [GoMessage.toPy, hl]
    rw [htoPy, mapM_isSome]
    simp [GoMessage.NoNil, GoMessage.IsAlert]

/-- So does the list of actions if they have commands. -/
theorem actionListUpdate_agrees_iff (env : Surroundings) :
    Agrees replace (.actionListUpdate (some (env.listed.map RunnerAction.toRequest))) ↔
      ∀ a ∈ daemonActions env.configured, a.HasCommand := by
  have htexts : ((env.listed.map RunnerAction.toRequest).mapM GoAction.toPy).isSome := by
    refine mapM_isSome.mpr fun a ha => ?_
    obtain ⟨action, haction, rfl⟩ := List.mem_map.mp ha
    exact toPy_toRequest (env.mem_listed.mp haction)
  obtain ⟨items, hitems⟩ := Option.isSome_iff_exists.mp htexts
  have htoPy : (GoMessage.actionListUpdate
      (some (env.listed.map RunnerAction.toRequest))).toPy = some (.actionListUpdate items) := by
    simp [GoMessage.toPy, hitems]
  rw [agrees_iff, htoPy]
  simp [GoMessage.NoNil, GoMessage.IsAlert, env.mem_listed, toRequest_command_ne_none]

theorem handleRequest_agrees_iff {env : Surroundings} {request : Option GoRequest} {m : GoMessage}
    (h : handleRequest env request = some m) : Agrees replace m ↔ env.Answers request := by
  cases request with
  | none =>
    cases h
    simp [agrees_iff, Surroundings.Answers, cantHandleRequest, GoMessage.IsAlert]
  | some request =>
    cases request with
    | alert entries => cases h
    | deviceAttachToManager macAddr uuid => cases h
    | actionExec executionId actionId =>
      cases h
      simp [agrees_iff, Surroundings.Answers, GoMessage.toPy, GoMessage.NoNil, GoMessage.IsAlert]
    | actionListQuery =>
      rw [handleRequest, env.actionList_eq] at h
      cases h
      exact actionListUpdate_agrees_iff env
    | fsFileDownload id file uploadUrls partSize =>
      simp only [handleRequest] at h
      split at h
      next hdenied =>
        cases h
        rw [fsFileDownloadReply_agrees_iff]
        cases hallowed : env.allowed <;> simp_all [Surroundings.Answers]
      next hopened =>
        simp only [Bool.not_eq_true, Bool.or_eq_false_iff, Bool.not_eq_false'] at hopened
        split at h
        next => cases h
        next completed etags hparts =>
          cases h
          rw [fsFileDownloadReply_agrees_iff, uploadParts_etags hparts]
          by_cases htags : uploadedTags env.part 0 (uploadUrls.getD []) = [] <;>
            simp [Surroundings.Answers, hopened, htags]
    | fsFileProbe id file =>
      rw [handleRequest] at h
      split at h <;> cases h <;>
        simp [agrees_iff, Surroundings.Answers, GoMessage.toPy, GoMessage.NoNil, GoMessage.IsAlert]

/-- When a message of the client agrees with the server. -/
theorem emission_agrees_iff {find : Fields → Option Json} {e : Emission} {m : GoMessage}
    (h : e.message find = some m) : Agrees replace m ↔ e.Answerable find := by
  cases e with
  | reply fields env =>
    obtain ⟨request, hparse, hm⟩ := Option.bind_eq_some_iff.mp h
    rw [handleRequest_agrees_iff hm]
    simp [Emission.Answerable, hparse]
  | updateSoftwareVersion version =>
    cases h
    rw [agrees_iff]
    cases hversion : goText version <;>
      simp [Emission.Answerable, GoMessage.toPy, GoMessage.NoNil, GoMessage.IsAlert, hversion]
  | _ =>
    cases h
    rw [agrees_iff]
    simp [Emission.Answerable, GoMessage.toPy, GoMessage.NoNil, GoMessage.IsAlert]

end Agreement

/-! ## What the server sends -/

/-- The struct of the same method with the same values; `none` if the part size does not fit. -/
def ServerRequest.toGo : ServerRequest → Option GoRequest
  | .alert entries => some (.alert entries)
  | .deviceAttachToManager macAddr uuid => some (.deviceAttachToManager macAddr uuid)
  | .actionExec executionId actionId => some (.actionExec executionId actionId)
  | .actionListQuery => some .actionListQuery
  | .fsFileDownload id file uploadUrls partSize => do
    some (.fsFileDownload id file (some uploadUrls) (← goInt partSize))
  | .fsFileProbe id file => some (.fsFileProbe id file)

/-- The part size of a file whose size fits does so too. -/
theorem uploadPartCount_fits {size : GoInt} {count partSize : Int}
    (h : uploadPartCount size.val desiredPartSize = some (count, partSize)) :
    (goInt partSize).isSome := by
  have hlower := size.lower
  have hupper := size.upper
  have hfits : -9223372036854775808 ≤ partSize ∧ partSize < 9223372036854775808 := by
    simp [uploadPartCount, desiredPartSize, intDivCeil] at h
    obtain ⟨hlarge, h⟩ := h
    split at h
    next => cases h; exact ⟨hlower, hupper⟩
    next => split at h <;> cases h <;> omega
  simp [goInt, hfits]

theorem unmarshalStrings_eq (fields : Fields) (key : String) {l : List String}
    (h : fields.lookup key = some (.arr (l.map .str))) :
    unmarshalStrings fields key = some (some l) := by
  have hitems : (l.map Json.str).mapM unmarshalItem = some l :=
    mapM_map_eq_some (fun _ _ _ hb => hb) (mapM_some l)
  simp [unmarshalStrings, h, hitems]

/-- A request that the server sends is parsed as it was sent. -/
theorem parse_json {find : Fields → Option Json}
    (hfind : ∀ fields method, fields.lookup "method" = some (.str method) →
      find fields = some (.str method))
    {r : ServerRequest} {g : GoRequest} (h : r.toGo = some g) :
    parse find r.json = some (some g) := by
  cases r with
  | fsFileDownload id file uploadUrls partSize =>
    simp only [ServerRequest.toGo, Option.bind_eq_bind, Option.bind_eq_some_iff,
      Option.some.injEq] at h
    obtain ⟨size, hsize, rfl⟩ := h
    have hurls := unmarshalStrings_eq
      (ServerRequest.fsFileDownload id file uploadUrls partSize).json "upload_urls" rfl
    unfold parse
    rw [hfind _ _ rfl]
    simp only [ServerRequest.json] at hurls
    simp [ServerRequest.json, unmarshalString, unmarshalInt, List.lookup_cons, hurls, hsize]
  | _ =>
    cases h
    unfold parse
    rw [hfind _ _ rfl]
    simp [ServerRequest.json, unmarshalMap, unmarshalString, List.lookup_cons]

theorem ServerSend.toGo_request {send : ServerSend} {r : ServerRequest}
    (h : send.request = some r) : ∃ g, r.toGo = some g := by
  cases send with
  | prepareDownload id file uploadUrls fileSize =>
    simp only [ServerSend.request, Option.bind_eq_bind, Option.ite_none_left_eq_some,
      Option.bind_eq_some_iff] at h
    obtain ⟨-, ⟨count, partSize⟩, hcount, h⟩ := h
    cases h
    obtain ⟨size, hsize⟩ := Option.isSome_iff_exists.mp (uploadPartCount_fits hcount)
    exact ⟨.fsFileDownload id file (some uploadUrls) size, by simp [ServerRequest.toGo, hsize]⟩
  | _ => cases h; exact ⟨_, rfl⟩

/-! ## The two ends -/

/-- A message of the client agrees with the server exactly on the occasions that are answerable, and
every request of the server is parsed to the struct with the same values. -/
theorem ends_agree {find : Fields → Option Json}
    (hfind : ∀ fields method, fields.lookup "method" = some (.str method) →
      find fields = some (.str method))
    (replace : GoString → String) :
    (∀ (e : Emission) (m : GoMessage), e.message find = some m →
      (Agrees replace m ↔ e.Answerable find)) ∧
    ∀ (send : ServerSend) (r : ServerRequest), send.request = some r →
      ∃ g, r.toGo = some g ∧ parse find r.json = some (some g) := by
  refine ⟨fun e m h => emission_agrees_iff h, fun send r h => ?_⟩
  obtain ⟨g, hg⟩ := ServerSend.toGo_request h
  exact ⟨g, hg, parse_json hfind hg⟩

/-- A device with the given actions that shares no directory. -/
def Surroundings.unshared (configured : List CommandActionConfiguration) : Surroundings where
  configured := configured
  listed := daemonActions configured
  listed_perm := List.Perm.refl _
  queued := true
  allowed := false
  opened := false
  statted := false
  size := goZero
  part := fun _ => .readError

/-- With no configured action the list of actions agrees. -/
theorem ends_agree_no_actions :
    Agrees (fun _ => "") (.actionListUpdate (some [updateAction.toRequest])) ∧
    parse (fun fields => fields.lookup "method") ServerRequest.actionListQuery.json =
      some (some .actionListQuery) := by
  have hfind : ∀ (fields : Fields) (method : String),
      fields.lookup "method" = some (.str method) → fields.lookup "method" = some (.str method) :=
    fun _ _ h => h
  obtain ⟨hclient, hserver⟩ := ends_agree hfind fun _ => ""
  refine ⟨(hclient (.reply ServerRequest.actionListQuery.json (.unshared [])) _ rfl).mpr ?_, ?_⟩
  · intro request hparse
    have hquery : parse (fun fields => fields.lookup "method") ServerRequest.actionListQuery.json =
        some (some .actionListQuery) := rfl
    rw [hquery] at hparse
    cases hparse
    intro a ha
    rcases mem_daemonActions ha with rfl | ⟨cfg, hcfg, -⟩
    · trivial
    · cases hcfg
  · obtain ⟨g, hg, hparse⟩ := hserver .ensureActions .actionListQuery rfl
    cases hg
    exact hparse

/-- The reply to a download that is refused, the list with an action that has no command and the
alert for an unknown request do not agree. -/
theorem error_cases_disagree :
    (∃ m, (Emission.reply
        (ServerRequest.fsFileDownload "1" "/etc/passwd" ["http://server/part0"] 5).json
        (.unshared [])).message (fun fields => fields.lookup "method") = some m ∧
      ∀ replace, ¬ Agrees replace m) ∧
    (∃ m, (Emission.reply ServerRequest.actionListQuery.json
        (.unshared [⟨"reboot", "Reboot", none, "", ⟨0, 0⟩⟩])).message
        (fun fields => fields.lookup "method") = some m ∧
      ∀ replace, ¬ Agrees replace m) ∧
    ∃ m, (Emission.reply [("method", .str "reboot")] (.unshared [])).message
        (fun fields => fields.lookup "method") = some m ∧
      ∀ replace, ¬ Agrees replace m := by
  refine ⟨⟨_, rfl, fun replace h => ((agrees_iff _).mp h).2.1 rfl⟩, ⟨_, rfl, fun replace h => ?_⟩,
    ⟨_, rfl, fun replace h => ((agrees_iff _).mp h).2.2 trivial⟩⟩
  obtain ⟨-, ⟨l, hl, hcommand⟩, -⟩ := (agrees_iff _).mp h
  cases hl
  exact hcommand (newCommandAction ⟨"reboot", "Reboot", none, "", ⟨0, 0⟩⟩).toRequest (by decide) rfl

end Rdfm.Protocol
