import Rdfm.Server.PackageUpload
import Rdfm.Server.TokenGates

/-!
# Scopes of uploads

`is_authorized_to_upload` reads the types of the payloads in an artifact and asks for a scope for
each of them. The archives and the JSON in them come from the user. A header without payloads asks
for no scope at all, a payload without a type hides those behind it, and whatever is not of the
expected shape raises an exception that is not caught. Everything else is decided right
(`upload_scopes_iff`).
-/

namespace Rdfm.Server

open Rdfm.Lib Rdfm.Protocol

/-! ## Reading an artifact -/

/-- The exceptions that are told apart: `tarfile.ReadError`, `KeyError` and all others. -/
inductive ArchiveError where
  | readError
  | keyError
  | other
deriving DecidableEq, Repr

/-- `tarfile` and `json`. An archive is opened by its path or from a file object, `extractfile`
returns nothing for a member that is no file, and reading a file object may raise. -/
structure ArtifactReader where
  Archive : Type
  File : Type
  openPath : Bytes → Except ArchiveError Archive
  openFile : File → Except ArchiveError Archive
  extractfile : Archive → String → Except ArchiveError (Option File)
  load : File → Except ArchiveError Json

/-- `json[key]`. What is no object raises `TypeError`. -/
def Json.getItem (json : Json) (key : String) : Except ArchiveError Json :=
  match json with
  | .obj fields =>
    match pyGet fields key with
    | some value => .ok value
    | none => .error .keyError
  | _ => .error .other

/-- What a loop over a value goes through: the items of an array, the keys of an object, or the
characters of a string. -/
def Json.iterate : Json → Except ArchiveError (List Json)
  | .arr items => .ok items
  | .obj fields => .ok (fields.map fun f => .str f.1)
  | .str s => .ok (s.toList.map fun c => .str (String.singleton c))
  | _ => .error .other

/-- The loop over the payloads: the types, and the exception that ends it. -/
def readTypes : List Json → List Json × Option ArchiveError
  | [] => ([], none)
  | payload :: payloads =>
    match Json.getItem payload "type" with
    | .error e => ([], some e)
    | .ok type => (type :: (readTypes payloads).1, (readTypes payloads).2)

/-- The text that a type is compared as. One that is no string is equal to none of the names. -/
def typeText : Json → String
  | .str s => s
  | _ => ""

def ArchiveError.tarEnd : ArchiveError → TarEnd
  | .readError => .unreadable
  | .keyError => .unreadable
  | .other => .exception

namespace ArtifactReader

variable (reader : ArtifactReader)

/-- The value of `header-info`. Without a file object, `tarfile.open` has nothing to open and
`json.load` has nothing to read. -/
def headerInfo (content : Bytes) : Except ArchiveError Json := do
  let packageTar ← reader.openPath content
  let some headerIo ← reader.extractfile packageTar "header.tar" | throw .other
  let headerTar ← reader.openFile headerIo
  let some headerInfoIo ← reader.extractfile headerTar "header-info" | throw .other
  reader.load headerInfoIo

/-- The types in an artifact, and how the `try` block ends. -/
def payloadTypes (content : Bytes) : List String × TarEnd :=
  let payloads := do
    let headerInfoJson ← reader.headerInfo content
    let payloads ← Json.getItem headerInfoJson "payloads"
    Json.iterate payloads
  match payloads with
  | .error e => ([], e.tarEnd)
  | .ok payloads =>
    ((readTypes payloads).1.map typeText, ((readTypes payloads).2.map ArchiveError.tarEnd).getD .complete)

end ArtifactReader

/-- The server reads artifacts with these libraries. -/
def ServerConfig.reading (conf : ServerConfig) (reader : ArtifactReader) : ServerConfig :=
  { conf with payloadTypes := reader.payloadTypes }

/-! ## The decision -/

/-- An item of the payloads has a type. -/
def HasType (payload : Json) (type : String) : Prop :=
  ∃ value, Json.getItem payload "type" = .ok value ∧ typeText value = type

/-- The artifact has a payload of a type. -/
def HasPayload (header : Except ArchiveError Json) (type : String) : Prop :=
  ∃ info items payload, header = .ok info ∧ Json.getItem info "payloads" = .ok (.arr items) ∧
    payload ∈ items ∧ HasType payload type

/-- The user may upload the artifact: with the scope for everything, or with the scopes for the types
of all payloads, where an artifact without any counts as nonstandard. -/
def MayUpload (scopes : List String) (header : Except ArchiveError Json) : Prop :=
  scopeReadWrite ∈ scopes ∨
    (∀ type, HasPayload header type → artifactTypeToScope type ∈ scopes) ∧
    ((∀ type, ¬ HasPayload header type) → scopeNonstandardArtifact ∈ scopes)

/-- The scopes that an upload can ask for. -/
def uploadScopes : List String :=
  [scopeReadWrite, scopeSingleFile, scopeRootfsImage, scopeNonstandardArtifact]

/-- There is a decision, and only who may upload the artifact is authorised, which needs some scope
in any case. -/
def DecidedRight (conf : ServerConfig) (reader : ArtifactReader) (content : Bytes)
    (scopes : List String) : Prop :=
  ∃ authorized requiredScopes,
    isAuthorizedToUpload (conf.reading reader) content scopes = some (authorized, requiredScopes) ∧
    (authorized = true → MayUpload scopes (reader.headerInfo content)) ∧
    (authorized = true → ∃ scope ∈ uploadScopes, scope ∈ scopes)

/-- A value that a loop does not enter. -/
def EmptyContainer (json : Json) : Prop := json = .arr [] ∨ json = .obj [] ∨ json = .str ""

/-- The headers that are decided right for a user. -/
inductive Sound (scopes : List String) : Except ArchiveError Json → Prop where
  | unreadable : Sound scopes (.error .readError)
  | missing : Sound scopes (.error .keyError)
  | noPayloads {fields : Fields} (h : pyGet fields "payloads" = none) :
      Sound scopes (.ok (.obj fields))
  | empty {fields : Fields} {payloads : Json} (h : pyGet fields "payloads" = some payloads)
      (hempty : EmptyContainer payloads)
      (hscopes : scopeReadWrite ∈ scopes ∨ scopeNonstandardArtifact ∈ scopes) :
      Sound scopes (.ok (.obj fields))
  | typed {fields : Fields} {items : List Json} (h : pyGet fields "payloads" = some (.arr items))
      (hne : items ≠ []) (htyped : ∀ payload ∈ items, ∃ type, HasType payload type) :
      Sound scopes (.ok (.obj fields))
  | untyped {fields untyped : Fields} {before after : List Json}
      (h : pyGet fields "payloads" = some (.arr (before ++ .obj untyped :: after)))
      (htyped : ∀ payload ∈ before, ∃ type, HasType payload type)
      (huntyped : pyGet untyped "type" = none)
      (hscopes : scopeReadWrite ∈ scopes ∨ scopeNonstandardArtifact ∉ scopes ∨
        (∃ payload ∈ before, ∃ type, HasType payload type ∧ artifactTypeToScope type ∉ scopes) ∨
        ∀ payload ∈ after, ∀ type, HasType payload type → artifactTypeToScope type ∈ scopes) :
      Sound scopes (.ok (.obj fields))

/-! ## Types -/

section Types

theorem artifactTypeToScope_mem (type : String) : artifactTypeToScope type ∈ uploadScopes := by
  unfold artifactTypeToScope uploadScopes
  split_ifs <;> simp

/-- Who may upload an artifact has some scope. -/
theorem MayUpload.scope {scopes : List String} {header : Except ArchiveError Json}
    (h : MayUpload scopes header) : ∃ scope ∈ uploadScopes, scope ∈ scopes := by
  rcases h with hall | ⟨htypes, hnone⟩
  · exact ⟨scopeReadWrite, by simp [uploadScopes], hall⟩
  · by_cases hpayload : ∃ type, HasPayload header type
    · obtain ⟨type, hpayload⟩ := hpayload
      exact ⟨_, artifactTypeToScope_mem type, htypes type hpayload⟩
    · exact ⟨_, artifactTypeToScope_mem "nonstandard", hnone (not_exists.mp hpayload)⟩

theorem hasType_iff {payload value : Json} (h : Json.getItem payload "type" = .ok value)
    {type : String} : HasType payload type ↔ type = typeText value := by
  constructor
  · rintro ⟨value', hvalue, rfl⟩
    rw [h] at hvalue
    cases hvalue
    rfl
  · rintro rfl
    exact ⟨value, h, rfl⟩

/-- The loop goes on over items that have a type. -/
theorem readTypes_append {items : List Json} (h : ∀ payload ∈ items, ∃ type, HasType payload type)
    (rest : List Json) :
    readTypes (items ++ rest) =
      ((readTypes items).1 ++ (readTypes rest).1, (readTypes rest).2) := by
  induction items with
  | nil => rfl
  | cons payload items ih =>
    obtain ⟨⟨type, value, hvalue, -⟩, hitems⟩ := List.forall_mem_cons.mp h
    simp [readTypes, hvalue, ih hitems]

/-- The types of items that all have one. -/
theorem mem_readTypes {items : List Json} (h : ∀ payload ∈ items, ∃ type, HasType payload type)
    {type : String} :
    type ∈ (readTypes items).1.map typeText ↔ ∃ payload ∈ items, HasType payload type := by
  induction items with
  | nil => simp [readTypes]
  | cons payload items ih =>
    obtain ⟨⟨_, value, hvalue, -⟩, hitems⟩ := List.forall_mem_cons.mp h
    have hfirst : (readTypes (payload :: items)).1 = value :: (readTypes items).1 := by
      simp [readTypes, hvalue]
    rw [hfirst, List.map_cons, List.mem_cons, ih hitems, List.exists_mem_cons_iff,
      hasType_iff hvalue]

/-- All items have a type, or there is a first one without. -/
theorem typed_or_first (items : List Json) :
    (∀ payload ∈ items, ∃ type, HasType payload type) ∨
    ∃ before payload after e, items = before ++ payload :: after ∧
      (∀ payload ∈ before, ∃ type, HasType payload type) ∧
      Json.getItem payload "type" = .error e := by
  induction items with
  | nil => exact .inl nofun
  | cons payload items ih =>
    cases hitem : Json.getItem payload "type" with
    | error e => exact .inr ⟨[], payload, items, e, rfl, nofun, hitem⟩
    | ok value =>
      have hfirst : ∃ type, HasType payload type := ⟨_, value, hitem, rfl⟩
      rcases ih with hall | ⟨before, next, after, e, rfl, hall, hnext⟩
      · exact .inl (List.forall_mem_cons.mpr ⟨hfirst, hall⟩)
      · exact .inr ⟨payload :: before, next, after, e, rfl,
          List.forall_mem_cons.mpr ⟨hfirst, hall⟩, hnext⟩

theorem not_hasType {payload : Json} {e : ArchiveError}
    (h : Json.getItem payload "type" = .error e) : ¬ ∃ type, HasType payload type := by
  rintro ⟨type, value, hvalue, -⟩
  rw [h] at hvalue
  cases hvalue

/-- Only an object can be without a type and be caught. -/
theorem getItem_error {payload : Json} {e : ArchiveError}
    (h : Json.getItem payload "type" = .error e) :
    e = .other ∨ e = .keyError ∧ ∃ untyped, payload = .obj untyped ∧ pyGet untyped "type" = none := by
  cases payload with
  | obj fields =>
    unfold Json.getItem at h
    dsimp only at h
    split at h
    · cases h
    · next hnone =>
      cases h
      exact .inr ⟨rfl, fields, rfl, hnone⟩
  | _ =>
    cases h
    exact .inl rfl

end Types

/-! ## Decisions -/

section Decisions

variable {conf : ServerConfig} {reader : ArtifactReader} {content : Bytes} {scopes : List String}

/-- A user with the scope for everything, or one of the required scopes for each type. -/
theorem all_scopes_iff (types : List String) :
    ((types.map getScopesForUploadPackage).all fun required =>
        scopes.any fun scope => required.contains scope) = true ↔
      scopeReadWrite ∈ scopes ∨ ∀ type ∈ types, artifactTypeToScope type ∈ scopes := by
  have hone : ∀ type, (scopes.any fun scope =>
      (getScopesForUploadPackage type).contains scope) = true ↔
        scopeReadWrite ∈ scopes ∨ artifactTypeToScope type ∈ scopes := by
    intro type
    simp only [getScopesForUploadPackage, List.any_eq_true, List.contains_iff_mem, List.mem_dedup,
      List.mem_cons, List.not_mem_nil, or_false]
    constructor
    · rintro ⟨scope, hscope, rfl | rfl⟩
      · exact .inr hscope
      · exact .inl hscope
    · rintro (hscope | hscope)
      · exact ⟨_, hscope, .inr rfl⟩
      · exact ⟨_, hscope, .inl rfl⟩
  simp only [List.all_map, List.all_eq_true, Function.comp_apply, hone]
  by_cases hall : scopeReadWrite ∈ scopes
  · simp [hall]
  · simp [hall]

/-- The types that scopes are required for. -/
def requiredTypes (types : List String) (tarEnd : TarEnd) : List String :=
  if tarEnd = .unreadable then types ++ ["nonstandard"] else types

/-- The decision, given the types that are read in the header. -/
theorem isAuthorizedToUpload_reading (hauth : conf.disableApiAuth = false) {types : List String}
    {tarEnd : TarEnd} (htypes : reader.payloadTypes content = (types, tarEnd)) :
    isAuthorizedToUpload (conf.reading reader) content scopes =
      if tarEnd = .exception then none
      else some (((requiredTypes types tarEnd).map getScopesForUploadPackage).all fun required =>
        scopes.any fun scope => required.contains scope,
          (requiredTypes types tarEnd).map getScopesForUploadPackage) := by
  unfold isAuthorizedToUpload ServerConfig.reading
  dsimp only
  rw [hauth, htypes]
  rfl

/-- What has to be shown of a header, given the types that are read in it. -/
theorem decidedRight_iff (hauth : conf.disableApiAuth = false) {types : List String}
    {tarEnd : TarEnd} (htypes : reader.payloadTypes content = (types, tarEnd)) :
    DecidedRight conf reader content scopes ↔ tarEnd ≠ .exception ∧
      ((scopeReadWrite ∈ scopes ∨ ∀ type ∈ requiredTypes types tarEnd,
        artifactTypeToScope type ∈ scopes) → MayUpload scopes (reader.headerInfo content)) := by
  unfold DecidedRight
  rw [isAuthorizedToUpload_reading hauth htypes]
  by_cases hend : tarEnd = .exception
  · simp [hend]
  · rw [if_neg hend, ← all_scopes_iff]
    constructor
    · rintro ⟨_, _, heq, hmay, -⟩
      cases heq
      exact ⟨hend, hmay⟩
    · rintro ⟨-, hmay⟩
      exact ⟨_, _, rfl, hmay, fun hauthorized => (hmay hauthorized).scope⟩

/-- The types in an artifact whose header holds these payloads. -/
theorem payloadTypes_of_items {header : Json} {items : List Json}
    (hheader : reader.headerInfo content = .ok header) {payloads : Json}
    (hpayloads : Json.getItem header "payloads" = .ok payloads)
    (hitems : Json.iterate payloads = .ok items) :
    reader.payloadTypes content = ((readTypes items).1.map typeText,
      ((readTypes items).2.map ArchiveError.tarEnd).getD .complete) := by
  unfold ArtifactReader.payloadTypes
  simp only [hheader, hpayloads, hitems, bind, Except.bind]

/-- The reading ends before the payloads. -/
theorem payloadTypes_of_error {e : ArchiveError}
    (h : (reader.headerInfo content).bind (fun header =>
      (Json.getItem header "payloads").bind Json.iterate) = .error e) :
    reader.payloadTypes content = ([], e.tarEnd) := by
  unfold ArtifactReader.payloadTypes
  simp only [bind, h]

theorem hasPayload_iff {header payloads : Json}
    (hpayloads : Json.getItem header "payloads" = .ok payloads) {type : String} :
    HasPayload (.ok header) type ↔ ∃ items, payloads = .arr items ∧
      ∃ payload ∈ items, HasType payload type := by
  constructor
  · rintro ⟨info, items, payload, ⟨⟩, hitems, hmem, htype⟩
    rw [hpayloads] at hitems
    cases hitems
    exact ⟨items, rfl, payload, hmem, htype⟩
  · rintro ⟨items, rfl, payload, hmem, htype⟩
    exact ⟨header, items, payload, rfl, hpayloads, hmem, htype⟩

/-- An artifact without payloads is one for the nonstandard scope. -/
theorem mayUpload_of_none {header : Except ArchiveError Json}
    (h : ∀ type, ¬ HasPayload header type) :
    MayUpload scopes header ↔ scopeReadWrite ∈ scopes ∨ scopeNonstandardArtifact ∈ scopes := by
  unfold MayUpload
  refine or_congr_right ⟨fun hmay => hmay.2 h, fun hscope => ⟨fun type hpayload => ?_, fun _ => hscope⟩⟩
  exact absurd hpayload (h type)

variable (hauth : conf.disableApiAuth = false)
include hauth

/-- A reading that ends with one of the exceptions that are caught. -/
theorem decidedRight_caught {e : ArchiveError} (hcaught : e.tarEnd = .unreadable)
    (htypes : reader.payloadTypes content = ([], e.tarEnd))
    (hnone : ∀ type, ¬ HasPayload (reader.headerInfo content) type) :
    DecidedRight conf reader content scopes := by
  rw [decidedRight_iff hauth htypes, hcaught, mayUpload_of_none hnone]
  refine ⟨nofun, Or.imp_right fun hall => ?_⟩
  exact hall "nonstandard" (by simp [requiredTypes])

/-- A reading that ends with another exception. -/
theorem not_decidedRight_raised {types : List String}
    (htypes : reader.payloadTypes content = (types, .exception)) :
    ¬ DecidedRight conf reader content scopes := by
  rw [decidedRight_iff hauth htypes]
  exact fun h => h.1 rfl

/-- A header whose payloads are an empty container. -/
theorem decidedRight_empty_iff {header payloads : Json}
    (hheader : reader.headerInfo content = .ok header)
    (hpayloads : Json.getItem header "payloads" = .ok payloads) (hempty : EmptyContainer payloads) :
    DecidedRight conf reader content scopes ↔
      scopeReadWrite ∈ scopes ∨ scopeNonstandardArtifact ∈ scopes := by
  have hitems : Json.iterate payloads = .ok [] := by
    rcases hempty with rfl | rfl | rfl <;> rfl
  have hnone : ∀ type, ¬ HasPayload (reader.headerInfo content) type := by
    intro type hpayload
    rw [hheader, hasPayload_iff hpayloads] at hpayload
    obtain ⟨items, rfl, payload, hmem, -⟩ := hpayload
    cases hitems
    cases hmem
  rw [decidedRight_iff hauth (payloadTypes_of_items hheader hpayloads hitems),
    mayUpload_of_none hnone]
  simp [readTypes, requiredTypes]

/-- A header in which every payload has a type. -/
theorem decidedRight_typed {header : Json} {items : List Json} (hne : items ≠ [])
    (hheader : reader.headerInfo content = .ok header)
    (hpayloads : Json.getItem header "payloads" = .ok (.arr items))
    (htyped : ∀ payload ∈ items, ∃ type, HasType payload type) :
    DecidedRight conf reader content scopes := by
  have hend : (readTypes items).2 = none := by
    have happend := congrArg Prod.snd (readTypes_append htyped [])
    rw [List.append_nil] at happend
    exact happend
  have htypes := @payloadTypes_of_items reader content header items hheader _ hpayloads rfl
  rw [hend] at htypes
  rw [decidedRight_iff hauth htypes, hheader]
  refine ⟨nofun, Or.imp_right fun hscopes => ⟨fun type hpayload => ?_, fun hnone => ?_⟩⟩
  · obtain ⟨_, ⟨⟩, hpayload⟩ := (hasPayload_iff hpayloads).mp hpayload
    exact hscopes type ((mem_readTypes htyped).mpr hpayload)
  · obtain ⟨payload, hpayload⟩ := List.exists_mem_of_ne_nil items hne
    obtain ⟨type, htype⟩ := htyped payload hpayload
    exact absurd ((hasPayload_iff hpayloads).mpr ⟨items, rfl, payload, hpayload, htype⟩) (hnone type)

/-- A header whose first payload without a type is an object: the types behind it are not read. -/
theorem decidedRight_untyped_iff {header : Json} {before after : List Json} {untyped : Fields}
    (hheader : reader.headerInfo content = .ok header)
    (hpayloads : Json.getItem header "payloads" = .ok (.arr (before ++ .obj untyped :: after)))
    (htyped : ∀ payload ∈ before, ∃ type, HasType payload type)
    (huntyped : pyGet untyped "type" = none) :
    DecidedRight conf reader content scopes ↔
      scopeReadWrite ∈ scopes ∨ scopeNonstandardArtifact ∉ scopes ∨
        (∃ payload ∈ before, ∃ type, HasType payload type ∧ artifactTypeToScope type ∉ scopes) ∨
        ∀ payload ∈ after, ∀ type, HasType payload type → artifactTypeToScope type ∈ scopes := by
  have herror : Json.getItem (.obj untyped) "type" = .error .keyError := by
    simp [Json.getItem, huntyped]
  have htypes : reader.payloadTypes content =
      ((readTypes before).1.map typeText, .unreadable) := by
    rw [payloadTypes_of_items hheader hpayloads rfl, readTypes_append htyped]
    simp [readTypes, herror, ArchiveError.tarEnd]
  have hrequired : (∀ type ∈ requiredTypes ((readTypes before).1.map typeText) .unreadable,
      artifactTypeToScope type ∈ scopes) ↔
        (∀ payload ∈ before, ∀ type, HasType payload type → artifactTypeToScope type ∈ scopes) ∧
          scopeNonstandardArtifact ∈ scopes := by
    simp only [requiredTypes, if_true, List.forall_mem_append, mem_readTypes htyped,
      List.forall_mem_singleton]
    refine and_congr ⟨fun h payload hmem type htype => h type ⟨payload, hmem, htype⟩, ?_⟩ Iff.rfl
    rintro h type ⟨payload, hmem, htype⟩
    exact h payload hmem type htype
  have hpayload (type : String) : HasPayload (reader.headerInfo content) type ↔
      (∃ payload ∈ before, HasType payload type) ∨ ∃ payload ∈ after, HasType payload type := by
    have hnone : ¬ HasType (.obj untyped) type := fun h => not_hasType herror ⟨type, h⟩
    rw [hheader, hasPayload_iff hpayloads]
    simp [hnone, or_and_right, exists_or]
  rw [decidedRight_iff hauth htypes, hrequired]
  constructor
  · rintro ⟨-, hmay⟩
    by_contra hgap
    simp only [not_or, not_not, not_exists, not_and] at hgap
    obtain ⟨hnot, hscope, hcovered, hafter⟩ := hgap
    rcases hmay (.inr ⟨hcovered, hscope⟩) with hall | ⟨hscopes, -⟩
    · exact hnot hall
    · exact hafter fun payload hmem type htype =>
        hscopes type ((hpayload type).mpr (.inr ⟨payload, hmem, htype⟩))
  · intro hscopes
    refine ⟨nofun, fun hauthorized => ?_⟩
    rcases hauthorized with hall | ⟨hcovered, hscope⟩
    · exact .inl hall
    · rcases hscopes with hall | hnot | ⟨payload, hmem, type, htype, hnot⟩ | hafter
      · exact .inl hall
      · exact absurd hscope hnot
      · exact absurd (hcovered payload hmem type htype) hnot
      · refine .inr ⟨fun type htype => ?_, fun _ => hscope⟩
        rcases (hpayload type).mp htype with ⟨payload, hmem, htype⟩ | ⟨payload, hmem, htype⟩
        · exact hcovered payload hmem type htype
        · exact hafter payload hmem type htype

/-- A value of another shape raises. -/
theorem not_decidedRight_error (h : (reader.headerInfo content).bind (fun header =>
      (Json.getItem header "payloads").bind Json.iterate) = .error .other) :
    ¬ DecidedRight conf reader content scopes :=
  not_decidedRight_raised hauth (payloadTypes_of_error h)

/-- An item that is no object raises. -/
theorem not_decidedRight_items {header payloads payload : Json} {before after : List Json}
    (hheader : reader.headerInfo content = .ok header)
    (hpayloads : Json.getItem header "payloads" = .ok payloads)
    (hitems : Json.iterate payloads = .ok (before ++ payload :: after))
    (htyped : ∀ payload ∈ before, ∃ type, HasType payload type)
    (herror : Json.getItem payload "type" = .error .other) :
    ¬ DecidedRight conf reader content scopes := by
  have htypes : reader.payloadTypes content = ((readTypes before).1.map typeText, .exception) := by
    rw [payloadTypes_of_items hheader hpayloads hitems, readTypes_append htyped]
    simp [readTypes, herror, ArchiveError.tarEnd]
  exact not_decidedRight_raised hauth htypes

/-- What is decided right is sound. -/
theorem sound_of_decidedRight {fields : Fields} {payloads : Json}
    (hheader : reader.headerInfo content = .ok (.obj fields))
    (hpayloads : pyGet fields "payloads" = some payloads)
    (h : DecidedRight conf reader content scopes) : Sound scopes (.ok (.obj fields)) := by
  have hget : Json.getItem (.obj fields) "payloads" = .ok payloads := by
    simp [Json.getItem, hpayloads]
  by_cases hempty : EmptyContainer payloads
  · exact .empty hpayloads hempty ((decidedRight_empty_iff hauth hheader hget hempty).mp h)
  · cases payloads with
    | arr items =>
      have hne : items ≠ [] := by
        rintro rfl
        exact hempty (.inl rfl)
      rcases typed_or_first items with htyped | ⟨before, payload, after, e, rfl, htyped, herror⟩
      · exact .typed hpayloads hne htyped
      · rcases getItem_error herror with rfl | ⟨rfl, untyped, rfl, huntyped⟩
        · exact absurd h (not_decidedRight_items hauth hheader hget rfl htyped herror)
        · exact .untyped hpayloads htyped huntyped
            ((decidedRight_untyped_iff hauth hheader hget htyped huntyped).mp h)
    | obj keys =>
      cases keys with
      | nil => exact absurd (.inr (.inl rfl)) hempty
      | cons key keys =>
        exact absurd h (@not_decidedRight_items conf reader content scopes hauth _ _ (.str key.1) []
          (keys.map fun f => .str f.1) hheader hget rfl nofun rfl)
    | str text =>
      cases hchars : text.toList with
      | nil => exact absurd (.inr (.inr (by rw [String.toList_eq_nil_iff.mp hchars]))) hempty
      | cons c chars =>
        have hiterate : Json.iterate (.str text) = .ok ([] ++ .str (String.singleton c) ::
            chars.map fun c => .str (String.singleton c)) := by
          simp [Json.iterate, hchars]
        exact absurd h (not_decidedRight_items hauth hheader hget hiterate nofun rfl)
    | _ =>
      refine absurd h (not_decidedRight_error hauth ?_)
      rw [hheader]
      simp [Except.bind, hget, Json.iterate]

end Decisions

/-- **Uploads are decided right** exactly for the headers that are sound for the user. -/
theorem upload_scopes_iff (conf : ServerConfig) (hauth : conf.disableApiAuth = false)
    (reader : ArtifactReader) (content : Bytes) (scopes : List String) :
    DecidedRight conf reader content scopes ↔ Sound scopes (reader.headerInfo content) := by
  cases hheader : reader.headerInfo content with
  | error e =>
    have htypes : reader.payloadTypes content = ([], e.tarEnd) :=
      payloadTypes_of_error (by rw [hheader]; rfl)
    have hnone : ∀ type, ¬ HasPayload (reader.headerInfo content) type := by
      rintro type ⟨_, _, _, hok, -⟩
      rw [hheader] at hok
      cases hok
    cases e with
    | readError => exact iff_of_true (decidedRight_caught hauth rfl htypes hnone) .unreadable
    | keyError => exact iff_of_true (decidedRight_caught hauth rfl htypes hnone) .missing
    | other => exact iff_of_false (not_decidedRight_raised hauth htypes) nofun
  | ok header =>
    cases header with
    | obj fields =>
      cases hpayloads : pyGet fields "payloads" with
      | none =>
        have htypes : reader.payloadTypes content = ([], ArchiveError.keyError.tarEnd) :=
          payloadTypes_of_error (by rw [hheader]; simp [Except.bind, Json.getItem, hpayloads])
        refine iff_of_true (decidedRight_caught hauth rfl htypes ?_) (.noPayloads hpayloads)
        rintro type ⟨_, _, _, hok, hitems, -⟩
        rw [hheader] at hok
        cases hok
        simp [Json.getItem, hpayloads] at hitems
      | some payloads =>
        have hget : Json.getItem (.obj fields) "payloads" = .ok payloads := by
          simp [Json.getItem, hpayloads]
        constructor
        · intro h
          exact sound_of_decidedRight hauth hheader hpayloads h
        · intro hsound
          cases hsound with
          | noPayloads hnone => cases hpayloads.symm.trans hnone
          | empty h hempty hscopes =>
            cases hpayloads.symm.trans h
            exact (decidedRight_empty_iff hauth hheader hget hempty).mpr hscopes
          | typed h hne htyped =>
            cases hpayloads.symm.trans h
            exact decidedRight_typed hauth hne hheader hget htyped
          | untyped h htyped huntyped hscopes =>
            cases hpayloads.symm.trans h
            exact (decidedRight_untyped_iff hauth hheader hget htyped huntyped).mpr hscopes
    | _ =>
      refine iff_of_false (not_decidedRight_error hauth ?_) nofun
      rw [hheader]
      rfl

namespace UploadScopesRun

/-! An archive as `tarfile` reads it, with the headers of regular files only. -/

/-- The bytes of an ASCII text, filled up with zeros. -/
def field (size : Nat) (text : String) : Bytes :=
  let bytes := text.toList.map fun c => UInt8.ofNat c.toNat
  bytes ++ List.replicate (size - bytes.length) 0

def octal : Nat → Nat → Bytes
  | 0, _ => []
  | digits + 1, n => octal digits (n / 8) ++ [UInt8.ofNat (48 + n % 8)]

def sumBytes (bytes : Bytes) : Nat := bytes.foldl (fun n b => n + b.toNat) 0

/-- The header of a file has the sum of its bytes in it; in the sum, these count as blanks. -/
def tarHeader (name : String) (size : Nat) : Bytes :=
  let before := field 124 name ++ octal 11 size ++ field 13 ""
  let after := field 356 "0"
  before ++ octal 6 (sumBytes before + 8 * 32 + sumBytes after) ++ [0, 32] ++ after

def padding (n : Nat) : Nat := (512 - n % 512) % 512

/-- An archive with one file. -/
def tarFile (name : String) (content : Bytes) : Bytes :=
  tarHeader name content.length ++ content ++ List.replicate (padding content.length + 1024) 0

def readOctal (bytes : Bytes) : Nat :=
  (bytes.takeWhile fun b => 48 ≤ b ∧ b < 56).foldl (fun n b => 8 * n + (b.toNat - 48)) 0

def readText (bytes : Bytes) : String :=
  String.ofList ((bytes.takeWhile fun b => b ≠ 0).map fun b => Char.ofNat b.toNat)

/-- The members of an archive, at most so many. -/
def readTar : Nat → Bytes → Except ArchiveError (List (String × Bytes))
  | 0, _ => .ok []
  | members + 1, bytes =>
    let block := bytes.take 512
    if block.length < 512 then .error .readError
    else if block.all fun b => b = 0 then .ok []
    else if readOctal ((block.drop 148).take 8) ≠
        sumBytes (block.take 148) + 8 * 32 + sumBytes (block.drop 156) then .error .readError
    else
      let size := readOctal ((block.drop 124).take 12)
      match readTar members (bytes.drop (512 + size + padding size)) with
      | .error e => .error e
      | .ok rest => .ok ((readText (block.take 100), (bytes.drop 512).take size) :: rest)

def emptyText : String := "\x7b\"payloads\": []\x7d"

def untypedText : String :=
  "\x7b\"payloads\": [\x7b\x7d, \x7b\"type\": \"rootfs-image\"\x7d]\x7d"

def rootfsPayload : Json := .obj [("type", .str "rootfs-image")]

/-- The values of these texts. -/
def loadText (text : String) : Except ArchiveError Json :=
  if text = emptyText then .ok (.obj [("payloads", .arr [])])
  else if text = untypedText then .ok (.obj [("payloads", .arr [.obj [], rootfsPayload])])
  else if text = "[]" then .ok (.arr [])
  else .error .other

def member (archive : List (String × Bytes)) (name : String) : Except ArchiveError Bytes :=
  match archive.find? fun member => member.1 = name with
  | none => .error .keyError
  | some member => .ok member.2

def reader : ArtifactReader where
  Archive := List (String × Bytes)
  File := Bytes
  openPath := readTar 8
  openFile := readTar 8
  extractfile archive name := (member archive name).map some
  load content := loadText (readText content)

/-- The text of `header-info`. -/
def headerText (content : Bytes) : Except ArchiveError String := do
  let package ← readTar 8 content
  let header ← readTar 8 (← member package "header.tar")
  return readText (← member header "header-info")

theorem headerInfo_of_text (content : Bytes) (text : String) (h : headerText content = .ok text) :
    reader.headerInfo content = loadText text := by
  obtain ⟨package, hpackage, h⟩ := bind_ok_iff.mp h
  obtain ⟨headerTar, hheaderTar, h⟩ := bind_ok_iff.mp h
  obtain ⟨header, hheader, h⟩ := bind_ok_iff.mp h
  obtain ⟨info, hinfo, h⟩ := bind_ok_iff.mp h
  cases h
  simp only [ArtifactReader.headerInfo, reader, hpackage, hheaderTar, hheader, hinfo, bind,
    Except.bind, Except.map]

/-- An artifact with this text as its header. -/
def artifact (headerInfo : String) : Bytes :=
  tarFile "header.tar" (tarFile "header-info" (field 0 headerInfo))

theorem headerInfo_empty :
    reader.headerInfo (artifact emptyText) = .ok (.obj [("payloads", .arr [])]) :=
  headerInfo_of_text _ emptyText (by decide +kernel)

theorem headerInfo_untyped : reader.headerInfo (artifact untypedText) =
    .ok (.obj [("payloads", .arr [.obj [], rootfsPayload])]) :=
  headerInfo_of_text _ untypedText (by decide +kernel)

theorem headerInfo_list : reader.headerInfo (artifact "[]") = .ok (.arr []) :=
  headerInfo_of_text _ "[]" (by decide +kernel)

end UploadScopesRun

open UploadScopesRun PackageUploadRun

theorem upload_scopes_nonstandard :
    DecidedRight conf reader (artifact emptyText) [scopeNonstandardArtifact] := by
  rw [upload_scopes_iff conf rfl, headerInfo_empty]
  exact .empty rfl (.inl rfl) (.inr (List.mem_singleton_self _))

/-- A user without scopes may upload an artifact whose header has no payloads. A payload without a
type hides that of a root file system, and a header that is a list raises. -/
theorem upload_scopes_bypassed :
    isAuthorizedToUpload (conf.reading reader) (artifact emptyText) [] = some (true, []) ∧
    ¬ DecidedRight conf reader (artifact emptyText) [] ∧
    ¬ DecidedRight conf reader (artifact untypedText) [scopeNonstandardArtifact] ∧
    isAuthorizedToUpload (conf.reading reader) (artifact "[]") [scopeReadWrite] = none ∧
    ¬ DecidedRight conf reader (artifact "[]") [scopeReadWrite] := by
  have hempty : reader.payloadTypes (artifact emptyText) = ([], .complete) :=
    payloadTypes_of_items headerInfo_empty rfl rfl
  have hlist : reader.payloadTypes (artifact "[]") = ([], .exception) :=
    @payloadTypes_of_error reader (artifact "[]") .other (by rw [headerInfo_list]; rfl)
  refine ⟨?_, ?_, ?_, ?_, not_decidedRight_raised rfl hlist⟩
  · rw [isAuthorizedToUpload_reading rfl hempty]
    rfl
  · rw [decidedRight_empty_iff rfl headerInfo_empty rfl (.inl rfl)]
    decide
  · rw [@decidedRight_untyped_iff conf reader (artifact untypedText) _ rfl _ [] _ []
      headerInfo_untyped rfl nofun rfl]
    rintro (h | h | ⟨payload, hmem, -⟩ | h)
    · exact absurd h (by decide)
    · exact h (by decide)
    · cases hmem
    · exact absurd (h _ (List.mem_singleton_self _) "rootfs-image" ⟨_, rfl, rfl⟩) (by decide)
  · rw [isAuthorizedToUpload_reading rfl hlist]
    rfl

end Rdfm.Server
