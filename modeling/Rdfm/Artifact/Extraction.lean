import Rdfm.Artifact.GroupArtifact

/-!
# Extraction of artifacts on the mcumgr agent

The agent reads an update that it was served into a store in memory, describes the artifact in its
log, and gives it to the updater of the device. The library calls the store (`StorerCall`), one for
all payloads: which calls it makes, with what, is a parameter (`Served`). Each of the three steps can
panic, and the store forgets its files when it is initialized again. `update_task_iff` says exactly
when the agent survives, and when an extracted artifact has the files of every payload.
-/

namespace Rdfm.Artifact

open Rdfm.Lib

/-! ## What is served -/

/-- A file of a payload, with the size that its header declares. -/
structure ServedFile where
  name : Text
  size : Nat
  data : Bytes
deriving DecidableEq, Repr

/-- What a buffer of the declared size is filled with. -/
def ServedFile.content (f : ServedFile) : Bytes := f.data.take f.size

/-- A payload. Its type is null in an artifact without payload data. -/
structure ServedPayload where
  type : Option Text
  files : List ServedFile
deriving DecidableEq, Repr

/-- The value of the compatible devices in the dependencies; items may be other than strings. -/
inductive DeviceTypes where
  | absent
  | noList
  | list (items : List (Option Text))
deriving DecidableEq, Repr

/-- A call of the library on the store of the update. -/
inductive StorerCall where
  | newUpdateStorer (updateType : Option Text)
  | initializeStorer
  | storeUpdate (file : ServedFile)
deriving DecidableEq, Repr

/-- An artifact whose headers can be read. -/
structure Served where
  payloads : List ServedPayload
  /-- The calls of `ReadArtifactData`, as long as they return no error. -/
  calls : List StorerCall
  /-- Nothing else is wrong with the data. -/
  dataOk : Bool
  /-- `MergeArtifactDepends`; `none` is an error. -/
  deviceTypes : Option DeviceTypes
  /-- `MergeArtifactProvides`; `none` is an error. -/
  provides : Option StringMap

/-! ## Extraction -/

/-- How an extraction ends early. -/
inductive Stop where
  | panic
  | failed (e : ExtractError)
deriving DecidableEq, Repr

/-- `MemStore`; a map that was not made is nil. -/
structure MemStore where
  updateType : Text
  extractedFiles : Option (AList fun _ : Text => Bytes)

namespace MemStore

/-- The files, as they are counted and ranged over. -/
def files (m : MemStore) : AList fun _ : Text => Bytes := m.extractedFiles.getD ∅

/-- `NewUpdateStorer`, `Initialize` and `StoreUpdate`, when slices have at most `memory` bytes. -/
def call (memory : Nat) (m : MemStore) : StorerCall → Except Stop MemStore
  | .newUpdateStorer none => .error .panic
  | .newUpdateStorer (some updateType) => .ok { m with updateType := updateType }
  | .initializeStorer => .ok { m with extractedFiles := some ∅ }
  | .storeUpdate f =>
    if memory < f.size then .error .panic
    else if f.data.length < f.size then .error (.failed .library)
    else
      match m.extractedFiles with
      | none => .error .panic
      | some extractedFiles =>
        .ok { m with extractedFiles := some (extractedFiles.insert f.name f.content) }

end MemStore

section Extraction

variable (memory : Nat) (sha256 : Bytes → Bytes)

/-- What `ExtractGroupArtifact` does with the files that were read. -/
def assembleGroup (files : AList fun _ : Text => Bytes)
    (common : Except ExtractError (List Text × StringMap)) : Except ExtractError GroupArtifact := do
  let (compatible, provides) ← common
  let devImgMap ← files.entries.foldlM (checkImage sha256 provides) ∅
  match provides.lookup groupArtifactVersion with
  | none => .error .noVersion
  | some version => .ok ⟨devImgMap, version, compatible⟩

/-- What `ExtractZephyrArtifact` does with the files that were read. -/
def assembleZephyr (files : AList fun _ : Text => Bytes)
    (common : Except ExtractError (List Text × StringMap)) : Except ExtractError ZephyrArtifact := do
  match files.entries with
  | [file] =>
    let (compatible, provides) ← common
    match provides.lookup (zephyrArtifactPrefix ++ ".checksum".toList) with
    | none => .error .noChecksum
    | some expectedHash =>
      if hexText (sha256 file.2) ≠ expectedHash.map Char.toLower then .error .malformed
      else
        match provides.lookup (zephyrArtifactPrefix ++ ".version".toList) with
        | none => .error .noVersion
        | some version => .ok ⟨file.2, version, compatible⟩
  | files => .error (.fileCount files.length)

namespace Served

variable (served : Served)

/-- `ReadArtifactToMem`. -/
def readArtifactToMem : Except Stop MemStore := do
  let store ← served.calls.foldlM (MemStore.call memory) ⟨[], none⟩
  if served.dataOk then .ok store else .error (.failed .library)

/-- `ExtractArtifactCommon`. -/
def extractArtifactCommon : Except ExtractError (List Text × StringMap) :=
  match served.deviceTypes with
  | none => .error .library
  | some (.list items) =>
    match items.mapM id with
    | none => .error .noCompatible
    | some compatible =>
      match served.provides with
      | none => .error .library
      | some provides => .ok (compatible, provides)
  | some _ => .error .noCompatible

/-- `ExtractGroupArtifact`. -/
def extractGroupArtifact : Except Stop GroupArtifact := do
  let store ← served.readArtifactToMem memory
  (assembleGroup sha256 store.files served.extractArtifactCommon).mapError .failed

/-- `ExtractZephyrArtifact`. -/
def extractZephyrArtifact : Except Stop ZephyrArtifact := do
  let store ← served.readArtifactToMem memory
  (assembleZephyr sha256 store.files served.extractArtifactCommon).mapError .failed

/-- `ExtractArtifact`, when the headers have been read. -/
def extractArtifact : Except Stop Extracted :=
  match served.payloads with
  | [] => .error (.failed .noUpdates)
  | payload :: _ =>
    match payload.type with
    | none => .error .panic
    | some type =>
      if type = zephyrArtifactPrefix then .zephyr <$> served.extractZephyrArtifact memory sha256
      else if type = groupArtifactPrefix then .group <$> served.extractGroupArtifact memory sha256
      else .error (.failed (.unknownType type))

end Served

/-! ## The update task -/

/-- `GroupArtifact.String`; `none` is a panic, the slice of the targets is out of range. -/
def GroupArtifact.string (ga : GroupArtifact) : Option Text :=
  let targets := ga.images.entries.flatMap fun e => e.1 ++ ", ".toList
  if targets.length < 2 then none
  else
    some ("Group artifact: version ".toList ++ ga.version ++ ", ".toList ++
      itoa ga.images.entries.length ++ " images, targets [".toList ++
      targets.take (targets.length - 2) ++ "]".toList)

/-- `ZephyrArtifact.String`. -/
def ZephyrArtifact.string (za : ZephyrArtifact) : Text :=
  "Zephyr artifact: version ".toList ++ za.version ++ ", size ".toList ++ itoa za.image.length ++
    " bytes".toList

def Extracted.string : Extracted → Option Text
  | .zephyr za => some za.string
  | .group ga => ga.string

/-- The updater of a device. -/
inductive Updater where
  | single
  | group
deriving DecidableEq, Repr

/-- The type assertion at the start of `RunUpdate`. -/
def Updater.supports : Updater → Extracted → Bool
  | .single, .zephyr _ => true
  | .group, .group _ => true
  | _, _ => false

inductive TaskEnd where
  | panics
  /-- `Artifact extraction failed`. -/
  | extractionFailed (e : ExtractError)
  /-- `Unsupported artifact type (...)`. -/
  | unsupported
  /-- The updater goes on with the artifact. -/
  | runs (artifact : Extracted)

/-- `runUpdateTask`, from the bytes that were fetched to the updater. The reader is the library's:
`none` if the headers cannot be read. -/
def runUpdateTask (reader : Bytes → Option Served) (updater : Updater) (artBytes : Bytes) :
    TaskEnd :=
  match reader artBytes with
  | none => .extractionFailed .library
  | some served =>
    match served.extractArtifact memory sha256 with
    | .error .panic => .panics
    | .error (.failed e) => .extractionFailed e
    | .ok art =>
      match art.string with
      | none => .panics
      | some _ => if updater.supports art then .runs art else .unsupported

end Extraction

/-! ## The calls on the store -/

/-- A store is initialized before the first file is stored in it. -/
def Initialized : Bool → List StorerCall → Prop
  | _, [] => True
  | ready, .newUpdateStorer _ :: calls => Initialized ready calls
  | _, .initializeStorer :: calls => Initialized true calls
  | ready, .storeUpdate _ :: calls => ready = true ∧ Initialized ready calls

/-- A call that panics: the type is null, or the buffer cannot be allocated. -/
def Crashes (memory : Nat) : StorerCall → Bool
  | .newUpdateStorer updateType => updateType.isNone
  | .initializeStorer => false
  | .storeUpdate f => decide (memory < f.size)

/-- A call that returns an error: the file ends early. -/
def EndsEarly : StorerCall → Bool
  | .storeUpdate f => decide (f.data.length < f.size)
  | _ => false

def Stops (memory : Nat) (c : StorerCall) : Bool := Crashes memory c || EndsEarly c

/-- The files that a store keeps, after a call. -/
def keep (kept : List ServedFile) : StorerCall → List ServedFile
  | .newUpdateStorer _ => kept
  | .initializeStorer => []
  | .storeUpdate f => kept ++ [f]

/-- The files that are stored after a store was initialized for the last time. -/
def keptFiles (calls : List StorerCall) : List ServedFile := calls.foldl keep []

def fileEntries (files : List ServedFile) : List ((_ : Text) × Bytes) :=
  files.map fun f => ⟨f.name, f.content⟩

section Calls

variable {memory : Nat} {m : MemStore} {calls : List StorerCall}

theorem call_crashes {c : StorerCall} (h : Crashes memory c = true) :
    m.call memory c = .error .panic := by
  cases c with
  | newUpdateStorer updateType =>
    cases updateType with
    | none => rfl
    | some updateType => cases h
  | initializeStorer => cases h
  | storeUpdate f => exact if_pos (of_decide_eq_true h)

/-- The store holds these files. -/
def MemStore.Holds (m : MemStore) (kept : List ServedFile) : Prop :=
  m.files = putAll ∅ (fileEntries kept)

/-- The calls in turn: the first one that stops decides, and without one the kept files are held. -/
theorem run_calls (memory : Nat) (kept : List ServedFile)
    (hready : Initialized m.extractedFiles.isSome calls) (hholds : m.Holds kept) :
    match calls.find? (Stops memory) with
    | some c => calls.foldlM (MemStore.call memory) m =
        .error (if Crashes memory c then .panic else .failed .library)
    | none => ∃ m' : MemStore, calls.foldlM (MemStore.call memory) m = .ok m' ∧
        m'.Holds (calls.foldl keep kept) := by
  induction calls generalizing m kept with
  | nil => exact ⟨m, rfl, hholds⟩
  | cons c calls ih =>
    rw [List.find?_cons]
    cases hcrash : Crashes memory c with
    | true =>
      have hstops : Stops memory c = true := by
        unfold Stops
        rw [hcrash, Bool.true_or]
      rw [hstops]
      dsimp only
      rw [hcrash, if_pos rfl, List.foldlM_cons, call_crashes hcrash]
      rfl
    | false =>
      cases c with
      | newUpdateStorer updateType =>
        cases updateType with
        | none => cases hcrash
        | some updateType => exact ih (m := { m with updateType := updateType }) kept hready hholds
      | initializeStorer => exact ih (m := { m with extractedFiles := some ∅ }) [] hready rfl
      | storeUpdate f =>
        have hmemory : ¬ memory < f.size := of_decide_eq_false hcrash
        by_cases hshort : f.data.length < f.size
        · have hearly : EndsEarly (.storeUpdate f) = true := decide_eq_true hshort
          have hstops : Stops memory (.storeUpdate f) = true := by
            unfold Stops
            rw [hearly, Bool.or_true]
          have hcall : m.call memory (.storeUpdate f) = .error (.failed .library) :=
            (if_neg hmemory).trans (if_pos hshort)
          rw [hstops]
          dsimp only
          rw [hcrash, if_neg Bool.false_ne_true, List.foldlM_cons, hcall]
          rfl
        · have hearly : EndsEarly (.storeUpdate f) = false := decide_eq_false hshort
          have hstops : Stops memory (.storeUpdate f) = false := by
            unfold Stops
            rw [hcrash, hearly]
            rfl
          obtain ⟨files, hfiles⟩ := Option.isSome_iff_exists.mp hready.1
          have hcall : m.call memory (.storeUpdate f) =
              .ok { m with extractedFiles := some (files.insert f.name f.content) } := by
            refine (if_neg hmemory).trans ((if_neg hshort).trans ?_)
            rw [hfiles]
          have hinsert : MemStore.Holds
              { m with extractedFiles := some (files.insert f.name f.content) } (kept ++ [f]) := by
            unfold MemStore.Holds MemStore.files at hholds ⊢
            rw [hfiles, Option.getD_some] at hholds
            rw [Option.getD_some, hholds]
            unfold fileEntries
            rw [List.map_append, List.map_singleton, putAll_concat]
          rw [hstops, List.foldlM_cons, hcall]
          exact ih (kept ++ [f]) (by rw [hfiles] at hready; exact hready.2) hinsert

end Calls

/-! ## Reading -/

section Reading

variable {memory : Nat} {sha256 : Bytes → Bytes} {served : Served} {store : MemStore}

/-- `ReadArtifactData` returns without an error. -/
def Served.Readable (memory : Nat) (served : Served) : Prop :=
  served.calls.find? (Stops memory) = none ∧ served.dataOk = true

theorem readArtifactToMem_panic_iff (hinit : Initialized false served.calls) :
    served.readArtifactToMem memory = .error .panic ↔
      ∃ c, served.calls.find? (Stops memory) = some c ∧ Crashes memory c = true := by
  have hrun := run_calls memory (m := ⟨[], none⟩) [] hinit rfl
  unfold Served.readArtifactToMem
  cases hfind : served.calls.find? (Stops memory) with
  | some c =>
    rw [hfind] at hrun
    dsimp only at hrun
    rw [hrun]
    cases hcrash : Crashes memory c with
    | true => exact iff_of_true rfl ⟨c, rfl, hcrash⟩
    | false =>
      refine iff_of_false (fun h => ?_) ?_
      · cases h
      · rintro ⟨c', hc', hcrash'⟩
        cases hc'
        rw [hcrash] at hcrash'
        cases hcrash'
  | none =>
    rw [hfind] at hrun
    obtain ⟨m', hm', -⟩ := hrun
    rw [hm']
    refine iff_of_false (fun h => ?_) fun h => ?_
    · cases hok : served.dataOk with
      | true =>
        rw [hok] at h
        cases h
      | false =>
        rw [hok] at h
        cases h
    · obtain ⟨c, hc, -⟩ := h
      cases hc

theorem readArtifactToMem_ok (hinit : Initialized false served.calls)
    (h : served.readArtifactToMem memory = .ok store) :
    served.Readable memory ∧ store.Holds (keptFiles served.calls) := by
  have hrun := run_calls memory (m := ⟨[], none⟩) [] hinit rfl
  obtain ⟨m', hm', h⟩ := bind_ok_iff.mp h
  split at h
  · next hok =>
    cases h
    cases hfind : served.calls.find? (Stops memory) with
    | some c =>
      rw [hfind] at hrun
      rw [hrun] at hm'
      cases hm'
    | none =>
      rw [hfind] at hrun
      obtain ⟨m'', hm'', hholds⟩ := hrun
      cases hm'.symm.trans hm''
      exact ⟨⟨hfind, hok⟩, hholds⟩
  · cases h

theorem readArtifactToMem_of_readable (hinit : Initialized false served.calls)
    (h : served.Readable memory) :
    ∃ store, served.readArtifactToMem memory = .ok store ∧
      store.Holds (keptFiles served.calls) := by
  have hrun := run_calls memory (m := ⟨[], none⟩) [] hinit rfl
  rw [h.1] at hrun
  obtain ⟨m', hm', hholds⟩ := hrun
  refine ⟨m', bind_ok_iff.mpr ⟨m', hm', ?_⟩, hholds⟩
  rw [if_pos h.2]

end Reading

/-! ## Assembling -/

section Assembling

variable {sha256 : Bytes → Bytes} {files : AList fun _ : Text => Bytes}
  {common : Except ExtractError (List Text × StringMap)} {provides : StringMap}

/-- The images are the files, with their checksums. -/
theorem checkImages_ok {entries : List ((_ : Text) × Bytes)}
    {devImgMap images : AList fun _ : Text => AFile}
    (h : entries.foldlM (checkImage sha256 provides) devImgMap = .ok images) :
    images = putAll devImgMap (entries.map fun f => ⟨f.1, ⟨f.2, sha256 f.2⟩⟩) := by
  induction entries generalizing devImgMap with
  | nil =>
    cases h
    rfl
  | cons f entries ih =>
    rw [List.foldlM_cons] at h
    obtain ⟨devImgMap', hcheck, h⟩ := bind_ok_iff.mp h
    rw [ih h]
    unfold checkImage at hcheck
    dsimp only at hcheck
    split at hcheck
    · cases hcheck
    · split at hcheck
      · cases hcheck
      · cases hcheck
        rfl

theorem assembleGroup_ok {ga : GroupArtifact} (h : assembleGroup sha256 files common = .ok ga) :
    (∃ compatible provides version, common = .ok (compatible, provides) ∧
        provides.lookup groupArtifactVersion = some version) ∧
      ∀ name, (ga.images.lookup name).map AFile.data = files.lookup name := by
  obtain ⟨⟨compatible, provides⟩, hcommon, h⟩ := bind_ok_iff.mp h
  obtain ⟨images, himages, h⟩ := bind_ok_iff.mp h
  cases hversion : provides.lookup groupArtifactVersion with
  | none =>
    rw [hversion] at h
    cases h
  | some version =>
    rw [hversion] at h
    cases h
    refine ⟨⟨compatible, provides, version, hcommon, hversion⟩, fun name => ?_⟩
    dsimp only
    rw [checkImages_ok himages, lookup_images, Option.map_map]
    exact Option.map_id'

theorem assembleZephyr_ok {za : ZephyrArtifact}
    (h : assembleZephyr sha256 files common = .ok za) :
    ∃ name, files.entries = [⟨name, za.image⟩] := by
  unfold assembleZephyr at h
  split at h
  · next file hfile =>
    obtain ⟨⟨compatible, provides⟩, -, h⟩ := bind_ok_iff.mp h
    dsimp only at h
    split at h
    · cases h
    · split at h
      · cases h
      · split at h
        · cases h
        · cases h
          exact ⟨file.1, hfile⟩
  · cases h

end Assembling

/-! ## When the agent survives -/

namespace Served

variable (memory : Nat) (served : Served)

/-- The type that decides how the artifact is extracted. -/
def updateType : Option Text := served.payloads.head?.bind ServedPayload.type

/-- A group artifact has what it needs besides its files. -/
def HasGroupHeader : Prop :=
  ∃ compatible provides version, served.extractArtifactCommon = .ok (compatible, provides) ∧
    provides.lookup groupArtifactVersion = some version

/-- No panic: the type of the first payload is not null; if the artifact is read, the first call
that stops is not one that panics; and a group artifact that is otherwise complete has an image. -/
structure Survivable : Prop where
  type : ∀ payload, served.payloads.head? = some payload → payload.type ≠ none
  calls : served.updateType = some zephyrArtifactPrefix ∨
      served.updateType = some groupArtifactPrefix →
    ∀ c, served.calls.find? (Stops memory) = some c → Crashes memory c = false
  images : served.updateType = some groupArtifactPrefix → served.Readable memory →
    served.HasGroupHeader → keptFiles served.calls ≠ []

/-- The image of every device in a payload is in the artifact, and that of a Zephyr artifact is the
content of every file. -/
def ContainsAll : Extracted → Prop
  | .group ga => ∀ payload ∈ served.payloads, ∀ f ∈ payload.files,
      (ga.images.lookup f.name).map AFile.data = some f.content
  | .zephyr za => ∀ payload ∈ served.payloads, ∀ f ∈ payload.files, za.image = f.content

/-- Every file has the content of the last one of its name that is kept; in a Zephyr artifact, of
the last one that is kept. -/
def KeepsAll : Extracted → Prop
  | .group _ => ∀ payload ∈ served.payloads, ∀ f ∈ payload.files,
      ((keptFiles served.calls).filter (·.name = f.name)).getLast?.map ServedFile.content =
        some f.content
  | .zephyr _ => ∀ payload ∈ served.payloads, ∀ f ∈ payload.files,
      (keptFiles served.calls).getLast?.map ServedFile.content = some f.content

end Served

section Task

variable {memory : Nat} {sha256 : Bytes → Bytes} {served : Served}

theorem lookup_fileEntries {files : List ServedFile} {name : Text} :
    (putAll ∅ (fileEntries files)).lookup name =
      (files.filter (·.name = name)).getLast?.map ServedFile.content := by
  rw [lookup_putAll_last, AList.lookup_empty, Option.or_none]
  unfold fileEntries
  rw [List.filter_map, List.getLast?_map, Option.map_map]
  rfl

theorem string_eq_none_iff {ga : GroupArtifact} : ga.string = none ↔ ga.images.entries = [] := by
  unfold GroupArtifact.string
  dsimp only
  cases ga.images.entries with
  | nil => exact iff_of_true rfl rfl
  | cons e entries =>
    rw [if_neg]
    · exact iff_of_false nofun (List.cons_ne_nil _ _)
    · rw [List.flatMap_cons, List.length_append, List.length_append]
      have htwo : (", ".toList).length = 2 := rfl
      omega

/-- What is done with the files that were read does not panic. -/
theorem read_panic_iff {α β : Type} {x : Except Stop α} {f : α → Except ExtractError β} :
    (x >>= fun a => (f a).mapError .failed) = .error .panic ↔ x = .error .panic := by
  cases x with
  | error e =>
    have hbind : ((.error e : Except Stop α) >>= fun a => (f a).mapError .failed) = .error e := rfl
    rw [hbind, Except.error.injEq, Except.error.injEq]
  | ok a =>
    have hbind : ((.ok a : Except Stop α) >>= fun a => (f a).mapError .failed) =
      (f a).mapError .failed := rfl
    rw [hbind]
    refine iff_of_false (fun h => ?_) nofun
    cases hf : f a with
    | error e =>
      rw [hf] at h
      cases h
    | ok b =>
      rw [hf] at h
      cases h

theorem read_ok_iff {α β : Type} {x : Except Stop α} {f : α → Except ExtractError β} {b : β} :
    (x >>= fun a => (f a).mapError .failed) = .ok b ↔ ∃ a, x = .ok a ∧ f a = .ok b := by
  rw [bind_ok_iff]
  refine exists_congr fun a => and_congr_right fun _ => ?_
  cases f a with
  | error e => exact iff_of_false nofun nofun
  | ok b' => exact ⟨fun h => by cases h; rfl, fun h => by cases h; rfl⟩

theorem map_panic_iff {α β : Type} {x : Except Stop α} {f : α → β} :
    f <$> x = .error .panic ↔ x = .error .panic := by
  cases x with
  | error e => exact ⟨fun h => by cases h; rfl, fun h => by cases h; rfl⟩
  | ok a => exact iff_of_false nofun nofun

theorem map_ok_iff {α β : Type} {x : Except Stop α} {f : α → β} {b : β} :
    f <$> x = .ok b ↔ ∃ a, x = .ok a ∧ f a = b := by
  cases x with
  | error e => exact iff_of_false nofun nofun
  | ok a =>
    constructor
    · intro h
      cases h
      exact ⟨a, rfl, rfl⟩
    · rintro ⟨a', ha, rfl⟩
      cases ha
      rfl

/-- An extraction panics on a null type, or while the artifact is read. -/
theorem extract_panic_iff :
    served.extractArtifact memory sha256 = .error .panic ↔
      (∃ payload, served.payloads.head? = some payload ∧ payload.type = none) ∨
        (served.updateType = some zephyrArtifactPrefix ∨
          served.updateType = some groupArtifactPrefix) ∧
          served.readArtifactToMem memory = .error .panic := by
  unfold Served.extractArtifact Served.updateType
  cases hpayloads : served.payloads with
  | nil =>
    refine iff_of_false nofun ?_
    rintro (⟨payload, hpayload, -⟩ | ⟨htype | htype, -⟩)
    · cases hpayload
    · cases htype
    · cases htype
  | cons payload rest =>
    rw [List.head?_cons, Option.bind_some]
    dsimp only
    cases htype : payload.type with
    | none => exact iff_of_true rfl (.inl ⟨payload, rfl, htype⟩)
    | some type =>
      have hsome : ¬ ∃ payload', some payload = some payload' ∧ payload'.type = none := by
        rintro ⟨payload', heq, hnone⟩
        cases heq
        rw [htype] at hnone
        cases hnone
      rw [or_iff_right hsome, Option.some.injEq, Option.some.injEq]
      dsimp only
      split
      · next hzephyr =>
        rw [map_panic_iff]
        exact read_panic_iff.trans ⟨fun h => ⟨.inl hzephyr, h⟩, And.right⟩
      · next hzephyr =>
        split
        · next hgroup =>
          rw [map_panic_iff]
          exact read_panic_iff.trans ⟨fun h => ⟨.inr hgroup, h⟩, And.right⟩
        · next hgroup =>
          exact iff_of_false nofun fun h => h.1.elim hzephyr hgroup

/-- What an extracted artifact was assembled from. -/
def Served.Assembles (sha256 : Bytes → Bytes) (served : Served) (store : MemStore) :
    Extracted → Prop
  | .zephyr za => served.updateType = some zephyrArtifactPrefix ∧
      assembleZephyr sha256 store.files served.extractArtifactCommon = .ok za
  | .group ga => served.updateType = some groupArtifactPrefix ∧
      assembleGroup sha256 store.files served.extractArtifactCommon = .ok ga

theorem extract_ok {art : Extracted} (h : served.extractArtifact memory sha256 = .ok art) :
    ∃ store, served.readArtifactToMem memory = .ok store ∧ served.Assembles sha256 store art := by
  unfold Served.extractArtifact at h
  unfold Served.Assembles Served.updateType
  cases hpayloads : served.payloads with
  | nil =>
    rw [hpayloads] at h
    cases h
  | cons payload rest =>
    rw [hpayloads] at h
    dsimp only at h
    rw [List.head?_cons, Option.bind_some]
    cases htype : payload.type with
    | none =>
      rw [htype] at h
      cases h
    | some type =>
      rw [htype] at h
      dsimp only at h
      split at h
      · next hzephyr =>
        obtain ⟨za, hextract, rfl⟩ := map_ok_iff.mp h
        obtain ⟨store, hstore, hassemble⟩ := read_ok_iff.mp hextract
        exact ⟨store, hstore, congrArg some hzephyr, hassemble⟩
      · split at h
        · next hgroup =>
          obtain ⟨ga, hextract, rfl⟩ := map_ok_iff.mp h
          obtain ⟨store, hstore, hassemble⟩ := read_ok_iff.mp hextract
          exact ⟨store, hstore, congrArg some hgroup, hassemble⟩
        · cases h

theorem entries_eq_nil_iff {files : AList fun _ : Text => Bytes} {kept : List ServedFile}
    (hfiles : files = putAll ∅ (fileEntries kept)) : files.entries = [] ↔ kept = [] := by
  constructor
  · intro hnil
    cases kept with
    | nil => rfl
    | cons f rest =>
      have hsome : ∃ data, (putAll (∅ : AList fun _ : Text => Bytes)
          (fileEntries (f :: rest))).lookup f.name = some data :=
        lookup_putAll_isSome (.inr ⟨f.content, List.mem_cons_self⟩)
      obtain ⟨data, hdata⟩ := hsome
      rw [← hfiles] at hdata
      have hmem := AList.mem_lookup_iff.mp hdata
      rw [hnil] at hmem
      cases hmem
  · rintro rfl
    rw [hfiles]
    rfl

/-- An extracted group artifact has an image if a file was kept. -/
theorem images_eq_nil_iff {store : MemStore} {ga : GroupArtifact}
    (hholds : store.Holds (keptFiles served.calls))
    (hassemble : assembleGroup sha256 store.files served.extractArtifactCommon = .ok ga) :
    ga.images.entries = [] ↔ keptFiles served.calls = [] := by
  rw [← entries_eq_nil_iff hholds]
  have hlookup := (assembleGroup_ok hassemble).2
  constructor
  · intro hnil
    apply List.eq_nil_iff_forall_not_mem.mpr
    rintro ⟨name, data⟩ hmem
    have hdata := hlookup name
    rw [AList.mem_lookup_iff.mpr hmem] at hdata
    obtain ⟨image, himage, -⟩ := Option.map_eq_some_iff.mp hdata
    have hmem' := AList.mem_lookup_iff.mp himage
    rw [hnil] at hmem'
    cases hmem'
  · intro hnil
    apply List.eq_nil_iff_forall_not_mem.mpr
    rintro ⟨name, image⟩ hmem
    have hdata := hlookup name
    rw [AList.mem_lookup_iff.mpr hmem, Option.map_some] at hdata
    have hmem' := AList.mem_lookup_iff.mp hdata.symm
    rw [hnil] at hmem'
    cases hmem'

/-- Without files, nothing but the header decides. -/
theorem assembleGroup_of_nil (sha256 : Bytes → Bytes) {store : MemStore}
    (hnil : store.files.entries = []) (hheader : served.HasGroupHeader) :
    ∃ ga, assembleGroup sha256 store.files served.extractArtifactCommon = .ok ga := by
  obtain ⟨compatible, provides, version, hcommon, hversion⟩ := hheader
  refine ⟨⟨∅, version, compatible⟩, bind_ok_iff.mpr ⟨_, hcommon, ?_⟩⟩
  refine bind_ok_iff.mpr ⟨∅, by rw [hnil]; rfl, ?_⟩
  rw [hversion]

/-- A group artifact is extracted from the files that are read. -/
theorem extract_group {store : MemStore} {ga : GroupArtifact}
    (htype : served.updateType = some groupArtifactPrefix)
    (hread : served.readArtifactToMem memory = .ok store)
    (hassemble : assembleGroup sha256 store.files served.extractArtifactCommon = .ok ga) :
    served.extractArtifact memory sha256 = .ok (.group ga) := by
  unfold Served.updateType at htype
  unfold Served.extractArtifact
  cases hpayloads : served.payloads with
  | nil =>
    rw [hpayloads] at htype
    cases htype
  | cons payload rest =>
    rw [hpayloads, List.head?_cons, Option.bind_some] at htype
    have hne : ¬ groupArtifactPrefix = zephyrArtifactPrefix := by decide
    dsimp only
    rw [htype]
    dsimp only
    rw [if_neg hne, if_pos rfl, map_ok_iff]
    exact ⟨ga, read_ok_iff.mpr ⟨store, hread, hassemble⟩, rfl⟩

theorem survivable_iff (sha256 : Bytes → Bytes) (hinit : Initialized false served.calls) :
    served.Survivable memory ↔ served.extractArtifact memory sha256 ≠ .error .panic ∧
      ∀ art, served.extractArtifact memory sha256 = .ok art → art.string ≠ none := by
  constructor
  · intro h
    constructor
    · intro hpanic
      rcases extract_panic_iff.mp hpanic with ⟨payload, hpayload, hnull⟩ | ⟨htype, hread⟩
      · exact h.type payload hpayload hnull
      · obtain ⟨c, hc, hcrash⟩ := (readArtifactToMem_panic_iff hinit).mp hread
        rw [h.calls htype c hc] at hcrash
        cases hcrash
    · intro art hextract
      obtain ⟨store, hread, hassembles⟩ := extract_ok hextract
      obtain ⟨hreadable, hholds⟩ := readArtifactToMem_ok hinit hread
      cases art with
      | zephyr za => exact nofun
      | group ga =>
        intro hstring
        have himages := (images_eq_nil_iff hholds hassembles.2).mp (string_eq_none_iff.mp hstring)
        exact h.images hassembles.1 hreadable (assembleGroup_ok hassembles.2).1 himages
  · rintro ⟨hpanic, hstring⟩
    refine ⟨fun payload hpayload hnull => ?_, fun htype c hc => ?_, fun htype hreadable hheader => ?_⟩
    · exact hpanic (extract_panic_iff.mpr (.inl ⟨payload, hpayload, hnull⟩))
    · cases hcrash : Crashes memory c with
      | false => rfl
      | true =>
        have hread := (readArtifactToMem_panic_iff hinit).mpr ⟨c, hc, hcrash⟩
        exact absurd (extract_panic_iff.mpr (.inr ⟨htype, hread⟩)) hpanic
    · intro hkept
      obtain ⟨store, hread, hholds⟩ := readArtifactToMem_of_readable hinit hreadable
      obtain ⟨ga, hassemble⟩ :=
        assembleGroup_of_nil sha256 ((entries_eq_nil_iff hholds).mpr hkept) hheader
      refine hstring _ (extract_group htype hread hassemble) ?_
      exact string_eq_none_iff.mpr ((images_eq_nil_iff hholds hassemble).mpr hkept)

theorem runUpdateTask_panics_iff {reader : Bytes → Option Served} {updater : Updater}
    {artBytes : Bytes} :
    runUpdateTask memory sha256 reader updater artBytes = .panics ↔
      ∃ served, reader artBytes = some served ∧
        (served.extractArtifact memory sha256 = .error .panic ∨
          ∃ art, served.extractArtifact memory sha256 = .ok art ∧ art.string = none) := by
  unfold runUpdateTask
  cases reader artBytes with
  | none =>
    refine iff_of_false nofun ?_
    rintro ⟨served, hserved, -⟩
    cases hserved
  | some served =>
    dsimp only
    constructor
    · intro h
      refine ⟨served, rfl, ?_⟩
      cases hextract : served.extractArtifact memory sha256 with
      | error stop =>
        cases stop with
        | panic => exact .inl rfl
        | failed e =>
          rw [hextract] at h
          cases h
      | ok art =>
        rw [hextract] at h
        cases hstring : art.string with
        | none => exact .inr ⟨art, rfl, hstring⟩
        | some text =>
          dsimp only at h
          rw [hstring] at h
          dsimp only at h
          split at h <;> cases h
    · rintro ⟨served', hserved, hpanic | ⟨art, hextract, hstring⟩⟩
      · cases hserved
        rw [hpanic]
      · cases hserved
        rw [hextract]
        dsimp only
        rw [hstring]

/-- The one file that a store has is the one that was kept last. -/
theorem last_kept_of_single {files : AList fun _ : Text => Bytes} {kept : List ServedFile}
    {name : Text} {image : Bytes} (hfiles : files = putAll ∅ (fileEntries kept))
    (hentries : files.entries = [⟨name, image⟩]) :
    kept.getLast?.map ServedFile.content = some image := by
  induction kept using List.reverseRecOn with
  | nil =>
    have hnil := (entries_eq_nil_iff hfiles).mpr rfl
    rw [hentries] at hnil
    cases hnil
  | append_singleton kept f _ =>
    have hlookup : files.lookup f.name = some f.content := by
      rw [hfiles, fileEntries, List.map_append, List.map_singleton, putAll_concat]
      exact AList.lookup_insert _
    have hmem := AList.mem_lookup_iff.mp hlookup
    rw [hentries, List.mem_singleton] at hmem
    cases hmem
    rw [List.getLast?_concat, Option.map_some]

/-- An extracted artifact has all files exactly when they are kept. -/
theorem containsAll_iff (hinit : Initialized false served.calls) {art : Extracted}
    (h : served.extractArtifact memory sha256 = .ok art) :
    served.ContainsAll art ↔ served.KeepsAll art := by
  obtain ⟨store, hread, hassembles⟩ := extract_ok h
  obtain ⟨-, hholds⟩ := readArtifactToMem_ok hinit hread
  cases art with
  | group ga =>
    have hlookup := (assembleGroup_ok hassembles.2).2
    unfold Served.ContainsAll Served.KeepsAll
    refine forall₂_congr fun payload _ => forall₂_congr fun f _ => ?_
    rw [hlookup, hholds, lookup_fileEntries]
  | zephyr za =>
    obtain ⟨name, hentries⟩ := assembleZephyr_ok hassembles.2
    unfold Served.ContainsAll Served.KeepsAll
    refine forall₂_congr fun payload _ => forall₂_congr fun f _ => ?_
    rw [last_kept_of_single hholds hentries, Option.some.injEq]

end Task

/-! ## Artifacts that are read in order -/

section View

variable {α : Type} {lib : MenderArtifact α} {memory : Nat} {sha256 : Bytes → Bytes}
  {view : ArtifactView}

/-- A file that arrives whole. -/
def wholeFile (f : Text × Bytes) : ServedFile := ⟨f.1, f.2.length, f.2⟩

/-- An artifact as the tool writes it, when the stores of all payloads are initialized before the
first file is handed over. -/
def Served.ofView (lib : MenderArtifact α) (view : ArtifactView) : Served where
  payloads := view.payloads.map fun p => ⟨some p.type, p.files.map wholeFile⟩
  calls := (view.payloads.flatMap fun p => [.newUpdateStorer (some p.type), .initializeStorer]) ++
    (view.payloads.flatMap Payload.files).map fun f => .storeUpdate (wholeFile f)
  dataOk := true
  deviceTypes := (lib.mergeArtifactDepends view).map fun depends =>
    match depends.lookup deviceTypeKey with
    | none => .absent
    | some (.str _) => .noList
    | some (.list items) => .list (items.map some)
  provides := lib.mergeArtifactProvides view

theorem keptFiles_stores (kept : List ServedFile) (files : List (Text × Bytes)) :
    (files.map fun f => StorerCall.storeUpdate (wholeFile f)).foldl keep kept =
      kept ++ files.map wholeFile := by
  induction files generalizing kept with
  | nil => exact (List.append_nil _).symm
  | cons f files ih =>
    have hstep := ih (kept ++ [wholeFile f])
    rw [List.append_assoc, List.singleton_append] at hstep
    exact hstep

theorem keptFiles_storers (payloads : List Payload) :
    (payloads.flatMap fun p =>
      [StorerCall.newUpdateStorer (some p.type), .initializeStorer]).foldl keep [] = [] := by
  induction payloads with
  | nil => rfl
  | cons p payloads ih => exact ih

/-- All files are kept. -/
theorem keptFiles_ofView :
    keptFiles (Served.ofView lib view).calls =
      (view.payloads.flatMap Payload.files).map wholeFile := by
  unfold keptFiles Served.ofView
  dsimp only
  rw [List.foldl_append, keptFiles_storers, keptFiles_stores, List.nil_append]

theorem initialized_stores (files : List (Text × Bytes)) :
    Initialized true (files.map fun f => StorerCall.storeUpdate (wholeFile f)) := by
  induction files with
  | nil => trivial
  | cons f files ih => exact ⟨rfl, ih⟩

theorem initialized_ofView : Initialized false (Served.ofView lib view).calls := by
  unfold Served.ofView
  dsimp only
  cases view.payloads with
  | nil => trivial
  | cons p payloads =>
    have hrest : ∀ (payloads : List Payload) (files : List (Text × Bytes)),
        Initialized true ((payloads.flatMap fun p =>
          [StorerCall.newUpdateStorer (some p.type), .initializeStorer]) ++
            files.map fun f => .storeUpdate (wholeFile f)) := by
      intro payloads files
      induction payloads with
      | nil => exact initialized_stores files
      | cons p payloads ih => exact ih
    exact hrest payloads _

theorem readable_ofView
    (hmemory : ∀ p ∈ view.payloads, ∀ f ∈ p.files, f.2.length ≤ memory) :
    (Served.ofView lib view).Readable memory := by
  refine ⟨List.find?_eq_none.mpr fun c hc => ?_, rfl⟩
  rw [Bool.not_eq_true]
  rcases List.mem_append.mp hc with hc | hc
  · obtain ⟨p, -, hp⟩ := List.mem_flatMap.mp hc
    rcases List.mem_cons.mp hp with rfl | hp
    · rfl
    · rw [List.mem_singleton.mp hp]
      rfl
  · obtain ⟨f, hf, rfl⟩ := List.mem_map.mp hc
    obtain ⟨p, hp, hf⟩ := List.mem_flatMap.mp hf
    have hcrash : Crashes memory (.storeUpdate (wholeFile f)) = false :=
      decide_eq_false (Nat.not_lt.mpr (hmemory p hp f hf))
    have hearly : EndsEarly (.storeUpdate (wholeFile f)) = false :=
      decide_eq_false (Nat.lt_irrefl _)
    unfold Stops
    rw [hcrash, hearly]
    rfl

theorem fileEntries_wholeFile (files : List (Text × Bytes)) :
    fileEntries (files.map wholeFile) = files.map fun f => ⟨f.1, f.2⟩ := by
  unfold fileEntries
  rw [List.map_map]
  apply List.map_congr_left
  intro f _
  have hcontent : (wholeFile f).content = f.2 := List.take_length
  dsimp only [Function.comp]
  rw [hcontent]
  rfl

theorem extractArtifactCommon_ofView :
    (Served.ofView lib view).extractArtifactCommon = extractArtifactCommon lib view := by
  unfold Served.extractArtifactCommon extractArtifactCommon Served.ofView
  cases lib.mergeArtifactDepends view with
  | none => rfl
  | some depends =>
    dsimp only [Option.map_some]
    cases depends.lookup deviceTypeKey with
    | none => rfl
    | some value =>
      cases value with
      | str s => rfl
      | list items =>
        have hitems : (items.map some).mapM id = some items := by
          induction items with
          | nil => rfl
          | cons item items ih =>
            rw [List.map_cons, List.mapM_cons, ih]
            rfl
        cases lib.mergeArtifactProvides view with
        | none => simp only [hitems]
        | some provides => simp only [hitems]

theorem mapError_map {β γ : Type} (x : Except ExtractError β) (f : β → γ) :
    f <$> x.mapError Stop.failed = (f <$> x).mapError Stop.failed := by
  cases x <;> rfl

/-- An artifact of the tool is extracted as if its files were simply there. -/
theorem extractArtifact_ofView {artifact : α} (hview : lib.readArtifact artifact = some view)
    (hmemory : ∀ p ∈ view.payloads, ∀ f ∈ p.files, f.2.length ≤ memory) :
    (Served.ofView lib view).extractArtifact memory sha256 =
      (extractArtifact lib sha256 artifact).mapError .failed := by
  have hreadable : (Served.ofView lib view).Readable memory := readable_ofView hmemory
  obtain ⟨store, hread, hholds⟩ := readArtifactToMem_of_readable initialized_ofView hreadable
  have hfiles : store.files = readArtifactToMem view := by
    unfold MemStore.Holds at hholds
    rw [hholds, keptFiles_ofView, fileEntries_wholeFile]
    rfl
  have hgroup : (Served.ofView lib view).extractGroupArtifact memory sha256 =
      (extractGroupArtifact lib sha256 view).mapError .failed := by
    unfold Served.extractGroupArtifact
    rw [hread, extractArtifactCommon_ofView]
    have hassemble : assembleGroup sha256 store.files (extractArtifactCommon lib view) =
        extractGroupArtifact lib sha256 view := by
      rw [hfiles]
      rfl
    exact congrArg (Except.mapError Stop.failed) hassemble
  have hzephyr : (Served.ofView lib view).extractZephyrArtifact memory sha256 =
      (extractZephyrArtifact lib sha256 view).mapError .failed := by
    unfold Served.extractZephyrArtifact
    rw [hread, extractArtifactCommon_ofView]
    have hassemble : assembleZephyr sha256 store.files (extractArtifactCommon lib view) =
        extractZephyrArtifact lib sha256 view := by
      rw [hfiles]
      rfl
    exact congrArg (Except.mapError Stop.failed) hassemble
  have hpayloads : (Served.ofView lib view).payloads =
      view.payloads.map fun p => ⟨some p.type, p.files.map wholeFile⟩ := rfl
  unfold Served.extractArtifact extractArtifact
  rw [hview, hpayloads]
  dsimp only
  cases view.payloads with
  | nil => rfl
  | cons payload rest =>
    rw [List.map_cons]
    dsimp only
    rw [hgroup, hzephyr]
    by_cases htype : payload.type = zephyrArtifactPrefix
    · rw [if_pos htype, if_pos htype]
      exact mapError_map _ _
    · rw [if_neg htype, if_neg htype]
      by_cases htype' : payload.type = groupArtifactPrefix
      · rw [if_pos htype', if_pos htype']
        exact mapError_map _ _
      · rw [if_neg htype', if_neg htype']
        rfl

end View

/-- **Extraction on the agent.** For every artifact that is served, and whatever calls the library
makes on the store, the update task ends without a panic exactly when the artifact is `Survivable`,
and what is extracted has the files of every payload exactly when they are all kept. -/
theorem update_task_iff (memory : Nat) (sha256 : Bytes → Bytes) (reader : Bytes → Option Served)
    (hreader : ∀ artBytes served, reader artBytes = some served → Initialized false served.calls)
    (updater : Updater) (artBytes : Bytes) :
    (runUpdateTask memory sha256 reader updater artBytes ≠ .panics ↔
        ∀ served, reader artBytes = some served → served.Survivable memory) ∧
      ∀ served art, reader artBytes = some served →
        served.extractArtifact memory sha256 = .ok art →
        (served.ContainsAll art ↔ served.KeepsAll art) := by
  constructor
  · rw [Ne, runUpdateTask_panics_iff]
    constructor
    · intro hnot served hserved
      rw [survivable_iff sha256 (hreader _ _ hserved)]
      refine ⟨fun hpanic => hnot ⟨served, hserved, .inl hpanic⟩, fun art hextract hstring => ?_⟩
      exact hnot ⟨served, hserved, .inr ⟨art, hextract, hstring⟩⟩
    · rintro h ⟨served, hserved, hends⟩
      have hsurvives := (survivable_iff sha256 (hreader _ _ hserved)).mp (h served hserved)
      rcases hends with hpanic | ⟨art, hextract, hstring⟩
      · exact hsurvives.1 hpanic
      · exact hsurvives.2 art hextract hstring
  · intro served art hserved hextract
    exact containsAll_iff (hreader _ _ hserved) hextract

namespace ExtractionRun

/-- A file `one` with this content, in a payload for a group. -/
def payload (content : Bytes) : ServedPayload :=
  ⟨some groupArtifactPrefix, [⟨"one".toList, content.length, content⟩]⟩

def storers : List StorerCall := [.newUpdateStorer (some groupArtifactPrefix), .initializeStorer]

/-- A group artifact whose checksum for `one` is that of the content. -/
def group (payloads : List ServedPayload) (calls : List StorerCall) (content : Bytes) : Served where
  payloads := payloads
  calls := calls
  dataOk := true
  deviceTypes := some (.list [some "dummy".toList])
  provides := some (((∅ : StringMap).insert groupArtifactVersion "1.0.0".toList).insert
    (targetKey groupArtifactTarget "one".toList) (hexText content))

/-- One payload. -/
def served : Served :=
  group [payload [1, 2]] (storers ++ [.storeUpdate ⟨"one".toList, 2, [1, 2]⟩]) [1, 2]

/-- A payload of null type. -/
def nullType : Served := group [⟨none, []⟩] [] []

/-- A payload without files. -/
def noFiles : Served := group [⟨some groupArtifactPrefix, []⟩] storers []

/-- Two payloads with a file of the same name. -/
def twice : Served :=
  group [payload [1, 2], payload [3]]
    (storers ++ storers ++ [.storeUpdate ⟨"one".toList, 2, [1, 2]⟩,
      .storeUpdate ⟨"one".toList, 1, [3]⟩]) [3]

end ExtractionRun

open ExtractionRun

theorem update_task_survives :
    runUpdateTask 4096 id (fun _ => some served) .group [] ≠ .panics ∧
      ∃ art, served.extractArtifact 4096 id = .ok art ∧ served.ContainsAll art := by
  have hreader : ∀ (artBytes : Bytes) (s : Served), (fun _ : Bytes => some served) artBytes = some s →
      Initialized false s.calls := by
    intro artBytes s hs
    cases hs
    exact ⟨rfl, trivial⟩
  obtain ⟨hsurvives, hcontains⟩ :=
    update_task_iff 4096 id (fun _ => some served) hreader .group []
  constructor
  · refine hsurvives.mpr ?_
    intro s hs
    cases hs
    refine ⟨?_, fun _ c hc => ?_, fun _ _ _ => nofun⟩
    · intro p hp
      cases hp
      exact nofun
    · cases hc
  · have hextract : ∃ ga, served.extractArtifact 4096 id = .ok (.group ga) := ⟨_, rfl⟩
    obtain ⟨ga, hextract⟩ := hextract
    refine ⟨_, hextract, (hcontains served _ rfl hextract).mpr ?_⟩
    intro p hp f hf
    rw [List.mem_singleton.mp hp] at hf
    rw [List.mem_singleton.mp hf]
    rfl

/-- A null type panics, and so does a group artifact without files; of two files of one name, an
artifact has the last. -/
theorem update_task_panics :
    runUpdateTask 4096 id (fun _ => some nullType) .group [] = .panics ∧
      runUpdateTask 4096 id (fun _ => some noFiles) .group [] = .panics ∧
      ∃ art, twice.extractArtifact 4096 id = .ok art ∧ ¬ twice.ContainsAll art := by
  refine ⟨rfl, rfl, ?_⟩
  have hextract : ∃ ga : GroupArtifact, twice.extractArtifact 4096 id = .ok (.group ga) ∧
      (ga.images.lookup "one".toList).map AFile.data = some [3] := ⟨_, rfl, rfl⟩
  obtain ⟨ga, hextract, hone⟩ := hextract
  refine ⟨_, hextract, fun hall => ?_⟩
  have hfirst := hall (payload [1, 2]) List.mem_cons_self _ (List.mem_singleton_self _)
  rw [hone] at hfirst
  revert hfirst
  decide

end Rdfm.Artifact
