import Rdfm.Lib.FileSys
import Rdfm.Lib.Lines
import Rdfm.Lib.ZipArchive

/-!
# The payload of an OTA package

`UpdateData` finds `payload.bin` in the package and tells the update engine where it lies in the file.
It does not read the local headers: it adds up the names, extra fields and sizes of the central
directory. For a package whose directory splits it at the payload, and whose local headers have at
least the extra fields of the directory, the engine gets the payload exactly if all records up to it
are plain: ASCII names, the same extra fields, nothing between the records, and no data in directories
(`payload_located_iff`).
-/

namespace Rdfm.Android

open Rdfm.Lib

/-! ## The code -/

def payloadBinaryFileName : Text := "payload.bin".toList

def payloadPropertiesFileName : Text := "payload_properties.txt".toList

/-- `PayloadSpec`, which the next package overwrites. -/
structure PayloadSpec where
  url : Option Text
  offset : Nat
  size : Nat
  properties : Option (List Text)
deriving DecidableEq, Repr

inductive UpdateFailure where
  /-- `No root path`. -/
  | noRoot
  /-- An `IOException` of the archive, as a `RuntimeException`. -/
  | archive
  /-- `Payload in the OTA package not found.` -/
  | payloadNotFound
deriving DecidableEq, Repr

def isDirectory (e : ZipEntry) : Bool := e.name.getLast? == some '/'

/-- `\r` and `\r\n` end a line, too. -/
def normalizeNewlines : Text → Text
  | '\r' :: '\n' :: text => '\n' :: normalizeNewlines text
  | '\r' :: text => '\n' :: normalizeNewlines text
  | c :: text => c :: normalizeNewlines text
  | [] => []

/-- The lines that `BufferedReader.readLine` gives. -/
def readLines (text : Text) : List Text := lines '\n' (normalizeNewlines text)

/-- The variables of `unzipPackage` and the fields that it writes. -/
structure Unzip where
  spec : PayloadSpec
  offset : Nat
  payloadFound : Bool
  payloadPropertiesFound : Bool
  properties : List Text

/-- What the directory says of a header. -/
def headerSize (e : ZipEntry) : Nat := 30 + utf16Length e.name + (e.extra.getD []).length

/-- An entry of the loop; `false` is an exception. -/
def Unzip.entry (inflate : ZipEntry → Option Text) (s : Unzip) (e : ZipEntry) : Unzip × Bool :=
  let s := { s with offset := s.offset + headerSize e }
  if isDirectory e then (s, true)
  else
    let length := e.compressedSize
    if e.name = payloadBinaryFileName then
      let spec := { s.spec with offset := s.offset, size := e.compressedSize }
      ({ s with spec, payloadFound := true, offset := s.offset + length }, true)
    else if e.name = payloadPropertiesFileName then
      match inflate e with
      | none => ({ s with payloadPropertiesFound := true }, false)
      | some text =>
        ({ s with
            payloadPropertiesFound := true
            properties := s.properties ++ readLines text
            offset := s.offset + length }, true)
    else ({ s with offset := s.offset + length }, true)

def Unzip.entries (inflate : ZipEntry → Option Text) : Unzip → List ZipEntry → Unzip × Bool
  | s, [] => (s, true)
  | s, e :: es =>
    match s.entry inflate e with
    | (s, false) => (s, false)
    | (s, true) => s.entries inflate es

/-- `unzipPackage`; `none` is no archive. `inflate` is the text of an entry. -/
def unzipPackage (inflate : ZipEntry → Option Text) (otaPkgPath : Text) (zip : Option ZipArchive)
    (spec : PayloadSpec) : PayloadSpec × Option UpdateFailure :=
  match zip with
  | none => (spec, some .archive)
  | some zip =>
    match Unzip.entries inflate ⟨spec, 0, false, false, []⟩ zip.entries with
    | (s, false) => (s.spec, some .archive)
    | (s, true) =>
      if s.payloadFound then
        let properties := if s.payloadPropertiesFound then s.properties
          else s.properties ++ ["SWITCH_SLOT_ON_REBOOT=1".toList]
        let url := "file://".toList ++ otaPkgPath
        ({ s.spec with url := some url, properties := some properties }, none)
      else (s.spec, some .payloadNotFound)

/-- `PayloadSpec.update`: the files of the directory with this name. -/
def PayloadSpec.update (inflate : ZipEntry → Option Text) (otaPackagePath otaPackageName : Text)
    (root : Option (List (Text × Option ZipArchive))) (spec : PayloadSpec) :
    PayloadSpec × Option UpdateFailure :=
  match root with
  | none => (spec, some .noRoot)
  | some files =>
    files.foldl (fun (spec, failure) (name, zip) =>
      if failure = none ∧ name = otaPackageName then
        unzipPackage inflate (otaPackagePath ++ '/' :: name) zip spec
      else (spec, failure)) (spec, none)

/-- The arguments of `UpdateEngine.applyPayload`. -/
structure PayloadCall where
  url : Option Text
  offset : Nat
  size : Nat
  properties : List Text
deriving DecidableEq, Repr

/-- `applyUpdate`: the call of the update engine. An exception of the package is passed on; without
properties, the exception of the call is only logged. -/
def applyUpdate (inflate : ZipEntry → Option Text) (otaPackagePath otaName : Text)
    (root : Option (List (Text × Option ZipArchive))) (spec : PayloadSpec) :
    PayloadSpec × Except UpdateFailure (Option PayloadCall) :=
  match spec.update inflate otaPackagePath otaName root with
  | (spec, some failure) => (spec, .error failure)
  | (spec, none) =>
    (spec, .ok (spec.properties.map fun properties => ⟨spec.url, spec.offset, spec.size, properties⟩))

/-! ## The scan -/

section Scan

variable {inflate : ZipEntry → Option Text} {s s' : Unzip} {e : ZipEntry} {es : List ZipEntry}

/-- By how much an entry moves the offset. -/
def advance (e : ZipEntry) : Nat := headerSize e + if isDirectory e then 0 else e.compressedSize

/-- The properties can be read. -/
def Readable (inflate : ZipEntry → Option Text) (es : List ZipEntry) : Prop :=
  ∀ e ∈ es, e.name = payloadPropertiesFileName → inflate e ≠ none

theorem not_isDirectory_payload (h : e.name = payloadBinaryFileName) : isDirectory e = false := by
  unfold isDirectory
  rw [h]
  decide

/-- An entry other than the payload leaves what is known of the payload. -/
theorem Unzip.entry_other (hread : e.name = payloadPropertiesFileName → inflate e ≠ none)
    (hname : e.name ≠ payloadBinaryFileName) :
    ∃ s', s.entry inflate e = (s', true) ∧ s'.offset = s.offset + advance e ∧ s'.spec = s.spec ∧
      s'.payloadFound = s.payloadFound := by
  unfold Unzip.entry advance
  dsimp only
  split
  · exact ⟨_, rfl, rfl, rfl, rfl⟩
  · split
    · next hproperties =>
      obtain ⟨text, htext⟩ := Option.ne_none_iff_exists'.mp (hread hproperties)
      rw [htext]
      exact ⟨_, rfl, Nat.add_assoc .., rfl, rfl⟩
    · exact ⟨_, rfl, Nat.add_assoc .., rfl, rfl⟩

theorem Unzip.entry_payload (hname : e.name = payloadBinaryFileName) :
    ∃ s', s.entry inflate e = (s', true) ∧ s'.offset = s.offset + advance e ∧
      s'.spec = { s.spec with offset := s.offset + headerSize e, size := e.compressedSize } ∧
      s'.payloadFound = true := by
  have hdir := not_isDirectory_payload hname
  unfold Unzip.entry advance
  simp only [hdir, hname, if_true, Bool.false_eq_true, if_false]
  exact ⟨_, rfl, Nat.add_assoc .., rfl, rfl⟩

/-- Entries other than the payload. -/
theorem Unzip.entries_other (hread : Readable inflate es)
    (hnames : ∀ e ∈ es, e.name ≠ payloadBinaryFileName) :
    ∃ s', s.entries inflate es = (s', true) ∧ s'.spec = s.spec ∧
      s'.payloadFound = s.payloadFound := by
  induction es generalizing s with
  | nil => exact ⟨s, rfl, rfl, rfl⟩
  | cons e es ih =>
    obtain ⟨hreade, hreades⟩ := List.forall_mem_cons.mp hread
    obtain ⟨hname, hrest⟩ := List.forall_mem_cons.mp hnames
    obtain ⟨s₁, hentry, -, hspec, hfound⟩ := @Unzip.entry_other inflate s e hreade hname
    obtain ⟨s₂, hentries, hspec', hfound'⟩ := @ih s₁ hreades hrest
    refine ⟨s₂, ?_, hspec'.trans hspec, hfound'.trans hfound⟩
    unfold Unzip.entries
    rw [hentry]
    exact hentries

/-- All entries, whatever they are: the offset is a sum. -/
theorem Unzip.entries_offset (hread : Readable inflate es) :
    ∃ s', s.entries inflate es = (s', true) ∧ s'.offset = s.offset + (es.map advance).sum := by
  induction es generalizing s with
  | nil => exact ⟨s, rfl, rfl⟩
  | cons e es ih =>
    obtain ⟨hreade, hreades⟩ := List.forall_mem_cons.mp hread
    have hentry : ∃ s₁, s.entry inflate e = (s₁, true) ∧ s₁.offset = s.offset + advance e := by
      by_cases hname : e.name = payloadBinaryFileName
      · obtain ⟨s₁, hentry, hoffset, -⟩ := @Unzip.entry_payload inflate s e hname
        exact ⟨s₁, hentry, hoffset⟩
      · obtain ⟨s₁, hentry, hoffset, -⟩ := @Unzip.entry_other inflate s e hreade hname
        exact ⟨s₁, hentry, hoffset⟩
    obtain ⟨s₁, hentry, hoffset⟩ := hentry
    obtain ⟨s₂, hentries, hoffset'⟩ := @ih s₁ hreades
    refine ⟨s₂, ?_, ?_⟩
    · unfold Unzip.entries
      rw [hentry]
      exact hentries
    · rw [hoffset', hoffset, List.map_cons, List.sum_cons, Nat.add_assoc]

theorem Unzip.entries_append (h : s.entries inflate es = (s', true)) (es' : List ZipEntry) :
    s.entries inflate (es ++ es') = s'.entries inflate es' := by
  induction es generalizing s with
  | nil =>
    cases h
    rfl
  | cons e es ih =>
    unfold Unzip.entries at h
    rw [List.cons_append, Unzip.entries]
    rcases hentry : s.entry inflate e with ⟨s₁, _ | _⟩
    · rw [hentry] at h
      cases h
    · rw [hentry] at h
      exact ih h

/-- The package is found where its directory says. -/
theorem unzipPackage_spec {before after : List ZipEntry} {bytes : List UInt8} {path : Text}
    {spec : PayloadSpec} (hread : Readable inflate (before ++ e :: after))
    (hname : e.name = payloadBinaryFileName)
    (hafter : ∀ e' ∈ after, e'.name ≠ payloadBinaryFileName) :
    ∃ properties, unzipPackage inflate path (some ⟨bytes, before ++ e :: after⟩) spec =
      (⟨some ("file://".toList ++ path), (before.map advance).sum + headerSize e, e.compressedSize,
        some properties⟩, none) := by
  obtain ⟨hbefore, hrest⟩ := List.forall_mem_append.mp hread
  obtain ⟨s₁, hentries, hoffset⟩ := @Unzip.entries_offset inflate ⟨spec, 0, false, false, []⟩ _ hbefore
  obtain ⟨s₂, hentry, -, hspec, hfound⟩ := @Unzip.entry_payload inflate s₁ e hname
  obtain ⟨s₃, hentries', hspec', hfound'⟩ :=
    @Unzip.entries_other inflate s₂ after (List.forall_mem_cons.mp hrest).2 hafter
  have hall : Unzip.entries inflate ⟨spec, 0, false, false, []⟩ (before ++ e :: after) =
      (s₃, true) := by
    rw [Unzip.entries_append hentries, Unzip.entries, hentry]
    exact hentries'
  unfold unzipPackage
  have hoffset : s₁.offset = (before.map advance).sum := hoffset.trans (Nat.zero_add _)
  simp only [hall, hfound'.trans hfound, if_true, hspec'.trans hspec, hoffset]
  exact ⟨_, rfl⟩

end Scan

/-! ## Where the payload is -/

section Layout

variable {ms : List ZipMember} {m : ZipMember}

/-- The directory says all of the header of the member, and nothing lies before it. -/
def Plain (m : ZipMember) : Prop :=
  m.gap = [] ∧ Ascii m.name ∧ (m.extra.getD []).length = m.localExtra.length

/-- Nothing comes after the data, and a directory has none. -/
def Closed (m : ZipMember) : Prop :=
  m.descriptor = [] ∧ (isDirectory (m.entry 0) = true → m.data = [])

/-- The local header has at least the extra field of the directory. -/
def ExtraCovered (m : ZipMember) : Prop := (m.extra.getD []).length ≤ m.localExtra.length

theorem headerSize_le (h : ExtraCovered m) (pos : Nat) :
    headerSize (m.entry pos) ≤ m.gap.length + m.localHeader.length ∧
      (headerSize (m.entry pos) = m.gap.length + m.localHeader.length ↔ Plain m) := by
  have hle := utf16Length_le m.name
  have hsize : headerSize (m.entry pos) = 30 + utf16Length m.name + (m.extra.getD []).length := rfl
  unfold ExtraCovered at h
  rw [hsize, m.localHeader_length]
  unfold Plain
  rw [← utf16Length_eq_iff, ← List.length_eq_zero_iff]
  constructor
  · omega
  · constructor
    · intro heq
      omega
    · rintro ⟨hgap, hname, hextra⟩
      omega

theorem advance_le (h : ExtraCovered m) (pos : Nat) :
    advance (m.entry pos) ≤ m.record.length ∧
      (advance (m.entry pos) = m.record.length ↔ Plain m ∧ Closed m) := by
  obtain ⟨hle, hiff⟩ := headerSize_le h pos
  have hrecord : m.record.length =
      m.gap.length + m.localHeader.length + m.data.length + m.descriptor.length := by
    simp only [ZipMember.record, List.length_append]
  have hdir : isDirectory (m.entry pos) = isDirectory (m.entry 0) := rfl
  have hcompressed : (m.entry pos).compressedSize = m.data.length := rfl
  unfold advance Closed
  rw [hrecord, hdir, hcompressed, ← hiff, ← List.length_eq_zero_iff, ← List.length_eq_zero_iff]
  cases isDirectory (m.entry 0) with
  | true =>
    simp only [if_true, true_implies]
    omega
  | false =>
    simp only [Bool.false_eq_true, if_false, false_implies, and_true]
    omega

/-- What the directory says of records in a row is at most what they take. -/
theorem sum_advance_le (h : ∀ m ∈ ms, ExtraCovered m) (pos : Nat) :
    ((entriesFrom pos ms).map advance).sum ≤ (records ms).length ∧
      (((entriesFrom pos ms).map advance).sum = (records ms).length ↔
        ∀ m ∈ ms, Plain m ∧ Closed m) := by
  induction ms generalizing pos with
  | nil => exact ⟨Nat.le_refl 0, iff_of_true rfl nofun⟩
  | cons m ms ih =>
    obtain ⟨hm, hms⟩ := List.forall_mem_cons.mp h
    obtain ⟨hle, hiff⟩ := advance_le hm pos
    obtain ⟨hle', hiff'⟩ := ih hms (pos + m.record.length)
    have hlength : (records (m :: ms)).length = m.record.length + (records ms).length :=
      List.length_append
    rw [entriesFrom, List.map_cons, List.sum_cons, hlength, List.forall_mem_cons, ← hiff, ← hiff']
    constructor
    · omega
    · constructor
      · intro heq
        omega
      · rintro ⟨heq, heq'⟩
        omega

theorem name_of_mem_entriesFrom {name : Text} (h : ∀ m ∈ ms, m.name ≠ name) (pos : Nat) :
    ∀ e ∈ entriesFrom pos ms, e.name ≠ name := by
  induction ms generalizing pos with
  | nil => nofun
  | cons m ms ih =>
    obtain ⟨hm, hms⟩ := List.forall_mem_cons.mp h
    exact List.forall_mem_cons.mpr ⟨hm, ih hms _⟩

end Layout

/-! ## The call of the engine -/

section Update

variable {inflate : ZipEntry → Option Text} {path name : Text}
  {files : List (Text × Option ZipArchive)} {zip : Option ZipArchive} {spec : PayloadSpec}

/-- Files of other names are passed over. -/
theorem foldl_unzipPackage_of_notMem (hfiles : name ∉ files.map Prod.fst)
    (start : PayloadSpec × Option UpdateFailure) :
    files.foldl (fun (spec, failure) (name', zip) =>
      if failure = none ∧ name' = name then
        unzipPackage inflate (path ++ '/' :: name') zip spec
      else (spec, failure)) start = start := by
  induction files generalizing start with
  | nil => rfl
  | cons file files ih =>
    obtain ⟨name', zip'⟩ := file
    obtain ⟨spec', failure⟩ := start
    rw [List.map_cons, List.mem_cons, not_or] at hfiles
    have hne : ¬ (failure = none ∧ name' = name) := fun h => hfiles.1 h.2.symm
    rw [List.foldl_cons]
    dsimp only
    rw [if_neg hne]
    exact ih hfiles.2 (spec', failure)

/-- A file of the directory is the package. -/
theorem PayloadSpec.update_of_mem (hnames : (files.map Prod.fst).Nodup) (hmem : (name, zip) ∈ files) :
    spec.update inflate path name (some files) =
      unzipPackage inflate (path ++ '/' :: name) zip spec := by
  obtain ⟨before, after, rfl⟩ := List.append_of_mem hmem
  rw [List.map_append, List.map_cons, List.nodup_append, List.nodup_cons] at hnames
  obtain ⟨-, ⟨hafter, -⟩, hbefore⟩ := hnames
  have hbefore : name ∉ before.map Prod.fst := fun h =>
    hbefore name h name List.mem_cons_self rfl
  unfold PayloadSpec.update
  dsimp only
  rw [List.foldl_append, foldl_unzipPackage_of_notMem hbefore, List.foldl_cons, if_pos ⟨rfl, rfl⟩,
    foldl_unzipPackage_of_notMem hafter]

end Update

/-- **The engine gets the payload** of a downloaded package that its directory splits there, i.e. the
offset where its data begins, exactly if all records up to it are plain, and those before it closed. -/
theorem payload_located_iff {inflate : ZipEntry → Option Text} {zip : ZipArchive}
    {before after : List ZipMember} {m : ZipMember} {path name : Text}
    {files : List (Text × Option ZipArchive)} (spec : PayloadSpec)
    (hnames : (files.map Prod.fst).Nodup) (hmem : (name, some zip) ∈ files)
    (hzip : zip.Splits before m after) (hpayload : m.name = payloadBinaryFileName)
    (hafter : ∀ m' ∈ after, m'.name ≠ payloadBinaryFileName)
    (hextra : ∀ m' ∈ before ++ [m], ExtraCovered m') (hread : Readable inflate zip.entries) :
    ∃ call, (applyUpdate inflate path name (some files) spec).2 = .ok (some call) ∧
      call.url = some ("file://".toList ++ (path ++ '/' :: name)) ∧ call.size = m.data.length ∧
      (call.offset = zip.dataOffset (m.entry (records before).length) ↔
        (∀ m' ∈ before, Plain m' ∧ Closed m') ∧ Plain m) ∧
      (call.offset = zip.dataOffset (m.entry (records before).length) →
        (zip.bytes.drop call.offset).take call.size = m.data) := by
  obtain ⟨hbefore, hm⟩ := List.forall_mem_append.mp hextra
  have hm : ExtraCovered m := hm m (List.mem_singleton_self m)
  obtain ⟨es, es', hentries, hes, hes'⟩ := hzip.entries
  have hlast : ∀ e ∈ es', e.name ≠ payloadBinaryFileName := fun e he =>
    name_of_mem_entriesFrom hafter _ e (hes'.mem_iff.mp he)
  rw [hentries] at hread
  obtain ⟨properties, hunzip⟩ := @unzipPackage_spec inflate (m.entry (records before).length) es es'
    zip.bytes (path ++ '/' :: name) spec hread hpayload hlast
  rw [← hentries] at hunzip
  have hupdate : spec.update inflate path name (some files) = _ :=
    (PayloadSpec.update_of_mem hnames hmem).trans hunzip
  -- The order of the entries before the payload does not matter.
  have hsum : (es.map advance).sum = ((entriesFrom 0 before).map advance).sum :=
    (hes.map advance).sum_nat
  refine ⟨⟨_, (es.map advance).sum + headerSize (m.entry (records before).length), _, properties⟩, ?_,
    rfl, rfl, ?_, ?_⟩
  · unfold applyUpdate
    rw [hupdate]
    rfl
  · obtain ⟨hle, hiff⟩ := sum_advance_le hbefore 0
    obtain ⟨hle', hiff'⟩ := headerSize_le hm (records before).length
    dsimp only
    rw [hzip.dataOffset, hsum, ← hiff, ← hiff']
    constructor
    · intro heq
      omega
    · rintro ⟨heq, heq'⟩
      omega
  · intro heq
    dsimp only at heq ⊢
    rw [heq]
    exact hzip.data

namespace OtaPackage

/-- A stored file without extra fields. -/
def stored (name : Text) (hname : (utf8 name).length < 65536) (data descriptor : List UInt8) :
    ZipMember :=
  ⟨[], List.replicate 26 0, rfl, name, hname, [], by decide, data, descriptor, none⟩

def metadata (descriptor : List UInt8) : ZipMember :=
  stored "metadata".toList (by decide) [1] descriptor

def careMap : ZipMember := stored "care_map.pb".toList (by decide) [4] []

def payload : ZipMember := stored payloadBinaryFileName (by decide) [2, 3] []

/-- The metadata, with or without a data descriptor, the care map and the payload. -/
def members (descriptor : List UInt8) : List ZipMember := [metadata descriptor, careMap]

/-- The directory has the care map first. -/
def archive (descriptor : List UInt8) : ZipArchive where
  bytes := records (members descriptor ++ [payload])
  entries := [careMap.entry (metadata descriptor).record.length, (metadata descriptor).entry 0,
    payload.entry (records (members descriptor)).length]

theorem archive_splits (descriptor : List UInt8) :
    (archive descriptor).Splits (members descriptor) payload [] := by
  refine ⟨⟨[], (List.append_nil _).symm⟩, [careMap.entry (metadata descriptor).record.length,
    (metadata descriptor).entry 0], [], rfl, ?_, .refl _⟩
  simp only [members, entriesFrom, Nat.zero_add]
  exact List.Perm.swap ..

/-- What the engine is called with. -/
def call (descriptor : List UInt8) : Except UpdateFailure (Option PayloadCall) :=
  (applyUpdate (fun _ => none) "/data/ota_package".toList "ota.zip".toList
    (some [("ota.zip".toList, some (archive descriptor))]) ⟨none, 0, 0, none⟩).2

end OtaPackage

open OtaPackage in
/-- A data descriptor before the payload is enough to miss it. -/
theorem payload_located_descriptor :
    (∃ c, call [] = .ok (some c) ∧
      c.offset = (archive []).dataOffset (payload.entry (records (members [])).length)) ∧
    ∃ c, call (List.replicate 16 0) = .ok (some c) ∧
      c.offset ≠ (archive (List.replicate 16 0)).dataOffset
        (payload.entry (records (members (List.replicate 16 0))).length) := by
  have hlocated (descriptor : List UInt8) : ∃ c, call descriptor = .ok (some c) ∧
      (c.offset = (archive descriptor).dataOffset
        (payload.entry (records (members descriptor)).length) ↔
        (∀ m' ∈ members descriptor, Plain m' ∧ Closed m') ∧ Plain payload) := by
    have hcovered : ∀ m' ∈ members descriptor ++ [payload], ExtraCovered m' := by
      simp [members, ExtraCovered, metadata, careMap, payload, stored]
    have hmetadata : "metadata".toList ≠ payloadPropertiesFileName := by decide
    have hcare : "care_map.pb".toList ≠ payloadPropertiesFileName := by decide
    have hbinary : payloadBinaryFileName ≠ payloadPropertiesFileName := by decide
    have hnames : ∀ e ∈ (archive descriptor).entries, e.name ≠ payloadPropertiesFileName := by
      simp only [archive, List.forall_mem_cons]
      exact ⟨hcare, hmetadata, hbinary, nofun⟩
    obtain ⟨c, hcall, -, -, hiff, -⟩ := @payload_located_iff (fun _ => none) (archive descriptor)
      (members descriptor) [] payload "/data/ota_package".toList "ota.zip".toList
      [("ota.zip".toList, some (archive descriptor))] ⟨none, 0, 0, none⟩
      (List.pairwise_singleton _ _) (List.mem_singleton_self _) (archive_splits descriptor) rfl nofun
      hcovered fun e he hname => absurd hname (hnames e he)
    exact ⟨c, hcall, hiff⟩
  obtain ⟨c, hcall, hiff⟩ := hlocated []
  obtain ⟨c', hcall', hiff'⟩ := hlocated (List.replicate 16 0)
  refine ⟨⟨c, hcall, hiff.mpr ⟨?_, rfl, by decide, rfl⟩⟩, c', hcall', fun heq => ?_⟩
  · exact List.forall_mem_cons.mpr ⟨⟨⟨rfl, by decide, rfl⟩, rfl, nofun⟩,
      List.forall_mem_cons.mpr ⟨⟨⟨rfl, by decide, rfl⟩, rfl, nofun⟩, nofun⟩⟩
  · have hclosed := ((hiff'.mp heq).1 _ List.mem_cons_self).2
    cases hclosed.1

end Rdfm.Android
