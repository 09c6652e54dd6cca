import Rdfm.Lib.Url
import Rdfm.Server.Resolver

/-!
# Local storage

`LocalStorage` and the route that serves its files. A package is stored below the package directory,
in a directory that the user may name, and its URL holds the path of this directory as it is.
Nothing outside of the package directory is touched, whatever the name, and the deletion of a
package deletes its file. But a query, a fragment, a removed character or an escape in the path is
not told apart from the text of the URL: the file is served exactly if its path has none of these
(`stored_package_iff`).
-/

namespace Rdfm.Server

open Rdfm.Lib

/-! ## Storage -/

/-- The configuration that the driver reads, and the symbolic links and the working directory of its
process. The server makes no links. -/
structure LocalStorage where
  packageDir : String
  hostname : String
  httpPort : Nat
  encrypted : Bool
  links : Links
  cwd : List Text
  cwd_canonical : links.Canonical cwd

def metaLocalUuid : String := "rdfm.storage.local.uuid"

def metaLocalDirectory : String := "rdfm.storage.local.directory"

inductive UpsertEnd where
  | stored (metadata : Metadata)
  | refused
  | exception

/-- A URL in its parts. -/
structure PackageUrl where
  schema : String
  netloc : String
  path : Text
  tail : Text
deriving DecidableEq, Repr

def PackageUrl.text (url : PackageUrl) : String :=
  url.schema ++ "://" ++ url.netloc ++ String.ofList (url.path ++ url.tail)

namespace LocalStorage

variable (storage : LocalStorage)

/-- `Path.resolve`. -/
def resolvePath (path : PurePath) : List Text :=
  storage.links.resolve (if path.absolute then [] else storage.cwd) path.parts

def packagePath : PurePath := .parse storage.packageDir.toList

/-- `Path(package_dir).resolve()`. -/
def storageLocation : List Text := storage.resolvePath storage.packagePath

/-- The path of a new file. -/
def destinationPath (storageDirectory : Option String) (storeName : Text) : List Text :=
  let directory := (storageDirectory.getD ".").toList
  storage.resolvePath ((storage.packagePath.join (.parse directory)).join (.parse storeName))

/-- `LocalStorage.upsert`, with the name that `uuid4` gives. The metadata also gets the length of
the file, a number, which no requirement of a package can ask for. -/
def upsert (tree : FileTree) (metadata : Metadata) (content : Bytes)
    (storageDirectory : Option String) (storeName : Text) : FileTree × UpsertEnd :=
  let destination := storage.destinationPath storageDirectory storeName
  -- no path has a null character
  if '\x00' ∈ (storageDirectory.getD ".").toList then (tree, .exception)
  else if ¬ storage.storageLocation <+: destination then (tree, .refused)
  else
    match tree.makeDirs destination.dropLast with
    | none => (tree, .exception)
    | some tree =>
      let tree := tree.write destination content
      if ¬ storage.storageLocation <+: destination.dropLast then (tree, .exception)
      else
        let directory := destination.dropLast.drop storage.storageLocation.length
        (tree, .stored ((metadata.insert metaLocalUuid (.str (String.ofList storeName))).insert
          metaLocalDirectory (.str (String.ofList (PurePath.relativeText directory)))))

/-- `metadata.get(key, default)`, a text; `none` is an exception. -/
def getText (metadata : Metadata) (key : String) (default : Option String) : Option Text :=
  match metadata.lookup key with
  | some (.str s) => some s.toList
  | some (.list _) => none
  | none => default.map String.toList

/-- The path of a package below the package directory; `none` is an exception. -/
def storagePath (metadata : Metadata) : Option PurePath := do
  let directory ← getText metadata metaLocalDirectory (some ".")
  let name ← getText metadata metaLocalUuid none
  return (PurePath.parse directory).join (.parse name)

/-- Where `fetch_local_package` is routed. -/
def localStorageRoute : Text := "/local_storage/".toList

/-- `LocalStorage.generate_url`. -/
def generateUrl (metadata : Metadata) : Option PackageUrl := do
  let storagePath ← storagePath metadata
  let path := localStorageRoute ++ storagePath.text
  return {
    schema := if storage.encrypted then "https" else "http"
    netloc := storage.hostname ++ ":" ++ toString storage.httpPort
    path := joinedPath path
    tail := joinedTail path }

/-- `LocalStorage.delete`. -/
def delete (tree : FileTree) (metadata : Metadata) : Option FileTree := do
  let storagePath ← storagePath metadata
  let place := storage.resolvePath (storage.packagePath.join storagePath)
  if (tree.files place).isSome then some (tree.remove place) else none

/-- The name in a path that is routed to `fetch_local_package`. -/
def routedName (path : Text) : Option Text :=
  if localStorageRoute <+: path then
    let name := path.drop localStorageRoute.length
    if name = [] ∨ name.head? = some '/' then none else some name
  else none

/-- The file that `fetch_local_package` sends; `none` is 404. -/
def fetchPlace (name : Text) : Option (List Text) :=
  let path := PurePath.parse name
  let package := storage.links.resolve (if path.absolute then [] else storage.storageLocation)
    path.parts
  if storage.storageLocation <+: package then some package else none

/-- What a request for a URL gets; `decode` decodes the bytes of escapes. -/
def fetch (decode : List UInt8 → Text) (tree : FileTree) (url : PackageUrl) : Option Bytes := do
  let name ← routedName (percentDecode decode url.path)
  let place ← storage.fetchPlace name
  tree.files place

/-! ## The promise -/

/-- The name of a new file: hexadecimal digits and dashes, and not in use. -/
structure FreshName (storeName : Text) : Prop where
  ne_nil : storeName ≠ []
  chars : ∀ c ∈ storeName, (hexValue c).isSome ∨ c = '-'
  no_link : ∀ place, storage.links.target (place ++ [storeName]) = none
  elsewhere : storeName ∉ storage.storageLocation

section Promise

variable (decode : List UInt8 → Text) (tree : FileTree) (metadata : Metadata)
  (storageDirectory : Option String) (storeName : Text)

/-- Whatever happens to a package, and whatever is asked for, nothing is written, made or read
outside of the package directory. The directories above it are made with it. -/
structure Contained : Prop where
  files : ∀ content p,
    (storage.upsert tree metadata content storageDirectory storeName).1.files p ≠ tree.files p →
      storage.storageLocation <+: p
  dirs : ∀ content p,
    (storage.upsert tree metadata content storageDirectory storeName).1.dirs p ≠ tree.dirs p →
      storage.storageLocation <+: p ∨ p <+: storage.storageLocation
  fetched : ∀ name place, storage.fetchPlace name = some place → storage.storageLocation <+: place
  deleted : ∀ content tree' metadata' tree'' p,
    storage.upsert tree metadata content storageDirectory storeName = (tree', .stored metadata') →
    storage.delete tree' metadata' = some tree'' → tree''.files p ≠ tree'.files p →
      storage.storageLocation <+: p

/-- A stored package is served at its URL, and its deletion deletes its file and no other. -/
structure Kept (content : Bytes) (tree' : FileTree) (metadata' : Metadata) : Prop where
  served : ∃ url, storage.generateUrl metadata' = some url ∧
    storage.fetch decode tree' url = some content
  deleted : storage.delete tree' metadata' =
    some (tree'.remove (storage.destinationPath storageDirectory storeName))

/-- Every content that is stored under the name is kept, and everything else is left alone. -/
def Retrievable : Prop :=
  storage.Contained tree metadata storageDirectory storeName ∧
    ∀ content tree' metadata',
      storage.upsert tree metadata content storageDirectory storeName = (tree', .stored metadata') →
      storage.Kept decode storageDirectory storeName content tree' metadata'

/-- The text stands for itself in the path of a URL. -/
def PlainText (t : Text) : Prop :=
  (∀ c ∈ t, removedChar c = false ∧ endsPath c = false) ∧ hasEscape t = false

/-- The path of the file below the package directory. -/
def relativePath : List Text :=
  (storage.destinationPath storageDirectory storeName).drop storage.storageLocation.length

/-- The file is to be below the package directory, in a directory that can be made. -/
def Storable : Prop :=
  '\x00' ∉ (storageDirectory.getD ".").toList ∧
    storage.storageLocation <+: storage.destinationPath storageDirectory storeName ∧
    ∀ above, above <+: (storage.destinationPath storageDirectory storeName).dropLast →
      tree.files above = none

end Promise

/-! ## Places -/

section Places

variable {storage} {storageDirectory : Option String} {storeName : Text}

theorem canonical_resolvePath {path : PurePath}
    (h : ∀ s ∈ path.parts, s = ['.', '.'] ∨ IsName s) :
    storage.links.Canonical (storage.resolvePath path) := by
  unfold resolvePath
  split
  · exact Links.canonical_nil.resolve h
  · exact storage.cwd_canonical.resolve h

/-- A path in the directory of another leads on from its place. -/
theorem resolvePath_join {p : PurePath} {parts : List Text} :
    storage.resolvePath (p.join ⟨false, parts⟩) =
      storage.links.resolve (storage.resolvePath p) parts :=
  Links.resolve_append p.parts parts

theorem FreshName.isName (h : storage.FreshName storeName) : IsName storeName := by
  have hdot : (hexValue '.').isSome ∨ '.' = '-' → False := by decide
  have hslash : (hexValue '/').isSome ∨ '/' = '-' → False := by decide
  refine ⟨h.ne_nil, ?_, ?_, fun hmem => hslash (h.chars '/' hmem)⟩
  · rintro rfl
    exact hdot (h.chars '.' List.mem_cons_self)
  · rintro rfl
    exact hdot (h.chars '.' List.mem_cons_self)

theorem parse_name {name : Text} (h : IsName name) : PurePath.parse name = ⟨false, [name]⟩ := by
  have hparse := @PurePath.parse_relativeText [name] (by simpa using h)
  have htext : PurePath.relativeText [name] = name := by simp [PurePath.relativeText]
  rwa [htext] at hparse

/-- The place of a new file: a place, and its name in it. -/
theorem destinationPath_eq (h : storage.FreshName storeName) :
    ∃ directory, storage.destinationPath storageDirectory storeName = directory ++ [storeName] ∧
      storage.links.Canonical (directory ++ [storeName]) := by
  have hname := h.isName
  have hdestination : storage.destinationPath storageDirectory storeName =
      storage.links.follow (storage.resolvePath (storage.packagePath.join
        (.parse (storageDirectory.getD ".").toList))) storeName := by
    unfold destinationPath
    dsimp only
    rw [parse_name hname, resolvePath_join]
    rfl
  have hparts : ∀ s ∈ (storage.packagePath.join
      (.parse (storageDirectory.getD ".").toList)).parts, s = ['.', '.'] ∨ IsName s := by
    intro s hs
    unfold PurePath.join at hs
    split at hs
    · exact PurePath.mem_parse_parts hs
    · rcases List.mem_append.mp hs with hs | hs
      · exact PurePath.mem_parse_parts hs
      · exact PurePath.mem_parse_parts hs
  have hfollow (place : List Text) :
      storage.links.follow place storeName = place ++ [storeName] := by
    unfold Links.follow
    rw [if_neg hname.ne_dots, h.no_link place, Option.getD_none]
  refine ⟨_, hdestination.trans (hfollow _), ?_⟩
  rw [← hfollow]
  exact (canonical_resolvePath hparts).follow (.inr hname)

/-- A new file below the package directory is in a directory below it. -/
theorem FreshName.location_prefix_iff (h : storage.FreshName storeName) {directory : List Text} :
    storage.storageLocation <+: directory ++ [storeName] ↔
      storage.storageLocation <+: directory := by
  rw [List.prefix_concat_iff]
  refine or_iff_right fun heq => h.elsewhere ?_
  rw [heq]
  exact List.mem_append_right _ (List.mem_singleton_self storeName)

theorem fetchPlace_eq_some {name : Text} {place : List Text}
    (h : storage.fetchPlace name = some place) :
    place = storage.links.resolve
        (if (PurePath.parse name).absolute then [] else storage.storageLocation)
        (PurePath.parse name).parts ∧
      storage.storageLocation <+: place := by
  unfold fetchPlace at h
  dsimp only at h
  obtain ⟨hbelow, hplace⟩ := Option.ite_none_right_eq_some.mp h
  rw [← Option.some.inj hplace]
  exact ⟨rfl, hbelow⟩

end Places

/-! ## Storing -/

section Storing

variable {storage} {tree : FileTree} {metadata : Metadata} {storageDirectory : Option String}
  {storeName : Text}

/-- The metadata of a package in a directory below the package directory. -/
def storedMetadata (metadata : Metadata) (names : List Text) (storeName : Text) : Metadata :=
  (metadata.insert metaLocalUuid (.str (String.ofList storeName))).insert
    metaLocalDirectory (.str (String.ofList (PurePath.relativeText names)))

/-- A package is stored in a directory that is made for it, or nothing happens. -/
theorem upsert_cases (h : storage.FreshName storeName) :
    (¬ storage.Storable tree storageDirectory storeName ∧
      ∀ content, (storage.upsert tree metadata content storageDirectory storeName).1 = tree ∧
        ∀ metadata', (storage.upsert tree metadata content storageDirectory storeName).2 ≠
          .stored metadata') ∨
    (storage.Storable tree storageDirectory storeName ∧ ∃ (names : List Text) (made : FileTree),
      storage.destinationPath storageDirectory storeName =
        storage.storageLocation ++ (names ++ [storeName]) ∧
      storage.links.Canonical (storage.storageLocation ++ (names ++ [storeName])) ∧
      made.files = tree.files ∧
      (∀ p, made.dirs p ≠ tree.dirs p → p <+: storage.storageLocation ++ names) ∧
      ∀ content, storage.upsert tree metadata content storageDirectory storeName =
        (made.write (storage.destinationPath storageDirectory storeName) content,
          .stored (storedMetadata metadata names storeName))) := by
  obtain ⟨directory, hdestination, hcanonical⟩ :=
    @destinationPath_eq storage storageDirectory storeName h
  unfold Storable upsert
  dsimp only
  have hpre := @FreshName.location_prefix_iff storage storeName h directory
  rw [hdestination, List.dropLast_concat]
  by_cases hnull : '\x00' ∈ (storageDirectory.getD ".").toList
  · refine .inl ⟨fun hstorable => hstorable.1 hnull, fun content => ?_⟩
    rw [if_pos hnull]
    exact ⟨rfl, nofun⟩
  · by_cases hbelow : storage.storageLocation <+: directory
    · cases hmade : tree.makeDirs directory with
      | none =>
        obtain ⟨above, habove, hfile⟩ := FileTree.makeDirs_eq_none_iff.mp hmade
        refine .inl ⟨fun hstorable => hfile (hstorable.2.2 above habove), fun content => ?_⟩
        rw [if_neg hnull, if_neg (not_not_intro (hpre.mpr hbelow))]
        exact ⟨rfl, nofun⟩
      | some made =>
        have hfiles : ∀ above, above <+: directory → tree.files above = none := by
          intro above habove
          by_contra hfile
          rw [FileTree.makeDirs_eq_none_iff.mpr ⟨above, habove, hfile⟩] at hmade
          cases hmade
        obtain ⟨hsame, hdirs⟩ := FileTree.makeDirs_eq_some hmade
        obtain ⟨names, rfl⟩ := hbelow
        have hbelow := hpre.mpr (List.prefix_append storage.storageLocation names)
        refine .inr ⟨⟨hnull, hbelow, hfiles⟩, names, made, ?_, ?_, hsame, hdirs, ?_⟩
        · exact List.append_assoc _ _ _
        · exact List.append_assoc _ _ _ ▸ hcanonical
        · intro content
          rw [if_neg hnull, if_neg (not_not_intro hbelow)]
          dsimp only
          rw [if_neg (not_not_intro (List.prefix_append _ _)), List.drop_left]
          rfl
    · have hbelow := mt hpre.mp hbelow
      refine .inl ⟨fun hstorable => hbelow hstorable.2.1, fun content => ?_⟩
      rw [if_neg hnull, if_pos hbelow]
      exact ⟨rfl, nofun⟩

variable {names : List Text} (hname : IsName storeName) (hnames : ∀ name ∈ names, IsName name)
include hname hnames

/-- What is stored is found under its metadata. -/
theorem storagePath_stored :
    storagePath (storedMetadata metadata names storeName) = some ⟨false, names ++ [storeName]⟩ := by
  have hdirectory : getText (storedMetadata metadata names storeName) metaLocalDirectory
      (some ".") = some (PurePath.relativeText names) := by
    unfold getText storedMetadata
    rw [AList.lookup_insert]
    simp
  have huuid : getText (storedMetadata metadata names storeName) metaLocalUuid none =
      some storeName := by
    unfold getText storedMetadata
    rw [AList.lookup_insert_ne (by decide), AList.lookup_insert]
    simp
  unfold storagePath
  rw [hdirectory, huuid]
  simp only [Option.bind_eq_bind, Option.bind_some]
  rw [PurePath.parse_relativeText hnames, parse_name hname]
  rfl

/-- The URL of what is stored. -/
theorem generateUrl_stored :
    (storage.generateUrl (storedMetadata metadata names storeName)).map PackageUrl.path =
      some (joinedPath (localStorageRoute ++ PurePath.relativeText (names ++ [storeName]))) := by
  unfold generateUrl
  rw [storagePath_stored hname hnames]
  rfl

omit hname hnames in
/-- The file of what is stored. -/
theorem place_stored
    (hcanonical : storage.links.Canonical (storage.storageLocation ++ (names ++ [storeName]))) :
    storage.resolvePath (storage.packagePath.join ⟨false, names ++ [storeName]⟩) =
      storage.storageLocation ++ (names ++ [storeName]) := by
  rw [resolvePath_join]
  exact Links.resolve_canonical hcanonical

omit hname hnames in
theorem relativeText_concat :
    PurePath.relativeText (names ++ [storeName]) = ['/'].intercalate (names ++ [storeName]) :=
  if_neg (List.append_ne_nil_of_right_ne_nil _ (List.cons_ne_nil _ _))

/-- The names in the path of a URL. -/
theorem splitOn_route :
    ("local_storage/".toList ++ PurePath.relativeText (names ++ [storeName])).splitOn '/' =
      "local_storage".toList :: (names ++ [storeName]) := by
  have hroute : "local_storage/".toList ++ PurePath.relativeText (names ++ [storeName]) =
      "local_storage".toList ++ '/' :: PurePath.relativeText (names ++ [storeName]) := rfl
  have hall : ∀ name ∈ names ++ [storeName], '/' ∉ name := by
    intro name hmem
    rcases List.mem_append.mp hmem with hmem | hmem
    · exact (hnames name hmem).no_slash
    · exact List.mem_singleton.mp hmem ▸ hname.no_slash
  rw [hroute, List.splitOn_append_cons_self_of_not_mem (by decide), relativeText_concat,
    List.splitOn_intercalate '/' hall
      (List.append_ne_nil_of_right_ne_nil _ (List.cons_ne_nil _ _))]

/-- A path without special characters is its own path in a URL. -/
theorem joinedPath_stored (hsemicolon : ';' ∉ storeName)
    (hchars : ∀ c ∈ PurePath.relativeText (names ++ [storeName]),
      removedChar c = false ∧ endsPath c = false) :
    joinedPath (localStorageRoute ++ PurePath.relativeText (names ++ [storeName])) =
      localStorageRoute ++ PurePath.relativeText (names ++ [storeName]) := by
  refine @joinedPath_eq_self ("local_storage/".toList ++ _) ?_ ?_ ?_
  · intro c hc
    rcases List.mem_append.mp hc with hc | hc
    · have hroute : ∀ c ∈ "local_storage/".toList,
          removedChar c = false ∧ endsPath c = false := List.forall_iff_forall_mem.mp (by decide)
      exact hroute c hc
    · exact hchars c hc
  · rw [splitOn_route hname hnames]
    intro s hs
    rcases List.mem_cons.mp hs with rfl | hs
    · decide
    · rcases List.mem_append.mp hs with hs | hs
      · exact ⟨(hnames s hs).ne_dot, (hnames s hs).ne_dots⟩
      · rw [List.mem_singleton.mp hs]
        exact ⟨hname.ne_dot, hname.ne_dots⟩
  · rw [splitOn_route hname hnames, List.getLastD_cons, List.getLastD_concat]
    exact hsemicolon

omit hname hnames in
theorem routedName_route {name : Text} (hne : name ≠ []) (hhead : name.head? ≠ some '/') :
    routedName (localStorageRoute ++ name) = some name := by
  unfold routedName
  rw [if_pos (List.prefix_append _ _), List.drop_left]
  exact if_neg (not_or.mpr ⟨hne, hhead⟩)

/-- What is stored under a plain path is fetched. -/
theorem fetch_stored {decode : List UInt8 → Text} (hnil : decode [] = [])
    (hsemicolon : ';' ∉ storeName)
    (hplain : PlainText (PurePath.relativeText (names ++ [storeName])))
    (hcanonical : storage.links.Canonical (storage.storageLocation ++ (names ++ [storeName])))
    {url : PackageUrl} (hurl : storage.generateUrl (storedMetadata metadata names storeName) =
      some url) :
    storage.fetch decode tree url =
      tree.files (storage.storageLocation ++ (names ++ [storeName])) := by
  obtain ⟨hchars, hescape⟩ := hplain
  have hall : ∀ name ∈ names ++ [storeName], IsName name := fun name hmem =>
    hcanonical.names name (List.mem_append_right _ hmem)
  have hparse := PurePath.parse_relativeText hall
  have hpath : url.path = localStorageRoute ++ PurePath.relativeText (names ++ [storeName]) := by
    have hmap := @generateUrl_stored storage metadata storeName names hname hnames
    rw [hurl, joinedPath_stored hname hnames hsemicolon hchars] at hmap
    exact Option.some.inj hmap
  have hdecoded : percentDecode decode url.path = url.path := by
    refine percentDecode_eq_self hnil ?_
    rw [hpath]
    exact hescape
  have hne : PurePath.relativeText (names ++ [storeName]) ≠ [] := by
    intro heq
    have hlength := PurePath.length_relativeText
      (List.append_ne_nil_of_right_ne_nil names (List.cons_ne_nil storeName []))
    rw [heq, segmentsSize_append] at hlength
    simp only [segmentsSize, List.length_nil] at hlength
    have hpos := List.length_pos_of_ne_nil hname.ne_nil
    omega
  have hhead : (PurePath.relativeText (names ++ [storeName])).head? ≠ some '/' := by
    intro heq
    have habsolute := congrArg PurePath.absolute hparse
    unfold PurePath.parse at habsolute
    simp [heq] at habsolute
  have hplace : storage.fetchPlace (PurePath.relativeText (names ++ [storeName])) =
      some (storage.storageLocation ++ (names ++ [storeName])) := by
    unfold fetchPlace
    dsimp only
    rw [hparse]
    simp only [Bool.false_eq_true, if_false]
    rw [Links.resolve_canonical hcanonical, if_pos (List.prefix_append _ _)]
  unfold fetch
  rw [hdecoded, hpath, routedName_route hne hhead]
  simp only [Option.bind_eq_bind, Option.bind_some]
  rw [hplace]
  rfl

/-- A path that is not plain is decoded to a shorter one. -/
theorem length_decoded_lt {decode : List UInt8 → Text}
    (hdecode : ∀ run, (decode run).length ≤ run.length) (hsemicolon : ';' ∉ storeName)
    (hspecial : ¬ PlainText (PurePath.relativeText (names ++ [storeName]))) :
    (percentDecode decode (joinedPath
      (localStorageRoute ++ PurePath.relativeText (names ++ [storeName])))).length <
      localStorageRoute.length + (PurePath.relativeText (names ++ [storeName])).length := by
  rw [← List.length_append]
  by_cases hchars : ∀ c ∈ PurePath.relativeText (names ++ [storeName]),
      removedChar c = false ∧ endsPath c = false
  · have hescape : hasEscape (PurePath.relativeText (names ++ [storeName])) = true := by
      by_contra hnone
      exact hspecial ⟨hchars, Bool.not_eq_true _ ▸ hnone⟩
    rw [joinedPath_stored hname hnames hsemicolon hchars]
    exact length_percentDecode_lt hdecode hescape
  · have hbad : ∃ c ∈ "local_storage/".toList ++ PurePath.relativeText (names ++ [storeName]),
        removedChar c = true ∨ endsPath c = true := by
      by_contra hnone
      refine hchars fun c hc => ?_
      have hc' := List.mem_append_right "local_storage/".toList hc
      constructor
      · exact Bool.eq_false_iff.mpr fun hr => hnone ⟨c, hc', .inl hr⟩
      · exact Bool.eq_false_iff.mpr fun he => hnone ⟨c, hc', .inr he⟩
    have hshort := length_joinedPath_lt hbad
    have hdecoded := length_percentDecode_le hdecode
      (joinedPath (localStorageRoute ++ PurePath.relativeText (names ++ [storeName])))
    exact Nat.lt_of_le_of_lt hdecoded hshort

/-- What is stored under another path is not what its URL leads to. -/
theorem fetchPlace_ne {decode : List UInt8 → Text}
    (hdecode : ∀ run, (decode run).length ≤ run.length) (hlinks : storage.links = Links.noLinks)
    (hsemicolon : ';' ∉ storeName)
    (hspecial : ¬ PlainText (PurePath.relativeText (names ++ [storeName]))) {name : Text}
    {place : List Text}
    (hrouted : routedName (percentDecode decode (joinedPath
      (localStorageRoute ++ PurePath.relativeText (names ++ [storeName])))) = some name)
    (hplace : storage.fetchPlace name = some place) :
    place ≠ storage.storageLocation ++ (names ++ [storeName]) := by
  have hshort := length_decoded_lt hname hnames hdecode hsemicolon hspecial
  generalize percentDecode decode (joinedPath
    (localStorageRoute ++ PurePath.relativeText (names ++ [storeName]))) = path at *
  have hlonger : name.length < (PurePath.relativeText (names ++ [storeName])).length ∧
      name.head? ≠ some '/' := by
    unfold routedName at hrouted
    split at hrouted
    · dsimp only at hrouted
      split at hrouted
      · cases hrouted
      · next hroute hvalid =>
        cases hrouted
        refine ⟨?_, (not_or.mp hvalid).2⟩
        have hlength := hroute.length_le
        rw [List.length_drop]
        omega
    · cases hrouted
  have hresolved : place =
      storage.links.resolve storage.storageLocation (PurePath.parse name).parts := by
    have hrelative : (PurePath.parse name).absolute = false := by
      unfold PurePath.parse
      simpa using hlonger.2
    rw [(fetchPlace_eq_some hplace).1, hrelative]
    rfl
  have hsize := size_resolve_le storage.storageLocation (PurePath.parse name).parts
  have hparts := PurePath.size_parse_le name
  have hstored := PurePath.length_relativeText
    (List.append_ne_nil_of_right_ne_nil names (List.cons_ne_nil storeName []))
  rw [hresolved, hlinks]
  intro heq
  rw [heq, segmentsSize_append] at hsize
  omega

end Storing

/-! ## Exactly the plain paths -/

section Exactly

variable {storage} {decode : List UInt8 → Text} {tree : FileTree} {metadata : Metadata}
  {storageDirectory : Option String} {storeName : Text} (h : storage.FreshName storeName)
include h

theorem FreshName.no_semicolon : ';' ∉ storeName := by
  intro hmem
  have hnot : ¬ ((hexValue ';').isSome ∨ ';' = '-') := by decide
  exact hnot (h.chars ';' hmem)

/-- Nothing outside of the package directory is touched. -/
theorem FreshName.contained : storage.Contained tree metadata storageDirectory storeName := by
  have hfetched : ∀ name place, storage.fetchPlace name = some place →
      storage.storageLocation <+: place := fun name place hplace => (fetchPlace_eq_some hplace).2
  rcases @upsert_cases storage tree metadata storageDirectory storeName h with
    ⟨-, hnothing⟩ | ⟨-, names, made, hdestination, hcanonical, hfiles, hdirs, hstored⟩
  · refine ⟨fun content p hp => ?_, fun content p hp => ?_, hfetched, ?_⟩
    · exact absurd (congrArg (fun t => t.files p) (hnothing content).1) hp
    · exact absurd (congrArg (fun t => t.dirs p) (hnothing content).1) hp
    · intro content tree' metadata' tree'' p hupsert
      exact absurd (congrArg Prod.snd hupsert) ((hnothing content).2 metadata')
  · have hname := h.isName
    have hnames : ∀ name ∈ names, IsName name := fun name hmem =>
      hcanonical.names name (List.mem_append_right _ (List.mem_append_left _ hmem))
    have hbelow : storage.storageLocation <+: storage.destinationPath storageDirectory storeName :=
      hdestination ▸ List.prefix_append _ _
    refine ⟨fun content p hp => ?_, fun content p hp => ?_, hfetched, ?_⟩
    · rw [hstored content] at hp
      by_cases heq : p = storage.destinationPath storageDirectory storeName
      · exact heq ▸ hbelow
      · refine absurd ?_ hp
        change (if p = _ then _ else made.files p) = tree.files p
        rw [if_neg heq, hfiles]
    · rw [hstored content] at hp
      have hp := hdirs p hp
      rcases Nat.le_total storage.storageLocation.length p.length with hle | hle
      · exact .inl (List.prefix_of_prefix_length_le (List.prefix_append _ names) hp hle)
      · exact .inr (List.prefix_of_prefix_length_le hp (List.prefix_append _ names) hle)
    · intro content tree' metadata' tree'' p hupsert hdelete hp
      rw [hstored content] at hupsert
      cases hupsert
      unfold delete at hdelete
      rw [storagePath_stored hname hnames] at hdelete
      simp only [Option.bind_eq_bind, Option.bind_some] at hdelete
      rw [place_stored hcanonical] at hdelete
      split at hdelete
      · cases hdelete
        by_cases heq : p = storage.storageLocation ++ (names ++ [storeName])
        · exact heq ▸ List.prefix_append _ _
        · exact absurd (if_neg heq) hp
      · cases hdelete

/-- A package is kept if its path is plain. -/
theorem FreshName.kept (hnil : decode [] = []) {names : List Text} {made : FileTree}
    (hdestination : storage.destinationPath storageDirectory storeName =
      storage.storageLocation ++ (names ++ [storeName]))
    (hcanonical : storage.links.Canonical (storage.storageLocation ++ (names ++ [storeName])))
    (hplain : PlainText (PurePath.relativeText (names ++ [storeName]))) (content : Bytes) :
    storage.Kept decode storageDirectory storeName content
      (made.write (storage.destinationPath storageDirectory storeName) content)
      (storedMetadata metadata names storeName) := by
  have hname := h.isName
  have hnames : ∀ name ∈ names, IsName name := fun name hmem =>
    hcanonical.names name (List.mem_append_right _ (List.mem_append_left _ hmem))
  have hwritten : (made.write (storage.destinationPath storageDirectory storeName) content).files
      (storage.destinationPath storageDirectory storeName) = some content := if_pos rfl
  refine ⟨?_, ?_⟩
  · have hmap := @generateUrl_stored storage metadata storeName names hname hnames
    obtain ⟨url, hurl, -⟩ := Option.map_eq_some_iff.mp hmap
    refine ⟨url, hurl, ?_⟩
    rw [fetch_stored hname hnames hnil h.no_semicolon hplain hcanonical hurl, ← hdestination]
    exact hwritten
  · unfold delete
    rw [storagePath_stored hname hnames]
    simp only [Option.bind_eq_bind, Option.bind_some]
    rw [place_stored hcanonical, ← hdestination, hwritten]
    rfl

end Exactly

end LocalStorage

/-- A package that is stored is served and deleted, and nothing outside of the package directory is
touched, if the path of its file is plain. Without symbolic links, a path that is not is not served
for every content. `decode` is the decoding of escaped bytes, which gives at most a character for
each of them. -/
theorem stored_package_iff (storage : LocalStorage) (decode : List UInt8 → Text)
    (hdecode : ∀ run, (decode run).length ≤ run.length) (tree : FileTree) (metadata : Metadata)
    (storageDirectory : Option String) (storeName : Text) (h : storage.FreshName storeName) :
    storage.Contained tree metadata storageDirectory storeName ∧
    ((storage.Storable tree storageDirectory storeName → LocalStorage.PlainText
        (PurePath.relativeText (storage.relativePath storageDirectory storeName))) →
      storage.Retrievable decode tree metadata storageDirectory storeName) ∧
    (storage.links = Links.noLinks →
      storage.Retrievable decode tree metadata storageDirectory storeName →
      storage.Storable tree storageDirectory storeName → LocalStorage.PlainText
        (PurePath.relativeText (storage.relativePath storageDirectory storeName))) := by
  have hcontained := @LocalStorage.FreshName.contained storage tree metadata storageDirectory _ h
  have hnil : decode [] = [] := List.eq_nil_of_length_eq_zero (Nat.le_zero.mp (hdecode []))
  refine ⟨hcontained, ?_⟩
  unfold LocalStorage.Retrievable LocalStorage.relativePath
  rcases @LocalStorage.upsert_cases storage tree metadata storageDirectory storeName h with
    ⟨hnot, hnothing⟩ | ⟨hstorable, names, made, hdestination, hcanonical, hfiles, -, hstored⟩
  · refine ⟨fun _ => ⟨hcontained, ?_⟩, fun _ _ hstorable => absurd hstorable hnot⟩
    intro content tree' metadata' hupsert
    exact absurd (congrArg Prod.snd hupsert) ((hnothing content).2 metadata')
  · rw [hdestination, List.drop_left]
    refine ⟨fun hplain => ⟨hcontained, ?_⟩, fun hlinks hkept _ => ?_⟩
    · intro content tree' metadata' hupsert
      rw [hstored content] at hupsert
      cases hupsert
      exact h.kept hnil hdestination hcanonical (hplain hstorable) content
    · -- if it is not plain, the URL leads elsewhere, where the content cannot make a difference
      by_contra hspecial
      have hname := h.isName
      have hnames : ∀ name ∈ names, IsName name := fun name hmem =>
        hcanonical.names name (List.mem_append_right _ (List.mem_append_left _ hmem))
      have hserved (content : Bytes) : ∃ name place,
          LocalStorage.routedName (percentDecode decode (joinedPath
            (LocalStorage.localStorageRoute ++ PurePath.relativeText (names ++ [storeName])))) =
              some name ∧
          storage.fetchPlace name = some place ∧ tree.files place = some content := by
        obtain ⟨url, hurl, hfetch⟩ := (hkept.2 content _ _ (hstored content)).served
        have hmap := @LocalStorage.generateUrl_stored storage metadata storeName names hname hnames
        rw [hurl] at hmap
        have hpath : url.path = _ := Option.some.inj hmap
        unfold LocalStorage.fetch at hfetch
        obtain ⟨name, hrouted, hfetch⟩ := Option.bind_eq_some_iff.mp hfetch
        obtain ⟨place, hplace, hfetch⟩ := Option.bind_eq_some_iff.mp hfetch
        rw [hpath] at hrouted
        have hne := LocalStorage.fetchPlace_ne hname hnames hdecode hlinks h.no_semicolon hspecial
          hrouted hplace
        refine ⟨name, place, hrouted, hplace, ?_⟩
        rw [← hfetch, hdestination, ← hfiles]
        exact (if_neg hne).symm
      obtain ⟨name, place, hrouted, hplace, hempty⟩ := hserved []
      obtain ⟨name', place', hrouted', hplace', hbyte⟩ := hserved [0]
      cases hrouted.symm.trans hrouted'
      cases hplace.symm.trans hplace'
      cases hempty.symm.trans hbyte

namespace LocalStorageRun

def storage : LocalStorage where
  packageDir := "/srv/packages"
  hostname := "127.0.0.1"
  httpPort := 5000
  encrypted := false
  links := Links.noLinks
  cwd := []
  cwd_canonical := Links.canonical_nil

def emptyTree : FileTree := ⟨fun _ => none, fun _ => false⟩

/-- Bytes of ASCII characters; others are replaced. -/
def decode (run : List UInt8) : Text :=
  run.map fun b => if b < 128 then Char.ofNat b.toNat else Char.ofNat 0xFFFD

def storeName : Text := "12a83ff3-2de2-4a95-8f3f-c7a884e426e5".toList

theorem freshName : storage.FreshName storeName where
  ne_nil := by decide
  chars := List.forall_iff_forall_mem.mp (by decide)
  no_link _ := rfl
  elsewhere := by decide

end LocalStorageRun

open LocalStorageRun

theorem stored_package_retrievable :
    storage.Retrievable decode emptyTree ∅ (some "devices/v2") storeName :=
  (stored_package_iff storage decode (fun run => Nat.le_of_eq (List.length_map _)) emptyTree ∅
    (some "devices/v2") storeName freshName).2.1 fun _ =>
      ⟨List.forall_iff_forall_mem.mp (by decide), by decide⟩

/-- A question mark in the name of the directory ends the path of the URL. -/
theorem stored_package_not_served :
    ∃ metadata url,
      (storage.upsert emptyTree ∅ [1, 2, 3] (some "a?b") storeName).2 = .stored metadata ∧
        storage.generateUrl metadata = some url ∧ url.path = "/local_storage/a".toList ∧
        storage.fetch decode
          (storage.upsert emptyTree ∅ [1, 2, 3] (some "a?b") storeName).1 url = none ∧
        ¬ storage.Retrievable decode emptyTree ∅ (some "a?b") storeName := by
  refine ⟨_, _, rfl, rfl, by decide, by decide, fun hretrievable => ?_⟩
  obtain ⟨url, hurl, hfetch⟩ := (hretrievable.2 [1, 2, 3] _ _ rfl).served
  cases hurl
  cases hfetch

end Rdfm.Server
