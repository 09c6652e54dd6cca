import Rdfm.Lib.Decimal
import Rdfm.Server.LocalStorage

/-!
# Downloads from devices

`prepare_download` has a device upload a file to the storage in parts, and makes a link to it. The
number of parts and their size are such that the loop of the device uploads the whole file, and no
part is empty (`upload_parts`). Whether there is a file behind the link is another matter: the
device does not look at the status of an answer, a wrong Etag ends the completion without an error,
an empty file has no link, and outputs of actions are not stored where they are served
(`download_links_iff`).
-/

namespace Rdfm.Server

open Rdfm.Lib

/-! ## Parts -/

def minPartSize : Int := 5 * 1024 * 1024

def maxPartSize : Int := 5 * 1024 * 1024 * 1024

def maxPartCount : Int := 10000

def maxUploadSize : Int := 5 * 1024 * 1024 * 1024 * 1024

/-- `int_div_ceil`, with the floor division of Python. -/
def intDivCeil (a b : Int) : Int := (a + b - 1).fdiv b

/-- `upload_part_count`: the number of parts and their size. -/
def uploadPartCount (uploadSize desiredPartSize : Int) : Except String (Int × Int) :=
  let desiredPartSize := if desiredPartSize < minPartSize then minPartSize else desiredPartSize
  let desiredPartSize := if desiredPartSize > maxPartSize then maxPartSize else desiredPartSize
  if uploadSize > maxUploadSize then .error "File is too large to upload"
  else if uploadSize ≤ desiredPartSize then .ok (1, uploadSize)
  else
    let count := intDivCeil uploadSize desiredPartSize
    if count ≤ maxPartCount then .ok (count, desiredPartSize)
    else .ok (maxPartCount, intDivCeil uploadSize maxPartCount)

/-- `Read` of a file of which this is left. It fills the buffer, unless the file ends; `none` is
`io.EOF`. Go reads at most 1 GiB at once, which only a part of more than that would meet. -/
def readFile (rest : Bytes) (size : Nat) : Option (Bytes × Bytes) :=
  if rest = [] ∧ size ≠ 0 then none else some (rest.take size, rest.drop size)

/-- What the loop of the device reads for the upload URLs; `none` if the file ends before it. -/
def readParts (partSize : Nat) : Nat → Bytes → Option (List Bytes)
  | 0, _ => some []
  | count + 1, rest => do
    let (part, rest) ← readFile rest partSize
    return part :: (← readParts partSize count rest)

section Parts

theorem intDivCeil_spec {a b : Int} (hb : 0 < b) :
    (intDivCeil a b - 1) * b < a ∧ a ≤ intDivCeil a b * b := by
  unfold intDivCeil
  rw [Int.fdiv_eq_ediv_of_nonneg _ hb.le]
  have hdiv := Int.mul_ediv_add_emod (a + b - 1) b
  have hlow := Int.emod_nonneg (a + b - 1) hb.ne'
  have hhigh := Int.emod_lt_of_pos (a + b - 1) hb
  rw [Int.mul_comm] at hdiv
  constructor
  · rw [Int.sub_mul, Int.one_mul]
    omega
  · omega

/-- The part size that is wanted, within its limits. -/
theorem clamp_mem (desired : Int) :
    ∃ d, minPartSize ≤ d ∧ d ≤ maxPartSize ∧ ∀ size, uploadPartCount size desired =
      if size > maxUploadSize then .error "File is too large to upload"
      else if size ≤ d then .ok (1, size)
      else if intDivCeil size d ≤ maxPartCount then .ok (intDivCeil size d, d)
      else .ok (maxPartCount, intDivCeil size maxPartCount) := by
  have hlimits : minPartSize ≤ maxPartSize := by decide
  refine ⟨if (if desired < minPartSize then minPartSize else desired) > maxPartSize then maxPartSize
    else if desired < minPartSize then minPartSize else desired, ?_, ?_, fun size => rfl⟩
  · split_ifs <;> omega
  · split_ifs <;> omega

/-- Past the greatest number of parts, the parts get larger: with `size` above `10000 * d`, no part
is empty, since the sizes are rounded up by less than a byte for each part. -/
theorem enlarged_spec {size d : Int} (hd : minPartSize ≤ d) (hhigh : size ≤ maxUploadSize)
    (hcount : maxPartCount < intDivCeil size d) :
    (maxPartCount - 1) * intDivCeil size maxPartCount < size ∧
      minPartSize ≤ intDivCeil size maxPartCount ∧
      intDivCeil size maxPartCount ≤ maxPartSize := by
  have hpos : 0 < d := Int.lt_of_lt_of_le (by decide) hd
  obtain ⟨hlarge, -⟩ := @intDivCeil_spec size d hpos
  obtain ⟨hbelow, habove⟩ := @intDivCeil_spec size maxPartCount (by decide)
  have hsize : maxPartCount * d < size := by
    refine Int.lt_of_le_of_lt (Int.mul_le_mul_of_nonneg_right ?_ hpos.le) hlarge
    omega
  unfold minPartSize maxPartSize maxPartCount maxUploadSize at *
  refine ⟨?_, ?_, ?_⟩ <;> omega

/-- The parts cover the upload, and the last of them has something left to upload. -/
theorem uploadPartCount_bounds {size : Int} (desired : Int) (hlow : 1 ≤ size)
    (hhigh : size ≤ maxUploadSize) :
    ∃ count partSize, uploadPartCount size desired = .ok (count, partSize) ∧
      1 ≤ count ∧ count ≤ maxPartCount ∧ (count - 1) * partSize < size ∧
      size ≤ count * partSize ∧ (1 < count → minPartSize ≤ partSize ∧ partSize ≤ maxPartSize) := by
  obtain ⟨d, hmin, hmax, heq⟩ := clamp_mem desired
  have hpos : 0 < d := Int.lt_of_lt_of_le (by decide) hmin
  rw [heq, if_neg (by omega)]
  by_cases hone : size ≤ d
  · rw [if_pos hone]
    refine ⟨1, size, rfl, Int.le_refl 1, by decide, by omega, by omega, fun h => absurd h ?_⟩
    decide
  · rw [if_neg hone]
    obtain ⟨hbelow, habove⟩ := @intDivCeil_spec size d hpos
    by_cases hcount : intDivCeil size d ≤ maxPartCount
    · rw [if_pos hcount]
      have htwo : 1 ≤ intDivCeil size d := by
        by_contra hnone
        have hzero : intDivCeil size d * d ≤ 0 :=
          Int.mul_nonpos_of_nonpos_of_nonneg (by omega) hpos.le
        omega
      exact ⟨_, d, rfl, htwo, hcount, hbelow, habove, fun _ => ⟨hmin, hmax⟩⟩
    · rw [if_neg hcount]
      obtain ⟨hlast, hlower, hupper⟩ := enlarged_spec hmin hhigh (Int.not_le.mp hcount)
      obtain ⟨-, hwhole⟩ := @intDivCeil_spec size maxPartCount (by decide)
      refine ⟨maxPartCount, _, rfl, by decide, Int.le_refl _, hlast, ?_, fun _ => ⟨hlower, hupper⟩⟩
      rw [Int.mul_comm]
      exact hwhole

theorem readFile_of_ne_nil {rest : Bytes} (h : rest ≠ []) (size : Nat) :
    readFile rest size = some (rest.take size, rest.drop size) :=
  if_neg fun hend => h hend.1

/-- What is read is the whole file, in parts that are not empty, if the parts cover the file and
the last of them has something to read. -/
theorem readParts_spec {partSize : Nat} (hsize : 0 < partSize) (count : Nat) (rest : Bytes)
    (hlast : count * partSize < rest.length) (hwhole : rest.length ≤ (count + 1) * partSize) :
    ∃ parts, readParts partSize (count + 1) rest = some parts ∧ parts.length = count + 1 ∧
      (∀ part ∈ parts, part ≠ [] ∧ part.length ≤ partSize) ∧ parts.flatten = rest := by
  induction count generalizing rest with
  | zero =>
    have hne : rest ≠ [] := List.length_pos_iff.mp (by omega)
    have htake : rest.take partSize = rest := List.take_of_length_le (by omega)
    refine ⟨[rest], ?_, rfl, ?_, List.append_nil rest⟩
    · simp [readParts, readFile_of_ne_nil hne, htake]
    · intro part hmem
      rw [List.mem_singleton.mp hmem]
      exact ⟨hne, by omega⟩
  | succ count ih =>
    rw [Nat.succ_mul] at hlast hwhole
    have hne : rest ≠ [] := List.length_pos_iff.mp (by omega)
    have hrest := List.length_drop (i := partSize) (l := rest)
    obtain ⟨parts, hparts, hlength, hall, hflatten⟩ :=
      ih (rest.drop partSize) (by omega) (by omega)
    refine ⟨rest.take partSize :: parts, ?_, ?_, ?_, ?_⟩
    · rw [readParts, readFile_of_ne_nil hne]
      simp [hparts]
    · rw [List.length_cons, hlength]
    · intro part hmem
      rcases List.mem_cons.mp hmem with rfl | hmem
      · refine ⟨fun htake => ?_, List.length_take_le _ _⟩
        rcases List.take_eq_nil_iff.mp htake with hzero | hnil
        · omega
        · exact hne hnil
      · exact hall part hmem
    · rw [List.flatten_cons, hflatten, List.take_append_drop]

/-- The loop of the device reads the whole file, with bounds like those of `upload_part_count`. -/
theorem exists_readParts {size count partSize : Int} (hlow : 1 ≤ size) (hone : 1 ≤ count)
    (hlast : (count - 1) * partSize < size) (hwhole : size ≤ count * partSize) :
    ∃ n p : Nat, count = n ∧ partSize = p ∧ 1 ≤ n ∧
      ∀ content : Bytes, (content.length : Int) = size →
        ∃ parts, readParts p n content = some parts ∧ parts.length = n ∧
          (∀ part ∈ parts, part ≠ [] ∧ part.length ≤ p) ∧ parts.flatten = content := by
  have hpos : 0 < partSize := by
    by_contra hnot
    have hnonpos : count * partSize ≤ 0 :=
      Int.mul_nonpos_of_nonneg_of_nonpos (by omega) (by omega)
    omega
  obtain ⟨n, rfl⟩ := Int.eq_succ_of_zero_lt (a := count) (by omega)
  obtain ⟨p, rfl⟩ := Int.eq_ofNat_of_zero_le hpos.le
  refine ⟨n + 1, p, rfl, rfl, Nat.succ_pos n, ?_⟩
  rintro content rfl
  refine readParts_spec (by omega) n content ?_ ?_
  · rw [Int.add_sub_cancel] at hlast
    exact_mod_cast hlast
  · exact_mod_cast hwhole

end Parts

/-- **Parts**: an upload has at least one part and not too many, they cover it, and none of them is
empty; so the loop of the device uploads the whole file. -/
theorem upload_parts (size desired : Int) (hlow : 1 ≤ size) (hhigh : size ≤ maxUploadSize) :
    ∃ count partSize : Nat, uploadPartCount size desired = .ok (↑count, ↑partSize) ∧
      1 ≤ count ∧ count ≤ 10000 ∧ (count - 1 : Int) * partSize < size ∧
      size ≤ (count * partSize : Int) ∧
      (1 < count → minPartSize ≤ partSize ∧ (partSize : Int) ≤ maxPartSize) ∧
      ∀ content : Bytes, (content.length : Int) = size →
        ∃ parts, readParts partSize count content = some parts ∧ parts.length = count ∧
          (∀ part ∈ parts, part ≠ [] ∧ part.length ≤ partSize) ∧ parts.flatten = content := by
  obtain ⟨count, partSize, heq, hone, hmax, hlast, hwhole, hlimits⟩ :=
    uploadPartCount_bounds desired hlow hhigh
  obtain ⟨n, p, rfl, rfl, hn, hread⟩ := exists_readParts hlow hone hlast hwhole
  unfold maxPartCount at hmax
  exact ⟨n, p, heq, hn, by omega, hlast, hwhole, fun h => hlimits (by omega), hread⟩

/-- A file of 20 MiB, in two parts. -/
theorem upload_parts_two :
    ∃ count partSize : Nat, uploadPartCount (20 * 1024 * 1024) (10 * 1024 * 1024) =
        .ok (↑count, ↑partSize) ∧ count = 2 ∧ partSize = 10 * 1024 * 1024 ∧
      ∀ content : Bytes, content.length = 20 * 1024 * 1024 →
        ∃ parts, readParts partSize count content = some parts ∧ parts.flatten = content := by
  obtain ⟨count, partSize, heq, -, -, -, -, -, hread⟩ :=
    upload_parts (20 * 1024 * 1024) (10 * 1024 * 1024) (by decide) (by decide)
  have hvalue : uploadPartCount (20 * 1024 * 1024) (10 * 1024 * 1024) =
      .ok (2, 10 * 1024 * 1024) := by decide
  rw [hvalue] at heq
  obtain ⟨hcount, hsize⟩ := Prod.mk.inj (Except.ok.inj heq)
  refine ⟨count, partSize, hvalue.trans heq, by omega, by omega, fun content hlength => ?_⟩
  obtain ⟨parts, hparts, -, -, hflatten⟩ := hread content (by omega)
  exact ⟨parts, hparts, hflatten⟩

/-! ## Storage -/

def desiredPartSize : Int := 10 * 1024 * 1024

def downloadBucketSubdir : Text := "rdfm.downloads".toList

def actionBucketSubdir : Text := "rdfm.actions".toList

def multipartName : Text := "multipart".toList

def partsName : Text := "parts".toList

/-- Where `upload_local_file_part` is routed. -/
def partsRoute : Text := "/local_storage_multipart/parts/".toList

/-- Where `fetch_local_file` is routed. -/
def multipartRoute : Text := "/local_storage_multipart/multipart/".toList

/-- The name of a part. -/
def partName (uploadName : Text) (i : Nat) : Text := uploadName ++ "_part".toList ++ itoa i

/-- `MultipartUploader`, with the names of its part files. -/
structure MultipartUploader where
  finalFile : PurePath
  partFiles : List Text

namespace LocalStorage

variable (storage : LocalStorage)

/-- `Path(package_dir) / ...`. -/
def pathOf (segments : List Text) : PurePath :=
  segments.foldl (fun p segment => p.join (.parse segment)) storage.packagePath

/-- `urljoin` with the address of the server, whether or not it is encrypted. -/
def httpUrl (path : Text) : PackageUrl where
  schema := "http"
  netloc := storage.hostname ++ ":" ++ toString storage.httpPort
  path := joinedPath path
  tail := joinedTail path

/-- `MultipartUploader.generate_urls`, with the name that `uuid4` gives. -/
def generateUrls (key : Text) (uploadSize : Nat) (uploadName : Text) :
    Except String (List PackageUrl × Nat × MultipartUploader) := do
  let (partCount, partSize) ← uploadPartCount uploadSize desiredPartSize
  let partFiles := (List.range partCount.toNat).map (partName uploadName)
  return (partFiles.map fun part => storage.httpUrl (partsRoute ++ part), partSize.toNat,
    ⟨storage.pathOf [multipartName, key], partFiles⟩)

def partFile (part : Text) : PurePath := storage.pathOf [multipartName, partsName, part]

/-- `MultipartUploader.complete_upload`, and whether it returns. It writes one part after the other,
up to one that cannot be opened. -/
def completeUpload (tree : FileTree) (uploader : MultipartUploader) (etags : List Text) :
    FileTree × Bool :=
  if etags.length ≠ uploader.partFiles.length then (tree, true)
  else if (etags.zip uploader.partFiles).any fun (etag, expected) => etag ≠ expected then
    (tree, true)
  else
    let finalFile := storage.resolvePath uploader.finalFile
    match tree.makeDirs finalFile.dropLast with
    | none => (tree, false)
    | some tree =>
      let parts := uploader.partFiles.map fun part =>
        tree.files (storage.resolvePath (storage.partFile part))
      let read := (parts.takeWhile Option.isSome).reduceOption
      (tree.write finalFile read.flatten, parts.all Option.isSome)

/-- `MultipartUploader.abort_upload`. -/
def abortUpload (tree : FileTree) (uploader : MultipartUploader) : FileTree :=
  uploader.partFiles.foldl
    (fun tree part => tree.remove (storage.resolvePath (storage.partFile part))) tree

/-- `generate_fs_download_url`. -/
def generateFsDownloadUrl (key : Text) : PackageUrl := storage.httpUrl (multipartRoute ++ key)

/-- `upload_action_log`; `none` is an exception. -/
def uploadActionLog (tree : FileTree) (content : Bytes) (storageDirectory objectId : Text) :
    Option FileTree := do
  let destination := storage.resolvePath ((PurePath.parse storageDirectory).join (.parse objectId))
  let tree ← tree.makeDirs destination.dropLast
  return tree.write destination content

/-! ## Routes -/

/-- `upload_local_file_part`: the status and the Etag of its response. -/
def uploadLocalFilePart (tree : FileTree) (part : Text) (data : Bytes) : FileTree × Nat × Text :=
  let package := storage.links.resolve storage.storageLocation
    (multipartName :: partsName :: (PurePath.parse part).parts)
  if ¬ storage.storageLocation <+: package then (tree, 404, [])
  else
    match tree.makeDirs package.dropLast with
    | none => (tree, 500, [])
    | some tree => (tree.write package data, 200, part)

/-- The name in a path that is routed to `upload_local_file_part`. -/
def routedPart (path : Text) : Option Text :=
  if partsRoute <+: path then
    let part := path.drop partsRoute.length
    if part = [] ∨ '/' ∈ part then none else some part
  else none

/-- The key in a path that is routed to `fetch_local_file`. -/
def routedKey (path : Text) : Option Text :=
  if multipartRoute <+: path then
    let key := path.drop multipartRoute.length
    if key = [] ∨ key.head? = some '/' then none else some key
  else none

/-- `fetch_local_file`; `none` is 404. -/
def fetchLocalFile (tree : FileTree) (key : Text) : Option Bytes :=
  let package := storage.links.resolve storage.storageLocation
    (multipartName :: (PurePath.parse key).parts)
  if storage.storageLocation <+: package then tree.files package else none

/-- What a request for a link gets. An encrypted server answers no other requests. -/
def fetchLink (decode : List UInt8 → Text) (tree : FileTree) (url : PackageUrl) : Option Bytes := do
  guard (url.schema = if storage.encrypted then "https" else "http")
  let key ← routedKey (percentDecode decode url.path)
  storage.fetchLocalFile tree key

end LocalStorage

/-! ## The device -/

/-- What becomes of the upload of a part: the route handles it; something else answers it, and this
much of the part is left behind; or there is no answer. -/
inductive PutEnd where
  | handled
  | answered (status : Nat) (etag : Text) (left : Option Bytes)
  | failed
deriving DecidableEq, Repr

/-- The uploads of the parts. Only the route names the part in its answer. -/
structure PartUploads (uploadName : Text) where
  upload : Nat → PutEnd
  other : ∀ i status etag left, upload i = .answered status etag left →
    etag ≠ partName uploadName i

/-- How the loop over the upload URLs ends. -/
inductive LoopEnd where
  | uploaded (etags : List Text)
  | readError
  | requestError
deriving DecidableEq, Repr

/-- How `prepare_download` ends. Without an answer from the device, it waits. -/
inductive DownloadEnd where
  | returned (status : Nat) (url : Option PackageUrl)
  | raised
  | waits
deriving DecidableEq, Repr

namespace LocalStorage

variable (storage : LocalStorage) (decode : List UInt8 → Text)

/-- The request for a part, and the Etag of the answer. -/
def putPart (tree : FileTree) (url : PackageUrl) (body : Bytes) : PutEnd → Option (FileTree × Text)
  | .handled =>
    match routedPart (percentDecode decode url.path) with
    | none => some (tree, [])
    | some part =>
      let (tree, _, etag) := storage.uploadLocalFilePart tree part body
      some (tree, etag)
  | .answered _ etag left =>
    match routedPart (percentDecode decode url.path), left with
    | some part, some left =>
      some (tree.write (storage.resolvePath (storage.partFile part)) left, etag)
    | _, _ => some (tree, etag)
  | .failed => none

/-- The loop of the device over the upload URLs. The status of an answer is not looked at. -/
def uploadLoop (partSize : Nat) : List (PackageUrl × PutEnd) → FileTree → Bytes → FileTree × LoopEnd
  | [], tree, _ => (tree, .uploaded [])
  | (url, put) :: urls, tree, rest =>
    match readFile rest partSize with
    | none => (tree, .readError)
    | some (part, rest) =>
      match storage.putPart decode tree url part put with
      | none => (tree, .requestError)
      | some (tree, etag) =>
        match uploadLoop partSize urls tree rest with
        | (tree, .uploaded etags) => (tree, .uploaded (etag :: etags))
        | failed => failed

/-- `prepare_download` of a file that the device can read, with the names that `uuid4` gives. The
probe gets the size of the file. -/
def prepareDownload (tree : FileTree) (content : Bytes) (objectName uploadName : Text)
    (puts : PartUploads uploadName) : FileTree × DownloadEnd :=
  let fileSize := content.length
  -- `not file_size`
  if fileSize = 0 then (tree, .returned 1 none)
  else
    let key := downloadBucketSubdir ++ '/' :: objectName
    match storage.generateUrls key fileSize uploadName with
    | .error _ => (tree, .raised)
    | .ok (urls, partSize, uploader) =>
      let requests := urls.zip ((List.range urls.length).map puts.upload)
      match storage.uploadLoop decode partSize requests tree content with
      | (tree, .requestError) => (tree, .waits)
      | (tree, .readError) => (storage.abortUpload tree uploader, .returned 1 none)
      | (tree, .uploaded etags) =>
        match storage.completeUpload tree uploader etags with
        | (tree, false) => (storage.abortUpload tree uploader, .raised)
        | (tree, true) => (tree, .returned 0 (some (storage.generateFsDownloadUrl key)))

/-- `add_output_to_storage`; `none` is an exception. -/
def addOutputToStorage (b64decode : String → Option Bytes) (tree : FileTree) (output : String)
    (objectName : Text) : Option (FileTree × PackageUrl) := do
  let content ← b64decode output
  let tree ← storage.uploadActionLog tree content actionBucketSubdir objectName
  return (tree, storage.generateFsDownloadUrl (actionBucketSubdir ++ '/' :: objectName))

/-- The link that `execute_action_result` stores. -/
def actionLink (b64decode : String → Option Bytes) (tree : FileTree) (output : String)
    (objectName : Text) : Option (FileTree × Option PackageUrl) :=
  if output = "" then some (tree, none)
  else (storage.addOutputToStorage b64decode tree output objectName).map fun (tree, url) =>
    (tree, some url)

end LocalStorage

/-! ## Plain names -/

/-- A character of the names that the server makes. -/
def plainChar (c : Char) : Bool := c.isAlphanum || c = '-' || c = '_' || c = '.'

/-- A name of a file that stands for itself in the path of a URL. -/
structure PlainName (name : Text) : Prop where
  isName : IsName name
  chars : ∀ c ∈ name, plainChar c = true

section Plain

theorem hasEscape_of_notMem {t : Text} (h : '%' ∉ t) : hasEscape t = false := by
  fun_induction hasEscape t with
  | case1 a b t ih => exact absurd List.mem_cons_self h
  | case2 c t _ ih => exact ih fun hmem => h (List.mem_cons_of_mem _ hmem)
  | case3 => rfl

theorem mem_intercalate_slash {names : List Text} {c : Char} (h : c ∈ ['/'].intercalate names) :
    c = '/' ∨ ∃ name ∈ names, c ∈ name := by
  induction names with
  | nil => cases h
  | cons name names ih =>
    cases names with
    | nil =>
      rw [List.intercalate_singleton] at h
      exact .inr ⟨name, List.mem_cons_self, h⟩
    | cons next names =>
      rw [List.intercalate_cons_cons] at h
      simp only [List.mem_append, List.mem_singleton] at h
      rcases h with (h | h) | h
      · exact .inr ⟨name, List.mem_cons_self, h⟩
      · exact .inl h
      · rcases ih h with h | ⟨name', hname', hc⟩
        · exact .inl h
        · exact .inr ⟨name', List.mem_cons_of_mem _ hname', hc⟩

theorem plainChar_spec {c : Char} (h : plainChar c = true ∨ c = '/') :
    removedChar c = false ∧ endsPath c = false ∧ c ≠ '%' ∧ c ≠ ';' := by
  have hno : ∀ c ∈ ['\t', '\r', '\n', '?', '#', '%', ';'], ¬ (plainChar c = true ∨ c = '/') :=
    List.forall_iff_forall_mem.mp (by decide)
  have hout : c ∉ ['\t', '\r', '\n', '?', '#', '%', ';'] := fun hmem => hno c hmem h
  simp only [List.mem_cons, List.not_mem_nil, or_false, not_or] at hout
  obtain ⟨h₁, h₂, h₃, h₄, h₅, h₆, h₇⟩ := hout
  exact ⟨by simp [removedChar, h₁, h₂, h₃], by simp [endsPath, h₄, h₅], h₆, h₇⟩

variable {names : List Text} (hne : names ≠ []) (h : ∀ name ∈ names, PlainName name)
include hne h

/-- A path of plain names stands for itself in a URL. -/
theorem plain_path {decode : List UInt8 → Text} (hnil : decode [] = []) :
    joinedPath ('/' :: ['/'].intercalate names) = '/' :: ['/'].intercalate names ∧
      percentDecode decode ('/' :: ['/'].intercalate names) = '/' :: ['/'].intercalate names := by
  have hchars : ∀ c ∈ ['/'].intercalate names, plainChar c = true ∨ c = '/' := by
    intro c hc
    rcases mem_intercalate_slash hc with hslash | ⟨name, hname, hc⟩
    · exact .inr hslash
    · exact .inl ((h name hname).chars c hc)
  have hsplit : (['/'].intercalate names).splitOn '/' = names :=
    List.splitOn_intercalate '/' (fun name hname => (h name hname).isName.no_slash) hne
  constructor
  · refine joinedPath_eq_self ?_ ?_ ?_
    · intro c hc
      obtain ⟨hremoved, hends, -⟩ := plainChar_spec (hchars c hc)
      exact ⟨hremoved, hends⟩
    · rw [hsplit]
      exact fun s hs => ⟨(h s hs).isName.ne_dot, (h s hs).isName.ne_dots⟩
    · rw [hsplit]
      intro hmem
      have hlast : names.getLastD [] ∈ names := by
        rw [List.getLastD_eq_getLast?, List.getLast?_eq_some_getLast hne]
        exact List.getLast_mem hne
      obtain ⟨-, -, -, hsemicolon⟩ := plainChar_spec (.inl ((h _ hlast).chars _ hmem))
      exact hsemicolon rfl
  · refine percentDecode_eq_self hnil (hasEscape_of_notMem fun hmem => ?_)
    rcases List.mem_cons.mp hmem with hslash | hmem
    · exact absurd hslash (by decide)
    · obtain ⟨-, -, hpercent, -⟩ := plainChar_spec (hchars _ hmem)
      exact hpercent rfl

end Plain

/-! ## Places -/

namespace LocalStorage

/-- The place of the objects of a kind. -/
def objectDir (storage : LocalStorage) (kind : Text) : List Text :=
  storage.links.resolve storage.storageLocation [multipartName, kind]

/-- Files can be made in a directory, and are in the package directory. -/
structure Usable (storage : LocalStorage) (tree : FileTree) (dir : List Text) : Prop where
  below : storage.storageLocation <+: dir
  free : ∀ above, above <+: dir → tree.files above = none

/-- The names of a download are not in use. -/
structure FreshUpload (storage : LocalStorage) (tree : FileTree) (objectName uploadName : Text) :
    Prop where
  object : storage.FreshName objectName
  chars : ∀ c ∈ uploadName, (hexValue c).isSome ∨ c = '-'
  no_link : ∀ place i, storage.links.target (place ++ [partName uploadName i]) = none
  elsewhere : ∀ i, partName uploadName i ∉ storage.objectDir downloadBucketSubdir ∧
    partName uploadName i ∉ storage.storageLocation
  unused : tree.files (storage.objectDir downloadBucketSubdir ++ [objectName]) = none

section Places

variable {storage : LocalStorage} {decode : List UInt8 → Text} {tree : FileTree}

theorem plainChar_of_hex {c : Char} (h : (hexValue c).isSome ∨ c = '-') : plainChar c = true := by
  rcases h with h | rfl
  · unfold hexValue at h
    have halnum : c.isAlphanum = true := by
      change ((decide (c.val ≥ 65 ∧ c.val ≤ 90) ||
        decide (c.val ≥ 97) && decide (c.val ≤ 122)) ||
        (decide (c.val ≥ 48) && decide (c.val ≤ 57))) = true
      simp only [Bool.or_eq_true, Bool.and_eq_true, decide_eq_true_eq]
      split_ifs at h with hdigit hlower hupper
      · exact .inr hdigit
      · exact .inl (.inr ⟨hlower.1, UInt32.le_trans hlower.2 (by decide)⟩)
      · exact .inl (.inl ⟨hupper.1, UInt32.le_trans hupper.2 (by decide)⟩)
      · cases h
    simp [plainChar, halnum]
  · decide

theorem FreshName.plain {objectName : Text} (h : storage.FreshName objectName) :
    PlainName objectName :=
  ⟨h.isName, fun c hc => plainChar_of_hex (h.chars c hc)⟩

theorem underscore_mem_partName (uploadName : Text) (i : Nat) : '_' ∈ partName uploadName i := by
  simp [partName]

theorem plainName_part {uploadName : Text}
    (h : ∀ c ∈ uploadName, (hexValue c).isSome ∨ c = '-') (i : Nat) :
    PlainName (partName uploadName i) := by
  have hunderscore := underscore_mem_partName uploadName i
  have hchars : ∀ c ∈ partName uploadName i, plainChar c = true := by
    intro c hc
    simp only [partName, List.mem_append] at hc
    rcases hc with (hc | hc) | hc
    · exact plainChar_of_hex (h c hc)
    · have hall : ∀ c ∈ "_part".toList, plainChar c = true :=
        List.forall_iff_forall_mem.mp (by decide)
      exact hall c hc
    · have hdigit := isDigit_of_mem_itoa hc
      simp [plainChar, Char.isAlphanum, hdigit]
  refine ⟨⟨?_, ?_, ?_, ?_⟩, hchars⟩
  · exact List.ne_nil_of_mem hunderscore
  · intro heq
    rw [heq] at hunderscore
    exact absurd hunderscore (by decide)
  · intro heq
    rw [heq] at hunderscore
    exact absurd hunderscore (by decide)
  · intro hslash
    exact absurd (hchars _ hslash) (by decide)

theorem partName_injective (uploadName : Text) : Function.Injective (partName uploadName) := by
  intro i j h
  exact itoa_injective (List.append_cancel_left h)

/-- A name that is no link is in the directory that it is looked up in. -/
theorem resolve_fresh {place : List Text} {name : Text} (hname : IsName name)
    (hlink : storage.links.target (place ++ [name]) = none) :
    storage.links.resolve place [name] = place ++ [name] := by
  change storage.links.follow place name = _
  unfold Links.follow
  rw [if_neg hname.ne_dots, hlink, Option.getD_none]

theorem parse_key {kind objectName : Text} (hkind : IsName kind) (hname : IsName objectName) :
    PurePath.parse (kind ++ '/' :: objectName) = ⟨false, [kind, objectName]⟩ := by
  have hparse := @PurePath.parse_relativeText [kind, objectName] (by simp [hkind, hname])
  have htext : PurePath.relativeText [kind, objectName] = kind ++ '/' :: objectName := by
    simp [PurePath.relativeText, List.intercalate]
  rwa [htext] at hparse

/-- The first name of both routes. -/
def routeName : Text := "local_storage_multipart".toList

theorem plainName_route : PlainName routeName :=
  ⟨⟨by decide, by decide, by decide, by decide⟩, List.all_eq_true.mp (by decide)⟩

theorem plainName_multipart : PlainName multipartName :=
  ⟨⟨by decide, by decide, by decide, by decide⟩, List.all_eq_true.mp (by decide)⟩

theorem plainName_parts : PlainName partsName :=
  ⟨⟨by decide, by decide, by decide, by decide⟩, List.all_eq_true.mp (by decide)⟩

theorem plainName_downloads : PlainName downloadBucketSubdir :=
  ⟨⟨by decide, by decide, by decide, by decide⟩, List.all_eq_true.mp (by decide)⟩

theorem plainName_actions : PlainName actionBucketSubdir :=
  ⟨⟨by decide, by decide, by decide, by decide⟩, List.all_eq_true.mp (by decide)⟩

/-- The file of an object. -/
theorem place_object {kind objectName : Text} (hkind : IsName kind)
    (h : storage.FreshName objectName) :
    storage.resolvePath (storage.pathOf [multipartName, kind ++ '/' :: objectName]) =
      storage.objectDir kind ++ [objectName] := by
  have hpath : storage.pathOf [multipartName, kind ++ '/' :: objectName] =
      (storage.packagePath.join ⟨false, [multipartName]⟩).join ⟨false, [kind, objectName]⟩ := by
    unfold pathOf
    rw [List.foldl_cons, List.foldl_cons, List.foldl_nil, parse_name plainName_multipart.isName,
      parse_key hkind h.isName]
  rw [hpath, resolvePath_join, resolvePath_join]
  exact resolve_fresh h.isName (h.no_link _)

/-- The file of a part. -/
theorem place_part {part : Text} (hname : IsName part)
    (hlink : ∀ place, storage.links.target (place ++ [part]) = none) :
    storage.resolvePath (storage.partFile part) = storage.objectDir partsName ++ [part] := by
  have hpath : storage.partFile part = ((storage.packagePath.join ⟨false, [multipartName]⟩).join
      ⟨false, [partsName]⟩).join ⟨false, [part]⟩ := by
    unfold partFile pathOf
    rw [List.foldl_cons, List.foldl_cons, List.foldl_cons, List.foldl_nil,
      parse_name plainName_multipart.isName, parse_name plainName_parts.isName, parse_name hname]
  rw [hpath, resolvePath_join, resolvePath_join, resolvePath_join]
  exact resolve_fresh hname (hlink _)

/-- The URL of a part is routed to it. -/
theorem routedPart_url (hnil : decode [] = []) {part : Text} (hpart : PlainName part) :
    routedPart (percentDecode decode (storage.httpUrl (partsRoute ++ part)).path) = some part := by
  have hroute : partsRoute ++ part = '/' :: ['/'].intercalate [routeName, partsName, part] := by
    rw [List.intercalate_cons_cons, List.intercalate_cons_cons, List.intercalate_singleton]
    rfl
  have hplain : ∀ name ∈ [routeName, partsName, part], PlainName name := by
    simp [plainName_route, plainName_parts, hpart]
  obtain ⟨hjoined, hdecoded⟩ := plain_path (List.cons_ne_nil _ _) hplain hnil
  unfold httpUrl
  dsimp only
  rw [hroute, hjoined, hdecoded, ← hroute]
  unfold routedPart
  rw [if_pos (List.prefix_append _ _), List.drop_left]
  exact if_neg (not_or.mpr ⟨hpart.isName.ne_nil, hpart.isName.no_slash⟩)

/-- What the link of an object gets. -/
theorem fetchLink_object (hnil : decode [] = []) {kind objectName : Text} (hkind : PlainName kind)
    (h : storage.FreshName objectName) :
    storage.fetchLink decode tree (storage.generateFsDownloadUrl (kind ++ '/' :: objectName)) =
      if storage.encrypted = false ∧ storage.storageLocation <+: storage.objectDir kind then
        tree.files (storage.objectDir kind ++ [objectName]) else none := by
  have hname := h.isName
  have hroute : multipartRoute ++ (kind ++ '/' :: objectName) =
      '/' :: ['/'].intercalate [routeName, multipartName, kind, objectName] := by
    rw [List.intercalate_cons_cons, List.intercalate_cons_cons, List.intercalate_cons_cons,
      List.intercalate_singleton, List.append_assoc kind]
    rfl
  have hplain : ∀ name ∈ [routeName, multipartName, kind, objectName], PlainName name := by
    simp [plainName_route, plainName_multipart, hkind, h.plain]
  obtain ⟨hjoined, hdecoded⟩ := plain_path (List.cons_ne_nil _ _) hplain hnil
  have hpath : percentDecode decode
      (storage.generateFsDownloadUrl (kind ++ '/' :: objectName)).path =
        multipartRoute ++ (kind ++ '/' :: objectName) := by
    unfold generateFsDownloadUrl httpUrl
    dsimp only
    rw [hroute, hjoined, hdecoded]
  have hrouted : routedKey (multipartRoute ++ (kind ++ '/' :: objectName)) =
      some (kind ++ '/' :: objectName) := by
    unfold routedKey
    rw [if_pos (List.prefix_append _ _), List.drop_left]
    refine if_neg (not_or.mpr ⟨?_, ?_⟩)
    · exact List.append_ne_nil_of_right_ne_nil _ (List.cons_ne_nil _ _)
    · rw [List.head?_append_of_ne_nil _ hkind.isName.ne_nil]
      exact fun hhead => hkind.isName.no_slash (List.mem_of_mem_head? hhead)
  have hplace : storage.links.resolve storage.storageLocation [multipartName, kind, objectName] =
      storage.objectDir kind ++ [objectName] := by
    rw [← resolve_fresh hname (h.no_link _)]
    exact Links.resolve_append [multipartName, kind] [objectName]
  have hfetch : storage.fetchLocalFile tree (kind ++ '/' :: objectName) =
      if storage.storageLocation <+: storage.objectDir kind then
        tree.files (storage.objectDir kind ++ [objectName]) else none := by
    unfold fetchLocalFile
    dsimp only
    rw [parse_key hkind.isName hname, hplace]
    exact if_congr h.location_prefix_iff rfl rfl
  unfold fetchLink
  rw [hpath, hrouted]
  cases hencrypted : storage.encrypted with
  | false =>
    simp [generateFsDownloadUrl, httpUrl, hfetch]
  | true =>
    simp [generateFsDownloadUrl, httpUrl]

end Places

end LocalStorage

/-! ## Uploads -/

namespace LocalStorage

/-- The name of a part that is not in use. -/
structure FreshPart (storage : LocalStorage) (part : Text) : Prop where
  plain : PlainName part
  no_link : ∀ place, storage.links.target (place ++ [part]) = none
  elsewhere : part ∉ storage.storageLocation

section Uploads

variable {storage : LocalStorage} {decode : List UInt8 → Text} {tree tree' : FileTree}

/-- What is written into a directory does not change whether it can be used. -/
theorem usable_congr {dir : List Text}
    (h : ∀ p, p <+: dir → tree'.files p = tree.files p) :
    storage.Usable tree' dir ↔ storage.Usable tree dir := by
  constructor
  · intro hdir
    exact ⟨hdir.below, fun above habove => (h above habove).symm.trans (hdir.free above habove)⟩
  · intro hdir
    exact ⟨hdir.below, fun above habove => (h above habove).trans (hdir.free above habove)⟩

/-- The route stores a part if its directory can be used. -/
theorem uploadLocalFilePart_spec {part : Text} (h : storage.FreshPart part) (body : Bytes) :
    (storage.Usable tree (storage.objectDir partsName) ∧
      (storage.uploadLocalFilePart tree part body).2.2 = part ∧
      (storage.uploadLocalFilePart tree part body).1.files = fun p =>
        if p = storage.objectDir partsName ++ [part] then some body else tree.files p) ∨
    (¬ storage.Usable tree (storage.objectDir partsName) ∧
      (storage.uploadLocalFilePart tree part body).2.2 = [] ∧
      (storage.uploadLocalFilePart tree part body).1.files = tree.files) := by
  have hplace : storage.links.resolve storage.storageLocation
      (multipartName :: partsName :: (PurePath.parse part).parts) =
        storage.objectDir partsName ++ [part] := by
    rw [parse_name h.plain.isName, ← resolve_fresh h.plain.isName (h.no_link _)]
    exact Links.resolve_append [multipartName, partsName] [part]
  have hbelow : storage.storageLocation <+: storage.objectDir partsName ++ [part] ↔
      storage.storageLocation <+: storage.objectDir partsName := by
    rw [List.prefix_concat_iff]
    refine or_iff_right fun heq => h.elsewhere ?_
    rw [heq]
    exact List.mem_append_right _ (List.mem_singleton_self part)
  unfold uploadLocalFilePart
  dsimp only
  rw [hplace, List.dropLast_concat]
  by_cases hin : storage.storageLocation <+: storage.objectDir partsName
  · rw [if_neg (not_not_intro (hbelow.mpr hin))]
    cases hmade : tree.makeDirs (storage.objectDir partsName) with
    | none =>
      obtain ⟨above, habove, hfile⟩ := FileTree.makeDirs_eq_none_iff.mp hmade
      exact .inr ⟨fun husable => hfile (husable.free above habove), rfl, rfl⟩
    | some made =>
      refine .inl ⟨⟨hin, fun above habove => ?_⟩, rfl, ?_⟩
      · by_contra hfile
        rw [FileTree.makeDirs_eq_none_iff.mpr ⟨above, habove, hfile⟩] at hmade
        cases hmade
      · rw [← (FileTree.makeDirs_eq_some hmade).1]
        rfl
  · rw [if_pos (mt hbelow.mp hin)]
    exact .inr ⟨fun husable => hin husable.below, rfl, rfl⟩

/-- The upload of a part: without an answer, it fails. Otherwise it touches no other file, and the
answer has the right Etag exactly if the part is stored. -/
theorem putPart_spec (hnil : decode [] = []) {part : Text} (h : storage.FreshPart part)
    (body : Bytes) {put : PutEnd}
    (hother : ∀ status etag left, put = .answered status etag left → etag ≠ part) :
    (put = .failed ∧
      storage.putPart decode tree (storage.httpUrl (partsRoute ++ part)) body put = none) ∨
    (put ≠ .failed ∧ ∃ tree' etag,
      storage.putPart decode tree (storage.httpUrl (partsRoute ++ part)) body put =
        some (tree', etag) ∧
      (∀ p, p ≠ storage.objectDir partsName ++ [part] → tree'.files p = tree.files p) ∧
      (etag = part ↔ storage.Usable tree (storage.objectDir partsName) ∧ put = .handled) ∧
      (etag = part → tree'.files (storage.objectDir partsName ++ [part]) = some body)) := by
  have hrouted := @routedPart_url storage decode hnil part h.plain
  cases put with
  | failed => exact .inl ⟨rfl, rfl⟩
  | handled =>
    refine .inr ⟨nofun, (storage.uploadLocalFilePart tree part body).1,
      (storage.uploadLocalFilePart tree part body).2.2, ?_, ?_⟩
    · unfold putPart
      dsimp only
      rw [hrouted]
    · rcases uploadLocalFilePart_spec h body with ⟨husable, hetag, hfiles⟩ | ⟨hnot, hetag, hfiles⟩
      · rw [hetag, hfiles]
        exact ⟨fun p hp => if_neg hp, iff_of_true rfl ⟨husable, rfl⟩, fun _ => if_pos rfl⟩
      · rw [hetag, hfiles]
        have hne := h.plain.isName.ne_nil.symm
        exact ⟨fun _ _ => rfl, iff_of_false hne fun hstored => hnot hstored.1,
          fun heq => absurd heq hne⟩
  | answered status etag left =>
    have hne := hother status etag left rfl
    have hiff : etag = part ↔ storage.Usable tree (storage.objectDir partsName) ∧
        PutEnd.answered status etag left = .handled := iff_of_false hne nofun
    cases left with
    | none =>
      refine .inr ⟨nofun, tree, etag, ?_, fun _ _ => rfl, hiff, fun heq => absurd heq hne⟩
      unfold putPart
      rw [hrouted]
    | some left =>
      refine .inr ⟨nofun, tree.write (storage.objectDir partsName ++ [part]) left, etag, ?_,
        fun p hp => if_neg hp, hiff, fun heq => absurd heq hne⟩
      unfold putPart
      rw [hrouted]
      dsimp only
      rw [place_part h.plain.isName h.no_link]

theorem prefix_ne_concat {dir p : List Text} {name : Text} (h : p <+: dir) : p ≠ dir ++ [name] := by
  rintro rfl
  have hlength := h.length_le
  rw [List.length_append, List.length_singleton] at hlength
  omega

/-- The loop of the device: without an answer to some upload, it breaks off. Otherwise it touches
the files of the parts only, and gets the right Etags exactly if all parts are stored. -/
theorem uploadLoop_spec (hnil : decode [] = []) {partSize : Nat} {names : List Text}
    {puts : List PutEnd} (hputs : List.Forall₂ (fun name put =>
      ∀ status etag left, put = .answered status etag left → etag ≠ name) names puts)
    (hfresh : ∀ name ∈ names, storage.FreshPart name) (hnodup : names.Nodup) {rest : Bytes}
    {parts : List Bytes} (hread : readParts partSize names.length rest = some parts) :
    (.failed ∈ puts ∧ ∃ tree', storage.uploadLoop decode partSize
      ((names.map fun name => storage.httpUrl (partsRoute ++ name)).zip puts) tree rest =
        (tree', .requestError)) ∨
    (.failed ∉ puts ∧ ∃ tree' etags, storage.uploadLoop decode partSize
      ((names.map fun name => storage.httpUrl (partsRoute ++ name)).zip puts) tree rest =
        (tree', .uploaded etags) ∧
      (∀ p, (∀ name ∈ names, p ≠ storage.objectDir partsName ++ [name]) →
        tree'.files p = tree.files p) ∧
      (etags = names ↔ ∀ put ∈ puts, storage.Usable tree (storage.objectDir partsName) ∧
        put = .handled) ∧
      (etags = names → List.Forall₂ (fun name part =>
        tree'.files (storage.objectDir partsName ++ [name]) = some part) names parts)) := by
  induction hputs generalizing rest parts tree with
  | nil =>
    cases hread
    exact .inr ⟨List.not_mem_nil, tree, [], rfl, fun _ _ => rfl, by simp, fun _ => .nil⟩
  | @cons name put names puts hother hputs ih =>
    obtain ⟨⟨part, rest'⟩, hfirst, hread'⟩ := Option.bind_eq_some_iff.mp hread
    obtain ⟨parts', hnext, hparts⟩ := Option.bind_eq_some_iff.mp hread'
    cases hparts
    obtain ⟨hnotMem, hnodup⟩ := List.nodup_cons.mp hnodup
    have hfreshName := hfresh name List.mem_cons_self
    rcases @putPart_spec storage decode tree hnil name hfreshName part put hother with
      ⟨rfl, hput⟩ | ⟨hput, tree₁, etag, hetag, hframe, hiff, hstored⟩
    · refine .inl ⟨List.mem_cons_self, tree, ?_⟩
      simp [uploadLoop, hfirst, hput]
    · have hrest := @ih tree₁ (fun name hmem => hfresh name (List.mem_cons_of_mem _ hmem)) hnodup
        rest' parts' hnext
      rcases hrest with ⟨hfailed, tree', hloop⟩ |
        ⟨hfailed, tree', etags, hloop, hframe', hiff', hall⟩
      · refine .inl ⟨List.mem_cons_of_mem _ hfailed, tree', ?_⟩
        simp [uploadLoop, hfirst, hetag, hloop]
      · refine .inr ⟨List.not_mem_cons_of_ne_of_not_mem (Ne.symm hput) hfailed, tree',
          etag :: etags, ?_, ?_, ?_, ?_⟩
        · simp [uploadLoop, hfirst, hetag, hloop]
        · intro p hp
          rw [hframe' p fun name hmem => hp name (List.mem_cons_of_mem _ hmem)]
          exact hframe p (hp name List.mem_cons_self)
        · have husable : storage.Usable tree₁ (storage.objectDir partsName) ↔
              storage.Usable tree (storage.objectDir partsName) :=
            usable_congr fun p hp => hframe p (prefix_ne_concat hp)
          rw [List.cons.injEq, hiff, hiff', husable, List.forall_mem_cons]
        · intro heq
          obtain ⟨rfl, rfl⟩ := List.cons.inj heq
          refine .cons ?_ (hall rfl)
          -- the other parts are stored under other names
          rw [hframe' _ fun name hmem heq => ?_]
          · exact hstored rfl
          · have hsame := List.append_cancel_left heq
            cases hsame
            exact hnotMem hmem

theorem any_mismatch_iff {etags names : List Text} (h : etags.length = names.length) :
    ((etags.zip names).any fun (etag, expected) => etag ≠ expected) = true ↔ etags ≠ names := by
  induction etags generalizing names with
  | nil =>
    cases names with
    | nil => simp
    | cons name names => cases h
  | cons etag etags ih =>
    cases names with
    | nil => cases h
    | cons name names =>
      have hrest := ih (Nat.succ.inj h)
      rw [List.zip_cons_cons, List.any_cons, Bool.or_eq_true, hrest, decide_eq_true_eq, Ne, Ne, Ne,
        List.cons.injEq, not_and_or]

/-- Etags that are not those of the parts end the completion without an object. -/
theorem completeUpload_mismatch {uploader : MultipartUploader} {etags : List Text}
    (h : etags ≠ uploader.partFiles) : storage.completeUpload tree uploader etags = (tree, true) := by
  unfold completeUpload
  split
  · rfl
  · next hlength => rw [if_pos ((any_mismatch_iff (not_not.mp hlength)).mpr h)]

/-- With the Etags of the parts, the object is made of the parts, if its directory can be made. -/
theorem completeUpload_match {uploader : MultipartUploader} {parts : List Bytes}
    (hparts : List.Forall₂ (fun name part =>
      tree.files (storage.resolvePath (storage.partFile name)) = some part)
        uploader.partFiles parts) :
    ((∃ above, above <+: (storage.resolvePath uploader.finalFile).dropLast ∧
        tree.files above ≠ none) ∧
      storage.completeUpload tree uploader uploader.partFiles = (tree, false)) ∨
    ((∀ above, above <+: (storage.resolvePath uploader.finalFile).dropLast →
        tree.files above = none) ∧ ∃ tree',
      storage.completeUpload tree uploader uploader.partFiles = (tree', true) ∧
      tree'.files (storage.resolvePath uploader.finalFile) = some parts.flatten) := by
  have hmatch : ¬ ((uploader.partFiles.zip uploader.partFiles).any
      fun (etag, expected) => etag ≠ expected) = true :=
    fun hany => (any_mismatch_iff rfl).mp hany rfl
  have hread : (uploader.partFiles.map fun part =>
      tree.files (storage.resolvePath (storage.partFile part))) = parts.map some := by
    rw [← List.forall₂_eq_eq_eq, List.forall₂_map_left_iff, List.forall₂_map_right_iff]
    exact hparts
  have hsome : (parts.map some).takeWhile Option.isSome = parts.map some :=
    List.takeWhile_eq_self_iff.mpr fun o ho => by
      obtain ⟨part, -, rfl⟩ := List.mem_map.mp ho
      rfl
  unfold completeUpload
  rw [if_neg (not_not_intro rfl), if_neg hmatch]
  dsimp only
  cases hmade : tree.makeDirs (storage.resolvePath uploader.finalFile).dropLast with
  | none => exact .inl ⟨FileTree.makeDirs_eq_none_iff.mp hmade, rfl⟩
  | some made =>
    refine .inr ⟨fun above habove => ?_, made.write (storage.resolvePath uploader.finalFile)
      parts.flatten, ?_, if_pos rfl⟩
    · by_contra hfile
      rw [FileTree.makeDirs_eq_none_iff.mpr ⟨above, habove, hfile⟩] at hmade
      cases hmade
    · dsimp only
      rw [(FileTree.makeDirs_eq_some hmade).1, hread, hsome]
      simp [List.reduceOption]

end Uploads

end LocalStorage

/-! ## Truthful links -/

/-- The number of parts that a file is uploaded in; an empty one has nothing to upload. -/
def partCount (content : Bytes) : Nat :=
  if content = [] then 0
  else
    match uploadPartCount content.length desiredPartSize with
    | .ok (count, _) => count.toNat
    | .error _ => 0

namespace LocalStorage

variable (storage : LocalStorage) (decode : List UInt8 → Text) (tree : FileTree)

/-- All parts are uploaded, and the route stores them. -/
def AllStored (content : Bytes) {uploadName : Text} (puts : PartUploads uploadName) : Prop :=
  ∀ i < partCount content,
    storage.Usable tree (storage.objectDir partsName) ∧ puts.upload i = .handled

/-- A link to a download serves the file, and there is one if all uploads succeed. -/
structure TruthfulDownload (content : Bytes) (objectName uploadName : Text)
    (puts : PartUploads uploadName) : Prop where
  link : ∀ tree' url,
    storage.prepareDownload decode tree content objectName uploadName puts =
      (tree', .returned 0 url) →
    ∃ link, url = some link ∧ storage.fetchLink decode tree' link = some content
  complete : storage.AllStored tree content puts →
    ∃ tree' url, storage.prepareDownload decode tree content objectName uploadName puts =
      (tree', .returned 0 url)

/-- The uploads go on to the end, and the object can be made and served; or one of them gets no
answer. -/
def Downloadable (content : Bytes) {uploadName : Text} (puts : PartUploads uploadName) : Prop :=
  content ≠ [] ∧ ((∃ i < partCount content, puts.upload i = .failed) ∨
    storage.AllStored tree content puts ∧ storage.encrypted = false ∧
      storage.Usable tree (storage.objectDir downloadBucketSubdir))

/-- A link to an output serves it. -/
def TruthfulOutput (b64decode : String → Option Bytes) (output : String) (objectName : Text) :
    Prop :=
  ∀ tree' url, storage.actionLink b64decode tree output objectName = some (tree', some url) →
    ∃ content, b64decode output = some content ∧ storage.fetchLink decode tree' url = some content

/-- Where `upload_action_log` puts the outputs: from the working directory on. -/
def actionLogDir : List Text := storage.resolvePath ⟨false, [actionBucketSubdir]⟩

/-- There is no link, or outputs are stored where they are served. -/
def Linkable (b64decode : String → Option Bytes) (output : String) : Prop :=
  output = "" ∨ b64decode output = none ∨
    (∃ above, above <+: storage.actionLogDir ∧ tree.files above ≠ none) ∨
    (storage.encrypted = false ∧ storage.storageLocation <+: storage.objectDir actionBucketSubdir ∧
      storage.actionLogDir = storage.objectDir actionBucketSubdir)

section Truthful

variable {storage decode tree} (hnil : decode [] = [])
include hnil

theorem truthfulOutput_iff {b64decode : String → Option Bytes} {output : String}
    {objectName : Text} (h : storage.FreshName objectName)
    (hunused : tree.files (storage.objectDir actionBucketSubdir ++ [objectName]) = none) :
    storage.TruthfulOutput decode tree b64decode output objectName ↔
      storage.Linkable tree b64decode output := by
  have hdestination : storage.resolvePath
      ((PurePath.parse actionBucketSubdir).join (.parse objectName)) =
        storage.actionLogDir ++ [objectName] := by
    rw [parse_name plainName_actions.isName, parse_name h.isName, resolvePath_join]
    exact resolve_fresh h.isName (h.no_link _)
  unfold TruthfulOutput Linkable actionLink
  by_cases hempty : output = ""
  · simp [hempty]
  · rw [if_neg hempty]
    unfold addOutputToStorage uploadActionLog
    simp only [hdestination, List.dropLast_concat]
    cases hcontent : b64decode output with
    | none => simp
    | some content =>
      cases hmade : tree.makeDirs storage.actionLogDir with
      | none =>
        have hfile := FileTree.makeDirs_eq_none_iff.mp hmade
        simp [hfile]
      | some made =>
        have hfree : ¬ ∃ above, above <+: storage.actionLogDir ∧ tree.files above ≠ none := by
          intro hfile
          rw [FileTree.makeDirs_eq_none_iff.mpr hfile] at hmade
          cases hmade
        have hfiles := (FileTree.makeDirs_eq_some hmade).1
        have hfetch : storage.fetchLink decode
            (made.write (storage.actionLogDir ++ [objectName]) content)
            (storage.generateFsDownloadUrl (actionBucketSubdir ++ '/' :: objectName)) =
              some content ↔ storage.encrypted = false ∧
                storage.storageLocation <+: storage.objectDir actionBucketSubdir ∧
                storage.actionLogDir = storage.objectDir actionBucketSubdir := by
          rw [fetchLink_object hnil plainName_actions h, Option.ite_none_right_eq_some, and_assoc]
          refine and_congr_right fun _ => and_congr_right fun _ => ?_
          change (if _ = _ then _ else made.files _) = some content ↔ _
          rw [hfiles, hunused]
          split
          · next heq => exact iff_of_true rfl (List.append_cancel_right heq).symm
          · next hne =>
            exact iff_of_false nofun fun heq => hne (congrArg (fun dir => dir ++ [objectName]) heq.symm)
        simp only [hempty, hfree, false_or, reduceCtorEq]
        rw [← hfetch]
        constructor
        · intro htruth
          obtain ⟨_, ⟨⟩, hserved⟩ := htruth _ _ rfl
          exact hserved
        · intro hserved tree' url heq
          cases heq
          exact ⟨content, rfl, hserved⟩

omit hnil in
/-- The uploads of the parts, by their names. -/
theorem partUploads_other {uploadName : Text} (puts : PartUploads uploadName) (n : Nat) :
    List.Forall₂ (fun name put => ∀ status etag left, put = .answered status etag left →
      etag ≠ name) ((List.range n).map (partName uploadName)) ((List.range n).map puts.upload) := by
  rw [List.forall₂_map_left_iff, List.forall₂_map_right_iff, List.forall₂_same]
  exact fun i _ status etag left => puts.other i status etag left

omit hnil in
theorem FreshUpload.part {objectName uploadName : Text}
    (h : storage.FreshUpload tree objectName uploadName) {n : Nat} :
    ∀ name ∈ (List.range n).map (partName uploadName), storage.FreshPart name := by
  intro name hmem
  obtain ⟨i, -, rfl⟩ := List.mem_map.mp hmem
  exact ⟨plainName_part h.chars i, fun place => h.no_link place i, (h.elsewhere i).2⟩

omit hnil in
/-- The name of an object has no underscore. -/
theorem FreshUpload.object_ne_part {objectName uploadName : Text}
    (h : storage.FreshUpload tree objectName uploadName) (i : Nat) :
    objectName ≠ partName uploadName i := by
  intro heq
  have hunderscore : '_' ∈ objectName := heq ▸ underscore_mem_partName uploadName i
  have hnot : ¬ ((hexValue '_').isSome ∨ '_' = '-') := by decide
  exact hnot (h.object.chars '_' hunderscore)

/-- How `prepare_download` ends for a file that is not empty: without an answer to some upload, it
waits. With a part that is not stored it returns a link to nothing. Otherwise it stores the file,
unless the directory cannot be made. -/
inductive Prepared (storage : LocalStorage) (tree tree' : FileTree) (content : Bytes)
    (objectName : Text) {uploadName : Text} (puts : PartUploads uploadName) : DownloadEnd → Prop where
  | unanswered (hfailed : ∃ i < partCount content, puts.upload i = .failed) :
      Prepared storage tree tree' content objectName puts .waits
  | lost (hanswered : ¬ ∃ i < partCount content, puts.upload i = .failed)
      (hlost : ¬ storage.AllStored tree content puts)
      (hnothing : tree'.files (storage.objectDir downloadBucketSubdir ++ [objectName]) = none) :
      Prepared storage tree tree' content objectName puts (.returned 0 (some
        (storage.generateFsDownloadUrl (downloadBucketSubdir ++ '/' :: objectName))))
  | blocked (hanswered : ¬ ∃ i < partCount content, puts.upload i = .failed)
      (hstored : storage.AllStored tree content puts)
      (hfile : ∃ above, above <+: storage.objectDir downloadBucketSubdir ∧
        tree.files above ≠ none) :
      Prepared storage tree tree' content objectName puts .raised
  | stored (hanswered : ¬ ∃ i < partCount content, puts.upload i = .failed)
      (hstored : storage.AllStored tree content puts)
      (hfree : ∀ above, above <+: storage.objectDir downloadBucketSubdir → tree.files above = none)
      (hobject : tree'.files (storage.objectDir downloadBucketSubdir ++ [objectName]) =
        some content) :
      Prepared storage tree tree' content objectName puts (.returned 0 (some
        (storage.generateFsDownloadUrl (downloadBucketSubdir ++ '/' :: objectName))))

theorem prepareDownload_prepared {content : Bytes} {objectName uploadName : Text}
    {puts : PartUploads uploadName} (hne : content ≠ [])
    (hsize : (content.length : Int) ≤ maxUploadSize)
    (h : storage.FreshUpload tree objectName uploadName) :
    ∃ tree' answer, storage.prepareDownload decode tree content objectName uploadName puts =
        (tree', answer) ∧ Prepared storage tree tree' content objectName puts answer := by
  have hlength := List.length_pos_iff.mpr hne
  have hlow : 1 ≤ (content.length : Int) := by omega
  obtain ⟨count, partSize, hcount, hone, -, hlast, hwhole, -⟩ :=
    uploadPartCount_bounds desiredPartSize hlow hsize
  obtain ⟨n, p, rfl, rfl, hn, hread⟩ := exists_readParts hlow hone hlast hwhole
  obtain ⟨parts, hparts, -, -, hflatten⟩ := hread content rfl
  have hpartCount : partCount content = n := by
    simp [partCount, hne, hcount]
  have hurls : storage.generateUrls (downloadBucketSubdir ++ '/' :: objectName) content.length
      uploadName = .ok (((List.range n).map (partName uploadName)).map fun part =>
        storage.httpUrl (partsRoute ++ part), p,
        ⟨storage.pathOf [multipartName, downloadBucketSubdir ++ '/' :: objectName],
          (List.range n).map (partName uploadName)⟩) := by
    unfold generateUrls
    rw [hcount]
    rfl
  have hfailed : PutEnd.failed ∈ (List.range n).map puts.upload ↔
      ∃ i < partCount content, puts.upload i = .failed := by
    rw [hpartCount]
    simp
  have hplace := @place_object storage downloadBucketSubdir objectName plainName_downloads.isName
    h.object
  have hloop := @uploadLoop_spec storage decode tree hnil p _ _ (partUploads_other puts n) h.part
    (List.nodup_range.map (partName_injective uploadName)) content parts (by simpa using hparts)
  have hstored : (∀ put ∈ (List.range n).map puts.upload,
      storage.Usable tree (storage.objectDir partsName) ∧ put = .handled) ↔
        storage.AllStored tree content puts := by
    unfold AllStored
    rw [hpartCount]
    simp
  unfold prepareDownload
  dsimp only
  rw [if_neg (by omega), hurls]
  dsimp only
  rw [List.length_map, List.length_map, List.length_range]
  rcases hloop with ⟨hmem, tree', hloop⟩ | ⟨hmem, tree', etags, hloop, hframe, hiff, hall⟩
  · rw [hloop]
    exact ⟨tree', .waits, rfl, .unanswered (hfailed.mp hmem)⟩
  · have hanswered := mt hfailed.mpr hmem
    rw [hloop]
    dsimp only
    rw [hstored] at hiff
    by_cases hetags : etags = (List.range n).map (partName uploadName)
    · subst hetags
      -- the parts are in their files, and nothing else has changed
      have hfiles : List.Forall₂ (fun name part =>
          tree'.files (storage.resolvePath (storage.partFile name)) = some part)
            ((List.range n).map (partName uploadName)) parts := by
        have hstored' := hall rfl
        rw [List.forall₂_map_left_iff] at hstored' ⊢
        refine hstored'.imp fun i part hpart => ?_
        rw [place_part (plainName_part h.chars i).isName fun place => h.no_link place i]
        exact hpart
      have hmatch := @completeUpload_match storage tree'
        ⟨storage.pathOf [multipartName, downloadBucketSubdir ++ '/' :: objectName],
          (List.range n).map (partName uploadName)⟩ parts hfiles
      dsimp only at hmatch
      rw [hplace, List.dropLast_concat] at hmatch
      have hsame : ∀ above, above <+: storage.objectDir downloadBucketSubdir →
          tree'.files above = tree.files above := by
        intro above habove
        refine hframe above fun name hname heq => ?_
        obtain ⟨i, -, rfl⟩ := List.mem_map.mp hname
        refine (h.elsewhere i).1 (habove.subset ?_)
        rw [heq]
        exact List.mem_append_right _ (List.mem_singleton_self _)
      rcases hmatch with ⟨⟨above, habove, hfile⟩, hcomplete⟩ | ⟨hfree, tree'', hcomplete, hobject⟩
      · rw [hcomplete]
        exact ⟨_, _, rfl, .blocked hanswered (hiff.mp rfl)
          ⟨above, habove, hsame above habove ▸ hfile⟩⟩
      · rw [hcomplete]
        refine ⟨_, _, rfl, .stored hanswered (hiff.mp rfl) (fun above habove => ?_) ?_⟩
        · exact (hsame above habove).symm.trans (hfree above habove)
        · exact hflatten ▸ hobject
    · rw [completeUpload_mismatch hetags]
      refine ⟨_, _, rfl, .lost hanswered (mt hiff.mpr hetags) ?_⟩
      rw [hframe]
      · exact h.unused
      · intro name hname heq
        obtain ⟨i, -, rfl⟩ := List.mem_map.mp hname
        exact h.object_ne_part i (List.singleton_inj.mp (List.append_inj' heq rfl).2)

theorem truthfulDownload_iff {content : Bytes} {objectName uploadName : Text}
    {puts : PartUploads uploadName} (hsize : (content.length : Int) ≤ maxUploadSize)
    (h : storage.FreshUpload tree objectName uploadName) :
    storage.TruthfulDownload decode tree content objectName uploadName puts ↔
      storage.Downloadable tree content puts := by
  by_cases hempty : content = []
  · subst hempty
    refine iff_of_false (fun htruth => ?_) fun hcond => hcond.1 rfl
    obtain ⟨tree', url, hreturned⟩ := htruth.complete fun i hi => absurd hi (Nat.not_lt_zero i)
    cases hreturned
  · obtain ⟨tree', answer, hanswer, hprepared⟩ :=
      @prepareDownload_prepared storage decode tree hnil content objectName uploadName puts hempty
        hsize h
    have hfetch := @fetchLink_object storage decode tree' hnil downloadBucketSubdir objectName
      plainName_downloads h.object
    have hnotFree (hfile : ∃ above, above <+: storage.objectDir downloadBucketSubdir ∧
        tree.files above ≠ none) :
        ¬ storage.Usable tree (storage.objectDir downloadBucketSubdir) := by
      obtain ⟨above, habove, hfile⟩ := hfile
      exact fun husable => hfile (husable.free above habove)
    cases hprepared with
    | unanswered hfailed =>
      refine iff_of_true ⟨fun tree'' url hreturned => ?_, fun hstored => ?_⟩
        ⟨hempty, .inl hfailed⟩
      · rw [hanswer] at hreturned
        cases hreturned
      · obtain ⟨i, hi, hput⟩ := hfailed
        cases hput.symm.trans (hstored i hi).2
    | lost hanswered hlost hnothing =>
      refine iff_of_false (fun htruth => ?_) ?_
      · obtain ⟨link, ⟨⟩, hserved⟩ := htruth.link _ _ hanswer
        rw [hfetch, hnothing] at hserved
        simp at hserved
      · rintro ⟨-, hfailed | ⟨hstored, -⟩⟩
        · exact hanswered hfailed
        · exact hlost hstored
    | blocked hanswered hstored hfile =>
      refine iff_of_false (fun htruth => ?_) ?_
      · obtain ⟨tree'', url, hreturned⟩ := htruth.complete hstored
        rw [hanswer] at hreturned
        cases hreturned
      · rintro ⟨-, hfailed | ⟨-, -, husable⟩⟩
        · exact hanswered hfailed
        · exact hnotFree hfile husable
    | stored hanswered hstored hfree hobject =>
      rw [hobject] at hfetch
      constructor
      · intro htruth
        obtain ⟨link, ⟨⟩, hserved⟩ := htruth.link _ _ hanswer
        rw [hfetch, Option.ite_none_right_eq_some] at hserved
        exact ⟨hempty, .inr ⟨hstored, hserved.1.1, hserved.1.2, hfree⟩⟩
      · rintro ⟨-, hfailed | ⟨-, hencrypted, husable⟩⟩
        · exact absurd hfailed hanswered
        · refine ⟨fun tree'' url hreturned => ?_, fun _ => ⟨_, _, hanswer⟩⟩
          rw [hanswer] at hreturned
          cases hreturned
          exact ⟨_, rfl, hfetch.trans (if_pos ⟨hencrypted, husable.below⟩)⟩

end Truthful

end LocalStorage

/-- **Links are truthful** exactly in these cases. A download: the file is not empty, and either an
upload gets no answer, or all parts are stored by a server without encryption, whose directories can
be made and are in the package directory. An output: there is no link, or the working directory is
such that outputs are stored where they are served. -/
theorem download_links_iff (storage : LocalStorage) (decode : List UInt8 → Text)
    (hnil : decode [] = []) (b64decode : String → Option Bytes) (tree : FileTree)
    (content : Bytes) (hsize : (content.length : Int) ≤ maxUploadSize)
    (objectName uploadName : Text) (h : storage.FreshUpload tree objectName uploadName)
    (puts : PartUploads uploadName) (output : String) (outputName : Text)
    (houtput : storage.FreshName outputName)
    (hunused : tree.files (storage.objectDir actionBucketSubdir ++ [outputName]) = none) :
    (storage.TruthfulDownload decode tree content objectName uploadName puts ↔
      storage.Downloadable tree content puts) ∧
    (storage.TruthfulOutput decode tree b64decode output outputName ↔
      storage.Linkable tree b64decode output) :=
  ⟨LocalStorage.truthfulDownload_iff hnil hsize h,
    LocalStorage.truthfulOutput_iff hnil houtput hunused⟩

namespace DeviceDownloadRun

open LocalStorageRun

def uploadName : Text := "6b29fc40-ca47-1067-b31d-00dd010662da".toList

/-- The server runs in the directory of the objects. -/
def multipartStorage : LocalStorage where
  packageDir := "/srv/packages"
  hostname := "127.0.0.1"
  httpPort := 5000
  encrypted := false
  links := Links.noLinks
  cwd := ["srv".toList, "packages".toList, "multipart".toList]
  cwd_canonical :=
    ⟨List.forall_iff_forall_mem.mp
      ⟨⟨by decide, by decide, by decide, by decide⟩, ⟨by decide, by decide, by decide, by decide⟩,
        by decide, by decide, by decide, by decide⟩, fun _ _ => rfl⟩

theorem partName_notMem {dir : List Text} (h : dir.all fun name => !name.contains '_') (i : Nat) :
    partName uploadName i ∉ dir := by
  intro hmem
  have hno := List.all_eq_true.mp h _ hmem
  rw [List.contains_iff_mem.mpr (LocalStorage.underscore_mem_partName uploadName i)] at hno
  cases hno

theorem freshName_multipart : multipartStorage.FreshName storeName where
  ne_nil := by decide
  chars := List.forall_iff_forall_mem.mp (by decide)
  no_link _ := rfl
  elsewhere := by decide

theorem freshUpload_multipart :
    multipartStorage.FreshUpload emptyTree storeName uploadName where
  object := freshName_multipart
  chars := List.forall_iff_forall_mem.mp (by decide)
  no_link _ _ := rfl
  elsewhere i := ⟨partName_notMem (by decide) i, partName_notMem (by decide) i⟩
  unused := rfl

/-- All uploads are handled. -/
def handledUploads : PartUploads uploadName where
  upload _ := .handled
  other := nofun

/-- All uploads are answered with an error. -/
def refusedUploads : PartUploads uploadName where
  upload _ := .answered 500 [] none
  other := by
    rintro i _ _ _ ⟨⟩
    exact (List.ne_nil_of_mem (LocalStorage.underscore_mem_partName uploadName i)).symm

/-- The base64 of `hi`. -/
def b64decode (text : String) : Option Bytes := if text = "aGk=" then some [104, 105] else none

end DeviceDownloadRun

open LocalStorageRun DeviceDownloadRun

theorem download_links_multipart :
    multipartStorage.TruthfulDownload decode emptyTree [1, 2, 3] storeName uploadName
        handledUploads ∧
      multipartStorage.TruthfulOutput decode emptyTree b64decode "aGk=" storeName := by
  have h := download_links_iff multipartStorage decode rfl b64decode emptyTree [1, 2, 3] (by decide)
    storeName uploadName freshUpload_multipart handledUploads "aGk=" storeName freshName_multipart
    rfl
  refine ⟨h.1.mpr ⟨by decide, .inr ⟨fun i _ => ⟨⟨by decide, fun _ _ => rfl⟩, rfl⟩, rfl, by decide,
    fun _ _ => rfl⟩⟩, h.2.mpr (.inr (.inr (.inr ⟨rfl, by decide, by decide⟩)))⟩

/-- A part is answered with an error: there is a link and nothing behind it. An empty file has no
link. An output is stored in the working directory, and its link leads elsewhere. -/
theorem download_links_broken :
    (∃ tree' url, storage.prepareDownload decode emptyTree [1, 2, 3] storeName uploadName
        refusedUploads = (tree', .returned 0 (some url)) ∧
      storage.fetchLink decode tree' url = none) ∧
    ¬ storage.TruthfulDownload decode emptyTree [1, 2, 3] storeName uploadName refusedUploads ∧
    storage.prepareDownload decode emptyTree [] storeName uploadName handledUploads =
      (emptyTree, .returned 1 none) ∧
    ¬ storage.TruthfulDownload decode emptyTree [] storeName uploadName handledUploads ∧
    (∃ tree' url, storage.actionLink b64decode emptyTree "aGk=" storeName =
        some (tree', some url) ∧ storage.fetchLink decode tree' url = none) ∧
    ¬ storage.TruthfulOutput decode emptyTree b64decode "aGk=" storeName := by
  have hrefused : storage.prepareDownload decode emptyTree [1, 2, 3] storeName uploadName
      refusedUploads = (emptyTree, .returned 0 (some (storage.generateFsDownloadUrl
        (downloadBucketSubdir ++ '/' :: storeName)))) := rfl
  have hnothing : storage.fetchLink decode emptyTree (storage.generateFsDownloadUrl
      (downloadBucketSubdir ++ '/' :: storeName)) = none := by decide
  refine ⟨⟨_, _, hrefused, hnothing⟩, fun htruth => ?_, rfl, fun htruth => ?_,
    ⟨_, _, rfl, by decide⟩, fun htruth => ?_⟩
  · obtain ⟨link, ⟨⟩, hserved⟩ := htruth.link _ _ hrefused
    exact absurd hserved (by decide)
  · obtain ⟨tree', url, hreturned⟩ := htruth.complete fun i hi => absurd hi (Nat.not_lt_zero i)
    cases hreturned
  · obtain ⟨content, ⟨⟩, hserved⟩ := htruth _ _ rfl
    exact absurd hserved (by decide)

end Rdfm.Server
