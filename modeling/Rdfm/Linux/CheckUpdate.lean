import Rdfm.Linux.InstallGate
import Rdfm.Linux.UpdateCache

/-!
# Checking for an update

`checkUpdate` of the Linux client: the reply of the server announces a package by its URI and its
SHA-256, `DoInstall` streams what is served at the URI through the cache and the progress tee into
`DoInstallStates`, and a success is reported with the new version.

The announced hash is not read on the way. So only the announced package is installed, whatever hash
is announced, exactly if what is served does not install at all (`checkUpdate_announced_iff`). The
mcumgr client compares it (`fetchUpdateArtifact_eq_some_iff`).

The artifact reader and the hash are parameters.
-/

namespace Rdfm.Linux

open Rdfm.Lib

/-! ## The check -/

/-- What the reply to an update check says of the package. -/
structure Package where
  id : Nat
  created : Text
  sha256 : Text
  uri : Text
deriving DecidableEq, Repr

/-- The request to `/api/v1/update/check`, as it goes. -/
inductive CheckReply where
  /-- No metadata, no device token, or no reply. -/
  | failed
  /-- 200; `none` if the body cannot be read or decoded. -/
  | available (pkg : Option Package)
  /-- 204. -/
  | noUpdates
  /-- 400. -/
  | missingMetadata
  /-- 401. -/
  | unauthorized
  | unexpected
deriving DecidableEq, Repr

inductive CheckFailure where
  | request
  /-- `Failed to get package metadata from response body`, `Failed to deserialize package metadata`. -/
  | package
  /-- `Device metadata is missing device type and/or software version`. -/
  | metadata
  /-- `Device did not provide authorization data, or the authorization has expired`. -/
  | authorization
  /-- `Unexpected status code from the server`. -/
  | status
deriving DecidableEq, Repr

/-- What is behind a URI, and the sizes of the reads on the way to it: an artifact on a server, or a
file. -/
structure Served where
  artifact : Bytes
  net : Net
  retryCount : Nat
  httpCacheEnabled : Bool
  headerSizes : List Nat
  sizes : List Nat
  file : Option Bytes

/-- All that an update check can change. -/
structure UpdaterState (κ R : Type) where
  cache : CacheDir κ
  device : DeviceState R

/-- What an installation returns (`none` if the update cannot be fetched), and the bytes it got. -/
structure DoneInstall (κ R : Type) where
  outcome : Option InstallOutcome
  consumed : Bytes
  state : UpdaterState κ R

/-- What an update check returns, whether it called `updateSoftwareVersion`, and the bytes that the
installation got. -/
structure Checked (κ R : Type) where
  err : Option CheckFailure
  reported : Bool
  consumed : Bytes
  state : UpdaterState κ R

def isHttp (uri : Text) : Bool := "http:".toList.isPrefixOf uri || "https:".toList.isPrefixOf uri

section Check

variable {κ R : Type} [DecidableEq κ] (tar : Tar) (sha1 : Bytes → κ)
  (areader : Bytes → ReadEnd → Artifact × Option Nat) (dev : DeviceManager R) (io : CallFaults)

/-- `FetchUpdateFromFile` and the reads of it. -/
def readLocal (sizes : List Nat) (file : Bytes) : Bytes × ReadEnd :=
  let asked := sizes.foldl Nat.add 0
  (file.take asked, if file.length < asked then .eof else .ok)

/-- The stream of `DoInstall`, as far as it is read. The tee into the progress bar changes nothing. -/
def fetchUpdate (uri : Text) (served : Served) (cache : CacheDir κ) : Option (Bytes × ReadEnd) :=
  if isHttp uri then
    match fetchAndCacheUpdate tar sha1 served.net served.retryCount served.artifact
      served.httpCacheEnabled served.headerSizes cache with
    | none => none
    | some (_, stream) =>
      match stream.readAll served.net served.retryCount served.artifact served.sizes with
      | (data, e, _) => some (data, e)
  else served.file.map (readLocal served.sizes)

/-- The cache directory after `DoInstall`. -/
def cacheAfter (uri : Text) (served : Served) (installed : Bool) (cache : CacheDir κ) : CacheDir κ :=
  if isHttp uri then
    Attempt.next tar sha1 cache
      { artifact := served.artifact
        net := served.net
        retryCount := served.retryCount
        httpCacheEnabled := served.httpCacheEnabled
        headerSizes := served.headerSizes
        sizes := served.sizes
        installed := installed }
  else if installed then fun _ => none
  else cache

/-- `DoInstall`: the artifact reader gives the artifact, and how many of its files it can read. -/
def doInstall (uri : Text) (served : Served) (s : UpdaterState κ R) : DoneInstall κ R :=
  match fetchUpdate tar sha1 uri served s.cache with
  | none => ⟨none, [], s⟩
  | some (data, e) =>
    match areader data e with
    | (art, fault) =>
      let installed := doInstallStates dev { io with data := fault } art s.device
      let cache := cacheAfter tar sha1 uri served (installed.outcome = .ok) s.cache
      ⟨some installed.outcome, data, ⟨cache, installed.state⟩⟩

/-- `checkUpdate`. A failed installation is only logged. -/
def checkUpdate (reply : CheckReply) (served : Served) (s : UpdaterState κ R) : Checked κ R :=
  match reply with
  | .failed => ⟨some .request, false, [], s⟩
  | .available none => ⟨some .package, false, [], s⟩
  | .available (some pkg) =>
    match doInstall tar sha1 areader dev io pkg.uri served s with
    | ⟨outcome, consumed, s⟩ => ⟨none, outcome = some .ok, consumed, s⟩
  | .noUpdates => ⟨none, false, [], s⟩
  | .missingMetadata => ⟨some .metadata, false, [], s⟩
  | .unauthorized => ⟨some .authorization, false, [], s⟩
  | .unexpected => ⟨some .status, false, [], s⟩

end Check

/-! ## The other client -/

/-- `strings.ToLower`, on what can become a hexadecimal digit. -/
def toLower (s : Text) : Text := s.map Char.toLower

/-- `FetchUpdateArtifact` of the mcumgr client, where `body` is what `io.ReadAll` returns. -/
def fetchUpdateArtifact (sha256Hex : Bytes → Text) (announced : Text) (body : Option Bytes) :
    Option Bytes :=
  match body with
  | none => none
  | some artBytes => if toLower announced ≠ sha256Hex artBytes then none else some artBytes

/-- The artifact has the announced hash. -/
def HashMatches (sha256Hex : Bytes → Text) (announced : Text) (bytes : Bytes) : Prop :=
  toLower announced = sha256Hex bytes

/-- The mcumgr client only gets artifacts with the announced hash. -/
theorem fetchUpdateArtifact_eq_some_iff {sha256Hex : Bytes → Text} {announced : Text}
    {body : Option Bytes} {bytes : Bytes} :
    fetchUpdateArtifact sha256Hex announced body = some bytes ↔
      body = some bytes ∧ HashMatches sha256Hex announced bytes := by
  unfold fetchUpdateArtifact HashMatches
  cases body with
  | none => exact iff_of_false nofun (fun h => nomatch h.1)
  | some artBytes =>
    dsimp only
    by_cases hhash : toLower announced = sha256Hex artBytes
    · rw [if_neg (not_not.mpr hhash), Option.some_inj]
      exact (and_iff_left_of_imp fun h => h ▸ hhash).symm
    · rw [if_pos hhash]
      refine iff_of_false nofun (fun h => ?_)
      cases h.1
      exact hhash h.2

/-! ## What is reported -/

section Reported

variable {κ R : Type} [DecidableEq κ] {tar : Tar} {sha1 : Bytes → κ}
  {areader : Bytes → ReadEnd → Artifact × Option Nat} {dev : DeviceManager R} {io : CallFaults}
  {served : Served} {s : UpdaterState κ R}

variable (tar sha1 areader dev io) in
/-- What is served at a URI can be fetched and is an artifact that installs. -/
def ServedInstalls (uri : Text) (served : Served) (s : UpdaterState κ R) : Prop :=
  ∃ data e, fetchUpdate tar sha1 uri served s.cache = some (data, e) ∧
    Installs dev { io with data := (areader data e).2 } (areader data e).1 s.device

theorem doInstall_ok_iff {uri : Text} :
    (doInstall tar sha1 areader dev io uri served s).outcome = some .ok ↔
      ServedInstalls tar sha1 areader dev io uri served s := by
  unfold doInstall ServedInstalls
  cases hfetch : fetchUpdate tar sha1 uri served s.cache with
  | none =>
    refine iff_of_false nofun ?_
    rintro ⟨data, e, h, -⟩
    cases h
  | some result =>
    rcases result with ⟨data, e⟩
    dsimp only
    rw [Option.some_inj, doInstallStates_ok_iff]
    constructor
    · intro h
      exact ⟨data, e, rfl, h⟩
    · rintro ⟨data', e', heq, h⟩
      cases heq
      exact h

variable (tar sha1 areader dev io) in
/-- Only the announced package is installed: a success is reported only if the bytes that the
installation got have the announced hash. -/
def OnlyAnnounced (sha256Hex : Bytes → Text) (reply : CheckReply) (served : Served)
    (s : UpdaterState κ R) : Prop :=
  (checkUpdate tar sha1 areader dev io reply served s).reported = true →
    ∃ pkg, reply = .available (some pkg) ∧ HashMatches sha256Hex pkg.sha256
      (checkUpdate tar sha1 areader dev io reply served s).consumed

/-- The report does not depend on the announced hash. -/
theorem checkUpdate_reported_iff {pkg : Package} :
    (checkUpdate tar sha1 areader dev io (.available (some pkg)) served s).reported = true ↔
      ServedInstalls tar sha1 areader dev io pkg.uri served s := by
  rw [← doInstall_ok_iff]
  exact decide_eq_true_iff

/-- Some text is not a given hash. -/
theorem exists_not_hashMatches (sha256Hex : Bytes → Text) (bytes : Bytes) :
    ∃ announced, ¬ HashMatches sha256Hex announced bytes := by
  unfold HashMatches
  by_cases hnil : sha256Hex bytes = []
  · exact ⟨['0'], by rw [hnil]; decide⟩
  · exact ⟨[], fun h => hnil h.symm⟩

end Reported

/-- **Only the announced package is installed**, for every hash that may be announced with a URI,
exactly if what is served there does not install, over whatever was cached before. -/
theorem checkUpdate_announced_iff {κ R : Type} [DecidableEq κ] (tar : Tar) (sha1 : Bytes → κ)
    (areader : Bytes → ReadEnd → Artifact × Option Nat) (dev : DeviceManager R) (io : CallFaults)
    (sha256Hex : Bytes → Text) (pkg : Package) (served : Served) (s : UpdaterState κ R) :
    (∀ sha256, OnlyAnnounced tar sha1 areader dev io sha256Hex
      (.available (some { pkg with sha256 })) served s) ↔
      ¬ ServedInstalls tar sha1 areader dev io pkg.uri served s := by
  constructor
  · intro h hinstalls
    -- The bytes are the same whatever is announced.
    rcases exists_not_hashMatches sha256Hex
      (doInstall tar sha1 areader dev io pkg.uri served s).consumed with ⟨announced, hne⟩
    rcases h announced (checkUpdate_reported_iff.mpr hinstalls) with ⟨pkg', heq, hmatches⟩
    cases heq
    exact hne hmatches
  · intro hnot sha256 hreported
    exact absurd (checkUpdate_reported_iff.mp hreported) hnot

/-! ## An artifact with one file -/

def textBytes (s : String) : Bytes := s.toList.map fun c => UInt8.ofNat c.toNat

/-- Bytes filled up with zeros. -/
def zeroPad (width : Nat) (bytes : Bytes) : Bytes := bytes ++ List.replicate (width - bytes.length) 0

/-- An octal number of so many digits. -/
def octalField (digits n : Nat) : Bytes :=
  let text := (Nat.toDigits 8 n).map fun c => UInt8.ofNat c.toNat
  List.replicate (digits - text.length) 48 ++ text

/-- A tar header with the given checksum field. -/
def tarHeaderWith (checksum : Bytes) (name : String) (size : Nat) : Bytes :=
  zeroPad 512 (zeroPad 257 (zeroPad 100 (textBytes name) ++ zeroPad 8 (textBytes "0000644") ++
    zeroPad 8 (textBytes "0000000") ++ zeroPad 8 (textBytes "0000000") ++
    zeroPad 12 (octalField 11 size) ++ zeroPad 12 (textBytes "00000000000") ++ checksum ++
    textBytes "0") ++ zeroPad 6 (textBytes "ustar") ++ textBytes "00")

def tarHeader (name : String) (size : Nat) : Bytes :=
  let sum := (tarHeaderWith (textBytes "        ") name size).foldl (fun n b => n + b.toNat) 0
  tarHeaderWith (octalField 6 sum ++ [0, 32]) name size

/-- An archive of regular files. -/
def tarArchive (files : List (String × Bytes)) : Bytes :=
  (files.flatMap fun (name, data) =>
    tarHeader name data.length ++ zeroPad ((data.length + 511) / 512 * 512) data) ++
    List.replicate 1024 0

/-- The artifact of `boardArtifact`, for the board `rpi`. -/
def rpiArtifact : Bytes :=
  tarArchive
    [("version", textBytes "\x7b\"format\":\"mender\",\"version\":3\x7d"),
      ("manifest", textBytes
        ("2824684de3d1a19390ca88cf826e77c6f750657e552edb83d466666c37521a08  data/0000/dest_dir\n" ++
          "23da8067f15d76dbe86fda7eb79f76c020a2a2f801d4939b463db02e82b3fb47  header.tar\n" ++
          "96bcd965947569404798bcbdb614f103db5a004eb6e364cfc162c146890ea35b  version\n")),
      ("header.tar", tarArchive
        [("header-info", textBytes
          ("\x7b\"payloads\":[\x7b\"type\":\"single-file\"\x7d]," ++
            "\"artifact_provides\":\x7b\"artifact_name\":\"config\"\x7d," ++
            "\"artifact_depends\":\x7b\"device_type\":[\"rpi\"]\x7d\x7d")),
          ("headers/0000/type-info", textBytes "\x7b\"type\":\"single-file\"\x7d")]),
      ("data/0000.tar", tarArchive [("dest_dir", textBytes "/etc")])]

theorem rpiArtifact_ne_nil : rpiArtifact ≠ [] := by
  unfold rpiArtifact tarArchive
  exact List.append_ne_nil_of_right_ne_nil _ nofun

/-- The SHA-256 of the artifact. -/
def rpiArtifactHash : Text :=
  "c34e78496d2404c88df6abad8018c0bdcad06d0f66213df4ad043539991c6fbb".toList

/-- A package at a URI on the server, announced with a hash of zeros. -/
def zeroHashPackage : Package where
  id := 1
  created := []
  sha256 := List.replicate 64 '0'
  uri := "http://server/config".toList

/-- An artifact on a server without connection errors; caching is off. -/
def plainServed (artifact : Bytes) : Served where
  artifact := artifact
  net := plainNet artifact
  retryCount := 0
  httpCacheEnabled := false
  headerSizes := []
  sizes := List.replicate (artifact.length + 2) 1
  file := none

theorem fetchUpdate_plainServed {κ : Type} (tar : Tar) (sha1 : Bytes → κ) (cache : CacheDir κ)
    {artifact : Bytes} (hne : artifact ≠ []) {uri : Text} (huri : isHttp uri = true) :
    fetchUpdate tar sha1 uri (plainServed artifact) cache = some (artifact, .eof) := by
  obtain ⟨stream, hopen, hdrains⟩ :=
    fetch_direct 0 tar sha1 cache [] (plainNet_reliable artifact) hne
  obtain ⟨s', hread⟩ := hdrains _ (drains_replicate artifact)
  unfold fetchUpdate
  rw [if_pos huri]
  dsimp only [plainServed]
  rw [hopen]
  dsimp only
  rw [hread]

/-- The artifact is installed and reported, though the announced hash is not its hash. -/
theorem checkUpdate_ignores_hash :
    (checkUpdate shortTar sha1Empty (fun _ _ => (boardArtifact ["rpi".toList], none)) rpiDevice
      noCallFaults (.available (some zeroHashPackage)) (plainServed rpiArtifact)
      ⟨fun _ => none, blankState⟩).reported = true ∧
    ¬ OnlyAnnounced shortTar sha1Empty (fun _ _ => (boardArtifact ["rpi".toList], none)) rpiDevice
      noCallFaults (fun _ => rpiArtifactHash) (.available (some zeroHashPackage))
      (plainServed rpiArtifact) ⟨fun _ => none, blankState⟩ := by
  have hfetch : fetchUpdate shortTar sha1Empty zeroHashPackage.uri (plainServed rpiArtifact)
      (fun _ => none) = some (rpiArtifact, .eof) :=
    fetchUpdate_plainServed shortTar sha1Empty _ rpiArtifact_ne_nil (by decide)
  have hreported : (checkUpdate shortTar sha1Empty
      (fun _ _ => (boardArtifact ["rpi".toList], none)) rpiDevice noCallFaults
      (.available (some zeroHashPackage)) (plainServed rpiArtifact)
      ⟨fun _ => none, blankState⟩).reported = true :=
    checkUpdate_reported_iff.mpr
      ⟨rpiArtifact, .eof, hfetch, rfl, ⟨[], rfl, by decide⟩, nofun, fun _ _ => rfl⟩
  refine ⟨hreported, fun h => ?_⟩
  rcases h hreported with ⟨pkg, heq, hmatches⟩
  cases heq
  revert hmatches
  unfold HashMatches
  decide

end Rdfm.Linux
