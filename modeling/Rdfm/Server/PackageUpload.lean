import Rdfm.Server.LocalStorage
import Rdfm.Server.PermissionGate
import Rdfm.Server.ResolverGraph
import Rdfm.Server.UpdateProgress

/-!
# Uploads and the checks that follow

`upload_package` takes the form of a request as the metadata of the package. It refuses keys that
the storage drivers use, but does not ask for a version or a device type, which the resolver reads
of every package of a group. An update check is therefore stopped by a package that lacks one of
them, for all devices of the group (`unversioned_package_stops_checks`). It completes exactly if
the metadata has what the resolver reads on the way to the target of the policy
(`checks_complete_iff`). The links of the drivers are no obstacle: what they need is stored with
every package that is accepted.

The client of the object storage and the reading of the artifact are parameters.
-/

namespace Rdfm.Server

open Rdfm.Lib

/-! ## What the resolver reads -/

/-- The metadata has what `resolve` reads on the way to a target. -/
structure Resolvable (device : Metadata) (packages : List PackageInfo) (t : String) : Prop where
  devTypes : ∀ p ∈ packages, ∃ ty, p.info.lookup metaDeviceType = some ty
  versions : ∀ p ∈ packages, p.info.lookup metaDeviceType = device.lookup metaDeviceType →
    ∃ v, HasVersion p.info v
  search : ∃ u, HasVersion device u ∧
    (Known device packages u t → ∀ p ∈ packages, ∃ v, HasVersion p.info v)

section Resolve

variable {device : Metadata} {packages : List PackageInfo} {policy : BasePolicy} {t : String}
  {ty : MetaValue} {shortestPath : PackageGraph → String → String → Option (List String)}

theorem versionNode_ok_iff (hty : device.lookup metaDeviceType = some ty) {p : PackageInfo} :
    (∃ r, versionNode device p = .ok r) ↔
      (∃ ty', p.info.lookup metaDeviceType = some ty') ∧
        (p.info.lookup metaDeviceType = device.lookup metaDeviceType →
          ∃ v, HasVersion p.info v) := by
  constructor
  · rintro ⟨r, h⟩
    obtain ⟨ty', hty', h⟩ := bind_ok_iff.1 h
    obtain ⟨ty'', hty'', h⟩ := bind_ok_iff.1 h
    rw [getItem_ok_iff] at hty' hty''
    refine ⟨⟨ty', hty'⟩, fun hsame => ?_⟩
    rw [hty', hty'', Option.some.injEq] at hsame
    rw [if_neg (not_not_intro hsame)] at h
    obtain ⟨x, hx, -⟩ := bind_ok_iff.1 h
    exact p.hasVersion_of_lookup (getItem_ok_iff.1 hx)
  · rintro ⟨⟨ty', hty'⟩, hversion⟩
    by_cases hsame : ty' = ty
    · obtain ⟨v, hv⟩ := hversion (by rw [hty', hty, hsame])
      exact ⟨some v, versionNode_some_iff.2 ⟨hv, ty, hty, hsame ▸ hty'⟩⟩
    · refine ⟨none, bind_ok_iff.2 ⟨ty', getItem_ok_iff.2 hty', bind_ok_iff.2
        ⟨ty, getItem_ok_iff.2 hty, ?_⟩⟩⟩
      rw [if_pos hsame]
      rfl

theorem versionGraph_ok_iff (hty : device.lookup metaDeviceType = some ty) {u : String} :
    (∃ G, versionGraph device packages u = .ok G) ↔
      ∀ p ∈ packages, (∃ ty', p.info.lookup metaDeviceType = some ty') ∧
        (p.info.lookup metaDeviceType = device.lookup metaDeviceType →
          ∃ v, HasVersion p.info v) := by
  constructor
  · rintro ⟨G, h⟩ p hp
    obtain ⟨vs, hvs, -⟩ := bind_ok_iff.1 h
    obtain ⟨r, -, hr⟩ := exists_of_mapM_ok hvs hp
    exact (versionNode_ok_iff hty).1 ⟨r, hr⟩
  · intro h
    obtain ⟨vs, hvs⟩ := mapM_ok_of_forall fun p hp => (versionNode_ok_iff hty).2 (h p hp)
    exact ⟨_, bind_ok_iff.2 ⟨vs, hvs, rfl⟩⟩

/-- `resolve` returns exactly if it finds the keys that it reads. -/
theorem resolve_ok_iff (hsp : ShortestPath shortestPath)
    (hty : device.lookup metaDeviceType = some ty) (ht : policy.evaluate device = some t) :
    (∃ r, resolve shortestPath device packages policy = .ok r) ↔ Resolvable device packages t := by
  constructor
  · rintro ⟨r, h⟩
    unfold resolve at h
    obtain ⟨x, hx, h⟩ := bind_ok_iff.1 h
    simp only [ht] at h
    obtain ⟨u, hu, h⟩ := bind_ok_iff.1 h
    obtain ⟨G₀, h₀, hrest⟩ := bind_ok_iff.1 h
    rw [asNode_ok_iff] at hu
    subst hu
    have hnodes := (versionGraph_ok_iff hty).1 ⟨G₀, h₀⟩
    refine ⟨fun p hp => (hnodes p hp).1, fun p hp => (hnodes p hp).2, u, getItem_ok_iff.1 hx, ?_⟩
    intro hknown p hp
    have hnode : G₀.hasNode t = true := by
      simpa [MultiDiGraph.hasNode] using ((versionGraph_ok h₀).2 t).2 hknown
    rw [hnode] at hrest
    obtain ⟨G, hG, -⟩ := bind_ok_iff.1 hrest
    have hbuilt : Built device packages u G := ⟨G₀, h₀, hG⟩
    exact (hbuilt.carries hp).1.version
  · rintro ⟨htypes, hversions, u, hu, hsearch⟩
    obtain ⟨G₀, h₀⟩ := (@versionGraph_ok_iff device packages ty hty u).2
      fun p hp => ⟨htypes p hp, hversions p hp⟩
    by_cases hknown : Known device packages u t
    · obtain ⟨G, hG⟩ := exists_built hu hty fun p hp => ⟨hsearch hknown p hp, htypes p hp⟩
      cases hpath : shortestPath G u t with
      | none => exact ⟨none, by rw [resolve_eq hu ht hknown hG, hpath]⟩
      | some path =>
        have hwalk := (hsp.geodesic hG.cost_one (hG.mem_nodes (.inl rfl)) (hG.mem_nodes hknown)
          hpath).walk
        obtain ⟨-, -, hr⟩ | ⟨-, -, i, -, -, hr⟩ := resolve_of_path hu ht hknown hG hpath hwalk
        · exact ⟨none, hr⟩
        · exact ⟨some i, hr⟩
    · have hnode : G₀.hasNode t = false := by
        rw [← (versionGraph_ok h₀).2 t] at hknown
        simpa [MultiDiGraph.hasNode] using hknown
      refine ⟨none, ?_⟩
      unfold resolve
      rw [getItem_ok_iff.2 hu]
      simp only [bind, Except.bind, ht, asNode, h₀, hnode, Bool.not_false, ↓reduceIte]
      rfl

end Resolve

/-! ## Storage -/

inductive S3End where
  | stored
  | clientError
  | exception

/-- The client of the object storage. -/
structure S3Client where
  uploadFile : String → Bytes → S3End
  /-- `generate_presigned_url`; `none` is an exception. -/
  generatePresignedUrl : String → Nat → Option String

def metaS3Uuid : String := "rdfm.storage.s3.uuid"

def metaS3Directory : String := "rdfm.storage.s3.directory"

namespace S3Client

variable (client : S3Client)

/-- `S3Storage.get_object_path`. -/
def getObjectPath (bucketDirectory : Option String) (objectId : String) : String :=
  match bucketDirectory with
  | none => objectId
  | some directory => if directory = "" then objectId else directory ++ "/" ++ objectId

/-- `S3Storage.upsert`. The metadata also gets the size of the file, a number. -/
def upsert (metadata : Metadata) (content : Bytes) (bucketDirectory : Option String)
    (objectId : String) : UpsertEnd :=
  match client.uploadFile (getObjectPath bucketDirectory objectId) content with
  | .stored => .stored ((metadata.insert metaS3Uuid (.str objectId)).insert metaS3Directory
      (.str (bucketDirectory.getD "")))
  | .clientError => .refused
  | .exception => .exception

/-- `S3Storage.generate_url`. -/
def generateUrl (metadata : Metadata) (expiry : Nat) : Option String :=
  match metadata.lookup metaS3Uuid, metadata.lookup metaS3Directory with
  | some (.str objectId), none =>
    client.generatePresignedUrl (getObjectPath none objectId) expiry
  | some (.str objectId), some (.str directory) =>
    client.generatePresignedUrl (getObjectPath (some directory) objectId) expiry
  | _, _ => none

end S3Client

/-- How the reading of an artifact ends. `ReadError` and `KeyError` are caught. -/
inductive TarEnd where
  | complete
  | unreadable
  | exception
deriving DecidableEq

/-- The configuration, and what an upload rests on. -/
structure ServerConfig where
  storageDriver : String
  disableApiAuth : Bool
  storage : LocalStorage
  s3 : S3Client
  /-- The types of the payloads in the header of an artifact, as far as it is read. -/
  payloadTypes : Bytes → List String × TarEnd
  sha256 : Bytes → String

/-- What an update check rests on. -/
def ServerConfig.checkEnv (conf : ServerConfig)
    (shortestPath : PackageGraph → String → String → Option (List String)) (first : Nat) :
    CheckEnv where
  shortestPath := shortestPath
  generateUrl
    | .localStorage, info, _ => (conf.storage.generateUrl info.info).map PackageUrl.text
    | .s3, info, expiry => conf.s3.generateUrl info.info expiry
  first := first

/-! ## Uploads -/

def metaStorageDirectory : String := "rdfm.storage.directory"

def scopeSingleFile : String := "rdfm_upload_single_file"

def scopeRootfsImage : String := "rdfm_upload_rootfs_image"

def scopeNonstandardArtifact : String := "rdfm_upload_nonstandard_artifact"

/-- `artifact_type_to_scope`. -/
def artifactTypeToScope (artifactType : String) : String :=
  if artifactType = "single-file" then scopeSingleFile
  else if artifactType = "rootfs-image" then scopeRootfsImage
  else if artifactType = "nonstandard" then scopeNonstandardArtifact
  else scopeReadWrite

/-- `get_scopes_for_upload_package`, up to the order. -/
def getScopesForUploadPackage (artifactType : String) : List String :=
  [artifactTypeToScope artifactType, scopeReadWrite].dedup

/-- `is_authorized_to_upload`; `none` is an exception. -/
def isAuthorizedToUpload (conf : ServerConfig) (content : Bytes) (scopes : List String) :
    Option (Bool × List (List String)) :=
  if conf.disableApiAuth then some (true, [])
  else
    let (types, tarEnd) := conf.payloadTypes content
    if tarEnd = .exception then none
    else
      let artifactTypes := if tarEnd = .unreadable then types ++ ["nonstandard"] else types
      let requiredScopes := artifactTypes.map getScopesForUploadPackage
      some (requiredScopes.all fun required => scopes.any fun scope => required.contains scope,
        requiredScopes)

/-- `str` of a list of strings without quotes. -/
def listText (items : List String) : String :=
  "[" ++ ", ".intercalate (items.map fun item => "'" ++ item ++ "'") ++ "]"

/-- `metadata_contains_reserved_keys`. -/
def metadataContainsReservedKeys (metadata : Metadata) : Bool :=
  metadata.keys.any fun key => startsWith key "rdfm.storage."

/-- An upload, with the identifiers and the time that the server takes for it. -/
structure UploadRequest where
  scopes : List String
  form : PackageInfo
  file : Option Bytes
  storeName : Text
  id : Int
  created : String

inductive UploadResponse where
  | uploaded (package : Package)
  | error (message : String) (status : Nat)
  /-- The empty response with status 500 after an exception. -/
  | failed

/-- The status is 200. -/
def UploadResponse.accepted : UploadResponse → Bool
  | .uploaded _ => true
  | _ => false

def MetaValue.isStr : MetaValue → Bool
  | .str _ => true
  | .list _ => false

/-- The strings of the metadata. The drivers add numbers besides. -/
def PackageInfo.ofMetadata (metadata : Metadata) : PackageInfo where
  info := ⟨metadata.entries.filter fun e => e.2.isStr,
    metadata.nodupKeys.sublist List.filter_sublist⟩
  strings := by
    rintro ⟨k, v⟩ he
    obtain ⟨-, hstr⟩ := List.mem_filter.mp he
    cases v with
    | str s => exact ⟨s, rfl⟩
    | list items => cases hstr

/-- `PackagesDB.create`; `none` is its failure. -/
def UpdateStore.createPackage (s : UpdateStore) (package : Package) : Option UpdateStore :=
  if h : Constraints { s.db.toTables with packages := s.db.packages ++ [package.id] } then
    some { s with
      db := ⟨_, h⟩
      packages := s.packages ++ [package]
      packages_id := by rw [List.map_append, s.packages_id]; rfl }
  else none

/-- The database and the files of the local storage. -/
structure PackageServer where
  store : UpdateStore
  tree : FileTree

namespace PackageServer

variable (s : PackageServer)

/-- `upsert` of the driver. -/
def upsert (conf : ServerConfig) (driver : StorageDriver) (metadata : Metadata) (content : Bytes)
    (storageDirectory : Option String) (storeName : Text) : FileTree × UpsertEnd :=
  match driver with
  | .localStorage => conf.storage.upsert s.tree metadata content storageDirectory storeName
  | .s3 => (s.tree, conf.s3.upsert metadata content storageDirectory (String.ofList storeName))

/-- The rows of a package that has been stored. -/
def createPackage (conf : ServerConfig) (request : UploadRequest) (content : Bytes)
    (metadata : Metadata) : PackageServer × UploadResponse :=
  let package : Package :=
    { id := request.id
      created := request.created
      driver := conf.storageDriver
      sha256 := conf.sha256 content
      info := .ofMetadata metadata }
  match s.store.createPackage package with
  | none => (s, .error "could not create package" 500)
  | some store => ({ s with store := store }, .uploaded package)

/-- `upload_package`. -/
def uploadPackage (conf : ServerConfig) (request : UploadRequest) :
    PackageServer × UploadResponse :=
  let storageDirectory :=
    match request.form.info.lookup metaStorageDirectory with
    | some (.str directory) => some directory
    | _ => none
  let metadata := request.form.info.erase metaStorageDirectory
  if metadataContainsReservedKeys metadata then
    (s, .error "provided metadata contains reserved key" 400)
  else
    match request.file with
    | none => (s, .error "missing package file" 400)
    | some content =>
      match driverByName conf.storageDriver with
      | none => (s, .error "invalid storage driver" 500)
      | some driver =>
        match isAuthorizedToUpload conf content request.scopes with
        | none => (s, .failed)
        | some (false, requiredScopes) =>
          (s, .error ("user does not have permission to upload this package type. One of the " ++
            "scopes is required: " ++ ", ".intercalate (requiredScopes.map listText)) 403)
        | some (true, _) =>
          let (tree, stored) :=
            s.upsert conf driver metadata content storageDirectory request.storeName
          let s := { s with tree := tree }
          match stored with
          | .exception => (s, .failed)
          | .refused => (s, .error "could not store artifact" 500)
          | .stored metadata => s.createPackage conf request content metadata

end PackageServer

/-! ## Runs -/

/-- The policy of a new group. -/
def newGroupPolicy : String := "no_update,"

/-- A transaction that leaves the packages alone. -/
def UpdateStore.commitTables (s : UpdateStore) (tables : Tables) : UpdateStore :=
  if h : Constraints tables ∧ tables.packages = s.db.packages then
    { s with
      db := ⟨tables, h.1⟩
      packages_id := s.packages_id.trans h.2.symm }
  else s

inductive PackageEvent where
  | upload (conf : ServerConfig) (request : UploadRequest)
  | updatePolicy (identifier : Int) (policy : String)
  /-- A change of devices, groups or assignments. -/
  | transaction (tables : Tables)

namespace PackageServer

variable (s : PackageServer)

def step : PackageEvent → PackageServer
  | .upload conf request => (s.uploadPackage conf request).1
  | .updatePolicy identifier policy =>
    -- the route refuses a policy that cannot be created
    if (createPolicy policy).isSome then
      { s with store := s.store.commitTables { s.store.db.toTables with
          groups := s.store.db.groups.map fun g =>
            if g.id = identifier then { g with policy := policy } else g } }
    else s
  | .transaction tables =>
    if ∀ g ∈ tables.groups,
        g.policy = newGroupPolicy ∨ g.policy ∈ s.store.db.groups.map Group.policy then
      { s with store := s.store.commitTables tables }
    else s

theorem empty_packages_id : ([] : List Package).map Package.id = Database.empty.packages := rfl

def start (tree : FileTree) : PackageServer where
  store :=
    { db := Database.empty
      registrations := []
      packages := []
      packages_id := empty_packages_id
      deviceUpdates := [] }
  tree := tree

end PackageServer

/-- The key under which a driver stores the name of the file. -/
def uuidKey : StorageDriver → String
  | .localStorage => metaLocalUuid
  | .s3 => metaS3Uuid

/-- The package is stored with a driver of the server, and with the name of its file. -/
def Package.Linked (package : Package) : Prop :=
  ∃ driver, driverByName package.driver = some driver ∧
    ∃ name, package.info.info.lookup (uuidKey driver) = some (.str name)

/-- Every package can be linked to, and every group has a policy. -/
structure UpdateStore.Servable (s : UpdateStore) : Prop where
  links : ∀ package ∈ s.packages, package.Linked
  policies : ∀ g ∈ s.db.groups, (createPolicy g.policy).isSome

section Runs

variable {s : PackageServer} {conf : ServerConfig}

theorem PackageInfo.ofMetadata_lookup {metadata : Metadata} {k v : String}
    (h : metadata.lookup k = some (.str v)) :
    (PackageInfo.ofMetadata metadata).info.lookup k = some (.str v) :=
  AList.mem_lookup_iff.mpr (List.mem_filter.mpr ⟨AList.mem_lookup_iff.mp h, rfl⟩)

/-- Both drivers store the name of the file. -/
theorem PackageServer.upsert_uuid {driver : StorageDriver} {metadata metadata' : Metadata}
    {content : Bytes} {storageDirectory : Option String} {storeName : Text}
    (h : (s.upsert conf driver metadata content storageDirectory storeName).2 =
      .stored metadata') :
    ∃ name, metadata'.lookup (uuidKey driver) = some (.str name) := by
  refine ⟨String.ofList storeName, ?_⟩
  cases driver with
  | localStorage =>
    simp only [upsert, LocalStorage.upsert] at h
    split at h
    · cases h
    · split at h
      · cases h
      · split at h
        · cases h
        · split at h
          · cases h
          · cases h
            rw [AList.lookup_insert_ne (by decide)]
            exact AList.lookup_insert _
  | s3 =>
    simp only [upsert, S3Client.upsert] at h
    split at h
    · cases h
      rw [AList.lookup_insert_ne (by decide)]
      exact AList.lookup_insert _
    · cases h
    · cases h

/-- An upload adds a package that can be linked to, or no row at all. -/
theorem PackageServer.uploadPackage_store (request : UploadRequest) :
    (s.uploadPackage conf request).1.store = s.store ∨
      ∃ package, package.Linked ∧
        s.store.createPackage package = some (s.uploadPackage conf request).1.store := by
  unfold uploadPackage
  dsimp only
  split
  · exact .inl rfl
  · split
    · exact .inl rfl
    · split
      · exact .inl rfl
      · next driver hdriver =>
        split
        · exact .inl rfl
        · exact .inl rfl
        · split
          · exact .inl rfl
          · exact .inl rfl
          · next metadata hstored =>
            obtain ⟨name, hname⟩ := upsert_uuid hstored
            unfold createPackage
            dsimp only
            split
            · exact .inl rfl
            · next store hcreate =>
              have hlookup := PackageInfo.ofMetadata_lookup hname
              exact .inr ⟨_, ⟨driver, hdriver, name, hlookup⟩, hcreate⟩

namespace UpdateStore.Servable

variable {s : UpdateStore} (h : s.Servable)
include h

theorem createPackage {s' : UpdateStore} {package : Package} (hlinked : package.Linked)
    (hcreate : s.createPackage package = some s') : s'.Servable := by
  unfold UpdateStore.createPackage at hcreate
  split at hcreate
  · cases hcreate
    refine ⟨fun p hp => ?_, h.policies⟩
    rcases List.mem_append.mp hp with hp | hp
    · exact h.links p hp
    · rw [List.mem_singleton.mp hp]
      exact hlinked
  · cases hcreate

theorem commitTables {tables : Tables}
    (hpolicies : ∀ g ∈ tables.groups, (createPolicy g.policy).isSome) :
    (s.commitTables tables).Servable := by
  unfold UpdateStore.commitTables
  split
  · exact ⟨h.links, hpolicies⟩
  · exact h

end UpdateStore.Servable

/-- One event keeps every package linked and every policy valid. -/
theorem PackageServer.servable_step (h : s.store.Servable) (event : PackageEvent) :
    (s.step event).store.Servable := by
  cases event with
  | upload conf request =>
    rcases @uploadPackage_store s conf request with hsame | ⟨package, hlinked, hcreate⟩
    · exact hsame.symm ▸ h
    · exact h.createPackage hlinked hcreate
  | updatePolicy identifier policy =>
    unfold step
    dsimp only
    split
    · next hpolicy =>
      refine h.commitTables fun g hg => ?_
      obtain ⟨g', hg', rfl⟩ := List.mem_map.mp hg
      split
      · exact hpolicy
      · exact h.policies g' hg'
    · exact h
  | transaction tables =>
    unfold step
    dsimp only
    split
    · next hgroups =>
      refine h.commitTables fun g hg => ?_
      rcases hgroups g hg with hnew | hold
      · rw [hnew]
        rfl
      · obtain ⟨g', hg', hsame⟩ := List.mem_map.mp hold
        rw [← hsame]
        exact h.policies g' hg'
    · exact h

theorem PackageServer.servable_run (tree : FileTree) (events : List PackageEvent) :
    (events.foldl step (start tree)).store.Servable := by
  induction events using List.reverseRecOn with
  | nil => exact ⟨nofun, nofun⟩
  | append_singleton events event ih =>
    rw [List.foldl_concat]
    exact servable_step ih event

end Runs

/-! ## Checks -/

/-- The status is 200 or 204. -/
def CheckResponse.Completed : CheckResponse → Prop
  | .update _ _ _ _ => True
  | .noContent => True
  | .error _ _ => False

/-- If the policy of the device's active group has a target and the group has packages, they and the
device have the keys that the resolver reads. -/
def UpdateStore.Checkable (s : UpdateStore) (device : Device) (deviceMeta : Metadata) : Prop :=
  ∀ group ∈ s.db.groups, ∀ policy t,
    s.db.fetchActiveGroup (s.db.fetchGroups device.id) = some (some group.id) →
    createPolicy group.policy = some policy → policy.evaluate deviceMeta = some t →
    s.fetchAssignedData group.id ≠ [] →
    Resolvable deviceMeta ((s.fetchAssignedData group.id).map Package.info) t

section Checks

variable {s : UpdateStore} {conf : ServerConfig} {first : Nat} {deviceMeta : Metadata}
  {device : Device} {shortestPath : PackageGraph → String → String → Option (List String)}

theorem mem_fetchAssignedData {group : Int} {package : Package}
    (h : package ∈ s.fetchAssignedData group) : package ∈ s.packages := by
  obtain ⟨a, -, h⟩ := List.mem_flatMap.mp h
  exact (List.mem_filter.mp h).1

theorem PackageInfo.lookup_cases (info : PackageInfo) (key : String) :
    info.info.lookup key = none ∨ ∃ value, info.info.lookup key = some (.str value) := by
  cases hkey : info.info.lookup key with
  | none => exact .inl rfl
  | some x =>
    obtain ⟨value, hvalue⟩ := info.strings _ (AList.mem_lookup_iff.mp hkey)
    exact .inr ⟨value, congrArg some hvalue⟩

/-- The drivers have a link for every package that was accepted. -/
theorem Package.Linked.generateUrl {package : Package} (h : package.Linked)
    (hpresign : ∀ key expiry, (conf.s3.generatePresignedUrl key expiry).isSome) :
    ∃ driver, driverByName package.driver = some driver ∧
      ((conf.checkEnv shortestPath first).generateUrl driver package.info
        linkExpiryTime).isSome := by
  obtain ⟨driver, hdriver, name, hname⟩ := h
  refine ⟨driver, hdriver, ?_⟩
  cases driver with
  | localStorage =>
    have hname : package.info.info.lookup metaLocalUuid = some (.str name) := hname
    rcases package.info.lookup_cases metaLocalDirectory with hnone | ⟨directory, hsome⟩
    · simp [ServerConfig.checkEnv, LocalStorage.generateUrl, LocalStorage.storagePath,
        LocalStorage.getText, hname, hnone]
    · simp [ServerConfig.checkEnv, LocalStorage.generateUrl, LocalStorage.storagePath,
        LocalStorage.getText, hname, hsome]
  | s3 =>
    have hname : package.info.info.lookup metaS3Uuid = some (.str name) := hname
    rcases package.info.lookup_cases metaS3Directory with hnone | ⟨directory, hsome⟩
    · simp [ServerConfig.checkEnv, S3Client.generateUrl, hname, hnone, hpresign]
    · simp [ServerConfig.checkEnv, S3Client.generateUrl, hname, hsome, hpresign]

/-- A package with a version is offered. -/
theorem Package.Linked.offered {package : Package} (h : package.Linked)
    (hpresign : ∀ key expiry, (conf.s3.generatePresignedUrl key expiry).isSome) {v : String}
    (hv : HasVersion package.info.info v) :
    ∃ s' response, offerPackage (conf.checkEnv shortestPath first) s device package =
      some (s', response) ∧ response.Completed := by
  obtain ⟨driver, hdriver, hlink⟩ :=
    @Package.Linked.generateUrl conf first shortestPath package h hpresign
  obtain ⟨link, hlink⟩ := Option.isSome_iff_exists.mp hlink
  have hversion : package.info.info.lookup metaSoftVer = some (.str v) := hv
  refine ⟨s.insertUpdate ⟨device.macAddress, v, 0⟩,
    .update package.id package.created package.sha256 link, ?_, trivial⟩
  simp only [offerPackage, hdriver, hlink, hversion, Option.bind_eq_bind, Option.bind_some]
  rfl

theorem findPackage_of_active {group : Group} {policy : BasePolicy} {env : CheckEnv}
    (hgroup : group ∈ s.db.groups)
    (hactive : s.db.fetchActiveGroup (s.db.fetchGroups device.id) = some (some group.id))
    (hpolicy : createPolicy group.policy = some policy) :
    findPackage env s deviceMeta device =
      if (s.fetchAssignedData group.id).isEmpty then some (.error .noContent)
      else (resolve env.shortestPath deviceMeta
        ((s.fetchAssignedData group.id).map Package.info) policy).toOption.bind fun
          | none => some (.error .noContent)
          | some index => (s.fetchAssignedData group.id)[index]?.map .ok := by
  unfold findPackage
  rw [hactive]
  simp only [Option.bind_eq_bind, Option.bind_some, Database.fetchGroup_eq_some.mpr ⟨hgroup, rfl⟩,
    hpolicy]
  split
  · rfl
  · congr 1
    funext chosen
    cases chosen with
    | none => rfl
    | some index =>
      dsimp only
      rw [Option.map_eq_bind]
      rfl

/-- Without a target nothing is read but the version of the device. -/
theorem resolve_of_no_target {packages : List PackageInfo} {policy : BasePolicy} {x : MetaValue}
    (hx : deviceMeta.lookup metaSoftVer = some x) (ht : policy.evaluate deviceMeta = none) :
    resolve shortestPath deviceMeta packages policy = .ok none := by
  unfold resolve
  rw [getItem_ok_iff.mpr hx]
  simp only [bind, Except.bind, ht]
  rfl

theorem completed_getD {answer : Option (UpdateStore × CheckResponse)} {message : String}
    {status : Nat} :
    (answer.getD (s, .error message status)).2.Completed ↔
      ∃ s' response, answer = some (s', response) ∧ response.Completed := by
  cases answer with
  | none => exact iff_of_false id nofun
  | some answer =>
    obtain ⟨s', response⟩ := answer
    constructor
    · exact fun hcompleted => ⟨s', response, rfl, hcompleted⟩
    · rintro ⟨_, _, ⟨⟩, hcompleted⟩
      exact hcompleted

/-- The package or the response that was found for a device is answered with 200 or 204. -/
def Answered (env : CheckEnv) (s : UpdateStore) (device : Device)
    (found : Option (Except CheckResponse Package)) : Prop :=
  ∃ s' response, (found.bind fun
    | .error response => some (s, response)
    | .ok package => offerPackage env s device package) = some (s', response) ∧ response.Completed

variable (h : s.Servable) (hsp : ShortestPath shortestPath)
  (hpresign : ∀ key expiry, (conf.s3.generatePresignedUrl key expiry).isSome)
include h hsp hpresign

/-- The resolver's packages are answered exactly if the resolver returns. -/
theorem answered_resolve_iff {group : Int} {policy : BasePolicy} :
    Answered (conf.checkEnv shortestPath first) s device
      ((resolve shortestPath deviceMeta ((s.fetchAssignedData group).map Package.info)
        policy).toOption.bind fun
          | none => some (.error .noContent)
          | some index => (s.fetchAssignedData group)[index]?.map .ok) ↔
      ∃ r, resolve shortestPath deviceMeta ((s.fetchAssignedData group).map Package.info) policy =
        .ok r := by
  cases hresolve : resolve shortestPath deviceMeta
      ((s.fetchAssignedData group).map Package.info) policy with
  | error e =>
    refine iff_of_false ?_ nofun
    rintro ⟨s', response, hnone, -⟩
    cases hnone
  | ok chosen =>
    refine iff_of_true ?_ ⟨chosen, rfl⟩
    cases chosen with
    | none => exact ⟨s, .noContent, rfl, trivial⟩
    | some index =>
      obtain ⟨u, t, G, v, q, -, -, -, hG, hgeo, hhop⟩ := resolve_ok_some hsp hresolve
      have hadj : G.Adj u v := hG.adj_iff.2 (List.isChain_cons_cons.1 hgeo.walk.chain).1
      obtain ⟨i, info, hi, hinfo, hversion⟩ := hG.hopPackage_ok hadj
      cases hhop.symm.trans hi
      rw [List.getElem?_map, Option.map_eq_some_iff] at hinfo
      obtain ⟨package, hpackage, rfl⟩ := hinfo
      have hlinked := h.links package (mem_fetchAssignedData (List.mem_of_getElem? hpackage))
      unfold Answered
      simp only [Except.toOption, Option.bind_some, hpackage, Option.map_some]
      exact hlinked.offered hpresign hversion

/-- A check for a registered device completes exactly if the resolver has the keys that it reads. -/
theorem UpdateStore.Servable.answered_iff (hrequired : containsRequired deviceMeta = true) :
    Answered (conf.checkEnv shortestPath first) s device
      (findPackage (conf.checkEnv shortestPath first) s deviceMeta device) ↔
      s.Checkable device deviceMeta := by
  simp only [containsRequired, List.all_cons, List.all_nil, Bool.and_true, Bool.and_eq_true,
    Option.isSome_iff_exists] at hrequired
  obtain ⟨⟨x, hx⟩, ⟨ty, hty⟩, -⟩ := hrequired
  by_cases hnil : s.db.fetchGroups device.id = []
  · have hnone : s.db.fetchActiveGroup (s.db.fetchGroups device.id) = some none := by
      rw [hnil]
      rfl
    refine iff_of_true ⟨s, .noContent, ?_, trivial⟩ fun group hgroup policy t hactive => ?_
    · simp [findPackage, hnone]
    · rw [hnone] at hactive
      cases hactive
  · obtain ⟨group, hgroup, -, hactive, -⟩ := fetchActiveGroup_eq (List.Perm.refl _) hnil
    obtain ⟨policy, hpolicy⟩ := Option.isSome_iff_exists.mp (h.policies group hgroup)
    -- the one group and policy that the condition speaks of
    have hcheckable : s.Checkable device deviceMeta ↔ ∀ t, policy.evaluate deviceMeta = some t →
        s.fetchAssignedData group.id ≠ [] →
          Resolvable deviceMeta ((s.fetchAssignedData group.id).map Package.info) t := by
      constructor
      · exact fun hall t => hall group hgroup policy t hactive hpolicy
      · intro hall group' hgroup' policy' t hactive' hpolicy'
        cases Database.eq_of_group_id hgroup hgroup'
          (Option.some.inj (Option.some.inj (hactive.symm.trans hactive')))
        cases hpolicy.symm.trans hpolicy'
        exact hall t
    rw [hcheckable, findPackage_of_active hgroup hactive hpolicy]
    split
    · next hempty =>
      refine iff_of_true ⟨s, .noContent, rfl, trivial⟩ fun t _ hne => ?_
      exact absurd (List.isEmpty_iff.mp hempty) hne
    · next hempty =>
      rw [List.isEmpty_iff] at hempty
      refine (answered_resolve_iff h hsp hpresign).trans ?_
      cases ht : policy.evaluate deviceMeta with
      | none => exact iff_of_true ⟨none, resolve_of_no_target hx ht⟩ nofun
      | some t =>
        rw [resolve_ok_iff hsp hty ht]
        constructor
        · rintro hresolvable _ ⟨⟩ -
          exact hresolvable
        · exact fun hall => hall t rfl hempty

end Checks

/-- After every run of uploads, policy changes and assignments, the check of a registered device
with metadata that the schema accepts completes exactly if the active group's packages and the
device have the keys that the resolver reads on the way to the target. -/
theorem checks_complete_iff
    (shortestPath : PackageGraph → String → String → Option (List String))
    (hsp : ShortestPath shortestPath) (conf : ServerConfig)
    (hpresign : ∀ key expiry, (conf.s3.generatePresignedUrl key expiry).isSome) (first : Nat)
    (tree : FileTree) (events : List PackageEvent) (token : DeviceToken) (deviceMeta : Metadata)
    (hrequired : containsRequired deviceMeta = true) (mac : String)
    (hmac : deviceMeta.lookup metaMacAddress = some (.str mac)) (device : Device)
    (hdevice : ((events.foldl PackageServer.step (.start tree)).store.getDeviceData first mac).2 =
      some device) :
    (checkForUpdate (conf.checkEnv shortestPath first)
      (events.foldl PackageServer.step (.start tree)).store token
      (.metadata deviceMeta)).2.Completed ↔
      (events.foldl PackageServer.step (.start tree)).store.Checkable device deviceMeta := by
  have h := PackageServer.servable_run tree events
  generalize (events.foldl PackageServer.step (.start tree)).store = s at h hdevice ⊢
  rw [← h.answered_iff hsp hpresign hrequired]
  unfold checkForUpdate
  dsimp only
  rw [if_pos hrequired, completed_getD]
  unfold checkMetadata
  have hrow : (s.getDeviceData (conf.checkEnv shortestPath first).first mac).2 = some device :=
    hdevice
  rw [hmac]
  dsimp only [Option.bind_eq_bind, Option.bind_some]
  rw [hrow]
  exact Iff.rfl

namespace PackageUploadRun

def s3 : S3Client where
  uploadFile _ _ := .stored
  generatePresignedUrl key _ := some ("https://bucket/" ++ key)

def conf : ServerConfig where
  storageDriver := "s3"
  disableApiAuth := false
  storage := LocalStorageRun.storage
  s3 := s3
  payloadTypes _ := (["rootfs-image"], .complete)
  sha256 _ := "4e415854"

def request (id : Int) (form : List (String × String)) : UploadRequest where
  scopes := [scopeRootfsImage]
  form := .ofItems form
  file := some [1]
  storeName := LocalStorageRun.storeName
  id := id
  created := "Mon, 14 Aug 2023 13:03:27 GMT"

/-- A package for the device, with everything that the route's description requires. -/
def complete : UploadRequest := request 1 [(metaSoftVer, "v2"), (metaDeviceType, "type")]

/-- A package for other devices, without a version. -/
def unversioned : UploadRequest := request 2 [(metaDeviceType, "other")]

/-- The device is in a group with the packages. -/
def assignment (packages : List Int) : PackageEvent :=
  .transaction
    { devices := [⟨1, "m", "m", ∅, none⟩]
      groups := [⟨1, newGroupPolicy, 0⟩]
      deviceGroups := [⟨1, 1⟩]
      deviceTags := []
      packages := packages
      groupPackages := packages.map fun p => ⟨1, p⟩
      logs := []
      permissions := [] }

def start : PackageServer := .start LocalStorageRun.emptyTree

def run (uploads : List UploadRequest) (packages : List Int) : PackageServer :=
  (uploads.map (PackageEvent.upload conf) ++
    [assignment packages, .updatePolicy 1 "exact_match,v2"]).foldl PackageServer.step start

def check (s : PackageServer) : CheckResponse :=
  (checkForUpdate (conf.checkEnv MultiDiGraph.shortestPath 0) s.store UpdateCheckRun.token
    (.metadata (UpdateCheckRun.body "m"))).2

end PackageUploadRun

open PackageUploadRun

theorem checks_complete_uploaded :
    (run [complete] [1]).store.Checkable ⟨1, "m", "m", ∅, none⟩ (UpdateCheckRun.body "m") := by
  have hanswer : check (run [complete] [1]) = .update 1 "Mon, 14 Aug 2023 13:03:27 GMT" "4e415854"
      "https://bucket/12a83ff3-2de2-4a95-8f3f-c7a884e426e5" := by decide
  have hcompleted : (check (run [complete] [1])).Completed := by
    rw [hanswer]
    trivial
  exact (checks_complete_iff MultiDiGraph.shortestPath shortestPath_search conf (fun _ _ => rfl) 0
    LocalStorageRun.emptyTree _ UpdateCheckRun.token (UpdateCheckRun.body "m") (by decide) "m"
    (by decide) _ rfl).mp hcompleted

/-- Both uploads are accepted; with the second package in the group, the device is no longer offered
the first. -/
theorem unversioned_package_stops_checks :
    (start.uploadPackage conf complete).2.accepted = true ∧
      ((start.uploadPackage conf complete).1.uploadPackage conf unversioned).2.accepted = true ∧
      containsRequired (UpdateCheckRun.body "m") = true ∧
      check (run [complete] [1]) = .update 1 "Mon, 14 Aug 2023 13:03:27 GMT" "4e415854"
        "https://bucket/12a83ff3-2de2-4a95-8f3f-c7a884e426e5" ∧
      check (run [complete, unversioned] [1, 2]) = .error "update check failed" 500 := by
  refine ⟨?_, ?_, ?_, ?_, ?_⟩
  · decide
  · decide
  · decide
  · decide
  · decide

end Rdfm.Server
