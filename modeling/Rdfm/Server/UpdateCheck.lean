import Rdfm.Server.DeviceAuth

/-!
# Update checks

`check_for_update`: a device sends its metadata and gets the next package of its active group, and the
update is recorded. The token of the request says which device sends it, and the metadata says so
again; the address in the metadata is the one that is used. A device that names another gets the
other's package, and the update is recorded for the other (`updateCheck_as_another`). The check is
confined to the device of the token exactly for the bodies that name this device, or that the schema
refuses in any case (`updateCheck_confined_iff`).

The shortest-path routine and the links of the storage drivers are parameters.
-/

namespace Rdfm.Server

open Rdfm.Lib

/-! ## State -/

structure Package where
  id : Int
  created : String
  driver : String
  sha256 : String
  info : PackageInfo

structure DeviceUpdate where
  macAddress : String
  version : String
  progress : Int
deriving DecidableEq, Repr

structure UpdateStore extends Store where
  packages : List Package
  packages_id : packages.map Package.id = db.packages
  deviceUpdates : List DeviceUpdate

namespace UpdateStore

variable (s : UpdateStore)

/-- `GroupsDB.fetch_assigned_data`. -/
def fetchAssignedData (group : Int) : List Package :=
  (s.db.groupPackages.filter fun a => a.groupId = group).flatMap fun a =>
    s.packages.filter fun p => p.id = a.packageId

/-- `DeviceUpdatesDB.insert`. -/
def insertUpdate (u : DeviceUpdate) : UpdateStore :=
  { s with deviceUpdates := s.deviceUpdates ++ [u] }

end UpdateStore

/-! ## Policies and links -/

/-- `update.policy.create`; `none` is a `RuntimeError`. -/
def createPolicy (policyStr : String) : Option BasePolicy :=
  let (policy, rest) := policyStr.toList.span (· ≠ ',')
  match rest with
  | [] => none
  | _ :: args =>
    match String.ofList policy with
    | "no_update" => some noUpdate
    | "exact_match" => some (exactMatch (String.ofList args))
    | _ => none

inductive StorageDriver where
  | localStorage
  | s3
deriving DecidableEq, Repr

/-- `storage.driver_by_name`. -/
def driverByName (name : String) : Option StorageDriver :=
  match name with
  | "local" => some .localStorage
  | "s3" => some .s3
  | _ => none

/-- `LINK_EXPIRY_TIME`, in seconds. -/
def linkExpiryTime : Nat := 3600

/-- What an update check rests on. -/
structure CheckEnv where
  shortestPath : PackageGraph → String → String → Option (List String)
  /-- `generate_url`; `none` is an exception. -/
  generateUrl : StorageDriver → PackageInfo → Nat → Option String
  /-- The row of an address that the database returns first. -/
  first : Nat

/-! ## The check -/

/-- The body of a request: it is not JSON, or the schema refuses its type, or it is metadata. -/
inductive CheckBody where
  | unreadable
  | refused (messages : String)
  | metadata (deviceMeta : Metadata)

inductive CheckResponse where
  | update (id : Int) (created sha256 uri : String)
  | noContent
  | error (message : String) (status : Nat)
deriving DecidableEq, Repr

/-- `Contains`, the validator of the metadata. -/
def containsRequired (deviceMeta : Metadata) : Bool :=
  [metaSoftVer, metaDeviceType, metaMacAddress].all fun k => (deviceMeta.lookup k).isSome

section Check

variable (env : CheckEnv) (s : UpdateStore)

/-- The package for a device, or the response if there is none; `none` is an exception. -/
def findPackage (deviceMeta : Metadata) (device : Device) :
    Option (Except CheckResponse Package) := do
  match ← s.db.fetchActiveGroup (s.db.fetchGroups device.id) with
  | none => return .error .noContent
  | some groupId =>
    match s.db.fetchGroup groupId with
    | none => return .error (.error "device-assigned group does not exist" 500)
    | some group =>
      let policy ← createPolicy group.policy
      let packages := s.fetchAssignedData group.id
      if packages.isEmpty then return .error .noContent
      else
        match ← (resolve env.shortestPath deviceMeta (packages.map Package.info) policy).toOption with
        | none => return .error .noContent
        | some index => return .ok (← packages[index]?)

/-- A package is offered: its link, and the row of the update. -/
def offerPackage (device : Device) (package : Package) : Option (UpdateStore × CheckResponse) := do
  match driverByName package.driver with
  | none => return (s, .error "invalid storage driver" 500)
  | some driver =>
    let link ← env.generateUrl driver package.info linkExpiryTime
    match ← package.info.info.lookup metaSoftVer with
    -- A list cannot be stored in the column.
    | .list _ => none
    | .str version =>
      return (s.insertUpdate ⟨device.macAddress, version, 0⟩,
        .update package.id package.created package.sha256 link)

/-- The check of metadata that the schema has accepted. -/
def checkMetadata (deviceMeta : Metadata) : Option (UpdateStore × CheckResponse) := do
  match ← deviceMeta.lookup metaMacAddress with
  -- The query of a list fails.
  | .list _ => none
  | .str hwmac =>
    match (s.getDeviceData env.first hwmac).2 with
    | none => return (s, .error "provided MAC address does not match any device" 500)
    | some device =>
      match ← findPackage env s deviceMeta device with
      | .error response => return (s, response)
      | .ok package => offerPackage env s device package

/-- `check_for_update`. The token has been verified; the function does not read it. -/
def checkForUpdate (_deviceToken : DeviceToken) (body : CheckBody) : UpdateStore × CheckResponse :=
  match body with
  | .unreadable => (s, .error "update check failed" 500)
  | .refused messages => (s, .error ("schema validation failed: " ++ messages) 400)
  | .metadata deviceMeta =>
    if containsRequired deviceMeta then
      (checkMetadata env s deviceMeta).getD (s, .error "update check failed" 500)
    else
      (s, .error ("schema validation failed: \x7b'metadata': ['Sequence must contain: " ++
        "rdfm.software.version, rdfm.hardware.devtype, rdfm.hardware.macaddr.']\x7d") 400)

end Check

/-! ## Confinement -/

/-- A group of a device, with its packages. -/
structure AssignedGroup where
  id : Int
  row : Option Group
  packages : List Package

namespace UpdateStore

variable (s : UpdateStore)

/-- The groups that a device is assigned to, with their policies and packages. -/
def assignedTo (device : Device) : List AssignedGroup :=
  (s.db.fetchGroups device.id).map fun g => ⟨g, s.db.fetchGroup g, s.fetchAssignedData g⟩

theorem map_id_assignedTo (device : Device) :
    (s.assignedTo device).map AssignedGroup.id = s.db.fetchGroups device.id := by
  unfold assignedTo
  rw [List.map_map]
  exact List.map_id _

/-- What is assigned to the device of an address, if there is one. -/
def assigned (first : Nat) (mac : String) : Option (List AssignedGroup) :=
  (s.getDeviceData first mac).2.map s.assignedTo

/-- The updates of the other devices. -/
def updatesOfOthers (mac : String) : List DeviceUpdate :=
  s.deviceUpdates.filter fun u => u.macAddress ≠ mac

end UpdateStore

/-- The two say the same, apart from the address. -/
def SameOtherMetadata (m₁ m₂ : Metadata) : Prop :=
  ∀ k, k ≠ metaMacAddress → m₁.lookup k = m₂.lookup k

/-- An update check is confined to the device of the token: in two states that do not differ in what
is assigned to this device, bodies that do not differ in anything but the address get the same
response as the body that names it, and the updates of other devices are left alone. -/
structure Confined (env : CheckEnv) (token : DeviceToken) (body : CheckBody) : Prop where
  states : ∀ s₁ s₂ : UpdateStore,
    s₁.assigned env.first token.deviceId = s₂.assigned env.first token.deviceId →
    (checkForUpdate env s₁ token body).2 = (checkForUpdate env s₂ token body).2
  bodies : ∀ (s : UpdateStore) deviceMeta honest, body = .metadata deviceMeta →
    SameOtherMetadata deviceMeta honest →
    honest.lookup metaMacAddress = some (.str token.deviceId) →
    (checkForUpdate env s token body).2 = (checkForUpdate env s token (.metadata honest)).2
  updates : ∀ s : UpdateStore, (checkForUpdate env s token body).1.updatesOfOthers token.deviceId =
    s.updatesOfOthers token.deviceId

/-- The body names the device, or the schema refuses it whatever address it names. -/
def NamesOwn (mac : String) : CheckBody → Prop
  | .metadata deviceMeta =>
    deviceMeta.lookup metaMacAddress = some (.str mac) ∨
      deviceMeta.lookup metaSoftVer = none ∨ deviceMeta.lookup metaDeviceType = none
  | _ => True

/-! ### What a check reads -/

section Reads

variable {env : CheckEnv} {s s₁ s₂ : UpdateStore} {m₁ m₂ : Metadata} {d₁ d₂ : Device}

/-- Only the values of the device's metadata count, not their order. -/
theorem resolve_congr {packages : List PackageInfo} {policy : BasePolicy}
    (hlookup : ∀ k, m₁.lookup k = m₂.lookup k) (hpolicy : policy.evaluate m₁ = policy.evaluate m₂) :
    resolve env.shortestPath m₁ packages policy = resolve env.shortestPath m₂ packages policy := by
  have hitem (k : String) : getItem m₁ k = getItem m₂ k := by
    unfold getItem
    rw [hlookup]
  have hclause : checkClause m₁ = checkClause m₂ := by
    funext compatible item
    unfold checkClause
    rw [hlookup]
  have hsatisfied : requirementsSatisfied m₁ = requirementsSatisfied m₂ := by
    funext update
    unfold requirementsSatisfied
    simp only [hitem, hclause]
  have hedges : edgesFrom packages m₁ = edgesFrom packages m₂ := by
    unfold edgesFrom candidateEdge
    simp only [hitem, hsatisfied]
  have hnode : versionNode m₁ = versionNode m₂ := by
    funext package
    unfold versionNode
    simp only [hitem]
  unfold resolve versionGraph packageGraph
  simp only [hitem, hedges, hnode, hpolicy]

theorem createPolicy_evaluate {policyStr : String} {policy : BasePolicy}
    (h : createPolicy policyStr = some policy) : policy.evaluate m₁ = policy.evaluate m₂ := by
  unfold createPolicy at h
  dsimp only at h
  split at h
  · cases h
  · split at h
    · cases h
      rfl
    · cases h
      rfl
    · cases h

/-- The active group is found from the rows of the groups. -/
theorem fetchActiveGroup_congr {db₁ db₂ : Database} {groups : List Int}
    (h : ∀ g ∈ groups, db₁.fetchGroup g = db₂.fetchGroup g) :
    db₁.fetchActiveGroup groups = db₂.fetchActiveGroup groups := by
  have hprios : groups.mapM (fun g => (db₁.fetchGroup g).map Group.priority) =
      groups.mapM (fun g => (db₂.fetchGroup g).map Group.priority) := by
    induction groups with
    | nil => rfl
    | cons g groups ih =>
      rw [List.mapM_cons, List.mapM_cons, h g List.mem_cons_self,
        ih fun g' hg' => h g' (List.mem_cons_of_mem _ hg')]
  unfold Database.fetchActiveGroup
  rw [hprios]

theorem mem_of_fetchActiveGroup {db : Database} {groups : List Int} {active : Int}
    (h : db.fetchActiveGroup groups = some (some active)) : active ∈ groups := by
  unfold Database.fetchActiveGroup at h
  split at h
  · cases h
  · rcases Option.bind_eq_some_iff.mp h with ⟨prios, -, h⟩
    rcases Option.bind_eq_some_iff.mp h with ⟨least, -, h⟩
    rcases Option.bind_eq_some_iff.mp h with ⟨active', hactive, h⟩
    cases h
    exact List.mem_of_getElem? hactive

/-- The package for a device depends on what is assigned to it. -/
theorem findPackage_congr (hassigned : s₁.assignedTo d₁ = s₂.assignedTo d₂)
    (hlookup : ∀ k, m₁.lookup k = m₂.lookup k) :
    findPackage env s₁ m₁ d₁ = findPackage env s₂ m₂ d₂ := by
  have hgroups : s₁.db.fetchGroups d₁.id = s₂.db.fetchGroups d₂.id := by
    rw [← s₁.map_id_assignedTo, ← s₂.map_id_assignedTo, hassigned]
  have hrows : ∀ g ∈ s₂.db.fetchGroups d₂.id, s₁.db.fetchGroup g = s₂.db.fetchGroup g ∧
      s₁.fetchAssignedData g = s₂.fetchAssignedData g := by
    intro g hg
    unfold UpdateStore.assignedTo at hassigned
    rw [hgroups] at hassigned
    have h := List.map_inj_left.mp hassigned g hg
    injection h with _ hrow hpackages
    exact ⟨hrow, hpackages⟩
  unfold findPackage
  rw [hgroups, fetchActiveGroup_congr fun g hg => (hrows g hg).1]
  cases hactive : s₂.db.fetchActiveGroup (s₂.db.fetchGroups d₂.id) with
  | none => rfl
  | some active =>
    cases active with
    | none => rfl
    | some groupId =>
      have hmem := mem_of_fetchActiveGroup hactive
      dsimp only [Option.bind_eq_bind, Option.bind_some]
      rw [(hrows groupId hmem).1]
      cases hgroup : s₂.db.fetchGroup groupId with
      | none => rfl
      | some group =>
        have hid : group.id = groupId := (Database.fetchGroup_eq_some.mp hgroup).2
        dsimp only
        rw [hid, (hrows groupId hmem).2]
        cases hpolicy : createPolicy group.policy with
        | none => rfl
        | some policy =>
          dsimp only [Option.bind_some]
          rw [resolve_congr hlookup (createPolicy_evaluate hpolicy)]

theorem offerPackage_response (package : Package) :
    (offerPackage env s₁ d₁ package).map Prod.snd = (offerPackage env s₂ d₂ package).map Prod.snd := by
  unfold offerPackage
  cases driverByName package.driver with
  | none => rfl
  | some driver =>
    dsimp only
    cases env.generateUrl driver package.info linkExpiryTime with
    | none => rfl
    | some link =>
      dsimp only [Option.bind_eq_bind, Option.bind_some]
      cases package.info.info.lookup metaSoftVer with
      | none => rfl
      | some version => cases version <;> rfl

/-- The only row that is written is one of the device. -/
theorem offerPackage_updates {s' : UpdateStore} {device : Device} {package : Package}
    {response : CheckResponse} (h : offerPackage env s device package = some (s', response)) :
    s'.updatesOfOthers device.macAddress = s.updatesOfOthers device.macAddress := by
  unfold offerPackage at h
  split at h
  · cases h
    rfl
  · rcases Option.bind_eq_some_iff.mp h with ⟨link, -, h⟩
    rcases Option.bind_eq_some_iff.mp h with ⟨version, -, h⟩
    split at h
    · cases h
    · cases h
      simp [UpdateStore.updatesOfOthers, UpdateStore.insertUpdate]

variable {mac : String}

/-- Metadata that names a device is answered by what is assigned to it. -/
theorem checkMetadata_response (hmac : m₁.lookup metaMacAddress = some (.str mac))
    (hlookup : ∀ k, m₁.lookup k = m₂.lookup k)
    (hassigned : s₁.assigned env.first mac = s₂.assigned env.first mac) :
    (checkMetadata env s₁ m₁).map Prod.snd = (checkMetadata env s₂ m₂).map Prod.snd := by
  unfold checkMetadata
  rw [← hlookup metaMacAddress, hmac]
  dsimp only [Option.bind_eq_bind, Option.bind_some]
  unfold UpdateStore.assigned at hassigned
  cases hd₁ : (s₁.getDeviceData env.first mac).2 with
  | none =>
    rw [hd₁, Option.map_none, eq_comm, Option.map_eq_none_iff] at hassigned
    rw [hassigned]
    rfl
  | some d₁ =>
    rw [hd₁, Option.map_some, eq_comm, Option.map_eq_some_iff] at hassigned
    rcases hassigned with ⟨d₂, hd₂, hassigned⟩
    rw [hd₂]
    dsimp only
    rw [findPackage_congr hassigned.symm hlookup]
    cases findPackage env s₂ m₂ d₂ with
    | none => rfl
    | some found =>
      cases found with
      | error response => rfl
      | ok package => exact offerPackage_response package

theorem checkMetadata_updates {s' : UpdateStore} {response : CheckResponse}
    (hmac : m₁.lookup metaMacAddress = some (.str mac))
    (h : checkMetadata env s m₁ = some (s', response)) :
    s'.updatesOfOthers mac = s.updatesOfOthers mac := by
  unfold checkMetadata at h
  rw [hmac] at h
  dsimp only [Option.bind_eq_bind, Option.bind_some] at h
  split at h
  · cases h
    rfl
  · next device hdevice =>
    have hdevice : (s.getDeviceData env.first mac).2 = some device := hdevice
    rcases Option.bind_eq_some_iff.mp h with ⟨found, -, h⟩
    cases found with
    | error r =>
      cases h
      rfl
    | ok package =>
      rw [← (Store.getDeviceData_eq_some hdevice).2]
      exact offerPackage_updates h

end Reads

/-! ### Exactly the bodies that name the device -/

section Exactly

variable {env : CheckEnv} {token : DeviceToken} {deviceMeta honest : Metadata}

theorem snd_getD {α β : Type} (o : Option (α × β)) (a : α) (b : β) :
    (o.getD (a, b)).2 = (o.map Prod.snd).getD b := by
  cases o <;> rfl

theorem containsRequired_eq_false
    (h : deviceMeta.lookup metaSoftVer = none ∨ deviceMeta.lookup metaDeviceType = none) :
    containsRequired deviceMeta = false := by
  unfold containsRequired
  rcases h with h | h <;> simp [h]

theorem confined_of_namesOwn
    (hmac : deviceMeta.lookup metaMacAddress = some (.str token.deviceId)) :
    Confined env token (.metadata deviceMeta) := by
  have hresponse (s₁ s₂ : UpdateStore) (m : Metadata)
      (hlookup : ∀ k, deviceMeta.lookup k = m.lookup k)
      (hassigned : s₁.assigned env.first token.deviceId = s₂.assigned env.first token.deviceId) :
      (checkForUpdate env s₁ token (.metadata deviceMeta)).2 =
        (checkForUpdate env s₂ token (.metadata m)).2 := by
    have hrequired : containsRequired deviceMeta = containsRequired m := by
      unfold containsRequired
      simp only [hlookup]
    unfold checkForUpdate
    dsimp only
    rw [hrequired]
    split
    · rw [snd_getD, snd_getD, checkMetadata_response hmac hlookup hassigned]
    · rfl
  refine ⟨fun s₁ s₂ => hresponse s₁ s₂ deviceMeta fun _ => rfl, ?_, fun s => ?_⟩
  · intro s m honest hm hsame hhonest
    cases hm
    refine hresponse s s honest (fun k => ?_) rfl
    by_cases hk : k = metaMacAddress
    · rw [hk, hmac, hhonest]
    · exact hsame k hk
  · unfold checkForUpdate
    dsimp only
    split
    · cases hcheck : checkMetadata env s deviceMeta with
      | none => rfl
      | some result => exact checkMetadata_updates hmac hcheck
    · rfl

theorem confined_of_lacking
    (h : deviceMeta.lookup metaSoftVer = none ∨ deviceMeta.lookup metaDeviceType = none) :
    Confined env token (.metadata deviceMeta) := by
  have hfalse := containsRequired_eq_false h
  refine ⟨fun s₁ s₂ _ => ?_, ?_, fun s => ?_⟩
  · simp [checkForUpdate, hfalse]
  · intro s m honest hm hsame _
    cases hm
    have hhonest : containsRequired honest = false := by
      refine containsRequired_eq_false ?_
      rwa [← hsame metaSoftVer (by decide), ← hsame metaDeviceType (by decide)]
    simp [checkForUpdate, hfalse, hhonest]
  · simp [checkForUpdate, hfalse]

/-- A device in no group, and no other. -/
def loneDevice (mac : String) : UpdateStore where
  db := {
    devices := [⟨1, mac, mac, ∅, none⟩]
    groups := []
    deviceGroups := []
    deviceTags := []
    packages := []
    groupPackages := []
    logs := []
    permissions := []
    constraints := by
      constructor <;> simp }
  registrations := []
  packages := []
  packages_id := rfl
  deviceUpdates := []

theorem loneDevice_getDeviceData (first : Nat) (mac hwmac : String) :
    ((loneDevice mac).getDeviceData first hwmac).2 =
      if mac = hwmac then some ⟨1, mac, mac, ∅, none⟩ else none := by
  by_cases h : mac = hwmac
  · simp [Store.getDeviceData, loneDevice, h, Nat.mod_one]
  · simp [Store.getDeviceData, loneDevice, h]

theorem checkMetadata_loneDevice {mac hwmac : String}
    (hmac : deviceMeta.lookup metaMacAddress = some (.str hwmac)) :
    checkMetadata env (loneDevice mac) deviceMeta = some (loneDevice mac,
      if mac = hwmac then .noContent
      else .error "provided MAC address does not match any device" 500) := by
  unfold checkMetadata
  rw [hmac]
  dsimp only [Option.bind_eq_bind, Option.bind_some]
  rw [loneDevice_getDeviceData]
  by_cases h : mac = hwmac
  · rw [if_pos h, if_pos h]
    rfl
  · rw [if_neg h, if_neg h]
    rfl

theorem namesOwn_of_confined (h : Confined env token (.metadata deviceMeta)) :
    NamesOwn token.deviceId (.metadata deviceMeta) := by
  by_contra hnot
  unfold NamesOwn at hnot
  simp only [not_or] at hnot
  rcases hnot with ⟨hmac, hver, htype⟩
  have hsame : SameOtherMetadata deviceMeta (deviceMeta.insert metaMacAddress (.str token.deviceId)) :=
    fun k hk => (AList.lookup_insert_ne hk).symm
  have hown : (deviceMeta.insert metaMacAddress (.str token.deviceId)).lookup metaMacAddress =
      some (.str token.deviceId) := AList.lookup_insert _
  have hrequired : containsRequired (deviceMeta.insert metaMacAddress (.str token.deviceId)) =
      true := by
    unfold containsRequired
    simp only [List.all_cons, List.all_nil, hown, ← hsame metaSoftVer (by decide),
      ← hsame metaDeviceType (by decide)]
    simp [Option.isSome_iff_ne_none, hver, htype]
  -- The device is alone and in no group: named by the body, it has no update.
  have hresponse := h.bodies (loneDevice token.deviceId) deviceMeta _ rfl hsame hown
  unfold checkForUpdate at hresponse
  dsimp only at hresponse
  rw [if_pos hrequired, checkMetadata_loneDevice hown, if_pos rfl, Option.getD_some] at hresponse
  split at hresponse
  · cases hlookup : deviceMeta.lookup metaMacAddress with
    | none => simp [checkMetadata, hlookup] at hresponse
    | some value =>
      cases value with
      | list items => simp [checkMetadata, hlookup] at hresponse
      | str hwmac =>
        have hne : token.deviceId ≠ hwmac := by
          rintro rfl
          exact hmac hlookup
        rw [checkMetadata_loneDevice hlookup, if_neg hne] at hresponse
        cases hresponse
  · cases hresponse

end Exactly

/-- An update check is confined to the device of its token exactly if the body names this device, or
is refused whatever it names. -/
theorem updateCheck_confined_iff (env : CheckEnv) (token : DeviceToken) (body : CheckBody) :
    Confined env token body ↔ NamesOwn token.deviceId body := by
  cases body with
  | unreadable => exact ⟨fun _ => trivial, fun _ => ⟨fun _ _ _ => rfl, nofun, fun _ => rfl⟩⟩
  | refused messages => exact ⟨fun _ => trivial, fun _ => ⟨fun _ _ _ => rfl, nofun, fun _ => rfl⟩⟩
  | metadata deviceMeta =>
    constructor
    · exact namesOwn_of_confined
    · rintro (hmac | hlacks)
      · exact confined_of_namesOwn hmac
      · exact confined_of_lacking hlacks

namespace UpdateCheckRun

def env : CheckEnv where
  shortestPath _ source target := some [source, target]
  generateUrl _ _ _ := some "http://127.0.0.1:5000/local_storage/package"
  first := 0

/-- Two devices; the second is in a group that has a package. -/
def store : UpdateStore where
  db := {
    devices := [⟨1, "m", "m", ∅, none⟩, ⟨2, "d", "d", ∅, none⟩]
    groups := [⟨1, "exact_match,v2", 0⟩]
    deviceGroups := [⟨2, 1⟩]
    deviceTags := []
    packages := [1]
    groupPackages := [⟨1, 1⟩]
    logs := []
    permissions := []
    constraints := by decide }
  registrations := []
  packages := [⟨1, "Mon, 14 Aug 2023 13:03:27 GMT", "local", "4e415854",
    .ofItems [(metaSoftVer, "v2"), (metaDeviceType, "type")]⟩]
  packages_id := rfl
  deviceUpdates := []

def body (mac : String) : Metadata :=
  ([⟨metaSoftVer, .str "v1"⟩, ⟨metaDeviceType, .str "type"⟩, ⟨metaMacAddress, .str mac⟩] :
    List ((_ : String) × MetaValue)).toAList

def token : DeviceToken := ⟨"m", 0, deviceJwtExpiry⟩

end UpdateCheckRun

open UpdateCheckRun in
/-- The first device names the second in its body. -/
theorem updateCheck_as_another :
    SameOtherMetadata (body "m") (body "d") ∧
      (checkForUpdate env store token (.metadata (body "m"))).2 = .noContent ∧
      (checkForUpdate env store token (.metadata (body "d"))).2 =
        .update 1 "Mon, 14 Aug 2023 13:03:27 GMT" "4e415854"
          "http://127.0.0.1:5000/local_storage/package" ∧
      store.updatesOfOthers token.deviceId = [] ∧
      (checkForUpdate env store token (.metadata (body "d"))).1.updatesOfOthers token.deviceId =
        [⟨"d", "v2", 0⟩] := by
  refine ⟨fun k hk => ?_, rfl, rfl, rfl, rfl⟩
  unfold body
  rw [AList.lookup_to_alist, AList.lookup_to_alist]
  by_cases hver : k = metaSoftVer
  · subst hver
    simp
  · by_cases htype : k = metaDeviceType
    · subst htype
      simp [hver]
    · simp [hver, htype, hk]

end Rdfm.Server
