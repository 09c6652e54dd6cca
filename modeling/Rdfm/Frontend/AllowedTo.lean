import Rdfm.Server.UserPermissions

/-!
# What the interface offers

`allowedTo` of the web interface says which operations a user is offered. It follows the rules of
the server for roles, for rows of the resource and for rows of its groups. It does not know the rows
for names and tags, so it agrees with the server exactly where no such row is needed
(`allowedTo_agrees_iff`).
-/

namespace Rdfm.Frontend

open Rdfm.Server

/-! ## The interface -/

def adminRoleRw : String := "rdfm_admin_rw"

def adminRoleRo : String := "rdfm_admin_ro"

/-- `Group`, with the fields that are read. -/
structure GroupItem where
  id : Int
  packages : List Int
  devices : List Int
deriving DecidableEq, Repr

section Interface

variable (adminRoles : List String) (permissions : List Permission)

def hasAdminRole (role : String) : Bool := adminRoles.contains role

/-- `hasPermission`. An identifier that is missing equals `null`. -/
def hasPermission (permission : String) (resource : Resource) (resourceId : Option Int) : Bool :=
  permissions.any fun p =>
    p.resource = resource ∧ resourceId = p.resourceId ∧ permission = p.permission

/-- `allowedTo` without a list of groups, as it calls itself. -/
def allowedToItself (permission : String) (resource : Resource) (id : Option Int) : Bool :=
  if hasAdminRole adminRoles adminRoleRw ||
      (hasAdminRole adminRoles adminRoleRo && permission = "read") then true
  else hasPermission permissions permission resource id

def allowedTo (permission : String) (resource : Resource) (id : Option Int)
    (groups : Option (List GroupItem)) : Bool :=
  if hasAdminRole adminRoles adminRoleRw ||
      (hasAdminRole adminRoles adminRoleRo && permission = "read") then true
  else if hasPermission permissions permission resource id then true
  else
    match id, groups with
    | some id, some groups =>
      (groups.filter fun g =>
        resource = .package ∧ id ∈ g.packages ∨ resource = .device ∧ id ∈ g.devices).any fun g =>
          allowedToItself adminRoles permissions permission .group (some g.id)
    | _, _ => false

end Interface

/-! ## What it is given -/

/-- `updatePermissions`: the rows of the user. -/
def fetchedPermissions (s : ApiStore) (userId : String) : List Permission :=
  s.db.permissions.filter fun p => p.userId = userId

/-- Every group, as the server lists it. -/
def fetchedGroups (s : ApiStore) : List GroupItem :=
  s.db.groups.map fun g => {
    id := g.id
    packages := (s.db.groupPackages.filter fun a => a.groupId = g.id).map GroupPackage.packageId
    devices := (s.db.fetchAssigned g.id).map Device.id }

/-- The server admits the request. The role for reading is enough only to read. -/
def admits (s : ApiStore) (user : ApiUser) (permission : String) (resource : Resource)
    (identifier : Int) : Bool :=
  checkAdminRights user.userRoles (permission = readPermission) ||
    s.checkUserPermissions resource user.userId identifier permission = some true

/-! ## The condition -/

section Condition

variable (s : ApiStore) (user : ApiUser) (permission : String) (resource : Resource)
  (identifier : Int)

/-- The user has a row for the name of the device, or for a tag of it. -/
def NamedFor : Prop :=
  resource = .device ∧
    ((∃ device ∈ s.db.devices, device.id = identifier ∧
      HasNamedRow s.db user.userId permission device.name) ∨
    ∃ tag, ⟨identifier, tag⟩ ∈ s.db.deviceTags ∧ HasNamedRow s.db user.userId permission tag)

/-- The user has a row for a group that the resource is in. -/
def GroupFor : Prop :=
  ∃ group, HasRow s.db user.userId permission .group group ∧
    (resource = .package ∧ ⟨group, identifier⟩ ∈ s.db.groupPackages ∨
      resource = .device ∧ ⟨identifier, group⟩ ∈ s.db.deviceGroups)

/-- The user is permitted by a role, by a row for the resource or by one for a group. -/
def WithoutName : Prop :=
  checkAdminRights user.userRoles (permission = readPermission) = true ∨
    HasRow s.db user.userId permission resource identifier ∨
    GroupFor s user permission resource identifier

end Condition

/-! ## Agreement -/

section Agreement

variable {s : ApiStore} {user : ApiUser} {permission : String} {resource : Resource}
  {identifier : Int}

theorem isAdmin_eq (roles : List String) :
    (hasAdminRole roles adminRoleRw || (hasAdminRole roles adminRoleRo && permission = "read")) =
      checkAdminRights roles (permission = readPermission) := by
  unfold hasAdminRole checkAdminRights
  rw [Bool.or_comm, Bool.and_comm]
  rfl

theorem hasPermission_fetched_iff :
    hasPermission (fetchedPermissions s user.userId) permission resource (some identifier) = true ↔
      HasRow s.db user.userId permission resource identifier := by
  unfold hasPermission fetchedPermissions HasRow
  simp only [List.any_eq_true, List.mem_filter, decide_eq_true_eq, and_assoc]
  refine exists_congr fun row => and_congr_right fun _ => and_congr_right fun _ => ?_
  constructor
  · rintro ⟨hresource, hid, hpermission⟩
    exact ⟨hpermission.symm, hresource, hid.symm⟩
  · rintro ⟨hpermission, hresource, hid⟩
    exact ⟨hresource, hid.symm, hpermission.symm⟩

theorem mem_groupDevices_iff {g : Group} :
    identifier ∈ (s.db.fetchAssigned g.id).map Device.id ↔
      ⟨identifier, g.id⟩ ∈ s.db.deviceGroups := by
  constructor
  · intro h
    obtain ⟨device, hdevice, rfl⟩ := List.mem_map.mp h
    unfold Database.fetchAssigned at hdevice
    simp only [List.mem_flatMap, List.mem_filter, decide_eq_true_eq] at hdevice
    obtain ⟨⟨d, g'⟩, ⟨hmember, rfl⟩, -, rfl⟩ := hdevice
    exact hmember
  · intro h
    obtain ⟨device, hdevice, hid⟩ := Database.exists_fetchAssigned h
    exact List.mem_map.mpr ⟨device, hdevice, hid⟩

theorem mem_groupPackages_iff {g : Group} :
    identifier ∈ (s.db.groupPackages.filter fun a => a.groupId = g.id).map
        GroupPackage.packageId ↔ ⟨g.id, identifier⟩ ∈ s.db.groupPackages := by
  simp only [List.mem_map, List.mem_filter, decide_eq_true_eq]
  constructor
  · rintro ⟨⟨g', p⟩, ⟨hmember, rfl⟩, rfl⟩
    exact hmember
  · intro h
    exact ⟨_, ⟨h, rfl⟩, rfl⟩

/-- Without a role, the groups that `allowedTo` finds are those with a row. -/
theorem any_group_iff
    (hadmin : checkAdminRights user.userRoles (permission = readPermission) = false) :
    ((fetchedGroups s).filter fun g => resource = .package ∧ identifier ∈ g.packages ∨
        resource = .device ∧ identifier ∈ g.devices).any
      (fun g => allowedToItself user.userRoles (fetchedPermissions s user.userId) permission
        .group (some g.id)) = true ↔ GroupFor s user permission resource identifier := by
  have hitself : ∀ group, allowedToItself user.userRoles (fetchedPermissions s user.userId)
      permission .group (some group) = true ↔
        HasRow s.db user.userId permission .group group := by
    intro group
    unfold allowedToItself
    rw [isAdmin_eq, hadmin, if_neg Bool.false_ne_true]
    exact hasPermission_fetched_iff
  unfold fetchedGroups GroupFor
  simp only [List.any_eq_true, List.mem_filter, List.mem_map, decide_eq_true_eq, hitself]
  constructor
  · rintro ⟨_, ⟨⟨g, -, rfl⟩, hmember⟩, hrow⟩
    refine ⟨g.id, hrow, ?_⟩
    rwa [mem_groupPackages_iff, mem_groupDevices_iff] at hmember
  · rintro ⟨group, hrow, hmember⟩
    -- The group exists, by the foreign key of the membership.
    have hgroup : group ∈ s.db.groups.map Group.id := by
      rcases hmember with ⟨-, h⟩ | ⟨-, h⟩
      · exact s.db.constraints.groupPackages_group _ h
      · exact s.db.constraints.deviceGroups_group _ h
    obtain ⟨g, hg, rfl⟩ := List.mem_map.mp hgroup
    refine ⟨_, ⟨⟨g, hg, rfl⟩, ?_⟩, hrow⟩
    rwa [mem_groupPackages_iff, mem_groupDevices_iff]

/-- What the interface offers. -/
theorem allowedTo_iff :
    allowedTo user.userRoles (fetchedPermissions s user.userId) permission resource
        (some identifier) (some (fetchedGroups s)) = true ↔
      WithoutName s user permission resource identifier := by
  unfold allowedTo WithoutName
  rw [isAdmin_eq]
  cases hadmin : checkAdminRights user.userRoles (permission = readPermission) with
  | true => simp
  | false =>
    rw [if_neg Bool.false_ne_true, ← any_group_iff hadmin, ← hasPermission_fetched_iff]
    cases hasPermission (fetchedPermissions s user.userId) permission resource
      (some identifier) with
    | true => simp
    | false => simp

theorem granted_iff (h : s.db.Has resource identifier) :
    Granted s.db user.userId permission resource identifier ↔
      HasRow s.db user.userId permission resource identifier ∨
        GroupFor s user permission resource identifier ∨
        NamedFor s user permission resource identifier := by
  constructor
  · rintro (hrow | ⟨hmember, hrow⟩ | ⟨hmember, hrow⟩ | ⟨hdevice, hrow⟩ | ⟨htag, hrow⟩)
    · exact .inl hrow
    · exact .inr (.inl ⟨_, hrow, .inr ⟨rfl, hmember⟩⟩)
    · exact .inr (.inl ⟨_, hrow, .inl ⟨rfl, hmember⟩⟩)
    · exact .inr (.inr ⟨rfl, .inl ⟨_, hdevice, rfl, hrow⟩⟩)
    · exact .inr (.inr ⟨rfl, .inr ⟨_, htag, hrow⟩⟩)
  · rintro (hrow | ⟨group, hrow, ⟨rfl, hmember⟩ | ⟨rfl, hmember⟩⟩ |
      ⟨rfl, ⟨device, hdevice, rfl, hrow⟩ | ⟨tag, htag, hrow⟩⟩)
    · exact .row hrow
    · exact .packageGroup hmember hrow
    · exact .deviceGroup hmember hrow
    · exact .name hdevice hrow
    · exact .tag htag hrow

/-- What the server admits. -/
theorem admits_iff (h : s.db.Has resource identifier) :
    admits s user permission resource identifier = true ↔
      WithoutName s user permission resource identifier ∨
        NamedFor s user permission resource identifier := by
  obtain ⟨b, hb, hiff⟩ := @checkUserPermissions_iff s user.userId permission resource identifier h
  unfold admits WithoutName
  rw [Bool.or_eq_true, decide_eq_true_eq, hb, Option.some.injEq, hiff, granted_iff h]
  tauto

end Agreement

/-- **The interface and the server agree** on a request for a resource that exists exactly if a row
for a name or a tag is not needed for it. -/
theorem allowedTo_agrees_iff (s : ApiStore) (user : ApiUser) (permission : String)
    (resource : Resource) (identifier : Int) (h : s.db.Has resource identifier) :
    allowedTo user.userRoles (fetchedPermissions s user.userId) permission resource
        (some identifier) (some (fetchedGroups s)) = admits s user permission resource identifier ↔
      (NamedFor s user permission resource identifier →
        WithoutName s user permission resource identifier) := by
  rw [Bool.eq_iff_iff, allowedTo_iff, admits_iff h]
  constructor
  · intro hiff hnamed
    exact hiff.mpr (.inr hnamed)
  · intro hother
    exact ⟨.inl, fun hadmits => hadmits.elim id hother⟩

namespace NamedRow

/-- A device with a tag, and a user with a row for the tag. -/
def store : ApiStore where
  db := {
    devices := [⟨1, "00:00:00:00:00:00", "00:00:00:00:00:00", ∅, none⟩]
    groups := []
    deviceGroups := []
    deviceTags := [⟨1, "linux-device"⟩]
    packages := [4]
    groupPackages := []
    logs := []
    permissions := [⟨.deviceByTag, "u", none, some "linux-device", updatePermission⟩,
      ⟨.device, "v", some 1, none, updatePermission⟩]
    constraints := by decide }
  registrations := []
  packages := [⟨4, "Mon, 14 Aug 2023 13:03:27 GMT", "local", "4e415854", .ofItems []⟩]
  packages_id := rfl
  deviceUpdates := []
  actionLogs := []
  connected := []

end NamedRow

open NamedRow in
/-- They agree on a user with a row for the device. -/
theorem allowedTo_agrees_row :
    allowedTo [] (fetchedPermissions store "v") updatePermission .device (some 1)
        (some (fetchedGroups store)) =
      admits store ⟨"v", []⟩ updatePermission .device 1 :=
  (allowedTo_agrees_iff store ⟨"v", []⟩ updatePermission .device 1
    ⟨_, List.mem_singleton_self _, rfl⟩).mpr fun _ =>
      .inr (.inl ⟨_, List.mem_cons_of_mem _ List.mem_cons_self, rfl, rfl, rfl, rfl⟩)

open NamedRow in
/-- The server admits a user with a row for a tag, and the interface does not offer the change. -/
theorem allowedTo_hides_named :
    store.db.Has .device 1 ∧ admits store ⟨"u", []⟩ updatePermission .device 1 = true ∧
      allowedTo [] (fetchedPermissions store "u") updatePermission .device (some 1)
        (some (fetchedGroups store)) = false :=
  ⟨⟨_, List.mem_singleton_self _, rfl⟩, by decide, by decide⟩

end Rdfm.Frontend
