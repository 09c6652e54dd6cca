import Rdfm.Server.PermissionGate

/-!
# What a user is permitted

`check_user_permissions` decides by five queries whether a user has a permission for a resource.
Here is what it decides (`user_permission_decision`): the user has a row for the resource itself, or
for a group that it is in, or, for a device, a named one for its name or a tag. So the rows of the
user for this permission decide, and more of them never take a permission away.
-/

namespace Rdfm.Server

open Rdfm.Lib

/-! ## Rows -/

/-- The database with other rows of permissions. -/
def Database.withPermissions (db : Database) (rows : List Permission) : Database where
  devices := db.devices
  groups := db.groups
  deviceGroups := db.deviceGroups
  deviceTags := db.deviceTags
  packages := db.packages
  groupPackages := db.groupPackages
  logs := db.logs
  permissions := rows
  constraints := {
    devices := db.constraints.devices
    groups := db.constraints.groups
    deviceGroups := db.constraints.deviceGroups
    deviceTags := db.constraints.deviceTags
    packages := db.constraints.packages
    groupPackages := db.constraints.groupPackages
    deviceGroups_device := db.constraints.deviceGroups_device
    deviceGroups_group := db.constraints.deviceGroups_group
    deviceTags_device := db.constraints.deviceTags_device
    groupPackages_group := db.constraints.groupPackages_group
    groupPackages_package := db.constraints.groupPackages_package
    logs_device := db.constraints.logs_device }

def ApiStore.withPermissions (s : ApiStore) (rows : List Permission) : ApiStore where
  db := s.db.withPermissions rows
  registrations := s.registrations
  packages := s.packages
  packages_id := s.packages_id
  deviceUpdates := s.deviceUpdates
  actionLogs := s.actionLogs
  connected := s.connected

/-- The resource exists. Names are no resources of their own. -/
def Database.Has (db : Database) : Resource → Int → Prop
  | .device, identifier => ∃ d ∈ db.devices, d.id = identifier
  | .group, identifier => ∃ g ∈ db.groups, g.id = identifier
  | .package, identifier => identifier ∈ db.packages
  | .deviceByTag, _ => False

section Granted

variable (db : Database) (userId permission : String)

/-- The user has a row with the permission for the resource. -/
def HasRow (resource : Resource) (identifier : Int) : Prop :=
  ∃ row ∈ db.permissions, row.userId = userId ∧ row.permission = permission ∧
    row.resource = resource ∧ row.resourceId = some identifier

/-- The user has a row with the permission for the name. -/
def HasNamedRow (name : String) : Prop :=
  ∃ row ∈ db.permissions, row.userId = userId ∧ row.permission = permission ∧
    row.resource = .deviceByTag ∧ row.resourceName = some name

/-- The rows from which a user has a permission. -/
inductive Granted : Resource → Int → Prop where
  | row {resource : Resource} {identifier : Int}
      (h : HasRow db userId permission resource identifier) : Granted resource identifier
  | deviceGroup {identifier group : Int} (member : ⟨identifier, group⟩ ∈ db.deviceGroups)
      (h : HasRow db userId permission .group group) : Granted .device identifier
  | packageGroup {identifier group : Int} (member : ⟨group, identifier⟩ ∈ db.groupPackages)
      (h : HasRow db userId permission .group group) : Granted .package identifier
  | name {device : Device} (listed : device ∈ db.devices)
      (h : HasNamedRow db userId permission device.name) : Granted .device device.id
  | tag {identifier : Int} {tag : String} (tagged : ⟨identifier, tag⟩ ∈ db.deviceTags)
      (h : HasNamedRow db userId permission tag) : Granted .device identifier

end Granted

/-! ## The decision -/

section Decision

variable {s : ApiStore} {userId permission : String} {resource : Resource} {identifier : Int}

theorem hasPermission_iff : s.hasPermission resource userId identifier permission = true ↔
    HasRow s.db userId permission resource identifier := by
  unfold ApiStore.hasPermission HasRow
  simp only [List.any_eq_true, decide_eq_true_eq]
  refine exists_congr fun row => and_congr_right fun _ => ?_
  tauto

theorem mem_namedPermissions_iff {name : String} :
    name ∈ s.namedPermissions userId permission ↔ HasNamedRow s.db userId permission name := by
  unfold ApiStore.namedPermissions HasNamedRow
  simp only [List.mem_filterMap, List.mem_filter, decide_eq_true_eq]
  refine exists_congr fun row => ?_
  tauto

theorem mem_fetchTags_iff {tag : String} :
    tag ∈ s.fetchTags identifier ↔ ⟨identifier, tag⟩ ∈ s.db.deviceTags := by
  unfold ApiStore.fetchTags
  simp only [List.mem_map, List.mem_filter, decide_eq_true_eq]
  constructor
  · rintro ⟨⟨d, t⟩, ⟨ha, rfl⟩, rfl⟩
    exact ha
  · intro h
    exact ⟨⟨identifier, tag⟩, ⟨h, rfl⟩, rfl⟩

theorem fetchDevice_of_mem {device : Device} (h : device ∈ s.db.devices) :
    (s.fetchDevice device.id).2 = some device :=
  (find?_key_eq_some s.db.constraints.devices).mpr ⟨h, rfl⟩

theorem eq_of_device_id {d d' : Device} (hd : d ∈ s.db.devices) (hd' : d' ∈ s.db.devices)
    (hid : d.id = d'.id) : d = d' :=
  List.inj_on_of_nodup_map s.db.constraints.devices hd hd' hid

theorem checkUserPermissions_device {device : Device} (h : device ∈ s.db.devices) :
    ∃ b, s.checkUserPermissions .device userId device.id permission = some b ∧
      (b = true ↔ Granted s.db userId permission .device device.id) := by
  unfold ApiStore.checkUserPermissions
  dsimp only
  rw [fetchDevice_of_mem h]
  refine ⟨_, rfl, ?_⟩
  simp only [Bool.or_eq_true, List.any_eq_true, hasPermission_iff, Database.mem_fetchGroups,
    decide_eq_true_eq, List.mem_append, List.mem_singleton, mem_fetchTags_iff,
    mem_namedPermissions_iff]
  constructor
  · rintro ((hrow | ⟨group, hmember, hrow⟩) | ⟨name, htag | rfl, hrow⟩)
    · exact .row hrow
    · exact .deviceGroup hmember hrow
    · exact .tag htag hrow
    · exact .name h hrow
  · generalize hid : device.id = identifier
    generalize hresource : Resource.device = resource
    rintro (hrow | ⟨hmember, hrow⟩ | ⟨hmember, hrow⟩ | ⟨hdevice, hrow⟩ | ⟨htag, hrow⟩)
    · subst hresource
      exact .inl (.inl hrow)
    · exact .inl (.inr ⟨_, hmember, hrow⟩)
    · cases hresource
    · rw [eq_of_device_id h hdevice hid]
      exact .inr ⟨_, .inr rfl, hrow⟩
    · exact .inr ⟨_, .inl htag, hrow⟩

theorem checkUserPermissions_package :
    ∃ b, s.checkUserPermissions .package userId identifier permission = some b ∧
      (b = true ↔ Granted s.db userId permission .package identifier) := by
  unfold ApiStore.checkUserPermissions
  dsimp only
  refine ⟨_, rfl, ?_⟩
  simp only [Bool.or_eq_true, List.any_eq_true, hasPermission_iff, List.mem_map, List.mem_filter,
    decide_eq_true_eq]
  constructor
  · rintro (hrow | ⟨group, ⟨⟨g, p⟩, ⟨hmember, rfl⟩, rfl⟩, hrow⟩)
    · exact .row hrow
    · exact .packageGroup hmember hrow
  · generalize hresource : Resource.package = resource
    rintro (hrow | ⟨hmember, hrow⟩ | ⟨hmember, hrow⟩ | ⟨hdevice, hrow⟩ | ⟨htag, hrow⟩)
    · subst hresource
      exact .inl hrow
    · cases hresource
    · exact .inr ⟨_, ⟨_, ⟨hmember, rfl⟩, rfl⟩, hrow⟩
    · cases hresource
    · cases hresource

theorem checkUserPermissions_group :
    ∃ b, s.checkUserPermissions .group userId identifier permission = some b ∧
      (b = true ↔ Granted s.db userId permission .group identifier) := by
  unfold ApiStore.checkUserPermissions
  dsimp only
  refine ⟨_, rfl, hasPermission_iff.trans ⟨.row, ?_⟩⟩
  generalize hresource : Resource.group = resource
  rintro (hrow | ⟨hmember, hrow⟩ | ⟨hmember, hrow⟩ | ⟨hdevice, hrow⟩ | ⟨htag, hrow⟩)
  · exact hrow
  all_goals cases hresource

theorem checkUserPermissions_iff (h : s.db.Has resource identifier) :
    ∃ b, s.checkUserPermissions resource userId identifier permission = some b ∧
      (b = true ↔ Granted s.db userId permission resource identifier) := by
  cases resource with
  | device =>
    obtain ⟨device, hdevice, rfl⟩ := h
    exact checkUserPermissions_device hdevice
  | group => exact checkUserPermissions_group
  | package => exact checkUserPermissions_package
  | deviceByTag => exact h.elim

end Decision

/-! ## More rows, and other rows -/

section Rows

variable {db : Database} {userId permission : String} {resource : Resource} {identifier : Int}
  {rows rows' : List Permission}

theorem HasRow.mono
    (h : ∀ row ∈ rows, row.userId = userId → row.permission = permission → row ∈ rows')
    (hrow : HasRow (db.withPermissions rows) userId permission resource identifier) :
    HasRow (db.withPermissions rows') userId permission resource identifier := by
  obtain ⟨row, hmem, huser, hpermission, hof⟩ := hrow
  exact ⟨row, h row hmem huser hpermission, huser, hpermission, hof⟩

theorem HasNamedRow.mono {name : String}
    (h : ∀ row ∈ rows, row.userId = userId → row.permission = permission → row ∈ rows')
    (hrow : HasNamedRow (db.withPermissions rows) userId permission name) :
    HasNamedRow (db.withPermissions rows') userId permission name := by
  obtain ⟨row, hmem, huser, hpermission, hof⟩ := hrow
  exact ⟨row, h row hmem huser hpermission, huser, hpermission, hof⟩

/-- Only the rows of the user for the permission count, and each of them for it. -/
theorem Granted.mono
    (h : ∀ row ∈ rows, row.userId = userId → row.permission = permission → row ∈ rows')
    (hgranted : Granted (db.withPermissions rows) userId permission resource identifier) :
    Granted (db.withPermissions rows') userId permission resource identifier := by
  cases hgranted with
  | row hrow => exact .row (hrow.mono h)
  | deviceGroup hmember hrow => exact .deviceGroup hmember (hrow.mono h)
  | packageGroup hmember hrow => exact .packageGroup hmember (hrow.mono h)
  | name hdevice hrow => exact .name hdevice (hrow.mono h)
  | tag htag hrow => exact .tag htag (hrow.mono h)

end Rows

/-- **The decision on a permission.** For a resource that exists it is made, and it is the one of
`Granted`; it is kept if the user gets more rows; and it is the same with any other rows of other
users or for other permissions. -/
theorem user_permission_decision (s : ApiStore) (userId permission : String) (resource : Resource)
    (identifier : Int) (h : s.db.Has resource identifier) :
    (∃ b, s.checkUserPermissions resource userId identifier permission = some b ∧
      (b = true ↔ Granted s.db userId permission resource identifier)) ∧
    (∀ rows, (∀ row ∈ s.db.permissions, row.userId = userId → row ∈ rows) →
      s.checkUserPermissions resource userId identifier permission = some true →
      (s.withPermissions rows).checkUserPermissions resource userId identifier permission =
        some true) ∧
    ∀ rows, (∀ row : Permission, row.userId = userId → row.permission = permission →
        (row ∈ rows ↔ row ∈ s.db.permissions)) →
      (s.withPermissions rows).checkUserPermissions resource userId identifier permission =
        s.checkUserPermissions resource userId identifier permission := by
  have hs := @checkUserPermissions_iff s userId permission resource identifier h
  have hrows := fun rows =>
    @checkUserPermissions_iff (s.withPermissions rows) userId permission resource identifier h
  refine ⟨hs, fun rows hmore hgranted => ?_, fun rows hsame => ?_⟩
  · obtain ⟨b, hb, hiff⟩ := hs
    obtain ⟨b', hb', hiff'⟩ := hrows rows
    rw [hb] at hgranted
    have hgranted := hiff.mp (Option.some.inj hgranted)
    rw [hb', hiff'.mpr]
    exact Granted.mono (fun row hrow huser _ => hmore row hrow huser) hgranted
  · obtain ⟨b, hb, hiff⟩ := hs
    obtain ⟨b', hb', hiff'⟩ := hrows rows
    rw [hb, hb', Option.some.injEq, Bool.eq_iff_iff, hiff, hiff']
    constructor
    · exact Granted.mono fun row hrow huser hpermission => (hsame row huser hpermission).mp hrow
    · exact Granted.mono fun row hrow huser hpermission => (hsame row huser hpermission).mpr hrow

open GateRun in
/-- The user may change the device, also with a row for another device; another user may not. -/
theorem user_permission_decision_device :
    store.checkUserPermissions .device "u" 1 updatePermission = some true ∧
      (store.withPermissions [⟨.device, "u", some 2, none, updatePermission⟩,
        ⟨.device, "u", some 1, none, updatePermission⟩]).checkUserPermissions .device "u" 1
          updatePermission = some true ∧
      store.checkUserPermissions .device "v" 1 updatePermission =
        (store.withPermissions []).checkUserPermissions .device "v" 1 updatePermission := by
  have hdevice : store.db.Has .device 1 := ⟨_, List.mem_singleton_self _, rfl⟩
  refine ⟨rfl, ?_, ?_⟩
  · refine (user_permission_decision store "u" updatePermission .device 1 hdevice).2.1 _ ?_ rfl
    intro row hrow _
    exact List.mem_cons_of_mem _ hrow
  · refine ((user_permission_decision store "v" updatePermission .device 1 hdevice).2.2 [] ?_).symm
    intro row huser _
    refine iff_of_false List.not_mem_nil fun hrow => ?_
    cases List.mem_singleton.mp hrow
    revert huser
    decide

end Rdfm.Server
