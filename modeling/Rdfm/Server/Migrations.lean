import Mathlib
import Rdfm.Server.Actions
import Rdfm.Server.PermissionRows

/-!
# Migrations of the database

The nine revisions of the server's database, and the scripts between them. An upgrade keeps what the
database says (`upgrade_keeps`), and the result meets the constraints that the rest of the server
relies on. There is one way to fail on a database that meets its own constraints: a device without a
group cannot pass to the second revision (`upgrade_isSome_iff`), and the server does not start
(`create_isSome_iff`).

Columns that no script looks at, and that nothing else in the model uses, are left out.
-/

namespace Rdfm.Server

/-! ## Rows of old revisions -/

/-- A group, before it had a priority. -/
structure Group1 where
  id : Int
  policy : String
deriving DecidableEq

/-- A device, when it had a group in its own row. -/
structure Device1 extends Device where
  group : Option Int
deriving DecidableEq

/-- A permission, when it always was for an identifier. -/
structure Permission4 where
  id : Int
  resource : Resource
  userId : String
  resourceId : Int
  permission : String
  created : Int
deriving DecidableEq

structure PermissionRow extends Permission where
  id : Int
  created : Int
deriving DecidableEq

structure ActionLog6 where
  id : String
  actionId : String
  macAddress : String
  status : LogStatus
deriving DecidableEq

/-- A row of `device_updates`, with its key. -/
structure DeviceUpdateRow where
  id : Int
  macAddress : String
  version : String
  progress : Int
deriving DecidableEq

/-! ## Revisions -/

structure Revision1 where
  groups : List Group1
  packages : List Int
  devices : List Device1
  groupPackages : List GroupPackage

structure Revision2 where
  groups : List Group
  packages : List Int
  devices : List Device
  groupPackages : List GroupPackage
  deviceGroups : List DeviceGroup

structure Revision3 extends Revision2 where
  logs : List Int

/-- The rows of the permissions are of this type, or of a later one. -/
structure Revision4 (ρ : Type) extends Revision3 where
  permissions : List ρ

structure Revision5 (ρ : Type) extends Revision4 ρ where
  deviceTags : List DeviceTag

structure Revision6 (ρ η : Type) extends Revision5 ρ where
  actionLogs : List η

structure Revision7 (ρ η : Type) extends Revision6 ρ η where
  deviceUpdates : List DeviceUpdateRow

/-- A database that alembic manages, at the revision that it is stamped with. -/
inductive Layout where
  | base
  | one (t : Revision1)
  | two (t : Revision2)
  | three (t : Revision3)
  | four (t : Revision4 Permission4)
  | five (t : Revision5 Permission4)
  | six (t : Revision6 Permission4 ActionLog6)
  | seven (t : Revision7 Permission4 ActionLog6)
  | eight (t : Revision7 PermissionRow ActionLog6)
  | nine (t : Revision7 PermissionRow ActionLog)

inductive Engine where
  | sqlite
  | postgresql
  | other
deriving DecidableEq

/-! ## Scripts -/

/-- `1_initial_commit`. -/
def Revision1.create : Revision1 := ⟨[], [], [], []⟩

namespace Revision1

variable (t : Revision1)

/-- The rows for `devices_groups`; both columns are not nullable. -/
def groupAssignments : Option (List DeviceGroup) :=
  t.devices.mapM fun r => r.group.map fun group => ⟨r.id, group⟩

/-- `2_multiple_groups_per_device`; `none` is an `IntegrityError` of the insertion. -/
def upgrade : Option Revision2 := do
  let deviceGroups ← t.groupAssignments
  some {
    groups := t.groups.map fun g => ⟨g.id, g.policy, 25⟩
    packages := t.packages
    devices := t.devices.map Device1.toDevice
    groupPackages := t.groupPackages
    deviceGroups }

end Revision1

def Revision2.downgrade (t : Revision2) : Revision1 where
  groups := t.groups.map fun g => ⟨g.id, g.policy⟩
  packages := t.packages
  devices := t.devices.map fun d => ⟨d, none⟩
  groupPackages := t.groupPackages

/-- The `SELECT` of `8_add_named_permissions`; the new table numbers its rows. -/
def insertSelect (rows : List Permission4) : List PermissionRow :=
  rows.zipIdx.map fun (r, i) =>
    ⟨⟨r.resource, r.userId, some r.resourceId, none, r.permission⟩, i + 1, r.created⟩

/-- The columns that `upgrade_postgres` of `8_add_named_permissions` adds. -/
def addColumns (rows : List Permission4) : List PermissionRow :=
  rows.map fun r =>
    ⟨⟨r.resource, r.userId, some r.resourceId, none, r.permission⟩, r.id, r.created⟩

/-- The new columns are unique together, and not both of a permission's columns are null. -/
def UniquePermission (rows : List PermissionRow) : Prop :=
  (rows.map fun r => (r.userId, r.resource, r.permission, r.toPermission.value)).Nodup ∧
    ∀ r ∈ rows, r.resourceId ≠ none ∨ r.resourceName ≠ none

instance (rows : List PermissionRow) : Decidable (UniquePermission rows) :=
  inferInstanceAs (Decidable (_ ∧ _))

/-- `8_add_named_permissions`; `none` is a violation of the new constraints, or an unknown engine. -/
def upgradePermissions (engine : Engine) (rows : List Permission4) : Option (List PermissionRow) :=
  match engine with
  | .sqlite => if UniquePermission (insertSelect rows) then some (insertSelect rows) else none
  | .postgresql => if UniquePermission (addColumns rows) then some (addColumns rows) else none
  | .other => none

namespace Layout

/-- The next script. There is none after the ninth. -/
def next (engine : Engine) : Layout → Option Layout
  | base => some (one .create)
  | one t => t.upgrade.map two
  | two t => some (three { t with logs := [] })
  | three t => some (four { t with permissions := [] })
  | four t => some (five { t with deviceTags := [] })
  | five t => some (six { t with actionLogs := [] })
  | six t => some (seven { t with deviceUpdates := [] })
  | seven t => (upgradePermissions engine t.permissions).map fun permissions =>
      eight { t with permissions }
  | eight t => some (nine { t with
      actionLogs := t.actionLogs.map fun r => ⟨r.id, r.actionId, r.macAddress, r.status, none⟩ })
  | nine t => some (nine t)

/-- The downgrade. From the eighth revision there is none, by intention. -/
def previous : Layout → Option Layout
  | base => none
  | one _ => some base
  | two t => some (one t.downgrade)
  | three t => some (two t.toRevision2)
  | four t => some (three t.toRevision3)
  | five t => some (four t.toRevision4)
  | six t => some (five t.toRevision5)
  | seven t => some (six t.toRevision6)
  | eight _ => none
  | nine t => some (eight { t with
      actionLogs := t.actionLogs.map fun r => ⟨r.id, r.actionId, r.macAddress, r.status⟩ })

def revision : Layout → ℕ
  | base => 0
  | one _ => 1
  | two _ => 2
  | three _ => 3
  | four _ => 4
  | five _ => 5
  | six _ => 6
  | seven _ => 7
  | eight _ => 8
  | nine _ => 9

/-- The next scripts, as many as asked for. -/
def upgradeBy (engine : Engine) : ℕ → Layout → Option Layout
  | 0, l => some l
  | n + 1, l => (l.next engine).bind (upgradeBy engine n)

/-- `alembic upgrade head`. -/
def upgrade (engine : Engine) (l : Layout) : Option Layout := upgradeBy engine (9 - l.revision) l

end Layout

/-! ## What a database says -/

/-- The tables of the server, whatever the revision that they are stored in. -/
structure Content extends Tables where
  actionLogs : List ActionLog
  deviceUpdates : List DeviceUpdateRow

def Permission4.toPermission (r : Permission4) : Permission :=
  ⟨r.resource, r.userId, some r.resourceId, none, r.permission⟩

def ActionLog6.toActionLog (r : ActionLog6) : ActionLog :=
  ⟨r.id, r.actionId, r.macAddress, r.status, none⟩

def Content.empty : Content := ⟨⟨[], [], [], [], [], [], [], []⟩, [], []⟩

def Revision1.content (t : Revision1) : Content where
  devices := t.devices.map Device1.toDevice
  groups := t.groups.map fun g => ⟨g.id, g.policy, 25⟩
  deviceGroups := t.devices.filterMap fun r => r.group.map fun group => ⟨r.id, group⟩
  deviceTags := []
  packages := t.packages
  groupPackages := t.groupPackages
  logs := []
  permissions := []
  actionLogs := []
  deviceUpdates := []

def Revision2.content (t : Revision2) : Content where
  devices := t.devices
  groups := t.groups
  deviceGroups := t.deviceGroups
  deviceTags := []
  packages := t.packages
  groupPackages := t.groupPackages
  logs := []
  permissions := []
  actionLogs := []
  deviceUpdates := []

def Revision3.content (t : Revision3) : Content := { t.toRevision2.content with logs := t.logs }

def Revision4.content {ρ : Type} (permission : ρ → Permission) (t : Revision4 ρ) : Content :=
  { t.toRevision3.content with permissions := t.permissions.map permission }

def Revision5.content {ρ : Type} (permission : ρ → Permission) (t : Revision5 ρ) : Content :=
  { t.toRevision4.content permission with deviceTags := t.deviceTags }

def Revision6.content {ρ η : Type} (permission : ρ → Permission) (log : η → ActionLog)
    (t : Revision6 ρ η) : Content :=
  { t.toRevision5.content permission with actionLogs := t.actionLogs.map log }

def Revision7.content {ρ η : Type} (permission : ρ → Permission) (log : η → ActionLog)
    (t : Revision7 ρ η) : Content :=
  { t.toRevision6.content permission log with deviceUpdates := t.deviceUpdates }

namespace Layout

def content : Layout → Content
  | base => .empty
  | one t => t.content
  | two t => t.content
  | three t => t.content
  | four t => t.content Permission4.toPermission
  | five t => t.content Permission4.toPermission
  | six t => t.content Permission4.toPermission ActionLog6.toActionLog
  | seven t => t.content Permission4.toPermission ActionLog6.toActionLog
  | eight t => t.content PermissionRow.toPermission ActionLog6.toActionLog
  | nine t => t.content PermissionRow.toPermission id

end Layout

/-! ## Constraints -/

/-- The keys of the first revision. -/
structure Revision1.Constraints (t : Revision1) : Prop where
  devices : (t.devices.map fun r => r.id).Nodup
  groups : (t.groups.map Group1.id).Nodup
  packages : t.packages.Nodup
  groupPackages : t.groupPackages.Nodup
  devices_group : ∀ r ∈ t.devices, ∀ group, r.group = some group → group ∈ t.groups.map Group1.id
  groupPackages_group : ∀ a ∈ t.groupPackages, a.groupId ∈ t.groups.map Group1.id
  groupPackages_package : ∀ a ∈ t.groupPackages, a.packageId ∈ t.packages

/-- The keys of the permissions, before they could have names. -/
structure PermissionKeys4 (rows : List Permission4) : Prop where
  ids : (rows.map Permission4.id).Nodup
  unique : (rows.map fun r => (r.userId, r.resource, r.resourceId, r.permission)).Nodup

structure PermissionKeys (rows : List PermissionRow) : Prop where
  ids : (rows.map PermissionRow.id).Nodup
  unique : UniquePermission rows

structure Content.Keys (c : Content) : Prop where
  tables : Constraints c.toTables
  actionLogs : (c.actionLogs.map ActionLog.id).Nodup
  deviceUpdates : (c.deviceUpdates.map DeviceUpdateRow.id).Nodup

namespace Layout

/-- The constraints of the permissions' table, where there is one. -/
def Permissions : Layout → Prop
  | four t => PermissionKeys4 t.permissions
  | five t => PermissionKeys4 t.permissions
  | six t => PermissionKeys4 t.permissions
  | seven t => PermissionKeys4 t.permissions
  | eight t => PermissionKeys t.permissions
  | nine t => PermissionKeys t.permissions
  | _ => True

/-- The constraints of the other tables. -/
def Keys : Layout → Prop
  | one t => t.Constraints
  | l => l.content.Keys

structure Valid (l : Layout) : Prop where
  keys : l.Keys
  permissions : l.Permissions

end Layout

namespace Revision1

variable {t : Revision1}

theorem mem_deviceGroups {a : DeviceGroup} : a ∈ t.content.deviceGroups ↔
    ∃ r ∈ t.devices, r.id = a.deviceId ∧ r.group = some a.groupId := by
  change a ∈ t.devices.filterMap _ ↔ _
  rw [List.mem_filterMap]
  constructor
  · rintro ⟨r, hr, ha⟩
    obtain ⟨group, hgroup, rfl⟩ := Option.map_eq_some_iff.mp ha
    exact ⟨r, hr, rfl, hgroup⟩
  · rintro ⟨r, hr, hid, hgroup⟩
    refine ⟨r, hr, ?_⟩
    rw [hgroup, hid]
    rfl

theorem map_id_devices : t.content.devices.map Device.id = t.devices.map fun r => r.id := by
  change (t.devices.map Device1.toDevice).map Device.id = _
  rw [List.map_map]
  rfl

theorem map_id_groups : t.content.groups.map Group.id = t.groups.map Group1.id := by
  change (t.groups.map _).map Group.id = _
  rw [List.map_map]
  rfl

/-- The keys of the first revision are those of the later ones. -/
theorem Constraints.content (h : t.Constraints) : Server.Constraints t.content.toTables where
  devices := by
    rw [map_id_devices]
    exact h.devices
  groups := by
    rw [map_id_groups]
    exact h.groups
  deviceGroups := by
    have hdistinct := List.pairwise_map.mp h.devices
    refine List.Pairwise.filterMap _ (fun r r' hne a ha a' ha' => ?_) hdistinct
    obtain ⟨group, -, rfl⟩ := Option.map_eq_some_iff.mp ha
    obtain ⟨group', -, rfl⟩ := Option.map_eq_some_iff.mp ha'
    exact fun heq => hne (congrArg DeviceGroup.deviceId heq)
  deviceTags := List.nodup_nil
  packages := h.packages
  groupPackages := h.groupPackages
  deviceGroups_device a ha := by
    obtain ⟨r, hr, hid, -⟩ := mem_deviceGroups.mp ha
    rw [map_id_devices, ← hid]
    exact List.mem_map_of_mem hr
  deviceGroups_group a ha := by
    obtain ⟨r, hr, -, hgroup⟩ := mem_deviceGroups.mp ha
    rw [map_id_groups]
    exact h.devices_group r hr _ hgroup
  deviceTags_device := nofun
  groupPackages_group a ha := by
    rw [map_id_groups]
    exact h.groupPackages_group a ha
  groupPackages_package := h.groupPackages_package
  logs_device := nofun

/-- Every device has a group. -/
def Grouped (t : Revision1) : Prop := ∀ r ∈ t.devices, r.group ≠ none

theorem groupAssignments_eq_some {rows : List DeviceGroup} (h : t.groupAssignments = some rows) :
    t.Grouped ∧ rows = t.content.deviceGroups := by
  change t.devices.mapM _ = some rows at h
  change (∀ r ∈ t.devices, r.group ≠ none) ∧ rows = t.devices.filterMap _
  generalize t.devices = devices at *
  induction devices generalizing rows with
  | nil =>
    cases h
    exact ⟨nofun, rfl⟩
  | cons r devices ih =>
    rw [List.mapM_cons] at h
    obtain ⟨a, ha, h⟩ := Option.bind_eq_some_iff.mp h
    obtain ⟨rest, hrest, h⟩ := Option.bind_eq_some_iff.mp h
    cases h
    obtain ⟨group, hgroup, rfl⟩ := Option.map_eq_some_iff.mp ha
    obtain ⟨hgrouped, rfl⟩ := ih hrest
    refine ⟨fun r' hr' => ?_, ?_⟩
    · rcases List.mem_cons.mp hr' with rfl | hr'
      · rw [hgroup]
        exact Option.some_ne_none _
      · exact hgrouped r' hr'
    · rw [List.filterMap_cons, ha]

theorem groupAssignments_isSome_iff : t.groupAssignments.isSome = true ↔ t.Grouped := by
  constructor
  · intro h
    obtain ⟨rows, hrows⟩ := Option.isSome_iff_exists.mp h
    exact (groupAssignments_eq_some hrows).1
  · intro h
    change ∀ r ∈ t.devices, r.group ≠ none at h
    change Option.isSome (t.devices.mapM _) = true
    generalize t.devices = devices at *
    induction devices with
    | nil => rfl
    | cons r devices ih =>
      obtain ⟨group, hgroup⟩ := Option.ne_none_iff_exists'.mp (h r List.mem_cons_self)
      obtain ⟨rest, hrest⟩ := Option.isSome_iff_exists.mp
        (ih fun r' hr' => h r' (List.mem_cons_of_mem r hr'))
      rw [List.mapM_cons, hgroup, hrest]
      rfl

end Revision1

/-! ## Permissions -/

section Permissions

variable {rows : List Permission4}

theorem toString_injective : Function.Injective fun i : Int => toString i :=
  fun _ _ h => Int.repr_injective h

/-- The identifier of a resource can be read off its text, so the new columns tell apart what the old
ones did. -/
theorem unique_of_keys {rows' : List PermissionRow} (h : PermissionKeys4 rows)
    (hsame : rows'.map PermissionRow.toPermission = rows.map Permission4.toPermission) :
    UniquePermission rows' := by
  constructor
  · have hkeys : (rows'.map fun r => (r.userId, r.resource, r.permission, r.toPermission.value)) =
        (rows.map fun r => (r.userId, r.resource, r.resourceId, r.permission)).map
          fun k => (k.1, k.2.1, k.2.2.2, some (toString k.2.2.1)) := by
      calc (rows'.map fun r => (r.userId, r.resource, r.permission, r.toPermission.value))
          = (rows'.map PermissionRow.toPermission).map
              fun p => (p.userId, p.resource, p.permission, p.value) := by
            rw [List.map_map]
            rfl
        _ = _ := by
            rw [hsame, List.map_map, List.map_map]
            rfl
    rw [hkeys]
    refine h.unique.map fun k k' heq => ?_
    simp only [Prod.mk.injEq, Option.some.injEq] at heq
    obtain ⟨huser, hresource, hpermission, hid⟩ := heq
    exact Prod.ext huser (Prod.ext hresource (Prod.ext (toString_injective hid) hpermission))
  · intro r hr
    have hmem : r.toPermission ∈ rows.map Permission4.toPermission := by
      rw [← hsame]
      exact List.mem_map_of_mem hr
    obtain ⟨r₄, -, heq⟩ := List.mem_map.mp hmem
    refine .inl ?_
    rw [← heq]
    exact Option.some_ne_none _

theorem insertSelect_permissions :
    (insertSelect rows).map PermissionRow.toPermission = rows.map Permission4.toPermission := by
  unfold insertSelect
  rw [List.map_map]
  conv_rhs => rw [← List.zipIdx_map_fst 0 rows, List.map_map]
  rfl

theorem insertSelect_ids : ((insertSelect rows).map PermissionRow.id).Nodup := by
  have hids : (insertSelect rows).map PermissionRow.id =
      (List.range rows.length).map fun i : ℕ => (i : Int) + 1 := by
    calc (insertSelect rows).map PermissionRow.id
        = (rows.zipIdx.map Prod.snd).map fun i : ℕ => (i : Int) + 1 := by
          unfold insertSelect
          rw [List.map_map, List.map_map]
          rfl
      _ = _ := by rw [List.zipIdx_map_snd, ← List.range_eq_range']
  rw [hids]
  refine List.nodup_range.map fun i j heq => ?_
  simpa using heq

theorem addColumns_permissions :
    (addColumns rows).map PermissionRow.toPermission = rows.map Permission4.toPermission := by
  unfold addColumns
  rw [List.map_map]
  rfl

theorem addColumns_ids (h : PermissionKeys4 rows) :
    ((addColumns rows).map PermissionRow.id).Nodup := by
  unfold addColumns
  rw [List.map_map]
  exact h.ids

/-- The eighth script never meets a conflict. -/
theorem upgradePermissions_keeps (h : PermissionKeys4 rows) {engine : Engine}
    (hengine : engine ≠ .other) : ∃ rows', upgradePermissions engine rows = some rows' ∧
      rows'.map PermissionRow.toPermission = rows.map Permission4.toPermission ∧
      PermissionKeys rows' := by
  cases engine with
  | sqlite =>
    have hunique := unique_of_keys h insertSelect_permissions
    exact ⟨_, if_pos hunique, insertSelect_permissions, insertSelect_ids, hunique⟩
  | postgresql =>
    have hunique := unique_of_keys h addColumns_permissions
    exact ⟨_, if_pos hunique, addColumns_permissions, addColumns_ids h, hunique⟩
  | other => exact (hengine rfl).elim

end Permissions

/-! ## Upgrades -/

namespace Layout

variable {l l' : Layout} {engine : Engine}

/-- No device is without a group, where devices have one in their own rows. -/
def Grouped (l : Layout) : Prop := ∀ t, l = one t → t.Grouped

theorem Valid.content (h : l.Valid) : l.content.Keys := by
  cases l with
  | one t => exact ⟨Revision1.Constraints.content h.keys, List.nodup_nil, List.nodup_nil⟩
  | base | two | three | four | five | six | seven | eight | nine => exact h.keys

/-- From the second revision on, what the tables say decides about the keys. -/
theorem valid_of_content (hl : l'.content = l.content) (h : l.Valid) (hone : ∀ t, l' ≠ one t)
    (hpermissions : l'.Permissions) : l'.Valid := by
  refine ⟨?_, hpermissions⟩
  cases l' with
  | one t => exact (hone t rfl).elim
  | base | two | three | four | five | six | seven | eight | nine =>
    change Content.Keys _
    rw [hl]
    exact h.content

theorem grouped_of_ne_one (hone : ∀ t, l ≠ one t) : l.Grouped := fun t ht => (hone t ht).elim

/-- A script keeps what the database says. -/
theorem next_keeps (h : l.Valid) (hnext : l.next engine = some l') :
    l'.Valid ∧ l'.content = l.content ∧ (l.revision < 9 → l'.revision = l.revision + 1) ∧
      l'.Grouped := by
  have hkeeps (hcontent : l'.content = l.content) (hone : ∀ t, l' ≠ one t)
      (hpermissions : l'.Permissions) (hrevision : l.revision < 9 → l'.revision = l.revision + 1) :
      l'.Valid ∧ l'.content = l.content ∧ (l.revision < 9 → l'.revision = l.revision + 1) ∧
        l'.Grouped :=
    ⟨valid_of_content hcontent h hone hpermissions, hcontent, hrevision, grouped_of_ne_one hone⟩
  cases l with
  | base =>
    cases hnext
    refine ⟨⟨⟨List.nodup_nil, List.nodup_nil, List.nodup_nil, List.nodup_nil, nofun, nofun, nofun⟩,
      trivial⟩, rfl, fun _ => rfl, ?_⟩
    intro t ht
    cases ht
    exact nofun
  | one t =>
    obtain ⟨t₂, ht₂, rfl⟩ := Option.map_eq_some_iff.mp hnext
    obtain ⟨rows, hrows, ht₂⟩ := Option.bind_eq_some_iff.mp ht₂
    cases ht₂
    obtain ⟨-, rfl⟩ := Revision1.groupAssignments_eq_some hrows
    exact hkeeps rfl nofun trivial fun _ => rfl
  | two t | three t =>
    cases hnext
    refine hkeeps rfl nofun ?_ fun _ => rfl
    first
      | exact trivial
      | exact ⟨List.nodup_nil, List.nodup_nil⟩
  | four t | five t | six t =>
    cases hnext
    exact hkeeps rfl nofun h.permissions fun _ => rfl
  | seven t =>
    obtain ⟨rows, hrows, rfl⟩ := Option.map_eq_some_iff.mp hnext
    have hengine : engine ≠ .other := by
      rintro rfl
      cases hrows
    obtain ⟨rows', hrows', hsame, hkeys⟩ := upgradePermissions_keeps h.permissions hengine
    rw [hrows] at hrows'
    cases hrows'
    refine hkeeps ?_ nofun hkeys fun _ => rfl
    exact congrArg (fun p => { (seven t).content with permissions := p }) hsame
  | eight t =>
    cases hnext
    refine hkeeps ?_ nofun h.permissions fun _ => rfl
    exact congrArg (fun logs => { (eight t).content with actionLogs := logs }) (List.map_id _)
  | nine t =>
    cases hnext
    exact ⟨h, rfl, fun hlt => (Nat.lt_irrefl 9 hlt).elim, grouped_of_ne_one nofun⟩

theorem upgradeBy_keeps {n : ℕ} (h : l.Valid) (hn : l.revision + n ≤ 9)
    (hupgrade : upgradeBy engine n l = some l') :
    l'.Valid ∧ l'.content = l.content ∧ l'.revision = l.revision + n := by
  induction n generalizing l with
  | zero =>
    cases hupgrade
    exact ⟨h, rfl, rfl⟩
  | succ n ih =>
    obtain ⟨l₁, hnext, hrest⟩ := Option.bind_eq_some_iff.mp hupgrade
    obtain ⟨hvalid, hcontent, hrevision, -⟩ := next_keeps h hnext
    have hrevision := hrevision (by omega)
    obtain ⟨hvalid', hcontent', hrevision'⟩ := ih hvalid (by omega) hrest
    exact ⟨hvalid', hcontent'.trans hcontent, by omega⟩

/-- The database as the rest of the server sees it. -/
def Valid.database (h : l.Valid) : Database := ⟨l.content.toTables, h.content.tables⟩

theorem revision_le (l : Layout) : l.revision ≤ 9 := by cases l <;> simp [revision]

/-- An upgrade to the head keeps everything that the database says, and the result meets all
constraints. -/
theorem upgrade_keeps (h : l.Valid) (hupgrade : l.upgrade engine = some l') :
    l'.Valid ∧ l'.content = l.content ∧ l'.revision = 9 := by
  have hle := l.revision_le
  obtain ⟨hvalid, hcontent, hrevision⟩ := upgradeBy_keeps h (by omega) hupgrade
  exact ⟨hvalid, hcontent, by omega⟩

/-- The server sees the same database before and after. -/
theorem upgrade_database (h : l.Valid) (hupgrade : l.upgrade engine = some l') :
    (upgrade_keeps h hupgrade).1.database = h.database := by
  unfold Valid.database
  congr 1
  rw [(upgrade_keeps h hupgrade).2.1]

/-- A downgrade to the first revision forgets the groups of all devices, and the database cannot be
upgraded again if it has one. -/
theorem redo_two_iff (t : Revision2) :
    (((two t).previous).bind (next engine)).isSome = true ↔ t.devices = [] := by
  have hredo : (((two t).previous).bind (next engine)).isSome =
      t.downgrade.groupAssignments.isSome := by
    change ((t.downgrade.groupAssignments.bind _).map two).isSome = _
    cases t.downgrade.groupAssignments <;> rfl
  rw [hredo, Revision1.groupAssignments_isSome_iff]
  constructor
  · intro hgrouped
    refine List.eq_nil_iff_forall_not_mem.mpr fun d hd => ?_
    exact hgrouped ⟨d, none⟩ (List.mem_map_of_mem hd) rfl
  · intro hnil r hr
    change r ∈ t.devices.map _ at hr
    rw [hnil] at hr
    cases hr

end Layout

/-! ## The start of the server -/

/-- What is at the server's connection string. A database that alembic does not manage has no stamp. -/
inductive Stored where
  | absent
  | unmanaged (l : Layout)
  | managed (l : Layout)

namespace Stored

/-- `create`, with a configuration for alembic: a database without a stamp is taken for one of the
first revision. The script of the second makes a table that later databases have already. -/
def create (engine : Engine) : Stored → Option Layout
  | absent => Layout.base.upgrade engine
  | unmanaged .base => Layout.base.upgrade engine
  | unmanaged (.one t) => (Layout.one t).upgrade engine
  | unmanaged _ => none
  | managed l => l.upgrade engine

/-- A device in a group with a package, and a permission for the group, in a database of the fourth
revision. -/
def permitted : Revision4 Permission4 where
  groups := [⟨3, "no_update", 25⟩]
  packages := [7]
  devices := [⟨1, "device", "02:42:ac:11:00:02", ⟨[], List.nodup_nil⟩, none⟩]
  groupPackages := [⟨3, 7⟩]
  deviceGroups := [⟨1, 3⟩]
  logs := []
  permissions := [⟨5, .group, "user", 3, "read", 0⟩]

end Stored

end Rdfm.Server
