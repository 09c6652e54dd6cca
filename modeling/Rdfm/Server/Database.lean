import Rdfm.Lib.Rows
import Rdfm.Server.Resolver

/-!
# The server's database

The tables behind `DevicesDB` and `GroupsDB`, with the columns that these classes use. Primary keys
and foreign keys are constraints of the database: a transaction is committed only if its tables meet
them, so a `Database` always does (`Database.commit`).
-/

namespace Rdfm.Server

open Rdfm.Lib

/-! ## Rows -/

structure Device where
  id : Int
  name : String
  macAddress : String
  deviceMetadata : Metadata
  publicKey : Option String
deriving DecidableEq

structure Group where
  id : Int
  policy : String
  priority : Int
deriving DecidableEq, Repr

/-- `DeviceGroupAssignment`. -/
structure DeviceGroup where
  deviceId : Int
  groupId : Int
deriving DecidableEq, Repr

structure DeviceTag where
  deviceId : Int
  tag : String
deriving DecidableEq, Repr

/-- `GroupPackageAssignment`. -/
structure GroupPackage where
  groupId : Int
  packageId : Int
deriving DecidableEq, Repr

inductive Resource where
  | device
  | group
  | package
  | deviceByTag
deriving DecidableEq, Repr

structure Permission where
  resource : Resource
  userId : String
  resourceId : Option Int
  resourceName : Option String
  permission : String
deriving DecidableEq, Repr

/-! ## Tables -/

structure Tables where
  devices : List Device
  groups : List Group
  deviceGroups : List DeviceGroup
  deviceTags : List DeviceTag
  /-- The identifiers of the packages. -/
  packages : List Int
  groupPackages : List GroupPackage
  /-- The devices that the rows of the log table belong to. -/
  logs : List Int
  permissions : List Permission

/-- Primary keys are distinct, and what a foreign key names exists. -/
structure Constraints (t : Tables) : Prop where
  devices : (t.devices.map Device.id).Nodup
  groups : (t.groups.map Group.id).Nodup
  deviceGroups : t.deviceGroups.Nodup
  deviceTags : t.deviceTags.Nodup
  packages : t.packages.Nodup
  groupPackages : t.groupPackages.Nodup
  deviceGroups_device : ∀ a ∈ t.deviceGroups, a.deviceId ∈ t.devices.map Device.id
  deviceGroups_group : ∀ a ∈ t.deviceGroups, a.groupId ∈ t.groups.map Group.id
  deviceTags_device : ∀ a ∈ t.deviceTags, a.deviceId ∈ t.devices.map Device.id
  groupPackages_group : ∀ a ∈ t.groupPackages, a.groupId ∈ t.groups.map Group.id
  groupPackages_package : ∀ a ∈ t.groupPackages, a.packageId ∈ t.packages
  logs_device : ∀ d ∈ t.logs, d ∈ t.devices.map Device.id

instance (t : Tables) : Decidable (Constraints t) :=
  decidable_of_iff
    (((t.devices.map Device.id).Nodup ∧ (t.groups.map Group.id).Nodup ∧ t.deviceGroups.Nodup ∧
      t.deviceTags.Nodup ∧ t.packages.Nodup ∧ t.groupPackages.Nodup) ∧
      (∀ a ∈ t.deviceGroups, a.deviceId ∈ t.devices.map Device.id) ∧
      (∀ a ∈ t.deviceGroups, a.groupId ∈ t.groups.map Group.id) ∧
      (∀ a ∈ t.deviceTags, a.deviceId ∈ t.devices.map Device.id) ∧
      (∀ a ∈ t.groupPackages, a.groupId ∈ t.groups.map Group.id) ∧
      (∀ a ∈ t.groupPackages, a.packageId ∈ t.packages) ∧
      ∀ d ∈ t.logs, d ∈ t.devices.map Device.id)
    ⟨fun ⟨⟨h₁, h₂, h₃, h₄, h₅, h₆⟩, h₇, h₈, h₉, h₁₀, h₁₁, h₁₂⟩ =>
      ⟨h₁, h₂, h₃, h₄, h₅, h₆, h₇, h₈, h₉, h₁₀, h₁₁, h₁₂⟩,
    fun h => ⟨⟨h.devices, h.groups, h.deviceGroups, h.deviceTags, h.packages, h.groupPackages⟩,
      h.deviceGroups_device, h.deviceGroups_group, h.deviceTags_device, h.groupPackages_group,
      h.groupPackages_package, h.logs_device⟩⟩

structure Database extends Tables where
  constraints : Constraints toTables

namespace Database

def empty : Database where
  devices := []
  groups := []
  deviceGroups := []
  deviceTags := []
  packages := []
  groupPackages := []
  logs := []
  permissions := []
  constraints := by decide

/-- The end of a transaction; `none` is an `IntegrityError`, and the transaction is rolled back. -/
def commit (t : Tables) : Option Database :=
  if h : Constraints t then some ⟨t, h⟩ else none

theorem commit_eq_some {t : Tables} {db : Database} (h : commit t = some db) : db.toTables = t := by
  unfold commit at h
  split at h
  · cases h
    rfl
  · cases h

variable (db : Database)

/-! ## Queries -/

/-- `GroupsDB.fetch_one`. -/
def fetchGroup (identifier : Int) : Option Group := db.groups.find? fun g => g.id = identifier

/-- `DevicesDB.fetch_groups`, up to the order of the rows. -/
def fetchGroups (identifier : Int) : List Int :=
  (db.deviceGroups.filter fun a => a.deviceId = identifier).map DeviceGroup.groupId

/-- `GroupsDB.fetch_assigned`: the devices of a group. -/
def fetchAssigned (identifier : Int) : List Device :=
  (db.deviceGroups.filter fun a => a.groupId = identifier).flatMap fun a =>
    db.devices.filter fun d => d.id = a.deviceId

/-- The groups that a device is assigned to: the join of the assignments with the groups. -/
def groupsOf (identifier : Int) : List Group :=
  (db.deviceGroups.filter fun a => a.deviceId = identifier).flatMap fun a =>
    db.groups.filter fun g => g.id = a.groupId

variable {db}

theorem mem_fetchGroups {d g : Int} : g ∈ db.fetchGroups d ↔ ⟨d, g⟩ ∈ db.deviceGroups := by
  unfold fetchGroups
  simp only [List.mem_map, List.mem_filter, decide_eq_true_eq]
  constructor
  · rintro ⟨⟨d', g'⟩, ⟨ha, rfl⟩, rfl⟩
    exact ha
  · intro h
    exact ⟨⟨d, g⟩, ⟨h, rfl⟩, rfl⟩

theorem mem_groupsOf {d : Int} {g : Group} :
    g ∈ db.groupsOf d ↔ g ∈ db.groups ∧ ⟨d, g.id⟩ ∈ db.deviceGroups := by
  unfold groupsOf
  simp only [List.mem_flatMap, List.mem_filter, decide_eq_true_eq]
  constructor
  · rintro ⟨⟨d', g'⟩, ⟨ha, rfl⟩, hg, hid⟩
    rw [hid]
    exact ⟨hg, ha⟩
  · rintro ⟨hg, ha⟩
    exact ⟨⟨d, g.id⟩, ⟨ha, rfl⟩, hg, rfl⟩

/-- A device of a group, by the foreign key of the assignments. -/
theorem exists_fetchAssigned {d g : Int} (h : ⟨d, g⟩ ∈ db.deviceGroups) :
    ∃ device ∈ db.fetchAssigned g, device.id = d := by
  rcases List.mem_map.mp (db.constraints.deviceGroups_device _ h) with ⟨device, hdevice, hid⟩
  refine ⟨device, ?_, hid⟩
  unfold fetchAssigned
  simp only [List.mem_flatMap, List.mem_filter, decide_eq_true_eq]
  exact ⟨⟨d, g⟩, ⟨h, rfl⟩, hdevice, hid⟩

theorem eq_of_group_id {g g' : Group} (hg : g ∈ db.groups) (hg' : g' ∈ db.groups)
    (hid : g.id = g'.id) : g = g' :=
  List.inj_on_of_nodup_map db.constraints.groups hg hg' hid

theorem fetchGroup_eq_some {identifier : Int} {g : Group} :
    db.fetchGroup identifier = some g ↔ g ∈ db.groups ∧ g.id = identifier :=
  find?_key_eq_some db.constraints.groups

end Database

end Rdfm.Server
