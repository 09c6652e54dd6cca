import Rdfm.Server.PermissionRows
import Rdfm.Server.UpdateCheck

/-!
# Requests that change a group

The handlers of the four requests with which a group is configured: its priority, its devices, its
packages and its policy. Each of them succeeds under a condition of its own, changes its part of the
group and nothing else (`Changed`), and leaves everything as it was if it fails.
-/

namespace Rdfm.Server

open Rdfm.Lib

/-- A group, as the server lists it, with the fields that are used. -/
structure GroupSchema where
  id : Int
  priority : Int
  policy : String
  devices : List Int
  packages : List Int
deriving DecidableEq, Repr

namespace Database

variable (db : Database)

/-! ## The handlers -/

/-- `model_to_schema`. -/
def modelToSchema (group : Group) : GroupSchema where
  id := group.id
  priority := group.priority
  policy := group.policy
  devices := (db.fetchAssigned group.id).map Device.id
  packages := (db.groupPackages.filter fun a => a.groupId = group.id).map GroupPackage.packageId

/-- `change_priority`: the status of the error, or the database. -/
def changePriority (identifier priority : Int) : Except Nat Database :=
  match db.fetchGroup identifier with
  | none => .error 404
  | some _ =>
    match db.updatePriority identifier priority with
    | .error _ => .error 409
    | .ok db => .ok db

/-- `change_assigned`. -/
def changeAssigned (identifier : Int) (add remove : List Int) : Except Nat Database :=
  match db.fetchGroup identifier with
  | none => .error 404
  | some _ =>
    match db.modifyAssignment identifier add remove with
    | .error _ => .error 409
    | .ok db => .ok db

/-- `assign_package`. -/
def assignPackage (identifier : Int) (packages : List Int) : Except Nat Database :=
  match db.fetchGroup identifier with
  | none => .error 404
  | some _ =>
    match db.modifyPackage identifier packages with
    | (some _, _) => .error 409
    | (none, db) => .ok db

/-- `update_policy`. -/
def updatePolicy (identifier : Int) (policy : String) : Except Nat Database :=
  match db.fetchGroup identifier with
  | none => .error 404
  | some _ =>
    match createPolicy policy with
    | none => .error 400
    | some _ =>
      match commit { db.toTables with
        groups := updateWhere (fun g => g.id = identifier) (fun g => { g with policy })
          db.groups } with
      | none => .error 500
      | some db => .ok db

/-! ## What they change -/

/-- None of the device's other groups has the priority. -/
def Free (identifier priority device : Int) : Prop :=
  ∀ g ∈ db.groups, g.id ≠ identifier → ⟨device, g.id⟩ ∈ db.deviceGroups → g.priority ≠ priority

/-- The group is in the database, with these devices and packages. -/
structure Configured (group : Group) (devices packages : Int → Prop) : Prop where
  row : group ∈ db.groups
  devices : ∀ d, ⟨d, group.id⟩ ∈ db.deviceGroups ↔ devices d
  packages : ∀ p, ⟨group.id, p⟩ ∈ db.groupPackages ↔ packages p

/-- Nothing has changed but what belongs to one group. -/
structure Changed (db' : Database) (identifier : Int) : Prop where
  devices : db'.devices = db.devices
  deviceTags : db'.deviceTags = db.deviceTags
  packages : db'.packages = db.packages
  logs : db'.logs = db.logs
  permissions : db'.permissions = db.permissions
  groups : ∀ g : Group, g.id ≠ identifier → (g ∈ db'.groups ↔ g ∈ db.groups)
  deviceGroups : ∀ a : DeviceGroup, a.groupId ≠ identifier →
    (a ∈ db'.deviceGroups ↔ a ∈ db.deviceGroups)
  groupPackages : ∀ a : GroupPackage, a.groupId ≠ identifier →
    (a ∈ db'.groupPackages ↔ a ∈ db.groupPackages)

section Changed

variable {db} {db' db'' : Database} {identifier : Int} {group : Group} {devices packages : Int → Prop}

theorem Changed.refl (db : Database) (identifier : Int) : db.Changed db identifier :=
  ⟨rfl, rfl, rfl, rfl, rfl, fun _ _ => Iff.rfl, fun _ _ => Iff.rfl, fun _ _ => Iff.rfl⟩

theorem Changed.trans (h : db.Changed db' identifier) (h' : db'.Changed db'' identifier) :
    db.Changed db'' identifier where
  devices := h'.devices.trans h.devices
  deviceTags := h'.deviceTags.trans h.deviceTags
  packages := h'.packages.trans h.packages
  logs := h'.logs.trans h.logs
  permissions := h'.permissions.trans h.permissions
  groups g hg := (h'.groups g hg).trans (h.groups g hg)
  deviceGroups a ha := (h'.deviceGroups a ha).trans (h.deviceGroups a ha)
  groupPackages a ha := (h'.groupPackages a ha).trans (h.groupPackages a ha)

theorem Changed.free_iff (h : db.Changed db' identifier) {priority device : Int} :
    db'.Free identifier priority device ↔ db.Free identifier priority device := by
  unfold Free
  refine forall_congr' fun g => ?_
  constructor
  · intro hfree hg hid ha
    exact hfree ((h.groups g hid).mpr hg) hid ((h.deviceGroups ⟨device, g.id⟩ hid).mpr ha)
  · intro hfree hg hid ha
    exact hfree ((h.groups g hid).mp hg) hid ((h.deviceGroups ⟨device, g.id⟩ hid).mp ha)

theorem Changed.registered_iff (h : db.Changed db' identifier) {device : Int} :
    db'.Registered device ↔ db.Registered device := by
  unfold Registered
  rw [h.devices]

theorem configured_modelToSchema (hgroup : group ∈ db.groups) :
    db.Configured group (· ∈ (db.modelToSchema group).devices)
      (· ∈ (db.modelToSchema group).packages) := by
  refine ⟨hgroup, fun d => ?_, fun p => ?_⟩
  · constructor
    · intro h
      obtain ⟨device, hdevice, hid⟩ := exists_fetchAssigned h
      exact List.mem_map.mpr ⟨device, hdevice, hid⟩
    · intro h
      obtain ⟨device, hdevice, rfl⟩ := List.mem_map.mp h
      unfold fetchAssigned at hdevice
      simp only [List.mem_flatMap, List.mem_filter, decide_eq_true_eq] at hdevice
      obtain ⟨⟨d, g⟩, ⟨hmember, rfl⟩, -, rfl⟩ := hdevice
      exact hmember
  · simp only [modelToSchema, List.mem_map, List.mem_filter, decide_eq_true_eq]
    constructor
    · intro h
      exact ⟨_, ⟨h, rfl⟩, rfl⟩
    · rintro ⟨⟨g, p'⟩, ⟨hmember, rfl⟩, rfl⟩
      exact hmember

theorem Configured.congr (h : db.Configured group devices packages) {devices' packages' : Int → Prop}
    (hdevices : ∀ d, devices d ↔ devices' d) (hpackages : ∀ p, packages p ↔ packages' p) :
    db.Configured group devices' packages' :=
  ⟨h.row, fun d => (h.devices d).trans (hdevices d), fun p => (h.packages p).trans (hpackages p)⟩

theorem Configured.fetchGroup (h : db.Configured group devices packages) :
    db.fetchGroup group.id = some group := fetchGroup_eq_some.mpr ⟨h.row, rfl⟩

/-- An update of the row of the group that keeps its identifier. -/
theorem updateGroup (h : db.Configured group devices packages) {f : Group → Group}
    (hf : ∀ g, (f g).id = g.id) :
    ∃ db', commit { db.toTables with
        groups := updateWhere (fun g => g.id = group.id) f db.groups } = some db' ∧
      db'.Configured (f group) devices packages ∧ db.Changed db' group.id := by
  have hids : (updateWhere (fun g : Group => g.id = group.id) f db.groups).map Group.id =
      db.groups.map Group.id := map_updateWhere hf
  have hconstraints : Constraints { db.toTables with
      groups := updateWhere (fun g => g.id = group.id) f db.groups } := by
    have hold := db.constraints
    exact {
      devices := hold.devices
      groups := by rw [hids]; exact hold.groups
      deviceGroups := hold.deviceGroups
      deviceTags := hold.deviceTags
      packages := hold.packages
      groupPackages := hold.groupPackages
      deviceGroups_device := hold.deviceGroups_device
      deviceGroups_group := fun a ha => by rw [hids]; exact hold.deviceGroups_group a ha
      deviceTags_device := hold.deviceTags_device
      groupPackages_group := fun a ha => by rw [hids]; exact hold.groupPackages_group a ha
      groupPackages_package := hold.groupPackages_package
      logs_device := hold.logs_device }
  refine ⟨⟨_, hconstraints⟩, dif_pos hconstraints, ⟨?_, fun d => ?_, fun p => ?_⟩, ?_⟩
  · exact mem_updateWhere.mpr ⟨group, h.row, by rw [if_pos (decide_eq_true rfl)]⟩
  · rw [hf]
    exact h.devices d
  · rw [hf]
    exact h.packages p
  · refine ⟨rfl, rfl, rfl, rfl, rfl, fun g hg => ?_, fun _ _ => Iff.rfl, fun _ _ => Iff.rfl⟩
    dsimp only
    rw [mem_updateWhere]
    constructor
    · rintro ⟨old, hold, rfl⟩
      split at hg
      · next hid => exact (hg (by rw [hf]; exact of_decide_eq_true hid)).elim
      · next hid =>
        rw [if_neg hid]
        exact hold
    · intro hmem
      exact ⟨g, hmem, by rw [if_neg (by simpa using hg)]⟩

end Changed

/-! ## When they succeed -/

section Requests

variable {db} {db' : Database} {group : Group} {devices packages : Int → Prop}

/-- A request fails, or it is accepted and does what it is for. -/
def Answers (db : Database) (identifier : Int) (answer : Except Nat Database) (accepts : Prop)
    (done : Database → Prop) : Prop :=
  ¬ accepts ∧ (∃ code, answer = .error code) ∨
    accepts ∧ ∃ db', answer = .ok db' ∧ done db' ∧ db.Changed db' identifier

theorem changePriority_answers (h : db.Configured group devices packages) (priority : Int) :
    db.Answers group.id (db.changePriority group.id priority)
      (∀ d, devices d → db.Free group.id priority d)
      (·.Configured { group with priority } devices packages) := by
  have hiff : ((db.fetchAssigned group.id).any fun device =>
      (db.fetchGroups device.id).any fun _ =>
        (db.groupsOf device.id).any fun g => g.priority = priority ∧ g.id ≠ group.id) = true ↔
      ¬ ∀ d, devices d → db.Free group.id priority d := by
    simp only [List.any_eq_true, decide_eq_true_eq, mem_groupsOf]
    constructor
    · rintro ⟨device, hdevice, _, -, g, ⟨hg, ha⟩, hpriority, hid⟩ hall
      have hmember := ((configured_modelToSchema h.row).devices device.id).mpr
        (List.mem_map_of_mem hdevice)
      exact hall device.id ((h.devices device.id).mp hmember) g hg hid ha hpriority
    · intro hnot
      unfold Free at hnot
      push Not at hnot
      obtain ⟨d, hd, g, hg, hid, ha, hpriority⟩ := hnot
      obtain ⟨device, hdevice, rfl⟩ := exists_fetchAssigned ((h.devices d).mpr hd)
      exact ⟨device, hdevice, g.id, mem_fetchGroups.mpr ha, g, ⟨hg, ha⟩, hpriority, hid⟩
  unfold Answers changePriority updatePriority
  rw [h.fetchGroup]
  dsimp only
  by_cases haccepts : ∀ d, devices d → db.Free group.id priority d
  · rw [if_neg (hiff.not.mpr (not_not.mpr haccepts))]
    obtain ⟨db', hcommit, hconfigured, hchanged⟩ :=
      updateGroup h (f := fun g => { g with priority }) fun _ => rfl
    unfold tryCommit
    rw [hcommit]
    exact .inr ⟨haccepts, db', rfl, hconfigured, hchanged⟩
  · rw [if_pos (hiff.mpr haccepts)]
    exact .inl ⟨haccepts, 409, rfl⟩

theorem updatePolicy_answers (h : db.Configured group devices packages) (policy : String) :
    db.Answers group.id (db.updatePolicy group.id policy) (createPolicy policy).isSome
      (·.Configured { group with policy } devices packages) := by
  unfold Answers updatePolicy
  rw [h.fetchGroup]
  dsimp only
  cases hpolicy : createPolicy policy with
  | none => exact .inl ⟨by simp, 400, rfl⟩
  | some _ =>
    obtain ⟨db', hcommit, hconfigured, hchanged⟩ :=
      updateGroup h (f := fun g => { g with policy }) fun _ => rfl
    dsimp only
    rw [hcommit]
    exact .inr ⟨rfl, db', rfl, hconfigured, hchanged⟩

/-- An assignment that is made changes the table of the assignments. -/
theorem changeAssignment_tables {identifier : Int} {additions removals : List Int}
    (h : db.changeAssignment identifier additions removals = (none, db')) :
    db'.toTables = { db.toTables with deviceGroups := db'.deviceGroups } := by
  unfold changeAssignment at h
  split at h
  · cases h
  · split at h
    · cases h
    · next db₁ hcommit₁ =>
      split at h
      · cases h
      · next db₂ hcommit₂ =>
        cases h
        rw [commit_eq_some hcommit₂, commit_eq_some hcommit₁]

theorem changeAssigned_answers (h : db.Configured group devices packages) {add remove : List Int}
    (hadd : add.Nodup) (hnew : ∀ d ∈ add, ¬ devices d) :
    db.Answers group.id (db.changeAssigned group.id add remove)
      (∀ d ∈ add, db.Registered d ∧ db.Free group.id group.priority d)
      (·.Configured group (fun d => (devices d ∨ d ∈ add) ∧ d ∉ remove) packages) := by
  have hrefused : db.RefusedAddition group add ↔
      ¬ ∀ d ∈ add, db.Registered d ∧ db.Free group.id group.priority d := by
    have hpriority (d : Int) (hd : d ∈ add) :
        db.InPriority group.priority d ↔ ¬ db.Free group.id group.priority d := by
      unfold InPriority Free
      push Not
      refine exists_congr fun g => and_congr_right fun hg => ?_
      constructor
      · rintro ⟨ha, hp⟩
        refine ⟨?_, ha, hp⟩
        intro hid
        rw [hid] at ha
        exact hnew d hd ((h.devices d).mp ha)
      · rintro ⟨-, ha, hp⟩
        exact ⟨ha, hp⟩
    unfold RefusedAddition
    push Not
    refine exists_congr fun d => and_congr_right fun hd => ?_
    rw [hpriority d hd, imp_iff_not_or]
  unfold Answers changeAssigned
  rw [h.fetchGroup]
  dsimp only
  rw [modifyAssignment_eq]
  have hcases := @changeAssignment_cases db group add remove h.row
  rcases hcases with ⟨hfails, err, hchange⟩ | ⟨⟨-, hfine⟩, db', hchange, htable⟩
  · rw [hchange]
    exact .inl ⟨hrefused.mp (hfails.resolve_left (not_not.mpr hadd)), 409, rfl⟩
  · rw [hchange]
    have ht := changeAssignment_tables hchange
    have hmem (d g : Int) : (⟨d, g⟩ : DeviceGroup) ∈ db'.deviceGroups ↔
        (⟨d, g⟩ ∈ db.deviceGroups ∨ d ∈ add ∧ g = group.id) ∧ ¬ (g = group.id ∧ d ∈ remove) := by
      rw [htable, mem_changed]
    refine .inr ⟨not_not.mp (hrefused.not.mp hfine), db', rfl, ⟨?_, fun d => ?_, fun p => ?_⟩, ?_⟩
    · rw [ht]
      exact h.row
    · rw [hmem, h.devices]
      simp
    · rw [ht]
      exact h.packages p
    · refine ⟨by rw [ht], by rw [ht], by rw [ht], by rw [ht], by rw [ht], fun g _ => by rw [ht],
        fun a ha => ?_, fun a _ => by rw [ht]⟩
      rcases a with ⟨d, g⟩
      rw [hmem]
      simp only [ne_eq] at ha
      simp [ha]

theorem assignPackage_answers (h : db.Configured group devices packages) {assigned : List Int}
    (hnodup : assigned.Nodup) :
    db.Answers group.id (db.assignPackage group.id assigned) (∀ p ∈ assigned, p ∈ db.packages)
      (·.Configured group devices (· ∈ assigned)) := by
  have hold := db.constraints
  have hinj : Function.Injective fun p : Int => (⟨group.id, p⟩ : GroupPackage) :=
    fun p q hpq => congrArg GroupPackage.packageId hpq
  have hiff : Constraints { db.toTables with
      groupPackages := (db.groupPackages.filter fun a => a.groupId ≠ group.id) ++
        assigned.map fun p => ⟨group.id, p⟩ } ↔ ∀ p ∈ assigned, p ∈ db.packages := by
    constructor
    · intro hconstraints p hp
      exact hconstraints.groupPackages_package ⟨group.id, p⟩
        (List.mem_append_right _ (List.mem_map_of_mem hp))
    · intro hall
      exact {
        devices := hold.devices
        groups := hold.groups
        deviceGroups := hold.deviceGroups
        deviceTags := hold.deviceTags
        packages := hold.packages
        groupPackages := by
          refine List.nodup_append.mpr
            ⟨hold.groupPackages.filter _, hnodup.map hinj, fun a ha b hb heq => ?_⟩
          subst heq
          obtain ⟨p, -, rfl⟩ := List.mem_map.mp hb
          simp at ha
        deviceGroups_device := hold.deviceGroups_device
        deviceGroups_group := hold.deviceGroups_group
        deviceTags_device := hold.deviceTags_device
        groupPackages_group := fun a ha => by
          rcases List.mem_append.mp ha with ha | ha
          · exact hold.groupPackages_group a (List.mem_filter.mp ha).1
          · obtain ⟨p, -, rfl⟩ := List.mem_map.mp ha
            exact List.mem_map_of_mem h.row
        groupPackages_package := fun a ha => by
          rcases List.mem_append.mp ha with ha | ha
          · exact hold.groupPackages_package a (List.mem_filter.mp ha).1
          · obtain ⟨p, hp, rfl⟩ := List.mem_map.mp ha
            exact hall p hp
        logs_device := hold.logs_device }
  unfold Answers assignPackage modifyPackage
  rw [h.fetchGroup]
  dsimp only
  by_cases haccepts : ∀ p ∈ assigned, p ∈ db.packages
  · rw [commit, dif_pos (hiff.mpr haccepts)]
    refine .inr ⟨haccepts, _, rfl, ⟨h.row, h.devices, fun p => ?_⟩, ?_⟩
    · simp
    · refine ⟨rfl, rfl, rfl, rfl, rfl, fun _ _ => Iff.rfl, fun _ _ => Iff.rfl, fun a ha => ?_⟩
      rcases a with ⟨g, p⟩
      simp only [ne_eq] at ha
      simp [ha, Ne.symm ha]
  · have hnone : commit { db.toTables with
        groupPackages := (db.groupPackages.filter fun a => a.groupId ≠ group.id) ++
          assigned.map fun p => ⟨group.id, p⟩ } = none := dif_neg (hiff.not.mpr haccepts)
    rw [hnone]
    exact .inl ⟨haccepts, 409, rfl⟩

end Requests

end Database

end Rdfm.Server
