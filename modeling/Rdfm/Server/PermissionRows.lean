import Mathlib
import Rdfm.Lib.Transition
import Rdfm.Server.GroupAssignment
import Rdfm.Server.UserPermissions

/-!
# Rows of permissions

A permission names its resource by an identifier, and no foreign key ties it to the resource. The
deletion of a device, a group or a package deletes its permissions in the same transaction, so they
go if it goes and stay if it stays. But the creation of a permission does not look for the resource.
So no row is without its resource, along every run, exactly if permissions are asked for only while
their resource exists (`permissions_refer_iff`).
-/

namespace Rdfm.Server

open Rdfm.Lib

/-! ## Operations -/

/-- The generated column of a permission. -/
def Permission.value (p : Permission) : Option String :=
  match p.resourceId with
  | some identifier => some (toString identifier)
  | none => p.resourceName

/-- The body of a request for a permission. -/
structure PermissionRequest where
  resource : Resource
  userId : String
  resourceId : Option Int
  resourceName : Option String
  permission : String
deriving DecidableEq, Repr

/-- The row that a request asks for, or the error. -/
def PermissionRequest.row (perm : PermissionRequest) : Except (String × Nat) Permission :=
  let noId := perm.resourceId = none ∨ perm.resourceId = some 0
  let noName := perm.resourceName = none ∨ perm.resourceName = some ""
  if noId ∧ noName then
    .error ("At least one of resource_id or resource_name must be provided.", 400)
  else if perm.permission = shellPermission ∧ perm.resource ≠ .device ∧
      perm.resource ≠ .deviceByTag then
    .error ("Shell permission is only applicable to devices", 422)
  else if ¬ noName ∧ perm.resource ≠ .deviceByTag then
    .error ("Named permissions are only applicable to the device_by_tag resource type", 422)
  else
    .ok ⟨perm.resource, perm.userId, perm.resourceId, perm.resourceName, perm.permission⟩

namespace Database

variable (db : Database)

/-- `PermissionsDB.create`: the error, and the database. The columns are unique together. -/
def createPermission (p : Permission) : Option String × Database :=
  if db.permissions.any fun q => q.userId = p.userId ∧ q.resource = p.resource ∧
      q.permission = p.permission ∧ q.value = p.value then
    (some "Conflict while adding a permission", db)
  else (none, db.withPermissions (db.permissions ++ [p]))

/-- The request for a permission. -/
def requestPermission (perm : PermissionRequest) : Option (String × Nat) × Database :=
  match perm.row with
  | .error err => (some err, db)
  | .ok p =>
    match db.createPermission p with
    | (some err, db) => (some (err, 409), db)
    | (none, db) => (none, db)

/-- `add_permissions_for_new_resource`. A conflict is only printed. -/
def addPermissionsForNewResource (resource : Resource) (identifier : Int) (userId : String) :
    Database :=
  [readPermission, deletePermission, updatePermission].foldl
    (fun db permission =>
      (db.createPermission ⟨resource, userId, some identifier, none, permission⟩).2) db

/-- `PermissionsDB.delete`, where the row of the identifier is the `i`-th. -/
def removePermission (i : Nat) : Database := db.withPermissions (db.permissions.eraseIdx i)

/-- `PackagesDB.create`, with the identifier that the database gives the row. -/
def createPackage (identifier : Int) : Option Database :=
  commit { db.toTables with packages := db.packages ++ [identifier] }

/-- `PackagesDB.delete`: whether the package could be deleted. -/
def deletePackage (identifier : Int) : Bool × Database :=
  match commit { db.toTables with
    permissions := db.permissions.filter fun p =>
      ¬ (p.resource = .package ∧ p.resourceId = some identifier)
    packages := db.packages.filter fun p => p ≠ identifier } with
  | some db => (true, db)
  | none => (false, db)

/-- `GroupsDB.modify_package`: the error, and the database. -/
def modifyPackage (group : Int) (packages : List Int) : Option String × Database :=
  match commit { db.toTables with
    groupPackages := (db.groupPackages.filter fun a => a.groupId ≠ group) ++
      packages.map fun p => ⟨group, p⟩ } with
  | some db => (none, db)
  | none => (some "conflict while assigning package, the package may not exist anymore", db)

end Database

inductive PermissionOperation where
  | request (perm : PermissionRequest)
  | newResource (resource : Resource) (identifier : Int) (userId : String)
  | removePermission (i : Nat)
  | insertDevice (device : Device)
  | deleteDevice (identifier : Int)
  | createGroup (group : Group)
  | deleteGroup (identifier : Int)
  | createPackage (identifier : Int)
  | deletePackage (identifier : Int)
  | assignDevices (group : Int) (additions removals : List Int)
  | assignPackages (group : Int) (packages : List Int)

namespace PermissionOperation

/-- One operation. One that fails leaves the database as it was. -/
def run (db : Database) : PermissionOperation → Database
  | request perm => (db.requestPermission perm).2
  | newResource resource identifier userId =>
    db.addPermissionsForNewResource resource identifier userId
  | removePermission i => db.removePermission i
  | insertDevice device => (db.insertDevice device).getD db
  | deleteDevice identifier => (db.deleteDevice identifier).getD db
  | createGroup group => (db.createGroup group).2
  | deleteGroup identifier => (db.deleteGroup identifier).2
  | createPackage identifier => (db.createPackage identifier).getD db
  | deletePackage identifier => (db.deletePackage identifier).2
  | assignDevices group additions removals => (db.changeAssignment group additions removals).2
  | assignPackages group packages => (db.modifyPackage group packages).2

end PermissionOperation

/-! ## References -/

/-- The permission refers to a resource that exists, if it is for one. -/
def Permission.Refers (db : Database) (p : Permission) : Prop :=
  p.resource ≠ .deviceByTag → ∃ identifier, p.resourceId = some identifier ∧
    db.Has p.resource identifier

/-- Every permission does. -/
def Database.AllRefer (db : Database) : Prop := ∀ p ∈ db.permissions, p.Refers db

/-- Permissions are asked for only for a resource that exists. -/
def PermissionOperation.Founded (db : Database) : PermissionOperation → Prop
  | request perm => ∀ p, perm.row = .ok p → p.Refers db
  | newResource resource identifier _ => resource ≠ .deviceByTag → db.Has resource identifier
  | _ => True

/-! ## One operation -/

section Step

variable {db db' : Database}

/-- Permissions that stay refer to what they referred to, if that stays. -/
theorem Database.AllRefer.keep (h : db.AllRefer) (hrows : ∀ p ∈ db'.permissions, p ∈ db.permissions)
    (hkeep : ∀ p ∈ db'.permissions, ∀ identifier, p.resourceId = some identifier →
      db.Has p.resource identifier → db'.Has p.resource identifier) : db'.AllRefer := by
  intro p hp hresource
  obtain ⟨identifier, hid, hhas⟩ := h p (hrows p hp) hresource
  exact ⟨identifier, hid, hkeep p hp identifier hid hhas⟩

/-- The tables of a transaction that keeps the permissions and adds to the rest. -/
theorem Database.AllRefer.grow (h : db.AllRefer) (hpermissions : db'.permissions = db.permissions)
    (hdevices : ∀ d ∈ db.devices, d ∈ db'.devices) (hgroups : ∀ g ∈ db.groups, g ∈ db'.groups)
    (hpackages : ∀ p ∈ db.packages, p ∈ db'.packages) : db'.AllRefer := by
  refine h.keep (fun p hp => hpermissions ▸ hp) fun p _ identifier _ hhas => ?_
  cases hresource : p.resource with
  | device =>
    rw [hresource] at hhas
    obtain ⟨d, hd, hid⟩ := hhas
    exact ⟨d, hdevices d hd, hid⟩
  | group =>
    rw [hresource] at hhas
    obtain ⟨g, hg, hid⟩ := hhas
    exact ⟨g, hgroups g hg, hid⟩
  | package =>
    rw [hresource] at hhas
    exact hpackages identifier hhas
  | deviceByTag =>
    rw [hresource] at hhas
    exact hhas.elim

theorem allRefer_insertDevice (h : db.AllRefer) (device : Device) :
    ((db.insertDevice device).getD db).AllRefer := by
  unfold Database.insertDevice
  cases hcommit : Database.commit { db.toTables with devices := db.devices ++ [device] } with
  | none => exact h
  | some db' =>
    have ht := Database.commit_eq_some hcommit
    refine h.grow ?_ ?_ ?_ ?_ <;> rw [Option.getD_some, ht]
    · exact fun d hd => List.mem_append_left _ hd
    · exact fun g hg => hg
    · exact fun p hp => hp

theorem allRefer_createGroup (h : db.AllRefer) (group : Group) :
    (db.createGroup group).2.AllRefer := by
  unfold Database.createGroup
  split
  · next db' hcommit =>
    have ht := Database.commit_eq_some hcommit
    refine h.grow ?_ ?_ ?_ ?_ <;> rw [ht]
    · exact fun d hd => hd
    · exact fun g hg => List.mem_append_left _ hg
    · exact fun p hp => hp
  · exact h

theorem allRefer_createPackage (h : db.AllRefer) (identifier : Int) :
    ((db.createPackage identifier).getD db).AllRefer := by
  unfold Database.createPackage
  cases hcommit : Database.commit { db.toTables with
    packages := db.packages ++ [identifier] } with
  | none => exact h
  | some db' =>
    have ht := Database.commit_eq_some hcommit
    refine h.grow ?_ ?_ ?_ ?_ <;> rw [Option.getD_some, ht]
    · exact fun d hd => hd
    · exact fun g hg => hg
    · exact fun p hp => List.mem_append_left _ hp

/-- Assignments touch neither resources nor permissions. -/
theorem Database.AllRefer.assigned (h : db.AllRefer) {t : Tables} (ht : db'.toTables = t)
    (hpermissions : t.permissions = db.permissions) (hdevices : t.devices = db.devices)
    (hgroups : t.groups = db.groups) (hpackages : t.packages = db.packages) : db'.AllRefer := by
  subst ht
  refine h.grow hpermissions ?_ ?_ ?_
  · rw [hdevices]
    exact fun d hd => hd
  · rw [hgroups]
    exact fun g hg => hg
  · rw [hpackages]
    exact fun p hp => hp

theorem allRefer_changeAssignment (h : db.AllRefer) (group : Int) (additions removals : List Int) :
    (db.changeAssignment group additions removals).2.AllRefer := by
  unfold Database.changeAssignment
  split
  · exact h
  · split
    · exact h
    · next db₁ hcommit₁ =>
      have h₁ : db₁.AllRefer := h.assigned (Database.commit_eq_some hcommit₁) rfl rfl rfl rfl
      split
      · exact h₁
      · next db₂ hcommit₂ =>
        exact h₁.assigned (Database.commit_eq_some hcommit₂) rfl rfl rfl rfl

theorem allRefer_modifyPackage (h : db.AllRefer) (group : Int) (packages : List Int) :
    (db.modifyPackage group packages).2.AllRefer := by
  unfold Database.modifyPackage
  split
  · next db' hcommit => exact h.assigned (Database.commit_eq_some hcommit) rfl rfl rfl rfl
  · exact h

/-- The deletion of a resource of a kind takes its permissions, and keeps the other resources. -/
theorem Database.AllRefer.shrink (h : db.AllRefer) (kind : Resource) (removed : Int)
    (hpermissions : ∀ p ∈ db'.permissions, p ∈ db.permissions ∧
      ¬ (p.resource = kind ∧ p.resourceId = some removed))
    (hdevices : ∀ d ∈ db.devices, (kind = .device → d.id ≠ removed) → d ∈ db'.devices)
    (hgroups : ∀ g ∈ db.groups, (kind = .group → g.id ≠ removed) → g ∈ db'.groups)
    (hpackages : ∀ p ∈ db.packages, (kind = .package → p ≠ removed) → p ∈ db'.packages) :
    db'.AllRefer := by
  refine h.keep (fun p hp => (hpermissions p hp).1) fun p hp identifier hid hhas => ?_
  have hother : p.resource = kind → identifier ≠ removed := by
    rintro hkind rfl
    exact (hpermissions p hp).2 ⟨hkind, hid⟩
  cases hresource : p.resource with
  | device =>
    rw [hresource] at hhas hother
    obtain ⟨d, hd, rfl⟩ := hhas
    exact ⟨d, hdevices d hd fun hkind => hother hkind.symm, rfl⟩
  | group =>
    rw [hresource] at hhas hother
    obtain ⟨g, hg, rfl⟩ := hhas
    exact ⟨g, hgroups g hg fun hkind => hother hkind.symm, rfl⟩
  | package =>
    rw [hresource] at hhas hother
    exact hpackages identifier hhas fun hkind => hother hkind.symm
  | deviceByTag =>
    rw [hresource] at hhas
    exact hhas.elim

theorem allRefer_deleteDevice (h : db.AllRefer) (removed : Int) :
    ((db.deleteDevice removed).getD db).AllRefer := by
  cases hdelete : db.deleteDevice removed with
  | none => exact h
  | some db' =>
    have ht := Database.commit_eq_some hdelete
    refine h.shrink .device removed ?_ ?_ ?_ ?_ <;> rw [Option.getD_some, ht]
    · intro p hp
      obtain ⟨hp, hkept⟩ := List.mem_filter.mp hp
      exact ⟨hp, fun hremoved => of_decide_eq_true hkept hremoved.symm⟩
    · exact fun d hd hother => List.mem_filter.mpr ⟨hd, decide_eq_true (hother rfl)⟩
    · exact fun g hg _ => hg
    · exact fun p hp _ => hp

theorem allRefer_deleteGroup (h : db.AllRefer) (removed : Int) :
    (db.deleteGroup removed).2.AllRefer := by
  unfold Database.deleteGroup
  split
  · next db' hcommit =>
    have ht := Database.commit_eq_some hcommit
    refine h.shrink .group removed ?_ ?_ ?_ ?_ <;> rw [ht]
    · intro p hp
      obtain ⟨hp, hkept⟩ := List.mem_filter.mp hp
      exact ⟨hp, of_decide_eq_true hkept⟩
    · exact fun d hd _ => hd
    · exact fun g hg hother => List.mem_filter.mpr ⟨hg, decide_eq_true (hother rfl)⟩
    · exact fun p hp _ => hp
  · exact h

theorem allRefer_deletePackage (h : db.AllRefer) (removed : Int) :
    (db.deletePackage removed).2.AllRefer := by
  unfold Database.deletePackage
  split
  · next db' hcommit =>
    have ht := Database.commit_eq_some hcommit
    refine h.shrink .package removed ?_ ?_ ?_ ?_ <;> rw [ht]
    · intro p hp
      obtain ⟨hp, hkept⟩ := List.mem_filter.mp hp
      exact ⟨hp, of_decide_eq_true hkept⟩
    · exact fun d hd _ => hd
    · exact fun g hg _ => hg
    · exact fun p hp hother => List.mem_filter.mpr ⟨hp, decide_eq_true (hother rfl)⟩
  · exact h

/-- A reference does not depend on the permissions. -/
theorem refers_withPermissions {rows : List Permission} {p : Permission} :
    p.Refers (db.withPermissions rows) ↔ p.Refers db := by
  unfold Permission.Refers
  refine forall_congr' fun _ => exists_congr fun identifier => and_congr_right fun _ => ?_
  cases p.resource <;> rfl

theorem allRefer_removePermission (h : db.AllRefer) (i : Nat) : (db.removePermission i).AllRefer :=
  fun p hp => refers_withPermissions.mpr (h p (List.mem_of_mem_eraseIdx hp))

/-- Rows of one kind with the same value refer to the same resource. -/
theorem Permission.Refers.of_value {p q : Permission} (h : q.Refers db)
    (hresource : q.resource = p.resource) (hvalue : q.value = p.value)
    (hid : p.resource ≠ .deviceByTag → p.resourceId ≠ none) : p.Refers db := by
  intro hkind
  obtain ⟨identifier, hq, hhas⟩ := h (hresource ▸ hkind)
  obtain ⟨named, hp⟩ := Option.ne_none_iff_exists'.mp (hid hkind)
  unfold Permission.value at hvalue
  rw [hq, hp] at hvalue
  have hsame : identifier = named := Int.repr_injective (Option.some.inj hvalue)
  exact ⟨named, hp, hresource ▸ hsame ▸ hhas⟩

/-- A row that names a resource is stored, or the same is stored already: either way it has to refer
to one that exists. -/
theorem allRefer_createPermission_iff (h : db.AllRefer) (p : Permission)
    (hid : p.resource ≠ .deviceByTag → p.resourceId ≠ none) :
    (db.createPermission p).2.AllRefer ↔ p.Refers db := by
  unfold Database.createPermission
  split
  · next hany =>
    obtain ⟨q, hq, hsame⟩ := List.any_eq_true.mp hany
    obtain ⟨-, hresource, -, hvalue⟩ := of_decide_eq_true hsame
    exact iff_of_true h ((h q hq).of_value hresource hvalue hid)
  · constructor
    · intro hall
      exact refers_withPermissions.mp (hall p (List.mem_append_right _ (List.mem_singleton_self p)))
    · intro hp q hq
      rw [refers_withPermissions]
      rcases List.mem_append.mp hq with hq | hq
      · exact h q hq
      · rw [List.mem_singleton.mp hq]
        exact hp

/-- A row that a request asks for names a resource, unless it is for tags. -/
theorem resourceId_of_row {perm : PermissionRequest} {p : Permission} (hrow : perm.row = .ok p) :
    p.resource ≠ .deviceByTag → p.resourceId ≠ none := by
  unfold PermissionRequest.row at hrow
  dsimp only at hrow
  split_ifs at hrow with hempty hshell hname
  cases hrow
  intro hkind hnone
  have hnoName := not_and'.mp hname hkind
  exact hempty ⟨.inl hnone, not_not.mp hnoName⟩

theorem allRefer_requestPermission_iff (h : db.AllRefer) (perm : PermissionRequest) :
    (db.requestPermission perm).2.AllRefer ↔ ∀ p, perm.row = .ok p → p.Refers db := by
  unfold Database.requestPermission
  split
  · next err herr =>
    refine iff_of_true h fun p hp => ?_
    rw [herr] at hp
    cases hp
  · next p hrow =>
    have hcreated := allRefer_createPermission_iff h p (resourceId_of_row hrow)
    have hsame : (match db.createPermission p with
        | (some err, db) => (some (err, 409), db)
        | (none, db) => ((none : Option (String × Nat)), db)).2 = (db.createPermission p).2 := by
      rcases db.createPermission p with ⟨_ | err, db'⟩ <;> rfl
    rw [hsame, hcreated]
    constructor
    · intro hp q hq
      cases hrow.symm.trans hq
      exact hp
    · intro hall
      exact hall p hrow

theorem has_createPermission {p : Permission} {resource : Resource} {identifier : Int} :
    (db.createPermission p).2.Has resource identifier ↔ db.Has resource identifier := by
  unfold Database.createPermission
  split
  · exact Iff.rfl
  · cases resource <;> exact Iff.rfl

variable (resource : Resource) (identifier : Int) (userId : String)

/-- The reference of a row for a resource, whatever the permission. -/
theorem refers_new_iff (permission : String) :
    (⟨resource, userId, some identifier, none, permission⟩ : Permission).Refers db ↔
      (resource ≠ .deviceByTag → db.Has resource identifier) :=
  forall_congr' fun _ => ⟨by rintro ⟨_, ⟨⟩, h⟩; exact h, fun h => ⟨identifier, rfl, h⟩⟩

/-- Rows for a resource that exists, one after the other. -/
theorem allRefer_newPermissions (permissions : List String) (h : db.AllRefer)
    (hhas : resource ≠ .deviceByTag → db.Has resource identifier) :
    (permissions.foldl (fun db permission => (db.createPermission
      ⟨resource, userId, some identifier, none, permission⟩).2) db).AllRefer := by
  induction permissions generalizing db with
  | nil => exact h
  | cons permission permissions ih =>
    refine ih ?_ fun hkind => has_createPermission.mpr (hhas hkind)
    rw [allRefer_createPermission_iff h _ fun _ => Option.some_ne_none identifier]
    exact (refers_new_iff resource identifier userId permission).mpr hhas

/-- Rows that are there stay when others are created, and resources too. -/
theorem newPermissions_keep (permissions : List String) :
    (∀ p ∈ db.permissions, p ∈ (permissions.foldl (fun db permission => (db.createPermission
      ⟨resource, userId, some identifier, none, permission⟩).2) db).permissions) ∧
    ∀ kind named, (permissions.foldl (fun db permission => (db.createPermission
      ⟨resource, userId, some identifier, none, permission⟩).2) db).Has kind named →
        db.Has kind named := by
  induction permissions generalizing db with
  | nil => exact ⟨fun _ hp => hp, fun _ _ h => h⟩
  | cons permission permissions ih =>
    obtain ⟨hrows, hhas⟩ := @ih (db.createPermission
      ⟨resource, userId, some identifier, none, permission⟩).2
    refine ⟨fun p hp => hrows p ?_, fun kind named h => has_createPermission.mp (hhas kind named h)⟩
    unfold Database.createPermission
    split
    · exact hp
    · exact List.mem_append_left _ hp

theorem allRefer_addPermissions_iff (h : db.AllRefer) :
    (db.addPermissionsForNewResource resource identifier userId).AllRefer ↔
      (resource ≠ .deviceByTag → db.Has resource identifier) := by
  refine ⟨fun hall => ?_, allRefer_newPermissions resource identifier userId _ h⟩
  -- already after the first of the rows, all refer
  obtain ⟨hrows, hhas⟩ := @newPermissions_keep
    (db.createPermission ⟨resource, userId, some identifier, none, readPermission⟩).2
    resource identifier userId [deletePermission, updatePermission]
  have hfirst := hall.keep hrows fun p _ named _ hnamed => hhas p.resource named hnamed
  rw [allRefer_createPermission_iff h _ fun _ => Option.some_ne_none identifier] at hfirst
  exact (refers_new_iff resource identifier userId _).mp hfirst

end Step

/-! ## Runs -/

/-- One operation keeps the references exactly if what it asks permissions for exists. -/
theorem PermissionOperation.run_allRefer_iff {db : Database} (h : db.AllRefer)
    (op : PermissionOperation) : (op.run db).AllRefer ↔ op.Founded db := by
  cases op with
  | request perm => exact allRefer_requestPermission_iff h perm
  | newResource resource identifier userId =>
    exact allRefer_addPermissions_iff resource identifier userId h
  | removePermission i => exact iff_of_true (allRefer_removePermission h i) trivial
  | insertDevice device => exact iff_of_true (allRefer_insertDevice h device) trivial
  | deleteDevice identifier => exact iff_of_true (allRefer_deleteDevice h identifier) trivial
  | createGroup group => exact iff_of_true (allRefer_createGroup h group) trivial
  | deleteGroup identifier => exact iff_of_true (allRefer_deleteGroup h identifier) trivial
  | createPackage identifier => exact iff_of_true (allRefer_createPackage h identifier) trivial
  | deletePackage identifier => exact iff_of_true (allRefer_deletePackage h identifier) trivial
  | assignDevices group additions removals =>
    exact iff_of_true (allRefer_changeAssignment h group additions removals) trivial
  | assignPackages group packages =>
    exact iff_of_true (allRefer_modifyPackage h group packages) trivial

/-- No permission is ever without its resource, in any run, exactly if permissions are only ever
asked for when their resource exists. -/
theorem permissions_refer_iff (start : Database) (hstart : start.AllRefer)
    (ops : List PermissionOperation) :
    Along PermissionOperation.run (fun db op => (op.run db).AllRefer) start ops ↔
      Along PermissionOperation.run (fun db op => op.Founded db) start ops := by
  refine Along.iff_of_invariant (fun db op h => ?_) hstart
  have hstep := PermissionOperation.run_allRefer_iff h op
  exact ⟨hstep, hstep.mpr⟩

namespace PermissionRows

def group : Group := ⟨1, "no_update,", 0⟩

def grant : PermissionRequest := ⟨.group, "user", some 1, none, readPermission⟩

/-- A group, a permission for it, and the group is deleted again. -/
def run : List PermissionOperation := [.createGroup group, .request grant, .deleteGroup 1]

theorem permissions_refer_group :
    Along PermissionOperation.run (fun db op => (op.run db).AllRefer) .empty run := by
  rw [permissions_refer_iff .empty fun p hp => absurd hp List.not_mem_nil]
  refine ⟨trivial, fun p hp => ?_, trivial, trivial⟩
  cases hp
  exact fun _ => ⟨1, rfl, group, List.mem_singleton_self group, rfl⟩

/-- The same permission is granted while there is no group, and waits for the next one. -/
theorem permission_before_group :
    (Database.empty.requestPermission grant).1 = none ∧
      ¬ (Database.empty.requestPermission grant).2.AllRefer ∧
      ¬ ∀ ops, Along PermissionOperation.run (fun db op => (op.run db).AllRefer) .empty ops := by
  have hdangling : ¬ (Database.empty.requestPermission grant).2.AllRefer := by
    intro hall
    obtain ⟨_, _, g, hg, _⟩ := hall ⟨.group, "user", some 1, none, readPermission⟩
      (List.mem_singleton_self _) nofun
    exact absurd hg List.not_mem_nil
  exact ⟨rfl, hdangling, fun hall => hdangling (hall [.request grant]).1⟩

end PermissionRows

end Rdfm.Server
