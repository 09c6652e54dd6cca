import Mathlib.Data.List.MinMax
import Rdfm.Server.Database

/-!
# Groups and the devices in them

`GroupsDB`, and the part of `DevicesDB` that touches groups. A device gets its updates from the
assigned group of the least priority (`fetchActiveGroup`). That this is one group is no constraint of
the database: assignments and changes of a priority check it themselves (`modifyAssignment`,
`updatePriority`), and it then holds after every run of operations (`fetchActiveGroup_unique`).
-/

namespace Rdfm.Server

open Rdfm.Lib

namespace Database

variable (db : Database)

/-! ## Operations -/

/-- `GroupsDB.create`: the error, and the database. -/
def createGroup (group : Group) : Option String × Database :=
  match commit { db.toTables with groups := db.groups ++ [group] } with
  | some db => (none, db)
  | none =>
    (some "Conflict while adding group,a group with the same priority may already exist", db)

/-- `GroupsDB.delete`: whether the group could be deleted. -/
def deleteGroup (identifier : Int) : Bool × Database :=
  match commit { db.toTables with
    permissions := db.permissions.filter fun p =>
      ¬ (p.resource = .group ∧ p.resourceId = some identifier)
    groups := db.groups.filter fun g => g.id ≠ identifier } with
  | some db => (true, db)
  | none => (false, db)

inductive AssignmentError where
  /-- `A group with the same priority is already assigned to one of the devices ...`. -/
  | samePriority
  /-- `conflict while assigning device, the device may not exist`. -/
  | conflict
  /-- The priority of a group that does not exist is read. -/
  | attributeError
deriving DecidableEq, Repr

/-- The check of one addition. -/
def checkAddition (currentGroup : Option Group) (addition : Int) : Except AssignmentError Unit :=
  match currentGroup with
  | none => .error .attributeError
  | some currentGroup =>
    if (db.groupsOf addition).any fun g => g.priority = currentGroup.priority then
      .error .samePriority
    else .ok ()

/-- A commit inside a `try` for integrity errors. -/
def tryCommit (t : Tables) : Except AssignmentError Database :=
  match commit t with
  | some db => .ok db
  | none => .error .conflict

/-- `GroupsDB.modify_assignment`. -/
def modifyAssignment (identifier : Int) (additions removals : List Int) :
    Except AssignmentError Database := do
  additions.forM (db.checkAddition (db.fetchGroup identifier))
  let db ← tryCommit { db.toTables with
    deviceGroups := db.deviceGroups ++ additions.map fun a => ⟨a, identifier⟩ }
  tryCommit { db.toTables with
    deviceGroups := db.deviceGroups.filter fun a =>
      ¬ (a.groupId = identifier ∧ a.deviceId ∈ removals) }

/-- `GroupsDB.update_priority`. The same query is made once for every group of a device. -/
def updatePriority (group priority : Int) : Except AssignmentError Database :=
  if (db.fetchAssigned group).any fun device =>
    (db.fetchGroups device.id).any fun _ =>
      (db.groupsOf device.id).any fun g => g.priority = priority ∧ g.id ≠ group
  then .error .samePriority
  else tryCommit { db.toTables with
    groups := updateWhere (fun g => g.id = group) (fun g => { g with priority }) db.groups }

/-- `DevicesDB.insert`, with the identifier that the database gives the row. -/
def insertDevice (device : Device) : Option Database :=
  commit { db.toTables with devices := db.devices ++ [device] }

/-- `DevicesDB.delete`. -/
def deleteDevice (identifier : Int) : Option Database :=
  commit { db.toTables with
    deviceGroups := db.deviceGroups.filter fun a => a.deviceId ≠ identifier
    permissions := db.permissions.filter fun p =>
      ¬ (p.resourceId = some identifier ∧ p.resource = .device)
    deviceTags := db.deviceTags.filter fun a => a.deviceId ≠ identifier
    devices := db.devices.filter fun d => d.id ≠ identifier }

/-- `DevicesDB.fetch_active_group`, from the rows of `fetch_groups` in the order in which they come.
`none` stands for an exception. -/
def fetchActiveGroup (groups : List Int) : Option (Option Int) :=
  if groups = [] then some none
  else do
    let prios ← groups.mapM fun groupId => (db.fetchGroup groupId).map Group.priority
    let least ← prios.min?
    let active ← groups[prios.idxOf least]?
    return some active

end Database

/-! ## Runs -/

inductive GroupOperation where
  | createGroup (group : Group)
  | modifyAssignment (identifier : Int) (additions removals : List Int)
  | updatePriority (group priority : Int)
  | deleteGroup (identifier : Int)
  | insertDevice (device : Device)
  | deleteDevice (identifier : Int)

/-- One operation. One that fails leaves the database as it was. -/
def GroupOperation.run (db : Database) : GroupOperation → Database
  | createGroup group => (db.createGroup group).2
  | modifyAssignment identifier additions removals =>
    match db.modifyAssignment identifier additions removals with
    | .ok db => db
    | .error _ => db
  | updatePriority group priority =>
    match db.updatePriority group priority with
    | .ok db => db
    | .error _ => db
  | deleteGroup identifier => (db.deleteGroup identifier).2
  | insertDevice device => (db.insertDevice device).getD db
  | deleteDevice identifier => (db.deleteDevice identifier).getD db

/-- The database after a run of operations from an empty one. -/
def GroupOperation.after (ops : List GroupOperation) : Database :=
  ops.foldl GroupOperation.run .empty

/-! ## One step -/

/-- No device is in two groups of one priority. -/
def PrioritiesDistinct (t : Tables) : Prop :=
  ∀ g ∈ t.groups, ∀ g' ∈ t.groups, ∀ d, ⟨d, g.id⟩ ∈ t.deviceGroups → ⟨d, g'.id⟩ ∈ t.deviceGroups →
    g.priority = g'.priority → g.id = g'.id

namespace PrioritiesDistinct

variable {db db' : Database} {t : Tables}

/-- Fewer groups and assignments are distinct all the more. -/
theorem mono {t t' : Tables} (h : PrioritiesDistinct t) (hgroups : ∀ g ∈ t'.groups, g ∈ t.groups)
    (hassigned : ∀ a ∈ t'.deviceGroups, a ∈ t.deviceGroups) : PrioritiesDistinct t' :=
  fun g hg g' hg' d ha ha' =>
    h g (hgroups g hg) g' (hgroups g' hg') d (hassigned _ ha) (hassigned _ ha')

theorem empty : PrioritiesDistinct Database.empty.toTables := fun _ hg => absurd hg List.not_mem_nil

/-- A new group has no devices. -/
theorem createGroup (h : PrioritiesDistinct db.toTables) (group : Group) :
    PrioritiesDistinct (db.createGroup group).2.toTables := by
  unfold Database.createGroup
  split
  · next db' hcommit =>
    have ht := Database.commit_eq_some hcommit
    have hnew : ∀ d, ⟨d, group.id⟩ ∉ db.deviceGroups := by
      intro d ha
      have hnodup := db'.constraints.groups
      rw [ht, List.map_append, List.nodup_append] at hnodup
      exact hnodup.2.2 _ (db.constraints.deviceGroups_group _ ha) _ (List.mem_singleton_self _) rfl
    have hold : ∀ g ∈ db.groups ++ [group], ∀ d, ⟨d, g.id⟩ ∈ db.deviceGroups → g ∈ db.groups := by
      intro g hg d ha
      rcases List.mem_append.mp hg with hg | hg
      · exact hg
      · rw [List.mem_singleton.mp hg] at ha
        exact absurd ha (hnew d)
    dsimp only
    rw [ht]
    intro g hg g' hg' d ha ha'
    exact h g (hold g hg d ha) g' (hold g' hg' d ha') d ha ha'
  · exact h

theorem deleteGroup (h : PrioritiesDistinct db.toTables) (identifier : Int) :
    PrioritiesDistinct (db.deleteGroup identifier).2.toTables := by
  unfold Database.deleteGroup
  split
  · next db' hcommit =>
    dsimp only
    rw [Database.commit_eq_some hcommit]
    exact h.mono (fun g hg => (List.mem_filter.mp hg).1) fun a ha => ha
  · exact h

theorem tryCommit_ok {t : Tables} (h : Database.tryCommit t = .ok db) : db.toTables = t := by
  unfold Database.tryCommit at h
  split at h
  · next hcommit =>
    cases h
    exact Database.commit_eq_some hcommit
  · cases h

/-- An addition that was checked shares its priority with no group of the device. -/
theorem checkAddition_ok {currentGroup : Option Group} {addition : Int}
    (h : db.checkAddition currentGroup addition = .ok ()) :
    ∃ current, currentGroup = some current ∧
      ∀ g ∈ db.groups, ⟨addition, g.id⟩ ∈ db.deviceGroups → g.priority ≠ current.priority := by
  unfold Database.checkAddition at h
  split at h
  · cases h
  · next current =>
    split at h
    · cases h
    · next hany =>
      refine ⟨current, rfl, fun g hg ha hp => hany ?_⟩
      exact List.any_eq_true.mpr ⟨g, Database.mem_groupsOf.mpr ⟨hg, ha⟩, decide_eq_true hp⟩

/-- Checked additions to one group. -/
theorem append {identifier : Int} {additions : List Int} (h : PrioritiesDistinct db.toTables)
    (hcheck : ∀ a ∈ additions, db.checkAddition (db.fetchGroup identifier) a = .ok ()) :
    PrioritiesDistinct { db.toTables with
      deviceGroups := db.deviceGroups ++ additions.map fun a => ⟨a, identifier⟩ } := by
  -- a group that shares its priority with the one that is added to is the one that is added to
  have hadded : ∀ g ∈ db.groups, ∀ g' ∈ db.groups, ∀ d ∈ additions, g.id = identifier →
      ⟨d, g'.id⟩ ∈ db.deviceGroups → g.priority ≠ g'.priority := by
    intro g hg g' hg' d hd hid ha hp
    rcases checkAddition_ok (hcheck d hd) with ⟨current, hcurrent, hfree⟩
    rcases Database.fetchGroup_eq_some.mp hcurrent with ⟨hmem, hcid⟩
    have hg_current : g = current := Database.eq_of_group_id hg hmem (hid.trans hcid.symm)
    exact hfree g' hg' ha (hp.symm.trans (congrArg Group.priority hg_current))
  have hsplit : ∀ g d, (⟨d, g⟩ : DeviceGroup) ∈ db.deviceGroups ++
      additions.map (fun a => ⟨a, identifier⟩) →
      ⟨d, g⟩ ∈ db.deviceGroups ∨ d ∈ additions ∧ g = identifier := by
    intro g d ha
    rcases List.mem_append.mp ha with ha | ha
    · exact .inl ha
    · rcases List.mem_map.mp ha with ⟨a, hmem, heq⟩
      cases heq
      exact .inr ⟨hmem, rfl⟩
  intro g hg g' hg' d ha ha' hp
  rcases hsplit _ _ ha with ha | ⟨hd, hid⟩
  · rcases hsplit _ _ ha' with ha' | ⟨hd', hid'⟩
    · exact h g hg g' hg' d ha ha' hp
    · exact absurd hp.symm (hadded g' hg' g hg d hd' hid' ha)
  · rcases hsplit _ _ ha' with ha' | ⟨-, hid'⟩
    · exact absurd hp (hadded g hg g' hg' d hd hid ha')
    · exact hid.trans hid'.symm

theorem modifyAssignment (h : PrioritiesDistinct db.toTables) {identifier : Int}
    {additions removals : List Int}
    (hok : db.modifyAssignment identifier additions removals = .ok db') :
    PrioritiesDistinct db'.toTables := by
  unfold Database.modifyAssignment at hok
  rcases bind_ok_iff.mp hok with ⟨⟨⟩, hcheck, hok⟩
  rcases bind_ok_iff.mp hok with ⟨added, hadd, hremove⟩
  rw [tryCommit_ok hremove]
  have hadded := tryCommit_ok hadd
  have hstep := h.append (forM_ok_iff.mp hcheck)
  rw [← hadded] at hstep
  exact hstep.mono (fun g hg => hg) fun a ha => (List.mem_filter.mp ha).1

/-- A new priority that no other group of a device of the group has. -/
theorem updatePriority (h : PrioritiesDistinct db.toTables) {group priority : Int}
    (hok : db.updatePriority group priority = .ok db') : PrioritiesDistinct db'.toTables := by
  unfold Database.updatePriority at hok
  split at hok
  · cases hok
  · next hany =>
    have hfree : ∀ g ∈ db.groups, ∀ d, ⟨d, group⟩ ∈ db.deviceGroups → ⟨d, g.id⟩ ∈ db.deviceGroups →
        g.id ≠ group → g.priority ≠ priority := by
      intro g hg d hd ha hid hp
      rcases Database.exists_fetchAssigned hd with ⟨device, hdevice, rfl⟩
      refine hany (List.any_eq_true.mpr ⟨device, hdevice, List.any_eq_true.mpr ?_⟩)
      refine ⟨group, Database.mem_fetchGroups.mpr hd, List.any_eq_true.mpr ?_⟩
      exact ⟨g, Database.mem_groupsOf.mpr ⟨hg, ha⟩, decide_eq_true ⟨hp, hid⟩⟩
    rw [tryCommit_ok hok]
    intro g hg g' hg' d ha ha' hp
    rcases mem_updateWhere.mp hg with ⟨old, hold, rfl⟩
    rcases mem_updateWhere.mp hg' with ⟨old', hold', rfl⟩
    have hid : ∀ r : Group, (if decide (r.id = group) then { r with priority } else r).id = r.id := by
      intro r
      split <;> rfl
    rw [hid] at ha ⊢
    rw [hid] at ha' ⊢
    by_cases hg : old.id = group
    · by_cases hg' : old'.id = group
      · exact hg.trans hg'.symm
      · rw [if_pos (decide_eq_true hg), if_neg (by simpa using hg')] at hp
        rw [hg] at ha
        exact absurd hp.symm (hfree old' hold' d ha ha' hg')
    · by_cases hg' : old'.id = group
      · rw [if_neg (by simpa using hg), if_pos (decide_eq_true hg')] at hp
        rw [hg'] at ha'
        exact absurd hp (hfree old hold d ha' ha hg)
      · rw [if_neg (by simpa using hg), if_neg (by simpa using hg')] at hp
        exact h old hold old' hold' d ha ha' hp

theorem run (h : PrioritiesDistinct db.toTables) (op : GroupOperation) :
    PrioritiesDistinct (op.run db).toTables := by
  cases op with
  | createGroup group => exact h.createGroup group
  | modifyAssignment identifier additions removals =>
    unfold GroupOperation.run
    dsimp only
    split
    · next hok => exact h.modifyAssignment hok
    · exact h
  | updatePriority group priority =>
    unfold GroupOperation.run
    dsimp only
    split
    · next hok => exact h.updatePriority hok
    · exact h
  | deleteGroup identifier => exact h.deleteGroup identifier
  | insertDevice device =>
    change PrioritiesDistinct ((db.insertDevice device).getD db).toTables
    cases hcommit : db.insertDevice device with
    | none => exact h
    | some db' =>
      rw [Option.getD_some, Database.commit_eq_some hcommit]
      exact h
  | deleteDevice identifier =>
    change PrioritiesDistinct ((db.deleteDevice identifier).getD db).toTables
    cases hcommit : db.deleteDevice identifier with
    | none => exact h
    | some db' =>
      rw [Option.getD_some, Database.commit_eq_some hcommit]
      exact h.mono (fun g hg => hg) fun a ha => (List.mem_filter.mp ha).1

theorem runs (h : PrioritiesDistinct db.toTables) (ops : List GroupOperation) :
    PrioritiesDistinct (ops.foldl GroupOperation.run db).toTables := by
  induction ops generalizing db with
  | nil => exact h
  | cons op ops ih => exact ih (h.run op)

end PrioritiesDistinct

/-! ## The active group -/

section Active

variable {db : Database} {device : Int} {groups : List Int}

/-- The rows of the assignments name groups, and these are the groups of the device. -/
theorem exists_group_of_fetchGroups {g : Int} (h : g ∈ db.fetchGroups device) :
    ∃ row ∈ db.groups, row.id = g :=
  List.mem_map.mp (db.constraints.deviceGroups_group _ (Database.mem_fetchGroups.mp h))

theorem mapM_priority {prio : Int → Int}
    (h : ∀ g ∈ groups, (db.fetchGroup g).map Group.priority = some (prio g)) :
    groups.mapM (fun g => (db.fetchGroup g).map Group.priority) = some (groups.map prio) := by
  induction groups with
  | nil => rfl
  | cons g groups ih =>
    rw [List.mapM_cons, h g List.mem_cons_self, ih fun g' hg' => h g' (List.mem_cons_of_mem _ hg')]
    rfl

/-- The first of the assigned groups with the least priority. -/
theorem fetchActiveGroup_eq (hrows : groups.Perm (db.fetchGroups device)) (hne : groups ≠ []) :
    ∃ active ∈ db.groups, active.id ∈ groups ∧
      db.fetchActiveGroup groups = some (some active.id) ∧
      ∀ g ∈ db.groups, g.id ∈ groups → active.priority ≤ g.priority := by
  have hrow : ∀ g ∈ groups, ∃ row ∈ db.groups, row.id = g := fun g hg =>
    exists_group_of_fetchGroups (hrows.mem_iff.mp hg)
  let prio : Int → Int := fun g => ((db.fetchGroup g).map Group.priority).getD 0
  have hprio : ∀ row ∈ db.groups, (db.fetchGroup row.id).map Group.priority = some row.priority :=
    fun row hrow => by rw [Database.fetchGroup_eq_some.mpr ⟨hrow, rfl⟩]; rfl
  have hmap : groups.mapM (fun g => (db.fetchGroup g).map Group.priority) =
      some (groups.map prio) := by
    refine mapM_priority fun g hg => ?_
    rcases hrow g hg with ⟨row, hmem, rfl⟩
    dsimp only [prio]
    rw [hprio row hmem]
    rfl
  rcases hmin : (groups.map prio).min? with _ | least
  · rw [List.min?_eq_none_iff, List.map_eq_nil_iff] at hmin
    exact absurd hmin hne
  rcases List.min?_eq_some_iff.mp hmin with ⟨hleast, hle⟩
  have hidx : (groups.map prio).idxOf least < groups.length := by
    rw [← List.length_map (f := prio)]
    exact List.idxOf_lt_length_iff.mpr hleast
  have hget : prio (groups.get ⟨_, hidx⟩) = least := by
    have hlen : (groups.map prio).idxOf least < (groups.map prio).length :=
      List.idxOf_lt_length_iff.mpr hleast
    have hvalue := List.getElem_idxOf hlen
    rwa [List.getElem_map] at hvalue
  rcases hrow _ (List.get_mem groups ⟨_, hidx⟩) with ⟨active, hactive, hid⟩
  refine ⟨active, hactive, hid ▸ List.get_mem groups ⟨_, hidx⟩, ?_, ?_⟩
  · unfold Database.fetchActiveGroup
    rw [if_neg hne, hmap]
    simp only [Option.bind_eq_bind, Option.bind_some, hmin, List.getElem?_eq_getElem hidx]
    rw [hid]
    rfl
  · intro g hg hmem
    have hgp : prio g.id = g.priority := by
      dsimp only [prio]
      rw [hprio g hg]
      rfl
    have hap : prio active.id = active.priority := by
      dsimp only [prio]
      rw [hprio active hactive]
      rfl
    rw [← hgp, ← hap, hid, hget]
    exact hle _ (List.mem_map_of_mem hmem)

end Active

/-! ## Whole runs -/

/-- **A device has one active group**: after any run of operations no device is in two groups of one
priority, and whatever the order of the rows, the active group is the one of the least priority. -/
theorem fetchActiveGroup_unique (ops : List GroupOperation) :
    PrioritiesDistinct (GroupOperation.after ops).toTables ∧
      ∀ device groups, groups.Perm ((GroupOperation.after ops).fetchGroups device) →
        (groups = [] → (GroupOperation.after ops).fetchActiveGroup groups = some none) ∧
        (groups ≠ [] → ∃ active ∈ (GroupOperation.after ops).groups, active.id ∈ groups ∧
          (GroupOperation.after ops).fetchActiveGroup groups = some (some active.id) ∧
          ∀ g ∈ (GroupOperation.after ops).groups, g.id ∈ groups → g ≠ active →
            active.priority < g.priority) := by
  have hdistinct : PrioritiesDistinct (GroupOperation.after ops).toTables :=
    PrioritiesDistinct.empty.runs ops
  refine ⟨hdistinct, ?_⟩
  generalize GroupOperation.after ops = db at hdistinct
  intro device groups hrows
  constructor
  · intro hnil
    unfold Database.fetchActiveGroup
    rw [if_pos hnil]
  · intro hne
    rcases fetchActiveGroup_eq hrows hne with ⟨active, hactive, hmem, heq, hle⟩
    refine ⟨active, hactive, hmem, heq, fun g hg hgmem hgne => ?_⟩
    refine lt_of_le_of_ne (hle g hg hgmem) fun hp => hgne ?_
    have hassigned : ∀ r : Group, r.id ∈ groups → ⟨device, r.id⟩ ∈ db.deviceGroups := fun r hr =>
      Database.mem_fetchGroups.mp (hrows.mem_iff.mp hr)
    exact Database.eq_of_group_id hg hactive (hdistinct active hactive g hg device
      (hassigned active hmem) (hassigned g hgmem) hp).symm

end Rdfm.Server
