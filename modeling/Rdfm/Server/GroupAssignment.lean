import Rdfm.Server.Groups

/-!
# Changes of a group's devices

`GroupsDB.modify_assignment` promises to be atomic, and to fail in three cases. It does not look at the
removals, so one of a device that is not in the group is no error; it fails if an addition is there
twice; and an id that is too large for a statement raises an exception that it does not catch, for a
removal when the additions are committed. When its statements can be run, it keeps its promise exactly
if the first two do not happen, or both, or if it fails for another of the cases anyway
(`assignment_exact_iff`).
-/

namespace Rdfm.Server

open Rdfm.Lib

namespace Database

variable (db : Database)

/-- The changes of `modify_assignment` one after another, when its statements can be run: the error, and
the database, in which the additions stay if only the removals fail. -/
def changeAssignment (identifier : Int) (additions removals : List Int) :
    Option AssignmentError × Database :=
  match additions.forM (db.checkAddition (db.fetchGroup identifier)) with
  | .error err => (some err, db)
  | .ok () =>
    match commit { db.toTables with
      deviceGroups := db.deviceGroups ++ additions.map fun a => ⟨a, identifier⟩ } with
    | none => (some .conflict, db)
    | some db =>
      match commit { db.toTables with
        deviceGroups := db.deviceGroups.filter fun a =>
          ¬ (a.groupId = identifier ∧ a.deviceId ∈ removals) } with
      | none => (some .conflict, db)
      | some db => (none, db)

/-- Which statements the database can run. Others raise an exception that is no `IntegrityError`, above
all for an id that is too large. -/
structure Statements where
  /-- The query for an addition. -/
  query : Int → Bool
  /-- The insert of all additions. -/
  insert : List Int → Bool
  /-- The delete of all removals. -/
  delete : List Int → Bool

inductive AssignmentOutcome where
  | returned (err : Option AssignmentError)
  /-- An exception that is not caught. -/
  | raised
deriving DecidableEq, Repr

/-- The loop over the additions. -/
def checkAdditions (run : Statements) (currentGroup : Option Group) : List Int → AssignmentOutcome
  | [] => .returned none
  | addition :: additions =>
    if run.query addition then
      match db.checkAddition currentGroup addition with
      | .error err => .returned (some err)
      | .ok () => checkAdditions run currentGroup additions
    else .raised

/-- `modify_assignment`: how it ends, and the database. -/
def runAssignment (run : Statements) (identifier : Int) (additions removals : List Int) :
    AssignmentOutcome × Database :=
  match db.checkAdditions run (db.fetchGroup identifier) additions with
  | .returned none =>
    if run.insert additions then
      match commit { db.toTables with
        deviceGroups := db.deviceGroups ++ additions.map fun a => ⟨a, identifier⟩ } with
      | none => (.returned (some .conflict), db)
      | some db =>
        if run.delete removals then
          match commit { db.toTables with
            deviceGroups := db.deviceGroups.filter fun a =>
              ¬ (a.groupId = identifier ∧ a.deviceId ∈ removals) } with
          | none => (.returned (some .conflict), db)
          | some db => (.returned none, db)
        else (.raised, db)
    else (.raised, db)
  | outcome => (outcome, db)

/-- The device is registered. -/
def Registered (device : Int) : Prop := device ∈ db.devices.map Device.id

/-- The device is in a group of the priority. -/
def InPriority (priority device : Int) : Prop :=
  ∃ g ∈ db.groups, ⟨device, g.id⟩ ∈ db.deviceGroups ∧ g.priority = priority

section Promise

variable (run : Statements) (group : Group) (additions removals : List Int)

/-- The cases in which the change is to fail. -/
def Documented : Prop :=
  (∃ d ∈ additions ++ removals, ¬ db.Registered d) ∨
    (∃ a ∈ additions, db.InPriority group.priority a) ∨
    ∃ r ∈ removals, ⟨r, group.id⟩ ∉ db.deviceGroups ∧ r ∉ additions

/-- The change fails, in one of the cases and without a trace, or it is made as a whole. -/
def Exact : Prop :=
  match db.runAssignment run group.id additions removals with
  | (.raised, _) => False
  | (.returned (some _), db') =>
    db'.deviceGroups = db.deviceGroups ∧ db.Documented group additions removals
  | (.returned none, db') => ¬ db.Documented group additions removals ∧
    (∀ d, ⟨d, group.id⟩ ∈ db'.deviceGroups ↔
      (⟨d, group.id⟩ ∈ db.deviceGroups ∨ d ∈ additions) ∧ d ∉ removals) ∧
    ∀ a : DeviceGroup, a.groupId ≠ group.id → (a ∈ db'.deviceGroups ↔ a ∈ db.deviceGroups)

/-- An addition is not registered, or has a group of the priority. -/
def RefusedAddition : Prop :=
  ∃ a ∈ additions, ¬ db.Registered a ∨ db.InPriority group.priority a

/-- The first query that ends the loop finds a group of the priority. -/
def RefusedFirst : Prop :=
  ∃ before a after, additions = before ++ a :: after ∧ (∀ b ∈ before, run.query b = true) ∧
    run.query a = true ∧ db.InPriority group.priority a

/-- A removal is of no device of the group, or of the additions to it. -/
def StrayRemoval : Prop := ∃ r ∈ removals, ⟨r, group.id⟩ ∉ db.deviceGroups ∧ r ∉ additions

end Promise

end Database

/-! ## The two transactions -/

/-- It is the change that `modifyAssignment` makes. -/
theorem modifyAssignment_eq (db : Database) (identifier : Int) (additions removals : List Int) :
    db.modifyAssignment identifier additions removals =
      match db.changeAssignment identifier additions removals with
      | (some err, _) => .error err
      | (none, db') => .ok db' := by
  unfold Database.modifyAssignment Database.changeAssignment Database.tryCommit
  cases additions.forM (db.checkAddition (db.fetchGroup identifier)) with
  | error err => rfl
  | ok _ =>
    dsimp only [bind, Except.bind]
    cases Database.commit { db.toTables with
      deviceGroups := db.deviceGroups ++ additions.map fun a => ⟨a, identifier⟩ } with
    | none => rfl
    | some db₁ =>
      dsimp only
      cases Database.commit { db₁.toTables with
        deviceGroups := db₁.deviceGroups.filter fun a =>
          ¬ (a.groupId = identifier ∧ a.deviceId ∈ removals) } with
      | none => rfl
      | some db₂ => rfl

section Transactions

variable {db : Database} {group : Group} {additions removals : List Int}

theorem commit_eq_some_iff {t : Tables} {db' : Database} :
    Database.commit t = some db' ↔ db'.toTables = t := by
  refine ⟨Database.commit_eq_some, ?_⟩
  rintro rfl
  exact dif_pos db'.constraints

theorem commit_of_constraints {t : Tables} (h : Constraints t) :
    ∃ db', Database.commit t = some db' ∧ db'.toTables = t :=
  ⟨⟨t, h⟩, commit_eq_some_iff.mpr rfl, rfl⟩

/-- Fewer assignments meet the constraints all the more. -/
theorem Constraints.filter_deviceGroups (db : Database) (p : DeviceGroup → Bool) :
    Constraints { db.toTables with deviceGroups := db.deviceGroups.filter p } where
  devices := db.constraints.devices
  groups := db.constraints.groups
  deviceGroups := db.constraints.deviceGroups.filter p
  deviceTags := db.constraints.deviceTags
  packages := db.constraints.packages
  groupPackages := db.constraints.groupPackages
  deviceGroups_device a ha := db.constraints.deviceGroups_device a (List.mem_filter.mp ha).1
  deviceGroups_group a ha := db.constraints.deviceGroups_group a (List.mem_filter.mp ha).1
  deviceTags_device := db.constraints.deviceTags_device
  groupPackages_group := db.constraints.groupPackages_group
  groupPackages_package := db.constraints.groupPackages_package
  logs_device := db.constraints.logs_device

/-- The additions meet the constraints exactly if they are distinct, registered and new. -/
theorem constraints_additions_iff (hgroup : group ∈ db.groups) :
    Constraints { db.toTables with
        deviceGroups := db.deviceGroups ++ additions.map fun a => ⟨a, group.id⟩ } ↔
      additions.Nodup ∧ ∀ a ∈ additions, db.Registered a ∧ ⟨a, group.id⟩ ∉ db.deviceGroups := by
  have hinj : Function.Injective fun a : Int => (⟨a, group.id⟩ : DeviceGroup) := by
    intro a b hab
    exact congrArg DeviceGroup.deviceId hab
  constructor
  · intro h
    obtain ⟨-, hnodup, hdisjoint⟩ := List.nodup_append.mp h.deviceGroups
    refine ⟨(List.nodup_map_iff hinj).mp hnodup, fun a ha => ⟨?_, fun hold => ?_⟩⟩
    · exact h.deviceGroups_device ⟨a, group.id⟩
        (List.mem_append_right _ (List.mem_map_of_mem ha))
    · exact hdisjoint _ hold _ (List.mem_map_of_mem ha) rfl
  · rintro ⟨hnodup, hnew⟩
    refine {
      devices := db.constraints.devices
      groups := db.constraints.groups
      deviceGroups := ?_
      deviceTags := db.constraints.deviceTags
      packages := db.constraints.packages
      groupPackages := db.constraints.groupPackages
      deviceGroups_device := ?_
      deviceGroups_group := ?_
      deviceTags_device := db.constraints.deviceTags_device
      groupPackages_group := db.constraints.groupPackages_group
      groupPackages_package := db.constraints.groupPackages_package
      logs_device := db.constraints.logs_device }
    · refine List.nodup_append.mpr ⟨db.constraints.deviceGroups, hnodup.map hinj, ?_⟩
      rintro a ha b hb rfl
      obtain ⟨d, hd, rfl⟩ := List.mem_map.mp hb
      exact (hnew d hd).2 ha
    · intro a ha
      rcases List.mem_append.mp ha with ha | ha
      · exact db.constraints.deviceGroups_device a ha
      · obtain ⟨d, hd, rfl⟩ := List.mem_map.mp ha
        exact (hnew d hd).1
    · intro a ha
      rcases List.mem_append.mp ha with ha | ha
      · exact db.constraints.deviceGroups_group a ha
      · obtain ⟨d, hd, rfl⟩ := List.mem_map.mp ha
        exact List.mem_map_of_mem hgroup

theorem checkAddition_eq_ok_iff {addition : Int} :
    db.checkAddition (some group) addition = .ok () ↔ ¬ db.InPriority group.priority addition := by
  unfold Database.checkAddition Database.InPriority
  dsimp only
  have hany : ((db.groupsOf addition).any fun g => g.priority = group.priority) = true ↔
      ∃ g ∈ db.groups, ⟨addition, g.id⟩ ∈ db.deviceGroups ∧ g.priority = group.priority := by
    simp only [List.any_eq_true, Database.mem_groupsOf, decide_eq_true_eq, and_assoc]
  rw [← hany]
  split
  · next h => simp [h]
  · next h => simp [h]

/-- What is in the group has its priority. -/
theorem inPriority_of_mem (hgroup : group ∈ db.groups) {d : Int}
    (h : ⟨d, group.id⟩ ∈ db.deviceGroups) : db.InPriority group.priority d :=
  ⟨group, hgroup, h, rfl⟩

/-- Additions that have no group of the priority are committed exactly if they are distinct and
registered. -/
theorem commit_additions (hgroup : group ∈ db.groups)
    (hfree : ∀ a ∈ additions, ¬ db.InPriority group.priority a) :
    (additions.Nodup ∧ ∀ a ∈ additions, db.Registered a) ∧
        (∃ db₁, Database.commit { db.toTables with
            deviceGroups := db.deviceGroups ++ additions.map fun a => ⟨a, group.id⟩ } = some db₁ ∧
          db₁.deviceGroups = db.deviceGroups ++ additions.map fun a => ⟨a, group.id⟩) ∨
      ¬ (additions.Nodup ∧ ∀ a ∈ additions, db.Registered a) ∧
        Database.commit { db.toTables with
          deviceGroups := db.deviceGroups ++ additions.map fun a => ⟨a, group.id⟩ } = none := by
  by_cases hadd : additions.Nodup ∧ ∀ a ∈ additions, db.Registered a
  · have hconstraints := (constraints_additions_iff hgroup).mpr ⟨hadd.1, fun a ha =>
      ⟨hadd.2 a ha, fun hold => hfree a ha (inPriority_of_mem hgroup hold)⟩⟩
    obtain ⟨db₁, hcommit, ht⟩ := commit_of_constraints hconstraints
    exact .inl ⟨hadd, db₁, hcommit, congrArg Tables.deviceGroups ht⟩
  · refine .inr ⟨hadd, dif_neg fun hconstraints => hadd ?_⟩
    obtain ⟨hnodup, hnew⟩ := (constraints_additions_iff hgroup).mp hconstraints
    exact ⟨hnodup, fun a ha => (hnew a ha).1⟩

/-- The removals are always committed, when they can be run. -/
theorem commit_removals (db : Database) (identifier : Int) (removals : List Int) :
    ∃ db', Database.commit { db.toTables with
        deviceGroups := db.deviceGroups.filter fun a =>
          ¬ (a.groupId = identifier ∧ a.deviceId ∈ removals) } = some db' ∧
      db'.deviceGroups = db.deviceGroups.filter fun a =>
        ¬ (a.groupId = identifier ∧ a.deviceId ∈ removals) := by
  obtain ⟨db', hcommit, ht⟩ := commit_of_constraints (Constraints.filter_deviceGroups db
    fun a => ¬ (a.groupId = identifier ∧ a.deviceId ∈ removals))
  exact ⟨db', hcommit, congrArg Tables.deviceGroups ht⟩

/-- The change is made exactly if the additions are distinct and none of them is refused. -/
theorem changeAssignment_cases (hgroup : group ∈ db.groups) :
    (¬ additions.Nodup ∨ db.RefusedAddition group additions) ∧
      (∃ err, db.changeAssignment group.id additions removals = (some err, db)) ∨
    (additions.Nodup ∧ ¬ db.RefusedAddition group additions) ∧
      ∃ db', db.changeAssignment group.id additions removals = (none, db') ∧
        db'.deviceGroups =
          (db.deviceGroups ++ additions.map fun a => (⟨a, group.id⟩ : DeviceGroup)).filter
            fun a => ¬ (a.groupId = group.id ∧ a.deviceId ∈ removals) := by
  have hfetch : db.fetchGroup group.id = some group :=
    Database.fetchGroup_eq_some.mpr ⟨hgroup, rfl⟩
  unfold Database.changeAssignment
  rw [hfetch]
  cases hcheck : additions.forM (db.checkAddition (some group)) with
  | error err =>
    refine .inl ⟨.inr ?_, err, rfl⟩
    by_contra hrefused
    have hok : additions.forM (db.checkAddition (some group)) = .ok () := by
      refine forM_ok_iff.mpr fun a ha => checkAddition_eq_ok_iff.mpr fun hin => ?_
      exact hrefused ⟨a, ha, .inr hin⟩
    rw [hok] at hcheck
    cases hcheck
  | ok _ =>
    have hfree : ∀ a ∈ additions, ¬ db.InPriority group.priority a := fun a ha =>
      checkAddition_eq_ok_iff.mp (forM_ok_iff.mp hcheck a ha)
    dsimp only
    rcases commit_additions hgroup hfree with ⟨hadd, db₁, hcommit₁, hd₁⟩ | ⟨hadd, hnone⟩
    · -- Both transactions are committed.
      obtain ⟨db₂, hcommit₂, hd₂⟩ := commit_removals db₁ group.id removals
      rw [hcommit₁]
      dsimp only
      rw [hcommit₂]
      refine .inr ⟨⟨hadd.1, ?_⟩, db₂, rfl, ?_⟩
      · rintro ⟨a, ha, hunknown | hin⟩
        · exact hunknown (hadd.2 a ha)
        · exact hfree a ha hin
      · rw [← hd₁]
        exact hd₂
    · rw [hnone]
      refine .inl ⟨?_, .conflict, rfl⟩
      by_cases hnodup : additions.Nodup
      · have hunknown : ¬ ∀ a ∈ additions, db.Registered a := fun hall => hadd ⟨hnodup, hall⟩
        simp only [not_forall] at hunknown
        obtain ⟨a, ha, hunknown⟩ := hunknown
        exact .inr ⟨a, ha, .inl hunknown⟩
      · exact .inl hnodup

/-- How the loop over the additions ends. -/
theorem checkAdditions_cases {run : Database.Statements} :
    db.RefusedFirst run group additions ∧
        (∃ err, db.checkAdditions run (some group) additions = .returned (some err)) ∨
      (¬ db.RefusedFirst run group additions ∧ ¬ ∀ a ∈ additions, run.query a = true) ∧
        db.checkAdditions run (some group) additions = .raised ∨
      ((∀ a ∈ additions, run.query a = true) ∧
          ∀ a ∈ additions, ¬ db.InPriority group.priority a) ∧
        db.checkAdditions run (some group) additions = .returned none := by
  induction additions with
  | nil => exact .inr (.inr ⟨⟨nofun, nofun⟩, rfl⟩)
  | cons addition additions ih =>
    unfold Database.checkAdditions
    cases hquery : run.query addition with
    | false =>
      refine .inr (.inl ⟨⟨?_, fun hall => ?_⟩, if_neg Bool.false_ne_true⟩)
      · rintro ⟨before, a, after, heq, hbefore, ha, -⟩
        cases before with
        | nil =>
          cases heq
          rw [hquery] at ha
          cases ha
        | cons b before =>
          cases heq
          rw [hbefore _ List.mem_cons_self] at hquery
          cases hquery
      · rw [hall _ List.mem_cons_self] at hquery
        cases hquery
    | true =>
      rw [if_pos rfl]
      by_cases hin : db.InPriority group.priority addition
      · refine .inl ⟨⟨[], addition, additions, rfl, nofun, hquery, hin⟩, ?_⟩
        cases hcheck : db.checkAddition (some group) addition with
        | error err => exact ⟨err, rfl⟩
        | ok _ => exact absurd hin (checkAddition_eq_ok_iff.mp hcheck)
      · rw [checkAddition_eq_ok_iff.mpr hin]
        have hfirst : db.RefusedFirst run group (addition :: additions) ↔
            db.RefusedFirst run group additions := by
          constructor
          · rintro ⟨before, a, after, heq, hbefore, ha, hina⟩
            cases before with
            | nil =>
              cases heq
              exact absurd hina hin
            | cons b before =>
              cases heq
              exact ⟨before, a, after, rfl, fun b hb => hbefore b (List.mem_cons_of_mem _ hb), ha,
                hina⟩
          · rintro ⟨before, a, after, rfl, hbefore, ha, hina⟩
            exact ⟨addition :: before, a, after, rfl,
              List.forall_mem_cons.mpr ⟨hquery, hbefore⟩, ha, hina⟩
        rw [hfirst, List.forall_mem_cons, List.forall_mem_cons]
        rcases ih with h | ⟨⟨hrefused, hraises⟩, h⟩ | ⟨⟨hqueries, hfree⟩, h⟩
        · exact .inl h
        · exact .inr (.inl ⟨⟨hrefused, fun hall => hraises hall.2⟩, h⟩)
        · exact .inr (.inr ⟨⟨⟨hquery, hqueries⟩, hin, hfree⟩, h⟩)

end Transactions

/-! ## The promise -/

section Promise

variable {db : Database} {group : Group} {additions removals : List Int}

theorem mem_changed {d : Int} {g : Int} :
    (⟨d, g⟩ : DeviceGroup) ∈
        (db.deviceGroups ++ additions.map fun a => (⟨a, group.id⟩ : DeviceGroup)).filter
          (fun a => ¬ (a.groupId = group.id ∧ a.deviceId ∈ removals)) ↔
      (⟨d, g⟩ ∈ db.deviceGroups ∨ d ∈ additions ∧ g = group.id) ∧
        ¬ (g = group.id ∧ d ∈ removals) := by
  simp only [List.mem_filter, List.mem_append, List.mem_map, decide_eq_true_eq]
  refine and_congr_left fun _ => or_congr Iff.rfl ?_
  constructor
  · rintro ⟨a, ha, heq⟩
    cases heq
    exact ⟨ha, rfl⟩
  · rintro ⟨ha, rfl⟩
    exact ⟨d, ha, rfl⟩

/-- The cases, as far as they are not of the additions alone. -/
theorem documented_iff : db.Documented group additions removals ↔
    db.RefusedAddition group additions ∨ db.StrayRemoval group additions removals := by
  constructor
  · rintro (⟨d, hd, hunknown⟩ | ⟨a, ha, hin⟩ | hstray)
    · by_cases hadd : d ∈ additions
      · exact .inl ⟨d, hadd, .inl hunknown⟩
      · have hrem := (List.mem_append.mp hd).resolve_left hadd
        refine .inr ⟨d, hrem, fun hmember => hunknown ?_, hadd⟩
        exact db.constraints.deviceGroups_device _ hmember
    · exact .inl ⟨a, ha, .inr hin⟩
    · exact .inr hstray
  · rintro (⟨a, ha, hunknown | hin⟩ | hstray)
    · exact .inl ⟨a, List.mem_append_left _ ha, hunknown⟩
    · exact .inr (.inl ⟨a, ha, hin⟩)
    · exact .inr (.inr hstray)

/-- A change that is made as a whole is exact if no removal is stray. -/
theorem made_iff (hadditions : ¬ db.RefusedAddition group additions) {db' : Database}
    (htable : db'.deviceGroups =
      (db.deviceGroups ++ additions.map fun a => (⟨a, group.id⟩ : DeviceGroup)).filter
        fun a => ¬ (a.groupId = group.id ∧ a.deviceId ∈ removals)) :
    (¬ db.Documented group additions removals ∧
      (∀ d, ⟨d, group.id⟩ ∈ db'.deviceGroups ↔
        (⟨d, group.id⟩ ∈ db.deviceGroups ∨ d ∈ additions) ∧ d ∉ removals) ∧
      ∀ a : DeviceGroup, a.groupId ≠ group.id → (a ∈ db'.deviceGroups ↔ a ∈ db.deviceGroups)) ↔
      ¬ db.StrayRemoval group additions removals := by
  rw [documented_iff, or_iff_right hadditions, htable]
  refine ⟨And.left, fun hstray => ⟨hstray, fun d => ?_, ?_⟩⟩
  · rw [mem_changed]
    simp
  · rintro ⟨d, g⟩ hother
    rw [mem_changed]
    simp only [ne_eq] at hother
    simp [hother]

end Promise

/-- **The promise of a change.** For a group that exists it is kept exactly if the loop refuses an
addition before a query raises an exception; or if no query and no insert does, and an addition is not
registered, or a stray removal comes with additions that are not distinct, or there is neither and the
delete can be run. -/
theorem assignment_exact_iff (db : Database) (run : Database.Statements) (group : Group)
    (additions removals : List Int) (hgroup : group ∈ db.groups) :
    db.Exact run group additions removals ↔ db.RefusedFirst run group additions ∨
      ((∀ a ∈ additions, run.query a = true) ∧ run.insert additions = true) ∧
        ((∃ a ∈ additions, ¬ db.Registered a) ∨
          ¬ additions.Nodup ∧ db.StrayRemoval group additions removals ∨
          additions.Nodup ∧ ¬ db.StrayRemoval group additions removals ∧
            run.delete removals = true) := by
  have hfetch : db.fetchGroup group.id = some group :=
    Database.fetchGroup_eq_some.mpr ⟨hgroup, rfl⟩
  unfold Database.Exact Database.runAssignment
  rw [hfetch]
  rcases @checkAdditions_cases db group additions run with
    ⟨hfirst, err, hloop⟩ | ⟨⟨hfirst, hraises⟩, hloop⟩ | ⟨⟨hqueries, hfree⟩, hloop⟩
  · rw [hloop]
    refine iff_of_true ⟨rfl, ?_⟩ (.inl hfirst)
    obtain ⟨before, a, after, rfl, -, -, hin⟩ := hfirst
    exact .inr (.inl ⟨a, List.mem_append_right _ List.mem_cons_self, hin⟩)
  · rw [hloop]
    exact iff_of_false id fun h => h.elim hfirst fun h => hraises h.1.1
  · have hfirst : ¬ db.RefusedFirst run group additions := by
      rintro ⟨before, a, after, rfl, -, -, hin⟩
      exact hfree a (List.mem_append_right _ List.mem_cons_self) hin
    rw [hloop, or_iff_right hfirst]
    dsimp only
    cases hinsert : run.insert additions with
    | false => exact iff_of_false id fun h => Bool.false_ne_true h.1.2
    | true =>
      rw [if_pos rfl, and_iff_right ⟨hqueries, rfl⟩]
      have hrefused : db.RefusedAddition group additions ↔ ∃ a ∈ additions, ¬ db.Registered a := by
        constructor
        · rintro ⟨a, ha, hunknown | hin⟩
          · exact ⟨a, ha, hunknown⟩
          · exact absurd hin (hfree a ha)
        · rintro ⟨a, ha, hunknown⟩
          exact ⟨a, ha, .inl hunknown⟩
      rcases commit_additions hgroup hfree with ⟨hadd, db₁, hcommit₁, hd₁⟩ | ⟨hadd, hnone⟩
      · have hknown : ¬ ∃ a ∈ additions, ¬ db.Registered a := by
          rintro ⟨a, ha, hunknown⟩
          exact hunknown (hadd.2 a ha)
        have hdouble : ¬ (¬ additions.Nodup ∧ db.StrayRemoval group additions removals) :=
          fun h => h.1 hadd.1
        rw [hcommit₁, or_iff_right hknown, or_iff_right hdouble, and_iff_right hadd.1]
        dsimp only
        cases hdelete : run.delete removals with
        | false => exact iff_of_false id fun h => Bool.false_ne_true h.2
        | true =>
          obtain ⟨db₂, hcommit₂, hd₂⟩ := commit_removals db₁ group.id removals
          rw [if_pos rfl, hcommit₂]
          dsimp only
          rw [hd₁] at hd₂
          rw [made_iff (fun h => hknown (hrefused.mp h)) hd₂]
          exact (and_iff_left rfl).symm
      · rw [hnone]
        dsimp only
        rw [and_iff_right rfl, documented_iff, hrefused]
        by_cases hknown : ∃ a ∈ additions, ¬ db.Registered a
        · exact iff_of_true (.inl hknown) (.inl hknown)
        · have hdouble : ¬ additions.Nodup := by
            intro hnodup
            refine hadd ⟨hnodup, fun a ha => ?_⟩
            by_contra hunknown
            exact hknown ⟨a, ha, hunknown⟩
          rw [or_iff_right hknown, or_iff_right hknown, and_iff_right hdouble]
          exact ⟨.inl, fun h => h.elim id fun h => absurd h.1 hdouble⟩

namespace AssignmentRun

def group : Group := ⟨1, "no_update,", 5⟩

/-- Two devices, of which the first is in the group. -/
def database : Database where
  devices := [⟨1, "a", "a", ∅, none⟩, ⟨2, "b", "b", ∅, none⟩]
  groups := [group]
  deviceGroups := [⟨1, 1⟩]
  deviceTags := []
  packages := []
  groupPackages := []
  logs := []
  permissions := []
  constraints := by decide

/-- Integers of 64 bits. -/
def fits (id : Int) : Bool := -9223372036854775808 ≤ id && id < 9223372036854775808

/-- What can be run on SQLite. -/
def statements : Database.Statements := ⟨fits, fun ids => ids.all fits, fun ids => ids.all fits⟩

end AssignmentRun

open AssignmentRun in
/-- The second device takes the place of the first. -/
theorem assignment_exact_exchange : database.Exact statements group [2] [1] := by
  refine (assignment_exact_iff database statements group [2] [1] List.mem_cons_self).mpr
    (.inr ⟨⟨by decide, rfl⟩, .inr (.inr ⟨List.nodup_singleton 2, ?_, rfl⟩)⟩)
  rintro ⟨r, hr, hmember, -⟩
  rw [List.mem_singleton.mp hr] at hmember
  exact hmember List.mem_cons_self

open AssignmentRun in
/-- The removal of a device that is not in the group is no error, nor is one of a device that does
not exist; and one whose id is too large raises an exception when the additions are committed. -/
theorem stray_removal_succeeds :
    (database.Documented group [] [2, 3] ∧
      (database.runAssignment statements group.id [] [2, 3]).1 = .returned none ∧
      ¬ database.Exact statements group [] [2, 3]) ∧
    (database.runAssignment statements group.id [2] [9223372036854775808]).1 = .raised ∧
      (database.runAssignment statements group.id [2] [9223372036854775808]).2.deviceGroups =
        [⟨1, 1⟩, ⟨2, 1⟩] := by
  have hdocumented : database.Documented group [] [2, 3] :=
    .inr (.inr ⟨2, List.mem_cons_self, by decide, List.not_mem_nil⟩)
  have hnone : (database.runAssignment statements group.id [] [2, 3]).1 = .returned none := by
    decide
  refine ⟨⟨hdocumented, hnone, fun h => ?_⟩, by decide, by decide⟩
  unfold Database.Exact at h
  rcases hchange : database.runAssignment statements group.id [] [2, 3] with ⟨⟨_ | err⟩ | _, db'⟩
  · rw [hchange] at h
    exact h.1 hdocumented
  · rw [hchange] at hnone
    cases hnone
  · rw [hchange] at hnone
    cases hnone

end Rdfm.Server
