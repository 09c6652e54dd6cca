import Rdfm.Frontend.GroupDialog

/-!
# What the dialog does to a group

Each stage of `configureGroup` fails, or does its part of the change and nothing else
(`StageAnswers`); the conditions of the later stages do not depend on what the earlier ones have
done, so together they are one condition on the database at the start.
-/

namespace Rdfm.Frontend

open Rdfm.Lib Rdfm.Server

/-! ## Stages -/

section Stages

variable {σ ε : Type*} {f : σ → Except ε σ} {fs : List (σ → Except ε σ)} {s s' : σ} {e : ε}

theorem runStages_error (h : f s = .error e) : runStages (f :: fs) s = (some e, s) := by
  rw [runStages, h]

theorem runStages_ok (h : f s = .ok s') : runStages (f :: fs) s = runStages fs s' := by
  rw [runStages, h]

end Stages

/-- A stage fails, or it is accepted and does its part of the change. -/
def StageAnswers {ε : Type*} (s : Session) (identifier : Int) (answer : Except ε Session)
    (accepts : Prop) (done : Database → Prop) : Prop :=
  ¬ accepts ∧ (∃ e, answer = .error e) ∨
    accepts ∧ ∃ s', answer = .ok s' ∧ done s'.db ∧ s.db.Changed s'.db identifier

section Answers

variable {env : DialogEnv} {s : Session} {identifier : Int} {accepts : Prop}
  {done : Database → Prop}

theorem send_answers {call : GroupCall} {handler : Database → Except Nat Database}
    (h : s.db.Answers identifier (handler s.db) accepts done) :
    StageAnswers s identifier (send env call handler s) (env.refuses call = none ∧ accepts) done := by
  unfold StageAnswers send
  cases hrefuses : env.refuses call with
  | some code => exact .inl ⟨by simp, _, rfl⟩
  | none =>
    rcases h with ⟨hnot, code, hcode⟩ | ⟨haccepts, db, hdb, hdone, hchanged⟩
    · dsimp only
      rw [hcode]
      exact .inl ⟨fun h => hnot h.2, _, rfl⟩
    · dsimp only
      rw [hdb]
      exact .inr ⟨⟨rfl, haccepts⟩, _, rfl, hdone, hchanged⟩

theorem StageAnswers.mapError {ε ε' : Type*} {answer : Except ε Session}
    (h : StageAnswers s identifier answer accepts done) (f : ε → ε') :
    StageAnswers s identifier (answer.mapError f) accepts done := by
  rcases h with ⟨hnot, e, rfl⟩ | ⟨haccepts, s', rfl, hdone, hchanged⟩
  · exact .inl ⟨hnot, f e, rfl⟩
  · exact .inr ⟨haccepts, s', rfl, hdone, hchanged⟩

theorem StageAnswers.congr {ε : Type*} {answer : Except ε Session} {accepts' : Prop}
    {done' : Database → Prop} (h : StageAnswers s identifier answer accepts done)
    (haccepts : accepts ↔ accepts') (hdone : ∀ db, accepts → done db → done' db) :
    StageAnswers s identifier answer accepts' done' := by
  rcases h with ⟨hnot, herror⟩ | ⟨hyes, s', hs', hd, hchanged⟩
  · exact .inl ⟨haccepts.not.mp hnot, herror⟩
  · exact .inr ⟨haccepts.mp hyes, s', hs', hdone _ hyes hd, hchanged⟩

theorem StageAnswers.skip {ε : Type*} (haccepts : accepts) (hdone : done s.db) :
    StageAnswers s identifier (.ok s : Except ε Session) accepts done :=
  .inr ⟨haccepts, s, rfl, hdone, .refl _ _⟩

end Answers

/-! ## The lists of the dialog -/

namespace GroupDialog

/-- Edits change no identifier. -/
structure Opened (d : GroupDialog) (group : GroupSchema) (r : Resources) : Prop where
  id : d.id = group.id
  initial : d.initial = group
  packages : d.packageList.map DataEntry.id = r.packages
  devices : d.deviceList.map DataEntry.id = r.devices

section Lists

variable {d : GroupDialog} {group : GroupSchema} {r : Resources}

theorem opened_open (group : GroupSchema) (r : Resources) :
    (openConfigureGroupPopup group r).Opened group r := by
  refine ⟨rfl, rfl, ?_, ?_⟩ <;> simp [openConfigureGroupPopup, Function.comp_def]

theorem map_id_modify (l : List DataEntry) (i : Nat) :
    (l.modify i fun e => { e with selected := !e.selected }).map DataEntry.id =
      l.map DataEntry.id := by
  induction l generalizing i with
  | nil => simp
  | cons e l ih =>
    cases i with
    | zero => simp
    | succ i => simp [ih]

theorem Opened.edit (h : d.Opened group r) (e : DialogEdit) : (d.edit e).Opened group r := by
  cases e with
  | priority | policy => exact ⟨h.id, h.initial, h.packages, h.devices⟩
  | selectPackage i => exact ⟨h.id, h.initial, (map_id_modify _ i).trans h.packages, h.devices⟩
  | selectDevice i => exact ⟨h.id, h.initial, h.packages, (map_id_modify _ i).trans h.devices⟩

theorem Opened.edits (h : d.Opened group r) (edits : List DialogEdit) :
    (edits.foldl GroupDialog.edit d).Opened group r := by
  induction edits generalizing d with
  | nil => exact h
  | cons e edits ih => exact ih (h.edit e)

theorem selected_nodup {l : List DataEntry} (h : (l.map DataEntry.id).Nodup) :
    ((l.filter DataEntry.selected).map DataEntry.id).Nodup :=
  h.sublist (List.filter_sublist.map _)

theorem Opened.newDevices_nodup (h : d.Opened group r) : d.newDevices.Nodup :=
  selected_nodup (h.devices ▸ r.devices_nodup)

theorem Opened.newPackages_nodup (h : d.Opened group r) : d.newPackages.Nodup :=
  selected_nodup (h.packages ▸ r.packages_nodup)

theorem mem_newDevices_iff {i : Int} :
    (i ∈ d.initial.devices ∨ i ∈ d.addedDevices) ∧ i ∉ d.removedDevices ↔ i ∈ d.newDevices := by
  simp only [addedDevices, removedDevices, List.mem_filter, decide_eq_true_eq]
  tauto

/-- In a list as the dialog first shows it, the members of the group are selected. -/
theorem mem_selected_iff {listed members : List Int} {i : Int} :
    i ∈ ((listed.map fun j => (⟨j, decide (j ∈ members)⟩ : DataEntry)).filter
      DataEntry.selected).map DataEntry.id ↔ i ∈ members ∧ i ∈ listed := by
  simp only [List.filter_map, List.map_map, List.mem_map, List.mem_filter, Function.comp_apply,
    decide_eq_true_eq]
  constructor
  · rintro ⟨j, ⟨hlisted, hmember⟩, rfl⟩
    exact ⟨hmember, hlisted⟩
  · rintro ⟨hmember, hlisted⟩
    exact ⟨i, ⟨hlisted, hmember⟩, rfl⟩

theorem mem_newDevices_open {i : Int} :
    i ∈ (openConfigureGroupPopup group r).newDevices ↔ i ∈ group.devices ∧ i ∈ r.devices :=
  mem_selected_iff

theorem mem_newPackages_open {p : Int} :
    p ∈ (openConfigureGroupPopup group r).newPackages ↔ p ∈ group.packages ∧ p ∈ r.packages :=
  mem_selected_iff

end Lists

/-! ## The four stages -/

section Configure

variable {env : DialogEnv} {d : GroupDialog} {s : Session} {group : Group}
  {devices packages : Int → Prop}

variable (env) in
theorem configurePriority_answers (h : s.db.Configured group (· ∈ d.initial.devices) packages)
    (hid : d.id = group.id) (hpriority : d.initial.priority = group.priority) :
    StageAnswers s d.id (d.configurePriority env s) (d.AcceptsPriority env s.db) fun db =>
      ∃ p, env.readPriority d.priority = some p ∧
        db.Configured { group with priority := p } (· ∈ d.initial.devices) packages := by
  unfold configurePriority
  split
  · next hsame =>
    refine .skip (fun hne => (hne hsame).elim) ⟨group.priority, ?_, h⟩
    rw [hsame, hpriority]
    rfl
  · next hedited =>
    refine .mapError ?_ _
    unfold updatePriorityRequest AcceptsPriority
    rw [hid]
    cases hread : env.readPriority d.priority with
    | none =>
      have hanswers : s.db.Answers group.id (.error 400) False fun _ => True :=
        .inl ⟨fun hfalse => hfalse, 400, rfl⟩
      refine (send_answers hanswers).congr ?_ fun _ hnot => hnot.2.elim
      simp [hedited]
    | some p =>
      refine (send_answers (s.db.changePriority_answers h p)).congr ?_ fun db _ hdone => ⟨p, rfl, hdone⟩
      simp [hedited]

theorem configureDevices_answers (h : s.db.Configured group (· ∈ d.initial.devices) packages)
    (hid : d.id = group.id) (hnodup : d.newDevices.Nodup)
    (hread : env.readPriority d.priority = some group.priority) :
    StageAnswers s d.id (d.configureDevices env s) (d.AcceptsDevices env s.db)
      (·.Configured group (· ∈ d.newDevices) packages) := by
  unfold configureDevices
  split
  · next hsame =>
    refine .skip (fun hne => (hne hsame).elim) (h.congr (fun i => ?_) fun _ => Iff.rfl)
    rw [← mem_newDevices_iff, hsame.1, hsame.2]
    simp
  · next hedited =>
    refine .mapError ?_ _
    unfold patchDevicesRequest AcceptsDevices
    rw [hid]
    have hnew (i : Int) (hi : i ∈ d.addedDevices) : i ∉ d.initial.devices := by
      simpa using (List.mem_filter.mp hi).2
    have hadd : d.addedDevices.Nodup := hnodup.filter _
    refine (send_answers (s.db.changeAssigned_answers h hadd hnew)).congr ?_ ?_
    · simp [hedited, hread]
    · exact fun db _ hdone => hdone.congr (fun i => mem_newDevices_iff) fun _ => Iff.rfl

variable (env) in
theorem configurePackages_answers (h : s.db.Configured group devices (· ∈ d.initial.packages))
    (hid : d.id = group.id) (hnodup : d.newPackages.Nodup) :
    StageAnswers s d.id (d.configurePackages env s) (d.AcceptsPackages env s.db)
      (·.Configured group devices (· ∈ d.newPackages)) := by
  unfold configurePackages
  split
  · next hsame =>
    refine .skip (fun hne => (hne hsame).elim) ?_
    rw [← hsame]
    exact h
  · next hedited =>
    refine .mapError ?_ _
    unfold updatePackagesRequest AcceptsPackages
    rw [hid]
    refine (send_answers (s.db.assignPackage_answers h hnodup)).congr ?_ fun _ _ hdone => hdone
    simp [hedited]

variable (env) in
theorem configurePolicy_answers (h : s.db.Configured group devices packages) (hid : d.id = group.id)
    (hpolicy : d.initial.policy = group.policy) :
    StageAnswers s d.id (d.configurePolicy env s) (d.AcceptsPolicy env)
      (·.Configured { group with policy := d.policy } devices packages) := by
  unfold configurePolicy
  split
  · next hsame =>
    refine .skip (fun hne => (hne hsame).elim) ?_
    rw [hsame, hpolicy]
    exact h
  · next hedited =>
    split
    · next hempty => exact .inl ⟨fun haccepts => (haccepts hedited).1 hempty, _, rfl⟩
    · next hnonempty =>
      refine .mapError ?_ _
      unfold updatePolicyRequest AcceptsPolicy
      rw [hid]
      split
      · next hformat => exact .inl ⟨fun haccepts => hformat (haccepts hedited).2.1, _, rfl⟩
      · next hformat =>
        refine (send_answers (s.db.updatePolicy_answers h d.policy)).congr ?_ fun _ _ hdone => hdone
        simp only [not_not] at hformat
        simp [hedited, hnonempty, hformat]

/-- The conditions on devices and packages do not depend on the rest of the group. -/
theorem acceptsDevices_iff {db db' : Database} (h : db.Changed db' d.id) :
    d.AcceptsDevices env db' ↔ d.AcceptsDevices env db := by
  unfold AcceptsDevices
  simp only [h.registered_iff, h.free_iff]

theorem acceptsPackages_iff {db db' : Database} (h : db.Changed db' d.id) :
    d.AcceptsPackages env db' ↔ d.AcceptsPackages env db := by
  unfold AcceptsPackages
  rw [h.packages]

variable (env) in
/-- What comes of the dialog, if the page has seen the group as it is. -/
theorem configureGroup_spec {r : Resources} (hgroup : group ∈ s.db.groups)
    (hcached : (s.groups.find? fun g => g.id = group.id) = some (s.db.modelToSchema group))
    (h : d.Opened (s.db.modelToSchema group) r) :
    s.db.Changed (d.configureGroup env s).2.db d.id ∧
      (∃ g ∈ (d.configureGroup env s).2.db.groups, g.id = group.id) ∧
      (¬ d.Accepts env s.db ∧ (∃ n, (d.configureGroup env s).1 = .failed n) ∨
        d.Accepts env s.db ∧ (d.configureGroup env s).1 = .closed d.requestWasMade ∧
          ∃ p, env.readPriority d.priority = some p ∧
            (d.configureGroup env s).2.db.Configured ⟨group.id, d.policy, p⟩ (· ∈ d.newDevices)
              (· ∈ d.newPackages)) := by
  have hid : d.id = group.id := h.id
  have hfind : (s.groups.find? fun g => g.id = d.id) = some (s.db.modelToSchema group) := by
    rw [hid]
    exact hcached
  have hinitial := h.initial
  unfold configureGroup
  rw [hfind]
  dsimp only
  rw [if_neg (not_not.mpr hinitial.symm)]
  have hconfigured : s.db.Configured group (· ∈ d.initial.devices) (· ∈ d.initial.packages) := by
    rw [hinitial]
    exact Database.configured_modelToSchema hgroup
  have h₁ := configurePriority_answers env hconfigured hid (by rw [hinitial]; rfl)
  rcases h₁ with ⟨hnot, n, hn⟩ | ⟨haccepts₁, s₁, hs₁, ⟨p, hp, hdone₁⟩, hchanged₁⟩
  · rw [runStages_error hn]
    exact ⟨.refl _ _, ⟨group, hgroup, rfl⟩, .inl ⟨fun haccepts => hnot haccepts.priority, n, rfl⟩⟩
  rw [runStages_ok hs₁]
  have h₂ := configureDevices_answers hdone₁ hid h.newDevices_nodup hp
  rw [acceptsDevices_iff hchanged₁] at h₂
  rcases h₂ with ⟨hnot, n, hn⟩ | ⟨haccepts₂, s₂, hs₂, hdone₂, hchanged₂⟩
  · rw [runStages_error hn]
    exact ⟨hchanged₁, ⟨_, hdone₁.row, rfl⟩, .inl ⟨fun haccepts => hnot haccepts.devices, n, rfl⟩⟩
  rw [runStages_ok hs₂]
  have hchanged₂ := hchanged₁.trans hchanged₂
  have h₃ := configurePackages_answers env hdone₂ hid h.newPackages_nodup
  rw [acceptsPackages_iff hchanged₂] at h₃
  rcases h₃ with ⟨hnot, n, hn⟩ | ⟨haccepts₃, s₃, hs₃, hdone₃, hchanged₃⟩
  · rw [runStages_error hn]
    exact ⟨hchanged₂, ⟨_, hdone₂.row, rfl⟩, .inl ⟨fun haccepts => hnot haccepts.packages, n, rfl⟩⟩
  rw [runStages_ok hs₃]
  have hchanged₃ := hchanged₂.trans hchanged₃
  have h₄ := configurePolicy_answers env hdone₃ hid (by rw [hinitial]; rfl)
  rcases h₄ with ⟨hnot, n, hn⟩ | ⟨haccepts₄, s₄, hs₄, hdone₄, hchanged₄⟩
  · rw [runStages_error hn]
    exact ⟨hchanged₃, ⟨_, hdone₃.row, rfl⟩, .inl ⟨fun haccepts => hnot haccepts.policy, n, rfl⟩⟩
  rw [runStages_ok hs₄]
  exact ⟨hchanged₃.trans hchanged₄, ⟨_, hdone₄.row, rfl⟩,
    .inr ⟨⟨haccepts₁, haccepts₂, haccepts₃, haccepts₄⟩, rfl, p, hp, hdone₄⟩⟩

end Configure

end GroupDialog

/-! ## An example -/

namespace DialogRun

/-- Two groups with a device each, and a package in the first of them. -/
def database : Database where
  devices := [⟨1, "kitchen", "02:00:00:00:00:01", ∅, none⟩, ⟨2, "hall", "02:00:00:00:00:02", ∅, none⟩]
  groups := [⟨1, "no_update,", 5⟩, ⟨2, "no_update,", 7⟩]
  deviceGroups := [⟨1, 1⟩, ⟨2, 2⟩]
  deviceTags := []
  packages := [10]
  groupPackages := [⟨1, 10⟩]
  logs := []
  permissions := []
  constraints := by decide

def group : Group := ⟨1, "no_update,", 5⟩

/-- A user who may do everything. -/
def env : DialogEnv where
  refuses _ := none
  looks _ := true
  readInt t := if t = "7" then some 7 else none
  reads _ := true

def session : Session := ⟨database, fetchGroups env database⟩

def resources : Resources := ⟨[10], [1, 2], by decide, by decide⟩

/-- A page that does not list the first device. -/
def partly : Resources := ⟨[10], [2], by decide, by decide⟩

def opened (r : Resources) : GroupDialog := openConfigureGroupPopup (database.modelToSchema group) r

theorem group_mem : group ∈ session.db.groups := by decide

theorem group_cached : (session.groups.find? fun g => g.id = group.id) =
    some (session.db.modelToSchema group) := by decide

/-- The priority of the second group, and its device. -/
def conflicting : List DialogEdit := [.priority "7", .selectDevice 1]

def dialog : GroupDialog := conflicting.foldl GroupDialog.edit (opened resources)

end DialogRun

/-! ## Results -/

section Results

open GroupDialog

/-- What the dialog does, after any edits, when the page has seen the group as it is. It is closed if
and only if each part of the change is accepted; the group then is as the dialog shows it. Whatever
comes of it, nothing but the group has changed. -/
theorem configure_iff (env : DialogEnv) {s : Session} {group : Group} (hgroup : group ∈ s.db.groups)
    (hcached : (s.groups.find? fun g => g.id = group.id) = some (s.db.modelToSchema group))
    (r : Resources) (edits : List DialogEdit) :
    let d := edits.foldl GroupDialog.edit (openConfigureGroupPopup (s.db.modelToSchema group) r)
    let answer := d.configureGroup env s
    (answer.1 = .closed d.requestWasMade ↔ d.Accepts env s.db) ∧
      (d.Accepts env s.db → ∃ p, env.readPriority d.priority = some p ∧
        answer.2.db.Configured ⟨group.id, d.policy, p⟩ (· ∈ d.newDevices) (· ∈ d.newPackages)) ∧
      s.db.Changed answer.2.db group.id := by
  intro d answer
  have hopened := (opened_open (s.db.modelToSchema group) r).edits edits
  obtain ⟨hchanged, -, hcases⟩ := configureGroup_spec env hgroup hcached hopened
  have hid : d.id = group.id := hopened.id
  rw [hid] at hchanged
  rcases hcases with ⟨hnot, n, hn⟩ | ⟨haccepts, hclosed, hdone⟩
  · refine ⟨iff_of_false (fun hclosed => ?_) hnot, fun haccepts => (hnot haccepts).elim, hchanged⟩
    cases hn.symm.trans hclosed
  · exact ⟨iff_of_true hclosed haccepts, fun _ => hdone, hchanged⟩

theorem configure_iff_added :
    ([DialogEdit.selectDevice 1].foldl GroupDialog.edit (DialogRun.opened DialogRun.resources)).Accepts
      DialogRun.env DialogRun.session.db :=
  (configure_iff DialogRun.env DialogRun.group_mem DialogRun.group_cached DialogRun.resources
    [.selectDevice 1]).1.mp (by decide)

/-- A dialog that is confirmed without an edit, and whose calls all come to their handlers, removes
from the group the devices and the packages that the page does not list. -/
theorem configure_untouched {env : DialogEnv} (henv : ∀ call, env.refuses call = none) {s : Session}
    {group : Group} (hgroup : group ∈ s.db.groups)
    (hcached : (s.groups.find? fun g => g.id = group.id) = some (s.db.modelToSchema group))
    (r : Resources) :
    let answer := (openConfigureGroupPopup (s.db.modelToSchema group) r).configureGroup env s
    (∃ notified, answer.1 = .closed notified) ∧
      answer.2.db.Configured group (fun i => ⟨i, group.id⟩ ∈ s.db.deviceGroups ∧ i ∈ r.devices)
        (fun p => ⟨group.id, p⟩ ∈ s.db.groupPackages ∧ p ∈ r.packages) ∧
      s.db.Changed answer.2.db group.id := by
  intro answer
  have hopened := opened_open (s.db.modelToSchema group) r
  have hconfigured := Database.configured_modelToSchema hgroup
  have haccepts : (openConfigureGroupPopup (s.db.modelToSchema group) r).Accepts env s.db := by
    refine ⟨fun hne => (hne rfl).elim, fun _ => ⟨henv _, fun i hi => ?_⟩, fun _ =>
      ⟨henv _, fun p hp => ?_⟩, fun hne => (hne rfl).elim⟩
    · simp only [addedDevices, List.mem_filter, decide_eq_true_eq] at hi
      exact (hi.2 (mem_newDevices_open.mp hi.1).1).elim
    · have hmember := (hconfigured.packages p).mpr (mem_newPackages_open.mp hp).1
      exact s.db.constraints.groupPackages_package _ hmember
  obtain ⟨hchanged, -, hcases⟩ := configureGroup_spec env hgroup hcached hopened
  rcases hcases with ⟨hnot, -⟩ | ⟨-, hclosed, p, hp, hdone⟩
  · exact (hnot haccepts).elim
  · refine ⟨⟨_, hclosed⟩, ?_, hchanged⟩
    cases hp
    refine hdone.congr (fun i => ?_) fun p => ?_
    · rw [mem_newDevices_open, ← hconfigured.devices]
    · rw [mem_newPackages_open, ← hconfigured.packages]

theorem configure_untouched_partly :
    ⟨1, 1⟩ ∉ ((DialogRun.opened DialogRun.partly).configureGroup DialogRun.env
      DialogRun.session).2.db.deviceGroups := by
  have henv (call : GroupCall) : DialogRun.env.refuses call = none := rfl
  obtain ⟨-, hdone, -⟩ := configure_untouched henv DialogRun.group_mem DialogRun.group_cached
    DialogRun.partly
  intro hmember
  have hlisted := ((hdone.devices 1).mp hmember).2
  revert hlisted
  decide

end Results

/-! ## After a failure -/

section Stuck

variable {env : DialogEnv} {s : Session} {d : GroupDialog}

theorem find?_fetchGroups {db : Database} {group : Group} (hgroup : group ∈ db.groups)
    (hreads : env.reads group.id = true) :
    ((fetchGroups env db).find? fun g => g.id = group.id) = some (db.modelToSchema group) := by
  have hids : (fetchGroups env db).map GroupSchema.id =
      (db.groups.filter fun g => env.reads g.id).map Group.id := by
    simp [fetchGroups, Database.modelToSchema, Function.comp_def]
  refine (find?_key_eq_some ?_).mpr ⟨?_, rfl⟩
  · rw [hids]
    exact db.constraints.groups.sublist (List.filter_sublist.map _)
  · exact List.mem_map_of_mem (List.mem_filter.mpr ⟨hgroup, hreads⟩)

/-- The page has looked at the groups since the last change, and seen them if the looks succeed. -/
structure Looked (env : DialogEnv) (success : Prop) (s : Session) : Prop where
  upToDate : s.groups = fetchGroups env s.db ∨ s.groups = []
  seen : success → s.groups = fetchGroups env s.db

theorem looked_fetchResources (env : DialogEnv) (db : Database) {success : Prop} {look : Bool}
    (h : success → look = true) : Looked env success (fetchResources env db look) := by
  cases look with
  | true => exact ⟨.inl rfl, fun _ => rfl⟩
  | false => exact ⟨.inr rfl, fun hsuccess => (Bool.false_ne_true (h hsuccess)).elim⟩

/-- The page shows the group otherwise than the dialog once did, or no group. -/
structure Overtaken (env : DialogEnv) (success : Prop) (db : Database) (initial : GroupSchema)
    (page : Page) : Prop where
  unchanged : page.session.db = db
  dialog : ∃ d, page.dialog = some d ∧ d.id = initial.id ∧ d.initial = initial
  looked : Looked env success page.session
  listed : ∃ g ∈ db.groups, g.id = initial.id ∧ env.reads g.id = true ∧
    db.modelToSchema g ≠ initial

/-- A submission is refused, or meets a page without groups. -/
theorem Overtaken.refuses {success : Prop} {db : Database} {initial : GroupSchema} {page : Page}
    (h : Overtaken env success db initial page) {d : GroupDialog} (hd : page.dialog = some d) :
    d.configureGroup env page.session = (.failed modificationDetected, page.session) ∨
      ¬ success ∧ d.configureGroup env page.session = (.crashed, page.session) := by
  obtain ⟨d', hd', hid, hinitial⟩ := h.dialog
  rw [hd, Option.some.injEq] at hd'
  subst hd'
  obtain ⟨g, hg, hgid, hreads, hne⟩ := h.listed
  have hseen (hgroups : page.session.groups = fetchGroups env page.session.db) :
      d.configureGroup env page.session = (.failed modificationDetected, page.session) := by
    unfold GroupDialog.configureGroup
    rw [hgroups, h.unchanged, hid, ← hgid, find?_fetchGroups hg hreads]
    dsimp only
    rw [hinitial, if_pos hne]
  by_cases hsuccess : success
  · exact .inl (hseen (h.looked.seen hsuccess))
  · rcases h.looked.upToDate with hgroups | hgroups
    · exact .inl (hseen hgroups)
    · unfold GroupDialog.configureGroup
      rw [hgroups]
      exact .inr ⟨hsuccess, rfl⟩

/-- No event of the page changes that. -/
theorem Overtaken.step {success : Prop} {db : Database} {initial : GroupSchema} {page page' : Page}
    {event : PageEvent} {answer : Option DialogEnd} (h : Overtaken env success db initial page)
    (hevent : success → event ≠ .poll false) (hstep : page.step env event = some (page', answer)) :
    Overtaken env success db initial page' ∧ (answer = none ∨
      answer = some (.failed modificationDetected) ∨ ¬ success ∧ answer = some .crashed) := by
  obtain ⟨d, hd, hid, hinitial⟩ := h.dialog
  cases event with
  | edit e =>
    simp only [Page.step, hd, Option.map_some, Option.some.injEq, Prod.mk.injEq] at hstep
    obtain ⟨rfl, rfl⟩ := hstep
    refine ⟨⟨h.unchanged, ⟨d.edit e, rfl, ?_, ?_⟩, h.looked, h.listed⟩, .inl rfl⟩
    · cases e <;> exact hid
    · cases e <;> exact hinitial
  | poll look =>
    simp only [Page.step, Option.some.injEq, Prod.mk.injEq] at hstep
    obtain ⟨rfl, rfl⟩ := hstep
    have hlook (hsuccess : success) : look = true := by
      cases look with
      | true => rfl
      | false => exact (hevent hsuccess rfl).elim
    exact ⟨⟨h.unchanged, h.dialog, looked_fetchResources env _ hlook, h.listed⟩, .inl rfl⟩
  | submit =>
    have hkept : Overtaken env success db initial ⟨page.session, some d⟩ :=
      ⟨h.unchanged, ⟨d, rfl, hid, hinitial⟩, h.looked, h.listed⟩
    rcases h.refuses hd with hrefused | ⟨hfails, hcrashed⟩
    · simp only [Page.step, hd, Option.map_some, hrefused, Option.some.injEq, Prod.mk.injEq] at hstep
      obtain ⟨rfl, rfl⟩ := hstep
      exact ⟨hkept, .inr (.inl rfl)⟩
    · simp only [Page.step, hd, Option.map_some, hcrashed, Option.some.injEq, Prod.mk.injEq] at hstep
      obtain ⟨rfl, rfl⟩ := hstep
      exact ⟨hkept, .inr (.inr ⟨hfails, rfl⟩)⟩

end Stuck

end Rdfm.Frontend
