import Mathlib.Data.List.Sort
import Rdfm.Server.Database

/-!
# Logs of devices

Listing and deletion of logs are two queries with the same conditions, in which an absent value and an
empty list are no condition at all. The routes pass no empty list: a group without devices is answered
before the query. What is deleted is what would have been listed (`delete_removes_listed`); an empty
name is an absent one.
-/

namespace Rdfm.Server

/-! ## The table -/

structure Log (τ : Type*) where
  id : Int
  created : τ
  deviceId : Int
  deviceTimestamp : τ
  name : String
  entry : String
deriving DecidableEq, Repr

/-- The database with the whole rows of its table `logs`, in which `id` is the primary key. -/
structure LogStore (τ : Type*) where
  database : Database
  rows : List (Log τ)
  devices : rows.map Log.deviceId = database.logs
  keys : (rows.map Log.id).Nodup

/-- The arguments of `LogsDB.fetch` and `LogsDB.delete`. -/
structure LogFilter (τ : Type*) where
  deviceIdentifiers : Option (List Int)
  names : Option (List String)
  timeFrom : Option τ
  timeTo : Option τ

/-- The parameters of the four routes; `upTo` is `to`. -/
structure LogRouteParameters (τ : Type*) where
  since : Option τ
  upTo : Option τ
  name : Option String
deriving Repr

/-- `column.in_(values) if values else True`. -/
def oneOf {α : Type*} [BEq α] (values : Option (List α)) (x : α) : Bool :=
  match values with
  | none | some [] => true
  | some (v :: vs) => (v :: vs).contains x

section Queries

variable {τ : Type*} [LE τ] [DecidableLE τ]

/-- The conditions of both queries. A `datetime` is never false. -/
def LogFilter.covers (f : LogFilter τ) (r : Log τ) : Bool :=
  oneOf f.deviceIdentifiers r.deviceId && oneOf f.names r.name &&
    f.timeFrom.all (fun t => decide (t ≤ r.deviceTimestamp)) &&
    f.timeTo.all fun t => decide (r.deviceTimestamp ≤ t)

/-- `LogsDB.fetch`. -/
def fetchLogs (f : LogFilter τ) (rows : List (Log τ)) : List (Log τ) :=
  (rows.filter f.covers).insertionSort fun r r' => r'.deviceTimestamp ≤ r.deviceTimestamp

theorem mem_fetchLogs {f : LogFilter τ} {rows : List (Log τ)} {r : Log τ} :
    r ∈ fetchLogs f rows ↔ r ∈ rows ∧ f.covers r = true := by
  unfold fetchLogs
  rw [List.mem_insertionSort, List.mem_filter]

end Queries

/-- A constraint holds of fewer log rows. -/
theorem Constraints.withLogs {t : Tables} (h : Constraints t) {logs : List Int}
    (hlogs : logs ⊆ t.logs) : Constraints { t with logs } where
  devices := h.devices
  groups := h.groups
  deviceGroups := h.deviceGroups
  deviceTags := h.deviceTags
  packages := h.packages
  groupPackages := h.groupPackages
  deviceGroups_device := h.deviceGroups_device
  deviceGroups_group := h.deviceGroups_group
  deviceTags_device := h.deviceTags_device
  groupPackages_group := h.groupPackages_group
  groupPackages_package := h.groupPackages_package
  logs_device := fun d hd => h.logs_device d (hlogs hd)

/-- The devices of a group, by the assignments alone. -/
theorem Database.mem_map_fetchAssigned {db : Database} {identifier deviceId : Int} :
    deviceId ∈ (db.fetchAssigned identifier).map Device.id ↔
      ⟨deviceId, identifier⟩ ∈ db.deviceGroups := by
  constructor
  · intro h
    obtain ⟨d, hd, rfl⟩ := List.mem_map.mp h
    obtain ⟨a, ha, hd⟩ := List.mem_flatMap.mp hd
    obtain ⟨ha, hgroup⟩ := List.mem_filter.mp ha
    obtain ⟨-, hid⟩ := List.mem_filter.mp hd
    rw [of_decide_eq_true hid, ← of_decide_eq_true hgroup]
    exact ha
  · intro h
    obtain ⟨d, hd, rfl⟩ := Database.exists_fetchAssigned h
    exact List.mem_map_of_mem hd

/-! ## The routes -/

/-- The `identifier` of a route, of a device or of a group. -/
inductive LogTarget where
  | device (identifier : Int)
  | group (identifier : Int)
deriving DecidableEq, Repr

inductive LogResponse (τ : Type*) where
  | logs (rows : List (Log τ))
  /-- `{}`. -/
  | nothing
  | apiError (message : String) (status : Nat)

def LogResponse.rows {τ : Type*} : LogResponse τ → List (Log τ)
  | .logs rows => rows
  | .nothing | .apiError _ _ => []

namespace LogStore

section Keys

variable {τ : Type*}

/-- `DevicesDB.fetch_one`. -/
def fetchDevice (s : LogStore τ) (identifier : Int) : Option Device :=
  s.database.devices.find? fun d => d.id = identifier

variable {s : LogStore τ}

/-- A log is of a device that there is. -/
theorem fetchDevice_ne_none {r : Log τ} (hr : r ∈ s.rows) : s.fetchDevice r.deviceId ≠ none := by
  have hlog : r.deviceId ∈ s.database.logs := s.devices ▸ List.mem_map_of_mem hr
  obtain ⟨d, hd, hid⟩ := List.mem_map.mp (s.database.constraints.logs_device _ hlog)
  intro hnone
  exact List.find?_eq_none.mp hnone d hd (decide_eq_true hid)

/-- An assignment is to a group that there is. -/
theorem fetchGroup_ne_none {d g : Int} (h : ⟨d, g⟩ ∈ s.database.deviceGroups) :
    s.database.fetchGroup g ≠ none := by
  obtain ⟨group, hgroup, hid⟩ := List.mem_map.mp (s.database.constraints.deviceGroups_group _ h)
  intro hnone
  exact List.find?_eq_none.mp hnone group hgroup (decide_eq_true hid)

end Keys

variable {τ : Type*} [LE τ] [DecidableLE τ] (s : LogStore τ)

/-- `LogsDB.delete`. No table refers to the logs. -/
def delete (f : LogFilter τ) : LogStore τ where
  database :=
    { s.database with
      logs := (s.rows.filter fun r => !f.covers r).map Log.deviceId
      constraints := s.database.constraints.withLogs <| by
        rw [← s.devices]
        exact List.map_subset _ List.filter_sublist.subset }
  rows := s.rows.filter fun r => !f.covers r
  devices := rfl
  keys := s.keys.sublist (List.filter_sublist.map Log.id)

/-- What the routes make of their parameters: the name is in a list if it is true. -/
def filterOf (identifiers : List Int) (params : LogRouteParameters τ) : LogFilter τ where
  deviceIdentifiers := some identifiers
  names := (params.name.filter fun name => !name.isEmpty).map fun name => [name]
  timeFrom := params.since
  timeTo := params.upTo

/-- `fetch_by_device_id`. -/
def fetchByDeviceId (identifier : Int) (params : LogRouteParameters τ) : LogResponse τ :=
  match s.fetchDevice identifier with
  | none => .apiError s!"device with an ID of {identifier} does not exist" 404
  | some _ => .logs (fetchLogs (filterOf [identifier] params) s.rows)

/-- `fetch_by_group_id`. -/
def fetchByGroupId (identifier : Int) (params : LogRouteParameters τ) : LogResponse τ :=
  match s.database.fetchGroup identifier with
  | none => .apiError s!"group with an ID of {identifier} does not exist" 404
  | some _ =>
    match s.database.fetchAssigned identifier with
    | [] => .nothing
    | devices => .logs (fetchLogs (filterOf (devices.map Device.id) params) s.rows)

/-- `delete_by_device_id`. -/
def deleteByDeviceId (identifier : Int) (params : LogRouteParameters τ) :
    LogResponse τ × LogStore τ :=
  match s.fetchDevice identifier with
  | none => (.apiError s!"device with an ID of {identifier} does not exist" 404, s)
  | some _ => (.nothing, s.delete (filterOf [identifier] params))

/-- `delete_by_group_id`. -/
def deleteByGroupId (identifier : Int) (params : LogRouteParameters τ) :
    LogResponse τ × LogStore τ :=
  match s.database.fetchGroup identifier with
  | none => (.apiError s!"group with an ID of {identifier} does not exist" 404, s)
  | some _ =>
    match s.database.fetchAssigned identifier with
    | [] => (.nothing, s)
    | devices => (.nothing, s.delete (filterOf (devices.map Device.id) params))

def fetchRoute (params : LogRouteParameters τ) : LogTarget → LogResponse τ
  | .device identifier => s.fetchByDeviceId identifier params
  | .group identifier => s.fetchByGroupId identifier params

def deleteRoute (params : LogRouteParameters τ) : LogTarget → LogResponse τ × LogStore τ
  | .device identifier => s.deleteByDeviceId identifier params
  | .group identifier => s.deleteByGroupId identifier params

/-! ## What is addressed -/

/-- The device, or a device of the group. -/
def Addresses : LogTarget → Int → Prop
  | .device identifier, deviceId => deviceId = identifier
  | .group identifier, deviceId => ⟨deviceId, identifier⟩ ∈ s.database.deviceGroups

end LogStore

/-- A bound of the time range excludes the row. -/
def LogRouteParameters.OutOfRange {τ : Type*} [LE τ] (params : LogRouteParameters τ) (r : Log τ) :
    Prop :=
  (∃ t, params.since = some t ∧ ¬ t ≤ r.deviceTimestamp) ∨
    ∃ t, params.upTo = some t ∧ ¬ r.deviceTimestamp ≤ t

/-- Deletion removes exactly the rows that the listing shows before it, and leaves nothing to list. -/
structure LogStore.RemovesListed {τ : Type*} [LE τ] [DecidableLE τ] (s : LogStore τ)
    (params : LogRouteParameters τ) (target : LogTarget) : Prop where
  removed : ∀ r, r ∈ s.rows ∧ r ∉ (s.deleteRoute params target).2.rows ↔
    r ∈ (s.fetchRoute params target).rows
  sublist : (s.deleteRoute params target).2.rows.Sublist s.rows
  again : ((s.deleteRoute params target).2.fetchRoute params target).rows = []

/-- Every log of another device, with another name (if one is asked for) or out of the time range is
kept. -/
def LogStore.KeepsOthers {τ : Type*} [LE τ] [DecidableLE τ] (s : LogStore τ)
    (params : LogRouteParameters τ) (target : LogTarget) (asked : Option String) : Prop :=
  ∀ r ∈ s.rows,
    ¬ s.Addresses target r.deviceId ∨ (∃ name, asked = some name ∧ r.name ≠ name) ∨
      params.OutOfRange r →
    r ∈ (s.deleteRoute params target).2.rows

namespace LogStore

variable {τ : Type*} [LE τ] [DecidableLE τ] {s : LogStore τ} {params : LogRouteParameters τ}
  {target : LogTarget}

/-! ## The two queries of a route -/

theorem oneOf_singleton {α : Type*} [BEq α] [LawfulBEq α] {v x : α} :
    oneOf (some [v]) x = true ↔ x = v := by
  unfold oneOf
  rw [List.contains_iff_mem, List.mem_singleton]

theorem oneOf_of_ne_nil {α : Type*} [BEq α] [LawfulBEq α] {values : List α} {x : α}
    (hne : values ≠ []) : oneOf (some values) x = true ↔ x ∈ values := by
  cases values with
  | nil => exact absurd rfl hne
  | cons v vs => exact List.contains_iff_mem

/-- What the query of a route selects, for a list of devices that is not empty. -/
theorem filterOf_covers_iff {identifiers : List Int} (hne : identifiers ≠ []) {r : Log τ} :
    (filterOf identifiers params).covers r = true ↔
      r.deviceId ∈ identifiers ∧
      (∀ name, (params.name.filter fun name => !name.isEmpty) = some name → r.name = name) ∧
      ¬ params.OutOfRange r := by
  have hname : oneOf (filterOf identifiers params).names r.name = true ↔
      ∀ name, (params.name.filter fun name => !name.isEmpty) = some name → r.name = name := by
    unfold filterOf
    cases params.name.filter fun name => !name.isEmpty with
    | none => exact ⟨fun _ _ h => (nomatch h), fun _ => rfl⟩
    | some name =>
      rw [Option.map_some, oneOf_singleton]
      exact ⟨fun h _ he => h.trans (Option.some.inj he), fun h => h name rfl⟩
  have hrange : ¬ params.OutOfRange r ↔
      params.since.all (fun t => decide (t ≤ r.deviceTimestamp)) = true ∧
        params.upTo.all (fun t => decide (r.deviceTimestamp ≤ t)) = true := by
    unfold LogRouteParameters.OutOfRange
    cases params.since <;> cases params.upTo <;> simp
  unfold LogFilter.covers
  rw [Bool.and_eq_true, Bool.and_eq_true, Bool.and_eq_true, hname, hrange, and_assoc, and_assoc]
  exact and_congr_left fun _ => oneOf_of_ne_nil hne

/-- Both routes of a target ask nothing, and then no log is of an addressed device; or they ask for
its devices, of which there is one. -/
theorem route_cases (s : LogStore τ) (params : LogRouteParameters τ) (target : LogTarget) :
    ((s.fetchRoute params target).rows = [] ∧ (s.deleteRoute params target).2 = s ∧
      ∀ r ∈ s.rows, ¬ s.Addresses target r.deviceId) ∨
    ∃ identifiers, identifiers ≠ [] ∧ (∀ d, d ∈ identifiers ↔ s.Addresses target d) ∧
      (s.fetchRoute params target).rows = fetchLogs (filterOf identifiers params) s.rows ∧
      (s.deleteRoute params target).2 = s.delete (filterOf identifiers params) := by
  cases target with
  | device identifier =>
    cases hdevice : s.fetchDevice identifier with
    | none =>
      simp only [fetchRoute, deleteRoute, fetchByDeviceId, deleteByDeviceId, hdevice]
      refine .inl ⟨rfl, trivial, ?_⟩
      rintro r hr rfl
      exact fetchDevice_ne_none hr hdevice
    | some d =>
      simp only [fetchRoute, deleteRoute, fetchByDeviceId, deleteByDeviceId, hdevice]
      exact .inr ⟨[identifier], nofun, fun d => List.mem_singleton, rfl, rfl⟩
  | group identifier =>
    cases hgroup : s.database.fetchGroup identifier with
    | none =>
      simp only [fetchRoute, deleteRoute, fetchByGroupId, deleteByGroupId, hgroup]
      exact .inl ⟨rfl, trivial, fun r _ haddressed => fetchGroup_ne_none haddressed hgroup⟩
    | some g =>
      cases hassigned : s.database.fetchAssigned identifier with
      | nil =>
        simp only [fetchRoute, deleteRoute, fetchByGroupId, deleteByGroupId, hgroup, hassigned]
        refine .inl ⟨rfl, trivial, fun r _ haddressed => ?_⟩
        have hmem := Database.mem_map_fetchAssigned.mpr haddressed
        rw [hassigned] at hmem
        cases hmem
      | cons d devices =>
        simp only [fetchRoute, deleteRoute, fetchByGroupId, deleteByGroupId, hgroup, hassigned]
        refine .inr ⟨(d :: devices).map Device.id, nofun, fun deviceId => ?_, rfl, rfl⟩
        rw [← hassigned]
        exact Database.mem_map_fetchAssigned

/-! ## Deletion and listing -/

theorem mem_delete {f : LogFilter τ} {r : Log τ} :
    r ∈ (s.delete f).rows ↔ r ∈ s.rows ∧ f.covers r = false := by
  unfold delete
  rw [List.mem_filter, Bool.not_eq_true']

/-- What a route lists after a deletion is left, and is what its devices and parameters select. -/
theorem mem_fetchRoute_delete {f : LogFilter τ} {identifiers : List Int}
    (hne : identifiers ≠ []) (hid : ∀ d, d ∈ identifiers ↔ s.Addresses target d) :
    ∀ r ∈ ((s.delete f).fetchRoute params target).rows,
      r ∈ (s.delete f).rows ∧ (filterOf identifiers params).covers r = true := by
  intro r hr
  rcases route_cases (s.delete f) params target with ⟨hnone, -, -⟩ |
    ⟨identifiers', hne', hid', hfetch, -⟩
  · rw [hnone] at hr
    cases hr
  · rw [hfetch, mem_fetchLogs, filterOf_covers_iff hne'] at hr
    obtain ⟨hr, hdevice, hrest⟩ := hr
    refine ⟨hr, (filterOf_covers_iff hne).mpr ⟨?_, hrest⟩⟩
    have haddressed : (s.delete f).Addresses target r.deviceId := (hid' _).mp hdevice
    cases target <;> exact (hid _).mpr haddressed

theorem removesListed (s : LogStore τ) (params : LogRouteParameters τ) (target : LogTarget) :
    s.RemovesListed params target := by
  rcases route_cases s params target with ⟨hnone, hsame, -⟩ | ⟨identifiers, hne, hid, hfetch, hdelete⟩
  · constructor
    · intro r
      rw [hnone, hsame]
      exact ⟨fun ⟨hr, hnot⟩ => absurd hr hnot, fun h => (nomatch h)⟩
    · rw [hsame]
    · rw [hsame]
      exact hnone
  · constructor
    · intro r
      rw [hfetch, hdelete, mem_fetchLogs, mem_delete]
      constructor
      · rintro ⟨hr, hnot⟩
        exact ⟨hr, by simpa [hr] using hnot⟩
      · rintro ⟨hr, hcovers⟩
        exact ⟨hr, by simp [hcovers]⟩
    · rw [hdelete]
      exact List.filter_sublist
    · rw [hdelete, List.eq_nil_iff_forall_not_mem]
      intro r hr
      obtain ⟨hr, hcovers⟩ := mem_fetchRoute_delete hne hid r hr
      rw [(mem_delete.mp hr).2] at hcovers
      cases hcovers

theorem keepsOthers (s : LogStore τ) (params : LogRouteParameters τ) (target : LogTarget) :
    s.KeepsOthers params target (params.name.filter fun name => !name.isEmpty) := by
  intro r hr hother
  rcases route_cases s params target with ⟨-, hsame, -⟩ | ⟨identifiers, hne, hid, -, hdelete⟩
  · rw [hsame]
    exact hr
  · rw [hdelete, mem_delete, ← Bool.not_eq_true, filterOf_covers_iff hne, hid]
    refine ⟨hr, fun ⟨haddressed, hname, hrange⟩ => ?_⟩
    rcases hother with h | ⟨name, hasked, h⟩ | h
    · exact h haddressed
    · exact h (hname name hasked)
    · exact hrange h

end LogStore

/-- **Deletion removes what listing shows**, in every table, for every device and group and all
parameters, and keeps every other log. An empty name asks for no name. -/
theorem delete_removes_listed {τ : Type*} [LE τ] [DecidableLE τ] (s : LogStore τ)
    (params : LogRouteParameters τ) (target : LogTarget) :
    s.RemovesListed params target ∧
      s.KeepsOthers params target (params.name.filter fun name => !name.isEmpty) :=
  ⟨s.removesListed params target, s.keepsOthers params target⟩

/-- A device with one log. -/
def oneLog : LogStore Int where
  database :=
    { devices := [⟨1, "device", "d", ∅, none⟩]
      groups := []
      deviceGroups := []
      deviceTags := []
      packages := []
      groupPackages := []
      logs := [1]
      permissions := []
      constraints := by decide }
  rows := [⟨1, 0, 1, 0, "CPU", "0.123"⟩]
  devices := rfl
  keys := by decide

/-- With an empty name, the log goes whose name is another one. -/
theorem delete_with_empty_name :
    ¬ oneLog.KeepsOthers ⟨none, none, some ""⟩ (.device 1) (some "") := by
  intro h
  have hkept := h ⟨1, 0, 1, 0, "CPU", "0.123"⟩ (List.mem_singleton_self _)
    (.inr (.inl ⟨"", rfl, by decide⟩))
  revert hkept
  decide

end Rdfm.Server
