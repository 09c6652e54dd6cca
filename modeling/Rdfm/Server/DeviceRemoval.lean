import Rdfm.Server.ActionLogClearing
import Rdfm.Server.PermissionRows
import Rdfm.Server.RegistrationRaces

/-!
# The removal of a device

What refers to a device by its identifier is deleted with it, except for its logs, whose foreign key
then refuses the deletion. The tables `action_logs` and `device_updates` and the threads of
`send_action_queue` name a device by its address, with no key, and are left as they are: a device that
registers again under the address finds the rows, and is sent the actions. A removal is complete, in
every continuation, exactly if none of this is there (`removal_complete_iff`).
-/

namespace Rdfm.Server

open Rdfm.Lib

/-! ## The server -/

/-- The tables, and the threads that work on the actions. -/
structure DeviceServer extends Store where
  actions : ActionServer
  deviceUpdates : List DeviceUpdate

/-- Transactions, messages and steps of threads, as they come. -/
inductive ServerEvent where
  /-- Devices, groups, packages, their assignments, and permissions. -/
  | permission (op : PermissionOperation)
  | updatePriority (group priority : Int)
  | createRegistration (mac publicKey : String) (metadata : Metadata)
  | deleteRegistration (mac publicKey : String)
  | updateKey (mac publicKey : String)
  | updateMetadata (mac : String) (metadata : Metadata)
  | addTag (identifier : Int) (tag : String)
  /-- A device sends some logs. -/
  | createLogs (identifier : Int) (count : Nat)
  /-- The deletion of one row of the logs. -/
  | deleteLog (i : Nat)
  | action (e : ActionEvent)
  /-- An update check offers a package. -/
  | insertUpdate (u : DeviceUpdate)
  | updateProgress (mac : String) (progress : Int)
  | deleteUpdate (mac : String)

namespace DeviceServer

def init : DeviceServer := ⟨⟨.empty, []⟩, .init, []⟩

variable (s : DeviceServer)

/-- One event. A transaction that fails is rolled back. -/
def next : ServerEvent → DeviceServer
  | .permission op => { s with db := op.run s.db }
  | .updatePriority group priority =>
    { s with db := (GroupOperation.updatePriority group priority).run s.db }
  | .createRegistration mac publicKey metadata =>
    { s with toStore := (s.createRegistration mac publicKey metadata).1 }
  | .deleteRegistration mac publicKey =>
    { s with toStore := (s.deleteRegistration mac publicKey).1 }
  | .updateKey mac publicKey => { s with toStore := (s.toStore.updateKey mac publicKey).1 }
  | .updateMetadata mac metadata => { s with toStore := (s.toStore.updateMetadata mac metadata).1 }
  | .addTag identifier tag => { s with toStore := (s.toStore.addTag identifier tag).1 }
  | .createLogs identifier count =>
    { s with toStore := (s.transact (Database.commit { s.db.toTables with
      logs := s.db.logs ++ List.replicate count identifier })).1 }
  | .deleteLog i =>
    { s with toStore := (s.transact (Database.commit { s.db.toTables with
      logs := s.db.logs.eraseIdx i })).1 }
  | .action e => { s with actions := s.actions.next e }
  | .insertUpdate u => { s with deviceUpdates := s.deviceUpdates ++ [u] }
  | .updateProgress mac progress =>
    { s with
      deviceUpdates := updateWhere (fun u => u.macAddress = mac) (fun u => { u with progress })
        s.deviceUpdates }
  | .deleteUpdate mac =>
    { s with deviceUpdates := s.deviceUpdates.filter fun u => u.macAddress ≠ mac }

/-- The server after a run of events. -/
def after (events : List ServerEvent) : DeviceServer := events.foldl DeviceServer.next s

/-- The request that deletes a device: the response, and the server. -/
def remove (identifier : Int) : Response × DeviceServer :=
  match (removeDevice 0 (.deleteDevice identifier) identifier).exec ⟨s.toStore, []⟩ with
  | (w, response) => (response, { s with toStore := w.store })

/-- The new row of a device, when its registration is accepted. -/
def register (device : Device) : Option DeviceServer :=
  (s.db.insertDevice device).map fun db => { s with db }

end DeviceServer

/-! ## What events make -/

/-- The row of a permission may come from this operation. -/
def PermissionOperation.Grants (p : Permission) : PermissionOperation → Prop
  | request perm => perm.row = .ok p
  | newResource resource identifier userId =>
    p.resource = resource ∧ p.userId = userId ∧ p.resourceId = some identifier
  | _ => False

namespace ServerEvent

def Grants (p : Permission) : ServerEvent → Prop
  | .permission op => op.Grants p
  | _ => False

/-- An action is queued for the device of an address. -/
def Queues (id mac : String) : ServerEvent → Prop
  | .action (.execute id' _ mac') => id' = id ∧ mac' = mac
  | _ => False

/-- A version is offered to the device of an address. -/
def Offers (mac version : String) : ServerEvent → Prop
  | .insertUpdate u => u.macAddress = mac ∧ u.version = version
  | _ => False

end ServerEvent

/-! ## The contract -/

/-- The device starts with nothing of the old one: what it has comes from the events since. -/
structure CleanStart (old : Device) (events : List ServerEvent) (d : Device) (s : DeviceServer) :
    Prop where
  groups : ∀ g, ⟨d.id, g⟩ ∉ s.db.deviceGroups
  tags : ∀ tag, ⟨d.id, tag⟩ ∉ s.db.deviceTags
  permissions : ∀ p ∈ s.db.permissions, p.resource = .device → p.resourceId = some old.id →
    ∃ e ∈ events, e.Grants p
  actionLogs : ∀ r ∈ s.actions.rows, r.macAddress = old.macAddress →
    ∃ e ∈ events, e.Queues r.id old.macAddress
  updates : ∀ u ∈ s.deviceUpdates, u.macAddress = old.macAddress →
    ∃ e ∈ events, e.Offers old.macAddress u.version

/-- What `send_action_queue` sends to the address next was queued in the events since. -/
def SendsOnly (mac : String) (events : List ServerEvent) (s : DeviceServer) : Prop :=
  ∀ t q id actions, s.actions.queues t = some q → q.macAddress = mac →
    s.actions.step (.queue t .send) = some (actions, .sent id) → ∃ e ∈ events, e.Queues id mac

/-- The removal of a device succeeds, and leaves nothing of it to a device that registers under its
address later. -/
structure RemovedCompletely (s : DeviceServer) (old : Device) : Prop where
  done : (s.remove old.id).1 = .done
  gone : ∀ d ∈ (s.remove old.id).2.db.devices, d.id ≠ old.id
  clean : ∀ before d registered, d.macAddress = old.macAddress →
    ((s.remove old.id).2.after before).register d = some registered →
      CleanStart old before d registered
  queue : ∀ before d registered events, d.macAddress = old.macAddress →
    ((s.remove old.id).2.after before).register d = some registered →
      SendsOnly old.macAddress (before ++ events) (registered.after events)

/-- Nothing refers to the device that its deletion overlooks. -/
structure Untraced (s : DeviceServer) (d : Device) : Prop where
  logs : d.id ∉ s.db.logs
  actionLogs : ∀ r ∈ s.actions.rows, r.macAddress ≠ d.macAddress
  updates : ∀ u ∈ s.deviceUpdates, u.macAddress ≠ d.macAddress
  queues : ∀ t q, s.actions.queues t = some q → q.macAddress = d.macAddress → q.toSend = []

/-! ## The deletion -/

section Removal

variable {s : DeviceServer} {d : Device}

/-- The logs of a device are all that keeps its row. -/
theorem deleteDevice_eq_some_iff {db : Database} {identifier : Int} :
    (∃ db', db.deleteDevice identifier = some db') ↔ identifier ∉ db.logs := by
  constructor
  · rintro ⟨db', hdelete⟩ hlog
    have hdevice := db'.constraints.logs_device identifier
    rw [Database.commit_eq_some hdelete] at hdevice
    obtain ⟨d, hd, hid⟩ := List.mem_map.mp (hdevice hlog)
    exact of_decide_eq_true (List.mem_filter.mp hd).2 hid
  · intro hlog
    have hkept (x : Int) (hx : x ∈ db.devices.map Device.id) (hne : x ≠ identifier) :
        x ∈ (db.devices.filter fun d => d.id ≠ identifier).map Device.id := by
      obtain ⟨d, hd, rfl⟩ := List.mem_map.mp hx
      exact List.mem_map_of_mem (List.mem_filter.mpr ⟨hd, decide_eq_true hne⟩)
    refine ⟨_, dif_pos { db.constraints with
      devices := db.constraints.devices.sublist (List.filter_sublist.map _)
      deviceGroups := db.constraints.deviceGroups.filter _
      deviceTags := db.constraints.deviceTags.filter _
      deviceGroups_device := fun a ha => ?_
      deviceGroups_group := fun a ha => ?_
      deviceTags_device := fun a ha => ?_
      logs_device := fun x hx => ?_ }⟩
    · obtain ⟨ha, hne⟩ := List.mem_filter.mp ha
      exact hkept _ (db.constraints.deviceGroups_device a ha) (of_decide_eq_true hne)
    · exact db.constraints.deviceGroups_group a (List.mem_filter.mp ha).1
    · obtain ⟨ha, hne⟩ := List.mem_filter.mp ha
      exact hkept _ (db.constraints.deviceTags_device a ha) (of_decide_eq_true hne)
    · refine hkept x (db.constraints.logs_device x hx) ?_
      rintro rfl
      exact hlog hx

/-- The request deletes the row of a device that there is, or reports that it could not. -/
theorem remove_eq (hd : d ∈ s.db.devices) :
    s.remove d.id =
      match s.db.deleteDevice d.id with
      | some db => (.done, { s with db })
      | none => (.error "removal failed" 500, s) := by
  have hfind : s.db.devices.find? (fun d' => d'.id = d.id) = some d :=
    (find?_key_eq_some s.db.constraints.devices).mpr ⟨hd, rfl⟩
  unfold DeviceServer.remove removeDevice
  cases hdelete : s.db.deleteDevice d.id with
  | none | some db =>
    simp only [Routine.exec_bind, perform, Routine.exec, Store.fetchDevice, hfind,
      Store.deleteDevice, Store.transact, hdelete]
    rfl

end Removal

/-! ## Where rows come from -/

section Permissions

variable {db : Database} {p : Permission}

theorem mem_permissions_createPermission {q : Permission}
    (h : p ∈ (db.createPermission q).2.permissions) : p ∈ db.permissions ∨ p = q := by
  unfold Database.createPermission at h
  split at h
  · exact .inl h
  · exact (List.mem_append.mp h).imp_right List.mem_singleton.mp

theorem mem_permissions_newResource {resource : Resource} {identifier : Int} {userId : String}
    {names : List String}
    (h : p ∈ (names.foldl (fun db permission =>
      (db.createPermission ⟨resource, userId, some identifier, none, permission⟩).2) db).permissions) :
    p ∈ db.permissions ∨
      p.resource = resource ∧ p.userId = userId ∧ p.resourceId = some identifier := by
  induction names generalizing db with
  | nil => exact .inl h
  | cons name names ih =>
    rcases ih h with hmem | hnew
    · rcases mem_permissions_createPermission hmem with hmem | rfl
      · exact .inl hmem
      · exact .inr ⟨rfl, rfl, rfl⟩
    · exact .inr hnew

/-- A transaction makes no permission. -/
theorem mem_permissions_commit {t : Tables} {db' : Database}
    (hcommit : Database.commit t = some db') (ht : t.permissions ⊆ db.permissions)
    (h : p ∈ db'.permissions) : p ∈ db.permissions := by
  rw [Database.commit_eq_some hcommit] at h
  exact ht h

theorem mem_permissions_getD {t : Tables} (h : p ∈ ((Database.commit t).getD db).permissions)
    (ht : t.permissions ⊆ db.permissions) : p ∈ db.permissions := by
  cases hcommit : Database.commit t with
  | none =>
    rw [hcommit] at h
    exact h
  | some db' =>
    rw [hcommit] at h
    exact mem_permissions_commit hcommit ht h

theorem mem_permissions_changeAssignment {group : Int} {additions removals : List Int}
    (h : p ∈ (db.changeAssignment group additions removals).2.permissions) :
    p ∈ db.permissions := by
  unfold Database.changeAssignment at h
  split at h
  · exact h
  · split at h
    · exact h
    · next db₁ hcommit₁ =>
      have hsame : db₁.permissions ⊆ db.permissions := fun q hq =>
        mem_permissions_commit hcommit₁ (List.Subset.refl _) hq
      split at h
      · exact hsame h
      · next db₂ hcommit₂ => exact hsame (mem_permissions_commit hcommit₂ (List.Subset.refl _) h)

theorem mem_permissions_updatePriority {group priority : Int}
    (h : p ∈ ((GroupOperation.updatePriority group priority).run db).permissions) :
    p ∈ db.permissions := by
  rw [GroupOperation.run] at h
  unfold Database.updatePriority Database.tryCommit at h
  split at h
  · next db' hupdate =>
    split at hupdate
    · cases hupdate
    · split at hupdate
      · next hcommit =>
        cases hupdate
        exact mem_permissions_commit hcommit (List.Subset.refl _) h
      · cases hupdate
  · exact h

/-- A permission is asked for, or added with a new resource. -/
theorem PermissionOperation.mem_permissions {op : PermissionOperation}
    (h : p ∈ (op.run db).permissions) : p ∈ db.permissions ∨ op.Grants p := by
  cases op with
  | request perm =>
    rw [PermissionOperation.run] at h
    unfold Database.requestPermission at h
    cases hrow : perm.row with
    | error err =>
      rw [hrow] at h
      exact .inl h
    | ok q =>
      rw [hrow] at h
      dsimp only at h
      have hmem : p ∈ (db.createPermission q).2.permissions := by
        rcases hcreate : db.createPermission q with ⟨_ | err, db'⟩ <;> rw [hcreate] at h <;> exact h
      refine (mem_permissions_createPermission hmem).imp_right ?_
      rintro rfl
      exact hrow
  | newResource resource identifier userId => exact mem_permissions_newResource h
  | removePermission i => exact .inl (List.mem_of_mem_eraseIdx h)
  | insertDevice device => exact .inl (mem_permissions_getD h (List.Subset.refl _))
  | deleteDevice identifier => exact .inl (mem_permissions_getD h List.filter_sublist.subset)
  | createGroup group =>
    rw [PermissionOperation.run] at h
    unfold Database.createGroup at h
    split at h
    · next hcommit => exact .inl (mem_permissions_commit hcommit (List.Subset.refl _) h)
    · exact .inl h
  | deleteGroup identifier =>
    rw [PermissionOperation.run] at h
    unfold Database.deleteGroup at h
    split at h
    · next hcommit => exact .inl (mem_permissions_commit hcommit List.filter_sublist.subset h)
    · exact .inl h
  | createPackage identifier => exact .inl (mem_permissions_getD h (List.Subset.refl _))
  | deletePackage identifier =>
    rw [PermissionOperation.run] at h
    unfold Database.deletePackage at h
    split at h
    · next hcommit => exact .inl (mem_permissions_commit hcommit List.filter_sublist.subset h)
    · exact .inl h
  | assignDevices group additions removals => exact .inl (mem_permissions_changeAssignment h)
  | assignPackages group packages =>
    rw [PermissionOperation.run] at h
    unfold Database.modifyPackage at h
    split at h
    · next hcommit => exact .inl (mem_permissions_commit hcommit (List.Subset.refl _) h)
    · exact .inl h

theorem mem_permissions_transact {s : Store} {t : Tables}
    (h : p ∈ (s.transact (Database.commit t)).1.db.permissions)
    (ht : t.permissions = s.db.permissions) : p ∈ s.db.permissions := by
  unfold Store.transact at h
  split at h
  · next hcommit => exact mem_permissions_commit hcommit (ht ▸ List.Subset.refl _) h
  · exact h

end Permissions

namespace ActionServer

variable {s s' : ActionServer} {e : ActionEvent} {o : ActionOutput} {t : Nat} {q : QueueThread}
  {id : String}

/-- What a queue thread may send it had to send before, or has fetched from the rows. -/
theorem toSend_step (hstep : s.step e = some (s', o)) (hq : s'.queues t = some q)
    (hid : id ∈ q.toSend) :
    (∃ old, s.queues t = some old ∧ old.macAddress = q.macAddress ∧ id ∈ old.toSend) ∨
      ∃ r ∈ s.rows, r.id = id ∧ r.macAddress = q.macAddress := by
  have hsame (h : s'.queues t = s.queues t) :
      ∃ old, s.queues t = some old ∧ old.macAddress = q.macAddress ∧ id ∈ old.toSend :=
    ⟨q, h.symm.trans hq, rfl, hid⟩
  cases e with
  | execute id actionId macAddress =>
    obtain ⟨-, rfl, -⟩ := step_execute_iff.mp hstep
    exact .inl (hsame rfl)
  | handler id e =>
    obtain ⟨h, -, hstep⟩ := step_handler_iff.mp hstep
    exact .inl (hsame (congrFun (handlerStep_frame hstep).1 t))
  | connect t' macAddress =>
    obtain ⟨-, rfl, -⟩ := step_connect_iff.mp hstep
    by_cases ht : t = t'
    · subst ht
      cases (Function.update_self t _ s.queues).symm.trans hq
      cases hid
    · exact .inl (hsame (Function.update_of_ne ht _ _))
  | queue t' e =>
    obtain ⟨old, hold, hstep⟩ := step_queue_iff.mp hstep
    by_cases ht : t = t'
    · subst ht
      obtain ⟨hmac, hsend | ⟨-, r, hr, rfl⟩⟩ := queueStep_fetched hstep hq hid
      · exact .inl ⟨old, hold, hmac.symm, hsend⟩
      · obtain ⟨hr, hpending⟩ := List.mem_filter.mp hr
        exact .inr ⟨r, hr, rfl, (of_decide_eq_true hpending).1.trans hmac.symm⟩
    · exact .inl (hsame ((queueStep_frame hstep).2.2.2 t ht))
  | control c id status =>
    obtain ⟨-, heq⟩ := step_control_iff.mp hstep
    have hqueues : (s.executeActionControl id status).1.queues = s.queues := control_queues
    rw [heq] at hqueues
    exact .inl (hsame (congrFun hqueues t))
  | result c id code output =>
    obtain ⟨-, heq⟩ := step_result_iff.mp hstep
    have hqueues : (s.executeActionResult c id code output).1.queues = s.queues := result_queues
    rw [heq] at hqueues
    exact .inl (hsame (congrFun hqueues t))
  | store c =>
    obtain ⟨p, -, rfl, -⟩ := step_store_iff.mp hstep
    exact .inl (hsame rfl)
  | delete d =>
    cases hstep
    exact .inl (hsame rfl)

end ActionServer

namespace DeviceServer

variable {s : DeviceServer} {e : ServerEvent} {p : Permission} {r : ActionLog} {u : DeviceUpdate}
  {t : Nat} {q : QueueThread} {id : String}

theorem mem_permissions_next (h : p ∈ (s.next e).db.permissions) :
    p ∈ s.db.permissions ∨ e.Grants p := by
  cases e with
  | permission op => exact op.mem_permissions h
  | updatePriority group priority => exact .inl (mem_permissions_updatePriority h)
  | createRegistration mac publicKey metadata =>
    rw [next] at h
    unfold Store.createRegistration at h
    dsimp only at h
    split at h <;> exact .inl h
  | updateKey mac publicKey | updateMetadata mac metadata | addTag identifier tag
  | createLogs identifier count | deleteLog i => exact .inl (mem_permissions_transact h rfl)
  | _ => exact .inl h

/-- A row of an action is that of a new execution, or was there, with another status. -/
theorem mem_rows_next (h : r ∈ (s.next e).actions.rows) :
    e.Queues r.id r.macAddress ∨
      ∃ old ∈ s.actions.rows, old.id = r.id ∧ old.macAddress = r.macAddress := by
  cases e with
  | action e =>
    rw [next] at h
    unfold ActionServer.next at h
    split at h
    · exact .inr ⟨r, h, rfl, rfl⟩
    · next s' o hstep =>
      dsimp only at h
      rcases ActionServer.step_rows hstep with ⟨id, actionId, macAddress, rfl, hrows⟩ |
        ⟨id, status, downloadUrl, hrows⟩ | hsubset
      · rw [hrows] at h
        rcases List.mem_append.mp h with h | h
        · exact .inr ⟨r, h, rfl, rfl⟩
        · cases List.mem_singleton.mp h
          exact .inl ⟨rfl, rfl⟩
      · rw [hrows] at h
        unfold updateStatus at h
        split at h
        · exact .inr ⟨r, h, rfl, rfl⟩
        · obtain ⟨old, hold, rfl⟩ := mem_updateWhere.mp h
          refine .inr ⟨old, hold, ?_⟩
          split <;> exact ⟨rfl, rfl⟩
      · exact .inr ⟨r, hsubset h, rfl, rfl⟩
  | _ => exact .inr ⟨r, h, rfl, rfl⟩

/-- A row of an update is that of an offer, or was there, with another progress. -/
theorem mem_updates_next (h : u ∈ (s.next e).deviceUpdates) :
    e.Offers u.macAddress u.version ∨
      ∃ old ∈ s.deviceUpdates, old.macAddress = u.macAddress ∧ old.version = u.version := by
  cases e with
  | insertUpdate new =>
    rcases List.mem_append.mp h with h | h
    · exact .inr ⟨u, h, rfl, rfl⟩
    · cases List.mem_singleton.mp h
      exact .inl ⟨rfl, rfl⟩
  | updateProgress mac progress =>
    obtain ⟨old, hold, rfl⟩ := mem_updateWhere.mp h
    refine .inr ⟨old, hold, ?_⟩
    split <;> exact ⟨rfl, rfl⟩
  | deleteUpdate mac => exact .inr ⟨u, (List.mem_filter.mp h).1, rfl, rfl⟩
  | _ => exact .inr ⟨u, h, rfl, rfl⟩

/-- What a queue thread may send it had to send before, or has fetched from the rows. -/
theorem toSend_next (h : (s.next e).actions.queues t = some q) (hid : id ∈ q.toSend) :
    (∃ old, s.actions.queues t = some old ∧ old.macAddress = q.macAddress ∧ id ∈ old.toSend) ∨
      ∃ r ∈ s.actions.rows, r.id = id ∧ r.macAddress = q.macAddress := by
  cases e with
  | action e =>
    rw [next] at h
    unfold ActionServer.next at h
    split at h
    · exact .inl ⟨q, h, rfl, hid⟩
    · next s' o hstep => exact ActionServer.toSend_step hstep h hid
  | _ => exact .inl ⟨q, h, rfl, hid⟩

end DeviceServer

/-! ## Since the deletion -/

section Since

variable {old d : Device} {events : List ServerEvent} {s registered : DeviceServer}

/-- Whatever names the old device was made by the events. -/
structure MadeSince (old : Device) (events : List ServerEvent) (s : DeviceServer) : Prop where
  permissions : ∀ p ∈ s.db.permissions, p.resource = .device → p.resourceId = some old.id →
    ∃ e ∈ events, e.Grants p
  actionLogs : ∀ r ∈ s.actions.rows, r.macAddress = old.macAddress →
    ∃ e ∈ events, e.Queues r.id old.macAddress
  updates : ∀ u ∈ s.deviceUpdates, u.macAddress = old.macAddress →
    ∃ e ∈ events, e.Offers old.macAddress u.version
  queues : ∀ t q, s.actions.queues t = some q → q.macAddress = old.macAddress →
    ∀ id ∈ q.toSend, ∃ e ∈ events, e.Queues id old.macAddress

theorem exists_mem_concat {P : ServerEvent → Prop} {e : ServerEvent}
    (h : (∃ x ∈ events, P x) ∨ P e) : ∃ x ∈ events ++ [e], P x := by
  rcases h with ⟨x, hx, hP⟩ | hP
  · exact ⟨x, List.mem_append_left _ hx, hP⟩
  · exact ⟨e, List.mem_append_right _ (List.mem_singleton_self e), hP⟩

/-- One event. -/
theorem MadeSince.next (h : MadeSince old events s) (e : ServerEvent) :
    MadeSince old (events ++ [e]) (s.next e) where
  permissions p hp hresource hid := by
    apply exists_mem_concat
    exact (DeviceServer.mem_permissions_next hp).imp_left (h.permissions p · hresource hid)
  actionLogs r hr hmac := by
    apply exists_mem_concat
    rcases DeviceServer.mem_rows_next hr with hnew | ⟨row, hrow, hid, hsame⟩
    · exact .inr (hmac ▸ hnew)
    · exact .inl (hid ▸ h.actionLogs row hrow (hsame.trans hmac))
  updates u hu hmac := by
    apply exists_mem_concat
    rcases DeviceServer.mem_updates_next hu with hnew | ⟨row, hrow, hsame, hversion⟩
    · exact .inr (hmac ▸ hnew)
    · exact .inl (hversion ▸ h.updates row hrow (hsame.trans hmac))
  queues t q hq hmac id hid := by
    apply exists_mem_concat
    rcases DeviceServer.toSend_next hq hid with ⟨q', hq', hsame, hid'⟩ | ⟨row, hrow, rfl, hsame⟩
    · exact .inl (h.queues t q' hq' (hsame.trans hmac) id hid')
    · exact .inl (h.actionLogs row hrow (hsame.trans hmac))

/-- A run of events. -/
theorem MadeSince.after (h : MadeSince old events s) (more : List ServerEvent) :
    MadeSince old (events ++ more) (s.after more) :=
  foldl_history (fun _ _ e hmade => hmade.next e) h more

/-- The deletion itself, if nothing is overlooked. -/
theorem Untraced.madeSince (h : Untraced s old) {db : Database}
    (hdelete : s.db.deleteDevice old.id = some db) : MadeSince old [] { s with db } where
  permissions p hp hresource hid := by
    dsimp only at hp
    rw [Database.commit_eq_some hdelete] at hp
    exact absurd ⟨hid, hresource⟩ (of_decide_eq_true (List.mem_filter.mp hp).2)
  actionLogs r hr hmac := absurd hmac (h.actionLogs r hr)
  updates u hu hmac := absurd hmac (h.updates u hu)
  queues t q hq hmac id hid := by
    rw [h.queues t q hq hmac] at hid
    cases hid

/-- A new row takes an identifier that no device has, and changes nothing else. -/
theorem register_eq_some (h : s.register d = some registered) :
    d.id ∉ s.db.devices.map Device.id ∧ registered.actions = s.actions ∧
      registered.deviceUpdates = s.deviceUpdates ∧
      registered.db.toTables = { s.db.toTables with devices := s.db.devices ++ [d] } := by
  obtain ⟨db, hinsert, rfl⟩ := Option.map_eq_some_iff.mp h
  have htables := Database.commit_eq_some hinsert
  refine ⟨fun hmem => ?_, rfl, rfl, htables⟩
  have hnodup := db.constraints.devices
  rw [htables, List.map_append, List.nodup_append] at hnodup
  exact hnodup.2.2 _ hmem _ (List.mem_singleton_self _) rfl

theorem MadeSince.register (h : MadeSince old events s) (hreg : s.register d = some registered) :
    MadeSince old events registered := by
  obtain ⟨-, hactions, hupdates, htables⟩ := register_eq_some hreg
  constructor
  · rw [htables]
    exact h.permissions
  · rw [hactions]
    exact h.actionLogs
  · rw [hupdates]
    exact h.updates
  · rw [hactions]
    exact h.queues

/-- The new device starts with what was made since. -/
theorem MadeSince.cleanStart (h : MadeSince old events s)
    (hreg : s.register d = some registered) : CleanStart old events d registered := by
  obtain ⟨hnew, -, -, htables⟩ := register_eq_some hreg
  have hmade := h.register hreg
  refine ⟨fun g hg => ?_, fun tag htag => ?_, hmade.permissions, hmade.actionLogs, hmade.updates⟩
  · rw [htables] at hg
    exact hnew (s.db.constraints.deviceGroups_device _ hg)
  · rw [htables] at htag
    exact hnew (s.db.constraints.deviceTags_device _ htag)

theorem MadeSince.sendsOnly (h : MadeSince old events s) :
    SendsOnly old.macAddress events s := by
  intro t q id actions hq hmac hstep
  obtain ⟨q', hq', hstep⟩ := ActionServer.step_queue_iff.mp hstep
  cases hq.symm.trans hq'
  exact h.queues t q hq hmac id (ActionServer.queueStep_sent hstep)

end Since

/-! ## Completeness -/

section Complete

variable {s : DeviceServer} {d : Device}

theorem Untraced.removedCompletely (hd : d ∈ s.db.devices) (h : Untraced s d) :
    RemovedCompletely s d := by
  obtain ⟨db, hdelete⟩ := deleteDevice_eq_some_iff.mpr h.logs
  have hremove : s.remove d.id = (.done, { s with db }) := by
    rw [remove_eq hd, hdelete]
  have hmade := h.madeSince hdelete
  constructor
  · rw [hremove]
  · rw [hremove]
    intro d' hd'
    dsimp only at hd'
    rw [Database.commit_eq_some hdelete] at hd'
    exact of_decide_eq_true (List.mem_filter.mp hd').2
  · rw [hremove]
    intro before d' registered _ hreg
    exact (hmade.after before).cleanStart hreg
  · rw [hremove]
    intro before d' registered events _ hreg
    exact (((hmade.after before).register hreg).after events).sendsOnly

/-- A device with an address can always be registered. -/
theorem exists_register (s : DeviceServer) (d : Device) :
    ∃ d' registered, d'.macAddress = d.macAddress ∧ s.register d' = some registered := by
  obtain ⟨identifier, hfresh⟩ :=
    Infinite.exists_notMem_finset (s.db.devices.map Device.id).toFinset
  rw [List.mem_toFinset] at hfresh
  have hnew : ∀ d' ∈ s.db.devices, d'.id ≠ ({ d with id := identifier } : Device).id :=
    fun d' hd' hid => hfresh (List.mem_map.mpr ⟨d', hd', hid⟩)
  obtain ⟨_, hinsert⟩ := Store.insertDevice_eq (s := s.toStore) hnew
  unfold Store.insertDevice Store.transact at hinsert
  split at hinsert
  · next db hdb =>
    refine ⟨{ d with id := identifier }, { s with db }, rfl, ?_⟩
    rw [DeviceServer.register, hdb]
    rfl
  · cases congrArg Prod.snd hinsert

/-- A queue thread that has an action to send gets to send it. -/
theorem exists_sent {t : Nat} {q : QueueThread} (hq : s.actions.queues t = some q)
    (hsend : q.toSend ≠ []) :
    ∃ events q' id actions, (∀ e ∈ events, e = .action (.queue t .add)) ∧
      (s.after events).actions.queues t = some q' ∧ q'.macAddress = q.macAddress ∧
      (s.after events).actions.step (.queue t .send) = some (actions, .sent id) := by
  have hself (actions : ActionServer) (q' : Option QueueThread) :
      Function.update actions.queues t q' t = q' := Function.update_self ..
  have hstep {actions : ActionServer} {action : ActionLog} {rest : List ActionLog}
      (h : actions.queues t = some { q with phase := .sending action rest }) :
      ∃ actions', actions.step (.queue t .send) = some (actions', .sent action.id) := by
    rw [ActionServer.step, h]
    exact ⟨_, rfl⟩
  cases hphase : q.phase with
  | waiting =>
    rw [QueueThread.toSend, hphase] at hsend
    exact absurd rfl hsend
  | running rest =>
    cases rest with
    | nil =>
      rw [QueueThread.toSend, hphase] at hsend
      exact absurd rfl hsend
    | cons action rest =>
      have hadd : s.actions.next (.queue t .add) =
          (s.actions.setQueue t (some { q with phase := .sending action rest })).setExecution
            action.id (some .queue) := by
        rw [ActionServer.next, ActionServer.step, hq]
        dsimp only
        rw [ActionServer.queueStep, hphase]
      have hq' : (s.after [.action (.queue t .add)]).actions.queues t =
          some { q with phase := .sending action rest } := by
        change (s.actions.next (.queue t .add)).queues t = _
        rw [hadd]
        exact hself s.actions _
      obtain ⟨actions, hsent⟩ := hstep hq'
      exact ⟨[.action (.queue t .add)], _, action.id, actions,
        fun e he => List.mem_singleton.mp he, hq', rfl, hsent⟩
  | sending action rest =>
    have hq' : s.actions.queues t = some { q with phase := .sending action rest } := by
      rw [hq, ← hphase]
    obtain ⟨actions, hsent⟩ := hstep hq'
    exact ⟨[], _, action.id, actions, fun e he => absurd he List.not_mem_nil, hq', rfl, hsent⟩

theorem RemovedCompletely.untraced (hd : d ∈ s.db.devices) (h : RemovedCompletely s d) :
    Untraced s d := by
  cases hdelete : s.db.deleteDevice d.id with
  | none =>
    have hdone := h.done
    rw [remove_eq hd, hdelete] at hdone
    cases hdone
  | some db =>
    have hremove : s.remove d.id = (.done, { s with db }) := by
      rw [remove_eq hd, hdelete]
    obtain ⟨d', registered, hmac, hreg⟩ := exists_register { s with db } d
    obtain ⟨-, hactions, hupdates, -⟩ := register_eq_some hreg
    have hreg' : ((s.remove d.id).2.after []).register d' = some registered := by
      rw [hremove]
      exact hreg
    have hclean := h.clean [] d' registered hmac hreg'
    have hqueue := fun events => h.queue [] d' registered events hmac hreg'
    refine ⟨deleteDevice_eq_some_iff.mp ⟨db, hdelete⟩, fun r hr hsame => ?_, fun u hu hsame => ?_, ?_⟩
    · obtain ⟨e, he, -⟩ := hclean.actionLogs r (hactions ▸ hr) hsame
      cases he
    · obtain ⟨e, he, -⟩ := hclean.updates u (hupdates ▸ hu) hsame
      cases he
    · intro t q hq hsame
      by_contra hsend
      obtain ⟨events, q', id, actions, hadd, hq', hmac', hsent⟩ :=
        exists_sent (s := registered) (hactions ▸ hq) hsend
      obtain ⟨e, he, hqueues⟩ := hqueue events t q' id actions hq' (hmac'.trans hsame) hsent
      rw [hadd e he] at hqueues
      exact hqueues

theorem removedCompletely_iff (hd : d ∈ s.db.devices) :
    RemovedCompletely s d ↔ Untraced s d :=
  ⟨fun h => h.untraced hd, fun h => h.removedCompletely hd⟩

end Complete

/-- **A removal is complete**, in a reachable state and every continuation, exactly if the device has
no logs, no row of an action or an update has its address, and no thread for the address has fetched
actions that it has yet to send. -/
theorem removal_complete_iff (history : List ServerEvent) {d : Device}
    (hd : d ∈ (DeviceServer.init.after history).db.devices) :
    RemovedCompletely (DeviceServer.init.after history) d ↔
      Untraced (DeviceServer.init.after history) d :=
  removedCompletely_iff hd

def lostDevice : Device := ⟨1, "d", "d", ∅, none⟩

/-- The device is in a group and has a tag, and a user has permissions for it. -/
def ownedHistory : List ServerEvent :=
  [.permission (.insertDevice lostDevice), .permission (.createGroup ⟨1, "no_update", 25⟩),
    .permission (.assignDevices 1 [1] []), .addTag 1 "kitchen",
    .permission (.newResource .device 1 "user")]

/-- A device that has a group, a tag and permissions is removed completely. -/
theorem registered_device_removed :
    (⟨1, 1⟩ ∈ (DeviceServer.init.after ownedHistory).db.deviceGroups ∧
      (DeviceServer.init.after ownedHistory).db.deviceTags ≠ [] ∧
      (DeviceServer.init.after ownedHistory).db.permissions ≠ []) ∧
    RemovedCompletely (DeviceServer.init.after ownedHistory) lostDevice :=
  ⟨⟨by decide, by decide, by decide⟩, (removal_complete_iff ownedHistory
    (List.mem_singleton_self _)).mpr ⟨by decide, nofun, nofun, nofun⟩⟩

/-- An action is queued for a device that is not connected. -/
def queuedRun : List ServerEvent :=
  [.permission (.insertDevice lostDevice), .action (.execute "e" "reboot" "d"),
    .action (.handler "e" .refuse)]

/-- A device registers under the address, connects, and its queue is fetched. -/
def returnRun : List ServerEvent :=
  [.permission (.insertDevice { lostDevice with id := 2 }), .action (.connect 0 "d"),
    .action (.queue 0 .fetch), .action (.queue 0 .add)]

/-- The device is deleted after the first run, and the action is sent after the second. A device with
a log cannot be deleted at all. -/
theorem queued_action_survives :
    (((DeviceServer.init.after queuedRun).remove 1).1 = .done ∧
      ((((DeviceServer.init.after queuedRun).remove 1).2.after returnRun).actions.step
        (.queue 0 .send)).map Prod.snd = some (.sent "e") ∧
      ¬ RemovedCompletely (DeviceServer.init.after queuedRun) lostDevice) ∧
    ((DeviceServer.init.after [.permission (.insertDevice lostDevice), .createLogs 1 1]).remove 1).1 =
      .error "removal failed" 500 := by
  refine ⟨⟨rfl, rfl, fun h => ?_⟩, rfl⟩
  have huntraced := h.untraced (List.mem_singleton_self _)
  exact huntraced.actionLogs _ (List.mem_singleton_self _) rfl

end Rdfm.Server
