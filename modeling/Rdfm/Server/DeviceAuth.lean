import Rdfm.Lib.Pool
import Rdfm.Server.Groups

/-!
# Device tokens

The chain from a device's check-in to its token: `check_in` with `verify_authorization` and
`try_acquire_token`, the pending registrations, and their acceptance in `set_registration`. Requests
run side by side; between any two database calls of one, others can make theirs. The log has every
call with the request that made it and what it returned.

A token goes only to the key that the device row held when it was read, and a row holds only keys
that an administrator accepted from a verified check-in (`device_token_safe`). Whether a signature
verifies is a parameter, and a token stands for its signed contents.
-/

namespace Rdfm.Server

open Rdfm.Lib

/-! ## Store -/

structure Registration where
  macAddress : String
  publicKey : String
  info : Metadata
deriving DecidableEq

structure Store where
  db : Database
  registrations : List Registration

namespace Store

variable (s : Store)

/-- The end of a transaction on the devices, and whether it is committed. -/
def transact (result : Option Database) : Store × Bool :=
  match result with
  | some db => ({ s with db }, true)
  | none => (s, false)

/-- `DevicesDB.get_device_data`. No constraint makes an address unique; `first` is the position of the
row that the database returns first. -/
def getDeviceData (first : Nat) (mac : String) : Store × Option Device :=
  let rows := s.db.devices.filter fun d => d.macAddress = mac
  (s, rows[first % rows.length]?)

/-- `DevicesDB.fetch_one`. -/
def fetchDevice (identifier : Int) : Store × Option Device :=
  (s, s.db.devices.find? fun d => d.id = identifier)

/-- `DevicesDB.insert`. -/
def insertDevice (device : Device) : Store × Bool :=
  s.transact (s.db.insertDevice device)

/-- `DevicesDB.update_key`. -/
def updateKey (mac publicKey : String) : Store × Bool :=
  s.transact (Database.commit { s.db.toTables with
    devices := updateWhere (fun d => d.macAddress = mac)
      (fun d => { d with publicKey := some publicKey }) s.db.devices })

/-- `DevicesDB.update_metadata`. -/
def updateMetadata (mac : String) (metadata : Metadata) : Store × Bool :=
  s.transact (Database.commit { s.db.toTables with
    devices := updateWhere (fun d => d.macAddress = mac)
      (fun d => { d with deviceMetadata := metadata }) s.db.devices })

/-- `DevicesDB.add_tag`. -/
def addTag (identifier : Int) (tag : String) : Store × Bool :=
  s.transact (Database.commit { s.db.toTables with
    deviceTags := s.db.deviceTags ++ [⟨identifier, tag⟩] })

/-- `DevicesDB.delete`. -/
def deleteDevice (identifier : Int) : Store × Bool :=
  s.transact (s.db.deleteDevice identifier)

/-- `RegistrationsDB.create_registration`: the row of the address and the key is merged. -/
def createRegistration (mac publicKey : String) (metadata : Metadata) : Store × Unit :=
  let row : Registration := ⟨mac, publicKey, metadata⟩
  let same : Registration → Bool := fun r => r.macAddress = mac ∧ r.publicKey = publicKey
  if s.registrations.any same then
    ({ s with registrations := updateWhere same (fun _ => row) s.registrations }, ())
  else ({ s with registrations := s.registrations ++ [row] }, ())

/-- `RegistrationsDB.fetch_one`. -/
def fetchRegistration (mac publicKey : String) : Store × Option Registration :=
  (s, s.registrations.find? fun r => r.macAddress = mac ∧ r.publicKey = publicKey)

/-- `RegistrationsDB.delete_registration`. -/
def deleteRegistration (mac publicKey : String) : Store × Unit :=
  ({ s with registrations := s.registrations.filter fun r =>
    ¬ (r.macAddress = mac ∧ r.publicKey = publicKey) }, ())

end Store

/-! ## Requests -/

def metaMacAddress : String := "rdfm.hardware.macaddr"

def metaTags : String := "rdfm.software.tags"

/-- `DEVICE_JWT_EXPIRY`, in seconds. -/
def deviceJwtExpiry : Nat := 300

structure DeviceToken where
  deviceId : String
  createdAt : Int
  expires : Nat
deriving DecidableEq, Repr

/-- A request to `check_in`, with what its body is read as. -/
structure CheckIn where
  body : List UInt8
  /-- The signature header. -/
  signature : Option String
  publicKey : String
  metadata : Metadata
  /-- The time at which a token is made. -/
  time : Int
  first : Nat
  /-- The call that stores the metadata reaches the database. -/
  stored : Bool

/-- A request to `set_registration`. -/
structure Acceptance where
  macAddress : String
  publicKey : String
  first : Nat
  /-- The identifier that the database gives a new device. -/
  deviceId : Int

inductive AuthRequest where
  | checkIn (c : CheckIn)
  | setRegistration (a : Acceptance)
  | removePending (mac publicKey : String)
  | deleteDevice (identifier : Int)
  /-- `UpdateVersion`, on the connection of a device. -/
  | updateVersion (mac version : String) (first : Nat)

/-- A database call, with what it returned where something depends on it. -/
inductive AuthCall where
  | getDeviceData (mac : String) (row : Option Device)
  | fetchDevice (identifier : Int)
  | insertDevice (device : Device)
  | updateKey (mac publicKey : String)
  | updateMetadata (mac : String)
  | updateTimestamp (mac : String)
  | addTag (identifier : Int) (tag : String)
  | deleteDevice (identifier : Int)
  | createRegistration (mac publicKey : String)
  | fetchRegistration (mac publicKey : String) (row : Option Registration)
  | deleteRegistration (mac publicKey : String)

structure AuthEntry where
  number : Nat
  request : AuthRequest
  call : AuthCall

structure World where
  store : Store
  log : List AuthEntry

inductive Response where
  | token (data : DeviceToken)
  | done
  | error (message : String) (status : Nat)
deriving DecidableEq, Repr

section Requests

variable (verify : List UInt8 → String → String → Bool) (number : Nat) (request : AuthRequest)
  {ρ : Type}

/-- A database call of a request. -/
def perform (statement : Store → Store × ρ) (call : ρ → AuthCall) : Routine World ρ :=
  .call
    (fun w => ⟨(statement w.store).1,
      w.log ++ [⟨number, request, call (statement w.store).2⟩]⟩)
    fun w => .ret (statement w.store).2

/-- `verify_authorization`. -/
def verifyAuthorization (first : Nat) (deviceId publicKey : String) : Routine World Bool := do
  let device ← perform number request (·.getDeviceData first deviceId) (.getDeviceData deviceId)
  match device with
  | none => return false
  | some device =>
    match device.publicKey with
    | none => return false
    | some key => return key = publicKey

/-- `try_acquire_token`, once the address is read from the metadata. -/
def tryAcquireToken (c : CheckIn) (deviceId : String) : Routine World (Option DeviceToken) := do
  if ← verifyAuthorization number request c.first deviceId c.publicKey then
    return some ⟨deviceId, c.time, deviceJwtExpiry⟩
  else
    perform number request (·.createRegistration deviceId c.publicKey c.metadata)
      fun _ => .createRegistration deviceId c.publicKey
    return none

/-- `check_in`. An address that is no string makes the query fail. -/
def checkIn (c : CheckIn) : Routine World Response := do
  match c.signature with
  | none => return .error "request is missing device signature header (X-RDFM-Device-Signature)" 400
  | some signature =>
    if verify c.body c.publicKey signature then
      match c.metadata.lookup metaMacAddress with
      | some (.str deviceId) =>
        match ← tryAcquireToken number request c deviceId with
        | none => return .error "device unauthorized" 401
        | some data =>
          -- The answer does not depend on whether the metadata is stored.
          let _ ← perform number request
            (fun s => if c.stored then s.updateMetadata data.deviceId c.metadata else (s, false))
            fun _ => .updateMetadata data.deviceId
          return .token data
      | _ => return .error "device unauthorized" 401
    else return .error "signature verification failed" 400

/-- The tags of a registration; a string is a sequence of characters. -/
def registrationTags (info : Metadata) : List String :=
  match info.lookup metaTags with
  | none => []
  | some (.list tags) => tags
  | some (.str s) => s.toList.map String.singleton

/-- The tags of a new device, up to the first that the table refuses. -/
def addTags (identifier : Int) : List String → Routine World Bool
  | [] => return true
  | tag :: tags => do
    if ← perform number request (·.addTag identifier tag) fun _ => .addTag identifier tag then
      addTags identifier tags
    else return false

/-- The device of an accepted registration. -/
def Registration.device (r : Registration) (identifier : Int) : Device where
  id := identifier
  name := r.macAddress
  macAddress := r.macAddress
  deviceMetadata := r.info
  publicKey := some r.publicKey

/-- The device of a registration is created, or changes its key; `false` is an exception. -/
def applyRegistration (a : Acceptance) (registration : Registration) : Routine World Bool := do
  let dev ← perform number request (·.getDeviceData a.first a.macAddress)
    (.getDeviceData a.macAddress)
  match dev with
  | some dev =>
    if dev.publicKey = some a.publicKey then return true
    else
      if ← perform number request (·.updateKey a.macAddress a.publicKey)
          fun _ => .updateKey a.macAddress a.publicKey then
        if ← perform number request (·.updateMetadata a.macAddress registration.info)
            fun _ => .updateMetadata a.macAddress then
          perform number request (fun s => (s, true)) fun _ => .updateTimestamp a.macAddress
        else return false
      else return false
  | none =>
    let device := registration.device a.deviceId
    if ← perform number request (·.insertDevice device) fun _ => .insertDevice device then
      addTags number request a.deviceId (registrationTags registration.info)
    else return false

/-- `set_registration`. -/
def setRegistration (a : Acceptance) : Routine World Response := do
  let registration ← perform number request (·.fetchRegistration a.macAddress a.publicKey)
    (.fetchRegistration a.macAddress a.publicKey)
  match registration with
  | none => return .error "specified registration does not exist" 404
  | some registration =>
    if ← applyRegistration number request a registration then
      perform number request (·.deleteRegistration a.macAddress a.publicKey)
        fun _ => .deleteRegistration a.macAddress a.publicKey
      return .done
    else return .error "fetching registrations failed" 500

/-- `remove_pending`. -/
def removePending (mac publicKey : String) : Routine World Response := do
  let dev ← perform number request (·.fetchRegistration mac publicKey)
    (.fetchRegistration mac publicKey)
  match dev with
  | none => return .error "device does not exist" 404
  | some _ =>
    perform number request (·.deleteRegistration mac publicKey)
      fun _ => .deleteRegistration mac publicKey
    return .done

/-- The deletion of a device, `delete` of the devices' routes. -/
def removeDevice (identifier : Int) : Routine World Response := do
  let dev ← perform number request (·.fetchDevice identifier) fun _ => .fetchDevice identifier
  match dev with
  | none => return .error "device does not exist" 404
  | some _ =>
    if ← perform number request (·.deleteDevice identifier) fun _ => .deleteDevice identifier then
      return .done
    else return .error "removal failed" 500

/-- The branch of `__handle_device_message` for `UpdateVersion`. The row of a device that is gone has
no metadata to read. -/
def handleUpdateVersion (mac version : String) (first : Nat) : Routine World Response := do
  let device ← perform number request (·.getDeviceData first mac) (.getDeviceData mac)
  match device with
  | none => return .error "'NoneType' object has no attribute 'device_metadata'" 500
  | some device =>
    let metadata := device.deviceMetadata.insert metaSoftVer (.str version)
    let _ ← perform number request (·.updateMetadata mac metadata) fun _ => .updateMetadata mac
    return .done

end Requests

/-- The calls of a request. One that raises ends the request, as if it were given no more turns. -/
def AuthRequest.routine (verify : List UInt8 → String → String → Bool) (request : AuthRequest)
    (number : Nat) : Routine World Response :=
  match request with
  | checkIn c => Server.checkIn verify number request c
  | setRegistration a => Server.setRegistration number request a
  | removePending mac publicKey => Server.removePending number request mac publicKey
  | deleteDevice identifier => removeDevice number request identifier
  | updateVersion mac version first => handleUpdateVersion number request mac version first

/-! ## What calls do to the keys -/

/-- The same device, with the key it had. -/
def Device.SameKey (old d : Device) : Prop :=
  old.id = d.id ∧ old.macAddress = d.macAddress ∧ old.publicKey = d.publicKey

namespace Store

variable {s s' : Store} {mac publicKey : String} {metadata : Metadata}

/-- No device has a new key. -/
def KeepsKeys (s s' : Store) : Prop :=
  ∀ d ∈ s'.db.devices, ∃ old ∈ s.db.devices, old.SameKey d

/-- There is no new registration. -/
def KeepsRegistrations (s s' : Store) : Prop :=
  ∀ r ∈ s'.registrations, ∃ old ∈ s.registrations,
    old.macAddress = r.macAddress ∧ old.publicKey = r.publicKey

theorem KeepsKeys.refl : s.KeepsKeys s := fun d hd => ⟨d, hd, rfl, rfl, rfl⟩

theorem KeepsRegistrations.of_eq (h : s'.registrations = s.registrations) :
    s.KeepsRegistrations s' := by
  intro r hr
  rw [h] at hr
  exact ⟨r, hr, rfl, rfl⟩

@[simp] theorem transact_registrations (result : Option Database) :
    (s.transact result).1.registrations = s.registrations := by
  cases result <;> rfl

/-- A row after a transaction: of its result, or an old one. -/
theorem mem_transact {t : Tables} {d : Device}
    (h : d ∈ (s.transact (Database.commit t)).1.db.devices) : d ∈ t.devices ∨ d ∈ s.db.devices := by
  cases hcommit : Database.commit t with
  | none =>
    rw [hcommit] at h
    exact .inr h
  | some db =>
    rw [hcommit] at h
    have h : d ∈ db.toTables.devices := h
    rw [Database.commit_eq_some hcommit] at h
    exact .inl h

theorem keepsKeys_updateMetadata : s.KeepsKeys (s.updateMetadata mac metadata).1 := by
  intro d hd
  rcases mem_transact hd with hd | hd
  · rcases mem_updateWhere.mp hd with ⟨old, hold, rfl⟩
    refine ⟨old, hold, ?_⟩
    split <;> exact ⟨rfl, rfl, rfl⟩
  · exact ⟨d, hd, rfl, rfl, rfl⟩

theorem keepsKeys_addTag {identifier : Int} {tag : String} :
    s.KeepsKeys (s.addTag identifier tag).1 := by
  intro d hd
  rcases mem_transact hd with hd | hd
  · exact ⟨d, hd, rfl, rfl, rfl⟩
  · exact ⟨d, hd, rfl, rfl, rfl⟩

theorem keepsKeys_deleteDevice {identifier : Int} :
    s.KeepsKeys (s.deleteDevice identifier).1 := by
  intro d hd
  rcases mem_transact hd with hd | hd
  · exact ⟨d, List.mem_of_mem_filter hd, rfl, rfl, rfl⟩
  · exact ⟨d, hd, rfl, rfl, rfl⟩

theorem mem_updateKey {d : Device} (h : d ∈ (s.updateKey mac publicKey).1.db.devices) :
    (∃ old ∈ s.db.devices, old.SameKey d) ∨ d.macAddress = mac ∧ d.publicKey = some publicKey := by
  rcases mem_transact h with hd | hd
  · rcases mem_updateWhere.mp hd with ⟨old, hold, rfl⟩
    split
    · next hmac => exact .inr ⟨of_decide_eq_true hmac, rfl⟩
    · exact .inl ⟨old, hold, rfl, rfl, rfl⟩
  · exact .inl ⟨d, hd, rfl, rfl, rfl⟩

theorem mem_insertDevice {d device : Device} (h : d ∈ (s.insertDevice device).1.db.devices) :
    (∃ old ∈ s.db.devices, old.SameKey d) ∨ d = device := by
  rcases mem_transact h with hd | hd
  · rcases List.mem_append.mp hd with hd | hd
    · exact .inl ⟨d, hd, rfl, rfl, rfl⟩
    · exact .inr (List.mem_singleton.mp hd)
  · exact .inl ⟨d, hd, rfl, rfl, rfl⟩

theorem mem_createRegistration {r : Registration}
    (h : r ∈ (s.createRegistration mac publicKey metadata).1.registrations) :
    r ∈ s.registrations ∨ r.macAddress = mac ∧ r.publicKey = publicKey := by
  unfold createRegistration at h
  dsimp only at h
  split at h
  · rcases mem_updateWhere.mp h with ⟨old, hold, rfl⟩
    split
    · exact .inr ⟨rfl, rfl⟩
    · exact .inl hold
  · rcases List.mem_append.mp h with h | h
    · exact .inl h
    · cases List.mem_singleton.mp h
      exact .inr ⟨rfl, rfl⟩

theorem createRegistration_db :
    (s.createRegistration mac publicKey metadata).1.db = s.db := by
  unfold createRegistration
  dsimp only
  split <;> rfl

theorem keepsRegistrations_deleteRegistration :
    s.KeepsRegistrations (s.deleteRegistration mac publicKey).1 :=
  fun r hr => ⟨r, List.mem_of_mem_filter hr, rfl, rfl⟩

theorem getDeviceData_eq_some {first : Nat} {d : Device}
    (h : (s.getDeviceData first mac).2 = some d) : d ∈ s.db.devices ∧ d.macAddress = mac := by
  have hd := List.mem_of_getElem? h
  rw [List.mem_filter] at hd
  exact ⟨hd.1, of_decide_eq_true hd.2⟩

theorem fetchRegistration_eq_some {r : Registration}
    (h : (s.fetchRegistration mac publicKey).2 = some r) :
    r ∈ s.registrations ∧ r.macAddress = mac ∧ r.publicKey = publicKey := by
  have hr := List.find?_some h
  exact ⟨List.mem_of_find?_eq_some h, of_decide_eq_true hr⟩

end Store

/-! ## What the log shows -/

/-- The entries of one request. -/
def ownEntries (number : Nat) (log : List AuthEntry) : List AuthEntry :=
  log.filter fun e => e.number = number

theorem mem_of_mem_ownEntries {i : Nat} {log : List AuthEntry} {e : AuthEntry}
    (h : e ∈ ownEntries i log) : e ∈ log := List.mem_of_mem_filter h

/-- The key that a call stores, and for which address. -/
def AuthCall.storedKey : AuthCall → Option (String × String)
  | updateKey mac publicKey => some (mac, publicKey)
  | insertDevice device => device.publicKey.map fun publicKey => (device.macAddress, publicKey)
  | _ => none

section Chain

variable (verify : List UInt8 → String → String → Bool)

/-- The check-in is for this address, and its signature under this key verifies. -/
def CheckIn.Proves (c : CheckIn) (mac publicKey : String) : Prop :=
  c.metadata.lookup metaMacAddress = some (.str mac) ∧ c.publicKey = publicKey ∧
    ∃ signature, c.signature = some signature ∧ verify c.body publicKey signature = true

/-- A registration was created by a check-in whose signature verified. -/
def Registered (log : List AuthEntry) (mac publicKey : String) : Prop :=
  ∃ number c, c.Proves verify mac publicKey ∧
    ⟨number, .checkIn c, .createRegistration mac publicKey⟩ ∈ log

/-- An administrator accepted a registration that had been created by such a check-in. -/
def Accepted (log : List AuthEntry) (mac publicKey : String) : Prop :=
  ∃ before number a registration after, a.macAddress = mac ∧ a.publicKey = publicKey ∧
    log = before ++
      ⟨number, .setRegistration a, .fetchRegistration mac publicKey (some registration)⟩ :: after ∧
    Registered verify before mac publicKey

/-- The request is an acceptance of the registration and has found it; it has stored no key yet. -/
def NewAcceptance (log : List AuthEntry) (number : Nat) (mac publicKey : String) : Prop :=
  (∃ a registration, a.macAddress = mac ∧ a.publicKey = publicKey ∧
    ⟨number, .setRegistration a, .fetchRegistration mac publicKey (some registration)⟩ ∈ log) ∧
  ∀ e ∈ log, e.number = number → e.call.storedKey = none

/-- One call: what it read, and where new registrations and new keys come from. -/
structure AuthStep (e : AuthEntry) (w w' : World) : Prop where
  log : w'.log = w.log ++ [e]
  reads : ∀ mac d, e.call = .getDeviceData mac (some d) →
    d ∈ w.store.db.devices ∧ d.macAddress = mac
  fetches : ∀ mac publicKey r, e.call = .fetchRegistration mac publicKey (some r) →
    r ∈ w.store.registrations ∧ r.macAddress = mac ∧ r.publicKey = publicKey
  registers : ∀ r ∈ w'.store.registrations,
    (∃ old ∈ w.store.registrations,
      old.macAddress = r.macAddress ∧ old.publicKey = r.publicKey) ∨
    ∃ c, c.Proves verify r.macAddress r.publicKey ∧ e.request = .checkIn c ∧
      e.call = .createRegistration r.macAddress r.publicKey
  keys : ∀ d ∈ w'.store.db.devices,
    (∃ old ∈ w.store.db.devices, old.SameKey d) ∨
    ∃ publicKey, d.publicKey = some publicKey ∧
      e.call.storedKey = some (d.macAddress, publicKey) ∧
      NewAcceptance w.log e.number d.macAddress publicKey

/-- Every key and every registration, and every registration that was found, has its origin. -/
structure AuthInv (w : World) : Prop where
  keys : ∀ d ∈ w.store.db.devices, ∀ publicKey, d.publicKey = some publicKey →
    Accepted verify w.log d.macAddress publicKey
  registrations : ∀ r ∈ w.store.registrations,
    Registered verify w.log r.macAddress r.publicKey
  fetched : ∀ before e after mac publicKey r, w.log = before ++ e :: after →
    e.call = .fetchRegistration mac publicKey (some r) → Registered verify before mac publicKey

variable {verify} {log : List AuthEntry} {w w' : World} {e : AuthEntry} {mac publicKey : String}

theorem Registered.append (h : Registered verify log mac publicKey) (entries : List AuthEntry) :
    Registered verify (log ++ entries) mac publicKey := by
  rcases h with ⟨number, c, hc, he⟩
  exact ⟨number, c, hc, List.mem_append_left _ he⟩

theorem Accepted.append (h : Accepted verify log mac publicKey) (entries : List AuthEntry) :
    Accepted verify (log ++ entries) mac publicKey := by
  rcases h with ⟨before, number, a, r, after, hmac, hkey, rfl, hreg⟩
  refine ⟨before, number, a, r, after ++ entries, hmac, hkey, ?_, hreg⟩
  rw [List.append_assoc, List.cons_append]

/-- An acceptance in the log is one of a registration with an origin. -/
theorem NewAcceptance.accepted {number : Nat} (h : NewAcceptance log number mac publicKey)
    (hfetched : ∀ before e after mac publicKey r, log = before ++ e :: after →
      e.call = .fetchRegistration mac publicKey (some r) → Registered verify before mac publicKey) :
    Accepted verify log mac publicKey := by
  rcases h with ⟨⟨a, r, hmac, hkey, he⟩, -⟩
  rcases List.append_of_mem he with ⟨before, after, hlog⟩
  exact ⟨before, number, a, r, after, hmac, hkey, hlog, hfetched _ _ _ _ _ _ hlog rfl⟩

theorem AuthInv.step (h : AuthInv verify w) (hs : AuthStep verify e w w') : AuthInv verify w' := by
  refine ⟨fun d hd publicKey hkey => ?_, fun r hr => ?_, ?_⟩
  · rw [hs.log]
    rcases hs.keys d hd with ⟨old, hold, -, hmac, hkey'⟩ | ⟨key, hkey', -, hnew⟩
    · have := h.keys old hold publicKey (hkey'.trans hkey)
      rw [hmac] at this
      exact this.append _
    · cases hkey.symm.trans hkey'
      exact (hnew.accepted h.fetched).append _
  · rw [hs.log]
    rcases hs.registers r hr with ⟨old, hold, hmac, hkey⟩ | ⟨c, hc, hrequest, hcall⟩
    · have := h.registrations old hold
      rw [hmac, hkey] at this
      exact this.append _
    · refine ⟨e.number, c, hc, List.mem_append_right _ (List.mem_singleton.mpr ?_)⟩
      rw [← hrequest, ← hcall]
  · intro before e' after mac publicKey r hlog hcall
    rw [hs.log] at hlog
    rcases List.eq_nil_or_concat after with rfl | ⟨after', last, rfl⟩
    · -- The new entry: its registration was in the table.
      rcases List.append_inj' hlog rfl with ⟨rfl, he⟩
      cases he
      rcases hs.fetches mac publicKey r hcall with ⟨hr, rfl, rfl⟩
      exact h.registrations r hr
    · rw [List.concat_eq_append, ← List.cons_append, ← List.append_assoc] at hlog
      exact h.fetched _ _ _ _ _ _ (List.append_inj' hlog rfl).1 hcall

/-- What requests may rely on: the log grows, but not by entries of the request itself. -/
def authContract (verify : List UInt8 → String → String → Bool) : Contract World Response where
  inv := AuthInv verify
  rely i w w' := w.log <+: w'.log ∧ ownEntries i w'.log = ownEntries i w.log
  guarantee i w w' := ∃ e, e.number = i ∧ AuthStep verify e w w'
  pre i w := ownEntries i w.log = []
  post i response w := ∀ data, response = .token data → ∃ c d,
    c.Proves verify data.deviceId c.publicKey ∧ d.publicKey = some c.publicKey ∧
    ⟨i, .checkIn c, .getDeviceData data.deviceId (some d)⟩ ∈ w.log
  rely_refl _ _ := ⟨List.prefix_refl _, rfl⟩
  rely_trans _ _ _ _ h₁ h₂ := ⟨h₁.1.trans h₂.1, h₂.2.trans h₁.2⟩
  rely_of_guarantee := by
    rintro i j hij w w' ⟨e, hnumber, hs⟩
    rw [hs.log]
    refine ⟨List.prefix_append _ _, ?_⟩
    have hne : e.number ≠ j := by rwa [hnumber]
    unfold ownEntries
    rw [List.filter_append, List.filter_singleton, decide_eq_false hne]
    exact List.append_nil _
  pre_rely h hpre := h.2.trans hpre
  post_rely := by
    intro i response w w' h hpost data hdata
    rcases hpost data hdata with ⟨c, d, hc, hd, he⟩
    exact ⟨c, d, hc, hd, h.1.subset he⟩

/-! ## Requests keep the contract -/

variable {i : Nat} {request : AuthRequest} {own : List AuthEntry} {ρ : Type}

/-- A call that brings no new key and no new registration. -/
theorem AuthStep.of_keeps {call : AuthCall} {store : Store}
    (hkeys : w.store.KeepsKeys store) (hregistrations : w.store.KeepsRegistrations store)
    (hreads : ∀ mac d, call = .getDeviceData mac (some d) →
      d ∈ w.store.db.devices ∧ d.macAddress = mac)
    (hfetches : ∀ mac publicKey r, call = .fetchRegistration mac publicKey (some r) →
      r ∈ w.store.registrations ∧ r.macAddress = mac ∧ r.publicKey = publicKey) :
    AuthStep verify ⟨i, request, call⟩ w ⟨store, w.log ++ [⟨i, request, call⟩]⟩ :=
  ⟨rfl, hreads, hfetches, fun r hr => .inl (hregistrations r hr), fun d hd => .inl (hkeys d hd)⟩

/-- What a request knows is the list of its own calls. -/
theorem obeys_perform {statement : Store → Store × ρ} {call : ρ → AuthCall}
    {Q : ρ → World → Prop} (hown : ownEntries i w.log = own)
    (hstep : ∀ w', ownEntries i w'.log = own →
      AuthStep verify ⟨i, request, call (statement w'.store).2⟩ w'
        ⟨(statement w'.store).1, w'.log ++ [⟨i, request, call (statement w'.store).2⟩]⟩)
    (hnext : ∀ s w', ownEntries i w'.log = own ++ [⟨i, request, call (statement s).2⟩] →
      Q (statement s).2 w') :
    (authContract verify).Obeys i Q (perform i request statement call) w := by
  intro w' hrely hinv
  have hown' : ownEntries i w'.log = own := hrely.2.trans hown
  have hs := hstep w' hown'
  refine ⟨AuthInv.step hinv hs, ⟨_, rfl, hs⟩, hnext w'.store _ ?_⟩
  unfold ownEntries at hown' ⊢
  rw [List.filter_append, hown', List.filter_singleton, decide_eq_true rfl]
  rfl

/-- A response without a token needs no proof. -/
theorem post_of_ne_token {response : Response} (h : ∀ data, response ≠ .token data) :
    (authContract verify).post i response w :=
  fun data hdata => absurd hdata (h data)

theorem obeys_getDeviceData {first : Nat} {Q : Option Device → World → Prop}
    (hown : ownEntries i w.log = own)
    (hnext : ∀ row w', ownEntries i w'.log = own ++ [⟨i, request, .getDeviceData mac row⟩] →
      Q row w') :
    (authContract verify).Obeys i Q
      (perform i request (·.getDeviceData first mac) (.getDeviceData mac)) w := by
  refine obeys_perform hown (fun w' _ => ?_) fun s w' hown' => hnext _ _ hown'
  refine AuthStep.of_keeps .refl (.of_eq rfl) ?_ nofun
  intro mac' d hcall
  injection hcall with hmac hrow
  subst hmac
  exact Store.getDeviceData_eq_some hrow

/-- A call that only others could tell from nothing: its entry is all that the request knows. -/
theorem obeys_quiet {statement : Store → Store × ρ} {Q : ρ → World → Prop} {call : AuthCall}
    (hstatement : ∀ s : Store, s.KeepsKeys (statement s).1 ∧ s.KeepsRegistrations (statement s).1)
    (hreads : ∀ mac d, call ≠ .getDeviceData mac (some d))
    (hfetches : ∀ mac publicKey r, call ≠ .fetchRegistration mac publicKey (some r))
    (hown : ownEntries i w.log = own)
    (hnext : ∀ a w', ownEntries i w'.log = own ++ [⟨i, request, call⟩] → Q a w') :
    (authContract verify).Obeys i Q (perform i request statement fun _ => call) w := by
  refine obeys_perform hown (fun w' _ => ?_) fun s w' hown' => hnext _ _ hown'
  exact AuthStep.of_keeps (hstatement _).1 (hstatement _).2
    (fun _ _ h => absurd h (hreads _ _)) fun _ _ _ h => absurd h (hfetches _ _ _)

theorem obeys_fetchRegistration {Q : Option Registration → World → Prop}
    (hown : ownEntries i w.log = own)
    (hnone : ∀ w', Q none w')
    (hsome : ∀ r w', r.macAddress = mac → r.publicKey = publicKey →
      ownEntries i w'.log = own ++ [⟨i, request, .fetchRegistration mac publicKey (some r)⟩] →
      Q (some r) w') :
    (authContract verify).Obeys i Q
      (perform i request (·.fetchRegistration mac publicKey)
        (.fetchRegistration mac publicKey)) w := by
  refine obeys_perform hown (fun w' _ => ?_) fun s w' hown' => ?_
  · refine AuthStep.of_keeps .refl (.of_eq rfl) nofun ?_
    intro mac' publicKey' r hcall
    injection hcall with hmac hkey hrow
    subst hmac hkey
    exact Store.fetchRegistration_eq_some hrow
  · cases hrow : (s.fetchRegistration mac publicKey).2 with
    | none => exact hnone _
    | some r =>
      rcases Store.fetchRegistration_eq_some hrow with ⟨-, hmac, hkey⟩
      rw [hrow] at hown'
      exact hsome r _ hmac hkey hown'

/-- The one call that creates a registration: that of a check-in that has been verified. -/
theorem obeys_createRegistration {c : CheckIn} {Q : Unit → World → Prop}
    (hc : c.Proves verify mac publicKey) (hown : ownEntries i w.log = own)
    (hnext : ∀ w', Q () w') :
    (authContract verify).Obeys i Q
      (perform i (.checkIn c) (·.createRegistration mac publicKey c.metadata)
        fun _ => .createRegistration mac publicKey) w := by
  refine obeys_perform hown (fun w' _ => ⟨rfl, nofun, nofun, ?_, ?_⟩) fun s w' _ => hnext _
  · intro r hr
    rcases Store.mem_createRegistration hr with hr | ⟨rfl, rfl⟩
    · exact .inl ⟨r, hr, rfl, rfl⟩
    · exact .inr ⟨c, hc, rfl, rfl⟩
  · intro d hd
    dsimp only at hd
    rw [Store.createRegistration_db] at hd
    exact .inl ⟨d, hd, rfl, rfl, rfl⟩

/-- A request that is authorized has read its own key. -/
theorem obeys_verifyAuthorization {first : Nat} {Q : Bool → World → Prop}
    (hown : ownEntries i w.log = own)
    (hfalse : ∀ row w', ownEntries i w'.log = own ++ [⟨i, request, .getDeviceData mac row⟩] →
      Q false w')
    (htrue : ∀ d w', d.publicKey = some publicKey →
      ownEntries i w'.log = own ++ [⟨i, request, .getDeviceData mac (some d)⟩] → Q true w') :
    (authContract verify).Obeys i Q (verifyAuthorization i request first mac publicKey) w := by
  refine Contract.Obeys.bind (obeys_getDeviceData hown fun row w' hown' => ?_)
  cases row with
  | none => exact hfalse _ _ hown'
  | some d =>
    dsimp only
    cases hkey : d.publicKey with
    | none => exact hfalse _ _ hown'
    | some key =>
      by_cases heq : key = publicKey
      · subst heq
        dsimp only
        rw [decide_eq_true rfl]
        exact htrue d _ hkey hown'
      · dsimp only
        rw [decide_eq_false heq]
        exact hfalse _ _ hown'

theorem checkIn_keeps {c : CheckIn} (hpre : ownEntries i w.log = []) :
    (authContract verify).Keeps i (checkIn verify i (.checkIn c) c) w := by
  unfold Contract.Keeps checkIn
  split
  · exact post_of_ne_token nofun
  · next signature hsignature =>
    split
    · next hverify =>
      split
      · next deviceId hmac =>
        have hc : c.Proves verify deviceId c.publicKey := ⟨hmac, rfl, signature, hsignature, hverify⟩
        refine Contract.Obeys.bind (Contract.Obeys.bind (obeys_verifyAuthorization hpre ?_ ?_))
        · intro row w' hown
          refine Contract.Obeys.bind (obeys_createRegistration hc hown fun w' => ?_)
          exact post_of_ne_token nofun
        · intro d w' hkey hown
          refine Contract.Obeys.bind (obeys_quiet ?_ nofun nofun hown fun _ w' hown' => ?_)
          · intro s
            dsimp only
            split
            · exact ⟨Store.keepsKeys_updateMetadata, .of_eq (Store.transact_registrations _)⟩
            · exact ⟨.refl, .of_eq rfl⟩
          · intro data hdata
            cases hdata
            refine ⟨c, d, hc, hkey, ?_⟩
            refine mem_of_mem_ownEntries (i := i) ?_
            rw [hown']
            exact List.mem_append_left _ List.mem_cons_self
      · exact post_of_ne_token nofun
    · exact post_of_ne_token nofun

/-- A request that began with an acceptance, and has stored no key since. -/
theorem NewAcceptance.of_own {a : Acceptance} {r : Registration}
    (hown : ownEntries i log =
      ⟨i, .setRegistration a, .fetchRegistration a.macAddress a.publicKey (some r)⟩ :: own)
    (hkeys : ∀ e ∈ own, e.call.storedKey = none) :
    NewAcceptance log i a.macAddress a.publicKey := by
  constructor
  · refine ⟨a, r, rfl, rfl, mem_of_mem_ownEntries (i := i) ?_⟩
    rw [hown]
    exact List.mem_cons_self
  · intro e he hnumber
    have hmem : e ∈ ownEntries i log := List.mem_filter.mpr ⟨he, decide_eq_true hnumber⟩
    rw [hown] at hmem
    rcases List.mem_cons.mp hmem with rfl | hmem
    · rfl
    · exact hkeys e hmem

/-- A call that stores a key: that of an acceptance. -/
theorem obeys_storeKey {a : Acceptance} {r : Registration} {statement : Store → Store × Bool}
    {call : AuthCall} {Q : Bool → World → Prop}
    (hregistrations : ∀ s, (statement s).1.registrations = s.registrations)
    (hkeys : ∀ s, ∀ d ∈ (statement s).1.db.devices, (∃ old ∈ s.db.devices, old.SameKey d) ∨
      d.macAddress = a.macAddress ∧ d.publicKey = some a.publicKey)
    (hcall : call.storedKey = some (a.macAddress, a.publicKey))
    (hown : ownEntries i w.log =
      ⟨i, .setRegistration a, .fetchRegistration a.macAddress a.publicKey (some r)⟩ :: own)
    (hstored : ∀ e ∈ own, e.call.storedKey = none) (hnext : ∀ ok w', Q ok w') :
    (authContract verify).Obeys i Q
      (perform i (.setRegistration a) statement fun _ => call) w := by
  refine obeys_perform hown (fun w' hown' => ⟨rfl, ?_, ?_, ?_, ?_⟩) fun s w' _ => hnext _ _
  · rintro mac d rfl
    cases hcall
  · rintro mac publicKey r rfl
    cases hcall
  · intro r hr
    dsimp only at hr
    rw [hregistrations] at hr
    exact .inl ⟨r, hr, rfl, rfl⟩
  · intro d hd
    rcases hkeys _ d hd with hold | ⟨hmac, hkey⟩
    · exact .inl hold
    · refine .inr ⟨a.publicKey, hkey, ?_, ?_⟩
      · rw [hmac]
        exact hcall
      · rw [hmac]
        exact .of_own hown' hstored

theorem addTags_obeys {identifier : Int} {tags : List String} {Q : Bool → World → Prop}
    (hnext : ∀ ok w', Q ok w') :
    (authContract verify).Obeys i Q (addTags i request identifier tags) w := by
  induction tags generalizing w with
  | nil => exact hnext _ _
  | cons tag tags ih =>
    refine Contract.Obeys.bind (obeys_quiet ?_ nofun nofun rfl fun ok w' _ => ?_)
    · exact fun s => ⟨Store.keepsKeys_addTag, .of_eq (Store.transact_registrations _)⟩
    · cases ok with
      | false => exact hnext _ _
      | true => exact ih

theorem applyRegistration_obeys {a : Acceptance} {r : Registration} {Q : Bool → World → Prop}
    (hmac : r.macAddress = a.macAddress) (hkey : r.publicKey = a.publicKey)
    (hown : ownEntries i w.log =
      [⟨i, .setRegistration a, .fetchRegistration a.macAddress a.publicKey (some r)⟩])
    (hnext : ∀ ok w', Q ok w') :
    (authContract verify).Obeys i Q (applyRegistration i (.setRegistration a) a r) w := by
  refine Contract.Obeys.bind (obeys_getDeviceData hown fun dev w' hown' => ?_)
  have hstored : ∀ e ∈ ([⟨i, .setRegistration a, .getDeviceData a.macAddress dev⟩] :
      List AuthEntry), e.call.storedKey = none := by
    intro e he
    cases List.mem_singleton.mp he
    rfl
  cases dev with
  | some dev =>
    dsimp only
    split
    · exact hnext _ _
    · refine Contract.Obeys.bind (obeys_storeKey (fun s => Store.transact_registrations _)
        (fun s d hd => Store.mem_updateKey hd) rfl hown' hstored fun ok w' => ?_)
      cases ok with
      | false => exact hnext _ _
      | true =>
        refine Contract.Obeys.bind (obeys_quiet ?_ nofun nofun rfl fun ok w' _ => ?_)
        · exact fun s => ⟨Store.keepsKeys_updateMetadata, .of_eq (Store.transact_registrations _)⟩
        · cases ok with
          | false => exact hnext _ _
          | true =>
            rw [if_pos rfl]
            refine obeys_quiet ?_ nofun nofun rfl fun ok w' _ => hnext _ _
            exact fun s => ⟨.refl, .of_eq rfl⟩
  | none =>
    refine Contract.Obeys.bind (obeys_storeKey (fun s => Store.transact_registrations _)
      (fun s d hd => ?_) ?_ hown' hstored fun ok w' => ?_)
    · rcases Store.mem_insertDevice hd with hold | rfl
      · exact .inl hold
      · exact .inr ⟨hmac, congrArg some hkey⟩
    · rw [← hmac, ← hkey]
      rfl
    · cases ok with
      | false => exact hnext _ _
      | true => exact addTags_obeys hnext

theorem setRegistration_keeps {a : Acceptance} (hpre : ownEntries i w.log = []) :
    (authContract verify).Keeps i (setRegistration i (.setRegistration a) a) w := by
  refine Contract.Obeys.bind (obeys_fetchRegistration hpre (fun w' => post_of_ne_token nofun) ?_)
  intro r w' hmac hkey hown
  refine Contract.Obeys.bind (applyRegistration_obeys hmac hkey hown fun ok w' => ?_)
  cases ok with
  | false => exact post_of_ne_token nofun
  | true =>
    refine Contract.Obeys.bind (obeys_quiet ?_ nofun nofun rfl fun _ w' _ => ?_)
    · exact fun s => ⟨.refl, Store.keepsRegistrations_deleteRegistration⟩
    · exact post_of_ne_token nofun

theorem removePending_keeps :
    (authContract verify).Keeps i (removePending i request mac publicKey) w := by
  refine Contract.Obeys.bind (obeys_fetchRegistration rfl (fun w' => post_of_ne_token nofun) ?_)
  intro r w' _ _ _
  refine Contract.Obeys.bind (obeys_quiet ?_ nofun nofun rfl fun _ w' _ => ?_)
  · exact fun s => ⟨.refl, Store.keepsRegistrations_deleteRegistration⟩
  · exact post_of_ne_token nofun

theorem removeDevice_keeps {identifier : Int} :
    (authContract verify).Keeps i (removeDevice i request identifier) w := by
  refine Contract.Obeys.bind (obeys_quiet ?_ nofun nofun rfl fun dev w' _ => ?_)
  · exact fun s => ⟨.refl, .of_eq rfl⟩
  · cases dev with
    | none => exact post_of_ne_token nofun
    | some dev =>
      refine Contract.Obeys.bind (obeys_quiet ?_ nofun nofun rfl fun ok w' _ => ?_)
      · exact fun s => ⟨Store.keepsKeys_deleteDevice, .of_eq (Store.transact_registrations _)⟩
      · cases ok <;> exact post_of_ne_token nofun

theorem handleUpdateVersion_keeps {version : String} {first : Nat} :
    (authContract verify).Keeps i (handleUpdateVersion i request mac version first) w := by
  refine Contract.Obeys.bind (obeys_getDeviceData rfl fun device w' _ => ?_)
  cases device with
  | none => exact post_of_ne_token nofun
  | some device =>
    refine Contract.Obeys.bind (obeys_quiet ?_ nofun nofun rfl fun _ w' _ => ?_)
    · exact fun s => ⟨Store.keepsKeys_updateMetadata, .of_eq (Store.transact_registrations _)⟩
    · exact post_of_ne_token nofun

theorem AuthRequest.routine_keeps (request : AuthRequest) (hpre : ownEntries i w.log = []) :
    (authContract verify).Keeps i (request.routine verify i) w := by
  cases request with
  | checkIn c => exact checkIn_keeps hpre
  | setRegistration a => exact setRegistration_keeps hpre
  | removePending mac publicKey => exact removePending_keeps
  | deleteDevice identifier => exact removeDevice_keeps
  | updateVersion mac version first => exact handleUpdateVersion_keeps

end Chain

/-! ## Runs -/

/-- A request arrives, or makes its next call. -/
inductive AuthMove where
  | request (r : AuthRequest)
  | turn (i : Nat)

def AuthMove.toPool (verify : List UInt8 → String → String → Bool) :
    AuthMove → PoolMove World Response
  | request r => .spawn (r.routine verify)
  | turn i => .turn i

/-- A store before any registration; devices that were created by hand have no key. -/
structure FreshStore extends Store where
  noRegistrations : registrations = []
  noKeys : ∀ d ∈ db.devices, d.publicKey = none

/-- The server after a run: the store, the log, and what is left of each request. -/
def serve (verify : List UInt8 → String → String → Bool) (start : FreshStore)
    (moves : List AuthMove) : Pool World Response :=
  (moves.map (AuthMove.toPool verify)).foldl Pool.move ⟨⟨start.toStore, []⟩, []⟩

section Runs

variable (verify : List UInt8 → String → String → Bool) (start : FreshStore)
  (moves : List AuthMove)

theorem serve_concat (m : AuthMove) :
    serve verify start (moves ++ [m]) = (serve verify start moves).move (m.toPool verify) := by
  unfold serve
  rw [List.map_append, List.foldl_append]
  rfl

theorem serve_sound : Pool.Sound (authContract verify) (serve verify start moves) := by
  have hinv : AuthInv verify ⟨start.toStore, []⟩ := by
    refine ⟨fun d hd publicKey hkey => ?_, fun r hr => ?_, fun before e after _ _ _ hlog => ?_⟩
    · cases (start.noKeys d hd).symm.trans hkey
    · have hr : r ∈ start.registrations := hr
      rw [start.noRegistrations] at hr
      cases hr
    · cases before <;> cases hlog
  have hstart : Pool.Sound (authContract verify) (⟨⟨start.toStore, []⟩, []⟩ : Pool _ _) := by
    refine ⟨hinv, fun i p hp => ?_, fun _ _ => rfl⟩
    cases hp
  refine hstart.run fun thread hthread i w _ hpre => ?_
  rcases List.mem_map.mp hthread with ⟨m, -, hm⟩
  cases m with
  | request r =>
    cases hm
    exact r.routine_keeps hpre
  | turn i => cases hm

/-- A move leaves the store and the log, or is one call of a request. -/
theorem serve_step (m : AuthMove) :
    (serve verify start (moves ++ [m])).shared = (serve verify start moves).shared ∨
      ∃ i e, m = .turn i ∧ e.number = i ∧
        AuthStep verify e (serve verify start moves).shared
          (serve verify start (moves ++ [m])).shared := by
  rw [serve_concat]
  cases m with
  | request r => exact .inl rfl
  | turn i =>
    rcases ((serve_sound verify start moves).turn i).2 with h | ⟨e, he, hs⟩
    · exact .inl h
    · exact .inr ⟨i, e, rfl, he, hs⟩

/-- Every entry of the log is from one call of its request, on the way. -/
theorem serve_entry {moves} {e : AuthEntry} (he : e ∈ (serve verify start moves).shared.log) :
    ∃ before, before ++ [.turn e.number] <+: moves ∧
      AuthStep verify e (serve verify start before).shared
        (serve verify start (before ++ [.turn e.number])).shared := by
  induction moves using List.reverseRecOn with
  | nil => cases he
  | append_singleton moves m ih =>
    have hearlier (he : e ∈ (serve verify start moves).shared.log) : ∃ before,
        before ++ [.turn e.number] <+: moves ++ [m] ∧
          AuthStep verify e (serve verify start before).shared
            (serve verify start (before ++ [.turn e.number])).shared := by
      rcases ih he with ⟨before, hinit, hs⟩
      exact ⟨before, hinit.trans (List.prefix_append _ _), hs⟩
    rcases serve_step verify start moves m with
      h | ⟨i, e', rfl, rfl, hs⟩
    · rw [h] at he
      exact hearlier he
    · rw [hs.log] at he
      rcases List.mem_append.mp he with he | he
      · exact hearlier he
      · cases List.mem_singleton.mp he
        exact ⟨moves, List.prefix_refl _, hs⟩

end Runs

/-- Tokens go to the key that the row of the device held when it was read. A row holds only keys that
were accepted from a verified check-in; the key of a row changes only in a call of an acceptance that
found its registration and has not stored a key before. -/
theorem device_token_safe (verify : List UInt8 → String → String → Bool) (start : FreshStore)
    (moves : List AuthMove) :
    (∀ (i : Nat) data, (serve verify start moves).threads[i]? = some (.ret (.token data)) →
      ∃ c before, c.Proves verify data.deviceId c.publicKey ∧
        before ++ [.turn i] <+: moves ∧
        ∃ d ∈ (serve verify start before).shared.store.db.devices,
          d.macAddress = data.deviceId ∧ d.publicKey = some c.publicKey ∧
          (serve verify start (before ++ [.turn i])).shared.log =
            (serve verify start before).shared.log ++
              [⟨i, .checkIn c, .getDeviceData data.deviceId (some d)⟩]) ∧
    (∀ d ∈ (serve verify start moves).shared.store.db.devices, ∀ publicKey,
      d.publicKey = some publicKey →
      Accepted verify (serve verify start moves).shared.log d.macAddress publicKey) ∧
    (∀ m, ∀ d ∈ (serve verify start (moves ++ [m])).shared.store.db.devices,
      (∃ old ∈ (serve verify start moves).shared.store.db.devices, old.SameKey d) ∨
      ∃ i publicKey, m = .turn i ∧ d.publicKey = some publicKey ∧
        NewAcceptance (serve verify start moves).shared.log i d.macAddress publicKey ∧
        ∃ e, e.number = i ∧ e.call.storedKey = some (d.macAddress, publicKey) ∧
          (serve verify start (moves ++ [m])).shared.log =
            (serve verify start moves).shared.log ++ [e]) := by
  have hsound := serve_sound verify start moves
  refine ⟨fun i data hi => ?_, hsound.inv.keys, fun m d hd => ?_⟩
  · rcases hsound.keeps i _ hi data rfl with ⟨c, d, hc, hkey, he⟩
    rcases serve_entry verify start he with ⟨before, hinit, hs⟩
    rcases hs.reads _ _ rfl with ⟨hd, hmac⟩
    exact ⟨c, before, hc, hinit, d, hd, hmac, hkey, hs.log⟩
  · rcases serve_step verify start moves m with
      h | ⟨i, e, rfl, rfl, hs⟩
    · rw [h] at hd
      exact .inl ⟨d, hd, rfl, rfl, rfl⟩
    · rcases hs.keys d hd with hold | ⟨publicKey, hkey, hstored, hnew⟩
      · exact .inl hold
      · exact .inr ⟨e.number, publicKey, rfl, hkey, hnew, e, rfl, hstored, hs.log⟩

namespace Pairing

def checkIn : CheckIn :=
  ⟨[], some "signature", "key",
    ([⟨metaMacAddress, .str "00:00:00:00:00:00"⟩] : List ((_ : String) × MetaValue)).toAList,
    1694414456, 0, true⟩

def store : FreshStore := ⟨⟨Database.empty, []⟩, rfl, by decide⟩

/-- A device checks in twice, and is accepted in between. -/
def moves : List AuthMove :=
  [.request (.checkIn checkIn), .turn 0, .turn 0,
    .request (.setRegistration ⟨"00:00:00:00:00:00", "key", 0, 1⟩), .turn 1, .turn 1, .turn 1, .turn 1,
    .request (.checkIn checkIn), .turn 2, .turn 2]

def server : Pool World Response := serve (fun _ _ _ => true) store moves

end Pairing

open Pairing in
/-- The device gets its token, for the key that it was accepted with. -/
theorem device_token_safe_pairing :
    server.threads[2]? = some (.ret (.token ⟨"00:00:00:00:00:00", 1694414456, 300⟩)) ∧
    (∃ (c : CheckIn) (before : List AuthMove),
      c.Proves (fun _ _ _ => true) "00:00:00:00:00:00" c.publicKey ∧
      before ++ [.turn 2] <+: moves ∧
      ∃ d ∈ (serve (fun _ _ _ => true) store before).shared.store.db.devices,
        d.macAddress = "00:00:00:00:00:00" ∧ d.publicKey = some c.publicKey) ∧
    Accepted (fun _ _ _ => true) server.shared.log "00:00:00:00:00:00" "key" := by
  obtain ⟨htoken, hkeys, -⟩ := device_token_safe (fun _ _ _ => true) store moves
  obtain ⟨c, before, hproves, hinit, d, hd, hmac, hkey, -⟩ := htoken 2 _ rfl
  refine ⟨rfl, ⟨c, before, hproves, hinit, d, hd, hmac, hkey⟩, ?_⟩
  have hdevice : ∃ d ∈ server.shared.store.db.devices, d.macAddress = "00:00:00:00:00:00" ∧
      d.publicKey = some "key" := by decide
  obtain ⟨d', hd', hmac', hkey'⟩ := hdevice
  rw [← hmac']
  exact hkeys d' hd' "key" hkey'

end Rdfm.Server
