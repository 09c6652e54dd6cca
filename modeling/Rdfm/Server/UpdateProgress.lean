import Rdfm.Lib.Transition
import Rdfm.Server.ManagementChannel

/-!
# Progress of updates

Every update check that offers a package adds a row for the device, and the progress messages of the
device are published with the version of one of its rows: any of them, looked up once and then kept
by the connection. The rows go when the device reports 100 percent, and only then. So the version is
that of the package offered last in every run in which no package is offered while a row or a
connection of the device still has another version, and progress is reported only while there is an
update (`progress_named`). Such runs are exactly those that leave nothing out of date behind
(`progress_current_iff`).
-/

namespace Rdfm.Server

open Rdfm.Lib Rdfm.Protocol

/-! ## Offers -/

/-- The device that a package is offered to, and the version of the package. -/
def offerOf (s : UpdateStore) (body : CheckBody) (response : CheckResponse) :
    Option (String × String) :=
  match body, response with
  | .metadata deviceMeta, .update id _ _ _ => do
    let package ← s.packages.find? fun p => p.id = id
    match deviceMeta.lookup metaMacAddress, package.info.info.lookup metaSoftVer with
    | some (.str mac), some (.str version) => some (mac, version)
    | _, _ => none
  | _, _ => none

section Offers

variable {env : CheckEnv} {s : UpdateStore}

theorem mem_of_findPackage {deviceMeta : Metadata} {device : Device} {package : Package}
    (h : findPackage env s deviceMeta device = some (.ok package)) : package ∈ s.packages := by
  unfold findPackage at h
  obtain ⟨active, -, h⟩ := Option.bind_eq_some_iff.mp h
  cases active with
  | none => cases h
  | some groupId =>
    cases hgroup : s.db.fetchGroup groupId with
    | none => simp [hgroup] at h
    | some group =>
      simp only [hgroup] at h
      obtain ⟨policy, -, h⟩ := Option.bind_eq_some_iff.mp h
      split at h
      · cases h
      · obtain ⟨chosen, -, h⟩ := Option.bind_eq_some_iff.mp h
        cases chosen with
        | none => cases h
        | some index =>
          obtain ⟨found, hfound, h⟩ := Option.bind_eq_some_iff.mp h
          cases h
          have hmem := List.mem_of_getElem? hfound
          unfold UpdateStore.fetchAssignedData at hmem
          obtain ⟨a, -, hmem⟩ := List.mem_flatMap.mp hmem
          exact (List.mem_filter.mp hmem).1

/-- Packages have identifiers of their own. -/
theorem find?_package {package : Package} (h : package ∈ s.packages) :
    (s.packages.find? fun p => p.id = package.id) = some package := by
  have hnodup : (s.packages.map Package.id).Nodup := by
    rw [s.packages_id]
    exact s.db.constraints.packages
  exact (find?_key_eq_some hnodup).mpr ⟨h, rfl⟩

/-- The row of an offer. -/
def offerRow (offer : String × String) : DeviceUpdate := ⟨offer.1, offer.2, 0⟩

/-- An offer, and the row that is stored for it. -/
theorem offerPackage_row {deviceMeta : Metadata} {device : Device} {package : Package}
    {s' : UpdateStore} {response : CheckResponse} (hpackage : package ∈ s.packages)
    (hmac : deviceMeta.lookup metaMacAddress = some (.str device.macAddress))
    (h : offerPackage env s device package = some (s', response)) :
    s'.deviceUpdates =
      s.deviceUpdates ++ ((offerOf s (.metadata deviceMeta) response).map offerRow).toList := by
  unfold offerPackage at h
  split at h
  · cases h
    exact (List.append_nil _).symm
  · obtain ⟨link, -, h⟩ := Option.bind_eq_some_iff.mp h
    obtain ⟨version, hversion, h⟩ := Option.bind_eq_some_iff.mp h
    cases version with
    | list items => cases h
    | str version =>
      cases h
      simp [offerOf, find?_package hpackage, hmac, hversion, offerRow, UpdateStore.insertUpdate]

theorem offerOf_error (body : CheckBody) (message : String) (status : Nat) :
    offerOf s body (.error message status) = none := by
  cases body <;> rfl

theorem offerOf_noContent (body : CheckBody) : offerOf s body .noContent = none := by
  cases body <;> rfl

/-- The package for a device is found, or the response offers none. -/
theorem findPackage_error {deviceMeta : Metadata} {device : Device} {response : CheckResponse}
    (h : findPackage env s deviceMeta device = some (.error response)) (body : CheckBody) :
    offerOf s body response = none := by
  unfold findPackage at h
  obtain ⟨active, -, h⟩ := Option.bind_eq_some_iff.mp h
  cases active with
  | none =>
    cases h
    exact offerOf_noContent body
  | some groupId =>
    cases hgroup : s.db.fetchGroup groupId with
    | none =>
      simp only [hgroup] at h
      cases h
      exact offerOf_error body _ _
    | some group =>
      simp only [hgroup] at h
      obtain ⟨policy, -, h⟩ := Option.bind_eq_some_iff.mp h
      split at h
      · cases h
        exact offerOf_noContent body
      · obtain ⟨chosen, -, h⟩ := Option.bind_eq_some_iff.mp h
        cases chosen with
        | none =>
          cases h
          exact offerOf_noContent body
        | some index =>
          obtain ⟨found, -, h⟩ := Option.bind_eq_some_iff.mp h
          cases h

theorem checkMetadata_row {deviceMeta : Metadata} {s' : UpdateStore} {response : CheckResponse}
    (h : checkMetadata env s deviceMeta = some (s', response)) :
    s'.deviceUpdates =
      s.deviceUpdates ++ ((offerOf s (.metadata deviceMeta) response).map offerRow).toList := by
  unfold checkMetadata at h
  obtain ⟨value, hmac, h⟩ := Option.bind_eq_some_iff.mp h
  cases value with
  | list items => cases h
  | str hwmac =>
    cases hdevice : (s.getDeviceData env.first hwmac).2 with
    | none =>
      simp only [hdevice] at h
      cases h
      rw [offerOf_error]
      exact (List.append_nil _).symm
    | some device =>
      simp only [hdevice] at h
      obtain ⟨found, hfound, h⟩ := Option.bind_eq_some_iff.mp h
      cases found with
      | error r =>
        cases h
        rw [findPackage_error hfound]
        exact (List.append_nil _).symm
      | ok package =>
        rw [← (Store.getDeviceData_eq_some hdevice).2] at hmac
        exact offerPackage_row (mem_of_findPackage hfound) hmac h

/-- A check adds the row of the package that it offers, and no other. -/
theorem checkForUpdate_row (token : DeviceToken) (body : CheckBody) :
    (checkForUpdate env s token body).1.deviceUpdates = s.deviceUpdates ++
      ((offerOf s body (checkForUpdate env s token body).2).map offerRow).toList := by
  cases body with
  | unreadable => exact (List.append_nil _).symm
  | refused messages => exact (List.append_nil _).symm
  | metadata deviceMeta =>
    unfold checkForUpdate
    dsimp only
    split
    · cases hcheck : checkMetadata env s deviceMeta with
      | none => exact (List.append_nil _).symm
      | some result => exact checkMetadata_row hcheck
    · exact (List.append_nil _).symm

end Offers

/-! ## Runs -/

/-- The message that `sse.publish` is called with. -/
structure ProgressEvent where
  device : String
  progress : Int
  version : Option String
deriving DecidableEq, Repr

/-- The event of a progress message, with the version that the connection has or looks up. -/
def ManagementServer.progressEvent (s : ManagementServer) (env : MessageEnv) (conn : Connection)
    (progress : Int) : ProgressEvent where
  device := conn.deviceId
  progress := progress
  version :=
    match conn.updateVersion with
    | none => s.getVersion env.first conn.deviceId
    | some version => if version = "" then s.getVersion env.first conn.deviceId else some version

inductive UpdateEvent where
  /-- An update check. The rest of the database is as it is at this time. -/
  | check (env : CheckEnv) (store : UpdateStore) (token : DeviceToken) (body : CheckBody)
  | connect (c : Nat) (mac : String)
  | disconnect (c : Nat)
  | message (c : Nat) (request : PyRequest) (env : MessageEnv)

/-- The server, and the version last offered to each device. -/
structure UpdateServer where
  server : ManagementServer
  offered : String → Option String

namespace UpdateServer

variable (s : UpdateServer)

/-- An update check on the rows of the server. -/
def checked (env : CheckEnv) (store : UpdateStore) (token : DeviceToken) (body : CheckBody) :
    UpdateStore × CheckResponse :=
  checkForUpdate env { store with deviceUpdates := s.server.deviceUpdates } token body

/-- What the check offers. -/
def offer (env : CheckEnv) (store : UpdateStore) (token : DeviceToken) (body : CheckBody) :
    Option (String × String) :=
  offerOf store body (s.checked env store token body).2

def step : UpdateEvent → UpdateServer
  | .check env store token body =>
    { server := { s.server with
        deviceUpdates := (s.checked env store token body).1.deviceUpdates }
      offered :=
        match s.offer env store token body with
        | some (mac, version) => Function.update s.offered mac (some version)
        | none => s.offered }
  | .connect c mac => { s with server := s.server.step (.connect c mac) }
  | .disconnect c => { s with server := s.server.step (.disconnect c) }
  | .message c request env => { s with server := s.server.step (.message c request env) }

/-- A progress message is published with the version last offered to the device, and if it reports
the end of the update, no row of the device is left. -/
def Named : UpdateEvent → Prop
  | .message c (.updateProgress progress) env => ∀ conn, s.server.connections c = some conn →
    (s.server.progressEvent env conn progress).version = s.offered conn.deviceId ∧
      (progress = 100 →
        ∀ u ∈ (s.step (.message c (.updateProgress progress) env)).server.deviceUpdates,
          u.macAddress ≠ conn.deviceId)
  | _ => True

/-- The device has an update that has not ended. -/
def Pending (mac : String) : Prop := ∃ u ∈ s.server.deviceUpdates, u.macAddress = mac

/-- A package is offered only if no row and no connection of the device has another version.
Progress is reported only if there is an update, the connection has its version still, or there
never was one; and at its end the publication does not raise before the rows are deleted. -/
def Orderly : UpdateEvent → Prop
  | .check env store token body => ∀ mac version,
    s.offer env store token body = some (mac, version) →
      (∀ u ∈ s.server.deviceUpdates, u.macAddress = mac → u.version = version) ∧
      ∀ c conn kept, s.server.connections c = some conn → conn.deviceId = mac →
        conn.updateVersion = some kept → kept = "" ∨ kept = version
  | .message c (.updateProgress progress) env => ∀ conn, s.server.connections c = some conn →
    (s.Pending conn.deviceId ∨ s.offered conn.deviceId = none ∨
      ∃ kept, conn.updateVersion = some kept ∧ kept ≠ "") ∧
    (progress = 100 → env.published = true ∨ ¬ s.Pending conn.deviceId)
  | _ => True

/-- No row and no connection has a version other than the one last offered. -/
structure Current : Prop where
  rows : ∀ u ∈ s.server.deviceUpdates, s.offered u.macAddress = some u.version
  connections : ∀ c conn kept, s.server.connections c = some conn →
    conn.updateVersion = some kept → kept ≠ "" → s.offered conn.deviceId = some kept

/-! ### One event -/

section Step

variable {s} {env : MessageEnv} {conn : Connection}

/-- The version is one of a row of the device, if the connection has none. -/
theorem getVersion_eq {server : ManagementServer} {first : Nat} {mac : String} {v : Option String}
    (h : ∀ u ∈ server.deviceUpdates, u.macAddress = mac → v = some u.version)
    (hnone : (∀ u ∈ server.deviceUpdates, u.macAddress ≠ mac) → v = none) :
    server.getVersion first mac = v := by
  unfold ManagementServer.getVersion
  dsimp only
  cases hrow : (server.deviceUpdates.filter fun u => u.macAddress = mac)[first %
    (server.deviceUpdates.filter fun u => u.macAddress = mac).length]? with
  | some u =>
    obtain ⟨hu, hmac⟩ := List.mem_filter.mp (List.mem_of_getElem? hrow)
    exact (h u hu (of_decide_eq_true hmac)).symm
  | none =>
    refine (hnone fun u hu hmac => ?_).symm
    have hmem : u ∈ server.deviceUpdates.filter fun u => u.macAddress = mac :=
      List.mem_filter.mpr ⟨hu, decide_eq_true hmac⟩
    rw [List.getElem?_eq_none_iff] at hrow
    have hpos := List.length_pos_of_mem hmem
    exact absurd (Nat.mod_lt first hpos) (Nat.not_lt.mpr hrow)

theorem getVersion_eq_none {server : ManagementServer} {first : Nat} {mac : String}
    (h : ∀ u ∈ server.deviceUpdates, u.macAddress ≠ mac) : server.getVersion first mac = none :=
  getVersion_eq (fun u hu hmac => absurd hmac (h u hu)) fun _ => rfl

variable (h : s.Current)
include h

/-- A connection is opened, changed or closed. -/
theorem Current.setConnection {server : ManagementServer} (c : Nat) {conn? : Option Connection}
    (hrows : ∀ u ∈ server.deviceUpdates, s.offered u.macAddress = some u.version)
    (hsame : server.connections = s.server.connections)
    (hnew : ∀ conn kept, conn? = some conn → conn.updateVersion = some kept → kept ≠ "" →
      s.offered conn.deviceId = some kept) :
    Current ⟨server.setConnection c conn?, s.offered⟩ := by
  refine ⟨hrows, fun c' conn kept hconn => ?_⟩
  have hconn : Function.update server.connections c conn? c' = some conn := hconn
  by_cases hc : c' = c
  · rw [hc, Function.update_self] at hconn
    exact hnew conn kept hconn
  · rw [Function.update_of_ne hc, hsame] at hconn
    exact h.connections c' conn kept hconn

/-- An event has the right version exactly if there is an update to speak of. -/
theorem Current.version_eq_iff {c : Nat} (hconn : s.server.connections c = some conn)
    (progress : Int) :
    (s.server.progressEvent env conn progress).version = s.offered conn.deviceId ↔
      s.Pending conn.deviceId ∨ s.offered conn.deviceId = none ∨
        ∃ kept, conn.updateVersion = some kept ∧ kept ≠ "" := by
  by_cases hkept : ∃ kept, conn.updateVersion = some kept ∧ kept ≠ ""
  · refine iff_of_true ?_ (.inr (.inr hkept))
    obtain ⟨kept, hkept, hne⟩ := hkept
    rw [h.connections c conn kept hconn hkept hne]
    simp [ManagementServer.progressEvent, hkept, hne]
  · have hlookup : (s.server.progressEvent env conn progress).version =
        s.server.getVersion env.first conn.deviceId := by
      unfold ManagementServer.progressEvent
      dsimp only
      split
      · rfl
      · next kept hsome =>
        refine if_pos ?_
        by_contra hne
        exact hkept ⟨kept, hsome, hne⟩
    rw [hlookup]
    by_cases hpending : s.Pending conn.deviceId
    · refine iff_of_true (getVersion_eq (fun u hu hmac => ?_) fun hnone => ?_) (.inl hpending)
      · rw [← hmac]
        exact h.rows u hu
      · obtain ⟨u, hu, hmac⟩ := hpending
        exact absurd hmac (hnone u hu)
    · have hnone := @getVersion_eq_none s.server env.first conn.deviceId
        fun u hu hmac => hpending ⟨u, hu, hmac⟩
      rw [hnone, eq_comm]
      constructor
      · exact fun hoffered => .inr (.inl hoffered)
      · rintro (hpending' | hoffered | hkept')
        · exact absurd hpending' hpending
        · exact hoffered
        · exact absurd hkept' hkept

/-- What a progress message leaves. -/
theorem Current.progress {c : Nat} {progress : Int} (hconn : s.server.connections c = some conn)
    (hversion : (s.server.progressEvent env conn progress).version = s.offered conn.deviceId) :
    (s.step (.message c (.updateProgress progress) env)).Current := by
  change Current ⟨s.server.receive c (.updateProgress progress) env, s.offered⟩
  unfold ManagementServer.receive
  rw [hconn]
  dsimp only [ManagementServer.handleDeviceMessage, ManagementServer.handleUpdateProgress]
  split
  · split
    · refine h.setConnection c (fun u hu => ?_) rfl ?_
      · exact h.rows u (List.mem_filter.mp hu).1
      · rintro conn' kept ⟨⟩ ⟨⟩
    · refine h.setConnection c (fun u hu => ?_) rfl ?_
      · obtain ⟨old, hold, rfl⟩ := mem_updateWhere.mp hu
        have hrow := h.rows old hold
        split <;> exact hrow
      · rintro conn' kept ⟨⟩ hkept -
        exact hversion.symm.trans hkept
  · exact h.setConnection c h.rows rfl nofun

omit h in
/-- The end of an update deletes the rows unless the publication fails. -/
theorem progress_rows_iff {c : Nat} {progress : Int} (hconn : s.server.connections c = some conn) :
    (progress = 100 →
      ∀ u ∈ (s.step (.message c (.updateProgress progress) env)).server.deviceUpdates,
        u.macAddress ≠ conn.deviceId) ↔
    (progress = 100 → env.published = true ∨ ¬ s.Pending conn.deviceId) := by
  refine forall_congr' fun hend => ?_
  subst hend
  change (∀ u ∈ (s.server.receive c (.updateProgress 100) env).deviceUpdates, _) ↔ _
  unfold ManagementServer.receive
  rw [hconn]
  dsimp only [ManagementServer.handleDeviceMessage, ManagementServer.handleUpdateProgress]
  by_cases hpublished : env.published = true
  · rw [if_pos hpublished, if_pos rfl]
    refine iff_of_true (fun u hu => ?_) (.inl hpublished)
    exact of_decide_eq_true (List.mem_filter.mp hu).2
  · rw [if_neg hpublished]
    constructor
    · rintro hnone
      refine .inr ?_
      rintro ⟨u, hu, hmac⟩
      exact hnone u hu hmac
    · rintro (hpublished' | hpending) u hu hmac
      · exact hpublished hpublished'
      · exact hpending ⟨u, hu, hmac⟩

omit h in
/-- Other messages leave rows and versions alone. -/
theorem handleDeviceMessage_version (server : ManagementServer) {request : PyRequest}
    (hother : ∀ progress, request ≠ .updateProgress progress) :
    (server.handleDeviceMessage env conn request).1.deviceUpdates = server.deviceUpdates ∧
      (server.handleDeviceMessage env conn request).1.connections = server.connections ∧
      (server.handleDeviceMessage env conn request).2.1.deviceId = conn.deviceId ∧
      (server.handleDeviceMessage env conn request).2.1.updateVersion = conn.updateVersion := by
  cases request with
  | updateProgress progress => exact absurd rfl (hother progress)
  | actionExecResult executionId statusCode output =>
    dsimp only [ManagementServer.handleDeviceMessage, ManagementServer.executeActionResult]
    split
    · exact ⟨rfl, rfl, rfl, rfl⟩
    · split <;> exact ⟨rfl, rfl, rfl, rfl⟩
  | actionExecControl executionId status =>
    dsimp only [ManagementServer.handleDeviceMessage, ManagementServer.executeActionControl]
    split <;> exact ⟨rfl, rfl, rfl, rfl⟩
  | fsFileDownloadReply id status etags =>
    dsimp only [ManagementServer.handleDeviceMessage, ManagementServer.filesystemReply]
    split <;> exact ⟨rfl, rfl, rfl, rfl⟩
  | fsFileProbeReply id status size =>
    dsimp only [ManagementServer.handleDeviceMessage, ManagementServer.filesystemReply]
    split <;> exact ⟨rfl, rfl, rfl, rfl⟩
  | updateVersion version =>
    dsimp only [ManagementServer.handleDeviceMessage, ManagementServer.handleUpdateVersion]
    split <;> exact ⟨rfl, rfl, rfl, rfl⟩
  | _ => exact ⟨rfl, rfl, rfl, rfl⟩

omit h in
theorem receive_eq {server : ManagementServer} {c : Nat} (hconn : server.connections c = some conn)
    (request : PyRequest) (env : MessageEnv) :
    server.receive c request env =
      (server.handleDeviceMessage env conn request).1.setConnection c
        (if (server.handleDeviceMessage env conn request).2.2 = .handled
          then some (server.handleDeviceMessage env conn request).2.1 else none) := by
  unfold ManagementServer.receive
  rw [hconn]

theorem Current.message (c : Nat) (env : MessageEnv) {request : PyRequest}
    (hother : ∀ progress, request ≠ .updateProgress progress) :
    (s.step (.message c request env)).Current := by
  change Current ⟨s.server.receive c request env, s.offered⟩
  cases hconn : s.server.connections c with
  | none =>
    unfold ManagementServer.receive
    rw [hconn]
    exact h
  | some conn =>
    rw [receive_eq hconn]
    obtain ⟨hrows, hconnections, hmac, hversion⟩ :=
      @handleDeviceMessage_version env conn s.server request hother
    generalize s.server.handleDeviceMessage env conn request = handled at *
    obtain ⟨server, conn', e⟩ := handled
    refine h.setConnection c (fun u hu => h.rows u (hrows ▸ hu)) hconnections ?_
    intro conn₁ kept hconn₁ hkept hne
    split at hconn₁
    · cases hconn₁
      rw [hmac]
      exact h.connections c conn kept hconn (hversion ▸ hkept) hne
    · cases hconn₁

/-- A check leaves nothing out of date exactly if it offers no other version than was left. -/
theorem Current.check_iff {env : CheckEnv} {store : UpdateStore} {token : DeviceToken}
    {body : CheckBody} :
    (s.step (.check env store token body)).Current ↔ s.Orderly (.check env store token body) := by
  have hrow : (s.checked env store token body).1.deviceUpdates =
      s.server.deviceUpdates ++ ((s.offer env store token body).map offerRow).toList :=
    checkForUpdate_row token body
  unfold step Orderly
  dsimp only
  rw [hrow]
  cases s.offer env store token body with
  | none =>
    refine iff_of_true ⟨fun u hu => ?_, h.connections⟩ nofun
    exact h.rows u ((List.append_nil s.server.deviceUpdates) ▸ hu)
  | some offer =>
    obtain ⟨mac, version⟩ := offer
    constructor
    · rintro hcurrent _ _ ⟨⟩
      refine ⟨fun u hu hmac => ?_, fun c conn kept hconn hmac hkept => ?_⟩
      · have hnew : Function.update s.offered mac (some version) u.macAddress = some u.version :=
          hcurrent.rows u (List.mem_append_left _ hu)
        rw [hmac, Function.update_self] at hnew
        exact (Option.some.inj hnew).symm
      · refine or_iff_not_imp_left.mpr fun hne => ?_
        have hnew : Function.update s.offered mac (some version) conn.deviceId = some kept :=
          hcurrent.connections c conn kept hconn hkept hne
        rw [hmac, Function.update_self] at hnew
        exact (Option.some.inj hnew).symm
    · intro horderly
      obtain ⟨hrows, hconnections⟩ := horderly mac version rfl
      refine ⟨fun u hu => ?_, fun c conn kept hconn hkept hne => ?_⟩
      · change Function.update s.offered mac (some version) u.macAddress = some u.version
        rcases List.mem_append.mp hu with hu | hu
        · by_cases hmac : u.macAddress = mac
          · rw [hmac, Function.update_self, hrows u hu hmac]
          · rw [Function.update_of_ne hmac]
            exact h.rows u hu
        · rw [List.mem_singleton.mp hu]
          exact Function.update_self mac (some version) s.offered
      · change Function.update s.offered mac (some version) conn.deviceId = some kept
        by_cases hmac : conn.deviceId = mac
        · rw [hmac, Function.update_self]
          rcases hconnections c conn kept hconn hmac hkept with hempty | hsame
          · exact absurd hempty hne
          · rw [hsame]
        · rw [Function.update_of_ne hmac]
          exact h.connections c conn kept hconn hkept hne

/-- One event: what it publishes is right, and it leaves nothing out of date, exactly if it is in
order. -/
theorem Current.step_iff (event : UpdateEvent) :
    s.Named event ∧ (s.step event).Current ↔ s.Orderly event := by
  cases event with
  | check env store token body =>
    rw [← h.check_iff]
    exact and_iff_right trivial
  | connect c mac =>
    refine iff_of_true ⟨trivial, h.setConnection c h.rows rfl ?_⟩ trivial
    rintro conn kept ⟨⟩ ⟨⟩
  | disconnect c => exact iff_of_true ⟨trivial, h.setConnection c h.rows rfl nofun⟩ trivial
  | message c request env =>
    by_cases hprogress : ∃ progress, request = .updateProgress progress
    · obtain ⟨progress, rfl⟩ := hprogress
      constructor
      · rintro ⟨hnamed, -⟩ conn hconn
        obtain ⟨hversion, hrows⟩ := hnamed conn hconn
        exact ⟨(h.version_eq_iff hconn progress).mp hversion, (progress_rows_iff hconn).mp hrows⟩
      · intro horderly
        have hnamed : s.Named (.message c (.updateProgress progress) env) := by
          intro conn hconn
          obtain ⟨hpending, hend⟩ := horderly conn hconn
          exact ⟨(h.version_eq_iff hconn progress).mpr hpending, (progress_rows_iff hconn).mpr hend⟩
        refine ⟨hnamed, ?_⟩
        cases hconn : s.server.connections c with
        | none =>
          change Current ⟨s.server.receive c (.updateProgress progress) env, s.offered⟩
          unfold ManagementServer.receive
          rw [hconn]
          exact h
        | some conn => exact h.progress hconn (hnamed conn hconn).1
    · have hother : ∀ progress, request ≠ .updateProgress progress :=
        fun progress heq => hprogress ⟨progress, heq⟩
      have hcurrent := h.message c env hother
      cases request with
      | updateProgress progress => exact absurd rfl (hother progress)
      | _ => exact iff_of_true ⟨trivial, hcurrent⟩ trivial

end Step

/-- Runs that publish the right versions and leave nothing out of date behind are those whose events
are in order. -/
theorem progress_current_iff {start : UpdateServer} (hstart : start.Current)
    (events : List UpdateEvent) :
    Along step (fun s event => s.Named event ∧ (s.step event).Current) start events ↔
      Along step Orderly start events :=
  Along.iff_of_invariant (fun _ event h =>
    ⟨h.step_iff event, fun horderly => ((h.step_iff event).mpr horderly).2⟩) hstart

end UpdateServer

/-- In every run whose events are in order, each progress message is published with the version of
the package last offered to the device, and the end of an update leaves no row of it. -/
theorem progress_named (start : UpdateServer) (hstart : start.Current) (events : List UpdateEvent)
    (hrun : Along UpdateServer.step UpdateServer.Orderly start events) :
    Along UpdateServer.step UpdateServer.Named start events := by
  refine Along.of_invariant (fun s event h horderly => ?_) hstart hrun
  obtain ⟨hnamed, hcurrent⟩ := (h.step_iff event).mpr horderly
  exact ⟨hcurrent, hnamed⟩

namespace UpdateProgressRun

def start : UpdateServer where
  server :=
    { devices := []
      actionLogs := []
      deviceUpdates := []
      actionExecutions := fun _ => none
      filesystemOperations := fun _ => none
      connections := fun _ => none
      made := fun _ => none }
  offered := fun _ => none

/-- A device in a group with the package of a version. -/
def store (version : String) : UpdateStore where
  db := {
    devices := [⟨1, "d", "d", ∅, none⟩]
    groups := [⟨1, "exact_match," ++ version, 0⟩]
    deviceGroups := [⟨1, 1⟩]
    deviceTags := []
    packages := [7]
    groupPackages := [⟨1, 7⟩]
    logs := []
    permissions := []
    constraints := by
      constructor <;> simp }
  registrations := []
  packages := [⟨7, "Mon, 14 Aug 2023 13:03:27 GMT", "local", "4e415854",
    .ofItems [(metaSoftVer, version), (metaDeviceType, "type")]⟩]
  packages_id := rfl
  deviceUpdates := []

def check (version : String) : UpdateEvent :=
  .check UpdateCheckRun.env (store version) ⟨"d", 0, deviceJwtExpiry⟩
    (.metadata (UpdateCheckRun.body "d"))

def progress (value : Int) : UpdateEvent :=
  .message 0 (.updateProgress value) ⟨fun _ _ => none, true, 0⟩

end UpdateProgressRun

open UpdateProgressRun

/-- A package is offered, and the device connects and installs it. -/
theorem progress_named_installed :
    Along UpdateServer.step UpdateServer.Named start
      [check "v2", .connect 0 "d", progress 50, progress 100] := by
  refine progress_named start ⟨nofun, nofun⟩ _ ⟨?_, trivial, ?_, ?_, trivial⟩
  · exact fun mac version _ => ⟨nofun, nofun⟩
  · rintro conn ⟨⟩
    exact ⟨.inl ⟨⟨"d", "v2", 0⟩, List.mem_singleton_self _, rfl⟩, fun _ => .inl rfl⟩
  · rintro conn ⟨⟩
    exact ⟨.inl ⟨⟨"d", "v2", 50⟩, List.mem_singleton_self _, rfl⟩, fun _ => .inl rfl⟩

/-- The device is offered `v2` and does not install it, and then `v3`. Its progress is published as
that of `v2`. -/
theorem progress_of_abandoned_update :
    let s := [check "v2", check "v3", .connect 0 "d"].foldl UpdateServer.step start
    s.offered "d" = some "v3" ∧
      (s.server.connections 0).map (fun conn =>
        s.server.progressEvent ⟨fun _ _ => none, true, 0⟩ conn 50) = some ⟨"d", 50, some "v2"⟩ ∧
      ¬ ∀ events, Along UpdateServer.step UpdateServer.Named start events := by
  refine ⟨rfl, rfl, fun hall => ?_⟩
  obtain ⟨-, -, -, hnamed, -⟩ := hall [check "v2", check "v3", .connect 0 "d", progress 50]
  have hversion : some "v2" = some "v3" := (hnamed _ rfl).1
  exact absurd hversion (by decide)

end Rdfm.Server
