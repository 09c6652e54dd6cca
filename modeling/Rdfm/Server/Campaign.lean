import Rdfm.Server.PackageUpload
import Rdfm.Server.ResolverConverge

/-!
# Update campaigns

A group with a target version and packages leads its devices to the target. The server answers the
update checks of all devices, in any order. A check adds at most a row of an update, so that each
device gets at each of its checks the package that `resolve` picks for what it reports then
(`Campaign.offered`).

A device follows the campaign if what it reports changes by installations of such packages only
(`UpdateStep`). Then it converges (`Converging.of_isChain`). That a client follows it, over all that
can happen between two checks, is shown with the model of the client.
-/

namespace Rdfm.Server

open Rdfm.Lib

/-! ## Devices that follow -/

/-- What is reported in the course of a campaign: each change is an update to a package that is picked
for what was reported, no version comes back, there are at most as many updates as hops on a shortest
path, and the last of these reaches the target. Until then a package is found, and at the target none. -/
structure Converging (packages : List PackageInfo) (t : String) (d : Metadata)
    (ds : List Metadata) : Prop where
  updates : (d :: ds).IsChain (UpdateStep packages t)
  distinct : (d :: ds).Pairwise fun a b => ∀ u v, HasVersion a u → HasVersion b v → u ≠ v
  bounded : ∃ n, PathLength packages t d n ∧ ds.length ≤ n ∧
    (ds.length = n → HasVersion ((d :: ds).getLast (List.cons_ne_nil d ds)) t)
  found : ∀ shortestPath, ShortestPath shortestPath →
    ¬ HasVersion ((d :: ds).getLast (List.cons_ne_nil d ds)) t →
    ∃ i, resolve shortestPath ((d :: ds).getLast (List.cons_ne_nil d ds)) packages
      (exactMatch t) = .ok (some i)
  done : ∀ shortestPath, ShortestPath shortestPath →
    HasVersion ((d :: ds).getLast (List.cons_ne_nil d ds)) t →
    resolve shortestPath ((d :: ds).getLast (List.cons_ne_nil d ds)) packages
      (exactMatch t) = .ok none

section Converging

variable {packages : List PackageInfo} {t : String} {d : Metadata} {ds : List Metadata}

theorem Converging.of_isChain (hcourse : OnCourse packages t d)
    (hrun : (d :: ds).IsChain (UpdateStep packages t)) : Converging packages t d ds := by
  have hlast := onCourse_last hcourse hrun
  refine ⟨hrun, versions_distinct hrun, ?_, ?_, ?_⟩
  · obtain ⟨n, hn⟩ := hcourse.pathLength
    obtain ⟨m, hm, hle⟩ := run_pathLength hrun hn
    refine ⟨n, hn, by omega, fun hlen => ?_⟩
    obtain rfl : m = 0 := by omega
    exact hm.at_target
  · intro sp hsp hne
    exact hlast.resolve_some hsp hne
  · intro sp hsp ht
    obtain ⟨u, G, p, ty, -, hty, -, hG, -⟩ := hlast
    exact resolve_at_target hsp ht hty fun _ hp => (hG.carries hp).1

/-- What holds of a device whose steps keep an invariant and change what it reports by updates of the
campaign only. -/
theorem Converging.of_run {σ ι : Type} {next : σ → ι → σ} {cond : σ → ι → Prop}
    {report : σ → Metadata} {Inv : σ → Prop} {st : σ} {events : List ι}
    (hstep : ∀ st e, Inv st → cond st e → Inv (next st e) ∧
      (report (next st e) = report st ∨ UpdateStep packages t (report st) (report (next st e))))
    (hstart : Inv st) (hrun : Along next cond st events)
    (hcourse : OnCourse packages t (report st)) :
    Inv (events.foldl next st) ∧ Converging packages t (report st) (seen next report st events) :=
  ⟨Along.foldl_invariant (fun st e h hcond => (hstep st e h hcond).1) hstart hrun,
    .of_isChain hcourse (seen_isChain (Along.of_invariant hstep hstart hrun))⟩

end Converging

/-! ## The server -/

section Server

variable {env : CheckEnv} {s : UpdateStore} {mac t : String} {packages : List Package}
  {deviceMeta : Metadata} {token : DeviceToken} {body : CheckBody}

theorem offerPackage_tables {device : Device} {package : Package} {s' : UpdateStore}
    {response : CheckResponse} (h : offerPackage env s device package = some (s', response)) :
    ∃ updates, s' = { s with deviceUpdates := updates } := by
  unfold offerPackage at h
  split at h
  · cases h
    exact ⟨_, rfl⟩
  · obtain ⟨link, -, h⟩ := Option.bind_eq_some_iff.mp h
    obtain ⟨version, -, h⟩ := Option.bind_eq_some_iff.mp h
    cases version with
    | list items => cases h
    | str version =>
      cases h
      exact ⟨_, rfl⟩

theorem offerPackage_id {device : Device} {package : Package} {s' : UpdateStore} {id : Int}
    {created sha256 uri : String}
    (h : offerPackage env s device package = some (s', .update id created sha256 uri)) :
    package.id = id := by
  unfold offerPackage at h
  split at h
  · cases h
  · obtain ⟨link, -, h⟩ := Option.bind_eq_some_iff.mp h
    obtain ⟨version, -, h⟩ := Option.bind_eq_some_iff.mp h
    cases version with
    | list items => cases h
    | str version =>
      cases h
      rfl

/-- An answer with an update comes from metadata that has passed the schema. -/
theorem checkForUpdate_update {id : Int} {created sha256 uri : String}
    (h : (checkForUpdate env s token (.metadata deviceMeta)).2 = .update id created sha256 uri) :
    ∃ s', checkMetadata env s deviceMeta = some (s', .update id created sha256 uri) := by
  unfold checkForUpdate at h
  dsimp only at h
  split at h
  · cases hcheck : checkMetadata env s deviceMeta with
    | none =>
      rw [hcheck] at h
      cases h
    | some result =>
      rw [hcheck] at h
      exact ⟨result.1, congrArg some (Prod.ext rfl h)⟩
  · cases h

/-- A check changes nothing but the rows of updates. -/
theorem checkForUpdate_tables (env : CheckEnv) (s : UpdateStore) (token : DeviceToken)
    (body : CheckBody) :
    ∃ updates, (checkForUpdate env s token body).1 = { s with deviceUpdates := updates } := by
  have hsame : ∃ updates, s = { s with deviceUpdates := updates } := ⟨s.deviceUpdates, rfl⟩
  cases body with
  | unreadable => exact hsame
  | refused messages => exact hsame
  | metadata deviceMeta =>
    unfold checkForUpdate
    dsimp only
    split
    · cases hcheck : checkMetadata env s deviceMeta with
      | none => exact hsame
      | some result =>
        obtain ⟨s', response⟩ := result
        unfold checkMetadata at hcheck
        obtain ⟨value, -, hcheck⟩ := Option.bind_eq_some_iff.mp hcheck
        cases value with
        | list items => cases hcheck
        | str hwmac =>
          cases hdevice : (s.getDeviceData env.first hwmac).2 with
          | none =>
            simp only [hdevice] at hcheck
            cases hcheck
            exact hsame
          | some device =>
            simp only [hdevice] at hcheck
            obtain ⟨found, -, hcheck⟩ := Option.bind_eq_some_iff.mp hcheck
            cases found with
            | error r =>
              cases hcheck
              exact hsame
            | ok package => exact offerPackage_tables hcheck
    · exact hsame

variable (env s mac t packages) in
/-- The device with this address is in a group that is active for it, with the policy to run exactly
the target, and with these packages. -/
def Campaign : Prop :=
  ∃ device group, (s.getDeviceData env.first mac).2 = some device ∧ group ∈ s.db.groups ∧
    s.db.fetchActiveGroup (s.db.fetchGroups device.id) = some (some group.id) ∧
    createPolicy group.policy = some (exactMatch t) ∧ s.fetchAssignedData group.id = packages

namespace Campaign

/-- The checks of all devices leave the campaign of each as it is. -/
theorem checkForUpdate (h : Campaign env s mac t packages) (token : DeviceToken)
    (body : CheckBody) : Campaign env (checkForUpdate env s token body).1 mac t packages := by
  obtain ⟨updates, htables⟩ := checkForUpdate_tables env s token body
  rw [htables]
  exact h

theorem findPackage (h : Campaign env s mac t packages) (deviceMeta : Metadata) :
    ∃ device, (s.getDeviceData env.first mac).2 = some device ∧
      findPackage env s deviceMeta device =
        if packages.isEmpty then some (.error .noContent)
        else (resolve env.shortestPath deviceMeta (packages.map Package.info)
          (exactMatch t)).toOption.bind fun
            | none => some (.error .noContent)
            | some index => packages[index]?.map .ok := by
  obtain ⟨device, group, hdevice, hgroup, hactive, hpolicy, rfl⟩ := h
  exact ⟨device, hdevice, findPackage_of_active hgroup hactive hpolicy⟩

/-- The check of the metadata of the device. -/
theorem checkMetadata (h : Campaign env s mac t packages)
    (hmac : deviceMeta.lookup metaMacAddress = some (.str mac)) :
    ∃ device, checkMetadata env s deviceMeta =
      (if packages.isEmpty then some (s, .noContent)
        else (resolve env.shortestPath deviceMeta (packages.map Package.info)
          (exactMatch t)).toOption.bind fun
            | none => some (s, .noContent)
            | some index => packages[index]?.bind (offerPackage env s device)) := by
  obtain ⟨device, hdevice, hfind⟩ := h.findPackage deviceMeta
  refine ⟨device, ?_⟩
  unfold Server.checkMetadata
  rw [hmac]
  dsimp only [Option.bind_eq_bind, Option.bind_some]
  simp only [hdevice, hfind]
  split
  · rfl
  · cases (resolve env.shortestPath deviceMeta (packages.map Package.info) (exactMatch t)).toOption with
    | none => rfl
    | some chosen =>
      cases chosen with
      | none => rfl
      | some index =>
        simp only [Option.bind_some]
        cases packages[index]? <;> rfl

/-- What is offered to the device was picked for what it reports. -/
theorem offered (h : Campaign env s mac t packages)
    (hmac : deviceMeta.lookup metaMacAddress = some (.str mac)) {id : Int}
    {created sha256 uri : String}
    (hresponse : (Server.checkForUpdate env s token (.metadata deviceMeta)).2 =
      .update id created sha256 uri) :
    ∃ i p, resolve env.shortestPath deviceMeta (packages.map Package.info) (exactMatch t) =
      .ok (some i) ∧ packages[i]? = some p ∧ p.id = id := by
  obtain ⟨device, hcheck⟩ := h.checkMetadata hmac
  obtain ⟨s', hoffer⟩ := checkForUpdate_update hresponse
  rw [hcheck] at hoffer
  split at hoffer
  · cases hoffer
  · cases hresolve : resolve env.shortestPath deviceMeta (packages.map Package.info)
        (exactMatch t) with
    | error e =>
      rw [hresolve] at hoffer
      cases hoffer
    | ok chosen =>
      rw [hresolve] at hoffer
      cases chosen with
      | none => cases hoffer
      | some index =>
        simp only [Except.toOption, Option.bind_some] at hoffer
        obtain ⟨package, hpackage, hoffer⟩ := Option.bind_eq_some_iff.mp hoffer
        exact ⟨index, package, rfl, hpackage, offerPackage_id hoffer⟩

/-- Once no package is picked, the device is told that there is none. -/
theorem noContent (h : Campaign env s mac t packages)
    (hmac : deviceMeta.lookup metaMacAddress = some (.str mac))
    (hcontains : containsRequired deviceMeta = true)
    (hresolve : resolve env.shortestPath deviceMeta (packages.map Package.info) (exactMatch t) =
      .ok none) :
    (Server.checkForUpdate env s token (.metadata deviceMeta)).2 = .noContent := by
  obtain ⟨device, hcheck⟩ := h.checkMetadata hmac
  unfold Server.checkForUpdate
  dsimp only
  rw [if_pos hcontains, hcheck, hresolve]
  split <;> rfl

/-- In the end the device is told that there is nothing to update, once it reports the target. -/
theorem noContent_at_target {σ ι : Type} {next : σ → ι → σ} {report : σ → Metadata} {st : σ}
    {events : List ι} (h : Campaign env s mac t packages)
    (hsp : ShortestPath env.shortestPath)
    (hconverging : Converging (packages.map Package.info) t (report st) (seen next report st events))
    (hmac : (report (events.foldl next st)).lookup metaMacAddress = some (.str mac))
    (hcontains : containsRequired (report (events.foldl next st)) = true)
    (ht : HasVersion (report (events.foldl next st)) t) :
    (Server.checkForUpdate env s token (.metadata (report (events.foldl next st)))).2 =
      .noContent := by
  have hdone := hconverging.done _ hsp
  rw [seen_getLast] at hdone
  exact h.noContent hmac hcontains (hdone ht)

end Campaign

variable (env t packages) in
/-- For a device that reports this, the server picks a package with the version. -/
def Offered (d : Metadata) (v : String) : Prop :=
  ∃ i p, resolve env.shortestPath d (packages.map Package.info) (exactMatch t) = .ok (some i) ∧
    packages[i]? = some p ∧ HasVersion p.info.info v

/-- The device comes to report the version of the package: an update of the campaign. -/
theorem Offered.updateStep {d d' : Metadata} {v : String} {ty : MetaValue}
    (hsp : ShortestPath env.shortestPath) (h : Offered env t packages d v)
    (hversion : HasVersion d' v) (hdevType : d.lookup metaDeviceType = some ty)
    (hdevType' : d'.lookup metaDeviceType = some ty) :
    UpdateStep (packages.map Package.info) t d d' := by
  obtain ⟨i, p, hresolve, hp, hpackage⟩ := h
  have hinfo : (packages.map Package.info)[i]? = some p.info := by
    rw [List.getElem?_map, hp]
    rfl
  exact ⟨env.shortestPath, hsp, i, p.info, v, ty, hresolve, hinfo, hpackage, hversion, hdevType,
    hdevType'⟩

end Server

/-! ## A campaign with one package -/

namespace CampaignRun

def env : CheckEnv := ⟨MultiDiGraph.shortestPath, fun _ _ _ => some "http://server/package", 0⟩

/-- A package for boards. -/
def package : Package :=
  ⟨1, "Mon, 14 Aug 2023 13:03:27 GMT", "local", "4e415854",
    .ofItems [(metaSoftVer, "2.0.0"), (metaDeviceType, "board")]⟩

/-- A board in a group with the package, and its version as the target. -/
def store : UpdateStore where
  db := {
    devices := [⟨1, "board", "00:00:00:00:00:00", ∅, none⟩]
    groups := [⟨1, "exact_match,2.0.0", 0⟩]
    deviceGroups := [⟨1, 1⟩]
    deviceTags := []
    packages := [1]
    groupPackages := [⟨1, 1⟩]
    logs := []
    permissions := []
    constraints := by
      constructor <;> simp }
  registrations := []
  packages := [package]
  packages_id := rfl
  deviceUpdates := []

theorem campaign : Campaign env store "00:00:00:00:00:00" "2.0.0" [package] :=
  ⟨_, ⟨1, "exact_match,2.0.0", 0⟩, rfl, List.mem_singleton_self _, rfl, rfl, rfl⟩

end CampaignRun

end Rdfm.Server
