import Rdfm.Linux.CheckUpdate
import Rdfm.Linux.InstallEnd
import Rdfm.Server.Campaign

/-!
# A Linux device in an update campaign

The server and one Linux client: `checkUpdate` sends what `collectMetadata` gathers, with the name of
the installed artifact as the version, and installs what is offered. The artifact is saved as the
update under way; `commit` makes it the installed one, `rollback` drops it, and one that cannot be
rolled back is committed at once. Further checks may come before the commit, and install again.

What is reported changes with a commit only, and what is saved was offered for what is reported. So
the device follows the campaign, whatever fails (`device_converges`), as long as what is fetched has
the version that its package states.
-/

namespace Rdfm.Linux

open Rdfm.Lib
open Server (Metadata MetaValue UpdateStore CheckEnv CheckBody CheckResponse DeviceToken metaSoftVer
  metaDeviceType metaMacAddress metaTags HasVersion UpdateStep OnCourse Offered Converging)

/-! ## What an installation does to the database -/

section Records

variable {R : Type} {dev : DeviceManager R} {io : CallFaults} {w w' w'' : DeviceState R}

/-- The saved update and the installed artifact are left as they are. -/
structure SameRecords (w w' : DeviceState R) : Prop where
  standaloneState : w'.standaloneState = w.standaloneState
  artifactData : w'.artifactData = w.artifactData

theorem SameRecords.refl (w : DeviceState R) : SameRecords w w := ⟨rfl, rfl⟩

theorem SameRecords.of_eq (h : w' = w) : SameRecords w w' := by
  rw [h]
  exact .refl w

theorem SameRecords.trans (h : SameRecords w w') (h' : SameRecords w' w'') : SameRecords w w'' :=
  ⟨h'.1.trans h.1, h'.2.trans h.2⟩

theorem SameKeys.sameRecords (h : SameKeys w w') : SameRecords w w' :=
  ⟨h.standaloneState, h.artifactData⟩

theorem storeFile_sameRecords (f : DataFile) (inst : Installer) (w : DeviceState R) :
    SameRecords w (storeFile dev f inst w).2 := by
  cases inst with
  | rootfs => exact (onRootfs_sameKeys _ w).sameRecords
  | singleFile s => exact ⟨rfl, rfl⟩
  | discard => exact .refl w

theorem storeFiles_sameRecords (budget : Option Nat) (files : List DataFile) (inst : Installer)
    (w : DeviceState R) : SameRecords w (storeFiles dev budget files inst w).2.2.2 := by
  induction files generalizing budget inst w with
  | nil => rcases budget with _ | _ | n <;> exact .refl w
  | cons f files ih =>
    have hfile := @storeFile_sameRecords R dev f inst w
    rcases budget with _ | _ | n
    · exact hfile.trans (ih _ _ _)
    · exact .refl w
    · exact hfile.trans (ih _ _ _)

theorem storePayloads_sameRecords (budget : Option Nat) (payloads : List Payload)
    (w : DeviceState R) : SameRecords w (storePayloads dev budget payloads w).2.2 := by
  induction payloads generalizing budget w with
  | nil => exact .refl w
  | cons p payloads ih =>
    have hfiles := @storeFiles_sameRecords R dev budget p.files (newInstaller dev p.type) w
    unfold storePayloads
    split
    · next hstored =>
      rw [hstored] at hfiles
      exact hfiles
    · next hstored =>
      rw [hstored] at hfiles
      exact hfiles.trans (ih _ _)

theorem rollbackHandlers_sameRecords (i : Nat) (insts : List Installer) (w : DeviceState R) :
    SameRecords w (rollbackHandlers dev io i insts w) := by
  induction insts generalizing i w with
  | nil => exact .refl w
  | cons inst insts ih =>
    have hone := (@rollbackInstaller_sameKeys R dev (io.rollback i) inst w).sameRecords
    unfold rollbackHandlers
    split
    · split
      · next hrollback =>
        rw [hrollback] at hone
        exact hone
      · next hrollback =>
        rw [hrollback] at hone
        exact hone.trans (ih _ _)
    · exact ih _ _

theorem cleanupHandlers_sameRecords (insts : List Installer) (w : DeviceState R) :
    SameRecords w (cleanupHandlers dev insts w) := by
  unfold cleanupHandlers
  induction insts generalizing w with
  | nil => exact .refl w
  | cons inst insts ih =>
    rw [List.foldl_cons]
    refine SameRecords.trans ?_ (ih _)
    split
    · exact (onRootfs_sameKeys _ w).sameRecords
    · exact .refl w

theorem handleFailure_sameRecords (insts : List Installer) (w : DeviceState R) :
    SameRecords w (handleFailure dev io insts w) := by
  unfold handleFailure
  refine SameRecords.trans ?_ (cleanupHandlers_sameRecords insts _)
  split
  · exact rollbackHandlers_sameRecords 0 insts w
  · exact .refl w

theorem installHandlers_sameRecords (i : Nat) (insts : List Installer) (w : DeviceState R) :
    SameRecords w (installHandlers dev io i insts w).2 := by
  induction insts generalizing i w with
  | nil => exact .refl w
  | cons inst insts ih =>
    cases inst with
    | rootfs =>
      unfold installHandlers
      split
      · exact (onRootfs_sameKeys _ w).sameRecords
      · exact (onRootfs_sameKeys _ w).sameRecords.trans (ih _ _)
    | singleFile s => exact ih _ _
    | discard => exact ih _ _

theorem saveStates_sameRecords (insts : List Installer) (w : DeviceState R) :
    SameRecords w (saveStates insts w) := by
  unfold saveStates
  induction insts generalizing w with
  | nil => exact .refl w
  | cons inst insts ih =>
    rw [List.foldl_cons]
    refine SameRecords.trans ?_ (ih _)
    cases inst with
    | singleFile s => exact ⟨rfl, rfl⟩
    | rootfs => exact .refl w
    | discard => exact .refl w

/-- An update with this name is saved, or nothing. -/
structure Saved (name : Text) (w w' : DeviceState R) : Prop where
  artifactData : w'.artifactData = w.artifactData
  saved : w'.standaloneState = w.standaloneState ∨
    ∃ sd, w'.standaloneState = .value sd ∧ sd.artifactName = name

theorem SameRecords.saved (h : SameRecords w w') (name : Text) : Saved name w w' :=
  ⟨h.artifactData, .inl h.standaloneState⟩

theorem SameRecords.trans_saved {name : Text} (h : SameRecords w w') (h' : Saved name w' w'') :
    Saved name w w'' := by
  refine ⟨h'.artifactData.trans h.artifactData, ?_⟩
  rw [← h.standaloneState]
  exact h'.saved

theorem saveUpdateToStore_saved (art : Artifact) (insts : List Installer) (w : DeviceState R) :
    Saved art.name w (saveUpdateToStore art insts w) := by
  have hstates := saveStates_sameRecords insts w
  unfold saveUpdateToStore
  cases art.provides with
  | none => exact hstates.saved _
  | some provides => exact ⟨hstates.artifactData, .inr ⟨_, rfl, rfl⟩⟩

/-- An ending leaves the database as it is, or drops the saved update, and a commit makes this the
installed one. -/
inductive EndRecords (dev : DeviceManager R) (w w' : DeviceState R) : Prop
  | same (h : SameRecords w w')
  | dropped (hstate : w'.standaloneState = .absent) (hdata : w'.artifactData = w.artifactData)
  | installed (hstate : w'.standaloneState = .absent) (sd : StateData)
      (hsaved : w.standaloneState = .value sd) (hname : sd.artifactName ≠ [])
      (hdata : dev.commitArtifactData w.artifactData sd = some w'.artifactData)

theorem doEnd_records (dev : DeviceManager R) (io : CallFaults) (e : Ending) (w : DeviceState R) :
    EndRecords dev w (doEnd dev io e w).state := by
  by_cases hread : ∃ sd, w.standaloneState = .value sd ∧ sd.version = standaloneStateDataVersion
  · obtain ⟨sd, hsaved, hversion⟩ := hread
    obtain ⟨w', -, hstate, -, hstandalone, hdata, -⟩ := doEnd_readable dev io e hsaved hversion
    rw [hstate]
    unfold storeUpdateInDB
    split
    · exact .same ⟨hstandalone, hdata⟩
    · split
      · next hname =>
        split
        · exact .same ⟨hstandalone, hdata⟩
        · next data hcommit =>
          cases e with
          | rollback => exact absurd rfl hname
          | commit =>
            rw [endData_commit, hdata] at hcommit
            exact .installed rfl sd hsaved hname hcommit
      · exact .dropped rfl hdata
  · obtain ⟨-, hstate⟩ := doEnd_unreadable dev io e fun sd hsaved hversion =>
      hread ⟨sd, hsaved, hversion⟩
    rw [hstate]
    exact .same (.refl w)

/-- An installation saves the update, if it gets so far, and may commit it. -/
theorem doInstallStates_records (dev : DeviceManager R) (io : CallFaults) (art : Artifact)
    (w : DeviceState R) :
    ∃ w₁, (SameRecords w w₁ ∨ art.headersOk = true ∧ Saved art.name w w₁) ∧
      EndRecords dev w₁ (doInstallStates dev io art w).state := by
  have hnothing : ∃ w₁, (SameRecords w w₁ ∨ art.headersOk = true ∧ Saved art.name w w₁) ∧
      EndRecords dev w₁ w := ⟨w, .inl (.refl w), .same (.refl w)⟩
  have hstored := @storePayloads_sameRecords R dev io.data art.payloads w
  unfold doInstallStates
  split
  · exact hnothing
  · next hheaders =>
    have hheaders : art.headersOk = true := by
      simpa [initializeArtifactHandlers, readArtifactHeaders] using hheaders
    split
    · exact hnothing
    · split
      · exact hnothing
      · rcases hpayloads : storePayloads dev io.data art.payloads w with ⟨failed, insts, w₁⟩
        rw [hpayloads] at hstored
        dsimp only at hstored ⊢
        split
        · have hsame := hstored.trans (@handleFailure_sameRecords R dev io (performers insts) w₁)
          exact ⟨_, .inl hsame, .same (.refl _)⟩
        · have hinstalled := hstored.trans
            (@installHandlers_sameRecords R dev io 0 (performers insts) w₁)
          split
          · have hsame := hinstalled.trans
              (@handleFailure_sameRecords R dev io (performers insts) _)
            exact ⟨_, .inl hsame, .same (.refl _)⟩
          · have hsaved := hinstalled.trans_saved
              (saveUpdateToStore_saved art (performers insts) _)
            split
            · exact ⟨_, .inr ⟨hheaders, hsaved⟩, .same (.refl _)⟩
            · exact ⟨_, .inr ⟨hheaders, hsaved⟩, doEnd_records dev io .commit _⟩

end Records

/-! ## The system -/

/-- What the device reports besides the version, which stays as it is: the file of metadata, the device
type, the address and the tags. -/
structure Identity where
  base : Metadata
  devType : Text
  macAddr : Text
  tags : List Text

/-- `collectMetadata`, where every file can be read. -/
def collectMetadata (id : Identity) (swVer : Text) : Metadata :=
  let m := id.base.insert metaDeviceType (.str (String.ofList id.devType))
  let m := m.insert metaSoftVer (.str (String.ofList swVer))
  let m := m.insert metaMacAddress (.str (String.ofList id.macAddr))
  let m := m.insert "rdfm.software.supports_rsync" (.str "true")
  let m := m.insert "rdfm.software.supports_xdelta" (.str "true")
  if id.tags = [] then m else m.insert metaTags (.list (id.tags.map String.ofList))

structure CampaignState (κ R : Type) where
  store : UpdateStore
  updater : UpdaterState κ R

inductive CampaignEvent where
  /-- The server answers a check of any other device. -/
  | other (token : DeviceToken) (body : CheckBody)
  /-- A round of `updateCheckerLoop`: the server answers the check, and the answer arrives or not. -/
  | check (token : DeviceToken) (arrives : Bool) (io : CallFaults) (served : Served)
  /-- `CommitCurrentArtifact`, with what the verification script says. -/
  | commit (verified : Bool) (io : CallFaults)
  | rollback (io : CallFaults)

/-- The reply, as the client gets it. -/
def checkReply : CheckResponse → CheckReply
  | .update id created sha256 uri =>
    .available (some ⟨id.toNat, created.toList, sha256.toList, uri.toList⟩)
  | .noContent => .noUpdates
  | .error _ 400 => .missingMetadata
  | .error _ 401 => .unauthorized
  | .error _ _ => .unexpected

section System

variable {κ R : Type} [DecidableEq κ]

namespace CampaignState

/-- What the device reports. -/
def report (id : Identity) (st : CampaignState κ R) : Metadata :=
  collectMetadata id st.updater.device.artifactData.artifactName

variable (env : CheckEnv) (tar : Tar) (sha1 : Bytes → κ)
  (areader : Bytes → ReadEnd → Artifact × Option Nat) (dev : DeviceManager R) (id : Identity)

def next (st : CampaignState κ R) : CampaignEvent → CampaignState κ R
  | .other token body => { st with store := (Server.checkForUpdate env st.store token body).1 }
  | .check token arrives io served =>
    match Server.checkForUpdate env st.store token (.metadata (st.report id)) with
    | (store, response) =>
      let reply := if arrives then checkReply response else .failed
      ⟨store, (checkUpdate tar sha1 areader dev io reply served st.updater).state⟩
  | .commit verified io =>
    if verified then
      { st with updater.device := (doCommit dev io st.updater.device).state }
    else st
  | .rollback io => { st with updater.device := (doRollback dev io st.updater.device).state }

/-- What is fetched for a package is an artifact of the version that the package states, or none. -/
def Genuine (packages : List Server.Package) (st : CampaignState κ R) : CampaignEvent → Prop
  | .check token _ _ served => ∀ i created sha256 uri,
    (Server.checkForUpdate env st.store token (.metadata (st.report id))).2 =
      .update i created sha256 uri →
    ∀ data e, fetchUpdate tar sha1 uri.toList served st.updater.cache = some (data, e) →
      (areader data e).1.headersOk = true → ∀ p ∈ packages, p.id = i →
        HasVersion p.info.info (String.ofList (areader data e).1.name)
  | _ => True

end CampaignState

end System

/-! ## What is reported -/

section Report

variable (id : Identity) (swVer : Text)

theorem collectMetadata_lookup {key : String} (hkey : key ≠ metaTags) :
    (collectMetadata id swVer).lookup key =
      (((((id.base.insert metaDeviceType (.str (String.ofList id.devType))).insert metaSoftVer
        (.str (String.ofList swVer))).insert metaMacAddress (.str (String.ofList id.macAddr))).insert
        "rdfm.software.supports_rsync" (.str "true")).insert
        "rdfm.software.supports_xdelta" (.str "true")).lookup key := by
  unfold collectMetadata
  dsimp only
  split
  · rfl
  · exact AList.lookup_insert_ne hkey

theorem collectMetadata_version : HasVersion (collectMetadata id swVer) (String.ofList swVer) := by
  unfold HasVersion
  rw [collectMetadata_lookup id swVer (by decide), AList.lookup_insert_ne (by decide),
    AList.lookup_insert_ne (by decide), AList.lookup_insert_ne (by decide), AList.lookup_insert]

theorem collectMetadata_devType :
    (collectMetadata id swVer).lookup metaDeviceType = some (.str (String.ofList id.devType)) := by
  rw [collectMetadata_lookup id swVer (by decide), AList.lookup_insert_ne (by decide),
    AList.lookup_insert_ne (by decide), AList.lookup_insert_ne (by decide),
    AList.lookup_insert_ne (by decide), AList.lookup_insert]

theorem collectMetadata_mac :
    (collectMetadata id swVer).lookup metaMacAddress = some (.str (String.ofList id.macAddr)) := by
  rw [collectMetadata_lookup id swVer (by decide), AList.lookup_insert_ne (by decide),
    AList.lookup_insert_ne (by decide), AList.lookup_insert]

theorem collectMetadata_contains : Server.containsRequired (collectMetadata id swVer) = true := by
  have hversion := collectMetadata_version id swVer
  unfold HasVersion at hversion
  simp [Server.containsRequired, hversion, collectMetadata_devType, collectMetadata_mac]

end Report

/-! ## Following -/

section Check

variable {κ R : Type} [DecidableEq κ] {tar : Tar} {sha1 : Bytes → κ}
  {areader : Bytes → ReadEnd → Artifact × Option Nat} {dev : DeviceManager R} {io : CallFaults}
  {served : Served} {s : UpdaterState κ R}

theorem checkReply_available {response : CheckResponse} {pkg : Package}
    (h : checkReply response = .available (some pkg)) :
    ∃ i created sha256 uri, response = .update i created sha256 uri ∧ pkg.uri = uri.toList := by
  cases response with
  | update i created sha256 uri =>
    cases h
    exact ⟨i, created, sha256, uri, rfl, rfl⟩
  | noContent => cases h
  | error message status =>
    unfold checkReply at h
    split at h <;> simp_all

/-- A check leaves the device as it is, or installs what is offered. -/
theorem checkUpdate_device (reply : CheckReply) :
    (checkUpdate tar sha1 areader dev io reply served s).state.device = s.device ∨
      ∃ pkg data e, reply = .available (some pkg) ∧
        fetchUpdate tar sha1 pkg.uri served s.cache = some (data, e) ∧
        (checkUpdate tar sha1 areader dev io reply served s).state.device =
          (doInstallStates dev { io with data := (areader data e).2 } (areader data e).1
            s.device).state := by
  cases reply with
  | failed | noUpdates | missingMetadata | unauthorized | unexpected => exact .inl rfl
  | available pkg =>
    cases pkg with
    | none => exact .inl rfl
    | some pkg =>
      unfold checkUpdate doInstall
      dsimp only
      cases hfetch : fetchUpdate tar sha1 pkg.uri served s.cache with
      | none => exact .inl rfl
      | some result =>
        obtain ⟨data, e⟩ := result
        exact .inr ⟨pkg, data, e, rfl, hfetch, rfl⟩

end Check

section Following

variable {κ R : Type} {env : CheckEnv} {tar : Tar} {sha1 : Bytes → κ}
  {areader : Bytes → ReadEnd → Artifact × Option Nat} {dev : DeviceManager R} {t : String}
  {packages : List Server.Package} {id : Identity} {st st' : CampaignState κ R}

variable (env t packages id) in
/-- What holds of a device in a campaign: the saved update was offered for what is reported. -/
structure Following (st : CampaignState κ R) : Prop where
  campaign : Server.Campaign env st.store (String.ofList id.macAddr) t packages
  saved : ∀ sd, st.updater.device.standaloneState = .value sd →
    Offered env t packages (st.report id) (String.ofList sd.artifactName)

theorem CampaignState.report_congr
    (h : st'.updater.device.artifactData = st.updater.device.artifactData) :
    st'.report id = st.report id := by
  unfold CampaignState.report
  rw [h]

namespace Following

theorem same (h : Following env t packages id st)
    (hstore : Server.Campaign env st'.store (String.ofList id.macAddr) t packages)
    (hsame : SameRecords st.updater.device st'.updater.device) :
    Following env t packages id st' ∧ st'.report id = st.report id := by
  have hreport : st'.report id = st.report id := CampaignState.report_congr hsame.artifactData
  refine ⟨⟨hstore, fun sd hsaved => ?_⟩, hreport⟩
  rw [hreport]
  exact h.saved sd (hsame.standaloneState ▸ hsaved)

/-- An update of an offered version is saved. -/
theorem saves (h : Following env t packages id st)
    (hstore : Server.Campaign env st'.store (String.ofList id.macAddr) t packages) {name : Text}
    (hoffered : Offered env t packages (st.report id) (String.ofList name))
    (hsaved : Saved name st.updater.device st'.updater.device) :
    Following env t packages id st' ∧ st'.report id = st.report id := by
  have hreport : st'.report id = st.report id := CampaignState.report_congr hsaved.artifactData
  refine ⟨⟨hstore, fun sd hvalue => ?_⟩, hreport⟩
  rw [hreport]
  rcases hsaved.saved with hsame | ⟨sd', hvalue', hname⟩
  · exact h.saved sd (hsame ▸ hvalue)
  · cases hvalue'.symm.trans hvalue
    rw [hname]
    exact hoffered

/-- An ending leaves what is reported, or makes the saved version the one that is reported. -/
theorem ends (h : Following env t packages id st)
    (hsp : ShortestPath env.shortestPath)
    (hcommit : ∀ data sd data', dev.commitArtifactData data sd = some data' →
      data'.artifactName = sd.artifactName)
    (hstore : Server.Campaign env st'.store (String.ofList id.macAddr) t packages)
    (hend : EndRecords dev st.updater.device st'.updater.device) :
    Following env t packages id st' ∧ (st'.report id = st.report id ∨
      UpdateStep (packages.map Server.Package.info) t (st.report id) (st'.report id)) := by
  have hdropped (hstate : st'.updater.device.standaloneState = .absent) :
      Following env t packages id st' := by
    refine ⟨hstore, fun sd hsaved => ?_⟩
    rw [hstate] at hsaved
    cases hsaved
  cases hend with
  | same hsame => exact (h.same hstore hsame).imp_right .inl
  | dropped hstate hdata => exact ⟨hdropped hstate, .inl (CampaignState.report_congr hdata)⟩
  | installed hstate sd hsaved hname hdata =>
    have hversion : HasVersion (st'.report id) (String.ofList sd.artifactName) := by
      rw [← hcommit _ _ _ hdata]
      exact collectMetadata_version id _
    exact ⟨hdropped hstate, .inr ((h.saved sd hsaved).updateStep hsp hversion
      (collectMetadata_devType id _) (collectMetadata_devType id _))⟩

variable [DecidableEq κ]

/-- A check: what is offered has been picked for what is reported. -/
theorem check (h : Following env t packages id st) (hsp : ShortestPath env.shortestPath)
    (hcommit : ∀ data sd data', dev.commitArtifactData data sd = some data' →
      data'.artifactName = sd.artifactName) (token : DeviceToken) (arrives : Bool)
    (io : CallFaults) (served : Served)
    (hgenuine : st.Genuine env tar sha1 areader id packages (.check token arrives io served)) :
    Following env t packages id
        (st.next env tar sha1 areader dev id (.check token arrives io served)) ∧
      ((st.next env tar sha1 areader dev id (.check token arrives io served)).report id =
          st.report id ∨
        UpdateStep (packages.map Server.Package.info) t (st.report id)
          ((st.next env tar sha1 areader dev id (.check token arrives io served)).report id)) := by
  have hstore := h.campaign.checkForUpdate token (.metadata (st.report id))
  rcases hresponse : Server.checkForUpdate env st.store token (.metadata (st.report id)) with
    ⟨store, response⟩
  rw [hresponse] at hstore
  dsimp only at hstore
  simp only [CampaignState.next, hresponse]
  rcases @checkUpdate_device κ R _ tar sha1 areader dev io served st.updater
      (if arrives then checkReply response else .failed) with
    hdevice | ⟨pkg, data, e, hreply, hfetch, hdevice⟩
  · exact (h.same hstore (.of_eq hdevice)).imp_right .inl
  · cases arrives with
    | false => cases hreply
    | true =>
      obtain ⟨i, created, sha256, uri, rfl, huri⟩ := checkReply_available hreply
      rw [huri] at hfetch
      obtain ⟨index, p, hresolve, hp, hid⟩ :=
        h.campaign.offered (collectMetadata_mac id _) (congrArg Prod.snd hresponse)
      have hoffered (hheaders : (areader data e).1.headersOk = true) :
          Offered env t packages (st.report id) (String.ofList (areader data e).1.name) :=
        ⟨index, p, hresolve, hp, hgenuine i created sha256 uri (congrArg Prod.snd hresponse) data e
          hfetch hheaders p (List.mem_of_getElem? hp) hid⟩
      obtain ⟨w₁, hrecords, hend⟩ := doInstallStates_records dev
        { io with data := (areader data e).2 } (areader data e).1 st.updater.device
      rw [← hdevice] at hend
      -- The state between the installation and a commit at once.
      have hbetween : Following env t packages id ⟨store, ⟨st.updater.cache, w₁⟩⟩ ∧
          (⟨store, ⟨st.updater.cache, w₁⟩⟩ : CampaignState κ R).report id = st.report id := by
        rcases hrecords with hsame | ⟨hheaders, hsaved⟩
        · exact h.same hstore hsame
        · exact h.saves hstore (hoffered hheaders) hsaved
      rw [← hbetween.2]
      exact hbetween.1.ends hsp hcommit hstore hend

theorem step (h : Following env t packages id st) (hsp : ShortestPath env.shortestPath)
    (hcommit : ∀ data sd data', dev.commitArtifactData data sd = some data' →
      data'.artifactName = sd.artifactName) (event : CampaignEvent)
    (hgenuine : st.Genuine env tar sha1 areader id packages event) :
    Following env t packages id (st.next env tar sha1 areader dev id event) ∧
      ((st.next env tar sha1 areader dev id event).report id = st.report id ∨
        UpdateStep (packages.map Server.Package.info) t (st.report id)
          ((st.next env tar sha1 areader dev id event).report id)) := by
  cases event with
  | other token body => exact ⟨⟨h.campaign.checkForUpdate token body, h.saved⟩, .inl rfl⟩
  | check token arrives io served => exact h.check hsp hcommit token arrives io served hgenuine
  | commit verified io =>
    cases verified with
    | false => exact ⟨h, .inl rfl⟩
    | true => exact h.ends hsp hcommit h.campaign (doEnd_records dev io .commit _)
  | rollback io => exact h.ends hsp hcommit h.campaign (doEnd_records dev io .rollback _)

end Following

end Following

/-! ## Runs -/

/-- **A Linux device converges.** Whatever fails on the way, however often the update is installed
again or rolled back before it is committed, and whatever the server answers to others: what the
device reports changes by updates of the campaign only, so that no version comes back and the target
is reached after at most as many updates as hops lead there. Until then the server has a package for
the device, and at the target it answers that there is none. -/
theorem device_converges {κ R : Type} [DecidableEq κ] {env : CheckEnv} {tar : Tar}
    {sha1 : Bytes → κ} {areader : Bytes → ReadEnd → Artifact × Option Nat} {dev : DeviceManager R}
    {t : String} {packages : List Server.Package} {id : Identity} {st : CampaignState κ R}
    (hcommit : ∀ data sd data', dev.commitArtifactData data sd = some data' →
      data'.artifactName = sd.artifactName)
    (hsp : ShortestPath env.shortestPath)
    (hcampaign : Server.Campaign env st.store (String.ofList id.macAddr) t packages)
    (hstate : st.updater.device.standaloneState = .absent)
    (hcourse : OnCourse (packages.map Server.Package.info) t (st.report id))
    (events : List CampaignEvent)
    (hrun : Along (CampaignState.next env tar sha1 areader dev id)
      (CampaignState.Genuine env tar sha1 areader id packages) st events) :
    let last := events.foldl (CampaignState.next env tar sha1 areader dev id) st
    Converging (packages.map Server.Package.info) t (st.report id)
      (seen (CampaignState.next env tar sha1 areader dev id) (CampaignState.report id) st events) ∧
    (HasVersion (last.report id) t → ∀ token,
      (Server.checkForUpdate env last.store token (.metadata (last.report id))).2 = .noContent) := by
  intro last
  have hstart : Following env t packages id st := by
    refine ⟨hcampaign, fun sd hsaved => ?_⟩
    rw [hstate] at hsaved
    cases hsaved
  have hstep (st : CampaignState κ R) (event : CampaignEvent)
      (h : Following env t packages id st)
      (hgenuine : st.Genuine env tar sha1 areader id packages event) :=
    Following.step h hsp hcommit event hgenuine
  obtain ⟨hlast, hconverging⟩ := Converging.of_run hstep hstart hrun hcourse
  refine ⟨hconverging, fun ht token => ?_⟩
  exact hlast.campaign.noContent_at_target hsp hconverging (collectMetadata_mac id _)
    (collectMetadata_contains id _) ht

namespace CampaignRun

/-- A board with two root file systems. -/
def board : DeviceManager Unit where
  deviceType := "board".toList
  dualRootfs := some ⟨fun _ _ => (), fun _ => (), fun _ => (), fun _ => (), fun _ => (), true⟩
  loadProvides data := some data.provides
  commitArtifactData _ sd := some ⟨sd.artifactName, sd.artifactGroup, sd.artifactTypeInfoProvides⟩
  elemInSlice := memSlice

def identity : Identity := ⟨∅, "board".toList, "00:00:00:00:00:00".toList, []⟩

def image : Artifact where
  headersOk := true
  compatibleDevices := ["board".toList]
  depends := some [("device_type".toList, .strs ["board".toList])]
  provides := some []
  clearsProvides := []
  name := "2.0.0".toList
  payloads := [⟨.rootfsImage, [⟨"rootfs.ext4".toList, [1]⟩]⟩]

/-- The board runs version 1. -/
def start : CampaignState Nat Unit where
  store := Server.CampaignRun.store
  updater := ⟨fun _ => none, ⟨blankState.fs, (), .absent, .absent, ⟨"1.0.0".toList, [], []⟩⟩⟩

def token : DeviceToken := ⟨"00:00:00:00:00:00", 0, Server.deviceJwtExpiry⟩

/-- The update is installed and rolled back, installed again and committed; then there is none. -/
def events : List CampaignEvent :=
  [.check token true noCallFaults (plainServed [1]), .rollback noCallFaults,
    .check token true noCallFaults (plainServed [1]), .commit false noCallFaults,
    .commit true noCallFaults, .check token true noCallFaults (plainServed [1])]

end CampaignRun

open CampaignRun in
theorem device_converges_updated :
    HasVersion ((events.foldl (CampaignState.next Server.CampaignRun.env shortTar sha1Empty
      (fun _ _ => (image, none)) board identity) start).report identity) "2.0.0" ∧
      Converging [Server.CampaignRun.package.info] "2.0.0" (start.report identity)
        (seen (CampaignState.next Server.CampaignRun.env shortTar sha1Empty
          (fun _ _ => (image, none)) board identity) (CampaignState.report identity) start events) := by
  have hcommit (data : ArtifactData) (sd : StateData) (data' : ArtifactData)
      (h : board.commitArtifactData data sd = some data') : data'.artifactName = sd.artifactName := by
    cases h
    rfl
  have hresolve : Server.resolve MultiDiGraph.shortestPath (start.report identity)
      [Server.CampaignRun.package.info] (Server.exactMatch "2.0.0") = .ok (some 0) := by decide
  have hcourse : OnCourse ([Server.CampaignRun.package].map Server.Package.info) "2.0.0"
      (start.report identity) := (Server.onCourse_of_resolve shortestPath_search hresolve).1
  have hgenuine (st : CampaignState Nat Unit) (event : CampaignEvent) :
      st.Genuine Server.CampaignRun.env shortTar sha1Empty (fun _ _ => (image, none)) identity
        [Server.CampaignRun.package] event := by
    cases event with
    | check token arrives io served =>
      intro i created sha256 uri _ data e _ _ p hp _
      rw [List.mem_singleton] at hp
      subst hp
      have hversion : HasVersion Server.CampaignRun.package.info.info (String.ofList image.name) := by
        decide
      exact hversion
    | other token body => trivial
    | commit verified io => trivial
    | rollback io => trivial
  exact ⟨rfl, (device_converges hcommit shortestPath_search Server.CampaignRun.campaign rfl hcourse events
    (.of_forall fun event _ st => hgenuine st event)).1⟩

end Rdfm.Linux
