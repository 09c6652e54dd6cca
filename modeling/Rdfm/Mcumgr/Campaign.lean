import Rdfm.Mcumgr.SingleBookkeeping
import Rdfm.Server.Campaign

/-!
# A board in an update campaign

The server and the mcumgr client of one board: `runUpdateTask` asks for an update with the version
that the client has recorded, fetches what is offered and runs the update, call by call. Between any
two calls the board may act of its own, and the server answers the checks of other devices. Checks,
fetches and calls may fail, and answers of the board may be lost.

The board follows the campaign (`campaign_converges`) if the artifacts are of the versions that their
packages state, each update begins on a board that has settled, and the client keeps up with the
board (`Settled`). What it reports is then always the version of the image that it runs.
-/

namespace Rdfm.Mcumgr

open Rdfm.Lib
open Server (Metadata MetaValue UpdateStore CheckEnv CheckBody DeviceToken metaSoftVer
  metaDeviceType metaMacAddress HasVersion UpdateStep OnCourse Converging)

/-! ## The system -/

/-- The body of an update check, as the server reads it. -/
def DeviceMetadata.toMetadata (m : DeviceMetadata) : Metadata :=
  (((∅ : Metadata).insert metaMacAddress (.str (String.ofList m.macAddress))).insert metaSoftVer
    (.str (String.ofList m.softwareVersion))).insert metaDeviceType
    (.str (String.ofList m.deviceType))

structure CampaignState where
  store : UpdateStore
  client : Client

inductive CampaignEvent where
  /-- The server answers a check of any other device. -/
  | other (token : DeviceToken) (body : CheckBody)
  /-- A round of `updateLoop`: the server answers the check, and the client gets what is offered, or
  something fails on the way. -/
  | check (token : DeviceToken) (fetched : Bool)
  | own (act : Own)
  | call (o : Outcome) (leftover : Option Image)

namespace CampaignState

/-- What the client reports of the board. -/
def report (st : CampaignState) : Metadata := st.client.single.metadata.toMetadata

/-- `artifact` is what the client extracts of the file of a package. -/
def next (env : CheckEnv) (artifact : Int → Artifact) (st : CampaignState) :
    CampaignEvent → CampaignState
  | .other token body => { st with store := (Server.checkForUpdate env st.store token body).1 }
  | .check token fetched =>
    match st.client.point with
    -- The loop is in `RunUpdate`.
    | some _ => st
    | none =>
      match Server.checkForUpdate env st.store token (.metadata st.report) with
      | (store, .update id _ _ _) =>
        ⟨store, if fetched then st.client.step (.update (artifact id)) else st.client⟩
      | (store, _) => ⟨store, st.client⟩
  | .own act => { st with client := st.client.step (.own act) }
  | .call o leftover => { st with client := st.client.step (.call o leftover) }

/-- An update begins on a board that runs a confirmed image and has no swap ahead, and the client
keeps up with the board. -/
def Settled (st : CampaignState) : CampaignEvent → Prop
  | .other _ _ => True
  | .check _ _ => st.client.point = none → st.client.slots.Quiet
  | .own act => KeepsUp st.client (.own act)
  | .call o leftover => KeepsUp st.client (.call o leftover)

end CampaignState

/-- The artifacts are of the versions that their packages state. -/
def Truthful (packages : List Server.Package) (artifact : Int → Artifact) : Prop :=
  ∀ p ∈ packages, ∀ image compatible, artifact p.id = .zephyr image compatible →
    HasVersion p.info.info (String.ofList image.version)

/-! ## One update -/

section Report

variable (m : DeviceMetadata)

theorem toMetadata_version : HasVersion m.toMetadata (String.ofList m.softwareVersion) := by
  unfold HasVersion DeviceMetadata.toMetadata
  rw [AList.lookup_insert_ne (by decide), AList.lookup_insert]

theorem toMetadata_devType :
    m.toMetadata.lookup metaDeviceType = some (.str (String.ofList m.deviceType)) :=
  AList.lookup_insert _

theorem toMetadata_mac :
    m.toMetadata.lookup metaMacAddress = some (.str (String.ofList m.macAddress)) := by
  unfold DeviceMetadata.toMetadata
  rw [AList.lookup_insert_ne (by decide), AList.lookup_insert_ne (by decide), AList.lookup_insert]

theorem toMetadata_contains : Server.containsRequired m.toMetadata = true := by
  have hversion := toMetadata_version m
  unfold HasVersion at hversion
  simp [Server.containsRequired, hversion, toMetadata_devType, toMetadata_mac]

end Report

section Stages

variable {image old : Image} {s : BootSlots Image} {p p' : Point} {o : Outcome}
  {leftover : Option Image}

/-- The board has the new image beside the old one. -/
def Uploaded (image old : Image) (s : BootSlots Image) : Prop :=
  s.primary = old ∧ s.secondary = some image ∨ s.primary = image ∧ s.secondary = some old

/-- How far the update of a board with an image has got, by the next call. -/
def Stage (image old : Image) (s : BootSlots Image) : Point → Prop
  | .flash (.acqSession i) | .flash (.writeImage i) => i = image ∧ s.Quiet ∧ s.primary = old
  | _ => Uploaded image old s

theorem Uploaded.reset (h : Uploaded image old s) : Uploaded image old s.reset := by
  obtain ⟨primary, secondary, confirmed, swap⟩ := s
  rcases h with ⟨hprimary, hsecondary⟩ | ⟨hprimary, hsecondary⟩
  all_goals
    dsimp only at hprimary hsecondary
    subst hprimary hsecondary
    cases swap with
    | some kind => simp [Uploaded, BootSlots.reset]
    | none => cases confirmed <;> simp [Uploaded, BootSlots.reset]

/-- A request leaves the images where they are. -/
theorem Uploaded.requestImage (h : Uploaded image old s) (kind : Swap) (hash : Bytes) :
    Uploaded image old ((requestImage kind hash s).getD s) := by
  unfold Mcumgr.requestImage
  split
  · split <;> exact h
  · split <;> exact h

theorem Stage.own (h : Stage image old s p) (act : Own) : Stage image old (act.apply s) p := by
  have hquiet : s.Quiet → act.apply s = s := by
    intro hq
    cases act with
    | confirm => exact congrArg (fun c => { s with confirmed := c }) hq.confirmed.symm
    | reset => exact hq.cycle false
  have huploaded : Uploaded image old s → Uploaded image old (act.apply s) := by
    intro hu
    cases act with
    | confirm => exact hu
    | reset => exact hu.reset
  cases p with
  | flash p =>
    cases p with
    | acqSession i | writeImage i =>
      rw [hquiet h.2.1]
      exact h
    | readImages | setPendingImage hash | resetDevice => exact huploaded h
  | reboot p | device p | manual p => exact huploaded h

/-- After the upload, no call moves the images but a reset. -/
theorem Uploaded.effect (h : Uploaded image old s) (hp : ∀ i, p ≠ .flash (.writeImage i)) :
    Uploaded image old (p.effect o leftover s) := by
  cases p with
  | flash p =>
    cases p with
    | acqSession i => exact h
    | writeImage i => exact absurd rfl (hp i)
    | readImages => exact h
    | setPendingImage hash =>
      dsimp only [Point.effect]
      split
      · exact h
      · exact h.requestImage _ _
    | resetDevice =>
      dsimp only [Point.effect]
      split
      · exact h
      · exact h.reset
  | reboot p => exact h
  | device p => exact h
  | manual p =>
    cases p with
    | acqSession => exact h
    | readImages => exact h
    | confirmImage primary =>
      dsimp only [Point.effect]
      split
      · exact h
      · exact h.requestImage _ _

/-- A point behind the upload. -/
def Point.Later : Point → Prop
  | flash (.acqSession _) | flash (.writeImage _) => False
  | _ => True

theorem Point.Later.stage_iff (h : p.Later) : Stage image old s p ↔ Uploaded image old s := by
  cases p with
  | flash p =>
    cases p with
    | acqSession i | writeImage i => exact h.elim
    | readImages | setPendingImage hash | resetDevice => exact Iff.rfl
  | reboot p | device p | manual p => exact Iff.rfl

/-- Behind the upload, an update goes on behind it. -/
theorem Point.Later.resume {single : Single} {entry : ImageStateEntry} (h : p.Later)
    (hresume : single.resume o p = (.inl p', entry)) : p'.Later := by
  cases p with
  | flash p =>
    cases p with
    | acqSession i | writeImage i => exact h.elim
    | readImages =>
      simp only [Single.resume, flashUpdate] at hresume
      cases himages : imagesAnswer single.dev o with
      | error e => simp [himages] at hresume
      | ok images =>
        by_cases hsame : images.1.hash = images.2.hash
        · simp [himages, hsame] at hresume
        · simp only [himages, hsame, if_false, Prod.mk.injEq, Sum.inl.injEq] at hresume
          rw [← hresume.1]
          trivial
    | setPendingImage hash =>
      simp only [Single.resume, flashUpdate] at hresume
      by_cases hanswer : requestAnswer single.dev o .test hash = true
      · simp only [hanswer, if_true, Prod.mk.injEq, Sum.inl.injEq] at hresume
        rw [← hresume.1]
        trivial
      · simp [hanswer] at hresume
    | resetDevice =>
      simp only [Single.resume, flashUpdate, Outcome.answer] at hresume
      by_cases ho : o = .ok
      · simp only [ho, if_true, Prod.mk.injEq, Sum.inl.injEq] at hresume
        rw [← hresume.1]
        trivial
      · simp [ho] at hresume
  | reboot p =>
    have hfinalize : single.finalize.Later := by
      unfold Single.finalize
      split <;> trivial
    simp only [Single.resume] at hresume
    cases hloop : finishRebootLoop o p with
    | call q =>
      simp only [hloop, Prod.mk.injEq, Sum.inl.injEq] at hresume
      rw [← hresume.1]
      trivial
    | done r =>
      simp only [hloop, Prod.mk.injEq, Sum.inl.injEq] at hresume
      rw [← hresume.1]
      exact hfinalize
  | device p =>
    simp only [Single.resume] at hresume
    rcases hloop : deviceFinalizeLoop single.dev o p with ⟨q | r, entry'⟩
    · simp only [hloop, Prod.mk.injEq, Sum.inl.injEq] at hresume
      rw [← hresume.1]
      trivial
    · simp [hloop] at hresume
  | manual p =>
    simp only [Single.resume] at hresume
    rcases hloop : manualFinalize single.dev o p with ⟨q | r, entry'⟩
    · simp only [hloop, Prod.mk.injEq, Sum.inl.injEq] at hresume
      rw [← hresume.1]
      trivial
    · simp [hloop] at hresume

/-- From a call to the next one. -/
theorem Stage.resume {single : Single} {entry : ImageStateEntry}
    (h : Stage image old single.dev.slots p) (hresume : single.resume o p = (.inl p', entry)) :
    Stage image old (p.effect o leftover single.dev.slots) p' := by
  by_cases hlater : p.Later
  · rw [(hlater.resume hresume).stage_iff]
    refine (hlater.stage_iff.mp h).effect fun i hp => ?_
    rw [hp] at hlater
    exact hlater
  · cases p with
    | flash p =>
      cases p with
      | acqSession i =>
        simp only [Single.resume, flashUpdate] at hresume
        by_cases ho : o = .ok
        · simp only [ho, if_true, Prod.mk.injEq, Sum.inl.injEq] at hresume
          rw [← hresume.1]
          exact h
        · simp [ho] at hresume
      | writeImage i =>
        simp only [Single.resume, flashUpdate] at hresume
        by_cases ho : o = .ok
        · simp only [ho, if_true, Prod.mk.injEq, Sum.inl.injEq] at hresume
          rw [← hresume.1]
          simp only [Point.effect, ho, if_true]
          exact .inl ⟨h.2.2, congrArg some h.1⟩
        · simp [ho] at hresume
      | readImages | setPendingImage hash | resetDevice => exact absurd trivial hlater
    | reboot p | device p | manual p => exact absurd trivial hlater

end Stages

/-! ## Following -/

section Following

variable {env : CheckEnv} {artifact : Int → Artifact} {t : String} {packages : List Server.Package}
  {cfg : DeviceConfig} {st : CampaignState}

/-- What holds of a board in a campaign. -/
structure Following (env : CheckEnv) (t : String) (packages : List Server.Package)
    (cfg : DeviceConfig) (st : CampaignState) : Prop where
  campaign : Server.Campaign env st.store (String.ofList cfg.id) t packages
  kept : Kept st.client
  config : st.client.single.cfg = cfg
  /-- An update is one to an image that was offered for what is reported. -/
  underway : ∀ p, st.client.point = some p → ∃ image old,
    Server.Offered env t packages st.report (String.ofList image.version) ∧
    Recorded st.client.primaryImage old ∧ Stage image old st.client.slots p

theorem report_congr {st st' : CampaignState} (hcfg : st'.client.single.cfg = st.client.single.cfg)
    (hprimary : st'.client.primaryImage = st.client.primaryImage) : st'.report = st.report := by
  have hversion : st'.client.single.dev.primaryImage = st.client.single.dev.primaryImage := hprimary
  unfold CampaignState.report Single.metadata
  rw [hcfg, hversion]

/-- The offered image is recorded: an update of the campaign. -/
theorem updateStep_of_offered {st' : CampaignState} {image : Image}
    (hsp : ShortestPath env.shortestPath)
    (h : Server.Offered env t packages st.report (String.ofList image.version))
    (hcfg : st'.client.single.cfg = st.client.single.cfg)
    (hversion : st'.client.primaryImage.version = image.version) :
    UpdateStep (packages.map Server.Package.info) t st.report st'.report := by
  have hreported := toMetadata_version st'.client.single.metadata
  have hversion' : HasVersion st'.report (String.ofList image.version) := by
    rw [← hversion]
    exact hreported
  have hdevType := toMetadata_devType st'.client.single.metadata
  unfold Single.metadata at hdevType
  rw [hcfg] at hdevType
  refine h.updateStep hsp hversion' (toMetadata_devType _) ?_
  unfold CampaignState.report Single.metadata
  rw [hcfg]
  exact hdevType

theorem Client.step_cfg (w : Client) (e : SingleEvent) : (w.step e).single.cfg = w.single.cfg := by
  cases e with
  | own act => rfl
  | update a =>
    unfold Client.step
    cases w.point with
    | some p => rfl
    | none =>
      dsimp only
      cases w.single.runUpdate a <;> rfl
  | call o leftover =>
    unfold Client.step
    cases w.point with
    | none => rfl
    | some p =>
      dsimp only [Client.called]
      cases (w.single.resume o p).1 <;> rfl

/-- Where an update goes on. -/
theorem Client.resume_of_point {w : Client} {p p' : Point} {o : Outcome} {leftover : Option Image}
    (hp : w.point = some p) (hpoint : (w.step (.call o leftover)).point = some p') :
    ∃ entry, w.single.resume o p = (.inl p', entry) := by
  unfold Client.step at hpoint
  rw [hp] at hpoint
  dsimp only [Client.called] at hpoint
  rcases hresume : w.single.resume o p with ⟨q | r, entry⟩
  · rw [hresume] at hpoint
    cases hpoint
    exact ⟨entry, rfl⟩
  · rw [hresume] at hpoint
    cases hpoint

namespace Following

/-- A step that starts no update and records nothing. -/
theorem of_idle (h : Following env t packages cfg st) {st' : CampaignState}
    (hstore : Server.Campaign env st'.store (String.ofList cfg.id) t packages)
    (hkept : Kept st'.client) (hcfg : st'.client.single.cfg = st.client.single.cfg)
    (hpoint : st'.client.point = none) : Following env t packages cfg st' := by
  refine ⟨hstore, hkept, hcfg.trans h.config, fun p hp => ?_⟩
  rw [hpoint] at hp
  cases hp

theorem own (h : Following env t packages cfg st) (act : Own)
    (hcond : KeepsUp st.client (.own act)) :
    Following env t packages cfg (st.next env artifact (.own act)) := by
  refine ⟨h.campaign, (h.kept.step (.own act)).2 hcond, h.config, fun p hp => ?_⟩
  obtain ⟨image, old, hoffered, hrecorded, hstage⟩ := h.underway p hp
  exact ⟨image, old, hoffered, hrecorded, hstage.own act⟩

/-- A check that offers nothing, or whose update cannot be fetched. -/
theorem answered (h : Following env t packages cfg st) (token : DeviceToken) :
    Following env t packages cfg
      ⟨(Server.checkForUpdate env st.store token (.metadata st.report)).1, st.client⟩ :=
  ⟨h.campaign.checkForUpdate token _, h.kept, h.config, h.underway⟩

/-- An update to an image of a package begins. -/
theorem begins (h : Following env t packages cfg st) (htruthful : Truthful packages artifact)
    (hidle : st.client.point = none) (hquiet : st.client.slots.Quiet) {store : UpdateStore}
    (hstore : Server.Campaign env store (String.ofList cfg.id) t packages) {i : ℕ}
    {p : Server.Package} (hresolve : Server.resolve env.shortestPath st.report
      (packages.map Server.Package.info) (Server.exactMatch t) = .ok (some i))
    (hp : packages[i]? = some p) :
    Following env t packages cfg ⟨store, st.client.step (.update (artifact p.id))⟩ ∧
      (⟨store, st.client.step (.update (artifact p.id))⟩ : CampaignState).report = st.report := by
  have hkept := h.kept.update (artifact p.id)
  have hright := h.kept.right hidle hquiet.confirmed
  unfold Client.step at hkept ⊢
  rw [hidle] at hkept ⊢
  dsimp only at hkept ⊢
  cases hstart : st.client.single.runUpdate (artifact p.id) with
  | error e =>
    rw [hstart] at hkept
    exact ⟨h.of_idle hstore hkept rfl rfl, rfl⟩
  | ok point =>
    rw [hstart] at hkept
    refine ⟨⟨hstore, hkept, h.config, fun q hq => ?_⟩, rfl⟩
    cases hq
    unfold Single.runUpdate at hstart
    cases hartifact : artifact p.id with
    | other =>
      rw [hartifact] at hstart
      cases hstart
    | zephyr image compatible =>
      rw [hartifact] at hstart
      dsimp only at hstart
      split at hstart
      · cases hstart
        have hversion := htruthful p (List.mem_of_getElem? hp) image compatible hartifact
        exact ⟨image, st.client.slots.primary, ⟨i, p, hresolve, hp, hversion⟩,
          ⟨hright.1, hright.2⟩, rfl, hquiet, rfl⟩
      · cases hstart

/-- A call of an update that keeps up with the board: what is reported stays, or the update is done. -/
theorem call (h : Following env t packages cfg st) (hsp : ShortestPath env.shortestPath)
    {o : Outcome} {leftover : Option Image} (hcond : KeepsUp st.client (.call o leftover)) :
    Following env t packages cfg (st.next env artifact (.call o leftover)) ∧
      ((st.next env artifact (.call o leftover)).report = st.report ∨
        UpdateStep (packages.map Server.Package.info) t st.report
          (st.next env artifact (.call o leftover)).report) := by
  have hkept := (h.kept.step (.call o leftover)).2 hcond
  have hcfg := st.client.step_cfg (.call o leftover)
  cases hp : st.client.point with
  | none =>
    have hstep : st.client.step (.call o leftover) = st.client := by
      unfold Client.step
      rw [hp]
    have hnext : st.next env artifact (.call o leftover) = st :=
      congrArg (fun c => { st with client := c }) hstep
    rw [hnext]
    exact ⟨h, .inl rfl⟩
  | some p =>
    obtain ⟨image, old, hoffered, hrecorded, hstage⟩ := h.underway p hp
    -- Of the two images on the board, the one that is not recorded is the offered one.
    have hnew : p.Later → st.client.slots.primary.hash ≠ st.client.primaryImage.hash →
        st.client.slots.primary = image := by
      intro hlater hne
      rcases hlater.stage_iff.mp hstage with ⟨hold, -⟩ | ⟨himage, -⟩
      · rw [hold] at hne
        exact absurd hrecorded.hash.symm hne
      · exact himage
    cases called_cases o leftover hp with
    | givesUp hg hpoint hdev =>
      refine ⟨h.of_idle h.campaign hkept hcfg hpoint, .inl (report_congr hcfg ?_)⟩
      exact (congrArg Device.primaryImage hdev :)
    | goesOn hg p' hpoint hdev hlead =>
      have hprimary : (st.client.step (.call o leftover)).primaryImage = st.client.primaryImage :=
        (congrArg Device.primaryImage hdev :)
      have hreport : (st.next env artifact (.call o leftover)).report = st.report :=
        report_congr hcfg hprimary
      refine ⟨⟨h.campaign, hkept, hcfg.trans h.config, fun q hq => ?_⟩, .inl hreport⟩
      cases hpoint.symm.trans hq
      refine ⟨image, old, by rw [hreport]; exact hoffered, ?_, ?_⟩
      · have hprimary : (st.next env artifact (.call o leftover)).client.primaryImage =
            st.client.primaryImage := hprimary
        rw [hprimary]
        exact hrecorded
      · obtain ⟨entry, hresume⟩ := Client.resume_of_point hp hpoint
        have hslots : (st.client.step (.call o leftover)).slots =
            p.effect o leftover st.client.slots := congrArg Device.slots hdev
        change Stage image old (st.client.step (.call o leftover)).slots p'
        rw [hslots]
        exact hstage.resume hresume
    | finalized hg hread hconfirmed hpoint hdev =>
      have hne : st.client.slots.primary.hash ≠ st.client.primaryImage.hash := by
        intro hsame
        rw [hread] at hg
        exact hg (.inr ⟨hconfirmed, hsame⟩)
      have himage := hnew (by rw [hread]; trivial) hne
      refine ⟨h.of_idle h.campaign hkept hcfg hpoint, .inr (updateStep_of_offered hsp hoffered hcfg ?_)⟩
      have hprimary : (st.client.step (.call o leftover)).primaryImage =
          st.client.slots.primary.entry true := congrArg Device.primaryImage hdev
      change (st.client.step (.call o leftover)).primaryImage.version = _
      rw [hprimary, himage]
      rfl
    | confirmed hg primary hconfirm hpoint hdev =>
      have hread := (hcond p hp).2 primary hconfirm hg
      have hne : st.client.slots.primary.hash ≠ st.client.primaryImage.hash := by
        rw [← hread.hash]
        exact (h.kept.read primary (hconfirm ▸ hp)).1
      have himage := hnew (by rw [hconfirm]; trivial) hne
      refine ⟨h.of_idle h.campaign hkept hcfg hpoint, .inr (updateStep_of_offered hsp hoffered hcfg ?_)⟩
      have hprimary : (st.client.step (.call o leftover)).primaryImage = primary :=
        congrArg Device.primaryImage hdev
      change (st.client.step (.call o leftover)).primaryImage.version = _
      rw [hprimary, hread.version, himage]

theorem step (h : Following env t packages cfg st) (hsp : ShortestPath env.shortestPath)
    (htruthful : Truthful packages artifact) (e : CampaignEvent) (hcond : st.Settled e) :
    Following env t packages cfg (st.next env artifact e) ∧
      ((st.next env artifact e).report = st.report ∨
        UpdateStep (packages.map Server.Package.info) t st.report (st.next env artifact e).report) := by
  cases e with
  | other token body =>
    exact ⟨⟨h.campaign.checkForUpdate token body, h.kept, h.config, h.underway⟩, .inl rfl⟩
  | own act => exact ⟨h.own act hcond, .inl (by cases act <;> rfl)⟩
  | call o leftover => exact h.call hsp hcond
  | check token fetched =>
    have hanswered := h.answered token
    unfold CampaignState.next
    cases hpoint : st.client.point with
    | some p => exact ⟨h, .inl rfl⟩
    | none =>
      dsimp only
      rcases hresponse : Server.checkForUpdate env st.store token (.metadata st.report) with
        ⟨store, response⟩
      rw [hresponse] at hanswered
      cases response with
      | noContent => exact ⟨hanswered, .inl rfl⟩
      | error message status => exact ⟨hanswered, .inl rfl⟩
      | update id created sha256 uri =>
        cases fetched with
        | false => exact ⟨hanswered, .inl rfl⟩
        | true =>
          have hmac : st.report.lookup metaMacAddress = some (.str (String.ofList cfg.id)) := by
            rw [← h.config]
            exact toMetadata_mac _
          obtain ⟨i, p, hresolve, hp, rfl⟩ :=
            h.campaign.offered hmac (congrArg Prod.snd hresponse)
          obtain ⟨hfollowing, hreport⟩ :=
            h.begins htruthful hpoint (hcond hpoint) hanswered.campaign hresolve hp
          exact ⟨hfollowing, .inl hreport⟩

end Following

end Following

/-! ## Runs -/

/-- **A board converges.** Whatever fails on the way, and whatever the server answers to others: what
the board reports changes by updates of the campaign only, so that no version comes back and the
target is reached after at most as many updates as hops lead there. Until then the server has a
package for the board, at the target it answers that there is none, and between two updates the board
runs what it reports. -/
theorem campaign_converges {env : CheckEnv} {artifact : Int → Artifact} {t : String}
    {packages : List Server.Package} {cfg : DeviceConfig} {c : Conduct} {slots : BootSlots Image}
    {single : Single} {store : UpdateStore} (hinit : initSingle cfg c slots = .ok single)
    (hswap : single.dev.slots.swap ≠ some .permanent) (hsp : ShortestPath env.shortestPath)
    (hcampaign : Server.Campaign env store (String.ofList cfg.id) t packages)
    (htruthful : Truthful packages artifact)
    (hcourse : OnCourse (packages.map Server.Package.info) t single.metadata.toMetadata)
    (events : List CampaignEvent)
    (hrun : Along (CampaignState.next env artifact) CampaignState.Settled
      ⟨store, ⟨single, none, none⟩⟩ events) :
    let st := events.foldl (CampaignState.next env artifact) ⟨store, ⟨single, none, none⟩⟩
    Converging (packages.map Server.Package.info) t single.metadata.toMetadata
      (seen (CampaignState.next env artifact) CampaignState.report
        ⟨store, ⟨single, none, none⟩⟩ events) ∧
    (HasVersion st.report t → ∀ token,
      (Server.checkForUpdate env st.store token (.metadata st.report)).2 = .noContent) ∧
    st.client.Right := by
  intro st
  have hcfg : single.cfg = cfg := by
    unfold initSingle at hinit
    split at hinit
    · cases hinit
      rfl
    · cases hinit
  have hstart : Following env t packages cfg ⟨store, ⟨single, none, none⟩⟩ :=
    ⟨hcampaign, initSingle_kept hinit hswap, hcfg, nofun⟩
  have hstep (st : CampaignState) (e : CampaignEvent) (h : Following env t packages cfg st)
      (hcond : st.Settled e) := h.step hsp htruthful e hcond
  obtain ⟨hlast, hconverging⟩ := Converging.of_run hstep hstart hrun hcourse
  refine ⟨hconverging, fun ht token => ?_, hlast.kept.right⟩
  have hmac : st.report.lookup metaMacAddress = some (.str (String.ofList cfg.id)) := by
    rw [← hlast.config]
    exact toMetadata_mac _
  exact hlast.campaign.noContent_at_target hsp hconverging hmac (toMetadata_contains _) ht

namespace CampaignRun

open SingleRun

def artifact (_ : Int) : Artifact := .zephyr newImage ["board".toList]

/-- The update of the board, and the check after it. -/
def events : List CampaignEvent :=
  .check ⟨"00:00:00:00:00:00", 0, Server.deviceJwtExpiry⟩ true ::
    List.replicate 7 (.call .ok none) ++ [.own .confirm, .call .ok none, .call .ok none,
      .check ⟨"00:00:00:00:00:00", 0, Server.deviceJwtExpiry⟩ true]

end CampaignRun

open SingleRun CampaignRun Server.CampaignRun in
theorem campaign_converges_updated :
    initSingle cfg conduct SingleRun.slots = .ok opened ∧
      Along (CampaignState.next env artifact) CampaignState.Settled ⟨store, ⟨opened, none, none⟩⟩
        events ∧
      HasVersion (events.foldl (CampaignState.next env artifact)
        ⟨store, ⟨opened, none, none⟩⟩).report "2.0.0" ∧
      Converging [package.info] "2.0.0" opened.metadata.toMetadata
        (seen (CampaignState.next env artifact) CampaignState.report
          ⟨store, ⟨opened, none, none⟩⟩ events) := by
  have hinit : initSingle cfg conduct SingleRun.slots = .ok opened := rfl
  have htruthful : Truthful [package] artifact := by
    rintro p hp image compatible ⟨⟩
    rw [List.mem_singleton] at hp
    subst hp
    decide
  have hresolve : Server.resolve MultiDiGraph.shortestPath opened.metadata.toMetadata [package.info]
      (Server.exactMatch "2.0.0") = .ok (some 0) := by decide
  have hrun : Along (CampaignState.next env artifact) CampaignState.Settled
      ⟨store, ⟨opened, none, none⟩⟩ events := by
    refine ⟨fun _ => ⟨rfl, rfl⟩, ?_, ?_, ?_, ?_, ?_, ?_, ?_, nofun, ?_, ?_, fun _ => ⟨rfl, rfl⟩, trivial⟩
    all_goals
      rintro p ⟨⟩
      exact ⟨fun h => absurd h (by decide), nofun⟩
  exact ⟨hinit, hrun, rfl, (campaign_converges hinit nofun shortestPath_search campaign htruthful
    (Server.onCourse_of_resolve shortestPath_search hresolve).1 events hrun).1⟩

end Rdfm.Mcumgr
