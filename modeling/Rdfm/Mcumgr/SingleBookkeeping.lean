import Rdfm.Lib.Transition
import Rdfm.Mcumgr.Single
import Mathlib.Logic.Function.Iterate

/-!
# What the client records of a single device

Between updates the client reports the version in `dev.PrimaryImage`. It is right if it is that of the
running image, once this is confirmed (`Client.Right`). Only the success branches of the finalizers
record an image. So the record stays right along a run, whatever resets follow, exactly if
(`single_bookkeeping_iff`)

* an update gives up only while the device would fall back to the recorded image,
* no device confirms another image while no update is under way, and
* an image that is confirmed by hand is still the one that was read.
-/

namespace Rdfm.Mcumgr

open Rdfm.Lib

/-! ## The property -/

/-- The entry is that of the image. -/
structure Recorded (entry : ImageStateEntry) (image : Image) : Prop where
  hash : entry.hash = image.hash
  version : entry.version = image.version

namespace Client

/-- At an update check, a device that has settled runs the image that is reported. -/
def Right (w : Client) : Prop :=
  w.point = none → w.slots.confirmed = true →
    w.primaryImage.hash = w.slots.primary.hash ∧
      w.single.metadata.softwareVersion = w.slots.primary.version

/-- The client after so many resets of the device. -/
def afterResets (w : Client) (n : Nat) : Client := (fun w => w.step (.own .reset))^[n] w

/-- The record is right, and stays so if the device is only reset. -/
def StaysRight (w : Client) : Prop := ∀ n, (w.afterResets n).Right

end Client

/-- Left alone, the device settles on the image that the entry is of. -/
def Settles (entry : ImageStateEntry) (s : BootSlots Image) : Prop :=
  (s.settled false).confirmed = true → Recorded entry (s.settled false).primary

/-- The reading of the images fails, or finds only one. -/
def Unread (s : BootSlots Image) (o : Outcome) : Prop := o ≠ .ok ∨ s.secondary = none

/-- The image with this hash is not found, or the call fails. -/
def Unanswered (s : BootSlots Image) (o : Outcome) (kind : Swap) (hash : Bytes) : Prop :=
  o ≠ .ok ∨ requestImage kind hash s = none

/-- With this call the update gives up. -/
def GivesUp (dev : Device) (o : Outcome) : Point → Prop
  | .flash (.acqSession _) | .flash (.writeImage _) | .flash .resetDevice => o ≠ .ok
  -- A device that runs the image already is not updated.
  | .flash .readImages => Unread dev.slots o ∨ dev.slots.secondary.map Image.hash = some dev.slots.primary.hash
  | .flash (.setPendingImage hash) => Unanswered dev.slots o .test hash
  | .reboot _ => False
  | .device .acqSession | .manual .acqSession => o ≠ .ok
  -- A device that runs the recorded image has rejected the update.
  | .device .readImages =>
    Unread dev.slots o ∨ dev.slots.confirmed = true ∧ dev.slots.primary.hash = dev.primaryImage.hash
  | .manual .readImages => Unread dev.slots o ∨ dev.slots.primary.hash = dev.primaryImage.hash
  | .manual (.confirmImage primary) => Unanswered dev.slots o .permanent primary.hash

instance (s : BootSlots Image) (o : Outcome) : Decidable (Unread s o) :=
  inferInstanceAs (Decidable (_ ∨ _))

instance (s : BootSlots Image) (o : Outcome) (kind : Swap) (hash : Bytes) :
    Decidable (Unanswered s o kind hash) :=
  inferInstanceAs (Decidable (_ ∨ _))

instance (dev : Device) (o : Outcome) : (p : Point) → Decidable (GivesUp dev o p)
  | .flash (.acqSession _) | .flash (.writeImage _) | .flash .resetDevice =>
    inferInstanceAs (Decidable (o ≠ .ok))
  | .flash .readImages => inferInstanceAs (Decidable (_ ∨ _))
  | .flash (.setPendingImage hash) => inferInstanceAs (Decidable (Unanswered dev.slots o .test hash))
  | .reboot _ => inferInstanceAs (Decidable False)
  | .device .acqSession | .manual .acqSession => inferInstanceAs (Decidable (o ≠ .ok))
  | .device .readImages => inferInstanceAs (Decidable (_ ∨ _ ∧ _))
  | .manual .readImages => inferInstanceAs (Decidable (_ ∨ _))
  | .manual (.confirmImage primary) =>
    inferInstanceAs (Decidable (Unanswered dev.slots o .permanent primary.hash))

/-- The client keeps up with the device. -/
def KeepsUp (w : Client) : SingleEvent → Prop
  | .own .confirm => w.point = none → w.slots.confirmed = false → Recorded w.primaryImage w.slots.primary
  | .own .reset => True
  | .update _ => True
  | .call o leftover => ∀ p, w.point = some p →
    (GivesUp w.dev o p → Settles w.primaryImage (p.effect o leftover w.slots)) ∧
    ∀ primary, p = .manual (.confirmImage primary) → ¬ GivesUp w.dev o p →
      Recorded primary w.slots.primary

/-! ## Devices -/

section Devices

variable {entry : ImageStateEntry} {s : BootSlots Image}

theorem settles_of_confirmed (hc : s.confirmed = true) (hs : s.swap ≠ some .permanent) :
    Settles entry s ↔ Recorded entry s.primary := by
  obtain ⟨hprimary, hconfirmed⟩ := BootSlots.settled_of_confirmed hc hs
  unfold Settles
  rw [hprimary, hconfirmed]
  exact ⟨fun h => h rfl, fun h _ => h⟩

theorem settles_reset : Settles entry s.reset ↔ Settles entry s := by
  have h : s.reset.settled false = s.settled false := s.reset_reset_reset
  unfold Settles
  rw [h]

/-- A request for a test, or an upload, does not move the running image. -/
theorem requestImage_test {hash : Bytes} {s' : BootSlots Image}
    (h : requestImage .test hash s = some s') (hs : s.swap ≠ some .permanent) :
    s'.swap ≠ some .permanent := by
  unfold requestImage at h
  split at h
  · cases h
    exact hs
  · split at h
    · cases h
      exact nofun
    · cases h

end Devices

/-! ## Calls -/

section Calls

variable (dev : Device) (o : Outcome)

theorem imagesAnswer_cases :
    (Unread dev.slots o ∧ ∃ e, imagesAnswer dev o = .error e) ∨
    ∃ image, dev.slots.secondary = some image ∧ ¬ Unread dev.slots o ∧
      imagesAnswer dev o = .ok (dev.slots.primary.entry dev.slots.confirmed, image.entry false) := by
  unfold imagesAnswer Unread deviceImages
  by_cases ho : o = .ok
  · cases hs : dev.slots.secondary with
    | none => exact .inl ⟨.inr rfl, _, by rw [if_pos ho]; rfl⟩
    | some image =>
      refine .inr ⟨image, rfl, ?_, by rw [if_pos ho]; rfl⟩
      rintro (h | h)
      · exact h ho
      · cases h
  · exact .inl ⟨.inl ho, _, if_neg ho⟩

theorem requestAnswer_eq_true_iff {kind : Swap} {hash : Bytes} :
    requestAnswer dev o kind hash = true ↔ ¬ Unanswered dev.slots o kind hash := by
  unfold requestAnswer Unanswered
  simp [Option.isSome_iff_ne_none]

end Calls

/-- The device has been reset. -/
def Point.Rebooted : Point → Prop
  | flash _ => False
  | _ => True

/-- From a call to the next one. -/
structure Point.Leads (dev : Device) (o : Outcome) (p p' : Point) : Prop where
  unconfirmed : ∀ primary, p ≠ .manual (.confirmImage primary)
  rebooted : p'.Rebooted → p = .flash .resetDevice ∧ o = .ok ∨
    p.Rebooted ∧ ∀ leftover, p.effect o leftover dev.slots = dev.slots
  read : ∀ primary, p' = .manual (.confirmImage primary) →
    p = .manual .readImages ∧ primary = dev.slots.primary.entry dev.slots.confirmed ∧
      primary.hash ≠ dev.primaryImage.hash

/-- An update starts with a session. -/
theorem Single.runUpdate_ok {s : Single} {a : Artifact} {p : Point} (h : s.runUpdate a = .ok p) :
    ∃ image, p = .flash (.acqSession image) := by
  unfold Single.runUpdate at h
  cases a with
  | other => cases h
  | zephyr image compatible =>
    dsimp only at h
    split at h
    · cases h
      exact ⟨image, rfl⟩
    · cases h

section Resume

variable (s : Single) (o : Outcome)

/-- A call of an update ends it without a record, leads to the next call, or ends it with a record. -/
def Resumes (p : Point) : Prop :=
  (GivesUp s.dev o p ∧ ∃ e, s.resume o p = (.inr (.error e), s.dev.primaryImage)) ∨
  ¬ GivesUp s.dev o p ∧
    ((∃ p', s.resume o p = (.inl p', s.dev.primaryImage) ∧ p.Leads s.dev o p') ∨
    (p = .device .readImages ∧ s.dev.slots.confirmed = true ∧
      s.resume o p = (.inr (.ok ()), s.dev.slots.primary.entry true)) ∨
    ∃ primary, p = .manual (.confirmImage primary) ∧ s.resume o p = (.inr (.ok ()), primary))

theorem Point.leads_flash {dev : Device} (p q : FlashPoint) :
    (Point.flash p).Leads dev o (.flash q) :=
  ⟨nofun, fun h => h.elim, nofun⟩

theorem Single.leads_finalize {dev : Device} (p : RebootPoint) :
    (Point.reboot p).Leads dev o s.finalize := by
  refine ⟨nofun, fun _ => .inr ⟨trivial, fun _ => rfl⟩, fun primary h => ?_⟩
  unfold Single.finalize at h
  split at h <;> cases h

theorem resumes_flash (p : FlashPoint) : Resumes s o (.flash p) := by
  cases p with
  | acqSession image =>
    by_cases ho : o = .ok
    · refine .inr ⟨not_not.mpr ho, .inl ⟨.flash (.writeImage image), ?_, Point.leads_flash o _ _⟩⟩
      simp only [Single.resume, flashUpdate, if_pos ho]
    · refine .inl ⟨ho, .update .acqSession, ?_⟩
      simp only [Single.resume, flashUpdate, if_neg ho]
  | writeImage image =>
    by_cases ho : o = .ok
    · refine .inr ⟨not_not.mpr ho, .inl ⟨.flash .readImages, ?_, Point.leads_flash o _ _⟩⟩
      simp only [Single.resume, flashUpdate, if_pos ho]
    · refine .inl ⟨ho, .update .writeImage, ?_⟩
      simp only [Single.resume, flashUpdate, if_neg ho]
  | readImages =>
    rcases imagesAnswer_cases s.dev o with ⟨hunread, e, he⟩ | ⟨image, hs, hread, he⟩
    · refine .inl ⟨.inl hunread, .update e, ?_⟩
      simp only [Single.resume, flashUpdate, he]
    · by_cases hsame : s.dev.slots.primary.hash = image.hash
      · refine .inl ⟨.inr ?_, .update .sameImage, ?_⟩
        · rw [hs, hsame]
          rfl
        · simp only [Single.resume, flashUpdate, he, Image.entry_hash, hsame, if_true]
      · refine .inr ⟨?_, .inl ⟨.flash (.setPendingImage image.hash), ?_, Point.leads_flash o _ _⟩⟩
        · rintro (h | h)
          · exact hread h
          · rw [hs] at h
            exact hsame (Option.some.inj h).symm
        · simp only [Single.resume, flashUpdate, he, Image.entry_hash, hsame, if_false]
  | setPendingImage hash =>
    by_cases ha : Unanswered s.dev.slots o .test hash
    · refine .inl ⟨ha, .update .setPendingImage, ?_⟩
      have hfalse := mt (requestAnswer_eq_true_iff s.dev o).mp (not_not.mpr ha)
      simp only [Single.resume, flashUpdate, if_neg hfalse]
    · refine .inr ⟨ha, .inl ⟨.flash .resetDevice, ?_, Point.leads_flash o _ _⟩⟩
      have htrue := (requestAnswer_eq_true_iff s.dev o).mpr ha
      simp only [Single.resume, flashUpdate, if_pos htrue]
  | resetDevice =>
    by_cases ho : o = .ok
    · refine .inr ⟨not_not.mpr ho, .inl ⟨.reboot .acqSession, ?_, nofun, fun _ => .inl ⟨rfl, ho⟩, nofun⟩⟩
      simp only [Single.resume, flashUpdate, Outcome.answer, if_pos ho]
    · refine .inl ⟨ho, .update .resetDevice, ?_⟩
      simp only [Single.resume, flashUpdate, Outcome.answer, if_neg ho]

theorem resumes_reboot (p : RebootPoint) : Resumes s o (.reboot p) := by
  refine .inr ⟨id, .inl ?_⟩
  have hloop : ∀ q : RebootPoint, (Point.reboot p).Leads s.dev o (.reboot q) :=
    fun q => ⟨nofun, fun _ => .inr ⟨trivial, fun _ => rfl⟩, nofun⟩
  have hdone : (Point.reboot p).Leads s.dev o s.finalize := s.leads_finalize o p
  cases p with
  | acqSession =>
    by_cases ho : o = .ok
    · refine ⟨_, ?_, hloop .ping⟩
      simp only [Single.resume, finishRebootLoop, if_pos ho]
    · refine ⟨_, ?_, hdone⟩
      simp only [Single.resume, finishRebootLoop, if_neg ho]
  | ping =>
    by_cases ho : o = .ok
    · refine ⟨_, ?_, hdone⟩
      simp only [Single.resume, finishRebootLoop, if_pos ho]
    · refine ⟨_, ?_, hloop .acqSession⟩
      simp only [Single.resume, finishRebootLoop, if_neg ho]

theorem resumes_device (p : DevicePoint) : Resumes s o (.device p) := by
  have hloop : ∀ q : DevicePoint, (Point.device p).Leads s.dev o (.device q) :=
    fun q => ⟨nofun, fun _ => .inr ⟨trivial, fun _ => rfl⟩, nofun⟩
  cases p with
  | acqSession =>
    by_cases ho : o = .ok
    · refine .inr ⟨not_not.mpr ho, .inl ⟨_, ?_, hloop .readImages⟩⟩
      simp only [Single.resume, deviceFinalizeLoop, if_pos ho]
    · refine .inl ⟨ho, .update .acqSession, ?_⟩
      simp only [Single.resume, deviceFinalizeLoop, if_neg ho]
      rfl
  | readImages =>
    rcases imagesAnswer_cases s.dev o with ⟨hunread, e, he⟩ | ⟨image, hs, hread, he⟩
    · refine .inl ⟨.inl hunread, .update e, ?_⟩
      simp only [Single.resume, deviceFinalizeLoop, he]
      rfl
    · cases hc : s.dev.slots.confirmed with
      | false =>
        refine .inr ⟨?_, .inl ⟨_, ?_, hloop .acqSession⟩⟩
        · rintro (h | ⟨h, -⟩)
          · exact hread h
          · rw [hc] at h
            cases h
        · simp only [Single.resume, deviceFinalizeLoop, he, Image.entry_confirmed, hc, if_true]
      | true =>
        by_cases hsame : s.dev.slots.primary.hash = s.dev.primaryImage.hash
        · refine .inl ⟨.inr ⟨hc, hsame⟩, .update .rejected, ?_⟩
          simp only [Single.resume, deviceFinalizeLoop, he, Image.entry_confirmed, Image.entry_hash, hc,
            Bool.true_eq_false, if_false, hsame, if_true]
          rfl
        · refine .inr ⟨?_, .inr (.inl ⟨rfl, hc, ?_⟩)⟩
          · rintro (h | ⟨-, h⟩)
            · exact hread h
            · exact hsame h
          · simp only [Single.resume, deviceFinalizeLoop, he, Image.entry_confirmed, Image.entry_hash, hc,
              Bool.true_eq_false, if_false, hsame]
            rfl

theorem resumes_manual (p : ManualPoint) : Resumes s o (.manual p) := by
  cases p with
  | acqSession =>
    by_cases ho : o = .ok
    · refine .inr ⟨not_not.mpr ho, .inl ⟨.manual .readImages, ?_, nofun,
        fun _ => .inr ⟨trivial, fun _ => rfl⟩, nofun⟩⟩
      simp only [Single.resume, manualFinalize, if_pos ho]
    · refine .inl ⟨ho, .update .acqSession, ?_⟩
      simp only [Single.resume, manualFinalize, if_neg ho]
      rfl
  | readImages =>
    rcases imagesAnswer_cases s.dev o with ⟨hunread, e, he⟩ | ⟨image, hs, hread, he⟩
    · refine .inl ⟨.inl hunread, .update e, ?_⟩
      simp only [Single.resume, manualFinalize, he]
      rfl
    · by_cases hsame : s.dev.slots.primary.hash = s.dev.primaryImage.hash
      · refine .inl ⟨.inr hsame, .update .rejected, ?_⟩
        simp only [Single.resume, manualFinalize, he, Image.entry_hash, hsame, if_true]
        rfl
      · refine .inr ⟨?_, .inl
          ⟨.manual (.confirmImage (s.dev.slots.primary.entry s.dev.slots.confirmed)), ?_,
            nofun, fun _ => .inr ⟨trivial, fun _ => rfl⟩, ?_⟩⟩
        · rintro (h | h)
          · exact hread h
          · exact hsame h
        · simp only [Single.resume, manualFinalize, he, Image.entry_hash, hsame, if_false]
        · rintro primary ⟨⟩
          exact ⟨rfl, rfl, hsame⟩
  | confirmImage primary =>
    by_cases ha : Unanswered s.dev.slots o .permanent primary.hash
    · refine .inl ⟨ha, .update .notConfirmed, ?_⟩
      have hfalse := mt (requestAnswer_eq_true_iff s.dev o).mp (not_not.mpr ha)
      simp only [Single.resume, manualFinalize, if_neg hfalse]
      rfl
    · refine .inr ⟨ha, .inr (.inr ⟨primary, rfl, ?_⟩)⟩
      have htrue := (requestAnswer_eq_true_iff s.dev o).mpr ha
      simp only [Single.resume, manualFinalize, if_pos htrue]
      rfl

theorem resumes (p : Point) : Resumes s o p := by
  cases p with
  | flash p => exact resumes_flash s o p
  | reboot p => exact resumes_reboot s o p
  | device p => exact resumes_device s o p
  | manual p => exact resumes_manual s o p

end Resume

/-! ## Invariant -/

/-- What holds of a client that keeps up. -/
structure Kept (w : Client) : Prop where
  swap : w.slots.swap ≠ some .permanent
  settles : w.point = none → Settles w.primaryImage w.slots
  /-- The reset has carried out what was requested. -/
  rebooted : ∀ p, w.point = some p → p.Rebooted → w.slots.swap = none
  /-- The image that was read is another than the recorded one, and still under test, or the device
  runs a confirmed one. -/
  read : ∀ primary, w.point = some (.manual (.confirmImage primary)) →
    primary.hash ≠ w.primaryImage.hash ∧
      (w.slots.confirmed = false → Recorded primary w.slots.primary)

namespace Kept

variable {w : Client}

theorem right (h : Kept w) : w.Right := by
  intro hidle hconfirmed
  have hrecorded := (settles_of_confirmed hconfirmed h.swap).mp (h.settles hidle)
  exact ⟨hrecorded.hash, hrecorded.version⟩

theorem reset (h : Kept w) : Kept (w.step (.own .reset)) where
  swap := by
    change w.slots.reset.swap ≠ _
    rw [BootSlots.reset_swap]
    exact nofun
  settles hidle := settles_reset.mpr (h.settles hidle)
  rebooted _ _ _ := BootSlots.reset_swap _
  read primary hp := by
    obtain ⟨hne, hunder⟩ := h.read primary hp
    refine ⟨hne, fun hc => ?_⟩
    have hc : w.slots.reset.confirmed = false := hc
    rcases BootSlots.reset_confirmed (h.rebooted _ hp trivial) with hr | hr
    · rw [hr] at hc
      cases hc
    · rw [hr] at hc
      change Recorded primary w.slots.reset.primary
      rw [hr]
      exact hunder hc

theorem staysRight (h : Kept w) : w.StaysRight := by
  intro n
  have hkept : Kept (w.afterResets n) := by
    induction n with
    | zero => exact h
    | succ n ih =>
      unfold Client.afterResets at ih ⊢
      rw [Function.iterate_succ_apply']
      exact ih.reset
  exact hkept.right

theorem confirm (h : Kept w) (hcond : KeepsUp w (.own .confirm)) :
    Kept (w.step (.own .confirm)) where
  swap := h.swap
  settles hidle := by
    have hidle : w.point = none := hidle
    refine (settles_of_confirmed (s := w.slots.confirm) rfl h.swap).mpr ?_
    cases hc : w.slots.confirmed with
    | true => exact (settles_of_confirmed hc h.swap).mp (h.settles hidle)
    | false => exact hcond hidle hc
  rebooted := h.rebooted
  read primary hp := ⟨(h.read primary hp).1, nofun⟩

theorem of_idle {entry : ImageStateEntry} {slots : BootSlots Image} (hidle : w.point = none)
    (hdev : w.dev = ⟨entry, slots⟩) (hswap : slots.swap ≠ some .permanent)
    (hsettles : Settles entry slots) : Kept w := by
  obtain ⟨⟨cfg, dev⟩, point, last⟩ := w
  dsimp only [Client.dev] at hidle hdev
  subst hidle hdev
  exact ⟨hswap, fun _ => hsettles, nofun, nofun⟩

theorem update (h : Kept w) (a : Artifact) : Kept (w.step (.update a)) := by
  unfold Client.step
  cases hp : w.point with
  | some p => exact h
  | none =>
    dsimp only
    cases ha : w.single.runUpdate a with
    | error e => exact ⟨h.swap, fun _ => h.settles hp, nofun, nofun⟩
    | ok p =>
      obtain ⟨image, rfl⟩ := Single.runUpdate_ok ha
      exact ⟨h.swap, nofun, fun _ hp hr => by cases hp; exact hr.elim, nofun⟩

end Kept

/-! ### Calls -/

section Call

variable {w : Client} {p : Point} {o : Outcome} {leftover : Option Image}

/-- What a call of the client does. -/
inductive Called (w : Client) (p : Point) (o : Outcome) (leftover : Option Image) (w' : Client) : Prop
  | givesUp (h : GivesUp w.dev o p) (hpoint : w'.point = none)
      (hdev : w'.dev = ⟨w.primaryImage, p.effect o leftover w.slots⟩)
  | goesOn (h : ¬ GivesUp w.dev o p) (p' : Point) (hpoint : w'.point = some p')
      (hdev : w'.dev = ⟨w.primaryImage, p.effect o leftover w.slots⟩) (hlead : p.Leads w.dev o p')
  | finalized (h : ¬ GivesUp w.dev o p) (hp : p = .device .readImages)
      (hconfirmed : w.slots.confirmed = true) (hpoint : w'.point = none)
      (hdev : w'.dev = ⟨w.slots.primary.entry true, w.slots⟩)
  | confirmed (h : ¬ GivesUp w.dev o p) (primary : ImageStateEntry)
      (hp : p = .manual (.confirmImage primary)) (hpoint : w'.point = none)
      (hdev : w'.dev = ⟨primary, p.effect o leftover w.slots⟩)

variable (o leftover) in
theorem called_cases (hp : w.point = some p) :
    Called w p o leftover (w.step (.call o leftover)) := by
  have hstep : w.step (.call o leftover) = w.called p o leftover := by
    unfold Client.step
    rw [hp]
  rw [hstep]
  rcases resumes w.single o p with
    ⟨h, e, he⟩ | ⟨h, ⟨p', he, hlead⟩ | ⟨rfl, hc, he⟩ | ⟨primary, rfl, he⟩⟩
  · refine .givesUp h ?_ ?_ <;> simp only [Client.called, he, Client.withDevice]
  · refine .goesOn h p' ?_ ?_ hlead <;> simp only [Client.called, he, Client.withDevice]
  · refine .finalized h rfl hc ?_ ?_ <;> simp only [Client.called, he, Client.withDevice, Point.effect]
  · refine .confirmed h primary rfl ?_ ?_ <;> simp only [Client.called, he, Client.withDevice]

/-- No call but a confirmation by hand asks for a swap for good. -/
theorem effect_swap (h : w.slots.swap ≠ some .permanent)
    (hp : ∀ primary, p ≠ .manual (.confirmImage primary)) :
    (p.effect o leftover w.slots).swap ≠ some .permanent := by
  cases p with
  | flash p =>
    cases p with
    | acqSession image => exact h
    | writeImage image =>
      dsimp only [Point.effect]
      split
      · exact nofun
      · exact h
    | readImages => exact h
    | setPendingImage hash =>
      dsimp only [Point.effect]
      split
      · exact h
      · cases hr : requestImage .test hash w.slots with
        | none => exact h
        | some s' => exact requestImage_test hr h
    | resetDevice =>
      dsimp only [Point.effect]
      split
      · exact h
      · rw [BootSlots.reset_swap]
        exact nofun
  | reboot p => exact h
  | device p => exact h
  | manual p =>
    cases p with
    | acqSession => exact h
    | readImages => exact h
    | confirmImage primary => exact absurd rfl (hp primary)

/-- The confirmation of an image by hand. -/
theorem requestImage_permanent {hash : Bytes} {s s' : BootSlots Image}
    (h : requestImage .permanent hash s = some s') :
    (s.primary.hash = hash ∧ s' = s.confirm) ∨
    ∃ image, s.secondary = some image ∧ image.hash = hash ∧ s' = { s with swap := some .permanent } := by
  unfold requestImage at h
  split at h
  · next hhash =>
    cases h
    exact .inl ⟨hhash, rfl⟩
  · split at h
    · next hhash =>
      cases h
      obtain ⟨image, himage, rfl⟩ := Option.map_eq_some_iff.mp hhash
      exact .inr ⟨image, himage, rfl, rfl⟩
    · cases h

theorem effect_of_confirmed {primary : ImageStateEntry} {s' : BootSlots Image}
    (hg : ¬ GivesUp w.dev o (.manual (.confirmImage primary)))
    (h : requestImage .permanent primary.hash w.slots = some s') :
    (Point.manual (.confirmImage primary)).effect o leftover w.slots = s' := by
  have ho : o ≠ .refused := by
    rintro rfl
    exact hg (.inl nofun)
  dsimp only [Point.effect]
  rw [if_neg ho, h]
  rfl

/-- An image that is to stay for good is the one that the device settles on. -/
theorem settles_permanent {entry : ImageStateEntry} {s : BootSlots Image} {image : Image}
    (hs : s.secondary = some image) :
    Settles entry { s with swap := some .permanent } ↔ Recorded entry image := by
  obtain ⟨primary, secondary, confirmed, swap⟩ := s
  dsimp only at hs
  subst hs
  exact ⟨fun h => h rfl, fun h _ => h⟩

/-- An update that gives up while the device would fall back to the recorded image has not asked for
another one for good. -/
theorem Kept.effect_swap_of_settles (h : Kept w) (hp : w.point = some p)
    (hs : Settles w.primaryImage (p.effect o leftover w.slots)) :
    (p.effect o leftover w.slots).swap ≠ some .permanent := by
  by_cases hmanual : ∃ primary, p = .manual (.confirmImage primary)
  · obtain ⟨primary, rfl⟩ := hmanual
    dsimp only [Point.effect] at hs ⊢
    split
    · exact h.swap
    · next ho =>
      rw [if_neg ho] at hs
      cases hr : requestImage .permanent primary.hash w.slots with
      | none => exact h.swap
      | some s' =>
        rw [hr] at hs
        rcases requestImage_permanent hr with ⟨-, rfl⟩ | ⟨image, himage, hhash, rfl⟩
        · exact h.swap
        · have hrecorded := (settles_permanent himage).mp hs
          exact absurd (hhash.symm.trans hrecorded.hash.symm) (h.read primary hp).1
  · exact effect_swap h.swap fun primary hprimary => hmanual ⟨primary, hprimary⟩

theorem Kept.of_leads (h : Kept w) (hp : w.point = some p) {p' : Point} {w' : Client}
    (hpoint : w'.point = some p') (hdev : w'.dev = ⟨w.primaryImage, p.effect o leftover w.slots⟩)
    (hlead : p.Leads w.dev o p') : Kept w' := by
  have hslots : w'.slots = p.effect o leftover w.slots := (congrArg Device.slots hdev :)
  have hprimary : w'.primaryImage = w.primaryImage := (congrArg Device.primaryImage hdev :)
  refine ⟨?_, ?_, ?_, ?_⟩
  · rw [hslots]
    exact effect_swap h.swap hlead.unconfirmed
  · intro hidle
    rw [hpoint] at hidle
    cases hidle
  · rintro q hq hr
    cases hpoint.symm.trans hq
    rw [hslots]
    rcases hlead.rebooted hr with ⟨rfl, rfl⟩ | ⟨hr, heffect⟩
    · exact BootSlots.reset_swap _
    · rw [heffect]
      exact h.rebooted p hp hr
  · intro primary hq
    cases hpoint.symm.trans hq
    obtain ⟨rfl, hentry, hne⟩ := hlead.read primary rfl
    rw [hprimary, hslots]
    refine ⟨hne, fun _ => ?_⟩
    rw [hentry]
    exact ⟨rfl, rfl⟩

variable {entry : ImageStateEntry} {slots : BootSlots Image}

theorem Client.Right.recorded (h : w.Right) (hidle : w.point = none) (hdev : w.dev = ⟨entry, slots⟩)
    (hconfirmed : slots.confirmed = true) : Recorded entry slots.primary := by
  obtain ⟨⟨cfg, dev⟩, point, last⟩ := w
  dsimp only [Client.dev] at hidle hdev
  subst hidle hdev
  obtain ⟨hhash, hversion⟩ := h rfl hconfirmed
  exact ⟨hhash, hversion⟩

/-- What stays right is what the device settles on. -/
theorem Client.StaysRight.settles (h : w.StaysRight) (hidle : w.point = none)
    (hdev : w.dev = ⟨entry, slots⟩) : Settles entry slots := by
  intro hconfirmed
  refine (h 2).recorded hidle ?_ hconfirmed
  obtain ⟨⟨cfg, dev⟩, point, last⟩ := w
  dsimp only [Client.dev] at hdev
  subst hdev
  rfl

end Call

/-! ## Steps and runs -/

section Run

variable {w : Client}

/-- A call that keeps up. -/
theorem Kept.call (h : Kept w) {o : Outcome} {leftover : Option Image}
    (hcond : KeepsUp w (.call o leftover)) : Kept (w.step (.call o leftover)) := by
  cases hp : w.point with
  | none =>
    have hstep : w.step (.call o leftover) = w := by
      unfold Client.step
      rw [hp]
    rw [hstep]
    exact h
  | some p =>
    obtain ⟨hgives, hconfirms⟩ := hcond p hp
    cases called_cases o leftover hp with
    | givesUp hg hpoint hdev =>
      have hsettles := hgives hg
      exact .of_idle hpoint hdev (h.effect_swap_of_settles hp hsettles) hsettles
    | goesOn hg p' hpoint hdev hlead => exact h.of_leads hp hpoint hdev hlead
    | finalized hg hread hconfirmed hpoint hdev =>
      exact .of_idle hpoint hdev h.swap ((settles_of_confirmed hconfirmed h.swap).mpr ⟨rfl, rfl⟩)
    | confirmed hg primary hconfirm hpoint hdev =>
      have hrecorded := hconfirms primary hconfirm hg
      subst hconfirm
      have hrequest : requestImage .permanent primary.hash w.slots = some w.slots.confirm := by
        rw [hrecorded.hash]
        exact requestImage_primary _
      rw [effect_of_confirmed hg hrequest] at hdev
      exact .of_idle hpoint hdev h.swap
        ((settles_of_confirmed (s := w.slots.confirm) rfl h.swap).mpr hrecorded)

/-- A call after which the record stays right has kept up. -/
theorem Kept.keepsUp_call (h : Kept w) {o : Outcome} {leftover : Option Image}
    (hright : (w.step (.call o leftover)).StaysRight) : KeepsUp w (.call o leftover) := by
  intro p hp
  cases called_cases o leftover hp with
  | givesUp hg hpoint hdev =>
    exact ⟨fun _ => hright.settles hpoint hdev, fun _ _ hng => absurd hg hng⟩
  | goesOn hg p' hpoint hdev hlead =>
    exact ⟨fun hgives => absurd hgives hg,
      fun primary hprimary => absurd hprimary (hlead.unconfirmed primary)⟩
  | finalized hg hread hconfirmed hpoint hdev =>
    refine ⟨fun hgives => absurd hgives hg, fun primary hprimary => ?_⟩
    rw [hread] at hprimary
    cases hprimary
  | confirmed hg primary hconfirm hpoint hdev =>
    refine ⟨fun hgives => absurd hgives hg, ?_⟩
    rintro primary' hprimary' -
    cases hconfirm.symm.trans hprimary'
    subst hconfirm
    obtain ⟨s', hrequest⟩ := Option.ne_none_iff_exists'.mp fun hnone => hg (.inr hnone)
    rw [effect_of_confirmed hg hrequest] at hdev
    have hrecorded := (hright 0).recorded hpoint hdev
    rcases requestImage_permanent hrequest with ⟨-, rfl⟩ | ⟨image, -, -, rfl⟩
    · exact hrecorded rfl
    · -- The device has been reset since the image was read, and runs another one.
      cases hc : w.slots.confirmed with
      | true => exact hrecorded hc
      | false => exact (h.read primary hp).2 hc

/-- One step: the record stays right exactly if the client keeps up. -/
theorem Kept.step (h : Kept w) (e : SingleEvent) :
    ((w.step e).StaysRight ↔ KeepsUp w e) ∧ (KeepsUp w e → Kept (w.step e)) := by
  cases e with
  | own act =>
    cases act with
    | confirm =>
      refine ⟨⟨fun hright hidle _ => ?_, fun hcond => (h.confirm hcond).staysRight⟩, h.confirm⟩
      have hrecorded : Recorded w.primaryImage w.slots.confirm.primary :=
        (hright 0).recorded hidle rfl rfl
      exact hrecorded
    | reset => exact ⟨iff_of_true h.reset.staysRight trivial, fun _ => h.reset⟩
  | update a => exact ⟨iff_of_true (h.update a).staysRight trivial, fun _ => h.update a⟩
  | call o leftover => exact ⟨⟨h.keepsUp_call, fun hcond => (h.call hcond).staysRight⟩, h.call⟩

end Run

/-- A device that is just opened. -/
theorem initSingle_kept {cfg : DeviceConfig} {c : Conduct} {slots : BootSlots Image} {s : Single}
    (h : initSingle cfg c slots = .ok s) (hswap : s.dev.slots.swap ≠ some .permanent) :
    Kept ⟨s, none, none⟩ := by
  unfold initSingle at h
  split at h
  · next l image hinit =>
    cases h
    obtain ⟨hconfirmed, hhash, hversion⟩ := initDevice_spec hinit
    exact .of_idle rfl rfl hswap ((settles_of_confirmed hconfirmed hswap).mpr ⟨hhash, hversion⟩)
  · cases h

/-- **The record of a single device stays right** along a run, and after any resets that follow one of
its steps, exactly if the client keeps up with the device in each. -/
theorem single_bookkeeping_iff {cfg : DeviceConfig} {c : Conduct} {slots : BootSlots Image}
    {s : Single} (hinit : initSingle cfg c slots = .ok s)
    (hswap : s.dev.slots.swap ≠ some .permanent) (events : List SingleEvent) :
    Client.StaysRight ⟨s, none, none⟩ ∧
      (Along Client.step (fun w e => (w.step e).StaysRight) ⟨s, none, none⟩ events ↔
        Along Client.step KeepsUp ⟨s, none, none⟩ events) := by
  have hkept := initSingle_kept hinit hswap
  exact ⟨hkept.staysRight, Along.iff_of_invariant (fun w e h => h.step e) hkept⟩

namespace SingleRun

def cfg : DeviceConfig := ⟨"00:00:00:00:00:00".toList, "board".toList, true⟩

def oldImage : Image := ⟨[1], "1.0.0".toList⟩

def newImage : Image := ⟨[2], "2.0.0".toList⟩

/-- A device that answers while it is opened. -/
def conduct : Conduct := ⟨fun _ => .ok, true, none, none⟩

def slots : BootSlots Image := ⟨oldImage, none, true, none⟩

def opened : Single := ⟨cfg, ⟨oldImage.entry true, slots⟩⟩

/-- An update, up to the image's own confirmation. -/
def update : List SingleEvent :=
  .update (.zephyr newImage ["board".toList]) :: List.replicate 7 (.call .ok none) ++ [.own .confirm]

/-- The client reads that the device has confirmed the image. -/
def read : List SingleEvent := update ++ [.call .ok none, .call .ok none]

/-- The client cannot open a session just then. -/
def missed : List SingleEvent := update ++ [.call .refused none]

end SingleRun

open SingleRun in
theorem single_bookkeeping_updated :
    initSingle cfg conduct slots = .ok opened ∧
      (read.foldl Client.step ⟨opened, none, none⟩).single.metadata.softwareVersion =
        newImage.version ∧
      Along Client.step (fun w e => (w.step e).StaysRight) ⟨opened, none, none⟩ read := by
  have hinit : initSingle cfg conduct slots = .ok opened := rfl
  refine ⟨hinit, rfl, ((single_bookkeeping_iff hinit nofun _).2).mpr ?_⟩
  refine ⟨trivial, ?_, ?_, ?_, ?_, ?_, ?_, ?_, nofun, ?_, ?_, trivial⟩
  all_goals
    rintro p ⟨⟩
    exact ⟨fun h => absurd h (by decide), nofun⟩

open SingleRun in
/-- The old version is reported from then on. -/
theorem single_misses_confirmation :
    initSingle cfg conduct slots = .ok opened ∧
      ¬ (missed.foldl Client.step ⟨opened, none, none⟩).Right := by
  refine ⟨rfl, fun h => ?_⟩
  have hversion := (h rfl rfl).2
  revert hversion
  decide

end Rdfm.Mcumgr
