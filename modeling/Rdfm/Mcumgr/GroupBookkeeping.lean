import Rdfm.Lib.Transition
import Rdfm.Mcumgr.GroupAtomic

/-!
# What a group records of its members

Between updates a group records, for each member, the hash of the image in its primary slot twice:
for the next rollback and for the next confirmation; and one version for all (`Bookkept`). A
successful update writes the first record to a copy, and the rollback of a member that runs the new
image writes that image's hash to the second. So the records stay right along a run of updates
exactly when each of them is refused before the reset or booted by no member
(`group_bookkeeping_iff`).
-/

namespace Rdfm.Mcumgr

open Rdfm.Lib

variable {n : Nat}

/-! ## The property -/

/-- The records are right. -/
structure Bookkept (g : Group n) : Prop where
  rollbackHash : ∀ i, (g.members i).rollbackHash = (g.members i).dev.slots.primary.hash
  primaryImage : ∀ i, (g.members i).dev.primaryImage.hash = (g.members i).dev.slots.primary.hash
  version : ∀ i, (g.members i).dev.slots.primary.version = g.currVersion

/-- Right records of members that run a confirmed image. -/
structure Sound (g : Group n) : Prop extends Bookkept g where
  confirmed : ∀ i, (g.members i).dev.slots.confirmed = true

/-- A call of `RunUpdate` in which every session call succeeds; the devices may boot the image or
not. -/
structure UpdateCall (n : Nat) where
  art : GroupArtifact
  envs : Fin (n + 1) → Surroundings
  sched : Phase → List (Fin (n + 1))
  calls_ok : ∀ i phase k, (envs i).outcome phase k = .ok

namespace UpdateCall

variable (call : UpdateCall n) (g g' : Group n)

/-- The image for a member. -/
def image (i : Fin (n + 1)) : Image := call.art.image (g.members i).target

/-- The call ends, and leaves the group `g'`. -/
def Leads : Prop := ∃ err, runUpdate call.envs call.art g call.sched = some (err, g')

/-- The goroutine that confirms a member's image after the reset. -/
def confirmJob (i : Fin (n + 1)) : Job Link LoopResult (Option UpdateError) :=
  loopJob ((g.members i).conduct (call.envs i) .confirm)
    (confirm ((g.members i).conduct (call.envs i) .confirm)
      ((g.members i).withSlots ((g.members i).tested (call.envs i) (call.image g i))))

/-- The goroutine that rolls a member back. -/
def rollbackJob (i : Fin (n + 1)) : Job Link (Except UpdateError Unit) (Option UpdateError) :=
  sessionJob ((g.members i).conduct (call.envs i) .rollback)
    (rollback ((g.members i).conduct (call.envs i) .rollback) (g.members i))

/-- What right records are for, in a call that comes to the reset: a member that runs the new image
is not refused a rollback, and an update counts as rejected only if the device has not booted it. -/
structure Judges : Prop where
  rolls_back : ∀ i, (call.envs i).accepts = true → ∀ l r,
    (call.confirmJob g i).Ends
      ⟨((g.members i).withSlots ((g.members i).tested (call.envs i) (call.image g i))).dev, 0⟩ l r →
    ∀ l', ¬ (call.rollbackJob g i).Ends ⟨l.device, 0⟩ l' (some .unknownSecondary)
  rejects : ∀ i l, (call.confirmJob g i).Ends
      ⟨((g.members i).withSlots ((g.members i).tested (call.envs i) (call.image g i))).dev, 0⟩ l
        (some .rejected) → (call.envs i).accepts = false

/-- The update comes to the reset: there is an image for every member, and it is not the running
one. -/
def Starts : Prop :=
  Complete call.art g ∧ ∀ i, (g.members i).dev.slots.primary.hash ≠ (call.image g i).hash

/-- The call is refused before the reset, or no member boots the image. -/
def Harmless : Prop := call.Starts g → ∀ i, (call.envs i).accepts = false

end UpdateCall

/-! ## One member -/

section Member

variable {m : Member} {env : Surroundings} {new : Image}

theorem progress_confirmed {c : Conduct} {s : BootSlots Image} (k : Nat) (h : s.confirmed = true) :
    (c.progress s k).confirmed = true := by
  rcases c.progress_eq s k with hs | hs
  · rw [hs]
    exact h
  · rw [hs]
    rfl

/-- A device that can be read is read once it has confirmed its image. -/
theorem deviceConfirms_of_ok (hok : ∀ phase k, env.outcome phase k = .ok)
    (hself : m.selfConfirm = true) :
    DeviceConfirms (m.conduct env .confirm) (m.tested env new) := by
  refine ⟨env.confirmsAt, fun i _ => hok _ _, hok _ _, ?_⟩
  cases ha : env.accepts with
  | true =>
    have hkeeps : m.keeps env = true := by
      unfold Member.keeps
      rw [hself, ha]
      rfl
    have hat : (m.conduct env .confirm).confirmsAt = some env.confirmsAt := if_pos ⟨rfl, hkeeps⟩
    unfold Conduct.progress
    rw [hat]
    dsimp only
    rw [if_pos (by omega)]
    rfl
  | false =>
    apply progress_confirmed
    unfold Member.tested tested
    rw [ha]
    rfl

theorem confirmEnds_of_ok (hok : ∀ phase k, env.outcome phase k = .ok) :
    m.ConfirmEnds env new := by
  intro hself
  rcases deviceConfirms_of_ok hok hself with ⟨k, -, hread, hconfirmed⟩
  exact ⟨k, .inr ⟨hread, hconfirmed⟩⟩

variable (hok : ∀ phase k, env.outcome phase k = .ok)
  (hne : m.dev.slots.primary.hash ≠ new.hash)
  (hprimary : m.dev.primaryImage.hash = m.dev.slots.primary.hash)

include hne hprimary

theorem tested_hash_ne_iff :
    (m.tested env new).primary.hash ≠ m.dev.primaryImage.hash ↔ env.accepts = true := by
  rw [hprimary]
  unfold Member.tested tested
  cases env.accepts with
  | true => exact iff_of_true hne.symm rfl
  | false => exact iff_of_false (not_not.mpr rfl) Bool.false_ne_true

include hok

/-- With right records a confirmation passes exactly if the device has booted the image. -/
theorem confirmOk_iff : m.ConfirmOk env new ↔ env.accepts = true := by
  unfold Member.ConfirmOk
  rw [tested_hash_ne_iff hne hprimary]
  refine and_iff_right ?_
  split
  · next hself => exact deviceConfirms_of_ok hok hself
  · exact fun k _ => hok _ _

end Member

/-- What an update changes in the secondary slots is not recorded. -/
theorem Sound.withSlots {g : Group n} (h : Sound g) {slots : Fin (n + 1) → BootSlots Image}
    (hprimary : ∀ i, (slots i).primary = (g.members i).dev.slots.primary)
    (hconfirmed : ∀ i, (slots i).confirmed = true) :
    Sound ⟨g.currVersion, fun i => (g.members i).withSlots (slots i)⟩ where
  rollbackHash i := (h.rollbackHash i).trans (by rw [← hprimary i]; rfl)
  primaryImage i := (h.primaryImage i).trans (by rw [← hprimary i]; rfl)
  version i := (congrArg Image.version (hprimary i)).trans (h.version i)
  confirmed := hconfirmed

namespace UpdateCall

variable {call : UpdateCall n} {g g' : Group n}

/-- Right records judge right. -/
theorem judges (h : Bookkept g) (hstarts : call.Starts g) : call.Judges g := by
  constructor
  · intro i ha l r hconfirm l' hrollback
    have hafter := Member.afterConfirm hconfirm
    have hhash := Member.running_hash_ne (call.envs i) (hstarts.2 i)
    have hspec := rollback_spec (m := g.members i)
      ((g.members i).conduct_confirmsAt (call.envs i) .rollback nofun)
      (call.calls_ok i .rollback) hafter.slots_eq hhash
    have hspare : (g.members i).rollbackHash =
        ((g.members i).spare (call.envs i) (call.image g i)).hash := by
      rw [Member.spare_of_boots ha]
      exact h.rollbackHash i
    rw [if_neg (fun hrun => hhash (hrun.symm.trans hspare)), if_pos hspare] at hspec
    have hends : (call.rollbackJob g i).Ends ⟨l.device, 0⟩ _ _ := sessionJob_ends _ _
    have hr := (hends.unique hrollback).2
    rw [hspec] at hr
    cases hr
  · intro i l hconfirm
    have hrejected := (Member.afterConfirm hconfirm).result.rejected rfl
    cases ha : (call.envs i).accepts with
    | false => rfl
    | true =>
      exact absurd hrejected ((tested_hash_ne_iff (hstarts.2 i) (h.primaryImage i)).mpr ha)

/-! ## One call -/

/-- However the call ends, it ends as in every order. -/
theorem Leads.post (hlead : call.Leads g g') {Q : Option UpdateError × Group n → Prop}
    (h : Surely (runUpdate call.envs call.art g) Q) : ∃ err, Q (err, g') := by
  rcases hlead with ⟨err, hrun⟩
  rcases h with ⟨N, h⟩
  exact ⟨err, h.post _ _ hrun⟩

theorem Leads.of_incomplete (hlead : call.Leads g g') (h : ¬ Complete call.art g) : g' = g := by
  rcases hlead with ⟨err, hrun⟩
  rcases runUpdate_incomplete call.envs h call.sched with ⟨e, he⟩
  rw [he] at hrun
  cases hrun
  rfl

/-- An image that a member runs already stops the update after the uploads. -/
theorem Leads.of_same (hlead : call.Leads g g') (hcomplete : Complete call.art g)
    (hsame : ¬ ∀ i, (g.members i).dev.slots.primary.hash ≠ (call.image g i).hash) :
    g' = ⟨g.currVersion, fun i => (g.members i).withSlots
      { (g.members i).dev.slots with secondary := some (call.image g i), swap := none }⟩ := by
  have hphase := fails_of_not_ok
    (write_surely_of_ok g.members (call.image g) fun i => call.calls_ok i .write) hsame
  have hsurely : Surely (updateMembers call.envs (call.image g) g) fun out =>
      out.2 = ⟨g.currVersion, fun i => (g.members i).withSlots
        { (g.members i).dev.slots with secondary := some (call.image g i), swap := none }⟩ :=
    hphase.bind ⟨0, fun e => surelyIn_some rfl⟩
  rcases hlead.post (by rw [runUpdate_complete hcomplete]; exact hsurely) with ⟨err, h⟩
  exact h

theorem answers_of_ok (i : Fin (n + 1)) (phase : Phase) :
    Answers ((call.envs i).outcome phase) := ⟨0, .inr (call.calls_ok i phase _)⟩

section Starts

variable (h : Sound g) (hstarts : call.Starts g)

include h hstarts

theorem writePasses_of_sound : WritePasses call.envs (call.image g) g := by
  apply (passes_of_ok (write_surely_of_ok g.members (call.image g)
    fun i => call.calls_ok i .write) hstarts.2).imp
  intro out hout
  rw [hout]
  refine Prod.ext (funext fun i => ?_) rfl
  unfold writtenMembers
  rw [← h.confirmed i]

/-- The update is what happens after the reset. -/
theorem surely_of_confirm {Q : Option UpdateError × Group n → Prop}
    (hsurely : Surely (confirmMembers call.envs g.currVersion
      (testedMembers call.envs g.members (call.image g))) Q) :
    Surely (runUpdate call.envs call.art g) Q := by
  rw [runUpdate_complete hstarts.1]
  exact updateMembers_surely (writePasses_of_sound h hstarts) hstarts.2
    (fun i k _ => call.calls_ok i _ k) (fun i => ⟨call.calls_ok i _ 0, call.calls_ok i _ 1⟩) hsurely

theorem confirmOk_forall_iff :
    (∀ i, (g.members i).ConfirmOk (call.envs i) (call.image g i)) ↔
      ∀ i, (call.envs i).accepts = true :=
  forall_congr' fun i => confirmOk_iff (call.calls_ok i) (hstarts.2 i) (h.primaryImage i)

/-- All members boot the image: what is recorded for the rollback is that of the image before. -/
theorem not_bookkept_of_accepted (hlead : call.Leads g g')
    (hall : ∀ i, (call.envs i).accepts = true) : ¬ Bookkept g' := by
  rcases confirmMembers_ok g.currVersion (fun i => answers_of_ok i .finishReboot)
    (fun i => confirmEnds_of_ok (call.calls_ok i)) ((confirmOk_forall_iff h hstarts).mpr hall) with
    ⟨devs, r, hafter, hsurely⟩
  rcases hlead.post (surely_of_confirm h hstarts hsurely) with ⟨err, hout⟩
  rcases Prod.mk.inj hout with ⟨-, rfl⟩
  intro hbook
  have hslots : (devs 0).slots.primary = call.image g 0 := by
    rw [(hafter 0).slots_eq]
    exact if_pos (hall 0)
  have hhash : (g.members 0).rollbackHash = (devs 0).slots.primary.hash := hbook.rollbackHash 0
  rw [h.rollbackHash 0, hslots] at hhash
  exact hstarts.2 0 hhash

section Rejected

variable (hlead : call.Leads g g') (hnot : ¬ ∀ i, (call.envs i).accepts = true)

include hlead hnot

theorem leads_rolledBack :
    ∃ (devs : Fin (n + 1) → Device) (r : Fin (n + 1) → Option UpdateError),
      (∀ i, (g.members i).AfterConfirm (call.envs i) (call.image g i) (devs i) (r i)) ∧
      g' = ⟨g.currVersion, rolledBackMembers call.envs g.members (call.image g) devs⟩ := by
  rcases confirmMembers_rollback g.currVersion hstarts.2
    (fun i => confirmEnds_of_ok (call.calls_ok i))
    (fun hok => hnot ((confirmOk_forall_iff h hstarts).mp hok)) (fun i => call.calls_ok i .rollback)
    (fun i => answers_of_ok i .finishReboot) (fun _ i => answers_of_ok i .finishRollback) with
    ⟨devs, r, hafter, hsurely⟩
  rcases hlead.post (surely_of_confirm h hstarts hsurely) with ⟨err, -, hout⟩
  exact ⟨devs, r, hafter, hout⟩

/-- A member that boots the image and is rolled back: the image it was rolled back from is recorded
as the running one. -/
theorem not_bookkept_of_rolledBack {i : Fin (n + 1)} (ha : (call.envs i).accepts = true) :
    ¬ Bookkept g' := by
  rcases leads_rolledBack h hstarts hlead hnot with ⟨devs, r, hafter, rfl⟩
  intro hbook
  have hrolled : (rolledBackMembers call.envs g.members (call.image g) devs i).dev =
      ⟨(call.image g i).entry (devs i).slots.confirmed,
        ⟨(g.members i).dev.slots.primary, some (call.image g i), true, none⟩⟩ := by
    have hdiff : (g.members i).rollbackHash ≠ (call.image g i).hash := by
      rw [h.rollbackHash i]
      exact hstarts.2 i
    unfold rolledBackMembers Member.rolledBack
    dsimp only
    rw [Member.running_of_boots ha, Member.spare_of_boots ha, if_neg hdiff,
      if_pos (h.rollbackHash i)]
  have hprimary : (rolledBackMembers call.envs g.members (call.image g) devs i).dev.primaryImage.hash =
      (rolledBackMembers call.envs g.members (call.image g) devs i).dev.slots.primary.hash :=
    hbook.primaryImage i
  rw [hrolled] at hprimary
  exact hstarts.2 i hprimary.symm

theorem sound_of_rejected (hnone : ∀ i, (call.envs i).accepts = false) : Sound g' := by
  rcases leads_rolledBack h hstarts hlead hnot with ⟨devs, r, hafter, rfl⟩
  have hrolled : rolledBackMembers call.envs g.members (call.image g) devs = fun i =>
      { g.members i with
        dev := ⟨(g.members i).dev.slots.primary.entry true,
          ⟨(g.members i).dev.slots.primary, some (call.image g i), true, none⟩⟩ } := by
    funext i
    have hconfirmed : (devs i).slots.confirmed = true := by
      rcases (hafter i).slots with ⟨confirmed, hslots, htrue⟩
      rw [hslots]
      exact htrue (hnone i)
    unfold rolledBackMembers Member.rolledBack
    dsimp only
    rw [Member.running_of_rejects (hnone i), Member.spare_of_rejects (hnone i),
      if_pos (h.rollbackHash i), hconfirmed]
  rw [hrolled]
  exact ⟨⟨h.rollbackHash, fun _ => rfl, h.version⟩, fun _ => rfl⟩

end Rejected

end Starts

/-- One call: the records are right after it exactly if it was harmless. -/
theorem leads_spec (h : Sound g) (hlead : call.Leads g g') :
    (Bookkept g' ↔ call.Harmless g) ∧ (call.Harmless g → Sound g') := by
  have hpass : ¬ call.Starts g → Sound g' →
      (Bookkept g' ↔ call.Harmless g) ∧ (call.Harmless g → Sound g') := fun hn hg' =>
    ⟨iff_of_true hg'.toBookkept fun hs => absurd hs hn, fun _ => hg'⟩
  by_cases hcomplete : Complete call.art g
  · by_cases hdiff : ∀ i, (g.members i).dev.slots.primary.hash ≠ (call.image g i).hash
    · have hstarts : call.Starts g := ⟨hcomplete, hdiff⟩
      by_cases hall : ∀ i, (call.envs i).accepts = true
      · have hharm : ¬ call.Harmless g := by
          intro hharmless
          have := hharmless hstarts 0
          rw [hall 0] at this
          cases this
        exact ⟨iff_of_false (not_bookkept_of_accepted h hstarts hlead hall) hharm,
          fun hh => absurd hh hharm⟩
      · by_cases hnone : ∀ i, (call.envs i).accepts = false
        · have hg' := sound_of_rejected h hstarts hlead hall hnone
          exact ⟨iff_of_true hg'.toBookkept fun _ => hnone, fun _ => hg'⟩
        · have hharm : ¬ call.Harmless g := fun hharmless => hnone (hharmless hstarts)
          push Not at hnone
          rcases hnone with ⟨i, hi⟩
          rw [ne_eq, Bool.not_eq_false] at hi
          exact ⟨iff_of_false (not_bookkept_of_rolledBack h hstarts hlead hall hi) hharm,
            fun hh => absurd hh hharm⟩
    · apply hpass fun hs => hdiff hs.2
      rw [hlead.of_same hcomplete hdiff]
      exact h.withSlots (fun _ => rfl) h.confirmed
  · apply hpass fun hs => hcomplete hs.1
    rw [hlead.of_incomplete hcomplete]
    exact h

end UpdateCall

/-! ## The start -/

section Init

variable {cfgs : Fin (n + 1) → MemberConfig} {cs : Fin (n + 1) → Conduct}
  {slots : Fin (n + 1) → BootSlots Image} {g : Group n}

/-- Every device of a group was opened, at one version. -/
theorem initGroup_opened (h : initGroup cfgs cs slots = .ok g) :
    g = openedGroup cfgs cs slots ∧ ∀ i, ∃ l image, openDevice cs slots i = (l, .ok image) ∧
      image.version = openVersion cs slots 0 := by
  unfold initGroup at h
  split at h
  · cases h
  · next hnone =>
    cases h
    refine ⟨rfl, fun i => ?_⟩
    rw [List.findSome?_eq_none_iff] at hnone
    have hi := hnone i (List.mem_finRange i)
    unfold openFailure at hi
    split at hi
    · cases hi
    · next image himage =>
      refine ⟨(openDevice cs slots i).1, image, Prod.ext rfl himage, ?_⟩
      by_contra hversion
      rw [if_pos (Ne.symm hversion)] at hi
      cases hi

/-- A group starts with right records. -/
theorem initGroup_sound (h : initGroup cfgs cs slots = .ok g) : Sound g := by
  rcases initGroup_opened h with ⟨rfl, hopened⟩
  have hmember : ∀ i, ∃ image s, (openedGroup cfgs cs slots).members i =
        ⟨(cfgs i).device, (cfgs i).selfConfirm, image.hash, image, s⟩ ∧
      s.confirmed = true ∧ image.hash = s.primary.hash ∧
      s.primary.version = openVersion cs slots 0 := by
    intro i
    rcases hopened i with ⟨l, image, hopen, hversion⟩
    rcases initDevice_spec hopen with ⟨hconfirmed, hhash, himage⟩
    refine ⟨image, l.device.slots, ?_, hconfirmed, hhash, himage.symm.trans hversion⟩
    unfold openedGroup
    dsimp only
    rw [hopen]
  refine ⟨⟨?_, ?_, ?_⟩, ?_⟩
  all_goals
    intro i
    rcases hmember i with ⟨image, s, hi, hconfirmed, hhash, hversion⟩
    rw [hi]
  · exact hhash
  · exact hhash
  · exact hversion
  · exact hconfirmed

end Init

/-! ## Runs -/

/-- **The records of a group stay right** along a run of updates, and judge right in each, exactly
when every update is refused before the reset or booted by no member. -/
theorem group_bookkeeping_iff {cfgs : Fin (n + 1) → MemberConfig} {cs : Fin (n + 1) → Conduct}
    {slots : Fin (n + 1) → BootSlots Image} {g : Group n} (hinit : initGroup cfgs cs slots = .ok g)
    (trace : List (UpdateCall n × Group n))
    (hrun : Steps (fun g call g' => UpdateCall.Leads call g g') g trace) :
    Bookkept g ∧ (Steps (fun g call g' => Bookkept g' ∧ (call.Starts g → call.Judges g)) g trace ↔
      Steps (fun g call _ => call.Harmless g) g trace) := by
  have hsound := initGroup_sound hinit
  refine ⟨hsound.toBookkept, Steps.iff_of_invariant ?_ hsound hrun⟩
  intro g call g' h hlead
  rcases UpdateCall.leads_spec h hlead with ⟨hiff, hnext⟩
  exact ⟨(and_iff_left (UpdateCall.judges h.toBookkept)).trans hiff, hnext⟩

/-! ### Two members -/

def imageV3 : Image := ⟨[3], "3.0.0".toList⟩

def pairConfigs (i : Fin 2) : MemberConfig := ⟨"app".toList, decide (i.val = 0)⟩

/-- A device that answers every call. -/
def answering : Conduct := ⟨fun _ => .ok, true, none, none⟩

def pairSlots (_ : Fin 2) : BootSlots Image := ⟨imageV1, none, true, none⟩

/-- The two devices as `InitGroup` leaves them. -/
def freshPair : Group 1 := openedGroup pairConfigs (fun _ => answering) pairSlots

/-- An update of the two, one after the other, to an image that some of them boot. -/
def pairCall (image : Image) (boots : Fin 2 → Bool) : UpdateCall 1 where
  art := ⟨fun _ => some image⟩
  envs i := obliging (boots i)
  sched _ := (List.finRange 2).flatMap (List.replicate 6)
  calls_ok _ _ _ := rfl

/-- Neither member boots the image, and the records are as before. -/
theorem pair_keeps_records : ∃ g', initGroup pairConfigs (fun _ => answering) pairSlots = .ok freshPair ∧
    (pairCall imageV2 fun _ => false).Leads freshPair g' ∧ Bookkept g' := by
  have hinit : initGroup pairConfigs (fun _ => answering) pairSlots = .ok freshPair := rfl
  have hends : (runUpdate (pairCall imageV2 fun _ => false).envs (pairCall imageV2 fun _ => false).art
      freshPair (pairCall imageV2 fun _ => false).sched).isSome = true := by
    decide
  rcases Option.isSome_iff_exists.mp hends with ⟨⟨err, g'⟩, hrun⟩
  have hlead : (pairCall imageV2 fun _ => false).Leads freshPair g' := ⟨err, hrun⟩
  have hsteps := (group_bookkeeping_iff hinit [(pairCall imageV2 fun _ => false, g')]
    ⟨hlead, trivial⟩).2.mpr
    ⟨fun _ _ => rfl, trivial⟩
  exact ⟨g', hinit, hlead, hsteps.1.1⟩

/-- Both members boot version 2, and the hash for the rollback stays that of version 1; so the first
cannot be rolled back from version 3, which the second does not boot. -/
theorem pair_loses_records : initGroup pairConfigs (fun _ => answering) pairSlots = .ok freshPair ∧
    ∃ g₁ g₂, (pairCall imageV2 fun _ => true).Leads freshPair g₁ ∧ ¬ Bookkept g₁ ∧
      runUpdate (pairCall imageV3 fun i => decide (i = 0)).envs
        (pairCall imageV3 fun i => decide (i = 0)).art g₁
        (pairCall imageV3 fun i => decide (i = 0)).sched = some (some .unknownSecondary, g₂) ∧
      (g₂.members 0).dev.slots.primary = imageV3 := by
  refine ⟨rfl, ?_⟩
  have hrun : ((runUpdate (pairCall imageV2 fun _ => true).envs (pairCall imageV2 fun _ => true).art
      freshPair (pairCall imageV2 fun _ => true).sched).bind fun out =>
        (runUpdate (pairCall imageV3 fun i => decide (i = 0)).envs
          (pairCall imageV3 fun i => decide (i = 0)).art out.2
          (pairCall imageV3 fun i => decide (i = 0)).sched).map fun out' =>
            ((out.2.members 0).rollbackHash, (out.2.members 0).dev.slots.primary.hash, out'.1,
              (out'.2.members 0).dev.slots.primary)) =
      some ([1], [2], some .unknownSecondary, imageV3) := by
    decide
  rcases Option.bind_eq_some_iff.mp hrun with ⟨⟨err, g₁⟩, hfirst, hmap⟩
  rcases Option.map_eq_some_iff.mp hmap with ⟨⟨err', g₂⟩, hsecond, heq⟩
  simp only [Prod.mk.injEq] at heq
  rcases heq with ⟨hrollback, hprimary, rfl, himage⟩
  refine ⟨g₁, g₂, ⟨err, hfirst⟩, ?_, hsecond, himage⟩
  intro hbook
  have hhash := hbook.rollbackHash 0
  rw [hrollback, hprimary] at hhash
  revert hhash
  decide

end Rdfm.Mcumgr
