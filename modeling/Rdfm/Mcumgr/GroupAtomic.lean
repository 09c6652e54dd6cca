import Rdfm.Mcumgr.GroupUpdate

/-!
# Group updates, all or nothing

After an update every member should run the new image, or every member the old one, once all swaps
are carried out (`Atomic`). Only a failed confirmation is rolled back: a failure before it leaves the
members that were already asked to test the image with that request, and the rollback itself goes by
a recorded hash. `runUpdate_atomic_iff` has the exact condition.
-/

namespace Rdfm.Mcumgr

open Rdfm.Lib

variable {n : Nat} {envs : Fin (n + 1) → Surroundings} {art : GroupArtifact} {g : Group n}

/-! ## The property -/

/-- The image a member runs after every swap. -/
def Member.runs (m : Member) (env : Surroundings) : Image :=
  (m.dev.slots.settled (m.keeps env)).primary

/-- In every order of the goroutines the update ends: without an error all members run the image of
the artifact, with an error the image they ran before. -/
def Atomic (envs : Fin (n + 1) → Surroundings) (art : GroupArtifact) (g : Group n) : Prop :=
  Surely (runUpdate envs art g) fun out => ∀ i, (out.2.members i).runs (envs i) =
    if out.1 = none then art.image (g.members i).target else (g.members i).dev.slots.primary

/-- The recorded hash brings the member back: it is not that of an image the member has refused, and
it is that of the old image if the member would stay with the new one. -/
def Member.RollbackSafe (m : Member) (env : Surroundings) (new : Image) : Prop :=
  (env.accepts = false → m.rollbackHash ≠ new.hash) ∧
    (m.StaysNew env new → m.rollbackHash = m.dev.slots.primary.hash)

section Condition

variable (envs) (g) (images : Fin (n + 1) → Image)

/-- A member that confirms images by itself has not been asked to test this one. -/
def PendingSafe : Prop :=
  ∀ i, (g.members i).keeps (envs i) = true → ¬ Requested ((envs i).outcome .setPending)

/-- The confirmation of an image that all members have been reset with. -/
structure ConfirmSafe : Prop where
  answers : ∀ i, Answers ((envs i).outcome .finishReboot)
  ends : ∀ i, (g.members i).ConfirmEnds (envs i) (images i)
  accepted : (∀ i, (g.members i).ConfirmOk (envs i) (images i)) → ∀ i, (envs i).accepts = true
  rollback : (¬ ∀ i, (g.members i).ConfirmOk (envs i) (images i)) →
    (∀ i, (g.members i).RollbackSafe (envs i) (images i)) ∧
    ((∀ i, (g.members i).Known (g.members i).dev.slots.primary (images i)) →
      ∀ i, Answers ((envs i).outcome .finishRollback))

/-- Where the phases of an update leave all members alike. -/
def UpdateSafe : Prop :=
  (∀ i, (g.members i).WriteOk (envs i) (images i)) →
    ((¬ ∀ i, PendingOk (envs i)) → PendingSafe envs g) ∧
    ((∀ i, PendingOk (envs i)) →
      ((¬ ∀ i, ResetOk (envs i)) → ∀ i, (g.members i).keeps (envs i) = false) ∧
      ((∀ i, ResetOk (envs i)) → ConfirmSafe envs g images))

end Condition

/-! ## Where a member ends -/

section Member

variable {m : Member} {env : Surroundings} {new : Image}
  (hne : m.dev.slots.primary.hash ≠ new.hash)

include hne

theorem runs_pending_iff :
    (m.withSlots ⟨m.dev.slots.primary, some new, true,
      if Requested (env.outcome .setPending) then some .test else none⟩).runs env =
        m.dev.slots.primary ↔
      (m.keeps env = true → ¬ Requested (env.outcome .setPending)) := by
  have hdiff : new ≠ m.dev.slots.primary := fun h => hne (by rw [h])
  change (BootSlots.settled (m.keeps env) _).primary = _ ↔ _
  by_cases hreq : Requested (env.outcome .setPending)
  · rw [m.slots_withSlots, if_pos hreq, BootSlots.settled_test]
    cases m.keeps env with
    | true => simp [hreq, hdiff]
    | false => simp
  · rw [m.slots_withSlots, if_neg hreq, settled_confirmed (.inr rfl)]
    simp [hreq]

theorem runs_reset_iff (reset : Prop) [Decidable reset] :
    (m.withSlots (if reset then m.tested env new
      else ⟨m.dev.slots.primary, some new, true, some .test⟩)).runs env = m.dev.slots.primary ↔
      m.keeps env = false := by
  have hdiff : new ≠ m.dev.slots.primary := fun h => hne (by rw [h])
  have hruns : (m.withSlots (if reset then m.tested env new
      else ⟨m.dev.slots.primary, some new, true, some .test⟩)).runs env =
      if m.keeps env then new else m.dev.slots.primary := by
    change (BootSlots.settled (m.keeps env) _).primary = _
    rw [m.slots_withSlots]
    split
    · unfold Member.tested tested Member.keeps
      cases env.accepts with
      | true =>
        rw [if_pos rfl, Bool.and_true, BootSlots.settled_trial]
      | false =>
        rw [if_neg Bool.false_ne_true, Bool.and_false, settled_confirmed (.inr rfl)]
        rfl
    · exact BootSlots.settled_test true
  rw [hruns]
  cases m.keeps env with
  | true => simp [hdiff]
  | false => simp

variable {dev : Device} {r : Option UpdateError} (hafter : m.AfterConfirm env new dev r)

include hafter

/-- A confirmed member runs the new image if the device has accepted it. -/
theorem runs_confirmed_iff (hok : m.ConfirmOk env new) :
    { m with dev := dev }.runs env = new ↔ env.accepts = true := by
  have hdiff : m.dev.slots.primary ≠ new := fun h => hne (by rw [h])
  change (dev.slots.settled (m.keeps env)).primary = new ↔ _
  cases ha : env.accepts with
  | false =>
    rw [hafter.reverts (fun h => by rw [h.1] at ha; cases ha)]
    simp [hdiff]
  | true =>
    refine iff_of_true (hafter.stays ⟨ha, ?_⟩) rfl
    rcases hok with ⟨hcalls, hhash⟩
    unfold Member.tested tested at hhash
    rw [ha] at hhash
    cases hself : m.selfConfirm with
    | true => exact .inl rfl
    | false =>
      rw [hself, if_neg Bool.false_ne_true, lt_three] at hcalls
      refine .inr ⟨hhash, hcalls.1, hcalls.2.1, ?_⟩
      rw [hcalls.2.2]
      exact nofun

/-- A member that is rolled back runs the old image if its recorded hash is safe. -/
theorem runs_rolledBack_iff :
    Member.runs { m with
      dev := Member.rolledBack { m with dev := dev } (m.running env new) (m.spare env new)
        dev.slots.confirmed } env = m.dev.slots.primary ↔ m.RollbackSafe env new := by
  have hdiff : new ≠ m.dev.slots.primary := fun h => hne (by rw [h])
  have hslots : dev.slots = ⟨m.running env new, some (m.spare env new), dev.slots.confirmed, none⟩ :=
    hafter.slots_eq
  -- without a swap the member ends where its confirmation has left it
  have hleft : (dev.slots.settled (m.keeps env)).primary = m.dev.slots.primary ↔
      ¬ m.StaysNew env new := by
    by_cases hstays : m.StaysNew env new
    · rw [hafter.stays hstays]
      exact iff_of_false hdiff (not_not.mpr hstays)
    · rw [hafter.reverts hstays]
      exact iff_of_true rfl hstays
  change ((Member.rolledBack { m with dev := dev } (m.running env new) (m.spare env new)
        dev.slots.confirmed).slots.settled (m.keeps env)).primary = _ ↔ _
  unfold Member.rolledBack Member.RollbackSafe
  rw [← hslots]
  dsimp only
  cases ha : env.accepts with
  | false =>
    have hstays : ¬ m.StaysNew env new := fun h => absurd h.1 (by rw [ha]; exact nofun)
    rw [Member.running_of_rejects ha, Member.spare_of_rejects ha]
    split_ifs with hrun hspare
    · exact iff_of_true (hleft.mpr hstays) ⟨fun _ => hrun ▸ hne, fun h => absurd h hstays⟩
    · rw [settled_confirmed (.inr rfl)]
      exact iff_of_false hdiff fun h => h.1 rfl hspare
    · exact iff_of_true (hleft.mpr hstays) ⟨fun _ => hspare, fun h => absurd h hstays⟩
  | true =>
    rw [Member.running_of_boots ha, Member.spare_of_boots ha]
    simp only [Bool.true_eq_false, false_implies, true_and]
    split_ifs with hrun hspare
    · rw [hleft]
      exact imp_congr_right fun _ => iff_of_false id fun h => hne (h.symm.trans hrun)
    · rw [settled_confirmed (.inr rfl)]
      exact iff_of_true rfl fun _ => hspare
    · rw [hleft]
      exact imp_congr_right fun _ => iff_of_false id hspare

end Member

theorem Member.known_iff {m : Member} {env : Surroundings} {new : Image} :
    m.Known (m.running env new) (m.spare env new) ↔ m.Known m.dev.slots.primary new := by
  unfold Known running spare
  cases env.accepts
  · rfl
  · exact or_comm

/-! ## Where all members end -/

theorem atomic_iff_of_error {members : Fin (n + 1) → Member}
    (h : Surely (runUpdate envs art g) fun out => out.1 ≠ none ∧ out.2.members = members) :
    Atomic envs art g ↔
      ∀ i, (members i).runs (envs i) = (g.members i).dev.slots.primary := by
  constructor
  · intro hatomic
    rcases h.meet hatomic with ⟨out, ⟨herr, rfl⟩, hout⟩
    intro i
    rw [hout i, if_neg herr]
  · intro hold
    apply h.imp
    rintro out ⟨herr, rfl⟩ i
    rw [hold i, if_neg herr]

theorem atomic_iff_of_ok {members : Fin (n + 1) → Member}
    (h : Surely (runUpdate envs art g) fun out => out.1 = none ∧ out.2.members = members) :
    Atomic envs art g ↔
      ∀ i, (members i).runs (envs i) = art.image (g.members i).target := by
  constructor
  · intro hatomic
    rcases h.meet hatomic with ⟨out, ⟨herr, rfl⟩, hout⟩
    intro i
    rw [hout i, if_pos herr]
  · intro hnew
    apply h.imp
    rintro out ⟨herr, rfl⟩ i
    rw [hnew i, if_pos herr]

theorem not_atomic_of_never (h : ∀ sched, runUpdate envs art g sched = none) :
    ¬ Atomic envs art g := by
  intro hatomic
  rcases hatomic.exists_some with ⟨sched, out, hout⟩
  rw [h sched] at hout
  cases hout

theorem atomic_of_incomplete (hquiet : ∀ i, (g.members i).dev.slots.Quiet)
    (h : ¬ Complete art g) : Atomic envs art g := by
  have hsurely : Surely (runUpdate envs art g) fun out =>
      out.1 ≠ none ∧ out.2.members = g.members := by
    refine ⟨0, ?_, ?_⟩
    · intro sched _
      rcases runUpdate_incomplete envs h sched with ⟨e, he⟩
      rw [he]
      rfl
    · intro sched out hout
      rcases runUpdate_incomplete envs h sched with ⟨e, he⟩
      rw [he] at hout
      cases hout
      exact ⟨nofun, rfl⟩
  rw [atomic_iff_of_error hsurely]
  intro i
  unfold Member.runs
  rw [(hquiet i).settled]

section Complete

variable (hcomplete : Complete art g) (hquiet : ∀ i, (g.members i).dev.slots.Quiet)

include hcomplete hquiet

theorem atomic_of_write_fails
    (hwrite : ¬ ∀ i, (g.members i).WriteOk (envs i) (art.image (g.members i).target)) :
    Atomic envs art g := by
  rcases updateMembers_write_fails hquiet hwrite with ⟨secondary, h⟩
  rw [← runUpdate_complete hcomplete] at h
  rw [atomic_iff_of_error (h.imp fun out hout => ⟨hout.1, by rw [hout.2]⟩)]
  intro i
  unfold Member.runs
  rw [Member.slots_withSlots, BootSlots.Quiet.settled ⟨rfl, rfl⟩]

variable (hwrite : ∀ i, (g.members i).WriteOk (envs i) (art.image (g.members i).target))

include hwrite

theorem atomic_iff_of_pending_fails (hpending : ¬ ∀ i, PendingOk (envs i)) :
    Atomic envs art g ↔ PendingSafe envs g := by
  have h := updateMembers_pending_fails (writePasses hquiet hwrite) (fun i => (hwrite i).2) hpending
  rw [← runUpdate_complete hcomplete] at h
  rw [atomic_iff_of_error (h.imp fun out hout => ⟨hout.1, by rw [hout.2]⟩)]
  exact forall_congr' fun i => runs_pending_iff (hwrite i).2

variable (hpending : ∀ i, PendingOk (envs i))

include hpending

theorem atomic_iff_of_reset_fails (hreset : ¬ ∀ i, ResetOk (envs i)) :
    Atomic envs art g ↔ ∀ i, (g.members i).keeps (envs i) = false := by
  have h := updateMembers_reset_fails (writePasses hquiet hwrite) (fun i => (hwrite i).2) hpending hreset
  rw [← runUpdate_complete hcomplete] at h
  rw [atomic_iff_of_error (h.imp fun out hout => ⟨hout.1, by rw [hout.2]⟩)]
  exact forall_congr' fun i => runs_reset_iff (hwrite i).2 _

variable (hreset : ∀ i, ResetOk (envs i)) (hroll : ∀ i k, (envs i).outcome .rollback k = .ok)

include hreset hroll

theorem atomic_iff_of_confirm :
    Atomic envs art g ↔ ConfirmSafe envs g fun i => art.image (g.members i).target := by
  have hpasses := writePasses hquiet hwrite
  have hne := fun i => (hwrite i).2
  have hnever : (∀ sched, confirmMembers envs g.currVersion (testedMembers envs g.members fun i =>
      art.image (g.members i).target) sched = none) → ¬ Atomic envs art g := by
    intro h
    apply not_atomic_of_never
    rw [runUpdate_complete hcomplete]
    exact fun sched => updateMembers_never hpasses hne hpending hreset (h sched)
  by_cases hanswers : ∀ i, Answers ((envs i).outcome .finishReboot)
  · by_cases hends : ∀ i, (g.members i).ConfirmEnds (envs i) (art.image (g.members i).target)
    · by_cases hok : ∀ i, (g.members i).ConfirmOk (envs i) (art.image (g.members i).target)
      · rcases confirmMembers_ok g.currVersion hanswers hends hok with
          ⟨devs, r, hafter, h⟩
        have hsurely := updateMembers_surely hpasses hne hpending hreset h
        rw [← runUpdate_complete hcomplete] at hsurely
        apply (atomic_iff_of_ok (hsurely.imp fun out hout => ⟨by rw [hout], by rw [hout]⟩)).trans
        apply (forall_congr' fun i => runs_confirmed_iff (hne i) (hafter i) (hok i)).trans
        exact ⟨fun h => ⟨hanswers, hends, fun _ => h, fun hn => absurd hok hn⟩,
          fun h => h.accepted hok⟩
      · by_cases hback : (∀ i, (g.members i).Known (g.members i).dev.slots.primary
            (art.image (g.members i).target)) → ∀ i, Answers ((envs i).outcome .finishRollback)
        · rcases confirmMembers_rollback g.currVersion hne hends
            hok hroll hanswers (fun h => hback fun i => Member.known_iff.mp (h i)) with
            ⟨devs, r, hafter, h⟩
          have hsurely := updateMembers_surely hpasses hne hpending hreset h
          rw [← runUpdate_complete hcomplete] at hsurely
          apply (atomic_iff_of_error (hsurely.imp fun out hout => ⟨hout.1, by rw [hout.2]⟩)).trans
          apply (forall_congr' fun i => runs_rolledBack_iff (hne i) (hafter i)).trans
          exact ⟨fun h => ⟨hanswers, hends, fun hall => absurd hall hok, fun _ => ⟨h, hback⟩⟩,
            fun h => (h.rollback hok).1⟩
        · refine iff_of_false ?_ fun h => hback (h.rollback hok).2
          push Not at hback
          rcases hback with ⟨hknown, i, hi⟩
          exact hnever (confirmMembers_never_back hne hends hok hroll hanswers
            (fun i => Member.known_iff.mpr (hknown i)) hi)
    · refine iff_of_false ?_ fun h => hends h.ends
      push Not at hends
      rcases hends with ⟨i, hi⟩
      exact hnever (confirmMembers_never_confirms hanswers hi)
  · refine iff_of_false ?_ fun h => hanswers h.answers
    push Not at hanswers
    rcases hanswers with ⟨i, hi⟩
    exact hnever (confirmMembers_never_answers hi)

end Complete

/-- **A group update is all or nothing** exactly where its phases leave all members alike. -/
theorem runUpdate_atomic_iff (hquiet : ∀ i, (g.members i).dev.slots.Quiet)
    (hroll : ∀ i k, (envs i).outcome .rollback k = .ok) :
    Atomic envs art g ↔ (Complete art g →
      UpdateSafe envs g fun i => art.image (g.members i).target) := by
  by_cases hcomplete : Complete art g
  · rw [forall_prop_of_true hcomplete]
    unfold UpdateSafe
    by_cases hwrite : ∀ i, (g.members i).WriteOk (envs i) (art.image (g.members i).target)
    · rw [forall_prop_of_true hwrite]
      by_cases hpending : ∀ i, PendingOk (envs i)
      · simp only [hpending, not_true_eq_false, false_implies, true_and, forall_const]
        by_cases hreset : ∀ i, ResetOk (envs i)
        · simp only [hreset, not_true_eq_false, false_implies, true_and, forall_const]
          exact atomic_iff_of_confirm hcomplete hquiet hwrite hpending hreset hroll
        · simp only [hreset, not_false_eq_true, false_implies, and_true, forall_const]
          exact atomic_iff_of_reset_fails hcomplete hquiet hwrite hpending hreset
      · simp only [hpending, not_false_eq_true, false_implies, and_true, forall_const]
        exact atomic_iff_of_pending_fails hcomplete hquiet hwrite hpending
    · exact iff_of_true (atomic_of_write_fails hcomplete hquiet hwrite) fun h => absurd h hwrite
  · exact iff_of_true (atomic_of_incomplete hquiet hcomplete) fun h => absurd h hcomplete

/-! ### Two members -/

def imageV1 : Image := ⟨[1], "1.0.0".toList⟩

def imageV2 : Image := ⟨[2], "2.0.0".toList⟩

/-- Two members at version 1; the first confirms images by itself. -/
def pair : Group 1 where
  currVersion := "1.0.0".toList
  members i := ⟨"app".toList, decide (i = 0), [1], imageV1.entry true, ⟨imageV1, none, true, none⟩⟩

def pairArtifact : GroupArtifact := ⟨fun _ => some imageV2⟩

/-- Every call succeeds. -/
def obliging (accepts : Bool) : Surroundings := ⟨fun _ _ => .ok, accepts, 0, none⟩

theorem obliging_answers (accepts : Bool) (phase : Phase) :
    Answers ((obliging accepts).outcome phase) := ⟨0, .inr rfl⟩

/-- The second member does not boot the image, and the first is rolled back. -/
theorem pair_rolls_back : (∀ i, (pair.members i).dev.slots.Quiet) ∧
    Atomic (fun i : Fin 2 => obliging (decide (i = 0))) pairArtifact pair := by
  have hquiet : ∀ i, (pair.members i).dev.slots.Quiet := fun _ => ⟨rfl, rfl⟩
  refine ⟨hquiet, (runUpdate_atomic_iff hquiet fun _ _ => rfl).mpr fun _ _ => ?_⟩
  refine ⟨fun h => absurd (fun _ _ _ => rfl) h, fun _ => ⟨fun h => absurd (fun _ => ⟨rfl, rfl⟩) h, ?_⟩⟩
  intro _
  refine ⟨fun i => obliging_answers _ _, ?_, ?_, ?_⟩
  · intro i _
    refine ⟨0, .inr ⟨rfl, ?_⟩⟩
    match i with
    | 0 => rfl
    | 1 => rfl
  · exact fun h => absurd rfl (h 1).2
  · intro _
    refine ⟨fun i => ⟨fun _ => ?_, fun _ => rfl⟩, fun _ i => obliging_answers _ _⟩
    change [1] ≠ [2]
    decide

/-- The request for the swap fails on the second member only. -/
def refusing : Surroundings :=
  { obliging true with outcome := fun phase k =>
      if phase = .setPending ∧ k = 2 then .refused else .ok }

/-- The update ends with an error, and the first member, which has been asked to test the image, will
run it from its next reset on. -/
theorem pair_splits :
    ¬ Atomic (fun i : Fin 2 => if i = 0 then obliging true else refusing) pairArtifact pair := by
  rintro ⟨N, h⟩
  have hrun : (runUpdate (fun i : Fin 2 => if i = 0 then obliging true else refusing) pairArtifact pair
      (fun _ => [0, 0, 0, 0, 1, 1, 1, 1])).map (fun out =>
        (out.1, (out.2.members 0).runs (obliging true))) =
      some (some .setPendingImage, imageV2) := by
    decide
  rcases Option.map_eq_some_iff.mp hrun with ⟨out, hout, heq⟩
  have hpost := h.post _ out hout 0
  rcases Prod.mk.inj heq with ⟨herr, hruns⟩
  rw [herr, if_neg (Option.some_ne_none _)] at hpost
  have hsame : imageV2 = imageV1 := hruns.symm.trans hpost
  revert hsame
  decide

end Rdfm.Mcumgr
