import Rdfm.Mcumgr.GroupPhases

/-!
# The phases of a group update, in any order

What a phase does to a whole group does not depend on the order of its goroutines, except for which
error it answers with. Each phase is a `Surely` statement: in every order it ends, given enough
turns, with the members where their callbacks alone would leave them, and without an error exactly
when no member fails. The statements are then put together for the confirmation and the rollback.
-/

namespace Rdfm.Mcumgr

open Rdfm.Lib

variable {n : Nat} {members : Fin (n + 1) → Member} {envs : Fin (n + 1) → Surroundings}

/-! ## Phases in any order -/

section Phases

variable {α : Type} {jobs : Fin (n + 1) → Job Link α (Option UpdateError)}

theorem runPhase_surely {links : Fin (n + 1) → Link} {r : Fin (n + 1) → Option UpdateError}
    (hends : ∀ i, (jobs i).Ends ⟨(members i).dev, 0⟩ (links i) (r i)) (phase : Phase) :
    Surely (fun sched : Phase → List (Fin (n + 1)) => runPhase members jobs (sched phase)) fun out =>
      out.1 = (fun i => { members i with dev := (links i).device }) ∧
      (out.2 = none ↔ ∀ i, r i = none) := by
  rcases fork_surely hends phase with ⟨N, h⟩
  refine ⟨N, ?_, ?_⟩
  · intro sched hs
    unfold runPhase
    rw [Option.isSome_map]
    exact h.ends sched hs
  · intro sched out hout
    rcases Option.map_eq_some_iff.mp hout with ⟨⟨links', err⟩, hfork, rfl⟩
    rcases h.post sched _ hfork with ⟨hlinks, herr, -⟩
    dsimp only at hlinks
    subst hlinks
    exact ⟨rfl, herr⟩

/-- A member whose goroutine does not end holds the phase up. -/
theorem runPhase_never {i : Fin (n + 1)} (h : ¬ ∃ l r, (jobs i).Ends ⟨(members i).dev, 0⟩ l r)
    (sched : List (Fin (n + 1))) : runPhase members jobs sched = none := by
  cases hrun : runPhase members jobs sched with
  | none => rfl
  | some out =>
    rcases Option.map_eq_some_iff.mp hrun with ⟨out', hfork, -⟩
    have hends : ∃ l r, (jobs i).Ends ⟨(members i).dev, 0⟩ l r :=
      fork_ends (Option.isSome_iff_exists.mpr ⟨out', hfork⟩) i
    exact absurd hends h

end Phases

/-- A session phase leaves every member where its callback does. -/
theorem runWithSession_surely (phase : Phase)
    (cb : Fin (n + 1) → Conduct → Member → ExceptT UpdateError (Routine Link) Unit) :
    Surely (fun sched : Phase → List (Fin (n + 1)) =>
      runWithSession envs phase cb members (sched phase)) fun out =>
      (∀ i, out.1 i = { members i with dev := ((sessionJob ((members i).conduct (envs i) phase)
        (cb i ((members i).conduct (envs i) phase) (members i))).routine.exec
          ⟨(members i).dev, 0⟩).1.device }) ∧
      (out.2 = none ↔ ∀ i, ((sessionJob ((members i).conduct (envs i) phase)
        (cb i ((members i).conduct (envs i) phase) (members i))).routine.exec
          ⟨(members i).dev, 0⟩).2 = .ok ()) := by
  apply (runPhase_surely (fun i => sessionJob_ends _ _) phase).imp
  rintro out ⟨hmembers, herr⟩
  refine ⟨fun i => by rw [hmembers], herr.trans (forall_congr' fun i => ?_)⟩
  cases ((sessionJob ((members i).conduct (envs i) phase)
        (cb i ((members i).conduct (envs i) phase) (members i))).routine.exec
          ⟨(members i).dev, 0⟩).2 with
  | ok _ => simp
  | error e => simp

/-! ### From one phase to the next -/

section Next

variable {β : Type}
  {p : (Phase → List (Fin (n + 1))) → Option ((Fin (n + 1) → Member) × Option UpdateError)}
  {q : (Fin (n + 1) → Member) × Option UpdateError → (Phase → List (Fin (n + 1))) → Option β}
  {after : Fin (n + 1) → Member} {ok : Prop} {Q : β → Prop}

/-- A phase ends with these members and without an error. -/
def Passes (p : (Phase → List (Fin (n + 1))) → Option ((Fin (n + 1) → Member) × Option UpdateError))
    (after : Fin (n + 1) → Member) : Prop :=
  Surely p fun out => out = (after, none)

/-- A phase ends with these members and with an error. -/
def Fails (p : (Phase → List (Fin (n + 1))) → Option ((Fin (n + 1) → Member) × Option UpdateError))
    (after : Fin (n + 1) → Member) : Prop :=
  Surely p fun out => out.1 = after ∧ out.2 ≠ none

theorem passes_of_ok (h : Surely p fun out => out.1 = after ∧ (out.2 = none ↔ ok)) (hok : ok) :
    Passes p after :=
  h.imp fun _ hout => Prod.ext hout.1 (hout.2.mpr hok)

theorem fails_of_not_ok (h : Surely p fun out => out.1 = after ∧ (out.2 = none ↔ ok))
    (hok : ¬ ok) : Fails p after :=
  h.imp fun _ hout => ⟨hout.1, fun herr => hok (hout.2.mp herr)⟩

theorem Passes.bind (hp : Passes p after) (hq : Surely (q (after, none)) Q) :
    Surely (fun sched => p sched >>= fun out => q out sched) Q := by
  rcases hq with ⟨M, hq⟩
  refine Surely.bind hp ⟨M, ?_⟩
  intro out hout
  rw [hout]
  exact hq

theorem Passes.bind_never (hp : Passes p after) {sched : Phase → List (Fin (n + 1))}
    (hq : q (after, none) sched = none) : (p sched >>= fun out => q out sched) = none := by
  apply Surely.bind_never hp
  intro out hout
  rw [hout]
  exact hq

theorem Fails.bind (hp : Fails p after) (hq : ∃ M, ∀ e, SurelyIn M (q (after, some e)) Q) :
    Surely (fun sched => p sched >>= fun out => q out sched) Q := by
  rcases hq with ⟨M, hq⟩
  refine Surely.bind hp ⟨M, ?_⟩
  rintro ⟨members, _ | e⟩ ⟨hmembers, herr⟩
  · exact absurd rfl herr
  · dsimp only at hmembers
    rw [hmembers]
    exact hq e

theorem Fails.bind_never (hp : Fails p after) {sched : Phase → List (Fin (n + 1))}
    (hq : ∀ e, q (after, some e) sched = none) : (p sched >>= fun out => q out sched) = none := by
  apply Surely.bind_never hp
  rintro ⟨members, _ | e⟩ ⟨hmembers, herr⟩
  · exact absurd rfl herr
  · dsimp only at hmembers
    rw [hmembers]
    exact hq e

end Next

/-! ## The phases up to the reset -/

section UpToReset

variable {images : Fin (n + 1) → Image}

/-- Whether the upload to a member passes. -/
def Member.WriteOk (m : Member) (env : Surroundings) (new : Image) : Prop :=
  (∀ k < 3, env.outcome .write k = .ok) ∧ m.dev.slots.primary.hash ≠ new.hash

def PendingOk (env : Surroundings) : Prop := ∀ k < 3, env.outcome .setPending k = .ok

def ResetOk (env : Surroundings) : Prop :=
  env.outcome .reboot 0 = .ok ∧ env.outcome .reboot 1 = .ok

variable (envs images) in
theorem write_surely (hquiet : ∀ i, (members i).dev.slots.Quiet) :
    ∃ secondary : Fin (n + 1) → Option Image,
      (∀ i, (members i).WriteOk (envs i) (images i) → secondary i = some (images i)) ∧
      Surely (fun sched : Phase → List (Fin (n + 1)) => runWithSession envs .write
        (fun i c _ => writeNewImage c (images i)) members (sched .write)) fun out =>
        out.1 = (fun i => (members i).withSlots
          ⟨(members i).dev.slots.primary, secondary i, true, none⟩) ∧
        (out.2 = none ↔ ∀ i, (members i).WriteOk (envs i) (images i)) := by
  have hspec := fun i => writeNewImage_spec ((members i).conduct_confirmsAt (envs i) .write nofun)
    (hquiet i).swap (images i)
  choose secondary hdevice hnew hok using hspec
  refine ⟨secondary, fun i h => hnew i ((hok i).mpr h), ?_⟩
  apply (runWithSession_surely .write _).imp
  rintro out ⟨hmembers, herr⟩
  refine ⟨funext fun i => ?_, herr.trans (forall_congr' hok)⟩
  rw [hmembers, hdevice]
  unfold Member.withSlots
  dsimp only
  rw [(hquiet i).confirmed, (hquiet i).swap]

variable (members images) in
/-- Uploads whose calls succeed. -/
theorem write_surely_of_ok (hok : ∀ i k, (envs i).outcome .write k = .ok) :
    Surely (fun sched : Phase → List (Fin (n + 1)) => runWithSession envs .write
      (fun i c _ => writeNewImage c (images i)) members (sched .write)) fun out =>
      out.1 = (fun i => (members i).withSlots
        { (members i).dev.slots with secondary := some (images i), swap := none }) ∧
      (out.2 = none ↔ ∀ i, (members i).dev.slots.primary.hash ≠ (images i).hash) := by
  have hspec := fun i => exec_writeNewImage (members i).dev
    ((members i).conduct_confirmsAt (envs i) .write nofun) (hok i)
    (images i)
  apply (runWithSession_surely .write _).imp
  rintro out ⟨hmembers, herr⟩
  refine ⟨funext fun i => ?_, herr.trans (forall_congr' fun i => ?_)⟩
  · rw [hmembers, hspec]
    rfl
  · rw [hspec]
    dsimp only
    split_ifs with hash
    · simp [hash]
    · simp [hash]

theorem setPending_surely {g : Fin (n + 1) → Member}
    (hmembers : members = fun i => (g i).withSlots
      ⟨(g i).dev.slots.primary, some (images i), true, none⟩)
    (hne : ∀ i, (g i).dev.slots.primary.hash ≠ (images i).hash) :
    Surely (fun sched : Phase → List (Fin (n + 1)) => runWithSession envs .setPending
      (fun _ c _ => setPending c) members (sched .setPending)) fun out =>
      out.1 = (fun i => (g i).withSlots ⟨(g i).dev.slots.primary, some (images i), true,
        if Requested ((envs i).outcome .setPending) then some .test else none⟩) ∧
      (out.2 = none ↔ ∀ i, PendingOk (envs i)) := by
  subst hmembers
  have hspec := fun i => setPending_spec ((g i).conduct_confirmsAt (envs i) .setPending nofun)
    ((g i).slots_withSlots ⟨_, some (images i), true, none⟩) (hne i)
  apply (runWithSession_surely .setPending _).imp
  rintro out ⟨hmembers, herr⟩
  refine ⟨funext fun i => ?_, herr.trans (forall_congr' fun i => (hspec i).2)⟩
  rw [hmembers, Member.conduct_withSlots, (hspec i).1]
  rfl

theorem reboot_surely {g : Fin (n + 1) → Member}
    (hmembers : members = fun i => (g i).withSlots
      ⟨(g i).dev.slots.primary, some (images i), true, some .test⟩) :
    Surely (fun sched : Phase → List (Fin (n + 1)) => runWithSession envs .reboot
      (fun _ c _ => reboot c) members (sched .reboot)) fun out =>
      out.1 = (fun i => (g i).withSlots
        (if (envs i).outcome .reboot 0 = .ok ∧ (envs i).outcome .reboot 1 ≠ .refused then
          (g i).tested (envs i) (images i)
        else ⟨(g i).dev.slots.primary, some (images i), true, some .test⟩)) ∧
      (out.2 = none ↔ ∀ i, ResetOk (envs i)) := by
  subst hmembers
  have hspec := fun i => reboot_spec ((g i).conduct_confirmsAt (envs i) .reboot nofun)
    ((g i).slots_withSlots ⟨(g i).dev.slots.primary, some (images i), true, some .test⟩)
  apply (runWithSession_surely .reboot _).imp
  rintro out ⟨hmembers, herr⟩
  refine ⟨funext fun i => ?_, herr.trans (forall_congr' fun i => (hspec i).2)⟩
  rw [hmembers, Member.conduct_withSlots, (hspec i).1]
  rfl

end UpToReset

/-! ## Confirmation and rollback -/

variable (members) in
/-- Waiting for the members changes none of them. -/
theorem finishReboot_surely (phase : Phase) (hphase : phase ≠ .confirm)
    (hanswers : ∀ i, Answers ((envs i).outcome phase)) :
    Surely (fun sched : Phase → List (Fin (n + 1)) => loopWithSession envs phase
      (fun c _ => finishReboot c) members (sched phase)) fun out => out.1 = members := by
  have hspec := fun i =>
    finishReboot_spec ((members i).conduct_confirmsAt (envs i) phase hphase) (members i).dev
  choose links r hends using fun i => (hspec i).1.mpr (hanswers i)
  apply (runPhase_surely hends phase).imp
  intro out hout
  refine hout.1.trans (funext fun i => ?_)
  rw [(hspec i).2 _ _ (hends i)]

theorem finishReboot_never (phase : Phase) (hphase : phase ≠ .confirm) {i : Fin (n + 1)}
    (hanswers : ¬ Answers ((envs i).outcome phase)) (sched : List (Fin (n + 1))) :
    loopWithSession envs phase (fun c _ => finishReboot c) members sched = none := by
  apply runPhase_never (i := i)
  rw [(finishReboot_spec ((members i).conduct_confirmsAt (envs i) phase hphase) _).1]
  exact hanswers

/-- All members after their reset. -/
def testedMembers (envs : Fin (n + 1) → Surroundings) (g : Fin (n + 1) → Member)
    (images : Fin (n + 1) → Image) : Fin (n + 1) → Member :=
  fun i => (g i).withSlots ((g i).tested (envs i) (images i))

section Confirm

variable {g : Fin (n + 1) → Member} {images : Fin (n + 1) → Image}

theorem confirm_surely (hends : ∀ i, (g i).ConfirmEnds (envs i) (images i)) :
    ∃ (devs : Fin (n + 1) → Device) (r : Fin (n + 1) → Option UpdateError),
      (∀ i, (g i).AfterConfirm (envs i) (images i) (devs i) (r i)) ∧
      Surely (fun sched : Phase → List (Fin (n + 1)) =>
        loopWithSession envs .confirm confirm (testedMembers envs g images) (sched .confirm)) fun out =>
        out.1 = (fun i => { g i with dev := devs i }) ∧
        (out.2 = none ↔ ∀ i, (g i).ConfirmOk (envs i) (images i)) := by
  choose links r hlinks using fun i => Member.confirm_ends_iff.mpr (hends i)
  refine ⟨fun i => (links i).device, r, fun i => Member.afterConfirm (hlinks i), ?_⟩
  apply (runPhase_surely hlinks .confirm).imp
  rintro out ⟨hout, herr⟩
  refine ⟨hout, herr.trans (forall_congr' fun i => ?_)⟩
  exact (Member.afterConfirm (hlinks i)).ok_iff

theorem confirm_never {i : Fin (n + 1)} (hends : ¬ (g i).ConfirmEnds (envs i) (images i))
    (sched : List (Fin (n + 1))) :
    loopWithSession envs .confirm confirm (testedMembers envs g images) sched = none := by
  apply runPhase_never (i := i)
  exact fun h => hends (Member.confirm_ends_iff.mp h)

end Confirm

section Rollback

variable {P Q : Fin (n + 1) → Image} {b : Fin (n + 1) → Bool} {currVersion : Text}

/-- The device of a member that runs `P` with `Q` in the secondary slot, after its rollback. -/
def Member.rolledBack (m : Member) (P Q : Image) (b : Bool) : Device :=
  if m.rollbackHash = P.hash then ⟨P.entry b, ⟨P, some Q, b, none⟩⟩
  else if m.rollbackHash = Q.hash then ⟨P.entry b, ⟨Q, some P, true, none⟩⟩
  else m.dev

/-- The recorded hash is that of one of the two images. -/
def Member.Known (m : Member) (P Q : Image) : Prop :=
  m.rollbackHash = P.hash ∨ m.rollbackHash = Q.hash

variable (hslots : ∀ i, (members i).dev.slots = ⟨P i, some (Q i), b i, none⟩)
  (hne : ∀ i, (P i).hash ≠ (Q i).hash) (hok : ∀ i k, (envs i).outcome .rollback k = .ok)

include hslots hne hok

theorem rollback_surely :
    Surely (fun sched : Phase → List (Fin (n + 1)) =>
      runWithSession envs .rollback (fun _ => rollback) members (sched .rollback)) fun out =>
      out.1 = (fun i => { members i with dev := (members i).rolledBack (P i) (Q i) (b i) }) ∧
      (out.2 = none ↔ ∀ i, (members i).Known (P i) (Q i)) := by
  have hspec := fun i => rollback_spec (m := members i)
    ((members i).conduct_confirmsAt (envs i) .rollback nofun) (hok i) (hslots i) (hne i)
  apply (runWithSession_surely .rollback _).imp
  rintro out ⟨hmembers, herr⟩
  refine ⟨funext fun i => ?_, herr.trans (forall_congr' fun i => ?_)⟩
  · rw [hmembers, hspec]
    unfold Member.rolledBack
    split_ifs
    · rw [hslots]
    · rfl
    · rfl
  · rw [hspec]
    unfold Member.Known
    split_ifs with h1 h2
    · simp [h1]
    · simp [h2]
    · simp [h1, h2]

variable (members) in
theorem rollBack_surely (hanswers : (∀ i, (members i).Known (P i) (Q i)) →
      ∀ i, Answers ((envs i).outcome .finishRollback)) :
    ∃ N, ∀ e, SurelyIn N (rollBack envs e currVersion members) fun out =>
      out.1 ≠ none ∧ out.2 =
        ⟨currVersion, fun i => { members i with dev := (members i).rolledBack (P i) (Q i) (b i) }⟩ := by
  by_cases hknown : ∀ i, (members i).Known (P i) (Q i)
  · rcases passes_of_ok (rollback_surely hslots hne hok) hknown with ⟨N, hroll⟩
    rcases finishReboot_surely
      (fun i => { members i with dev := (members i).rolledBack (P i) (Q i) (b i) })
      .finishRollback nofun (hanswers hknown) with ⟨M, hfinish⟩
    refine ⟨max N M, fun e => (hroll.mono (Nat.le_max_left N M)).bind ?_⟩
    intro out hout
    rw [hout]
    refine (hfinish.mono (Nat.le_max_right N M)).bind ?_
    rintro ⟨finished, err⟩ hfinished
    dsimp only at hfinished
    rw [hfinished]
    exact surelyIn_some ⟨nofun, rfl⟩
  · rcases fails_of_not_ok (rollback_surely hslots hne hok) hknown with ⟨N, hroll⟩
    refine ⟨N, fun e => hroll.bind ?_⟩
    rintro ⟨after, _ | err⟩ ⟨hafter, herr⟩
    · exact absurd rfl herr
    · dsimp only at hafter
      rw [hafter]
      exact surelyIn_some ⟨Option.some_ne_none err, rfl⟩

variable (members) in
theorem rollBack_never (hknown : ∀ i, (members i).Known (P i) (Q i)) {i : Fin (n + 1)}
    (hanswers : ¬ Answers ((envs i).outcome .finishRollback)) (e : UpdateError)
    (sched : Phase → List (Fin (n + 1))) : rollBack envs e currVersion members sched = none := by
  apply (passes_of_ok (rollback_surely hslots hne hok) hknown).bind_never
  dsimp only
  rw [finishReboot_never .finishRollback nofun hanswers]
  rfl

end Rollback

/-! ## After the reset -/

section AfterReset

variable {g : Fin (n + 1) → Member} {images : Fin (n + 1) → Image} {currVersion : Text}

/-- The image a member runs after its reset. -/
def Member.running (m : Member) (env : Surroundings) (new : Image) : Image :=
  if env.accepts then new else m.dev.slots.primary

/-- The image in its secondary slot then. -/
def Member.spare (m : Member) (env : Surroundings) (new : Image) : Image :=
  if env.accepts then m.dev.slots.primary else new

section Boots

variable {m : Member} {env : Surroundings} {new : Image}

theorem Member.running_of_boots (ha : env.accepts = true) : m.running env new = new := if_pos ha

theorem Member.spare_of_boots (ha : env.accepts = true) : m.spare env new = m.dev.slots.primary :=
  if_pos ha

theorem Member.running_of_rejects (ha : env.accepts = false) :
    m.running env new = m.dev.slots.primary := by
  unfold running
  rw [ha]
  rfl

theorem Member.spare_of_rejects (ha : env.accepts = false) : m.spare env new = new := by
  unfold spare
  rw [ha]
  rfl

end Boots

theorem Member.tested_eq (m : Member) (env : Surroundings) (new : Image) (confirmed : Bool) :
    { m.tested env new with confirmed } =
      ⟨m.running env new, some (m.spare env new), confirmed, none⟩ := by
  unfold tested Mcumgr.tested running spare
  cases env.accepts <;> rfl

theorem Member.AfterConfirm.slots_eq {m : Member} {env : Surroundings} {new : Image} {dev : Device}
    {r : Option UpdateError} (h : m.AfterConfirm env new dev r) :
    dev.slots = ⟨m.running env new, some (m.spare env new), dev.slots.confirmed, none⟩ := by
  rcases h.slots with ⟨confirmed, h, -⟩
  rw [h, tested_eq]

theorem Member.running_hash_ne {m : Member} {new : Image} (env : Surroundings)
    (hne : m.dev.slots.primary.hash ≠ new.hash) :
    (m.running env new).hash ≠ (m.spare env new).hash := by
  unfold running spare
  cases env.accepts
  · exact hne
  · exact hne.symm

/-- The members come back, and the confirmation starts. -/
theorem confirmMembers_surely {Q : Option UpdateError × Group n → Prop}
    (hanswers : ∀ i, Answers ((envs i).outcome .finishReboot))
    (h : Surely (fun sched => loopWithSession envs .confirm confirm members (sched .confirm) >>=
      fun out => afterConfirmation envs currVersion out sched) Q) :
    Surely (confirmMembers envs currVersion members) Q := by
  rcases h with ⟨M, h⟩
  refine (finishReboot_surely members .finishReboot nofun hanswers).bind ⟨M, ?_⟩
  rintro ⟨members', err⟩ hmembers
  dsimp only at hmembers
  rw [hmembers]
  exact h

variable (currVersion) in
theorem confirmMembers_ok (hanswers : ∀ i, Answers ((envs i).outcome .finishReboot))
    (hends : ∀ i, (g i).ConfirmEnds (envs i) (images i))
    (hok : ∀ i, (g i).ConfirmOk (envs i) (images i)) :
    ∃ (devs : Fin (n + 1) → Device) (r : Fin (n + 1) → Option UpdateError),
      (∀ i, (g i).AfterConfirm (envs i) (images i) (devs i) (r i)) ∧
      Surely (confirmMembers envs currVersion (testedMembers envs g images)) fun out =>
        out = (none, ⟨(devs 0).primaryImage.version, fun i => { g i with dev := devs i }⟩) := by
  rcases confirm_surely hends with ⟨devs, r, hafter, hconfirm⟩
  refine ⟨devs, r, hafter, confirmMembers_surely hanswers ?_⟩
  exact (passes_of_ok hconfirm hok).bind ⟨0, surelyIn_some rfl⟩

/-- The members after a rollback. -/
def rolledBackMembers (envs : Fin (n + 1) → Surroundings) (g : Fin (n + 1) → Member)
    (images : Fin (n + 1) → Image) (devs : Fin (n + 1) → Device) : Fin (n + 1) → Member :=
  fun i => { g i with
    dev := { g i with dev := devs i }.rolledBack ((g i).running (envs i) (images i))
      ((g i).spare (envs i) (images i)) (devs i).slots.confirmed }

section Failed

variable (hne : ∀ i, (g i).dev.slots.primary.hash ≠ (images i).hash)
  (hends : ∀ i, (g i).ConfirmEnds (envs i) (images i))
  (hfails : ¬ ∀ i, (g i).ConfirmOk (envs i) (images i))
  (hroll : ∀ i k, (envs i).outcome .rollback k = .ok)

include hne hends hfails hroll

variable (currVersion) in
theorem confirmMembers_rollback (hanswers : ∀ i, Answers ((envs i).outcome .finishReboot))
    (hback : (∀ i, (g i).Known ((g i).running (envs i) (images i))
      ((g i).spare (envs i) (images i))) → ∀ i, Answers ((envs i).outcome .finishRollback)) :
    ∃ (devs : Fin (n + 1) → Device) (r : Fin (n + 1) → Option UpdateError),
      (∀ i, (g i).AfterConfirm (envs i) (images i) (devs i) (r i)) ∧
      Surely (confirmMembers envs currVersion (testedMembers envs g images)) fun out =>
        out.1 ≠ none ∧ out.2 = ⟨currVersion, rolledBackMembers envs g images devs⟩ := by
  rcases confirm_surely hends with ⟨devs, r, hafter, hconfirm⟩
  refine ⟨devs, r, hafter, confirmMembers_surely hanswers ?_⟩
  apply (fails_of_not_ok hconfirm hfails).bind
  exact rollBack_surely (fun i => { g i with dev := devs i }) (fun i => (hafter i).slots_eq)
    (fun i => Member.running_hash_ne (envs i) (hne i)) hroll hback

/-- A member that does not come back after the rollback holds everything up. -/
theorem confirmMembers_never_back (hanswers : ∀ i, Answers ((envs i).outcome .finishReboot))
    (hknown : ∀ i, (g i).Known ((g i).running (envs i) (images i))
      ((g i).spare (envs i) (images i))) {i : Fin (n + 1)}
    (hback : ¬ Answers ((envs i).outcome .finishRollback)) (sched : Phase → List (Fin (n + 1))) :
    confirmMembers envs currVersion (testedMembers envs g images) sched = none := by
  rcases confirm_surely hends with ⟨devs, r, hafter, hconfirm⟩
  apply (finishReboot_surely _ .finishReboot nofun hanswers).bind_never
  rintro ⟨members', err⟩ hmembers
  dsimp only at hmembers
  rw [hmembers]
  apply (fails_of_not_ok hconfirm hfails).bind_never
  intro e
  exact rollBack_never (fun i => { g i with dev := devs i }) (fun i => (hafter i).slots_eq)
    (fun i => Member.running_hash_ne (envs i) (hne i)) hroll hknown hback e sched

end Failed

theorem confirmMembers_never_answers {i : Fin (n + 1)}
    (hanswers : ¬ Answers ((envs i).outcome .finishReboot)) (sched : Phase → List (Fin (n + 1))) :
    confirmMembers envs currVersion members sched = none := by
  unfold confirmMembers
  rw [finishReboot_never .finishReboot nofun hanswers]
  rfl

theorem confirmMembers_never_confirms (hanswers : ∀ i, Answers ((envs i).outcome .finishReboot))
    {i : Fin (n + 1)} (hends : ¬ (g i).ConfirmEnds (envs i) (images i))
    (sched : Phase → List (Fin (n + 1))) :
    confirmMembers envs currVersion (testedMembers envs g images) sched = none := by
  apply (finishReboot_surely _ .finishReboot nofun hanswers).bind_never
  rintro ⟨members', err⟩ hmembers
  dsimp only at hmembers
  rw [hmembers]
  dsimp only
  rw [confirm_never hends]
  rfl

end AfterReset

/-! ## From the start -/

section Start

variable {g : Group n} {images : Fin (n + 1) → Image} {Q : Option UpdateError × Group n → Prop}

/-- All members with the image in their secondary slots. -/
def writtenMembers (g : Fin (n + 1) → Member) (images : Fin (n + 1) → Image) :
    Fin (n + 1) → Member :=
  fun i => (g i).withSlots ⟨(g i).dev.slots.primary, some (images i), true, none⟩

/-- The uploads pass. -/
def WritePasses (envs : Fin (n + 1) → Surroundings) (images : Fin (n + 1) → Image) (g : Group n) :
    Prop :=
  Passes (fun sched : Phase → List (Fin (n + 1)) => runWithSession envs .write
    (fun i c _ => writeNewImage c (images i)) g.members (sched .write)) (writtenMembers g.members images)

section Quiet

variable (hquiet : ∀ i, (g.members i).dev.slots.Quiet)

include hquiet

/-- An upload fails: no member has been asked to swap. -/
theorem updateMembers_write_fails
    (hwrite : ¬ ∀ i, (g.members i).WriteOk (envs i) (images i)) :
    ∃ secondary : Fin (n + 1) → Option Image,
      Surely (updateMembers envs images g) fun out =>
        out.1 ≠ none ∧ out.2 = ⟨g.currVersion, fun i => (g.members i).withSlots
          ⟨(g.members i).dev.slots.primary, secondary i, true, none⟩⟩ := by
  rcases write_surely envs images hquiet with ⟨secondary, -, hphase⟩
  refine ⟨secondary, (fails_of_not_ok hphase hwrite).bind ⟨0, fun e => ?_⟩⟩
  exact surelyIn_some ⟨Option.some_ne_none e, rfl⟩

theorem writePasses (hwrite : ∀ i, (g.members i).WriteOk (envs i) (images i)) :
    WritePasses envs images g := by
  rcases write_surely envs images hquiet with ⟨secondary, hnew, hphase⟩
  have hsecondary : secondary = fun i => some (images i) := funext fun i => hnew i (hwrite i)
  rw [hsecondary] at hphase
  exact passes_of_ok hphase hwrite

end Quiet

variable (hwrite : WritePasses envs images g)
  (hne : ∀ i, (g.members i).dev.slots.primary.hash ≠ (images i).hash)

include hwrite hne

/-- A request for the swap fails. -/
theorem updateMembers_pending_fails (hpending : ¬ ∀ i, PendingOk (envs i)) :
    Surely (updateMembers envs images g) fun out =>
      out.1 ≠ none ∧ out.2 = ⟨g.currVersion, fun i => (g.members i).withSlots
        ⟨(g.members i).dev.slots.primary, some (images i), true,
          if Requested ((envs i).outcome .setPending) then some .test else none⟩⟩ := by
  apply hwrite.bind
  apply (fails_of_not_ok (setPending_surely rfl hne) hpending).bind
  exact ⟨0, fun e => surelyIn_some ⟨Option.some_ne_none e, rfl⟩⟩

variable (hpending : ∀ i, PendingOk (envs i))

include hpending

omit hwrite in
/-- All members with the swap requested. -/
theorem setPending_passes : Passes (fun sched : Phase → List (Fin (n + 1)) =>
    runWithSession envs .setPending (fun _ c _ => setPending c) (writtenMembers g.members images)
      (sched .setPending)) fun i => (g.members i).withSlots
        ⟨(g.members i).dev.slots.primary, some (images i), true, some .test⟩ := by
  apply (passes_of_ok (setPending_surely rfl hne) hpending).imp
  intro out hout
  rw [hout]
  refine Prod.ext (funext fun i => ?_) rfl
  have hset : Requested ((envs i).outcome .setPending) := by
    refine ⟨hpending i 0 (by omega), hpending i 1 (by omega), ?_⟩
    rw [hpending i 2 (by omega)]
    exact nofun
  dsimp only
  rw [if_pos hset]

/-- A reset fails. -/
theorem updateMembers_reset_fails (hreset : ¬ ∀ i, ResetOk (envs i)) :
    Surely (updateMembers envs images g) fun out =>
      out.1 ≠ none ∧ out.2 = ⟨g.currVersion, fun i => (g.members i).withSlots
        (if (envs i).outcome .reboot 0 = .ok ∧ (envs i).outcome .reboot 1 ≠ .refused then
          (g.members i).tested (envs i) (images i)
        else ⟨(g.members i).dev.slots.primary, some (images i), true, some .test⟩)⟩ := by
  apply hwrite.bind
  apply (setPending_passes hne hpending).bind
  apply (fails_of_not_ok (reboot_surely rfl) hreset).bind
  exact ⟨0, fun e => surelyIn_some ⟨Option.some_ne_none e, rfl⟩⟩

variable (hreset : ∀ i, ResetOk (envs i))

include hreset

omit hwrite hne hpending in
/-- All members with the image under test. -/
theorem reboot_passes : Passes (fun sched : Phase → List (Fin (n + 1)) =>
    runWithSession envs .reboot (fun _ c _ => reboot c)
      (fun i => (g.members i).withSlots
        ⟨(g.members i).dev.slots.primary, some (images i), true, some .test⟩) (sched .reboot))
    (testedMembers envs g.members images) := by
  apply (passes_of_ok (reboot_surely rfl) hreset).imp
  intro out hout
  rw [hout]
  refine Prod.ext (funext fun i => ?_) rfl
  have hdone : (envs i).outcome .reboot 0 = .ok ∧ (envs i).outcome .reboot 1 ≠ .refused := by
    refine ⟨(hreset i).1, ?_⟩
    rw [(hreset i).2]
    exact nofun
  dsimp only
  rw [if_pos hdone]
  rfl

/-- The update is what happens after the reset. -/
theorem updateMembers_surely
    (h : Surely (confirmMembers envs g.currVersion (testedMembers envs g.members images)) Q) :
    Surely (updateMembers envs images g) Q := by
  apply hwrite.bind
  apply (setPending_passes hne hpending).bind
  apply (reboot_passes hreset).bind
  exact h

theorem updateMembers_never {sched : Phase → List (Fin (n + 1))}
    (h : confirmMembers envs g.currVersion (testedMembers envs g.members images) sched = none) :
    updateMembers envs images g sched = none := by
  apply hwrite.bind_never
  apply (setPending_passes hne hpending).bind_never
  apply (reboot_passes hreset).bind_never
  exact h

end Start

/-! ## The images of an artifact -/

section Artifact

variable {art : GroupArtifact} {g : Group n}

/-- The artifact has an image for every member. -/
def Complete (art : GroupArtifact) (g : Group n) : Prop :=
  ∀ i, art.images (g.members i).target ≠ none

theorem runUpdate_complete (h : Complete art g) :
    runUpdate envs art g = updateMembers envs (fun i => art.image (g.members i).target) g := by
  funext sched
  unfold runUpdate
  have hfind : (List.finRange (n + 1)).find?
      (fun i => (art.images (g.members i).target).isNone) = none := by
    rw [List.find?_eq_none]
    intro i _
    rw [Option.isNone_iff_eq_none]
    exact h i
  rw [hfind]

variable (envs) in
theorem runUpdate_incomplete (h : ¬ Complete art g) (sched : Phase → List (Fin (n + 1))) :
    ∃ e, runUpdate envs art g sched = some (some e, g) := by
  unfold Complete at h
  push Not at h
  rcases h with ⟨i, hi⟩
  unfold runUpdate
  cases hfind : (List.finRange (n + 1)).find? fun i => (art.images (g.members i).target).isNone with
  | some j => exact ⟨_, rfl⟩
  | none =>
    rw [List.find?_eq_none] at hfind
    exact absurd (by rw [hi]; rfl) (hfind i (List.mem_finRange i))

end Artifact

end Rdfm.Mcumgr
