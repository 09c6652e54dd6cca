import Rdfm.Mcumgr.Group

/-!
# The phases of a group update, member by member

What each callback does to one member, from the slots that the phases before it leave: which outcomes
of its calls let it pass, and where the slots and the recorded image are then. The two loops end in
their first attempt that comes to an answer.
-/

namespace Rdfm.Mcumgr

open Rdfm.Lib

variable {c : Conduct} {dev : Device} {old new : Image}

/-! ## Sessions -/

theorem exec_sessionJob (hc : c.confirmsAt = none) (cb : ExceptT UpdateError (Routine Link) Unit) :
    (sessionJob c cb).routine.exec ⟨dev, 0⟩ =
      if c.outcome 0 = .ok then cb.run.exec ⟨dev, 1⟩ else (⟨dev, 1⟩, .error .acqSession) :=
  exec_unitCall_bind hc ..

/-- The goroutine of a session ends with what its callback returns. -/
theorem sessionJob_ends (cb : ExceptT UpdateError (Routine Link) Unit) (l : Link) :
    (sessionJob c cb).Ends l ((sessionJob c cb).routine.exec l).1
      (match ((sessionJob c cb).routine.exec l).2 with
        | .ok _ => none
        | .error e => some e) := by
  apply Job.ends_of_exec
  cases ((sessionJob c cb).routine.exec l).2 <;> rfl

theorem lt_three {P : Nat → Prop} : (∀ k < 3, P k) ↔ P 0 ∧ P 1 ∧ P 2 := by
  constructor
  · intro h
    exact ⟨h 0 (by omega), h 1 (by omega), h 2 (by omega)⟩
  · rintro ⟨h0, h1, h2⟩ k hk
    rcases (by omega : k = 0 ∨ k = 1 ∨ k = 2) with rfl | rfl | rfl <;> assumption

/-- The upload reaches the secondary slot, and no further. -/
theorem writeNewImage_spec (hc : c.confirmsAt = none) (hswap : dev.slots.swap = none)
    (image : Image) :
    ∃ secondary,
      ((sessionJob c (writeNewImage c image)).routine.exec ⟨dev, 0⟩).1.device =
        { dev with slots := { dev.slots with secondary } } ∧
      (((sessionJob c (writeNewImage c image)).routine.exec ⟨dev, 0⟩).2 = .ok () →
        secondary = some image) ∧
      (((sessionJob c (writeNewImage c image)).routine.exec ⟨dev, 0⟩).2 = .ok () ↔
        (∀ k < 3, c.outcome k = .ok) ∧ dev.slots.primary.hash ≠ image.hash) := by
  rw [exec_sessionJob hc, lt_three]
  by_cases h0 : c.outcome 0 = .ok
  · rw [if_pos h0]
    unfold writeNewImage writeImage
    rw [exec_unitCall_bind hc]
    by_cases h1 : c.outcome 1 = .ok
    · refine ⟨some image, ?_⟩
      rw [if_pos h1, if_pos rfl, exec_readImages_bind hc rfl]
      by_cases h2 : c.outcome 2 = .ok
      · rw [if_pos h2]
        by_cases hash : dev.slots.primary.hash = image.hash
        · simp [hash, ← hswap]
        · simp [hash, h0, h1, h2, ← hswap]
      · simp [h2, ← hswap]
    · refine ⟨c.leftover, ?_⟩
      simp [h1]
  · rw [if_neg h0]
    refine ⟨dev.slots.secondary, ?_⟩
    simp [h0]

/-- An upload whose calls succeed, whatever is requested of the slots. -/
theorem exec_writeNewImage (dev : Device) (hc : c.confirmsAt = none) (hok : ∀ k, c.outcome k = .ok)
    (image : Image) :
    (sessionJob c (writeNewImage c image)).routine.exec ⟨dev, 0⟩ =
      (⟨{ dev with slots := { dev.slots with secondary := some image, swap := none } }, 3⟩,
        if dev.slots.primary.hash = image.hash then .error .sameImage else .ok ()) := by
  rw [exec_sessionJob hc, if_pos (hok 0)]
  unfold writeNewImage writeImage
  rw [exec_unitCall_bind hc, if_pos (hok 1), if_pos rfl, exec_readImages_bind hc rfl, if_pos (hok 2)]
  by_cases hash : dev.slots.primary.hash = image.hash
  · simp [hash]
  · simp [hash]

/-- A session, a reading, and a write of the image state that takes effect. -/
def Requested (outcome : Nat → Outcome) : Prop :=
  outcome 0 = .ok ∧ outcome 1 = .ok ∧ outcome 2 ≠ .refused

instance (outcome : Nat → Outcome) : Decidable (Requested outcome) :=
  inferInstanceAs (Decidable (_ ∧ _))

theorem setPending_spec (hc : c.confirmsAt = none)
    (hslots : dev.slots = ⟨old, some new, true, none⟩) (hne : old.hash ≠ new.hash) :
    ((sessionJob c (setPending c)).routine.exec ⟨dev, 0⟩).1.device =
      { dev with slots :=
        ⟨old, some new, true, if Requested c.outcome then some .test else none⟩ } ∧
    (((sessionJob c (setPending c)).routine.exec ⟨dev, 0⟩).2 = .ok () ↔
      ∀ k < 3, c.outcome k = .ok) := by
  have hsec : dev.slots.secondary = some new := by rw [hslots]
  have hrequest : requestImage .test new.hash dev.slots =
      some ⟨old, some new, true, some .test⟩ := by
    rw [hslots, requestImage_secondary .test rfl hne]
  rw [exec_sessionJob hc, lt_three]
  by_cases h0 : c.outcome 0 = .ok
  · rw [if_pos h0]
    unfold setPending setPendingImage
    rw [exec_readImages_bind hc hsec]
    by_cases h1 : c.outcome 1 = .ok
    · rw [if_pos h1]
      dsimp only [Image.entry_hash]
      have hset : Requested c.outcome ↔ c.outcome 2 ≠ .refused := by simp [Requested, h0, h1]
      rw [exec_writeImageState hc hrequest]
      simp only [hset]
      cases h2 : c.outcome 2 <;> simp [hslots, h0, h1, Outcome.answer]
    · simp [Requested, h1, ← hslots]
  · simp [Requested, h0, ← hslots]

/-- The slots of a member that is reset with an image to be tested. -/
def tested (accepts : Bool) (old new : Image) : BootSlots Image :=
  if accepts then ⟨new, some old, false, none⟩ else ⟨old, some new, true, none⟩

theorem boot_test (accepts : Bool) :
    boot accepts ⟨old, some new, true, some .test⟩ = tested accepts old new := by
  cases accepts <;> rfl

theorem reboot_spec (hc : c.confirmsAt = none)
    (hslots : dev.slots = ⟨old, some new, true, some .test⟩) :
    ((sessionJob c (reboot c)).routine.exec ⟨dev, 0⟩).1.device =
      { dev with slots := if c.outcome 0 = .ok ∧ c.outcome 1 ≠ .refused then tested c.accepts old new
        else dev.slots } ∧
    (((sessionJob c (reboot c)).routine.exec ⟨dev, 0⟩).2 = .ok () ↔
      c.outcome 0 = .ok ∧ c.outcome 1 = .ok) := by
  rw [exec_sessionJob hc]
  by_cases h0 : c.outcome 0 = .ok
  · rw [if_pos h0, reboot, exec_resetDevice hc, hslots, boot_test]
    cases h1 : c.outcome 1 <;> simp [h0, Outcome.answer]
  · simp [h0]

/-! ## Loops -/

theorem exec_loopJob (cb : Routine Link LoopResult) (l : Link) :
    (loopJob c cb).routine.exec l =
      if c.outcome l.calls = .ok then cb.exec (l.called (l.slots c))
      else (l.called (l.slots c), (true, some .acqSession)) := by
  unfold loopJob acqSession
  dsimp only
  rw [Routine.exec_bind, exec_sessionCall]
  by_cases ho : c.outcome l.calls = .ok
  · simp only [ho, Outcome.answer, if_true]
  · simp only [ho, Outcome.answer, if_false]
    rfl

/-- The device answers, or cannot be reached at all. -/
def Answers (outcome : Nat → Outcome) : Prop :=
  ∃ k, outcome (2 * k) ≠ .ok ∨ outcome (2 * k + 1) = .ok

theorem exec_finishReboot (hc : c.confirmsAt = none) (k : Nat) :
    (loopJob c (finishReboot c)).routine.exec ⟨dev, k⟩ =
      if c.outcome k = .ok then (⟨dev, k + 2⟩, (decide (c.outcome (k + 1) = .ok), none))
      else (⟨dev, k + 1⟩, (true, some .acqSession)) := by
  rw [exec_loopJob, Link.slots_none hc]
  unfold finishReboot ping
  rw [Routine.exec_bind, exec_sessionCall, Link.slots_none hc]
  have hcalled : Link.called ⟨dev, k⟩ dev.slots = ⟨dev, k + 1⟩ := rfl
  dsimp only
  rw [hcalled]
  by_cases ho : c.outcome (k + 1) = .ok
  · simp only [ho, Outcome.answer, if_true, decide_true]
    rfl
  · simp only [ho, Outcome.answer, if_false, decide_false]
    rfl

/-- Waiting for a device changes nothing, and ends if the device answers. -/
theorem finishReboot_spec (hc : c.confirmsAt = none) (dev : Device) :
    ((∃ l r, (loopJob c (finishReboot c)).Ends ⟨dev, 0⟩ l r) ↔ Answers c.outcome) ∧
    ∀ l r, (loopJob c (finishReboot c)).Ends ⟨dev, 0⟩ l r → l.device = dev := by
  have hstop : ∀ k, (loopJob c (finishReboot c)).ends
      ((loopJob c (finishReboot c)).routine.exec ⟨dev, 2 * k⟩).2 = none ↔
      c.outcome (2 * k) = .ok ∧ c.outcome (2 * k + 1) ≠ .ok := by
    intro k
    rw [exec_finishReboot hc]
    unfold loopJob
    by_cases h0 : c.outcome (2 * k) = .ok <;> by_cases h1 : c.outcome (2 * k + 1) = .ok <;>
      simp [h0, h1]
  have hS : ∀ k, (loopJob c (finishReboot c)).ends
      ((loopJob c (finishReboot c)).routine.exec ⟨dev, 2 * k⟩).2 = none →
      ((loopJob c (finishReboot c)).routine.exec ⟨dev, 2 * k⟩).1 = ⟨dev, 2 * (k + 1)⟩ := by
    intro k hk
    rw [exec_finishReboot hc, if_pos ((hstop k).mp hk).1]
    rfl
  constructor
  · apply (Job.exists_ends_along_iff (fun k => (⟨dev, 2 * k⟩ : Link)) hS).trans
    apply exists_congr
    intro k
    rw [ne_eq, hstop, not_and_or, not_not]
  · intro l r h
    rcases (Job.ends_along_iff (fun k => (⟨dev, 2 * k⟩ : Link)) hS).mp h with ⟨k, -, -, rfl⟩
    rw [exec_finishReboot hc]
    split <;> rfl

/-! ## Confirmation -/

/-- The slots once `k` calls have been made. -/
def Conduct.progress (c : Conduct) (s : BootSlots Image) (k : Nat) : BootSlots Image :=
  match c.confirmsAt with
  | none => s
  | some t => if t < k then s.confirm else s

@[simp] theorem Conduct.progress_zero (s : BootSlots Image) : c.progress s 0 = s := by
  unfold progress
  cases c.confirmsAt <;> rfl

theorem Conduct.progress_eq (s : BootSlots Image) (k : Nat) :
    c.progress s k = s ∨ c.progress s k = s.confirm := by
  unfold progress
  cases c.confirmsAt with
  | none => exact .inl rfl
  | some t =>
    dsimp only
    split
    · exact .inr rfl
    · exact .inl rfl

@[simp] theorem Conduct.progress_primary (s : BootSlots Image) (k : Nat) :
    (c.progress s k).primary = s.primary := by
  rcases c.progress_eq s k with h | h
  · rw [h]
  · rw [h]
    rfl

@[simp] theorem Conduct.progress_secondary (s : BootSlots Image) (k : Nat) :
    (c.progress s k).secondary = s.secondary := by
  rcases c.progress_eq s k with h | h
  · rw [h]
  · rw [h]
    rfl

theorem Link.slots_progress (k : Nat) (s : BootSlots Image) :
    Link.slots c ⟨{ dev with slots := c.progress s k }, k⟩ = c.progress s (k + 1) := by
  unfold Link.slots Conduct.progress
  cases c.confirmsAt with
  | none => rfl
  | some t =>
    dsimp only
    by_cases hlt : t < k
    · rw [if_pos (by omega : t ≤ k), if_pos hlt, if_pos (by omega : t < k + 1)]
      rfl
    · rw [if_neg hlt]
      by_cases hle : t ≤ k
      · rw [if_pos hle, if_pos (by omega : t < k + 1)]
      · rw [if_neg hle, if_neg (by omega : ¬ t < k + 1)]

/-- One attempt of a self-confirming member. -/
theorem exec_deviceConfirm {image : Image} (hsec : dev.slots.secondary = some image) (k : Nat) :
    (loopJob c (deviceConfirm c)).routine.exec ⟨{ dev with slots := c.progress dev.slots k }, k⟩ =
      if c.outcome k ≠ .ok then
        (⟨{ dev with slots := c.progress dev.slots (k + 1) }, k + 1⟩, (true, some .acqSession))
      else if c.outcome (k + 1) ≠ .ok ∨ (c.progress dev.slots (k + 2)).confirmed = false then
        (⟨{ dev with slots := c.progress dev.slots (k + 2) }, k + 2⟩, (false, none))
      else if dev.slots.primary.hash = dev.primaryImage.hash then
        (⟨{ dev with slots := c.progress dev.slots (k + 2) }, k + 2⟩, (true, some .rejected))
      else
        (⟨⟨dev.slots.primary.entry true, c.progress dev.slots (k + 2)⟩, k + 2⟩, (true, none)) := by
  have hcalled : ∀ k, Link.called ⟨{ dev with slots := c.progress dev.slots k }, k⟩
      (c.progress dev.slots (k + 1)) =
        ⟨{ dev with slots := c.progress dev.slots (k + 1) }, k + 1⟩ := fun k => rfl
  rw [exec_loopJob, Link.slots_progress, hcalled]
  by_cases h0 : c.outcome k = .ok
  · rw [if_pos h0, if_neg (not_not.mpr h0)]
    unfold deviceConfirm
    rw [Routine.exec_bind, exec_readImages (by rw [Link.slots_progress, c.progress_secondary, hsec]),
      Link.slots_progress, hcalled]
    by_cases h1 : c.outcome (k + 1) = .ok
    · simp only [h1, if_true, Image.entry_confirmed, ne_eq, not_true_eq_false, false_or]
      cases hconf : (c.progress dev.slots (k + 1 + 1)).confirmed with
      | false => simp
      | true =>
        simp only [Bool.true_eq_false, if_false, Routine.exec_bind, exec_getDevice, Image.entry_hash,
          c.progress_primary]
        by_cases hash : dev.slots.primary.hash = dev.primaryImage.hash
        · simp [hash]
        · simp [hash]
    · simp [h1]
  · rw [if_neg h0, if_pos h0]

/-- Before any session fails, a reading succeeds once the image is confirmed. -/
def DeviceConfirms (c : Conduct) (s : BootSlots Image) : Prop :=
  ∃ k, (∀ i ≤ k, c.outcome (2 * i) = .ok) ∧ c.outcome (2 * k + 1) = .ok ∧
    (c.progress s (2 * k + 2)).confirmed = true

/-- A session fails, or a reading succeeds once the image is confirmed. -/
def DeviceConfirmEnds (c : Conduct) (s : BootSlots Image) : Prop :=
  ∃ k, c.outcome (2 * k) ≠ .ok ∨ (c.outcome (2 * k + 1) = .ok ∧
    (c.progress s (2 * k + 2)).confirmed = true)

/-- What a confirmation leaves of a device. -/
structure ConfirmResult (dev dev' : Device) (r : Option UpdateError) : Prop where
  primaryImage : ∃ confirmed, dev'.primaryImage =
    if r = none then dev.slots.primary.entry confirmed else dev.primaryImage
  rejected : r = some .rejected → dev.slots.primary.hash = dev.primaryImage.hash

section DeviceConfirm

variable {image : Image} (hsec : dev.slots.secondary = some image)

include hsec

theorem deviceConfirm_stops (k : Nat) :
    (loopJob c (deviceConfirm c)).ends ((loopJob c (deviceConfirm c)).routine.exec
      ⟨{ dev with slots := c.progress dev.slots k }, k⟩).2 = none ↔
      c.outcome k = .ok ∧ ¬ (c.outcome (k + 1) = .ok ∧
        (c.progress dev.slots (k + 2)).confirmed = true) := by
  rw [exec_deviceConfirm hsec]
  unfold loopJob
  by_cases h0 : c.outcome k = .ok
  · by_cases h1 : c.outcome (k + 1) = .ok
    · cases hconf : (c.progress dev.slots (k + 2)).confirmed with
      | false => simp [h0, h1]
      | true =>
        by_cases hash : dev.slots.primary.hash = dev.primaryImage.hash <;> simp [h0, h1, hash]
    · simp [h0, h1]
  · simp [h0]

theorem deviceConfirm_continues (k : Nat)
    (h : (loopJob c (deviceConfirm c)).ends ((loopJob c (deviceConfirm c)).routine.exec
      ⟨{ dev with slots := c.progress dev.slots (2 * k) }, 2 * k⟩).2 = none) :
    ((loopJob c (deviceConfirm c)).routine.exec
      ⟨{ dev with slots := c.progress dev.slots (2 * k) }, 2 * k⟩).1 =
      ⟨{ dev with slots := c.progress dev.slots (2 * (k + 1)) }, 2 * (k + 1)⟩ := by
  rcases (deviceConfirm_stops hsec (2 * k)).mp h with ⟨h0, h1⟩
  rw [exec_deviceConfirm hsec, if_neg (not_not.mpr h0), if_pos]
  · rfl
  · rw [not_and_or, Bool.not_eq_true] at h1
    exact h1

theorem deviceConfirm_ends_iff :
    (∃ l r, (loopJob c (deviceConfirm c)).Ends ⟨dev, 0⟩ l r) ↔ DeviceConfirmEnds c dev.slots := by
  have hstart : (⟨dev, 0⟩ : Link) = ⟨{ dev with slots := c.progress dev.slots (2 * 0) }, 2 * 0⟩ := by
    simp
  rw [hstart]
  apply (Job.exists_ends_along_iff
    (fun k => (⟨{ dev with slots := c.progress dev.slots (2 * k) }, 2 * k⟩ : Link))
    (deviceConfirm_continues hsec)).trans
  apply exists_congr
  intro k
  rw [ne_eq, deviceConfirm_stops hsec, not_and_or, not_not]

theorem deviceConfirm_spec {l : Link} {r : Option UpdateError}
    (h : (loopJob c (deviceConfirm c)).Ends ⟨dev, 0⟩ l r) :
    (∃ k, l.device.slots = c.progress dev.slots k) ∧
    (r = none ↔ DeviceConfirms c dev.slots ∧ dev.slots.primary.hash ≠ dev.primaryImage.hash) ∧
    ConfirmResult dev l.device r := by
  have hstart : (⟨dev, 0⟩ : Link) = ⟨{ dev with slots := c.progress dev.slots (2 * 0) }, 2 * 0⟩ := by
    simp
  rw [hstart] at h
  rcases (Job.ends_along_iff
    (fun k => (⟨{ dev with slots := c.progress dev.slots (2 * k) }, 2 * k⟩ : Link))
    (deviceConfirm_continues hsec)).mp h with ⟨k, hbefore, hstop, rfl⟩
  have hok : ∀ i < k, c.outcome (2 * i) = .ok := fun i hi =>
    ((deviceConfirm_stops hsec (2 * i)).mp (hbefore i hi)).1
  rw [exec_deviceConfirm hsec] at hstop ⊢
  -- the three ways in which the `k`-th attempt stops
  by_cases h0 : c.outcome (2 * k) = .ok
  · rw [if_neg (not_not.mpr h0)] at hstop ⊢
    by_cases h1 : c.outcome (2 * k + 1) ≠ .ok ∨ (c.progress dev.slots (2 * k + 2)).confirmed = false
    · rw [if_pos h1] at hstop
      cases hstop
    · have hconfirms : DeviceConfirms c dev.slots := by
        rw [not_or, not_not, Bool.not_eq_false] at h1
        refine ⟨k, ?_, h1⟩
        intro i hi
        rcases Nat.lt_or_eq_of_le hi with hlt | rfl
        · exact hok i hlt
        · exact h0
      rw [if_neg h1] at hstop ⊢
      by_cases hash : dev.slots.primary.hash = dev.primaryImage.hash
      · rw [if_pos hash] at hstop ⊢
        cases hstop
        exact ⟨⟨_, rfl⟩, by simp [hash], ⟨true, rfl⟩, fun _ => hash⟩
      · rw [if_neg hash] at hstop ⊢
        cases hstop
        exact ⟨⟨_, rfl⟩, by simp [hash, hconfirms], ⟨true, rfl⟩, nofun⟩
  · rw [if_pos h0] at hstop ⊢
    cases hstop
    refine ⟨⟨_, rfl⟩, iff_of_false nofun ?_, ⟨true, rfl⟩, nofun⟩
    rintro ⟨⟨n, hall, hread, hconf⟩, -⟩
    -- the reading at `n` would have stopped the loop before the session at `k` failed
    by_cases hnk : n < k
    · exact ((deviceConfirm_stops hsec (2 * n)).mp (hbefore n hnk)).2 ⟨hread, hconf⟩
    · exact h0 (hall k (by omega))

end DeviceConfirm

/-- The one attempt of a manually confirmed member. -/
theorem exec_manualConfirm (hc : c.confirmsAt = none) {image : Image}
    (hsec : dev.slots.secondary = some image) :
    (loopJob c (manualConfirm c)).routine.exec ⟨dev, 0⟩ =
      if c.outcome 0 ≠ .ok then (⟨dev, 1⟩, (true, some .acqSession))
      else if c.outcome 1 ≠ .ok then (⟨dev, 2⟩, (true, some .readImages))
      else if dev.slots.primary.hash = dev.primaryImage.hash then
        (⟨dev, 2⟩, (true, some .rejected))
      else if c.outcome 2 ≠ .ok then
        (⟨{ dev with slots := if c.outcome 2 = .refused then dev.slots else dev.slots.confirm }, 3⟩,
          (true, some .notConfirmed))
      else
        (⟨⟨dev.slots.primary.entry dev.slots.confirmed, dev.slots.confirm⟩, 3⟩, (true, none)) := by
  have hcalled : ∀ k, Link.called ⟨dev, k⟩ (Link.slots c ⟨dev, k⟩) = ⟨dev, k + 1⟩ := by
    intro k
    rw [Link.slots_none hc]
    rfl
  have hsec' : (Link.slots c ⟨dev, 1⟩).secondary = some image := by
    rw [Link.slots_none hc]
    exact hsec
  rw [exec_loopJob, hcalled]
  by_cases h0 : c.outcome 0 = .ok
  · rw [if_pos h0, if_neg (not_not.mpr h0)]
    unfold manualConfirm
    rw [Routine.exec_bind, exec_readImages hsec', hcalled, Link.slots_none hc]
    by_cases h1 : c.outcome 1 = .ok
    · simp only [h1, if_true, Routine.exec_bind, exec_getDevice, Image.entry_hash, ne_eq,
        not_true_eq_false, if_false]
      by_cases hash : dev.slots.primary.hash = dev.primaryImage.hash
      · simp [hash]
      · simp only [hash, if_false, Routine.exec_bind, confirmImage]
        rw [exec_writeImageState hc (requestImage_primary dev.slots)]
        cases h2 : c.outcome 2 <;> simp [Outcome.answer]
    · simp [h1]
  · rw [if_neg h0, if_pos h0]

theorem manualConfirm_spec (hc : c.confirmsAt = none) {image : Image}
    (hsec : dev.slots.secondary = some image) :
    ∃ l r, (loopJob c (manualConfirm c)).Ends ⟨dev, 0⟩ l r ∧
      l.device.slots = (if dev.slots.primary.hash ≠ dev.primaryImage.hash ∧ Requested c.outcome then
        dev.slots.confirm else dev.slots) ∧
      (r = none ↔ (∀ k < 3, c.outcome k = .ok) ∧
        dev.slots.primary.hash ≠ dev.primaryImage.hash) ∧
      ConfirmResult dev l.device r := by
  have hends : (loopJob c (manualConfirm c)).ends
      ((loopJob c (manualConfirm c)).routine.exec ⟨dev, 0⟩).2 =
        some ((loopJob c (manualConfirm c)).routine.exec ⟨dev, 0⟩).2.2 := by
    apply if_pos
    rw [exec_manualConfirm hc hsec]
    split_ifs <;> rfl
  refine ⟨_, _, Job.ends_of_exec hends, ?_⟩
  rw [exec_manualConfirm hc hsec, lt_three]
  by_cases h0 : c.outcome 0 = .ok
  · rw [if_neg (not_not.mpr h0)]
    by_cases h1 : c.outcome 1 = .ok
    · rw [if_neg (not_not.mpr h1)]
      by_cases hash : dev.slots.primary.hash = dev.primaryImage.hash
      · rw [if_pos hash]
        exact ⟨(if_neg fun h => h.1 hash).symm, by simp [hash], ⟨true, rfl⟩, fun _ => hash⟩
      · rw [if_neg hash]
        by_cases h2 : c.outcome 2 = .ok
        · have hreq : Requested c.outcome := ⟨h0, h1, by rw [h2]; exact nofun⟩
          rw [if_neg (not_not.mpr h2), if_pos ⟨hash, hreq⟩]
          exact ⟨rfl, by simp [h0, h1, h2, hash], ⟨_, rfl⟩, nofun⟩
        · rw [if_pos h2]
          refine ⟨?_, by simp [h2], ⟨true, rfl⟩, nofun⟩
          have hreq : Requested c.outcome ↔ c.outcome 2 ≠ .refused :=
            ⟨fun h => h.2.2, fun h => ⟨h0, h1, h⟩⟩
          by_cases hrefused : c.outcome 2 = .refused
          · simp [hreq, hrefused]
          · simp [hreq, hrefused, hash]
    · rw [if_pos h1, if_neg fun h => h1 h.2.2.1]
      exact ⟨rfl, by simp [h1], ⟨true, rfl⟩, nofun⟩
  · rw [if_pos h0, if_neg fun h => h0 h.2.1]
    exact ⟨rfl, by simp [h0], ⟨true, rfl⟩, nofun⟩

/-! ## Rollback -/

/-- A rollback whose calls succeed, from any two images. -/
theorem rollback_spec (hc : c.confirmsAt = none) (hok : ∀ k, c.outcome k = .ok) {m : Member}
    {confirmed : Bool} (hslots : dev.slots = ⟨old, some new, confirmed, none⟩)
    (hne : old.hash ≠ new.hash) :
    (sessionJob c (rollback c m)).routine.exec ⟨dev, 0⟩ =
      if m.rollbackHash = old.hash then (⟨⟨old.entry confirmed, dev.slots⟩, 2⟩, .ok ())
      else if m.rollbackHash = new.hash then
        (⟨⟨old.entry confirmed, ⟨new, some old, true, none⟩⟩, 4⟩, .ok ())
      else (⟨dev, 2⟩, .error .unknownSecondary) := by
  have hsec : dev.slots.secondary = some new := by rw [hslots]
  have hrequest : requestImage .permanent new.hash dev.slots =
      some ⟨old, some new, confirmed, some .permanent⟩ := by
    rw [hslots, requestImage_secondary .permanent rfl hne]
  have hboot : boot c.accepts ⟨old, some new, confirmed, some .permanent⟩ =
      ⟨new, some old, true, none⟩ := by
    cases c.accepts <;> rfl
  rw [exec_sessionJob hc, if_pos (hok 0)]
  unfold rollback
  rw [exec_readImages_bind hc hsec, if_pos (hok 1)]
  simp only [hslots, Image.entry_hash]
  by_cases h1 : m.rollbackHash = old.hash
  · simp only [h1, if_true, Routine.exec_run_lift, exec_setPrimaryImage, hslots]
  · by_cases h2 : m.rollbackHash = new.hash
    · simp only [h2, hne, if_false, ne_eq, not_true_eq_false, if_true, Ne.symm hne, confirmImage]
      rw [exec_writeImageState_bind hc hrequest, if_pos (hok 2), Routine.exec_run_bind,
        Routine.exec_run_lift]
      dsimp only [exec_setPrimaryImage]
      rw [exec_resetDevice hc, hboot, hok]
      rfl
    · simp only [h1, h2, Ne.symm h1, Ne.symm h2, if_false, ne_eq, not_false_eq_true, if_true]
      rfl

/-! ## One member through the confirmation -/

def Member.withSlots (m : Member) (s : BootSlots Image) : Member :=
  { m with dev := { m.dev with slots := s } }

section Member

variable (m : Member) (env : Surroundings) (new : Image)

@[simp] theorem Member.slots_withSlots (s : BootSlots Image) : (m.withSlots s).dev.slots = s := rfl

@[simp] theorem Member.conduct_withSlots (s : BootSlots Image) (phase : Phase) :
    (m.withSlots s).conduct env phase = m.conduct env phase := rfl

/-- Outside the confirm phase a device does nothing of its own. -/
theorem Member.conduct_confirmsAt (phase : Phase) (h : phase ≠ .confirm) :
    (m.conduct env phase).confirmsAt = none := if_neg fun hp => h hp.1

/-- The slots of a member that was reset with the new image to be tested. -/
def Member.tested : BootSlots Image := Mcumgr.tested env.accepts m.dev.slots.primary new

/-- Whether the confirmation of the member ends. -/
def Member.ConfirmEnds : Prop :=
  m.selfConfirm = true → DeviceConfirmEnds (m.conduct env .confirm) (m.tested env new)

/-- Whether it ends without an error. -/
def Member.ConfirmOk : Prop :=
  (if m.selfConfirm then DeviceConfirms (m.conduct env .confirm) (m.tested env new)
    else ∀ k < 3, env.outcome .confirm k = .ok) ∧
  (m.tested env new).primary.hash ≠ m.dev.primaryImage.hash

/-- Whether the member stays with the new image if nothing else is done: it runs it, and confirms it
by itself or has got a confirmation. -/
def Member.StaysNew : Prop :=
  env.accepts = true ∧ (m.selfConfirm = true ∨
    new.hash ≠ m.dev.primaryImage.hash ∧ Requested (env.outcome .confirm))

/-- A member after its confirmation. -/
structure Member.AfterConfirm (dev : Device) (r : Option UpdateError) : Prop where
  slots : ∃ confirmed, dev.slots = { m.tested env new with confirmed } ∧
    (env.accepts = false → confirmed = true)
  stays : m.StaysNew env new → (dev.slots.settled (m.keeps env)).primary = new
  reverts : ¬ m.StaysNew env new → (dev.slots.settled (m.keeps env)).primary = m.dev.slots.primary
  ok_iff : r = none ↔ m.ConfirmOk env new
  result : ConfirmResult (m.withSlots (m.tested env new)).dev dev r

variable {m env new}

theorem Member.tested_secondary : (m.withSlots (m.tested env new)).dev.slots.secondary =
    some (if env.accepts then m.dev.slots.primary else new) := by
  change (m.tested env new).secondary = _
  unfold tested Mcumgr.tested
  cases env.accepts <;> rfl

theorem settled_confirmed {keeps confirmed : Bool} {a b : Image}
    (h : keeps = true ∨ confirmed = true) :
    (BootSlots.settled keeps ⟨a, some b, confirmed, none⟩).primary = a := by
  cases keeps <;> cases confirmed <;> first | rfl | simp at h

theorem Member.deviceConfirm_slots (hself : m.selfConfirm = true) (dev : Device) (k : Nat)
    (hslots : dev.slots = (m.conduct env .confirm).progress (m.tested env new) k) :
    (∃ confirmed, dev.slots = { m.tested env new with confirmed } ∧
      (env.accepts = false → confirmed = true)) ∧
    (m.StaysNew env new → (dev.slots.settled (m.keeps env)).primary = new) ∧
    (¬ m.StaysNew env new →
      (dev.slots.settled (m.keeps env)).primary = m.dev.slots.primary) := by
  have hconfirmed : ∃ confirmed, dev.slots = { m.tested env new with confirmed } ∧
      (env.accepts = false → confirmed = true) := by
    rcases (m.conduct env .confirm).progress_eq (m.tested env new) k with h | h
    · refine ⟨(m.tested env new).confirmed, hslots.trans h, ?_⟩
      intro ha
      unfold tested Mcumgr.tested
      rw [ha]
      rfl
    · exact ⟨true, hslots.trans h, fun _ => rfl⟩
  rcases hconfirmed with ⟨confirmed, heq, htrue⟩
  refine ⟨⟨confirmed, heq, htrue⟩, ?_, ?_⟩
  · rintro ⟨ha, -⟩
    rw [heq]
    unfold tested Mcumgr.tested keeps
    rw [ha, hself]
    exact settled_confirmed (.inl rfl)
  · intro hstays
    have ha : env.accepts = false := by
      rw [← Bool.not_eq_true]
      exact fun ha => hstays ⟨ha, .inl hself⟩
    rw [heq, htrue ha]
    unfold tested Mcumgr.tested
    rw [ha]
    exact settled_confirmed (.inr rfl)

theorem Member.manualConfirm_slots (hself : m.selfConfirm = false) (dev : Device)
    (hslots : dev.slots = if (m.tested env new).primary.hash ≠ m.dev.primaryImage.hash ∧
      Requested (env.outcome .confirm) then (m.tested env new).confirm else m.tested env new) :
    (∃ confirmed, dev.slots = { m.tested env new with confirmed } ∧
      (env.accepts = false → confirmed = true)) ∧
    (m.StaysNew env new → (dev.slots.settled (m.keeps env)).primary = new) ∧
    (¬ m.StaysNew env new →
      (dev.slots.settled (m.keeps env)).primary = m.dev.slots.primary) := by
  have hkeeps : m.keeps env = false := by
    unfold keeps
    rw [hself]
    rfl
  have hstays : m.StaysNew env new ↔ env.accepts = true ∧
      new.hash ≠ m.dev.primaryImage.hash ∧ Requested (env.outcome .confirm) := by
    unfold StaysNew
    rw [hself]
    simp
  rw [hstays, hkeeps]
  unfold tested Mcumgr.tested at hslots ⊢
  cases ha : env.accepts with
  | true =>
    rw [ha, if_pos rfl] at hslots
    by_cases hreq : new.hash ≠ m.dev.primaryImage.hash ∧ Requested (env.outcome .confirm)
    · rw [if_pos hreq] at hslots
      rw [hslots]
      exact ⟨⟨true, rfl, fun _ => rfl⟩, fun _ => rfl, fun h => absurd ⟨rfl, hreq⟩ h⟩
    · rw [if_neg hreq] at hslots
      rw [hslots]
      exact ⟨⟨false, rfl, nofun⟩, fun h => absurd h.2 hreq, fun _ => rfl⟩
  | false =>
    rw [ha, if_neg Bool.false_ne_true] at hslots
    have hsame : dev.slots = ⟨m.dev.slots.primary, some new, true, none⟩ := by
      rw [hslots]
      split <;> rfl
    rw [hsame]
    exact ⟨⟨true, rfl, fun _ => rfl⟩, fun h => absurd h.1 Bool.false_ne_true, fun _ => rfl⟩

theorem Member.confirm_self (hself : m.selfConfirm = true) (c : Conduct) (s : BootSlots Image) :
    confirm c (m.withSlots s) = deviceConfirm c := if_pos hself

theorem Member.confirm_manual (hself : m.selfConfirm = false) (c : Conduct) (s : BootSlots Image) :
    confirm c (m.withSlots s) = manualConfirm c := if_neg (by rw [Bool.not_eq_true]; exact hself)

theorem Member.manual_confirmsAt (hself : m.selfConfirm = false) :
    (m.conduct env .confirm).confirmsAt = none := by
  apply if_neg
  rintro ⟨-, hkeeps⟩
  unfold keeps at hkeeps
  rw [hself] at hkeeps
  cases hkeeps

theorem Member.confirm_ends_iff :
    (∃ l r, (loopJob (m.conduct env .confirm) (confirm (m.conduct env .confirm)
      (m.withSlots (m.tested env new)))).Ends ⟨(m.withSlots (m.tested env new)).dev, 0⟩ l r) ↔
      m.ConfirmEnds env new := by
  unfold ConfirmEnds
  cases hself : m.selfConfirm with
  | true =>
    rw [confirm_self hself]
    apply (deviceConfirm_ends_iff tested_secondary).trans
    exact ⟨fun h _ => h, fun h => h rfl⟩
  | false =>
    rw [confirm_manual hself]
    refine iff_of_true ?_ nofun
    rcases manualConfirm_spec (manual_confirmsAt hself) tested_secondary with ⟨l, r, hends, -⟩
    exact ⟨l, r, hends⟩

theorem Member.afterConfirm {l : Link} {r : Option UpdateError}
    (h : (loopJob (m.conduct env .confirm) (confirm (m.conduct env .confirm)
      (m.withSlots (m.tested env new)))).Ends ⟨(m.withSlots (m.tested env new)).dev, 0⟩ l r) :
    m.AfterConfirm env new l.device r := by
  cases hself : m.selfConfirm with
  | true =>
    rw [confirm_self hself] at h
    rcases deviceConfirm_spec tested_secondary h with ⟨⟨k, hslots⟩, hok, hresult⟩
    rcases deviceConfirm_slots hself l.device k hslots with ⟨hconfirmed, hstays, hreverts⟩
    refine ⟨hconfirmed, hstays, hreverts, hok.trans ?_, hresult⟩
    unfold ConfirmOk
    rw [if_pos hself]
    rfl
  | false =>
    rw [confirm_manual hself] at h
    rcases manualConfirm_spec (manual_confirmsAt hself) tested_secondary with
      ⟨l', r', hends, hslots, hok, hresult⟩
    rcases h.unique hends with ⟨rfl, rfl⟩
    rcases manualConfirm_slots hself l.device hslots with ⟨hconfirmed, hstays, hreverts⟩
    refine ⟨hconfirmed, hstays, hreverts, hok.trans ?_, hresult⟩
    unfold ConfirmOk
    rw [if_neg (by rw [hself]; exact Bool.false_ne_true)]
    rfl

end Member

end Rdfm.Mcumgr
