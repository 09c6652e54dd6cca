import Mathlib.Tactic.Common

/-!
# Two image slots

The slots of a boot loader that swaps images: the primary slot runs, the secondary slot holds another
image. A requested swap is carried out at the next reset; an image swapped in for a test is swapped
back at the following reset unless it was confirmed before.
-/

namespace Rdfm.Lib

/-- How an image is to be swapped in: for a test, or for good. -/
inductive Swap where
  | test
  | permanent
deriving DecidableEq, Repr

structure BootSlots (α : Type) where
  primary : α
  secondary : Option α
  /-- Whether the primary image stays at the next reset. -/
  confirmed : Bool
  swap : Option Swap
deriving DecidableEq, Repr

namespace BootSlots

variable {α : Type}

def confirm (s : BootSlots α) : BootSlots α := { s with confirmed := true }

def reset (s : BootSlots α) : BootSlots α :=
  match s.secondary, s.swap with
  | none, _ => { s with swap := none }
  | some image, some kind => ⟨image, some s.primary, kind = .permanent, none⟩
  | some image, none => if s.confirmed then s else ⟨image, some s.primary, true, none⟩

/-- A reset of a device that confirms the image it runs by itself, or does not. -/
def cycle (confirms : Bool) (s : BootSlots α) : BootSlots α :=
  reset (if confirms then s.confirm else s)

/-- Nothing happens at a reset. -/
structure Quiet (s : BootSlots α) : Prop where
  confirmed : s.confirmed = true
  swap : s.swap = none

/-- Every swap carried out: the swap into a test, and the one back. -/
def settled (confirms : Bool) (s : BootSlots α) : BootSlots α := cycle confirms (cycle confirms s)

theorem Quiet.cycle {s : BootSlots α} (h : s.Quiet) (confirms : Bool) : s.cycle confirms = s := by
  rcases s with ⟨primary, secondary, confirmed, swap⟩
  rcases h with ⟨hc, hs⟩
  dsimp only at hc hs
  subst hc hs
  cases confirms <;> cases secondary <;> rfl

theorem Quiet.settled {s : BootSlots α} (h : s.Quiet) (confirms : Bool) :
    s.settled confirms = s := by
  unfold BootSlots.settled
  rw [h.cycle, h.cycle]

/-- A reset leaves no request. -/
theorem reset_swap (s : BootSlots α) : s.reset.swap = none := by
  rcases s with ⟨primary, _ | image, confirmed, _ | kind⟩
  · rfl
  · rfl
  · cases confirmed <;> rfl
  · rfl

/-- A third reset changes nothing: the second has swapped a test back. -/
theorem reset_reset_reset (s : BootSlots α) : s.reset.reset.reset = s.reset.reset := by
  have h := s.reset_swap
  generalize s.reset = r at h
  rcases r with ⟨primary, _ | image, confirmed, swap⟩
  · rfl
  · dsimp only at h
    subst h
    cases confirmed <;> rfl

/-- A confirmed image is there after all resets, unless another is to replace it for good. -/
theorem settled_of_confirmed {s : BootSlots α} (hc : s.confirmed = true)
    (hs : s.swap ≠ some .permanent) :
    (s.settled false).primary = s.primary ∧ (s.settled false).confirmed = true := by
  rcases s with ⟨primary, _ | image, confirmed, _ | ⟨⟨⟩⟩⟩
  all_goals
    dsimp only at hc hs
    subst hc
  · exact ⟨rfl, rfl⟩
  · exact ⟨rfl, rfl⟩
  · exact ⟨rfl, rfl⟩
  · exact ⟨rfl, rfl⟩
  · exact ⟨rfl, rfl⟩
  · exact absurd rfl hs

/-- A device that runs an image under test runs a confirmed one after a reset. -/
theorem reset_confirmed {s : BootSlots α} (hs : s.swap = none) :
    s.reset.confirmed = true ∨ s.reset = s := by
  rcases s with ⟨primary, _ | image, confirmed, swap⟩
  · dsimp only at hs
    subst hs
    exact .inr rfl
  · dsimp only at hs
    subst hs
    cases confirmed
    · exact .inl rfl
    · exact .inl rfl

variable {image old : α} {confirms : Bool}

/-- A swap for a test lasts if the device confirms. -/
theorem settled_test (confirmed : Bool) :
    (settled confirms ⟨old, some image, confirmed, some .test⟩).primary =
      if confirms then image else old := by
  cases confirms <;> rfl

/-- An image under test stays if the device confirms. -/
theorem settled_trial :
    (settled confirms ⟨image, some old, false, none⟩).primary = if confirms then image else old := by
  cases confirms <;> rfl

end BootSlots

end Rdfm.Lib
