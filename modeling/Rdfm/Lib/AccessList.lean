import Mathlib.Data.Set.Basic
import Mathlib.Tactic.Tauto

/-!
# Access lists

An access list allows or denies keys, and a denial shadows a permission. A list is changed in two
ways: a set of keys is granted, which also lifts its denials, or it is revoked by denials alone.
This module has the entries after either, what is permitted then, and which changes are enough for
it.
-/

namespace Rdfm.Lib

inductive Rule where
  | allow
  | deny
deriving DecidableEq, Repr

variable {κ : Type*}

/-- A key is permitted if it is allowed and not denied. -/
def Permits (entries : Set (Rule × κ)) (k : κ) : Prop :=
  (.allow, k) ∈ entries ∧ (.deny, k) ∉ entries

/-- The keys are allowed, and not denied any more. -/
def grant (keys : Set κ) (entries : Set (Rule × κ)) : Set (Rule × κ) :=
  {e | (e ∈ entries ∨ e.1 = .allow ∧ e.2 ∈ keys) ∧ ¬ (e.1 = .deny ∧ e.2 ∈ keys)}

/-- The keys are denied. -/
def revoke (keys : Set κ) (entries : Set (Rule × κ)) : Set (Rule × κ) :=
  {e | e ∈ entries ∨ e.1 = .deny ∧ e.2 ∈ keys}

section

variable {keys : Set κ} {entries : Set (Rule × κ)} {k : κ} {rule : Rule}

theorem mem_grant : (rule, k) ∈ grant keys entries ↔
    ((rule, k) ∈ entries ∨ rule = .allow ∧ k ∈ keys) ∧ ¬ (rule = .deny ∧ k ∈ keys) := Iff.rfl

theorem mem_revoke : (rule, k) ∈ revoke keys entries ↔
    (rule, k) ∈ entries ∨ rule = .deny ∧ k ∈ keys := Iff.rfl

theorem permits_grant (h : k ∈ keys) : Permits (grant keys entries) k :=
  ⟨⟨.inr ⟨rfl, h⟩, nofun⟩, fun hdeny => hdeny.2 ⟨rfl, h⟩⟩

theorem not_permits_revoke (h : k ∈ keys) : ¬ Permits (revoke keys entries) k :=
  fun hpermits => hpermits.2 (.inr ⟨rfl, h⟩)

/-- Other keys keep their entries. -/
theorem mem_grant_of_notMem (h : k ∉ keys) :
    (rule, k) ∈ grant keys entries ↔ (rule, k) ∈ entries := by
  simp [mem_grant, h]

theorem mem_revoke_of_notMem (h : k ∉ keys) :
    (rule, k) ∈ revoke keys entries ↔ (rule, k) ∈ entries := by
  simp [mem_revoke, h]

/-- To grant keys it is enough to allow those that are not allowed, and to lift the denials that are
there. -/
theorem eq_grant {after : Set (Rule × κ)}
    (h : ∀ rule k, (rule, k) ∈ after ↔
      ((rule, k) ∈ entries ∨ rule = .allow ∧ k ∈ keys ∧ (.allow, k) ∉ entries) ∧
        ¬ (rule = .deny ∧ k ∈ keys ∧ (.deny, k) ∈ entries)) :
    after = grant keys entries := by
  ext ⟨rule, k⟩
  rw [h, mem_grant]
  cases rule with
  | allow =>
    simp only [true_and, reduceCtorEq, false_and, not_false_eq_true, and_true]
    tauto
  | deny =>
    simp only [true_and, reduceCtorEq, false_and, or_false]
    tauto

/-- To revoke keys it is enough to deny those that are not denied. -/
theorem eq_revoke {after : Set (Rule × κ)}
    (h : ∀ rule k, (rule, k) ∈ after ↔
      (rule, k) ∈ entries ∨ rule = .deny ∧ k ∈ keys ∧ (.deny, k) ∉ entries) :
    after = revoke keys entries := by
  ext ⟨rule, k⟩
  rw [h, mem_revoke]
  cases rule with
  | allow => simp
  | deny =>
    simp only [true_and]
    tauto

/-- Where no key is denied, to grant is to allow. -/
theorem mem_grant_of_notDenied (h : ∀ k ∈ keys, (.deny, k) ∉ entries) :
    (rule, k) ∈ grant keys entries ↔ (rule, k) ∈ entries ∨ rule = .allow ∧ k ∈ keys := by
  refine and_iff_left_of_imp ?_
  rintro (hentry | ⟨hallow, -⟩) ⟨hdeny, hkey⟩
  · exact h k hkey (hdeny ▸ hentry)
  · exact absurd (hallow.symm.trans hdeny) nofun

end

end Rdfm.Lib
