import Mathlib.Algebra.Group.Int.Defs
import Mathlib.Algebra.Group.Nat.Defs
import Mathlib.Data.List.Basic
import Mathlib.Tactic.Common

/-!
# Numbers in text

Reading a number written in a base up to ten, with an optional sign and a bound in bits, and the
round trip with the decimal text of a number.
-/

namespace Rdfm.Lib

/-- Whether a character is a digit of the base (at most ten). -/
def isDigitOf (base : Nat) (c : Char) : Bool := c.isDigit && decide (c.toNat - '0'.toNat < base)

/-- An unsigned number: at least one digit, and nothing else. -/
def parseUint (base : Nat) (s : List Char) : Option Nat :=
  if s ≠ [] ∧ s.all (isDigitOf base) then some (Nat.ofDigitChars base s 0) else none

/-- A number with an optional sign. -/
def parseSigned (base : Nat) : List Char → Option Int
  | '-' :: s => (parseUint base s).map fun (n : Nat) => -(n : Int)
  | '+' :: s => (parseUint base s).map fun (n : Nat) => (n : Int)
  | s => (parseUint base s).map fun (n : Nat) => (n : Int)

/-- A signed number of `bits` bits. -/
def parseInt (base bits : Nat) (s : List Char) : Option Int :=
  (parseSigned base s).filter fun i => decide (-2 ^ (bits - 1) ≤ i ∧ i < 2 ^ (bits - 1))

/-- The decimal digits of a number. -/
def itoa (n : Nat) : List Char := Nat.toDigits 10 n

theorem isDigit_of_mem_itoa {n : Nat} {c : Char} (h : c ∈ itoa n) : c.isDigit = true :=
  Nat.isDigit_of_mem_toDigits (by decide) (by decide) h

theorem not_mem_itoa {n : Nat} {c : Char} (h : c.isDigit = false) : c ∉ itoa n := by
  intro hc
  rw [isDigit_of_mem_itoa hc] at h
  cases h

theorem itoa_ne_nil (n : Nat) : itoa n ≠ [] := Nat.toDigits_ne_nil

theorem isDigitOf_ten (c : Char) : isDigitOf 10 c = c.isDigit := by
  unfold isDigitOf
  cases h : c.isDigit with
  | false => rfl
  | true =>
    have hle : c.toNat ≤ 57 := by
      simp only [Char.isDigit, ge_iff_le, Bool.and_eq_true, decide_eq_true_eq] at h
      exact h.2
    have hlt : c.toNat - '0'.toNat < 10 := by
      rw [show '0'.toNat = 48 from rfl]
      omega
    rw [Bool.true_and, decide_eq_true_eq]
    exact hlt

theorem parseUint_itoa (n : Nat) : parseUint 10 (itoa n) = some n := by
  have hall : (itoa n).all (isDigitOf 10) = true := by
    rw [List.all_eq_true]
    intro c hc
    rw [isDigitOf_ten]
    exact isDigit_of_mem_itoa hc
  unfold parseUint
  rw [if_pos ⟨itoa_ne_nil n, hall⟩]
  exact congrArg some (Nat.ofDigitChars_toDigits (by decide) (by decide))

/-- A text without a sign is read as an unsigned number. -/
theorem parseSigned_of_unsigned {base : Nat} {s : List Char} (hm : s.head? ≠ some '-')
    (hp : s.head? ≠ some '+') :
    parseSigned base s = (parseUint base s).map fun (n : Nat) => (n : Int) := by
  unfold parseSigned
  split
  · exact absurd rfl hm
  · exact absurd rfl hp
  · rfl

/-- Every number is read back from its decimal text. -/
theorem parseSigned_itoa (n : Nat) : parseSigned 10 (itoa n) = some (n : Int) := by
  rw [parseSigned_of_unsigned, parseUint_itoa, Option.map_some]
  · intro hc
    exact not_mem_itoa rfl (List.mem_of_mem_head? hc)
  · intro hc
    exact not_mem_itoa rfl (List.mem_of_mem_head? hc)

/-- A number in range is read back with its bound checked. -/
theorem parseInt_itoa {bits n : Nat} (h : n < 2 ^ (bits - 1)) :
    parseInt 10 bits (itoa n) = some (n : Int) := by
  have hlt : (n : Int) < 2 ^ (bits - 1) := by exact_mod_cast h
  have hle : -2 ^ (bits - 1) ≤ (n : Int) := by
    have : (0 : Int) ≤ 2 ^ (bits - 1) := Int.pow_nonneg (by decide)
    omega
  unfold parseInt
  rw [parseSigned_itoa, Option.filter_some, if_pos]
  exact decide_eq_true ⟨hle, hlt⟩

theorem itoa_injective : Function.Injective itoa := by
  intro m n h
  have := congrArg (parseUint 10) h
  rw [parseUint_itoa, parseUint_itoa, Option.some.injEq] at this
  exact this

end Rdfm.Lib
