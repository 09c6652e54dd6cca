import Mathlib.Data.List.Basic
import Mathlib.Tactic.Common

/-!
# UTF-8 in byte strings

Texts whose characters stand for bytes, as the strings of Go do. `runeTail` says how a character in
UTF-8 begins, and `toValidUtf8` puts U+FFFD in the place of each byte that begins none, which is what
writers of JSON do. It leaves a text as it is exactly if the text is valid (`toValidUtf8_eq_iff`).
-/

namespace Rdfm.Lib

/-- For the first byte of a character: how many follow, and the range of the next one. -/
def leadByte (a : Nat) : Option (Nat × Nat × Nat) :=
  if a ≤ 0x7F then some (0, 0x80, 0xBF)
  else if a < 0xC2 then none
  else if a ≤ 0xDF then some (1, 0x80, 0xBF)
  else if a = 0xE0 then some (2, 0xA0, 0xBF)
  else if a = 0xED then some (2, 0x80, 0x9F)
  else if a ≤ 0xEF then some (2, 0x80, 0xBF)
  else if a = 0xF0 then some (3, 0x90, 0xBF)
  else if a ≤ 0xF3 then some (3, 0x80, 0xBF)
  else if a = 0xF4 then some (3, 0x80, 0x8F)
  else none

/-- How many bytes of `rest` belong to the character that begins with `a`; `none` if none does. -/
def runeTail (a : Char) (rest : List Char) : Option Nat :=
  (leadByte a.toNat).bind fun (n, lo, hi) =>
    let tail := (rest.take n).map Char.toNat
    if tail.length = n ∧ (∀ b ∈ tail.head?, lo ≤ b ∧ b ≤ hi) ∧ tail.all fun b => 0x80 ≤ b && b ≤ 0xBF
    then some n else none

/-- The bytes of U+FFFD. -/
def replacementChar : List Char := [Char.ofNat 0xEF, Char.ofNat 0xBF, Char.ofNat 0xBD]

/-- The text with replacements, when the first `k` bytes still belong to a character. -/
def toValidFrom : Nat → List Char → List Char
  | _, [] => []
  | k + 1, a :: rest => a :: toValidFrom k rest
  | 0, a :: rest =>
    match runeTail a rest with
    | some n => a :: toValidFrom n rest
    | none => replacementChar ++ toValidFrom 0 rest

/-- A replacement for each byte that is not valid. -/
def toValidUtf8 (text : List Char) : List Char := toValidFrom 0 text

def validFrom : Nat → List Char → Bool
  | _, [] => true
  | k + 1, _ :: rest => validFrom k rest
  | 0, a :: rest =>
    match runeTail a rest with
    | some n => validFrom n rest
    | none => false

def ValidUtf8 (text : List Char) : Prop := validFrom 0 text = true

instance (text : List Char) : Decidable (ValidUtf8 text) :=
  inferInstanceAs (Decidable (validFrom 0 text = true))

theorem length_le_toValidFrom (k : Nat) (text : List Char) :
    text.length ≤ (toValidFrom k text).length := by
  induction text generalizing k with
  | nil => exact Nat.zero_le _
  | cons a rest ih =>
    cases k with
    | succ k => exact Nat.succ_le_succ (ih k)
    | zero =>
      unfold toValidFrom
      split
      · exact Nat.succ_le_succ (ih _)
      · have hrest := ih 0
        rw [List.length_append, List.length_cons]
        change rest.length + 1 ≤ 3 + (toValidFrom 0 rest).length
        omega

theorem toValidFrom_eq_iff (k : Nat) (text : List Char) :
    toValidFrom k text = text ↔ validFrom k text = true := by
  induction text generalizing k with
  | nil => exact iff_of_true rfl rfl
  | cons a rest ih =>
    cases k with
    | succ k =>
      unfold toValidFrom validFrom
      rw [List.cons_inj_right]
      exact ih k
    | zero =>
      unfold toValidFrom validFrom
      split
      · rw [List.cons_inj_right]
        exact ih _
      · refine iff_of_false (fun heq => ?_) Bool.false_ne_true
        -- a replacement is longer than the byte
        have hlength := congrArg List.length heq
        have hrest := length_le_toValidFrom 0 rest
        rw [List.length_append, List.length_cons] at hlength
        change 3 + (toValidFrom 0 rest).length = rest.length + 1 at hlength
        omega

/-- Only valid texts stay as they are. -/
theorem toValidUtf8_eq_iff (text : List Char) : toValidUtf8 text = text ↔ ValidUtf8 text :=
  toValidFrom_eq_iff 0 text

end Rdfm.Lib
