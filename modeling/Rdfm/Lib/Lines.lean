import Mathlib.Data.List.TakeWhile

/-!
# Lines

The lines of a text, each ended by a newline or by the end of the text, and a scanner that gives them
one after the other as long as they fit its buffer. A scanner that has stopped at a line
(`scanLines_of_long`) looks like one that is through (`scanLines_of_short`).
-/

namespace Rdfm.Lib

variable {α : Type*} [DecidableEq α]

/-- There is no line between a newline at the end of the text and that end. -/
def lines (newline : α) (t : List α) : List (List α) :=
  let pieces := t.splitOn newline
  if pieces.getLast? = some [] then pieces.dropLast else pieces

/-- The lines before the first that does not fit. -/
def scanLines (newline : α) (limit : Nat) (t : List α) : List (List α) :=
  (lines newline t).takeWhile (·.length < limit)

variable {newline : α} {l : List α}

/-- A line that the text ends. -/
theorem lines_of_not_mem (h : newline ∉ l) (hne : l ≠ []) : lines newline l = [l] := by
  unfold lines
  rw [List.splitOn_eq_singleton h]
  dsimp only
  rw [if_neg]
  intro hlast
  rw [List.getLast?_singleton, Option.some.injEq] at hlast
  exact hne hlast

/-- A line that a newline ends. -/
theorem lines_append_cons (h : newline ∉ l) (t : List α) :
    lines newline (l ++ newline :: t) = l :: lines newline t := by
  have hne : t.splitOn newline ≠ [] := List.splitOn_ne_nil _ _
  have hlast : (l :: t.splitOn newline).getLast? = (t.splitOn newline).getLast? := by
    rw [List.getLast?_cons_of_ne_nil hne]
  unfold lines
  rw [List.splitOn_append_cons_self_of_not_mem h]
  dsimp only
  rw [hlast, List.dropLast_cons_of_ne_nil hne]
  split <;> rfl

section Scan

variable {limit : Nat} {t : List α}

theorem scanLines_of_short (h : ∀ l ∈ lines newline t, l.length < limit) :
    scanLines newline limit t = lines newline t := by
  unfold scanLines
  rw [List.takeWhile_eq_self_iff]
  exact fun l hl => decide_eq_true (h l hl)

theorem scanLines_of_long {before after : List (List α)}
    (hlines : lines newline t = before ++ l :: after) (hshort : ∀ l ∈ before, l.length < limit)
    (hlong : limit ≤ l.length) : scanLines newline limit t = before := by
  unfold scanLines
  rw [hlines, List.takeWhile_append_of_pos fun l hl => decide_eq_true (hshort l hl),
    List.takeWhile_cons_of_neg (by simpa using hlong), List.append_nil]

omit [DecidableEq α] in
/-- All lines fit, or there is a first that does not. -/
theorem short_or_long (limit : Nat) (lines : List (List α)) :
    (∀ l ∈ lines, l.length < limit) ∨
      ∃ before l after, lines = before ++ l :: after ∧ (∀ l ∈ before, l.length < limit) ∧
        limit ≤ l.length := by
  induction lines with
  | nil => exact .inl nofun
  | cons l lines ih =>
    by_cases hl : l.length < limit
    · rcases ih with hshort | ⟨before, l', after, rfl, hshort, hlong⟩
      · exact .inl (List.forall_mem_cons.mpr ⟨hl, hshort⟩)
      · exact .inr ⟨l :: before, l', after, rfl, List.forall_mem_cons.mpr ⟨hl, hshort⟩, hlong⟩
    · exact .inr ⟨[], l, lines, rfl, nofun, Nat.not_lt.mp hl⟩

end Scan

end Rdfm.Lib
