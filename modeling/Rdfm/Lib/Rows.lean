import Mathlib.Data.List.Nodup

/-!
# Tables of rows

A table is a list of rows. This module has what the statements of a query language do to it: the row
with a given key, and the update of the rows that meet a condition.
-/

namespace Rdfm.Lib

variable {α κ : Type*}

/-- Under a key that is distinct in the table, the row found is the only one. -/
theorem find?_key_eq_some [DecidableEq κ] {key : α → κ} {rows : List α}
    (hkey : (rows.map key).Nodup) {k : κ} {r : α} :
    rows.find? (fun x => key x = k) = some r ↔ r ∈ rows ∧ key r = k := by
  constructor
  · intro h
    have hr := List.find?_some h
    exact ⟨List.mem_of_find?_eq_some h, of_decide_eq_true hr⟩
  · rintro ⟨hr, rfl⟩
    cases hfind : rows.find? fun x => key x = key r with
    | none =>
      rw [List.find?_eq_none] at hfind
      exact absurd (decide_eq_true rfl) (hfind r hr)
    | some x =>
      have hx := List.find?_some hfind
      rw [List.inj_on_of_nodup_map hkey (List.mem_of_find?_eq_some hfind) hr (of_decide_eq_true hx)]

/-- `UPDATE ... WHERE`. -/
def updateWhere (p : α → Bool) (f : α → α) (rows : List α) : List α :=
  rows.map fun r => if p r then f r else r

variable {p : α → Bool} {f : α → α} {rows : List α}

theorem mem_updateWhere {r : α} :
    r ∈ updateWhere p f rows ↔ ∃ old ∈ rows, r = if p old then f old else old := by
  unfold updateWhere
  rw [List.mem_map]
  exact exists_congr fun old => and_congr_right fun _ => eq_comm

/-- Rows that no update touches, before or after it. -/
theorem filter_updateWhere {q : α → Bool} (hold : ∀ r ∈ rows, p r = true → q r = false)
    (hnew : ∀ r ∈ rows, p r = true → q (f r) = false) :
    (updateWhere p f rows).filter q = rows.filter q := by
  unfold updateWhere
  induction rows with
  | nil => rfl
  | cons r rows ih =>
    have ih := ih (fun r' hr' => hold r' (List.mem_cons_of_mem _ hr'))
      fun r' hr' => hnew r' (List.mem_cons_of_mem _ hr')
    rw [List.map_cons, List.filter_cons, List.filter_cons, ih]
    by_cases h : p r = true
    · simp [h, hold r List.mem_cons_self h, hnew r List.mem_cons_self h]
    · simp [h]

/-- A column that the update does not touch. -/
theorem map_updateWhere {β : Type*} {column : α → β} (h : ∀ r, column (f r) = column r) :
    (updateWhere p f rows).map column = rows.map column := by
  unfold updateWhere
  rw [List.map_map]
  apply List.map_congr_left
  intro r _
  dsimp only [Function.comp_apply]
  split
  · exact h r
  · rfl

end Rdfm.Lib
