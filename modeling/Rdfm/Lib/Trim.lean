import Mathlib.Data.List.Find
import Mathlib.Tactic.Common

/-!
# Trimming

Removing words of a fixed list from both ends of a text, as many as there are; the words are the
encodings of the characters to be removed, which may be several symbols long. A symbol that is in no
word stays (`mem_trim`), and one that is a word by itself, and in no other, makes no difference at the
end (`trim_concat`).
-/

namespace Rdfm.Lib

variable {α : Type*} [DecidableEq α]

/-- The text after the words at its front, for a number of rounds. -/
def trimStart (words : List (List α)) : Nat → List α → List α
  | 0, t => t
  | n + 1, t =>
    match words.find? (·.isPrefixOf t) with
    | none => t
    | some word => trimStart words n (t.drop word.length)

def trimEnd (words : List (List α)) (t : List α) : List α :=
  (trimStart (words.map List.reverse) t.length t.reverse).reverse

def trim (words : List (List α)) (t : List α) : List α := trimEnd words (trimStart words t.length t)

variable {words : List (List α)} {t : List α} {x : α}

theorem trimStart_of_find {n : Nat} {word : List α}
    (h : words.find? (·.isPrefixOf t) = some word) :
    trimStart words (n + 1) t = trimStart words n (t.drop word.length) := by
  rw [trimStart, h]

theorem trimStart_of_none (h : words.find? (·.isPrefixOf t) = none) (n : Nat) :
    trimStart words n t = t := by
  cases n with
  | zero => rfl
  | succ n => rw [trimStart, h]

/-- The found word is the front of the text. -/
theorem append_of_find {word : List α} (h : words.find? (·.isPrefixOf t) = some word) :
    word ∈ words ∧ word ++ t.drop word.length = t := by
  have hfront : word <+: t := by simpa using List.find?_some h
  rcases hfront with ⟨rest, rfl⟩
  exact ⟨List.mem_of_find?_eq_some h, by rw [List.drop_left]⟩

theorem mem_trimStart (hx : ∀ word ∈ words, x ∉ word) (n : Nat) (h : x ∈ t) :
    x ∈ trimStart words n t := by
  induction n generalizing t with
  | zero => exact h
  | succ n ih =>
    cases hfind : words.find? (·.isPrefixOf t) with
    | none => rwa [trimStart_of_none hfind]
    | some word =>
      rw [trimStart_of_find hfind]
      rcases append_of_find hfind with ⟨hword, happend⟩
      apply ih
      rw [← happend] at h
      exact (List.mem_append.mp h).resolve_left (hx word hword)

/-- A symbol that no word has is never removed. -/
theorem mem_trim (hx : ∀ word ∈ words, x ∉ word) (h : x ∈ t) : x ∈ trim words t := by
  have hreverse : ∀ word ∈ words.map List.reverse, x ∉ word := by
    intro word hword
    rcases List.mem_map.mp hword with ⟨word', hword', rfl⟩
    rw [List.mem_reverse]
    exact hx word' hword'
  unfold trim trimEnd
  rw [List.mem_reverse]
  exact mem_trimStart hreverse _ (List.mem_reverse.mpr (mem_trimStart hx _ h))

/-- A word by itself, in no other. -/
structure Alone (words : List (List α)) (x : α) : Prop where
  mem : [x] ∈ words
  only : ∀ word ∈ words, x ∈ word → word = [x]

theorem isPrefixOf_concat (hx : Alone words x) (ht : t ≠ []) {word : List α} (hword : word ∈ words) :
    word.isPrefixOf (t ++ [x]) = word.isPrefixOf t := by
  rw [Bool.eq_iff_iff, List.isPrefixOf_iff_prefix, List.isPrefixOf_iff_prefix]
  constructor
  · intro hfront
    rcases List.prefix_concat_iff.mp hfront with heq | hfront
    · have hone := hx.only word hword (by rw [heq]; simp)
      rw [heq] at hone
      have hlength := congrArg List.length hone
      rw [List.length_append, List.length_singleton] at hlength
      exact absurd (List.eq_nil_of_length_eq_zero (by omega)) ht
    · exact hfront
  · intro hfront
    exact hfront.trans (List.prefix_append t [x])

section Words

variable (hwords : [] ∉ words)

include hwords

omit [DecidableEq α] in
theorem nil_not_mem_reverse : [] ∉ words.map List.reverse := by
  intro hmem
  rcases List.mem_map.mp hmem with ⟨word, hword, hnil⟩
  rw [List.reverse_eq_nil_iff] at hnil
  exact hwords (hnil ▸ hword)

theorem length_of_find {word : List α} (h : words.find? (·.isPrefixOf t) = some word) :
    (t.drop word.length).length < t.length := by
  rcases append_of_find h with ⟨hword, happend⟩
  have hpos : 0 < word.length := by
    apply List.length_pos_iff.mpr
    rintro rfl
    exact hwords hword
  rw [← happend, List.length_append, List.drop_left]
  omega

theorem find_none (h : ∀ y ∈ t, ∀ word ∈ words, y ∉ word) :
    words.find? (·.isPrefixOf t) = none := by
  cases hfind : words.find? (·.isPrefixOf t) with
  | none => rfl
  | some word =>
    rcases append_of_find hfind with ⟨hword, happend⟩
    cases word with
    | nil => exact absurd hword hwords
    | cons y rest =>
      rw [← happend] at h
      exact absurd List.mem_cons_self (h y List.mem_cons_self _ hword)

/-- As many rounds as the text is long are enough. -/
theorem trimStart_rounds {n m : Nat} (hn : t.length ≤ n) (hm : t.length ≤ m) :
    trimStart words n t = trimStart words m t := by
  induction n generalizing t m with
  | zero =>
    have hnil : t = [] := List.eq_nil_of_length_eq_zero (by omega)
    subst hnil
    have hnone : words.find? (·.isPrefixOf ([] : List α)) = none := by
      cases hfind : words.find? (·.isPrefixOf ([] : List α)) with
      | none => rfl
      | some word =>
        have hlt := length_of_find hwords hfind
        simp at hlt
    rw [trimStart_of_none hnone, trimStart_of_none hnone]
  | succ n ih =>
    cases hfind : words.find? (·.isPrefixOf t) with
    | none => rw [trimStart_of_none hfind, trimStart_of_none hfind]
    | some word =>
      have hlt := length_of_find hwords hfind
      cases m with
      | zero => omega
      | succ m =>
        rw [trimStart_of_find hfind, trimStart_of_find hfind]
        exact ih (by omega) (by omega)

theorem trimStart_concat (hx : Alone words x) (n : Nat) (hn : t.length ≤ n) :
    trimStart words (n + 1) (t ++ [x]) =
      if trimStart words n t = [] then [] else trimStart words n t ++ [x] := by
  induction n generalizing t with
  | zero =>
    have hnil : t = [] := List.eq_nil_of_length_eq_zero (by omega)
    subst hnil
    have hzero : trimStart words 0 ([] : List α) = [] := rfl
    rw [List.nil_append, if_pos hzero]
    cases hfind : words.find? (·.isPrefixOf [x]) with
    | none =>
      have hnot := List.find?_eq_none.mp hfind [x] hx.mem
      simp at hnot
    | some word =>
      have hlt := length_of_find hwords hfind
      rw [List.length_singleton, Nat.lt_one_iff] at hlt
      rw [trimStart_of_find hfind]
      exact List.eq_nil_of_length_eq_zero hlt
  | succ n ih =>
    by_cases ht : t = []
    · subst ht
      rw [trimStart_rounds hwords (Nat.le_add_left 1 (n + 1)) (Nat.le_add_left 1 n), ih (Nat.zero_le _),
        trimStart_rounds hwords (Nat.zero_le n) (Nat.zero_le (n + 1))]
    · have hsame : words.find? (·.isPrefixOf (t ++ [x])) = words.find? (·.isPrefixOf t) := by
        apply List.find?_congr
        intro word hword
        exact isPrefixOf_concat hx ht hword
      cases hfind : words.find? (·.isPrefixOf t) with
      | none =>
        rw [hfind] at hsame
        rw [trimStart_of_none hsame, trimStart_of_none hfind, if_neg ht]
      | some word =>
        rw [hfind] at hsame
        rcases append_of_find hfind with ⟨-, happend⟩
        have hlt := length_of_find hwords hfind
        have hle : word.length ≤ t.length := by
          rw [← happend, List.length_append]
          omega
        rw [trimStart_of_find hsame, trimStart_of_find hfind, List.drop_append_of_le_length hle]
        exact ih (by omega)

theorem trimEnd_concat (hx : Alone words x) : trimEnd words (t ++ [x]) = trimEnd words t := by
  have hreverse := nil_not_mem_reverse hwords
  have hfind : (words.map List.reverse).find? (·.isPrefixOf (x :: t.reverse)) = some [x] := by
    cases hfound : (words.map List.reverse).find? (·.isPrefixOf (x :: t.reverse)) with
    | none =>
      have hnot := List.find?_eq_none.mp hfound [x] (List.mem_map.mpr ⟨[x], hx.mem, rfl⟩)
      simp at hnot
    | some word =>
      rcases append_of_find hfound with ⟨hword, happend⟩
      rcases List.mem_map.mp hword with ⟨word', hword', rfl⟩
      have hmem : x ∈ word' := by
        cases hrev : word'.reverse with
        | nil =>
          rw [hrev] at hword
          exact absurd hword hreverse
        | cons y rest =>
          rw [hrev, List.cons_append, List.cons.injEq] at happend
          rw [← List.mem_reverse, hrev, happend.1]
          exact List.mem_cons_self
      rw [hx.only word' hword' hmem]
      rfl
  unfold trimEnd
  rw [List.length_append, List.length_singleton, List.reverse_append, List.reverse_singleton,
    List.singleton_append, trimStart_of_find hfind]
  rfl

/-- A word at the end that is one symbol, in no other word, is removed. -/
theorem trim_concat (hx : Alone words x) (t : List α) : trim words (t ++ [x]) = trim words t := by
  unfold trim
  rw [List.length_append, List.length_singleton, trimStart_concat hwords hx _ (Nat.le_refl _)]
  split
  · next hnil => rw [hnil]
  · exact trimEnd_concat hwords hx

/-- A text that has no symbol of a word stays as it is. -/
theorem trim_eq_self (h : ∀ y ∈ t, ∀ word ∈ words, y ∉ word) : trim words t = t := by
  have hreverse := nil_not_mem_reverse hwords
  have hnone : (words.map List.reverse).find? (·.isPrefixOf t.reverse) = none := by
    apply find_none hreverse
    intro y hy word hword
    rcases List.mem_map.mp hword with ⟨word', hword', rfl⟩
    rw [List.mem_reverse] at hy ⊢
    exact h y hy word' hword'
  unfold trim trimEnd
  rw [trimStart_of_none (find_none hwords h), trimStart_of_none hnone, List.reverse_reverse]

end Words

end Rdfm.Lib
