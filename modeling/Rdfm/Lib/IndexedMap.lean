import Mathlib.Data.List.Perm.Basic
import Mathlib.Data.List.Nodup
import Mathlib.Tactic.Common

/-!
# A sequence kept in a map at consecutive keys

Finite maps as lists of entries, and the map that holds a sequence `xs` at the keys of `lo`,
`lo + 1`, and so on (`Holds`): what setting the next key and erasing the first one do to it. The
order of the entries plays no part, as the order of a directory or of a hash map does not.
-/

namespace Rdfm.Lib

/-- The entries of a finite map, in any order. -/
abbrev Entries (κ β : Type*) := List (κ × β)

namespace Entries

variable {κ β : Type*}

/-! ## Consecutive keys -/

/-- The entries of `xs`, from the key of `lo` on. -/
def indexed (key : Nat → κ) : Nat → List β → Entries κ β
  | _, [] => []
  | lo, x :: xs => (key lo, x) :: indexed key (lo + 1) xs

/-- The map has exactly the entries of `xs`. -/
def Holds (key : Nat → κ) (lo : Nat) (xs : List β) (m : Entries κ β) : Prop :=
  m.Perm (indexed key lo xs)

variable {key : Nat → κ} {lo : Nat} {x : β} {xs : List β} {m : Entries κ β}

theorem indexed_concat (key : Nat → κ) (lo : Nat) (xs : List β) (x : β) :
    indexed key lo (xs ++ [x]) = indexed key lo xs ++ [(key (lo + xs.length), x)] := by
  induction xs generalizing lo with
  | nil => rfl
  | cons y xs ih =>
    rw [List.cons_append, indexed, indexed, ih, List.cons_append, List.length_cons, Nat.add_assoc,
      Nat.add_comm 1]

theorem map_indexed {κ' : Type*} (f : κ → κ') (key : Nat → κ) (lo : Nat) (xs : List β) :
    (indexed key lo xs).map (Prod.map f id) = indexed (f ∘ key) lo xs := by
  induction xs generalizing lo with
  | nil => rfl
  | cons x xs ih =>
    rw [indexed, List.map_cons, ih]
    rfl

theorem map_snd_indexed (key : Nat → κ) (lo : Nat) (xs : List β) :
    (indexed key lo xs).map Prod.snd = xs := by
  induction xs generalizing lo with
  | nil => rfl
  | cons x xs ih => rw [indexed, List.map_cons, ih]

theorem length_indexed (key : Nat → κ) (lo : Nat) (xs : List β) :
    (indexed key lo xs).length = xs.length := by
  rw [← List.length_map (f := Prod.snd), map_snd_indexed]

theorem exists_of_mem_indexed {e : κ × β} (h : e ∈ indexed key lo xs) :
    ∃ i, lo ≤ i ∧ i < lo + xs.length ∧ e.1 = key i := by
  induction xs generalizing lo with
  | nil => cases h
  | cons x xs ih =>
    rw [List.length_cons]
    rcases List.mem_cons.mp h with rfl | hm
    · exact ⟨lo, Nat.le_refl _, by omega, rfl⟩
    · rcases ih hm with ⟨i, hlo, hhi, hk⟩
      exact ⟨i, by omega, by omega, hk⟩

theorem Holds.length (h : Holds key lo xs m) : m.length = xs.length :=
  (List.Perm.length_eq h).trans (length_indexed key lo xs)

section Distinct

variable (hkey : Function.Injective key)

include hkey

theorem ne_key_of_mem_indexed {i : Nat} (hi : i < lo ∨ lo + xs.length ≤ i) :
    ∀ e ∈ indexed key lo xs, e.1 ≠ key i := by
  intro e he hk
  rcases exists_of_mem_indexed he with ⟨j, hlo, hhi, hj⟩
  have := hkey (hj.symm.trans hk)
  omega

theorem nodup_indexed (lo : Nat) (xs : List β) : ((indexed key lo xs).map Prod.fst).Nodup := by
  induction xs generalizing lo with
  | nil => exact List.nodup_nil
  | cons x xs ih =>
    rw [indexed, List.map_cons, List.nodup_cons]
    refine ⟨?_, ih (lo + 1)⟩
    intro hmem
    rcases List.mem_map.mp hmem with ⟨e, he, hk⟩
    exact ne_key_of_mem_indexed hkey (.inl (Nat.lt_succ_self lo)) e he hk

theorem Holds.nodup (h : Holds key lo xs m) : (m.map Prod.fst).Nodup :=
  (h.map Prod.fst).nodup_iff.mpr (nodup_indexed hkey lo xs)

end Distinct

theorem mem_indexed {i : Nat} (h : xs[i]? = some x) : (key (lo + i), x) ∈ indexed key lo xs := by
  induction xs generalizing lo i with
  | nil => cases h
  | cons y xs ih =>
    cases i with
    | zero =>
      rw [List.getElem?_cons_zero, Option.some.injEq] at h
      subst h
      exact List.mem_cons_self ..
    | succ i =>
      rw [List.getElem?_cons_succ] at h
      have : (key (lo + 1 + i), x) ∈ indexed key (lo + 1) xs := ih h
      rw [Nat.add_assoc, Nat.add_comm 1 i] at this
      exact List.mem_cons_of_mem _ this

/-! ## Lookups and updates -/

variable [DecidableEq κ]

def get? (k : κ) (m : Entries κ β) : Option β := (m.find? fun e => e.1 = k).map Prod.snd

def erase (k : κ) (m : Entries κ β) : Entries κ β := m.filter fun e => e.1 ≠ k

def set (k : κ) (v : β) (m : Entries κ β) : Entries κ β := m.erase k ++ [(k, v)]

theorem erase_of_fresh {k : κ} {m : Entries κ β} (h : ∀ e ∈ m, e.1 ≠ k) : m.erase k = m := by
  unfold erase
  rw [List.filter_eq_self]
  intro e he
  exact decide_eq_true (h e he)

theorem get?_eq_none {k : κ} {m : Entries κ β} (h : ∀ e ∈ m, e.1 ≠ k) : m.get? k = none := by
  unfold get?
  rw [Option.map_eq_none_iff, List.find?_eq_none]
  intro e he
  simp [h e he]

theorem get?_eq_some {k : κ} {v : β} {m : Entries κ β} (hnodup : (m.map Prod.fst).Nodup)
    (h : (k, v) ∈ m) : m.get? k = some v := by
  unfold get?
  induction m with
  | nil => cases h
  | cons e m ih =>
    rw [List.map_cons, List.nodup_cons] at hnodup
    rw [List.find?_cons]
    split
    · next hk =>
      have hek : e.1 = k := of_decide_eq_true hk
      rcases List.mem_cons.mp h with rfl | hm
      · rfl
      · exact absurd (List.mem_map_of_mem (f := Prod.fst) hm) (hek ▸ hnodup.1)
    · next hk =>
      rcases List.mem_cons.mp h with rfl | hm
      · simp at hk
      · exact ih hnodup.2 hm

section Updates

variable {k k' : κ} {v : β}

theorem mem_of_get? (h : m.get? k = some v) : (k, v) ∈ m := by
  unfold get? at h
  rcases Option.map_eq_some_iff.mp h with ⟨e, hfind, rfl⟩
  have hkey : e.1 = k := by simpa using List.find?_some hfind
  rw [← hkey]
  exact List.mem_of_find?_eq_some hfind

theorem ne_of_get?_eq_none (h : m.get? k = none) : ∀ e ∈ m, e.1 ≠ k := by
  unfold get? at h
  rw [Option.map_eq_none_iff, List.find?_eq_none] at h
  intro e he
  simpa using h e he

theorem get?_erase_ne (h : k' ≠ k) : (m.erase k).get? k' = m.get? k' := by
  unfold get? erase
  rw [List.find?_filter]
  congr 2
  funext e
  by_cases he : e.1 = k'
  · simp [he, h]
  · simp [he]

theorem get?_set_self : (m.set k v).get? k = some v := by
  unfold get? set
  rw [List.find?_append, Option.map_eq_some_iff]
  refine ⟨(k, v), ?_, rfl⟩
  have hnone : (m.erase k).find? (fun e => e.1 = k) = none := by
    rw [List.find?_eq_none]
    intro e he
    simpa using (List.mem_filter.mp he).2
  rw [hnone]
  simp

theorem get?_set_ne (h : k' ≠ k) : (m.set k v).get? k' = m.get? k' := by
  have hnone : [(k, v)].find? (fun e => e.1 = k') = none := by simp [h.symm]
  have herase : (m.erase k).get? k' = m.get? k' := get?_erase_ne h
  rw [← herase]
  unfold get? set
  rw [List.find?_append, hnone, Option.or_none]

theorem nodup_erase (h : (m.map Prod.fst).Nodup) (k : κ) : ((m.erase k).map Prod.fst).Nodup :=
  h.sublist (List.filter_sublist.map _)

/-- A key that is in the map takes one entry with it. -/
theorem length_erase (hnodup : (m.map Prod.fst).Nodup) (h : m.get? k = some v) :
    (m.erase k).length + 1 = m.length := by
  have hmem := mem_of_get? h
  clear h
  induction m with
  | nil => cases hmem
  | cons e m ih =>
    rw [List.map_cons, List.nodup_cons] at hnodup
    unfold erase at ih ⊢
    by_cases he : e.1 = k
    · have hrest : ∀ e' ∈ m, e'.1 ≠ k := by
        intro e' he' heq
        apply hnodup.1
        rw [he, ← heq]
        exact List.mem_map_of_mem he'
      rw [List.filter_cons_of_neg (by simp [he]), List.length_cons]
      exact congrArg (·.length + 1) (erase_of_fresh hrest)
    · rw [List.filter_cons_of_pos (by simp [he]), List.length_cons, List.length_cons]
      rcases List.mem_cons.mp hmem with rfl | hm
      · exact absurd rfl he
      · rw [ih hnodup.2 hm]

end Updates

theorem Holds.get?_eq_none (h : Holds key lo xs m) {k : κ} (hk : ∀ i, k ≠ key i) :
    m.get? k = none := by
  apply Entries.get?_eq_none
  intro e he hek
  rcases exists_of_mem_indexed (h.mem_iff.mp he) with ⟨i, -, -, hi⟩
  exact hk i (hek.symm.trans hi)

section Injective

variable (hkey : Function.Injective key)

include hkey

theorem Holds.get?_front (h : Holds key lo (x :: xs) m) : m.get? (key lo) = some x :=
  get?_eq_some (h.nodup hkey) (h.mem_iff.mpr (List.mem_cons_self ..))

theorem Holds.get?_of_mem (h : Holds key lo xs m) {k : κ} (hm : (k, x) ∈ m) :
    m.get? k = some x :=
  get?_eq_some (h.nodup hkey) hm

/-- The value at the key of `i`. -/
theorem Holds.get?_key (h : Holds key lo xs m) (i : Nat) :
    m.get? (key i) = if lo ≤ i then xs[i - lo]? else none := by
  have hnodup := h.nodup hkey
  split
  · next hle =>
    cases hx : xs[i - lo]? with
    | none =>
      apply Entries.get?_eq_none
      intro e he
      have hlen := List.getElem?_eq_none_iff.mp hx
      exact ne_key_of_mem_indexed hkey (.inr (by omega)) e (h.mem_iff.mp he)
    | some x =>
      apply get?_eq_some hnodup
      rw [h.mem_iff]
      have hmem : (key (lo + (i - lo)), x) ∈ indexed key lo xs := mem_indexed hx
      rwa [Nat.add_sub_cancel' hle] at hmem
  · next hlt =>
    apply Entries.get?_eq_none
    intro e he
    exact ne_key_of_mem_indexed hkey (.inl (by omega)) e (h.mem_iff.mp he)

theorem Holds.erase_front (h : Holds key lo (x :: xs) m) :
    Holds key (lo + 1) xs (m.erase (key lo)) := by
  have hrest : erase (key lo) (indexed key (lo + 1) xs) = indexed key (lo + 1) xs :=
    erase_of_fresh (ne_key_of_mem_indexed hkey (.inl (Nat.lt_succ_self lo)))
  have hperm : (m.erase (key lo)).Perm (erase (key lo) (indexed key lo (x :: xs))) := h.filter _
  unfold Holds
  rw [← hrest]
  refine hperm.trans (.of_eq ?_)
  unfold erase
  rw [indexed, List.filter_cons_of_neg]
  simp

theorem Holds.set_next (h : Holds key lo xs m) (x : β) :
    Holds key lo (xs ++ [x]) (m.set (key (lo + xs.length)) x) := by
  have hfresh : ∀ e ∈ m, e.1 ≠ key (lo + xs.length) := by
    intro e he
    exact ne_key_of_mem_indexed hkey (.inr (Nat.le_refl _)) e (h.mem_iff.mp he)
  unfold Holds set
  rw [erase_of_fresh hfresh, indexed_concat]
  exact List.Perm.append_right _ h

end Injective

end Entries

end Rdfm.Lib
