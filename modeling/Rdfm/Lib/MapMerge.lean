import Mathlib.Data.List.AList
import Mathlib.Data.List.Induction

/-!
# Maps filled one entry after another

Entries put into a map, and maps merged into one: a later entry of a key replaces an earlier one. In
maps that agree on the keys that they share, nothing is lost by a merge (`lookup_mergeAll_iff`).
-/

namespace Rdfm.Lib

variable {κ β : Type*} [DecidableEq κ]

/-- Put the entries into the map, in their order. -/
def putAll (m : AList fun _ : κ => β) (entries : List ((_ : κ) × β)) : AList fun _ : κ => β :=
  entries.foldl (fun m e => m.insert e.1 e.2) m

/-- The maps in one, in their order. -/
def mergeAll (ms : List (AList fun _ : κ => β)) : AList fun _ : κ => β :=
  ms.foldl (fun m m' => putAll m m'.entries) ∅

/-- No two of the maps differ on a key. -/
def Agree (ms : List (AList fun _ : κ => β)) : Prop :=
  ∀ m ∈ ms, ∀ m' ∈ ms, ∀ k v w, m.lookup k = some v → m'.lookup k = some w → v = w

section PutAll

variable {m : AList fun _ : κ => β} {entries : List ((_ : κ) × β)} {k : κ} {v : β}

/-- A value is from the last entry of its key, or was there before. -/
theorem lookup_putAll_cases (h : (putAll m entries).lookup k = some v) :
    ⟨k, v⟩ ∈ entries ∨ m.lookup k = some v ∧ ∀ w, ⟨k, w⟩ ∉ entries := by
  induction entries generalizing m with
  | nil => exact .inr ⟨h, fun _ => List.not_mem_nil⟩
  | cons e entries ih =>
    obtain ⟨k', v'⟩ := e
    rcases ih h with hmem | ⟨hlookup, hnot⟩
    · exact .inl (List.mem_cons_of_mem _ hmem)
    · by_cases hk : k = k'
      · subst hk
        rw [AList.lookup_insert] at hlookup
        cases hlookup
        exact .inl List.mem_cons_self
      · rw [AList.lookup_insert_ne hk] at hlookup
        refine .inr ⟨hlookup, fun w hw => ?_⟩
        rcases List.mem_cons.mp hw with heq | hw
        · cases heq
          exact hk rfl
        · exact hnot w hw

/-- No key is lost. -/
theorem lookup_putAll_isSome (h : (∃ w, m.lookup k = some w) ∨ ∃ w, ⟨k, w⟩ ∈ entries) :
    ∃ v, (putAll m entries).lookup k = some v := by
  induction entries generalizing m with
  | nil =>
    rcases h with h | ⟨w, hw⟩
    · exact h
    · cases hw
  | cons e entries ih =>
    obtain ⟨k', v'⟩ := e
    refine ih ?_
    by_cases hk : k = k'
    · subst hk
      exact .inl ⟨v', AList.lookup_insert m⟩
    · dsimp only
      rw [AList.lookup_insert_ne hk]
      refine h.imp_right fun ⟨w, hw⟩ => ⟨w, ?_⟩
      rcases List.mem_cons.mp hw with heq | hw
      · cases heq
        exact absurd rfl hk
      · exact hw

/-- The entries of a map replace what was there before. -/
theorem lookup_putAll_entries {m' : AList fun _ : κ => β} (h : m'.lookup k = some v) :
    (putAll m m'.entries).lookup k = some v := by
  have hmem := AList.mem_lookup_iff.mp h
  obtain ⟨w, hw⟩ := @lookup_putAll_isSome _ _ _ m m'.entries k (.inr ⟨v, hmem⟩)
  rcases lookup_putAll_cases hw with hmem' | ⟨-, hnot⟩
  · rw [hw, ← h]
    exact (AList.mem_lookup_iff.mpr hmem').symm
  · exact absurd hmem (hnot v)

/-- Entries with keys of their own are all found again. -/
theorem lookup_putAll_iff (hm : m.lookup k = none) (hnodup : (entries.map Sigma.fst).Nodup) :
    (putAll m entries).lookup k = some v ↔ ⟨k, v⟩ ∈ entries := by
  constructor
  · intro h
    rcases lookup_putAll_cases h with hmem | ⟨hsome, -⟩
    · exact hmem
    · rw [hm] at hsome
      cases hsome
  · intro h
    obtain ⟨w, hw⟩ := @lookup_putAll_isSome _ _ _ m entries k (.inr ⟨v, h⟩)
    rcases lookup_putAll_cases hw with hmem | ⟨hsome, -⟩
    · cases List.inj_on_of_nodup_map hnodup h hmem rfl
      exact hw
    · rw [hm] at hsome
      cases hsome

theorem putAll_concat (e : (_ : κ) × β) :
    putAll m (entries ++ [e]) = (putAll m entries).insert e.1 e.2 := List.foldl_concat ..

/-- The value of a key is that of its last entry. -/
theorem lookup_putAll_last :
    (putAll m entries).lookup k =
      (((entries.filter fun e => e.1 = k).getLast?.map fun e => e.2).or (m.lookup k)) := by
  induction entries using List.reverseRecOn with
  | nil => rfl
  | append_singleton entries e ih =>
    rw [putAll_concat, List.filter_append]
    by_cases hk : e.1 = k
    · rw [List.filter_singleton, decide_eq_true hk, cond_true, List.getLast?_concat, ← hk,
        AList.lookup_insert, Option.map_some, Option.some_or]
    · rw [List.filter_singleton, decide_eq_false hk, cond_false, List.append_nil,
        AList.lookup_insert_ne (Ne.symm hk), ih]

end PutAll

section MergeAll

variable {ms : List (AList fun _ : κ => β)} {k : κ} {v : β}

theorem mergeAll_concat (m : AList fun _ : κ => β) :
    mergeAll (ms ++ [m]) = putAll (mergeAll ms) m.entries := List.foldl_concat ..

theorem lookup_mergeAll_cases (h : (mergeAll ms).lookup k = some v) :
    ∃ m ∈ ms, m.lookup k = some v := by
  induction ms using List.reverseRecOn with
  | nil => cases h
  | append_singleton ms m ih =>
    rw [mergeAll_concat] at h
    rcases lookup_putAll_cases h with hmem | ⟨hsome, -⟩
    · exact ⟨m, List.mem_append_right _ (List.mem_singleton_self m), AList.mem_lookup_iff.mpr hmem⟩
    · obtain ⟨m', hm', hlookup⟩ := ih hsome
      exact ⟨m', List.mem_append_left _ hm', hlookup⟩

theorem lookup_mergeAll_isSome {m : AList fun _ : κ => β} (hm : m ∈ ms)
    (h : m.lookup k = some v) : ∃ w, (mergeAll ms).lookup k = some w := by
  induction ms using List.reverseRecOn with
  | nil => cases hm
  | append_singleton ms m' ih =>
    rw [mergeAll_concat]
    refine lookup_putAll_isSome ?_
    rcases List.mem_append.mp hm with hm | hm
    · exact .inl (ih hm)
    · rw [← List.mem_singleton.mp hm]
      exact .inr ⟨v, AList.mem_lookup_iff.mp h⟩

/-- Maps that agree are merged without loss. -/
theorem lookup_mergeAll_iff (h : Agree ms) :
    (mergeAll ms).lookup k = some v ↔ ∃ m ∈ ms, m.lookup k = some v := by
  constructor
  · exact lookup_mergeAll_cases
  · rintro ⟨m, hm, hv⟩
    obtain ⟨w, hw⟩ := lookup_mergeAll_isSome hm hv
    obtain ⟨m', hm', hw'⟩ := lookup_mergeAll_cases hw
    rw [hw, h m hm m' hm' k v w hv hw']

end MergeAll

end Rdfm.Lib
