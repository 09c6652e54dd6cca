import Mathlib.Data.List.Chain
import Mathlib.Data.List.MinMax
import Mathlib.Data.List.Nodup
import Mathlib.Data.List.Perm.Subperm
import Mathlib.Data.Nat.Find

/-!
# Walks, minimum-cost walks and exhaustive search

A walk along a relation `R` is its list of nodes (`Walk`), with a cost summed over its hops
(`walkCost`). Erasing loops never raises the cost (`Walk.exists_nodup`), so over a relation whose
targets lie in a finite list a minimum-cost walk is found among the walks of bounded length
(`searchWalk`, `searchWalk_spec`). `Geodesic` is the unit-cost case, and carries the two facts a
search argument needs: the tail of a geodesic is a geodesic that never returns to its source
(`Geodesic.tail`, `Geodesic.not_mem_tail`).
-/

namespace Rdfm.Lib

section Walk

variable {V : Type} {R S : V → V → Prop} {s t u v : V} {p q : List V}

/-- The nodes of a walk from `s` to `t`, both ends included. -/
structure Walk (R : V → V → Prop) (s t : V) (p : List V) : Prop where
  head : p.head? = some s
  last : p.getLast? = some t
  chain : p.IsChain R

namespace Walk

theorem single (R : V → V → Prop) (s : V) : Walk R s s [s] :=
  ⟨rfl, rfl, .singleton s⟩

theorem ne_nil (h : Walk R s t p) : p ≠ [] := by
  rintro rfl
  cases h.head

theorem cons (huv : R u v) (h : Walk R v t p) : Walk R u t (u :: p) := by
  obtain ⟨x, p, rfl⟩ := List.exists_cons_of_ne_nil h.ne_nil
  have hx : x = v := by simpa using h.head
  subst hx
  exact ⟨rfl, by simpa using h.last, .cons_cons huv h.chain⟩

/-- A walk is a single node or a hop followed by a walk. -/
theorem cases_cons (h : Walk R s t p) :
    (s = t ∧ p = [s]) ∨ ∃ v q, R s v ∧ Walk R v t (v :: q) ∧ p = s :: v :: q := by
  obtain ⟨x, p, rfl⟩ := List.exists_cons_of_ne_nil h.ne_nil
  have hx : x = s := by simpa using h.head
  subst hx
  cases p with
  | nil => exact .inl ⟨by simpa using h.last, rfl⟩
  | cons v q =>
    obtain ⟨hxv, hq⟩ := List.isChain_cons_cons.1 h.chain
    exact .inr ⟨v, q, hxv, ⟨rfl, by simpa using h.last, hq⟩, rfl⟩

theorem mono (hRS : ∀ u v, R u v → S u v) (h : Walk R s t p) : Walk S s t p :=
  ⟨h.head, h.last, h.chain.imp fun {a b} => hRS a b⟩

/-- A walk read from one of its nodes on. -/
theorem suffix (h : Walk R s t p) (l₁ : List V) {l₂ : List V} (hp : p = l₁ ++ u :: l₂) :
    Walk R u t (u :: l₂) := by
  subst hp
  refine ⟨rfl, ?_, h.chain.infix (List.suffix_append l₁ (u :: l₂)).isInfix⟩
  have hl := h.last
  rwa [List.getLast?_append_cons] at hl

end Walk

/-- The cost of a walk: the sum of the costs of its hops. -/
def walkCost (c : V → V → Nat) : List V → Nat
  | [] => 0
  | [_] => 0
  | u :: v :: p => c u v + walkCost c (v :: p)

theorem walkCost_suffix_le (c : V → V → Nat) (l₁ l₂ : List V) :
    walkCost c l₂ ≤ walkCost c (l₁ ++ l₂) := by
  induction l₁ with
  | nil => simp
  | cons a l₁ ih =>
    refine ih.trans ?_
    rw [List.cons_append]
    cases l₁ ++ l₂ with
    | nil => simp [walkCost]
    | cons b l => simp [walkCost]

theorem walkCost_const {c : V → V → Nat} {k : Nat} (h : ∀ a b, R a b → c a b = k)
    (hp : p.IsChain R) : walkCost c p = k * (p.length - 1) := by
  induction p with
  | nil => simp [walkCost]
  | cons a p ih =>
    cases p with
    | nil => simp [walkCost]
    | cons b p =>
      obtain ⟨hab, hb⟩ := List.isChain_cons_cons.1 hp
      have ih' := ih hb
      simp only [List.length_cons, Nat.add_sub_cancel] at ih' ⊢
      rw [walkCost, h a b hab, ih', Nat.mul_succ, Nat.add_comm]

/-- Loop erasure: a walk contains one without repeated nodes that costs no more. -/
theorem Walk.exists_nodup (c : V → V → Nat) (h : Walk R s t p) :
    ∃ q, Walk R s t q ∧ q.Nodup ∧ walkCost c q ≤ walkCost c p := by
  induction p generalizing s with
  | nil => exact absurd rfl h.ne_nil
  | cons a p ih =>
    obtain ⟨rfl, hp⟩ | ⟨v, q, hsv, hv, hp⟩ := h.cases_cons
    · exact ⟨[s], .single R s, by simp, by simp [walkCost]⟩
    · obtain ⟨rfl, rfl⟩ := List.cons_eq_cons.1 hp
      obtain ⟨q', hq', hnd, hle⟩ := ih hv
      by_cases ha : a ∈ q'
      · -- the erased tail comes back to `a`: keep only what follows that visit
        obtain ⟨l₁, l₂, rfl⟩ := List.append_of_mem ha
        refine ⟨a :: l₂, hq'.suffix l₁ rfl, ?_, ?_⟩
        · exact (List.nodup_append.1 hnd).2.1
        · have := walkCost_suffix_le c l₁ (a :: l₂)
          simp only [walkCost]
          omega
      · refine ⟨a :: q', .cons hsv hq', List.nodup_cons.2 ⟨ha, hnd⟩, ?_⟩
        obtain ⟨x, q', rfl⟩ := List.exists_cons_of_ne_nil hq'.ne_nil
        have hx : x = v := by simpa using hq'.head
        subst hx
        simp only [walkCost]
        omega

/-- Every node of a walk but its source is a target of the relation. -/
theorem Walk.tail_subset {univ : List V} (hU : ∀ a b, R a b → b ∈ univ) (h : Walk R s t p) :
    p.tail ⊆ univ := by
  induction p generalizing s with
  | nil => simp
  | cons a p ih =>
    obtain ⟨-, hp⟩ | ⟨v, q, hsv, hv, hp⟩ := h.cases_cons
    · obtain ⟨-, rfl⟩ := List.cons_eq_cons.1 hp
      simp
    · obtain ⟨-, rfl⟩ := List.cons_eq_cons.1 hp
      have := ih hv
      simp only [List.tail_cons] at this ⊢
      exact List.cons_subset.2 ⟨hU _ _ hsv, this⟩

end Walk

/-! ## Exhaustive search -/

section Search

variable {V : Type}

/-- All walks of at most `n` hops from a node. -/
def walksUpTo (succ : V → List V) : Nat → V → List (List V)
  | 0, u => [[u]]
  | n + 1, u => [u] :: (succ u).flatMap fun v => (walksUpTo succ n v).map (u :: ·)

/-- A cheapest walk of at most `n` hops, the first in enumeration order. -/
def searchWalk [DecidableEq V] (succ : V → List V) (c : V → V → Nat) (n : Nat) (s t : V) : Option (List V) :=
  ((walksUpTo succ n s).filter fun p => p.getLast? = some t).argmin (walkCost c)

theorem mem_walksUpTo {succ : V → List V} {n : Nat} {s t : V} {p : List V}
    (hlast : p.getLast? = some t) :
    p ∈ walksUpTo succ n s ↔ Walk (fun a b => b ∈ succ a) s t p ∧ p.length ≤ n + 1 := by
  induction n generalizing s p with
  | zero =>
    simp only [walksUpTo, List.mem_singleton]
    constructor
    · rintro rfl
      exact ⟨⟨rfl, hlast, .singleton s⟩, by simp⟩
    · rintro ⟨hw, hl⟩
      obtain ⟨-, rfl⟩ | ⟨v, q, -, -, rfl⟩ := hw.cases_cons
      · rfl
      · simp at hl
  | succ n ih =>
    simp only [walksUpTo, List.mem_cons, List.mem_flatMap, List.mem_map]
    constructor
    · rintro (rfl | ⟨v, hv, q, hq, rfl⟩)
      · exact ⟨⟨rfl, hlast, .singleton s⟩, by simp⟩
      · have hne : q ≠ [] := by
          rintro rfl
          cases n <;> simp [walksUpTo] at hq
        obtain ⟨x, q, rfl⟩ := List.exists_cons_of_ne_nil hne
        obtain ⟨hw, hl⟩ := (ih (by simpa using hlast)).1 hq
        exact ⟨.cons hv hw, by simpa using hl⟩
    · rintro ⟨hw, hl⟩
      obtain ⟨-, rfl⟩ | ⟨v, q, hsv, hv, rfl⟩ := hw.cases_cons
      · exact .inl rfl
      · exact .inr ⟨v, hsv, v :: q, (ih hv.last).2 ⟨hv, by simpa using hl⟩, rfl⟩

/-- With a bound that covers every target, `searchWalk` finds a minimum-cost walk when there is
one. -/
theorem searchWalk_spec [DecidableEq V] (succ : V → List V) (c : V → V → Nat) {univ : List V}
    {n : Nat} (hU : ∀ a b, b ∈ succ a → b ∈ univ) (hn : univ.length ≤ n) (s t : V) :
    match searchWalk succ c n s t with
    | some p => Walk (fun a b => b ∈ succ a) s t p ∧
        ∀ q, Walk (fun a b => b ∈ succ a) s t q → walkCost c p ≤ walkCost c q
    | none => ∀ q, ¬ Walk (fun a b => b ∈ succ a) s t q := by
  have bound : ∀ q, Walk (fun a b => b ∈ succ a) s t q →
      ∃ q' ∈ (walksUpTo succ n s).filter fun p => p.getLast? = some t,
        walkCost c q' ≤ walkCost c q := by
    intro q hq
    obtain ⟨q', hq', hnd, hle⟩ := hq.exists_nodup c
    refine ⟨q', List.mem_filter.2 ⟨(mem_walksUpTo hq'.last).2 ⟨hq', ?_⟩, by simp [hq'.last]⟩, hle⟩
    have hsub := hq'.tail_subset hU
    have hlen : q'.tail.length ≤ univ.length := (hnd.tail.subperm hsub).length_le
    rw [List.length_tail] at hlen
    omega
  cases h : searchWalk succ c n s t with
  | some p =>
    have hm := List.argmin_mem (h : List.argmin _ _ = some p)
    obtain ⟨hp, hlast⟩ := List.mem_filter.1 hm
    refine ⟨((mem_walksUpTo (by simpa using hlast)).1 hp).1, fun q hq => ?_⟩
    obtain ⟨q', hq', hle⟩ := bound q hq
    have := List.le_of_mem_argmin hq' (h : List.argmin _ _ = some p)
    omega
  | none =>
    intro q hq
    obtain ⟨q', hq', -⟩ := bound q hq
    rw [searchWalk, List.argmin_eq_none] at h
    rw [h] at hq'
    cases hq'

end Search

/-! ## Geodesics -/

section Geodesic

variable {V : Type} {R S : V → V → Prop} {s t u v : V} {p q : List V}

/-- A walk with the fewest hops between its ends. -/
structure Geodesic (R : V → V → Prop) (s t : V) (p : List V) : Prop where
  walk : Walk R s t p
  minimal : ∀ q, Walk R s t q → p.length ≤ q.length

/-- Joined nodes are joined by a geodesic. -/
theorem Walk.exists_geodesic (h : Walk R s t p) : ∃ q, Geodesic R s t q := by
  classical
  have hex : ∃ n, ∃ q, Walk R s t q ∧ q.length = n := ⟨_, p, h, rfl⟩
  obtain ⟨q, hq, hlen⟩ := Nat.find_spec hex
  exact ⟨q, hq, fun r hr => hlen ▸ Nat.find_min' hex ⟨r, hr, rfl⟩⟩

namespace Geodesic

theorem length_eq (h : Geodesic R s t p) (h' : Geodesic R s t q) : p.length = q.length :=
  Nat.le_antisymm (h.minimal q h'.walk) (h'.minimal p h.walk)

/-- A geodesic does not come back to its source. -/
theorem not_mem_tail (h : Geodesic R s t (s :: p)) : s ∉ p := by
  intro hs
  obtain ⟨l₁, l₂, rfl⟩ := List.append_of_mem hs
  have hw : Walk R s t (s :: l₂) := h.walk.suffix (s :: l₁) (by simp)
  have := h.minimal _ hw
  simp at this
  omega

/-- The rest of a geodesic is one. -/
theorem tail (h : Geodesic R s t (s :: v :: p)) : Geodesic R v t (v :: p) := by
  have hsv := (List.isChain_cons_cons.1 h.walk.chain).1
  refine ⟨h.walk.suffix [s] rfl, fun q hq => ?_⟩
  have := h.minimal _ (.cons hsv hq)
  simpa using this

end Geodesic

end Geodesic

end Rdfm.Lib
