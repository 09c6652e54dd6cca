import Mathlib.Tactic.Common

/-!
# Runs of a partial step function

A system is a function `step : σ → ι → Option (σ × ρ)`: on an input it moves to a new state and
answers, or the input is not possible in this state. This module has the runs of such a system, the
two induction rules for them (an invariant, and an invariant that also sees the answers so far), the
rules for assumptions along a run, what is seen of a run from outside, and the transfer of whole runs
along a relation that single steps respect.
-/

namespace Rdfm.Lib

variable {σ τ ι ρ : Type*}

/-- A run: the last state and every answer on the way. -/
def runAll (step : σ → ι → Option (σ × ρ)) : σ → List ι → Option (σ × List ρ)
  | s, [] => some (s, [])
  | s, i :: is => do
    let (s, r) ← step s i
    let (s, rs) ← runAll step s is
    some (s, r :: rs)

section Rules

variable {step : σ → ι → Option (σ × ρ)} {s s' : σ} {i : ι} {is js : List ι} {rs : List ρ}

theorem runAll_cons_iff :
    runAll step s (i :: is) = some (s', rs) ↔
      ∃ s₁ r rs', step s i = some (s₁, r) ∧ runAll step s₁ is = some (s', rs') ∧ rs = r :: rs' := by
  rw [runAll]
  constructor
  · intro h
    rcases hs : step s i with _ | ⟨s₁, r⟩
    · rw [hs] at h
      cases h
    · rcases hr : runAll step s₁ is with _ | ⟨s₂, rs'⟩
      · simp [hs, hr] at h
      · simp only [hs, hr, Option.bind_eq_bind, Option.bind_some, Option.some.injEq,
          Prod.mk.injEq] at h
        rcases h with ⟨rfl, rfl⟩
        exact ⟨s₁, r, rs', rfl, hr, rfl⟩
  · rintro ⟨s₁, r, rs', hs, hr, rfl⟩
    simp [hs, hr]

/-- What every step keeps, every run keeps; the invariant may speak of the answers so far. -/
theorem runAll_history {P : List ρ → σ → Prop}
    (hstep : ∀ hist s i s' r, P hist s → step s i = some (s', r) → P (hist ++ [r]) s')
    (hist : List ρ) (h : P hist s) (hrun : runAll step s is = some (s', rs)) :
    P (hist ++ rs) s' := by
  induction is generalizing s hist rs with
  | nil =>
    simp only [runAll, Option.some.injEq, Prod.mk.injEq] at hrun
    rcases hrun with ⟨rfl, rfl⟩
    rwa [List.append_nil]
  | cons i is ih =>
    rcases runAll_cons_iff.mp hrun with ⟨s₁, r, rs', hs, hr, rfl⟩
    have := ih _ (hstep hist s i s₁ r h hs) hr
    rwa [List.append_assoc] at this

/-- What every step on an input in `P` keeps, every run on such inputs keeps, and all answers are in
`Q` if those of such steps are. -/
theorem runAll_answers {Inv : σ → Prop} {P : ι → Prop} {Q : ρ → Prop}
    (hstep : ∀ s i s' r, Inv s → P i → step s i = some (s', r) → Inv s' ∧ Q r) (h : Inv s)
    (his : ∀ i ∈ is, P i) (hrun : runAll step s is = some (s', rs)) :
    Inv s' ∧ ∀ r ∈ rs, Q r := by
  induction is generalizing s rs with
  | nil =>
    simp only [runAll, Option.some.injEq, Prod.mk.injEq] at hrun
    rcases hrun with ⟨rfl, rfl⟩
    exact ⟨h, nofun⟩
  | cons i is ih =>
    rcases runAll_cons_iff.mp hrun with ⟨s₁, r, rs', hs, hr, rfl⟩
    obtain ⟨h₁, hQ⟩ := hstep s i s₁ r h (his i List.mem_cons_self) hs
    obtain ⟨hlast, hrest⟩ := ih h₁ (fun i hi => his i (List.mem_cons_of_mem _ hi)) hr
    exact ⟨hlast, List.forall_mem_cons.mpr ⟨hQ, hrest⟩⟩

end Rules

/-! ## Deterministic runs -/

/-- What every step keeps, every run keeps; the invariant may speak of the inputs so far. -/
theorem foldl_history {next : σ → ι → σ} {P : List ι → σ → Prop}
    (hstep : ∀ hist s i, P hist s → P (hist ++ [i]) (next s i)) {hist : List ι} {s : σ}
    (h : P hist s) (is : List ι) : P (hist ++ is) (is.foldl next s) := by
  induction is generalizing hist s with
  | nil => rwa [List.append_nil]
  | cons i is ih =>
    have hrest := ih (hstep hist s i h)
    rwa [List.append_assoc, List.singleton_append] at hrest

/-- `P` holds of every input of a run, in the state it meets. -/
def Along (next : σ → ι → σ) (P : σ → ι → Prop) : σ → List ι → Prop
  | _, [] => True
  | s, i :: is => P s i ∧ Along next P (next s i) is

instance {next : σ → ι → σ} {P : σ → ι → Prop} [∀ s i, Decidable (P s i)] :
    ∀ s is, Decidable (Along next P s is)
  | _, [] => inferInstanceAs (Decidable True)
  | s, i :: is =>
    haveI : Decidable (Along next P (next s i) is) := instDecidableAlong (next s i) is
    inferInstanceAs (Decidable (P s i ∧ Along next P (next s i) is))

/-- An invariant that each step keeps under `P`, and that gives `Q`, gives `Q` along every run that
meets `P` along the way. -/
theorem Along.of_invariant {next : σ → ι → σ} {P Q : σ → ι → Prop} {Inv : σ → Prop}
    (hstep : ∀ s i, Inv s → P s i → Inv (next s i) ∧ Q s i) {s : σ} {is : List ι} (h : Inv s)
    (hrun : Along next P s is) : Along next Q s is := by
  induction is generalizing s with
  | nil => trivial
  | cons i is ih =>
    rcases hrun with ⟨hP, hrest⟩
    rcases hstep s i h hP with ⟨hInv, hQ⟩
    exact ⟨hQ, ih hInv hrest⟩

/-- An invariant that each step keeps under `P` holds at the end of every run that meets `P`. -/
theorem Along.foldl_invariant {next : σ → ι → σ} {P : σ → ι → Prop} {Inv : σ → Prop}
    (hstep : ∀ s i, Inv s → P s i → Inv (next s i)) {s : σ} {is : List ι} (h : Inv s)
    (hrun : Along next P s is) : Inv (is.foldl next s) := by
  induction is generalizing s with
  | nil => exact h
  | cons i is ih => exact ih (hstep s i h hrun.1) hrun.2

/-- A measure that no step raises, and that the steps in `own` lower, sinks by one for each of them. -/
theorem Along.foldl_measure {next : σ → ι → σ} {P : σ → ι → Prop} {Inv : σ → Prop} (μ : σ → ℕ)
    (own : ι → Bool)
    (hstep : ∀ s i, Inv s → P s i → Inv (next s i) ∧ μ (next s i) ≤ μ s)
    (hown : ∀ s i, Inv s → P s i → own i = true → μ (next s i) ≤ μ s - 1) {s : σ} {is : List ι}
    (h : Inv s) (hrun : Along next P s is) :
    μ (is.foldl next s) ≤ μ s - is.countP own := by
  induction is generalizing s with
  | nil => exact Nat.le_refl _
  | cons i is ih =>
    rcases hrun with ⟨hP, hrest⟩
    rcases hstep s i h hP with ⟨hInv, hle⟩
    have hlast := ih hInv hrest
    rw [List.foldl_cons, List.countP_cons]
    cases hi : own i with
    | true =>
      have := hown s i h hP hi
      simp only [if_true]
      omega
    | false =>
      simp only [Bool.false_eq_true, if_false]
      omega

/-- Two properties of inputs hold along the same runs if they agree wherever the invariant holds, and
the one gives the invariant again. -/
theorem Along.iff_of_invariant {next : σ → ι → σ} {P Q : σ → ι → Prop} {Inv : σ → Prop}
    (hstep : ∀ s i, Inv s → (P s i ↔ Q s i) ∧ (Q s i → Inv (next s i))) {s : σ} {is : List ι}
    (h : Inv s) : Along next P s is ↔ Along next Q s is := by
  induction is generalizing s with
  | nil => exact Iff.rfl
  | cons i is ih =>
    obtain ⟨hiff, hInv⟩ := hstep s i h
    constructor
    · rintro ⟨hP, hrest⟩
      have hQ := hiff.mp hP
      exact ⟨hQ, (ih (hInv hQ)).mp hrest⟩
    · rintro ⟨hQ, hrest⟩
      exact ⟨hiff.mpr hQ, (ih (hInv hQ)).mpr hrest⟩

/-- Inputs with choices that nothing controls: two properties hold along the same sequences of
inputs, whatever the choices, if they agree wherever the invariant holds and the one gives the
invariant again. -/
theorem Along.iff_of_choices {κ : Type*} {next : σ → ι × κ → σ} {P : σ → ι × κ → Prop}
    {Q : σ → ι → Prop} {Inv : σ → Prop} [Inhabited κ]
    (hstep : ∀ s i, Inv s → ((∀ c, P s (i, c)) ↔ Q s i) ∧ (Q s i → ∀ c, Inv (next s (i, c))))
    {s : σ} {is : List ι} (h : Inv s) :
    (∀ es : List (ι × κ), es.map Prod.fst = is → Along next P s es) ↔
      ∀ es : List (ι × κ), es.map Prod.fst = is → Along next (fun s e => Q s e.1) s es := by
  induction is generalizing s with
  | nil =>
    constructor <;>
    · intro _ es hes
      rw [List.map_eq_nil_iff.mp hes]
      trivial
  | cons i is ih =>
    obtain ⟨hiff, hInv⟩ := hstep s i h
    have hchosen : ∃ es : List (ι × κ), es.map Prod.fst = is :=
      ⟨is.map fun i => (i, default), by simp [Function.comp_def]⟩
    rcases hchosen with ⟨es₀, hes₀⟩
    constructor
    · intro hall es hes
      rcases List.map_eq_cons_iff.mp hes with ⟨⟨i', c⟩, es, rfl, rfl, hrest⟩
      have hQ : Q s i' := hiff.mp fun c' => (hall ((i', c') :: es₀) (by simp [hes₀])).1
      refine ⟨hQ, (ih (hInv hQ c)).mp (fun es' hes' => ?_) es hrest⟩
      exact (hall ((i', c) :: es') (by simp [hes'])).2
    · intro hall es hes
      rcases List.map_eq_cons_iff.mp hes with ⟨⟨i', c⟩, es, rfl, rfl, hrest⟩
      have hQ : Q s i' := (hall ((i', c) :: es₀) (by simp [hes₀])).1
      refine ⟨hiff.mpr hQ c, (ih (hInv hQ c)).mpr (fun es' hes' => ?_) es hrest⟩
      exact (hall ((i', c) :: es') (by simp [hes'])).2

theorem Along.of_forall {next : σ → ι → σ} {P : σ → ι → Prop} {s : σ} {is : List ι}
    (h : ∀ i ∈ is, ∀ s, P s i) : Along next P s is := by
  induction is generalizing s with
  | nil => trivial
  | cons i is ih =>
    exact ⟨h i List.mem_cons_self s, ih fun i hi => h i (List.mem_cons_of_mem _ hi)⟩

theorem Along.append_iff {next : σ → ι → σ} {P : σ → ι → Prop} {s : σ} {is js : List ι} :
    Along next P s (is ++ js) ↔ Along next P s is ∧ Along next P (is.foldl next s) js := by
  induction is generalizing s with
  | nil => exact (iff_of_eq (true_and _)).symm
  | cons i is ih =>
    rw [List.cons_append, Along, Along, ih, and_assoc]
    rfl

theorem Along.initial_segment {next : σ → ι → σ} {P : σ → ι → Prop} {s : σ} {is js : List ι}
    (h : Along next P s js) (hinit : is <+: js) : Along next P s is := by
  rcases hinit with ⟨rest, rfl⟩
  exact (Along.append_iff.mp h).1

/-! ## Traces -/

/-- Each step of a trace, from the state before it to the one it records, is in `R`. -/
def Steps (R : σ → ι → σ → Prop) : σ → List (ι × σ) → Prop
  | _, [] => True
  | s, (i, s') :: trace => R s i s' ∧ Steps R s' trace

/-- Two properties of steps hold along the same traces if they agree wherever the invariant holds,
and the one gives the invariant again. -/
theorem Steps.iff_of_invariant {R P Q : σ → ι → σ → Prop} {Inv : σ → Prop}
    (hstep : ∀ s i s', Inv s → R s i s' → (P s i s' ↔ Q s i s') ∧ (Q s i s' → Inv s')) {s : σ}
    {trace : List (ι × σ)} (h : Inv s) (hrun : Steps R s trace) :
    Steps P s trace ↔ Steps Q s trace := by
  induction trace generalizing s with
  | nil => exact Iff.rfl
  | cons step trace ih =>
    rcases step with ⟨i, s'⟩
    rcases hrun with ⟨hR, hrest⟩
    rcases hstep s i s' h hR with ⟨hiff, hInv⟩
    constructor
    · intro hP
      have hQ := hiff.mp hP.1
      exact ⟨hQ, (ih (hInv hQ) hrest).mp hP.2⟩
    · intro hQ
      exact ⟨hiff.mpr hQ.1, (ih (hInv hQ.1) hrest).mpr hQ.2⟩

/-! ## What is seen of a run -/

section Seen

variable {ω : Type*} [DecidableEq ω]

/-- What is seen of a run through `obs`, after its first state: each value that differs from the one
before it. -/
def seen (next : σ → ι → σ) (obs : σ → ω) : σ → List ι → List ω
  | _, [] => []
  | s, i :: is =>
    if obs (next s i) = obs s then seen next obs (next s i) is
    else obs (next s i) :: seen next obs (next s i) is

variable {next : σ → ι → σ} {obs : σ → ω} {s : σ} {is : List ι}

/-- A run whose steps change what is seen along `R` only is seen as a chain of `R`. -/
theorem seen_isChain {R : ω → ω → Prop}
    (hrun : Along next (fun s i => obs (next s i) = obs s ∨ R (obs s) (obs (next s i))) s is) :
    (obs s :: seen next obs s is).IsChain R := by
  induction is generalizing s with
  | nil => exact .singleton _
  | cons i is ih =>
    obtain ⟨hstep, hrest⟩ := hrun
    have hchain := ih hrest
    unfold seen
    split
    · next hsame =>
      rw [hsame] at hchain
      exact hchain
    · next hne => exact .cons_cons (hstep.resolve_left hne) hchain

theorem seen_getLast :
    (obs s :: seen next obs s is).getLast (List.cons_ne_nil _ _) = obs (is.foldl next s) := by
  induction is generalizing s with
  | nil => rfl
  | cons i is ih =>
    have hlast := @ih (next s i)
    rw [List.foldl_cons, ← hlast]
    by_cases hsame : obs (next s i) = obs s
    · simp only [seen, hsame, if_true]
    · simp only [seen, if_neg hsame]
      exact List.getLast_cons (List.cons_ne_nil _ _)

end Seen

/-! ## Simulation -/

/-- Related states answer every input alike, and stay related. -/
def Bisimulates (R : σ → τ → Prop) (step : σ → ι → Option (σ × ρ))
    (step' : τ → ι → Option (τ × ρ)) : Prop :=
  ∀ s t i, R s t → Option.Rel (fun a b => R a.1 b.1 ∧ a.2 = b.2) (step s i) (step' t i)

theorem Bisimulates.step_cases {R : σ → τ → Prop} {step : σ → ι → Option (σ × ρ)}
    {step' : τ → ι → Option (τ × ρ)} (hsim : Bisimulates R step step') {s : σ} {t : τ} (h : R s t)
    (i : ι) :
    step s i = none ∧ step' t i = none ∨
      ∃ s' t' r, step s i = some (s', r) ∧ step' t i = some (t', r) ∧ R s' t' := by
  have hrel := hsim s t i h
  rcases hs : step s i with _ | ⟨s', r⟩
  · rcases ht : step' t i with _ | b
    · exact .inl ⟨rfl, rfl⟩
    · rw [hs, ht] at hrel
      cases hrel
  · rcases ht : step' t i with _ | ⟨t', r'⟩
    · rw [hs, ht] at hrel
      cases hrel
    · rw [hs, ht] at hrel
      cases hrel with
      | some hrel =>
        rcases hrel with ⟨hR, hrr⟩
        dsimp only at hrr
        subst hrr
        exact .inr ⟨s', t', r, rfl, rfl, hR⟩

/-- A run of the one system is a run of the other, with the same answers. -/
theorem Bisimulates.run {R : σ → τ → Prop} {step : σ → ι → Option (σ × ρ)}
    {step' : τ → ι → Option (τ × ρ)} (hsim : Bisimulates R step step') {s s' : σ} {t : τ}
    {is : List ι} {rs : List ρ} (h : R s t) (hrun : runAll step s is = some (s', rs)) :
    ∃ t', runAll step' t is = some (t', rs) ∧ R s' t' := by
  induction is generalizing s t rs with
  | nil =>
    simp only [runAll, Option.some.injEq, Prod.mk.injEq] at hrun
    rcases hrun with ⟨rfl, rfl⟩
    exact ⟨t, rfl, h⟩
  | cons i is ih =>
    rcases runAll_cons_iff.mp hrun with ⟨s₁, r, rs', hs, hr, rfl⟩
    rcases hsim.step_cases h i with ⟨hnone, -⟩ | ⟨s₂, t₁, r', hs', ht, hR⟩
    · rw [hs] at hnone
      cases hnone
    · cases hs.symm.trans hs'
      rcases ih hR hr with ⟨t', ht', hR'⟩
      exact ⟨t', runAll_cons_iff.mpr ⟨t₁, r, rs', ht, ht', rfl⟩, hR'⟩

end Rdfm.Lib
