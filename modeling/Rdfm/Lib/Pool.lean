import Rdfm.Lib.Routine
import Rdfm.Lib.Transition

/-!
# Threads on one state

A pool has a shared state and threads, each a routine; a turn of a thread is its next call. Threads
can start at any time and take turns in any order, or never again.

What a pool keeps is found thread by thread. A contract has an invariant, what a thread may rely on
from the others and what it guarantees to them; a routine that keeps it between any two of its calls
(`Contract.Keeps`) does so in every pool of such routines (`Pool.Sound.run`). A routine may need more
of the state its calls find than the contract gives; it then keeps the contract in the runs that meet
this condition along the way (`Pool.SoundIf.run`).
-/

namespace Rdfm.Lib

variable {σ α β : Type}

structure Pool (σ α : Type) where
  shared : σ
  threads : List (Routine σ α)

/-- A thread starts, with its number, or takes a turn. -/
inductive PoolMove (σ α : Type) where
  | spawn (thread : Nat → Routine σ α)
  | turn (i : Nat)

def Pool.move (P : Pool σ α) : PoolMove σ α → Pool σ α
  | .spawn thread => { P with threads := P.threads ++ [thread P.threads.length] }
  | .turn i =>
    match P.threads[i]? with
    | some (.call effect next) => ⟨effect P.shared, P.threads.set i (next P.shared)⟩
    | _ => P

/-- What holds between the calls of all threads, what each thread may rely on and guarantees, what it
finds when it starts and what it has done when it ends. -/
structure Contract (σ α : Type) where
  inv : σ → Prop
  rely : Nat → σ → σ → Prop
  guarantee : Nat → σ → σ → Prop
  pre : Nat → σ → Prop
  post : Nat → α → σ → Prop
  rely_refl : ∀ i s, rely i s s
  rely_trans : ∀ i {s₁ s₂ s₃}, rely i s₁ s₂ → rely i s₂ s₃ → rely i s₁ s₃
  rely_of_guarantee : ∀ {i j}, i ≠ j → ∀ {s s'}, guarantee i s s' → rely j s s'
  pre_rely : ∀ {i s s'}, rely i s s' → pre i s → pre i s'
  post_rely : ∀ {i a s s'}, rely i s s' → post i a s → post i a s'

namespace Contract

variable (c : Contract σ α) (i : Nat)

/-- From this state on, the calls of the routine keep the invariant and the guarantee, and it ends
with `Q`. -/
def Obeys (Q : β → σ → Prop) : Routine σ β → σ → Prop
  | .ret b, s => Q b s
  | .call effect next, s => ∀ s', c.rely i s s' → c.inv s' →
    c.inv (effect s') ∧ c.guarantee i s' (effect s') ∧ Obeys Q (next s') (effect s')

/-- A thread that keeps the contract to its end. -/
def Keeps (p : Routine σ α) (s : σ) : Prop := c.Obeys i (c.post i) p s

variable {c i} {γ : Type} {Q : β → σ → Prop} {R : γ → σ → Prop} {s s' : σ}

theorem Obeys.bind {p : Routine σ β} {g : β → Routine σ γ}
    (h : c.Obeys i (fun b s => c.Obeys i R (g b) s) p s) : c.Obeys i R (p >>= g) s := by
  change c.Obeys i R (p.bind g) s
  induction p generalizing s with
  | ret b => exact h
  | call effect next ih =>
    intro s' hrely hinv
    rcases h s' hrely hinv with ⟨hinv', hguar, hnext⟩
    exact ⟨hinv', hguar, ih s' hnext⟩

/-! ### Under a condition -/

section

variable (c i) (A : Nat → σ → σ → Prop)

/-- As `Obeys`, as long as the calls of the routine meet `A`. -/
def ObeysIf (Q : β → σ → Prop) : Routine σ β → σ → Prop
  | .ret b, s => Q b s
  | .call effect next, s => ∀ s', c.rely i s s' → c.inv s' → A i s' (effect s') →
    c.inv (effect s') ∧ c.guarantee i s' (effect s') ∧ ObeysIf Q (next s') (effect s')

def KeepsIf (p : Routine σ α) (s : σ) : Prop := c.ObeysIf i A (c.post i) p s

end

variable {A : Nat → σ → σ → Prop}

theorem ObeysIf.bind {p : Routine σ β} {g : β → Routine σ γ}
    (h : c.ObeysIf i A (fun b s => c.ObeysIf i A R (g b) s) p s) : c.ObeysIf i A R (p >>= g) s := by
  change c.ObeysIf i A R (p.bind g) s
  induction p generalizing s with
  | ret b => exact h
  | call effect next ih =>
    intro s' hrely hinv hA
    rcases h s' hrely hinv hA with ⟨hinv', hguar, hnext⟩
    exact ⟨hinv', hguar, ih s' hnext⟩

theorem obeysIf_true_iff {p : Routine σ β} :
    c.ObeysIf i (fun _ _ _ => True) Q p s ↔ c.Obeys i Q p s := by
  induction p generalizing s with
  | ret b => exact Iff.rfl
  | call effect next ih =>
    constructor
    · intro h s' hrely hinv
      rcases h s' hrely hinv trivial with ⟨hinv', hguar, hnext⟩
      exact ⟨hinv', hguar, (ih s').mp hnext⟩
    · intro h s' hrely hinv _
      rcases h s' hrely hinv with ⟨hinv', hguar, hnext⟩
      exact ⟨hinv', hguar, (ih s').mpr hnext⟩

/-- A thread does not see what it may rely on. -/
theorem KeepsIf.stable {p : Routine σ α} (h : c.KeepsIf i A p s) (hrely : c.rely i s s') :
    c.KeepsIf i A p s' := by
  cases p with
  | ret a => exact c.post_rely hrely h
  | call effect next => exact fun s'' hrely' hinv => h s'' (c.rely_trans i hrely hrely') hinv

end Contract

/-! ## Pools under a contract -/

namespace Pool

variable {P : Pool σ α} {c : Contract σ α} {A : Nat → σ → σ → Prop} {i : Nat}

/-- Every thread has returned. -/
def Finished (P : Pool σ α) : Prop := ∀ p ∈ P.threads, ∃ a, p = .ret a

/-- The call of a turn meets `A`. -/
def Meets (A : Nat → σ → σ → Prop) (P : Pool σ α) : PoolMove σ α → Prop
  | .spawn _ => True
  | .turn i =>
    match P.threads[i]? with
    | some (.call effect _) => A i P.shared (effect P.shared)
    | _ => True

/-- The invariant holds, every thread keeps the contract under the condition, and the next one can
start. -/
structure SoundIf (c : Contract σ α) (A : Nat → σ → σ → Prop) (P : Pool σ α) : Prop where
  inv : c.inv P.shared
  keeps : ∀ (i : Nat) p, P.threads[i]? = some p → c.KeepsIf i A p P.shared
  pre : ∀ i, P.threads.length ≤ i → c.pre i P.shared

theorem SoundIf.spawn (h : SoundIf c A P) {thread : Nat → Routine σ α}
    (hthread : ∀ i s, c.inv s → c.pre i s → c.KeepsIf i A (thread i) s) :
    SoundIf c A (P.move (.spawn thread)) := by
  have hlength : (P.move (.spawn thread)).threads.length = P.threads.length + 1 :=
    List.length_append
  refine ⟨h.inv, fun i p hp => ?_, fun i hi => h.pre i (by omega)⟩
  have hp : (P.threads ++ [thread P.threads.length])[i]? = some p := hp
  rcases Nat.lt_or_ge i P.threads.length with hi | hi
  · rw [List.getElem?_append_left hi] at hp
    exact h.keeps i p hp
  · rw [List.getElem?_append_right hi, List.getElem?_singleton] at hp
    split at hp
    · next heq =>
      cases hp
      have hi' : i = P.threads.length := by omega
      rw [hi']
      exact hthread _ _ h.inv (h.pre _ (Nat.le_refl _))
    · cases hp

/-- A turn that meets the condition keeps the contract, and its guarantee. -/
theorem SoundIf.turn (h : SoundIf c A P) (i : Nat) (hA : P.Meets A (.turn i)) :
    SoundIf c A (P.move (.turn i)) ∧
      ((P.move (.turn i)).shared = P.shared ∨
        c.guarantee i P.shared (P.move (.turn i)).shared) := by
  unfold move
  dsimp only
  split
  · next effect next hi =>
    unfold Meets at hA
    dsimp only at hA
    rw [hi] at hA
    rcases h.keeps i _ hi P.shared (c.rely_refl i _) h.inv hA with ⟨hinv, hguar, hnext⟩
    have hlt : i < P.threads.length := (List.getElem?_eq_some_iff.mp hi).1
    refine ⟨⟨hinv, fun j p hp => ?_, fun j hj => ?_⟩, .inr hguar⟩
    · by_cases hij : i = j
      · subst hij
        rw [List.getElem?_set_self hlt] at hp
        cases hp
        exact hnext
      · rw [List.getElem?_set_ne hij] at hp
        exact (h.keeps j p hp).stable (c.rely_of_guarantee hij hguar)
    · rw [List.length_set] at hj
      exact c.pre_rely (c.rely_of_guarantee (by omega) hguar) (h.pre j hj)
  · exact ⟨h, .inl rfl⟩

/-- A pool of such threads keeps the contract in every run that meets the condition. -/
theorem SoundIf.run (h : SoundIf c A P) {moves : List (PoolMove σ α)}
    (hmoves : ∀ thread, .spawn thread ∈ moves →
      ∀ i s, c.inv s → c.pre i s → c.KeepsIf i A (thread i) s)
    (hA : Along move (Meets A) P moves) : SoundIf c A (moves.foldl move P) := by
  induction moves generalizing P with
  | nil => exact h
  | cons m moves ih =>
    refine ih ?_ (fun thread hthread => hmoves thread (List.mem_cons_of_mem _ hthread)) hA.2
    cases m with
    | spawn thread => exact h.spawn (hmoves thread List.mem_cons_self)
    | turn i => exact (h.turn i hA.1).1

/-- Once every thread has returned, each has kept its postcondition. -/
theorem SoundIf.finished (h : SoundIf c A P) (hfinished : P.Finished) (i : Nat) :
    (∃ a, c.post i a P.shared) ∨ c.pre i P.shared := by
  rcases Nat.lt_or_ge i P.threads.length with hi | hi
  · rcases hfinished _ (List.getElem_mem hi) with ⟨a, ha⟩
    have hkeeps := h.keeps i _ (List.getElem?_eq_getElem hi)
    rw [ha] at hkeeps
    exact .inl ⟨a, hkeeps⟩
  · exact .inr (h.pre i hi)

/-- The invariant holds, every thread keeps the contract, and the next one can start. -/
structure Sound (c : Contract σ α) (P : Pool σ α) : Prop where
  inv : c.inv P.shared
  keeps : ∀ (i : Nat) p, P.threads[i]? = some p → c.Keeps i p P.shared
  pre : ∀ i, P.threads.length ≤ i → c.pre i P.shared

theorem soundIf_true_iff : SoundIf c (fun _ _ _ => True) P ↔ Sound c P :=
  ⟨fun h => ⟨h.inv, fun i p hp => Contract.obeysIf_true_iff.mp (h.keeps i p hp), h.pre⟩,
    fun h => ⟨h.inv, fun i p hp => Contract.obeysIf_true_iff.mpr (h.keeps i p hp), h.pre⟩⟩

theorem meets_true {m : PoolMove σ α} : P.Meets (fun _ _ _ => True) m := by
  cases m with
  | spawn thread => trivial
  | turn i =>
    unfold Meets
    dsimp only
    split <;> trivial

/-- A turn keeps the contract, and its guarantee. -/
theorem Sound.turn (h : Sound c P) (i : Nat) :
    Sound c (P.move (.turn i)) ∧
      ((P.move (.turn i)).shared = P.shared ∨
        c.guarantee i P.shared (P.move (.turn i)).shared) := by
  rcases (soundIf_true_iff.mpr h).turn i meets_true with ⟨hsound, hguar⟩
  exact ⟨soundIf_true_iff.mp hsound, hguar⟩

/-- Every pool of such threads keeps the contract. -/
theorem Sound.run (h : Sound c P) {moves : List (PoolMove σ α)}
    (hmoves : ∀ thread, .spawn thread ∈ moves →
      ∀ i s, c.inv s → c.pre i s → c.Keeps i (thread i) s) :
    Sound c (moves.foldl move P) := by
  have hall (P : Pool σ α) : Along move (Meets fun _ _ _ => True) P moves := by
    induction moves generalizing P with
    | nil => trivial
    | cons m moves ih =>
      exact ⟨meets_true, ih (fun thread hthread => hmoves thread (List.mem_cons_of_mem _ hthread)) _⟩
  refine soundIf_true_iff.mp ((soundIf_true_iff.mpr h).run (fun thread hthread i s hinv hpre => ?_)
    (hall P))
  exact Contract.obeysIf_true_iff.mpr (hmoves thread hthread i s hinv hpre)

end Pool

end Rdfm.Lib
