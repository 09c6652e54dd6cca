import Mathlib.Algebra.Order.BigOperators.Group.Finset
import Mathlib.Data.Fintype.Basic
import Mathlib.Logic.Function.Iterate

/-!
# Routines, and forks of them

A routine makes calls on a state one after the other and returns a result. A job runs a routine once,
or again and again until its result says that it is done. A fork runs one job for each index, on a
state of its own, in any order of calls, and collects the last error that arrives.

The jobs of a fork do not see each other, so the order decides nothing but which error is last: a
fork that ends leaves every job where it would be alone (`fork_outcome`), and it ends in every order
that gives each job enough turns if every job alone ends (`fork_enough`).
-/

namespace Rdfm.Lib

/-! ## Routines -/

/-- Calls on a state, and a result. What follows a call depends on the state the call finds. -/
inductive Routine (σ α : Type) where
  | ret (a : α)
  | call (effect : σ → σ) (next : σ → Routine σ α)

namespace Routine

variable {σ α β : Type}

def bind : Routine σ α → (α → Routine σ β) → Routine σ β
  | ret a, g => g a
  | call effect next, g => call effect fun s => (next s).bind g

instance : Monad (Routine σ) where
  pure := ret
  bind := bind

/-- The whole routine, without a pause. -/
def exec : Routine σ α → σ → σ × α
  | ret a, s => (s, a)
  | call effect next, s => (next s).exec (effect s)

@[simp] theorem exec_pure (a : α) (s : σ) : (pure a : Routine σ α).exec s = (s, a) := rfl

@[simp] theorem exec_bind (p : Routine σ α) (g : α → Routine σ β) (s : σ) :
    (p >>= g).exec s = (g (p.exec s).2).exec (p.exec s).1 := by
  change (p.bind g).exec s = _
  induction p generalizing s with
  | ret a => rfl
  | call effect next ih => exact ih s (effect s)

/-- A routine that can fail stops at its first error. -/
theorem exec_run_bind {ε : Type} (p : ExceptT ε (Routine σ) α) (g : α → ExceptT ε (Routine σ) β)
    (s : σ) :
    (p >>= g).run.exec s =
      match (p.run.exec s).2 with
      | .ok a => (g a).run.exec (p.run.exec s).1
      | .error e => ((p.run.exec s).1, .error e) := by
  rw [ExceptT.run_bind, exec_bind]
  cases (p.run.exec s).2 <;> rfl

theorem exec_run_lift {ε : Type} (p : Routine σ α) (s : σ) :
    (liftM p : ExceptT ε (Routine σ) α).run.exec s = ((p.exec s).1, .ok (p.exec s).2) :=
  exec_bind p (fun a => pure (Except.ok a : Except ε α)) s

end Routine

/-! ## Jobs -/

/-- A routine that is run until its result is an answer. -/
structure Job (σ α ρ : Type) where
  routine : Routine σ α
  ends : α → Option ρ

/-- A job under way. -/
inductive Thread (σ α ρ : Type) where
  | running (s : σ) (rest : Routine σ α)
  | finished (s : σ) (r : ρ)

namespace Thread

variable {σ α ρ : Type}

def state : Thread σ α ρ → σ
  | running s _ => s
  | finished s _ => s

def answer : Thread σ α ρ → Option ρ
  | running _ _ => none
  | finished _ r => some r

theorem eq_finished {t : Thread σ α ρ} {r : ρ} (h : t.answer = some r) : t = .finished t.state r := by
  cases t with
  | running s p => cases h
  | finished s r' =>
    cases h
    rfl

end Thread

namespace Job

variable {σ α ρ : Type} (j : Job σ α ρ)

/-- One turn: a call, or the end of the routine. -/
def step : Thread σ α ρ → Thread σ α ρ
  | .running s (.call effect next) => .running (effect s) (next s)
  | .running s (.ret a) =>
    match j.ends a with
    | some r => .finished s r
    | none => .running s j.routine
  | .finished s r => .finished s r

/-- Started on `s` alone, the job ends in `s'` with the answer `r`. -/
def Ends (s s' : σ) (r : ρ) : Prop := ∃ k, j.step^[k] (.running s j.routine) = .finished s' r

variable {j} {s s' s₁ s₂ : σ} {r r₁ r₂ : ρ}

theorem iterate_finished (k : Nat) : j.step^[k] (.finished s r) = .finished s r :=
  Function.iterate_fixed rfl k

/-- A finished job stays as it is. -/
theorem iterate_of_le {t : Thread σ α ρ} {k m : Nat} (hkm : k ≤ m)
    (h : j.step^[k] t = .finished s r) : j.step^[m] t = .finished s r := by
  rw [← Nat.sub_add_cancel hkm, Function.iterate_add_apply, h, iterate_finished]

theorem Ends.unique (h₁ : j.Ends s s₁ r₁) (h₂ : j.Ends s s₂ r₂) : s₁ = s₂ ∧ r₁ = r₂ := by
  rcases h₁ with ⟨k, hk⟩
  rcases h₂ with ⟨m, hm⟩
  have h := (iterate_of_le (Nat.le_max_left k m) hk).symm.trans
    (iterate_of_le (Nat.le_max_right k m) hm)
  cases h
  exact ⟨rfl, rfl⟩

/-- The calls of a routine, up to its result. -/
theorem iterate_exec (p : Routine σ α) (s : σ) :
    ∃ k, j.step^[k] (.running s p) = .running (p.exec s).1 (.ret (p.exec s).2) := by
  induction p generalizing s with
  | ret a => exact ⟨0, rfl⟩
  | call effect next ih =>
    rcases ih s (effect s) with ⟨k, hk⟩
    exact ⟨k + 1, hk⟩

/-- The routine comes to an answer. -/
theorem ends_of_exec (h : j.ends (j.routine.exec s).2 = some r) :
    j.Ends s (j.routine.exec s).1 r := by
  rcases iterate_exec (j := j) j.routine s with ⟨k, hk⟩
  refine ⟨k + 1, ?_⟩
  rw [Function.iterate_succ_apply', hk, step, h]

/-- The routine comes to no answer, and the job starts again. -/
theorem iterate_again (h : j.ends (j.routine.exec s).2 = none) :
    ∃ k, j.step^[k + 1] (.running s j.routine) = .running (j.routine.exec s).1 j.routine := by
  rcases iterate_exec (j := j) j.routine s with ⟨k, hk⟩
  refine ⟨k, ?_⟩
  rw [Function.iterate_succ_apply', hk, step, h]

theorem ends_again (h : j.ends (j.routine.exec s).2 = none) (hend : j.Ends (j.routine.exec s).1 s' r) :
    j.Ends s s' r := by
  rcases iterate_again h with ⟨k, hk⟩
  rcases hend with ⟨m, hm⟩
  refine ⟨m + (k + 1), ?_⟩
  rw [Function.iterate_add_apply, hk, hm]

/-- The state before the `n`-th run of the routine. -/
def before (j : Job σ α ρ) (s : σ) (n : Nat) : σ := (fun s => (j.routine.exec s).1)^[n] s

/-- A job ends in its first run that comes to an answer. -/
theorem ends_iff : j.Ends s s' r ↔ ∃ n, (∀ m < n, j.ends (j.routine.exec (j.before s m)).2 = none) ∧
    j.ends (j.routine.exec (j.before s n)).2 = some r ∧
    s' = (j.routine.exec (j.before s n)).1 := by
  constructor
  · rintro ⟨k, hk⟩
    -- on the number of turns: a run without an answer takes at least one of them
    induction k using Nat.strong_induction_on generalizing s with
    | _ k ih =>
      cases hend : j.ends (j.routine.exec s).2 with
      | some r' =>
        rcases (ends_of_exec hend).unique ⟨k, hk⟩ with ⟨hs, rfl⟩
        exact ⟨0, fun m hm => absurd hm (Nat.not_lt_zero m), hend, hs.symm⟩
      | none =>
        rcases iterate_again hend with ⟨m, hm⟩
        have hlt : m + 1 < k := by
          by_contra hle
          have := (iterate_of_le (by omega : k ≤ m + 1) hk).symm.trans hm
          cases this
        have hrest : j.step^[k - (m + 1)] (.running (j.routine.exec s).1 j.routine) =
            .finished s' r := by
          rw [← hm, ← Function.iterate_add_apply, Nat.sub_add_cancel (Nat.le_of_lt hlt)]
          exact hk
        rcases ih _ (by omega) hrest with ⟨n, hnone, hsome, hs'⟩
        refine ⟨n + 1, ?_, hsome, hs'⟩
        intro i hi
        cases i with
        | zero => exact hend
        | succ i => exact hnone i (by omega)
  · rintro ⟨n, hnone, hsome, rfl⟩
    induction n generalizing s with
    | zero => exact ends_of_exec hsome
    | succ n ih =>
      apply ends_again (hnone 0 (Nat.succ_pos n))
      exact ih (fun m hm => hnone (m + 1) (by omega)) hsome

/-- A job that passes through the states `S` as long as it goes on ends at the first of them where it
stops. -/
theorem ends_along_iff (S : Nat → σ)
    (hS : ∀ n, j.ends (j.routine.exec (S n)).2 = none → (j.routine.exec (S n)).1 = S (n + 1)) :
    j.Ends (S 0) s' r ↔ ∃ n, (∀ m < n, j.ends (j.routine.exec (S m)).2 = none) ∧
      j.ends (j.routine.exec (S n)).2 = some r ∧ s' = (j.routine.exec (S n)).1 := by
  rw [ends_iff]
  have hbefore : ∀ n, ((∀ m < n, j.ends (j.routine.exec (S m)).2 = none) ∨
      ∀ m < n, j.ends (j.routine.exec (j.before (S 0) m)).2 = none) →
      ∀ m ≤ n, j.before (S 0) m = S m := by
    intro n h m
    induction m with
    | zero => exact fun _ => rfl
    | succ m ih =>
      intro hm
      have hm' := ih (by omega)
      have hnone : j.ends (j.routine.exec (S m)).2 = none := by
        rcases h with h | h
        · exact h m (by omega)
        · rw [← hm']
          exact h m (by omega)
      rw [before, Function.iterate_succ_apply']
      change (j.routine.exec (j.before (S 0) m)).1 = _
      rw [hm', hS m hnone]
  constructor
  · rintro ⟨n, hnone, hsome, hs'⟩
    have hall := hbefore n (.inr hnone)
    refine ⟨n, ?_, by rw [← hall n le_rfl]; exact hsome, by rw [← hall n le_rfl]; exact hs'⟩
    intro m hm
    rw [← hall m (by omega)]
    exact hnone m hm
  · rintro ⟨n, hnone, hsome, hs'⟩
    have hall := hbefore n (.inl hnone)
    refine ⟨n, ?_, by rw [hall n le_rfl]; exact hsome, by rw [hall n le_rfl]; exact hs'⟩
    intro m hm
    rw [hall m (by omega)]
    exact hnone m hm

/-- It ends if it stops at one of the states at all. -/
theorem exists_ends_along_iff (S : Nat → σ)
    (hS : ∀ n, j.ends (j.routine.exec (S n)).2 = none → (j.routine.exec (S n)).1 = S (n + 1)) :
    (∃ s' r, j.Ends (S 0) s' r) ↔ ∃ n, j.ends (j.routine.exec (S n)).2 ≠ none := by
  classical
  constructor
  · rintro ⟨s', r, h⟩
    rcases (ends_along_iff S hS).mp h with ⟨n, -, hsome, -⟩
    exact ⟨n, by rw [hsome]; exact Option.some_ne_none r⟩
  · intro h
    rcases Option.ne_none_iff_exists'.mp (Nat.find_spec h) with ⟨r, hr⟩
    refine ⟨_, r, (ends_along_iff S hS).mpr ⟨Nat.find h, ?_, hr, rfl⟩⟩
    intro m hm
    exact not_not.mp (Nat.find_min h hm)

end Job

/-! ## Forks -/

section Forks

variable {ι σ α ε : Type} [DecidableEq ι]

/-- The threads of a fork, and the last error that arrived. -/
structure Fork (ι σ α ε : Type) where
  threads : ι → Thread σ α (Option ε)
  err : Option ε

/-- What a thread sends with its next turn. -/
def Job.sends (j : Job σ α (Option ε)) : Thread σ α (Option ε) → Option ε
  | .running _ (.ret a) => (j.ends a).join
  | _ => none

namespace Fork

def step (jobs : ι → Job σ α (Option ε)) (F : Fork ι σ α ε) (i : ι) : Fork ι σ α ε where
  threads := Function.update F.threads i ((jobs i).step (F.threads i))
  err := ((jobs i).sends (F.threads i)).or F.err

/-- The turns that the schedule gives. -/
def run (jobs : ι → Job σ α (Option ε)) (F : Fork ι σ α ε) (sched : List ι) : Fork ι σ α ε :=
  sched.foldl (step jobs) F

def start (jobs : ι → Job σ α (Option ε)) (s : ι → σ) : Fork ι σ α ε :=
  ⟨fun i => .running (s i) (jobs i).routine, none⟩

/-- The states and the error, once every thread is finished. -/
def outcome [Fintype ι] (F : Fork ι σ α ε) : Option ((ι → σ) × Option ε) :=
  if ∀ i, (F.threads i).answer.isSome then some (fun i => (F.threads i).state, F.err) else none

end Fork

/-- Runs a job for each index, in the order of the schedule. -/
def fork [Fintype ι] (jobs : ι → Job σ α (Option ε)) (s : ι → σ) (sched : List ι) :
    Option ((ι → σ) × Option ε) :=
  ((Fork.start jobs s).run jobs sched).outcome

variable {jobs : ι → Job σ α (Option ε)} {s s' : ι → σ} {r : ι → Option ε}

/-- A thread is where its own turns bring it. -/
theorem Fork.run_threads (F : Fork ι σ α ε) (sched : List ι) (i : ι) :
    (F.run jobs sched).threads i = (jobs i).step^[sched.count i] (F.threads i) := by
  induction sched generalizing F with
  | nil => rfl
  | cons i' sched ih =>
    change ((F.step jobs i').run jobs sched).threads i = _
    rw [ih]
    by_cases h : i' = i
    · subst h
      rw [List.count_cons_self, Function.iterate_succ_apply]
      simp [Fork.step]
    · rw [List.count_cons_of_ne h]
      simp [Fork.step, Function.update_of_ne (Ne.symm h)]

/-- The error is that of some finished thread, and there is none only if no finished thread has
one. -/
structure Fork.Collects (F : Fork ι σ α ε) : Prop where
  err_of : ∀ e, F.err = some e → ∃ i, (F.threads i).answer = some (some e)
  of_err : F.err = none → ∀ i e, (F.threads i).answer ≠ some (some e)

theorem Job.sends_eq_some_iff {j : Job σ α (Option ε)} {t : Thread σ α (Option ε)} {e : ε} :
    j.sends t = some e ↔ t.answer = none ∧ (j.step t).answer = some (some e) := by
  rcases t with ⟨s, ⟨a⟩ | ⟨effect, next⟩⟩ | ⟨s, r⟩
  · cases h : j.ends a with
    | none => simp [Job.sends, Job.step, Thread.answer, h]
    | some r => simp [Job.sends, Job.step, Thread.answer, h]
  · simp [Job.sends, Job.step, Thread.answer]
  · simp [Job.sends, Thread.answer]

theorem Fork.collects_step {F : Fork ι σ α ε} (h : F.Collects) (i : ι) :
    (F.step jobs i).Collects := by
  have hkeep : ∀ i' r, (F.threads i').answer = some r →
      ((F.step jobs i).threads i').answer = some r := by
    intro i' r hr
    by_cases hi : i' = i
    · subst hi
      have := Thread.eq_finished hr
      simp only [Fork.step, Function.update_self]
      rw [this]
      rfl
    · simpa only [Fork.step, Function.update_of_ne hi] using hr
  constructor
  · intro e he
    rcases Option.or_eq_some_iff.mp he with hsend | ⟨-, herr⟩
    · refine ⟨i, ?_⟩
      simp only [Fork.step, Function.update_self]
      exact (Job.sends_eq_some_iff.mp hsend).2
    · rcases h.err_of e herr with ⟨i', hi'⟩
      exact ⟨i', hkeep i' _ hi'⟩
  · intro hnone i' e he
    rcases Option.or_eq_none_iff.mp hnone with ⟨hsend, herr⟩
    by_cases hi : i' = i
    · subst hi
      simp only [Fork.step, Function.update_self] at he
      cases hans : (F.threads i').answer with
      | none =>
        have := Job.sends_eq_some_iff.mpr ⟨hans, he⟩
        rw [hsend] at this
        cases this
      | some r =>
        have hstep := hkeep i' r hans
        simp only [Fork.step, Function.update_self] at hstep
        rw [hstep] at he
        cases he
        exact h.of_err herr i' e hans
    · simp only [Fork.step, Function.update_of_ne hi] at he
      exact h.of_err herr i' e he

theorem Fork.collects_run {F : Fork ι σ α ε} (h : F.Collects) (sched : List ι) :
    (F.run jobs sched).Collects := by
  induction sched generalizing F with
  | nil => exact h
  | cons i sched ih => exact ih (collects_step h i)

variable [Fintype ι]

/-- A fork that ends leaves every job where it would be alone. -/
theorem fork_outcome {sched : List ι} {err : Option ε} (hends : ∀ i, (jobs i).Ends (s i) (s' i) (r i))
    {s'' : ι → σ} (h : fork jobs s sched = some (s'', err)) :
    s'' = s' ∧ (err = none ↔ ∀ i, r i = none) ∧ (∀ e, err = some e → ∃ i, r i = some e) := by
  unfold fork Fork.outcome at h
  split at h
  · next hdone =>
    rcases Prod.mk.inj (Option.some.inj h) with ⟨rfl, rfl⟩
    have hall : ∀ i, ((Fork.start jobs s).run jobs sched).threads i = .finished (s' i) (r i) := by
      intro i
      rcases Option.isSome_iff_exists.mp (hdone i) with ⟨r', hr'⟩
      have hfin := Thread.eq_finished hr'
      rw [Fork.run_threads] at hfin
      rcases Job.Ends.unique ⟨_, hfin⟩ (hends i) with ⟨hs, hr⟩
      rw [Fork.run_threads, hfin, ← hr, ← hs]
    have hcollects : ((Fork.start jobs s).run jobs sched).Collects := by
      apply Fork.collects_run
      exact ⟨nofun, fun _ _ _ => nofun⟩
    refine ⟨funext fun i => by rw [hall i]; rfl, ⟨?_, ?_⟩, ?_⟩
    · intro hnone i
      cases hr : r i with
      | none => rfl
      | some e =>
        exact absurd (by rw [hall i, hr]; rfl) (hcollects.of_err hnone i e)
    · intro hnone
      cases herr : ((Fork.start jobs s).run jobs sched).err with
      | none => rfl
      | some e =>
        rcases hcollects.err_of e herr with ⟨i, hi⟩
        rw [hall i, hnone i] at hi
        cases hi
    · intro e he
      rcases hcollects.err_of e he with ⟨i, hi⟩
      rw [hall i] at hi
      exact ⟨i, Option.some.inj hi⟩
  · cases h

/-- A fork whose jobs end ends in every order that gives each of them enough turns. -/
theorem fork_enough (hends : ∀ i, ∃ s' r, (jobs i).Ends (s i) s' r) :
    ∃ N, ∀ sched : List ι, (∀ i, N ≤ sched.count i) → (fork jobs s sched).isSome := by
  choose s' r turns hturns using hends
  refine ⟨∑ i, turns i, ?_⟩
  intro sched hsched
  unfold fork Fork.outcome
  rw [if_pos]
  · rfl
  · intro i
    have hle : turns i ≤ sched.count i :=
      (Finset.single_le_sum (fun _ _ => Nat.zero_le _) (Finset.mem_univ i)).trans (hsched i)
    rw [Fork.run_threads, Fork.start, Job.iterate_of_le hle (hturns i)]
    rfl

/-- A fork with a job that never ends does not end. -/
theorem fork_ends {sched : List ι} (h : (fork jobs s sched).isSome) (i : ι) :
    ∃ s' r, (jobs i).Ends (s i) s' r := by
  unfold fork Fork.outcome at h
  split at h
  · next hdone =>
    rcases Option.isSome_iff_exists.mp (hdone i) with ⟨r, hr⟩
    have hfin := Thread.eq_finished hr
    rw [Fork.run_threads] at hfin
    exact ⟨_, _, _, hfin⟩
  · cases h

end Forks

/-! ## Whatever the order -/

section Orders

variable {κ ι β γ : Type} [DecidableEq ι]

/-- Each of the schedules gives each index at least `N` turns. -/
def Enough (N : Nat) (sched : κ → List ι) : Prop := ∀ k i, N ≤ (sched k).count i

/-- With `N` turns for each index `p` ends, and however it ends, `Q` holds. -/
structure SurelyIn (N : Nat) (p : (κ → List ι) → Option β) (Q : β → Prop) : Prop where
  ends : ∀ sched, Enough N sched → (p sched).isSome
  post : ∀ sched b, p sched = some b → Q b

/-- In every order `p` ends, given enough turns, and `Q` holds then. -/
def Surely (p : (κ → List ι) → Option β) (Q : β → Prop) : Prop := ∃ N, SurelyIn N p Q

variable {N M : Nat} {p : (κ → List ι) → Option β} {q : β → (κ → List ι) → Option γ}
  {P Q : β → Prop} {R : γ → Prop} {b : β}

theorem SurelyIn.mono (h : SurelyIn N p P) (hN : N ≤ M) : SurelyIn M p P :=
  ⟨fun sched hs => h.ends sched fun k i => hN.trans (hs k i), h.post⟩

theorem surelyIn_some (h : Q b) : SurelyIn N (fun _ : κ → List ι => some b) Q :=
  ⟨fun _ _ => rfl, fun _ _ hb => Option.some.inj hb ▸ h⟩

theorem SurelyIn.bind (hp : SurelyIn N p P) (hq : ∀ b, P b → SurelyIn N (q b) R) :
    SurelyIn N (fun sched => p sched >>= fun b => q b sched) R := by
  constructor
  · intro sched hs
    rcases Option.isSome_iff_exists.mp (hp.ends sched hs) with ⟨b, hb⟩
    rw [hb]
    exact (hq b (hp.post sched b hb)).ends sched hs
  · intro sched c hc
    rcases Option.bind_eq_some_iff.mp hc with ⟨b, hb, hc⟩
    exact (hq b (hp.post sched b hb)).post sched c hc

/-- One phase after the other: the turns for the second do not depend on how the first ended. -/
theorem Surely.bind (hp : Surely p P) (hq : ∃ M, ∀ b, P b → SurelyIn M (q b) R) :
    Surely (fun sched => p sched >>= fun b => q b sched) R := by
  rcases hp with ⟨N, hp⟩
  rcases hq with ⟨M, hq⟩
  refine ⟨max N M, (hp.mono (Nat.le_max_left N M)).bind fun b hb => ?_⟩
  exact (hq b hb).mono (Nat.le_max_right N M)

/-- What never ends after the first phase never ends. -/
theorem Surely.bind_never (hp : Surely p P) {sched : κ → List ι}
    (hq : ∀ b, P b → q b sched = none) : (p sched >>= fun b => q b sched) = none := by
  rcases hp with ⟨N, hp⟩
  cases hrun : p sched with
  | none => rfl
  | some b => exact hq b (hp.post sched b hrun)

theorem Surely.imp (h : Surely p P) (hPQ : ∀ b, P b → Q b) : Surely p Q := by
  rcases h with ⟨N, h⟩
  exact ⟨N, h.ends, fun sched b hb => hPQ b (h.post sched b hb)⟩

variable [Fintype ι]

theorem exists_enough (N : Nat) : ∃ sched : κ → List ι, Enough N sched := by
  refine ⟨fun _ => (List.replicate N Finset.univ.toList).flatten, ?_⟩
  intro k i
  dsimp only
  induction N with
  | zero => exact Nat.zero_le _
  | succ N ih =>
    have hmem : 0 < (Finset.univ.toList : List ι).count i :=
      List.count_pos_iff.mpr (Finset.mem_toList.mpr (Finset.mem_univ i))
    rw [List.replicate_succ, List.flatten_cons, List.count_append]
    omega

/-- Two postconditions meet. -/
theorem Surely.meet (hP : Surely p P) (hQ : Surely p Q) : ∃ b, P b ∧ Q b := by
  rcases hP with ⟨N, hP⟩
  rcases hQ with ⟨M, hQ⟩
  have henough : ∃ sched : κ → List ι, Enough N sched := exists_enough N
  rcases henough with ⟨sched, hs⟩
  rcases Option.isSome_iff_exists.mp (hP.ends sched hs) with ⟨b, hb⟩
  exact ⟨b, hP.post sched b hb, hQ.post sched b hb⟩

theorem Surely.exists_some (h : Surely p P) : ∃ sched b, p sched = some b := by
  rcases h with ⟨N, h⟩
  have henough : ∃ sched : κ → List ι, Enough N sched := exists_enough N
  rcases henough with ⟨sched, hs⟩
  exact ⟨sched, Option.isSome_iff_exists.mp (h.ends sched hs)⟩

/-- A fork whose jobs end. -/
theorem fork_surely {σ α ε : Type} {jobs : ι → Job σ α (Option ε)} {s s' : ι → σ}
    {r : ι → Option ε} (hends : ∀ i, (jobs i).Ends (s i) (s' i) (r i)) (k : κ) :
    Surely (fun sched : κ → List ι => fork jobs s (sched k)) fun out =>
      out.1 = s' ∧ (out.2 = none ↔ ∀ i, r i = none) ∧ ∀ e, out.2 = some e → ∃ i, r i = some e := by
  rcases fork_enough fun i => ⟨s' i, r i, hends i⟩ with ⟨N, hN⟩
  exact ⟨N, fun sched hs => hN (sched k) (hs k), fun sched out hout => fork_outcome hends hout⟩

end Orders

end Rdfm.Lib
