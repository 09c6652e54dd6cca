import Rdfm.Lib.IndexedMap
import Rdfm.Lib.Transition

/-!
# Shell sessions

`ShellRunner` counts shell sessions with a semaphore and keeps them by the id that the server gives.
A `Spawn` takes a permit, starts a process and then records the session under the lock; between these
steps other calls go on. A process that does not start keeps its permit, and a session that is
recorded under an id that is taken hides the earlier one, which cannot be terminated any more.
Permits and sessions agree exactly as long as every process starts and no id is recorded twice
(`shell_permits_iff`).
-/

namespace Rdfm.Linux

open Rdfm.Lib

/-! ## The runner -/

/-- A `ShellSession`, by the order of the starts. -/
abbrev SessionNumber := Nat

/-- A `Spawn` that has its permit. -/
inductive SpawnCall where
  | acquired (uuid : String)
  | started (uuid : String) (session : SessionNumber)
deriving DecidableEq, Repr

/-- The runner, the calls of `Spawn` in progress, and the sessions whose process runs. -/
structure ShellRunner where
  /-- The size of `shellCount`. -/
  limit : Int
  /-- The permits that are taken. -/
  held : Nat
  sessions : Entries String SessionNumber
  spawning : List SpawnCall
  live : List (SessionNumber × String)
  /-- The number of the next session. -/
  next : SessionNumber
deriving DecidableEq, Repr

inductive ShellStep where
  /-- `Spawn`, up to its permit. -/
  | acquire (uuid : String)
  /-- `NewShellSession` in one of the calls in progress, which fails or not. -/
  | startSession (i : Nat) (ok : Bool)
  /-- The rest of a `Spawn`, under the lock. -/
  | record (i : Nat)
  | terminate (uuid : String)
  /-- The process of a session ends on its own. -/
  | exits (session : SessionNumber)
deriving DecidableEq, Repr

namespace ShellRunner

def newShellRunner (limit : Int) : ShellRunner := ⟨limit, 0, [], [], [], 0⟩

/-- One step; `none` is the panic of a semaphore that is released more than it was acquired. -/
def step (s : ShellRunner) : ShellStep → Option ShellRunner
  | .acquire uuid =>
    if (s.held : Int) < s.limit then
      some { s with held := s.held + 1, spawning := s.spawning ++ [.acquired uuid] }
    else some s
  | .startSession i ok =>
    match s.spawning[i]? with
    | some (.acquired uuid) =>
      if ok then
        some { s with
          spawning := s.spawning.set i (.started uuid s.next)
          live := s.live ++ [(s.next, uuid)]
          next := s.next + 1 }
      else some { s with spawning := s.spawning.eraseIdx i }
    | _ => some s
  | .record i =>
    match s.spawning[i]? with
    | some (.started uuid session) =>
      some { s with spawning := s.spawning.eraseIdx i, sessions := s.sessions.set uuid session }
    | _ => some s
  | .terminate uuid =>
    match s.sessions.get? uuid with
    | none => some s
    | some session =>
      if 0 < s.held then
        some { s with
          held := s.held - 1
          sessions := s.sessions.erase uuid
          live := s.live.filter fun e => e.1 ≠ session }
      else none
  | .exits session => some { s with live := s.live.filter fun e => e.1 ≠ session }

/-- The runner after a step; `none` once it has panicked. -/
def after (s : Option ShellRunner) (e : ShellStep) : Option ShellRunner := s.bind fun s => s.step e

/-! ## Permits and sessions -/

def freePermits (s : ShellRunner) : Int := s.limit - s.held

/-- The permits are those of the tracked sessions and of the calls in progress, a session that runs
can be terminated under its id, and no `Terminate` releases too much. -/
structure Balanced (s : ShellRunner) : Prop where
  permits : s.freePermits + s.sessions.length + s.spawning.length = s.limit
  tracked : ∀ session uuid, (session, uuid) ∈ s.live →
    s.sessions.get? uuid = some session ∨ .started uuid session ∈ s.spawning
  released : ∀ uuid, s.step (.terminate uuid) ≠ none

def BalancedAfter (s : Option ShellRunner) (e : ShellStep) : Prop := ∃ s', after s e = some s' ∧ s'.Balanced

/-- A process that is started starts, and a session is recorded under an id that is free. -/
def Distinct (s : ShellRunner) : ShellStep → Prop
  | .startSession i ok => (∃ uuid, s.spawning[i]? = some (.acquired uuid)) → ok = true
  | .record i => ∀ uuid session, s.spawning[i]? = some (.started uuid session) →
    s.sessions.get? uuid = none
  | _ => True

def DistinctStep (s : Option ShellRunner) (e : ShellStep) : Prop := ∀ s' ∈ s, s'.Distinct e

/-! ## Steps -/

/-- What the steps rely on. -/
structure Counted (limit : Int) (s : ShellRunner) : Prop where
  limit : s.limit = limit
  held : s.held = s.sessions.length + s.spawning.length
  nodup : (s.sessions.map Prod.fst).Nodup
  tracked : ∀ session uuid, (session, uuid) ∈ s.live →
    s.sessions.get? uuid = some session ∨ .started uuid session ∈ s.spawning

variable {limit : Int} {s : ShellRunner}

theorem Counted.terminates (h : Counted limit s) {uuid : String} {session : SessionNumber}
    (hget : s.sessions.get? uuid = some session) : 0 < s.held := by
  have hlength := Entries.length_erase h.nodup hget
  have hheld := h.held
  omega

theorem Counted.balanced (h : Counted limit s) : s.Balanced := by
  refine ⟨?_, h.tracked, fun uuid => ?_⟩
  · have hheld := h.held
    unfold freePermits
    omega
  · dsimp only [step]
    split
    · nofun
    · next session hget =>
      rw [if_pos (h.terminates hget)]
      nofun

/-- A balanced runner counts all its calls. -/
theorem Balanced.held (h : s.Balanced) : s.held = s.sessions.length + s.spawning.length := by
  have hpermits := h.permits
  unfold freePermits at hpermits
  omega

theorem Counted.acquire (h : Counted limit s) (uuid : String) :
    ∃ s', s.step (.acquire uuid) = some s' ∧ Counted limit s' := by
  dsimp only [step]
  split
  · refine ⟨_, rfl, h.limit, ?_, h.nodup, fun session uuid' hlive => ?_⟩
    · have hheld := h.held
      dsimp only
      rw [List.length_append, List.length_singleton]
      omega
    · rcases h.tracked session uuid' hlive with htracked | hspawning
      · exact .inl htracked
      · exact .inr (List.mem_append_left _ hspawning)
  · exact ⟨s, rfl, h⟩

theorem Counted.startSession (h : Counted limit s) {i : Nat} {uuid : String}
    (hi : s.spawning[i]? = some (.acquired uuid)) :
    Counted limit { s with
      spawning := s.spawning.set i (.started uuid s.next)
      live := s.live ++ [(s.next, uuid)]
      next := s.next + 1 } := by
  have hlt : i < s.spawning.length := (List.getElem?_eq_some_iff.mp hi).1
  refine ⟨h.limit, ?_, h.nodup, fun session uuid' hlive => ?_⟩
  · dsimp only
    rw [List.length_set]
    exact h.held
  · rcases List.mem_append.mp hlive with hlive | hnew
    · rcases h.tracked session uuid' hlive with htracked | hspawning
      · exact .inl htracked
      · -- the call that starts its process was not one that has a session
        right
        rcases List.mem_iff_getElem?.mp hspawning with ⟨j, hj⟩
        have hne : i ≠ j := by
          rintro rfl
          rw [hi] at hj
          cases hj
        exact List.mem_iff_getElem?.mpr ⟨j, by rw [List.getElem?_set_ne hne, hj]⟩
    · rw [List.mem_singleton, Prod.mk.injEq] at hnew
      rcases hnew with ⟨rfl, rfl⟩
      exact .inr (List.mem_iff_getElem?.mpr ⟨i, List.getElem?_set_self hlt⟩)

theorem Counted.record (h : Counted limit s) {i : Nat} {uuid : String} {session : SessionNumber}
    (hi : s.spawning[i]? = some (.started uuid session)) (hfree : s.sessions.get? uuid = none) :
    Counted limit { s with
      spawning := s.spawning.eraseIdx i, sessions := s.sessions.set uuid session } := by
  have hlt : i < s.spawning.length := (List.getElem?_eq_some_iff.mp hi).1
  have hfresh := Entries.ne_of_get?_eq_none hfree
  have hset : s.sessions.set uuid session = s.sessions ++ [(uuid, session)] := by
    unfold Entries.set
    rw [Entries.erase_of_fresh hfresh]
  refine ⟨h.limit, ?_, ?_, fun session' uuid' hlive => ?_⟩
  · have hheld := h.held
    dsimp only
    rw [hset, List.length_append, List.length_singleton, List.length_eraseIdx_of_lt hlt]
    omega
  · dsimp only
    rw [hset, List.map_append]
    refine List.nodup_append.mpr ⟨h.nodup, List.nodup_singleton _, ?_⟩
    intro key hkey key' hkey'
    rcases List.mem_map.mp hkey with ⟨e, he, rfl⟩
    rw [List.mem_singleton.mp hkey']
    exact hfresh e he
  · dsimp only
    by_cases huuid : uuid' = uuid
    · subst huuid
      rcases h.tracked session' uuid' hlive with htracked | hspawning
      · rw [hfree] at htracked
        cases htracked
      · rcases List.mem_iff_getElem?.mp hspawning with ⟨j, hj⟩
        by_cases hij : j = i
        · rw [hij, hi] at hj
          cases hj
          exact .inl Entries.get?_set_self
        · exact .inr (List.mem_eraseIdx_iff_getElem?.mpr ⟨j, hij, hj⟩)
    · rcases h.tracked session' uuid' hlive with htracked | hspawning
      · exact .inl ((Entries.get?_set_ne huuid).trans htracked)
      · rcases List.mem_iff_getElem?.mp hspawning with ⟨j, hj⟩
        by_cases hij : j = i
        · rw [hij, hi] at hj
          cases hj
          exact absurd rfl huuid
        · exact .inr (List.mem_eraseIdx_iff_getElem?.mpr ⟨j, hij, hj⟩)

theorem Counted.terminate (h : Counted limit s) (uuid : String) :
    ∃ s', s.step (.terminate uuid) = some s' ∧ Counted limit s' := by
  dsimp only [step]
  split
  · exact ⟨s, rfl, h⟩
  · next session hget =>
    rw [if_pos (h.terminates hget)]
    refine ⟨_, rfl, h.limit, ?_, Entries.nodup_erase h.nodup uuid, fun session' uuid' hlive => ?_⟩
    · have hlength := Entries.length_erase h.nodup hget
      have hheld := h.held
      dsimp only
      omega
    · rcases List.mem_filter.mp hlive with ⟨hlive, hne⟩
      have hne : session' ≠ session := of_decide_eq_true hne
      rcases h.tracked session' uuid' hlive with htracked | hspawning
      · have huuid : uuid' ≠ uuid := by
          rintro rfl
          rw [hget, Option.some.injEq] at htracked
          exact hne htracked.symm
        exact .inl ((Entries.get?_erase_ne huuid).trans htracked)
      · exact .inr hspawning

/-- A step keeps the balance exactly if it is one that does. -/
theorem Counted.step (h : Counted limit s) (e : ShellStep) :
    (BalancedAfter (some s) e ↔ s.Distinct e) ∧
      (s.Distinct e → ∃ s', after (some s) e = some s' ∧ Counted limit s') := by
  have hkeeps {s' : ShellRunner} (hstep : s.step e = some s') (hcounted : Counted limit s')
      (hdistinct : s.Distinct e) : (BalancedAfter (some s) e ↔ s.Distinct e) ∧
        (s.Distinct e → ∃ s', after (some s) e = some s' ∧ Counted limit s') :=
    ⟨iff_of_true ⟨s', hstep, hcounted.balanced⟩ hdistinct, fun _ => ⟨s', hstep, hcounted⟩⟩
  have hbreaks {s' : ShellRunner} (hstep : s.step e = some s')
      (hheld : s'.held ≠ s'.sessions.length + s'.spawning.length) (hdistinct : ¬ s.Distinct e) :
      (BalancedAfter (some s) e ↔ s.Distinct e) ∧
        (s.Distinct e → ∃ s', after (some s) e = some s' ∧ Counted limit s') := by
    refine ⟨iff_of_false ?_ hdistinct, fun hyes => absurd hyes hdistinct⟩
    rintro ⟨s'', hafter, hbalanced⟩
    rw [show after (some s) e = some s' from hstep, Option.some.injEq] at hafter
    subst hafter
    exact hheld hbalanced.held
  have hheld := h.held
  cases e with
  | acquire uuid =>
    rcases h.acquire uuid with ⟨s', hstep, hcounted⟩
    exact hkeeps hstep hcounted trivial
  | startSession i ok =>
    cases hi : s.spawning[i]? with
    | none =>
      have hdistinct : s.Distinct (.startSession i ok) := by
        rintro ⟨uuid, hacquired⟩
        rw [hi] at hacquired
        cases hacquired
      exact hkeeps (by simp [ShellRunner.step, hi]) h hdistinct
    | some call =>
      have hlt : i < s.spawning.length := (List.getElem?_eq_some_iff.mp hi).1
      cases call with
      | started uuid session =>
        have hdistinct : s.Distinct (.startSession i ok) := by
          rintro ⟨uuid', hacquired⟩
          rw [hi] at hacquired
          cases hacquired
        exact hkeeps (by simp [ShellRunner.step, hi]) h hdistinct
      | acquired uuid =>
        cases ok with
        | true => exact hkeeps (by simp [ShellRunner.step, hi]) (h.startSession hi) fun _ => rfl
        | false =>
          refine hbreaks (by simp [ShellRunner.step, hi]; rfl) ?_ fun hdistinct =>
            Bool.false_ne_true (hdistinct ⟨uuid, hi⟩)
          dsimp only
          rw [List.length_eraseIdx_of_lt hlt]
          omega
  | record i =>
    cases hi : s.spawning[i]? with
    | none =>
      have hdistinct : s.Distinct (.record i) := by
        intro uuid session hstarted
        rw [hi] at hstarted
        cases hstarted
      exact hkeeps (by simp [ShellRunner.step, hi]) h hdistinct
    | some call =>
      have hlt : i < s.spawning.length := (List.getElem?_eq_some_iff.mp hi).1
      cases call with
      | acquired uuid =>
        have hdistinct : s.Distinct (.record i) := by
          intro uuid' session hstarted
          rw [hi] at hstarted
          cases hstarted
        exact hkeeps (by simp [ShellRunner.step, hi]) h hdistinct
      | started uuid session =>
        cases hget : s.sessions.get? uuid with
        | none =>
          have hdistinct : s.Distinct (.record i) := by
            intro uuid' session' hstarted
            rw [hi] at hstarted
            cases hstarted
            exact hget
          exact hkeeps (by simp [ShellRunner.step, hi]) (h.record hi hget) hdistinct
        | some other =>
          have hlength := Entries.length_erase h.nodup hget
          refine hbreaks (by simp [ShellRunner.step, hi]; rfl) ?_ fun hdistinct => ?_
          · dsimp only [Entries.set]
            rw [List.length_eraseIdx_of_lt hlt, List.length_append, List.length_singleton]
            omega
          · rw [hdistinct uuid session hi] at hget
            cases hget
  | terminate uuid =>
    rcases h.terminate uuid with ⟨s', hstep, hcounted⟩
    exact hkeeps hstep hcounted trivial
  | exits session =>
    refine hkeeps rfl ⟨h.limit, h.held, h.nodup, fun session' uuid hlive => ?_⟩ trivial
    exact h.tracked session' uuid (List.mem_filter.mp hlive).1

/-! ## Whole runs -/

/-- **In every interleaving of calls, the free permits, the tracked sessions and the calls in progress
make up the limit, every session that runs can be terminated, and nothing is released twice, exactly
as long as every process starts and every session is recorded under a free id.** -/
theorem shell_permits_iff (limit : Int) (steps : List ShellStep) :
    Along after BalancedAfter (some (newShellRunner limit)) steps ↔
      Along after DistinctStep (some (newShellRunner limit)) steps := by
  have hstep : ∀ (o : Option ShellRunner) (e : ShellStep), (∃ s, o = some s ∧ Counted limit s) →
      (BalancedAfter o e ↔ DistinctStep o e) ∧
        (DistinctStep o e → ∃ s, after o e = some s ∧ Counted limit s) := by
    rintro o e ⟨s, rfl, h⟩
    have hiff : DistinctStep (some s) e ↔ s.Distinct e := by
      unfold DistinctStep
      simp
    rw [hiff]
    exact h.step e
  have hstart : Counted limit (newShellRunner limit) := ⟨rfl, rfl, List.nodup_nil, nofun⟩
  exact Along.iff_of_invariant hstep ⟨_, rfl, hstart⟩

/-- One call of `Spawn` that nothing interrupts. -/
def spawn (uuid : String) (ok : Bool) : List ShellStep :=
  [.acquire uuid, .startSession 0 ok, .record 0]

theorem balanced_at_end {limit : Int} {steps : List ShellStep}
    (h : Along after BalancedAfter (some (newShellRunner limit)) steps) :
    ∃ s, steps.foldl after (some (newShellRunner limit)) = some s ∧ s.Balanced := by
  have hstart : Counted limit (newShellRunner limit) := ⟨rfl, rfl, List.nodup_nil, nofun⟩
  have hkeeps : ∀ (o : Option ShellRunner) (e : ShellStep), (∃ s, o = some s ∧ s.Balanced) →
      BalancedAfter o e → ∃ s, after o e = some s ∧ s.Balanced := fun _ _ _ hafter => hafter
  exact Along.foldl_invariant hkeeps ⟨_, rfl, hstart.balanced⟩ h

/-- A shell that does not start takes the only permit for good, and of two sessions with one id the
first runs on when that id is terminated. -/
theorem shell_permits_leak :
    (spawn "a" false).foldl after (some (newShellRunner 1)) = some ⟨1, 1, [], [], [], 0⟩ ∧
      ¬ Along after BalancedAfter (some (newShellRunner 1)) (spawn "a" false) ∧
      (spawn "a" true ++ spawn "a" true ++ [ShellStep.terminate "a"]).foldl after
        (some (newShellRunner 2)) = some ⟨2, 1, [], [], [(0, "a")], 2⟩ ∧
      ¬ Along after BalancedAfter (some (newShellRunner 2)) (spawn "a" true ++ spawn "a" true) := by
  have hfails : (spawn "a" false).foldl after (some (newShellRunner 1)) =
      some ⟨1, 1, [], [], [], 0⟩ := by decide
  have htwice : (spawn "a" true ++ spawn "a" true).foldl after (some (newShellRunner 2)) =
      some ⟨2, 2, [("a", 1)], [], [(0, "a"), (1, "a")], 2⟩ := by decide
  refine ⟨hfails, fun hrun => ?_, by decide, fun hrun => ?_⟩
  · rcases balanced_at_end hrun with ⟨s, hs, hbalanced⟩
    rw [hfails] at hs
    cases hs
    exact absurd hbalanced.held (by decide)
  · rcases balanced_at_end hrun with ⟨s, hs, hbalanced⟩
    rw [htwice] at hs
    cases hs
    exact absurd hbalanced.held (by decide)

end ShellRunner

end Rdfm.Linux
