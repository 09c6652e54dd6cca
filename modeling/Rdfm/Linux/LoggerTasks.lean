import Rdfm.Lib.IndexedMap
import Rdfm.Lib.Transition
import Mathlib.Logic.Function.Iterate

/-!
# Logger tasks

`LogManager` starts and stops the loggers of its tasks. `StartTask` makes a new `done` channel and a
goroutine, `StopTask` closes the channel; the goroutine looks at `task.done` each time it comes to
its `select`. A goroutine that has not seen its stop when the task is started again waits on the new
channel, and a `select` with a closed channel and a tick may take the tick any number of times. The
loggers of a task are exclusive exactly if at every start the goroutines before it are settled, and
a goroutine that has run once since its stop never finds a tick waiting (`logger_tasks_iff`).
-/

namespace Rdfm.Linux

open Rdfm.Lib

/-! ## Tasks -/

inductive LoggerKind where
  | recurring
  | persistent
deriving DecidableEq, Repr

structure LoggerArgs where
  name : String
  path : String
  args : List String
deriving DecidableEq, Repr

/-- Where the goroutine of a task is. -/
inductive LoggerPoint where
  | starting
  /-- At the head of the loop. -/
  | looping
  /-- At the `select`, on the channel that `task.done` was when it came there. -/
  | selecting (ch : Nat)
  | logging
  | left
deriving DecidableEq, Repr

/-- The goroutine of one start of a task. -/
structure LoggerRoutine where
  args : LoggerArgs
  point : LoggerPoint
  /-- A tick waits in `ticks`. -/
  tick : Bool
  /-- `ctx.Done` of a persistent logger is closed. -/
  doneClosed : Bool
  /-- How often it has run its logger. -/
  runs : Nat
  /-- How often it had run it when its task was stopped. -/
  stoppedAt : Option Nat
deriving DecidableEq, Repr

/-- A `logTask`. Its channels are numbered in the order of their making, 0 is nil. -/
structure LogTask where
  logger : LoggerKind
  interval : Int
  args : LoggerArgs
  done : Nat
  closed : List Nat
  running : Bool
  routines : List LoggerRoutine
deriving DecidableEq, Repr

namespace LogTask

def new (logger : LoggerKind) (interval : Int) : LogTask :=
  match logger with
  | .recurring => ⟨logger, interval, ⟨"", "", []⟩, 0, [], false, []⟩
  | .persistent => ⟨logger, 0, ⟨"", "", []⟩, 0, [], false, []⟩

def start (task : LogTask) : LogTask :=
  if task.running then task
  else { task with
    running := true
    routines := task.routines ++ [⟨task.args, .starting, false, false, 0, none⟩] }

def stop (task : LogTask) : LogTask :=
  if ¬ task.running then task
  else { task with
    closed := task.closed ++ [task.done]
    running := false
    routines := task.routines.map fun r => { r with stoppedAt := r.stoppedAt.or (some r.runs) } }

/-- The next step of `runRecurringLogger`. With a tick and a closed channel `select` may take
either. -/
def runRecurringLogger (task : LogTask) (tickFirst : Bool) (r : LoggerRoutine) : LoggerRoutine :=
  match r.point with
  | .starting => { r with point := .looping }
  | .looping => { r with point := .selecting task.done }
  | .selecting ch =>
    if r.tick ∧ (ch ∉ task.closed ∨ tickFirst) then
      { r with tick := false, point := .logging, runs := r.runs + 1 }
    else if ch ∈ task.closed then { r with point := .left }
    else r
  | .logging => { r with point := .looping }
  | .left => r

/-- The next step of `runPersistentLogger`, which starts its logger first. -/
def runPersistentLogger (task : LogTask) (r : LoggerRoutine) : LoggerRoutine :=
  match r.point with
  | .starting => { r with point := .looping, runs := r.runs + 1 }
  | .looping => { r with point := .selecting task.done }
  | .selecting ch =>
    if ch ∈ task.closed then { r with doneClosed := true, point := .left } else r
  | .logging => r
  | .left => r

def advance (task : LogTask) (tickFirst : Bool) (r : LoggerRoutine) : LoggerRoutine :=
  match task.logger with
  | .recurring => task.runRecurringLogger tickFirst r
  | .persistent => task.runPersistentLogger r

/-- `time.Tick` never ticks for an interval that is not positive. -/
def ticked (task : LogTask) (r : LoggerRoutine) : LoggerRoutine :=
  if task.logger = .recurring ∧ 0 < task.interval ∧ r.point ≠ .starting then { r with tick := true }
  else r

end LogTask

/-- What happens to a task. -/
inductive TaskOp where
  | start (args : LoggerArgs)
  | stop
  | clock (i : Nat)
  /-- The next step of one of its goroutines. -/
  | step (i : Nat)
deriving DecidableEq, Repr

namespace LogTask

/-- A task after one operation; the choice is that of `select`. -/
def next (task : LogTask) : TaskOp × Bool → LogTask
  | (.start args, _) =>
    if task.running then task else start { task with args, done := task.done + 1 }
  | (.stop, _) => task.stop
  | (.clock i, _) => { task with routines := task.routines.modify i task.ticked }
  | (.step i, tickFirst) =>
    { task with routines := task.routines.modify i (task.advance tickFirst) }

/-! ## What is expected of a task -/

def runsOf (task : LogTask) (i : Nat) : Nat := (task.routines[i]?.map LoggerRoutine.runs).getD 0

/-- Some way to go on makes the goroutine run its logger. -/
def MayRun (task : LogTask) (i : Nat) : Prop :=
  i < task.routines.length ∧
    ∃ es : List (TaskOp × Bool), task.runsOf i < (es.foldl next task).runsOf i

/-- A goroutine goes on alone. -/
def alone (task : LogTask) (i : Nat) : Nat → LogTask
  | 0 => task
  | k + 1 => (task.next (.step i, false)).alone i k

/-- One goroutine runs the logger, a stopped one at most once more, and a stopped persistent logger
gets its `Done` closed. -/
structure Exclusive (task : LogTask) : Prop where
  one_runs : ∀ i j, task.MayRun i → task.MayRun j → i = j
  once_more : ∀ (i : Nat) (r : LoggerRoutine) (n : Nat),
    task.routines[i]? = some r → r.stoppedAt = some n → r.runs ≤ n + 1
  done_closed : task.logger = .persistent → ∀ (i : Nat) (r : LoggerRoutine),
    task.routines[i]? = some r → r.stoppedAt.isSome →
      ∃ k r', (task.alone i k).routines[i]? = some r' ∧ r'.doneClosed

/-- A goroutine that a new start does not disturb: it never runs its logger again, and if it is
persistent it sees its stop. -/
def Settled (task : LogTask) (r : LoggerRoutine) : Prop :=
  match task.logger with
  | .recurring => r.point = .left ∨ task.interval ≤ 0
  | .persistent => r.point = .left ∨ ∃ ch ∈ task.closed, r.point = .selecting ch

/-- At the `select` of a stopped goroutine that has run its logger since, a tick waits. -/
def TickAfterStop (task : LogTask) (r : LoggerRoutine) : Prop :=
  task.logger = .recurring ∧ r.tick ∧ (∃ ch ∈ task.closed, r.point = .selecting ch) ∧
    ∃ n, r.stoppedAt = some n ∧ n < r.runs

def Careful (task : LogTask) : TaskOp → Prop
  | .start _ => task.running = false → ∀ r ∈ task.routines, task.Settled r
  | .step i => ∀ r, task.routines[i]? = some r → ¬ task.TickAfterStop r
  | _ => True

/-! ## One operation -/

/-- What is known of the goroutine of the start `i + 1`. -/
structure RoutineKept (task : LogTask) (i : Nat) (r : LoggerRoutine) : Prop where
  stopped : r.stoppedAt.isSome ↔ i + 1 ∈ task.closed
  counted : ∀ n, r.stoppedAt = some n → r.runs ≤ n + 1
  settled : i + 1 < task.done → task.Settled r
  selects : i + 1 = task.done → ∀ ch, r.point = .selecting ch → ch = task.done
  tick : r.tick → 0 < task.interval
  shape : task.logger = .persistent → r.point ≠ .logging ∧ (r.doneClosed ↔ r.point = .left) ∧
    (r.point = .starting → r.runs = 0)

/-- What every run of a task keeps, as long as it is careful. -/
structure Kept (task : LogTask) : Prop where
  done : task.done = task.routines.length
  started : task.running = true → 0 < task.done
  closed : ∀ ch, ch ∈ task.closed ↔
    0 < ch ∧ (ch < task.done ∨ ch = task.done ∧ task.running = false)
  routines : ∀ i r, task.routines[i]? = some r → task.RoutineKept i r

variable {task : LogTask} {i : Nat} {r : LoggerRoutine}

theorem kept_new (logger : LoggerKind) (interval : Int) : Kept (new logger interval) := by
  cases logger with
  | recurring =>
    refine ⟨rfl, nofun, fun ch => ?_, nofun⟩
    simp only [new, List.not_mem_nil, Nat.not_lt_zero, false_or, and_true, false_iff]
    omega
  | persistent =>
    refine ⟨rfl, nofun, fun ch => ?_, nofun⟩
    simp only [new, List.not_mem_nil, Nat.not_lt_zero, false_or, and_true, false_iff]
    omega

theorem Settled.mono {task' : LogTask} (h : task.Settled r) (hlogger : task'.logger = task.logger)
    (hinterval : task'.interval = task.interval) (hclosed : task.closed ⊆ task'.closed) :
    task'.Settled r := by
  unfold Settled at h ⊢
  rw [hlogger, hinterval]
  cases hl : task.logger with
  | recurring => rwa [hl] at h
  | persistent =>
    rw [hl] at h
    rcases h with hleft | ⟨ch, hch, hsel⟩
    · exact .inl hleft
    · exact .inr ⟨ch, hclosed hch, hsel⟩

/-- The goroutines before a start stay as they were, and must have been settled. -/
theorem RoutineKept.restarted (h : RoutineKept task i r) (hsettled : task.Settled r)
    (hi : i + 1 ≤ task.done) (args : LoggerArgs) (routines : List LoggerRoutine) :
    RoutineKept { task with args, done := task.done + 1, running := true, routines } i r where
  stopped := h.stopped
  counted := h.counted
  settled _ := hsettled
  selects hlast := by
    dsimp only at hlast
    omega
  tick := h.tick
  shape := h.shape

theorem Kept.next_start (h : Kept task) (args : LoggerArgs) (hcareful : task.Careful (.start args))
    (c : Bool) : Kept (task.next (.start args, c)) := by
  unfold next
  cases hrunning : task.running with
  | true => simpa only [hrunning, if_true] using h
  | false =>
    have hsettled : ∀ r ∈ task.routines, task.Settled r := hcareful hrunning
    simp only [Bool.false_eq_true, if_false, start]
    refine ⟨?_, fun _ => Nat.succ_pos _, fun ch => ?_, fun i r hr => ?_⟩
    · simp [h.done]
    · have hclosed := h.closed ch
      simp only [hrunning, and_true] at hclosed
      simp only [hclosed, Bool.true_eq_false, and_false, or_false]
      omega
    · rcases Nat.lt_trichotomy i task.routines.length with hi | hi | hi
      · dsimp only at hr
        rw [List.getElem?_append_left hi] at hr
        have hle : i + 1 ≤ task.done := by rw [h.done]; exact hi
        exact (h.routines i r hr).restarted (hsettled r (List.mem_of_getElem? hr)) hle args _
      · subst hi
        have hnotMem : task.routines.length + 1 ∉ task.closed := by
          rw [h.closed, h.done]
          omega
        simp only [List.getElem?_concat_length, Option.some.injEq] at hr
        subst hr
        exact ⟨iff_of_false nofun hnotMem, nofun, fun hlt => absurd hlt (by simp [h.done]), nofun,
          nofun, fun _ => ⟨nofun, iff_of_false nofun nofun, fun _ => rfl⟩⟩
      · rw [List.getElem?_eq_none (by simp; omega)] at hr
        cases hr

theorem RoutineKept.next_stop (h : RoutineKept task i r) (hi : i + 1 ≤ task.done)
    (hclosed : i + 1 < task.done → i + 1 ∈ task.closed) (routines : List LoggerRoutine) :
    RoutineKept { task with closed := task.closed ++ [task.done], running := false, routines } i
      { r with stoppedAt := r.stoppedAt.or (some r.runs) } where
  stopped := by
    refine iff_of_true (by simp) (List.mem_append.mpr ?_)
    rcases Nat.lt_or_eq_of_le hi with hlt | heq
    · exact .inl (hclosed hlt)
    · exact .inr (List.mem_singleton.mpr heq)
  counted n hn := by
    rcases hstopped : r.stoppedAt with _ | m
    · simp only [hstopped, Option.none_or, Option.some.injEq] at hn
      exact hn ▸ Nat.le_succ _
    · simp only [hstopped, Option.some_or, Option.some.injEq] at hn
      exact hn ▸ h.counted m hstopped
  settled hlt := (h.settled hlt).mono rfl rfl (List.subset_append_left _ _)
  selects := h.selects
  tick := h.tick
  shape := h.shape

theorem Kept.next_stop (h : Kept task) (c : Bool) : Kept (task.next (.stop, c)) := by
  unfold next stop
  cases hrunning : task.running with
  | false => simpa only [Bool.false_eq_true, not_false_eq_true, if_true] using h
  | true =>
    simp only [not_true_eq_false, if_false]
    refine ⟨?_, nofun, fun ch => ?_, fun i r hr => ?_⟩
    · simp [h.done]
    · have hpos := h.started hrunning
      have hclosed := h.closed ch
      simp only [hrunning, Bool.true_eq_false, and_false, or_false] at hclosed
      simp only [List.mem_append, List.mem_singleton, hclosed, and_true]
      omega
    · simp only [List.getElem?_map, Option.map_eq_some_iff] at hr
      rcases hr with ⟨r, hr, rfl⟩
      have hi : i < task.routines.length := (List.getElem?_eq_some_iff.mp hr).1
      refine (h.routines i r hr).next_stop (by rw [h.done]; exact hi) (fun hlt => ?_) _
      exact (h.closed _).mpr ⟨Nat.succ_pos i, .inl hlt⟩

/-- One goroutine moves. -/
theorem Kept.modify (h : Kept task) (i : Nat) {f : LoggerRoutine → LoggerRoutine}
    (hf : ∀ r, task.routines[i]? = some r → RoutineKept task i (f r)) :
    Kept { task with routines := task.routines.modify i f } := by
  refine ⟨by simp [h.done], h.started, h.closed, fun j r hr => ?_⟩
  simp only [List.getElem?_modify, Option.map_eq_map, Option.map_eq_some_iff] at hr
  rcases hr with ⟨r, hr, rfl⟩
  have hkept : RoutineKept task j (if i = j then f r else r) := by
    split
    · next hij =>
      subst hij
      exact hf r hr
    · exact h.routines j r hr
  exact ⟨hkept.stopped, hkept.counted, hkept.settled, hkept.selects, hkept.tick, hkept.shape⟩

theorem Kept.next_clock (h : Kept task) (i : Nat) (c : Bool) : Kept (task.next (.clock i, c)) := by
  refine h.modify i fun r hr => ?_
  have hkept := h.routines i r hr
  unfold ticked
  split
  · next hticks =>
    refine ⟨hkept.stopped, hkept.counted, fun hlt => ?_, hkept.selects, fun _ => hticks.2.1,
      hkept.shape⟩
    exact hkept.settled hlt
  · exact hkept

/-- A stopped goroutine that can still take a tick waits at a closed channel. -/
theorem RoutineKept.select_closed (h : RoutineKept task i r)
    (hi : i + 1 ≤ task.done) (hlogger : task.logger = .recurring) {ch n : Nat}
    (hpoint : r.point = .selecting ch) (htick : r.tick) (hstopped : r.stoppedAt = some n) :
    ch ∈ task.closed := by
  have hmem : i + 1 ∈ task.closed := h.stopped.mp (by rw [hstopped]; rfl)
  rcases Nat.lt_or_eq_of_le hi with hlt | heq
  · have hsettled := h.settled hlt
    have hpos := h.tick htick
    simp only [Settled, hlogger, hpoint, reduceCtorEq, false_or] at hsettled
    omega
  · rw [h.selects heq ch hpoint, ← heq]
    exact hmem

theorem RoutineKept.runRecurringLogger (h : RoutineKept task i r)
    (hi : i + 1 ≤ task.done) (hlogger : task.logger = .recurring)
    (hcareful : ¬ task.TickAfterStop r) (tickFirst : Bool) :
    RoutineKept task i (task.runRecurringLogger tickFirst r) := by
  have hshape : ∀ {P : Prop}, task.logger = .persistent → P := by
    intro P hpersistent
    rw [hlogger] at hpersistent
    cases hpersistent
  have hsettled : ∀ r', r.point ≠ .left → i + 1 < task.done → task.Settled r' := by
    intro r' hleft hlt
    have := h.settled hlt
    simp only [Settled, hlogger] at this ⊢
    exact .inr (this.resolve_left hleft)
  unfold LogTask.runRecurringLogger
  split
  · next hpoint =>
    have hleft : r.point ≠ .left := by
      rw [hpoint]
      exact nofun
    exact ⟨h.stopped, h.counted, hsettled _ hleft, fun _ => nofun, h.tick, hshape⟩
  · next hpoint =>
    have hleft : r.point ≠ .left := by
      rw [hpoint]
      exact nofun
    refine ⟨h.stopped, h.counted, hsettled _ hleft, ?_, h.tick, hshape⟩
    rintro - ch ⟨⟩
    rfl
  · next ch hpoint =>
    have hleft : r.point ≠ .left := by
      rw [hpoint]
      exact nofun
    split
    · next htick =>
      refine ⟨h.stopped, fun n hn => ?_, hsettled _ hleft, fun _ => nofun, nofun, hshape⟩
      have hclosed := h.select_closed hi hlogger hpoint htick.1 hn
      by_contra hlt
      refine hcareful ⟨hlogger, htick.1, ⟨ch, hclosed, hpoint⟩, n, hn, ?_⟩
      dsimp only at hlt
      omega
    · split
      · exact ⟨h.stopped, h.counted, hsettled _ hleft, fun _ => nofun, h.tick, hshape⟩
      · exact h
  · next hpoint =>
    have hleft : r.point ≠ .left := by
      rw [hpoint]
      exact nofun
    exact ⟨h.stopped, h.counted, hsettled _ hleft, fun _ => nofun, h.tick, hshape⟩
  · exact h

theorem RoutineKept.runPersistentLogger (h : RoutineKept task i r)
    (hlogger : task.logger = .persistent) :
    RoutineKept task i (task.runPersistentLogger r) := by
  rcases h.shape hlogger with ⟨hlogging, hclosed, hruns⟩
  have hsettled : i + 1 < task.done →
      r.point = .left ∨ ∃ ch ∈ task.closed, r.point = .selecting ch := by
    intro hlt
    have := h.settled hlt
    simpa only [Settled, hlogger] using this
  unfold LogTask.runPersistentLogger
  split
  · next hpoint =>
    refine ⟨h.stopped, fun n hn => ?_, fun hlt => ?_, fun _ => nofun, h.tick, fun _ => ?_⟩
    · dsimp only
      rw [hruns hpoint]
      exact Nat.le_add_left 1 n
    · rw [hpoint] at hsettled
      exact absurd (hsettled hlt) (by simp)
    · refine ⟨nofun, ?_, nofun⟩
      rw [hclosed, hpoint]
      exact iff_of_false nofun nofun
  · next hpoint =>
    refine ⟨h.stopped, h.counted, fun hlt => ?_, ?_, h.tick, fun _ => ?_⟩
    · rw [hpoint] at hsettled
      exact absurd (hsettled hlt) (by simp)
    · rintro - ch ⟨⟩
      rfl
    · refine ⟨nofun, ?_, nofun⟩
      rw [hclosed, hpoint]
      exact iff_of_false nofun nofun
  · next ch hpoint =>
    split
    · refine ⟨h.stopped, h.counted, fun _ => ?_, fun _ => nofun, h.tick, fun _ => ?_⟩
      · simp [Settled, hlogger]
      · exact ⟨nofun, iff_of_true rfl rfl, nofun⟩
    · exact h
  · exact h
  · exact h

theorem Kept.next_step (h : Kept task) (i : Nat) (hcareful : task.Careful (.step i)) (c : Bool) :
    Kept (task.next (.step i, c)) := by
  refine h.modify i fun r hr => ?_
  have hkept := h.routines i r hr
  unfold advance
  split
  · next hlogger =>
    have hi : i < task.routines.length := (List.getElem?_eq_some_iff.mp hr).1
    exact hkept.runRecurringLogger (by rw [h.done]; exact hi) hlogger (hcareful r hr) c
  · next hlogger => exact hkept.runPersistentLogger hlogger

/-! ## Goroutines that run their logger again -/

/-- What one operation does to a goroutine. -/
inductive Moves (task : LogTask) (r : LoggerRoutine) : LoggerRoutine → Prop
  | same : Moves task r r
  | stopped (stoppedAt : Option Nat) : Moves task r { r with stoppedAt }
  | ticked : Moves task r (task.ticked r)
  | advanced (tickFirst : Bool) : Moves task r (task.advance tickFirst r)

theorem next_moves (h : task.routines[i]? = some r) (e : TaskOp × Bool) :
    ∃ r', (task.next e).routines[i]? = some r' ∧ Moves task r r' := by
  have hi : i < task.routines.length := (List.getElem?_eq_some_iff.mp h).1
  rcases e with ⟨args | _ | j | j, c⟩
  · refine ⟨r, ?_, .same⟩
    simp only [next, start]
    split
    · exact h
    · rw [← h]
      simp [*, List.getElem?_append_left hi]
  · simp only [next, stop]
    split
    · exact ⟨r, h, .same⟩
    · exact ⟨_, by simp [h]; rfl, .stopped _⟩
  · simp only [next, List.getElem?_modify, h]
    by_cases hj : j = i
    · exact ⟨task.ticked r, by simp [hj], .ticked⟩
    · exact ⟨r, by simp [hj], .same⟩
  · simp only [next, List.getElem?_modify, h]
    by_cases hj : j = i
    · exact ⟨task.advance c r, by simp [hj], .advanced c⟩
    · exact ⟨r, by simp [hj], .same⟩

@[simp] theorem start_logger (task : LogTask) : task.start.logger = task.logger := by
  unfold start
  split <;> rfl

@[simp] theorem start_interval (task : LogTask) : task.start.interval = task.interval := by
  unfold start
  split <;> rfl

@[simp] theorem next_logger (task : LogTask) (e : TaskOp × Bool) :
    (task.next e).logger = task.logger := by
  rcases e with ⟨args | _ | j | j, c⟩ <;> simp only [next, stop] <;> split <;> simp

@[simp] theorem next_interval (task : LogTask) (e : TaskOp × Bool) :
    (task.next e).interval = task.interval := by
  rcases e with ⟨args | _ | j | j, c⟩ <;> simp only [next, stop] <;> split <;> simp

/-- The goroutine has run its logger for the last time. -/
def Dead (task : LogTask) (r : LoggerRoutine) : Prop :=
  match task.logger with
  | .recurring => r.point = .left ∨ task.interval ≤ 0 ∧ r.tick = false
  | .persistent => r.point ≠ .starting

theorem ticked_cases (task : LogTask) (r : LoggerRoutine) :
    task.ticked r = r ∨ task.ticked r = { r with tick := true } ∧ 0 < task.interval := by
  unfold ticked
  split
  · next hticks => exact .inr ⟨rfl, hticks.2.1⟩
  · exact .inl rfl

theorem Moves.dead {r' : LoggerRoutine} (hmoves : Moves task r r') (h : Dead task r) :
    Dead task r' ∧ r'.runs = r.runs := by
  unfold Dead at h ⊢
  cases hlogger : task.logger with
  | recurring =>
    rw [hlogger] at h
    cases hmoves with
    | same => exact ⟨h, rfl⟩
    | stopped => exact ⟨h, rfl⟩
    | ticked =>
      rcases ticked_cases task r with heq | ⟨heq, hinterval⟩
      · rw [heq]
        exact ⟨h, rfl⟩
      · rw [heq]
        exact ⟨h.imp_right fun hnever => absurd hinterval (Int.not_lt.mpr hnever.1), rfl⟩
    | advanced tickFirst =>
      simp only [advance, hlogger, runRecurringLogger]
      rcases h with hleft | ⟨hinterval, htick⟩
      · rw [hleft]
        exact ⟨.inl hleft, rfl⟩
      · split
        · exact ⟨.inr ⟨hinterval, htick⟩, rfl⟩
        · exact ⟨.inr ⟨hinterval, htick⟩, rfl⟩
        · rw [if_neg (by simp [htick])]
          split
          · exact ⟨.inl rfl, rfl⟩
          · exact ⟨.inr ⟨hinterval, htick⟩, rfl⟩
        · exact ⟨.inr ⟨hinterval, htick⟩, rfl⟩
        · exact ⟨.inr ⟨hinterval, htick⟩, rfl⟩
  | persistent =>
    rw [hlogger] at h
    cases hmoves with
    | same => exact ⟨h, rfl⟩
    | stopped => exact ⟨h, rfl⟩
    | ticked =>
      rcases ticked_cases task r with heq | ⟨heq, -⟩
      · rw [heq]
        exact ⟨h, rfl⟩
      · rw [heq]
        exact ⟨h, rfl⟩
    | advanced tickFirst =>
      simp only [advance, hlogger, runPersistentLogger]
      split
      · next hpoint => exact absurd hpoint h
      · exact ⟨nofun, rfl⟩
      · split
        · exact ⟨nofun, rfl⟩
        · exact ⟨h, rfl⟩
      · exact ⟨h, rfl⟩
      · exact ⟨h, rfl⟩

theorem runsOf_eq (h : task.routines[i]? = some r) : task.runsOf i = r.runs := by
  simp [runsOf, h]

theorem Dead.foldl_runs (h : task.Dead r) (hr : task.routines[i]? = some r)
    (es : List (TaskOp × Bool)) : (es.foldl next task).runsOf i = r.runs := by
  induction es generalizing task r with
  | nil => exact runsOf_eq hr
  | cons e es ih =>
    rcases next_moves hr e with ⟨r', hr', hmoves⟩
    rcases hmoves.dead h with ⟨hdead, hruns⟩
    have hdead' : (task.next e).Dead r' := by
      simpa only [Dead, next_logger, next_interval] using hdead
    rw [List.foldl_cons, ih hdead' hr', hruns]

theorem Dead.not_mayRun (h : task.Dead r) (hr : task.routines[i]? = some r) : ¬ task.MayRun i := by
  rintro ⟨-, es, hruns⟩
  rw [h.foldl_runs hr, runsOf_eq hr] at hruns
  exact Nat.lt_irrefl _ hruns

theorem RoutineKept.dead_of_settled (h : RoutineKept task i r) (hsettled : task.Settled r) :
    task.Dead r := by
  unfold Settled at hsettled
  unfold Dead
  cases hlogger : task.logger with
  | recurring =>
    rw [hlogger] at hsettled
    rcases hsettled with hleft | hinterval
    · exact .inl hleft
    · refine .inr ⟨hinterval, Bool.eq_false_iff.mpr fun htick => ?_⟩
      exact absurd (h.tick htick) (Int.not_lt.mpr hinterval)
  | persistent =>
    rw [hlogger] at hsettled
    rcases hsettled with hleft | ⟨ch, -, hsel⟩
    · simp [hleft]
    · simp [hsel]

theorem MayRun.of_next {e : TaskOp × Bool} (h : (task.next e).MayRun i)
    (hr : task.routines[i]? = some r) (hruns : r.runs ≤ (task.next e).runsOf i) :
    task.MayRun i := by
  rcases h with ⟨-, es, hes⟩
  refine ⟨(List.getElem?_eq_some_iff.mp hr).1, e :: es, ?_⟩
  rw [runsOf_eq hr]
  exact Nat.lt_of_le_of_lt hruns hes

/-- One step of the goroutine itself. -/
theorem get_step (hr : task.routines[i]? = some r) (c : Bool) :
    (task.next (.step i, c)).routines[i]? = some (task.advance c r) := by
  simp [next, hr]

theorem get_clock (hr : task.routines[i]? = some r) (c : Bool) :
    (task.next (.clock i, c)).routines[i]? = some (task.ticked r) := by
  simp [next, hr]

theorem MayRun.of_step {r' : LoggerRoutine} (hr : task.routines[i]? = some r)
    (hadv : task.advance false r = r') (hruns : r'.runs = r.runs)
    (h : (task.next (.step i, false)).routines[i]? = some r' →
      (task.next (.step i, false)).MayRun i) : task.MayRun i := by
  have hstep := get_step hr false
  rw [hadv] at hstep
  refine (h hstep).of_next hr (Nat.le_of_eq ?_)
  rw [runsOf_eq hstep, hruns]

/-- A goroutine that is about to run its logger. -/
theorem mayRun_of_lt (c : Bool) (hr : task.routines[i]? = some r)
    (hruns : r.runs < (task.advance c r).runs) : task.MayRun i := by
  refine ⟨(List.getElem?_eq_some_iff.mp hr).1, [(.step i, c)], ?_⟩
  rw [runsOf_eq hr]
  exact Nat.lt_of_lt_of_eq hruns (runsOf_eq (get_step hr c)).symm

theorem mayRun_persistent (hlogger : task.logger = .persistent) (hr : task.routines[i]? = some r)
    (hpoint : r.point = .starting) : task.MayRun i := by
  refine mayRun_of_lt false hr ?_
  simp [advance, hlogger, runPersistentLogger, hpoint]

theorem mayRun_selecting (hlogger : task.logger = .recurring) (hinterval : 0 < task.interval)
    {ch : Nat} (hr : task.routines[i]? = some r) (hpoint : r.point = .selecting ch) :
    task.MayRun i := by
  have hclock := get_clock hr false
  have hticked : task.ticked r = { r with tick := true } := by
    simp [ticked, hlogger, hinterval, hpoint]
  rw [hticked] at hclock
  have hmay : (task.next (.clock i, false)).MayRun i := by
    refine mayRun_of_lt true hclock ?_
    simp [advance, next_logger, hlogger, runRecurringLogger, hpoint]
  exact hmay.of_next hr (Nat.le_of_eq (runsOf_eq hclock).symm)

theorem mayRun_looping (hlogger : task.logger = .recurring) (hinterval : 0 < task.interval)
    (hr : task.routines[i]? = some r) (hpoint : r.point = .looping) : task.MayRun i := by
  have hadv : task.advance false r = { r with point := .selecting task.done } := by
    simp [advance, hlogger, runRecurringLogger, hpoint]
  exact .of_step hr hadv rfl fun hr' => mayRun_selecting (by simpa) (by simpa) hr' rfl

/-- A recurring goroutine that has not left comes to its `select` in one way or another. -/
theorem mayRun_recurring (hlogger : task.logger = .recurring) (hinterval : 0 < task.interval)
    (hr : task.routines[i]? = some r) (hpoint : r.point ≠ .left) : task.MayRun i := by
  have hback : ∀ p, r.point = p → p = .starting ∨ p = .logging → task.MayRun i := by
    intro p hp hcase
    have hadv : task.advance false r = { r with point := .looping } := by
      rcases hcase with rfl | rfl <;> simp [advance, hlogger, runRecurringLogger, hp]
    exact .of_step hr hadv rfl fun hr' => mayRun_looping (by simpa) (by simpa) hr' rfl
  rcases hp : r.point with _ | _ | ch | _ | _
  · exact hback .starting hp (.inl rfl)
  · exact mayRun_looping hlogger hinterval hr hp
  · exact mayRun_selecting hlogger hinterval hr hp
  · exact hback .logging hp (.inr rfl)
  · exact absurd hp hpoint

/-! ## Stopped persistent loggers -/

theorem alone_get (hr : task.routines[i]? = some r) (k : Nat) :
    (task.alone i k).routines[i]? = some ((task.advance false)^[k] r) := by
  induction k generalizing task r with
  | zero => exact hr
  | succ k ih => exact ih (get_step hr false)

/-- The persistent goroutine closes `Done` by steps of its own. -/
def Closes (task : LogTask) (r : LoggerRoutine) : Prop :=
  ∃ k, ((task.runPersistentLogger)^[k] r).doneClosed

theorem Closes.of_step (h : task.Closes (task.runPersistentLogger r)) : task.Closes r := by
  rcases h with ⟨k, hk⟩
  exact ⟨k + 1, hk⟩

theorem closes_selecting {ch : Nat} (hch : ch ∈ task.closed) (hpoint : r.point = .selecting ch) :
    task.Closes r := by
  refine ⟨1, ?_⟩
  simp [runPersistentLogger, hpoint, hch]

theorem closes_looping (hdone : task.done ∈ task.closed) (hpoint : r.point = .looping) :
    task.Closes r := by
  refine .of_step (closes_selecting hdone ?_)
  simp [runPersistentLogger, hpoint]

theorem closes_starting (hdone : task.done ∈ task.closed) (hpoint : r.point = .starting) :
    task.Closes r := by
  refine .of_step (closes_looping hdone ?_)
  simp [runPersistentLogger, hpoint]

theorem RoutineKept.closes (h : RoutineKept task i r) (hi : i + 1 ≤ task.done)
    (hlogger : task.logger = .persistent) (hstopped : r.stoppedAt.isSome) : task.Closes r := by
  have hmem : i + 1 ∈ task.closed := h.stopped.mp hstopped
  rcases h.shape hlogger with ⟨hlogging, hclosed, -⟩
  rcases Nat.lt_or_eq_of_le hi with hlt | heq
  · have hsettled := h.settled hlt
    simp only [Settled, hlogger] at hsettled
    rcases hsettled with hleft | ⟨ch, hch, hsel⟩
    · exact ⟨0, hclosed.mpr hleft⟩
    · exact closes_selecting hch hsel
  · rw [heq] at hmem
    rcases hp : r.point with _ | _ | ch | _ | _
    · exact closes_starting hmem hp
    · exact closes_looping hmem hp
    · rw [h.selects heq ch hp] at hp
      exact closes_selecting hmem hp
    · exact absurd hp hlogging
    · exact ⟨0, hclosed.mpr hp⟩

theorem advance_persistent (hlogger : task.logger = .persistent) (c : Bool) :
    task.advance c = task.runPersistentLogger := by
  funext r
  simp only [advance, hlogger]

/-- A persistent goroutine that came to its `select` after the task was started again waits on. -/
theorem not_closes_restarted (hdone : task.done ∉ task.closed) (hopen : r.doneClosed = false)
    (hpoint : r.point = .looping ∨ r.point = .selecting task.done) : ¬ task.Closes r := by
  rintro ⟨k, hk⟩
  induction k generalizing r with
  | zero =>
    rw [Function.iterate_zero, id, hopen] at hk
    cases hk
  | succ k ih =>
    rcases hpoint with hp | hp
    · have hstep : task.runPersistentLogger r = { r with point := .selecting task.done } := by
        simp only [runPersistentLogger, hp]
      rw [Function.iterate_succ_apply, hstep] at hk
      exact ih (r := { r with point := .selecting task.done }) hopen (.inr rfl) hk
    · have hstep : task.runPersistentLogger r = r := by
        simp only [runPersistentLogger, hp, if_neg hdone]
      rw [Function.iterate_succ_apply, hstep] at hk
      exact ih hopen (.inr hp) hk

/-! ## One task -/

theorem Kept.exclusive (h : Kept task) : Exclusive task := by
  have hlast : ∀ i, task.MayRun i → i + 1 = task.done := by
    intro i hmay
    have hi := hmay.1
    rcases List.getElem?_eq_some_iff.mpr ⟨hi, rfl⟩ with hr
    have hkept := h.routines i _ hr
    by_contra hne
    have hlt : i + 1 < task.done := by
      have := h.done
      omega
    exact (hkept.dead_of_settled (hkept.settled hlt)).not_mayRun hr hmay
  refine ⟨fun i j hi hj => ?_, fun i r n hr => (h.routines i r hr).counted n, ?_⟩
  · have := hlast i hi
    have := hlast j hj
    omega
  · intro hlogger i r hr hstopped
    have hle : i + 1 ≤ task.done := by
      rw [h.done]
      exact (List.getElem?_eq_some_iff.mp hr).1
    rcases (h.routines i r hr).closes hle hlogger hstopped with ⟨k, hk⟩
    refine ⟨k, _, alone_get hr k, ?_⟩
    rwa [advance_persistent hlogger]

theorem Kept.next (h : Kept task) {op : TaskOp} (hcareful : task.Careful op) (c : Bool) :
    Kept (task.next (op, c)) := by
  cases op with
  | start args => exact h.next_start args hcareful c
  | stop => exact h.next_stop c
  | clock i => exact h.next_clock i c
  | step i => exact h.next_step i hcareful c

/-- The next channel is not closed. -/
theorem Kept.fresh (h : Kept task) : task.done + 1 ∉ task.closed := by
  rw [h.closed]
  omega

/-- The goroutine of a new start. -/
def newRoutine (args : LoggerArgs) : LoggerRoutine := ⟨args, .starting, false, false, 0, none⟩

theorem next_start_eq (hrunning : task.running = false) (args : LoggerArgs) (c : Bool) :
    task.next (.start args, c) =
      { task with
        args
        done := task.done + 1
        running := true
        routines := task.routines ++ [newRoutine args] } := by
  simp [next, start, hrunning, newRoutine]

theorem get_start_old (hrunning : task.running = false) (args : LoggerArgs) (c : Bool)
    (hr : task.routines[i]? = some r) : (task.next (.start args, c)).routines[i]? = some r := by
  rw [next_start_eq hrunning]
  exact (List.getElem?_append_left (List.getElem?_eq_some_iff.mp hr).1).trans hr

theorem get_start_new (hrunning : task.running = false) (args : LoggerArgs) (c : Bool) :
    (task.next (.start args, c)).routines[task.routines.length]? = some (newRoutine args) := by
  rw [next_start_eq hrunning]
  exact List.getElem?_concat_length

variable {args : LoggerArgs}

/-- Only the new goroutine may run the logger after a start. -/
theorem not_mayRun_old (hgood : Exclusive (task.next (.start args, false)))
    (hr : task.routines[i]? = some r)
    (hnew : (task.next (.start args, false)).MayRun task.routines.length) :
    ¬ (task.next (.start args, false)).MayRun i := by
  intro hold
  have hi : i < task.routines.length := (List.getElem?_eq_some_iff.mp hr).1
  exact absurd (hgood.one_runs i _ hold hnew) (Nat.ne_of_lt hi)

/-- A recurring goroutine that is not settled runs on beside the new one. -/
theorem settled_recurring (hrunning : task.running = false)
    (hgood : Exclusive (task.next (.start args, false))) (hlogger : task.logger = .recurring)
    (hr : task.routines[i]? = some r) : task.Settled r := by
  unfold Settled
  rw [hlogger]
  by_contra hnot
  rcases not_or.mp hnot with ⟨hleft, hinterval⟩
  have hinterval : 0 < task.interval := Int.not_le.mp hinterval
  have hmay : ∀ {j r'}, (task.next (.start args, false)).routines[j]? = some r' →
      r'.point ≠ .left → (task.next (.start args, false)).MayRun j :=
    fun hr' hp => mayRun_recurring (by simpa) (by simpa) hr' hp
  exact not_mayRun_old hgood hr (hmay (get_start_new hrunning args false) nofun)
    (hmay (get_start_old hrunning args false hr) hleft)

/-- A persistent goroutine that is not settled starts its logger beside the new one, or misses its
stop. -/
theorem Kept.settled_persistent (h : Kept task) (hrunning : task.running = false)
    (hgood : Exclusive (task.next (.start args, false))) (hlogger : task.logger = .persistent)
    (hr : task.routines[i]? = some r) : task.Settled r := by
  have hkept := h.routines i r hr
  have hi : i + 1 ≤ task.done := by
    rw [h.done]
    exact (List.getElem?_eq_some_iff.mp hr).1
  have hmem : i + 1 ∈ task.closed := by
    refine (h.closed _).mpr ⟨Nat.succ_pos i, ?_⟩
    exact (Nat.lt_or_eq_of_le hi).imp_right fun heq => ⟨heq, hrunning⟩
  have hold := get_start_old hrunning args false hr
  have hnext : (task.next (.start args, false)).logger = .persistent := by simpa
  rcases hkept.shape hlogger with ⟨hlogging, hclosed, -⟩
  rcases hp : r.point with _ | _ | ch | _ | _
  · have hnew := mayRun_persistent hnext (get_start_new hrunning args false) rfl
    exact absurd (mayRun_persistent hnext hold hp) (not_mayRun_old hgood hr hnew)
  · have hopen : r.doneClosed = false := by
      rw [Bool.eq_false_iff, Ne, hclosed, hp]
      exact nofun
    rcases hgood.done_closed hnext i r hold (hkept.stopped.mpr hmem) with ⟨k, r', hr', hdone⟩
    rw [alone_get hold, advance_persistent hnext, Option.some.injEq] at hr'
    subst hr'
    rw [next_start_eq hrunning] at hdone
    exact absurd ⟨k, hdone⟩ (not_closes_restarted h.fresh hopen (.inl hp))
  · rcases Nat.lt_or_eq_of_le hi with hlt | heq
    · exact hkept.settled hlt
    · unfold Settled
      rw [hlogger]
      refine .inr ⟨ch, ?_, hp⟩
      rw [hkept.selects heq ch hp, ← heq]
      exact hmem
  · exact absurd hp hlogging
  · unfold Settled
    rw [hlogger]
    exact .inl hp

/-- A start while a goroutine is not settled. -/
theorem Kept.careful_start (h : Kept task)
    (hgood : Exclusive (task.next (.start args, false))) : task.Careful (.start args) := by
  intro hrunning r hmem
  rcases List.getElem?_of_mem hmem with ⟨i, hr⟩
  cases hlogger : task.logger with
  | recurring => exact settled_recurring hrunning hgood hlogger hr
  | persistent => exact h.settled_persistent hrunning hgood hlogger hr

/-- A tick at the `select` of a goroutine that has run since its stop. -/
theorem careful_step (hgood : Exclusive (task.next (.step i, true))) : task.Careful (.step i) := by
  rintro r hr ⟨hlogger, htick, ⟨ch, hch, hpoint⟩, n, hn, hlt⟩
  have hstep := get_step hr true
  have hadv : task.advance true r =
      { r with tick := false, point := .logging, runs := r.runs + 1 } := by
    simp [advance, hlogger, runRecurringLogger, hpoint, htick]
  rw [hadv] at hstep
  have hle := hgood.once_more i _ n hstep hn
  dsimp only at hle
  omega

/-- Whatever `select` chooses, the task stays exclusive exactly if the operation is careful. -/
theorem Kept.careful_iff (h : Kept task) (op : TaskOp) :
    (∀ c, Exclusive (task.next (op, c))) ↔ task.Careful op := by
  constructor
  · intro hgood
    cases op with
    | start args => exact h.careful_start (hgood false)
    | stop => trivial
    | clock i => trivial
    | step i => exact careful_step (hgood true)
  · intro hcareful c
    exact (h.next hcareful c).exclusive

end LogTask

/-! ## The manager -/

structure LogManager where
  tasks : Entries String LogTask
deriving DecidableEq, Repr

inductive ManagerOp where
  | addTask (name : String) (logger : LoggerKind) (interval : Int)
  | startTask (name : String) (args : LoggerArgs)
  | stopTask (name : String)
  | clock (name : String) (i : Nat)
  | step (name : String) (i : Nat)
deriving DecidableEq, Repr

namespace LogManager

def makeLogManager : LogManager := ⟨[]⟩

/-- The manager, and the error. -/
def addTask (manager : LogManager) (name : String) (logger : LoggerKind) (interval : Int) :
    LogManager × Option String :=
  match manager.tasks.get? name with
  | some _ => (manager, some ("task \"" ++ name ++ "\" already exists"))
  | none => (⟨manager.tasks.set name (.new logger interval)⟩, none)

def startTask (manager : LogManager) (name : String) (args : LoggerArgs) :
    LogManager × Option String :=
  match manager.tasks.get? name with
  | some task =>
    if task.running then (manager, some ("task \"" ++ name ++ "\" is already running"))
    else
      (⟨manager.tasks.set name (LogTask.start { task with args, done := task.done + 1 })⟩, none)
  | none => (manager, some ("task \"" ++ name ++ "\" does not exist"))

def stopTask (manager : LogManager) (name : String) : LogManager × Option String :=
  match manager.tasks.get? name with
  | some task =>
    if task.running then (⟨manager.tasks.set name task.stop⟩, none)
    else (manager, some ("task \"" ++ name ++ "\" is not running"))
  | none => (manager, some ("task \"" ++ name ++ "\" does not exist"))

/-- A goroutine of a task, or its ticker. -/
def onTask (manager : LogManager) (name : String) (e : TaskOp × Bool) : LogManager :=
  match manager.tasks.get? name with
  | some task => ⟨manager.tasks.set name (task.next e)⟩
  | none => manager

def next (manager : LogManager) : ManagerOp × Bool → LogManager
  | (.addTask name logger interval, _) => (manager.addTask name logger interval).1
  | (.startTask name args, _) => (manager.startTask name args).1
  | (.stopTask name, _) => (manager.stopTask name).1
  | (.clock name i, c) => manager.onTask name (.clock i, c)
  | (.step name i, c) => manager.onTask name (.step i, c)

def Exclusive (manager : LogManager) : Prop :=
  ∀ name task, manager.tasks.get? name = some task → task.Exclusive

/-- The task that an operation is about, and what it does to it. -/
def taskOp : ManagerOp → Option (String × TaskOp)
  | .addTask .. => none
  | .startTask name args => some (name, .start args)
  | .stopTask name => some (name, .stop)
  | .clock name i => some (name, .clock i)
  | .step name i => some (name, .step i)

def Careful (manager : LogManager) (op : ManagerOp) : Prop :=
  ∀ name top task, taskOp op = some (name, top) → manager.tasks.get? name = some task →
    task.Careful top

variable {manager : LogManager} {op : ManagerOp} {name : String} {top : TaskOp} {task : LogTask}

theorem get?_onTask (manager : LogManager) (name name' : String) (e : TaskOp × Bool) :
    (manager.onTask name e).tasks.get? name' =
      if name' = name then (manager.tasks.get? name).map (·.next e)
      else manager.tasks.get? name' := by
  cases hget : manager.tasks.get? name with
  | none =>
    simp only [onTask, hget, Option.map_none]
    split
    · next heq => rw [heq, hget]
    · rfl
  | some task =>
    simp only [onTask, hget, Option.map_some]
    split
    · next heq => rw [heq, Entries.get?_set_self]
    · next hne => exact Entries.get?_set_ne hne

/-- The manager does not touch a task that an operation leaves as it is. -/
theorem get?_unchanged {e : TaskOp × Bool} (hget : manager.tasks.get? name = some task)
    (hsame : task.next e = task) (name' : String) :
    manager.tasks.get? name' = (manager.onTask name e).tasks.get? name' := by
  rw [get?_onTask]
  split
  · next heq => rw [heq, hget, Option.map_some, hsame]
  · rfl

theorem get?_next (htask : taskOp op = some (name, top)) (c : Bool) (name' : String) :
    (manager.next (op, c)).tasks.get? name' =
      (manager.onTask name (top, c)).tasks.get? name' := by
  cases op with
  | addTask name logger interval => cases htask
  | startTask name args =>
    cases htask
    simp only [next, startTask]
    cases hget : manager.tasks.get? name with
    | none => simp [onTask, hget]
    | some task =>
      cases hrunning : task.running with
      | true =>
        have hsame : task.next (.start args, c) = task := by simp [LogTask.next, hrunning]
        simp only [hrunning, if_true]
        exact get?_unchanged hget hsame name'
      | false => simp [onTask, hget, LogTask.next, hrunning]
  | stopTask name =>
    cases htask
    simp only [next, stopTask]
    cases hget : manager.tasks.get? name with
    | none => simp [onTask, hget]
    | some task =>
      cases hrunning : task.running with
      | true => simp [onTask, hget, LogTask.next, hrunning]
      | false =>
        have hsame : task.next (.stop, c) = task := by
          simp [LogTask.next, LogTask.stop, hrunning]
        simp only [hrunning, Bool.false_eq_true, if_false]
        exact get?_unchanged hget hsame name'
  | clock name i =>
    cases htask
    rfl
  | step name i =>
    cases htask
    rfl

/-- A task after an operation is one from before, one that the operation was about, or new. -/
theorem get?_next_cases {c : Bool} (h : (manager.next (op, c)).tasks.get? name = some task) :
    manager.tasks.get? name = some task ∨
      (∃ top task₀, taskOp op = some (name, top) ∧ manager.tasks.get? name = some task₀ ∧
        task = task₀.next (top, c)) ∨
      ∃ logger interval, task = .new logger interval := by
  cases htask : taskOp op with
  | some target =>
    rcases target with ⟨name₀, top⟩
    rw [get?_next htask, get?_onTask] at h
    split at h
    · next heq =>
      subst heq
      rcases Option.map_eq_some_iff.mp h with ⟨task₀, hget, rfl⟩
      exact .inr (.inl ⟨top, task₀, rfl, hget, rfl⟩)
    · exact .inl h
  | none =>
    cases op with
    | addTask name₀ logger interval =>
      simp only [next, addTask] at h
      split at h
      · exact .inl h
      · by_cases heq : name = name₀
        · subst heq
          rw [Entries.get?_set_self] at h
          exact .inr (.inr ⟨logger, interval, (Option.some.inj h).symm⟩)
        · rw [Entries.get?_set_ne heq] at h
          exact .inl h
    | startTask | stopTask | clock | step => cases htask

/-- What every careful run keeps of every task. -/
def Kept (manager : LogManager) : Prop :=
  ∀ name task, manager.tasks.get? name = some task → task.Kept

theorem Kept.next (h : manager.Kept) (hcareful : manager.Careful op) (c : Bool) :
    (manager.next (op, c)).Kept := by
  intro name task hget
  rcases get?_next_cases hget with hold | ⟨top, task₀, htask, hold, rfl⟩ | ⟨logger, interval, rfl⟩
  · exact h name task hold
  · exact (h name task₀ hold).next (hcareful name top task₀ htask hold) c
  · exact LogTask.kept_new logger interval

theorem Kept.careful_iff (h : manager.Kept) (op : ManagerOp) :
    (∀ c, (manager.next (op, c)).Exclusive) ↔ manager.Careful op := by
  constructor
  · intro hgood name top task htask hget
    refine ((h name task hget).careful_iff top).mp fun c => hgood c name _ ?_
    rw [get?_next htask, get?_onTask, if_pos rfl, hget, Option.map_some]
  · intro hcareful c name task hget
    exact ((h.next hcareful c) name task hget).exclusive

/-- Whatever `select` chooses, the loggers of every task are exclusive after every operation,
exactly if at every start the goroutines before it are settled and no tick waits for a goroutine
that has run its logger since its stop. -/
theorem logger_tasks_iff (ops : List ManagerOp) :
    (∀ es : List (ManagerOp × Bool), es.map Prod.fst = ops →
        Along next (fun m e => (m.next e).Exclusive) makeLogManager es) ↔
      ∀ es : List (ManagerOp × Bool), es.map Prod.fst = ops →
        Along next (fun m e => m.Careful e.1) makeLogManager es := by
  have hstep : ∀ (m : LogManager) (op : ManagerOp), m.Kept →
      ((∀ c, (m.next (op, c)).Exclusive) ↔ m.Careful op) ∧
        (m.Careful op → ∀ c, (m.next (op, c)).Kept) :=
    fun _ op h => ⟨h.careful_iff op, h.next⟩
  exact Along.iff_of_choices hstep nofun

/-- The task `a`, started for the first time. -/
def started (logger : LoggerKind) : List (ManagerOp × Bool) :=
  [(.addTask "a" logger 1, false), (.startTask "a" ⟨"a", "a", []⟩, false), (.step "a" 0, false)]

/-- A stop and a start while the logger runs. -/
def duplicatingRun : List (ManagerOp × Bool) :=
  started .recurring ++ [(.step "a" 0, false), (.clock "a" 0, false), (.step "a" 0, false),
    (.stopTask "a", false)] ++ [(.startTask "a" ⟨"a", "a", []⟩, false)]

/-- A `select` that takes the tick twice after the stop. -/
def repeatingRun : List (ManagerOp × Bool) :=
  started .recurring ++ [(.step "a" 0, false), (.stopTask "a", false), (.clock "a" 0, false),
    (.step "a" 0, true), (.clock "a" 0, false), (.step "a" 0, false), (.step "a" 0, false)] ++
    [(.step "a" 0, true)]

/-- A stop and a start before the goroutine comes to its `select`. -/
def missingRun : List (ManagerOp × Bool) :=
  started .persistent ++ [(.stopTask "a", false)] ++ [(.startTask "a" ⟨"a", "a", []⟩, false)]

theorem exclusive_last {es : List (ManagerOp × Bool)} {e : ManagerOp × Bool}
    (h : Along next (fun m e => (m.next e).Exclusive) makeLogManager (es ++ [e])) :
    ((es ++ [e]).foldl next makeLogManager).Exclusive := by
  rw [List.foldl_append]
  exact (Along.append_iff.mp h).2.1

/-- Two goroutines run the logger on, a stopped one runs it twice, and a stopped persistent logger
waits for the next stop. -/
theorem loggers_not_exclusive :
    ¬ Along next (fun m e => (m.next e).Exclusive) makeLogManager duplicatingRun ∧
      ¬ Along next (fun m e => (m.next e).Exclusive) makeLogManager repeatingRun ∧
      ¬ Along next (fun m e => (m.next e).Exclusive) makeLogManager missingRun := by
  refine ⟨fun h => ?_, fun h => ?_, fun h => ?_⟩
  · have hget : (duplicatingRun.foldl next makeLogManager).tasks.get? "a" =
        some ⟨.recurring, 1, ⟨"a", "a", []⟩, 2, [1], true,
          [⟨⟨"a", "a", []⟩, .logging, false, false, 1, some 1⟩,
            ⟨⟨"a", "a", []⟩, .starting, false, false, 0, none⟩]⟩ := by decide
    have hgood := exclusive_last h "a" _ hget
    refine absurd (hgood.one_runs 0 1 ?_ ?_) (by decide)
    · exact LogTask.mayRun_recurring rfl (by decide) rfl nofun
    · exact LogTask.mayRun_recurring rfl (by decide) rfl nofun
  · have hget : (repeatingRun.foldl next makeLogManager).tasks.get? "a" =
        some ⟨.recurring, 1, ⟨"a", "a", []⟩, 1, [1], false,
          [⟨⟨"a", "a", []⟩, .logging, false, false, 2, some 0⟩]⟩ := by decide
    exact absurd ((exclusive_last h "a" _ hget).once_more 0 _ 0 rfl rfl) (by decide)
  · have hget : (missingRun.foldl next makeLogManager).tasks.get? "a" =
        some ⟨.persistent, 0, ⟨"a", "a", []⟩, 2, [1], true,
          [⟨⟨"a", "a", []⟩, .looping, false, false, 1, some 1⟩,
            ⟨⟨"a", "a", []⟩, .starting, false, false, 0, none⟩]⟩ := by decide
    rcases (exclusive_last h "a" _ hget).done_closed rfl 0 _ rfl rfl with ⟨k, r', hr', hdone⟩
    rw [LogTask.alone_get rfl, LogTask.advance_persistent rfl, Option.some.injEq] at hr'
    subst hr'
    exact LogTask.not_closes_restarted (by decide) rfl (.inl rfl) ⟨k, hdone⟩

end LogManager

end Rdfm.Linux
