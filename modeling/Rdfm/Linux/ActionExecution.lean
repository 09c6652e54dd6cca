import Rdfm.Linux.ResultSender
import Mathlib.Data.Rat.Defs

/-!
# Running the actions

What `runCommand` does with a request, in the runner of `ActionRunner`: the action is looked up in a
map that each process builds from its own configuration, while the requests outlive the process. A
method call on an action that is not there panics, and so does the execution of an empty command; a
command that cannot be started has a result like any other. So each request that is taken has exactly
one result as long as its action is configured, with a command, when it is run, and the run ends
(`one_result_for_each_request_iff`).
-/

namespace Rdfm.Linux

open Rdfm.Lib

/-! ## Actions -/

/-- An entry of the actions configuration. -/
structure CommandAction where
  id : String
  command : List String
  timeout : Rat
deriving DecidableEq, Repr

inductive Action where
  | command (action : CommandAction)
  /-- A built-in action; its callback is part of the surroundings. -/
  | callback (id : String)
deriving DecidableEq, Repr

def Action.getId : Action → String
  | .command action => action.id
  | .callback id => id

abbrev ActionMap := Entries String Action

/-- `RebuildActionMap`; of two entries with one id the later one stays. -/
def rebuildActionMap (config : List CommandAction) : ActionMap :=
  config.foldl (fun actions action => actions.set action.id (.command action)) []

def registerAction (actions : ActionMap) (action : Action) : ActionMap :=
  actions.set action.getId action

/-- The map of a process: the configuration, then the built-in actions. -/
def processActions (config : List CommandAction) (builtIn : List Action) : ActionMap :=
  builtIn.foldl registerAction (rebuildActionMap config)

/-- How the process of a command ends, if no timeout ends it. -/
inductive ProcessEnd where
  /-- There is no process, and no `ProcessState`. -/
  | notStarted
  | exited (statusCode : Int) (output : Bytes)
  | neverEnds (output : Bytes)
deriving DecidableEq, Repr

/-- What an execution finds outside the runner. -/
structure ExecutionSurroundings where
  process : ProcessEnd
  /-- The output of the callback, and whether it returns an error. `none` is one that does not return,
  as the check for updates does while its loop does not receive. -/
  callback : Option (Bytes × Bool)
deriving DecidableEq, Repr

inductive ExecuteEnd where
  | panics
  | hangs
  | returns (statusCode : Int) (output : Bytes)
deriving DecidableEq, Repr

/-- `CommandAction.Execute`; the exit code of a nil `ProcessState`, and of a killed process, is -1. -/
def CommandAction.execute (a : CommandAction) (around : ExecutionSurroundings) : ExecuteEnd :=
  match a.command with
  | [] => .panics
  | _ :: _ =>
    match around.process with
    | .notStarted => .returns (-1) []
    | .exited statusCode output => .returns statusCode output
    | .neverEnds output => if 0 < a.timeout then .returns (-1) output else .hangs

def Action.execute (around : ExecutionSurroundings) : Action → ExecuteEnd
  | .command action => action.execute around
  | .callback _ =>
    match around.callback with
    | none => .hangs
    | some (output, failed) => .returns (if failed then 1 else 0) output

/-- The alphabet of `b64.StdEncoding`. -/
def base64Alphabet : List Char :=
  "ABCDEFGHIJKLMNOPQRSTUVWXYZabcdefghijklmnopqrstuvwxyz0123456789+/".toList

def base64Digit (n : Nat) : Char := base64Alphabet.getD n '='

/-- `EncodeToString`: four digits for three bytes, with padding at the end. -/
def encodeToString : Bytes → List Char
  | [] => []
  | [a] => [base64Digit (a.toNat / 4), base64Digit (a.toNat % 4 * 16), '=', '=']
  | [a, b] =>
    [base64Digit (a.toNat / 4), base64Digit (a.toNat % 4 * 16 + b.toNat / 16),
      base64Digit (b.toNat % 16 * 4), '=']
  | a :: b :: d :: rest =>
    base64Digit (a.toNat / 4) :: base64Digit (a.toNat % 4 * 16 + b.toNat / 16) ::
      base64Digit (b.toNat % 16 * 4 + d.toNat / 64) :: base64Digit (d.toNat % 64) ::
      encodeToString rest

inductive RunEnd where
  | panics
  | hangs
  | returns (result : ActionResult)
deriving DecidableEq, Repr

/-- `runCommand`; the action that is not in the map is a nil interface. -/
def runCommand (actions : ActionMap) (request : ActionRequest)
    (around : ExecutionSurroundings) : RunEnd :=
  match actions.get? request.actionId with
  | none => .panics
  | some action =>
    match action.execute around with
    | .panics => .panics
    | .hangs => .hangs
    | .returns statusCode output =>
      .returns ⟨request.execId, statusCode, String.ofList (encodeToString output)⟩

/-- There is something to run. -/
def Action.startable : Action → Bool
  | .command action => !action.command.isEmpty
  | .callback _ => true

/-- The ids of the actions that can be run. -/
def runnable (actions : ActionMap) : List String :=
  (actions.map Prod.fst).filter fun id => (actions.get? id).any Action.startable

/-! ## The runner with its actions -/

/-- A runner, the actions of its process, and what happened so far: the requests that the command
loop has taken, and the results of `runCommand`. -/
structure ExecutingRunner where
  runner : ActionRunner StoreSystem
  actions : ActionMap
  taken : List ActionRequest
  produced : List ActionResult
deriving DecidableEq

inductive ExecutionEvent where
  /-- A step of the runner that neither runs an action nor starts a process. -/
  | runner (e : RunnerEvent)
  /-- `runCommand`, if the command loop is there. -/
  | run (around : ExecutionSurroundings)
  | restart (queueSize : Nat) (config : List CommandAction) (builtIn : List Action)

/-- The request that is being run. -/
def CommandPhase.inRun : CommandPhase → List ActionRequest
  | .running request => [request]
  | _ => []

/-- The request that a step has taken. -/
def takenBy : CommandPhase → CommandPhase → List ActionRequest
  | .reserved, .running request => [request]
  | _, _ => []

namespace ExecutingRunner

variable (c : ActionCodec)

def stepRunner (s : ExecutingRunner) (e : RunnerEvent) : ExecutingRunner :=
  let runner := s.runner.step StoreSystem.step c e
  { s with
    runner
    taken := s.taken ++ takenBy s.runner.loops.command runner.loops.command }

def step (s : ExecutingRunner) : ExecutionEvent → ExecutingRunner
  | .runner (.finish _ _) => s
  | .runner (.restart _ _) => s
  | .runner e => s.stepRunner c e
  | .run around =>
    match s.runner.loops.command with
    | .running request =>
      if s.runner.loops.alive then
        match runCommand s.actions request around with
        | .hangs => s
        -- the runner knows which actions can be run, and panics for the others
        | .panics => { s with runner := s.runner.step StoreSystem.step c (.finish 0 "") }
        | .returns result =>
          { s with
            runner := s.runner.step StoreSystem.step c (.finish result.statusCode result.output)
            produced := s.produced ++ [result] }
      else s
    | _ => s
  | .restart queueSize config builtIn =>
    if s.runner.loops.alive then s
    else
      let actions := processActions config builtIn
      { s with
        runner := s.runner.step StoreSystem.step c (.restart queueSize (runnable actions))
        actions }

/-- `NewActionRunner` on the data directory of an earlier process. -/
def start (queueSize : Nat) (config : List CommandAction) (builtIn : List Action)
    (reqDir resDir : Dir) : Option ExecutingRunner :=
  let actions := processActions config builtIn
  (ActionRunner.reloadActionRunner queueSize (runnable actions) reqDir resDir).map fun runner =>
    ⟨runner, actions, [], []⟩

/-- The request that the live process is running. -/
def pending (s : ExecutingRunner) : List ActionRequest :=
  if s.runner.loops.alive then s.runner.loops.command.inRun else []

/-- Every request that was taken has one result with its execution id, but for the one that is being
run. -/
def Answered (s : ExecutingRunner) : Prop :=
  s.taken.map ActionRequest.execId =
    s.produced.map ActionResult.execId ++ s.pending.map ActionRequest.execId

/-- After the event every request is answered, and none is being run any more once `runCommand` has
had all that it waits for. -/
def AnsweredAfter (s : ExecutingRunner) (e : ExecutionEvent) : Prop :=
  (s.step c e).Answered ∧ ∀ around, e = .run around → (s.step c e).pending = []

/-- The action is configured, its command is not empty, and its run ends, or its callback returns. -/
def Runs (actions : ActionMap) (request : ActionRequest) (around : ExecutionSurroundings) : Prop :=
  ∃ action, actions.get? request.actionId = some action ∧
    match action with
    | .command a => a.command ≠ [] ∧ (0 < a.timeout ∨ ∀ output, around.process ≠ .neverEnds output)
    | .callback _ => around.callback ≠ none

/-- The action of the request that is run can be run to its end, and the power is not lost
meanwhile. -/
def Runnable (s : ExecutingRunner) : ExecutionEvent → Prop
  | .run around => ∀ request ∈ s.pending, Runs s.actions request around
  | .runner .powerLoss => s.pending = []
  | _ => True

/-! ## One run -/

section Run

variable {actions : ActionMap} {request : ActionRequest} {around : ExecutionSurroundings}

theorem mem_runnable_iff {id : String} :
    id ∈ runnable actions ↔ ∃ action, actions.get? id = some action ∧ action.startable := by
  unfold runnable
  rw [List.mem_filter]
  constructor
  · rintro ⟨-, hany⟩
    cases hget : actions.get? id with
    | none =>
      rw [hget] at hany
      cases hany
    | some action =>
      rw [hget] at hany
      exact ⟨action, rfl, hany⟩
  · rintro ⟨action, hget, hstart⟩
    exact ⟨List.mem_map_of_mem (Entries.mem_of_get? hget), by rw [hget]; exact hstart⟩

theorem CommandAction.execute_of_ne_nil {a : CommandAction} (h : a.command ≠ []) :
    a.execute around = match around.process with
      | .notStarted => .returns (-1) []
      | .exited statusCode output => .returns statusCode output
      | .neverEnds output => if 0 < a.timeout then .returns (-1) output else .hangs := by
  unfold CommandAction.execute
  split
  · next hnil => exact absurd hnil h
  · rfl

/-- The three ends of a run, each with its cause. -/
theorem runCommand_cases (actions : ActionMap) (request : ActionRequest)
    (around : ExecutionSurroundings) :
    (Runs actions request around ∧ request.actionId ∈ runnable actions ∧
      ∃ statusCode output, runCommand actions request around =
        .returns ⟨request.execId, statusCode, output⟩) ∨
    (¬ Runs actions request around ∧ request.actionId ∉ runnable actions ∧
      runCommand actions request around = .panics) ∨
    (¬ Runs actions request around ∧ runCommand actions request around = .hangs) := by
  unfold Runs runCommand
  rw [mem_runnable_iff]
  cases hget : actions.get? request.actionId with
  | none => exact .inr (.inl ⟨by simp, by simp, rfl⟩)
  | some action =>
    cases action with
    | callback id =>
      simp only [Action.execute]
      cases hcallback : around.callback with
      | none =>
        refine .inr (.inr ⟨?_, rfl⟩)
        rintro ⟨action, haction, hruns⟩
        cases haction
        exact hruns rfl
      | some answer =>
        exact .inl ⟨⟨_, rfl, Option.some_ne_none answer⟩, ⟨_, rfl, rfl⟩, _, _, rfl⟩
    | command a =>
      by_cases hnil : a.command = []
      · refine .inr (.inl ⟨?_, ?_, ?_⟩)
        · rintro ⟨action, haction, hruns⟩
          cases haction
          exact hruns.1 hnil
        · rintro ⟨action, haction, hstart⟩
          cases haction
          simp [Action.startable, hnil] at hstart
        · simp [Action.execute, CommandAction.execute, hnil]
      · have hstart : (Action.command a).startable := by simp [Action.startable, hnil]
        simp only [Action.execute, CommandAction.execute_of_ne_nil hnil]
        cases hprocess : around.process with
        | notStarted => exact .inl ⟨⟨_, rfl, hnil, .inr nofun⟩, ⟨_, rfl, hstart⟩, _, _, rfl⟩
        | exited statusCode output =>
          exact .inl ⟨⟨_, rfl, hnil, .inr nofun⟩, ⟨_, rfl, hstart⟩, _, _, rfl⟩
        | neverEnds output =>
          by_cases htimeout : 0 < a.timeout
          · simp only [if_pos htimeout]
            exact .inl ⟨⟨_, rfl, hnil, .inl htimeout⟩, ⟨_, rfl, hstart⟩, _, _, rfl⟩
          · simp only [if_neg htimeout]
            refine .inr (.inr ⟨?_, trivial⟩)
            rintro ⟨action, haction, hruns⟩
            cases haction
            exact hruns.2.elim htimeout fun hends => hends output rfl

end Run

/-! ## Steps of the runner -/

section Steps

variable {c : ActionCodec} {s : ExecutingRunner} {r : ActionRunner StoreSystem} {e : RunnerEvent}

theorem inRun_of_eq {before after : CommandPhase} (h : after = before) :
    after.inRun = before.inRun ++ takenBy before after := by
  subst h
  cases after <;> rfl

theorem inRun_of_nil {before after : CommandPhase} (hbefore : before.inRun = [])
    (hafter : after.inRun = []) : after.inRun = before.inRun ++ takenBy before after := by
  unfold takenBy
  split
  · cases hafter
  · rw [hbefore, hafter, List.append_nil]

/-- What a step that neither runs an action nor starts a process does to the command loop. -/
structure Quiet (before after : RunnerLoops) : Prop where
  alive : after.alive = before.alive
  actionMap : after.actionMap = before.actionMap
  inRun : after.command.inRun =
    before.command.inRun ++ takenBy before.command after.command

theorem Quiet.of_command {before after : RunnerLoops} (halive : after.alive = before.alive)
    (hmap : after.actionMap = before.actionMap) (hcommand : after.command = before.command) :
    Quiet before after := ⟨halive, hmap, inRun_of_eq hcommand⟩

theorem Quiet.refl (l : RunnerLoops) : Quiet l l := .of_command rfl rfl rfl

theorem Quiet.onRequests {op : QueueOp Bytes} {k : QueueResult Bytes → RunnerLoops}
    (h : ∀ res, Quiet r.loops (k res)) :
    Quiet r.loops (r.onRequests StoreSystem.step op k).loops := by
  unfold ActionRunner.onRequests
  split
  · exact .refl _
  · exact h _

theorem Quiet.onResults {op : QueueOp Bytes} {k : QueueResult Bytes → RunnerLoops}
    (h : ∀ res, Quiet r.loops (k res)) :
    Quiet r.loops (r.onResults StoreSystem.step op k).loops := by
  unfold ActionRunner.onResults
  split
  · exact .refl _
  · exact h _

/-- A dequeued request is taken, and is then the one in the run. -/
theorem quiet_take (hcommand : r.loops.command = .reserved) (res : QueueResult Bytes) :
    Quiet r.loops { r.loops with command := ActionRunner.commandAfter c res } := by
  refine ⟨rfl, rfl, ?_⟩
  dsimp only
  rw [hcommand]
  cases ActionRunner.commandAfter c res <;> rfl

theorem quiet_liveStep (hfinish : ∀ code output, e ≠ .finish code output) (hpower : e ≠ .powerLoss) :
    Quiet r.loops (r.liveStep StoreSystem.step c e).loops := by
  cases e with
  | execute request => exact .onRequests fun _ => .refl _
  | accept i =>
    refine .onRequests fun res => ?_
    cases res <;> exact .of_command rfl rfl rfl
  | dequeue =>
    dsimp only [ActionRunner.liveStep]
    split
    · next hidle => exact .onRequests fun _ => ⟨rfl, rfl, inRun_of_nil (by rw [hidle]; rfl) rfl⟩
    · exact .refl _
  | take =>
    dsimp only [ActionRunner.liveStep]
    split
    · next hreserved => exact .onRequests fun res => quiet_take hreserved res
    · exact .refl _
  | finish code output => exact absurd rfl (hfinish code output)
  | reserveSlot =>
    dsimp only [ActionRunner.liveStep]
    split
    · next result hstoring =>
      exact .onResults fun _ => ⟨rfl, rfl, inRun_of_nil (by rw [hstoring]; rfl) rfl⟩
    · exact .refl _
  | enqueueFails =>
    dsimp only [ActionRunner.liveStep]
    split
    · next result hstoring =>
      split
      · exact ⟨rfl, rfl, inRun_of_nil (by rw [hstoring]; rfl) rfl⟩
      · exact .refl _
    · exact .refl _
  | storeResult =>
    dsimp only [ActionRunner.liveStep]
    split
    · next result hpushing =>
      exact .onResults fun _ => ⟨rfl, rfl, inRun_of_nil (by rw [hpushing]; rfl) rfl⟩
    · exact .refl _
  | waitNonEmpty | peek =>
    dsimp only [ActionRunner.liveStep]
    split
    · exact .onResults fun _ => .of_command rfl rfl rfl
    · exact .refl _
  | callback ok =>
    dsimp only [ActionRunner.liveStep]
    split
    · split
      · exact .of_command rfl rfl rfl
      · exact .refl _
    · exact .refl _
  | pop =>
    dsimp only [ActionRunner.liveStep]
    split
    · refine .onResults fun res => ?_
      cases res <;> exact .of_command rfl rfl rfl
    · exact .refl _
  | leaveCommandLoop =>
    dsimp only [ActionRunner.liveStep]
    split
    · next hidle => exact ⟨rfl, rfl, inRun_of_nil (by rw [hidle.1]; rfl) rfl⟩
    · exact .refl _
  | leaveResponderLoop =>
    dsimp only [ActionRunner.liveStep]
    split
    · exact .of_command rfl rfl rfl
    · exact .refl _
  | cancel => exact .of_command rfl rfl rfl
  | powerLoss => exact absurd rfl hpower
  | restart => exact .refl _

/-- What holds between the steps. -/
structure Ready (s : ExecutingRunner) : Prop where
  answered : s.Answered
  actionMap : s.runner.loops.actionMap = runnable s.actions

theorem pending_of_alive (halive : s.runner.loops.alive = true) :
    s.pending = s.runner.loops.command.inRun := if_pos halive

theorem pending_of_dead (hdead : ¬ s.runner.loops.alive = true) : s.pending = [] := if_neg hdead

theorem takenBy_self (phase : CommandPhase) : takenBy phase phase = [] := by
  cases phase <;> rfl

theorem stepRunner_dead (hdead : ¬ s.runner.loops.alive = true)
    (hrestart : ∀ size actions, e ≠ .restart size actions) : s.stepRunner c e = s := by
  have hstep : s.runner.step StoreSystem.step c e = s.runner := by
    unfold ActionRunner.step
    rw [if_neg hdead]
    split
    · exact absurd rfl (hrestart _ _)
    · rfl
  unfold stepRunner
  dsimp only
  rw [hstep, takenBy_self, List.append_nil]

/-- A step between the runs keeps every answer. -/
theorem Ready.stepRunner (h : Ready s) (hfinish : ∀ code output, e ≠ .finish code output)
    (hrestart : ∀ size actions, e ≠ .restart size actions) (hpower : e ≠ .powerLoss) :
    Ready (s.stepRunner c e) := by
  by_cases halive : s.runner.loops.alive = true
  · have hstep : s.runner.step StoreSystem.step c e = s.runner.liveStep StoreSystem.step c e := by
      unfold ActionRunner.step
      rw [if_pos halive]
    have hquiet : Quiet s.runner.loops (s.runner.step StoreSystem.step c e).loops := by
      rw [hstep]
      exact quiet_liveStep hfinish hpower
    refine ⟨?_, hquiet.actionMap.trans h.actionMap⟩
    have hpending : (s.stepRunner c e).pending =
        s.pending ++ takenBy s.runner.loops.command
          (s.runner.step StoreSystem.step c e).loops.command := by
      rw [pending_of_alive halive, ← hquiet.inRun]
      exact if_pos (hquiet.alive.trans halive)
    have hanswered := h.answered
    unfold Answered at hanswered ⊢
    rw [hpending, List.map_append, ← List.append_assoc]
    change (s.taken ++ _).map _ = s.produced.map _ ++ _ ++ _
    rw [List.map_append, hanswered]
  · rw [stepRunner_dead halive hrestart]
    exact h

/-- A loss of power takes the request in the run with it. -/
theorem Ready.powerLoss_iff (h : Ready s) :
    (s.stepRunner c .powerLoss).Answered ↔ s.pending = [] := by
  by_cases halive : s.runner.loops.alive = true
  · have hstep : s.stepRunner c .powerLoss =
        { s with runner := { s.runner with loops := { s.runner.loops with alive := false } } } := by
      unfold ExecutingRunner.stepRunner ActionRunner.step
      dsimp only [ActionRunner.liveStep]
      rw [if_pos halive, takenBy_self, List.append_nil]
    have hanswered := h.answered
    unfold Answered at hanswered ⊢
    rw [hstep]
    change s.taken.map _ = s.produced.map _ ++ [] ↔ _
    rw [hanswered, List.append_cancel_left_eq, List.map_eq_nil_iff]
  · rw [stepRunner_dead halive (by rintro _ _ ⟨⟩)]
    exact iff_of_true h.answered (pending_of_dead halive)

theorem Ready.powerLoss (h : Ready s) (hpending : s.pending = []) :
    Ready (s.stepRunner c .powerLoss) := by
  refine ⟨h.powerLoss_iff.mpr hpending, ?_⟩
  by_cases halive : s.runner.loops.alive = true
  · unfold ExecutingRunner.stepRunner ActionRunner.step
    rw [if_pos halive]
    exact h.actionMap
  · rw [stepRunner_dead halive (by rintro _ _ ⟨⟩)]
    exact h.actionMap

theorem step_finish {request : ActionRequest} (halive : s.runner.loops.alive = true)
    (hrunning : s.runner.loops.command = .running request) (code : Int) (output : String) :
    s.runner.step StoreSystem.step c (.finish code output) =
      if request.actionId ∈ s.runner.loops.actionMap then
        { s.runner with loops := { s.runner.loops with
          command := .storing ⟨request.execId, code, output⟩ } }
      else { s.runner with loops := { s.runner.loops with alive := false } } := by
  unfold ActionRunner.step
  rw [if_pos halive]
  dsimp only [ActionRunner.liveStep]
  rw [hrunning]

/-- The run of a request that can be run to its end answers it; any other one does not. -/
theorem Ready.run (h : Ready s) {request : ActionRequest} (halive : s.runner.loops.alive = true)
    (hrunning : s.runner.loops.command = .running request) (around : ExecutionSurroundings) :
    (Runs s.actions request around ∧ Ready (s.step c (.run around)) ∧
      (s.step c (.run around)).pending = []) ∨
    (¬ Runs s.actions request around ∧
      ¬ ((s.step c (.run around)).Answered ∧ (s.step c (.run around)).pending = [])) := by
  have hpending : s.pending = [request] := by
    rw [pending_of_alive halive, hrunning]
    rfl
  have hanswered := h.answered
  unfold Answered at hanswered
  rw [hpending] at hanswered
  have hstep : s.step c (.run around) = match runCommand s.actions request around with
      | .hangs => s
      | .panics => { s with runner := s.runner.step StoreSystem.step c (.finish 0 "") }
      | .returns result => { s with
          runner := s.runner.step StoreSystem.step c (.finish result.statusCode result.output)
          produced := s.produced ++ [result] } := by
    dsimp only [ExecutingRunner.step]
    rw [hrunning]
    exact if_pos halive
  rw [hstep]
  rcases runCommand_cases s.actions request around with ⟨hruns, hmem, code, output, hrun⟩ |
    ⟨hruns, hmem, hrun⟩ | ⟨hruns, hrun⟩
  · rw [hrun]
    dsimp only
    rw [step_finish halive hrunning, h.actionMap, if_pos hmem]
    refine .inl ⟨hruns, ⟨?_, h.actionMap⟩, if_pos halive⟩
    change s.taken.map _ =
      (s.produced ++ [(⟨request.execId, code, output⟩ : ActionResult)]).map ActionResult.execId ++
        (if s.runner.loops.alive = true then [] else []).map _
    rw [if_pos halive, hanswered, List.map_append]
    simp
  · rw [hrun]
    dsimp only
    rw [step_finish halive hrunning, h.actionMap, if_neg hmem]
    refine .inr ⟨hruns, fun hafter => ?_⟩
    have hlost : s.taken.map ActionRequest.execId = s.produced.map ActionResult.execId ++ [] :=
      hafter.1
    rw [hanswered] at hlost
    simp at hlost
  · rw [hrun]
    refine .inr ⟨hruns, fun hafter => ?_⟩
    have hstuck : s.pending = [] := hafter.2
    rw [hpending] at hstuck
    cases hstuck

theorem storeSystem_restart (q : StoreSystem) (queueSize : Nat) :
    ∃ q' r, StoreSystem.step q (.restart queueSize) = some (q', r) := by
  dsimp only [StoreSystem.step]
  split
  · exact ⟨_, _, rfl⟩
  · exact ⟨_, _, rfl⟩

theorem loops_restart (hdead : ¬ s.runner.loops.alive = true) (queueSize : Nat)
    (actionMap : List String) :
    (s.runner.step StoreSystem.step c (.restart queueSize actionMap)).loops =
      { s.runner.loops with
        alive := true, cancelled := false, actionMap, command := .idle, responder := .idle } := by
  rcases storeSystem_restart s.runner.reqStore queueSize with ⟨reqStore, r, hreq⟩
  rcases storeSystem_restart s.runner.resStore queueSize with ⟨resStore, r', hres⟩
  unfold ActionRunner.step
  rw [if_neg hdead]
  dsimp only [ActionRunner.restart, ActionRunner.onRequests, ActionRunner.onResults]
  rw [hreq]
  dsimp only
  rw [hres]

theorem Ready.restart (h : Ready s) (queueSize : Nat) (config : List CommandAction)
    (builtIn : List Action) : Ready (s.step c (.restart queueSize config builtIn)) := by
  dsimp only [ExecutingRunner.step]
  by_cases halive : s.runner.loops.alive = true
  · rw [if_pos halive]
    exact h
  · rw [if_neg halive]
    have hloops := loops_restart (c := c) halive queueSize (runnable (processActions config builtIn))
    refine ⟨?_, congrArg RunnerLoops.actionMap hloops⟩
    have hanswered := h.answered
    unfold Answered at hanswered ⊢
    rw [pending_of_dead halive] at hanswered
    rw [pending_of_alive (congrArg RunnerLoops.alive hloops)]
    dsimp only
    rw [hloops]
    exact hanswered

/-- A step answers the requests exactly if it is one that does, and then the next one can follow. -/
theorem Ready.step (h : Ready s) (e : ExecutionEvent) :
    (AnsweredAfter c s e ↔ s.Runnable e) ∧ (s.Runnable e → Ready (s.step c e)) := by
  unfold AnsweredAfter
  cases e with
  | run around =>
    have hevent : (∀ around', ExecutionEvent.run around = .run around' →
        (s.step c (.run around)).pending = []) ↔ (s.step c (.run around)).pending = [] :=
      ⟨fun hall => hall around rfl, fun hpending _ _ => hpending⟩
    rw [hevent]
    by_cases hpending : s.pending = []
    · have hrunnable : s.Runnable (.run around) := by
        intro request hrequest
        rw [hpending] at hrequest
        cases hrequest
      have hstep : s.step c (.run around) = s := by
        dsimp only [ExecutingRunner.step]
        split
        · next request hrunning =>
          split
          · next halive =>
            rw [pending_of_alive halive, hrunning] at hpending
            cases hpending
          · rfl
        · rfl
      rw [hstep]
      exact ⟨iff_of_true ⟨h.answered, hpending⟩ hrunnable, fun _ => h⟩
    · have halive : s.runner.loops.alive = true := by
        by_contra hdead
        exact hpending (pending_of_dead hdead)
      rw [pending_of_alive halive] at hpending
      cases hcommand : s.runner.loops.command with
      | running request =>
        have hone : s.Runnable (.run around) ↔ Runs s.actions request around := by
          unfold Runnable
          dsimp only
          rw [pending_of_alive halive, hcommand]
          simp [CommandPhase.inRun]
        rw [hone]
        rcases h.run (c := c) halive hcommand around with ⟨hruns, hready, hnone⟩ | ⟨hruns, hnot⟩
        · exact ⟨iff_of_true ⟨hready.answered, hnone⟩ hruns, fun _ => hready⟩
        · exact ⟨iff_of_false hnot hruns, fun hyes => absurd hyes hruns⟩
      | idle | reserved | storing | pushing | exited =>
        rw [hcommand] at hpending
        exact absurd rfl hpending
  | restart queueSize config builtIn =>
    have hready := h.restart (c := c) queueSize config builtIn
    exact ⟨iff_of_true ⟨hready.answered, by rintro _ ⟨⟩⟩ trivial, fun _ => hready⟩
  | runner e =>
    by_cases hpower : e = .powerLoss
    · subst hpower
      refine ⟨⟨fun hafter => h.powerLoss_iff.mp hafter.1, fun hpending => ?_⟩, h.powerLoss⟩
      exact ⟨h.powerLoss_iff.mpr hpending, by rintro _ ⟨⟩⟩
    · have hrunnable : s.Runnable (.runner e) := by
        unfold Runnable
        split
        · next heq => cases heq
        · next heq =>
          cases heq
          exact absurd rfl hpower
        · trivial
      have hready : Ready (s.step c (.runner e)) := by
        cases e with
        | finish | restart => exact h
        | execute | accept | dequeue | take | reserveSlot | enqueueFails | storeResult
        | waitNonEmpty | peek | callback | pop | cancel | leaveCommandLoop | leaveResponderLoop
        | powerLoss =>
          exact h.stepRunner (by rintro _ _ ⟨⟩) (by rintro _ _ ⟨⟩) hpower
      exact ⟨iff_of_true ⟨hready.answered, by rintro _ ⟨⟩⟩ hrunnable, fun _ => hready⟩

end Steps

/-! ## Whole runs -/

/-- **Through every order of requests, steps of the loops, losses of power and restarts with other
configurations, each request that is taken has exactly one result with its execution id, exactly as
long as every run finds its action configured, with a command, and comes to its end.** -/
theorem one_result_for_each_request_iff (c : ActionCodec) (queueSize : Nat)
    (config : List CommandAction) (builtIn : List Action) (reqDir resDir : Dir) {s : ExecutingRunner}
    (hstart : start queueSize config builtIn reqDir resDir = some s) (events : List ExecutionEvent) :
    Along (step c) (AnsweredAfter c) s events ↔ Along (step c) Runnable s events := by
  have hready : Ready s := by
    unfold start ActionRunner.reloadActionRunner at hstart
    rcases Option.map_eq_some_iff.mp hstart with ⟨runner, hrunner, rfl⟩
    cases hreq : StoreSystem.newFileStore queueSize reqDir with
    | none =>
      rw [hreq] at hrunner
      cases hrunner
    | some reqStore =>
      cases hres : StoreSystem.newFileStore queueSize resDir with
      | none =>
        rw [hreq, hres] at hrunner
        cases hrunner
      | some resStore =>
        rw [hreq, hres] at hrunner
        cases hrunner
        exact ⟨rfl, rfl⟩
  exact Along.iff_of_invariant (fun s e h => h.step e) hready

/-! ## Three requests -/

/-- What an execution finds whose command cannot be started. -/
def withoutProcess : ExecutionSurroundings := ⟨.notStarted, some ([], false)⟩

/-- A request is made, stored, taken and run. -/
def requestRun (request : ActionRequest) : List ExecutionEvent :=
  [.runner (.execute request), .runner (.accept 0), .runner .dequeue, .runner .take,
    .run withoutProcess]

/-- A process with one configured action and one built-in action. -/
def configuredRunner : ExecutingRunner :=
  ⟨⟨StoreSystem.emptyStore, StoreSystem.emptyStore,
      ⟨true, false, ["update", "check"], .idle, .idle, [], [], []⟩⟩,
    [("update", .command ⟨"update", ["/usr/bin/update"], 0⟩), ("check", .callback "check")], [], []⟩

/-- A command that cannot be started has a result. -/
theorem one_result_for_unstartable :
    start 1 [⟨"update", ["/usr/bin/update"], 0⟩] [.callback "check"] [] [] = some configuredRunner ∧
      Along (step plainCodec) (AnsweredAfter plainCodec) configuredRunner
        (requestRun ⟨"e", "update"⟩) ∧
      ((requestRun ⟨"e", "update"⟩).foldl (step plainCodec) configuredRunner).produced =
        [⟨"e", -1, ""⟩] := by
  have hstart : start 1 [⟨"update", ["/usr/bin/update"], 0⟩] [.callback "check"] [] [] =
      some configuredRunner := by decide +kernel
  refine ⟨hstart, ?_, by decide +kernel⟩
  apply (one_result_for_each_request_iff plainCodec 1 _ _ _ _ hstart _).mpr
  refine ⟨trivial, trivial, trivial, trivial, fun request hrequest => ?_, trivial⟩
  have hpending : ([.runner (.execute ⟨"e", "update"⟩), .runner (.accept 0), .runner .dequeue,
      .runner .take].foldl (step plainCodec) configuredRunner).pending = [⟨"e", "update"⟩] := by
    decide +kernel
  have hmem : request ∈ [(⟨"e", "update"⟩ : ActionRequest)] := by
    rw [← hpending]
    exact hrequest
  rw [List.mem_singleton] at hmem
  subst hmem
  exact ⟨.command ⟨"update", ["/usr/bin/update"], 0⟩, by decide +kernel, by decide, .inr nofun⟩

/-- A process whose only configured action has no command. -/
def emptyCommandRunner : ExecutingRunner :=
  ⟨⟨StoreSystem.emptyStore, StoreSystem.emptyStore,
      ⟨true, false, [], .idle, .idle, [], [], []⟩⟩, [("update", .command ⟨"update", [], 0⟩)], [], []⟩

/-- An empty command, and an action that is not configured, end the process without a result. -/
theorem request_without_result :
    start 1 [⟨"update", [], 0⟩] [] [] [] = some emptyCommandRunner ∧
      ∀ id ∈ ["update", "gone"],
        let s := (requestRun ⟨"e", id⟩).foldl (step plainCodec) emptyCommandRunner
        s.runner.loops.alive = false ∧ s.taken = [⟨"e", id⟩] ∧ s.produced = [] ∧
          ¬ Along (step plainCodec) (AnsweredAfter plainCodec) emptyCommandRunner
            (requestRun ⟨"e", id⟩) := by
  refine ⟨by decide +kernel, fun id hid => ?_⟩
  have hend : ∀ id ∈ ["update", "gone"],
      let s := (requestRun ⟨"e", id⟩).foldl (step plainCodec) emptyCommandRunner
      s.runner.loops.alive = false ∧ s.taken = [⟨"e", id⟩] ∧ s.produced = [] := by
    decide +kernel
  rcases hend id hid with ⟨hdead, htaken, hproduced⟩
  refine ⟨hdead, htaken, hproduced, ?_⟩
  intro hrun
  have hstart : emptyCommandRunner.Answered := rfl
  have hanswered : ((requestRun ⟨"e", id⟩).foldl (step plainCodec) emptyCommandRunner).Answered :=
    Along.foldl_invariant (fun _ _ _ hafter => hafter.1) hstart hrun
  unfold Answered at hanswered
  rw [htaken, hproduced, pending_of_dead (by rw [hdead]; decide)] at hanswered
  cases hanswered

end ExecutingRunner

end Rdfm.Linux
