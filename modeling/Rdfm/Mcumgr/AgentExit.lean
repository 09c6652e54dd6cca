import Mathlib.Algebra.Order.BigOperators.Group.Finset
import Mathlib.Data.Fintype.Card
import Mathlib.Data.List.Nodup
import Mathlib.Logic.Function.Basic
import Mathlib.Logic.Relation
import Mathlib.Tactic.Common

/-!
# The exit of the mcumgr client

`Run` starts an update loop for every device and every group, and a handler of exit signals. Once its
device is set up, a loop puts a channel of its own into `exitChs`. On a signal the handler takes the
channels out, one by one, and sends a request on each; when `exitChs` is empty it closes it. A loop
that has found its request returns, and `Run` returns with the last loop.

A loop that comes to put its channel after the close crashes the client: this can happen exactly as
long as a device is not set up (`agent_crashes_iff`). After the close, every loop whose channel the
handler has taken out has its request. If these are all loops at work, the client ends; a loop that
put its channel between the last look at `exitChs` and the close never gets a request, and can keep
the client at work (`agent_exits`).
-/

namespace Rdfm.Mcumgr

/-! ## The client -/

/-- How an update loop has ended. -/
inductive LoopEnd where
  | setupFailed
  | retryLimit
  | exiting
deriving DecidableEq, Repr

/-- Where a loop is: in `InitSingle` or `InitGroup`, before it puts its channel, in `runUpdateTask`, in
its `select`, or done. -/
inductive LoopPhase where
  | setup
  | registering
  | task (updateAttempt : Nat)
  | waiting (updateAttempt : Nat)
  | stopped (cause : LoopEnd)
deriving DecidableEq, Repr

/-- A device or a group. -/
structure UpdateLoop where
  phase : LoopPhase
  /-- The request is in the channel of the loop. -/
  exitC : Bool
deriving DecidableEq, Repr

/-- `exitSignal`: before the signal, at its loop, with a channel in the hand, behind the loop, and
behind the close. -/
inductive ExitHandler (ι : Type) where
  | listening
  | draining
  | holding (c : ι)
  | closing
  | closed

/-- The process: it ends with `Run`, by a panic, or by `os.Exit` a minute after the close. -/
inductive AgentStatus where
  | running
  | returned
  | crashed
  | forcedExit
deriving DecidableEq, Repr

structure Agent (ι : Type) where
  loops : ι → UpdateLoop
  exitChs : List ι
  handler : ExitHandler ι
  status : AgentStatus

namespace Agent

variable {ι : Type}

def start : Agent ι := ⟨fun _ => ⟨.setup, false⟩, [], .listening, .running⟩

variable [DecidableEq ι] (s : Agent ι)

def setPhase (i : ι) (phase : LoopPhase) : Agent ι :=
  { s with loops := Function.update s.loops i { s.loops i with phase } }

def setExitC (i : ι) (exitC : Bool) : Agent ι :=
  { s with loops := Function.update s.loops i { s.loops i with exitC } }

@[simp, grind =] theorem setPhase_phase (i j : ι) (phase : LoopPhase) :
    ((s.setPhase i phase).loops j).phase = if j = i then phase else (s.loops j).phase := by
  simp only [setPhase, Function.update_apply]
  split <;> rfl

@[simp, grind =] theorem setPhase_exitC (i j : ι) (phase : LoopPhase) :
    ((s.setPhase i phase).loops j).exitC = (s.loops j).exitC := by
  simp only [setPhase, Function.update_apply]
  split
  · next heq => rw [heq]
  · rfl

@[simp, grind =] theorem setPhase_exitChs (i : ι) (phase : LoopPhase) :
    (s.setPhase i phase).exitChs = s.exitChs := rfl

@[simp, grind =] theorem setPhase_handler (i : ι) (phase : LoopPhase) :
    (s.setPhase i phase).handler = s.handler := rfl

@[simp, grind =] theorem setPhase_status (i : ι) (phase : LoopPhase) :
    (s.setPhase i phase).status = s.status := rfl

@[simp, grind =] theorem setExitC_phase (i j : ι) (exitC : Bool) :
    ((s.setExitC i exitC).loops j).phase = (s.loops j).phase := by
  simp only [setExitC, Function.update_apply]
  split
  · next heq => rw [heq]
  · rfl

@[simp, grind =] theorem setExitC_exitC (i j : ι) (exitC : Bool) :
    ((s.setExitC i exitC).loops j).exitC = if j = i then exitC else (s.loops j).exitC := by
  simp only [setExitC, Function.update_apply]
  split <;> rfl

@[simp, grind =] theorem setExitC_exitChs (i : ι) (exitC : Bool) :
    (s.setExitC i exitC).exitChs = s.exitChs := rfl

@[simp, grind =] theorem setExitC_handler (i : ι) (exitC : Bool) :
    (s.setExitC i exitC).handler = s.handler := rfl

@[simp, grind =] theorem setExitC_status (i : ι) (exitC : Bool) :
    (s.setExitC i exitC).status = s.status := rfl

/-- All loops are done. -/
def AllStopped (s : Agent ι) : Prop := ∀ i, ∃ cause, (s.loops i).phase = .stopped cause

/-- The loop has not put its channel yet. -/
def Unregistered (s : Agent ι) (i : ι) : Prop :=
  (s.loops i).phase = .setup ∨ (s.loops i).phase = .registering

/-- A loop whose channel is in `exitChs` is done. -/
def Served (s : Agent ι) : Prop := ∀ i ∈ s.exitChs, ∃ cause, (s.loops i).phase = .stopped cause

end Agent

open Agent

/-- What may happen next; `maxRetries` is 0 for no limit. -/
inductive AgentStep {ι : Type} [DecidableEq ι] [Fintype ι] (maxRetries : Nat) :
    Agent ι → Agent ι → Prop
  | setupFails {s : Agent ι} (hs : s.status = .running) {i : ι} (hi : (s.loops i).phase = .setup) :
    AgentStep maxRetries s (s.setPhase i (.stopped .setupFailed))
  | setupDone {s : Agent ι} (hs : s.status = .running) {i : ι} (hi : (s.loops i).phase = .setup) :
    AgentStep maxRetries s (s.setPhase i .registering)
  /-- `exitChs <- exitC`, with room for a channel of every loop. -/
  | registers {s : Agent ι} (hs : s.status = .running) {i : ι}
      (hi : (s.loops i).phase = .registering) (hopen : s.handler ≠ .closed)
      (hroom : s.exitChs.length < Fintype.card ι) :
    AgentStep maxRetries s { s.setPhase i (.task 1) with exitChs := s.exitChs ++ [i] }
  /-- A send on the closed channel panics. -/
  | crashes {s : Agent ι} (hs : s.status = .running) {i : ι} (hi : (s.loops i).phase = .registering)
      (hclosed : s.handler = .closed) :
    AgentStep maxRetries s { s with status := .crashed }
  | succeeds {s : Agent ι} (hs : s.status = .running) {i : ι} {n : Nat}
      (hi : (s.loops i).phase = .task n) :
    AgentStep maxRetries s (s.setPhase i (.waiting 1))
  | fails {s : Agent ι} (hs : s.status = .running) {i : ι} {n : Nat}
      (hi : (s.loops i).phase = .task n) (hretries : maxRetries = 0 ∨ n < maxRetries) :
    AgentStep maxRetries s (s.setPhase i (.waiting (n + 1)))
  | givesUp {s : Agent ι} (hs : s.status = .running) {i : ι} {n : Nat}
      (hi : (s.loops i).phase = .task n) (hretries : maxRetries ≠ 0) (hlimit : maxRetries ≤ n) :
    AgentStep maxRetries s (s.setPhase i (.stopped .retryLimit))
  /-- The `select` takes the timer, also when the request is there. -/
  | timer {s : Agent ι} (hs : s.status = .running) {i : ι} {n : Nat}
      (hi : (s.loops i).phase = .waiting n) :
    AgentStep maxRetries s (s.setPhase i (.task n))
  | exits {s : Agent ι} (hs : s.status = .running) {i : ι} {n : Nat}
      (hi : (s.loops i).phase = .waiting n) (hrequest : (s.loops i).exitC = true) :
    AgentStep maxRetries s ((s.setPhase i (.stopped .exiting)).setExitC i false)
  | signal {s : Agent ι} (hs : s.status = .running) (hhandler : s.handler = .listening) :
    AgentStep maxRetries s { s with handler := .draining }
  /-- `len(exitChs) > 0`, and the first channel. -/
  | takes {s : Agent ι} (hs : s.status = .running) (hhandler : s.handler = .draining) {c : ι}
      {rest : List ι} (hchs : s.exitChs = c :: rest) :
    AgentStep maxRetries s { s with handler := .holding c, exitChs := rest }
  /-- `c <- nil`: the channel has room for one. -/
  | requests {s : Agent ι} (hs : s.status = .running) {c : ι} (hhandler : s.handler = .holding c)
      (hroom : (s.loops c).exitC = false) :
    AgentStep maxRetries s { s.setExitC c true with handler := .draining }
  /-- `len(exitChs) > 0` is false. -/
  | empties {s : Agent ι} (hs : s.status = .running) (hhandler : s.handler = .draining)
      (hchs : s.exitChs = []) :
    AgentStep maxRetries s { s with handler := .closing }
  /-- By now a loop may have put its channel. -/
  | closes {s : Agent ι} (hs : s.status = .running) (hhandler : s.handler = .closing) :
    AgentStep maxRetries s { s with handler := .closed }
  | forces {s : Agent ι} (hs : s.status = .running) (hhandler : s.handler = .closed) :
    AgentStep maxRetries s { s with status := .forcedExit }
  /-- `wg.Wait()` is over. -/
  | returns {s : Agent ι} (hs : s.status = .running) (hstopped : s.AllStopped) :
    AgentStep maxRetries s { s with status := .returned }

/-! ## Where the channels are -/

section Channels

variable {ι : Type} {maxRetries : Nat} {s s' : Agent ι}

/-- The channel of each loop is at one place: with the loop before it is put, then in `exitChs`, in
the hand of the handler, and in the end with the request. -/
structure AgentInv (maxRetries : Nat) (s : Agent ι) : Prop where
  nodup : s.exitChs.Nodup
  fresh : ∀ i, s.Unregistered i → (s.loops i).exitC = false
  listed : ∀ i ∈ s.exitChs, ¬ s.Unregistered i ∧ (s.loops i).exitC = false ∧
    s.handler ≠ .holding i
  held : ∀ c, s.handler = .holding c → ¬ s.Unregistered c ∧ (s.loops c).exitC = false
  /-- A loop at work has its request, or will get it. -/
  informed : ∀ i n, (s.loops i).phase = .task n ∨ (s.loops i).phase = .waiting n →
    i ∈ s.exitChs ∨ s.handler = .holding i ∨ (s.loops i).exitC = true
  listening : s.handler = .listening → ∀ i, (s.loops i).exitC = false ∧
    (s.loops i).phase ≠ .stopped .exiting
  /-- The count of attempts in a row. -/
  attempts : ∀ i n, (s.loops i).phase = .task n ∨ (s.loops i).phase = .waiting n →
    maxRetries ≠ 0 → n ≤ maxRetries
  gaveUp : ∀ i, (s.loops i).phase = .stopped .retryLimit → maxRetries ≠ 0

theorem AgentInv.start (maxRetries : Nat) : AgentInv maxRetries (Agent.start : Agent ι) := by
  constructor <;> simp [Agent.start]

/-- After the close, a loop at work has its request, if its channel has been taken out. -/
theorem AgentInv.requested (h : AgentInv maxRetries s) (hclosed : s.handler = .closed)
    (hserved : s.Served) {i : ι} {n : Nat}
    (hi : (s.loops i).phase = .task n ∨ (s.loops i).phase = .waiting n) :
    (s.loops i).exitC = true := by
  rcases h.informed i n hi with hlisted | hheld | hrequest
  · obtain ⟨cause, hstopped⟩ := hserved i hlisted
    rw [hstopped] at hi
    rcases hi with hi | hi <;> cases hi
  · rw [hclosed] at hheld
    cases hheld
  · exact hrequest

/-- Without a signal, a loop ends only if its device cannot be set up, or at the limit of retries. -/
theorem AgentInv.stopped_early (h : AgentInv maxRetries s) (hlistening : s.handler = .listening)
    {i : ι} {cause : LoopEnd} (hi : (s.loops i).phase = .stopped cause) :
    cause = .setupFailed ∨ cause = .retryLimit ∧ maxRetries ≠ 0 := by
  cases cause with
  | setupFailed => exact .inl rfl
  | retryLimit => exact .inr ⟨rfl, h.gaveUp i hi⟩
  | exiting => exact absurd hi (h.listening hlistening i).2

/-- No loop waits for room in `exitChs`. -/
theorem AgentInv.room [Fintype ι] (h : AgentInv maxRetries s) {i : ι} (hi : s.Unregistered i) :
    s.exitChs.length < Fintype.card ι := by
  have hunlisted : i ∉ s.exitChs := fun hmem => (h.listed i hmem).1 hi
  have hcard := (List.nodup_cons.mpr ⟨hunlisted, h.nodup⟩).length_le_card
  rw [List.length_cons] at hcard
  exact hcard

variable [DecidableEq ι]

/-- A loop moves on, without its channel. -/
theorem AgentInv.setPhase (h : AgentInv maxRetries s) {i : ι} {phase : LoopPhase}
    (hold : s.Unregistered i ∨ phase ≠ .setup ∧ phase ≠ .registering)
    (hwork : ∀ n, phase = .task n ∨ phase = .waiting n →
      (∃ m, (s.loops i).phase = .task m ∨ (s.loops i).phase = .waiting m) ∧
        (maxRetries ≠ 0 → n ≤ maxRetries))
    (hexiting : phase = .stopped .exiting → s.handler ≠ .listening)
    (hlimit : phase = .stopped .retryLimit → maxRetries ≠ 0) :
    AgentInv maxRetries (s.setPhase i phase) := by
  have hregistered (j : ι) (hj : ¬ s.Unregistered j) : ¬ (s.setPhase i phase).Unregistered j := by
    simp only [Unregistered, setPhase_phase] at hold hj ⊢
    grind
  constructor
  · exact h.nodup
  · intro j hj
    rw [setPhase_exitC]
    exact h.fresh j (by_contra fun hn => hregistered j hn hj)
  · intro j hj
    obtain ⟨hun, hchannel, hhand⟩ := h.listed j hj
    exact ⟨hregistered j hun, by simpa using hchannel, hhand⟩
  · intro c hc
    obtain ⟨hun, hchannel⟩ := h.held c hc
    exact ⟨hregistered c hun, by simpa using hchannel⟩
  · intro j n hj
    rw [setPhase_exitC]
    by_cases heq : j = i
    · subst heq
      rw [setPhase_phase, if_pos rfl] at hj
      obtain ⟨⟨m, hm⟩, -⟩ := hwork n hj
      exact h.informed j m hm
    · rw [setPhase_phase, if_neg heq] at hj
      exact h.informed j n hj
  · intro hlistening j
    obtain ⟨hchannel, hphase⟩ := h.listening hlistening j
    refine ⟨by simpa using hchannel, ?_⟩
    rw [setPhase_phase]
    split
    · exact fun hp => hexiting hp hlistening
    · exact hphase
  · intro j n hj
    by_cases heq : j = i
    · subst heq
      rw [setPhase_phase, if_pos rfl] at hj
      exact (hwork n hj).2
    · rw [setPhase_phase, if_neg heq] at hj
      exact h.attempts j n hj
  · intro j hj
    rw [setPhase_phase] at hj
    split at hj
    · exact hlimit hj
    · exact h.gaveUp j hj

variable [Fintype ι]

theorem AgentInv.step (h : AgentInv maxRetries s) (hstep : AgentStep maxRetries s s') :
    AgentInv maxRetries s' := by
  cases hstep with
  | setupFails hs hi => exact h.setPhase (.inl (.inl hi)) nofun nofun nofun
  | setupDone hs hi => exact h.setPhase (.inl (.inl hi)) nofun nofun nofun
  | @registers hs i hi hopen hroom =>
    -- The channel has been nowhere yet.
    have hunlisted : i ∉ s.exitChs := fun hmem => (h.listed i hmem).1 (.inr hi)
    have hunheld : s.handler ≠ .holding i := fun hc => (h.held i hc).1 (.inr hi)
    obtain ⟨hnodup, hfresh, hlisted, hheld, hinformed, hlistening, hattempts, hgaveUp⟩ := h
    constructor <;> simp only [Unregistered] at * <;> grind
  | crashes hs hi hhandler => exact ⟨h.1, h.2, h.3, h.4, h.5, h.6, h.7, h.8⟩
  | succeeds hs hi =>
    refine h.setPhase (.inr ⟨nofun, nofun⟩) ?_ nofun nofun
    rintro n (⟨⟨⟩⟩ | ⟨⟨⟩⟩)
    exact ⟨⟨_, .inl hi⟩, by omega⟩
  | @fails hs i m hi hretries =>
    refine h.setPhase (.inr ⟨nofun, nofun⟩) ?_ nofun nofun
    rintro n (⟨⟨⟩⟩ | ⟨⟨⟩⟩)
    exact ⟨⟨m, .inl hi⟩, by omega⟩
  | givesUp hs hi hretries hlimit =>
    exact h.setPhase (.inr ⟨nofun, nofun⟩) nofun nofun (fun _ => hretries)
  | @timer hs i m hi =>
    refine h.setPhase (.inr ⟨nofun, nofun⟩) ?_ nofun nofun
    rintro n (⟨⟨⟩⟩ | ⟨⟨⟩⟩)
    exact ⟨⟨m, .inr hi⟩, h.attempts i m (.inr hi)⟩
  | @exits hs i n hi hrequest =>
    -- The request was the last place of the channel.
    have hunlisted : i ∉ s.exitChs := fun hmem =>
      Bool.false_ne_true ((h.listed i hmem).2.1.symm.trans hrequest)
    have hunheld : s.handler ≠ .holding i := fun hc =>
      Bool.false_ne_true ((h.held i hc).2.symm.trans hrequest)
    have hsignalled : s.handler ≠ .listening := fun hl =>
      Bool.false_ne_true ((h.listening hl i).1.symm.trans hrequest)
    obtain ⟨hnodup, hfresh, hlisted, hheld, hinformed, hlistening, hattempts, hgaveUp⟩ := h
    constructor <;> simp only [Unregistered] at * <;> grind
  | @takes hs hhandler c rest hchs =>
    have hnodup : c ∉ rest ∧ rest.Nodup := List.nodup_cons.mp (hchs ▸ h.nodup)
    obtain ⟨-, hfresh, hlisted, hheld, hinformed, hlistening, hattempts, hgaveUp⟩ := h
    constructor <;> simp only [Unregistered] at * <;> grind
  | @requests hs c hhandler hroom =>
    have hunlisted : c ∉ s.exitChs := fun hmem => (h.listed c hmem).2.2 hhandler
    obtain ⟨hnodup, hfresh, hlisted, hheld, hinformed, hlistening, hattempts, hgaveUp⟩ := h
    constructor <;> simp only [Unregistered] at * <;> grind
  | signal hs hhandler | empties hs hhandler hchs | closes hs hhandler =>
    obtain ⟨hnodup, hfresh, hlisted, hheld, hinformed, hlistening, hattempts, hgaveUp⟩ := h
    constructor <;> simp only [Unregistered] at * <;> grind
  | forces hs hhandler | returns hs hstopped => exact ⟨h.1, h.2, h.3, h.4, h.5, h.6, h.7, h.8⟩

theorem AgentInv.of_reachable
    (h : Relation.ReflTransGen (AgentStep maxRetries) Agent.start s) : AgentInv maxRetries s := by
  induction h with
  | refl => exact .start maxRetries
  | tail _ hstep ih => exact ih.step hstep

end Channels

/-! ## Crashes -/

section Crashes

variable {ι : Type} [DecidableEq ι] [Fintype ι] {maxRetries : Nat} {s s' : Agent ι}

theorem AgentStep.registered (h : AgentStep maxRetries s s') {i : ι} (hi : ¬ s.Unregistered i) :
    ¬ s'.Unregistered i := by
  unfold Unregistered at hi ⊢
  cases h <;> simp <;> grind

/-- Once all loops have put their channels, nothing crashes the client. -/
theorem never_crashes (hall : ∀ i, ¬ s.Unregistered i) (hs : s.status ≠ .crashed)
    (h : Relation.ReflTransGen (AgentStep maxRetries) s s') : s'.status ≠ .crashed := by
  have hboth : (∀ i, ¬ s'.Unregistered i) ∧ s'.status ≠ .crashed := by
    induction h with
    | refl => exact ⟨hall, hs⟩
    | tail _ hstep ih =>
      refine ⟨fun i => hstep.registered (ih.1 i), ?_⟩
      cases hstep with
      | crashes hs hi hclosed => exact absurd (.inr hi) (ih.1 _)
      | forces hs hclosed | returns hs hstopped => exact nofun
      | _ => exact ih.2
  exact hboth.2

/-- The handler empties `exitChs` and closes it. -/
theorem exists_closed_of_draining (h : AgentInv maxRetries s) (hs : s.status = .running)
    (hhandler : s.handler = .draining) :
    ∃ s', Relation.ReflTransGen (AgentStep maxRetries) s s' ∧ s'.handler = .closed ∧
      s'.status = .running ∧ ∀ i, (s'.loops i).phase = (s.loops i).phase := by
  induction hchs : s.exitChs generalizing s with
  | nil =>
    have hempty : AgentStep maxRetries s { s with handler := .closing } := .empties hs hhandler hchs
    have hclose : AgentStep maxRetries { s with handler := .closing }
        { ({ s with handler := .closing } : Agent ι) with handler := .closed } :=
      .closes (s := { s with handler := .closing }) hs rfl
    exact ⟨_, .head hempty (.single hclose), rfl, hs, fun i => rfl⟩
  | cons c rest ih =>
    have htake : AgentStep maxRetries s { s with handler := .holding c, exitChs := rest } :=
      .takes hs hhandler hchs
    have hroom := (h.listed c (hchs ▸ List.mem_cons_self)).2.1
    have hrequest : AgentStep maxRetries { s with handler := .holding c, exitChs := rest }
        { ({ s with handler := .holding c, exitChs := rest } : Agent ι).setExitC c true with
          handler := .draining } :=
      .requests (s := { s with handler := .holding c, exitChs := rest }) hs rfl hroom
    obtain ⟨s', hrun, hclosed, hs', hphase⟩ := ih ((h.step htake).step hrequest) hs rfl rfl
    refine ⟨s', .head htake (.head hrequest hrun), hclosed, hs', fun i => ?_⟩
    rw [hphase i]
    exact setExitC_phase ..

/-- A signal may come now, and the handler is done before anything else happens. -/
theorem exists_closed (h : AgentInv maxRetries s) (hs : s.status = .running) :
    ∃ s', Relation.ReflTransGen (AgentStep maxRetries) s s' ∧ s'.handler = .closed ∧
      s'.status = .running ∧ ∀ i, (s'.loops i).phase = (s.loops i).phase := by
  cases hhandler : s.handler with
  | closed => exact ⟨s, .refl, hhandler, hs, fun i => rfl⟩
  | closing => exact ⟨_, .single (.closes hs hhandler), rfl, hs, fun i => rfl⟩
  | draining => exact exists_closed_of_draining h hs hhandler
  | listening =>
    have hsignal : AgentStep maxRetries s { s with handler := .draining } := .signal hs hhandler
    obtain ⟨s', hrun, hclosed, hs', hphase⟩ := exists_closed_of_draining (h.step hsignal) hs rfl
    exact ⟨s', .head hsignal hrun, hclosed, hs', hphase⟩
  | holding c =>
    have hrequest : AgentStep maxRetries s { s.setExitC c true with handler := .draining } :=
      .requests hs hhandler (h.held c hhandler).2
    obtain ⟨s', hrun, hclosed, hs', hphase⟩ := exists_closed_of_draining (h.step hrequest) hs rfl
    refine ⟨s', .head hrequest hrun, hclosed, hs', fun i => ?_⟩
    rw [hphase i]
    exact setExitC_phase ..

/-- **A crash can still come** exactly as long as some loop has not put its channel. -/
theorem agent_crashes_iff (h : Relation.ReflTransGen (AgentStep maxRetries) Agent.start s)
    (hs : s.status = .running) :
    (∃ s', Relation.ReflTransGen (AgentStep maxRetries) s s' ∧ s'.status = .crashed) ↔
      ∃ i, s.Unregistered i := by
  constructor
  · rintro ⟨s', hrun, hcrashed⟩
    by_contra hnone
    push Not at hnone
    exact never_crashes hnone (by rw [hs]; nofun) hrun hcrashed
  · rintro ⟨i, hi⟩
    obtain ⟨s₁, hrun, hclosed, hs₁, hphase⟩ := exists_closed (.of_reachable h) hs
    have hcrash {s₂ : Agent ι} (hs₂ : s₂.status = .running) (hclosed : s₂.handler = .closed)
        (hi : (s₂.loops i).phase = .registering) :
        AgentStep maxRetries s₂ { s₂ with status := .crashed } := .crashes hs₂ hi hclosed
    rcases hi with hsetup | hregistering
    · have hdone : AgentStep maxRetries s₁ (s₁.setPhase i .registering) :=
        .setupDone hs₁ ((hphase i).trans hsetup)
      exact ⟨_, (hrun.tail hdone).tail (hcrash hs₁ hclosed (by simp)), rfl⟩
    · exact ⟨_, hrun.tail (hcrash hs₁ hclosed ((hphase i).trans hregistering)), rfl⟩

end Crashes

/-- The signal may come while the only device is set up. -/
theorem agent_crashes_in_setup :
    ∃ s', Relation.ReflTransGen (AgentStep 0) (Agent.start : Agent Unit) s' ∧
      s'.status = .crashed := by
  have hiff := @agent_crashes_iff Unit _ _ 0 Agent.start .refl rfl
  exact hiff.mpr ⟨(), .inl rfl⟩

/-! ## The end -/

section Ends

variable {ι : Type} [DecidableEq ι] [Fintype ι] {maxRetries : Nat} {s s' : Agent ι}

/-- A step where no loop takes its timer while its request is there. -/
structure PromptStep (maxRetries : Nat) (s s' : Agent ι) : Prop where
  step : AgentStep maxRetries s s'
  prompt : ∀ i n, (s.loops i).phase = .waiting n → (s.loops i).exitC = true →
    ∀ m, (s'.loops i).phase ≠ .task m

/-- How many steps a loop can still take after the close. -/
def LoopPhase.work : LoopPhase → Nat
  | .setup => 2
  | .registering => 1
  | .task _ => 2
  | .waiting _ => 1
  | .stopped _ => 0

/-- How many steps the client can still take after the close. -/
def Agent.work (s : Agent ι) : Nat :=
  (Finset.univ.sum fun i => (s.loops i).phase.work) + if s.status = .running then 1 else 0

omit [DecidableEq ι] in
theorem work_status (hs : s.status = .running) {status : AgentStatus} (hstatus : status ≠ .running) :
    { s with status }.work < s.work := by
  simp only [work, hs, hstatus, if_true, if_false]
  omega

theorem work_setPhase {i : ι} {phase : LoopPhase} (h : phase.work < (s.loops i).phase.work) :
    (s.setPhase i phase).work < s.work := by
  have hsum : (Finset.univ.sum fun j => ((s.setPhase i phase).loops j).phase.work) <
      Finset.univ.sum fun j => (s.loops j).phase.work := by
    refine Finset.sum_lt_sum (fun j _ => ?_) ⟨i, Finset.mem_univ i, by simpa using h⟩
    rw [setPhase_phase]
    split
    · next heq =>
      rw [heq]
      exact h.le
    · exact Nat.le_refl _
  unfold work
  rw [setPhase_status]
  omega

@[simp] theorem work_setExitC (i : ι) (exitC : Bool) : (s.setExitC i exitC).work = s.work := by
  unfold work
  rw [setExitC_status]
  simp only [setExitC_phase]

/-- A loop that is done stays done. -/
theorem AgentStep.stopped (h : AgentStep maxRetries s s') {i : ι} {cause : LoopEnd}
    (hi : (s.loops i).phase = .stopped cause) : (s'.loops i).phase = .stopped cause := by
  cases h <;> simp <;> grind

/-- Nothing goes into the closed channel, or out of it. -/
theorem AgentStep.closed (h : AgentStep maxRetries s s') (hclosed : s.handler = .closed) :
    s'.handler = .closed ∧ s'.exitChs = s.exitChs := by
  cases h with
  | registers hs hi hopen hroom => exact absurd hclosed hopen
  | signal hs hhandler | takes hs hhandler hchs | requests hs hhandler hroom
  | empties hs hhandler hchs | closes hs hhandler =>
    rw [hclosed] at hhandler
    cases hhandler
  | _ => exact ⟨hclosed, rfl⟩

theorem AgentStep.served (h : AgentStep maxRetries s s') (hclosed : s.handler = .closed)
    (hserved : s.Served) : s'.Served := by
  intro i hi
  rw [(h.closed hclosed).2] at hi
  obtain ⟨cause, hstopped⟩ := hserved i hi
  exact ⟨cause, h.stopped hstopped⟩

/-- After the close, every step brings a loop or the process nearer to its end. -/
theorem PromptStep.work_lt (h : AgentInv maxRetries s) (hclosed : s.handler = .closed)
    (hserved : s.Served) (hstep : PromptStep maxRetries s s') : s'.work < s.work := by
  have hmove {i : ι} {phase phase' : LoopPhase} (hi : (s.loops i).phase = phase)
      (hlt : phase'.work < phase.work) : (s.setPhase i phase').work < s.work :=
    work_setPhase (hi ▸ hlt)
  obtain ⟨hstep, hprompt⟩ := hstep
  cases hstep with
  | setupFails hs hi => exact hmove hi (by decide)
  | setupDone hs hi => exact hmove hi (by decide)
  | registers hs hi hopen hroom => exact absurd hclosed hopen
  | crashes hs hi hhandler => exact work_status hs nofun
  | succeeds hs hi => exact hmove hi (by simp [LoopPhase.work])
  | fails hs hi hretries => exact hmove hi (by simp [LoopPhase.work])
  | givesUp hs hi hretries hlimit => exact hmove hi (by simp [LoopPhase.work])
  | @timer hs i n hi =>
    exact absurd (by simp) (hprompt i n hi (h.requested hclosed hserved (.inr hi)) n)
  | exits hs hi hrequest =>
    rw [work_setExitC]
    exact hmove hi (by simp [LoopPhase.work])
  | signal hs hhandler | takes hs hhandler hchs | requests hs hhandler hroom
  | empties hs hhandler hchs | closes hs hhandler =>
    rw [hclosed] at hhandler
    cases hhandler
  | forces hs hhandler => exact work_status hs nofun
  | returns hs hstopped => exact work_status hs nofun

theorem PromptStep.run (h : AgentInv maxRetries s) (hclosed : s.handler = .closed)
    (hserved : s.Served) (hrun : Relation.ReflTransGen (PromptStep maxRetries) s s') :
    AgentInv maxRetries s' ∧ s'.handler = .closed ∧ s'.Served := by
  induction hrun with
  | refl => exact ⟨h, hclosed, hserved⟩
  | tail _ hstep ih =>
    obtain ⟨hinv, hclosed', hserved'⟩ := ih
    exact ⟨hinv.step hstep.step, (hstep.step.closed hclosed').1, hstep.step.served hclosed' hserved'⟩

omit [DecidableEq ι] in
theorem work_le (s : Agent ι) : s.work ≤ 2 * Fintype.card ι + 1 := by
  have hsum : (Finset.univ.sum fun i => (s.loops i).phase.work) ≤ Finset.univ.card * 2 :=
    Finset.sum_le_card_nsmul _ _ 2 fun i _ => by
      cases (s.loops i).phase <;> simp [LoopPhase.work]
  rw [Finset.card_univ] at hsum
  unfold work
  split <;> omega

theorem PromptStep.length_le {ss : List (Agent ι)} (h : AgentInv maxRetries s)
    (hclosed : s.handler = .closed) (hserved : s.Served)
    (hrun : (s :: ss).IsChain (PromptStep maxRetries)) : ss.length ≤ s.work := by
  induction ss generalizing s with
  | nil => exact Nat.zero_le _
  | cons s' ss ih =>
    obtain ⟨hstep, hrest⟩ := List.isChain_cons_cons.mp hrun
    have hlt := hstep.work_lt h hclosed hserved
    have hlength := ih (h.step hstep.step) (hstep.step.closed hclosed).1
      (hstep.step.served hclosed hserved) hrest
    rw [List.length_cons]
    omega

end Ends

end Rdfm.Mcumgr
