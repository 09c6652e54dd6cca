import Rdfm.Linux.FileStoreQueue

/-!
# The action runner

`ActionRunner` keeps accepted requests in one file store and the results of finished actions in
another. The command loop dequeues a request, runs its action and enqueues the result; the responder
loop hands the front result to a callback and pops it once the callback has succeeded. Calls of
`Execute`, both loops, a cancellation, a loss of power and the next start come in any order.

A request has no file between its `Dequeue` and the push of its result: it is lost exactly if the
process ends there, or if the enqueue of the result is cancelled or its write fails
(`accepted_action_kept_iff`). The encoding of requests and results, `encoding/gob`, is a parameter that decodes what it encoded.
-/

namespace Rdfm.Linux

open Rdfm.Lib

/-! ## Requests and results -/

structure ActionRequest where
  execId : String
  actionId : String
deriving DecidableEq, Repr

structure ActionResult where
  execId : String
  statusCode : Int
  output : String
deriving DecidableEq, Repr

/-- `Serialize` and its inverses. -/
structure ActionCodec where
  serializeRequest : ActionRequest → Bytes
  newActionRequest : Bytes → Option ActionRequest
  serializeResult : ActionResult → Bytes
  newActionResult : Bytes → Option ActionResult
  request_roundTrip : ∀ r, newActionRequest (serializeRequest r) = some r
  result_roundTrip : ∀ r, newActionResult (serializeResult r) = some r

namespace ActionCodec

variable (c : ActionCodec)

/-- The execution ids of stored requests. -/
def requestIds (blobs : List Bytes) : List String :=
  blobs.filterMap fun b => (c.newActionRequest b).map ActionRequest.execId

/-- The execution ids of stored results. -/
def resultIds (blobs : List Bytes) : List String :=
  blobs.filterMap fun b => (c.newActionResult b).map ActionResult.execId

end ActionCodec

/-! ## The two loops -/

inductive CommandPhase where
  | idle
  /-- In `Dequeue`, with an item reserved. -/
  | reserved
  | running (request : ActionRequest)
  /-- In `Enqueue`, waiting for a slot. -/
  | storing (result : ActionResult)
  /-- In `Enqueue`, with a slot reserved. -/
  | pushing (result : ActionResult)
  | exited
deriving DecidableEq, Repr

inductive ResponderPhase where
  | idle
  /-- After `WaitNonEmpty`. -/
  | woken
  /-- In the loop around `resultCb`. -/
  | sending (result : ActionResult)
  /-- The callback has succeeded. -/
  | handed (result : ActionResult)
  | exited
deriving DecidableEq, Repr

structure RunnerLoops where
  /-- The process runs. -/
  alive : Bool
  /-- The context is cancelled. -/
  cancelled : Bool
  /-- The actions that can be run: they are configured, with a command. -/
  actionMap : List String
  command : CommandPhase
  responder : ResponderPhase
  /-- The requests for which `Execute` returned true. -/
  accepted : List Bytes
  /-- The results for which `resultCb` returned true. -/
  handed : List ActionResult
  /-- The results that were popped. -/
  popped : List Bytes
deriving DecidableEq, Repr

/-- The request between its `Dequeue` and the push of its result. -/
def CommandPhase.request : CommandPhase → List String
  | running request => [request.execId]
  | storing result => [result.execId]
  | pushing result => [result.execId]
  | _ => []

/-- The request that the command loop of the live process holds. -/
def RunnerLoops.held (l : RunnerLoops) : List String := if l.alive then l.command.request else []

/-- The runner, over any kind of store. -/
structure ActionRunner (Q : Type) where
  reqStore : Q
  resStore : Q
  loops : RunnerLoops
deriving DecidableEq

inductive RunnerEvent where
  /-- `Execute`, up to the slot of the request. A call whose write then fails keeps the slot, and never
  stores its request. -/
  | execute (request : ActionRequest)
  /-- One of the calls of `Execute` stores its request and returns true. -/
  | accept (i : Nat)
  | dequeue
  | take
  /-- The action ends, with its exit code and its output in Base64. -/
  | finish (statusCode : Int) (output : String)
  | reserveSlot
  /-- The wait for a slot ends with the error of the context. -/
  | enqueueFails
  | storeResult
  | waitNonEmpty
  | peek
  | callback (ok : Bool)
  | pop
  | cancel
  /-- A loop sees at its top that the context is cancelled. -/
  | leaveCommandLoop
  | leaveResponderLoop
  | powerLoss
  /-- `NewActionRunner` on the same directory, and `StartWorker`. -/
  | restart (queueSize : Nat) (actionMap : List String)
deriving DecidableEq, Repr

namespace ActionRunner

variable {Q : Type} (stepQ : Q → QueueOp Bytes → Option (Q × QueueResult Bytes)) (c : ActionCodec)
  (s : ActionRunner Q)

/-- An operation on the request store; one that has to wait leaves everything. -/
def onRequests (op : QueueOp Bytes) (k : QueueResult Bytes → RunnerLoops) : ActionRunner Q :=
  match stepQ s.reqStore op with
  | none => s
  | some (reqStore, r) => { s with reqStore, loops := k r }

/-- An operation on the result store. -/
def onResults (op : QueueOp Bytes) (k : QueueResult Bytes → RunnerLoops) : ActionRunner Q :=
  match stepQ s.resStore op with
  | none => s
  | some (resStore, r) => { s with resStore, loops := k r }

/-- The request of a blob that the command loop has dequeued, or the next round of the loop. -/
def commandAfter : QueueResult Bytes → CommandPhase
  | .removed blob =>
    match c.newActionRequest blob with
    | some request => .running request
    | none => .idle
  | _ => .idle

/-- The result of a blob that the responder loop has peeked at. -/
def responderAfter : QueueResult Bytes → ResponderPhase
  | .peeked (some blob) =>
    match c.newActionResult blob with
    | some result => .sending result
    | none => .idle
  | _ => .idle

def withAccepted (l : RunnerLoops) : QueueResult Bytes → RunnerLoops
  | .stored blob => { l with accepted := l.accepted ++ [blob] }
  | _ => l

def withPopped (l : RunnerLoops) : QueueResult Bytes → RunnerLoops
  | .removed blob => { l with responder := .idle, popped := l.popped ++ [blob] }
  | _ => { l with responder := .idle }

/-- A step of the live process. -/
def liveStep : RunnerEvent → ActionRunner Q
  | .execute request =>
    s.onRequests stepQ (.tryEnqueue (c.serializeRequest request)) fun _ => s.loops
  | .accept i => s.onRequests stepQ (.push i) (withAccepted s.loops)
  | .dequeue =>
    if s.loops.command = .idle then
      s.onRequests stepQ .dequeue fun _ => { s.loops with command := .reserved }
    else s
  | .take =>
    if s.loops.command = .reserved then
      s.onRequests stepQ .take fun r => { s.loops with command := commandAfter c r }
    else s
  | .finish statusCode output =>
    match s.loops.command with
    | .running request =>
      -- An action that is not in the map is a nil interface: its method call panics.
      if request.actionId ∈ s.loops.actionMap then
        { s with loops := { s.loops with
          command := .storing ⟨request.execId, statusCode, output⟩ } }
      else { s with loops := { s.loops with alive := false } }
    | _ => s
  | .reserveSlot =>
    match s.loops.command with
    | .storing result =>
      s.onResults stepQ (.enqueue (c.serializeResult result)) fun _ =>
        { s.loops with command := .pushing result }
    | _ => s
  | .enqueueFails =>
    match s.loops.command with
    | .storing _ =>
      if s.loops.cancelled then { s with loops := { s.loops with command := .idle } } else s
    | _ => s
  | .storeResult =>
    match s.loops.command with
    | .pushing _ => s.onResults stepQ (.push 0) fun _ => { s.loops with command := .idle }
    | _ => s
  | .waitNonEmpty =>
    if s.loops.responder = .idle then
      s.onResults stepQ .waitNonEmpty fun _ => { s.loops with responder := .woken }
    else s
  | .peek =>
    if s.loops.responder = .woken then
      s.onResults stepQ .peek fun r => { s.loops with responder := responderAfter c r }
    else s
  | .callback ok =>
    match s.loops.responder with
    | .sending result =>
      if ok then
        { s with loops := { s.loops with
          responder := .handed result, handed := s.loops.handed ++ [result] } }
      else s
    | _ => s
  | .pop =>
    match s.loops.responder with
    | .handed _ => s.onResults stepQ .pop (withPopped s.loops)
    | _ => s
  | .cancel => { s with loops := { s.loops with cancelled := true } }
  | .leaveCommandLoop =>
    if s.loops.command = .idle ∧ s.loops.cancelled then
      { s with loops := { s.loops with command := .exited } }
    else s
  | .leaveResponderLoop =>
    if s.loops.responder = .idle ∧ s.loops.cancelled then
      { s with loops := { s.loops with responder := .exited } }
    else s
  | .powerLoss => { s with loops := { s.loops with alive := false } }
  | .restart _ _ => s

/-- The next process, on the files that the last one has left. -/
def restart (queueSize : Nat) (actionMap : List String) : ActionRunner Q :=
  (s.onRequests stepQ (.restart queueSize) fun _ => s.loops).onResults stepQ (.restart queueSize)
    fun _ => { s.loops with
      alive := true, cancelled := false, actionMap, command := .idle, responder := .idle }

/-- One step. -/
def step (s : ActionRunner Q) (e : RunnerEvent) : ActionRunner Q :=
  if s.loops.alive then s.liveStep stepQ c e
  else
    match e with
    | .restart queueSize actionMap => s.restart stepQ queueSize actionMap
    | _ => s

end ActionRunner

/-- The write of the only enqueue in progress fails: its slot stays taken, and there may be a file with
something in it. -/
def StoreSystem.failPush (s : StoreSystem) (left : Option Bytes) : StoreSystem :=
  { s with
    dir := (left.map fun blob => writeFile s.store.writeIdx blob s.dir).getD s.dir
    enqueuing := s.enqueuing.eraseIdx 0 }

inductive RunEvent where
  | step (e : RunnerEvent)
  /-- The write of a result fails. -/
  | storeFails (left : Option Bytes)
deriving DecidableEq, Repr

/-- One step of the runner on its file stores, with writes that may fail. -/
def ActionRunner.next (c : ActionCodec) (s : ActionRunner StoreSystem) :
    RunEvent → ActionRunner StoreSystem
  | .step e => s.step StoreSystem.step c e
  | .storeFails left =>
    if s.loops.alive then
      match s.loops.command with
      | .pushing _ =>
        { s with
          resStore := s.resStore.failPush left
          loops := { s.loops with command := .idle } }
      | _ => s
    else s

/-- The process ends while the command loop holds a request, by a loss of power or by the panic of an
unknown action, or the enqueue of its result is cancelled. -/
def RunnerLoops.Loses (l : RunnerLoops) : RunnerEvent → Prop
  | .powerLoss => l.held ≠ []
  | .finish _ _ => l.alive ∧
    ∃ request, l.command = .running request ∧ request.actionId ∉ l.actionMap
  | .enqueueFails => l.alive ∧ l.cancelled ∧ ∃ result, l.command = .storing result
  | _ => False

/-- The step loses a request, or the write of its result fails. -/
def RunnerLoops.LosesBy (l : RunnerLoops) : RunEvent → Prop
  | .step e => l.Loses e
  | .storeFails _ => l.alive ∧ ∃ result, l.command = .pushing result

/-- As many requests were accepted under an id as are stored, held, have a stored result, or have a
result that was popped; and a result is popped only after a callback that succeeded. -/
def RunnerLoops.Accounted (c : ActionCodec) (requests results : List Bytes) (l : RunnerLoops) :
    Prop :=
  (∀ id, (c.requestIds l.accepted).count id =
    (c.requestIds requests).count id + l.held.count id + (c.resultIds results).count id +
      (c.resultIds l.popped).count id) ∧
  ∀ blob ∈ l.popped, ∃ result ∈ l.handed, c.newActionResult blob = some result

/-! ## The runner on queues -/

namespace ActionRunner

section Simulation

variable {Q Q' : Type} {stepQ : Q → QueueOp Bytes → Option (Q × QueueResult Bytes)}
  {stepQ' : Q' → QueueOp Bytes → Option (Q' × QueueResult Bytes)} {R : Q → Q' → Prop}

/-- The same loops, on related stores. -/
structure Related (R : Q → Q' → Prop) (s : ActionRunner Q) (t : ActionRunner Q') : Prop where
  reqStore : R s.reqStore t.reqStore
  resStore : R s.resStore t.resStore
  loops : s.loops = t.loops

variable {s : ActionRunner Q} {t : ActionRunner Q'} {op : QueueOp Bytes}
  {k : QueueResult Bytes → RunnerLoops} {c : ActionCodec} {e : RunnerEvent}

theorem Related.onRequests (hsim : Bisimulates R stepQ stepQ') (h : Related R s t) :
    Related R (s.onRequests stepQ op k) (t.onRequests stepQ' op k) := by
  unfold ActionRunner.onRequests
  rcases hsim.step_cases h.reqStore op with ⟨hs, ht⟩ | ⟨q, q', r, hs, ht, hR⟩
  · rw [hs, ht]
    exact h
  · rw [hs, ht]
    exact ⟨hR, h.resStore, rfl⟩

theorem Related.onResults (hsim : Bisimulates R stepQ stepQ') (h : Related R s t) :
    Related R (s.onResults stepQ op k) (t.onResults stepQ' op k) := by
  unfold ActionRunner.onResults
  rcases hsim.step_cases h.resStore op with ⟨hs, ht⟩ | ⟨q, q', r, hs, ht, hR⟩
  · rw [hs, ht]
    exact h
  · rw [hs, ht]
    exact ⟨h.reqStore, hR, rfl⟩

theorem Related.withLoops (h : Related R s t) (l : RunnerLoops) :
    Related R { s with loops := l } { t with loops := l } :=
  ⟨h.reqStore, h.resStore, rfl⟩

/-- Every step of the runner on one kind of store is its step on the other. -/
theorem Related.step (hsim : Bisimulates R stepQ stepQ') (h : Related R s t) :
    Related R (s.step stepQ c e) (t.step stepQ' c e) := by
  unfold ActionRunner.step
  rw [h.loops]
  split
  · cases e with
    | execute | accept =>
      dsimp only [liveStep]
      rw [h.loops]
      exact h.onRequests hsim
    | dequeue | take =>
      dsimp only [liveStep]
      rw [h.loops]
      split
      · exact h.onRequests hsim
      · exact h
    | finish =>
      dsimp only [liveStep]
      rw [h.loops]
      split
      · split <;> exact h.withLoops _
      · exact h
    | reserveSlot | storeResult | pop =>
      dsimp only [liveStep]
      rw [h.loops]
      split
      · exact h.onResults hsim
      · exact h
    | waitNonEmpty | peek =>
      dsimp only [liveStep]
      rw [h.loops]
      split
      · exact h.onResults hsim
      · exact h
    | enqueueFails | callback =>
      dsimp only [liveStep]
      rw [h.loops]
      split
      · split
        · exact h.withLoops _
        · exact h
      · exact h
    | cancel | powerLoss =>
      dsimp only [liveStep]
      rw [h.loops]
      exact h.withLoops _
    | leaveCommandLoop | leaveResponderLoop =>
      dsimp only [liveStep]
      rw [h.loops]
      split
      · exact h.withLoops _
      · exact h
    | restart => exact h
  · split
    · dsimp only [ActionRunner.restart]
      rw [h.loops]
      exact (h.onRequests hsim).onResults hsim
    · exact h

end Simulation

section Queues

variable {c : ActionCodec} {s : ActionRunner (BoundedQueue Bytes)} {e : RunnerEvent}
  {op : QueueOp Bytes} {k : QueueResult Bytes → RunnerLoops}

theorem requestIds_append (xs ys : List Bytes) :
    c.requestIds (xs ++ ys) = c.requestIds xs ++ c.requestIds ys := List.filterMap_append

theorem resultIds_append (xs ys : List Bytes) :
    c.resultIds (xs ++ ys) = c.resultIds xs ++ c.resultIds ys := List.filterMap_append

theorem requestIds_cons (r : ActionRequest) (xs : List Bytes) :
    c.requestIds (c.serializeRequest r :: xs) = r.execId :: c.requestIds xs := by
  unfold ActionCodec.requestIds
  rw [List.filterMap_cons, c.request_roundTrip]
  rfl

theorem resultIds_cons (r : ActionResult) (xs : List Bytes) :
    c.resultIds (c.serializeResult r :: xs) = r.execId :: c.resultIds xs := by
  unfold ActionCodec.resultIds
  rw [List.filterMap_cons, c.result_roundTrip]
  rfl

/-- The result that the command loop has a slot for. -/
def pushed : CommandPhase → List ActionResult
  | .pushing result => [result]
  | _ => []

/-- The result that the responder loop is busy with. -/
def current : ResponderPhase → Option ActionResult
  | .sending result => some result
  | .handed result => some result
  | _ => none

/-- What the loops and the stores know of each other. Once the process is dead, only the items
count. -/
structure Inv (c : ActionCodec) (s : ActionRunner (BoundedQueue Bytes)) : Prop where
  reqBounded : s.reqStore.Bounded
  resBounded : s.resStore.Bounded
  requests : ∀ b ∈ s.reqStore.items ++ s.reqStore.enqueuing, ∃ r, b = c.serializeRequest r
  results : ∀ b ∈ s.resStore.items, ∃ r, b = c.serializeResult r
  /-- Only the command loop enqueues results. -/
  enqueuing : s.loops.alive →
    s.resStore.enqueuing = (pushed s.loops.command).map c.serializeResult
  /-- What the responder loop sends is the front result, until it pops it. -/
  current : s.loops.alive → ∀ result, current s.loops.responder = some result →
    s.resStore.items.head? = some (c.serializeResult result)
  handed : ∀ result, s.loops.responder = .handed result → result ∈ s.loops.handed
  accounted : s.loops.Accounted c s.reqStore.items s.resStore.items

/-- What follows an operation on the request store. -/
theorem onRequests_rule {P : ActionRunner (BoundedQueue Bytes) → Prop} (hbounded : s.reqStore.Bounded)
    (hstay : P s)
    (hstep : ∀ q r, BoundedQueue.Effect s.reqStore op q r → q.Bounded →
      P { s with reqStore := q, loops := k r }) :
    P (s.onRequests BoundedQueue.step op k) := by
  unfold onRequests
  cases h : s.reqStore.step op with
  | none => exact hstay
  | some a =>
    exact hstep a.1 a.2 (BoundedQueue.step_effect hbounded h)
      (BoundedQueue.bounded_step hbounded h)

theorem onResults_rule {P : ActionRunner (BoundedQueue Bytes) → Prop} (hbounded : s.resStore.Bounded)
    (hstay : P s)
    (hstep : ∀ q r, BoundedQueue.Effect s.resStore op q r → q.Bounded →
      P { s with resStore := q, loops := k r }) :
    P (s.onResults BoundedQueue.step op k) := by
  unfold onResults
  cases h : s.resStore.step op with
  | none => exact hstay
  | some a =>
    exact hstep a.1 a.2 (BoundedQueue.step_effect hbounded h)
      (BoundedQueue.bounded_step hbounded h)

theorem Inv.execute (h : s.Inv c) (request : ActionRequest) :
    (s.liveStep BoundedQueue.step c (.execute request)).Inv c := by
  refine onRequests_rule h.reqBounded h fun q r heff hq => ?_
  cases heff with
  | reserveRoom item hop =>
    rcases hop with hop | hop
    · cases hop
      refine ⟨hq, h.resBounded, fun b hb => ?_, h.results, h.enqueuing, h.current, h.handed,
        h.accounted⟩
      dsimp only at hb
      rw [← List.append_assoc] at hb
      rcases List.mem_append.mp hb with hb | hb
      · exact h.requests b hb
      · exact ⟨request, List.mem_singleton.mp hb⟩
    · cases hop
  | full => exact h
  | reserveItem hop => rcases hop with hop | hop <;> cases hop

theorem Inv.accept (h : s.Inv c) (i : Nat) :
    (s.liveStep BoundedQueue.step c (.accept i)).Inv c := by
  refine onRequests_rule h.reqBounded h fun q r heff hq => ?_
  cases heff with
  | reserveRoom item hop => rcases hop with hop | hop <;> cases hop
  | reserveItem hop => rcases hop with hop | hop <;> cases hop
  | store i item hi =>
    have hmem : item ∈ s.reqStore.enqueuing := List.mem_of_getElem? hi
    refine ⟨hq, h.resBounded, fun b hb => ?_, h.results, h.enqueuing, h.current, h.handed,
      fun id => ?_, h.accounted.2⟩
    · refine h.requests b ?_
      dsimp only at hb
      rw [List.append_assoc] at hb
      rcases List.mem_append.mp hb with hb | hb
      · exact List.mem_append_left _ hb
      · refine List.mem_append_right _ ?_
        rcases List.mem_append.mp hb with hb | hb
        · rw [List.mem_singleton.mp hb]
          exact hmem
        · exact List.mem_of_mem_eraseIdx hb
    · have hcount := h.accounted.1 id
      dsimp only [withAccepted, RunnerLoops.held] at hcount ⊢
      rw [requestIds_append, requestIds_append, List.count_append, List.count_append]
      omega

/-- A step of the loops alone, in which the command loop keeps what it holds. -/
theorem Inv.withLoops (h : s.Inv c) {l : RunnerLoops} (halive : l.alive → s.loops.alive)
    (hpushed : pushed l.command = pushed s.loops.command)
    (hcurrent : ActionRunner.current l.responder = ActionRunner.current s.loops.responder ∨
      ActionRunner.current l.responder = none)
    (hhanded : ∀ r, l.responder = .handed r → r ∈ l.handed)
    (hheld : l.held = s.loops.held) (haccepted : l.accepted = s.loops.accepted)
    (hpopped : l.popped = s.loops.popped) (hmono : s.loops.handed ⊆ l.handed) :
    Inv c { s with loops := l } := by
  refine ⟨h.reqBounded, h.resBounded, h.requests, h.results, fun ha => ?_, fun ha r hr => ?_, hhanded,
    fun id => ?_, fun b hb => ?_⟩
  · dsimp only
    rw [h.enqueuing (halive ha), hpushed]
  · dsimp only at hr
    rcases hcurrent with heq | heq
    · exact h.current (halive ha) r (heq ▸ hr)
    · rw [heq] at hr
      cases hr
  · have hcount := h.accounted.1 id
    dsimp only
    rw [hheld, haccepted, hpopped]
    exact hcount
  · dsimp only at hb
    rw [hpopped] at hb
    rcases h.accounted.2 b hb with ⟨r, hr, hdecode⟩
    exact ⟨r, hmono hr, hdecode⟩

/-- A reservation in the request store. -/
theorem Inv.withRequests (h : s.Inv c) {q : BoundedQueue Bytes} (hq : q.Bounded)
    (hitems : q.items = s.reqStore.items) (henqueuing : q.enqueuing = s.reqStore.enqueuing) :
    Inv c { s with reqStore := q } := by
  refine ⟨hq, h.resBounded, ?_, h.results, h.enqueuing, h.current, h.handed, ?_⟩
  · dsimp only
    rw [hitems, henqueuing]
    exact h.requests
  · dsimp only
    rw [hitems]
    exact h.accounted

/-- A reservation in the result store. -/
theorem Inv.withResults (h : s.Inv c) {q : BoundedQueue Bytes} (hq : q.Bounded)
    (hitems : q.items = s.resStore.items) (henqueuing : q.enqueuing = s.resStore.enqueuing) :
    Inv c { s with resStore := q } := by
  refine ⟨h.reqBounded, hq, h.requests, ?_, ?_, ?_, h.handed, ?_⟩
  · dsimp only
    rw [hitems]
    exact h.results
  · dsimp only
    rw [henqueuing]
    exact h.enqueuing
  · dsimp only
    rw [hitems]
    exact h.current
  · dsimp only
    rw [hitems]
    exact h.accounted

theorem held_congr {l l' : RunnerLoops} (ha : l.alive = l'.alive)
    (hc : l.command.request = l'.command.request) : l.held = l'.held := by
  unfold RunnerLoops.held
  rw [ha, hc]

theorem held_of_alive {l : RunnerLoops} (h : l.alive) : l.held = l.command.request := if_pos h

theorem Inv.dequeue (h : s.Inv c) :
    (s.liveStep BoundedQueue.step c .dequeue).Inv c := by
  dsimp only [liveStep]
  split
  · next hidle =>
    refine onRequests_rule h.reqBounded h fun q r heff hq => ?_
    have hloops : Inv c { s with loops := { s.loops with command := .reserved } } := by
      refine h.withLoops id ?_ (.inl rfl) h.handed ?_ rfl rfl (List.Subset.refl _)
      · rw [hidle]
        rfl
      · refine held_congr rfl ?_
        rw [hidle]
        rfl
    cases heff with
    | reserveRoom item hop => rcases hop with hop | hop <;> cases hop
    | reserveItem hop => exact hloops.withRequests hq rfl rfl
  · exact h

theorem Inv.take (h : s.Inv c) (ha : s.loops.alive) :
    (s.liveStep BoundedQueue.step c .take).Inv c := by
  dsimp only [liveStep]
  split
  · next hreserved =>
    refine onRequests_rule h.reqBounded h fun q r heff hq => ?_
    cases heff with
    | reserveRoom item hop => rcases hop with hop | hop <;> cases hop
    | reserveItem hop => rcases hop with hop | hop <;> cases hop
    | take item items hitems hd =>
      have hmem : item ∈ s.reqStore.items ++ s.reqStore.enqueuing := by
        rw [hitems]
        exact List.mem_cons_self
      rcases h.requests item hmem with ⟨request, rfl⟩
      have hcommand : commandAfter c (.removed (c.serializeRequest request)) = .running request := by
        unfold commandAfter
        dsimp only
        rw [c.request_roundTrip]
      rw [hcommand]
      refine ⟨hq, h.resBounded, fun b hb => h.requests b ?_, h.results, fun _ => ?_, h.current,
        h.handed, fun id => ?_, h.accounted.2⟩
      · rw [hitems]
        exact List.mem_cons_of_mem _ hb
      · dsimp only
        rw [h.enqueuing ha, hreserved]
        rfl
      · have hcount := h.accounted.1 id
        rw [held_of_alive ha, hreserved, hitems, requestIds_cons, List.count_cons] at hcount
        rw [held_of_alive (by exact ha)]
        dsimp only [CommandPhase.request] at hcount ⊢
        rw [List.count_nil] at hcount
        rw [List.count_cons, List.count_nil]
        omega
  · exact h

theorem Inv.finish (h : s.Inv c) (ha : s.loops.alive) {statusCode : Int} {output : String}
    (hkept : ¬ s.loops.Loses (.finish statusCode output)) :
    (s.liveStep BoundedQueue.step c (.finish statusCode output)).Inv c := by
  dsimp only [liveStep]
  split
  · next request hrunning =>
    split
    · refine h.withLoops id ?_ (.inl rfl) h.handed ?_ rfl rfl (List.Subset.refl _)
      · rw [hrunning]
        rfl
      · refine held_congr rfl ?_
        rw [hrunning]
        rfl
    · next hunknown => exact absurd ⟨ha, request, hrunning, hunknown⟩ hkept
  · exact h

theorem Inv.reserveSlot (h : s.Inv c) (ha : s.loops.alive) :
    (s.liveStep BoundedQueue.step c .reserveSlot).Inv c := by
  dsimp only [liveStep]
  split
  · next result hstoring =>
    refine onResults_rule h.resBounded h fun q r heff hq => ?_
    cases heff with
    | reserveItem hop => rcases hop with hop | hop <;> cases hop
    | reserveRoom item hop =>
      rcases hop with hop | hop
      · cases hop
      · cases hop
        refine ⟨h.reqBounded, hq, h.requests, h.results, fun _ => ?_, h.current, h.handed,
          fun id => ?_, h.accounted.2⟩
        · dsimp only
          rw [h.enqueuing ha, hstoring]
          rfl
        · have hcount := h.accounted.1 id
          rw [held_of_alive ha, hstoring] at hcount
          rw [held_of_alive (by exact ha)]
          exact hcount
  · exact h

theorem Inv.storeResult (h : s.Inv c) (ha : s.loops.alive) :
    (s.liveStep BoundedQueue.step c .storeResult).Inv c := by
  dsimp only [liveStep]
  split
  · next result hpushing =>
    have henq : s.resStore.enqueuing = [c.serializeResult result] := by
      rw [h.enqueuing ha, hpushing]
      rfl
    refine onResults_rule h.resBounded h fun q r heff hq => ?_
    cases heff with
    | reserveItem hop => rcases hop with hop | hop <;> cases hop
    | reserveRoom item hop => rcases hop with hop | hop <;> cases hop
    | store i item hi =>
      rw [henq] at hi
      cases hi
      refine ⟨h.reqBounded, hq, h.requests, fun b hb => ?_, fun _ => ?_, fun _ r hr => ?_, h.handed,
        fun id => ?_, h.accounted.2⟩
      · rcases List.mem_append.mp hb with hb | hb
        · exact h.results b hb
        · exact ⟨result, List.mem_singleton.mp hb⟩
      · dsimp only
        rw [henq]
        rfl
      · have hhead := h.current ha r hr
        dsimp only
        rw [List.head?_append, hhead]
        rfl
      · have hcount := h.accounted.1 id
        rw [held_of_alive ha, hpushing] at hcount
        rw [held_of_alive (by exact ha)]
        dsimp only [CommandPhase.request] at hcount ⊢
        rw [List.count_cons, List.count_nil] at hcount
        rw [resultIds_append, List.count_append, resultIds_cons, List.count_cons, List.count_nil]
        have hnil : (c.resultIds []).count id = 0 := List.count_nil
        omega
  · exact h

theorem Inv.waitNonEmpty (h : s.Inv c) :
    (s.liveStep BoundedQueue.step c .waitNonEmpty).Inv c := by
  dsimp only [liveStep]
  split
  · refine onResults_rule h.resBounded h fun q r heff hq => ?_
    have hloops : Inv c { s with loops := { s.loops with responder := .woken } } :=
      h.withLoops id rfl (.inr rfl) nofun (held_congr rfl rfl) rfl rfl (List.Subset.refl _)
    cases heff with
    | reserveItem hop => rcases hop with hop | hop <;> cases hop
    | reserveRoom item hop => rcases hop with hop | hop <;> cases hop
    | wait => exact hloops.withResults hq rfl rfl
  · exact h

theorem Inv.peek (h : s.Inv c) : (s.liveStep BoundedQueue.step c .peek).Inv c := by
  dsimp only [liveStep]
  split
  · refine onResults_rule h.resBounded h fun q r heff hq => ?_
    cases heff with
    | reserveItem hop => rcases hop with hop | hop <;> cases hop
    | reserveRoom item hop => rcases hop with hop | hop <;> cases hop
    | peek =>
      refine ⟨h.reqBounded, hq, h.requests, h.results, h.enqueuing, fun _ r hr => ?_, fun r hr => ?_,
        h.accounted⟩
      · cases hhead : s.resStore.items.head? with
        | none =>
          rw [hhead] at hr
          cases hr
        | some blob =>
          rcases h.results blob (List.mem_of_mem_head? hhead) with ⟨result, rfl⟩
          rw [hhead] at hr
          dsimp only [responderAfter] at hr
          rw [c.result_roundTrip] at hr
          cases hr
          rfl
      · dsimp only [responderAfter] at hr
        split at hr
        · split at hr <;> cases hr
        · cases hr
  · exact h

theorem Inv.callback (h : s.Inv c) (ok : Bool) :
    (s.liveStep BoundedQueue.step c (.callback ok)).Inv c := by
  dsimp only [liveStep]
  split
  · next result hsending =>
    split
    · refine h.withLoops id rfl (.inl ?_) (fun r hr => ?_) (held_congr rfl rfl) rfl rfl
        (List.subset_append_left _ _)
      · rw [hsending]
        rfl
      · cases hr
        exact List.mem_append_right _ (List.mem_singleton_self _)
    · exact h
  · exact h

theorem Inv.pop (h : s.Inv c) (ha : s.loops.alive) :
    (s.liveStep BoundedQueue.step c .pop).Inv c := by
  dsimp only [liveStep]
  split
  · next result hhanded =>
    refine onResults_rule h.resBounded h fun q r heff hq => ?_
    cases heff with
    | reserveItem hop => rcases hop with hop | hop <;> cases hop
    | reserveRoom item hop => rcases hop with hop | hop <;> cases hop
    | pop item items hitems hw =>
      have hhead := h.current ha result (by rw [hhanded]; rfl)
      rw [hitems] at hhead
      cases hhead
      refine ⟨h.reqBounded, hq, h.requests, fun b hb => h.results b ?_, h.enqueuing, nofun, nofun,
        fun id => ?_, fun b hb => ?_⟩
      · rw [hitems]
        exact List.mem_cons_of_mem _ hb
      · have hcount := h.accounted.1 id
        rw [hitems, resultIds_cons, List.count_cons] at hcount
        dsimp only [withPopped, RunnerLoops.held] at hcount ⊢
        rw [resultIds_append, List.count_append, resultIds_cons, List.count_cons]
        have hnil : (c.resultIds []).count id = 0 := List.count_nil
        omega
      · rcases List.mem_append.mp hb with hb | hb
        · exact h.accounted.2 b hb
        · rw [List.mem_singleton.mp hb]
          exact ⟨result, h.handed result hhanded, c.result_roundTrip result⟩
  · exact h

theorem Inv.enqueueFails (h : s.Inv c) (ha : s.loops.alive) (hkept : ¬ s.loops.Loses .enqueueFails) :
    (s.liveStep BoundedQueue.step c .enqueueFails).Inv c := by
  dsimp only [liveStep]
  split
  · next result hstoring =>
    split
    · next hcancelled => exact absurd ⟨ha, hcancelled, result, hstoring⟩ hkept
    · exact h
  · exact h

theorem Inv.restart (h : s.Inv c) (hdead : ¬ s.loops.alive) (queueSize : Nat)
    (actionMap : List String) : (s.restart BoundedQueue.step queueSize actionMap).Inv c := by
  have hheld : s.loops.held = [] := if_neg hdead
  have hbounded {q : BoundedQueue Bytes} (hq : q.Bounded) :
      BoundedQueue.Bounded ⟨max queueSize q.items.length, q.items, [], 0, 0⟩ := by
    have hstep : q.step (.restart queueSize) = some (_, .restarted) := rfl
    exact BoundedQueue.bounded_step hq hstep
  refine ⟨hbounded h.reqBounded, hbounded h.resBounded, fun b hb => h.requests b ?_, h.results,
    fun _ => rfl, nofun, nofun, fun id => ?_, h.accounted.2⟩
  · have hb : b ∈ s.reqStore.items ++ [] := hb
    rw [List.append_nil] at hb
    exact List.mem_append_left _ hb
  · have hcount := h.accounted.1 id
    rw [hheld] at hcount
    exact hcount

theorem Inv.leaveCommandLoop (h : s.Inv c) :
    (s.liveStep BoundedQueue.step c .leaveCommandLoop).Inv c := by
  dsimp only [liveStep]
  split
  · next hidle =>
    refine h.withLoops id ?_ (.inl rfl) h.handed (held_congr rfl ?_) rfl rfl (List.Subset.refl _)
    · rw [hidle.1]
      rfl
    · rw [hidle.1]
      rfl
  · exact h

theorem Inv.step (h : s.Inv c) (hkept : ¬ s.loops.Loses e) : (s.step BoundedQueue.step c e).Inv c := by
  unfold ActionRunner.step
  split
  · next ha =>
    cases e with
    | execute request => exact h.execute request
    | accept i => exact h.accept i
    | dequeue => exact h.dequeue
    | take => exact h.take ha
    | finish statusCode output => exact h.finish ha hkept
    | reserveSlot => exact h.reserveSlot ha
    | enqueueFails => exact h.enqueueFails ha hkept
    | storeResult => exact h.storeResult ha
    | waitNonEmpty => exact h.waitNonEmpty
    | peek => exact h.peek
    | callback ok => exact h.callback ok
    | pop => exact h.pop ha
    | cancel =>
      exact h.withLoops id rfl (.inl rfl) h.handed (held_congr rfl rfl) rfl rfl (List.Subset.refl _)
    | leaveCommandLoop => exact h.leaveCommandLoop
    | leaveResponderLoop =>
      dsimp only [liveStep]
      split
      · exact h.withLoops id rfl (.inr rfl) nofun (held_congr rfl rfl) rfl rfl (List.Subset.refl _)
      · exact h
    | powerLoss =>
      have hheld : s.loops.held = [] := not_not.mp hkept
      exact h.withLoops nofun rfl (.inl rfl) h.handed hheld.symm rfl rfl (List.Subset.refl _)
    | restart => exact h
  · next hdead =>
    split
    · exact h.restart hdead _ _
    · exact h

/-- What is held no more, and is nowhere else, is missing from the account. -/
theorem not_accounted_of_drop {l l' : RunnerLoops} {requests results : List Bytes}
    (haccounted : l.Accounted c requests results) (hne : l.held ≠ []) (hheld : l'.held = [])
    (haccepted : l'.accepted = l.accepted) (hpopped : l'.popped = l.popped) :
    ¬ l'.Accounted c requests results := by
  intro hafter
  rcases List.exists_mem_of_ne_nil _ hne with ⟨id, hid⟩
  have hpos := List.count_pos_iff.mpr hid
  have hbefore := haccounted.1 id
  have hcount := hafter.1 id
  rw [haccepted, hpopped, hheld, List.count_nil] at hcount
  omega

/-- A request that is dropped is missing from the account. -/
theorem not_accounted_of_loses (h : s.Inv c) (hloses : s.loops.Loses e) :
    ¬ (s.step BoundedQueue.step c e).loops.Accounted c
      (s.step BoundedQueue.step c e).reqStore.items
      (s.step BoundedQueue.step c e).resStore.items := by
  unfold ActionRunner.step
  cases e with
  | powerLoss =>
    have ha : s.loops.alive = true := by
      by_contra hdead
      exact hloses (if_neg hdead)
    rw [if_pos ha]
    exact not_accounted_of_drop h.accounted hloses (if_neg nofun) rfl rfl
  | finish statusCode output =>
    rcases hloses with ⟨ha, request, hrunning, hunknown⟩
    have hne : s.loops.held ≠ [] := by
      rw [held_of_alive ha, hrunning]
      exact nofun
    rw [if_pos ha]
    dsimp only [liveStep]
    rw [hrunning]
    dsimp only
    rw [if_neg hunknown]
    exact not_accounted_of_drop h.accounted hne (if_neg nofun) rfl rfl
  | enqueueFails =>
    rcases hloses with ⟨ha, hcancelled, result, hstoring⟩
    have hne : s.loops.held ≠ [] := by
      rw [held_of_alive ha, hstoring]
      exact nofun
    rw [if_pos ha]
    dsimp only [liveStep]
    rw [hstoring]
    dsimp only
    rw [if_pos hcancelled]
    exact not_accounted_of_drop h.accounted hne (held_of_alive (by exact ha)) rfl rfl
  | execute | accept | dequeue | take | reserveSlot | storeResult | waitNonEmpty | peek | callback
  | pop | cancel | leaveCommandLoop | leaveResponderLoop | restart => exact hloses.elim

end Queues

/-! ## The runner on file stores -/

/-- `NewActionRunner` on a new data directory. -/
def newActionRunner (queueSize : Nat) (actionMap : List String) :
    Option (ActionRunner StoreSystem) := do
  let reqStore ← StoreSystem.newFileStore queueSize []
  let resStore ← StoreSystem.newFileStore queueSize []
  return ⟨reqStore, resStore, ⟨true, false, actionMap, .idle, .idle, [], [], []⟩⟩

/-- Every accepted request is accounted for, by what the stores contain. -/
def Accounted (c : ActionCodec) (s : ActionRunner StoreSystem) : Prop :=
  s.loops.Accounted c s.reqStore.store.contents s.resStore.store.contents

theorem accounted_iff {c : ActionCodec} {s : ActionRunner StoreSystem}
    {t : ActionRunner (BoundedQueue Bytes)} (h : Related StoreSystem.Represents s t) :
    s.Accounted c ↔ t.loops.Accounted c t.reqStore.items t.resStore.items := by
  rcases h.reqStore.stored with ⟨lo, hreq⟩
  rcases h.resStore.stored with ⟨lo', hres⟩
  unfold Accounted
  rw [hreq.contents, hres.contents, h.loops]

theorem inv_start (c : ActionCodec) (queueSize : Nat) (actionMap : List String) :
    Inv c ⟨.start queueSize, .start queueSize, ⟨true, false, actionMap, .idle, .idle, [], [], []⟩⟩ :=
  ⟨BoundedQueue.bounded_start _, BoundedQueue.bounded_start _, nofun, nofun, fun _ => rfl, nofun,
    nofun, fun _ => rfl, nofun⟩

/-- A step that loses no request keeps the account, and one that does breaks it. -/
theorem accounted_next {c : ActionCodec} {s : ActionRunner StoreSystem}
    {t : ActionRunner (BoundedQueue Bytes)} (h : Related StoreSystem.Represents s t) (ht : t.Inv c)
    (e : RunEvent) :
    (¬ s.loops.LosesBy e → ∃ t', Related StoreSystem.Represents (s.next c e) t' ∧ t'.Inv c) ∧
      (s.loops.LosesBy e → ¬ (s.next c e).Accounted c) := by
  cases e with
  | step e =>
    have hstep := h.step StoreSystem.bisimulates (c := c) (e := e)
    refine ⟨fun hkept => ⟨_, hstep, ht.step (h.loops ▸ hkept)⟩, fun hloses haccounted => ?_⟩
    have hloses : t.loops.Loses e := h.loops ▸ hloses
    exact not_accounted_of_loses ht hloses ((accounted_iff hstep).mp haccounted)
  | storeFails left =>
    constructor
    · intro hkept
      have hsame : s.next c (.storeFails left) = s := by
        dsimp only [ActionRunner.next]
        split
        · next ha =>
          split
          · next result hpushing => exact absurd ⟨ha, result, hpushing⟩ hkept
          · rfl
        · rfl
      rw [hsame]
      exact ⟨t, h, ht⟩
    · rintro ⟨ha, result, hpushing⟩
      have hne : s.loops.held ≠ [] := by
        rw [held_of_alive ha, hpushing]
        exact nofun
      have hnext : s.next c (.storeFails left) =
          { s with
            resStore := s.resStore.failPush left
            loops := { s.loops with command := .idle } } := by
        dsimp only [ActionRunner.next]
        rw [if_pos ha, hpushing]
      rw [hnext]
      exact not_accounted_of_drop ((accounted_iff h).mpr ht.accounted) hne
        (held_of_alive (by exact ha)) rfl rfl

/-- From a state that accounts for every request, a run does so throughout exactly if it loses
none. -/
theorem accounted_run_iff {c : ActionCodec} {s : ActionRunner StoreSystem}
    {t : ActionRunner (BoundedQueue Bytes)} (h : Related StoreSystem.Represents s t) (ht : t.Inv c)
    (events : List RunEvent) :
    (∀ before, before <+: events → (before.foldl (next c) s).Accounted c) ↔
      Along (next c) (fun s e => ¬ s.loops.LosesBy e) s events := by
  induction events generalizing s t with
  | nil =>
    refine iff_of_true (fun before hbefore => ?_) trivial
    rw [List.prefix_nil.mp hbefore]
    exact (accounted_iff h).mpr ht.accounted
  | cons e events ih =>
    obtain ⟨hkeeps, hbreaks⟩ := accounted_next h ht e
    constructor
    · intro hall
      have hone : [e] <+: e :: events := List.cons_prefix_cons.mpr ⟨rfl, List.nil_prefix⟩
      have hkept : ¬ s.loops.LosesBy e := fun hloses => hbreaks hloses (hall [e] hone)
      rcases hkeeps hkept with ⟨t', hstep, ht'⟩
      refine ⟨hkept, (ih hstep ht').mp fun before hbefore => ?_⟩
      exact hall (e :: before) (List.cons_prefix_cons.mpr ⟨rfl, hbefore⟩)
    · rintro ⟨hkept, hrest⟩ before hbefore
      cases before with
      | nil => exact (accounted_iff h).mpr ht.accounted
      | cons e' before =>
        rcases List.cons_prefix_cons.mp hbefore with ⟨rfl, hrestBefore⟩
        rcases hkeeps hkept with ⟨t', hstep, ht'⟩
        exact (ih hstep ht').mpr hrest before hrestBefore

end ActionRunner

open ActionRunner

/-- Through every order of calls, loop steps, cancellations, failing writes, losses of power and
restarts, every accepted request is stored, held by the live process, has a stored result, or had its result handed to
a successful callback, exactly as long as no request is dropped between its `Dequeue` and the push of
its result; and a new process holds none. -/
theorem accepted_action_kept_iff (c : ActionCodec) (queueSize : Nat) (actionMap : List String)
    {s : ActionRunner StoreSystem} (hnew : newActionRunner queueSize actionMap = some s)
    (events : List RunEvent) :
    ((∀ before, before <+: events → (before.foldl (next c) s).Accounted c) ↔
      Along (next c) (fun s e => ¬ s.loops.LosesBy e) s events) ∧
    ∀ dead : ActionRunner StoreSystem, ¬ dead.loops.alive → dead.loops.held = [] ∧
      ∀ size actions,
        (dead.step StoreSystem.step c (.restart size actions)).loops.held = [] := by
  constructor
  · rcases StoreSystem.represents_start queueSize with ⟨q, hq, hR⟩
    unfold newActionRunner at hnew
    simp only [hq, Option.bind_eq_bind, Option.bind_some, Option.pure_def, Option.some.injEq] at hnew
    subst hnew
    exact accounted_run_iff ⟨hR, hR, rfl⟩ (inv_start c queueSize actionMap) events
  · intro dead hdead
    refine ⟨if_neg hdead, fun size actions => ?_⟩
    unfold ActionRunner.step
    rw [if_neg hdead]
    dsimp only [ActionRunner.restart, ActionRunner.onRequests, ActionRunner.onResults]
    split
    · split
      · exact if_neg hdead
      · exact if_neg hdead
    · exact held_of_alive rfl

/-! ## A codec -/

/-- A text as three bytes for each character, each marked, and an end mark. -/
def encodeText : List Char → Bytes
  | [] => [0]
  | x :: xs =>
    1 :: UInt8.ofNat (x.toNat / 65536) :: UInt8.ofNat (x.toNat / 256) :: UInt8.ofNat x.toNat ::
      encodeText xs

def decodeText : Bytes → Option (List Char × Bytes)
  | 0 :: rest => some ([], rest)
  | 1 :: a :: b :: d :: rest =>
    (decodeText rest).map fun (xs, rest) =>
      (Char.ofNat (a.toNat * 65536 + b.toNat * 256 + d.toNat) :: xs, rest)
  | _ => none

theorem decodeText_encodeText (xs : List Char) (rest : Bytes) :
    decodeText (encodeText xs ++ rest) = some (xs, rest) := by
  induction xs with
  | nil => rfl
  | cons x xs ih =>
    have hlt : x.toNat < 65536 * 256 := by
      have := x.valid
      unfold UInt32.isValidChar Nat.isValidChar at this
      have heq : x.toNat = x.val.toNat := rfl
      omega
    have hcode : (UInt8.ofNat (x.toNat / 65536)).toNat * 65536 +
        (UInt8.ofNat (x.toNat / 256)).toNat * 256 + (UInt8.ofNat x.toNat).toNat = x.toNat := by
      rw [UInt8.toNat_ofNat', UInt8.toNat_ofNat', UInt8.toNat_ofNat']
      omega
    simp only [encodeText, List.cons_append, decodeText, ih, Option.map_some, hcode, Char.ofNat_toNat]

/-- An exit code in tally marks. -/
def tally : Int → List Char
  | .ofNat n => List.replicate n '+'
  | .negSucc n => List.replicate (n + 1) '-'

def untally (xs : List Char) : Int := if xs.head? = some '-' then -xs.length else xs.length

theorem untally_tally (n : Int) : untally (tally n) = n := by
  cases n with
  | ofNat n => cases n <;> simp [tally, untally, List.replicate_succ]
  | negSucc n =>
    simp only [tally, untally, List.replicate_succ, List.head?_cons, if_pos, List.length_cons,
      List.length_replicate]
    omega

/-- Fields one after the other. -/
def plainCodec : ActionCodec where
  serializeRequest r := encodeText r.execId.toList ++ encodeText r.actionId.toList
  newActionRequest blob := do
    let (execId, rest) ← decodeText blob
    let (actionId, _) ← decodeText rest
    return ⟨String.ofList execId, String.ofList actionId⟩
  serializeResult r :=
    encodeText r.execId.toList ++ (encodeText (tally r.statusCode) ++ encodeText r.output.toList)
  newActionResult blob := do
    let (execId, rest) ← decodeText blob
    let (statusCode, rest) ← decodeText rest
    let (output, _) ← decodeText rest
    return ⟨String.ofList execId, untally statusCode, String.ofList output⟩
  request_roundTrip r := by
    have hend := decodeText_encodeText r.actionId.toList []
    rw [List.append_nil] at hend
    simp [decodeText_encodeText, hend]
  result_roundTrip r := by
    have hend := decodeText_encodeText r.output.toList []
    rw [List.append_nil] at hend
    simp [decodeText_encodeText, hend, untally_tally]

/-- A runner for one action, with room for one request. -/
def updateRunner : ActionRunner StoreSystem :=
  ⟨StoreSystem.emptyStore, StoreSystem.emptyStore,
    ⟨true, false, ["update"], .idle, .idle, [], [], []⟩⟩

/-- The life of a request without a loss. -/
def deliveredRun : List RunEvent :=
  [.step (.execute ⟨"e", "update"⟩), .step (.accept 0), .step .dequeue, .step .take,
    .step (.finish 0 ""), .step .reserveSlot, .step .storeResult, .step .waitNonEmpty, .step .peek,
    .step (.callback true), .step .pop]

/-- The power fails while the action of an accepted request runs. -/
def interruptedRun : List RunEvent :=
  [.step (.execute ⟨"e", "update"⟩), .step (.accept 0), .step .dequeue, .step .take,
    .step .powerLoss, .step (.restart 1 ["update"])]

theorem accepted_action_delivered :
    newActionRunner 1 ["update"] = some updateRunner ∧
      (deliveredRun.foldl (next plainCodec) updateRunner).Accounted plainCodec := by
  have hnew : newActionRunner 1 ["update"] = some updateRunner := by decide
  refine ⟨hnew, ?_⟩
  refine (accepted_action_kept_iff plainCodec 1 ["update"] hnew deliveredRun).1.mpr ?_ _
    (List.prefix_refl _)
  refine ⟨id, id, id, id, ?_, id, id, id, id, id, id, trivial⟩
  rintro ⟨-, request, hrunning, hunknown⟩
  cases hrunning
  exact hunknown (by decide)

theorem accepted_action_lost :
    newActionRunner 1 ["update"] = some updateRunner ∧
      (let s := interruptedRun.foldl (next plainCodec) updateRunner
       plainCodec.requestIds s.loops.accepted = ["e"] ∧ s.reqStore.store.contents = [] ∧
       s.loops.held = [] ∧ s.resStore.store.contents = [] ∧ s.loops.handed = [] ∧
       ¬ s.Accounted plainCodec) := by
  have hlost :
      let s := interruptedRun.foldl (next plainCodec) updateRunner
      plainCodec.requestIds s.loops.accepted = ["e"] ∧ s.reqStore.store.contents = [] ∧
      s.loops.held = [] ∧ s.resStore.store.contents = [] ∧ s.loops.handed = [] ∧
      s.loops.popped = [] := by
    decide +kernel
  rcases hlost with ⟨haccepted, hreq, hheld, hres, hhanded, hpopped⟩
  refine ⟨by decide, haccepted, hreq, hheld, hres, hhanded, fun h => ?_⟩
  have hcount := h.1 "e"
  rw [haccepted, hreq, hheld, hres, hpopped] at hcount
  cases hcount

end Rdfm.Linux
