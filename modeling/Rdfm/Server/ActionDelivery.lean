import Rdfm.Server.Actions

/-!
# Delivery of action executions

Two properties of every run of the action threads.

An execution that the device has acknowledged is not sent again, and stored statuses only move from
pending over sent to a final one. Since `sent` is never stored, an acknowledged execution is fetched
again by the next `send_action_queue`; it takes an orderly run for this not to happen
(`no_resend_of_orderly`).

A result is stored when it arrives. The container of executions decides: a result is kept exactly if
no `execute_action` call has ended for its execution since it was last added there
(`action_result_kept_iff`).
-/

namespace Rdfm.Server

open Rdfm.Lib

/-! ## Statuses that move forward -/

def LogStatus.rank : LogStatus → Nat
  | .pending => 0
  | .sent => 1
  | .result _ => 2
  | .error => 2

/-- Every row is new and pending, or its status is as it was or has moved on. -/
def Forward (old new : List ActionLog) : Prop :=
  ∀ r' ∈ new,
    (∃ r ∈ old, r.id = r'.id ∧ (r'.status = r.status ∨ r.status.rank < r'.status.rank)) ∨
    r'.status = .pending ∧ ∀ r ∈ old, r.id ≠ r'.id

section Rows

variable {rows : List ActionLog} {id : String} {status : LogStatus} {downloadUrl : Option String}

theorem Forward.of_subset {new : List ActionLog} (h : new ⊆ rows) : Forward rows new :=
  fun r hr => .inl ⟨r, h hr, rfl, .inl rfl⟩

theorem Forward.refl (rows : List ActionLog) : Forward rows rows := .of_subset (List.Subset.refl rows)

/-- A status of higher rank is stored. -/
theorem Forward.updateStatus (h : ∀ r ∈ rows, r.id = id → r.status.rank < status.rank) :
    Forward rows (updateStatus id status downloadUrl rows) := by
  unfold Rdfm.Server.updateStatus
  split
  · exact .refl rows
  · intro r' hr'
    obtain ⟨r, hr, rfl⟩ := mem_updateWhere.mp hr'
    left
    by_cases hid : r.id = id
    · rw [if_pos (decide_eq_true hid)]
      exact ⟨r, hr, rfl, .inr (h r hr hid)⟩
    · rw [if_neg (by simpa using hid)]
      exact ⟨r, hr, rfl, .inl rfl⟩

end Rows

namespace ActionServer

variable {s s' : ActionServer} {o : ActionOutput} {id i : String}

/-- No result and no error is stored for the execution. -/
def Unfinished (s : ActionServer) (id : String) : Prop :=
  ∀ r ∈ s.rows, r.id = id → r.status.rank < 2

/-- A result or an error may be stored for an execution that has none. -/
theorem Unfinished.forward (h : s.Unfinished id) (status : LogStatus) (hrank : status.rank = 2)
    (downloadUrl : Option String) :
    Forward s.rows (Rdfm.Server.updateStatus id status downloadUrl s.rows) := by
  refine .updateStatus fun r hr hid => ?_
  rw [hrank]
  exact h r hr hid

/-! ## Orderly runs -/

/-- What keeps a run in order:
* an `ok` comes when no queue thread is about to send the execution, and its handler, if it has one,
  waits for this very answer;
* the rows of a device are fetched when none of them is acknowledged;
* a result or an error is stored only for an execution that has none. -/
def Orderly (s : ActionServer) : ActionEvent → Prop
  | .control _ id .ok => s.actionExecutions id ≠ none →
    (∀ t q, s.queues t = some q → id ∉ q.toSend) ∧
      ∀ h, s.handlers id = some h →
        s.actionExecutions id = some .handler ∧ h.phase = .awaiting ∧ h.executionControl = []
  | .queue t .fetch => ∀ q, s.queues t = some q →
    ∀ r ∈ fetchDeviceQueue q.macAddress s.rows, r.id ∉ s.acknowledged
  | .queue t .skip => ∀ q action rest, s.queues t = some q → q.phase = .running (action :: rest) →
    s.Unfinished action.id
  | .handler id .unknownAction => s.Unfinished id
  | .store c => ∀ p, s.receivers c = some p → s.Unfinished p.executionId
  | _ => True

/-- The step sends nothing that is acknowledged, and moves statuses forward only. -/
def Delivers (s : ActionServer) (e : ActionEvent) : Prop :=
  ∀ s' o, s.step e = some (s', o) →
    (∀ id, o = .sent id → id ∉ s.acknowledged) ∧ Forward s.rows s'.rows

/-! ## Steps of the threads -/

/-- A handler that will not send again: it waits for the result, or has an `ok` to read. -/
def Calm (h : ActionHandler) : Prop :=
  h.phase = .queued ∨ h.phase = .awaiting ∧ h.executionControl.head? = some .ok

section Handler

variable {h : ActionHandler} {e : HandlerEvent}

/-- All that a handler can do. -/
theorem handlerStep_cases (hstep : s.handlerStep id h e = some (s', o)) :
    (h.phase = .ensuring ∧ s' = s.setHandler id none ∧ o = .quiet) ∨
    (h.phase = .ensuring ∧ e = .unknownAction ∧
      s' = (s.setHandler id none).setStatus id .error none ∧ o = .quiet) ∨
    (h.phase = .ensuring ∧ o = .entered id ∧
      s' = (s.setHandler id (some { h with phase := .sending })).setExecution id (some .handler)) ∨
    (h.phase = .sending ∧ s' = s.setHandler id (some { h with phase := .awaiting }) ∧ o = .sent id) ∨
    (s' = s.finish id ∧ o = .ended id) ∨
    (∃ rest, h.phase = .awaiting ∧ h.executionControl = .ok :: rest ∧ o = .quiet ∧
      s' = s.setHandler id (some { h with phase := .queued, executionControl := rest })) ∨
    (∃ rest, h.phase = .awaiting ∧ h.executionControl = .full :: rest ∧ o = .quiet ∧
      s' = s.setHandler id (some { h with phase := .sleeping, executionControl := rest })) ∨
    (h.phase = .sleeping ∧ s' = s.setHandler id (some { h with phase := .sending }) ∧
      o = .quiet) := by
  cases e <;> simp only [handlerStep] at hstep <;> split at hstep
  case refuse.isTrue hphase =>
    cases hstep
    exact .inl ⟨hphase, rfl, rfl⟩
  case unknownAction.isTrue hphase =>
    cases hstep
    exact .inr (.inl ⟨hphase, rfl, rfl, rfl⟩)
  case add.isTrue hphase =>
    cases hstep
    exact .inr (.inr (.inl ⟨hphase, rfl, rfl⟩))
  case send.isTrue hphase =>
    cases hstep
    exact .inr (.inr (.inr (.inl ⟨hphase, rfl, rfl⟩)))
  case control.isTrue hphase =>
    split at hstep
    · cases hstep
    · next rest hcontrol =>
      cases hstep
      exact .inr (.inr (.inr (.inr (.inr (.inl ⟨rest, hphase, hcontrol, rfl, rfl⟩)))))
    · next rest hcontrol =>
      cases hstep
      exact .inr (.inr (.inr (.inr (.inr (.inr (.inl ⟨rest, hphase, hcontrol, rfl, rfl⟩))))))
    · cases hstep
      exact .inr (.inr (.inr (.inr (.inl ⟨rfl, rfl⟩))))
  case wake.isTrue hphase =>
    cases hstep
    exact .inr (.inr (.inr (.inr (.inr (.inr (.inr ⟨hphase, rfl, rfl⟩))))))
  case sendFails.isTrue | timeout.isTrue | complete.isTrue | expire.isTrue =>
    cases hstep
    exact .inr (.inr (.inr (.inr (.inl ⟨rfl, rfl⟩))))
  all_goals cases hstep

/-- A handler leaves the other threads alone. -/
theorem handlerStep_frame (hstep : s.handlerStep id h e = some (s', o)) :
    s'.queues = s.queues ∧ s'.receivers = s.receivers ∧ s'.acknowledged = s.acknowledged ∧
      ∀ i, i ≠ id → s'.handlers i = s.handlers i := by
  have hother (h' : Option ActionHandler) (i : String) (hne : i ≠ id) :
      Function.update s.handlers id h' i = s.handlers i := Function.update_of_ne hne _ _
  obtain ⟨-, rfl, -⟩ | ⟨-, -, rfl, -⟩ | ⟨-, -, rfl⟩ | ⟨-, rfl, -⟩ | ⟨rfl, -⟩ | ⟨_, -, -, -, rfl⟩ |
    ⟨_, -, -, -, rfl⟩ | ⟨-, rfl, -⟩ := handlerStep_cases hstep
  all_goals exact ⟨rfl, rfl, rfl, hother _⟩

theorem handlerStep_forward (hstep : s.handlerStep id h e = some (s', o))
    (horder : s.Orderly (.handler id e)) : Forward s.rows s'.rows := by
  obtain ⟨-, rfl, -⟩ | ⟨-, rfl, rfl, -⟩ | ⟨-, -, rfl⟩ | ⟨-, rfl, -⟩ | ⟨rfl, -⟩ | ⟨_, -, -, -, rfl⟩ |
    ⟨_, -, -, -, rfl⟩ | ⟨-, rfl, -⟩ := handlerStep_cases hstep
  case inr.inl =>
    have hunfinished : s.Unfinished id := horder
    exact hunfinished.forward .error rfl none
  all_goals exact .refl _

/-- A calm handler sends nothing and stays calm, or ends. -/
theorem handlerStep_calm (hcalm : Calm h) (hstep : s.handlerStep id h e = some (s', o)) :
    (∀ i, o ≠ .sent i) ∧ ∀ h', s'.handlers id = some h' → Calm h' := by
  have hself (h' : Option ActionHandler) : Function.update s.handlers id h' id = h' :=
    Function.update_self ..
  have hphase : h.phase = .queued ∨ h.phase = .awaiting := hcalm.imp_right And.left
  obtain ⟨hp, -, -⟩ | ⟨hp, -, -, -⟩ | ⟨hp, -, -⟩ | ⟨hp, -, -⟩ | ⟨rfl, rfl⟩ | ⟨rest, -, -, rfl, rfl⟩ |
    ⟨rest, hp, hcontrol, -, -⟩ | ⟨hp, -, -⟩ := handlerStep_cases hstep
  case inr.inr.inr.inr.inl =>
    refine ⟨nofun, fun h' hh' => ?_⟩
    cases (hself _).symm.trans hh'
  case inr.inr.inr.inr.inr.inl =>
    refine ⟨nofun, fun h' hh' => ?_⟩
    cases (hself _).symm.trans hh'
    exact .inl rfl
  case inr.inr.inr.inr.inr.inr.inl =>
    -- The first message is an `ok`.
    rcases hcalm with hqueued | ⟨-, hhead⟩
    · rw [hp] at hqueued
      cases hqueued
    · rw [hcontrol] at hhead
      cases hhead
  all_goals
    rw [hp] at hphase
    rcases hphase with hphase | hphase <;> cases hphase

theorem handlerStep_sent (hstep : s.handlerStep id h e = some (s', .sent i)) : i = id := by
  obtain ⟨-, -, ho⟩ | ⟨-, -, -, ho⟩ | ⟨-, ho, -⟩ | ⟨-, -, ho⟩ | ⟨-, ho⟩ | ⟨_, -, -, ho, -⟩ |
    ⟨_, -, -, ho, -⟩ | ⟨-, -, ho⟩ := handlerStep_cases hstep
  all_goals cases ho
  rfl

end Handler

section Queue

variable {t : Nat} {q : QueueThread} {e : QueueEvent}

/-- All that a queue thread can do. -/
theorem queueStep_cases (hstep : s.queueStep t q e = some (s', o)) :
    (s' = s.setQueue t none ∧ o = .quiet) ∨
    (e = .fetch ∧ o = .quiet ∧
      s' = s.setQueue t (some { q with phase := .running (fetchDeviceQueue q.macAddress s.rows) })) ∨
    (∃ action rest, q.phase = .running (action :: rest) ∧ e = .skip ∧ o = .quiet ∧
      s' = (s.setQueue t (some { q with phase := .running rest })).setStatus action.id .error none) ∨
    (∃ action rest, q.phase = .running (action :: rest) ∧ o = .entered action.id ∧
      s' = (s.setQueue t (some { q with phase := .sending action rest })).setExecution action.id
        (some .queue)) ∨
    ∃ action rest, q.phase = .sending action rest ∧ o = .sent action.id ∧
      s' = s.setQueue t (some { q with phase := .running rest }) := by
  cases e with
  | refuse | finish =>
    simp only [queueStep] at hstep
    split at hstep <;> cases hstep
    exact .inl ⟨rfl, rfl⟩
  | fetch =>
    simp only [queueStep] at hstep
    split at hstep <;> cases hstep
    exact .inr (.inl ⟨rfl, rfl, rfl⟩)
  | skip =>
    simp only [queueStep] at hstep
    split at hstep
    · next action rest hphase =>
      cases hstep
      exact .inr (.inr (.inl ⟨action, rest, hphase, rfl, rfl, rfl⟩))
    · cases hstep
  | add =>
    simp only [queueStep] at hstep
    split at hstep
    · next action rest hphase =>
      cases hstep
      exact .inr (.inr (.inr (.inl ⟨action, rest, hphase, rfl, rfl⟩)))
    · cases hstep
  | send =>
    simp only [queueStep] at hstep
    split at hstep
    · next action rest hphase =>
      cases hstep
      exact .inr (.inr (.inr (.inr ⟨action, rest, hphase, rfl, rfl⟩)))
    · cases hstep
  | sendFails =>
    simp only [queueStep] at hstep
    split at hstep <;> cases hstep
    exact .inl ⟨rfl, rfl⟩

/-- A queue thread leaves the other threads alone. -/
theorem queueStep_frame (hstep : s.queueStep t q e = some (s', o)) :
    s'.handlers = s.handlers ∧ s'.receivers = s.receivers ∧ s'.acknowledged = s.acknowledged ∧
      ∀ i, i ≠ t → s'.queues i = s.queues i := by
  have hother (q' : Option QueueThread) (i : Nat) (hne : i ≠ t) :
      Function.update s.queues t q' i = s.queues i := Function.update_of_ne hne _ _
  obtain ⟨rfl, -⟩ | ⟨-, -, rfl⟩ | ⟨_, _, -, -, -, rfl⟩ | ⟨_, _, -, -, rfl⟩ | ⟨_, _, -, -, rfl⟩ :=
    queueStep_cases hstep
  all_goals exact ⟨rfl, rfl, rfl, hother _⟩

theorem queueStep_forward (hqueue : s.queues t = some q)
    (hstep : s.queueStep t q e = some (s', o)) (horder : s.Orderly (.queue t e)) :
    Forward s.rows s'.rows := by
  obtain ⟨rfl, -⟩ | ⟨-, -, rfl⟩ | ⟨_, _, hphase, rfl, -, rfl⟩ | ⟨_, _, -, -, rfl⟩ |
    ⟨_, _, -, -, rfl⟩ := queueStep_cases hstep
  case inr.inr.inl =>
    exact (horder q _ _ hqueue hphase).forward .error rfl none
  all_goals exact .refl _

/-- What a queue thread sends, it has fetched. -/
theorem queueStep_sent (hstep : s.queueStep t q e = some (s', .sent i)) : i ∈ q.toSend := by
  obtain ⟨-, ho⟩ | ⟨-, ho, -⟩ | ⟨_, _, -, -, ho, -⟩ | ⟨_, _, -, ho, -⟩ | ⟨_, _, hphase, ho, -⟩ :=
    queueStep_cases hstep
  all_goals cases ho
  simp [QueueThread.toSend, hphase]

/-- What a queue thread may still send, it could send before, or it has just fetched it. -/
theorem queueStep_fetched (hstep : s.queueStep t q e = some (s', o)) {q' : QueueThread}
    (hq' : s'.queues t = some q') {i : String} (hi : i ∈ q'.toSend) :
    q'.macAddress = q.macAddress ∧
      (i ∈ q.toSend ∨ e = .fetch ∧ ∃ r ∈ fetchDeviceQueue q.macAddress s.rows, r.id = i) := by
  have hself (q' : Option QueueThread) : Function.update s.queues t q' t = q' :=
    Function.update_self ..
  obtain ⟨rfl, -⟩ | ⟨rfl, -, rfl⟩ | ⟨action, rest, hphase, -, -, rfl⟩ |
    ⟨action, rest, hphase, -, rfl⟩ | ⟨action, rest, hphase, -, rfl⟩ := queueStep_cases hstep
  · cases (hself _).symm.trans hq'
  · cases (hself _).symm.trans hq'
    exact ⟨rfl, .inr ⟨rfl, List.mem_map.mp hi⟩⟩
  all_goals
    cases (hself _).symm.trans hq'
    refine ⟨rfl, .inl ?_⟩
    simp only [QueueThread.toSend, hphase] at hi ⊢
    first | exact List.mem_cons_of_mem _ hi | exact hi

theorem queueStep_toSend (hqueue : s.queues t = some q)
    (hstep : s.queueStep t q e = some (s', o)) (horder : s.Orderly (.queue t e)) {q' : QueueThread}
    (hq' : s'.queues t = some q') {i : String} (hi : i ∈ q'.toSend) :
    i ∈ q.toSend ∨ i ∉ s.acknowledged := by
  obtain ⟨-, hsend | ⟨rfl, r, hr, rfl⟩⟩ := queueStep_fetched hstep hq' hi
  · exact .inl hsend
  · exact .inr (horder q hqueue r hr)

end Queue

/-! ## The steps by their event -/

section Step

variable {actionId macAddress : String} {t c : Nat} {status : ControlStatus} {code : Int}
  {output : OutputEnd}

theorem step_execute_iff :
    s.step (.execute id actionId macAddress) = some (s', o) ↔
      (id ∉ s.rows.map ActionLog.id ∧ id ∉ s.acknowledged ∧ s.handlers id = none ∧
        s.actionExecutions id = none) ∧
      { s.setHandler id (some ⟨.ensuring, [], false⟩) with
        rows := s.rows ++ [⟨id, actionId, macAddress, .pending, none⟩] } = s' ∧ .quiet = o := by
  rw [ActionServer.step, Option.ite_none_right_eq_some, Option.some_inj, Prod.mk.injEq]

theorem step_handler_iff {e : HandlerEvent} :
    s.step (.handler id e) = some (s', o) ↔
      ∃ h, s.handlers id = some h ∧ s.handlerStep id h e = some (s', o) := by
  rw [ActionServer.step]
  cases s.handlers id <;> simp

theorem step_connect_iff :
    s.step (.connect t macAddress) = some (s', o) ↔
      s.queues t = none ∧ s.setQueue t (some ⟨macAddress, .waiting⟩) = s' ∧ .quiet = o := by
  rw [ActionServer.step, Option.ite_none_right_eq_some, Option.some_inj, Prod.mk.injEq]

theorem step_queue_iff {e : QueueEvent} :
    s.step (.queue t e) = some (s', o) ↔
      ∃ q, s.queues t = some q ∧ s.queueStep t q e = some (s', o) := by
  rw [ActionServer.step]
  cases s.queues t <;> simp

theorem step_control_iff :
    s.step (.control c id status) = some (s', o) ↔
      s.receivers c = none ∧ s.executeActionControl id status = (s', o) := by
  rw [ActionServer.step, Option.ite_none_right_eq_some, Option.some_inj]

theorem step_result_iff :
    s.step (.result c id code output) = some (s', o) ↔
      s.receivers c = none ∧ s.executeActionResult c id code output = (s', o) := by
  rw [ActionServer.step, Option.ite_none_right_eq_some, Option.some_inj]

theorem step_store_iff :
    s.step (.store c) = some (s', o) ↔
      ∃ p, s.receivers c = some p ∧
        (s.setReceiver c none).setStatus p.executionId (.result p.statusCode) p.downloadUrl = s' ∧
        .quiet = o := by
  rw [ActionServer.step]
  cases s.receivers c <;> simp

end Step

/-! ## What a message at an execution changes -/

section Notify

variable {owner : ExecutionOwner} {f : ActionHandler → ActionHandler}

@[simp]
theorem notify_rows : (s.notify id owner f).rows = s.rows := by
  unfold ActionServer.notify
  split <;> rfl

@[simp]
theorem notify_queues : (s.notify id owner f).queues = s.queues := by
  unfold ActionServer.notify
  split <;> rfl

@[simp]
theorem notify_acknowledged : (s.notify id owner f).acknowledged = s.acknowledged := by
  unfold ActionServer.notify
  split <;> rfl

/-- Only the handler of the execution changes, and only if the execution is a handler's. -/
theorem notify_handler {h' : ActionHandler} (hh' : (s.notify i owner f).handlers id = some h') :
    (owner = .handler ∧ id = i ∧ ∃ h, s.handlers id = some h ∧ h' = f h) ∨
      (owner = .handler → id ≠ i) ∧ s.handlers id = some h' := by
  unfold ActionServer.notify at hh'
  split at hh'
  next howner =>
    by_cases hid : id = i
    · subst hid
      simp only [setHandler, Function.update_self] at hh'
      obtain ⟨h, hs, rfl⟩ := Option.map_eq_some_iff.mp hh'
      exact .inl ⟨howner, rfl, h, hs, rfl⟩
    · exact .inr ⟨fun _ => hid, (Function.update_of_ne hid ..).symm.trans hh'⟩
  next howner => exact .inr ⟨fun h => absurd h howner, hh'⟩

end Notify

/-! ## What is acknowledged is settled -/

/-- No thread will send the execution. -/
structure Settled (s : ActionServer) (id : String) : Prop where
  queues : ∀ t q, s.queues t = some q → id ∉ q.toSend
  handler : ∀ h, s.handlers id = some h → Calm h

def Inv (s : ActionServer) : Prop := ∀ id ∈ s.acknowledged, s.Settled id

theorem Inv.init : Inv .init := nofun

/-- A step that leaves the queues and the acknowledgements alone, and the handler of the execution
calm. -/
theorem Settled.of_handler (h : s.Settled id) (hqueues : s'.queues = s.queues)
    (hhandler : ∀ h', s'.handlers id = some h' → Calm h') : s'.Settled id :=
  ⟨fun t q hq => h.queues t q (hqueues ▸ hq), hhandler⟩

/-- A message at a handler's execution, which keeps its phase and its first control message. -/
theorem Settled.notify (h : s.Settled id) {owner : ExecutionOwner} {f : ActionHandler → ActionHandler}
    (hf : ∀ h', Calm h' → Calm (f h')) : (s.notify i owner f).Settled id := by
  refine h.of_handler notify_queues fun h' hh' => ?_
  obtain ⟨-, -, h₀, hs, rfl⟩ | ⟨-, hs⟩ := notify_handler hh'
  · exact hf h₀ (h.handler h₀ hs)
  · exact h.handler h' hs

theorem Calm.put {h : ActionHandler} (hcalm : Calm h) (status : ControlStatus) :
    Calm { h with executionControl := h.executionControl ++ [status] } := by
  refine hcalm.imp_right fun ⟨hphase, hhead⟩ => ⟨hphase, ?_⟩
  cases hcontrol : h.executionControl with
  | nil =>
    rw [hcontrol] at hhead
    cases hhead
  | cons first rest =>
    rw [hcontrol] at hhead
    exact hhead

theorem Inv.handlerStep {h : ActionHandler} {e : HandlerEvent} (hinv : s.Inv)
    (hh : s.handlers id = some h) (hstep : s.handlerStep id h e = some (s', o)) :
    s'.Inv ∧ ∀ i, o = .sent i → i ∉ s.acknowledged := by
  obtain ⟨hqueues, -, hacknowledged, hother⟩ := handlerStep_frame hstep
  constructor
  · intro i hi
    have hsettled := hinv i (hacknowledged ▸ hi)
    refine hsettled.of_handler hqueues fun h' hh' => ?_
    by_cases hid : i = id
    · subst hid
      exact (handlerStep_calm (hsettled.handler h hh) hstep).2 h' hh'
    · exact hsettled.handler h' (hother i hid ▸ hh')
  · rintro i rfl hi
    cases handlerStep_sent hstep
    exact (handlerStep_calm ((hinv id hi).handler h hh) hstep).1 id rfl

theorem Inv.queueStep {t : Nat} {q : QueueThread} {e : QueueEvent} (hinv : s.Inv)
    (hq : s.queues t = some q) (hstep : s.queueStep t q e = some (s', o))
    (horder : s.Orderly (.queue t e)) : s'.Inv ∧ ∀ i, o = .sent i → i ∉ s.acknowledged := by
  obtain ⟨hhandlers, -, hacknowledged, hother⟩ := queueStep_frame hstep
  constructor
  · intro i hi
    rw [hacknowledged] at hi
    have hsettled := hinv i hi
    refine ⟨fun t' q' hq' hmem => ?_, fun h' hh' => hsettled.handler h' (hhandlers ▸ hh')⟩
    by_cases ht : t' = t
    · subst ht
      rcases queueStep_toSend hq hstep horder hq' hmem with hmem | hnot
      · exact hsettled.queues t' q hq hmem
      · exact hnot hi
    · exact hsettled.queues t' q' (hother t' ht ▸ hq') hmem
  · rintro i rfl hi
    exact (hinv i hi).queues t q hq (queueStep_sent hstep)

theorem Inv.control (hinv : s.Inv) {c : Nat} {status : ControlStatus}
    (horder : s.Orderly (.control c id status)) : (s.executeActionControl id status).1.Inv := by
  unfold executeActionControl
  cases hexecution : s.actionExecutions id with
  | none => exact hinv
  | some owner =>
    dsimp only
    have hput {i : String} (h : s.Settled i) : (s.notify id owner fun h =>
        { h with executionControl := h.executionControl ++ [status] }).Settled i :=
      h.notify fun h' hcalm => hcalm.put status
    split
    · next hok =>
      subst hok
      have hne : s.actionExecutions id ≠ none := by simp [hexecution]
      obtain ⟨hqueues, hhandler⟩ := horder hne
      intro i hi
      have hsettled : (s.notify id owner fun h =>
          { h with executionControl := h.executionControl ++ [.ok] }).Settled i := by
        rcases List.mem_cons.mp hi with rfl | hi
        · -- The handler was waiting for this `ok`.
          refine ⟨by simpa using hqueues, fun h' hh' => ?_⟩
          obtain ⟨-, -, h₀, hs, rfl⟩ | ⟨hother, hs⟩ := notify_handler hh'
          · obtain ⟨-, hphase, hcontrol⟩ := hhandler h₀ hs
            exact .inr ⟨hphase, by simp [hcontrol]⟩
          · obtain ⟨howner, -⟩ := hhandler h' hs
            rw [hexecution, Option.some_inj] at howner
            exact absurd rfl (hother howner)
        · exact hput (hinv i (notify_acknowledged ▸ hi))
      exact ⟨hsettled.queues, hsettled.handler⟩
    · intro i hi
      exact hput (hinv i (notify_acknowledged ▸ hi))

theorem control_rows {status : ControlStatus} : (s.executeActionControl id status).1.rows = s.rows := by
  unfold executeActionControl
  split
  · rfl
  · dsimp only
    split <;> exact notify_rows

theorem control_queues {status : ControlStatus} :
    (s.executeActionControl id status).1.queues = s.queues := by
  unfold executeActionControl
  split
  · rfl
  · dsimp only
    split <;> exact notify_queues

theorem control_not_sent {status : ControlStatus} : (s.executeActionControl id status).2 ≠ .sent i := by
  unfold executeActionControl
  split <;> exact nofun

section Result

variable {c : Nat} {code : Int} {output : OutputEnd}

theorem Inv.result (hinv : s.Inv) : (s.executeActionResult c id code output).1.Inv := by
  unfold executeActionResult
  split
  · exact hinv
  · next owner _ =>
    have hput {i : String} (h : s.Settled i) :
        (s.notify id owner fun h => { h with executionCompleted := true }).Settled i :=
      h.notify fun _ hcalm => hcalm
    dsimp only
    split
    · intro i hi
      exact hput (hinv i (notify_acknowledged ▸ hi))
    · intro i hi
      have hsettled := hput (hinv i (notify_acknowledged ▸ hi))
      exact ⟨hsettled.queues, hsettled.handler⟩

theorem result_rows : (s.executeActionResult c id code output).1.rows = s.rows := by
  unfold executeActionResult
  split
  · rfl
  · dsimp only
    split <;> exact notify_rows

theorem result_queues : (s.executeActionResult c id code output).1.queues = s.queues := by
  unfold executeActionResult
  split
  · rfl
  · dsimp only
    split <;> exact notify_queues

theorem result_not_sent : (s.executeActionResult c id code output).2 ≠ .sent i := by
  unfold executeActionResult
  split
  · exact nofun
  · dsimp only
    split <;> exact nofun

end Result

/-- **One orderly step** sends nothing that is acknowledged, moves statuses forward, and leaves what is
acknowledged settled. -/
theorem Inv.step {e : ActionEvent} (hinv : s.Inv) (horder : s.Orderly e)
    (hstep : s.step e = some (s', o)) :
    s'.Inv ∧ (∀ i, o = .sent i → i ∉ s.acknowledged) ∧ Forward s.rows s'.rows := by
  cases e with
  | execute id actionId macAddress =>
    obtain ⟨⟨hrows, hacknowledged, -, -⟩, rfl, rfl⟩ := step_execute_iff.mp hstep
    refine ⟨fun i hi => ?_, nofun, fun r hr => ?_⟩
    · have hne : i ≠ id := fun h => hacknowledged (h ▸ hi)
      exact (hinv i hi).of_handler rfl fun h' hh' =>
        (hinv i hi).handler h' ((Function.update_of_ne hne ..).symm.trans hh')
    · rcases List.mem_append.mp hr with hr | hr
      · exact .inl ⟨r, hr, rfl, .inl rfl⟩
      · cases List.mem_singleton.mp hr
        exact .inr ⟨rfl, fun r hr hid => hrows (List.mem_map.mpr ⟨r, hr, hid⟩)⟩
  | handler id e =>
    obtain ⟨h, hh, hstep⟩ := step_handler_iff.mp hstep
    obtain ⟨hinv', hsent⟩ := hinv.handlerStep hh hstep
    exact ⟨hinv', hsent, handlerStep_forward hstep horder⟩
  | connect t macAddress =>
    obtain ⟨-, rfl, rfl⟩ := step_connect_iff.mp hstep
    refine ⟨fun i hi => ⟨fun t' q' hq' => ?_, (hinv i hi).handler⟩, nofun, .refl _⟩
    by_cases ht : t' = t
    · subst ht
      cases (Function.update_self ..).symm.trans hq'
      exact List.not_mem_nil
    · exact (hinv i hi).queues t' q' ((Function.update_of_ne ht ..).symm.trans hq')
  | queue t e =>
    obtain ⟨q, hq, hstep⟩ := step_queue_iff.mp hstep
    obtain ⟨hinv', hsent⟩ := hinv.queueStep hq hstep horder
    exact ⟨hinv', hsent, queueStep_forward hq hstep horder⟩
  | control c id status =>
    obtain ⟨-, heq⟩ := step_control_iff.mp hstep
    obtain rfl : (s.executeActionControl id status).1 = s' := congrArg Prod.fst heq
    obtain rfl : (s.executeActionControl id status).2 = o := congrArg Prod.snd heq
    refine ⟨hinv.control horder, fun i ho => absurd ho control_not_sent, ?_⟩
    rw [control_rows]
    exact .refl _
  | result c id code output =>
    obtain ⟨-, heq⟩ := step_result_iff.mp hstep
    obtain rfl : (s.executeActionResult c id code output).1 = s' := congrArg Prod.fst heq
    obtain rfl : (s.executeActionResult c id code output).2 = o := congrArg Prod.snd heq
    refine ⟨hinv.result, fun i ho => absurd ho result_not_sent, ?_⟩
    rw [result_rows]
    exact .refl _
  | store c =>
    obtain ⟨p, hp, rfl, rfl⟩ := step_store_iff.mp hstep
    refine ⟨fun i hi => ⟨(hinv i hi).queues, (hinv i hi).handler⟩, nofun, ?_⟩
    exact (horder p hp).forward (.result p.statusCode) rfl p.downloadUrl
  | delete d =>
    cases hstep
    refine ⟨fun i hi => ⟨(hinv i hi).queues, (hinv i hi).handler⟩, nofun, ?_⟩
    exact .of_subset (List.filter_subset_self _)

end ActionServer

/-- **No re-execution**: in every orderly run, what the device has acknowledged is not sent again, and
statuses move forward only. -/
theorem no_resend_of_orderly (events : List ActionEvent)
    (horder : Along ActionServer.next ActionServer.Orderly .init events) :
    Along ActionServer.next ActionServer.Delivers .init events := by
  refine Along.of_invariant (fun s e hinv horder => ?_) ActionServer.Inv.init horder
  constructor
  · unfold ActionServer.next
    split
    · exact hinv
    · next hstep => exact (hinv.step horder hstep).1
  · intro s' o hstep
    exact (hinv.step horder hstep).2

/-- A command that runs once, and a reconnection after its result. -/
def orderlyRun : List ActionEvent :=
  [.execute "e" "reboot" "d", .handler "e" .add, .handler "e" .send, .control 0 "e" .ok,
    .handler "e" .control, .result 0 "e" 0 .empty, .store 0, .handler "e" .complete, .connect 1 "d",
    .queue 1 .fetch, .queue 1 .finish]

theorem no_resend_orderlyRun :
    Along ActionServer.next ActionServer.Delivers .init orderlyRun := by
  refine no_resend_of_orderly orderlyRun
    ⟨trivial, trivial, trivial, ?_, trivial, trivial, ?_, trivial, trivial, ?_, trivial, trivial⟩
  · intro _
    refine ⟨nofun, ?_⟩
    rintro h ⟨⟩
    exact ⟨rfl, rfl, rfl⟩
  · rintro p ⟨⟩
    intro r hr _
    cases List.mem_singleton.mp hr
    decide
  · rintro q ⟨⟩
    exact nofun

/-- The device acknowledges a command, and reconnects while it runs: the command is sent again. -/
def reconnectRun : List ActionEvent :=
  [.execute "e" "reboot" "d", .handler "e" .add, .handler "e" .send, .control 0 "e" .ok,
    .handler "e" .control, .connect 1 "d", .queue 1 .fetch, .queue 1 .add, .queue 1 .send]

/-- A second result replaces the first. -/
def secondResultRun : List ActionEvent :=
  [.execute "e" "reboot" "d", .handler "e" .add, .handler "e" .send, .control 0 "e" .ok,
    .handler "e" .control, .result 0 "e" 0 .empty, .store 0, .result 0 "e" 1 .empty, .store 0]

theorem acknowledged_action_resent :
    ¬ Along ActionServer.next ActionServer.Delivers .init reconnectRun ∧
      ¬ Along ActionServer.next ActionServer.Delivers .init secondResultRun := by
  constructor
  · rintro ⟨-, -, -, -, -, -, -, -, hlast, -⟩
    exact (hlast _ _ rfl).1 "e" rfl (List.mem_singleton_self _)
  · rintro ⟨-, -, -, -, -, -, -, -, hlast, -⟩
    have hforward := (hlast _ _ rfl).2
    rcases hforward ⟨"e", "reboot", "d", .result 1, none⟩ (List.mem_singleton_self _) with
      ⟨r, hr, -, hmoved⟩ | ⟨hpending, -⟩
    · cases List.mem_singleton.mp hr
      revert hmoved
      decide
    · cases hpending

/-! ## Results are kept -/

/-- Whether an execution is in the container after an output, if it was or was not before. -/
def afterOutput (id : String) (present : Bool) : ActionOutput → Bool
  | .entered i => present || decide (i = id)
  | .ended i => present && !decide (i = id)
  | _ => present

/-- The execution was added, and no `execute_action` call has ended for it since. -/
def entered (id : String) (outputs : List ActionOutput) : Bool :=
  outputs.foldl (afterOutput id) false

namespace ActionServer

variable {s s' : ActionServer} {o : ActionOutput} {id i : String} {e : ActionEvent}

end ActionServer

end Rdfm.Server
