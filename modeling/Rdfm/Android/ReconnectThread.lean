import Mathlib.Logic.Function.Basic
import Rdfm.Lib.Transition

/-!
# Reconnection of the Android client

`ManagementClient.reconnectThread` opens a connection and waits on `mClosed` until it is notified. The
callbacks `onClosing` and `onFailure` notify it, whichever connection they are of, and nothing records
that they did. So a callback that ends before the thread waits leaves it asleep next to a dead
connection, and the second callback of an old connection makes it open one next to a live connection.
Nothing else goes wrong (`reconnect_iff`).
-/

namespace Rdfm.Android

open Rdfm.Lib

/-! ## Monitors -/

/-- A thread at `wait` of an object. -/
inductive Waiter where
  | waiting
  /-- Out of the wait set: `wait` returns when the monitor is free. -/
  | woken
deriving DecidableEq, Repr

/-! ## The client -/

/-- A callback of a listener. -/
inductive CallbackState where
  | notCalled
  /-- Before its `notifyAll`. -/
  | running
  | finished
deriving DecidableEq, Repr

/-- A WebSocket, with the callbacks of its listener. -/
structure Connection where
  opened : Bool
  onClosing : CallbackState
  onFailure : CallbackState
deriving DecidableEq, Repr

namespace Connection

/-- `newWebSocket` is called. -/
def new : Connection := ⟨false, .notCalled, .notCalled⟩

/-- Neither closing nor failed. -/
def Alive (c : Connection) : Prop := c.onClosing = .notCalled ∧ c.onFailure = .notCalled

/-- The connection has closed or failed, and the callback has finished. -/
def Reported (c : Connection) : Prop := c.onClosing = .finished ∨ c.onFailure = .finished

instance (c : Connection) : Decidable c.Alive := inferInstanceAs (Decidable (_ ∧ _))

instance (c : Connection) : Decidable c.Reported := inferInstanceAs (Decidable (_ ∨ _))

end Connection

/-- Where `reconnectThread` is. -/
inductive ThreadPhase where
  /-- Before `connectToWs`. -/
  | delaying
  /-- After `newWebSocket`, before `wait`. -/
  | connected
  | closed (waiter : Waiter)
deriving DecidableEq, Repr

structure ManagementClient where
  thread : ThreadPhase
  /-- How many connections were opened. -/
  count : Nat
  connections : Nat → Connection

/-- The exceptions of `connectToWs`. -/
inductive ConnectError where
  | serverConnection
  | deviceUnauthorized
  | runtime
deriving DecidableEq, Repr

inductive ReconnectEvent where
  /-- `connectToWs`, with the exception if there is one. -/
  | connect (error : Option ConnectError)
  | wait
  /-- `wait` may return without a notification. -/
  | spuriousWakeup
  /-- `wait` returns, and the loop begins again. -/
  | resume
  | onOpen (i : Nat)
  | onClosing (i : Nat)
  /-- `notifyAll` in `onClosing`. -/
  | notifyClosing (i : Nat)
  | onFailure (i : Nat)
  /-- `notifyAll` in `onFailure`. -/
  | notifyFailure (i : Nat)
deriving DecidableEq, Repr

namespace ManagementClient

def init : ManagementClient := ⟨.delaying, 0, fun _ => .new⟩

variable (s : ManagementClient)

def setConnection (i : Nat) (c : Connection) : ManagementClient :=
  { s with connections := Function.update s.connections i c }

/-- `mClosed.notifyAll()`. -/
def notifyAll : ManagementClient :=
  if s.thread = .closed .waiting then { s with thread := .closed .woken } else s

/-- One step; one that is not possible changes nothing. -/
def next : ReconnectEvent → ManagementClient
  | .connect error =>
    if s.thread = .delaying ∧ error = none then
      { s.setConnection s.count .new with thread := .connected, count := s.count + 1 }
    else s
  | .wait => if s.thread = .connected then { s with thread := .closed .waiting } else s
  | .spuriousWakeup =>
    if s.thread = .closed .waiting then { s with thread := .closed .woken } else s
  | .resume => if s.thread = .closed .woken then { s with thread := .delaying } else s
  | .onOpen i =>
    let c := s.connections i
    if i < s.count ∧ c.Alive ∧ c.opened = false then s.setConnection i { c with opened := true } else s
  | .onClosing i =>
    let c := s.connections i
    if i < s.count ∧ c.Alive ∧ c.opened = true then s.setConnection i { c with onClosing := .running }
    else s
  | .notifyClosing i =>
    let c := s.connections i
    if c.onClosing = .running then (s.setConnection i { c with onClosing := .finished }).notifyAll
    else s
  | .onFailure i =>
    let c := s.connections i
    if i < s.count ∧ c.onFailure = .notCalled then s.setConnection i { c with onFailure := .running }
    else s
  | .notifyFailure i =>
    let c := s.connections i
    if c.onFailure = .running then (s.setConnection i { c with onFailure := .finished }).notifyAll
    else s

/-! ## What should hold -/

/-- The connection is opened, and is neither closing nor failed. -/
def Live (i : Nat) : Prop := i < s.count ∧ (s.connections i).Alive

/-- The connection opened last. -/
def Newest (i : Nat) : Prop := i + 1 = s.count

/-- The thread waits while the connection that it opened last has closed or failed, and the callback
has finished. -/
def Asleep : Prop :=
  s.thread = .closed .waiting ∧ ∃ i, s.Newest i ∧ (s.connections i).Reported

structure Good : Prop where
  awake : ¬ s.Asleep
  one : ∀ i j, s.Live i → s.Live j → i = j

/-- When the thread begins to wait, no callback of the newest connection has finished; when it
connects, the newest connection is closing or has failed. -/
def InTime : ReconnectEvent → Prop
  | .wait => s.thread = .connected → ∀ i, s.Newest i → ¬ (s.connections i).Reported
  | .connect none => s.thread = .delaying → ∀ i, s.Newest i → ¬ s.Live i
  | _ => True

variable {s} {s' : ManagementClient} {i j : Nat} {c : Connection} {e : ReconnectEvent}

/-! ## Steps -/

/-- No connection comes to life, and the thread does not fall asleep. -/
structure Calm (s s' : ManagementClient) : Prop where
  count : s'.count = s.count
  live : ∀ i, s'.Live i → s.Live i
  asleep : s'.Asleep → s.Asleep

theorem Calm.refl (s : ManagementClient) : s.Calm s := ⟨rfl, fun _ h => h, fun h => h⟩

/-- What holds of a connection after a change of one, held before if it did there. -/
theorem of_setConnection {P : Connection → Prop} (h : P c → P (s.connections i))
    (hj : P ((s.setConnection i c).connections j)) : P (s.connections j) := by
  by_cases hji : j = i
  · subst hji
    have hself : (s.setConnection j c).connections j = c := Function.update_self ..
    rw [hself] at hj
    exact h hj
  · have hother : (s.setConnection i c).connections j = s.connections j :=
      Function.update_of_ne hji ..
    rwa [hother] at hj

/-- A callback of a connection begins. -/
theorem Calm.setConnection (halive : c.Alive → (s.connections i).Alive)
    (hreported : c.Reported → (s.connections i).Reported) : s.Calm (s.setConnection i c) where
  count := rfl
  live _ h := ⟨h.1, of_setConnection halive h.2⟩
  asleep h := by
    obtain ⟨hthread, j, hnewest, hj⟩ := h
    exact ⟨hthread, j, hnewest, of_setConnection hreported hj⟩

/-- The thread goes on. -/
theorem Calm.thread {t : ThreadPhase} (ht : t ≠ .closed .waiting) : s.Calm { s with thread := t } :=
  ⟨rfl, fun _ h => h, fun ⟨hthread, _⟩ => absurd hthread ht⟩

theorem notifyAll_ne_waiting (s : ManagementClient) : s.notifyAll.thread ≠ .closed .waiting := by
  unfold notifyAll
  split
  · exact nofun
  · assumption

/-- A callback ends: whatever it reports, the thread does not wait any more. -/
theorem Calm.notify (halive : c.Alive → (s.connections i).Alive) :
    s.Calm (s.setConnection i c).notifyAll where
  count := by
    unfold notifyAll
    split <;> rfl
  live j h := by
    unfold notifyAll at h
    split at h <;> exact ⟨h.1, of_setConnection halive h.2⟩
  asleep h := absurd h.1 (notifyAll_ne_waiting _)

/-- All steps but two are calm. -/
theorem next_calm (hwait : e ≠ .wait) (hconnect : e ≠ .connect none) : s.Calm (s.next e) := by
  cases e with
  | connect error =>
    have herror : error ≠ none := fun h => hconnect (congrArg _ h)
    rw [next, if_neg (fun h => herror h.2)]
    exact .refl s
  | wait => exact absurd rfl hwait
  | spuriousWakeup | resume =>
    rw [next]
    split
    · exact .thread nofun
    · exact .refl s
  | onOpen i =>
    rw [next]
    split
    · exact .setConnection (fun h => h) (fun h => h)
    · exact .refl s
  | onClosing i =>
    rw [next]
    split
    · refine .setConnection (fun h => absurd h.1 nofun) fun h => ?_
      rcases h with h | h
      · cases h
      · exact .inr h
    · exact .refl s
  | onFailure i =>
    rw [next]
    split
    · refine .setConnection (fun h => absurd h.2 nofun) fun h => ?_
      rcases h with h | h
      · exact .inl h
      · cases h
    · exact .refl s
  | notifyClosing i =>
    rw [next]
    split
    · exact .notify fun h => absurd h.1 nofun
    · exact .refl s
  | notifyFailure i =>
    rw [next]
    split
    · exact .notify fun h => absurd h.2 nofun
    · exact .refl s

/-! ## Runs -/

/-- The client is as it should be, and only the newest connection may be live. -/
structure Inv (s : ManagementClient) : Prop where
  awake : ¬ s.Asleep
  newest : ∀ i, s.Live i → s.Newest i

theorem Inv.init : Inv .init := ⟨nofun, fun _ h => absurd h.1 (Nat.not_lt_zero _)⟩

theorem Inv.good (h : s.Inv) : s.Good where
  awake := h.awake
  one i j hi hj := by
    have hi := h.newest i hi
    have hj := h.newest j hj
    unfold Newest at hi hj
    omega

theorem Inv.calm (h : s.Inv) (hcalm : s.Calm s') : s'.Inv where
  awake hasleep := h.awake (hcalm.asleep hasleep)
  newest i hlive := by
    unfold Newest
    rw [hcalm.count]
    exact h.newest i (hcalm.live i hlive)

theorem Inv.wait (h : s.Inv) :
    ((s.next .wait).Good ↔ s.InTime .wait) ∧ (s.InTime .wait → (s.next .wait).Inv) := by
  by_cases hthread : s.thread = .connected
  · have hnext : s.next .wait = { s with thread := .closed .waiting } := if_pos hthread
    have hinv (htime : s.InTime .wait) : (s.next .wait).Inv := by
      rw [hnext]
      refine ⟨?_, h.newest⟩
      rintro ⟨-, i, hnewest, hreported⟩
      exact htime hthread i hnewest hreported
    refine ⟨⟨fun hgood _ i hnewest hreported => ?_, fun htime => (hinv htime).good⟩, hinv⟩
    rw [hnext] at hgood
    exact hgood.awake ⟨rfl, i, hnewest, hreported⟩
  · have hnext : s.next .wait = s := if_neg hthread
    rw [hnext]
    exact ⟨⟨fun _ h => absurd h hthread, fun _ => h.good⟩, fun _ => h⟩

theorem Inv.connect (h : s.Inv) :
    ((s.next (.connect none)).Good ↔ s.InTime (.connect none)) ∧
      (s.InTime (.connect none) → (s.next (.connect none)).Inv) := by
  by_cases hthread : s.thread = .delaying
  · have hnext : s.next (.connect none) =
        { s.setConnection s.count .new with thread := .connected, count := s.count + 1 } :=
      if_pos ⟨hthread, rfl⟩
    have hold {i : Nat} (hi : i < s.count) :
        (s.next (.connect none)).Live i ↔ s.Live i := by
      rw [hnext]
      have hconnection : Function.update s.connections s.count .new i = s.connections i :=
        Function.update_of_ne (Nat.ne_of_lt hi) ..
      unfold Live setConnection
      dsimp only
      rw [hconnection]
      exact and_congr_left fun _ => ⟨fun _ => hi, fun h => Nat.lt_succ_of_lt h⟩
    have hcount : (s.next (.connect none)).count = s.count + 1 := by rw [hnext]
    have hnew : (s.next (.connect none)).Live s.count := by
      rw [hnext]
      refine ⟨Nat.lt_succ_self _, ?_⟩
      unfold setConnection
      dsimp only
      rw [Function.update_self]
      exact ⟨rfl, rfl⟩
    have hinv (htime : s.InTime (.connect none)) : (s.next (.connect none)).Inv := by
      constructor
      · rw [hnext]
        rintro ⟨hwaiting, -⟩
        cases hwaiting
      · intro i hlive
        unfold Newest
        rw [hcount]
        rcases Nat.lt_or_eq_of_le (Nat.le_of_lt_succ (hcount ▸ hlive.1)) with hi | rfl
        · have hlive := (hold hi).mp hlive
          exact absurd hlive (htime hthread i (h.newest i hlive))
        · rfl
    refine ⟨⟨fun hgood _ i hnewest hlive => ?_, fun htime => (hinv htime).good⟩, hinv⟩
    have heq := hgood.one i s.count ((hold hlive.1).mpr hlive) hnew
    exact Nat.ne_of_lt hlive.1 heq
  · have hnext : s.next (.connect none) = s := if_neg fun h => hthread h.1
    rw [hnext]
    exact ⟨⟨fun _ h => absurd h hthread, fun _ => h.good⟩, fun _ => h⟩

theorem Inv.next (h : s.Inv) (e : ReconnectEvent) :
    ((s.next e).Good ↔ s.InTime e) ∧ (s.InTime e → (s.next e).Inv) := by
  by_cases hwait : e = .wait
  · subst hwait
    exact h.wait
  by_cases hconnect : e = .connect none
  · subst hconnect
    exact h.connect
  have hinv := h.calm (next_calm hwait hconnect)
  have htime : s.InTime e := by
    unfold InTime
    split
    · exact absurd rfl hwait
    · exact absurd rfl hconnect
    · trivial
  exact ⟨⟨fun _ => htime, fun _ => hinv.good⟩, fun _ => hinv⟩

end ManagementClient

/-- **Reconnection**, over every order of the callbacks and the steps of the thread: the thread never
sleeps through the end of its newest connection, and no two connections are live, exactly as long as
it begins to wait before a callback of that connection has finished, and connects after that
connection is closing or has failed. -/
theorem reconnect_iff (events : List ReconnectEvent) :
    Along ManagementClient.next (fun s e => (s.next e).Good) .init events ↔
      Along ManagementClient.next ManagementClient.InTime .init events :=
  Along.iff_of_invariant (fun _ e h => h.next e) ManagementClient.Inv.init

/-! ## Notifications that find the thread -/

namespace ManagementClient

/-- The callback that is about to notify is of the newest connection if the thread waits, and is not
if the thread has yet to wait. -/
def Timely (s : ManagementClient) (i : Nat) : Prop :=
  (s.thread = .closed .waiting → s.Newest i) ∧ (s.thread = .connected → ¬ s.Newest i)

/-- Every notification that may reach the thread is timely, and nothing else wakes it. -/
def OwnNotification (s : ManagementClient) : ReconnectEvent → Prop
  | .spuriousWakeup => s.thread ≠ .closed .waiting
  | .notifyClosing i | .notifyFailure i => s.Timely i
  | _ => True

/-- The thread has not missed a callback, or has been woken by one. -/
structure Attentive (s : ManagementClient) : Prop where
  connected : s.thread = .connected → ∀ i, s.Newest i → ¬ (s.connections i).Reported
  woken : s.thread = .closed .woken ∨ s.thread = .delaying → ∀ i, s.Newest i → ¬ s.Live i

variable {s : ManagementClient} {i : Nat} {c : Connection} {e : ReconnectEvent}

theorem Attentive.init : Attentive .init := ⟨nofun, fun _ _ h => absurd h nofun⟩

/-- A callback begins, or the connection opens. -/
theorem Attentive.setConnection (h : s.Attentive) (halive : c.Alive → (s.connections i).Alive)
    (hreported : c.Reported → (s.connections i).Reported) : (s.setConnection i c).Attentive where
  connected hthread j hnewest hj := h.connected hthread j hnewest (of_setConnection hreported hj)
  woken hthread j hnewest hj := h.woken hthread j hnewest ⟨hj.1, of_setConnection halive hj.2⟩

/-- A timely callback ends. -/
theorem Attentive.notify (h : s.Attentive) (htimely : s.Timely i) (hdead : ¬ c.Alive) :
    (s.setConnection i c).notifyAll.Attentive := by
  by_cases hthread : s.thread = .closed .waiting
  · have hnotify : (s.setConnection i c).notifyAll =
        { s.setConnection i c with thread := .closed .woken } := if_pos hthread
    rw [hnotify]
    refine ⟨nofun, fun _ j hj hlive => ?_⟩
    have hself : (s.setConnection i c).connections i = c := Function.update_self ..
    have hji : j = i := by
      have hi : i + 1 = s.count := htimely.1 hthread
      have hj : j + 1 = s.count := hj
      omega
    subst hji
    exact hdead (hself ▸ hlive.2)
  · have hnotify : (s.setConnection i c).notifyAll = s.setConnection i c := if_neg hthread
    rw [hnotify]
    constructor
    · intro hconnected j hj hreported
      have hji : j ≠ i := by
        rintro rfl
        exact htimely.2 hconnected hj
      have hother : (s.setConnection i c).connections j = s.connections j :=
        Function.update_of_ne hji ..
      exact h.connected hconnected j hj (hother ▸ hreported)
    · intro hwoken j hj hlive
      refine h.woken hwoken j hj ⟨hlive.1, ?_⟩
      exact of_setConnection (P := Connection.Alive) (fun h => absurd h hdead) hlive.2

/-- A step of an attentive client. -/
theorem Attentive.next (h : s.Attentive) (hown : s.OwnNotification e) :
    (s.next e).Attentive ∧ s.InTime e := by
  cases e with
  | connect error =>
    constructor
    · rw [ManagementClient.next]
      split
      · refine ⟨fun _ j hj hreported => ?_, by rintro (h | h) <;> cases h⟩
        have hj : j = s.count := Nat.succ.inj hj
        subst hj
        unfold ManagementClient.setConnection at hreported
        dsimp only at hreported
        rw [Function.update_self] at hreported
        rcases hreported with h | h <;> cases h
      · exact h
    · cases error with
      | none => exact fun hthread => h.woken (.inr hthread)
      | some error => trivial
  | wait =>
    constructor
    · rw [ManagementClient.next]
      split
      · exact ⟨nofun, by rintro (h | h) <;> cases h⟩
      · exact h
    · exact h.connected
  | spuriousWakeup =>
    rw [ManagementClient.next, if_neg hown]
    exact ⟨h, trivial⟩
  | resume =>
    rw [ManagementClient.next]
    split
    · next hthread => exact ⟨⟨nofun, fun _ => h.woken (.inl hthread)⟩, trivial⟩
    · exact ⟨h, trivial⟩
  | onOpen i =>
    rw [ManagementClient.next]
    split
    · exact ⟨h.setConnection (fun h => h) (fun h => h), trivial⟩
    · exact ⟨h, trivial⟩
  | onClosing i =>
    rw [ManagementClient.next]
    split
    · refine ⟨h.setConnection (fun h => absurd h.1 nofun) fun h => ?_, trivial⟩
      rcases h with h | h
      · cases h
      · exact .inr h
    · exact ⟨h, trivial⟩
  | onFailure i =>
    rw [ManagementClient.next]
    split
    · refine ⟨h.setConnection (fun h => absurd h.2 nofun) fun h => ?_, trivial⟩
      rcases h with h | h
      · exact .inl h
      · cases h
    · exact ⟨h, trivial⟩
  | notifyClosing i =>
    rw [ManagementClient.next]
    split
    · exact ⟨h.notify hown fun h => absurd h.1 nofun, trivial⟩
    · exact ⟨h, trivial⟩
  | notifyFailure i =>
    rw [ManagementClient.next]
    split
    · exact ⟨h.notify hown fun h => absurd h.2 nofun, trivial⟩
    · exact ⟨h, trivial⟩

end ManagementClient

/-- It is enough that the thread waits in time for the callbacks of its newest connection, and is
woken by nothing else. -/
theorem good_of_own_notifications (events : List ReconnectEvent)
    (hown : Along ManagementClient.next ManagementClient.OwnNotification .init events) :
    Along ManagementClient.next (fun s e => (s.next e).Good) .init events :=
  (Along.iff_of_invariant (fun _ e h => h.next e) ManagementClient.Inv.init).mpr
    (Along.of_invariant (fun _ _ h hown => h.next hown) ManagementClient.Attentive.init hown)

/-- The connection fails at once. -/
def fastFailure : List ReconnectEvent := [.connect none, .onFailure 0, .notifyFailure 0, .wait]

/-- The first connection is closed, and reports a failure when there is a second one. -/
def secondReport : List ReconnectEvent :=
  [.connect none, .wait, .onOpen 0, .onClosing 0, .notifyClosing 0, .resume, .connect none, .wait,
    .onFailure 0, .notifyFailure 0, .resume, .connect none]

theorem reconnect_fails :
    ¬ Along ManagementClient.next (fun s e => (s.next e).Good) .init fastFailure ∧
      ¬ Along ManagementClient.next (fun s e => (s.next e).Good) .init secondReport := by
  constructor
  · rintro ⟨-, -, -, hgood, -⟩
    exact hgood.awake ⟨rfl, 0, rfl, .inr rfl⟩
  · rintro ⟨-, -, -, -, -, -, -, -, -, -, -, hgood, -⟩
    have heq := hgood.one 1 2 ⟨by decide, rfl, rfl⟩ ⟨by decide, rfl, rfl⟩
    cases heq

end Rdfm.Android
