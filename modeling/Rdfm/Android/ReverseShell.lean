import Rdfm.Android.ReconnectThread

/-!
# Reverse shells of the Android client

`ReverseShell.run` waits for `onOpen` without a record that it came, and then for three releases of a
semaphore: of the final callback of the WebSocket, of the reader of the shell's output and of the
thread that waits for the shell to exit. The last two are started only after the first wait. So a
connection that fails before it opens, or opens before the wait, leaves `run` blocked for good, and one
of the slots of `ManagementClient.onShellAttach` with it.
-/

namespace Rdfm.Android

open Rdfm.Lib

/-! ## One session -/

inductive ThreadState where
  | notStarted
  | running
  | finished
deriving DecidableEq, Repr

/-- Where `run` is. -/
inductive RunPhase where
  | starting
  /-- The shell process is started. -/
  | connecting
  /-- `newWebSocket` is called, and has not returned. -/
  | assigning
  /-- `mWebSocket` is set. -/
  | opening
  /-- In `webSocketIsReady.wait()`. -/
  | ready (waiter : Waiter)
  /-- Both threads are started; `run` acquires three permits. -/
  | acquiring
  /-- It has returned, or thrown. -/
  | over
deriving DecidableEq, Repr

/-- A session, with its WebSocket and its process. -/
structure ReverseShell where
  run : RunPhase
  /-- Whether `mWebSocket` is set. -/
  webSocket : Bool
  onOpen : CallbackState
  /-- `onClosed` or `onFailure`. -/
  final : CallbackState
  process : ThreadState
  /-- The chunks of output that nobody has read. -/
  output : Nat
  outputReader : ThreadState
  exitWaiter : ThreadState
  /-- Of `mSemaphore`. -/
  permits : Nat
deriving DecidableEq, Repr

inductive ShellEvent where
  /-- `ProcessBuilder.start`, or its `IOException`. -/
  | startProcess (ok : Bool)
  | newWebSocket
  /-- `newWebSocket` returns. -/
  | assign
  | wait
  /-- `wait` may return without a notification. -/
  | spuriousWakeup
  /-- `wait` returns, and the threads are started. -/
  | startThreads
  | acquire
  | onOpen
  /-- `notifyAll` in `onOpen`. -/
  | notifyOpen
  /-- `onMessage`; okhttp fails a WebSocket whose listener throws. -/
  | onMessage (written : Bool)
  | onClosed
  | onFailure
  /-- `closeShell` in the final callback. -/
  | closeSocket
  /-- The shell writes. -/
  | print
  /-- The shell exits, or is killed. -/
  | exit
  | read
  /-- `outputToWebSocket` ends, at the end of the output or with an `IOException`, and `closeShell`. -/
  | readerEnds (failed : Bool)
  /-- `checkShellExitStatus` ends, and `closeShell`. -/
  | waiterEnds
deriving DecidableEq, Repr

namespace ReverseShell

def new : ReverseShell :=
  ⟨.starting, false, .notCalled, .notCalled, .notStarted, 0, .notStarted, .notStarted, 0⟩

variable (s : ReverseShell)

/-- `closeShell`, as far as `run` sees it: without `mWebSocket` it throws before it releases. -/
def closeShell : ReverseShell :=
  if s.webSocket = true then { s with permits := s.permits + 1 } else s

/-- `newWebSocket` is called, and the final callback is not. -/
def listening : Bool :=
  match s.run with
  | .starting | .connecting | .over => false
  | _ => s.final = .notCalled

/-- One step; one that is not possible changes nothing. -/
def next : ShellEvent → ReverseShell
  | .startProcess ok =>
    if s.run = .starting then
      if ok = true then { s with run := .connecting, process := .running } else { s with run := .over }
    else s
  | .newWebSocket => if s.run = .connecting then { s with run := .assigning } else s
  | .assign => if s.run = .assigning then { s with run := .opening, webSocket := true } else s
  | .wait => if s.run = .opening then { s with run := .ready .waiting } else s
  | .spuriousWakeup => if s.run = .ready .waiting then { s with run := .ready .woken } else s
  | .startThreads =>
    if s.run = .ready .woken then
      { s with run := .acquiring, outputReader := .running, exitWaiter := .running }
    else s
  | .acquire =>
    if s.run = .acquiring ∧ 3 ≤ s.permits then { s with run := .over, permits := s.permits - 3 } else s
  | .onOpen =>
    if s.listening = true ∧ s.onOpen = .notCalled then { s with onOpen := .running } else s
  | .notifyOpen =>
    if s.onOpen = .running then
      { s with
        onOpen := .finished
        run := if s.run = .ready .waiting then .ready .woken else s.run }
    else s
  | .onMessage written =>
    if s.listening = true ∧ s.onOpen = .finished ∧ written = false then { s with final := .running }
    else s
  | .onClosed =>
    if s.listening = true ∧ s.onOpen = .finished then { s with final := .running } else s
  | .onFailure => if s.listening = true then { s with final := .running } else s
  | .closeSocket =>
    if s.final = .running then { s.closeShell with final := .finished } else s
  | .print => if s.process = .running then { s with output := s.output + 1 } else s
  | .exit => if s.process = .running then { s with process := .finished } else s
  | .read => if s.outputReader = .running then { s with output := s.output - 1 } else s
  | .readerEnds failed =>
    if s.outputReader = .running ∧ (failed = true ∨ s.output = 0 ∧ s.process = .finished) then
      { s.closeShell with outputReader := .finished }
    else s
  | .waiterEnds =>
    if s.exitWaiter = .running ∧ s.process = .finished then
      { s.closeShell with exitWaiter := .finished }
    else s

/-! ## What should hold of a session -/

/-- The final callback has finished, the process has ended and its output is exhausted, and every
thread that was started has finished. -/
structure Done : Prop where
  final : s.final = .finished
  process : s.process = .finished
  output : s.output = 0
  outputReader : s.outputReader ≠ .running
  exitWaiter : s.exitWaiter ≠ .running

/-- `run` waits for a notification, or for permits that are not there. -/
def Blocked : Prop := s.run = .ready .waiting ∨ s.run = .acquiring ∧ s.permits < 3

/-- `run` will not be blocked by its first wait. -/
def PastReady : Prop := s.run = .ready .woken ∨ s.run = .acquiring ∨ s.run = .over

/-- The final callback begins. -/
def beginsFinal : ShellEvent → Bool
  | .onMessage written => s.listening && decide (s.onOpen = .finished) && !written
  | .onClosed => s.listening && decide (s.onOpen = .finished)
  | .onFailure => s.listening
  | _ => false

/-- The final callback begins after `run` has been woken. -/
def ReadyInTime (e : ShellEvent) : Prop := s.beginsFinal e = true → s.PastReady

instance : Decidable s.PastReady := inferInstanceAs (Decidable (_ ∨ _))

instance (e : ShellEvent) : Decidable (s.ReadyInTime e) := inferInstanceAs (Decidable (_ → _))

/-- The permits are those of the threads that have finished. -/
structure Kept : Prop where
  final : s.final ≠ .notCalled → s.PastReady
  webSocket : s.webSocket = true ∨
    s.run = .starting ∨ s.run = .connecting ∨ s.run = .assigning ∨ s.run = .over
  threads : s.run = .acquiring → s.outputReader ≠ .notStarted ∧ s.exitWaiter ≠ .notStarted
  notStarted : s.run ≠ .acquiring → s.run ≠ .over →
    s.outputReader = .notStarted ∧ s.exitWaiter = .notStarted
  permits : s.run ≠ .over → s.permits = (if s.final = .finished then 1 else 0) +
    (if s.outputReader = .finished then 1 else 0) + if s.exitWaiter = .finished then 1 else 0

variable {s} {e : ShellEvent}

theorem Kept.new : Kept .new where
  final h := absurd rfl h
  webSocket := .inr (.inl rfl)
  threads := nofun
  notStarted _ _ := ⟨rfl, rfl⟩
  permits _ := rfl

/-- A session that is kept is not stuck. -/
theorem Kept.not_stuck (h : s.Kept) (hdone : s.Done) : ¬ s.Blocked := by
  have hfinal : s.final ≠ .notCalled := by
    rw [hdone.final]
    exact nofun
  have hfinished {t : ThreadState} (hstarted : t ≠ .notStarted) (hrunning : t ≠ .running) :
      t = .finished := by
    cases t with
    | notStarted => exact absurd rfl hstarted
    | running => exact absurd rfl hrunning
    | finished => rfl
  rintro (hwaiting | ⟨hacquiring, hpermits⟩)
  · rcases h.final hfinal with hrun | hrun | hrun <;>
    · rw [hwaiting] at hrun
      cases hrun
  · obtain ⟨hreader, hwaiter⟩ := h.threads hacquiring
    have hcount := h.permits (by rw [hacquiring]; exact nofun)
    rw [if_pos hdone.final, if_pos (hfinished hreader hdone.outputReader),
      if_pos (hfinished hwaiter hdone.exitWaiter)] at hcount
    omega

theorem listening_iff :
    s.listening = true ↔ s.run ≠ .starting ∧ s.run ≠ .connecting ∧ s.run ≠ .over ∧
      s.final = .notCalled := by
  unfold listening
  cases s.run <;> simp

/-- The final callback begins. -/
theorem Kept.begin_final (h : s.Kept) (hlistening : s.listening = true) (hready : s.PastReady) :
    Kept { s with final := .running } where
  final _ := hready
  webSocket := h.webSocket
  threads := h.threads
  notStarted := h.notStarted
  permits hrun := by
    have hcount := h.permits hrun
    rw [(listening_iff.mp hlistening).2.2.2] at hcount
    exact hcount

theorem closeShell_of_webSocket (h : s.webSocket = true) :
    s.closeShell = { s with permits := s.permits + 1 } := if_pos h

/-- A thread that closes the shell releases a permit: `mWebSocket` is set by then. -/
theorem Kept.closeShell (h : s.Kept) (hready : s.PastReady) (hover : s.run ≠ .over) :
    s.closeShell = { s with permits := s.permits + 1 } := by
  refine closeShell_of_webSocket (h.webSocket.resolve_right ?_)
  rcases hready with hrun | hrun | hrun
  · rw [hrun]
    decide
  · rw [hrun]
    decide
  · exact absurd hrun hover

/-- The threads are started after the first wait. -/
theorem Kept.pastReady (h : s.Kept)
    (hstarted : s.outputReader ≠ .notStarted ∨ s.exitWaiter ≠ .notStarted) : s.PastReady := by
  by_contra hready
  unfold PastReady at hready
  push Not at hready
  obtain ⟨hreader, hwaiter⟩ := h.notStarted hready.2.1 hready.2.2
  rcases hstarted with hstarted | hstarted
  · exact hstarted hreader
  · exact hstarted hwaiter

theorem Kept.closeSocket (h : s.Kept) (hfinal : s.final = .running) :
    Kept { s.closeShell with final := .finished } := by
  have hready : s.PastReady := h.final (by rw [hfinal]; exact nofun)
  by_cases hover : s.run = .over
  · unfold ReverseShell.closeShell
    split <;> exact ⟨fun _ => hready, h.webSocket, h.threads, h.notStarted, absurd hover⟩
  · rw [h.closeShell hready hover]
    refine ⟨fun _ => hready, h.webSocket, h.threads, h.notStarted, fun _ => ?_⟩
    have hcount := h.permits hover
    rw [hfinal, if_neg nofun] at hcount
    dsimp only
    rw [if_pos rfl]
    omega

@[simp] theorem closeShell_outputReader : s.closeShell.outputReader = s.outputReader := by
  unfold ReverseShell.closeShell
  split <;> rfl

@[simp] theorem closeShell_exitWaiter : s.closeShell.exitWaiter = s.exitWaiter := by
  unfold ReverseShell.closeShell
  split <;> rfl

/-- A thread ends that was started: it closes the shell, and has finished. -/
theorem Kept.threadEnds {reader waiter : ThreadState} (h : s.Kept)
    (hends : s.outputReader = .running ∧ reader = .finished ∧ waiter = s.exitWaiter ∨
      s.exitWaiter = .running ∧ waiter = .finished ∧ reader = s.outputReader) :
    Kept { s.closeShell with outputReader := reader, exitWaiter := waiter } := by
  have hready : s.PastReady := h.pastReady <| hends.imp
    (fun hreader => by rw [hreader.1]; exact nofun) (fun hwaiter => by rw [hwaiter.1]; exact nofun)
  by_cases hover : s.run = .over
  · unfold ReverseShell.closeShell
    split <;>
    exact ⟨fun _ => hready, h.webSocket, fun hrun => absurd (hrun.symm.trans hover) nofun,
      fun _ hrun => absurd hover hrun, absurd hover⟩
  · rw [h.closeShell hready hover]
    have hcount := h.permits hover
    refine ⟨h.final, h.webSocket, fun hrun => ?_, fun hrun hrun' => ?_, fun _ => ?_⟩
    · have hthreads := h.threads hrun
      rcases hends with ⟨-, rfl, rfl⟩ | ⟨-, rfl, rfl⟩
      · exact ⟨nofun, hthreads.2⟩
      · exact ⟨hthreads.1, nofun⟩
    · have hnot := h.notStarted hrun hrun'
      rcases hends with ⟨hrunning, -⟩ | ⟨hrunning, -⟩
      · cases hrunning.symm.trans hnot.1
      · cases hrunning.symm.trans hnot.2
    · rcases hends with ⟨hrunning, rfl, rfl⟩ | ⟨hrunning, rfl, rfl⟩
      all_goals
        rw [hrunning, if_neg (c := ThreadState.running = .finished) nofun] at hcount
        dsimp only
        rw [if_pos (c := ThreadState.finished = .finished) rfl]
        omega

/-- A session in order stays so. -/
theorem Kept.next (h : s.Kept) (htime : s.ReadyInTime e) : (s.next e).Kept := by
  cases e <;> simp only [ReverseShell.next] <;> split
  case onMessage.isTrue hif =>
    exact h.begin_final hif.1 (htime (by simp [beginsFinal, hif]))
  case onClosed.isTrue hif =>
    exact h.begin_final hif.1 (htime (by simp [beginsFinal, hif]))
  case onFailure.isTrue hif => exact h.begin_final hif (htime hif)
  case closeSocket.isTrue hif => exact h.closeSocket hif
  case readerEnds.isTrue hif => exact h.threadEnds (.inl ⟨hif.1, rfl, closeShell_exitWaiter⟩)
  case waiterEnds.isTrue hif => exact h.threadEnds (.inr ⟨hif.1, rfl, closeShell_outputReader⟩)
  case onOpen.isTrue | print.isTrue | exit.isTrue | read.isTrue =>
    exact ⟨h.final, h.webSocket, h.threads, h.notStarted, h.permits⟩
  -- The other steps are of `run` itself, and of the notification.
  case startProcess.isTrue | newWebSocket.isTrue | assign.isTrue | wait.isTrue |
      spuriousWakeup.isTrue | startThreads.isTrue | acquire.isTrue | notifyOpen.isTrue =>
    obtain ⟨hfinal, hsocket, hthreads, hnot, hpermits⟩ := h
    constructor <;> grind [PastReady]
  all_goals exact h

/-- `onOpen` notifies when `run` waits or has been woken, and no failure comes before that. -/
def OpensInTime (s : ReverseShell) : ShellEvent → Prop
  | .notifyOpen => s.onOpen = .running → s.run = .ready .waiting ∨ s.PastReady
  | .onFailure => s.listening = true → s.onOpen = .finished
  | _ => True

/-- Whoever is woken stays so. -/
theorem PastReady.next (h : s.PastReady) (e : ShellEvent) : (s.next e).PastReady := by
  unfold PastReady at *
  cases e <;> simp only [ReverseShell.next] <;> grind [ReverseShell.closeShell]

/-- A step of a session that opens in time. -/
theorem opened_next (h : s.onOpen = .finished → s.PastReady) (hopens : s.OpensInTime e) :
    ((s.next e).onOpen = .finished → (s.next e).PastReady) ∧ s.ReadyInTime e := by
  constructor
  · intro hopened
    by_cases hold : s.onOpen = .finished
    · exact (h hold).next e
    · cases e with
      | notifyOpen =>
        rw [ReverseShell.next] at hopened ⊢
        split at hopened
        · next hrunning =>
          rw [if_pos hrunning]
          rcases hopens hrunning with hwaiting | hready
          · exact .inl (if_pos hwaiting)
          · unfold PastReady at *
            grind
        · exact absurd hopened hold
      | _ =>
        simp only [ReverseShell.next] at hopened
        grind [ReverseShell.closeShell]
  · intro hbegins
    refine h ?_
    cases e <;> simp only [beginsFinal, Bool.and_eq_true, decide_eq_true_eq, reduceCtorEq] at hbegins
    case onMessage => exact hbegins.1.2
    case onClosed => exact hbegins.2
    case onFailure => exact hopens hbegins

/-- It is enough that each session opens in time. -/
theorem readyInTime_of_opensInTime (events : List ShellEvent)
    (hopens : Along ReverseShell.next OpensInTime .new events) :
    Along ReverseShell.next ReadyInTime .new events := by
  have hnew : ReverseShell.new.onOpen = .finished → ReverseShell.new.PastReady := nofun
  exact Along.of_invariant (P := OpensInTime)
    (fun s _ (h : s.onOpen = .finished → s.PastReady) hopens => opened_next h hopens) hnew hopens

end ReverseShell

/-! ## The slots of the client -/

/-- The sessions that are running, and the counter that admits them. -/
structure ShellSlots where
  sessions : List ReverseShell
  shellCount : Int
  maxShellCount : Int
  /-- What `incrementAndGet` gave to the `onShellAttach` calls that have yet to compare it. -/
  counted : List Int
  /-- The calls that have yet to take their increment back. -/
  refused : Nat
deriving DecidableEq, Repr

inductive SlotEvent where
  /-- `connectToWs` reads the configuration. -/
  | configure (maxShellCount : Int)
  /-- `onShellAttach` up to `incrementAndGet`, with or without a token. -/
  | attach (token : Bool)
  | compare (count : Int)
  | takeBack
  | shell (i : Nat) (e : ShellEvent)
  /-- The `finally` block of the thread of a session. -/
  | giveBack (i : Nat)
deriving Repr

namespace ShellSlots

def init : ShellSlots := ⟨[], 0, 0, [], 0⟩

variable (c : ShellSlots)

/-- One step; one that is not possible changes nothing. -/
def next : SlotEvent → ShellSlots
  | .configure maxShellCount => { c with maxShellCount }
  | .attach token =>
    if token = true then
      { c with shellCount := c.shellCount + 1, counted := (c.shellCount + 1) :: c.counted }
    else c
  | .compare count =>
    if count ∈ c.counted then
      if count > c.maxShellCount then
        { c with counted := c.counted.erase count, refused := c.refused + 1 }
      else { c with counted := c.counted.erase count, sessions := c.sessions ++ [.new] }
    else c
  | .takeBack =>
    if c.refused ≠ 0 then { c with refused := c.refused - 1, shellCount := c.shellCount - 1 } else c
  | .shell i e =>
    match c.sessions[i]? with
    | some s => { c with sessions := c.sessions.set i (s.next e) }
    | none => c
  | .giveBack i =>
    match c.sessions[i]? with
    | some s =>
      if s.run = .over then
        { c with sessions := c.sessions.eraseIdx i, shellCount := c.shellCount - 1 }
      else c
    | none => c

/-- No session is stuck, and no more run than are allowed. -/
structure Good : Prop where
  returns : ∀ s ∈ c.sessions, s.Done → ¬ s.Blocked
  within : (c.sessions.length : Int) ≤ c.maxShellCount

/-- The sessions are ready in time, and the maximum is not set below what is counted. -/
def InTime : SlotEvent → Prop
  | .configure maxShellCount => c.shellCount ≤ maxShellCount
  | .shell i e => ∀ s ∈ c.sessions[i]?, s.ReadyInTime e
  | _ => True

instance : ∀ e, Decidable (c.InTime e)
  | .configure maxShellCount => inferInstanceAs (Decidable (c.shellCount ≤ maxShellCount))
  | .shell i e => inferInstanceAs (Decidable (∀ s ∈ c.sessions[i]?, s.ReadyInTime e))
  | .attach _ | .compare _ | .takeBack | .giveBack _ => inferInstanceAs (Decidable True)

/-- How many calls will be admitted. -/
def admitted (maxShellCount : Int) (counted : List Int) : Nat :=
  counted.countP fun n => decide (n ≤ maxShellCount)

structure Inv : Prop where
  kept : ∀ s ∈ c.sessions, s.Kept
  count : c.shellCount = c.sessions.length + c.counted.length + c.refused
  within : (c.sessions.length + admitted c.maxShellCount c.counted : Int) ≤ c.maxShellCount

variable {c} {e : SlotEvent}

theorem Inv.init : Inv .init where
  kept _ hs := absurd hs List.not_mem_nil
  count := rfl
  within := by decide

theorem Inv.good (h : c.Inv) : c.Good where
  returns s hs hdone := (h.kept s hs).not_stuck hdone
  within := by
    have := h.within
    omega

theorem length_eraseIdx_of_getElem? {i : Nat} {s : ReverseShell} (hs : c.sessions[i]? = some s) :
    ((c.sessions.eraseIdx i).length : Int) = c.sessions.length - 1 := by
  have hi : i < c.sessions.length := (List.getElem?_eq_some_iff.mp hs).1
  rw [List.length_eraseIdx_of_lt hi]
  omega

section Admitted

variable {maxShellCount n : Int} {counted : List Int}

theorem admitted_le_length : admitted maxShellCount counted ≤ counted.length := List.countP_le_length

theorem admitted_cons : admitted maxShellCount (n :: counted) =
    admitted maxShellCount counted + if n ≤ maxShellCount then 1 else 0 := by
  unfold admitted
  rw [List.countP_cons]
  by_cases h : n ≤ maxShellCount <;> simp [h]

/-- A call that has compared its count. -/
theorem admitted_erase (hn : n ∈ counted) : admitted maxShellCount counted =
    admitted maxShellCount (counted.erase n) + if n ≤ maxShellCount then 1 else 0 := by
  rw [← admitted_cons]
  exact (List.perm_cons_erase hn).countP_eq _

end Admitted

/-- The call that increments last is admitted only if all before it fit as well. -/
theorem Inv.attach (h : c.Inv) :
    Inv { c with shellCount := c.shellCount + 1, counted := (c.shellCount + 1) :: c.counted } := by
  obtain ⟨hkept, hcount, hwithin⟩ := h
  refine ⟨hkept, ?_, ?_⟩
  · simp only [List.length_cons]
    omega
  · have hle : admitted c.maxShellCount c.counted ≤ c.counted.length := admitted_le_length
    dsimp only
    rw [admitted_cons]
    split <;> omega

theorem Inv.compare (h : c.Inv) (count : Int) : (c.next (.compare count)).Inv := by
  rw [ShellSlots.next]
  split
  · next hmem =>
    obtain ⟨hkept, hcount, hwithin⟩ := h
    have hlength := List.length_erase_of_mem hmem
    have hpos := List.length_pos_of_mem hmem
    rw [admitted_erase hmem] at hwithin
    split
    · next hrefused =>
      rw [if_neg (by omega)] at hwithin
      refine ⟨hkept, ?_, by simpa using hwithin⟩
      simp only [hlength]
      omega
    · next hadmitted =>
      rw [if_pos (by omega)] at hwithin
      refine ⟨?_, ?_, ?_⟩
      · intro s hs
        rcases List.mem_append.mp hs with hs | hs
        · exact hkept s hs
        · rw [List.mem_singleton.mp hs]
          exact .new
      · simp only [hlength, List.length_append, List.length_singleton]
        omega
      · simp only [List.length_append, List.length_singleton]
        omega
  · exact h

theorem Inv.next (h : c.Inv) (htime : c.InTime e) : (c.next e).Inv := by
  cases e with
  | configure maxShellCount =>
    have hcount := h.count
    have hle : admitted maxShellCount c.counted ≤ c.counted.length := admitted_le_length
    have htime : c.shellCount ≤ maxShellCount := htime
    refine ⟨h.kept, h.count, ?_⟩
    simp only [ShellSlots.next]
    omega
  | attach token =>
    rw [ShellSlots.next]
    split
    · exact h.attach
    · exact h
  | compare count => exact h.compare count
  | takeBack =>
    rw [ShellSlots.next]
    split
    · have hcount := h.count
      refine ⟨h.kept, ?_, h.within⟩
      simp only
      omega
    · exact h
  | shell i e =>
    rw [ShellSlots.next]
    split
    · next s hs =>
      have htime : s.ReadyInTime e := htime s hs
      refine ⟨fun s' hs' => ?_, ?_, ?_⟩
      · rcases List.mem_or_eq_of_mem_set hs' with hs' | rfl
        · exact h.kept s' hs'
        · exact (h.kept s (List.mem_of_getElem? hs)).next htime
      · simp only [List.length_set]
        exact h.count
      · simp only [List.length_set]
        exact h.within
    · exact h
  | giveBack i =>
    rw [ShellSlots.next]
    split
    · next s hs =>
      have hlength := length_eraseIdx_of_getElem? hs
      have hcount := h.count
      have hwithin := h.within
      split
      · refine ⟨fun s' hs' => h.kept s' (List.mem_of_mem_eraseIdx hs'), ?_, ?_⟩
        · simp only
          omega
        · simp only
          omega
      · exact h
    · exact h

end ShellSlots

/-- **Slots are given back**, over every order of the callbacks, of the threads and of the attach
requests: no session is ever stuck and no more run than are allowed, as long as the final callback of
a session begins after its `run` has been woken, and the maximum is not set below the count. -/
theorem shells_give_back (events : List SlotEvent)
    (htime : Along ShellSlots.next ShellSlots.InTime .init events) :
    Along ShellSlots.next (fun c e => (c.next e).Good) .init events := by
  have hstep (c : ShellSlots) (e : SlotEvent) (h : c.Inv) (htime : c.InTime e) :
      (c.next e).Inv ∧ (c.next e).Good :=
    ⟨h.next htime, (h.next htime).good⟩
  exact Along.of_invariant hstep ShellSlots.Inv.init htime

/-- A session from its request to its end. -/
def oneSession : List SlotEvent :=
  [.configure 2, .attach true, .compare 1] ++
    [.startProcess true, .newWebSocket, .assign, .wait, .onOpen, .notifyOpen, .startThreads, .print,
      .read, .exit, .readerEnds false, .waiterEnds, .onClosed, .closeSocket, .acquire].map
      (SlotEvent.shell 0) ++
    [.giveBack 0]

theorem oneSession_gives_back :
    Along ShellSlots.next (fun c e => (c.next e).Good) .init oneSession ∧
      oneSession.foldl ShellSlots.next .init = ⟨[], 0, 2, [], 0⟩ :=
  ⟨shells_give_back oneSession (by decide), by decide⟩

/-- The connection fails before it opens. -/
def failsFirst : List SlotEvent :=
  [.configure 2, .attach true, .compare 1, .shell 0 (.startProcess true), .shell 0 .newWebSocket,
    .shell 0 .assign, .shell 0 .onFailure, .shell 0 .closeSocket, .shell 0 .exit, .shell 0 .wait]

/-- The connection opens before `run` waits. -/
def opensFirst : List SlotEvent :=
  [.configure 2, .attach true, .compare 1, .shell 0 (.startProcess true), .shell 0 .newWebSocket,
    .shell 0 .onOpen, .shell 0 .notifyOpen, .shell 0 .assign, .shell 0 .wait, .shell 0 .onFailure,
    .shell 0 .closeSocket, .shell 0 .exit]

theorem shell_stuck :
    ¬ Along ShellSlots.next (fun c e => (c.next e).Good) .init failsFirst ∧
      ¬ Along ShellSlots.next (fun c e => (c.next e).Good) .init opensFirst := by
  constructor
  · rintro ⟨-, -, -, -, -, -, -, -, -, hgood, -⟩
    exact hgood.returns _ (List.mem_singleton_self _) ⟨rfl, rfl, rfl, nofun, nofun⟩ (.inl rfl)
  · rintro ⟨-, -, -, -, -, -, -, -, -, -, -, hgood, -⟩
    exact hgood.returns _ (List.mem_singleton_self _) ⟨rfl, rfl, rfl, nofun, nofun⟩ (.inl rfl)

end Rdfm.Android
