import Mathlib.Algebra.GroupWithZero.Nat
import Rdfm.Lib.Transition

/-!
# Progress reports

The receive loop of each management connection subscribes a function to the progress bus, and
`tryClose` unsubscribes one. The two functions do the same but are written down twice, and the bus
knows a handler by its function pointer: nothing is ever unsubscribed. So with the second connection
every value is sent twice. Each value is sent once exactly as long as a single receive loop is ever
started and none is published before it has subscribed (`progress_reported_iff`).
-/

namespace Rdfm.Linux

open Rdfm.Lib

/-! ## The bus -/

/-- The functions that are passed to the bus, by the place where they are written. -/
inductive ProgressHandler where
  | startRecvLoop
  | tryClose
deriving DecidableEq, Repr

/-- The handlers of the topic `progress`. -/
abbrev ProgressBus := List ProgressHandler

def ProgressBus.subscribe (bus : ProgressBus) (h : ProgressHandler) : ProgressBus := bus ++ [h]

def ProgressBus.unsubscribe (bus : ProgressBus) (h : ProgressHandler) : ProgressBus := bus.erase h

/-! ## The connection -/

inductive DeviceConnectionState where
  | disconnected
  | connected
deriving DecidableEq, Repr

/-- The goroutine of `startRecvLoop`. -/
inductive RecvPoint where
  | starting
  | reading
  /-- A message waits for the channel `rx`. -/
  | handing
  /-- The loop has returned an error. -/
  | failed
  | ended
deriving DecidableEq, Repr

/-- The goroutine of the greeter. -/
inductive GreeterPoint where
  | starting
  | announced
  | ended
deriving DecidableEq, Repr

/-- A call of `CreateConnection` that has a websocket. -/
structure ConnectionAttempt where
  recv : RecvPoint
  greeter : GreeterPoint
deriving DecidableEq, Repr

/-- A value that was published, and how often it was sent. -/
structure ProgressReport where
  progress : Int
  connected : Bool
  sent : Nat
deriving DecidableEq, Repr

/-- The connection, the bus, the progress writer of the update under way, and what was published. -/
structure ReportingDevice where
  /-- The websocket, and whether its link is up. -/
  ws : Option Bool
  state : DeviceConnectionState
  attempt : Option ConnectionAttempt
  bus : ProgressBus
  lastUpdate : Int
  reports : List ProgressReport
  /-- The receive loops that have been started so far. -/
  loops : Nat
deriving DecidableEq, Repr

inductive ConnectOutcome where
  /-- `formatDeviceWsUrl` fails. -/
  | badUrl
  | dialFails
  | opens
deriving DecidableEq, Repr

inductive ConnectionEvent where
  /-- A call of `CreateConnection`. -/
  | createConnection (outcome : ConnectOutcome)
  /-- The link is lost. -/
  | linkLost
  /-- The next step of the receive loop; while the link is up it receives a message. -/
  | recvStep
  /-- The receive loop gives up its message, for the context is cancelled. -/
  | recvCancelled
  | greeterStep
  /-- `tryClose`, by the goroutine that waits for the context or by `Close`. -/
  | tryClose
  /-- Both goroutines have ended, `CreateConnection` returns. -/
  | connectionClosed
  | newProgressWriter
  /-- `ProgressWriter.Write`, with the percentage that the bar has then. -/
  | write (percentage : Int)
deriving DecidableEq, Repr

namespace ReportingDevice

def newDeviceConnection : ReportingDevice := ⟨none, .disconnected, none, [], 0, [], 0⟩

def tryClose (d : ReportingDevice) : ReportingDevice :=
  { d with bus := d.bus.unsubscribe .tryClose, ws := d.ws.map fun _ => false }

/-- The deferred call of `CreateConnection`. -/
def leave (d : ReportingDevice) : ReportingDevice :=
  { d.tryClose with state := .disconnected, attempt := none }

def createConnection (d : ReportingDevice) (outcome : ConnectOutcome) : ReportingDevice :=
  match outcome with
  | .badUrl => d.leave
  | .dialFails => { d with ws := none }.leave
  | .opens => { d with ws := some true, attempt := some ⟨.starting, .starting⟩ }

def setRecv (d : ReportingDevice) (a : ConnectionAttempt) (recv : RecvPoint) : ReportingDevice :=
  { d with attempt := some { a with recv } }

def recvStep (d : ReportingDevice) (a : ConnectionAttempt) : ReportingDevice :=
  match a.recv with
  | .starting =>
    { d with bus := d.bus.subscribe .startRecvLoop, loops := d.loops + 1 }.setRecv a .reading
  | .reading => if d.ws = some true then d.setRecv a .handing else d.setRecv a .failed
  | .handing => d.setRecv a .reading
  | .failed => d.tryClose.setRecv a .ended
  | .ended => d

/-- The greeter ignores the result of its `Send`. -/
def greeterStep (d : ReportingDevice) (a : ConnectionAttempt) : ReportingDevice :=
  match a.greeter with
  | .starting => { d with attempt := some { a with greeter := .announced } }
  | .announced => { d with attempt := some { a with greeter := .ended }, state := .connected }
  | .ended => d

/-- `sendUpdateProgress`: how many messages it sends. -/
def sendUpdateProgress (d : ReportingDevice) : Nat := if d.ws = some true then 1 else 0

/-- The greeter is done and the link is up. -/
def connected (d : ReportingDevice) : Bool := d.state = .connected ∧ d.ws = some true

/-- The bus calls every handler once. -/
def publish (d : ReportingDevice) (progress : Int) : ReportingDevice :=
  { d with reports := d.reports ++
      [⟨progress, d.connected, (d.bus.map fun _ => d.sendUpdateProgress).sum⟩] }

def write (d : ReportingDevice) (percentage : Int) : ReportingDevice :=
  if percentage ≠ d.lastUpdate then
    { d with lastUpdate := percentage }.publish (if percentage = 99 then 100 else percentage)
  else d

/-- One event; one that cannot happen changes nothing. -/
def next (d : ReportingDevice) : ConnectionEvent → ReportingDevice
  | .createConnection outcome => if d.attempt = none then d.createConnection outcome else d
  | .linkLost => { d with ws := d.ws.map fun _ => false }
  | .recvStep =>
    match d.attempt with
    | some a => d.recvStep a
    | none => d
  | .recvCancelled =>
    match d.attempt with
    | some a => if a.recv = .handing then d.setRecv a .ended else d
    | none => d
  | .greeterStep =>
    match d.attempt with
    | some a => d.greeterStep a
    | none => d
  | .tryClose => d.tryClose
  | .connectionClosed =>
    match d.attempt with
    | some a => if a.recv = .ended ∧ a.greeter = .ended then d.leave else d
    | none => d
  | .newProgressWriter => { d with lastUpdate := 0 }
  | .write percentage => d.write percentage

/-! ## What is expected -/

/-- Each value that was published while connected was sent once, and the bus has no more than one
subscription. -/
structure Reported (d : ReportingDevice) : Prop where
  once : ∀ r ∈ d.reports, r.connected → r.sent = 1
  subscribed : d.bus.length ≤ 1

/-- The first receive loop is the only one, and it is there before a value is published. -/
def Single (d : ReportingDevice) : ConnectionEvent → Prop
  | .recvStep => ∀ a, d.attempt = some a → a.recv = .starting → d.loops = 0
  | .write percentage => percentage ≠ d.lastUpdate → d.connected → 0 < d.loops
  | _ => True

/-! ## Steps -/

/-- What every run keeps: nothing is ever unsubscribed. -/
structure Kept (d : ReportingDevice) : Prop where
  bus : d.bus = List.replicate d.loops .startRecvLoop
  single : d.loops ≤ 1
  once : ∀ r ∈ d.reports, r.connected → r.sent = 1

variable {d : ReportingDevice}

theorem Kept.reported (h : Kept d) : Reported d := by
  refine ⟨h.once, ?_⟩
  rw [h.bus, List.length_replicate]
  exact h.single

/-- A step that no one sees on the bus. -/
structure Quiet (d d' : ReportingDevice) : Prop where
  bus : d'.bus = d.bus
  loops : d'.loops = d.loops
  reports : d'.reports = d.reports

theorem Quiet.refl (d : ReportingDevice) : Quiet d d := ⟨rfl, rfl, rfl⟩

theorem Quiet.kept {d' : ReportingDevice} (hquiet : Quiet d d') (h : Kept d) : Kept d' := by
  refine ⟨?_, ?_, ?_⟩
  · rw [hquiet.bus, hquiet.loops, h.bus]
  · rw [hquiet.loops]
    exact h.single
  · rw [hquiet.reports]
    exact h.once

/-- `tryClose` never finds the function it unsubscribes. -/
theorem Kept.tryClose_quiet (h : Kept d) : Quiet d d.tryClose := by
  refine ⟨?_, rfl, rfl⟩
  refine List.erase_of_not_mem fun hmem => ?_
  rw [h.bus] at hmem
  cases List.eq_of_mem_replicate hmem

theorem Kept.leave_quiet (h : Kept d) : Quiet d d.leave := ⟨h.tryClose_quiet.bus, rfl, rfl⟩

/-- What one event does to the bus. -/
inductive BusEffect (d : ReportingDevice) : ConnectionEvent → ReportingDevice → Prop
  | quiet {e : ConnectionEvent} {d' : ReportingDevice} (h : Quiet d d')
      (hsingle : Single d e) : BusEffect d e d'
  | subscribes {d' : ReportingDevice} (a : ConnectionAttempt) (hattempt : d.attempt = some a)
      (hstarting : a.recv = .starting) (hbus : d'.bus = d.bus.subscribe .startRecvLoop)
      (hloops : d'.loops = d.loops + 1) (hreports : d'.reports = d.reports) :
      BusEffect d .recvStep d'
  | publishes (percentage progress : Int) (hnew : percentage ≠ d.lastUpdate) :
      BusEffect d (.write percentage) ({ d with lastUpdate := percentage }.publish progress)

theorem recvStep_effect (h : Kept d) (a : ConnectionAttempt) (hattempt : d.attempt = some a) :
    BusEffect d .recvStep (d.recvStep a) := by
  have hsingle : a.recv ≠ .starting → Single d .recvStep := by
    intro hne a' ha' hstarting
    rw [hattempt, Option.some.injEq] at ha'
    exact absurd (ha' ▸ hstarting) hne
  unfold recvStep
  split
  · next hp => exact .subscribes a hattempt hp rfl rfl rfl
  · next hp =>
    have hs := hsingle (by rw [hp]; exact nofun)
    split
    · exact .quiet ⟨rfl, rfl, rfl⟩ hs
    · exact .quiet ⟨rfl, rfl, rfl⟩ hs
  · next hp => exact .quiet ⟨rfl, rfl, rfl⟩ (hsingle (by rw [hp]; exact nofun))
  · next hp => exact .quiet ⟨h.tryClose_quiet.bus, rfl, rfl⟩ (hsingle (by rw [hp]; exact nofun))
  · next hp => exact .quiet (.refl d) (hsingle (by rw [hp]; exact nofun))

theorem next_effect (h : Kept d) (e : ConnectionEvent) : BusEffect d e (d.next e) := by
  cases e with
  | createConnection outcome =>
    refine .quiet ?_ trivial
    simp only [next]
    split
    · cases outcome with
      | badUrl => exact h.leave_quiet
      | dialFails => exact ⟨h.tryClose_quiet.bus, rfl, rfl⟩
      | opens => exact ⟨rfl, rfl, rfl⟩
    · exact .refl d
  | linkLost => exact .quiet ⟨rfl, rfl, rfl⟩ trivial
  | recvStep =>
    simp only [next]
    split
    · next a hattempt => exact recvStep_effect h a hattempt
    · next hattempt => exact .quiet (.refl d) (fun a ha => by rw [hattempt] at ha; cases ha)
  | recvCancelled =>
    refine .quiet ?_ trivial
    simp only [next]
    split
    · split
      · exact ⟨rfl, rfl, rfl⟩
      · exact .refl d
    · exact .refl d
  | greeterStep =>
    refine .quiet ?_ trivial
    simp only [next]
    split
    · unfold greeterStep
      split <;> exact ⟨rfl, rfl, rfl⟩
    · exact .refl d
  | tryClose => exact .quiet h.tryClose_quiet trivial
  | connectionClosed =>
    refine .quiet ?_ trivial
    simp only [next]
    split
    · split
      · exact h.leave_quiet
      · exact .refl d
    · exact .refl d
  | newProgressWriter => exact .quiet ⟨rfl, rfl, rfl⟩ trivial
  | write percentage =>
    simp only [next, write]
    split
    · next hnew => exact .publishes percentage _ hnew
    · next hsame => exact .quiet (.refl d) (fun hnew => absurd hnew hsame)

/-- A value that is published is sent to the server once for every receive loop that was started. -/
theorem Kept.sent (h : Kept d) (hconnected : d.connected) :
    (d.bus.map fun _ => d.sendUpdateProgress).sum = d.loops := by
  simp only [connected, decide_eq_true_eq] at hconnected
  rw [h.bus, List.map_replicate, List.sum_replicate_nat, sendUpdateProgress, if_pos hconnected.2,
    Nat.mul_one]

theorem Kept.next_iff (h : Kept d) (e : ConnectionEvent) :
    (Reported (d.next e) ↔ Single d e) ∧ (Single d e → Kept (d.next e)) := by
  have heffect := next_effect h e
  generalize d.next e = d' at heffect
  cases heffect with
  | quiet hquiet hsingle =>
    have hkept := hquiet.kept h
    exact ⟨iff_of_true hkept.reported hsingle, fun _ => hkept⟩
  | subscribes a hattempt hstarting hbus hloops hreports =>
    have hkept : d.loops = 0 → Kept d' := by
      intro hnone
      refine ⟨?_, by omega, ?_⟩
      · rw [hbus, hloops, h.bus, List.replicate_succ']
        rfl
      · rw [hreports]
        exact h.once
    have hsingle : Single d .recvStep ↔ d.loops = 0 :=
      ⟨fun hs => hs a hattempt hstarting, fun hnone _ _ _ => hnone⟩
    rw [hsingle]
    refine ⟨⟨fun hgood => ?_, fun hnone => (hkept hnone).reported⟩, hkept⟩
    have hlength := hgood.subscribed
    rw [hbus, h.bus, ProgressBus.subscribe, List.length_append, List.length_replicate,
      List.length_singleton] at hlength
    omega
  | publishes percentage progress hnew =>
    have hkept : Single d (.write percentage) →
        Kept ({ d with lastUpdate := percentage }.publish progress) := by
      intro hs
      refine ⟨h.bus, h.single, fun r hr hconnected => ?_⟩
      rcases List.mem_append.mp hr with hr | hr
      · exact h.once r hr hconnected
      · rw [List.mem_singleton.mp hr] at hconnected ⊢
        have hpos := hs hnew hconnected
        have hle := h.single
        have hsent := h.sent hconnected
        exact hsent.trans (by omega)
    refine ⟨⟨fun hgood _ hconnected => ?_, fun hs => (hkept hs).reported⟩, hkept⟩
    have hsent := h.sent hconnected
    have honce := hgood.once _ (List.mem_append_right _ (List.mem_singleton_self _)) hconnected
    have hloops : d.loops = 1 := hsent.symm.trans honce
    omega

/-- **Along every run of connections, losses, closes and publications, each value published while
connected is sent once and there is at most one subscription, exactly as long as only one receive
loop is ever started and it has subscribed before the first of these values.** -/
theorem progress_reported_iff (es : List ConnectionEvent) :
    Along next (fun d e => Reported (d.next e)) newDeviceConnection es ↔
      Along next Single newDeviceConnection es := by
  have hstart : Kept newDeviceConnection := ⟨rfl, Nat.zero_le _, nofun⟩
  exact Along.iff_of_invariant (fun d e h => h.next_iff e) hstart

/-- A connection up to the state in which it is connected. -/
def connects : List ConnectionEvent :=
  [.createConnection .opens, .recvStep, .greeterStep, .greeterStep]

/-- The connection is lost and made again. -/
def reconnects : List ConnectionEvent :=
  connects ++ [.linkLost, .recvStep, .recvStep, .connectionClosed] ++ connects ++ [.write 5]

/-- A value is published before the receive loop has subscribed. -/
def publishesEarly : List ConnectionEvent :=
  [.createConnection .opens, .greeterStep, .greeterStep, .write 5]

/-- After one reconnection a value is sent twice, and a value that is early is not sent. -/
theorem progress_not_reported :
    (reconnects.foldl next newDeviceConnection).reports = [⟨5, true, 2⟩] ∧
      ¬ Along next (fun d e => Reported (d.next e)) newDeviceConnection reconnects ∧
      (publishesEarly.foldl next newDeviceConnection).reports = [⟨5, true, 0⟩] ∧
      ¬ Along next (fun d e => Reported (d.next e)) newDeviceConnection publishesEarly := by
  have hlast : ∀ (es : List ConnectionEvent) (e : ConnectionEvent),
      Along next (fun d e => Reported (d.next e)) newDeviceConnection (es ++ [e]) →
        Reported ((es ++ [e]).foldl next newDeviceConnection) := by
    intro es e h
    rw [List.foldl_append]
    exact (Along.append_iff.mp h).2.1
  have htwice : (reconnects.foldl next newDeviceConnection).reports = [⟨5, true, 2⟩] := by decide
  have hearly : (publishesEarly.foldl next newDeviceConnection).reports = [⟨5, true, 0⟩] := by
    decide
  refine ⟨htwice, fun h => ?_, hearly, fun h => ?_⟩
  · have hgood := (hlast (reconnects.take 12) _ h).once ⟨5, true, 2⟩
      (by rw [List.mem_iff_getElem?]; exact ⟨0, rfl⟩) rfl
    cases hgood
  · have hgood := (hlast (publishesEarly.take 3) _ h).once ⟨5, true, 0⟩
      (by rw [List.mem_iff_getElem?]; exact ⟨0, rfl⟩) rfl
    cases hgood

end ReportingDevice

end Rdfm.Linux
