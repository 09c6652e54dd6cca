import Rdfm.Server.ShellBridge

/-!
# The end of a reverse shell

When the manager or the device closes its socket, the copier from it empties it, ends, and sets the
flag of the other; the thread of the device signals the manager's, and that one removes the session.
Each of these takes a number of steps of its own thread, whatever the others do meanwhile.
-/

namespace Rdfm.Server

open Rdfm.Lib

variable {α : Type*}

/-! ## The end of a session -/

/-- The steps that a thread of a manager has left, once the device has gone. -/
def ManagerPhase.left : ManagerPhase → ℕ
  | created => 6
  | waiting => 5
  | checking => 4
  | attached => 3
  | leaving => 2
  | closing => 1
  | finished | failed => 0

/-- The steps that a thread of a device has left, once a connection has died. -/
def DevicePhase.left : DevicePhase → ℕ
  | looking => 7
  | found => 6
  | first => 5
  | second => 4
  | copying => 3
  | dying => 2
  | closing => 1
  | finished | failed => 0

namespace ShellBridge

/-- The socket is there, or has been. -/
def Opened (s : ShellBridge α) : Endpoint → Prop
  | .manager m => s.managers m ≠ none
  | .device j => s.devices j ≠ none

/-- What a step does with the relay. -/
inductive RelayStep (s : ShellBridge α) (event : ShellEvent α) :
    Relay Endpoint (ℕ × Direction) ℕ α → Prop
  | same (h : ∀ j direction, event ≠ .copier j direction) : RelayStep s event s.relay
  | connect {e : Endpoint} (h : ¬ s.Opened e) : RelayStep s event (s.relay.connect e)
  | close (e : Endpoint) : RelayStep s event (s.relay.close e)
  | arrive (e : Endpoint) (x : α) : RelayStep s event (s.relay.arrive e x)
  | start {c : ℕ × Direction} (source destination : Endpoint) (h : s.relay.wires c = none) :
    RelayStep s event (s.relay.start c source destination)
  | copy {j : ℕ} {direction : Direction} (h : event = .copier j direction) :
    RelayStep s event (s.relay.copy Prod.fst (j, direction))

section Steps

variable {s : ShellBridge α}

theorem relay_step (h : s.Consistent) (event : ShellEvent α) :
    RelayStep s event (s.next event).relay := by
  cases event with
  | openManager m macAddress uuid online =>
    change RelayStep s _ (s.openManager m macAddress uuid online).relay
    unfold openManager
    cases hm : s.managers m with
    | some phase => exact .same nofun
    | none =>
      dsimp only
      split <;> exact .connect fun hopened => hopened hm
  | manager m sent =>
    change RelayStep s _ (s.managerStep m sent).relay
    cases hm : s.managers m with
    | none =>
      rw [managerStep_of_none sent hm]
      exact .same nofun
    | some phase =>
      have hstep := manager_step h.registered sent hm
      generalize s.managerStep m sent = s' at hstep
      cases hstep with
      | told | waited | deviceGone | deviceThere | managerGone | managerThere | finished =>
        exact .same nofun
      | removed hshell hremove =>
        obtain ⟨s', hremove', -, -, hrelay, -⟩ := h.registered.remove hm hshell
        rw [hremove] at hremove'
        cases hremove'
        rw [setManager_relay, hrelay]
        exact .same nofun
      | closed => exact .close _
  | openDevice j macAddress uuid =>
    change RelayStep s _ (s.openDevice j macAddress uuid).relay
    unfold openDevice
    cases hd : s.devices j with
    | some d => exact .same nofun
    | none => exact .connect fun hopened => hopened hd
  | device j =>
    change RelayStep s _ (s.deviceStep j).relay
    cases hd : s.devices j with
    | none =>
      rw [deviceStep_of_none hd]
      exact .same nofun
    | some d =>
      have hwires (direction : Direction) : s.relay.wires (j, direction) = d.wires j direction := by
        rw [h.wired.wires, hd]
        rfl
      have hstep := device_step h.wired hd
      generalize s.deviceStep j = s' at hstep
      cases hstep with
      | invalid | unknown | find | connect | died | waits | signal | finished => exact .same nofun
      | startUp hphase hm =>
        refine .start _ _ ?_
        rw [hwires]
        simp [DeviceThread.wires, hphase, DevicePhase.started]
      | startDown hphase hm =>
        refine .start _ _ ?_
        rw [hwires]
        simp [DeviceThread.wires, hphase, DevicePhase.started]
      | closed => exact .close _
  | copier j direction => exact .copy rfl
  | arrive e x => exact .arrive e x
  | close e => exact .close e

/-- At a socket that was closed nothing arrives any more. -/
theorem closed_next (h : s.Consistent) (event : ShellEvent α) {e : Endpoint} (hopened : s.Opened e)
    (hclosed : (s.relay.sockets e).connected = false) :
    ((s.next event).relay.sockets e).connected = false ∧
      ((s.next event).relay.sockets e).input.length ≤ (s.relay.sockets e).input.length := by
  have hstep := relay_step h event
  generalize (s.next event).relay = relay at hstep
  cases hstep with
  | same | start => exact ⟨hclosed, Nat.le_refl _⟩
  | @connect e' hnew =>
    unfold Relay.connect
    rw [Relay.setSocket_sockets, if_neg]
    · exact ⟨hclosed, Nat.le_refl _⟩
    · rintro rfl
      exact hnew hopened
  | close e' =>
    unfold Relay.close
    rw [Relay.setSocket_sockets]
    split
    · next heq =>
      rw [heq]
      exact ⟨rfl, Nat.le_refl _⟩
    · exact ⟨hclosed, Nat.le_refl _⟩
  | arrive e' x =>
    unfold Relay.arrive
    dsimp only
    split
    · next hconnected =>
      rw [Relay.setSocket_sockets, if_neg]
      · exact ⟨hclosed, Nat.le_refl _⟩
      · rintro rfl
        rw [hclosed] at hconnected
        cases hconnected
    · exact ⟨hclosed, Nat.le_refl _⟩
  | copy =>
    refine ⟨?_, Relay.input_copy _ e⟩
    rw [Relay.connected_copy]
    exact hclosed

theorem died_next (h : s.Consistent) (event : ShellEvent α) {j : ℕ}
    (hdied : s.relay.died j = true) : (s.next event).relay.died j = true := by
  have hstep := relay_step h event
  generalize (s.next event).relay = relay at hstep
  cases hstep with
  | same | start | connect | close => exact hdied
  | arrive e x =>
    rw [Relay.arrive_died]
    exact hdied
  | copy => exact Relay.died_copy _ hdied

/-- Where the thread of a manager can be after its own step. -/
theorem managerStep_left (h : s.Registered) (sent : Bool) {m : ℕ} {phase : ManagerPhase}
    {shell : ReverseShell} (hm : s.managers m = some phase) (hshell : s.shells m = some shell)
    (hgone : shell.deviceConnectionClosed = true) :
    ∃ phase', (s.managerStep m sent).managers m = some phase' ∧ phase'.left ≤ phase.left - 1 := by
  have hstep := manager_step h sent hm
  generalize s.managerStep m sent = s' at hstep
  cases hstep with
  | told hphase | waited hphase =>
    refine ⟨_, by rw [setManager_managers, if_pos rfl], ?_⟩
    rcases hphase with rfl | rfl <;> decide
  | deviceGone | managerGone | managerThere | removed | closed =>
    exact ⟨_, by rw [setManager_managers, if_pos rfl], by decide⟩
  | deviceThere hshell' halive =>
    rw [hshell] at hshell'
    cases hshell'
    rw [hgone] at halive
    cases halive
  | finished => exact ⟨.finished, hm, Nat.le_refl _⟩

theorem managerStep_of_ne (h : s.Registered) (sent : Bool) {m m' : ℕ} (hne : m ≠ m') :
    (s.managerStep m' sent).managers m = s.managers m := by
  cases hm : s.managers m' with
  | none => rw [managerStep_of_none sent hm]
  | some phase =>
    have hstep := manager_step h sent hm
    generalize s.managerStep m' sent = s' at hstep
    cases hstep with
    | told | waited | deviceGone | deviceThere | managerGone | managerThere | closed =>
      rw [setManager_managers, if_neg hne]
      try rfl
    | removed hshell hremove =>
      obtain ⟨s', hremove', -, -, -, hmanagers, -⟩ := h.remove hm hshell
      rw [hremove] at hremove'
      cases hremove'
      rw [setManager_managers, if_neg hne, hmanagers]
    | finished => rfl

/-- No thread of a manager moves but by its own step, and none is over at its start. -/
theorem manager_next (h : s.Consistent) {event : ShellEvent α} {m : ℕ}
    (hother : ∀ sent, event ≠ .manager m sent) :
    (s.next event).managers m = s.managers m ∨
      s.managers m = none ∧ (s.next event).managers m ≠ some .finished := by
  cases event with
  | openManager m' macAddress uuid online =>
    change (s.openManager m' macAddress uuid online).managers m = _ ∨
      _ ∧ (s.openManager m' macAddress uuid online).managers m ≠ _
    unfold openManager
    cases hm' : s.managers m' with
    | some phase' => exact .inl rfl
    | none =>
      by_cases hne : m = m'
      · subst hne
        refine .inr ⟨hm', ?_⟩
        dsimp only
        split <;>
        · rw [setManager_managers, if_pos rfl]
          nofun
      · refine .inl ?_
        dsimp only
        split <;>
        · rw [setManager_managers, if_neg hne]
          rfl
  | manager m' sent =>
    have hne : m ≠ m' := by
      rintro rfl
      exact hother sent rfl
    exact .inl (managerStep_of_ne h.registered sent hne)
  | openDevice j macAddress uuid =>
    refine .inl ?_
    change (s.openDevice j macAddress uuid).managers m = _
    unfold openDevice
    cases s.devices j with
    | some d => rfl
    | none => rfl
  | device j =>
    refine .inl ?_
    change (s.deviceStep j).managers m = _
    cases hd : s.devices j with
    | none => rw [deviceStep_of_none hd]
    | some d =>
      have hstep := device_step h.wired hd
      generalize s.deviceStep j = s' at hstep
      cases hstep with
      | invalid | unknown | find | connect | startUp | startDown | died | waits | signal | closed
        | finished => rfl
  | copier | arrive | close => exact .inl rfl

/-- Where the thread of a device with a session can be after its own step. -/
theorem deviceStep_left (h : s.Wired) {j m : ℕ} {d : DeviceThread} (hd : s.devices j = some d)
    (hm : d.shell = some m) : ∃ d', (s.deviceStep j).devices j = some d' ∧ d'.shell = some m ∧
      d'.phase.left ≤ d.phase.left ∧
      (d.phase = .copying ∧ s.relay.died j = false ∨ d'.phase.left ≤ d.phase.left - 1) := by
  have hlooking : d.phase ≠ .looking := by
    intro hphase
    have hnone := (h.named j d hd).shellless (.inl hphase)
    rw [hm] at hnone
    cases hnone
  have hset (s' : ShellBridge α) (phase : DevicePhase) (hphase : phase.left ≤ d.phase.left - 1) :
      ∃ d', (s'.setDevice j { d with phase }).devices j = some d' ∧ d'.shell = some m ∧
        d'.phase.left ≤ d.phase.left ∧
        (d.phase = .copying ∧ s.relay.died j = false ∨ d'.phase.left ≤ d.phase.left - 1) := by
    refine ⟨{ d with phase }, by rw [setDevice_devices, if_pos rfl], hm, ?_, .inr hphase⟩
    exact Nat.le_trans hphase (Nat.sub_le _ _)
  have hstep := device_step h hd
  generalize s.deviceStep j = s' at hstep
  cases hstep with
  | invalid hphase | unknown hphase | find hphase => exact (hlooking hphase).elim
  | connect hphase | startUp hphase | startDown hphase | died hphase | signal hphase
    | closed hphase =>
    refine hset _ _ ?_
    rw [hphase]
    decide
  | waits hphase hdied => exact ⟨d, hd, hm, Nat.le_refl _, .inl ⟨hphase, hdied⟩⟩
  | finished hphase =>
    refine ⟨d, hd, hm, Nat.le_refl _, .inr ?_⟩
    rcases hphase with hphase | hphase <;> simp [hphase, DevicePhase.left]

theorem deviceStep_of_ne (h : s.Wired) {j j' : ℕ} (hne : j ≠ j') :
    (s.deviceStep j').devices j = s.devices j := by
  cases hd : s.devices j' with
  | none => rw [deviceStep_of_none hd]
  | some d =>
    have hstep := device_step h hd
    generalize s.deviceStep j' = s' at hstep
    cases hstep with
    | invalid | unknown | find | connect | startUp | startDown | died | signal | closed =>
      rw [setDevice_devices, if_neg hne]
      try rfl
    | waits | finished => rfl

/-- No thread of a device moves but by its own step, and none is over at its start. -/
theorem device_next (h : s.Consistent) {event : ShellEvent α} {j : ℕ} (hother : event ≠ .device j) :
    (s.next event).devices j = s.devices j ∨
      s.devices j = none ∧ ∃ d, (s.next event).devices j = some d ∧ d.phase = .looking := by
  cases event with
  | openManager m macAddress uuid online =>
    refine .inl ?_
    change (s.openManager m macAddress uuid online).devices j = _
    unfold openManager
    cases s.managers m with
    | some phase => rfl
    | none =>
      dsimp only
      split <;> rfl
  | manager m sent =>
    refine .inl ?_
    change (s.managerStep m sent).devices j = _
    cases hm : s.managers m with
    | none => rw [managerStep_of_none sent hm]
    | some phase =>
      have hstep := manager_step h.registered sent hm
      generalize s.managerStep m sent = s' at hstep
      cases hstep with
      | told | waited | deviceGone | deviceThere | managerGone | managerThere | closed | finished => rfl
      | removed hshell hremove =>
        obtain ⟨s', hremove', -, -, -, -, -, hdevices⟩ := h.registered.remove hm hshell
        rw [hremove] at hremove'
        cases hremove'
        rw [setManager_devices, hdevices]
  | openDevice j' macAddress uuid =>
    change (s.openDevice j' macAddress uuid).devices j = _ ∨
      _ ∧ ∃ d, (s.openDevice j' macAddress uuid).devices j = _ ∧ _
    unfold openDevice
    cases hd' : s.devices j' with
    | some d' => exact .inl rfl
    | none =>
      dsimp only
      rw [setDevice_devices]
      by_cases hne : j = j'
      · subst hne
        rw [if_pos rfl]
        exact .inr ⟨hd', _, rfl, rfl⟩
      · rw [if_neg hne]
        exact .inl rfl
  | device j' =>
    have hne : j ≠ j' := by
      rintro rfl
      exact hother rfl
    exact .inl (deviceStep_of_ne h.wired hne)
  | copier | arrive | close => exact .inl rfl

theorem manager_next_of_some (h : s.Consistent) {event : ShellEvent α} {m : ℕ}
    {phase : ManagerPhase} (hm : s.managers m = some phase)
    (hother : ∀ sent, event ≠ .manager m sent) : (s.next event).managers m = some phase := by
  rcases manager_next h hother with hsame | ⟨hnone, -⟩
  · rw [hsame, hm]
  · rw [hm] at hnone
    cases hnone

theorem device_next_of_some (h : s.Consistent) {event : ShellEvent α} {j : ℕ} {d : DeviceThread}
    (hd : s.devices j = some d) (hother : event ≠ .device j) :
    (s.next event).devices j = some d := by
  rcases device_next h hother with hsame | ⟨hnone, -⟩
  · rw [hsame, hd]
  · rw [hd] at hnone
    cases hnone

theorem opened_next (h : s.Consistent) (event : ShellEvent α) {e : Endpoint} (hopened : s.Opened e) :
    (s.next event).Opened e := by
  cases e with
  | manager m =>
    obtain ⟨phase, hm⟩ := Option.ne_none_iff_exists'.mp hopened
    by_cases hown : ∃ sent, event = .manager m sent
    · obtain ⟨sent, rfl⟩ := hown
      have hstep := manager_step h.registered sent hm
      change (s.managerStep m sent).managers m ≠ none
      generalize s.managerStep m sent = s' at hstep
      cases hstep with
      | told | waited | deviceGone | deviceThere | managerGone | managerThere | removed | closed =>
        rw [setManager_managers, if_pos rfl]
        exact Option.some_ne_none _
      | finished => exact hopened
    · have hnext := manager_next_of_some h hm fun sent heq => hown ⟨sent, heq⟩
      exact fun hnone => Option.some_ne_none phase (hnext.symm.trans hnone)
  | device j =>
    obtain ⟨d, hd⟩ := Option.ne_none_iff_exists'.mp hopened
    by_cases hown : event = .device j
    · subst hown
      have hstep := device_step h.wired hd
      change (s.deviceStep j).devices j ≠ none
      generalize s.deviceStep j = s' at hstep
      cases hstep with
      | invalid | unknown | find | connect | startUp | startDown | died | signal | closed =>
        rw [setDevice_devices, if_pos rfl]
        exact Option.some_ne_none _
      | waits | finished => exact hopened
    · have hnext := device_next_of_some h hd hown
      exact fun hnone => Option.some_ne_none d (hnext.symm.trans hnone)

end Steps

/-- Threads that are over have closed their sockets. -/
structure Finished (s : ShellBridge α) : Prop where
  manager : ∀ m, s.managers m = some .finished → (s.relay.sockets (.manager m)).connected = false
  device : ∀ j d, s.devices j = some d → d.phase = .finished →
    (s.relay.sockets (.device j)).connected = false

/-- A device and the manager whose shell it has found. -/
structure Session (s : ShellBridge α) (j m : ℕ) : Prop where
  consistent : s.Consistent
  finished : s.Finished
  device : ∃ d, s.devices j = some d ∧ d.shell = some m

section Sessions

variable {s : ShellBridge α}

theorem connected_close (e : Endpoint) : ((s.relay.close e).sockets e).connected = false := by
  unfold Relay.close
  rw [Relay.setSocket_sockets, if_pos rfl]

theorem Finished.next (h : s.Finished) (hconsistent : s.Consistent) (event : ShellEvent α) :
    (s.next event).Finished := by
  have hkeep {e : Endpoint} (hopened : s.Opened e)
      (hclosed : (s.relay.sockets e).connected = false) :
      ((s.next event).relay.sockets e).connected = false :=
    (closed_next hconsistent event hopened hclosed).1
  refine ⟨fun m hover => ?_, fun j d hd hover => ?_⟩
  · have hold (hm : s.managers m = some .finished) :
        ((s.next event).relay.sockets (.manager m)).connected = false := by
      have hopened : s.Opened (.manager m) := fun hnone => by
        rw [hm] at hnone
        cases hnone
      exact hkeep hopened (h.manager m hm)
    by_cases hown : ∃ sent, event = .manager m sent
    · obtain ⟨sent, rfl⟩ := hown
      change (s.managerStep m sent).managers m = some .finished at hover
      cases hm : s.managers m with
      | none =>
        rw [managerStep_of_none sent hm, hm] at hover
        cases hover
      | some phase =>
        have hstep := manager_step hconsistent.registered sent hm
        change ((s.managerStep m sent).relay.sockets (.manager m)).connected = false
        generalize s.managerStep m sent = s' at hstep hover
        cases hstep with
        | told hphase | waited hphase =>
          rw [setManager_managers, if_pos rfl] at hover
          cases hover
          rcases hphase with hphase | hphase <;> cases hphase
        | deviceGone | deviceThere | managerGone | managerThere | removed =>
          rw [setManager_managers, if_pos rfl] at hover
          cases hover
        | closed => exact connected_close _
        | finished => exact h.manager m hm
    · rcases manager_next hconsistent fun sent heq => hown ⟨sent, heq⟩ with hsame | ⟨-, hnew⟩
      · exact hold (hsame.symm.trans hover)
      · exact (hnew hover).elim
  · have hold (hj : s.devices j = some d) :
        ((s.next event).relay.sockets (.device j)).connected = false := by
      have hopened : s.Opened (.device j) := fun hnone => by
        rw [hj] at hnone
        cases hnone
      exact hkeep hopened (h.device j d hj hover)
    by_cases hown : event = .device j
    · subst hown
      change (s.deviceStep j).devices j = some d at hd
      cases hj : s.devices j with
      | none =>
        rw [deviceStep_of_none hj, hj] at hd
        cases hd
      | some d' =>
        have hstep := device_step hconsistent.wired hj
        change ((s.deviceStep j).relay.sockets (.device j)).connected = false
        generalize s.deviceStep j = s' at hstep hd
        cases hstep with
        | invalid | unknown | find | connect | startUp | startDown | died | signal =>
          rw [setDevice_devices, if_pos rfl] at hd
          cases hd
          cases hover
        | closed => exact connected_close _
        | waits hphase =>
          rw [hj] at hd
          cases hd
          rw [hover] at hphase
          cases hphase
        | finished =>
          rw [hj] at hd
          cases hd
          exact h.device j d hj hover
    · rcases device_next hconsistent hown with hsame | ⟨-, d', hd', hlooking⟩
      · exact hold (hsame.symm.trans hd)
      · rw [hd] at hd'
        cases hd'
        rw [hover] at hlooking
        cases hlooking

theorem finished_init : (init : ShellBridge α).Finished := ⟨nofun, nofun⟩

/-- The steps that the thread of the device has left. -/
def deviceLeft (s : ShellBridge α) (j : ℕ) : ℕ := (s.devices j).elim 0 fun d => d.phase.left

def managerLeft (s : ShellBridge α) (m : ℕ) : ℕ := (s.managers m).elim 0 ManagerPhase.left

namespace Session

variable {j m : ℕ}

theorem next (h : s.Session j m) {event : ShellEvent α} (hfresh : s.Fresh event) :
    (s.next event).Session j m ∧ (s.next event).deviceLeft j ≤ s.deviceLeft j ∧
      (event = .device j → (3 < s.deviceLeft j ∨ s.relay.died j = true) →
        (s.next event).deviceLeft j ≤ s.deviceLeft j - 1) := by
  obtain ⟨d, hd, hm⟩ := h.device
  have hleft : s.deviceLeft j = d.phase.left := by
    unfold deviceLeft
    rw [hd]
    rfl
  have hsession (hdevice : ∃ d, (s.next event).devices j = some d ∧ d.shell = some m) :
      (s.next event).Session j m :=
    ⟨h.consistent.next hfresh, h.finished.next h.consistent event, hdevice⟩
  by_cases hown : event = .device j
  · subst hown
    obtain ⟨d', hd', hm', hle, hlt⟩ := deviceStep_left h.consistent.wired hd hm
    have hleft' : (s.next (.device j)).deviceLeft j = d'.phase.left := by
      change ((s.deviceStep j).devices j).elim 0 _ = _
      rw [hd']
      rfl
    rw [hleft, hleft']
    refine ⟨hsession ⟨d', hd', hm'⟩, hle, fun _ hcase => ?_⟩
    rcases hlt with ⟨hphase, hdied⟩ | hlt
    · rcases hcase with hcase | hcase
      · rw [hphase] at hcase
        exact absurd hcase (by decide)
      · rw [hdied] at hcase
        cases hcase
    · exact hlt
  · have hd' := device_next_of_some h.consistent hd hown
    have hleft' : (s.next event).deviceLeft j = d.phase.left := by
      unfold deviceLeft
      rw [hd']
      rfl
    rw [hleft, hleft']
    exact ⟨hsession ⟨d, hd', hm⟩, Nat.le_refl _, fun heq => (hown heq).elim⟩

theorem deviceLeft_le (h : s.Session j m) : s.deviceLeft j ≤ 6 := by
  obtain ⟨d, hd, hm⟩ := h.device
  have hnamed := h.consistent.wired.named j d hd
  unfold deviceLeft
  rw [hd]
  change d.phase.left ≤ 6
  cases hphase : d.phase with
  | looking =>
    rw [hnamed.shellless (.inl hphase)] at hm
    cases hm
  | found | first | second | copying | dying | closing | finished | failed => decide

/-- The thread of the manager is there. -/
theorem manager (h : s.Session j m) : ∃ phase shell, s.managers m = some phase ∧
    s.shells m = some shell := by
  obtain ⟨d, hd, hm⟩ := h.device
  obtain ⟨shell, hshell, -⟩ := (h.consistent.wired.named j d hd).shell m hm
  obtain ⟨phase, hphase⟩ := Option.ne_none_iff_exists'.mp (h.consistent.registered.made m shell hshell)
  exact ⟨phase, shell, hphase, hshell⟩

/-- Both sockets are there. -/
theorem opened (h : s.Session j m) (direction : Direction) : s.Opened (direction.source j m) := by
  obtain ⟨d, hd, -⟩ := h.device
  obtain ⟨phase, -, hphase, -⟩ := h.manager
  cases direction with
  | up =>
    intro hnone
    rw [hd] at hnone
    cases hnone
  | down =>
    intro hnone
    rw [hphase] at hnone
    cases hnone

/-- The copiers are there, once the device has started them. -/
theorem copier (h : s.Session j m) (hstarted : s.deviceLeft j ≤ 3) (direction : Direction) :
    ∃ k, s.relay.copiers (j, direction) = some k ∧ k.source = direction.source j m := by
  obtain ⟨d, hd, hm⟩ := h.device
  have hnamed := h.consistent.wired.named j d hd
  have hphase : d.phase.started direction = true := by
    unfold deviceLeft at hstarted
    rw [hd] at hstarted
    change d.phase.left ≤ 3 at hstarted
    cases hphase : d.phase with
    | looking | found | first | second =>
      rw [hphase] at hstarted
      exact absurd hstarted (by decide)
    | copying | dying | closing | finished => cases direction <;> rfl
    | failed =>
      rw [hnamed.shellless (.inr hphase)] at hm
      cases hm
  have hwires := h.consistent.wired.wires j direction
  rw [hd, Option.bind_some, DeviceThread.wires, hm, Option.bind_some, if_pos hphase] at hwires
  obtain ⟨k, hk, hsource, -⟩ := Relay.exists_copier_of_wires hwires
  exact ⟨k, hk, hsource⟩

/-- Once the device has gone, its thread has signalled that. -/
theorem gone (h : s.Session j m) (hgone : s.deviceLeft j = 0) : ∃ d shell, s.devices j = some d ∧
    d.phase = .finished ∧ s.shells m = some shell ∧ shell.deviceConnectionClosed = true := by
  obtain ⟨d, hd, hm⟩ := h.device
  have hnamed := h.consistent.wired.named j d hd
  have hphase : d.phase = .finished := by
    unfold deviceLeft at hgone
    rw [hd] at hgone
    change d.phase.left = 0 at hgone
    cases hphase : d.phase with
    | looking | found | first | second | copying | dying | closing =>
      rw [hphase] at hgone
      cases hgone
    | finished => rfl
    | failed =>
      rw [hnamed.shellless (.inr hphase)] at hm
      cases hm
  obtain ⟨shell, hshell, -⟩ := hnamed.shell m hm
  exact ⟨d, shell, hd, hphase, hshell, hnamed.signalled (.inr hphase) m shell hm hshell⟩

end Session

section Stages

variable {j m : ℕ} {events : List (ShellEvent α)}

/-- Whether the event is a step of this thread. -/
def isDevice (j : ℕ) : ShellEvent α → Bool
  | .device j' => j' = j
  | _ => false

def isManager (m : ℕ) : ShellEvent α → Bool
  | .manager m' _ => m' = m
  | _ => false

def isCopier (j : ℕ) (direction : Direction) : ShellEvent α → Bool
  | .copier j' direction' => j' = j ∧ direction' = direction
  | _ => false

theorem eq_of_isDevice {event : ShellEvent α} (h : isDevice j event = true) : event = .device j := by
  cases event with
  | device j' => rw [of_decide_eq_true h]
  | openManager | manager | openDevice | copier | arrive | close => cases h

theorem eq_of_isManager {event : ShellEvent α} (h : isManager m event = true) :
    ∃ sent, event = .manager m sent := by
  cases event with
  | manager m' sent =>
    rw [of_decide_eq_true h]
    exact ⟨sent, rfl⟩
  | openManager | device | openDevice | copier | arrive | close => cases h

theorem eq_of_isCopier {direction : Direction} {event : ShellEvent α}
    (h : isCopier j direction event = true) : event = .copier j direction := by
  cases event with
  | copier j' direction' =>
    obtain ⟨rfl, rfl⟩ := of_decide_eq_true h
    rfl
  | openManager | device | openDevice | manager | arrive | close => cases h

theorem Session.run (h : s.Session j m) (hrun : Along ShellBridge.next Fresh s events) :
    (events.foldl ShellBridge.next s).Session j m := by
  have hstep (s : ShellBridge α) (event : ShellEvent α) (h : s.Session j m) (hfresh : s.Fresh event) :
      (s.next event).Session j m := (h.next hfresh).1
  exact Along.foldl_invariant hstep h hrun

/-- The device starts its copiers. -/
theorem Session.starts (h : s.Session j m) (hrun : Along ShellBridge.next Fresh s events)
    (hcount : 3 ≤ events.countP (isDevice j)) :
    (events.foldl ShellBridge.next s).deviceLeft j ≤ 3 := by
  have hstep (s : ShellBridge α) (event : ShellEvent α) (h : s.Session j m) (hfresh : s.Fresh event) :
      (s.next event).Session j m ∧ (s.next event).deviceLeft j - 3 ≤ s.deviceLeft j - 3 := by
    obtain ⟨hnext, hle, -⟩ := h.next hfresh
    exact ⟨hnext, Nat.sub_le_sub_right hle 3⟩
  have hown (s : ShellBridge α) (event : ShellEvent α) (h : s.Session j m) (hfresh : s.Fresh event)
      (hown : isDevice j event = true) :
      (s.next event).deviceLeft j - 3 ≤ s.deviceLeft j - 3 - 1 := by
    obtain ⟨-, hle, hlt⟩ := h.next hfresh
    by_cases hstarted : 3 < s.deviceLeft j
    · have := hlt (eq_of_isDevice hown) (.inl hstarted)
      omega
    · omega
  have hmeasure := Along.foldl_measure (fun s : ShellBridge α => s.deviceLeft j - 3) (isDevice j)
    hstep hown h hrun
  have := h.deviceLeft_le
  omega

/-- A copier that has started. -/
structure Copying (s : ShellBridge α) (j m : ℕ) : Prop where
  session : s.Session j m
  started : s.deviceLeft j ≤ 3

theorem Copying.next (h : s.Copying j m) {event : ShellEvent α} (hfresh : s.Fresh event) :
    (s.next event).Copying j m := by
  obtain ⟨hnext, hle, -⟩ := h.session.next hfresh
  exact ⟨hnext, Nat.le_trans hle h.started⟩

/-- No copier moves but by its own step. -/
theorem Copying.copier_next (h : s.Copying j m) {event : ShellEvent α} {direction : Direction}
    (hother : event ≠ .copier j direction) :
    (s.next event).relay.copiers (j, direction) = s.relay.copiers (j, direction) := by
  have hstep := relay_step h.session.consistent event
  generalize (s.next event).relay = relay at hstep
  cases hstep with
  | same | connect | close => rfl
  | arrive e x => rw [Relay.arrive_copiers]
  | start source destination hnone =>
    unfold Relay.start
    rw [Relay.setPhase_copiers, if_neg]
    rintro rfl
    obtain ⟨k, hk, -⟩ := h.session.copier h.started direction
    rw [Relay.copiers_eq_none_of_wires hnone] at hk
    cases hk
  | @copy j' direction' heq =>
    refine Relay.copy_copiers_of_ne _ fun hsame => hother ?_
    cases hsame
    exact heq

/-- The copier from the closed socket ends. -/
theorem Copying.dies (h : s.Copying j m) {direction : Direction}
    (hclosed : (s.relay.sockets (direction.source j m)).connected = false)
    (hrun : Along ShellBridge.next Fresh s events)
    (hcount : 3 + 3 * (s.relay.sockets (direction.source j m)).input.length ≤
      events.countP (isCopier j direction)) :
    (events.foldl ShellBridge.next s).relay.died j = true := by
  have hinv (s : ShellBridge α) (event : ShellEvent α)
      (h : s.Copying j m ∧ (s.relay.sockets (direction.source j m)).connected = false)
      (hfresh : s.Fresh event) : (s.next event).Copying j m ∧
        ((s.next event).relay.sockets (direction.source j m)).connected = false :=
    ⟨h.1.next hfresh, (closed_next h.1.session.consistent event (h.1.session.opened _) h.2).1⟩
  have hown (s : ShellBridge α) (event : ShellEvent α)
      (h : s.Copying j m ∧ (s.relay.sockets (direction.source j m)).connected = false)
      (_ : s.Fresh event) (hown : isCopier j direction event = true) :
      (s.next event).relay.work (j, direction) ≤ s.relay.work (j, direction) - 1 := by
    obtain ⟨k, hk, hsource⟩ := h.1.session.copier h.1.started direction
    rw [eq_of_isCopier hown]
    refine Relay.work_copy hk ?_
    rw [hsource]
    exact h.2
  have hstep (s : ShellBridge α) (event : ShellEvent α)
      (h : s.Copying j m ∧ (s.relay.sockets (direction.source j m)).connected = false)
      (hfresh : s.Fresh event) :
      ((s.next event).Copying j m ∧
        ((s.next event).relay.sockets (direction.source j m)).connected = false) ∧
      (s.next event).relay.work (j, direction) ≤ s.relay.work (j, direction) := by
    refine ⟨hinv s event h hfresh, ?_⟩
    by_cases hevent : event = .copier j direction
    · have := hown s event h hfresh (by rw [hevent]; simp [isCopier])
      omega
    · refine Relay.work_le (h.1.copier_next hevent) fun k hk => ?_
      obtain ⟨k', hk', hsource⟩ := h.1.session.copier h.1.started direction
      rw [hk] at hk'
      cases hk'
      rw [hsource]
      exact (closed_next h.1.session.consistent event (h.1.session.opened _) h.2).2
  have hmeasure := Along.foldl_measure (fun s : ShellBridge α => s.relay.work (j, direction))
    (isCopier j direction) hstep hown ⟨h, hclosed⟩ hrun
  obtain ⟨hlast, -⟩ := Along.foldl_invariant hinv ⟨h, hclosed⟩ hrun
  obtain ⟨k, hk, hsource⟩ := h.session.copier h.started direction
  have hwork := Relay.work_le_input hk
  rw [hsource] at hwork
  obtain ⟨k', hk', -⟩ := hlast.session.copier hlast.started direction
  obtain ⟨dropped, hended⟩ := Relay.ended_of_work_eq_zero hk' (by omega)
  exact hlast.session.consistent.wired.flagged (j, direction) k' dropped hk' hended

/-- A session with a dead connection. -/
structure Dying (s : ShellBridge α) (j m : ℕ) : Prop where
  copying : s.Copying j m
  died : s.relay.died j = true

theorem Dying.next (h : s.Dying j m) {event : ShellEvent α} (hfresh : s.Fresh event) :
    (s.next event).Dying j m :=
  ⟨h.copying.next hfresh, died_next h.copying.session.consistent event h.died⟩

theorem Dying.run (h : s.Dying j m) (hrun : Along ShellBridge.next Fresh s events) :
    (events.foldl ShellBridge.next s).Dying j m := by
  have hstep (s : ShellBridge α) (event : ShellEvent α) (h : s.Dying j m) (hfresh : s.Fresh event) :
      (s.next event).Dying j m := h.next hfresh
  exact Along.foldl_invariant hstep h hrun

/-- The copiers of a dead connection end. -/
theorem Dying.copier_ends (h : s.Dying j m) (direction : Direction)
    (hrun : Along ShellBridge.next Fresh s events)
    (hcount : 3 ≤ events.countP (isCopier j direction)) :
    ∃ k dropped, (events.foldl ShellBridge.next s).relay.copiers (j, direction) = some k ∧
      k.phase = .ended dropped := by
  have hown (s : ShellBridge α) (event : ShellEvent α) (h : s.Dying j m) (_ : s.Fresh event)
      (hown : isCopier j direction event = true) :
      (s.next event).relay.rest (j, direction) ≤ s.relay.rest (j, direction) - 1 := by
    rw [eq_of_isCopier hown]
    exact Relay.rest_copy h.died
  have hstep (s : ShellBridge α) (event : ShellEvent α) (h : s.Dying j m) (hfresh : s.Fresh event) :
      (s.next event).Dying j m ∧
        (s.next event).relay.rest (j, direction) ≤ s.relay.rest (j, direction) := by
    refine ⟨h.next hfresh, ?_⟩
    by_cases hevent : event = .copier j direction
    · have := hown s event h hfresh (by rw [hevent]; simp [isCopier])
      omega
    · exact Nat.le_of_eq (Relay.rest_congr (h.copying.copier_next hevent))
  have hmeasure := Along.foldl_measure (fun s : ShellBridge α => s.relay.rest (j, direction))
    (isCopier j direction) hstep hown h hrun
  have hlast := (h.run hrun).copying
  have hrest := s.relay.rest_le (j, direction)
  obtain ⟨k, hk, -⟩ := hlast.session.copier hlast.started direction
  obtain ⟨dropped, hended⟩ := Relay.ended_of_rest_eq_zero hk (by omega)
  exact ⟨k, dropped, hk, hended⟩

/-- The thread of the device ends. -/
theorem Dying.device_ends (h : s.Dying j m) (hrun : Along ShellBridge.next Fresh s events)
    (hcount : 3 ≤ events.countP (isDevice j)) :
    (events.foldl ShellBridge.next s).deviceLeft j = 0 := by
  have hstep (s : ShellBridge α) (event : ShellEvent α) (h : s.Dying j m) (hfresh : s.Fresh event) :
      (s.next event).Dying j m ∧ (s.next event).deviceLeft j ≤ s.deviceLeft j :=
    ⟨h.next hfresh, (h.copying.session.next hfresh).2.1⟩
  have hown (s : ShellBridge α) (event : ShellEvent α) (h : s.Dying j m) (hfresh : s.Fresh event)
      (hown : isDevice j event = true) : (s.next event).deviceLeft j ≤ s.deviceLeft j - 1 :=
    (h.copying.session.next hfresh).2.2 (eq_of_isDevice hown) (.inr h.died)
  have hmeasure := Along.foldl_measure (fun s : ShellBridge α => s.deviceLeft j) (isDevice j)
    hstep hown h hrun
  have := h.copying.started
  omega

/-- A session whose device has gone. -/
structure Gone (s : ShellBridge α) (j m : ℕ) : Prop where
  session : s.Session j m
  gone : s.deviceLeft j = 0

theorem Gone.next (h : s.Gone j m) {event : ShellEvent α} (hfresh : s.Fresh event) :
    (s.next event).Gone j m := by
  obtain ⟨hnext, hle, -⟩ := h.session.next hfresh
  exact ⟨hnext, Nat.eq_zero_of_le_zero (by rw [← h.gone]; exact hle)⟩

/-- The thread of the manager ends. -/
theorem Gone.manager_ends (h : s.Gone j m) (hrun : Along ShellBridge.next Fresh s events)
    (hcount : 6 ≤ events.countP (isManager m)) :
    (events.foldl ShellBridge.next s).managers m = some .finished := by
  have hmove (s : ShellBridge α) (event : ShellEvent α) (h : s.Gone j m) :
      (s.next event).managerLeft m ≤ s.managerLeft m ∧
        (isManager m event = true → (s.next event).managerLeft m ≤ s.managerLeft m - 1) := by
    obtain ⟨d, shell, -, -, hshell, hsignalled⟩ := h.session.gone h.gone
    obtain ⟨phase, -, hphase, -⟩ := h.session.manager
    have hleft : s.managerLeft m = phase.left := by
      unfold managerLeft
      rw [hphase]
      rfl
    rw [hleft]
    by_cases hown : isManager m event = true
    · obtain ⟨sent, rfl⟩ := eq_of_isManager hown
      obtain ⟨phase', hphase', hlt⟩ :=
        managerStep_left h.session.consistent.registered sent hphase hshell hsignalled
      have hleft' : (s.next (.manager m sent)).managerLeft m = phase'.left := by
        change ((s.managerStep m sent).managers m).elim 0 _ = _
        rw [hphase']
        rfl
      rw [hleft']
      exact ⟨Nat.le_trans hlt (Nat.sub_le _ _), fun _ => hlt⟩
    · have hphase' : (s.next event).managers m = some phase :=
        manager_next_of_some h.session.consistent hphase fun sent heq =>
          hown (by rw [heq]; exact decide_eq_true rfl)
      have hleft' : (s.next event).managerLeft m = phase.left := by
        unfold managerLeft
        rw [hphase']
        rfl
      rw [hleft']
      exact ⟨Nat.le_refl _, fun heq => (hown heq).elim⟩
  have hstep (s : ShellBridge α) (event : ShellEvent α) (h : s.Gone j m) (hfresh : s.Fresh event) :
      (s.next event).Gone j m ∧ (s.next event).managerLeft m ≤ s.managerLeft m :=
    ⟨h.next hfresh, (hmove s event h).1⟩
  have hown (s : ShellBridge α) (event : ShellEvent α) (h : s.Gone j m) (_ : s.Fresh event)
      (hown : isManager m event = true) : (s.next event).managerLeft m ≤ s.managerLeft m - 1 :=
    (hmove s event h).2 hown
  have hmeasure := Along.foldl_measure (fun s : ShellBridge α => s.managerLeft m) (isManager m)
    hstep hown h hrun
  have hlast := h.session.run hrun
  obtain ⟨phase, -, hphase, -⟩ := h.session.manager
  obtain ⟨phase', -, hphase', -⟩ := hlast.manager
  have hbound : s.managerLeft m ≤ 6 := by
    unfold managerLeft
    rw [hphase]
    change phase.left ≤ 6
    cases phase <;> decide
  have hzero : phase'.left = 0 := by
    have hle : (events.foldl ShellBridge.next s).managerLeft m = 0 := by
      omega
    unfold managerLeft at hle
    rw [hphase'] at hle
    exact hle
  cases phase' with
  | created | waiting | attached | checking | leaving | closing => cases hzero
  | finished => exact hphase'
  | failed => exact (hlast.consistent.registered.noneFailed m hphase').elim

end Stages

end Sessions

/-- Each thread of the session takes `n` steps. -/
structure Busy (n j m : ℕ) (events : List (ShellEvent α)) : Prop where
  device : n ≤ events.countP (isDevice j)
  manager : n ≤ events.countP (isManager m)
  copier : ∀ direction, n ≤ events.countP (isCopier j direction)

theorem session_of_run {events : List (ShellEvent α)} (hrun : Along next Fresh init events) {j m : ℕ}
    {d : DeviceThread} (hd : (events.foldl next init).devices j = some d) (hm : d.shell = some m) :
    (events.foldl next init).Session j m := by
  have hstep (s : ShellBridge α) (event : ShellEvent α) (h : s.Consistent ∧ s.Finished)
      (hfresh : s.Fresh event) : (s.next event).Consistent ∧ (s.next event).Finished :=
    ⟨h.1.next hfresh, h.2.next h.1 event⟩
  obtain ⟨hconsistent, hfinished⟩ :=
    Along.foldl_invariant hstep ⟨consistent_init, finished_init⟩ hrun
  exact ⟨hconsistent, hfinished, d, hd, hm⟩

/-- When a socket of a session is closed, everything comes to its end: in four rounds in which each
thread of the session takes `n` steps, for the items that still wait at the socket, all threads end,
both sockets are closed, and the session is not in the registry any more. -/
theorem session_ends {before : List (ShellEvent α)} (hrun : Along next Fresh init before) {j m : ℕ}
    {d : DeviceThread} (hd : (before.foldl next init).devices j = some d) (hm : d.shell = some m)
    {direction : Direction}
    (hclosed : ((before.foldl next init).relay.sockets (direction.source j m)).connected = false)
    {n : ℕ} (hn : 6 ≤ n) (hwaiting : 3 + 3 *
      ((before.foldl next init).relay.sockets (direction.source j m)).input.length ≤ n)
    {round₀ round₁ round₂ round₃ : List (ShellEvent α)}
    (hfresh : Along next Fresh (before.foldl next init) (round₀ ++ (round₁ ++ (round₂ ++ round₃))))
    (h₀ : Busy n j m round₀) (h₁ : Busy n j m round₁) (h₂ : Busy n j m round₂)
    (h₃ : Busy n j m round₃) :
    let s := (round₀ ++ (round₁ ++ (round₂ ++ round₃))).foldl next (before.foldl next init)
    s.managers m = some .finished ∧ (∃ d, s.devices j = some d ∧ d.phase = .finished) ∧
    (∀ direction, ∃ k dropped, s.relay.copiers (j, direction) = some k ∧ k.phase = .ended dropped) ∧
    (∀ direction : Direction, (s.relay.sockets (direction.source j m)).connected = false) ∧
    ∀ shell, s.shells m = some shell → s.sessions shell.key = none := by
  have hsession := session_of_run hrun hd hm
  generalize before.foldl next init = s₀ at *
  intro s
  obtain ⟨hrun₀, hfresh⟩ := Along.append_iff.mp hfresh
  obtain ⟨hrun₁, hfresh₂₃⟩ := Along.append_iff.mp hfresh
  obtain ⟨hrun₂, hrun₃⟩ := Along.append_iff.mp hfresh₂₃
  have hs : s = (round₂ ++ round₃).foldl next
      (round₁.foldl next (round₀.foldl next s₀)) := by
    change List.foldl next s₀ _ = _
    rw [List.foldl_append, List.foldl_append]
  -- the first round starts the copiers, and the closed socket keeps no more than it had
  have hcopying : (round₀.foldl next s₀).Copying j m :=
    ⟨hsession.run hrun₀, hsession.starts hrun₀ (Nat.le_trans (by omega) h₀.device)⟩
  have hkeep (s : ShellBridge α) (event : ShellEvent α)
      (h : s.Session j m ∧ (s.relay.sockets (direction.source j m)).connected = false ∧
        3 + 3 * (s.relay.sockets (direction.source j m)).input.length ≤ n)
      (hfresh : s.Fresh event) :
      (s.next event).Session j m ∧
        ((s.next event).relay.sockets (direction.source j m)).connected = false ∧
        3 + 3 * ((s.next event).relay.sockets (direction.source j m)).input.length ≤ n := by
    obtain ⟨hclosed', hinput⟩ := closed_next h.1.consistent event (h.1.opened direction) h.2.1
    exact ⟨(h.1.next hfresh).1, hclosed', by have := h.2.2; omega⟩
  obtain ⟨-, hclosed₁, hwaiting₁⟩ :=
    Along.foldl_invariant hkeep ⟨hsession, hclosed, hwaiting⟩ hrun₀
  -- the second one empties it, the third ends the device, the fourth the manager
  have hdying : (round₁.foldl next (round₀.foldl next s₀)).Dying j m := by
    refine ⟨⟨hcopying.session.run hrun₁, ?_⟩,
      hcopying.dies hclosed₁ hrun₁ (Nat.le_trans hwaiting₁ (h₁.copier direction))⟩
    have hstep (s : ShellBridge α) (event : ShellEvent α) (h : s.Copying j m)
        (hfresh : s.Fresh event) : (s.next event).Copying j m := h.next hfresh
    exact (Along.foldl_invariant hstep hcopying hrun₁).started
  have hgone : (round₂.foldl next (round₁.foldl next (round₀.foldl next s₀))).Gone j m :=
    ⟨hdying.copying.session.run hrun₂,
      hdying.device_ends hrun₂ (Nat.le_trans (by omega) h₂.device)⟩
  have hmanager : s.managers m = some .finished := by
    rw [hs, List.foldl_append]
    exact hgone.manager_ends hrun₃ (Nat.le_trans hn h₃.manager)
  have hlast : s.Session j m := by
    rw [hs]
    exact (hdying.run hfresh₂₃).copying.session
  have hleft : s.deviceLeft j = 0 := by
    rw [hs]
    refine hdying.device_ends hfresh₂₃ ?_
    rw [List.countP_append]
    have := h₂.device
    omega
  obtain ⟨d', shell, hd', hover, hshell, -⟩ := hlast.gone hleft
  refine ⟨hmanager, ⟨d', hd', hover⟩, fun direction => ?_, fun direction => ?_, fun shell' hshell' => ?_⟩
  · rw [hs]
    refine hdying.copier_ends direction hfresh₂₃ ?_
    rw [List.countP_append]
    have := h₂.copier direction
    omega
  · cases direction with
    | up => exact hlast.finished.device j d' hd' hover
    | down => exact hlast.finished.manager m hmanager
  · rw [Option.eq_none_iff_forall_ne_some]
    intro m' hentry
    obtain ⟨sh, phase, hsh, hkey, hphase, hlive⟩ := hlast.consistent.registered.entry _ m' hentry
    have heq := hlast.consistent.registered.unique m' m sh shell' hsh hshell'
      (formatShellKey_inj hkey).2
    rw [heq, hmanager] at hphase
    cases hphase
    cases hlive

/-- The device sends another item and closes its socket. -/
def parting : List (ShellEvent Char) := meeting ++ [.arrive (.device 0) 'x', .close (.device 0)]

/-- A round in which each thread of the session of the device 0 takes eight steps. -/
def busyRound : List (ShellEvent Char) :=
  List.replicate 8 (.device 0) ++ List.replicate 8 (.manager 0 true) ++
    (List.replicate 8 (.copier 0 .up) ++ List.replicate 8 (.copier 0 .down))

theorem busy_busyRound : Busy 8 0 0 busyRound :=
  ⟨by decide, by decide, fun direction => by cases direction <;> decide⟩

theorem fresh_busyRound {s : ShellBridge Char} : Along next Fresh s busyRound :=
  Along.of_forall fun event hevent s => by
    simp only [busyRound, List.mem_append, List.mem_replicate] at hevent
    rcases hevent with (⟨-, rfl⟩ | ⟨-, rfl⟩) | ⟨-, rfl⟩ | ⟨-, rfl⟩ <;> trivial

theorem session_ends_parting :
    (((busyRound ++ (busyRound ++ (busyRound ++ busyRound)))).foldl next
      (parting.foldl next init)).managers 0 = some .finished := by
  have hrun : Along next Fresh init parting :=
    Along.append_iff.mpr ⟨fresh_meeting, trivial, trivial, trivial⟩
  have hclosed : ((parting.foldl next init).relay.sockets (Direction.up.source 0 0)).connected =
      false := rfl
  refine (session_ends hrun rfl rfl hclosed (by decide) (by decide) ?_ busy_busyRound busy_busyRound
    busy_busyRound busy_busyRound).1
  exact Along.append_iff.mpr ⟨fresh_busyRound, Along.append_iff.mpr ⟨fresh_busyRound,
    Along.append_iff.mpr ⟨fresh_busyRound, fresh_busyRound⟩⟩⟩

end ShellBridge

end Rdfm.Server
