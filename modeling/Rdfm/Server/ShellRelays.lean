import Rdfm.Server.ShellBridge

/-!
# What goes through a reverse shell

A device that has found a shell is at the one that it names, and between it and the manager nothing is
lost, doubled or mixed up but the one item that a copier holds when it ends. The registry of the
sessions is exact.
-/

namespace Rdfm.Server

open Rdfm.Lib

variable {α : Type*}

namespace ShellBridge

section Relayed

variable {s : ShellBridge α}

/-- The copier of a device, in either direction. -/
theorem Wired.copier (h : s.Wired) {j : ℕ} {direction : Direction} {k : Copier Endpoint α}
    (hk : s.relay.copiers (j, direction) = some k) :
    ∃ d m, s.devices j = some d ∧ d.shell = some m ∧ k.source = direction.source j m ∧
      k.destination = direction.destination j m := by
  obtain ⟨d, m, hd, hm, -, hsource, hdestination⟩ := h.wire (congrArg (Option.map _) hk)
  exact ⟨d, m, hd, hm, hsource, hdestination⟩

/-- The socket of a device is the source of its own upward copier only. -/
theorem Wired.source_device (h : s.Wired) {c : ℕ × Direction} {k : Copier Endpoint α}
    (hk : s.relay.copiers c = some k) {j : ℕ} (hsource : k.source = .device j) : c = (j, .up) := by
  rcases c with ⟨j', direction⟩
  obtain ⟨d, m, -, -, hsource', -⟩ := h.copier hk
  rw [hsource] at hsource'
  cases direction with
  | up =>
    cases hsource'
    rfl
  | down => cases hsource'

theorem Wired.destination_device (h : s.Wired) {c : ℕ × Direction} {k : Copier Endpoint α}
    (hk : s.relay.copiers c = some k) {j : ℕ} (hdestination : k.destination = .device j) :
    c = (j, .down) := by
  rcases c with ⟨j', direction⟩
  obtain ⟨d, m, -, -, -, hdestination'⟩ := h.copier hk
  rw [hdestination] at hdestination'
  cases direction with
  | up => cases hdestination'
  | down =>
    cases hdestination'
    rfl

/-- The socket of a manager is the source of downward copiers to its own devices. -/
theorem Wired.source_manager (h : s.Wired) {c : ℕ × Direction} {k : Copier Endpoint α}
    (hk : s.relay.copiers c = some k) {m : ℕ} (hsource : k.source = .manager m) :
    c.2 = .down ∧ ∃ d, s.devices c.1 = some d ∧ d.shell = some m := by
  rcases c with ⟨j, direction⟩
  obtain ⟨d, m', hd, hm', hsource', -⟩ := h.copier hk
  rw [hsource] at hsource'
  cases direction with
  | up => cases hsource'
  | down =>
    cases hsource'
    exact ⟨rfl, d, hd, hm'⟩

theorem Wired.destination_manager (h : s.Wired) {c : ℕ × Direction} {k : Copier Endpoint α}
    (hk : s.relay.copiers c = some k) {m : ℕ} (hdestination : k.destination = .manager m) :
    c.2 = .up ∧ ∃ d, s.devices c.1 = some d ∧ d.shell = some m := by
  rcases c with ⟨j, direction⟩
  obtain ⟨d, m', hd, hm', -, hdestination'⟩ := h.copier hk
  rw [hdestination] at hdestination'
  cases direction with
  | up =>
    cases hdestination'
    exact ⟨rfl, d, hd, hm'⟩
  | down => cases hdestination'

/-- What a device sends goes to its manager in order, but for one item in the copier's hand. -/
theorem Wired.upward (h : s.Wired) {j m : ℕ} {d : DeviceThread} (hd : s.devices j = some d)
    (hm : d.shell = some m) : ∃ held, held.length ≤ 1 ∧
      (s.relay.sockets (.device j)).arrived =
        Relay.tagged (j, .up) (s.relay.sockets (.manager m)).sent ++ held ++
          (s.relay.sockets (.device j)).input := by
  cases hk : s.relay.copiers (j, .up) with
  | none =>
    refine ⟨[], Nat.zero_le _, ?_⟩
    rw [(h.conserves.tagged_of_none hk _).2, h.conserves.arrived_eq_input fun c k hc hsource => ?_]
    · rfl
    · rw [h.source_device hc hsource, hk] at hc
      cases hc
  | some k =>
    obtain ⟨d', m', hd', hm', hsource, hdestination⟩ := h.copier hk
    rw [hd] at hd'
    cases hd'
    rw [hm] at hm'
    cases hm'
    refine ⟨k.phase.held, k.phase.held_length, ?_⟩
    have harrived := h.conserves.arrived_eq hk fun c k' hc hc' =>
      h.source_device hc (hc'.trans hsource)
    rw [hsource, hdestination] at harrived
    exact harrived

/-- What the copier of a device takes from its manager goes to the device in order. -/
theorem Wired.downward (h : s.Wired) {j m : ℕ} {d : DeviceThread} (hd : s.devices j = some d)
    (hm : d.shell = some m) : ∃ held, held.length ≤ 1 ∧
      Relay.tagged (j, .down) (s.relay.sockets (.manager m)).taken =
        (s.relay.sockets (.device j)).sent.map Prod.snd ++ held := by
  have hsent : (s.relay.sockets (.device j)).sent.map Prod.snd =
      Relay.tagged (j, .down) (s.relay.sockets (.device j)).sent :=
    h.conserves.sent_eq_map fun c k hk hdestination => h.destination_device hk hdestination
  rw [hsent]
  cases hk : s.relay.copiers (j, .down) with
  | none =>
    refine ⟨[], Nat.zero_le _, ?_⟩
    rw [(h.conserves.tagged_of_none hk _).1, (h.conserves.tagged_of_none hk _).2]
    rfl
  | some k =>
    obtain ⟨d', m', hd', hm', hsource, hdestination⟩ := h.copier hk
    rw [hd] at hd'
    cases hd'
    rw [hm] at hm'
    cases hm'
    refine ⟨k.phase.held, k.phase.held_length, ?_⟩
    have htaken := h.conserves.taken (j, .down) k hk
    rw [hsource, hdestination] at htaken
    exact htaken

/-- The devices of a manager share what it sends and what it gets among themselves. -/
theorem Wired.among_devices (h : s.Wired) {m : ℕ} {p : (ℕ × Direction) × α} :
    (p ∈ (s.relay.sockets (.manager m)).sent →
      p.1.2 = .up ∧ ∃ d, s.devices p.1.1 = some d ∧ d.shell = some m) ∧
    (p ∈ (s.relay.sockets (.manager m)).taken →
      p.1.2 = .down ∧ ∃ d, s.devices p.1.1 = some d ∧ d.shell = some m) := by
  constructor
  · intro hp
    obtain ⟨k, hk, hdestination⟩ := h.conserves.sends _ p hp
    exact h.destination_manager hk hdestination
  · intro hp
    obtain ⟨k, hk, hsource⟩ := h.conserves.takes _ p hp
    exact h.source_manager hk hsource

end Relayed

/-- A device that has found a shell is at the one that it names. What came in from it has been
delivered to the manager in order, but for the one item in the hand of a copier and for what still
waits in the socket. What came in from the manager has been taken for the devices that are at its
shell, each item for one of them and in order, or still waits; a copier that ends may drop the one
item in its hand, and what waits then may never be delivered. -/
theorem bridge_relays {events : List (ShellEvent α)} (hrun : Along next Fresh init events) {j m : ℕ}
    {d : DeviceThread} (hd : (events.foldl next init).devices j = some d) (hm : d.shell = some m) :
    let s := events.foldl next init
    let device := s.relay.sockets (.device j)
    let manager := s.relay.sockets (.manager m)
    (∃ shell, s.shells m = some shell ∧ shell.macAddr = d.macAddress ∧ d.uuid = some shell.uuid) ∧
    (∃ held, held.length ≤ 1 ∧
      device.arrived = Relay.tagged (j, .up) manager.sent ++ held ++ device.input) ∧
    (∃ held, held.length ≤ 1 ∧
      Relay.tagged (j, .down) manager.taken = device.sent.map Prod.snd ++ held) ∧
    manager.arrived = manager.taken.map Prod.snd ++ manager.input ∧
    (∀ p ∈ manager.sent, p.1.2 = .up ∧ ∃ d, s.devices p.1.1 = some d ∧ d.shell = some m) ∧
    ∀ p ∈ manager.taken, p.1.2 = .down ∧ ∃ d, s.devices p.1.1 = some d ∧ d.shell = some m := by
  intro s device manager
  have h := (consistent_run hrun).wired
  refine ⟨(h.named j d hd).shell m hm, h.upward hd hm, h.downward hd hm, h.conserves.arrived _,
    fun p hp => ?_, fun p hp => ?_⟩
  · exact h.among_devices.1 hp
  · exact h.among_devices.2 hp

theorem bridge_relays_meeting :
    let s := meeting.foldl next init
    ∃ held, held.length ≤ 1 ∧ (s.relay.sockets (.device 0)).arrived =
      Relay.tagged (0, .up) (s.relay.sockets (.manager 0)).sent ++ held ++
        (s.relay.sockets (.device 0)).input :=
  (bridge_relays fresh_meeting rfl rfl).2.1

/-- With one device at the shell, manager and device have a pipe in each direction. -/
theorem bridge_pipes {events : List (ShellEvent α)} (hrun : Along next Fresh init events) {j m : ℕ}
    {d : DeviceThread} (hd : (events.foldl next init).devices j = some d) (hm : d.shell = some m)
    (hsole : ∀ j' d', (events.foldl next init).devices j' = some d' → d'.shell = some m → j' = j) :
    let s := events.foldl next init
    let device := s.relay.sockets (.device j)
    let manager := s.relay.sockets (.manager m)
    (∃ held, held.length ≤ 1 ∧
      device.arrived = manager.sent.map Prod.snd ++ held ++ device.input) ∧
    ∃ held, held.length ≤ 1 ∧
      manager.arrived = device.sent.map Prod.snd ++ held ++ manager.input := by
  intro s device manager
  have h := (consistent_run hrun).wired
  have hup : Relay.tagged (j, .up) manager.sent = manager.sent.map Prod.snd := by
    refine Relay.tagged_eq_map fun p hp => ?_
    obtain ⟨hdirection, d', hd', hm'⟩ := h.among_devices.1 hp
    exact Prod.ext (hsole p.1.1 d' hd' hm') hdirection
  have hdown : Relay.tagged (j, .down) manager.taken = manager.taken.map Prod.snd := by
    refine Relay.tagged_eq_map fun p hp => ?_
    obtain ⟨hdirection, d', hd', hm'⟩ := h.among_devices.2 hp
    exact Prod.ext (hsole p.1.1 d' hd' hm') hdirection
  obtain ⟨held, hheld, harrived⟩ := h.upward hd hm
  obtain ⟨held', hheld', htaken⟩ := h.downward hd hm
  refine ⟨⟨held, hheld, ?_⟩, held', hheld', ?_⟩
  · rw [← hup]
    exact harrived
  · rw [← htaken, hdown]
    exact h.conserves.arrived (.manager m)

/-- The registry has the sessions of the threads that are between `add` and `remove`; `remove` never
raises. -/
theorem sessions_exact {events : List (ShellEvent α)} (hrun : Along next Fresh init events) :
    let s := events.foldl next (init : ShellBridge α)
    (∀ m, s.managers m ≠ some .failed) ∧
    ∀ key m, s.sessions key = some m ↔ ∃ shell phase, s.shells m = some shell ∧ shell.key = key ∧
      s.managers m = some phase ∧ phase.live = true := by
  intro s
  have h := (consistent_run hrun).registered
  refine ⟨h.noneFailed, fun key m => ⟨h.entry key m, ?_⟩⟩
  rintro ⟨shell, phase, hshell, rfl, hphase, hlive⟩
  obtain ⟨shell', hshell', hentry⟩ := h.live m phase hphase hlive
  rw [hshell] at hshell'
  cases hshell'
  exact hentry

theorem sessions_exact_meeting : (meeting.foldl next init).managers 0 ≠ some .failed :=
  (sessions_exact fresh_meeting).1 0

end ShellBridge

end Rdfm.Server
