import Rdfm.Lib.Relay
import Rdfm.Lib.Transition

/-!
# Reverse shells

A manager asks for a shell on a device: the server makes a session, tells the device its UUID, and
waits. The device comes back with the UUID on a WebSocket of its own, and two copiers carry the data
between the two sockets. Each manager and each device has a thread of the server to itself; the model
interleaves the steps of all threads, and of the peers.
-/

namespace Rdfm.Server

open Rdfm.Lib

/-! ## State -/

/-- A UUID as `str` writes it. -/
abbrev Uuid := { u : String // u.length = 36 }

/-- The WebSocket of a manager or of a device. -/
inductive Endpoint where
  | manager (m : ℕ)
  | device (j : ℕ)
deriving DecidableEq

/-- The copier `A` of a device goes to its manager, the copier `B` to the device. -/
inductive Direction where
  | up
  | down
deriving DecidableEq

/-- A `ReverseShell`. The two flags are events. -/
structure ReverseShell where
  macAddr : String
  uuid : Uuid
  deviceConnected : Bool
  deviceConnectionClosed : Bool

/-- Where `attach_manager_to_shell` and its decorator are. -/
inductive ManagerPhase where
  /-- The session is there, the device not told. -/
  | created
  | waiting
  | attached
  | checking
  | leaving
  | closing
  | finished
  /-- `remove` raised a `KeyError`. -/
  | failed
deriving DecidableEq

/-- Where `attach_device_to_manager` and its decorator are. -/
inductive DevicePhase where
  | looking
  | found
  | first
  | second
  | copying
  | dying
  | closing
  | finished
  /-- The UUID was none. -/
  | failed
deriving DecidableEq

structure DeviceThread where
  macAddress : String
  uuid : Option Uuid
  /-- The manager whose shell it has found. -/
  shell : Option ℕ
  phase : DevicePhase

structure ShellBridge (α : Type*) where
  relay : Relay Endpoint (ℕ × Direction) ℕ α
  managers : ℕ → Option ManagerPhase
  shells : ℕ → Option ReverseShell
  devices : ℕ → Option DeviceThread
  /-- `_shell_sessions` -/
  sessions : String → Option ℕ

inductive ShellEvent (α : Type*) where
  /-- A manager asks for a shell of a device that is `online` or not; `uuid4` gives a UUID. -/
  | openManager (m : ℕ) (macAddress : String) (uuid : Uuid) (online : Bool)
  /-- The thread of the manager takes a step; a message to the device is `sent` or not. -/
  | manager (m : ℕ) (sent : Bool)
  /-- A device comes for a session. The UUID it names may be none. -/
  | openDevice (j : ℕ) (macAddress : String) (uuid : Option Uuid)
  | device (j : ℕ)
  | copier (j : ℕ) (direction : Direction)
  | arrive (e : Endpoint) (x : α)
  | close (e : Endpoint)

variable {α : Type*}

/-- `_format_shell_key` -/
def formatShellKey (macAddress : String) (uuid : Uuid) : String := macAddress ++ "_" ++ uuid.1

def ReverseShell.key (shell : ReverseShell) : String := formatShellKey shell.macAddr shell.uuid

theorem formatShellKey_inj {mac mac' : String} {uuid uuid' : Uuid}
    (h : formatShellKey mac uuid = formatShellKey mac' uuid') : mac = mac' ∧ uuid = uuid' := by
  have hlists : (mac ++ "_").toList ++ uuid.1.toList = (mac' ++ "_").toList ++ uuid'.1.toList := by
    rw [← String.toList_append, ← String.toList_append]
    exact congrArg String.toList h
  have hlength : uuid.1.toList.length = uuid'.1.toList.length := by
    rw [String.length_toList, String.length_toList, uuid.2, uuid'.2]
  obtain ⟨hmac, huuid⟩ := List.append_inj' hlists hlength
  rw [String.toList_append, String.toList_append] at hmac
  exact ⟨String.toList_inj.mp (List.append_cancel_right hmac), Subtype.ext (String.toList_inj.mp huuid)⟩

namespace Direction

def source (j m : ℕ) : Direction → Endpoint
  | up => .device j
  | down => .manager m

def destination (j m : ℕ) : Direction → Endpoint
  | up => .manager m
  | down => .device j

end Direction

namespace ShellBridge

/-! ## Steps -/

def init : ShellBridge α where
  relay := ⟨fun _ => ⟨false, [], [], [], []⟩, fun _ => none, fun _ => false⟩
  managers _ := none
  shells _ := none
  devices _ := none
  sessions _ := none

variable (s : ShellBridge α)

def setManager (m : ℕ) (phase : ManagerPhase) : ShellBridge α :=
  { s with managers := Function.update s.managers m (some phase) }

def setShell (m : ℕ) (shell : ReverseShell) : ShellBridge α :=
  { s with shells := Function.update s.shells m (some shell) }

def setDevice (j : ℕ) (thread : DeviceThread) : ShellBridge α :=
  { s with devices := Function.update s.devices j (some thread) }

def setRelay (relay : Relay Endpoint (ℕ × Direction) ℕ α) : ShellBridge α := { s with relay }

/-- `ShellSessions.add`; the shell is that of the manager `m`. -/
def addSession (m : ℕ) (shell : ReverseShell) : ShellBridge α :=
  { s with sessions := Function.update s.sessions shell.key (some m) }

/-- `ShellSessions.remove`; `pop` raises if there is no entry. -/
def removeSession (shell : ReverseShell) : Option (ShellBridge α) :=
  match s.sessions shell.key with
  | none => none
  | some _ => some { s with sessions := Function.update s.sessions shell.key none }

/-- `ShellSessions.get` -/
def getSession (macAddress : String) (uuid : Uuid) : Option ℕ :=
  s.sessions (formatShellKey macAddress uuid)

/-- The start of `attach_manager_to_shell`. -/
def openManager (m : ℕ) (macAddress : String) (uuid : Uuid) (online : Bool) : ShellBridge α :=
  match s.managers m with
  | some _ => s
  | none =>
    let s := s.setRelay (s.relay.connect (.manager m))
    if online then
      let shell : ReverseShell := ⟨macAddress, uuid, false, false⟩
      ((s.setShell m shell).addSession m shell).setManager m .created
    else s.setManager m .closing

/-- The rest of `attach_manager_to_shell`. A `wait` returns when its event is set, or in the end
without it. -/
def managerStep (m : ℕ) (sent : Bool) : ShellBridge α :=
  match s.managers m, s.shells m with
  | some .created, some _ => s.setManager m (if sent then .waiting else .leaving)
  | some .waiting, some shell =>
    s.setManager m (if shell.deviceConnected then .attached else .leaving)
  | some .attached, some shell =>
    s.setManager m (if shell.deviceConnectionClosed then .leaving else .checking)
  | some .checking, some _ =>
    s.setManager m (if (s.relay.sockets (.manager m)).connected then .attached else .leaving)
  | some .leaving, some shell =>
    match s.removeSession shell with
    | some s => s.setManager m .closing
    | none => s.setManager m .failed
  | some .closing, _ => (s.setRelay (s.relay.close (.manager m))).setManager m .finished
  | _, _ => s

def openDevice (j : ℕ) (macAddress : String) (uuid : Option Uuid) : ShellBridge α :=
  match s.devices j with
  | some _ => s
  | none =>
    (s.setRelay (s.relay.connect (.device j))).setDevice j ⟨macAddress, uuid, none, .looking⟩

/-- `attach_device_to_manager`, with `bidirectional_copy`. -/
def deviceStep (j : ℕ) : ShellBridge α :=
  match s.devices j with
  | none => s
  | some thread =>
    match thread.phase, thread.shell with
    | .looking, _ =>
      match thread.uuid with
      | none => s.setDevice j { thread with phase := .failed }
      | some uuid =>
        match s.getSession thread.macAddress uuid with
        | none => s.setDevice j { thread with phase := .closing }
        | some m => s.setDevice j { thread with phase := .found, shell := some m }
    | .found, some m =>
      match s.shells m with
      | none => s
      | some shell =>
        (s.setShell m { shell with deviceConnected := true }).setDevice j
          { thread with phase := .first }
    | .first, some m =>
      (s.setRelay (s.relay.start (j, .up) (Direction.up.source j m)
        (Direction.up.destination j m))).setDevice j { thread with phase := .second }
    | .second, some m =>
      (s.setRelay (s.relay.start (j, .down) (Direction.down.source j m)
        (Direction.down.destination j m))).setDevice j { thread with phase := .copying }
    | .copying, _ =>
      if s.relay.died j then s.setDevice j { thread with phase := .dying } else s
    | .dying, some m =>
      match s.shells m with
      | none => s
      | some shell =>
        (s.setShell m { shell with deviceConnectionClosed := true }).setDevice j
          { thread with phase := .closing }
    | .closing, _ =>
      (s.setRelay (s.relay.close (.device j))).setDevice j { thread with phase := .finished }
    | _, _ => s

def next (s : ShellBridge α) : ShellEvent α → ShellBridge α
  | .openManager m macAddress uuid online => s.openManager m macAddress uuid online
  | .manager m sent => s.managerStep m sent
  | .openDevice j macAddress uuid => s.openDevice j macAddress uuid
  | .device j => s.deviceStep j
  | .copier j direction => s.setRelay (s.relay.copy Prod.fst (j, direction))
  | .arrive e x => s.setRelay (s.relay.arrive e x)
  | .close e => s.setRelay (s.relay.close e)

/-- `uuid4` gives no UUID twice. -/
def Fresh : ShellEvent α → Prop
  | .openManager _ _ uuid _ => ∀ m shell, s.shells m = some shell → shell.uuid ≠ uuid
  | _ => True

end ShellBridge

/-! ## The sessions -/

/-- The thread is between `add` and `remove`. -/
def ManagerPhase.live : ManagerPhase → Bool
  | created | waiting | attached | checking | leaving => true
  | closing | finished | failed => false

namespace ShellBridge

/-- The registry has the sessions of the live threads, and no others. -/
structure Registered (s : ShellBridge α) : Prop where
  made : ∀ m shell, s.shells m = some shell → s.managers m ≠ none
  unique : ∀ m m' shell shell', s.shells m = some shell → s.shells m' = some shell' →
    shell.uuid = shell'.uuid → m = m'
  entry : ∀ key m, s.sessions key = some m → ∃ shell phase, s.shells m = some shell ∧
    shell.key = key ∧ s.managers m = some phase ∧ phase.live = true
  live : ∀ m phase, s.managers m = some phase → phase.live = true →
    ∃ shell, s.shells m = some shell ∧ s.sessions shell.key = some m
  noneFailed : ∀ m, s.managers m ≠ some .failed

section Fields

variable (s : ShellBridge α)

@[simp] theorem setManager_relay (m : ℕ) (phase : ManagerPhase) :
    (s.setManager m phase).relay = s.relay := rfl

@[simp] theorem setManager_shells (m : ℕ) (phase : ManagerPhase) :
    (s.setManager m phase).shells = s.shells := rfl

@[simp] theorem setManager_devices (m : ℕ) (phase : ManagerPhase) :
    (s.setManager m phase).devices = s.devices := rfl

@[simp] theorem setManager_sessions (m : ℕ) (phase : ManagerPhase) :
    (s.setManager m phase).sessions = s.sessions := rfl

theorem setManager_managers (m m' : ℕ) (phase : ManagerPhase) :
    (s.setManager m phase).managers m' = if m' = m then some phase else s.managers m' :=
  Function.update_apply ..

@[simp] theorem setShell_managers (m : ℕ) (shell : ReverseShell) :
    (s.setShell m shell).managers = s.managers := rfl

@[simp] theorem setShell_sessions (m : ℕ) (shell : ReverseShell) :
    (s.setShell m shell).sessions = s.sessions := rfl

theorem setShell_shells (m m' : ℕ) (shell : ReverseShell) :
    (s.setShell m shell).shells m' = if m' = m then some shell else s.shells m' :=
  Function.update_apply ..

theorem setDevice_devices (j j' : ℕ) (thread : DeviceThread) :
    (s.setDevice j thread).devices j' = if j' = j then some thread else s.devices j' :=
  Function.update_apply ..

end Fields

namespace Registered

variable {s : ShellBridge α}

/-- What neither threads of managers nor sessions take part in. -/
theorem of_eq {s' : ShellBridge α} (h : s.Registered) (hmanagers : s'.managers = s.managers)
    (hshells : s'.shells = s.shells) (hsessions : s'.sessions = s.sessions) : s'.Registered := by
  refine ⟨?_, ?_, ?_, ?_, ?_⟩
  · rw [hshells, hmanagers]
    exact h.made
  · rw [hshells]
    exact h.unique
  · rw [hshells, hmanagers, hsessions]
    exact h.entry
  · rw [hshells, hmanagers, hsessions]
    exact h.live
  · rw [hmanagers]
    exact h.noneFailed

/-- An event of a shell is set. -/
theorem setShell (h : s.Registered) {m : ℕ} {shell shell' : ReverseShell}
    (hshell : s.shells m = some shell) (hmac : shell'.macAddr = shell.macAddr)
    (huuid : shell'.uuid = shell.uuid) : (s.setShell m shell').Registered := by
  have hback {m' : ℕ} {sh' : ReverseShell} (hsh : (s.setShell m shell').shells m' = some sh') :
      ∃ sh, s.shells m' = some sh ∧ sh'.uuid = sh.uuid ∧ sh'.key = sh.key := by
    rw [setShell_shells] at hsh
    split at hsh
    · next heq =>
      cases hsh
      rw [heq]
      exact ⟨shell, hshell, huuid, by unfold ReverseShell.key; rw [hmac, huuid]⟩
    · exact ⟨sh', hsh, rfl, rfl⟩
  have hforth {m' : ℕ} {sh : ReverseShell} (hsh : s.shells m' = some sh) :
      ∃ sh', (s.setShell m shell').shells m' = some sh' ∧ sh'.key = sh.key := by
    rw [setShell_shells]
    split
    · next heq =>
      rw [heq, hshell] at hsh
      cases hsh
      exact ⟨shell', rfl, by unfold ReverseShell.key; rw [hmac, huuid]⟩
    · exact ⟨sh, hsh, rfl⟩
  refine ⟨fun m' sh' hsh' => ?_, fun m₁ m₂ sh₁ sh₂ h₁ h₂ heq => ?_, fun key m' hentry => ?_,
    fun m' phase hphase hlive => ?_, h.noneFailed⟩
  · obtain ⟨sh, hsh, -⟩ := hback hsh'
    exact h.made m' sh hsh
  · obtain ⟨sh₁', h₁', heq₁, -⟩ := hback h₁
    obtain ⟨sh₂', h₂', heq₂, -⟩ := hback h₂
    exact h.unique m₁ m₂ sh₁' sh₂' h₁' h₂' (by rw [← heq₁, ← heq₂, heq])
  · obtain ⟨sh, phase, hsh, hkey, hphase, hlive⟩ := h.entry key m' hentry
    obtain ⟨sh', hsh', hkey'⟩ := hforth hsh
    exact ⟨sh', phase, hsh', by rw [hkey', hkey], hphase, hlive⟩
  · obtain ⟨sh, hsh, hentry⟩ := h.live m' phase hphase hlive
    obtain ⟨sh', hsh', hkey'⟩ := hforth hsh
    exact ⟨sh', hsh', by rw [hkey']; exact hentry⟩

/-- A thread moves on between `add` and `remove`, or after `remove`. -/
theorem setManager (h : s.Registered) {m : ℕ} {phase phase' : ManagerPhase}
    (hphase : s.managers m = some phase) (hlive : phase'.live = phase.live)
    (hfailed : phase' ≠ .failed) : (s.setManager m phase').Registered := by
  refine ⟨fun m' shell hshell => ?_, h.unique, fun key m' hentry => ?_,
    fun m' p hp hplive => ?_, fun m' hm' => ?_⟩
  · rw [setManager_managers]
    split
    · exact Option.some_ne_none _
    · exact h.made m' shell hshell
  · obtain ⟨shell, p, hshell, hkey, hp, hplive⟩ := h.entry key m' hentry
    rw [setManager_managers]
    split
    · next heq =>
      rw [heq, hphase] at hp
      cases hp
      exact ⟨shell, phase', hshell, hkey, rfl, by rw [hlive, hplive]⟩
    · exact ⟨shell, p, hshell, hkey, hp, hplive⟩
  · rw [setManager_managers] at hp
    split at hp
    · next heq =>
      cases hp
      subst heq
      exact h.live m' phase hphase (by rw [← hlive, hplive])
    · exact h.live m' p hp hplive
  · rw [setManager_managers] at hm'
    split at hm'
    · cases hm'
      exact hfailed rfl
    · exact h.noneFailed m' hm'

/-- A thread that refuses. -/
theorem refuse (h : s.Registered) {m : ℕ} (hm : s.managers m = none) :
    (s.setManager m .closing).Registered := by
  have hother {m' : ℕ} {shell : ReverseShell} (hshell : s.shells m' = some shell) : m' ≠ m := by
    intro heq
    subst heq
    exact h.made m' shell hshell hm
  refine ⟨fun m' shell hshell => ?_, h.unique, fun key m' hentry => ?_,
    fun m' p hp hplive => ?_, fun m' hm' => ?_⟩
  · rw [setManager_managers, if_neg (hother hshell)]
    exact h.made m' shell hshell
  · obtain ⟨shell, p, hshell, hkey, hp, hplive⟩ := h.entry key m' hentry
    refine ⟨shell, p, hshell, hkey, ?_, hplive⟩
    rw [setManager_managers, if_neg (hother hshell), hp]
  · rw [setManager_managers] at hp
    split at hp
    · cases hp
      cases hplive
    · exact h.live m' p hp hplive
  · rw [setManager_managers] at hm'
    split at hm'
    · cases hm'
    · exact h.noneFailed m' hm'

/-- A thread adds its session. -/
theorem create (h : s.Registered) {m : ℕ} (hm : s.managers m = none) {shell : ReverseShell}
    (hfresh : ∀ m' shell', s.shells m' = some shell' → shell'.uuid ≠ shell.uuid) :
    (((s.setShell m shell).addSession m shell).setManager m .created).Registered := by
  have hother {m' : ℕ} {shell : ReverseShell} (hshell : s.shells m' = some shell) : m' ≠ m := by
    intro heq
    subst heq
    exact h.made m' shell hshell hm
  have hshells (m' : ℕ) : (((s.setShell m shell).addSession m shell).setManager m .created).shells
      m' = if m' = m then some shell else s.shells m' := setShell_shells s m m' shell
  have hsessions (key : String) :
      (((s.setShell m shell).addSession m shell).setManager m .created).sessions key =
        if key = shell.key then some m else s.sessions key := Function.update_apply ..
  have hkey {m' : ℕ} {shell' : ReverseShell} (hshell : s.shells m' = some shell') :
      shell'.key ≠ shell.key := fun heq => hfresh m' shell' hshell (formatShellKey_inj heq).2
  refine ⟨fun m' sh hsh => ?_, fun m₁ m₂ sh₁ sh₂ h₁ h₂ heq => ?_, fun key m' hentry => ?_,
    fun m' p hp hplive => ?_, fun m' hm' => ?_⟩
  · rw [hshells] at hsh
    rw [setManager_managers]
    split
    · exact Option.some_ne_none _
    · next hne =>
      rw [if_neg hne] at hsh
      exact h.made m' sh hsh
  · rw [hshells] at h₁ h₂
    split at h₁
    · next heq₁ =>
      cases h₁
      split at h₂
      · next heq₂ => rw [heq₁, heq₂]
      · exact (hfresh m₂ sh₂ h₂ heq.symm).elim
    · split at h₂
      · cases h₂
        exact (hfresh m₁ sh₁ h₁ heq).elim
      · exact h.unique m₁ m₂ sh₁ sh₂ h₁ h₂ heq
  · rw [hsessions] at hentry
    split at hentry
    · next heq =>
      cases hentry
      refine ⟨shell, .created, ?_, heq.symm, ?_, rfl⟩
      · rw [hshells, if_pos rfl]
      · rw [setManager_managers, if_pos rfl]
    · obtain ⟨sh, p, hsh, hsk, hp, hplive⟩ := h.entry key m' hentry
      refine ⟨sh, p, ?_, hsk, ?_, hplive⟩
      · rw [hshells, if_neg (hother hsh), hsh]
      · rw [setManager_managers, if_neg (hother hsh)]
        exact hp
  · rw [setManager_managers] at hp
    split at hp
    · next heq =>
      subst heq
      refine ⟨shell, ?_, ?_⟩
      · rw [hshells, if_pos rfl]
      · rw [hsessions, if_pos rfl]
    · obtain ⟨sh, hsh, hentry⟩ := h.live m' p hp hplive
      refine ⟨sh, ?_, ?_⟩
      · rw [hshells, if_neg (hother hsh), hsh]
      · rw [hsessions, if_neg (hkey hsh), hentry]
  · rw [setManager_managers] at hm'
    split at hm'
    · cases hm'
    · exact h.noneFailed m' hm'

/-- A thread removes its session: it is there. -/
theorem remove (h : s.Registered) {m : ℕ} (hm : s.managers m = some .leaving)
    {shell : ReverseShell} (hshell : s.shells m = some shell) :
    ∃ s', s.removeSession shell = some s' ∧ (s'.setManager m .closing).Registered ∧
      s'.sessions = Function.update s.sessions shell.key none ∧ s'.relay = s.relay ∧
      s'.managers = s.managers ∧ s'.shells = s.shells ∧ s'.devices = s.devices := by
  obtain ⟨shell', hshell', hentry⟩ := h.live m .leaving hm rfl
  rw [hshell] at hshell'
  cases hshell'
  unfold removeSession
  rw [hentry]
  refine ⟨_, rfl, ?_, rfl, rfl, rfl, rfl, rfl⟩
  refine ⟨fun m' sh hsh => ?_, h.unique, fun key m' hkey => ?_,
    fun m' p hp hplive => ?_, fun m' hm' => ?_⟩
  · rw [setManager_managers]
    split
    · exact Option.some_ne_none _
    · exact h.made m' sh hsh
  · rw [setManager_sessions] at hkey
    dsimp only at hkey
    rw [Function.update_apply] at hkey
    split at hkey
    · cases hkey
    · next hne =>
      obtain ⟨sh, p, hsh, hsk, hp, hplive⟩ := h.entry key m' hkey
      refine ⟨sh, p, hsh, hsk, ?_, hplive⟩
      rw [setManager_managers, if_neg]
      · exact hp
      · rintro rfl
        rw [hshell] at hsh
        cases hsh
        exact hne hsk.symm
  · rw [setManager_managers] at hp
    split at hp
    · cases hp
      cases hplive
    · next hne =>
      obtain ⟨sh, hsh, hsess⟩ := h.live m' p hp hplive
      refine ⟨sh, hsh, ?_⟩
      rw [setManager_sessions]
      dsimp only
      rw [Function.update_apply, if_neg, hsess]
      exact fun heq => hne (h.unique m' m sh shell hsh hshell (formatShellKey_inj heq).2)
  · rw [setManager_managers] at hm'
    split at hm'
    · cases hm'
    · exact h.noneFailed m' hm'

end Registered

/-- What a step of the thread of a manager can do. -/
inductive ManagerStep (s : ShellBridge α) (m : ℕ) : ManagerPhase → ShellBridge α → Prop
  | told {phase : ManagerPhase} (h : phase = .waiting ∨ phase = .leaving) :
    ManagerStep s m .created (s.setManager m phase)
  | waited {phase : ManagerPhase} (h : phase = .attached ∨ phase = .leaving) :
    ManagerStep s m .waiting (s.setManager m phase)
  | deviceGone : ManagerStep s m .attached (s.setManager m .leaving)
  | deviceThere {shell : ReverseShell} (hshell : s.shells m = some shell)
    (h : shell.deviceConnectionClosed = false) :
    ManagerStep s m .attached (s.setManager m .checking)
  | managerGone : ManagerStep s m .checking (s.setManager m .leaving)
  | managerThere (h : (s.relay.sockets (.manager m)).connected = true) :
    ManagerStep s m .checking (s.setManager m .attached)
  | removed {shell : ReverseShell} {s' : ShellBridge α} (hshell : s.shells m = some shell)
    (hremove : s.removeSession shell = some s') : ManagerStep s m .leaving (s'.setManager m .closing)
  | closed : ManagerStep s m .closing ((s.setRelay (s.relay.close (.manager m))).setManager m .finished)
  | finished : ManagerStep s m .finished s

section Steps

variable {s : ShellBridge α}

theorem manager_step (h : s.Registered) (sent : Bool) {m : ℕ} {phase : ManagerPhase}
    (hm : s.managers m = some phase) : ManagerStep s m phase (s.managerStep m sent) := by
  have hshell (hlive : phase.live = true) : ∃ shell, s.shells m = some shell := by
    obtain ⟨shell, hshell, -⟩ := h.live m phase hm hlive
    exact ⟨shell, hshell⟩
  unfold managerStep
  rw [hm]
  cases phase with
  | created =>
    obtain ⟨shell, hshell⟩ := hshell rfl
    rw [hshell]
    refine .told ?_
    split <;> simp
  | waiting =>
    obtain ⟨shell, hshell⟩ := hshell rfl
    rw [hshell]
    refine .waited ?_
    split <;> simp
  | attached =>
    obtain ⟨shell, hshell⟩ := hshell rfl
    rw [hshell]
    dsimp only
    cases hclosed : shell.deviceConnectionClosed with
    | true => exact .deviceGone
    | false => exact .deviceThere hshell hclosed
  | checking =>
    obtain ⟨shell, hshell⟩ := hshell rfl
    rw [hshell]
    dsimp only
    cases hconnected : (s.relay.sockets (.manager m)).connected with
    | true => exact .managerThere hconnected
    | false => exact .managerGone
  | leaving =>
    obtain ⟨shell, hshell⟩ := hshell rfl
    obtain ⟨s', hremove, -⟩ := h.remove hm hshell
    rw [hshell]
    dsimp only
    rw [hremove]
    exact .removed hshell hremove
  | closing => exact .closed
  | finished => exact .finished
  | failed => exact (h.noneFailed m hm).elim

theorem managerStep_of_none {m : ℕ} (sent : Bool) (hm : s.managers m = none) :
    s.managerStep m sent = s := by
  unfold managerStep
  rw [hm]

theorem Registered.managerStep (h : s.Registered) (m : ℕ) (sent : Bool) :
    (s.managerStep m sent).Registered := by
  cases hm : s.managers m with
  | none =>
    rw [managerStep_of_none sent hm]
    exact h
  | some phase =>
    have hstep := manager_step h sent hm
    generalize s.managerStep m sent = s' at hstep
    cases hstep with
    | told hphase | waited hphase =>
      rcases hphase with rfl | rfl <;> exact h.setManager hm rfl nofun
    | deviceGone | deviceThere | managerGone | managerThere => exact h.setManager hm rfl nofun
    | removed hshell hremove =>
      obtain ⟨s', hremove', hs', -⟩ := h.remove hm hshell
      rw [hremove] at hremove'
      cases hremove'
      exact hs'
    | closed =>
      have hrelay : (s.setRelay (s.relay.close (.manager m))).Registered := h.of_eq rfl rfl rfl
      exact hrelay.setManager hm rfl nofun
    | finished => exact h

end Steps

/-! ## The devices -/

end ShellBridge

/-- The device has a session, and its copiers may run. -/
def DevicePhase.attached : DevicePhase → Bool
  | found | first | second | copying | dying => true
  | looking | closing | finished | failed => false

/-- The copier of this direction has been started, if there is a session. -/
def DevicePhase.started : Direction → DevicePhase → Bool
  | .up, second | _, copying | _, dying | _, closing | _, finished => true
  | _, _ => false

namespace DeviceThread

/-- The sockets of the copiers that the thread has started. -/
def wires (d : DeviceThread) (j : ℕ) (direction : Direction) : Option (Endpoint × Endpoint) :=
  d.shell.bind fun m =>
    if d.phase.started direction then some (direction.source j m, direction.destination j m)
    else none

/-- The thread is at the shell that it asks for, if at any. -/
structure Named (shells : ℕ → Option ReverseShell) (d : DeviceThread) : Prop where
  shell : ∀ m, d.shell = some m → ∃ shell, shells m = some shell ∧
    shell.macAddr = d.macAddress ∧ d.uuid = some shell.uuid
  attached : d.phase.attached = true → d.shell ≠ none
  shellless : d.phase = .looking ∨ d.phase = .failed → d.shell = none
  /-- A thread with a session signals its end before it closes its socket. -/
  signalled : d.phase = .closing ∨ d.phase = .finished → ∀ m shell, d.shell = some m →
    shells m = some shell → shell.deviceConnectionClosed = true

end DeviceThread

namespace ShellBridge

/-- What the relay and the devices have to do with each other. -/
structure Wired (s : ShellBridge α) : Prop where
  conserves : s.relay.Conserves
  flagged : s.relay.Flagged Prod.fst
  wires : ∀ j direction, s.relay.wires (j, direction) =
    (s.devices j).bind fun d => d.wires j direction
  named : ∀ j d, s.devices j = some d → d.Named s.shells

/-- What a step of the thread of a device can do. -/
inductive DeviceStep (s : ShellBridge α) (j : ℕ) (d : DeviceThread) : ShellBridge α → Prop
  | invalid (hphase : d.phase = .looking) :
    DeviceStep s j d (s.setDevice j { d with phase := .failed })
  | unknown (hphase : d.phase = .looking) :
    DeviceStep s j d (s.setDevice j { d with phase := .closing })
  | find {uuid : Uuid} {m : ℕ} (hphase : d.phase = .looking) (huuid : d.uuid = some uuid)
    (hentry : s.getSession d.macAddress uuid = some m) :
    DeviceStep s j d (s.setDevice j { d with phase := .found, shell := some m })
  | connect {m : ℕ} {shell : ReverseShell} (hphase : d.phase = .found) (hm : d.shell = some m)
    (hshell : s.shells m = some shell) :
    DeviceStep s j d ((s.setShell m { shell with deviceConnected := true }).setDevice j
      { d with phase := .first })
  | startUp {m : ℕ} (hphase : d.phase = .first) (hm : d.shell = some m) :
    DeviceStep s j d ((s.setRelay (s.relay.start (j, .up) (Direction.up.source j m)
      (Direction.up.destination j m))).setDevice j { d with phase := .second })
  | startDown {m : ℕ} (hphase : d.phase = .second) (hm : d.shell = some m) :
    DeviceStep s j d ((s.setRelay (s.relay.start (j, .down) (Direction.down.source j m)
      (Direction.down.destination j m))).setDevice j { d with phase := .copying })
  | died (hphase : d.phase = .copying) :
    DeviceStep s j d (s.setDevice j { d with phase := .dying })
  | waits (hphase : d.phase = .copying) (hdied : s.relay.died j = false) : DeviceStep s j d s
  | signal {m : ℕ} {shell : ReverseShell} (hphase : d.phase = .dying) (hm : d.shell = some m)
    (hshell : s.shells m = some shell) :
    DeviceStep s j d ((s.setShell m { shell with deviceConnectionClosed := true }).setDevice j
      { d with phase := .closing })
  | closed (hphase : d.phase = .closing) :
    DeviceStep s j d ((s.setRelay (s.relay.close (.device j))).setDevice j { d with phase := .finished })
  | finished (hphase : d.phase = .finished ∨ d.phase = .failed) : DeviceStep s j d s

section Steps

variable {s : ShellBridge α}

theorem device_step (h : s.Wired) {j : ℕ} {d : DeviceThread} (hj : s.devices j = some d) :
    DeviceStep s j d (s.deviceStep j) := by
  have hattached (ha : d.phase.attached = true) : ∃ m shell, d.shell = some m ∧
      s.shells m = some shell := by
    have hnamed := h.named j d hj
    obtain ⟨m, hm⟩ := Option.ne_none_iff_exists'.mp (hnamed.attached ha)
    obtain ⟨shell, hshell, -⟩ := hnamed.shell m hm
    exact ⟨m, shell, hm, hshell⟩
  unfold deviceStep
  rw [hj]
  rcases d with ⟨mac, uuid, found, phase⟩
  dsimp only at hattached ⊢
  cases phase with
  | looking =>
    cases uuid with
    | none => exact .invalid rfl
    | some uuid =>
      dsimp only
      cases hentry : s.getSession mac uuid with
      | none => exact .unknown rfl
      | some m => exact .find rfl rfl hentry
  | found =>
    obtain ⟨m, shell, rfl, hshell⟩ := hattached rfl
    dsimp only
    rw [hshell]
    exact .connect rfl rfl hshell
  | first =>
    obtain ⟨m, shell, rfl, hshell⟩ := hattached rfl
    exact .startUp rfl rfl
  | second =>
    obtain ⟨m, shell, rfl, hshell⟩ := hattached rfl
    exact .startDown rfl rfl
  | copying =>
    dsimp only
    cases hdied : s.relay.died j with
    | true => exact .died rfl
    | false => exact .waits rfl hdied
  | dying =>
    obtain ⟨m, shell, rfl, hshell⟩ := hattached rfl
    dsimp only
    rw [hshell]
    exact .signal rfl rfl hshell
  | closing => exact .closed rfl
  | finished => exact .finished (.inl rfl)
  | failed => exact .finished (.inr rfl)

theorem deviceStep_of_none {j : ℕ} (hj : s.devices j = none) : s.deviceStep j = s := by
  unfold deviceStep
  rw [hj]

end Steps

namespace Wired

variable {s : ShellBridge α}

/-- A copier that there is belongs to a device with a session. -/
theorem wire (h : s.Wired) {j : ℕ} {direction : Direction} {source destination : Endpoint}
    (hwires : s.relay.wires (j, direction) = some (source, destination)) :
    ∃ d m, s.devices j = some d ∧ d.shell = some m ∧ d.phase.started direction = true ∧
      source = direction.source j m ∧ destination = direction.destination j m := by
  rw [h.wires] at hwires
  obtain ⟨d, hd, hwires⟩ := Option.bind_eq_some_iff.mp hwires
  obtain ⟨m, hm, hwires⟩ := Option.bind_eq_some_iff.mp hwires
  split at hwires
  · next hstarted =>
    cases hwires
    exact ⟨d, m, hd, hm, hstarted, rfl, rfl⟩
  · cases hwires

theorem setManager (h : s.Wired) (m : ℕ) (phase : ManagerPhase) : (s.setManager m phase).Wired :=
  ⟨h.conserves, h.flagged, h.wires, h.named⟩

theorem setRelay (h : s.Wired) {relay : Relay Endpoint (ℕ × Direction) ℕ α}
    (hconserves : relay.Conserves) (hflagged : relay.Flagged Prod.fst)
    (hwires : relay.wires = s.relay.wires) : (s.setRelay relay).Wired := by
  refine ⟨hconserves, hflagged, fun j direction => ?_, h.named⟩
  exact (congrFun hwires (j, direction)).trans (h.wires j direction)

theorem close (h : s.Wired) (e : Endpoint) : (s.setRelay (s.relay.close e)).Wired :=
  h.setRelay (h.conserves.close e) (h.flagged.of_eq rfl rfl) rfl

theorem arrive (h : s.Wired) (e : Endpoint) (x : α) : (s.setRelay (s.relay.arrive e x)).Wired :=
  h.setRelay (h.conserves.arrive e x)
    (h.flagged.of_eq (Relay.arrive_copiers ..) (Relay.arrive_died ..)) (Relay.wires_arrive ..)

theorem copy (h : s.Wired) (c : ℕ × Direction) : (s.setRelay (s.relay.copy Prod.fst c)).Wired :=
  h.setRelay (h.conserves.copy Prod.fst c) (h.flagged.copy c) (Relay.wires_copy ..)

/-- Shells keep their names. -/
theorem of_shells {s' : ShellBridge α} (h : s.Wired) (hrelay : s'.relay = s.relay)
    (hdevices : s'.devices = s.devices)
    (hshells : ∀ m shell, s.shells m = some shell → ∃ shell', s'.shells m = some shell' ∧
      shell'.macAddr = shell.macAddr ∧ shell'.uuid = shell.uuid ∧
      (shell.deviceConnectionClosed = true → shell'.deviceConnectionClosed = true)) :
    s'.Wired := by
  refine ⟨?_, ?_, ?_, fun j d hd => ?_⟩
  · rw [hrelay]
    exact h.conserves
  · rw [hrelay]
    exact h.flagged
  · rw [hrelay, hdevices]
    exact h.wires
  · rw [hdevices] at hd
    have hnamed := h.named j d hd
    refine ⟨fun m hm => ?_, hnamed.attached, hnamed.shellless, fun hphase m sh hm hsh => ?_⟩
    · obtain ⟨shell, hshell, hmac, huuid⟩ := hnamed.shell m hm
      obtain ⟨shell', hshell', hmac', huuid', -⟩ := hshells m shell hshell
      exact ⟨shell', hshell', by rw [hmac', hmac], by rw [huuid', huuid]⟩
    · obtain ⟨shell, hshell, -⟩ := hnamed.shell m hm
      obtain ⟨shell', hshell', -, -, hclosed⟩ := hshells m shell hshell
      rw [hsh] at hshell'
      cases hshell'
      exact hclosed (hnamed.signalled hphase m shell hm hshell)

theorem setShell (h : s.Wired) {m : ℕ} {shell shell' : ReverseShell}
    (hshell : s.shells m = some shell) (hmac : shell'.macAddr = shell.macAddr)
    (huuid : shell'.uuid = shell.uuid)
    (hclosed : shell.deviceConnectionClosed = true → shell'.deviceConnectionClosed = true) :
    (s.setShell m shell').Wired := by
  refine h.of_shells rfl rfl fun m' sh hsh => ?_
  rw [setShell_shells]
  split
  · next heq =>
    rw [heq, hshell] at hsh
    cases hsh
    exact ⟨shell', rfl, hmac, huuid, hclosed⟩
  · exact ⟨sh, hsh, rfl, rfl, id⟩

/-- A device moves on, with the copiers that it has. -/
theorem setDevice (h : s.Wired) {j : ℕ} {d d' : DeviceThread} (hd : s.devices j = some d)
    (hwires : ∀ direction, d'.wires j direction = d.wires j direction)
    (hnamed : d'.Named s.shells) : (s.setDevice j d').Wired := by
  refine ⟨h.conserves, h.flagged, fun j' direction => ?_, fun j' d'' hd'' => ?_⟩
  · have hj := h.wires j' direction
    rw [setDevice_devices]
    split
    · next heq =>
      subst heq
      rw [hd] at hj
      exact hj.trans (hwires direction).symm
    · exact hj
  · rw [setDevice_devices] at hd''
    split at hd''
    · cases hd''
      exact hnamed
    · exact h.named j' d'' hd''

/-- A device starts a copier. -/
theorem start (h : s.Wired) {j : ℕ} {d d' : DeviceThread} (hd : s.devices j = some d)
    {direction : Direction} {source destination : Endpoint}
    (hnone : d.wires j direction = none) (hsome : d'.wires j direction = some (source, destination))
    (hother : ∀ direction', direction' ≠ direction → d'.wires j direction' = d.wires j direction')
    (hnamed : d'.Named s.shells) :
    ((s.setRelay (s.relay.start (j, direction) source destination)).setDevice j d').Wired := by
  have hj (direction' : Direction) : s.relay.wires (j, direction') = d.wires j direction' := by
    rw [h.wires, hd]
    rfl
  have hc : s.relay.copiers (j, direction) = none :=
    Relay.copiers_eq_none_of_wires ((hj direction).trans hnone)
  refine ⟨h.conserves.start hc source destination, h.flagged.start _ source destination,
    fun j' direction' => ?_, fun j' d'' hd'' => ?_⟩
  · change (s.relay.start (j, direction) source destination).wires (j', direction') = _
    rw [Relay.wires_start, setDevice_devices]
    by_cases hjj : j' = j
    · subst hjj
      rw [if_pos rfl]
      by_cases hdir : direction' = direction
      · subst hdir
        rw [if_pos rfl]
        exact hsome.symm
      · rw [if_neg (by simpa using hdir), hj]
        exact (hother direction' hdir).symm
    · rw [if_neg (by simp [hjj]), if_neg hjj]
      exact h.wires j' direction'
  · rw [setDevice_devices] at hd''
    split at hd''
    · cases hd''
      exact hnamed
    · exact h.named j' d'' hd''

theorem openDevice (h : s.Wired) (j : ℕ) (macAddress : String) (uuid : Option Uuid) :
    (s.openDevice j macAddress uuid).Wired := by
  unfold ShellBridge.openDevice
  cases hj : s.devices j with
  | some d => exact h
  | none =>
    have hnew (c : ℕ × Direction) (source destination : Endpoint)
        (hc : s.relay.wires c = some (source, destination)) :
        source ≠ .device j ∧ destination ≠ .device j := by
      rcases c with ⟨j', direction⟩
      obtain ⟨d, m, hd, -, -, rfl, rfl⟩ := h.wire hc
      have hne : j' ≠ j := by
        rintro rfl
        rw [hj] at hd
        cases hd
      cases direction <;> simp [Direction.source, Direction.destination, hne]
    refine ⟨h.conserves.connect hnew, h.flagged.of_eq rfl rfl, fun j' direction => ?_,
      fun j' d hd => ?_⟩
    · have hw := h.wires j' direction
      dsimp only
      rw [setDevice_devices]
      by_cases heq : j' = j
      · subst heq
        rw [hj] at hw
        rw [if_pos rfl]
        exact hw
      · rw [if_neg heq]
        exact hw
    · rw [setDevice_devices] at hd
      split at hd
      · cases hd
        exact ⟨nofun, nofun, fun _ => rfl, nofun⟩
      · exact h.named j' d hd

theorem openManager (h : s.Wired) (hreg : s.Registered) (m : ℕ) (macAddress : String) (uuid : Uuid)
    (online : Bool) : (s.openManager m macAddress uuid online).Wired := by
  unfold ShellBridge.openManager
  cases hm : s.managers m with
  | some phase => exact h
  | none =>
    have hshells : s.shells m = none := by
      rw [Option.eq_none_iff_forall_ne_some]
      exact fun shell hshell => hreg.made m shell hshell hm
    have hnew (c : ℕ × Direction) (source destination : Endpoint)
        (hc : s.relay.wires c = some (source, destination)) :
        source ≠ .manager m ∧ destination ≠ .manager m := by
      rcases c with ⟨j, direction⟩
      obtain ⟨d, m', hd, hm', -, rfl, rfl⟩ := h.wire hc
      obtain ⟨shell, hshell, -⟩ := (h.named j d hd).shell m' hm'
      have hne : m' ≠ m := by
        rintro rfl
        rw [hshells] at hshell
        cases hshell
      cases direction <;> simp [Direction.source, Direction.destination, hne]
    have hconnect : (s.setRelay (s.relay.connect (.manager m))).Wired :=
      h.setRelay (h.conserves.connect hnew) (h.flagged.of_eq rfl rfl) rfl
    dsimp only
    split
    · have hadd (shell : ReverseShell) : (((s.setRelay (s.relay.connect (.manager m))).setShell m
          shell).addSession m shell).Wired := by
        refine hconnect.of_shells rfl rfl fun m' shell' hshell' => ⟨shell', ?_, rfl, rfl, id⟩
        change (s.setShell m shell).shells m' = _
        rw [setShell_shells, if_neg]
        · exact hshell'
        · rintro rfl
          exact Option.some_ne_none shell' (hshell'.symm.trans hshells)
      exact (hadd _).setManager m .created
    · exact hconnect.setManager m .closing

theorem managerStep (h : s.Wired) (hreg : s.Registered) (m : ℕ) (sent : Bool) :
    (s.managerStep m sent).Wired := by
  cases hm : s.managers m with
  | none =>
    rw [managerStep_of_none sent hm]
    exact h
  | some phase =>
    have hstep := manager_step hreg sent hm
    generalize s.managerStep m sent = s' at hstep
    cases hstep with
    | told | waited | deviceGone | deviceThere | managerGone | managerThere =>
      exact h.setManager m _
    | removed hshell hremove =>
      obtain ⟨s', hremove', -, -, hrelay, -, hshells, hdevices⟩ := hreg.remove hm hshell
      rw [hremove] at hremove'
      cases hremove'
      refine (h.of_shells hrelay hdevices fun m' shell hshell => ?_).setManager m _
      exact ⟨shell, by rw [hshells, hshell], rfl, rfl, id⟩
    | closed => exact (h.close _).setManager m _
    | finished => exact h

theorem deviceStep (h : s.Wired) (hreg : s.Registered) (j : ℕ) : (s.deviceStep j).Wired := by
  cases hd : s.devices j with
  | none =>
    rw [deviceStep_of_none hd]
    exact h
  | some d =>
    have hnamed := h.named j d hd
    have hstep := device_step h hd
    generalize s.deviceStep j = s' at hstep
    cases hstep with
    | invalid hphase | unknown hphase =>
      have hnone := hnamed.shellless (.inl hphase)
      refine h.setDevice hd (fun direction => ?_)
        ⟨hnamed.shell, nofun, fun _ => hnone, fun _ m shell hm => ?_⟩
      · simp [DeviceThread.wires, hnone]
      · rw [hnone] at hm
        cases hm
    | find hphase huuid hentry =>
      have hnone := hnamed.shellless (.inl hphase)
      obtain ⟨shell, -, hshell, hkey, -⟩ := hreg.entry _ _ hentry
      obtain ⟨hmac, heq⟩ := formatShellKey_inj hkey
      refine h.setDevice hd (fun direction => ?_) ⟨fun m hm => ?_, fun _ => nofun, nofun,
        nofun⟩
      · cases direction <;> simp [DeviceThread.wires, hnone, DevicePhase.started]
      · cases hm
        exact ⟨shell, hshell, hmac, by rw [huuid, heq]⟩
    | @connect m shell hphase hm hshell =>
      have hset : (s.setShell m { shell with deviceConnected := true }).Wired :=
        h.setShell hshell rfl rfl id
      refine hset.setDevice hd (fun direction => ?_)
        ⟨(hset.named j d hd).shell, fun _ => ?_, nofun, nofun⟩
      · cases direction <;> simp [DeviceThread.wires, hphase, DevicePhase.started]
      · rw [hm]
        exact Option.some_ne_none _
    | startUp hphase hm =>
      refine h.start hd ?_ ?_ (fun direction hne => ?_) ⟨hnamed.shell, fun _ => ?_, nofun, nofun⟩
      · simp [DeviceThread.wires, hphase, DevicePhase.started]
      · simp [DeviceThread.wires, hm, DevicePhase.started]
      · cases direction with
        | up => exact (hne rfl).elim
        | down => simp [DeviceThread.wires, hphase, DevicePhase.started]
      · rw [hm]
        exact Option.some_ne_none _
    | startDown hphase hm =>
      refine h.start hd ?_ ?_ (fun direction hne => ?_) ⟨hnamed.shell, fun _ => ?_, nofun, nofun⟩
      · simp [DeviceThread.wires, hphase, DevicePhase.started]
      · simp [DeviceThread.wires, hm, DevicePhase.started]
      · cases direction with
        | up => simp [DeviceThread.wires, hphase, DevicePhase.started]
        | down => exact (hne rfl).elim
      · rw [hm]
        exact Option.some_ne_none _
    | died hphase =>
      refine h.setDevice hd (fun direction => ?_) ⟨hnamed.shell, fun _ => ?_, nofun, nofun⟩
      · cases direction <;> simp [DeviceThread.wires, hphase, DevicePhase.started]
      · exact hnamed.attached (by rw [hphase]; rfl)
    | waits => exact h
    | @signal m shell hphase hm hshell =>
      have hset : (s.setShell m { shell with deviceConnectionClosed := true }).Wired :=
        h.setShell hshell rfl rfl fun _ => rfl
      refine hset.setDevice hd (fun direction => ?_)
        ⟨(hset.named j d hd).shell, nofun, nofun, fun _ m' shell' hm' hshell' => ?_⟩
      · cases direction <;> simp [DeviceThread.wires, hphase, DevicePhase.started]
      · cases hm.symm.trans hm'
        rw [setShell_shells, if_pos rfl] at hshell'
        cases hshell'
        rfl
    | closed hphase =>
      have hclose := h.close (.device j)
      refine hclose.setDevice hd (fun direction => ?_)
        ⟨hnamed.shell, nofun, nofun, fun _ => hnamed.signalled (.inl hphase)⟩
      cases direction <;> simp [DeviceThread.wires, hphase, DevicePhase.started]
    | finished => exact h

end Wired

/-! ## Runs -/

/-- What holds in every state of the server. -/
structure Consistent (s : ShellBridge α) : Prop where
  registered : s.Registered
  wired : s.Wired

theorem consistent_init : (init : ShellBridge α).Consistent := by
  refine ⟨⟨nofun, nofun, nofun, nofun, nofun⟩, ⟨⟨fun _ => rfl, nofun, nofun, nofun⟩, nofun, ?_, nofun⟩⟩
  intro j direction
  rfl

section Steps

variable {s : ShellBridge α}

theorem Registered.deviceStep (h : s.Registered) (hwired : s.Wired) (j : ℕ) :
    (s.deviceStep j).Registered := by
  cases hd : s.devices j with
  | none =>
    rw [deviceStep_of_none hd]
    exact h
  | some d =>
    have hstep := device_step hwired hd
    generalize s.deviceStep j = s' at hstep
    cases hstep with
    | invalid | unknown | find | startUp | startDown | died | closed => exact h.of_eq rfl rfl rfl
    | @connect m shell hphase hm hshell =>
      have hset : (s.setShell m { shell with deviceConnected := true }).Registered :=
        h.setShell hshell rfl rfl
      exact hset.of_eq rfl rfl rfl
    | @signal m shell hphase hm hshell =>
      have hset : (s.setShell m { shell with deviceConnectionClosed := true }).Registered :=
        h.setShell hshell rfl rfl
      exact hset.of_eq rfl rfl rfl
    | waits | finished => exact h

theorem Registered.openManager (h : s.Registered) {m : ℕ} {macAddress : String} {uuid : Uuid}
    (online : Bool) (hfresh : ∀ m shell, s.shells m = some shell → shell.uuid ≠ uuid) :
    (s.openManager m macAddress uuid online).Registered := by
  unfold ShellBridge.openManager
  cases hm : s.managers m with
  | some phase => exact h
  | none =>
    have hrelay : (s.setRelay (s.relay.connect (.manager m))).Registered := h.of_eq rfl rfl rfl
    dsimp only
    split
    · exact hrelay.create hm hfresh
    · exact hrelay.refuse hm

theorem Consistent.next (h : s.Consistent) {event : ShellEvent α} (hfresh : s.Fresh event) :
    (s.next event).Consistent := by
  cases event with
  | openManager m macAddress uuid online =>
    exact ⟨h.registered.openManager online hfresh, h.wired.openManager h.registered m _ _ online⟩
  | manager m sent =>
    exact ⟨h.registered.managerStep m sent, h.wired.managerStep h.registered m sent⟩
  | openDevice j macAddress uuid =>
    refine ⟨?_, h.wired.openDevice j macAddress uuid⟩
    change (s.openDevice j macAddress uuid).Registered
    unfold ShellBridge.openDevice
    cases s.devices j with
    | none => exact h.registered.of_eq rfl rfl rfl
    | some d => exact h.registered
  | device j =>
    exact ⟨h.registered.deviceStep h.wired j, h.wired.deviceStep h.registered j⟩
  | copier j direction => exact ⟨h.registered.of_eq rfl rfl rfl, h.wired.copy (j, direction)⟩
  | arrive e x => exact ⟨h.registered.of_eq rfl rfl rfl, h.wired.arrive e x⟩
  | close e => exact ⟨h.registered.of_eq rfl rfl rfl, h.wired.close e⟩

theorem consistent_run {events : List (ShellEvent α)} (hrun : Along next Fresh init events) :
    (events.foldl next (init : ShellBridge α)).Consistent :=
  hrun.foldl_invariant (fun _ _ h hfresh => h.next hfresh) consistent_init

end Steps

/-- A manager and a device that meet; the device sends an item, and it gets to the manager. -/
def meeting : List (ShellEvent Char) :=
  let uuid : Uuid := ⟨"2f1e0d3c-5b6a-4798-8a9b-0c1d2e3f4a5b", by decide⟩
  [.openManager 0 "02:42" uuid true, .manager 0 true, .openDevice 0 "02:42" (some uuid), .device 0,
    .device 0, .device 0, .device 0, .arrive (.device 0) '$', .copier 0 .up, .copier 0 .up,
    .copier 0 .up]

theorem fresh_meeting : Along next Fresh init meeting :=
  ⟨nofun, Along.of_forall fun event hevent s => by
    simp only [List.mem_cons, List.not_mem_nil, or_false] at hevent
    rcases hevent with rfl | rfl | rfl | rfl | rfl | rfl | rfl | rfl | rfl | rfl <;> trivial⟩

end ShellBridge

end Rdfm.Server
