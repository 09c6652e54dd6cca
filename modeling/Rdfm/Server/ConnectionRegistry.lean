import Mathlib.Logic.Function.Basic
import Rdfm.Lib.Transition

/-!
# The registry of device connections

`start_device_event_loop`: a connection looks up whether its device has one already, waits if that
one is stale, adds itself to `RemoteDevices`, runs its event loop and removes itself at the end.
Entries are found, replaced and removed by the address of the device alone. Connections take these
steps side by side in any order, and a socket can close at any time.

A connection that adds itself over the entry of another takes a later removal with it: as long as
every connection finds no entry when it adds itself, the registry is right, and in a run in which all
event loops have ended it is right only then (`registry_safe`).
-/

namespace Rdfm.Server

open Rdfm.Lib

/-! ## Steps -/

/-- Where a connection is in `start_device_event_loop`. -/
inductive LoopPhase where
  /-- Before the look-up. -/
  | starting
  /-- In the two seconds after a stale connection was told to close. -/
  | waiting
  | adding
  | running
  /-- The event loop has ended; the `finally` block comes next. -/
  | leaving
  | closed
  /-- Duplicate connections are not allowed. -/
  | refused
  /-- `remove` raised a `KeyError`. -/
  | failed
deriving DecidableEq, Repr

/-- Connections are numbered; those that have not begun are `starting`. -/
structure ConnectionRegistry where
  remoteDevices : String → Option Nat
  phase : Nat → LoopPhase
  /-- `ws.connected`. -/
  connected : Nat → Bool
  /-- The connections in the order in which they added themselves. -/
  added : List Nat

inductive ConnectionEvent where
  | get (i : Nat)
  | wake (i : Nat)
  | add (i : Nat)
  /-- The event loop raises. -/
  | exit (i : Nat)
  | remove (i : Nat)
  /-- The socket closes. -/
  | drop (i : Nat)
deriving DecidableEq, Repr

namespace ConnectionRegistry

def init : ConnectionRegistry := ⟨fun _ => none, fun _ => .starting, fun _ => true, []⟩

variable (mac : Nat → String) (s : ConnectionRegistry)

def setPhase (i : Nat) (phase : LoopPhase) : ConnectionRegistry :=
  { s with phase := Function.update s.phase i phase }

/-- The look-up of a previous connection, and what follows from it. -/
def get (i : Nat) : ConnectionRegistry :=
  match s.remoteDevices (mac i) with
  | none => s.setPhase i .adding
  | some previous => if s.connected previous then s.setPhase i .refused else s.setPhase i .waiting

/-- `RemoteDevices.add`. -/
def add (i : Nat) : ConnectionRegistry :=
  { s.setPhase i .running with
    remoteDevices := Function.update s.remoteDevices (mac i) (some i)
    added := s.added ++ [i] }

/-- `RemoteDevices.remove`: `pop` raises if there is no entry. -/
def remove (i : Nat) : ConnectionRegistry :=
  match s.remoteDevices (mac i) with
  | none => s.setPhase i .failed
  | some _ =>
    { s.setPhase i .closed with remoteDevices := Function.update s.remoteDevices (mac i) none }

/-- One step. A step that the connection has not come to does nothing. -/
def step (s : ConnectionRegistry) : ConnectionEvent → ConnectionRegistry
  | .get i => if s.phase i = .starting then s.get mac i else s
  | .wake i => if s.phase i = .waiting then s.setPhase i .adding else s
  | .add i => if s.phase i = .adding then s.add mac i else s
  | .exit i => if s.phase i = .running then s.setPhase i .leaving else s
  | .remove i => if s.phase i = .leaving then s.remove mac i else s
  | .drop i => { s with connected := Function.update s.connected i false }

/-! ## Properties -/

/-- Another connection of the device added itself later. -/
def Replaced (i : Nat) : Prop :=
  ∃ before after, s.added = before ++ i :: after ∧ ∃ j ∈ after, mac j = mac i

/-- A running event loop is registered unless it was replaced, one that ends finds no entry but its
own, one connected event loop runs for a device, and `remove` has not raised. -/
structure Safe : Prop where
  registered : ∀ i, s.phase i = .running → s.remoteDevices (mac i) = some i ∨ s.Replaced mac i
  removal : ∀ i, s.phase i = .leaving → ∀ j, s.remoteDevices (mac i) = some j → j = i
  single : ∀ i j, s.phase i = .running → s.connected i → s.phase j = .running → s.connected j →
    mac i = mac j → i = j
  noError : ∀ i, s.phase i ≠ .failed

/-- A connection adds itself only while its device has no entry. -/
def AddsAlone : ConnectionEvent → Prop
  | .add i => s.phase i = .adding → s.remoteDevices (mac i) = none
  | _ => True

/-- The event loop was entered, and `remove` has not been called. -/
def Live (i : Nat) : Prop := s.phase i = .running ∨ s.phase i = .leaving

/-! ## Adding only without an entry -/

variable {mac s} {i j : Nat} {p : LoopPhase} {e : ConnectionEvent}

theorem setPhase_phase_self : (s.setPhase i p).phase i = p := Function.update_self ..

theorem setPhase_phase_of_ne (h : j ≠ i) : (s.setPhase i p).phase j = s.phase j :=
  Function.update_of_ne h ..

/-- A phase outside the event loop, and not after a failed `remove`. -/
def LoopPhase.Idle (p : LoopPhase) : Prop := p ≠ .running ∧ p ≠ .leaving ∧ p ≠ .failed

/-- What a step can do: it moves a connection between phases outside the event loop, adds or removes
an entry, ends an event loop, or closes a socket. -/
theorem step_rule {P : ConnectionRegistry → Prop} (hstay : P s)
    (hidle : ∀ i p, LoopPhase.Idle (s.phase i) → LoopPhase.Idle p → P (s.setPhase i p))
    (hadd : ∀ i, e = .add i → s.phase i = .adding → P (s.add mac i))
    (hexit : ∀ i, s.phase i = .running → P (s.setPhase i .leaving))
    (hremove : ∀ i, s.phase i = .leaving → P (s.remove mac i))
    (hdrop : ∀ i, P { s with connected := Function.update s.connected i false }) :
    P (s.step mac e) := by
  cases e with
  | get i =>
    dsimp only [step]
    split
    · next hi =>
      have hi : LoopPhase.Idle (s.phase i) := by
        rw [hi]
        exact ⟨nofun, nofun, nofun⟩
      unfold get
      split
      · exact hidle i _ hi ⟨nofun, nofun, nofun⟩
      · split
        · exact hidle i _ hi ⟨nofun, nofun, nofun⟩
        · exact hidle i _ hi ⟨nofun, nofun, nofun⟩
    · exact hstay
  | wake i =>
    dsimp only [step]
    split
    · next hi =>
      refine hidle i _ ?_ ⟨nofun, nofun, nofun⟩
      rw [hi]
      exact ⟨nofun, nofun, nofun⟩
    · exact hstay
  | add i =>
    dsimp only [step]
    split
    · next hi => exact hadd i rfl hi
    · exact hstay
  | exit i =>
    dsimp only [step]
    split
    · next hi => exact hexit i hi
    · exact hstay
  | remove i =>
    dsimp only [step]
    split
    · next hi => exact hremove i hi
    · exact hstay
  | drop i => exact hdrop i

/-- What holds while connections add themselves without an entry: every event loop is the one in the
registry. -/
structure Exact (mac : Nat → String) (s : ConnectionRegistry) : Prop where
  registered : ∀ i, s.Live i → s.remoteDevices (mac i) = some i
  noError : ∀ i, s.phase i ≠ .failed

theorem live_setPhase_of_ne (h : j ≠ i) : (s.setPhase i p).Live j ↔ s.Live j := by
  unfold Live
  rw [setPhase_phase_of_ne h]

theorem Live.setPhase (h : (s.setPhase i p).Live j) (hi : p = .running ∨ p = .leaving → s.Live i) :
    s.Live j := by
  by_cases hij : j = i
  · subst hij
    unfold Live at h
    rw [setPhase_phase_self] at h
    exact hi h
  · exact (live_setPhase_of_ne hij).mp h

theorem noError_setPhase (h : ∀ i, s.phase i ≠ .failed) (hp : p ≠ .failed) (j : Nat) :
    (s.setPhase i p).phase j ≠ .failed := by
  by_cases hij : j = i
  · subst hij
    rw [setPhase_phase_self]
    exact hp
  · rw [setPhase_phase_of_ne hij]
    exact h j

theorem Exact.setPhase (h : s.Exact mac) (hp : p ≠ .failed)
    (hi : p = .running ∨ p = .leaving → s.Live i) : (s.setPhase i p).Exact mac :=
  ⟨fun j hj => h.registered j (hj.setPhase hi), noError_setPhase h.noError hp⟩

theorem Exact.add (h : s.Exact mac) (hnone : s.remoteDevices (mac i) = none) :
    (s.add mac i).Exact mac := by
  refine ⟨fun j hj => ?_, noError_setPhase h.noError nofun⟩
  have hj : (s.setPhase i .running).Live j := hj
  dsimp only [ConnectionRegistry.add]
  by_cases hij : j = i
  · rw [hij, Function.update_self]
  · have hlive : s.Live j := (live_setPhase_of_ne hij).mp hj
    have hne : mac j ≠ mac i := by
      intro hmac
      have := h.registered j hlive
      rw [hmac, hnone] at this
      cases this
    rw [Function.update_of_ne hne]
    exact h.registered j hlive

theorem Exact.remove (h : s.Exact mac) (hi : s.phase i = .leaving) :
    (s.remove mac i).Exact mac := by
  have hreg := h.registered i (.inr hi)
  unfold ConnectionRegistry.remove
  rw [hreg]
  refine ⟨fun j hj => ?_, noError_setPhase h.noError nofun⟩
  have hj : (s.setPhase i .closed).Live j := hj
  have hlive : s.Live j := hj.setPhase nofun
  have hij : j ≠ i := by
    rintro rfl
    unfold Live at hj
    rw [setPhase_phase_self] at hj
    rcases hj with hj | hj <;> cases hj
  have hne : mac j ≠ mac i := by
    intro hmac
    have := h.registered j hlive
    rw [hmac, hreg] at this
    exact hij (Option.some.inj this).symm
  dsimp only
  rw [Function.update_of_ne hne]
  exact h.registered j hlive

theorem Exact.step (h : s.Exact mac) (he : s.AddsAlone mac e) : (s.step mac e).Exact mac := by
  refine step_rule h ?_ ?_ ?_ ?_ ?_
  · intro i p _ hp
    exact h.setPhase hp.2.2 fun hlive => absurd hlive (not_or.mpr ⟨hp.1, hp.2.1⟩)
  · rintro i rfl hi
    exact h.add (he hi)
  · intro i hi
    exact h.setPhase nofun fun _ => .inl hi
  · intro i hi
    exact h.remove hi
  · intro i
    exact ⟨h.registered, h.noError⟩

theorem Exact.safe (h : s.Exact mac) : s.Safe mac where
  registered i hi := .inl (h.registered i (.inl hi))
  removal i hi j hj := Option.some.inj (hj.symm.trans (h.registered i (.inr hi)))
  single i j hi _ hj _ hmac := by
    have := h.registered i (.inl hi)
    rw [hmac, h.registered j (.inl hj)] at this
    exact (Option.some.inj this).symm
  noError := h.noError

/-! ## Adding over an entry -/

/-- The connection in the registry is in its event loop. -/
def Owned (mac : Nat → String) (s : ConnectionRegistry) : Prop :=
  ∀ m i, s.remoteDevices m = some i → s.Live i ∧ mac i = m

/-- An event loop is not in the registry. -/
def Orphaned (mac : Nat → String) (s : ConnectionRegistry) : Prop :=
  ∃ i, s.Live i ∧ s.remoteDevices (mac i) ≠ some i

theorem Live.ne_of_idle (h : s.Live j) (hi : LoopPhase.Idle (s.phase i)) : j ≠ i := by
  rintro rfl
  rcases h with h | h
  · exact hi.1 h
  · exact hi.2.1 h

theorem Live.exit (h : s.Live j) : (s.setPhase i .leaving).Live j := by
  by_cases hij : j = i
  · subst hij
    exact .inr setPhase_phase_self
  · exact (live_setPhase_of_ne hij).mpr h

theorem idle_adding : LoopPhase.Idle .adding := ⟨nofun, nofun, nofun⟩

theorem Owned.add (h : s.Owned mac) (hi : s.phase i = .adding) : (s.add mac i).Owned mac := by
  intro m j hj
  dsimp only [ConnectionRegistry.add] at hj
  by_cases hm : m = mac i
  · subst hm
    rw [Function.update_self] at hj
    cases hj
    exact ⟨.inl setPhase_phase_self, rfl⟩
  · rw [Function.update_of_ne hm] at hj
    rcases h m j hj with ⟨hlive, hmac⟩
    exact ⟨(live_setPhase_of_ne (hlive.ne_of_idle (hi ▸ idle_adding))).mpr hlive, hmac⟩

theorem Owned.remove (h : s.Owned mac) : (s.remove mac i).Owned mac := by
  unfold ConnectionRegistry.remove
  split
  · next hnone =>
    intro m j hj
    rcases h m j hj with ⟨hlive, hmac⟩
    refine ⟨(live_setPhase_of_ne ?_).mpr hlive, hmac⟩
    rintro rfl
    rw [hmac, show s.remoteDevices m = some j from hj] at hnone
    cases hnone
  · intro m j hj
    dsimp only at hj
    by_cases hm : m = mac i
    · subst hm
      rw [Function.update_self] at hj
      cases hj
    · rw [Function.update_of_ne hm] at hj
      rcases h m j hj with ⟨hlive, hmac⟩
      refine ⟨(live_setPhase_of_ne ?_).mpr hlive, hmac⟩
      rintro rfl
      exact hm hmac.symm

theorem Owned.step (h : s.Owned mac) : (s.step mac e).Owned mac := by
  refine step_rule h ?_ ?_ ?_ ?_ ?_
  · intro i p hi _ m j hj
    rcases h m j hj with ⟨hlive, hmac⟩
    exact ⟨(live_setPhase_of_ne (hlive.ne_of_idle hi)).mpr hlive, hmac⟩
  · intro i _ hi
    exact h.add hi
  · intro i _ m j hj
    rcases h m j hj with ⟨hlive, hmac⟩
    exact ⟨hlive.exit, hmac⟩
  · intro i _
    exact h.remove
  · intro i m j hj
    exact h m j hj

/-- Whatever a removal does, an event loop stays without its entry: the removed entry was another's,
or it was the one of the event loop that has ended. -/
theorem Orphaned.remove (h : s.Orphaned mac) (howned : s.Owned mac)
    (hok : (s.remove mac i).phase i ≠ .failed) : (s.remove mac i).Orphaned mac := by
  rcases h with ⟨j, hlive, hne⟩
  unfold ConnectionRegistry.remove at hok ⊢
  split at hok
  · exact absurd setPhase_phase_self hok
  · next k hk =>
    rcases howned _ _ hk with ⟨hlive', hmac⟩
    by_cases hji : j = i
    · -- The orphan removes the entry of another event loop.
      subst hji
      have hkj : k ≠ j := by
        rintro rfl
        exact hne hk
      refine ⟨k, (live_setPhase_of_ne hkj).mpr hlive', ?_⟩
      dsimp only
      rw [hmac, Function.update_self]
      exact nofun
    · refine ⟨j, (live_setPhase_of_ne hji).mpr hlive, ?_⟩
      dsimp only
      by_cases hm : mac j = mac i
      · rw [hm, Function.update_self]
        exact nofun
      · rwa [Function.update_of_ne hm]

theorem Orphaned.step (h : s.Orphaned mac) (howned : s.Owned mac)
    (hok : ∀ i, (s.step mac e).phase i ≠ .failed) : (s.step mac e).Orphaned mac := by
  revert hok
  refine step_rule (P := fun s' => (∀ i, s'.phase i ≠ .failed) → s'.Orphaned mac)
    (fun _ => h) ?_ ?_ ?_ ?_ ?_
  · rintro i p hi - -
    rcases h with ⟨j, hlive, hne⟩
    exact ⟨j, (live_setPhase_of_ne (hlive.ne_of_idle hi)).mpr hlive, hne⟩
  · rintro i - hi -
    rcases h with ⟨j, hlive, hne⟩
    have hji : j ≠ i := hlive.ne_of_idle (hi ▸ idle_adding)
    refine ⟨j, (live_setPhase_of_ne hji).mpr hlive, ?_⟩
    dsimp only [ConnectionRegistry.add]
    by_cases hm : mac j = mac i
    · rw [hm, Function.update_self]
      exact fun heq => hji (Option.some.inj heq).symm
    · rwa [Function.update_of_ne hm]
  · rintro i - -
    rcases h with ⟨j, hlive, hne⟩
    exact ⟨j, hlive.exit, hne⟩
  · intro i _ hok
    exact h.remove howned (hok i)
  · rintro i -
    exact h

theorem orphaned_of_add (howned : s.Owned mac) (hi : s.phase i = .adding)
    (hentry : s.remoteDevices (mac i) ≠ none) : (s.step mac (.add i)).Orphaned mac := by
  rcases Option.ne_none_iff_exists'.mp hentry with ⟨j, hj⟩
  rcases howned _ _ hj with ⟨hlive, hmac⟩
  have hji : j ≠ i := hlive.ne_of_idle (hi ▸ idle_adding)
  dsimp only [step]
  rw [if_pos hi]
  refine ⟨j, (live_setPhase_of_ne hji).mpr hlive, ?_⟩
  dsimp only [ConnectionRegistry.add]
  rw [hmac, Function.update_self]
  exact fun heq => hji (Option.some.inj heq).symm

/-! ## Runs -/

variable {events : List ConnectionEvent}

/-- `remove` raises nowhere on the way. -/
def NeverFails (mac : Nat → String) (s : ConnectionRegistry) (events : List ConnectionEvent) : Prop :=
  ∀ before, before <+: events → ∀ i, (before.foldl (step mac) s).phase i ≠ .failed

theorem NeverFails.tail (h : NeverFails mac s (e :: events)) :
    NeverFails mac (s.step mac e) events :=
  fun before hbefore => h (e :: before) (List.cons_prefix_cons.mpr ⟨rfl, hbefore⟩)

theorem NeverFails.head (h : NeverFails mac s (e :: events)) (i : Nat) :
    (s.step mac e).phase i ≠ .failed :=
  h.tail [] List.nil_prefix i

theorem Orphaned.run (h : s.Orphaned mac) (howned : s.Owned mac)
    (hok : NeverFails mac s events) :
    (events.foldl (ConnectionRegistry.step mac) s).Orphaned mac := by
  induction events generalizing s with
  | nil => exact h
  | cons e events ih => exact ih (h.step howned hok.head) howned.step hok.tail

/-- If all event loops have ended and `remove` never raised, nobody was added over an entry. -/
theorem addsAlone_of_ended (howned : s.Owned mac) (hok : NeverFails mac s events)
    (hended : ∀ i, ¬ (events.foldl (step mac) s).Live i) :
    Along (step mac) (AddsAlone mac) s events := by
  induction events generalizing s with
  | nil => trivial
  | cons e events ih =>
    refine ⟨?_, ih howned.step hok.tail hended⟩
    cases e with
    | add i =>
      intro hi
      by_contra hentry
      rcases (orphaned_of_add howned hi hentry).run howned.step hok.tail with ⟨j, hlive, -⟩
      exact hended j hlive
    | _ => trivial

/-- The registry after a run of connections, where connection `i` is one of the device `mac i`. -/
def run (mac : Nat → String) (events : List ConnectionEvent) : ConnectionRegistry :=
  events.foldl (step mac) init

theorem exact_init : init.Exact mac := by
  refine ⟨fun i hi => ?_, nofun⟩
  rcases hi with hi | hi <;> cases hi

end ConnectionRegistry

open ConnectionRegistry

/-- If every connection adds itself only while its device has no entry, the registry is safe in every
state; in a run at whose end no event loop is left, it is safe in every state only then. -/
theorem registry_safe (mac : Nat → String) (events : List ConnectionEvent) :
    (Along (step mac) (AddsAlone mac) init events →
      ∀ before, before <+: events → (run mac before).Safe mac) ∧
    ((∀ i, ¬ (run mac events).Live i) →
      (∀ before, before <+: events → (run mac before).Safe mac) →
      Along (step mac) (AddsAlone mac) init events) := by
  constructor
  · intro halone before hbefore
    have hexact : (run mac before).Exact mac :=
      Along.foldl_invariant (fun s e h he => h.step he) exact_init (halone.initial_segment hbefore)
    exact hexact.safe
  · intro hended hsafe
    exact addsAlone_of_ended nofun (fun before hbefore => (hsafe before hbefore).noError) hended

/-- Two connections of one device, one after the other. -/
theorem registry_safe_reconnect :
    (run (fun _ => "00:00:00:00:00:00") [.get 0, .add 0, .exit 0, .remove 0, .get 1, .add 1]).Safe
      fun _ => "00:00:00:00:00:00" :=
  (registry_safe _ [.get 0, .add 0, .exit 0, .remove 0, .get 1, .add 1]).1
    ⟨trivial, fun _ => rfl, trivial, trivial, trivial, fun _ => rfl, trivial⟩ _ (List.prefix_refl _)

/-- A stale connection outlives the wait: it removes the entry of the one that replaced it, and that
one's own `remove` raises. And two connections that both found no entry are both connected. -/
theorem registry_stale_removal :
    ¬ (∀ (mac : Nat → String) events, (run mac events).Safe mac) ∧
    (let stale : List ConnectionEvent :=
      [.get 0, .add 0, .drop 0, .get 1, .wake 1, .add 1, .exit 0, .remove 0]
     (run (fun _ => "m") stale).phase 1 = .running ∧
     (run (fun _ => "m") stale).remoteDevices "m" = none ∧
     (run (fun _ => "m") stale).added = [0, 1] ∧
     (run (fun _ => "m") (stale ++ [.exit 1, .remove 1])).phase 1 = .failed) ∧
    (let both : List ConnectionEvent := [.get 0, .get 1, .add 0, .add 1]
     (run (fun _ => "m") both).phase 0 = .running ∧ (run (fun _ => "m") both).connected 0 ∧
     (run (fun _ => "m") both).phase 1 = .running ∧ (run (fun _ => "m") both).connected 1) := by
  refine ⟨fun h => ?_, by decide, by decide⟩
  exact (h (fun _ => "m") [.get 0, .add 0, .drop 0, .get 1, .wake 1, .add 1, .exit 0, .remove 0,
    .exit 1, .remove 1]).noError 1 (by decide)

end Rdfm.Server
