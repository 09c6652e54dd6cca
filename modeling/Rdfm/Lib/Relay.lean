import Mathlib.Data.List.Basic
import Mathlib.Logic.Function.Basic
import Mathlib.Tactic.Common

/-!
# Relays

Copiers between sockets. A copier looks at a flag, takes the first item that has arrived at its source
and sends it to its destination, again and again; it ends when the flag is set, or when one of its
sockets is closed, and then sets the flag. What a copier has taken it has sent, except for the last
item (`Conserves.taken`). A copier from a closed socket ends within a number of its own steps
(`work_copy`), and so does every copier whose flag is set (`rest_copy`).
-/

namespace Rdfm.Lib

/-- A socket. `arrived`, `taken` and `sent` are its history. -/
structure Socket (γ α : Type*) where
  connected : Bool
  /-- What has arrived and nobody has taken. -/
  input : List α
  arrived : List α
  taken : List (γ × α)
  sent : List (γ × α)

/-- Where a copier is. -/
inductive CopyPhase (α : Type*) where
  | checking
  | receiving
  | sending (x : α)
  | ended (dropped : Option α)

structure Copier (σ α : Type*) where
  source : σ
  destination : σ
  phase : CopyPhase α

structure Relay (σ γ ε α : Type*) where
  sockets : σ → Socket γ α
  copiers : γ → Option (Copier σ α)
  /-- The flags: a connection of theirs has died. -/
  died : ε → Bool

variable {σ γ ε α : Type*}

/-- The sockets of a copier. -/
def Relay.wires (s : Relay σ γ ε α) (c : γ) : Option (σ × σ) :=
  (s.copiers c).map fun k => (k.source, k.destination)

/-- What the copier took, but did not send. -/
def CopyPhase.held : CopyPhase α → List α
  | .sending x => [x]
  | .ended (some x) => [x]
  | _ => []

theorem CopyPhase.held_length (phase : CopyPhase α) : phase.held.length ≤ 1 := by
  cases phase with
  | checking | receiving => exact Nat.zero_le _
  | sending x => exact Nat.le_refl _
  | ended dropped => cases dropped <;> simp [held]

namespace Relay

theorem copiers_eq_none_of_wires {s : Relay σ γ ε α} {c : γ} (h : s.wires c = none) :
    s.copiers c = none := Option.map_eq_none_iff.mp h

theorem exists_copier_of_wires {s : Relay σ γ ε α} {c : γ} {source destination : σ}
    (h : s.wires c = some (source, destination)) :
    ∃ k, s.copiers c = some k ∧ k.source = source ∧ k.destination = destination := by
  obtain ⟨k, hk, heq⟩ := Option.map_eq_some_iff.mp h
  cases heq
  exact ⟨k, hk, rfl, rfl⟩

/-! ## Sockets -/

section Sockets

variable [DecidableEq σ] (s : Relay σ γ ε α)

def setSocket (e : σ) (socket : Socket γ α) : Relay σ γ ε α :=
  { s with sockets := Function.update s.sockets e socket }

/-- The socket is opened. -/
def connect (e : σ) : Relay σ γ ε α := s.setSocket e ⟨true, [], [], [], []⟩

/-- The peer sends an item. -/
def arrive (e : σ) (x : α) : Relay σ γ ε α :=
  let socket := s.sockets e
  if socket.connected then
    s.setSocket e { socket with input := socket.input ++ [x], arrived := socket.arrived ++ [x] }
  else s

/-- Either side closes the socket. -/
def close (e : σ) : Relay σ γ ε α := s.setSocket e { s.sockets e with connected := false }

def take (e : σ) (c : γ) (x : α) (rest : List α) : Relay σ γ ε α :=
  let socket := s.sockets e
  s.setSocket e { socket with input := rest, taken := socket.taken ++ [(c, x)] }

def put (e : σ) (c : γ) (x : α) : Relay σ γ ε α :=
  let socket := s.sockets e
  s.setSocket e { socket with sent := socket.sent ++ [(c, x)] }

@[simp] theorem setSocket_copiers (e : σ) (socket : Socket γ α) :
    (s.setSocket e socket).copiers = s.copiers := rfl

@[simp] theorem setSocket_died (e : σ) (socket : Socket γ α) :
    (s.setSocket e socket).died = s.died := rfl

theorem setSocket_sockets (e e' : σ) (socket : Socket γ α) :
    (s.setSocket e socket).sockets e' = if e' = e then socket else s.sockets e' :=
  Function.update_apply ..

@[simp] theorem take_copiers (e : σ) (c : γ) (x : α) (rest : List α) :
    (s.take e c x rest).copiers = s.copiers := rfl

@[simp] theorem take_died (e : σ) (c : γ) (x : α) (rest : List α) :
    (s.take e c x rest).died = s.died := rfl

@[simp] theorem put_copiers (e : σ) (c : γ) (x : α) : (s.put e c x).copiers = s.copiers := rfl

@[simp] theorem put_died (e : σ) (c : γ) (x : α) : (s.put e c x).died = s.died := rfl

@[simp] theorem take_connected (e e' : σ) (c : γ) (x : α) (rest : List α) :
    ((s.take e c x rest).sockets e').connected = (s.sockets e').connected := by
  unfold take
  rw [setSocket_sockets]
  split
  · next heq => rw [heq]
  · rfl

@[simp] theorem put_connected (e e' : σ) (c : γ) (x : α) :
    ((s.put e c x).sockets e').connected = (s.sockets e').connected := by
  unfold put
  rw [setSocket_sockets]
  split
  · next heq => rw [heq]
  · rfl

@[simp] theorem put_input (e e' : σ) (c : γ) (x : α) :
    ((s.put e c x).sockets e').input = (s.sockets e').input := by
  unfold put
  rw [setSocket_sockets]
  split
  · next heq => rw [heq]
  · rfl

@[simp] theorem wires_close (e : σ) : (s.close e).wires = s.wires := rfl

@[simp] theorem wires_connect (e : σ) : (s.connect e).wires = s.wires := rfl

@[simp] theorem close_copiers (e : σ) : (s.close e).copiers = s.copiers := rfl

@[simp] theorem close_died (e : σ) : (s.close e).died = s.died := rfl

@[simp] theorem connect_copiers (e : σ) : (s.connect e).copiers = s.copiers := rfl

@[simp] theorem connect_died (e : σ) : (s.connect e).died = s.died := rfl

@[simp] theorem arrive_copiers (e : σ) (x : α) : (s.arrive e x).copiers = s.copiers := by
  unfold arrive
  dsimp only
  split <;> rfl

@[simp] theorem wires_arrive (e : σ) (x : α) : (s.arrive e x).wires = s.wires := by
  funext c
  unfold wires
  rw [arrive_copiers]

@[simp] theorem arrive_died (e : σ) (x : α) : (s.arrive e x).died = s.died := by
  unfold arrive
  dsimp only
  split <;> rfl

end Sockets

/-! ## Copiers -/

section Copiers

variable [DecidableEq γ] (s : Relay σ γ ε α)

def setPhase (c : γ) (k : Copier σ α) (phase : CopyPhase α) : Relay σ γ ε α :=
  { s with copiers := Function.update s.copiers c (some { k with phase }) }

def start (c : γ) (source destination : σ) : Relay σ γ ε α :=
  s.setPhase c ⟨source, destination, .checking⟩ .checking

@[simp] theorem setPhase_sockets (c : γ) (k : Copier σ α) (phase : CopyPhase α) :
    (s.setPhase c k phase).sockets = s.sockets := rfl

@[simp] theorem setPhase_died (c : γ) (k : Copier σ α) (phase : CopyPhase α) :
    (s.setPhase c k phase).died = s.died := rfl

theorem setPhase_copiers (c c' : γ) (k : Copier σ α) (phase : CopyPhase α) :
    (s.setPhase c k phase).copiers c' = if c' = c then some { k with phase } else s.copiers c' :=
  Function.update_apply ..

theorem wires_start (c c' : γ) (source destination : σ) :
    (s.start c source destination).wires c' =
      if c' = c then some (source, destination) else s.wires c' := by
  unfold start wires
  rw [setPhase_copiers]
  split <;> rfl

@[simp] theorem start_sockets (c : γ) (source destination : σ) :
    (s.start c source destination).sockets = s.sockets := rfl

@[simp] theorem start_died (c : γ) (source destination : σ) :
    (s.start c source destination).died = s.died := rfl

variable {s}

/-- What does not look at the phase survives the change of a phase. -/
theorem exists_copier_setPhase {c c' : γ} {k : Copier σ α} (hk : s.copiers c = some k)
    {phase : CopyPhase α} {P : σ → σ → Prop}
    (h : ∃ k', s.copiers c' = some k' ∧ P k'.source k'.destination) :
    ∃ k', (s.setPhase c k phase).copiers c' = some k' ∧ P k'.source k'.destination := by
  obtain ⟨k', hk', hP⟩ := h
  rw [setPhase_copiers]
  split
  · next heq =>
    rw [heq, hk] at hk'
    cases hk'
    exact ⟨_, rfl, hP⟩
  · exact ⟨k', hk', hP⟩

end Copiers

section Died

variable [DecidableEq ε] (s : Relay σ γ ε α)

def die (f : ε) : Relay σ γ ε α := { s with died := Function.update s.died f true }

@[simp] theorem die_sockets (f : ε) : (s.die f).sockets = s.sockets := rfl

@[simp] theorem die_copiers (f : ε) : (s.die f).copiers = s.copiers := rfl

theorem die_died (f f' : ε) : (s.die f).died f' = (f' == f || s.died f') := by
  unfold die
  dsimp only
  rw [Function.update_apply]
  split
  · next h => simp [h]
  · next h => simp [h]

end Died

section Copy

variable [DecidableEq σ] [DecidableEq γ] [DecidableEq ε] (s : Relay σ γ ε α)

/-- One step of a copier. It receives nothing in time if nothing has arrived. -/
def copy (flag : γ → ε) (c : γ) : Relay σ γ ε α :=
  match s.copiers c with
  | none => s
  | some k =>
    match k.phase with
    | .checking => s.setPhase c k (if s.died (flag c) then .ended none else .receiving)
    | .receiving =>
      match (s.sockets k.source).input with
      | x :: rest => (s.take k.source c x rest).setPhase c k (.sending x)
      | [] =>
        if (s.sockets k.source).connected then s.setPhase c k .checking
        else (s.die (flag c)).setPhase c k (.ended none)
    | .sending x =>
      if (s.sockets k.destination).connected then
        (s.put k.destination c x).setPhase c k .checking
      else (s.die (flag c)).setPhase c k (.ended (some x))
    | .ended _ => s

/-- What a step of the copier `k` can do. -/
inductive CopyStep (flag : γ → ε) (c : γ) (k : Copier σ α) : Relay σ γ ε α → Prop
  | stop (hphase : k.phase = .checking) (hdied : s.died (flag c) = true) :
    CopyStep flag c k (s.setPhase c k (.ended none))
  | check (hphase : k.phase = .checking) (hdied : s.died (flag c) = false) :
    CopyStep flag c k (s.setPhase c k .receiving)
  | receive {x : α} {rest : List α} (hphase : k.phase = .receiving)
    (hinput : (s.sockets k.source).input = x :: rest) :
    CopyStep flag c k ((s.take k.source c x rest).setPhase c k (.sending x))
  | idle (hphase : k.phase = .receiving) (hinput : (s.sockets k.source).input = [])
    (hconnected : (s.sockets k.source).connected = true) :
    CopyStep flag c k (s.setPhase c k .checking)
  | sourceClosed (hphase : k.phase = .receiving) (hinput : (s.sockets k.source).input = [])
    (hconnected : (s.sockets k.source).connected = false) :
    CopyStep flag c k ((s.die (flag c)).setPhase c k (.ended none))
  | send {x : α} (hphase : k.phase = .sending x)
    (hconnected : (s.sockets k.destination).connected = true) :
    CopyStep flag c k ((s.put k.destination c x).setPhase c k .checking)
  | destinationClosed {x : α} (hphase : k.phase = .sending x)
    (hconnected : (s.sockets k.destination).connected = false) :
    CopyStep flag c k ((s.die (flag c)).setPhase c k (.ended (some x)))
  | finished {dropped : Option α} (hphase : k.phase = .ended dropped) : CopyStep flag c k s

variable {s}

theorem copy_step (flag : γ → ε) {c : γ} {k : Copier σ α} (hk : s.copiers c = some k) :
    CopyStep s flag c k (s.copy flag c) := by
  unfold copy
  rw [hk]
  dsimp only
  cases hphase : k.phase with
  | checking =>
    dsimp only
    cases hdied : s.died (flag c) with
    | true => exact .stop hphase hdied
    | false => exact .check hphase hdied
  | receiving =>
    dsimp only
    cases hinput : (s.sockets k.source).input with
    | cons x rest => exact .receive hphase hinput
    | nil =>
      dsimp only
      split
      · next hconnected => exact .idle hphase hinput hconnected
      · next hconnected => exact .sourceClosed hphase hinput ((Bool.not_eq_true _).mp hconnected)
  | sending x =>
    dsimp only
    split
    · next hconnected => exact .send hphase hconnected
    · next hconnected => exact .destinationClosed hphase ((Bool.not_eq_true _).mp hconnected)
  | ended dropped => exact .finished hphase

theorem copy_of_none (flag : γ → ε) {c : γ} (hc : s.copiers c = none) : s.copy flag c = s := by
  unfold copy
  rw [hc]

/-- A copier keeps its sockets. -/
@[simp] theorem wires_copy (flag : γ → ε) (c : γ) : (s.copy flag c).wires = s.wires := by
  cases hc : s.copiers c with
  | none => rw [copy_of_none flag hc]
  | some k =>
    have hset (s' : Relay σ γ ε α) (h : s'.copiers = s.copiers) (phase : CopyPhase α) :
        (s'.setPhase c k phase).wires = s.wires := by
      funext c'
      unfold wires
      rw [setPhase_copiers, h]
      split
      · next heq =>
        rw [heq, hc]
        rfl
      · rfl
    have hstep := copy_step flag hc
    generalize s.copy flag c = s' at hstep
    cases hstep with
    | stop | check | receive | idle | sourceClosed | send | destinationClosed => exact hset _ rfl _
    | finished => rfl

/-- No copier is made or ended but by its own step. -/
theorem copy_copiers_of_ne (flag : γ → ε) {c c' : γ} (h : c' ≠ c) :
    (s.copy flag c).copiers c' = s.copiers c' := by
  cases hc : s.copiers c with
  | none => rw [copy_of_none flag hc]
  | some kc =>
    have hstep := copy_step flag hc
    generalize s.copy flag c = s' at hstep
    cases hstep with
    | stop | check | receive | idle | sourceClosed | send | destinationClosed =>
      simp [setPhase_copiers, h]
    | finished => rfl

end Copy

/-! ## Ends -/

section Ends

variable (s : Relay σ γ ε α) (flag : γ → ε)

/-- A copier that has ended has set its flag, or has seen it set. -/
def Flagged : Prop :=
  ∀ c k dropped, s.copiers c = some k → k.phase = .ended dropped → s.died (flag c) = true

/-- How many steps a copier from a closed socket has left. -/
def work (c : γ) : ℕ :=
  match s.copiers c with
  | none => 0
  | some k =>
    match k.phase with
    | .checking => 2 + 3 * (s.sockets k.source).input.length
    | .receiving => 1 + 3 * (s.sockets k.source).input.length
    | .sending _ => 3 + 3 * (s.sockets k.source).input.length
    | .ended _ => 0

/-- How many steps a copier with its flag set has left. -/
def rest (c : γ) : ℕ :=
  match s.copiers c with
  | none => 0
  | some k =>
    match k.phase with
    | .checking => 1
    | .receiving => 3
    | .sending _ => 2
    | .ended _ => 0

variable {s flag}

/-- What takes no items in makes no work. -/
theorem work_le {s' : Relay σ γ ε α} {c : γ} (hcopiers : s'.copiers c = s.copiers c)
    (hinput : ∀ k, s.copiers c = some k →
      (s'.sockets k.source).input.length ≤ (s.sockets k.source).input.length) :
    s'.work c ≤ s.work c := by
  unfold work
  rw [hcopiers]
  cases hc : s.copiers c with
  | none => exact Nat.le_refl _
  | some k =>
    have := hinput k hc
    dsimp only
    cases k.phase <;> dsimp only <;> omega

theorem Flagged.of_eq {s' : Relay σ γ ε α} (h : s.Flagged flag) (hcopiers : s'.copiers = s.copiers)
    (hdied : s'.died = s.died) : s'.Flagged flag := by
  unfold Flagged
  rw [hcopiers, hdied]
  exact h

theorem rest_congr {s' : Relay σ γ ε α} {c : γ} (hcopiers : s'.copiers c = s.copiers c) :
    s'.rest c = s.rest c := by
  unfold rest
  rw [hcopiers]

theorem work_le_input {c : γ} {k : Copier σ α} (hk : s.copiers c = some k) :
    s.work c ≤ 3 + 3 * (s.sockets k.source).input.length := by
  unfold work
  rw [hk]
  dsimp only
  cases k.phase <;> dsimp only <;> omega

theorem rest_le (s : Relay σ γ ε α) (c : γ) : s.rest c ≤ 3 := by
  unfold rest
  cases s.copiers c with
  | none => exact Nat.zero_le _
  | some k => cases hphase : k.phase <;> simp [hphase]

/-- A copier that has no work left has ended. -/
theorem ended_of_work_eq_zero {c : γ} {k : Copier σ α} (hk : s.copiers c = some k)
    (h : s.work c = 0) : ∃ dropped, k.phase = .ended dropped := by
  unfold work at h
  rw [hk] at h
  dsimp only at h
  cases hphase : k.phase with
  | checking | receiving | sending =>
    rw [hphase] at h
    dsimp only at h
    omega
  | ended dropped => exact ⟨dropped, rfl⟩

theorem ended_of_rest_eq_zero {c : γ} {k : Copier σ α} (hk : s.copiers c = some k)
    (h : s.rest c = 0) : ∃ dropped, k.phase = .ended dropped := by
  unfold rest at h
  rw [hk] at h
  dsimp only at h
  cases hphase : k.phase with
  | checking | receiving | sending =>
    rw [hphase] at h
    cases h
  | ended dropped => exact ⟨dropped, rfl⟩

end Ends

/-! ## Conservation -/

section Tagged

variable [DecidableEq γ]

/-- What the copier appears with in a history. -/
def tagged (c : γ) (l : List (γ × α)) : List α := (l.filter fun p => p.1 = c).map Prod.snd

variable {c c' : γ}

theorem tagged_append (c : γ) (l l' : List (γ × α)) :
    tagged c (l ++ l') = tagged c l ++ tagged c l' := by
  unfold tagged
  rw [List.filter_append, List.map_append]

theorem tagged_concat_self (l : List (γ × α)) (x : α) :
    tagged c (l ++ [(c, x)]) = tagged c l ++ [x] := by
  rw [tagged_append]
  simp [tagged]

theorem tagged_concat_ne (h : c' ≠ c) (l : List (γ × α)) (x : α) :
    tagged c' (l ++ [(c, x)]) = tagged c' l := by
  rw [tagged_append]
  simp [tagged, h.symm]

theorem tagged_eq_map {l : List (γ × α)} (h : ∀ p ∈ l, p.1 = c) : tagged c l = l.map Prod.snd := by
  unfold tagged
  rw [List.filter_eq_self.mpr fun p hp => decide_eq_true (h p hp)]

theorem tagged_eq_nil {l : List (γ × α)} (h : ∀ p ∈ l, p.1 ≠ c) : tagged c l = [] := by
  unfold tagged
  rw [List.filter_eq_nil_iff.mpr fun p hp => by simpa using h p hp, List.map_nil]

end Tagged

variable [DecidableEq γ]

/-- Nothing is lost, doubled or mixed up on the way through the copiers. -/
structure Conserves (s : Relay σ γ ε α) : Prop where
  arrived : ∀ e, (s.sockets e).arrived = (s.sockets e).taken.map Prod.snd ++ (s.sockets e).input
  taken : ∀ c k, s.copiers c = some k →
    tagged c (s.sockets k.source).taken = tagged c (s.sockets k.destination).sent ++ k.phase.held
  takes : ∀ e, ∀ p ∈ (s.sockets e).taken, ∃ k, s.copiers p.1 = some k ∧ k.source = e
  sends : ∀ e, ∀ p ∈ (s.sockets e).sent, ∃ k, s.copiers p.1 = some k ∧ k.destination = e

namespace Conserves

variable {s : Relay σ γ ε α}

/-- A copier that has its source to itself takes all that is taken there. -/
theorem taken_eq_map (h : s.Conserves) {c : γ} {e : σ}
    (hsole : ∀ c' k, s.copiers c' = some k → k.source = e → c' = c) :
    (s.sockets e).taken.map Prod.snd = tagged c (s.sockets e).taken :=
  (tagged_eq_map fun p hp => by
    obtain ⟨k, hk, hsource⟩ := h.takes e p hp
    exact hsole p.1 k hk hsource).symm

/-- A copier that has its destination to itself sends all that is sent there. -/
theorem sent_eq_map (h : s.Conserves) {c : γ} {e : σ}
    (hsole : ∀ c' k, s.copiers c' = some k → k.destination = e → c' = c) :
    (s.sockets e).sent.map Prod.snd = tagged c (s.sockets e).sent :=
  (tagged_eq_map fun p hp => by
    obtain ⟨k, hk, hdestination⟩ := h.sends e p hp
    exact hsole p.1 k hk hdestination).symm

/-- What arrived for a copier that has its source to itself has been sent, but for what the copier
holds and what nobody has taken. -/
theorem arrived_eq (h : s.Conserves) {c : γ} {k : Copier σ α} (hk : s.copiers c = some k)
    (hsole : ∀ c' k', s.copiers c' = some k' → k'.source = k.source → c' = c) :
    (s.sockets k.source).arrived =
      tagged c (s.sockets k.destination).sent ++ k.phase.held ++ (s.sockets k.source).input := by
  rw [h.arrived, h.taken_eq_map hsole, h.taken c k hk]

/-- A socket that no copier has for its source. -/
theorem arrived_eq_input (h : s.Conserves) {e : σ}
    (hnone : ∀ c k, s.copiers c = some k → k.source ≠ e) :
    (s.sockets e).arrived = (s.sockets e).input := by
  have htaken : (s.sockets e).taken = [] := List.eq_nil_iff_forall_not_mem.mpr fun p hp => by
    obtain ⟨k, hk, hsource⟩ := h.takes e p hp
    exact hnone p.1 k hk hsource
  rw [h.arrived, htaken]
  rfl

/-- A copier that there is not appears nowhere. -/
theorem tagged_of_none (h : s.Conserves) {c : γ} (hc : s.copiers c = none) (e : σ) :
    tagged c (s.sockets e).taken = [] ∧ tagged c (s.sockets e).sent = [] := by
  constructor
  · refine tagged_eq_nil fun p hp hpc => ?_
    obtain ⟨k, hk, -⟩ := h.takes e p hp
    rw [hpc, hc] at hk
    cases hk
  · refine tagged_eq_nil fun p hp hpc => ?_
    obtain ⟨k, hk, -⟩ := h.sends e p hp
    rw [hpc, hc] at hk
    cases hk

/-- A change of the flags. -/
theorem of_eq {s' : Relay σ γ ε α} (h : s.Conserves) (hsockets : s'.sockets = s.sockets)
    (hcopiers : s'.copiers = s.copiers) : s'.Conserves := by
  refine ⟨?_, ?_, ?_, ?_⟩
  · rw [hsockets]
    exact h.arrived
  · rw [hsockets, hcopiers]
    exact h.taken
  · rw [hsockets, hcopiers]
    exact h.takes
  · rw [hsockets, hcopiers]
    exact h.sends

/-- A copier moves on with what it holds. -/
theorem setPhase (h : s.Conserves) {c : γ} {k : Copier σ α} (hk : s.copiers c = some k)
    {phase : CopyPhase α} (hheld : phase.held = k.phase.held) : (s.setPhase c k phase).Conserves where
  arrived := h.arrived
  taken c' k' hk' := by
    rw [setPhase_copiers] at hk'
    split at hk'
    · next heq =>
      cases hk'
      subst heq
      rw [hheld]
      exact h.taken c' k hk
    · exact h.taken c' k' hk'
  takes e p hp := exists_copier_setPhase hk (P := fun source _ => source = e) (h.takes e p hp)
  sends e p hp :=
    exists_copier_setPhase hk (P := fun _ destination => destination = e) (h.sends e p hp)

/-- A new copier has taken and sent nothing. -/
theorem start (h : s.Conserves) {c : γ} (hc : s.copiers c = none) (source destination : σ) :
    (s.start c source destination).Conserves where
  arrived := h.arrived
  taken c' k' hk' := by
    rw [Relay.start, setPhase_copiers] at hk'
    split at hk'
    · next heq =>
      cases hk'
      subst heq
      calc tagged c' (s.sockets source).taken = [] := (h.tagged_of_none hc source).1
        _ = tagged c' (s.sockets destination).sent ++ [] := by
          rw [(h.tagged_of_none hc destination).2, List.append_nil]
    · exact h.taken c' k' hk'
  takes e p hp := by
    obtain ⟨k', hk', hsource⟩ := h.takes e p hp
    refine ⟨k', ?_, hsource⟩
    rw [Relay.start, setPhase_copiers, if_neg, hk']
    rintro rfl
    rw [hc] at hk'
    cases hk'
  sends e p hp := by
    obtain ⟨k', hk', hdestination⟩ := h.sends e p hp
    refine ⟨k', ?_, hdestination⟩
    rw [Relay.start, setPhase_copiers, if_neg, hk']
    rintro rfl
    rw [hc] at hk'
    cases hk'

variable [DecidableEq σ]

/-- A socket changes, but not in what was taken and sent there. -/
theorem setSocket (h : s.Conserves) {e : σ} {socket : Socket γ α}
    (htaken : socket.taken = (s.sockets e).taken) (hsent : socket.sent = (s.sockets e).sent)
    (harrived : socket.arrived = socket.taken.map Prod.snd ++ socket.input) :
    (s.setSocket e socket).Conserves := by
  have htaken' (e' : σ) : ((s.setSocket e socket).sockets e').taken = (s.sockets e').taken := by
    rw [setSocket_sockets]
    split
    · next heq => rw [heq, htaken]
    · rfl
  have hsent' (e' : σ) : ((s.setSocket e socket).sockets e').sent = (s.sockets e').sent := by
    rw [setSocket_sockets]
    split
    · next heq => rw [heq, hsent]
    · rfl
  refine ⟨fun e' => ?_, fun c k hk => ?_, fun e' p hp => ?_, fun e' p hp => ?_⟩
  · rw [setSocket_sockets]
    split
    · exact harrived
    · exact h.arrived e'
  · rw [htaken', hsent']
    exact h.taken c k hk
  · rw [htaken'] at hp
    exact h.takes e' p hp
  · rw [hsent'] at hp
    exact h.sends e' p hp

theorem arrive (h : s.Conserves) (e : σ) (x : α) : (s.arrive e x).Conserves := by
  unfold Relay.arrive
  dsimp only
  split
  · refine h.setSocket rfl rfl ?_
    dsimp only
    rw [h.arrived e, List.append_assoc]
  · exact h

theorem close (h : s.Conserves) (e : σ) : (s.close e).Conserves :=
  h.setSocket rfl rfl (h.arrived e)

/-- Nothing has been taken from a new socket, or sent to it, if no copier knows it. -/
theorem connect (h : s.Conserves) {e : σ}
    (hnew : ∀ c source destination, s.wires c = some (source, destination) →
      source ≠ e ∧ destination ≠ e) :
    (s.connect e).Conserves := by
  refine h.setSocket ?_ ?_ rfl
  · refine (List.eq_nil_iff_forall_not_mem.mpr fun p hp => ?_).symm
    obtain ⟨k, hk, hsource⟩ := h.takes e p hp
    exact (hnew p.1 _ _ (congrArg (Option.map _) hk)).1 hsource
  · refine (List.eq_nil_iff_forall_not_mem.mpr fun p hp => ?_).symm
    obtain ⟨k, hk, hdestination⟩ := h.sends e p hp
    exact (hnew p.1 _ _ (congrArg (Option.map _) hk)).2 hdestination

/-- An item goes from the source into the copier's hand. -/
theorem receive (h : s.Conserves) {c : γ} {k : Copier σ α} (hk : s.copiers c = some k)
    (hheld : k.phase.held = []) {x : α} {rest : List α}
    (hinput : (s.sockets k.source).input = x :: rest) :
    ((s.take k.source c x rest).setPhase c k (.sending x)).Conserves := by
  have htaken (e : σ) : ((s.take k.source c x rest).sockets e).taken =
      (s.sockets e).taken ++ if e = k.source then [(c, x)] else [] := by
    unfold Relay.take
    rw [setSocket_sockets]
    split
    · next heq => rw [heq]
    · rw [List.append_nil]
  have hsent (e : σ) : ((s.take k.source c x rest).sockets e).sent = (s.sockets e).sent := by
    unfold Relay.take
    rw [setSocket_sockets]
    split
    · next heq => rw [heq]
    · rfl
  refine ⟨fun e => ?_, fun c' k' hk' => ?_, fun e p hp => ?_, fun e p hp => ?_⟩
  · have harrived := h.arrived e
    rw [setPhase_sockets, Relay.take, setSocket_sockets]
    split
    · next heq =>
      subst heq
      dsimp only
      rw [harrived, hinput, List.map_append, List.append_assoc]
      rfl
    · exact harrived
  · rw [setPhase_sockets, htaken, hsent]
    rw [setPhase_copiers] at hk'
    split at hk'
    · next heq =>
      cases hk'
      subst heq
      rw [if_pos rfl, tagged_concat_self, h.taken c' k hk, hheld, List.append_nil]
      rfl
    · next hne =>
      rw [← h.taken c' k' hk']
      split
      · rw [tagged_concat_ne hne]
      · rw [List.append_nil]
  · rw [setPhase_sockets, htaken, List.mem_append] at hp
    rcases hp with hp | hp
    · exact exists_copier_setPhase (P := fun source _ => source = e) hk (h.takes e p hp)
    · split at hp
      · next heq =>
        rw [List.mem_singleton] at hp
        subst hp
        rw [setPhase_copiers, if_pos rfl]
        exact ⟨_, rfl, heq.symm⟩
      · cases hp
  · rw [setPhase_sockets, hsent] at hp
    exact exists_copier_setPhase (P := fun _ destination => destination = e) hk (h.sends e p hp)

/-- The item in the copier's hand goes to the destination. -/
theorem send (h : s.Conserves) {c : γ} {k : Copier σ α} (hk : s.copiers c = some k) {x : α}
    (hphase : k.phase = .sending x) :
    ((s.put k.destination c x).setPhase c k .checking).Conserves := by
  have hsent (e : σ) : ((s.put k.destination c x).sockets e).sent =
      (s.sockets e).sent ++ if e = k.destination then [(c, x)] else [] := by
    unfold Relay.put
    rw [setSocket_sockets]
    split
    · next heq => rw [heq]
    · rw [List.append_nil]
  have hsame (e : σ) : ((s.put k.destination c x).sockets e).taken = (s.sockets e).taken ∧
      ((s.put k.destination c x).sockets e).arrived = (s.sockets e).arrived ∧
      ((s.put k.destination c x).sockets e).input = (s.sockets e).input := by
    unfold Relay.put
    rw [setSocket_sockets]
    split
    · next heq =>
      rw [heq]
      exact ⟨rfl, rfl, rfl⟩
    · exact ⟨rfl, rfl, rfl⟩
  refine ⟨fun e => ?_, fun c' k' hk' => ?_, fun e p hp => ?_, fun e p hp => ?_⟩
  · obtain ⟨htaken, harrived, hinput⟩ := hsame e
    rw [setPhase_sockets, htaken, harrived, hinput]
    exact h.arrived e
  · rw [setPhase_sockets, (hsame _).1, hsent]
    rw [setPhase_copiers] at hk'
    split at hk'
    · next heq =>
      cases hk'
      subst heq
      dsimp only
      rw [h.taken c' k hk, hphase, if_pos rfl, tagged_concat_self]
      simp [CopyPhase.held]
    · next hne =>
      rw [h.taken c' k' hk']
      split
      · rw [tagged_concat_ne hne]
      · rw [List.append_nil]
  · rw [setPhase_sockets, (hsame e).1] at hp
    exact exists_copier_setPhase (P := fun source _ => source = e) hk (h.takes e p hp)
  · rw [setPhase_sockets, hsent, List.mem_append] at hp
    rcases hp with hp | hp
    · exact exists_copier_setPhase (P := fun _ destination => destination = e) hk (h.sends e p hp)
    · split at hp
      · next heq =>
        rw [List.mem_singleton] at hp
        subst hp
        rw [setPhase_copiers, if_pos rfl]
        exact ⟨_, rfl, heq.symm⟩
      · cases hp

theorem copy [DecidableEq ε] (h : s.Conserves) (flag : γ → ε) (c : γ) :
    (s.copy flag c).Conserves := by
  cases hc : s.copiers c with
  | none =>
    rw [copy_of_none flag hc]
    exact h
  | some k =>
    have hstep := copy_step flag hc
    generalize s.copy flag c = s' at hstep
    cases hstep with
    | stop hphase | check hphase | idle hphase =>
      refine h.setPhase hc ?_
      rw [hphase]
      rfl
    | receive hphase hinput =>
      refine h.receive hc ?_ hinput
      rw [hphase]
      rfl
    | sourceClosed hphase | destinationClosed hphase =>
      have hdie : (s.die (flag c)).Conserves := h.of_eq rfl rfl
      refine hdie.setPhase hc ?_
      rw [hphase]
      rfl
    | send hphase => exact h.send hc hphase
    | finished => exact h

end Conserves

/-! ## The last steps of a copier -/

theorem Flagged.start {s : Relay σ γ ε α} {flag : γ → ε} (h : s.Flagged flag) (c : γ)
    (source destination : σ) : (s.start c source destination).Flagged flag := by
  intro c' k' dropped hk' hended
  rw [Relay.start, setPhase_copiers] at hk'
  split at hk'
  · cases hk'
    cases hended
  · exact h c' k' dropped hk' hended

section Steps

variable [DecidableEq σ] [DecidableEq ε] {s : Relay σ γ ε α} {flag : γ → ε}

theorem died_copy {f : ε} (c : γ) (h : s.died f = true) : (s.copy flag c).died f = true := by
  cases hc : s.copiers c with
  | none => rwa [copy_of_none flag hc]
  | some k =>
    have hstep := copy_step flag hc
    generalize s.copy flag c = s' at hstep
    cases hstep with
    | stop | check | receive | idle | send | finished => exact h
    | sourceClosed | destinationClosed =>
      rw [setPhase_died, die_died, h, Bool.or_true]

theorem connected_copy (c : γ) (e : σ) :
    ((s.copy flag c).sockets e).connected = (s.sockets e).connected := by
  cases hc : s.copiers c with
  | none => rw [copy_of_none flag hc]
  | some k =>
    have hstep := copy_step flag hc
    generalize s.copy flag c = s' at hstep
    cases hstep with
    | stop | check | idle | sourceClosed | destinationClosed | finished => rfl
    | receive => rw [setPhase_sockets, take_connected]
    | send => rw [setPhase_sockets, put_connected]

theorem input_copy (c : γ) (e : σ) :
    ((s.copy flag c).sockets e).input.length ≤ (s.sockets e).input.length := by
  cases hc : s.copiers c with
  | none => exact Nat.le_of_eq (by rw [copy_of_none flag hc])
  | some k =>
    have hstep := copy_step flag hc
    generalize s.copy flag c = s' at hstep
    cases hstep with
    | stop | check | idle | sourceClosed | destinationClosed | finished => exact Nat.le_refl _
    | receive _ hinput =>
      rw [setPhase_sockets, take, setSocket_sockets]
      split
      · next heq =>
        rw [heq, hinput]
        exact Nat.le_succ _
      · exact Nat.le_refl _
    | send => exact Nat.le_of_eq (by rw [setPhase_sockets, put_input])

theorem Flagged.copy (h : s.Flagged flag) (c : γ) : (s.copy flag c).Flagged flag := by
  intro c' k' dropped hk' hended
  by_cases hne : c' = c
  · subst hne
    cases hc : s.copiers c' with
    | none =>
      rw [copy_of_none flag hc, hc] at hk'
      cases hk'
    | some k =>
      have hstep := copy_step flag hc
      generalize s.copy flag c' = s' at hstep hk'
      cases hstep with
      | stop hphase hdied => exact hdied
      | check | receive | idle | send =>
        rw [setPhase_copiers, if_pos rfl] at hk'
        cases hk'
        cases hended
      | sourceClosed | destinationClosed =>
        rw [setPhase_died, die_died, beq_self_eq_true, Bool.true_or]
      | finished => exact h c' k' dropped hk' hended
  · rw [copy_copiers_of_ne flag hne] at hk'
    exact died_copy c (h c' k' dropped hk' hended)

/-- A copier from a closed socket gets nearer to its end with each step. -/
theorem work_copy {c : γ} {k : Copier σ α} (hk : s.copiers c = some k)
    (hclosed : (s.sockets k.source).connected = false) :
    (s.copy flag c).work c ≤ s.work c - 1 := by
  have hwork : s.work c = match k.phase with
      | .checking => 2 + 3 * (s.sockets k.source).input.length
      | .receiving => 1 + 3 * (s.sockets k.source).input.length
      | .sending _ => 3 + 3 * (s.sockets k.source).input.length
      | .ended _ => 0 := by
    unfold work
    rw [hk]
  rw [hwork]
  have hstep := copy_step flag hk
  generalize s.copy flag c = s' at hstep
  unfold work
  cases hstep with
  | stop => simp [setPhase_copiers]
  | check hphase => simp [setPhase_copiers, hphase]
  | receive hphase hinput =>
    simp [setPhase_copiers, hphase, take, setSocket_sockets, hinput]
    omega
  | idle hphase hinput hconnected =>
    rw [hclosed] at hconnected
    cases hconnected
  | sourceClosed => simp [setPhase_copiers]
  | send hphase =>
    simp [setPhase_copiers, hphase]
  | destinationClosed => simp [setPhase_copiers]
  | finished hphase => simp [hk, hphase]

/-- A copier whose flag is set gets nearer to its end with each step. -/
theorem rest_copy {c : γ} (hdied : s.died (flag c) = true) :
    (s.copy flag c).rest c ≤ s.rest c - 1 := by
  cases hc : s.copiers c with
  | none =>
    rw [copy_of_none flag hc]
    simp [rest, hc]
  | some k =>
    have hrest : s.rest c = match k.phase with
        | .checking => 1
        | .receiving => 3
        | .sending _ => 2
        | .ended _ => 0 := by
      unfold rest
      rw [hc]
    rw [hrest]
    have hstep := copy_step flag hc
    generalize s.copy flag c = s' at hstep
    unfold rest
    cases hstep with
    | stop | sourceClosed | destinationClosed => simp [setPhase_copiers]
    | check _ halive =>
      rw [hdied] at halive
      cases halive
    | receive hphase | idle hphase | send hphase => simp [setPhase_copiers, hphase]
    | finished hphase => simp [hc, hphase]

end Steps

end Relay

end Rdfm.Lib
