import Rdfm.Lib.Transition
import Mathlib.Data.List.Infix

/-!
# The telemetry ring buffer

`RingBuffer.Run` moves records from one channel to another and drops the oldest one when the second
is full. Its full branch is three channel operations: a send that fails, a receive that pops, and a
send. A consumer that empties the channel between the first two leaves `Run` waiting for a record
that only `Run` can send. In every other run the records keep their order, the drops are of the
oldest record and only for a full channel, and `Run` never waits with a record at hand
(`ring_buffer_iff`). `ClientLoop` is producer and consumer in one goroutine, so it waits forever
with `Run` (`KafkaRunner.Frozen.run`).
-/

namespace Rdfm.Linux

open Rdfm.Lib

/-! ## The buffer -/

/-- Where `Run` is in its loop. -/
inductive RunPoint (α : Type*) where
  /-- At the `range` over the input channel. -/
  | ranging
  /-- At the `select`, with the record it has received. -/
  | selecting (v : α)
  /-- In the default branch, at the receive. -/
  | popping (v : α)
  /-- In the default branch, at the send. -/
  | pushing (v : α)
deriving DecidableEq, Repr

/-- The channels and `Run`. The input channel is the queue of the sends it has not yet given to
`Run`. -/
structure RingBuffer (α : Type*) where
  capacity : Nat
  inCh : List α
  outCh : List α
  run : RunPoint α
deriving DecidableEq, Repr

inductive RingEvent (α : Type*) where
  | produce (v : α)
  /-- The next channel operation of `Run`. -/
  | run
  | consume
deriving DecidableEq, Repr

inductive RingOutcome (α : Type*) where
  | produced (v : α)
  /-- `Run` has received a record from the input channel. -/
  | taken
  /-- The record of `Run` found the output channel full. -/
  | full
  | stored
  | dropped (v : α)
  | consumed (v : α)
  /-- The operation has to wait. -/
  | blocked
deriving DecidableEq, Repr

section

variable {α : Type*}

/-- The record that `Run` holds. -/
@[simp] def RunPoint.held : RunPoint α → List α
  | .ranging => []
  | .selecting v => [v]
  | .popping v => [v]
  | .pushing v => [v]

/-- `Run` holds a record that found the channel full, and has not popped for it yet. -/
@[simp] def RunPoint.isPopping : RunPoint α → Bool
  | .popping _ => true
  | _ => false

/-- The drops still to come for records that found the channel full. -/
@[simp] def RunPoint.owed : RunPoint α → Nat
  | .popping _ => 1
  | _ => 0

@[simp] def RingOutcome.producedRecord : RingOutcome α → Option α
  | .produced v => some v
  | _ => none

@[simp] def RingOutcome.consumedRecord : RingOutcome α → Option α
  | .consumed v => some v
  | _ => none

@[simp] def RingOutcome.droppedRecord : RingOutcome α → Option α
  | .dropped v => some v
  | _ => none

@[simp] def RingOutcome.foundFull : RingOutcome α → Option Unit
  | .full => some ()
  | _ => none

end

namespace RingBuffer

variable {α : Type*}

def newRingBuffer (capacity : Nat) : RingBuffer α := ⟨capacity, [], [], .ranging⟩

/-- The next channel operation of `Run`. -/
def stepRun (rb : RingBuffer α) : RingBuffer α × RingOutcome α :=
  match rb.run with
  | .ranging =>
    match rb.inCh with
    | [] => (rb, .blocked)
    | v :: inCh => ({ rb with inCh, run := .selecting v }, .taken)
  | .selecting v =>
    if rb.outCh.length < rb.capacity then
      ({ rb with outCh := rb.outCh ++ [v], run := .ranging }, .stored)
    else ({ rb with run := .popping v }, .full)
  | .popping v =>
    match rb.outCh with
    | [] => (rb, .blocked)
    | d :: outCh => ({ rb with outCh, run := .pushing v }, .dropped d)
  | .pushing v =>
    if rb.outCh.length < rb.capacity then
      ({ rb with outCh := rb.outCh ++ [v], run := .ranging }, .stored)
    else (rb, .blocked)

def step (rb : RingBuffer α) : RingEvent α → RingBuffer α × RingOutcome α
  | .produce v => ({ rb with inCh := rb.inCh ++ [v] }, .produced v)
  | .run => rb.stepRun
  | .consume =>
    match rb.outCh with
    | [] => (rb, .blocked)
    | v :: outCh => ({ rb with outCh }, .consumed v)

def after (rb : RingBuffer α) (es : List (RingEvent α)) : RingBuffer α :=
  es.foldl (fun rb e => (rb.step e).1) rb

/-- The buffer after one more event, and everything that has happened. -/
def next (s : RingBuffer α × List (RingOutcome α)) (e : RingEvent α) :
    RingBuffer α × List (RingOutcome α) :=
  ((s.1.step e).1, s.2 ++ [(s.1.step e).2])

/-! ## What is expected of it -/

def produced (log : List (RingOutcome α)) : List α := log.filterMap RingOutcome.producedRecord

def consumed (log : List (RingOutcome α)) : List α := log.filterMap RingOutcome.consumedRecord

def dropped (log : List (RingOutcome α)) : List α := log.filterMap RingOutcome.droppedRecord

/-- The records that have left the buffer, either way. -/
def gone (log : List (RingOutcome α)) : List α :=
  log.filterMap fun r => r.consumedRecord.or r.droppedRecord

/-- How many records found the output channel full. -/
def foundFull (log : List (RingOutcome α)) : Nat := (log.filterMap RingOutcome.foundFull).length

/-- `Run` has a record, or one is being sent to it. -/
def Pending (rb : RingBuffer α) : Prop := rb.inCh ≠ [] ∨ rb.run ≠ .ranging

/-- Steps of `Run` and of the consumer. -/
def Internal (es : List (RingEvent α)) : Prop := ∀ e ∈ es, e = .run ∨ e = .consume

/-- The buffer keeps the order, drops only for a full channel and only the oldest record, and goes
on. -/
structure Behaves (s : RingBuffer α × List (RingOutcome α)) : Prop where
  in_order : (consumed s.2).Sublist (produced s.2)
  drops_le : (dropped s.2).length ≤ foundFull s.2
  /-- At each drop the records before it are gone, and it is the next one. -/
  oldest : ∀ before d rest, s.2 = before ++ .dropped d :: rest →
    ∃ later, produced before = gone before ++ d :: later
  not_blocked : s.1.outCh = [] → s.1.Pending → s.1.stepRun.2 ≠ .blocked
  /-- The producer that waits longest gets its record through. -/
  accepts : ∀ v inCh, s.1.inCh = v :: inCh → ∃ es, Internal es ∧ (s.1.after es).inCh = inCh

/-- The consumer takes the last record between the failed send of `Run` and its receive. -/
def Drains (rb : RingBuffer α) (e : RingEvent α) : Prop :=
  e = .consume ∧ rb.run.isPopping ∧ rb.outCh.length = 1

instance [DecidableEq α] (rb : RingBuffer α) (e : RingEvent α) : Decidable (Drains rb e) :=
  inferInstanceAs (Decidable (_ ∧ _ ∧ _))

/-! ## Records in the buffer -/

/-- The records in the buffer, the oldest first. -/
def inside (rb : RingBuffer α) : List α := rb.outCh ++ rb.run.held ++ rb.inCh

/-- `Run` waits for a record that nobody can send. -/
def Stuck (rb : RingBuffer α) : Prop := rb.outCh = [] ∧ ∃ v, rb.run = .popping v

/-- What every run from an empty buffer keeps. -/
structure Kept (s : RingBuffer α × List (RingOutcome α)) : Prop where
  capacity_pos : 1 ≤ s.1.capacity
  bounded : s.1.outCh.length ≤ s.1.capacity
  room : ∀ v, s.1.run = .pushing v → s.1.outCh.length < s.1.capacity
  conserved : produced s.2 = gone s.2 ++ s.1.inside
  drops : foundFull s.2 = (dropped s.2).length + s.1.run.owed
  oldest : ∀ before d rest, s.2 = before ++ .dropped d :: rest →
    ∃ later, produced before = gone before ++ d :: later

/-! ## One step -/

/-- What an event can do. -/
inductive Effect (rb : RingBuffer α) : RingEvent α → RingBuffer α → RingOutcome α → Prop
  | produce (v : α) : Effect rb (.produce v) { rb with inCh := rb.inCh ++ [v] } (.produced v)
  | take (v : α) (inCh : List α) (hrun : rb.run = .ranging) (hin : rb.inCh = v :: inCh) :
      Effect rb .run { rb with inCh, run := .selecting v } .taken
  | store (v : α) (hrun : rb.run = .selecting v ∨ rb.run = .pushing v)
      (hroom : rb.outCh.length < rb.capacity) :
      Effect rb .run { rb with outCh := rb.outCh ++ [v], run := .ranging } .stored
  | full (v : α) (hrun : rb.run = .selecting v) (hfull : ¬ rb.outCh.length < rb.capacity) :
      Effect rb .run { rb with run := .popping v } .full
  | drop (v d : α) (outCh : List α) (hrun : rb.run = .popping v) (hout : rb.outCh = d :: outCh) :
      Effect rb .run { rb with outCh, run := .pushing v } (.dropped d)
  | consume (v : α) (outCh : List α) (hout : rb.outCh = v :: outCh) :
      Effect rb .consume { rb with outCh } (.consumed v)
  | wait (e : RingEvent α) (hout : e = .consume → rb.outCh = []) : Effect rb e rb .blocked

variable {rb : RingBuffer α} {s : RingBuffer α × List (RingOutcome α)}

theorem stepRun_effect (rb : RingBuffer α) : Effect rb .run rb.stepRun.1 rb.stepRun.2 := by
  rcases hrun : rb.run with _ | v | v | v
  · rcases hin : rb.inCh with _ | ⟨v, inCh⟩
    · simpa only [stepRun, hrun, hin] using Effect.wait .run nofun
    · simpa only [stepRun, hrun, hin] using Effect.take v inCh hrun hin
  · by_cases hroom : rb.outCh.length < rb.capacity
    · simpa only [stepRun, hrun, if_pos hroom] using Effect.store v (.inl hrun) hroom
    · simpa only [stepRun, hrun, if_neg hroom] using Effect.full v hrun hroom
  · rcases hout : rb.outCh with _ | ⟨d, outCh⟩
    · simpa only [stepRun, hrun, hout] using Effect.wait .run nofun
    · simpa only [stepRun, hrun, hout] using Effect.drop v d outCh hrun hout
  · by_cases hroom : rb.outCh.length < rb.capacity
    · simpa only [stepRun, hrun, if_pos hroom] using Effect.store v (.inr hrun) hroom
    · simpa only [stepRun, hrun, if_neg hroom] using Effect.wait .run nofun

theorem step_effect (rb : RingBuffer α) (e : RingEvent α) :
    Effect rb e (rb.step e).1 (rb.step e).2 := by
  cases e with
  | produce v => exact .produce v
  | run => exact stepRun_effect rb
  | consume =>
    rcases hout : rb.outCh with _ | ⟨v, outCh⟩
    · simpa only [step, hout] using Effect.wait .consume fun _ => hout
    · simpa only [step, hout] using Effect.consume v outCh hout

/-! ### The log -/

theorem filterMap_concat {β : Type*} (f : RingOutcome α → Option β) (log : List (RingOutcome α))
    (r : RingOutcome α) : (log ++ [r]).filterMap f = log.filterMap f ++ (f r).toList := by
  rw [List.filterMap_append]
  cases h : f r <;> simp [h]

variable (log : List (RingOutcome α)) (r : RingOutcome α)

@[simp] theorem produced_concat : produced (log ++ [r]) = produced log ++ r.producedRecord.toList :=
  filterMap_concat _ log r

@[simp] theorem dropped_concat : dropped (log ++ [r]) = dropped log ++ r.droppedRecord.toList :=
  filterMap_concat _ log r

@[simp] theorem gone_concat :
    gone (log ++ [r]) = gone log ++ (r.consumedRecord.or r.droppedRecord).toList :=
  filterMap_concat _ log r

@[simp] theorem foundFull_concat :
    foundFull (log ++ [r]) = foundFull log + r.foundFull.toList.length := by
  unfold foundFull
  rw [filterMap_concat, List.length_append]

/-- Records leave in the order of production, so what is consumed is a part of what is gone. -/
theorem consumed_sublist_gone (log : List (RingOutcome α)) : (consumed log).Sublist (gone log) := by
  induction log with
  | nil => exact List.Sublist.slnil
  | cons r log ih =>
    cases r with
    | consumed v => exact ih.cons_cons v
    | dropped v => exact ih.cons v
    | produced | taken | full | stored | blocked => exact ih

theorem kept_start {capacity : Nat} (h : 1 ≤ capacity) :
    Kept ((newRingBuffer capacity : RingBuffer α), []) where
  capacity_pos := h
  bounded := Nat.zero_le _
  room := nofun
  conserved := rfl
  drops := rfl
  oldest := by
    intro before d rest h
    cases before <;> cases h

/-- A drop that is not the last outcome is one of the log before. -/
theorem Kept.oldest_concat {r : RingOutcome α} (h : Kept s)
    (hr : ∀ d, r = .dropped d → ∃ later, produced s.2 = gone s.2 ++ d :: later) :
    ∀ before d rest, s.2 ++ [r] = before ++ .dropped d :: rest →
      ∃ later, produced before = gone before ++ d :: later := by
  intro before d rest heq
  rcases List.eq_nil_or_concat rest with rfl | ⟨rest, r', rfl⟩
  · rcases List.append_inj' heq rfl with ⟨rfl, hlast⟩
    cases hlast
    exact hr d rfl
  · have heq : s.2 ++ [r] = (before ++ .dropped d :: rest) ++ [r'] := by simpa using heq
    exact h.oldest before d rest (List.append_inj' heq rfl).1

/-- Every event keeps the order, and drops only the oldest record for one that found the channel
full. -/
theorem Kept.next (h : Kept s) (e : RingEvent α) : Kept (next s e) := by
  rcases s with ⟨rb, log⟩
  have hcons : produced log = gone log ++ rb.inside := h.conserved
  have hdrops : foundFull log = (dropped log).length + rb.run.owed := h.drops
  have hbound : rb.outCh.length ≤ rb.capacity := h.bounded
  have heff := step_effect rb e
  unfold RingBuffer.next
  dsimp only
  generalize (rb.step e).1 = rb' at heff
  generalize (rb.step e).2 = r at heff
  cases heff with
  | produce v =>
    refine ⟨h.capacity_pos, hbound, h.room, ?_, ?_, h.oldest_concat nofun⟩
    · simp [hcons, inside]
    · simp [hdrops]
  | take v inCh hrun hin =>
    refine ⟨h.capacity_pos, hbound, nofun, ?_, ?_, h.oldest_concat nofun⟩
    · simp [hcons, inside, hrun, hin]
    · simp [hdrops, hrun]
  | store v hrun hroom =>
    refine ⟨h.capacity_pos, ?_, nofun, ?_, ?_, h.oldest_concat nofun⟩
    · simpa using Nat.succ_le_of_lt hroom
    · rcases hrun with hrun | hrun <;> simp [hcons, inside, hrun]
    · rcases hrun with hrun | hrun <;> simp [hdrops, hrun]
  | full v hrun hfull =>
    refine ⟨h.capacity_pos, hbound, nofun, ?_, ?_, h.oldest_concat nofun⟩
    · simp [hcons, inside, hrun]
    · simp [hdrops, hrun]
  | drop v d outCh hrun hout =>
    have hlater : produced log = gone log ++ d :: (outCh ++ v :: rb.inCh) := by
      simp [hcons, inside, hrun, hout]
    have hroom : outCh.length < rb.capacity := by
      rw [hout] at hbound
      exact hbound
    refine ⟨h.capacity_pos, hroom.le, fun _ _ => hroom, ?_, ?_, h.oldest_concat ?_⟩
    · simp [hlater, inside]
    · simp [hdrops, hrun]
    · rintro d' ⟨⟩
      exact ⟨_, hlater⟩
  | consume v outCh hout =>
    have hle : outCh.length ≤ rb.outCh.length := by simp [hout]
    refine ⟨h.capacity_pos, hle.trans hbound, fun w hw => hle.trans_lt (h.room w hw), ?_, ?_,
      h.oldest_concat nofun⟩
    · simp [hcons, inside, hout]
    · simp [hdrops]
  | wait =>
    refine ⟨h.capacity_pos, hbound, h.room, ?_, ?_, h.oldest_concat nofun⟩
    · simp [hcons]
    · simp [hdrops]

/-! ## Going on -/

/-- The buffer can take the first record that is being sent, by its own steps and the consumer's. -/
def Accepts (rb : RingBuffer α) : Prop :=
  ∀ v inCh, rb.inCh = v :: inCh → ∃ es, Internal es ∧ (rb.after es).inCh = inCh

theorem Accepts.of_run {rb' : RingBuffer α} (h : Accepts rb') (hrun : rb.stepRun.1 = rb')
    (hin : rb'.inCh = rb.inCh) : Accepts rb := by
  intro v inCh hv
  rcases h v inCh (hin.trans hv) with ⟨es, hes, hafter⟩
  refine ⟨.run :: es, ?_, ?_⟩
  · intro e he
    rcases List.mem_cons.mp he with rfl | he
    · exact .inl rfl
    · exact hes e he
  · rw [← hrun] at hafter
    exact hafter

theorem accepts_ranging (h : rb.run = .ranging) : Accepts rb := by
  intro v inCh hin
  refine ⟨[.run], by simp [Internal], ?_⟩
  simp [after, step, stepRun, h, hin]

theorem accepts_pushing {v : α} (h : rb.run = .pushing v) (hroom : rb.outCh.length < rb.capacity) :
    Accepts rb := by
  have hrun : rb.stepRun.1 = { rb with outCh := rb.outCh ++ [v], run := .ranging } := by
    simp only [stepRun, h, if_pos hroom]
  exact (accepts_ranging rfl).of_run hrun rfl

theorem accepts_popping {v : α} (h : rb.run = .popping v) (hne : rb.outCh ≠ [])
    (hbound : rb.outCh.length ≤ rb.capacity) : Accepts rb := by
  rcases hout : rb.outCh with _ | ⟨d, outCh⟩
  · exact absurd hout hne
  · have hroom : outCh.length < rb.capacity := by
      rw [hout] at hbound
      exact hbound
    have hrun : rb.stepRun.1 = { rb with outCh, run := .pushing v } := by
      simp only [stepRun, h, hout]
    exact (accepts_pushing rfl hroom).of_run hrun rfl

theorem accepts_selecting {v : α} (h : rb.run = .selecting v) (hpos : 1 ≤ rb.capacity)
    (hbound : rb.outCh.length ≤ rb.capacity) : Accepts rb := by
  by_cases hroom : rb.outCh.length < rb.capacity
  · have hrun : rb.stepRun.1 = { rb with outCh := rb.outCh ++ [v], run := .ranging } := by
      simp only [stepRun, h, if_pos hroom]
    exact (accepts_ranging rfl).of_run hrun rfl
  · have hrun : rb.stepRun.1 = { rb with run := .popping v } := by
      simp only [stepRun, h, if_neg hroom]
    have hne : rb.outCh ≠ [] := by
      rintro hout
      rw [hout] at hroom
      exact hroom hpos
    have haccepts : Accepts { rb with run := .popping v } := accepts_popping rfl hne hbound
    exact haccepts.of_run hrun rfl

theorem Kept.accepts (h : Kept s) (hstuck : ¬ Stuck s.1) : Accepts s.1 := by
  rcases hrun : s.1.run with _ | v | v | v
  · exact accepts_ranging hrun
  · exact accepts_selecting hrun h.capacity_pos h.bounded
  · exact accepts_popping hrun (fun hout => hstuck ⟨hout, v, hrun⟩) h.bounded
  · exact accepts_pushing hrun (h.room v hrun)

/-- With a record at hand, only a pop of an empty channel waits. -/
theorem Kept.not_blocked (h : Kept s) (hpending : s.1.Pending) (hstuck : ¬ Stuck s.1) :
    s.1.stepRun.2 ≠ .blocked := by
  rcases s with ⟨rb, log⟩
  rcases hrun : rb.run with _ | v | v | v
  · rcases hin : rb.inCh with _ | ⟨v, inCh⟩
    · exact absurd hrun (hpending.resolve_left (not_not_intro hin))
    · simp [stepRun, hrun, hin]
  · by_cases hroom : rb.outCh.length < rb.capacity <;> simp [stepRun, hrun, hroom]
  · rcases hout : rb.outCh with _ | ⟨d, outCh⟩
    · exact absurd ⟨hout, v, hrun⟩ hstuck
    · simp [stepRun, hrun, hout]
  · have hroom : rb.outCh.length < rb.capacity := h.room v hrun
    simp [stepRun, hrun, hroom]

theorem Stuck.blocked (h : Stuck rb) : rb.stepRun = (rb, .blocked) := by
  rcases h with ⟨hout, v, hrun⟩
  simp only [stepRun, hrun, hout]

theorem Kept.behaves_iff (h : Kept s) : Behaves s ↔ ¬ Stuck s.1 := by
  constructor
  · rintro hb hstuck
    have hpending : s.1.Pending := by
      rcases hstuck with ⟨-, v, hrun⟩
      exact .inr (by rw [hrun]; exact nofun)
    exact hb.not_blocked hstuck.1 hpending (congrArg Prod.snd hstuck.blocked)
  · intro hstuck
    refine ⟨?_, ?_, h.oldest, fun _ hpending => h.not_blocked hpending hstuck, h.accepts hstuck⟩
    · rw [h.conserved]
      exact (consumed_sublist_gone s.2).trans (List.sublist_append_left _ _)
    · rw [h.drops]
      exact Nat.le_add_right _ _

/-- Only a consumer that drains the channel makes `Run` wait for itself. -/
theorem Kept.stuck_next_iff (h : Kept s) (hstuck : ¬ Stuck s.1) (e : RingEvent α) :
    Stuck (RingBuffer.next s e).1 ↔ Drains s.1 e := by
  rcases s with ⟨rb, log⟩
  have hpos : 1 ≤ rb.capacity := h.capacity_pos
  have heff := step_effect rb e
  unfold RingBuffer.next
  dsimp only at hstuck ⊢
  generalize (rb.step e).1 = rb' at heff
  generalize (rb.step e).2 = r at heff
  cases heff with
  | produce v => exact iff_of_false hstuck nofun
  | take v inCh hrun hin => exact iff_of_false nofun nofun
  | store v hrun hroom => exact iff_of_false nofun nofun
  | full v hrun hfull =>
    refine iff_of_false ?_ nofun
    rintro ⟨hout, -⟩
    dsimp only at hout
    rw [hout] at hfull
    exact hfull hpos
  | drop v d outCh hrun hout => exact iff_of_false nofun nofun
  | consume v outCh hout =>
    rcases hrun : rb.run with _ | w | w | w <;> simp [Stuck, Drains, hout, hrun]
  | wait _ hout =>
    refine iff_of_false hstuck ?_
    rintro ⟨rfl, -, hlen⟩
    rw [hout rfl] at hlen
    cases hlen

/-- In every run from an empty buffer the buffer behaves after every event exactly if the consumer
never takes the last record between the failed send of `Run` and its receive. -/
theorem ring_buffer_iff {capacity : Nat} (h : 1 ≤ capacity) (es : List (RingEvent α)) :
    Along next (fun s e => Behaves (next s e)) (newRingBuffer capacity, []) es ↔
      Along next (fun s e => ¬ Drains s.1 e) (newRingBuffer capacity, []) es := by
  have hstep : ∀ (s : RingBuffer α × List (RingOutcome α)) (e : RingEvent α),
      Kept s ∧ ¬ Stuck s.1 → (Behaves (next s e) ↔ ¬ Drains s.1 e) ∧
        (¬ Drains s.1 e → Kept (next s e) ∧ ¬ Stuck (next s e).1) := by
    rintro s e ⟨hk, hstuck⟩
    rw [(hk.next e).behaves_iff, hk.stuck_next_iff hstuck]
    exact ⟨Iff.rfl, fun hdrains => ⟨hk.next e, hdrains⟩⟩
  exact Along.iff_of_invariant hstep ⟨kept_start h, nofun⟩

/-- The second record finds the channel full, and the consumer comes when `Run` has popped. -/
def patientRun : List (RingEvent Nat) :=
  [.produce 1, .run, .run, .produce 2, .run, .run, .run, .consume, .run, .consume]

theorem ring_buffer_patient :
    Along next (fun s e => Behaves (next s e)) (newRingBuffer 1, []) patientRun :=
  (ring_buffer_iff (by decide) patientRun).mpr (by decide)

/-- The second record finds the channel full, and the consumer comes before `Run` pops. -/
def drainingRun : List (RingEvent Nat) :=
  [.produce 1, .run, .run, .produce 2, .run, .run, .consume]

/-- `Run` holds a record and waits at the empty channel. -/
theorem ring_buffer_stuck :
    drainingRun.foldl next (newRingBuffer 1, []) =
      (⟨1, [], [], .popping 2⟩, [.produced 1, .taken, .stored, .produced 2, .taken, .full,
        .consumed 1]) ∧
      ¬ Along next (fun s e => Behaves (next s e)) (newRingBuffer 1, []) drainingRun := by
  refine ⟨by decide, fun h => ?_⟩
  have hsplit : Along next (fun s e => Behaves (next s e)) (newRingBuffer 1, [])
      (drainingRun.take 6 ++ [.consume]) := h
  exact (Along.append_iff.mp hsplit).2.1.not_blocked rfl (.inr nofun) rfl

/-- Once `Run` waits for itself no event helps it. -/
theorem Stuck.step (h : Stuck rb) (e : RingEvent α) : Stuck (rb.step e).1 := by
  cases e with
  | produce v => exact h
  | run =>
    change Stuck rb.stepRun.1
    rw [h.blocked]
    exact h
  | consume =>
    simp only [RingBuffer.step, h.1]
    exact h

end RingBuffer

/-! ## The client loop -/

/-- `TELEMETRY_RING_SIZE`. -/
def telemetryRingSize : Nat := 50

/-- Where `ClientLoop` is. -/
inductive LoopPoint where
  | selecting
  /-- At `kr.rInCh <- r`, with the number of sends before its own. -/
  | handing (ahead : Nat)
deriving DecidableEq, Repr

structure KafkaRunner (α : Type*) where
  ring : RingBuffer α
  loop : LoopPoint
  /-- The records given to the Kafka client whose promise has not been called. -/
  inFlight : List α
deriving DecidableEq, Repr

inductive ClientEvent (α : Type*) where
  /-- The loop takes a message, and sends its record to the ring buffer. -/
  | message (r : α)
  /-- The loop takes a record from the ring buffer, and gives it to the Kafka client. -/
  | produce
  /-- The promise of a record, which sends the record to the ring buffer again if it failed. -/
  | promise (i : Nat) (failed : Bool)
  | run
deriving DecidableEq, Repr

namespace KafkaRunner

variable {α : Type*}

def newKafkaRunner : KafkaRunner α := ⟨.newRingBuffer telemetryRingSize, .selecting, []⟩

/-- `Run` has received the first of the sends. -/
def LoopPoint.taken : LoopPoint → LoopPoint
  | .handing (ahead + 1) => .handing ahead
  | _ => .selecting

def step (k : KafkaRunner α) : ClientEvent α → KafkaRunner α
  | .message r =>
    match k.loop with
    | .selecting =>
      { k with ring := (k.ring.step (.produce r)).1, loop := .handing k.ring.inCh.length }
    | .handing _ => k
  | .produce =>
    match k.loop, k.ring.step .consume with
    | .selecting, (ring, .consumed r) => { k with ring, inFlight := k.inFlight ++ [r] }
    | _, _ => k
  | .promise i failed =>
    match k.inFlight[i]? with
    | some r =>
      if failed then
        { k with ring := (k.ring.step (.produce r)).1, inFlight := k.inFlight.eraseIdx i }
      else { k with inFlight := k.inFlight.eraseIdx i }
    | none => k
  | .run =>
    match k.ring.stepRun with
    | (ring, .taken) => { k with ring, loop := LoopPoint.taken k.loop }
    | (ring, _) => { k with ring }

/-- An event of the client is at most one event of the ring buffer. -/
theorem step_ring (k : KafkaRunner α) (e : ClientEvent α) :
    ∃ es, (k.step e).ring = k.ring.after es := by
  cases e with
  | message r =>
    rcases hloop : k.loop with _ | ahead
    · exact ⟨[.produce r], by simp only [step, hloop]; rfl⟩
    · exact ⟨[], by simp only [step, hloop]; rfl⟩
  | produce =>
    simp only [step]
    split
    · next ring r _ hconsume => exact ⟨[.consume], (congrArg Prod.fst hconsume).symm⟩
    · exact ⟨[], rfl⟩
  | promise i failed =>
    simp only [step]
    split
    · next r _ =>
      split
      · exact ⟨[.produce r], rfl⟩
      · exact ⟨[], rfl⟩
    · exact ⟨[], rfl⟩
  | run =>
    refine ⟨[.run], ?_⟩
    change _ = k.ring.stepRun.1
    simp only [step]
    split <;> next hrun => exact (congrArg Prod.fst hrun).symm

/-- Every run of the client is a run of its ring buffer. -/
theorem run_ring (k : KafkaRunner α) (es : List (ClientEvent α)) :
    ∃ res, (es.foldl step k).ring = k.ring.after res := by
  induction es generalizing k with
  | nil => exact ⟨[], rfl⟩
  | cons e es ih =>
    rcases step_ring k e with ⟨es₁, h₁⟩
    rcases ih (k.step e) with ⟨es₂, h₂⟩
    refine ⟨es₁ ++ es₂, ?_⟩
    rw [List.foldl_cons, h₂, h₁]
    exact (List.foldl_append ..).symm

/-- The loop waits for `Run`, which waits for itself. -/
def Frozen (k : KafkaRunner α) : Prop := k.ring.Stuck ∧ ∃ ahead, k.loop = .handing ahead

theorem Frozen.step {k : KafkaRunner α} (h : Frozen k) (e : ClientEvent α) : Frozen (k.step e) := by
  rcases h with ⟨hstuck, ahead, hloop⟩
  cases e with
  | message r =>
    simp only [KafkaRunner.step, hloop]
    exact ⟨hstuck, ahead, hloop⟩
  | produce =>
    simp only [KafkaRunner.step, hloop]
    exact ⟨hstuck, ahead, hloop⟩
  | promise i failed =>
    simp only [KafkaRunner.step]
    split
    · split
      · exact ⟨hstuck.step _, ahead, hloop⟩
      · exact ⟨hstuck, ahead, hloop⟩
    · exact ⟨hstuck, ahead, hloop⟩
  | run =>
    simp only [KafkaRunner.step, hstuck.blocked]
    exact ⟨hstuck, ahead, hloop⟩

/-- A frozen client never takes a message or a record again. -/
theorem Frozen.run {k : KafkaRunner α} (h : Frozen k) (es : List (ClientEvent α)) :
    Frozen (es.foldl KafkaRunner.step k) := by
  induction es generalizing k with
  | nil => exact h
  | cons e es ih => exact ih (h.step e)

/-- The loop fills the buffer, hands over one more record, empties the buffer before `Run` pops, and
takes the next message. -/
def freezingRun : List (ClientEvent Nat) :=
  (List.replicate (telemetryRingSize + 1) [.message 0, .run, .run]).flatten ++
    List.replicate telemetryRingSize .produce ++ [.message 1]

theorem freezingRun_freezes : Frozen (freezingRun.foldl step newKafkaRunner) := by
  have h : (freezingRun.foldl step newKafkaRunner).ring = ⟨50, [1], [], .popping 0⟩ ∧
      (freezingRun.foldl step newKafkaRunner).loop = .handing 0 := by decide +kernel
  exact ⟨⟨by rw [h.1], 0, by rw [h.1]⟩, 0, h.2⟩

end KafkaRunner

end Rdfm.Linux
