import Rdfm.Lib.Transition

/-!
# A bounded queue with reservations

What a persistent queue with several callers is for, in its own terms. An operation has two halves:
it reserves room (or an item), and later it puts its item in (or takes one out); in between other
callers may go on. A restart keeps the items, forgets the callers, and never drops the limit below
the number of items. Every step keeps the reservations within bounds (`bounded_step`), so every
run conserves the items in order and ends its operations (`run_start`).
-/

namespace Rdfm.Lib

structure BoundedQueue (α : Type*) where
  limit : Nat
  items : List α
  /-- The items of callers that have reserved room. -/
  enqueuing : List α
  /-- Callers of a dequeue that have reserved an item. -/
  dequeuing : Nat
  /-- Callers that have waited for an item and still have to pop it. -/
  waiting : Nat
deriving DecidableEq, Repr

/-- The halves of the operations. -/
inductive QueueOp (α : Type*) where
  | tryEnqueue (item : α)
  | enqueue (item : α)
  /-- The second half of one of the enqueues in progress. -/
  | push (i : Nat)
  | tryDequeue
  | dequeue
  /-- The second half of a dequeue in progress. -/
  | take
  | waitNonEmpty
  | peek
  | pop
  | restart (limit : Nat)
deriving DecidableEq, Repr

inductive QueueResult (α : Type*) where
  | reserved
  | full
  | empty
  | stored (item : α)
  | removed (item : α)
  | peeked (item : Option α)
  | restarted
  /-- The operation did not come to an end. -/
  | crashed
deriving DecidableEq, Repr

/-- The limit after an operation on a queue with `n` items. -/
def QueueOp.limitAfter {α : Type*} (limit n : Nat) : QueueOp α → Nat
  | .restart limit => max limit n
  | _ => limit

def QueueResult.storedItem {α : Type*} : QueueResult α → Option α
  | .stored item => some item
  | _ => none

def QueueResult.removedItem {α : Type*} : QueueResult α → Option α
  | .removed item => some item
  | _ => none

namespace BoundedQueue

variable {α : Type*}

/-- Items that a caller has reserved. -/
def reserved (q : BoundedQueue α) : Nat := q.dequeuing + q.waiting

def hasRoom (q : BoundedQueue α) : Prop := q.items.length + q.enqueuing.length < q.limit

def hasItem (q : BoundedQueue α) : Prop := q.reserved < q.items.length

instance (q : BoundedQueue α) : Decidable q.hasRoom := inferInstanceAs (Decidable (_ < _))

instance (q : BoundedQueue α) : Decidable q.hasItem := inferInstanceAs (Decidable (_ < _))

def start (limit : Nat) : BoundedQueue α := ⟨limit, [], [], 0, 0⟩

/-- Take the first item out, for a caller that has left the counts `q`. -/
def removeFront (q : BoundedQueue α) : BoundedQueue α × QueueResult α :=
  match q.items with
  | [] => (q, .crashed)
  | item :: items => ({ q with items }, .removed item)

def step (q : BoundedQueue α) : QueueOp α → Option (BoundedQueue α × QueueResult α)
  | .tryEnqueue item =>
    if q.hasRoom then some ({ q with enqueuing := q.enqueuing ++ [item] }, .reserved)
    else some (q, .full)
  | .enqueue item =>
    if q.hasRoom then some ({ q with enqueuing := q.enqueuing ++ [item] }, .reserved) else none
  | .push i =>
    q.enqueuing[i]?.map fun item =>
      ({ q with items := q.items ++ [item], enqueuing := q.enqueuing.eraseIdx i }, .stored item)
  | .tryDequeue =>
    if q.hasItem then some ({ q with dequeuing := q.dequeuing + 1 }, .reserved)
    else some (q, .empty)
  | .dequeue =>
    if q.hasItem then some ({ q with dequeuing := q.dequeuing + 1 }, .reserved) else none
  | .take =>
    if 0 < q.dequeuing then some ({ q with dequeuing := q.dequeuing - 1 }.removeFront) else none
  | .waitNonEmpty =>
    if q.hasItem then some ({ q with waiting := q.waiting + 1 }, .reserved) else none
  | .peek => some (q, .peeked q.items.head?)
  | .pop =>
    if 0 < q.waiting then some ({ q with waiting := q.waiting - 1 }.removeFront) else none
  | .restart limit =>
    some (⟨max limit q.items.length, q.items, [], 0, 0⟩, .restarted)

/-! ## Bounds -/

/-- No more items and enqueues than the limit, no more reservations than items. -/
structure Bounded (q : BoundedQueue α) : Prop where
  room : q.items.length + q.enqueuing.length ≤ q.limit
  items : q.reserved ≤ q.items.length

theorem bounded_start (limit : Nat) : Bounded (start limit : BoundedQueue α) :=
  ⟨Nat.zero_le _, Nat.zero_le _⟩

/-- A caller with a reservation finds an item. -/
theorem removeFront_of_reserved {q : BoundedQueue α} (h : 0 < q.items.length) :
    ∃ item items, q.items = item :: items ∧ q.removeFront = ({ q with items }, .removed item) := by
  unfold removeFront
  cases hq : q.items with
  | nil => simp [hq] at h
  | cons item items => exact ⟨item, items, rfl, rfl⟩

variable {q q' : BoundedQueue α} {op : QueueOp α} {r : QueueResult α}

/-- The steps of a bounded queue, each with its effect. -/
inductive Effect (q : BoundedQueue α) : QueueOp α → BoundedQueue α → QueueResult α → Prop
  | reserveRoom {op : QueueOp α} (item : α) (hop : op = .tryEnqueue item ∨ op = .enqueue item)
      (h : q.hasRoom) : Effect q op { q with enqueuing := q.enqueuing ++ [item] } .reserved
  | full (item : α) (h : ¬ q.hasRoom) : Effect q (.tryEnqueue item) q .full
  | store (i : Nat) (item : α) (h : q.enqueuing[i]? = some item) :
      Effect q (.push i)
        { q with items := q.items ++ [item], enqueuing := q.enqueuing.eraseIdx i } (.stored item)
  | reserveItem {op : QueueOp α} (hop : op = .tryDequeue ∨ op = .dequeue) (h : q.hasItem) :
      Effect q op { q with dequeuing := q.dequeuing + 1 } .reserved
  | empty (h : ¬ q.hasItem) : Effect q .tryDequeue q .empty
  | wait (h : q.hasItem) : Effect q .waitNonEmpty { q with waiting := q.waiting + 1 } .reserved
  | take (item : α) (items : List α) (h : q.items = item :: items) (hd : 0 < q.dequeuing) :
      Effect q .take { q with items, dequeuing := q.dequeuing - 1 } (.removed item)
  | pop (item : α) (items : List α) (h : q.items = item :: items) (hw : 0 < q.waiting) :
      Effect q .pop { q with items, waiting := q.waiting - 1 } (.removed item)
  | peek : Effect q .peek q (.peeked q.items.head?)
  | restart (limit : Nat) :
      Effect q (.restart limit) ⟨max limit q.items.length, q.items, [], 0, 0⟩ .restarted

theorem step_effect (hq : Bounded q) (h : q.step op = some (q', r)) : Effect q op q' r := by
  have hres := hq.items
  unfold reserved at hres
  cases op with
  | tryEnqueue item =>
    simp only [step] at h
    split at h
    · next hroom =>
      cases h
      exact .reserveRoom item (.inl rfl) hroom
    · next hroom =>
      cases h
      exact .full item hroom
  | enqueue item =>
    simp only [step] at h
    split at h
    · next hroom =>
      cases h
      exact .reserveRoom item (.inr rfl) hroom
    · cases h
  | push i =>
    simp only [step, Option.map_eq_some_iff] at h
    rcases h with ⟨item, hi, he⟩
    cases he
    exact .store i item hi
  | tryDequeue =>
    simp only [step] at h
    split at h
    · next hitem =>
      cases h
      exact .reserveItem (.inl rfl) hitem
    · next hitem =>
      cases h
      exact .empty hitem
  | dequeue =>
    simp only [step] at h
    split at h
    · next hitem =>
      cases h
      exact .reserveItem (.inr rfl) hitem
    · cases h
  | take =>
    simp only [step] at h
    split at h
    · next hd =>
      have hlen : 0 < q.items.length := by omega
      rcases removeFront_of_reserved (q := { q with dequeuing := q.dequeuing - 1 }) hlen with
        ⟨item, items, hi, hr⟩
      rw [hr] at h
      cases h
      exact .take item items hi hd
    · cases h
  | waitNonEmpty =>
    simp only [step] at h
    split at h
    · next hitem =>
      cases h
      exact .wait hitem
    · cases h
  | peek =>
    cases h
    exact .peek
  | pop =>
    simp only [step] at h
    split at h
    · next hw =>
      have hlen : 0 < q.items.length := by omega
      rcases removeFront_of_reserved (q := { q with waiting := q.waiting - 1 }) hlen with
        ⟨item, items, hi, hr⟩
      rw [hr] at h
      cases h
      exact .pop item items hi hw
    · cases h
  | restart limit =>
    cases h
    exact .restart limit

theorem bounded_step (hq : Bounded q) (h : q.step op = some (q', r)) : Bounded q' := by
  have hroom := hq.room
  have hres := hq.items
  unfold reserved at hres
  cases step_effect hq h with
  | reserveRoom item _ hr =>
    unfold hasRoom at hr
    exact ⟨by simp only [List.length_append, List.length_singleton]; omega, hres⟩
  | full => exact hq
  | store i item hi =>
    have hlt : i < q.enqueuing.length := (List.getElem?_eq_some_iff.mp hi).1
    refine ⟨?_, ?_⟩
    · simp only [List.length_append, List.length_singleton, List.length_eraseIdx_of_lt hlt]
      omega
    · simp only [reserved, List.length_append, List.length_singleton]
      omega
  | reserveItem _ hi =>
    unfold hasItem reserved at hi
    exact ⟨hroom, by simp only [reserved]; omega⟩
  | empty => exact hq
  | wait hi =>
    unfold hasItem reserved at hi
    exact ⟨hroom, by simp only [reserved]; omega⟩
  | take item items hi hd =>
    rw [hi, List.length_cons] at hroom hres
    exact ⟨by dsimp only; omega, by simp only [reserved]; omega⟩
  | pop item items hi hw =>
    rw [hi, List.length_cons] at hroom hres
    exact ⟨by dsimp only; omega, by simp only [reserved]; omega⟩
  | peek => exact hq
  | restart limit => exact ⟨Nat.le_max_right _ _, Nat.zero_le _⟩

/-! ## Conservation -/

/-- The items that were put in, in order. -/
def storedBy (rs : List (QueueResult α)) : List α := rs.filterMap QueueResult.storedItem

/-- The items that were taken out, in order. -/
def removedBy (rs : List (QueueResult α)) : List α := rs.filterMap QueueResult.removedItem

/-- Nothing lost, duplicated, reordered or altered. -/
def Conserves (rs : List (QueueResult α)) (q : BoundedQueue α) : Prop :=
  removedBy rs ++ q.items = storedBy rs

theorem conserves_step {rs : List (QueueResult α)} (hq : Bounded q) (hc : Conserves rs q)
    (h : q.step op = some (q', r)) : Conserves (rs ++ [r]) q' := by
  unfold Conserves removedBy storedBy at hc ⊢
  rw [List.filterMap_append, List.filterMap_append]
  cases step_effect hq h with
  | store i item hi =>
    simp only [QueueResult.removedItem, QueueResult.storedItem, List.filterMap_cons,
      List.filterMap_nil, List.append_nil]
    rw [← hc, List.append_assoc]
  | take item items hi hd =>
    simp only [QueueResult.removedItem, QueueResult.storedItem, List.filterMap_cons,
      List.filterMap_nil, List.append_nil]
    rw [← hc, hi, List.append_assoc, List.singleton_append]
  | pop item items hi hw =>
    simp only [QueueResult.removedItem, QueueResult.storedItem, List.filterMap_cons,
      List.filterMap_nil, List.append_nil]
    rw [← hc, hi, List.append_assoc, List.singleton_append]
  | reserveRoom | full | reserveItem | empty | wait | peek | restart =>
    simpa only [QueueResult.removedItem, QueueResult.storedItem, List.filterMap_cons,
      List.filterMap_nil, List.append_nil] using hc

variable {ops : List (QueueOp α)} {rs : List (QueueResult α)}

/-- A bounded queue never fails to end an operation. -/
theorem ends_step (hq : Bounded q) (h : q.step op = some (q', r)) : r ≠ .crashed := by
  cases step_effect hq h <;> exact nofun

/-- Only a restart moves the limit. -/
theorem limit_step (hq : Bounded q) (h : q.step op = some (q', r)) :
    q'.limit = op.limitAfter q.limit q.items.length := by
  cases step_effect hq h with
  | reserveRoom item hop => rcases hop with rfl | rfl <;> rfl
  | reserveItem hop => rcases hop with rfl | rfl <;> rfl
  | full | store | empty | wait | take | pop | peek | restart => rfl

/-- Every run from an empty queue conserves the items and ends every operation. -/
theorem run_start {limit : Nat} (h : runAll step (start limit) ops = some (q, rs)) :
    Conserves rs q ∧ .crashed ∉ rs := by
  have := runAll_history (P := fun rs q => Bounded q ∧ Conserves rs q ∧ .crashed ∉ rs)
    (fun rs q op q' r hP hs => ⟨bounded_step hP.1 hs, conserves_step hP.1 hP.2.1 hs, by
      simp only [List.mem_append, List.mem_singleton, not_or]
      exact ⟨hP.2.2, (ends_step hP.1 hs).symm⟩⟩)
    [] ⟨bounded_start limit, rfl, List.not_mem_nil⟩ h
  exact this.2

end BoundedQueue

end Rdfm.Lib
