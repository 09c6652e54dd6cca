import Rdfm.Linux.FileStoreQueue

/-!
# Failed enqueues of the file store

The calls of a `FileStore` as wholes, one after the other, with items that may be nil and writes
that may fail. Both semaphores mirror the number of stored items, but an enqueue takes its slot
before `pushItemToBack` and does not give it back when that fails, and `Pop` takes no permit for the
item it removes. The counts are right after each call exactly as long as no enqueue fails with a
slot in hand, and `Pop` only removes what a `WaitNonEmpty` has waited for
(`fileStore_accounting_iff`).
-/

namespace Rdfm.Linux

open Rdfm.Lib

/-! ## Calls -/

/-- How `os.WriteFile` ends; a write that fails may leave a file with something else in it. -/
inductive WriteEnd where
  | written
  | failed (left : Option Bytes)
deriving DecidableEq, Repr

inductive EnqueueError where
  | store (e : StoreError)
  /-- The error of `os.WriteFile`. -/
  | write
  /-- The error of the context, from `Acquire`. -/
  | context
deriving DecidableEq, Repr

/-- `pushItemToBack`, with the end of its write. -/
def FileStore.pushItem (q : FileStore) (dir : Dir) (item : Option Bytes) :
    WriteEnd → Option (Option EnqueueError × FileStore × Dir)
  | .written => (q.pushItemToBack dir item).map fun (e, q', dir') => (e.map .store, q', dir')
  | .failed left =>
    match item with
    | none => some (some (.store .cannotQueueNil), q, dir)
    | some _ =>
      if q.itemsByIdx.length > q.capacity then some (some (.store .full), q, dir)
      else some (some .write, q, (left.map (writeFile q.writeIdx · dir)).getD dir)

/-- The calls, each with what its environment decides: the end of the write, and whether the wait
for a semaphore ends with the error of the context. -/
inductive StoreCall where
  | enqueue (item : Option Bytes) (write : WriteEnd) (cancelled : Bool)
  | tryEnqueue (item : Option Bytes) (write : WriteEnd)
  | dequeue (cancelled : Bool)
  | tryDequeue
  | waitNonEmpty (cancelled : Bool)
  | peek
  | pop
deriving DecidableEq, Repr

inductive CallAnswer where
  /-- No error. -/
  | ok
  | item (blob : Option Bytes)
  | failed (e : EnqueueError)
  | empty
  | cancelled
  /-- The call waits for a semaphore, and has not returned. -/
  | waits
deriving DecidableEq, Repr

/-- A store, its directory, and the calls of `WaitNonEmpty` that no `Pop` has followed yet. -/
structure StoreState where
  store : FileStore
  dir : Dir
  waiting : Nat
deriving DecidableEq, Repr

namespace StoreState

/-- `NewFileStore`; a capacity below the number of items, such as a negative one, is raised to it. -/
def newFileStore (capacity : Int) (dir : Dir) : Option StoreState :=
  (FileStore.reload capacity.toNat dir).map fun store => ⟨store, dir, 0⟩

def acquireSlot (s : StoreState) : Option StoreState :=
  s.store.availableSlots.tryAcquire.map fun availableSlots =>
    { s with store := { s.store with availableSlots } }

def acquireItem (s : StoreState) : Option StoreState :=
  s.store.availableItems.tryAcquire.map fun availableItems =>
    { s with store := { s.store with availableItems } }

def pushItem (s : StoreState) (item : Option Bytes) (write : WriteEnd) :
    Option (StoreState × CallAnswer) :=
  (s.store.pushItem s.dir item write).map fun (e, store, dir) =>
    ({ s with store, dir }, e.elim .ok .failed)

def popFront (s : StoreState) : Option (StoreState × Option Bytes) :=
  (s.store.popFrontItem s.dir).map fun (item, store, dir) => ({ s with store, dir }, item)

/-- One call; `none` is a panic, or a call that never returns. -/
def call (s : StoreState) : StoreCall → Option (StoreState × CallAnswer)
  | .enqueue item write cancelled =>
    if cancelled then some (s, .failed .context)
    else
      match s.acquireSlot with
      | none => some (s, .waits)
      | some s' => s'.pushItem item write
  | .tryEnqueue item write =>
    match s.acquireSlot with
    | none => some (s, .failed (.store .full))
    | some s' => s'.pushItem item write
  | .dequeue cancelled =>
    if cancelled then some (s, .cancelled)
    else
      match s.acquireItem with
      | none => some (s, .waits)
      | some s' => s'.popFront.map fun (s, item) => (s, .item item)
  | .tryDequeue =>
    match s.acquireItem with
    | none => some (s, .empty)
    | some s' => s'.popFront.map fun (s, item) => (s, .item item)
  | .waitNonEmpty cancelled =>
    if cancelled then some (s, .cancelled)
    else
      match s.acquireItem with
      | none => some (s, .waits)
      | some s' => some ({ s' with waiting := s'.waiting + 1 }, .ok)
  | .peek => s.store.peekFrontItem.map fun item => (s, .item item)
  | .pop =>
    s.popFront.map fun (s', item) =>
      ({ s' with waiting := s'.waiting - 1 }, if item.isSome then .ok else .empty)

/-- The state after a call; `none` once the process has ended or hangs. -/
def next (s : Option StoreState) (c : StoreCall) : Option StoreState :=
  s.bind fun s => (s.call c).map Prod.fst

/-! ## Accounting -/

def stored (s : StoreState) : Nat := s.store.itemsByIdx.length

def freeSlots (s : StoreState) : Nat := s.store.availableSlots.size - s.store.availableSlots.cur

def itemPermits (s : StoreState) : Nat := s.store.availableItems.size - s.store.availableItems.cur

/-- The semaphores count the stored items, and the room that is left takes items. -/
structure Accounted (limit : Nat) (s : StoreState) : Prop where
  slots : s.freeSlots + s.stored = limit
  permits : s.itemPermits + s.waiting = s.stored
  accepts : ∀ items : List Bytes, s.stored + items.length ≤ limit →
    ∃ s', runAll call s (items.map fun item => .tryEnqueue (some item) .written) =
      some (s', List.replicate items.length .ok) ∧ s'.stored = s.stored + items.length

/-- After the call the process runs on, and its counts are right. -/
def AccountedAfter (limit : Nat) (s : Option StoreState) (c : StoreCall) : Prop :=
  ∃ s', next s c = some s' ∧ s'.Accounted limit

/-- The item can be pushed. -/
def Pushable (item : Option Bytes) (write : WriteEnd) : Prop := item ≠ none ∧ write = .written

instance (item : Option Bytes) (write : WriteEnd) : Decidable (Pushable item write) :=
  inferInstanceAs (Decidable (_ ∧ _))

/-- An enqueue with a free slot does not fail, and a `Pop` has its `WaitNonEmpty`. -/
def Careful (s : StoreState) : StoreCall → Prop
  | .enqueue item write cancelled => cancelled ∨ s.freeSlots = 0 ∨ Pushable item write
  | .tryEnqueue item write => s.freeSlots = 0 ∨ Pushable item write
  | .pop => s.stored = 0 ∨ 0 < s.waiting
  | _ => True

instance (s : StoreState) (c : StoreCall) : Decidable (s.Careful c) :=
  match c with
  | .enqueue _ _ _ => inferInstanceAs (Decidable (_ ∨ _ ∨ _))
  | .tryEnqueue _ _ => inferInstanceAs (Decidable (_ ∨ _))
  | .pop => inferInstanceAs (Decidable (_ ∨ _))
  | .dequeue _ | .tryDequeue | .waitNonEmpty _ | .peek => .isTrue trivial

/-- The call is careful, in the state it meets. -/
def CarefulCall (s : Option StoreState) (c : StoreCall) : Prop := ∀ s' ∈ s, s'.Careful c

end StoreState

/-! ## What a push and a pop leave in memory -/

namespace FileStore

/-- The cache holds the items `xs` from index `lo` on; the files are of no account here. -/
structure Cached (q : FileStore) (lo : Nat) (xs : List Bytes) : Prop where
  readIdx : q.readIdx = lo
  writeIdx : q.writeIdx = lo + xs.length
  items : Entries.Holds idxKey lo xs q.itemsByIdx

variable {q q' : FileStore} {dir dir' : Dir} {lo : Nat} {x : Bytes} {xs : List Bytes}
  {item : Option Bytes}

theorem Stored.cached (h : Stored q dir lo xs) : Cached q lo xs := ⟨h.readIdx, h.writeIdx, h.items⟩

/-- There is a directory that holds the same. -/
theorem Cached.stored (h : Cached q lo xs) : ∃ dir, Stored q dir lo xs :=
  ⟨Entries.indexed itoa lo xs, h.readIdx, h.writeIdx, h.items, List.Perm.refl _⟩

theorem pushItemToBack_dir {e : Option StoreError} (h : q.pushItemToBack dir item = some (e, q', dir'))
    (dir₁ : Dir) : ∃ dir₁', q.pushItemToBack dir₁ item = some (e, q', dir₁') := by
  unfold pushItemToBack at h ⊢
  cases item with
  | none =>
    cases h
    exact ⟨dir₁, rfl⟩
  | some blob =>
    dsimp only at h ⊢
    by_cases hfull : q.itemsByIdx.length > q.capacity
    · rw [if_pos hfull] at h ⊢
      cases h
      exact ⟨dir₁, rfl⟩
    · rw [if_neg hfull] at h ⊢
      cases hrelease : q.availableItems.release with
      | none =>
        rw [hrelease] at h
        cases h
      | some availableItems =>
        rw [hrelease] at h
        cases h
        exact ⟨_, rfl⟩

theorem popFrontItem_dir (h : q.popFrontItem dir = some (item, q', dir')) (dir₁ : Dir) :
    ∃ dir₁', q.popFrontItem dir₁ = some (item, q', dir₁') := by
  unfold popFrontItem at h ⊢
  cases hfront : q.getFrontItemIndex with
  | none =>
    rw [hfront] at h
    cases h
  | some front =>
    rw [hfront] at h
    cases front with
    | none =>
      cases h
      exact ⟨dir₁, rfl⟩
    | some frontIdx =>
      cases hrelease : q.availableSlots.release with
      | none =>
        simp [hrelease] at h
      | some availableSlots =>
        simp only [hrelease, Option.bind_eq_bind, Option.bind_some, Option.some.injEq,
          Prod.mk.injEq] at h ⊢
        rcases h with ⟨rfl, rfl, -⟩
        exact ⟨_, rfl, rfl, rfl⟩

theorem Cached.push (h : Cached q lo xs) (hcap : xs.length ≤ q.capacity)
    (hitems : 0 < q.availableItems.cur) (dir : Dir) (blob : Bytes) :
    ∃ q' dir', q.pushItemToBack dir (some blob) = some (none, q', dir') ∧
      Cached q' lo (xs ++ [blob]) ∧ q'.capacity = q.capacity ∧
      q'.availableSlots = q.availableSlots ∧
      q'.availableItems = ⟨q.availableItems.size, q.availableItems.cur - 1⟩ := by
  rcases h.stored with ⟨dir₁, hstored⟩
  rcases hstored.push hcap hitems blob with ⟨q', _, hpush, hstored', hcap', hslots', hitems'⟩
  rcases pushItemToBack_dir hpush dir with ⟨dir', hpush'⟩
  exact ⟨q', dir', hpush', hstored'.cached, hcap', hslots', hitems'⟩

theorem Cached.pop (h : Cached q lo (x :: xs)) (hslots : 0 < q.availableSlots.cur) (dir : Dir) :
    ∃ q' dir', q.popFrontItem dir = some (some x, q', dir') ∧ Cached q' (lo + 1) xs ∧
      q'.capacity = q.capacity ∧ q'.availableItems = q.availableItems ∧
      q'.availableSlots = ⟨q.availableSlots.size, q.availableSlots.cur - 1⟩ := by
  rcases h.stored with ⟨dir₁, hstored⟩
  rcases hstored.pop hslots with ⟨q', _, hpop, hstored', hcap', hitems', hslots'⟩
  rcases popFrontItem_dir hpop dir with ⟨dir', hpop'⟩
  exact ⟨q', dir', hpop', hstored'.cached, hcap', hitems', hslots'⟩

end FileStore

/-! ## Careful calls -/

namespace StoreState

/-- What the calls rely on: the cache is a queue, and the semaphores count it. -/
structure Counted (limit : Nat) (s : StoreState) : Prop where
  cached : ∃ lo xs, s.store.Cached lo xs
  capacity : s.store.capacity = limit
  slots : s.store.availableSlots = ⟨limit, s.stored⟩
  permits : s.store.availableItems = ⟨limit, limit - s.stored + s.waiting⟩
  stored_le : s.stored ≤ limit
  waiting_le : s.waiting ≤ s.stored

variable {limit : Nat} {s : StoreState}

theorem Counted.freeSlots (h : Counted limit s) : s.freeSlots = limit - s.stored := by
  unfold StoreState.freeSlots
  rw [h.slots]

theorem Counted.itemPermits (h : Counted limit s) : s.itemPermits = s.stored - s.waiting := by
  have hstored := h.stored_le
  have hwaiting := h.waiting_le
  unfold StoreState.itemPermits
  rw [h.permits]
  dsimp only
  omega

theorem Counted.acquireSlot (h : Counted limit s) (hroom : s.stored < limit) :
    s.acquireSlot = some { s with store := { s.store with
      availableSlots := ⟨limit, s.stored + 1⟩ } } := by
  unfold StoreState.acquireSlot Semaphore.tryAcquire
  rw [h.slots, if_pos hroom, Option.map_some]

theorem Counted.acquireSlot_full (h : Counted limit s) (hfull : ¬ s.stored < limit) :
    s.acquireSlot = none := by
  unfold StoreState.acquireSlot Semaphore.tryAcquire
  rw [h.slots, if_neg hfull, Option.map_none]

theorem Counted.acquireItem (h : Counted limit s) (hitem : s.waiting < s.stored) :
    s.acquireItem = some { s with store := { s.store with
      availableItems := ⟨limit, limit - s.stored + (s.waiting + 1)⟩ } } := by
  have hstored := h.stored_le
  unfold StoreState.acquireItem Semaphore.tryAcquire
  rw [h.permits, if_pos (by dsimp only; omega), Option.map_some]
  rfl

theorem Counted.acquireItem_none (h : Counted limit s) (hnone : ¬ s.waiting < s.stored) :
    s.acquireItem = none := by
  have hstored := h.stored_le
  unfold StoreState.acquireItem Semaphore.tryAcquire
  rw [h.permits, if_neg (by dsimp only; omega), Option.map_none]

/-- An item that is pushed, with a slot taken for it. -/
theorem Counted.push (h : Counted limit s) (hroom : s.stored < limit) (blob : Bytes) :
    ∃ s', { s with store := { s.store with availableSlots := ⟨limit, s.stored + 1⟩ } }.pushItem
        (some blob) .written = some (s', .ok) ∧ Counted limit s' ∧ s'.stored = s.stored + 1 := by
  rcases h.cached with ⟨lo, xs, hcached⟩
  have hlength : s.stored = xs.length := hcached.items.length
  have hcached' : FileStore.Cached { s.store with availableSlots := ⟨limit, s.stored + 1⟩ } lo xs :=
    ⟨hcached.readIdx, hcached.writeIdx, hcached.items⟩
  have hcap : xs.length ≤ s.store.capacity := by
    rw [h.capacity]
    omega
  have hcur : 0 < s.store.availableItems.cur := by
    rw [h.permits]
    dsimp only
    omega
  rcases hcached'.push hcap hcur s.dir blob with
    ⟨store, dir, hpush, hcached₁, hcap₁, hslots₁, hitems₁⟩
  have hstored : store.itemsByIdx.length = s.stored + 1 := by
    rw [hcached₁.items.length, List.length_append, List.length_singleton, hlength]
  refine ⟨{ s with store, dir }, ?_, ?_, hstored⟩
  · unfold StoreState.pushItem FileStore.pushItem
    dsimp only
    rw [hpush]
    rfl
  · have hwaiting := h.waiting_le
    refine ⟨⟨lo, _, hcached₁⟩, hcap₁.trans h.capacity, ?_, ?_, ?_, ?_⟩
    · exact hslots₁.trans (congrArg (Semaphore.mk limit) hstored.symm)
    · change store.availableItems = ⟨limit, limit - store.itemsByIdx.length + s.waiting⟩
      rw [hitems₁, hstored, h.permits]
      congr 1
      dsimp only
      omega
    · change store.itemsByIdx.length ≤ limit
      omega
    · change s.waiting ≤ store.itemsByIdx.length
      omega

/-- A push that fails leaves its slot taken, and nothing else. -/
theorem pushItem_fails {item : Option Bytes} {write : WriteEnd} (hfails : ¬ Pushable item write)
    (s : StoreState) : ∃ dir e, s.pushItem item write = some ({ s with dir }, .failed e) := by
  unfold StoreState.pushItem FileStore.pushItem
  cases item with
  | none =>
    cases write with
    | written => exact ⟨s.dir, _, rfl⟩
    | failed left => exact ⟨s.dir, _, rfl⟩
  | some blob =>
    cases write with
    | written => exact absurd ⟨nofun, rfl⟩ hfails
    | failed left =>
      dsimp only
      split
      · exact ⟨s.dir, _, rfl⟩
      · exact ⟨_, _, rfl⟩

/-- A pop of an item that a permit was taken for, be it now or by a `WaitNonEmpty`. -/
theorem Counted.pop {waiting : Nat} (h : Counted limit s) (hitem : waiting < s.stored) (w : Nat) :
    ∃ item s', { s with
        store := { s.store with
          availableItems := ⟨limit, limit - s.stored + (waiting + 1)⟩ }
        waiting := w }.popFront = some (s', some item) ∧
      s'.waiting = w ∧ Counted limit { s' with waiting } := by
  rcases h.cached with ⟨lo, xs, hcached⟩
  have hlength : s.stored = xs.length := hcached.items.length
  cases xs with
  | nil =>
    rw [List.length_nil] at hlength
    omega
  | cons x xs =>
    rw [List.length_cons] at hlength
    have hcached' : FileStore.Cached { s.store with
        availableItems := ⟨limit, limit - s.stored + (waiting + 1)⟩ } lo (x :: xs) :=
      ⟨hcached.readIdx, hcached.writeIdx, hcached.items⟩
    have hcur : 0 < s.store.availableSlots.cur := by
      rw [h.slots]
      dsimp only
      omega
    rcases hcached'.pop hcur s.dir with ⟨store, dir, hpop, hcached₁, hcap₁, hitems₁, hslots₁⟩
    have hstored : store.itemsByIdx.length = xs.length := hcached₁.items.length
    have hle := h.stored_le
    refine ⟨x, ⟨store, dir, w⟩, ?_, rfl, ⟨lo + 1, xs, hcached₁⟩, hcap₁.trans h.capacity, ?_, ?_, ?_, ?_⟩
    · unfold StoreState.popFront
      dsimp only
      rw [hpop]
      rfl
    · change store.availableSlots = ⟨limit, store.itemsByIdx.length⟩
      rw [hslots₁, hstored]
      dsimp only
      rw [h.slots]
      congr 1
      dsimp only
      omega
    · change store.availableItems = ⟨limit, limit - store.itemsByIdx.length + waiting⟩
      rw [hitems₁, hstored]
      change Semaphore.mk limit (limit - s.stored + (waiting + 1)) = _
      congr 1
      omega
    · change store.itemsByIdx.length ≤ limit
      omega
    · change waiting ≤ store.itemsByIdx.length
      omega

theorem Counted.enqueue (h : Counted limit s) {item : Option Bytes} {write : WriteEnd}
    (hcareful : s.freeSlots = 0 ∨ Pushable item write) :
    s.acquireSlot = none ∨ ∃ s₁ s' r, s.acquireSlot = some s₁ ∧
      s₁.pushItem item write = some (s', r) ∧ Counted limit s' := by
  rw [h.freeSlots] at hcareful
  by_cases hroom : s.stored < limit
  · right
    rcases hcareful with hzero | ⟨hitem, rfl⟩
    · omega
    · rcases Option.ne_none_iff_exists'.mp hitem with ⟨blob, rfl⟩
      rcases h.push hroom blob with ⟨s', hpush, hcounted, -⟩
      exact ⟨_, s', _, h.acquireSlot hroom, hpush, hcounted⟩
  · exact .inl (h.acquireSlot_full hroom)

/-- The slot of an enqueue that fails is lost. -/
theorem Counted.enqueue_fails (h : Counted limit s) {item : Option Bytes} {write : WriteEnd}
    (hfree : s.freeSlots ≠ 0) (hfails : ¬ Pushable item write) :
    ∃ s₁ s' r, s.acquireSlot = some s₁ ∧ s₁.pushItem item write = some (s', r) ∧
      ¬ Accounted limit s' := by
  rw [h.freeSlots] at hfree
  have hroom : s.stored < limit := by omega
  rcases pushItem_fails hfails { s with store := { s.store with
    availableSlots := ⟨limit, s.stored + 1⟩ } } with ⟨dir, e, hpush⟩
  refine ⟨_, _, _, h.acquireSlot hroom, hpush, fun haccounted => ?_⟩
  have hslots : limit - (s.stored + 1) + s.stored = limit := haccounted.slots
  omega

theorem Counted.dequeue (h : Counted limit s) :
    s.acquireItem = none ∨ ∃ s₁ s' item, s.acquireItem = some s₁ ∧
      s₁.popFront = some (s', some item) ∧ Counted limit s' := by
  by_cases hitem : s.waiting < s.stored
  · right
    rcases h.pop hitem s.waiting with ⟨item, s', hpop, hw, hcounted⟩
    refine ⟨_, s', item, h.acquireItem hitem, hpop, ?_⟩
    rw [← hw] at hcounted
    exact hcounted
  · exact .inl (h.acquireItem_none hitem)

theorem popFront_empty (hempty : s.stored = 0) :
    s.popFront = some (s, none) := by
  have hfront : s.store.getFrontItemIndex = some none := by
    unfold FileStore.getFrontItemIndex
    exact if_pos hempty
  unfold StoreState.popFront FileStore.popFrontItem
  rw [hfront]
  rfl

/-- A careful call ends, and what the calls rely on still holds. -/
theorem Counted.careful (h : Counted limit s) {c : StoreCall} (hc : s.Careful c) :
    ∃ s', next (some s) c = some s' ∧ Counted limit s' := by
  unfold next
  rw [Option.bind_some]
  cases c with
  | enqueue item write cancelled =>
    cases cancelled with
    | true => exact ⟨s, rfl, h⟩
    | false =>
      have hcareful : s.freeSlots = 0 ∨ Pushable item write := hc.resolve_left Bool.false_ne_true
      rcases h.enqueue hcareful with hfull | ⟨s₁, s', r, hslot, hpush, hcounted⟩
      · exact ⟨s, by simp [call, hfull], h⟩
      · exact ⟨s', by simp [call, hslot, hpush], hcounted⟩
  | tryEnqueue item write =>
    rcases h.enqueue hc with hfull | ⟨s₁, s', r, hslot, hpush, hcounted⟩
    · exact ⟨s, by simp [call, hfull], h⟩
    · exact ⟨s', by simp [call, hslot, hpush], hcounted⟩
  | dequeue cancelled =>
    cases cancelled with
    | true => exact ⟨s, rfl, h⟩
    | false =>
      rcases h.dequeue with hnone | ⟨s₁, s', item, hitem, hpop, hcounted⟩
      · exact ⟨s, by simp [call, hnone], h⟩
      · exact ⟨s', by simp [call, hitem, hpop], hcounted⟩
  | tryDequeue =>
    rcases h.dequeue with hnone | ⟨s₁, s', item, hitem, hpop, hcounted⟩
    · exact ⟨s, by simp [call, hnone], h⟩
    · exact ⟨s', by simp [call, hitem, hpop], hcounted⟩
  | waitNonEmpty cancelled =>
    cases cancelled with
    | true => exact ⟨s, rfl, h⟩
    | false =>
      by_cases hitem : s.waiting < s.stored
      · refine ⟨{ s with
          store := { s.store with
            availableItems := ⟨limit, limit - s.stored + (s.waiting + 1)⟩ }
          waiting := s.waiting + 1 }, by simp [call, h.acquireItem hitem], ?_⟩
        rcases h.cached with ⟨lo, xs, hcached⟩
        exact ⟨⟨lo, xs, hcached.readIdx, hcached.writeIdx, hcached.items⟩, h.capacity, h.slots, rfl,
          h.stored_le, hitem⟩
      · exact ⟨s, by simp [call, h.acquireItem_none hitem], h⟩
  | peek =>
    rcases h.cached with ⟨lo, xs, hcached⟩
    rcases hcached.stored with ⟨dir, hstored⟩
    exact ⟨s, by simp [call, hstored.peek], h⟩
  | pop =>
    rcases Nat.eq_zero_or_pos s.waiting with hzero | hpos
    · have hempty : s.stored = 0 := by
        rcases hc with hc | hc
        · exact hc
        · omega
      refine ⟨{ s with waiting := s.waiting - 1 }, by simp [call, popFront_empty hempty], ?_⟩
      rw [hzero, Nat.zero_sub, ← hzero]
      exact h
    · have hle := h.waiting_le
      have hitem : s.waiting - 1 < s.stored := by omega
      rcases h.pop hitem s.waiting with ⟨item, s', hpop, hw, hcounted⟩
      rw [Nat.sub_add_cancel hpos, ← h.permits] at hpop
      refine ⟨{ s' with waiting := s'.waiting - 1 }, by simp [call, hpop], ?_⟩
      rw [hw]
      exact hcounted

/-- After any other call the counts are wrong. -/
theorem Counted.careless (h : Counted limit s) {c : StoreCall} (hc : ¬ s.Careful c) :
    ¬ AccountedAfter limit (some s) c := by
  rintro ⟨s', hnext, haccounted⟩
  unfold next at hnext
  rw [Option.bind_some] at hnext
  cases c with
  | enqueue item write cancelled =>
    simp only [Careful, not_or, Bool.not_eq_true] at hc
    rcases hc with ⟨rfl, hfree, hfails⟩
    rcases h.enqueue_fails hfree hfails with ⟨s₁, s₂, r, hslot, hpush, hnot⟩
    simp only [call, hslot, hpush, Bool.false_eq_true, if_false, Option.map_some,
      Option.some.injEq] at hnext
    subst hnext
    exact hnot haccounted
  | tryEnqueue item write =>
    simp only [Careful, not_or] at hc
    rcases h.enqueue_fails hc.1 hc.2 with ⟨s₁, s₂, r, hslot, hpush, hnot⟩
    simp only [call, hslot, hpush, Option.map_some, Option.some.injEq] at hnext
    subst hnext
    exact hnot haccounted
  | pop =>
    simp only [Careful, not_or, Nat.not_lt, Nat.le_zero] at hc
    rcases hc with ⟨hstored, hwaiting⟩
    have hitem : 0 < s.stored := by omega
    rcases h.cached with ⟨lo, xs, hcached⟩
    have hlength : s.stored = xs.length := hcached.items.length
    cases xs with
    | nil => exact hstored hlength
    | cons x xs =>
      have hcur : 0 < s.store.availableSlots.cur := by
        rw [h.slots]
        exact hitem
      rcases hcached.pop hcur s.dir with ⟨store, dir, hpop, hcached₁, -, hitems₁, -⟩
      have hlength₁ : store.itemsByIdx.length = xs.length := hcached₁.items.length
      simp only [call, StoreState.popFront, hpop, Option.map_some, Option.some.injEq] at hnext
      subst hnext
      -- the permit of the item that is gone is still there
      have hpermits : (store.availableItems.size - store.availableItems.cur) + (s.waiting - 1) =
        store.itemsByIdx.length := haccounted.permits
      have hkept : s.store.availableItems.size - s.store.availableItems.cur = s.stored := by
        have hkept := h.itemPermits
        rwa [hwaiting, Nat.sub_zero] at hkept
      rw [hitems₁, hkept, hwaiting, hlength₁, hlength, List.length_cons] at hpermits
      omega
  | dequeue | tryDequeue | waitNonEmpty | peek => exact hc trivial

/-- The room that is left takes as many items. -/
theorem Counted.accepts (h : Counted limit s) (items : List Bytes)
    (hroom : s.stored + items.length ≤ limit) :
    ∃ s', runAll call s (items.map fun item => .tryEnqueue (some item) .written) =
      some (s', List.replicate items.length .ok) ∧ s'.stored = s.stored + items.length := by
  induction items generalizing s with
  | nil => exact ⟨s, rfl, rfl⟩
  | cons item items ih =>
    rw [List.length_cons] at hroom
    have hfree : s.stored < limit := by omega
    rcases h.push hfree item with ⟨s₁, hpush, hcounted, hstored⟩
    rcases ih hcounted (by omega) with ⟨s', hrun, hstored'⟩
    have hcall : s.call (.tryEnqueue (some item) .written) = some (s₁, .ok) := by
      simp only [call, h.acquireSlot hfree, hpush]
    refine ⟨s', runAll_cons_iff.mpr ⟨s₁, .ok, _, hcall, hrun, rfl⟩, ?_⟩
    rw [hstored', hstored, List.length_cons]
    omega

theorem Counted.accounted (h : Counted limit s) : Accounted limit s := by
  have hstored := h.stored_le
  have hwaiting := h.waiting_le
  refine ⟨?_, ?_, h.accepts⟩
  · rw [h.freeSlots]
    omega
  · rw [h.itemPermits]
    omega

theorem newFileStore_counted (capacity : Int) {dir : Dir} {lo : Nat} {xs : List Bytes}
    (hdir : Entries.Holds itoa lo xs dir) :
    ∃ s, newFileStore capacity dir = some s ∧ s.stored = xs.length ∧
      Counted (max capacity.toNat xs.length) s := by
  rcases FileStore.reload_of_holds capacity.toNat hdir with
    ⟨store, lo', hload, hstored, hcap, hslots, hitems⟩
  have hlength : store.itemsByIdx.length = xs.length := hstored.length
  refine ⟨⟨store, dir, 0⟩, ?_, hlength, ⟨lo', xs, hstored.cached⟩, hcap, ?_, ?_, ?_, Nat.zero_le _⟩
  · unfold newFileStore
    rw [hload, Option.map_some]
  · exact hslots.trans (congrArg _ hlength.symm)
  · change store.availableItems = ⟨_, _ - store.itemsByIdx.length⟩
    rw [hitems, hlength]
  · change store.itemsByIdx.length ≤ _
    rw [hlength]
    exact Nat.le_max_right _ _

/-! ## The counts along every run -/

/-- **The counts of the semaphores are right after every call, and the room that is left takes
items, exactly along the runs whose enqueues do not fail with a slot in hand and whose pops follow a
wait.** -/
theorem fileStore_accounting_iff (capacity : Int) {dir : Dir} {lo : Nat} {xs : List Bytes}
    (hdir : Entries.Holds itoa lo xs dir) (calls : List StoreCall) :
    ∃ s, newFileStore capacity dir = some s ∧ s.stored = xs.length ∧
      s.Accounted (max capacity.toNat xs.length) ∧
      (Along next (AccountedAfter (max capacity.toNat xs.length)) (some s) calls ↔
        Along next CarefulCall (some s) calls) := by
  rcases newFileStore_counted capacity hdir with ⟨s, hnew, hstored, hcounted⟩
  refine ⟨s, hnew, hstored, hcounted.accounted, ?_⟩
  have hstep : ∀ (o : Option StoreState) (c : StoreCall),
      (∃ s, o = some s ∧ Counted (max capacity.toNat xs.length) s) →
      (AccountedAfter (max capacity.toNat xs.length) o c ↔ CarefulCall o c) ∧
        (CarefulCall o c → ∃ s, next o c = some s ∧ Counted (max capacity.toNat xs.length) s) := by
    rintro o c ⟨s, rfl, h⟩
    have hiff : CarefulCall (some s) c ↔ s.Careful c := by
      unfold CarefulCall
      simp
    rw [hiff]
    refine ⟨⟨fun hafter => ?_, fun hcareful => ?_⟩, h.careful⟩
    · by_contra hcareless
      exact h.careless hcareless hafter
    · rcases h.careful hcareful with ⟨s', hnext, hcounted'⟩
      exact ⟨s', hnext, hcounted'.accounted⟩
  exact Along.iff_of_invariant hstep ⟨s, rfl, hcounted⟩

/-- Two enqueues that fail make an empty store of two slots full. -/
theorem fileStore_slots_leak :
    ∃ s s', newFileStore 2 [] = some s ∧
      [.tryEnqueue none .written, .enqueue (some [1]) (.failed none) false].foldl next (some s) =
        some s' ∧
      s'.stored = 0 ∧ s'.freeSlots = 0 ∧
      (s'.call (.tryEnqueue (some [2]) .written)).map Prod.snd = some (.failed (.store .full)) ∧
      ¬ Along next (AccountedAfter 2) (some s)
        [.tryEnqueue none .written, .enqueue (some [1]) (.failed none) false] := by
  refine ⟨⟨⟨[], 0, 0, 2, ⟨2, 0⟩, ⟨2, 2⟩⟩, [], 0⟩, ⟨⟨[], 0, 0, 2, ⟨2, 2⟩, ⟨2, 2⟩⟩, [], 0⟩, by decide,
    by decide, by decide, by decide, by decide, ?_⟩
  rintro ⟨⟨s', hnext, haccounted⟩, -⟩
  have hs' : s' = ⟨⟨[], 0, 0, 2, ⟨2, 1⟩, ⟨2, 2⟩⟩, [], 0⟩ := Option.some.inj (hnext.symm.trans (by decide))
  have hslots := haccounted.slots
  rw [hs'] at hslots
  revert hslots
  decide

/-- A directory with two items, at the indices three and four. -/
def twoItems : Dir := [(['3'], [1]), (['4'], [2])]

/-- A store that finds more items than its capacity hands them out, and takes as many again. -/
theorem fileStore_accounting_reloaded :
    ∃ s, newFileStore (-1) twoItems = some s ∧ s.Accounted 2 ∧
      Along next (AccountedAfter 2) (some s)
        [.tryEnqueue none .written, .waitNonEmpty false, .peek, .pop, .tryDequeue,
          .enqueue (some [3]) .written false] := by
  have hdir : Entries.Holds itoa 3 [[1], [2]] twoItems := by
    have heq : Entries.indexed itoa 3 [[1], [2]] = twoItems := by decide
    unfold Entries.Holds
    rw [heq]
  rcases fileStore_accounting_iff (-1) hdir [.tryEnqueue none .written, .waitNonEmpty false, .peek,
    .pop, .tryDequeue, .enqueue (some [3]) .written false] with ⟨s, hnew, -, haccounted, hiff⟩
  refine ⟨s, hnew, haccounted, hiff.mpr ?_⟩
  have hs : newFileStore (-1) twoItems =
      some ⟨⟨[(3, [1]), (4, [2])], 3, 5, 2, ⟨2, 2⟩, ⟨2, 0⟩⟩, twoItems, 0⟩ := by decide
  rw [hs] at hnew
  cases hnew
  refine ⟨?_, ?_, ?_, ?_, ?_, ?_, trivial⟩ <;> rintro s' ⟨⟩ <;> decide

end StoreState

end Rdfm.Linux
